import GithubCatalog.AnalysisOwnership

/-!
# Whose evidence

An erasure goes through when whatever names the owner's runs, lists, watches and requests is the
owner's as well (`OwnedEvidence`).  Every flow keeps that, with one exception: the membership
observations of a list snapshot join the lists of every account by their provider id, so a snapshot
of one owner's account leaves rows on another owner's list that name its own run.

* `Synced` - the evidence of every owner, which the statements keep;
* `Operation.crossesOwners` - the list snapshots that reach another owner's list;
* `erasable_throughout` - in every history without one, every owner can be erased in every state.
-/

namespace GithubCatalog

open Relational Transact

/-! ### Ownership -/

section ownership

variable {owner : String} {db db' : Database}

theorem ownsAccount_iff {a : Uuid} : ownsAccount owner db a = true ↔
    ∃ x ∈ db.githubAccounts, x.ownerRef = owner ∧ x.accountId = a := by
  simp [ownsAccount]

theorem ownsSyncRun_iff {run : Uuid} : ownsSyncRun owner db run = true ↔
    ∃ r ∈ db.syncRuns, r.syncRunId = run ∧ ownsAccount owner db r.accountId = true := by
  simp [ownsSyncRun]

theorem ownsList_iff {list : Uuid} : ownsList owner db list = true ↔
    ∃ l ∈ db.starLists, l.listId = list ∧ ownsAccount owner db l.accountId = true := by
  simp [ownsList]

/-- A run that goes with an account is owned through it. -/
theorem ownsAccount_of_run {mode : SyncMode} {run account : Uuid}
    (h : runOfAccount mode run account db = true) (howns : ownsSyncRun owner db run = true) :
    ownsAccount owner db account = true := by
  obtain ⟨r, hr, hrun, haccount⟩ := ownsSyncRun_iff.mp howns
  have hpair := List.all_eq_true.mp h r hr
  simp only [hrun, ne_eq, not_true_eq_false, decide_false, Bool.false_or, Bool.and_eq_true,
    decide_eq_true_eq] at hpair
  rwa [hpair.1] at haccount

/-- Ownership as one state says it of what another one names: nothing known becomes the owner's, and
the owner's rows stay the owner's. -/
structure OwnersKept (owner : String) (db db' : Database) : Prop where
  accounts : ∀ a, ownsAccount owner db a = true → ownsAccount owner db' a = true
  runs : ∀ run ∈ db.syncRuns.map (·.syncRunId), ownsSyncRun owner db' run = true →
    ownsSyncRun owner db run = true
  lists : ∀ l, ownsList owner db l = true → ownsList owner db' l = true

/-- The evidence rows stay where they are while accounts, runs and lists come in. -/
theorem SyncEvidence.of_kept (hrefs : ForeignKeys db) (h : SyncEvidence owner db)
    (hkept : OwnersKept owner db db') (hstars : db'.currentStarState = db.currentStarState)
    (hlists : db'.starLists = db.starLists)
    (hmemberships : db'.starListMemberships = db.starListMemberships)
    (hobservations : db'.starListMembershipObservations = db.starListMembershipObservations)
    (haudit : db'.mutationAudit = db.mutationAudit) : SyncEvidence owner db' where
  stars := by
    rw [hstars]
    intro s hs run hrun howns
    exact hkept.accounts _ (h.stars s hs run hrun
      (hkept.runs run (hrefs.stars_run s hs run hrun) howns))
  lists := by
    rw [hlists]
    intro l hl run hrun howns
    exact hkept.accounts _ (h.lists l hl run hrun
      (hkept.runs run (hrefs.lists_run l hl run hrun) howns))
  memberships := by
    rw [hmemberships]
    intro m hm run hrun howns
    exact hkept.lists _ (h.memberships m hm run hrun
      (hkept.runs run (hrefs.memberships_run m hm run hrun) howns))
  membershipObservations := by
    rw [hobservations]
    intro o ho run hrun howns
    exact hkept.lists _ (h.membershipObservations o ho run hrun
      (hkept.runs run (hrefs.membershipObservations_run o ho run hrun) howns))
  audit := by
    rw [haudit]
    exact h.audit

end ownership

/-! ### Statements that keep the evidence of the syncs -/

/-- Every owner's evidence is with the owner. -/
def Synced (db : Database) : Prop := ∀ owner, SyncEvidence owner db

/-- The tables the evidence of the syncs is about. -/
def syncEvidenceTables : List Table :=
  [.githubAccounts, .syncRuns, .currentStarState, .starLists, .starListMemberships,
    .starListMembershipObservations, .mutationAudit]

theorem synced_of_agree {db db' : Database}
    (h : ∀ t ∈ syncEvidenceTables, db'.rows t = db.rows t) : Tx.Keeps Synced db db' := by
  intro hsync owner
  have haccounts : db'.githubAccounts = db.githubAccounts := h .githubAccounts (by decide)
  have hruns : db'.syncRuns = db.syncRuns := h .syncRuns (by decide)
  have hstars : db'.currentStarState = db.currentStarState := h .currentStarState (by decide)
  have hlists : db'.starLists = db.starLists := h .starLists (by decide)
  have hmemberships : db'.starListMemberships = db.starListMemberships :=
    h .starListMemberships (by decide)
  have hobservations : db'.starListMembershipObservations = db.starListMembershipObservations :=
    h .starListMembershipObservations (by decide)
  have haudit : db'.mutationAudit = db.mutationAudit := h .mutationAudit (by decide)
  have hold := hsync owner
  constructor
  all_goals
    simp only [ownsAccount, ownsSyncRun, ownsList, haccounts, hruns, hstars, hlists, hmemberships,
      hobservations, haudit]
  · exact hold.stars
  · exact hold.lists
  · exact hold.memberships
  · exact hold.membershipObservations
  · exact hold.audit

theorem relates_synced_of_touches {α : Type} {ts : List Table} {x : Tx α} (hx : Touches ts x)
    (h : ∀ t ∈ syncEvidenceTables, t ∉ ts) : Tx.Relates (Tx.Keeps Synced) x :=
  Tx.Relates.mono hx fun _ _ hagree => synced_of_agree fun t ht => hagree t (h t ht)

theorem touches_write_of_not_mem {t : Table} (f : Database → t.Rows) (ht : t ∉ syncEvidenceTables) :
    Touches [t] (write t f) ∧ ∀ u ∈ syncEvidenceTables, u ∉ [t] := by
  refine ⟨Touches.write (List.mem_singleton.mpr rfl) f, ?_⟩
  intro u hu hmem
  exact ht (List.mem_singleton.mp hmem ▸ hu)

theorem relates_synced_write {t : Table} (f : Database → t.Rows) (ht : t ∉ syncEvidenceTables) :
    Tx.Relates (Tx.Keeps Synced) (write t f) :=
  relates_synced_of_touches (touches_write_of_not_mem f ht).1 (touches_write_of_not_mem f ht).2

/-- A new run is named by nothing yet. -/
theorem relates_synced_insertSyncRun (mode : SyncMode) (runId accountId : Uuid) (now : Time) :
    Tx.Relates (Tx.Keeps Synced) (insertSyncRun mode runId accountId now) := by
  apply relates_write_valid
  intro db hvalid hvalid' hsync owner
  refine (hsync owner).of_kept hvalid.foreignKeys ⟨fun _ h => h, ?_, fun _ h => h⟩ rfl rfl rfl rfl
    rfl
  intro run hrun howns
  obtain ⟨r, hr, hid, haccount⟩ := ownsSyncRun_iff.mp howns
  rcases List.mem_append.mp hr with hold | hnew
  · exact ownsSyncRun_iff.mpr ⟨r, hold, hid, haccount⟩
  · have hfresh := hvalid'.keys.runs.not_mem_of_append
    rw [← List.mem_singleton.mp hnew, hid] at hfresh
    exact absurd hrun hfresh

/-- An update of runs that keeps whose they are. -/
theorem relates_synced_updateRuns {p : SyncRun → Bool} {f : SyncRun → SyncRun}
    (hf : ∀ r, (f r).syncRunId = r.syncRunId ∧ (f r).accountId = r.accountId) :
    Tx.Relates (Tx.Keeps Synced) (write .syncRuns fun db => updateWhere p f db.syncRuns) := by
  apply relates_write
  intro db hvalid hsync owner
  refine (hsync owner).of_kept hvalid.foreignKeys ⟨fun _ h => h, ?_, fun _ h => h⟩ rfl rfl rfl rfl
    rfl
  intro run _ howns
  obtain ⟨r, hr, hid, haccount⟩ := ownsSyncRun_iff.mp howns
  obtain ⟨a, ha, rfl⟩ := mem_updateWhere.mp hr
  refine ownsSyncRun_iff.mpr ⟨a, ha, ?_⟩
  split at hid
  · next hp =>
    rw [if_pos hp] at haccount
    rw [← (hf a).1, ← (hf a).2]
    exact ⟨hid, haccount⟩
  · next hp =>
    rw [if_neg hp] at haccount
    exact ⟨hid, haccount⟩

/-- A new account owns no run and no list yet. -/
theorem relates_synced_createLegacyAccount (fresh : Uuid) (ownerRef : String)
    (integration : Option LegacyIntegration) :
    Tx.Relates (Tx.Keeps Synced) (createLegacyAccount fresh ownerRef integration) := by
  refine Tx.Relates.bind (relates_select _) fun existing => ?_
  cases existing with
  | some a => exact Tx.Relates.pure _
  | none =>
    refine Tx.Relates.bind (relates_write_valid ?_) fun _ => Tx.Relates.pure _
    intro db hvalid hvalid' hsync owner
    have hgrow : ∀ a, ownsAccount owner db a = true → ownsAccount owner (db.put .githubAccounts
        (db.githubAccounts ++ [⟨fresh, ownerRef, .reauthorizationRequired,
          integration.bind (·.providerUserId), integration.bind (·.login),
          scopesOf (integration.bind (·.grantedScopes))⟩])) a = true := by
      intro a ha
      obtain ⟨x, hx, howner⟩ := ownsAccount_iff.mp ha
      exact ownsAccount_iff.mpr ⟨x, List.mem_append_left _ hx, howner⟩
    refine (hsync owner).of_kept hvalid.foreignKeys ⟨hgrow, ?_, ?_⟩ rfl rfl rfl rfl rfl
    · -- The account of a known run is a known one.
      intro run _ howns
      obtain ⟨r, hr, hid, haccount⟩ := ownsSyncRun_iff.mp howns
      obtain ⟨x, hx, howner, hxid⟩ := ownsAccount_iff.mp haccount
      refine ownsSyncRun_iff.mpr ⟨r, hr, hid, ?_⟩
      rcases List.mem_append.mp hx with hold | hnew
      · exact ownsAccount_iff.mpr ⟨x, hold, howner, hxid⟩
      · have hfresh := hvalid'.keys.accounts.not_mem_of_append
        rw [← List.mem_singleton.mp hnew, hxid] at hfresh
        exact absurd (hvalid.foreignKeys.runs_account r hr _ rfl) hfresh
    · intro l howns
      obtain ⟨x, hx, hid, haccount⟩ := ownsList_iff.mp howns
      exact ownsList_iff.mpr ⟨x, hx, hid, hgrow _ haccount⟩

theorem relates_synced_registerCredential (now : Time) (accountId : Uuid)
    (verified : VerifiedGithubAccount) (credential : GithubAccountCredential) :
    Tx.Relates (Tx.Keeps Synced) (registerCredential now accountId verified credential) := by
  unfold registerCredential
  split
  · exact Tx.Relates.fail _
  · refine Tx.Relates.bind (relates_require _ _) fun _ => Tx.Relates.bind (relates_write ?_)
      fun _ => relates_synced_write _ (by decide)
    intro db hvalid hsync owner
    have hsame : ∀ a, ownsAccount owner (db.put .githubAccounts (updateWhere (fun a =>
        decide (a.accountId = accountId) && decide (a.status = .reauthorizationRequired))
        (fun a => { a with
          status := .connected, providerUserId := some verified.providerUserId
          providerLogin := some verified.login, grantedScopes := verified.grantedScopes })
        db.githubAccounts)) a = ownsAccount owner db a := by
      intro a
      show (updateWhere _ _ _).any _ = db.githubAccounts.any _
      rw [any_updateWhere]
      congr 1
      funext x
      split <;> rfl
    refine (hsync owner).of_kept hvalid.foreignKeys ⟨?_, ?_, ?_⟩ rfl rfl rfl rfl rfl
    · intro a ha
      rwa [hsame]
    · intro run _ howns
      obtain ⟨r, hr, hid, haccount⟩ := ownsSyncRun_iff.mp howns
      rw [hsame] at haccount
      exact ownsSyncRun_iff.mpr ⟨r, hr, hid, haccount⟩
    · intro l howns
      obtain ⟨x, hx, hid, haccount⟩ := ownsList_iff.mp howns
      rw [← hsame] at haccount
      exact ownsList_iff.mpr ⟨x, hx, hid, haccount⟩

/-! ### Stars -/

/-- A star row names a run of its own account only. -/
def CurrentStarState.Owned (owner : String) (db : Database) (s : CurrentStarState) : Prop :=
  ∀ run ∈ s.evidenceRunId, ownsSyncRun owner db run = true → ownsAccount owner db s.accountId = true

theorem CurrentStarState.owned_of_none {owner : String} {db : Database} {s : CurrentStarState}
    (h : s.evidenceRunId = none) : s.Owned owner db := by
  intro run hrun
  rw [h] at hrun
  cases hrun

/-- A confirmed star or unstar leaves the evidence alone. -/
theorem relates_synced_applyStarProjection (now : Time) (accountId repositoryId : Uuid)
    (direction : StarDirection) :
    Tx.Relates (Tx.Keeps Synced) (applyStarProjection now accountId repositoryId direction) := by
  cases direction with
  | add =>
    refine Tx.Relates.bind (relates_write ?_) fun _ =>
      relates_synced_write _ (by decide)
    intro db _ hsync owner
    have hold := (hsync owner).stars
    exact { hsync owner with
      stars := forall_upsertWhere hold (fun s hs _ => hold s hs)
        (CurrentStarState.owned_of_none rfl) }
  | remove =>
    refine Tx.Relates.bind (relates_write ?_) fun _ =>
      relates_synced_write _ (by decide)
    intro db _ hsync owner
    have hold := (hsync owner).stars
    exact { hsync owner with
      stars := forall_upsertWhere hold (fun s hs _ => hold s hs)
        (CurrentStarState.owned_of_none rfl) }

theorem relates_synced_importLegacyStar (id account r : Uuid) (observedAt : Time) :
    Tx.Relates (Tx.Keeps Synced) (importLegacyStar id account r observedAt) := by
  refine Tx.Relates.bind
    (relates_synced_write _ (by decide))
    fun _ => relates_write ?_
  intro db _ hsync owner
  have hold := (hsync owner).stars
  exact { hsync owner with
    stars := forall_upsertWhere hold (fun _ _ _ => CurrentStarState.owned_of_none rfl)
      (CurrentStarState.owned_of_none rfl) }

/-- The evidence is with its owners, and the run goes with the account. -/
def SyncedRun (mode : SyncMode) (runId accountId : Uuid) (db : Database) : Prop :=
  Synced db ∧ runOfAccount mode runId accountId db = true

/-- A row of the account may name its run. -/
theorem SyncedRun.owned {mode : SyncMode} {runId accountId : Uuid} {db : Database}
    (h : SyncedRun mode runId accountId db) {owner : String} {s : CurrentStarState}
    (haccount : s.accountId = accountId) (hrun : s.evidenceRunId = some runId) :
    s.Owned owner db := by
  intro run hmem howns
  rw [hrun, Option.mem_some_iff] at hmem
  rw [haccount]
  exact ownsAccount_of_run h.2 (hmem ▸ howns)

theorem relates_syncedRun_of_touches {α : Type} {ts : List Table} {x : Tx α} {mode : SyncMode}
    {runId accountId : Uuid} (hx : Touches ts x) (h : ∀ t ∈ syncEvidenceTables, t ∉ ts) :
    Tx.Relates (Tx.Keeps (SyncedRun mode runId accountId)) x := by
  refine Tx.Relates.mono hx fun db db' hagree => ?_
  rintro ⟨hsync, hrun⟩
  have hruns : db'.syncRuns = db.syncRuns := hagree .syncRuns (h .syncRuns (by decide))
  refine ⟨synced_of_agree (fun t ht => hagree t (h t ht)) hsync, ?_⟩
  rwa [runOfAccount, hruns]

theorem relates_syncedRun_write {t : Table} {mode : SyncMode} {runId accountId : Uuid}
    (f : Database → t.Rows) (ht : t ∉ syncEvidenceTables) :
    Tx.Relates (Tx.Keeps (SyncedRun mode runId accountId)) (write t f) :=
  relates_syncedRun_of_touches (touches_write_of_not_mem f ht).1 (touches_write_of_not_mem f ht).2

theorem relates_syncedRun_stars {mode : SyncMode} {runId accountId : Uuid}
    {f : Database → List CurrentStarState}
    (h : ∀ db, SyncedRun mode runId accountId db → ∀ owner, ∀ s ∈ f db, s.Owned owner db) :
    Tx.Relates (Tx.Keeps (SyncedRun mode runId accountId)) (write .currentStarState f) := by
  apply relates_write
  intro db _ hrun
  exact ⟨fun owner => { hrun.1 owner with stars := h db hrun owner }, hrun.2⟩

theorem relates_syncedRun_recordIngest (id : Uuid) (now : Time) (runId accountId r : Uuid)
    (seenAt : Time) : Tx.Relates (Tx.Keeps (SyncedRun .incremental runId accountId))
      (recordIngest id now runId accountId r seenAt) := by
  refine Tx.Relates.bind
    (relates_syncedRun_write _ (by decide))
    fun _ => Tx.Relates.bind (relates_syncedRun_stars ?_) fun _ =>
    relates_syncedRun_write _ (by decide)
  intro db hrun owner
  refine forall_upsertWhere (hrun.1 owner).stars ?_ (hrun.owned rfl rfl)
  intro s _ hkey
  have hkey : s.key = (accountId, r) := of_decide_eq_true hkey
  exact hrun.owned (congrArg Prod.fst hkey) rfl

theorem relates_syncedRun_promoteSeenRepositories (now : Time) (runId accountId : Uuid) :
    Tx.Relates (Tx.Keeps (SyncedRun .full runId accountId))
      (promoteSeenRepositories now runId accountId) := by
  refine Tx.Relates.bind (relates_require _ _) fun _ =>
    Tx.Relates.bind (relates_syncedRun_stars ?_) fun _ =>
    relates_syncedRun_write _ (by decide)
  intro db hrun owner
  have hrow : ∀ row ∈ promotedRows now runId accountId db,
      row.accountId = accountId ∧ row.evidenceRunId = some runId := by
    intro row hmem
    obtain ⟨p, _, rfl⟩ := List.mem_map.mp hmem
    exact ⟨rfl, rfl⟩
  refine forall_upsertAll (hrun.1 owner).stars
    (fun row hmem => hrun.owned (hrow row hmem).1 (hrow row hmem).2) ?_
  intro s row hmem _ hkey
  have haccount : s.accountId = row.accountId := congrArg Prod.fst hkey
  exact hrun.owned (haccount.trans (hrow row hmem).1) (hrow row hmem).2

theorem relates_syncedRun_unstarAbsentRepositories (ids : ℕ → Uuid) (now : Time)
    (runId accountId : Uuid) : Tx.Relates (Tx.Keeps (SyncedRun .full runId accountId))
      (unstarAbsentRepositories ids now runId accountId) := by
  refine Tx.Relates.bind (relates_select _) fun absent =>
    Tx.Relates.bind (relates_syncedRun_stars ?_) fun _ =>
    Tx.Relates.bind (Tx.Relates.forM (fun p => relates_syncedRun_of_touches
      (touches_recordUnstar _ _ _ _ _) (by decide)) _) fun _ => Tx.Relates.pure _
  intro db hrun owner
  refine forall_updateWhere (hrun.1 owner).stars ?_
  intro s _ habsent
  simp only [CurrentStarState.absentFrom, Bool.and_eq_true, decide_eq_true_eq] at habsent
  exact hrun.owned habsent.1.1 rfl

/-- The completion of a run keeps whose it is. -/
theorem relates_synced_completeRunRow (now : Time) (runId : Uuid) (additions unstars : ℕ) :
    Tx.Relates (Tx.Keeps Synced) (completeRunRow now runId additions unstars) :=
  Tx.Relates.bind (relates_synced_updateRuns fun _ => ⟨rfl, rfl⟩) fun _ => relates_fetchOne _

theorem synced_applyAuthority {ids unstarIds : ℕ → Uuid} {now : Time} {runId accountId : Uuid}
    {c c' : Catalog} {out : ℕ × ℕ × ℕ × ℕ}
    (h : applyAuthorityAndComplete ids unstarIds now runId accountId c = .ok (out, c'))
    (hrun : runOfAccount .full runId accountId c.tables = true) :
    Tx.Keeps Synced c.tables c'.tables := by
  intro hsync
  simp only [applyAuthorityAndComplete, Tx.bind_eq_ok, select_eq_ok, Tx.pure_eq_ok] at h
  obtain ⟨_, _, ⟨-, rfl⟩, ⟨⟩, c₁, h₁, ⟨⟩, c₂, h₂, ⟨⟩, c₃, h₃, _, c₄, h₄, ⟨⟩, c₅, h₅, ⟨⟩, c₆, h₆,
    _, c₇, h₇, -, rfl⟩ := h
  have e₁ := relates_syncedRun_write _ (by decide) _ _ _ h₁ ⟨hsync, hrun⟩
  have e₂ := relates_syncedRun_write _ (by decide) _ _ _ h₂ e₁
  have e₃ := relates_syncedRun_promoteSeenRepositories _ _ _ _ _ _ h₃ e₂
  have e₄ := relates_syncedRun_unstarAbsentRepositories _ _ _ _ _ _ _ h₄ e₃
  have e₅ := relates_syncedRun_write _ (by decide) _ _ _ h₅ e₄
  have e₆ := relates_syncedRun_write _ (by decide) _ _ _ h₆ e₅
  exact relates_synced_completeRunRow _ _ _ _ _ _ _ h₇ e₆.1

/-! ### Lists -/

/-- Whether the observations of a run reach a list: the run staged a catalogued repository under the
list's provider id. -/
def reachesList (runId : Uuid) (db : Database) (l : StarList) : Bool :=
  (stagedListRows runId db).any fun i =>
    decide (i.providerListId = l.providerListId) && (repositoryOf i.providerRepositoryId db).isSome

/-- The owner of an account. -/
def ownerOf (accountId : Uuid) (db : Database) : Option String :=
  (db.githubAccounts.find? fun a => decide (a.accountId = accountId)).map (·.ownerRef)

/-- The list snapshots whose observations reach a list of another owner. -/
def Operation.crossesOwners (db : Database) : Operation → Bool
  | .applyListAuthority _ _ _ _ runId accountId => db.starLists.any fun l =>
    reachesList runId db l && decide (ownerOf l.accountId db ≠ ownerOf accountId db)
  | _ => false

theorem ownsAccount_iff_ownerOf {owner : String} {db : Database} (hkeys : Keys db) {a : Uuid} :
    ownsAccount owner db a = true ↔ ownerOf a db = some owner := by
  rw [ownsAccount_iff, ownerOf, Option.map_eq_some_iff]
  constructor
  · rintro ⟨x, hx, howner, rfl⟩
    exact ⟨x, hkeys.accounts.find?_eq hx, howner⟩
  · rintro ⟨x, hfind, howner⟩
    exact ⟨x, List.mem_of_find?_eq_some hfind, howner, by simpa using List.find?_some hfind⟩

/-- The evidence is with its owners, the run goes with the account, and the lists the run reaches are
of the account's owner. -/
def SyncedLists (runId accountId : Uuid) (db : Database) : Prop :=
  SyncedRun .starLists runId accountId db ∧ ∀ owner, ownsAccount owner db accountId = true →
    ∀ l ∈ db.starLists, reachesList runId db l = true → ownsAccount owner db l.accountId = true

theorem relates_syncedLists_upsertListsFromStaging (ids : ℕ → Uuid) (runId accountId : Uuid) :
    Tx.Relates (Tx.Keeps (SyncedLists runId accountId))
      (upsertListsFromStaging ids runId accountId) := by
  apply relates_write
  rintro db hvalid ⟨⟨hsync, hrun⟩, hreach⟩
  have hrow : ∀ l ∈ proposedLists ids runId accountId db,
      l.accountId = accountId ∧ l.evidenceRunId = none := by
    intro l hl
    obtain ⟨p, _, rfl⟩ := List.mem_map.mp hl
    exact ⟨rfl, rfl⟩
  have hmono : ∀ owner list, ownsList owner db list = true → ownsList owner (db.put .starLists
      (upsertAll StarList.key StarList.relisted (proposedLists ids runId accountId db)
        db.starLists)) list = true := by
    intro owner list howns
    obtain ⟨l, hl, hid, haccount⟩ := ownsList_iff.mp howns
    obtain ⟨l', hl', hsame⟩ := @exists_mem_upsertAll _ _ _ _ _ StarList.key StarList.relisted
      (fun l => (l.listId, l.accountId)) (fun _ _ => rfl)
      (proposedLists ids runId accountId db) l hl
    obtain ⟨hid', haccount'⟩ := Prod.mk.inj hsame
    refine ownsList_iff.mpr ⟨l', hl', hid'.trans hid, ?_⟩
    rw [haccount']
    exact haccount
  have hlists : ∀ owner, ∀ l ∈ upsertAll StarList.key StarList.relisted
      (proposedLists ids runId accountId db) db.starLists,
      (∀ run ∈ l.evidenceRunId, ownsSyncRun owner db run = true →
        ownsAccount owner db l.accountId = true) ∧
      (ownsAccount owner db accountId = true → reachesList runId db l = true →
        ownsAccount owner db l.accountId = true) := by
    intro owner
    refine forall_upsertAll ?_ ?_ ?_
    · exact fun l hl => ⟨(hsync owner).lists l hl, fun howns => hreach owner howns l hl⟩
    · intro l hl
      obtain ⟨haccount, hnone⟩ := hrow l hl
      rw [haccount, hnone]
      exact ⟨fun run hmem => absurd hmem (Option.not_mem_none run), fun howns _ => howns⟩
    · intro old new _ hold _
      exact ⟨fun run hmem => absurd hmem (Option.not_mem_none run), hold.2⟩
  refine ⟨⟨?_, hrun⟩, fun owner howns l hl => (hlists owner l hl).2 howns⟩
  intro owner
  exact { hsync owner with
    lists := fun l hl => (hlists owner l hl).1
    memberships := fun m hm run hmem howns =>
      hmono owner _ ((hsync owner).memberships m hm run hmem howns)
    membershipObservations := fun o ho run hmem howns =>
      hmono owner _ ((hsync owner).membershipObservations o ho run hmem howns) }

/-- The staged pairs, row by row. -/
theorem mem_stagedPairsWhere {p : StarList → Bool} {runId : Uuid} {db : Database}
    {pair : Uuid × Uuid} (h : pair ∈ stagedPairsWhere p runId db) :
    ∃ l ∈ db.starLists, p l = true ∧ reachesList runId db l = true ∧ l.listId = pair.1 := by
  obtain ⟨i, hi, hpair⟩ := List.mem_flatMap.mp h
  cases hrepo : repositoryOf i.providerRepositoryId db with
  | none =>
    rw [hrepo] at hpair
    cases hpair
  | some r =>
    rw [hrepo] at hpair
    obtain ⟨l, hl, rfl⟩ := List.mem_map.mp hpair
    obtain ⟨hl, hcond⟩ := List.mem_filter.mp hl
    simp only [Bool.and_eq_true, decide_eq_true_eq] at hcond
    refine ⟨l, hl, hcond.1, List.any_eq_true.mpr ⟨i, hi, ?_⟩, rfl⟩
    simp [hcond.2, hrepo]

theorem relates_syncedLists_recordMembershipObservations (ids : ℕ → Uuid) (now : Time)
    (runId accountId : Uuid) : Tx.Relates (Tx.Keeps (SyncedLists runId accountId))
      (recordMembershipObservations ids now runId) := by
  apply relates_write
  rintro db hvalid ⟨⟨hsync, hrun⟩, hreach⟩
  refine ⟨⟨fun owner => { hsync owner with membershipObservations := ?_ }, hrun⟩, hreach⟩
  intro o ho run hmem howns
  have howns : ownsSyncRun owner db run = true := howns
  rcases List.mem_append.mp ho with hold | hnew
  · exact (hsync owner).membershipObservations o hold run hmem howns
  · obtain ⟨⟨pair, n⟩, hpair, rfl⟩ := List.mem_map.mp hnew
    obtain ⟨l, hl, -, hreached, hid⟩ :=
      mem_stagedPairsWhere (List.fst_mem_of_mem_zipIdx hpair)
    rw [← Option.mem_some_iff.mp hmem] at howns
    have haccount := ownsAccount_of_run hrun howns
    exact ownsList_iff.mpr ⟨l, hl, hid, hreach owner haccount l hl hreached⟩

/-- A membership row names a run of its own list's account only. -/
def StarListMembership.Owned (owner : String) (db : Database) (m : StarListMembership) : Prop :=
  ∀ run ∈ m.evidenceRunId, ownsSyncRun owner db run = true → ownsList owner db m.listId = true

/-- Whether a list belongs to an account. -/
def hasList (accountId listId : Uuid) (db : Database) : Prop :=
  ∃ l ∈ db.starLists, l.accountId = accountId ∧ l.listId = listId

/-- A row of one of the account's lists may name its run. -/
theorem SyncedRun.ownsList_of_hasList {mode : SyncMode} {runId accountId list : Uuid}
    {db : Database} (h : SyncedRun mode runId accountId db) (hlist : hasList accountId list db)
    {owner : String} {run : Uuid} (hmem : run ∈ some runId)
    (howns : ownsSyncRun owner db run = true) : ownsList owner db list = true := by
  obtain ⟨l, hl, haccount, hid⟩ := hlist
  rw [← Option.mem_some_iff.mp hmem] at howns
  refine ownsList_iff.mpr ⟨l, hl, hid, ?_⟩
  rw [haccount]
  exact ownsAccount_of_run h.2 howns

theorem relates_syncedRun_memberships {mode : SyncMode} {runId accountId : Uuid}
    {f : Database → List StarListMembership}
    (h : ∀ db, SyncedRun mode runId accountId db → ∀ owner, ∀ m ∈ f db, m.Owned owner db) :
    Tx.Relates (Tx.Keeps (SyncedRun mode runId accountId)) (write .starListMemberships f) := by
  apply relates_write
  intro db _ hrun
  exact ⟨fun owner => { hrun.1 owner with memberships := h db hrun owner }, hrun.2⟩

theorem relates_syncedRun_promoteSeenPairs (now : Time) (runId accountId : Uuid) :
    Tx.Relates (Tx.Keeps (SyncedRun .starLists runId accountId))
      (promoteSeenPairs now runId accountId) := by
  refine Tx.Relates.bind (relates_require _ _) fun _ => relates_syncedRun_memberships ?_
  intro db hrun owner
  have hrow : ∀ row ∈ promotedPairs now runId accountId db,
      hasList accountId row.listId db ∧ row.evidenceRunId = some runId := by
    intro row hmem
    obtain ⟨pair, hpair, rfl⟩ := List.mem_map.mp hmem
    obtain ⟨l, hl, haccount, -, hid⟩ := mem_stagedPairsWhere hpair
    exact ⟨⟨l, hl, of_decide_eq_true haccount, hid⟩, rfl⟩
  refine forall_upsertAll (hrun.1 owner).memberships ?_ ?_
  · intro row hmem run hmem' howns
    rw [(hrow row hmem).2] at hmem'
    exact hrun.ownsList_of_hasList (hrow row hmem).1 hmem' howns
  · intro m row hmem _ hkey run hmem' howns
    have hlist : m.listId = row.listId := congrArg Prod.fst hkey
    show ownsList owner db m.listId = true
    rw [hlist]
    have hmem' : run ∈ row.evidenceRunId := hmem'
    rw [(hrow row hmem).2] at hmem'
    exact hrun.ownsList_of_hasList (hrow row hmem).1 hmem' howns

/-- The observations of removals on the account's lists. -/
theorem relates_syncedRun_removals {runId accountId : Uuid} {demoted : List (Uuid × Uuid)}
    (ids : ℕ → Uuid) (now : Time) :
    Tx.Relates (Tx.Keeps fun db => SyncedRun .starLists runId accountId db ∧
        ∀ p ∈ demoted, hasList accountId p.1 db)
      (demoted.zipIdx.forM fun (p, n) => write .starListMembershipObservations fun db =>
        db.starListMembershipObservations ++ [⟨ids n, p.1, p.2, false, now, some runId⟩]) := by
  apply Tx.Relates.forM_mem
  rintro ⟨p, n⟩ hmem
  apply relates_write
  rintro db _ ⟨hrun, hlists⟩
  refine ⟨⟨fun owner => { hrun.1 owner with membershipObservations := ?_ }, hrun.2⟩, hlists⟩
  refine forall_append_singleton (hrun.1 owner).membershipObservations ?_
  intro run hrunId howns
  exact hrun.ownsList_of_hasList (hlists p (List.fst_mem_of_mem_zipIdx hmem)) hrunId howns

theorem syncedRun_demoteAbsentPairs {ids : ℕ → Uuid} {now : Time} {runId accountId : Uuid}
    {c c' : Catalog} {n : ℕ} (h : demoteAbsentPairs ids now runId accountId c = .ok (n, c')) :
    Tx.Keeps (SyncedRun .starLists runId accountId) c.tables c'.tables := by
  intro hrun
  simp only [demoteAbsentPairs, Tx.bind_eq_ok, select_eq_ok, Tx.pure_eq_ok] at h
  obtain ⟨demoted, _, ⟨hdemoted, rfl⟩, ⟨⟩, c₁, h₁, ⟨⟩, c₂, h₂, -, rfl⟩ := h
  have hlist : ∀ m ∈ c.tables.starListMemberships, m.absentFrom runId accountId c.tables = true →
      hasList accountId m.listId c.tables := by
    intro m _ habsent
    simp only [StarListMembership.absentFrom, Bool.and_eq_true, List.any_eq_true,
      decide_eq_true_eq] at habsent
    obtain ⟨-, l, hl, ⟨haccount, hid⟩, -⟩ := habsent
    exact ⟨l, hl, haccount, hid⟩
  have hpairs : ∀ p ∈ demoted, hasList accountId p.1 c.tables := by
    rw [← hdemoted]
    intro p hp
    obtain ⟨m, hm, rfl⟩ := List.mem_map.mp hp
    obtain ⟨hm, habsent⟩ := List.mem_filter.mp hm
    exact hlist m hm habsent
  have hstate := write_eq_ok.mp h₁
  have e₁ : SyncedRun .starLists runId accountId c₁.tables := by
    rw [hstate]
    refine ⟨fun owner => { hrun.1 owner with memberships := ?_ }, hrun.2⟩
    refine forall_updateWhere (hrun.1 owner).memberships ?_
    intro m hm habsent run hrunId howns
    exact hrun.ownsList_of_hasList (hlist m hm habsent) hrunId howns
  have e₂ : ∀ p ∈ demoted, hasList accountId p.1 c₁.tables := by
    rw [hstate]
    exact hpairs
  exact (relates_syncedRun_removals _ _ _ _ _ h₂ ⟨e₁, e₂⟩).1

/-- A tombstone names the run of its own account. -/
theorem relates_syncedRun_tombstoneAbsentLists (now : Time) (runId accountId : Uuid) :
    Tx.Relates (Tx.Keeps (SyncedRun .starLists runId accountId))
      (tombstoneAbsentLists now runId accountId) := by
  apply relates_write
  intro db _ hrun
  have hmono : ∀ owner list (p : StarList → Bool) (f : StarList → StarList),
      (∀ l, (f l).listId = l.listId ∧ (f l).accountId = l.accountId) →
      ownsList owner db list = true →
      ownsList owner (db.put .starLists (updateWhere p f db.starLists)) list = true := by
    intro owner list p f hf howns
    obtain ⟨l, hl, hid, haccount⟩ := ownsList_iff.mp howns
    refine ownsList_iff.mpr ⟨_, mem_updateWhere.mpr ⟨l, hl, rfl⟩, ?_⟩
    split
    · rw [(hf l).1, (hf l).2]
      exact ⟨hid, haccount⟩
    · exact ⟨hid, haccount⟩
  refine ⟨?_, hrun.2⟩
  intro owner
  have hold := hrun.1 owner
  refine { hold with
    lists := forall_updateWhere hold.lists ?_
    memberships := fun m hm run hrunId howns =>
      hmono owner _ _ _ (fun _ => ⟨rfl, rfl⟩) (hold.memberships m hm run hrunId howns)
    membershipObservations := fun o ho run hrunId howns =>
      hmono owner _ _ _ (fun _ => ⟨rfl, rfl⟩) (hold.membershipObservations o ho run hrunId howns) }
  intro l _ hcond run hrunId howns
  simp only [Bool.and_eq_true, decide_eq_true_eq] at hcond
  show ownsAccount owner db l.accountId = true
  have howns : ownsSyncRun owner db run = true := howns
  rw [hcond.1.1]
  rw [← Option.mem_some_iff.mp hrunId] at howns
  exact ownsAccount_of_run hrun.2 howns

theorem relates_synced_completeListRunRow (now : Time) (runId : Uuid) (additions removals : ℕ) :
    Tx.Relates (Tx.Keeps Synced) (completeListRunRow now runId additions removals) :=
  Tx.Relates.bind (relates_synced_updateRuns fun _ => ⟨rfl, rfl⟩) fun _ => relates_fetchOne _

theorem synced_applyListAuthority {listIds memberIds removalIds : ℕ → Uuid} {now : Time}
    {runId accountId : Uuid} {c c' : Catalog} {out : ℕ × ℕ × ℕ × ℕ}
    (h : applyListAuthorityAndComplete listIds memberIds removalIds now runId accountId c =
      .ok (out, c'))
    (hrun : runOfAccount .starLists runId accountId c.tables = true)
    (hguard : (Operation.applyListAuthority listIds memberIds removalIds now runId
      accountId).crossesOwners c.tables = false) : Tx.Keeps Synced c.tables c'.tables := by
  intro hsync
  have hreach : SyncedLists runId accountId c.tables := by
    refine ⟨⟨hsync, hrun⟩, ?_⟩
    intro owner howns l hl hreached
    rw [Operation.crossesOwners, List.any_eq_false] at hguard
    have hsame : ownerOf l.accountId c.tables = ownerOf accountId c.tables := by
      simpa [hreached] using hguard l hl
    rw [ownsAccount_iff_ownerOf c.valid.keys] at howns ⊢
    exact hsame.trans howns
  simp only [applyListAuthorityAndComplete, Tx.bind_eq_ok, select_eq_ok, Tx.pure_eq_ok] at h
  obtain ⟨⟨⟩, c₁, h₁, _, _, ⟨-, rfl⟩, ⟨⟩, c₂, h₂, ⟨⟩, c₃, h₃, _, c₄, h₄, ⟨⟩, c₅, h₅, ⟨⟩, c₆, h₆, _,
    c₇, h₇, -, rfl⟩ := h
  have e₁ := relates_syncedLists_upsertListsFromStaging _ _ _ _ _ _ h₁ hreach
  have e₂ := (relates_syncedLists_recordMembershipObservations _ _ _ _ _ _ _ h₂ e₁).1
  have e₃ := relates_syncedRun_promoteSeenPairs _ _ _ _ _ _ h₃ e₂
  have e₄ := syncedRun_demoteAbsentPairs h₄ e₃
  have e₅ := relates_syncedRun_tombstoneAbsentLists _ _ _ _ _ _ h₅ e₄
  have e₆ := relates_syncedRun_write _ (by decide) _ _ _ h₆ e₅
  exact relates_synced_completeListRunRow _ _ _ _ _ _ _ h₇ e₆.1

/-! ### Mutations -/

theorem relates_synced_insertAuditRow (row : MutationAudit) (hlist : row.listId = none) :
    Tx.Relates (Tx.Keeps Synced) (insertAuditRow row) := by
  refine Tx.Relates.bind (relates_select _) fun _ => Tx.Relates.bind (relates_write ?_) fun _ =>
    Tx.Relates.pure _
  intro db _ hsync owner
  exact { hsync owner with audit := forall_insertUnless (hsync owner).audit hlist }

theorem relates_synced_upsertRepository (fresh : Uuid) (pid : ℤ) :
    Tx.Relates (Tx.Keeps Synced) (upsertRepositoryInTx fresh pid) :=
  relates_synced_of_touches (touches_upsertRepositoryInTx fresh pid) (by decide)

theorem relates_synced_convergeMembershipProjection (now : Time) (listId repositoryId : Uuid)
    (change : MembershipChange) : Tx.Relates (Tx.Keeps Synced)
      (convergeMembershipProjection now listId repositoryId change) := by
  apply relates_write
  intro db _ hsync owner
  have hold := (hsync owner).memberships
  have hnew : ∀ (m : StarListMembership), m.evidenceRunId = none → m.Owned owner db := by
    intro m hnone run hmem
    rw [hnone] at hmem
    cases hmem
  cases change with
  | add =>
    exact { hsync owner with
      memberships := forall_upsertWhere hold (fun m hm _ => hold m hm) (hnew _ rfl) }
  | remove =>
    exact { hsync owner with
      memberships := forall_upsertWhere hold (fun m hm _ => hold m hm) (hnew _ rfl) }

theorem relates_synced_persistConfirmedStar (ids : ℕ → Uuid) (now : Time)
    (context : MutationContext) (pid : ℤ) (key : String) (direction : StarDirection) :
    Tx.Relates (Tx.Keeps Synced) (persistConfirmedStar ids now context pid key direction) :=
  Tx.Relates.bind (relates_synced_upsertRepository _ _) fun _ =>
    Tx.Relates.bind (relates_select _) fun _ =>
    Tx.Relates.bind (relates_synced_applyStarProjection _ _ _ _) fun _ =>
    Tx.Relates.bind (relates_onlyIf
      (relates_synced_of_touches (touches_markBackupPolicyDirtyInTx now) (by decide))) fun _ =>
    Tx.Relates.bind (relates_synced_insertAuditRow _ rfl) fun _ =>
    relates_finishWithReplayGuard _ _

theorem relates_synced_setRepositoryModeInTx (ids : ℕ → Uuid) (now : Time)
    (context : MutationContext) (pid : ℤ) (requested : RequestedMode) (key : String) :
    Tx.Relates (Tx.Keeps Synced) (setRepositoryModeInTx ids now context pid requested key) := by
  refine Tx.Relates.bind (relates_synced_upsertRepository _ _) fun _ =>
    Tx.Relates.bind (relates_fetchOne _) fun _ => Tx.Relates.bind (relates_select _) fun starred => ?_
  cases validateMode requested starred with
  | some reason =>
    exact Tx.Relates.bind (relates_synced_insertAuditRow _ rfl) fun _ => Tx.Relates.pure _
  | none =>
    refine Tx.Relates.bind (relates_onlyIf ?_) fun _ =>
      Tx.Relates.bind (relates_synced_insertAuditRow _ rfl) fun _ =>
      relates_finishWithReplayGuard _ _
    exact Tx.Relates.bind (relates_synced_of_touches (touches_setMode _ _) (by decide)) fun _ =>
      relates_synced_of_touches (touches_markBackupPolicyDirtyInTx _) (by decide)

/-! ### Erasures -/

/-- An erasure takes the accounts of one owner and leaves those of the others. -/
theorem ownsAccount_erased {now : Time} {owner erasedOwner : String} {db : Database} {a : Uuid} :
    ownsAccount owner (erased now erasedOwner db) a = true ↔
      owner ≠ erasedOwner ∧ ownsAccount owner db a = true := by
  rw [ownsAccount_iff, ownsAccount_iff]
  constructor
  · rintro ⟨x, hx, rfl, hid⟩
    obtain ⟨hx, hother⟩ := mem_deleteWhere.mp hx
    exact ⟨of_decide_eq_false hother, x, hx, rfl, hid⟩
  · rintro ⟨hother, x, hx, rfl, hid⟩
    exact ⟨x, mem_deleteWhere.mpr ⟨hx, decide_eq_false hother⟩, rfl, hid⟩

theorem synced_erased {now : Time} {erasedOwner : String} {db : Database} (hkeys : Keys db) :
    Tx.Keeps Synced db (erased now erasedOwner db) := by
  intro hsync owner
  have hold := hsync owner
  have hrun : ∀ run, ownsSyncRun owner (erased now erasedOwner db) run = true →
      owner ≠ erasedOwner ∧ ownsSyncRun owner db run = true := by
    intro run howns
    obtain ⟨r, hr, hid, haccount⟩ := ownsSyncRun_iff.mp howns
    obtain ⟨hother, haccount⟩ := ownsAccount_erased.mp haccount
    exact ⟨hother, ownsSyncRun_iff.mpr ⟨r, (mem_deleteWhere.mp hr).1, hid, haccount⟩⟩
  -- A list of another owner stays, because no account has two owners.
  have hlist : ∀ list, owner ≠ erasedOwner → ownsList owner db list = true →
      ownsList owner (erased now erasedOwner db) list = true := by
    intro list hother howns
    obtain ⟨l, hl, hid, haccount⟩ := ownsList_iff.mp howns
    refine ownsList_iff.mpr ⟨l, mem_deleteWhere.mpr ⟨hl, ?_⟩, hid,
      ownsAccount_erased.mpr ⟨hother, haccount⟩⟩
    rw [← Bool.not_eq_true]
    intro herased
    rw [ownsAccount_iff_ownerOf hkeys] at haccount herased
    rw [haccount] at herased
    exact hother (Option.some.inj herased)
  exact
    { stars := fun s hs run hmem howns => ownsAccount_erased.mpr ⟨(hrun run howns).1,
        hold.stars s (mem_deleteWhere.mp hs).1 run hmem (hrun run howns).2⟩
      lists := fun l hl run hmem howns => ownsAccount_erased.mpr ⟨(hrun run howns).1,
        hold.lists l (mem_deleteWhere.mp hl).1 run hmem (hrun run howns).2⟩
      memberships := fun m hm run hmem howns => hlist _ (hrun run howns).1
        (hold.memberships m (mem_deleteWhere.mp hm).1 run hmem (hrun run howns).2)
      membershipObservations := fun o ho run hmem howns => hlist _ (hrun run howns).1
        (hold.membershipObservations o (mem_deleteWhere.mp ho).1 run hmem (hrun run howns).2)
      audit := fun a ha => hold.audit a (mem_deleteWhere.mp ha).1 }

/-- **One operation.**  An operation that crosses no owners keeps every owner's evidence with the
owner. -/
theorem Operation.commit_synced (k : Contracts) (c : Catalog) (op : Operation)
    (hadmissible : op.admissible c.tables = true) (hguard : op.crossesOwners c.tables = false) :
    Tx.Keeps Synced c.tables (op.commit k c).tables := by
  cases op with
  | openRun => exact (relates_synced_insertSyncRun _ _ _ _).commit c
  | recordPage =>
    refine Tx.Relates.commit ?_ c
    exact Tx.Relates.bind (relates_attempt _) fun _ =>
      Tx.Relates.bind (relates_synced_write _ (by decide)) fun _ =>
      Tx.Relates.bind (relates_synced_write _ (by decide)) fun _ =>
      relates_synced_updateRuns fun _ => ⟨rfl, rfl⟩
  | failRun =>
    refine Tx.Relates.commit ?_ c
    exact Tx.Relates.bind (relates_synced_updateRuns fun _ => ⟨rfl, rfl⟩) fun _ =>
      Tx.Relates.bind (relates_synced_write _ (by decide)) fun _ =>
      relates_synced_write _ (by decide)
  | applyAuthority => exact Tx.relates_commit fun _ _ h => synced_applyAuthority h hadmissible
  | recordIngest =>
    refine Tx.relates_commit fun _ _ h hsync => ?_
    exact (relates_syncedRun_recordIngest _ _ _ _ _ _ _ _ _ h ⟨hsync, hadmissible⟩).1
  | recordIncrementalPage =>
    refine Tx.Relates.commit ?_ c
    exact Tx.Relates.bind (relates_synced_write _ (by decide)) fun _ =>
      relates_synced_updateRuns fun _ => ⟨rfl, rfl⟩
  | completeRun =>
    refine Tx.Relates.commit ?_ c
    exact Tx.Relates.bind (relates_synced_write _ (by decide)) fun _ =>
      relates_synced_updateRuns fun _ => ⟨rfl, rfl⟩
  | recordListPage =>
    refine Tx.Relates.commit ?_ c
    exact Tx.Relates.bind (relates_select _) fun _ =>
      Tx.Relates.bind (relates_synced_write _ (by decide)) fun _ =>
      Tx.Relates.bind (relates_synced_write _ (by decide)) fun _ =>
      relates_synced_updateRuns fun _ => ⟨rfl, rfl⟩
  | applyListAuthority =>
    exact Tx.relates_commit fun _ _ h => synced_applyListAuthority h hadmissible hguard
  | recordAttempt =>
    exact Tx.Relates.commit (relates_recordAttempt _ _ _ _ _ _ _
      (relates_synced_upsertRepository _ _) relates_synced_insertAuditRow) c
  | persistConfirmedStar => exact (relates_synced_persistConfirmedStar _ _ _ _ _ _).commit c
  | persistListMembership =>
    exact Tx.Relates.commit (relates_persistListMembership _ _ _ _ _ _ _ _
      (relates_synced_upsertRepository _ _)
      (fun r => relates_synced_convergeMembershipProjection _ _ r _)
      relates_synced_insertAuditRow) c
  | setRepositoryMode => exact (relates_synced_setRepositoryModeInTx _ _ _ _ _ _).commit c
  | importLegacy =>
    refine Tx.Relates.commit (relates_importLegacyTransaction _ _ _ _ _
      relates_synced_createLegacyAccount ?_ ?_) c
    · intro α x hx
      exact relates_synced_of_touches hx (by decide)
    · intro p _ account c₁ c₂ counts _ h
      refine relates_importNewLegacyRepository _ _ _ _ _ (relates_synced_upsertRepository _ _)
        (fun r _ => relates_synced_importLegacyStar _ _ r _) ?_ _ _ _ h
      intro α x hx
      exact relates_synced_of_touches hx (by decide)
  | registerCredential => exact (relates_synced_registerCredential _ _ _ _).commit c
  | eraseAccount =>
    refine Tx.relates_commit fun _ c' h => ?_
    obtain ⟨c₁, h₁, hrecord⟩ := eraseAccountInTx_eq_ok h
    have herased : Tx.Keeps Synced c.tables c₁.tables := by
      rw [eraseOwnerState_eq h₁]
      exact synced_erased c.valid.keys
    refine IsTrans.trans _ _ _ herased (synced_of_agree fun t ht => hrecord t ?_)
    intro hmem
    rw [List.mem_singleton.mp hmem] at ht
    exact absurd ht (by decide)
  | _ => exact synced_of_agree (rows_commit_all k c _ syncEvidenceTables rfl)

/-! ### Whole histories -/

/-- No owner's erasure breaks a constraint. -/
def Erasable (c : Catalog) : Prop :=
  ∀ now owner, eraseOwnerState now owner c ≠ .error (.query .constraint)

/-- **Every owner can be erased.**  In every history whose list snapshots reach no list of another
owner, in every state, the deletes of every owner's erasure go through. -/
theorem erasable_throughout (k : Contracts) (history : List Operation)
    (h : Runs.Guarded (step k) (fun c op => op.crossesOwners c.tables = false) emptyCatalog
      history) :
    Runs.Throughout (step k) Erasable emptyCatalog history := by
  have hinv : Runs.Throughout (step k) (fun c => Analysed c.tables ∧ Synced c.tables) emptyCatalog
      history := by
    refine Runs.throughout_of_guarded ?_ ?_ h
    · rintro c op ⟨hanalysed, hsync⟩ hguard
      unfold step
      split
      · next hadmissible =>
        exact ⟨op.commit_analysed k c hanalysed, op.commit_synced k c hadmissible hguard hsync⟩
      · exact ⟨hanalysed, hsync⟩
    · refine ⟨⟨?_, ?_⟩, fun owner => ⟨?_, ?_, ?_, ?_, ?_⟩⟩
      all_goals exact fun a ha => absurd ha (List.not_mem_nil)
  refine Runs.Throughout.mono ?_ hinv
  rintro c ⟨hanalysed, hsync⟩ now owner
  exact eraseOwnerState_ordered now ⟨hsync owner, hanalysed.evidence owner⟩

/-- Two owners whose accounts have a list each. -/
def separateLists : List Operation :=
  connectOwners ++ [.upsertRepository 1 101] ++ listSnapshot 10 1 "list-a" ++
    listSnapshot 11 2 "list-b"

theorem erasable_throughout_separate :
    Runs.Throughout (step sampleContracts) Erasable emptyCatalog separateLists := by
  apply erasable_throughout
  decide +kernel

/-- **Two accounts of one GitHub user.**  Both have the same list; the snapshot of the second account
observes the members on the first account's list too, and its owner can no longer be erased. -/
theorem not_erasable_sharedList :
    ¬ Erasable (Runs.runFrom (step sampleContracts) emptyCatalog
      ([importOwners, connectAccount 1 7, connectAccount 2 7, .upsertRepository 1 101] ++
        listSnapshot 10 1 "list" ++ listSnapshot 11 2 "list")) := by
  intro h
  exact h 0 "owner-b" (Tx.failure_eq_some.mp (by decide +kernel))

end GithubCatalog
