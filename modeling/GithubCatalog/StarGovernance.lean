import GithubCatalog.ErasureFrame
import GithubCatalog.PolicyDirtiness

/-!
# Modes and stars

A repository that nobody classified is governed by its stars: its mode is `auto` exactly when some
account stars it (`StarGoverned`).  Modes are one column of the shared catalog while stars belong to
accounts, and four operations look at one account only:

* a snapshot and a confirmed unstar release a repository another account still stars;
* a legacy import stars an unclassified repository without promoting it;
* an erasure takes away the last star of a repository it leaves behind.

`Operation.misgoverns` says when, by the state they start in; `starGoverned_throughout` is the
invariant of every history without such a step, and `misgoverned_unstar` a history with one.
-/

namespace GithubCatalog

open Relational Transact

/-- Whether any account stars a repository. -/
def starredAnywhere (repository : Uuid) (db : Database) : Bool :=
  db.currentStarState.any fun c => decide (c.repositoryId = repository) && c.starred

/-- Whether an account other than the given one stars a repository. -/
def starredElsewhere (account repository : Uuid) (db : Database) : Bool :=
  db.currentStarState.any fun c =>
    decide (c.accountId ≠ account) && decide (c.repositoryId = repository) && c.starred

/-- A mode that is neither `tracked` nor `ignored` is `auto` exactly when the repository is starred,
and unclassified exactly when it is not. -/
def GovernedBy (starred : Bool) (mode : Option RepositoryMode) : Prop :=
  mode ≠ some .tracked → mode ≠ some .ignored →
    (mode = some .auto ↔ starred = true) ∧ (mode = none ↔ starred = false)

/-- Every repository is governed by whether some account stars it. -/
def StarGoverned (db : Database) : Prop :=
  ∀ r ∈ db.repositories, GovernedBy (starredAnywhere r.repositoryId db) r.mode

/-- Whether a starred row remains when an owner is erased. -/
def starredByOthers (owner : String) (repository : Uuid) (db : Database) : Bool :=
  db.currentStarState.any fun c =>
    decide (c.repositoryId = repository) && c.starred && !ownsAccount owner db c.accountId

/-- The operations that set a mode and the stars against each other in a state. -/
def Operation.misgoverns (db : Database) : Operation → Bool
  | .applyAuthority _ _ _ runId accountId =>
    db.repositories.any fun r => decide (r.mode = some .auto) &&
      !stagedIn runId r.providerRepositoryId db && starredBy accountId r.repositoryId db &&
      starredElsewhere accountId r.repositoryId db
  | .persistConfirmedStar _ _ context pid _ direction =>
    decide (direction = .remove) && db.repositories.any fun r => decide (r.mode = some .auto) &&
      decide (r.providerRepositoryId = pid) && starredElsewhere context.accountId r.repositoryId db
  | .importLegacy _ _ _ request _ =>
    request.snapshot.repositories.any fun record => record.starred &&
      !alreadyImported request.sourceId record db &&
      !(db.repositories.any fun r =>
        decide (r.providerRepositoryId = record.providerRepositoryId) && decide (r.mode ≠ none))
  | .eraseAccount _ owner _ =>
    db.repositories.any fun r => decide (r.mode = some .auto) &&
      decide (r.repositoryId ∉ collected owner db) && !starredByOthers owner r.repositoryId db
  | _ => false

/-! ### Reading the invariant -/

theorem starredAnywhere_iff {repository : Uuid} {db : Database} :
    starredAnywhere repository db = true ↔ ∃ a, starredBy a repository db = true := by
  simp only [starredAnywhere, starredBy, List.any_eq_true, Bool.and_eq_true, decide_eq_true_eq]
  constructor
  · rintro ⟨c, hc, hrepo, hstar⟩
    exact ⟨c.accountId, c, hc, ⟨rfl, hrepo⟩, hstar⟩
  · rintro ⟨a, c, hc, ⟨-, hrepo⟩, hstar⟩
    exact ⟨c, hc, hrepo, hstar⟩

theorem starredElsewhere_iff {account repository : Uuid} {db : Database} :
    starredElsewhere account repository db = true ↔
      ∃ a, a ≠ account ∧ starredBy a repository db = true := by
  simp only [starredElsewhere, starredBy, List.any_eq_true, Bool.and_eq_true, decide_eq_true_eq]
  constructor
  · rintro ⟨c, hc, ⟨hacc, hrepo⟩, hstar⟩
    exact ⟨c.accountId, hacc, c, hc, ⟨rfl, hrepo⟩, hstar⟩
  · rintro ⟨a, ha, c, hc, ⟨rfl, hrepo⟩, hstar⟩
    exact ⟨c, hc, ⟨ha, hrepo⟩, hstar⟩

theorem governedBy_none : GovernedBy false none := by
  intro _ _
  simp

/-- Starring promotes. -/
theorem governedBy_promote {r : Repository} : GovernedBy true r.promote.mode := by
  unfold Repository.promote
  split
  · intro _ _
    simp
  · next hne =>
    intro htracked hignored
    cases hmode : r.mode with
    | none => exact absurd hmode hne
    | some m => cases m <;> simp_all

/-- Losing the last star releases. -/
theorem governedBy_release {r : Repository} : GovernedBy false r.release.mode := by
  unfold Repository.release
  split
  · intro _ _
    simp
  · next hne =>
    intro htracked hignored
    cases hmode : r.mode with
    | none => simp
    | some m => cases m <;> simp_all

/-- A release is right unless another star keeps an `auto` repository. -/
theorem governedBy_release_of {r : Repository} {before after : Bool} (h : GovernedBy before r.mode)
    (hsub : after = true → before = true) (hmode : after = true → r.mode ≠ some .auto) :
    GovernedBy after r.release.mode := by
  cases after with
  | false => exact governedBy_release
  | true =>
    rw [Repository.release_eq_self (hmode rfl)]
    intro htracked hignored
    exact absurd ((h htracked hignored).1.mpr (hsub rfl)) (hmode rfl)

theorem starredAnywhere_congr {repository : Uuid} {db db' : Database}
    (h : ∀ a, starredBy a repository db' = starredBy a repository db) :
    starredAnywhere repository db' = starredAnywhere repository db := by
  rw [Bool.eq_iff_iff, starredAnywhere_iff, starredAnywhere_iff]
  simp only [h]

/-- No star names a repository outside the catalog. -/
theorem starredAnywhere_of_unknown {db : Database} (hrefs : ForeignKeys db) {repository : Uuid}
    (h : repository ∉ db.repositories.map (·.repositoryId)) :
    starredAnywhere repository db = false := by
  rw [← Bool.not_eq_true, starredAnywhere_iff]
  rintro ⟨a, ha⟩
  exact h (mem_of_starredBy hrefs ha)

/-! ### Operations that cannot misgovern -/

/-- The transition keeps the invariant. -/
def KeepsGoverned (db db' : Database) : Prop := StarGoverned db → StarGoverned db'

instance : Std.Refl KeepsGoverned := ⟨fun _ h => h⟩

instance : IsTrans Database KeepsGoverned := ⟨fun _ _ _ h h' hdb => h' (h hdb)⟩

theorem keepsGoverned_of_eq {db db' : Database} (hrepos : db'.repositories = db.repositories)
    (hstars : db'.currentStarState = db.currentStarState) : KeepsGoverned db db' := by
  intro h
  simp only [StarGoverned, starredAnywhere, hrepos, hstars]
  exact h

theorem relates_keepsGoverned_of_touches {α : Type} {ts : List Table} {x : Tx α}
    (h : Touches ts x) (hr : .repositories ∉ ts) (hs : .currentStarState ∉ ts) :
    Tx.Relates KeepsGoverned x :=
  Tx.Relates.mono h fun _ _ hagree => keepsGoverned_of_eq (hagree _ hr) (hagree _ hs)

/-- A new catalog entry is unclassified and unstarred. -/
theorem relates_keepsGoverned_upsertRepository (fresh : Uuid) (pid : ℤ) :
    Tx.Relates KeepsGoverned (upsertRepositoryInTx fresh pid) := by
  intro c id c' h hgov
  obtain ⟨hrepos, hframe, -⟩ := upsertRepositoryInTx_spec h
  have hstars : ∀ q, starredAnywhere q c'.tables = starredAnywhere q c.tables :=
    fun q => starredAnywhere_congr fun a => starredBy_of_eq (hframe .currentStarState (by decide))
  cases hknown : c.tables.repositories.any fun r => decide (r.providerRepositoryId = pid) with
  | true =>
    have hlist : catalogued fresh pid c.tables.repositories = c.tables.repositories :=
      if_pos hknown
    intro r hr
    rw [hrepos, hlist] at hr
    rw [hstars]
    exact hgov r hr
  | false =>
    have hunique := c'.valid.keys.repositories
    rw [hrepos] at hunique
    obtain ⟨hlist, hfresh⟩ := fresh_of_catalogued hunique hknown
    intro r hr
    rw [hrepos, hlist] at hr
    rw [hstars]
    rcases List.mem_append.mp hr with hold | hnew
    · exact hgov r hold
    · rw [List.mem_singleton.mp hnew, starredAnywhere_of_unknown c.valid.foreignKeys hfresh]
      exact governedBy_none

/-- An explicit mode takes the repository out of the stars' hands. -/
theorem relates_keepsGoverned_setMode (r : Uuid) {mode : RepositoryMode} (hmode : mode ≠ .auto) :
    Tx.Relates KeepsGoverned (setMode r mode) := by
  apply relates_write
  intro db _ hgov q hq
  obtain ⟨q₀, hq₀, rfl⟩ := mem_updateWhere.mp hq
  split
  · intro htracked hignored
    cases mode with
    | auto => exact absurd rfl hmode
    | tracked => exact absurd rfl htracked
    | ignored => exact absurd rfl hignored
  · exact hgov q₀ hq₀

theorem relates_keepsGoverned_trackRepository (fresh : Uuid) (now : Time) (pid : ℤ) :
    Tx.Relates KeepsGoverned (trackRepository fresh now pid) := by
  refine Tx.Relates.bind (relates_keepsGoverned_upsertRepository _ _) fun r => ?_
  refine Tx.Relates.bind (relates_fetchOne _) fun mode => ?_
  split
  · exact Tx.Relates.pure _
  · refine Tx.Relates.bind (relates_keepsGoverned_setMode r (by decide)) fun _ => ?_
    exact Tx.Relates.bind (relates_keepsGoverned_of_touches
      (touches_markBackupPolicyDirtyInTx now) (by decide) (by decide)) fun _ => Tx.Relates.pure _

theorem relates_keepsGoverned_setRepositoryModeInTx (ids : ℕ → Uuid) (now : Time)
    (context : MutationContext) (pid : ℤ) (requested : RequestedMode) (key : String) :
    Tx.Relates KeepsGoverned (setRepositoryModeInTx ids now context pid requested key) := by
  have haudit : ∀ row, Tx.Relates KeepsGoverned (insertAuditRow row) := fun row =>
    relates_keepsGoverned_of_touches (touches_insertAuditRow row) (by decide) (by decide)
  refine Tx.Relates.bind (relates_keepsGoverned_upsertRepository _ _) fun r => ?_
  refine Tx.Relates.bind (relates_fetchOne _) fun current =>
    Tx.Relates.bind (relates_select _) fun starred => ?_
  cases hvalid : validateMode requested starred with
  | some reason => exact Tx.Relates.bind (haudit _) fun _ => Tx.Relates.pure _
  | none =>
    -- A request for `auto` is refused before this point.
    have hmode : requested.mode ≠ .auto := by
      cases requested with
      | auto => cases hvalid
      | tracked => decide
      | ignored => decide
    refine Tx.Relates.bind (relates_onlyIf ?_) fun _ => Tx.Relates.bind (haudit _) fun _ =>
      relates_finishWithReplayGuard _ _
    exact Tx.Relates.bind (relates_keepsGoverned_setMode r hmode) fun _ =>
      relates_keepsGoverned_of_touches (touches_markBackupPolicyDirtyInTx now) (by decide)
        (by decide)

/-! ### The star flows -/

/-- An ingested entry stars and promotes one repository. -/
theorem relates_keepsGoverned_recordIngest (observationId : Uuid) (now : Time)
    (runId account repository : Uuid) (seenAt : Time) :
    Tx.Relates KeepsGoverned (recordIngest observationId now runId account repository seenAt) := by
  intro c u c' h hgov r hr
  obtain ⟨hrepos, hstars⟩ := recordIngest_spec h
  rw [hrepos] at hr
  obtain ⟨r₀, hr₀, rfl⟩ := mem_updateWhere.mp hr
  split
  · next hid =>
    have hany : starredAnywhere r₀.promote.repositoryId c'.tables = true := by
      rw [starredAnywhere_iff, r₀.promote_repositoryId, of_decide_eq_true hid]
      exact ⟨account, by rw [hstars, if_pos rfl]⟩
    rw [hany]
    exact governedBy_promote
  · next hid =>
    have hsame : ∀ a, starredBy a r₀.repositoryId c'.tables = starredBy a r₀.repositoryId c.tables := by
      intro a
      rw [hstars, if_neg]
      rintro ⟨⟩
      exact hid (decide_eq_true rfl)
    rw [starredAnywhere_congr hsame]
    exact hgov r₀ hr₀

/-- A snapshot keeps the invariant where it releases no repository another account stars. -/
theorem keepsGoverned_applyAuthority {ids unstarIds : ℕ → Uuid} {now : Time} {runId account : Uuid}
    {c c' : Catalog} {counts : ℕ × ℕ × ℕ × ℕ}
    (h : applyAuthorityAndComplete ids unstarIds now runId account c = .ok (counts, c'))
    (hguard : Operation.misgoverns c.tables (.applyAuthority ids unstarIds now runId account) =
      false) : KeepsGoverned c.tables c'.tables := by
  obtain ⟨hrepos, hstars⟩ := applyAuthority_spec h
  intro hgov r hr
  rw [hrepos] at hr
  obtain ⟨r₀, hr₀, rfl⟩ := List.mem_map.mp hr
  rw [Repository.reconciled_repositoryId]
  have hstaged := @mem_stagedIds runId c.tables c.valid.keys r₀ hr₀
  have hfree := List.any_eq_false.mp hguard r₀ hr₀
  unfold Repository.reconciled
  split
  · next hin =>
    have hany : starredAnywhere r₀.repositoryId c'.tables = true := by
      rw [starredAnywhere_iff]
      exact ⟨account, by rw [hstars, if_pos rfl, decide_eq_true (hstaged.mpr hin)]⟩
    rw [hany]
    exact governedBy_promote
  · next hin =>
    have hself : starredBy account r₀.repositoryId c'.tables = false := by
      rw [hstars, if_pos rfl, decide_eq_false (mt hstaged.mp hin)]
    have hothers : ∀ a, a ≠ account →
        starredBy a r₀.repositoryId c'.tables = starredBy a r₀.repositoryId c.tables := by
      intro a ha
      rw [hstars, if_neg ha]
    split
    · next hstarred =>
      have hother : starredAnywhere r₀.repositoryId c'.tables = true →
          starredElsewhere account r₀.repositoryId c.tables = true := by
        rw [starredAnywhere_iff, starredElsewhere_iff]
        rintro ⟨a, ha⟩
        have hne : a ≠ account := by
          rintro rfl
          rw [hself] at ha
          cases ha
        exact ⟨a, hne, hothers a hne ▸ ha⟩
      refine governedBy_release_of (hgov r₀ hr₀) ?_ ?_
      · intro _
        exact starredAnywhere_iff.mpr ⟨account, hstarred⟩
      · intro hany hmode
        simp [hmode, hin, hstarred, hother hany] at hfree
    · next hstarred =>
      have hsame : ∀ a, starredBy a r₀.repositoryId c'.tables =
          starredBy a r₀.repositoryId c.tables := by
        intro a
        by_cases ha : a = account
        · rw [ha, hself, Bool.eq_false_of_not_eq_true hstarred]
        · exact hothers a ha
      rw [starredAnywhere_congr hsame]
      exact hgov r₀ hr₀

/-- A confirmed star promotes, and a confirmed unstar keeps the invariant where it releases no
repository another account stars. -/
theorem keepsGoverned_applyStarProjection {now : Time} {account repository : Uuid}
    {direction : StarDirection} {c c' : Catalog} {u : Unit}
    (h : applyStarProjection now account repository direction c = .ok (u, c'))
    (hguard : direction = .remove → ∀ r ∈ c.tables.repositories, r.repositoryId = repository →
      r.mode = some .auto → starredElsewhere account repository c.tables = false) :
    KeepsGoverned c.tables c'.tables := by
  obtain ⟨hrepos, hrows⟩ := applyStarProjection_rows h
  have hstars := starredBy_confirmed hrows
  intro hgov r hr
  rw [hrepos] at hr
  obtain ⟨r₀, hr₀, rfl⟩ := mem_updateWhere.mp hr
  split
  · next hid =>
    have hid := of_decide_eq_true hid
    rw [direction.adjust_repositoryId]
    cases direction with
    | add =>
      have hany : starredAnywhere r₀.repositoryId c'.tables = true := by
        rw [starredAnywhere_iff, hid]
        exact ⟨account, by rw [hstars, if_pos rfl]; rfl⟩
      rw [hany]
      exact governedBy_promote
    | remove =>
      have hother : starredAnywhere r₀.repositoryId c'.tables = true →
          starredElsewhere account repository c.tables = true := by
        rw [starredAnywhere_iff, starredElsewhere_iff, hid]
        rintro ⟨a, ha⟩
        rw [hstars] at ha
        split at ha
        · cases ha
        · next hne =>
          exact ⟨a, fun heq => hne (by rw [heq]), ha⟩
      refine governedBy_release_of (hgov r₀ hr₀) ?_ ?_
      · intro hany
        obtain ⟨a, -, ha⟩ := starredElsewhere_iff.mp (hother hany)
        exact starredAnywhere_iff.mpr ⟨a, hid ▸ ha⟩
      · intro hany hmode
        have hnone := hguard rfl r₀ hr₀ hid hmode
        rw [hother hany] at hnone
        cases hnone
  · next hid =>
    have hsame : ∀ a, starredBy a r₀.repositoryId c'.tables =
        starredBy a r₀.repositoryId c.tables := by
      intro a
      rw [hstars, if_neg]
      rintro ⟨⟩
      exact hid (decide_eq_true rfl)
    rw [starredAnywhere_congr hsame]
    exact hgov r₀ hr₀

theorem keepsGoverned_persistConfirmedStar {ids : ℕ → Uuid} {now : Time}
    {context : MutationContext} {pid : ℤ} {key : String} {direction : StarDirection}
    {c c' : Catalog} {status : MutationStatus}
    (h : persistConfirmedStar ids now context pid key direction c = .ok (status, c'))
    (hguard : Operation.misgoverns c.tables
      (.persistConfirmedStar ids now context pid key direction) = false) :
    KeepsGoverned c.tables c'.tables := by
  simp only [persistConfirmedStar, Tx.bind_eq_ok, select_eq_ok] at h
  obtain ⟨repository, c₁, h₁, _, _, ⟨rfl, rfl⟩, ⟨⟩, c₂, h₂, ⟨⟩, c₃, h₃, inserted, c₄, h₄, h₅⟩ := h
  obtain ⟨hrepos₁, hframe₁, r, hr, hpid, hid⟩ := upsertRepositoryInTx_spec h₁
  have hkeep₁ := relates_keepsGoverned_upsertRepository _ _ _ _ _ h₁
  have hkeep₂ : KeepsGoverned c₁.tables c₂.tables := by
    refine keepsGoverned_applyStarProjection h₂ ?_
    intro hdirection q hq hqid hmode
    -- Only a repository the catalog already had can be `auto`.
    have hsame : q = r := c₁.valid.keys.repositories.eq_of_mem hq hr (hqid.trans hid.symm)
    subst hsame
    have hold : q ∈ c.tables.repositories := by
      rw [hrepos₁, catalogued, insertUnless] at hq
      split at hq
      · exact hq
      · rcases List.mem_append.mp hq with hmem | hmem
        · exact hmem
        · rw [List.mem_singleton.mp hmem] at hmode
          cases hmode
    have hstars : c₁.tables.currentStarState = c.tables.currentStarState :=
      hframe₁ .currentStarState (by decide)
    rw [starredElsewhere, hstars, ← starredElsewhere]
    simp only [Operation.misgoverns, hdirection, decide_true, Bool.true_and] at hguard
    have hfree := List.any_eq_false.mp hguard q hold
    simpa [hmode, hpid, hqid] using hfree
  have hmark := relates_onlyIf (relates_keepsGoverned_of_touches
    (touches_markBackupPolicyDirtyInTx now) (by decide) (by decide)) _ _ _ h₃
  have haudit := relates_keepsGoverned_of_touches (touches_insertAuditRow _) (by decide) (by decide)
    _ _ _ h₄
  have hfinish := relates_keepsGoverned_of_touches (touches_finishWithReplayGuard _ _) (by decide)
    (by decide) _ _ _ h₅
  intro hgov
  exact hfinish (haudit (hmark (hkeep₂ (hkeep₁ hgov))))

/-! ### Imports -/

/-- Every starred record still to import names a repository with a mode. -/
def ImportPrepared (request : LegacyImportRequest) (db : Database) : Prop :=
  ∀ record ∈ request.snapshot.repositories, record.starred = true →
    alreadyImported request.sourceId record db = true ∨
      ∃ r ∈ db.repositories,
        r.providerRepositoryId = record.providerRepositoryId ∧ r.mode ≠ none

theorem importPrepared_of_guard {accountIds : ℤ → Uuid} {ids : ℕ → ℕ → Uuid} {now : Time}
    {request : LegacyImportRequest} {importRunId : Uuid} {db : Database}
    (h : Operation.misgoverns db (.importLegacy accountIds ids now request importRunId) = false) :
    ImportPrepared request db := by
  intro record hrecord hstarred
  have hfree := List.any_eq_false.mp h record hrecord
  simp only [hstarred, Bool.true_and, Bool.and_eq_true, Bool.not_eq_true', not_and_or,
    Bool.not_eq_false, List.any_eq_true, decide_eq_true_eq] at hfree
  exact hfree

/-- Entries and records are only added by an import. -/
theorem ImportPrepared.mono {request : LegacyImportRequest} {db db' : Database}
    (h : ImportPrepared request db) (hrepos : db.repositories ⊆ db'.repositories)
    (hrecords : db.legacyImportRepositoryRecords ⊆ db'.legacyImportRepositoryRecords) :
    ImportPrepared request db' := by
  intro record hrecord hstarred
  rcases h record hrecord hstarred with halready | ⟨r, hr, hpid, hmode⟩
  · left
    obtain ⟨q, hq, htest⟩ := List.any_eq_true.mp halready
    exact List.any_eq_true.mpr ⟨q, hrecords hq, htest⟩
  · exact .inr ⟨r, hrepos hr, hpid, hmode⟩

/-- Starring a repository that has a mode keeps the invariant. -/
theorem keepsGoverned_importLegacyStar {observationId account repository : Uuid} {observedAt : Time}
    {c c' : Catalog} {u : Unit}
    (h : importLegacyStar observationId account repository observedAt c = .ok (u, c'))
    (hmode : ∀ r ∈ c.tables.repositories, r.repositoryId = repository → r.mode ≠ none) :
    KeepsGoverned c.tables c'.tables := by
  have hrepos : c'.tables.repositories = c.tables.repositories :=
    (touches_importLegacyStar _ _ _ _).rows_eq h (t := .repositories) (by decide)
  have hstars := importLegacyStar_spec h
  intro hgov r hr
  rw [hrepos] at hr
  by_cases hid : r.repositoryId = repository
  · have hany : starredAnywhere r.repositoryId c'.tables = true := by
      rw [starredAnywhere_iff, hid]
      exact ⟨account, by rw [hstars, if_pos rfl]⟩
    rw [hany]
    have hpromoted : r.promote = r := Repository.promote_eq_self (hmode r hr hid)
    rw [← hpromoted]
    exact governedBy_promote
  · have hsame : ∀ a, starredBy a r.repositoryId c'.tables = starredBy a r.repositoryId c.tables := by
      intro a
      rw [hstars, if_neg]
      rintro ⟨⟩
      exact hid rfl
    rw [starredAnywhere_congr hsame]
    exact hgov r hr

/-- The invariant together with what is left to import. -/
def KeepsPrepared (request : LegacyImportRequest) (db db' : Database) : Prop :=
  StarGoverned db ∧ ImportPrepared request db → StarGoverned db' ∧ ImportPrepared request db'

instance (request : LegacyImportRequest) : Std.Refl (KeepsPrepared request) := ⟨fun _ h => h⟩

instance (request : LegacyImportRequest) : IsTrans Database (KeepsPrepared request) :=
  ⟨fun _ _ _ h h' hdb => h' (h hdb)⟩

theorem keepsPrepared_importNewLegacyRepository {ids : ℕ → Uuid} {now : Time}
    {request : LegacyImportRequest} {record : LegacyRepository} {account : Uuid} {c c' : Catalog}
    {counts : ImportCounts} (hrecord : record ∈ request.snapshot.repositories)
    (halready : alreadyImported request.sourceId record c.tables = false)
    (h : importNewLegacyRepository ids now request.sourceId record account c = .ok (counts, c')) :
    KeepsPrepared request c.tables c'.tables := by
  simp only [importNewLegacyRepository, Tx.bind_eq_ok, Tx.pure_eq_ok] at h
  obtain ⟨repository, c₁, h₁, ⟨⟩, c₂, h₂, ⟨⟩, c₃, h₃, n, c₄, h₄, ⟨⟩, c₅, h₅, -, rfl⟩ := h
  obtain ⟨hrepos₁, hframe₁, r, hr, hpid, hid⟩ := upsertRepositoryInTx_spec h₁
  have halias : AgreeOff [.repositoryAliases] c₁.tables c₂.tables :=
    touches_recordLegacyAlias _ _ _ _ _ _ _ _ h₂
  have hstar : AgreeOff [.starObservations, .currentStarState] c₂.tables c₃.tables :=
    Touches.onlyIf (touches_importLegacyStar _ _ _ _) _ _ _ h₃
  have hclaims : AgreeOff [.legacyListClaims] c₃.tables c₄.tables :=
    touches_importLegacyListClaims _ _ _ _ _ _ _ _ _ h₄
  have hrecords : AgreeOff [.legacyImportRepositoryRecords] c₄.tables c₅.tables :=
    Touches.write (List.mem_singleton.mpr rfl) _ _ _ _ h₅
  rintro ⟨hgov, hprepared⟩
  have hsub₁ : c.tables.repositories ⊆ c₁.tables.repositories := by
    rw [hrepos₁, catalogued, insertUnless]
    split
    · exact List.Subset.refl _
    · exact List.subset_append_left _ _
  have hrepos₂ : c₂.tables.repositories = c₁.tables.repositories := halias .repositories (by decide)
  have hrepos₅ : c₅.tables.repositories = c₂.tables.repositories :=
    ((hrecords .repositories (by decide)).trans (hclaims .repositories (by decide))).trans
      (hstar .repositories (by decide))
  have hgov₂ : StarGoverned c₂.tables :=
    keepsGoverned_of_eq hrepos₂ (halias .currentStarState (by decide))
      (relates_keepsGoverned_upsertRepository _ _ _ _ _ h₁ hgov)
  refine ⟨?_, ?_⟩
  · have hgov₃ : StarGoverned c₃.tables := by
      unfold onlyIf at h₃
      split at h₃
      · next hstarred =>
        refine keepsGoverned_importLegacyStar h₃ ?_ hgov₂
        -- The record was prepared, so its repository was catalogued with a mode.
        rcases hprepared record hrecord hstarred with hbefore | ⟨q, hq, hqpid, hqmode⟩
        · rw [halready] at hbefore
          cases hbefore
        · intro p hp hpid'
          rw [hrepos₂] at hp
          have hpr : p = r := c₁.valid.keys.repositories.eq_of_mem hp hr (hpid'.trans hid.symm)
          have hqr : q = r :=
            c₁.valid.keys.repositories_provider.eq_of_mem (hsub₁ hq) hr (hqpid.trans hpid.symm)
          rw [hpr, ← hqr]
          exact hqmode
      · obtain ⟨-, rfl⟩ := Tx.pure_eq_ok.mp h₃
        exact hgov₂
    have hgov₄ := keepsGoverned_of_eq (hclaims .repositories (by decide))
      (hclaims .currentStarState (by decide)) hgov₃
    exact keepsGoverned_of_eq (hrecords .repositories (by decide))
      (hrecords .currentStarState (by decide)) hgov₄
  · refine hprepared.mono ?_ ?_
    · rw [hrepos₅, hrepos₂]
      exact hsub₁
    · have hrows₄ : c₄.tables.legacyImportRepositoryRecords =
          c.tables.legacyImportRepositoryRecords :=
        (((hclaims .legacyImportRepositoryRecords (by decide)).trans
          (hstar .legacyImportRepositoryRecords (by decide))).trans
          (halias .legacyImportRepositoryRecords (by decide))).trans
          (hframe₁ .legacyImportRepositoryRecords (by decide))
      rw [write_eq_ok] at h₅
      rw [h₅]
      show c.tables.legacyImportRepositoryRecords ⊆ c₄.tables.legacyImportRepositoryRecords ++ _
      rw [hrows₄]
      exact List.subset_append_left _ _

/-! ### Erasures -/

theorem keepsGoverned_erased {now : Time} {owner : String} {operation : AccountErasureOperation}
    {db : Database} (hguard : Operation.misgoverns db (.eraseAccount now owner operation) = false) :
    KeepsGoverned db (erased now owner db) := by
  intro hgov r hr
  obtain ⟨hmem, hkept⟩ := mem_erased_repositories.mp hr
  have hfree := List.any_eq_false.mp hguard r hmem
  have hothers : starredAnywhere r.repositoryId (erased now owner db) =
      starredByOthers owner r.repositoryId db := by
    rw [starredByOthers, starredAnywhere]
    show (deleteWhere _ db.currentStarState).any _ = _
    rw [Bool.eq_iff_iff]
    simp only [List.any_eq_true, mem_deleteWhere, Bool.and_eq_true, decide_eq_true_eq,
      Bool.not_eq_true', and_assoc]
    constructor
    · rintro ⟨s, hs, howns, hrepo, hstar⟩
      exact ⟨s, hs, hrepo, hstar, howns⟩
    · rintro ⟨s, hs, hrepo, hstar, howns⟩
      exact ⟨s, hs, howns, hrepo, hstar⟩
  rw [hothers]
  intro htracked hignored
  have hbefore := hgov r hmem htracked hignored
  have hsub : starredByOthers owner r.repositoryId db = true →
      starredAnywhere r.repositoryId db = true := by
    simp only [starredByOthers, starredAnywhere, List.any_eq_true, Bool.and_eq_true]
    rintro ⟨s, hs, hstar, -⟩
    exact ⟨s, hs, hstar⟩
  cases hmode : r.mode with
  | none =>
    have hnone := hbefore.2.mp hmode
    have hfalse : starredByOthers owner r.repositoryId db = false := by
      rw [← Bool.not_eq_true]
      intro h
      rw [hsub h] at hnone
      cases hnone
    simp [hfalse]
  | some mode =>
    cases mode with
    | tracked => exact absurd hmode htracked
    | ignored => exact absurd hmode hignored
    | auto =>
      have htrue : starredByOthers owner r.repositoryId db = true := by
        simpa [hmode, hkept] using hfree
      simp [htrue]

/-! ### Whole histories -/

/-- **One operation.**  An operation that does not misgovern keeps the invariant. -/
theorem Operation.commit_keepsGoverned (k : Contracts) (c : Catalog) (op : Operation)
    (hguard : op.misgoverns c.tables = false) :
    KeepsGoverned c.tables (op.commit k c).tables := by
  cases op with
  | applyAuthority => exact Tx.relates_commit fun _ _ h => keepsGoverned_applyAuthority h hguard
  | recordIngest => exact (relates_keepsGoverned_recordIngest _ _ _ _ _ _).commit c
  | persistConfirmedStar =>
    exact Tx.relates_commit fun _ _ h => keepsGoverned_persistConfirmedStar h hguard
  | importLegacy accountIds ids now request importRunId =>
    have himport : Tx.Relates (KeepsPrepared request)
        (importLegacyTransaction accountIds ids now request importRunId) := by
      have hframe : ∀ {α : Type} {ts : List Table} {x : Tx α}, Touches ts x →
          .repositories ∉ ts → .currentStarState ∉ ts → .legacyImportRepositoryRecords ∉ ts →
          Tx.Relates (KeepsPrepared request) x := by
        intro α ts x hx hnot hnot' hnot''
        refine Tx.Relates.mono hx fun db db' hagree => ?_
        rintro ⟨hgov, hprepared⟩
        have hrepos : db'.repositories = db.repositories := hagree .repositories hnot
        have hrecords : db'.legacyImportRepositoryRecords = db.legacyImportRepositoryRecords :=
          hagree .legacyImportRepositoryRecords hnot''
        refine ⟨keepsGoverned_of_eq hrepos (hagree .currentStarState hnot') hgov,
          hprepared.mono ?_ ?_⟩
        · rw [hrepos]
          exact List.Subset.refl _
        · rw [hrecords]
          exact List.Subset.refl _
      apply relates_importLegacyTransaction
      · intro fresh owner i
        exact hframe (touches_createLegacyAccount _ _ _) (by decide) (by decide) (by decide)
      · intro α x hx
        exact hframe hx (by decide) (by decide) (by decide)
      · intro p hp account c₁ c₂ counts halready h
        exact keepsPrepared_importNewLegacyRepository (List.fst_mem_of_mem_zipIdx hp) halready h
    intro hgov
    exact (himport.commit c ⟨hgov, importPrepared_of_guard hguard⟩).1
  | eraseAccount now owner operation =>
    refine Tx.relates_commit fun _ c' h => ?_
    obtain ⟨c₁, h₁, hrecord⟩ := eraseAccountInTx_eq_ok h
    have herased : KeepsGoverned c.tables c₁.tables := by
      rw [eraseOwnerState_eq h₁]
      exact keepsGoverned_erased hguard
    exact IsTrans.trans _ _ _ herased (keepsGoverned_of_eq (hrecord .repositories (by decide))
      (hrecord .currentStarState (by decide)))
  | upsertRepository => exact (relates_keepsGoverned_upsertRepository _ _).commit c
  | applyAliasObservation =>
    refine Tx.Relates.commit (relates_applyAliasObservation _ _ _ _ _ _
      (relates_keepsGoverned_upsertRepository _ _) ?_) c
    intro α x hx
    exact relates_keepsGoverned_of_touches hx (by decide) (by decide)
  | recordAttempt =>
    refine Tx.Relates.commit (relates_recordAttempt _ _ _ _ _ _ _
      (relates_keepsGoverned_upsertRepository _ _) ?_) c
    intro row _
    exact relates_keepsGoverned_of_touches (touches_insertAuditRow row) (by decide) (by decide)
  | persistListMembership =>
    refine Tx.Relates.commit (relates_persistListMembership _ _ _ _ _ _ _ _
      (relates_keepsGoverned_upsertRepository _ _) ?_ ?_) c
    · intro r
      exact relates_keepsGoverned_of_touches (touches_convergeMembershipProjection _ _ _ _)
        (by decide) (by decide)
    · intro row _
      exact relates_keepsGoverned_of_touches (touches_insertAuditRow row) (by decide) (by decide)
  | trackRepository => exact (relates_keepsGoverned_trackRepository _ _ _).commit c
  | setRepositoryMode => exact (relates_keepsGoverned_setRepositoryModeInTx _ _ _ _ _ _).commit c
  | _ =>
    exact keepsGoverned_of_eq (rows_commit k c _ .repositories rfl)
      (rows_commit k c _ .currentStarState rfl)

/-- **Stars govern modes.**  In every history without a misgoverning step, in every state, every
repository that is neither tracked nor ignored is `auto` exactly when some account stars it. -/
theorem starGoverned_throughout (k : Contracts) (history : List Operation)
    (h : Runs.Guarded (step k) (fun c op => op.misgoverns c.tables = false) emptyCatalog history) :
    Runs.Throughout (step k) (fun c => StarGoverned c.tables) emptyCatalog history := by
  refine Runs.throughout_of_guarded ?_ ?_ h
  · intro c op hc hguard
    unfold step
    split
    · exact op.commit_keepsGoverned k c hguard hc
    · exact hc
  · intro r hr
    cases hr

/-- Both owners star a repository; the second one's star keeps it governed when the first account
is unstarred. -/
def sharedStarHistory : List Operation :=
  connectOwners ++ [.openRun .incremental 10 1 0, .upsertRepository 1 101,
    .recordIngest 20 0 10 1 1 1000000, .openRun .incremental 11 2 0,
    .recordIngest 21 0 11 2 1 1000000]

theorem starGoverned_throughout_shared :
    Runs.Throughout (step sampleContracts) (fun c => StarGoverned c.tables) emptyCatalog
      sharedStarHistory := by
  apply starGoverned_throughout
  simp only [Runs.Guarded, sharedStarHistory, connectOwners, List.cons_append, List.nil_append]
  exact ⟨rfl, rfl, rfl, rfl, rfl, rfl, rfl, rfl, trivial⟩

/-- **One account's unstar releases what another still stars.** -/
theorem misgoverned_unstar :
    ¬ StarGoverned (Runs.runFrom (step sampleContracts) emptyCatalog (sharedStarHistory ++
      [.persistConfirmedStar (fun n => 30 + BitVec.ofNat 128 n) 0 ⟨1, "user", .web⟩ 101 "key-1"
        .remove])).tables := by
  intro h
  have hrow : (⟨1, 101, none⟩ : Repository) ∈ (Runs.runFrom (step sampleContracts) emptyCatalog
      (sharedStarHistory ++ [.persistConfirmedStar (fun n => 30 + BitVec.ofNat 128 n) 0
        ⟨1, "user", .web⟩ 101 "key-1" .remove])).tables.repositories := by decide +kernel
  have hstarred := (h _ hrow (by decide) (by decide)).2.mp rfl
  exact absurd hstarred (by decide +kernel)

end GithubCatalog
