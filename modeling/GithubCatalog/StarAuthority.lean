import GithubCatalog.Catalog

/-!
# What the star flows write

One specification per flow of what its successful run does to the star state and to the modes:

* an ingested entry, a confirmed star and an imported star set one account's star;
* a completed snapshot makes the account's stars exactly the staged repositories
  (`applyAuthority_starredBy`) and moves the modes of the staged and the absent ones
  (`applyAuthority_repositories`).
-/

namespace GithubCatalog

open Relational Transact

/-! ### One row -/

theorem starredBy_of_eq {account repository : Uuid} {db db' : Database}
    (hstars : db'.currentStarState = db.currentStarState) :
    starredBy account repository db' = starredBy account repository db := by
  rw [starredBy, starredBy, hstars]

/-- Writing one star row sets that account's star and no other. -/
theorem starredBy_upsertWhere (f : CurrentStarState → CurrentStarState) (row : CurrentStarState)
    {b : Bool} (hkey : ∀ c, (f c).key = c.key) (hf : ∀ c, (f c).starred = b)
    (hrow : row.starred = b) (t : List CurrentStarState) (account repository : Uuid) :
    (upsertWhere (fun c => decide (c.key = row.key)) f row t).any
        (fun c => decide (c.accountId = account) && decide (c.repositoryId = repository) &&
          c.starred) =
      if row.key = (account, repository) then b
      else t.any fun c => decide (c.accountId = account) && decide (c.repositoryId = repository) &&
        c.starred := by
  have htest : ∀ c : CurrentStarState,
      (decide (c.accountId = account) && decide (c.repositoryId = repository)) =
        decide (c.key = (account, repository)) := by
    intro c
    rw [Bool.eq_iff_iff]
    simp [CurrentStarState.key]
  simp only [htest]
  split
  · next hown =>
    apply any_upsertWhere_of_own
    · intro c hc
      rw [Bool.and_eq_true] at hc
      rw [hown]
      exact hc.1
    · intro c hc
      rw [hkey, hf, of_decide_eq_true hc, hown, decide_eq_true rfl, Bool.true_and]
    · rw [hown, hrow, decide_eq_true rfl, Bool.true_and]
  · next hother =>
    apply any_upsertWhere_of_other
    · intro c hc
      rw [hkey, of_decide_eq_true hc, decide_eq_false hother, Bool.false_and, Bool.false_and]
    · rw [decide_eq_false hother, Bool.false_and]

/-- The star rows after an ingested entry. -/
theorem recordIngest_stars {observationId : Uuid} {now : Time} {runId account repository : Uuid}
    {seenAt : Time} {c c' : Catalog} {u : Unit}
    (h : recordIngest observationId now runId account repository seenAt c = .ok (u, c')) :
    c'.tables.currentStarState =
      upsertWhere (fun s => decide (s.key = (account, repository))) (ingestOver now seenAt runId)
        (ingestedRow now seenAt runId account repository) c.tables.currentStarState := by
  simp only [recordIngest, Tx.bind_eq_ok, write_eq_ok] at h
  obtain ⟨-, c₁, h₁, -, c₂, h₂, h₃⟩ := h
  rw [h₃, h₂, h₁]
  rfl

/-- An ingested entry stars its repository and promotes it. -/
theorem recordIngest_spec {observationId : Uuid} {now : Time} {runId account repository : Uuid}
    {seenAt : Time} {c c' : Catalog} {u : Unit}
    (h : recordIngest observationId now runId account repository seenAt c = .ok (u, c')) :
    c'.tables.repositories =
      updateWhere (fun r => decide (r.repositoryId = repository)) Repository.promote
        c.tables.repositories ∧
    ∀ a q, starredBy a q c'.tables =
      if (account, repository) = (a, q) then true else starredBy a q c.tables := by
  have hstars := recordIngest_stars h
  simp only [recordIngest, Tx.bind_eq_ok, write_eq_ok] at h
  obtain ⟨-, c₁, h₁, -, c₂, h₂, h₃⟩ := h
  refine ⟨by rw [h₃, h₂, h₁]; rfl, ?_⟩
  intro a q
  rw [starredBy, hstars]
  exact starredBy_upsertWhere (ingestOver now seenAt runId)
    (ingestedRow now seenAt runId account repository) (fun _ => rfl) (fun _ => rfl) rfl _ a q

/-- The star rows after an imported star. -/
theorem importLegacyStar_stars {observationId account repository : Uuid} {observedAt : Time}
    {c c' : Catalog} {u : Unit}
    (h : importLegacyStar observationId account repository observedAt c = .ok (u, c')) :
    c'.tables.currentStarState =
      upsertWhere (fun s => decide (s.key = (account, repository))) (legacyStarOver observedAt)
        (legacyStarRow account repository observedAt) c.tables.currentStarState := by
  simp only [importLegacyStar, Tx.bind_eq_ok, write_eq_ok] at h
  obtain ⟨-, c₁, h₁, h₂⟩ := h
  rw [h₂, h₁]
  rfl

/-- An imported star stars its repository and leaves the modes alone. -/
theorem importLegacyStar_spec {observationId account repository : Uuid} {observedAt : Time}
    {c c' : Catalog} {u : Unit}
    (h : importLegacyStar observationId account repository observedAt c = .ok (u, c')) :
    ∀ a q, starredBy a q c'.tables =
      if (account, repository) = (a, q) then true else starredBy a q c.tables := by
  intro a q
  rw [starredBy, importLegacyStar_stars h]
  exact starredBy_upsertWhere (legacyStarOver observedAt)
    (legacyStarRow account repository observedAt) (fun _ => rfl) (fun _ => rfl) rfl _ a q

/-- The star a confirmed write leaves. -/
def StarDirection.starred : StarDirection → Bool
  | .add => true
  | .remove => false

/-- What a confirmed write does to the mode. -/
def StarDirection.adjust : StarDirection → Repository → Repository
  | .add => Repository.promote
  | .remove => Repository.release

/-- The star row a confirmed write proposes. -/
def StarDirection.row (now : Time) (account repository : Uuid) : StarDirection → CurrentStarState
  | .add => confirmedStarRow now account repository
  | .remove => confirmedUnstarRow now account repository

/-- What a confirmed write does to an existing star row. -/
def StarDirection.over (now : Time) : StarDirection → CurrentStarState → CurrentStarState
  | .add => confirmStar now
  | .remove => confirmUnstar now

namespace StarDirection

variable (direction : StarDirection) (now : Time) (account repository : Uuid)

@[simp] theorem row_key : (direction.row now account repository).key = (account, repository) := by
  cases direction <;> rfl

@[simp] theorem row_starred : (direction.row now account repository).starred = direction.starred := by
  cases direction <;> rfl

@[simp] theorem over_key (c : CurrentStarState) : (direction.over now c).key = c.key := by
  cases direction <;> rfl

@[simp] theorem over_starred (c : CurrentStarState) :
    (direction.over now c).starred = direction.starred := by
  cases direction <;> rfl

end StarDirection

/-- The projection writes one star row and adjusts one mode. -/
theorem applyStarProjection_rows {now : Time} {account repository : Uuid}
    {direction : StarDirection} {c c' : Catalog} {u : Unit}
    (h : applyStarProjection now account repository direction c = .ok (u, c')) :
    c'.tables.repositories =
      updateWhere (fun r => decide (r.repositoryId = repository)) direction.adjust
        c.tables.repositories ∧
    c'.tables.currentStarState =
      upsertWhere (fun s => decide (s.key = (account, repository))) (direction.over now)
        (direction.row now account repository) c.tables.currentStarState := by
  cases direction with
  | add =>
    simp only [applyStarProjection, Tx.bind_eq_ok, write_eq_ok] at h
    obtain ⟨-, c₁, h₁, h₂⟩ := h
    exact ⟨by rw [h₂, h₁]; rfl, by rw [h₂, h₁]; rfl⟩
  | remove =>
    simp only [applyStarProjection, Tx.bind_eq_ok, write_eq_ok] at h
    obtain ⟨-, c₁, h₁, h₂⟩ := h
    exact ⟨by rw [h₂, h₁]; rfl, by rw [h₂, h₁]; rfl⟩

/-- The stars after a confirmed write's row. -/
theorem starredBy_confirmed {now : Time} {account repository : Uuid} {direction : StarDirection}
    {db db' : Database}
    (h : db'.currentStarState =
      upsertWhere (fun s => decide (s.key = (account, repository))) (direction.over now)
        (direction.row now account repository) db.currentStarState) (a q : Uuid) :
    starredBy a q db' =
      if (account, repository) = (a, q) then direction.starred else starredBy a q db := by
  have hset := starredBy_upsertWhere (direction.over now) (direction.row now account repository)
    (direction.over_key now) (direction.over_starred now) (direction.row_starred now _ _)
    db.currentStarState a q
  rw [direction.row_key] at hset
  rw [starredBy, h]
  exact hset

/-! ### The catalog entry a flow names -/

/-- The repositories after one was catalogued. -/
def catalogued (fresh : Uuid) (pid : ℤ) (t : List Repository) : List Repository :=
  insertUnless (fun r => decide (r.providerRepositoryId = pid)) ⟨fresh, pid, none⟩ t

/-- A repository new to the catalog has an id no row had. -/
theorem fresh_of_catalogued {fresh : Uuid} {pid : ℤ} {t : List Repository}
    (hunique : UniqueOn (·.repositoryId) (catalogued fresh pid t))
    (hnew : (t.any fun r => decide (r.providerRepositoryId = pid)) = false) :
    catalogued fresh pid t = t ++ [⟨fresh, pid, none⟩] ∧ fresh ∉ t.map (·.repositoryId) := by
  have hlist : catalogued fresh pid t = t ++ [⟨fresh, pid, none⟩] := by
    rw [catalogued, insertUnless, hnew]
    rfl
  rw [hlist] at hunique
  exact ⟨hlist, hunique.not_mem_of_append⟩

/-- A starred repository is in the catalog. -/
theorem mem_of_starredBy {db : Database} (hrefs : ForeignKeys db) {account repository : Uuid}
    (h : starredBy account repository db = true) :
    repository ∈ db.repositories.map (·.repositoryId) := by
  obtain ⟨s, hs, htest⟩ := List.any_eq_true.mp h
  simp only [Bool.and_eq_true, decide_eq_true_eq] at htest
  rw [← htest.1.2]
  exact hrefs.stars_repository s hs _ rfl

theorem upsertRepositoryInTx_spec {fresh id : Uuid} {pid : ℤ} {c c' : Catalog}
    (h : upsertRepositoryInTx fresh pid c = .ok (id, c')) :
    c'.tables.repositories = catalogued fresh pid c.tables.repositories ∧
      AgreeOff [.repositories] c.tables c'.tables ∧
      ∃ r ∈ c'.tables.repositories, r.providerRepositoryId = pid ∧ r.repositoryId = id := by
  have hframe := touches_upsertRepositoryInTx _ _ _ _ _ h
  simp only [upsertRepositoryInTx, Tx.bind_eq_ok, write_eq_ok, fetchOne_eq_ok] at h
  obtain ⟨-, c₁, h₁, hfind, rfl⟩ := h
  refine ⟨by rw [h₁]; rfl, hframe, ?_⟩
  obtain ⟨r, hr, rfl⟩ := Option.map_eq_some_iff.mp hfind
  exact ⟨r, List.mem_of_find?_eq_some hr, by simpa using List.find?_some hr, rfl⟩

/-- A confirmed write catalogues its repository, then writes one star row, adjusts one mode and marks
the policy when it was new. -/
theorem persistConfirmedStar_eq_ok {ids : ℕ → Uuid} {now : Time} {context : MutationContext}
    {pid : ℤ} {key : String} {direction : StarDirection} {c c' : Catalog} {status : MutationStatus}
    (h : persistConfirmedStar ids now context pid key direction c = .ok (status, c')) :
    ∃ repository c₁, upsertRepositoryInTx (ids 0) pid c = .ok (repository, c₁) ∧
      c'.tables.repositories =
        updateWhere (fun r => decide (r.repositoryId = repository)) direction.adjust
          c₁.tables.repositories ∧
      c'.tables.currentStarState =
        upsertWhere (fun s => decide (s.key = (context.accountId, repository)))
          (direction.over now) (direction.row now context.accountId repository)
          c₁.tables.currentStarState ∧
      c'.tables.backupPolicyPublicationCursor =
        (if newlyApplied direction context.accountId repository c₁.tables then
          some (markedCursor now c₁.tables.backupPolicyPublicationCursor)
        else c₁.tables.backupPolicyPublicationCursor) := by
  simp only [persistConfirmedStar, Tx.bind_eq_ok, select_eq_ok] at h
  obtain ⟨repository, c₁, h₁, _, _, ⟨rfl, rfl⟩, ⟨⟩, c₂, h₂, ⟨⟩, c₃, h₃, inserted, c₄, h₄, h₅⟩ := h
  obtain ⟨hrepos, hstars⟩ := applyStarProjection_rows h₂
  have hcursor₂ : c₂.tables.backupPolicyPublicationCursor =
      c₁.tables.backupPolicyPublicationCursor :=
    (touches_applyStarProjection _ _ _ _).rows_eq h₂ (t := .backupPolicyPublicationCursor)
      (by decide)
  have hmark : AgreeOff [.backupPolicyPublicationCursor] c₂.tables c₃.tables :=
    Touches.onlyIf (touches_markBackupPolicyDirtyInTx now) _ _ _ h₃
  have haudit : AgreeOff [.mutationAudit] c₃.tables c₄.tables :=
    touches_insertAuditRow _ _ _ _ h₄
  have hfinish : AgreeOff [.mutationAudit] c₄.tables c'.tables :=
    (touches_finishWithReplayGuard _ _).mono (by decide) _ _ _ h₅
  have hlast := IsTrans.trans _ _ _ haudit hfinish
  have hrepos' : c'.tables.repositories = c₂.tables.repositories :=
    (hlast .repositories (by decide)).trans (hmark .repositories (by decide))
  have hstars' : c'.tables.currentStarState = c₂.tables.currentStarState :=
    (hlast .currentStarState (by decide)).trans (hmark .currentStarState (by decide))
  refine ⟨repository, c₁, h₁, hrepos'.trans hrepos, hstars'.trans hstars, ?_⟩
  have hcursor' : c'.tables.backupPolicyPublicationCursor =
      c₃.tables.backupPolicyPublicationCursor := hlast .backupPolicyPublicationCursor (by decide)
  rw [hcursor', ← hcursor₂]
  by_cases hisNew : newlyApplied direction context.accountId repository c₁.tables = true
  · rw [onlyIf, if_pos hisNew] at h₃
    rw [markBackupPolicyDirtyInTx_eq h₃, if_pos hisNew]
  · rw [onlyIf, if_neg hisNew] at h₃
    obtain ⟨-, rfl⟩ := Tx.pure_eq_ok.mp h₃
    rw [if_neg hisNew]

/-- A confirmed write sets one account's star and no other. -/
theorem persistConfirmedStar_spec {ids : ℕ → Uuid} {now : Time} {context : MutationContext}
    {pid : ℤ} {key : String} {direction : StarDirection} {c c' : Catalog} {status : MutationStatus}
    (h : persistConfirmedStar ids now context pid key direction c = .ok (status, c')) :
    ∃ repository, (∃ r ∈ catalogued (ids 0) pid c.tables.repositories,
        r.providerRepositoryId = pid ∧ r.repositoryId = repository) ∧
      c'.tables.repositories =
        updateWhere (fun r => decide (r.repositoryId = repository)) direction.adjust
          (catalogued (ids 0) pid c.tables.repositories) ∧
      (∀ a q, starredBy a q c'.tables =
        if (context.accountId, repository) = (a, q) then direction.starred
        else starredBy a q c.tables) ∧
      c'.tables.backupPolicyPublicationCursor =
        (if newlyApplied direction context.accountId repository c.tables then
          some (markedCursor now c.tables.backupPolicyPublicationCursor)
        else c.tables.backupPolicyPublicationCursor) := by
  obtain ⟨repository, c₁, h₁, hrepos, hstars, hcursor⟩ := persistConfirmedStar_eq_ok h
  obtain ⟨hrepos₁, hframe₁, r, hr, hpid, hid⟩ := upsertRepositoryInTx_spec h₁
  have hstars₁ : c₁.tables.currentStarState = c.tables.currentStarState :=
    hframe₁ .currentStarState (by decide)
  have hcursor₁ : c₁.tables.backupPolicyPublicationCursor =
      c.tables.backupPolicyPublicationCursor := hframe₁ .backupPolicyPublicationCursor (by decide)
  have hnew : newlyApplied direction context.accountId repository c₁.tables =
      newlyApplied direction context.accountId repository c.tables := by
    cases direction <;> simp only [newlyApplied, starredBy_of_eq hstars₁]
  rw [hrepos₁] at hrepos hr
  rw [hstars₁] at hstars
  rw [hnew, hcursor₁] at hcursor
  exact ⟨repository, ⟨r, hr, hpid, hid⟩, hrepos, starredBy_confirmed hstars, hcursor⟩

/-! ### The authority swap of a snapshot -/

/-- The catalogued repositories a run staged. -/
def stagedIds (runId : Uuid) (db : Database) : List Uuid :=
  (stagedRepositories runId db).map (·.1.repositoryId)

theorem mem_stagedIds {runId : Uuid} {db : Database} (hkeys : Keys db) {r : Repository}
    (hr : r ∈ db.repositories) :
    r.repositoryId ∈ stagedIds runId db ↔ stagedIn runId r.providerRepositoryId db = true := by
  simp only [stagedIds, stagedRepositories, stagedIn, List.mem_map, List.mem_filterMap,
    List.mem_filter, List.any_eq_true, Bool.and_eq_true, decide_eq_true_eq]
  constructor
  · rintro ⟨⟨q, i⟩, ⟨j, ⟨hj, hrun⟩, hfound⟩, hid⟩
    obtain ⟨q', hq', heq⟩ := Option.map_eq_some_iff.mp hfound
    cases heq
    have hpid : q.providerRepositoryId = i.providerRepositoryId := by
      simpa using List.find?_some hq'
    have hsame : q = r := hkeys.repositories.eq_of_mem (List.mem_of_find?_eq_some hq') hr hid
    exact ⟨i, hj, hrun, by rw [← hpid, hsame]⟩
  · rintro ⟨i, hi, hrun, hpid⟩
    have hfound : repositoryOf i.providerRepositoryId db = some r := by
      rw [hpid]
      exact hkeys.repositories_provider.find?_eq hr
    exact ⟨(r, i), ⟨i, ⟨hi, hrun⟩, by rw [hfound]; rfl⟩, rfl⟩

/-- Which repositories are staged depends on their identities only. -/
theorem stagedIds_congr {runId : Uuid} {db db' : Database}
    (hitems : db'.snapshotItems = db.snapshotItems) {f : Repository → Repository}
    (hrepos : db'.repositories = db.repositories.map f)
    (hid : ∀ r, (f r).repositoryId = r.repositoryId)
    (hpid : ∀ r, (f r).providerRepositoryId = r.providerRepositoryId) :
    stagedIds runId db' = stagedIds runId db := by
  have hfind : ∀ pid, (repositoryOf pid db').map (·.repositoryId) =
      (repositoryOf pid db).map (·.repositoryId) := by
    intro pid
    rw [repositoryOf, repositoryOf, hrepos, List.find?_map, Option.map_map]
    have hcomp : ((fun r : Repository => decide (r.providerRepositoryId = pid)) ∘ f) =
        fun r => decide (r.providerRepositoryId = pid) := by
      funext r
      rw [Function.comp, hpid]
    rw [hcomp]
    congr 1
    funext r
    exact hid r
  simp only [stagedIds, stagedRepositories, hitems, List.map_filterMap, Option.map_map]
  congr 1
  funext i
  exact hfind i.providerRepositoryId

theorem stagedIds_of_eq {runId : Uuid} {db db' : Database}
    (hitems : db'.snapshotItems = db.snapshotItems)
    (hrepos : db'.repositories = db.repositories) : stagedIds runId db' = stagedIds runId db :=
  stagedIds_congr hitems (hrepos.trans (List.map_id _).symm) (fun _ => rfl) fun _ => rfl

theorem absentFrom_eq {runId account : Uuid} {db : Database} (c : CurrentStarState) :
    c.absentFrom runId account db = (decide (c.accountId = account) && c.starred &&
      !decide (c.repositoryId ∈ stagedIds runId db)) := by
  have hstaged : ((stagedRepositories runId db).any fun p =>
      decide (p.1.repositoryId = c.repositoryId)) = decide (c.repositoryId ∈ stagedIds runId db) := by
    rw [Bool.eq_iff_iff, List.any_eq_true, decide_eq_true_eq, stagedIds, List.mem_map]
    simp only [decide_eq_true_eq]
  rw [CurrentStarState.absentFrom, hstaged]

/-- A promotion stars the proposed rows and changes no other star. -/
theorem starredBy_upsertAll {now : Time} {rows : List CurrentStarState}
    (hrows : ∀ row ∈ rows, row.starred = true) (t : List CurrentStarState)
    (account repository : Uuid) :
    (upsertAll CurrentStarState.key (promotedRow now) rows t).any
        (fun c => decide (c.accountId = account) && decide (c.repositoryId = repository) &&
          c.starred) =
      (decide ((account, repository) ∈ rows.map CurrentStarState.key) ||
        t.any fun c => decide (c.accountId = account) && decide (c.repositoryId = repository) &&
          c.starred) := by
  induction rows generalizing t with
  | nil => rw [List.map_nil, decide_eq_false List.not_mem_nil, Bool.false_or]; rfl
  | cons row rows ih =>
    rw [upsertAll, List.foldl_cons, ← upsertAll,
      ih (fun r hr => hrows r (List.mem_cons_of_mem _ hr)),
      starredBy_upsertWhere (promotedRow now · row) row (fun _ => rfl) (fun _ => rfl)
        (hrows row List.mem_cons_self)]
    split
    · next hown => simp [hown]
    · next hother =>
      congr 1
      simp [Ne.symm hother]

theorem Repository.release_release (r : Repository) : r.release.release = r.release := by
  unfold release
  by_cases h : r.mode = some .auto
  · rw [if_pos h, if_neg (by simp)]
  · rw [if_neg h, if_neg h]

/-- Release the repositories of a list. -/
def releaseAll (ids : List Uuid) (t : List Repository) : List Repository :=
  t.map fun r => if r.repositoryId ∈ ids then r.release else r

theorem releaseAll_nil (t : List Repository) : releaseAll [] t = t := by
  simp [releaseAll]

theorem releaseAll_cons (id : Uuid) (ids : List Uuid) (t : List Repository) :
    releaseAll ids (updateWhere (fun r => decide (r.repositoryId = id)) Repository.release t) =
      releaseAll (id :: ids) t := by
  rw [releaseAll, releaseAll, updateWhere, List.map_map]
  apply List.map_congr_left
  intro r _
  simp only [Function.comp]
  by_cases hid : r.repositoryId = id
  · rw [if_pos (decide_eq_true hid), if_pos (List.mem_cons.mpr (.inl hid))]
    split
    · exact r.release_release
    · rfl
  · rw [if_neg (fun h => hid (of_decide_eq_true h))]
    simp only [List.mem_cons, hid, false_or]

/-- The releases of the loop over the absent repositories. -/
theorem recordUnstars_repositories {ids : ℕ → Uuid} {now : Time} {runId account : Uuid}
    {absent : List (Uuid × ℕ)} {c c' : Catalog} {u : Unit}
    (h : (absent.forM fun p => recordUnstar (ids p.2) now runId account p.1) c = .ok (u, c')) :
    c'.tables.repositories = releaseAll (absent.map (·.1)) c.tables.repositories := by
  induction absent generalizing c with
  | nil =>
    obtain ⟨-, rfl⟩ := Tx.pure_eq_ok.mp h
    exact (releaseAll_nil _).symm
  | cons p rest ih =>
    obtain ⟨⟨⟩, c₁, h₁, hrest⟩ := Tx.bind_eq_ok.mp h
    have hfirst : c₁.tables.repositories =
        updateWhere (fun r => decide (r.repositoryId = p.1)) Repository.release
          c.tables.repositories := by
      simp only [recordUnstar, Tx.bind_eq_ok, write_eq_ok] at h₁
      obtain ⟨-, d₁, e₁, -, d₂, e₂, e₃⟩ := h₁
      rw [e₃, e₂, e₁]
      rfl
    rw [ih hrest, hfirst, List.map_cons, releaseAll_cons]

/-- Unstarring the absent rows leaves the account exactly the staged ones of its stars. -/
theorem starredBy_unstarAbsent {now : Time} {runId account : Uuid} {db : Database}
    (t : List CurrentStarState) (a q : Uuid) :
    (updateWhere (·.absentFrom runId account db) (·.unstar now runId) t).any
        (fun c => decide (c.accountId = a) && decide (c.repositoryId = q) && c.starred) =
      ((t.any fun c => decide (c.accountId = a) && decide (c.repositoryId = q) && c.starred) &&
        (decide (a ≠ account) || decide (q ∈ stagedIds runId db))) := by
  have hrow : ∀ c : CurrentStarState,
      (fun c : CurrentStarState =>
          decide (c.accountId = a) && decide (c.repositoryId = q) && c.starred)
        (if c.absentFrom runId account db then c.unstar now runId else c) =
      (decide (c.accountId = a) && decide (c.repositoryId = q) && c.starred &&
        (decide (a ≠ account) || decide (q ∈ stagedIds runId db))) := by
    intro c
    rw [absentFrom_eq]
    by_cases hacc : c.accountId = a
    · by_cases hrepo : c.repositoryId = q
      · subst hacc hrepo
        by_cases hown : c.accountId = account <;>
          by_cases hstaged : c.repositoryId ∈ stagedIds runId db <;>
          cases hstar : c.starred <;> simp_all [CurrentStarState.unstar]
      · split <;> simp [CurrentStarState.unstar, hrepo]
    · split <;> simp [CurrentStarState.unstar, hacc]
  rw [any_updateWhere]
  simp only [hrow]
  cases decide (a ≠ account) || decide (q ∈ stagedIds runId db) with
  | true => simp only [Bool.and_true]
  | false => simp

/-- Promote the repositories a run staged. -/
def promoteStaged (runId : Uuid) (db : Database) (t : List Repository) : List Repository :=
  updateWhere (fun r => stagedIn runId r.providerRepositoryId db) Repository.promote t

theorem promoteSeenRepositories_spec {now : Time} {runId account : Uuid} {c c' : Catalog} {u : Unit}
    (h : promoteSeenRepositories now runId account c = .ok (u, c')) :
    c'.tables.repositories = promoteStaged runId c.tables c.tables.repositories ∧
      c'.tables.snapshotItems = c.tables.snapshotItems ∧
      ∀ a q, starredBy a q c'.tables =
        ((decide (a = account) && decide (q ∈ stagedIds runId c.tables)) ||
          starredBy a q c.tables) := by
  simp only [promoteSeenRepositories, Tx.bind_eq_ok, require_eq_ok, write_eq_ok] at h
  obtain ⟨-, _, ⟨-, rfl⟩, -, c₁, h₁, h₂⟩ := h
  have hstars : c'.tables.currentStarState = upsertAll CurrentStarState.key (promotedRow now)
      (promotedRows now runId account c.tables) c.tables.currentStarState := by
    rw [h₂, h₁]
    rfl
  refine ⟨?_, by rw [h₂, h₁]; rfl, ?_⟩
  · rw [h₂, h₁]
    rfl
  · intro a q
    have hrows : ∀ row ∈ promotedRows now runId account c.tables, row.starred = true := by
      intro row hrow
      obtain ⟨p, -, rfl⟩ := List.mem_map.mp hrow
      rfl
    have hkeys : (a, q) ∈ (promotedRows now runId account c.tables).map CurrentStarState.key ↔
        a = account ∧ q ∈ stagedIds runId c.tables := by
      simp only [promotedRows, stagedIds, List.map_map, List.mem_map, Function.comp,
        CurrentStarState.key, Prod.mk.injEq]
      constructor
      · rintro ⟨p, hp, rfl, rfl⟩
        exact ⟨rfl, p, hp, rfl⟩
      · rintro ⟨rfl, p, hp, rfl⟩
        exact ⟨p, hp, rfl, rfl⟩
    rw [starredBy, hstars, starredBy_upsertAll hrows, ← starredBy]
    congr 1
    rw [Bool.eq_iff_iff, decide_eq_true_eq, hkeys]
    simp

theorem unstarAbsentRepositories_spec {ids : ℕ → Uuid} {now : Time} {runId account : Uuid}
    {c c' : Catalog} {n : ℕ}
    (h : unstarAbsentRepositories ids now runId account c = .ok (n, c')) :
    (∃ absent : List Uuid,
      c'.tables.repositories = releaseAll absent c.tables.repositories ∧
      ∀ q, q ∈ absent ↔
        starredBy account q c.tables = true ∧ q ∉ stagedIds runId c.tables) ∧
      ∀ a q, starredBy a q c'.tables = (starredBy a q c.tables &&
        (decide (a ≠ account) || decide (q ∈ stagedIds runId c.tables))) := by
  simp only [unstarAbsentRepositories, Tx.bind_eq_ok, select_eq_ok, write_eq_ok,
    Tx.pure_eq_ok] at h
  obtain ⟨_, _, ⟨rfl, rfl⟩, -, c₁, h₁, ⟨⟩, c₂, hloop, -, rfl⟩ := h
  have hrepos := recordUnstars_repositories hloop
  have hframe : c₂.tables.currentStarState = c₁.tables.currentStarState :=
    (Touches.forM (fun p => touches_recordUnstar _ _ _ _ _) _).rows_eq hloop
      (t := .currentStarState) (by decide)
  refine ⟨⟨(c.tables.currentStarState.filter (·.absentFrom runId account c.tables)).map
    (·.repositoryId), ?_, ?_⟩, ?_⟩
  · rw [hrepos, List.zipIdx_map_fst, h₁]
    rfl
  · intro q
    simp only [List.mem_map, List.mem_filter, absentFrom_eq, Bool.and_eq_true, decide_eq_true_eq,
      Bool.not_eq_true', decide_eq_false_iff_not, starredBy, List.any_eq_true]
    constructor
    · rintro ⟨s, ⟨hs, ⟨hacc, hstar⟩, hstaged⟩, rfl⟩
      exact ⟨⟨s, hs, ⟨hacc, rfl⟩, hstar⟩, hstaged⟩
    · rintro ⟨⟨s, hs, ⟨hacc, rfl⟩, hstar⟩, hstaged⟩
      exact ⟨s, ⟨hs, ⟨hacc, hstar⟩, hstaged⟩, rfl⟩
  · intro a q
    rw [starredBy, hframe, h₁]
    exact starredBy_unstarAbsent c.tables.currentStarState a q

/-- The mode a completed snapshot leaves: a staged repository is promoted, one that the account
starred and the run did not stage is released. -/
def Repository.reconciled (staged starred : Bool) (r : Repository) : Repository :=
  if staged then r.promote else if starred then r.release else r

theorem Repository.reconciled_repositoryId (staged starred : Bool) (r : Repository) :
    (r.reconciled staged starred).repositoryId = r.repositoryId := by
  cases staged <;> cases starred <;> simp [reconciled]

/-- **A completed snapshot is the account's authority.**  The account stars exactly the staged
repositories, no other account's star moves, staged repositories are promoted and the account's
absent ones released. -/
theorem applyAuthority_spec {ids unstarIds : ℕ → Uuid} {now : Time} {runId account : Uuid}
    {c c' : Catalog} {counts : ℕ × ℕ × ℕ × ℕ}
    (h : applyAuthorityAndComplete ids unstarIds now runId account c = .ok (counts, c')) :
    c'.tables.repositories = (c.tables.repositories.map fun r =>
        r.reconciled (stagedIn runId r.providerRepositoryId c.tables)
          (starredBy account r.repositoryId c.tables)) ∧
      ∀ a q, starredBy a q c'.tables =
        if a = account then decide (q ∈ stagedIds runId c.tables) else starredBy a q c.tables := by
  simp only [applyAuthorityAndComplete, Tx.bind_eq_ok, select_eq_ok, Tx.pure_eq_ok] at h
  obtain ⟨_, _, ⟨rfl, rfl⟩, ⟨⟩, c₁, h₁, ⟨⟩, c₂, h₂, ⟨⟩, c₃, h₃, n, c₄, h₄, ⟨⟩, c₅, h₅, ⟨⟩, c₆, h₆,
    p, c₇, h₇, -, rfl⟩ := h
  -- The observations and repairs before, and the bookkeeping after, touch neither table.
  have hpre₁ : AgreeOff [.starObservations, .reconciliationRepairs] c.tables c₁.tables :=
    Touches.write (by decide) _ _ _ _ h₁
  have hpre₂ : AgreeOff [.starObservations, .reconciliationRepairs] c₁.tables c₂.tables :=
    Touches.write (by decide) _ _ _ _ h₂
  have hpre := IsTrans.trans _ _ _ hpre₁ hpre₂
  have hpost₁ : AgreeOff [.starWatermarks, .snapshotItems, .syncRuns] c₄.tables c₅.tables :=
    Touches.write (by decide) _ _ _ _ h₅
  have hpost₂ : AgreeOff [.starWatermarks, .snapshotItems, .syncRuns] c₅.tables c₆.tables :=
    Touches.write (by decide) _ _ _ _ h₆
  have hpost₃ : AgreeOff [.starWatermarks, .snapshotItems, .syncRuns] c₆.tables c₇.tables :=
    (touches_completeRunRow _ _ _ _).mono (by decide) _ _ _ h₇
  have hpost := IsTrans.trans _ _ _ (IsTrans.trans _ _ _ hpost₁ hpost₂) hpost₃
  have hitems : c₂.tables.snapshotItems = c.tables.snapshotItems := hpre .snapshotItems (by decide)
  have hrepos : c₂.tables.repositories = c.tables.repositories := hpre .repositories (by decide)
  have hstars : c₂.tables.currentStarState = c.tables.currentStarState :=
    hpre .currentStarState (by decide)
  obtain ⟨hpromoted, hitems₃, hstars₃⟩ := promoteSeenRepositories_spec h₃
  obtain ⟨⟨absent, hreleased, habsent⟩, hstars₄⟩ := unstarAbsentRepositories_spec h₄
  have hstaged₂ : stagedIds runId c₂.tables = stagedIds runId c.tables :=
    stagedIds_of_eq hitems hrepos
  have hstaged₃ : stagedIds runId c₃.tables = stagedIds runId c.tables := by
    rw [← hstaged₂]
    refine stagedIds_congr hitems₃ hpromoted ?_ ?_
    · intro r
      split
      · exact r.promote_repositoryId
      · rfl
    · intro r
      split
      · exact r.promote_providerRepositoryId
      · rfl
  have hpromote : promoteStaged runId c₂.tables = promoteStaged runId c.tables := by
    funext t
    simp only [promoteStaged, stagedIn, hitems]
  simp only [starredBy_of_eq hstars, hstaged₂] at hstars₃
  refine ⟨?_, ?_⟩
  · have hfinal : c₇.tables.repositories = c₄.tables.repositories := hpost .repositories (by decide)
    rw [hfinal, hreleased, hpromoted, hpromote, hrepos, releaseAll, promoteStaged, updateWhere,
      List.map_map]
    apply List.map_congr_left
    intro r hr
    have hmem : r.repositoryId ∈ absent ↔ starredBy account r.repositoryId c.tables = true ∧
        stagedIn runId r.providerRepositoryId c.tables = false := by
      rw [habsent, hstaged₃, hstars₃, ← Bool.not_eq_true, ← mem_stagedIds c.valid.keys hr]
      by_cases hs : r.repositoryId ∈ stagedIds runId c.tables
      · simp [hs]
      · simp [hs]
    simp only [Function.comp, Repository.reconciled]
    cases hs : stagedIn runId r.providerRepositoryId c.tables <;>
      cases ha : starredBy account r.repositoryId c.tables <;> simp_all
  · intro a q
    have hfinal : c₇.tables.currentStarState = c₄.tables.currentStarState :=
      hpost .currentStarState (by decide)
    rw [starredBy_of_eq hfinal, hstars₄, hstars₃, hstaged₃]
    by_cases ha : a = account
    · by_cases hq : q ∈ stagedIds runId c.tables <;> simp [ha, hq]
    · simp [ha]

end GithubCatalog
