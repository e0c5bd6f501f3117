import GithubCatalog.ListExactness
import GithubCatalog.SnapshotProgress

/-!
# What a completed star snapshot establishes

Over a listing that stands still, with pauses, crashes and resumed attempts anywhere: when an attempt
reports a completed run, the listing was staged once, and the tables are a function of the listing and
of what stood before the run.

* `StarsExact` - stars, evidence, repairs, counts, modes and watermark after the run;
* `starsExact_of_swap` - the swap of a staged listing establishes them;
* `StarsFollowing` - what is known of the only open run; `starSnapshot_exact` - whole histories.
-/

namespace GithubCatalog

open Relational Runs Transact

/-! ### The function of state and listing -/

/-- The provider ids of the repositories an account stars. -/
def starredIds (accountId : Uuid) (db : Database) : List ℤ :=
  (db.repositories.filter fun r => starredBy accountId r.repositoryId db).map
    (·.providerRepositoryId)

/-- Whether an account holds a repository as unstarred. -/
def heldUnstarred (accountId repositoryId : Uuid) (db : Database) : Bool :=
  db.currentStarState.any fun c => decide (c.accountId = accountId) &&
    decide (c.repositoryId = repositoryId) && !c.starred

/-- The starred-at an account has established for a repository. -/
def establishedAt (accountId repositoryId : Uuid) (db : Database) : Option Time :=
  (db.currentStarState.find? fun c => decide (c.key = (accountId, repositoryId))).bind (·.starredAt)

/-- The mode of a repository that was listed or not, and starred before or not. -/
def settledMode (listed starred : Bool) : Option RepositoryMode → Option RepositoryMode
  | none => if listed then some .auto else none
  | some .auto => if starred && !listed then none else some .auto
  | some mode => some mode

/-- The timestamps of a listing. -/
def listedTimes (k : Contracts) (listing : List StarredItem) : List Time :=
  listing.filterMap fun item => item.starredAt.bind k.timestamp

/-- The observations that are new in a database. -/
def newStarObservations (db db' : Database) : List StarObservation :=
  db'.starObservations.drop db.starObservations.length

/-- The repositories the account starred and the listing lacks. -/
def StarGone (accountId : Uuid) (listing : List StarredItem) (prior : Database) (r : Repository) :
    Prop :=
  starredBy accountId r.repositoryId prior = true ∧ r.providerRepositoryId ∉ listedIds listing

/-- The listed repositories the account held as unstarred. -/
def StarMissed (accountId : Uuid) (listing : List StarredItem) (prior : Database) (r : Repository) :
    Prop :=
  heldUnstarred accountId r.repositoryId prior = true ∧ r.providerRepositoryId ∈ listedIds listing

instance (accountId : Uuid) (listing : List StarredItem) (prior : Database) (r : Repository) :
    Decidable (StarGone accountId listing prior r) := inferInstanceAs (Decidable (_ ∧ _))

instance (accountId : Uuid) (listing : List StarredItem) (prior : Database) (r : Repository) :
    Decidable (StarMissed accountId listing prior r) := inferInstanceAs (Decidable (_ ∧ _))

/-- **The reference function of a full snapshot**: the database after a completed run, by the listing
and the database before the run. -/
structure StarsExact (k : Contracts) (accountId runId : Uuid) (listing : List StarredItem)
    (prior db : Database) (summary : Summary) : Prop where
  starred : ∀ pid, pid ∈ starredIds accountId db ↔ pid ∈ listedIds listing
  dated : ∀ item ∈ listing, ∃ r ∈ db.repositories,
    r.providerRepositoryId = item.repo.providerRepositoryId ∧ ∃ s ∈ db.currentStarState,
      s.key = (accountId, r.repositoryId) ∧ s.starred = true ∧
        s.starredAt = (establishedAt accountId r.repositoryId prior).or
          (item.starredAt.bind k.timestamp)
  unstarred : ∀ r ∈ db.repositories, StarGone accountId listing prior r →
    ∃ s ∈ db.currentStarState, s.key = (accountId, r.repositoryId) ∧ s.starred = false ∧
      s.observedUnstarredAt.isSome = true ∧ s.starredAt = none
  observed : ∀ r ∈ db.repositories, ((newStarObservations prior db).countP fun o =>
      decide (o.accountId = accountId) && decide (o.repositoryId = r.repositoryId) && !o.starred) =
    if StarGone accountId listing prior r then 1 else 0
  drifted : ∀ r ∈ db.repositories,
    db.reconciliationRepairs.count ⟨runId, r.repositoryId, .unstarAfterDrift⟩ =
      if StarGone accountId listing prior r then 1 else 0
  restored : ∀ r ∈ db.repositories,
    db.reconciliationRepairs.count ⟨runId, r.repositoryId, .restoreAfterMiss⟩ =
      if StarMissed accountId listing prior r then 1 else 0
  items : summary.itemsObserved = listing.length
  additions : summary.additions =
    ((listedIds listing).toFinset \ (starredIds accountId prior).toFinset).card
  removals : summary.removals =
    ((starredIds accountId prior).toFinset \ (listedIds listing).toFinset).card
  row : ∃ run ∈ db.syncRuns, run.syncRunId = runId ∧ run.status = .completed ∧
    run.itemsObserved = summary.itemsObserved ∧ run.additions = summary.additions ∧
    run.unstars = clampInteger summary.removals
  modes : ∀ r ∈ prior.repositories, { r with
    mode := settledMode (decide (r.providerRepositoryId ∈ listedIds listing))
      (starredBy accountId r.repositoryId prior) r.mode } ∈ db.repositories
  catalogued : ∀ r ∈ db.repositories,
    r.repositoryId ∉ prior.repositories.map Repository.repositoryId →
      r.providerRepositoryId ∈ listedIds listing ∧ r.mode = some .auto
  watermark : readWatermark accountId db =
    ((readWatermark accountId prior).toList ++ listedTimes k listing).max?
  cleared : stagedOf runId db = []

/-! ### Before the swap -/

/-- The listing is staged, and the catalog has only grown since the run began. -/
structure StagedWhole (k : Contracts) (runId : Uuid) (listing : List StarredItem)
    (prior db : Database) : Prop where
  grown : Grown listing prior db
  staged : stagedOf runId db = stagedListing k runId listing
  catalogued : ∀ item ∈ listing,
    ∃ q ∈ db.repositories, q.providerRepositoryId = item.repo.providerRepositoryId
  row : ∃ run ∈ db.syncRuns, run.syncRunId = runId ∧ run.itemsObserved = listing.length

theorem stagedListing_providers (k : Contracts) (runId : Uuid) (listing : List StarredItem) :
    (stagedListing k runId listing).map (·.providerRepositoryId) = listedIds listing := by
  rw [stagedListing, List.map_map, listedIds]
  conv_rhs => rw [← List.zipIdx_map_fst 0 listing, List.map_map]
  rfl

theorem repositoryOf_eq_some {pid : ℤ} {db : Database} (hkeys : Keys db) {r : Repository}
    (hr : r ∈ db.repositories) (hpid : r.providerRepositoryId = pid) :
    repositoryOf pid db = some r := by
  rw [← hpid]
  exact hkeys.repositories_provider.find?_eq hr

section staged

variable {k : Contracts} {accountId runId : Uuid} {listing : List StarredItem} {prior db : Database}
  {r : Repository}

/-- The staged repositories, by provider id, are the listing. -/
theorem StagedWhole.providers (h : StagedWhole k runId listing prior db) (hkeys : Keys db) :
    (stagedRepositories runId db).map (·.1.providerRepositoryId) = listedIds listing := by
  have hfound : ∀ i ∈ stagedOf runId db, ∃ r, repositoryOf i.providerRepositoryId db = some r ∧
      r.providerRepositoryId = i.providerRepositoryId := by
    intro i hi
    have hlisted : i.providerRepositoryId ∈ listedIds listing := by
      rw [← stagedListing_providers k runId, ← h.staged]
      exact List.mem_map.mpr ⟨i, hi, rfl⟩
    obtain ⟨item, hitem, hsame⟩ := List.mem_map.mp hlisted
    obtain ⟨r, hr, hpid⟩ := h.catalogued item hitem
    exact ⟨r, repositoryOf_eq_some hkeys hr (hpid.trans hsame), hpid.trans hsame⟩
  rw [← stagedListing_providers k runId, ← h.staged, stagedRepositories, ← stagedOf]
  generalize stagedOf runId db = staged at hfound ⊢
  induction staged with
  | nil => rfl
  | cons i rest ih =>
    obtain ⟨r, hr, hpid⟩ := hfound i List.mem_cons_self
    rw [List.filterMap_cons, hr, Option.map_some, List.map_cons, List.map_cons,
      ih fun j hj => hfound j (List.mem_cons_of_mem _ hj), hpid]

theorem StagedWhole.stagedIn_eq (h : StagedWhole k runId listing prior db) (pid : ℤ) :
    stagedIn runId pid db = decide (pid ∈ listedIds listing) := by
  rw [GithubCatalog.stagedIn_eq, h.staged, ← stagedListing_providers k runId, Bool.eq_iff_iff,
    List.any_eq_true, decide_eq_true_eq, List.mem_map]
  simp only [decide_eq_true_eq]

theorem StagedWhole.mem_stagedIds (h : StagedWhole k runId listing prior db) (hkeys : Keys db)
    (hr : r ∈ db.repositories) :
    r.repositoryId ∈ stagedIds runId db ↔ r.providerRepositoryId ∈ listedIds listing := by
  rw [GithubCatalog.mem_stagedIds hkeys hr, h.stagedIn_eq, decide_eq_true_eq]

theorem StagedWhole.starredBy_eq (h : StagedWhole k runId listing prior db) (q : Uuid) :
    starredBy accountId q db = starredBy accountId q prior :=
  starredBy_of_eq h.grown.stars

/-- A staged repository is catalogued. -/
theorem mem_repositories_of_staged {p : Repository × SnapshotItem}
    (hp : p ∈ stagedRepositories runId db) : p.1 ∈ db.repositories := by
  obtain ⟨i, -, hfound⟩ := List.mem_filterMap.mp hp
  obtain ⟨r, hr, rfl⟩ := Option.map_eq_some_iff.mp hfound
  exact List.mem_of_find?_eq_some hr

/-- No repository is staged twice. -/
theorem StagedWhole.stagedIds_nodup (h : StagedWhole k runId listing prior db) (hkeys : Keys db)
    (hdistinct : (listedIds listing).Nodup) : (stagedIds runId db).Nodup := by
  rw [← h.providers hkeys] at hdistinct
  refine (List.Nodup.of_map _ hdistinct).map_on ?_
  intro p hp q hq hid
  have hsame : p.1 = q.1 := hkeys.repositories.eq_of_mem (mem_repositories_of_staged hp)
    (mem_repositories_of_staged hq) hid
  exact List.inj_on_of_nodup_map hdistinct hp hq (congrArg (·.providerRepositoryId) hsame)

/-- The stars before the run, seen from the catalog before the swap. -/
theorem StagedWhole.mem_starredIds (h : StagedWhole k runId listing prior db) (hkeys : Keys db)
    (hprior : Constraints prior) (hr : r ∈ db.repositories) :
    r.providerRepositoryId ∈ starredIds accountId prior ↔
      starredBy accountId r.repositoryId prior = true := by
  rw [starredIds, List.mem_map]
  constructor
  · rintro ⟨q, hq, hpid⟩
    obtain ⟨hmem, hstarred⟩ := List.mem_filter.mp hq
    have hsame : q = r :=
      hkeys.repositories_provider.eq_of_mem (h.grown.mem_repositories hmem) hr hpid
    exact hsame ▸ hstarred
  · intro hstarred
    obtain ⟨q, hq, hid⟩ := List.mem_map.mp (mem_of_starredBy hprior.foreignKeys hstarred)
    have hsame : q = r := hkeys.repositories.eq_of_mem (h.grown.mem_repositories hq) hr hid
    exact ⟨q, List.mem_filter.mpr ⟨hq, hsame ▸ hstarred⟩, congrArg _ hsame⟩

end staged

/-! ### What the swap takes for gone, missed and new -/

section differences

variable {k : Contracts} {accountId runId : Uuid} {listing : List StarredItem} {prior db : Database}
  {r : Repository}

theorem StagedWhole.mem_absent (h : StagedWhole k runId listing prior db) (hkeys : Keys db)
    (hr : r ∈ db.repositories) :
    r.repositoryId ∈ absentRepositories runId accountId db ↔ StarGone accountId listing prior r := by
  rw [mem_absentRepositories, h.starredBy_eq, h.mem_stagedIds hkeys hr, StarGone]

theorem StagedWhole.mem_missed (h : StagedWhole k runId listing prior db) (hkeys : Keys db)
    (hr : r ∈ db.repositories) :
    r.repositoryId ∈ missedRepositories runId accountId db ↔
      StarMissed accountId listing prior r := by
  have hheld : ∀ q, heldUnstarred accountId q db = heldUnstarred accountId q prior := by
    intro q
    rw [heldUnstarred, heldUnstarred, h.grown.stars]
  rw [StarMissed, ← h.mem_stagedIds hkeys hr, ← hheld, missedRepositories, stagedIds, List.mem_map,
    List.mem_map]
  constructor
  · rintro ⟨p, hp, hid⟩
    obtain ⟨hmem, htest⟩ := List.mem_filter.mp hp
    exact ⟨hid ▸ htest, p, hmem, hid⟩
  · rintro ⟨htest, p, hp, hid⟩
    exact ⟨p, List.mem_filter.mpr ⟨hp, by rw [← hid] at htest; exact htest⟩, hid⟩

/-- The additions are the listed repositories that were not starred. -/
theorem StagedWhole.additions (h : StagedWhole k runId listing prior db) (hkeys : Keys db)
    (hprior : Constraints prior) (hdistinct : (listedIds listing).Nodup) :
    countAdditions runId accountId db =
      ((listedIds listing).toFinset \ (starredIds accountId prior).toFinset).card := by
  have hproviders := h.providers hkeys
  have hsub : (((stagedRepositories runId db).filter fun p =>
      !starredBy accountId p.1.repositoryId db).map (·.1.providerRepositoryId)).Nodup := by
    refine List.Nodup.sublist (List.Sublist.map _ List.filter_sublist) ?_
    rw [hproviders]
    exact hdistinct
  rw [countAdditions, ← List.length_map (·.1.providerRepositoryId), ← List.toFinset_card_of_nodup hsub]
  congr 1
  ext pid
  rw [List.mem_toFinset, Finset.mem_sdiff, List.mem_toFinset, List.mem_toFinset, List.mem_map,
    ← hproviders, List.mem_map]
  constructor
  · rintro ⟨p, hp, rfl⟩
    obtain ⟨hmem, hnew⟩ := List.mem_filter.mp hp
    refine ⟨⟨p, hmem, rfl⟩, fun hstarred => ?_⟩
    rw [h.mem_starredIds hkeys hprior (mem_repositories_of_staged hmem)] at hstarred
    rw [h.starredBy_eq, hstarred] at hnew
    cases hnew
  · rintro ⟨⟨p, hp, rfl⟩, hnot⟩
    refine ⟨p, List.mem_filter.mpr ⟨hp, ?_⟩, rfl⟩
    rw [h.mem_starredIds hkeys hprior (mem_repositories_of_staged hp)] at hnot
    rw [h.starredBy_eq, Bool.eq_false_iff.mpr hnot]
    rfl

/-- The removals are the starred repositories that were not listed. -/
theorem StagedWhole.removals (h : StagedWhole k runId listing prior db) (hkeys : Keys db)
    (hprior : Constraints prior) :
    (absentRepositories runId accountId db).length =
      ((starredIds accountId prior).toFinset \ (listedIds listing).toFinset).card := by
  have hnodup : ((db.repositories.filter fun r => decide (StarGone accountId listing prior r)).map
      (·.providerRepositoryId)).Nodup :=
    List.Nodup.sublist (List.Sublist.map _ List.filter_sublist) hkeys.repositories_provider
  have hids : ((db.repositories.filter fun r => decide (StarGone accountId listing prior r)).map
      (·.repositoryId)).Nodup :=
    List.Nodup.sublist (List.Sublist.map _ List.filter_sublist) hkeys.repositories
  have hperm : (absentRepositories runId accountId db).Perm
      ((db.repositories.filter fun r => decide (StarGone accountId listing prior r)).map
        (·.repositoryId)) := by
    refine (List.perm_ext_iff_of_nodup (absentRepositories_nodup hkeys) hids).mpr fun q => ?_
    rw [List.mem_map]
    constructor
    · intro hq
      have hstarred : starredBy accountId q prior = true := by
        rw [← h.starredBy_eq]
        exact (mem_absentRepositories.mp hq).1
      obtain ⟨r, hr, rfl⟩ := List.mem_map.mp (mem_of_starredBy hprior.foreignKeys hstarred)
      have hmem := h.grown.mem_repositories hr
      exact ⟨r, List.mem_filter.mpr ⟨hmem, decide_eq_true ((h.mem_absent hkeys hmem).mp hq)⟩, rfl⟩
    · rintro ⟨r, hr, rfl⟩
      obtain ⟨hmem, hgone⟩ := List.mem_filter.mp hr
      exact (h.mem_absent hkeys hmem).mpr (of_decide_eq_true hgone)
  rw [hperm.length_eq, List.length_map, ← List.length_map (·.providerRepositoryId),
    ← List.toFinset_card_of_nodup hnodup]
  congr 1
  ext pid
  rw [List.mem_toFinset, Finset.mem_sdiff, List.mem_toFinset, List.mem_toFinset, List.mem_map]
  constructor
  · rintro ⟨r, hr, rfl⟩
    obtain ⟨hmem, hgone⟩ := List.mem_filter.mp hr
    obtain ⟨hstarred, hfar⟩ := of_decide_eq_true hgone
    exact ⟨(h.mem_starredIds hkeys hprior hmem).mpr hstarred, hfar⟩
  · rintro ⟨hstarred, hfar⟩
    obtain ⟨r, hr, rfl⟩ := List.mem_map.mp hstarred
    obtain ⟨hmem, hstar⟩ := List.mem_filter.mp hr
    exact ⟨r, List.mem_filter.mpr
      ⟨h.grown.mem_repositories hmem, decide_eq_true ⟨hstar, hfar⟩⟩, rfl⟩

end differences

/-! ### What the swap leaves -/

section swap

variable {ids unstarIds : ℕ → Uuid} {now : Time} {runId accountId : Uuid} {db db' : Database}
  {counts : ℕ × ℕ × ℕ × ℕ} {q : Uuid}

/-- A staged repository is starred, at the time established before or else the staged one. -/
theorem Swapping.promoted (h : Swapping ids unstarIds now runId accountId db db' counts)
    (hnodup : (stagedIds runId db).Nodup) {p : Repository × SnapshotItem}
    (hp : p ∈ stagedRepositories runId db) :
    ∃ s ∈ db'.currentStarState, s.key = (accountId, p.1.repositoryId) ∧ s.starred = true ∧
      s.starredAt = (establishedAt accountId p.1.repositoryId db).or p.2.providerStarredAt := by
  have hkeys : ((promotedRows now runId accountId db).map CurrentStarState.key).Nodup := by
    rw [promotedRows_keys]
    exact hnodup.map fun _ _ heq => (Prod.mk.inj heq).2
  have hrow : (⟨accountId, p.1.repositoryId, true, p.2.providerStarredAt, false, now, none,
      some runId⟩ : CurrentStarState) ∈ promotedRows now runId accountId db :=
    List.mem_map.mpr ⟨p, hp, rfl⟩
  have hupserted := fun s => @mem_upsertAll _ _ _ CurrentStarState.key (promotedRow now)
    (fun _ _ => rfl) _ hkeys s db.currentStarState
  have hstays : ∀ s ∈ upsertAll CurrentStarState.key (promotedRow now)
      (promotedRows now runId accountId db) db.currentStarState,
      s.key = (accountId, p.1.repositoryId) → s ∈ db'.currentStarState := by
    intro s hs hkey
    rw [h.stars]
    refine mem_updateWhere.mpr ⟨s, hs, if_neg ?_⟩
    have hstaged : s.repositoryId ∈ stagedIds runId db :=
      List.mem_map.mpr ⟨p, hp, (Prod.mk.inj hkey).2.symm⟩
    rw [absentFrom_eq, decide_eq_true hstaged]
    simp
  cases hfound : db.currentStarState.find? fun c =>
      decide (c.key = (accountId, p.1.repositoryId)) with
  | some old =>
    have hkey : old.key = (accountId, p.1.repositoryId) := by simpa using List.find?_some hfound
    have hmem := (hupserted _).mpr
      (.inr ⟨_, hrow, .inl ⟨old, List.mem_of_find?_eq_some hfound, hkey, rfl⟩⟩)
    refine ⟨_, hstays _ hmem hkey, hkey, rfl, ?_⟩
    rw [establishedAt, hfound]
    rfl
  | none =>
    have hnew : (accountId, p.1.repositoryId) ∉ db.currentStarState.map CurrentStarState.key := by
      intro hold
      obtain ⟨s, hs, hkey⟩ := List.mem_map.mp hold
      exact List.find?_eq_none.mp hfound s hs (decide_eq_true hkey)
    have hmem := (hupserted _).mpr (.inr ⟨_, hrow, .inr ⟨hnew, rfl⟩⟩)
    refine ⟨_, hstays _ hmem rfl, rfl, rfl, ?_⟩
    rw [establishedAt, hfound]
    rfl

/-- A starred repository that is not staged is unstarred, with evidence. -/
theorem Swapping.unstarred (h : Swapping ids unstarIds now runId accountId db db' counts)
    (hnodup : (stagedIds runId db).Nodup) (hq : q ∈ absentRepositories runId accountId db) :
    ∃ s ∈ db'.currentStarState, s.key = (accountId, q) ∧ s.starred = false ∧
      s.observedUnstarredAt.isSome = true ∧ s.starredAt = none := by
  have hkeys : ((promotedRows now runId accountId db).map CurrentStarState.key).Nodup := by
    rw [promotedRows_keys]
    exact hnodup.map fun _ _ heq => (Prod.mk.inj heq).2
  obtain ⟨s, hs, rfl⟩ := List.mem_map.mp hq
  obtain ⟨hmem, habsent⟩ := List.mem_filter.mp hs
  have hfacts := habsent
  rw [absentFrom_eq] at hfacts
  simp only [Bool.and_eq_true, decide_eq_true_eq, Bool.not_eq_true', decide_eq_false_iff_not] at hfacts
  obtain ⟨⟨haccount, -⟩, hfar⟩ := hfacts
  have hkept : s ∈ upsertAll CurrentStarState.key (promotedRow now)
      (promotedRows now runId accountId db) db.currentStarState := by
    refine (@mem_upsertAll _ _ _ CurrentStarState.key (promotedRow now) (fun _ _ => rfl) _ hkeys s
      db.currentStarState).mpr (.inl ⟨hmem, fun hkey => hfar ?_⟩)
    rw [promotedRows_keys] at hkey
    obtain ⟨q, hq, heq⟩ := List.mem_map.mp hkey
    exact (Prod.mk.inj heq).2 ▸ hq
  refine ⟨s.unstar now runId, ?_, ?_, rfl, rfl, rfl⟩
  · rw [h.stars]
    exact mem_updateWhere.mpr ⟨s, hkept, if_pos habsent⟩
  · rw [← haccount]
    rfl

/-- An absent repository gets one false observation, and no other does. -/
theorem Swapping.observed (h : Swapping ids unstarIds now runId accountId db db' counts)
    (hkeys : Keys db) (q : Uuid) : ((newStarObservations db db').countP fun o =>
      decide (o.accountId = accountId) && decide (o.repositoryId = q) && !o.starred) =
        if q ∈ absentRepositories runId accountId db then 1 else 0 := by
  have hnew : newStarObservations db db' = seenObservations ids now runId accountId db ++
      goneObservations unstarIds now accountId (absentRepositories runId accountId db) := by
    rw [newStarObservations, h.observations, List.append_assoc, List.drop_left]
  have hseen : (seenObservations ids now runId accountId db).countP (fun o =>
      decide (o.accountId = accountId) && decide (o.repositoryId = q) && !o.starred) = 0 := by
    rw [List.countP_eq_zero]
    intro o ho
    obtain ⟨p, -, rfl⟩ := List.mem_map.mp ho
    simp
  have hgone : (goneObservations unstarIds now accountId (absentRepositories runId accountId db)).countP
      (fun o => decide (o.accountId = accountId) && decide (o.repositoryId = q) && !o.starred) =
        (absentRepositories runId accountId db).count q := by
    rw [goneObservations, List.countP_map, List.count]
    conv_rhs => rw [← List.zipIdx_map_fst 0 (absentRepositories runId accountId db), List.countP_map]
    apply List.countP_congr
    intro p _
    simp
  rw [hnew, List.countP_append, hseen, hgone, Nat.zero_add]
  exact List.Nodup.count (absentRepositories_nodup hkeys)

/-- The repairs of a run that had none: one for an absent repository, one for a missed one. -/
theorem Swapping.repaired (h : Swapping ids unstarIds now runId accountId db db' counts)
    (hkeys : Keys db) (hnodup : (stagedIds runId db).Nodup)
    (hfresh : ∀ r ∈ db.reconciliationRepairs, r.syncRunId ≠ runId) (q : Uuid) :
    db'.reconciliationRepairs.count ⟨runId, q, .unstarAfterDrift⟩ =
        (if q ∈ absentRepositories runId accountId db then 1 else 0) ∧
      db'.reconciliationRepairs.count ⟨runId, q, .restoreAfterMiss⟩ =
        if q ∈ missedRepositories runId accountId db then 1 else 0 := by
  have hnone : ∀ action, db.reconciliationRepairs.count ⟨runId, q, action⟩ = 0 := fun action =>
    List.count_eq_zero.mpr fun hmem => hfresh _ hmem rfl
  have hother : ∀ (l : List Uuid) {a b : RepairAction}, a ≠ b →
      (l.map (⟨runId, ·, a⟩ : Uuid → ReconciliationRepair)).count ⟨runId, q, b⟩ = 0 := by
    intro l a b hne
    refine List.count_eq_zero.mpr fun hmem => ?_
    obtain ⟨x, -, heq⟩ := List.mem_map.mp hmem
    exact hne (congrArg ReconciliationRepair.action heq)
  have hown : ∀ (l : List Uuid) (a : RepairAction), l.Nodup →
      (l.map (⟨runId, ·, a⟩ : Uuid → ReconciliationRepair)).count ⟨runId, q, a⟩ =
        if q ∈ l then 1 else 0 := by
    intro l a hl
    rw [List.count_map_of_injective _ (⟨runId, ·, a⟩ : Uuid → ReconciliationRepair)
      fun x y heq => congrArg ReconciliationRepair.repositoryId heq]
    exact hl.count
  have hmissed : (missedRepositories runId accountId db).Nodup :=
    hnodup.sublist (List.Sublist.map _ List.filter_sublist)
  rw [h.repairs]
  simp only [List.count_append, hnone, Nat.zero_add]
  constructor
  · rw [hother _ (by decide), hown _ _ (absentRepositories_nodup hkeys), Nat.zero_add]
  · rw [hown _ _ hmissed, hother _ (by decide), Nat.add_zero]

end swap

/-- The mode a swap leaves. -/
theorem reconciled_mode (staged starred : Bool) (r : Repository) :
    r.reconciled staged starred = { r with mode := settledMode staged starred r.mode } := by
  obtain ⟨id, pid, mode⟩ := r
  rcases mode with _ | _ | _ | _ <;> cases staged <;> cases starred <;> rfl

/-! ### The watermark and the staging -/

/-- The newest of some times. -/
theorem newest_eq_max? (times : List Time) :
    times.foldl (fun best t => some (best.elim t (max t))) none = times.max? := by
  have hfrom : ∀ (l : List Time) (t : Time),
      l.foldl (fun best t => some (best.elim t (max t))) (some t) = some (l.foldl max t) := by
    intro l
    induction l with
    | nil => exact fun t => rfl
    | cons u l ih =>
      intro t
      rw [List.foldl_cons, List.foldl_cons, Option.elim_some, ih, Nat.max_comm]
  cases times with
  | nil => rfl
  | cons t l =>
    rw [List.foldl_cons, Option.elim_none, hfrom, List.max?_cons']

/-- The watermark after it was raised. -/
theorem readWatermark_raised {accountId : Uuid} {mark : Time} {db db' : Database}
    (h : db'.starWatermarks = raiseWatermark accountId mark db.starWatermarks) :
    readWatermark accountId db' = some ((readWatermark accountId db).elim mark (max · mark)) := by
  rw [readWatermark, h, raiseWatermark,
    find?_upsertWhere_self (by intro _ ha; exact ha) (by simp), readWatermark, Option.map_some]
  cases db.starWatermarks.find? fun w => decide (w.accountId = accountId) <;> rfl

/-- The last statements of a swap: the watermark moves to the newest staged time, never back, and the
staging is cleared. -/
theorem applyAuthority_watermark {ids unstarIds : ℕ → Uuid} {now : Time} {runId accountId : Uuid}
    {c c' : Catalog} {counts : ℕ × ℕ × ℕ × ℕ}
    (h : applyAuthorityAndComplete ids unstarIds now runId accountId c = .ok (counts, c')) :
    readWatermark accountId c'.tables = ((readWatermark accountId c.tables).toList ++
        (stagedOf runId c.tables).filterMap (·.providerStarredAt)).max? ∧
      stagedOf runId c'.tables = [] := by
  simp only [applyAuthorityAndComplete, Tx.bind_eq_ok, select_eq_ok, Tx.pure_eq_ok] at h
  obtain ⟨_, _, ⟨-, rfl⟩, ⟨⟩, c₁, h₁, ⟨⟩, c₂, h₂, ⟨⟩, c₃, h₃, n, c₄, h₄, ⟨⟩, c₅, h₅, ⟨⟩, c₆, h₆,
    pair, c₇, h₇, -, rfl⟩ := h
  have hstars : Touches [.starObservations, .reconciliationRepairs, .currentStarState, .repositories]
      (recordStarObservations ids now runId accountId >>= fun _ =>
        recordRestoreRepairs runId accountId >>= fun _ =>
        promoteSeenRepositories now runId accountId >>= fun _ =>
        unstarAbsentRepositories unstarIds now runId accountId) :=
    (Touches.write (by decide) _).bind fun _ => (Touches.write (by decide) _).bind fun _ =>
      ((touches_promoteSeenRepositories _ _ _).mono (by decide)).bind fun _ =>
        (touches_unstarAbsentRepositories _ _ _ _).mono (by decide)
  have hpre := hstars c n c₄ (by
    simp only [Tx.bind_eq_ok]
    exact ⟨_, _, h₁, _, _, h₂, _, _, h₃, h₄⟩)
  have hpost : AgreeOff [.syncRuns] c₆.tables c₇.tables :=
    touches_completeRunRow _ _ _ _ _ _ _ h₇
  have hitems : c₄.tables.snapshotItems = c.tables.snapshotItems := hpre .snapshotItems (by decide)
  have hmarks : c₄.tables.starWatermarks = c.tables.starWatermarks :=
    hpre .starWatermarks (by decide)
  have hnewest : newestStaged runId c₄.tables =
      ((stagedOf runId c.tables).filterMap (·.providerStarredAt)).max? := by
    rw [newestStaged, hitems, newest_eq_max?, ← stagedOf]
  constructor
  · have hfinal : c₇.tables.starWatermarks = c₅.tables.starWatermarks := by
      have h₆' : c₆.tables.starWatermarks = c₅.tables.starWatermarks := by
        rw [write_eq_ok.mp h₆]
        rfl
      exact (hpost .starWatermarks (by decide)).trans h₆'
    have hread : readWatermark accountId c₇.tables = readWatermark accountId c₅.tables := by
      rw [readWatermark, readWatermark, hfinal]
    have hbefore : readWatermark accountId c₄.tables = readWatermark accountId c.tables := by
      rw [readWatermark, readWatermark, hmarks]
    rw [hread, ← hbefore]
    have hwrite := congrArg Database.starWatermarks (write_eq_ok.mp h₅)
    cases htimes : ((stagedOf runId c.tables).filterMap (·.providerStarredAt)).max? with
    | none =>
      have hkept : c₅.tables.starWatermarks = c₄.tables.starWatermarks := by
        refine hwrite.trans ?_
        simp only [hnewest, htimes]
        rfl
      rw [List.max?_eq_none_iff.mp htimes, List.append_nil, readWatermark, hkept, ← readWatermark]
      cases readWatermark accountId c₄.tables <;> rfl
    | some newest =>
      have hraised : c₅.tables.starWatermarks =
          raiseWatermark accountId newest c₄.tables.starWatermarks := by
        refine hwrite.trans ?_
        simp only [hnewest, htimes]
        rfl
      rw [readWatermark_raised hraised]
      cases readWatermark accountId c₄.tables with
      | none => exact htimes.symm
      | some mark =>
        rw [Option.toList_some, List.singleton_append, List.max?_cons, htimes]
        rfl
  · have hitems₇ : c₇.tables.snapshotItems = c₆.tables.snapshotItems :=
      hpost .snapshotItems (by decide)
    have hcleared : c₆.tables.snapshotItems =
        deleteWhere (fun i => decide (i.syncRunId = runId)) c₅.tables.snapshotItems := by
      rw [write_eq_ok.mp h₆]
      rfl
    rw [stagedOf, hitems₇, hcleared, List.filter_eq_nil_iff]
    intro i hi hown
    rw [(mem_deleteWhere.mp hi).2] at hown
    cases hown

/-! ### The swap of a staged listing -/

section exact

variable {k : Contracts} {accountId runId : Uuid} {listing : List StarredItem} {prior : Database}
  {c c' : Catalog}

theorem stagedListing_times (k : Contracts) (runId : Uuid) (listing : List StarredItem) :
    (stagedListing k runId listing).filterMap (·.providerStarredAt) = listedTimes k listing := by
  rw [stagedListing, List.filterMap_map, listedTimes]
  conv_rhs => rw [← List.zipIdx_map_fst 0 listing, List.filterMap_map]
  rfl

/-- The staged row of a listed item. -/
theorem StagedWhole.staged_item {db : Database} (h : StagedWhole k runId listing prior db)
    (hkeys : Keys db) {item : StarredItem} (hitem : item ∈ listing) :
    ∃ p ∈ stagedRepositories runId db,
      p.1.providerRepositoryId = item.repo.providerRepositoryId ∧
        p.2.providerStarredAt = item.starredAt.bind k.timestamp := by
  obtain ⟨n, hn⟩ := List.getElem?_of_mem hitem
  obtain ⟨r, hr, hpid⟩ := h.catalogued item hitem
  have hrow : item.stagedAs k runId n ∈ stagedOf runId db := by
    rw [h.staged]
    exact List.mem_map.mpr ⟨(item, n), List.mk_mem_zipIdx_iff_getElem?.mpr hn, rfl⟩
  refine ⟨(r, item.stagedAs k runId n), List.mem_filterMap.mpr ⟨_, hrow, ?_⟩, hpid, rfl⟩
  show (repositoryOf item.repo.providerRepositoryId db).map _ = _
  rw [repositoryOf_eq_some hkeys hr hpid]
  rfl

/-- **The swap of a staged listing.** -/
theorem starsExact_of_swap {ids unstarIds : ℕ → Uuid} {now : Time} {counts : ℕ × ℕ × ℕ × ℕ}
    (hprior : Constraints prior) (hwhole : StagedWhole k runId listing prior c.tables)
    (hdistinct : (listedIds listing).Nodup)
    (hfresh : ∀ r ∈ prior.reconciliationRepairs, r.syncRunId ≠ runId)
    (h : applyAuthorityAndComplete ids unstarIds now runId accountId c = .ok (counts, c')) :
    StarsExact k accountId runId listing prior c'.tables (summaryOf counts) := by
  have hkeys := c.valid.keys
  have hnodup := hwhole.stagedIds_nodup hkeys hdistinct
  have hnone : ∀ r ∈ c.tables.reconciliationRepairs, r.syncRunId ≠ runId := by
    rw [hwhole.grown.repairs]
    exact hfresh
  have hswap := applyAuthority_swapping h hnone
  obtain ⟨hrepos, hstars⟩ := applyAuthority_spec h
  obtain ⟨hmark, hcleared⟩ := applyAuthority_watermark h
  have hmodes : c'.tables.repositories = c.tables.repositories.map fun r => { r with
      mode := settledMode (decide (r.providerRepositoryId ∈ listedIds listing))
        (starredBy accountId r.repositoryId prior) r.mode } := by
    rw [hrepos]
    apply List.map_congr_left
    intro r _
    rw [reconciled_mode, hwhole.stagedIn_eq, hwhole.starredBy_eq]
  have hforth : ∀ {r}, r ∈ c.tables.repositories → { r with
      mode := settledMode (decide (r.providerRepositoryId ∈ listedIds listing))
        (starredBy accountId r.repositoryId prior) r.mode } ∈ c'.tables.repositories := by
    intro r hr
    rw [hmodes]
    exact List.mem_map.mpr ⟨r, hr, rfl⟩
  have hback : ∀ r' ∈ c'.tables.repositories, ∃ r ∈ c.tables.repositories, r' = { r with
      mode := settledMode (decide (r.providerRepositoryId ∈ listedIds listing))
        (starredBy accountId r.repositoryId prior) r.mode } := by
    intro r' hr'
    rw [hmodes] at hr'
    obtain ⟨r, hr, heq⟩ := List.mem_map.mp hr'
    exact ⟨r, hr, heq.symm⟩
  have habsent : ∀ r ∈ c.tables.repositories,
      r.repositoryId ∈ absentRepositories runId accountId c.tables ↔
        StarGone accountId listing prior r := fun _ hr => hwhole.mem_absent hkeys hr
  have hmissed : ∀ r ∈ c.tables.repositories,
      r.repositoryId ∈ missedRepositories runId accountId c.tables ↔
        StarMissed accountId listing prior r := fun _ hr => hwhole.mem_missed hkeys hr
  have hobs : newStarObservations prior c'.tables = newStarObservations c.tables c'.tables := by
    rw [newStarObservations, newStarObservations, hwhole.grown.observations]
  -- The run row counts the listing, and its counter is an `integer`.
  obtain ⟨run, hrun, hid, hcounts⟩ := hswap.counts
  obtain ⟨row, hrow, hrowId, hitems⟩ := hwhole.row
  have hsame : row = run := hkeys.runs.eq_of_mem hrow hrun (hrowId.trans hid.symm)
  subst hsame
  have hadditions : countAdditions runId accountId c.tables =
      ((listedIds listing).toFinset \ (starredIds accountId prior).toFinset).card :=
    hwhole.additions hkeys hprior hdistinct
  have hfits : clampInteger (countAdditions runId accountId c.tables) =
      countAdditions runId accountId c.tables := by
    have hle : countAdditions runId accountId c.tables ≤ listing.length := by
      have hall := congrArg List.length (hwhole.providers hkeys)
      rw [List.length_map, listedIds, List.length_map] at hall
      exact (List.length_filter_le _ _).trans_eq hall
    have hcheck := c.valid.checks.runs row hrow
    simp only [SyncRun.check, fitsInteger, Bool.and_eq_true, decide_eq_true_eq] at hcheck
    rw [clampInteger]
    omega
  have hsummary : summaryOf counts = ⟨row.pagesProcessed.toNat, listing.length,
      ((listedIds listing).toFinset \ (starredIds accountId prior).toFinset).card,
      ((starredIds accountId prior).toFinset \ (listedIds listing).toFinset).card⟩ := by
    rw [hcounts, summaryOf, hitems, hadditions, hwhole.removals hkeys hprior]
    rfl
  rw [hsummary]
  refine ⟨?_, ?_, ?_, ?_, ?_, ?_, rfl, rfl, rfl, ?_, ?_, ?_, ?_, hcleared⟩
  · intro pid
    rw [starredIds, List.mem_map]
    constructor
    · rintro ⟨r', hr', rfl⟩
      obtain ⟨hmem, hstarred⟩ := List.mem_filter.mp hr'
      obtain ⟨r, hr, rfl⟩ := hback r' hmem
      rw [hstars, if_pos rfl, decide_eq_true_eq] at hstarred
      exact (hwhole.mem_stagedIds hkeys hr).mp hstarred
    · intro hlisted
      obtain ⟨item, hitem, rfl⟩ := List.mem_map.mp hlisted
      obtain ⟨r, hr, hpid⟩ := hwhole.catalogued item hitem
      refine ⟨_, List.mem_filter.mpr ⟨hforth hr, ?_⟩, hpid⟩
      rw [hstars, if_pos rfl, decide_eq_true_eq]
      exact (hwhole.mem_stagedIds hkeys hr).mpr (hpid ▸ hlisted)
  · intro item hitem
    obtain ⟨p, hp, hpid, htime⟩ := hwhole.staged_item hkeys hitem
    obtain ⟨s, hs, hkey, hstarred, hdated⟩ := hswap.promoted hnodup hp
    refine ⟨_, hforth (mem_repositories_of_staged hp), hpid, s, hs, hkey, hstarred, ?_⟩
    rw [hdated, htime, establishedAt, hwhole.grown.stars]
    rfl
  · intro r' hr' hgone
    obtain ⟨r, hr, rfl⟩ := hback r' hr'
    exact hswap.unstarred hnodup ((habsent r hr).mpr hgone)
  · intro r' hr'
    obtain ⟨r, hr, rfl⟩ := hback r' hr'
    rw [hobs, hswap.observed hkeys]
    exact if_congr (habsent r hr) rfl rfl
  · intro r' hr'
    obtain ⟨r, hr, rfl⟩ := hback r' hr'
    rw [(hswap.repaired hkeys hnodup hnone r.repositoryId).1]
    exact if_congr (habsent r hr) rfl rfl
  · intro r' hr'
    obtain ⟨r, hr, rfl⟩ := hback r' hr'
    rw [(hswap.repaired hkeys hnodup hnone r.repositoryId).2]
    exact if_congr (hmissed r hr) rfl rfl
  · have hdone : row.completedBy now (countAdditions runId accountId c.tables)
        (absentRepositories runId accountId c.tables).length ∈ c'.tables.syncRuns := by
      rw [hswap.runs]
      exact mem_updateWhere.mpr ⟨row, hrow, if_pos (decide_eq_true hid)⟩
    refine ⟨_, hdone, hid, rfl, hitems, ?_, ?_⟩
    · exact hfits.trans (congrArg Nat.cast hadditions)
    · exact congrArg clampInteger (hwhole.removals hkeys hprior)
  · intro r hr
    exact hforth (hwhole.grown.mem_repositories hr)
  · intro r' hr' hnew
    obtain ⟨r, hr, rfl⟩ := hback r' hr'
    obtain ⟨extra, hsplit, hextra⟩ := hwhole.grown.repositories
    rw [hsplit] at hr
    rcases List.mem_append.mp hr with hold | hadded
    · exact absurd (List.mem_map.mpr ⟨r, hold, rfl⟩) hnew
    · obtain ⟨hmode, hlisted⟩ := hextra r hadded
      refine ⟨hlisted, ?_⟩
      dsimp only
      rw [hmode, decide_eq_true hlisted]
      rfl
  · have hbefore : readWatermark accountId c.tables = readWatermark accountId prior := by
      rw [readWatermark, readWatermark, hwhole.grown.watermarks]
    rw [hmark, hbefore, hwhole.staged, stagedListing_times]

end exact

/-! ### Whole runs -/

/-- An attempt reads back only where its flow does. -/
theorem Attempt.Turn.reads_back {Page Place : Type} {e : Enumeration Page Place}
    {i : AttemptInput Page} {now : Time} {c c' : Catalog} {accountId runId : Uuid}
    {phase next : AttemptPhase Page Place} {summary : Summary}
    (h : Attempt.Turn e i now c accountId phase next c') (hnext : next = .reading runId summary) :
    e.readsBack = true := by
  have htold : ∀ {target : AttemptPhase Page Place}, Attempt.Told target next →
      target = .reading runId summary := by
    rintro target (rfl | rfl)
    · exact hnext
    · cases hnext
  cases h with
  | applied _ _ _ _ _ h =>
    have heq := htold h
    unfold Attempt.afterApply at heq
    split at heq
    · next hreads => exact hreads
    · cases heq
  | fetched =>
    unfold Attempt.afterFetch at hnext
    split at hnext
    · cases hnext
    · split at hnext <;> cases hnext
  | recorded _ _ _ _ _ _ h =>
    have heq := htold h
    unfold Attempt.afterRecord at heq
    split at heq <;> cases heq
  | catalogued _ _ _ _ _ _ _ _ _ h =>
    have heq := htold h
    unfold Attempt.afterUpsert at heq
    split at heq <;> cases heq
  | acquired | paused | identified | refused | done => cases hnext
  | found _ _ _ h | unfound _ _ h | resumed _ _ h | inserted _ _ _ h | failed _ _ _ _ _ h
  | named _ _ _ _ _ _ _ _ _ _ h | readBack _ _ _ _ h => cases htold h

/-- What is known of the only open run over a listing that stands still, seen from an attempt. -/
structure StarsFollowing (k : Contracts) (accountId runId : Uuid) (listing : List StarredItem)
    (prior : Database) (clock : Time) (c : Catalog) (phase : AttemptPhase (List StarredItem) ℕ) :
    Prop where
  engaged : Engaged .full accountId runId c phase
  following : Following k starredPageSize accountId runId listing prior clock c.tables phase
  not_reading : ∀ r summary, phase ≠ .reading r summary

/-- A page that a fetch brings is the listing's. -/
def ServesListing (listing : List StarredItem) (_now : Time) (_c : Catalog)
    (i : AttemptInput (List StarredItem)) (phase : AttemptPhase (List StarredItem) ℕ) : Prop :=
  ∀ runId page items, phase = .fetching runId page → i.reply = .ok items →
    items = pageOf starredPageSize listing page

section runs

variable {k : Contracts} {listing : List StarredItem} {accountId runId : Uuid} {prior : Database}
  {clock now : Time} {c c' : Catalog} {i : AttemptInput (List StarredItem)}
  {phase next : AttemptPhase (List StarredItem) ℕ} {before s : Snapshots (List StarredItem) ℕ}

/-- **One step.**  An attempt at work for the run follows the listing; after the run is over, attempts
work for others. -/
theorem Attempt.Turn.starsFollowing (hclock : clock ≤ now)
    (h : Attempt.Turn (starEnumeration k) i now c accountId phase next c')
    (hserves : ServesListing listing now c i phase)
    (hfollow : StarsFollowing k accountId runId listing prior clock c phase) :
    StarsFollowing k accountId runId listing prior now c' next := by
  have hengaged := h.engaged (starEnumeration_movesRuns k) (starEnumeration_lawful k) hfollow.engaged
  refine ⟨hengaged, ?_, fun r summary hreading => Bool.noConfusion (h.reads_back hreading)⟩
  by_cases hworks : ∀ r ∈ phase.runId?, r = runId
  · exact h.following (by decide) (by decide) hclock hworks hserves hfollow.following
  · rcases hfollow.engaged.works with ⟨result, rfl⟩ | rfl | hown | hover
    · cases h with
      | refused _ _ hlive => exact absurd rfl (hlive result)
      | done => exact Attempt.following_later hfollow.following hclock
    · exact absurd (by rintro _ ⟨⟩) hworks
    · refine absurd (fun r hr => ?_) hworks
      rw [hown] at hr
      exact (Option.mem_some_iff.mp hr).symm
    · obtain ⟨row, hrow, hid, -⟩ := hfollow.engaged.solo.row
      obtain ⟨row', hrow', hid', -⟩ := hengaged.solo.row
      have hopening : phase ≠ .opening := by
        rintro rfl
        exact hworks (by rintro _ ⟨⟩)
      have hother : phase.runId? ≠ some runId := by
        intro hown
        refine hworks fun r hr => ?_
        rw [hown] at hr
        exact (Option.mem_some_iff.mp hr).symm
      obtain ⟨hover', hnext⟩ :=
        h.other (starEnumeration_movesRuns k) ⟨row, hrow, hid⟩ hopening hother hover
      exact Attempt.following_over ⟨row', hrow', hid'⟩ hover' hnext

theorem StarsFollowing.at_opening
    (h : StarsFollowing k accountId runId listing prior clock c phase) :
    StarsFollowing k accountId runId listing prior clock c .opening :=
  ⟨⟨h.engaged.solo, .inr (.inl rfl), by rintro ⟨⟩⟩,
    ⟨h.following.grown, h.following.progress, by rintro ⟨⟩⟩, by rintro _ _ ⟨⟩⟩

/-- What is known at the start of a run. -/
theorem starsFollowing_inserted
    (hidle : interruptedRun .full accountId before.catalog.tables = none)
    (h : insertSyncRun .full runId accountId now before.catalog = .ok ((), c')) :
    StarsFollowing k accountId runId listing before.catalog.tables now c' (.acquiring runId 1) := by
  have hprogress : Progress k starredPageSize accountId runId listing now 1 c'.tables :=
    progress_inserted h
  refine ⟨engaged_inserted hidle h 1, ⟨fun _ => ?_, fun _ => ⟨1, hprogress⟩,
    fun _ _ => ⟨1, hprogress, rfl⟩⟩, by rintro _ _ ⟨⟩⟩
  exact grown_of_touches (touches_insertSyncRun _ _ _ _) (by decide) _ () c' h

/-- **Whole histories of a run.** -/
theorem starsFollowing_runFrom
    (hopening : Snapshots.Opening k (starEnumeration k) accountId runId before s)
    {events : List (SnapshotEvent (List StarredItem))}
    (hseq : Guarded (Snapshots.step k (starEnumeration k)) Snapshots.Sequential s events)
    (hserves : Guarded (Snapshots.step k (starEnumeration k))
      (Snapshots.Meets (ServesListing listing)) s events) :
    Snapshots.KeptBy (StarsFollowing k accountId runId listing before.catalog.tables) accountId
      (runFrom (Snapshots.step k (starEnumeration k)) s events) := by
  refine Snapshots.keptBy_runFrom
    (fun hguard hturn h => hturn.starsFollowing (Nat.le_add_right _ _) hguard h)
    (fun h => h.at_opening)
    (fun hclock h => ⟨h.engaged, Attempt.following_later h.following hclock, h.not_reading⟩) ?_ hseq
    hserves
  exact hopening.keptBy (starEnumeration_movesRuns k) (fun h => h.at_opening)
    fun h => starsFollowing_inserted hopening.idle h

/-- An attempt that is about to apply the authority has staged the listing. -/
theorem StarsFollowing.stagedWhole
    (h : StarsFollowing k accountId runId listing prior clock c (.applying runId)) :
    StagedWhole k runId listing prior c.tables := by
  obtain ⟨n, hprogress, hall⟩ := h.following.phase rfl (by rintro _ ⟨⟩)
  have hall : listing.take ((n - 1) * starredPageSize) = listing := hall
  obtain ⟨row, hrow, hid, -, hstatus, -, hitems⟩ := hprogress.row
  refine ⟨h.following.grown fun run hrun hrunId => ?_, ?_, ?_, row, hrow, hid, ?_⟩
  · have hsame : run = row := c.valid.keys.runs.eq_of_mem hrun hrow (hrunId.trans hid.symm)
    rw [hsame, hstatus]
  · rw [hprogress.staged, hall]
  · have hcatalogued := hprogress.catalogued
    rwa [hall] at hcatalogued
  · rw [hitems, hall]

/-- **Completed star snapshots.**  For every prior state, every listing that stands still and lists no
repository twice, and every history of attempts over it, with pauses, crashes and resumed attempts:
when the run is reported completed, every listed repository was staged once, and the database is the
reference function of the listing and the state before the run. -/
theorem starSnapshot_exact (k : Contracts) (hdistinct : (listedIds listing).Nodup)
    (hopening : Snapshots.Opening k (starEnumeration k) accountId runId before s)
    (events : List (SnapshotEvent (List StarredItem)))
    (hseq : Guarded (Snapshots.step k (starEnumeration k)) Snapshots.Sequential s events)
    (hserves : Guarded (Snapshots.step k (starEnumeration k))
      (Snapshots.Meets (ServesListing listing)) s events)
    (summary : Summary) (observed : ℕ)
    (hdone : s.Completes k (starEnumeration k) events runId summary observed) :
    (∀ pid, ((stagedOf runId (runFrom (Snapshots.step k (starEnumeration k)) s
        events.dropLast).catalog.tables).map (·.providerRepositoryId)).count pid =
          if pid ∈ listedIds listing then 1 else 0) ∧
      StarsExact k accountId runId listing before.catalog.tables
        (runFrom (Snapshots.step k (starEnumeration k)) s events).catalog.tables summary := by
  obtain ⟨pre, n, i, a, rfl, ha, hlive, hstep⟩ := step_of_completes hdone
  have hkept := starsFollowing_runFrom hopening (guarded_append.mp hseq).1
    (guarded_append.mp hserves).1
  have hmem := List.mem_of_getElem? ha
  have hfollow := hkept.attempts a hmem hlive
  have hturn := a.turn (starEnumeration k) i
    ((runFrom (Snapshots.step k (starEnumeration k)) s pre).clock + i.elapsed)
    (runFrom (Snapshots.step k (starEnumeration k)) s pre).catalog
  rw [hstep, hkept.accounts a hmem] at hturn
  obtain ⟨hreading, -⟩ | ⟨hphase, -, happlied⟩ :=
    hturn.completed_cases (Attempt.not_ended_of_live hlive) rfl
  · exact absurd hreading (hfollow.not_reading runId summary)
  · rw [hphase] at hfollow
    have hwhole := hfollow.stagedWhole
    obtain ⟨counts, c₁, hswap, hpure⟩ := Tx.bind_eq_ok.mp happlied
    obtain ⟨hsummary, hsame⟩ := Tx.pure_eq_ok.mp hpure
    rw [List.dropLast_concat]
    constructor
    · intro pid
      rw [hwhole.staged, stagedListing_providers]
      exact hdistinct.count
    · rw [← hsummary]
      refine starsExact_of_swap before.catalog.valid hwhole hdistinct ?_ (hsame ▸ hswap)
      intro r hr hrun
      exact hopening.fresh (hrun ▸ before.catalog.valid.foreignKeys.repairs_run r hr _ rfl)

end runs

/-! ### A paused run -/

instance decidableServesListing (listing : List StarredItem) (now : Time) (c : Catalog)
    (i : AttemptInput (List StarredItem)) (phase : AttemptPhase (List StarredItem) ℕ) :
    Decidable (ServesListing listing now c i phase) :=
  decidableFetched (fun page items => items = pageOf starredPageSize listing page) i phase

/-- Repository 102 is starred; an attempt is about to insert its run, and another will follow. -/
def beforeStarRun : Snapshots (List StarredItem) ℕ :=
  ⟨(beforeRun []).catalog, 0, [⟨1, .inserting, false⟩, ⟨1, .opening, false⟩]⟩

/-- The run 1000 has started. -/
def openedStarRun : Snapshots (List StarredItem) ℕ :=
  beforeStarRun.step sampleContracts (starEnumeration sampleContracts) (.advance 0 (servedInput 1000))

/-- Repository 101 is listed.  The first attempt stages it and is paused; the second one finds the
listing exhausted. -/
def pausedStarRun : List (SnapshotEvent (List StarredItem)) :=
  [.advance 0 (servedInput 1), .advance 0 { servedInput 2 with reply := .ok [listedFirst] },
    .advance 0 (servedInput 3000), .advance 0 (servedInput 3100), .advance 0 (servedInput 3),
    .advance 0 (servedInput 3200), .advance 0 { servedInput 4 with acquired := false }] ++
  [5, 6, 7, 8, 9, 3300, 3400].map fun fresh => .advance 1 (servedInput fresh)

theorem openedStarRun_opening : Snapshots.Opening sampleContracts (starEnumeration sampleContracts) 1
    1000 beforeStarRun openedStarRun :=
  ⟨by decide +kernel, ⟨.advance 0 (servedInput 1000), by simp [Snapshots.Sequential, beforeStarRun],
    rfl⟩, by decide +kernel, by decide +kernel, by decide +kernel⟩

theorem pausedStarRun_completes : openedStarRun.Completes sampleContracts
    (starEnumeration sampleContracts) pausedStarRun 1000 ⟨2, 1, 1, 1⟩ 0 :=
  ⟨pausedStarRun.dropLast, 1, servedInput 3400, ⟨1, .applying 1000, false⟩,
    ⟨1, .ended (.ok (.completed 1000 ⟨2, 1, 1, 1⟩ 0)), false⟩, rfl, by decide +kernel, rfl,
    by decide +kernel, rfl⟩

theorem starSnapshot_exact_paused :
    (∀ pid, ((stagedOf 1000 (runFrom (Snapshots.step sampleContracts (starEnumeration sampleContracts))
        openedStarRun pausedStarRun.dropLast).catalog.tables).map
          (·.providerRepositoryId)).count pid = if pid ∈ listedIds [listedFirst] then 1 else 0) ∧
      StarsExact sampleContracts 1 1000 [listedFirst] beforeStarRun.catalog.tables
        (runFrom (Snapshots.step sampleContracts (starEnumeration sampleContracts)) openedStarRun
          pausedStarRun).catalog.tables ⟨2, 1, 1, 1⟩ :=
  starSnapshot_exact sampleContracts (by decide) openedStarRun_opening pausedStarRun
    (by decide +kernel) (by decide +kernel) ⟨2, 1, 1, 1⟩ 0 pausedStarRun_completes

end GithubCatalog
