import GithubCatalog.StarAuthority

/-!
# The authority swap, table by table

`apply_authority_and_complete` in closed form: what its seven statements leave in the star rows, the
observations, the repairs and the run row, as functions of the tables before it.

* `recordUnstars_spec` - the loop over the absent repositories;
* `Swapping` - the tables after a swap; `applyAuthority_swapping` - a successful swap leaves them.
-/

namespace GithubCatalog

open Relational Transact

/-- The key of a repair. -/
def ReconciliationRepair.key (r : ReconciliationRepair) : Uuid × Uuid := (r.syncRunId, r.repositoryId)

/-- The observations of the staged repositories. -/
def seenObservations (ids : ℕ → Uuid) (now : Time) (runId accountId : Uuid) (db : Database) :
    List StarObservation :=
  (stagedRepositories runId db).zipIdx.map fun p =>
    ⟨ids p.2, accountId, p.1.1.repositoryId, true, p.1.2.providerStarredAt, false, now⟩

/-- The observations of the absent repositories. -/
def goneObservations (ids : ℕ → Uuid) (now : Time) (accountId : Uuid) (absent : List Uuid) :
    List StarObservation :=
  absent.zipIdx.map fun p => ⟨ids p.2, accountId, p.1, false, none, false, now⟩

/-- The staged repositories the account holds as unstarred. -/
def missedRepositories (runId accountId : Uuid) (db : Database) : List Uuid :=
  ((stagedRepositories runId db).filter fun p =>
    db.currentStarState.any fun c => decide (c.accountId = accountId) &&
      decide (c.repositoryId = p.1.repositoryId) && !c.starred).map (·.1.repositoryId)

/-- The repositories the account stars and the run did not stage. -/
def absentRepositories (runId accountId : Uuid) (db : Database) : List Uuid :=
  (db.currentStarState.filter (·.absentFrom runId accountId db)).map (·.repositoryId)

/-- A run row that a swap completed. -/
def SyncRun.completedBy (now : Time) (additions unstars : ℕ) (r : SyncRun) : SyncRun :=
  { r with
    status := .completed, finishedAt := some now, additions := clampInteger additions
    unstars := clampInteger unstars }

/-- The tables after a swap. -/
structure Swapping (ids unstarIds : ℕ → Uuid) (now : Time) (runId accountId : Uuid)
    (db db' : Database) (counts : ℕ × ℕ × ℕ × ℕ) : Prop where
  stars : db'.currentStarState = updateWhere (·.absentFrom runId accountId db) (·.unstar now runId)
    (upsertAll CurrentStarState.key (promotedRow now) (promotedRows now runId accountId db)
      db.currentStarState)
  observations : db'.starObservations = db.starObservations ++
    seenObservations ids now runId accountId db ++
    goneObservations unstarIds now accountId (absentRepositories runId accountId db)
  repairs : db'.reconciliationRepairs = db.reconciliationRepairs ++
    (missedRepositories runId accountId db).map (⟨runId, ·, .restoreAfterMiss⟩) ++
    (absentRepositories runId accountId db).map (⟨runId, ·, .unstarAfterDrift⟩)
  runs : db'.syncRuns = updateWhere (fun r => decide (r.syncRunId = runId))
    (·.completedBy now (countAdditions runId accountId db)
      (absentRepositories runId accountId db).length) db.syncRuns
  counts : ∃ run ∈ db.syncRuns, run.syncRunId = runId ∧
    counts = (run.pagesProcessed.toNat, run.itemsObserved.toNat, countAdditions runId accountId db,
      (absentRepositories runId accountId db).length)

section swap

variable {ids unstarIds : ℕ → Uuid} {now : Time} {runId accountId : Uuid} {c c' : Catalog}

/-- The loop over the absent repositories appends an observation and a repair for each. -/
theorem recordUnstars_spec {absent : List (Uuid × ℕ)} {u : Unit}
    (h : (absent.forM fun p => recordUnstar (ids p.2) now runId accountId p.1) c = .ok (u, c'))
    (hnodup : (absent.map (·.1)).Nodup)
    (hfresh : ∀ p ∈ absent, (runId, p.1) ∉
      c.tables.reconciliationRepairs.map ReconciliationRepair.key) :
    c'.tables.starObservations = c.tables.starObservations ++
        absent.map (fun p => ⟨ids p.2, accountId, p.1, false, none, false, now⟩) ∧
      c'.tables.reconciliationRepairs = c.tables.reconciliationRepairs ++
        absent.map fun p => ⟨runId, p.1, .unstarAfterDrift⟩ := by
  induction absent generalizing c with
  | nil =>
    obtain ⟨-, rfl⟩ := Tx.pure_eq_ok.mp h
    exact ⟨(List.append_nil _).symm, (List.append_nil _).symm⟩
  | cons p rest ih =>
    obtain ⟨⟨⟩, c₁, h₁, hrest⟩ := Tx.bind_eq_ok.mp h
    obtain ⟨hhead, htail⟩ := List.nodup_cons.mp hnodup
    simp only [recordUnstar, Tx.bind_eq_ok, write_eq_ok] at h₁
    obtain ⟨-, d₁, e₁, -, d₂, e₂, e₃⟩ := h₁
    have hobs : c₁.tables.starObservations = c.tables.starObservations ++
        [⟨ids p.2, accountId, p.1, false, none, false, now⟩] := by
      rw [e₃, e₂, e₁]
      rfl
    have hnew : (c.tables.reconciliationRepairs.any fun r =>
        decide (r.syncRunId = runId) && decide (r.repositoryId = p.1)) = false := by
      rw [List.any_eq_false]
      intro r hr hkey
      simp only [Bool.and_eq_true, decide_eq_true_eq] at hkey
      refine hfresh p List.mem_cons_self (List.mem_map.mpr ⟨r, hr, ?_⟩)
      rw [ReconciliationRepair.key, hkey.1, hkey.2]
    have hrepairs : c₁.tables.reconciliationRepairs = c.tables.reconciliationRepairs ++
        [⟨runId, p.1, .unstarAfterDrift⟩] := by
      have hwritten : c₁.tables.reconciliationRepairs = insertUnless
          (fun r => decide (r.syncRunId = runId) && decide (r.repositoryId = p.1))
          ⟨runId, p.1, .unstarAfterDrift⟩ c.tables.reconciliationRepairs := by
        rw [e₃, e₂, e₁]
        rfl
      rw [hwritten, insertUnless, if_neg (by simp [hnew])]
    obtain ⟨hobs', hrepairs'⟩ := ih hrest htail fun q hq hmem => by
      rw [hrepairs, List.map_append, List.mem_append] at hmem
      rcases hmem with hold | hsame
      · exact hfresh q (List.mem_cons_of_mem _ hq) hold
      · have hkey : (runId, q.1) = (runId, p.1) := List.mem_singleton.mp hsame
        exact hhead (List.mem_map.mpr ⟨q, hq, (Prod.mk.inj hkey).2⟩)
    constructor
    · rw [hobs', hobs, List.append_assoc]
      rfl
    · rw [hrepairs', hrepairs, List.append_assoc]
      rfl

theorem stagedRepositories_of_eq {db db' : Database} (hitems : db'.snapshotItems = db.snapshotItems)
    (hrepos : db'.repositories = db.repositories) :
    stagedRepositories runId db' = stagedRepositories runId db := by
  simp only [stagedRepositories, repositoryOf, hitems, hrepos]

/-- An account's absent repositories are distinct. -/
theorem absentRepositories_nodup {db : Database} (hkeys : Keys db) :
    (absentRepositories runId accountId db).Nodup := by
  have hrows : UniqueOn (fun c => (c.accountId, c.repositoryId))
      (db.currentStarState.filter (·.absentFrom runId accountId db)) :=
    hkeys.stars.sublist List.filter_sublist
  have hsame : (db.currentStarState.filter (·.absentFrom runId accountId db)).map
      (fun c => (c.accountId, c.repositoryId)) =
        (absentRepositories runId accountId db).map fun q => (accountId, q) := by
    rw [absentRepositories, List.map_map]
    apply List.map_congr_left
    intro s hs
    have habsent := (List.mem_filter.mp hs).2
    simp only [CurrentStarState.absentFrom, Bool.and_eq_true, decide_eq_true_eq] at habsent
    rw [Function.comp, habsent.1.1]
  rw [UniqueOn, hsame] at hrows
  exact List.Nodup.of_map _ hrows

theorem mem_absentRepositories {db : Database} {q : Uuid} :
    q ∈ absentRepositories runId accountId db ↔
      starredBy accountId q db = true ∧ q ∉ stagedIds runId db := by
  simp only [absentRepositories, List.mem_map, List.mem_filter, absentFrom_eq, Bool.and_eq_true,
    decide_eq_true_eq, Bool.not_eq_true', decide_eq_false_iff_not, starredBy, List.any_eq_true]
  constructor
  · rintro ⟨s, ⟨hs, ⟨hacc, hstar⟩, hstaged⟩, rfl⟩
    exact ⟨⟨s, hs, ⟨hacc, rfl⟩, hstar⟩, hstaged⟩
  · rintro ⟨⟨s, hs, ⟨hacc, rfl⟩, hstar⟩, hstaged⟩
    exact ⟨s, ⟨hs, ⟨hacc, hstar⟩, hstaged⟩, rfl⟩

/-- The promotion makes no row absent and hides none. -/
theorem absentRepositories_promoted {db db' : Database}
    (hstaged : stagedIds runId db' = stagedIds runId db)
    (hstars : db'.currentStarState = upsertAll CurrentStarState.key (promotedRow now)
      (promotedRows now runId accountId db) db.currentStarState) :
    absentRepositories runId accountId db' = absentRepositories runId accountId db := by
  have htest : (fun s : CurrentStarState => s.absentFrom runId accountId db') =
      fun s => s.absentFrom runId accountId db := by
    funext s
    rw [absentFrom_eq, absentFrom_eq, hstaged]
  rw [absentRepositories, absentRepositories, htest, hstars, filter_upsertAll]
  intro row hrow
  obtain ⟨p, hp, rfl⟩ := List.mem_map.mp hrow
  have hmem : p.1.repositoryId ∈ stagedIds runId db := List.mem_map.mpr ⟨p, hp, rfl⟩
  refine ⟨by simp [absentFrom_eq, hmem], fun s hkey => ?_⟩
  have hrepo : s.repositoryId = p.1.repositoryId := (Prod.mk.inj hkey).2
  exact ⟨by simp [absentFrom_eq, hrepo, hmem], by simp [absentFrom_eq, promotedRow, hrepo, hmem]⟩

theorem promotedRows_keys (now : Time) (runId accountId : Uuid) (db : Database) :
    (promotedRows now runId accountId db).map CurrentStarState.key =
      (stagedIds runId db).map fun q => (accountId, q) := by
  rw [promotedRows, stagedIds, List.map_map, List.map_map]
  rfl

/-- The promotion's own check: no repository is staged twice. -/
theorem stagedIds_nodup {u : Unit} (h : promoteSeenRepositories now runId accountId c = .ok (u, c')) :
    (stagedIds runId c.tables).Nodup := by
  simp only [promoteSeenRepositories, Tx.bind_eq_ok, require_eq_ok] at h
  obtain ⟨-, _, ⟨hkeys, -⟩, -⟩ := h
  have hrows := of_decide_eq_true hkeys
  rw [promotedRows_keys] at hrows
  exact List.Nodup.of_map _ hrows

/-- The repairs of missed repositories, in a run that has none yet. -/
theorem recordRestoreRepairs_spec {u : Unit} (h : recordRestoreRepairs runId accountId c = .ok (u, c'))
    (hnodup : (stagedIds runId c.tables).Nodup)
    (hfresh : ∀ r ∈ c.tables.reconciliationRepairs, r.syncRunId ≠ runId) :
    c'.tables.reconciliationRepairs = c.tables.reconciliationRepairs ++
      (missedRepositories runId accountId c.tables).map (⟨runId, ·, .restoreAfterMiss⟩) := by
  rw [write_eq_ok.mp h]
  show insertAllUnless _ _ _ = _
  rw [insertAllUnless_fresh]
  · rw [missedRepositories, List.map_map]
    rfl
  · rw [List.map_map]
    have hmissed : (missedRepositories runId accountId c.tables).Nodup :=
      hnodup.sublist (List.Sublist.map _ List.filter_sublist)
    have hsame : ((stagedRepositories runId c.tables).filter fun p =>
        c.tables.currentStarState.any fun s => decide (s.accountId = accountId) &&
          decide (s.repositoryId = p.1.repositoryId) && !s.starred).map
        ((fun r : ReconciliationRepair => (r.syncRunId, r.repositoryId)) ∘ fun p =>
          ⟨runId, p.1.repositoryId, .restoreAfterMiss⟩) =
        (missedRepositories runId accountId c.tables).map fun q => (runId, q) := by
      rw [missedRepositories, List.map_map]
      rfl
    rw [hsame]
    exact hmissed.map fun _ _ heq => (Prod.mk.inj heq).2
  · intro row hrow hmem
    obtain ⟨p, -, rfl⟩ := List.mem_map.mp hrow
    obtain ⟨old, hold, hkey⟩ := List.mem_map.mp hmem
    exact hfresh old hold (Prod.mk.inj hkey).1

/-- The absent rows' observations and repairs. -/
theorem unstarAbsentRepositories_swapping {n : ℕ}
    (h : unstarAbsentRepositories unstarIds now runId accountId c = .ok (n, c'))
    (hfresh : ∀ q ∈ absentRepositories runId accountId c.tables,
      (runId, q) ∉ c.tables.reconciliationRepairs.map ReconciliationRepair.key) :
    n = (absentRepositories runId accountId c.tables).length ∧
      c'.tables.starObservations = c.tables.starObservations ++
        goneObservations unstarIds now accountId (absentRepositories runId accountId c.tables) ∧
      c'.tables.reconciliationRepairs = c.tables.reconciliationRepairs ++
        (absentRepositories runId accountId c.tables).map (⟨runId, ·, .unstarAfterDrift⟩) := by
  simp only [unstarAbsentRepositories, Tx.bind_eq_ok, select_eq_ok, write_eq_ok,
    Tx.pure_eq_ok] at h
  obtain ⟨absent, _, ⟨habsent, rfl⟩, -, c₁, h₁, ⟨⟩, c₂, hloop, hn, rfl⟩ := h
  have heq : absentRepositories runId accountId c.tables = absent := habsent
  have hobs₁ : c₁.tables.starObservations = c.tables.starObservations := by rw [h₁]; rfl
  have hrepairs₁ : c₁.tables.reconciliationRepairs = c.tables.reconciliationRepairs := by
    rw [h₁]
    rfl
  obtain ⟨hobs, hrepairs⟩ := recordUnstars_spec hloop
    (by rw [List.zipIdx_map_fst, ← heq]; exact absentRepositories_nodup c.valid.keys)
    (by
      intro p hp
      rw [hrepairs₁]
      exact hfresh p.1 (heq ▸ List.fst_mem_of_mem_zipIdx hp))
  rw [heq]
  refine ⟨hn.symm, ?_, ?_⟩
  · rw [hobs, hobs₁]
    rfl
  · rw [hrepairs, hrepairs₁]
    congr 1
    conv_rhs => rw [← List.zipIdx_map_fst 0 absent, List.map_map]
    rfl

/-- The run row a swap completes, as it was before. -/
theorem completeRunRow_spec {additions unstars : ℕ} {pair : ℕ × ℕ}
    (h : completeRunRow now runId additions unstars c = .ok (pair, c')) :
    c'.tables.syncRuns = updateWhere (fun r => decide (r.syncRunId = runId))
        (·.completedBy now additions unstars) c.tables.syncRuns ∧
      ∃ run ∈ c.tables.syncRuns, run.syncRunId = runId ∧
        pair = (run.pagesProcessed.toNat, run.itemsObserved.toNat) := by
  obtain ⟨u, c₁, hwrite, hfetch⟩ := Tx.bind_eq_ok.mp h
  obtain ⟨hread, rfl⟩ := fetchOne_eq_ok.mp hfetch
  have hruns : c₁.tables.syncRuns = updateWhere (fun r => decide (r.syncRunId = runId))
      (·.completedBy now additions unstars) c.tables.syncRuns := by
    rw [write_eq_ok.mp hwrite]
    rfl
  refine ⟨hruns, ?_⟩
  obtain ⟨run, hfind, hpair⟩ := Option.map_eq_some_iff.mp hread
  have hkey : ∀ r : SyncRun, decide ((r.completedBy now additions unstars).syncRunId = runId) =
      decide (r.syncRunId = runId) := fun _ => rfl
  rw [hruns, find?_updateWhere hkey] at hfind
  obtain ⟨old, hold, rfl⟩ := Option.map_eq_some_iff.mp hfind
  have hid := List.find?_some hold
  refine ⟨old, List.mem_of_find?_eq_some hold, of_decide_eq_true hid, ?_⟩
  rw [← hpair, if_pos hid]
  rfl

/-- The rows a promotion leaves. -/
theorem promoteSeenRepositories_stars {u : Unit}
    (h : promoteSeenRepositories now runId accountId c = .ok (u, c')) :
    c'.tables.currentStarState = upsertAll CurrentStarState.key (promotedRow now)
      (promotedRows now runId accountId c.tables) c.tables.currentStarState := by
  simp only [promoteSeenRepositories, Tx.bind_eq_ok, require_eq_ok, write_eq_ok] at h
  obtain ⟨-, _, ⟨-, rfl⟩, -, d, hd, hd'⟩ := h
  rw [hd', hd]
  rfl

/-- A promotion stages nothing and removes nothing from the staging. -/
theorem stagedIds_promoted {u : Unit}
    (h : promoteSeenRepositories now runId accountId c = .ok (u, c')) :
    stagedIds runId c'.tables = stagedIds runId c.tables := by
  obtain ⟨hpromoted, hitems, -⟩ := promoteSeenRepositories_spec h
  refine stagedIds_congr hitems hpromoted ?_ ?_
  · intro r
    split
    · exact r.promote_repositoryId
    · rfl
  · intro r
    split
    · exact r.promote_providerRepositoryId
    · rfl

/-- The rows the absence leaves. -/
theorem unstarAbsentRepositories_stars {n : ℕ}
    (h : unstarAbsentRepositories unstarIds now runId accountId c = .ok (n, c')) :
    c'.tables.currentStarState = updateWhere (·.absentFrom runId accountId c.tables)
      (·.unstar now runId) c.tables.currentStarState := by
  simp only [unstarAbsentRepositories, Tx.bind_eq_ok, select_eq_ok, write_eq_ok,
    Tx.pure_eq_ok] at h
  obtain ⟨absent, _, ⟨-, rfl⟩, -, c₁, h₁, ⟨⟩, c₂, hloop, -, rfl⟩ := h
  have hframe : c₂.tables.currentStarState = c₁.tables.currentStarState :=
    (Touches.forM (fun p => touches_recordUnstar _ _ _ _ _) _).rows_eq hloop
      (t := .currentStarState) (by decide)
  rw [hframe, h₁]
  rfl

/-- **The star rows after a swap**: the staged ones promoted, the absent ones unstarred. -/
theorem applyAuthority_stars {counts : ℕ × ℕ × ℕ × ℕ}
    (h : applyAuthorityAndComplete ids unstarIds now runId accountId c = .ok (counts, c')) :
    c'.tables.currentStarState = updateWhere (·.absentFrom runId accountId c.tables)
      (·.unstar now runId) (upsertAll CurrentStarState.key (promotedRow now)
        (promotedRows now runId accountId c.tables) c.tables.currentStarState) := by
  simp only [applyAuthorityAndComplete, Tx.bind_eq_ok, select_eq_ok, Tx.pure_eq_ok] at h
  obtain ⟨_, _, ⟨-, rfl⟩, ⟨⟩, c₁, h₁, ⟨⟩, c₂, h₂, ⟨⟩, c₃, h₃, n, c₄, h₄, ⟨⟩, c₅, h₅, ⟨⟩, c₆, h₆,
    pair, c₇, h₇, -, rfl⟩ := h
  have hpre : AgreeOff [.starObservations, .reconciliationRepairs] c.tables c₂.tables :=
    IsTrans.trans _ _ _ ((Touches.write (by decide) _ : Touches _ _) _ _ _ h₁)
      ((Touches.write (by decide) _ : Touches _ _) _ _ _ h₂)
  have hpost : AgreeOff [.starWatermarks, .snapshotItems, .syncRuns] c₄.tables c₇.tables :=
    IsTrans.trans _ _ _ (IsTrans.trans _ _ _
      ((Touches.write (by decide) _ : Touches _ _) _ _ _ h₅)
      ((Touches.write (by decide) _ : Touches _ _) _ _ _ h₆))
      ((touches_completeRunRow _ _ _ _).mono (by decide) _ _ _ h₇)
  have hitems : c₂.tables.snapshotItems = c.tables.snapshotItems := hpre .snapshotItems (by decide)
  have hrepos : c₂.tables.repositories = c.tables.repositories := hpre .repositories (by decide)
  have hstars : c₂.tables.currentStarState = c.tables.currentStarState :=
    hpre .currentStarState (by decide)
  have hfinal : c₇.tables.currentStarState = c₄.tables.currentStarState :=
    hpost .currentStarState (by decide)
  have htest : (fun s : CurrentStarState => s.absentFrom runId accountId c₃.tables) =
      fun s => s.absentFrom runId accountId c.tables := by
    funext s
    rw [absentFrom_eq, absentFrom_eq, stagedIds_promoted h₃, stagedIds_of_eq hitems hrepos]
  rw [hfinal, unstarAbsentRepositories_stars h₄, htest, promoteSeenRepositories_stars h₃,
    promotedRows, stagedRepositories_of_eq hitems hrepos, hstars, ← promotedRows]

/-- **The swap in closed form.** -/
theorem applyAuthority_swapping {counts : ℕ × ℕ × ℕ × ℕ}
    (h : applyAuthorityAndComplete ids unstarIds now runId accountId c = .ok (counts, c'))
    (hfresh : ∀ r ∈ c.tables.reconciliationRepairs, r.syncRunId ≠ runId) :
    Swapping ids unstarIds now runId accountId c.tables c'.tables counts := by
  have hstars := applyAuthority_stars h
  simp only [applyAuthorityAndComplete, Tx.bind_eq_ok, select_eq_ok, Tx.pure_eq_ok] at h
  obtain ⟨additions, _, ⟨hadditions, rfl⟩, ⟨⟩, c₁, h₁, ⟨⟩, c₂, h₂, ⟨⟩, c₃, h₃, n, c₄, h₄, ⟨⟩, c₅, h₅,
    ⟨⟩, c₆, h₆, pair, c₇, h₇, hcounts, rfl⟩ := h
  -- Observations and repairs leave the tables that decide what is staged and starred.
  have hpre : AgreeOff [.starObservations, .reconciliationRepairs] c.tables c₂.tables :=
    IsTrans.trans _ _ _ ((Touches.write (by decide) _ : Touches _ _) _ _ _ h₁)
      ((Touches.write (by decide) _ : Touches _ _) _ _ _ h₂)
  have hpre₁ : AgreeOff [.starObservations] c.tables c₁.tables :=
    (Touches.write (by decide) _ : Touches _ _) _ _ _ h₁
  have hitems : c₂.tables.snapshotItems = c.tables.snapshotItems := hpre .snapshotItems (by decide)
  have hrepos : c₂.tables.repositories = c.tables.repositories := hpre .repositories (by decide)
  have hstars₂ : c₂.tables.currentStarState = c.tables.currentStarState :=
    hpre .currentStarState (by decide)
  have hstaged : stagedRepositories runId c₂.tables = stagedRepositories runId c.tables :=
    stagedRepositories_of_eq hitems hrepos
  have hnodup : (stagedIds runId c.tables).Nodup := by
    have hpromoted := stagedIds_nodup h₃
    rwa [stagedIds, hstaged] at hpromoted
  have hstaged₃ : stagedIds runId c₃.tables = stagedIds runId c.tables := by
    rw [stagedIds_promoted h₃, stagedIds_of_eq hitems hrepos]
  have hstars₃ : c₃.tables.currentStarState = upsertAll CurrentStarState.key (promotedRow now)
      (promotedRows now runId accountId c.tables) c.tables.currentStarState := by
    rw [promoteSeenRepositories_stars h₃, promotedRows, hstaged, hstars₂, ← promotedRows]
  have habsent := absentRepositories_promoted hstaged₃ hstars₃
  have hpromote : AgreeOff [.currentStarState, .repositories] c₂.tables c₃.tables :=
    touches_promoteSeenRepositories _ _ _ _ _ _ h₃
  have hrepairs₁ : c₁.tables.reconciliationRepairs = c.tables.reconciliationRepairs :=
    hpre₁ .reconciliationRepairs (by decide)
  have hstaged₁ : stagedRepositories runId c₁.tables = stagedRepositories runId c.tables :=
    stagedRepositories_of_eq (hpre₁ .snapshotItems (by decide)) (hpre₁ .repositories (by decide))
  have hmissed : missedRepositories runId accountId c₁.tables =
      missedRepositories runId accountId c.tables := by
    have hstars₁ : c₁.tables.currentStarState = c.tables.currentStarState :=
      hpre₁ .currentStarState (by decide)
    rw [missedRepositories, missedRepositories, hstaged₁, hstars₁]
  have hrepairs₃ : c₃.tables.reconciliationRepairs = c.tables.reconciliationRepairs ++
      (missedRepositories runId accountId c.tables).map (⟨runId, ·, .restoreAfterMiss⟩) := by
    have hframe : c₃.tables.reconciliationRepairs = c₂.tables.reconciliationRepairs :=
      hpromote .reconciliationRepairs (by decide)
    rw [hframe, recordRestoreRepairs_spec h₂ (by rw [stagedIds, hstaged₁]; exact hnodup)
      (by rw [hrepairs₁]; exact hfresh), hrepairs₁, hmissed]
  have hobs₃ : c₃.tables.starObservations = c.tables.starObservations ++
      seenObservations ids now runId accountId c.tables := by
    have hframe₃ : c₃.tables.starObservations = c₂.tables.starObservations :=
      hpromote .starObservations (by decide)
    have hframe₂ : c₂.tables.starObservations = c₁.tables.starObservations :=
      (Touches.write (by decide) _ : Touches [.reconciliationRepairs] _).rows_eq h₂
        (t := .starObservations) (by decide)
    rw [hframe₃, hframe₂, write_eq_ok.mp h₁]
    rfl
  obtain ⟨hn, hobs₄, hrepairs₄⟩ := unstarAbsentRepositories_swapping h₄ (by
    rw [habsent, hrepairs₃]
    intro q hq hmem
    rw [List.map_append, List.mem_append] at hmem
    rcases hmem with hold | hnew
    · obtain ⟨r, hr, hkey⟩ := List.mem_map.mp hold
      exact hfresh r hr (Prod.mk.inj hkey).1
    · obtain ⟨r, hr, hkey⟩ := List.mem_map.mp hnew
      obtain ⟨m, hm, rfl⟩ := List.mem_map.mp hr
      obtain ⟨p, hp, rfl⟩ := List.mem_map.mp hm
      have hsame : p.1.repositoryId = q := (Prod.mk.inj hkey).2
      refine (mem_absentRepositories.mp hq).2 (hsame ▸ List.mem_map.mpr ⟨p, ?_, rfl⟩)
      exact (List.mem_filter.mp hp).1)
  -- The bookkeeping touches none of the three tables.
  have hpost : AgreeOff [.starWatermarks, .snapshotItems, .syncRuns] c₄.tables c₇.tables :=
    IsTrans.trans _ _ _ (IsTrans.trans _ _ _
      ((Touches.write (by decide) _ : Touches _ _) _ _ _ h₅)
      ((Touches.write (by decide) _ : Touches _ _) _ _ _ h₆))
      ((touches_completeRunRow _ _ _ _).mono (by decide) _ _ _ h₇)
  obtain ⟨hruns, run, hrun, hid, hpair⟩ := completeRunRow_spec h₇
  have hsame : c₆.tables.syncRuns = c.tables.syncRuns := by
    have hlate : AgreeOff [.starWatermarks, .snapshotItems] c₄.tables c₆.tables :=
      IsTrans.trans _ _ _ ((Touches.write (by decide) _ : Touches _ _) _ _ _ h₅)
        ((Touches.write (by decide) _ : Touches _ _) _ _ _ h₆)
    have hunstar : c₄.tables.syncRuns = c₃.tables.syncRuns :=
      (touches_unstarAbsentRepositories _ _ _ _).rows_eq h₄ (t := .syncRuns) (by decide)
    exact (hlate .syncRuns (by decide)).trans (hunstar.trans
      ((hpromote .syncRuns (by decide)).trans (hpre .syncRuns (by decide))))
  rw [habsent] at hn hobs₄ hrepairs₄
  refine ⟨hstars, ?_, ?_, ?_, run, hsame ▸ hrun, hid, ?_⟩
  · have hfinal : c₇.tables.starObservations = c₄.tables.starObservations :=
      hpost .starObservations (by decide)
    rw [hfinal, hobs₄, hobs₃]
  · have hfinal : c₇.tables.reconciliationRepairs = c₄.tables.reconciliationRepairs :=
      hpost .reconciliationRepairs (by decide)
    rw [hfinal, hrepairs₄, hrepairs₃]
  · rw [hruns, hsame, hn, hadditions]
  · rw [← hcounts, hpair, hn, hadditions]

end swap

end GithubCatalog
