import GithubCatalog.SyncRuns

/-!
# The full star snapshot (`snapshot.rs`)

Pages are staged as they arrive, each with its checkpoint; when the listing is exhausted one
transaction turns the staging into star authority.

* `recordPage` - the transaction that stages one page;
* `applyAuthorityAndComplete` - the swap: seen repositories are starred, absent ones unstarred, the
  watermark re-anchored, the staging cleared and the run completed.

Every statement of the swap is a definition of its own, under its source name.
-/

namespace GithubCatalog

open Relational Transact

/-- The page a resumed run continues with: `u32::try_from(next_page.unwrap_or(1)).unwrap_or(1)`. -/
def resumePage (checkpoint : Option SyncCheckpoint) : ℕ :=
  let next := checkpoint.elim 1 (·.nextPage)
  if 0 ≤ next ∧ next < 2 ^ 32 then next.toNat else 1

/-- The position the next staged row takes. -/
def basePosition (positions : List ℤ) : ℤ := positions.foldl max (-1) + 1

/-- Read the listing's `starred_at` text as a `timestamptz`. -/
def stagedTime (k : Contracts) : Option String → Except CatalogError (Option Time)
  | none => .ok none
  | some text => (k.timestamp text).elim (.error (.query .invalidText)) fun t => .ok (some t)

/-- The staged rows of one page. -/
def stagedItems (k : Contracts) (runId : Uuid) (base : ℤ) (items : List StarredItem) :
    Except CatalogError (List SnapshotItem) :=
  items.zipIdx.mapM fun (item, offset) => do
    let starredAt ← stagedTime k item.starredAt
    pure ⟨runId, base + offset, item.repo.providerRepositoryId, starredAt⟩

/-- The listing's `starred_at` can be read. -/
def StarredItem.readable (k : Contracts) (item : StarredItem) : Bool :=
  item.starredAt.all fun text => (k.timestamp text).isSome

/-- The staged row of one item. -/
def StarredItem.stagedAs (k : Contracts) (runId : Uuid) (position : ℤ) (item : StarredItem) :
    SnapshotItem :=
  ⟨runId, position, item.repo.providerRepositoryId, item.starredAt.bind k.timestamp⟩

theorem stagedTime_eq_ok {k : Contracts} {item : StarredItem} {starredAt : Option Time} :
    stagedTime k item.starredAt = .ok starredAt ↔
      item.readable k = true ∧ starredAt = item.starredAt.bind k.timestamp := by
  unfold stagedTime StarredItem.readable
  cases item.starredAt with
  | none => simp [eq_comm]
  | some text =>
    cases htime : k.timestamp text with
    | none => simp [htime]
    | some t => simp [htime, eq_comm]

/-- A page is staged exactly when every `starred_at` of it can be read. -/
theorem stagedItems_eq_ok {k : Contracts} {runId : Uuid} {base : ℤ} {items : List StarredItem}
    {rows : List SnapshotItem} :
    stagedItems k runId base items = .ok rows ↔
      (∀ item ∈ items, item.readable k = true) ∧
        rows = items.zipIdx.map fun p => p.1.stagedAs k runId (base + p.2) := by
  have hall : (∀ p ∈ items.zipIdx, p.1.readable k = true) ↔
      ∀ item ∈ items, item.readable k = true := by
    constructor
    · intro h item hitem
      obtain ⟨n, hn⟩ := List.getElem?_of_mem hitem
      exact h (item, n) (List.mk_mem_zipIdx_iff_getElem?.mpr hn)
    · intro h p hp
      exact h p.1 (List.fst_mem_of_mem_zipIdx hp)
  rw [← hall]
  refine mapM_eq_ok fun p row => ?_
  cases htime : stagedTime k p.1.starredAt with
  | error e =>
    have hbad : p.1.readable k ≠ true := by
      intro hread
      rw [stagedTime_eq_ok.mpr ⟨hread, rfl⟩] at htime
      cases htime
    simp [bind, Except.bind, htime, hbad]
  | ok t =>
    obtain ⟨hread, rfl⟩ := stagedTime_eq_ok.mp htime
    simp [bind, Except.bind, pure, Except.pure, htime, hread, StarredItem.stagedAs, eq_comm]

/-- The transaction of `record_page`: staged items, the page checkpoint and the statistics. -/
def recordPage (k : Contracts) (checkpointId : Uuid) (now : Time) (runId : Uuid) (page : ℕ)
    (items : List StarredItem) : Tx Unit := do
  let rows ← attempt fun db =>
    stagedItems k runId (basePosition ((db.snapshotItems.filter fun i =>
      decide (i.syncRunId = runId)).map (·.position))) items
  write .snapshotItems fun db => db.snapshotItems ++ rows
  insertCheckpoint ⟨checkpointId, runId, page + 1, none, none, now⟩
  updateSyncRun runId fun r =>
    { r with
      pagesProcessed := r.pagesProcessed + 1
      itemsObserved := r.itemsObserved + clampInteger items.length }

/-- What staging a page writes. -/
theorem recordPage_spec {k : Contracts} {checkpointId : Uuid} {now : Time} {runId : Uuid} {page : ℕ}
    {items : List StarredItem} {c c' : Catalog} {u : Unit}
    (h : recordPage k checkpointId now runId page items c = .ok (u, c')) :
    (∀ item ∈ items, item.readable k = true) ∧
      c'.tables = { c.tables with
        snapshotItems := c.tables.snapshotItems ++ items.zipIdx.map fun p =>
          p.1.stagedAs k runId (basePosition ((c.tables.snapshotItems.filter fun i =>
            decide (i.syncRunId = runId)).map (·.position)) + p.2)
        syncCheckpoints := c.tables.syncCheckpoints ++
          [⟨checkpointId, runId, page + 1, none, none, now⟩]
        syncRuns := updateWhere (fun r => decide (r.syncRunId = runId)) (fun r =>
          { r with
            pagesProcessed := r.pagesProcessed + 1
            itemsObserved := r.itemsObserved + clampInteger items.length }) c.tables.syncRuns } := by
  obtain ⟨rows, c₁, hread, hrest⟩ := Tx.bind_eq_ok.mp h
  obtain ⟨hrows, rfl⟩ := attempt_eq_ok.mp hread
  obtain ⟨hreadable, rfl⟩ := stagedItems_eq_ok.mp hrows
  obtain ⟨u₂, c₂, h₂, hrest⟩ := Tx.bind_eq_ok.mp hrest
  obtain ⟨u₃, c₃, h₃, h₄⟩ := Tx.bind_eq_ok.mp hrest
  refine ⟨hreadable, ?_⟩
  rw [write_eq_ok.mp h₄, write_eq_ok.mp h₃, write_eq_ok.mp h₂]
  rfl

/-! ### The authority swap -/

/-- The staged repositories of a run, in listing order, each with its staged row. -/
def stagedRepositories (runId : Uuid) (db : Database) : List (Repository × SnapshotItem) :=
  (db.snapshotItems.filter fun i => decide (i.syncRunId = runId)).filterMap fun i =>
    (repositoryOf i.providerRepositoryId db).map fun r => (r, i)

/-- Whether a run staged a provider id. -/
def stagedIn (runId : Uuid) (providerRepositoryId : ℤ) (db : Database) : Bool :=
  db.snapshotItems.any fun i =>
    decide (i.syncRunId = runId) && decide (i.providerRepositoryId = providerRepositoryId)

/-- Whether an account currently stars a repository. -/
def starredBy (accountId repositoryId : Uuid) (db : Database) : Bool :=
  db.currentStarState.any fun c =>
    decide (c.accountId = accountId) && decide (c.repositoryId = repositoryId) && c.starred

/-- `count_additions`. -/
def countAdditions (runId accountId : Uuid) (db : Database) : ℕ :=
  ((stagedRepositories runId db).filter fun p => !starredBy accountId p.1.repositoryId db).length

/-- `record_star_observations`. -/
def recordStarObservations (ids : ℕ → Uuid) (now : Time) (runId accountId : Uuid) : Tx Unit :=
  write .starObservations fun db =>
    db.starObservations ++ (stagedRepositories runId db).zipIdx.map fun (p, n) =>
      ⟨ids n, accountId, p.1.repositoryId, true, p.2.providerStarredAt, false, now⟩

/-- `record_restore_repairs`. -/
def recordRestoreRepairs (runId accountId : Uuid) : Tx Unit :=
  write .reconciliationRepairs fun db =>
    insertAllUnless (fun r => (r.syncRunId, r.repositoryId))
      (((stagedRepositories runId db).filter fun p =>
          db.currentStarState.any fun c => decide (c.accountId = accountId) &&
            decide (c.repositoryId = p.1.repositoryId) && !c.starred).map fun p =>
        (⟨runId, p.1.repositoryId, .restoreAfterMiss⟩ : ReconciliationRepair))
      db.reconciliationRepairs

/-- The star rows the promotion proposes. -/
def promotedRows (now : Time) (runId accountId : Uuid) (db : Database) : List CurrentStarState :=
  (stagedRepositories runId db).map fun p =>
    ⟨accountId, p.1.repositoryId, true, p.2.providerStarredAt, false, now, none, some runId⟩

/-- The `do update` of the promotion: the established starred-at wins. -/
def promotedRow (now : Time) (old new : CurrentStarState) : CurrentStarState :=
  { old with
    starred := true, starredAt := old.starredAt.or new.starredAt, providerStarredAtUnknown := false
    lastObservedAt := now, observedUnstarredAt := none, evidenceRunId := new.evidenceRunId }

/-- The key of a star row. -/
def CurrentStarState.key (c : CurrentStarState) : Uuid × Uuid := (c.accountId, c.repositoryId)

/-- `promote_seen_repositories`. -/
def promoteSeenRepositories (now : Time) (runId accountId : Uuid) : Tx Unit := do
  require (.query .cardinality) fun db =>
    decide ((promotedRows now runId accountId db).map CurrentStarState.key).Nodup
  write .currentStarState fun db =>
    upsertAll CurrentStarState.key (promotedRow now) (promotedRows now runId accountId db)
      db.currentStarState
  write .repositories fun db =>
    updateWhere (fun r => stagedIn runId r.providerRepositoryId db) Repository.promote
      db.repositories

/-- The starred rows of an account that the run did not stage. -/
def CurrentStarState.absentFrom (runId accountId : Uuid) (db : Database) (c : CurrentStarState) :
    Bool :=
  decide (c.accountId = accountId) && c.starred &&
    !(stagedRepositories runId db).any fun p => decide (p.1.repositoryId = c.repositoryId)

/-- The evidenced unstar of one row. -/
def CurrentStarState.unstar (now : Time) (runId : Uuid) (c : CurrentStarState) : CurrentStarState :=
  { c with
    starred := false, observedUnstarredAt := some now, evidenceRunId := some runId
    starredAt := none }

/-- The observation, repair and release of one unstarred repository. -/
def recordUnstar (observationId : Uuid) (now : Time) (runId accountId repositoryId : Uuid) :
    Tx Unit := do
  write .starObservations fun db =>
    db.starObservations ++ [⟨observationId, accountId, repositoryId, false, none, false, now⟩]
  write .reconciliationRepairs fun db =>
    insertUnless (fun r => decide (r.syncRunId = runId) && decide (r.repositoryId = repositoryId))
      ⟨runId, repositoryId, .unstarAfterDrift⟩ db.reconciliationRepairs
  write .repositories fun db =>
    updateWhere (fun r => decide (r.repositoryId = repositoryId)) Repository.release db.repositories

/-- `unstar_absent_repositories`. -/
def unstarAbsentRepositories (ids : ℕ → Uuid) (now : Time) (runId accountId : Uuid) : Tx ℕ := do
  let absent ← select fun db =>
    (db.currentStarState.filter (·.absentFrom runId accountId db)).map (·.repositoryId)
  write .currentStarState fun db =>
    updateWhere (·.absentFrom runId accountId db) (·.unstar now runId) db.currentStarState
  absent.zipIdx.forM fun (repositoryId, n) => recordUnstar (ids n) now runId accountId repositoryId
  pure absent.length

/-- The newest staged starred-at of a run. -/
def newestStaged (runId : Uuid) (db : Database) : Option Time :=
  ((db.snapshotItems.filter fun i => decide (i.syncRunId = runId)).filterMap
    (·.providerStarredAt)).foldl (fun best t => some (best.elim t (max t))) none

/-- Move an account's watermark forward, never back. -/
def raiseWatermark (accountId : Uuid) (mark : Time) (t : List StarWatermark) : List StarWatermark :=
  upsertWhere (fun w => decide (w.accountId = accountId))
    (fun w => { w with highWaterMark := max w.highWaterMark mark }) ⟨accountId, mark⟩ t

/-- `reanchor_watermark`. -/
def reanchorWatermark (runId accountId : Uuid) : Tx Unit :=
  write .starWatermarks fun db =>
    match newestStaged runId db with
    | some newest => raiseWatermark accountId newest db.starWatermarks
    | none => db.starWatermarks

/-- `clear_staging`. -/
def clearStaging (runId : Uuid) : Tx Unit :=
  write .snapshotItems fun db =>
    deleteWhere (fun i => decide (i.syncRunId = runId)) db.snapshotItems

/-- `complete_run_row`. -/
def completeRunRow (now : Time) (runId : Uuid) (additions unstars : ℕ) : Tx (ℕ × ℕ) := do
  updateSyncRun runId fun r =>
    { r with
      status := .completed, finishedAt := some now, additions := clampInteger additions
      unstars := clampInteger unstars }
  fetchOne fun db =>
    (db.syncRuns.find? fun r => decide (r.syncRunId = runId)).map fun r =>
      (r.pagesProcessed.toNat, r.itemsObserved.toNat)

/-- `apply_authority_and_complete`.  `ids` draws the observation ids of the starred rows, `unstarIds`
those of the unstarred ones. -/
def applyAuthorityAndComplete (ids unstarIds : ℕ → Uuid) (now : Time) (runId accountId : Uuid) :
    Tx (ℕ × ℕ × ℕ × ℕ) := do
  let additions ← select (countAdditions runId accountId)
  recordStarObservations ids now runId accountId
  recordRestoreRepairs runId accountId
  promoteSeenRepositories now runId accountId
  let unstarCount ← unstarAbsentRepositories unstarIds now runId accountId
  reanchorWatermark runId accountId
  clearStaging runId
  let (pagesProcessed, itemsObserved) ← completeRunRow now runId additions unstarCount
  pure (pagesProcessed, itemsObserved, additions, unstarCount)

/-! ### Frames -/

theorem touches_recordPage (k : Contracts) (checkpointId : Uuid) (now : Time) (runId : Uuid)
    (page : ℕ) (items : List StarredItem) :
    Touches [.snapshotItems, .syncCheckpoints, .syncRuns]
      (recordPage k checkpointId now runId page items) :=
  (Touches.attempt _).bind fun _ => (Touches.write (by decide) _).bind fun _ =>
    (Touches.write (by decide) _).bind fun _ => Touches.write (by decide) _

theorem touches_promoteSeenRepositories (now : Time) (runId accountId : Uuid) :
    Touches [.currentStarState, .repositories] (promoteSeenRepositories now runId accountId) :=
  (Touches.require _ _).bind fun _ => (Touches.write (by decide) _).bind fun _ =>
    Touches.write (by decide) _

theorem touches_recordUnstar (observationId : Uuid) (now : Time) (runId accountId r : Uuid) :
    Touches [.starObservations, .reconciliationRepairs, .repositories]
      (recordUnstar observationId now runId accountId r) :=
  (Touches.write (by decide) _).bind fun _ => (Touches.write (by decide) _).bind fun _ =>
    Touches.write (by decide) _

theorem touches_unstarAbsentRepositories (ids : ℕ → Uuid) (now : Time) (runId accountId : Uuid) :
    Touches [.currentStarState, .starObservations, .reconciliationRepairs, .repositories]
      (unstarAbsentRepositories ids now runId accountId) := by
  refine (Touches.select _).bind fun absent => (Touches.write (by decide) _).bind fun _ => ?_
  refine Touches.bind ?_ fun _ => Touches.pure _
  exact Touches.forM (fun p => (touches_recordUnstar _ _ _ _ _).mono (by decide)) _

theorem touches_completeRunRow (now : Time) (runId : Uuid) (additions unstars : ℕ) :
    Touches [.syncRuns] (completeRunRow now runId additions unstars) :=
  (Touches.write (by decide) _).bind fun _ => Touches.fetchOne _

theorem touches_applyAuthorityAndComplete (ids unstarIds : ℕ → Uuid) (now : Time)
    (runId accountId : Uuid) :
    Touches [.starObservations, .reconciliationRepairs, .currentStarState, .repositories,
      .starWatermarks, .snapshotItems, .syncRuns]
      (applyAuthorityAndComplete ids unstarIds now runId accountId) :=
  (Touches.select _).bind fun _ => (Touches.write (by decide) _).bind fun _ =>
    (Touches.write (by decide) _).bind fun _ =>
    ((touches_promoteSeenRepositories _ _ _).mono (by decide)).bind fun _ =>
    ((touches_unstarAbsentRepositories _ _ _ _).mono (by decide)).bind fun _ =>
    (Touches.write (by decide) _).bind fun _ => (Touches.write (by decide) _).bind fun _ =>
    ((touches_completeRunRow _ _ _ _).mono (by decide)).bind fun _ => Touches.pure _

end GithubCatalog
