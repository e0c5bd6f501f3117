import GithubCatalog.Catalog

/-!
# What works for one run

A run owns its row, its checkpoints and its staging.  Every statement over these tables names the run
it works for, so a flow that works for another run leaves them as they are.

* `RunKept` - the row, the checkpoints and the staging of a run are unchanged;
* `Operation.worksFor` - the run an operation names;
* `runKept_step` - an operation of another run, other than an erasure, keeps them.
-/

namespace GithubCatalog

open Relational Transact

/-- The rows of a table that belong to a run. -/
def stagedOf (runId : Uuid) (db : Database) : List SnapshotItem :=
  db.snapshotItems.filter fun i => decide (i.syncRunId = runId)

def checkpointsOf (runId : Uuid) (db : Database) : List SyncCheckpoint :=
  db.syncCheckpoints.filter fun c => decide (c.syncRunId = runId)

def runsOf (runId : Uuid) (db : Database) : List SyncRun :=
  db.syncRuns.filter fun r => decide (r.syncRunId = runId)

/-- What a run owns is unchanged. -/
structure RunKept (runId : Uuid) (db db' : Database) : Prop where
  staged : stagedOf runId db' = stagedOf runId db
  checkpoints : checkpointsOf runId db' = checkpointsOf runId db
  runs : runsOf runId db' = runsOf runId db

instance (runId : Uuid) : Std.Refl (RunKept runId) := ⟨fun _ => ⟨rfl, rfl, rfl⟩⟩

instance (runId : Uuid) : IsTrans Database (RunKept runId) :=
  ⟨fun _ _ _ h h' => ⟨h'.staged.trans h.staged, h'.checkpoints.trans h.checkpoints,
    h'.runs.trans h.runs⟩⟩

/-- The tables a run owns rows of. -/
def runTables : List Table := [.snapshotItems, .syncCheckpoints, .syncRuns]

theorem runKept_of_agreeOff {ts : List Table} {db db' : Database} (h : AgreeOff ts db db')
    (ht : ∀ t ∈ runTables, t ∉ ts) (runId : Uuid) : RunKept runId db db' where
  staged := by
    have hsame : db'.snapshotItems = db.snapshotItems := h .snapshotItems (ht _ (by decide))
    rw [stagedOf, stagedOf, hsame]
  checkpoints := by
    have hsame : db'.syncCheckpoints = db.syncCheckpoints := h .syncCheckpoints (ht _ (by decide))
    rw [checkpointsOf, checkpointsOf, hsame]
  runs := by
    have hsame : db'.syncRuns = db.syncRuns := h .syncRuns (ht _ (by decide))
    rw [runsOf, runsOf, hsame]

theorem relates_runKept_of_touches {ts : List Table} {α : Type} {x : Tx α} (hx : Touches ts x)
    (ht : ∀ t ∈ runTables, t ∉ ts) (runId : Uuid) : Tx.Relates (RunKept runId) x :=
  Tx.Relates.mono hx fun _ _ h => runKept_of_agreeOff h ht runId

theorem relates_runKept_write {t : Table} {runId : Uuid} (ht : t ∉ runTables)
    (f : Database → t.Rows) : Tx.Relates (RunKept runId) (write t f) := by
  refine relates_runKept_of_touches (Touches.write (List.mem_singleton.mpr rfl) f) ?_ _
  intro u hu hmem
  exact ht (List.mem_singleton.mp hmem ▸ hu)

/-! ### Statements of another run -/

section others

variable {α : Type} {runId other : Uuid}

/-- Rows of another run appended, updated or deleted. -/
theorem filter_append_other (run : α → Uuid) (hother : other ≠ runId) {rows : List α}
    (hrows : ∀ a ∈ rows, run a = other) (t : List α) :
    (t ++ rows).filter (fun a => decide (run a = runId)) =
      t.filter fun a => decide (run a = runId) := by
  have hnone : rows.filter (fun a => decide (run a = runId)) = [] := by
    rw [List.filter_eq_nil_iff]
    intro a ha
    rw [hrows a ha]
    simpa using hother
  rw [List.filter_append, hnone, List.append_nil]

theorem filter_updateWhere_other (run : α → Uuid) (hother : other ≠ runId) {p : α → Bool}
    {f : α → α} (hp : ∀ a, p a = true → run a = other) (hf : ∀ a, run (f a) = run a) (t : List α) :
    (updateWhere p f t).filter (fun a => decide (run a = runId)) =
      t.filter fun a => decide (run a = runId) := by
  rw [filter_updateWhere (fun a => by rw [hf]), updateWhere]
  refine (List.map_congr_left fun a ha => ?_).trans (List.map_id _)
  have hown := (List.mem_filter.mp ha).2
  rw [if_neg]
  · rfl
  · intro hpa
    rw [decide_eq_true_eq, hp a hpa] at hown
    exact hother hown

theorem filter_deleteWhere_other (run : α → Uuid) (hother : other ≠ runId) (t : List α) :
    (deleteWhere (fun a => decide (run a = other)) t).filter (fun a => decide (run a = runId)) =
      t.filter fun a => decide (run a = runId) := by
  rw [deleteWhere, List.filter_filter]
  apply List.filter_congr
  intro a _
  by_cases hown : run a = runId
  · simp [hown, Ne.symm hother]
  · simp [hown]

theorem relates_runKept_items {f : Database → List SnapshotItem}
    (h : ∀ db, (f db).filter (fun i => decide (i.syncRunId = runId)) = stagedOf runId db) :
    Tx.Relates (RunKept runId) (write .snapshotItems f) :=
  relates_write fun db _ => ⟨h db, rfl, rfl⟩

theorem relates_runKept_insertCheckpoint (hother : other ≠ runId) {row : SyncCheckpoint}
    (hrow : row.syncRunId = other) : Tx.Relates (RunKept runId) (insertCheckpoint row) := by
  refine relates_write fun db _ => ⟨rfl, ?_, rfl⟩
  exact filter_append_other SyncCheckpoint.syncRunId hother
    (fun a ha => by rw [List.mem_singleton.mp ha, hrow]) _

theorem relates_runKept_updateSyncRun (hother : other ≠ runId) {f : SyncRun → SyncRun}
    (hf : ∀ r, (f r).syncRunId = r.syncRunId) :
    Tx.Relates (RunKept runId) (updateSyncRun other f) := by
  refine relates_write fun db _ => ⟨rfl, rfl, ?_⟩
  exact filter_updateWhere_other SyncRun.syncRunId hother (fun _ ha => of_decide_eq_true ha) hf _

theorem relates_runKept_insertSyncRun (hother : other ≠ runId) (mode : SyncMode) (accountId : Uuid)
    (now : Time) : Tx.Relates (RunKept runId) (insertSyncRun mode other accountId now) := by
  refine relates_write fun db _ => ⟨rfl, rfl, ?_⟩
  exact filter_append_other SyncRun.syncRunId hother
    (fun a ha => by rw [List.mem_singleton.mp ha]; rfl) _

theorem relates_runKept_failRun (hother : other ≠ runId) (now : Time) (reason : String) :
    Tx.Relates (RunKept runId) (failRun now other reason) := by
  refine Tx.Relates.bind (relates_write fun db _ => ⟨rfl, rfl, ?_⟩) fun _ => ?_
  · refine filter_updateWhere_other SyncRun.syncRunId hother ?_ ?_ _
    · intro a ha
      exact of_decide_eq_true (Bool.and_eq_true_iff.mp ha).1
    · exact fun _ => rfl
  · refine Tx.Relates.bind (relates_runKept_items fun db => ?_) fun _ => ?_
    · exact filter_deleteWhere_other SnapshotItem.syncRunId hother _
    · exact relates_runKept_write (by decide) _

theorem relates_runKept_recordPage (hother : other ≠ runId) (k : Contracts) (id : Uuid) (now : Time)
    (page : ℕ) (items : List StarredItem) :
    Tx.Relates (RunKept runId) (recordPage k id now other page items) := by
  intro c u c' h
  rw [(recordPage_spec h).2]
  refine ⟨?_, ?_, ?_⟩
  · refine filter_append_other SnapshotItem.syncRunId hother (fun a ha => ?_) _
    obtain ⟨p, -, rfl⟩ := List.mem_map.mp ha
    rfl
  · exact filter_append_other SyncCheckpoint.syncRunId hother
      (fun a ha => by rw [List.mem_singleton.mp ha]) _
  · refine filter_updateWhere_other SyncRun.syncRunId hother ?_ ?_ _
    · exact fun _ ha => of_decide_eq_true ha
    · exact fun _ => rfl

theorem relates_runKept_applyAuthority (hother : other ≠ runId) (ids unstarIds : ℕ → Uuid)
    (now : Time) (accountId : Uuid) :
    Tx.Relates (RunKept runId) (applyAuthorityAndComplete ids unstarIds now other accountId) := by
  refine (relates_select _).bind fun _ => (relates_runKept_write (by decide) _).bind fun _ =>
    (relates_runKept_write (by decide) _).bind fun _ => Tx.Relates.bind ?_ fun _ =>
    Tx.Relates.bind ?_ fun _ => (relates_runKept_write (by decide) _).bind fun _ =>
    Tx.Relates.bind ?_ fun _ => Tx.Relates.bind ?_ fun _ => Tx.Relates.pure _
  · exact relates_runKept_of_touches (touches_promoteSeenRepositories _ _ _) (by decide) _
  · exact relates_runKept_of_touches (touches_unstarAbsentRepositories _ _ _ _) (by decide) _
  · exact relates_runKept_items fun db => filter_deleteWhere_other SnapshotItem.syncRunId hother _
  · refine Tx.Relates.bind (relates_runKept_updateSyncRun hother ?_) fun _ => relates_fetchOne _
    exact fun _ => rfl

theorem relates_runKept_recordIncrementalPage (hother : other ≠ runId) (id : Uuid) (now : Time)
    (page ingested : ℕ) (oldestSeen : Option Time) :
    Tx.Relates (RunKept runId) (recordIncrementalPage id now other page ingested oldestSeen) := by
  refine (relates_runKept_insertCheckpoint hother ?_).bind fun _ =>
    relates_runKept_updateSyncRun hother ?_
  · rfl
  · exact fun _ => rfl

theorem relates_runKept_completeRun (hother : other ≠ runId) (now : Time) (accountId : Uuid)
    (page observed : ℕ) (oldest : Option Time) :
    Tx.Relates (RunKept runId) (completeRun now other accountId page observed oldest) := by
  refine Tx.Relates.bind ?_ fun _ => relates_runKept_updateSyncRun hother ?_
  · exact relates_runKept_write (by decide) _
  · exact fun _ => rfl

theorem relates_runKept_recordListPage (hother : other ≠ runId) (id : Uuid) (now : Time)
    (page : UserListsPage) : Tx.Relates (RunKept runId) (recordListPage id now other page) := by
  refine (relates_select _).bind fun base => Tx.Relates.bind ?_ fun _ =>
    (relates_runKept_insertCheckpoint hother ?_).bind fun _ =>
      relates_runKept_updateSyncRun hother ?_
  · exact relates_runKept_write (by decide) _
  · rfl
  · exact fun _ => rfl

theorem relates_runKept_applyListAuthority (hother : other ≠ runId)
    (listIds memberIds removalIds : ℕ → Uuid) (now : Time) (accountId : Uuid) :
    Tx.Relates (RunKept runId)
      (applyListAuthorityAndComplete listIds memberIds removalIds now other accountId) := by
  refine (relates_runKept_write (by decide) _).bind fun _ => (relates_select _).bind fun _ =>
    (relates_runKept_write (by decide) _).bind fun _ => Tx.Relates.bind ?_ fun _ =>
    Tx.Relates.bind ?_ fun _ => (relates_runKept_write (by decide) _).bind fun _ =>
    (relates_runKept_write (by decide) _).bind fun _ => Tx.Relates.bind ?_ fun _ =>
    Tx.Relates.pure _
  · exact relates_runKept_of_touches (touches_promoteSeenPairs _ _ _) (by decide) _
  · exact relates_runKept_of_touches (touches_demoteAbsentPairs _ _ _ _) (by decide) _
  · refine Tx.Relates.bind (relates_runKept_updateSyncRun hother ?_) fun _ => relates_fetchOne _
    exact fun _ => rfl

end others

/-! ### Operations of other runs -/

namespace Operation

/-- The run an operation works for. -/
def worksFor : Operation → Option Uuid
  | .openRun _ runId _ _ | .recordPage _ _ runId _ _ | .failRun _ runId _
  | .applyAuthority _ _ _ runId _ | .recordIngest _ _ runId _ _ _
  | .recordIncrementalPage _ _ runId _ _ _ | .completeRun _ runId _ _ _ _
  | .recordListPage _ _ runId _ | .applyListAuthority _ _ _ _ runId _ => some runId
  | _ => none

end Operation

/-- **Other runs.**  An operation that works for another run keeps what a run owns. -/
theorem runKept_step {k : Contracts} {runId : Uuid} {op : Operation}
    (hother : op.worksFor ≠ some runId) (herase : op.erases = false) (c : Catalog) :
    RunKept runId c.tables (step k c op).tables := by
  have hframe : (runTables.all fun t => op.leaves t) = true →
      RunKept runId c.tables (op.commit k c).tables := by
    intro hleaves
    refine runKept_of_agreeOff (op.commit_agreeOff k c) ?_ runId
    intro t ht
    simpa [Operation.leaves] using List.all_eq_true.mp hleaves t ht
  have hrun : ∀ {r : Uuid}, some r ≠ some runId → r ≠ runId := fun h heq => h (by rw [heq])
  unfold step
  split
  · cases op with
    | openRun => exact (relates_runKept_insertSyncRun (hrun hother) _ _ _).commit c
    | recordPage => exact (relates_runKept_recordPage (hrun hother) _ _ _ _ _).commit c
    | failRun => exact (relates_runKept_failRun (hrun hother) _ _).commit c
    | applyAuthority => exact (relates_runKept_applyAuthority (hrun hother) _ _ _ _).commit c
    | recordIncrementalPage =>
      exact (relates_runKept_recordIncrementalPage (hrun hother) _ _ _ _ _).commit c
    | completeRun => exact (relates_runKept_completeRun (hrun hother) _ _ _ _ _).commit c
    | recordListPage => exact (relates_runKept_recordListPage (hrun hother) _ _ _).commit c
    | applyListAuthority =>
      exact (relates_runKept_applyListAuthority (hrun hother) _ _ _ _ _).commit c
    | eraseAccount => cases herase
    | _ => exact hframe rfl
  · exact Std.Refl.refl _

end GithubCatalog
