import GithubCatalog.Identity
import GithubCatalog.Contracts

/-!
# Synchronization runs and the observed listings they read

What the three synchronization flows share: the provider's listing entries, opening and resuming a
run, its newest checkpoint, and terminating a failed run (`snapshot.rs`, `fail_run`).

`open_or_resume_run` is two statements outside a transaction: a read of the newest interrupted run and
the insertion of a fresh one.  They are two definitions here, so that another writer may stand between
them.
-/

namespace GithubCatalog

open Relational Transact

/-! ### Listing entries -/

/-- `ProviderRepositoryBody`. -/
structure ProviderRepositoryBody where
  providerRepositoryId : ℤ
  fullName : String
  description : Option String := none
  language : Option String := none
  stargazers : ℤ := 0
  topics : List String := []
  defaultBranch : Option String := none
  pushedAt : Option String := none
deriving DecidableEq

/-- The alias value `owner_name()` of a body spells, when both halves are non-empty. -/
def ownerNameValue (fullName : String) : Option String :=
  match splitOnce '/' fullName with
  | some (owner, name) => if owner = "" || name = "" then none else some (owner ++ "/" ++ name)
  | none => none

/-- One starred-listing entry. -/
structure StarredItem where
  starredAt : Option String
  repo : ProviderRepositoryBody
deriving DecidableEq

/-! ### Runs -/

/-- `order by started_at desc, sync_run_id desc`: whether `a` comes before `b`. -/
def SyncRun.newer (a b : SyncRun) : Bool :=
  decide (b.startedAt < a.startedAt) ||
    (decide (a.startedAt = b.startedAt) && decide (b.syncRunId.toNat < a.syncRunId.toNat))

/-- The first row of a table under a strict order. -/
def firstBy {α : Type} (before : α → α → Bool) : List α → Option α
  | [] => none
  | a :: as =>
    match firstBy before as with
    | none => some a
    | some b => if before b a then some b else some a

/-- The row a search returns is one of the table's. -/
theorem firstBy_mem {α : Type} {before : α → α → Bool} {t : List α} {a : α}
    (h : firstBy before t = some a) : a ∈ t := by
  induction t generalizing a with
  | nil => cases h
  | cons b t ih =>
    unfold firstBy at h
    cases hrest : firstBy before t with
    | none =>
      rw [hrest] at h
      cases h
      exact List.mem_cons_self
    | some d =>
      rw [hrest] at h
      dsimp only at h
      split at h
      · cases h
        exact List.mem_cons_of_mem _ (ih hrest)
      · cases h
        exact List.mem_cons_self

theorem firstBy_eq_none {α : Type} {before : α → α → Bool} {t : List α}
    (h : firstBy before t = none) : t = [] := by
  cases t with
  | nil => rfl
  | cons a t =>
    unfold firstBy at h
    split at h
    · cases h
    · split at h <;> cases h

/-- A strictly newest last row is the one a search finds. -/
theorem firstBy_append {α : Type} {before : α → α → Bool} {t : List α} {a : α}
    (h : ∀ b ∈ t, before a b = true) : firstBy before (t ++ [a]) = some a := by
  induction t with
  | nil => rfl
  | cons b t ih =>
    rw [List.cons_append, firstBy, ih fun c hc => h c (List.mem_cons_of_mem _ hc)]
    simp [h b List.mem_cons_self]

/-- The account's newest interrupted run of a mode. -/
def interruptedRun (mode : SyncMode) (accountId : Uuid) (db : Database) : Option SyncRun :=
  firstBy SyncRun.newer (db.syncRuns.filter fun r =>
    decide (r.accountId = accountId) && decide (r.mode = mode) && decide (r.status = .running))

/-- `order by recorded_at desc, next_page desc`: whether `a` comes before `b`. -/
def SyncCheckpoint.newer (a b : SyncCheckpoint) : Bool :=
  decide (b.recordedAt < a.recordedAt) ||
    (decide (a.recordedAt = b.recordedAt) && decide (b.nextPage < a.nextPage))

/-- The newest checkpoint of a run. -/
def latestCheckpoint (runId : Uuid) (db : Database) : Option SyncCheckpoint :=
  firstBy SyncCheckpoint.newer (db.syncCheckpoints.filter fun c => decide (c.syncRunId = runId))

/-- A freshly inserted run row. -/
def newSyncRun (runId accountId : Uuid) (mode : SyncMode) (now : Time) : SyncRun :=
  ⟨runId, accountId, mode, .running, none, 0, 0, 0, 0, 0, 0, now, none⟩

/-- The inserting half of `open_or_resume_run`. -/
def insertSyncRun (mode : SyncMode) (runId accountId : Uuid) (now : Time) : Tx Unit :=
  write .syncRuns fun db => db.syncRuns ++ [newSyncRun runId accountId mode now]

/-- A new checkpoint row of a run. -/
def insertCheckpoint (row : SyncCheckpoint) : Tx Unit :=
  write .syncCheckpoints fun db => db.syncCheckpoints ++ [row]

/-- `i32::try_from(n).unwrap_or(i32::MAX)`. -/
def clampInteger (n : ℕ) : ℤ := min (n : ℤ) (2 ^ 31 - 1)

/-- Update the row of one run. -/
def updateSyncRun (runId : Uuid) (f : SyncRun → SyncRun) : Tx Unit :=
  write .syncRuns fun db => updateWhere (fun r => decide (r.syncRunId = runId)) f db.syncRuns

/-- `fail_run`: record the reason on a running run and clear its staging. -/
def failRun (now : Time) (runId : Uuid) (reason : String) : Tx Unit := do
  write .syncRuns fun db =>
    updateWhere (fun r => decide (r.syncRunId = runId) && decide (r.status = .running))
      (fun r => { r with status := .failed, finishedAt := some now, failureReason := some reason })
      db.syncRuns
  write .snapshotItems fun db =>
    deleteWhere (fun i => decide (i.syncRunId = runId)) db.snapshotItems
  write .listSnapshotItems fun db =>
    deleteWhere (fun i => decide (i.syncRunId = runId)) db.listSnapshotItems

/-- The run rows after `fail_run`. -/
theorem failRun_runs {now : Time} {runId : Uuid} {reason : String} {c c' : Catalog} {u : Unit}
    (h : failRun now runId reason c = .ok (u, c')) :
    c'.tables.syncRuns = updateWhere
      (fun r => decide (r.syncRunId = runId) && decide (r.status = .running))
      (fun r => { r with status := .failed, finishedAt := some now, failureReason := some reason })
      c.tables.syncRuns := by
  obtain ⟨u₁, c₁, h₁, hrest⟩ := Tx.bind_eq_ok.mp h
  obtain ⟨u₂, c₂, h₂, h₃⟩ := Tx.bind_eq_ok.mp hrest
  rw [write_eq_ok.mp h₃, write_eq_ok.mp h₂, write_eq_ok.mp h₁]
  rfl

/-! ### Staged rows and repositories -/

/-- The repository of a provider id; `provider_repository_id` is unique. -/
def repositoryOf (providerRepositoryId : ℤ) (db : Database) : Option Repository :=
  db.repositories.find? fun r => decide (r.providerRepositoryId = providerRepositoryId)

/-- Star evidence promotes an unclassified repository to `auto`. -/
def Repository.promote (r : Repository) : Repository :=
  if r.mode = none then { r with mode := some .auto } else r

/-- An evidenced removal releases `auto` back to unclassified. -/
def Repository.release (r : Repository) : Repository :=
  if r.mode = some .auto then { r with mode := none } else r

@[simp] theorem Repository.promote_repositoryId (r : Repository) :
    r.promote.repositoryId = r.repositoryId := by
  unfold promote
  split <;> rfl

@[simp] theorem Repository.promote_providerRepositoryId (r : Repository) :
    r.promote.providerRepositoryId = r.providerRepositoryId := by
  unfold promote
  split <;> rfl

@[simp] theorem Repository.release_repositoryId (r : Repository) :
    r.release.repositoryId = r.repositoryId := by
  unfold release
  split <;> rfl

@[simp] theorem Repository.release_providerRepositoryId (r : Repository) :
    r.release.providerRepositoryId = r.providerRepositoryId := by
  unfold release
  split <;> rfl

/-! ### Frames -/

theorem touches_insertSyncRun (mode : SyncMode) (runId accountId : Uuid) (now : Time) :
    Touches [.syncRuns] (insertSyncRun mode runId accountId now) :=
  Touches.write (by decide) _

theorem touches_failRun (now : Time) (runId : Uuid) (reason : String) :
    Touches [.syncRuns, .snapshotItems, .listSnapshotItems] (failRun now runId reason) :=
  (Touches.write (by decide) _).bind fun _ => (Touches.write (by decide) _).bind fun _ =>
    Touches.write (by decide) _

end GithubCatalog
