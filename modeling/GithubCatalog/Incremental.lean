import GithubCatalog.Snapshot

/-!
# The incremental scan (`incremental.rs`)

The newest-first listing is read page by page; the entries strictly newer than the watermark are
ingested one transaction each, and once coverage is proven the run completes and the watermark moves.
-/

namespace GithubCatalog

open Relational

/-- `read_watermark`. -/
def readWatermark (accountId : Uuid) (db : Database) : Option Time :=
  (db.starWatermarks.find? fun w => decide (w.accountId = accountId)).map (·.highWaterMark)

/-- Why the ordering proof of a page broke. -/
inductive OrderFault where
  | missingStarredAt
  | unparsableStarredAt
  | increased (previous : Option Time) (timestamp : Time)
deriving DecidableEq

/-- `order_proof`: the timestamps of a page are present, well formed and never increase. -/
def orderProof (k : Contracts) :
    List StarredItem → Option Time → Except OrderFault (List (Time × StarredItem))
  | [], _ => .ok []
  | item :: items, previous =>
    match item.starredAt with
    | none => .error .missingStarredAt
    | some raw =>
      match k.rfc3339 raw with
      | none => .error .unparsableStarredAt
      | some timestamp =>
        if previous.any fun seen => decide (seen < timestamp) then
          .error (.increased previous timestamp)
        else (orderProof k items (some timestamp)).map ((timestamp, item) :: ·)

/-- The strictly newer entries of a proven page. -/
def ingestedWindow (watermark : Time) (parsed : List (Time × StarredItem)) :
    List (Time × StarredItem) :=
  parsed.filter fun entry => decide (watermark < entry.1)

/-- The star row an ingested entry proposes. -/
def ingestedRow (now seenAt : Time) (runId accountId repositoryId : Uuid) : CurrentStarState :=
  ⟨accountId, repositoryId, true, some seenAt, false, now, none, some runId⟩

/-- The `do update` of an ingested entry: unlike the snapshot's it leaves the unknown flag alone. -/
def ingestOver (now seenAt : Time) (runId : Uuid) (old : CurrentStarState) : CurrentStarState :=
  { old with
    starred := true, starredAt := old.starredAt.or (some seenAt), lastObservedAt := now
    observedUnstarredAt := none, evidenceRunId := some runId }

/-- `record_ingest`. -/
def recordIngest (observationId : Uuid) (now : Time) (runId accountId repositoryId : Uuid)
    (seenAt : Time) : Tx Unit := do
  write .starObservations fun db =>
    db.starObservations ++
      [⟨observationId, accountId, repositoryId, true, some seenAt, false, now⟩]
  write .currentStarState fun db =>
    upsertWhere (fun c => decide (c.key = (accountId, repositoryId)))
      (ingestOver now seenAt runId) (ingestedRow now seenAt runId accountId repositoryId)
      db.currentStarState
  write .repositories fun db =>
    updateWhere (fun r => decide (r.repositoryId = repositoryId)) Repository.promote db.repositories

/-- `record_incremental_page`. -/
def recordIncrementalPage (checkpointId : Uuid) (now : Time) (runId : Uuid) (page ingested : ℕ)
    (oldestSeen : Option Time) : Tx Unit := do
  insertCheckpoint ⟨checkpointId, runId, page + 1, oldestSeen, none, now⟩
  updateSyncRun runId fun r =>
    { r with
      pagesProcessed := r.pagesProcessed + 1
      itemsObserved := r.itemsObserved + clampInteger ingested }

/-- `complete_run`. -/
def completeRun (now : Time) (runId accountId : Uuid) (page itemsObserved : ℕ)
    (oldestIngested : Option Time) : Tx Unit := do
  write .starWatermarks fun db =>
    match oldestIngested with
    | some mark => raiseWatermark accountId mark db.starWatermarks
    | none => db.starWatermarks
  updateSyncRun runId fun r =>
    { r with
      status := .completed, finishedAt := some now, pagesProcessed := clampInteger page
      itemsObserved := clampInteger itemsObserved }

/-! ### Frames -/

theorem touches_recordIngest (observationId : Uuid) (now : Time) (runId accountId r : Uuid)
    (seenAt : Time) :
    Touches [.starObservations, .currentStarState, .repositories]
      (recordIngest observationId now runId accountId r seenAt) :=
  (Touches.write (by decide) _).bind fun _ => (Touches.write (by decide) _).bind fun _ =>
    Touches.write (by decide) _

theorem touches_recordIncrementalPage (checkpointId : Uuid) (now : Time) (runId : Uuid)
    (page ingested : ℕ) (oldestSeen : Option Time) :
    Touches [.syncCheckpoints, .syncRuns]
      (recordIncrementalPage checkpointId now runId page ingested oldestSeen) :=
  (Touches.write (by decide) _).bind fun _ => Touches.write (by decide) _

theorem touches_completeRun (now : Time) (runId accountId : Uuid) (page itemsObserved : ℕ)
    (oldestIngested : Option Time) :
    Touches [.starWatermarks, .syncRuns]
      (completeRun now runId accountId page itemsObserved oldestIngested) :=
  (Touches.write (by decide) _).bind fun _ => Touches.write (by decide) _

end GithubCatalog
