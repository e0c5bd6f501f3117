import GithubCatalog.Snapshot

/-!
# The native star-list snapshot (`star_lists.rs`)

A complete enumeration of an account's lists is staged as (list, repository) pairs and then promoted
in one transaction: lists are upserted, every staged pair is observed and becomes a member, absent
pairs are demoted with evidence, absent lists are tombstoned.

`recordMembershipObservations` joins the lists by provider id alone, while its siblings also ask for
the account; the two joins are two definitions (`stagedPairsAnywhere`, `stagedPairs`).
-/

namespace GithubCatalog

open Relational

/-! ### Pages of the enumeration -/

structure UserListItem where
  providerRepositoryId : ℤ
  fullName : String
deriving DecidableEq

structure UserListNode where
  providerListId : String
  name : String
  items : List UserListItem
  itemsTruncated : Bool
deriving DecidableEq

structure UserListsPage where
  lists : List UserListNode
  nextCursor : Option String
deriving DecidableEq

/-- The alias value a listed item is observed under: exactly one separator, both halves non-empty. -/
def listedAlias (fullName : String) : Option String :=
  match splitOnce '/' fullName with
  | some (owner, name) =>
    if owner = "" || name = "" || name.toList.contains '/' then none else some fullName
  | none => none

/-- The staged rows of one page, in page order from `base`. -/
def stagedListItems (runId : Uuid) (base : ℤ) (page : UserListsPage) : List ListSnapshotItem :=
  (page.lists.flatMap fun l => l.items.map fun i => (l, i)).zipIdx.map fun (p, n) =>
    ⟨runId, base + n, p.1.providerListId, p.1.name, p.2.providerRepositoryId⟩

/-- The transaction of `record_page`. -/
def recordListPage (checkpointId : Uuid) (now : Time) (runId : Uuid) (page : UserListsPage) :
    Tx Unit := do
  let base ← select fun db =>
    basePosition ((db.listSnapshotItems.filter fun i => decide (i.syncRunId = runId)).map (·.position))
  write .listSnapshotItems fun db => db.listSnapshotItems ++ stagedListItems runId base page
  insertCheckpoint ⟨checkpointId, runId, base + 1, none, page.nextCursor, now⟩
  updateSyncRun runId fun r =>
    { r with
      pagesProcessed := r.pagesProcessed + 1
      itemsObserved := r.itemsObserved + clampInteger (page.lists.map (·.items.length)).sum
      listsObserved := r.listsObserved +
        clampInteger (page.lists.map (·.providerListId)).dedup.length }

/-! ### The authority swap -/

/-- The rows a run staged. -/
def stagedListRows (runId : Uuid) (db : Database) : List ListSnapshotItem :=
  db.listSnapshotItems.filter fun i => decide (i.syncRunId = runId)

/-- The greatest name a run staged for a provider list. -/
def stagedName (runId : Uuid) (providerListId : String) (db : Database) : String :=
  (((stagedListRows runId db).filter fun i => decide (i.providerListId = providerListId)).map
    (·.listName)).foldl (fun a b => if a < b then b else a) ""

/-- The list rows the upsert proposes, one per staged provider list. -/
def proposedLists (ids : ℕ → Uuid) (runId accountId : Uuid) (db : Database) : List StarList :=
  ((stagedListRows runId db).map (·.providerListId)).dedup.zipIdx.map fun (p, n) =>
    ⟨ids n, accountId, p, stagedName runId p db, .active, none, none⟩

/-- The provider's key of a list. -/
def StarList.key (l : StarList) : Uuid × String := (l.accountId, l.providerListId)

/-- The `do update` of a listed list: renamed, active again, its removal evidence cleared. -/
def StarList.relisted (old new : StarList) : StarList :=
  { old with
    name := new.name, status := .active, observedRemovedAt := none, evidenceRunId := none }

/-- `upsert_lists_from_staging`. -/
def upsertListsFromStaging (ids : ℕ → Uuid) (runId accountId : Uuid) : Tx Unit :=
  write .starLists fun db =>
    upsertAll StarList.key StarList.relisted (proposedLists ids runId accountId db) db.starLists

/-- The staged (list, repository) pairs whose list satisfies `p`. -/
def stagedPairsWhere (p : StarList → Bool) (runId : Uuid) (db : Database) : List (Uuid × Uuid) :=
  (stagedListRows runId db).flatMap fun i =>
    match repositoryOf i.providerRepositoryId db with
    | some r => (db.starLists.filter fun l =>
        p l && decide (l.providerListId = i.providerListId)).map fun l => (l.listId, r.repositoryId)
    | none => []

/-- The staged pairs over the account's own lists. -/
def stagedPairs (runId accountId : Uuid) : Database → List (Uuid × Uuid) :=
  stagedPairsWhere (fun l => decide (l.accountId = accountId)) runId

/-- The staged pairs over every account's lists of the same provider id. -/
def stagedPairsAnywhere (runId : Uuid) : Database → List (Uuid × Uuid) :=
  stagedPairsWhere (fun _ => true) runId

/-- `count_member_additions`. -/
def countMemberAdditions (runId accountId : Uuid) (db : Database) : ℕ :=
  ((stagedPairs runId accountId db).dedup.filter fun p =>
    !db.starListMemberships.any fun m =>
      decide (m.listId = p.1) && decide (m.repositoryId = p.2) && m.member).length

/-- `record_membership_observations`. -/
def recordMembershipObservations (ids : ℕ → Uuid) (now : Time) (runId : Uuid) : Tx Unit :=
  write .starListMembershipObservations fun db =>
    db.starListMembershipObservations ++
      (stagedPairsAnywhere runId db).zipIdx.map fun (p, n) =>
        ⟨ids n, p.1, p.2, true, now, some runId⟩

/-- The key of a membership row. -/
def StarListMembership.key (m : StarListMembership) : Uuid × Uuid := (m.listId, m.repositoryId)

/-- The membership rows the promotion proposes. -/
def promotedPairs (now : Time) (runId accountId : Uuid) (db : Database) : List StarListMembership :=
  (stagedPairs runId accountId db).map fun p => ⟨p.1, p.2, true, now, none, some runId⟩

/-- The `do update` of a seen pair. -/
def StarListMembership.promoted (now : Time) (old new : StarListMembership) : StarListMembership :=
  { old with
    member := true, lastObservedAt := now, observedRemovedAt := none
    evidenceRunId := new.evidenceRunId }

/-- `promote_seen_pairs`. -/
def promoteSeenPairs (now : Time) (runId accountId : Uuid) : Tx Unit := do
  require (.query .cardinality) fun db =>
    decide ((promotedPairs now runId accountId db).map StarListMembership.key).Nodup
  write .starListMemberships fun db =>
    upsertAll StarListMembership.key (StarListMembership.promoted now)
      (promotedPairs now runId accountId db) db.starListMemberships

/-- The member rows of the account's lists that the run did not stage. -/
def StarListMembership.absentFrom (runId accountId : Uuid) (db : Database)
    (m : StarListMembership) : Bool :=
  m.member && db.starLists.any fun l =>
    decide (l.accountId = accountId) && decide (l.listId = m.listId) &&
      !(stagedListRows runId db).any fun i => decide (i.providerListId = l.providerListId) &&
        (repositoryOf i.providerRepositoryId db).any fun r => decide (r.repositoryId = m.repositoryId)

/-- `demote_absent_pairs`. -/
def demoteAbsentPairs (ids : ℕ → Uuid) (now : Time) (runId accountId : Uuid) : Tx ℕ := do
  let demoted ← select fun db =>
    (db.starListMemberships.filter (·.absentFrom runId accountId db)).map StarListMembership.key
  write .starListMemberships fun db =>
    updateWhere (·.absentFrom runId accountId db)
      (fun m => { m with
        member := false, observedRemovedAt := some now, evidenceRunId := some runId })
      db.starListMemberships
  demoted.zipIdx.forM fun (p, n) =>
    write .starListMembershipObservations fun db =>
      db.starListMembershipObservations ++ [⟨ids n, p.1, p.2, false, now, some runId⟩]
  pure demoted.length

/-- `tombstone_absent_lists`. -/
def tombstoneAbsentLists (now : Time) (runId accountId : Uuid) : Tx Unit :=
  write .starLists fun db =>
    updateWhere (fun l => decide (l.accountId = accountId) && decide (l.status = .active) &&
        !(stagedListRows runId db).any fun i => decide (i.providerListId = l.providerListId))
      (fun l => { l with
        status := .removed, observedRemovedAt := some now, evidenceRunId := some runId })
      db.starLists

/-- Clear the staged pairs of a run. -/
def clearListStaging (runId : Uuid) : Tx Unit :=
  write .listSnapshotItems fun db =>
    deleteWhere (fun i => decide (i.syncRunId = runId)) db.listSnapshotItems

/-- The completion of the run row. -/
def completeListRunRow (now : Time) (runId : Uuid) (additions removals : ℕ) : Tx (ℕ × ℕ) := do
  updateSyncRun runId fun r =>
    { r with
      status := .completed, finishedAt := some now, additions := clampInteger additions
      removals := clampInteger removals }
  fetchOne fun db =>
    (db.syncRuns.find? fun r => decide (r.syncRunId = runId)).map fun r =>
      (r.pagesProcessed.toNat, r.itemsObserved.toNat)

/-- `apply_list_authority_and_complete`.  The three supplies draw the ids of new lists, of member
observations and of removal observations. -/
def applyListAuthorityAndComplete (listIds memberIds removalIds : ℕ → Uuid) (now : Time)
    (runId accountId : Uuid) : Tx (ℕ × ℕ × ℕ × ℕ) := do
  upsertListsFromStaging listIds runId accountId
  let additions ← select (countMemberAdditions runId accountId)
  recordMembershipObservations memberIds now runId
  promoteSeenPairs now runId accountId
  let removals ← demoteAbsentPairs removalIds now runId accountId
  tombstoneAbsentLists now runId accountId
  clearListStaging runId
  let (pagesProcessed, itemsObserved) ← completeListRunRow now runId additions removals
  pure (pagesProcessed, itemsObserved, additions, removals)

/-! ### Frames -/

theorem touches_recordListPage (checkpointId : Uuid) (now : Time) (runId : Uuid)
    (page : UserListsPage) :
    Touches [.listSnapshotItems, .syncCheckpoints, .syncRuns]
      (recordListPage checkpointId now runId page) :=
  (Touches.select _).bind fun _ => (Touches.write (by decide) _).bind fun _ =>
    (Touches.write (by decide) _).bind fun _ => Touches.write (by decide) _

theorem touches_promoteSeenPairs (now : Time) (runId accountId : Uuid) :
    Touches [.starListMemberships] (promoteSeenPairs now runId accountId) :=
  (Touches.require _ _).bind fun _ => Touches.write (by decide) _

theorem touches_demoteAbsentPairs (ids : ℕ → Uuid) (now : Time) (runId accountId : Uuid) :
    Touches [.starListMemberships, .starListMembershipObservations]
      (demoteAbsentPairs ids now runId accountId) := by
  refine (Touches.select _).bind fun demoted => (Touches.write (by decide) _).bind fun _ => ?_
  exact (Touches.forM (fun p => Touches.write (by decide) _) _).bind fun _ => Touches.pure _

theorem touches_completeListRunRow (now : Time) (runId : Uuid) (additions removals : ℕ) :
    Touches [.syncRuns] (completeListRunRow now runId additions removals) :=
  (Touches.write (by decide) _).bind fun _ => Touches.fetchOne _

theorem touches_applyListAuthorityAndComplete (listIds memberIds removalIds : ℕ → Uuid) (now : Time)
    (runId accountId : Uuid) :
    Touches [.starLists, .starListMembershipObservations, .starListMemberships, .listSnapshotItems,
      .syncRuns]
      (applyListAuthorityAndComplete listIds memberIds removalIds now runId accountId) :=
  (Touches.write (by decide) _).bind fun _ => (Touches.select _).bind fun _ =>
    (Touches.write (by decide) _).bind fun _ =>
    ((touches_promoteSeenPairs _ _ _).mono (by decide)).bind fun _ =>
    ((touches_demoteAbsentPairs _ _ _ _).mono (by decide)).bind fun _ =>
    (Touches.write (by decide) _).bind fun _ => (Touches.write (by decide) _).bind fun _ =>
    ((touches_completeListRunRow _ _ _ _).mono (by decide)).bind fun _ => Touches.pure _

end GithubCatalog
