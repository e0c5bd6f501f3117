import GithubCatalog.BackupPolicy

/-!
# Account erasure (`account_erasure_state.rs`, `account_erasure.rs`)

Erasing an owner deletes the rows keyed to it in foreign-key order and then collects the shared
catalog entries only that owner reached.

* `ownsAccount`, `ownsSyncRun`, `ownsList`, `ownerKeyed` - which rows are the owner's;
* `capturedRepositories`, `capturedDigests` - the two captures made before any delete;
* `deleteOwnerRows`, `collectUnreferencedRepositories`, `collectUnreferencedReadmeBytes` - the
  statements, in the source's order;
* `eraseOwnerState`, `eraseAccountInTx` - the whole, with the recorded operation.
-/

namespace GithubCatalog

open Relational Transact

/-! ### Whose rows -/

/-- `account_id in (OWNER_ACCOUNTS)`. -/
def ownsAccount (owner : String) (db : Database) (accountId : Uuid) : Bool :=
  db.githubAccounts.any fun a => decide (a.ownerRef = owner) && decide (a.accountId = accountId)

/-- `sync_run_id in (OWNER_SYNC_RUNS)`. -/
def ownsSyncRun (owner : String) (db : Database) (syncRunId : Uuid) : Bool :=
  db.syncRuns.any fun r => decide (r.syncRunId = syncRunId) && ownsAccount owner db r.accountId

/-- `list_id in (OWNER_LISTS)`. -/
def ownsList (owner : String) (db : Database) (listId : Uuid) : Bool :=
  db.starLists.any fun l => decide (l.listId = listId) && ownsAccount owner db l.accountId

/-- `OWNER_KEYED_PAYLOAD`. -/
def ownerKeyed (owner : String) (payload : Jsonb) : Bool :=
  decide (payload.memberText "owner" = some owner) ||
    decide (payload.memberText "tenant_id" = some owner) ||
    decide (payload.pathText ["payload", "account"] = some owner)

/-- `README_IN_METADATA`. -/
def RepositoryMetadata.readmeDigest (m : RepositoryMetadata) : Option String :=
  m.readmeRevision.pathText ["content_ref", "digest", "hex"]

/-- `README_IN_REQUEST`. -/
def RepositoryAnalysisRequest.readmeDigest (r : RepositoryAnalysisRequest) : Option String :=
  r.sourceRevision.pathText ["readme", "content_ref", "digest", "hex"]

/-! ### The captures -/

/-- The repositories named by the owner's action attempts. -/
def attemptedRepositories (owner : String) (db : Database) : List Uuid :=
  (db.repositories.filter fun r => db.repositoryActionAttempts.any fun a =>
    decide (a.ownerRef = owner) &&
      decide (a.githubRepositoryNumericId = r.providerRepositoryId)).map (·.repositoryId)

/-- `capture_candidates`: every repository the owner's rows name. -/
def capturedRepositories (owner : String) (db : Database) : List Uuid :=
  (db.currentStarState.filter fun c => ownsAccount owner db c.accountId).map (·.repositoryId) ++
  (db.starObservations.filter fun o => ownsAccount owner db o.accountId).map (·.repositoryId) ++
  (db.legacyListClaims.filter fun c => ownsAccount owner db c.accountId).map (·.repositoryId) ++
  (db.legacyImportRepositoryRecords.filter fun r => ownsAccount owner db r.accountId).map
    (·.repositoryId) ++
  (db.starListMemberships.filter fun m => ownsList owner db m.listId).map
    (·.repositoryId) ++
  (db.starListMembershipObservations.filter fun o =>
    ownsList owner db o.listId).map (·.repositoryId) ++
  (db.mutationAudit.filter fun a => ownsAccount owner db a.accountId).map (·.repositoryId) ++
  (db.reconciliationRepairs.filter fun r =>
    ownsSyncRun owner db r.syncRunId).map (·.repositoryId) ++
  (db.repositoryWatches.filter fun w => decide (w.ownerRef = owner)).map (·.repositoryId) ++
  (db.repositoryAnalysisRequests.filter fun r => decide (r.ownerRef = owner)).map
    (·.repositoryId) ++
  (db.repositoryAnalysisLinks.filter fun l => decide (l.ownerRef = owner)).map (·.repositoryId) ++
  attemptedRepositories owner db

/-- The README digests the captured repositories and the owner's requests name. -/
def capturedDigests (owner : String) (db : Database) : List String :=
  (db.repositoryMetadata.filter fun m =>
    decide (m.repositoryId ∈ capturedRepositories owner db)).filterMap (·.readmeDigest) ++
  (db.repositoryAnalysisRequests.filter fun r => decide (r.ownerRef = owner)).filterMap
    (·.readmeDigest)

/-! ### The deletes -/

/-- The owner's messages. -/
def deleteMessages (owner : String) : Tx Unit := do
  write .outboxEvents fun db => deleteWhere (fun e => ownerKeyed owner e.payload) db.outboxEvents
  write .inboxEvents fun db => deleteWhere (fun e => ownerKeyed owner e.payload) db.inboxEvents

/-- The owner's attempts, analyses and watches. -/
def deleteAnalyses (owner : String) : Tx Unit := do
  write .repositoryActionAttempts fun db =>
    deleteWhere (fun a => decide (a.ownerRef = owner)) db.repositoryActionAttempts
  write .repositoryAnalysisLinks fun db =>
    deleteWhere (fun l => decide (l.ownerRef = owner)) db.repositoryAnalysisLinks
  write .repositoryAnalysisRequests fun db =>
    deleteWhere (fun r => decide (r.ownerRef = owner)) db.repositoryAnalysisRequests
  write .repositoryWatches fun db =>
    deleteWhere (fun w => decide (w.ownerRef = owner)) db.repositoryWatches

/-- The audit of the owner's accounts, and its lists with what hangs off them. -/
def deleteLists (owner : String) : Tx Unit := do
  write .mutationAudit fun db =>
    deleteWhere (fun a => ownsAccount owner db a.accountId) db.mutationAudit
  write .starListMembershipObservations fun db =>
    deleteWhere (fun o => ownsList owner db o.listId) db.starListMembershipObservations
  write .starListMemberships fun db =>
    deleteWhere (fun m => ownsList owner db m.listId) db.starListMemberships
  write .starLists fun db =>
    deleteWhere (fun l => ownsAccount owner db l.accountId) db.starLists

/-- The star state of the owner's accounts. -/
def deleteStars (owner : String) : Tx Unit := do
  write .currentStarState fun db =>
    deleteWhere (fun c => ownsAccount owner db c.accountId) db.currentStarState
  write .starObservations fun db =>
    deleteWhere (fun o => ownsAccount owner db o.accountId) db.starObservations
  write .legacyListClaims fun db =>
    deleteWhere (fun c => ownsAccount owner db c.accountId) db.legacyListClaims
  write .starWatermarks fun db =>
    deleteWhere (fun w => ownsAccount owner db w.accountId) db.starWatermarks

/-- The owner's runs with what hangs off them. -/
def deleteSyncRuns (owner : String) : Tx Unit := do
  write .reconciliationRepairs fun db =>
    deleteWhere (fun r => ownsSyncRun owner db r.syncRunId) db.reconciliationRepairs
  write .snapshotItems fun db =>
    deleteWhere (fun i => ownsSyncRun owner db i.syncRunId) db.snapshotItems
  write .listSnapshotItems fun db =>
    deleteWhere (fun i => ownsSyncRun owner db i.syncRunId) db.listSnapshotItems
  write .syncCheckpoints fun db =>
    deleteWhere (fun c => ownsSyncRun owner db c.syncRunId) db.syncCheckpoints
  write .syncRuns fun db =>
    deleteWhere (fun r => ownsAccount owner db r.accountId) db.syncRuns

/-- The owner's accounts with what hangs off them. -/
def deleteAccounts (owner : String) : Tx Unit := do
  write .legacyImportRepositoryRecords fun db =>
    deleteWhere (fun r => ownsAccount owner db r.accountId)
      db.legacyImportRepositoryRecords
  write .legacyImportAccounts fun db =>
    deleteWhere (fun a => ownsAccount owner db a.accountId) db.legacyImportAccounts
  write .githubAccountCredentials fun db =>
    deleteWhere (fun c => ownsAccount owner db c.accountId) db.githubAccountCredentials
  write .githubAccounts fun db =>
    deleteWhere (fun a => decide (a.ownerRef = owner)) db.githubAccounts

/-- `delete_owner_rows`: twenty-three deletes in foreign-key order. -/
def deleteOwnerRows (owner : String) : Tx Unit := do
  deleteMessages owner
  deleteAnalyses owner
  deleteLists owner
  deleteStars owner
  deleteSyncRuns owner
  deleteAccounts owner

/-- Whether a row of the owner-reference tables, or an action attempt, names a repository. -/
def referenced (db : Database) (repositoryId : Uuid) : Bool :=
  db.currentStarState.any (fun c => decide (c.repositoryId = repositoryId)) ||
  db.starObservations.any (fun o => decide (o.repositoryId = repositoryId)) ||
  db.legacyListClaims.any (fun c => decide (c.repositoryId = repositoryId)) ||
  db.legacyImportRepositoryRecords.any (fun r => decide (r.repositoryId = repositoryId)) ||
  db.starListMemberships.any (fun m => decide (m.repositoryId = repositoryId)) ||
  db.starListMembershipObservations.any (fun o => decide (o.repositoryId = repositoryId)) ||
  db.mutationAudit.any (fun a => decide (a.repositoryId = repositoryId)) ||
  db.reconciliationRepairs.any (fun r => decide (r.repositoryId = repositoryId)) ||
  db.repositoryWatches.any (fun w => decide (w.repositoryId = repositoryId)) ||
  db.repositoryAnalysisRequests.any (fun r => decide (r.repositoryId = repositoryId)) ||
  db.repositoryAnalysisLinks.any (fun l => decide (l.repositoryId = repositoryId)) ||
  db.repositoryActionAttempts.any fun a => db.repositories.any fun r =>
    decide (r.repositoryId = repositoryId) &&
      decide (r.providerRepositoryId = a.githubRepositoryNumericId)

/-- The aliases of the repositories to be deleted. -/
def aliasesOf (doomed : List Uuid) (db : Database) : List Uuid :=
  (db.repositoryAliases.filter fun a => decide (a.repositoryId ∈ doomed)).map (·.aliasId)

/-- `collect_unreferenced_repositories`: how many repositories were deleted. -/
def collectUnreferencedRepositories (candidates : List Uuid) : Tx ℕ := do
  let doomed ← select fun db => candidates.filter fun r => !referenced db r
  write .repositoryAliases fun db =>
    updateWhere (fun a => decide (a.repositoryId ∉ doomed) &&
        a.redirectTo.any fun t => decide (t ∈ aliasesOf doomed db))
      (fun a => { a with redirectTo := none }) db.repositoryAliases
  write .repositoryAliases fun db =>
    deleteWhere (fun a => decide (a.repositoryId ∈ doomed)) db.repositoryAliases
  write .repositoryMetadata fun db =>
    deleteWhere (fun m => decide (m.repositoryId ∈ doomed)) db.repositoryMetadata
  write .repositoryMetadataRevisions fun db =>
    deleteWhere (fun r => decide (r.repositoryId ∈ doomed)) db.repositoryMetadataRevisions
  write .backupPolicies fun db =>
    deleteWhere (fun p => decide (p.repositoryId ∈ doomed)) db.backupPolicies
  let collected ← select fun db =>
    (db.repositories.filter fun r => decide (r.repositoryId ∈ doomed)).length
  write .repositories fun db =>
    deleteWhere (fun r => decide (r.repositoryId ∈ doomed)) db.repositories
  pure collected

/-- Whether a remaining metadata row or analysis request names a README digest. -/
def readmeNamed (db : Database) (digest : String) : Bool :=
  db.repositoryMetadata.any (fun m => decide (m.readmeDigest = some digest)) ||
    db.repositoryAnalysisRequests.any fun r => decide (r.readmeDigest = some digest)

/-- `collect_unreferenced_readme_bytes`. -/
def collectUnreferencedReadmeBytes (digests : List String) : Tx Unit :=
  write .repositoryReadmeBlobs fun db =>
    deleteWhere (fun b => decide (b.contentDigest ∈ digests) && !readmeNamed db b.contentDigest)
      db.repositoryReadmeBlobs

/-- `erase_owner_state`. -/
def eraseOwnerState (now : Time) (owner : String) : Tx Unit := do
  let candidates ← select (capturedRepositories owner)
  let digests ← select (capturedDigests owner)
  deleteOwnerRows owner
  let collected ← collectUnreferencedRepositories candidates
  collectUnreferencedReadmeBytes digests
  onlyIf (decide (0 < collected)) (markBackupPolicyDirtyInTx now)

/-- The transaction of `erase_account`: the deletion and its recorded answer, or neither. -/
def eraseAccountInTx (now : Time) (owner : String) (operation : AccountErasureOperation) :
    Tx Unit := do
  eraseOwnerState now owner
  require .keyTaken fun db =>
    !db.accountErasureOperations.any fun o => decide (o.operationId = operation.operationId)
  write .accountErasureOperations fun db => db.accountErasureOperations ++ [operation]

/-! ### Frames -/

/-- The tables an erasure writes. -/
def erasureTables : List Table :=
  [.outboxEvents, .inboxEvents, .repositoryActionAttempts, .repositoryAnalysisLinks,
    .repositoryAnalysisRequests, .repositoryWatches, .mutationAudit,
    .starListMembershipObservations, .starListMemberships, .starLists, .currentStarState,
    .starObservations, .legacyListClaims, .starWatermarks, .reconciliationRepairs, .snapshotItems,
    .listSnapshotItems, .syncCheckpoints, .syncRuns, .legacyImportRepositoryRecords,
    .legacyImportAccounts, .githubAccountCredentials, .githubAccounts, .repositoryAliases,
    .repositoryMetadata, .repositoryMetadataRevisions, .backupPolicies, .repositories,
    .repositoryReadmeBlobs, .backupPolicyPublicationCursor, .accountErasureOperations]

theorem touches_deleteOwnerRows (owner : String) : Touches erasureTables (deleteOwnerRows owner) := by
  refine Touches.bind ?_ fun _ => Touches.bind ?_ fun _ => Touches.bind ?_ fun _ =>
    Touches.bind ?_ fun _ => Touches.bind ?_ fun _ => ?_
  · exact (Touches.write (by decide) _).bind fun _ => Touches.write (by decide) _
  · exact (Touches.write (by decide) _).bind fun _ => (Touches.write (by decide) _).bind fun _ =>
      (Touches.write (by decide) _).bind fun _ => Touches.write (by decide) _
  · exact (Touches.write (by decide) _).bind fun _ => (Touches.write (by decide) _).bind fun _ =>
      (Touches.write (by decide) _).bind fun _ => Touches.write (by decide) _
  · exact (Touches.write (by decide) _).bind fun _ => (Touches.write (by decide) _).bind fun _ =>
      (Touches.write (by decide) _).bind fun _ => Touches.write (by decide) _
  · exact (Touches.write (by decide) _).bind fun _ => (Touches.write (by decide) _).bind fun _ =>
      (Touches.write (by decide) _).bind fun _ => (Touches.write (by decide) _).bind fun _ =>
      Touches.write (by decide) _
  · exact (Touches.write (by decide) _).bind fun _ => (Touches.write (by decide) _).bind fun _ =>
      (Touches.write (by decide) _).bind fun _ => Touches.write (by decide) _

theorem touches_collectUnreferencedRepositories (candidates : List Uuid) :
    Touches erasureTables (collectUnreferencedRepositories candidates) :=
  (Touches.select _).bind fun _ => (Touches.write (by decide) _).bind fun _ =>
    (Touches.write (by decide) _).bind fun _ => (Touches.write (by decide) _).bind fun _ =>
    (Touches.write (by decide) _).bind fun _ => (Touches.write (by decide) _).bind fun _ =>
    (Touches.select _).bind fun _ => (Touches.write (by decide) _).bind fun _ => Touches.pure _

theorem touches_eraseAccountInTx (now : Time) (owner : String)
    (operation : AccountErasureOperation) :
    Touches erasureTables (eraseAccountInTx now owner operation) := by
  have hstate : Touches erasureTables (eraseOwnerState now owner) :=
    (Touches.select _).bind fun _ => (Touches.select _).bind fun _ =>
      (touches_deleteOwnerRows owner).bind fun _ =>
      (touches_collectUnreferencedRepositories _).bind fun _ =>
      (Touches.write (by decide) _).bind fun _ =>
      Touches.onlyIf ((touches_markBackupPolicyDirtyInTx now).mono (by decide))
  exact hstate.bind fun _ => (Touches.require _ _).bind fun _ => Touches.write (by decide) _

/-- A recorded erasure is the erasure of the owner's state; the record changes no other table. -/
theorem eraseAccountInTx_eq_ok {now : Time} {owner : String} {operation : AccountErasureOperation}
    {c c' : Catalog} (h : eraseAccountInTx now owner operation c = .ok ((), c')) :
    ∃ c₁, eraseOwnerState now owner c = .ok ((), c₁) ∧
      AgreeOff [.accountErasureOperations] c₁.tables c'.tables := by
  obtain ⟨⟨⟩, c₁, h₁, h₂⟩ := Tx.bind_eq_ok.mp h
  have hrecord : Touches [.accountErasureOperations]
      (require .keyTaken (fun db =>
          !db.accountErasureOperations.any fun o => decide (o.operationId = operation.operationId))
        >>= fun _ => write .accountErasureOperations fun db =>
          db.accountErasureOperations ++ [operation]) :=
    (Touches.require _ _).bind fun _ => Touches.write (List.mem_singleton.mpr rfl) _
  exact ⟨c₁, h₁, hrecord _ _ _ h₂⟩

end GithubCatalog
