import GithubCatalog.Lib.Table
import GithubCatalog.Rows
import Mathlib.Tactic.MkIffOfInductiveProp

/-!
# The database and its declared constraints

`Database` holds one list of rows per table.  The declared constraints of `schema.sql` come in three
groups, all decidable:

* `Keys` - primary keys and (partial) unique indexes;
* `Checks` - the row checks;
* `ForeignKeys` - one field per `references` clause, all of them immediate and `no action`.

`Constraints` is their conjunction.  A statement that would leave it broken fails (`exec` of
`GithubCatalog.Transaction`), so every committed state satisfies it.
-/

namespace GithubCatalog

open Relational

/-- The `github_catalog` schema's tables.  The two cursor tables hold at most one row. -/
structure Database where
  githubAccounts : List GithubAccount := []
  githubAccountCredentials : List GithubAccountCredential := []
  legacyImportRuns : List LegacyImportRun := []
  legacyImportAccounts : List LegacyImportAccount := []
  repositories : List Repository := []
  repositoryAliases : List RepositoryAlias := []
  legacyImportRepositoryRecords : List LegacyImportRepositoryRecord := []
  repositoryMetadata : List RepositoryMetadata := []
  repositoryMetadataRevisions : List RepositoryMetadataRevision := []
  repositoryReadmeBlobs : List RepositoryReadmeBlob := []
  syncRuns : List SyncRun := []
  syncCheckpoints : List SyncCheckpoint := []
  snapshotItems : List SnapshotItem := []
  listSnapshotItems : List ListSnapshotItem := []
  starObservations : List StarObservation := []
  currentStarState : List CurrentStarState := []
  legacyListClaims : List LegacyListClaim := []
  legacyShadowReports : List LegacyShadowReport := []
  starWatermarks : List StarWatermark := []
  reconciliationRepairs : List ReconciliationRepair := []
  starLists : List StarList := []
  starListMemberships : List StarListMembership := []
  starListMembershipObservations : List StarListMembershipObservation := []
  repositoryWatches : List RepositoryWatch := []
  repositoryAnalysisRequests : List RepositoryAnalysisRequest := []
  repositoryAnalysisDispatchCursor : Option Time := none
  repositoryAnalysisLinks : List RepositoryAnalysisLink := []
  backupPolicies : List BackupPolicy := []
  backupPolicyPublicationCursor : Option BackupPolicyPublicationCursor := none
  backupPolicyPublications : List BackupPolicyPublication := []
  backupPolicyFeedback : List BackupPolicyFeedback := []
  mutationAudit : List MutationAudit := []
  repositoryActionAttempts : List RepositoryActionAttempt := []
  outboxEvents : List OutboxEvent := []
  inboxEvents : List InboxEvent := []
  accountErasureOperations : List AccountErasureOperation := []
deriving DecidableEq

/-- Primary keys and unique indexes. -/
@[mk_iff]
structure Keys (db : Database) : Prop where
  accounts : UniqueOn (·.accountId) db.githubAccounts
  accounts_identity : UniqueOn (fun a => (a.ownerRef, a.providerUserId))
    (db.githubAccounts.filter (·.providerUserId.isSome))
  credentials : UniqueOn (·.accountId) db.githubAccountCredentials
  importRuns : UniqueOn (·.importRunId) db.legacyImportRuns
  importAccounts : UniqueOn (fun a => (a.sourceId, a.legacyUserId)) db.legacyImportAccounts
  repositories : UniqueOn (·.repositoryId) db.repositories
  repositories_provider : UniqueOn (·.providerRepositoryId) db.repositories
  aliases : UniqueOn (·.aliasId) db.repositoryAliases
  aliases_live : UniqueOn (fun a => (a.aliasKind, a.aliasValue))
    (db.repositoryAliases.filter fun a => decide (a.status = .active))
  records : UniqueOn (fun r => (r.sourceId, r.legacyRepositoryId)) db.legacyImportRepositoryRecords
  metadata : UniqueOn (·.repositoryId) db.repositoryMetadata
  revisions : UniqueOn (·.revisionId) db.repositoryMetadataRevisions
  readmeBlobs : UniqueOn (·.contentDigest) db.repositoryReadmeBlobs
  runs : UniqueOn (·.syncRunId) db.syncRuns
  checkpoints : UniqueOn (·.checkpointId) db.syncCheckpoints
  snapshotItems : UniqueOn (fun i => (i.syncRunId, i.position)) db.snapshotItems
  listSnapshotItems : UniqueOn (fun i => (i.syncRunId, i.position)) db.listSnapshotItems
  observations : UniqueOn (·.observationId) db.starObservations
  stars : UniqueOn (fun c => (c.accountId, c.repositoryId)) db.currentStarState
  claims : UniqueOn (fun c => (c.sourceId, c.legacyRepositoryId, c.listName)) db.legacyListClaims
  shadowReports : UniqueOn (·.reportId) db.legacyShadowReports
  watermarks : UniqueOn (·.accountId) db.starWatermarks
  repairs : UniqueOn (fun r => (r.syncRunId, r.repositoryId)) db.reconciliationRepairs
  lists : UniqueOn (·.listId) db.starLists
  lists_provider : UniqueOn (fun l => (l.accountId, l.providerListId)) db.starLists
  memberships : UniqueOn (fun m => (m.listId, m.repositoryId)) db.starListMemberships
  membershipObservations : UniqueOn (·.observationId) db.starListMembershipObservations
  watches : UniqueOn (·.watchId) db.repositoryWatches
  watches_identity : UniqueOn (fun w => (w.ownerRef, w.repositoryId)) db.repositoryWatches
  requests : UniqueOn (·.requestId) db.repositoryAnalysisRequests
  requests_deduplication : UniqueOn (fun r => (r.watchId, r.idempotencyDigestHex))
    db.repositoryAnalysisRequests
  requests_outbox : UniqueOn (·.outboxMessageId)
    (db.repositoryAnalysisRequests.filter (·.outboxMessageId.isSome))
  links : UniqueOn (fun l => (l.ownerRef, l.repositoryId)) db.repositoryAnalysisLinks
  links_request : UniqueOn (·.requestId) db.repositoryAnalysisLinks
  policies : UniqueOn (·.backupPolicyId) db.backupPolicies
  policies_repository : UniqueOn (·.repositoryId) db.backupPolicies
  publications : UniqueOn (·.policyVersion) db.backupPolicyPublications
  publications_fingerprint : UniqueOn (·.fingerprint) db.backupPolicyPublications
  feedback : UniqueOn (·.messageId) db.backupPolicyFeedback
  audit : UniqueOn (·.auditId) db.mutationAudit
  audit_success : UniqueOn (·.idempotencyKey) (db.mutationAudit.filter (·.succeeded))
  attempts : UniqueOn (fun a => (a.ownerRef, a.idempotencyKey)) db.repositoryActionAttempts
  attempts_key : UniqueOn (·.idempotencyKey) db.repositoryActionAttempts
  outbox : UniqueOn (·.messageId) db.outboxEvents
  inbox : UniqueOn (·.messageId) db.inboxEvents
  erasures : UniqueOn (·.operationId) db.accountErasureOperations

/-- Row checks. -/
@[mk_iff]
structure Checks (db : Database) : Prop where
  accounts : ∀ a ∈ db.githubAccounts, a.check = true
  credentials : ∀ c ∈ db.githubAccountCredentials, c.check = true
  importRuns : ∀ r ∈ db.legacyImportRuns, r.check = true
  importAccounts : ∀ a ∈ db.legacyImportAccounts, a.check = true
  repositories : ∀ r ∈ db.repositories, fitsBigint r.providerRepositoryId = true
  aliases : ∀ a ∈ db.repositoryAliases, a.check = true
  records : ∀ r ∈ db.legacyImportRepositoryRecords, isSourceId r.sourceId = true
  metadata : ∀ m ∈ db.repositoryMetadata, m.check = true
  revisions : ∀ r ∈ db.repositoryMetadataRevisions, r.payload.isObject = true
  readmeBlobs : ∀ b ∈ db.repositoryReadmeBlobs, b.check = true
  runs : ∀ r ∈ db.syncRuns, r.check = true
  observations : ∀ o ∈ db.starObservations, o.check = true
  stars : ∀ c ∈ db.currentStarState, c.check = true
  claims : ∀ c ∈ db.legacyListClaims, c.check = true
  shadowReports : ∀ r ∈ db.legacyShadowReports, r.check = true
  lists : ∀ l ∈ db.starLists, l.check = true
  memberships : ∀ m ∈ db.starListMemberships, m.check = true
  watches : ∀ w ∈ db.repositoryWatches, w.check = true
  requests : ∀ r ∈ db.repositoryAnalysisRequests, r.check = true
  links : ∀ l ∈ db.repositoryAnalysisLinks, l.check = true
  policies : ∀ p ∈ db.backupPolicies, p.check = true
  cursor : ∀ c ∈ db.backupPolicyPublicationCursor, c.check = true
  publications : ∀ p ∈ db.backupPolicyPublications, p.check = true
  feedback : ∀ f ∈ db.backupPolicyFeedback, f.check = true
  audit : ∀ a ∈ db.mutationAudit, a.check = true
  attempts : ∀ a ∈ db.repositoryActionAttempts, a.check = true
  outbox : ∀ e ∈ db.outboxEvents, e.check = true
  inbox : ∀ e ∈ db.inboxEvents, e.check = true
  erasures : ∀ o ∈ db.accountErasureOperations, o.check = true

/-- References, named by the referencing table and column. -/
@[mk_iff]
structure ForeignKeys (db : Database) : Prop where
  credentials_account : Refers (fun c => some c.accountId) db.githubAccountCredentials
    GithubAccount.accountId db.githubAccounts
  importAccounts_account : Refers (fun a => some a.accountId) db.legacyImportAccounts
    GithubAccount.accountId db.githubAccounts
  aliases_repository : Refers (fun a => some a.repositoryId) db.repositoryAliases
    Repository.repositoryId db.repositories
  aliases_redirect : Refers RepositoryAlias.redirectTo db.repositoryAliases
    RepositoryAlias.aliasId db.repositoryAliases
  records_account : Refers (fun r => some r.accountId) db.legacyImportRepositoryRecords
    GithubAccount.accountId db.githubAccounts
  records_repository : Refers (fun r => some r.repositoryId) db.legacyImportRepositoryRecords
    Repository.repositoryId db.repositories
  metadata_repository : Refers (fun m => some m.repositoryId) db.repositoryMetadata
    Repository.repositoryId db.repositories
  revisions_repository : Refers (fun r => some r.repositoryId) db.repositoryMetadataRevisions
    Repository.repositoryId db.repositories
  runs_account : Refers (fun r => some r.accountId) db.syncRuns
    GithubAccount.accountId db.githubAccounts
  checkpoints_run : Refers (fun c => some c.syncRunId) db.syncCheckpoints
    SyncRun.syncRunId db.syncRuns
  snapshotItems_run : Refers (fun i => some i.syncRunId) db.snapshotItems
    SyncRun.syncRunId db.syncRuns
  listSnapshotItems_run : Refers (fun i => some i.syncRunId) db.listSnapshotItems
    SyncRun.syncRunId db.syncRuns
  observations_account : Refers (fun o => some o.accountId) db.starObservations
    GithubAccount.accountId db.githubAccounts
  observations_repository : Refers (fun o => some o.repositoryId) db.starObservations
    Repository.repositoryId db.repositories
  stars_account : Refers (fun c => some c.accountId) db.currentStarState
    GithubAccount.accountId db.githubAccounts
  stars_repository : Refers (fun c => some c.repositoryId) db.currentStarState
    Repository.repositoryId db.repositories
  stars_run : Refers CurrentStarState.evidenceRunId db.currentStarState
    SyncRun.syncRunId db.syncRuns
  claims_account : Refers (fun c => some c.accountId) db.legacyListClaims
    GithubAccount.accountId db.githubAccounts
  claims_repository : Refers (fun c => some c.repositoryId) db.legacyListClaims
    Repository.repositoryId db.repositories
  watermarks_account : Refers (fun w => some w.accountId) db.starWatermarks
    GithubAccount.accountId db.githubAccounts
  repairs_run : Refers (fun r => some r.syncRunId) db.reconciliationRepairs
    SyncRun.syncRunId db.syncRuns
  repairs_repository : Refers (fun r => some r.repositoryId) db.reconciliationRepairs
    Repository.repositoryId db.repositories
  lists_account : Refers (fun l => some l.accountId) db.starLists
    GithubAccount.accountId db.githubAccounts
  lists_run : Refers StarList.evidenceRunId db.starLists SyncRun.syncRunId db.syncRuns
  memberships_list : Refers (fun m => some m.listId) db.starListMemberships
    StarList.listId db.starLists
  memberships_repository : Refers (fun m => some m.repositoryId) db.starListMemberships
    Repository.repositoryId db.repositories
  memberships_run : Refers StarListMembership.evidenceRunId db.starListMemberships
    SyncRun.syncRunId db.syncRuns
  membershipObservations_list : Refers (fun o => some o.listId) db.starListMembershipObservations
    StarList.listId db.starLists
  membershipObservations_repository : Refers (fun o => some o.repositoryId)
    db.starListMembershipObservations Repository.repositoryId db.repositories
  membershipObservations_run : Refers StarListMembershipObservation.evidenceRunId
    db.starListMembershipObservations SyncRun.syncRunId db.syncRuns
  watches_repository : Refers (fun w => some w.repositoryId) db.repositoryWatches
    Repository.repositoryId db.repositories
  requests_watch : Refers (fun r => some r.watchId) db.repositoryAnalysisRequests
    RepositoryWatch.watchId db.repositoryWatches
  requests_repository : Refers (fun r => some r.repositoryId) db.repositoryAnalysisRequests
    Repository.repositoryId db.repositories
  links_repository : Refers (fun l => some l.repositoryId) db.repositoryAnalysisLinks
    Repository.repositoryId db.repositories
  links_request : Refers (fun l => some l.requestId) db.repositoryAnalysisLinks
    RepositoryAnalysisRequest.requestId db.repositoryAnalysisRequests
  policies_repository : Refers (fun p => some p.repositoryId) db.backupPolicies
    Repository.repositoryId db.repositories
  audit_repository : Refers (fun a => some a.repositoryId) db.mutationAudit
    Repository.repositoryId db.repositories
  audit_list : Refers MutationAudit.listId db.mutationAudit StarList.listId db.starLists

set_option synthInstance.maxSize 4096 in
set_option synthInstance.maxHeartbeats 200000 in
instance (db : Database) : Decidable (Keys db) := decidable_of_iff _ (keys_iff db).symm

instance (db : Database) : Decidable (Checks db) := decidable_of_iff _ (checks_iff db).symm

instance (db : Database) : Decidable (ForeignKeys db) := decidable_of_iff _ (foreignKeys_iff db).symm

/-- Everything `schema.sql` declares. -/
@[mk_iff]
structure Constraints (db : Database) : Prop where
  keys : Keys db
  checks : Checks db
  foreignKeys : ForeignKeys db

instance (db : Database) : Decidable (Constraints db) :=
  decidable_of_iff _ (constraints_iff db).symm

/-- The freshly created schema satisfies its own constraints. -/
theorem constraints_empty : Constraints {} := by decide

end GithubCatalog
