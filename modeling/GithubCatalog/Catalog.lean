import GithubCatalog.AccountErasure
import GithubCatalog.Delivery
import GithubCatalog.Incremental
import GithubCatalog.Legacy
import GithubCatalog.Lib.Runs
import GithubCatalog.Modes
import GithubCatalog.StarLists
import GithubCatalog.Watches

/-!
# The catalog as a transition system

`Operation` lists the transactions of the service, each with the identifiers and clock readings it
draws and whatever the provider or a caller supplied.  `step` runs one: a failing transaction leaves
the catalog as it was.  A history is a list of operations of any flows, in any interleaving, because
the flows communicate through committed state only.

`Operation.admissible` says which (run, account) and (list, account) pairs a flow passes on: those
`open_or_resume_run` and the target lookup return, which belong together.

The table `backup_policies` is written by no function of the service; `editBackupPolicies` is its
operator's statement.
-/

namespace GithubCatalog

open Relational Transact

/-- One committed transaction of the service. -/
inductive Operation where
  | upsertRepository (fresh : Uuid) (providerRepositoryId : ℤ)
  | recordAlias (fresh : Uuid) (now : Time) (repositoryId : Uuid) (kind : AliasKind)
      (value : String)
  | applyAliasObservation (ids : ℕ → Uuid) (now : Time) (providerRepositoryId : ℤ)
      (kind : AliasKind) (superseded : Option String) (observed : String)
  | openRun (mode : SyncMode) (runId accountId : Uuid) (now : Time)
  | recordPage (checkpointId : Uuid) (now : Time) (runId : Uuid) (page : ℕ)
      (items : List StarredItem)
  | failRun (now : Time) (runId : Uuid) (reason : String)
  | applyAuthority (ids unstarIds : ℕ → Uuid) (now : Time) (runId accountId : Uuid)
  | recordIngest (observationId : Uuid) (now : Time) (runId accountId repositoryId : Uuid)
      (seenAt : Time)
  | recordIncrementalPage (checkpointId : Uuid) (now : Time) (runId : Uuid) (page ingested : ℕ)
      (oldestSeen : Option Time)
  | completeRun (now : Time) (runId accountId : Uuid) (page itemsObserved : ℕ)
      (oldestIngested : Option Time)
  | recordListPage (checkpointId : Uuid) (now : Time) (runId : Uuid) (page : UserListsPage)
  | applyListAuthority (listIds memberIds removalIds : ℕ → Uuid) (now : Time)
      (runId accountId : Uuid)
  | recordAttempt (ids : ℕ → Uuid) (context : MutationContext) (providerRepositoryId : ℤ)
      (kind : OperationKind) (key : String) (outcome : AuditOutcome) (detail : Jsonb)
  | persistConfirmedStar (ids : ℕ → Uuid) (now : Time) (context : MutationContext)
      (providerRepositoryId : ℤ) (key : String) (direction : StarDirection)
  | persistListMembership (ids : ℕ → Uuid) (now : Time) (context : MutationContext)
      (providerRepositoryId : ℤ) (listId : Uuid) (key : String) (change : MembershipChange)
      (desired : List String)
  | trackRepository (fresh : Uuid) (now : Time) (providerRepositoryId : ℤ)
  | setRepositoryMode (ids : ℕ → Uuid) (now : Time) (context : MutationContext)
      (providerRepositoryId : ℤ) (requested : RequestedMode) (key : String)
  | startImportRun (importRunId : Uuid) (sourceId : String)
  | importLegacy (accountIds : ℤ → Uuid) (ids : ℕ → ℕ → Uuid) (now : Time)
      (request : LegacyImportRequest) (importRunId : Uuid)
  | recordImportFailure (now : Time) (importRunId : Uuid) (code : ImportFailureCode)
  | persistShadowReport (report : LegacyShadowReport)
  | registerCredential (now : Time) (accountId : Uuid) (verified : VerifiedGithubAccount)
      (credential : GithubAccountCredential)
  | claimSyncCommand (commandId : Uuid) (payload : Jsonb)
  | consumeInboxEvent (now : Time) (messageId : Uuid)
  | recordRelayResult (now : Time) (messageId : Uuid) (result : RelayResult)
  | claimAction (owner : String) (request : RepositoryActionRequest)
  | completeAction (now : Time) (owner : String) (request : RepositoryActionRequest)
      (result : Jsonb)
  | storeReadme (repositoryId : Uuid) (bytes : List UInt8)
  | applyFreshSource (revisionId : Uuid) (now : Time) (repositoryId : Uuid)
      (body : ProviderRepositoryBody) (etag : Option String) (readme : ReadmeRevision)
      (readmeEtag : Option String)
  | applyNotModified (now : Time) (repositoryId : Uuid)
  | recordObservationAttempt (now : Time) (repositoryId : Uuid)
  | registerWatch (fresh : Uuid) (owner : String) (repositoryId : Uuid) (baseline : WatchBaseline)
  | setWatchEnabled (watchId : Uuid) (enabled : Bool)
  | evaluateWatches (ids : ℕ → Uuid) (now : Time) (repositoryId : Uuid)
  | dispatchAnalysis (messageId : Uuid) (now : Time)
  | consumeTerminalFact (now : Time) (messageId : Uuid) (fact : TerminalFact)
      (status : TerminalStatus)
  | markDirty (now : Time)
  | publishDue (now : Time) (commandId : Uuid)
  | recordAcknowledgment (now : Time) (messageId : Uuid) (ack : PolicyAcknowledged)
  | editBackupPolicies (rows : List BackupPolicy)
  | eraseAccount (now : Time) (owner : String) (operation : AccountErasureOperation)

/-- The operator's statement over `backup_policies`. -/
def editBackupPolicies (rows : List BackupPolicy) : Tx Unit := write .backupPolicies fun _ => rows

/-- A run and an account that `open_or_resume_run` returned together. -/
def runOfAccount (mode : SyncMode) (runId accountId : Uuid) (db : Database) : Bool :=
  db.syncRuns.all fun r => decide (r.syncRunId ≠ runId) ||
    (decide (r.accountId = accountId) && decide (r.mode = mode))

/-- A list and an account that the target lookup returned together. -/
def listOfAccount (listId accountId : Uuid) (db : Database) : Bool :=
  db.starLists.all fun l => decide (l.listId ≠ listId) || decide (l.accountId = accountId)

namespace Operation

/-- The pairs an operation carries are the pairs its flow read. -/
def admissible (db : Database) : Operation → Bool
  | .applyAuthority _ _ _ runId accountId => runOfAccount .full runId accountId db
  | .recordIngest _ _ runId accountId _ _ => runOfAccount .incremental runId accountId db
  | .completeRun _ runId accountId _ _ _ => runOfAccount .incremental runId accountId db
  | .applyListAuthority _ _ _ _ runId accountId => runOfAccount .starLists runId accountId db
  | .persistListMembership _ _ context _ listId _ _ _ => listOfAccount listId context.accountId db
  | _ => true

/-- The store after the operation's transaction. -/
def commit (k : Contracts) (c : Catalog) : Operation → Catalog
  | .upsertRepository fresh pid => (GithubCatalog.upsertRepository fresh pid).commit c
  | .recordAlias fresh now r kind value => (GithubCatalog.recordAlias fresh now r kind value).commit c
  | .applyAliasObservation ids now pid kind old value =>
    (GithubCatalog.applyAliasObservation ids now pid kind old value).commit c
  | .openRun mode runId accountId now => (insertSyncRun mode runId accountId now).commit c
  | .recordPage checkpointId now runId page items =>
    (GithubCatalog.recordPage k checkpointId now runId page items).commit c
  | .failRun now runId reason => (GithubCatalog.failRun now runId reason).commit c
  | .applyAuthority ids unstarIds now runId accountId =>
    (applyAuthorityAndComplete ids unstarIds now runId accountId).commit c
  | .recordIngest id now runId accountId r seenAt =>
    (GithubCatalog.recordIngest id now runId accountId r seenAt).commit c
  | .recordIncrementalPage id now runId page ingested oldest =>
    (GithubCatalog.recordIncrementalPage id now runId page ingested oldest).commit c
  | .completeRun now runId accountId page observed oldest =>
    (GithubCatalog.completeRun now runId accountId page observed oldest).commit c
  | .recordListPage id now runId page => (GithubCatalog.recordListPage id now runId page).commit c
  | .applyListAuthority listIds memberIds removalIds now runId accountId =>
    (applyListAuthorityAndComplete listIds memberIds removalIds now runId accountId).commit c
  | .recordAttempt ids context pid kind key outcome detail =>
    (GithubCatalog.recordAttempt ids context pid kind key outcome detail).commit c
  | .persistConfirmedStar ids now context pid key direction =>
    (GithubCatalog.persistConfirmedStar ids now context pid key direction).commit c
  | .persistListMembership ids now context pid listId key change desired =>
    (GithubCatalog.persistListMembership ids now context pid listId key change desired).commit c
  | .trackRepository fresh now pid => (GithubCatalog.trackRepository fresh now pid).commit c
  | .setRepositoryMode ids now context pid requested key =>
    (setRepositoryModeInTx ids now context pid requested key).commit c
  | .startImportRun id source => (GithubCatalog.startImportRun id source).commit c
  | .importLegacy accountIds ids now request id =>
    (importLegacyTransaction accountIds ids now request id).commit c
  | .recordImportFailure now id code => (GithubCatalog.recordImportFailure now id code).commit c
  | .persistShadowReport report => (GithubCatalog.persistShadowReport report).commit c
  | .registerCredential now account verified credential =>
    (GithubCatalog.registerCredential now account verified credential).commit c
  | .claimSyncCommand id payload => (GithubCatalog.claimSyncCommand id payload).commit c
  | .consumeInboxEvent now id => (GithubCatalog.consumeInboxEvent now id).commit c
  | .recordRelayResult now id result => (GithubCatalog.recordRelayResult now id result).commit c
  | .claimAction owner request => (GithubCatalog.claimAction owner request).commit c
  | .completeAction now owner request result =>
    (GithubCatalog.completeAction now owner request result).commit c
  | .storeReadme _ bytes => (GithubCatalog.storeReadme k bytes).commit c
  | .applyFreshSource id now r body etag readme readmeEtag =>
    (GithubCatalog.applyFreshSource k id now r body etag readme readmeEtag).commit c
  | .applyNotModified now r => (GithubCatalog.applyNotModified now r).commit c
  | .recordObservationAttempt now r => (GithubCatalog.recordObservationAttempt now r).commit c
  | .registerWatch fresh owner r baseline =>
    (registerRepositoryAnalysisWatch fresh owner r baseline).commit c
  | .setWatchEnabled id enabled => (setRepositoryAnalysisWatchEnabled id enabled).commit c
  | .evaluateWatches ids now r => (evaluateMetadataWatches k ids now r).commit c
  | .dispatchAnalysis id now => (dispatchDueRepositoryAnalysis k id now).commit c
  | .consumeTerminalFact now id fact status =>
    (GithubCatalog.consumeTerminalFact k now id fact status).commit c
  | .markDirty now => (markBackupPolicyDirty now).commit c
  | .publishDue now id => (publishDueBackupPolicy k now id).commit c
  | .recordAcknowledgment now id ack => (recordBackupPolicyAcknowledgment now id ack).commit c
  | .editBackupPolicies rows => (GithubCatalog.editBackupPolicies rows).commit c
  | .eraseAccount now owner operation => (eraseAccountInTx now owner operation).commit c

/-! ### What an operation writes -/

/-- The tables an operation may write. -/
def writes : Operation → List Table
  | .upsertRepository .. => [.repositories]
  | .recordAlias .. => [.repositoryAliases]
  | .applyAliasObservation .. => [.repositories, .repositoryAliases]
  | .openRun .. => [.syncRuns]
  | .recordPage .. => [.snapshotItems, .syncCheckpoints, .syncRuns]
  | .failRun .. => [.syncRuns, .snapshotItems, .listSnapshotItems]
  | .applyAuthority .. => [.starObservations, .reconciliationRepairs, .currentStarState,
      .repositories, .starWatermarks, .snapshotItems, .syncRuns]
  | .recordIngest .. => [.starObservations, .currentStarState, .repositories]
  | .recordIncrementalPage .. => [.syncCheckpoints, .syncRuns]
  | .completeRun .. => [.starWatermarks, .syncRuns]
  | .recordListPage .. => [.listSnapshotItems, .syncCheckpoints, .syncRuns]
  | .applyListAuthority .. => [.starLists, .starListMembershipObservations, .starListMemberships,
      .listSnapshotItems, .syncRuns]
  | .recordAttempt .. => [.repositories, .mutationAudit]
  | .persistConfirmedStar .. =>
    [.repositories, .currentStarState, .backupPolicyPublicationCursor, .mutationAudit]
  | .persistListMembership .. => [.repositories, .starListMemberships, .mutationAudit]
  | .trackRepository .. => [.repositories, .backupPolicyPublicationCursor]
  | .setRepositoryMode .. => [.repositories, .backupPolicyPublicationCursor, .mutationAudit]
  | .startImportRun .. => [.legacyImportRuns]
  | .importLegacy .. => importTables
  | .recordImportFailure .. => [.legacyImportRuns]
  | .persistShadowReport .. => [.legacyShadowReports]
  | .registerCredential .. => [.githubAccounts, .githubAccountCredentials]
  | .claimSyncCommand .. => [.inboxEvents]
  | .consumeInboxEvent .. => [.inboxEvents]
  | .recordRelayResult .. => [.outboxEvents]
  | .claimAction .. => [.repositoryActionAttempts]
  | .completeAction .. => [.repositoryActionAttempts]
  | .storeReadme .. => [.repositoryReadmeBlobs]
  | .applyFreshSource .. => [.repositoryMetadata, .repositoryMetadataRevisions]
  | .applyNotModified .. => [.repositoryMetadata]
  | .recordObservationAttempt .. => [.repositoryMetadata]
  | .registerWatch .. => [.repositoryWatches]
  | .setWatchEnabled .. => [.repositoryWatches]
  | .evaluateWatches .. =>
    [.repositoryAnalysisRequests, .repositoryWatches, .repositoryAnalysisDispatchCursor]
  | .dispatchAnalysis .. => [.outboxEvents, .repositoryAnalysisRequests]
  | .consumeTerminalFact .. =>
    [.inboxEvents, .repositoryAnalysisRequests, .repositoryAnalysisLinks]
  | .markDirty .. => [.backupPolicyPublicationCursor]
  | .publishDue .. => [.backupPolicyPublicationCursor, .backupPolicyPublications, .outboxEvents]
  | .recordAcknowledgment .. => [.inboxEvents, .backupPolicyFeedback]
  | .editBackupPolicies .. => [.backupPolicies]
  | .eraseAccount .. => erasureTables

/-- **The frame of an operation.** -/
theorem commit_agreeOff (k : Contracts) (c : Catalog) (op : Operation) :
    AgreeOff op.writes c.tables (op.commit k c).tables := by
  cases op with
  | upsertRepository => exact (touches_upsertRepositoryInTx _ _).commit c
  | recordAlias => exact (touches_recordAlias _ _ _ _ _).commit c
  | applyAliasObservation => exact (touches_applyAliasObservation _ _ _ _ _ _).commit c
  | openRun => exact (touches_insertSyncRun _ _ _ _).commit c
  | recordPage => exact (touches_recordPage _ _ _ _ _ _).commit c
  | failRun => exact (touches_failRun _ _ _).commit c
  | applyAuthority => exact (touches_applyAuthorityAndComplete _ _ _ _ _).commit c
  | recordIngest => exact (touches_recordIngest _ _ _ _ _ _).commit c
  | recordIncrementalPage => exact (touches_recordIncrementalPage _ _ _ _ _ _).commit c
  | completeRun => exact (touches_completeRun _ _ _ _ _ _).commit c
  | recordListPage => exact (touches_recordListPage _ _ _ _).commit c
  | applyListAuthority => exact (touches_applyListAuthorityAndComplete _ _ _ _ _ _).commit c
  | recordAttempt => exact (touches_recordAttempt _ _ _ _ _ _ _).commit c
  | persistConfirmedStar => exact (touches_persistConfirmedStar _ _ _ _ _ _).commit c
  | persistListMembership => exact (touches_persistListMembership _ _ _ _ _ _ _ _).commit c
  | trackRepository => exact (touches_trackRepository _ _ _).commit c
  | setRepositoryMode => exact (touches_setRepositoryModeInTx _ _ _ _ _ _).commit c
  | importLegacy => exact (touches_importLegacyTransaction _ _ _ _ _).commit c
  | registerCredential => exact (touches_registerCredential _ _ _ _).commit c
  | claimSyncCommand => exact (touches_claimSyncCommand _ _).commit c
  | claimAction => exact (touches_claimAction _ _).commit c
  | completeAction => exact (touches_completeAction _ _ _ _).commit c
  | storeReadme => exact (touches_storeReadme _ _).commit c
  | applyFreshSource => exact (touches_applyFreshSource _ _ _ _ _ _ _ _).commit c
  | applyNotModified => exact (touches_touchFetchedAt _ _).commit c
  | recordObservationAttempt => exact (touches_recordObservationAttempt _ _).commit c
  | registerWatch => exact (touches_registerRepositoryAnalysisWatch _ _ _ _).commit c
  | evaluateWatches => exact (touches_evaluateMetadataWatches _ _ _ _).commit c
  | dispatchAnalysis => exact (touches_dispatchDueRepositoryAnalysis _ _ _).commit c
  | consumeTerminalFact => exact (touches_consumeTerminalFact _ _ _ _ _).commit c
  | markDirty => exact (touches_markBackupPolicyDirtyInTx _).commit c
  | publishDue => exact (touches_publishDueBackupPolicy _ _ _).commit c
  | recordAcknowledgment => exact (touches_recordBackupPolicyAcknowledgment _ _ _).commit c
  | eraseAccount => exact (touches_eraseAccountInTx _ _ _).commit c
  -- The rest are single statements.
  | startImportRun | recordImportFailure | persistShadowReport | consumeInboxEvent
  | recordRelayResult | setWatchEnabled | editBackupPolicies =>
    exact (Touches.write (List.mem_singleton.mpr rfl) _).commit c

/-- Whether an operation erases an account. -/
def erases : Operation → Bool
  | .eraseAccount .. => true
  | _ => false

/-- Whether an operation leaves a table alone. -/
def leaves (t : Table) (op : Operation) : Bool := !op.writes.contains t

theorem rows_commit (k : Contracts) (c : Catalog) (op : Operation) (t : Table)
    (h : op.leaves t = true) : (op.commit k c).tables.rows t = c.tables.rows t := by
  apply commit_agreeOff
  simpa [leaves] using h

theorem rows_commit_all (k : Contracts) (c : Catalog) (op : Operation) (ts : List Table)
    (h : (ts.all fun t => op.leaves t) = true) :
    ∀ t ∈ ts, (op.commit k c).tables.rows t = c.tables.rows t :=
  fun t ht => rows_commit k c op t (List.all_eq_true.mp h t ht)

end Operation

/-- One operation of the service. -/
def step (k : Contracts) (c : Catalog) (op : Operation) : Catalog :=
  if op.admissible c.tables then op.commit k c else c

/-- The catalogs some history of operations reaches. -/
def Reachable (k : Contracts) (c : Catalog) : Prop :=
  ∃ history, Runs.runFrom (step k) emptyCatalog history = c

/-- **Induction over histories.**  What holds of the empty catalog and is kept by every admissible
operation holds of every reachable one. -/
theorem Reachable.induct {k : Contracts} {P : Catalog → Prop} (hempty : P emptyCatalog)
    (hstep : ∀ (c : Catalog) (op : Operation), P c → op.admissible c.tables = true →
      P (op.commit k c)) {c : Catalog} (hc : Reachable k c) : P c := by
  obtain ⟨history, rfl⟩ := hc
  apply Runs.invariant_runFrom _ hempty
  intro s op hs
  unfold step
  split
  · next h => exact hstep s op hs h
  · exact hs

/-! ### Two connected owners

Accounts enter the catalog through a legacy import and are connected by their owner's credential;
the concrete histories of the development start here. -/

/-- The import of two retired users, accounts 1 and 2 of two owners. -/
def importOwners : Operation :=
  .importLegacy (BitVec.ofInt 128) (fun _ n => BitVec.ofNat 128 n) 0
    ⟨"retired", [(1, "owner-a"), (2, "owner-b")],
      ⟨[], [⟨1, none, none, none⟩, ⟨2, none, none, none⟩]⟩⟩
    1

/-- The credential of one of them. -/
def connectAccount (accountId : Uuid) (providerUserId : ℤ) : Operation :=
  .registerCredential 0 accountId ⟨providerUserId, "login", ["repo", "user"]⟩
    ⟨accountId, "v1", .pat, none, List.replicate 32 0, List.replicate 12 0, 0⟩

/-- Both accounts connected. -/
def connectOwners : List Operation := [importOwners, connectAccount 1 7, connectAccount 2 8]

/-- The list snapshot of an account: its run, one page and the swap. -/
def listSnapshot (runId accountId : Uuid) (providerListId : String) : List Operation :=
  [.openRun .starLists runId accountId 0,
    .recordListPage (runId + 100) 0 runId
      ⟨[⟨providerListId, "reading", [⟨101, "owner/name"⟩], false⟩], none⟩,
    .applyListAuthority (fun n => runId + 200 + BitVec.ofNat 128 n)
      (fun n => runId + 300 + BitVec.ofNat 128 n) (fun n => runId + 400 + BitVec.ofNat 128 n) 0 runId
      accountId]

example : ((Runs.runFrom (step sampleContracts) emptyCatalog connectOwners).tables.githubAccounts.map
    fun a => (a.accountId, a.ownerRef, decide (a.status = .connected))) =
    [(1, "owner-a", true), (2, "owner-b", true)] := by
  decide +kernel

end GithubCatalog
