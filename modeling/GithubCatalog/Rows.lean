import GithubCatalog.Lib.Jsonb
import Mathlib.Data.Int.Basic
import Mathlib.Order.Basic

/-!
# The rows of the `github_catalog` schema

One structure per table of `schema.sql`, a column a field, and the closed vocabularies of its check
constraints as inductive types.  A row type leaves out the columns no function of the service reads
(`created_at` and `updated_at` bookkeeping, `pinned`) and the columns a check pins to one value
(`media_type`, `trigger_type`, `downstream_action`, `requested_contract`, the cursors' `scope`).

Identifiers are 128-bit words, instants are naturals counting microseconds, `bigint` and `integer` columns
are integers with their range stated by the row check, and bytes are lists.
-/

namespace GithubCatalog

/-- A `uuid` value: 128 bits, ordered as PostgreSQL orders them. -/
abbrev Uuid := BitVec 128

instance : LawfulBEq Uuid := inferInstance

/-- A `timestamptz` value. -/
abbrev Time := ℕ

/-- Whether an integer fits a `bigint` column. -/
def fitsBigint (n : ℤ) : Bool := decide (-(2 ^ 63) ≤ n) && decide (n < 2 ^ 63)

/-- Whether an integer fits an `integer` column. -/
def fitsInteger (n : ℤ) : Bool := decide (-(2 ^ 31) ≤ n) && decide (n < 2 ^ 31)

/-! ### The text patterns of the check constraints -/

/-- `[0-9a-f]`. -/
def isHexChar (c : Char) : Bool := c.isDigit || (decide ('a' ≤ c) && decide (c ≤ 'f'))

/-- `[a-z]`. -/
def isLowerChar (c : Char) : Bool := decide ('a' ≤ c) && decide (c ≤ 'z')

/-- `^<head><tail>{lo,hi}$`. -/
def matchesWord (head tail : Char → Bool) (lo hi : ℕ) (text : String) : Bool :=
  match text.toList with
  | [] => false
  | c :: cs => head c && cs.all tail && decide (lo ≤ cs.length) && decide (cs.length ≤ hi)

/-- A fixed-length pattern, one class of characters a position. -/
def matchesShape (shape : List (Char → Bool)) (text : String) : Bool :=
  decide (text.toList.length = shape.length) &&
    (List.zipWith (fun p c => p c) shape text.toList).all id

/-- `[0-9a-f]{8}-[0-9a-f]{4}-[0-9a-f]{4}-[0-9a-f]{4}-[0-9a-f]{12}`. -/
def uuidShape : List (Char → Bool) :=
  List.replicate 8 isHexChar ++ [(· == '-')] ++ List.replicate 4 isHexChar ++ [(· == '-')] ++
    List.replicate 4 isHexChar ++ [(· == '-')] ++ List.replicate 4 isHexChar ++ [(· == '-')] ++
    List.replicate 12 isHexChar

/-- `^user:<uuid>$`. -/
def isUserRef (text : String) : Bool :=
  matchesShape ("user:".toList.map (fun c d => d == c) ++ uuidShape) text

/-- `^[a-z][a-z0-9-]{1,63}$`. -/
def isOwnerSlug (text : String) : Bool :=
  matchesWord isLowerChar (fun c => isLowerChar c || c.isDigit || c == '-') 1 63 text

/-- The `owner_ref` pattern of `github_accounts`. -/
def isOwnerRef (text : String) : Bool := isUserRef text || isOwnerSlug text

/-- `^[a-z0-9][a-z0-9._-]{0,63}$`. -/
def isSourceId (text : String) : Bool :=
  matchesWord (fun c => isLowerChar c || c.isDigit)
    (fun c => isLowerChar c || c.isDigit || c == '.' || c == '_' || c == '-') 0 63 text

/-- `^[a-zA-Z0-9][a-zA-Z0-9._-]{0,63}$`. -/
def isKeyVersion (text : String) : Bool :=
  matchesWord Char.isAlphanum (fun c => c.isAlphanum || c == '.' || c == '_' || c == '-') 0 63 text

/-- `^[0-9a-f]{64}$`. -/
def isDigestHex (text : String) : Bool := matchesShape (List.replicate 64 isHexChar) text

/-! ### Accounts -/

inductive AccountStatus where
  | connected | reauthorizationRequired | revoked
deriving DecidableEq

structure GithubAccount where
  accountId : Uuid
  ownerRef : String
  status : AccountStatus
  providerUserId : Option ℤ
  providerLogin : Option String
  grantedScopes : List String
deriving DecidableEq

def GithubAccount.check (a : GithubAccount) : Bool :=
  isOwnerRef a.ownerRef &&
    (a.status != .connected || a.providerUserId.isSome) &&
    a.providerUserId.all fun n => decide (0 < n) && fitsBigint n

inductive CredentialKind where
  | pat | oauth
deriving DecidableEq

structure GithubAccountCredential where
  accountId : Uuid
  keyVersion : String
  credentialKind : CredentialKind
  oauthClientId : Option String
  encryptedToken : List UInt8
  nonce : List UInt8
  updatedAt : Time
deriving DecidableEq

def GithubAccountCredential.check (c : GithubAccountCredential) : Bool :=
  isKeyVersion c.keyVersion &&
    (decide (c.credentialKind = .oauth) == c.oauthClientId.isSome) &&
    decide (16 < c.encryptedToken.length) && decide (c.nonce.length = 12)

/-! ### The retired source -/

inductive ImportRunStatus where
  | running | completed | failed
deriving DecidableEq

inductive ImportFailureCode where
  | conflictingSourceData | aliasConflict | persistence
deriving DecidableEq

structure LegacyImportRun where
  importRunId : Uuid
  sourceId : String
  status : ImportRunStatus
  accountsImported : ℤ
  repositoriesImported : ℤ
  starClaimsImported : ℤ
  listClaimsImported : ℤ
  failureCode : Option ImportFailureCode
  finishedAt : Option Time
deriving DecidableEq

def LegacyImportRun.check (r : LegacyImportRun) : Bool :=
  isSourceId r.sourceId && (decide (r.status = .running) == r.finishedAt.isNone) &&
    (decide (r.status = .failed) == r.failureCode.isSome)

structure LegacyImportAccount where
  sourceId : String
  legacyUserId : ℤ
  accountId : Uuid
deriving DecidableEq

def LegacyImportAccount.check (a : LegacyImportAccount) : Bool :=
  isSourceId a.sourceId && decide (0 < a.legacyUserId)

structure LegacyImportRepositoryRecord where
  sourceId : String
  legacyRepositoryId : ℤ
  accountId : Uuid
  repositoryId : Uuid
  starred : Bool
deriving DecidableEq

structure LegacyListClaim where
  sourceId : String
  legacyRepositoryId : ℤ
  accountId : Uuid
  repositoryId : Uuid
  listName : String
  observedAt : Time
deriving DecidableEq

def LegacyListClaim.check (c : LegacyListClaim) : Bool :=
  isSourceId c.sourceId && decide (1 ≤ c.listName.length) && decide (c.listName.length ≤ 256)

structure LegacyShadowReport where
  reportId : Uuid
  sourceId : String
  reportDigest : String
  report : Jsonb
  cutoverReviewable : Bool
  createdAt : Time
deriving DecidableEq

def LegacyShadowReport.check (r : LegacyShadowReport) : Bool :=
  isSourceId r.sourceId && isDigestHex r.reportDigest && r.report.isObject

/-! ### Repositories, aliases and metadata -/

/-- Whose decision governs a repository; a null column is `none`, unclassified. -/
inductive RepositoryMode where
  | auto | tracked | ignored
deriving DecidableEq

structure Repository where
  repositoryId : Uuid
  providerRepositoryId : ℤ
  mode : Option RepositoryMode
deriving DecidableEq

inductive AliasKind where
  | ownerName | htmlUrl | cloneUrl
deriving DecidableEq

inductive AliasStatus where
  | active | superseded | released
deriving DecidableEq

structure RepositoryAlias where
  aliasId : Uuid
  repositoryId : Uuid
  aliasKind : AliasKind
  aliasValue : String
  status : AliasStatus
  redirectTo : Option Uuid
  createdAt : Time
deriving DecidableEq

def RepositoryAlias.check (a : RepositoryAlias) : Bool :=
  a.redirectTo.isNone || decide (a.status = .superseded)

structure RepositoryMetadata where
  repositoryId : Uuid
  description : Option String
  language : Option String
  stargazersCount : ℤ
  topics : Jsonb
  defaultBranch : Option String
  pushedAt : Option Time
  providerEtag : Option String
  readmeEtag : Option String
  readmeRevision : Jsonb
  contentHash : String
  fetchedAt : Time
  observeAttemptedAt : Option Time
deriving DecidableEq

def RepositoryMetadata.check (m : RepositoryMetadata) : Bool :=
  m.topics.isArray && m.readmeRevision.isObject

structure RepositoryMetadataRevision where
  revisionId : Uuid
  repositoryId : Uuid
  payload : Jsonb
  contentHash : String
  observedAt : Time
deriving DecidableEq

structure RepositoryReadmeBlob where
  contentDigest : String
  bytes : List UInt8
  lengthBytes : ℤ
deriving DecidableEq

def RepositoryReadmeBlob.check (b : RepositoryReadmeBlob) : Bool :=
  isDigestHex b.contentDigest && decide (b.lengthBytes = b.bytes.length)

/-! ### Synchronization runs and their staging -/

inductive SyncMode where
  | incremental | full | starLists
deriving DecidableEq

inductive SyncStatus where
  | running | completed | failed | cancelled
deriving DecidableEq

structure SyncRun where
  syncRunId : Uuid
  accountId : Uuid
  mode : SyncMode
  status : SyncStatus
  failureReason : Option String
  pagesProcessed : ℤ
  itemsObserved : ℤ
  additions : ℤ
  unstars : ℤ
  listsObserved : ℤ
  removals : ℤ
  startedAt : Time
  finishedAt : Option Time
deriving DecidableEq

def SyncRun.check (r : SyncRun) : Bool :=
  (decide (r.status = .running) == r.finishedAt.isNone) &&
    (decide (r.status = .failed) == r.failureReason.isSome) &&
    fitsInteger r.pagesProcessed && fitsInteger r.itemsObserved && fitsInteger r.listsObserved

structure SyncCheckpoint where
  checkpointId : Uuid
  syncRunId : Uuid
  nextPage : ℤ
  boundaryStarredAt : Option Time
  graphqlCursor : Option String
  recordedAt : Time
deriving DecidableEq

structure SnapshotItem where
  syncRunId : Uuid
  position : ℤ
  providerRepositoryId : ℤ
  providerStarredAt : Option Time
deriving DecidableEq

structure ListSnapshotItem where
  syncRunId : Uuid
  position : ℤ
  providerListId : String
  listName : String
  providerRepositoryId : ℤ
deriving DecidableEq

/-! ### Stars -/

structure StarObservation where
  observationId : Uuid
  accountId : Uuid
  repositoryId : Uuid
  starred : Bool
  providerStarredAt : Option Time
  providerStarredAtUnknown : Bool
  observedAt : Time
deriving DecidableEq

def StarObservation.check (o : StarObservation) : Bool :=
  !o.starred || o.providerStarredAt.isSome || o.providerStarredAtUnknown

structure CurrentStarState where
  accountId : Uuid
  repositoryId : Uuid
  starred : Bool
  starredAt : Option Time
  providerStarredAtUnknown : Bool
  lastObservedAt : Time
  observedUnstarredAt : Option Time
  evidenceRunId : Option Uuid
deriving DecidableEq

def CurrentStarState.check (c : CurrentStarState) : Bool :=
  (c.starred || c.observedUnstarredAt.isSome) &&
    (!c.starred || c.starredAt.isSome || c.providerStarredAtUnknown)

structure StarWatermark where
  accountId : Uuid
  highWaterMark : Time
deriving DecidableEq

inductive RepairAction where
  | unstarAfterDrift | restoreAfterMiss
deriving DecidableEq

structure ReconciliationRepair where
  syncRunId : Uuid
  repositoryId : Uuid
  action : RepairAction
deriving DecidableEq

/-! ### Native star lists -/

inductive StarListStatus where
  | active | removed
deriving DecidableEq

structure StarList where
  listId : Uuid
  accountId : Uuid
  providerListId : String
  name : String
  status : StarListStatus
  observedRemovedAt : Option Time
  evidenceRunId : Option Uuid
deriving DecidableEq

def StarList.check (l : StarList) : Bool :=
  decide (l.status = .active) || l.observedRemovedAt.isSome

structure StarListMembership where
  listId : Uuid
  repositoryId : Uuid
  member : Bool
  lastObservedAt : Time
  observedRemovedAt : Option Time
  evidenceRunId : Option Uuid
deriving DecidableEq

def StarListMembership.check (m : StarListMembership) : Bool :=
  m.member || m.observedRemovedAt.isSome

structure StarListMembershipObservation where
  observationId : Uuid
  listId : Uuid
  repositoryId : Uuid
  member : Bool
  observedAt : Time
  evidenceRunId : Option Uuid
deriving DecidableEq

/-! ### Watches and analysis requests -/

structure RepositoryWatch where
  watchId : Uuid
  ownerRef : String
  repositoryId : Uuid
  enabled : Bool
  lastEvaluatedContentHash : Option String
deriving DecidableEq

def RepositoryWatch.check (w : RepositoryWatch) : Bool := isUserRef w.ownerRef

inductive AnalysisRequestStatus where
  | queued | pending | completed | failed
deriving DecidableEq

structure RepositoryAnalysisRequest where
  requestId : Uuid
  watchId : Uuid
  ownerRef : String
  repositoryId : Uuid
  githubRepositoryNumericId : ℤ
  sourceRevision : Jsonb
  repositoryAttributes : Jsonb
  requestPayload : Jsonb
  attributesDigestHex : String
  idempotencyDigestHex : String
  status : AnalysisRequestStatus
  notBefore : Time
  outboxMessageId : Option Uuid
  analysisResultRef : Option String
  failureCode : Option String
  retryable : Option Bool
  terminalAt : Option Time
deriving DecidableEq

/-- The terminal check: which columns each status fills. -/
def RepositoryAnalysisRequest.terminalCheck (r : RepositoryAnalysisRequest) : Bool :=
  match r.status with
  | .queued => r.outboxMessageId.isNone && r.analysisResultRef.isNone && r.failureCode.isNone &&
      r.retryable.isNone && r.terminalAt.isNone
  | .pending => r.outboxMessageId.isSome && r.analysisResultRef.isNone && r.failureCode.isNone &&
      r.retryable.isNone && r.terminalAt.isNone
  | .completed => r.outboxMessageId.isSome && r.analysisResultRef.isSome && r.failureCode.isNone &&
      r.retryable.isNone && r.terminalAt.isSome
  | .failed => r.outboxMessageId.isSome && r.analysisResultRef.isNone && r.failureCode.isSome &&
      r.retryable.isSome && r.terminalAt.isSome

def RepositoryAnalysisRequest.check (r : RepositoryAnalysisRequest) : Bool :=
  isUserRef r.ownerRef && decide (0 < r.githubRepositoryNumericId) &&
    isDigestHex r.attributesDigestHex && isDigestHex r.idempotencyDigestHex &&
    r.sourceRevision.isObject && r.repositoryAttributes.isObject && r.requestPayload.isObject &&
    r.terminalCheck

structure RepositoryAnalysisLink where
  ownerRef : String
  repositoryId : Uuid
  requestId : Uuid
  analysisResultRef : String
  completedAt : Time
deriving DecidableEq

def RepositoryAnalysisLink.check (l : RepositoryAnalysisLink) : Bool := isUserRef l.ownerRef

/-! ### Desired backup policy -/

inductive PolicyLevel where
  | none | metadataOnly | gitMirror | gitMirrorWithLfs | completeArchive
deriving DecidableEq

inductive MirrorCadence where
  | eager | daily | weekly
deriving DecidableEq

inductive PriorityHint where
  | critical | standard | bulk
deriving DecidableEq

structure BackupPolicy where
  backupPolicyId : Uuid
  repositoryId : Uuid
  policyLevel : PolicyLevel
  mirrorCadence : MirrorCadence
  priorityHint : PriorityHint
  sizeHintBytes : Option ℤ
  exclusions : Jsonb
deriving DecidableEq

def BackupPolicy.check (p : BackupPolicy) : Bool :=
  (p.sizeHintBytes.all fun n => decide (0 < n) && fitsBigint n) && p.exclusions.isArray

structure BackupPolicyPublicationCursor where
  dirtyGeneration : ℤ := 0
  publishedGeneration : ℤ := 0
  notBefore : Option Time := none
  lastPolicyVersion : ℤ := 0
  lastFingerprint : Option String := none
deriving DecidableEq

def BackupPolicyPublicationCursor.check (c : BackupPolicyPublicationCursor) : Bool :=
  decide (c.publishedGeneration ≤ c.dirtyGeneration) && fitsBigint c.dirtyGeneration &&
    fitsBigint c.publishedGeneration && fitsBigint c.lastPolicyVersion

structure BackupPolicyPublication where
  policyVersion : ℤ
  fingerprint : String
  document : Jsonb
deriving DecidableEq

def BackupPolicyPublication.check (p : BackupPolicyPublication) : Bool :=
  decide (0 < p.policyVersion) && p.document.isObject

inductive PolicyOutcome where
  | accepted | rejected
deriving DecidableEq

structure BackupPolicyFeedback where
  messageId : Uuid
  acknowledgedPolicyVersion : ℤ
  outcome : PolicyOutcome
  lastAppliedPolicyVersion : ℤ
  reasons : Jsonb
  receivedAt : Time
deriving DecidableEq

def BackupPolicyFeedback.check (f : BackupPolicyFeedback) : Bool :=
  decide (0 < f.acknowledgedPolicyVersion) && decide (0 ≤ f.lastAppliedPolicyVersion) &&
    f.reasons.isArray

/-! ### Audit, action attempts, the bus and erasures -/

inductive OperationKind where
  | star | unstar | listMemberAdd | listMemberRemove | modeSet
deriving DecidableEq

inductive MutationSource where
  | telegram | web
deriving DecidableEq

inductive AuditOutcome where
  | applied | alreadyApplied | rejected | failed
deriving DecidableEq

structure MutationAudit where
  auditId : Uuid
  idempotencyKey : String
  accountId : Uuid
  repositoryId : Uuid
  listId : Option Uuid
  operationKind : OperationKind
  principal : String
  source : MutationSource
  outcome : AuditOutcome
  detail : Jsonb
deriving DecidableEq

/-- `outcome in ('applied', 'already_applied')`. -/
def MutationAudit.succeeded (a : MutationAudit) : Bool :=
  decide (a.outcome = .applied) || decide (a.outcome = .alreadyApplied)

def MutationAudit.check (a : MutationAudit) : Bool := a.detail.isObject

inductive ActionMode where
  | metadata | track | star
deriving DecidableEq

inductive AttemptStatus where
  | inProgress | completed
deriving DecidableEq

structure RepositoryActionAttempt where
  ownerRef : String
  idempotencyKey : String
  requestFingerprint : Jsonb
  mode : ActionMode
  githubRepositoryNumericId : ℤ
  repositoryFullName : String
  canonicalUrl : String
  accountRef : Option String
  confirmationEvidenceRef : String
  status : AttemptStatus
  result : Option Jsonb
  completedAt : Option Time
deriving DecidableEq

def RepositoryActionAttempt.check (a : RepositoryActionAttempt) : Bool :=
  isUserRef a.ownerRef && decide (0 < a.githubRepositoryNumericId) &&
    a.requestFingerprint.isObject && a.result.all Jsonb.isObject &&
    (decide (a.status = .completed) == a.result.isSome) &&
    (decide (a.status = .completed) == a.completedAt.isSome)

inductive OutboxSubject where
  | syncRequested | repositoryObserved | starObserved | starRemoved | backupPolicyChanged
  | analysisRequested | backupPolicyApply
deriving DecidableEq

inductive RelayError where
  | publishFailed | ackFailed | ackTimeout | payloadTooLarge
deriving DecidableEq

structure OutboxEvent where
  messageId : Uuid
  subject : OutboxSubject
  payload : Jsonb
  createdAt : Time
  publishedAt : Option Time
  attemptCount : ℤ
  nextAttemptAt : Time
  lastError : Option RelayError
  undeliverableAt : Option Time
deriving DecidableEq

def OutboxEvent.check (e : OutboxEvent) : Bool :=
  e.payload.isObject && decide (0 ≤ e.attemptCount) && fitsInteger e.attemptCount

inductive InboxSubject where
  | syncRequested | repositoryObserved | starObserved | starRemoved | backupPolicyChanged
  | policyAcknowledged | analysisCompleted | analysisFailed
deriving DecidableEq

structure InboxEvent where
  messageId : Uuid
  subject : InboxSubject
  payload : Jsonb
  consumedAt : Option Time
deriving DecidableEq

def InboxEvent.check (e : InboxEvent) : Bool := e.payload.isObject

inductive ErasureOutcome where
  | verified | incompleteExternalGrantRevocation
deriving DecidableEq

structure AccountErasureOperation where
  operationId : Uuid
  ownerDigest : String
  outcome : ErasureOutcome
deriving DecidableEq

def AccountErasureOperation.check (o : AccountErasureOperation) : Bool := isDigestHex o.ownerDigest

end GithubCatalog
