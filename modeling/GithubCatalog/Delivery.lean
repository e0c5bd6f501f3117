import GithubCatalog.Contracts
import GithubCatalog.Transaction

/-!
# Credentials, the bus boundary and confirmed actions

The small transactions around the catalog's core: registering a verified credential
(`credentials.rs`), claiming and settling an inbound command (`commands.rs`), the relay's updates of an
outbox row (`relay.rs`), and the replay boundary of repository actions
(`repository_action_attempts.rs`).
-/

namespace GithubCatalog

open Relational

/-! ### Credentials -/

/-- `VerifiedGithubAccount`. -/
structure VerifiedGithubAccount where
  providerUserId : ℤ
  login : String
  grantedScopes : List String
deriving DecidableEq

/-- `register_credential`, of an already encrypted token. -/
def registerCredential (now : Time) (accountId : Uuid) (verified : VerifiedGithubAccount)
    (credential : GithubAccountCredential) : Tx Unit :=
  if verified.providerUserId ≤ 0 ∨ verified.login = "" then
    abort .accountNotAwaitingReauthorization
  else do
    require .accountNotAwaitingReauthorization fun db => db.githubAccounts.any fun a =>
      decide (a.accountId = accountId) && decide (a.status = .reauthorizationRequired)
    write .githubAccounts fun db =>
      updateWhere (fun a => decide (a.accountId = accountId) &&
          decide (a.status = .reauthorizationRequired))
        (fun a => { a with
          status := .connected, providerUserId := some verified.providerUserId
          providerLogin := some verified.login, grantedScopes := verified.grantedScopes })
        db.githubAccounts
    write .githubAccountCredentials fun db =>
      upsertWhere (fun c => decide (c.accountId = accountId))
        (fun _ => { credential with accountId := accountId, updatedAt := now })
        { credential with accountId := accountId, updatedAt := now } db.githubAccountCredentials

/-! ### Inbound commands -/

/-- The claim of a synchronization command: whether this delivery is the first. -/
def claimSyncCommand (commandId : Uuid) (payload : Jsonb) : Tx Bool := do
  let seen ← select fun db => db.inboxEvents.any fun e => decide (e.messageId = commandId)
  write .inboxEvents fun db =>
    insertUnless (fun e => decide (e.messageId = commandId))
      ⟨commandId, .syncRequested, payload, none⟩ db.inboxEvents
  pure !seen

/-- Mark an inbound message consumed. -/
def consumeInboxEvent (now : Time) (messageId : Uuid) : Tx Unit :=
  write .inboxEvents fun db =>
    updateWhere (fun e => decide (e.messageId = messageId))
      (fun e => { e with consumedAt := some now }) db.inboxEvents

/-! ### The relay -/

/-- What the relay learned about one outbox row. -/
inductive RelayResult where
  | acknowledged
  | failed (error : RelayError) (backoff : Time)
  | tooLarge
deriving DecidableEq

/-- The relay's update of one outbox row; none of them touches its id, subject or payload. -/
def settleOutboxRow (now : Time) (result : RelayResult) (e : OutboxEvent) : OutboxEvent :=
  match result with
  | .acknowledged => { e with publishedAt := some now, lastError := none }
  | .failed error backoff =>
    { e with
      attemptCount := e.attemptCount + 1, lastError := some error, nextAttemptAt := now + backoff }
  | .tooLarge => { e with undeliverableAt := some now, lastError := some .payloadTooLarge }

/-- Whether the relay's update selects the row. -/
def RelayResult.selects (result : RelayResult) (messageId : Uuid) (e : OutboxEvent) : Bool :=
  decide (e.messageId = messageId) && e.publishedAt.isNone &&
    (decide (result ≠ .tooLarge) || e.undeliverableAt.isNone)

/-- One update of `flush_outbox` or `mark_undeliverable`. -/
def recordRelayResult (now : Time) (messageId : Uuid) (result : RelayResult) : Tx Unit :=
  write .outboxEvents fun db =>
    updateWhere (result.selects messageId) (settleOutboxRow now result) db.outboxEvents

/-! ### Confirmed actions -/

/-- `RepositoryActionRequest`, with its serialized fingerprint. -/
structure RepositoryActionRequest where
  idempotencyKey : String
  fingerprint : Jsonb
  mode : ActionMode
  githubRepositoryNumericId : ℤ
  repositoryFullName : String
  canonicalUrl : String
  accountRef : Option String
  confirmationEvidenceRef : String
deriving DecidableEq

inductive ActionClaim where
  | execute
  | replay (result : Jsonb)
  | conflict
deriving DecidableEq

/-- `claim_action`. -/
def claimAction (ownerRef : String) (request : RepositoryActionRequest) : Tx ActionClaim := do
  let existing ← select fun db => db.repositoryActionAttempts.find? fun a =>
    decide (a.idempotencyKey = request.idempotencyKey)
  match existing with
  | none => do
    write .repositoryActionAttempts fun db => db.repositoryActionAttempts ++
      [⟨ownerRef, request.idempotencyKey, request.fingerprint, request.mode,
        request.githubRepositoryNumericId, request.repositoryFullName, request.canonicalUrl,
        request.accountRef, request.confirmationEvidenceRef, .inProgress, none, none⟩]
    pure .execute
  | some a =>
    if a.ownerRef ≠ ownerRef ∨ a.requestFingerprint ≠ request.fingerprint then pure .conflict
    else match a.status, a.result with
      | .completed, some result => pure (.replay result)
      | _, _ => pure .conflict

/-- `complete_action`. -/
def completeAction (now : Time) (ownerRef : String) (request : RepositoryActionRequest)
    (result : Jsonb) : Tx Unit := do
  let matching := fun a : RepositoryActionAttempt => decide (a.ownerRef = ownerRef) &&
    decide (a.idempotencyKey = request.idempotencyKey) &&
    decide (a.requestFingerprint = request.fingerprint) && decide (a.status = .inProgress)
  require (.query .rowNotFound) fun db => db.repositoryActionAttempts.any matching
  write .repositoryActionAttempts fun db =>
    updateWhere matching
      (fun a => { a with status := .completed, result := some result, completedAt := some now })
      db.repositoryActionAttempts

/-! ### Frames -/

theorem touches_registerCredential (now : Time) (accountId : Uuid) (v : VerifiedGithubAccount)
    (credential : GithubAccountCredential) :
    Touches [.githubAccounts, .githubAccountCredentials]
      (registerCredential now accountId v credential) := by
  unfold registerCredential
  split
  · exact Touches.abort _
  · exact (Touches.require _ _).bind fun _ => (Touches.write (by decide) _).bind fun _ =>
      Touches.write (by decide) _

theorem touches_claimSyncCommand (commandId : Uuid) (payload : Jsonb) :
    Touches [.inboxEvents] (claimSyncCommand commandId payload) :=
  (Touches.select _).bind fun _ => (Touches.write (by decide) _).bind fun _ => Touches.pure _

theorem touches_claimAction (owner : String) (request : RepositoryActionRequest) :
    Touches [.repositoryActionAttempts] (claimAction owner request) := by
  refine (Touches.select _).bind fun existing => ?_
  cases existing with
  | none => exact (Touches.write (by decide) _).bind fun _ => Touches.pure _
  | some a =>
    dsimp only
    split
    · exact Touches.pure _
    · split
      · exact Touches.pure _
      · exact Touches.pure _

theorem touches_completeAction (now : Time) (owner : String) (request : RepositoryActionRequest)
    (result : Jsonb) :
    Touches [.repositoryActionAttempts] (completeAction now owner request result) :=
  (Touches.require _ _).bind fun _ => Touches.write (by decide) _

end GithubCatalog
