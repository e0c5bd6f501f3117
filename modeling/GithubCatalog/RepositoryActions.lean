import GithubCatalog.Catalog

/-!
# The action route of the host-local API
(`repository_api.rs`, `repository_action_attempts.rs`)

A request claims its idempotency key with one statement, reads the attempt that holds the key when
the claim found one, executes the action when the claim was its own, and records the result with a
third statement.  Requests run side by side, so each of these is a step of its own.

* `executeAction` - the work between the claim and the completion, as a function of what its calls
  answer (`ActionEnvironment`);
* `ActionCall.step` - one step of a request, with the fate of its statement and a possible crash;
* `ActionSystem` - the catalog and the requests in flight.

`execute_mutation`, `record_fresh_repository` and `track_repository` write other tables; in a system
these writes are operations of the catalog between the steps of the requests.
-/

namespace GithubCatalog

open Relational Runs Transact

/-! ### Results -/

inductive ActionRefusalReason where
  | notAuthorized | accountRequired | scopeMissing | targetChanged
deriving DecidableEq

inductive ActionFailureReason where
  | providerUnavailable | catalogPersistenceFailed | dependencyUnavailable | policyPublicationFailed
deriving DecidableEq

inductive ActionSkipReason where
  | prerequisiteFailed | notApplicable
deriving DecidableEq

inductive MetadataOutcome where
  | succeeded
  | alreadyApplied
  | skipped (reason : ActionSkipReason)
  | refused (reason : ActionRefusalReason)
  | failed (reason : ActionFailureReason)
deriving DecidableEq

inductive ProviderStarOutcome where
  | succeeded
  | alreadyApplied
  | skipped (reason : ActionSkipReason)
  | refused (reason : ActionRefusalReason)
  | failed (reason : ActionFailureReason)
deriving DecidableEq

inductive DesiredBackupOutcome where
  | accepted
  | alreadyApplied
  | skipped (reason : ActionSkipReason)
  | failed (reason : ActionFailureReason)
deriving DecidableEq

/-- `RepositoryActionResult`. -/
structure RepositoryActionResult where
  metadata : MetadataOutcome
  providerStar : ProviderStarOutcome
  desiredBackup : DesiredBackupOutcome
deriving DecidableEq

inductive ApiFault where
  | unauthenticated | invalidRequest | notFound | rateLimited | providerUnavailable | persistence
  | idempotencyConflict
deriving DecidableEq

/-- `format!("user:{user_id}")`. -/
def userRef (userId : Uuid) : String := "user:" ++ uuidText userId

/-- What the contract crates provide to the route, with what it relies on. -/
structure ActionContracts where
  /-- `serde_json::to_value` of a result. -/
  resultValue : RepositoryActionResult → Jsonb
  /-- `serde_json::from_value` of a result. -/
  resultOf : Jsonb → Option RepositoryActionResult
  /-- `Uuid::parse_str`. -/
  parseUuid : String → Option Uuid
  /-- `TenantRef::parse` accepts the text. -/
  tenantRef : String → Bool
  resultOf_resultValue : ∀ result, resultOf (resultValue result) = some result
  resultValue_isObject : ∀ result, (resultValue result).isObject = true
  tenantRef_userRef : ∀ userId, tenantRef (userRef userId) = true

/-! ### The target of a request -/

/-- `str::strip_prefix`. -/
def stripPrefix (start text : String) : Option String :=
  if start.toList.isPrefixOf text.toList then
    some (String.ofList (text.toList.drop start.toList.length))
  else none

/-- `str::eq_ignore_ascii_case`. -/
def eqIgnoreAsciiCase (a b : String) : Bool :=
  decide (a.toList.map Char.toLower = b.toList.map Char.toLower)

/-- `repository_parts`. -/
def repositoryParts (canonicalUrl : String) : Except ApiFault (String × String) :=
  match (stripPrefix "https://github.com/" canonicalUrl).bind (splitOnce '/') with
  | some parts => .ok parts
  | none => .error .invalidRequest

/-- `validate_action_target`. -/
def validateActionTarget (request : RepositoryActionRequest) : Except ApiFault Unit := do
  let (owner, name) ← repositoryParts request.canonicalUrl
  if eqIgnoreAsciiCase request.repositoryFullName (owner ++ "/" ++ name) then .ok ()
  else .error .invalidRequest

/-! ### Executing an action -/

inductive ObserveFault where
  | provider | rateLimited | catalog
deriving DecidableEq

inductive MutationFault where
  | providerConfirmedPersistence | other
deriving DecidableEq

/-- What the calls between the claim and the completion answer.  The reads of the catalog may fail
(`none`), and so may every other call. -/
structure ActionEnvironment where
  /-- `state.credential_key` is configured. -/
  credentialKey : Bool
  /-- The account row that `star_refusal` reads. -/
  starAccount : Option (Option (AccountStatus × List String))
  /-- The connected accounts that `eligible_account` reads. -/
  connectedAccounts : Option (List (Uuid × List String))
  /-- The ledger admits the fetch. -/
  acquired : Bool
  /-- The provider's reply, and the body of a fresh one. -/
  fetched : Option (Option ProviderRepositoryBody)
  upserted : Bool
  ownerNameRecorded : Bool
  htmlUrlRecorded : Bool
  recorded : Except ObserveFault AppliedOutcome
  tracked : Option TrackOutcome
  /-- `load_active_pat` of the starring account. -/
  activePat : Bool
  mutation : Except MutationFault MutationStatus

section execution

variable (p : ActionContracts) (env : ActionEnvironment)

/-- `action_stopped_at_metadata`. -/
def actionStoppedAtMetadata (mode : ActionMode) (metadata : MetadataOutcome) :
    RepositoryActionResult :=
  ⟨metadata, .skipped (if mode = .star then .prerequisiteFailed else .notApplicable),
    .skipped .prerequisiteFailed⟩

def metadataProviderFailure (mode : ActionMode) : RepositoryActionResult :=
  actionStoppedAtMetadata mode (.failed .providerUnavailable)

def metadataPersistenceFailure (mode : ActionMode) : RepositoryActionResult :=
  actionStoppedAtMetadata mode (.failed .catalogPersistenceFailed)

def targetChangedResult (mode : ActionMode) : RepositoryActionResult :=
  actionStoppedAtMetadata mode (.refused .targetChanged)

/-- `star_account_id`. -/
def starAccountId (request : RepositoryActionRequest) : Except ApiFault Uuid :=
  match request.accountRef.bind (stripPrefix "github-account:") |>.bind p.parseUuid with
  | some accountId => .ok accountId
  | none => .error .invalidRequest

/-- `star_scope`. -/
def starScope (scopes : List String) : Bool :=
  scopes.any fun scope => decide (scope = "repo") || decide (scope = "public_repo")

/-- What `star_refusal` makes of the account row. -/
def refusalOf (credentialKey : Bool) :
    Option (AccountStatus × List String) → Option ActionRefusalReason
  | none => some .notAuthorized
  | some (status, scopes) =>
    if status ≠ .connected then some .accountRequired
    else if !starScope scopes then some .scopeMissing
    else if !credentialKey then some .accountRequired
    else none

/-- `star_refusal`. -/
def starRefusal (request : RepositoryActionRequest) :
    Except ApiFault (Option ActionRefusalReason) := do
  let _accountId ← starAccountId p request
  match env.starAccount with
  | none => .error .persistence
  | some account => .ok (refusalOf env.credentialKey account)

/-- `refused_star_result`. -/
def refusedStarResult (reason : ActionRefusalReason) : RepositoryActionResult :=
  ⟨.skipped .prerequisiteFailed, .refused reason, .skipped .prerequisiteFailed⟩

/-- `eligible_account`: the only connected account. -/
def eligibleAccount : Except ApiFault (Option (Uuid × List String)) :=
  match env.connectedAccounts with
  | none => .error .persistence
  | some [account] => .ok (some account)
  | some _ => .ok none

/-- `fetch_action_metadata`. -/
def fetchActionMetadata (request : RepositoryActionRequest) :
    Except ApiFault (Except RepositoryActionResult ProviderRepositoryBody) := do
  let _account ← eligibleAccount env
  if !env.acquired then
    return .error (metadataProviderFailure request.mode)
  let _parts ← repositoryParts request.canonicalUrl
  match env.fetched with
  | some (some body) =>
    if request.githubRepositoryNumericId < 2 ^ 63 ∧
        request.githubRepositoryNumericId = body.providerRepositoryId ∧
        eqIgnoreAsciiCase body.fullName request.repositoryFullName = true then
      return .ok body
    else return .error (targetChangedResult request.mode)
  | _ => return .error (metadataProviderFailure request.mode)

/-- `star_component_failed`. -/
def starComponentFailed (metadata : MetadataOutcome) (reason : ActionFailureReason) :
    RepositoryActionResult :=
  ⟨metadata, .failed reason, .skipped .prerequisiteFailed⟩

/-- `map_mutation_refusal`. -/
def mapMutationRefusal : RefusalReason → ActionRefusalReason
  | .missingScope => .scopeMissing
  | .accountNotConnected => .accountRequired
  | .autoNotDirectlyRequestable | .repositoryCurrentlyStarred | .repositoryIgnored => .notAuthorized

/-- `execute_star_action`. -/
def executeStarAction (request : RepositoryActionRequest) (metadata : MetadataOutcome) :
    Except ApiFault RepositoryActionResult := do
  let _accountId ← starAccountId p request
  if !env.credentialKey || !env.activePat then
    return starComponentFailed metadata .dependencyUnavailable
  match splitOnce '/' request.repositoryFullName with
  | none => .error .invalidRequest
  | some _ =>
    match env.mutation with
    | .ok .applied => return ⟨metadata, .succeeded, .accepted⟩
    | .ok .alreadyApplied => return ⟨metadata, .alreadyApplied, .alreadyApplied⟩
    | .ok (.rejected reason) =>
      return ⟨metadata, .refused (mapMutationRefusal reason), .skipped .prerequisiteFailed⟩
    | .ok (.failed _) =>
      return ⟨metadata, .failed .providerUnavailable, .skipped .prerequisiteFailed⟩
    | .error .providerConfirmedPersistence =>
      return ⟨metadata, .succeeded, .failed .policyPublicationFailed⟩
    | .error .other => return starComponentFailed metadata .dependencyUnavailable

/-- The part of `execute_catalog_action` after the metadata was recorded. -/
def finishCatalogAction (request : RepositoryActionRequest) (metadata : MetadataOutcome) :
    Except ApiFault RepositoryActionResult :=
  match request.mode with
  | .star => executeStarAction p env request metadata
  | .track =>
    .ok ⟨metadata, .skipped .notApplicable,
      match env.tracked with
      | some .accepted => .accepted
      | some .alreadyApplied => .alreadyApplied
      | none => .failed .policyPublicationFailed⟩
  | .metadata => .ok ⟨metadata, .skipped .notApplicable, .skipped .notApplicable⟩

/-- The part of `execute_catalog_action` after the target was fetched. -/
def recordCatalogAction (userId : Uuid) (request : RepositoryActionRequest) :
    Except ApiFault RepositoryActionResult := do
  if ¬ request.githubRepositoryNumericId < 2 ^ 63 then
    return targetChangedResult request.mode
  if !env.upserted || !env.ownerNameRecorded || !env.htmlUrlRecorded then
    return metadataPersistenceFailure request.mode
  let _parts ← repositoryParts request.canonicalUrl
  if request.mode = .track ∧ p.tenantRef (userRef userId) = false then
    .error .invalidRequest
  else
    match env.recorded with
    | .ok .unchanged => finishCatalogAction p env request .alreadyApplied
    | .ok .created | .ok .updated => finishCatalogAction p env request .succeeded
    | .error .provider | .error .rateLimited => return metadataProviderFailure request.mode
    | .error .catalog => return metadataPersistenceFailure request.mode

/-- `execute_catalog_action`. -/
def executeCatalogAction (userId : Uuid) (request : RepositoryActionRequest) :
    Except ApiFault RepositoryActionResult := do
  match ← fetchActionMetadata env request with
  | .error result => return result
  | .ok _ => recordCatalogAction p env userId request

/-- What `action` does between the claim and the completion. -/
def executeAction (userId : Uuid) (request : RepositoryActionRequest) :
    Except ApiFault RepositoryActionResult := do
  if request.mode = .star then
    match ← starRefusal p env request with
    | some reason => return refusedStarResult reason
    | none => executeCatalogAction p env userId request
  else executeCatalogAction p env userId request

end execution

/-! ### The replay boundary, statement by statement -/

/-- The row a claim inserts. -/
def attemptRow (ownerRef : String) (request : RepositoryActionRequest) : RepositoryActionAttempt :=
  ⟨ownerRef, request.idempotencyKey, request.fingerprint, request.mode,
    request.githubRepositoryNumericId, request.repositoryFullName, request.canonicalUrl,
    request.accountRef, request.confirmationEvidenceRef, .inProgress, none, none⟩

/-- Whether some attempt holds the key. -/
def keyHeld (key : String) (db : Database) : Bool :=
  db.repositoryActionAttempts.any fun a => decide (a.idempotencyKey = key)

/-- The inserting statement of `claim_action`: whether the row is its own.  Both unique keys of the
table contain the idempotency key, so a conflict is a row with that key. -/
def insertAttempt (ownerRef : String) (request : RepositoryActionRequest) : Tx Bool := do
  let held ← select (keyHeld request.idempotencyKey)
  write .repositoryActionAttempts fun db =>
    insertUnless (fun a => decide (a.idempotencyKey = request.idempotencyKey))
      (attemptRow ownerRef request) db.repositoryActionAttempts
  pure !held

/-- The reading statement of `claim_action`, and what it makes of the row. -/
def existingClaim (ownerRef : String) (request : RepositoryActionRequest) (db : Database) :
    ActionClaim :=
  match db.repositoryActionAttempts.find? fun a =>
      decide (a.idempotencyKey = request.idempotencyKey) with
  | none => .conflict
  | some a =>
    if a.ownerRef ≠ ownerRef ∨ a.requestFingerprint ≠ request.fingerprint then .conflict
    else match a.status, a.result with
      | .completed, some result => .replay result
      | _, _ => .conflict

/-- A held key: the statement inserts nothing. -/
theorem insertAttempt_of_held {ownerRef : String} {request : RepositoryActionRequest} {c : Catalog}
    (h : keyHeld request.idempotencyKey c.tables = true) :
    insertAttempt ownerRef request c = .ok (false, c) := by
  have hrows : insertUnless (fun a => decide (a.idempotencyKey = request.idempotencyKey))
      (attemptRow ownerRef request) c.tables.repositoryActionAttempts =
      c.tables.repositoryActionAttempts := if_pos h
  have hwrite : write .repositoryActionAttempts (fun db =>
      insertUnless (fun a => decide (a.idempotencyKey = request.idempotencyKey))
        (attemptRow ownerRef request) db.repositoryActionAttempts) c = .ok ((), c) := by
    apply write_eq_ok.mpr
    rw [hrows]
    rfl
  rw [insertAttempt, Tx.bind_of_ok (select_eq_ok.mpr ⟨h, rfl⟩), Tx.bind_of_ok hwrite]
  rfl

/-- A free key: the statement inserts the request's row. -/
theorem insertAttempt_of_free {ownerRef : String} {request : RepositoryActionRequest} {c : Catalog}
    (h : keyHeld request.idempotencyKey c.tables = false) :
    insertAttempt ownerRef request c =
      (write .repositoryActionAttempts (fun db =>
        db.repositoryActionAttempts ++ [attemptRow ownerRef request]) >>= fun _ => pure true) c := by
  have hrows : insertUnless (fun a => decide (a.idempotencyKey = request.idempotencyKey))
      (attemptRow ownerRef request) c.tables.repositoryActionAttempts =
      c.tables.repositoryActionAttempts ++ [attemptRow ownerRef request] :=
    if_neg (Bool.not_eq_true _ ▸ h)
  rw [insertAttempt, Tx.bind_of_ok (select_eq_ok.mpr ⟨h, rfl⟩)]
  show Tx.andThen _ _ c = Tx.andThen _ _ c
  unfold Tx.andThen write Tx.exec
  simp only [hrows]
  rfl

/-- Left alone between its two statements, `claim_action` is one transaction. -/
theorem claimAction_eq (ownerRef : String) (request : RepositoryActionRequest) (c : Catalog) :
    claimAction ownerRef request c = (insertAttempt ownerRef request >>= fun inserted =>
      if inserted then pure ActionClaim.execute else select (existingClaim ownerRef request)) c := by
  cases hfind : c.tables.repositoryActionAttempts.find? fun a =>
      decide (a.idempotencyKey = request.idempotencyKey) with
  | none =>
    have hfree : keyHeld request.idempotencyKey c.tables = false := by
      rw [keyHeld, List.any_eq_false]
      exact List.find?_eq_none.mp hfind
    have hinsert := @insertAttempt_of_free ownerRef request c hfree
    rw [claimAction, Tx.bind_of_ok (select_eq_ok.mpr ⟨hfind, rfl⟩)]
    cases hwrite : write .repositoryActionAttempts
        (fun db => db.repositoryActionAttempts ++ [attemptRow ownerRef request]) c with
    | ok r =>
      rw [Tx.bind_of_ok hwrite] at hinsert
      rw [Tx.bind_of_ok hinsert]
      exact Tx.bind_of_ok hwrite
    | error e =>
      rw [Tx.bind_of_error hwrite] at hinsert
      rw [Tx.bind_of_error hinsert]
      exact Tx.bind_of_error hwrite
  | some a =>
    have hheld : keyHeld request.idempotencyKey c.tables = true := by
      rw [keyHeld, List.any_eq_true]
      have hkey := List.find?_some hfind
      exact ⟨a, List.mem_of_find?_eq_some hfind, hkey⟩
    rw [claimAction, Tx.bind_of_ok (select_eq_ok.mpr ⟨hfind, rfl⟩),
      Tx.bind_of_ok (insertAttempt_of_held hheld)]
    show _ = Except.ok (existingClaim ownerRef request c.tables, c)
    rw [existingClaim, hfind]
    dsimp only
    split
    · rfl
    · cases a.status with
      | inProgress => rfl
      | completed => cases a.result <;> rfl

/-! ### One request -/

/-- Where a request stands. -/
inductive ActionPhase where
  | received
  | claim
  | lookup
  | executing
  | completing (result : RepositoryActionResult)
  | answered (granted : Bool) (reply : Except ApiFault RepositoryActionResult)
deriving DecidableEq

namespace ActionPhase

/-- `claim_action` answered `Execute`. -/
def granted : ActionPhase → Bool
  | executing | completing _ | answered true _ => true
  | _ => false

/-- The result of the execution. -/
def computed : ActionPhase → Option RepositoryActionResult
  | completing result | answered true (.ok result) => some result
  | _ => none

end ActionPhase

/-- What the world contributes to one step: the fate of its statement, whether the process stops
right after it, and the answers of the calls an execution makes. -/
structure ActionInput where
  now : Time
  fate : Fate
  crash : Bool
  env : ActionEnvironment

/-- A request of an authenticated user. -/
structure ActionCall where
  userId : Uuid
  request : RepositoryActionRequest
  phase : ActionPhase := .received
  stopped : Bool := false

namespace ActionCall

variable (p : ActionContracts) (i : ActionInput) (c : Catalog) (call : ActionCall)

/-- `owner_ref`. -/
def ownerRef : String := userRef call.userId

/-- What the second half of `claim_action` answers. -/
def replied (claim : ActionClaim) : Except ApiFault RepositoryActionResult :=
  match claim with
  | .replay value =>
    match p.resultOf value with
    | some result => .ok result
    | none => .error .persistence
  | _ => .error .idempotencyConflict

theorem replied_read {value : Jsonb} {result : RepositoryActionResult}
    (h : p.resultOf value = some result) : replied p (.replay value) = .ok result := by
  simp only [replied, h]

theorem replied_unread {value : Jsonb} (h : p.resultOf value = none) :
    replied p (.replay value) = .error .persistence := by
  simp only [replied, h]

/-- The next statement of `action`. -/
def step : ActionPhase × Catalog :=
  match call.phase with
  | .received =>
    match validateActionTarget call.request with
    | .ok () => (.claim, c)
    | .error fault => (.answered false (.error fault), c)
  | .claim =>
    match i.fate.run (insertAttempt call.ownerRef call.request) c with
    | (.ok true, c') => (.executing, c')
    | (.ok false, c') => (.lookup, c')
    | (.error _, c') => (.answered false (.error .persistence), c')
  | .lookup =>
    match i.fate.run (select (existingClaim call.ownerRef call.request)) c with
    | (.ok claim, c') => (.answered false (replied p claim), c')
    | (.error _, c') => (.answered false (.error .persistence), c')
  | .executing =>
    match executeAction p i.env call.userId call.request with
    | .ok result => (.completing result, c)
    | .error fault => (.answered true (.error fault), c)
  | .completing result =>
    -- The response does not depend on whether the result was recorded.
    (.answered true (.ok result),
      (i.fate.run (completeAction i.now call.ownerRef call.request (p.resultValue result)) c).2)
  | .answered granted reply => (.answered granted reply, c)

/-- One step of the process that serves the request; a stopped process takes none. -/
def next : ActionCall × Catalog :=
  if call.stopped then (call, c)
  else if i.crash then ({ call with stopped := true }, (call.step p i c).2)
  else ({ call with phase := (call.step p i c).1 }, (call.step p i c).2)

end ActionCall

/-! ### Requests side by side -/

structure ActionSystem where
  catalog : Catalog
  calls : List ActionCall

/-- One event: a step of a request, or an operation of the catalog. -/
inductive ActionEvent where
  | call (n : ℕ) (input : ActionInput)
  | catalog (op : Operation)

/-- The event is no erasure, and no request outside the list. -/
def ActionEvent.sparesAttempts : ActionEvent → Bool
  | .call .. => true
  | .catalog op => op.leaves .repositoryActionAttempts

namespace ActionSystem

/-- The attempts the catalog holds. -/
def attempts (s : ActionSystem) : List RepositoryActionAttempt :=
  s.catalog.tables.repositoryActionAttempts

def step (p : ActionContracts) (k : Contracts) (s : ActionSystem) : ActionEvent → ActionSystem
  | .call n i =>
    match s.calls[n]? with
    | none => s
    | some call =>
      ⟨(call.next p i s.catalog).2, s.calls.set n (call.next p i s.catalog).1⟩
  | .catalog op => { s with catalog := GithubCatalog.step k s.catalog op }

end ActionSystem

/-! ### A small implementation, for concrete runs -/

def refusalReasons : List ActionRefusalReason :=
  [.notAuthorized, .accountRequired, .scopeMissing, .targetChanged]

def failureReasons : List ActionFailureReason :=
  [.providerUnavailable, .catalogPersistenceFailed, .dependencyUnavailable, .policyPublicationFailed]

def skipReasons : List ActionSkipReason := [.prerequisiteFailed, .notApplicable]

def metadataOutcomes : List MetadataOutcome :=
  [.succeeded, .alreadyApplied] ++ skipReasons.map .skipped ++ refusalReasons.map .refused ++
    failureReasons.map .failed

def providerStarOutcomes : List ProviderStarOutcome :=
  [.succeeded, .alreadyApplied] ++ skipReasons.map .skipped ++ refusalReasons.map .refused ++
    failureReasons.map .failed

def desiredBackupOutcomes : List DesiredBackupOutcome :=
  [.accepted, .alreadyApplied] ++ skipReasons.map .skipped ++ failureReasons.map .failed

/-- A component as the position of its outcome, in unary. -/
def outcomeValue {α : Type} [DecidableEq α] (outcomes : List α) (outcome : α) : Jsonb :=
  .arr (List.replicate (outcomes.idxOf outcome) .null)

def outcomeOf {α : Type} (outcomes : List α) : Jsonb → Option α
  | .arr items => outcomes[items.length]?
  | _ => none

theorem outcomeOf_outcomeValue {α : Type} [DecidableEq α] {outcomes : List α} {outcome : α}
    (h : outcome ∈ outcomes) : outcomeOf outcomes (outcomeValue outcomes outcome) = some outcome := by
  show outcomes[(List.replicate (outcomes.idxOf outcome) Jsonb.null).length]? = some outcome
  rw [List.length_replicate, List.getElem?_eq_getElem (List.idxOf_lt_length_of_mem h),
    List.getElem_idxOf]

theorem mem_metadataOutcomes (outcome : MetadataOutcome) : outcome ∈ metadataOutcomes := by
  cases outcome with
  | succeeded | alreadyApplied => decide
  | skipped reason | refused reason | failed reason => cases reason <;> decide

theorem mem_providerStarOutcomes (outcome : ProviderStarOutcome) :
    outcome ∈ providerStarOutcomes := by
  cases outcome with
  | succeeded | alreadyApplied => decide
  | skipped reason | refused reason | failed reason => cases reason <;> decide

theorem mem_desiredBackupOutcomes (outcome : DesiredBackupOutcome) :
    outcome ∈ desiredBackupOutcomes := by
  cases outcome with
  | accepted | alreadyApplied => decide
  | skipped reason | failed reason => cases reason <;> decide

/-- A result as an object of its three components. -/
def sampleActions : ActionContracts where
  resultValue result := .obj [("metadata", outcomeValue metadataOutcomes result.metadata),
    ("provider_star", outcomeValue providerStarOutcomes result.providerStar),
    ("desired_backup", outcomeValue desiredBackupOutcomes result.desiredBackup)]
  resultOf value := do
    let metadata ← (value.member "metadata").bind (outcomeOf metadataOutcomes)
    let providerStar ← (value.member "provider_star").bind (outcomeOf providerStarOutcomes)
    let desiredBackup ← (value.member "desired_backup").bind (outcomeOf desiredBackupOutcomes)
    pure ⟨metadata, providerStar, desiredBackup⟩
  parseUuid := fun text => if text = "00000000-0000-0000-0000-000000000001" then some 1 else none
  tenantRef := fun _ => true
  resultOf_resultValue := by
    intro result
    show ((outcomeOf metadataOutcomes (outcomeValue _ _)).bind fun metadata =>
      (outcomeOf providerStarOutcomes (outcomeValue _ _)).bind fun providerStar =>
      (outcomeOf desiredBackupOutcomes (outcomeValue _ _)).bind fun desiredBackup =>
      some (RepositoryActionResult.mk metadata providerStar desiredBackup)) = some result
    rw [outcomeOf_outcomeValue (mem_metadataOutcomes _), Option.bind_some,
      outcomeOf_outcomeValue (mem_providerStarOutcomes _), Option.bind_some,
      outcomeOf_outcomeValue (mem_desiredBackupOutcomes _), Option.bind_some]
  resultValue_isObject := fun _ => rfl
  tenantRef_userRef := fun _ => rfl

/-- An environment in which every call succeeds for repository 101. -/
def sampleEnvironment : ActionEnvironment where
  credentialKey := true
  starAccount := some (some (.connected, ["repo"]))
  connectedAccounts := some [(1, ["repo"])]
  acquired := true
  fetched := some (some { providerRepositoryId := 101, fullName := "octo/repo" })
  upserted := true
  ownerNameRecorded := true
  htmlUrlRecorded := true
  recorded := .ok .created
  tracked := some .accepted
  activePat := true
  mutation := .ok .applied

/-- A metadata action for repository 101. -/
def sampleAction : RepositoryActionRequest :=
  ⟨"key", .obj [("mode", .str "metadata")], .metadata, 101, "octo/repo",
    "https://github.com/octo/repo", none, "evidence"⟩

end GithubCatalog
