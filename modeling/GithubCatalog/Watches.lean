import GithubCatalog.BackupPolicy
import GithubCatalog.Metadata

/-!
# Metadata watches and analysis requests (`watches.rs`)

A watch compares the stored source revision with the one it last evaluated; a difference queues one
immutable analysis request, a dispatcher moves due requests to the outbox, and Knowledge's terminal
facts complete or fail them through the inbox.
-/

namespace GithubCatalog

open Relational

/-- `DISPATCH_SPACING`, one second. -/
def dispatchSpacing : Time := 1000000

/-! ### Registration -/

inductive WatchBaseline where
  | current | unevaluated
deriving DecidableEq

/-- The stored source digest of a repository. -/
def storedHash (repositoryId : Uuid) (db : Database) : Option String :=
  (db.repositoryMetadata.find? fun m => decide (m.repositoryId = repositoryId)).map (·.contentHash)

/-- The checkpoint a registration starts from. -/
def baselineCheckpoint (baseline : WatchBaseline) (repositoryId : Uuid) (db : Database) :
    Except CatalogError (Option String) :=
  match baseline with
  | .current => (storedHash repositoryId db).elim (.error .missingMetadata) fun h => .ok (some h)
  | .unevaluated => .ok none

/-- `register_repository_analysis_watch`. -/
def registerRepositoryAnalysisWatch (fresh : Uuid) (owner : String) (repositoryId : Uuid)
    (baseline : WatchBaseline) : Tx Uuid := do
  let checkpoint ← attempt (baselineCheckpoint baseline repositoryId)
  let mine := fun w : RepositoryWatch =>
    decide (w.ownerRef = owner) && decide (w.repositoryId = repositoryId)
  write .repositoryWatches fun db =>
    upsertWhere mine
      (fun w => { w with
        enabled := true
        lastEvaluatedContentHash := checkpoint.or w.lastEvaluatedContentHash })
      ⟨fresh, owner, repositoryId, true, checkpoint⟩ db.repositoryWatches
  fetchOne fun db => (db.repositoryWatches.find? mine).map (·.watchId)

/-- `set_repository_analysis_watch_enabled`. -/
def setRepositoryAnalysisWatchEnabled (watchId : Uuid) (enabled : Bool) : Tx Unit :=
  write .repositoryWatches fun db =>
    updateWhere (fun w => decide (w.watchId = watchId)) (fun w => { w with enabled := enabled })
      db.repositoryWatches

/-! ### Evaluation -/

/-- `StoredBody`: what the raw revision keeps for the attributes. -/
structure StoredBody where
  providerRepositoryId : ℤ
  fullName : String
  description : Option String
  language : Option String
deriving DecidableEq

/-- The integer a stored number's text spells. -/
def integerOf (text : String) : Option ℤ :=
  match text.toList with
  | '-' :: digits =>
    if digits ≠ [] ∧ digits.all Char.isDigit then some (-(Nat.ofDigitChars 10 digits 0 : ℤ)) else none
  | digits =>
    if digits ≠ [] ∧ digits.all Char.isDigit then some (Nat.ofDigitChars 10 digits 0 : ℤ) else none

/-- An optional string member: missing and null both read as none. -/
def optionalText (key : String) (value : Jsonb) : Option (Option String) :=
  match value.member key with
  | none | some .null => some none
  | some (.str text) => some (some text)
  | some _ => none

/-- `serde_json::from_value` of a `StoredBody`. -/
def storedBody (value : Jsonb) : Option StoredBody := do
  let .num idText ← value.member "provider_repository_id" | none
  let id ← integerOf idText
  if fitsBigint id = false then none
  let .str fullName ← value.member "full_name" | none
  let description ← optionalText "description" value
  let language ← optionalText "language" value
  pure ⟨id, fullName, description, language⟩

/-- An optional text of a stored body, checked by its contract unless it is blank. -/
def boundedUnlessBlank (accepts : String → Bool) (text : Option String) :
    Except CatalogError (Option String) :=
  match text.filter fun t => trimText t ≠ "" with
  | none => .ok none
  | some t => if accepts t then .ok (some t) else .error .invalidMetadata

/-- `analysis_attributes`. -/
def analysisAttributes (k : Contracts) (body : StoredBody) :
    Except CatalogError RepositoryAnalysisAttributes := do
  let description ← boundedUnlessBlank k.repositoryDescription body.description
  let primaryLanguage ← boundedUnlessBlank k.repositoryLanguage body.language
  if k.repositoryFullName body.fullName then
    .ok ⟨body.fullName, description, primaryLanguage⟩
  else .error .invalidMetadata

/-- What one evaluation reads of the stored revision. -/
structure EvaluatedSource where
  contentHash : String
  providerId : ℕ
  revision : RepositoryAnalysisRevision
  attributes : RepositoryAnalysisAttributes
deriving DecidableEq

/-- The stored revision an evaluation is made of. -/
def evaluatedSource (k : Contracts) (repositoryId : Uuid) (db : Database) :
    Except CatalogError EvaluatedSource := do
  let metadata ← (db.repositoryMetadata.find? fun m =>
    decide (m.repositoryId = repositoryId)).elim (.error .missingMetadata) .ok
  let stored ← ((revisionsOf repositoryId db).find? fun r =>
    decide (r.contentHash = metadata.contentHash)).elim (.error .missingMetadata) .ok
  let body ← (storedBody stored.payload).elim (.error .invalidMetadata) .ok
  let attributes ← analysisAttributes k body
  let providerId ← if 0 ≤ body.providerRepositoryId then .ok body.providerRepositoryId.toNat
    else .error .invalidMetadata
  let readme ← (k.readmeOf metadata.readmeRevision).elim (.error .invalidStoredIdentity) .ok
  pure ⟨metadata.contentHash, providerId, ⟨k.sha256Hex (k.attributesBytes attributes), readme⟩,
    attributes⟩

/-- The idempotency digest of a request. -/
def idempotencyDigest (k : Contracts) (owner : String) (repositoryId : Uuid)
    (source : EvaluatedSource) : String :=
  contentDigest k (.obj
    [("owner", .str owner), ("repository_id", .str (uuidText repositoryId)),
      ("github_repository_numeric_id", .num (toString source.providerId)),
      ("source_revision", k.revisionValue source.revision),
      ("repository_attributes", k.attributesValue source.attributes),
      ("requested_contract", .str "repository_analysis")])

/-- `analysis_request`. -/
def analysisRequest (k : Contracts) (requestId : Uuid) (owner : String) (repositoryId : Uuid)
    (source : EvaluatedSource) : RepositoryAnalysisRequested :=
  ⟨owner, repositoryId, source.providerId, requestId, source.revision, source.attributes,
    idempotencyDigest k owner repositoryId source⟩

/-- The queued row of a request. -/
def queuedRequest (k : Contracts) (watch : RepositoryWatch)
    (request : RepositoryAnalysisRequested) (due : Time) : RepositoryAnalysisRequest :=
  ⟨request.requestId, watch.watchId, watch.ownerRef, request.repositoryId,
    request.githubRepositoryNumericId, k.revisionValue request.sourceRevision,
    k.attributesValue request.repositoryAttributes, k.requestValue request,
    request.sourceRevision.attributesDigestHex, request.idempotencyKeyHex, .queued, due, none, none,
    none, none, none⟩

/-- The watches an evaluation has to move. -/
def staleWatches (repositoryId : Uuid) (contentHash : String) (db : Database) :
    List RepositoryWatch :=
  (db.repositoryWatches.filter fun w => decide (w.repositoryId = repositoryId) && w.enabled &&
    decide (w.lastEvaluatedContentHash ≠ some contentHash)).insertionSort
      fun a b => a.watchId.toNat ≤ b.watchId.toNat

/-- The evaluation of one watch: queue its request unless it exists, move its checkpoint, and return
the next free due time with whether a request was queued. -/
def evaluateWatch (k : Contracts) (requestId : Uuid) (now : Time) (repositoryId : Uuid)
    (source : EvaluatedSource) (watch : RepositoryWatch) (nextNotBefore : Time) : Tx (Time × Bool) := do
  require .invalidStoredIdentity fun _ => k.tenantRef watch.ownerRef
  let request := analysisRequest k requestId watch.ownerRef repositoryId source
  let due := max nextNotBefore now
  let same := fun r : RepositoryAnalysisRequest =>
    decide (r.watchId = watch.watchId) && decide (r.idempotencyDigestHex = request.idempotencyKeyHex)
  let known ← select fun db => db.repositoryAnalysisRequests.any same
  write .repositoryAnalysisRequests fun db =>
    insertUnless same (queuedRequest k watch request due) db.repositoryAnalysisRequests
  write .repositoryWatches fun db =>
    updateWhere (fun w => decide (w.watchId = watch.watchId))
      (fun w => { w with lastEvaluatedContentHash := some source.contentHash }) db.repositoryWatches
  pure (if known then (nextNotBefore, false) else (due + dispatchSpacing, true))

/-- The loop over the stale watches, watch `n` drawing `ids n`. -/
def evaluateWatches (k : Contracts) (ids : ℕ → Uuid) (now : Time) (repositoryId : Uuid)
    (source : EvaluatedSource) : List (RepositoryWatch × ℕ) → Time → Tx (Time × ℕ)
  | [], next => pure (next, 0)
  | (watch, n) :: rest, next => do
    let (next', queued) ← evaluateWatch k (ids n) now repositoryId source watch next
    let (last, count) ← evaluateWatches k ids now repositoryId source rest next'
    pure (last, queued.toNat + count)

inductive WatchEvaluation where
  | unchanged
  | queued (requests : ℕ)
deriving DecidableEq

/-- `evaluate_metadata_watches`. -/
def evaluateMetadataWatches (k : Contracts) (ids : ℕ → Uuid) (now : Time) (repositoryId : Uuid) :
    Tx WatchEvaluation := do
  let source ← attempt (evaluatedSource k repositoryId)
  let watches ← select (staleWatches repositoryId source.contentHash)
  if watches.isEmpty then pure .unchanged
  else do
    write .repositoryAnalysisDispatchCursor fun db =>
      some (db.repositoryAnalysisDispatchCursor.getD now)
    let next ← fetchOne (·.repositoryAnalysisDispatchCursor)
    let (last, count) ← evaluateWatches k ids now repositoryId source watches.zipIdx next
    onlyIf (decide (0 < count)) (write .repositoryAnalysisDispatchCursor fun _ => some last)
    pure (.queued count)

/-! ### Dispatch -/

/-- `order by not_before, request_id`: whether `a` comes before `b`. -/
def RepositoryAnalysisRequest.earlier (a b : RepositoryAnalysisRequest) : Bool :=
  decide (a.notBefore < b.notBefore) ||
    (decide (a.notBefore = b.notBefore) && decide (a.requestId.toNat < b.requestId.toNat))

inductive AnalysisDispatch where
  | notDue
  | pending (requestId : Uuid)
deriving DecidableEq

/-- `dispatch_due_repository_analysis`. -/
def dispatchDueRepositoryAnalysis (k : Contracts) (messageId : Uuid) (now : Time) :
    Tx AnalysisDispatch := do
  let due ← select fun db => firstBy RepositoryAnalysisRequest.earlier
    (db.repositoryAnalysisRequests.filter fun r =>
      decide (r.status = .queued) && decide (r.notBefore ≤ now))
  match due with
  | none => pure .notDue
  | some r => do
    let requested ← attempt fun _ => (k.requestOf r.requestPayload).elim (.error .serialization) .ok
    let envelope ← attempt fun _ =>
      (k.requestedEnvelope messageId now requested).elim (.error .invalidStoredIdentity) .ok
    write .outboxEvents fun db =>
      db.outboxEvents ++ [newOutboxEvent messageId .analysisRequested envelope now]
    write .repositoryAnalysisRequests fun db =>
      updateWhere (fun q => decide (q.requestId = r.requestId))
        (fun q => { q with status := .pending, outboxMessageId := some messageId })
        db.repositoryAnalysisRequests
    pure (.pending r.requestId)

/-! ### Terminal facts -/

/-- What a terminal fact establishes. -/
inductive TerminalStatus where
  | completed (analysisResultRef : String)
  | failed (failureCode : String) (retryable : Bool)
deriving DecidableEq

def TerminalStatus.subject : TerminalStatus → InboxSubject
  | .completed _ => .analysisCompleted
  | .failed _ _ => .analysisFailed

/-- The terminal columns a fact writes. -/
def TerminalStatus.settle (now : Time) (r : RepositoryAnalysisRequest) :
    TerminalStatus → RepositoryAnalysisRequest
  | .completed ref =>
    { r with
      status := .completed, analysisResultRef := some ref, failureCode := none, retryable := none
      terminalAt := some now }
  | .failed code again =>
    { r with
      status := .failed, analysisResultRef := none, failureCode := some code
      retryable := some again, terminalAt := some now }

/-- The pending request a fact names exactly. -/
def TerminalFact.names (k : Contracts) (fact : TerminalFact) (r : RepositoryAnalysisRequest) : Bool :=
  decide (r.requestId = fact.requestId) && decide (r.ownerRef = fact.owner) &&
    decide (r.repositoryId = fact.repositoryId) &&
    decide (r.githubRepositoryNumericId = fact.githubRepositoryNumericId) &&
    decide (r.sourceRevision = k.revisionValue fact.sourceRevision) && decide (r.status = .pending)

/-- The link of a completed fact. -/
def linkRow (now : Time) (fact : TerminalFact) (ref : String) : RepositoryAnalysisLink :=
  ⟨fact.owner, fact.repositoryId, fact.requestId, ref, now⟩

/-- Link a completed result to its owner and repository. -/
def linkResult (now : Time) (fact : TerminalFact) : TerminalStatus → Tx Unit
  | .completed ref =>
    write .repositoryAnalysisLinks fun db =>
      upsertWhere (fun l => decide (l.ownerRef = fact.owner) &&
          decide (l.repositoryId = fact.repositoryId))
        (fun _ => linkRow now fact ref) (linkRow now fact ref) db.repositoryAnalysisLinks
  | .failed _ _ => pure ()

inductive TerminalFactOutcome where
  | resolved | duplicate | ignored
deriving DecidableEq

/-- `consume_terminal_fact`. -/
def consumeTerminalFact (k : Contracts) (now : Time) (messageId : Uuid) (fact : TerminalFact)
    (status : TerminalStatus) : Tx TerminalFactOutcome := do
  let seen ← select fun db => db.inboxEvents.any fun e => decide (e.messageId = messageId)
  if seen then pure .duplicate
  else do
    write .inboxEvents fun db =>
      db.inboxEvents ++ [⟨messageId, status.subject, fact.payload, none⟩]
    require .invalidStoredIdentity fun _ => decide (fact.githubRepositoryNumericId < 2 ^ 63)
    let changed ← select fun db =>
      (db.repositoryAnalysisRequests.filter (fact.names k)).length
    write .repositoryAnalysisRequests fun db =>
      updateWhere (fact.names k) (fun r => status.settle now r) db.repositoryAnalysisRequests
    onlyIf (decide (changed = 1)) (linkResult now fact status)
    write .inboxEvents fun db =>
      updateWhere (fun e => decide (e.messageId = messageId))
        (fun e => { e with consumedAt := some now }) db.inboxEvents
    pure (if changed = 1 then .resolved else .ignored)

/-! ### Frames -/

theorem touches_registerRepositoryAnalysisWatch (fresh : Uuid) (owner : String) (r : Uuid)
    (baseline : WatchBaseline) :
    Touches [.repositoryWatches] (registerRepositoryAnalysisWatch fresh owner r baseline) :=
  (Touches.attempt _).bind fun _ => (Touches.write (by decide) _).bind fun _ => Touches.fetchOne _

theorem touches_evaluateWatch (k : Contracts) (requestId : Uuid) (now : Time) (r : Uuid)
    (source : EvaluatedSource) (watch : RepositoryWatch) (next : Time) :
    Touches [.repositoryAnalysisRequests, .repositoryWatches]
      (evaluateWatch k requestId now r source watch next) :=
  (Touches.require _ _).bind fun _ => (Touches.select _).bind fun _ =>
    (Touches.write (by decide) _).bind fun _ => (Touches.write (by decide) _).bind fun _ =>
    Touches.pure _

theorem touches_evaluateWatches (k : Contracts) (ids : ℕ → Uuid) (now : Time) (r : Uuid)
    (source : EvaluatedSource) (watches : List (RepositoryWatch × ℕ)) (next : Time) :
    Touches [.repositoryAnalysisRequests, .repositoryWatches]
      (evaluateWatches k ids now r source watches next) := by
  induction watches generalizing next with
  | nil => exact Touches.pure _
  | cons p rest ih =>
    exact (touches_evaluateWatch _ _ _ _ _ _ _).bind fun q => (ih q.1).bind fun _ => Touches.pure _

theorem touches_evaluateMetadataWatches (k : Contracts) (ids : ℕ → Uuid) (now : Time) (r : Uuid) :
    Touches [.repositoryAnalysisRequests, .repositoryWatches, .repositoryAnalysisDispatchCursor]
      (evaluateMetadataWatches k ids now r) := by
  refine (Touches.attempt _).bind fun source => (Touches.select _).bind fun watches => ?_
  split
  · exact Touches.pure _
  · refine (Touches.write (by decide) _).bind fun _ => (Touches.fetchOne _).bind fun next => ?_
    exact ((touches_evaluateWatches _ _ _ _ _ _ _).mono (by decide)).bind fun _ =>
      (Touches.onlyIf (Touches.write (by decide) _)).bind fun _ => Touches.pure _

theorem touches_dispatchDueRepositoryAnalysis (k : Contracts) (messageId : Uuid) (now : Time) :
    Touches [.outboxEvents, .repositoryAnalysisRequests]
      (dispatchDueRepositoryAnalysis k messageId now) := by
  refine (Touches.select _).bind fun due => ?_
  cases due with
  | none => exact Touches.pure _
  | some r =>
    exact (Touches.attempt _).bind fun _ => (Touches.attempt _).bind fun _ =>
      (Touches.write (by decide) _).bind fun _ => (Touches.write (by decide) _).bind fun _ =>
      Touches.pure _

theorem touches_linkResult (now : Time) (fact : TerminalFact) (status : TerminalStatus) :
    Touches [.repositoryAnalysisLinks] (linkResult now fact status) := by
  cases status with
  | completed ref => exact Touches.write (by decide) _
  | failed code again => exact Touches.pure _

theorem touches_consumeTerminalFact (k : Contracts) (now : Time) (messageId : Uuid)
    (fact : TerminalFact) (status : TerminalStatus) :
    Touches [.inboxEvents, .repositoryAnalysisRequests, .repositoryAnalysisLinks]
      (consumeTerminalFact k now messageId fact status) := by
  refine (Touches.select _).bind fun seen => ?_
  split
  · exact Touches.pure _
  · exact (Touches.write (by decide) _).bind fun _ => (Touches.require _ _).bind fun _ =>
      (Touches.select _).bind fun _ => (Touches.write (by decide) _).bind fun _ =>
      (Touches.onlyIf ((touches_linkResult _ _ _).mono (by decide))).bind fun _ =>
      (Touches.write (by decide) _).bind fun _ => Touches.pure _

end GithubCatalog
