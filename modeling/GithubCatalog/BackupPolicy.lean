import GithubCatalog.Contracts
import GithubCatalog.Transaction
import Mathlib.Data.List.Sort

/-!
# Desired backup policy: derivation and publication (`backup_policy.rs`)

The catalog derives one document for the whole catalog: an entry for every repository of mode `auto`
or `tracked` whose policy level mirrors.  A cursor counts the marks (`dirty_generation`) and what has
been published of them; a due publication compares the serialized inputs with the last published ones
and, when they differ, appends one immutable version together with its outbox command.

* `loadInputs`, `fingerprint` - what is derived and how two derivations are compared;
* `markBackupPolicyDirtyInTx`, `publishDueBackupPolicy`, `recordBackupPolicyAcknowledgment`;
* `fingerprint_injective` - equal fingerprints mean equal inputs.
-/

namespace GithubCatalog

open Relational TextCode

/-- One catalog entry considered while deriving the mirror policy. -/
structure BackupPolicyInput where
  repositoryRef : String
  included : Bool
  cadence : String
  priority : String
  sizeHintBytes : Option ℕ
  exclusions : List (String × String)
deriving DecidableEq

/-! ### Loading the inputs -/

def MirrorCadence.text : MirrorCadence → String
  | .eager => "eager"
  | .daily => "daily"
  | .weekly => "weekly"

def PriorityHint.text : PriorityHint → String
  | .critical => "critical"
  | .standard => "standard"
  | .bulk => "bulk"

/-- The policy levels that ask for a mirror. -/
def PolicyLevel.mirrors : PolicyLevel → Bool
  | .none | .metadataOnly => false
  | .gitMirror | .gitMirrorWithLfs | .completeArchive => true

/-- The left join of `load_inputs`. -/
def policyOf (db : Database) (repositoryId : Uuid) : Option BackupPolicy :=
  db.backupPolicies.find? fun p => decide (p.repositoryId = repositoryId)

/-- `mode in ('auto', 'tracked')`. -/
def Repository.governed (r : Repository) : Bool :=
  decide (r.mode = some .auto) || decide (r.mode = some .tracked)

/-- `coalesce(policy_level, 'git_mirror')` is a mirroring level. -/
def mirrorLevel (db : Database) (repositoryId : Uuid) : Bool :=
  ((policyOf db repositoryId).elim .gitMirror (·.policyLevel)).mirrors

/-- The repositories `load_inputs` selects, in its order. -/
def governedRepositories (db : Database) : List Repository :=
  (db.repositories.filter fun r => r.governed && mirrorLevel db r.repositoryId).insertionSort
    fun r s => r.repositoryId.toNat ≤ s.repositoryId.toNat

/-- `serde_json::from_value` of one `RawExclusion`: an object with both members, or their pair. -/
def rawExclusion : Jsonb → Option (String × String)
  | .obj members =>
    match members.lookup "scope", members.lookup "expression" with
    | some (.str scope), some (.str expression) => some (scope, expression)
    | _, _ => none
  | .arr [.str scope, .str expression] => some (scope, expression)
  | _ => none

/-- `serde_json::from_value` of the exclusion array. -/
def rawExclusions : Jsonb → Except CatalogError (List (String × String))
  | .arr items => items.mapM fun item => (rawExclusion item).elim (.error (.invalid "exclusions")) .ok
  | _ => .error (.invalid "exclusions")

/-- `u64::try_from` of a stored `bigint`. -/
def unsignedOf (field : String) (n : ℤ) : Except CatalogError ℕ :=
  if 0 ≤ n then .ok n.toNat else .error (.invalid field)

/-- The size hint of a policy row. -/
def sizeHintOf : Option ℤ → Except CatalogError (Option ℕ)
  | none => .ok none
  | some n => (unsignedOf "size_hint_bytes" n).map some

/-- One selected repository as a policy input. -/
def policyInput (db : Database) (r : Repository) : Except CatalogError BackupPolicyInput := do
  let policy := policyOf db r.repositoryId
  let exclusions ← rawExclusions (policy.elim (.arr []) (·.exclusions))
  let size ← sizeHintOf (policy.bind (·.sizeHintBytes))
  pure {
    repositoryRef := "repository:" ++ uuidText r.repositoryId
    included := true
    cadence := policy.elim "daily" (·.mirrorCadence.text)
    priority := policy.elim "standard" (·.priorityHint.text)
    sizeHintBytes := size
    exclusions := exclusions }

/-- `load_inputs`. -/
def loadInputs (db : Database) : Except CatalogError (List BackupPolicyInput) :=
  (governedRepositories db).mapM (policyInput db)

/-! ### Deriving the document -/

/-- `MirrorCadence` of its text. -/
def cadenceOf (text : String) : Except CatalogError MirrorCadence :=
  if text = "eager" then .ok .eager
  else if text = "daily" then .ok .daily
  else if text = "weekly" then .ok .weekly
  else .error (.invalid "mirror_cadence")

/-- `BackupPriorityHint` of its text. -/
def priorityOf (text : String) : Except CatalogError PriorityHint :=
  if text = "critical" then .ok .critical
  else if text = "standard" then .ok .standard
  else if text = "bulk" then .ok .bulk
  else .error (.invalid "priority_hint")

/-- One exclusion of an entry. -/
def exclusionOf (k : Contracts) (raw : String × String) : Except CatalogError BackupExclusion := do
  let refsMatching ←
    if raw.1 = "refs_matching" then .ok true
    else if raw.1 = "paths_matching" then .ok false
    else .error (.invalid "exclusion_scope")
  if k.exclusionExpression raw.2 then .ok ⟨refsMatching, raw.2⟩ else .error (.invalid "exclusion")

/-- `to_entry`. -/
def toEntry (k : Contracts) (input : BackupPolicyInput) : Except CatalogError RepositoryBackupEntry :=
  if k.entityRef input.repositoryRef then do
    let mirrorCadence ← cadenceOf input.cadence
    let priorityHint ← priorityOf input.priority
    let exclusions ← input.exclusions.mapM (exclusionOf k)
    pure ⟨input.repositoryRef, mirrorCadence, priorityHint, input.sizeHintBytes, exclusions⟩
  else .error (.invalid "repository_ref")

/-- `derive_backup_policy`. -/
def deriveBackupPolicy (k : Contracts) (policyVersion : ℕ) (producedAt : Time)
    (inputs : List BackupPolicyInput) : Except CatalogError DesiredBackupPolicy := do
  let entries ← (inputs.filter (·.included)).mapM (toEntry k)
  let repositories := entries.insertionSort fun e f =>
    k.entityWire e.repositoryRef ≤ k.entityWire f.repositoryRef
  if k.producerName "ratatoskr-github" then
    let policy : DesiredBackupPolicy := ⟨policyVersion, producedAt, repositories⟩
    if k.policyValid policy then .ok policy else .error (.invalid "policy")
  else .error (.invalid "producing_service")

/-! ### The fingerprint -/

def writeBool (b : Bool) : List Char := if b then "true".toList else "false".toList

/-- An optional number: `null` or its digits. -/
def writeOptionNat : Option ℕ → List Char
  | none => "null".toList
  | some n => writeNat n

/-- One exclusion, as the two-element array of a pair. -/
def writeExclusion (e : String × String) : List Char :=
  '[' :: (writeString e.1 ++ ',' :: (writeString e.2 ++ [']']))

/-- `serde_json` of one input, its members in declaration order. -/
def writeInput (i : BackupPolicyInput) : List Char :=
  ('{' :: "\"repository_ref\":".toList ++ (writeString i.repositoryRef ++ [','])) ++
  (("\"included\":".toList ++ (writeBool i.included ++ [','])) ++
  (("\"cadence\":".toList ++ (writeString i.cadence ++ [','])) ++
  (("\"priority\":".toList ++ (writeString i.priority ++ [','])) ++
  (("\"size_hint_bytes\":".toList ++ ((writeOptionNat i.sizeHintBytes ++ [',']) ++ [])) ++
  ("\"exclusions\":".toList ++ (writeList writeExclusion i.exclusions ++ ['}']))))))

/-- `serde_json::to_string(&inputs)`. -/
def fingerprint (inputs : List BackupPolicyInput) : String :=
  String.ofList (writeList writeInput inputs)

theorem delimited_writeBool : Delimited writeBool := by
  intro a b r s h
  cases a <;> cases b <;> simp_all [writeBool]

theorem comma_not_mem_writeOptionNat (n : Option ℕ) : ',' ∉ writeOptionNat n := by
  cases n with
  | none => decide
  | some n =>
    intro h
    exact absurd (isDigit_of_mem_writeNat h) (by decide)

theorem writeOptionNat_injective : Function.Injective writeOptionNat := by
  have hnull : ∀ n, writeNat n ≠ "null".toList := by
    intro n h
    have hn : 'n' ∈ writeNat n := by rw [h]; decide
    exact absurd (isDigit_of_mem_writeNat hn) (by decide)
  intro a b h
  cases a with
  | none =>
    cases b with
    | none => rfl
    | some n => exact absurd h.symm (hnull n)
  | some m =>
    cases b with
    | none => exact absurd h (hnull m)
    | some n => rw [writeNat_injective h]

theorem delimited_writeExclusion : Delimited writeExclusion := by
  rintro ⟨a, b⟩ ⟨c, d⟩ r s h
  simp only [writeExclusion, List.cons_append, List.append_assoc, List.cons.injEq, true_and] at h
  obtain ⟨rfl, hrest⟩ := delimited_writeString a c _ _ h
  obtain ⟨rfl, hend⟩ := delimited_writeString b d _ _ (List.cons.inj hrest).2
  exact ⟨rfl, (List.cons.inj hend).2⟩

theorem delimited_writeInput : Delimited writeInput := by
  have hexclusions : Delimited (writeList writeExclusion) :=
    delimited_writeExclusion.list fun e => ⟨'[', _, rfl, by decide⟩
  have hsize : Delimited fun n : Option ℕ => writeOptionNat n ++ [','] :=
    delimited_until writeOptionNat_injective comma_not_mem_writeOptionNat
  have htuple :=
    (delimited_writeString.between ('{' :: "\"repository_ref\":".toList) [',']).pair
      ((delimited_writeBool.between "\"included\":".toList [',']).pair
        ((delimited_writeString.between "\"cadence\":".toList [',']).pair
          ((delimited_writeString.between "\"priority\":".toList [',']).pair
            ((hsize.between "\"size_hint_bytes\":".toList []).pair
              (hexclusions.between "\"exclusions\":".toList ['}'])))))
  refine htuple.comap (g := fun i : BackupPolicyInput =>
    (i.repositoryRef, i.included, i.cadence, i.priority, i.sizeHintBytes, i.exclusions)) ?_
  rintro ⟨⟩ ⟨⟩ h
  simpa using h

/-- **Equal fingerprints mean equal inputs.** -/
theorem fingerprint_injective : Function.Injective fingerprint := by
  intro as bs h
  have hlist : Delimited (writeList writeInput) :=
    Delimited.list delimited_writeInput fun i => ⟨'{', _, rfl, by decide⟩
  exact hlist.injective (String.ofList_injective h)

example : fingerprint [⟨"r", true, "daily", "standard", none, [("refs", "x")]⟩] =
    "[\x7b\"repository_ref\":\"r\",\"included\":true,\"cadence\":\"daily\",\"priority\":\"standard\",\"size_hint_bytes\":null,\"exclusions\":[[\"refs\",\"x\"]]\x7d]" := by
  decide +kernel

/-! ### The cursor and its publications -/

/-- `POLICY_DEBOUNCE`, sixty seconds. -/
def policyDebounce : Time := 60000000

/-- The cursor after one more dirty mark. -/
def markedCursor (now : Time) :
    Option BackupPolicyPublicationCursor → BackupPolicyPublicationCursor
  | none => { dirtyGeneration := 1, notBefore := some (now + policyDebounce) }
  | some c => { c with
      dirtyGeneration := c.dirtyGeneration + 1, notBefore := some (now + policyDebounce) }

/-- `mark_backup_policy_dirty_in_tx`; the increment is `bigint` arithmetic. -/
def markBackupPolicyDirtyInTx (now : Time) : Tx Unit := do
  require (.query .outOfRange) fun db =>
    fitsBigint (markedCursor now db.backupPolicyPublicationCursor).dirtyGeneration
  write .backupPolicyPublicationCursor fun db =>
    some (markedCursor now db.backupPolicyPublicationCursor)

theorem markBackupPolicyDirtyInTx_eq {now : Time} {c c' : Catalog} {u : Unit}
    (h : markBackupPolicyDirtyInTx now c = .ok (u, c')) :
    c'.tables = { c.tables with
      backupPolicyPublicationCursor :=
        some (markedCursor now c.tables.backupPolicyPublicationCursor) } := by
  simp only [markBackupPolicyDirtyInTx, Transact.Tx.bind_eq_ok, require_eq_ok, write_eq_ok] at h
  obtain ⟨_, _, ⟨_, rfl⟩, h⟩ := h
  exact h

/-- `mark_backup_policy_dirty`. -/
def markBackupPolicyDirty (now : Time) : Tx Unit := markBackupPolicyDirtyInTx now

/-- `settle`. -/
def settle (generation version : ℤ) (fp : String) : Tx Unit :=
  write .backupPolicyPublicationCursor fun db =>
    db.backupPolicyPublicationCursor.map fun c =>
      { c with
        publishedGeneration := generation, lastPolicyVersion := version
        lastFingerprint := some fp, notBefore := none }

inductive PublicationOutcome where
  | pending
  | unchanged
  | published (policyVersion : ℕ)
deriving DecidableEq

/-- A row as the producers insert it into the outbox. -/
def newOutboxEvent (messageId : Uuid) (subject : OutboxSubject) (payload : Jsonb) (now : Time) :
    OutboxEvent :=
  ⟨messageId, subject, payload, now, none, 0, now, none, none⟩

/-- Whether the cursor has unpublished marks whose deadline has passed. -/
def BackupPolicyPublicationCursor.due (now : Time) (c : BackupPolicyPublicationCursor) : Bool :=
  !(decide (c.dirtyGeneration = c.publishedGeneration) || c.notBefore.any fun d => decide (now < d))

/-- `i64::try_from` of a policy version. -/
def storedVersion (version : ℕ) : Except CatalogError ℤ :=
  if version < 2 ^ 63 then .ok version else .error (.invalid "policy_version")

/-- The publication of a new version: its immutable row, its outbox command and the cursor. -/
def publishVersion (k : Contracts) (now : Time) (commandId : Uuid)
    (cursor : BackupPolicyPublicationCursor) (inputs : List BackupPolicyInput) :
    Tx PublicationOutcome := do
  let last ← attempt fun _ => unsignedOf "policy_version" cursor.lastPolicyVersion
  let version := last + 1
  let policy ← attempt fun _ => deriveBackupPolicy k version now inputs
  let stored ← attempt fun _ => storedVersion version
  write .backupPolicyPublications fun db =>
    db.backupPolicyPublications ++ [⟨stored, fingerprint inputs, k.policyValue policy⟩]
  let envelope ← attempt fun _ =>
    (k.applyEnvelope commandId now policy).elim (.error (.invalid "envelope")) .ok
  write .outboxEvents fun db =>
    db.outboxEvents ++ [newOutboxEvent commandId .backupPolicyApply envelope now]
  settle cursor.dirtyGeneration stored (fingerprint inputs)
  pure (.published version)

/-- `publish_due_backup_policy`. -/
def publishDueBackupPolicy (k : Contracts) (now : Time) (commandId : Uuid) :
    Tx PublicationOutcome := do
  write .backupPolicyPublicationCursor fun db =>
    some (db.backupPolicyPublicationCursor.getD {})
  let cursor ← fetchOne (·.backupPolicyPublicationCursor)
  if cursor.due now then do
    let inputs ← attempt loadInputs
    if cursor.lastFingerprint = some (fingerprint inputs) then do
      settle cursor.dirtyGeneration cursor.lastPolicyVersion (fingerprint inputs)
      pure .unchanged
    else publishVersion k now commandId cursor inputs
  else pure .pending

/-! ### Acknowledgments -/

inductive FeedbackOutcome where
  | recorded
  | duplicate
deriving DecidableEq

/-- `PolicyAcknowledged`; an outcome outside the two known ones is `none`. -/
structure PolicyAcknowledged where
  acknowledgedPolicyVersion : ℕ
  outcome : Option PolicyOutcome
  lastAppliedPolicyVersion : ℕ
  reasons : Jsonb
  payload : Jsonb
deriving DecidableEq

/-- `i64::try_from` of an acknowledged version. -/
def acknowledgedVersion (field : String) (version : ℕ) : Except CatalogError ℤ :=
  if version < 2 ^ 63 then .ok version else .error (.invalid field)

/-- `record_backup_policy_acknowledgment`. -/
def recordBackupPolicyAcknowledgment (now : Time) (messageId : Uuid) (ack : PolicyAcknowledged) :
    Tx FeedbackOutcome := do
  let claimed ← select fun db => db.inboxEvents.any fun e => decide (e.messageId = messageId)
  if claimed then pure .duplicate
  else do
    write .inboxEvents fun db =>
      db.inboxEvents ++ [⟨messageId, .policyAcknowledged, ack.payload, none⟩]
    let outcome ← attempt fun _ => ack.outcome.elim (.error (.invalid "outcome")) .ok
    let acknowledged ← attempt fun _ =>
      acknowledgedVersion "acknowledged_policy_version" ack.acknowledgedPolicyVersion
    let lastApplied ← attempt fun _ =>
      acknowledgedVersion "last_applied_policy_version" ack.lastAppliedPolicyVersion
    write .backupPolicyFeedback fun db =>
      db.backupPolicyFeedback ++ [⟨messageId, acknowledged, outcome, lastApplied, ack.reasons, now⟩]
    write .inboxEvents fun db =>
      updateWhere (fun e => decide (e.messageId = messageId))
        (fun e => { e with consumedAt := some now }) db.inboxEvents
    pure .recorded

/-! ### Frames -/

theorem touches_markBackupPolicyDirtyInTx (now : Time) :
    Touches [.backupPolicyPublicationCursor] (markBackupPolicyDirtyInTx now) :=
  (Touches.require _ _).bind fun _ => Touches.write (by decide) _

theorem touches_publishVersion (k : Contracts) (now : Time) (commandId : Uuid)
    (cursor : BackupPolicyPublicationCursor) (inputs : List BackupPolicyInput) :
    Touches [.backupPolicyPublicationCursor, .backupPolicyPublications, .outboxEvents]
      (publishVersion k now commandId cursor inputs) :=
  (Touches.attempt _).bind fun _ => (Touches.attempt _).bind fun _ =>
    (Touches.attempt _).bind fun _ => (Touches.write (by decide) _).bind fun _ =>
    (Touches.attempt _).bind fun _ => (Touches.write (by decide) _).bind fun _ =>
    (Touches.write (by decide) _).bind fun _ => Touches.pure _

theorem touches_publishDueBackupPolicy (k : Contracts) (now : Time) (commandId : Uuid) :
    Touches [.backupPolicyPublicationCursor, .backupPolicyPublications, .outboxEvents]
      (publishDueBackupPolicy k now commandId) := by
  refine (Touches.write (by decide) _).bind fun _ => (Touches.fetchOne _).bind fun cursor => ?_
  split
  · refine (Touches.attempt _).bind fun inputs => ?_
    split
    · exact (Touches.write (by decide) _).bind fun _ => Touches.pure _
    · exact touches_publishVersion k now commandId cursor inputs
  · exact Touches.pure _

theorem touches_recordBackupPolicyAcknowledgment (now : Time) (messageId : Uuid)
    (ack : PolicyAcknowledged) :
    Touches [.inboxEvents, .backupPolicyFeedback]
      (recordBackupPolicyAcknowledgment now messageId ack) := by
  refine (Touches.select _).bind fun claimed => ?_
  split
  · exact Touches.pure _
  · exact (Touches.write (by decide) _).bind fun _ => (Touches.attempt _).bind fun _ =>
      (Touches.attempt _).bind fun _ => (Touches.attempt _).bind fun _ =>
      (Touches.write (by decide) _).bind fun _ => (Touches.write (by decide) _).bind fun _ =>
      Touches.pure _

end GithubCatalog
