import GithubCatalog.Text

/-!
# The code outside the repository

The shared contract crates (identifiers, envelopes, backup and analysis contracts), SHA-256 and
PostgreSQL's text-to-`timestamptz` cast are not part of the repository.  `Contracts` is what the
catalog calls of them, as functions a theorem is stated over.

`Contracts.Documented` collects what the catalog's own SQL and types rely on of them: which JSON
paths a serialized README revision carries its digest under, that the policy command names no owner,
and that digests are 64 hexadecimal digits.
-/

namespace GithubCatalog

/-! ### Contract values the catalog builds -/

structure BackupExclusion where
  refsMatching : Bool
  expression : String
deriving DecidableEq

structure RepositoryBackupEntry where
  repositoryRef : String
  mirrorCadence : MirrorCadence
  priorityHint : PriorityHint
  sizeHintBytes : Option ℕ
  exclusions : List BackupExclusion
deriving DecidableEq

structure DesiredBackupPolicy where
  policyVersion : ℕ
  producedAt : Time
  repositories : List RepositoryBackupEntry
deriving DecidableEq

inductive ReadmeAbsenceReason where
  | notFound | notAuthorized
deriving DecidableEq

/-- `ReadmeRevision`: the stored blob a present README is addressed by, or why there is none. -/
inductive ReadmeRevision where
  | present (digestHex : String) (lengthBytes : ℕ)
  | absent (reason : ReadmeAbsenceReason)
deriving DecidableEq

structure RepositoryAnalysisAttributes where
  repositoryFullName : String
  description : Option String
  primaryLanguage : Option String
deriving DecidableEq

structure RepositoryAnalysisRevision where
  attributesDigestHex : String
  readme : ReadmeRevision
deriving DecidableEq

structure RepositoryAnalysisRequested where
  owner : String
  repositoryId : Uuid
  githubRepositoryNumericId : ℕ
  requestId : Uuid
  sourceRevision : RepositoryAnalysisRevision
  repositoryAttributes : RepositoryAnalysisAttributes
  idempotencyKeyHex : String
deriving DecidableEq

/-- The identity of a terminal analysis fact (`TerminalIdentity`), with its serialized body. -/
structure TerminalFact where
  owner : String
  repositoryId : Uuid
  githubRepositoryNumericId : ℕ
  requestId : Uuid
  sourceRevision : RepositoryAnalysisRevision
  payload : Jsonb
deriving DecidableEq

/-- What the catalog calls of the code outside the repository. -/
structure Contracts where
  /-- `$n::timestamptz`. -/
  timestamp : String → Option Time
  /-- `OffsetDateTime::parse` of an RFC 3339 text. -/
  rfc3339 : String → Option Time
  /-- `Sha256::digest`, as lower-case hexadecimal text. -/
  sha256Hex : List UInt8 → String
  /-- The UTF-8 bytes `serde_json::to_vec` gives for a JSON value. -/
  jsonBytes : Jsonb → List UInt8
  /-- `EntityRef::parse` accepts the text. -/
  entityRef : String → Bool
  /-- `EntityRef::to_wire` of the parsed text. -/
  entityWire : String → String
  /-- `ProducerName::parse` accepts the text. -/
  producerName : String → Bool
  /-- `TenantRef::parse` accepts the text. -/
  tenantRef : String → Bool
  /-- `ExclusionExpression::parse` accepts the text. -/
  exclusionExpression : String → Bool
  /-- `DesiredBackupPolicy::validate`. -/
  policyValid : DesiredBackupPolicy → Bool
  /-- `serde_json::to_value` of a policy. -/
  policyValue : DesiredBackupPolicy → Jsonb
  /-- `backup_policy_apply_envelope` of the command id, the issue time and the policy. -/
  applyEnvelope : Uuid → Time → DesiredBackupPolicy → Option Jsonb
  /-- `RepositoryFullName::parse` accepts the text. -/
  repositoryFullName : String → Bool
  /-- `RepositoryDescription::parse` accepts the text. -/
  repositoryDescription : String → Bool
  /-- `RepositoryLanguage::parse` accepts the text. -/
  repositoryLanguage : String → Bool
  /-- `serde_json::to_value` of the analysis attributes. -/
  attributesValue : RepositoryAnalysisAttributes → Jsonb
  /-- `serde_json::to_vec` of the analysis attributes. -/
  attributesBytes : RepositoryAnalysisAttributes → List UInt8
  /-- `serde_json::to_value` of a README revision. -/
  readmeValue : ReadmeRevision → Jsonb
  /-- `serde_json::from_value` of a README revision. -/
  readmeOf : Jsonb → Option ReadmeRevision
  /-- `serde_json::to_value` of a source revision. -/
  revisionValue : RepositoryAnalysisRevision → Jsonb
  /-- `serde_json::to_value` of an analysis request. -/
  requestValue : RepositoryAnalysisRequested → Jsonb
  /-- `serde_json::from_value` of an analysis request. -/
  requestOf : Jsonb → Option RepositoryAnalysisRequested
  /-- `analysis_requested_envelope` of the event id, the time and the request. -/
  requestedEnvelope : Uuid → Time → RepositoryAnalysisRequested → Option Jsonb

/-- The JSON path of a present README revision's digest. -/
def readmeDigestPath : List String := ["content_ref", "digest", "hex"]

/-- What the catalog relies on of the code outside the repository. -/
structure Contracts.Documented (k : Contracts) : Prop where
  /-- Digests are 64 lower-case hexadecimal digits. -/
  sha256Hex_shape : ∀ bytes, isDigestHex (k.sha256Hex bytes) = true
  /-- A policy document is a JSON object. -/
  policyValue_isObject : ∀ policy, (k.policyValue policy).isObject = true
  /-- A policy command is a JSON object. -/
  applyEnvelope_isObject : ∀ id at' policy envelope,
    k.applyEnvelope id at' policy = some envelope → envelope.isObject = true
  /-- A policy command is catalog-wide: no `owner`, a null `tenant_id`, no account in its payload. -/
  applyEnvelope_ownerless : ∀ id at' policy envelope, k.applyEnvelope id at' policy = some envelope →
    envelope.memberText "owner" = none ∧ envelope.memberText "tenant_id" = none ∧
      envelope.pathText ["payload", "account"] = none
  /-- A README revision names the digest of its blob, and an absent README names none. -/
  readmeValue_digest : ∀ readme, (k.readmeValue readme).pathText readmeDigestPath =
    match readme with
    | .present digestHex _ => some digestHex
    | .absent _ => none
  /-- A source revision carries its README revision under `readme`. -/
  revisionValue_readme : ∀ revision,
    (k.revisionValue revision).member "readme" = some (k.readmeValue revision.readme)

/-! ### A small implementation, for concrete runs -/

/-- The shapes of the serialized contract values, with the texts and digests the concrete runs
need. -/
def sampleContracts : Contracts where
  timestamp := fun text => if text = "1970-01-01T00:00:01Z" then some 1000000 else none
  rfc3339 := fun text => if text = "1970-01-01T00:00:01Z" then some 1000000 else none
  sha256Hex := fun bytes =>
    if bytes = [] then "e3b0c44298fc1c149afbf4c8996fb92427ae41e4649b934ca495991b7852b855"
    else "ca978112ca1bbdcafac231b39a23dc4da786eff8147c4f72b9807785afee48bb"
  jsonBytes := fun _ => []
  entityRef := fun _ => true
  entityWire := id
  producerName := fun _ => true
  tenantRef := fun _ => true
  exclusionExpression := fun _ => true
  policyValid := fun _ => true
  policyValue := fun policy => .obj [("repositories",
    .arr (policy.repositories.map fun e => .obj [("repository_ref", .str e.repositoryRef)]))]
  applyEnvelope := fun _ _ policy => some (.obj [("tenant_id", .null), ("payload",
    .obj [("repositories",
      .arr (policy.repositories.map fun e => .obj [("repository_ref", .str e.repositoryRef)]))])])
  repositoryFullName := fun _ => true
  repositoryDescription := fun _ => true
  repositoryLanguage := fun _ => true
  attributesValue := fun attributes => .obj [("full_name", .str attributes.repositoryFullName)]
  attributesBytes := fun _ => []
  readmeValue := fun readme =>
    match readme with
    | .present hex _ => .obj [("content_ref", .obj [("digest", .obj [("hex", .str hex)])])]
    | .absent _ => .obj [("reason", .str "not_found")]
  readmeOf := fun value =>
    some ((value.pathText readmeDigestPath).elim (.absent .notFound) fun hex => .present hex 0)
  revisionValue := fun revision => .obj [("readme",
    match revision.readme with
    | .present hex _ => .obj [("content_ref", .obj [("digest", .obj [("hex", .str hex)])])]
    | .absent _ => .obj [("reason", .str "not_found")])]
  requestValue := fun request => .obj [("owner", .str request.owner)]
  requestOf := fun _ => none
  requestedEnvelope := fun _ _ _ => none

theorem sampleContracts_documented : sampleContracts.Documented where
  sha256Hex_shape := by
    intro bytes
    show isDigestHex (if bytes = [] then _ else _) = true
    split
    · decide +kernel
    · decide +kernel
  policyValue_isObject := fun _ => rfl
  applyEnvelope_isObject := by
    intro id at' policy envelope h
    cases h
    rfl
  applyEnvelope_ownerless := by
    intro id at' policy envelope h
    cases h
    exact ⟨rfl, rfl, rfl⟩
  readmeValue_digest := by
    intro readme
    cases readme <;> rfl
  revisionValue_readme := by
    intro revision
    cases h : revision.readme <;> simp [sampleContracts, h, Jsonb.member]

end GithubCatalog
