import GithubCatalog.RepositoryActions
import Mathlib.Data.List.Perm.Basic

/-!
# Accepting a synchronization command (`commands.rs`)

A delivered envelope is validated without touching any state, and the account its payload names is
resolved.

* `validateEnvelope` - the grammar, over the JSON and UUID readers of the service;
* `resolveAccount` - the account of an owner reference, in the order the database returns its rows;
* `acceptSyncCommand` - both;
* `accepted_iff` - when a grammatical command of an owner with a connected account is accepted for
  one.
-/

namespace GithubCatalog

open Runs

inductive RequestedSyncMode where
  | incremental | full
deriving DecidableEq

/-- Why a command is not dispatched. -/
inductive CommandRefusal where
  | invalid (message : String)
  | unknownAccount
  | accountNotConnected
deriving DecidableEq

structure ValidatedEnvelope where
  raw : Jsonb
  commandId : Uuid
  ownerRef : String
  requestedMode : RequestedSyncMode
deriving DecidableEq

/-- `serde_json::from_str` and `Uuid::parse_str`. -/
structure Parsers where
  json : String → Option Jsonb
  uuid : String → Option Uuid

/-- `SYNC_REQUESTED_TYPE`. -/
def syncRequestedType : String := "github.sync.requested.v1"

/-- `Value::as_str`. -/
def asStr : Jsonb → Option String
  | .str text => some text
  | _ => none

/-- `Value::as_object`. -/
def asObject (value : Jsonb) : Option Jsonb := if value.isObject then some value else none

/-- An answer, or a grammar violation. -/
def orInvalid {α : Type} (message : String) (answer : Option α) : Except CommandRefusal α :=
  answer.elim (.error (.invalid message)) .ok

/-- `require_str`. -/
def requireStr (members : Jsonb) (key message : String) : Except CommandRefusal String :=
  orInvalid message ((members.member key).bind asStr)

/-- `requested_mode`. -/
def requestedMode (payload : Jsonb) : Except CommandRefusal RequestedSyncMode :=
  match payload.member "mode" with
  | none | some .null => .ok .incremental
  | some (.str text) =>
    if text = "incremental" then .ok .incremental
    else if text = "full" then .ok .full
    else .error (.invalid "payload mode must be incremental or full")
  | some _ => .error (.invalid "payload mode must be incremental or full")

/-- `ensure_owner_ref`. -/
def ensureOwnerRef (value : String) : Except CommandRefusal Unit :=
  let headOk := match value.toList with
    | first :: _ => isLowerChar first
    | [] => false
  let tailOk := value.toList.tail.all fun rest => isLowerChar rest || rest.isDigit || rest == '-'
  let lengthOk := decide (2 ≤ value.toList.length) && decide (value.toList.length ≤ 64)
  if headOk && tailOk && lengthOk then .ok ()
  else .error (.invalid "payload account does not match the owner reference grammar")

/-- The string members an envelope must have, with what is said when one is missing. -/
def presentMembers : List (String × String) :=
  [("requested_at", "requested_at must be a present string member"),
    ("operation_id", "operation_id must be a present string member"),
    ("correlation_id", "correlation_id must be a present string member"),
    ("idempotency_key", "idempotency_key must be a present string member")]

/-- The members every command has, before its payload is read. -/
def validateMembers (p : Parsers) (members : Jsonb) : Except CommandRefusal Uuid := do
  let commandType ← requireStr members "command_type" "command_type must be a string"
  orInvalid "command_type is foreign to this service"
    (if commandType = syncRequestedType then some () else none)
  let commandId ← orInvalid "command_id must be a UUID string"
    (p.uuid (← requireStr members "command_id" "command_id must be a UUID string"))
  let tenant ← requireStr members "tenant_id" "tenant_id must be a string"
  let tenantUuid ← orInvalid "tenant_id must take the form user:<uuid>" (stripPrefix "user:" tenant)
  let _ ← orInvalid "tenant_id must take the form user:<uuid>" (p.uuid tenantUuid)
  let _ ← presentMembers.mapM fun entry => requireStr members entry.1 entry.2
  return commandId

/-- `validate_envelope`. -/
def validateEnvelope (p : Parsers) (envelopeJson : String) :
    Except CommandRefusal ValidatedEnvelope := do
  let envelope ← orInvalid "the envelope is not valid JSON" (p.json envelopeJson)
  let members ← orInvalid "the envelope must be a JSON object" (asObject envelope)
  let commandId ← validateMembers p members
  let payload ← orInvalid "payload must be a JSON object" ((members.member "payload").bind asObject)
  let ownerRef ← requireStr payload "account" "payload must name an account"
  ensureOwnerRef ownerRef
  let requestedMode ← requestedMode payload
  return ⟨envelope, commandId, ownerRef, requestedMode⟩

/-- `resolve_account`: the first row the database returns. -/
def resolveAccount (rows : List GithubAccount) (ownerRef : String) : Except CommandRefusal Uuid :=
  match rows.find? fun a => decide (a.ownerRef = ownerRef) with
  | none => .error .unknownAccount
  | some a => if a.status ≠ .connected then .error .accountNotConnected else .ok a.accountId

/-- What `handle_sync_command` does before it claims the delivery. -/
def acceptSyncCommand (p : Parsers) (rows : List GithubAccount) (envelopeJson : String) :
    Except CommandRefusal (ValidatedEnvelope × Uuid) := do
  let validated ← validateEnvelope p envelopeJson
  let accountId ← resolveAccount rows validated.ownerRef
  return (validated, accountId)

/-! ### Grammatical commands -/

/-- What the platform's command grammar asks of an envelope that names an owner. -/
structure Grammatical (p : Parsers) (envelope payload : Jsonb) (ownerRef : String) : Prop where
  isObject : envelope.isObject = true
  commandType : envelope.member "command_type" = some (.str syncRequestedType)
  commandId : ∃ text id, envelope.member "command_id" = some (.str text) ∧ p.uuid text = some id
  tenant : ∃ text id, envelope.member "tenant_id" = some (.str ("user:" ++ text)) ∧
    p.uuid text = some id
  present : ∀ entry ∈ presentMembers, ∃ text, envelope.member entry.1 = some (.str text)
  payload_eq : envelope.member "payload" = some payload
  payload_isObject : payload.isObject = true
  account : payload.member "account" = some (.str ownerRef)
  mode : payload.member "mode" = none ∨ payload.member "mode" = some .null ∨
    payload.member "mode" = some (.str "incremental") ∨ payload.member "mode" = some (.str "full")

theorem ok_bind {ε α β : Type} (a : α) (f : α → Except ε β) : (Except.ok a >>= f) = f a := rfl

theorem orInvalid_some {α : Type} (message : String) (a : α) :
    orInvalid message (some a) = .ok a := rfl

theorem requireStr_of_member {members : Jsonb} {key text : String} (message : String)
    (h : members.member key = some (.str text)) : requireStr members key message = .ok text := by
  rw [requireStr, h]
  rfl

theorem asObject_of_isObject {value : Jsonb} (h : value.isObject = true) :
    asObject value = some value :=
  if_pos h

theorem stripPrefix_append (head text : String) : stripPrefix head (head ++ text) = some text := by
  have hhead : head.toList.isPrefixOf (head ++ text).toList = true := by
    rw [String.toList_append, List.isPrefixOf_iff_prefix]
    exact List.prefix_append _ _
  rw [stripPrefix, if_pos hhead, String.toList_append, List.drop_left, String.ofList_toList]

/-- Members that are all there are all read. -/
theorem requireAll_of_members {members : Jsonb} (entries : List (String × String))
    (h : ∀ entry ∈ entries, ∃ text, members.member entry.1 = some (.str text)) :
    ∃ texts, entries.mapM (fun entry => requireStr members entry.1 entry.2) = .ok texts := by
  induction entries with
  | nil => exact ⟨[], rfl⟩
  | cons entry entries ih =>
    obtain ⟨text, htext⟩ := h entry List.mem_cons_self
    obtain ⟨texts, htexts⟩ := ih fun e he => h e (List.mem_cons_of_mem _ he)
    refine ⟨text :: texts, ?_⟩
    rw [List.mapM_cons, requireStr_of_member _ htext, htexts]
    rfl

theorem if_eq_ok {b : Bool} {e : CommandRefusal} :
    (if b = true then Except.ok () else Except.error e) = .ok () ↔ b = true := by
  cases b with
  | true => exact iff_of_true rfl rfl
  | false => exact iff_of_false (fun h => nomatch h) Bool.false_ne_true

/-- `ensure_owner_ref` knows one of the two branches of the column's check. -/
theorem ensureOwnerRef_eq_ok (value : String) :
    ensureOwnerRef value = .ok () ↔ isOwnerSlug value = true := by
  rw [ensureOwnerRef, if_eq_ok, isOwnerSlug, matchesWord]
  cases value.toList with
  | nil => simp
  | cons first rest =>
    simp only [List.tail_cons, List.length_cons, Bool.and_eq_true, decide_eq_true_eq]
    constructor
    · intro h
      exact ⟨⟨h.1, by omega⟩, by omega⟩
    · intro h
      exact ⟨h.1.1, by omega, by omega⟩

namespace Grammatical

variable {p : Parsers} {envelope payload : Jsonb} {ownerRef : String}

theorem members (h : Grammatical p envelope payload ownerRef) :
    ∃ id, validateMembers p envelope = .ok id := by
  obtain ⟨idText, id, hidText, hid⟩ := h.commandId
  obtain ⟨tenantText, tenantId, htenantText, htenantId⟩ := h.tenant
  obtain ⟨texts, htexts⟩ := requireAll_of_members presentMembers h.present
  refine ⟨id, ?_⟩
  simp only [validateMembers, requireStr_of_member _ h.commandType, requireStr_of_member _ hidText,
    requireStr_of_member _ htenantText, ok_bind, if_true, orInvalid_some, hid, stripPrefix_append,
    htenantId, htexts]
  rfl

theorem requestedMode (h : Grammatical p envelope payload ownerRef) :
    ∃ mode, GithubCatalog.requestedMode payload = .ok mode := by
  unfold GithubCatalog.requestedMode
  rcases h.mode with hmode | hmode | hmode | hmode
  · exact ⟨.incremental, by rw [hmode]⟩
  · exact ⟨.incremental, by rw [hmode]⟩
  · exact ⟨.incremental, by rw [hmode]; rfl⟩
  · exact ⟨.full, by rw [hmode]; rfl⟩

/-- **A grammatical envelope** is refused for its owner reference or not at all. -/
theorem validateEnvelope {text : String} (h : Grammatical p envelope payload ownerRef)
    (htext : p.json text = some envelope) :
    ∃ v, v.ownerRef = ownerRef ∧
      GithubCatalog.validateEnvelope p text = (ensureOwnerRef ownerRef).bind fun _ => .ok v := by
  obtain ⟨id, hid⟩ := h.members
  obtain ⟨mode, hmode⟩ := h.requestedMode
  refine ⟨⟨envelope, id, ownerRef, mode⟩, rfl, ?_⟩
  simp only [GithubCatalog.validateEnvelope, htext, asObject_of_isObject h.isObject, orInvalid_some,
    ok_bind, hid, h.payload_eq, Option.bind_some, asObject_of_isObject h.payload_isObject,
    requireStr_of_member _ h.account]
  cases ensureOwnerRef ownerRef with
  | error e => rfl
  | ok u =>
    show (GithubCatalog.requestedMode payload).bind _ = _
    rw [hmode]
    rfl

end Grammatical

theorem resolveAccount_of_find {rows : List GithubAccount} {ownerRef : String} {b : GithubAccount}
    (h : rows.find? (fun a => decide (a.ownerRef = ownerRef)) = some b) :
    resolveAccount rows ownerRef =
      if b.status ≠ .connected then .error .accountNotConnected else .ok b.accountId := by
  rw [resolveAccount, h]

/-- The row that is found may be any of the rows with the property. -/
theorem exists_perm_find {α : Type} {q : α → Bool} {rows : List α} {b : α} (hb : b ∈ rows)
    (hq : q b = true) : ∃ rows' : List α, rows'.Perm rows ∧ rows'.find? q = some b := by
  obtain ⟨before, behind, rfl⟩ := List.append_of_mem hb
  refine ⟨b :: (before ++ behind), List.perm_middle.symm, ?_⟩
  rw [List.find?_cons_of_pos hq]

/-- The command is accepted for a connected account of the owner. -/
def AcceptedFor (p : Parsers) (rows : List GithubAccount) (text ownerRef : String) : Prop :=
  ∃ v, ∃ b ∈ rows, acceptSyncCommand p rows text = .ok (v, b.accountId) ∧
    b.ownerRef = ownerRef ∧ b.status = .connected

/-- **Accepted commands.**  A grammatical command names the owner of an account: it is accepted for a
connected account of that owner, in whatever order the database returns its rows, exactly when the
owner reference is a slug and all of the owner's accounts are connected. -/
theorem accepted_iff (p : Parsers) (c : Catalog) (a : GithubAccount)
    (ha : a ∈ c.tables.githubAccounts) (text : String) (envelope payload : Jsonb) (htext : p.json text = some envelope)
    (h : Grammatical p envelope payload a.ownerRef) :
    (∀ rows, rows.Perm c.tables.githubAccounts → AcceptedFor p rows text a.ownerRef) ↔
      isOwnerSlug a.ownerRef = true ∧
        ∀ b ∈ c.tables.githubAccounts, b.ownerRef = a.ownerRef → b.status = .connected := by
  obtain ⟨v, howner, hvalidate⟩ := h.validateEnvelope htext
  have haccept : ∀ rows, isOwnerSlug a.ownerRef = true →
      acceptSyncCommand p rows text = (resolveAccount rows a.ownerRef).map fun id => (v, id) := by
    intro rows hslug
    rw [acceptSyncCommand, hvalidate, (ensureOwnerRef_eq_ok _).mpr hslug]
    show (resolveAccount rows v.ownerRef).bind _ = _
    rw [howner]
    rfl
  constructor
  · intro hall
    have hslug : isOwnerSlug a.ownerRef = true := by
      obtain ⟨v', b, -, hok, -⟩ := hall _ (List.Perm.refl _)
      rw [← ensureOwnerRef_eq_ok]
      cases hensure : ensureOwnerRef a.ownerRef with
      | ok u => rfl
      | error e =>
        rw [acceptSyncCommand, hvalidate, hensure] at hok
        cases hok
    refine ⟨hslug, ?_⟩
    intro b hb hsame
    obtain ⟨rows, hperm, hfind⟩ :=
      exists_perm_find (q := fun b => decide (b.ownerRef = a.ownerRef)) hb (decide_eq_true hsame)
    obtain ⟨v', b', -, hok, -⟩ := hall rows hperm
    by_contra hnot
    rw [haccept rows hslug, resolveAccount_of_find hfind, if_pos hnot] at hok
    cases hok
  · rintro ⟨hslug, hall⟩ rows hperm
    obtain ⟨b, hfind⟩ : ∃ b, rows.find? (fun b => decide (b.ownerRef = a.ownerRef)) = some b := by
      rw [← Option.isSome_iff_exists, List.find?_isSome]
      exact ⟨a, hperm.mem_iff.mpr ha, decide_eq_true rfl⟩
    have hb := List.mem_of_find?_eq_some hfind
    have hfound := List.find?_some hfind
    have hsame : b.ownerRef = a.ownerRef := of_decide_eq_true hfound
    have hstatus := hall b (hperm.mem_iff.mp hb) hsame
    refine ⟨v, b, hb, ?_, hsame, hstatus⟩
    rw [haccept rows hslug, resolveAccount_of_find hfind, if_neg (not_not_intro hstatus)]
    rfl

/-! ### One command -/

/-- The command of an owner. -/
def commandText (ownerRef : String) : String :=
  "\x7b\"command_type\":\"github.sync.requested.v1\"," ++
    "\"command_id\":\"00000000-0000-0000-0000-000000000007\"," ++
    "\"tenant_id\":\"user:00000000-0000-0000-0000-000000000003\"," ++
    "\"requested_at\":\"\",\"operation_id\":\"\",\"correlation_id\":\"\",\"idempotency_key\":\"\"," ++
    "\"payload\":\x7b\"account\":\"" ++ ownerRef ++ "\"\x7d\x7d"

def commandPayload (ownerRef : String) : Jsonb := .obj [("account", .str ownerRef)]

/-- What the command says. -/
def commandValue (ownerRef : String) : Jsonb :=
  .obj [("command_type", .str syncRequestedType),
    ("command_id", .str "00000000-0000-0000-0000-000000000007"),
    ("tenant_id", .str "user:00000000-0000-0000-0000-000000000003"),
    ("requested_at", .str ""), ("operation_id", .str ""), ("correlation_id", .str ""),
    ("idempotency_key", .str ""), ("payload", commandPayload ownerRef)]

/-- Readers that know the commands of two owners. -/
def sampleParsers : Parsers where
  json := fun text =>
    (["owner-a", "user:00000000-0000-0000-0000-000000000003"].find? fun owner =>
      decide (text = commandText owner)).map commandValue
  uuid := fun text =>
    if text = "00000000-0000-0000-0000-000000000007" then some 7
    else if text = "00000000-0000-0000-0000-000000000003" then some 3
    else none

theorem grammatical_commandValue (ownerRef : String) :
    Grammatical sampleParsers (commandValue ownerRef) (commandPayload ownerRef) ownerRef where
  isObject := rfl
  commandType := rfl
  commandId := ⟨"00000000-0000-0000-0000-000000000007", 7, rfl, rfl⟩
  tenant := ⟨"00000000-0000-0000-0000-000000000003", 3, rfl, rfl⟩
  present := by
    intro entry hentry
    simp only [presentMembers, List.mem_cons, List.not_mem_nil, or_false] at hentry
    rcases hentry with rfl | rfl | rfl | rfl
    · exact ⟨"", rfl⟩
    · exact ⟨"", rfl⟩
    · exact ⟨"", rfl⟩
    · exact ⟨"", rfl⟩
  payload_eq := rfl
  payload_isObject := rfl
  account := rfl
  mode := .inl rfl

/-- The owner's only account, connected. -/
def ownerAccount : GithubAccount := ⟨1, "owner-a", .connected, some 7, some "login", ["repo", "user"]⟩

/-- Owner and account of the connected catalog. -/
theorem accepted_iff_owner :
    (∀ rows, rows.Perm (runFrom (step sampleContracts) emptyCatalog
        connectOwners).tables.githubAccounts →
      AcceptedFor sampleParsers rows (commandText "owner-a") "owner-a") ↔
      isOwnerSlug "owner-a" = true ∧
        ∀ b ∈ (runFrom (step sampleContracts) emptyCatalog connectOwners).tables.githubAccounts,
          b.ownerRef = "owner-a" → b.status = .connected :=
  accepted_iff sampleParsers _ ownerAccount (by decide +kernel) (commandText "owner-a")
    (commandValue "owner-a") (commandPayload "owner-a") (by decide +kernel)
    (grammatical_commandValue "owner-a")

/-- Two accounts of one owner and one of a user; the second and the third get connected. -/
def connectShared : List Operation :=
  [.importLegacy (BitVec.ofInt 128) (fun _ n => BitVec.ofNat 128 n) 0
    ⟨"retired", [(1, "owner-a"), (2, "owner-a"), (3, "user:00000000-0000-0000-0000-000000000003")],
      ⟨[], [⟨1, none, none, none⟩, ⟨2, none, none, none⟩, ⟨3, none, none, none⟩]⟩⟩ 1,
    connectAccount 2 8, connectAccount 3 9]

/-- The owner of a connected account is told that the account is not connected, and the owner whose
reference is a user's is told that the reference is not one. -/
theorem connected_owner_refused :
    (runFrom (step sampleContracts) emptyCatalog connectShared).tables.githubAccounts.map
        (fun a => (a.accountId, a.ownerRef, decide (a.status = .connected))) =
      [(1, "owner-a", false), (2, "owner-a", true),
        (3, "user:00000000-0000-0000-0000-000000000003", true)] ∧
    Grammatical sampleParsers (commandValue "owner-a") (commandPayload "owner-a") "owner-a" ∧
    acceptSyncCommand sampleParsers
        (runFrom (step sampleContracts) emptyCatalog connectShared).tables.githubAccounts
        (commandText "owner-a") = .error .accountNotConnected ∧
    Grammatical sampleParsers (commandValue "user:00000000-0000-0000-0000-000000000003")
      (commandPayload "user:00000000-0000-0000-0000-000000000003")
      "user:00000000-0000-0000-0000-000000000003" ∧
    acceptSyncCommand sampleParsers
        (runFrom (step sampleContracts) emptyCatalog connectShared).tables.githubAccounts
        (commandText "user:00000000-0000-0000-0000-000000000003") =
      .error (.invalid "payload account does not match the owner reference grammar") :=
  ⟨by decide +kernel, grammatical_commandValue _, by decide +kernel, grammatical_commandValue _,
    by decide +kernel⟩

end GithubCatalog
