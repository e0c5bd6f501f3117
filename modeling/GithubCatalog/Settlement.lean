import GithubCatalog.AnalysisLifecycle
import GithubCatalog.AnalysisOwnership

/-!
# Settling consumed messages (`bus.rs`)

The three durables deliver analysis results and policy acknowledgments.  A message that does not
decode is terminated, one whose transaction commits is acknowledged, and one whose transaction fails
in the database is delivered again.

* `settleCompleted`, `settleFailed`, `settleAcknowledged` - the three handlers;
* `Reachable.linksStand` - in every reachable catalog a link stands for a completed request;
* `consumeTerminalFact_settles`, `acknowledgment_settles` - what the database refuses;
* `settled_iff` - which messages it never refuses.
-/

namespace GithubCatalog

open Relational Runs Transact

/-! ### Messages -/

/-- `EventEnvelope`, as the handlers read it. -/
structure EventEnvelope where
  eventId : Uuid
  eventType : String
  producer : String
  tenantId : Option String
  payload : Jsonb

/-- `AnalysisFailureCode`; a code outside the four known ones is `none`. -/
inductive AnalysisFailureCode where
  | sourceUnavailable | contractInvalid | dependencyUnavailable | notAuthorized
deriving DecidableEq

def AnalysisFailureCode.label : AnalysisFailureCode → String
  | sourceUnavailable => "source_unavailable"
  | contractInvalid => "contract_invalid"
  | dependencyUnavailable => "dependency_unavailable"
  | notAuthorized => "not_authorized"

/-- `RepositoryAnalysisCompleted`. -/
structure RepositoryAnalysisCompleted where
  fact : TerminalFact
  analysisResultRef : String

/-- `RepositoryAnalysisFailed`. -/
structure RepositoryAnalysisFailed where
  fact : TerminalFact
  failureCode : Option AnalysisFailureCode
  retryable : Bool

/-- `EventEnvelope::from_json` and `payload_as` at the three payload types. -/
structure Decoders where
  envelope : List UInt8 → Option EventEnvelope
  completed : Jsonb → Option RepositoryAnalysisCompleted
  failed : Jsonb → Option RepositoryAnalysisFailed
  acknowledged : Jsonb → Option PolicyAcknowledged

/-- What the handlers rely on of the decoders: payloads serialize to objects, reasons to a list. -/
structure Decoders.Documented (d : Decoders) : Prop where
  completed_isObject : ∀ payload m, d.completed payload = some m → m.fact.payload.isObject = true
  failed_isObject : ∀ payload m, d.failed payload = some m → m.fact.payload.isObject = true
  acknowledged_isObject : ∀ payload ack, d.acknowledged payload = some ack →
    ack.payload.isObject = true
  reasons_isArray : ∀ payload ack, d.acknowledged payload = some ack → ack.reasons.isArray = true

def knowledgeProducer : String := "ratatoskr-knowledge"

def vaultProducer : String := "ratatoskr-vault"

/-! ### The handlers -/

inductive Disposition where
  | ack | term | nak
deriving DecidableEq

/-- `watch_disposition`, and the same match of `settle_acknowledged`: only a persistence failure is
tried again. -/
def dispositionOf {α : Type} : Except CatalogError α → Disposition
  | .ok _ => .ack
  | .error (.query _) => .nak
  | .error _ => .term

/-- `accept_envelope`. -/
def acceptEnvelope (d : Decoders) (bytes : List UInt8) (producer eventType : String)
    (tenantRequired : Bool) : Option EventEnvelope :=
  match d.envelope bytes with
  | none => none
  | some envelope =>
    if envelope.eventType ≠ eventType ∨ envelope.producer ≠ producer ∨
        (tenantRequired = true ∧ envelope.tenantId = none) then none
    else some envelope

/-- Bind the payload of a message.  Every other value a handler binds is part of the payload, and the
payload is bound first. -/
def bindPayload (payload : Jsonb) : Tx Unit :=
  require (.query .invalidText) fun _ => payload.storable

/-- The transaction of `consume_terminal_fact`, with its first bind. -/
def consumeFact (k : Contracts) (now : Time) (messageId : Uuid) (fact : TerminalFact)
    (status : TerminalStatus) : Tx TerminalFactOutcome := do
  bindPayload fact.payload
  consumeTerminalFact k now messageId fact status

/-- `consume_repository_analysis_completed`. -/
def consumeRepositoryAnalysisCompleted (k : Contracts) (now : Time) (messageId : Uuid)
    (completed : RepositoryAnalysisCompleted) : Tx TerminalFactOutcome :=
  consumeFact k now messageId completed.fact (.completed completed.analysisResultRef)

/-- `consume_repository_analysis_failed`. -/
def consumeRepositoryAnalysisFailed (k : Contracts) (now : Time) (messageId : Uuid)
    (failed : RepositoryAnalysisFailed) : Tx TerminalFactOutcome :=
  match failed.failureCode with
  | none => abort .invalidStoredIdentity
  | some code => consumeFact k now messageId failed.fact (.failed code.label failed.retryable)

/-- `record_backup_policy_acknowledgment`, with its first bind. -/
def recordAcknowledged (now : Time) (messageId : Uuid) (ack : PolicyAcknowledged) :
    Tx FeedbackOutcome := do
  bindPayload ack.payload
  recordBackupPolicyAcknowledgment now messageId ack

section handlers

variable (k : Contracts) (d : Decoders) (now : Time) (fate : Fate) (bytes : List UInt8) (c : Catalog)

/-- What `settle_completed` accepts. -/
def acceptedCompleted : Option (Uuid × RepositoryAnalysisCompleted) :=
  match acceptEnvelope d bytes knowledgeProducer "knowledge.repository_analysis.completed.v1" true with
  | none => none
  | some envelope =>
    match d.completed envelope.payload with
    | none => none
    | some completed =>
      if envelope.tenantId ≠ some completed.fact.owner then none
      else some (envelope.eventId, completed)

/-- What `settle_failed` accepts. -/
def acceptedFailed : Option (Uuid × RepositoryAnalysisFailed) :=
  match acceptEnvelope d bytes knowledgeProducer "knowledge.repository_analysis.failed.v1" true with
  | none => none
  | some envelope =>
    match d.failed envelope.payload with
    | none => none
    | some failed =>
      if envelope.tenantId ≠ some failed.fact.owner then none
      else some (envelope.eventId, failed)

/-- What `settle_acknowledged` accepts. -/
def acceptedAcknowledged : Option (Uuid × PolicyAcknowledged) :=
  match acceptEnvelope d bytes vaultProducer "vault.backup_policy.acknowledged.v1" false with
  | none => none
  | some envelope => (d.acknowledged envelope.payload).map fun ack => (envelope.eventId, ack)

/-- `settle_completed`. -/
def settleCompleted : Disposition × Catalog :=
  match acceptedCompleted d bytes with
  | none => (.term, c)
  | some (eventId, completed) =>
    let answer := fate.run (consumeRepositoryAnalysisCompleted k now eventId completed) c
    (dispositionOf answer.1, answer.2)

/-- `settle_failed`. -/
def settleFailed : Disposition × Catalog :=
  match acceptedFailed d bytes with
  | none => (.term, c)
  | some (eventId, failed) =>
    let answer := fate.run (consumeRepositoryAnalysisFailed k now eventId failed) c
    (dispositionOf answer.1, answer.2)

/-- `settle_acknowledged`. -/
def settleAcknowledged : Disposition × Catalog :=
  match acceptedAcknowledged d bytes with
  | none => (.term, c)
  | some (eventId, ack) =>
    let answer := fate.run (recordAcknowledged now eventId ack) c
    (dispositionOf answer.1, answer.2)

end handlers

/-! ### Constraints the messages meet -/

/-- A pending request can be settled either way. -/
theorem settle_check {r : RepositoryAnalysisRequest} (hcheck : r.check = true)
    (hpending : r.status = .pending) (status : TerminalStatus) (now : Time) :
    (status.settle now r).check = true := by
  simp only [RepositoryAnalysisRequest.check, RepositoryAnalysisRequest.terminalCheck, hpending,
    Bool.and_eq_true] at hcheck ⊢
  obtain ⟨hrow, ⟨⟨⟨hsent, -⟩, -⟩, -⟩, -⟩ := hcheck
  cases status with
  | completed ref => exact ⟨hrow, by simp [TerminalStatus.settle, hsent]⟩
  | failed code again => exact ⟨hrow, by simp [TerminalStatus.settle, hsent]⟩

/-- Settling leaves the digest and the repository of a request. -/
theorem settle_columns (now : Time) (status : TerminalStatus) (r : RepositoryAnalysisRequest) :
    (status.settle now r).idempotencyDigestHex = r.idempotencyDigestHex ∧
      (status.settle now r).repositoryId = r.repositoryId := by
  cases status with
  | completed ref => exact ⟨rfl, rfl⟩
  | failed code again => exact ⟨rfl, rfl⟩

section constraints

variable {db : Database} (h : Constraints db)

include h

theorem constraints_claimed {e : InboxEvent} (hcheck : e.check = true)
    (hid : e.messageId ∉ db.inboxEvents.map (·.messageId)) :
    Constraints (db.put .inboxEvents (db.inboxEvents ++ [e])) where
  keys := { h.keys with inbox := h.keys.inbox.append_singleton hid }
  checks := { h.checks with
    inbox := by
      intro f hf
      rcases List.mem_append.mp hf with hold | hnew
      · exact h.checks.inbox f hold
      · exact List.mem_singleton.mp hnew ▸ hcheck }
  foreignKeys := { h.foreignKeys with runs_account := h.foreignKeys.runs_account }

theorem constraints_consumed (messageId : Uuid) (now : Time) :
    Constraints (db.put .inboxEvents (updateWhere (fun e => decide (e.messageId = messageId))
      (fun e => { e with consumedAt := some now }) db.inboxEvents)) where
  keys := { h.keys with
    inbox := by
      show UniqueOn _ (updateWhere _ _ _)
      rw [UniqueOn, map_updateWhere (f := fun e : InboxEvent => { e with consumedAt := some now })
        fun _ => rfl]
      exact h.keys.inbox }
  checks := { h.checks with
    inbox := forall_updateWhere h.checks.inbox fun e he _ => h.checks.inbox e he }
  foreignKeys := { h.foreignKeys with runs_account := h.foreignKeys.runs_account }

theorem constraints_feedback {f : BackupPolicyFeedback} (hcheck : f.check = true)
    (hid : f.messageId ∉ db.backupPolicyFeedback.map (·.messageId)) :
    Constraints (db.put .backupPolicyFeedback (db.backupPolicyFeedback ++ [f])) where
  keys := { h.keys with feedback := h.keys.feedback.append_singleton hid }
  checks := { h.checks with
    feedback := by
      intro g hg
      rcases List.mem_append.mp hg with hold | hnew
      · exact h.checks.feedback g hold
      · exact List.mem_singleton.mp hnew ▸ hcheck }
  foreignKeys := { h.foreignKeys with runs_account := h.foreignKeys.runs_account }

theorem constraints_settled (k : Contracts) (fact : TerminalFact) (status : TerminalStatus)
    (now : Time) :
    Constraints (db.put .repositoryAnalysisRequests (updateWhere (fact.names k)
      (fun r => status.settle now r) db.repositoryAnalysisRequests)) where
  keys := { h.keys with
    requests := by
      show UniqueOn _ (updateWhere _ _ _)
      rw [UniqueOn, map_updateWhere fun r => (settle_keys now status r).1]
      exact h.keys.requests
    requests_deduplication := by
      have hpair : ∀ r : RepositoryAnalysisRequest,
          ((status.settle now r).watchId, (status.settle now r).idempotencyDigestHex) =
            (r.watchId, r.idempotencyDigestHex) := by
        intro r
        rw [(settle_keys now status r).2.1, (settle_columns now status r).1]
      show UniqueOn _ (updateWhere _ _ _)
      rw [UniqueOn, map_updateWhere hpair]
      exact h.keys.requests_deduplication
    requests_outbox := by
      have hsent : ∀ r : RepositoryAnalysisRequest,
          (status.settle now r).outboxMessageId.isSome = r.outboxMessageId.isSome := by
        intro r
        rw [(settle_outbox now status r).1]
      show UniqueOn _ ((updateWhere _ _ _).filter _)
      rw [filter_updateWhere hsent, UniqueOn,
        map_updateWhere fun r => (settle_outbox now status r).1]
      exact h.keys.requests_outbox }
  checks := { h.checks with
    requests := by
      refine forall_updateWhere h.checks.requests fun r hr hnames => ?_
      exact settle_check (h.checks.requests r hr) (names_iff.mp hnames).2.2.2.2.2 status now }
  foreignKeys := { h.foreignKeys with
    requests_watch := by
      refine forall_updateWhere h.foreignKeys.requests_watch fun r hr _ => ?_
      show ∀ key ∈ some (status.settle now r).watchId, _
      rw [(settle_keys now status r).2.1]
      exact h.foreignKeys.requests_watch r hr
    requests_repository := by
      refine forall_updateWhere h.foreignKeys.requests_repository fun r hr _ => ?_
      show ∀ key ∈ some (status.settle now r).repositoryId, _
      rw [(settle_columns now status r).2]
      exact h.foreignKeys.requests_repository r hr
    links_request := by
      intro l hl key hkey
      show key ∈ (updateWhere _ _ _).map _
      rw [map_updateWhere fun r => (settle_keys now status r).1]
      exact h.foreignKeys.links_request l hl key hkey }

/-- The link of a request that has none yet. -/
theorem constraints_linked {fact : TerminalFact} {r : RepositoryAnalysisRequest} (now : Time)
    (ref : String) (hr : r ∈ db.repositoryAnalysisRequests) (hid : r.requestId = fact.requestId)
    (howner : r.ownerRef = fact.owner) (hrepository : r.repositoryId = fact.repositoryId)
    (hfresh : fact.requestId ∉ db.repositoryAnalysisLinks.map (·.requestId)) :
    Constraints (db.put .repositoryAnalysisLinks
      (linksAfter now fact db.repositoryAnalysisLinks (.completed ref))) := by
  have hrow : linksAfter now fact db.repositoryAnalysisLinks (.completed ref) =
      upsertWhere (fun l => decide ((l.ownerRef, l.repositoryId) =
          ((linkRow now fact ref).ownerRef, (linkRow now fact ref).repositoryId)))
        (fun _ => linkRow now fact ref) (linkRow now fact ref) db.repositoryAnalysisLinks := by
    simp only [linksAfter, linkRow, Prod.mk.injEq, Bool.decide_and]
  have hunique := h.keys.links.upsert_row h.keys.links_request
    (show (linkRow now fact ref).requestId ∉ _ from hfresh)
  rw [hrow]
  exact
    { keys := { h.keys with links := hunique.1, links_request := hunique.2 }
      checks := { h.checks with
        links := by
          have huser : (linkRow now fact ref).check = true := by
            have hcheck := h.checks.requests r hr
            simp only [RepositoryAnalysisRequest.check, Bool.and_eq_true] at hcheck
            rw [howner] at hcheck
            exact hcheck.1.1.1.1.1.1.1
          exact forall_upsertWhere h.checks.links (fun _ _ _ => huser) huser }
      foreignKeys := { h.foreignKeys with
        links_repository := by
          have hnew : ∀ key ∈ some (linkRow now fact ref).repositoryId,
              key ∈ db.repositories.map (·.repositoryId) := by
            show ∀ key ∈ some fact.repositoryId, _
            rw [← hrepository]
            exact h.foreignKeys.requests_repository r hr
          exact forall_upsertWhere h.foreignKeys.links_repository (fun _ _ _ => hnew) hnew
        links_request := by
          have hnew : ∀ key ∈ some (linkRow now fact ref).requestId,
              key ∈ db.repositoryAnalysisRequests.map (·.requestId) := by
            rintro key ⟨⟩
            exact List.mem_map.mpr ⟨r, hr, hid⟩
          exact forall_upsertWhere h.foreignKeys.links_request (fun _ _ _ => hnew) hnew } }

end constraints

/-! ### Links of every reachable catalog -/

/-- An erasure keeps the links with their requests. -/
theorem linksStand_erased {c : Catalog} (c' : Catalog) (h : LinksStand c.tables)
    (hrequests : c'.tables.repositoryAnalysisRequests ⊆ c.tables.repositoryAnalysisRequests)
    (hlinks : c'.tables.repositoryAnalysisLinks ⊆ c.tables.repositoryAnalysisLinks) :
    LinksStand c'.tables := by
  intro l hl
  obtain ⟨r, hr, hlinked⟩ := h l (hlinks hl)
  have hkey := c'.valid.foreignKeys.links_request l hl l.requestId rfl
  obtain ⟨q, hq, hid⟩ := List.mem_map.mp hkey
  have hsame := c.valid.keys.requests.eq_of_mem (hrequests hq) hr (hid.trans hlinked.1.symm)
  exact ⟨r, hsame ▸ hq, hlinked⟩

theorem Operation.commit_linksStand (k : Contracts) (c : Catalog) (op : Operation)
    (h : LinksStand c.tables) : LinksStand (op.commit k c).tables := by
  by_cases herases : op.erases = true
  · cases op with
    | eraseAccount now owner operation =>
      show LinksStand ((eraseAccountInTx now owner operation).commit c).tables
      rcases Tx.commit_cases (eraseAccountInTx now owner operation) c with ⟨⟨⟩, hok⟩ | hsame
      · obtain ⟨c₁, h₁, hrecord⟩ := eraseAccountInTx_eq_ok hok
        have hrequests := hrecord .repositoryAnalysisRequests (by decide)
        have hlinks := hrecord .repositoryAnalysisLinks (by decide)
        refine linksStand_erased _ h ?_ ?_
        · show Database.rows _ .repositoryAnalysisRequests ⊆ _
          rw [hrequests, eraseOwnerState_eq h₁]
          exact (deleteWhere_sublist _ _).subset
        · show Database.rows _ .repositoryAnalysisLinks ⊆ _
          rw [hlinks, eraseOwnerState_eq h₁]
          exact (deleteWhere_sublist _ _).subset
      · rw [hsame]
        exact h
    | _ => exact absurd herases (by simp [Operation.erases])
  · exact (op.commit_analysisStep k c (Bool.eq_false_iff.mpr herases)).linksStand h

theorem Reachable.linksStand {k : Contracts} {c : Catalog} (hc : Reachable k c) :
    LinksStand c.tables :=
  hc.induct (fun _ hl => nomatch hl) fun c op h _ => op.commit_linksStand k c h

/-! ### What the database refuses -/

/-- The transaction ends in no error of the database. -/
def Accepts {α : Type} (x : Tx α) (c : Catalog) : Prop := ∀ fault, x c ≠ .error (.query fault)

section serves

variable {α β : Type} {c : Catalog}

theorem Accepts.bind {x : Tx α} {f : α → Tx β} (hx : Accepts x c)
    (hf : ∀ a c', x c = .ok (a, c') → Accepts (f a) c') : Accepts (x >>= f) c :=
  fun fault => Tx.bind_ne_error (hx fault) fun a c' h => hf a c' h fault

theorem accepts_of_ok {x : Tx α} {a : α} {c' : Catalog} (h : x c = .ok (a, c')) : Accepts x c := by
  intro fault heq
  rw [h] at heq
  cases heq

/-- After a step that succeeds, the rest decides. -/
theorem accepts_bind_of_ok {x : Tx α} {f : α → Tx β} {a : α} {c' : Catalog} (h : x c = .ok (a, c')) :
    Accepts (x >>= f) c ↔ Accepts (f a) c' := by
  unfold Accepts
  rw [Tx.bind_of_ok h]

/-- A refusal of the handler's own is no error of the database. -/
theorem accepts_bind_of_refusal {x : Tx α} {f : α → Tx β} {e : CatalogError} (h : x c = .error e)
    (he : ∀ fault, e ≠ .query fault) : Accepts (x >>= f) c := by
  intro fault heq
  rw [Tx.bind_of_error h] at heq
  exact he fault (Except.error.inj heq)

theorem accepts_attempt_ok {f : Database → Except CatalogError α} {g : α → Tx β} {a : α}
    (h : f c.tables = .ok a) : Accepts (attempt f >>= g) c ↔ Accepts (g a) c :=
  accepts_bind_of_ok (attempt_eq_ok.mpr ⟨h, rfl⟩)

theorem accepts_attempt_refused {f : Database → Except CatalogError α} {g : α → Tx β}
    {e : CatalogError} (h : f c.tables = .error e) (he : ∀ fault, e ≠ .query fault) :
    Accepts (attempt f >>= g) c := by
  refine accepts_bind_of_refusal (e := e) ?_ he
  simp only [attempt, Tx.queryOrFail, h]

theorem accepts_require {e : CatalogError} (he : ∀ fault, e ≠ .query fault) (p : Database → Bool) :
    Accepts (require e p) c := by
  intro fault
  exact require_ne_error (he fault).symm c

theorem accepts_abort {e : CatalogError} (he : ∀ fault, e ≠ .query fault) :
    Accepts (abort e : Tx α) c := by
  rintro fault ⟨⟩
  exact he fault rfl

theorem accepts_select (f : Database → α) : Accepts (select f) c :=
  accepts_of_ok (select_eq_ok.mpr ⟨rfl, rfl⟩)

theorem accepts_pure (a : α) : Accepts (pure a : Tx α) c := accepts_of_ok (Tx.pure_eq_ok.mpr ⟨rfl, rfl⟩)

theorem accepts_write {t : Table} {f : Database → t.Rows}
    (h : Constraints (c.tables.put t (f c.tables))) : Accepts (write t f) c :=
  accepts_of_ok (write_of_valid h)

/-- A statement that would break a constraint is refused. -/
theorem write_of_invalid {t : Table} {f : Database → t.Rows}
    (h : ¬ Constraints (c.tables.put t (f c.tables))) :
    write t f c = .error (.query .constraint) := by
  rw [write, Tx.exec, dif_neg h]

/-- A transaction serves exactly when its handler does not ask for the message again. -/
theorem dispositionOf_ne_nak {x : Tx α} :
    dispositionOf (Fate.run .served x c).1 ≠ .nak ↔ Accepts x c := by
  unfold Accepts Fate.run
  cases hx : x c with
  | ok p => simp [dispositionOf]
  | error e => cases e <;> simp [dispositionOf]

end serves

/-- The first bind decides: a payload that cannot be stored is refused whatever follows. -/
theorem accepts_bindPayload {α : Type} {payload : Jsonb} {x : Tx α} {c : Catalog} :
    Accepts (bindPayload payload >>= fun _ => x) c ↔ payload.storable = true ∧ Accepts x c := by
  by_cases hstorable : payload.storable = true
  · have hbind : bindPayload payload c = .ok ((), c) := require_eq_ok.mpr ⟨hstorable, rfl⟩
    rw [accepts_bind_of_ok hbind]
    exact ⟨fun h => ⟨hstorable, h⟩, fun h => h.2⟩
  · have hbind : bindPayload payload c = .error (.query .invalidText) := by
      simp [bindPayload, require, Tx.queryOrFail, hstorable]
    rw [Accepts, Tx.bind_of_error hbind]
    exact ⟨fun h => absurd rfl (h .invalidText), fun h => absurd h.1 hstorable⟩

/-- The link of a fact that names a pending request. -/
theorem accepts_linkResult {now : Time} {fact : TerminalFact} {status : TerminalStatus}
    {c : Catalog} {r : RepositoryAnalysisRequest} (hr : r ∈ c.tables.repositoryAnalysisRequests)
    (hid : r.requestId = fact.requestId) (howner : r.ownerRef = fact.owner)
    (hrepository : r.repositoryId = fact.repositoryId)
    (hfresh : fact.requestId ∉ c.tables.repositoryAnalysisLinks.map (·.requestId)) :
    Accepts (linkResult now fact status) c := by
  cases status with
  | completed ref => exact accepts_write (constraints_linked c.valid now ref hr hid howner hrepository hfresh)
  | failed code again => exact accepts_pure ()

section transactions

variable {k : Contracts} {now : Time} {messageId : Uuid} {c : Catalog}

/-- A message id that no row of the inbox has. -/
theorem unseen_of_any {seen : Bool}
    (hseen : (c.tables.inboxEvents.any fun e => decide (e.messageId = messageId)) = seen)
    (hfresh : ¬ seen = true) : messageId ∉ c.tables.inboxEvents.map (·.messageId) := by
  intro hmem
  obtain ⟨e, he, hid⟩ := List.mem_map.mp hmem
  rw [← hseen] at hfresh
  exact hfresh (List.any_eq_true.mpr ⟨e, he, decide_eq_true hid⟩)

/-- **No terminal fact is refused by the database**, once its payload is stored. -/
theorem consumeTerminalFact_serves (k : Contracts) (now : Time) (messageId : Uuid)
    {fact : TerminalFact} (status : TerminalStatus)
    (hlinks : LinksStand c.tables) (hpayload : fact.payload.isObject = true) :
    Accepts (consumeTerminalFact k now messageId fact status) c := by
  refine (accepts_select _).bind fun seen _ h₀ => ?_
  obtain ⟨hseen, rfl⟩ := select_eq_ok.mp h₀
  split
  · exact accepts_pure _
  · next hfresh =>
    have hclaim := constraints_claimed c.valid (e := ⟨messageId, status.subject, fact.payload, none⟩)
      hpayload (unseen_of_any hseen hfresh)
    refine (accepts_write hclaim).bind fun _ c₁ h₁ => ?_
    refine (accepts_require (by simp) _).bind fun _ _ h₂ => ?_
    obtain ⟨-, rfl⟩ := require_eq_ok.mp h₂
    refine (accepts_select _).bind fun changed _ h₃ => ?_
    obtain ⟨hchanged, rfl⟩ := select_eq_ok.mp h₃
    refine (accepts_write (constraints_settled c₁.valid k fact status now)).bind fun _ c₂ h₄ => ?_
    refine Accepts.bind ?_ fun _ c₃ _ =>
      (accepts_write (constraints_consumed c₃.valid messageId now)).bind fun _ _ _ => accepts_pure _
    unfold onlyIf
    split
    · next hone =>
      have hrows : c₁.tables.repositoryAnalysisRequests = c.tables.repositoryAnalysisRequests := by
        rw [write_eq_ok.mp h₁]
        rfl
      have hkept : c₂.tables.repositoryAnalysisLinks = c.tables.repositoryAnalysisLinks := by
        rw [write_eq_ok.mp h₄, write_eq_ok.mp h₁]
        rfl
      have hpos : 0 < (c₁.tables.repositoryAnalysisRequests.filter (fact.names k)).length := by
        rw [hchanged, of_decide_eq_true hone]
        exact Nat.one_pos
      obtain ⟨r, hr⟩ := List.exists_mem_of_length_pos hpos
      obtain ⟨hr, hnames⟩ := List.mem_filter.mp hr
      obtain ⟨hid, howner, hrepository, -, -, hpending⟩ := names_iff.mp hnames
      have hsettled : status.settle now r ∈ c₂.tables.repositoryAnalysisRequests := by
        rw [write_eq_ok.mp h₄]
        exact mem_updateWhere.mpr ⟨r, hr, if_pos hnames⟩
      obtain ⟨hkey, -, hkeyOwner⟩ := settle_keys now status r
      refine accepts_linkResult hsettled (hkey.trans hid) (hkeyOwner.trans howner)
        ((settle_columns now status r).2.trans hrepository) ?_
      -- A link with its id would stand for a completed request.
      intro hlinked
      rw [hkept] at hlinked
      obtain ⟨l, hl, hlid⟩ := List.mem_map.mp hlinked
      obtain ⟨q, hq, hqid, hcompleted, -⟩ := hlinks l hl
      rw [hrows] at hr
      have hsame := c.valid.keys.requests.eq_of_mem hq hr (hqid.trans (hlid.trans hid.symm))
      rw [hsame, hpending] at hcompleted
      cases hcompleted
    · exact accepts_pure ()

/-- An acknowledgment the database takes: it was seen, the handler refuses it itself, or its version is
not zero and its id has no feedback yet. -/
def AcknowledgmentFits (messageId : Uuid) (ack : PolicyAcknowledged) (db : Database) : Prop :=
  messageId ∈ db.inboxEvents.map (·.messageId) ∨ ack.outcome = none ∨
    2 ^ 63 ≤ ack.acknowledgedPolicyVersion ∨ 2 ^ 63 ≤ ack.lastAppliedPolicyVersion ∨
    (ack.acknowledgedPolicyVersion ≠ 0 ∧ messageId ∉ db.backupPolicyFeedback.map (·.messageId))

/-- The feedback row is what the database looks at. -/
theorem accepts_feedback {ack : PolicyAcknowledged} {outcome : PolicyOutcome}
    (hreasons : ack.reasons.isArray = true) :
    Accepts (write .backupPolicyFeedback (fun db => db.backupPolicyFeedback ++
        [⟨messageId, ack.acknowledgedPolicyVersion, outcome, ack.lastAppliedPolicyVersion, ack.reasons,
          now⟩]) >>= fun _ => do
      write .inboxEvents fun db =>
        updateWhere (fun e => decide (e.messageId = messageId))
          (fun e => { e with consumedAt := some now }) db.inboxEvents
      pure FeedbackOutcome.recorded) c ↔
      ack.acknowledgedPolicyVersion ≠ 0 ∧
        messageId ∉ c.tables.backupPolicyFeedback.map (·.messageId) := by
  constructor
  · intro hserves
    by_contra hnot
    refine hserves .constraint (Tx.bind_of_error (write_of_invalid fun hvalid => hnot ?_))
    have hcheck := hvalid.checks.feedback _ (List.mem_append_right _ (List.mem_singleton.mpr rfl))
    simp only [BackupPolicyFeedback.check, Bool.and_eq_true, decide_eq_true_eq] at hcheck
    refine ⟨?_, hvalid.keys.feedback.not_mem_of_append⟩
    have hpos := hcheck.1.1
    omega
  · rintro ⟨hversion, hid⟩
    have hcheck : BackupPolicyFeedback.check ⟨messageId, ack.acknowledgedPolicyVersion, outcome,
        ack.lastAppliedPolicyVersion, ack.reasons, now⟩ = true := by
      simp only [BackupPolicyFeedback.check, hreasons, Bool.and_true, Bool.and_eq_true,
        decide_eq_true_eq]
      omega
    exact (accepts_write (constraints_feedback c.valid hcheck hid)).bind fun _ c₁ _ =>
      (accepts_write (constraints_consumed c₁.valid messageId now)).bind fun _ _ _ => accepts_pure _

/-- **Which acknowledgments the database takes**, once their payload is stored. -/
theorem acknowledgment_serves {ack : PolicyAcknowledged} (hpayload : ack.payload.isObject = true)
    (hreasons : ack.reasons.isArray = true) :
    Accepts (recordBackupPolicyAcknowledgment now messageId ack) c ↔
      AcknowledgmentFits messageId ack c.tables := by
  unfold recordBackupPolicyAcknowledgment
  rw [accepts_bind_of_ok (select_eq_ok.mpr ⟨rfl, rfl⟩)]
  by_cases hseen : (c.tables.inboxEvents.any fun e => decide (e.messageId = messageId)) = true
  · rw [if_pos hseen]
    obtain ⟨e, he, hid⟩ := List.any_eq_true.mp hseen
    exact iff_of_true (accepts_pure _) (.inl (List.mem_map.mpr ⟨e, he, of_decide_eq_true hid⟩))
  · have hunseen := unseen_of_any rfl hseen
    have hclaim := constraints_claimed c.valid (e := ⟨messageId, .policyAcknowledged, ack.payload, none⟩)
      hpayload hunseen
    rw [if_neg hseen, accepts_bind_of_ok (write_of_valid hclaim)]
    unfold AcknowledgmentFits
    cases houtcome : ack.outcome with
    | none =>
      exact iff_of_true (accepts_attempt_refused (e := .invalid "outcome") (by rfl) (by simp))
        (.inr (.inl rfl))
    | some outcome =>
      refine (accepts_attempt_ok (a := outcome) (by rfl)).trans ?_
      by_cases hversion : ack.acknowledgedPolicyVersion < 2 ^ 63
      · refine (accepts_attempt_ok (a := (ack.acknowledgedPolicyVersion : ℤ))
          (by exact if_pos hversion)).trans ?_
        by_cases hlast : ack.lastAppliedPolicyVersion < 2 ^ 63
        · refine (accepts_attempt_ok (a := (ack.lastAppliedPolicyVersion : ℤ))
            (by exact if_pos hlast)).trans ?_
          rw [accepts_feedback hreasons]
          show _ ∧ messageId ∉ c.tables.backupPolicyFeedback.map (·.messageId) ↔ _
          simp only [hunseen, reduceCtorEq, Nat.not_le.mpr hversion, Nat.not_le.mpr hlast, false_or]
        · exact iff_of_true (accepts_attempt_refused (e := .invalid "last_applied_policy_version")
            (by exact if_neg hlast) (by simp)) (.inr (.inr (.inr (.inl (Nat.le_of_not_lt hlast)))))
      · exact iff_of_true (accepts_attempt_refused (e := .invalid "acknowledged_policy_version")
          (by exact if_neg hversion) (by simp)) (.inr (.inr (.inl (Nat.le_of_not_lt hversion))))

end transactions

/-! ### The three durables -/

section settled

variable {d : Decoders} {bytes : List UInt8}

theorem acceptedCompleted_decodes {m : Uuid × RepositoryAnalysisCompleted}
    (h : acceptedCompleted d bytes = some m) : ∃ payload, d.completed payload = some m.2 := by
  unfold acceptedCompleted at h
  cases henvelope : acceptEnvelope d bytes knowledgeProducer
      "knowledge.repository_analysis.completed.v1" true with
  | none => simp [henvelope] at h
  | some envelope =>
    cases hcompleted : d.completed envelope.payload with
    | none => simp [henvelope, hcompleted] at h
    | some completed =>
      simp only [henvelope, hcompleted] at h
      split at h
      · exact nomatch h
      · exact ⟨envelope.payload, by rw [hcompleted, ← Option.some.inj h]⟩

theorem acceptedFailed_decodes {m : Uuid × RepositoryAnalysisFailed}
    (h : acceptedFailed d bytes = some m) : ∃ payload, d.failed payload = some m.2 := by
  unfold acceptedFailed at h
  cases henvelope : acceptEnvelope d bytes knowledgeProducer
      "knowledge.repository_analysis.failed.v1" true with
  | none => simp [henvelope] at h
  | some envelope =>
    cases hfailed : d.failed envelope.payload with
    | none => simp [henvelope, hfailed] at h
    | some failed =>
      simp only [henvelope, hfailed] at h
      split at h
      · exact nomatch h
      · exact ⟨envelope.payload, by rw [hfailed, ← Option.some.inj h]⟩

theorem acceptedAcknowledged_decodes {m : Uuid × PolicyAcknowledged}
    (h : acceptedAcknowledged d bytes = some m) : ∃ payload, d.acknowledged payload = some m.2 := by
  unfold acceptedAcknowledged at h
  cases henvelope : acceptEnvelope d bytes vaultProducer "vault.backup_policy.acknowledged.v1"
      false with
  | none => simp [henvelope] at h
  | some envelope =>
    simp only [henvelope] at h
    obtain ⟨ack, hack, rfl⟩ := Option.map_eq_some_iff.mp h
    exact ⟨envelope.payload, hack⟩

variable (k : Contracts) (now : Time) {c : Catalog}

theorem settleCompleted_iff (hd : d.Documented) (hlinks : LinksStand c.tables) :
    (settleCompleted k d now .served bytes c).1 ≠ .nak ↔
      ∀ m, acceptedCompleted d bytes = some m → m.2.fact.payload.storable = true := by
  unfold settleCompleted
  cases haccepted : acceptedCompleted d bytes with
  | none => simp
  | some m =>
    obtain ⟨payload, hdecoded⟩ := acceptedCompleted_decodes haccepted
    have hserves := consumeTerminalFact_serves k now m.1 (.completed m.2.analysisResultRef) hlinks
      (hd.completed_isObject payload m.2 hdecoded)
    simp only [dispositionOf_ne_nak, consumeRepositoryAnalysisCompleted, consumeFact,
      accepts_bindPayload, hserves, and_true, Option.some.injEq, forall_eq']

theorem settleFailed_iff (hd : d.Documented) (hlinks : LinksStand c.tables) :
    (settleFailed k d now .served bytes c).1 ≠ .nak ↔
      ∀ m, acceptedFailed d bytes = some m →
        m.2.failureCode = none ∨ m.2.fact.payload.storable = true := by
  unfold settleFailed
  cases haccepted : acceptedFailed d bytes with
  | none => simp
  | some m =>
    obtain ⟨payload, hdecoded⟩ := acceptedFailed_decodes haccepted
    simp only [dispositionOf_ne_nak, consumeRepositoryAnalysisFailed, Option.some.injEq, forall_eq']
    cases hcode : m.2.failureCode with
    | none => exact iff_of_true (accepts_abort (by simp)) (.inl rfl)
    | some code =>
      have hserves := consumeTerminalFact_serves k now m.1 (.failed code.label m.2.retryable) hlinks
        (hd.failed_isObject payload m.2 hdecoded)
      simp only [consumeFact, accepts_bindPayload, hserves, and_true, reduceCtorEq, false_or]

theorem settleAcknowledged_iff (hd : d.Documented) :
    (settleAcknowledged d now .served bytes c).1 ≠ .nak ↔
      ∀ m, acceptedAcknowledged d bytes = some m →
        m.2.payload.storable = true ∧ AcknowledgmentFits m.1 m.2 c.tables := by
  unfold settleAcknowledged
  cases haccepted : acceptedAcknowledged d bytes with
  | none => simp
  | some m =>
    obtain ⟨payload, hdecoded⟩ := acceptedAcknowledged_decodes haccepted
    simp only [dispositionOf_ne_nak, recordAcknowledged, accepts_bindPayload, Option.some.injEq,
      forall_eq', acknowledgment_serves (hd.acknowledged_isObject payload m.2 hdecoded)
        (hd.reasons_isArray payload m.2 hdecoded)]

end settled

/-- **Which messages the database never refuses.**  In every reachable catalog, with the database at
hand, a message is not asked for again exactly when its payload can be stored and, for a policy
acknowledgment, its feedback row can. -/
theorem settled_iff (k : Contracts) (d : Decoders) (hd : d.Documented) (c : Catalog)
    (hc : Reachable k c) (now : Time) (bytes : List UInt8) :
    ((settleCompleted k d now .served bytes c).1 ≠ .nak ↔
      ∀ m, acceptedCompleted d bytes = some m → m.2.fact.payload.storable = true) ∧
    ((settleFailed k d now .served bytes c).1 ≠ .nak ↔
      ∀ m, acceptedFailed d bytes = some m →
        m.2.failureCode = none ∨ m.2.fact.payload.storable = true) ∧
    ((settleAcknowledged d now .served bytes c).1 ≠ .nak ↔
      ∀ m, acceptedAcknowledged d bytes = some m →
        m.2.payload.storable = true ∧ AcknowledgmentFits m.1 m.2 c.tables) :=
  ⟨settleCompleted_iff k now hd hc.linksStand, settleFailed_iff k now hd hc.linksStand,
    settleAcknowledged_iff now hd⟩

/-! ### An acknowledgment of version zero -/

def zeroVersionPayload : Jsonb :=
  .obj [("acknowledged_policy_version", .num "0"), ("outcome", .str "accepted"), ("reasons", .arr []),
    ("last_applied_policy_version", .num "0")]

def zeroVersionBytes : List UInt8 :=
  ("\x7b\"event_id\":\"00000000-0000-0000-0000-000000000007\"," ++
    "\"event_type\":\"vault.backup_policy.acknowledged.v1\"," ++
    "\"occurred_at\":\"2026-08-27T00:00:00Z\",\"producer\":\"ratatoskr-vault\"," ++
    "\"aggregate_id\":\"repository:00000000-0000-0000-0000-000000000001\"," ++
    "\"correlation_id\":\"event:00000000-0000-0000-0000-000000000007\",\"schema_version\":1," ++
    "\"payload\":\x7b\"acknowledged_policy_version\":0,\"outcome\":\"accepted\"," ++
    "\"reasons\":[],\"last_applied_policy_version\":0\x7d\x7d").toUTF8.data.toList

/-- Decoders that know this one message. -/
def sampleDecoders : Decoders where
  envelope := fun bytes =>
    if bytes = zeroVersionBytes then
      some ⟨7, "vault.backup_policy.acknowledged.v1", "ratatoskr-vault", none, zeroVersionPayload⟩
    else none
  completed := fun _ => none
  failed := fun _ => none
  acknowledged := fun payload =>
    if payload = zeroVersionPayload then some ⟨0, some .accepted, 0, .arr [], zeroVersionPayload⟩
    else none

theorem sampleDecoders_documented : sampleDecoders.Documented where
  completed_isObject := by
    rintro payload m ⟨⟩
  failed_isObject := by
    rintro payload m ⟨⟩
  acknowledged_isObject := by
    intro payload ack h
    obtain ⟨-, ⟨⟩⟩ := Option.ite_none_right_eq_some.mp h
    rfl
  reasons_isArray := by
    intro payload ack h
    obtain ⟨-, ⟨⟩⟩ := Option.ite_none_right_eq_some.mp h
    rfl

theorem settled_iff_zeroVersion :
    ((settleCompleted sampleContracts sampleDecoders 0 .served zeroVersionBytes emptyCatalog).1 ≠ .nak ↔
      ∀ m, acceptedCompleted sampleDecoders zeroVersionBytes = some m →
        m.2.fact.payload.storable = true) ∧
    ((settleFailed sampleContracts sampleDecoders 0 .served zeroVersionBytes emptyCatalog).1 ≠ .nak ↔
      ∀ m, acceptedFailed sampleDecoders zeroVersionBytes = some m →
        m.2.failureCode = none ∨ m.2.fact.payload.storable = true) ∧
    ((settleAcknowledged sampleDecoders 0 .served zeroVersionBytes emptyCatalog).1 ≠ .nak ↔
      ∀ m, acceptedAcknowledged sampleDecoders zeroVersionBytes = some m →
        m.2.payload.storable = true ∧ AcknowledgmentFits m.1 m.2 emptyCatalog.tables) :=
  settled_iff sampleContracts sampleDecoders sampleDecoders_documented emptyCatalog ⟨[], rfl⟩ 0
    zeroVersionBytes

/-- The message is accepted, refused by the check on its version, and met again unchanged by the next
delivery. -/
theorem zeroVersion_redelivered :
    (acceptedAcknowledged sampleDecoders zeroVersionBytes).isSome = true ∧
      (settleAcknowledged sampleDecoders 0 .served zeroVersionBytes emptyCatalog).1 = .nak ∧
      (settleAcknowledged sampleDecoders 0 .served zeroVersionBytes emptyCatalog).2.tables =
        emptyCatalog.tables := by
  decide +kernel

end GithubCatalog
