import GithubCatalog.Identity

/-!
# The mutation audit trail (`mutation_trail.rs`)

Every attempt leaves an audit row; only a successful outcome claims its idempotency key.  Losing the
key to a racing duplicate rolls the whole transaction back, which is the error `keyTaken` here: the
caller then reports the recorded success.
-/

namespace GithubCatalog

open Relational Transact

/-- The authorization context of a mutation. -/
structure MutationContext where
  accountId : Uuid
  principal : String
  source : MutationSource
deriving DecidableEq

inductive RefusalReason where
  | accountNotConnected | missingScope | autoNotDirectlyRequestable | repositoryCurrentlyStarred
  | repositoryIgnored
deriving DecidableEq

/-- The audit detail label of a refusal. -/
def RefusalReason.label : RefusalReason → String
  | .accountNotConnected => "account_not_connected"
  | .missingScope => "missing_scope"
  | .autoNotDirectlyRequestable => "auto_not_directly_requestable"
  | .repositoryCurrentlyStarred => "repository_currently_starred"
  | .repositoryIgnored => "repository_ignored"

inductive MutationStatus where
  | applied
  | alreadyApplied
  | rejected (reason : RefusalReason)
  | failed (reason : String)
deriving DecidableEq

/-- A success. -/
def MutationStatus.success : MutationStatus → Bool
  | .applied | .alreadyApplied => true
  | _ => false

/-- `successful_outcome_exists`. -/
def successfulOutcomeExists (idempotencyKey : String) (db : Database) : Bool :=
  db.mutationAudit.any fun a => decide (a.idempotencyKey = idempotencyKey) && a.succeeded

/-- The audit row of an attempt. -/
def auditRow (auditId : Uuid) (context : MutationContext) (repositoryId : Uuid)
    (kind : OperationKind) (idempotencyKey : String) (outcome : AuditOutcome) (detail : Jsonb) :
    MutationAudit :=
  ⟨auditId, idempotencyKey, context.accountId, repositoryId, none, kind, context.principal,
    context.source, outcome, detail⟩

/-- Whether an audit row meets a unique index: its own id, or a key already claimed. -/
def MutationAudit.conflicts (new old : MutationAudit) : Bool :=
  decide (old.auditId = new.auditId) ||
    (new.succeeded && old.succeeded && decide (old.idempotencyKey = new.idempotencyKey))

/-- `insert_audit_row`: whether the row was inserted. -/
def insertAuditRow (row : MutationAudit) : Tx Bool := do
  let taken ← select fun db => db.mutationAudit.any row.conflicts
  write .mutationAudit fun db => insertUnless row.conflicts row db.mutationAudit
  pure !taken

/-- The audit detail of a failure or a refusal. -/
def reasonDetail (reason : String) : Jsonb := .obj [("reason", .str reason)]

/-- `record_attempt` and `failed_outcome`: one attempt in its own transaction, with its repository
catalogued first. -/
def recordAttempt (ids : ℕ → Uuid) (context : MutationContext) (providerRepositoryId : ℤ)
    (kind : OperationKind) (idempotencyKey : String) (outcome : AuditOutcome) (detail : Jsonb) :
    Tx Unit := do
  let repositoryId ← upsertRepositoryInTx (ids 0) providerRepositoryId
  let _won ← insertAuditRow
    (auditRow (ids 1) context repositoryId kind idempotencyKey outcome detail)

/-- `finish_with_replay_guard`: a lost key rolls back. -/
def finishWithReplayGuard (inserted newlyApplied : Bool) : Tx MutationStatus :=
  if inserted then pure (if newlyApplied then .applied else .alreadyApplied) else abort .keyTaken

/-! ### What an audited ending does -/

theorem insertAuditRow_eq_ok {row : MutationAudit} {c c' : Catalog} {inserted : Bool}
    (h : insertAuditRow row c = .ok (inserted, c')) :
    inserted = (!c.tables.mutationAudit.any row.conflicts) ∧
      c'.tables.mutationAudit = insertUnless row.conflicts row c.tables.mutationAudit := by
  simp only [insertAuditRow, Tx.bind_eq_ok, select_eq_ok, write_eq_ok, Tx.pure_eq_ok] at h
  obtain ⟨_, _, ⟨rfl, rfl⟩, -, c₂, h₂, rfl, rfl⟩ := h
  exact ⟨rfl, by rw [h₂]; rfl⟩

theorem finishWithReplayGuard_eq_ok {inserted newlyApplied : Bool} {c c' : Catalog}
    {status : MutationStatus}
    (h : finishWithReplayGuard inserted newlyApplied c = .ok (status, c')) :
    inserted = true ∧ status = (if newlyApplied then .applied else .alreadyApplied) ∧ c = c' := by
  unfold finishWithReplayGuard at h
  cases inserted with
  | false => exact (abort_eq_ok.mp h).elim
  | true =>
    obtain ⟨hstatus, hc⟩ := Tx.pure_eq_ok.mp h
    exact ⟨rfl, hstatus.symm, hc⟩

/-- An audit row is refused by the database or not at all. -/
theorem insertAuditRow_ne_error (row : MutationAudit) {e : CatalogError}
    (he : ∀ fault, e ≠ .query fault) (c : Catalog) : insertAuditRow row c ≠ .error e :=
  Tx.bind_ne_error (Tx.ne_error_of_succeeds rfl) fun _ c₁ _ =>
    Tx.bind_ne_error (write_ne_error (he _) c₁) fun _ _ _ => Tx.ne_error_of_succeeds rfl

/-- The audit of an unsuccessful attempt claims no key. -/
theorem successfulOutcomeExists_insertAuditRow {row : MutationAudit} {c c' : Catalog}
    {inserted : Bool} (h : insertAuditRow row c = .ok (inserted, c')) (hrow : row.succeeded = false)
    (key : String) :
    successfulOutcomeExists key c'.tables = successfulOutcomeExists key c.tables := by
  rw [successfulOutcomeExists, (insertAuditRow_eq_ok h).2, insertUnless]
  split
  · rfl
  · rw [List.any_append, List.any_cons, hrow, Bool.and_false, List.any_nil, Bool.or_false,
      Bool.or_false]
    rfl

/-- The audit of an unsuccessful attempt leaves the successes alone. -/
theorem successes_insertAuditRow {row : MutationAudit} {c c' : Catalog} {inserted : Bool}
    (h : insertAuditRow row c = .ok (inserted, c')) (hrow : row.succeeded = false) :
    c'.tables.mutationAudit.filter (·.succeeded) = c.tables.mutationAudit.filter (·.succeeded) := by
  rw [(insertAuditRow_eq_ok h).2, insertUnless]
  split
  · rfl
  · rw [List.filter_append, List.filter_cons_of_neg (by rw [hrow]; exact Bool.false_ne_true),
      List.filter_nil, List.append_nil]

/-- A call that keeps its key ends with its audit row, and with a success. -/
theorem audited_eq_ok {row : MutationAudit} {newlyApplied : Bool} {c c' : Catalog}
    {status : MutationStatus}
    (h : (do
      let inserted ← insertAuditRow row
      finishWithReplayGuard inserted newlyApplied) c = .ok (status, c')) :
    c'.tables.mutationAudit = c.tables.mutationAudit ++ [row] ∧
      (c.tables.mutationAudit.any row.conflicts) = false ∧
      (status = .applied ∨ status = .alreadyApplied) := by
  obtain ⟨inserted, c₁, h₁, h₂⟩ := Tx.bind_eq_ok.mp h
  obtain ⟨hinserted, haudit⟩ := insertAuditRow_eq_ok h₁
  obtain ⟨htrue, hstatus, rfl⟩ := finishWithReplayGuard_eq_ok h₂
  rw [htrue] at hinserted
  have hfree : (c.tables.mutationAudit.any row.conflicts) = false := by simpa using hinserted.symm
  refine ⟨?_, hfree, ?_⟩
  · rw [haudit, insertUnless, hfree]
    rfl
  · rw [hstatus]
    cases newlyApplied with
    | true => exact .inl rfl
    | false => exact .inr rfl

/-- It loses its key only to a row that conflicts with its own. -/
theorem audited_keyTaken {row : MutationAudit} {newlyApplied : Bool} {c : Catalog}
    (h : (do
      let inserted ← insertAuditRow row
      finishWithReplayGuard inserted newlyApplied) c = .error .keyTaken) :
    (c.tables.mutationAudit.any row.conflicts) = true := by
  by_contra hfree
  rw [Bool.not_eq_true] at hfree
  refine Tx.bind_ne_error (insertAuditRow_ne_error row (by simp) c) ?_ h
  intro inserted c₁ h₁
  rw [(insertAuditRow_eq_ok h₁).1, hfree]
  exact Tx.ne_error_of_succeeds rfl

/-- The row is a success for its key, or repeats its audit id. -/
theorem audited_keyTaken_cases {row : MutationAudit} {newlyApplied : Bool} {c : Catalog}
    (h : (do
      let inserted ← insertAuditRow row
      finishWithReplayGuard inserted newlyApplied) c = .error .keyTaken) :
    successfulOutcomeExists row.idempotencyKey c.tables = true ∨
      ∃ a ∈ c.tables.mutationAudit, a.auditId = row.auditId := by
  obtain ⟨a, ha, hconflict⟩ := List.any_eq_true.mp (audited_keyTaken h)
  simp only [MutationAudit.conflicts, Bool.or_eq_true, Bool.and_eq_true,
    decide_eq_true_eq] at hconflict
  rcases hconflict with hid | ⟨⟨-, hold⟩, hsamekey⟩
  · exact .inr ⟨a, ha, hid⟩
  · refine .inl (List.any_eq_true.mpr ⟨a, ha, ?_⟩)
    rw [Bool.and_eq_true]
    exact ⟨decide_eq_true hsamekey, hold⟩

/-! ### Frames -/

theorem touches_insertAuditRow (row : MutationAudit) :
    Touches [.mutationAudit] (insertAuditRow row) :=
  (Touches.select _).bind fun _ => (Touches.write (by decide) _).bind fun _ => Touches.pure _

theorem touches_recordAttempt (ids : ℕ → Uuid) (context : MutationContext) (pid : ℤ)
    (kind : OperationKind) (key : String) (outcome : AuditOutcome) (detail : Jsonb) :
    Touches [.repositories, .mutationAudit]
      (recordAttempt ids context pid kind key outcome detail) :=
  ((touches_upsertRepositoryInTx _ _).mono (by decide)).bind fun _ =>
    ((touches_insertAuditRow _).mono (by decide)).bind fun _ => Touches.pure _

theorem touches_finishWithReplayGuard (inserted newlyApplied : Bool) :
    Touches [] (finishWithReplayGuard inserted newlyApplied) := by
  unfold finishWithReplayGuard
  split
  · exact Touches.pure _
  · exact Touches.abort _

theorem successfulOutcomeExists_recordAttempt {ids : ℕ → Uuid} {context : MutationContext} {pid : ℤ}
    {kind : OperationKind} {key' : String} {outcome : AuditOutcome} {detail : Jsonb} {c c' : Catalog}
    {u : Unit} (h : recordAttempt ids context pid kind key' outcome detail c = .ok (u, c'))
    (houtcome : outcome = .rejected ∨ outcome = .failed) (key : String) :
    successfulOutcomeExists key c'.tables = successfulOutcomeExists key c.tables := by
  obtain ⟨r, c₁, h₁, h₂⟩ := Tx.bind_eq_ok.mp h
  obtain ⟨won, c₂, haudit, hpure⟩ := Tx.bind_eq_ok.mp h₂
  obtain ⟨-, rfl⟩ := Tx.pure_eq_ok.mp hpure
  have hsame : c₁.tables.mutationAudit = c.tables.mutationAudit :=
    (touches_upsertRepositoryInTx _ _).rows_eq h₁ (t := .mutationAudit) (by decide)
  rw [successfulOutcomeExists_insertAuditRow haudit _ key, successfulOutcomeExists, hsame]
  · rfl
  · rcases houtcome with rfl | rfl
    · rfl
    · rfl

/-- **The rule of a recorded attempt.** -/
theorem relates_recordAttempt {R : Database → Database → Prop} [Std.Refl R] [IsTrans Database R]
    (ids : ℕ → Uuid) (context : MutationContext) (pid : ℤ) (kind : OperationKind) (key : String)
    (outcome : AuditOutcome) (detail : Jsonb)
    (hrepo : Tx.Relates R (upsertRepositoryInTx (ids 0) pid))
    (haudit : ∀ row, row.listId = none → Tx.Relates R (insertAuditRow row)) :
    Tx.Relates R (recordAttempt ids context pid kind key outcome detail) :=
  hrepo.bind fun _ => (haudit _ rfl).bind fun _ => Tx.Relates.pure _

theorem relates_finishWithReplayGuard {R : Database → Database → Prop} [Std.Refl R]
    (inserted newlyApplied : Bool) :
    Tx.Relates R (finishWithReplayGuard inserted newlyApplied) := by
  unfold finishWithReplayGuard
  split
  · exact Tx.Relates.pure _
  · exact Tx.Relates.fail _

end GithubCatalog
