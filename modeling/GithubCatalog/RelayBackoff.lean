import GithubCatalog.Relay

/-!
# The backoff of a row that keeps failing (`relay.rs`)

The update after a failed publish takes `power(2, attempt_count + 1)` first and bounds it by 300
seconds afterwards.

* `float8Max`, `attempts_inRange` - the powers of two a `float8` can hold;
* `recordFailure_inRange`, `recordFailure_outOfRange` - the two outcomes of the update;
* `counts_reached` - how a row that only fails gets to every count up to the first refused one;
* `failureRecorded_iff` - the counts at which a failure is recorded.
-/

namespace GithubCatalog

open Relational Runs Transact

/-- The largest finite `float8`: 53 binary digits, the last one worth `2 ^ 971`. -/
def float8Max : ℕ := 2 ^ (1023 + 1) - 2 ^ 971

theorem twoPow_le_sub_iff {m n : ℕ} (h : m ≤ n) (k : ℕ) :
    2 ^ k ≤ 2 ^ (n + 1) - 2 ^ m ↔ k < n + 1 := by
  constructor
  · intro hle
    by_contra hlarge
    have hpow : 2 ^ (n + 1) ≤ 2 ^ k :=
      Nat.pow_le_pow_right (by decide) (Nat.le_of_not_lt hlarge)
    have hgap : 0 < 2 ^ m := Nat.pow_pos (by decide)
    have hpos : 0 < 2 ^ (n + 1) := Nat.pow_pos (by decide)
    omega
  · intro hlt
    have hpow : 2 ^ k ≤ 2 ^ n := Nat.pow_le_pow_right (by decide) (Nat.le_of_lt_succ hlt)
    have hgap : 2 ^ m ≤ 2 ^ n := Nat.pow_le_pow_right (by decide) h
    rw [pow_succ, mul_two]
    omega

/-- Powers of two are `float8` values up to the exponent 1023. -/
theorem power_inRange (exponent : ℕ) : 2 ^ exponent ≤ float8Max ↔ exponent < 1024 :=
  twoPow_le_sub_iff (by decide) exponent

/-- The counts whose next power is a `float8` value. -/
theorem attempts_inRange (attempts : ℤ) :
    2 ^ (attempts + 1).toNat ≤ float8Max ↔ attempts < 1023 := by
  rw [power_inRange]
  omega

/-! ### The update after a failed publish -/

/-- The row with one more failed attempt. -/
def OutboxEvent.backedOff (now : Time) (fault : PublishFault) (e : OutboxEvent) : OutboxEvent :=
  settleOutboxRow now (.failed fault.class (failureBackoff e.attemptCount)) e

/-- The relay's updates keep the ids, and so the constraints hold when the new rows pass their
check. -/
theorem constraints_outboxUpdated {db : Database} (h : Constraints db) {now : Time} {messageId : Uuid}
    {result : RelayResult} (hcheck : ∀ e ∈ db.outboxEvents, result.selects messageId e = true →
      (settleOutboxRow now result e).check = true) :
    Constraints (db.put .outboxEvents
      (updateWhere (result.selects messageId) (settleOutboxRow now result) db.outboxEvents)) where
  keys := { h.keys with
    outbox := by
      show (List.map OutboxEvent.messageId (updateWhere _ _ _)).Nodup
      rw [map_updateWhere fun e => (settleOutboxRow_identity now result e).1]
      exact h.keys.outbox }
  checks := { h.checks with
    outbox := by
      intro e' he'
      obtain ⟨e, he, rfl⟩ := mem_updateWhere.mp he'
      split
      · next hselects => exact hcheck e he hselects
      · exact h.checks.outbox e he }
  foreignKeys := { h.foreignKeys with runs_account := h.foreignKeys.runs_account }

section update

variable {c : Catalog} {e : OutboxEvent}

/-- What the update reads of the row. -/
theorem attemptsOf_row (he : e ∈ c.tables.outboxEvents) (hwaits : e.publishedAt = none) :
    (c.tables.outboxEvents.find? fun f => decide (f.messageId = e.messageId) &&
      f.publishedAt.isNone) = some e := by
  cases hfound : c.tables.outboxEvents.find? fun f => decide (f.messageId = e.messageId) &&
      f.publishedAt.isNone with
  | none =>
    have hnot := List.find?_eq_none.mp hfound e he
    simp [hwaits] at hnot
  | some f =>
    have hf := List.find?_some hfound
    simp only [Bool.and_eq_true, decide_eq_true_eq] at hf
    rw [row_unique c (List.mem_of_find?_eq_some hfound) he hf.1]

/-- The update, after its read. -/
theorem recordFailure_eq (now : Time) (fault : PublishFault) (he : e ∈ c.tables.outboxEvents)
    (hwaits : e.publishedAt = none) :
    recordFailure now e.messageId fault c =
      if 1023 ≤ e.attemptCount then .error (.query .outOfRange)
      else recordRelayResult now e.messageId
        (.failed fault.class (failureBackoff e.attemptCount)) c := by
  have hread : select (fun db => (db.outboxEvents.find? fun f =>
      decide (f.messageId = e.messageId) && f.publishedAt.isNone).map (·.attemptCount)) c =
      .ok (some e.attemptCount, c) :=
    select_eq_ok.mpr ⟨by rw [attemptsOf_row he hwaits]; rfl, rfl⟩
  unfold recordFailure
  rw [Tx.bind_of_ok hread]
  show (if 1023 ≤ e.attemptCount then (abort (.query .outOfRange) : Tx Unit) else
    recordRelayResult now e.messageId (.failed fault.class (failureBackoff e.attemptCount))) c = _
  split
  · rfl
  · rfl

/-- **In range.**  The failure is recorded. -/
theorem recordFailure_inRange (now : Time) (fault : PublishFault) (he : e ∈ c.tables.outboxEvents)
    (hwaits : e.publishedAt = none) (hrange : 2 ^ (e.attemptCount + 1).toNat ≤ float8Max) :
    ∃ c', recordFailure now e.messageId fault c = .ok ((), c') ∧ c'.tables.outboxEvents =
      updateWhere ((RelayResult.failed fault.class (failureBackoff e.attemptCount)).selects
        e.messageId) (settleOutboxRow now (.failed fault.class (failureBackoff e.attemptCount)))
        c.tables.outboxEvents := by
  have hfew := (attempts_inRange e.attemptCount).mp hrange
  have hvalid : Constraints (c.tables.put .outboxEvents (updateWhere
      ((RelayResult.failed fault.class (failureBackoff e.attemptCount)).selects e.messageId)
      (settleOutboxRow now (.failed fault.class (failureBackoff e.attemptCount)))
      c.tables.outboxEvents)) := by
    refine constraints_outboxUpdated c.valid fun f hf hselects => ?_
    have hid : f.messageId = e.messageId := by
      simp only [RelayResult.selects, Bool.and_eq_true, decide_eq_true_eq] at hselects
      exact hselects.1.1
    rw [row_unique c hf he hid]
    have hcheck := c.valid.checks.outbox e he
    simp only [OutboxEvent.check, settleOutboxRow, fitsInteger, Bool.and_eq_true,
      decide_eq_true_eq] at hcheck ⊢
    refine ⟨⟨hcheck.1.1, decide_eq_true ?_⟩, decide_eq_true ?_, decide_eq_true ?_⟩
    · omega
    · omega
    · omega
  refine ⟨⟨_, hvalid⟩, ?_, rfl⟩
  rw [recordFailure_eq now fault he hwaits, if_neg (by omega)]
  exact write_of_valid hvalid

/-- **Out of range.**  The update fails. -/
theorem recordFailure_outOfRange (now : Time) (fault : PublishFault)
    (he : e ∈ c.tables.outboxEvents) (hwaits : e.publishedAt = none)
    (hrange : float8Max < 2 ^ (e.attemptCount + 1).toNat) :
    recordFailure now e.messageId fault c = .error (.query .outOfRange) := by
  have hmany : ¬ e.attemptCount < 1023 := fun hfew =>
    Nat.not_le.mpr hrange ((attempts_inRange e.attemptCount).mpr hfew)
  rw [recordFailure_eq now fault he hwaits, if_pos (Int.not_lt.mp hmany)]

end update

/-! ### The pass that records it -/

/-- What recording a failed publish comes to: one attempt more, the next one
`min(300, 2 ^ (attempt_count + 1))` seconds later, and the pass goes on. -/
structure FailureRecorded (now : Time) (e : OutboxEvent) (s' : RelaySystem) : Prop where
  row : ∃ e' ∈ s'.catalog.tables.outboxEvents, e'.messageId = e.messageId ∧
    e'.attemptCount = e.attemptCount + 1 ∧
    e'.nextAttemptAt = now + min 300 (2 ^ (e.attemptCount + 1).toNat) * 1000000
  continues : s'.phase ≠ .stopped

section recording

variable (payloadBytes : Jsonb → ℕ) (k : Contracts) {s : RelaySystem} {i : RelayInput}
  {maxPayload : ℕ} {fault : PublishFault} {todo : List OutboxMessage} {e : OutboxEvent}

/-- The step that records a failure, in range. -/
theorem step_inRange (hserved : i.fate = .served)
    (hphase : s.phase = .updating maxPayload e.message (.failed fault) todo)
    (he : e ∈ s.catalog.tables.outboxEvents) (hwaits : e.publishedAt = none)
    (hrange : 2 ^ (e.attemptCount + 1).toNat ≤ float8Max) :
    (s.step payloadBytes k (.relay i)).phase = .flushing maxPayload todo ∧
      (s.step payloadBytes k (.relay i)).catalog.tables.outboxEvents =
        updateWhere ((RelayResult.failed fault.class (failureBackoff e.attemptCount)).selects
          e.messageId)
          (settleOutboxRow i.now (.failed fault.class (failureBackoff e.attemptCount)))
          s.catalog.tables.outboxEvents := by
  obtain ⟨c', hrecord, hrows⟩ := recordFailure_inRange i.now fault he hwaits hrange
  have hrun : i.fate.run ((RelayVerdict.failed fault).update i.now e.messageId) s.catalog =
      (.ok (), c') := by
    rw [hserved]
    simp only [Fate.run, RelayVerdict.update, hrecord]
  have hstep : s.step payloadBytes k (.relay i) =
      { s with catalog := c', phase := .flushing maxPayload todo } := by
    show s.advance payloadBytes i = _
    simp only [RelaySystem.advance, hphase, OutboxEvent.message, hrun]
  rw [hstep]
  exact ⟨rfl, hrows⟩

/-- The step that should record it, out of range: it ends the relay. -/
theorem step_outOfRange (hserved : i.fate = .served)
    (hphase : s.phase = .updating maxPayload e.message (.failed fault) todo)
    (he : e ∈ s.catalog.tables.outboxEvents) (hwaits : e.publishedAt = none)
    (hrange : float8Max < 2 ^ (e.attemptCount + 1).toNat) :
    s.step payloadBytes k (.relay i) = { s with phase := .stopped } := by
  have hrun : i.fate.run ((RelayVerdict.failed fault).update i.now e.messageId) s.catalog =
      (.error (.query .outOfRange), s.catalog) := by
    rw [hserved]
    simp only [Fate.run, RelayVerdict.update, recordFailure_outOfRange i.now fault he hwaits hrange]
  show s.advance payloadBytes i = _
  simp only [RelaySystem.advance, hphase, OutboxEvent.message, hrun]

end recording

/-! ### A row that only fails -/

/-- A tick at which a publish would not be acknowledged in time. -/
def timedOut (now : Time) : RelayInput := ⟨now, .served, 0, .error .ackTimeout⟩

/-- A lone row that waits. -/
structure LoneRow (s : RelaySystem) (e : OutboxEvent) : Prop where
  idle : s.phase = .idle
  rows : s.catalog.tables.outboxEvents = [e]
  relayed : e.subject ∈ relayedSubjects
  waits : e.publishedAt = none
  sendable : e.undeliverableAt = none

namespace LoneRow

variable (payloadBytes : Jsonb → ℕ) (k : Contracts) {s : RelaySystem} {e : OutboxEvent}

/-- The selection of the tick at which the row is due. -/
theorem selected (h : LoneRow s e) :
    dueMessages e.nextAttemptAt s.catalog.tables = [e.message] := by
  have hdue : e.due e.nextAttemptAt = true := by
    simp [OutboxEvent.due, h.waits, h.sendable]
  rw [dueMessages, h.rows, List.filter_cons_of_pos hdue]
  rfl

/-- Once the row is due, one tick selects it and the next waits for its acknowledgment in vain. -/
theorem attempted (h : LoneRow s e) : ∃ s',
    runFrom (RelaySystem.step payloadBytes k) s
      [.relay (timedOut e.nextAttemptAt), .relay (timedOut e.nextAttemptAt)] = s' ∧
    s'.phase = .updating 0 e.message (.failed .ackTimeout) [] ∧ s'.catalog = s.catalog := by
  have hselect : s.step payloadBytes k (.relay (timedOut e.nextAttemptAt)) =
      { s with phase := .flushing 0 [e.message] } := by
    show s.advance payloadBytes (timedOut e.nextAttemptAt) = _
    simp only [RelaySystem.advance, h.idle]
    show { s with phase := .flushing 0 (dueMessages e.nextAttemptAt s.catalog.tables) } = _
    rw [h.selected]
  have hpublish : e.message.subject ∈ relayedSubjects := h.relayed
  refine ⟨_, rfl, ?_⟩
  rw [runFrom_cons, runFrom_cons, hselect, runFrom_nil]
  show (RelaySystem.publish payloadBytes (timedOut e.nextAttemptAt) 0 e.message [] _).phase = _ ∧
    (RelaySystem.publish payloadBytes (timedOut e.nextAttemptAt) 0 e.message [] _).catalog = _
  simp [RelaySystem.publish, timedOut, hpublish]

/-- **One round.**  The failed attempt is recorded and the pass ends: the lone row waits again. -/
theorem round (h : LoneRow s e) (hrange : 2 ^ (e.attemptCount + 1).toNat ≤ float8Max) :
    LoneRow (runFrom (RelaySystem.step payloadBytes k) s
      (List.replicate 4 (.relay (timedOut e.nextAttemptAt))))
      (e.backedOff e.nextAttemptAt .ackTimeout) := by
  obtain ⟨s', hrun, hphase, hcatalog⟩ := h.attempted payloadBytes k
  have hrow : e ∈ s'.catalog.tables.outboxEvents := by
    rw [hcatalog, h.rows]
    exact List.mem_singleton_self e
  obtain ⟨hnext, hrows⟩ := step_inRange payloadBytes k
    (i := timedOut e.nextAttemptAt) rfl hphase hrow h.waits hrange
  rw [hcatalog, h.rows] at hrows
  have hselects : (RelayResult.failed PublishFault.ackTimeout.class
      (failureBackoff e.attemptCount)).selects e.messageId e = true := by
    simp [RelayResult.selects, h.waits]
  have hend : ∀ t : RelaySystem, t.phase = .flushing 0 [] →
      t.step payloadBytes k (.relay (timedOut e.nextAttemptAt)) = { t with phase := .idle } := by
    intro t ht
    show t.advance payloadBytes (timedOut e.nextAttemptAt) = _
    simp only [RelaySystem.advance, ht]
    rfl
  rw [show List.replicate 4 (RelayEvent.relay (timedOut e.nextAttemptAt)) =
      [.relay (timedOut e.nextAttemptAt), .relay (timedOut e.nextAttemptAt)] ++
        [.relay (timedOut e.nextAttemptAt), .relay (timedOut e.nextAttemptAt)] from rfl,
    runFrom_append, hrun, runFrom_cons, runFrom_cons, runFrom_nil, hend _ hnext]
  refine ⟨rfl, ?_, h.relayed, h.waits, h.sendable⟩
  show (s'.step payloadBytes k _).catalog.tables.outboxEvents = _
  rw [hrows]
  simp only [updateWhere, List.map_cons, List.map_nil, if_pos hselects]
  rfl

end LoneRow

/-- A tracked repository, then the publication of the first policy. -/
def policyQueued : List Operation := [.trackRepository 1 0 101, .publishDue 60000000 10]

/-- The policy is a lone row. -/
theorem policy_loneRow (payloadBytes : Jsonb → ℕ) : ∃ e,
    LoneRow (RelaySystem.after payloadBytes sampleContracts (policyQueued.map .catalog)) e ∧
    e.attemptCount = 0 := by
  have hafter : RelaySystem.after payloadBytes sampleContracts (policyQueued.map .catalog) =
      { catalog := runFrom (GithubCatalog.step sampleContracts) emptyCatalog policyQueued } := by
    simp only [RelaySystem.after, policyQueued, List.map_cons, List.map_nil, runFrom_cons,
      runFrom_nil, RelaySystem.step, Operation.enqueues, if_true, RelaySystem.start]
  have hrows : ∀ e ∈ (runFrom (GithubCatalog.step sampleContracts) emptyCatalog
      policyQueued).tables.outboxEvents, e.subject ∈ relayedSubjects ∧ e.publishedAt = none ∧
        e.undeliverableAt = none ∧ e.attemptCount = 0 := by
    decide +kernel
  have hone : (runFrom (GithubCatalog.step sampleContracts) emptyCatalog
      policyQueued).tables.outboxEvents.length = 1 := by
    decide +kernel
  rw [hafter]
  obtain ⟨e, hlone⟩ := List.length_eq_one_iff.mp hone
  obtain ⟨hrelayed, hwaits, hsendable, hcount⟩ := hrows e (hlone ▸ List.mem_singleton_self e)
  exact ⟨e, ⟨rfl, hlone, hrelayed, hwaits, hsendable⟩, hcount⟩

/-- **Every count up to the first refused one is reached.** -/
theorem counts_reached (payloadBytes : Jsonb → ℕ) (n : ℕ) (hn : n ≤ 1023) : ∃ events e,
    LoneRow (RelaySystem.after payloadBytes sampleContracts events) e ∧ e.attemptCount = n := by
  induction n with
  | zero =>
    obtain ⟨e, hlone, hcount⟩ := policy_loneRow payloadBytes
    exact ⟨_, e, hlone, hcount⟩
  | succ n ih =>
    obtain ⟨events, e, hlone, hcount⟩ := ih (by omega)
    refine ⟨events ++ List.replicate 4 (.relay (timedOut e.nextAttemptAt)),
      e.backedOff e.nextAttemptAt .ackTimeout, ?_, ?_⟩
    · rw [RelaySystem.after, runFrom_append]
      exact hlone.round payloadBytes sampleContracts ((attempts_inRange _).mpr (by omega))
    · show e.attemptCount + 1 = _
      rw [hcount]
      rfl

/-! ### Which failures are recorded -/

/-- **Backoff.**  In every run of the relay, the failed publish of a row is recorded, with the next
attempt `min(300, 2 ^ (attempt_count + 1))` seconds later, exactly while the row counts fewer than
1023 attempts; from then on the update is out of range and the relay ends. -/
theorem failureRecorded_iff (payloadBytes : Jsonb → ℕ) (k : Contracts) (events : List RelayEvent)
    (i : RelayInput) (hserved : i.fate = .served) (maxPayload : ℕ) (fault : PublishFault)
    (todo : List OutboxMessage) (e : OutboxEvent)
    (hphase : (RelaySystem.after payloadBytes k events).phase =
      .updating maxPayload e.message (.failed fault) todo)
    (he : e ∈ (RelaySystem.after payloadBytes k events).catalog.tables.outboxEvents) :
    FailureRecorded i.now e
      ((RelaySystem.after payloadBytes k events).step payloadBytes k (.relay i)) ↔
      e.attemptCount < 1023 := by
  have hinHand : e.message ∈ (RelaySystem.after payloadBytes k events).phase.inHand := by
    rw [hphase]
    exact List.mem_cons_self
  obtain ⟨-, hwaits, -⟩ :=
    (relaySound_after payloadBytes k events).row_of_selected hinHand he rfl
  rw [← attempts_inRange]
  constructor
  · intro hrecorded
    by_contra hrange
    apply hrecorded.continues
    rw [step_outOfRange payloadBytes k hserved hphase he hwaits (Nat.not_le.mp hrange)]
  · intro hrange
    obtain ⟨hnext, hrows⟩ := step_inRange payloadBytes k hserved hphase he hwaits hrange
    refine ⟨⟨e.backedOff i.now fault, ?_, rfl, rfl, rfl⟩, ?_⟩
    · rw [hrows, mem_updateWhere]
      have hselects : (RelayResult.failed fault.class
          (failureBackoff e.attemptCount)).selects e.messageId e = true := by
        simp [RelayResult.selects, hwaits]
      exact ⟨e, he, if_pos hselects⟩
    · rw [hnext]
      simp

/-- The first failure of a published policy is recorded; the next attempt is two seconds later. -/
theorem failureRecorded_first : ∃ events e,
    FailureRecorded e.nextAttemptAt e ((RelaySystem.after (fun _ => 100) sampleContracts
      events).step (fun _ => 100) sampleContracts (.relay (timedOut e.nextAttemptAt))) := by
  obtain ⟨e, hlone, hcount⟩ := policy_loneRow (fun _ => 100)
  obtain ⟨s', hrun, hphase, hcatalog⟩ := hlone.attempted (fun _ => 100) sampleContracts
  rw [RelaySystem.after, ← runFrom_append] at hrun
  subst hrun
  refine ⟨_, e, (failureRecorded_iff (fun _ => 100) sampleContracts _ (timedOut e.nextAttemptAt) rfl
    0 .ackTimeout [] e hphase ?_).mpr (by rw [hcount]; decide)⟩
  have hrow : e ∈ (RelaySystem.after (fun _ => 100) sampleContracts
      (policyQueued.map .catalog)).catalog.tables.outboxEvents := by
    rw [hlone.rows]
    exact List.mem_singleton_self e
  exact hcatalog ▸ hrow

/-- After 1023 failures in succession, the next failure is not recorded. -/
theorem failureRecorded_ends : ¬ ∀ (payloadBytes : Jsonb → ℕ) (k : Contracts)
    (events : List RelayEvent) (i : RelayInput), i.fate = .served → ∀ (maxPayload : ℕ)
    (fault : PublishFault) (todo : List OutboxMessage) (e : OutboxEvent),
    (RelaySystem.after payloadBytes k events).phase =
      .updating maxPayload e.message (.failed fault) todo →
    e ∈ (RelaySystem.after payloadBytes k events).catalog.tables.outboxEvents →
    FailureRecorded i.now e
      ((RelaySystem.after payloadBytes k events).step payloadBytes k (.relay i)) := by
  intro hall
  obtain ⟨events, e, hlone, hcount⟩ := counts_reached (fun _ => 100) 1023 le_rfl
  obtain ⟨s', hrun, hphase, hcatalog⟩ := hlone.attempted (fun _ => 100) sampleContracts
  rw [RelaySystem.after, ← runFrom_append] at hrun
  have hrow : e ∈ s'.catalog.tables.outboxEvents := by
    rw [hcatalog, hlone.rows]
    exact List.mem_singleton_self e
  have hwaits := hlone.waits
  subst hrun
  have hrecorded := hall (fun _ => 100) sampleContracts _ (timedOut e.nextAttemptAt) rfl 0
    .ackTimeout [] e hphase hrow
  apply hrecorded.continues
  rw [RelaySystem.after, step_outOfRange (fun _ => 100) sampleContracts rfl hphase hrow hwaits
    (Nat.not_le.mp fun hrange => by rw [attempts_inRange, hcount] at hrange; omega)]

end GithubCatalog
