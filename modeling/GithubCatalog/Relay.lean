import GithubCatalog.PolicyPublication
import GithubCatalog.AnalysisRuns

/-!
# The outbox relay (`relay.rs`)

A flush pass selects the due rows of the outbox, publishes one after the other, waits for each
acknowledgment, and updates the row.  Selection, publication and update are separate steps, and the
process may stop between any two of them.

* `dueMessages` - the selection of a pass;
* `RelaySystem.step` - one relay, its catalog, the enqueueing operations of other flows, crashes and
  restarts;
* `acknowledged`, `failures` - what the broker answered to each publish, so far;
* `relay_runs` - what holds in every run of it.
-/

namespace GithubCatalog

open Relational Runs Transact

/-- What a row publishes. -/
structure OutboxMessage where
  messageId : Uuid
  subject : OutboxSubject
  payload : Jsonb
deriving DecidableEq

def OutboxEvent.message (e : OutboxEvent) : OutboxMessage := ⟨e.messageId, e.subject, e.payload⟩

/-- `RELAYED_SUBJECTS`. -/
def relayedSubjects : List OutboxSubject := [.analysisRequested, .backupPolicyApply]

/-- `RELAY_BATCH`. -/
def relayBatch : ℕ := 32

/-- `PAYLOAD_HEADROOM`. -/
def payloadHeadroom : ℕ := 1024

/-- The rows a pass may select. -/
def OutboxEvent.due (now : Time) (e : OutboxEvent) : Bool :=
  e.publishedAt.isNone && e.undeliverableAt.isNone && decide (e.nextAttemptAt ≤ now)

/-- `order by created_at, message_id`. -/
def OutboxEvent.sooner (e f : OutboxEvent) : Bool :=
  decide (e.createdAt < f.createdAt) ||
    (decide (e.createdAt = f.createdAt) && decide (e.messageId ≤ f.messageId))

/-- The selection of a pass. -/
def dueMessages (now : Time) (db : Database) : List OutboxMessage :=
  (((db.outboxEvents.filter (·.due now)).insertionSort fun e f => e.sooner f = true).take
    relayBatch).map (·.message)

/-- Why a publish was not acknowledged. -/
inductive PublishFault where
  | publishFailed | ackFailed | ackTimeout
deriving DecidableEq

def PublishFault.class : PublishFault → RelayError
  | publishFailed => .publishFailed
  | ackFailed => .ackFailed
  | ackTimeout => .ackTimeout

/-- `make_interval(secs => least(300, power(2, attempt_count + 1)))`, in microseconds. -/
def failureBackoff (attempts : ℤ) : Time := min 300 (2 ^ (attempts + 1).toNat) * 1000000

/-- The update after a failed publish; `power` overflows from 1024 on. -/
def recordFailure (now : Time) (messageId : Uuid) (fault : PublishFault) : Tx Unit := do
  let attempts ← select fun db =>
    (db.outboxEvents.find? fun e => decide (e.messageId = messageId) && e.publishedAt.isNone).map
      (·.attemptCount)
  match attempts with
  | none => pure ()
  | some attempts =>
    if 1023 ≤ attempts then abort (.query .outOfRange)
    else recordRelayResult now messageId (.failed fault.class (failureBackoff attempts))

/-! ### One relay -/

/-- What a pass found out about a row. -/
inductive RelayVerdict where
  | acknowledged
  | failed (fault : PublishFault)
  | tooLarge
deriving DecidableEq

/-- The update of a row. -/
def RelayVerdict.update (now : Time) (messageId : Uuid) : RelayVerdict → Tx Unit
  | acknowledged => recordRelayResult now messageId .acknowledged
  | failed fault => recordFailure now messageId fault
  | tooLarge => recordRelayResult now messageId .tooLarge

/-- Where the relay stands: between two ticks, before the next row of a pass, before the update of a
row, or ended. -/
inductive RelayPhase where
  | idle
  | flushing (maxPayload : ℕ) (todo : List OutboxMessage)
  | updating (maxPayload : ℕ) (m : OutboxMessage) (verdict : RelayVerdict) (todo : List OutboxMessage)
  | stopped
deriving DecidableEq

/-- The rows a pass still has in hand. -/
def RelayPhase.inHand : RelayPhase → List OutboxMessage
  | flushing _ todo => todo
  | updating _ m _ todo => m :: todo
  | idle | stopped => []

/-- What the world contributes to a step: the clock, the fate of the statement, the payload limit the
broker announces, and its answer to a publish. -/
structure RelayInput where
  now : Time
  fate : Fate
  maxPayload : ℕ
  answer : Except PublishFault Unit

structure RelaySystem where
  catalog : Catalog
  phase : RelayPhase := .idle
  acknowledged : List OutboxMessage := []
  failures : List Uuid := []

/-- The relay takes its next step, the process stops or starts again, or another flow commits. -/
inductive RelayEvent where
  | relay (i : RelayInput)
  | crash
  | restart
  | catalog (op : Operation)

/-- Other flows insert rows into the outbox; only the relay updates them, and only an erasure deletes
them. -/
def Operation.enqueues : Operation → Bool
  | .recordRelayResult .. => false
  | .eraseAccount .. => false
  | _ => true

namespace RelaySystem

variable (payloadBytes : Jsonb → ℕ)

/-- `flush_outbox`, from the size check of a row to its publish. -/
def publish (i : RelayInput) (maxPayload : ℕ) (m : OutboxMessage) (todo : List OutboxMessage)
    (s : RelaySystem) : RelaySystem :=
  if !relayedSubjects.contains m.subject then { s with phase := .stopped }
  else if 0 < maxPayload ∧ maxPayload - payloadHeadroom < payloadBytes m.payload then
    { s with phase := .updating maxPayload m .tooLarge todo }
  else
    match i.answer with
    | .ok _ =>
      { s with
        phase := .updating maxPayload m .acknowledged todo
        acknowledged := m :: s.acknowledged }
    | .error fault =>
      { s with
        phase := .updating maxPayload m (.failed fault) todo
        failures := m.messageId :: s.failures }

/-- The next step of the relay; an error of the catalog ends it. -/
def advance (i : RelayInput) (s : RelaySystem) : RelaySystem :=
  match s.phase with
  | .idle =>
    match (i.fate.run (select (dueMessages i.now)) s.catalog).1 with
    | .ok rows => { s with phase := .flushing i.maxPayload rows }
    | .error _ => { s with phase := .stopped }
  | .flushing _ [] => { s with phase := if i.fate = .served then .idle else .stopped }
  | .flushing maxPayload (m :: todo) => s.publish payloadBytes i maxPayload m todo
  | .updating maxPayload m verdict todo =>
    match i.fate.run (verdict.update i.now m.messageId) s.catalog with
    | (.ok _, c) => { s with catalog := c, phase := .flushing maxPayload todo }
    | (.error _, c) => { s with catalog := c, phase := .stopped }
  | .stopped => s

def step (k : Contracts) (s : RelaySystem) : RelayEvent → RelaySystem
  | .relay i => s.advance payloadBytes i
  | .crash => { s with phase := .stopped }
  | .restart => if s.phase = .stopped then { s with phase := .idle } else s
  | .catalog op =>
    if op.enqueues then { s with catalog := GithubCatalog.step k s.catalog op } else s

/-- An empty catalog, and a relay before its first tick. -/
def start : RelaySystem := { catalog := emptyCatalog }

/-- The state after a run. -/
def after (k : Contracts) (events : List RelayEvent) : RelaySystem :=
  runFrom (step payloadBytes k) start events

end RelaySystem

/-! ### What the steps do to the outbox -/

/-- A row as it is inserted. -/
def OutboxEvent.Fresh (e : OutboxEvent) : Prop :=
  e.publishedAt = none ∧ e.undeliverableAt = none ∧ e.attemptCount = 0

/-- **Enqueueing.**  The other flows append fresh rows. -/
theorem Operation.commit_enqueues (k : Contracts) (c : Catalog) (op : Operation)
    (hop : op.enqueues = true) : ∃ new, (∀ e ∈ new, e.Fresh) ∧
      (op.commit k c).tables.outboxEvents = c.tables.outboxEvents ++ new := by
  have hsame : ∀ {c' : Catalog}, c'.tables.outboxEvents = c.tables.outboxEvents →
      ∃ new, (∀ e ∈ new, e.Fresh) ∧ c'.tables.outboxEvents = c.tables.outboxEvents ++ new := by
    intro c' h
    exact ⟨[], fun e he => absurd he List.not_mem_nil, h.trans (List.append_nil _).symm⟩
  cases op with
  | recordRelayResult | eraseAccount => cases hop
  | dispatchAnalysis messageId now =>
    show ∃ new, _ ∧ ((dispatchDueRepositoryAnalysis k messageId now).commit c).tables.outboxEvents = _
    rcases Tx.commit_cases (dispatchDueRepositoryAnalysis k messageId now) c with ⟨out, hok⟩ | hrolled
    · rw [← dispatchUnlocked_none] at hok ⊢
      rcases dispatchUnlocked_spec hok with hnothing | ⟨r, -, requested, envelope, -, -, -, houtbox, -⟩
      · rw [hnothing]
        exact hsame rfl
      · refine ⟨_, fun e he => ?_, houtbox⟩
        rw [List.mem_singleton.mp he]
        exact ⟨rfl, rfl, rfl⟩
    · rw [hrolled]
      exact hsame rfl
  | publishDue now commandId =>
    show ∃ new, _ ∧ ((publishDueBackupPolicy k now commandId).commit c).tables.outboxEvents = _
    rcases Tx.commit_cases (publishDueBackupPolicy k now commandId) c with ⟨out, hok⟩ | hrolled
    · rcases publishDue_cases hok with ⟨-, htables⟩ | ⟨-, inputs, -, ⟨-, htables⟩ | ⟨-, last, policy,
        envelope, -, -, -, -, htables⟩⟩
      · exact hsame (by rw [htables])
      · exact hsame (by rw [htables]; rfl)
      · refine ⟨[newOutboxEvent commandId .backupPolicyApply envelope now], fun e he => ?_, ?_⟩
        · rw [List.mem_singleton.mp he]
          exact ⟨rfl, rfl, rfl⟩
        · rw [htables]
          rfl
    · rw [hrolled]
      exact hsame rfl
  | _ => exact hsame (rows_commit k c _ .outboxEvents rfl)

theorem recordRelayResult_outbox {now : Time} {messageId : Uuid} {result : RelayResult}
    {c c' : Catalog} (h : recordRelayResult now messageId result c = .ok ((), c')) :
    c'.tables.outboxEvents =
      updateWhere (result.selects messageId) (settleOutboxRow now result) c.tables.outboxEvents := by
  rw [write_eq_ok.mp h]
  rfl

/-- The results an update may record. -/
def RelayVerdict.Records : RelayVerdict → RelayResult → Prop
  | acknowledged, result => result = .acknowledged
  | failed fault, result => ∃ backoff, result = .failed fault.class backoff
  | tooLarge, result => result = .tooLarge

/-- What a row's update can do: nothing, or one result is recorded on the rows it selects. -/
theorem RelayVerdict.update_cases {now : Time} {messageId : Uuid} {verdict : RelayVerdict}
    {c c' : Catalog} (h : verdict.update now messageId c = .ok ((), c')) :
    c' = c ∨ ∃ result, verdict.Records result ∧ c'.tables.outboxEvents =
      updateWhere (result.selects messageId) (settleOutboxRow now result) c.tables.outboxEvents := by
  cases verdict with
  | acknowledged =>
    exact .inr ⟨.acknowledged, rfl, recordRelayResult_outbox h⟩
  | tooLarge =>
    exact .inr ⟨.tooLarge, rfl, recordRelayResult_outbox h⟩
  | failed fault =>
    obtain ⟨attempts, c₁, hread, h⟩ := Tx.bind_eq_ok.mp h
    obtain ⟨-, rfl⟩ := select_eq_ok.mp hread
    cases attempts with
    | none =>
      obtain ⟨-, rfl⟩ := Tx.pure_eq_ok.mp h
      exact .inl rfl
    | some attempts =>
      by_cases hoverflow : 1023 ≤ attempts
      · have habort : (abort (.query .outOfRange) : Tx Unit) c = .ok ((), c') := by
          simpa only [if_pos hoverflow] using h
        exact absurd habort (by simp [abort, Tx.fail])
      · have hrecord : recordRelayResult now messageId
            (.failed fault.class (failureBackoff attempts)) c = .ok ((), c') := by
          simpa only [if_neg hoverflow] using h
        exact .inr ⟨_, ⟨failureBackoff attempts, rfl⟩, recordRelayResult_outbox hrecord⟩

/-! ### What holds in every state -/

/-- A message of a row that is neither published nor undeliverable. -/
def Waiting (db : Database) (m : OutboxMessage) : Prop :=
  ∃ e ∈ db.outboxEvents, e.message = m ∧ e.publishedAt = none ∧ e.undeliverableAt = none

/-- What is known of the rows. -/
structure RowSound (acknowledged : List OutboxMessage) (failures : List Uuid) (e : OutboxEvent) :
    Prop where
  published : e.publishedAt.isSome = true → e.message ∈ acknowledged
  exclusive : e.publishedAt = none ∨ e.undeliverableAt = none
  attempts : e.attemptCount ≤ failures.count e.messageId

/-- What is known of the relay: its rows, and the messages it has in hand. -/
structure RelaySound (s : RelaySystem) : Prop where
  rows : ∀ e ∈ s.catalog.tables.outboxEvents, RowSound s.acknowledged s.failures e
  waiting : ∀ m ∈ s.phase.inHand, Waiting s.catalog.tables m
  apart : (s.phase.inHand.map (·.messageId)).Nodup
  acked : ∀ maxPayload m todo, s.phase = .updating maxPayload m .acknowledged todo →
    m ∈ s.acknowledged
  failed : ∀ maxPayload m fault todo, s.phase = .updating maxPayload m (.failed fault) todo →
    ∀ e ∈ s.catalog.tables.outboxEvents, e.messageId = m.messageId →
      e.attemptCount + 1 ≤ s.failures.count m.messageId

/-- Every row is still there, with its id, subject and payload. -/
def RowsPersist (db db' : Database) : Prop :=
  ∀ e ∈ db.outboxEvents, ∃ e' ∈ db'.outboxEvents, e'.message = e.message

instance : Std.Refl RowsPersist := ⟨fun _ e he => ⟨e, he, rfl⟩⟩

instance : IsTrans Database RowsPersist where
  trans _ _ _ h h' := by
    intro e he
    obtain ⟨e', he', hsame⟩ := h e he
    obtain ⟨e'', he'', hsame'⟩ := h' e' he'
    exact ⟨e'', he'', hsame'.trans hsame⟩

theorem message_settleOutboxRow (now : Time) (result : RelayResult) (e : OutboxEvent) :
    (settleOutboxRow now result e).message = e.message := by
  obtain ⟨hid, hsubject, hpayload⟩ := settleOutboxRow_identity now result e
  rw [OutboxEvent.message, hid, hsubject, hpayload, OutboxEvent.message]

/-- Two rows with one id are one row. -/
theorem row_unique (c : Catalog) {e f : OutboxEvent} (he : e ∈ c.tables.outboxEvents)
    (hf : f ∈ c.tables.outboxEvents) (h : e.messageId = f.messageId) : e = f :=
  c.valid.keys.outbox.eq_of_mem he hf h

/-- The selection of a pass is of different rows that wait. -/
theorem dueMessages_waiting (now : Time) (c : Catalog) :
    (∀ m ∈ dueMessages now c.tables, Waiting c.tables m) ∧
      ((dueMessages now c.tables).map (·.messageId)).Nodup := by
  have hselected : ∀ e ∈ ((c.tables.outboxEvents.filter (·.due now)).insertionSort
      fun e f => e.sooner f = true).take relayBatch,
      e ∈ c.tables.outboxEvents ∧ e.publishedAt = none ∧ e.undeliverableAt = none := by
    intro e he
    have hmem := List.mem_filter.mp ((List.mem_insertionSort _).mp (List.mem_of_mem_take he))
    have hdue := hmem.2
    simp only [OutboxEvent.due, Bool.and_eq_true, Option.isNone_iff_eq_none] at hdue
    exact ⟨hmem.1, hdue.1.1, hdue.1.2⟩
  constructor
  · intro m hm
    obtain ⟨e, he, rfl⟩ := List.mem_map.mp hm
    obtain ⟨hrow, hpublished, hundeliverable⟩ := hselected e he
    exact ⟨e, hrow, rfl, hpublished, hundeliverable⟩
  · have hkeys : UniqueOn (·.messageId) (c.tables.outboxEvents.filter (·.due now)) :=
      c.valid.keys.outbox.sublist List.filter_sublist
    have hsorted : (((c.tables.outboxEvents.filter (·.due now)).insertionSort
        fun e f => e.sooner f = true).map (·.messageId)).Nodup :=
      ((List.perm_insertionSort _ _).map _).nodup_iff.mpr hkeys
    rw [dueMessages, List.map_map]
    exact hsorted.sublist ((List.take_sublist _ _).map _)

namespace RelaySound

variable {s : RelaySystem} {payloadBytes : Jsonb → ℕ}

/-- The relay goes on, or ends, with fewer messages in hand and no update ahead. -/
theorem settled (h : RelaySound s) {phase : RelayPhase}
    (hhand : phase.inHand.Sublist s.phase.inHand)
    (hphase : ∀ maxPayload m verdict todo, phase ≠ .updating maxPayload m verdict todo) :
    RelaySound { s with phase } where
  rows := h.rows
  waiting := fun m hm => h.waiting m (hhand.subset hm)
  apart := h.apart.sublist (hhand.map _)
  acked := fun _ _ _ heq => absurd heq (hphase _ _ _ _)
  failed := fun _ _ _ _ heq => absurd heq (hphase _ _ _ _)

/-- Another flow appends fresh rows. -/
theorem enqueued (h : RelaySound s) {c : Catalog} {new : List OutboxEvent}
    (hfresh : ∀ e ∈ new, e.Fresh)
    (houtbox : c.tables.outboxEvents = s.catalog.tables.outboxEvents ++ new) :
    RelaySound { s with catalog := c } where
  rows := by
    intro e he
    rcases List.mem_append.mp (houtbox ▸ he) with hold | hnew
    · exact h.rows e hold
    · obtain ⟨hpublished, hundeliverable, hattempts⟩ := hfresh e hnew
      refine ⟨fun hsome => ?_, .inl hpublished, ?_⟩
      · rw [hpublished] at hsome
        cases hsome
      · rw [hattempts]
        exact Int.natCast_nonneg _
  waiting := by
    intro m hm
    obtain ⟨e, he, hrest⟩ := h.waiting m hm
    exact ⟨e, houtbox ▸ List.mem_append_left _ he, hrest⟩
  apart := h.apart
  acked := h.acked
  failed := by
    intro maxPayload m fault todo hphase e he hid
    have hin : m ∈ s.phase.inHand := by
      rw [show s.phase = _ from hphase]
      exact List.mem_cons_self
    obtain ⟨f, hf, rfl, -⟩ := h.waiting m hin
    have hsame : e = f :=
      row_unique c he (houtbox ▸ List.mem_append_left _ hf) hid
    rw [hsame]
    exact h.failed maxPayload _ fault todo hphase f hf rfl

/-- The row of a message in hand. -/
theorem row_of_selected (h : RelaySound s) {m : OutboxMessage} (hm : m ∈ s.phase.inHand)
    {e : OutboxEvent} (he : e ∈ s.catalog.tables.outboxEvents) (hid : e.messageId = m.messageId) :
    e.message = m ∧ e.publishedAt = none ∧ e.undeliverableAt = none := by
  obtain ⟨f, hf, hmessage, hrest⟩ := h.waiting m hm
  have hsame : e = f := row_unique s.catalog he hf (hid.trans (by rw [← hmessage]; rfl))
  rw [hsame]
  exact ⟨hmessage, hrest⟩

/-- The update of a row. -/
theorem updated (h : RelaySound s) {maxPayload : ℕ} {m : OutboxMessage} {verdict : RelayVerdict}
    {todo : List OutboxMessage} (hphase : s.phase = .updating maxPayload m verdict todo) {now : Time}
    {c : Catalog} (hupdate : verdict.update now m.messageId s.catalog = .ok ((), c)) :
    RelaySound { s with catalog := c, phase := .flushing maxPayload todo } := by
  have hin : m ∈ s.phase.inHand := by
    rw [hphase]
    exact List.mem_cons_self
  have happart : (m :: todo).map (·.messageId) |>.Nodup := by
    have := h.apart
    rwa [hphase] at this
  rcases RelayVerdict.update_cases hupdate with rfl | ⟨result, hresult, houtbox⟩
  · refine h.settled ?_ (by simp)
    rw [hphase]
    exact List.sublist_cons_self m todo
  · refine ⟨?_, ?_, happart.of_cons, by simp, by simp⟩
    · intro e' he'
      rw [houtbox] at he'
      obtain ⟨e, he, rfl⟩ := mem_updateWhere.mp he'
      by_cases hselects : result.selects m.messageId e = true
      · rw [if_pos hselects]
        simp only [RelayResult.selects, Bool.and_eq_true, decide_eq_true_eq] at hselects
        obtain ⟨hmessage, hpublished, hundeliverable⟩ := h.row_of_selected hin he hselects.1.1
        have hsound := h.rows e he
        cases verdict with
        | acknowledged =>
          rw [show result = .acknowledged from hresult]
          refine ⟨fun _ => ?_, .inr hundeliverable, hsound.attempts⟩
          show e.message ∈ s.acknowledged
          rw [hmessage]
          exact h.acked maxPayload m todo hphase
        | failed fault =>
          obtain ⟨backoff, rfl⟩ := hresult
          refine ⟨hsound.published, .inl hpublished, ?_⟩
          show e.attemptCount + 1 ≤ s.failures.count e.messageId
          rw [hselects.1.1]
          exact h.failed maxPayload m fault todo hphase e he hselects.1.1
        | tooLarge =>
          rw [show result = .tooLarge from hresult]
          exact ⟨hsound.published, .inl hpublished, hsound.attempts⟩
      · rw [if_neg hselects]
        exact h.rows e he
    · intro m' hm'
      have hin' : m' ∈ s.phase.inHand := by
        rw [hphase]
        exact List.mem_cons_of_mem m hm'
      obtain ⟨e, he, hmessage, hrest⟩ := h.waiting m' hin'
      refine ⟨e, ?_, hmessage, hrest⟩
      have hother : e.messageId ≠ m.messageId := by
        intro heq
        have hsame : m'.messageId = m.messageId := by
          rw [← hmessage]
          exact heq
        exact (List.nodup_cons.mp happart).1 (List.mem_map.mpr ⟨m', hm', hsame⟩)
      rw [houtbox, mem_updateWhere]
      exact ⟨e, he, if_neg (by simp [RelayResult.selects, hother])⟩

/-- A verdict on the next row, with what the broker answered to it. -/
theorem judged (h : RelaySound s) {maxPayload : ℕ} {m : OutboxMessage} {todo : List OutboxMessage}
    (hphase : s.phase = .flushing maxPayload (m :: todo)) {verdict : RelayVerdict}
    {acknowledged : List OutboxMessage} {failures : List Uuid} (hacks : s.acknowledged ⊆ acknowledged)
    (hfailures : ∀ id, s.failures.count id ≤ failures.count id)
    (hacked : verdict = .acknowledged → m ∈ acknowledged)
    (hfailed : ∀ fault, verdict = .failed fault →
      s.failures.count m.messageId + 1 ≤ failures.count m.messageId) :
    RelaySound { s with phase := .updating maxPayload m verdict todo, acknowledged, failures } := by
  have hrows : ∀ e ∈ s.catalog.tables.outboxEvents, RowSound acknowledged failures e := by
    intro e he
    obtain ⟨hpublished, hexclusive, hattempts⟩ := h.rows e he
    have hcount := hfailures e.messageId
    exact ⟨fun hsome => hacks (hpublished hsome), hexclusive, by omega⟩
  have hwaiting := h.waiting
  have happart := h.apart
  rw [hphase] at hwaiting happart
  refine ⟨hrows, hwaiting, happart, ?_, ?_⟩
  · intro maxPayload' m' todo' heq
    cases heq
    exact hacked rfl
  · intro maxPayload' m' fault todo' heq e he hid
    cases heq
    have hattempts := (h.rows e he).attempts
    have hcount := hfailed fault rfl
    rw [hid] at hattempts
    show e.attemptCount + 1 ≤ failures.count m.messageId
    omega

/-- The publish of a row. -/
theorem published (h : RelaySound s) {maxPayload : ℕ} {m : OutboxMessage} {todo : List OutboxMessage}
    (hphase : s.phase = .flushing maxPayload (m :: todo)) (i : RelayInput) :
    RelaySound (s.publish payloadBytes i maxPayload m todo) := by
  unfold RelaySystem.publish
  split
  · exact h.settled (List.nil_sublist _) (by simp)
  · split
    · exact h.judged hphase (fun _ hm => hm) (fun _ => le_refl _) (fun heq => nomatch heq)
        fun _ heq => nomatch heq
    · cases i.answer with
      | ok u =>
        exact h.judged hphase (List.subset_cons_self m _) (fun _ => le_refl _)
          (fun _ => List.mem_cons_self) fun _ heq => nomatch heq
      | error fault =>
        exact h.judged hphase (fun _ hm => hm) (fun _ => List.count_le_count_cons)
          (fun heq => nomatch heq) fun _ _ => by rw [List.count_cons_self]

/-- **One event.** -/
theorem step (h : RelaySound s) (k : Contracts) (e : RelayEvent) :
    RelaySound (s.step payloadBytes k e) := by
  cases e with
  | crash => exact h.settled (List.nil_sublist _) (by simp)
  | restart =>
    show RelaySound (if s.phase = .stopped then { s with phase := .idle } else s)
    split
    · exact h.settled (List.nil_sublist _) (by simp)
    · exact h
  | catalog op =>
    show RelaySound (if op.enqueues then
      { s with catalog := GithubCatalog.step k s.catalog op } else s)
    split
    · next hop =>
      unfold GithubCatalog.step
      split
      · obtain ⟨new, hfresh, houtbox⟩ := Operation.commit_enqueues k s.catalog op hop
        exact h.enqueued hfresh houtbox
      · exact h
    · exact h
  | relay i =>
    show RelaySound (s.advance payloadBytes i)
    cases hphase : s.phase with
    | idle =>
      obtain ⟨hwaiting, happart⟩ := dueMessages_waiting i.now s.catalog
      obtain ⟨rows, c', hread, hrun⟩ | ⟨rows, c', hread, hrun⟩ | ⟨error, -, hrun⟩ :=
        i.fate.run_cases (select (dueMessages i.now)) s.catalog
      · obtain ⟨rfl, rfl⟩ := select_eq_ok.mp hread
        simp only [RelaySystem.advance, hphase, hrun]
        exact ⟨h.rows, hwaiting, happart, by simp, by simp⟩
      · simp only [RelaySystem.advance, hphase, hrun]
        exact h.settled (List.nil_sublist _) (by simp)
      · simp only [RelaySystem.advance, hphase, hrun]
        exact h.settled (List.nil_sublist _) (by simp)
    | flushing maxPayload todo =>
      cases todo with
      | nil =>
        simp only [RelaySystem.advance, hphase]
        split
        · exact h.settled (List.nil_sublist _) (by simp)
        · exact h.settled (List.nil_sublist _) (by simp)
      | cons m todo =>
        simp only [RelaySystem.advance, hphase]
        exact h.published hphase i
    | updating maxPayload m verdict todo =>
      obtain ⟨u, c', hok, hrun⟩ | ⟨u, c', hok, hrun⟩ | ⟨error, -, hrun⟩ :=
        i.fate.run_cases (verdict.update i.now m.messageId) s.catalog
      · simp only [RelaySystem.advance, hphase, hrun]
        exact h.updated hphase hok
      · simp only [RelaySystem.advance, hphase, hrun]
        exact (h.updated hphase hok).settled (List.nil_sublist _) (by simp)
      · simp only [RelaySystem.advance, hphase, hrun]
        exact h.settled (List.nil_sublist _) (by simp)
    | stopped =>
      simp only [RelaySystem.advance, hphase]
      exact h

end RelaySound

/-- **Every run.** -/
theorem relaySound_after (payloadBytes : Jsonb → ℕ) (k : Contracts) (events : List RelayEvent) :
    RelaySound (RelaySystem.after payloadBytes k events) := by
  refine invariant_runFrom (P := RelaySound) (fun s e hs => hs.step k e) ?_ events
  exact ⟨fun e he => absurd he List.not_mem_nil, fun m hm => absurd hm List.not_mem_nil,
    List.nodup_nil, (fun _ _ _ h => nomatch h), fun _ _ _ _ h => nomatch h⟩

/-- The update of a row leaves the rows where they are. -/
theorem rowsPersist_update {verdict : RelayVerdict} {now : Time} {messageId : Uuid} {c c' : Catalog}
    (h : verdict.update now messageId c = .ok ((), c')) : RowsPersist c.tables c'.tables := by
  rcases RelayVerdict.update_cases h with rfl | ⟨result, -, houtbox⟩
  · exact Std.Refl.refl _
  · intro e he
    refine ⟨if result.selects messageId e then settleOutboxRow now result e else e, ?_, ?_⟩
    · rw [houtbox, mem_updateWhere]
      exact ⟨e, he, rfl⟩
    · split
      · exact message_settleOutboxRow now result e
      · rfl

/-- One event loses and changes no message. -/
theorem rowsPersist_step (payloadBytes : Jsonb → ℕ) (k : Contracts) (s : RelaySystem)
    (e : RelayEvent) :
    RowsPersist s.catalog.tables (s.step payloadBytes k e).catalog.tables := by
  cases e with
  | crash => exact Std.Refl.refl _
  | restart =>
    show RowsPersist _ (if s.phase = .stopped then { s with phase := .idle } else s).catalog.tables
    split
    · exact Std.Refl.refl _
    · exact Std.Refl.refl _
  | catalog op =>
    show RowsPersist _ (if op.enqueues then
      { s with catalog := GithubCatalog.step k s.catalog op } else s).catalog.tables
    split
    · next hop =>
      show RowsPersist _ (GithubCatalog.step k s.catalog op).tables
      unfold GithubCatalog.step
      split
      · obtain ⟨new, -, houtbox⟩ := Operation.commit_enqueues k s.catalog op hop
        intro e he
        exact ⟨e, houtbox ▸ List.mem_append_left new he, rfl⟩
      · exact Std.Refl.refl _
    · exact Std.Refl.refl _
  | relay i =>
    show RowsPersist _ (s.advance payloadBytes i).catalog.tables
    cases hphase : s.phase with
    | idle =>
      simp only [RelaySystem.advance, hphase]
      split
      · exact Std.Refl.refl _
      · exact Std.Refl.refl _
    | flushing maxPayload todo =>
      cases todo with
      | nil =>
        simp only [RelaySystem.advance, hphase]
        exact Std.Refl.refl _
      | cons m todo =>
        simp only [RelaySystem.advance, hphase, RelaySystem.publish]
        split
        · exact Std.Refl.refl _
        · split
          · exact Std.Refl.refl _
          · split
            · exact Std.Refl.refl _
            · exact Std.Refl.refl _
    | updating maxPayload m verdict todo =>
      obtain ⟨u, c', hok, hrun⟩ | ⟨u, c', hok, hrun⟩ | ⟨error, -, hrun⟩ :=
        i.fate.run_cases (verdict.update i.now m.messageId) s.catalog
      · simp only [RelaySystem.advance, hphase, hrun]
        exact rowsPersist_update hok
      · simp only [RelaySystem.advance, hphase, hrun]
        exact rowsPersist_update hok
      · simp only [RelaySystem.advance, hphase, hrun]
        exact Std.Refl.refl _
    | stopped =>
      simp only [RelaySystem.advance, hphase]
      exact Std.Refl.refl _

/-- **The relay.**  In every run of one relay - enqueues, passes, answers and faults of the broker,
changing payload limits, crashes and restarts at any point - a row is published only after a publish
of its message was acknowledged, never published and undeliverable, and counts no more attempts than
its publishes failed.  Every row stays, with its message; one that is neither published nor
undeliverable is due again once its next attempt is. -/
theorem relay_runs (payloadBytes : Jsonb → ℕ) (k : Contracts) (before behind : List RelayEvent) :
    (∀ e ∈ (RelaySystem.after payloadBytes k before).catalog.tables.outboxEvents,
      (e.publishedAt.isSome = true →
        e.message ∈ (RelaySystem.after payloadBytes k before).acknowledged) ∧
      ¬ (e.publishedAt.isSome = true ∧ e.undeliverableAt.isSome = true) ∧
      e.attemptCount ≤ (RelaySystem.after payloadBytes k before).failures.count e.messageId) ∧
    ∀ e ∈ (RelaySystem.after payloadBytes k before).catalog.tables.outboxEvents,
      ∃ e' ∈ (RelaySystem.after payloadBytes k (before ++ behind)).catalog.tables.outboxEvents,
        e'.message = e.message ∧
        (e'.publishedAt = none → e'.undeliverableAt = none →
          ∀ now, e'.nextAttemptAt ≤ now → e'.due now = true) := by
  have hsound := relaySound_after payloadBytes k before
  constructor
  · intro e he
    obtain ⟨hpublished, hexclusive, hattempts⟩ := hsound.rows e he
    refine ⟨hpublished, fun hboth => ?_, hattempts⟩
    rcases hexclusive with hnone | hnone
    · rw [hnone] at hboth
      cases hboth.1
    · rw [hnone] at hboth
      cases hboth.2
  · intro e he
    have hpersist : RowsPersist (RelaySystem.after payloadBytes k before).catalog.tables
        (RelaySystem.after payloadBytes k (before ++ behind)).catalog.tables := by
      unfold RelaySystem.after
      rw [runFrom_append]
      refine invariant_runFrom
        (P := fun s : RelaySystem => RowsPersist _ s.catalog.tables) ?_ (Std.Refl.refl _) behind
      exact fun s e hs => IsTrans.trans _ _ _ hs (rowsPersist_step payloadBytes k s e)
    obtain ⟨e', he', hmessage⟩ := hpersist e he
    refine ⟨e', he', hmessage, fun hpublished hundeliverable now hnow => ?_⟩
    simp [OutboxEvent.due, hpublished, hundeliverable, hnow]

/-- A published policy whose first publish times out, whose second is acknowledged just before the
process stops, and whose third is acknowledged and recorded. -/
example :
    let relay := fun now answer => RelayEvent.relay ⟨now, .served, 0, answer⟩
    let s := RelaySystem.after (fun _ => 100) sampleContracts
      [.catalog (.trackRepository 1 0 101), .catalog (.publishDue 60000000 10),
        relay 61000000 (.ok ()), relay 61000000 (.error .ackTimeout), relay 66000000 (.ok ()),
        relay 66000000 (.ok ()), relay 68000000 (.ok ()), relay 68000000 (.ok ()), .crash, .restart,
        relay 69000000 (.ok ()), relay 69000000 (.ok ()), relay 70000000 (.ok ())]
    s.catalog.tables.outboxEvents.map (fun e => (e.messageId, e.attemptCount, e.publishedAt)) =
        [(10, 1, some 70000000)] ∧
      s.acknowledged.map (·.messageId) = [10, 10] ∧ s.failures = [10] := by
  decide +kernel

end GithubCatalog
