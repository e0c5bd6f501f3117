import GithubCatalog.RepositoryActions

/-!
# Single execution and replay of repository actions

The attempt row of a key is inserted by one statement, completed by another and never deleted while
no account is erased.  So the requests that carry a key see one claim and one result, in whatever
order their statements run.

* `ActionCall.Turn` - what one step of a request can do;
* `Grows` - completed attempts stay as they are, and every attempt keeps its owner, key and body;
* `Replays` - the invariant: a granted request holds its attempt, one request per key is granted, a
  completed attempt carries the result its request computed;
* `action_single_execution` - whole runs.
-/

namespace GithubCatalog

open Relational Runs Transact

/-! ### Steps -/

namespace ActionCall

/-- The attempt is the request's: its key, its owner and its body. -/
structure Holds (call : ActionCall) (a : RepositoryActionAttempt) : Prop where
  key : a.idempotencyKey = call.request.idempotencyKey
  owner : a.ownerRef = call.ownerRef
  fingerprint : a.requestFingerprint = call.request.fingerprint

/-- The rows `complete_action` updates. -/
def completes (call : ActionCall) (a : RepositoryActionAttempt) : Bool :=
  decide (a.ownerRef = call.ownerRef) && decide (a.idempotencyKey = call.request.idempotencyKey) &&
    decide (a.requestFingerprint = call.request.fingerprint) && decide (a.status = .inProgress)

theorem completes_iff {call : ActionCall} {a : RepositoryActionAttempt} :
    call.completes a = true ↔ call.Holds a ∧ a.status = .inProgress := by
  simp only [completes, Bool.and_eq_true, decide_eq_true_eq]
  constructor
  · rintro ⟨⟨⟨howner, hkey⟩, hbody⟩, hstatus⟩
    exact ⟨⟨hkey, howner, hbody⟩, hstatus⟩
  · rintro ⟨⟨hkey, howner, hbody⟩, hstatus⟩
    exact ⟨⟨⟨howner, hkey⟩, hbody⟩, hstatus⟩

/-- The recorded result on a row. -/
def record (now : Time) (value : Jsonb) (a : RepositoryActionAttempt) : RepositoryActionAttempt :=
  { a with status := .completed, result := some value, completedAt := some now }

/-- The inserting statement ran. -/
def Inserted (call : ActionCall) (c c' : Catalog) : Prop :=
  keyHeld call.request.idempotencyKey c.tables = false ∧
    c'.tables.repositoryActionAttempts =
      c.tables.repositoryActionAttempts ++ [attemptRow call.ownerRef call.request]

/-- The completing statement ran. -/
def Recorded (call : ActionCall) (now : Time) (value : Jsonb) (c c' : Catalog) : Prop :=
  c'.tables.repositoryActionAttempts =
    updateWhere call.completes (record now value) c.tables.repositoryActionAttempts

variable (p : ActionContracts) (i : ActionInput) (c : Catalog) (call : ActionCall)

/-- What one step of a request can do. -/
inductive Turn : ActionPhase → ActionPhase → Catalog → Prop where
  | rejected (fault) (h : validateActionTarget call.request = .error fault) :
    Turn .received (.answered false (.error fault)) c
  | validated (h : validateActionTarget call.request = .ok ()) : Turn .received .claim c
  | granted (c') (h : call.Inserted c c') : Turn .claim .executing c'
  | held (h : keyHeld call.request.idempotencyKey c.tables = true) : Turn .claim .lookup c
  | unclaimed : Turn .claim (.answered false (.error .persistence)) c
  | unacknowledged (c') (h : call.Inserted c c') :
    Turn .claim (.answered false (.error .persistence)) c'
  | replayed :
    Turn .lookup (.answered false
      (replied p (existingClaim call.ownerRef call.request c.tables))) c
  | unread : Turn .lookup (.answered false (.error .persistence)) c
  | executed (result) (h : executeAction p i.env call.userId call.request = .ok result) :
    Turn .executing (.completing result) c
  | faulted (fault) (h : executeAction p i.env call.userId call.request = .error fault) :
    Turn .executing (.answered true (.error fault)) c
  | recorded (result c') (h : call.Recorded i.now (p.resultValue result) c c') :
    Turn (.completing result) (.answered true (.ok result)) c'
  | unrecorded (result) : Turn (.completing result) (.answered true (.ok result)) c
  | done (granted reply) : Turn (.answered granted reply) (.answered granted reply) c

/-- The inserting statement, whatever its fate. -/
theorem insert_cases (fate : Fate) :
    (keyHeld call.request.idempotencyKey c.tables = true ∧
      fate.run (insertAttempt call.ownerRef call.request) c = (.ok false, c)) ∨
    (∃ c', call.Inserted c c' ∧
      fate.run (insertAttempt call.ownerRef call.request) c = (.ok true, c')) ∨
    (∃ e c', call.Inserted c c' ∧
      fate.run (insertAttempt call.ownerRef call.request) c = (.error e, c')) ∨
    ∃ e, fate.run (insertAttempt call.ownerRef call.request) c = (.error e, c) := by
  have hinserted : ∀ b c', insertAttempt call.ownerRef call.request c = .ok (b, c') →
      (keyHeld call.request.idempotencyKey c.tables = true ∧ b = false ∧ c' = c) ∨
      (b = true ∧ call.Inserted c c') := by
    intro b c' h
    by_cases hheld : keyHeld call.request.idempotencyKey c.tables = true
    · rw [insertAttempt_of_held hheld] at h
      cases h
      exact .inl ⟨hheld, rfl, rfl⟩
    · rw [Bool.not_eq_true] at hheld
      rw [insertAttempt_of_free hheld] at h
      obtain ⟨u, c₁, hwrite, hpure⟩ := Tx.bind_eq_ok.mp h
      obtain ⟨rfl, rfl⟩ := Tx.pure_eq_ok.mp hpure
      refine .inr ⟨rfl, hheld, ?_⟩
      rw [write_eq_ok.mp hwrite]
      rfl
  obtain ⟨b, c', hok, hrun⟩ | ⟨b, c', hok, hrun⟩ | ⟨e, -, hrun⟩ :=
    fate.run_cases (insertAttempt call.ownerRef call.request) c
  · rcases hinserted b c' hok with ⟨hheld, rfl, rfl⟩ | ⟨rfl, hins⟩
    · exact .inl ⟨hheld, hrun⟩
    · exact .inr (.inl ⟨c', hins, hrun⟩)
  · rcases hinserted b c' hok with ⟨hheld, rfl, rfl⟩ | ⟨rfl, hins⟩
    · exact .inr (.inr (.inr ⟨_, hrun⟩))
    · exact .inr (.inr (.inl ⟨_, c', hins, hrun⟩))
  · exact .inr (.inr (.inr ⟨e, hrun⟩))

/-- The completing statement, whatever its fate. -/
theorem complete_cases (fate : Fate) (now : Time) (value : Jsonb) :
    call.Recorded now value c
      (fate.run (completeAction now call.ownerRef call.request value) c).2 ∨
    (fate.run (completeAction now call.ownerRef call.request value) c).2 = c := by
  have hrecorded : ∀ u c', completeAction now call.ownerRef call.request value c = .ok (u, c') →
      call.Recorded now value c c' := by
    intro u c' h
    obtain ⟨v, c₁, hrequire, hwrite⟩ := Tx.bind_eq_ok.mp h
    obtain ⟨-, rfl⟩ := require_eq_ok.mp hrequire
    rw [Recorded, write_eq_ok.mp hwrite]
    rfl
  obtain ⟨u, c', hok, hrun⟩ | ⟨u, c', hok, hrun⟩ | ⟨e, -, hrun⟩ :=
    fate.run_cases (completeAction now call.ownerRef call.request value) c
  · rw [hrun]
    exact .inl (hrecorded u c' hok)
  · rw [hrun]
    exact .inl (hrecorded u c' hok)
  · rw [hrun]
    exact .inr rfl

/-- **One step.** -/
theorem turn : Turn p i c call call.phase (call.step p i c).1 (call.step p i c).2 := by
  unfold step
  cases hphase : call.phase with
  | received =>
    cases hvalid : validateActionTarget call.request with
    | ok u => exact .validated hvalid
    | error fault => exact .rejected fault hvalid
  | claim =>
    obtain ⟨hheld, hrun⟩ | ⟨c', hins, hrun⟩ | ⟨e, c', hins, hrun⟩ | ⟨e, hrun⟩ :=
      insert_cases c call i.fate
    · rw [hrun]
      exact .held hheld
    · rw [hrun]
      exact .granted c' hins
    · rw [hrun]
      exact .unacknowledged c' hins
    · rw [hrun]
      exact .unclaimed
  | lookup =>
    obtain ⟨claim, c', hok, hrun⟩ | ⟨claim, c', hok, hrun⟩ | ⟨e, -, hrun⟩ :=
      i.fate.run_cases (select (existingClaim call.ownerRef call.request)) c
    · obtain ⟨rfl, rfl⟩ := select_eq_ok.mp hok
      rw [hrun]
      exact .replayed
    · obtain ⟨rfl, rfl⟩ := select_eq_ok.mp hok
      rw [hrun]
      exact .unread
    · rw [hrun]
      exact .unread
  | executing =>
    cases hexec : executeAction p i.env call.userId call.request with
    | ok result => exact .executed result hexec
    | error fault => exact .faulted fault hexec
  | completing result =>
    rcases complete_cases c call i.fate i.now (p.resultValue result) with hrec | hsame
    · exact .recorded result _ hrec
    · show Turn p i c call _ _ (i.fate.run _ c).2
      rw [hsame]
      exact .unrecorded result
  | answered granted reply => exact .done granted reply

variable {p i c call}
variable {phase next : ActionPhase} {c' : Catalog}

/-- What one step does to the attempts, by the phase it is taken in. -/
theorem Turn.attempts (h : Turn p i c call phase next c') :
    c'.tables.repositoryActionAttempts = c.tables.repositoryActionAttempts ∨ call.Inserted c c' ∨
      ∃ result, phase = .completing result ∧ call.Recorded i.now (p.resultValue result) c c' := by
  cases h with
  | granted _ h => exact .inr (.inl h)
  | unacknowledged _ h => exact .inr (.inl h)
  | recorded result _ h => exact .inr (.inr ⟨result, rfl, h⟩)
  | _ => exact .inl rfl

/-- A request is granted by its own insertion, and only then. -/
theorem Turn.granted_cases (h : Turn p i c call phase next c') (hgranted : next.granted = true) :
    phase.granted = true ∨ call.Inserted c c' := by
  cases h with
  | granted _ hins => exact .inr hins
  | executed | faulted | recorded | unrecorded => exact .inl rfl
  | done => exact .inl hgranted
  | _ => cases hgranted

/-- A computed result stays. -/
theorem Turn.computed (h : Turn p i c call phase next c') {result : RepositoryActionResult}
    (hcomputed : phase.computed = some result) : next.computed = some result := by
  cases h with
  | recorded | unrecorded | done => exact hcomputed
  | _ => cases hcomputed

variable (p i c call)

/-- The process of a request keeps who asks and what is asked. -/
theorem next_request : (call.next p i c).1.request = call.request ∧
    (call.next p i c).1.userId = call.userId := by
  unfold next
  split
  · exact ⟨rfl, rfl⟩
  · split
    · exact ⟨rfl, rfl⟩
    · exact ⟨rfl, rfl⟩

/-- A process keeps its phase, or takes its step. -/
theorem next_phase : (call.next p i c).1.phase = call.phase ∨
    ((call.next p i c).1.phase = (call.step p i c).1 ∧
      (call.next p i c).2 = (call.step p i c).2) := by
  unfold next
  split
  · exact .inl rfl
  · split
    · exact .inl rfl
    · exact .inr ⟨rfl, rfl⟩

/-- The store of a process step is the one of its statement, or untouched. -/
theorem next_store : (call.next p i c).2 = c ∨ (call.next p i c).2 = (call.step p i c).2 := by
  unfold next
  split
  · exact .inl rfl
  · split
    · exact .inr rfl
    · exact .inr rfl

end ActionCall

/-! ### The attempts along a run -/

/-- Completed attempts stay as they are, and every attempt keeps its owner, key and body. -/
structure Grows (t t' : List RepositoryActionAttempt) : Prop where
  completed : ∀ a ∈ t, a.status = .completed → a ∈ t'
  kept : ∀ a ∈ t, ∃ a' ∈ t', a'.idempotencyKey = a.idempotencyKey ∧ a'.ownerRef = a.ownerRef ∧
    a'.requestFingerprint = a.requestFingerprint

namespace Grows

theorem refl (t : List RepositoryActionAttempt) : Grows t t :=
  ⟨fun _ ha _ => ha, fun a ha => ⟨a, ha, rfl, rfl, rfl⟩⟩

theorem trans {t u v : List RepositoryActionAttempt} (h : Grows t u) (h' : Grows u v) :
    Grows t v where
  completed a ha hdone := h'.completed a (h.completed a ha hdone) hdone
  kept a ha := by
    obtain ⟨b, hb, hkey, howner, hbody⟩ := h.kept a ha
    obtain ⟨d, hd, hkey', howner', hbody'⟩ := h'.kept b hb
    exact ⟨d, hd, hkey'.trans hkey, howner'.trans howner, hbody'.trans hbody⟩

theorem append (t : List RepositoryActionAttempt) (a : RepositoryActionAttempt) :
    Grows t (t ++ [a]) where
  completed _ hb _ := List.mem_append_left _ hb
  kept b hb := ⟨b, List.mem_append_left _ hb, rfl, rfl, rfl⟩

theorem record (call : ActionCall) (now : Time) (value : Jsonb) (t : List RepositoryActionAttempt) :
    Grows t (updateWhere call.completes (ActionCall.record now value) t) where
  completed a ha hdone := by
    refine mem_updateWhere.mpr ⟨a, ha, ?_⟩
    rw [if_neg]
    intro hcompletes
    rw [(ActionCall.completes_iff.mp hcompletes).2] at hdone
    cases hdone
  kept a ha := by
    refine ⟨_, mem_updateWhere.mpr ⟨a, ha, rfl⟩, ?_⟩
    split
    · exact ⟨rfl, rfl, rfl⟩
    · exact ⟨rfl, rfl, rfl⟩

end Grows

namespace ActionSystem

variable (p : ActionContracts) (k : Contracts)

theorem step_call_none {s : ActionSystem} {n : ℕ} (h : s.calls[n]? = none) (i : ActionInput) :
    s.step p k (.call n i) = s := by
  simp only [step, h]

theorem step_call_some {s : ActionSystem} {n : ℕ} {call : ActionCall} (h : s.calls[n]? = some call)
    (i : ActionInput) :
    s.step p k (.call n i) =
      ⟨(call.next p i s.catalog).2, s.calls.set n (call.next p i s.catalog).1⟩ := by
  simp only [step, h]

theorem attempts_catalog (s : ActionSystem) {op : Operation}
    (hop : op.leaves .repositoryActionAttempts = true) :
    (s.step p k (.catalog op)).attempts = s.attempts := by
  show (GithubCatalog.step k s.catalog op).tables.repositoryActionAttempts = _
  unfold GithubCatalog.step
  split
  · exact op.rows_commit k s.catalog .repositoryActionAttempts hop
  · rfl

/-- **One event keeps what was recorded.** -/
theorem grows_step (s : ActionSystem) (e : ActionEvent) (he : e.sparesAttempts = true) :
    Grows s.attempts (s.step p k e).attempts := by
  cases e with
  | catalog op =>
    rw [attempts_catalog p k s he]
    exact Grows.refl _
  | call n i =>
    cases hcall : s.calls[n]? with
    | none =>
      rw [step_call_none p k hcall]
      exact Grows.refl _
    | some call =>
      rw [step_call_some p k hcall]
      show Grows s.catalog.tables.repositoryActionAttempts
        (call.next p i s.catalog).2.tables.repositoryActionAttempts
      rcases call.next_store p i s.catalog with hstore | hstore
      · rw [hstore]
        exact Grows.refl _
      · rw [hstore]
        rcases (call.turn p i s.catalog).attempts with hsame | ⟨-, hins⟩ | ⟨result, -, hrec⟩
        · rw [hsame]
          exact Grows.refl _
        · rw [hins]
          exact Grows.append _ _
        · rw [hrec]
          exact Grows.record _ _ _ _

/-- Whole runs keep it too. -/
theorem grows_run (s : ActionSystem) (events : List ActionEvent)
    (hevents : ∀ e ∈ events, e.sparesAttempts = true) :
    Grows s.attempts (runFrom (step p k) s events).attempts := by
  induction events generalizing s with
  | nil => exact Grows.refl _
  | cons e events ih =>
    have hfirst := grows_step p k s e (hevents e List.mem_cons_self)
    exact hfirst.trans (ih (s.step p k e) fun e' he' => hevents e' (List.mem_cons_of_mem _ he'))

end ActionSystem

/-! ### The invariant -/

/-- The answer of a request that was not granted: a refused target, a conflict, a persistence fault,
or the recorded result of a completed attempt of its own owner, key and body. -/
def Answers (p : ActionContracts) (attempts : List RepositoryActionAttempt) (call : ActionCall)
    (reply : Except ApiFault RepositoryActionResult) : Prop :=
  (∃ fault, validateActionTarget call.request = .error fault ∧ reply = .error fault) ∨
    reply = .error .idempotencyConflict ∨ reply = .error .persistence ∨
    ∃ a ∈ attempts, call.Holds a ∧ a.status = .completed ∧
      ∃ value result, a.result = some value ∧ p.resultOf value = some result ∧ reply = .ok result

/-- The attempt was completed before the run, or by a granted request with the result it
computed. -/
def Produced (p : ActionContracts) (start : List RepositoryActionAttempt) (calls : List ActionCall)
    (a : RepositoryActionAttempt) : Prop :=
  a ∈ start ∨ ∃ call ∈ calls, call.Holds a ∧ ∃ result, call.phase.computed = some result ∧
    a.result = some (p.resultValue result)

structure Replays (p : ActionContracts) (start : List RepositoryActionAttempt) (s : ActionSystem) :
    Prop where
  held : ∀ call ∈ s.calls, call.phase.granted = true → ∃ a ∈ s.attempts, call.Holds a
  single : ∀ (n m : ℕ) (call call' : ActionCall), s.calls[n]? = some call → s.calls[m]? = some call' →
    call.request.idempotencyKey = call'.request.idempotencyKey → call.phase.granted = true →
    call'.phase.granted = true → n = m
  produced : ∀ a ∈ s.attempts, a.status = .completed → Produced p start s.calls a
  answers : ∀ call ∈ s.calls, ∀ reply, call.phase = .answered false reply →
    Answers p s.attempts call reply

namespace ActionCall

variable {p : ActionContracts} {i : ActionInput} {c : Catalog} {call : ActionCall}

theorem granted_next (h : (call.next p i c).1.phase.granted = true) :
    call.phase.granted = true ∨ call.Inserted c (call.next p i c).2 := by
  rcases call.next_phase p i c with hsame | ⟨hstep, hstore⟩
  · exact .inl (hsame ▸ h)
  · rw [hstore]
    exact (call.turn p i c).granted_cases (hstep ▸ h)

theorem computed_next {result : RepositoryActionResult} (h : call.phase.computed = some result) :
    (call.next p i c).1.phase.computed = some result := by
  rcases call.next_phase p i c with hsame | ⟨hstep, -⟩
  · rw [hsame]
    exact h
  · rw [hstep]
    exact (call.turn p i c).computed h

theorem holds_next {a : RepositoryActionAttempt} :
    (call.next p i c).1.Holds a ↔ call.Holds a := by
  obtain ⟨hrequest, huser⟩ := call.next_request p i c
  constructor
  · intro h
    exact ⟨hrequest ▸ h.key, by rw [h.owner, ownerRef, huser, ownerRef], hrequest ▸ h.fingerprint⟩
  · intro h
    exact ⟨hrequest.symm ▸ h.key, by rw [h.owner, ownerRef, ownerRef, huser],
      hrequest.symm ▸ h.fingerprint⟩

/-- What a lookup answers. -/
theorem answers_replied (call : ActionCall) (c : Catalog) :
    Answers p c.tables.repositoryActionAttempts call
      (replied p (existingClaim call.ownerRef call.request c.tables)) := by
  unfold existingClaim
  cases hfind : c.tables.repositoryActionAttempts.find? fun a =>
      decide (a.idempotencyKey = call.request.idempotencyKey) with
  | none => exact .inr (.inl rfl)
  | some a =>
    have hkey : a.idempotencyKey = call.request.idempotencyKey := by
      have := List.find?_some hfind
      exact of_decide_eq_true this
    dsimp only
    split
    · exact .inr (.inl rfl)
    · next hsame =>
      rw [not_or, not_ne_iff, not_ne_iff] at hsame
      cases hstatus : a.status with
      | inProgress => exact .inr (.inl rfl)
      | completed =>
        cases hresult : a.result with
        | none => exact .inr (.inl rfl)
        | some value =>
          show Answers p _ call (replied p (.replay value))
          cases hread : p.resultOf value with
          | none =>
            rw [replied_unread p hread]
            exact .inr (.inr (.inl rfl))
          | some result =>
            rw [replied_read p hread]
            exact .inr (.inr (.inr ⟨a, List.mem_of_find?_eq_some hfind, ⟨hkey, hsame.1, hsame.2⟩,
              hstatus, value, result, hresult, hread, rfl⟩))

/-- The answer of a request that was not granted, at the step it is given. -/
theorem Turn.answers {phase : ActionPhase} {c' : Catalog}
    {reply : Except ApiFault RepositoryActionResult}
    (h : Turn p i c call phase (.answered false reply) c') :
    phase = .answered false reply ∨ Answers p c.tables.repositoryActionAttempts call reply := by
  cases h with
  | rejected fault hfault => exact .inr (.inl ⟨fault, hfault, rfl⟩)
  | unclaimed => exact .inr (.inr (.inr (.inl rfl)))
  | unacknowledged => exact .inr (.inr (.inr (.inl rfl)))
  | replayed => exact .inr (answers_replied call c)
  | unread => exact .inr (.inr (.inr (.inl rfl)))
  | done => exact .inl rfl

end ActionCall

/-- The answer is to who asks and to what is asked, not to where the process stands. -/
theorem Answers.next {p : ActionContracts} {t : List RepositoryActionAttempt} {call : ActionCall}
    {reply : Except ApiFault RepositoryActionResult} (h : Answers p t call reply) (i : ActionInput)
    {c : Catalog} : Answers p t (call.next p i c).1 reply := by
  rcases h with ⟨fault, hfault, hreply⟩ | h | h | ⟨a, ha, hholds, hrest⟩
  · exact .inl ⟨fault, by rw [(call.next_request p i c).1, hfault], hreply⟩
  · exact .inr (.inl h)
  · exact .inr (.inr (.inl h))
  · exact .inr (.inr (.inr ⟨a, ha, ActionCall.holds_next.mpr hholds, hrest⟩))

/-- More attempts, the same answers. -/
theorem Answers.grows {p : ActionContracts} {t t' : List RepositoryActionAttempt} {call : ActionCall}
    {reply : Except ApiFault RepositoryActionResult} (h : Answers p t call reply)
    (hgrows : Grows t t') : Answers p t' call reply := by
  rcases h with h | h | h | ⟨a, ha, hholds, hdone, hresult⟩
  · exact .inl h
  · exact .inr (.inl h)
  · exact .inr (.inr (.inl h))
  · exact .inr (.inr (.inr ⟨a, hgrows.completed a ha hdone, hholds, hdone, hresult⟩))

namespace Replays

variable {p : ActionContracts} {k : Contracts} {start : List RepositoryActionAttempt}
  {s : ActionSystem}

/-- An operation that spares the attempts keeps the invariant. -/
theorem catalog_step (h : Replays p start s) {op : Operation}
    (hop : op.leaves .repositoryActionAttempts = true) :
    Replays p start (s.step p k (.catalog op)) := by
  have hsame : (s.step p k (.catalog op)).attempts = s.attempts :=
    ActionSystem.attempts_catalog p k s hop
  exact ⟨hsame ▸ h.held, h.single, hsame ▸ h.produced, hsame ▸ h.answers⟩

/-- A producer that takes a step is a producer still. -/
theorem produced_set {n : ℕ} {call : ActionCall} (hcall : s.calls[n]? = some call) (i : ActionInput)
    {a : RepositoryActionAttempt} (h : Produced p start s.calls a) :
    Produced p start (s.calls.set n (call.next p i s.catalog).1) a := by
  rcases h with h | ⟨producer, hmem, hholds, result, hcomputed, hresult⟩
  · exact .inl h
  · right
    obtain ⟨m, hm⟩ := List.mem_iff_getElem?.mp hmem
    by_cases hmn : n = m
    · subst hmn
      obtain rfl : call = producer := Option.some.inj (hcall.symm.trans hm)
      have hlt : n < s.calls.length := (List.getElem?_eq_some_iff.mp hcall).1
      exact ⟨_, List.mem_set hlt _, ActionCall.holds_next.mpr hholds, result,
        ActionCall.computed_next hcomputed, hresult⟩
    · have hkept : (s.calls.set n (call.next p i s.catalog).1)[m]? = some producer := by
        rw [List.getElem?_set_ne hmn]
        exact hm
      exact ⟨producer, List.mem_of_getElem? hkept, hholds, result, hcomputed, hresult⟩

/-- The attempts a step completes are produced by its request. -/
theorem produced_next (h : Replays p start s) {n : ℕ} {call : ActionCall}
    (hcall : s.calls[n]? = some call) (i : ActionInput) {a : RepositoryActionAttempt}
    (ha : a ∈ (call.next p i s.catalog).2.tables.repositoryActionAttempts)
    (hdone : a.status = .completed) :
    Produced p start (s.calls.set n (call.next p i s.catalog).1) a := by
  have hold : a ∈ s.attempts →
      Produced p start (s.calls.set n (call.next p i s.catalog).1) a := fun hmem =>
    produced_set hcall i (h.produced a hmem hdone)
  rcases call.next_store p i s.catalog with hstore | hstore
  · rw [hstore] at ha
    exact hold ha
  · rw [hstore] at ha
    rcases (call.turn p i s.catalog).attempts with hsame | ⟨-, hins⟩ | ⟨result, hphase, hrec⟩
    · rw [hsame] at ha
      exact hold ha
    · rw [hins] at ha
      rcases List.mem_append.mp ha with hmem | hmem
      · exact hold hmem
      · rw [List.mem_singleton.mp hmem] at hdone
        cases hdone
    · rw [hrec] at ha
      obtain ⟨b, hb, rfl⟩ := mem_updateWhere.mp ha
      by_cases hcompletes : call.completes b = true
      · have hlt : n < s.calls.length := (List.getElem?_eq_some_iff.mp hcall).1
        rw [if_pos hcompletes]
        obtain ⟨hholds, -⟩ := ActionCall.completes_iff.mp hcompletes
        refine .inr ⟨_, List.mem_set hlt _, ActionCall.holds_next.mpr ?_, result, ?_, rfl⟩
        · exact ⟨hholds.key, hholds.owner, hholds.fingerprint⟩
        · exact ActionCall.computed_next (by rw [hphase]; rfl)
      · rw [if_neg hcompletes] at hdone ⊢
        rw [if_neg hcompletes] at hold
        exact hold hb

/-- A granted request keeps its key from the others. -/
theorem not_inserted (h : Replays p start s) {call call' : ActionCall} {c' : Catalog}
    (hmem : call' ∈ s.calls) (hgranted : call'.phase.granted = true)
    (hkey : call.request.idempotencyKey = call'.request.idempotencyKey) :
    ¬ call.Inserted s.catalog c' := by
  rintro ⟨hfree, -⟩
  obtain ⟨a, ha, hholds⟩ := h.held call' hmem hgranted
  rw [keyHeld, List.any_eq_false] at hfree
  exact hfree a ha (decide_eq_true (hholds.key.trans hkey.symm))

/-- **One step of a request keeps the invariant.** -/
theorem call_step (h : Replays p start s) {n : ℕ} {call : ActionCall}
    (hcall : s.calls[n]? = some call) (i : ActionInput) :
    Replays p start (s.step p k (.call n i)) := by
  have hgrows : Grows s.attempts (s.step p k (.call n i)).attempts :=
    ActionSystem.grows_step p k s (.call n i) rfl
  rw [ActionSystem.step_call_some p k hcall] at hgrows ⊢
  have hmem : call ∈ s.calls := List.mem_of_getElem? hcall
  have hlt : n < s.calls.length := (List.getElem?_eq_some_iff.mp hcall).1
  have hrequest := (call.next_request p i s.catalog).1
  refine ⟨?_, ?_, ?_, ?_⟩
  · intro call₀ hcall₀ hgranted
    have hkept : (∃ a ∈ s.attempts, call₀.Holds a) →
        ∃ a ∈ (call.next p i s.catalog).2.tables.repositoryActionAttempts, call₀.Holds a := by
      rintro ⟨a, ha, hholds⟩
      obtain ⟨b, hb, hkey, howner, hbody⟩ := hgrows.kept a ha
      exact ⟨b, hb, hkey.trans hholds.key, howner.trans hholds.owner,
        hbody.trans hholds.fingerprint⟩
    rcases List.mem_or_eq_of_mem_set hcall₀ with hold | rfl
    · exact hkept (h.held call₀ hold hgranted)
    · rcases ActionCall.granted_next hgranted with hbefore | ⟨-, hins⟩
      · obtain ⟨a, ha, hholds⟩ := h.held call hmem hbefore
        exact hkept ⟨a, ha, ActionCall.holds_next.mpr hholds⟩
      · refine ⟨attemptRow call.ownerRef call.request, ?_,
          ActionCall.holds_next.mpr ⟨rfl, rfl, rfl⟩⟩
        show _ ∈ (call.next p i s.catalog).2.tables.repositoryActionAttempts
        rw [hins]
        exact List.mem_append_right _ List.mem_cons_self
  · -- A newly granted request would have found its key held.
    have hother : ∀ m call', m ≠ n → s.calls[m]? = some call' →
        (call.next p i s.catalog).1.request.idempotencyKey = call'.request.idempotencyKey →
        (call.next p i s.catalog).1.phase.granted = true → call'.phase.granted = true → False := by
      intro m call' hne hm hkey hgranted hgranted'
      rw [hrequest] at hkey
      rcases ActionCall.granted_next hgranted with hbefore | hins
      · exact hne (h.single m n call' call hm hcall hkey.symm hgranted' hbefore)
      · exact h.not_inserted (List.mem_of_getElem? hm) hgranted' hkey hins
    intro m m' call₁ call₂ h₁ h₂ hkey hgranted₁ hgranted₂
    by_cases hm : n = m
    · by_cases hm' : n = m'
      · rw [← hm, hm']
      · subst hm
        rw [List.getElem?_set_self hlt] at h₁
        rw [List.getElem?_set_ne hm'] at h₂
        obtain rfl := Option.some.inj h₁
        exact (hother m' call₂ (Ne.symm hm') h₂ hkey hgranted₁ hgranted₂).elim
    · rw [List.getElem?_set_ne hm] at h₁
      by_cases hm' : n = m'
      · subst hm'
        rw [List.getElem?_set_self hlt] at h₂
        obtain rfl := Option.some.inj h₂
        exact (hother m call₁ (Ne.symm hm) h₁ hkey.symm hgranted₂ hgranted₁).elim
      · rw [List.getElem?_set_ne hm'] at h₂
        exact h.single m m' call₁ call₂ h₁ h₂ hkey hgranted₁ hgranted₂
  · intro a ha hdone
    exact h.produced_next hcall i ha hdone
  · intro call₀ hcall₀ reply hreply
    rcases List.mem_or_eq_of_mem_set hcall₀ with hold | rfl
    · exact (h.answers call₀ hold reply hreply).grows hgrows
    · have hbefore : Answers p s.attempts call reply := by
        rcases call.next_phase p i s.catalog with hsame | ⟨hstep, -⟩
        · exact h.answers call hmem reply (hsame ▸ hreply)
        · have hturn := call.turn p i s.catalog
          rw [← hstep, hreply] at hturn
          rcases hturn.answers with hdone | hanswers
          · exact h.answers call hmem reply hdone
          · exact hanswers
      exact (hbefore.next i).grows hgrows

/-- **One event.** -/
theorem step (h : Replays p start s) (e : ActionEvent) (he : e.sparesAttempts = true) :
    Replays p start (s.step p k e) := by
  cases e with
  | catalog op => exact h.catalog_step he
  | call n i =>
    cases hcall : s.calls[n]? with
    | none =>
      rw [ActionSystem.step_call_none p k hcall]
      exact h
    | some call => exact h.call_step hcall i

end Replays

/-- A system whose requests have just arrived. -/
def ActionSystem.Arrived (s : ActionSystem) : Prop := ∀ call ∈ s.calls, call.phase = .received

theorem Replays.arrived {p : ActionContracts} {s : ActionSystem} (h : s.Arrived) :
    Replays p s.attempts s where
  held call hcall hgranted := by
    rw [h call hcall] at hgranted
    cases hgranted
  single n m call call' hn hm _ hgranted _ := by
    rw [h call (List.mem_of_getElem? hn)] at hgranted
    cases hgranted
  produced a ha _ := .inl ha
  answers call hcall reply hreply := by
    rw [h call hcall] at hreply
    cases hreply

/-- **Whole runs.** -/
theorem Replays.run {p : ActionContracts} {k : Contracts} {start : List RepositoryActionAttempt}
    {s : ActionSystem} (h : Replays p start s) (events : List ActionEvent)
    (hevents : ∀ e ∈ events, e.sparesAttempts = true) :
    Replays p start (runFrom (ActionSystem.step p k) s events) := by
  induction events generalizing s with
  | nil => exact h
  | cons e events ih =>
    exact ih (h.step e (hevents e List.mem_cons_self))
      fun e' he' => hevents e' (List.mem_cons_of_mem _ he')

/-- **Single execution and replay.**  Requests arrive at a catalog with any attempts, and their
statements run in any order, with any fates and crashes, among operations that erase no account.
Then at most one request per key is granted execution; a request that is not granted is answered with
a refused target, a conflict, a persistence fault, or the result recorded on a completed attempt of
its own owner, key and body, which was recorded before the run or computed by the granted request of
that owner, key and body; and a completed attempt never changes. -/
theorem action_single_execution (p : ActionContracts) (k : Contracts) (start : ActionSystem)
    (harrived : start.Arrived) (events : List ActionEvent)
    (hevents : ∀ e ∈ events, e.sparesAttempts = true) :
    let s := runFrom (ActionSystem.step p k) start events
    (∀ (n m : ℕ) (call call' : ActionCall), s.calls[n]? = some call → s.calls[m]? = some call' →
      call.request.idempotencyKey = call'.request.idempotencyKey → call.phase.granted = true →
      call'.phase.granted = true → n = m) ∧
    (∀ call ∈ s.calls, ∀ reply, call.phase = .answered false reply →
      (∃ fault, validateActionTarget call.request = .error fault ∧ reply = .error fault) ∨
      reply = .error .idempotencyConflict ∨ reply = .error .persistence ∨
      ∃ a ∈ s.attempts, call.Holds a ∧ a.status = .completed ∧ ∃ value result,
        a.result = some value ∧ p.resultOf value = some result ∧ reply = .ok result ∧
        (a ∈ start.attempts ∨ ∃ producer ∈ s.calls, producer.Holds a ∧
          producer.phase.computed = some result)) ∧
    ∀ later : List ActionEvent, (∀ e ∈ later, e.sparesAttempts = true) →
      ∀ a ∈ s.attempts, a.status = .completed →
        a ∈ (runFrom (ActionSystem.step p k) s later).attempts := by
  intro s
  have h : Replays p start.attempts s := (Replays.arrived harrived).run events hevents
  refine ⟨h.single, ?_, ?_⟩
  · intro call hcall reply hreply
    rcases h.answers call hcall reply hreply with hfault | hconflict | hfail |
      ⟨a, ha, hholds, hdone, value, result, hvalue, hread, hok⟩
    · exact .inl hfault
    · exact .inr (.inl hconflict)
    · exact .inr (.inr (.inl hfail))
    · refine .inr (.inr (.inr ⟨a, ha, hholds, hdone, value, result, hvalue, hread, hok, ?_⟩))
      rcases h.produced a ha hdone with hstart | ⟨producer, hmem, hproducer, computed, hcomp, hres⟩
      · exact .inl hstart
      · -- The producer's result is the one read back.
        have hvalue' : value = p.resultValue computed := Option.some.inj (hvalue.symm.trans hres)
        rw [hvalue', p.resultOf_resultValue] at hread
        exact .inr ⟨producer, hmem, hproducer, hread ▸ hcomp⟩
  · intro later hlater a ha hdone
    exact (ActionSystem.grows_run p k s later hlater).completed a ha hdone

/-- The same request arrives twice. -/
def requestedTwice : ActionSystem :=
  ⟨emptyCatalog, [⟨5, sampleAction, .received, false⟩, ⟨5, sampleAction, .received, false⟩]⟩

/-- A step of a request in which nothing fails. -/
def servedStep (n : ℕ) : ActionEvent := .call n ⟨0, .served, false, sampleEnvironment⟩

/-- The second request claims while the first executes, and looks up when the first has answered. -/
def interleavedRequests : List ActionEvent := [0, 0, 1, 1, 0, 0, 1].map servedStep

/-- Both are answered with the one recorded result, and one of them was granted. -/
theorem action_single_execution_replayed :
    let s := runFrom (ActionSystem.step sampleActions sampleContracts) requestedTwice
      interleavedRequests
    s.calls.map (·.phase) =
      [.answered true (.ok ⟨.succeeded, .skipped .notApplicable, .skipped .notApplicable⟩),
        .answered false (.ok ⟨.succeeded, .skipped .notApplicable, .skipped .notApplicable⟩)] ∧
    ∀ (n m : ℕ) (call call' : ActionCall), s.calls[n]? = some call → s.calls[m]? = some call' →
      call.request.idempotencyKey = call'.request.idempotencyKey → call.phase.granted = true →
      call'.phase.granted = true → n = m := by
  have harrived : requestedTwice.Arrived := by
    intro call hcall
    rcases List.mem_cons.mp hcall with rfl | hcall
    · rfl
    · rw [List.mem_singleton.mp hcall]
  exact ⟨by decide +kernel, (action_single_execution sampleActions sampleContracts requestedTwice
    harrived interleavedRequests (by decide)).1⟩

end GithubCatalog
