import GithubCatalog.MutationReplay
import GithubCatalog.StarTargets

/-!
# Batches of mutations (`mutations.rs`, `mutation_trail.rs`)

`execute_batch` executes its requests one after another and stops at the first error; refusals,
failures and budget pauses are outcomes, not errors.  A call ends within nine interactions.  Before
each of them the provider may change and other flows may commit operations.

* `executeMutation`, `executeBatch` - a call and a batch, run to their ends;
* `Execution.Served` - no local persistence fails;
* `Execution.Steady` - the account is connected with the given scopes;
* `batch_resubmitted` - the outcomes of a batch, and of the same batch submitted again.
-/

namespace GithubCatalog

open Relational Transact Runs

/-! ### One call -/

/-- What other flows and the provider do between two interactions of a call. -/
inductive Disturbance where
  | catalog (op : Operation)
  | upstream (u : Upstream)

def World.disturb (k : Contracts) (w : World) : Disturbance → World
  | .catalog op => { w with catalog := step k w.catalog op }
  | .upstream u => { w with upstream := u }

/-- An interaction of a call, with what happens before it. -/
structure Moment where
  before : List Disturbance := []
  input : StepInput

structure MutationOutcome where
  idempotencyKey : String
  status : MutationStatus
deriving DecidableEq

/-- The interaction is with the provider. -/
def Phase.contacts : Phase → Bool
  | resolve _ | write _ _ => true
  | _ => false

/-- A call in a world that it does not have to itself, and whether it contacted the provider. -/
structure Execution where
  call : Mutation
  world : World
  contacted : Bool

namespace Execution

/-- The world that the next interaction meets. -/
def met (k : Contracts) (x : Execution) (t : Moment) : World :=
  runFrom (World.disturb k) x.world t.before

/-- One interaction; a call that is over has no more. -/
def step (k : Contracts) (x : Execution) (t : Moment) : Execution :=
  if x.call.phase.ended then x
  else ⟨x.call.next t.input (x.met k t), (x.call.step t.input (x.met k t)).2,
    x.contacted || x.call.phase.contacts⟩

/-- What the call returns, once it is over. -/
def outcome (x : Execution) : Option (Except CatalogError MutationOutcome) :=
  match x.call.phase with
  | .raised e => some (.error e)
  | phase => phase.status.map fun status => .ok ⟨x.call.request.idempotencyKey, status⟩

/-- The call ended Applied or AlreadyApplied. -/
def succeeded (x : Execution) : Bool := reportedSuccess x.call.phase.status

end Execution

/-- The interactions a call has left, at most. -/
def Phase.remaining : Phase → ℕ
  | authorize => 9
  | replay => 8
  | exclusion => 7
  | budget => 6
  | target _ _ => 5
  | memberships _ _ _ => 4
  | resolve _ => 3
  | write _ _ => 2
  | persist _ | conclude _ _ _ => 1
  | returned _ _ | outraced _ | raised _ => 0

/-- A call before its first interaction. -/
def begunCall (context : MutationContext) (request : MutationRequest) (w : World) : Execution :=
  ⟨⟨context, request, .authorize⟩, w, false⟩

/-- The interactions of a call. -/
def callMoments (moments : ℕ → Moment) : List Moment :=
  (List.range Phase.authorize.remaining).map moments

/-- `execute_mutation`. -/
def executeMutation (k : Contracts) (context : MutationContext) (request : MutationRequest)
    (moments : ℕ → Moment) (w : World) : Execution :=
  runFrom (Execution.step k) (begunCall context request w) (callMoments moments)

/-! ### Batches -/

/-- What a batch answers, the calls it made and the world it left. -/
structure BatchReport where
  answer : Option (Except CatalogError (List MutationOutcome))
  calls : List Execution
  world : World

/-- A call of the loop, before the rest of it: an error ends the batch. -/
def BatchReport.preceded (rest : BatchReport) (x : Execution) : BatchReport :=
  match x.outcome with
  | some (.ok outcome) =>
    ⟨rest.answer.map fun answer => answer.map (outcome :: ·), x :: rest.calls, rest.world⟩
  | some (.error e) => ⟨some (.error e), [x], x.world⟩
  | none => ⟨none, [x], x.world⟩

/-- `execute_batch`: the moments of the request `n` are those of its own call. -/
def executeBatch (k : Contracts) (context : MutationContext) :
    List MutationRequest → (ℕ → ℕ → Moment) → World → BatchReport
  | [], _, w => ⟨some (.ok []), [], w⟩
  | request :: requests, moments, w =>
    let x := executeMutation k context request (moments 0) w
    (executeBatch k context requests (fun n => moments (n + 1)) x.world).preceded x

/-- The calls of the requests one after another, whatever they return. -/
def oneAfterAnother (k : Contracts) (context : MutationContext) :
    List MutationRequest → (ℕ → ℕ → Moment) → World → List Execution
  | [], _, _ => []
  | request :: requests, moments, w =>
    let x := executeMutation k context request (moments 0) w
    x :: oneAfterAnother k context requests (fun n => moments (n + 1)) x.world

/-- Every interaction of the calls meets a guard. -/
def EveryCall (k : Contracts) (context : MutationContext) (G : Execution → Moment → Prop) :
    List MutationRequest → (ℕ → ℕ → Moment) → World → Prop
  | [], _, _ => True
  | request :: requests, moments, w =>
    Guarded (Execution.step k) G (begunCall context request w) (callMoments (moments 0)) ∧
      EveryCall k context G requests (fun n => moments (n + 1))
        (executeMutation k context request (moments 0) w).world

instance (k : Contracts) (context : MutationContext) (G : Execution → Moment → Prop)
    [∀ x t, Decidable (G x t)] : ∀ (requests : List MutationRequest) (moments : ℕ → ℕ → Moment)
      (w : World), Decidable (EveryCall k context G requests moments w)
  | [], _, _ => inferInstanceAs (Decidable True)
  | request :: requests, moments, w =>
    have := instDecidableEveryCall k context G requests (fun n => moments (n + 1))
      (executeMutation k context request (moments 0) w).world
    inferInstanceAs (Decidable (Guarded (Execution.step k) G (begunCall context request w)
      (callMoments (moments 0)) ∧ EveryCall k context G requests (fun n => moments (n + 1))
        (executeMutation k context request (moments 0) w).world))

theorem everyCall_cons {k : Contracts} {context : MutationContext} {G : Execution → Moment → Prop}
    {request : MutationRequest} {requests : List MutationRequest} {moments : ℕ → ℕ → Moment}
    {w : World} : EveryCall k context G (request :: requests) moments w ↔
      Guarded (Execution.step k) G (begunCall context request w) (callMoments (moments 0)) ∧
        EveryCall k context G requests (fun n => moments (n + 1))
          (executeMutation k context request (moments 0) w).world := by
  rw [EveryCall]

/-! ### Guards -/

/-- The local transaction of the interaction, if it has one, ends without an error but a lost key. -/
def Mutation.persists (m : Mutation) (i : StepInput) (c : Catalog) : Bool :=
  match m.phase with
  | .persist wrote =>
    ((wrote.plan.persist i.ids i.now m.context m.pid m.request.idempotencyKey).failure c).all fun e =>
      decide (e = .keyTaken)
  | .conclude outcome reason _ =>
    ((recordAttempt i.ids m.context m.pid m.request.kind m.request.idempotencyKey outcome
      (reasonDetail reason)).failure c).isNone
  | _ => true

/-- The account is connected with these scopes. -/
def connectedWith (accountId : Uuid) (scopes : List String) (db : Database) : Bool :=
  (db.githubAccounts.find? fun a => decide (a.accountId = accountId)).any fun a =>
    decide (a.status = .connected) && decide (a.grantedScopes = scopes)

/-- Whether scopes satisfy the capability that a request demands. -/
def MutationRequest.satisfiedBy (request : MutationRequest) (scopes : List String) : Bool :=
  (acceptedScopes request.membership.isSome).any fun s => scopes.contains s

/-- The other flows erase no account. -/
def Disturbance.spares : Disturbance → Bool
  | catalog op => !op.erases
  | upstream _ => true

namespace Execution

/-- No local persistence fails. -/
def Served (k : Contracts) (x : Execution) (t : Moment) : Prop :=
  x.call.phase.ended = true ∨
    (t.input.fate = .served ∧ x.call.persists t.input (x.met k t).catalog = true)

/-- The account is connected with these scopes, no account is erased, and the audit id is new. -/
def Steady (k : Contracts) (scopes : List String) (x : Execution) (t : Moment) : Prop :=
  x.call.phase.ended = true ∨
    (connectedWith x.call.context.accountId scopes (x.met k t).catalog.tables = true ∧
      (t.before.all (·.spares)) = true ∧ FreshAudit (x.met k t) t.input)

instance (k : Contracts) (x : Execution) (t : Moment) : Decidable (Served k x t) :=
  inferInstanceAs (Decidable (_ ∨ _))

instance (k : Contracts) (scopes : List String) (x : Execution) (t : Moment) :
    Decidable (Steady k scopes x t) :=
  have : Decidable (FreshAudit (x.met k t) t.input) :=
    inferInstanceAs (Decidable (∀ a ∈ (x.met k t).catalog.tables.mutationAudit,
      a.auditId ≠ t.input.ids 1))
  inferInstanceAs (Decidable (_ ∨ _))

end Execution

/-! ### A call ends -/

theorem Phase.ended_iff (phase : Phase) : phase.ended = true ↔ phase.remaining = 0 := by
  cases phase <;> simp [Phase.ended, Phase.remaining]

theorem Mutation.afterRead_remaining (m : Mutation) (db : Database) (phase : Phase)
    (hreads : phase = .authorize ∨ phase = .replay ∨ phase = .exclusion ∨
      (∃ change listId, phase = .target change listId) ∨
      ∃ change listId target, phase = .memberships change listId target) :
    (m.afterRead db phase).remaining < phase.remaining := by
  obtain rfl | rfl | rfl | ⟨change, listId, rfl⟩ | ⟨change, listId, target, rfl⟩ := hreads
  · rw [afterRead]
    split <;> simp [refuse, Phase.remaining]
  · rw [afterRead]
    split <;> simp [Phase.remaining]
  · rw [afterRead]
    split <;> simp [refuse, Phase.remaining]
  · rw [afterRead]
    split <;> simp [fail, Phase.remaining]
  · simp [afterRead, Phase.remaining]

/-- **Every interaction counts down.** -/
theorem Mutation.step_remaining (m : Mutation) (i : StepInput) (w : World)
    (h : m.phase.ended = false) : (m.step i w).1.remaining < m.phase.remaining := by
  have hreading : (m.phase = .authorize ∨ m.phase = .replay ∨ m.phase = .exclusion ∨
      (∃ change listId, m.phase = .target change listId) ∨
      ∃ change listId target, m.phase = .memberships change listId target) →
      (m.reading i w).1.remaining < m.phase.remaining := by
    intro hreads
    have hafter := m.afterRead_remaining w.catalog.tables m.phase hreads
    obtain ⟨-, hread | ⟨e, hread⟩⟩ := m.reading_cases i w
    · rw [hread]
      exact hafter
    · rw [hread]
      exact (Nat.zero_le _).trans_lt hafter
  unfold step
  cases hphase : m.phase with
  | authorize | replay | exclusion | target | memberships =>
    rw [hphase] at hreading
    exact hreading (by simp)
  | budget =>
    dsimp only
    split
    · unfold dispatch
      split <;> simp [Phase.remaining]
    · simp [Phase.remaining]
  | resolve plan =>
    dsimp only
    split <;> simp [fail, Phase.remaining]
  | write plan node =>
    dsimp only [writing]
    split <;> simp [fail, Phase.remaining]
  | persist wrote =>
    dsimp only
    obtain ⟨status, c, -, hrun | hrun⟩ | ⟨-, hrun⟩ | ⟨e, hrun⟩ :=
      persisting_cases (m := m) (i := i) (w := w) wrote
    all_goals
      rw [hrun]
      exact Nat.zero_lt_one
  | conclude outcome reason status =>
    dsimp only
    obtain ⟨c, -, hrun | ⟨e, hrun⟩⟩ :=
      concluding_cases (m := m) (i := i) (w := w) outcome reason status
    all_goals
      rw [hrun]
      exact Nat.zero_lt_one
  | returned | outraced | raised =>
    rw [hphase] at h
    cases h

theorem run_remaining (k : Contracts) (x : Execution) (moments : List Moment) :
    (runFrom (Execution.step k) x moments).call.phase.remaining ≤
      x.call.phase.remaining - moments.length := by
  induction moments generalizing x with
  | nil => exact le_refl _
  | cons t moments ih =>
    rw [runFrom_cons, List.length_cons]
    refine (ih _).trans ?_
    by_cases hended : x.call.phase.ended = true
    · have hzero := x.call.phase.ended_iff.mp hended
      have hsame : x.step k t = x := by rw [Execution.step, if_pos hended]
      rw [hsame, hzero]
      simp
    · have hlt := x.call.step_remaining t.input (x.met k t) (by simpa using hended)
      have hstep : (x.step k t).call.phase = (x.call.step t.input (x.met k t)).1 := by
        rw [Execution.step, if_neg hended]
        rfl
      rw [hstep]
      omega

/-- **A call ends** within its interactions. -/
theorem executeMutation_ended (k : Contracts) (context : MutationContext) (request : MutationRequest)
    (moments : ℕ → Moment) (w : World) :
    (executeMutation k context request moments w).call.phase.ended = true := by
  rw [Phase.ended_iff]
  have hle := run_remaining k (begunCall context request w) (callMoments moments)
  have hlength : (callMoments moments).length = Phase.authorize.remaining := by
    rw [callMoments, List.length_map, List.length_range]
  rw [hlength] at hle
  exact Nat.le_zero.mp (hle.trans (Nat.sub_self _).le)

/-! ### A served call -/

theorem run_served_ok {α : Type} {x : Tx α} {a : α} {c c' : Catalog} (h : x c = .ok (a, c')) :
    Fate.served.run x c = (.ok a, c') := by
  simp only [Fate.run, h]

theorem run_served_error {α : Type} {x : Tx α} {e : CatalogError} {c : Catalog} (h : x c = .error e) :
    Fate.served.run x c = (.error e, c) := by
  simp only [Fate.run, h]

/-- A served interaction raises no error. -/
theorem Mutation.step_ne_raised {m : Mutation} {i : StepInput} {w : World}
    (hraised : ∀ e, m.phase ≠ .raised e) (hfate : i.fate = .served)
    (hpersists : m.persists i w.catalog = true) (e : CatalogError) : (m.step i w).1 ≠ .raised e := by
  have hreading : (m.reading i w).1 = m.afterRead w.catalog.tables m.phase := by
    rw [reading, World.read, if_pos hfate]
  have hafter : ∀ phase, (∀ e, phase ≠ .raised e) →
      m.afterRead w.catalog.tables phase ≠ .raised e := by
    intro phase hphase
    cases phase with
    | raised fault => exact absurd rfl (hphase fault)
    | authorize | replay | exclusion | target =>
      dsimp only [afterRead]
      split
      all_goals
        intro h
        cases h
    | _ =>
      intro h
      cases h
  unfold step
  unfold persists at hpersists
  cases hphase : m.phase with
  | authorize | replay | exclusion | target | memberships =>
    dsimp only
    rw [hreading]
    exact hafter _ hraised
  | budget =>
    dsimp only
    split
    · unfold dispatch
      split
      all_goals
        intro h
        cases h
    · intro h
      cases h
  | resolve plan =>
    dsimp only
    split
    all_goals
      intro h
      cases h
  | write plan node =>
    dsimp only [writing]
    split
    all_goals
      intro h
      cases h
  | persist wrote =>
    rw [hphase] at hpersists
    dsimp only at hpersists ⊢
    rw [persisting, hfate]
    cases hrun : wrote.plan.persist i.ids i.now m.context m.pid m.request.idempotencyKey w.catalog with
    | ok p =>
      rw [run_served_ok hrun]
      intro h
      cases h
    | error fault =>
      rw [Tx.failure_eq_some.mpr hrun] at hpersists
      have hkey : fault = .keyTaken := of_decide_eq_true hpersists
      rw [hkey] at hrun
      rw [run_served_error hrun]
      intro h
      cases h
  | conclude outcome reason status =>
    rw [hphase] at hpersists
    dsimp only at hpersists ⊢
    rw [concluding, hfate]
    cases hrun : recordAttempt i.ids m.context m.pid m.request.kind m.request.idempotencyKey outcome
        (reasonDetail reason) w.catalog with
    | ok p =>
      rw [run_served_ok hrun]
      intro h
      cases h
    | error fault =>
      rw [Tx.failure_eq_some.mpr hrun] at hpersists
      cases hpersists
  | returned | outraced | raised =>
    dsimp only
    rw [← hphase]
    exact hraised e

/-- A step of an execution keeps the request and the context. -/
theorem Execution.step_call (k : Contracts) (x : Execution) (t : Moment) :
    (x.step k t).call.request = x.call.request ∧ (x.step k t).call.context = x.call.context := by
  unfold Execution.step
  split
  · exact ⟨rfl, rfl⟩
  · exact ⟨rfl, rfl⟩

theorem executeMutation_call (k : Contracts) (context : MutationContext) (request : MutationRequest)
    (moments : ℕ → Moment) (w : World) :
    (executeMutation k context request moments w).call.request = request ∧
      (executeMutation k context request moments w).call.context = context := by
  refine invariant_runFrom (P := fun x : Execution => x.call.request = request ∧ x.call.context = context)
    (fun x t hx => ?_) ⟨rfl, rfl⟩ _
  exact ⟨(x.step_call k t).1.trans hx.1, (x.step_call k t).2.trans hx.2⟩

/-- **A served call** returns an outcome for its key. -/
theorem executeMutation_outcome {k : Contracts} {context : MutationContext} {request : MutationRequest}
    {moments : ℕ → Moment} {w : World}
    (h : Guarded (Execution.step k) (Execution.Served k) (begunCall context request w)
      (callMoments moments)) :
    ∃ status, (executeMutation k context request moments w).outcome =
        some (.ok ⟨request.idempotencyKey, status⟩) ∧
      (executeMutation k context request moments w).call.phase.status = some status := by
  have hstep : ∀ (x : Execution) (t : Moment), (∀ e, x.call.phase ≠ .raised e) → x.Served k t →
      ∀ e, (x.step k t).call.phase ≠ .raised e := by
    intro x t hx ht
    unfold Execution.step
    split
    · exact hx
    · next hrunning =>
      obtain ⟨hfate, hpersists⟩ := ht.resolve_left hrunning
      exact Mutation.step_ne_raised hx hfate hpersists
  have hbegun : ∀ e, (begunCall context request w).call.phase ≠ .raised e := by
    intro e hphase
    cases hphase
  have hraised : ∀ e, (executeMutation k context request moments w).call.phase ≠ .raised e :=
    (throughout_of_guarded hstep hbegun h).last
  have hended := executeMutation_ended k context request moments w
  unfold Execution.outcome
  rw [(executeMutation_call k context request moments w).1]
  cases hphase : (executeMutation k context request moments w).call.phase with
  | returned status wrote => exact ⟨status, rfl, rfl⟩
  | outraced wrote => exact ⟨.alreadyApplied, rfl, rfl⟩
  | raised e => exact absurd hphase (hraised e)
  | _ =>
    rw [hphase] at hended
    cases hended

/-! ### Batches without an error -/

/-- One truthful outcome for each request, in their order, from calls made whatever the others
returned. -/
structure BatchReport.Faithful (b : BatchReport) (requests : List MutationRequest)
    (alone : List Execution) : Prop where
  answered : ∃ outcomes, b.answer = some (.ok outcomes) ∧
    (outcomes.map (·.idempotencyKey)) = requests.map (·.idempotencyKey) ∧
    (outcomes.map fun outcome => some (.ok outcome)) = alone.map Execution.outcome
  attempted : b.calls = alone
  ordered : (b.calls.map (·.call.request)) = requests

theorem BatchReport.Faithful.cons {b : BatchReport} {requests : List MutationRequest}
    {alone : List Execution} (h : b.Faithful requests alone) {x : Execution} {request : MutationRequest}
    {outcome : MutationOutcome} (hrequest : x.call.request = request)
    (houtcome : x.outcome = some (.ok outcome))
    (hkey : outcome.idempotencyKey = request.idempotencyKey) :
    BatchReport.Faithful ⟨b.answer.map fun answer => answer.map (outcome :: ·), x :: b.calls, b.world⟩
      (request :: requests) (x :: alone) := by
  obtain ⟨⟨outcomes, hanswer, hkeys, hsame⟩, hattempted, hordered⟩ := h
  refine ⟨⟨outcome :: outcomes, ?_, ?_, ?_⟩, ?_, ?_⟩
  · rw [hanswer]
    rfl
  · rw [List.map_cons, List.map_cons, hkeys, hkey]
  · rw [List.map_cons, List.map_cons, hsame, houtcome]
  · rw [hattempted]
  · rw [List.map_cons, hordered, hrequest]

theorem executeBatch_cons {k : Contracts} {context : MutationContext} {request : MutationRequest}
    {requests : List MutationRequest} {moments : ℕ → ℕ → Moment} {w : World} {x : Execution}
    {outcome : MutationOutcome} (hx : executeMutation k context request (moments 0) w = x)
    (houtcome : x.outcome = some (.ok outcome)) :
    executeBatch k context (request :: requests) moments w =
      ⟨(executeBatch k context requests (fun n => moments (n + 1)) x.world).answer.map fun answer =>
          answer.map (outcome :: ·),
        x :: (executeBatch k context requests (fun n => moments (n + 1)) x.world).calls,
        (executeBatch k context requests (fun n => moments (n + 1)) x.world).world⟩ := by
  simp only [executeBatch, hx, BatchReport.preceded, houtcome]

theorem oneAfterAnother_cons {k : Contracts} {context : MutationContext} {request : MutationRequest}
    {requests : List MutationRequest} {moments : ℕ → ℕ → Moment} {w : World} {x : Execution}
    (hx : executeMutation k context request (moments 0) w = x) :
    oneAfterAnother k context (request :: requests) moments w =
      x :: oneAfterAnother k context requests (fun n => moments (n + 1)) x.world := by
  simp only [oneAfterAnother, hx]

/-- **A batch without a local failure.** -/
theorem executeBatch_faithful {k : Contracts} {context : MutationContext}
    {requests : List MutationRequest} {moments : ℕ → ℕ → Moment} {w : World}
    (h : EveryCall k context (Execution.Served k) requests moments w) :
    (executeBatch k context requests moments w).Faithful requests
      (oneAfterAnother k context requests moments w) := by
  induction requests generalizing moments w with
  | nil => exact ⟨⟨[], rfl, rfl, rfl⟩, rfl, rfl⟩
  | cons request requests ih =>
    obtain ⟨hcall, hrest⟩ := everyCall_cons.mp h
    obtain ⟨status, houtcome, -⟩ := executeMutation_outcome hcall
    have hrequest := (executeMutation_call k context request (moments 0) w).1
    generalize hx : executeMutation k context request (moments 0) w = x at hrest houtcome hrequest
    rw [executeBatch_cons hx houtcome, oneAfterAnother_cons hx]
    exact (ih hrest).cons hrequest houtcome rfl

/-! ### Claimed keys stay claimed -/

/-- Every key with a success keeps one. -/
def KeepsClaims (db db' : Database) : Prop :=
  ∀ key, successfulOutcomeExists key db = true → successfulOutcomeExists key db' = true

instance : Std.Refl KeepsClaims := ⟨fun _ _ h => h⟩

instance : IsTrans Database KeepsClaims := ⟨fun _ _ _ h h' key hkey => h' key (h key hkey)⟩

theorem keepsClaims_of_rows {db db' : Database} (h : ∀ a ∈ db.mutationAudit, a ∈ db'.mutationAudit) :
    KeepsClaims db db' := by
  intro key hkey
  obtain ⟨a, ha, hown⟩ := List.any_eq_true.mp hkey
  exact List.any_eq_true.mpr ⟨a, h a ha, hown⟩

theorem keepsClaims_of_eq {db db' : Database} (h : db'.mutationAudit = db.mutationAudit) :
    KeepsClaims db db' :=
  keepsClaims_of_rows fun _ ha => h ▸ ha

theorem relates_keepsClaims_of_touches {α : Type} {ts : List Table} {x : Tx α} (hx : Touches ts x)
    (h : .mutationAudit ∉ ts) : Tx.Relates KeepsClaims x :=
  Tx.Relates.mono hx fun _ _ hagree => keepsClaims_of_eq (hagree .mutationAudit h)

theorem relates_keepsClaims_insertAuditRow (row : MutationAudit) :
    Tx.Relates KeepsClaims (insertAuditRow row) := by
  intro c inserted c' h
  refine keepsClaims_of_rows fun a ha => ?_
  rw [(insertAuditRow_eq_ok h).2, insertUnless]
  split
  · exact ha
  · exact List.mem_append_left _ ha

theorem relates_keepsClaims_applyRequestedMode (ids : ℕ → Uuid) (now : Time) (context : MutationContext)
    (requested : RequestedMode) (key : String) (current : Option RepositoryMode) (starred : Bool)
    (repositoryId : Uuid) : Tx.Relates KeepsClaims
      (applyRequestedMode ids now context requested key current starred repositoryId) := by
  unfold applyRequestedMode
  cases validateMode requested starred with
  | some reason => exact (relates_keepsClaims_insertAuditRow _).bind fun _ => Tx.Relates.pure _
  | none =>
    refine (relates_onlyIf ?_).bind fun _ => (relates_keepsClaims_insertAuditRow _).bind fun _ =>
      relates_finishWithReplayGuard _ _
    exact (relates_keepsClaims_of_touches (touches_setMode _ _) (by decide)).bind fun _ =>
      relates_keepsClaims_of_touches (touches_markBackupPolicyDirtyInTx _) (by decide)

/-- **One operation** that erases no account. -/
theorem Operation.commit_keepsClaims (k : Contracts) (c : Catalog) (op : Operation)
    (h : op.erases = false) : KeepsClaims c.tables (op.commit k c).tables := by
  have hrepo : ∀ fresh pid, Tx.Relates KeepsClaims (upsertRepositoryInTx fresh pid) := fun _ _ =>
    relates_keepsClaims_of_touches (touches_upsertRepositoryInTx _ _) (by decide)
  cases op with
  | eraseAccount => cases h
  | recordAttempt =>
    exact (relates_recordAttempt _ _ _ _ _ _ _ (hrepo _ _) fun row _ =>
      relates_keepsClaims_insertAuditRow row).commit c
  | persistConfirmedStar =>
    refine Tx.Relates.commit ?_ c
    refine (hrepo _ _).bind fun _ => (relates_select _).bind fun _ => ?_
    refine (relates_keepsClaims_of_touches (touches_applyStarProjection _ _ _ _) (by decide)).bind
      fun _ => ?_
    refine (relates_onlyIf (relates_keepsClaims_of_touches (touches_markBackupPolicyDirtyInTx _)
      (by decide))).bind fun _ => ?_
    exact (relates_keepsClaims_insertAuditRow _).bind fun _ => relates_finishWithReplayGuard _ _
  | persistListMembership =>
    exact (relates_persistListMembership _ _ _ _ _ _ _ _ (hrepo _ _) (fun _ =>
      relates_keepsClaims_of_touches (touches_convergeMembershipProjection _ _ _ _) (by decide))
      fun row _ => relates_keepsClaims_insertAuditRow row).commit c
  | setRepositoryMode ids now context pid requested key =>
    refine Tx.Relates.commit ?_ c
    rw [setRepositoryModeInTx_eq]
    refine (hrepo _ _).bind fun _ => (relates_fetchOne _).bind fun _ => (relates_select _).bind fun _ => ?_
    exact relates_keepsClaims_applyRequestedMode _ _ _ _ _ _ _ _
  | _ => exact keepsClaims_of_eq (rows_commit k c _ .mutationAudit rfl)

theorem World.disturb_keepsClaims (k : Contracts) (w : World) {d : Disturbance} (h : d.spares = true) :
    KeepsClaims w.catalog.tables (w.disturb k d).catalog.tables := by
  cases d with
  | upstream u => exact Std.Refl.refl _
  | catalog op =>
    have herases : op.erases = false := by simpa [Disturbance.spares] using h
    show KeepsClaims w.catalog.tables (GithubCatalog.step k w.catalog op).tables
    unfold GithubCatalog.step
    split
    · exact op.commit_keepsClaims k w.catalog herases
    · exact Std.Refl.refl _

/-- **Disturbances** that erase no account. -/
theorem disturbed_keepsClaims (k : Contracts) (w : World) {ds : List Disturbance}
    (h : ds.all (·.spares) = true) :
    KeepsClaims w.catalog.tables (runFrom (World.disturb k) w ds).catalog.tables := by
  induction ds generalizing w with
  | nil => exact Std.Refl.refl _
  | cons d ds ih =>
    rw [List.all_cons, Bool.and_eq_true] at h
    exact IsTrans.trans _ _ _ (w.disturb_keepsClaims k h.1) (ih (w.disturb k d) h.2)

/-! ### A steady call -/

section steady

variable {k : Contracts} {scopes : List String} {x : Execution} {t : Moment}

/-- A call keeps to its request, and has its key claimed once it succeeded. -/
structure Execution.Sound (x : Execution) : Prop where
  follows : x.call.phase.Follows x.call.request
  claimed : x.succeeded = true →
    successfulOutcomeExists x.call.request.idempotencyKey x.world.catalog.tables = true

theorem Execution.step_running (h : x.call.phase.ended = false) :
    x.step k t = ⟨x.call.next t.input (x.met k t), (x.call.step t.input (x.met k t)).2,
      x.contacted || x.call.phase.contacts⟩ := by
  rw [Execution.step, if_neg (by rw [h]; exact Bool.false_ne_true)]

theorem Execution.step_over (h : x.call.phase.ended = true) : x.step k t = x := by
  rw [Execution.step, if_pos h]

theorem Execution.Sound.keepsClaims (h : x.Sound) (ht : x.Steady k scopes t) :
    KeepsClaims x.world.catalog.tables (x.step k t).world.catalog.tables := by
  cases hended : x.call.phase.ended with
  | true =>
    rw [Execution.step_over hended]
    exact Std.Refl.refl _
  | false =>
    obtain ⟨-, hspared, -⟩ := ht.resolve_left (by rw [hended]; exact Bool.false_ne_true)
    rw [Execution.step_running hended]
    intro key hkey
    have hmet := disturbed_keepsClaims k x.world hspared key hkey
    exact (Mutation.step_trail h.follows t.input (x.met k t)).claimed hmet

theorem Execution.Sound.step (h : x.Sound) (ht : x.Steady k scopes t) : (x.step k t).Sound := by
  cases hended : x.call.phase.ended with
  | true =>
    rw [Execution.step_over hended]
    exact h
  | false =>
    obtain ⟨-, -, hfresh⟩ := ht.resolve_left (by rw [hended]; exact Bool.false_ne_true)
    rw [Execution.step_running hended]
    refine ⟨Mutation.follows_step h.follows _ _, fun hsuccess => ?_⟩
    rcases Mutation.success_claims h.follows hfresh hsuccess with hbefore | hclaimed
    · -- A call that is not over has reported nothing.
      cases hphase : x.call.phase with
      | returned | outraced | raised =>
        rw [hphase] at hended
        cases hended
      | _ =>
        rw [hphase] at hbefore
        cases hbefore
    · exact hclaimed

/-- A steady run of a call. -/
theorem Execution.Sound.run (h : x.Sound) {moments : List Moment}
    (hsteady : Guarded (Execution.step k) (Execution.Steady k scopes) x moments) :
    (runFrom (Execution.step k) x moments).Sound ∧
      KeepsClaims x.world.catalog.tables
        (runFrom (Execution.step k) x moments).world.catalog.tables := by
  induction moments generalizing x with
  | nil => exact ⟨h, Std.Refl.refl _⟩
  | cons t moments ih =>
    obtain ⟨hsound, hkept⟩ := ih (h.step hsteady.1) hsteady.2
    exact ⟨hsound, IsTrans.trans _ _ _ (h.keepsClaims hsteady.1) hkept⟩

theorem begunCall_sound (context : MutationContext) (request : MutationRequest) (w : World) :
    (begunCall context request w).Sound :=
  ⟨trivial, fun h => nomatch h⟩

theorem executeMutation_sound {context : MutationContext} {request : MutationRequest}
    {moments : ℕ → Moment} {w : World}
    (hsteady : Guarded (Execution.step k) (Execution.Steady k scopes) (begunCall context request w)
      (callMoments moments)) :
    (executeMutation k context request moments w).Sound ∧
      KeepsClaims w.catalog.tables
        (executeMutation k context request moments w).world.catalog.tables :=
  (begunCall_sound context request w).run hsteady

/-! ### Scopes -/

theorem authorizationRefusal_connected {context : MutationContext} {request : MutationRequest}
    {db : Database} (h : connectedWith context.accountId scopes db = true) :
    authorizationRefusal context request.membership.isSome db =
      if request.satisfiedBy scopes then none else some .missingScope := by
  unfold connectedWith at h
  unfold authorizationRefusal
  cases hfound : db.githubAccounts.find? fun a => decide (a.accountId = context.accountId) with
  | none =>
    rw [hfound] at h
    cases h
  | some account =>
    rw [hfound, Option.any_some, Bool.and_eq_true, decide_eq_true_eq, decide_eq_true_eq] at h
    simp only [h.1, h.2, MutationRequest.satisfiedBy, ne_eq, not_true_eq_false, if_false]
    rfl

/-- Without the scope, a call is at its refusal or before it. -/
def Unsatisfied (x : Execution) : Prop :=
  x.call.phase = .authorize ∨ x.call.phase = Mutation.refuse .missingScope ∨
    x.call.phase = .returned (.rejected .missingScope) none ∨ ∃ e, x.call.phase = .raised e

theorem Unsatisfied.step (h : Unsatisfied x) (hscope : x.call.request.satisfiedBy scopes = false)
    (ht : x.Steady k scopes t) : Unsatisfied (x.step k t) := by
  cases hended : x.call.phase.ended with
  | true =>
    rw [Execution.step_over hended]
    exact h
  | false =>
    obtain ⟨hconnected, -⟩ := ht.resolve_left (by rw [hended]; exact Bool.false_ne_true)
    rw [Execution.step_running hended]
    rcases h with hphase | hphase | hphase | ⟨e, hphase⟩
    · have hrefused : x.call.afterRead (x.met k t).catalog.tables x.call.phase =
          Mutation.refuse .missingScope := by
        rw [hphase, Mutation.afterRead, authorizationRefusal_connected hconnected, hscope]
        rfl
      have hstep : x.call.step t.input (x.met k t) = x.call.reading t.input (x.met k t) := by
        rw [Mutation.step, hphase]
      unfold Unsatisfied Mutation.next
      dsimp only
      rw [hstep]
      obtain ⟨-, hread | ⟨e, hread⟩⟩ := x.call.reading_cases t.input (x.met k t)
      · rw [hread, hrefused]
        exact .inr (.inl rfl)
      · exact .inr (.inr (.inr ⟨e, hread⟩))
    · have hstep : x.call.step t.input (x.met k t) = x.call.concluding t.input .rejected
          RefusalReason.missingScope.label (.rejected .missingScope) (x.met k t) := by
        rw [Mutation.step, hphase]
        rfl
      unfold Unsatisfied Mutation.next
      dsimp only
      rw [hstep]
      obtain ⟨c, -, hrun | ⟨e, hrun⟩⟩ := Mutation.concluding_cases (m := x.call) (i := t.input)
        (w := x.met k t) .rejected RefusalReason.missingScope.label (.rejected .missingScope)
      · rw [hrun]
        exact .inr (.inr (.inl rfl))
      · rw [hrun]
        exact .inr (.inr (.inr ⟨e, rfl⟩))
    · rw [hphase] at hended
      cases hended
    · rw [hphase] at hended
      cases hended

theorem Unsatisfied.run (h : Unsatisfied x) (hscope : x.call.request.satisfiedBy scopes = false)
    {moments : List Moment}
    (hsteady : Guarded (Execution.step k) (Execution.Steady k scopes) x moments) :
    Unsatisfied (runFrom (Execution.step k) x moments) := by
  induction moments generalizing x with
  | nil => exact h
  | cons t moments ih =>
    refine ih (h.step hscope hsteady.1) ?_ hsteady.2
    rw [(x.step_call k t).1]
    exact hscope

/-- **A success** had its scope. -/
theorem satisfied_of_succeeded {context : MutationContext} {request : MutationRequest}
    {moments : ℕ → Moment} {w : World}
    (hsteady : Guarded (Execution.step k) (Execution.Steady k scopes) (begunCall context request w)
      (callMoments moments))
    (h : (executeMutation k context request moments w).succeeded = true) :
    request.satisfiedBy scopes = true := by
  by_contra hscope
  rw [Bool.not_eq_true] at hscope
  have hend : Unsatisfied (executeMutation k context request moments w) :=
    Unsatisfied.run (.inl rfl) hscope hsteady
  unfold Execution.succeeded at h
  rcases hend with hphase | hphase | hphase | ⟨e, hphase⟩
  all_goals
    rw [hphase] at h
    cases h

/-! ### A replayed call -/

/-- A call with a claimed key has asked nothing of the provider, and is on its way to the replay. -/
structure Replaying (x : Execution) : Prop where
  untouched : x.contacted = false
  claimed : successfulOutcomeExists x.call.request.idempotencyKey x.world.catalog.tables = true
  phase : x.call.phase = .authorize ∨ x.call.phase = .replay ∨
    x.call.phase = .returned .alreadyApplied none

theorem Replaying.step (h : Replaying x) (hscope : x.call.request.satisfiedBy scopes = true)
    (hserved : x.Served k t) (ht : x.Steady k scopes t) : Replaying (x.step k t) := by
  cases hended : x.call.phase.ended with
  | true =>
    rw [Execution.step_over hended]
    exact h
  | false =>
    have hrunning : ¬ x.call.phase.ended = true := by
      rw [hended]
      exact Bool.false_ne_true
    obtain ⟨hconnected, hspared, -⟩ := ht.resolve_left hrunning
    have hfate := (hserved.resolve_left hrunning).1
    have hclaimed := disturbed_keepsClaims k x.world hspared _ h.claimed
    have hread : ∀ phase, x.call.afterRead (x.met k t).catalog.tables x.call.phase = phase →
        x.call.reading t.input (x.met k t) = (phase, x.met k t) := by
      intro phase hphase
      rw [Mutation.reading, World.read, if_pos hfate]
      simp only [hphase]
    rw [Execution.step_running hended]
    rcases h.phase with hphase | hphase | hphase
    · have hstep : x.call.step t.input (x.met k t) = (.replay, x.met k t) := by
        rw [Mutation.step, hphase]
        refine hread .replay ?_
        rw [hphase, Mutation.afterRead, authorizationRefusal_connected hconnected, hscope]
        rfl
      refine ⟨?_, ?_, .inr (.inl ?_)⟩
      · simp [h.untouched, hphase, Phase.contacts]
      · rw [hstep]
        exact hclaimed
      · rw [Mutation.next, hstep]
    · have hstep : x.call.step t.input (x.met k t) = (.returned .alreadyApplied none, x.met k t) := by
        rw [Mutation.step, hphase]
        refine hread _ ?_
        rw [hphase, Mutation.afterRead]
        exact if_pos hclaimed
      refine ⟨?_, ?_, .inr (.inr ?_)⟩
      · simp [h.untouched, hphase, Phase.contacts]
      · rw [hstep]
        exact hclaimed
      · rw [Mutation.next, hstep]
    · rw [hphase] at hended
      cases hended

theorem Replaying.run (h : Replaying x) (hscope : x.call.request.satisfiedBy scopes = true)
    {moments : List Moment} (hserved : Guarded (Execution.step k) (Execution.Served k) x moments)
    (hsteady : Guarded (Execution.step k) (Execution.Steady k scopes) x moments) :
    Replaying (runFrom (Execution.step k) x moments) := by
  induction moments generalizing x with
  | nil => exact h
  | cons t moments ih =>
    refine ih (h.step hscope hserved.1 hsteady.1) ?_ hserved.2 hsteady.2
    rw [(x.step_call k t).1]
    exact hscope

/-- **A replay** contacts nobody and answers AlreadyApplied. -/
theorem executeMutation_replayed {context : MutationContext} {request : MutationRequest}
    {moments : ℕ → Moment} {w : World}
    (hclaimed : successfulOutcomeExists request.idempotencyKey w.catalog.tables = true)
    (hscope : request.satisfiedBy scopes = true)
    (hserved : Guarded (Execution.step k) (Execution.Served k) (begunCall context request w)
      (callMoments moments))
    (hsteady : Guarded (Execution.step k) (Execution.Steady k scopes) (begunCall context request w)
      (callMoments moments)) :
    (executeMutation k context request moments w).contacted = false ∧
      (executeMutation k context request moments w).outcome =
        some (.ok ⟨request.idempotencyKey, .alreadyApplied⟩) := by
  have hbegun : Replaying (begunCall context request w) := ⟨rfl, hclaimed, .inl rfl⟩
  have hend : Replaying (executeMutation k context request moments w) :=
    hbegun.run hscope hserved hsteady
  have hended := executeMutation_ended k context request moments w
  refine ⟨hend.untouched, ?_⟩
  unfold Execution.outcome
  rw [(executeMutation_call k context request moments w).1]
  rcases hend.phase with hphase | hphase | hphase
  · rw [hphase] at hended
    cases hended
  · rw [hphase] at hended
    cases hended
  · rw [hphase]
    rfl

end steady

/-! ### Two submissions -/

section submissions

variable {k : Contracts} {context : MutationContext} {scopes : List String}
  {requests : List MutationRequest} {moments : ℕ → ℕ → Moment} {w : World}

/-- **A steady batch** keeps claimed keys claimed. -/
theorem executeBatch_keepsClaims (hserved : EveryCall k context (Execution.Served k) requests moments w)
    (hsteady : EveryCall k context (Execution.Steady k scopes) requests moments w) :
    KeepsClaims w.catalog.tables (executeBatch k context requests moments w).world.catalog.tables := by
  induction requests generalizing moments w with
  | nil => exact Std.Refl.refl _
  | cons request requests ih =>
    obtain ⟨hcall, hrest⟩ := everyCall_cons.mp hserved
    obtain ⟨hcall', hrest'⟩ := everyCall_cons.mp hsteady
    obtain ⟨status, houtcome, -⟩ := executeMutation_outcome hcall
    have hfirst := (executeMutation_sound hcall').2
    generalize hx : executeMutation k context request (moments 0) w = x at hrest hrest' houtcome hfirst
    rw [executeBatch_cons hx houtcome]
    exact IsTrans.trans _ _ _ hfirst (ih hrest hrest')

/-- What the successes of a batch leave: their keys, and that their scopes were granted. -/
theorem succeeded_claims (hserved : EveryCall k context (Execution.Served k) requests moments w)
    (hsteady : EveryCall k context (Execution.Steady k scopes) requests moments w)
    {x : Execution} (hx : x ∈ oneAfterAnother k context requests moments w)
    (hsuccess : x.succeeded = true) :
    successfulOutcomeExists x.call.request.idempotencyKey
        (executeBatch k context requests moments w).world.catalog.tables = true ∧
      x.call.request.satisfiedBy scopes = true := by
  induction requests generalizing moments w with
  | nil => cases hx
  | cons request requests ih =>
    obtain ⟨hcall, hrest⟩ := everyCall_cons.mp hserved
    obtain ⟨hcall', hrest'⟩ := everyCall_cons.mp hsteady
    obtain ⟨status, houtcome, -⟩ := executeMutation_outcome hcall
    have hsound := (executeMutation_sound hcall').1
    have hscope := satisfied_of_succeeded hcall'
    have hrequest := (executeMutation_call k context request (moments 0) w).1
    generalize hfirst : executeMutation k context request (moments 0) w = y
      at hrest hrest' houtcome hsound hscope hrequest
    rw [oneAfterAnother_cons hfirst] at hx
    rw [executeBatch_cons hfirst houtcome]
    rcases List.mem_cons.mp hx with rfl | hlater
    · refine ⟨executeBatch_keepsClaims hrest hrest' _ (hsound.claimed hsuccess), ?_⟩
      rw [hrequest]
      exact hscope hsuccess
    · exact ih hrest hrest' hlater

/-- **A batch with claimed keys** replays them. -/
theorem claimed_replayed (hserved : EveryCall k context (Execution.Served k) requests moments w)
    (hsteady : EveryCall k context (Execution.Steady k scopes) requests moments w)
    {x : Execution} (hx : x ∈ oneAfterAnother k context requests moments w)
    (hclaimed : successfulOutcomeExists x.call.request.idempotencyKey w.catalog.tables = true)
    (hscope : x.call.request.satisfiedBy scopes = true) :
    x.contacted = false ∧
      x.outcome = some (.ok ⟨x.call.request.idempotencyKey, .alreadyApplied⟩) := by
  induction requests generalizing moments w with
  | nil => cases hx
  | cons request requests ih =>
    obtain ⟨hcall, hrest⟩ := everyCall_cons.mp hserved
    obtain ⟨hcall', hrest'⟩ := everyCall_cons.mp hsteady
    have hkept := (executeMutation_sound hcall').2
    have hreplayed := fun hkey hsatisfied => executeMutation_replayed hkey hsatisfied hcall hcall'
    have hrequest := (executeMutation_call k context request (moments 0) w).1
    generalize hfirst : executeMutation k context request (moments 0) w = y
      at hrest hrest' hkept hreplayed hrequest
    rw [oneAfterAnother_cons hfirst] at hx
    rcases List.mem_cons.mp hx with rfl | hlater
    · rw [hrequest] at hclaimed hscope ⊢
      exact hreplayed hclaimed hscope
    · exact ih hrest hrest' hlater (hkept _ hclaimed)

end submissions

/-- The successful rows of a key. -/
def successfulRows (key : String) (db : Database) : List MutationAudit :=
  db.mutationAudit.filter fun a => decide (a.idempotencyKey = key) && a.succeeded

/-- A claimed key has one successful row. -/
theorem successfulRows_length {c : Catalog} {key : String}
    (h : successfulOutcomeExists key c.tables = true) : (successfulRows key c.tables).length = 1 := by
  have hrows : successfulRows key c.tables =
      (c.tables.mutationAudit.filter (·.succeeded)).filter fun a => decide (a.idempotencyKey = key) := by
    rw [List.filter_filter]
    rfl
  obtain ⟨row, hrow, hkey⟩ := successfulOutcomeExists_iff.mp h
  refine Nat.le_antisymm ?_ ?_
  · rw [hrows]
    exact c.valid.keys.audit_success.length_filter_le_one key
  · rw [hrows]
    exact List.length_pos_of_mem (List.mem_filter.mpr ⟨hrow, decide_eq_true hkey⟩)

/-- **The same batch again**: what succeeded is answered from its key without contact, and every key that
succeeded in either submission has one successful row. -/
structure Resubmitted (first second : BatchReport) : Prop where
  paired : second.calls.length = first.calls.length
  replayed : ∀ (n : ℕ) (x y : Execution), first.calls[n]? = some x → second.calls[n]? = some y →
    x.succeeded = true → y.contacted = false ∧
      y.outcome = some (.ok ⟨x.call.request.idempotencyKey, .alreadyApplied⟩)
  audited : ∀ x ∈ first.calls ++ second.calls, x.succeeded = true →
    (successfulRows x.call.request.idempotencyKey second.world.catalog.tables).length = 1

/-- **Batches.**  A batch without a local persistence failure answers one outcome for each request, in
their order, and each is that of the calls made one after another.  Submitted again while the account
stays connected with the same scopes, whatever the provider does, and whatever the other flows commit
without erasing an account, it asks the provider only for what had not succeeded. -/
theorem batch_resubmitted (k : Contracts) (context : MutationContext) (requests : List MutationRequest)
    (w : World) {moments : ℕ → ℕ → Moment}
    (hserved : EveryCall k context (Execution.Served k) requests moments w) :
    (executeBatch k context requests moments w).Faithful requests
        (oneAfterAnother k context requests moments w) ∧
      ∀ (scopes : List String) (meantime : List Disturbance) (again : ℕ → ℕ → Moment),
        EveryCall k context (Execution.Steady k scopes) requests moments w →
        meantime.all (·.spares) = true →
        EveryCall k context (Execution.Served k) requests again
          (runFrom (World.disturb k) (executeBatch k context requests moments w).world meantime) →
        EveryCall k context (Execution.Steady k scopes) requests again
          (runFrom (World.disturb k) (executeBatch k context requests moments w).world meantime) →
        Resubmitted (executeBatch k context requests moments w)
          (executeBatch k context requests again
            (runFrom (World.disturb k) (executeBatch k context requests moments w).world meantime)) := by
  have hfirst := executeBatch_faithful hserved
  refine ⟨hfirst, fun scopes meantime again hsteady hspared hserved' hsteady' => ?_⟩
  have hsecond := executeBatch_faithful hserved'
  have hclaims := fun x hx hsuccess => succeeded_claims hserved hsteady (x := x) hx hsuccess
  have hclaims' := fun x hx hsuccess => succeeded_claims hserved' hsteady' (x := x) hx hsuccess
  have hreplays := fun y hy => claimed_replayed hserved' hsteady' (x := y) hy
  have hbatch := executeBatch_keepsClaims hserved' hsteady'
  have hmeantime := disturbed_keepsClaims k (executeBatch k context requests moments w).world hspared
  generalize executeBatch k context requests moments w = one at *
  generalize runFrom (World.disturb k) one.world meantime = middle at *
  generalize executeBatch k context requests again middle = two at *
  rw [← hfirst.attempted] at hclaims
  rw [← hsecond.attempted] at hclaims' hreplays
  refine ⟨?_, ?_, ?_⟩
  · have hone := congrArg List.length hfirst.ordered
    have htwo := congrArg List.length hsecond.ordered
    rw [List.length_map] at hone htwo
    rw [hone, htwo]
  · intro n x y hx hy hsuccess
    have hrequest : y.call.request = x.call.request := by
      have hn := congrArg (·[n]?) (hsecond.ordered.trans hfirst.ordered.symm)
      simp only [List.getElem?_map, hx, hy, Option.map_some] at hn
      exact Option.some.inj hn
    obtain ⟨hkey, hscope⟩ := hclaims x (List.mem_of_getElem? hx) hsuccess
    have hreplayed := hreplays y (List.mem_of_getElem? hy)
    rw [hrequest] at hreplayed
    exact hreplayed (hmeantime _ hkey) hscope
  · intro x hx hsuccess
    apply successfulRows_length
    rcases List.mem_append.mp hx with hone | htwo
    · exact hbatch _ (hmeantime _ (hclaims x hone hsuccess).1)
    · exact (hclaims' x htwo hsuccess).1

/-- A star of a repository under its path, and one of a repository without a path. -/
def mixedBatch : List MutationRequest :=
  [.star ⟨101, "rust-lang", "rust"⟩ "star-key", .star ⟨202, "nobody", "nothing"⟩ "lost-key"]

/-- Distinct identifiers for the interactions of a submission. -/
def submission (n : ℕ) : ℕ → ℕ → Moment := fun request j => ⟨[], inputAt (200 * n + 100 * request + j)⟩

/-- The mixed batch, submitted once. -/
def mixedReport : BatchReport :=
  executeBatch sampleContracts ⟨1, "owner-a", .web⟩ mixedBatch (submission 0) contestWorld

/-- The second submission meets a catalog with one more repository. -/
def mixedMeantime : List Disturbance := [.catalog (.upsertRepository 60 303)]

theorem batch_resubmitted_mixed :
    mixedReport.Faithful mixedBatch
        (oneAfterAnother sampleContracts ⟨1, "owner-a", .web⟩ mixedBatch (submission 0) contestWorld) ∧
      Resubmitted mixedReport
        (executeBatch sampleContracts ⟨1, "owner-a", .web⟩ mixedBatch (submission 1)
          (runFrom (World.disturb sampleContracts) mixedReport.world mixedMeantime)) ∧
      mixedReport.calls.map (·.succeeded) = [true, false] := by
  have hserved : EveryCall sampleContracts ⟨1, "owner-a", .web⟩ (Execution.Served sampleContracts)
      mixedBatch (submission 0) contestWorld := by
    decide +kernel
  have h := batch_resubmitted sampleContracts ⟨1, "owner-a", .web⟩ mixedBatch contestWorld hserved
  refine ⟨h.1, ?_, by decide +kernel⟩
  exact h.2 ["repo", "user"] mixedMeantime (submission 1) (by decide +kernel) (by decide +kernel)
    (by decide +kernel) (by decide +kernel)

end GithubCatalog
