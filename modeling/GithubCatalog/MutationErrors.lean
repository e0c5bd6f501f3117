import GithubCatalog.ListTargets

/-!
# The error class of a mutation (`mutations.rs`, `list_mutations.rs`)

`execute_mutation` ends with `Persistence` or with `ProviderConfirmedPersistence`, and its callers
decide by the class whether the provider holds the requested state.

* `Mutation.raises` - the error of a step, with the class its executor gives it;
* `TracedCall` - one call over a world that changes in any way between its steps, with its error and
  what became of its write;
* `Classified` - the class tells whether the provider confirmed;
* `classified_iff` - when it does.
-/

namespace GithubCatalog

open Runs

/-- `MutationError`. -/
inductive MutationError where
  | persistence (source : CatalogError)
  | providerConfirmedPersistence (source : CatalogError)
deriving DecidableEq

namespace Mutation

/-- The class of an error raised in a phase: only `execute_star_write` maps the errors of its local
transaction. -/
def errorClass (error : CatalogError) : Phase → MutationError
  | .persist ⟨.star _, _, _⟩ => .providerConfirmedPersistence error
  | _ => .persistence error

variable (m : Mutation) (i : StepInput) (w : World)

/-- The error a step ends the call with. -/
def raises : Option MutationError :=
  match m.phase.ended, (m.step i w).1 with
  | false, .raised error => some (errorClass error m.phase)
  | _, _ => none

/-- The step sends the write, and the provider confirms the requested state. -/
def confirmedBy : Bool :=
  match m.phase, (m.step i w).1 with
  | .write _ _, .persist _ => true
  | _, _ => false

/-- The step sends the write, and it takes effect at the provider. -/
def takesEffect : Bool :=
  match m.phase with
  | .write _ _ => decide (i.reply = .applied) || decide (i.reply = .lost true)
  | _ => false

end Mutation

/-- A call, the error it ended with, whether the provider confirmed its write, and whether the write
took effect. -/
structure TracedCall where
  call : Mutation
  error : Option MutationError := none
  confirmed : Bool := false
  tookEffect : Bool := false

namespace TracedCall

/-- One interaction in the world as it stands then. -/
def step (t : TracedCall) (e : StepInput × World) : TracedCall where
  call := t.call.next e.1 e.2
  error := t.error.or (t.call.raises e.1 e.2)
  confirmed := t.confirmed || t.call.confirmedBy e.1 e.2
  tookEffect := t.tookEffect || t.call.takesEffect e.1

/-- **The class of the error.**  A failure after the confirmation is `ProviderConfirmedPersistence`,
nothing else is, and `Persistence` means that no write took effect. -/
structure Classified (t : TracedCall) : Prop where
  complete : t.confirmed = true → ∀ error, t.error ≠ some (.persistence error)
  sound : ∀ error, t.error = some (.providerConfirmedPersistence error) → t.confirmed = true
  plain : ∀ error, t.error = some (.persistence error) → t.tookEffect = false

/-- No local step failed after a write that was confirmed or took effect, unless the write is a star
write and its confirmation arrived. -/
def Regular (t : TracedCall) : Prop :=
  t.error.isSome = true → t.confirmed = true ∨ t.tookEffect = true →
    t.call.request.direction.isSome = true ∧ t.confirmed = true

/-- The write is still ahead. -/
def unwritten : Phase → Bool
  | .authorize | .replay | .exclusion | .budget | .target _ _ | .memberships _ _ _ | .resolve _
  | .write _ _ => true
  | _ => false

/-- What is known of a call, by its phase. -/
structure Tracked (t : TracedCall) : Prop where
  follows : t.call.phase.Follows t.call.request
  ahead : unwritten t.call.phase = true → t.confirmed = false ∧ t.tookEffect = false
  persisting : ∀ wrote, t.call.phase = .persist wrote → t.confirmed = true
  concluding : ∀ outcome reason status, t.call.phase = .conclude outcome reason status →
    t.confirmed = false
  quiet : (∀ error, t.call.phase ≠ .raised error) → t.error = none
  failed : ∀ error, t.call.phase = .raised error →
    (t.error = some (.persistence error) ∧ t.confirmed = false) ∨
    (t.confirmed = true ∧ t.error = some
      (if t.call.request.direction.isSome = true then .providerConfirmedPersistence error
        else .persistence error))

variable {t : TracedCall}

/-- An ended call stays as it is. -/
theorem step_of_ended (h : t.call.phase.ended = true) (i : StepInput) (w : World) :
    t.step (i, w) = t := by
  have hstep := t.call.step_of_ended (i := i) (w := w) h
  have hcall : t.call.next i w = t.call := by
    rw [Mutation.next, hstep]
  have hraises : t.call.raises i w = none := by
    rw [Mutation.raises, h]
  have hsilent : t.call.confirmedBy i w = false ∧ t.call.takesEffect i = false := by
    unfold Mutation.confirmedBy Mutation.takesEffect
    cases hphase : t.call.phase with
    | returned | outraced | raised => exact ⟨rfl, rfl⟩
    | _ => rw [hphase] at h; cases h
  rw [step, hcall, hraises, hsilent.1, hsilent.2, Option.or_none, Bool.or_false, Bool.or_false]

/-- What comes behind a phase before the write. -/
theorem next_of_unwritten {m : Mutation} (h : unwritten m.phase = true)
    (hwrite : ∀ plan node, m.phase ≠ .write plan node) (i : StepInput) (w : World) :
    unwritten (m.step i w).1 = true ∨
      (∃ outcome reason status, (m.step i w).1 = .conclude outcome reason status) ∨
      (∃ status, (m.step i w).1 = .returned status none) ∨ ∃ error, (m.step i w).1 = .raised error := by
  have hturn := m.turn i w
  generalize (m.step i w).1 = next at hturn ⊢
  cases hturn with
  | finished hended =>
    cases hphase : m.phase with
    | returned | outraced | raised => rw [hphase] at h; cases h
    | _ => rw [hphase] at hended; cases hended
  | failing error => exact .inr (.inr (.inr ⟨error, rfl⟩))
  | concluding => exact .inr (.inl ⟨_, _, _, rfl⟩)
  | authorized | unclaimed | unexcluded | targeted | computed | resolved => exact .inl rfl
  | replayed | concluded => exact .inr (.inr (.inl ⟨_, rfl⟩))
  | dispatched =>
    left
    unfold Mutation.dispatch
    split
    · rfl
    · rfl
    · rfl
    · rfl
  | confirmed hphase => exact absurd hphase (hwrite _ _)
  | committed hphase | outraced hphase =>
    rw [hphase] at h
    cases h

/-- The class of a failed local transaction is the one of the kind. -/
theorem errorClass_persist {request : MutationRequest} {wrote : ProviderWrite}
    (h : wrote.plan.Suits request) (error : CatalogError) :
    Mutation.errorClass error (.persist wrote) =
      if request.direction.isSome = true then .providerConfirmedPersistence error
      else .persistence error := by
  obtain ⟨plan, node, before⟩ := wrote
  cases plan with
  | star direction =>
    have hdir : request.direction = some direction := h
    rw [hdir]
    rfl
  | lists change listId target live =>
    have hlist : request.membership = some (change, listId) := h
    cases hdir : request.direction with
    | none => rfl
    | some direction =>
      rw [MutationRequest.membership_eq_none hdir] at hlist
      cases hlist

section oneStep

variable {i : StepInput} {w : World}

/-- A step that goes on, to a phase that is not behind a write. -/
theorem Tracked.proceed (h : Tracked t) (hunraised : ∀ error, t.call.phase ≠ .raised error)
    (hnext : ∀ error, (t.call.step i w).1 ≠ .raised error)
    (hpersist : ∀ wrote, (t.call.step i w).1 ≠ .persist wrote)
    (hahead : unwritten (t.call.step i w).1 = true →
      (t.step (i, w)).confirmed = false ∧ (t.step (i, w)).tookEffect = false)
    (hconclude : ∀ outcome reason status, (t.call.step i w).1 = .conclude outcome reason status →
      (t.step (i, w)).confirmed = false) : Tracked (t.step (i, w)) where
  follows := Mutation.follows_step h.follows i w
  ahead := hahead
  persisting := fun wrote hphase => absurd hphase (hpersist wrote)
  concluding := hconclude
  quiet := by
    intro _
    show t.error.or (t.call.raises i w) = none
    have hraises : t.call.raises i w = none := by
      unfold Mutation.raises
      split
      · next error _ heq => exact absurd heq (hnext error)
      · rfl
    rw [h.quiet hunraised, hraises]
    rfl
  failed := fun error hphase => absurd hphase (hnext error)

/-- A step that fails. -/
theorem Tracked.fail (h : Tracked t) (hended : t.call.phase.ended = false) {error : CatalogError}
    (hnext : (t.call.step i w).1 = .raised error)
    (hclass : (Mutation.errorClass error t.call.phase = .persistence error ∧ t.confirmed = false) ∨
      (t.confirmed = true ∧ Mutation.errorClass error t.call.phase =
        if t.call.request.direction.isSome = true then .providerConfirmedPersistence error
        else .persistence error)) : Tracked (t.step (i, w)) := by
  have hunraised : ∀ error, t.call.phase ≠ .raised error := by
    intro error heq
    rw [heq] at hended
    cases hended
  have herror : (t.step (i, w)).error = some (Mutation.errorClass error t.call.phase) := by
    show t.error.or (t.call.raises i w) = _
    rw [h.quiet hunraised, Mutation.raises, hended, hnext]
    rfl
  have hconfirmed : (t.step (i, w)).confirmed = t.confirmed := by
    have hsilent : t.call.confirmedBy i w = false := by
      unfold Mutation.confirmedBy
      split
      · next heq =>
        rw [hnext] at heq
        cases heq
      · rfl
    show (t.confirmed || t.call.confirmedBy i w) = t.confirmed
    rw [hsilent, Bool.or_false]
  have hphase : (t.step (i, w)).call.phase = .raised error := hnext
  refine ⟨Mutation.follows_step h.follows i w, ?_, ?_, ?_, fun hno => absurd hphase (hno error), ?_⟩
  · rw [hphase]
    intro hahead
    cases hahead
  · rw [hphase]
    intro wrote heq
    cases heq
  · rw [hphase]
    intro outcome reason status heq
    cases heq
  · rw [hphase]
    intro error' heq
    cases heq
    rw [herror, hconfirmed]
    rcases hclass with ⟨hclass, hunconfirmed⟩ | ⟨hconfirmed, hclass⟩
    · exact .inl ⟨congrArg some hclass, hunconfirmed⟩
    · exact .inr ⟨hconfirmed, congrArg some hclass⟩

/-- **One interaction.** -/
theorem Tracked.step (h : Tracked t) (i : StepInput) (w : World) : Tracked (t.step (i, w)) := by
  by_cases hended : t.call.phase.ended = true
  · rw [step_of_ended hended]
    exact h
  have hended : t.call.phase.ended = false := by simpa using hended
  have hunraised : ∀ error, t.call.phase ≠ .raised error := by
    intro error heq
    rw [heq] at hended
    cases hended
  -- The phases before the write, apart from the write itself.
  have hbefore : unwritten t.call.phase = true → (∀ plan node, t.call.phase ≠ .write plan node) →
      Tracked (t.step (i, w)) := by
    intro hahead hwrite
    obtain ⟨hunconfirmed, hnoeffect⟩ := h.ahead hahead
    have hclass : ∀ error, Mutation.errorClass error t.call.phase = .persistence error := by
      intro error
      cases hphase : t.call.phase with
      | persist wrote => rw [hphase] at hahead; cases hahead
      | _ => rfl
    have hconfirmed : (t.step (i, w)).confirmed = false := by
      show (t.confirmed || t.call.confirmedBy i w) = false
      rw [hunconfirmed, Mutation.confirmedBy]
      split
      · next plan node _ hphase _ => exact absurd hphase (hwrite plan node)
      · rfl
    have heffect : (t.step (i, w)).tookEffect = false := by
      show (t.tookEffect || t.call.takesEffect i) = false
      rw [hnoeffect, Mutation.takesEffect]
      split
      · next plan node hphase => exact absurd hphase (hwrite plan node)
      · rfl
    obtain hnext | ⟨outcome, reason, status, hnext⟩ | ⟨status, hnext⟩ | ⟨error, hnext⟩ :=
      next_of_unwritten hahead hwrite i w
    · refine h.proceed hunraised ?_ ?_ (fun _ => ⟨hconfirmed, heffect⟩) fun _ _ _ _ => hconfirmed
      · intro error heq
        rw [heq] at hnext
        cases hnext
      · intro wrote heq
        rw [heq] at hnext
        cases hnext
    · exact h.proceed hunraised (by simp [hnext]) (by simp [hnext])
        (fun _ => ⟨hconfirmed, heffect⟩) fun _ _ _ _ => hconfirmed
    · exact h.proceed hunraised (by simp [hnext]) (by simp [hnext])
        (fun _ => ⟨hconfirmed, heffect⟩) fun _ _ _ _ => hconfirmed
    · exact h.fail hended hnext (.inl ⟨hclass error, hunconfirmed⟩)
  cases hphase : t.call.phase with
  | authorize | replay | exclusion | budget | target | memberships | resolve =>
    exact hbefore (by rw [hphase]; rfl) (by simp [hphase])
  | returned | outraced | raised => rw [hphase] at hended; cases hended
  | write plan node =>
    have hstep : t.call.step i w = t.call.writing i plan node w := by
      rw [Mutation.step, hphase]
    obtain ⟨hunconfirmed, -⟩ := h.ahead (by rw [hphase]; rfl)
    by_cases hconfirms : t.call.confirms plan node (t.call.written plan node w.upstream i.reply)
        i.reply = true
    · have hnext : (t.call.step i w).1 = .persist ⟨plan, node, w.upstream⟩ := by
        rw [hstep, Mutation.writing]
        exact if_pos hconfirms
      have hconfirmed : (t.step (i, w)).confirmed = true := by
        show (t.confirmed || t.call.confirmedBy i w) = true
        rw [Mutation.confirmedBy, hphase, hnext, Bool.or_true]
      have hraises : t.call.raises i w = none := by
        rw [Mutation.raises, hended, hnext]
      have hnow : (t.step (i, w)).call.phase = .persist ⟨plan, node, w.upstream⟩ := hnext
      refine ⟨Mutation.follows_step h.follows i w, ?_, fun _ _ => hconfirmed, ?_, ?_, ?_⟩
      · rw [hnow]
        intro hahead
        cases hahead
      · rw [hnow]
        intro outcome reason status heq
        cases heq
      · intro _
        show t.error.or (t.call.raises i w) = none
        rw [h.quiet hunraised, hraises]
        rfl
      · rw [hnow]
        intro error heq
        cases heq
    · have hnext : (t.call.step i w).1 = Mutation.fail (Mutation.unconfirmed i plan) := by
        rw [hstep, Mutation.writing]
        exact if_neg hconfirms
      have hconfirmed : (t.step (i, w)).confirmed = false := by
        show (t.confirmed || t.call.confirmedBy i w) = false
        rw [hunconfirmed, Mutation.confirmedBy, hphase, hnext]
        rfl
      refine h.proceed hunraised (by simp [hnext, Mutation.fail]) (by simp [hnext, Mutation.fail]) ?_
        fun _ _ _ _ => hconfirmed
      rw [hnext]
      intro hahead
      cases hahead
  | persist wrote =>
    have hstep : t.call.step i w = t.call.persisting i wrote w := by
      rw [Mutation.step, hphase]
    have hsuits : wrote.plan.Suits t.call.request := by
      have hfollows := h.follows
      rw [hphase] at hfollows
      exact hfollows
    have hfail : ∀ error, (t.call.step i w).1 = .raised error → Tracked (t.step (i, w)) := by
      intro error hnext
      refine h.fail hended hnext (.inr ⟨h.persisting wrote hphase, ?_⟩)
      rw [hphase]
      exact errorClass_persist hsuits error
    obtain ⟨status, c, -, hrun | hrun⟩ | ⟨-, hrun⟩ | ⟨error, hrun⟩ :=
      Mutation.persisting_cases (m := t.call) (i := i) (w := w) wrote
    · exact h.proceed hunraised (by simp [hstep, hrun]) (by simp [hstep, hrun])
        (by simp [hstep, hrun, unwritten]) (by simp [hstep, hrun])
    · exact hfail _ (by rw [hstep, hrun])
    · exact h.proceed hunraised (by simp [hstep, hrun]) (by simp [hstep, hrun])
        (by simp [hstep, hrun, unwritten]) (by simp [hstep, hrun])
    · exact hfail _ (by rw [hstep, hrun])
  | conclude outcome reason status =>
    have hstep : t.call.step i w = t.call.concluding i outcome reason status w := by
      rw [Mutation.step, hphase]
    obtain ⟨c, -, hrun | ⟨error, hrun⟩⟩ :=
      Mutation.concluding_cases (m := t.call) (i := i) (w := w) outcome reason status
    · exact h.proceed hunraised (by simp [hstep, hrun]) (by simp [hstep, hrun])
        (by simp [hstep, hrun, unwritten]) (by simp [hstep, hrun])
    · have hnext : (t.call.step i w).1 = .raised error := by
        rw [hstep, hrun]
      refine h.fail hended hnext (.inl ⟨?_, h.concluding _ _ _ hphase⟩)
      rw [hphase]
      rfl

end oneStep

/-- A call from its start. -/
def begun (context : MutationContext) (request : MutationRequest) : TracedCall where
  call := ⟨context, request, .authorize⟩

theorem tracked_begun (context : MutationContext) (request : MutationRequest) :
    Tracked (begun context request) where
  follows := trivial
  ahead := fun _ => ⟨rfl, rfl⟩
  persisting := fun _ h => nomatch h
  concluding := fun _ _ _ h => nomatch h
  quiet := fun _ => rfl
  failed := fun _ h => nomatch h

/-- A tracked call has the right class exactly when it is regular. -/
theorem Tracked.regular_iff (h : Tracked t) : Classified t ↔ Regular t := by
  by_cases hraised : ∃ error, t.call.phase = .raised error
  · obtain ⟨error, hphase⟩ := hraised
    rcases h.failed error hphase with ⟨herror, hunconfirmed⟩ | ⟨hconfirmed, herror⟩
    · constructor
      · intro hclass _ hwrote
        rw [hunconfirmed, hclass.plain error herror] at hwrote
        simp at hwrote
      · intro hregular
        refine ⟨fun hconfirmed => ?_, fun error' heq => ?_, fun _ _ => ?_⟩
        · rw [hunconfirmed] at hconfirmed
          cases hconfirmed
        · rw [herror] at heq
          cases heq
        · by_contra heffect
          have heffect : t.tookEffect = true := by simpa using heffect
          have hconfirmed := (hregular (by rw [herror]; rfl) (.inr heffect)).2
          rw [hunconfirmed] at hconfirmed
          cases hconfirmed
    · by_cases hstar : t.call.request.direction.isSome = true
      · rw [if_pos hstar] at herror
        refine iff_of_true ⟨fun _ error' heq => ?_, fun _ _ => hconfirmed, fun error' heq => ?_⟩
          fun _ _ => ⟨hstar, hconfirmed⟩
        · rw [herror] at heq
          cases heq
        · rw [herror] at heq
          cases heq
      · rw [if_neg hstar] at herror
        exact iff_of_false (fun hclass => hclass.complete hconfirmed error herror)
          fun hregular => hstar (hregular (by rw [herror]; rfl) (.inl hconfirmed)).1
  · have hquiet := h.quiet fun error hphase => hraised ⟨error, hphase⟩
    refine iff_of_true ⟨fun _ error => ?_, fun error heq => ?_, fun error heq => ?_⟩ fun hsome => ?_
    · rw [hquiet]
      exact fun heq => nomatch heq
    · rw [hquiet] at heq
      cases heq
    · rw [hquiet] at heq
      cases heq
    · rw [hquiet] at hsome
      cases hsome

end TracedCall

/-- **The class of a failed mutation.**  Whatever the world does between the steps of a call: its error
tells whether the provider confirmed the write, and `Persistence` that none took effect, exactly when
no local step failed after such a write or the write is a star write whose confirmation arrived. -/
theorem classified_iff (context : MutationContext) (request : MutationRequest)
    (steps : List (StepInput × World)) :
    (runFrom TracedCall.step (TracedCall.begun context request) steps).Classified ↔
      (runFrom TracedCall.step (TracedCall.begun context request) steps).Regular := by
  have htracked : (runFrom TracedCall.step (TracedCall.begun context request) steps).Tracked :=
    invariant_runFrom (P := TracedCall.Tracked) (fun _ e ht => ht.step e.1 e.2)
      (TracedCall.tracked_begun context request) steps
  exact htracked.regular_iff

/-- The interactions of a call, the last of `count` under its own fate. -/
def stepsTo (count : ℕ) (reply : WriteReply) (last : Fate) : List (StepInput × World) :=
  (List.range count).map fun n =>
    ({ inputAt n with reply, fate := if n + 1 = count then last else .served },
      listedWorld ["list-a"])

/-- A list removal whose local transaction fails after the provider confirmed it, and a star whose
confirmation is lost and whose audit fails: both raise `Persistence`, and both writes took effect. -/
theorem confirmed_list_unclassified :
    (runFrom TracedCall.step
        (TracedCall.begun ⟨1, "owner-a", .web⟩ (.listMemberRemove ⟨101, "owner", "name"⟩ 210 "key"))
        (stepsTo 9 .applied .rolledBack)).error = some (.persistence (.query .unavailable)) ∧
    ¬ (runFrom TracedCall.step
        (TracedCall.begun ⟨1, "owner-a", .web⟩ (.listMemberRemove ⟨101, "owner", "name"⟩ 210 "key"))
        (stepsTo 9 .applied .rolledBack)).Classified ∧
    (runFrom TracedCall.step
        (TracedCall.begun ⟨1, "owner-a", .web⟩ (.star ⟨101, "owner", "name"⟩ "key"))
        (stepsTo 7 (.lost true) .rolledBack)).error = some (.persistence (.query .unavailable)) ∧
    ¬ (runFrom TracedCall.step
        (TracedCall.begun ⟨1, "owner-a", .web⟩ (.star ⟨101, "owner", "name"⟩ "key"))
        (stepsTo 7 (.lost true) .rolledBack)).Classified := by
  have hlist : (runFrom TracedCall.step
      (TracedCall.begun ⟨1, "owner-a", .web⟩ (.listMemberRemove ⟨101, "owner", "name"⟩ 210 "key"))
      (stepsTo 9 .applied .rolledBack)).error = some (.persistence (.query .unavailable)) := by
    decide +kernel
  have hstar : (runFrom TracedCall.step
      (TracedCall.begun ⟨1, "owner-a", .web⟩ (.star ⟨101, "owner", "name"⟩ "key"))
      (stepsTo 7 (.lost true) .rolledBack)).error = some (.persistence (.query .unavailable)) := by
    decide +kernel
  refine ⟨hlist, fun hclass => ?_, hstar, fun hclass => ?_⟩
  · have heffect := hclass.plain _ hlist
    revert heffect
    decide +kernel
  · have heffect := hclass.plain _ hstar
    revert heffect
    decide +kernel

end GithubCatalog
