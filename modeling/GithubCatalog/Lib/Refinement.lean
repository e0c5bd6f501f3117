import GithubCatalog.Lib.Runs

/-!
# Refinement by an abstraction function

Every step of a concrete system does a list of events of an abstract one, none where it stutters.

* `trace step events s as` - the events of a history, each action's read off the state it is taken in;
* `runFrom_trace` - from steps to runs: the abstraction of a run is the abstract run of its trace;
* `lastWrite next writes t es` - the value that the last event to write a register leaves in it;
* `read_runFrom` - a register holds after a run what was last written to it.
-/

namespace Refinement

open Runs

variable {σ α τ ε β : Type*}

/-- The events of a history. -/
def trace (step : σ → α → σ) (events : σ → α → List ε) : σ → List α → List ε
  | _, [] => []
  | s, a :: as => events s a ++ trace step events (step s a) as

theorem trace_append (step : σ → α → σ) (events : σ → α → List ε) (s : σ) (as bs : List α) :
    trace step events s (as ++ bs) =
      trace step events s as ++ trace step events (runFrom step s as) bs := by
  induction as generalizing s with
  | nil => rfl
  | cons a as ih =>
    rw [List.cons_append, trace, trace, ih, List.append_assoc]
    rfl

/-- **Forward simulation.**  Where every step does its events, so does every run. -/
theorem runFrom_trace (abs : σ → τ) {step : σ → α → σ} {next : τ → ε → τ} {events : σ → α → List ε}
    (h : ∀ s a, abs (step s a) = runFrom next (abs s) (events s a)) (s : σ) (as : List α) :
    abs (runFrom step s as) = runFrom next (abs s) (trace step events s as) := by
  induction as generalizing s with
  | nil => rfl
  | cons a as ih =>
    rw [trace, runFrom_append, ← h]
    exact ih (step s a)

/-- The value that the last event to write a register leaves in it. -/
def lastWrite (next : τ → ε → τ) (writes : τ → ε → Option β) : τ → List ε → Option β
  | _, [] => none
  | t, e :: es => (lastWrite next writes (next t e) es).or (writes t e)

/-- **Registers.**  A register that a step either writes or leaves alone holds what was last written. -/
theorem read_runFrom (read : τ → β) {next : τ → ε → τ} {writes : τ → ε → Option β}
    (h : ∀ t e, read (next t e) = (writes t e).getD (read t)) (t : τ) (es : List ε) :
    read (runFrom next t es) = (lastWrite next writes t es).getD (read t) := by
  induction es generalizing t with
  | nil => rfl
  | cons e es ih =>
    have hrest := ih (next t e)
    rw [h] at hrest
    rw [lastWrite, runFrom_cons, hrest]
    cases lastWrite next writes (next t e) es with
    | none => rw [Option.none_or, Option.getD_none]
    | some b => rw [Option.some_or, Option.getD_some, Option.getD_some]

end Refinement
