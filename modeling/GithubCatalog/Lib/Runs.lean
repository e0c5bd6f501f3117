import Mathlib.Data.List.Basic

/-!
# Runs: invariants along every history of a transition function

A system is a total step function `step : σ → α → σ`; a history is a list of actions.

* `runFrom step s as` - the state a history ends in;
* `Throughout step P s as` - `P` holds in every state the history passes, the first one included;
* `Guarded step G s as` - every action of the history meets the guard `G` in the state it is taken
  in.

`invariant_runFrom` is the invariant rule.  `throughout_of_guarded` is the rule for an invariant that
only the guarded steps keep, `guarded_of_step` the one for what guarded steps do under it, and
`throughout_iff_guarded` the one for a property that exactly the guarded steps keep.
-/

namespace Runs

variable {σ α : Type*}

/-- The state reached from `s` by the history `as`. -/
def runFrom (step : σ → α → σ) (s : σ) (as : List α) : σ := as.foldl step s

/-- `P` holds at `s` and in every state the history passes through. -/
def Throughout (step : σ → α → σ) (P : σ → Prop) : σ → List α → Prop
  | s, [] => P s
  | s, a :: as => P s ∧ Throughout step P (step s a) as

/-- Every action meets the guard in the state it is taken in. -/
def Guarded (step : σ → α → σ) (G : σ → α → Prop) : σ → List α → Prop
  | _, [] => True
  | s, a :: as => G s a ∧ Guarded step G (step s a) as

instance (step : σ → α → σ) (P : σ → Prop) [∀ s, Decidable (P s)] :
    ∀ (s : σ) (as : List α), Decidable (Throughout step P s as)
  | s, [] => inferInstanceAs (Decidable (P s))
  | s, a :: as =>
    have := instDecidableThroughout step P (step s a) as
    inferInstanceAs (Decidable (P s ∧ Throughout step P (step s a) as))

instance (step : σ → α → σ) (G : σ → α → Prop) [∀ s a, Decidable (G s a)] :
    ∀ (s : σ) (as : List α), Decidable (Guarded step G s as)
  | _, [] => inferInstanceAs (Decidable True)
  | s, a :: as =>
    have := instDecidableGuarded step G (step s a) as
    inferInstanceAs (Decidable (G s a ∧ Guarded step G (step s a) as))

@[simp] theorem runFrom_nil (step : σ → α → σ) (s : σ) : runFrom step s [] = s := rfl

@[simp] theorem runFrom_cons (step : σ → α → σ) (s : σ) (a : α) (as : List α) :
    runFrom step s (a :: as) = runFrom step (step s a) as := rfl

theorem runFrom_append (step : σ → α → σ) (s : σ) (as bs : List α) :
    runFrom step s (as ++ bs) = runFrom step (runFrom step s as) bs :=
  List.foldl_append

/-- What holds throughout a history holds at its end. -/
theorem Throughout.last {step : σ → α → σ} {P : σ → Prop} :
    ∀ {s : σ} {as : List α}, Throughout step P s as → P (runFrom step s as) := by
  intro s as
  induction as generalizing s with
  | nil => exact id
  | cons a as ih => intro h; exact ih h.2

theorem Throughout.mono {step : σ → α → σ} {P Q : σ → Prop} (h : ∀ s, P s → Q s) :
    ∀ {s : σ} {as : List α}, Throughout step P s as → Throughout step Q s as := by
  intro s as
  induction as generalizing s with
  | nil => exact h s
  | cons a as ih => exact fun hall => ⟨h s hall.1, ih hall.2⟩

theorem Guarded.mono {step : σ → α → σ} {G H : σ → α → Prop} (h : ∀ s a, G s a → H s a) :
    ∀ {s : σ} {as : List α}, Guarded step G s as → Guarded step H s as := by
  intro s as
  induction as generalizing s with
  | nil => exact id
  | cons a as ih => exact fun hall => ⟨h s a hall.1, ih hall.2⟩

theorem guarded_append {step : σ → α → σ} {G : σ → α → Prop} {s : σ} {as bs : List α} :
    Guarded step G s (as ++ bs) ↔ Guarded step G s as ∧ Guarded step G (runFrom step s as) bs := by
  induction as generalizing s with
  | nil => simp [Guarded]
  | cons a as ih =>
    rw [List.cons_append, Guarded, Guarded, ih, and_assoc]
    rfl

theorem Guarded.and {step : σ → α → σ} {G H : σ → α → Prop} :
    ∀ {s : σ} {as : List α}, Guarded step G s as → Guarded step H s as →
      Guarded step (fun t a => G t a ∧ H t a) s as := by
  intro s as
  induction as generalizing s with
  | nil => exact fun _ _ => trivial
  | cons a as ih => exact fun hG hH => ⟨⟨hG.1, hH.1⟩, ih hG.2 hH.2⟩

/-- A guard on the actions alone. -/
theorem guarded_of_forall {step : σ → α → σ} {Q : α → Prop} :
    ∀ {s : σ} {as : List α}, (∀ a ∈ as, Q a) → Guarded step (fun _ a => Q a) s as := by
  intro s as
  induction as generalizing s with
  | nil => exact fun _ => trivial
  | cons a as ih =>
    intro h
    exact ⟨h a List.mem_cons_self, ih fun b hb => h b (List.mem_cons_of_mem a hb)⟩

/-- **The invariant rule.** -/
theorem invariant_runFrom {step : σ → α → σ} {P : σ → Prop}
    (hstep : ∀ s a, P s → P (step s a)) {s : σ} (hs : P s) (as : List α) :
    P (runFrom step s as) := by
  induction as generalizing s with
  | nil => exact hs
  | cons a as ih => exact ih (hstep s a hs)

/-- **The guarded invariant rule.**  A property kept by every guarded step holds throughout every
guarded history. -/
theorem throughout_of_guarded {step : σ → α → σ} {P : σ → Prop} {G : σ → α → Prop}
    (hstep : ∀ s a, P s → G s a → P (step s a)) :
    ∀ {s : σ} {as : List α}, P s → Guarded step G s as → Throughout step P s as := by
  intro s as
  induction as generalizing s with
  | nil => intro hs _; exact hs
  | cons a as ih => intro hs hg; exact ⟨hs, ih (hstep s a hs hg.1) hg.2⟩

/-- **The step rule.**  Where guarded steps keep `P`, what they do of themselves (`H`) is done by every
step of a guarded history. -/
theorem guarded_of_step {step : σ → α → σ} {P : σ → Prop} {G H : σ → α → Prop}
    (hstep : ∀ s a, P s → G s a → P (step s a) ∧ H s a) :
    ∀ {s : σ} {as : List α}, P s → Guarded step G s as → Guarded step H s as := by
  intro s as
  induction as generalizing s with
  | nil => exact fun _ _ => trivial
  | cons a as ih =>
    intro hs hg
    obtain ⟨hnext, hdone⟩ := hstep s a hs hg.1
    exact ⟨hdone, ih hnext hg.2⟩

/-- **The exactness rule.**  Where the guarded steps keep an invariant that gives `P`, and every other
step out of it leads to a state without `P`, a history has `P` throughout exactly when it is guarded. -/
theorem throughout_iff_guarded {step : σ → α → σ} {I P : σ → Prop} {G : σ → α → Prop}
    (hsound : ∀ s, I s → P s) (hstep : ∀ s a, I s → G s a → I (step s a))
    (hbreak : ∀ s a, I s → ¬ G s a → ¬ P (step s a)) :
    ∀ {s : σ} {as : List α}, I s → (Throughout step P s as ↔ Guarded step G s as) := by
  intro s as
  induction as generalizing s with
  | nil => exact fun hs => iff_of_true (hsound s hs) trivial
  | cons a as ih =>
    intro hs
    by_cases hg : G s a
    · have hrest := ih (hstep s a hs hg)
      exact ⟨fun h => ⟨hg, hrest.mp h.2⟩, fun h => ⟨hsound s hs, hrest.mpr h.2⟩⟩
    · refine iff_of_false (fun h => hbreak s a hs hg ?_) fun h => hg h.1
      cases as with
      | nil => exact h.2
      | cons b bs => exact h.2.1

end Runs
