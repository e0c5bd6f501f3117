import GithubCatalog.Lib.Runs
import Mathlib.Algebra.Order.Group.Nat

/-!
# Totals along a run

What the actions of a history cost, each in the state it is taken in, added up.

* `total step cost s as` - the sum;
* `total_le_of_guarded` - the potential rule: where every guarded step pays its cost out of its gain
  and of what the potential loses, so does a guarded run.
-/

namespace Runs

variable {σ α : Type*} {step : σ → α → σ}

/-- The cost of a history. -/
def total (step : σ → α → σ) (cost : σ → α → ℕ) : σ → List α → ℕ
  | _, [] => 0
  | s, a :: as => cost s a + total step cost (step s a) as

theorem total_zero (s : σ) (as : List α) : total step (fun _ _ => 0) s as = 0 := by
  induction as generalizing s with
  | nil => rfl
  | cons a as ih => rw [total, ih]

/-- **The potential rule.** -/
theorem total_le_of_guarded {P : σ → Prop} {G : σ → α → Prop} {cost gain : σ → α → ℕ} {φ : σ → ℕ}
    (hstep : ∀ s a, P s → G s a →
      P (step s a) ∧ cost s a + φ (step s a) ≤ gain s a + φ s) :
    ∀ {s : σ} {as : List α}, P s → Guarded step G s as →
      total step cost s as + φ (runFrom step s as) ≤ total step gain s as + φ s := by
  intro s as
  induction as generalizing s with
  | nil => exact fun _ _ => le_refl _
  | cons a as ih =>
    intro hs hg
    obtain ⟨hnext, hpaid⟩ := hstep s a hs hg.1
    have hrest := ih hnext hg.2
    rw [total, total, runFrom_cons]
    omega

end Runs
