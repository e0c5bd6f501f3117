import Mathlib.Algebra.Order.Monoid.Defs
import Mathlib.Algebra.Order.Monoid.Unbundled.Basic

/-!
# Slots taken from a shared cursor

Rows take their times from a cursor that never goes back: each new row is timed at the cursor or
later, and the cursor moves a fixed spacing past it.

* `Paced δ key time rows next` - rows of different keys are at least `δ` apart, and all of them at
  least `δ` before the cursor;
* `Paced.take` - a new row at or after the cursor;
* `Paced.thin` - rows may go, and change in anything but key and time.
-/

namespace Pacing

variable {α κ T : Type*} [AddCommMonoid T] [LinearOrder T] {δ : T} {key : α → κ} {time : α → T} {rows rows' : List α}
  {next : T}

structure Paced (δ : T) (key : α → κ) (time : α → T) (rows : List α) (next : T) : Prop where
  apart : ∀ a ∈ rows, ∀ b ∈ rows, key a ≠ key b → time a + δ ≤ time b ∨ time b + δ ≤ time a
  below : ∀ a ∈ rows, time a + δ ≤ next

theorem Paced.nil : Paced δ key time [] next :=
  ⟨fun _ ha => absurd ha List.not_mem_nil, fun _ ha => absurd ha List.not_mem_nil⟩

/-- **A slot is taken.** -/
theorem Paced.take [IsOrderedAddMonoid T] (h : Paced δ key time rows next) {a : α} (hδ : 0 ≤ δ)
    (hnext : next ≤ time a) :
    Paced δ key time (rows ++ [a]) (time a + δ) where
  apart b hb d hd hne := by
    rw [List.mem_append, List.mem_singleton] at hb hd
    rcases hb with hb | rfl
    · rcases hd with hd | rfl
      · exact h.apart b hb d hd hne
      · exact .inl ((h.below b hb).trans hnext)
    · rcases hd with hd | rfl
      · exact .inr ((h.below d hd).trans hnext)
      · exact absurd rfl hne
  below b hb := by
    rw [List.mem_append, List.mem_singleton] at hb
    rcases hb with hb | rfl
    · exact (h.below b hb).trans (hnext.trans (le_add_of_nonneg_right hδ))
    · exact le_refl _

theorem Paced.thin (h : Paced δ key time rows next)
    (hrows : ∀ b ∈ rows', ∃ a ∈ rows, key a = key b ∧ time a = time b) :
    Paced δ key time rows' next where
  apart b hb d hd hne := by
    obtain ⟨a, ha, hkey, htime⟩ := hrows b hb
    obtain ⟨e, he, hkey', htime'⟩ := hrows d hd
    rw [← htime, ← htime']
    exact h.apart a ha e he (by rw [hkey, hkey']; exact hne)
  below b hb := by
    obtain ⟨a, ha, -, htime⟩ := hrows b hb
    rw [← htime]
    exact h.below a ha

end Pacing
