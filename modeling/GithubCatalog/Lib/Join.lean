import Mathlib.Data.List.Basic

/-!
# Joins of tables

Tables are lists of rows, and a join condition is a test of two rows.

* `innerJoin test l r` - the pairs of rows that meet the test, one for each;
* `leftJoin test l r` - the same, with one unmatched pair for each row of `l` that meets no row of `r`;
* `mem_innerJoin`, `mem_leftJoin_some`, `mem_leftJoin_none` - what is in them;
* `filter_innerJoin_eq_nil`, `filter_leftJoin_eq_nil` - when a selection from one is empty.
-/

namespace Relational

variable {α β : Type*} {test : α → β → Bool} {l : List α} {r : List β}

/-- The pairs that meet the test. -/
def innerJoin (test : α → β → Bool) (l : List α) (r : List β) : List (α × β) :=
  l.flatMap fun a => (r.filter (test a)).map fun b => (a, b)

/-- The matches of one row of a left join. -/
def leftMatches (test : α → β → Bool) (r : List β) (a : α) : List (Option β) :=
  if r.any (test a) then (r.filter (test a)).map some else [none]

/-- The pairs that meet the test, and the rows that meet nothing. -/
def leftJoin (test : α → β → Bool) (l : List α) (r : List β) : List (α × Option β) :=
  l.flatMap fun a => (leftMatches test r a).map fun b => (a, b)

theorem mem_innerJoin {a : α} {b : β} :
    (a, b) ∈ innerJoin test l r ↔ a ∈ l ∧ b ∈ r ∧ test a b = true := by
  simp only [innerJoin, List.mem_flatMap, List.mem_map, List.mem_filter, Prod.mk.injEq]
  constructor
  · rintro ⟨a, ha, b, ⟨hb, htest⟩, rfl, rfl⟩
    exact ⟨ha, hb, htest⟩
  · rintro ⟨ha, hb, htest⟩
    exact ⟨a, ha, b, ⟨hb, htest⟩, rfl, rfl⟩

theorem mem_leftMatches_some {a : α} {b : β} :
    some b ∈ leftMatches test r a ↔ b ∈ r ∧ test a b = true := by
  unfold leftMatches
  split
  · rw [List.mem_map]
    constructor
    · rintro ⟨b, hb, ⟨⟩⟩
      exact List.mem_filter.mp hb
    · exact fun h => ⟨b, List.mem_filter.mpr h, rfl⟩
  · next hnone =>
    constructor
    · intro h
      cases List.mem_singleton.mp h
    · rintro ⟨hb, htest⟩
      exact absurd (List.any_eq_true.mpr ⟨b, hb, htest⟩) hnone

theorem mem_leftMatches_none {a : α} : none ∈ leftMatches test r a ↔ ∀ b ∈ r, test a b = false := by
  unfold leftMatches
  split
  · next hany =>
    obtain ⟨b, hb, htest⟩ := List.any_eq_true.mp hany
    constructor
    · intro h
      obtain ⟨b, -, heq⟩ := List.mem_map.mp h
      cases heq
    · intro h
      rw [h b hb] at htest
      cases htest
  · next hnone =>
    simp only [List.mem_singleton, true_iff]
    intro b hb
    rw [← Bool.not_eq_true]
    exact fun htest => hnone (List.any_eq_true.mpr ⟨b, hb, htest⟩)

theorem mem_leftJoin {a : α} {b : Option β} :
    (a, b) ∈ leftJoin test l r ↔ a ∈ l ∧ b ∈ leftMatches test r a := by
  simp only [leftJoin, List.mem_flatMap, List.mem_map, Prod.mk.injEq]
  constructor
  · rintro ⟨a, ha, b, hb, rfl, rfl⟩
    exact ⟨ha, hb⟩
  · rintro ⟨ha, hb⟩
    exact ⟨a, ha, b, hb, rfl, rfl⟩

/-- A selection from an inner join is empty when every pair fails it. -/
theorem filter_innerJoin_eq_nil {p : α × β → Bool} : (innerJoin test l r).filter p = [] ↔
    ∀ a ∈ l, ∀ b ∈ r, test a b = true → p (a, b) = false := by
  rw [List.filter_eq_nil_iff]
  simp only [Prod.forall, mem_innerJoin, Bool.not_eq_true, and_imp]
  exact ⟨fun h a ha b hb => h a b ha hb, fun h a b ha hb => h a ha b hb⟩

/-- A selection from a left join is empty when every pair and every unmatched row fails it. -/
theorem filter_leftJoin_eq_nil {p : α × Option β → Bool} : (leftJoin test l r).filter p = [] ↔
    ∀ a ∈ l, (∀ b ∈ r, test a b = true → p (a, some b) = false) ∧
      ((∀ b ∈ r, test a b = false) → p (a, none) = false) := by
  rw [List.filter_eq_nil_iff]
  simp only [Prod.forall, mem_leftJoin, Bool.not_eq_true, and_imp]
  constructor
  · intro h a ha
    exact ⟨fun b hb htest => h a (some b) ha (mem_leftMatches_some.mpr ⟨hb, htest⟩),
      fun hnone => h a none ha (mem_leftMatches_none.mpr hnone)⟩
  · intro h a b ha hb
    cases b with
    | some b =>
      obtain ⟨hmem, htest⟩ := mem_leftMatches_some.mp hb
      exact (h a ha).1 b hmem htest
    | none => exact (h a ha).2 (mem_leftMatches_none.mp hb)

end Relational
