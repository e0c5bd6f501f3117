import GithubCatalog.Lib.Table
import Mathlib.Data.List.Sort

/-!
# Bounded histories

A history is a table to which rows are appended in time, read newest first and cut to its newest rows.
A log kept newest first says what it holds: after every append the table's rows, newest first, are a
prefix of the log.
-/

namespace Relational

variable {α κ : Type*}

/-- A sort is the only arrangement that its order admits. -/
theorem insertionSort_eq_of_perm {r : α → α → Prop} [DecidableRel r] [Std.Total r] [IsTrans α r]
    {s t : List α} (hperm : s.Perm t) (hsorted : t.Pairwise r)
    (hanti : ∀ a ∈ t, ∀ b ∈ t, r a b → r b a → a = b) : s.insertionSort r = t := by
  have hsame : (s.insertionSort r).Perm t := (List.perm_insertionSort r s).trans hperm
  refine hsame.eq_of_pairwise (fun a b ha hb hab hba => ?_) (List.pairwise_insertionSort r s) hsorted
  exact hanti a (hsame.mem_iff.mp ha) b hb hab hba

/-- The rows whose keys are those of a prefix are the prefix. -/
theorem filter_keys_take [DecidableEq κ] {key : α → κ} {t : List α} (h : UniqueOn key t) (n : ℕ) :
    (t.filter fun a => decide (key a ∈ (t.take n).map key)) = t.take n := by
  have hsplit : UniqueOn key (t.take n ++ t.drop n) := by
    rw [List.take_append_drop]
    exact h
  rw [UniqueOn, List.map_append, List.nodup_append] at hsplit
  have hkept : (t.take n).filter (fun a => decide (key a ∈ (t.take n).map key)) = t.take n :=
    List.filter_eq_self.mpr fun a ha => decide_eq_true (List.mem_map_of_mem ha)
  have hcut : (t.drop n).filter (fun a => decide (key a ∈ (t.take n).map key)) = [] := by
    refine List.filter_eq_nil_iff.mpr fun a ha hmem => ?_
    exact hsplit.2.2 _ (of_decide_eq_true hmem) _ (List.mem_map_of_mem ha) rfl
  conv_lhs => rw [← List.take_append_drop n t, List.filter_append]
  rw [List.take_append_drop, hkept, hcut, List.append_nil]

/-- Cutting before and after a push is cutting after it. -/
theorem take_cons_take (a : α) (t : List α) (n : ℕ) : (a :: t.take n).take n = (a :: t).take n := by
  cases n with
  | zero => rfl
  | succ n =>
    rw [List.take_succ_cons, List.take_succ_cons, List.take_take, Nat.min_eq_left (Nat.le_succ n)]

end Relational
