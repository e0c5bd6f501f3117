import Mathlib.Logic.Relation

/-!
# Forwarding pointers

A partial function `next : κ → Option κ` forwards a key to another one, or ends at it.

* `Ends next k` - following the pointers from `k` comes to an end;
* `Ends.repoint` - pointers may be dropped, or set to keys that forward nowhere;
* `Ends.not_cyclic` and `Ends.exists_end` - no cycle passes through such a key, and its end.
-/

namespace Forwarding

variable {κ : Type*} {next next' : κ → Option κ} {k : κ}

/-- Following the pointers from `k` comes to an end. -/
inductive Ends (next : κ → Option κ) : κ → Prop
  | stop {k : κ} (h : next k = none) : Ends next k
  | hop {k l : κ} (h : next k = some l) (hl : Ends next l) : Ends next k

/-- **The rule of a new set of pointers.**  Where every key keeps its pointer, loses it, or is
forwarded to a key that forwards nowhere, what ended ends still. -/
theorem Ends.repoint
    (h : ∀ k l, next' k = some l → next k = some l ∨ next' l = none) (hk : Ends next k) :
    Ends next' k := by
  induction hk with
  | @stop k hstop =>
    cases hnext : next' k with
    | none => exact .stop hnext
    | some l =>
      rcases h k l hnext with hold | hend
      · rw [hstop] at hold
        cases hold
      · exact .hop hnext (.stop hend)
  | @hop k m hhop _ ih =>
    cases hnext : next' k with
    | none => exact .stop hnext
    | some l =>
      rcases h k l hnext with hold | hend
      · have hsame : m = l := Option.some.inj (hhop.symm.trans hold)
        exact .hop hnext (hsame ▸ ih)
      · exact .hop hnext (.stop hend)

/-- The end of the pointers. -/
theorem Ends.exists_end (hk : Ends next k) :
    ∃ l, Relation.ReflTransGen (fun a b => next a = some b) k l ∧ next l = none := by
  induction hk with
  | @stop k hstop => exact ⟨k, .refl, hstop⟩
  | hop hhop _ ih =>
    obtain ⟨l, hpath, hend⟩ := ih
    exact ⟨l, .head hhop hpath, hend⟩

/-- No cycle passes through a key whose pointers come to an end. -/
theorem Ends.not_cyclic (hk : Ends next k) :
    ¬ Relation.TransGen (fun a b => next a = some b) k k := by
  induction hk with
  | stop hstop =>
    intro hcycle
    obtain ⟨l, hedge, -⟩ := Relation.TransGen.head'_iff.mp hcycle
    rw [hstop] at hedge
    cases hedge
  | @hop k l hhop _ ih =>
    intro hcycle
    obtain ⟨m, hedge, hback⟩ := Relation.TransGen.head'_iff.mp hcycle
    have hsame : l = m := Option.some.inj (hhop.symm.trans hedge)
    subst hsame
    exact ih (Relation.TransGen.tail' hback hhop)

end Forwarding
