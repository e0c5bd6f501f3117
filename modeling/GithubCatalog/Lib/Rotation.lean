import Mathlib.Data.Finset.Card
import Mathlib.Data.List.Infix
import Mathlib.Order.Defs.LinearOrder

/-!
# Rotations

A server takes turns among a fixed set.  It queues the members served longest ago and serves its queue
from the front; between two turns it may drop the queue and make another.  Logs are kept newest first.

* `since r log` - the turns after the last one of `r`;
* `Rotates n log` - every turn is of another member than the `n - 1` turns before it;
* `Queued S todo log` - no member of the queue is ahead of a member whose last turn is older;
* `Stamped S clock stamp log` - the stamps a queue is made from are the times of the last turns.

`Queued.of_oldest` makes the invariant from the stamps, `Queued.served` keeps it and `Queued.rotates`
uses it: as many turns in a row as the set has members are all of different ones.
-/

namespace Rotation

variable {α τ : Type*}

/-- Every entry differs from the `n - 1` before it. -/
def Rotates (n : ℕ) : List α → Prop
  | [] => True
  | r :: log => r ∉ log.take (n - 1) ∧ Rotates n log

/-- **A window** of at most `n` turns has no repetition. -/
theorem Rotates.nodup {n : ℕ} {log : List α} (h : Rotates n log) {window : List α}
    (hwindow : window <:+: log) (hlength : window.length ≤ n) : window.Nodup := by
  induction log generalizing window with
  | nil =>
    rw [List.infix_nil.mp hwindow]
    exact List.nodup_nil
  | cons r log ih =>
    rcases List.infix_cons_iff.mp hwindow with hinitial | hlater
    · cases window with
      | nil => exact List.nodup_nil
      | cons q rest =>
        obtain ⟨rfl, hrest⟩ := List.cons_prefix_cons.mp hinitial
        have hshort : rest.length ≤ n - 1 := by
          rw [List.length_cons] at hlength
          omega
        have hsub : rest <+: log.take (n - 1) := by
          rw [List.prefix_take_iff]
          exact ⟨hrest, hshort⟩
        refine List.nodup_cons.mpr ⟨fun hq => h.1 (hsub.subset hq), ih h.2 hrest.isInfix ?_⟩
        exact hshort.trans (Nat.sub_le n 1)
    · exact ih h.2 hlater hlength

section queue

variable [DecidableEq α] {S : Finset α} {r q : α} {todo log : List α}

/-- The turns after the last one of `r`, newest first. -/
def since (r : α) (log : List α) : List α := log.takeWhile fun q => decide (q ≠ r)

theorem since_initial (r : α) (log : List α) : since r log <+: log := List.takeWhile_prefix _

theorem not_mem_since (r : α) (log : List α) : r ∉ since r log := by
  intro h
  have hall := List.all_takeWhile (p := fun q => decide (q ≠ r)) (l := log)
  have hne := List.all_eq_true.mp hall r h
  simp at hne

theorem since_cons_of_ne (h : q ≠ r) : since r (q :: log) = q :: since r log := by
  simp [since, h]

theorem since_cons_self : since r (r :: log) = [] := by
  simp [since]

/-- A queue in turn order: behind a member that had a turn, all that is not ahead of it had a later
one. -/
structure Queued (S : Finset α) (todo log : List α) : Prop where
  nodup : todo.Nodup
  members : ∀ r ∈ todo, r ∈ S
  due : ∀ ahead r behind, todo = ahead ++ r :: behind → r ∈ log →
    ∀ q ∈ S, q ∉ ahead → q ≠ r → q ∈ since r log

theorem queued_nil : Queued S [] log :=
  ⟨List.nodup_nil, fun _ hr => (nomatch hr), fun ahead _ _ h => by cases ahead <;> cases h⟩

/-- **A turn** of the front. -/
theorem Queued.served (h : Queued S (r :: todo) log) : Queued S todo (r :: log) := by
  obtain ⟨hfront, hnodup⟩ := List.nodup_cons.mp h.nodup
  refine ⟨hnodup, fun p hp => h.members p (List.mem_cons_of_mem r hp), ?_⟩
  intro ahead p behind htodo hlogged q hq hahead hne
  have hp : p ∈ todo := by
    rw [htodo]
    exact List.mem_append_right _ List.mem_cons_self
  have hpr : r ≠ p := fun h' => hfront (h' ▸ hp)
  have hold : p ∈ log := (List.mem_cons.mp hlogged).resolve_left (Ne.symm hpr)
  rw [since_cons_of_ne hpr]
  by_cases hqr : q = r
  · rw [hqr]
    exact List.mem_cons_self
  · refine List.mem_cons_of_mem r ?_
    refine h.due (r :: ahead) p behind ?_ hold q hq ?_ hne
    · rw [htodo]
      rfl
    · simp [hqr, hahead]

/-- The front of a queue had no turn among the last ones. -/
theorem Queued.rotates (h : Queued S (r :: todo) log) (hlog : Rotates S.card log) :
    Rotates S.card (r :: log) := by
  refine ⟨fun hrecent => ?_, hlog⟩
  have hlogged : r ∈ log := List.mem_of_mem_take hrecent
  have hothers : S.erase r ⊆ (since r log).toFinset := by
    intro q hq
    obtain ⟨hne, hmem⟩ := Finset.mem_erase.mp hq
    exact List.mem_toFinset.mpr (h.due [] r todo rfl hlogged q hmem List.not_mem_nil hne)
  have hmany : S.card - 1 ≤ (since r log).length := by
    have hcard := Finset.card_le_card hothers
    rw [Finset.card_erase_of_mem (h.members r List.mem_cons_self)] at hcard
    exact hcard.trans (List.toFinset_card_le _)
  have hinitial : log.take (S.card - 1) <+: since r log :=
    List.prefix_of_prefix_length_le (List.take_prefix _ _) (since_initial r log)
      ((List.length_take_le _ _).trans hmany)
  exact not_mem_since r log (hinitial.subset hrecent)

end queue

/-! ### Queues from stamps -/

/-- Stamped no later, members without a stamp first. -/
def NotLater [LE τ] (a b : Option τ) : Prop := ∀ t, a = some t → ∃ u, b = some u ∧ t ≤ u

section stamps

variable [DecidableEq α] [LinearOrder τ] {S : Finset α} {clock now : τ} {stamp : α → Option τ}
  {log : List (α × τ)} {r q : α}

/-- The last turn of a member. -/
def lastTurn (r : α) (log : List (α × τ)) : Option (α × τ) := log.find? fun e => decide (e.1 = r)

/-- The stamps against the log of a growing clock; members without a turn may bear an older stamp. -/
structure Stamped (S : Finset α) (clock : τ) (stamp : α → Option τ) (log : List (α × τ)) : Prop where
  descending : log.Pairwise fun a b => b.2 < a.2
  past : ∀ e ∈ log, e.2 ≤ clock
  members : ∀ e ∈ log, e.1 ∈ S
  latest : ∀ r ∈ S, ∀ e, lastTurn r log = some e → stamp r = some e.2
  older : ∀ r ∈ S, lastTurn r log = none → ∀ t, stamp r = some t → t ≤ clock ∧ ∀ e ∈ log, t < e.2

theorem Stamped.congr {stamp' : α → Option τ} (h : Stamped S clock stamp log)
    (hsame : ∀ r ∈ S, stamp' r = stamp r) : Stamped S clock stamp' log := by
  refine ⟨h.descending, h.past, h.members, fun r hr e he => ?_, fun r hr hnone t ht => ?_⟩
  · rw [hsame r hr]
    exact h.latest r hr e he
  · rw [hsame r hr] at ht
    exact h.older r hr hnone t ht

theorem stamped_nil (h : ∀ r ∈ S, ∀ t, stamp r = some t → t ≤ clock) : Stamped S clock stamp [] :=
  ⟨List.Pairwise.nil, fun _ he => (nomatch he), fun _ he => (nomatch he), fun _ _ _ he => (nomatch he),
    fun r hr _ t ht => ⟨h r hr t ht, fun _ he => nomatch he⟩⟩

theorem Stamped.later (h : Stamped S clock stamp log) (hlater : clock ≤ now) :
    Stamped S now stamp log := by
  refine ⟨h.descending, fun e he => (h.past e he).trans hlater, h.members, h.latest, ?_⟩
  intro r hr hnone t ht
  obtain ⟨hpast, hbefore⟩ := h.older r hr hnone t ht
  exact ⟨hpast.trans hlater, hbefore⟩

/-- **A recorded turn** at a later time. -/
theorem Stamped.record {stamp' : α → Option τ} (h : Stamped S clock stamp log) (hlater : clock < now)
    (hr : r ∈ S) (hown : stamp' r = some now) (hothers : ∀ q ∈ S, q ≠ r → stamp' q = stamp q) :
    Stamped S now stamp' ((r, now) :: log) := by
  have hbefore : ∀ e ∈ log, e.2 < now := fun e he => (h.past e he).trans_lt hlater
  refine ⟨List.pairwise_cons.mpr ⟨hbefore, h.descending⟩, ?_, ?_, ?_, ?_⟩
  · intro e he
    rcases List.mem_cons.mp he with rfl | hold
    · exact le_refl now
    · exact (hbefore e hold).le
  · intro e he
    rcases List.mem_cons.mp he with rfl | hold
    · exact hr
    · exact h.members e hold
  · intro q hq e he
    by_cases hqr : q = r
    · subst hqr
      simp only [lastTurn, List.find?_cons, decide_true, Option.some.injEq] at he
      rw [hown, ← he]
    · rw [hothers q hq hqr]
      refine h.latest q hq e ?_
      simpa [lastTurn, List.find?_cons, Ne.symm hqr] using he
  · intro q hq hnone t ht
    have hqr : q ≠ r := by
      rintro rfl
      simp [lastTurn] at hnone
    rw [hothers q hq hqr] at ht
    have hold := h.older q hq (by simpa [lastTurn, List.find?_cons, Ne.symm hqr] using hnone) t ht
    refine ⟨hold.1.trans hlater.le, fun e he => ?_⟩
    rcases List.mem_cons.mp he with rfl | he
    · exact hold.1.trans_lt hlater
    · exact hold.2 e he

/-- Of two last turns the later one is since the other. -/
theorem mem_since_of_later (hdescending : log.Pairwise fun a b => b.2 < a.2) {d e : α × τ}
    (hd : lastTurn r log = some d) (he : lastTurn q log = some e) (hle : d.2 ≤ e.2) (hne : q ≠ r) :
    q ∈ since r (log.map Prod.fst) := by
  induction log with
  | nil => cases hd
  | cons a log ih =>
    obtain ⟨hnewest, hrest⟩ := List.pairwise_cons.mp hdescending
    rw [List.map_cons]
    by_cases har : a.1 = r
    · -- The other turn is not older, so it is not behind.
      have hdd : a = d := by simpa [lastTurn, List.find?_cons, har] using hd
      have hbehind : lastTurn q log = some e := by
        have haq : a.1 ≠ q := fun h => hne (h.symm.trans har)
        simpa [lastTurn, List.find?_cons, haq] using he
      have hlt := hnewest e (List.mem_of_find?_eq_some hbehind)
      rw [hdd] at hlt
      exact absurd hlt (not_lt.mpr hle)
    · rw [since_cons_of_ne har]
      by_cases haq : a.1 = q
      · rw [haq]
        exact List.mem_cons_self
      · refine List.mem_cons_of_mem _ (ih hrest ?_ ?_)
        · simpa [lastTurn, List.find?_cons, har] using hd
        · simpa [lastTurn, List.find?_cons, haq] using he

/-- A member stamped no earlier than one that had a turn had a later turn. -/
theorem Stamped.mem_since (h : Stamped S clock stamp log) (hr : r ∈ S) (hq : q ∈ S)
    (hlogged : r ∈ log.map Prod.fst) (hstamps : NotLater (stamp r) (stamp q)) (hne : q ≠ r) :
    q ∈ since r (log.map Prod.fst) := by
  obtain ⟨d, hd⟩ : ∃ d, lastTurn r log = some d := by
    obtain ⟨e, he, rfl⟩ := List.mem_map.mp hlogged
    exact Option.isSome_iff_exists.mp (List.find?_isSome.mpr ⟨e, he, by simp⟩)
  obtain ⟨u, hu, hle⟩ := hstamps d.2 (h.latest r hr d hd)
  cases he : lastTurn q log with
  | some e =>
    have hsame : e.2 = u := Option.some.inj ((h.latest q hq e he).symm.trans hu)
    exact mem_since_of_later h.descending hd he (hsame ▸ hle) hne
  | none =>
    have hlt := (h.older q hq he u hu).2 d (List.mem_of_find?_eq_some hd)
    exact absurd hlt (not_lt.mpr hle)

/-- **A queue of the oldest stamps** is in turn order. -/
theorem Queued.of_oldest {todo : List α} (h : Stamped S clock stamp log) (hnodup : todo.Nodup)
    (hmembers : ∀ r ∈ todo, r ∈ S)
    (holdest : ∀ ahead r behind, todo = ahead ++ r :: behind →
      ∀ q ∈ S, q ∉ ahead → NotLater (stamp r) (stamp q)) :
    Queued S todo (log.map Prod.fst) := by
  refine ⟨hnodup, hmembers, fun ahead r behind htodo hlogged q hq hahead hne => ?_⟩
  have hr : r ∈ S := hmembers r (by simp [htodo])
  exact h.mem_since hr hq hlogged (holdest ahead r behind htodo q hq hahead) hne

end stamps

end Rotation
