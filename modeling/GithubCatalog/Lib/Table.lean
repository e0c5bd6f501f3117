import Mathlib.Data.List.Nodup
import Mathlib.Data.List.Basic
import Mathlib.Data.Option.Basic
import Mathlib.Data.Prod.Basic

/-!
# Tables: keys and references over lists of rows

A table is a list of rows.  This file carries the three kinds of declared constraint a relational
schema has, over arbitrary row and key types, and what the statements of a transaction do to them:

* `UniqueOn key t` - a primary key or a unique index;
* `Refers fk t key u` - a (nullable) foreign key from `t` into `u`;
* `deleteWhere`, `updateWhere`, `insertUnless`, `upsertWhere`, `upsertAll` - the set-at-a-time
  statements, as list operations.

Deleting rows never breaks a key, and it breaks a reference only from a row that stays to a row that
goes: `Refers.deleteWhere_right` is the one obligation a delete statement leaves, and `Spares` the
usual way to meet it.  A key lookup sees an upsert of its own key and no other
(`find?_upsertWhere_own`, `find?_upsertWhere_other`).
-/

namespace Relational

variable {α β κ : Type*}

/-- No two rows of `t` share a key. -/
def UniqueOn (key : α → κ) (t : List α) : Prop := (t.map key).Nodup

/-- Every non-null `fk` of a row of `t` is the key of a row of `u`. -/
def Refers (fk : α → Option κ) (t : List α) (key : β → κ) (u : List β) : Prop :=
  ∀ a ∈ t, ∀ k ∈ fk a, k ∈ u.map key

instance [DecidableEq κ] (key : α → κ) (t : List α) : Decidable (UniqueOn key t) :=
  inferInstanceAs (Decidable (t.map key).Nodup)

instance [DecidableEq κ] (fk : α → Option κ) (t : List α) (key : β → κ) (u : List β) :
    Decidable (Refers fk t key u) :=
  inferInstanceAs (Decidable (∀ a ∈ t, ∀ k ∈ fk a, k ∈ u.map key))

/-- `delete from t where p`. -/
def deleteWhere (p : α → Bool) (t : List α) : List α := t.filter fun a => !p a

/-- `update t set f where p`. -/
def updateWhere (p : α → Bool) (f : α → α) (t : List α) : List α :=
  t.map fun a => if p a then f a else a

/-- `insert into t values row on conflict do nothing`, where `p` recognises a conflicting row. -/
def insertUnless (p : α → Bool) (row : α) (t : List α) : List α :=
  if t.any p then t else t ++ [row]

/-- `insert into t values row on conflict do update set f`, where `p` recognises the conflicting
row. -/
def upsertWhere (p : α → Bool) (f : α → α) (row : α) (t : List α) : List α :=
  if t.any p then updateWhere p f t else t ++ [row]

/-- `insert into t select rows on conflict (key) do update set merge`: `merge old new` is the updated
row.  The statement is an error when `rows` meets one key twice. -/
def upsertAll [DecidableEq κ] (key : α → κ) (merge : α → α → α) (rows t : List α) : List α :=
  rows.foldl (fun t row => upsertWhere (fun a => decide (key a = key row)) (merge · row) row t) t

/-- `insert into t select rows on conflict do nothing`. -/
def insertAllUnless [DecidableEq κ] (key : α → κ) (rows t : List α) : List α :=
  rows.foldl (fun t row => insertUnless (fun a => decide (key a = key row)) row t) t

@[simp] theorem mem_deleteWhere {p : α → Bool} {t : List α} {a : α} :
    a ∈ deleteWhere p t ↔ a ∈ t ∧ p a = false := by
  simp [deleteWhere]

theorem mem_updateWhere {p : α → Bool} {f : α → α} {t : List α} {b : α} :
    b ∈ updateWhere p f t ↔ ∃ a ∈ t, (if p a then f a else a) = b := by
  simp [updateWhere]

/-- An update that meets no row. -/
theorem updateWhere_of_none {p : α → Bool} {f : α → α} {t : List α} (h : ∀ a ∈ t, p a = false) :
    updateWhere p f t = t := by
  refine (List.map_congr_left fun a ha => ?_).trans (List.map_id _)
  exact if_neg (by rw [h a ha]; exact Bool.false_ne_true)

theorem deleteWhere_sublist (p : α → Bool) (t : List α) : (deleteWhere p t).Sublist t :=
  List.filter_sublist

/-- A selection commutes with an update that leaves its condition alone. -/
theorem filter_updateWhere {p q : α → Bool} {f : α → α} (hf : ∀ a, p (f a) = p a) (t : List α) :
    (updateWhere q f t).filter p = updateWhere q f (t.filter p) := by
  rw [updateWhere, updateWhere, List.filter_map]
  congr 1
  apply List.filter_congr
  intro a _
  simp only [Function.comp]
  split
  · exact hf a
  · rfl

/-- So does a delete. -/
theorem deleteWhere_updateWhere {p q : α → Bool} {f : α → α} (hf : ∀ a, p (f a) = p a)
    (t : List α) : deleteWhere p (updateWhere q f t) = updateWhere q f (deleteWhere p t) :=
  filter_updateWhere (fun a => by rw [hf]) t

theorem any_updateWhere {p q : α → Bool} {f : α → α} (t : List α) :
    (updateWhere p f t).any q = t.any fun a => q (if p a then f a else a) := by
  rw [updateWhere, List.any_map]
  rfl

/-- An upsert decides a test that only its own row can meet. -/
theorem any_upsertWhere_of_own {p q : α → Bool} {f : α → α} {row : α} {b : Bool}
    (hown : ∀ a, q a = true → p a = true) (hf : ∀ a, p a = true → q (f a) = b)
    (hrow : q row = b) (t : List α) : (upsertWhere p f row t).any q = b := by
  have hother : ∀ a, ¬ p a = true → q a = false := fun a ha => by
    cases hq : q a with
    | false => rfl
    | true => exact absurd (hown a hq) ha
  unfold upsertWhere
  split
  · next hany =>
    rw [any_updateWhere]
    cases b with
    | true =>
      obtain ⟨a, ha, hp⟩ := List.any_eq_true.mp hany
      exact List.any_eq_true.mpr ⟨a, ha, by rw [if_pos hp, hf a hp]⟩
    | false =>
      rw [List.any_eq_false]
      intro a _
      split
      · next hp => rw [hf a hp]; exact Bool.false_ne_true
      · next hp => rw [hother a hp]; exact Bool.false_ne_true
  · next hany =>
    have hnone : t.any q = false := by
      rw [List.any_eq_false]
      intro a ha hq
      exact hany (List.any_eq_true.mpr ⟨a, ha, hown a hq⟩)
    rw [List.any_append, hnone, Bool.false_or, List.any_cons, hrow, List.any_nil, Bool.or_false]

/-- An upsert leaves a test alone that its own row never meets. -/
theorem any_upsertWhere_of_other {p q : α → Bool} {f : α → α} {row : α}
    (hf : ∀ a, p a = true → q (f a) = q a) (hrow : q row = false) (t : List α) :
    (upsertWhere p f row t).any q = t.any q := by
  unfold upsertWhere
  split
  · rw [any_updateWhere]
    congr 1
    funext a
    split
    · next hp => exact hf a hp
    · rfl
  · rw [List.any_append, List.any_cons, hrow, List.any_nil, Bool.or_false, Bool.or_false]

/-! ### Lookups -/

/-- An update that leaves a lookup's condition alone updates what the lookup finds. -/
theorem find?_updateWhere {p q : α → Bool} {f : α → α} (hf : ∀ a, q (f a) = q a) (t : List α) :
    (updateWhere p f t).find? q = (t.find? q).map fun a => if p a then f a else a := by
  have htest : (q ∘ fun a => if p a then f a else a) = q := by
    funext a
    simp only [Function.comp]
    split
    · exact hf a
    · rfl
  rw [updateWhere, List.find?_map, htest]

/-- A lookup by the condition of an upsert finds the upserted row. -/
theorem find?_upsertWhere_self {p : α → Bool} {f : α → α} {row : α}
    (hf : ∀ a, p a = true → p (f a) = true) (hrow : p row = true) (t : List α) :
    (upsertWhere p f row t).find? p = some ((t.find? p).elim row f) := by
  unfold upsertWhere
  split
  · next hany =>
    have htest : (p ∘ fun a => if p a then f a else a) = p := by
      funext a
      cases ha : p a with
      | true => simp [ha, hf a ha]
      | false => simp [ha]
    obtain ⟨a, ha⟩ := Option.isSome_iff_exists.mp
      (List.find?_isSome.mpr (List.any_eq_true.mp hany))
    rw [updateWhere, List.find?_map, htest, ha, Option.map_some, if_pos (List.find?_some ha),
      Option.elim_some]
  · next hany =>
    have hnone : t.find? p = none :=
      List.find?_eq_none.mpr fun a ha hp => hany (List.any_eq_true.mpr ⟨a, ha, hp⟩)
    rw [List.find?_append, hnone, Option.none_or, List.find?_singleton, if_pos hrow, Option.elim_none]

/-- A lookup by the upserted key finds the value the statement sets. -/
theorem find?_upsertWhere_own {ι : Type*} [DecidableEq κ] {key : α → κ} {k : κ} {f : α → α} {row : α}
    {g : α → ι} {b : ι} (hkey : ∀ a, key a = k → key (f a) = k) (hrow : key row = k)
    (hf : ∀ a, g (f a) = b) (hg : g row = b) (t : List α) :
    ((upsertWhere (fun a => decide (key a = k)) f row t).find? fun a => decide (key a = k)).map g =
      some b := by
  rw [find?_upsertWhere_self (by simpa using hkey) (by simpa using hrow), Option.map_some]
  cases t.find? fun a => decide (key a = k) with
  | none => exact congrArg some hg
  | some a => exact congrArg some (hf a)

/-- A lookup by another key finds what it found. -/
theorem find?_upsertWhere_other [DecidableEq κ] {key : α → κ} {k l : κ} {f : α → α} {row : α}
    (hkey : ∀ a, key (f a) = key a) (hrow : key row = k) (hother : k ≠ l) (t : List α) :
    ((upsertWhere (fun a => decide (key a = k)) f row t).find? fun a => decide (key a = l)) =
      t.find? fun a => decide (key a = l) := by
  unfold upsertWhere
  split
  · rw [find?_updateWhere (fun a => by rw [hkey])]
    cases hfind : t.find? fun a => decide (key a = l) with
    | none => rfl
    | some a =>
      have hl : key a = l := by simpa using List.find?_some hfind
      rw [Option.map_some, if_neg]
      simpa [hl] using hother.symm
  · rw [List.find?_append, List.find?_singleton, if_neg (by simpa [hrow] using hother), Option.or_none]

/-- An update of rows that a selection rejects, old or new, leaves the selection alone. -/
theorem filter_updateWhere_of_mem {p q : α → Bool} {f : α → α} {t : List α}
    (hq : ∀ a ∈ t, q a = true → p a = false ∧ p (f a) = false) :
    (updateWhere q f t).filter p = t.filter p := by
  rw [updateWhere, List.filter_map]
  have htest : t.filter (p ∘ fun a => if q a then f a else a) = t.filter p := by
    apply List.filter_congr
    intro a ha
    simp only [Function.comp]
    split
    · next hqa => rw [(hq a ha hqa).1, (hq a ha hqa).2]
    · rfl
  rw [htest]
  refine (List.map_congr_left fun a ha => ?_).trans (List.map_id _)
  rw [if_neg]
  · rfl
  · intro hqa
    obtain ⟨hmem, hpa⟩ := List.mem_filter.mp ha
    rw [(hq a hmem hqa).1] at hpa
    cases hpa

theorem filter_updateWhere_rejected {p q : α → Bool} {f : α → α}
    (hq : ∀ a, q a = true → p a = false ∧ p (f a) = false) (t : List α) :
    (updateWhere q f t).filter p = t.filter p :=
  filter_updateWhere_of_mem fun a _ => hq a

/-- An upsert of rows that a selection rejects, old or new, leaves the selection alone. -/
theorem filter_upsertWhere {p q : α → Bool} {f : α → α} {row : α}
    (hq : ∀ a, q a = true → p a = false ∧ p (f a) = false) (hrow : p row = false) (t : List α) :
    (upsertWhere q f row t).filter p = t.filter p := by
  unfold upsertWhere
  split
  · exact filter_updateWhere_rejected hq t
  · rw [List.filter_append, List.filter_singleton, hrow]
    exact List.append_nil _

theorem filter_upsertAll [DecidableEq κ] {key : α → κ} {merge : α → α → α} {p : α → Bool}
    {rows : List α} (hrows : ∀ row ∈ rows, p row = false ∧
      ∀ a, key a = key row → p a = false ∧ p (merge a row) = false) (t : List α) :
    (upsertAll key merge rows t).filter p = t.filter p := by
  induction rows generalizing t with
  | nil => rfl
  | cons row rows ih =>
    obtain ⟨hrow, hold⟩ := hrows row List.mem_cons_self
    rw [upsertAll, List.foldl_cons, ← upsertAll,
      ih (fun r hr => hrows r (List.mem_cons_of_mem _ hr)),
      filter_upsertWhere (fun a ha => hold a (of_decide_eq_true ha)) hrow]

theorem mem_upsertWhere {p : α → Bool} {f : α → α} {row b : α} {t : List α} :
    b ∈ upsertWhere p f row t ↔ (b ∈ t ∧ p b = false) ∨ (∃ a ∈ t, p a = true ∧ b = f a) ∨
      ((∀ a ∈ t, p a = false) ∧ b = row) := by
  unfold upsertWhere
  split
  · next hany =>
    obtain ⟨x, hx, hpx⟩ := List.any_eq_true.mp hany
    rw [mem_updateWhere]
    constructor
    · rintro ⟨a, ha, rfl⟩
      split
      · next hp => exact .inr (.inl ⟨a, ha, hp, rfl⟩)
      · next hp => exact .inl ⟨ha, Bool.eq_false_iff.mpr hp⟩
    · rintro (⟨hb, hp⟩ | ⟨a, ha, hp, rfl⟩ | ⟨hnone, -⟩)
      · exact ⟨b, hb, by rw [hp]; rfl⟩
      · exact ⟨a, ha, if_pos hp⟩
      · rw [hnone x hx] at hpx
        cases hpx
  · next hany =>
    have hnone : ∀ a ∈ t, p a = false := by simpa using hany
    rw [List.mem_append, List.mem_singleton]
    constructor
    · rintro (hb | rfl)
      · exact .inl ⟨hb, hnone b hb⟩
      · exact .inr (.inr ⟨hnone, rfl⟩)
    · rintro (⟨hb, -⟩ | ⟨a, ha, hp, -⟩ | ⟨-, rfl⟩)
      · exact .inl hb
      · rw [hnone a ha] at hp
        cases hp
      · exact .inr rfl

/-- **A bulk upsert, row by row.**  A row under no new key stays, a row under a new key is merged, and
a new key without an old row is inserted. -/
theorem mem_upsertAll [DecidableEq κ] {key : α → κ} {merge : α → α → α}
    (hmerge : ∀ a row, key (merge a row) = key a) {rows : List α} (hrows : (rows.map key).Nodup)
    {b : α} {t : List α} :
    b ∈ upsertAll key merge rows t ↔ (b ∈ t ∧ key b ∉ rows.map key) ∨
      ∃ row ∈ rows, (∃ a ∈ t, key a = key row ∧ b = merge a row) ∨
        (key row ∉ t.map key ∧ b = row) := by
  induction rows generalizing t with
  | nil => simp [upsertAll]
  | cons new rows ih =>
    obtain ⟨hhead, htail⟩ := List.nodup_cons.mp hrows
    rw [upsertAll, List.foldl_cons, ← upsertAll, ih htail]
    -- The rows that the first upsert leaves under another key are the old ones.
    have hold : ∀ a, key a ≠ key new →
        (a ∈ upsertWhere (fun a => decide (key a = key new)) (merge · new) new t ↔ a ∈ t) := by
      intro a hne
      rw [mem_upsertWhere]
      constructor
      · rintro (⟨ha, -⟩ | ⟨x, -, hx, rfl⟩ | ⟨-, rfl⟩)
        · exact ha
        · exact absurd ((hmerge x new).trans (of_decide_eq_true hx)) hne
        · exact absurd rfl hne
      · exact fun ha => .inl ⟨ha, decide_eq_false hne⟩
    have hne_of_mem : ∀ row ∈ rows, key row ≠ key new := fun row hrow heq =>
      hhead (heq ▸ List.mem_map.mpr ⟨row, hrow, rfl⟩)
    have hlater : (∃ row ∈ rows, (∃ a ∈ upsertWhere (fun a => decide (key a = key new))
          (merge · new) new t, key a = key row ∧ b = merge a row) ∨
          (key row ∉ (upsertWhere (fun a => decide (key a = key new)) (merge · new) new t).map key ∧
            b = row)) ↔
        ∃ row ∈ rows, (∃ a ∈ t, key a = key row ∧ b = merge a row) ∨
          (key row ∉ t.map key ∧ b = row) := by
      refine exists_congr fun row => and_congr_right fun hrow => or_congr ?_ ?_
      · refine exists_congr fun a => ⟨?_, ?_⟩
        · rintro ⟨ha, hkey, hb⟩
          exact ⟨(hold a (hkey ▸ hne_of_mem row hrow)).mp ha, hkey, hb⟩
        · rintro ⟨ha, hkey, hb⟩
          exact ⟨(hold a (hkey ▸ hne_of_mem row hrow)).mpr ha, hkey, hb⟩
      · refine and_congr_left fun _ => not_congr ?_
        simp only [List.mem_map]
        refine exists_congr fun a => and_congr_left fun hkey => ?_
        exact hold a (hkey ▸ hne_of_mem row hrow)
    rw [hlater, mem_upsertWhere]
    simp only [List.map_cons, List.mem_cons, not_or, List.mem_map, exists_eq_or_imp,
      decide_eq_true_eq, decide_eq_false_iff_not]
    constructor
    · rintro (⟨⟨hb, hne⟩ | ⟨a, ha, hkey, rfl⟩ | ⟨hnone, rfl⟩, hfar⟩ | hrow)
      · exact .inl ⟨hb, hne, hfar⟩
      · exact .inr (.inl (.inl ⟨a, ha, hkey, rfl⟩))
      · exact .inr (.inl (.inr ⟨fun ⟨a, ha, hkey⟩ => hnone a ha hkey, rfl⟩))
      · exact .inr (.inr hrow)
    · rintro (⟨hb, hne, hfar⟩ | (⟨a, ha, hkey, rfl⟩ | ⟨hnone, rfl⟩) | hrow)
      · exact .inl ⟨.inl ⟨hb, hne⟩, hfar⟩
      · refine .inl ⟨.inr (.inl ⟨a, ha, hkey, rfl⟩), ?_⟩
        rintro ⟨row, hrow, hsame⟩
        exact hne_of_mem row hrow (hsame.trans ((hmerge a new).trans hkey))
      · refine .inl ⟨.inr (.inr ⟨fun a ha hkey => hnone ⟨a, ha, hkey⟩, rfl⟩), ?_⟩
        rintro ⟨row, hrow, hsame⟩
        exact hne_of_mem row hrow hsame
      · exact .inr hrow

/-- Rows under new keys are all inserted. -/
theorem insertAllUnless_fresh [DecidableEq κ] {key : α → κ} {rows : List α}
    (hrows : (rows.map key).Nodup) {t : List α} (hfresh : ∀ row ∈ rows, key row ∉ t.map key) :
    insertAllUnless key rows t = t ++ rows := by
  induction rows generalizing t with
  | nil => exact (List.append_nil t).symm
  | cons row rows ih =>
    have hnew : (t.any fun a => decide (key a = key row)) = false := by
      rw [List.any_eq_false]
      intro a ha hkey
      exact hfresh row List.mem_cons_self
        (List.mem_map.mpr ⟨a, ha, of_decide_eq_true hkey⟩)
    obtain ⟨hhead, htail⟩ := List.nodup_cons.mp hrows
    rw [insertAllUnless, List.foldl_cons, insertUnless, if_neg (by simp [hnew]), ← insertAllUnless,
      ih htail, List.append_assoc, List.singleton_append]
    intro r hr hmem
    rw [List.map_append, List.mem_append] at hmem
    rcases hmem with hold | hsame
    · exact hfresh r (List.mem_cons_of_mem _ hr) hold
    · have hkey := List.mem_singleton.mp hsame
      exact hhead (hkey ▸ List.mem_map.mpr ⟨r, hr, rfl⟩)

/-! ### Row properties -/

section rows

variable {P : α → Prop} {t : List α}

theorem forall_append_singleton {row : α} (ht : ∀ a ∈ t, P a) (hrow : P row) :
    ∀ a ∈ t ++ [row], P a := by
  intro a ha
  rcases List.mem_append.mp ha with hold | hnew
  · exact ht a hold
  · rw [List.mem_singleton.mp hnew]
    exact hrow

theorem forall_updateWhere {p : α → Bool} {f : α → α} (ht : ∀ a ∈ t, P a)
    (hf : ∀ a ∈ t, p a = true → P (f a)) : ∀ a ∈ updateWhere p f t, P a := by
  intro b hb
  obtain ⟨a, ha, rfl⟩ := mem_updateWhere.mp hb
  split
  · next hp => exact hf a ha hp
  · exact ht a ha

theorem forall_insertUnless {p : α → Bool} {row : α} (ht : ∀ a ∈ t, P a) (hrow : P row) :
    ∀ a ∈ insertUnless p row t, P a := by
  unfold insertUnless
  split
  · exact ht
  · exact forall_append_singleton ht hrow

theorem forall_upsertWhere {p : α → Bool} {f : α → α} {row : α} (ht : ∀ a ∈ t, P a)
    (hf : ∀ a ∈ t, p a = true → P (f a)) (hrow : P row) : ∀ a ∈ upsertWhere p f row t, P a := by
  unfold upsertWhere
  split
  · exact forall_updateWhere ht hf
  · exact forall_append_singleton ht hrow

/-- A bulk upsert keeps a row property that its rows have and its merge keeps. -/
theorem forall_upsertAll [DecidableEq κ] {key : α → κ} {merge : α → α → α} {rows : List α}
    (ht : ∀ a ∈ t, P a) (hrows : ∀ row ∈ rows, P row)
    (hmerge : ∀ a, ∀ row ∈ rows, P a → key a = key row → P (merge a row)) :
    ∀ a ∈ upsertAll key merge rows t, P a := by
  induction rows generalizing t with
  | nil => exact ht
  | cons row rows ih =>
    refine ih (forall_upsertWhere ht ?_ (hrows row List.mem_cons_self))
      (fun r hr => hrows r (List.mem_cons_of_mem _ hr))
      (fun a r hr => hmerge a r (List.mem_cons_of_mem _ hr))
    intro a ha hkey
    exact hmerge a row List.mem_cons_self (ht a ha) (of_decide_eq_true hkey)

/-- Every old row lives on in a bulk upsert, up to what its merge leaves alone. -/
theorem exists_mem_upsertAll [DecidableEq κ] {ι : Type*} {key : α → κ} {merge : α → α → α}
    {g : α → ι} (hg : ∀ a row, g (merge a row) = g a) {rows : List α} {a : α} (ha : a ∈ t) :
    ∃ b ∈ upsertAll key merge rows t, g b = g a := by
  induction rows generalizing t a with
  | nil => exact ⟨a, ha, rfl⟩
  | cons row rows ih =>
    have hstep : ∃ b ∈ upsertWhere (fun a => decide (key a = key row)) (merge · row) row t,
        g b = g a := by
      unfold upsertWhere
      split
      · refine ⟨_, mem_updateWhere.mpr ⟨a, ha, rfl⟩, ?_⟩
        split
        · exact hg a row
        · rfl
      · exact ⟨a, List.mem_append_left _ ha, rfl⟩
    obtain ⟨b, hb, hga⟩ := hstep
    obtain ⟨d, hd, hgb⟩ := ih hb
    exact ⟨d, hd, hgb.trans hga⟩

end rows

/-! ### Keys -/

theorem UniqueOn.sublist {key : α → κ} {s t : List α} (h : UniqueOn key t) (hs : s.Sublist t) :
    UniqueOn key s :=
  List.Nodup.sublist (hs.map key) h

theorem UniqueOn.deleteWhere {key : α → κ} {t : List α} (h : UniqueOn key t) (p : α → Bool) :
    UniqueOn key (deleteWhere p t) :=
  h.sublist (deleteWhere_sublist p t)

/-- A new key keeps a table unique. -/
theorem UniqueOn.append_singleton {key : α → κ} {t : List α} {a : α} (h : UniqueOn key t)
    (ha : key a ∉ t.map key) : UniqueOn key (t ++ [a]) := by
  rw [UniqueOn, List.map_append, List.map_singleton, List.nodup_append]
  refine ⟨h, List.nodup_singleton _, ?_⟩
  intro x hx y hy heq
  rw [List.mem_singleton.mp hy] at heq
  exact ha (heq ▸ hx)

/-- The last row's key is new. -/
theorem UniqueOn.not_mem_of_append {key : α → κ} {t : List α} {a : α}
    (h : UniqueOn key (t ++ [a])) : key a ∉ t.map key := by
  rw [UniqueOn, List.map_append, List.map_singleton, List.nodup_append] at h
  intro hmem
  exact h.2.2 _ hmem _ List.mem_cons_self rfl

/-- A unique key determines its row. -/
theorem UniqueOn.eq_of_mem {key : α → κ} {t : List α} (h : UniqueOn key t) {a b : α}
    (ha : a ∈ t) (hb : b ∈ t) (hk : key a = key b) : a = b :=
  List.inj_on_of_nodup_map h ha hb hk

/-- A key selects one row at most. -/
theorem UniqueOn.length_filter_le_one [DecidableEq κ] {key : α → κ} {t : List α} (h : UniqueOn key t)
    (k : κ) : (t.filter fun a => decide (key a = k)).length ≤ 1 := by
  have hmem : ∀ a ∈ t.filter fun a => decide (key a = k), key a = k :=
    fun a ha => of_decide_eq_true (List.mem_filter.mp ha).2
  have hunique : UniqueOn key (t.filter fun a => decide (key a = k)) := h.sublist List.filter_sublist
  revert hmem hunique
  cases t.filter fun a => decide (key a = k) with
  | nil => intros; exact Nat.zero_le 1
  | cons a rest =>
    cases rest with
    | nil => intros; exact Nat.le_refl 1
    | cons b rest =>
      intro hmem hunique
      have hab : key a = key b := (hmem a (by simp)).trans (hmem b (by simp)).symm
      simp [UniqueOn, hab] at hunique

/-- A key that is present selects its row. -/
theorem UniqueOn.filter_eq_singleton [DecidableEq κ] {key : α → κ} {t : List α} (h : UniqueOn key t)
    {a : α} (ha : a ∈ t) : (t.filter fun b => decide (key b = key a)) = [a] := by
  have hmem : a ∈ t.filter fun b => decide (key b = key a) :=
    List.mem_filter.mpr ⟨ha, decide_eq_true rfl⟩
  have hlength := h.length_filter_le_one (key a)
  cases hrows : t.filter fun b => decide (key b = key a) with
  | nil =>
    rw [hrows] at hmem
    cases hmem
  | cons b rest =>
    rw [hrows] at hmem hlength
    have hrest : rest = [] := List.eq_nil_of_length_eq_zero (by simpa using hlength)
    subst hrest
    rw [List.mem_singleton.mp hmem]

/-- A lookup by a unique key finds the row with it. -/
theorem UniqueOn.find?_eq [DecidableEq κ] {key : α → κ} {t : List α} (h : UniqueOn key t) {a : α}
    (ha : a ∈ t) : t.find? (fun b => decide (key b = key a)) = some a := by
  cases hfind : t.find? fun b => decide (key b = key a) with
  | none => exact absurd (decide_eq_true rfl) (List.find?_eq_none.mp hfind a ha)
  | some b =>
    have hkey : key b = key a := by simpa using List.find?_some hfind
    rw [h.eq_of_mem (List.mem_of_find?_eq_some hfind) ha hkey]

/-- An update of the one row with a key. -/
theorem UniqueOn.updateWhere_split [DecidableEq κ] {key : α → κ} {t : List α} (h : UniqueOn key t)
    {a : α} (ha : a ∈ t) (f : α → α) : ∃ s u, t = s ++ a :: u ∧
      updateWhere (fun b => decide (key b = key a)) f t = s ++ f a :: u := by
  obtain ⟨s, u, rfl⟩ := List.append_of_mem ha
  have hother : ∀ b ∈ s ++ u, (if decide (key b = key a) = true then f b else b) = b := by
    intro b hb
    refine if_neg fun hkey => ?_
    have hnodup := List.nodup_middle.mp (by simpa [UniqueOn] using h)
    refine (List.nodup_cons.mp hnodup).1 ?_
    rw [← of_decide_eq_true hkey]
    simpa using List.mem_map_of_mem (f := key) hb
  refine ⟨s, u, rfl, ?_⟩
  rw [updateWhere, List.map_append, List.map_cons,
    List.map_congr_left (g := id) fun b hb => hother b (List.mem_append_left _ hb),
    List.map_congr_left (g := id) fun b hb => hother b (List.mem_append_right _ hb)]
  simp

/-- A row in place of another keeps a key unique when it brings a new one. -/
theorem UniqueOn.replace {key : α → κ} {s u : List α} {a b : α} (h : UniqueOn key (s ++ a :: u))
    (hb : key b ∉ (s ++ a :: u).map key) : UniqueOn key (s ++ b :: u) := by
  have hold : (a :: (s ++ u)).map key |>.Nodup := by
    have hperm : ((s ++ a :: u).map key).Perm ((a :: (s ++ u)).map key) := List.perm_middle.map key
    exact hperm.nodup_iff.mp h
  have hnew : ((b :: (s ++ u)).map key).Nodup := by
    rw [List.map_cons, List.nodup_cons] at hold ⊢
    refine ⟨fun hmem => hb ?_, hold.2⟩
    rw [List.map_append] at hmem ⊢
    rw [List.map_cons]
    rcases List.mem_append.mp hmem with hs | hu
    · exact List.mem_append_left _ hs
    · exact List.mem_append_right _ (List.mem_cons_of_mem _ hu)
  have hperm : ((s ++ b :: u).map key).Perm ((b :: (s ++ u)).map key) := List.perm_middle.map key
  exact hperm.nodup_iff.mpr hnew

/-- An upsert by one key of a row whose other key is new keeps both unique. -/
theorem UniqueOn.upsert_row [DecidableEq κ] {μ : Type*} {key : α → κ} {other : α → μ} {t : List α} {row : α}
    (h : UniqueOn key t) (ho : UniqueOn other t) (hrow : other row ∉ t.map other) :
    UniqueOn key (upsertWhere (fun a => decide (key a = key row)) (fun _ => row) row t) ∧
      UniqueOn other (upsertWhere (fun a => decide (key a = key row)) (fun _ => row) row t) := by
  unfold upsertWhere
  split
  · next hany =>
    obtain ⟨a, ha, hkey⟩ := List.any_eq_true.mp hany
    have hkey : key row = key a := (of_decide_eq_true hkey).symm
    obtain ⟨s, u, rfl, hupdate⟩ := h.updateWhere_split ha fun _ => row
    rw [hkey, hupdate]
    refine ⟨?_, ho.replace hrow⟩
    rw [UniqueOn, List.map_append, List.map_cons] at h ⊢
    rwa [hkey]
  · next hnone =>
    refine ⟨h.append_singleton fun hmem => hnone ?_, ho.append_singleton hrow⟩
    obtain ⟨a, ha, hkey⟩ := List.mem_map.mp hmem
    exact List.any_eq_true.mpr ⟨a, ha, decide_eq_true hkey⟩

/-- An update that leaves the key alone leaves the key list alone. -/
theorem map_updateWhere {key : α → κ} {p : α → Bool} {f : α → α} (hf : ∀ a, key (f a) = key a)
    (t : List α) : (updateWhere p f t).map key = t.map key := by
  rw [updateWhere, List.map_map]
  apply List.map_congr_left
  intro a _
  simp only [Function.comp]
  split
  · exact hf a
  · rfl

theorem filterMap_updateWhere {g : α → Option κ} {p : α → Bool} {f : α → α}
    (hf : ∀ a, g (f a) = g a) (t : List α) : (updateWhere p f t).filterMap g = t.filterMap g := by
  have hmap := map_updateWhere (p := p) hf t
  have hid : ∀ u : List α, u.filterMap g = (u.map g).filterMap id := by
    intro u
    rw [List.filterMap_map]
    rfl
  rw [hid, hmap, ← hid]

/-! ### References -/

theorem Refers.deleteWhere_left {fk : α → Option κ} {t : List α} {key : β → κ} {u : List β}
    (h : Refers fk t key u) (p : α → Bool) : Refers fk (deleteWhere p t) key u := by
  intro a ha k hk
  exact h a (mem_deleteWhere.mp ha).1 k hk

/-- Fewer referencing rows refer still. -/
theorem Refers.sublist {fk : α → Option κ} {s t : List α} {key : β → κ} {u : List β}
    (h : Refers fk t key u) (hs : s.Sublist t) : Refers fk s key u := by
  intro a ha k hk
  exact h a (hs.subset ha) k hk

/-- More referenced rows are referred to still. -/
theorem Refers.superset {fk : α → Option κ} {t : List α} {key : β → κ} {u v : List β}
    (h : Refers fk t key u) (hv : u ⊆ v) : Refers fk t key v := by
  intro a ha k hk
  obtain ⟨b, hb, hbk⟩ := List.mem_map.mp (h a ha k hk)
  exact List.mem_map.mpr ⟨b, hv hb, hbk⟩

/-- A delete on the referenced side keeps the reference when no row that stays names a row that
goes. -/
theorem Refers.deleteWhere_right {fk : α → Option κ} {t : List α} {key : β → κ} {u : List β}
    (h : Refers fk t key u) {p : β → Bool}
    (hp : ∀ a ∈ t, ∀ b ∈ u, key b ∈ fk a → p b = false) :
    Refers fk t key (Relational.deleteWhere p u) := by
  intro a ha k hk
  obtain ⟨b, hb, hbk⟩ := List.mem_map.mp (h a ha k hk)
  subst hbk
  exact List.mem_map_of_mem (mem_deleteWhere.mpr ⟨hb, hp a ha b hb hk⟩)

/-- No row of `t` names a marked key. -/
def Spares (fk : α → Option κ) (t : List α) (marked : κ → Bool) : Prop :=
  ∀ a ∈ t, ∀ k ∈ fk a, marked k = false

/-- Deleting the rows that name a marked key leaves none. -/
theorem spares_deleteWhere (f : α → κ) (t : List α) (marked : κ → Bool) :
    Spares (fun a => some (f a)) (deleteWhere (fun a => marked (f a)) t) marked := by
  intro a ha k hk
  rw [← Option.mem_some_iff.mp hk]
  exact (mem_deleteWhere.mp ha).2

/-- A delete of rows with marked keys only keeps a reference that spares them. -/
theorem Refers.deleteWhere_spared {fk : α → Option κ} {t : List α} {key : β → κ} {u : List β}
    {marked : κ → Bool} {p : β → Bool} (h : Refers fk t key u) (hs : Spares fk t marked)
    (hp : ∀ b ∈ u, marked (key b) = false → p b = false) :
    Refers fk t key (Relational.deleteWhere p u) :=
  h.deleteWhere_right fun a ha b hb hk => hp b hb (hs a ha _ hk)

/-! ### Rows side by side -/

/-- A row on the left has its row on the right. -/
theorem exists_mem_of_forall₂ {α β : Type*} {R : α → β → Prop} {s : List α} {t : List β}
    (h : List.Forall₂ R s t) {a : α} (ha : a ∈ s) : ∃ b ∈ t, R a b := by
  induction h with
  | nil => cases ha
  | cons hhead _ ih =>
    rcases List.mem_cons.mp ha with rfl | hrest
    · exact ⟨_, List.mem_cons_self, hhead⟩
    · obtain ⟨b, hb, hR⟩ := ih hrest
      exact ⟨b, List.mem_cons_of_mem _ hb, hR⟩

end Relational
