import Mathlib.Order.Defs.Unbundled
import Mathlib.Data.List.Basic

/-!
# Transactions over a state with declared constraints

A transaction is a state-passing program whose state carries the proof that its declared constraints
hold.  `exec` is the only statement that writes: it applies a function to the tables and fails when
the result breaks a constraint, so no program of this kind can leave the valid states.

* `Valid C` - the tables together with the proof of `C`;
* `Tx C ε α` - a transaction with errors in `ε`; an error discards the new state;
* `*_eq_ok` - the inversion lemmas, one per construct;
* `Relates R x` - every successful run of `x` relates the tables before and after by `R`, with the
  composition rules for a preorder `R`.  `Relates (Keeps I) x` is "`x` keeps `I`".
-/

namespace Transact

variable {σ ε α β : Type} {C : σ → Prop}

/-- The tables of a store, together with the proof that they satisfy the declared constraints. -/
@[ext]
structure Valid (C : σ → Prop) where
  tables : σ
  valid : C tables

/-- A transaction: from a valid store, a result and a valid store, or an error. -/
def Tx (C : σ → Prop) (ε α : Type) : Type := Valid C → Except ε (α × Valid C)

namespace Tx

/-- Run `x`, then `f` on its result; the first error ends the transaction. -/
def andThen (x : Tx C ε α) (f : α → Tx C ε β) : Tx C ε β := fun s =>
  match x s with
  | .ok (a, t) => f a t
  | .error e => .error e

instance : Monad (Tx C ε) where
  pure a := fun s => .ok (a, s)
  bind := andThen

/-- A read. -/
def query (f : σ → α) : Tx C ε α := fun s => .ok (f s.tables, s)

/-- Abort with an error. -/
def fail (e : ε) : Tx C ε α := fun _ => .error e

/-- A read that may fail. -/
def queryOrFail (f : σ → Except ε α) : Tx C ε α := fun s =>
  match f s.tables with
  | .ok a => .ok (a, s)
  | .error e => .error e

/-- One writing statement, refused with `e` when it would break a declared constraint. -/
def exec [DecidablePred C] (e : ε) (f : σ → σ) : Tx C ε Unit := fun s =>
  if h : C (f s.tables) then .ok ((), ⟨f s.tables, h⟩) else .error e

/-- The committed store: the new one on success, the old one after a rollback. -/
def commit (x : Tx C ε α) (s : Valid C) : Valid C :=
  match x s with
  | .ok (_, s') => s'
  | .error _ => s

/-- Whether the transaction ends without an error. -/
def succeeds (x : Tx C ε α) (s : Valid C) : Bool := (x s).isOk

/-- The error the transaction ends with. -/
def failure (x : Tx C ε α) (s : Valid C) : Option ε :=
  match x s with
  | .ok _ => none
  | .error e => some e

/-! ### Inversion -/

theorem bind_eq_ok {x : Tx C ε α} {f : α → Tx C ε β} {s t : Valid C} {b : β} :
    (x >>= f) s = .ok (b, t) ↔ ∃ a u, x s = .ok (a, u) ∧ f a u = .ok (b, t) := by
  show andThen x f s = .ok (b, t) ↔ _
  unfold andThen
  cases x s with
  | ok p =>
    obtain ⟨a, u⟩ := p
    simp
  | error e => simp

theorem pure_eq_ok {a b : α} {s t : Valid C} :
    (pure a : Tx C ε α) s = .ok (b, t) ↔ a = b ∧ s = t := by
  show (Except.ok (a, s) : Except ε _) = .ok (b, t) ↔ _
  simp

theorem query_eq_ok {f : σ → α} {a : α} {s t : Valid C} :
    (query f : Tx C ε α) s = .ok (a, t) ↔ f s.tables = a ∧ s = t := by
  simp [query]

theorem queryOrFail_eq_ok {f : σ → Except ε α} {a : α} {s t : Valid C} :
    (queryOrFail f : Tx C ε α) s = .ok (a, t) ↔ f s.tables = .ok a ∧ s = t := by
  unfold queryOrFail
  cases f s.tables with
  | ok b => simp
  | error e => simp

theorem fail_eq_ok {e : ε} {a : α} {s t : Valid C} :
    (fail e : Tx C ε α) s = .ok (a, t) ↔ False := by
  simp [fail]

/-- A statement succeeds exactly when its result satisfies the constraints, which a valid store
does by construction. -/
theorem exec_eq_ok [DecidablePred C] {e : ε} {f : σ → σ} {s t : Valid C} {u : Unit} :
    exec e f s = .ok (u, t) ↔ t.tables = f s.tables := by
  unfold exec
  by_cases h : C (f s.tables)
  · rw [dif_pos h]
    constructor
    · intro heq
      cases heq
      rfl
    · intro ht
      have : t = ⟨f s.tables, h⟩ := Valid.ext ht
      rw [this]
  · rw [dif_neg h]
    constructor
    · intro heq
      cases heq
    · intro ht
      exact absurd (ht ▸ t.valid) h

theorem exec_of_valid [DecidablePred C] {e : ε} {f : σ → σ} {s : Valid C} (h : C (f s.tables)) :
    exec e f s = .ok ((), ⟨f s.tables, h⟩) := by
  rw [exec, dif_pos h]

theorem bind_of_ok {x : Tx C ε α} {f : α → Tx C ε β} {s u : Valid C} {a : α}
    (h : x s = .ok (a, u)) : (x >>= f) s = f a u := by
  show andThen x f s = _
  rw [andThen, h]

theorem bind_of_error {x : Tx C ε α} {f : α → Tx C ε β} {s : Valid C} {e : ε}
    (h : x s = .error e) : (x >>= f) s = .error e := by
  show andThen x f s = _
  rw [andThen, h]

theorem commit_of_ok {x : Tx C ε α} {s t : Valid C} {a : α} (h : x s = .ok (a, t)) :
    x.commit s = t := by
  rw [commit, h]

/-- A transaction without a result either succeeds, or ends in an error. -/
theorem succeeds_iff {x : Tx C ε Unit} {s : Valid C} :
    x.succeeds s = true ↔ x s = .ok ((), x.commit s) := by
  unfold succeeds commit
  cases x s with
  | ok p => simp [Except.isOk, Except.toBool]
  | error e => simp [Except.isOk, Except.toBool]

theorem ok_of_succeeds {x : Tx C ε α} {s : Valid C} (h : x.succeeds s = true) :
    ∃ a, x s = .ok (a, x.commit s) := by
  unfold succeeds at h
  unfold commit
  cases hx : x s with
  | ok p => exact ⟨p.1, rfl⟩
  | error e =>
    rw [hx] at h
    cases h

/-- A sequence succeeds when its parts do, the second from the store the first leaves. -/
theorem bind_succeeds {x : Tx C ε α} {f : α → Tx C ε β} {s : Valid C} (hx : x.succeeds s = true)
    (hf : ∀ a t, x s = .ok (a, t) → (f a).succeeds t = true) : (x >>= f).succeeds s = true := by
  cases hs : x s with
  | error e => simp [succeeds, hs, Except.isOk, Except.toBool] at hx
  | ok p =>
    rw [succeeds, bind_of_ok hs]
    exact hf p.1 p.2 hs

theorem failure_eq_some {x : Tx C ε α} {s : Valid C} {e : ε} :
    x.failure s = some e ↔ x s = .error e := by
  unfold failure
  cases x s with
  | ok p => simp
  | error e' => simp

theorem ne_error_of_succeeds {x : Tx C ε α} {s : Valid C} {e : ε} (hx : x.succeeds s = true) :
    x s ≠ .error e := by
  intro h
  simp [succeeds, h, Except.isOk, Except.toBool] at hx

/-- A sequence avoids an error that both parts avoid. -/
theorem bind_ne_error {x : Tx C ε α} {f : α → Tx C ε β} {s : Valid C} {e : ε}
    (hx : x s ≠ .error e) (hf : ∀ a t, x s = .ok (a, t) → f a t ≠ .error e) :
    (x >>= f) s ≠ .error e := by
  cases hs : x s with
  | error e' =>
    show andThen x f s ≠ _
    rw [andThen, hs]
    rintro ⟨⟩
    exact hx hs
  | ok p =>
    rw [bind_of_ok hs]
    exact hf p.1 p.2 hs

/-- A commit is a successful run, or leaves the store as it was. -/
theorem commit_cases (x : Tx C ε α) (s : Valid C) :
    (∃ a, x s = .ok (a, x.commit s)) ∨ x.commit s = s := by
  unfold commit
  cases x s with
  | ok p => exact .inl ⟨p.1, rfl⟩
  | error e => exact .inr rfl

/-! ### Relations kept by every successful run -/

/-- Every successful run of `x` relates the tables before and after. -/
def Relates (R : σ → σ → Prop) (x : Tx C ε α) : Prop :=
  ∀ s a t, x s = .ok (a, t) → R s.tables t.tables

/-- The preorder of keeping a property: `Relates (Keeps I) x` is "`x` keeps `I`". -/
def Keeps (I : σ → Prop) (s t : σ) : Prop := I s → I t

instance (I : σ → Prop) : Std.Refl (Keeps I) := ⟨fun _ h => h⟩

instance (I : σ → Prop) : IsTrans σ (Keeps I) := ⟨fun _ _ _ h h' => h' ∘ h⟩

variable {R : σ → σ → Prop}

theorem Relates.pure [Std.Refl R] (a : α) : Relates R (pure a : Tx C ε α) := by
  intro s b t h
  obtain ⟨_, rfl⟩ := pure_eq_ok.mp h
  exact Std.Refl.refl _

theorem Relates.query [Std.Refl R] (f : σ → α) : Relates R (query f : Tx C ε α) := by
  intro s b t h
  obtain ⟨_, rfl⟩ := query_eq_ok.mp h
  exact Std.Refl.refl _

theorem Relates.queryOrFail [Std.Refl R] (f : σ → Except ε α) :
    Relates R (queryOrFail f : Tx C ε α) := by
  intro s b t h
  obtain ⟨_, rfl⟩ := queryOrFail_eq_ok.mp h
  exact Std.Refl.refl _

theorem Relates.fail (e : ε) : Relates R (fail e : Tx C ε α) := by
  intro s b t h
  exact (fail_eq_ok.mp h).elim

theorem Relates.exec [DecidablePred C] {e : ε} {f : σ → σ} (h : ∀ s, C s → R s (f s)) :
    Relates R (exec e f : Tx C ε Unit) := by
  intro s b t hst
  rw [exec_eq_ok.mp hst]
  exact h s.tables s.valid

/-- A statement that succeeded also leaves a valid store. -/
theorem Relates.exec_valid [DecidablePred C] {e : ε} {f : σ → σ}
    (h : ∀ s, C s → C (f s) → R s (f s)) : Relates R (Tx.exec e f : Tx C ε Unit) := by
  intro s b t hst
  have ht := exec_eq_ok.mp hst
  rw [ht]
  exact h s.tables s.valid (ht ▸ t.valid)

theorem Relates.bind [IsTrans σ R] {x : Tx C ε α} {f : α → Tx C ε β} (hx : Relates R x)
    (hf : ∀ a, Relates R (f a)) : Relates R (x >>= f) := by
  intro s b t h
  obtain ⟨a, u, hxu, hfu⟩ := bind_eq_ok.mp h
  exact IsTrans.trans _ _ _ (hx s a u hxu) (hf a u b t hfu)

theorem Relates.forM_mem [Std.Refl R] [IsTrans σ R] {f : α → Tx C ε Unit} {as : List α}
    (hf : ∀ a ∈ as, Relates R (f a)) : Relates R (as.forM f) := by
  induction as with
  | nil => exact Relates.pure ()
  | cons a as ih =>
    exact (hf a List.mem_cons_self).bind fun _ => ih fun b hb => hf b (List.mem_cons_of_mem _ hb)

theorem Relates.forM [Std.Refl R] [IsTrans σ R] {f : α → Tx C ε Unit} (hf : ∀ a, Relates R (f a))
    (as : List α) : Relates R (as.forM f) :=
  Relates.forM_mem fun a _ => hf a

/-- A weaker relation is kept too. -/
theorem Relates.mono {R' : σ → σ → Prop} {x : Tx C ε α} (hx : Relates R x)
    (h : ∀ s t, R s t → R' s t) : Relates R' x := by
  intro s a t hst
  exact h _ _ (hx s a t hst)

/-- A rolled-back transaction relates the store to itself, a committed one as its run does. -/
theorem relates_commit [Std.Refl R] {x : Tx C ε α} {s : Valid C}
    (h : ∀ a t, x s = .ok (a, t) → R s.tables t.tables) : R s.tables (x.commit s).tables := by
  rcases commit_cases x s with ⟨a, hok⟩ | hsame
  · exact h a _ hok
  · rw [hsame]
    exact Std.Refl.refl _

theorem Relates.commit [Std.Refl R] {x : Tx C ε α} (hx : Relates R x) (s : Valid C) :
    R s.tables (x.commit s).tables :=
  relates_commit (hx s)

end Tx

/-- A list of reads that each give `g a` exactly when `good a`. -/
theorem mapM_eq_ok {f : α → Except ε β} {good : α → Prop} {g : α → β}
    (hf : ∀ a b, f a = .ok b ↔ good a ∧ b = g a) {as : List α} {bs : List β} :
    as.mapM f = .ok bs ↔ (∀ a ∈ as, good a) ∧ bs = as.map g := by
  induction as generalizing bs with
  | nil =>
    show Except.ok [] = Except.ok bs ↔ _
    simp [eq_comm]
  | cons a as ih =>
    rw [List.mapM_cons, List.forall_mem_cons, List.map_cons]
    cases ha : f a with
    | error e =>
      have hbad : ¬ good a := by
        intro hgood
        rw [(hf a _).mpr ⟨hgood, rfl⟩] at ha
        cases ha
      simp [bind, Except.bind, hbad]
    | ok b =>
      obtain ⟨hgood, rfl⟩ := (hf a b).mp ha
      cases has : as.mapM f with
      | error e =>
        have hbad : ¬ ∀ a ∈ as, good a := by
          intro hall
          rw [ih.mpr ⟨hall, rfl⟩] at has
          cases has
        simp [bind, Except.bind, hbad]
      | ok rest =>
        obtain ⟨hall, rfl⟩ := ih.mp has
        simp only [bind, Except.bind, pure, Except.pure, Except.ok.injEq]
        constructor
        · rintro rfl
          exact ⟨⟨hgood, hall⟩, rfl⟩
        · rintro ⟨-, rfl⟩
          rfl

/-! ### Checked values -/

theorem except_bind_eq_ok {ε α β : Type} {x : Except ε α} {f : α → Except ε β} {b : β} :
    (x >>= f) = .ok b ↔ ∃ a, x = .ok a ∧ f a = .ok b := by
  cases x with
  | error e => simp [bind, Except.bind]
  | ok a => simp [bind, Except.bind]

theorem elim_eq_ok {ε α : Type*} {x : Option α} {e : ε} {a : α}
    (h : x.elim (Except.error e) Except.ok = .ok a) : x = some a := by
  cases x with
  | none => cases h
  | some b =>
    cases h
    rfl

end Transact
