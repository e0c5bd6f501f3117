import GithubCatalog.Lib.Runs
import GithubCatalog.Lib.Table

/-!
# Lines of descent in a table

The rows of a table along a run of steps.  A relation `R` says what may become of one row; a row that
no step made before is newborn.

* `Descends R born s t` - every row of `t` goes back to a row of `s`, or to a newborn one;
* `Outlives R s t` - every row of `s` lives on in `t`;
* `Trims s t` - `t` lost some rows of `s` and gained others behind them: a log that is never rewritten;
* their rules for the statements over a table, and for runs.
-/

namespace Lineage

open Relational Runs

variable {α σ ε κ : Type*} {R : α → α → Prop} {born : α → Prop} {s t u : List α}

/-- Every row of the later table goes back to a row of the earlier one, or to a newborn one. -/
def Descends (R : α → α → Prop) (born : α → Prop) (s t : List α) : Prop :=
  ∀ b ∈ t, ∃ a, (a ∈ s ∨ born a) ∧ R a b

/-- Every row of the earlier table lives on in the later one. -/
def Outlives (R : α → α → Prop) (s t : List α) : Prop := ∀ a ∈ s, ∃ b ∈ t, R a b

/-! ### Descent -/

theorem Descends.of_sublist [Std.Refl R] (h : t.Sublist s) : Descends R born s t :=
  fun b hb => ⟨b, .inl (h.subset hb), Std.Refl.refl b⟩

theorem Descends.trans [IsTrans α R] (h : Descends R born s t) (h' : Descends R born t u) :
    Descends R born s u := by
  intro c hc
  obtain ⟨b, hb | hb, hbc⟩ := h' c hc
  · obtain ⟨a, ha, hab⟩ := h b hb
    exact ⟨a, ha, IsTrans.trans _ _ _ hab hbc⟩
  · exact ⟨b, .inr hb, hbc⟩

theorem Descends.mono {born' : α → Prop} (h : Descends R born s t) (hborn : ∀ a, born a → born' a) :
    Descends R born' s t := by
  intro b hb
  obtain ⟨a, ha, hab⟩ := h b hb
  exact ⟨a, ha.imp_right (hborn a), hab⟩

theorem Descends.append_singleton [Std.Refl R] {row : α} (hrow : born row) :
    Descends R born s (s ++ [row]) := by
  intro b hb
  rcases List.mem_append.mp hb with hold | hnew
  · exact ⟨b, .inl hold, Std.Refl.refl b⟩
  · rw [List.mem_singleton.mp hnew]
    exact ⟨row, .inr hrow, Std.Refl.refl row⟩

/-- A row that an update leaves in the table is a later self of the row it was made of. -/
theorem Descends.updateWhere [Std.Refl R] {p : α → Bool} {f : α → α}
    (hf : ∀ a ∈ s, p a = true → f a ∈ updateWhere p f s → R a (f a)) :
    Descends R born s (updateWhere p f s) := by
  intro b hb
  obtain ⟨a, ha, heq⟩ := mem_updateWhere.mp hb
  refine ⟨a, .inl ha, ?_⟩
  by_cases hp : p a = true
  · rw [if_pos hp] at heq
    rw [← heq] at hb ⊢
    exact hf a ha hp hb
  · rw [if_neg hp] at heq
    rw [heq]
    exact Std.Refl.refl b

/-- **The run rule.** -/
theorem Descends.runFrom [Std.Refl R] [IsTrans α R] {step : σ → ε → σ} {rows : σ → List α}
    {bears : ε → α → Prop}
    (hstep : ∀ x e, Descends R (bears e) (rows x) (rows (step x e))) (x : σ) (events : List ε) :
    Descends R (fun a => ∃ e ∈ events, bears e a) (rows x) (rows (runFrom step x events)) := by
  induction events generalizing x with
  | nil => exact Descends.of_sublist (List.Sublist.refl _)
  | cons e rest ih =>
    refine Descends.trans (t := rows (step x e)) ?_ ?_
    · exact (hstep x e).mono fun a ha => ⟨e, List.mem_cons_self, ha⟩
    · refine (ih (step x e)).mono fun a ha => ?_
      obtain ⟨e', he', hborn⟩ := ha
      exact ⟨e', List.mem_cons_of_mem e he', hborn⟩

/-- Under a unique key, a row of the later table is a later self of the earlier row with its key,
unless a row with that key was born since. -/
theorem Descends.of_key {key : α → κ} (h : Descends R born s t) (hs : UniqueOn key s)
    (hkey : ∀ a b, R a b → key b = key a) {a b : α} (ha : a ∈ s) (hb : b ∈ t) (hab : key b = key a)
    (hborn : ∀ c, born c → key c ≠ key a) : R a b := by
  obtain ⟨c, hc | hc, hcb⟩ := h b hb
  · have hca : key c = key a := (hkey c b hcb).symm.trans hab
    rwa [hs.eq_of_mem hc ha hca] at hcb
  · exact absurd ((hkey c b hcb).symm.trans hab) (hborn c hc)

/-! ### Outliving -/

theorem Outlives.refl [Std.Refl R] (s : List α) : Outlives R s s :=
  fun a ha => ⟨a, ha, Std.Refl.refl a⟩

theorem Outlives.trans [IsTrans α R] (h : Outlives R s t) (h' : Outlives R t u) :
    Outlives R s u := by
  intro a ha
  obtain ⟨b, hb, hab⟩ := h a ha
  obtain ⟨c, hc, hbc⟩ := h' b hb
  exact ⟨c, hc, IsTrans.trans _ _ _ hab hbc⟩

theorem Outlives.append [Std.Refl R] (s t : List α) : Outlives R s (s ++ t) :=
  fun a ha => ⟨a, List.mem_append_left t ha, Std.Refl.refl a⟩

theorem Outlives.updateWhere [Std.Refl R] {p : α → Bool} {f : α → α}
    (hf : ∀ a ∈ s, p a = true → f a ∈ updateWhere p f s → R a (f a)) :
    Outlives R s (updateWhere p f s) := by
  intro a ha
  by_cases hp : p a = true
  · have hmem : f a ∈ Relational.updateWhere p f s := mem_updateWhere.mpr ⟨a, ha, if_pos hp⟩
    exact ⟨f a, hmem, hf a ha hp hmem⟩
  · exact ⟨a, mem_updateWhere.mpr ⟨a, ha, if_neg hp⟩, Std.Refl.refl a⟩

/-! ### Logs -/

/-- A log some of whose entries may be gone, and that only grew behind the others. -/
def Trims (s t : List α) : Prop := ∃ kept, kept.Sublist s ∧ kept <+: t

theorem Trims.refl (s : List α) : Trims s s := ⟨s, List.Sublist.refl s, List.prefix_rfl⟩

theorem Trims.trans (h : Trims s t) (h' : Trims t u) : Trims s u := by
  obtain ⟨kept, hkept, rest, rfl⟩ := h
  obtain ⟨kept', hkept', hbegins⟩ := h'
  obtain ⟨first, second, rfl, hfirst, -⟩ := List.sublist_append_iff.mp hkept'
  exact ⟨first, hfirst.trans hkept, (List.prefix_append first second).trans hbegins⟩

theorem Trims.of_prefix (h : s <+: t) : Trims s t := ⟨s, List.Sublist.refl s, h⟩

theorem Trims.of_sublist (h : t.Sublist s) : Trims s t := ⟨t, h, List.prefix_rfl⟩

end Lineage
