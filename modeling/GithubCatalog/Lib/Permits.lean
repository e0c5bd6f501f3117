import Mathlib.Data.Multiset.Count

/-!
# Permits drawn and spent by processes

Processes draw permits for a token and spend them.  A log of both is covered when every process has
drawn a permit of its own for everything it spends; then no token sees more spent than drawn.

* `Entry`, `Covered` - the log and what is asked of it; `Covered.total` - the totals per token;
* `Standing`, `Standing.Leads` - where a process stands with its permits, and how it gets on;
* `Accounted` - the log of one process against its position: `Accounted.advance` for a step that pays,
  `Accounted.overspent` for the one that does not;
* `Books` - the same for a table of processes.
-/

namespace Permits

variable {τ : Type*} [DecidableEq τ]

/-! ### Logs -/

/-- A process was granted a permit, or spent one. -/
inductive Entry (τ : Type*) where
  | granted (process : ℕ) (token : τ)
  | spent (process : ℕ) (token : τ)
deriving DecidableEq

/-- The processes that were granted permits of a token. -/
def grantees (token : τ) (log : List (Entry τ)) : List ℕ :=
  log.filterMap fun
    | .granted process t => if t = token then some process else none
    | .spent _ _ => none

/-- The processes that spent permits of a token. -/
def spenders (token : τ) (log : List (Entry τ)) : List ℕ :=
  log.filterMap fun
    | .spent process t => if t = token then some process else none
    | .granted _ _ => none

/-- Every process has drawn what it spends. -/
def Covered (log : List (Entry τ)) : Prop :=
  ∀ token process, (spenders token log).count process ≤ (grantees token log).count process

theorem grantees_append (token : τ) (log entries : List (Entry τ)) :
    grantees token (log ++ entries) = grantees token log ++ grantees token entries :=
  List.filterMap_append

theorem spenders_append (token : τ) (log entries : List (Entry τ)) :
    spenders token (log ++ entries) = spenders token log ++ spenders token entries :=
  List.filterMap_append

/-- **The totals.**  No more permits of a token are spent than drawn. -/
theorem Covered.total {log : List (Entry τ)} (h : Covered log) (token : τ) :
    (spenders token log).length ≤ (grantees token log).length := by
  have hle : (spenders token log : Multiset ℕ) ≤ (grantees token log : Multiset ℕ) := by
    rw [Multiset.le_iff_count]
    intro process
    rw [Multiset.coe_count, Multiset.coe_count]
    exact h token process
  exact Multiset.card_le_card hle

/-! ### Positions -/

/-- Where a process stands: whether it holds a permit, and what its next step does. -/
inductive Standing where
  | idle
  | drawing
  | holding
  | spending
  | overspending
  | finished
deriving DecidableEq

/-- A permit is held. -/
def Standing.held : Standing → Bool
  | holding | spending => true
  | _ => false

/-- Whether a permit is held after the next step, when a permit asked for is granted or not. -/
def Standing.after (granted : Bool) : Standing → Bool
  | drawing => granted
  | holding => true
  | _ => false

/-- A standing, with the token the permits are for. -/
structure Position (τ : Type*) where
  standing : Standing
  token : τ
deriving DecidableEq

/-- What a step from there leaves in the log. -/
def Position.entries (p : Position τ) (process : ℕ) (granted : Bool) : List (Entry τ) :=
  match p.standing with
  | .drawing => if granted then [.granted process p.token] else []
  | .spending | .overspending => [.spent process p.token]
  | _ => []

/-- How a process gets on: it ends, or it holds what its step leaves it. -/
def Standing.Leads (granted : Bool) (a b : Standing) : Prop :=
  b = .finished ∨ (a ≠ .finished ∧ b.held = a.after granted)

/-- The same with tokens: a permit that is held is for the token it was drawn for. -/
structure Position.Moves (granted : Bool) (p q : Position τ) : Prop where
  leads : p.standing.Leads granted q.standing
  token : q.standing.held = true → q.token = p.token

/-- The permits of a token a process holds. -/
def Position.holds (p : Position τ) (token : τ) : ℕ :=
  if p.standing.held = true ∧ p.token = token then 1 else 0

/-! ### One process -/

section process

variable {log : List (Entry τ)} {n m : ℕ} {p q : Position τ} {granted : Bool}

/-- The log of a process agrees with its position: what it drew is spent or held.  A process that ended
may have left something. -/
def Accounted (log : List (Entry τ)) (n : ℕ) (p : Position τ) : Prop :=
  ∀ token,
    (spenders token log).count n + p.holds token ≤ (grantees token log).count n ∧
    (p.standing ≠ .finished →
      (spenders token log).count n + p.holds token = (grantees token log).count n)

/-- What one step adds for its own process. -/
theorem count_entries (p : Position τ) (n : ℕ) (granted : Bool) (token : τ) :
    (grantees token (p.entries n granted)).count n =
        (if p.standing = .drawing ∧ granted = true ∧ p.token = token then 1 else 0) ∧
      (spenders token (p.entries n granted)).count n =
        (if (p.standing = .spending ∨ p.standing = .overspending) ∧ p.token = token then 1 else 0) := by
  by_cases htoken : p.token = token
  · cases hstanding : p.standing with
    | drawing => cases granted <;> simp [Position.entries, hstanding, grantees, spenders, htoken]
    | idle | holding | spending | overspending | finished =>
      simp [Position.entries, hstanding, grantees, spenders, htoken]
  · cases hstanding : p.standing with
    | drawing => cases granted <;> simp [Position.entries, hstanding, grantees, spenders, htoken]
    | idle | holding | spending | overspending | finished =>
      simp [Position.entries, hstanding, grantees, spenders, htoken]

/-- A step adds nothing for another process. -/
theorem count_entries_other (h : m ≠ n) (p : Position τ) (granted : Bool) (token : τ) :
    (grantees token (p.entries n granted)).count m = 0 ∧
      (spenders token (p.entries n granted)).count m = 0 := by
  have hentries : p.entries n granted = [] ∨ ∃ t, p.entries n granted = [.granted n t] ∨
      p.entries n granted = [.spent n t] := by
    unfold Position.entries
    split
    · split
      · exact .inr ⟨_, .inl rfl⟩
      · exact .inl rfl
    · exact .inr ⟨_, .inr rfl⟩
    · exact .inr ⟨_, .inr rfl⟩
    · exact .inl rfl
  rcases hentries with heq | ⟨t, heq | heq⟩
  · simp [heq, grantees, spenders]
  · by_cases ht : t = token
    · simp [heq, grantees, spenders, ht, h.symm]
    · simp [heq, grantees, spenders, ht]
  · by_cases ht : t = token
    · simp [heq, grantees, spenders, ht, h.symm]
    · simp [heq, grantees, spenders, ht]

theorem Accounted.other (h : Accounted log m q) (hne : m ≠ n) :
    Accounted (log ++ p.entries n granted) m q := by
  intro token
  obtain ⟨hgranted, hspent⟩ := count_entries_other hne p granted token
  rw [grantees_append, spenders_append, List.count_append, List.count_append, hgranted, hspent]
  exact h token

/-- What a step that pays spends and still holds is what it drew and held. -/
theorem entries_balance (n : ℕ) (granted : Bool) (hpays : p.standing ≠ .overspending) (token : τ) :
    (spenders token (p.entries n granted)).count n +
        (if p.standing.after granted = true ∧ p.token = token then 1 else 0) =
      (grantees token (p.entries n granted)).count n + p.holds token := by
  obtain ⟨hgranted, hspent⟩ := count_entries p n granted token
  rw [hgranted, hspent, Position.holds]
  cases hstanding : p.standing with
  | overspending => exact absurd hstanding hpays
  | drawing => cases granted <;> simp [Standing.after, Standing.held]
  | idle | holding | spending | finished => simp [Standing.after, Standing.held]

/-- **A step that pays** keeps the account. -/
theorem Accounted.advance (h : Accounted log n p) (hpays : p.standing ≠ .overspending)
    (hmoves : p.Moves granted q) : Accounted (log ++ p.entries n granted) n q := by
  intro token
  have hbalance := entries_balance n granted hpays token
  obtain ⟨hle, heq⟩ := h token
  rw [grantees_append, spenders_append, List.count_append, List.count_append]
  rcases hmoves.leads with hover | ⟨halive, hheld⟩
  · -- Whatever is left at the end was drawn.
    have hnone : q.holds token = 0 := by rw [Position.holds, hover]; rfl
    exact ⟨by omega, fun hne => absurd hover hne⟩
  · have hholds : q.holds token =
        if p.standing.after granted = true ∧ p.token = token then 1 else 0 := by
      rw [Position.holds, ← hheld]
      by_cases hq : q.standing.held = true
      · rw [hmoves.token hq]
      · simp [hq]
    have heq := heq halive
    rw [hholds]
    exact ⟨by omega, fun _ => by omega⟩

/-- **A step that does not pay** leaves the log uncovered. -/
theorem Accounted.overspent (h : Accounted log n p) (hstanding : p.standing = .overspending) :
    ¬ Covered (log ++ p.entries n granted) := by
  intro hcovered
  have hle := hcovered p.token n
  obtain ⟨hgranted, hspent⟩ := count_entries p n granted p.token
  rw [grantees_append, spenders_append, List.count_append, List.count_append, hgranted, hspent] at hle
  have heq := (h p.token).2 (by rw [hstanding]; decide)
  have hnone : p.holds p.token = 0 := by rw [Position.holds, hstanding]; rfl
  simp [hstanding] at hle
  omega

end process

/-! ### A table of processes -/

section books

variable {log : List (Entry τ)} {f g : ℕ → Option (Position τ)} {n : ℕ} {p q : Position τ}
  {granted : Bool}

/-- The log agrees with the table: with every process in it, and with nobody else. -/
def Books (log : List (Entry τ)) (f : ℕ → Option (Position τ)) : Prop :=
  ∀ n, match f n with
    | some p => Accounted log n p
    | none => ∀ token, (spenders token log).count n = 0 ∧ (grantees token log).count n = 0

theorem Books.covered (h : Books log f) : Covered log := by
  intro token n
  have hn := h n
  split at hn
  · exact Nat.le_of_add_right_le (hn token).1
  · exact (hn token).1.le.trans (Nat.zero_le _)

/-- The process `n` takes a step that pays. -/
theorem Books.advance (h : Books log f) (hn : f n = some p) (hpays : p.standing ≠ .overspending)
    (hmoves : p.Moves granted q) (hg : ∀ m, g m = if m = n then some q else f m) :
    Books (log ++ p.entries n granted) g := by
  intro m
  rw [hg m]
  have hm := h m
  by_cases heq : m = n
  · subst heq
    rw [hn] at hm
    rw [if_pos rfl]
    exact hm.advance hpays hmoves
  · rw [if_neg heq]
    cases hf : f m with
    | some p' =>
      rw [hf] at hm
      exact hm.other heq
    | none =>
      rw [hf] at hm
      intro token
      obtain ⟨hgranted, hspent⟩ := count_entries_other heq p granted token
      rw [grantees_append, spenders_append, List.count_append, List.count_append, hgranted, hspent]
      exact hm token

/-- A process that holds nothing joins. -/
theorem Books.join (h : Books log f) (hn : f n = none) (hheld : q.standing.held = false)
    (hg : ∀ m, g m = if m = n then some q else f m) : Books log g := by
  intro m
  rw [hg m]
  have hm := h m
  by_cases heq : m = n
  · subst heq
    rw [hn] at hm
    rw [if_pos rfl]
    intro token
    obtain ⟨hspent, hgranted⟩ := hm token
    have hnone : q.holds token = 0 := by simp [Position.holds, hheld]
    rw [hspent, hgranted, hnone]
    exact ⟨le_rfl, fun _ => rfl⟩
  · rw [if_neg heq]
    exact hm

/-- Processes end. -/
theorem Books.leave (h : Books log f)
    (hg : ∀ m, g m = f m ∨ (f m ≠ none ∧ ∃ q, g m = some q ∧ q.standing = .finished)) : Books log g := by
  intro m
  have hm := h m
  rcases hg m with heq | ⟨hsome, q, hq, hover⟩
  · rw [heq]
    exact hm
  · rw [hq]
    obtain ⟨p, hp⟩ := Option.ne_none_iff_exists'.mp hsome
    rw [hp] at hm
    intro token
    have hnone : q.holds token = 0 := by rw [Position.holds, hover]; rfl
    rw [hnone]
    exact ⟨Nat.le_of_add_right_le (hm token).1, fun hne => absurd hover hne⟩

/-- The process `n` takes a step that does not pay. -/
theorem Books.overspent (h : Books log f) (hn : f n = some p) (hstanding : p.standing = .overspending) :
    ¬ Covered (log ++ p.entries n granted) := by
  have hm := h n
  rw [hn] at hm
  exact hm.overspent hstanding

theorem books_nil (f : ℕ → Option (Position τ)) (hf : ∀ n, f n = none) : Books [] f := by
  intro n
  rw [hf n]
  exact fun _ => ⟨rfl, rfl⟩

end books

end Permits
