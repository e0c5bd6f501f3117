import GithubCatalog.AliasTable
import Mathlib.Data.List.MinMax
import Mathlib.Data.Prod.Lex
import Mathlib.Order.BooleanAlgebra.Basic

/-!
# Which repository an alias resolves to

`resolve_alias` takes the live row of a value, and otherwise the row created last.  A row that
`reactivate_alias_in_tx` brings back keeps its `created_at`, so the order of creation is not the order
in which repositories held a name: one that returns to a name after another repository had it is the
last holder, and its row the older one.

* `HeldNames` - the catalog, with the repository that held each value live last;
* `AliasEvidence.outdated` - a value becomes live under a row that is not the newest of the value;
* `resolves_latest` - histories without such evidence.
-/

namespace GithubCatalog

open Relational Transact Runs

/-! ### The lookup -/

namespace RepositoryAlias

/-- The order of `resolve_alias`: live rows above others, then the later created. -/
def rank (a : RepositoryAlias) : Bool ×ₗ ℕ := toLex (decide (a.status = .active), a.createdAt)

/-- The row is of the value. -/
def named (kind : AliasKind) (value : String) (a : RepositoryAlias) : Bool :=
  decide (a.aliasKind = kind) && decide (a.aliasValue = value)

theorem named_iff {kind : AliasKind} {value : String} {a : RepositoryAlias} :
    a.named kind value = true ↔ a.aliasKind = kind ∧ a.aliasValue = value := by
  simp [named]

theorem rank_lt {a b : RepositoryAlias} : b.rank < a.rank ↔
    (a.status = .active ∧ b.status ≠ .active) ∨
      ((a.status = .active ↔ b.status = .active) ∧ b.createdAt < a.createdAt) := by
  rw [rank, rank, Prod.Lex.toLex_lt_toLex]
  by_cases ha : a.status = .active
  · by_cases hb : b.status = .active
    · simp [ha, hb]
    · simp [ha, hb]
  · by_cases hb : b.status = .active
    · simp [ha, hb]
    · simp [ha, hb]

end RepositoryAlias

/-- The lookup is the row of the greatest rank. -/
theorem resolveAlias_eq (kind : AliasKind) (value : String) (db : Database) :
    resolveAlias kind value db =
      ((db.repositoryAliases.filter (·.named kind value)).argmax RepositoryAlias.rank).map
        (·.repositoryId) := by
  unfold resolveAlias List.argmax
  refine congrArg (Option.map RepositoryAlias.repositoryId)
    (List.foldl_ext _ _ _ fun best a _ => ?_)
  cases best with
  | none => rfl
  | some b =>
    show _ = if b.rank < a.rank then some a else some b
    by_cases hlt : b.rank < a.rank
    · rw [if_pos hlt]
      rcases RepositoryAlias.rank_lt.mp hlt with ⟨ha, hb⟩ | ⟨hboth, hnewer⟩
      · simp [ha, hb]
      · by_cases ha : a.status = .active
        · simp [ha, hboth.mp ha, hnewer]
        · simp [ha, mt hboth.mpr ha, hnewer]
    · rw [if_neg hlt]
      rw [RepositoryAlias.rank_lt, not_or, not_and, not_and, not_not] at hlt
      obtain ⟨hstatus, htime⟩ := hlt
      by_cases ha : a.status = .active
      · have hb := hstatus ha
        simp [ha, hb, htime (by simp [ha, hb])]
      · by_cases hb : b.status = .active
        · simp [ha, hb]
        · simp [ha, hb, htime (by simp [ha, hb])]

/-! ### The last holder -/

/-- The last holder of a value by the rows of a table: its rows are newer than those of every other
repository, and it is the live one if there is any. -/
inductive LatestRow (kind : AliasKind) (value : String) (t : List RepositoryAlias) :
    Option Uuid → Prop
  | unrecorded (h : ∀ a ∈ t, a.named kind value = false) : LatestRow kind value t none
  | held {a : RepositoryAlias} (ha : a ∈ t) (hnamed : a.named kind value = true)
      (hnewest : ∀ b ∈ t, b.named kind value = true → b.repositoryId ≠ a.repositoryId →
        b.createdAt < a.createdAt)
      (hlive : ∀ b ∈ t, b.holds kind value = true → b.repositoryId = a.repositoryId) :
      LatestRow kind value t (some a.repositoryId)

/-- The repository a value is live with. -/
def liveHolder (kind : AliasKind) (value : String) (db : Database) : Option Uuid :=
  (activeAliasHolder kind value db).map Prod.snd

theorem liveHolder_eq_some {kind : AliasKind} {value : String} {db : Database} {r : Uuid}
    (h : liveHolder kind value db = some r) :
    ∃ a ∈ db.repositoryAliases, a.holds kind value = true ∧ a.repositoryId = r := by
  obtain ⟨p, hholder, rfl⟩ := Option.map_eq_some_iff.mp h
  obtain ⟨a, ha, hlive, -, hrepo⟩ := activeAliasHolder_eq_some hholder
  exact ⟨a, ha, hlive, hrepo⟩

section latest

variable {kind : AliasKind} {value : String} {t t' : List RepositoryAlias} {last : Option Uuid}

theorem named_of_holds {a : RepositoryAlias} (h : a.holds kind value = true) :
    a.named kind value = true := by
  obtain ⟨hkind, hvalue, -⟩ := RepositoryAlias.holds_iff.mp h
  exact RepositoryAlias.named_iff.mpr ⟨hkind, hvalue⟩

/-- The live holder is the last one. -/
theorem LatestRow.or_live {db : Database} (h : LatestRow kind value db.repositoryAliases last) :
    (liveHolder kind value db).or last = last := by
  cases hholder : liveHolder kind value db with
  | none => rfl
  | some r =>
    obtain ⟨b, hb, hlive, rfl⟩ := liveHolder_eq_some hholder
    cases h with
    | unrecorded hnone =>
      have hnamed := named_of_holds hlive
      rw [hnone b hb] at hnamed
      cases hnamed
    | held ha hnamed hnewest hown =>
      rw [hown b hb hlive]
      rfl

/-- **The lookup finds the last holder.** -/
theorem LatestRow.resolveAlias_eq {db : Database}
    (h : LatestRow kind value db.repositoryAliases last) : resolveAlias kind value db = last := by
  rw [GithubCatalog.resolveAlias_eq]
  cases h with
  | unrecorded hnone =>
    have hempty : db.repositoryAliases.filter (·.named kind value) = [] :=
      List.filter_eq_nil_iff.mpr fun a ha => by rw [hnone a ha]; exact Bool.false_ne_true
    rw [hempty]
    rfl
  | @held a ha hnamed hnewest hlive =>
    have hmem : a ∈ db.repositoryAliases.filter (·.named kind value) :=
      List.mem_filter.mpr ⟨ha, hnamed⟩
    cases hmax : (db.repositoryAliases.filter (·.named kind value)).argmax RepositoryAlias.rank with
    | none =>
      rw [List.argmax_eq_none.mp hmax] at hmem
      cases hmem
    | some m =>
      obtain ⟨hm, hmnamed⟩ := List.mem_filter.mp (List.argmax_mem hmax)
      have hbest := List.not_lt_of_mem_argmax hmem hmax
      rw [RepositoryAlias.rank_lt, not_or, not_and, not_and, not_not] at hbest
      by_contra hne
      have hother : m.repositoryId ≠ a.repositoryId := fun heq => hne (congrArg some heq)
      -- A row of another repository is older, and not live.
      have hidle : m.status ≠ .active := by
        intro hactive
        obtain ⟨hkind, hvalue⟩ := RepositoryAlias.named_iff.mp hmnamed
        exact hother (hlive m hm (RepositoryAlias.holds_iff.mpr ⟨hkind, hvalue, hactive⟩))
      by_cases hactive : a.status = .active
      · exact hidle (hbest.1 hactive)
      · exact hbest.2 (by simp [hactive, hidle]) (hnewest m hm hmnamed hother)

/-- A table with the same rows up to their status has the same last holders, as long as no other
repository becomes live. -/
theorem LatestRow.of_rows (h : LatestRow kind value t last)
    (hold : ∀ a ∈ t, a.named kind value = true → ∃ b ∈ t', b.named kind value = true ∧
      b.repositoryId = a.repositoryId ∧ b.createdAt = a.createdAt)
    (hnew : ∀ b ∈ t', b.named kind value = true → ∃ a ∈ t, a.named kind value = true ∧
      b.repositoryId = a.repositoryId ∧ b.createdAt = a.createdAt ∧
        (b.holds kind value = true → a.holds kind value = true)) :
    LatestRow kind value t' last := by
  cases h with
  | unrecorded hnone =>
    refine .unrecorded fun b hb => ?_
    rw [Bool.eq_false_iff]
    intro hnamed
    obtain ⟨a, ha, hanamed, -⟩ := hnew b hb hnamed
    rw [hnone a ha] at hanamed
    cases hanamed
  | held ha hnamed hnewest hlive =>
    obtain ⟨b, hb, hbnamed, hrepo, htime⟩ := hold _ ha hnamed
    rw [← hrepo]
    refine .held hb hbnamed ?_ ?_
    · intro x hx hxnamed hne
      obtain ⟨y, hy, hynamed, hxrepo, hxtime, -⟩ := hnew x hx hxnamed
      rw [hxtime, htime]
      exact hnewest y hy hynamed (by rw [← hxrepo, ← hrepo]; exact hne)
    · intro x hx hxlive
      obtain ⟨y, hy, -, hxrepo, -, hylive⟩ := hnew x hx (named_of_holds hxlive)
      rw [hxrepo, hrepo]
      exact hlive y hy (hylive hxlive)

end latest

/-! ### Histories of rename evidence -/

namespace AliasEvidence

/-- The value is live nowhere, and the row it becomes live under, the repository's own or a new one,
is not newer than every row that another repository has of the value. -/
def outdated (e : AliasEvidence) (db : Database) : Bool :=
  let rows := db.repositoryAliases.filter (·.named e.kind e.observed)
  let own := rows.filter (e.owns db)
  (activeAliasHolder e.kind e.observed db).isNone &&
    (rows.filter fun b => !e.owns db b).any fun b =>
      if own.isEmpty then decide (e.now ≤ b.createdAt)
      else own.any fun a => decide (a.createdAt ≤ b.createdAt)

end AliasEvidence

/-- The catalog along a history, with the repository that held each value live last and the values
observed so far. -/
structure HeldNames where
  catalog : Catalog
  last : AliasKind → String → Option Uuid
  observed : List (AliasKind × String)

namespace HeldNames

def start : HeldNames := ⟨emptyCatalog, fun _ _ => none, []⟩

/-- A call, after which the live holders are the last ones. -/
def step (s : HeldNames) (e : AliasEvidence) : HeldNames where
  catalog := e.commit s.catalog
  last kind value := (liveHolder kind value (e.commit s.catalog).tables).or (s.last kind value)
  observed := (e.kind, e.observed) :: s.observed

end HeldNames

/-- Every value resolves to its live holder, or else to the repository that held it live last; a
value that no call observed resolves to none. -/
structure ResolvesLatest (s : HeldNames) : Prop where
  live : ∀ kind value r, liveHolder kind value s.catalog.tables = some r →
    resolveAlias kind value s.catalog.tables = some r
  latest : ∀ kind value, liveHolder kind value s.catalog.tables = none →
    resolveAlias kind value s.catalog.tables = s.last kind value
  unrecorded : ∀ kind value, (kind, value) ∉ s.observed →
    resolveAlias kind value s.catalog.tables = none

/-- The rows behind the last holders. -/
structure TracksHolders (s : HeldNames) : Prop where
  rows : ∀ kind value, LatestRow kind value s.catalog.tables.repositoryAliases (s.last kind value)
  observed : ∀ a ∈ s.catalog.tables.repositoryAliases, (a.aliasKind, a.aliasValue) ∈ s.observed

theorem TracksHolders.resolvesLatest {s : HeldNames} (h : TracksHolders s) : ResolvesLatest s where
  live kind value r hholder := by
    have hsame := (h.rows kind value).or_live
    rw [hholder] at hsame
    rw [(h.rows kind value).resolveAlias_eq, ← hsame]
    rfl
  latest kind value _ := (h.rows kind value).resolveAlias_eq
  unrecorded kind value hnot := by
    rw [resolveAlias_eq]
    have hempty : s.catalog.tables.repositoryAliases.filter (·.named kind value) = [] := by
      rw [List.filter_eq_nil_iff]
      intro a ha hnamed
      obtain ⟨rfl, rfl⟩ := RepositoryAlias.named_iff.mp hnamed
      exact hnot (h.observed a ha)
    rw [hempty]
    rfl

section steps

variable {kind kind' : AliasKind} {value value' : String} {t t' : List RepositoryAlias}
  {last : Option Uuid} {fresh : Uuid} {now : Time} {r id : Uuid}

/-- A claim leaves the rows of other values alone. -/
theorem LatestRow.claimed_other (h : LatestRow kind value t last)
    (hclaimed : Claimed fresh now r kind' value' t t' id) (hne : (kind, value) ≠ (kind', value')) :
    LatestRow kind value t' last := by
  cases hclaimed with
  | live ha hlive hown => exact h
  | returned hfree ha hdormant =>
    have hother : ∀ a : RepositoryAlias, a.named kind value = true →
        a.dormant r kind' value' = false := by
      intro a hnamed
      rw [Bool.eq_false_iff]
      intro hd
      obtain ⟨hname, -⟩ := RepositoryAlias.dormant_iff.mp hd
      obtain ⟨-, hkind, hvalue⟩ := by simpa [RepositoryAlias.name] using hname
      obtain ⟨hkind', hvalue'⟩ := RepositoryAlias.named_iff.mp hnamed
      exact hne (by rw [← hkind, ← hvalue, hkind', hvalue'])
    refine h.of_rows ?_ ?_
    · intro a ha hnamed
      refine ⟨a, mem_updateWhere.mpr ⟨a, ha, ?_⟩, hnamed, rfl, rfl⟩
      rw [hother a hnamed]
      rfl
    · intro b hb hnamed
      obtain ⟨a, ha, rfl⟩ := mem_updateWhere.mp hb
      by_cases hd : a.dormant r kind' value' = true
      · rw [if_pos hd] at hnamed
        rw [hother a hnamed] at hd
        cases hd
      · rw [if_neg hd] at hnamed ⊢
        exact ⟨a, ha, hnamed, rfl, rfl, fun hlive => hlive⟩
  | inserted hfree hnew =>
    refine h.of_rows ?_ ?_
    · exact fun a ha hnamed => ⟨a, List.mem_append_left _ ha, hnamed, rfl, rfl⟩
    · intro b hb hnamed
      rw [List.mem_append, List.mem_singleton] at hb
      rcases hb with hb | rfl
      · exact ⟨b, hb, hnamed, rfl, rfl, fun hlive => hlive⟩
      · obtain ⟨hkind, hvalue⟩ := RepositoryAlias.named_iff.mp hnamed
        exact absurd (Prod.ext hkind.symm hvalue.symm) hne

/-- The row a claimed value is live under is the newest, unless the claim is outdated. -/
theorem Claimed.latestRow (h : Claimed fresh now r kind value t t' id)
    (hlast : LatestRow kind value t last)
    (hnewest : (∀ b ∈ t, b.holds kind value = false) → ∀ b ∈ t, b.named kind value = true →
      b.repositoryId ≠ r →
        (∀ a ∈ t, a.named kind value = true → a.repositoryId = r → b.createdAt < a.createdAt) ∧
        ((∀ a ∈ t, a.named kind value = true → a.repositoryId ≠ r) → b.createdAt < now)) :
    LatestRow kind value t' (some r) := by
  cases h with
  | @live a ha hlive hown =>
    cases hlast with
    | unrecorded hnone =>
      have hnamed := named_of_holds hlive
      rw [hnone a ha] at hnamed
      cases hnamed
    | held hb hnamed hnew hlive' =>
      rw [← hown, hlive' a ha hlive]
      exact .held hb hnamed hnew hlive'
  | @returned a hfree ha hdormant =>
    obtain ⟨hname, -⟩ := RepositoryAlias.dormant_iff.mp hdormant
    obtain ⟨hrepo, hkind, hvalue⟩ := by simpa [RepositoryAlias.name] using hname
    have hnamed := RepositoryAlias.named_iff.mpr ⟨hkind, hvalue⟩
    subst hrepo
    have hmem : a.reactivated ∈ updateWhere (·.dormant a.repositoryId kind value)
        RepositoryAlias.reactivated t :=
      mem_updateWhere.mpr ⟨a, ha, if_pos hdormant⟩
    refine .held (a := a.reactivated) hmem hnamed ?_ ?_
    · intro b hb hbnamed hne
      obtain ⟨b₀, hb₀, rfl⟩ := mem_updateWhere.mp hb
      by_cases hd : b₀.dormant a.repositoryId kind value = true
      · rw [if_pos hd] at hne
        exact absurd (congrArg Prod.fst (RepositoryAlias.dormant_iff.mp hd).1) hne
      · rw [if_neg hd] at hbnamed hne ⊢
        exact (hnewest hfree b₀ hb₀ hbnamed hne).1 a ha hnamed rfl
    · intro b hb hlive
      obtain ⟨b₀, hb₀, rfl⟩ := mem_updateWhere.mp hb
      by_cases hd : b₀.dormant a.repositoryId kind value = true
      · rw [if_pos hd]
        exact congrArg Prod.fst (RepositoryAlias.dormant_iff.mp hd).1
      · rw [if_neg hd, hfree b₀ hb₀] at hlive
        cases hlive
  | inserted hfree hnew =>
    have hown : ∀ a ∈ t, a.named kind value = true → a.repositoryId ≠ r := by
      intro a ha hnamed hrepo
      obtain ⟨hkind, hvalue⟩ := RepositoryAlias.named_iff.mp hnamed
      by_cases hactive : a.status = .active
      · have hholds := RepositoryAlias.holds_iff.mpr ⟨hkind, hvalue, hactive⟩
        rw [hfree a ha] at hholds
        cases hholds
      · have hdormant := RepositoryAlias.dormant_iff.mpr
          ⟨by rw [RepositoryAlias.name, hrepo, hkind, hvalue], hactive⟩
        rw [hnew a ha] at hdormant
        cases hdormant
    refine .held (a := ⟨fresh, r, kind, value, .active, none, now⟩)
      (List.mem_append_right _ List.mem_cons_self) (RepositoryAlias.named_iff.mpr ⟨rfl, rfl⟩) ?_ ?_
    · refine forall_append_singleton (fun b hb hnamed hne => ?_) fun _ hne => absurd rfl hne
      exact (hnewest hfree b hb hnamed hne).2 hown
    · refine forall_append_singleton (fun b hb hlive => ?_) fun _ => rfl
      rw [hfree b hb] at hlive
      cases hlive

/-- Superseding changes no last holder. -/
theorem LatestRow.superseded (h : LatestRow kind value t last) {old : Option String} :
    LatestRow kind value (supersedeIn kind' old id t) last := by
  cases old with
  | none => exact h
  | some oldValue =>
    refine h.of_rows ?_ ?_
    · intro a ha hnamed
      refine ⟨_, mem_updateWhere.mpr ⟨a, ha, rfl⟩, ?_⟩
      split
      · exact ⟨hnamed, rfl, rfl⟩
      · exact ⟨hnamed, rfl, rfl⟩
    · intro b hb hnamed
      obtain ⟨a, ha, rfl⟩ := mem_updateWhere.mp hb
      refine ⟨a, ha, ?_⟩
      split at hnamed
      · next hp =>
        rw [if_pos hp]
        refine ⟨hnamed, rfl, rfl, fun hlive => ?_⟩
        obtain ⟨-, -, hactive⟩ := RepositoryAlias.holds_iff.mp hlive
        cases hactive
      · next hp =>
        rw [if_neg hp]
        exact ⟨hnamed, rfl, rfl, fun hlive => hlive⟩

/-- The rows after a call are of the old values or of the observed one. -/
theorem AliasObservation.values {pid : ℤ} {old : Option String} {db db' : Database}
    (h : AliasObservation fresh now pid kind old value db db' r) {b : RepositoryAlias}
    (hb : b ∈ db'.repositoryAliases) : (∃ a ∈ db.repositoryAliases, a.aliasKind = b.aliasKind ∧
      a.aliasValue = b.aliasValue) ∨ (b.aliasKind = kind ∧ b.aliasValue = value) := by
  obtain ⟨claimed, id, hclaimed, haliases⟩ := h.aliases
  have hmid : ∃ a ∈ claimed.tables.repositoryAliases, a.aliasKind = b.aliasKind ∧
      a.aliasValue = b.aliasValue := by
    rw [haliases] at hb
    cases hold : old.filter (· ≠ value) with
    | none =>
      rw [hold] at hb
      exact ⟨b, hb, rfl, rfl⟩
    | some oldValue =>
      rw [hold] at hb
      obtain ⟨a, ha, rfl⟩ := mem_updateWhere.mp hb
      refine ⟨a, ha, ?_⟩
      split
      · exact ⟨rfl, rfl⟩
      · exact ⟨rfl, rfl⟩
  obtain ⟨a, ha, hkind, hvalue⟩ := hmid
  generalize claimed.tables.repositoryAliases = t at hclaimed ha
  cases hclaimed with
  | live _ _ _ => exact .inl ⟨a, ha, hkind, hvalue⟩
  | returned _ _ _ =>
    obtain ⟨a₀, ha₀, rfl⟩ := mem_updateWhere.mp ha
    refine .inl ⟨a₀, ha₀, ?_⟩
    split at hkind
    · next hp =>
      rw [if_pos hp] at hvalue
      exact ⟨hkind, hvalue⟩
    · next hp =>
      rw [if_neg hp] at hvalue
      exact ⟨hkind, hvalue⟩
  | inserted _ _ =>
    rw [List.mem_append, List.mem_singleton] at ha
    rcases ha with ha | rfl
    · exact .inl ⟨a, ha, hkind, hvalue⟩
    · exact .inr ⟨hkind.symm, hvalue.symm⟩

end steps

/-- Evidence that is not outdated makes its value live under the newest row. -/
theorem AliasEvidence.newest {e : AliasEvidence} {c c' : Catalog} {r fresh : Uuid}
    (h : AliasObservation fresh e.now e.providerRepositoryId e.kind e.superseded e.observed c.tables
      c'.tables r) (hguard : e.outdated c.tables = false)
    (hfree : ∀ b ∈ c.tables.repositoryAliases, b.holds e.kind e.observed = false)
    {b : RepositoryAlias} (hb : b ∈ c.tables.repositoryAliases)
    (hnamed : b.named e.kind e.observed = true) (hne : b.repositoryId ≠ r) :
    (∀ a ∈ c.tables.repositoryAliases, a.named e.kind e.observed = true → a.repositoryId = r →
        b.createdAt < a.createdAt) ∧
      ((∀ a ∈ c.tables.repositoryAliases, a.named e.kind e.observed = true → a.repositoryId ≠ r) →
        b.createdAt < e.now) := by
  have hforeign : e.owns c.tables b = false := by
    rw [Bool.eq_false_iff]
    exact fun howns => hne ((owns_iff h hb).mp howns)
  rw [outdated, activeAliasHolder_eq_none.mpr hfree, Option.isNone_none, Bool.true_and,
    List.any_eq_false] at hguard
  have hb' := hguard b (List.mem_filter.mpr ⟨List.mem_filter.mpr ⟨hb, hnamed⟩, by rw [hforeign]; rfl⟩)
  constructor
  · intro a ha hanamed hrepo
    have hmem : a ∈ (c.tables.repositoryAliases.filter (·.named e.kind e.observed)).filter
        (e.owns c.tables) :=
      List.mem_filter.mpr ⟨List.mem_filter.mpr ⟨ha, hanamed⟩, (owns_iff h ha).mpr hrepo⟩
    rw [if_neg (by rw [List.isEmpty_iff]; exact List.ne_nil_of_mem hmem)] at hb'
    have hlater := List.any_eq_false.mp (Bool.eq_false_iff.mpr hb') a hmem
    simpa using hlater
  · intro hnone
    have hempty : (c.tables.repositoryAliases.filter (·.named e.kind e.observed)).filter
        (e.owns c.tables) = [] := by
      rw [List.filter_eq_nil_iff]
      intro a ha howns
      obtain ⟨hmem, hanamed⟩ := List.mem_filter.mp ha
      exact hnone a hmem hanamed ((owns_iff h hmem).mp howns)
    rw [if_pos (by rw [hempty]; rfl)] at hb'
    simpa using hb'

/-- **The step lemma of the last holders.** -/
theorem TracksHolders.step {s : HeldNames} (h : TracksHolders s) {e : AliasEvidence}
    (hguard : e.outdated s.catalog.tables = false) : TracksHolders (s.step e) := by
  have hcases : (∃ r, e.run s.catalog = .ok (r, e.commit s.catalog)) ∨ e.commit s.catalog = s.catalog :=
    Tx.commit_cases e.run s.catalog
  rcases hcases with ⟨r, hok⟩ | hsame
  · have hobserved := applyAliasObservation_spec hok
    obtain ⟨claimed, id, hclaimed, haliases⟩ := hobserved.aliases
    refine ⟨fun kind value => ?_, fun b hb => ?_⟩
    · by_cases hname : (kind, value) = (e.kind, e.observed)
      · obtain ⟨rfl, rfl⟩ := Prod.mk.inj hname
        have hlatest : LatestRow e.kind e.observed (e.commit s.catalog).tables.repositoryAliases
            (some r) := by
          rw [haliases]
          exact (hclaimed.latestRow (h.rows _ _) fun hfree b hb hnamed hne =>
            AliasEvidence.newest hobserved hguard hfree hb hnamed hne).superseded
        obtain ⟨a, ha, hlive, hrepo⟩ := hobserved.row
        have hholder : liveHolder e.kind e.observed (e.commit s.catalog).tables = some r := by
          rw [liveHolder, activeAliasHolder_of_holds (e.commit s.catalog).valid.keys ha hlive,
            Option.map_some, hrepo]
        show LatestRow _ _ _ ((liveHolder _ _ _).or _)
        rw [hholder]
        exact hlatest
      · have hlatest : LatestRow kind value (e.commit s.catalog).tables.repositoryAliases
            (s.last kind value) := by
          rw [haliases]
          exact ((h.rows kind value).claimed_other hclaimed hname).superseded
        show LatestRow _ _ _ ((liveHolder _ _ _).or _)
        rw [hlatest.or_live]
        exact hlatest
    · rcases hobserved.values hb with ⟨a, ha, hkind, hvalue⟩ | ⟨hkind, hvalue⟩
      · rw [← hkind, ← hvalue]
        exact List.mem_cons_of_mem _ (h.observed a ha)
      · rw [hkind, hvalue]
        exact List.mem_cons_self
  · refine ⟨fun kind value => ?_, fun b hb => ?_⟩
    · show LatestRow _ _ (e.commit s.catalog).tables.repositoryAliases ((liveHolder _ _ _).or _)
      rw [hsame, (h.rows kind value).or_live]
      exact h.rows kind value
    · have hb' : b ∈ (e.commit s.catalog).tables.repositoryAliases := hb
      rw [hsame] at hb'
      exact List.mem_cons_of_mem _ (h.observed b hb')

/-- **An alias resolves to its last holder.**  Along every history of rename evidence in which each
value becomes live under the newest row of the value, it resolves to its live holder, and otherwise
to the repository that held it live most recently. -/
theorem resolves_latest (history : List AliasEvidence)
    (h : Guarded HeldNames.step (fun s e => e.outdated s.catalog.tables = false) .start history) :
    Throughout HeldNames.step ResolvesLatest .start history := by
  have hstart : TracksHolders .start := by
    refine ⟨fun kind value => .unrecorded fun a ha => ?_, fun a ha => ?_⟩
    · cases ha
    · cases ha
  exact Throughout.mono (fun s hs => hs.resolvesLatest)
    (throughout_of_guarded (fun s e hs hguard => hs.step hguard) hstart h)

/-- Evidence that a repository left one name for another. -/
def movedTo (n : ℕ) (pid : ℤ) (old : Option String) (value : String) : AliasEvidence :=
  ⟨fun i => BitVec.ofNat 128 (10 * n + i), n, pid, .ownerName, old, value⟩

/-- A name that one repository leaves and another takes and leaves. -/
def nameTakenOver : List AliasEvidence :=
  [movedTo 1 101 none "a/x", movedTo 2 101 (some "a/x") "a/y", movedTo 3 102 none "a/x",
    movedTo 4 102 (some "a/x") "a/z"]

theorem resolves_latest_nameTakenOver :
    Guarded HeldNames.step (fun s e => e.outdated s.catalog.tables = false) .start nameTakenOver ∧
      Throughout HeldNames.step ResolvesLatest .start nameTakenOver := by
  have hguard : Guarded HeldNames.step (fun s e => e.outdated s.catalog.tables = false) .start
      nameTakenOver := by decide +kernel
  exact ⟨hguard, resolves_latest nameTakenOver hguard⟩

/-- The first repository returns to the name and leaves it again: it held the name last, and the
lookup still answers the other one. -/
theorem returned_name_resolves_elsewhere :
    let s := runFrom HeldNames.step .start
      (nameTakenOver ++ [movedTo 5 101 (some "a/y") "a/x", movedTo 6 101 (some "a/x") "a/y"])
    liveHolder .ownerName "a/x" s.catalog.tables = none ∧
      s.last .ownerName "a/x" = some 10 ∧
      resolveAlias .ownerName "a/x" s.catalog.tables = some 30 ∧ ¬ ResolvesLatest s := by
  intro s
  have hfree : liveHolder .ownerName "a/x" s.catalog.tables = none := by decide +kernel
  have hlast : s.last .ownerName "a/x" = some 10 := by decide +kernel
  have hresolved : resolveAlias .ownerName "a/x" s.catalog.tables = some 30 := by decide +kernel
  refine ⟨hfree, hlast, hresolved, fun h => ?_⟩
  have hclaim := h.latest .ownerName "a/x" hfree
  rw [hresolved, hlast] at hclaim
  exact absurd hclaim (by decide)

end GithubCatalog
