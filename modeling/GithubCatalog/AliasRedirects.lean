import GithubCatalog.AliasTable
import GithubCatalog.Lib.Forwarding

/-!
# Redirects among aliases

`supersede_alias_in_tx` forwards a row to the row of the observed value, which is live, and a live row
forwards nowhere.  So a statement never closes a cycle, in whatever order names are superseded,
returned to and taken over.

* `redirectOf` - the pointer of an alias;
* `AliasRedirects` - every pointer comes to an end and stays within its kind;
* `redirects_acyclic` - the same of every state that a history reaches.
-/

namespace GithubCatalog

open Relational Transact Forwarding

/-- The alias that an alias redirects to. -/
def redirectOf (t : List RepositoryAlias) (id : Uuid) : Option Uuid :=
  (t.find? fun a => decide (a.aliasId = id)).bind (·.redirectTo)

theorem redirectOf_eq_some {t : List RepositoryAlias} (hunique : UniqueOn (·.aliasId) t)
    {id target : Uuid} : redirectOf t id = some target ↔
      ∃ a ∈ t, a.aliasId = id ∧ a.redirectTo = some target := by
  constructor
  · intro h
    obtain ⟨a, hfind, hredirect⟩ := Option.bind_eq_some_iff.mp h
    have hid := List.find?_some hfind
    exact ⟨a, List.mem_of_find?_eq_some hfind, of_decide_eq_true hid, hredirect⟩
  · rintro ⟨a, ha, rfl, hredirect⟩
    rw [redirectOf, hunique.find?_eq ha]
    exact hredirect

/-- One row redirects to another. -/
def Redirects (db : Database) (a b : RepositoryAlias) : Prop :=
  a ∈ db.repositoryAliases ∧ b ∈ db.repositoryAliases ∧ a.redirectTo = some b.aliasId

/-- Every redirect comes to an end and joins rows of one kind. -/
structure SettledRedirects (db : Database) : Prop where
  ends : ∀ id, Ends (redirectOf db.repositoryAliases) id
  kinds : ∀ a b, Redirects db a b → a.aliasKind = b.aliasKind

/-- **The step rule of the redirects.**  Every row keeps its redirect, loses it, or redirects to a row
of its kind that redirects nowhere. -/
theorem SettledRedirects.step {c c' : Catalog} (h : SettledRedirects c.tables)
    (hstep : ∀ a ∈ c'.tables.repositoryAliases, ∀ b ∈ c'.tables.repositoryAliases,
      a.redirectTo = some b.aliasId →
        (∃ a₀ ∈ c.tables.repositoryAliases, ∃ b₀ ∈ c.tables.repositoryAliases,
          a₀.redirectTo = some b₀.aliasId ∧ a₀.aliasId = a.aliasId ∧ b₀.aliasId = b.aliasId ∧
          a₀.aliasKind = a.aliasKind ∧ b₀.aliasKind = b.aliasKind) ∨
        (b.redirectTo = none ∧ a.aliasKind = b.aliasKind)) : SettledRedirects c'.tables := by
  have hunique := c.valid.keys.aliases
  have hunique' := c'.valid.keys.aliases
  constructor
  · intro id
    refine (h.ends id).repoint fun from' to' hnext => ?_
    obtain ⟨a, ha, rfl, hredirect⟩ := (redirectOf_eq_some hunique').mp hnext
    obtain ⟨b, hb, rfl⟩ := List.mem_map.mp
      (c'.valid.foreignKeys.aliases_redirect a ha to' (Option.mem_def.mpr hredirect))
    rcases hstep a ha b hb hredirect with ⟨a₀, ha₀, b₀, -, hold, hid, hid', -⟩ | ⟨hend, -⟩
    · refine .inl ((redirectOf_eq_some hunique).mpr ⟨a₀, ha₀, hid, ?_⟩)
      rw [hold, hid']
    · right
      rw [redirectOf, hunique'.find?_eq hb]
      exact hend
  · rintro a b ⟨ha, hb, hredirect⟩
    rcases hstep a ha b hb hredirect with ⟨a₀, ha₀, b₀, hb₀, hold, -, -, hkind, hkind'⟩ | ⟨-, hkind⟩
    · rw [← hkind, ← hkind']
      exact h.kinds a₀ b₀ ⟨ha₀, hb₀, hold⟩
    · exact hkind

section steps

variable {c c' : Catalog}

theorem SettledRedirects.of_eq {db db' : Database} (h : SettledRedirects db)
    (haliases : db'.repositoryAliases = db.repositoryAliases) : SettledRedirects db' := by
  refine ⟨?_, ?_⟩
  · rw [haliases]
    exact h.ends
  · unfold Redirects
    rw [haliases]
    exact h.kinds

/-- A new row without a redirect. -/
theorem SettledRedirects.insert (h : SettledRedirects c.tables) {row : RepositoryAlias}
    (hrow : row.redirectTo = none)
    (haliases : c'.tables.repositoryAliases = c.tables.repositoryAliases ++ [row]) :
    SettledRedirects c'.tables := by
  refine h.step fun a ha b hb hredirect => .inl ?_
  have hmem : a ∈ c.tables.repositoryAliases := by
    rw [haliases, List.mem_append, List.mem_singleton] at ha
    rcases ha with hold | rfl
    · exact hold
    · rw [hrow] at hredirect
      cases hredirect
  -- Its old redirect names an old row.
  obtain ⟨b₀, hb₀, hid⟩ := List.mem_map.mp
    (c.valid.foreignKeys.aliases_redirect a hmem b.aliasId (Option.mem_def.mpr hredirect))
  have hb₀' : b₀ ∈ c'.tables.repositoryAliases := by
    rw [haliases]
    exact List.mem_append_left _ hb₀
  have hsame : b₀ = b := c'.valid.keys.aliases.eq_of_mem hb₀' hb hid
  exact ⟨a, hmem, b₀, hb₀, by rw [hredirect, hid], rfl, hid, rfl, by rw [hsame]⟩

/-- A row of an updated table is an old row, or the update of one. -/
theorem SettledRedirects.update (h : SettledRedirects c.tables) {p : RepositoryAlias → Bool}
    {f : RepositoryAlias → RepositoryAlias} (hid : ∀ a, (f a).aliasId = a.aliasId)
    (hkind : ∀ a, (f a).aliasKind = a.aliasKind)
    (haliases : c'.tables.repositoryAliases = updateWhere p f c.tables.repositoryAliases)
    (hf : ∀ a ∈ c.tables.repositoryAliases, p a = true → ∀ b ∈ c.tables.repositoryAliases,
      (f a).redirectTo = some b.aliasId →
        p b = false ∧ b.redirectTo = none ∧ a.aliasKind = b.aliasKind) :
    SettledRedirects c'.tables := by
  refine h.step fun a ha b hb hredirect => ?_
  rw [haliases] at ha hb
  obtain ⟨a₀, ha₀, rfl⟩ := mem_updateWhere.mp ha
  obtain ⟨b₀, hb₀, rfl⟩ := mem_updateWhere.mp hb
  have hsame : ∀ x : RepositoryAlias, (if p x = true then f x else x).aliasId = x.aliasId ∧
      (if p x = true then f x else x).aliasKind = x.aliasKind := by
    intro x
    split
    · exact ⟨hid x, hkind x⟩
    · exact ⟨rfl, rfl⟩
  rw [(hsame b₀).1] at hredirect
  by_cases hp : p a₀ = true
  · rw [if_pos hp] at hredirect
    obtain ⟨hkept, hend, hkinds⟩ := hf a₀ ha₀ hp b₀ hb₀ hredirect
    refine .inr ⟨?_, ?_⟩
    · rw [hkept]
      exact hend
    · rw [(hsame a₀).2, (hsame b₀).2]
      exact hkinds
  · rw [if_neg hp] at hredirect
    exact .inl ⟨a₀, ha₀, b₀, hb₀, hredirect, (hsame a₀).1.symm, (hsame b₀).1.symm,
      (hsame a₀).2.symm, (hsame b₀).2.symm⟩

theorem SettledRedirects.claimed (h : SettledRedirects c.tables) {fresh : Uuid} {now : Time}
    {r id : Uuid} {kind : AliasKind} {value : String}
    (hclaimed : Claimed fresh now r kind value c.tables.repositoryAliases
      c'.tables.repositoryAliases id) : SettledRedirects c'.tables := by
  generalize ht : c'.tables.repositoryAliases = t at hclaimed
  cases hclaimed with
  | live ha hlive hown => exact h.of_eq ht
  | returned hfree ha hdormant =>
    refine h.update (f := RepositoryAlias.reactivated) (fun _ => rfl) (fun _ => rfl) ht ?_
    intro a _ _ b _ hredirect
    cases hredirect
  | inserted hfree hnew => exact h.insert rfl ht

/-- The superseding of a value by the live row of another value of the kind. -/
theorem SettledRedirects.superseded (h : SettledRedirects c.tables) {kind : AliasKind}
    {value oldValue : String} {live : RepositoryAlias} (hmem : live ∈ c.tables.repositoryAliases)
    (hlive : live.holds kind value = true) (hne : oldValue ≠ value)
    (haliases : c'.tables.repositoryAliases = updateWhere (·.holds kind oldValue)
      (·.supersededBy live.aliasId) c.tables.repositoryAliases) : SettledRedirects c'.tables := by
  refine h.update (f := (·.supersededBy live.aliasId)) (fun _ => rfl) (fun _ => rfl) haliases ?_
  intro a _ hold b hb hredirect
  obtain ⟨hkind, hvalue, hactive⟩ := RepositoryAlias.holds_iff.mp hlive
  have hsame : b = live :=
    c.valid.keys.aliases.eq_of_mem hb hmem (Option.some.inj hredirect).symm
  subst hsame
  refine ⟨?_, redirectTo_of_active c hb hactive, ?_⟩
  · rw [Bool.eq_false_iff]
    intro hold'
    exact hne ((RepositoryAlias.holds_iff.mp hold').2.1.symm.trans hvalue)
  · rw [(RepositoryAlias.holds_iff.mp hold).1, hkind]

theorem SettledRedirects.observed (h : SettledRedirects c.tables) {fresh : Uuid} {now : Time}
    {pid : ℤ} {kind : AliasKind} {old : Option String} {value : String} {r : Uuid}
    (hobserved : AliasObservation fresh now pid kind old value c.tables c'.tables r) :
    SettledRedirects c'.tables := by
  obtain ⟨claimed, id, hclaimed, haliases⟩ := hobserved.aliases
  have hsettled := h.claimed hclaimed
  cases hold : old.filter (· ≠ value) with
  | none =>
    rw [hold] at haliases
    exact hsettled.of_eq haliases
  | some oldValue =>
    rw [hold] at haliases
    obtain ⟨live, hmem, hlive, -, rfl⟩ := hclaimed.row
    have hne := (Option.filter_eq_some_iff.mp hold).2
    exact hsettled.superseded hmem hlive (of_decide_eq_true hne) haliases

theorem SettledRedirects.aliased (h : SettledRedirects c.tables) {fresh : Uuid} {now : Time}
    {record : LegacyRepository} {r : Uuid}
    (haliased : LegacyAliased fresh now record c.tables c'.tables r) :
    SettledRedirects c'.tables := by
  have hclaimed := haliased.aliases
  generalize ht : c'.tables.repositoryAliases = t at hclaimed
  cases hclaimed with
  | live ha hlive hown => exact h.of_eq ht
  | inserted hfree => exact h.insert rfl ht

/-- An erasure deletes rows, and clears the redirects that named them. -/
theorem SettledRedirects.erased (h : SettledRedirects c.tables) {now : Time} {owner : String}
    (haliases : c'.tables.repositoryAliases = (erased now owner c.tables).repositoryAliases) :
    SettledRedirects c'.tables := by
  have hrow : ∀ a ∈ c'.tables.repositoryAliases, ∃ a₀ ∈ c.tables.repositoryAliases,
      a.aliasId = a₀.aliasId ∧ a.aliasKind = a₀.aliasKind ∧
        ∀ target, a.redirectTo = some target → a₀.redirectTo = some target := by
    intro a ha
    rw [haliases, erased_aliases c.valid.foreignKeys.aliases_repository] at ha
    obtain ⟨a₀, ha₀, rfl⟩ := List.mem_map.mp ha
    refine ⟨a₀, (List.mem_filter.mp ha₀).1, ?_⟩
    unfold RepositoryAlias.released
    split
    · exact ⟨rfl, rfl, fun target hcleared => by cases hcleared⟩
    · exact ⟨rfl, rfl, fun target hkept => hkept⟩
  refine h.step fun a ha b hb hredirect => .inl ?_
  obtain ⟨a₀, ha₀, hid, hkind, hold⟩ := hrow a ha
  obtain ⟨b₀, hb₀, hid', hkind', -⟩ := hrow b hb
  exact ⟨a₀, ha₀, b₀, hb₀, by rw [hold _ hredirect, hid'], hid.symm, hid'.symm, hkind.symm,
    hkind'.symm⟩

end steps

/-- **Every operation keeps the redirects settled.** -/
theorem Operation.commit_settledRedirects (k : Contracts) (c : Catalog) (op : Operation)
    (h : SettledRedirects c.tables) : SettledRedirects (op.commit k c).tables := by
  have heffect := op.aliasEffect k c
  generalize op.commit k c = c' at heffect ⊢
  cases heffect with
  | kept haliases => exact h.of_eq haliases
  | recorded _ hclaimed => exact h.claimed hclaimed
  | observed hobserved => exact h.observed hobserved
  | erased _ haliases => exact h.erased haliases
  | @imported accountIds ids now request importRunId answer hok =>
    have hkeeps : Tx.Relates (Tx.Keeps SettledRedirects)
        (importLegacyTransaction accountIds ids now request importRunId) := by
      refine relates_import_aliases (fun db db' _ haliases _ hsettled => hsettled.of_eq haliases) ?_
      intro record _ c₁ c₂ fresh r _ haliased hsettled
      exact hsettled.aliased haliased
    exact hkeeps c answer c' hok h

/-- The redirects of a table form an acyclic graph. -/
structure AcyclicRedirects (db : Database) : Prop where
  ends : ∀ a ∈ db.repositoryAliases, ∃ b ∈ db.repositoryAliases,
    Relation.ReflTransGen (Redirects db) a b ∧ b.redirectTo = none
  acyclic : ∀ a, ¬ Relation.TransGen (Redirects db) a a
  active : ∀ a ∈ db.repositoryAliases, a.status = .active → a.redirectTo = none
  kinds : ∀ a b, Redirects db a b → a.aliasKind = b.aliasKind

/-- A redirect between rows is one between their identifiers. -/
theorem Redirects.redirectOf {c : Catalog} {a b : RepositoryAlias} (h : Redirects c.tables a b) :
    redirectOf c.tables.repositoryAliases a.aliasId = some b.aliasId :=
  (redirectOf_eq_some c.valid.keys.aliases).mpr ⟨a, h.1, rfl, h.2.2⟩

/-- A path over identifiers is one over rows. -/
theorem exists_path {c : Catalog} {a : RepositoryAlias} (ha : a ∈ c.tables.repositoryAliases)
    {id : Uuid} (hpath : Relation.ReflTransGen
      (fun x y => redirectOf c.tables.repositoryAliases x = some y) a.aliasId id) :
    ∃ b ∈ c.tables.repositoryAliases, b.aliasId = id ∧
      Relation.ReflTransGen (Redirects c.tables) a b := by
  have hunique := c.valid.keys.aliases
  induction hpath with
  | refl => exact ⟨a, ha, rfl, .refl⟩
  | tail _ hedge ih =>
    obtain ⟨b, hb, hid, hpath⟩ := ih
    obtain ⟨b', hb', hid', hredirect⟩ := (redirectOf_eq_some hunique).mp hedge
    have hsame : b' = b := hunique.eq_of_mem hb' hb (hid'.trans hid.symm)
    subst hsame
    obtain ⟨d, hd, rfl⟩ := List.mem_map.mp
      (c.valid.foreignKeys.aliases_redirect b' hb' _ (Option.mem_def.mpr hredirect))
    exact ⟨d, hd, rfl, hpath.tail ⟨hb', hd, hredirect⟩⟩

theorem SettledRedirects.acyclicRedirects {c : Catalog} (h : SettledRedirects c.tables) :
    AcyclicRedirects c.tables where
  ends a ha := by
    obtain ⟨id, hpath, hend⟩ := (h.ends a.aliasId).exists_end
    obtain ⟨b, hb, rfl, hrows⟩ := exists_path ha hpath
    refine ⟨b, hb, hrows, ?_⟩
    rw [redirectOf, c.valid.keys.aliases.find?_eq hb] at hend
    exact hend
  acyclic a hcycle := by
    refine (h.ends a.aliasId).not_cyclic ?_
    exact hcycle.lift (p := fun x y => redirectOf c.tables.repositoryAliases x = some y) (·.aliasId)
      fun x y hredirect => hredirect.redirectOf
  active a ha hactive := redirectTo_of_active c ha hactive
  kinds := h.kinds

/-- **Redirects are acyclic.**  In every state that a history of operations reaches, following
`redirect_to` from any alias ends at an alias without a redirect, no live alias has one, and every
redirect joins aliases of one kind. -/
theorem redirects_acyclic (k : Contracts) (history : List Operation) :
    AcyclicRedirects (Runs.runFrom (step k) emptyCatalog history).tables := by
  have hempty : SettledRedirects emptyCatalog.tables := by
    refine ⟨fun id => .stop rfl, ?_⟩
    rintro a b ⟨ha, -⟩
    cases ha
  have hreachable : Reachable k (Runs.runFrom (step k) emptyCatalog history) := ⟨history, rfl⟩
  have hsettled := Reachable.induct (P := fun c => SettledRedirects c.tables) hempty
    (fun c op hsettled _ => op.commit_settledRedirects k c hsettled) hreachable
  exact hsettled.acyclicRedirects

end GithubCatalog
