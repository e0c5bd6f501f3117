import GithubCatalog.Catalog
import GithubCatalog.ErasureFrame

/-!
# What the writers of `repository_aliases` do

Four transactions write aliases: `record_alias` and `apply_alias_observation` claim a value for a
repository, the latter may supersede another value, a legacy import inserts live rows, and an erasure
collects the rows of the repositories it deletes.

* `Claimed` - the three ways a value becomes the live alias of a repository;
* `AliasEvidence` - one call of `apply_alias_observation`, and `AliasObservation` its joint effect;
* `LegacyClaimed` - the effect of `record_legacy_alias`, which looks for live rows only;
* `AliasEffect` - what an operation does to the table.
-/

namespace GithubCatalog

open Relational Transact

/-! ### Rows -/

namespace RepositoryAlias

/-- A row that `reactivate_alias_in_tx` brought back. -/
def reactivated (a : RepositoryAlias) : RepositoryAlias :=
  { a with status := .active, redirectTo := none }

/-- A row that `supersede_alias_in_tx` turned into redirect history. -/
def supersededBy (redirectTo : Uuid) (a : RepositoryAlias) : RepositoryAlias :=
  { a with status := .superseded, redirectTo := some redirectTo }

/-- The identity of an alias: whose, of which kind, and which value. -/
def name (a : RepositoryAlias) : Uuid × AliasKind × String :=
  (a.repositoryId, a.aliasKind, a.aliasValue)

variable {a : RepositoryAlias} {r : Uuid} {kind : AliasKind} {value : String}

theorem holds_iff : a.holds kind value = true ↔
    a.aliasKind = kind ∧ a.aliasValue = value ∧ a.status = .active := by
  simp [holds, and_assoc]

theorem dormant_iff : a.dormant r kind value = true ↔
    a.name = (r, kind, value) ∧ a.status ≠ .active := by
  simp [dormant, name, and_assoc]

@[simp] theorem reactivated_id : a.reactivated.aliasId = a.aliasId := rfl

@[simp] theorem reactivated_name : a.reactivated.name = a.name := rfl

@[simp] theorem supersededBy_id {id : Uuid} : (a.supersededBy id).aliasId = a.aliasId := rfl

@[simp] theorem supersededBy_name {id : Uuid} : (a.supersededBy id).name = a.name := rfl

end RepositoryAlias

/-- A live row redirects nowhere. -/
theorem redirectTo_of_active (c : Catalog) {a : RepositoryAlias} (ha : a ∈ c.tables.repositoryAliases)
    (hactive : a.status = .active) : a.redirectTo = none := by
  have hcheck := c.valid.checks.aliases a ha
  rw [RepositoryAlias.check, hactive] at hcheck
  simpa using hcheck

/-- A value is live with one row at most. -/
theorem eq_of_holds {db : Database} (hkeys : Keys db) {a b : RepositoryAlias}
    {kind : AliasKind} {value : String} (ha : a ∈ db.repositoryAliases)
    (hb : b ∈ db.repositoryAliases) (hlive : a.holds kind value = true)
    (hlive' : b.holds kind value = true) : a = b := by
  obtain ⟨hkind, hvalue, hstatus⟩ := RepositoryAlias.holds_iff.mp hlive
  obtain ⟨hkind', hvalue', hstatus'⟩ := RepositoryAlias.holds_iff.mp hlive'
  refine hkeys.aliases_live.eq_of_mem (List.mem_filter.mpr ⟨ha, decide_eq_true hstatus⟩)
    (List.mem_filter.mpr ⟨hb, decide_eq_true hstatus'⟩) ?_
  rw [hkind, hvalue, hkind', hvalue']

/-! ### Claims -/

/-- How a value became the live alias of a repository, under the alias `id`. -/
inductive Claimed (fresh : Uuid) (now : Time) (r : Uuid) (kind : AliasKind) (value : String)
    (t : List RepositoryAlias) : List RepositoryAlias → Uuid → Prop
  /-- It was live and its own already. -/
  | live {a : RepositoryAlias} (ha : a ∈ t) (hlive : a.holds kind value = true)
      (hown : a.repositoryId = r) : Claimed fresh now r kind value t t a.aliasId
  /-- It was nobody's, and the repository returned to it. -/
  | returned {a : RepositoryAlias} (hfree : ∀ b ∈ t, b.holds kind value = false) (ha : a ∈ t)
      (hdormant : a.dormant r kind value = true) :
      Claimed fresh now r kind value t
        (updateWhere (·.dormant r kind value) RepositoryAlias.reactivated t) a.aliasId
  /-- It was nobody's, and new to the repository. -/
  | inserted (hfree : ∀ b ∈ t, b.holds kind value = false)
      (hnew : ∀ b ∈ t, b.dormant r kind value = false) :
      Claimed fresh now r kind value t (t ++ [⟨fresh, r, kind, value, .active, none, now⟩]) fresh

theorem activeAliasHolder_eq_none {kind : AliasKind} {value : String} {db : Database} :
    activeAliasHolder kind value db = none ↔
      ∀ b ∈ db.repositoryAliases, b.holds kind value = false := by
  simp [activeAliasHolder]

theorem activeAliasHolder_eq_some {kind : AliasKind} {value : String} {db : Database}
    {id holder : Uuid} (h : activeAliasHolder kind value db = some (id, holder)) :
    ∃ a ∈ db.repositoryAliases, a.holds kind value = true ∧ a.aliasId = id ∧
      a.repositoryId = holder := by
  obtain ⟨a, hfind, heq⟩ := Option.map_eq_some_iff.mp h
  obtain ⟨hid, hholder⟩ := Prod.mk.inj heq
  exact ⟨a, List.mem_of_find?_eq_some hfind, List.find?_some hfind, hid, hholder⟩

/-- The live holder of a value, by its row. -/
theorem activeAliasHolder_of_holds {kind : AliasKind} {value : String} {db : Database}
    (hkeys : Keys db) {a : RepositoryAlias} (ha : a ∈ db.repositoryAliases)
    (hlive : a.holds kind value = true) :
    activeAliasHolder kind value db = some (a.aliasId, a.repositoryId) := by
  cases hholder : activeAliasHolder kind value db with
  | none =>
    rw [activeAliasHolder_eq_none] at hholder
    rw [hholder a ha] at hlive
    cases hlive
  | some p =>
    obtain ⟨b, hb, hlive', hid, hrepo⟩ := activeAliasHolder_eq_some hholder
    rw [eq_of_holds hkeys ha hb hlive hlive', hid, hrepo]

section claims

variable {fresh : Uuid} {now : Time} {r id : Uuid} {kind : AliasKind} {value : String}
  {c c' : Catalog}

theorem reactivateAliasInTx_spec
    (hfree : ∀ b ∈ c.tables.repositoryAliases, b.holds kind value = false)
    (h : reactivateAliasInTx fresh now r kind value c = .ok (id, c')) :
    Claimed fresh now r kind value c.tables.repositoryAliases c'.tables.repositoryAliases id := by
  simp only [reactivateAliasInTx, Tx.bind_eq_ok, select_eq_ok, write_eq_ok] at h
  obtain ⟨reactivated, _, ⟨hfind, rfl⟩, -, c₁, h₁, h⟩ := h
  have haliases : c₁.tables.repositoryAliases =
      updateWhere (·.dormant r kind value) RepositoryAlias.reactivated c.tables.repositoryAliases := by
    rw [h₁]
    rfl
  cases reactivated with
  | some a =>
    obtain ⟨rfl, rfl⟩ := Tx.pure_eq_ok.mp h
    rw [haliases]
    exact .returned hfree (List.mem_of_find?_eq_some hfind)
      (List.find?_some hfind)
  | none =>
    simp only [Tx.bind_eq_ok, write_eq_ok, Tx.pure_eq_ok] at h
    obtain ⟨-, c₂, h₂, rfl, rfl⟩ := h
    have hnew : ∀ b ∈ c.tables.repositoryAliases, b.dormant r kind value = false := by
      intro b hb
      exact Bool.eq_false_iff.mpr (List.find?_eq_none.mp hfind b hb)
    -- The update met no row.
    have hsame : c₁.tables.repositoryAliases = c.tables.repositoryAliases := by
      rw [haliases, updateWhere_of_none hnew]
    have hinserted : c₂.tables.repositoryAliases =
        c.tables.repositoryAliases ++ [⟨fresh, r, kind, value, .active, none, now⟩] := by
      rw [h₂, ← hsame]
      rfl
    rw [hinserted]
    exact .inserted hfree hnew

/-- **The claim of a value.** -/
theorem observedAliasInTx_spec (h : observedAliasInTx fresh now r kind value c = .ok (id, c')) :
    Claimed fresh now r kind value c.tables.repositoryAliases c'.tables.repositoryAliases id := by
  simp only [observedAliasInTx, Tx.bind_eq_ok, select_eq_ok] at h
  obtain ⟨holder, _, ⟨hholder, rfl⟩, h⟩ := h
  cases holder with
  | none =>
    rw [activeAliasHolder_eq_none] at hholder
    exact reactivateAliasInTx_spec hholder h
  | some p =>
    obtain ⟨a, ha, hlive, hid, hrepo⟩ := activeAliasHolder_eq_some hholder
    simp only at h
    split at h
    · exact (abort_eq_ok.mp h).elim
    · next hown =>
      obtain ⟨rfl, rfl⟩ := Tx.pure_eq_ok.mp h
      rw [← hid]
      exact .live ha hlive (hrepo.trans (not_not.mp hown))

theorem recordAlias_spec (h : recordAlias fresh now r kind value c = .ok ((), c')) :
    ∃ id, Claimed fresh now r kind value c.tables.repositoryAliases c'.tables.repositoryAliases id := by
  simp only [recordAlias, Tx.bind_eq_ok, select_eq_ok] at h
  obtain ⟨holder, _, ⟨hholder, rfl⟩, h⟩ := h
  cases holder with
  | none =>
    rw [activeAliasHolder_eq_none] at hholder
    obtain ⟨id, c₁, h₁, h₂⟩ := Tx.bind_eq_ok.mp h
    obtain ⟨-, rfl⟩ := Tx.pure_eq_ok.mp h₂
    exact ⟨id, reactivateAliasInTx_spec hholder h₁⟩
  | some p =>
    obtain ⟨a, ha, hlive, -, hrepo⟩ := activeAliasHolder_eq_some hholder
    simp only at h
    split at h
    · exact (abort_eq_ok.mp h).elim
    · next hown =>
      obtain ⟨-, rfl⟩ := Tx.pure_eq_ok.mp h
      exact ⟨_, .live ha hlive (hrepo.trans (not_not.mp hown))⟩

/-- A claim leaves the value live with the repository, under the answered alias. -/
theorem Claimed.row {t t' : List RepositoryAlias} (h : Claimed fresh now r kind value t t' id) :
    ∃ a ∈ t', a.holds kind value = true ∧ a.repositoryId = r ∧ a.aliasId = id := by
  cases h with
  | @live a ha hlive hown => exact ⟨a, ha, hlive, hown, rfl⟩
  | @returned a hfree ha hdormant =>
    obtain ⟨hname, -⟩ := RepositoryAlias.dormant_iff.mp hdormant
    obtain ⟨hrepo, hkind, hvalue⟩ := by simpa [RepositoryAlias.name] using hname
    exact ⟨a.reactivated, mem_updateWhere.mpr ⟨a, ha, if_pos hdormant⟩,
      RepositoryAlias.holds_iff.mpr ⟨hkind, hvalue, rfl⟩, hrepo, rfl⟩
  | inserted hfree hnew =>
    exact ⟨_, List.mem_append_right _ List.mem_cons_self,
      RepositoryAlias.holds_iff.mpr ⟨rfl, rfl, rfl⟩, rfl, rfl⟩

end claims

/-! ### Observations -/

/-- The table after the superseding of a value, when one is given. -/
def supersedeIn (kind : AliasKind) (old : Option String) (id : Uuid) (t : List RepositoryAlias) :
    List RepositoryAlias :=
  old.elim t fun value => updateWhere (·.holds kind value) (·.supersededBy id) t

/-- A catalogued repository has a row, and no other row goes. -/
theorem upsertRepositoryInTx_row {fresh : Uuid} {pid : ℤ} {c c' : Catalog} {r : Uuid}
    (h : upsertRepositoryInTx fresh pid c = .ok (r, c')) :
    (∃ q ∈ c'.tables.repositories, q.providerRepositoryId = pid ∧ q.repositoryId = r) ∧
      c.tables.repositories ⊆ c'.tables.repositories := by
  simp only [upsertRepositoryInTx, Tx.bind_eq_ok, write_eq_ok, fetchOne_eq_ok] at h
  obtain ⟨-, c₁, h₁, hread, rfl⟩ := h
  obtain ⟨q, hfind, hid⟩ := Option.map_eq_some_iff.mp hread
  have hpid := List.find?_some hfind
  refine ⟨⟨q, List.mem_of_find?_eq_some hfind, of_decide_eq_true hpid, hid⟩, ?_⟩
  intro p hp
  rw [h₁]
  show p ∈ insertUnless _ _ c.tables.repositories
  unfold insertUnless
  split
  · exact hp
  · exact List.mem_append_left _ hp

/-- What `apply_alias_observation` did, for the repository `r` it answered. -/
structure AliasObservation (fresh : Uuid) (now : Time) (pid : ℤ) (kind : AliasKind)
    (old : Option String) (value : String) (db db' : Database) (r : Uuid) : Prop where
  repository : ∃ q ∈ db'.repositories, q.providerRepositoryId = pid ∧ q.repositoryId = r
  repositories : db.repositories ⊆ db'.repositories
  aliases : ∃ (claimed : Catalog) (id : Uuid),
    Claimed fresh now r kind value db.repositoryAliases claimed.tables.repositoryAliases id ∧
      db'.repositoryAliases =
        supersedeIn kind (old.filter (· ≠ value)) id claimed.tables.repositoryAliases

/-- The observed value is live with the repository: the superseded value is another one. -/
theorem AliasObservation.row {fresh : Uuid} {now : Time} {pid : ℤ} {kind : AliasKind}
    {old : Option String} {value : String} {db db' : Database} {r : Uuid}
    (h : AliasObservation fresh now pid kind old value db db' r) :
    ∃ a ∈ db'.repositoryAliases, a.holds kind value = true ∧ a.repositoryId = r := by
  obtain ⟨claimed, id, hclaimed, haliases⟩ := h.aliases
  obtain ⟨a, ha, hlive, hrepo, -⟩ := hclaimed.row
  refine ⟨a, ?_, hlive, hrepo⟩
  rw [haliases]
  cases hold : old.filter (· ≠ value) with
  | none => exact ha
  | some oldValue =>
    have hne : oldValue ≠ value := of_decide_eq_true (Option.filter_eq_some_iff.mp hold).2
    refine mem_updateWhere.mpr ⟨a, ha, if_neg fun hholds => ?_⟩
    obtain ⟨-, hvalue, -⟩ := RepositoryAlias.holds_iff.mp hlive
    exact hne ((RepositoryAlias.holds_iff.mp hholds).2.1.symm.trans hvalue)

/-- **The effect of an alias observation.** -/
theorem applyAliasObservation_spec {ids : ℕ → Uuid} {now : Time} {pid : ℤ} {kind : AliasKind}
    {old : Option String} {value : String} {c c' : Catalog} {r : Uuid}
    (h : applyAliasObservation ids now pid kind old value c = .ok (r, c')) :
    AliasObservation (ids 1) now pid kind old value c.tables c'.tables r := by
  obtain ⟨r', c₁, h₁, h⟩ := Tx.bind_eq_ok.mp h
  obtain ⟨id, c₂, h₂, h⟩ := Tx.bind_eq_ok.mp h
  have hsupersede : c'.tables.repositoryAliases =
        supersedeIn kind (old.filter (· ≠ value)) id c₂.tables.repositoryAliases ∧
      c'.tables.repositories = c₂.tables.repositories ∧ r' = r := by
    cases hold : old.filter (· ≠ value) with
    | none =>
      rw [hold] at h
      replace h : (pure r' : Tx Uuid) c₂ = .ok (r, c') := h
      obtain ⟨rfl, rfl⟩ := Tx.pure_eq_ok.mp h
      exact ⟨rfl, rfl, rfl⟩
    | some oldValue =>
      rw [hold] at h
      replace h : (supersedeAliasInTx kind oldValue id >>= fun _ => pure r') c₂ = .ok (r, c') := h
      obtain ⟨⟨⟩, c₃, h₃, h⟩ := Tx.bind_eq_ok.mp h
      obtain ⟨rfl, rfl⟩ := Tx.pure_eq_ok.mp h
      rw [write_eq_ok.mp h₃]
      exact ⟨rfl, rfl, rfl⟩
  obtain ⟨haliases, hrepositories, rfl⟩ := hsupersede
  have hclaimed := observedAliasInTx_spec h₂
  have halias₁ : c₁.tables.repositoryAliases = c.tables.repositoryAliases :=
    (touches_upsertRepositoryInTx _ _).rows_eq h₁ (t := .repositoryAliases) (by decide)
  have hrepo₂ : c₂.tables.repositories = c₁.tables.repositories :=
    (touches_observedAliasInTx _ _ _ _ _).rows_eq h₂ (t := .repositories) (by decide)
  obtain ⟨hrow, hsubset⟩ := upsertRepositoryInTx_row h₁
  rw [halias₁] at hclaimed
  refine ⟨?_, ?_, c₂, id, hclaimed, haliases⟩
  · rw [hrepositories, hrepo₂]
    exact hrow
  · rw [hrepositories, hrepo₂]
    exact hsubset

/-! ### Rename evidence -/

/-- One call of `apply_alias_observation`. -/
structure AliasEvidence where
  ids : ℕ → Uuid
  now : Time
  providerRepositoryId : ℤ
  kind : AliasKind
  superseded : Option String
  observed : String

namespace AliasEvidence

/-- The call, with the repository it answers. -/
def run (e : AliasEvidence) : Tx Uuid :=
  applyAliasObservation e.ids e.now e.providerRepositoryId e.kind e.superseded e.observed

def commit (e : AliasEvidence) (c : Catalog) : Catalog := e.run.commit c

/-- A row of the observed value that is the observed repository's own. -/
def owns (e : AliasEvidence) (db : Database) (a : RepositoryAlias) : Bool :=
  db.repositories.any fun q => decide (q.providerRepositoryId = e.providerRepositoryId) &&
    decide (q.repositoryId = a.repositoryId)

end AliasEvidence

/-- The rows that evidence calls the repository's own are those of the repository it finds. -/
theorem AliasEvidence.owns_iff {e : AliasEvidence} {c c' : Catalog} {r fresh : Uuid}
    (h : AliasObservation fresh e.now e.providerRepositoryId e.kind e.superseded e.observed c.tables
      c'.tables r) {a : RepositoryAlias} (ha : a ∈ c.tables.repositoryAliases) :
    e.owns c.tables a = true ↔ a.repositoryId = r := by
  obtain ⟨q, hq, hpid, hid⟩ := h.repository
  simp only [owns, List.any_eq_true, Bool.and_eq_true, decide_eq_true_eq]
  constructor
  · rintro ⟨p, hp, hppid, hpid'⟩
    have hsame : p = q := c'.valid.keys.repositories_provider.eq_of_mem (h.repositories hp) hq
      (hppid.trans hpid.symm)
    rw [← hpid', hsame, hid]
  · intro hrepo
    obtain ⟨p, hp, hpid'⟩ := List.mem_map.mp
      (c.valid.foreignKeys.aliases_repository a ha a.repositoryId rfl)
    have hsame : p = q := c'.valid.keys.repositories.eq_of_mem (h.repositories hp) hq
      (by rw [hpid', hrepo, hid])
    exact ⟨p, hp, hsame ▸ hpid, hpid'⟩

/-! ### Legacy imports -/

/-- What `record_legacy_alias` did: it looks for a live row of the value and for no other. -/
inductive LegacyClaimed (fresh : Uuid) (now : Time) (r : Uuid) (value : String)
    (t : List RepositoryAlias) : List RepositoryAlias → Prop
  | live {a : RepositoryAlias} (ha : a ∈ t) (hlive : a.holds .ownerName value = true)
      (hown : a.repositoryId = r) : LegacyClaimed fresh now r value t t
  | inserted (hfree : ∀ b ∈ t, b.holds .ownerName value = false) :
      LegacyClaimed fresh now r value t
        (t ++ [⟨fresh, r, .ownerName, value, .active, none, now⟩])

theorem recordLegacyAlias_spec {fresh : Uuid} {now : Time} {r : Uuid} {owner name : String}
    {c c' : Catalog} (h : recordLegacyAlias fresh now r owner name c = .ok ((), c')) :
    LegacyClaimed fresh now r (owner ++ "/" ++ name) c.tables.repositoryAliases
      c'.tables.repositoryAliases := by
  unfold recordLegacyAlias at h
  split at h
  · exact (abort_eq_ok.mp h).elim
  · simp only [Tx.bind_eq_ok, select_eq_ok] at h
    obtain ⟨holder, _, ⟨hholder, rfl⟩, h⟩ := h
    cases holder with
    | none =>
      rw [activeAliasHolder_eq_none] at hholder
      rw [write_eq_ok.mp h]
      exact .inserted hholder
    | some p =>
      obtain ⟨a, ha, hlive, -, hrepo⟩ := activeAliasHolder_eq_some hholder
      simp only at h
      split at h
      · exact (abort_eq_ok.mp h).elim
      · next hown =>
        obtain ⟨-, rfl⟩ := Tx.pure_eq_ok.mp h
        exact .live ha hlive (hrepo.trans (not_not.mp hown))

/-- What the import of one record did to repositories and aliases. -/
structure LegacyAliased (fresh : Uuid) (now : Time) (record : LegacyRepository)
    (db db' : Database) (r : Uuid) : Prop where
  repository : ∃ q ∈ db'.repositories,
    q.providerRepositoryId = record.providerRepositoryId ∧ q.repositoryId = r
  repositories : db.repositories ⊆ db'.repositories
  records : db.legacyImportRepositoryRecords ⊆ db'.legacyImportRepositoryRecords
  aliases : LegacyClaimed fresh now r (record.owner ++ "/" ++ record.name) db.repositoryAliases
    db'.repositoryAliases

theorem importNewLegacyRepository_aliased {ids : ℕ → Uuid} {now : Time} {source : String}
    {record : LegacyRepository} {account : Uuid} {c c' : Catalog} {counts : ImportCounts}
    (h : importNewLegacyRepository ids now source record account c = .ok (counts, c')) :
    ∃ r, LegacyAliased (ids 1) now record c.tables c'.tables r := by
  obtain ⟨r, c₁, h₁, h⟩ := Tx.bind_eq_ok.mp h
  obtain ⟨⟨⟩, c₂, h₂, h⟩ := Tx.bind_eq_ok.mp h
  obtain ⟨⟨⟩, c₃, h₃, h⟩ := Tx.bind_eq_ok.mp h
  obtain ⟨listClaims, c₄, h₄, h⟩ := Tx.bind_eq_ok.mp h
  obtain ⟨⟨⟩, c₅, h₅, h⟩ := Tx.bind_eq_ok.mp h
  obtain ⟨-, rfl⟩ := Tx.pure_eq_ok.mp h
  have hupserted := touches_upsertRepositoryInTx _ _ _ _ _ h₁
  have hrecorded := touches_recordLegacyAlias _ _ _ _ _ _ _ _ h₂
  have hstarred := Touches.onlyIf (touches_importLegacyStar _ _ _ _) _ _ _ h₃
  have hclaims := touches_importLegacyListClaims _ _ _ _ _ _ _ _ _ h₄
  have hwritten : c₅.tables = c₄.tables.put .legacyImportRepositoryRecords _ := write_eq_ok.mp h₅
  -- Past the alias, only stars, claims and the record itself are written.
  have hkept : ∀ t ∈ [Table.repositories, .repositoryAliases],
      c₅.tables.rows t = c₂.tables.rows t := by
    intro t ht
    have hne : t ∉ [Table.starObservations, .currentStarState] ∧ t ∉ [Table.legacyListClaims] ∧
        t ≠ .legacyImportRepositoryRecords := by
      revert t
      decide
    rw [hwritten, Database.rows_put_of_ne _ _ hne.2.2, hclaims t hne.2.1, hstarred t hne.1]
  have hrepositories : c₅.tables.repositories = c₁.tables.repositories :=
    (hkept .repositories (by decide)).trans (hrecorded .repositories (by decide))
  have haliases : c₅.tables.repositoryAliases = c₂.tables.repositoryAliases :=
    hkept .repositoryAliases (by decide)
  have hrecords : c₄.tables.legacyImportRepositoryRecords =
      c.tables.legacyImportRepositoryRecords :=
    (hclaims .legacyImportRepositoryRecords (by decide)).trans
      ((hstarred .legacyImportRepositoryRecords (by decide)).trans
        ((hrecorded .legacyImportRepositoryRecords (by decide)).trans
          (hupserted .legacyImportRepositoryRecords (by decide))))
  obtain ⟨hrow, hsubset⟩ := upsertRepositoryInTx_row h₁
  have hclaimed := recordLegacyAlias_spec h₂
  rw [← haliases, show c₁.tables.repositoryAliases = c.tables.repositoryAliases from
    hupserted .repositoryAliases (by decide)] at hclaimed
  refine ⟨r, ?_, ?_, ?_, hclaimed⟩
  · rw [hrepositories]
    exact hrow
  · rw [hrepositories]
    exact hsubset
  · intro q hq
    rw [hwritten]
    exact List.mem_append_left _ (hrecords ▸ hq)

/-- **The rule of an import over identities.**  A relation between the repositories and aliases of two
databases that each imported record keeps is kept by the whole import. -/
theorem relates_import_aliases {R : Database → Database → Prop} [Std.Refl R] [IsTrans Database R]
    (hagree : ∀ db db' : Database, db'.repositories = db.repositories →
      db'.repositoryAliases = db.repositoryAliases →
      db'.legacyImportRepositoryRecords = db.legacyImportRepositoryRecords → R db db')
    {accountIds : ℤ → Uuid} {ids : ℕ → ℕ → Uuid} {now : Time} {request : LegacyImportRequest}
    {importRunId : Uuid}
    (hnew : ∀ record ∈ request.snapshot.repositories, ∀ (c c' : Catalog) fresh r,
      alreadyImported request.sourceId record c.tables = false →
      LegacyAliased fresh now record c.tables c'.tables r → R c.tables c'.tables) :
    Tx.Relates R (importLegacyTransaction accountIds ids now request importRunId) := by
  have hframe : ∀ {ts : List Table} {α : Type} {x : Tx α}, Touches ts x → .repositories ∉ ts →
      .repositoryAliases ∉ ts → .legacyImportRepositoryRecords ∉ ts → Tx.Relates R x := by
    intro ts α x hx hrepositories haliases hrecords c a c' h
    exact hagree _ _ (hx.rows_eq h hrepositories) (hx.rows_eq h haliases) (hx.rows_eq h hrecords)
  refine relates_importLegacyTransaction _ _ _ _ _ ?_ ?_ ?_
  · exact fun fresh owner i =>
      hframe (touches_createLegacyAccount fresh owner i) (by decide) (by decide) (by decide)
  · exact fun x hx => hframe hx (by decide) (by decide) (by decide)
  · intro p hp account c c' counts halready h
    obtain ⟨r, haliased⟩ := importNewLegacyRepository_aliased h
    exact hnew p.1 (List.fst_mem_of_mem_zipIdx hp) c c' _ r halready haliased

/-! ### Operations -/

/-- What an operation did to the aliases. -/
inductive AliasEffect (c c' : Catalog) : Operation → Prop
  | kept {op : Operation} (h : c'.tables.repositoryAliases = c.tables.repositoryAliases) :
      AliasEffect c c' op
  | recorded {fresh : Uuid} {now : Time} {r : Uuid} {kind : AliasKind} {value : String} {id : Uuid}
      (hrepositories : c'.tables.repositories = c.tables.repositories)
      (h : Claimed fresh now r kind value c.tables.repositoryAliases c'.tables.repositoryAliases id) :
      AliasEffect c c' (.recordAlias fresh now r kind value)
  | observed {ids : ℕ → Uuid} {now : Time} {pid : ℤ} {kind : AliasKind} {old : Option String}
      {value : String} {r : Uuid}
      (h : AliasObservation (ids 1) now pid kind old value c.tables c'.tables r) :
      AliasEffect c c' (.applyAliasObservation ids now pid kind old value)
  | imported {accountIds : ℤ → Uuid} {ids : ℕ → ℕ → Uuid} {now : Time}
      {request : LegacyImportRequest} {importRunId : Uuid} {answer : ℕ × ImportCounts}
      (h : importLegacyTransaction accountIds ids now request importRunId c = .ok (answer, c')) :
      AliasEffect c c' (.importLegacy accountIds ids now request importRunId)
  | erased {now : Time} {owner : String} {operation : AccountErasureOperation}
      (hrepositories : c'.tables.repositories = (erased now owner c.tables).repositories)
      (h : c'.tables.repositoryAliases = (erased now owner c.tables).repositoryAliases) :
      AliasEffect c c' (.eraseAccount now owner operation)

/-- **What an operation can do to the aliases.** -/
theorem Operation.aliasEffect (k : Contracts) (c : Catalog) (op : Operation) :
    AliasEffect c (op.commit k c) op := by
  have hother : op.leaves .repositoryAliases = true → AliasEffect c (op.commit k c) op :=
    fun hleaves => .kept (rows_commit k c op .repositoryAliases hleaves)
  cases op with
  | recordAlias fresh now r kind value =>
    rcases Tx.commit_cases (GithubCatalog.recordAlias fresh now r kind value) c with
      ⟨⟨⟩, hok⟩ | hsame
    · obtain ⟨id, hclaimed⟩ := recordAlias_spec hok
      exact .recorded ((touches_recordAlias _ _ _ _ _).rows_eq hok (t := .repositories) (by decide))
        hclaimed
    · exact .kept (congrArg (·.tables.repositoryAliases) hsame)
  | applyAliasObservation ids now pid kind old value =>
    rcases Tx.commit_cases (GithubCatalog.applyAliasObservation ids now pid kind old value) c with
      ⟨r, hok⟩ | hsame
    · exact .observed (applyAliasObservation_spec hok)
    · exact .kept (congrArg (·.tables.repositoryAliases) hsame)
  | importLegacy accountIds ids now request importRunId =>
    rcases Tx.commit_cases (importLegacyTransaction accountIds ids now request importRunId) c with
      ⟨answer, hok⟩ | hsame
    · exact .imported hok
    · exact .kept (congrArg (·.tables.repositoryAliases) hsame)
  | eraseAccount now owner operation =>
    rcases Tx.commit_cases (eraseAccountInTx now owner operation) c with ⟨⟨⟩, hok⟩ | hsame
    · obtain ⟨c₁, h₁, hagree⟩ := eraseAccountInTx_eq_ok hok
      refine .erased ((hagree .repositories (by decide)).trans ?_)
        ((hagree .repositoryAliases (by decide)).trans ?_)
      · rw [eraseOwnerState_eq h₁]
        rfl
      · rw [eraseOwnerState_eq h₁]
        rfl
    · exact .kept (congrArg (·.tables.repositoryAliases) hsame)
  | _ => exact hother rfl

end GithubCatalog
