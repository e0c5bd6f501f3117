import GithubCatalog.AliasTable

/-!
# One row per repository, kind and value

`reactivate_alias_in_tx` brings back the repository's own row for a value and inserts one only where
there is none, so identities do not repeat the names of a repository.  `record_legacy_alias` looks for
a live row and no other: imported over redirect history, it adds a second row of the same name, and
the next return to that name would make both live, which the unique index refuses.

* `NamesUnique` - at most one alias row per (repository, kind, value);
* `Observable` - every value that no other repository holds can be observed, and is then live once;
* `Operation.reinserts` - an import meets a name that its repository has as history only;
* `names_unique_throughout` - histories without such an import.
-/

namespace GithubCatalog

open Relational Transact Runs

/-- At most one alias row per repository, kind and value. -/
def NamesUnique (db : Database) : Prop := UniqueOn RepositoryAlias.name db.repositoryAliases

instance (db : Database) : Decidable (NamesUnique db) :=
  inferInstanceAs (Decidable (UniqueOn _ _))

/-- The repository has exactly one row of the name, and it is live. -/
def LiveOnce (r : Uuid) (kind : AliasKind) (value : String) (db : Database) : Prop :=
  ∃ a, (db.repositoryAliases.filter fun b => decide (b.name = (r, kind, value))) = [a] ∧
    a.status = .active

/-! ### Names along the operations -/

section names

variable {c c' : Catalog} {fresh : Uuid} {now : Time} {r id : Uuid} {kind : AliasKind}
  {value : String}

theorem names_updateWhere {p : RepositoryAlias → Bool} {f : RepositoryAlias → RepositoryAlias}
    (hf : ∀ a, (f a).name = a.name) {t : List RepositoryAlias}
    (h : UniqueOn RepositoryAlias.name t) : UniqueOn RepositoryAlias.name (updateWhere p f t) := by
  rw [UniqueOn, map_updateWhere hf]
  exact h

/-- A value that is neither live nor history of the repository is a new name. -/
theorem name_not_mem {t : List RepositoryAlias} (hfree : ∀ b ∈ t, b.holds kind value = false)
    (hnew : ∀ b ∈ t, b.dormant r kind value = false) :
    (r, kind, value) ∉ t.map RepositoryAlias.name := by
  intro hmem
  obtain ⟨b, hb, hname⟩ := List.mem_map.mp hmem
  by_cases hactive : b.status = .active
  · obtain ⟨-, hkind, hvalue⟩ := by simpa [RepositoryAlias.name] using hname
    have hholds := RepositoryAlias.holds_iff.mpr ⟨hkind, hvalue, hactive⟩
    rw [hfree b hb] at hholds
    cases hholds
  · have hdormant := RepositoryAlias.dormant_iff.mpr ⟨hname, hactive⟩
    rw [hnew b hb] at hdormant
    cases hdormant

theorem Claimed.namesUnique {t t' : List RepositoryAlias}
    (h : Claimed fresh now r kind value t t' id) (hnames : UniqueOn RepositoryAlias.name t) :
    UniqueOn RepositoryAlias.name t' := by
  cases h with
  | live ha hlive hown => exact hnames
  | returned hfree ha hdormant =>
    exact names_updateWhere (fun _ => RepositoryAlias.reactivated_name) hnames
  | inserted hfree hnew => exact hnames.append_singleton (name_not_mem hfree hnew)

theorem names_supersedeIn {old : Option String} {t : List RepositoryAlias}
    (h : UniqueOn RepositoryAlias.name t) :
    UniqueOn RepositoryAlias.name (supersedeIn kind old id t) := by
  cases old with
  | none => exact h
  | some oldValue => exact names_updateWhere (fun _ => RepositoryAlias.supersededBy_name) h

theorem AliasObservation.namesUnique {pid : ℤ} {old : Option String} {db db' : Database}
    (h : AliasObservation fresh now pid kind old value db db' r) (hnames : NamesUnique db) :
    NamesUnique db' := by
  obtain ⟨claimed, id, hclaimed, haliases⟩ := h.aliases
  rw [NamesUnique, haliases]
  exact names_supersedeIn (hclaimed.namesUnique hnames)

theorem namesUnique_erased {owner : String} (hnames : NamesUnique c.tables)
    (haliases : c'.tables.repositoryAliases = (erased now owner c.tables).repositoryAliases) :
    NamesUnique c'.tables := by
  rw [NamesUnique, haliases, erased_aliases c.valid.foreignKeys.aliases_repository, UniqueOn,
    List.map_map]
  have hreleased : (RepositoryAlias.name ∘
      fun a => a.released c.tables (erased now owner c.tables)) = RepositoryAlias.name := by
    funext a
    simp only [Function.comp, RepositoryAlias.released]
    split
    · rfl
    · rfl
  rw [hreleased]
  exact hnames.sublist List.filter_sublist

end names

/-! ### Imports -/

/-- A record of an import whose name is live nowhere and history of its repository. -/
def LegacyRepository.reinserts (db : Database) (record : LegacyRepository) : Bool :=
  (activeAliasHolder .ownerName (record.owner ++ "/" ++ record.name) db).isNone &&
    db.repositories.any fun q =>
      decide (q.providerRepositoryId = record.providerRepositoryId) &&
        db.repositoryAliases.any (·.dormant q.repositoryId .ownerName (record.owner ++ "/" ++ record.name))

/-- An import with a record, not imported before, whose name is history of its repository. -/
def Operation.reinserts (db : Database) : Operation → Bool
  | .importLegacy _ _ _ request _ => request.snapshot.repositories.any fun record =>
      !alreadyImported request.sourceId record db && record.reinserts db
  | _ => false

/-- The aliases while an import that started at `db₀` runs: it adds live rows only. -/
structure ImportGrowth (db₀ db : Database) : Prop where
  repositories : db₀.repositories ⊆ db.repositories
  records : db₀.legacyImportRepositoryRecords ⊆ db.legacyImportRepositoryRecords
  aliases : db₀.repositoryAliases ⊆ db.repositoryAliases
  history : ∀ a ∈ db.repositoryAliases, a.status ≠ .active → a ∈ db₀.repositoryAliases

theorem ImportGrowth.not_alreadyImported {db₀ db : Database} (h : ImportGrowth db₀ db)
    {source : String} {record : LegacyRepository}
    (hnot : alreadyImported source record db = false) :
    alreadyImported source record db₀ = false := by
  rw [alreadyImported, List.any_eq_false] at hnot ⊢
  exact fun q hq => hnot q (h.records hq)

/-- What is history for an imported record was history before the import. -/
theorem ImportGrowth.not_dormant {c₀ c c' : Catalog} (h : ImportGrowth c₀.tables c.tables)
    {record : LegacyRepository} {fresh : Uuid} {now : Time} {r : Uuid}
    (haliased : LegacyAliased fresh now record c.tables c'.tables r)
    (hfree : ∀ b ∈ c.tables.repositoryAliases,
      b.holds .ownerName (record.owner ++ "/" ++ record.name) = false)
    (hguard : record.reinserts c₀.tables = false) :
    ∀ b ∈ c.tables.repositoryAliases,
      b.dormant r .ownerName (record.owner ++ "/" ++ record.name) = false := by
  intro b hb
  rw [Bool.eq_false_iff]
  intro hdormant
  obtain ⟨hname, hstatus⟩ := RepositoryAlias.dormant_iff.mp hdormant
  have hrepo : b.repositoryId = r := congrArg Prod.fst hname
  have hb₀ : b ∈ c₀.tables.repositoryAliases := h.history b hb hstatus
  have hnone : activeAliasHolder .ownerName (record.owner ++ "/" ++ record.name) c₀.tables = none :=
    activeAliasHolder_eq_none.mpr fun a ha => hfree a (h.aliases ha)
  -- The repository of the row is the one the record names.
  obtain ⟨q, hq, hpid, hid⟩ := haliased.repository
  obtain ⟨q₀, hq₀, hid₀⟩ := List.mem_map.mp
    (c₀.valid.foreignKeys.aliases_repository b hb₀ b.repositoryId rfl)
  have hsame : q₀ = q := c'.valid.keys.repositories.eq_of_mem
    (haliased.repositories (h.repositories hq₀)) hq (by rw [hid₀, hrepo, hid])
  subst hsame
  have hreinserts : record.reinserts c₀.tables = true := by
    rw [LegacyRepository.reinserts, hnone]
    refine List.any_eq_true.mpr ⟨q₀, hq₀, ?_⟩
    rw [decide_eq_true hpid, Bool.true_and, List.any_eq_true]
    exact ⟨b, hb₀, by rw [hid]; exact hdormant⟩
  rw [hguard] at hreinserts
  cases hreinserts

theorem namesUnique_importLegacy {accountIds : ℤ → Uuid} {ids : ℕ → ℕ → Uuid} {now : Time}
    {request : LegacyImportRequest} {importRunId : Uuid} {answer : ℕ × ImportCounts}
    {c₀ c' : Catalog} (hnames : NamesUnique c₀.tables)
    (hguard : Operation.reinserts c₀.tables (.importLegacy accountIds ids now request importRunId) =
      false)
    (h : importLegacyTransaction accountIds ids now request importRunId c₀ = .ok (answer, c')) :
    NamesUnique c'.tables := by
  have hkeeps : Tx.Relates (Tx.Keeps fun db => ImportGrowth c₀.tables db ∧ NamesUnique db)
      (importLegacyTransaction accountIds ids now request importRunId) := by
    refine relates_import_aliases ?_ ?_
    · intro db db' hrepositories haliases hrecords hdb
      refine ⟨⟨?_, ?_, ?_, ?_⟩, ?_⟩
      · rw [hrepositories]
        exact hdb.1.repositories
      · rw [hrecords]
        exact hdb.1.records
      · rw [haliases]
        exact hdb.1.aliases
      · rw [haliases]
        exact hdb.1.history
      · rw [NamesUnique, haliases]
        exact hdb.2
    · intro record hrecord c c₂ fresh r hnot haliased hdb
      obtain ⟨hgrowth, hunique⟩ := hdb
      have hrecordGuard : record.reinserts c₀.tables = false := by
        have hall := List.any_eq_false.mp hguard record hrecord
        rw [hgrowth.not_alreadyImported hnot, Bool.not_false, Bool.true_and] at hall
        exact Bool.eq_false_iff.mpr hall
      have hgrown : c₀.tables.repositories ⊆ c₂.tables.repositories :=
        fun q hq => haliased.repositories (hgrowth.repositories hq)
      have hrecords : c₀.tables.legacyImportRepositoryRecords ⊆
          c₂.tables.legacyImportRepositoryRecords :=
        fun q hq => haliased.records (hgrowth.records hq)
      have hclaimed := haliased.aliases
      generalize ht : c₂.tables.repositoryAliases = t at hclaimed
      cases hclaimed with
      | live ha hlive hown =>
        exact ⟨⟨hgrown, hrecords, ht ▸ hgrowth.aliases, ht ▸ hgrowth.history⟩, by
          rw [NamesUnique, ht]; exact hunique⟩
      | inserted hfree =>
        have hnew := hgrowth.not_dormant haliased hfree hrecordGuard
        refine ⟨⟨hgrown, hrecords, ?_, ?_⟩, ?_⟩
        · rw [ht]
          exact fun a ha => List.mem_append_left _ (hgrowth.aliases ha)
        · rw [ht]
          refine forall_append_singleton hgrowth.history ?_
          exact fun hstatus => absurd rfl hstatus
        · rw [NamesUnique, ht]
          exact UniqueOn.append_singleton hunique (name_not_mem hfree hnew)
  have hstart : ImportGrowth c₀.tables c₀.tables :=
    ⟨fun _ h => h, fun _ h => h, fun _ h => h, fun _ h _ => h⟩
  exact (hkeeps c₀ answer c' h ⟨hstart, hnames⟩).2

/-- **The step lemma of the names.** -/
theorem Operation.commit_namesUnique (k : Contracts) (c : Catalog) (op : Operation)
    (h : NamesUnique c.tables) (hguard : op.reinserts c.tables = false) :
    NamesUnique (op.commit k c).tables := by
  have heffect := op.aliasEffect k c
  generalize op.commit k c = c' at heffect ⊢
  cases heffect with
  | kept haliases =>
    rw [NamesUnique, haliases]
    exact h
  | recorded _ hclaimed => exact hclaimed.namesUnique h
  | observed hobserved => exact hobserved.namesUnique h
  | imported hok => exact namesUnique_importLegacy h hguard hok
  | erased _ haliases => exact namesUnique_erased h haliases

/-! ### Observing a free value -/

section observing

variable {c : Catalog} {fresh : Uuid} {now : Time} {r id : Uuid} {kind : AliasKind} {value : String}

/-- A new table of aliases is accepted when its own constraints hold. -/
theorem writeAliases_succeeds {f : Database → List RepositoryAlias}
    (hids : UniqueOn (·.aliasId) (f c.tables))
    (hlive : ∀ a ∈ f c.tables, ∀ b ∈ f c.tables, a.status = .active → b.status = .active →
      a.aliasKind = b.aliasKind → a.aliasValue = b.aliasValue → a = b)
    (hcheck : ∀ a ∈ f c.tables, a.check = true)
    (hrepository : ∀ a ∈ f c.tables, a.repositoryId ∈ c.tables.repositories.map (·.repositoryId))
    (hredirect : Refers RepositoryAlias.redirectTo (f c.tables) RepositoryAlias.aliasId
      (f c.tables)) : (write .repositoryAliases f).succeeds c = true := by
  have hvalid : Constraints (c.tables.put .repositoryAliases (f c.tables)) := by
    refine ⟨{ c.valid.keys with aliases := hids, aliases_live := ?_ },
      { c.valid.checks with aliases := hcheck },
      { c.valid.foreignKeys with aliases_repository := ?_, aliases_redirect := hredirect }⟩
    · refine List.Nodup.map_on ?_ ((List.Nodup.of_map _ hids).filter _)
      intro a ha b hb hkey
      obtain ⟨hmem, hactive⟩ := List.mem_filter.mp ha
      obtain ⟨hmem', hactive'⟩ := List.mem_filter.mp hb
      obtain ⟨hkind, hvalue⟩ := Prod.mk.inj hkey
      exact hlive a hmem b hmem' (of_decide_eq_true hactive) (of_decide_eq_true hactive') hkind hvalue
    · intro a ha q hq
      rw [← Option.mem_some_iff.mp hq]
      exact hrepository a ha
  rw [Tx.succeeds, write_of_valid hvalid]
  rfl

/-- Live rows of one value are one row. -/
theorem eq_of_active (c : Catalog) {a b : RepositoryAlias} (ha : a ∈ c.tables.repositoryAliases)
    (hb : b ∈ c.tables.repositoryAliases) (hactive : a.status = .active)
    (hactive' : b.status = .active) (hkind : a.aliasKind = b.aliasKind)
    (hvalue : a.aliasValue = b.aliasValue) : a = b :=
  eq_of_holds c.valid.keys ha hb (RepositoryAlias.holds_iff.mpr ⟨rfl, rfl, hactive⟩)
    (RepositoryAlias.holds_iff.mpr ⟨hkind.symm, hvalue.symm, hactive'⟩)

/-- The identifiers of an updated table are the old ones. -/
theorem aliasIds_updateWhere {p : RepositoryAlias → Bool} {f : RepositoryAlias → RepositoryAlias}
    (hf : ∀ a, (f a).aliasId = a.aliasId) (t : List RepositoryAlias) :
    (updateWhere p f t).map (·.aliasId) = t.map (·.aliasId) :=
  map_updateWhere hf t

theorem reactivate_succeeds (hnames : NamesUnique c.tables)
    (hfree : ∀ b ∈ c.tables.repositoryAliases, b.holds kind value = false) :
    (write .repositoryAliases fun db => updateWhere (·.dormant r kind value)
      RepositoryAlias.reactivated db.repositoryAliases).succeeds c = true := by
  have hids := aliasIds_updateWhere (p := (·.dormant r kind value))
    (fun _ => RepositoryAlias.reactivated_id) c.tables.repositoryAliases
  -- A live row after the update was live before, or is the one that came back.
  have hrow : ∀ a ∈ updateWhere (·.dormant r kind value) RepositoryAlias.reactivated
      c.tables.repositoryAliases, ∃ a₀ ∈ c.tables.repositoryAliases, a.name = a₀.name ∧
        ((a = a₀ ∧ a₀.dormant r kind value = false) ∨
          (a = a₀.reactivated ∧ a₀.dormant r kind value = true)) := by
    intro a ha
    obtain ⟨a₀, ha₀, rfl⟩ := mem_updateWhere.mp ha
    by_cases hdormant : a₀.dormant r kind value = true
    · rw [if_pos hdormant]
      exact ⟨a₀, ha₀, rfl, .inr ⟨rfl, hdormant⟩⟩
    · rw [if_neg hdormant]
      exact ⟨a₀, ha₀, rfl, .inl ⟨rfl, Bool.eq_false_iff.mpr hdormant⟩⟩
  have hclash : ∀ a₀ ∈ c.tables.repositoryAliases, a₀.status = .active →
      a₀.aliasKind = kind → a₀.aliasValue = value → False := by
    intro a₀ ha₀ hactive hkind hvalue
    have hholds := RepositoryAlias.holds_iff.mpr ⟨hkind, hvalue, hactive⟩
    rw [hfree a₀ ha₀] at hholds
    cases hholds
  have hnamed : ∀ a₀ : RepositoryAlias, a₀.dormant r kind value = true →
      a₀.name = (r, kind, value) ∧ a₀.aliasKind = kind ∧ a₀.aliasValue = value := by
    intro a₀ hdormant
    obtain ⟨hname, -⟩ := RepositoryAlias.dormant_iff.mp hdormant
    obtain ⟨-, hkind, hvalue⟩ := by simpa [RepositoryAlias.name] using hname
    exact ⟨hname, hkind, hvalue⟩
  refine writeAliases_succeeds ?_ ?_ ?_ ?_ ?_
  · rw [UniqueOn, hids]
    exact c.valid.keys.aliases
  · intro a ha b hb hactive hactive' hkind hvalue
    obtain ⟨a₀, ha₀, -, hcase⟩ := hrow a ha
    obtain ⟨b₀, hb₀, -, hcase'⟩ := hrow b hb
    rcases hcase with ⟨rfl, -⟩ | ⟨rfl, hdormant⟩
    · rcases hcase' with ⟨rfl, -⟩ | ⟨rfl, hdormant'⟩
      · exact eq_of_active c ha₀ hb₀ hactive hactive' hkind hvalue
      · obtain ⟨-, hkind', hvalue'⟩ := hnamed b₀ hdormant'
        exact (hclash a ha₀ hactive (hkind.trans hkind') (hvalue.trans hvalue')).elim
    · obtain ⟨hname, hkind₀, hvalue₀⟩ := hnamed a₀ hdormant
      rcases hcase' with ⟨rfl, -⟩ | ⟨rfl, hdormant'⟩
      · exact (hclash b hb₀ hactive' (hkind.symm.trans hkind₀) (hvalue.symm.trans hvalue₀)).elim
      · rw [hnames.eq_of_mem ha₀ hb₀ (hname.trans (hnamed b₀ hdormant').1.symm)]
  · intro a ha
    obtain ⟨a₀, ha₀, -, ⟨rfl, -⟩ | ⟨rfl, -⟩⟩ := hrow a ha
    · exact c.valid.checks.aliases a ha₀
    · rfl
  · intro a ha
    obtain ⟨a₀, ha₀, hname, -⟩ := hrow a ha
    rw [show a.repositoryId = a₀.repositoryId from congrArg Prod.fst hname]
    exact c.valid.foreignKeys.aliases_repository a₀ ha₀ _ rfl
  · intro a ha target htarget
    rw [hids]
    obtain ⟨a₀, ha₀, -, ⟨rfl, -⟩ | ⟨rfl, -⟩⟩ := hrow a ha
    · exact c.valid.foreignKeys.aliases_redirect a ha₀ target htarget
    · cases htarget

/-- A new live row of a free value is accepted. -/
theorem insertAlias_succeeds (hfree : ∀ b ∈ c.tables.repositoryAliases, b.holds kind value = false)
    (hfresh : fresh ∉ c.tables.repositoryAliases.map (·.aliasId))
    (hrepository : r ∈ c.tables.repositories.map (·.repositoryId)) :
    (write .repositoryAliases fun db => db.repositoryAliases ++
      [⟨fresh, r, kind, value, .active, none, now⟩]).succeeds c = true := by
  have hclash : ∀ a ∈ c.tables.repositoryAliases, a.status = .active → a.aliasKind = kind →
      a.aliasValue = value → False := by
    intro a ha hactive hkind hvalue
    have hholds := RepositoryAlias.holds_iff.mpr ⟨hkind, hvalue, hactive⟩
    rw [hfree a ha] at hholds
    cases hholds
  refine writeAliases_succeeds (c.valid.keys.aliases.append_singleton hfresh) ?_
    (forall_append_singleton c.valid.checks.aliases rfl)
    (forall_append_singleton (fun a ha => c.valid.foreignKeys.aliases_repository a ha _ rfl)
      hrepository) ?_
  · intro a ha b hb hactive hactive' hkind hvalue
    rw [List.mem_append, List.mem_singleton] at ha hb
    rcases ha with ha | rfl
    · rcases hb with hb | rfl
      · exact eq_of_active c ha hb hactive hactive' hkind hvalue
      · exact (hclash a ha hactive hkind hvalue).elim
    · rcases hb with hb | rfl
      · exact (hclash b hb hactive' hkind.symm hvalue.symm).elim
      · rfl
  · refine forall_append_singleton (fun a ha target htarget => ?_) (fun target htarget => by
      cases htarget)
    rw [List.map_append]
    exact List.mem_append_left _ (c.valid.foreignKeys.aliases_redirect a ha target htarget)

/-- The repository's return to a free value, or its first use of it, is accepted. -/
theorem reactivateAliasInTx_succeeds (hnames : NamesUnique c.tables)
    (hfree : ∀ b ∈ c.tables.repositoryAliases, b.holds kind value = false)
    (hfresh : fresh ∉ c.tables.repositoryAliases.map (·.aliasId))
    (hrepository : r ∈ c.tables.repositories.map (·.repositoryId)) :
    (reactivateAliasInTx fresh now r kind value).succeeds c = true := by
  refine Tx.bind_succeeds rfl fun found c₁ hfound => ?_
  obtain ⟨hfind, rfl⟩ := select_eq_ok.mp hfound
  refine Tx.bind_succeeds (reactivate_succeeds hnames hfree) fun _ c₂ hwritten => ?_
  cases found with
  | some a => rfl
  | none =>
    have hnone : ∀ b ∈ c.tables.repositoryAliases, b.dormant r kind value = false :=
      fun b hb => Bool.eq_false_iff.mpr (List.find?_eq_none.mp hfind b hb)
    have htables : c₂.tables = c.tables.put .repositoryAliases
        (updateWhere (·.dormant r kind value) RepositoryAlias.reactivated
          c.tables.repositoryAliases) := write_eq_ok.mp hwritten
    rw [updateWhere_of_none hnone] at htables
    have hsame : c₂ = c := Valid.ext htables
    subst hsame
    refine Tx.bind_succeeds (insertAlias_succeeds hfree hfresh hrepository) fun _ c₃ _ => rfl

/-- A free value, or one that is the repository's own, is claimed. -/
theorem observedAliasInTx_succeeds (hnames : NamesUnique c.tables)
    (hother : ∀ b ∈ c.tables.repositoryAliases, b.holds kind value = true → b.repositoryId = r)
    (hfresh : fresh ∉ c.tables.repositoryAliases.map (·.aliasId))
    (hrepository : r ∈ c.tables.repositories.map (·.repositoryId)) :
    (observedAliasInTx fresh now r kind value).succeeds c = true := by
  refine Tx.bind_succeeds rfl fun holder c₁ hread => ?_
  obtain ⟨hholder, rfl⟩ := select_eq_ok.mp hread
  cases holder with
  | none =>
    exact reactivateAliasInTx_succeeds hnames (activeAliasHolder_eq_none.mp hholder) hfresh hrepository
  | some p =>
    obtain ⟨a, ha, hlive, -, hrepo⟩ := activeAliasHolder_eq_some hholder
    have hown : ¬ p.2 ≠ r := not_not.mpr (hrepo.symm.trans (hother a ha hlive))
    show Tx.succeeds (if p.2 ≠ r then abort .liveAliasConflict else pure p.1) c = true
    rw [if_neg hown]
    rfl

theorem recordAlias_succeeds (hnames : NamesUnique c.tables)
    (hother : ∀ b ∈ c.tables.repositoryAliases, b.holds kind value = true → b.repositoryId = r)
    (hfresh : fresh ∉ c.tables.repositoryAliases.map (·.aliasId))
    (hrepository : r ∈ c.tables.repositories.map (·.repositoryId)) :
    (recordAlias fresh now r kind value).succeeds c = true := by
  refine Tx.bind_succeeds rfl fun holder c₁ hread => ?_
  obtain ⟨hholder, rfl⟩ := select_eq_ok.mp hread
  cases holder with
  | none =>
    exact Tx.bind_succeeds (reactivateAliasInTx_succeeds hnames (activeAliasHolder_eq_none.mp hholder)
      hfresh hrepository) fun _ _ _ => rfl
  | some p =>
    obtain ⟨a, ha, hlive, -, hrepo⟩ := activeAliasHolder_eq_some hholder
    have hown : ¬ p.2 ≠ r := not_not.mpr (hrepo.symm.trans (hother a ha hlive))
    show Tx.succeeds (if p.2 ≠ r then abort .liveAliasConflict else pure ()) c = true
    rw [if_neg hown]
    rfl

/-- Superseding in favour of an existing alias is accepted. -/
theorem supersedeAliasInTx_succeeds (hid : id ∈ c.tables.repositoryAliases.map (·.aliasId)) :
    (supersedeAliasInTx kind value id).succeeds c = true := by
  have hids := aliasIds_updateWhere (p := (·.holds kind value)) (f := (·.supersededBy id))
    (fun _ => rfl) c.tables.repositoryAliases
  have hrow : ∀ a ∈ updateWhere (·.holds kind value) (·.supersededBy id) c.tables.repositoryAliases,
      ∃ a₀ ∈ c.tables.repositoryAliases, a = a₀ ∨ a = a₀.supersededBy id := by
    intro a ha
    obtain ⟨a₀, ha₀, rfl⟩ := mem_updateWhere.mp ha
    refine ⟨a₀, ha₀, ?_⟩
    split
    · exact .inr rfl
    · exact .inl rfl
  refine writeAliases_succeeds (f := fun db =>
    updateWhere (·.holds kind value) (·.supersededBy id) db.repositoryAliases) ?_ ?_ ?_ ?_ ?_
  · rw [UniqueOn, hids]
    exact c.valid.keys.aliases
  · intro a ha b hb hactive hactive' hkind hvalue
    obtain ⟨a₀, ha₀, rfl | rfl⟩ := hrow a ha
    · obtain ⟨b₀, hb₀, rfl | rfl⟩ := hrow b hb
      · exact eq_of_active c ha₀ hb₀ hactive hactive' hkind hvalue
      · cases hactive'
    · cases hactive
  · intro a ha
    obtain ⟨a₀, ha₀, rfl | rfl⟩ := hrow a ha
    · exact c.valid.checks.aliases a ha₀
    · rfl
  · intro a ha
    obtain ⟨a₀, ha₀, rfl | rfl⟩ := hrow a ha
    · exact c.valid.foreignKeys.aliases_repository a ha₀ _ rfl
    · exact c.valid.foreignKeys.aliases_repository a₀ ha₀ _ rfl
  · intro a ha target htarget
    rw [hids]
    obtain ⟨a₀, ha₀, rfl | rfl⟩ := hrow a ha
    · exact c.valid.foreignKeys.aliases_redirect a ha₀ target htarget
    · rw [← Option.some.inj htarget]
      exact hid

/-- A repository is catalogued under an unused identifier. -/
theorem upsertRepositoryInTx_succeeds {pid : ℤ} (hpid : fitsBigint pid = true)
    (hfresh : fresh ∉ c.tables.repositories.map (·.repositoryId)) :
    (upsertRepositoryInTx fresh pid).succeeds c = true := by
  have hvalid : Constraints (c.tables.put .repositories
      (insertUnless (fun r => decide (r.providerRepositoryId = pid)) ⟨fresh, pid, none⟩
        c.tables.repositories)) := by
    unfold insertUnless
    split
    · exact c.valid
    · next hnew =>
      have hmono : ∀ {α : Type} {fk : α → Option Uuid} {t : List α},
          Refers fk t Repository.repositoryId c.tables.repositories →
          Refers fk t Repository.repositoryId (c.tables.repositories ++ [⟨fresh, pid, none⟩]) :=
        fun h => h.superset (List.subset_append_left _ _)
      have hprovider : pid ∉ c.tables.repositories.map (·.providerRepositoryId) := by
        intro hmem
        obtain ⟨q, hq, hqpid⟩ := List.mem_map.mp hmem
        exact hnew (List.any_eq_true.mpr ⟨q, hq, decide_eq_true hqpid⟩)
      have hrefs := c.valid.foreignKeys
      exact ⟨{ c.valid.keys with
          repositories := c.valid.keys.repositories.append_singleton hfresh
          repositories_provider := c.valid.keys.repositories_provider.append_singleton hprovider },
        { c.valid.checks with
          repositories := forall_append_singleton c.valid.checks.repositories hpid },
        { hrefs with
          aliases_repository := hmono hrefs.aliases_repository
          records_repository := hmono hrefs.records_repository
          metadata_repository := hmono hrefs.metadata_repository
          revisions_repository := hmono hrefs.revisions_repository
          observations_repository := hmono hrefs.observations_repository
          stars_repository := hmono hrefs.stars_repository
          claims_repository := hmono hrefs.claims_repository
          repairs_repository := hmono hrefs.repairs_repository
          memberships_repository := hmono hrefs.memberships_repository
          membershipObservations_repository := hmono hrefs.membershipObservations_repository
          watches_repository := hmono hrefs.watches_repository
          requests_repository := hmono hrefs.requests_repository
          links_repository := hmono hrefs.links_repository
          policies_repository := hmono hrefs.policies_repository
          audit_repository := hmono hrefs.audit_repository }⟩
  refine Tx.bind_succeeds ?_ fun _ c₁ hwritten => ?_
  · rw [Tx.succeeds, write_of_valid hvalid]
    rfl
  · -- The row is there now, whether it was new or not.
    have hrow : ∃ q ∈ c₁.tables.repositories, q.providerRepositoryId = pid := by
      rw [write_eq_ok.mp hwritten]
      show ∃ q ∈ insertUnless (fun q : Repository => decide (q.providerRepositoryId = pid)) _ _,
        q.providerRepositoryId = pid
      unfold insertUnless
      split
      · next hany =>
        obtain ⟨q, hq, hqpid⟩ := List.any_eq_true.mp hany
        exact ⟨q, hq, of_decide_eq_true hqpid⟩
      · exact ⟨_, List.mem_append_right _ List.mem_cons_self, rfl⟩
    obtain ⟨q, hq, hqpid⟩ := hrow
    have hfound : (c₁.tables.repositories.find? fun r =>
        decide (r.providerRepositoryId = pid)).isSome :=
      List.find?_isSome.mpr ⟨q, hq, decide_eq_true hqpid⟩
    obtain ⟨q', hq'⟩ := Option.isSome_iff_exists.mp hfound
    simp [Tx.succeeds, fetchOne, Tx.queryOrFail, hq', Except.isOk, Except.toBool]

/-- Another repository than that of the provider id holds the value live. -/
def heldByOther (pid : ℤ) (kind : AliasKind) (value : String) (db : Database) : Prop :=
  ∃ a ∈ db.repositoryAliases, a.holds kind value = true ∧
    ∀ q ∈ db.repositories, q.providerRepositoryId = pid → q.repositoryId ≠ a.repositoryId

theorem applyAliasObservation_succeeds {ids : ℕ → Uuid} {pid : ℤ} {old : Option String}
    (hnames : NamesUnique c.tables) (hpid : fitsBigint pid = true)
    (hfresh : ids 0 ∉ c.tables.repositories.map (·.repositoryId))
    (hfresh' : ids 1 ∉ c.tables.repositoryAliases.map (·.aliasId))
    (hother : ¬ heldByOther pid kind value c.tables) :
    (applyAliasObservation ids now pid kind old value).succeeds c = true := by
  refine Tx.bind_succeeds (upsertRepositoryInTx_succeeds hpid hfresh) fun r c₁ h₁ => ?_
  obtain ⟨⟨q, hq, hqpid, hqid⟩, hsubset⟩ := upsertRepositoryInTx_row h₁
  have haliases : c₁.tables.repositoryAliases = c.tables.repositoryAliases :=
    touches_upsertRepositoryInTx _ _ _ _ _ h₁ .repositoryAliases (by decide)
  have hown : ∀ b ∈ c₁.tables.repositoryAliases, b.holds kind value = true →
      b.repositoryId = r := by
    intro b hb hlive
    rw [haliases] at hb
    by_contra hne
    refine hother ⟨b, hb, hlive, fun q' hq' hpid' heq => hne ?_⟩
    have hsame : q' = q := c₁.valid.keys.repositories_provider.eq_of_mem (hsubset hq') hq
      (hpid'.trans hqpid.symm)
    rw [← heq, hsame, hqid]
  have hrepository : r ∈ c₁.tables.repositories.map (·.repositoryId) :=
    List.mem_map.mpr ⟨q, hq, hqid⟩
  have hnames₁ : NamesUnique c₁.tables := by
    rw [NamesUnique, haliases]
    exact hnames
  refine Tx.bind_succeeds
    (observedAliasInTx_succeeds hnames₁ hown (haliases ▸ hfresh') hrepository) fun id c₂ h₂ => ?_
  obtain ⟨a, ha, -, -, hid⟩ := (observedAliasInTx_spec h₂).row
  cases old.filter (· ≠ value) with
  | none => rfl
  | some oldValue =>
    exact Tx.bind_succeeds (supersedeAliasInTx_succeeds (List.mem_map.mpr ⟨a, ha, hid⟩))
      fun _ _ _ => rfl

/-- A claimed value is live once. -/
theorem Claimed.liveOnce {t : List RepositoryAlias} {db : Database}
    (h : Claimed fresh now r kind value t db.repositoryAliases id) (hnames : NamesUnique db) :
    LiveOnce r kind value db := by
  obtain ⟨a, ha, hlive, hrepo, -⟩ := h.row
  obtain ⟨hkind, hvalue, hactive⟩ := RepositoryAlias.holds_iff.mp hlive
  have hname : a.name = (r, kind, value) := by rw [RepositoryAlias.name, hrepo, hkind, hvalue]
  exact ⟨a, hname ▸ hnames.filter_eq_singleton ha, hactive⟩

theorem AliasObservation.liveOnce {pid : ℤ} {old : Option String} {db db' : Database}
    (h : AliasObservation fresh now pid kind old value db db' r) (hnames : NamesUnique db) :
    LiveOnce r kind value db' := by
  obtain ⟨a, ha, hlive, hrepo⟩ := h.row
  obtain ⟨hkind, hvalue, hactive⟩ := RepositoryAlias.holds_iff.mp hlive
  have hname : a.name = (r, kind, value) := by rw [RepositoryAlias.name, hrepo, hkind, hvalue]
  exact ⟨a, hname ▸ (h.namesUnique hnames).filter_eq_singleton ha, hactive⟩

end observing

/-- Every value that no other repository holds live can be observed for a repository, by rename
evidence and by a plain record alike, and is then live under exactly one row. -/
structure Observable (c : Catalog) : Prop where
  observation : ∀ (ids : ℕ → Uuid) (now : Time) (pid : ℤ) (kind : AliasKind) (old : Option String)
    (value : String), fitsBigint pid = true →
    ids 0 ∉ c.tables.repositories.map (·.repositoryId) →
    ids 1 ∉ c.tables.repositoryAliases.map (·.aliasId) →
    ¬ heldByOther pid kind value c.tables →
    ∃ r c', applyAliasObservation ids now pid kind old value c = .ok (r, c') ∧
      LiveOnce r kind value c'.tables
  record : ∀ (fresh : Uuid) (now : Time) (r : Uuid) (kind : AliasKind) (value : String),
    fresh ∉ c.tables.repositoryAliases.map (·.aliasId) →
    r ∈ c.tables.repositories.map (·.repositoryId) →
    (∀ a ∈ c.tables.repositoryAliases, a.holds kind value = true → a.repositoryId = r) →
    ∃ c', recordAlias fresh now r kind value c = .ok ((), c') ∧ LiveOnce r kind value c'.tables

theorem NamesUnique.observable {c : Catalog} (h : NamesUnique c.tables) : Observable c where
  observation ids now pid kind old value hpid hfresh hfresh' hother := by
    have hsucceeds : (applyAliasObservation ids now pid kind old value).succeeds c = true :=
      applyAliasObservation_succeeds h hpid hfresh hfresh' hother
    obtain ⟨r, hok⟩ := Tx.ok_of_succeeds hsucceeds
    exact ⟨r, _, hok, (applyAliasObservation_spec hok).liveOnce h⟩
  record fresh now r kind value hfresh hrepository hother := by
    have hsucceeds : (recordAlias fresh now r kind value).succeeds c = true :=
      recordAlias_succeeds h hother hfresh hrepository
    obtain ⟨⟨⟩, hok⟩ := Tx.ok_of_succeeds hsucceeds
    obtain ⟨id, hclaimed⟩ := recordAlias_spec hok
    exact ⟨_, hok, hclaimed.liveOnce (hclaimed.namesUnique h)⟩

/-- **Names do not repeat.**  Where no import meets a name that its repository has as history only,
every state has at most one alias row per (repository, kind, value), and every value that no other
repository holds can be observed, however often it was superseded and returned to. -/
theorem names_unique_throughout (k : Contracts) (history : List Operation)
    (h : Guarded (step k) (fun c op => op.reinserts c.tables = false) emptyCatalog history) :
    Throughout (step k) (fun c => NamesUnique c.tables ∧ Observable c) emptyCatalog history := by
  have hempty : NamesUnique emptyCatalog.tables := List.nodup_nil
  refine Throughout.mono (fun c hnames => ⟨hnames, hnames.observable⟩)
    (throughout_of_guarded (P := fun c => NamesUnique c.tables) ?_ hempty h)
  intro c op hnames hguard
  unfold step
  split
  · exact op.commit_namesUnique k c hnames hguard
  · exact hnames

/-- Repository 101 seen under a name, with the evidence of its old one. -/
def seenAs (n : ℕ) (old : Option String) (value : String) : Operation :=
  .applyAliasObservation (fun i => BitVec.ofNat 128 (10 * n + i)) n 101 .ownerName old value

/-- The import of repository 101 under a name. -/
def importedAs (owner name : String) : Operation :=
  .importLegacy (BitVec.ofInt 128) (fun _ i => BitVec.ofNat 128 (100 + i)) 0
    ⟨"retired", [(1, "owner-a")], ⟨[⟨1, 101, owner, name, 1, false, none, []⟩], []⟩⟩ 1

/-- A rename, an import under the new name, and the return to the old one. -/
def renamedAndBack : List Operation :=
  [seenAs 1 none "a/b", seenAs 2 (some "a/b") "a/c", importedAs "a" "c", seenAs 3 (some "a/c") "a/b"]

theorem names_unique_throughout_renamedAndBack :
    Guarded (step sampleContracts) (fun c op => op.reinserts c.tables = false) emptyCatalog
        renamedAndBack ∧
      Throughout (step sampleContracts) (fun c => NamesUnique c.tables ∧ Observable c) emptyCatalog
        renamedAndBack := by
  have hguard : Guarded (step sampleContracts) (fun c op => op.reinserts c.tables = false)
      emptyCatalog renamedAndBack := by decide +kernel
  exact ⟨hguard, names_unique_throughout sampleContracts renamedAndBack hguard⟩

/-- A rename, an import under the old name, and the rename's evidence again. -/
def importedOverHistory : List Operation :=
  [seenAs 1 none "a/b", seenAs 2 (some "a/b") "a/c", importedAs "a" "b", seenAs 3 (some "a/b") "a/c"]

/-- The import gives the repository a second row of its old name; once both are history, the return
to that name, which nobody holds, is refused by the unique index. -/
theorem names_repeated_by_import :
    let c := runFrom (step sampleContracts) emptyCatalog importedOverHistory
    ¬ NamesUnique c.tables ∧ activeAliasHolder .ownerName "a/b" c.tables = none ∧
      (applyAliasObservation (fun i => BitVec.ofNat 128 (40 + i)) 4 101 .ownerName none
        "a/b").failure c = some (.query .constraint) := by
  decide +kernel

end GithubCatalog
