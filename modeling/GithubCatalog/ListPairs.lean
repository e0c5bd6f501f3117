import GithubCatalog.ListSwap
import Mathlib.Data.Finset.Card
import Mathlib.Data.Finset.Dedup

/-!
# The lists and the pairs of an account

What the tables of a list swap mean, under the provider's own ids: after a swap the account's active
lists and member pairs are the ones its run staged, and the two counts are the differences of the pair
sets.

* `activeLists`, `memberPairs` - the lists and the pairs of an account;
* `stagedPairNames` - the pairs a run staged;
* `ListSwapping.mem_activeLists`, `ListSwapping.mem_memberPairs` - after a swap these are the staged
  ones;
* `ListSwapping.additions_eq`, `ListSwapping.removals_eq` - the counts.
-/

namespace GithubCatalog

open Relational Transact

/-- The account's active lists, with their names. -/
def activeLists (accountId : Uuid) (db : Database) : List (String × String) :=
  (db.starLists.filter fun l => decide (l.accountId = accountId) && decide (l.status = .active)).map
    fun l => (l.providerListId, l.name)

/-- The provider's ids of a (list, repository) pair. -/
def pairName (db : Database) (pair : Uuid × Uuid) : String × ℤ :=
  ((db.starLists.find? fun l => decide (l.listId = pair.1)).elim "" (·.providerListId),
    (db.repositories.find? fun r => decide (r.repositoryId = pair.2)).elim 0
      (·.providerRepositoryId))

/-- Whether a membership row is of one of the account's lists. -/
def StarListMembership.ofAccount (accountId : Uuid) (db : Database) (m : StarListMembership) : Bool :=
  db.starLists.any fun l => decide (l.accountId = accountId) && decide (l.listId = m.listId)

/-- The pairs of the account's lists with `member = true`. -/
def memberPairs (accountId : Uuid) (db : Database) : List (String × ℤ) :=
  (db.starListMemberships.filter fun m => m.member && m.ofAccount accountId db).map
    fun m => pairName db m.key

/-- The provider's ids of a staged row. -/
def ListSnapshotItem.pair (i : ListSnapshotItem) : String × ℤ :=
  (i.providerListId, i.providerRepositoryId)

/-- The pairs a run staged. -/
def stagedPairNames (runId : Uuid) (db : Database) : List (String × ℤ) :=
  (stagedListRows runId db).map (·.pair)

/-- Every staged repository is catalogued. -/
def StagedCatalogued (runId : Uuid) (db : Database) : Prop :=
  ∀ i ∈ stagedListRows runId db,
    ∃ r ∈ db.repositories, r.providerRepositoryId = i.providerRepositoryId

/-! ### Membership rows and their names -/

section names

variable {db : Database} {accountId : Uuid} {m : StarListMembership}

theorem ofAccount_iff : m.ofAccount accountId db = true ↔
    ∃ l ∈ db.starLists, l.accountId = accountId ∧ l.listId = m.listId := by
  simp [StarListMembership.ofAccount]

theorem pairName_eq (hkeys : Keys db) {pair : Uuid × Uuid} {l : StarList} (hl : l ∈ db.starLists)
    (hlist : l.listId = pair.1) {r : Repository} (hr : r ∈ db.repositories)
    (hrepo : r.repositoryId = pair.2) :
    pairName db pair = (l.providerListId, r.providerRepositoryId) := by
  have hfind := hkeys.lists.find?_eq hl
  have hfind' := hkeys.repositories.find?_eq hr
  rw [hlist] at hfind
  rw [hrepo] at hfind'
  rw [pairName, hfind, hfind']
  rfl

/-- A pair of one of the account's lists and a catalogued repository. -/
def OwnPair (accountId : Uuid) (db : Database) (pair : Uuid × Uuid) : Prop :=
  ∃ l ∈ db.starLists, l.accountId = accountId ∧ l.listId = pair.1 ∧
    ∃ r ∈ db.repositories, r.repositoryId = pair.2

/-- The provider's ids tell the pairs of an account apart. -/
theorem OwnPair.eq_of_pairName (hkeys : Keys db) {pair pair' : Uuid × Uuid}
    (h : OwnPair accountId db pair) (h' : OwnPair accountId db pair')
    (heq : pairName db pair = pairName db pair') : pair = pair' := by
  obtain ⟨l, hl, haccount, hlist, r, hr, hrepo⟩ := h
  obtain ⟨l', hl', haccount', hlist', r', hr', hrepo'⟩ := h'
  rw [pairName_eq hkeys hl hlist hr hrepo, pairName_eq hkeys hl' hlist' hr' hrepo'] at heq
  obtain ⟨hprovider, hpid⟩ := Prod.mk.inj heq
  have hsame : l = l' := hkeys.lists_provider.eq_of_mem hl hl' (by rw [haccount, haccount', hprovider])
  have hsame' : r = r' := hkeys.repositories_provider.eq_of_mem hr hr' hpid
  refine Prod.ext ?_ ?_
  · rw [← hlist, ← hlist', hsame]
  · rw [← hrepo, ← hrepo', hsame']

/-- A membership row of the account is such a pair. -/
theorem ownPair_of_ofAccount (hvalid : Constraints db) (hm : m ∈ db.starListMemberships)
    (h : m.ofAccount accountId db = true) : OwnPair accountId db m.key := by
  obtain ⟨l, hl, haccount, hlist⟩ := ofAccount_iff.mp h
  obtain ⟨r, hr, hrepo⟩ :=
    List.mem_map.mp (hvalid.foreignKeys.memberships_repository m hm m.repositoryId rfl)
  exact ⟨l, hl, haccount, hlist, r, hr, hrepo⟩

theorem mem_memberPairs (hvalid : Constraints db) {x : String × ℤ} :
    x ∈ memberPairs accountId db ↔ ∃ m ∈ db.starListMemberships, m.member = true ∧
      ∃ l ∈ db.starLists, l.accountId = accountId ∧ l.listId = m.listId ∧
        ∃ r ∈ db.repositories, r.repositoryId = m.repositoryId ∧
          x = (l.providerListId, r.providerRepositoryId) := by
  rw [memberPairs, List.mem_map]
  constructor
  · rintro ⟨m, hm, rfl⟩
    obtain ⟨hm, hcond⟩ := List.mem_filter.mp hm
    obtain ⟨hmember, hown⟩ := Bool.and_eq_true_iff.mp hcond
    obtain ⟨l, hl, haccount, hlist, r, hr, hrepo⟩ := ownPair_of_ofAccount hvalid hm hown
    exact ⟨m, hm, hmember, l, hl, haccount, hlist, r, hr, hrepo,
      pairName_eq hvalid.keys hl hlist hr hrepo⟩
  · rintro ⟨m, hm, hmember, l, hl, haccount, hlist, r, hr, hrepo, rfl⟩
    refine ⟨m, List.mem_filter.mpr ⟨hm, ?_⟩, pairName_eq hvalid.keys hl hlist hr hrepo⟩
    rw [hmember, ofAccount_iff.mpr ⟨l, hl, haccount, hlist⟩]
    rfl

end names

/-! ### The lists after the upsert -/

section listed

variable {listIds : ℕ → Uuid} {runId accountId : Uuid} {db : Database} {l : StarList}

theorem proposedLists_keys (listIds : ℕ → Uuid) (runId accountId : Uuid) (db : Database) :
    (proposedLists listIds runId accountId db).map StarList.key =
      ((stagedListRows runId db).map (·.providerListId)).dedup.map fun p => (accountId, p) := by
  rw [proposedLists, List.map_map]
  conv_rhs => rw [← List.zipIdx_map_fst 0 ((stagedListRows runId db).map (·.providerListId)).dedup,
    List.map_map]
  rfl

theorem proposedLists_nodup (listIds : ℕ → Uuid) (runId accountId : Uuid) (db : Database) :
    ((proposedLists listIds runId accountId db).map StarList.key).Nodup := by
  rw [proposedLists_keys]
  exact (List.nodup_dedup _).map fun _ _ h => (Prod.mk.inj h).2

theorem mem_proposedLists {row : StarList} (h : row ∈ proposedLists listIds runId accountId db) :
    row.accountId = accountId ∧ row.status = .active ∧
      row.providerListId ∈ (stagedListRows runId db).map (·.providerListId) ∧
      row.name = stagedName runId row.providerListId db := by
  obtain ⟨p, hp, rfl⟩ := List.mem_map.mp h
  exact ⟨rfl, rfl, List.mem_dedup.mp (List.fst_mem_of_mem_zipIdx hp), rfl⟩

theorem mem_listedLists : l ∈ listedLists listIds runId accountId db ↔
    (l ∈ db.starLists ∧ l.key ∉ (proposedLists listIds runId accountId db).map StarList.key) ∨
      ∃ row ∈ proposedLists listIds runId accountId db,
        (∃ old ∈ db.starLists, old.key = row.key ∧ l = old.relisted row) ∨
          (row.key ∉ db.starLists.map StarList.key ∧ l = row) := by
  have hkey : ∀ old row : StarList, (old.relisted row).key = old.key := fun _ _ => rfl
  exact mem_upsertAll hkey (proposedLists_nodup _ _ _ _)

/-- Every list lives on, under its ids. -/
theorem exists_listed (hl : l ∈ db.starLists) :
    ∃ l' ∈ listedLists listIds runId accountId db, l'.listId = l.listId ∧
      l'.accountId = l.accountId ∧ l'.providerListId = l.providerListId := by
  obtain ⟨l', hl', hsame⟩ := @exists_mem_upsertAll _ _ _ _ _ StarList.key StarList.relisted
    (fun l => (l.listId, l.accountId, l.providerListId)) (fun _ _ => rfl)
    (proposedLists listIds runId accountId db) l hl
  simp only [Prod.mk.injEq] at hsame
  exact ⟨l', hl', hsame⟩

/-- A list of the upsert is an old one, or a new one of the account. -/
theorem listed_cases (h : l ∈ listedLists listIds runId accountId db) :
    (∃ old ∈ db.starLists, old.listId = l.listId ∧ old.accountId = l.accountId ∧
      old.providerListId = l.providerListId) ∨ l.accountId = accountId := by
  rcases mem_listedLists.mp h with
    ⟨hold, -⟩ | ⟨row, hrow, ⟨old, hold, -, rfl⟩ | ⟨-, rfl⟩⟩
  · exact .inl ⟨l, hold, rfl, rfl, rfl⟩
  · exact .inl ⟨old, hold, rfl, rfl, rfl⟩
  · exact .inr (mem_proposedLists hrow).1

/-- The account's list of a staged id is active, under the staged name. -/
theorem listed_staged (h : l ∈ listedLists listIds runId accountId db)
    (haccount : l.accountId = accountId)
    (hstaged : l.providerListId ∈ (stagedListRows runId db).map (·.providerListId)) :
    l.status = .active ∧ l.name = stagedName runId l.providerListId db := by
  have hkey : l.key ∈ (proposedLists listIds runId accountId db).map StarList.key := by
    rw [proposedLists_keys, StarList.key, haccount]
    exact List.mem_map.mpr ⟨_, List.mem_dedup.mpr hstaged, rfl⟩
  rcases mem_listedLists.mp h with
    ⟨-, hfar⟩ | ⟨row, hrow, ⟨old, hold, hsame, rfl⟩ | ⟨-, rfl⟩⟩
  · exact absurd hkey hfar
  · have hprovider : old.providerListId = row.providerListId := (Prod.mk.inj hsame).2
    refine ⟨rfl, ?_⟩
    rw [StarList.relisted, (mem_proposedLists hrow).2.2.2, hprovider]
  · exact ⟨(mem_proposedLists hrow).2.1, (mem_proposedLists hrow).2.2.2⟩

/-- Every staged id has a list of the account. -/
theorem exists_listed_of_staged {p : String}
    (hstaged : p ∈ (stagedListRows runId db).map (·.providerListId)) :
    ∃ l ∈ listedLists listIds runId accountId db, l.accountId = accountId ∧ l.providerListId = p := by
  have hkey : (accountId, p) ∈ (proposedLists listIds runId accountId db).map StarList.key := by
    rw [proposedLists_keys]
    exact List.mem_map.mpr ⟨_, List.mem_dedup.mpr hstaged, rfl⟩
  obtain ⟨row, hrow, hrowkey⟩ := List.mem_map.mp hkey
  obtain ⟨haccount, hprovider⟩ := Prod.mk.inj hrowkey
  by_cases hold : row.key ∈ db.starLists.map StarList.key
  · obtain ⟨old, hmem, hsame⟩ := List.mem_map.mp hold
    refine ⟨old.relisted row, mem_listedLists.mpr
      (.inr ⟨row, hrow, .inl ⟨old, hmem, hsame, rfl⟩⟩), ?_⟩
    obtain ⟨haccount', hprovider'⟩ := Prod.mk.inj hsame
    exact ⟨haccount'.trans haccount, hprovider'.trans hprovider⟩
  · exact ⟨row, mem_listedLists.mpr (.inr ⟨row, hrow, .inr ⟨hold, rfl⟩⟩), haccount, hprovider⟩

/-- A list that is not staged is not touched by the upsert. -/
theorem listed_iff_of_not_staged
    (hfar : l.providerListId ∉ (stagedListRows runId db).map (·.providerListId)) :
    l ∈ listedLists listIds runId accountId db ↔ l ∈ db.starLists := by
  constructor
  · intro h
    rcases mem_listedLists.mp h with ⟨hold, -⟩ | ⟨row, hrow, ⟨old, -, hsame, rfl⟩ | ⟨-, rfl⟩⟩
    · exact hold
    · exact absurd ((Prod.mk.inj hsame).2 ▸ (mem_proposedLists hrow).2.2.1) hfar
    · exact absurd (mem_proposedLists hrow).2.2.1 hfar
  · intro hl
    refine mem_listedLists.mpr (.inl ⟨hl, fun hkey => ?_⟩)
    rw [proposedLists_keys] at hkey
    obtain ⟨p, hp, hsame⟩ := List.mem_map.mp hkey
    exact hfar ((Prod.mk.inj hsame).2 ▸ List.mem_dedup.mp hp)

theorem unlistedBy_iff : l.unlistedBy runId accountId db = true ↔ l.accountId = accountId ∧
    l.status = .active ∧ l.providerListId ∉ (stagedListRows runId db).map (·.providerListId) := by
  simp only [StarList.unlistedBy, Bool.and_eq_true, decide_eq_true_eq, Bool.not_eq_true',
    List.any_eq_false, List.mem_map, not_exists, not_and, and_assoc]

/-- The upsert of the lists changes no pair. -/
theorem listed_pair (hvalid : Constraints db)
    (hlisted : Constraints (withListed listIds runId accountId db)) {m : StarListMembership}
    (hm : m ∈ db.starListMemberships) :
    m.ofAccount accountId (withListed listIds runId accountId db) = m.ofAccount accountId db ∧
      pairName (withListed listIds runId accountId db) m.key = pairName db m.key := by
  obtain ⟨old, hold, hid⟩ := List.mem_map.mp (hvalid.foreignKeys.memberships_list m hm m.listId rfl)
  obtain ⟨r, hr, hrepo⟩ :=
    List.mem_map.mp (hvalid.foreignKeys.memberships_repository m hm m.repositoryId rfl)
  obtain ⟨l, hl, hid', haccount, hprovider⟩ := @exists_listed listIds runId accountId db old hold
  refine ⟨?_, ?_⟩
  · rw [Bool.eq_iff_iff, ofAccount_iff, ofAccount_iff]
    constructor
    · rintro ⟨l', hl', haccount', hlist⟩
      have hsame : l' = l := hlisted.keys.lists.eq_of_mem hl' hl (by rw [hlist, hid', hid])
      exact ⟨old, hold, by rw [← haccount, ← hsame, haccount'], hid⟩
    · rintro ⟨l', hl', haccount', hlist⟩
      have hsame : l' = old := hvalid.keys.lists.eq_of_mem hl' hold (by rw [hlist, hid])
      exact ⟨l, hl, by rw [haccount, ← hsame, haccount'], by rw [hid', hid]⟩
  · rw [pairName_eq hvalid.keys hold hid hr hrepo,
      pairName_eq hlisted.keys hl (hid'.trans hid) hr hrepo, hprovider]

theorem memberPairs_listed (hvalid : Constraints db)
    (hlisted : Constraints (withListed listIds runId accountId db)) :
    memberPairs accountId (withListed listIds runId accountId db) = memberPairs accountId db := by
  have hsame : db.starListMemberships.filter (fun m => m.member &&
      m.ofAccount accountId (withListed listIds runId accountId db)) =
        db.starListMemberships.filter fun m => m.member && m.ofAccount accountId db := by
    apply List.filter_congr
    intro m hm
    rw [(listed_pair hvalid hlisted hm).1]
  rw [memberPairs, memberPairs, ← hsame]
  apply List.map_congr_left
  intro m hm
  exact (listed_pair hvalid hlisted (List.mem_of_mem_filter hm)).2

end listed

/-! ### The pairs after a swap -/

section pairs

variable {runId accountId : Uuid} {db : Database}

theorem mem_stagedPairs {pair : Uuid × Uuid} : pair ∈ stagedPairs runId accountId db ↔
    ∃ i ∈ stagedListRows runId db, ∃ r, repositoryOf i.providerRepositoryId db = some r ∧
      ∃ l ∈ db.starLists, l.accountId = accountId ∧ l.providerListId = i.providerListId ∧
        pair = (l.listId, r.repositoryId) := by
  rw [stagedPairs, stagedPairsWhere, List.mem_flatMap]
  refine exists_congr fun i => and_congr_right fun _ => ?_
  cases hrepo : repositoryOf i.providerRepositoryId db with
  | none => simp
  | some r =>
    simp only [List.mem_map, List.mem_filter, Bool.and_eq_true, decide_eq_true_eq,
      Option.some.injEq, exists_eq_left']
    constructor
    · rintro ⟨l, ⟨hl, haccount, hprovider⟩, rfl⟩
      exact ⟨l, hl, haccount, hprovider, rfl⟩
    · rintro ⟨l, hl, haccount, hprovider, rfl⟩
      exact ⟨l, ⟨hl, haccount, hprovider⟩, rfl⟩

/-- A member row of the account is absent exactly when its pair is not staged. -/
theorem absentFrom_iff (hvalid : Constraints db) {m : StarListMembership}
    (hm : m ∈ db.starListMemberships) :
    m.absentFrom runId accountId db = true ↔ m.member = true ∧ m.ofAccount accountId db = true ∧
      pairName db m.key ∉ stagedPairNames runId db := by
  rw [StarListMembership.absentFrom, Bool.and_eq_true, List.any_eq_true]
  refine and_congr_right fun _ => ?_
  constructor
  · rintro ⟨l, hl, hcond⟩
    simp only [Bool.and_eq_true, decide_eq_true_eq, Bool.not_eq_true'] at hcond
    obtain ⟨⟨haccount, hlist⟩, hnone⟩ := hcond
    have hown := ofAccount_iff.mpr ⟨l, hl, haccount, hlist⟩
    refine ⟨hown, fun hstaged => ?_⟩
    obtain ⟨r, hr, hrepo⟩ :=
      List.mem_map.mp (hvalid.foreignKeys.memberships_repository m hm m.repositoryId rfl)
    obtain ⟨i, hi, hpair⟩ := List.mem_map.mp hstaged
    rw [pairName_eq hvalid.keys hl hlist hr hrepo] at hpair
    obtain ⟨hprovider, hpid⟩ := Prod.mk.inj hpair
    rw [List.any_eq_false] at hnone
    refine hnone i hi ?_
    rw [hprovider, hpid, repositoryOf_eq hvalid.keys hr]
    simp [hrepo]
  · rintro ⟨hown, hfar⟩
    obtain ⟨l, hl, haccount, hlist, r, hr, hrepo⟩ := ownPair_of_ofAccount hvalid hm hown
    have hpair := pairName_eq hvalid.keys hl hlist hr hrepo
    have hlist : l.listId = m.listId := hlist
    refine ⟨l, hl, ?_⟩
    rw [haccount, hlist]
    simp only [decide_true, Bool.true_and, Bool.not_eq_true', List.any_eq_false]
    intro i hi hsame
    obtain ⟨hprovider, hany⟩ := Bool.and_eq_true_iff.mp hsame
    refine hfar (List.mem_map.mpr ⟨i, hi, ?_⟩)
    cases hfound : repositoryOf i.providerRepositoryId db with
    | none =>
      rw [hfound] at hany
      cases hany
    | some q =>
      rw [hfound] at hany
      obtain ⟨hq, hqpid⟩ := repositoryOf_mem hfound
      have hqid : q.repositoryId = m.repositoryId := by simpa using hany
      have hsame' : q = r := hvalid.keys.repositories.eq_of_mem hq hr (hqid.trans hrepo.symm)
      rw [hpair, ListSnapshotItem.pair, of_decide_eq_true hprovider, ← hqpid, hsame']

end pairs

section swapped

variable {listIds memberIds removalIds : ℕ → Uuid} {now : Time} {runId accountId : Uuid}
  {db db' : Database} {counts : ℕ × ℕ × ℕ × ℕ}

/-- **The lists after a swap** are the staged ones. -/
theorem ListSwapping.mem_activeLists
    (h : ListSwapping listIds memberIds removalIds now runId accountId db db' counts)
    {p name : String} : (p, name) ∈ activeLists accountId db' ↔
      p ∈ (stagedListRows runId db).map (·.providerListId) ∧ name = stagedName runId p db := by
  rw [activeLists, List.mem_map, h.lists]
  constructor
  · rintro ⟨l, hl, hnames⟩
    obtain ⟨hl, hcond⟩ := List.mem_filter.mp hl
    simp only [Bool.and_eq_true, decide_eq_true_eq] at hcond
    obtain ⟨l', hl', rfl⟩ := mem_updateWhere.mp hl
    obtain ⟨hprovider, hname⟩ := Prod.mk.inj hnames
    split at hcond
    · cases hcond.2
    · next hlisted =>
      rw [if_neg hlisted] at hprovider hname
      have hstaged : l'.providerListId ∈ (stagedListRows runId db).map (·.providerListId) := by
        by_contra hfar
        exact hlisted (unlistedBy_iff.mpr ⟨hcond.1, hcond.2, hfar⟩)
      obtain ⟨-, hstagedName⟩ := listed_staged hl' hcond.1 hstaged
      rw [← hprovider, ← hname]
      exact ⟨hstaged, hstagedName⟩
  · rintro ⟨hstaged, rfl⟩
    obtain ⟨l, hl, haccount, rfl⟩ := @exists_listed_of_staged listIds runId accountId db p hstaged
    obtain ⟨hactive, hname⟩ := listed_staged hl haccount hstaged
    refine ⟨l, List.mem_filter.mpr ⟨mem_updateWhere.mpr ⟨l, hl, if_neg ?_⟩, ?_⟩, ?_⟩
    · exact fun hunlisted => (unlistedBy_iff.mp hunlisted).2.2 hstaged
    · simp [haccount, hactive]
    · rw [hname]

/-- The lists of a swap keep their ids. -/
theorem ListSwapping.list_cases
    (h : ListSwapping listIds memberIds removalIds now runId accountId db db' counts) {l : StarList}
    (hl : l ∈ db'.starLists) : ∃ l' ∈ listedLists listIds runId accountId db,
      l.listId = l'.listId ∧ l.accountId = l'.accountId ∧ l.providerListId = l'.providerListId := by
  rw [h.lists] at hl
  obtain ⟨l', hl', rfl⟩ := mem_updateWhere.mp hl
  refine ⟨l', hl', ?_⟩
  split <;> exact ⟨rfl, rfl, rfl⟩

theorem ListSwapping.exists_list
    (h : ListSwapping listIds memberIds removalIds now runId accountId db db' counts) {l : StarList}
    (hl : l ∈ listedLists listIds runId accountId db) : ∃ l' ∈ db'.starLists,
      l'.listId = l.listId ∧ l'.accountId = l.accountId ∧ l'.providerListId = l.providerListId := by
  rw [h.lists]
  refine ⟨_, mem_updateWhere.mpr ⟨l, hl, rfl⟩, ?_⟩
  split <;> exact ⟨rfl, rfl, rfl⟩

theorem promotedPairs_keys (now : Time) (runId accountId : Uuid) (db : Database) :
    (promotedPairs now runId accountId db).map StarListMembership.key =
      stagedPairs runId accountId db := by
  rw [promotedPairs, List.map_map]
  exact List.map_id _

theorem mem_promoted (hnodup : (stagedPairs runId accountId db).Nodup) {m : StarListMembership}
    {t : List StarListMembership} :
    m ∈ upsertAll StarListMembership.key (StarListMembership.promoted now)
      (promotedPairs now runId accountId db) t ↔
    (m ∈ t ∧ m.key ∉ stagedPairs runId accountId db) ∨
      ∃ row ∈ promotedPairs now runId accountId db,
        (∃ old ∈ t, old.key = row.key ∧ m = old.promoted now row) ∨
          (row.key ∉ t.map StarListMembership.key ∧ m = row) := by
  have hmerge : ∀ old row : StarListMembership, (old.promoted now row).key = old.key :=
    fun _ _ => rfl
  have hkeys := promotedPairs_keys now runId accountId db
  rw [← hkeys] at hnodup ⊢
  exact mem_upsertAll hmerge hnodup

theorem old_mem_promoted (hnodup : (stagedPairs runId accountId db).Nodup) {m : StarListMembership}
    {t : List StarListMembership} (hm : m ∈ t) (hfar : m.key ∉ stagedPairs runId accountId db) :
    m ∈ upsertAll StarListMembership.key (StarListMembership.promoted now)
      (promotedPairs now runId accountId db) t :=
  (mem_promoted hnodup).mpr (.inl ⟨hm, hfar⟩)

/-- The rows of the promotion. -/
theorem promoted_cases (hnodup : (stagedPairs runId accountId db).Nodup) {m : StarListMembership}
    {t : List StarListMembership}
    (h : m ∈ upsertAll StarListMembership.key (StarListMembership.promoted now)
      (promotedPairs now runId accountId db) t) :
    (m.key ∈ stagedPairs runId accountId db ∧ m.member = true) ∨
      (m ∈ t ∧ m.key ∉ stagedPairs runId accountId db) := by
  rcases (mem_promoted hnodup).mp h with
    ⟨hold, hfar⟩ | ⟨row, hrow, ⟨old, -, hsame, rfl⟩ | ⟨-, rfl⟩⟩
  · exact .inr ⟨hold, hfar⟩
  · refine .inl ⟨?_, rfl⟩
    show old.key ∈ _
    rw [hsame, ← promotedPairs_keys now]
    exact List.mem_map.mpr ⟨row, hrow, rfl⟩
  · obtain ⟨pair, hpair, rfl⟩ := List.mem_map.mp hrow
    exact .inl ⟨hpair, rfl⟩

theorem exists_promoted (hnodup : (stagedPairs runId accountId db).Nodup) {pair : Uuid × Uuid}
    (hpair : pair ∈ stagedPairs runId accountId db) (t : List StarListMembership) :
    ∃ m ∈ upsertAll StarListMembership.key (StarListMembership.promoted now)
      (promotedPairs now runId accountId db) t, m.key = pair ∧ m.member = true := by
  have hrow : (⟨pair.1, pair.2, true, now, none, some runId⟩ : StarListMembership) ∈
      promotedPairs now runId accountId db := List.mem_map.mpr ⟨pair, hpair, rfl⟩
  by_cases hold : pair ∈ t.map StarListMembership.key
  · obtain ⟨old, hmem, hsame⟩ := List.mem_map.mp hold
    refine ⟨old.promoted now ⟨pair.1, pair.2, true, now, none, some runId⟩,
      (mem_promoted hnodup).mpr (.inr ⟨_, hrow, .inl ⟨old, hmem, hsame, rfl⟩⟩), ?_⟩
    exact ⟨hsame, rfl⟩
  · exact ⟨_, (mem_promoted hnodup).mpr (.inr ⟨_, hrow, .inr ⟨hold, rfl⟩⟩), rfl, rfl⟩

/-- **The pairs after a swap** are the staged ones. -/
theorem ListSwapping.mem_memberPairs
    (h : ListSwapping listIds memberIds removalIds now runId accountId db db' counts)
    (hvalid : Constraints db') (hcatalogued : StagedCatalogued runId db) {x : String × ℤ} :
    x ∈ memberPairs accountId db' ↔ x ∈ stagedPairNames runId db := by
  rw [GithubCatalog.mem_memberPairs hvalid, h.memberships, h.repositories]
  have hkeys := h.valid.keys
  constructor
  · rintro ⟨m, hm, hmember, l, hl, haccount, hlist, r, hr, hrepo, rfl⟩
    obtain ⟨l', hl', hid, haccount', hprovider⟩ := h.list_cases hl
    obtain ⟨m', hm', rfl⟩ := mem_updateWhere.mp hm
    split at hmember
    · cases hmember
    · next hpresent =>
      rw [if_neg hpresent] at hlist hrepo
      rcases promoted_cases h.pairs_nodup hm' with ⟨hstaged, -⟩ | ⟨hold, -⟩
      · obtain ⟨i, hi, q, hq, l₀, hl₀, -, hprovider₀, hpair⟩ := mem_stagedPairs.mp hstaged
        obtain ⟨hlist₀, hrepo₀⟩ := Prod.mk.inj hpair
        obtain ⟨hq, hqpid⟩ := repositoryOf_mem hq
        have hsame : l' = l₀ := hkeys.lists.eq_of_mem hl' hl₀
          (hid.symm.trans (hlist.trans hlist₀))
        have hsame' : r = q := hkeys.repositories.eq_of_mem hr hq (hrepo.trans hrepo₀)
        refine List.mem_map.mpr ⟨i, hi, ?_⟩
        rw [ListSnapshotItem.pair, hprovider, hsame, hprovider₀, hsame', hqpid]
      · have hown : m'.ofAccount accountId (withListed listIds runId accountId db) = true :=
          ofAccount_iff.mpr ⟨l', hl', haccount' ▸ haccount, hid.symm.trans hlist⟩
        have hpair : pairName (withListed listIds runId accountId db) m'.key =
            (l'.providerListId, r.providerRepositoryId) :=
          pairName_eq hkeys hl' (hid.symm.trans hlist) hr hrepo
        rw [hprovider, ← hpair]
        by_contra hfar
        exact hpresent ((absentFrom_iff h.valid hold).mpr ⟨hmember, hown, hfar⟩)
  · intro hx
    obtain ⟨i, hi, rfl⟩ := List.mem_map.mp hx
    obtain ⟨r, hr, hpid⟩ := hcatalogued i hi
    obtain ⟨l, hl, haccount, hprovider⟩ := @exists_listed_of_staged listIds runId accountId db _
      (List.mem_map.mpr ⟨i, hi, rfl⟩)
    have hpair : (l.listId, r.repositoryId) ∈
        stagedPairs runId accountId (withListed listIds runId accountId db) := by
      refine mem_stagedPairs.mpr ⟨i, hi, r, ?_, l, hl, haccount, hprovider, rfl⟩
      rw [← hpid]
      exact repositoryOf_eq hkeys hr
    obtain ⟨m, hm, hkey, hmember⟩ := @exists_promoted now _ _ _ h.pairs_nodup _ hpair
      db.starListMemberships
    have hpresent : m.absentFrom runId accountId (withListed listIds runId accountId db) = false :=
      not_absentFrom_of_staged hkeys (hkey ▸ hpair)
    obtain ⟨hlist, hrepo⟩ := Prod.mk.inj hkey
    obtain ⟨l', hl', hid, haccount', hprovider'⟩ := h.exists_list hl
    refine ⟨m, mem_updateWhere.mpr ⟨m, hm, by rw [hpresent]; rfl⟩, hmember, l', hl',
      haccount'.trans haccount, hid.trans hlist.symm, r, hr, hrepo.symm, ?_⟩
    rw [ListSnapshotItem.pair, hprovider', hprovider, hpid]

/-- The account's lists, with their names and whether they are still there. -/
def listRows (accountId : Uuid) (db : Database) : List (String × String × StarListStatus) :=
  (db.starLists.filter fun l => decide (l.accountId = accountId)).map fun l =>
    (l.providerListId, l.name, l.status)

/-- The pairs of the account's lists, with whether they are members. -/
def pairRows (accountId : Uuid) (db : Database) : List ((String × ℤ) × Bool) :=
  (db.starListMemberships.filter fun m => m.ofAccount accountId db).map fun m =>
    (pairName db m.key, m.member)

/-- **All lists after a swap**: the staged ones, and the others as removed. -/
theorem ListSwapping.mem_listRows
    (h : ListSwapping listIds memberIds removalIds now runId accountId db db' counts)
    {x : String × String × StarListStatus} : x ∈ listRows accountId db' ↔
      (x.1 ∈ (stagedListRows runId db).map (·.providerListId) ∧
        x.2.1 = stagedName runId x.1 db ∧ x.2.2 = .active) ∨
      (x.1 ∉ (stagedListRows runId db).map (·.providerListId) ∧ x.2.2 = .removed ∧
        ∃ l ∈ db.starLists, l.accountId = accountId ∧ l.providerListId = x.1 ∧ l.name = x.2.1) := by
  -- An unstaged list of the account is removed after the swap, whatever it was.
  have hgone : ∀ l : StarList, l.accountId = accountId →
      l.providerListId ∉ (stagedListRows runId db).map (·.providerListId) →
      (if l.unlistedBy runId accountId db then l.tombstone now runId else l).status = .removed := by
    intro l haccount hfar
    split
    · rfl
    · next hkept =>
      cases hstatus : l.status with
      | removed => rfl
      | active => exact absurd (unlistedBy_iff.mpr ⟨haccount, hstatus, hfar⟩) hkept
  have hids : ∀ l : StarList,
      (if l.unlistedBy runId accountId db then l.tombstone now runId else l).accountId = l.accountId ∧
      (if l.unlistedBy runId accountId db then l.tombstone now runId else l).providerListId =
        l.providerListId ∧
      (if l.unlistedBy runId accountId db then l.tombstone now runId else l).name = l.name := by
    intro l
    split <;> exact ⟨rfl, rfl, rfl⟩
  rw [listRows, List.mem_map, h.lists]
  constructor
  · rintro ⟨l, hl, rfl⟩
    obtain ⟨hl, haccount⟩ := List.mem_filter.mp hl
    obtain ⟨l', hl', rfl⟩ := mem_updateWhere.mp hl
    have hown : l'.accountId = accountId := (hids l').1 ▸ of_decide_eq_true haccount
    simp only [(hids l').2.1, (hids l').2.2]
    by_cases hstaged : l'.providerListId ∈ (stagedListRows runId db).map (·.providerListId)
    · obtain ⟨hactive, hname⟩ := listed_staged hl' hown hstaged
      rw [if_neg fun hunlisted => (unlistedBy_iff.mp hunlisted).2.2 hstaged]
      exact .inl ⟨hstaged, hname, hactive⟩
    · exact .inr ⟨hstaged, hgone l' hown hstaged, l', (listed_iff_of_not_staged hstaged).mp hl', hown,
        rfl, rfl⟩
  · obtain ⟨p, name, status⟩ := x
    rintro (⟨hstaged, hname, hstatus⟩ | ⟨hfar, hstatus, l, hl, haccount, hid, hname⟩)
    · obtain ⟨l, hl, haccount, hid⟩ := @exists_listed_of_staged listIds runId accountId db p hstaged
      obtain ⟨hactive, hlisted⟩ := listed_staged hl haccount (hid.symm ▸ hstaged)
      refine ⟨l, List.mem_filter.mpr ⟨mem_updateWhere.mpr ⟨l, hl, if_neg fun hunlisted => ?_⟩,
        decide_eq_true haccount⟩, ?_⟩
      · exact (unlistedBy_iff.mp hunlisted).2.2 (hid.symm ▸ hstaged)
      · rw [hlisted, hid, hactive, show name = _ from hname, show status = _ from hstatus]
    · dsimp only at hid hname hstatus hfar
      subst hid hname hstatus
      refine ⟨_, List.mem_filter.mpr ⟨mem_updateWhere.mpr
        ⟨l, (listed_iff_of_not_staged hfar).mpr hl, rfl⟩, ?_⟩, ?_⟩
      · rw [(hids l).1]
        exact decide_eq_true haccount
      · rw [(hids l).2.1, (hids l).2.2, hgone l haccount hfar]

/-! ### The evidence of a swap -/

/-- A list that is not staged is tombstoned. -/
theorem ListSwapping.tombstoned
    (h : ListSwapping listIds memberIds removalIds now runId accountId db db' counts) {l : StarList}
    (hl : l ∈ db.starLists) (haccount : l.accountId = accountId) (hactive : l.status = .active)
    (hfar : l.providerListId ∉ (stagedListRows runId db).map (·.providerListId)) :
    l.tombstone now runId ∈ db'.starLists := by
  rw [h.lists]
  exact mem_updateWhere.mpr ⟨l, (listed_iff_of_not_staged hfar).mpr hl,
    if_pos (unlistedBy_iff.mpr ⟨haccount, hactive, hfar⟩)⟩

/-- How often some observations assert a pair, or deny it. -/
def observationsOf (member : Bool) (pair : Uuid × Uuid)
    (observations : List StarListMembershipObservation) : ℕ :=
  observations.countP fun o => decide ((o.listId, o.repositoryId) = pair) && o.member == member

theorem observationsOf_pairObservations (ids : ℕ → Uuid) (now : Time) (runId : Uuid)
    (member : Bool) (pairs : List (Uuid × Uuid)) (pair : Uuid × Uuid) :
    observationsOf member pair (pairObservations ids now runId member pairs) = pairs.count pair := by
  rw [observationsOf, pairObservations, List.countP_map]
  conv_rhs => rw [← List.zipIdx_map_fst 0 pairs, List.count, List.countP_map]
  apply List.countP_congr
  intro p _
  simp

theorem observationsOf_pairObservations_not (ids : ℕ → Uuid) (now : Time) (runId : Uuid)
    (member : Bool) (pairs : List (Uuid × Uuid)) (pair : Uuid × Uuid) :
    observationsOf (!member) pair (pairObservations ids now runId member pairs) = 0 := by
  rw [observationsOf, pairObservations, List.countP_map, List.countP_eq_zero]
  intro p _
  simp

/-- The observations a swap adds. -/
def newObservations (db db' : Database) : List StarListMembershipObservation :=
  db'.starListMembershipObservations.drop db.starListMembershipObservations.length

theorem ListSwapping.newObservations_eq
    (h : ListSwapping listIds memberIds removalIds now runId accountId db db' counts) :
    newObservations db db' = pairObservations memberIds now runId true
        (stagedPairsAnywhere runId (withListed listIds runId accountId db)) ++
      pairObservations removalIds now runId false
        (demotedPairs runId accountId (withListed listIds runId accountId db)) := by
  rw [newObservations, h.observations, List.append_assoc, List.drop_left]

theorem demotedPairs_nodup (hkeys : Keys db) : (demotedPairs runId accountId db).Nodup :=
  hkeys.memberships.sublist List.filter_sublist

/-- A member pair that is not staged is demoted, with one observation. -/
theorem ListSwapping.demoted
    (h : ListSwapping listIds memberIds removalIds now runId accountId db db' counts)
    (hvalid : Constraints db) {m : StarListMembership} (hm : m ∈ db.starListMemberships)
    (hmember : m.member = true) (hown : m.ofAccount accountId db = true)
    (hfar : pairName db m.key ∉ stagedPairNames runId db) :
    m.demote now runId ∈ db'.starListMemberships ∧
      observationsOf false m.key (newObservations db db') = 1 := by
  obtain ⟨hown', hname⟩ := listed_pair hvalid h.valid hm
  have habsent : m.absentFrom runId accountId (withListed listIds runId accountId db) = true :=
    (absentFrom_iff h.valid hm).mpr ⟨hmember, hown'.trans hown, hname.symm ▸ hfar⟩
  constructor
  · rw [h.memberships]
    refine mem_updateWhere.mpr ⟨m, old_mem_promoted h.pairs_nodup hm fun hstaged => ?_,
      if_pos habsent⟩
    rw [not_absentFrom_of_staged h.valid.keys hstaged] at habsent
    cases habsent
  · rw [h.newObservations_eq, observationsOf, List.countP_append, ← observationsOf,
      ← observationsOf, observationsOf_pairObservations]
    have htrue := observationsOf_pairObservations_not memberIds now runId true
      (stagedPairsAnywhere runId (withListed listIds runId accountId db)) m.key
    rw [Bool.not_true] at htrue
    rw [htrue, Nat.zero_add]
    exact List.count_eq_one_of_mem (demotedPairs_nodup h.valid.keys)
      (List.mem_map.mpr ⟨m, List.mem_filter.mpr ⟨hm, habsent⟩, rfl⟩)

/-! ### The counts of a swap -/

/-- A staged pair is the pair of one of the account's lists with the staged names. -/
theorem stagedPair_named (hkeys : Keys db) {pair : Uuid × Uuid}
    (h : pair ∈ stagedPairs runId accountId db) :
    OwnPair accountId db pair ∧ pairName db pair ∈ stagedPairNames runId db := by
  obtain ⟨i, hi, r, hrepo, l, hl, haccount, hprovider, rfl⟩ := mem_stagedPairs.mp h
  obtain ⟨hr, hpid⟩ := repositoryOf_mem hrepo
  refine ⟨⟨l, hl, haccount, rfl, r, hr, rfl⟩, List.mem_map.mpr ⟨i, hi, ?_⟩⟩
  rw [pairName_eq hkeys hl rfl hr rfl, ListSnapshotItem.pair, hprovider, hpid]

/-- Every staged name is the name of a staged pair. -/
theorem exists_stagedPair (hkeys : Keys (withListed listIds runId accountId db))
    (hcatalogued : StagedCatalogued runId db) {x : String × ℤ} (hx : x ∈ stagedPairNames runId db) :
    ∃ pair ∈ stagedPairs runId accountId (withListed listIds runId accountId db),
      pairName (withListed listIds runId accountId db) pair = x := by
  obtain ⟨i, hi, rfl⟩ := List.mem_map.mp hx
  obtain ⟨r, hr, hpid⟩ := hcatalogued i hi
  obtain ⟨l, hl, haccount, hprovider⟩ := @exists_listed_of_staged listIds runId accountId db _
    (List.mem_map.mpr ⟨i, hi, rfl⟩)
  refine ⟨(l.listId, r.repositoryId), mem_stagedPairs.mpr
    ⟨i, hi, r, ?_, l, hl, haccount, hprovider, rfl⟩, ?_⟩
  · rw [← hpid]
    exact repositoryOf_eq hkeys hr
  · have hname : pairName (withListed listIds runId accountId db) (l.listId, r.repositoryId) =
        (l.providerListId, r.providerRepositoryId) := pairName_eq hkeys hl rfl hr rfl
    rw [hname, ListSnapshotItem.pair, hprovider, hpid]

/-- Whether a pair has a member row. -/
def isMember (db : Database) (pair : Uuid × Uuid) : Bool :=
  db.starListMemberships.any fun m =>
    decide (m.listId = pair.1) && decide (m.repositoryId = pair.2) && m.member

/-- A pair of the account has a member row exactly when its name is among the member pairs. -/
theorem isMember_iff (hvalid : Constraints db) {pair : Uuid × Uuid}
    (hown : OwnPair accountId db pair) :
    isMember db pair = true ↔ pairName db pair ∈ memberPairs accountId db := by
  simp only [isMember, memberPairs, List.any_eq_true, Bool.and_eq_true, decide_eq_true_eq,
    List.mem_map, List.mem_filter]
  constructor
  · rintro ⟨m, hm, ⟨hlist, hrepo⟩, hmember⟩
    have hkey : m.key = pair := Prod.ext hlist hrepo
    obtain ⟨l, hl, haccount, hid, -⟩ := hown
    exact ⟨m, ⟨hm, hmember, ofAccount_iff.mpr ⟨l, hl, haccount, hid.trans hlist.symm⟩⟩,
      by rw [hkey]⟩
  · rintro ⟨m, ⟨hm, hmember, howns⟩, hname⟩
    have hkey := (ownPair_of_ofAccount hvalid hm howns).eq_of_pairName hvalid.keys hown hname
    exact ⟨m, hm, ⟨congrArg Prod.fst hkey, congrArg Prod.snd hkey⟩, hmember⟩

/-- **The additions** are the staged pairs that were not members. -/
theorem ListSwapping.additions_eq
    (h : ListSwapping listIds memberIds removalIds now runId accountId db db' counts)
    (hvalid : Constraints db) (hcatalogued : StagedCatalogued runId db) :
    counts.2.2.1 =
      ((stagedPairNames runId db).toFinset \ (memberPairs accountId db).toFinset).card := by
  obtain ⟨run, -, -, hcounts⟩ := h.counts
  have hkeys := h.valid.keys
  rw [hcounts]
  show countMemberAdditions runId accountId (withListed listIds runId accountId db) = _
  have hadded : countMemberAdditions runId accountId (withListed listIds runId accountId db) =
      ((stagedPairs runId accountId (withListed listIds runId accountId db)).filter fun pair =>
        !isMember (withListed listIds runId accountId db) pair).length := by
    rw [countMemberAdditions, h.pairs_nodup.dedup]
    rfl
  rw [hadded, ← List.toFinset_card_of_nodup (h.pairs_nodup.sublist List.filter_sublist),
    ← memberPairs_listed hvalid h.valid]
  refine Finset.card_bij
    (fun pair _ => pairName (withListed listIds runId accountId db) pair) ?_ ?_ ?_
  · intro pair hpair
    obtain ⟨hstaged, hnew⟩ := List.mem_filter.mp (List.mem_toFinset.mp hpair)
    obtain ⟨hown, hname⟩ := stagedPair_named hkeys hstaged
    refine Finset.mem_sdiff.mpr ⟨List.mem_toFinset.mpr hname, fun hmember => ?_⟩
    rw [(isMember_iff h.valid hown).mpr (List.mem_toFinset.mp hmember)] at hnew
    cases hnew
  · intro pair hpair pair' hpair' hname
    obtain ⟨hstaged, -⟩ := List.mem_filter.mp (List.mem_toFinset.mp hpair)
    obtain ⟨hstaged', -⟩ := List.mem_filter.mp (List.mem_toFinset.mp hpair')
    exact (stagedPair_named hkeys hstaged).1.eq_of_pairName hkeys
      (stagedPair_named hkeys hstaged').1 hname
  · intro x hx
    obtain ⟨hx, hfar⟩ := Finset.mem_sdiff.mp hx
    obtain ⟨pair, hstaged, rfl⟩ := exists_stagedPair hkeys hcatalogued (List.mem_toFinset.mp hx)
    refine ⟨pair, List.mem_toFinset.mpr (List.mem_filter.mpr ⟨hstaged, ?_⟩), rfl⟩
    rw [Bool.not_eq_true']
    by_contra hmember
    exact hfar (List.mem_toFinset.mpr ((isMember_iff h.valid (stagedPair_named hkeys hstaged).1).mp
      (Bool.not_eq_false _ ▸ hmember)))

/-- **The removals** are the member pairs that were not staged. -/
theorem ListSwapping.removals_eq
    (h : ListSwapping listIds memberIds removalIds now runId accountId db db' counts)
    (hvalid : Constraints db) : counts.2.2.2 =
      ((memberPairs accountId db).toFinset \ (stagedPairNames runId db).toFinset).card := by
  obtain ⟨run, -, -, hcounts⟩ := h.counts
  have hkeys := h.valid.keys
  rw [hcounts]
  show (demotedPairs runId accountId (withListed listIds runId accountId db)).length = _
  rw [← List.toFinset_card_of_nodup (demotedPairs_nodup hkeys), ← memberPairs_listed hvalid h.valid]
  -- A demoted pair is a member row of the account whose name is not staged.
  have hdemoted : ∀ pair, pair ∈ demotedPairs runId accountId (withListed listIds runId accountId db) ↔
      ∃ m ∈ db.starListMemberships, m.key = pair ∧ m.member = true ∧
        m.ofAccount accountId (withListed listIds runId accountId db) = true ∧
        pairName (withListed listIds runId accountId db) m.key ∉ stagedPairNames runId db := by
    intro pair
    rw [demotedPairs, List.mem_map]
    constructor
    · rintro ⟨m, hm, rfl⟩
      obtain ⟨hm, habsent⟩ := List.mem_filter.mp hm
      exact ⟨m, hm, rfl, (absentFrom_iff h.valid hm).mp habsent⟩
    · rintro ⟨m, hm, rfl, habsent⟩
      exact ⟨m, List.mem_filter.mpr ⟨hm, (absentFrom_iff h.valid hm).mpr habsent⟩, rfl⟩
  refine Finset.card_bij
    (fun pair _ => pairName (withListed listIds runId accountId db) pair) ?_ ?_ ?_
  · intro pair hpair
    obtain ⟨m, hm, rfl, hmember, hown, hfar⟩ := (hdemoted pair).mp (List.mem_toFinset.mp hpair)
    refine Finset.mem_sdiff.mpr ⟨List.mem_toFinset.mpr (List.mem_map.mpr ⟨m, ?_, rfl⟩), ?_⟩
    · refine List.mem_filter.mpr ⟨hm, ?_⟩
      rw [hmember, hown]
      rfl
    · exact fun hstaged => hfar (List.mem_toFinset.mp hstaged)
  · intro pair hpair pair' hpair' hname
    obtain ⟨m, hm, rfl, -, hown, -⟩ := (hdemoted pair).mp (List.mem_toFinset.mp hpair)
    obtain ⟨m', hm', rfl, -, hown', -⟩ := (hdemoted pair').mp (List.mem_toFinset.mp hpair')
    exact (ownPair_of_ofAccount h.valid hm hown).eq_of_pairName hkeys
      (ownPair_of_ofAccount h.valid hm' hown') hname
  · intro x hx
    obtain ⟨hx, hfar⟩ := Finset.mem_sdiff.mp hx
    obtain ⟨m, hm, rfl⟩ := List.mem_map.mp (List.mem_toFinset.mp hx)
    obtain ⟨hm, hcond⟩ := List.mem_filter.mp hm
    obtain ⟨hmember, hown⟩ := Bool.and_eq_true_iff.mp hcond
    exact ⟨m.key, List.mem_toFinset.mpr ((hdemoted _).mpr ⟨m, hm, rfl, hmember, hown,
      fun hstaged => hfar (List.mem_toFinset.mpr hstaged)⟩), rfl⟩

/-- A pair of the account is staged exactly when its name is. -/
theorem staged_iff_named (hkeys : Keys (withListed listIds runId accountId db))
    (hcatalogued : StagedCatalogued runId db) {pair : Uuid × Uuid}
    (hown : OwnPair accountId (withListed listIds runId accountId db) pair) :
    pair ∈ stagedPairs runId accountId (withListed listIds runId accountId db) ↔
      pairName (withListed listIds runId accountId db) pair ∈ stagedPairNames runId db := by
  refine ⟨fun h => (stagedPair_named hkeys h).2, fun h => ?_⟩
  obtain ⟨other, hstaged, hname⟩ := exists_stagedPair hkeys hcatalogued h
  rw [hown.eq_of_pairName hkeys (stagedPair_named hkeys hstaged).1 hname.symm]
  exact hstaged

/-- A swap changes the name of no pair. -/
theorem ListSwapping.pair_kept
    (h : ListSwapping listIds memberIds removalIds now runId accountId db db' counts)
    (hvalid : Constraints db') {m : StarListMembership} (hm : m ∈ db'.starListMemberships) :
    m.ofAccount accountId db' = m.ofAccount accountId (withListed listIds runId accountId db) ∧
      pairName db' m.key = pairName (withListed listIds runId accountId db) m.key := by
  obtain ⟨l, hl, hid⟩ := List.mem_map.mp (hvalid.foreignKeys.memberships_list m hm m.listId rfl)
  obtain ⟨r, hr, hrepo⟩ :=
    List.mem_map.mp (hvalid.foreignKeys.memberships_repository m hm m.repositoryId rfl)
  obtain ⟨l', hl', hid', -, hprovider⟩ := h.list_cases hl
  refine ⟨?_, ?_⟩
  · rw [Bool.eq_iff_iff, ofAccount_iff, ofAccount_iff]
    constructor
    · rintro ⟨x, hx, haccount, hlist⟩
      obtain ⟨x', hx', hxid, hxaccount, -⟩ := h.list_cases hx
      exact ⟨x', hx', hxaccount.symm.trans haccount, hxid.symm.trans hlist⟩
    · rintro ⟨x, hx, haccount, hlist⟩
      obtain ⟨x', hx', hxid, hxaccount, -⟩ := h.exists_list hx
      exact ⟨x', hx', hxaccount.trans haccount, hxid.trans hlist⟩
  · rw [pairName_eq hvalid.keys hl hid hr hrepo,
      pairName_eq h.valid.keys hl' (hid'.symm.trans hid) (h.repositories ▸ hr) hrepo, hprovider]

/-- **All pairs after a swap**: the staged ones, and the others as former members. -/
theorem ListSwapping.mem_pairRows
    (h : ListSwapping listIds memberIds removalIds now runId accountId db db' counts)
    (hvalid : Constraints db) (hvalid' : Constraints db') (hcatalogued : StagedCatalogued runId db)
    {x : (String × ℤ) × Bool} : x ∈ pairRows accountId db' ↔
      (x.1 ∈ stagedPairNames runId db ∧ x.2 = true) ∨
      (x.1 ∉ stagedPairNames runId db ∧ x.2 = false ∧ ∃ b, (x.1, b) ∈ pairRows accountId db) := by
  have hkeys := h.valid.keys
  simp only [pairRows, List.mem_map, List.mem_filter]
  constructor
  · rintro ⟨m, ⟨hm, hown⟩, rfl⟩
    obtain ⟨hown', hname⟩ := h.pair_kept hvalid' hm
    rw [hown'] at hown
    rw [h.memberships] at hm
    obtain ⟨m', hm', rfl⟩ := mem_updateWhere.mp hm
    have hkey : (if m'.absentFrom runId accountId (withListed listIds runId accountId db) then
        m'.demote now runId else m').key = m'.key := by
      split <;> rfl
    dsimp only
    rw [hname, hkey]
    rcases promoted_cases h.pairs_nodup hm' with ⟨hstaged, hmember⟩ | ⟨hold, hfar⟩
    · rw [not_absentFrom_of_staged hkeys hstaged]
      exact .inl ⟨(stagedPair_named hkeys hstaged).2, hmember⟩
    · have hsameOwn : m'.ofAccount accountId (withListed listIds runId accountId db) = true := by
        split at hown <;> exact hown
      have hpair := ownPair_of_ofAccount h.valid hold hsameOwn
      have hunstaged : pairName (withListed listIds runId accountId db) m'.key ∉
          stagedPairNames runId db := fun hin => hfar ((staged_iff_named hkeys hcatalogued hpair).mpr hin)
      obtain ⟨hprior, hpriorName⟩ := listed_pair hvalid h.valid hold
      refine .inr ⟨hunstaged, ?_, m'.member, m', ⟨hold, hprior ▸ hsameOwn⟩, by rw [hpriorName]⟩
      split
      · rfl
      · next hpresent =>
        cases hmember : m'.member with
        | false => rfl
        | true =>
          exact absurd ((absentFrom_iff h.valid hold).mpr ⟨hmember, hsameOwn, hunstaged⟩) hpresent
  · rintro (⟨hstaged, htrue⟩ | ⟨hfar, hfalse, b, m, ⟨hm, hown⟩, hsame⟩)
    · have hmember := (h.mem_memberPairs hvalid' hcatalogued).mpr hstaged
      obtain ⟨m, hm, hname⟩ := List.mem_map.mp hmember
      obtain ⟨hm, hcond⟩ := List.mem_filter.mp hm
      obtain ⟨hmem, hown⟩ := Bool.and_eq_true_iff.mp hcond
      exact ⟨m, ⟨hm, hown⟩, Prod.ext hname (hmem.trans htrue.symm)⟩
    · obtain ⟨hlisted, hlistedName⟩ := listed_pair hvalid h.valid hm
      have hname : pairName db m.key = x.1 := (Prod.mk.inj hsame).1
      have hsameOwn := hlisted.trans hown
      have hunstaged : pairName (withListed listIds runId accountId db) m.key ∉
          stagedPairNames runId db := by
        rw [hlistedName, hname]
        exact hfar
      have hfree : m.key ∉ stagedPairs runId accountId (withListed listIds runId accountId db) :=
        fun hin => hunstaged (stagedPair_named hkeys hin).2
      have hrow : (if m.absentFrom runId accountId (withListed listIds runId accountId db) then
          m.demote now runId else m) ∈ db'.starListMemberships := by
        rw [h.memberships]
        exact mem_updateWhere.mpr ⟨m, old_mem_promoted h.pairs_nodup hm hfree, rfl⟩
      have hkey : (if m.absentFrom runId accountId (withListed listIds runId accountId db) then
          m.demote now runId else m).key = m.key := by
        split <;> rfl
      obtain ⟨hown', hname'⟩ := h.pair_kept hvalid' hrow
      refine ⟨_, ⟨hrow, ?_⟩, Prod.ext ?_ ?_⟩
      · rw [hown', ← hsameOwn]
        split <;> rfl
      · exact (hname'.trans (by rw [hkey, hlistedName])).trans hname
      · rw [hfalse]
        dsimp only
        split
        · rfl
        · next hpresent =>
          cases hmember : m.member with
          | false => rfl
          | true =>
            exact absurd ((absentFrom_iff h.valid hm).mpr ⟨hmember, hsameOwn, hunstaged⟩) hpresent

end swapped

end GithubCatalog
