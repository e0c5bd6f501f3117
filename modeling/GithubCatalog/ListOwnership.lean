import GithubCatalog.ErasureEvidence
import GithubCatalog.ListPairs
import GithubCatalog.SnapshotAtomicity

/-!
# Whose lists a list snapshot writes

Provider list ids are unique per account only.  Every join of the swap but one asks for the account;
`record_membership_observations` joins the lists by provider id alone, so the observations of a run
also reach the lists of other accounts that see the same list.

* `ListFramed` - outside the account's lists the three list tables are unchanged;
* `Observed` - one member observation for each staged pair, and none for another;
* `listSwap_framed_iff` - a swap is framed exactly when it reaches no list of another account;
* `listRuns_framed` - along every interleaving of attempts and other flows.
-/

namespace GithubCatalog

open Relational Runs Transact

/-- Whether a list is the account's. -/
def listOf (accountId : Uuid) (db : Database) (listId : Uuid) : Bool :=
  db.starLists.any fun l => decide (l.accountId = accountId) && decide (l.listId = listId)

/-- The rows of the three list tables that are not of the account's lists are as they were. -/
structure ListFramed (accountId : Uuid) (db db' : Database) : Prop where
  lists : db'.starLists.filter (fun l => !decide (l.accountId = accountId)) =
    db.starLists.filter fun l => !decide (l.accountId = accountId)
  memberships : db'.starListMemberships.filter (fun m => !listOf accountId db' m.listId) =
    db.starListMemberships.filter fun m => !listOf accountId db' m.listId
  observations : db'.starListMembershipObservations.filter (fun o => !listOf accountId db' o.listId) =
    db.starListMembershipObservations.filter fun o => !listOf accountId db' o.listId

/-- Each staged pair of the account's lists is observed once, and no other pair of them. -/
def Observed (runId accountId : Uuid) (db db' : Database) : Prop :=
  ∀ l ∈ db'.starLists, l.accountId = accountId → ∀ r ∈ db'.repositories,
    observationsOf true (l.listId, r.repositoryId) (newObservations db db') =
      if (l.providerListId, r.providerRepositoryId) ∈ stagedPairNames runId db then 1 else 0

/-- A run reaches only the account's lists. -/
def ReachesOwn (runId accountId : Uuid) (db : Database) : Prop :=
  ∀ l ∈ db.starLists, reachesList runId db l = true → l.accountId = accountId

instance (runId accountId : Uuid) (db : Database) : Decidable (ReachesOwn runId accountId db) :=
  inferInstanceAs (Decidable (∀ l ∈ db.starLists, _ → _))

theorem listOf_iff {accountId listId : Uuid} {db : Database} : listOf accountId db listId = true ↔
    ∃ l ∈ db.starLists, l.accountId = accountId ∧ l.listId = listId := by
  simp [listOf]

theorem listFramed_of_rows {accountId : Uuid} {db db' : Database}
    (h : ∀ t ∈ [Table.starLists, .starListMemberships, .starListMembershipObservations],
      db'.rows t = db.rows t) : ListFramed accountId db db' := by
  have hlists : db'.starLists = db.starLists := h .starLists (by decide)
  have hmembers : db'.starListMemberships = db.starListMemberships :=
    h .starListMemberships (by decide)
  have hobs : db'.starListMembershipObservations = db.starListMembershipObservations :=
    h .starListMembershipObservations (by decide)
  exact ⟨by rw [hlists], by rw [hmembers], by rw [hobs]⟩

/-! ### The swap -/

section swap

variable {listIds memberIds removalIds : ℕ → Uuid} {now : Time} {runId accountId : Uuid}
  {db db' : Database} {counts : ℕ × ℕ × ℕ × ℕ}

/-- A list belongs to the account after the swap exactly when it does after the upsert. -/
theorem ListSwapping.listOf_eq
    (h : ListSwapping listIds memberIds removalIds now runId accountId db db' counts) (listId : Uuid) :
    listOf accountId db' listId = listOf accountId (withListed listIds runId accountId db) listId := by
  rw [Bool.eq_iff_iff, listOf_iff, listOf_iff]
  constructor
  · rintro ⟨l, hl, haccount, hid⟩
    obtain ⟨l', hl', hid', haccount', -⟩ := h.list_cases hl
    exact ⟨l', hl', haccount'.symm.trans haccount, hid'.symm.trans hid⟩
  · rintro ⟨l, hl, haccount, hid⟩
    obtain ⟨l', hl', hid', haccount', -⟩ := h.exists_list hl
    exact ⟨l', hl', haccount'.trans haccount, hid'.trans hid⟩

theorem listOf_of_staged {db : Database} {pair : Uuid × Uuid}
    (h : pair ∈ stagedPairs runId accountId db) : listOf accountId db pair.1 = true := by
  obtain ⟨i, -, r, -, l, hl, haccount, -, rfl⟩ := mem_stagedPairs.mp h
  exact listOf_iff.mpr ⟨l, hl, haccount, rfl⟩

theorem listOf_of_absent {db : Database} {m : StarListMembership}
    (h : m.absentFrom runId accountId db = true) : listOf accountId db m.listId = true := by
  obtain ⟨l, hl, hcond⟩ := List.any_eq_true.mp (Bool.and_eq_true_iff.mp h).2
  simp only [Bool.and_eq_true, decide_eq_true_eq] at hcond
  exact listOf_iff.mpr ⟨l, hl, hcond.1.1, hcond.1.2⟩

/-- The account's staged pairs are the ones of all accounts that are on its lists. -/
theorem stagedPairs_eq_filter {db : Database} (hkeys : Keys db) :
    stagedPairs runId accountId db =
      (stagedPairsAnywhere runId db).filter fun pair => listOf accountId db pair.1 := by
  rw [stagedPairs, stagedPairsAnywhere, stagedPairsWhere, stagedPairsWhere, List.filter_flatMap]
  congr 1
  funext i
  cases repositoryOf i.providerRepositoryId db with
  | none => rfl
  | some r =>
    show List.map _ _ = List.filter _ (List.map _ _)
    rw [List.filter_map, List.filter_filter]
    refine congrArg (List.map _) (List.filter_congr fun l hl => ?_)
    have hown : listOf accountId db l.listId = decide (l.accountId = accountId) := by
      rw [Bool.eq_iff_iff, listOf_iff, decide_eq_true_eq]
      constructor
      · rintro ⟨l', hl', haccount, hid⟩
        rw [← hkeys.lists.eq_of_mem hl' hl hid]
        exact haccount
      · exact fun haccount => ⟨l, hl, haccount, rfl⟩
    simp only [Function.comp, hown, Bool.true_and]

/-- The lists and memberships of other accounts. -/
theorem ListSwapping.framed_rows
    (h : ListSwapping listIds memberIds removalIds now runId accountId db db' counts) :
    db'.starLists.filter (fun l => !decide (l.accountId = accountId)) =
        db.starLists.filter (fun l => !decide (l.accountId = accountId)) ∧
      db'.starListMemberships.filter (fun m => !listOf accountId db' m.listId) =
        db.starListMemberships.filter fun m => !listOf accountId db' m.listId := by
  constructor
  · rw [h.lists, filter_updateWhere_rejected, listedLists, filter_upsertAll]
    · intro row hrow
      have haccount := (mem_proposedLists hrow).1
      refine ⟨by simp [haccount], fun l hkey => ?_⟩
      have hsame : l.accountId = accountId := (Prod.mk.inj hkey).1.trans haccount
      exact ⟨by simp [hsame], by simp [StarList.relisted, hsame]⟩
    · intro l hunlisted
      have hsame : l.accountId = accountId := by
        simp only [StarList.unlistedBy, Bool.and_eq_true, decide_eq_true_eq] at hunlisted
        exact hunlisted.1.1
      exact ⟨by simp [hsame], by simp [StarList.tombstone, hsame]⟩
  · simp only [h.listOf_eq]
    rw [h.memberships, filter_updateWhere_rejected, filter_upsertAll]
    · intro row hrow
      obtain ⟨pair, hpair, rfl⟩ := List.mem_map.mp hrow
      have hown := listOf_of_staged hpair
      refine ⟨by simp [hown], fun m hkey => ?_⟩
      have hlist : m.listId = pair.1 := (Prod.mk.inj hkey).1
      exact ⟨by simp [hlist, hown], by simp [StarListMembership.promoted, hlist, hown]⟩
    · intro m habsent
      have hown := listOf_of_absent habsent
      exact ⟨by simp [hown], by simp [StarListMembership.demote, hown]⟩

/-- What a run reaches after the upsert, it reaches before, or it is the account's. -/
theorem reachesOwn_listed (h : ReachesOwn runId accountId db) :
    ReachesOwn runId accountId (withListed listIds runId accountId db) := by
  intro l hl hreach
  rcases listed_cases hl with ⟨old, hold, -, haccount, hprovider⟩ | haccount
  · rw [← haccount]
    refine h old hold ?_
    rw [reachesList, hprovider]
    exact hreach
  · exact haccount

/-- A swap that reaches only the account's lists is framed. -/
theorem ListSwapping.framed
    (h : ListSwapping listIds memberIds removalIds now runId accountId db db' counts)
    (hreach : ReachesOwn runId accountId db) : ListFramed accountId db db' := by
  obtain ⟨hlists, hmembers⟩ := h.framed_rows
  refine ⟨hlists, hmembers, ?_⟩
  simp only [h.listOf_eq]
  rw [h.observations, List.append_assoc, List.filter_append]
  refine (congrArg _ ?_).trans (List.append_nil _)
  rw [List.filter_eq_nil_iff]
  intro o ho
  simp only [Bool.not_eq_true', Bool.not_eq_false]
  rcases List.mem_append.mp ho with hseen | hgone
  · obtain ⟨⟨pair, n⟩, hpair, rfl⟩ := List.mem_map.mp hseen
    obtain ⟨l, hl, -, hreached, hid⟩ := mem_stagedPairsWhere (List.fst_mem_of_mem_zipIdx hpair)
    exact listOf_iff.mpr ⟨l, hl, reachesOwn_listed hreach l hl hreached, hid⟩
  · obtain ⟨⟨pair, n⟩, hpair, rfl⟩ := List.mem_map.mp hgone
    obtain ⟨m, hm, hkey⟩ := List.mem_map.mp (List.fst_mem_of_mem_zipIdx hpair)
    have hlist : m.listId = pair.1 := congrArg Prod.fst hkey
    rw [← hlist]
    exact listOf_of_absent (List.mem_filter.mp hm).2

/-- A reached list has an observation. -/
theorem exists_stagedPairAnywhere {db : Database} {l : StarList} (hl : l ∈ db.starLists)
    (hreach : reachesList runId db l = true) :
    ∃ r, (l.listId, r) ∈ stagedPairsAnywhere runId db := by
  obtain ⟨i, hi, hcond⟩ := List.any_eq_true.mp hreach
  obtain ⟨hprovider, hsome⟩ := Bool.and_eq_true_iff.mp hcond
  obtain ⟨r, hrepo⟩ := Option.isSome_iff_exists.mp hsome
  refine ⟨r.repositoryId, List.mem_flatMap.mpr ⟨i, hi, ?_⟩⟩
  rw [hrepo]
  refine List.mem_map.mpr ⟨l, List.mem_filter.mpr ⟨hl, ?_⟩, rfl⟩
  rw [Bool.true_and]
  exact decide_eq_true (of_decide_eq_true hprovider).symm

/-- **The exact frame of a swap.** -/
theorem listSwap_framed_iff
    (h : ListSwapping listIds memberIds removalIds now runId accountId db db' counts) :
    ListFramed accountId db db' ↔ ReachesOwn runId accountId db := by
  refine ⟨fun hframed l hl hreach => ?_, h.framed⟩
  obtain ⟨l', hl', hid, haccount, hprovider⟩ := @exists_listed listIds runId accountId db l hl
  have hreach' : reachesList runId (withListed listIds runId accountId db) l' = true := by
    rw [reachesList, hprovider]
    exact hreach
  obtain ⟨r, hpair⟩ := exists_stagedPairAnywhere hl' hreach'
  -- Framed observations are all on the account's lists.
  have hnone : (pairObservations memberIds now runId true (stagedPairsAnywhere runId
      (withListed listIds runId accountId db))).filter (fun o => !listOf accountId db' o.listId) =
        [] := by
    have hsame := hframed.observations
    rw [h.observations, List.append_assoc, List.filter_append, List.filter_append] at hsame
    exact (List.append_eq_nil_iff.mp (List.append_right_eq_self.mp hsame)).1
  obtain ⟨n, hn⟩ := List.getElem?_of_mem hpair
  have hobserved := List.filter_eq_nil_iff.mp hnone
    ⟨memberIds n, l'.listId, r, true, now, some runId⟩
    (List.mem_map.mpr ⟨((l'.listId, r), n), List.mk_mem_zipIdx_iff_getElem?.mpr hn, rfl⟩)
  simp only [Bool.not_eq_true', Bool.not_eq_false, h.listOf_eq] at hobserved
  obtain ⟨own, hown, hownAccount, hownId⟩ := listOf_iff.mp hobserved
  rw [← haccount, ← h.valid.keys.lists.eq_of_mem hown hl' hownId]
  exact hownAccount

/-- A swap observes each staged pair of its account once. -/
theorem ListSwapping.observed
    (h : ListSwapping listIds memberIds removalIds now runId accountId db db' counts) :
    Observed runId accountId db db' := by
  intro l hl haccount r hr
  obtain ⟨l', hl', hid, haccount', hprovider⟩ := h.list_cases hl
  rw [h.repositories] at hr
  have hkeys := h.valid.keys
  have hfalse := observationsOf_pairObservations_not removalIds now runId false
    (demotedPairs runId accountId (withListed listIds runId accountId db)) (l.listId, r.repositoryId)
  rw [Bool.not_false] at hfalse
  rw [h.newObservations_eq, observationsOf, List.countP_append, ← observationsOf, ← observationsOf,
    observationsOf_pairObservations, hfalse, Nat.add_zero]
  have hown : listOf accountId (withListed listIds runId accountId db) l.listId = true :=
    listOf_iff.mpr ⟨l', hl', haccount'.symm.trans haccount, hid.symm⟩
  have hcount : (stagedPairsAnywhere runId (withListed listIds runId accountId db)).count
      (l.listId, r.repositoryId) =
        (stagedPairs runId accountId (withListed listIds runId accountId db)).count
          (l.listId, r.repositoryId) := by
    rw [stagedPairs_eq_filter hkeys, List.count_filter]
    exact hown
  have hname : pairName (withListed listIds runId accountId db) (l.listId, r.repositoryId) =
      (l.providerListId, r.providerRepositoryId) := by
    rw [hprovider]
    exact pairName_eq hkeys hl' hid.symm hr rfl
  rw [hcount]
  split
  · next hstaged =>
    refine List.count_eq_one_of_mem h.pairs_nodup ?_
    obtain ⟨i, hi, hpair⟩ := List.mem_map.mp hstaged
    obtain ⟨hlist, hpid⟩ := Prod.mk.inj hpair
    refine mem_stagedPairs.mpr ⟨i, hi, r, ?_, l', hl', haccount'.symm.trans haccount, ?_, ?_⟩
    · rw [hpid]
      exact repositoryOf_eq hkeys hr
    · rw [← hprovider, hlist]
    · rw [hid]
  · next hfar =>
    rw [List.count_eq_zero]
    intro hmem
    have hstaged := (stagedPair_named hkeys hmem).2
    rw [hname] at hstaged
    exact hfar hstaged

end swap

/-! ### Attempts and other flows -/

namespace Attempt

variable {Page Place : Type} {e : Enumeration Page Place} {i : AttemptInput Page} {now : Time}
  {c c' : Catalog} {accountId : Uuid} {phase next : AttemptPhase Page Place}

/-- A step of an attempt leaves every list table alone, or is the swap. -/
theorem Turn.lists_kept (hlaw : e.Lawful) (h : Turn e i now c accountId phase next c') :
    (∀ t ∈ [Table.starLists, .starListMemberships, .starListMembershipObservations],
      c'.tables.rows t = c.tables.rows t) ∨
    ∃ runId summary, phase = .applying runId ∧
      e.apply i.ids now runId accountId c = .ok (summary, c') := by
  have hframe : ∀ {ts : List Table} {α : Type} {x : Tx α} {b : α}, Touches ts x → x c = .ok (b, c') →
      (∀ t ∈ [Table.starLists, .starListMemberships, .starListMembershipObservations], t ∉ ts) →
      ∀ t ∈ [Table.starLists, .starListMemberships, .starListMembershipObservations],
        c'.tables.rows t = c.tables.rows t := by
    intro ts α x b hx hok hts t ht
    exact hx.rows_eq hok (hts t ht)
  cases h with
  | inserted _ _ hok => exact .inl (hframe (touches_insertSyncRun _ _ _ _) hok (by decide))
  | failed _ _ _ _ hok => exact .inl (hframe (touches_failRun _ _ _) hok (by decide))
  | catalogued _ _ _ _ _ _ _ _ hok =>
    exact .inl (hframe (touches_upsertRepositoryInTx _ _) hok (by decide))
  | named _ _ _ _ _ _ _ _ _ hok =>
    exact .inl (hframe (touches_applyAliasObservation _ _ _ _ _ _) hok (by decide))
  | recorded runId _ _ _ _ hok => exact .inl (hframe (hlaw.record_frame _ _ _ _ _) hok (by decide))
  | applied runId summary _ _ hok => exact .inr ⟨runId, summary, rfl, hok⟩
  | _ => exact .inl fun _ _ => rfl

end Attempt

/-- A step of a list attempt writes the account's lists only, and a step that completes its run
observed each staged pair once. -/
def ListStepFramed (k : Contracts) (s : Snapshots UserListsPage (Option String)) :
    SnapshotEvent UserListsPage → Prop
  | .advance n i => ∀ a ∈ s.attempts[n]?,
    let done := (s.step k listEnumeration (.advance n i)).catalog.tables
    ListFramed a.accountId s.catalog.tables done ∧
      ∀ runId, a.phase = .applying runId → RunOpen runId s.catalog.tables → ¬ RunOpen runId done →
        Observed runId a.accountId s.catalog.tables done
  | .catalog _ => True

/-- The run that an attempt is about to apply reaches the account's lists only. -/
def Attempt.AppliesOwn (db : Database) (a : Attempt UserListsPage (Option String)) : Prop :=
  match a.phase with
  | .applying runId => ReachesOwn runId a.accountId db
  | _ => True

instance (db : Database) (a : Attempt UserListsPage (Option String)) :
    Decidable (a.AppliesOwn db) := by
  unfold Attempt.AppliesOwn
  cases a.phase <;> infer_instance

/-- **The condition.**  When an attempt applies a run, no list of another account has a provider id
that the run staged. -/
def AppliesOwn (s : Snapshots UserListsPage (Option String)) :
    SnapshotEvent UserListsPage → Prop
  | .advance n _ => ∀ a ∈ s.attempts[n]?, a.AppliesOwn s.catalog.tables
  | .catalog _ => True

instance decidableAppliesOwn (s : Snapshots UserListsPage (Option String)) :
    ∀ event, Decidable (AppliesOwn s event)
  | .advance n _ => inferInstanceAs (Decidable (∀ a ∈ s.attempts[n]?, a.AppliesOwn _))
  | .catalog _ => inferInstanceAs (Decidable True)

/-- One step that meets the condition. -/
theorem listStep_framed (k : Contracts) {s : Snapshots UserListsPage (Option String)}
    {event : SnapshotEvent UserListsPage} (h : AppliesOwn s event) : ListStepFramed k s event := by
  cases event with
  | catalog => exact trivial
  | advance n i =>
    intro a hattempt
    have hown := h a hattempt
    have hnext : (s.step k listEnumeration (.advance n i)).catalog =
        (a.next listEnumeration i (s.clock + i.elapsed) s.catalog).2 := by
      have hfound : s.attempts[n]? = some a := hattempt
      simp only [Snapshots.step, hfound]
    simp only [hnext]
    -- A stopped process and a refused statement leave the catalog as it is.
    have hsame : ListFramed a.accountId s.catalog.tables s.catalog.tables :=
      listFramed_of_rows fun _ _ => rfl
    cases hstopped : a.stopped with
    | true =>
      rw [Attempt.next, if_pos hstopped]
      exact ⟨hsame, fun _ _ hopen hdone => absurd hopen hdone⟩
    | false =>
      rw [Attempt.next_catalog hstopped]
      have hturn := Attempt.turn listEnumeration i (s.clock + i.elapsed) s.catalog a
      rcases hturn.lists_kept listEnumeration_lawful with hkept | ⟨runId, summary, hphase, hok⟩
      · refine ⟨listFramed_of_rows hkept, fun runId hphase hopen hdone => ?_⟩
        rw [hphase] at hturn
        rcases hturn.applying_cases with ⟨summary, hok, -⟩ | ⟨-, hrefused⟩
        · obtain ⟨counts, c', hswap, hpure⟩ := Tx.bind_eq_ok.mp hok
          obtain ⟨-, heq⟩ := Tx.pure_eq_ok.mp hpure
          rw [← heq]
          exact (applyListAuthority_swapping hswap).observed
        · rw [hrefused] at hdone
          exact absurd hopen hdone
      · obtain ⟨counts, c', hswap, hpure⟩ := Tx.bind_eq_ok.mp hok
        obtain ⟨-, heq⟩ := Tx.pure_eq_ok.mp hpure
        rw [← heq]
        have hswapping := applyListAuthority_swapping hswap
        have hreach : ReachesOwn runId a.accountId s.catalog.tables := by
          rw [Attempt.AppliesOwn, hphase] at hown
          exact hown
        refine ⟨hswapping.framed hreach, fun r hr _ _ => ?_⟩
        rw [hphase] at hr
        cases hr
        exact hswapping.observed

/-- **List snapshots write their own account's lists.**  Along every interleaving of list attempts of
any number of accounts with the other flows, if no applied run reaches a list of another account, then
every step of an attempt is framed, and every completion observed each staged pair once. -/
theorem listRuns_framed (k : Contracts) (s : Snapshots UserListsPage (Option String))
    (events : List (SnapshotEvent UserListsPage))
    (h : Guarded (Snapshots.step k listEnumeration) AppliesOwn s events) :
    Guarded (Snapshots.step k listEnumeration) (ListStepFramed k) s events :=
  h.mono fun _ _ hown => listStep_framed k hown

/-- A step of a list attempt in which everything goes well. -/
def listInput (fresh : Uuid) (page : UserListsPage) : AttemptInput UserListsPage :=
  ⟨1, .served, false, fresh, fun n m => fresh + BitVec.ofNat 128 (16 * n + m), true, .ok page⟩

/-- Account 1 has a list; account 2 is about to take its first snapshot. -/
def firstListSnapshot : Snapshots UserListsPage (Option String) :=
  ⟨runFrom (step sampleContracts) emptyCatalog
    ([importOwners, connectAccount 1 7, connectAccount 2 7, .upsertRepository 1 101] ++
      listSnapshot 10 1 "list-a"), 0, [⟨2, .opening, false⟩]⟩

/-- One attempt from its start up to its swap: a page with one list, then the empty page. -/
def listSnapshotRun (providerListId : String) : List (SnapshotEvent UserListsPage) :=
  (List.range 12).map fun j => .advance 0 (listInput (BitVec.ofNat 128 (2000 + 100 * j))
    (if j < 5 then ⟨[⟨providerListId, "reading", [⟨101, "owner/name"⟩], false⟩], some "next"⟩
      else ⟨[], none⟩))

/-- The step of the swap. -/
def listSwapStep : SnapshotEvent UserListsPage := .advance 0 (listInput 9000 ⟨[], none⟩)

theorem listRuns_framed_other :
    (runFrom (Snapshots.step sampleContracts listEnumeration) firstListSnapshot
        (listSnapshotRun "list-b")).attempts = [⟨2, .applying 2100, false⟩] ∧
      Guarded (Snapshots.step sampleContracts listEnumeration) (ListStepFramed sampleContracts)
        firstListSnapshot (listSnapshotRun "list-b" ++ [listSwapStep]) :=
  ⟨by decide +kernel, listRuns_framed sampleContracts firstListSnapshot _ (by decide +kernel)⟩

/-- **A shared list.**  Both accounts see the list `list-a`; the snapshot of account 2 adds an
observation to account 1's list. -/
theorem observes_other_account :
    let s := runFrom (Snapshots.step sampleContracts listEnumeration) firstListSnapshot
      (listSnapshotRun "list-a")
    s.attempts = [⟨2, .applying 2100, false⟩] ∧ ¬ ListStepFramed sampleContracts s listSwapStep := by
  refine ⟨by decide +kernel, fun h => ?_⟩
  have hframed := (h ⟨2, .applying 2100, false⟩ (by decide +kernel)).1.observations
  revert hframed
  decide +kernel

end GithubCatalog
