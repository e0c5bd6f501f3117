import GithubCatalog.ListOwnership
import GithubCatalog.ListProgress

/-!
# What a completed list snapshot establishes

Over an enumeration that stands still, with pauses, crashes and resumed attempts anywhere: when an
attempt reports a completed run, the account's pairs are the enumerated ones, with evidence for what
is gone and the two counts; its lists are the enumerated ones exactly when every enumerated list has a
member, because a list is staged only through its members.

* `ListsExact` - lists, pairs, evidence and counts, as enumerated;
* `Snapshots.Completes` - an attempt reports the completion of the run;
* `listSnapshot_exact_iff` - exact if and only if no enumerated list is empty.
-/

namespace GithubCatalog

open Relational Runs Transact

/-- The account's lists and pairs are the enumerated ones, what is gone is evidenced, and the counts
are the differences of the pair sets. -/
structure ListsExact (accountId runId : Uuid) (lists : List UserListNode) (prior db : Database)
    (summary : Summary) : Prop where
  active : ∀ p name, (p, name) ∈ activeLists accountId db ↔
    ∃ l ∈ lists, l.providerListId = p ∧ l.name = name
  members : ∀ x, x ∈ memberPairs accountId db ↔ x ∈ listedPairs lists
  removed : ∀ l ∈ prior.starLists, l.accountId = accountId → l.status = .active →
    l.providerListId ∉ lists.map (·.providerListId) → ∃ now, l.tombstone now runId ∈ db.starLists
  demoted : ∀ m ∈ prior.starListMemberships, m.member = true → m.ofAccount accountId prior = true →
    pairName prior m.key ∉ listedPairs lists →
      (∃ now, m.demote now runId ∈ db.starListMemberships) ∧
        observationsOf false m.key (newObservations prior db) = 1
  additions : summary.additions =
    ((listedPairs lists).toFinset \ (memberPairs accountId prior).toFinset).card
  removals : summary.removals =
    ((memberPairs accountId prior).toFinset \ (listedPairs lists).toFinset).card

/-! ### Staged names -/

/-- The greatest of equal names. -/
theorem foldl_max_eq {name : String} {names : List String} (hall : ∀ x ∈ names, x = name)
    (hne : names ≠ []) : names.foldl (fun a b => if a < b then b else a) "" = name := by
  have hkeep : ∀ rest : List String, (∀ x ∈ rest, x = name) →
      rest.foldl (fun a b => if a < b then b else a) name = name := by
    intro rest hrest
    induction rest with
    | nil => rfl
    | cons x rest ih =>
      rw [List.foldl_cons, hrest x List.mem_cons_self, ite_self]
      exact ih fun y hy => hrest y (List.mem_cons_of_mem _ hy)
  cases names with
  | nil => exact absurd rfl hne
  | cons x rest =>
    have hfirst : (if "" < x then x else "") = name := by
      rw [hall x List.mem_cons_self]
      split
      · rfl
      · next hleast =>
        have hlist : ¬ ("".toList < name.toList) := hleast
        cases htext : name.toList with
        | nil => exact (String.toList_inj.mp (by simpa using htext)).symm
        | cons a l =>
          rw [htext] at hlist
          simp at hlist
    rw [List.foldl_cons, hfirst]
    exact hkeep rest fun y hy => hall y (List.mem_cons_of_mem _ hy)

theorem stagedName_eq {runId : Uuid} {p name : String} {db : Database}
    (hall : ∀ row ∈ stagedListRows runId db, row.providerListId = p → row.listName = name)
    (hstaged : p ∈ (stagedListRows runId db).map (·.providerListId)) :
    stagedName runId p db = name := by
  refine foldl_max_eq ?_ ?_
  · intro x hx
    obtain ⟨row, hrow, rfl⟩ := List.mem_map.mp hx
    obtain ⟨hmem, hid⟩ := List.mem_filter.mp hrow
    exact hall row hmem (of_decide_eq_true hid)
  · obtain ⟨row, hrow, hid⟩ := List.mem_map.mp hstaged
    exact List.ne_nil_of_mem (List.mem_map.mpr
      ⟨row, List.mem_filter.mpr ⟨hrow, decide_eq_true hid⟩, rfl⟩)

/-! ### What an applied run leaves -/

section applied

variable {serve : Option String → UserListsPage} {lists : List UserListNode}
  {accountId runId : Uuid} {prior db : Database} {summary : Summary}

theorem mem_listedPairs {x : String × ℤ} : x ∈ listedPairs lists ↔ ∃ l ∈ lists,
    x.1 = l.providerListId ∧ x.2 ∈ l.items.map (·.providerRepositoryId) := by
  rw [listedPairs, List.mem_flatMap]
  refine exists_congr fun l => and_congr_right fun _ => ?_
  simp only [List.mem_map]
  constructor
  · rintro ⟨item, hitem, rfl⟩
    exact ⟨rfl, item, hitem, rfl⟩
  · rintro ⟨hlist, item, hitem, hpid⟩
    exact ⟨item, hitem, Prod.ext hlist.symm hpid⟩

theorem Enumerates.eq_of_id (h : Enumerates serve lists) {l l' : UserListNode} (hl : l ∈ lists)
    (hl' : l' ∈ lists) (hid : l.providerListId = l'.providerListId) : l = l' :=
  List.inj_on_of_nodup_map h.distinct hl hl' hid

/-- A sound staging holds only enumerated pairs. -/
theorem Enumerates.listed_of_staged (h : Enumerates serve lists)
    (hsound : StagedFrom serve runId db) {row : ListSnapshotItem}
    (hrow : row ∈ stagedListRows runId db) : ∃ l ∈ lists, row.providerListId = l.providerListId ∧
      row.listName = l.name ∧ row.providerRepositoryId ∈ l.items.map (·.providerRepositoryId) := by
  obtain ⟨n, l, hl, hfacts⟩ := hsound row hrow
  exact ⟨l, (h.complete l).mpr ⟨n, hl⟩, hfacts⟩

/-- The staged pairs of an applied run are the enumerated ones. -/
theorem Enumerates.staged_iff (h : Enumerates serve lists) {mid : Database} {n : ℕ}
    (hprogress : ListProgress serve runId mid) (hempty : (pageAt serve n).lists = [])
    (hcovered : CoveredTo serve runId n mid) (x : String × ℤ) :
    x ∈ stagedPairNames runId mid ↔ x ∈ listedPairs lists := by
  refine ⟨fun hx => ?_, h.staged_of_covered hempty hcovered x⟩
  obtain ⟨row, hrow, rfl⟩ := List.mem_map.mp hx
  obtain ⟨l, hl, hlist, -, hpid⟩ := h.listed_of_staged hprogress.sound hrow
  exact mem_listedPairs.mpr ⟨l, hl, hlist, hpid⟩

/-- While a run is open, the account's pairs are the ones before it. -/
theorem Untouched.pairs {mid : Database} (h : Untouched prior mid) (accountId : Uuid) (hprior : Constraints prior)
    (hmid : Constraints mid) {m : StarListMembership} (hm : m ∈ prior.starListMemberships) :
    m.ofAccount accountId mid = m.ofAccount accountId prior ∧
      pairName mid m.key = pairName prior m.key := by
  have hlists : mid.starLists = prior.starLists := h.authority .starLists (by decide)
  obtain ⟨l, hl, hid⟩ := List.mem_map.mp (hprior.foreignKeys.memberships_list m hm m.listId rfl)
  obtain ⟨r, hr, hrepo⟩ :=
    List.mem_map.mp (hprior.foreignKeys.memberships_repository m hm m.repositoryId rfl)
  refine ⟨?_, ?_⟩
  · rw [StarListMembership.ofAccount, hlists]
    rfl
  · rw [pairName_eq hprior.keys hl hid hr hrepo,
      pairName_eq hmid.keys (hlists ▸ hl) hid (h.repositories r hr) hrepo]

theorem Untouched.memberPairs_eq {mid : Database} (h : Untouched prior mid)
    (hprior : Constraints prior) (hmid : Constraints mid) :
    memberPairs accountId mid = memberPairs accountId prior := by
  have hrows : mid.starListMemberships = prior.starListMemberships :=
    h.authority .starListMemberships (by decide)
  have hsame : prior.starListMemberships.filter (fun m => m.member && m.ofAccount accountId mid) =
      prior.starListMemberships.filter fun m => m.member && m.ofAccount accountId prior := by
    apply List.filter_congr
    intro m hm
    rw [(h.pairs accountId hprior hmid hm).1]
  rw [memberPairs, memberPairs, hrows, hsame]
  apply List.map_congr_left
  intro m hm
  exact (h.pairs accountId hprior hmid (List.mem_of_mem_filter hm)).2

/-- **An applied run**, in terms of the enumeration. -/
theorem ListApplied.exact_iff (h : ListApplied serve accountId runId prior db summary)
    (hserve : Enumerates serve lists) (hprior : Constraints prior) (hvalid : Constraints db) :
    ListsExact accountId runId lists prior db summary ↔ ∀ l ∈ lists, l.items ≠ [] := by
  obtain ⟨mid, listIds, memberIds, removalIds, now, counts, n, hmid, huntouched, hprogress, hempty,
    hcovered, hswap, rfl⟩ := h
  have hstaged := hserve.staged_iff hprogress hempty hcovered
  have hlists : mid.starLists = prior.starLists := huntouched.authority .starLists (by decide)
  have hrows : mid.starListMemberships = prior.starListMemberships :=
    huntouched.authority .starListMemberships (by decide)
  have hobs : mid.starListMembershipObservations = prior.starListMembershipObservations :=
    huntouched.authority .starListMembershipObservations (by decide)
  have hnames : (stagedPairNames runId mid).toFinset = (listedPairs lists).toFinset := by
    ext x
    rw [List.mem_toFinset, List.mem_toFinset]
    exact hstaged x
  -- A staged list has a member in the enumeration.
  have hmember : ∀ p ∈ (stagedListRows runId mid).map (·.providerListId),
      ∃ l ∈ lists, l.providerListId = p ∧ l.items ≠ [] := by
    intro p hp
    obtain ⟨row, hrow, rfl⟩ := List.mem_map.mp hp
    obtain ⟨l, hl, hid, -, hpid⟩ := hserve.listed_of_staged hprogress.sound hrow
    refine ⟨l, hl, hid.symm, fun hnil => ?_⟩
    rw [hnil] at hpid
    cases hpid
  constructor
  · intro hexact l hl
    have hactive := (hexact.active l.providerListId l.name).mpr ⟨l, hl, rfl, rfl⟩
    obtain ⟨l', hl', hid, hitems⟩ := hmember _ (hswap.mem_activeLists.mp hactive).1
    rw [hserve.eq_of_id hl hl' hid.symm]
    exact hitems
  · intro hitems
    have hids : ∀ l ∈ lists, l.providerListId ∈ (stagedListRows runId mid).map (·.providerListId) := by
      intro l hl
      obtain ⟨item, hitem⟩ := List.exists_mem_of_ne_nil _ (hitems l hl)
      have hpair := (hstaged (l.providerListId, item.providerRepositoryId)).mpr
        (mem_listedPairs.mpr ⟨l, hl, rfl, List.mem_map.mpr ⟨item, hitem, rfl⟩⟩)
      obtain ⟨row, hrow, heq⟩ := List.mem_map.mp hpair
      exact List.mem_map.mpr ⟨row, hrow, (Prod.mk.inj heq).1⟩
    have hname : ∀ l ∈ lists, stagedName runId l.providerListId mid = l.name := by
      intro l hl
      refine stagedName_eq (fun row hrow hid => ?_) (hids l hl)
      obtain ⟨l', hl', hid', hlistName, -⟩ := hserve.listed_of_staged hprogress.sound hrow
      rw [hlistName, hserve.eq_of_id hl' hl (hid'.symm.trans hid)]
    refine ⟨?_, ?_, ?_, ?_, ?_, ?_⟩
    · intro p name
      rw [hswap.mem_activeLists]
      constructor
      · rintro ⟨hp, rfl⟩
        obtain ⟨l, hl, rfl, -⟩ := hmember p hp
        exact ⟨l, hl, rfl, (hname l hl).symm⟩
      · rintro ⟨l, hl, rfl, rfl⟩
        exact ⟨hids l hl, (hname l hl).symm⟩
    · intro x
      rw [hswap.mem_memberPairs hvalid hprogress.catalogued, hstaged]
    · intro l hl haccount hactive hfar
      refine ⟨now, hswap.tombstoned (hlists ▸ hl) haccount hactive fun hp => ?_⟩
      obtain ⟨l', hl', hid, -⟩ := hmember _ hp
      exact hfar (List.mem_map.mpr ⟨l', hl', hid⟩)
    · intro m hm hmem hown hfar
      obtain ⟨hown', hpair⟩ := huntouched.pairs accountId hprior hmid hm
      obtain ⟨hdemoted, hobserved⟩ := hswap.demoted hmid (hrows ▸ hm) hmem (hown'.trans hown)
        (fun hin => hfar (hpair ▸ (hstaged _).mp hin))
      refine ⟨⟨now, hdemoted⟩, ?_⟩
      rw [newObservations, ← hobs, ← newObservations]
      exact hobserved
    · rw [summaryOf, hswap.additions_eq hmid hprogress.catalogued, hnames,
        huntouched.memberPairs_eq hprior hmid]
    · rw [summaryOf, hswap.removals_eq hmid, hnames, huntouched.memberPairs_eq hprior hmid]

end applied

/-! ### Whole runs -/

namespace Snapshots

variable {Page Place : Type}

/-- At the end of the history, an attempt reports that the run is completed. -/
def Completes (k : Contracts) (e : Enumeration Page Place) (s : Snapshots Page Place)
    (events : List (SnapshotEvent Page)) (runId : Uuid) (summary : Summary) (observed : ℕ) : Prop :=
  ∃ pre n i a b, events = pre ++ [.advance n i] ∧
    (runFrom (Snapshots.step k e) s pre).attempts[n]? = some a ∧ a.finished = false ∧
    (runFrom (Snapshots.step k e) s events).attempts[n]? = some b ∧
    b.phase = .ended (.ok (.completed runId summary observed))

end Snapshots

/-- An attempt ends with a completed run after its swap, or after the read behind it where the flow
reads back. -/
theorem Attempt.Turn.completed_cases {Page Place : Type} {e : Enumeration Page Place}
    {i : AttemptInput Page} {now : Time} {c c' : Catalog} {accountId runId : Uuid}
    {phase next : AttemptPhase Page Place} {summary : Summary} {observed : ℕ}
    (h : Attempt.Turn e i now c accountId phase next c') (hlive : ∀ result, phase ≠ .ended result)
    (hnext : next = .ended (.ok (.completed runId summary observed))) :
    (phase = .reading runId summary ∧ c' = c) ∨
      (phase = .applying runId ∧ e.readsBack = false ∧
        e.apply i.ids now runId accountId c = .ok (summary, c')) := by
  have htold : ∀ {target : AttemptPhase Page Place}, Attempt.Told target next →
      target = .ended (.ok (.completed runId summary observed)) := by
    rintro target (rfl | rfl)
    · exact hnext
    · cases hnext
  cases h with
  | readBack r s n _ h =>
    cases htold h
    exact .inl ⟨rfl, rfl⟩
  | done result => exact absurd rfl (hlive result)
  | acquired | paused | identified | refused => cases hnext
  | fetched =>
    unfold Attempt.afterFetch at hnext
    split at hnext
    · cases hnext
    · split at hnext <;> cases hnext
  | recorded _ _ _ _ _ _ h =>
    have heq := htold h
    unfold Attempt.afterRecord at heq
    split at heq <;> cases heq
  | catalogued _ _ _ _ _ _ _ _ _ h =>
    have heq := htold h
    unfold Attempt.afterUpsert at heq
    split at heq <;> cases heq
  | applied _ _ _ _ hok h =>
    have heq := htold h
    unfold Attempt.afterApply at heq
    split at heq
    · cases heq
    · next hreads =>
      cases heq
      exact .inr ⟨rfl, Bool.eq_false_iff.mpr hreads, hok⟩
  | found _ _ _ h | unfound _ _ h | resumed _ _ h | inserted _ _ _ h | failed _ _ _ _ _ h
  | named _ _ _ _ _ _ _ _ _ _ h => cases htold h

/-- The step of an attempt that reports a completed run. -/
theorem step_of_completes {Page Place : Type} {k : Contracts} {e : Enumeration Page Place}
    {runId : Uuid} {s : Snapshots Page Place} {events : List (SnapshotEvent Page)} {summary : Summary}
    {observed : ℕ} (hdone : s.Completes k e events runId summary observed) :
    ∃ pre n i a, events = pre ++ [.advance n i] ∧
      (runFrom (Snapshots.step k e) s pre).attempts[n]? = some a ∧ a.finished = false ∧
      a.step e i ((runFrom (Snapshots.step k e) s pre).clock + i.elapsed)
          (runFrom (Snapshots.step k e) s pre).catalog =
        (.ended (.ok (.completed runId summary observed)),
          (runFrom (Snapshots.step k e) s events).catalog) := by
  obtain ⟨pre, n, i, a, b, rfl, ha, hlive, hb, hphase⟩ := hdone
  refine ⟨pre, n, i, a, rfl, ha, hlive, ?_⟩
  have hstopped := Attempt.stopped_of_live hlive
  rw [runFrom_append, runFrom_cons, runFrom_nil, Snapshots.step_advance ha] at hb ⊢
  rw [List.getElem?_set_self', ha] at hb
  have hnext := (Option.some.inj hb).symm
  dsimp only
  rw [Attempt.next_catalog hstopped]
  refine Prod.ext ?_ rfl
  -- The process did not stop, or it would still stand where it stood.
  rw [Attempt.next, if_neg (Bool.eq_false_iff.mp hstopped)] at hnext
  split at hnext
  · rw [hnext] at hphase
    exact absurd hphase (Attempt.not_ended_of_live hlive _)
  · rw [hnext] at hphase
    exact hphase

/-- A run is reported completed after the read that follows its swap. -/
theorem reading_of_completes {Page Place : Type} {k : Contracts} {e : Enumeration Page Place}
    (hreads : e.readsBack = true) {runId : Uuid} {s : Snapshots Page Place}
    {events : List (SnapshotEvent Page)} {summary : Summary} {observed : ℕ}
    (hdone : s.Completes k e events runId summary observed) :
    ∃ pre n i a, events = pre ++ [.advance n i] ∧
      (runFrom (Snapshots.step k e) s pre).attempts[n]? = some a ∧ a.finished = false ∧
      a.phase = .reading runId summary ∧
      (runFrom (Snapshots.step k e) s events).catalog = (runFrom (Snapshots.step k e) s pre).catalog ∧
      ∃ c', Attempt.readListsObserved runId (runFrom (Snapshots.step k e) s pre).catalog =
        .ok (observed, c') := by
  obtain ⟨pre, n, i, a, hevents, ha, hlive, hstep⟩ := step_of_completes hdone
  have hturn := a.turn e i ((runFrom (Snapshots.step k e) s pre).clock + i.elapsed)
    (runFrom (Snapshots.step k e) s pre).catalog
  rw [hstep] at hturn
  obtain ⟨hreading, hsame⟩ | ⟨-, hnone, -⟩ :=
    hturn.completed_cases (Attempt.not_ended_of_live hlive) rfl
  · refine ⟨pre, n, i, a, hevents, ha, hlive, hreading, hsame, ?_⟩
    have htarget := congrArg Prod.fst hstep
    rw [Attempt.step, hreading] at htarget
    dsimp only at htarget
    obtain ⟨observed', c', hok, -, htold⟩ | ⟨err, -, hrefused⟩ := Attempt.settle_cases i.fate
      (Attempt.readListsObserved runId) (runFrom (Snapshots.step k e) s pre).catalog
      fun n => (.ended (.ok (.completed runId summary n)) : AttemptPhase Page Place)
    · rcases htold with heq | heq
      · rw [htarget] at heq
        cases heq
        exact ⟨c', hok⟩
      · rw [htarget] at heq
        cases heq
    · rw [hrefused] at htarget
      cases htarget
  · rw [hreads] at hnone
    cases hnone

section runs

variable {k : Contracts} {serve : Option String → UserListsPage} {lists : List UserListNode}
  {accountId runId : Uuid} {before s : Snapshots UserListsPage (Option String)}

theorem insertSyncRun_staged {now : Time} {c c' : Catalog}
    (h : insertSyncRun .starLists runId accountId now c = .ok ((), c')) :
    stagedListRows runId c'.tables = [] := by
  rw [stagedListRows, List.filter_eq_nil_iff]
  intro row hrow hid
  rw [write_eq_ok.mp h] at hrow
  exact insertSyncRun_fresh h (of_decide_eq_true hid ▸
    c.valid.foreignKeys.listSnapshotItems_run row hrow row.syncRunId rfl)

/-- What is known at the start of a run. -/
theorem listFollowing_inserted (hidle : interruptedRun .starLists accountId before.catalog.tables = none)
    {now : Time} {c' : Catalog}
    (h : insertSyncRun .starLists runId accountId now before.catalog = .ok ((), c')) :
    ListFollowing serve accountId runId before.catalog.tables c' (.acquiring runId none) := by
  have hengaged : Engaged .starLists accountId runId c'
      (.acquiring runId none : AttemptPhase UserListsPage (Option String)) :=
    engaged_inserted hidle h none
  have hempty : stagedListRows runId c'.tables = [] := insertSyncRun_staged h
  have hcovered : CoveredTo serve runId 0 c'.tables := fun m hm => absurd hm (Nat.not_lt_zero m)
  refine ⟨hengaged.solo, hengaged.works, fun _ => ⟨⟨?_, ?_, ?_⟩, ?_⟩,
    fun _ => ⟨hengaged.running rfl rfl, 0, rfl, hcovered⟩, by rintro _ ⟨⟩⟩
  · rw [StagedFrom, hempty]
    exact fun row hrow => absurd hrow List.not_mem_nil
  · rw [StagedCatalogued, hempty]
    exact fun row hrow => absurd hrow List.not_mem_nil
  · rw [insertSyncRun_checkpoints h]
    exact fun p hp => absurd hp List.not_mem_nil
  · exact relates_untouched_insertSyncRun _ _ _ _ _ () c' h

theorem ListFollowing.at_opening {prior : Database} {c : Catalog}
    {phase : AttemptPhase UserListsPage (Option String)}
    (h : ListFollowing serve accountId runId prior c phase) :
    ListFollowing serve accountId runId prior c .opening :=
  ⟨h.solo, .inr (.inl rfl), h.progress, by rintro ⟨⟩, by rintro _ ⟨⟩⟩

/-- **Whole histories of a run.** -/
theorem listFollowing_runFrom (hopening : Snapshots.Opening k listEnumeration accountId runId before s)
    {events : List (SnapshotEvent UserListsPage)}
    (hseq : Guarded (Snapshots.step k listEnumeration) Snapshots.Sequential s events)
    (hserves : Guarded (Snapshots.step k listEnumeration) (Snapshots.Meets (Serves serve)) s events) :
    Snapshots.KeptBy (fun _ => ListFollowing serve accountId runId before.catalog.tables) accountId
      (runFrom (Snapshots.step k listEnumeration) s events) := by
  refine Snapshots.keptBy_runFrom (fun hguard hturn h => hturn.listFollowing hguard h)
    (fun h => h.at_opening) (fun _ h => h) ?_ hseq hserves
  exact hopening.keptBy listEnumeration_movesRuns (fun h => h.at_opening)
    fun h => listFollowing_inserted hopening.idle h

/-- A completed run has been applied. -/
theorem listApplied_of_completes
    (hopening : Snapshots.Opening k listEnumeration accountId runId before s)
    {events : List (SnapshotEvent UserListsPage)}
    (hseq : Guarded (Snapshots.step k listEnumeration) Snapshots.Sequential s events)
    (hserves : Guarded (Snapshots.step k listEnumeration) (Snapshots.Meets (Serves serve)) s events)
    {summary : Summary} {observed : ℕ}
    (hdone : s.Completes k listEnumeration events runId summary observed) :
    ListApplied serve accountId runId before.catalog.tables
      (runFrom (Snapshots.step k listEnumeration) s events).catalog.tables summary := by
  obtain ⟨pre, n, i, a, rfl, ha, hlive, hreading, hsame, -⟩ := reading_of_completes rfl hdone
  have hkept := listFollowing_runFrom hopening (guarded_append.mp hseq).1 (guarded_append.mp hserves).1
  rw [hsame]
  exact (hkept.attempts a (List.mem_of_getElem? ha) hlive).done summary hreading

/-- **Completed list snapshots.**  For every prior state, every enumeration that stands still and every
history of attempts over it, with pauses, crashes and resumed runs: when the run is reported completed,
the account's lists and pairs are the enumerated ones, with evidence and counts, if and only if every
enumerated list has a member. -/
theorem listSnapshot_exact_iff (k : Contracts) (hserve : Enumerates serve lists)
    (hopening : Snapshots.Opening k listEnumeration accountId runId before s)
    (events : List (SnapshotEvent UserListsPage))
    (hseq : Guarded (Snapshots.step k listEnumeration) Snapshots.Sequential s events)
    (hserves : Guarded (Snapshots.step k listEnumeration) (Snapshots.Meets (Serves serve)) s events)
    (summary : Summary) (observed : ℕ)
    (hdone : s.Completes k listEnumeration events runId summary observed) :
    ListsExact accountId runId lists before.catalog.tables
        (runFrom (Snapshots.step k listEnumeration) s events).catalog.tables summary ↔
      ∀ l ∈ lists, l.items ≠ [] :=
  (listApplied_of_completes hopening hseq hserves hdone).exact_iff hserve before.catalog.valid
    (runFrom (Snapshots.step k listEnumeration) s events).catalog.valid

end runs

/-! ### Samples -/

/-- A gateway with one page of lists and the empty page behind it. -/
def servedLists (lists : List UserListNode) : Option String → UserListsPage
  | none => ⟨lists, some "next"⟩
  | some _ => ⟨[], none⟩

theorem servedLists_enumerates {lists : List UserListNode} (hne : lists ≠ [])
    (hdistinct : (lists.map (·.providerListId)).Nodup) : Enumerates (servedLists lists) lists := by
  have hcases : ∀ n, pageAt (servedLists lists) n = ⟨lists, some "next"⟩ ∨
      pageAt (servedLists lists) n = ⟨[], none⟩ := by
    intro n
    unfold pageAt
    cases placeAt (servedLists lists) n with
    | none => exact .inl rfl
    | some cursor => exact .inr rfl
  refine ⟨fun l => ⟨fun hl => ⟨0, hl⟩, ?_⟩, hdistinct, fun n hempty => .inl ?_⟩
  · rintro ⟨n, hn⟩
    rcases hcases n with heq | heq
    · rw [heq] at hn
      exact hn
    · rw [heq] at hn
      cases hn
  · rcases hcases n with heq | heq
    · rw [heq] at hempty
      exact absurd hempty hne
    · rw [heq]

/-- What a fetch brings can be tested. -/
instance decidableFetched {Page Place : Type} (P : Place → Page → Prop)
    [∀ place page, Decidable (P place page)] (i : AttemptInput Page) (phase : AttemptPhase Page Place) :
    Decidable (∀ runId place page, phase = .fetching runId place → i.reply = .ok page → P place page) :=
  match phase, hreply : i.reply with
  | .fetching _ place, .ok page => decidable_of_iff (P place page)
      ⟨fun h _ _ _ hphase hpage => by cases hphase; cases hpage; exact h, fun h => h _ _ _ rfl rfl⟩
  | .fetching _ _, .error _ => .isTrue fun _ _ _ _ hpage => by cases hpage
  | .opening, _ | .inserting, _ | .resuming _, _ | .acquiring _ _, _ | .failing _ _, _
  | .identifying _ _ _ _, _ | .naming _ _ _ _ _ _, _ | .recording _ _ _, _ | .applying _, _
  | .reading _ _, _ | .ended _, _ => .isTrue fun _ _ _ hphase => by cases hphase

instance decidableServes (serve : Option String → UserListsPage) (now : Time) (c : Catalog)
    (i : AttemptInput UserListsPage) (phase : AttemptPhase UserListsPage (Option String)) :
    Decidable (Serves serve now c i phase) :=
  decidableFetched (fun place page => page = serve place) i phase

/-- Account 1 has the list `list-a` with repository 101; an attempt has found no run to resume. -/
def beforeListRun : Snapshots UserListsPage (Option String) :=
  ⟨runFrom (step sampleContracts) emptyCatalog
    (connectOwners ++ [.upsertRepository 1 101] ++ listSnapshot 10 1 "list-a"), 0,
    [⟨1, .inserting, false⟩]⟩

/-- The run 3000 has started. -/
def openedListRun : Snapshots UserListsPage (Option String) :=
  beforeListRun.step sampleContracts listEnumeration (.advance 0 (listInput 3000 ⟨[], none⟩))

/-- The steps of the attempt; the second page is fetched after `turn` of them. -/
def listRunSteps (lists : List UserListNode) (turn steps : ℕ) : List (SnapshotEvent UserListsPage) :=
  (List.range steps).map fun j => .advance 0 (listInput (BitVec.ofNat 128 (4000 + 100 * j))
    (if j < turn then ⟨lists, some "next"⟩ else ⟨[], none⟩))

theorem openedListRun_opening :
    Snapshots.Opening sampleContracts listEnumeration 1 3000 beforeListRun openedListRun :=
  ⟨by decide +kernel, ⟨.advance 0 (listInput 3000 ⟨[], none⟩),
    by simp [Snapshots.Sequential, beforeListRun], rfl⟩, by decide +kernel, by decide +kernel,
    by decide +kernel⟩

instance decidableSequential {Page Place : Type} [DecidableEq Page] [DecidableEq Place]
    (s : Snapshots Page Place) : ∀ event, Decidable (s.Sequential event)
  | .advance n _ => inferInstanceAs (Decidable (∀ p ∈ s.attempts.zipIdx, p.2 ≠ n → _ ∨ _))
  | .catalog _ => inferInstanceAs (Decidable False)

instance decidableMeets {Page Place : Type}
    (G : Time → Catalog → AttemptInput Page → AttemptPhase Page Place → Prop)
    [∀ now c i phase, Decidable (G now c i phase)] (s : Snapshots Page Place) :
    ∀ event, Decidable (s.Meets G event)
  | .advance n i => inferInstanceAs (Decidable (∀ a ∈ s.attempts[n]?, G _ _ i a.phase))
  | .catalog _ => inferInstanceAs (Decidable True)

/-- A list with another member than before. -/
def movedList : List UserListNode := [⟨"list-b", "reading", [⟨102, "owner/other"⟩], false⟩]

theorem listSnapshot_exact_iff_moved :
    ListsExact 1 3000 movedList beforeListRun.catalog.tables
      (runFrom (Snapshots.step sampleContracts listEnumeration) openedListRun
        (listRunSteps movedList 6 12)).catalog.tables ⟨2, 1, 1, 1⟩ :=
  (listSnapshot_exact_iff sampleContracts
    (servedLists_enumerates (by decide) (by decide)) openedListRun_opening
    (listRunSteps movedList 6 12) (by decide +kernel) (by decide +kernel) ⟨2, 1, 1, 1⟩ 1
    ⟨listRunSteps movedList 6 11, 0, listInput 5100 ⟨[], none⟩, ⟨1, .reading 3000 ⟨2, 1, 1, 1⟩, false⟩,
      ⟨1, .ended (.ok (.completed 3000 ⟨2, 1, 1, 1⟩ 1)), false⟩, rfl, by decide +kernel, rfl,
      by decide +kernel, rfl⟩).mpr (by decide)

/-- The list without its member. -/
def emptiedList : List UserListNode := [⟨"list-a", "reading", [], false⟩]

/-- **An empty list.**  The list `list-a` is enumerated without members; the completed snapshot removes
it. -/
theorem empty_list_removed :
    Enumerates (servedLists emptiedList) emptiedList ∧
      Snapshots.Opening sampleContracts listEnumeration 1 3000 beforeListRun openedListRun ∧
      Guarded (Snapshots.step sampleContracts listEnumeration) Snapshots.Sequential openedListRun
        (listRunSteps emptiedList 4 10) ∧
      Guarded (Snapshots.step sampleContracts listEnumeration)
        (Snapshots.Meets (Serves (servedLists emptiedList))) openedListRun
        (listRunSteps emptiedList 4 10) ∧
      openedListRun.Completes sampleContracts listEnumeration (listRunSteps emptiedList 4 10) 3000
        ⟨2, 0, 0, 1⟩ 1 ∧
      ¬ ListsExact 1 3000 emptiedList beforeListRun.catalog.tables
        (runFrom (Snapshots.step sampleContracts listEnumeration) openedListRun
          (listRunSteps emptiedList 4 10)).catalog.tables ⟨2, 0, 0, 1⟩ := by
  refine ⟨servedLists_enumerates (by decide) (by decide), openedListRun_opening, by decide +kernel,
    by decide +kernel, ⟨listRunSteps emptiedList 4 9, 0, listInput 4900 ⟨[], none⟩,
      ⟨1, .reading 3000 ⟨2, 0, 0, 1⟩, false⟩,
      ⟨1, .ended (.ok (.completed 3000 ⟨2, 0, 0, 1⟩ 1)), false⟩, rfl, by decide +kernel, rfl,
      by decide +kernel, rfl⟩, fun h => ?_⟩
  have hactive := (h.active "list-a" "reading").mpr (by decide)
  revert hactive
  decide +kernel

end GithubCatalog
