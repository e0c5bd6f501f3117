import GithubCatalog.ListExactness

/-!
# Resumed list snapshots

A run of the list snapshot that is interrupted and resumed goes through the same pages as one that is
not, as long as it is resumed at the place of its last page: its checkpoints were recorded at
increasing times, and its empty page is not among them.  The checkpoint of the empty page is committed
before the swap and carries no cursor, which is also how the first page is named, so a run that is
resumed between the two begins again.  A listing whose last page is not empty never ends at all.

* `EndsEmpty` - the listing ends with an empty page; `Resumable` - the run may be resumed here;
* `ListAt` - what a run has stored after some pages;
* `ListTracking` - what is known of the run; `Turn.listTracking` - one step;
* `fetchCount` - the fetches of an attempt; `fetchCount_le` - their bound;
* `listRuns_resumed` - bounded fetches, no pair staged twice, and one outcome.
-/

namespace GithubCatalog

open Relational Runs Transact

/-! ### What a run has stored -/

/-- What a staged row says. -/
def ListSnapshotItem.content (i : ListSnapshotItem) : String × String × ℤ :=
  (i.providerListId, i.listName, i.providerRepositoryId)

section pages

variable (serve : Option String → UserListsPage)

/-- The listing ends with an empty page, behind so many others. -/
structure EndsEmpty (last : ℕ) : Prop where
  full : ∀ n < last, (pageAt serve n).lists ≠ []
  empty : (pageAt serve last).lists = []

/-- The content of some lists. -/
def listedContent (lists : List UserListNode) : List (String × String × ℤ) :=
  lists.flatMap fun l => l.items.map fun item => (l.providerListId, l.name, item.providerRepositoryId)

/-- The content of the first pages. -/
def contentTo (n : ℕ) : List (String × String × ℤ) :=
  (List.range n).flatMap fun m => listedContent (pageAt serve m).lists

/-- The pairs of the first pages. -/
def pairsTo (n : ℕ) : List (String × ℤ) :=
  (List.range n).flatMap fun m => listedPairs (pageAt serve m).lists

/-- A run row that has counted the first pages. -/
def countedTo (n : ℕ) (run : SyncRun) : SyncRun :=
  (List.range n).foldl (fun r m => r.counting (pageAt serve m)) run

/-- What a run has stored after some pages. -/
structure ListAt (accountId runId : Uuid) (n : ℕ) (db : Database) : Prop where
  content : (stagedListRows runId db).map (·.content) = contentTo serve n
  cursors : (checkpointsOf runId db).map (·.graphqlCursor) =
    (List.range n).map fun m => placeAt serve (m + 1)
  row : ∃ started, runsOf runId db =
    [countedTo serve n (newSyncRun runId accountId .starLists started)]

/-- Where an attempt stands after some pages. -/
def AttemptPhase.StandsAt (last n : ℕ) : AttemptPhase UserListsPage (Option String) → Prop
  | opening | inserting | resuming _ | failing _ _ | reading _ _ | ended _ => True
  | acquiring _ place | fetching _ place => n ≤ last ∧ place = placeAt serve n
  | identifying _ _ page _ | naming _ _ page _ _ _ | recording _ _ page =>
    n ≤ last ∧ page = pageAt serve n
  | applying _ => n = last + 1

/-- The run may be resumed: its empty page is not recorded, and its pages were recorded at increasing
times. -/
def Resumable (last : ℕ) (runId : Uuid) (db : Database) : Prop :=
  (checkpointsOf runId db).length ≤ last ∧
    (checkpointsOf runId db).Pairwise fun a b => a.recordedAt < b.recordedAt

/-- A fetch brings the page of its cursor, and the run is resumed only where it may be. -/
def Undisturbed (last : ℕ) (runId : Uuid) (now : Time) (c : Catalog) (i : AttemptInput UserListsPage)
    (phase : AttemptPhase UserListsPage (Option String)) : Prop :=
  Serves serve now c i phase ∧ (phase = .resuming runId → Resumable last runId c.tables)

/-- The run was applied after all of its pages. -/
def ListSettled (last : ℕ) (accountId runId : Uuid) (prior db : Database) (summary : Summary) : Prop :=
  ∃ mid listIds memberIds removalIds now counts, Constraints mid ∧ Untouched prior mid ∧
    ListAt serve accountId runId (last + 1) mid ∧ StagedCatalogued runId mid ∧
    ListSwapping listIds memberIds removalIds now runId accountId mid db counts ∧
    summary = summaryOf counts

/-- What is known of a run, seen from an attempt. -/
structure ListTracking (last : ℕ) (accountId runId : Uuid) (prior : Database) (c : Catalog)
    (phase : AttemptPhase UserListsPage (Option String)) : Prop where
  follows : ListFollowing serve accountId runId prior c phase
  stands : Running runId c.tables → ∃ n ≤ last + 1, ListAt serve accountId runId n c.tables ∧
    (phase.runId? = some runId → phase.StandsAt serve last n)
  done : ∀ summary, phase = .reading runId summary →
    ListSettled serve last accountId runId prior c.tables summary

end pages

variable {serve : Option String → UserListsPage} {last : ℕ}

theorem contentTo_succ (n : ℕ) :
    contentTo serve (n + 1) = contentTo serve n ++ listedContent (pageAt serve n).lists := by
  rw [contentTo, List.range_succ, List.flatMap_append, List.flatMap_singleton, ← contentTo]

theorem contentTo_pairs (n : ℕ) :
    (contentTo serve n).map (fun x => (x.1, x.2.2)) = pairsTo serve n := by
  rw [contentTo, List.map_flatMap, pairsTo]
  congr 1
  funext m
  rw [listedContent, List.map_flatMap, listedPairs]
  congr 1
  funext l
  rw [List.map_map]
  rfl

/-- The empty page adds nothing. -/
theorem pairsTo_last (h : EndsEmpty serve last) : pairsTo serve (last + 1) = pairsTo serve last := by
  rw [pairsTo, List.range_succ, List.flatMap_append, List.flatMap_singleton, h.empty, ← pairsTo]
  exact List.append_nil _

theorem countedTo_succ (n : ℕ) (run : SyncRun) :
    countedTo serve (n + 1) run = (countedTo serve n run).counting (pageAt serve n) := by
  rw [countedTo, List.range_succ, List.foldl_append, ← countedTo]
  rfl

/-- Checkpoints that were recorded at increasing times: the newest is the last. -/
theorem latestListCheckpoint_eq {runId : Uuid} {db : Database}
    (h : (checkpointsOf runId db).Pairwise fun a b => a.recordedAt < b.recordedAt) :
    latestListCheckpoint runId db = (checkpointsOf runId db).getLast? := by
  rw [latestListCheckpoint, ← checkpointsOf]
  rcases List.eq_nil_or_concat (checkpointsOf runId db) with hnil | ⟨older, newest, heq⟩
  · rw [hnil]
    rfl
  · rw [heq] at h ⊢
    rw [List.concat_eq_append] at h ⊢
    rw [List.getLast?_concat]
    refine firstBy_append fun p hp => decide_eq_true ?_
    exact (List.pairwise_append.mp h).2.2 p hp newest List.mem_cons_self

section at_place

variable {accountId runId : Uuid} {n : ℕ} {db db' : Database}

theorem ListAt.length_checkpoints (h : ListAt serve accountId runId n db) :
    (checkpointsOf runId db).length = n := by
  have hlength := congrArg List.length h.cursors
  rwa [List.length_map, List.length_map, List.length_range] at hlength

theorem ListAt.pairs (h : ListAt serve accountId runId n db) :
    stagedPairNames runId db = pairsTo serve n := by
  rw [← contentTo_pairs, ← h.content, List.map_map]
  rfl

/-- A run that may be resumed is resumed at its place. -/
theorem ListAt.resume_eq (h : ListAt serve accountId runId n db) (hresume : Resumable last runId db) :
    listEnumeration.resume (listEnumeration.newest runId db) = placeAt serve n := by
  show (latestListCheckpoint runId db).bind (·.graphqlCursor) = placeAt serve n
  rw [latestListCheckpoint_eq hresume.2]
  cases n with
  | zero =>
    have hnil : checkpointsOf runId db = [] := List.length_eq_zero_iff.mp h.length_checkpoints
    rw [hnil]
    rfl
  | succ n =>
    have hcursor := congrArg List.getLast? h.cursors
    rw [List.range_succ, List.map_append, List.map_singleton, List.getLast?_concat,
      List.getLast?_map] at hcursor
    obtain ⟨newest, hnewest, hplace⟩ := Option.map_eq_some_iff.mp hcursor
    rw [hnewest]
    exact hplace

theorem ListKept.listAt (hkept : ListKept runId db db') (h : ListAt serve accountId runId n db) :
    ListAt serve accountId runId n db' := by
  refine ⟨?_, ?_, ?_⟩
  · rw [hkept.staged]
    exact h.content
  · rw [hkept.checkpoints]
    exact h.cursors
  · rw [hkept.runs]
    exact h.row

end at_place

/-- The row of a run after an update of it. -/
theorem runsOf_updated {runId : Uuid} {f : SyncRun → SyncRun} {db db' : Database}
    (hf : ∀ run, (f run).syncRunId = run.syncRunId)
    (h : db'.syncRuns = updateWhere (fun r => decide (r.syncRunId = runId)) f db.syncRuns) :
    runsOf runId db' = (runsOf runId db).map f := by
  rw [runsOf, h, filter_updateWhere fun run => by rw [hf], ← runsOf]
  exact List.map_congr_left fun run hrun => if_pos (List.mem_filter.mp hrun).2

/-- The place after a staged page. -/
theorem listAt_recorded {accountId runId checkpointId : Uuid} {now : Time} {page : UserListsPage}
    {c c' : Catalog} {u : Unit} {n : ℕ}
    (h : recordListPage checkpointId now runId page c = .ok (u, c')) (hpage : page = pageAt serve n)
    (hat : ListAt serve accountId runId n c.tables) :
    ListAt serve accountId runId (n + 1) c'.tables := by
  obtain ⟨base, -, hrows⟩ := stagedListRows_recorded h
  obtain ⟨_, -, htables⟩ := recordListPage_spec h
  refine ⟨?_, ?_, ?_⟩
  · rw [hrows, List.map_append, hat.content, contentTo_succ, ← hpage]
    congr 1
    exact map_stagedListItems base _ _ fun _ _ _ => rfl
  · rw [checkpointsOf, htables, List.filter_append, ← checkpointsOf, List.map_append, hat.cursors,
      List.range_succ, List.map_append]
    congr 1
    simp [hpage, placeAt, pageAt]
  · obtain ⟨started, hrow⟩ := hat.row
    refine ⟨started, ?_⟩
    rw [countedTo_succ, ← hpage]
    rw [runsOf_updated (f := (·.counting page)) (fun _ => rfl) (congrArg Database.syncRuns htables), hrow]
    rfl

/-! ### One step of an attempt -/

namespace Attempt

variable {accountId runId : Uuid} {prior : Database} {now : Time} {i : AttemptInput UserListsPage}
  {c c' : Catalog} {phase next target : AttemptPhase UserListsPage (Option String)}

/-- A step that keeps what the run owns. -/
theorem listTracking_of_kept (h : ListTracking serve last accountId runId prior c phase)
    (hfollow : ListFollowing serve accountId runId prior c' next)
    (hkept : ListKept runId c.tables c'.tables) (hnext : Told target next)
    (hreading : ∀ r summary, target ≠ .reading r summary)
    (hstands : ∀ n, ListAt serve accountId runId n c.tables →
      (phase.runId? = some runId → phase.StandsAt serve last n) → target.runId? = some runId →
        target.StandsAt serve last n) :
    ListTracking serve last accountId runId prior c' next := by
  refine ⟨hfollow, fun hrunning => ?_, ?_⟩
  · obtain ⟨n, hle, hat, hplace⟩ := h.stands (hkept.running.mp hrunning)
    refine ⟨n, hle, hkept.listAt hat, ?_⟩
    rcases hnext with rfl | rfl
    · exact hstands n hat hplace
    · rintro ⟨⟩
  · rintro summary rfl
    rcases hnext with heq | heq
    · exact absurd heq.symm (hreading _ _)
    · cases heq

/-- A step after which the run is over. -/
theorem listTracking_over (hfollow : ListFollowing serve accountId runId prior c' next)
    (hover : ¬ Running runId c'.tables)
    (hnext : (∃ result, next = .ended result) ∨ next.runId? ≠ some runId) :
    ListTracking serve last accountId runId prior c' next := by
  refine ⟨hfollow, fun hrunning => absurd hrunning hover, ?_⟩
  rintro summary rfl
  rcases hnext with ⟨result, heq⟩ | hother
  · cases heq
  · exact absurd rfl hother

/-- **One step.**  An attempt of the run goes on at the place the run has reached. -/
theorem Turn.listTracking (h : Turn listEnumeration i now c accountId phase next c')
    (hends : EndsEmpty serve last) (hguard : Undisturbed serve last runId now c i phase)
    (htrack : ListTracking serve last accountId runId prior c phase) :
    ListTracking serve last accountId runId prior c' next := by
  have hfollow := h.listFollowing hguard.1 htrack.follows
  have hsame := listKept_refl runId c.tables
  rcases htrack.follows.works with ⟨result, rfl⟩ | hworks
  · cases h with
    | refused _ _ hlive => exact absurd rfl (hlive result)
    | done => exact htrack
  by_cases hopening : phase = .opening
  · subst hopening
    cases h with
    | found run _ hread hnext =>
      exact listTracking_of_kept htrack hfollow hsame hnext (by rintro _ _ ⟨⟩) fun _ _ _ _ => trivial
    | unfound _ _ hnext =>
      exact listTracking_of_kept htrack hfollow hsame hnext (by rintro _ _ ⟨⟩) fun _ _ _ _ => trivial
    | refused _ err =>
      exact listTracking_of_kept htrack hfollow hsame (.inl rfl) (by rintro _ _ ⟨⟩)
        fun _ _ _ _ => trivial
  by_cases hown : phase.runId? = some runId
  case neg =>
    have hover : ¬ Running runId c.tables := by
      rcases hworks with heq | hrun | hover
      · exact absurd heq hopening
      · exact absurd hrun hown
      · exact hover
    obtain ⟨row, hrow, hid, -⟩ := htrack.follows.solo.row
    obtain ⟨hover', hnext⟩ :=
      h.other listEnumeration_movesRuns ⟨row, hrow, hid⟩ hopening hown hover
    exact listTracking_over hfollow hover' hnext
  have hstands := htrack.follows.stands hown
  cases h with
  | found => exact absurd rfl hopening
  | unfound => exact absurd rfl hopening
  | inserted => cases hown
  | resumed r _ hnext =>
    obtain rfl : r = runId := Option.some.inj hown
    have hresume := hguard.2 rfl
    refine listTracking_of_kept htrack hfollow hsame hnext (by rintro _ _ ⟨⟩) fun n hat _ _ => ?_
    exact ⟨hat.length_checkpoints ▸ hresume.1, hat.resume_eq hresume⟩
  | acquired r place =>
    exact listTracking_of_kept htrack hfollow hsame (.inl rfl) (by rintro _ _ ⟨⟩)
      fun n _ hplace _ => hplace hown
  | paused r place =>
    exact listTracking_of_kept htrack hfollow hsame (.inl rfl) (by rintro _ _ ⟨⟩)
      fun _ _ _ _ => trivial
  | fetched r place =>
    refine listTracking_of_kept htrack hfollow hsame (.inl rfl) ?_ fun n _ hplace _ => ?_
    · intro r summary
      unfold afterFetch
      split
      · rintro ⟨⟩
      · split <;> rintro ⟨⟩
    · obtain ⟨hle, hplace⟩ := hplace hown
      unfold afterFetch
      split
      · trivial
      · next page hreply =>
        split
        · trivial
        · refine ⟨hle, ?_⟩
          rw [hguard.1 r place page rfl hreply, hplace]
          rfl
  | failed r reason _ _ hok hnext =>
    obtain rfl : r = runId := Option.some.inj hown
    refine listTracking_over hfollow (failRun_not_running hok) (.inl ?_)
    rcases hnext with rfl | rfl <;> exact ⟨_, rfl⟩
  | identified r place page =>
    exact listTracking_of_kept htrack hfollow hsame (.inl rfl) (by rintro _ _ ⟨⟩)
      fun n _ hplace _ => hplace hown
  | catalogued r place page entry todo id _ _ hok hnext =>
    have hkept := listKept_of_touches (touches_upsertRepositoryInTx _ _) hok (by decide)
      (relates_untouched_upsertRepository _ _ c id c' hok) runId
    refine listTracking_of_kept htrack hfollow hkept hnext ?_ fun n _ hplace _ => ?_
    · intro r summary
      unfold afterUpsert
      split <;> rintro ⟨⟩
    · unfold afterUpsert
      split <;> exact hplace hown
  | named r place page pid value todo id _ _ hok hnext =>
    have hkept := listKept_of_touches (touches_applyAliasObservation _ _ _ _ _ _) hok (by decide)
      (relates_untouched_applyAliasObservation _ _ _ _ _ _ c id c' hok) runId
    exact listTracking_of_kept htrack hfollow hkept hnext (by rintro _ _ ⟨⟩)
      fun n _ hplace _ => hplace hown
  | recorded r place page _ _ hok hnext =>
    obtain rfl : r = runId := Option.some.inj hown
    obtain ⟨n, -, hat, hplace⟩ := htrack.stands hstands.1
    obtain ⟨hle, hpage⟩ := hplace rfl
    refine ⟨hfollow, fun _ => ⟨n + 1, Nat.succ_le_succ hle, listAt_recorded hok hpage hat, fun _ => ?_⟩,
      ?_⟩
    · rcases hnext with rfl | rfl
      · unfold afterRecord
        split
        · next hend =>
          have hempty : (pageAt serve n).lists = [] := by
            rw [← hpage]
            exact List.isEmpty_iff.mp hend
          have hlast : ¬ n < last := fun hlt => hends.full n hlt hempty
          exact congrArg (· + 1) (Nat.le_antisymm hle (Nat.not_lt.mp hlast))
        · next hmore =>
          have hne : n ≠ last := by
            rintro rfl
            refine hmore (List.isEmpty_iff.mpr ?_)
            rw [hpage]
            exact hends.empty
          refine ⟨Nat.lt_of_le_of_ne hle hne, ?_⟩
          rw [hpage]
          rfl
      · trivial
    · rintro summary rfl
      rcases hnext with heq | heq
      · unfold afterRecord at heq
        split at heq <;> cases heq
      · cases heq
  | applied r summary _ _ hok hnext =>
    obtain rfl : r = runId := Option.some.inj hown
    have hrunning := hstands.1
    obtain ⟨n, -, hat, hplace⟩ := htrack.stands hrunning
    obtain rfl : n = last + 1 := hplace rfl
    obtain ⟨hprogress, huntouched⟩ := htrack.follows.progress hrunning
    refine ⟨hfollow, fun hrunning' => absurd hrunning' (listApplied_not_running hok), ?_⟩
    rintro summary' rfl
    obtain ⟨counts, c₁, hswap, hpure⟩ := Tx.bind_eq_ok.mp hok
    obtain ⟨hcounts, rfl⟩ := Tx.pure_eq_ok.mp hpure
    have hsummary : summary' = summary := by
      rcases hnext with heq | heq
      · cases heq
        rfl
      · cases heq
    refine ⟨c.tables, _, _, _, _, counts, c.valid, huntouched, hat, hprogress.catalogued,
      applyListAuthority_swapping hswap, ?_⟩
    rw [hsummary, ← hcounts]
  | readBack r summary observed _ hnext =>
    exact listTracking_of_kept htrack hfollow hsame hnext (by rintro _ _ ⟨⟩) fun _ _ _ _ => trivial
  | refused _ err =>
    exact listTracking_of_kept htrack hfollow hsame (.inl rfl) (by rintro _ _ ⟨⟩)
      fun _ _ _ _ => trivial
  | done result => exact htrack

end Attempt

/-! ### The outcome of a run -/

/-- What the row of a run says, apart from its times. -/
def SyncRun.counters (r : SyncRun) : SyncStatus × Option String × ℤ × ℤ × ℤ × ℤ × ℤ × ℤ :=
  (r.status, r.failureReason, r.pagesProcessed, r.itemsObserved, r.listsObserved, r.additions,
    r.unstars, r.removals)

/-- Two completed runs left the same lists and pairs, with the same counters. -/
structure SameOutcome (accountId runId runId' : Uuid) (db db' : Database) : Prop where
  lists : ∀ x, x ∈ listRows accountId db ↔ x ∈ listRows accountId db'
  pairs : ∀ x, x ∈ pairRows accountId db ↔ x ∈ pairRows accountId db'
  counters : (runsOf runId db).map SyncRun.counters = (runsOf runId' db').map SyncRun.counters

/-- Rows with the same counters count the same. -/
theorem countedTo_counters (n : ℕ) {run run' : SyncRun} (h : run.counters = run'.counters) :
    (countedTo serve n run).counters = (countedTo serve n run').counters := by
  induction n with
  | zero => exact h
  | succ n ih =>
    rw [countedTo_succ, countedTo_succ]
    simp only [SyncRun.counters, SyncRun.counting, Prod.mk.injEq] at ih ⊢
    obtain ⟨hstatus, hreason, hpages, hitems, hlists, hrest⟩ := ih
    exact ⟨hstatus, hreason, by rw [hpages], by rw [hitems], by rw [hlists], hrest⟩

/-- The name of a staged list is read off the content. -/
theorem stagedName_content (runId : Uuid) (p : String) (db : Database) :
    stagedName runId p db = ((((stagedListRows runId db).map (·.content)).filter fun x =>
      decide (x.1 = p)).map (·.2.1)).foldl (fun a b => if a < b then b else a) "" := by
  rw [stagedName, List.filter_map, List.map_map]
  rfl

section outcome

variable {accountId runId runId' : Uuid} {prior db db' : Database} {summary summary' : Summary}

/-- While a run is open, the account's pairs are the ones before it, former members included. -/
theorem Untouched.pairRows_eq {mid : Database} (h : Untouched prior mid) (hprior : Constraints prior)
    (hmid : Constraints mid) : pairRows accountId mid = pairRows accountId prior := by
  have hrows : mid.starListMemberships = prior.starListMemberships :=
    h.authority .starListMemberships (by decide)
  have hsame : prior.starListMemberships.filter (fun m => m.ofAccount accountId mid) =
      prior.starListMemberships.filter fun m => m.ofAccount accountId prior := by
    apply List.filter_congr
    intro m hm
    rw [(h.pairs accountId hprior hmid hm).1]
  rw [pairRows, pairRows, hrows, hsame]
  apply List.map_congr_left
  intro m hm
  rw [(h.pairs accountId hprior hmid (List.mem_of_mem_filter hm)).2]

/-- The row of a run that was applied after all of its pages. -/
theorem ListSettled.row (h : ListSettled serve last accountId runId prior db summary) :
    ∃ started now, runsOf runId db = [(countedTo serve (last + 1)
      (newSyncRun runId accountId .starLists started)).listedBy now summary.additions
        summary.removals] ∧
      summary.pagesProcessed =
        (countedTo serve (last + 1) (newSyncRun runId accountId .starLists started)).pagesProcessed.toNat ∧
      summary.itemsObserved =
        (countedTo serve (last + 1) (newSyncRun runId accountId .starLists started)).itemsObserved.toNat := by
  obtain ⟨mid, listIds, memberIds, removalIds, now, counts, hmid, -, hat, -, hswap, rfl⟩ := h
  obtain ⟨started, hrow⟩ := hat.row
  obtain ⟨run, hrun, hid, hcounts⟩ := hswap.counts
  have hsame : run = countedTo serve (last + 1) (newSyncRun runId accountId .starLists started) := by
    have hmem : run ∈ runsOf runId mid := List.mem_filter.mpr ⟨hrun, decide_eq_true hid⟩
    rw [hrow] at hmem
    exact List.mem_singleton.mp hmem
  refine ⟨started, now, ?_, ?_, ?_⟩
  · rw [runsOf_updated (f := (·.listedBy now _ _)) (fun _ => rfl) hswap.runs, hrow, hcounts]
    rfl
  · rw [hcounts, ← hsame]
    rfl
  · rw [hcounts, ← hsame]
    rfl

/-- **One outcome.**  Two runs over one listing and one prior state, applied after all of their
pages. -/
theorem ListSettled.same (h : ListSettled serve last accountId runId prior db summary)
    (h' : ListSettled serve last accountId runId' prior db' summary') (hprior : Constraints prior)
    (hvalid : Constraints db) (hvalid' : Constraints db') :
    SameOutcome accountId runId runId' db db' ∧ summary = summary' := by
  obtain ⟨started, now, hrow, hpages, hitems⟩ := h.row
  obtain ⟨started', now', hrow', hpages', hitems'⟩ := h'.row
  have hcounters :
      (countedTo serve (last + 1) (newSyncRun runId accountId .starLists started)).counters =
        (countedTo serve (last + 1) (newSyncRun runId' accountId .starLists started')).counters :=
    countedTo_counters _ rfl
  simp only [SyncRun.counters, Prod.mk.injEq] at hcounters
  obtain ⟨-, hreason, hpage, hitem, hlist, -, hunstars, -⟩ := hcounters
  obtain ⟨mid, listIds, memberIds, removalIds, _, counts, hmid, huntouched, hat, hcatalogued, hswap,
    rfl⟩ := h
  obtain ⟨mid', listIds', memberIds', removalIds', _, counts', hmid', huntouched', hat', hcatalogued',
    hswap', rfl⟩ := h'
  have hcontent : (stagedListRows runId mid).map (·.content) =
      (stagedListRows runId' mid').map (·.content) := hat.content.trans hat'.content.symm
  have hnames : stagedPairNames runId mid = stagedPairNames runId' mid' :=
    hat.pairs.trans hat'.pairs.symm
  have hlists : (stagedListRows runId mid).map (·.providerListId) =
      (stagedListRows runId' mid').map (·.providerListId) := by
    have hfirst := congrArg (List.map Prod.fst) hcontent
    rwa [List.map_map, List.map_map] at hfirst
  have htable : mid.starLists = mid'.starLists :=
    (huntouched.authority .starLists (by decide)).trans
      (huntouched'.authority .starLists (by decide)).symm
  have hadditions : counts.2.2.1 = counts'.2.2.1 := by
    rw [hswap.additions_eq hmid hcatalogued, hswap'.additions_eq hmid' hcatalogued', hnames,
      huntouched.memberPairs_eq hprior hmid, huntouched'.memberPairs_eq hprior hmid']
  have hremovals : counts.2.2.2 = counts'.2.2.2 := by
    rw [hswap.removals_eq hmid, hswap'.removals_eq hmid', hnames,
      huntouched.memberPairs_eq hprior hmid, huntouched'.memberPairs_eq hprior hmid']
  refine ⟨⟨fun x => ?_, fun x => ?_, ?_⟩, ?_⟩
  · rw [hswap.mem_listRows, hswap'.mem_listRows, hlists, stagedName_content, stagedName_content,
      hcontent, htable]
  · rw [hswap.mem_pairRows hmid hvalid hcatalogued, hswap'.mem_pairRows hmid' hvalid' hcatalogued',
      hnames, huntouched.pairRows_eq hprior hmid, huntouched'.pairRows_eq hprior hmid']
  · rw [hrow, hrow']
    simp [SyncRun.counters, SyncRun.listedBy, summaryOf, hreason, hpage, hitem, hlist, hunstars,
      hadditions, hremovals]
  · rw [hpage] at hpages
    rw [hitem] at hitems
    have hpagesSame := hpages.trans hpages'.symm
    have hitemsSame := hitems.trans hitems'.symm
    simp only [summaryOf] at hpagesSame hitemsSame ⊢
    rw [hpagesSame, hitemsSame, hadditions, hremovals]

/-- The list counter a completed run reports is the one of its row. -/
theorem ListSettled.observed {c c' : Catalog}
    (h : ListSettled serve last accountId runId prior c.tables summary) {observed : ℕ}
    (hread : Attempt.readListsObserved runId c = .ok (observed, c')) :
    ((runsOf runId c.tables).map fun r => r.listsObserved.toNat) = [observed] := by
  obtain ⟨started, now, hrow, -⟩ := h.row
  obtain ⟨hfind, -⟩ := fetchOne_eq_ok.mp hread
  rw [← List.head?_filter, ← runsOf, hrow] at hfind
  rw [hrow, List.map_singleton, ← Option.some.inj hfind]

end outcome

/-! ### The fetches of an attempt -/

def AttemptPhase.fetchesFor {Page Place : Type} (runId : Uuid) : AttemptPhase Page Place → Bool
  | fetching r _ => decide (r = runId)
  | _ => false

namespace Snapshots

variable {Page Place : Type}

/-- In this step, an attempt fetches a page of the run. -/
def fetches (runId : Uuid) (n : ℕ) (s : Snapshots Page Place) : SnapshotEvent Page → Bool
  | .advance m _ => decide (m = n) && (s.attempts[n]?).any fun a => !a.finished && a.phase.fetchesFor runId
  | .catalog _ => false

/-- How many pages of the run an attempt fetches in a history. -/
def fetchCount (k : Contracts) (e : Enumeration Page Place) (runId : Uuid) (n : ℕ) :
    Snapshots Page Place → List (SnapshotEvent Page) → ℕ
  | _, [] => 0
  | s, event :: events =>
    (s.fetches runId n event).toNat + fetchCount k e runId n (s.step k e event) events

end Snapshots

/-- The attempt can fetch so many more pages of the run, at most. -/
def AttemptPhase.CanFetch (serve : Option String → UserListsPage) (last : ℕ) (runId : Uuid) (m : ℕ) :
    AttemptPhase UserListsPage (Option String) → Prop
  | opening | inserting | resuming _ => last + 1 ≤ m
  | acquiring r place | fetching r place =>
    r = runId → ∃ n ≤ last, place = placeAt serve n ∧ last + 1 ≤ n + m
  | identifying r _ page _ | naming r _ page _ _ _ | recording r _ page =>
    r = runId → ∃ n ≤ last, page = pageAt serve n ∧ last ≤ n + m
  | failing _ _ | applying _ | reading _ _ | ended _ => True

section fetches

variable {accountId runId : Uuid} {prior : Database} {now : Time} {i : AttemptInput UserListsPage}
  {c c' : Catalog} {phase next : AttemptPhase UserListsPage (Option String)} {m : ℕ}

/-- Where an attempt that works for the run stands. -/
theorem ListTracking.exists_place (h : ListTracking serve last accountId runId prior c phase)
    (hown : phase.runId? = some runId) (hrunning : Running runId c.tables) :
    ∃ n, phase.StandsAt serve last n := by
  obtain ⟨n, -, -, hplace⟩ := h.stands hrunning
  exact ⟨n, hplace hown⟩

/-- No attempt can fetch more pages than the listing has. -/
theorem ListTracking.canFetch (h : ListTracking serve last accountId runId prior c phase) :
    phase.CanFetch serve last runId (last + 1) := by
  cases phase with
  | opening | inserting | resuming => exact le_rfl
  | acquiring r place | fetching r place =>
    rintro rfl
    obtain ⟨n, hle, hplace⟩ := h.exists_place rfl (h.follows.stands rfl).1
    exact ⟨n, hle, hplace, Nat.le_add_left _ _⟩
  | identifying r _ page | naming r _ page | recording r _ page =>
    rintro rfl
    obtain ⟨n, hle, hpage⟩ := h.exists_place rfl (h.follows.stands rfl).1
    exact ⟨n, hle, hpage, by omega⟩
  | failing | applying | reading | ended => trivial

theorem AttemptPhase.CanFetch.pos (h : phase.CanFetch serve last runId m)
    (hfetch : phase.fetchesFor runId = true) : 0 < m := by
  cases phase with
  | fetching r place =>
    obtain ⟨n, hle, -, hleft⟩ := h (of_decide_eq_true hfetch)
    omega
  | _ => cases hfetch

theorem canFetch_told {target : AttemptPhase UserListsPage (Option String)}
    (hnext : Attempt.Told target next) (h : target.CanFetch serve last runId m) :
    next.CanFetch serve last runId m := by
  rcases hnext with rfl | rfl
  · exact h
  · trivial

/-- A fetch uses up one of the pages an attempt can fetch, and nothing adds to them. -/
theorem Attempt.Turn.canFetch (h : Attempt.Turn listEnumeration i now c accountId phase next c')
    (hends : EndsEmpty serve last) (hserve : Serves serve now c i phase)
    (hafter : ListTracking serve last accountId runId prior c' next)
    (hcan : phase.CanFetch serve last runId m) :
    ∃ m', (phase.fetchesFor runId).toNat + m' ≤ m ∧ next.CanFetch serve last runId m' := by
  cases h with
  | found run _ _ hnext => exact ⟨m, (Nat.zero_add m).le, canFetch_told hnext hcan⟩
  | unfound _ _ hnext => exact ⟨m, (Nat.zero_add m).le, canFetch_told hnext hcan⟩
  | resumed r _ hnext =>
    refine ⟨last + 1, ?_, hafter.canFetch⟩
    exact (Nat.zero_add _).trans_le hcan
  | inserted _ _ _ hnext =>
    refine ⟨last + 1, ?_, hafter.canFetch⟩
    exact (Nat.zero_add _).trans_le hcan
  | acquired r place => exact ⟨m, (Nat.zero_add m).le, hcan⟩
  | fetched r place =>
    by_cases hown : r = runId
    · obtain ⟨n, hle, hplace, hleft⟩ := hcan hown
      refine ⟨m - 1, ?_, ?_⟩
      · rw [AttemptPhase.fetchesFor, decide_eq_true hown, Bool.toNat_true]
        omega
      · unfold Attempt.afterFetch
        split
        · trivial
        · next page hreply =>
          split
          · trivial
          · refine fun _ => ⟨n, hle, ?_, by omega⟩
            rw [hserve r place page rfl hreply, hplace]
            rfl
    · refine ⟨m, ?_, ?_⟩
      · rw [AttemptPhase.fetchesFor, decide_eq_false hown, Bool.toNat_false, Nat.zero_add]
      · unfold Attempt.afterFetch
        split
        · trivial
        · split
          · trivial
          · exact fun heq => absurd heq hown
  | identified r place page => exact ⟨m, (Nat.zero_add m).le, hcan⟩
  | catalogued r place page entry todo _ _ _ _ hnext =>
    refine ⟨m, (Nat.zero_add m).le, canFetch_told hnext ?_⟩
    unfold Attempt.afterUpsert
    split <;> exact hcan
  | named r place page pid value todo _ _ _ _ hnext =>
    exact ⟨m, (Nat.zero_add m).le, canFetch_told hnext hcan⟩
  | recorded r place page _ _ _ hnext =>
    refine ⟨m, (Nat.zero_add m).le, canFetch_told hnext ?_⟩
    unfold Attempt.afterRecord
    split
    · trivial
    · next hmore =>
      intro hown
      obtain ⟨n, hle, hpage, hleft⟩ := hcan hown
      have hne : n ≠ last := by
        rintro rfl
        refine hmore (List.isEmpty_iff.mpr ?_)
        rw [hpage]
        exact hends.empty
      refine ⟨n + 1, Nat.lt_of_le_of_ne hle hne, ?_, by omega⟩
      rw [hpage]
      rfl
  | applied r summary _ _ _ hnext =>
    refine ⟨m, (Nat.zero_add m).le, canFetch_told hnext ?_⟩
    unfold Attempt.afterApply
    split <;> trivial
  | failed _ _ _ _ _ hnext | readBack _ _ _ _ hnext =>
    exact ⟨m, (Nat.zero_add m).le, canFetch_told hnext trivial⟩
  | paused | done => exact ⟨m, (Nat.zero_add m).le, trivial⟩
  | refused _ err =>
    cases hfetch : phase.fetchesFor runId with
    | false => exact ⟨m, (Nat.zero_add m).le, trivial⟩
    | true => exact ⟨m - 1, by have := hcan.pos hfetch; rw [Bool.toNat_true]; omega, trivial⟩

end fetches

/-! ### Whole histories -/

section runs

variable {k : Contracts} {accountId runId : Uuid} {prior : Database}
  {before s : Snapshots UserListsPage (Option String)} {events : List (SnapshotEvent UserListsPage)}

theorem ListTracking.at_opening {c : Catalog} {phase : AttemptPhase UserListsPage (Option String)}
    (h : ListTracking serve last accountId runId prior c phase) :
    ListTracking serve last accountId runId prior c .opening := by
  refine ⟨h.follows.at_opening, fun hrunning => ?_, by rintro _ ⟨⟩⟩
  obtain ⟨n, hle, hat, -⟩ := h.stands hrunning
  exact ⟨n, hle, hat, fun _ => trivial⟩

/-- One event of the histories. -/
theorem listTracking_step (hends : EndsEmpty serve last) {event : SnapshotEvent UserListsPage}
    (h : Snapshots.KeptBy (fun _ => ListTracking serve last accountId runId prior) accountId s)
    (hseq : s.Sequential event) (hguard : s.Meets (Undisturbed serve last runId) event) :
    Snapshots.KeptBy (fun _ => ListTracking serve last accountId runId prior) accountId
      (s.step k listEnumeration event) :=
  Snapshots.keptBy_step (fun hguard hturn h => hturn.listTracking hends hguard h)
    (fun h => h.at_opening) (fun _ h => h) h hseq hguard

/-- The start of a run. -/
theorem listTracking_opening
    (hopening : Snapshots.Opening k listEnumeration accountId runId before s) :
    Snapshots.KeptBy (fun _ => ListTracking serve last accountId runId before.catalog.tables)
      accountId s := by
  refine hopening.keptBy listEnumeration_movesRuns (fun h => h.at_opening) fun {now c'} hok => ?_
  have hfollow : ListFollowing serve accountId runId before.catalog.tables c' (.acquiring runId none) :=
    listFollowing_inserted hopening.idle hok
  refine ⟨hfollow, fun _ => ⟨0, Nat.zero_le _, ⟨?_, ?_, now, ?_⟩, fun _ => ⟨Nat.zero_le _, rfl⟩⟩,
    by rintro _ ⟨⟩⟩
  · rw [insertSyncRun_staged hok]
    rfl
  · rw [insertSyncRun_checkpoints hok]
    rfl
  · have hold : runsOf runId before.catalog.tables = [] := by
      rw [runsOf, List.filter_eq_nil_iff]
      intro run hrun hid
      exact insertSyncRun_fresh hok (List.mem_map.mpr ⟨run, hrun, of_decide_eq_true hid⟩)
    have hruns : c'.tables.syncRuns =
        before.catalog.tables.syncRuns ++ [newSyncRun runId accountId .starLists now] := by
      rw [write_eq_ok.mp hok]
      rfl
    rw [runsOf, hruns, List.filter_append, ← runsOf, hold]
    simp [newSyncRun, countedTo]

/-- One event uses up at most one of the pages an attempt can fetch, and only if it fetches one. -/
theorem canFetch_step (hends : EndsEmpty serve last) (n : ℕ) {m : ℕ}
    {event : SnapshotEvent UserListsPage}
    (h : Snapshots.KeptBy (fun _ => ListTracking serve last accountId runId prior) accountId s)
    (hcan : ∀ a, s.attempts[n]? = some a → a.finished = false → a.phase.CanFetch serve last runId m)
    (hseq : s.Sequential event) (hmeets : s.Meets (Undisturbed serve last runId) event) :
    ∃ m', (s.fetches runId n event).toNat + m' ≤ m ∧
      ∀ a, (s.step k listEnumeration event).attempts[n]? = some a → a.finished = false →
        a.phase.CanFetch serve last runId m' := by
  cases event with
  | catalog => exact hseq.elim
  | advance j i =>
    by_cases hown : j = n
    case neg =>
      refine ⟨m, ?_, fun a ha hlive => hcan a ?_ hlive⟩
      · rw [Snapshots.fetches, decide_eq_false hown]
        exact (Nat.zero_add m).le
      · cases hattempt : s.attempts[j]? with
        | none => rwa [Snapshots.step_advance_none hattempt] at ha
        | some b =>
          rw [Snapshots.step_advance hattempt] at ha
          rwa [List.getElem?_set_ne hown] at ha
    subst hown
    cases hattempt : s.attempts[j]? with
    | none =>
      refine ⟨m, ?_, fun a ha => ?_⟩
      · rw [Snapshots.fetches, hattempt, Option.any_none, Bool.and_false]
        exact (Nat.zero_add m).le
      · rw [Snapshots.step_advance_none hattempt, hattempt] at ha
        cases ha
    | some a =>
      have hset : ∀ b, (s.step k listEnumeration (.advance j i)).attempts[j]? = some b →
          b = (a.next listEnumeration i (s.clock + i.elapsed) s.catalog).1 := by
        intro b hb
        rw [Snapshots.step_advance hattempt, List.getElem?_set_self', hattempt] at hb
        exact (Option.some.inj hb).symm
      cases hover : a.finished with
      | true =>
        refine ⟨m, ?_, fun b hb hlive => ?_⟩
        · rw [Snapshots.fetches, hattempt, Option.any_some, hover, Bool.not_true, Bool.false_and,
            Bool.and_false]
          exact (Nat.zero_add m).le
        · rw [hset b hb, Attempt.finished_next hover] at hlive
          cases hlive
      | false =>
        have hmem := List.mem_of_getElem? hattempt
        have hturn := a.turn listEnumeration i (s.clock + i.elapsed) s.catalog
        rw [h.accounts a hmem] at hturn
        have htrack := hturn.listTracking hends (hmeets a hattempt) (h.attempts a hmem hover)
        obtain ⟨m', hle, hcan'⟩ :=
          hturn.canFetch hends (hmeets a hattempt).1 htrack (hcan a hattempt hover)
        refine ⟨m', ?_, fun b hb hlive => ?_⟩
        · rw [Snapshots.fetches, hattempt, Option.any_some, hover, Bool.not_false, Bool.true_and,
            decide_eq_true rfl, Bool.true_and]
          exact hle
        · rw [hset b hb] at hlive ⊢
          rw [(Attempt.phase_next hlive).2]
          exact hcan'
/-- The fetches an attempt has left bound its fetches in every history. -/
theorem fetchCount_le_of_canFetch (hends : EndsEmpty serve last) (n : ℕ) {m : ℕ}
    (h : Snapshots.KeptBy (fun _ => ListTracking serve last accountId runId prior) accountId s)
    (hcan : ∀ a, s.attempts[n]? = some a → a.finished = false → a.phase.CanFetch serve last runId m)
    (hseq : Guarded (Snapshots.step k listEnumeration) Snapshots.Sequential s events)
    (hmeets : Guarded (Snapshots.step k listEnumeration)
      (Snapshots.Meets (Undisturbed serve last runId)) s events) :
    Snapshots.fetchCount k listEnumeration runId n s events ≤ m := by
  induction events generalizing s m with
  | nil => exact Nat.zero_le m
  | cons event events ih =>
    obtain ⟨m', hle, hcan'⟩ := canFetch_step (k := k) hends n h hcan hseq.1 hmeets.1
    have hrest := ih (listTracking_step hends h hseq.1 hmeets.1) hcan' hseq.2 hmeets.2
    rw [Snapshots.fetchCount]
    omega

/-- What is staged while the run is open. -/
def StagesOnce (serve : Option String → UserListsPage) (last : ℕ) (runId : Uuid) (db : Database) :
    Prop :=
  Running runId db → stagedPairNames runId db <+: pairsTo serve last ∧
    ((pairsTo serve last).Nodup → (stagedPairNames runId db).Nodup)

theorem ListAt.stagesOnce (hends : EndsEmpty serve last) {n : ℕ} {db : Database}
    (h : ListAt serve accountId runId n db) (hle : n ≤ last + 1) : StagesOnce serve last runId db := by
  have hinitial : stagedPairNames runId db <+: pairsTo serve last := by
    rw [h.pairs, ← pairsTo_last hends]
    refine List.IsPrefix.flatMap ?_ _
    rw [← Nat.add_sub_of_le hle, List.range_add]
    exact List.prefix_append _ _
  exact fun _ => ⟨hinitial, fun hnodup => hnodup.sublist hinitial.sublist⟩

/-- What is known along a history. -/
theorem listTracking_runFrom (hends : EndsEmpty serve last)
    (hopening : Snapshots.Opening k listEnumeration accountId runId before s)
    (hseq : Guarded (Snapshots.step k listEnumeration) Snapshots.Sequential s events)
    (hmeets : Guarded (Snapshots.step k listEnumeration)
      (Snapshots.Meets (Undisturbed serve last runId)) s events) :
    Snapshots.KeptBy (fun _ => ListTracking serve last accountId runId before.catalog.tables) accountId
      (runFrom (Snapshots.step k listEnumeration) s events) :=
  Snapshots.keptBy_runFrom (fun hguard hturn h => hturn.listTracking hends hguard h)
    (fun h => h.at_opening) (fun _ h => h) (listTracking_opening hopening) hseq hmeets

/-- A completed run was applied after all of its pages, and reports the counter of its row. -/
theorem listSettled_of_completes (hends : EndsEmpty serve last)
    (hopening : Snapshots.Opening k listEnumeration accountId runId before s)
    (hseq : Guarded (Snapshots.step k listEnumeration) Snapshots.Sequential s events)
    (hmeets : Guarded (Snapshots.step k listEnumeration)
      (Snapshots.Meets (Undisturbed serve last runId)) s events) {summary : Summary} {observed : ℕ}
    (hdone : s.Completes k listEnumeration events runId summary observed) :
    ListSettled serve last accountId runId before.catalog.tables
        (runFrom (Snapshots.step k listEnumeration) s events).catalog.tables summary ∧
      (runsOf runId (runFrom (Snapshots.step k listEnumeration) s events).catalog.tables).map
        (fun r => r.listsObserved.toNat) = [observed] := by
  obtain ⟨pre, n, i, a, rfl, ha, hlive, hreading, hsame, c', hread⟩ := reading_of_completes rfl hdone
  have hkept := listTracking_runFrom hends hopening (guarded_append.mp hseq).1
    (guarded_append.mp hmeets).1
  have hsettled := (hkept.attempts a (List.mem_of_getElem? ha) hlive).done summary hreading
  rw [hsame]
  exact ⟨hsettled, hsettled.observed hread⟩

/-- **Resumed list snapshots.**  The listing stands still and ends with an empty page, and the run is
resumed only before that page is recorded and from checkpoints with increasing times.  Then, wherever
pauses and crashes fall: no attempt fetches more pages than the listing has; no pair is staged more
often than it is listed; and the run ends as any other such run over the same prior state does, one
that is never resumed in particular. -/
theorem listRuns_resumed (k : Contracts) (hends : EndsEmpty serve last)
    (hopening : Snapshots.Opening k listEnumeration accountId runId before s)
    (events : List (SnapshotEvent UserListsPage))
    (hseq : Guarded (Snapshots.step k listEnumeration) Snapshots.Sequential s events)
    (hmeets : Guarded (Snapshots.step k listEnumeration)
      (Snapshots.Meets (Undisturbed serve last runId)) s events) :
    (∀ n, Snapshots.fetchCount k listEnumeration runId n s events ≤ last + 1) ∧
      Throughout (Snapshots.step k listEnumeration)
        (fun t => StagesOnce serve last runId t.catalog.tables) s events ∧
      ∀ (runId' : Uuid) (before' s' : Snapshots UserListsPage (Option String))
        (events' : List (SnapshotEvent UserListsPage)) (summary summary' : Summary)
        (observed observed' : ℕ),
        before'.catalog.tables = before.catalog.tables →
        Snapshots.Opening k listEnumeration accountId runId' before' s' →
        Guarded (Snapshots.step k listEnumeration) Snapshots.Sequential s' events' →
        Guarded (Snapshots.step k listEnumeration)
          (Snapshots.Meets (Undisturbed serve last runId')) s' events' →
        s.Completes k listEnumeration events runId summary observed →
        s'.Completes k listEnumeration events' runId' summary' observed' →
        SameOutcome accountId runId runId'
            (runFrom (Snapshots.step k listEnumeration) s events).catalog.tables
            (runFrom (Snapshots.step k listEnumeration) s' events').catalog.tables ∧
          summary = summary' ∧ observed = observed' := by
  have hstart : Snapshots.KeptBy (fun _ => ListTracking serve last accountId runId
      before.catalog.tables) accountId s := listTracking_opening hopening
  refine ⟨fun n => ?_, ?_, ?_⟩
  · exact fetchCount_le_of_canFetch hends n hstart (fun a ha hlive =>
      (hstart.attempts a (List.mem_of_getElem? ha) hlive).canFetch) hseq hmeets
  · have hkept : Throughout (Snapshots.step k listEnumeration) (Snapshots.KeptBy (fun _ =>
        ListTracking serve last accountId runId before.catalog.tables) accountId) s events := by
      refine throughout_of_guarded ?_ hstart (hseq.and hmeets)
      exact fun t event h hguard => listTracking_step hends h hguard.1 hguard.2
    refine hkept.mono fun t h hrunning => ?_
    obtain ⟨n, hle, hat, -⟩ := h.opening.stands hrunning
    exact hat.stagesOnce hends hle hrunning
  · intro runId' before' s' events' summary summary' observed observed' hprior hopening' hseq' hmeets'
      hdone hdone'
    obtain ⟨hsettled, hobserved⟩ := listSettled_of_completes hends hopening hseq hmeets hdone
    obtain ⟨hsettled', hobserved'⟩ := listSettled_of_completes hends hopening' hseq' hmeets' hdone'
    rw [hprior] at hsettled'
    obtain ⟨houtcome, hsummary⟩ := hsettled.same hsettled' before.catalog.valid
      (runFrom (Snapshots.step k listEnumeration) s events).catalog.valid
      (runFrom (Snapshots.step k listEnumeration) s' events').catalog.valid
    refine ⟨houtcome, hsummary, ?_⟩
    have hcount := congrArg (List.map fun x : SyncStatus × Option String × ℤ × ℤ × ℤ × ℤ × ℤ × ℤ =>
      x.2.2.2.2.1.toNat) houtcome.counters
    rw [List.map_map, List.map_map] at hcount
    exact List.singleton_inj.mp (hobserved.symm.trans (hcount.trans hobserved'))

end runs

/-! ### Samples -/

instance decidableUndisturbed (serve : Option String → UserListsPage) (last : ℕ) (runId : Uuid)
    (now : Time) (c : Catalog) (i : AttemptInput UserListsPage)
    (phase : AttemptPhase UserListsPage (Option String)) :
    Decidable (Undisturbed serve last runId now c i phase) :=
  inferInstanceAs (Decidable (Serves serve now c i phase ∧
    (phase = .resuming runId → (checkpointsOf runId c.tables).length ≤ last ∧
      (checkpointsOf runId c.tables).Pairwise fun a b => a.recordedAt < b.recordedAt)))

theorem servedLists_endsEmpty {lists : List UserListNode} (hne : lists ≠ []) :
    EndsEmpty (servedLists lists) 1 := by
  refine ⟨fun n hn => ?_, rfl⟩
  obtain rfl : n = 0 := Nat.lt_one_iff.mp hn
  exact hne

/-- As before the list run, with a second attempt behind the first. -/
def beforeListRetry : Snapshots UserListsPage (Option String) :=
  { beforeListRun with attempts := [⟨1, .inserting, false⟩, ⟨1, .opening, false⟩] }

def openedListRetry : Snapshots UserListsPage (Option String) :=
  beforeListRetry.step sampleContracts listEnumeration (.advance 0 (listInput 3000 ⟨[], none⟩))

theorem openedListRetry_opening :
    Snapshots.Opening sampleContracts listEnumeration 1 3000 beforeListRetry openedListRetry :=
  ⟨by decide +kernel, ⟨.advance 0 (listInput 3000 ⟨[], none⟩),
    by simp [Snapshots.Sequential, beforeListRetry], rfl⟩, by decide +kernel, by decide +kernel,
    by decide +kernel⟩

/-- The steps of both attempts: the process stops after `crash` steps of the first, and the first page
is served in the steps of `pages`. -/
def listRetrySteps (lists : List UserListNode) (crash steps : ℕ) (pages : List ℕ) :
    List (SnapshotEvent UserListsPage) :=
  (List.range steps).map fun j => .advance (if j < crash then 0 else 1)
    { listInput (BitVec.ofNat 128 (4000 + 100 * j))
        (if j ∈ pages then ⟨lists, some "next"⟩ else ⟨[], none⟩) with
      crash := decide (j + 1 = crash) }

/-- A process that stops after its first page, and an attempt that completes the run. -/
theorem listRuns_resumed_retry :
    Snapshots.fetchCount sampleContracts listEnumeration 3000 1 openedListRetry
        (listRetrySteps movedList 6 14 [1]) ≤ 2 ∧
      SameOutcome 1 3000 3000
        (runFrom (Snapshots.step sampleContracts listEnumeration) openedListRetry
          (listRetrySteps movedList 6 14 [1])).catalog.tables
        (runFrom (Snapshots.step sampleContracts listEnumeration) openedListRun
          (listRunSteps movedList 6 12)).catalog.tables := by
  have hretried : openedListRetry.Completes sampleContracts listEnumeration
      (listRetrySteps movedList 6 14 [1]) 3000 ⟨2, 1, 1, 1⟩ 1 :=
    ⟨listRetrySteps movedList 6 13 [1], 1, { listInput 5300 ⟨[], none⟩ with crash := false },
      ⟨1, .reading 3000 ⟨2, 1, 1, 1⟩, false⟩,
      ⟨1, .ended (.ok (.completed 3000 ⟨2, 1, 1, 1⟩ 1)), false⟩, rfl, by decide +kernel, rfl,
      by decide +kernel, rfl⟩
  have hunretried : openedListRun.Completes sampleContracts listEnumeration
      (listRunSteps movedList 6 12) 3000 ⟨2, 1, 1, 1⟩ 1 :=
    ⟨listRunSteps movedList 6 11, 0, listInput 5100 ⟨[], none⟩, ⟨1, .reading 3000 ⟨2, 1, 1, 1⟩, false⟩,
      ⟨1, .ended (.ok (.completed 3000 ⟨2, 1, 1, 1⟩ 1)), false⟩, rfl, by decide +kernel, rfl,
      by decide +kernel, rfl⟩
  obtain ⟨hfetches, -, hsame⟩ := listRuns_resumed sampleContracts
    (@servedLists_endsEmpty movedList (by decide)) openedListRetry_opening
    (listRetrySteps movedList 6 14 [1]) (by decide +kernel) (by decide +kernel)
  exact ⟨hfetches 1, (hsame 3000 beforeListRun openedListRun (listRunSteps movedList 6 12) ⟨2, 1, 1, 1⟩
    ⟨2, 1, 1, 1⟩ 1 1 rfl openedListRun_opening (by decide +kernel) (by decide +kernel) hretried
    hunretried).1⟩

/-- **A run that begins again.**  The process stops between the checkpoint of the empty page and the
swap; the next attempt resumes at the first page, and stages the only pair twice.  A gateway whose only
page has no cursor is asked for it again and again. -/
theorem staged_twice :
    EndsEmpty (servedLists movedList) 1 ∧
      Snapshots.Opening sampleContracts listEnumeration 1 3000 beforeListRetry openedListRetry ∧
      Guarded (Snapshots.step sampleContracts listEnumeration) Snapshots.Sequential openedListRetry
        (listRetrySteps movedList 10 18 [1, 13]) ∧
      Guarded (Snapshots.step sampleContracts listEnumeration)
        (Snapshots.Meets (Serves (servedLists movedList))) openedListRetry
        (listRetrySteps movedList 10 18 [1, 13]) ∧
      stagedPairNames 3000 (runFrom (Snapshots.step sampleContracts listEnumeration) openedListRetry
        (listRetrySteps movedList 10 18 [1, 13])).catalog.tables = [("list-b", 102), ("list-b", 102)] ∧
      Guarded (Snapshots.step sampleContracts listEnumeration)
        (Snapshots.Meets (Serves fun _ => ⟨movedList, none⟩)) openedListRun
        ((List.range 18).map fun j => .advance 0
          (listInput (BitVec.ofNat 128 (4000 + 100 * j)) ⟨movedList, none⟩)) ∧
      Snapshots.fetchCount sampleContracts listEnumeration 3000 0 openedListRun
        ((List.range 18).map fun j => .advance 0
          (listInput (BitVec.ofNat 128 (4000 + 100 * j)) ⟨movedList, none⟩)) = 3 :=
  ⟨servedLists_endsEmpty (by decide), openedListRetry_opening, by decide +kernel⟩

end GithubCatalog
