import GithubCatalog.ListPairs
import GithubCatalog.SequentialRuns

/-!
# A list snapshot over an enumeration that stands still

The gateway serves one page per cursor.  A run follows the cursors, resumes at a recorded one after a
pause or a crash, and applies what it staged after an empty page.  Whatever the attempts do, the
staging holds only pairs of served pages, and all pairs of the pages before the place of an attempt or
a checkpoint; so a swap that goes through establishes the enumerated pairs.  Lists are staged through
their members only: a list without members is not staged at all.

* `Enumerates` - the lists a gateway serves; `placeAt`, `pageAt` - its cursors and pages;
* `ListFollowing` - what is known of the run, from every attempt; `Turn.listFollowing` - one step;
* `ListsExact` - the lists and pairs of the account are the enumerated ones, with evidence and counts;
* `listSnapshot_exact_iff` - a completed run leaves them exactly when every enumerated list has a
  member.
-/

namespace GithubCatalog

open Relational Runs Transact

/-! ### Pages -/

section pages

variable (serve : Option String → UserListsPage)

/-- The cursor after some pages. -/
def placeAt : ℕ → Option String
  | 0 => none
  | n + 1 => (serve (placeAt n)).nextCursor

def pageAt (n : ℕ) : UserListsPage := serve (placeAt serve n)

/-- The pairs of some lists. -/
def listedPairs (lists : List UserListNode) : List (String × ℤ) :=
  lists.flatMap fun l => l.items.map fun item => (l.providerListId, item.providerRepositoryId)

/-- The gateway serves these lists.  They are distinct, and behind an empty page there is nothing: if
it carries a cursor, that leads to an empty page. -/
structure Enumerates (lists : List UserListNode) : Prop where
  complete : ∀ l, l ∈ lists ↔ ∃ n, l ∈ (pageAt serve n).lists
  distinct : (lists.map (·.providerListId)).Nodup
  ends : ∀ n, (pageAt serve n).lists = [] →
    (pageAt serve n).nextCursor = none ∨ (pageAt serve (n + 1)).lists = []

/-- A fetch that succeeds brings the page of its cursor. -/
def Serves (_now : Time) (_c : Catalog) (i : AttemptInput UserListsPage)
    (phase : AttemptPhase UserListsPage (Option String)) : Prop :=
  ∀ runId place page, phase = .fetching runId place → i.reply = .ok page → page = serve place

/-- All pairs of the first pages are staged. -/
def CoveredTo (runId : Uuid) (n : ℕ) (db : Database) : Prop :=
  ∀ m < n, ∀ x ∈ listedPairs (pageAt serve m).lists, x ∈ stagedPairNames runId db

end pages

variable {serve : Option String → UserListsPage}

theorem pageAt_congr {m m' : ℕ} (h : placeAt serve m = placeAt serve m') :
    pageAt serve m = pageAt serve m' :=
  congrArg serve h

/-- Behind an empty page the pages repeat the ones before it, or are empty. -/
theorem Enumerates.page_repeats {lists : List UserListNode} (h : Enumerates serve lists) {n : ℕ}
    (hempty : (pageAt serve n).lists = []) (m : ℕ) :
    (∃ m' < n, placeAt serve m = placeAt serve m') ∨ (pageAt serve m).lists = [] := by
  induction m with
  | zero =>
    rcases Nat.eq_zero_or_pos n with rfl | hpos
    · exact .inr hempty
    · exact .inl ⟨0, hpos, rfl⟩
  | succ m ih =>
    rcases ih with ⟨m', hlt, hsame⟩ | hnil
    · have hnext : placeAt serve (m + 1) = placeAt serve (m' + 1) := by
        rw [placeAt, placeAt, hsame]
      rcases Nat.lt_or_eq_of_le hlt with hlt' | heq
      · exact .inl ⟨m' + 1, hlt', hnext⟩
      · right
        rw [pageAt_congr hnext, show m' + 1 = n from heq]
        exact hempty
    · rcases h.ends m hnil with hnone | hnil'
      · have hnext : placeAt serve (m + 1) = placeAt serve 0 := hnone
        rcases Nat.eq_zero_or_pos n with rfl | hpos
        · right
          rw [pageAt_congr hnext]
          exact hempty
        · exact .inl ⟨0, hpos, hnext⟩
      · exact .inr hnil'

/-- Whoever has staged every page before an empty one has staged everything. -/
theorem Enumerates.staged_of_covered {lists : List UserListNode} (h : Enumerates serve lists)
    {runId : Uuid} {db : Database} {n : ℕ} (hempty : (pageAt serve n).lists = [])
    (hcovered : CoveredTo serve runId n db) :
    ∀ x ∈ listedPairs lists, x ∈ stagedPairNames runId db := by
  intro x hx
  obtain ⟨l, hl, hpair⟩ := List.mem_flatMap.mp hx
  obtain ⟨m, hm⟩ := (h.complete l).mp hl
  rcases h.page_repeats hempty m with ⟨m', hlt, hsame⟩ | hnil
  · refine hcovered m' hlt x (List.mem_flatMap.mpr ⟨l, ?_, hpair⟩)
    rw [← pageAt_congr hsame]
    exact hm
  · rw [hnil] at hm
    cases hm

/-! ### The progress of a run -/

/-- Every staged row is of a served list. -/
def StagedFrom (serve : Option String → UserListsPage) (runId : Uuid) (db : Database) : Prop :=
  ∀ row ∈ stagedListRows runId db, ∃ n, ∃ l ∈ (pageAt serve n).lists,
    row.providerListId = l.providerListId ∧ row.listName = l.name ∧
      row.providerRepositoryId ∈ l.items.map (·.providerRepositoryId)

/-- A run in progress: its staging is sound, and complete up to each of its checkpoints. -/
structure ListProgress (serve : Option String → UserListsPage) (runId : Uuid) (db : Database) :
    Prop where
  sound : StagedFrom serve runId db
  catalogued : StagedCatalogued runId db
  checkpoints : ∀ p ∈ checkpointsOf runId db,
    ∃ n, p.graphqlCursor = placeAt serve n ∧ CoveredTo serve runId n db

/-- Every repository of a page is catalogued, or is still to be. -/
def PageCatalogued (page : UserListsPage) (todo : List (ℤ × Option String)) (db : Database) : Prop :=
  ∀ entry ∈ listEnumeration.observed page,
    (∃ r ∈ db.repositories, r.providerRepositoryId = entry.1) ∨ entry.1 ∈ todo.map (·.1)

/-- Where an attempt of the run stands. -/
def AttemptPhase.Stands (serve : Option String → UserListsPage) (runId : Uuid) (db : Database) :
    AttemptPhase UserListsPage (Option String) → Prop
  | opening | inserting | reading _ _ | ended _ => True
  | resuming _ | failing _ _ => Running runId db
  | acquiring _ place | fetching _ place =>
    Running runId db ∧ ∃ n, place = placeAt serve n ∧ CoveredTo serve runId n db
  | identifying _ _ page todo | naming _ _ page _ _ todo =>
    Running runId db ∧ PageCatalogued page todo db ∧
      ∃ n, page = pageAt serve n ∧ CoveredTo serve runId n db
  | recording _ _ page =>
    Running runId db ∧ PageCatalogued page [] db ∧
      ∃ n, page = pageAt serve n ∧ CoveredTo serve runId n db
  | applying _ =>
    Running runId db ∧ ∃ n, (pageAt serve n).lists = [] ∧ CoveredTo serve runId n db

/-- The run has been applied: a swap over a staging that was sound and complete. -/
def ListApplied (serve : Option String → UserListsPage) (accountId runId : Uuid) (prior db : Database)
    (summary : Summary) : Prop :=
  ∃ mid listIds memberIds removalIds now counts n, Constraints mid ∧ Untouched prior mid ∧
    ListProgress serve runId mid ∧ (pageAt serve n).lists = [] ∧ CoveredTo serve runId n mid ∧
    ListSwapping listIds memberIds removalIds now runId accountId mid db counts ∧
    summary = summaryOf counts

/-- What is known of a run, seen from an attempt. -/
structure ListFollowing (serve : Option String → UserListsPage) (accountId runId : Uuid)
    (prior : Database) (c : Catalog) (phase : AttemptPhase UserListsPage (Option String)) : Prop where
  solo : Solo .starLists accountId runId c.tables
  works : (∃ result, phase = .ended result) ∨ phase.WorksFor runId c.tables
  progress : Running runId c.tables → ListProgress serve runId c.tables ∧ Untouched prior c.tables
  stands : phase.runId? = some runId → phase.Stands serve runId c.tables
  done : ∀ summary, phase = .reading runId summary →
    ListApplied serve accountId runId prior c.tables summary

/-! ### What a statement keeps -/

/-- What a list run owns is unchanged, and so is authority. -/
structure ListKept (runId : Uuid) (db db' : Database) : Prop where
  staged : stagedListRows runId db' = stagedListRows runId db
  checkpoints : checkpointsOf runId db' = checkpointsOf runId db
  runs : runsOf runId db' = runsOf runId db
  untouched : Untouched db db'

theorem listKept_refl (runId : Uuid) (db : Database) : ListKept runId db db :=
  ⟨rfl, rfl, rfl, Std.Refl.refl _⟩

theorem listKept_of_touches {ts : List Table} {α : Type} {x : Tx α} {b : α} {c c' : Catalog}
    (hx : Touches ts x) (h : x c = .ok (b, c'))
    (ht : ∀ t ∈ [Table.listSnapshotItems, .syncCheckpoints, .syncRuns], t ∉ ts)
    (huntouched : Untouched c.tables c'.tables) (runId : Uuid) :
    ListKept runId c.tables c'.tables := by
  have hitems : c'.tables.listSnapshotItems = c.tables.listSnapshotItems :=
    hx.rows_eq h (t := .listSnapshotItems) (ht _ (by decide))
  have hcheckpoints : c'.tables.syncCheckpoints = c.tables.syncCheckpoints :=
    hx.rows_eq h (t := .syncCheckpoints) (ht _ (by decide))
  have hruns : c'.tables.syncRuns = c.tables.syncRuns :=
    hx.rows_eq h (t := .syncRuns) (ht _ (by decide))
  refine ⟨?_, ?_, ?_, huntouched⟩
  · rw [stagedListRows, stagedListRows, hitems]
  · rw [checkpointsOf, checkpointsOf, hcheckpoints]
  · rw [runsOf, runsOf, hruns]

section kept

variable {runId : Uuid} {db db' : Database}

theorem ListKept.running (h : ListKept runId db db') : Running runId db' ↔ Running runId db := by
  rw [Running, Running, h.runs]

theorem ListKept.coveredTo (h : ListKept runId db db') {n : ℕ}
    (hcovered : CoveredTo serve runId n db) : CoveredTo serve runId n db' := by
  intro m hm x hx
  rw [stagedPairNames, h.staged]
  exact hcovered m hm x hx

theorem ListKept.progress (h : ListKept runId db db') (hprogress : ListProgress serve runId db) :
    ListProgress serve runId db' where
  sound := by
    rw [StagedFrom, h.staged]
    exact hprogress.sound
  catalogued := by
    rw [StagedCatalogued, h.staged]
    intro i hi
    obtain ⟨r, hr, hpid⟩ := hprogress.catalogued i hi
    exact ⟨r, h.untouched.repositories r hr, hpid⟩
  checkpoints := by
    rw [h.checkpoints]
    intro p hp
    obtain ⟨n, hcursor, hcovered⟩ := hprogress.checkpoints p hp
    exact ⟨n, hcursor, h.coveredTo hcovered⟩

theorem ListKept.pageCatalogued (h : ListKept runId db db') {page : UserListsPage}
    {todo : List (ℤ × Option String)} (hpage : PageCatalogued page todo db) :
    PageCatalogued page todo db' := by
  intro entry hentry
  rcases hpage entry hentry with ⟨r, hr, hpid⟩ | hlater
  · exact .inl ⟨r, h.untouched.repositories r hr, hpid⟩
  · exact .inr hlater

end kept

/-! ### A staged page -/

section recorded

variable {checkpointId : Uuid} {now : Time} {runId : Uuid} {page : UserListsPage} {c c' : Catalog}
  {u : Unit}

/-- A run row that counts a page. -/
def SyncRun.counting (page : UserListsPage) (r : SyncRun) : SyncRun :=
  { r with
    pagesProcessed := r.pagesProcessed + 1
    itemsObserved := r.itemsObserved + clampInteger (page.lists.map (·.items.length)).sum
    listsObserved := r.listsObserved +
      clampInteger (page.lists.map (·.providerListId)).dedup.length }

/-- `record_page` in closed form. -/
theorem recordListPage_spec (h : recordListPage checkpointId now runId page c = .ok (u, c')) :
    ∃ base, base = basePosition ((stagedListRows runId c.tables).map (·.position)) ∧
      c'.tables = { c.tables with
        listSnapshotItems := c.tables.listSnapshotItems ++ stagedListItems runId base page
        syncCheckpoints := c.tables.syncCheckpoints ++
          [⟨checkpointId, runId, base + 1, none, page.nextCursor, now⟩]
        syncRuns := updateWhere (fun r => decide (r.syncRunId = runId)) (·.counting page)
          c.tables.syncRuns } := by
  simp only [recordListPage, insertCheckpoint, updateSyncRun, Tx.bind_eq_ok, select_eq_ok,
    write_eq_ok] at h
  obtain ⟨base, _, ⟨hbase, rfl⟩, -, c₁, h₁, -, c₂, h₂, h₃⟩ := h
  refine ⟨base, hbase.symm, ?_⟩
  rw [h₃, h₂, h₁]
  rfl

theorem stagedListItems_run {base : ℤ} {row : ListSnapshotItem}
    (h : row ∈ stagedListItems runId base page) : row.syncRunId = runId := by
  obtain ⟨p, -, rfl⟩ := List.mem_map.mp h
  rfl

/-- The rows of a page, in its order. -/
theorem stagedListRows_recorded (h : recordListPage checkpointId now runId page c = .ok (u, c')) :
    ∃ base, base = basePosition ((stagedListRows runId c.tables).map (·.position)) ∧
      stagedListRows runId c'.tables =
        stagedListRows runId c.tables ++ stagedListItems runId base page := by
  obtain ⟨base, hbase, htables⟩ := recordListPage_spec h
  refine ⟨base, hbase, ?_⟩
  rw [stagedListRows, htables, List.filter_append, ← stagedListRows]
  congr 1
  rw [List.filter_eq_self]
  exact fun row hrow => decide_eq_true (stagedListItems_run hrow)

/-- A staged row is of a list of its page. -/
theorem mem_stagedListItems {base : ℤ} {row : ListSnapshotItem}
    (h : row ∈ stagedListItems runId base page) : ∃ l ∈ page.lists,
      row.providerListId = l.providerListId ∧ row.listName = l.name ∧
        row.providerRepositoryId ∈ l.items.map (·.providerRepositoryId) := by
  obtain ⟨⟨⟨l, item⟩, n⟩, hp, rfl⟩ := List.mem_map.mp h
  obtain ⟨l', hl', hpair⟩ := List.mem_flatMap.mp (List.fst_mem_of_mem_zipIdx hp)
  obtain ⟨item', hitem, heq⟩ := List.mem_map.mp hpair
  obtain ⟨rfl, rfl⟩ := Prod.mk.inj heq
  exact ⟨l', hl', rfl, rfl, List.mem_map.mpr ⟨item', hitem, rfl⟩⟩

/-- The rows of a page, entry by entry. -/
theorem map_stagedListItems {β : Type} (base : ℤ) (f : ListSnapshotItem → β)
    (g : UserListNode → UserListItem → β) (h : ∀ l item (n : ℕ), f ⟨runId, base + n, l.providerListId,
      l.name, item.providerRepositoryId⟩ = g l item) :
    (stagedListItems runId base page).map f = page.lists.flatMap fun l => l.items.map (g l) := by
  have hflat : (page.lists.flatMap fun l => l.items.map (g l)) =
      (page.lists.flatMap fun l => l.items.map fun i => (l, i)).map fun p => g p.1 p.2 := by
    rw [List.map_flatMap]
    congr 1
    funext l
    rw [List.map_map]
    rfl
  rw [hflat, stagedListItems, List.map_map]
  conv_rhs => rw [← List.zipIdx_map_fst 0 (page.lists.flatMap fun l => l.items.map fun i => (l, i)),
    List.map_map]
  exact List.map_congr_left fun p _ => h p.1.1 p.1.2 p.2

/-- The pairs of a page are the names of its rows. -/
theorem stagedListItems_pairs (base : ℤ) :
    (stagedListItems runId base page).map (·.pair) = listedPairs page.lists :=
  map_stagedListItems base _ (fun l item => (l.providerListId, item.providerRepositoryId))
    fun _ _ _ => rfl

theorem stagedPairNames_recorded (h : recordListPage checkpointId now runId page c = .ok (u, c')) :
    stagedPairNames runId c'.tables =
      stagedPairNames runId c.tables ++ listedPairs page.lists := by
  obtain ⟨base, -, hrows⟩ := stagedListRows_recorded h
  rw [stagedPairNames, hrows, List.map_append, stagedListItems_pairs, ← stagedPairNames]

theorem coveredTo_recorded (h : recordListPage checkpointId now runId page c = .ok (u, c')) {n : ℕ}
    (hcovered : CoveredTo serve runId n c.tables) : CoveredTo serve runId n c'.tables := by
  intro m hm x hx
  rw [stagedPairNames_recorded h]
  exact List.mem_append_left _ (hcovered m hm x hx)

/-- A page staged after the ones before it. -/
theorem coveredTo_succ (h : recordListPage checkpointId now runId page c = .ok (u, c')) {n : ℕ}
    (hpage : page = pageAt serve n) (hcovered : CoveredTo serve runId n c.tables) :
    CoveredTo serve runId (n + 1) c'.tables := by
  intro m hm x hx
  rcases Nat.lt_succ_iff_lt_or_eq.mp hm with hlt | rfl
  · exact coveredTo_recorded h hcovered m hlt x hx
  · rw [stagedPairNames_recorded h, hpage]
    exact List.mem_append_right _ hx

/-- The progress of a run after a staged page. -/
theorem listProgress_recorded (h : recordListPage checkpointId now runId page c = .ok (u, c')) {n : ℕ}
    (hpage : page = pageAt serve n) (hcovered : CoveredTo serve runId n c.tables)
    (hcatalogued : PageCatalogued page [] c.tables)
    (hprogress : ListProgress serve runId c.tables) : ListProgress serve runId c'.tables := by
  obtain ⟨base, -, hrows⟩ := stagedListRows_recorded h
  obtain ⟨_, -, htables⟩ := recordListPage_spec h
  have hrepos : c'.tables.repositories = c.tables.repositories := by rw [htables]
  refine ⟨?_, ?_, ?_⟩
  · intro row hrow
    rw [hrows, List.mem_append] at hrow
    rcases hrow with hold | hnew
    · exact hprogress.sound row hold
    · obtain ⟨l, hl, hrow⟩ := mem_stagedListItems hnew
      exact ⟨n, l, hpage ▸ hl, hrow⟩
  · intro row hrow
    rw [hrepos]
    rw [hrows, List.mem_append] at hrow
    rcases hrow with hold | hnew
    · exact hprogress.catalogued row hold
    · obtain ⟨l, hl, -, -, hpid⟩ := mem_stagedListItems hnew
      obtain ⟨item, hitem, hpid⟩ := List.mem_map.mp hpid
      have hentry : (item.providerRepositoryId, listedAlias item.fullName) ∈
          listEnumeration.observed page :=
        List.mem_flatMap.mpr ⟨l, hl, List.mem_map.mpr ⟨item, hitem, rfl⟩⟩
      rcases hcatalogued _ hentry with ⟨r, hr, hsame⟩ | hlater
      · exact ⟨r, hr, hsame.trans hpid⟩
      · cases hlater
  · intro p hp
    rw [checkpointsOf, htables, List.filter_append, List.mem_append] at hp
    rcases hp with hold | hnew
    · obtain ⟨m, hcursor, hm⟩ := hprogress.checkpoints p hold
      exact ⟨m, hcursor, coveredTo_recorded h hm⟩
    · have heq := List.mem_singleton.mp (List.mem_of_mem_filter hnew)
      refine ⟨n + 1, ?_, coveredTo_succ h hpage hcovered⟩
      rw [heq, hpage]
      rfl

end recorded

/-! ### One step of an attempt -/

namespace Attempt

variable {accountId runId : Uuid} {prior : Database} {now : Time} {i : AttemptInput UserListsPage}
  {c c' : Catalog} {phase next target : AttemptPhase UserListsPage (Option String)}

/-- A step that keeps what the run owns. -/
theorem listFollowing_of_kept (h : ListFollowing serve accountId runId prior c phase)
    (hkept : ListKept runId c.tables c'.tables) (hsolo : Solo .starLists accountId runId c'.tables)
    (hworks : (∃ result, next = .ended result) ∨ next.WorksFor runId c'.tables)
    (hnext : Told target next) (hreading : ∀ r summary, target ≠ .reading r summary)
    (hstands : target.runId? = some runId → target.Stands serve runId c'.tables) :
    ListFollowing serve accountId runId prior c' next := by
  refine ⟨hsolo, hworks, fun hrunning => ?_, ?_, ?_⟩
  · obtain ⟨hprogress, huntouched⟩ := h.progress (hkept.running.mp hrunning)
    exact ⟨hkept.progress hprogress, IsTrans.trans _ _ _ huntouched hkept.untouched⟩
  · rcases hnext with rfl | rfl
    · exact hstands
    · rintro ⟨⟩
  · rintro summary rfl
    rcases hnext with heq | heq
    · exact absurd heq.symm (hreading _ _)
    · cases heq

/-- A step after which the run is over. -/
theorem listFollowing_over (hsolo : Solo .starLists accountId runId c'.tables)
    (hworks : (∃ result, next = .ended result) ∨ next.WorksFor runId c'.tables)
    (hover : ¬ Running runId c'.tables)
    (hnext : (∃ result, next = .ended result) ∨ next.runId? ≠ some runId) :
    ListFollowing serve accountId runId prior c' next := by
  refine ⟨hsolo, hworks, fun hrunning => absurd hrunning hover, fun hrun => ?_, ?_⟩
  · rcases hnext with ⟨result, rfl⟩ | hother
    · trivial
    · exact absurd hrun hother
  · rintro summary rfl
    rcases hnext with ⟨result, heq⟩ | hother
    · cases heq
    · exact absurd rfl hother

/-- The resumed place is a recorded one, or the first. -/
theorem stands_resumed (hrunning : Running runId c.tables)
    (hprogress : ListProgress serve runId c.tables) :
    (AttemptPhase.acquiring runId (listEnumeration.resume
      (listEnumeration.newest runId c.tables))).Stands serve runId c.tables := by
  refine ⟨hrunning, ?_⟩
  cases hnewest : listEnumeration.newest runId c.tables with
  | none => exact ⟨0, rfl, fun m hm => absurd hm (Nat.not_lt_zero m)⟩
  | some p => exact hprogress.checkpoints p (firstBy_mem hnewest)

/-- What is still to be catalogued after one repository was. -/
theorem pageCatalogued_upserted {page : UserListsPage} {entry : ℤ × Option String}
    {todo : List (ℤ × Option String)} {db db' : Database} (huntouched : Untouched db db')
    (hentry : ∃ r ∈ db'.repositories, r.providerRepositoryId = entry.1)
    (hpage : PageCatalogued page (entry :: todo) db) : PageCatalogued page todo db' := by
  intro x hx
  rcases hpage x hx with ⟨r, hr, hpid⟩ | hlater
  · exact .inl ⟨r, huntouched.repositories r hr, hpid⟩
  · rcases List.mem_cons.mp hlater with hsame | hrest
    · obtain ⟨r, hr, hpid⟩ := hentry
      exact .inl ⟨r, hr, hpid.trans hsame.symm⟩
    · exact .inr hrest

/-- A swap ends its run. -/
theorem listApplied_not_running {ids : ℕ → ℕ → Uuid} {summary : Summary}
    (h : listEnumeration.apply ids now runId accountId c = .ok (summary, c')) :
    ¬ Running runId c'.tables := by
  obtain ⟨⟨done, hdone, hid, hstatus⟩, -⟩ := listEnumeration_lawful.apply_completes h
  apply not_running_of_forall
  intro run hrun hsame hrunning
  rw [c'.valid.keys.runs.eq_of_mem hrun hdone (hsame.trans hid.symm), hstatus] at hrunning
  cases hrunning

theorem runOpen_of_running (h : Running runId c.tables) : RunOpen runId c.tables := by
  obtain ⟨run, hrun, hstatus⟩ := h
  obtain ⟨hmem, hid⟩ := List.mem_filter.mp hrun
  intro other hother hsame hdone
  rw [c.valid.keys.runs.eq_of_mem hother hmem (hsame.trans (of_decide_eq_true hid).symm),
    hstatus] at hdone
  cases hdone

/-- **One step.**  An attempt of the run, over an enumeration that stands still. -/
theorem Turn.listFollowing (h : Turn listEnumeration i now c accountId phase next c')
    (hserve : Serves serve now c i phase) (hfollow : ListFollowing serve accountId runId prior c phase) :
    ListFollowing serve accountId runId prior c' next := by
  rcases hfollow.works with ⟨result, rfl⟩ | hworks
  · cases h with
    | refused _ _ hlive => exact absurd rfl (hlive result)
    | done => exact hfollow
  obtain ⟨hsolo', hworks'⟩ := h.solo listEnumeration_movesRuns hfollow.solo hworks
  have hsame := listKept_refl runId c.tables
  by_cases hopening : phase = .opening
  · subst hopening
    cases h with
    | found run _ hread hnext =>
      refine listFollowing_of_kept hfollow hsame hsolo' hworks' hnext (by rintro _ _ ⟨⟩) fun hrun => ?_
      obtain ⟨hmem, -, -, hstatus⟩ := interruptedRun_spec hread
      exact ⟨run, List.mem_filter.mpr ⟨hmem, decide_eq_true (Option.some.inj hrun)⟩, hstatus⟩
    | unfound _ _ hnext =>
      exact listFollowing_of_kept hfollow hsame hsolo' hworks' hnext (by rintro _ _ ⟨⟩) (by rintro ⟨⟩)
    | refused _ err =>
      exact listFollowing_of_kept hfollow hsame hsolo' hworks' (.inl rfl) (by rintro _ _ ⟨⟩)
        (by rintro ⟨⟩)
  by_cases hown : phase.runId? = some runId
  case neg =>
    have hover : ¬ Running runId c.tables := by
      rcases hworks with heq | hrun | hover
      · exact absurd heq hopening
      · exact absurd hrun hown
      · exact hover
    obtain ⟨row, hrow, hid, -⟩ := hfollow.solo.row
    obtain ⟨hover', hnext⟩ :=
      h.other listEnumeration_movesRuns ⟨row, hrow, hid⟩ hopening hown hover
    exact listFollowing_over hsolo' hworks' hover' hnext
  have hstands := hfollow.stands hown
  cases h with
  | found => exact absurd rfl hopening
  | unfound => exact absurd rfl hopening
  | inserted => cases hown
  | resumed r _ hnext =>
    obtain rfl : r = runId := Option.some.inj hown
    refine listFollowing_of_kept hfollow hsame hsolo' hworks' hnext (by rintro _ _ ⟨⟩) fun _ => ?_
    exact stands_resumed hstands (hfollow.progress hstands).1
  | acquired r place =>
    exact listFollowing_of_kept hfollow hsame hsolo' hworks' (.inl rfl) (by rintro _ _ ⟨⟩)
      fun _ => hstands
  | paused r place =>
    exact listFollowing_of_kept hfollow hsame hsolo' hworks' (.inl rfl) (by rintro _ _ ⟨⟩)
      fun _ => trivial
  | fetched r place =>
    obtain ⟨hrunning, n, hplace, hcovered⟩ := hstands
    refine listFollowing_of_kept hfollow hsame hsolo' hworks' (.inl rfl) ?_ fun _ => ?_
    · intro r summary
      unfold afterFetch
      split
      · rintro ⟨⟩
      · split <;> rintro ⟨⟩
    · unfold afterFetch
      split
      · exact hrunning
      · next page hreply =>
        split
        · exact hrunning
        · refine ⟨hrunning, fun entry hentry => .inr (List.mem_map.mpr ⟨entry, hentry, rfl⟩), n, ?_,
            hcovered⟩
          rw [hserve r place page rfl hreply, hplace]
          rfl
  | failed r reason _ _ hok hnext =>
    obtain rfl : r = runId := Option.some.inj hown
    refine listFollowing_over hsolo' hworks' (failRun_not_running hok) (.inl ?_)
    rcases hnext with rfl | rfl <;> exact ⟨_, rfl⟩
  | identified r place page =>
    exact listFollowing_of_kept hfollow hsame hsolo' hworks' (.inl rfl) (by rintro _ _ ⟨⟩)
      fun _ => hstands
  | catalogued r place page entry todo id _ _ hok hnext =>
    obtain ⟨hrunning, hpage, hplace⟩ := hstands
    have huntouched := relates_untouched_upsertRepository _ _ c id c' hok
    have hkept := listKept_of_touches (touches_upsertRepositoryInTx _ _) hok (by decide) huntouched
      runId
    have hpage' : PageCatalogued page todo c'.tables :=
      pageCatalogued_upserted huntouched (exists_of_upsertRepository hok) hpage
    obtain ⟨n, hplace, hcovered⟩ := hplace
    refine listFollowing_of_kept hfollow hkept hsolo' hworks' hnext ?_ fun _ => ?_
    · intro r summary
      unfold afterUpsert
      split <;> rintro ⟨⟩
    · unfold afterUpsert
      split <;> exact ⟨hkept.running.mpr hrunning, hpage', n, hplace, hkept.coveredTo hcovered⟩
  | named r place page pid value todo id _ _ hok hnext =>
    obtain ⟨hrunning, hpage, n, hplace, hcovered⟩ := hstands
    have huntouched := relates_untouched_applyAliasObservation _ _ _ _ _ _ c id c' hok
    have hkept := listKept_of_touches (touches_applyAliasObservation _ _ _ _ _ _) hok (by decide)
      huntouched runId
    exact listFollowing_of_kept hfollow hkept hsolo' hworks' hnext (by rintro _ _ ⟨⟩) fun _ =>
      ⟨hkept.running.mpr hrunning, hkept.pageCatalogued hpage, n, hplace, hkept.coveredTo hcovered⟩
  | recorded r place page _ _ hok hnext =>
    obtain rfl : r = runId := Option.some.inj hown
    obtain ⟨hrunning, hpage, n, hplace, hcovered⟩ := hstands
    obtain ⟨hprogress, huntouched⟩ := hfollow.progress hrunning
    have hafter := listProgress_recorded hok hplace hcovered hpage hprogress
    have huntouched' := IsTrans.trans _ _ _ huntouched
      (listEnumeration_lawful.untouched_record (runOpen_of_running hrunning) hok)
    have hrunning' : Running r c'.tables := by
      obtain ⟨run, hrun, hstatus⟩ := hrunning
      obtain ⟨hmem, hid⟩ := List.mem_filter.mp hrun
      obtain ⟨base, -, htables⟩ := recordListPage_spec hok
      refine ⟨run.counting page, List.mem_filter.mpr ⟨?_, hid⟩, hstatus⟩
      rw [htables]
      exact mem_updateWhere.mpr ⟨run, hmem, if_pos hid⟩
    refine ⟨hsolo', hworks', fun _ => ⟨hafter, huntouched'⟩, fun _ => ?_, ?_⟩
    · rcases hnext with rfl | rfl
      · unfold afterRecord
        split
        · next hend =>
          refine ⟨hrunning', n, ?_, coveredTo_recorded hok hcovered⟩
          rw [← hplace]
          exact List.isEmpty_iff.mp hend
        · refine ⟨hrunning', n + 1, ?_, coveredTo_succ hok hplace hcovered⟩
          rw [hplace]
          rfl
      · trivial
    · rintro summary rfl
      rcases hnext with heq | heq
      · unfold afterRecord at heq
        split at heq <;> cases heq
      · cases heq
  | applied r summary _ _ hok hnext =>
    obtain rfl : r = runId := Option.some.inj hown
    obtain ⟨hrunning, n, hempty, hcovered⟩ := hstands
    obtain ⟨hprogress, huntouched⟩ := hfollow.progress hrunning
    have hover := listApplied_not_running hok
    refine ⟨hsolo', hworks', fun hrunning' => absurd hrunning' hover, fun _ => ?_, ?_⟩
    · rcases hnext with rfl | rfl
      · trivial
      · trivial
    · rintro summary' rfl
      obtain ⟨counts, c₁, hswap, hpure⟩ := Tx.bind_eq_ok.mp hok
      obtain ⟨hcounts, rfl⟩ := Tx.pure_eq_ok.mp hpure
      have hsummary : summary' = summary := by
        rcases hnext with heq | heq
        · cases heq
          rfl
        · cases heq
      refine ⟨c.tables, _, _, _, _, counts, n, c.valid, huntouched, hprogress, hempty, hcovered,
        applyListAuthority_swapping hswap, ?_⟩
      rw [hsummary, ← hcounts]
  | readBack r summary observed _ hnext =>
    refine listFollowing_of_kept hfollow hsame hsolo' hworks' hnext (by rintro _ _ ⟨⟩) fun _ => ?_
    trivial
  | refused _ err =>
    exact listFollowing_of_kept hfollow hsame hsolo' hworks' (.inl rfl) (by rintro _ _ ⟨⟩)
      (by rintro ⟨⟩)
  | done result =>
    exact hfollow

end Attempt

end GithubCatalog
