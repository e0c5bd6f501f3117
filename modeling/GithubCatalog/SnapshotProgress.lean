import GithubCatalog.SnapshotCoverage
import GithubCatalog.SnapshotSwap

/-!
# The progress of one snapshot run

Over a listing that stands still, a run of any number of attempts stages the listing in order: after
every statement, pause or crash its staging is the part of the listing before its next page, and a
resumed attempt continues with that page.

* `stagedListing` - the staging of a part of a listing;
* `Progress` - a run that stands before a page; `Grown` - what the run may have changed besides;
* `Following` - the attempts of the run stand where its progress says;
* `following_runFrom` - along every history of the run.
-/

namespace GithubCatalog

open Relational Runs Transact

/-- `STARRED_PAGE_SIZE`. -/
def starredPageSize : ℕ := 100

/-! ### Staging a listing -/

/-- The staging of a listing from its start. -/
def stagedListing (k : Contracts) (runId : Uuid) (items : List StarredItem) : List SnapshotItem :=
  items.zipIdx.map fun p => p.1.stagedAs k runId p.2

theorem basePosition_range (n : ℕ) : basePosition ((List.range n).map (Nat.cast : ℕ → ℤ)) = n := by
  have hmax : ((List.range n).map (Nat.cast : ℕ → ℤ)).foldl max (-1) = (n : ℤ) - 1 := by
    induction n with
    | zero => rfl
    | succ n ih =>
      rw [List.range_succ, List.map_append, List.foldl_append, ih]
      simp
  rw [basePosition, hmax]
  omega

/-- The next position of a staged listing is its length. -/
theorem basePosition_stagedListing (k : Contracts) (runId : Uuid) (items : List StarredItem) :
    basePosition ((stagedListing k runId items).map (·.position)) = items.length := by
  have hpositions : (stagedListing k runId items).map (·.position) =
      (List.range items.length).map Nat.cast := by
    rw [stagedListing, List.map_map, List.range_eq_range', ← List.zipIdx_map_snd 0 items,
      List.map_map]
    rfl
  rw [hpositions, basePosition_range]

/-- The rows of one page continue the staging. -/
theorem stagedListing_append (k : Contracts) (runId : Uuid) (before page : List StarredItem) :
    stagedListing k runId (before ++ page) = stagedListing k runId before ++
      page.zipIdx.map fun p => p.1.stagedAs k runId (before.length + p.2) := by
  rw [stagedListing, List.zipIdx_append, List.map_append, ← stagedListing]
  congr 1
  rw [Nat.zero_add, List.zipIdx_eq_map_add, List.map_map]
  apply List.map_congr_left
  intro p _
  simp only [Function.comp, Nat.cast_add]

theorem take_append_pageOf {size page : ℕ} (hpage : 1 ≤ page) (listing : List StarredItem) :
    listing.take ((page - 1) * size) ++ pageOf size listing page = listing.take (page * size) := by
  obtain ⟨n, rfl⟩ := Nat.exists_eq_add_of_le' hpage
  rw [pageOf, Nat.add_sub_cancel, ← List.take_add, Nat.succ_mul]

theorem take_eq_of_pageOf_nil {size page : ℕ} (hsize : 0 < size) {listing : List StarredItem}
    (h : pageOf size listing page = []) : listing.take ((page - 1) * size) = listing := by
  apply List.take_of_length_le
  have hcount : (pageOf size listing page).length = 0 := by rw [h]; rfl
  rw [pageOf, List.length_take, List.length_drop] at hcount
  omega

/-! ### Progress -/

/-- A run that stands before a page: what it staged, where it would resume, and its row. -/
structure Progress (k : Contracts) (size : ℕ) (accountId runId : Uuid) (listing : List StarredItem)
    (clock : Time) (next : ℕ) (db : Database) : Prop where
  next_pos : 1 ≤ next
  staged : stagedOf runId db = stagedListing k runId (listing.take ((next - 1) * size))
  catalogued : ∀ item ∈ listing.take ((next - 1) * size),
    ∃ q ∈ db.repositories, q.providerRepositoryId = item.repo.providerRepositoryId
  checkpoints : ∀ p ∈ checkpointsOf runId db, p.recordedAt ≤ clock ∧ p.nextPage ≤ next
  resume : resumePage (latestCheckpoint runId db) = next
  row : ∃ run ∈ db.syncRuns, run.syncRunId = runId ∧ run.accountId = accountId ∧
    run.status = .running ∧ run.pagesProcessed = next - 1 ∧
    run.itemsObserved = (listing.take ((next - 1) * size)).length

/-- The tables of the swap are as they were, and the repositories are the old ones with unclassified
ones of the listing. -/
structure Grown (listing : List StarredItem) (prior db : Database) : Prop where
  stars : db.currentStarState = prior.currentStarState
  observations : db.starObservations = prior.starObservations
  repairs : db.reconciliationRepairs = prior.reconciliationRepairs
  watermarks : db.starWatermarks = prior.starWatermarks
  repositories : ∃ extra, db.repositories = prior.repositories ++ extra ∧
    ∀ q ∈ extra, q.mode = none ∧ q.providerRepositoryId ∈ listedIds listing

/-- An attempt of the run stands where the run's progress says. -/
def AttemptPhase.Follows (size : ℕ) (listing : List StarredItem) (next : ℕ) (db : Database) :
    AttemptPhase (List StarredItem) ℕ → Prop
  | acquiring _ page | fetching _ page => page = next
  | identifying _ page items todo => page = next ∧ items = pageOf size listing next ∧
      (∀ entry ∈ todo, entry.1 ∈ listedIds listing) ∧
      ∀ item ∈ items, (∃ q ∈ db.repositories, q.providerRepositoryId =
        item.repo.providerRepositoryId) ∨ item.repo.providerRepositoryId ∈ todo.map (·.1)
  | naming _ page items pid _ todo => page = next ∧ items = pageOf size listing next ∧
      pid ∈ listedIds listing ∧ (∀ entry ∈ todo, entry.1 ∈ listedIds listing) ∧
      ∀ item ∈ items, (∃ q ∈ db.repositories, q.providerRepositoryId =
        item.repo.providerRepositoryId) ∨ item.repo.providerRepositoryId ∈ todo.map (·.1)
  | recording _ page items => page = next ∧ items = pageOf size listing next ∧
      ∀ item ∈ items, ∃ q ∈ db.repositories,
        q.providerRepositoryId = item.repo.providerRepositoryId
  | applying _ => listing.take ((next - 1) * size) = listing
  | _ => True

section grown

variable {listing : List StarredItem} {db db' : Database}

theorem Grown.mem_repositories (h : Grown listing db db') {q : Repository}
    (hq : q ∈ db.repositories) : q ∈ db'.repositories := by
  obtain ⟨extra, hrepos, -⟩ := h.repositories
  rw [hrepos]
  exact List.mem_append_left _ hq

instance : Std.Refl (Grown listing) :=
  ⟨fun db => ⟨rfl, rfl, rfl, rfl, [], (List.append_nil _).symm, by simp⟩⟩

instance : IsTrans Database (Grown listing) := by
  refine ⟨fun db db' db'' h h' => ?_⟩
  obtain ⟨extra, hrepos, hextra⟩ := h.repositories
  obtain ⟨extra', hrepos', hextra'⟩ := h'.repositories
  refine ⟨h'.stars.trans h.stars, h'.observations.trans h.observations, h'.repairs.trans h.repairs,
    h'.watermarks.trans h.watermarks, extra ++ extra', ?_, ?_⟩
  · rw [hrepos', hrepos, List.append_assoc]
  · intro q hq
    rcases List.mem_append.mp hq with hq | hq
    · exact hextra q hq
    · exact hextra' q hq

/-- A frame that avoids the tables of the swap and the repositories. -/
theorem grown_of_touches {ts : List Table} {α : Type} {x : Tx α} (hx : Touches ts x)
    (ht : ∀ t ∈ [Table.currentStarState, .starObservations, .reconciliationRepairs, .starWatermarks,
      .repositories], t ∉ ts) : Tx.Relates (Grown listing) x := by
  intro c b c' h
  have hsame : ∀ t ∈ [Table.currentStarState, .starObservations, .reconciliationRepairs,
      .starWatermarks, .repositories], c'.tables.rows t = c.tables.rows t :=
    fun t hmem => hx.rows_eq h (ht t hmem)
  exact ⟨hsame .currentStarState (by decide), hsame .starObservations (by decide),
    hsame .reconciliationRepairs (by decide), hsame .starWatermarks (by decide), [],
    (hsame .repositories (by decide)).trans (List.append_nil _).symm, by simp⟩

theorem relates_grown_upsertRepository (fresh : Uuid) {pid : ℤ} (hpid : pid ∈ listedIds listing) :
    Tx.Relates (Grown listing) (upsertRepositoryInTx fresh pid) := by
  refine Tx.Relates.bind (relates_write ?_) fun _ => relates_fetchOne _
  intro db _
  refine ⟨rfl, rfl, rfl, rfl, ?_⟩
  show ∃ extra, insertUnless _ _ db.repositories = db.repositories ++ extra ∧ _
  unfold insertUnless
  split
  · exact ⟨[], (List.append_nil _).symm, by simp⟩
  · refine ⟨_, rfl, ?_⟩
    intro q hq
    rw [List.mem_singleton.mp hq]
    exact ⟨rfl, hpid⟩

theorem relates_grown_applyAliasObservation (ids : ℕ → Uuid) (now : Time) {pid : ℤ}
    (hpid : pid ∈ listedIds listing) (value : String) :
    Tx.Relates (Grown listing) (applyAliasObservation ids now pid .ownerName none value) := by
  refine relates_applyAliasObservation ids now pid .ownerName none value
    (relates_grown_upsertRepository _ hpid) ?_
  intro α x hx
  exact grown_of_touches hx (by decide)

end grown

/-! ### One statement of the run -/

section progress

variable {k : Contracts} {size : ℕ} {accountId runId : Uuid} {listing : List StarredItem}
  {clock now : Time} {next : ℕ} {db db' : Database} {c c' : Catalog}

/-- A statement that leaves the run's rows alone and drops no repository. -/
theorem Progress.of_kept (h : Progress k size accountId runId listing clock next db)
    (hclock : clock ≤ now) (hkept : RunKept runId db db')
    (hrepos : ∀ q ∈ db.repositories, q ∈ db'.repositories) :
    Progress k size accountId runId listing now next db' where
  next_pos := h.next_pos
  staged := hkept.staged.trans h.staged
  catalogued item hitem := by
    obtain ⟨q, hq, hpid⟩ := h.catalogued item hitem
    exact ⟨q, hrepos q hq, hpid⟩
  checkpoints p hp := by
    rw [hkept.checkpoints] at hp
    exact ⟨(h.checkpoints p hp).1.trans hclock, (h.checkpoints p hp).2⟩
  resume := by
    have hlatest : latestCheckpoint runId db' = latestCheckpoint runId db :=
      congrArg (firstBy SyncCheckpoint.newer) hkept.checkpoints
    rw [hlatest]
    exact h.resume
  row := by
    obtain ⟨run, hrun, hid, hrest⟩ := h.row
    have hown : run ∈ runsOf runId db' := by
      rw [hkept.runs]
      exact List.mem_filter.mpr ⟨hrun, decide_eq_true hid⟩
    exact ⟨run, (List.mem_filter.mp hown).1, hid, hrest⟩

/-- A fresh run stands before page 1. -/
theorem progress_inserted {u : Unit}
    (h : insertSyncRun .full runId accountId now c = .ok (u, c')) :
    Progress k size accountId runId listing now 1 c'.tables := by
  have hruns : c'.tables.syncRuns =
      c.tables.syncRuns ++ [newSyncRun runId accountId .full now] := by
    rw [write_eq_ok.mp h]
    rfl
  have hcheckpoints := insertSyncRun_checkpoints h
  have hstaged : stagedOf runId c'.tables = [] := by
    rw [stagedOf, List.filter_eq_nil_iff]
    intro i hi hid
    rw [write_eq_ok.mp h] at hi
    exact insertSyncRun_fresh h
      (of_decide_eq_true hid ▸ c.valid.foreignKeys.snapshotItems_run i hi i.syncRunId rfl)
  refine ⟨le_rfl, ?_, ?_, ?_, ?_, newSyncRun runId accountId .full now, ?_, rfl, rfl, rfl, ?_, ?_⟩
  · rw [hstaged, Nat.sub_self, Nat.zero_mul, List.take_zero]
    rfl
  · rw [Nat.sub_self, Nat.zero_mul, List.take_zero]
    simp
  · rw [hcheckpoints]
    simp
  · have hlatest : latestCheckpoint runId c'.tables = none :=
      congrArg (firstBy SyncCheckpoint.newer) hcheckpoints
    rw [hlatest]
    rfl
  · rw [hruns]
    exact List.mem_append_right _ List.mem_cons_self
  · rfl
  · rw [Nat.sub_self, Nat.zero_mul, List.take_zero]
    rfl

/-- **A staged page.**  The run stands before the next one. -/
theorem progress_recorded (hsize : size < 2 ^ 31) {id : Uuid} {u : Unit}
    (h : recordPage k id now runId next (pageOf size listing next) c = .ok (u, c'))
    (hclock : clock ≤ now)
    (hprogress : Progress k size accountId runId listing clock next c.tables)
    (hcatalogued : ∀ item ∈ pageOf size listing next, ∃ q ∈ c.tables.repositories,
      q.providerRepositoryId = item.repo.providerRepositoryId) :
    Progress k size accountId runId listing now (next + 1) c'.tables := by
  obtain ⟨-, htables⟩ := recordPage_spec h
  have htake : listing.take ((next - 1) * size) ++ pageOf size listing next =
      listing.take (next * size) := take_append_pageOf hprogress.next_pos listing
  have hcheckpoints : checkpointsOf runId c'.tables = checkpointsOf runId c.tables ++
      [⟨id, runId, next + 1, none, none, now⟩] := by
    rw [checkpointsOf, checkpointsOf, htables, List.filter_append, List.filter_singleton]
    simp
  have hpage : clampInteger (pageOf size listing next).length = (pageOf size listing next).length := by
    have hle : (pageOf size listing next).length ≤ size := by
      rw [pageOf, List.length_take]
      exact min_le_left _ _
    rw [clampInteger]
    omega
  -- The run row counts the page, and its counter is an `integer`.
  obtain ⟨run, hrun, hid, hacc, hstatus, hpages, hitems⟩ := hprogress.row
  have hnew : { run with
      pagesProcessed := run.pagesProcessed + 1
      itemsObserved := run.itemsObserved + clampInteger (pageOf size listing next).length } ∈
        c'.tables.syncRuns := by
    rw [htables]
    exact mem_updateWhere.mpr ⟨run, hrun, if_pos (decide_eq_true hid)⟩
  have hbound : (next : ℤ) < 2 ^ 31 := by
    have hcheck := c'.valid.checks.runs _ hnew
    simp only [SyncRun.check, fitsInteger, Bool.and_eq_true, decide_eq_true_eq] at hcheck
    omega
  constructor
  · omega
  · rw [Nat.add_sub_cancel, ← htake, stagedListing_append, ← hprogress.staged, stagedOf, stagedOf,
      htables, List.filter_append]
    congr 1
    rw [List.filter_eq_self.mpr]
    · apply List.map_congr_left
      intro p _
      have hbase : basePosition ((c.tables.snapshotItems.filter fun i =>
          decide (i.syncRunId = runId)).map (·.position)) =
            (listing.take ((next - 1) * size)).length := by
        rw [← basePosition_stagedListing k runId, ← hprogress.staged, stagedOf]
      rw [hbase]
    · intro row hrow
      obtain ⟨p, -, rfl⟩ := List.mem_map.mp hrow
      exact decide_eq_true rfl
  · intro item hitem
    rw [Nat.add_sub_cancel, ← htake, List.mem_append] at hitem
    have hexists : ∃ q ∈ c.tables.repositories,
        q.providerRepositoryId = item.repo.providerRepositoryId := by
      rcases hitem with hold | hnew
      · exact hprogress.catalogued item hold
      · exact hcatalogued item hnew
    obtain ⟨q, hq, hpid⟩ := hexists
    exact ⟨q, by rw [htables]; exact hq, hpid⟩
  · intro p hp
    rw [hcheckpoints, List.mem_append, List.mem_singleton] at hp
    rcases hp with hold | rfl
    · obtain ⟨hrecorded, hnext⟩ := hprogress.checkpoints p hold
      push_cast
      exact ⟨hrecorded.trans hclock, by omega⟩
    · push_cast
      exact ⟨le_rfl, le_rfl⟩
  · have hlatest : latestCheckpoint runId c'.tables = some ⟨id, runId, next + 1, none, none, now⟩ := by
      refine (congrArg (firstBy SyncCheckpoint.newer) hcheckpoints).trans (firstBy_append ?_)
      intro p hp
      obtain ⟨hrecorded, hnext⟩ := hprogress.checkpoints p hp
      simp only [SyncCheckpoint.newer, Bool.or_eq_true, Bool.and_eq_true, decide_eq_true_eq]
      rcases lt_or_eq_of_le (hrecorded.trans hclock) with hlt | heq
      · exact .inl hlt
      · exact .inr ⟨heq.symm, by omega⟩
    rw [hlatest, resumePage, if_pos (by simp only [Option.elim]; omega)]
    simp only [Option.elim]
    omega
  · refine ⟨_, hnew, hid, hacc, hstatus, ?_, ?_⟩
    · push_cast
      omega
    · rw [Nat.add_sub_cancel, ← htake, List.length_append, hpage, hitems]
      push_cast
      rfl

end progress

/-! ### One step of an attempt -/

/-- What is known about a run, seen from one attempt: as long as the run is not over, the rest of the
catalog has only grown; a running run has some progress; and an attempt at work for the run stands
where it says. -/
structure Following (k : Contracts) (size : ℕ) (accountId runId : Uuid) (listing : List StarredItem)
    (prior : Database) (clock : Time) (db : Database) (phase : AttemptPhase (List StarredItem) ℕ) :
    Prop where
  grown : (∀ run ∈ db.syncRuns, run.syncRunId = runId → run.status = .running) →
    Grown listing prior db
  progress : Running runId db → ∃ next, Progress k size accountId runId listing clock next db
  phase : phase.runId? = some runId → (∀ result, phase ≠ .ended result) →
    ∃ next, Progress k size accountId runId listing clock next db ∧
      phase.Follows size listing next db

namespace Attempt

variable {k : Contracts} {size : ℕ} {accountId runId : Uuid} {listing : List StarredItem}
  {prior : Database} {clock now : Time} {i : AttemptInput (List StarredItem)} {c c' : Catalog}
  {phase next target : AttemptPhase (List StarredItem) ℕ}

/-- A step that leaves the run's rows alone and lets the catalog grow. -/
theorem following_of_kept
    (h : Following k size accountId runId listing prior clock c.tables phase)
    (hclock : clock ≤ now) (hkept : RunKept runId c.tables c'.tables)
    (hgrown : Grown listing c.tables c'.tables) (hnext : Told target next)
    (hphase : target.runId? = some runId → ∃ n,
      Progress k size accountId runId listing clock n c.tables ∧ target.Follows size listing n c'.tables) :
    Following k size accountId runId listing prior now c'.tables next := by
  refine ⟨?_, ?_, ?_⟩
  · intro hlive
    refine IsTrans.trans _ _ _ (h.grown ?_) hgrown
    intro run hrun hid
    have hown : run ∈ runsOf runId c'.tables := by
      rw [hkept.runs]
      exact List.mem_filter.mpr ⟨hrun, decide_eq_true hid⟩
    exact hlive run (List.mem_filter.mp hown).1 hid
  · intro hrunning
    obtain ⟨n, hprogress⟩ := h.progress (hkept.running.mp hrunning)
    exact ⟨n, hprogress.of_kept hclock hkept fun _ => hgrown.mem_repositories⟩
  · rcases hnext with rfl | rfl
    · intro hrun _
      obtain ⟨n, hprogress, hfollows⟩ := hphase hrun
      exact ⟨n, hprogress.of_kept hclock hkept fun _ => hgrown.mem_repositories, hfollows⟩
    · rintro ⟨⟩

/-- A step that changes nothing. -/
theorem following_same (h : Following k size accountId runId listing prior clock c.tables phase)
    (hclock : clock ≤ now) (hnext : Told target next)
    (hphase : target.runId? = some runId → ∃ n,
      Progress k size accountId runId listing clock n c.tables ∧ target.Follows size listing n c.tables) :
    Following k size accountId runId listing prior now c.tables next :=
  following_of_kept h hclock (Std.Refl.refl _) (Std.Refl.refl _) hnext hphase

/-- The run is over: nothing is said of it any more. -/
theorem following_over (hrow : ∃ run ∈ c'.tables.syncRuns, run.syncRunId = runId)
    (hover : ¬ Running runId c'.tables)
    (hnext : (∃ result, next = .ended result) ∨ next.runId? ≠ some runId) :
    Following k size accountId runId listing prior now c'.tables next := by
  refine ⟨?_, fun hrunning => absurd hrunning hover, ?_⟩
  · intro hlive
    obtain ⟨run, hrun, hid⟩ := hrow
    exact absurd ⟨run, List.mem_filter.mpr ⟨hrun, decide_eq_true hid⟩, hlive run hrun hid⟩ hover
  · intro hown hlive
    rcases hnext with ⟨result, rfl⟩ | hother
    · exact absurd rfl (hlive result)
    · exact absurd hown hother

/-- What is known stays known as time passes. -/
theorem following_later (h : Following k size accountId runId listing prior clock c.tables phase)
    (hclock : clock ≤ now) : Following k size accountId runId listing prior now c.tables phase := by
  refine ⟨h.grown, fun hrunning => ?_, fun hown hlive => ?_⟩
  · obtain ⟨n, hprogress⟩ := h.progress hrunning
    exact ⟨n, hprogress.of_kept hclock (Std.Refl.refl _) fun _ hq => hq⟩
  · obtain ⟨n, hprogress, hfollows⟩ := h.phase hown hlive
    exact ⟨n, hprogress.of_kept hclock (Std.Refl.refl _) fun _ hq => hq, hfollows⟩

theorem mem_listedIds_of_pageOf {page : ℕ} {item : StarredItem}
    (h : item ∈ pageOf size listing page) :
    item.repo.providerRepositoryId ∈ listedIds listing :=
  List.mem_map.mpr ⟨item, List.mem_of_mem_drop (List.mem_of_mem_take h), rfl⟩

/-- A page's items that are catalogued, or are to be, after one of them was. -/
theorem catalogued_grown {db db' : Database} (h : Grown listing db db') {items : List StarredItem}
    {entry : ℤ × Option String} {todo : List (ℤ × Option String)}
    (hentry : ∃ q ∈ db'.repositories, q.providerRepositoryId = entry.1)
    (hall : ∀ item ∈ items, (∃ q ∈ db.repositories, q.providerRepositoryId =
      item.repo.providerRepositoryId) ∨ item.repo.providerRepositoryId ∈ (entry :: todo).map (·.1)) :
    ∀ item ∈ items, (∃ q ∈ db'.repositories, q.providerRepositoryId =
      item.repo.providerRepositoryId) ∨ item.repo.providerRepositoryId ∈ todo.map (·.1) := by
  intro item hitem
  rcases hall item hitem with ⟨q, hq, hpid⟩ | hlater
  · exact .inl ⟨q, h.mem_repositories hq, hpid⟩
  · rcases List.mem_cons.mp hlater with hsame | hrest
    · obtain ⟨q, hq, hpid⟩ := hentry
      exact .inl ⟨q, hq, hpid.trans hsame.symm⟩
    · exact .inr hrest

/-- **One step.**  An attempt of the run, over a listing that stands still. -/
theorem Turn.following (hsize : size < 2 ^ 31) (hpositive : 0 < size) (hclock : clock ≤ now)
    (h : Turn (starEnumeration k) i now c accountId phase next c')
    (hworks : ∀ r ∈ phase.runId?, r = runId)
    (hreply : ∀ r page items, phase = .fetching r page → i.reply = .ok items →
      items = pageOf size listing page)
    (hfollow : Following k size accountId runId listing prior clock c.tables phase) :
    Following k size accountId runId listing prior now c'.tables next := by
  cases h with
  | found run _ hread hnext =>
    refine following_same hfollow hclock hnext ?_
    rintro ⟨⟩
    obtain ⟨hrun, -, -, hstatus⟩ := interruptedRun_spec hread
    obtain ⟨n, hprogress⟩ :=
      hfollow.progress ⟨run, List.mem_filter.mpr ⟨hrun, decide_eq_true rfl⟩, hstatus⟩
    exact ⟨n, hprogress, trivial⟩
  | unfound _ _ hnext => exact following_same hfollow hclock hnext (by rintro ⟨⟩)
  | resumed r _ hnext =>
    refine following_same hfollow hclock hnext ?_
    rintro ⟨⟩
    obtain ⟨n, hprogress, -⟩ := hfollow.phase rfl (by rintro _ ⟨⟩)
    exact ⟨n, hprogress, hprogress.resume⟩
  | inserted _ _ hok hnext =>
    by_cases hfresh : i.freshId = runId
    · rw [hfresh] at hok hnext
      have hprogress : Progress k size accountId runId listing now 1 c'.tables := progress_inserted hok
      refine ⟨fun _ => ?_, fun _ => ⟨1, hprogress⟩, ?_⟩
      · refine IsTrans.trans _ _ _ (hfollow.grown fun run hrun hid => ?_)
          (grown_of_touches (touches_insertSyncRun _ _ _ _) (by decide) c () c' hok)
        exact absurd (List.mem_map.mpr ⟨run, hrun, hid⟩) (insertSyncRun_fresh hok)
      · rcases hnext with rfl | rfl
        · exact fun _ _ => ⟨1, hprogress, rfl⟩
        · rintro ⟨⟩
    · refine following_of_kept hfollow hclock (relates_runKept_insertSyncRun hfresh _ _ _ c () c' hok)
        (grown_of_touches (touches_insertSyncRun _ _ _ _) (by decide) c () c' hok) hnext ?_
      intro hrun
      exact absurd (Option.some.inj hrun) hfresh
  | acquired r page =>
    exact following_same hfollow hclock (.inl rfl) fun hrun => hfollow.phase hrun (by rintro _ ⟨⟩)
  | paused r page =>
    refine following_same hfollow hclock (.inl rfl) fun hrun => ?_
    obtain ⟨n, hprogress, -⟩ := hfollow.phase hrun (by rintro _ ⟨⟩)
    exact ⟨n, hprogress, trivial⟩
  | fetched r page =>
    refine following_same hfollow hclock (.inl rfl) fun hrun => ?_
    have hr : r = runId := hworks r rfl
    obtain ⟨n, hprogress, hpage⟩ := hfollow.phase (congrArg some hr) (by rintro _ ⟨⟩)
    refine ⟨n, hprogress, ?_⟩
    unfold afterFetch
    cases hans : i.reply with
    | error reason => trivial
    | ok items =>
      rw [hreply r page items rfl hans]
      subst hpage
      refine ⟨rfl, rfl, ?_, ?_⟩
      · intro entry hentry
        obtain ⟨item, hitem, rfl⟩ := List.mem_map.mp hentry
        exact mem_listedIds_of_pageOf hitem
      · intro item hitem
        exact .inr (List.mem_map.mpr ⟨_, List.mem_map.mpr ⟨item, hitem, rfl⟩, rfl⟩)
  | failed r _ _ _ hok hnext =>
    have hr : r = runId := hworks r rfl
    subst hr
    obtain ⟨n, hprogress, -⟩ := hfollow.phase rfl (by rintro _ ⟨⟩)
    obtain ⟨run, hrun, hid, -⟩ := hprogress.row
    refine following_over ?_ (failRun_not_running hok) ?_
    · refine ⟨_, by rw [failRun_runs hok]; exact mem_updateWhere.mpr ⟨run, hrun, rfl⟩, ?_⟩
      split <;> exact hid
    · rcases hnext with rfl | rfl
      · exact .inl ⟨_, rfl⟩
      · exact .inl ⟨_, rfl⟩
  | identified r page items =>
    refine following_same hfollow hclock (.inl rfl) fun hrun => ?_
    obtain ⟨n, hprogress, hpage, hitems, -, hall⟩ := hfollow.phase hrun (by rintro _ ⟨⟩)
    refine ⟨n, hprogress, hpage, hitems, fun item hitem => ?_⟩
    rcases hall item hitem with hexists | hnone
    · exact hexists
    · cases hnone
  | catalogued r page items entry todo id _ _ hok hnext =>
    have hr : r = runId := hworks r rfl
    obtain ⟨n, hprogress, hpage, hitems, htodo, hall⟩ :=
      hfollow.phase (congrArg some hr) (by rintro _ ⟨⟩)
    have hlisted : entry.1 ∈ listedIds listing := htodo entry List.mem_cons_self
    have hgrown : Grown listing c.tables c'.tables :=
      relates_grown_upsertRepository _ hlisted c id c' hok
    refine following_of_kept hfollow hclock
      (relates_runKept_of_touches (touches_upsertRepositoryInTx _ _) (by decide) _ c id c' hok)
      hgrown hnext fun _ => ⟨n, hprogress, ?_⟩
    have hrest : ∀ e ∈ todo, e.1 ∈ listedIds listing := fun e he =>
      htodo e (List.mem_cons_of_mem _ he)
    have hmore := catalogued_grown hgrown (exists_of_upsertRepository hok) hall
    unfold afterUpsert
    split
    · exact ⟨hpage, hitems, hlisted, hrest, hmore⟩
    · exact ⟨hpage, hitems, hrest, hmore⟩
  | named r page items pid value todo id _ _ hok hnext =>
    have hr : r = runId := hworks r rfl
    obtain ⟨n, hprogress, hpage, hitems, hlisted, htodo, hall⟩ :=
      hfollow.phase (congrArg some hr) (by rintro _ ⟨⟩)
    have hgrown : Grown listing c.tables c'.tables :=
      relates_grown_applyAliasObservation _ _ hlisted _ c id c' hok
    refine following_of_kept hfollow hclock
      (relates_runKept_of_touches (touches_applyAliasObservation _ _ _ _ _ _) (by decide) _ c id c' hok)
      hgrown hnext fun _ => ⟨n, hprogress, hpage, hitems, htodo, fun item hitem => ?_⟩
    rcases hall item hitem with ⟨q, hq, hpid⟩ | hlater
    · exact .inl ⟨q, hgrown.mem_repositories hq, hpid⟩
    · exact .inr hlater
  | recorded r page items _ _ hok hnext =>
    have hr : r = runId := hworks r rfl
    subst hr
    obtain ⟨n, hprogress, rfl, rfl, hall⟩ := hfollow.phase rfl (by rintro _ ⟨⟩)
    have hafter := progress_recorded hsize hok hclock hprogress hall
    refine ⟨fun hlive => ?_, fun _ => ⟨page + 1, hafter⟩, ?_⟩
    · refine IsTrans.trans _ _ _ (hfollow.grown fun run hrun hid => ?_)
        (grown_of_touches (touches_recordPage _ _ _ _ _ _) (by decide) c () c' hok)
      have hnew : { run with
          pagesProcessed := run.pagesProcessed + 1
          itemsObserved := run.itemsObserved + clampInteger (pageOf size listing page).length } ∈
            c'.tables.syncRuns := by
        rw [(recordPage_spec hok).2]
        exact mem_updateWhere.mpr ⟨run, hrun, if_pos (decide_eq_true hid)⟩
      have hrunning := hlive _ hnew hid
      exact hrunning
    · rcases hnext with rfl | rfl
      · intro _ _
        refine ⟨page + 1, hafter, ?_⟩
        unfold afterRecord
        split
        · next hend =>
          have hlen := congrArg List.length
            (take_eq_of_pageOf_nil hpositive (List.isEmpty_iff.mp hend))
          rw [List.length_take] at hlen
          show listing.take ((page + 1 - 1) * size) = listing
          apply List.take_of_length_le
          have hmono : (page - 1) * size ≤ (page + 1 - 1) * size :=
            Nat.mul_le_mul_right _ (by omega)
          omega
        · exact rfl
      · rintro ⟨⟩
  | applied r summary _ _ hok hnext =>
    have hr : r = runId := hworks r rfl
    subst hr
    obtain ⟨⟨done, hdone, hid, -⟩, -⟩ := (starEnumeration_lawful k).apply_completes hok
    refine following_over ⟨done, hdone, hid⟩ (applied_not_running hok) (.inl ?_)
    rcases hnext with rfl | rfl
    · exact ⟨_, rfl⟩
    · exact ⟨_, rfl⟩
  | readBack r summary n _ hnext =>
    refine following_same hfollow hclock hnext fun hrun => ?_
    obtain ⟨n, hprogress, -⟩ := hfollow.phase hrun (by rintro _ ⟨⟩)
    exact ⟨n, hprogress, trivial⟩
  | refused => exact following_same hfollow hclock (.inl rfl) (by rintro ⟨⟩)
  | done result => exact following_later hfollow hclock

end Attempt

end GithubCatalog
