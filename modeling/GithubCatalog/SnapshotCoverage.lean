import GithubCatalog.SnapshotAtomicity
import GithubCatalog.StarAuthority
import GithubCatalog.RunScope
import Mathlib.Data.List.Infix

/-!
# Absence as removal evidence

A full snapshot reads the upstream listing page by page while the listing moves.  A page is a slice of
the listing at the moment of its fetch, so a repository that stays starred can slip from a page that
has not been fetched to one that has: the run never sees it, and its swap unstars it.

* `StarWorld` - the catalog with its attempts and the upstream listing; pages are slices of it;
* `Covered` - every repository before the next page of a run is staged;
* `NoSlip` - an upstream change moves no unseen repository behind a page boundary of the run;
* `unstar_needs_absence` - along every run of events without slips, the swap unstars a repository
  only if it was not starred upstream at some moment since the run was opened.
-/

namespace GithubCatalog

open Relational Runs Transact

/-! ### The listing and its pages -/

/-- The provider ids of a listing. -/
def listedIds (listing : List StarredItem) : List ℤ :=
  listing.map fun item => item.repo.providerRepositoryId

/-- A page: a slice of fixed size. -/
def pageOf (size : ℕ) (listing : List StarredItem) (page : ℕ) : List StarredItem :=
  (listing.drop ((page - 1) * size)).take size

/-- Where a repository stands in a listing. -/
def positionOf (pid : ℤ) (listing : List StarredItem) : ℕ := (listedIds listing).idxOf pid

theorem mem_pageOf {size page : ℕ} {listing : List StarredItem} {pid : ℤ}
    (hmem : pid ∈ listedIds listing) (hge : (page - 1) * size ≤ positionOf pid listing)
    (hlt : positionOf pid listing < (page - 1) * size + size) :
    pid ∈ listedIds (pageOf size listing page) := by
  have hpos : positionOf pid listing < (listedIds listing).length := List.idxOf_lt_length_of_mem hmem
  rw [listedIds, pageOf, List.map_take, List.map_drop, ← listedIds]
  refine List.mem_take_iff_getElem.mpr ⟨positionOf pid listing - (page - 1) * size, ?_, ?_⟩
  · rw [List.length_drop]
    omega
  · rw [List.getElem_drop]
    simp only [Nat.add_sub_cancel' hge]
    exact List.getElem_idxOf hpos

/-- Behind an empty page there is nothing. -/
theorem positionOf_lt_of_pageOf_nil {size page : ℕ} (hsize : 0 < size) {listing : List StarredItem}
    {pid : ℤ} (hmem : pid ∈ listedIds listing) (hnil : pageOf size listing page = []) :
    positionOf pid listing < (page - 1) * size := by
  have hlen : positionOf pid listing < (listedIds listing).length :=
    List.idxOf_lt_length_of_mem hmem
  have hcount : (pageOf size listing page).length = 0 := by rw [hnil]; rfl
  rw [pageOf, List.length_take, List.length_drop] at hcount
  rw [listedIds, List.length_map] at hlen
  omega

/-! ### The world of a snapshot -/

/-- The catalog with its attempts, and the account's upstream listing. -/
structure StarWorld where
  snapshots : Snapshots (List StarredItem) ℕ
  upstream : List StarredItem

/-- One event: a step of an attempt, an operation of another flow, or a change upstream. -/
inductive StarEvent where
  | advance (n : ℕ) (input : AttemptInput (List StarredItem))
  | catalog (op : Operation)
  | upstream (listing : List StarredItem)

/-- A fetch that succeeds sees its slice of the listing as it is. -/
def Attempt.facing (size : ℕ) (listing : List StarredItem) (a : Attempt (List StarredItem) ℕ)
    (i : AttemptInput (List StarredItem)) : AttemptInput (List StarredItem) :=
  match a.phase, i.reply with
  | .fetching _ page, .ok _ => { i with reply := .ok (pageOf size listing page) }
  | _, _ => i

namespace StarWorld

def catalog (w : StarWorld) : Catalog := w.snapshots.catalog

def attempts (w : StarWorld) : List (Attempt (List StarredItem) ℕ) := w.snapshots.attempts

def step (k : Contracts) (size : ℕ) (w : StarWorld) : StarEvent → StarWorld
  | .advance n i =>
    match w.attempts[n]? with
    | none => w
    | some a =>
      ⟨w.snapshots.step k (starEnumeration k) (.advance n (a.facing size w.upstream i)), w.upstream⟩
  | .catalog op => ⟨w.snapshots.step k (starEnumeration k) (.catalog op), w.upstream⟩
  | .upstream listing => ⟨w.snapshots, listing⟩

/-- The interleavings of one account's snapshots: an attempt runs after the one before it is over, and
the other flows work for runs of their own. -/
def Admits (runId : Uuid) (w : StarWorld) : StarEvent → Prop
  | .advance n _ => ∀ p ∈ w.attempts.zipIdx, p.2 ≠ n → p.1.finished = true ∨ p.1.phase = .opening
  | .catalog op => op.worksFor ≠ some runId ∧ op.erases = false
  | .upstream _ => True

instance decidableAdmits (runId : Uuid) (w : StarWorld) : ∀ event, Decidable (w.Admits runId event)
  | .advance n _ => inferInstanceAs (Decidable (∀ p ∈ w.attempts.zipIdx, p.2 ≠ n → _ ∨ _))
  | .catalog _ => inferInstanceAs (Decidable (_ ∧ _))
  | .upstream _ => inferInstanceAs (Decidable True)

/-- The start of a run: an attempt has just inserted its row. -/
def Opened (k : Contracts) (size : ℕ) (runId : Uuid) (w : StarWorld) : Prop :=
  ∃ (w₀ : StarWorld) (n : ℕ) (i : AttemptInput (List StarredItem)) (a : Attempt (List StarredItem) ℕ),
    w₀.attempts[n]? = some a ∧ a.stopped = false ∧ a.phase = .inserting ∧
    w₀.Admits runId (.advance n i) ∧ w = w₀.step k size (.advance n i) ∧
    w.attempts[n]? = some ⟨a.accountId, .acquiring runId 1, false⟩

end StarWorld

/-! ### Coverage -/

/-- The run is running. -/
def Running (runId : Uuid) (db : Database) : Prop := ∃ run ∈ runsOf runId db, run.status = .running

/-- Whatever stands before the next page of a checkpoint is staged. -/
def CheckpointsCover (size : ℕ) (runId : Uuid) (pid : ℤ) (position : ℕ) (db : Database) : Prop :=
  ∀ p ∈ checkpointsOf runId db, position < (p.nextPage.toNat - 1) * size →
    stagedIn runId pid db = true

/-- Whatever stands before the next page of an attempt is staged; a fetched page holds what is staged
next, and an empty one says that everything is staged. -/
def AttemptPhase.Covers (size : ℕ) (runId : Uuid) (pid : ℤ) (position : ℕ) (db : Database) :
    AttemptPhase (List StarredItem) ℕ → Prop
  | resuming r => r = runId → CheckpointsCover size runId pid position db
  | acquiring r page | fetching r page =>
    r = runId → position < (page - 1) * size → stagedIn runId pid db = true
  | identifying r page items _ | naming r page items _ _ _ | recording r page items =>
    r = runId →
      (position < (page - 1) * size + size → stagedIn runId pid db = true ∨ pid ∈ listedIds items) ∧
      (items = [] → stagedIn runId pid db = true)
  | applying r => r = runId → stagedIn runId pid db = true
  | _ => True

/-- Coverage of one repository by a run, seen from one attempt. -/
structure Covering (size : ℕ) (runId : Uuid) (pid : ℤ) (position : ℕ) (db : Database)
    (phase : AttemptPhase (List StarredItem) ℕ) : Prop where
  checkpoints : Running runId db → CheckpointsCover size runId pid position db
  phase : phase.Covers size runId pid position db

/-- Coverage of one repository by a run. -/
def Covered (size : ℕ) (runId : Uuid) (pid : ℤ) (w : StarWorld) : Prop :=
  (Running runId w.catalog.tables →
    CheckpointsCover size runId pid (positionOf pid w.upstream) w.catalog.tables) ∧
  ∀ a ∈ w.attempts, a.finished = false →
    a.phase.Covers size runId pid (positionOf pid w.upstream) w.catalog.tables

/-! ### The condition -/

/-- The repository moves from behind a boundary to before it. -/
def Slips (pid : ℤ) (listing listing' : List StarredItem) (boundary : ℕ) : Prop :=
  boundary ≤ positionOf pid listing ∧ positionOf pid listing' < boundary

instance (pid : ℤ) (listing listing' : List StarredItem) (boundary : ℕ) :
    Decidable (Slips pid listing listing' boundary) :=
  inferInstanceAs (Decidable (_ ∧ _))

/-- No slip over the next page boundary of an attempt; a page in its hands counts as seen. -/
def AttemptPhase.NoSlip (size : ℕ) (runId : Uuid) (pid : ℤ) (listing listing' : List StarredItem) :
    AttemptPhase (List StarredItem) ℕ → Prop
  | acquiring r page | fetching r page => r = runId → ¬ Slips pid listing listing' ((page - 1) * size)
  | identifying r page items _ | naming r page items _ _ _ | recording r page items =>
    r = runId → pid ∉ listedIds items → ¬ Slips pid listing listing' ((page - 1) * size + size)
  | _ => True

instance decidablePhaseNoSlip (size : ℕ) (runId : Uuid) (pid : ℤ)
    (listing listing' : List StarredItem) :
    ∀ phase, Decidable (AttemptPhase.NoSlip size runId pid listing listing' phase)
  | .acquiring _ _ | .fetching _ _ => inferInstanceAs (Decidable (_ → ¬ _))
  | .identifying _ _ _ _ | .naming _ _ _ _ _ _ | .recording _ _ _ =>
    inferInstanceAs (Decidable (_ → _ → ¬ _))
  | .opening | .resuming _ | .inserting | .failing _ _ | .applying _ | .reading _ _ | .ended _ =>
    inferInstanceAs (Decidable True)

/-- **The condition.**  An upstream change moves no repository that stays starred, and that the run
has not seen, from behind the next page boundary of the run to before it. -/
def NoSlip (size : ℕ) (runId : Uuid) (w : StarWorld) : StarEvent → Prop
  | .upstream listing => ∀ pid ∈ listedIds w.upstream, pid ∈ listedIds listing →
      stagedIn runId pid w.catalog.tables = false →
      (∀ p ∈ checkpointsOf runId w.catalog.tables,
        ¬ Slips pid w.upstream listing ((p.nextPage.toNat - 1) * size)) ∧
      ∀ a ∈ w.attempts, a.finished = false → a.phase.NoSlip size runId pid w.upstream listing
  | _ => True

instance decidableNoSlip (size : ℕ) (runId : Uuid) (w : StarWorld) :
    ∀ event, Decidable (NoSlip size runId w event)
  | .upstream _ => inferInstanceAs (Decidable (∀ pid ∈ listedIds w.upstream, _ → _ → _ ∧ _))
  | .advance _ _ | .catalog _ => inferInstanceAs (Decidable True)

/-! ### One statement -/

/-- What a run staged depends on its own rows. -/
theorem stagedIn_eq {runId : Uuid} {pid : ℤ} (db : Database) :
    stagedIn runId pid db =
      (stagedOf runId db).any fun i => decide (i.providerRepositoryId = pid) := by
  rw [stagedIn, stagedOf, List.any_filter]

theorem RunKept.stagedIn_eq {runId : Uuid} {db db' : Database} (h : RunKept runId db db')
    (pid : ℤ) : stagedIn runId pid db' = stagedIn runId pid db := by
  rw [GithubCatalog.stagedIn_eq, GithubCatalog.stagedIn_eq, h.staged]

section covering

variable {size : ℕ} {runId : Uuid} {pid : ℤ} {position : ℕ} {db db' : Database}
  {phase : AttemptPhase (List StarredItem) ℕ}

theorem RunKept.checkpointsCover (h : RunKept runId db db')
    (hcover : CheckpointsCover size runId pid position db) :
    CheckpointsCover size runId pid position db' := by
  rw [CheckpointsCover, h.checkpoints, h.stagedIn_eq]
  exact hcover

/-- A statement of another run keeps coverage. -/
theorem RunKept.covers (h : RunKept runId db db') (hcover : phase.Covers size runId pid position db) :
    phase.Covers size runId pid position db' := by
  cases phase <;> simp only [AttemptPhase.Covers, h.stagedIn_eq] at hcover ⊢
  case resuming => exact fun hr => h.checkpointsCover (hcover hr)
  all_goals exact hcover

theorem RunKept.running (h : RunKept runId db db') : Running runId db' ↔ Running runId db := by
  rw [Running, Running, h.runs]

theorem RunKept.covering (h : RunKept runId db db')
    (hcover : Covering size runId pid position db phase) :
    Covering size runId pid position db' phase :=
  ⟨fun hrun => h.checkpointsCover (hcover.checkpoints (h.running.mp hrun)), h.covers hcover.phase⟩

/-- A resumed run continues after a checkpoint, or from the start. -/
theorem resumePage_covers {runId : Uuid} {db : Database}
    (h : CheckpointsCover size runId pid position db)
    (hlt : position < (resumePage (latestCheckpoint runId db) - 1) * size) :
    stagedIn runId pid db = true := by
  unfold resumePage at hlt
  cases hlatest : latestCheckpoint runId db with
  | none =>
    rw [hlatest] at hlt
    simp at hlt
  | some p =>
    rw [hlatest] at hlt
    dsimp only [Option.elim] at hlt
    split at hlt
    · exact h p (firstBy_mem hlatest) hlt
    · simp at hlt

/-- An inserted run had no row before. -/
theorem insertSyncRun_fresh {mode : SyncMode} {accountId : Uuid} {now : Time} {c c' : Catalog}
    {u : Unit} (h : insertSyncRun mode runId accountId now c = .ok (u, c')) :
    runId ∉ c.tables.syncRuns.map SyncRun.syncRunId := by
  have hkeys : UniqueOn SyncRun.syncRunId
      (c.tables.syncRuns ++ [newSyncRun runId accountId mode now]) := by
    have hvalid := c'.valid.keys.runs
    rw [write_eq_ok.mp h] at hvalid
    exact hvalid
  exact hkeys.not_mem_of_append

/-- An inserted run has no checkpoint. -/
theorem insertSyncRun_checkpoints {mode : SyncMode} {accountId : Uuid} {now : Time} {c c' : Catalog}
    {u : Unit} (h : insertSyncRun mode runId accountId now c = .ok (u, c')) :
    checkpointsOf runId c'.tables = [] := by
  rw [checkpointsOf, List.filter_eq_nil_iff]
  intro p hp hid
  rw [write_eq_ok.mp h] at hp
  exact insertSyncRun_fresh h
    (of_decide_eq_true hid ▸ c.valid.foreignKeys.checkpoints_run p hp p.syncRunId rfl)

theorem not_running_of_forall (h : ∀ run ∈ db.syncRuns, run.syncRunId = runId →
    run.status ≠ .running) : ¬ Running runId db := by
  rintro ⟨run, hrun, hstatus⟩
  obtain ⟨hmem, hid⟩ := List.mem_filter.mp hrun
  exact h run hmem (of_decide_eq_true hid) hstatus

/-- A failed run is not running. -/
theorem failRun_not_running {now : Time} {reason : String} {c c' : Catalog} {u : Unit}
    (h : failRun now runId reason c = .ok (u, c')) : ¬ Running runId c'.tables := by
  apply not_running_of_forall
  intro run hrun hid hstatus
  rw [failRun_runs h] at hrun
  obtain ⟨old, -, rfl⟩ := mem_updateWhere.mp hrun
  split at hstatus
  · cases hstatus
  · next hother =>
    rw [if_neg hother] at hid
    exact hother (by simp [hid, hstatus])

/-- A completed run is not running. -/
theorem applied_not_running {k : Contracts} {ids : ℕ → ℕ → Uuid} {now : Time} {accountId : Uuid}
    {c c' : Catalog} {summary : Summary}
    (h : (starEnumeration k).apply ids now runId accountId c = .ok (summary, c')) :
    ¬ Running runId c'.tables := by
  obtain ⟨⟨done, hdone, hid, hstatus⟩, -⟩ := (starEnumeration_lawful k).apply_completes h
  apply not_running_of_forall
  intro run hrun hsame hrunning
  rw [c'.valid.keys.runs.eq_of_mem hrun hdone (hsame.trans hid.symm), hstatus] at hrunning
  cases hrunning

/-- What a staged page adds to the staging of its run. -/
theorem stagedIn_recorded {k : Contracts} {id : Uuid} {now : Time} {page : ℕ}
    {items : List StarredItem} {c c' : Catalog} {u : Unit}
    (h : recordPage k id now runId page items c = .ok (u, c')) :
    stagedIn runId pid c'.tables = true ↔
      stagedIn runId pid c.tables = true ∨ pid ∈ listedIds items := by
  rw [(recordPage_spec h).2, stagedIn, List.any_append, Bool.or_eq_true, ← stagedIn]
  refine or_congr Iff.rfl ?_
  rw [List.any_eq_true, listedIds, List.mem_map]
  constructor
  · rintro ⟨row, hrow, hpid⟩
    obtain ⟨p, hp, rfl⟩ := List.mem_map.mp hrow
    exact ⟨p.1, List.fst_mem_of_mem_zipIdx hp,
      of_decide_eq_true (Bool.and_eq_true_iff.mp hpid).2⟩
  · rintro ⟨item, hitem, rfl⟩
    obtain ⟨n, hn⟩ := List.getElem?_of_mem hitem
    refine ⟨_, List.mem_map.mpr ⟨(item, n), List.mk_mem_zipIdx_iff_getElem?.mpr hn, rfl⟩, ?_⟩
    simp [StarredItem.stagedAs]

end covering

/-! ### One step of an attempt -/

namespace Attempt

variable {k : Contracts} {size : ℕ} {runId : Uuid} {pid : ℤ} {listing : List StarredItem}
  {i : AttemptInput (List StarredItem)} {now : Time} {c c' : Catalog} {accountId : Uuid}
  {phase next : AttemptPhase (List StarredItem) ℕ}

theorem covers_of_told {target : AttemptPhase (List StarredItem) ℕ} {position : ℕ} {db : Database}
    (h : Told target next) (htarget : target.Covers size runId pid position db) :
    next.Covers size runId pid position db := by
  rcases h with rfl | rfl
  · exact htarget
  · trivial

/-- A page that was fetched holds the repository, or the repository is staged, or it stands behind
the page; an empty page has nothing behind it. -/
theorem covers_fetched (hsize : 0 < size) (hmem : pid ∈ listedIds listing) {page : ℕ} {db : Database}
    (h : positionOf pid listing < (page - 1) * size → stagedIn runId pid db = true) :
    (positionOf pid listing < (page - 1) * size + size → stagedIn runId pid db = true ∨
      pid ∈ listedIds (pageOf size listing page)) ∧
    (pageOf size listing page = [] → stagedIn runId pid db = true) := by
  constructor
  · intro hlt
    by_cases hbefore : positionOf pid listing < (page - 1) * size
    · exact .inl (h hbefore)
    · exact .inr (mem_pageOf hmem (not_lt.mp hbefore) hlt)
  · intro hnil
    exact h (positionOf_lt_of_pageOf_nil hsize hmem hnil)

/-- Staging a page covers the next one. -/
theorem covering_recorded {id : Uuid} {page : ℕ} {items : List StarredItem} {u : Unit}
    {position : ℕ} (h : recordPage k id now runId page items c = .ok (u, c'))
    (hcover : Covering size runId pid position c.tables (.recording runId page items)) :
    Covering size runId pid position c'.tables (afterRecord (starEnumeration k) runId page items) := by
  obtain ⟨hpage, hempty⟩ := hcover.phase rfl
  have hstaged : stagedIn runId pid c'.tables = true ↔
      stagedIn runId pid c.tables = true ∨ pid ∈ listedIds items := stagedIn_recorded h
  have hnext : position < page * size → stagedIn runId pid c'.tables = true := by
    intro hlt
    have hle : page * size ≤ (page - 1) * size + size := by
      rw [← Nat.succ_mul]
      exact Nat.mul_le_mul_right _ (by omega)
    exact hstaged.mpr (hpage (lt_of_lt_of_le hlt hle))
  constructor
  · intro hrun p hp hlt
    have hrow : p ∈ checkpointsOf runId c.tables ∨ p = ⟨id, runId, page + 1, none, none, now⟩ := by
      obtain ⟨hmem, hid⟩ := List.mem_filter.mp hp
      rw [(recordPage_spec h).2] at hmem
      rcases List.mem_append.mp hmem with hold | hnew
      · exact .inl (List.mem_filter.mpr ⟨hold, hid⟩)
      · exact .inr (List.mem_singleton.mp hnew)
    rcases hrow with hold | rfl
    · have hrunning : Running runId c.tables := by
        obtain ⟨run, hown, hstatus⟩ := hrun
        obtain ⟨hmem, hid⟩ := List.mem_filter.mp hown
        rw [(recordPage_spec h).2] at hmem
        obtain ⟨old, hold, rfl⟩ := mem_updateWhere.mp hmem
        refine ⟨old, List.mem_filter.mpr ⟨hold, ?_⟩, ?_⟩
        · split at hid <;> exact hid
        · split at hstatus <;> exact hstatus
      exact hstaged.mpr (.inl (hcover.checkpoints hrunning p hold hlt))
    · exact hnext hlt
  · unfold afterRecord
    split
    · next hend =>
      exact fun _ => hstaged.mpr (.inl (hempty (List.isEmpty_iff.mp hend)))
    · exact fun _ hlt => hnext hlt

/-- Only the swap writes star state. -/
theorem Turn.stars_eq (h : Turn (starEnumeration k) i now c accountId phase next c')
    (hphase : ∀ r, phase ≠ .applying r) :
    c'.tables.currentStarState = c.tables.currentStarState := by
  cases h with
  | inserted _ _ hok =>
    exact (touches_insertSyncRun _ _ _ _).rows_eq hok (t := .currentStarState) (by decide)
  | failed _ _ _ _ hok =>
    exact (touches_failRun _ _ _).rows_eq hok (t := .currentStarState) (by decide)
  | catalogued _ _ _ _ _ _ _ _ hok =>
    exact (touches_upsertRepositoryInTx _ _).rows_eq hok (t := .currentStarState) (by decide)
  | named _ _ _ _ _ _ _ _ _ hok =>
    exact (touches_applyAliasObservation _ _ _ _ _ _).rows_eq hok (t := .currentStarState)
      (by decide)
  | recorded _ _ _ _ _ hok =>
    exact (touches_recordPage _ _ _ _ _ _).rows_eq hok (t := .currentStarState) (by decide)
  | applied r => exact absurd rfl (hphase r)
  | _ => rfl

/-- A step keeps the star of a repository that a run covers. -/
theorem Turn.starredBy_eq_true (h : Turn (starEnumeration k) i now c accountId phase next c')
    (hrun : phase.runId? = some runId) {position : ℕ} {r : Repository}
    (hr : r ∈ c.tables.repositories)
    (hcover : phase.Covers size runId r.providerRepositoryId position c.tables)
    (hstarred : starredBy accountId r.repositoryId c.tables = true) :
    starredBy accountId r.repositoryId c'.tables = true := by
  by_cases hphase : ∃ other, phase = .applying other
  · obtain ⟨other, rfl⟩ := hphase
    have hother : other = runId := Option.some.inj hrun
    subst hother
    rcases h.applying_cases with ⟨summary, happly, -⟩ | ⟨-, rfl⟩
    · obtain ⟨counts, c₀, hswap, hpure⟩ := Tx.bind_eq_ok.mp happly
      obtain ⟨-, rfl⟩ := Tx.pure_eq_ok.mp hpure
      rw [(applyAuthority_spec hswap).2, if_pos rfl, decide_eq_true_eq,
        mem_stagedIds c.valid.keys hr]
      exact hcover rfl
    · exact hstarred
  · rw [not_exists] at hphase
    rw [starredBy_of_eq (h.stars_eq hphase)]
    exact hstarred

/-- The step that inserts a run leaves it without checkpoints. -/
theorem Turn.opened_checkpoints {page : ℕ}
    (h : Turn (starEnumeration k) i now c accountId .inserting (.acquiring runId page) c') :
    checkpointsOf runId c'.tables = [] := by
  cases h with
  | inserted _ _ hok hnext =>
    rcases hnext with heq | heq
    · cases heq
      exact insertSyncRun_checkpoints hok
    · cases heq

/-- **One step.**  An attempt that sees its slices of the listing keeps the coverage of every
repository of it. -/
theorem Turn.covering (hsize : 0 < size) (hmem : pid ∈ listedIds listing)
    (hreply : ∀ r page items, phase = .fetching r page → i.reply = .ok items →
      items = pageOf size listing page)
    (hcover : Covering size runId pid (positionOf pid listing) c.tables phase)
    (h : Turn (starEnumeration k) i now c accountId phase next c') :
    Covering size runId pid (positionOf pid listing) c'.tables next := by
  cases h with
  | found run _ hread hnext =>
    refine ⟨hcover.checkpoints, covers_of_told hnext ?_⟩
    rintro rfl
    obtain ⟨hrun, -, -, hstatus⟩ := interruptedRun_spec hread
    exact hcover.checkpoints ⟨run, List.mem_filter.mpr ⟨hrun, decide_eq_true rfl⟩, hstatus⟩
  | unfound _ _ hnext => exact ⟨hcover.checkpoints, covers_of_told hnext trivial⟩
  | resumed r _ hnext =>
    refine ⟨hcover.checkpoints, covers_of_told hnext ?_⟩
    rintro rfl
    exact resumePage_covers (hcover.phase rfl)
  | inserted _ _ hok hnext =>
    refine ⟨?_, covers_of_told hnext ?_⟩
    · by_cases hfresh : i.freshId = runId
      · intro _ p hp
        rw [← hfresh, insertSyncRun_checkpoints hok] at hp
        cases hp
      · exact ((relates_runKept_insertSyncRun hfresh _ _ _ c () c' hok).covering hcover).checkpoints
    · intro _ hlt
      simp [starEnumeration] at hlt
  | acquired r page => exact ⟨hcover.checkpoints, hcover.phase⟩
  | paused r page => exact ⟨hcover.checkpoints, trivial⟩
  | fetched r page =>
    refine ⟨hcover.checkpoints, ?_⟩
    unfold afterFetch
    cases hans : i.reply with
    | error reason => trivial
    | ok items =>
      rw [hreply r page items rfl hans]
      exact fun hr => covers_fetched hsize hmem (hcover.phase hr)
  | failed r _ _ _ hok hnext =>
    refine ⟨?_, covers_of_told hnext trivial⟩
    by_cases hr : r = runId
    · rw [hr] at hok
      exact fun hrun => absurd hrun (failRun_not_running hok)
    · exact ((relates_runKept_failRun hr _ _ c () c' hok).covering hcover).checkpoints
  | identified r page items => exact ⟨hcover.checkpoints, hcover.phase⟩
  | catalogued r page items entry todo id _ _ hok hnext =>
    have hkept : RunKept runId c.tables c'.tables :=
      relates_runKept_of_touches (touches_upsertRepositoryInTx _ _) (by decide) _ c id c' hok
    refine ⟨(hkept.covering hcover).checkpoints, covers_of_told hnext ?_⟩
    unfold afterUpsert
    split
    · exact (hkept.covering hcover).phase
    · exact (hkept.covering hcover).phase
  | named r page items _ _ _ id _ _ hok hnext =>
    have hkept : RunKept runId c.tables c'.tables :=
      relates_runKept_of_touches (touches_applyAliasObservation _ _ _ _ _ _) (by decide) _ c id c' hok
    exact ⟨(hkept.covering hcover).checkpoints,
      covers_of_told hnext (hkept.covering hcover).phase⟩
  | recorded r page items _ _ hok hnext =>
    by_cases hr : r = runId
    · subst hr
      have hafter := covering_recorded hok hcover
      exact ⟨hafter.checkpoints, covers_of_told hnext hafter.phase⟩
    · have hkept := (relates_runKept_recordPage hr _ _ _ _ _ c () c' hok).covering hcover
      refine ⟨hkept.checkpoints, covers_of_told hnext ?_⟩
      unfold afterRecord
      split
      · exact fun heq => absurd heq hr
      · exact fun heq => absurd heq hr
  | applied r summary _ _ hok hnext =>
    refine ⟨?_, covers_of_told hnext trivial⟩
    by_cases hr : r = runId
    · rw [hr] at hok
      exact fun hrun => absurd hrun (applied_not_running hok)
    · obtain ⟨counts, c₀, hswap, hpure⟩ := Tx.bind_eq_ok.mp hok
      obtain ⟨-, rfl⟩ := Tx.pure_eq_ok.mp hpure
      have hkept := relates_runKept_applyAuthority hr _ _ _ _ c counts c₀ hswap
      exact (hkept.covering hcover).checkpoints
  | readBack r summary n _ hnext => exact ⟨hcover.checkpoints, covers_of_told hnext trivial⟩
  | refused => exact ⟨hcover.checkpoints, trivial⟩
  | done => exact ⟨hcover.checkpoints, trivial⟩

end Attempt

/-! ### One event -/

section events

variable {k : Contracts} {size : ℕ} {runId : Uuid} {pid : ℤ} {w : StarWorld}

theorem facing_reply {listing : List StarredItem} {a : Attempt (List StarredItem) ℕ}
    {i : AttemptInput (List StarredItem)} {r : Uuid} {page : ℕ} {items : List StarredItem}
    (hphase : a.phase = .fetching r page) (hreply : (a.facing size listing i).reply = .ok items) :
    items = pageOf size listing page := by
  unfold Attempt.facing at hreply
  rw [hphase] at hreply
  cases hans : i.reply with
  | error e =>
    rw [hans] at hreply
    simp only [hans] at hreply
    cases hreply
  | ok other =>
    rw [hans] at hreply
    exact (Except.ok.inj hreply).symm

/-- An attempt's step, and the attempts next to it. -/
theorem advance_spec {n : ℕ} {i : AttemptInput (List StarredItem)}
    {a : Attempt (List StarredItem) ℕ} (ha : w.attempts[n]? = some a) :
    ∃ now, (w.step k size (.advance n i)).catalog =
        (a.next (starEnumeration k) (a.facing size w.upstream i) now w.catalog).2 ∧
      (w.step k size (.advance n i)).attempts = w.attempts.set n
        (a.next (starEnumeration k) (a.facing size w.upstream i) now w.catalog).1 ∧
      (w.step k size (.advance n i)).upstream = w.upstream := by
  refine ⟨w.snapshots.clock + (a.facing size w.upstream i).elapsed, ?_⟩
  have ha' : w.snapshots.attempts[n]? = some a := ha
  simp only [StarWorld.step, StarWorld.catalog, StarWorld.attempts, Snapshots.step, ha', and_self]

/-- Next to an attempt that steps, the others are over or have not begun. -/
theorem mem_attempts_advance {n : ℕ} {i : AttemptInput (List StarredItem)}
    (hadmits : w.Admits runId (.advance n i)) {a' b : Attempt (List StarredItem) ℕ}
    (hb : b ∈ w.attempts.set n a') : b = a' ∨ b.finished = true ∨ b.phase = .opening := by
  obtain ⟨m, hm⟩ := List.getElem?_of_mem hb
  by_cases hown : n = m
  · rw [← hown, List.getElem?_set_self'] at hm
    obtain ⟨_, -, heq⟩ := Option.map_eq_some_iff.mp hm
    exact .inl heq.symm
  · rw [List.getElem?_set_ne hown] at hm
    exact .inr (hadmits (b, m) (List.mk_mem_zipIdx_iff_getElem?.mpr hm) (Ne.symm hown))

/-- An attempt that ended covers everything it has to. -/
theorem covers_of_live {a : Attempt (List StarredItem) ℕ} {position : ℕ} {db : Database}
    (hlive : a.stopped = false) (h : a.finished = false → a.phase.Covers size runId pid position db) :
    a.phase.Covers size runId pid position db := by
  cases hover : a.finished with
  | false => exact h hover
  | true =>
    obtain ⟨result, hended⟩ := Attempt.exists_ended_of_over hlive hover
    rw [hended]
    trivial

/-- A step of an attempt, crashed or not. -/
theorem covering_next (hsize : 0 < size) {listing : List StarredItem}
    (hmem : pid ∈ listedIds listing) {a : Attempt (List StarredItem) ℕ}
    {i : AttemptInput (List StarredItem)} {now : Time} {c : Catalog}
    (hcheckpoints : Running runId c.tables →
      CheckpointsCover size runId pid (positionOf pid listing) c.tables)
    (hphase : a.finished = false → a.phase.Covers size runId pid (positionOf pid listing) c.tables)
    (hreply : ∀ r page items, a.phase = .fetching r page → i.reply = .ok items →
      items = pageOf size listing page) :
    let s := a.next (starEnumeration k) i now c
    (Running runId s.2.tables →
        CheckpointsCover size runId pid (positionOf pid listing) s.2.tables) ∧
      (s.1.finished = false → s.1.phase.Covers size runId pid (positionOf pid listing) s.2.tables) := by
  unfold Attempt.next
  split
  · exact ⟨hcheckpoints, hphase⟩
  · next hlive =>
    have hcovers := covers_of_live (Bool.eq_false_iff.mpr hlive) hphase
    have hturn := (a.turn (starEnumeration k) i now c).covering hsize hmem hreply
      ⟨hcheckpoints, hcovers⟩
    split
    · exact ⟨hturn.checkpoints, fun hover => by simp [Attempt.finished] at hover⟩
    · exact ⟨hturn.checkpoints, fun _ => hturn.phase⟩

/-- An upstream change without a slip keeps coverage. -/
theorem covered_upstream {listing : List StarredItem} (hcovered : Covered size runId pid w)
    (hmem : pid ∈ listedIds w.upstream) (hmem' : pid ∈ listedIds listing)
    (hslip : NoSlip size runId w (.upstream listing)) :
    Covered size runId pid (w.step k size (.upstream listing)) := by
  obtain ⟨hcheckpoints, hattempts⟩ := hcovered
  cases hstaged : stagedIn runId pid w.catalog.tables with
  | true =>
    refine ⟨fun _ _ _ _ => hstaged, fun a _ _ => ?_⟩
    cases a.phase
    case resuming => exact fun _ _ _ _ => hstaged
    case acquiring => exact fun _ _ => hstaged
    case fetching => exact fun _ _ => hstaged
    case identifying => exact fun _ => ⟨fun _ => .inl hstaged, fun _ => hstaged⟩
    case naming => exact fun _ => ⟨fun _ => .inl hstaged, fun _ => hstaged⟩
    case recording => exact fun _ => ⟨fun _ => .inl hstaged, fun _ => hstaged⟩
    case applying => exact fun _ => hstaged
    all_goals trivial
  | false =>
    obtain ⟨hboundary, hpages⟩ := hslip pid hmem hmem' hstaged
    have hstays : ∀ {boundary : ℕ}, ¬ Slips pid w.upstream listing boundary →
        positionOf pid listing < boundary → positionOf pid w.upstream < boundary := by
      intro boundary hno hlt
      by_contra hge
      exact hno ⟨not_lt.mp hge, hlt⟩
    have hcover : CheckpointsCover size runId pid (positionOf pid w.upstream) w.catalog.tables →
        CheckpointsCover size runId pid (positionOf pid listing) w.catalog.tables :=
      fun h p hp hlt => h p hp (hstays (hboundary p hp) hlt)
    refine ⟨fun hrun => hcover (hcheckpoints hrun), fun a ha hlive => ?_⟩
    have hold := hattempts a ha hlive
    have hpage := hpages a ha hlive
    have hfetched : ∀ {r : Uuid} {page : ℕ} {items : List StarredItem},
        (r = runId → (positionOf pid w.upstream < (page - 1) * size + size →
          stagedIn runId pid w.catalog.tables = true ∨ pid ∈ listedIds items) ∧
          (items = [] → stagedIn runId pid w.catalog.tables = true)) →
        (r = runId → pid ∉ listedIds items →
          ¬ Slips pid w.upstream listing ((page - 1) * size + size)) →
        r = runId → (positionOf pid listing < (page - 1) * size + size →
          stagedIn runId pid w.catalog.tables = true ∨ pid ∈ listedIds items) ∧
          (items = [] → stagedIn runId pid w.catalog.tables = true) := by
      intro r page items hcov hno hr
      refine ⟨fun hlt => ?_, (hcov hr).2⟩
      by_cases hseen : pid ∈ listedIds items
      · exact .inr hseen
      · exact (hcov hr).1 (hstays (hno hr hseen) hlt)
    show a.phase.Covers size runId pid (positionOf pid listing) w.catalog.tables
    revert hold hpage
    cases a.phase
    case resuming => exact fun hold _ hr => hcover (hold hr)
    case acquiring => exact fun hold hpage hr hlt => hold hr (hstays (hpage hr) hlt)
    case fetching => exact fun hold hpage hr hlt => hold hr (hstays (hpage hr) hlt)
    case identifying => exact fun hold hpage => hfetched hold hpage
    case naming => exact fun hold hpage => hfetched hold hpage
    case recording => exact fun hold hpage => hfetched hold hpage
    case applying => exact fun hold _ => hold
    all_goals exact fun _ _ => trivial

/-- **One event.** -/
theorem Covered.step (hsize : 0 < size) {event : StarEvent} (hcovered : Covered size runId pid w)
    (hmem : pid ∈ listedIds w.upstream) (hmem' : pid ∈ listedIds (w.step k size event).upstream)
    (hadmits : w.Admits runId event) (hslip : NoSlip size runId w event) :
    Covered size runId pid (w.step k size event) := by
  cases event with
  | upstream listing => exact covered_upstream hcovered hmem hmem' hslip
  | catalog op =>
    have hkept : RunKept runId w.catalog.tables (GithubCatalog.step k w.catalog op).tables :=
      runKept_step hadmits.1 hadmits.2 w.catalog
    exact ⟨fun hrun => hkept.checkpointsCover (hcovered.1 (hkept.running.mp hrun)),
      fun a ha hlive => hkept.covers (hcovered.2 a ha hlive)⟩
  | advance n i =>
    cases ha : w.attempts[n]? with
    | none =>
      have hsame : w.step k size (.advance n i) = w := by simp only [StarWorld.step, ha]
      rw [hsame]
      exact hcovered
    | some a =>
      obtain ⟨now, hcatalog, hattempts, hupstream⟩ :=
        @advance_spec k size w n i a ha
      have hnext := @covering_next k size runId pid hsize w.upstream hmem a (a.facing size w.upstream i) now w.catalog
        hcovered.1        (hcovered.2 a (List.mem_of_getElem? ha)) fun r page items => facing_reply (i := i)
      rw [Covered, hcatalog, hattempts, hupstream]
      refine ⟨hnext.1, fun b hb hlive => ?_⟩
      rcases mem_attempts_advance hadmits hb with rfl | hover | hopening
      · exact hnext.2 hlive
      · rw [hover] at hlive
        cases hlive
      · rw [hopening]
        trivial

/-- At its start a run covers everything it has to. -/
theorem StarWorld.Opened.covered (h : w.Opened k size runId) : Covered size runId pid w := by
  obtain ⟨w₀, n, i, a, ha, hlive, hphase, hadmits, rfl, hopened⟩ := h
  obtain ⟨now, hcatalog, hattempts, -⟩ := @advance_spec k size w₀ n i a ha
  have hnext : (a.next (starEnumeration k) (a.facing size w₀.upstream i) now w₀.catalog).1 =
      ⟨a.accountId, .acquiring runId 1, false⟩ := by
    rw [hattempts, List.getElem?_set_self', ha] at hopened
    exact Option.some.inj hopened
  have hstep := Attempt.next_of_live (congrArg Attempt.stopped hnext)
  have hturn := a.turn (starEnumeration k) (a.facing size w₀.upstream i) now w₀.catalog
  rw [hstep] at hnext
  rw [hphase, show (a.step (starEnumeration k) (a.facing size w₀.upstream i) now w₀.catalog).1 =
    .acquiring runId 1 from congrArg Attempt.phase hnext] at hturn
  rw [Covered, hcatalog, hattempts, hstep]
  constructor
  · intro _ p hp
    rw [hturn.opened_checkpoints] at hp
    cases hp
  · intro b hb hlive
    rcases mem_attempts_advance hadmits hb with rfl | hover | hopening
    · rw [hnext]
      intro _ hlt
      simp at hlt
    · rw [hover] at hlive
      cases hlive
    · rw [hopening]
      trivial

/-! ### Whole runs -/

/-- Along a run without slips, a repository that stays starred stays covered. -/
theorem covered_runFrom (hsize : 0 < size) (events : List StarEvent)
    (hcovered : Covered size runId pid w)
    (hadmits : Guarded (StarWorld.step k size) (StarWorld.Admits runId) w events)
    (hslip : Guarded (StarWorld.step k size) (NoSlip size runId) w events)
    (hmem : ∀ pre, pre <+: events → pid ∈ listedIds (runFrom (StarWorld.step k size) w pre).upstream) :
    Covered size runId pid (runFrom (StarWorld.step k size) w events) := by
  induction events generalizing w with
  | nil => exact hcovered
  | cons event events ih =>
    have hnow : pid ∈ listedIds w.upstream := hmem [] List.nil_prefix
    have hthen : pid ∈ listedIds (w.step k size event).upstream :=
      hmem [event] (by simp)
    refine ih (hcovered.step hsize hnow hthen hadmits.1 hslip.1) hadmits.2 hslip.2 ?_
    intro pre hpre
    exact hmem (event :: pre) (List.cons_prefix_cons.mpr ⟨rfl, hpre⟩)

end events

/-- **Removal evidence.**  From the start of a run, through any interleaving of upstream changes,
pages, pauses, crashes, resumed attempts and other flows without a slip: an attempt of the run turns a
repository from starred to unstarred only if the repository was not starred upstream at some moment
since the start. -/
theorem unstar_needs_absence (k : Contracts) {size : ℕ} (hsize : 0 < size) {runId : Uuid}
    {w : StarWorld} (hopened : w.Opened k size runId) (events : List StarEvent)
    (hadmits : Guarded (StarWorld.step k size) (StarWorld.Admits runId) w events)
    (hslip : Guarded (StarWorld.step k size) (NoSlip size runId) w events)
    (n : ℕ) (i : AttemptInput (List StarredItem)) (a : Attempt (List StarredItem) ℕ)
    (ha : (runFrom (StarWorld.step k size) w events).attempts[n]? = some a)
    (hrun : a.phase.runId? = some runId) (r : Repository)
    (hr : r ∈ (runFrom (StarWorld.step k size) w events).catalog.tables.repositories)
    (hbefore : starredBy a.accountId r.repositoryId
      (runFrom (StarWorld.step k size) w events).catalog.tables = true)
    (hafter : starredBy a.accountId r.repositoryId
      ((runFrom (StarWorld.step k size) w events).step k size (.advance n i)).catalog.tables = false) :
    ∃ pre, pre <+: events ∧
      r.providerRepositoryId ∉ listedIds (runFrom (StarWorld.step k size) w pre).upstream := by
  by_contra hnever
  have hmem : ∀ pre, pre <+: events →
      r.providerRepositoryId ∈ listedIds (runFrom (StarWorld.step k size) w pre).upstream := by
    intro pre hpre
    by_contra habsent
    exact hnever ⟨pre, hpre, habsent⟩
  have hcovered := covered_runFrom hsize events hopened.covered hadmits hslip hmem
  obtain ⟨now, hcatalog, -, -⟩ :=
    @advance_spec k size (runFrom (StarWorld.step k size) w events) n i a ha
  rw [hcatalog] at hafter
  cases hlive : a.stopped with
  | true =>
    rw [Attempt.next, if_pos hlive] at hafter
    rw [hbefore] at hafter
    cases hafter
  | false =>
    have hcovers := covers_of_live hlive (hcovered.2 a (List.mem_of_getElem? ha))
    have hturn := a.turn (starEnumeration k)
      (a.facing size (runFrom (StarWorld.step k size) w events).upstream i) now
      (runFrom (StarWorld.step k size) w events).catalog
    rw [Attempt.next_catalog hlive, hturn.starredBy_eq_true hrun hr hcovers hbefore] at hafter
    cases hafter

/-! ### A repository that slips -/

/-- Two starred repositories. -/
def listedFirst : StarredItem := ⟨some "1970-01-01T00:00:01Z", { providerRepositoryId := 101, fullName := "octo/a" }⟩

def listedSecond : StarredItem := ⟨some "1970-01-01T00:00:01Z", { providerRepositoryId := 102, fullName := "octo/b" }⟩

/-- An attempt's step in which everything goes well. -/
def servedInput (fresh : Uuid) : AttemptInput (List StarredItem) :=
  ⟨1, .served, false, fresh, fun n m => fresh + BitVec.ofNat 128 (16 * n + m), true, .ok []⟩

/-- Repository 102 is starred; an attempt is about to insert its run. -/
def beforeRun (upstream : List StarredItem) : StarWorld :=
  ⟨⟨runFrom (step sampleContracts) emptyCatalog (connectOwners ++
      [.persistConfirmedStar (fun n => 60 + BitVec.ofNat 128 n) 0 ⟨1, "owner-a", .web⟩ 102 "k1" .add]),
    0, [⟨1, .inserting, false⟩]⟩, upstream⟩

/-- The run 1000 has started. -/
def openedRun (upstream : List StarredItem) : StarWorld :=
  (beforeRun upstream).step sampleContracts 1 (.advance 0 (servedInput 1000))

/-- The steps of the attempt, one served input each. -/
def served (fresh : List Uuid) : List StarEvent := fresh.map fun id => .advance 0 (servedInput id)

theorem openedRun_opened (upstream : List StarredItem)
    (h : (openedRun upstream).attempts[0]? = some ⟨1, .acquiring 1000 1, false⟩) :
    (openedRun upstream).Opened sampleContracts 1 1000 :=
  ⟨beforeRun upstream, 0, servedInput 1000, ⟨1, .inserting, false⟩, rfl, rfl, rfl,
    by simp [StarWorld.Admits, beforeRun, StarWorld.attempts], rfl, h⟩

/-- The star is gone before the first page, which is empty. -/
def unstarredFirst : List StarEvent := .upstream [] :: served [1, 2, 3, 1001]

/-- Page 1 is read, its repository is unstarred, and the other slips onto page 1: page 2 is empty. -/
def slippedRun : List StarEvent :=
  served [1, 2, 1001, 1002, 3, 1003] ++ .upstream [listedSecond] :: served [4, 5, 6, 1004]

/-- An unstarred repository: the swap removes its star, and it was not starred upstream. -/
theorem unstar_needs_absence_removed :
    let w := openedRun [listedSecond]
    let s := runFrom (StarWorld.step sampleContracts 1) w unstarredFirst
    starredBy 1 60 s.catalog.tables = true ∧
      starredBy 1 60 (s.step sampleContracts 1 (.advance 0 (servedInput 2000))).catalog.tables =
        false ∧
      ∃ pre, pre <+: unstarredFirst ∧
        102 ∉ listedIds (runFrom (StarWorld.step sampleContracts 1) w pre).upstream := by
  have hopened := openedRun_opened [listedSecond] (by decide +kernel)
  have hbefore : starredBy 1 60 (runFrom (StarWorld.step sampleContracts 1)
      (openedRun [listedSecond]) unstarredFirst).catalog.tables = true := by decide +kernel
  have hafter : starredBy 1 60 ((runFrom (StarWorld.step sampleContracts 1)
      (openedRun [listedSecond]) unstarredFirst).step sampleContracts 1
        (.advance 0 (servedInput 2000))).catalog.tables = false := by decide +kernel
  exact ⟨hbefore, hafter, unstar_needs_absence sampleContracts Nat.one_pos hopened unstarredFirst
    (by decide +kernel) (by decide +kernel) 0 (servedInput 2000) ⟨1, .applying 1000, false⟩
    (by decide +kernel) rfl ⟨60, 102, some .auto⟩ (by decide +kernel) hbefore hafter⟩

/-- The run completes and unstars repository 102, which was starred upstream at every moment of it. -/
theorem unstars_starred_repository :
    let w := openedRun [listedFirst, listedSecond]
    let s := runFrom (StarWorld.step sampleContracts 1) w slippedRun
    let done := s.step sampleContracts 1 (.advance 0 (servedInput 2000))
    w.Opened sampleContracts 1 1000 ∧
      Guarded (StarWorld.step sampleContracts 1) (StarWorld.Admits 1000) w slippedRun ∧
      done.attempts[0]? = some ⟨1, .ended (.ok (.completed 1000 ⟨2, 1, 1, 1⟩ 0)), false⟩ ∧
      starredBy 1 60 s.catalog.tables = true ∧ starredBy 1 60 done.catalog.tables = false ∧
      ∀ pre, pre <+: slippedRun →
        102 ∈ listedIds (runFrom (StarWorld.step sampleContracts 1) w pre).upstream := by
  refine ⟨openedRun_opened _ (by decide +kernel), by decide +kernel, by decide +kernel,
    by decide +kernel, by decide +kernel, ?_⟩
  intro pre hpre
  have hall : ∀ pre ∈ slippedRun.inits, 102 ∈ listedIds (runFrom (StarWorld.step sampleContracts 1)
      (openedRun [listedFirst, listedSecond]) pre).upstream := by decide +kernel
  exact hall pre ((List.mem_inits _ _).mpr hpre)

end GithubCatalog
