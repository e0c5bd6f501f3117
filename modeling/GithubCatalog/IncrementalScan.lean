import GithubCatalog.SnapshotAtomicity
import GithubCatalog.RunScope

/-!
# The incremental scan, statement by statement (`incremental.rs`)

`run_incremental_scan` reads the watermark, opens or resumes a run, and then page by page: acquires,
fetches, proves the ordering, ingests the strictly newer entries one transaction each, and records the
page; the page that proves coverage completes the run.  Every statement is a step of its own, with a
fate; a crash after any of them is a restart.

* `ScanPhase.step` - the next statement of a scan;
* `ScanPhase.Turn`, `ScanPhase.turn` - what one step can do;
* `Scan` - the catalog, its clock and the account's current attempt.

Without a watermark the full snapshot runs in place of the scan (`deferring`).
-/

namespace GithubCatalog

open Relational Runs Transact

/-- What the loop of a run carries from page to page. -/
structure ScanLoop where
  page : ℕ
  oldestSeen : Option Time
  itemsObserved : ℕ
  oldestIngested : Option Time
deriving DecidableEq

/-- A fetched page whose ordering is proven. -/
structure ProvenPage where
  items : List StarredItem
  parsed : List (Time × StarredItem)
deriving DecidableEq

inductive ScanOutcome where
  | completed (runId : Uuid) (pagesProcessed itemsObserved : ℕ)
  | paused (runId : Uuid)
  | gapDetected (runId : Uuid)
  | failed (runId : Uuid)
  | deferredToFull (outcome : SnapshotOutcome)
deriving DecidableEq

/-- Where a scan stands. -/
inductive ScanPhase where
  | reading
  | deferring (phase : AttemptPhase (List StarredItem) ℕ)
  | opening (watermark : Time)
  | resuming (watermark : Time) (runId : Uuid)
  | inserting (watermark : Time)
  | acquiring (watermark : Time) (runId : Uuid) (l : ScanLoop)
  | fetching (watermark : Time) (runId : Uuid) (l : ScanLoop)
  | failing (runId : Uuid) (reason : String) (gap : Bool)
  | identifying (watermark : Time) (runId : Uuid) (l : ScanLoop) (page : ProvenPage)
      (todo : List (Time × StarredItem))
  | naming (watermark : Time) (runId : Uuid) (l : ScanLoop) (page : ProvenPage)
      (entry : Time × StarredItem) (repositoryId : Uuid) (value : String)
      (todo : List (Time × StarredItem))
  | ingesting (watermark : Time) (runId : Uuid) (l : ScanLoop) (page : ProvenPage)
      (entry : Time × StarredItem) (repositoryId : Uuid) (todo : List (Time × StarredItem))
  | recording (watermark : Time) (runId : Uuid) (l : ScanLoop) (page : ProvenPage)
  | completing (runId : Uuid) (l : ScanLoop)
  | ended (result : Except CatalogError ScanOutcome)
deriving DecidableEq

/-- What the world contributes to one step; `shown` is the formatted tail of an ordering fault. -/
structure ScanInput extends AttemptInput (List StarredItem) where
  shown : String

/-- `GAP_REASON`. -/
def gapReason : String := "starred_at ordering gap detected"

/-- The reason detail of `order_proof`. -/
def OrderFault.detail (shown : String) : OrderFault → String
  | missingStarredAt => "a listed item carries no starred_at, so its position cannot be proven"
  | unparsableStarredAt => "a listed item's starred_at is unparsable: " ++ shown
  | increased _ _ => "the listing increased in starred_at from " ++ shown

namespace ScanLoop

/-- A fresh run. -/
def first : ScanLoop := ⟨1, none, 0, none⟩

/-- A resumed run: the page and the ordering boundary of its newest checkpoint. -/
def resumed (checkpoint : Option SyncCheckpoint) : ScanLoop :=
  match checkpoint with
  | some c => ⟨max (resumePage (some c)) 1, c.boundaryStarredAt, 0, none⟩
  | none => first

/-- The older of an established timestamp and a page's last one. -/
def older (established : Option Time) (tail : Option (Time × StarredItem)) : Option Time :=
  match tail with
  | some entry => some (established.elim entry.1 (min · entry.1))
  | none => established

/-- The loop variables after a page was ingested. -/
def afterIngest (watermark : Time) (page : ProvenPage) (l : ScanLoop) : ScanLoop :=
  { l with
    itemsObserved := l.itemsObserved + (ingestedWindow watermark page.parsed).length
    oldestIngested := older l.oldestIngested (ingestedWindow watermark page.parsed).getLast?
    oldestSeen := older l.oldestSeen page.parsed.getLast? }

end ScanLoop

/-- Coverage is proven by an entry at or below the watermark, or by an exhausted listing. -/
def ProvenPage.ends (watermark : Time) (page : ProvenPage) : Bool :=
  decide ((ingestedWindow watermark page.parsed).length < page.parsed.length) || page.items.isEmpty

namespace ScanPhase

/-- The run a scan works for. -/
def runId? : ScanPhase → Option Uuid
  | reading | deferring _ | opening _ | inserting _ | ended (.error _)
  | ended (.ok (.deferredToFull _)) => none
  | resuming _ r | acquiring _ r _ | fetching _ r _ | failing r _ _ | identifying _ r _ _ _
  | naming _ r _ _ _ _ _ _ | ingesting _ r _ _ _ _ _ | recording _ r _ _ | completing r _
  | ended (.ok (.completed r _ _)) | ended (.ok (.paused r)) | ended (.ok (.gapDetected r))
  | ended (.ok (.failed r)) => some r

/-- The next phase after a statement, or the end with its error. -/
def settle {α : Type} (answer : Except CatalogError α × Catalog) (f : α → ScanPhase) :
    ScanPhase × Catalog :=
  match answer with
  | (.ok a, c) => (f a, c)
  | (.error e, c) => (.ended (.error e), c)

/-- A step of the full snapshot that runs in place of a scan. -/
def afterDeferral : AttemptPhase (List StarredItem) ℕ → ScanPhase
  | .ended (.ok outcome) => .ended (.ok (.deferredToFull outcome))
  | .ended (.error e) => .ended (.error e)
  | phase => .deferring phase

/-- The phase after a reply: the ordering proof comes first. -/
def afterFetch (k : Contracts) (watermark : Time) (runId : Uuid) (l : ScanLoop) (shown : String) :
    Except String (List StarredItem) → ScanPhase
  | .error reason => .failing runId reason false
  | .ok items =>
    match orderProof k items l.oldestSeen with
    | .error fault => .failing runId (gapReason ++ ": " ++ fault.detail shown) true
    | .ok parsed =>
      .identifying watermark runId l ⟨items, parsed⟩ (ingestedWindow watermark parsed)

/-- The phase after a repository was catalogued. -/
def afterUpsert (watermark : Time) (runId : Uuid) (l : ScanLoop) (page : ProvenPage)
    (entry : Time × StarredItem) (todo : List (Time × StarredItem)) (repositoryId : Uuid) :
    ScanPhase :=
  match ownerNameValue entry.2.repo.fullName with
  | some value => .naming watermark runId l page entry repositoryId value todo
  | none => .ingesting watermark runId l page entry repositoryId todo

/-- The phase after a page was recorded. -/
def afterRecord (watermark : Time) (runId : Uuid) (l : ScanLoop) (page : ProvenPage) : ScanPhase :=
  if page.ends watermark then .completing runId l
  else .acquiring watermark runId { l with page := l.page + 1 }

/-- The next statement of a scan. -/
def step (k : Contracts) (accountId : Uuid) (i : ScanInput) (now : Time) (c : Catalog) :
    ScanPhase → ScanPhase × Catalog
  | reading => settle (i.fate.run (select (readWatermark accountId)) c) fun
    | some watermark => .opening watermark
    | none => .deferring .opening
  | deferring phase =>
    let s := Attempt.step (starEnumeration k) i.toAttemptInput now c ⟨accountId, phase, false⟩
    (afterDeferral s.1, s.2)
  | opening watermark =>
    settle (i.fate.run (select (interruptedRun .incremental accountId)) c) fun
      | some run => .resuming watermark run.syncRunId
      | none => .inserting watermark
  | resuming watermark runId =>
    settle (i.fate.run (select (latestCheckpoint runId)) c) fun checkpoint =>
      .acquiring watermark runId (.resumed checkpoint)
  | inserting watermark =>
    settle (i.fate.run (insertSyncRun .incremental i.freshId accountId now) c) fun _ =>
      .acquiring watermark i.freshId .first
  | acquiring watermark runId l =>
    (if i.acquired then .fetching watermark runId l else .ended (.ok (.paused runId)), c)
  | fetching watermark runId l => (afterFetch k watermark runId l i.shown i.reply, c)
  | failing runId reason gap =>
    settle (i.fate.run (failRun now runId reason) c) fun _ =>
      .ended (.ok (if gap then .gapDetected runId else .failed runId))
  | identifying watermark runId l page [] =>
    (.recording watermark runId (l.afterIngest watermark page) page, c)
  | identifying watermark runId l page (entry :: todo) =>
    settle (i.fate.run (upsertRepository i.freshId entry.2.repo.providerRepositoryId) c)
      (afterUpsert watermark runId l page entry todo)
  | naming watermark runId l page entry repositoryId value todo =>
    settle (i.fate.run (applyAliasObservation (i.ids 0) now entry.2.repo.providerRepositoryId
      .ownerName none value) c) fun _ => .ingesting watermark runId l page entry repositoryId todo
  | ingesting watermark runId l page entry repositoryId todo =>
    settle (i.fate.run (recordIngest i.freshId now runId accountId repositoryId entry.1) c) fun _ =>
      .identifying watermark runId l page todo
  | recording watermark runId l page =>
    settle (i.fate.run (recordIncrementalPage i.freshId now runId l.page
      (ingestedWindow watermark page.parsed).length l.oldestSeen) c) fun _ =>
      afterRecord watermark runId l page
  | completing runId l =>
    settle (i.fate.run (completeRun now runId accountId l.page l.itemsObserved l.oldestIngested) c)
      fun _ => .ended (.ok (.completed runId l.page l.itemsObserved))
  | ended result => (.ended result, c)

/-! ### What one step can do -/

/-- The answer of a statement reached the scan, or got lost after it took effect. -/
def Told (target next : ScanPhase) : Prop :=
  next = target ∨ next = .ended (.error (.query .unavailable))

/-- The transitions of a scan, by the statement it runs. -/
inductive Turn (k : Contracts) (accountId : Uuid) (i : ScanInput) (now : Time) (c : Catalog) :
    ScanPhase → ScanPhase → Catalog → Prop where
  | read (watermark next) (h : readWatermark accountId c.tables = some watermark)
    (hnext : Told (.opening watermark) next) : Turn k accountId i now c .reading next c
  | unread (next) (h : readWatermark accountId c.tables = none)
    (hnext : Told (.deferring .opening) next) : Turn k accountId i now c .reading next c
  | deferred (phase) : Turn k accountId i now c (.deferring phase)
      (afterDeferral
        (Attempt.step (starEnumeration k) i.toAttemptInput now c ⟨accountId, phase, false⟩).1)
      (Attempt.step (starEnumeration k) i.toAttemptInput now c ⟨accountId, phase, false⟩).2
  | found (watermark run next) (h : interruptedRun .incremental accountId c.tables = some run)
    (hnext : Told (.resuming watermark run.syncRunId) next) :
    Turn k accountId i now c (.opening watermark) next c
  | unfound (watermark next) (hnext : Told (.inserting watermark) next) :
    Turn k accountId i now c (.opening watermark) next c
  | resumed (watermark runId next)
    (hnext : Told (.acquiring watermark runId (.resumed (latestCheckpoint runId c.tables))) next) :
    Turn k accountId i now c (.resuming watermark runId) next c
  | inserted (watermark next c')
    (h : insertSyncRun .incremental i.freshId accountId now c = .ok ((), c'))
    (hnext : Told (.acquiring watermark i.freshId .first) next) :
    Turn k accountId i now c (.inserting watermark) next c'
  | acquired (watermark runId l) :
    Turn k accountId i now c (.acquiring watermark runId l) (.fetching watermark runId l) c
  | paused (watermark runId l) :
    Turn k accountId i now c (.acquiring watermark runId l) (.ended (.ok (.paused runId))) c
  | fetched (watermark runId l) :
    Turn k accountId i now c (.fetching watermark runId l)
      (afterFetch k watermark runId l i.shown i.reply) c
  | failed (runId reason gap next c') (h : failRun now runId reason c = .ok ((), c'))
    (hnext : Told (.ended (.ok (if gap then .gapDetected runId else .failed runId))) next) :
    Turn k accountId i now c (.failing runId reason gap) next c'
  | identified (watermark runId l page) :
    Turn k accountId i now c (.identifying watermark runId l page [])
      (.recording watermark runId (l.afterIngest watermark page) page) c
  | catalogued (watermark runId l page entry todo id next c')
    (h : upsertRepository i.freshId (entry : Time × StarredItem).2.repo.providerRepositoryId c =
      .ok (id, c')) (hnext : Told (afterUpsert watermark runId l page entry todo id) next) :
    Turn k accountId i now c (.identifying watermark runId l page (entry :: todo)) next c'
  | named (watermark runId l page entry repositoryId value todo id next c')
    (h : applyAliasObservation (i.ids 0) now (entry : Time × StarredItem).2.repo.providerRepositoryId
      .ownerName none value c = .ok (id, c'))
    (hnext : Told (.ingesting watermark runId l page entry repositoryId todo) next) :
    Turn k accountId i now c (.naming watermark runId l page entry repositoryId value todo) next c'
  | ingested (watermark runId l page entry repositoryId todo next c')
    (h : recordIngest i.freshId now runId accountId repositoryId (entry : Time × StarredItem).1 c =
      .ok ((), c')) (hnext : Told (.identifying watermark runId l page todo) next) :
    Turn k accountId i now c (.ingesting watermark runId l page entry repositoryId todo) next c'
  | recorded (watermark runId l page next c')
    (h : recordIncrementalPage i.freshId now runId (l : ScanLoop).page
      (ingestedWindow watermark (page : ProvenPage).parsed).length l.oldestSeen c = .ok ((), c'))
    (hnext : Told (afterRecord watermark runId l page) next) :
    Turn k accountId i now c (.recording watermark runId l page) next c'
  | completed (runId l next c')
    (h : completeRun now runId accountId (l : ScanLoop).page l.itemsObserved l.oldestIngested c =
      .ok ((), c')) (hnext : Told (.ended (.ok (.completed runId l.page l.itemsObserved))) next) :
    Turn k accountId i now c (.completing runId l) next c'
  | refused (phase err) (h : ∀ result, phase ≠ .ended result) :
    Turn k accountId i now c phase (.ended (.error err)) c
  | done (result) : Turn k accountId i now c (.ended result) (.ended result) c

/-- A statement that runs, or leaves the store alone. -/
theorem turn_settle {k : Contracts} {accountId : Uuid} {i : ScanInput} {now : Time} {c : Catalog}
    {phase : ScanPhase} {α : Type} (x : Tx α) (f : α → ScanPhase)
    (hphase : ∀ result, phase ≠ .ended result)
    (hran : ∀ b c' next, x c = .ok (b, c') → Told (f b) next →
      Turn k accountId i now c phase next c') :
    Turn k accountId i now c phase (settle (i.fate.run x c) f).1 (settle (i.fate.run x c) f).2 := by
  obtain ⟨b, c', hok, hrun⟩ | ⟨b, c', hok, hrun⟩ | ⟨err, -, hrun⟩ := i.fate.run_cases x c
  · rw [hrun]
    exact hran b c' _ hok (.inl rfl)
  · rw [hrun]
    exact hran b c' _ hok (.inr rfl)
  · rw [hrun]
    exact .refused _ err hphase

/-- **One step.** -/
theorem turn (k : Contracts) (accountId : Uuid) (i : ScanInput) (now : Time) (c : Catalog)
    (phase : ScanPhase) :
    Turn k accountId i now c phase (phase.step k accountId i now c).1
      (phase.step k accountId i now c).2 := by
  cases phase with
  | reading =>
    refine turn_settle _ _ (by rintro _ ⟨⟩) fun b c' next hok hnext => ?_
    obtain ⟨hread, rfl⟩ := select_eq_ok.mp hok
    cases b with
    | some watermark => exact .read watermark next hread hnext
    | none => exact .unread next hread hnext
  | deferring phase => exact .deferred phase
  | opening watermark =>
    refine turn_settle _ _ (by rintro _ ⟨⟩) fun b c' next hok hnext => ?_
    obtain ⟨hread, rfl⟩ := select_eq_ok.mp hok
    cases b with
    | some run => exact .found watermark run next hread hnext
    | none => exact .unfound watermark next hnext
  | resuming watermark runId =>
    refine turn_settle _ _ (by rintro _ ⟨⟩) fun b c' next hok hnext => ?_
    obtain ⟨rfl, rfl⟩ := select_eq_ok.mp hok
    exact .resumed watermark runId next hnext
  | inserting watermark =>
    exact turn_settle _ _ (by rintro _ ⟨⟩) fun _ c' next hok hnext =>
      .inserted watermark next c' hok hnext
  | acquiring watermark runId l =>
    simp only [step]
    split
    · exact .acquired watermark runId l
    · exact .paused watermark runId l
  | fetching watermark runId l => exact .fetched watermark runId l
  | failing runId reason gap =>
    exact turn_settle _ _ (by rintro _ ⟨⟩) fun _ c' next hok hnext =>
      .failed runId reason gap next c' hok hnext
  | identifying watermark runId l page todo =>
    cases todo with
    | nil => exact .identified watermark runId l page
    | cons entry todo =>
      exact turn_settle _ _ (by rintro _ ⟨⟩) fun id c' next hok hnext =>
        .catalogued watermark runId l page entry todo id next c' hok hnext
  | naming watermark runId l page entry repositoryId value todo =>
    exact turn_settle _ _ (by rintro _ ⟨⟩) fun id c' next hok hnext =>
      .named watermark runId l page entry repositoryId value todo id next c' hok hnext
  | ingesting watermark runId l page entry repositoryId todo =>
    exact turn_settle _ _ (by rintro _ ⟨⟩) fun _ c' next hok hnext =>
      .ingested watermark runId l page entry repositoryId todo next c' hok hnext
  | recording watermark runId l page =>
    exact turn_settle _ _ (by rintro _ ⟨⟩) fun _ c' next hok hnext =>
      .recorded watermark runId l page next c' hok hnext
  | completing runId l =>
    exact turn_settle _ _ (by rintro _ ⟨⟩) fun _ c' next hok hnext =>
      .completed runId l next c' hok hnext
  | ended result => exact .done result

end ScanPhase

/-! ### One account's scans -/

/-- The catalog, its clock and the account's current attempt. -/
structure Scan where
  catalog : Catalog
  clock : Time
  phase : ScanPhase

/-- The current attempt takes a step; or a new attempt takes its place, after it ended or crashed. -/
inductive ScanEvent where
  | advance (input : ScanInput)
  | restart

def Scan.step (k : Contracts) (accountId : Uuid) (s : Scan) : ScanEvent → Scan
  | .advance i =>
    ⟨(s.phase.step k accountId i (s.clock + i.elapsed) s.catalog).2, s.clock + i.elapsed,
      (s.phase.step k accountId i (s.clock + i.elapsed) s.catalog).1⟩
  | .restart => { s with phase := .reading }

end GithubCatalog
