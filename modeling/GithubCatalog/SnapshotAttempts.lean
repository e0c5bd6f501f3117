import GithubCatalog.Catalog

/-!
# Snapshot attempts, statement by statement (`snapshot.rs`, `star_lists.rs`)

`run_full_snapshot` and `run_star_list_snapshot` are one loop over two kinds of pages: open or resume
a run, then acquire, fetch, catalogue what the page lists, stage the page with its checkpoint, and
apply the authority after the page that ends the listing.  Every statement and every transaction is a
step of its own, with a fate, so that other writers may stand between them and a crash may follow any
of them.

* `Enumeration` - what distinguishes the two loops; `starEnumeration` and `listEnumeration`;
* `Attempt.step` - the next statement of an attempt;
* `Snapshots` - a catalog, its clock and the attempts in flight.

The page number is a `u32` in the source; the `integer` counter of processed pages is exhausted long
before it, so it is a natural number here.
-/

namespace GithubCatalog

open Relational Runs Transact

/-- The statistics a completed run reports. -/
structure Summary where
  pagesProcessed : ℕ
  itemsObserved : ℕ
  additions : ℕ
  removals : ℕ
deriving DecidableEq

/-- What one of the two snapshot loops is made of. -/
structure Enumeration (Page Place : Type) where
  mode : SyncMode
  /-- Where a fresh run starts. -/
  first : Place
  /-- The checkpoint a resumed run reads. -/
  newest : Uuid → Database → Option SyncCheckpoint
  /-- Where it continues. -/
  resume : Option SyncCheckpoint → Place
  /-- Why a page fails the run. -/
  defect : Page → Option String
  /-- The repositories of a page, with the alias values they are observed under. -/
  observed : Page → List (ℤ × Option String)
  /-- The transaction that stages a page. -/
  record : Uuid → Time → Uuid → Place → Page → Tx Unit
  /-- The page ends the listing. -/
  exhausted : Page → Bool
  advance : Place → Page → Place
  /-- The authority swap. -/
  apply : (ℕ → ℕ → Uuid) → Time → Uuid → Uuid → Tx Summary
  /-- Whether the staging of a run holds a row. -/
  staged : Uuid → Database → Bool
  /-- Whether the flow reads the list counter back. -/
  readsBack : Bool

def summaryOf (counts : ℕ × ℕ × ℕ × ℕ) : Summary :=
  ⟨counts.1, counts.2.1, counts.2.2.1, counts.2.2.2⟩

/-- `run_full_snapshot`. -/
def starEnumeration (k : Contracts) : Enumeration (List StarredItem) ℕ where
  mode := .full
  first := 1
  newest := latestCheckpoint
  resume := resumePage
  defect := fun _ => none
  observed := fun items =>
    items.map fun item => (item.repo.providerRepositoryId, ownerNameValue item.repo.fullName)
  record := recordPage k
  exhausted := fun items => items.isEmpty
  advance := fun page _ => page + 1
  apply := fun ids now runId accountId =>
    applyAuthorityAndComplete (ids 0) (ids 1) now runId accountId >>= fun counts =>
      pure (summaryOf counts)
  staged := fun runId db => db.snapshotItems.any fun i => decide (i.syncRunId = runId)
  readsBack := false

/-- The list run's newest checkpoint: `order by recorded_at desc`, first in table order. -/
def latestListCheckpoint (runId : Uuid) (db : Database) : Option SyncCheckpoint :=
  firstBy (fun a b => decide (b.recordedAt < a.recordedAt))
    (db.syncCheckpoints.filter fun c => decide (c.syncRunId = runId))

/-- The reason a truncated list fails the run with. -/
def truncatedReason (providerListId : String) : String :=
  "truncated list membership: list " ++ providerListId ++
    " holds more items than one page carries"

/-- `run_star_list_snapshot`. -/
def listEnumeration : Enumeration UserListsPage (Option String) where
  mode := .starLists
  first := none
  newest := latestListCheckpoint
  resume := fun checkpoint => checkpoint.bind (·.graphqlCursor)
  defect := fun page =>
    (page.lists.find? (·.itemsTruncated)).map fun l => truncatedReason l.providerListId
  observed := fun page => page.lists.flatMap fun l =>
    l.items.map fun item => (item.providerRepositoryId, listedAlias item.fullName)
  record := fun checkpointId now runId _ page => recordListPage checkpointId now runId page
  exhausted := fun page => page.lists.isEmpty
  advance := fun _ page => page.nextCursor
  apply := fun ids now runId accountId =>
    applyListAuthorityAndComplete (ids 0) (ids 1) (ids 2) now runId accountId >>= fun counts =>
      pure (summaryOf counts)
  staged := fun runId db => db.listSnapshotItems.any fun i => decide (i.syncRunId = runId)
  readsBack := true

/-! ### One attempt -/

inductive SnapshotOutcome where
  | completed (runId : Uuid) (summary : Summary) (listsObserved : ℕ)
  | paused (runId : Uuid)
  | failed (runId : Uuid)
deriving DecidableEq

/-- Where an attempt stands. -/
inductive AttemptPhase (Page Place : Type) where
  | opening
  | resuming (runId : Uuid)
  | inserting
  | acquiring (runId : Uuid) (place : Place)
  | fetching (runId : Uuid) (place : Place)
  | failing (runId : Uuid) (reason : String)
  | identifying (runId : Uuid) (place : Place) (page : Page) (todo : List (ℤ × Option String))
  | naming (runId : Uuid) (place : Place) (page : Page) (providerRepositoryId : ℤ) (value : String)
      (todo : List (ℤ × Option String))
  | recording (runId : Uuid) (place : Place) (page : Page)
  | applying (runId : Uuid)
  | reading (runId : Uuid) (summary : Summary)
  | ended (result : Except CatalogError SnapshotOutcome)
deriving DecidableEq

/-- The run an attempt works for. -/
def AttemptPhase.runId? {Page Place : Type} : AttemptPhase Page Place → Option Uuid
  | opening | inserting | ended (.error _) => none
  | resuming runId | acquiring runId _ | fetching runId _ | failing runId _
  | identifying runId _ _ _ | naming runId _ _ _ _ _ | recording runId _ _ | applying runId
  | reading runId _ | ended (.ok (.completed runId _ _)) | ended (.ok (.paused runId))
  | ended (.ok (.failed runId)) => some runId

/-- What the world contributes to one step: the time that passes, the fate of the statement, whether
the process stops right after it, the identifiers it draws, the budget's decision and the provider's
reply. -/
structure AttemptInput (Page : Type) where
  elapsed : ℕ
  fate : Fate
  crash : Bool
  freshId : Uuid
  ids : ℕ → ℕ → Uuid
  acquired : Bool
  reply : Except String Page

structure Attempt (Page Place : Type) where
  accountId : Uuid
  phase : AttemptPhase Page Place := .opening
  stopped : Bool := false
deriving DecidableEq

namespace Attempt

variable {Page Place : Type}

/-- The next phase after a statement, or the end with its error. -/
def settle {α : Type} (answer : Except CatalogError α × Catalog) (f : α → AttemptPhase Page Place) :
    AttemptPhase Page Place × Catalog :=
  match answer with
  | (.ok a, c) => (f a, c)
  | (.error e, c) => (.ended (.error e), c)

/-- The loop head after a staged page, or the swap after the last one. -/
def afterRecord (e : Enumeration Page Place) (runId : Uuid) (place : Place) (page : Page) :
    AttemptPhase Page Place :=
  if e.exhausted page then .applying runId else .acquiring runId (e.advance place page)

/-- The phase after a swap. -/
def afterApply (e : Enumeration Page Place) (runId : Uuid) (summary : Summary) :
    AttemptPhase Page Place :=
  if e.readsBack then .reading runId summary else .ended (.ok (.completed runId summary 0))

/-- The phase after a repository was catalogued. -/
def afterUpsert (runId : Uuid) (place : Place) (page : Page) (entry : ℤ × Option String)
    (todo : List (ℤ × Option String)) : AttemptPhase Page Place :=
  match entry.2 with
  | some value => .naming runId place page entry.1 value todo
  | none => .identifying runId place page todo

/-- The phase after a reply. -/
def afterFetch (e : Enumeration Page Place) (runId : Uuid) (place : Place) :
    Except String Page → AttemptPhase Page Place
  | .error reason => .failing runId reason
  | .ok page =>
    match e.defect page with
    | some reason => .failing runId reason
    | none => .identifying runId place page (e.observed page)

/-- `read_lists_observed`. -/
def readListsObserved (runId : Uuid) : Tx ℕ :=
  fetchOne fun db =>
    (db.syncRuns.find? fun r => decide (r.syncRunId = runId)).map fun r => r.listsObserved.toNat

/-- The next statement of an attempt. -/
def step (e : Enumeration Page Place) (i : AttemptInput Page) (now : Time) (c : Catalog)
    (a : Attempt Page Place) : AttemptPhase Page Place × Catalog :=
  match a.phase with
  | .opening =>
    settle (i.fate.run (select (interruptedRun e.mode a.accountId)) c) fun
      | some run => .resuming run.syncRunId
      | none => .inserting
  | .resuming runId =>
    settle (i.fate.run (select fun db => e.resume (e.newest runId db)) c) fun place =>
      .acquiring runId place
  | .inserting =>
    settle (i.fate.run (insertSyncRun e.mode i.freshId a.accountId now) c) fun _ =>
      .acquiring i.freshId e.first
  | .acquiring runId place =>
    (if i.acquired then .fetching runId place else .ended (.ok (.paused runId)), c)
  | .fetching runId place => (afterFetch e runId place i.reply, c)
  | .failing runId reason =>
    settle (i.fate.run (failRun now runId reason) c) fun _ => .ended (.ok (.failed runId))
  | .identifying runId place page [] => (.recording runId place page, c)
  | .identifying runId place page (entry :: todo) =>
    settle (i.fate.run (upsertRepository i.freshId entry.1) c) fun _ =>
      afterUpsert runId place page entry todo
  | .naming runId place page providerRepositoryId value todo =>
    settle (i.fate.run (applyAliasObservation (i.ids 0) now providerRepositoryId .ownerName none
      value) c) fun _ => .identifying runId place page todo
  | .recording runId place page =>
    settle (i.fate.run (e.record i.freshId now runId place page) c) fun _ =>
      afterRecord e runId place page
  | .applying runId =>
    settle (i.fate.run (e.apply i.ids now runId a.accountId) c) fun summary =>
      afterApply e runId summary
  | .reading runId summary =>
    settle (i.fate.run (readListsObserved runId) c) fun n =>
      .ended (.ok (.completed runId summary n))
  | .ended result => (.ended result, c)

/-- One step of the process; a stopped process takes none. -/
def next (e : Enumeration Page Place) (i : AttemptInput Page) (now : Time) (c : Catalog)
    (a : Attempt Page Place) : Attempt Page Place × Catalog :=
  if a.stopped then (a, c)
  else if i.crash then ({ a with stopped := true }, (a.step e i now c).2)
  else ({ a with phase := (a.step e i now c).1 }, (a.step e i now c).2)

/-! ### What one step can do -/

/-- The answer of a statement reached the attempt, or got lost after it took effect. -/
def Told (target next : AttemptPhase Page Place) : Prop :=
  next = target ∨ next = .ended (.error (.query .unavailable))

/-- A statement, whatever its fate: it ran, or the store is as it was and the attempt ends with the
statement's own error or an unavailable database. -/
theorem settle_cases {α : Type} (fate : Fate) (x : Tx α) (c : Catalog)
    (f : α → AttemptPhase Page Place) :
    (∃ b c', x c = .ok (b, c') ∧ (settle (fate.run x c) f).2 = c' ∧
      Told (f b) (settle (fate.run x c) f).1) ∨
    ∃ err, (x c = .error err ∨ err = .query .unavailable) ∧
      settle (fate.run x c) f = (.ended (.error err), c) := by
  obtain ⟨b, c', hok, hrun⟩ | ⟨b, c', hok, hrun⟩ | ⟨err, herr, hrun⟩ := fate.run_cases x c
  · rw [hrun]
    exact .inl ⟨b, c', hok, rfl, .inl rfl⟩
  · rw [hrun]
    exact .inl ⟨b, c', hok, rfl, .inr rfl⟩
  · rw [hrun]
    exact .inr ⟨err, herr, rfl⟩

/-- The transitions of an attempt, by the statement it runs. -/
inductive Turn (e : Enumeration Page Place) (i : AttemptInput Page) (now : Time) (c : Catalog)
    (accountId : Uuid) :
    AttemptPhase Page Place → AttemptPhase Page Place → Catalog → Prop where
  | found (run next) (h : interruptedRun e.mode accountId c.tables = some run)
    (hnext : Told (.resuming run.syncRunId) next) : Turn e i now c accountId .opening next c
  | unfound (next) (h : interruptedRun e.mode accountId c.tables = none)
    (hnext : Told .inserting next) : Turn e i now c accountId .opening next c
  | resumed (runId next)
    (hnext : Told (.acquiring runId (e.resume (e.newest runId c.tables))) next) :
    Turn e i now c accountId (.resuming runId) next c
  | inserted (next c') (h : insertSyncRun e.mode i.freshId accountId now c = .ok ((), c'))
    (hnext : Told (.acquiring i.freshId e.first) next) : Turn e i now c accountId .inserting next c'
  | acquired (runId place) (h : i.acquired = true) :
    Turn e i now c accountId (.acquiring runId place) (.fetching runId place) c
  | paused (runId place) (h : i.acquired = false) :
    Turn e i now c accountId (.acquiring runId place) (.ended (.ok (.paused runId))) c
  | fetched (runId place) :
    Turn e i now c accountId (.fetching runId place) (afterFetch e runId place i.reply) c
  | failed (runId reason next c') (h : failRun now runId reason c = .ok ((), c'))
    (hnext : Told (.ended (.ok (.failed runId))) next) :
    Turn e i now c accountId (.failing runId reason) next c'
  | identified (runId place page) :
    Turn e i now c accountId (.identifying runId place page []) (.recording runId place page) c
  | catalogued (runId place page entry todo id next c')
    (h : upsertRepository i.freshId (entry : ℤ × Option String).1 c = .ok (id, c'))
    (hnext : Told (afterUpsert runId place page entry todo) next) :
    Turn e i now c accountId (.identifying runId place page (entry :: todo)) next c'
  | named (runId place page pid value todo id next c')
    (h : applyAliasObservation (i.ids 0) now pid .ownerName none value c = .ok (id, c'))
    (hnext : Told (.identifying runId place page todo) next) :
    Turn e i now c accountId (.naming runId place page pid value todo) next c'
  | recorded (runId place page next c') (h : e.record i.freshId now runId place page c = .ok ((), c'))
    (hnext : Told (afterRecord e runId place page) next) :
    Turn e i now c accountId (.recording runId place page) next c'
  | applied (runId summary next c') (h : e.apply i.ids now runId accountId c = .ok (summary, c'))
    (hnext : Told (afterApply e runId summary) next) :
    Turn e i now c accountId (.applying runId) next c'
  | readBack (runId summary n next)
    (hnext : Told (.ended (.ok (.completed runId summary n))) next) :
    Turn e i now c accountId (.reading runId summary) next c
  | refused (phase err) (h : ∀ result, phase ≠ .ended result) :
    Turn e i now c accountId phase (.ended (.error err)) c
  | done (result) : Turn e i now c accountId (.ended result) (.ended result) c

/-- A statement that runs, or leaves the store alone. -/
theorem turn_settle {e : Enumeration Page Place} {i : AttemptInput Page} {now : Time} {c : Catalog}
    {accountId : Uuid} {phase : AttemptPhase Page Place} {α : Type} (x : Tx α)
    (f : α → AttemptPhase Page Place) (hphase : ∀ result, phase ≠ .ended result)
    (hran : ∀ b c' next, x c = .ok (b, c') → Told (f b) next →
      Turn e i now c accountId phase next c') :
    Turn e i now c accountId phase (settle (i.fate.run x c) f).1 (settle (i.fate.run x c) f).2 := by
  obtain ⟨b, c', hok, hstore, hnext⟩ | ⟨err, -, heq⟩ := settle_cases i.fate x c f
  · rw [hstore]
    exact hran b c' _ hok hnext
  · rw [heq]
    exact .refused _ err hphase

/-- **One step.** -/
theorem turn (e : Enumeration Page Place) (i : AttemptInput Page) (now : Time) (c : Catalog)
    (a : Attempt Page Place) :
    Turn e i now c a.accountId a.phase (a.step e i now c).1 (a.step e i now c).2 := by
  unfold step
  cases a.phase with
  | opening =>
    refine turn_settle _ _ (by rintro _ ⟨⟩) fun b c' next hok hnext => ?_
    obtain ⟨hread, rfl⟩ := select_eq_ok.mp hok
    cases b with
    | some run => exact .found run next hread hnext
    | none => exact .unfound next hread hnext
  | resuming runId =>
    refine turn_settle _ _ (by rintro _ ⟨⟩) fun b c' next hok hnext => ?_
    obtain ⟨rfl, rfl⟩ := select_eq_ok.mp hok
    exact .resumed runId next hnext
  | inserting =>
    exact turn_settle _ _ (by rintro _ ⟨⟩) fun _ c' next hok hnext => .inserted next c' hok hnext
  | acquiring runId place =>
    cases hacquired : i.acquired with
    | true => exact .acquired runId place hacquired
    | false => exact .paused runId place hacquired
  | fetching runId place => exact .fetched runId place
  | failing runId reason =>
    exact turn_settle _ _ (by rintro _ ⟨⟩) fun _ c' next hok hnext =>
      .failed runId reason next c' hok hnext
  | identifying runId place page todo =>
    cases todo with
    | nil => exact .identified runId place page
    | cons entry todo =>
      exact turn_settle _ _ (by rintro _ ⟨⟩) fun id c' next hok hnext =>
        .catalogued runId place page entry todo id next c' hok hnext
  | naming runId place page pid value todo =>
    exact turn_settle _ _ (by rintro _ ⟨⟩) fun id c' next hok hnext =>
      .named runId place page pid value todo id next c' hok hnext
  | recording runId place page =>
    exact turn_settle _ _ (by rintro _ ⟨⟩) fun _ c' next hok hnext =>
      .recorded runId place page next c' hok hnext
  | applying runId =>
    exact turn_settle _ _ (by rintro _ ⟨⟩) fun summary c' next hok hnext =>
      .applied runId summary next c' hok hnext
  | reading runId summary =>
    refine turn_settle _ _ (by rintro _ ⟨⟩) fun n c' next hok hnext => ?_
    obtain ⟨-, rfl⟩ := fetchOne_eq_ok.mp hok
    exact .readBack runId summary n next hnext
  | ended result => exact .done result

/-- The attempt takes no further step. -/
def finished (a : Attempt Page Place) : Bool :=
  a.stopped || match a.phase with
    | .ended _ => true
    | _ => false

/-- A process that did not stop took its step. -/
theorem next_of_live {e : Enumeration Page Place} {i : AttemptInput Page} {now : Time} {c : Catalog}
    {a : Attempt Page Place} (h : (a.next e i now c).1.stopped = false) :
    a.next e i now c = ({ a with phase := (a.step e i now c).1 }, (a.step e i now c).2) := by
  unfold next at h ⊢
  split at h
  · next hstopped =>
    rw [hstopped] at h
    cases h
  · next hlive =>
    rw [if_neg hlive]
    split at h
    · cases h
    · next hcrash => rw [if_neg hcrash]

/-- A live process runs its statement, whether it stops after it or not. -/
theorem next_catalog {e : Enumeration Page Place} {i : AttemptInput Page} {now : Time} {c : Catalog}
    {a : Attempt Page Place} (hlive : a.stopped = false) :
    (a.next e i now c).2 = (a.step e i now c).2 := by
  unfold next
  rw [if_neg (Bool.eq_false_iff.mp hlive)]
  split <;> rfl

theorem exists_ended_of_over {a : Attempt Page Place} (hlive : a.stopped = false)
    (h : a.finished = true) : ∃ result, a.phase = .ended result := by
  unfold finished at h
  rw [hlive, Bool.false_or] at h
  split at h
  · next result hphase => exact ⟨result, hphase⟩
  · cases h

end Attempt

/-! ### Attempts side by side -/

/-- A catalog, its clock and the attempts in flight. -/
structure Snapshots (Page Place : Type) where
  catalog : Catalog
  clock : Time
  attempts : List (Attempt Page Place)

/-- One event: a step of an attempt, or an operation of another flow. -/
inductive SnapshotEvent (Page : Type) where
  | advance (n : ℕ) (input : AttemptInput Page)
  | catalog (op : Operation)

/-- The clock never goes back. -/
def Snapshots.step {Page Place : Type} (k : Contracts) (e : Enumeration Page Place)
    (s : Snapshots Page Place) : SnapshotEvent Page → Snapshots Page Place
  | .advance n i =>
    match s.attempts[n]? with
    | none => s
    | some a =>
      ⟨(a.next e i (s.clock + i.elapsed) s.catalog).2, s.clock + i.elapsed,
        s.attempts.set n (a.next e i (s.clock + i.elapsed) s.catalog).1⟩
  | .catalog op => { s with catalog := GithubCatalog.step k s.catalog op }

end GithubCatalog
