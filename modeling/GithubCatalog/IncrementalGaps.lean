import GithubCatalog.IncrementalScan

/-!
# What a failed scan leaves behind

A scan that ends `GapDetected` or `Failed` says that it failed without side effects.  It ingests every
page as soon as the ordering of that page is proven, so what it ingested before the anomaly stays.

* `starAuthority` - an account's star rows, observations and watermark;
* `Scan.ingests` - the step commits an ingested entry;
* `Tracked` - the watermark moves only when the run completes;
* `failed_scan_unchanged_iff` - over every history of a run: a failed scan leaves authority as it was
  exactly when no step of the history ingested an entry.
-/

namespace GithubCatalog

open Relational Runs Transact

/-- An account's star rows, its observations and its watermark. -/
def starAuthority (accountId : Uuid) (db : Database) :
    List CurrentStarState × List StarObservation × Option Time :=
  (db.currentStarState.filter fun c => decide (c.accountId = accountId),
    db.starObservations.filter fun o => decide (o.accountId = accountId),
    readWatermark accountId db)

/-- The number of an account's observations. -/
def observationCount (accountId : Uuid) (db : Database) : ℕ :=
  (db.starObservations.filter fun o => decide (o.accountId = accountId)).length

namespace Scan

/-- The step commits an ingested entry. -/
def ingests (accountId : Uuid) (s : Scan) : ScanEvent → Bool
  | .advance i =>
    match s.phase with
    | .ingesting _ runId _ _ entry repositoryId _ =>
      decide (i.fate ≠ .rolledBack) &&
        (recordIngest i.freshId (s.clock + i.elapsed) runId accountId repositoryId entry.1).succeeds
          s.catalog
    | _ => false
  | .restart => false

/-- The scan stands at a run, or at none. -/
def WorksFor (runId : Uuid) (s : Scan) : Prop := ∀ r ∈ s.phase.runId?, r = runId

instance (runId : Uuid) (s : Scan) : Decidable (s.WorksFor runId) :=
  decidable_of_iff ((s.phase.runId?.all fun r => decide (r = runId)) = true) <| by
    simp [WorksFor, Option.all_eq_true]

end Scan

/-! ### One statement -/

/-- The store after a statement under its fate. -/
theorem Fate.run_snd {α : Type} (fate : Fate) (x : Tx α) (c : Catalog) :
    (fate.run x c).2 = if fate = .rolledBack then c else x.commit c := by
  unfold Fate.run Tx.commit
  cases fate <;> cases x c <;> rfl

section statements

variable {accountId : Uuid} {c c' : Catalog}

/-- An ingested entry adds an observation of the account. -/
theorem observationCount_ingested {id : Uuid} {now : Time} {runId repositoryId : Uuid} {seenAt : Time}
    {u : Unit} (h : recordIngest id now runId accountId repositoryId seenAt c = .ok (u, c')) :
    observationCount accountId c'.tables = observationCount accountId c.tables + 1 := by
  simp only [recordIngest, Tx.bind_eq_ok, write_eq_ok] at h
  obtain ⟨-, c₁, h₁, -, c₂, h₂, h₃⟩ := h
  have hrows : c'.tables.starObservations = c.tables.starObservations ++
      [⟨id, accountId, repositoryId, true, some seenAt, false, now⟩] := by
    rw [h₃, h₂, h₁]
    rfl
  simp [observationCount, hrows]

/-- A raised watermark is a watermark. -/
theorem find?_raiseWatermark (mark : Time) (t : List StarWatermark) :
    ((raiseWatermark accountId mark t).find? fun w => decide (w.accountId = accountId)).isSome =
      true := by
  rw [List.find?_isSome]
  unfold raiseWatermark upsertWhere
  split
  · next hany =>
    obtain ⟨w, hw, hown⟩ := List.any_eq_true.mp hany
    refine ⟨_, mem_updateWhere.mpr ⟨w, hw, rfl⟩, ?_⟩
    rw [if_pos hown]
    exact hown
  · exact ⟨_, List.mem_append_right _ (List.mem_singleton.mpr rfl), decide_eq_true rfl⟩

theorem readWatermark_completeRun {now : Time} {runId : Uuid} {page observed : ℕ}
    {oldest : Option Time} {u : Unit}
    (h : completeRun now runId accountId page observed oldest c = .ok (u, c'))
    (hmark : (readWatermark accountId c.tables).isSome = true) :
    (readWatermark accountId c'.tables).isSome = true := by
  simp only [completeRun, Tx.bind_eq_ok, write_eq_ok, updateSyncRun] at h
  obtain ⟨-, c₁, h₁, h₂⟩ := h
  have hsame : c'.tables.starWatermarks = c₁.tables.starWatermarks := by
    rw [h₂]
    rfl
  rw [readWatermark, Option.isSome_map, hsame, h₁]
  rw [readWatermark, Option.isSome_map] at hmark
  cases oldest with
  | none => exact hmark
  | some mark => exact find?_raiseWatermark mark _

end statements

/-! ### The run's row and the watermark -/

/-- The run's row stays, completed or not as before, and the watermark stands. -/
structure RowKept (accountId runId : Uuid) (db db' : Database) : Prop where
  row : (∃ run ∈ db.syncRuns, run.syncRunId = runId) → ∃ run ∈ db'.syncRuns, run.syncRunId = runId
  runOpen : RunOpen runId db' ↔ RunOpen runId db
  mark : readWatermark accountId db' = readWatermark accountId db

section rows

variable {accountId runId : Uuid} {c c' : Catalog}

theorem rowKept_of_eq {db db' : Database} (hruns : db'.syncRuns = db.syncRuns)
    (hmarks : db'.starWatermarks = db.starWatermarks) : RowKept accountId runId db db' where
  row := by rw [hruns]; exact id
  runOpen := by rw [RunOpen, RunOpen, hruns]
  mark := by rw [readWatermark, readWatermark, hmarks]

theorem rowKept_of_touches {ts : List Table} {α : Type} {x : Tx α} (hx : Touches ts x) {b : α}
    (h : x c = .ok (b, c')) (hruns : .syncRuns ∉ ts) (hmarks : .starWatermarks ∉ ts) :
    RowKept accountId runId c.tables c'.tables :=
  rowKept_of_eq (hx.rows_eq h (t := .syncRuns) hruns) (hx.rows_eq h (t := .starWatermarks) hmarks)

/-- An update of run rows that completes none and reopens none. -/
theorem rowKept_of_update {db db' : Database} {p : SyncRun → Bool} {f : SyncRun → SyncRun}
    (hruns : db'.syncRuns = updateWhere p f db.syncRuns) (hid : ∀ r, (f r).syncRunId = r.syncRunId)
    (hstatus : ∀ r, p r = true → ((f r).status = .completed ↔ r.status = .completed))
    (hmarks : db'.starWatermarks = db.starWatermarks) : RowKept accountId runId db db' where
  row := by
    rintro ⟨run, hrun, hsame⟩
    refine ⟨_, by rw [hruns]; exact mem_updateWhere.mpr ⟨run, hrun, rfl⟩, ?_⟩
    split
    · rw [hid, hsame]
    · exact hsame
  runOpen := by
    unfold RunOpen
    rw [hruns]
    constructor
    · intro hopen run hrun hsame hdone
      refine hopen _ (mem_updateWhere.mpr ⟨run, hrun, rfl⟩) ?_ ?_
      · split
        · rw [hid, hsame]
        · exact hsame
      · split
        · next hp => exact (hstatus run hp).mpr hdone
        · exact hdone
    · intro hopen run hrun hsame hdone
      obtain ⟨old, hold, rfl⟩ := mem_updateWhere.mp hrun
      split at hdone
      · next hp =>
        rw [if_pos hp, hid] at hsame
        exact hopen old hold hsame ((hstatus old hp).mp hdone)
      · next hp =>
        rw [if_neg hp] at hsame
        exact hopen old hold hsame hdone
  mark := by rw [readWatermark, readWatermark, hmarks]

theorem rowKept_failRun {now : Time} {r : Uuid} {reason : String} {u : Unit}
    (h : failRun now r reason c = .ok (u, c')) : RowKept accountId runId c.tables c'.tables := by
  refine rowKept_of_update (failRun_runs h) (fun _ => rfl) ?_
    ((touches_failRun _ _ _).rows_eq h (t := .starWatermarks) (by decide))
  intro r' hp
  have hrunning := of_decide_eq_true (Bool.and_eq_true_iff.mp hp).2
  rw [hrunning]
  simp

theorem rowKept_recordIncrementalPage {id : Uuid} {now : Time} {r : Uuid} {page ingested : ℕ}
    {oldest : Option Time} {u : Unit}
    (h : recordIncrementalPage id now r page ingested oldest c = .ok (u, c')) :
    RowKept accountId runId c.tables c'.tables := by
  have hmarks := (touches_recordIncrementalPage _ _ _ _ _ _).rows_eq h (t := .starWatermarks)
    (by decide)
  simp only [recordIncrementalPage, insertCheckpoint, updateSyncRun, Tx.bind_eq_ok, write_eq_ok] at h
  obtain ⟨-, c₁, h₁, h₂⟩ := h
  refine rowKept_of_update (p := fun r' => decide (r'.syncRunId = r)) (f := fun r' =>
    { r' with
      pagesProcessed := r'.pagesProcessed + 1
      itemsObserved := r'.itemsObserved + clampInteger ingested })
    (by rw [h₂, h₁]; rfl) (fun _ => rfl) (fun _ _ => Iff.rfl) hmarks

/-- An inserted run is open, and so are the others. -/
theorem rowKept_insertSyncRun {mode : SyncMode} {r account : Uuid} {now : Time} {u : Unit}
    (h : insertSyncRun mode r account now c = .ok (u, c')) :
    RowKept accountId runId c.tables c'.tables := by
  have hmarks := (touches_insertSyncRun _ _ _ _).rows_eq h (t := .starWatermarks) (by decide)
  have hruns : c'.tables.syncRuns = c.tables.syncRuns ++ [newSyncRun r account mode now] := by
    rw [write_eq_ok.mp h]
    rfl
  refine ⟨?_, ?_, by rw [readWatermark, readWatermark]; exact congrArg _ (congrArg _ hmarks)⟩
  · rintro ⟨run, hrun, hid⟩
    exact ⟨run, by rw [hruns]; exact List.mem_append_left _ hrun, hid⟩
  · unfold RunOpen
    rw [hruns]
    constructor
    · intro hopen run hrun
      exact hopen run (List.mem_append_left _ hrun)
    · intro hopen run hrun hid hdone
      rcases List.mem_append.mp hrun with hold | hnew
      · exact hopen run hold hid hdone
      · rw [List.mem_singleton.mp hnew] at hdone
        cases hdone

/-- A completed scan has a completed row. -/
theorem completeRun_completes {now : Time} {account : Uuid} {page observed : ℕ}
    {oldest : Option Time} {u : Unit}
    (h : completeRun now runId account page observed oldest c = .ok (u, c'))
    (hrow : ∃ run ∈ c.tables.syncRuns, run.syncRunId = runId) :
    ∃ run ∈ c'.tables.syncRuns, run.syncRunId = runId ∧ run.status = .completed := by
  simp only [completeRun, updateSyncRun, Tx.bind_eq_ok, write_eq_ok] at h
  obtain ⟨-, c₁, h₁, h₂⟩ := h
  obtain ⟨run, hrun, hid⟩ := hrow
  have hsame : c₁.tables.syncRuns = c.tables.syncRuns := by
    rw [h₁]
    rfl
  refine ⟨_, by rw [h₂]; exact mem_updateWhere.mpr ⟨run, by rw [hsame]; exact hrun, rfl⟩, ?_⟩
  rw [if_pos (decide_eq_true hid)]
  exact ⟨hid, rfl⟩

end rows

/-! ### One step -/

/-- The scan has a watermark to scan against, its run has a row, and the watermark stands as long as
the run is not completed. -/
structure Tracked (accountId runId : Uuid) (mark : Option Time) (c : Catalog) (phase : ScanPhase) :
    Prop where
  marked : (readWatermark accountId c.tables).isSome = true
  scanning : ∀ p, phase ≠ .deferring p
  row : phase.runId? = some runId → ∃ run ∈ c.tables.syncRuns, run.syncRunId = runId
  runOpen : phase.runId? = some runId → RunOpen runId c.tables ∨
    ∃ pages items, phase = .ended (.ok (.completed runId pages items))
  mark : RunOpen runId c.tables → readWatermark accountId c.tables = mark

namespace ScanPhase

variable {k : Contracts} {accountId runId : Uuid} {mark : Option Time} {i : ScanInput} {now : Time}
  {c c' : Catalog} {phase next : ScanPhase}

/-- A step that keeps the run's row and stays at its run, or leaves it. -/
theorem tracked_of_rowKept {target : ScanPhase} (h : Tracked accountId runId mark c phase)
    (hkept : RowKept accountId runId c.tables c'.tables) (hnext : Told target next)
    (hscanning : ∀ p, target ≠ .deferring p)
    (hrun : target.runId? = some runId →
      (∃ run ∈ c'.tables.syncRuns, run.syncRunId = runId) ∧ RunOpen runId c'.tables) :
    Tracked accountId runId mark c' next := by
  refine ⟨by rw [hkept.mark]; exact h.marked, ?_, ?_, ?_, fun hopen => ?_⟩
  · rcases hnext with rfl | rfl
    · exact hscanning
    · rintro _ ⟨⟩
  · rcases hnext with rfl | rfl
    · exact fun hr => (hrun hr).1
    · rintro ⟨⟩
  · rcases hnext with rfl | rfl
    · exact fun hr => .inl (hrun hr).2
    · rintro ⟨⟩
  · rw [hkept.mark]
    exact h.mark (hkept.runOpen.mp hopen)

/-- A step of a run that is at work. -/
theorem tracked_same {target : ScanPhase} (h : Tracked accountId runId mark c phase)
    (hphase : ∀ result, phase ≠ .ended result)
    (hkept : RowKept accountId runId c.tables c'.tables) (hnext : Told target next)
    (hscanning : ∀ p, target ≠ .deferring p) (hsame : target.runId? = phase.runId?) :
    Tracked accountId runId mark c' next := by
  refine tracked_of_rowKept h hkept hnext hscanning fun hr => ?_
  rw [hsame] at hr
  refine ⟨hkept.row (h.row hr), hkept.runOpen.mpr ?_⟩
  rcases h.runOpen hr with hopen | ⟨pages, items, hended⟩
  · exact hopen
  · exact absurd hended (hphase _)

/-- **One step.** -/
theorem Turn.tracked (h : Turn k accountId i now c phase next c')
    (htracked : Tracked accountId runId mark c phase)
    (hworks : ∀ r, phase.runId? = some r → r = runId) : Tracked accountId runId mark c' next := by
  have hself : RowKept accountId runId c.tables c.tables := rowKept_of_eq rfl rfl
  cases h with
  | read _ _ _ hnext =>
    exact tracked_same htracked (by rintro _ ⟨⟩) hself hnext (by rintro _ ⟨⟩) rfl
  | unread _ hnone =>
    have hmarked := htracked.marked
    rw [hnone] at hmarked
    cases hmarked
  | deferred p => exact absurd rfl (htracked.scanning p)
  | found _ run _ hread hnext =>
    refine tracked_of_rowKept htracked hself hnext (by rintro _ ⟨⟩) ?_
    rintro ⟨⟩
    exact ⟨⟨run, (interruptedRun_spec hread).1, rfl⟩, interruptedRun_open hread⟩
  | unfound _ _ hnext =>
    exact tracked_same htracked (by rintro _ ⟨⟩) hself hnext (by rintro _ ⟨⟩) rfl
  | resumed _ _ _ hnext =>
    exact tracked_same htracked (by rintro _ ⟨⟩) hself hnext (by rintro _ ⟨⟩) rfl
  | inserted _ _ _ hok hnext =>
    refine tracked_of_rowKept htracked (rowKept_insertSyncRun hok) hnext (by rintro _ ⟨⟩) ?_
    rintro ⟨⟩
    refine ⟨⟨newSyncRun i.freshId accountId .incremental now, ?_, rfl⟩, insertSyncRun_open hok⟩
    rw [write_eq_ok.mp hok]
    exact List.mem_append_right _ List.mem_cons_self
  | acquired _ _ _ =>
    exact tracked_same htracked (by rintro _ ⟨⟩) hself (.inl rfl) (by rintro _ ⟨⟩) rfl
  | paused _ _ _ =>
    exact tracked_same htracked (by rintro _ ⟨⟩) hself (.inl rfl) (by rintro _ ⟨⟩) rfl
  | fetched _ _ _ =>
    refine tracked_same htracked (by rintro _ ⟨⟩) hself (.inl rfl) ?_ ?_
    · unfold afterFetch
      split
      · rintro _ ⟨⟩
      · split <;> rintro _ ⟨⟩
    · unfold afterFetch
      split
      · rfl
      · split <;> rfl
  | failed r _ gap _ _ hok hnext =>
    refine tracked_same htracked (by rintro _ ⟨⟩) (rowKept_failRun hok) hnext (by rintro _ ⟨⟩) ?_
    cases gap <;> rfl
  | identified _ _ _ _ =>
    exact tracked_same htracked (by rintro _ ⟨⟩) hself (.inl rfl) (by rintro _ ⟨⟩) rfl
  | catalogued _ _ _ _ _ _ _ _ _ hok hnext =>
    refine tracked_same htracked (by rintro _ ⟨⟩)
      (rowKept_of_touches (touches_upsertRepositoryInTx _ _) hok (by decide) (by decide)) hnext ?_ ?_
    · unfold afterUpsert
      split <;> rintro _ ⟨⟩
    · unfold afterUpsert
      split <;> rfl
  | named _ _ _ _ _ _ _ _ _ _ _ hok hnext =>
    exact tracked_same htracked (by rintro _ ⟨⟩)
      (rowKept_of_touches (touches_applyAliasObservation _ _ _ _ _ _) hok (by decide) (by decide))
      hnext (by rintro _ ⟨⟩) rfl
  | ingested _ _ _ _ _ _ _ _ _ hok hnext =>
    exact tracked_same htracked (by rintro _ ⟨⟩)
      (rowKept_of_touches (touches_recordIngest _ _ _ _ _ _) hok (by decide) (by decide))
      hnext (by rintro _ ⟨⟩) rfl
  | recorded _ _ _ _ _ _ hok hnext =>
    refine tracked_same htracked (by rintro _ ⟨⟩) (rowKept_recordIncrementalPage hok) hnext ?_ ?_
    · unfold afterRecord
      split <;> rintro _ ⟨⟩
    · unfold afterRecord
      split <;> rfl
  | completed r l _ _ hok hnext =>
    have hr : r = runId := hworks r rfl
    subst hr
    obtain ⟨run, hrun, hid, hdone⟩ := completeRun_completes hok (htracked.row rfl)
    refine ⟨readWatermark_completeRun hok htracked.marked, ?_, fun _ => ⟨run, hrun, hid⟩, ?_,
      fun hopen => absurd hdone (hopen run hrun hid)⟩
    · rcases hnext with rfl | rfl <;> rintro _ ⟨⟩
    · rcases hnext with rfl | rfl
      · exact fun _ => .inr ⟨_, _, rfl⟩
      · rintro ⟨⟩
  | refused _ _ _ =>
    exact tracked_of_rowKept htracked hself (.inl rfl) (by rintro _ ⟨⟩) (by rintro ⟨⟩)
  | done result => exact htracked

theorem settle_snd {α : Type} (answer : Except CatalogError α × Catalog) (f : α → ScanPhase) :
    (settle answer f).2 = answer.2 := by
  obtain ⟨_ | _, _⟩ := answer <;> rfl

/-- A step that is neither a deferral nor an ingestion leaves stars and observations alone. -/
theorem Turn.quiet (h : Turn k accountId i now c phase next c') (hdefer : ∀ p, phase ≠ .deferring p)
    (hingest : ∀ w r l page entry id todo, phase ≠ .ingesting w r l page entry id todo) :
    c'.tables.currentStarState = c.tables.currentStarState ∧
      c'.tables.starObservations = c.tables.starObservations := by
  have hframe : ∀ {ts : List Table} {α : Type} {x : Tx α} {b : α}, Touches ts x →
      x c = .ok (b, c') → .currentStarState ∉ ts → .starObservations ∉ ts →
      c'.tables.currentStarState = c.tables.currentStarState ∧
        c'.tables.starObservations = c.tables.starObservations :=
    fun hx hok hstars hobs => ⟨hx.rows_eq hok (t := .currentStarState) hstars,
      hx.rows_eq hok (t := .starObservations) hobs⟩
  cases h with
  | deferred p => exact absurd rfl (hdefer p)
  | inserted _ _ _ hok =>
    exact hframe (touches_insertSyncRun _ _ _ _) hok (by decide) (by decide)
  | failed _ _ _ _ _ hok => exact hframe (touches_failRun _ _ _) hok (by decide) (by decide)
  | catalogued _ _ _ _ _ _ _ _ _ hok =>
    exact hframe (touches_upsertRepositoryInTx _ _) hok (by decide) (by decide)
  | named _ _ _ _ _ _ _ _ _ _ _ hok =>
    exact hframe (touches_applyAliasObservation _ _ _ _ _ _) hok (by decide) (by decide)
  | ingested w r l page entry id todo => exact absurd rfl (hingest w r l page entry id todo)
  | recorded _ _ _ _ _ _ hok =>
    exact hframe (touches_recordIncrementalPage _ _ _ _ _ _) hok (by decide) (by decide)
  | completed _ _ _ _ hok =>
    exact hframe (touches_completeRun _ _ _ _ _ _) hok (by decide) (by decide)
  | _ => exact ⟨rfl, rfl⟩

end ScanPhase

/-! ### Whole histories -/

section histories

variable {k : Contracts} {accountId runId : Uuid}

/-- One event: an ingestion adds an observation, anything else leaves stars and observations alone. -/
theorem step_ingests (s : Scan) (event : ScanEvent) (hscanning : ∀ p, s.phase ≠ .deferring p) :
    if s.ingests accountId event then
      observationCount accountId (s.step k accountId event).catalog.tables =
        observationCount accountId s.catalog.tables + 1
    else (s.step k accountId event).catalog.tables.currentStarState =
          s.catalog.tables.currentStarState ∧
        (s.step k accountId event).catalog.tables.starObservations =
          s.catalog.tables.starObservations := by
  cases event with
  | restart => exact ⟨rfl, rfl⟩
  | advance i =>
    by_cases hphase : ∃ w r l page entry id todo, s.phase = .ingesting w r l page entry id todo
    · obtain ⟨w, r, l, page, entry, id, todo, hphase⟩ := hphase
      have hcatalog : (s.step k accountId (.advance i)).catalog = if i.fate = .rolledBack then s.catalog
          else (recordIngest i.freshId (s.clock + i.elapsed) r accountId id entry.1).commit
            s.catalog := by
        rw [← Fate.run_snd]
        simp only [Scan.step, hphase, ScanPhase.step, ScanPhase.settle_snd]
      simp only [Scan.ingests, hphase]
      rw [hcatalog]
      by_cases hfate : i.fate = .rolledBack
      · rw [if_pos hfate, if_neg (by simp [hfate])]
        exact ⟨rfl, rfl⟩
      · rw [if_neg hfate]
        cases hran : (recordIngest i.freshId (s.clock + i.elapsed) r accountId id entry.1).succeeds
            s.catalog with
        | true =>
          rw [if_pos (by simp [hfate])]
          exact observationCount_ingested (Tx.succeeds_iff.mp hran)
        | false =>
          rw [if_neg (by simp)]
          rcases Tx.commit_cases (recordIngest i.freshId (s.clock + i.elapsed) r accountId id entry.1)
            s.catalog with ⟨u, hok⟩ | hsame
          · rw [Tx.succeeds, hok] at hran
            cases hran
          · rw [hsame]
            exact ⟨rfl, rfl⟩
    · have hingests : s.ingests accountId (.advance i) = false := by
        simp only [Scan.ingests]
        split
        · next hp => exact absurd ⟨_, _, _, _, _, _, _, hp⟩ hphase
        · rfl
      rw [hingests]
      refine (s.phase.turn k accountId i (s.clock + i.elapsed) s.catalog).quiet hscanning ?_
      intro w r l page entry id todo hp
      exact hphase ⟨w, r, l, page, entry, id, todo, hp⟩

theorem tracked_step {mark : Option Time} {s : Scan} {event : ScanEvent}
    (h : Tracked accountId runId mark s.catalog s.phase) (hworks : s.WorksFor runId) :
    Tracked accountId runId mark (s.step k accountId event).catalog
      (s.step k accountId event).phase := by
  cases event with
  | restart => exact ⟨h.marked, by rintro _ ⟨⟩, by rintro ⟨⟩, by rintro ⟨⟩, h.mark⟩
  | advance i => exact (s.phase.turn k accountId i _ s.catalog).tracked h hworks

theorem tracked_runFrom {mark : Option Time} (events : List ScanEvent) {s : Scan}
    (h : Tracked accountId runId mark s.catalog s.phase)
    (hworks : Throughout (Scan.step k accountId) (Scan.WorksFor runId) s events) :
    Tracked accountId runId mark (runFrom (Scan.step k accountId) s events).catalog
      (runFrom (Scan.step k accountId) s events).phase := by
  induction events generalizing s with
  | nil => exact h
  | cons event events ih => exact ih (tracked_step h hworks.1) hworks.2

/-- Without an ingestion stars and observations stay. -/
theorem quiet_runFrom {mark : Option Time} (events : List ScanEvent) {s : Scan}
    (h : Tracked accountId runId mark s.catalog s.phase)
    (hworks : Throughout (Scan.step k accountId) (Scan.WorksFor runId) s events)
    (hnone : Guarded (Scan.step k accountId) (fun s event => s.ingests accountId event = false) s
      events) :
    (runFrom (Scan.step k accountId) s events).catalog.tables.currentStarState =
        s.catalog.tables.currentStarState ∧
      (runFrom (Scan.step k accountId) s events).catalog.tables.starObservations =
        s.catalog.tables.starObservations := by
  induction events generalizing s with
  | nil => exact ⟨rfl, rfl⟩
  | cons event events ih =>
    have hstep := @step_ingests k accountId s event h.scanning
    rw [if_neg (by simp [hnone.1])] at hstep
    obtain ⟨hstars, hobs⟩ := ih (tracked_step h hworks.1) hworks.2 hnone.2
    exact ⟨hstars.trans hstep.1, hobs.trans hstep.2⟩

/-- Observations are never taken back. -/
theorem observationCount_runFrom {mark : Option Time} (events : List ScanEvent) {s : Scan}
    (h : Tracked accountId runId mark s.catalog s.phase)
    (hworks : Throughout (Scan.step k accountId) (Scan.WorksFor runId) s events) :
    observationCount accountId s.catalog.tables ≤
        observationCount accountId (runFrom (Scan.step k accountId) s events).catalog.tables ∧
      (observationCount accountId (runFrom (Scan.step k accountId) s events).catalog.tables =
        observationCount accountId s.catalog.tables →
      Guarded (Scan.step k accountId) (fun s event => s.ingests accountId event = false) s
        events) := by
  induction events generalizing s with
  | nil => exact ⟨le_rfl, fun _ => trivial⟩
  | cons event events ih =>
    have hstep := @step_ingests k accountId s event h.scanning
    obtain ⟨hle, hguarded⟩ := ih (tracked_step h hworks.1) hworks.2
    rw [runFrom_cons]
    cases hingests : s.ingests accountId event with
    | true =>
      rw [if_pos hingests] at hstep
      exact ⟨by omega, fun heq => by omega⟩
    | false =>
      rw [if_neg (by simp [hingests])] at hstep
      have hsame : observationCount accountId (s.step k accountId event).catalog.tables =
          observationCount accountId s.catalog.tables := by
        rw [observationCount, observationCount, hstep.2]
      exact ⟨by omega, fun heq => ⟨hingests, hguarded (by omega)⟩⟩

end histories

/-- **Failed scans.**  From the start of an attempt of an account with a watermark, through every
sequence of pages, pauses, faults, crashes and resumed attempts of one run: when the run ends
`GapDetected` or `Failed`, the account's star rows, observations and watermark are as they were
exactly when no step of the history ingested an entry. -/
theorem failed_scan_unchanged_iff (k : Contracts) (accountId runId : Uuid) (s : Scan)
    (hstart : s.phase = .reading)
    (hmark : (readWatermark accountId s.catalog.tables).isSome = true) (events : List ScanEvent)
    (hworks : Throughout (Scan.step k accountId) (Scan.WorksFor runId) s events)
    (hend : (runFrom (Scan.step k accountId) s events).phase = .ended (.ok (.gapDetected runId)) ∨
      (runFrom (Scan.step k accountId) s events).phase = .ended (.ok (.failed runId))) :
    starAuthority accountId (runFrom (Scan.step k accountId) s events).catalog.tables =
        starAuthority accountId s.catalog.tables ↔
      Guarded (Scan.step k accountId) (fun s event => s.ingests accountId event = false) s
        events := by
  have htracked : Tracked accountId runId (readWatermark accountId s.catalog.tables) s.catalog
      s.phase := by
    rw [hstart]
    exact ⟨hmark, by rintro _ ⟨⟩, by rintro ⟨⟩, by rintro ⟨⟩, fun _ => rfl⟩
  constructor
  · intro hsame
    refine (observationCount_runFrom events htracked hworks).2 ?_
    exact congrArg (fun authority => authority.2.1.length) hsame
  · intro hnone
    obtain ⟨hstars, hobs⟩ := quiet_runFrom events htracked hworks hnone
    have hfinal := tracked_runFrom events htracked hworks
    have hwatermark : readWatermark accountId
        (runFrom (Scan.step k accountId) s events).catalog.tables =
          readWatermark accountId s.catalog.tables := by
      refine hfinal.mark ?_
      have hrun : (runFrom (Scan.step k accountId) s events).phase.runId? = some runId := by
        rcases hend with h | h <;> rw [h] <;> rfl
      rcases hfinal.runOpen hrun with hopen | ⟨pages, items, hdone⟩
      · exact hopen
      · rcases hend with h | h <;> rw [h] at hdone <;> cases hdone
    rw [starAuthority, starAuthority, hstars, hobs, hwatermark]

/-! ### Two scans that end in a gap -/

/-- An account whose watermark stands at 5. -/
def scanStart : Scan :=
  ⟨runFrom (step sampleContracts) emptyCatalog (connectOwners ++
    [.openRun .incremental 900 1 0, .completeRun 0 900 1 1 0 (some 5)]), 0, .reading⟩

/-- A served step that draws an id and meets a reply. -/
def scanStep (fresh : Uuid) (reply : Except String (List StarredItem)) : ScanEvent :=
  .advance ⟨⟨1, .served, false, fresh, fun n m => fresh + BitVec.ofNat 128 (16 * n + m), true, reply⟩,
    ""⟩

/-- A starred repository, and one whose `starred_at` is missing. -/
def newerItem : StarredItem :=
  ⟨some "1970-01-01T00:00:01Z", { providerRepositoryId := 101, fullName := "octo/a" }⟩

def timelessItem : StarredItem := ⟨none, { providerRepositoryId := 102, fullName := "octo/b" }⟩

/-- The gap is on the first page. -/
def firstPageGap : List ScanEvent :=
  [1, 2, 1000, 3, 4, 5].map fun fresh => scanStep fresh (.ok [timelessItem])

/-- The gap is on the second page. -/
def secondPageGap : List ScanEvent :=
  ([1, 2, 1000, 3, 4, 1001, 1002, 1003, 5, 1004].map fun fresh => scanStep fresh (.ok [newerItem])) ++
    [6, 7, 8].map fun fresh => scanStep fresh (.ok [timelessItem])

/-- A gap on the first page leaves everything as it was. -/
theorem failed_scan_unchanged_first_page :
    starAuthority 1 (runFrom (Scan.step sampleContracts 1) scanStart firstPageGap).catalog.tables =
      starAuthority 1 scanStart.catalog.tables :=
  (failed_scan_unchanged_iff sampleContracts 1 1000 scanStart rfl (by decide +kernel) firstPageGap
    (by decide +kernel) (.inl (by decide +kernel))).mpr (by decide +kernel)

/-- A gap on the second page: the scan ends `GapDetected`, and the star of the first page stays. -/
theorem gap_with_side_effects :
    (runFrom (Scan.step sampleContracts 1) scanStart secondPageGap).phase =
        .ended (.ok (.gapDetected 1000)) ∧
      starredBy 1 1001 scanStart.catalog.tables = false ∧
      starredBy 1 1001
        (runFrom (Scan.step sampleContracts 1) scanStart secondPageGap).catalog.tables = true ∧
      starAuthority 1 (runFrom (Scan.step sampleContracts 1) scanStart secondPageGap).catalog.tables ≠
        starAuthority 1 scanStart.catalog.tables := by
  decide +kernel

end GithubCatalog
