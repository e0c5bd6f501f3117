import GithubCatalog.ListSwap
import GithubCatalog.SnapshotCoverage
import GithubCatalog.SnapshotSwap

/-!
# One run at a time

Attempts of one account that follow one another: an attempt takes its steps when the others are over or
have not begun.  Then an open run is the only one of its account, every attempt works for it until it
is over, and what one step of an attempt keeps holds along whole histories.

* `Snapshots.Sequential` - the histories: attempts one after the other, and no other flow;
* `Solo` - the run is the only open one; `Turn.solo` - one step keeps this;
* `KeptBy`, `keptBy_runFrom` - from one step of an attempt to whole histories.
-/

namespace GithubCatalog

open Relational Runs Transact

/-! ### The rows of runs -/

/-- Run rows keep their identity, and none starts to run again. -/
def RunsMoved (db db' : Database) : Prop :=
  ∃ f : SyncRun → SyncRun, db'.syncRuns = db.syncRuns.map f ∧ ∀ run,
    (f run).syncRunId = run.syncRunId ∧ (f run).accountId = run.accountId ∧
      (f run).mode = run.mode ∧ ((f run).status = .running → run.status = .running)

theorem runsMoved_of_eq {db db' : Database} (h : db'.syncRuns = db.syncRuns) : RunsMoved db db' :=
  ⟨id, by rw [h, List.map_id], fun _ => ⟨rfl, rfl, rfl, id⟩⟩

theorem runsMoved_of_touches {ts : List Table} {α : Type} {x : Tx α} {b : α} {c c' : Catalog}
    (hx : Touches ts x) (h : x c = .ok (b, c')) (ht : Table.syncRuns ∉ ts) :
    RunsMoved c.tables c'.tables :=
  runsMoved_of_eq (hx.rows_eq h (t := .syncRuns) ht)

theorem runsMoved_of_update {db db' : Database} {p : SyncRun → Bool} {f : SyncRun → SyncRun}
    (h : db'.syncRuns = updateWhere p f db.syncRuns) (hf : ∀ run, p run = true →
      (f run).syncRunId = run.syncRunId ∧ (f run).accountId = run.accountId ∧
        (f run).mode = run.mode ∧ ((f run).status = .running → run.status = .running)) :
    RunsMoved db db' := by
  refine ⟨_, h, fun run => ?_⟩
  split
  · next hp => exact hf run hp
  · exact ⟨rfl, rfl, rfl, id⟩

theorem RunsMoved.running {db db' : Database} (h : RunsMoved db db') {runId : Uuid}
    (hrunning : Running runId db') : Running runId db := by
  obtain ⟨f, hruns, hf⟩ := h
  obtain ⟨run, hrun, hstatus⟩ := hrunning
  obtain ⟨hmem, hid⟩ := List.mem_filter.mp hrun
  rw [hruns] at hmem
  obtain ⟨old, hold, rfl⟩ := List.mem_map.mp hmem
  obtain ⟨hsame, -, -, hback⟩ := hf old
  refine ⟨old, List.mem_filter.mpr ⟨hold, ?_⟩, hback hstatus⟩
  rw [hsame] at hid
  exact hid

/-- What the two enumerations do to run rows. -/
structure Enumeration.MovesRuns {Page Place : Type} (e : Enumeration Page Place) : Prop where
  record : ∀ {id now runId place page} {c c' : Catalog},
    e.record id now runId place page c = .ok ((), c') → RunsMoved c.tables c'.tables
  apply : ∀ {ids now runId accountId} {c c' : Catalog} {summary},
    e.apply ids now runId accountId c = .ok (summary, c') → RunsMoved c.tables c'.tables

theorem starEnumeration_movesRuns (k : Contracts) : (starEnumeration k).MovesRuns where
  record h := by
    refine runsMoved_of_update (congrArg Database.syncRuns (recordPage_spec h).2) fun run _ => ?_
    exact ⟨rfl, rfl, rfl, id⟩
  apply {ids now runId accountId c c' summary} h := by
    obtain ⟨counts, c₁, hswap, hpure⟩ := Tx.bind_eq_ok.mp h
    obtain ⟨-, rfl⟩ := Tx.pure_eq_ok.mp hpure
    obtain ⟨additions, _, hread, hrest⟩ := Tx.bind_eq_ok.mp hswap
    obtain ⟨-, rfl⟩ := select_eq_ok.mp hread
    obtain ⟨⟨⟩, d₁, h₁, hrest⟩ := Tx.bind_eq_ok.mp hrest
    obtain ⟨⟨⟩, d₂, h₂, hrest⟩ := Tx.bind_eq_ok.mp hrest
    obtain ⟨⟨⟩, d₃, h₃, hrest⟩ := Tx.bind_eq_ok.mp hrest
    obtain ⟨unstars, d₄, h₄, hrest⟩ := Tx.bind_eq_ok.mp hrest
    obtain ⟨⟨⟩, d₅, h₅, hrest⟩ := Tx.bind_eq_ok.mp hrest
    obtain ⟨⟨⟩, d₆, h₆, hrest⟩ := Tx.bind_eq_ok.mp hrest
    obtain ⟨pair, d₇, h₇, hpure⟩ := Tx.bind_eq_ok.mp hrest
    obtain ⟨-, rfl⟩ := Tx.pure_eq_ok.mp hpure
    have hsame : d₆.tables.syncRuns = c.tables.syncRuns := by
      have e₁ : d₁.tables.syncRuns = c.tables.syncRuns := by rw [write_eq_ok.mp h₁]; rfl
      have e₂ : d₂.tables.syncRuns = d₁.tables.syncRuns := by rw [write_eq_ok.mp h₂]; rfl
      have e₃ : d₃.tables.syncRuns = d₂.tables.syncRuns :=
        (touches_promoteSeenRepositories _ _ _).rows_eq h₃ (t := .syncRuns) (by decide)
      have e₄ : d₄.tables.syncRuns = d₃.tables.syncRuns :=
        (touches_unstarAbsentRepositories _ _ _ _).rows_eq h₄ (t := .syncRuns) (by decide)
      have e₅ : d₅.tables.syncRuns = d₄.tables.syncRuns := by rw [write_eq_ok.mp h₅]; rfl
      have e₆ : d₆.tables.syncRuns = d₅.tables.syncRuns := by rw [write_eq_ok.mp h₆]; rfl
      rw [e₆, e₅, e₄, e₃, e₂, e₁]
    obtain ⟨hruns, -⟩ := completeRunRow_spec h₇
    rw [hsame] at hruns
    exact runsMoved_of_update hruns fun run _ => ⟨rfl, rfl, rfl, by rintro ⟨⟩⟩

theorem listEnumeration_movesRuns : listEnumeration.MovesRuns where
  record {checkpointId now runId place page c c'} h := by
    obtain ⟨base, _, hread, hrest⟩ := Tx.bind_eq_ok.mp h
    obtain ⟨-, rfl⟩ := select_eq_ok.mp hread
    obtain ⟨⟨⟩, d₁, h₁, hrest⟩ := Tx.bind_eq_ok.mp hrest
    obtain ⟨⟨⟩, d₂, h₂, h₃⟩ := Tx.bind_eq_ok.mp hrest
    have hsame : d₂.tables.syncRuns = c.tables.syncRuns := by
      rw [write_eq_ok.mp h₂, write_eq_ok.mp h₁]
      rfl
    have hruns := congrArg Database.syncRuns (write_eq_ok.mp h₃)
    refine runsMoved_of_update (hruns.trans (congrArg _ hsame)) fun run _ => ?_
    exact ⟨rfl, rfl, rfl, id⟩
  apply h := by
    obtain ⟨counts, c₁, hswap, hpure⟩ := Tx.bind_eq_ok.mp h
    obtain ⟨-, rfl⟩ := Tx.pure_eq_ok.mp hpure
    exact runsMoved_of_update (applyListAuthority_swapping hswap).runs fun run _ =>
      ⟨rfl, rfl, rfl, by rintro ⟨⟩⟩

/-! ### The only open run -/

/-- The run belongs to the account, and while it is open no other run of the account and the mode is.  -/
structure Solo (mode : SyncMode) (accountId runId : Uuid) (db : Database) : Prop where
  row : ∃ run ∈ db.syncRuns, run.syncRunId = runId ∧ run.accountId = accountId ∧ run.mode = mode
  only : Running runId db → ∀ run ∈ db.syncRuns, run.accountId = accountId → run.mode = mode →
    run.status = .running → run.syncRunId = runId

/-- An attempt that has begun works for the run, or the run is over. -/
def AttemptPhase.WorksFor {Page Place : Type} (runId : Uuid) (db : Database)
    (phase : AttemptPhase Page Place) : Prop :=
  phase = .opening ∨ phase.runId? = some runId ∨ ¬ Running runId db

/-- The phases that need their run open. -/
def AttemptPhase.working {Page Place : Type} : AttemptPhase Page Place → Bool
  | resuming _ | acquiring _ _ | fetching _ _ | failing _ _ | identifying _ _ _ _
  | naming _ _ _ _ _ _ | recording _ _ _ | applying _ => true
  | opening | inserting | reading _ _ | ended _ => false

/-- What is known of the only open run, seen from an attempt. -/
structure Engaged {Page Place : Type} (mode : SyncMode) (accountId runId : Uuid) (c : Catalog)
    (phase : AttemptPhase Page Place) : Prop where
  solo : Solo mode accountId runId c.tables
  works : (∃ result, phase = .ended result) ∨ phase.WorksFor runId c.tables
  running : phase.runId? = some runId → phase.working = true → Running runId c.tables

theorem Solo.moved {mode : SyncMode} {accountId runId : Uuid} {db db' : Database}
    (h : Solo mode accountId runId db) (hmoved : RunsMoved db db') :
    Solo mode accountId runId db' := by
  have hback := hmoved
  obtain ⟨f, hruns, hf⟩ := hmoved
  constructor
  · obtain ⟨run, hrun, hid, haccount, hmode⟩ := h.row
    obtain ⟨hsame, hsameAccount, hsameMode, -⟩ := hf run
    refine ⟨f run, ?_, hsame.trans hid, hsameAccount.trans haccount, hsameMode.trans hmode⟩
    rw [hruns]
    exact List.mem_map.mpr ⟨run, hrun, rfl⟩
  · intro hrunning run hrun haccount hmode hstatus
    rw [hruns] at hrun
    obtain ⟨old, hold, rfl⟩ := List.mem_map.mp hrun
    obtain ⟨hsame, hsameAccount, hsameMode, hsameStatus⟩ := hf old
    rw [hsame]
    exact h.only (hback.running hrunning) old hold (hsameAccount.symm.trans haccount)
      (hsameMode.symm.trans hmode) (hsameStatus hstatus)

/-- An open run of the account is found. -/
theorem Solo.not_running_of_unfound {mode : SyncMode} {accountId runId : Uuid} {c : Catalog}
    (h : Solo mode accountId runId c.tables) (hnone : interruptedRun mode accountId c.tables = none) :
    ¬ Running runId c.tables := by
  rintro ⟨run, hrun, hstatus⟩
  obtain ⟨hmem, hid⟩ := List.mem_filter.mp hrun
  obtain ⟨row, hrow, hrowId, haccount, hmode⟩ := h.row
  have hsame : run = row := c.valid.keys.runs.eq_of_mem hmem hrow
    ((of_decide_eq_true hid).trans hrowId.symm)
  have hempty := firstBy_eq_none hnone
  rw [List.filter_eq_nil_iff] at hempty
  refine hempty run hmem ?_
  rw [hsame, haccount, hmode, ← hsame, hstatus]
  simp

namespace Attempt

variable {Page Place : Type} {e : Enumeration Page Place} {i : AttemptInput Page} {now : Time}
  {c c' : Catalog} {accountId runId : Uuid} {phase next : AttemptPhase Page Place}

theorem runId?_afterRecord (r : Uuid) (place : Place) (page : Page) :
    (afterRecord e r place page).runId? = some r := by
  unfold afterRecord
  split <;> rfl

theorem runId?_afterApply (r : Uuid) (summary : Summary) :
    (afterApply e r summary).runId? = some r := by
  unfold afterApply
  split <;> rfl

theorem runId?_afterUpsert (r : Uuid) (place : Place) (page : Page) (entry : ℤ × Option String)
    (todo : List (ℤ × Option String)) :
    (afterUpsert r place page entry todo).runId? = some r := by
  unfold afterUpsert
  split <;> rfl

theorem runId?_afterFetch (r : Uuid) (place : Place) (reply : Except String Page) :
    (afterFetch e r place reply).runId? = some r := by
  unfold afterFetch
  split
  · rfl
  · split <;> rfl

/-- An attempt that has its run keeps it, and only moves run rows. -/
theorem Turn.moved (hmoves : e.MovesRuns) (h : Turn e i now c accountId phase next c')
    (hopening : phase ≠ .opening) (hinserting : phase ≠ .inserting) :
    RunsMoved c.tables c'.tables ∧ (next.runId? = phase.runId? ∨ ∃ result, next = .ended result) := by
  have htold : ∀ {target : AttemptPhase Page Place} {r : Uuid}, Told target next →
      target.runId? = some r → next.runId? = some r ∨ ∃ result, next = .ended result := by
    rintro target r (rfl | rfl) hr
    · exact .inl hr
    · exact .inr ⟨_, rfl⟩
  have hsame : RunsMoved c.tables c.tables := runsMoved_of_eq rfl
  cases h with
  | found => exact absurd rfl hopening
  | unfound => exact absurd rfl hopening
  | inserted => exact absurd rfl hinserting
  | resumed r _ hnext => exact ⟨hsame, htold hnext rfl⟩
  | acquired => exact ⟨hsame, .inl rfl⟩
  | paused => exact ⟨hsame, .inl rfl⟩
  | fetched r place => exact ⟨hsame, .inl (runId?_afterFetch r place _)⟩
  | failed r reason _ _ hok hnext =>
    refine ⟨runsMoved_of_update (failRun_runs hok) fun run _ => ?_, htold hnext rfl⟩
    exact ⟨rfl, rfl, rfl, by rintro ⟨⟩⟩
  | identified => exact ⟨hsame, .inl rfl⟩
  | catalogued r place page entry todo _ _ _ hok hnext =>
    exact ⟨runsMoved_of_touches (touches_upsertRepositoryInTx _ _) hok (by decide),
      htold hnext (runId?_afterUpsert r place page entry todo)⟩
  | named r place page pid value todo _ _ _ hok hnext =>
    exact ⟨runsMoved_of_touches (touches_applyAliasObservation _ _ _ _ _ _) hok (by decide),
      htold hnext rfl⟩
  | recorded r place page _ _ hok hnext =>
    exact ⟨hmoves.record hok, htold hnext (runId?_afterRecord r place page)⟩
  | applied r summary _ _ hok hnext =>
    exact ⟨hmoves.apply hok, htold hnext (runId?_afterApply r summary)⟩
  | readBack r summary n _ hnext => exact ⟨hsame, htold hnext rfl⟩
  | refused => exact ⟨hsame, .inr ⟨_, rfl⟩⟩
  | done result => exact ⟨hsame, .inr ⟨_, rfl⟩⟩

/-- A run that is not open is not opened again. -/
theorem not_running_inserted {mode : SyncMode} {fresh : Uuid}
    (h : insertSyncRun mode fresh accountId now c = .ok ((), c'))
    (hrow : ∃ run ∈ c.tables.syncRuns, run.syncRunId = runId) (hover : ¬ Running runId c.tables) :
    ¬ Running runId c'.tables := by
  obtain ⟨row, hmem, hid⟩ := hrow
  have hfresh : fresh ≠ runId := by
    rintro rfl
    exact insertSyncRun_fresh h (List.mem_map.mpr ⟨row, hmem, hid⟩)
  rw [(relates_runKept_insertSyncRun hfresh _ _ _ c () c' h).running]
  exact hover

/-- An attempt that works for another run leaves a run that is over alone. -/
theorem Turn.other (hmoves : e.MovesRuns) (h : Turn e i now c accountId phase next c')
    (hrow : ∃ run ∈ c.tables.syncRuns, run.syncRunId = runId) (hopening : phase ≠ .opening)
    (hother : phase.runId? ≠ some runId) (hover : ¬ Running runId c.tables) :
    ¬ Running runId c'.tables ∧ ((∃ result, next = .ended result) ∨ next.runId? ≠ some runId) := by
  by_cases hinserting : phase = .inserting
  · subst hinserting
    cases h with
    | inserted _ _ hok hnext =>
      refine ⟨not_running_inserted hok hrow hover, ?_⟩
      rcases hnext with rfl | rfl
      · refine .inr fun hsame => ?_
        obtain ⟨row, hmem, hid⟩ := hrow
        have hfresh : i.freshId = runId := Option.some.inj hsame
        exact insertSyncRun_fresh hok (List.mem_map.mpr ⟨row, hmem, hid.trans hfresh.symm⟩)
      · exact .inl ⟨_, rfl⟩
    | refused => exact ⟨hover, .inl ⟨_, rfl⟩⟩
  · obtain ⟨hmoved, hnext⟩ := h.moved hmoves hopening hinserting
    refine ⟨fun hrunning => hover (hmoved.running hrunning), ?_⟩
    rcases hnext with hsame | hended
    · exact .inr (hsame ▸ hother)
    · exact .inl hended

/-- **One step.**  The run stays the only open one, and the attempt goes on with it. -/
theorem Turn.solo (hmoves : e.MovesRuns) (h : Turn e i now c accountId phase next c')
    (hsolo : Solo e.mode accountId runId c.tables) (hworks : phase.WorksFor runId c.tables) :
    Solo e.mode accountId runId c'.tables ∧
      ((∃ result, next = .ended result) ∨ next.WorksFor runId c'.tables) := by
  by_cases hopening : phase = .opening
  · subst hopening
    cases h with
    | found run _ hread hnext =>
      refine ⟨hsolo, ?_⟩
      rcases hnext with rfl | rfl
      · obtain ⟨hrun, haccount, hmode, hstatus⟩ := interruptedRun_spec hread
        by_cases hrunning : Running runId c.tables
        · exact .inr (.inr (.inl (congrArg some
            (hsolo.only hrunning run hrun haccount hmode hstatus))))
        · exact .inr (.inr (.inr hrunning))
      · exact .inl ⟨_, rfl⟩
    | unfound _ hnone hnext =>
      exact ⟨hsolo, .inr (.inr (.inr (hsolo.not_running_of_unfound hnone)))⟩
    | refused => exact ⟨hsolo, .inl ⟨_, rfl⟩⟩
  · by_cases hinserting : phase = .inserting
    · subst hinserting
      have hover : ¬ Running runId c.tables := by
        rcases hworks with hphase | hrun | hover
        · cases hphase
        · cases hrun
        · exact hover
      cases h with
      | inserted _ _ hok hnext =>
        obtain ⟨row, hrow, hid, haccount, hmode⟩ := hsolo.row
        have hafter := not_running_inserted hok ⟨row, hrow, hid⟩ hover
        refine ⟨⟨⟨row, ?_, hid, haccount, hmode⟩, fun hrunning => absurd hrunning hafter⟩,
          .inr (.inr (.inr hafter))⟩
        rw [write_eq_ok.mp hok]
        exact List.mem_append_left _ hrow
      | refused => exact ⟨hsolo, .inl ⟨_, rfl⟩⟩
    · obtain ⟨hmoved, hnext⟩ := h.moved hmoves hopening hinserting
      refine ⟨hsolo.moved hmoved, ?_⟩
      rcases hnext with hsame | hended
      · right
        rcases hworks with heq | hrun | hover
        · exact absurd heq hopening
        · exact .inr (.inl (hsame.trans hrun))
        · exact .inr (.inr fun hrunning => hover (hmoved.running hrunning))
      · exact .inl hended

/-- The phase after a step works for the run only if the run is open. -/
theorem Turn.working_open (hmoves : e.MovesRuns) (hlaw : e.Lawful)
    (h : Turn e i now c accountId phase next c')
    (hsolo : Solo e.mode accountId runId c.tables)
    (hrunning : phase.runId? = some runId → phase.working = true → Running runId c.tables)
    (hown : next.runId? = some runId) (hworking : next.working = true) : Running runId c'.tables := by
  have htold : ∀ {target : AttemptPhase Page Place}, Told target next → next = target := by
    rintro target (rfl | rfl)
    · rfl
    · cases hown
  cases h with
  | found run _ hread hnext =>
    rw [htold hnext] at hown
    obtain ⟨hmem, -, -, hstatus⟩ := interruptedRun_spec hread
    exact ⟨run, List.mem_filter.mpr ⟨hmem, decide_eq_true (Option.some.inj hown)⟩, hstatus⟩
  | unfound _ _ hnext =>
    rw [htold hnext] at hown
    cases hown
  | resumed r _ hnext =>
    rw [htold hnext] at hown
    exact hrunning hown rfl
  | inserted _ _ hok hnext =>
    rw [htold hnext] at hown
    obtain ⟨row, hrow, hid, -⟩ := hsolo.row
    refine absurd (List.mem_map.mpr ⟨row, hrow, ?_⟩) (insertSyncRun_fresh hok)
    exact hid.trans (Option.some.inj hown).symm
  | acquired r place => exact hrunning hown rfl
  | paused => cases hworking
  | fetched r place =>
    rw [runId?_afterFetch] at hown
    exact hrunning hown rfl
  | failed r reason _ _ _ hnext =>
    rw [htold hnext] at hworking
    cases hworking
  | identified => exact hrunning hown rfl
  | catalogued r place page entry todo _ _ _ hok hnext =>
    rw [htold hnext, runId?_afterUpsert] at hown
    have hsame : c'.tables.syncRuns = c.tables.syncRuns :=
      (touches_upsertRepositoryInTx _ _).rows_eq hok (t := .syncRuns) (by decide)
    rw [Running, runsOf, hsame]
    exact hrunning hown rfl
  | named r place page pid value todo _ _ _ hok hnext =>
    rw [htold hnext] at hown
    have hsame : c'.tables.syncRuns = c.tables.syncRuns :=
      (touches_applyAliasObservation _ _ _ _ _ _).rows_eq hok (t := .syncRuns) (by decide)
    rw [Running, runsOf, hsame]
    exact hrunning hown rfl
  | recorded r place page _ _ hok hnext =>
    rw [htold hnext, runId?_afterRecord] at hown
    obtain ⟨run, hrun, hstatus⟩ := hrunning hown rfl
    obtain ⟨hmem, hid⟩ := List.mem_filter.mp hrun
    obtain ⟨f, hf, hruns⟩ := hlaw.record_runs hok
    obtain ⟨g, hmap, hg⟩ := hmoves.record hok
    have hsame : (if decide (run.syncRunId = r) then f run else run) = g run :=
      List.map_inj_left.mp (hruns.symm.trans hmap) run hmem
    refine ⟨g run, List.mem_filter.mpr ⟨?_, ?_⟩, ?_⟩
    · rw [hmap]
      exact List.mem_map.mpr ⟨run, hmem, rfl⟩
    · rw [(hg run).1]
      exact hid
    · rw [← hsame]
      split
      · rw [hf]
        exact hstatus
      · exact hstatus
  | applied r summary _ _ _ hnext =>
    rw [htold hnext] at hworking
    unfold afterApply at hworking
    split at hworking <;> cases hworking
  | readBack _ _ _ _ hnext =>
    rw [htold hnext] at hworking
    cases hworking
  | refused | done => cases hworking

/-- **One step.**  An attempt stays engaged with the run. -/
theorem Turn.engaged (hmoves : e.MovesRuns) (hlaw : e.Lawful)
    (h : Turn e i now c accountId phase next c') (hengaged : Engaged e.mode accountId runId c phase) :
    Engaged e.mode accountId runId c' next := by
  rcases hengaged.works with ⟨result, rfl⟩ | hworks
  · cases h with
    | refused _ _ hlive => exact absurd rfl (hlive result)
    | done => exact hengaged
  · obtain ⟨hsolo, hnext⟩ := h.solo hmoves hengaged.solo hworks
    exact ⟨hsolo, hnext, h.working_open hmoves hlaw hengaged.solo hengaged.running⟩

/-- An attempt that is over stays over. -/
theorem finished_next {a : Attempt Page Place} (hover : a.finished = true) :
    (a.next e i now c).1.finished = true := by
  cases hstopped : a.stopped with
  | true =>
    rw [Attempt.next, if_pos hstopped]
    exact hover
  | false =>
    obtain ⟨result, hphase⟩ := Attempt.exists_ended_of_over hstopped hover
    unfold Attempt.next
    rw [if_neg (Bool.eq_false_iff.mp hstopped)]
    split
    · rfl
    · rw [Attempt.step, hphase, Attempt.finished, hstopped]
      rfl

/-- An attempt that is over changes nothing. -/
theorem catalog_next {a : Attempt Page Place} (hover : a.finished = true) : (a.next e i now c).2 = c := by
  cases hstopped : a.stopped with
  | true => rw [Attempt.next, if_pos hstopped]
  | false =>
    obtain ⟨result, hphase⟩ := Attempt.exists_ended_of_over hstopped hover
    rw [Attempt.next_catalog hstopped, Attempt.step, hphase]

theorem stopped_of_live {a : Attempt Page Place} (hlive : a.finished = false) : a.stopped = false := by
  rw [Attempt.finished, Bool.or_eq_false_iff] at hlive
  exact hlive.1

theorem not_ended_of_live {a : Attempt Page Place} (hlive : a.finished = false)
    (result : Except CatalogError SnapshotOutcome) : a.phase ≠ .ended result := by
  intro heq
  rw [Attempt.finished, stopped_of_live hlive, heq] at hlive
  cases hlive

/-- An attempt that is not over after a step was not before, and stands where the step led. -/
theorem phase_next {a : Attempt Page Place} (hlive : (a.next e i now c).1.finished = false) :
    a.finished = false ∧ (a.next e i now c).1.phase = (a.step e i now c).1 := by
  have hbefore : a.finished = false := by
    by_contra hover
    rw [finished_next (Bool.eq_true_of_not_eq_false hover)] at hlive
    cases hlive
  refine ⟨hbefore, ?_⟩
  unfold Attempt.next at hlive ⊢
  rw [if_neg (Bool.eq_false_iff.mp (stopped_of_live hbefore))] at hlive ⊢
  split at hlive
  · cases hlive
  · next hcrash => rw [if_neg hcrash]

end Attempt

/-! ### Whole histories -/

namespace Snapshots

variable {Page Place : Type}

/-- Attempts one after the other, and no other flow: an attempt takes a step when the others are over
or have not begun. -/
def Sequential (s : Snapshots Page Place) : SnapshotEvent Page → Prop
  | .advance n _ => ∀ p ∈ s.attempts.zipIdx, p.2 ≠ n → p.1.finished = true ∨ p.1.phase = .opening
  | .catalog _ => False

/-- The input of a step meets `G` at the time and in the state of the step. -/
def Meets (G : Time → Catalog → AttemptInput Page → AttemptPhase Page Place → Prop)
    (s : Snapshots Page Place) : SnapshotEvent Page → Prop
  | .advance n i => ∀ a ∈ s.attempts[n]?, G (s.clock + i.elapsed) s.catalog i a.phase
  | .catalog _ => True

/-- What is known of every attempt that is not over, and of the ones that have not begun. -/
structure KeptBy (Inv : Time → Catalog → AttemptPhase Page Place → Prop) (accountId : Uuid)
    (s : Snapshots Page Place) : Prop where
  accounts : ∀ a ∈ s.attempts, a.accountId = accountId
  opening : Inv s.clock s.catalog .opening
  attempts : ∀ a ∈ s.attempts, a.finished = false → Inv s.clock s.catalog a.phase

/-- Next to an attempt that steps, the others are over or have not begun. -/
theorem Sequential.mem_set {s : Snapshots Page Place} {n : ℕ} {i : AttemptInput Page}
    (h : s.Sequential (.advance n i)) {a' b : Attempt Page Place} (hb : b ∈ s.attempts.set n a') :
    b = a' ∨ (b ∈ s.attempts ∧ (b.finished = true ∨ b.phase = .opening)) := by
  obtain ⟨m, hm⟩ := List.getElem?_of_mem hb
  by_cases hown : n = m
  · rw [← hown, List.getElem?_set_self'] at hm
    obtain ⟨_, -, heq⟩ := Option.map_eq_some_iff.mp hm
    exact .inl heq.symm
  · rw [List.getElem?_set_ne hown] at hm
    exact .inr ⟨List.mem_of_getElem? hm,
      h (b, m) (List.mk_mem_zipIdx_iff_getElem?.mpr hm) (Ne.symm hown)⟩

section kept

variable {k : Contracts} {e : Enumeration Page Place} {accountId runId : Uuid}
  {Inv : Time → Catalog → AttemptPhase Page Place → Prop}
  {G : Time → Catalog → AttemptInput Page → AttemptPhase Page Place → Prop}
  {s : Snapshots Page Place}

theorem step_advance {n : ℕ} {i : AttemptInput Page} {a : Attempt Page Place}
    (h : s.attempts[n]? = some a) : s.step k e (.advance n i) =
      ⟨(a.next e i (s.clock + i.elapsed) s.catalog).2, s.clock + i.elapsed,
        s.attempts.set n (a.next e i (s.clock + i.elapsed) s.catalog).1⟩ := by
  simp only [Snapshots.step, h]

theorem step_advance_none {n : ℕ} {i : AttemptInput Page} (h : s.attempts[n]? = none) :
    s.step k e (.advance n i) = s := by
  simp only [Snapshots.step, h]

/-- After a step of an attempt: what is known where it stands now is known everywhere. -/
theorem keptBy_set {n : ℕ} {i : AttemptInput Page} {clock : Time} {c : Catalog}
    {a' : Attempt Page Place} (hopen : ∀ {clock c phase}, Inv clock c phase → Inv clock c .opening)
    (haccounts : ∀ a ∈ s.attempts, a.accountId = accountId) (hseq : s.Sequential (.advance n i))
    (haccount : a'.accountId = accountId) {phase : AttemptPhase Page Place}
    (hphase : Inv clock c phase) (hlive : a'.finished = false → a'.phase = phase) :
    KeptBy Inv accountId ⟨c, clock, s.attempts.set n a'⟩ := by
  refine ⟨?_, hopen hphase, ?_⟩
  · intro b hb
    rcases hseq.mem_set hb with rfl | ⟨hold, -⟩
    · exact haccount
    · exact haccounts b hold
  · intro b hb hnot
    rcases hseq.mem_set hb with rfl | ⟨-, hover | hopening⟩
    · rw [hlive hnot]
      exact hphase
    · rw [hover] at hnot
      cases hnot
    · rw [hopening]
      exact hopen hphase

/-- A step of the attempts, from what is known before it to what is known after it: the attempt that
steps is idle, or it takes one turn. -/
theorem keptBy_advance {Inv' : Time → Catalog → AttemptPhase Page Place → Prop} {n : ℕ}
    {i : AttemptInput Page} (h : KeptBy Inv accountId s) (hseq : s.Sequential (.advance n i))
    (hopen : ∀ {clock c phase}, Inv' clock c phase → Inv' clock c .opening)
    (hidle : (∀ a, s.attempts[n]? = some a → a.finished = true) → ∀ {clock phase}, s.clock ≤ clock →
      Inv s.clock s.catalog phase → Inv' clock s.catalog phase)
    (hstep : ∀ a, s.attempts[n]? = some a → a.finished = false →
      Attempt.Turn e i (s.clock + i.elapsed) s.catalog accountId a.phase
        (a.step e i (s.clock + i.elapsed) s.catalog).1 (a.step e i (s.clock + i.elapsed) s.catalog).2 →
      Inv' (s.clock + i.elapsed) (a.step e i (s.clock + i.elapsed) s.catalog).2
        (a.step e i (s.clock + i.elapsed) s.catalog).1) :
    KeptBy Inv' accountId (s.step k e (.advance n i)) := by
  cases hattempt : s.attempts[n]? with
  | none =>
    rw [step_advance_none hattempt]
    have hnone : ∀ a, s.attempts[n]? = some a → a.finished = true := by
      intro a ha
      rw [hattempt] at ha
      cases ha
    exact ⟨h.accounts, hidle hnone le_rfl h.opening, fun a ha hlive =>
      hidle hnone le_rfl (h.attempts a ha hlive)⟩
  | some a =>
    rw [step_advance hattempt]
    have hmem : a ∈ s.attempts := List.mem_of_getElem? hattempt
    have haccount := h.accounts a hmem
    cases hover : a.finished with
    | true =>
      have hall : ∀ b, s.attempts[n]? = some b → b.finished = true := by
        intro b hb
        rw [hattempt] at hb
        cases hb
        exact hover
      have hkeeps : (a.next e i (s.clock + i.elapsed) s.catalog).1.accountId = accountId := by
        unfold Attempt.next
        split
        · exact haccount
        · split <;> exact haccount
      rw [Attempt.catalog_next hover]
      refine keptBy_set hopen h.accounts hseq hkeeps
        (hidle hall (Nat.le_add_right _ _) h.opening) fun hlive => ?_
      rw [Attempt.finished_next hover] at hlive
      cases hlive
    | false =>
      have hlive := Attempt.stopped_of_live hover
      have hturn := a.turn e i (s.clock + i.elapsed) s.catalog
      rw [haccount] at hturn
      have hafter := hstep a hattempt hover hturn
      rw [Attempt.next_catalog hlive]
      unfold Attempt.next
      rw [if_neg (Bool.eq_false_iff.mp hlive)]
      split
      · exact keptBy_set hopen h.accounts hseq haccount hafter (by rintro ⟨⟩)
      · exact keptBy_set hopen h.accounts hseq haccount hafter fun _ => rfl

/-- **From one step of an attempt to one event.** -/
theorem keptBy_step
    (hstep : ∀ {i clock phase next c c'}, G (clock + i.elapsed) c i phase →
      Attempt.Turn e i (clock + i.elapsed) c accountId phase next c' → Inv clock c phase →
      Inv (clock + i.elapsed) c' next)
    (hopen : ∀ {clock c phase}, Inv clock c phase → Inv clock c .opening)
    (hclock : ∀ {clock clock' c phase}, clock ≤ clock' → Inv clock c phase → Inv clock' c phase)
    {event : SnapshotEvent Page} (h : KeptBy Inv accountId s) (hseq : s.Sequential event)
    (hmeets : s.Meets G event) : KeptBy Inv accountId (s.step k e event) := by
  cases event with
  | catalog => exact hseq.elim
  | advance n i =>
    refine keptBy_advance h hseq hopen (fun _ => hclock) fun a ha hlive hturn => ?_
    exact hstep (hmeets a ha) hturn (h.attempts a (List.mem_of_getElem? ha) hlive)

/-- **From one step of an attempt to whole histories.** -/
theorem keptBy_runFrom
    (hstep : ∀ {i clock phase next c c'}, G (clock + i.elapsed) c i phase →
      Attempt.Turn e i (clock + i.elapsed) c accountId phase next c' → Inv clock c phase →
      Inv (clock + i.elapsed) c' next)
    (hopen : ∀ {clock c phase}, Inv clock c phase → Inv clock c .opening)
    (hclock : ∀ {clock clock' c phase}, clock ≤ clock' → Inv clock c phase → Inv clock' c phase)
    (h : KeptBy Inv accountId s) {events : List (SnapshotEvent Page)}
    (hseq : Guarded (Snapshots.step k e) Sequential s events)
    (hmeets : Guarded (Snapshots.step k e) (Meets G) s events) :
    KeptBy Inv accountId (runFrom (Snapshots.step k e) s events) := by
  induction events generalizing s with
  | nil => exact h
  | cons event events ih =>
    exact ih (keptBy_step hstep hopen hclock h hseq.1 hmeets.1) hseq.2 hmeets.2

end kept

/-! ### The start of a run -/

/-- In one step, an attempt of the account that found no run to resume inserts the run. -/
structure Opening (k : Contracts) (e : Enumeration Page Place) (accountId runId : Uuid)
    (before after : Snapshots Page Place) : Prop where
  accounts : ∀ a ∈ before.attempts, a.accountId = accountId
  step : ∃ event, before.Sequential event ∧ after = before.step k e event
  idle : interruptedRun e.mode accountId before.catalog.tables = none
  fresh : runId ∉ before.catalog.tables.syncRuns.map SyncRun.syncRunId
  opened : runId ∈ after.catalog.tables.syncRuns.map SyncRun.syncRunId

end Snapshots

/-- Only an insertion adds a run. -/
theorem Attempt.Turn.inserted_of_fresh {Page Place : Type} {e : Enumeration Page Place}
    {i : AttemptInput Page} {now : Time} {c c' : Catalog} {accountId runId : Uuid}
    {phase next : AttemptPhase Page Place} (hmoves : e.MovesRuns)
    (h : Attempt.Turn e i now c accountId phase next c')
    (hfresh : runId ∉ c.tables.syncRuns.map SyncRun.syncRunId)
    (hopened : runId ∈ c'.tables.syncRuns.map SyncRun.syncRunId) :
    insertSyncRun e.mode runId accountId now c = .ok ((), c') ∧
      Attempt.Told (.acquiring runId e.first) next := by
  by_cases hopening : phase = .opening
  · subst hopening
    cases h <;> exact absurd hopened hfresh
  · by_cases hinserting : phase = .inserting
    · subst hinserting
      cases h with
      | inserted _ _ hok hnext =>
        have hsame : i.freshId = runId := by
          rw [write_eq_ok.mp hok] at hopened
          rcases List.mem_append.mp (List.map_append ▸ hopened) with hold | hnew
          · exact absurd hold hfresh
          · exact (List.mem_singleton.mp hnew).symm
        rw [hsame] at hok hnext
        exact ⟨hok, hnext⟩
      | refused => exact absurd hopened hfresh
    · obtain ⟨⟨f, hruns, hf⟩, -⟩ := h.moved hmoves hopening hinserting
      rw [hruns, List.map_map] at hopened
      refine absurd ?_ hfresh
      rwa [show SyncRun.syncRunId ∘ f = SyncRun.syncRunId from funext fun run => (hf run).1]
        at hopened

/-- A run that was just inserted, with none to resume, is the only open one. -/
theorem engaged_inserted {Page Place : Type} {mode : SyncMode} {accountId runId : Uuid} {now : Time}
    {c c' : Catalog} (hidle : interruptedRun mode accountId c.tables = none)
    (h : insertSyncRun mode runId accountId now c = .ok ((), c')) (place : Place) :
    Engaged mode accountId runId c' (.acquiring runId place : AttemptPhase Page Place) := by
  have hruns : c'.tables.syncRuns = c.tables.syncRuns ++ [newSyncRun runId accountId mode now] := by
    rw [write_eq_ok.mp h]
    rfl
  have hnew : newSyncRun runId accountId mode now ∈ c'.tables.syncRuns := by
    rw [hruns]
    exact List.mem_append_right _ List.mem_cons_self
  refine ⟨⟨⟨_, hnew, rfl, rfl, rfl⟩, ?_⟩, .inr (.inr (.inl rfl)), fun _ _ => ?_⟩
  · intro _ run hrun haccount hmode hstatus
    rw [hruns] at hrun
    rcases List.mem_append.mp hrun with hold | hself
    · have hnone := List.filter_eq_nil_iff.mp (firstBy_eq_none hidle) run hold
      simp [haccount, hmode, hstatus] at hnone
    · rw [List.mem_singleton.mp hself]
      rfl
  · exact ⟨_, List.mem_filter.mpr ⟨hnew, decide_eq_true rfl⟩, rfl⟩

namespace Snapshots

/-- What the insertion of a run establishes is known at its start. -/
theorem Opening.keptBy {Page Place : Type} {k : Contracts} {e : Enumeration Page Place}
    {accountId runId : Uuid} {before after : Snapshots Page Place}
    {Inv : Time → Catalog → AttemptPhase Page Place → Prop} (hmoves : e.MovesRuns)
    (hopen : ∀ {clock c phase}, Inv clock c phase → Inv clock c .opening)
    (hbase : ∀ {now c'}, insertSyncRun e.mode runId accountId now before.catalog = .ok ((), c') →
      Inv now c' (.acquiring runId e.first))
    (h : Opening k e accountId runId before after) : KeptBy Inv accountId after := by
  obtain ⟨event, hseq, rfl⟩ := h.step
  cases event with
  | catalog => exact hseq.elim
  | advance n i =>
    have hopened := h.opened
    cases hattempt : before.attempts[n]? with
    | none =>
      rw [step_advance_none hattempt] at hopened
      exact absurd hopened h.fresh
    | some a =>
      rw [step_advance hattempt] at hopened ⊢
      have haccount := h.accounts a (List.mem_of_getElem? hattempt)
      have hlive : a.stopped = false := by
        by_contra hstopped
        rw [Attempt.next, if_pos (Bool.eq_true_of_not_eq_false hstopped)] at hopened
        exact absurd hopened h.fresh
      have hturn := a.turn e i (before.clock + i.elapsed) before.catalog
      rw [Attempt.next_catalog hlive] at hopened ⊢
      rw [haccount] at hturn
      obtain ⟨hok, htold⟩ := hturn.inserted_of_fresh hmoves h.fresh hopened
      have hinv := hbase hok
      unfold Attempt.next
      rw [if_neg (Bool.eq_false_iff.mp hlive)]
      split
      · exact keptBy_set hopen h.accounts hseq haccount hinv (by rintro ⟨⟩)
      · refine keptBy_set hopen h.accounts hseq haccount hinv fun hnot => ?_
        rcases htold with hphase | hended
        · exact hphase
        · dsimp only at hnot
          rw [hended, Attempt.finished, hlive] at hnot
          cases hnot

end Snapshots

end GithubCatalog
