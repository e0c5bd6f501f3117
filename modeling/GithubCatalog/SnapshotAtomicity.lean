import GithubCatalog.SnapshotAttempts

/-!
# Snapshots change authority all at once or not at all

Until its swap commits, an attempt of either enumeration only catalogues repositories, names them,
stages pages and moves its own run row.  The swap is one transaction, and nothing is written after it.

* `Untouched` - no authority table, no catalogued repository and no completed run has changed;
* `Enumeration.Lawful` - what the two enumerations share: staging a page keeps the status of runs, the
  swap completes its run and clears its staging;
* `Attempt.Pending`, `Attempt.Swapped` - before and after the swap; `pending_or_swapped` - whole
  attempts.
-/

namespace GithubCatalog

open Relational Runs Transact

/-! ### Untouched authority -/

/-- The tables that carry star and list authority. -/
def authorityTables : List Table :=
  [.currentStarState, .starObservations, .reconciliationRepairs, .starWatermarks, .starLists,
    .starListMemberships, .starListMembershipObservations]

/-- Every authority table is as it was, every repository that was catalogued is catalogued as it was,
and no run was completed. -/
structure Untouched (db db' : Database) : Prop where
  authority : ∀ t ∈ authorityTables, db'.rows t = db.rows t
  repositories : ∀ r ∈ db.repositories, r ∈ db'.repositories
  completed : ∀ run ∈ db'.syncRuns, run.status = .completed → run ∈ db.syncRuns

instance : Std.Refl Untouched := ⟨fun _ => ⟨fun _ _ => rfl, fun _ hr => hr, fun _ hrun _ => hrun⟩⟩

instance : IsTrans Database Untouched :=
  ⟨fun _ _ _ h h' => ⟨fun t ht => (h'.authority t ht).trans (h.authority t ht),
    fun r hr => h'.repositories r (h.repositories r hr),
    fun run hrun hdone => h.completed run (h'.completed run hrun hdone) hdone⟩⟩

/-- The run is not completed. -/
def RunOpen (runId : Uuid) (db : Database) : Prop :=
  ∀ run ∈ db.syncRuns, run.syncRunId = runId → run.status ≠ .completed

theorem Untouched.runOpen {db db' : Database} (h : Untouched db db') {runId : Uuid}
    (hopen : RunOpen runId db) : RunOpen runId db' := by
  intro run hrun hid hdone
  exact hopen run (h.completed run hrun hdone) hid hdone

/-- A frame that avoids authority, repositories and runs. -/
theorem untouched_of_agreeOff {ts : List Table} {db db' : Database} (h : AgreeOff ts db db')
    (ht : ∀ t ∈ .repositories :: .syncRuns :: authorityTables, t ∉ ts) : Untouched db db' where
  authority t hmem := h t (ht t (List.mem_cons_of_mem _ (List.mem_cons_of_mem _ hmem)))
  repositories r hr := by
    have hsame : db'.repositories = db.repositories := h .repositories (ht _ List.mem_cons_self)
    rw [hsame]
    exact hr
  completed run hrun _ := by
    have hsame : db'.syncRuns = db.syncRuns :=
      h .syncRuns (ht _ (List.mem_cons_of_mem _ List.mem_cons_self))
    rw [hsame] at hrun
    exact hrun

/-- A change of runs that completes none. -/
theorem untouched_of_runs {ts : List Table} {db db' : Database} (h : AgreeOff ts db db')
    (ht : ∀ t ∈ .repositories :: authorityTables, t ∉ ts)
    (hruns : ∀ run ∈ db'.syncRuns, run.status = .completed → run ∈ db.syncRuns) :
    Untouched db db' where
  authority t hmem := h t (ht t (List.mem_cons_of_mem _ hmem))
  repositories r hr := by
    have hsame : db'.repositories = db.repositories := h .repositories (ht _ List.mem_cons_self)
    rw [hsame]
    exact hr
  completed := hruns

section transactions

theorem relates_untouched_insertSyncRun (mode : SyncMode) (runId accountId : Uuid) (now : Time) :
    Tx.Relates Untouched (insertSyncRun mode runId accountId now) := by
  intro c u c' h
  refine untouched_of_runs (touches_insertSyncRun mode runId accountId now c u c' h) (by decide) ?_
  intro run hrun hdone
  rw [write_eq_ok.mp h] at hrun
  rcases List.mem_append.mp hrun with hold | hnew
  · exact hold
  · rw [List.mem_singleton.mp hnew] at hdone
    cases hdone

theorem relates_untouched_failRun (now : Time) (runId : Uuid) (reason : String) :
    Tx.Relates Untouched (failRun now runId reason) := by
  intro c u c' h
  refine untouched_of_runs (touches_failRun now runId reason c u c' h) (by decide) ?_
  obtain ⟨u₁, c₁, h₁, hrest⟩ := Tx.bind_eq_ok.mp h
  have hclear : Touches [.snapshotItems, .listSnapshotItems] (do
      write .snapshotItems fun db =>
        deleteWhere (fun i => decide (i.syncRunId = runId)) db.snapshotItems
      write .listSnapshotItems fun db =>
        deleteWhere (fun i => decide (i.syncRunId = runId)) db.listSnapshotItems) :=
    (Touches.write (by decide) _).bind fun _ => Touches.write (by decide) _
  have hsame : c'.tables.syncRuns = c₁.tables.syncRuns :=
    hclear.rows_eq hrest (t := .syncRuns) (by decide)
  intro run hrun hdone
  rw [hsame, write_eq_ok.mp h₁] at hrun
  obtain ⟨old, hold, rfl⟩ := mem_updateWhere.mp hrun
  split at hdone
  · cases hdone
  · next hother =>
    rw [if_neg hother]
    exact hold

theorem relates_untouched_upsertRepository (fresh : Uuid) (pid : ℤ) :
    Tx.Relates Untouched (upsertRepositoryInTx fresh pid) := by
  refine Tx.Relates.bind (relates_write ?_) fun _ => relates_fetchOne _
  intro db _
  refine ⟨fun t ht => Database.rows_put_of_ne db _ ?_, ?_, fun run hrun _ => hrun⟩
  · rintro rfl
    exact absurd ht (by decide)
  · intro r hr
    show r ∈ insertUnless _ _ db.repositories
    rw [insertUnless]
    split
    · exact hr
    · exact List.mem_append_left _ hr

theorem relates_untouched_applyAliasObservation (ids : ℕ → Uuid) (now : Time) (pid : ℤ)
    (kind : AliasKind) (old : Option String) (value : String) :
    Tx.Relates Untouched (applyAliasObservation ids now pid kind old value) := by
  refine relates_applyAliasObservation ids now pid kind old value
    (relates_untouched_upsertRepository _ _) ?_
  intro α x hx
  exact Tx.Relates.mono hx fun _ _ hagree => untouched_of_agreeOff hagree (by decide)

end transactions

/-- `fail_run` leaves no staging row. -/
theorem failRun_clears {now : Time} {runId : Uuid} {reason : String} {c c' : Catalog} {u : Unit}
    (h : failRun now runId reason c = .ok (u, c')) :
    (∀ i ∈ c'.tables.snapshotItems, i.syncRunId ≠ runId) ∧
      ∀ i ∈ c'.tables.listSnapshotItems, i.syncRunId ≠ runId := by
  obtain ⟨u₁, c₁, h₁, hrest⟩ := Tx.bind_eq_ok.mp h
  obtain ⟨u₂, c₂, h₂, h₃⟩ := Tx.bind_eq_ok.mp hrest
  rw [write_eq_ok.mp h₃, write_eq_ok.mp h₂]
  constructor
  · intro i hi hid
    have hkept := (mem_deleteWhere.mp hi).2
    rw [decide_eq_true hid] at hkept
    cases hkept
  · intro i hi hid
    have hkept := (mem_deleteWhere.mp hi).2
    rw [decide_eq_true hid] at hkept
    cases hkept

/-! ### What the two enumerations share -/

/-- Staging a page writes staging, checkpoints and the counters of its run; the swap completes its run
and clears its staging. -/
structure Enumeration.Lawful {Page Place : Type} (e : Enumeration Page Place) : Prop where
  record_frame : ∀ id now runId place page,
    Touches [.snapshotItems, .listSnapshotItems, .syncCheckpoints, .syncRuns]
      (e.record id now runId place page)
  record_runs : ∀ {id now runId place page} {c c' : Catalog},
    e.record id now runId place page c = .ok ((), c') →
      ∃ f : SyncRun → SyncRun, (∀ run, (f run).status = run.status) ∧
        c'.tables.syncRuns =
          updateWhere (fun run => decide (run.syncRunId = runId)) f c.tables.syncRuns
  apply_completes : ∀ {ids now runId accountId} {c c' : Catalog} {summary},
    e.apply ids now runId accountId c = .ok (summary, c') →
      (∃ run ∈ c'.tables.syncRuns, run.syncRunId = runId ∧ run.status = .completed) ∧
        e.staged runId c'.tables = false
  fail_clears : ∀ {now runId reason} {c c' : Catalog},
    failRun now runId reason c = .ok ((), c') → e.staged runId c'.tables = false

/-- Staging a page of an open run completes no run. -/
theorem Enumeration.Lawful.untouched_record {Page Place : Type} {e : Enumeration Page Place}
    (hlaw : e.Lawful) {id : Uuid} {now : Time} {runId : Uuid} {place : Place} {page : Page}
    {c c' : Catalog} (hopen : RunOpen runId c.tables)
    (h : e.record id now runId place page c = .ok ((), c')) : Untouched c.tables c'.tables := by
  refine untouched_of_runs (hlaw.record_frame id now runId place page c () c' h) (by decide) ?_
  obtain ⟨f, hf, hruns⟩ := hlaw.record_runs h
  intro run hrun hdone
  rw [hruns] at hrun
  obtain ⟨old, hold, rfl⟩ := mem_updateWhere.mp hrun
  split at hdone
  · next hid =>
    rw [hf] at hdone
    exact absurd hdone (hopen old hold (of_decide_eq_true hid))
  · next hother =>
    rw [if_neg hother]
    exact hold

/-- The run row after the statement that completes it. -/
theorem exists_completed {runId : Uuid} {f : SyncRun → SyncRun} {c c' : Catalog}
    {α : Type} {g : Database → Option α} {b : α}
    (h : (updateSyncRun runId f >>= fun _ => fetchOne g) c = .ok (b, c'))
    (hf : ∀ run, (f run).status = .completed)
    (hg : ∀ db, (g db).isSome = true → ∃ run ∈ db.syncRuns, run.syncRunId = runId) :
    ∃ run ∈ c'.tables.syncRuns, run.syncRunId = runId ∧ run.status = .completed := by
  obtain ⟨u, c₁, hwrite, hfetch⟩ := Tx.bind_eq_ok.mp h
  obtain ⟨hread, rfl⟩ := fetchOne_eq_ok.mp hfetch
  obtain ⟨run, hrun, hid⟩ := hg c₁.tables (by rw [hread]; rfl)
  refine ⟨run, hrun, hid, ?_⟩
  rw [write_eq_ok.mp hwrite] at hrun
  obtain ⟨old, -, rfl⟩ := mem_updateWhere.mp hrun
  split at hid
  · next hsame =>
    rw [if_pos hsame]
    exact hf old
  · next hother => exact absurd (decide_eq_true hid) hother

theorem exists_of_find? {runId : Uuid} {α : Type} {f : SyncRun → α} (db : Database)
    (h : ((db.syncRuns.find? fun r => decide (r.syncRunId = runId)).map f).isSome = true) :
    ∃ run ∈ db.syncRuns, run.syncRunId = runId := by
  rw [Option.isSome_map] at h
  obtain ⟨run, hfind⟩ := Option.isSome_iff_exists.mp h
  have hid := List.find?_some hfind
  exact ⟨run, List.mem_of_find?_eq_some hfind, of_decide_eq_true hid⟩

theorem any_deleteWhere_self {α : Type} (p : α → Bool) (t : List α) :
    (deleteWhere p t).any p = false := by
  rw [List.any_eq_false]
  intro a ha hp
  have hkept := (mem_deleteWhere.mp ha).2
  rw [hp] at hkept
  cases hkept

theorem starEnumeration_lawful (k : Contracts) : (starEnumeration k).Lawful where
  record_frame id now runId page items :=
    (touches_recordPage k id now runId page items).mono (by decide)
  record_runs {id now runId page items c c'} h := by
    refine ⟨fun r => { r with
      pagesProcessed := r.pagesProcessed + 1
      itemsObserved := r.itemsObserved + clampInteger items.length }, fun _ => rfl, ?_⟩
    rw [(recordPage_spec h).2]
  apply_completes {ids now runId account c c' summary} h := by
    obtain ⟨counts, c₀, hswap, hpure⟩ := Tx.bind_eq_ok.mp h
    obtain ⟨-, rfl⟩ := Tx.pure_eq_ok.mp hpure
    obtain ⟨additions, c₁, -, h⟩ := Tx.bind_eq_ok.mp hswap
    obtain ⟨u₂, c₂, -, h⟩ := Tx.bind_eq_ok.mp h
    obtain ⟨u₃, c₃, -, h⟩ := Tx.bind_eq_ok.mp h
    obtain ⟨u₄, c₄, -, h⟩ := Tx.bind_eq_ok.mp h
    obtain ⟨unstars, c₅, -, h⟩ := Tx.bind_eq_ok.mp h
    obtain ⟨u₆, c₆, -, h⟩ := Tx.bind_eq_ok.mp h
    obtain ⟨u₇, c₇, hclear, h⟩ := Tx.bind_eq_ok.mp h
    obtain ⟨row, c₈, hcomplete, hpure⟩ := Tx.bind_eq_ok.mp h
    obtain ⟨-, rfl⟩ := Tx.pure_eq_ok.mp hpure
    refine ⟨exists_completed hcomplete (fun _ => rfl) exists_of_find?, ?_⟩
    have hsame : c₈.tables.snapshotItems = c₇.tables.snapshotItems :=
      (touches_completeRunRow _ _ _ _).rows_eq hcomplete (t := .snapshotItems) (by decide)
    show (c₈.tables.snapshotItems.any fun i => decide (i.syncRunId = runId)) = false
    rw [hsame, write_eq_ok.mp hclear]
    exact any_deleteWhere_self _ _
  fail_clears {now runId reason c c'} h := by
    show (c'.tables.snapshotItems.any fun i => decide (i.syncRunId = runId)) = false
    rw [List.any_eq_false]
    intro i hi hid
    exact (failRun_clears h).1 i hi (of_decide_eq_true hid)

theorem listEnumeration_lawful : listEnumeration.Lawful where
  record_frame id now runId _ page :=
    (touches_recordListPage id now runId page).mono (by decide)
  record_runs {id now runId place page c c'} h := by
    obtain ⟨base, c₁, hread, hrest⟩ := Tx.bind_eq_ok.mp h
    obtain ⟨-, rfl⟩ := select_eq_ok.mp hread
    obtain ⟨u₂, c₂, h₂, hrest⟩ := Tx.bind_eq_ok.mp hrest
    obtain ⟨u₃, c₃, h₃, h₄⟩ := Tx.bind_eq_ok.mp hrest
    refine ⟨fun r => { r with
      pagesProcessed := r.pagesProcessed + 1
      itemsObserved := r.itemsObserved + clampInteger (page.lists.map (·.items.length)).sum
      listsObserved := r.listsObserved +
        clampInteger (page.lists.map (·.providerListId)).dedup.length }, fun _ => rfl, ?_⟩
    rw [write_eq_ok.mp h₄, write_eq_ok.mp h₃, write_eq_ok.mp h₂]
    rfl
  apply_completes {ids now runId account c c' summary} h := by
    obtain ⟨counts, c₀, hswap, hpure⟩ := Tx.bind_eq_ok.mp h
    obtain ⟨-, rfl⟩ := Tx.pure_eq_ok.mp hpure
    obtain ⟨u₁, c₁, -, h⟩ := Tx.bind_eq_ok.mp hswap
    obtain ⟨additions, c₂, -, h⟩ := Tx.bind_eq_ok.mp h
    obtain ⟨u₃, c₃, -, h⟩ := Tx.bind_eq_ok.mp h
    obtain ⟨u₄, c₄, -, h⟩ := Tx.bind_eq_ok.mp h
    obtain ⟨removals, c₅, -, h⟩ := Tx.bind_eq_ok.mp h
    obtain ⟨u₆, c₆, -, h⟩ := Tx.bind_eq_ok.mp h
    obtain ⟨u₇, c₇, hclear, h⟩ := Tx.bind_eq_ok.mp h
    obtain ⟨row, c₈, hcomplete, hpure⟩ := Tx.bind_eq_ok.mp h
    obtain ⟨-, rfl⟩ := Tx.pure_eq_ok.mp hpure
    refine ⟨exists_completed hcomplete (fun _ => rfl) exists_of_find?, ?_⟩
    have hsame : c₈.tables.listSnapshotItems = c₇.tables.listSnapshotItems :=
      (touches_completeListRunRow _ _ _ _).rows_eq hcomplete (t := .listSnapshotItems) (by decide)
    show (c₈.tables.listSnapshotItems.any fun i => decide (i.syncRunId = runId)) = false
    rw [hsame, write_eq_ok.mp hclear]
    exact any_deleteWhere_self _ _
  fail_clears {now runId reason c c'} h := by
    show (c'.tables.listSnapshotItems.any fun i => decide (i.syncRunId = runId)) = false
    rw [List.any_eq_false]
    intro i hi hid
    exact (failRun_clears h).2 i hi (of_decide_eq_true hid)

/-! ### One attempt -/

/-- An interrupted run is running. -/
theorem interruptedRun_spec {mode : SyncMode} {accountId : Uuid} {db : Database} {run : SyncRun}
    (h : interruptedRun mode accountId db = some run) :
    run ∈ db.syncRuns ∧ run.accountId = accountId ∧ run.mode = mode ∧ run.status = .running := by
  obtain ⟨hmem, hrun⟩ := List.mem_filter.mp (firstBy_mem h)
  simp only [Bool.and_eq_true, decide_eq_true_eq] at hrun
  exact ⟨hmem, hrun.1.1, hrun.1.2, hrun.2⟩

theorem interruptedRun_open {mode : SyncMode} {accountId : Uuid} {c : Catalog} {run : SyncRun}
    (h : interruptedRun mode accountId c.tables = some run) : RunOpen run.syncRunId c.tables := by
  obtain ⟨hmem, -, -, hstatus⟩ := interruptedRun_spec h
  intro other hother hid hdone
  rw [c.valid.keys.runs.eq_of_mem hother hmem hid, hstatus] at hdone
  cases hdone

theorem insertSyncRun_open {mode : SyncMode} {runId accountId : Uuid} {now : Time} {c c' : Catalog}
    {u : Unit} (h : insertSyncRun mode runId accountId now c = .ok (u, c')) :
    RunOpen runId c'.tables := by
  have hnew : newSyncRun runId accountId mode now ∈ c'.tables.syncRuns := by
    rw [write_eq_ok.mp h]
    exact List.mem_append_right _ List.mem_cons_self
  intro run hrun hid hdone
  rw [c'.valid.keys.runs.eq_of_mem hrun hnew hid] at hdone
  cases hdone

namespace Attempt

variable {Page Place : Type} {e : Enumeration Page Place} {i : AttemptInput Page} {now : Time}
  {c c' : Catalog} {accountId : Uuid} {phase next : AttemptPhase Page Place}

/-- A step of an attempt on an open run leaves authority untouched, or is the swap. -/
theorem Turn.untouched (hlaw : e.Lawful) (h : Turn e i now c accountId phase next c')
    (hopen : ∀ runId, phase.runId? = some runId → RunOpen runId c.tables) :
    Untouched c.tables c'.tables ∨ ∃ runId summary, phase = .applying runId ∧
      e.apply i.ids now runId accountId c = .ok (summary, c') ∧
        Told (afterApply e runId summary) next := by
  cases h with
  | inserted _ _ hok => exact .inl (relates_untouched_insertSyncRun _ _ _ _ c () c' hok)
  | failed _ _ _ _ hok => exact .inl (relates_untouched_failRun _ _ _ c () c' hok)
  | catalogued _ _ _ _ _ id _ _ hok =>
    exact .inl (relates_untouched_upsertRepository _ _ c id c' hok)
  | named _ _ _ _ _ _ id _ _ hok =>
    exact .inl (relates_untouched_applyAliasObservation _ _ _ _ _ _ c id c' hok)
  | recorded runId _ _ _ _ hok => exact .inl (hlaw.untouched_record (hopen runId rfl) hok)
  | applied runId summary _ _ hok hnext => exact .inr ⟨runId, summary, rfl, hok, hnext⟩
  | _ => exact .inl (Std.Refl.refl _)

end Attempt

/-- The attempt has read a summary of its swap. -/
def AttemptPhase.summarised {Page Place : Type} : AttemptPhase Page Place → Bool
  | reading _ _ | ended (.ok (.completed ..)) => true
  | _ => false

namespace Attempt

variable {Page Place : Type} {e : Enumeration Page Place} {i : AttemptInput Page} {now : Time}
  {c c' : Catalog} {accountId : Uuid} {phase next : AttemptPhase Page Place}

/-- The runs an attempt comes to work for are open. -/
theorem Turn.runOpen (hlaw : e.Lawful) (h : Turn e i now c accountId phase next c')
    (hopen : ∀ runId, phase.runId? = some runId → RunOpen runId c.tables)
    (hphase : ∀ runId, phase ≠ .applying runId) (hsum : phase.summarised = false) :
    next.summarised = false ∧ ∀ runId, next.runId? = some runId → RunOpen runId c'.tables := by
  have hkept : Untouched c.tables c'.tables := by
    rcases h.untouched hlaw hopen with hkept | ⟨runId, summary, happly, -⟩
    · exact hkept
    · exact absurd happly (hphase runId)
  have hstays : ∀ target : AttemptPhase Page Place, Told target next →
      target.summarised = false → (∀ runId, target.runId? = some runId → RunOpen runId c'.tables) →
      next.summarised = false ∧ ∀ runId, next.runId? = some runId → RunOpen runId c'.tables := by
    rintro target (rfl | rfl) htarget hruns
    · exact ⟨htarget, hruns⟩
    · exact ⟨rfl, by rintro _ ⟨⟩⟩
  have hsame : ∀ r, phase.runId? = some r → RunOpen r c'.tables := fun r hr =>
    hkept.runOpen (hopen r hr)
  cases h with
  | found run _ hread hnext =>
    exact hstays _ hnext rfl (by rintro _ ⟨⟩; exact interruptedRun_open hread)
  | unfound _ _ hnext => exact hstays _ hnext rfl (by rintro _ ⟨⟩)
  | resumed runId _ hnext => exact hstays _ hnext rfl (by rintro _ ⟨⟩; exact hsame _ rfl)
  | inserted _ _ hok hnext =>
    exact hstays _ hnext rfl (by rintro _ ⟨⟩; exact insertSyncRun_open hok)
  | acquired runId place => exact ⟨rfl, by rintro _ ⟨⟩; exact hsame _ rfl⟩
  | paused runId place => exact ⟨rfl, by rintro _ ⟨⟩; exact hsame _ rfl⟩
  | fetched runId place =>
    unfold afterFetch
    split
    · exact ⟨rfl, by rintro _ ⟨⟩; exact hsame _ rfl⟩
    · split
      · exact ⟨rfl, by rintro _ ⟨⟩; exact hsame _ rfl⟩
      · exact ⟨rfl, by rintro _ ⟨⟩; exact hsame _ rfl⟩
  | failed runId _ _ _ _ hnext => exact hstays _ hnext rfl (by rintro _ ⟨⟩; exact hsame _ rfl)
  | identified runId place page => exact ⟨rfl, by rintro _ ⟨⟩; exact hsame _ rfl⟩
  | catalogued runId place page entry todo _ _ _ _ hnext =>
    refine hstays _ hnext ?_ ?_
    · unfold afterUpsert
      split <;> rfl
    · unfold afterUpsert
      split
      · rintro _ ⟨⟩; exact hsame _ rfl
      · rintro _ ⟨⟩; exact hsame _ rfl
  | named runId _ _ _ _ _ _ _ _ _ hnext =>
    exact hstays _ hnext rfl (by rintro _ ⟨⟩; exact hsame _ rfl)
  | recorded runId place page _ _ _ hnext =>
    refine hstays _ hnext ?_ ?_
    · unfold afterRecord
      split <;> rfl
    · unfold afterRecord
      split
      · rintro _ ⟨⟩; exact hsame _ rfl
      · rintro _ ⟨⟩; exact hsame _ rfl
  | applied runId => exact absurd rfl (hphase runId)
  | readBack => cases hsum
  | refused => exact ⟨rfl, by rintro _ ⟨⟩⟩
  | done result => exact ⟨hsum, hsame⟩

/-- An attempt ends failed by `fail_run`. -/
theorem Turn.failed_clears (hlaw : e.Lawful) (h : Turn e i now c accountId phase next c')
    {runId : Uuid} (hend : next = .ended (.ok (.failed runId))) :
    (phase = .ended (.ok (.failed runId)) ∧ c' = c) ∨ e.staged runId c'.tables = false := by
  have htold : ∀ target : AttemptPhase Page Place, Told target next →
      target = .ended (.ok (.failed runId)) := by
    rintro target (heq | heq)
    · rw [← heq, hend]
    · rw [hend] at heq
      cases heq
  cases h with
  | failed _ _ _ _ hok hnext =>
    cases htold _ hnext
    exact .inr (hlaw.fail_clears hok)
  | done => exact .inl ⟨hend, rfl⟩
  | fetched =>
    unfold afterFetch at hend
    split at hend
    · cases hend
    · split at hend
      · cases hend
      · cases hend
  | catalogued _ _ _ entry _ _ _ _ _ hnext =>
    have heq := htold _ hnext
    unfold afterUpsert at heq
    split at heq
    · cases heq
    · cases heq
  | recorded _ _ _ _ _ _ hnext =>
    have heq := htold _ hnext
    unfold afterRecord at heq
    split at heq
    · cases heq
    · cases heq
  | applied _ _ _ _ _ hnext =>
    have heq := htold _ hnext
    unfold afterApply at heq
    split at heq
    · cases heq
    · cases heq
  | found _ _ _ hnext => cases htold _ hnext
  | unfound _ _ hnext => cases htold _ hnext
  | resumed _ _ hnext => cases htold _ hnext
  | inserted _ _ _ hnext => cases htold _ hnext
  | named _ _ _ _ _ _ _ _ _ _ hnext => cases htold _ hnext
  | readBack _ _ _ _ hnext => cases htold _ hnext
  | _ => cases hend

/-! ### Before and after the swap -/

/-- No swap has run. -/
structure Pending (e : Enumeration Page Place) (before c : Catalog) (a : Attempt Page Place) :
    Prop where
  untouched : Untouched before.tables c.tables
  runOpen : ∀ runId, a.phase.runId? = some runId → RunOpen runId c.tables
  unsummarised : a.phase.summarised = false
  cleared : ∀ runId, a.phase = .ended (.ok (.failed runId)) → e.staged runId c.tables = false

/-- The store is the committed swap of a run, from a state with untouched authority. -/
def SwapRan (e : Enumeration Page Place) (before : Catalog) (accountId : Uuid) (c : Catalog) : Prop :=
  ∃ (c₁ : Catalog) (ids : ℕ → ℕ → Uuid) (now : Time) (runId : Uuid) (summary : Summary),
    Untouched before.tables c₁.tables ∧ e.apply ids now runId accountId c₁ = .ok (summary, c)

/-- The swap has run, and the attempt writes no more. -/
structure Swapped (e : Enumeration Page Place) (before c : Catalog) (a : Attempt Page Place) :
    Prop where
  swap : SwapRan e before a.accountId c
  settled : (a.stopped = true ∧ ∃ runId, a.phase = .applying runId) ∨
    (∃ runId summary, a.phase = .reading runId summary) ∨
    (∃ err, a.phase = .ended (.error err)) ∨
    ∃ runId summary n, a.phase = .ended (.ok (.completed runId summary n))

variable {before : Catalog} {a : Attempt Page Place}

/-- A fresh attempt. -/
theorem pending_opening (accountId : Uuid) :
    Pending e before before ⟨accountId, .opening, false⟩ :=
  ⟨Std.Refl.refl _, by rintro _ ⟨⟩, rfl, by rintro _ ⟨⟩⟩

/-- Where an attempt stands right after its swap. -/
theorem settled_of_told {runId : Uuid} {summary : Summary}
    (h : Told (afterApply e runId summary) phase) :
    (∃ runId summary, phase = .reading runId summary) ∨ (∃ err, phase = .ended (.error err)) ∨
      ∃ runId summary n, phase = .ended (.ok (.completed runId summary n)) := by
  rcases h with rfl | rfl
  · unfold afterApply
    split
    · exact .inl ⟨_, _, rfl⟩
    · exact .inr (.inr ⟨_, _, _, rfl⟩)
  · exact .inr (.inl ⟨_, rfl⟩)

/-- A step in the phase of the swap: it runs, or the attempt ends with an error. -/
theorem Turn.applying_cases {runId : Uuid} (h : Turn e i now c accountId (.applying runId) next c') :
    (∃ summary, e.apply i.ids now runId accountId c = .ok (summary, c') ∧
      Told (afterApply e runId summary) next) ∨ (∃ err, next = .ended (.error err)) ∧ c' = c := by
  cases h with
  | applied _ summary _ _ happly hnext => exact .inl ⟨summary, happly, hnext⟩
  | refused _ err => exact .inr ⟨⟨err, rfl⟩, rfl⟩

/-- **One step before the swap.** -/
theorem Pending.advance (hlaw : e.Lawful) (h : Pending e before c a) :
    Pending e before (a.next e i now c).2 (a.next e i now c).1 ∨
      Swapped e before (a.next e i now c).2 (a.next e i now c).1 := by
  have hturn := a.turn e i now c
  unfold Attempt.next
  split
  · exact .inl h
  by_cases happlying : ∃ runId, a.phase = .applying runId
  · obtain ⟨runId, hphase⟩ := happlying
    rw [hphase] at hturn
    rcases hturn.applying_cases with ⟨summary, happly, htold⟩ | ⟨⟨err, hend⟩, hsame⟩
    · have hswap : SwapRan e before a.accountId (a.step e i now c).2 :=
        ⟨c, i.ids, now, runId, summary, h.untouched, happly⟩
      split
      · exact .inr ⟨hswap, .inl ⟨rfl, runId, hphase⟩⟩
      · exact .inr ⟨hswap, .inr (settled_of_told htold)⟩
    · rw [hsame]
      split
      · exact .inl ⟨h.untouched, h.runOpen, h.unsummarised, h.cleared⟩
      · rw [hend]
        exact .inl ⟨h.untouched, by rintro _ ⟨⟩, rfl, by rintro _ ⟨⟩⟩
  · rw [not_exists] at happlying
    have hkept : Untouched c.tables (a.step e i now c).2.tables := by
      rcases hturn.untouched hlaw h.runOpen with hkept | ⟨runId, summary, hphase, -⟩
      · exact hkept
      · exact absurd hphase (happlying runId)
    have huntouched : Untouched before.tables (a.step e i now c).2.tables :=
      IsTrans.trans _ _ _ h.untouched hkept
    split
    · refine .inl ⟨huntouched, fun r hr => hkept.runOpen (h.runOpen r hr), h.unsummarised, ?_⟩
      intro runId hfailed
      have hstep : a.step e i now c = (.ended (.ok (.failed runId)), c) := by
        rw [step, hfailed]
      rw [hstep]
      exact h.cleared runId hfailed
    · obtain ⟨hsum, hopen⟩ := hturn.runOpen hlaw h.runOpen happlying h.unsummarised
      refine .inl ⟨huntouched, hopen, hsum, ?_⟩
      intro runId hfailed
      rcases hturn.failed_clears hlaw hfailed with ⟨hbefore, hsame⟩ | hclear
      · show e.staged runId (a.step e i now c).2.tables = false
        rw [hsame]
        exact h.cleared runId hbefore
      · exact hclear

/-- **One step after the swap.**  The attempt reads its counter back, or takes no step. -/
theorem Swapped.advance (h : Swapped e before c a) :
    Swapped e before (a.next e i now c).2 (a.next e i now c).1 := by
  obtain ⟨hswap, hsettled⟩ := h
  have hturn := a.turn e i now c
  unfold Attempt.next
  split
  · exact ⟨hswap, hsettled⟩
  · next hlive =>
    obtain ⟨next, hnext⟩ : ∃ next, (a.step e i now c).1 = next := ⟨_, rfl⟩
    obtain ⟨c₁, hc₁⟩ : ∃ c₁, (a.step e i now c).2 = c₁ := ⟨_, rfl⟩
    rw [hnext, hc₁] at hturn
    rw [hnext, hc₁]
    have hstore : c₁ = c ∧ ((∃ runId summary, next = .reading runId summary) ∨
        (∃ err, next = .ended (.error err)) ∨
        ∃ runId summary n, next = .ended (.ok (.completed runId summary n))) := by
      rcases hsettled with ⟨hstopped, -⟩ | ⟨runId, summary, hphase⟩ | ⟨err, hphase⟩ |
        ⟨runId, summary, n, hphase⟩
      · exact absurd hstopped hlive
      · rw [hphase] at hturn
        cases hturn with
        | readBack _ _ n _ htold =>
          rcases htold with rfl | rfl
          · exact ⟨rfl, .inr (.inr ⟨_, _, _, rfl⟩)⟩
          · exact ⟨rfl, .inr (.inl ⟨_, rfl⟩)⟩
        | refused _ err => exact ⟨rfl, .inr (.inl ⟨_, rfl⟩)⟩
      · rw [hphase] at hturn
        cases hturn with
        | done => exact ⟨rfl, .inr (.inl ⟨_, rfl⟩)⟩
        | refused => exact ⟨rfl, .inr (.inl ⟨_, rfl⟩)⟩
      · rw [hphase] at hturn
        cases hturn with
        | done => exact ⟨rfl, .inr (.inr ⟨_, _, _, rfl⟩)⟩
        | refused => exact ⟨rfl, .inr (.inl ⟨_, rfl⟩)⟩
    rw [hstore.1]
    split
    · refine ⟨hswap, .inr ?_⟩
      rcases hsettled with ⟨hstopped, -⟩ | hphase
      · exact absurd hstopped hlive
      · exact hphase
    · exact ⟨hswap, .inr hstore.2⟩

end Attempt

/-! ### Whole attempts -/

section attempts

variable {Page Place : Type} {e : Enumeration Page Place}

/-- One attempt alone: the steps of the inputs, one after the other. -/
def Attempt.run (e : Enumeration Page Place) (start : Attempt Page Place × Catalog × Time)
    (inputs : List (AttemptInput Page)) : Attempt Page Place × Catalog × Time :=
  runFrom (fun (s : Attempt Page Place × Catalog × Time) i =>
    ((s.1.next e i (s.2.2 + i.elapsed) s.2.1).1, (s.1.next e i (s.2.2 + i.elapsed) s.2.1).2,
      s.2.2 + i.elapsed)) start inputs

theorem Attempt.pending_or_swapped_run (hlaw : e.Lawful) {before : Catalog}
    (inputs : List (AttemptInput Page)) (start : Attempt Page Place × Catalog × Time)
    (h : Pending e before start.2.1 start.1 ∨ Swapped e before start.2.1 start.1) :
    Pending e before (Attempt.run e start inputs).2.1 (Attempt.run e start inputs).1 ∨
      Swapped e before (Attempt.run e start inputs).2.1 (Attempt.run e start inputs).1 := by
  refine invariant_runFrom (P := fun s : Attempt Page Place × Catalog × Time =>
    Pending e before s.2.1 s.1 ∨ Swapped e before s.2.1 s.1) ?_ h inputs
  rintro s i (hpending | hswapped)
  · exact hpending.advance hlaw
  · exact .inr hswapped.advance

/-- What an attempt, ended, crashed or still going, has done to the catalog. -/
structure AllOrNothing (e : Enumeration Page Place) (before c : Catalog) (a : Attempt Page Place) :
    Prop where
  /-- Authority is as it was and no run was completed, or it is the whole swap of a run that is
  completed and has no staging. -/
  authority : Untouched before.tables c.tables ∨
    ∃ (c₁ : Catalog) (ids : ℕ → ℕ → Uuid) (now : Time) (runId : Uuid) (summary : Summary),
      Untouched before.tables c₁.tables ∧
      e.apply ids now runId a.accountId c₁ = .ok (summary, c) ∧
      (∃ run ∈ c.tables.syncRuns, run.syncRunId = runId ∧ run.status = .completed) ∧
      e.staged runId c.tables = false
  paused : ∀ runId, a.phase = .ended (.ok (.paused runId)) → Untouched before.tables c.tables
  failed : ∀ runId, a.phase = .ended (.ok (.failed runId)) →
    Untouched before.tables c.tables ∧ e.staged runId c.tables = false

theorem allOrNothing_of {before c : Catalog} {a : Attempt Page Place} (hlaw : e.Lawful)
    (h : Attempt.Pending e before c a ∨ Attempt.Swapped e before c a) :
    AllOrNothing e before c a := by
  rcases h with h | ⟨⟨c₁, ids, now, runId, summary, huntouched, happly⟩, hsettled⟩
  · exact ⟨.inl h.untouched, fun _ _ => h.untouched, fun runId hphase =>
      ⟨h.untouched, h.cleared runId hphase⟩⟩
  · obtain ⟨hcompleted, hcleared⟩ := hlaw.apply_completes happly
    refine ⟨.inr ⟨c₁, ids, now, runId, summary, huntouched, happly, hcompleted, hcleared⟩, ?_, ?_⟩
    · intro r hphase
      rw [hphase] at hsettled
      rcases hsettled with ⟨-, _, hother⟩ | ⟨_, _, hother⟩ | ⟨_, hother⟩ | ⟨_, _, _, hother⟩ <;>
        cases hother
    · intro r hphase
      rw [hphase] at hsettled
      rcases hsettled with ⟨-, _, hother⟩ | ⟨_, _, hother⟩ | ⟨_, hother⟩ | ⟨_, _, _, hother⟩ <;>
        cases hother

end attempts

/-- **All or nothing.**  From every catalog, with every sequence of replies and errors of the provider,
every decision of the budget, every fate of a statement and every crash, an attempt of
`run_full_snapshot` or of `run_star_list_snapshot` leaves authority as it was, with no run completed,
or leaves the committed swap of a run that is completed and whose staging is gone; an attempt that ends
`Paused` or `Failed` leaves authority as it was, and a failed run has no staging row. -/
theorem snapshot_all_or_nothing (k : Contracts) (before : Catalog) (clock : Time)
    (accountId : Uuid) :
    (∀ inputs : List (AttemptInput (List StarredItem)),
      let s := Attempt.run (starEnumeration k) (⟨accountId, .opening, false⟩, before, clock) inputs
      AllOrNothing (starEnumeration k) before s.2.1 s.1) ∧
    ∀ inputs : List (AttemptInput UserListsPage),
      let s := Attempt.run listEnumeration (⟨accountId, .opening, false⟩, before, clock) inputs
      AllOrNothing listEnumeration before s.2.1 s.1 := by
  constructor
  · intro inputs
    exact allOrNothing_of (starEnumeration_lawful k)
      (Attempt.pending_or_swapped_run (starEnumeration_lawful k) inputs _
        (.inl (Attempt.pending_opening accountId)))
  · intro inputs
    exact allOrNothing_of listEnumeration_lawful
      (Attempt.pending_or_swapped_run listEnumeration_lawful inputs _
        (.inl (Attempt.pending_opening accountId)))

end GithubCatalog
