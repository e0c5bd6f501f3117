import GithubCatalog.ErasureState
import GithubCatalog.RunScope
import GithubCatalog.Lib.Lineage

/-!
# The life of a sync run

A run is opened running, counts its pages, and completes or fails.  No statement asks for the status of
the row it completes: that a failed run stays failed rests on the declared check that exactly the failed
runs carry a reason.

* `SyncRun.Advances` - a run at two moments;
* `RunsCarried` - the runs of one state and those they become, none lost and none new;
* `syncRuns_lifecycle` - the runs of any state, and those of any earlier state of its history.
-/

namespace GithubCatalog

open Relational Transact Runs Lineage

/-- A run, and the same run later on. -/
structure SyncRun.Advances (a b : SyncRun) : Prop where
  id : b.syncRunId = a.syncRunId
  account : b.accountId = a.accountId
  mode : b.mode = a.mode
  started : b.startedAt = a.startedAt
  running : b.status = .running → a.status = .running
  cancelled : b.status = .cancelled → a.status = .cancelled
  completed : a.status = .completed → b.status = .completed
  failed : a.status = .failed →
    b.status = .failed ∧ b.failureReason = a.failureReason ∧ b.finishedAt = a.finishedAt

instance : Std.Refl SyncRun.Advances :=
  ⟨fun _ => ⟨rfl, rfl, rfl, rfl, fun h => h, fun h => h, fun h => h, fun h => ⟨h, rfl, rfl⟩⟩⟩

instance : IsTrans SyncRun SyncRun.Advances where
  trans a b c h h' :=
    { id := h'.id.trans h.id
      account := h'.account.trans h.account
      mode := h'.mode.trans h.mode
      started := h'.started.trans h.started
      running := h.running ∘ h'.running
      cancelled := h.cancelled ∘ h'.cancelled
      completed := h'.completed ∘ h.completed
      failed := by
        intro ha
        obtain ⟨hb, hreason, hfinished⟩ := h.failed ha
        obtain ⟨hc, hreason', hfinished'⟩ := h'.failed hb
        exact ⟨hc, hreason'.trans hreason, hfinished'.trans hfinished⟩ }

/-! ### What the statements do to a row -/

/-- Counting a page moves the counters only. -/
theorem SyncRun.Advances.counted (a : SyncRun) (pages items lists : ℤ) :
    a.Advances { a with pagesProcessed := pages, itemsObserved := items, listsObserved := lists } :=
  ⟨rfl, rfl, rfl, rfl, fun h => h, fun h => h, fun h => h, fun h => ⟨h, rfl, rfl⟩⟩

/-- A run that a completion leaves in the table had not failed: the reason of a failure would stand
beside the new status. -/
theorem SyncRun.Advances.complete {a b : SyncRun} (ha : a.check = true) (hb : b.check = true)
    (hid : b.syncRunId = a.syncRunId) (haccount : b.accountId = a.accountId) (hmode : b.mode = a.mode)
    (hstarted : b.startedAt = a.startedAt) (hstatus : b.status = .completed)
    (hreason : b.failureReason = a.failureReason) : a.Advances b where
  id := hid
  account := haccount
  mode := hmode
  started := hstarted
  running h := by rw [hstatus] at h; cases h
  cancelled h := by rw [hstatus] at h; cases h
  completed _ := hstatus
  failed h := by
    simp only [SyncRun.check, Bool.and_eq_true, beq_iff_eq] at ha hb
    have hset : a.failureReason.isSome = true := by rw [← ha.1.1.1.2, h]; rfl
    have hunset : a.failureReason.isSome = false := by rw [← hreason, ← hb.1.1.1.2, hstatus]; rfl
    rw [hset] at hunset
    cases hunset

/-- A failure is recorded on a running run. -/
theorem SyncRun.Advances.fail {a : SyncRun} (ha : a.status = .running) (now : Time)
    (reason : String) : a.Advances
      { a with status := .failed, finishedAt := some now, failureReason := some reason } where
  id := rfl
  account := rfl
  mode := rfl
  started := rfl
  running h := by cases h
  cancelled h := by cases h
  completed h := by rw [ha] at h; cases h
  failed h := by rw [ha] at h; cases h

/-! ### What the transactions do to the runs -/

/-- The runs of two states: none lost, none new. -/
structure RunsCarried (db db' : Database) : Prop where
  descend : Descends SyncRun.Advances (fun _ => False) db.syncRuns db'.syncRuns
  outlive : Outlives SyncRun.Advances db.syncRuns db'.syncRuns

theorem runsCarried_of_eq {db db' : Database} (h : db'.syncRuns = db.syncRuns) :
    RunsCarried db db' where
  descend := Descends.of_sublist (by rw [h])
  outlive := by rw [h]; exact Outlives.refl _

instance : Std.Refl RunsCarried := ⟨fun _ => runsCarried_of_eq rfl⟩

instance : IsTrans Database RunsCarried :=
  ⟨fun _ _ _ h h' => ⟨h.descend.trans h'.descend, h.outlive.trans h'.outlive⟩⟩

theorem relates_runsCarried_of_touches {α : Type} {ts : List Table} {x : Tx α} (hx : Touches ts x)
    (ht : .syncRuns ∉ ts) : Tx.Relates RunsCarried x :=
  Tx.Relates.mono hx fun _ _ h => runsCarried_of_eq (h .syncRuns ht)

theorem relates_runsCarried_write {t : Table} (ht : t ≠ .syncRuns) (f : Database → t.Rows) :
    Tx.Relates RunsCarried (write t f) :=
  relates_runsCarried_of_touches (Touches.write (List.mem_singleton.mpr rfl) f)
    fun hmem => ht (List.mem_singleton.mp hmem).symm

/-- An update of run rows, from what it makes of a row. -/
theorem relates_runsCarried_update {p : SyncRun → Bool} {f : SyncRun → SyncRun}
    (hf : ∀ a : SyncRun, p a = true → a.check = true → (f a).check = true → a.Advances (f a)) :
    Tx.Relates RunsCarried (write .syncRuns fun db => updateWhere p f db.syncRuns) := by
  refine relates_write_valid fun db hdb hdb' => ?_
  have hrow : ∀ a ∈ db.syncRuns, p a = true → f a ∈ updateWhere p f db.syncRuns → a.Advances (f a) :=
    fun a ha hp hmem => hf a hp (hdb.checks.runs a ha) (hdb'.checks.runs _ hmem)
  exact ⟨Descends.updateWhere hrow, Outlives.updateWhere hrow⟩

theorem relates_runsCarried_updateSyncRun {f : SyncRun → SyncRun}
    (hf : ∀ a : SyncRun, a.check = true → (f a).check = true → a.Advances (f a)) (runId : Uuid) :
    Tx.Relates RunsCarried (updateSyncRun runId f) :=
  relates_runsCarried_update fun a _ => hf a

theorem relates_runsCarried_recordPage (k : Contracts) (id : Uuid) (now : Time) (runId : Uuid)
    (page : ℕ) (items : List StarredItem) :
    Tx.Relates RunsCarried (recordPage k id now runId page items) := by
  refine (relates_attempt _).bind fun _ => (relates_runsCarried_write (by decide) _).bind fun _ =>
    (relates_runsCarried_write (by decide) _).bind fun _ =>
      relates_runsCarried_updateSyncRun (fun a _ _ => ?_) _
  exact SyncRun.Advances.counted a _ _ _

theorem relates_runsCarried_recordIncrementalPage (id : Uuid) (now : Time) (runId : Uuid)
    (page ingested : ℕ) (oldestSeen : Option Time) :
    Tx.Relates RunsCarried (recordIncrementalPage id now runId page ingested oldestSeen) := by
  refine (relates_runsCarried_write (by decide) _).bind fun _ =>
    relates_runsCarried_updateSyncRun (fun a _ _ => ?_) _
  exact SyncRun.Advances.counted a _ _ _

theorem relates_runsCarried_recordListPage (id : Uuid) (now : Time) (runId : Uuid)
    (page : UserListsPage) : Tx.Relates RunsCarried (recordListPage id now runId page) := by
  refine (relates_select _).bind fun _ => (relates_runsCarried_write (by decide) _).bind fun _ =>
    (relates_runsCarried_write (by decide) _).bind fun _ =>
      relates_runsCarried_updateSyncRun (fun a _ _ => ?_) _
  exact SyncRun.Advances.counted a _ _ _

theorem relates_runsCarried_failRun (now : Time) (runId : Uuid) (reason : String) :
    Tx.Relates RunsCarried (failRun now runId reason) := by
  refine Tx.Relates.bind (relates_runsCarried_update fun a hp _ _ => ?_) fun _ =>
    (relates_runsCarried_write (by decide) _).bind fun _ => relates_runsCarried_write (by decide) _
  exact SyncRun.Advances.fail (of_decide_eq_true (Bool.and_eq_true_iff.mp hp).2) now reason

theorem relates_runsCarried_completeRun (now : Time) (runId accountId : Uuid) (page observed : ℕ)
    (oldest : Option Time) :
    Tx.Relates RunsCarried (completeRun now runId accountId page observed oldest) := by
  refine (relates_runsCarried_write (by decide) _).bind fun _ =>
    relates_runsCarried_updateSyncRun (fun a ha hb => ?_) _
  exact .complete ha hb rfl rfl rfl rfl rfl rfl

theorem relates_runsCarried_applyAuthority (ids unstarIds : ℕ → Uuid) (now : Time)
    (runId accountId : Uuid) :
    Tx.Relates RunsCarried (applyAuthorityAndComplete ids unstarIds now runId accountId) := by
  refine (relates_select _).bind fun _ => (relates_runsCarried_write (by decide) _).bind fun _ =>
    (relates_runsCarried_write (by decide) _).bind fun _ =>
    (relates_runsCarried_of_touches (touches_promoteSeenRepositories _ _ _) (by decide)).bind fun _ =>
    (relates_runsCarried_of_touches (touches_unstarAbsentRepositories _ _ _ _) (by decide)).bind
      fun _ => (relates_runsCarried_write (by decide) _).bind fun _ =>
    (relates_runsCarried_write (by decide) _).bind fun _ => Tx.Relates.bind ?_ fun _ =>
    Tx.Relates.pure _
  refine (relates_runsCarried_updateSyncRun (fun a ha hb => ?_) _).bind fun _ => relates_fetchOne _
  exact .complete ha hb rfl rfl rfl rfl rfl rfl

theorem relates_runsCarried_applyListAuthority (listIds memberIds removalIds : ℕ → Uuid) (now : Time)
    (runId accountId : Uuid) : Tx.Relates RunsCarried
      (applyListAuthorityAndComplete listIds memberIds removalIds now runId accountId) := by
  refine (relates_runsCarried_write (by decide) _).bind fun _ => (relates_select _).bind fun _ =>
    (relates_runsCarried_write (by decide) _).bind fun _ =>
    (relates_runsCarried_of_touches (touches_promoteSeenPairs _ _ _) (by decide)).bind fun _ =>
    (relates_runsCarried_of_touches (touches_demoteAbsentPairs _ _ _ _) (by decide)).bind fun _ =>
    (relates_runsCarried_write (by decide) _).bind fun _ =>
    (relates_runsCarried_write (by decide) _).bind fun _ => Tx.Relates.bind ?_ fun _ =>
    Tx.Relates.pure _
  refine (relates_runsCarried_updateSyncRun (fun a ha hb => ?_) _).bind fun _ => relates_fetchOne _
  exact .complete ha hb rfl rfl rfl rfl rfl rfl

/-! ### What the operations do to the runs -/

/-- The row an operation opens. -/
def Operation.opens : Operation → SyncRun → Prop
  | .openRun mode runId accountId now, a => a = newSyncRun runId accountId mode now
  | _, _ => False

theorem Operation.commit_runsCarried (k : Contracts) (c : Catalog) (op : Operation)
    (hopen : ∀ a, ¬ op.opens a) (herase : op.erases = false) :
    RunsCarried c.tables (op.commit k c).tables := by
  have hframe : op.leaves .syncRuns = true → RunsCarried c.tables (op.commit k c).tables :=
    fun hleaves => runsCarried_of_eq (op.rows_commit k c .syncRuns hleaves)
  cases op with
  | openRun mode runId accountId now => exact (hopen _ rfl).elim
  | recordPage => exact (relates_runsCarried_recordPage _ _ _ _ _ _).commit c
  | failRun => exact (relates_runsCarried_failRun _ _ _).commit c
  | applyAuthority => exact (relates_runsCarried_applyAuthority _ _ _ _ _).commit c
  | recordIncrementalPage => exact (relates_runsCarried_recordIncrementalPage _ _ _ _ _ _).commit c
  | completeRun => exact (relates_runsCarried_completeRun _ _ _ _ _ _).commit c
  | recordListPage => exact (relates_runsCarried_recordListPage _ _ _ _).commit c
  | applyListAuthority => exact (relates_runsCarried_applyListAuthority _ _ _ _ _ _).commit c
  | eraseAccount => cases herase
  | _ => exact hframe rfl

/-- An erasure takes runs away and leaves the others as they are. -/
theorem eraseAccount_runs (now : Time) (owner : String) (operation : AccountErasureOperation)
    (c : Catalog) :
    ((eraseAccountInTx now owner operation).commit c).tables.syncRuns.Sublist c.tables.syncRuns := by
  rcases Tx.commit_cases (eraseAccountInTx now owner operation) c with ⟨u, h⟩ | hsame
  · obtain ⟨c₁, herase, hrest⟩ := eraseAccountInTx_eq_ok h
    rw [show ((eraseAccountInTx now owner operation).commit c).tables.syncRuns = c₁.tables.syncRuns
      from hrest .syncRuns (by decide), eraseOwnerState_eq herase]
    exact deleteWhere_sublist _ _
  · rw [hsame]

theorem insertSyncRun_runs (mode : SyncMode) (runId accountId : Uuid) (now : Time) (c : Catalog) :
    Descends SyncRun.Advances (Operation.openRun mode runId accountId now).opens c.tables.syncRuns
        ((insertSyncRun mode runId accountId now).commit c).tables.syncRuns ∧
      Outlives SyncRun.Advances c.tables.syncRuns
        ((insertSyncRun mode runId accountId now).commit c).tables.syncRuns := by
  rcases Tx.commit_cases (insertSyncRun mode runId accountId now) c with ⟨u, h⟩ | hsame
  · rw [write_eq_ok.mp h]
    exact ⟨Descends.append_singleton rfl, Outlives.append _ _⟩
  · rw [hsame]
    exact ⟨Descends.of_sublist (List.Sublist.refl _), Outlives.refl _⟩

theorem step_descends (k : Contracts) (c : Catalog) (op : Operation) :
    Descends SyncRun.Advances op.opens c.tables.syncRuns (step k c op).tables.syncRuns := by
  unfold step
  split
  · by_cases hopen : ∃ a, op.opens a
    · obtain ⟨a, ha⟩ := hopen
      cases op with
      | openRun => exact (insertSyncRun_runs _ _ _ _ c).1
      | _ => exact ha.elim
    · by_cases herase : op.erases = true
      · cases op with
        | eraseAccount => exact Descends.of_sublist (eraseAccount_runs _ _ _ c)
        | _ => cases herase
      · have hcarried := op.commit_runsCarried k c (not_exists.mp hopen) (Bool.not_eq_true _ ▸ herase)
        exact hcarried.descend.mono fun _ => False.elim
  · exact Descends.of_sublist (List.Sublist.refl _)

theorem step_outlives (k : Contracts) (c : Catalog) {op : Operation} (herase : op.erases = false) :
    Outlives SyncRun.Advances c.tables.syncRuns (step k c op).tables.syncRuns := by
  unfold step
  split
  · by_cases hopen : ∃ a, op.opens a
    · obtain ⟨a, ha⟩ := hopen
      cases op with
      | openRun => exact (insertSyncRun_runs _ _ _ _ c).2
      | _ => exact ha.elim
    · exact (op.commit_runsCarried k c (not_exists.mp hopen) herase).outlive
  · exact Outlives.refl _

theorem runs_outlive (k : Contracts) (c : Catalog) {history : List Operation}
    (herase : ∀ op ∈ history, op.erases = false) :
    Outlives SyncRun.Advances c.tables.syncRuns (runFrom (step k) c history).tables.syncRuns := by
  induction history generalizing c with
  | nil => exact Outlives.refl _
  | cons op rest ih =>
    obtain ⟨hop, hrest⟩ := List.forall_mem_cons.mp herase
    exact (step_outlives k c hop).trans (ih _ hrest)

/-- **The life of a run.**  Between any two moments of any history, in any interleaving with other
flows: every run there is was there before or was opened since, the same account's run of the same mode;
a completed run stays completed and a failed one failed with its reason; the id of a run that was there
before names the same run, unless it was drawn anew; and no run is lost but to an erasure. -/
theorem syncRuns_lifecycle (k : Contracts) (before after : List Operation) :
    (∀ b ∈ (runFrom (step k) emptyCatalog (before ++ after)).tables.syncRuns,
      (∃ a ∈ (runFrom (step k) emptyCatalog before).tables.syncRuns, a.Advances b) ∨
      ∃ mode runId account now, Operation.openRun mode runId account now ∈ after ∧
        (newSyncRun runId account mode now).Advances b) ∧
    (∀ a ∈ (runFrom (step k) emptyCatalog before).tables.syncRuns,
      ∀ b ∈ (runFrom (step k) emptyCatalog (before ++ after)).tables.syncRuns,
      b.syncRunId = a.syncRunId →
      (∀ mode account now, Operation.openRun mode a.syncRunId account now ∉ after) → a.Advances b) ∧
    ((∀ op ∈ after, op.erases = false) →
      ∀ a ∈ (runFrom (step k) emptyCatalog before).tables.syncRuns,
      ∃ b ∈ (runFrom (step k) emptyCatalog (before ++ after)).tables.syncRuns, a.Advances b) := by
  rw [runFrom_append]
  generalize runFrom (step k) emptyCatalog before = c
  have hdescend := Descends.runFrom (step_descends k) c after
  refine ⟨fun b hb => ?_, fun a ha b hb hid hdrawn => ?_, fun herase => runs_outlive k c herase⟩
  · obtain ⟨a, ha | ⟨op, hop, hopens⟩, hab⟩ := hdescend b hb
    · exact .inl ⟨a, ha, hab⟩
    · cases op with
      | openRun mode runId account now => exact .inr ⟨mode, runId, account, now, hop, hopens ▸ hab⟩
      | _ => exact hopens.elim
  · refine hdescend.of_key c.valid.keys.runs (fun _ _ h => h.id) ha hb hid fun r hr heq => ?_
    obtain ⟨op, hop, hopens⟩ := hr
    cases op with
    | openRun mode runId account now =>
      have hrun : runId = a.syncRunId := by rw [← heq, hopens]; rfl
      exact hdrawn mode account now (hrun ▸ hop)
    | _ => exact hopens.elim

end GithubCatalog
