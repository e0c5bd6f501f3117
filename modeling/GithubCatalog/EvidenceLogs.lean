import GithubCatalog.ErasureOrder
import GithubCatalog.Lib.Lineage

/-!
# The logs of the catalog

Observations, repairs, audit rows, checkpoints, import records, reports, publications, feedback and
recorded erasures are evidence: rows are added and none is ever rewritten.  Only the erasure of an owner
takes rows away, and it takes none of the catalog-wide logs.

* `Table.Grown`, `LogsGrow` - entries were added behind the others;
* `Table.Trimmed`, `LogsTrim` - entries may be gone, the others stand as they stood;
* `evidence_appendOnly` - the logs between any two moments of any history.
-/

namespace GithubCatalog

open Relational Transact Runs Lineage

/-- A log after entries were added behind the others.  A table that is not a log may change as it
likes. -/
def Table.Grown : (t : Table) → t.Rows → t.Rows → Prop
  | .starObservations, before, after => before <+: after
  | .starListMembershipObservations, before, after => before <+: after
  | .reconciliationRepairs, before, after => before <+: after
  | .mutationAudit, before, after => before <+: after
  | .syncCheckpoints, before, after => before <+: after
  | .legacyImportAccounts, before, after => before <+: after
  | .legacyImportRepositoryRecords, before, after => before <+: after
  | .legacyListClaims, before, after => before <+: after
  | .legacyShadowReports, before, after => before <+: after
  | .backupPolicyPublications, before, after => before <+: after
  | .backupPolicyFeedback, before, after => before <+: after
  | .accountErasureOperations, before, after => before <+: after
  | _, _, _ => True

/-- A log after erasures: some entries of erased owners may be gone.  The catalog-wide logs lose none. -/
def Table.Trimmed : (t : Table) → t.Rows → t.Rows → Prop
  | .starObservations, before, after => Trims before after
  | .starListMembershipObservations, before, after => Trims before after
  | .reconciliationRepairs, before, after => Trims before after
  | .mutationAudit, before, after => Trims before after
  | .syncCheckpoints, before, after => Trims before after
  | .legacyImportAccounts, before, after => Trims before after
  | .legacyImportRepositoryRecords, before, after => Trims before after
  | .legacyListClaims, before, after => Trims before after
  | .legacyShadowReports, before, after => before <+: after
  | .backupPolicyPublications, before, after => before <+: after
  | .backupPolicyFeedback, before, after => before <+: after
  | .accountErasureOperations, before, after => before <+: after
  | _, _, _ => True

/-- The tables that are logs. -/
def evidenceLogs : List Table :=
  [.starObservations, .starListMembershipObservations, .reconciliationRepairs, .mutationAudit,
    .syncCheckpoints, .legacyImportAccounts, .legacyImportRepositoryRecords, .legacyListClaims,
    .legacyShadowReports, .backupPolicyPublications, .backupPolicyFeedback,
    .accountErasureOperations]

def LogsGrow (db db' : Database) : Prop := ∀ t : Table, t.Grown (db.rows t) (db'.rows t)

def LogsTrim (db db' : Database) : Prop := ∀ t : Table, t.Trimmed (db.rows t) (db'.rows t)

/-! ### Growth -/

theorem Table.Grown.refl (t : Table) (rows : t.Rows) : t.Grown rows rows := by
  cases t <;> first | exact List.prefix_rfl | trivial

theorem Table.Grown.trans (t : Table) {rows rows' rows'' : t.Rows} (h : t.Grown rows rows')
    (h' : t.Grown rows' rows'') : t.Grown rows rows'' := by
  cases t <;> first | exact List.IsPrefix.trans h h' | trivial

theorem Table.Grown.of_not_log {t : Table} (h : t ∉ evidenceLogs) (rows rows' : t.Rows) :
    t.Grown rows rows' := by
  cases t <;> trivial

instance : Std.Refl LogsGrow := ⟨fun _ t => Table.Grown.refl t _⟩

instance : IsTrans Database LogsGrow := ⟨fun _ _ _ h h' t => Table.Grown.trans t (h t) (h' t)⟩

theorem Table.Trimmed.refl (t : Table) (rows : t.Rows) : t.Trimmed rows rows := by
  cases t <;> first | exact List.prefix_rfl | exact Trims.refl _ | trivial

theorem Table.Trimmed.trans (t : Table) {rows rows' rows'' : t.Rows} (h : t.Trimmed rows rows')
    (h' : t.Trimmed rows' rows'') : t.Trimmed rows rows'' := by
  cases t <;> first | exact List.IsPrefix.trans h h' | exact Trims.trans h h' | trivial

instance : Std.Refl LogsTrim := ⟨fun _ t => Table.Trimmed.refl t _⟩

instance : IsTrans Database LogsTrim := ⟨fun _ _ _ h h' t => Table.Trimmed.trans t (h t) (h' t)⟩

/-- Growing logs have lost nothing. -/
theorem LogsGrow.trim {db db' : Database} (h : LogsGrow db db') : LogsTrim db db' := by
  intro t
  have hgrown := h t
  cases t <;> first | exact hgrown | exact Trims.of_prefix hgrown

/-- A statement grows the logs when it grows its own table. -/
theorem relates_logsGrow_write {t : Table} {f : Database → t.Rows}
    (h : ∀ db, t.Grown (db.rows t) (f db)) : Tx.Relates LogsGrow (write t f) := by
  refine relates_write fun db _ u => ?_
  by_cases hu : u = t
  · subst hu
    rw [Database.rows_put]
    exact h db
  · rw [Database.rows_put_of_ne _ _ hu]
    exact Table.Grown.refl u _

theorem relates_logsGrow_of_touches {α : Type} {ts : List Table} {x : Tx α} (hx : Touches ts x)
    (ht : (evidenceLogs.all fun t => !ts.contains t) = true) : Tx.Relates LogsGrow x := by
  refine Tx.Relates.mono hx fun db db' hsame t => ?_
  by_cases hlog : t ∈ evidenceLogs
  · have hfree : t ∉ ts := by simpa using List.all_eq_true.mp ht t hlog
    rw [hsame t hfree]
    exact Table.Grown.refl t _
  · exact Table.Grown.of_not_log hlog _ _

theorem relates_logsGrow_other {t : Table} (ht : t ∉ evidenceLogs) (f : Database → t.Rows) :
    Tx.Relates LogsGrow (write t f) :=
  relates_logsGrow_write fun _ => Table.Grown.of_not_log ht _ _

theorem insertUnless_grows {α : Type} (p : α → Bool) (row : α) (t : List α) :
    t <+: insertUnless p row t := by
  unfold insertUnless
  split
  · exact List.prefix_rfl
  · exact List.prefix_append _ _

theorem insertAllUnless_grows {α κ : Type} [DecidableEq κ] (key : α → κ) (rows t : List α) :
    t <+: insertAllUnless key rows t := by
  unfold insertAllUnless
  induction rows generalizing t with
  | nil => exact List.prefix_rfl
  | cons row rest ih => exact (insertUnless_grows _ row t).trans (ih _)

/-! ### The transactions that write a log -/

theorem relates_logsGrow_recordPage (k : Contracts) (id : Uuid) (now : Time) (runId : Uuid) (page : ℕ)
    (items : List StarredItem) : Tx.Relates LogsGrow (recordPage k id now runId page items) :=
  (relates_attempt _).bind fun _ => (relates_logsGrow_other (by decide) _).bind fun _ =>
    (relates_logsGrow_write fun _ => by exact List.prefix_append _ _).bind fun _ =>
    relates_logsGrow_other (by decide) _

theorem relates_logsGrow_recordIncrementalPage (id : Uuid) (now : Time) (runId : Uuid)
    (page ingested : ℕ) (oldestSeen : Option Time) :
    Tx.Relates LogsGrow (recordIncrementalPage id now runId page ingested oldestSeen) :=
  (relates_logsGrow_write fun _ => by exact List.prefix_append _ _).bind fun _ =>
    relates_logsGrow_other (by decide) _

theorem relates_logsGrow_recordListPage (id : Uuid) (now : Time) (runId : Uuid)
    (page : UserListsPage) : Tx.Relates LogsGrow (recordListPage id now runId page) :=
  (relates_select _).bind fun _ => (relates_logsGrow_other (by decide) _).bind fun _ =>
    (relates_logsGrow_write fun _ => by exact List.prefix_append _ _).bind fun _ =>
    relates_logsGrow_other (by decide) _

theorem relates_logsGrow_recordIngest (id : Uuid) (now : Time) (runId accountId r : Uuid)
    (seenAt : Time) : Tx.Relates LogsGrow (recordIngest id now runId accountId r seenAt) :=
  (relates_logsGrow_write fun _ => by exact List.prefix_append _ _).bind fun _ =>
    (relates_logsGrow_other (by decide) _).bind fun _ => relates_logsGrow_other (by decide) _

theorem relates_logsGrow_unstarAbsent (ids : ℕ → Uuid) (now : Time) (runId accountId : Uuid) :
    Tx.Relates LogsGrow (unstarAbsentRepositories ids now runId accountId) := by
  refine (relates_select _).bind fun _ => (relates_logsGrow_other (by decide) _).bind fun _ =>
    Tx.Relates.bind (Tx.Relates.forM (fun p => ?_) _) fun _ => Tx.Relates.pure _
  exact (relates_logsGrow_write fun _ => by exact List.prefix_append _ _).bind fun _ =>
    (relates_logsGrow_write fun _ => by exact insertUnless_grows _ _ _).bind fun _ =>
    relates_logsGrow_other (by decide) _

theorem relates_logsGrow_applyAuthority (ids unstarIds : ℕ → Uuid) (now : Time)
    (runId accountId : Uuid) :
    Tx.Relates LogsGrow (applyAuthorityAndComplete ids unstarIds now runId accountId) :=
  (relates_select _).bind fun _ => (relates_logsGrow_write fun _ => by exact List.prefix_append _ _).bind
    fun _ => (relates_logsGrow_write fun _ => by exact insertAllUnless_grows _ _ _).bind fun _ =>
    (relates_logsGrow_of_touches (touches_promoteSeenRepositories _ _ _) (by decide)).bind fun _ =>
    (relates_logsGrow_unstarAbsent _ _ _ _).bind fun _ =>
    (relates_logsGrow_other (by decide) _).bind fun _ =>
    (relates_logsGrow_other (by decide) _).bind fun _ =>
    (relates_logsGrow_of_touches (touches_completeRunRow _ _ _ _) (by decide)).bind fun _ =>
    Tx.Relates.pure _

theorem relates_logsGrow_applyListAuthority (listIds memberIds removalIds : ℕ → Uuid) (now : Time)
    (runId accountId : Uuid) : Tx.Relates LogsGrow
      (applyListAuthorityAndComplete listIds memberIds removalIds now runId accountId) := by
  have hdemote : Tx.Relates LogsGrow (demoteAbsentPairs removalIds now runId accountId) := by
    refine (relates_select _).bind fun _ => (relates_logsGrow_other (by decide) _).bind fun _ =>
      Tx.Relates.bind (Tx.Relates.forM (fun p => ?_) _) fun _ => Tx.Relates.pure _
    exact relates_logsGrow_write fun _ => by exact List.prefix_append _ _
  exact (relates_logsGrow_other (by decide) _).bind fun _ => (relates_select _).bind fun _ =>
    (relates_logsGrow_write fun _ => by exact List.prefix_append _ _).bind fun _ =>
    (relates_logsGrow_of_touches (touches_promoteSeenPairs _ _ _) (by decide)).bind fun _ =>
    hdemote.bind fun _ => (relates_logsGrow_other (by decide) _).bind fun _ =>
    (relates_logsGrow_other (by decide) _).bind fun _ =>
    (relates_logsGrow_of_touches (touches_completeListRunRow _ _ _ _) (by decide)).bind fun _ =>
    Tx.Relates.pure _

theorem relates_logsGrow_upsertRepository (fresh : Uuid) (pid : ℤ) :
    Tx.Relates LogsGrow (upsertRepositoryInTx fresh pid) :=
  relates_logsGrow_of_touches (touches_upsertRepositoryInTx _ _) (by decide)

/-- An audit row that lost its key is left out. -/
theorem relates_logsGrow_insertAuditRow (row : MutationAudit) :
    Tx.Relates LogsGrow (insertAuditRow row) :=
  (relates_select _).bind fun _ => (relates_logsGrow_write fun _ => by exact insertUnless_grows _ _ _).bind
    fun _ => Tx.Relates.pure _

theorem relates_logsGrow_persistConfirmedStar (ids : ℕ → Uuid) (now : Time)
    (context : MutationContext) (pid : ℤ) (key : String) (direction : StarDirection) :
    Tx.Relates LogsGrow (persistConfirmedStar ids now context pid key direction) :=
  (relates_logsGrow_upsertRepository _ _).bind fun _ => (relates_select _).bind fun _ =>
    (relates_logsGrow_of_touches (touches_applyStarProjection _ _ _ _) (by decide)).bind fun _ =>
    (relates_onlyIf (relates_logsGrow_of_touches (touches_markBackupPolicyDirtyInTx now)
      (by decide))).bind fun _ =>
    (relates_logsGrow_insertAuditRow _).bind fun _ => relates_finishWithReplayGuard _ _

theorem relates_logsGrow_setRepositoryMode (ids : ℕ → Uuid) (now : Time) (context : MutationContext)
    (pid : ℤ) (requested : RequestedMode) (key : String) :
    Tx.Relates LogsGrow (setRepositoryModeInTx ids now context pid requested key) := by
  refine (relates_logsGrow_upsertRepository _ _).bind fun r => (relates_fetchOne _).bind fun current =>
    (relates_select _).bind fun starred => ?_
  cases validateMode requested starred with
  | some reason => exact (relates_logsGrow_insertAuditRow _).bind fun _ => Tx.Relates.pure _
  | none =>
    refine Tx.Relates.bind (relates_onlyIf (Tx.Relates.bind ?_ fun _ => ?_)) fun _ =>
      (relates_logsGrow_insertAuditRow _).bind fun _ => relates_finishWithReplayGuard _ _
    · exact relates_logsGrow_of_touches (touches_setMode _ _) (by decide)
    · exact relates_logsGrow_of_touches (touches_markBackupPolicyDirtyInTx _) (by decide)

theorem relates_logsGrow_publishDue (k : Contracts) (now : Time) (commandId : Uuid) :
    Tx.Relates LogsGrow (publishDueBackupPolicy k now commandId) := by
  refine (relates_logsGrow_other (by decide) _).bind fun _ => (relates_fetchOne _).bind
    fun cursor => ?_
  split
  · refine (relates_attempt _).bind fun inputs => ?_
    split
    · exact (relates_logsGrow_other (by decide) _).bind fun _ => Tx.Relates.pure _
    · exact (relates_attempt _).bind fun _ => (relates_attempt _).bind fun _ =>
        (relates_attempt _).bind fun _ =>
        (relates_logsGrow_write fun _ => by exact List.prefix_append _ _).bind fun _ =>
        (relates_attempt _).bind fun _ => (relates_logsGrow_other (by decide) _).bind fun _ =>
        (relates_logsGrow_other (by decide) _).bind fun _ => Tx.Relates.pure _
  · exact Tx.Relates.pure _

theorem relates_logsGrow_recordAcknowledgment (now : Time) (messageId : Uuid)
    (ack : PolicyAcknowledged) :
    Tx.Relates LogsGrow (recordBackupPolicyAcknowledgment now messageId ack) := by
  refine (relates_select _).bind fun claimed => ?_
  split
  · exact Tx.Relates.pure _
  · exact (relates_logsGrow_other (by decide) _).bind fun _ => (relates_attempt _).bind fun _ =>
      (relates_attempt _).bind fun _ => (relates_attempt _).bind fun _ =>
      (relates_logsGrow_write fun _ => by exact List.prefix_append _ _).bind fun _ =>
      (relates_logsGrow_other (by decide) _).bind fun _ => Tx.Relates.pure _

/-! ### The import -/

theorem relates_logsGrow_importLegacyListClaims (source : String) (record : LegacyRepository)
    (account r : Uuid) (observedAt : Time) (names : List String) :
    Tx.Relates LogsGrow (importLegacyListClaims source record account r observedAt names) := by
  induction names with
  | nil => exact Tx.Relates.pure _
  | cons name rest ih =>
    refine Tx.Relates.bind ?_ fun _ => ih.bind fun _ => Tx.Relates.pure _
    unfold importLegacyListClaim
    split
    · exact Tx.Relates.fail _
    · exact (relates_select _).bind fun _ =>
        (relates_logsGrow_write fun _ => by exact insertUnless_grows _ _ _).bind fun _ => Tx.Relates.pure _

theorem relates_logsGrow_importNew (ids : ℕ → Uuid) (now : Time) (source : String)
    (record : LegacyRepository) (account : Uuid) :
    Tx.Relates LogsGrow (importNewLegacyRepository ids now source record account) := by
  have hstar : ∀ r observedAt, Tx.Relates LogsGrow (importLegacyStar (ids 2) account r observedAt) :=
    fun _ _ => (relates_logsGrow_write fun _ => by exact List.prefix_append _ _).bind fun _ =>
      relates_logsGrow_other (by decide) _
  exact (relates_logsGrow_upsertRepository _ _).bind fun r =>
    (relates_logsGrow_of_touches (touches_recordLegacyAlias _ _ _ _ _) (by decide)).bind fun _ =>
    (relates_onlyIf (hstar r _)).bind fun _ =>
    (relates_logsGrow_importLegacyListClaims _ _ _ _ _ _).bind fun _ =>
    (relates_logsGrow_write fun _ => by exact List.prefix_append _ _).bind fun _ => Tx.Relates.pure _

theorem relates_logsGrow_importAccounts (ids : ℤ → Uuid) (source : String)
    (integrations : List LegacyIntegration) (owners : List (ℤ × String)) :
    Tx.Relates LogsGrow (importLegacyAccounts ids source integrations owners) := by
  induction owners with
  | nil => exact Tx.Relates.pure _
  | cons p rest ih =>
    refine Tx.Relates.bind (Tx.Relates.bind (relates_select _) fun bound => ?_) fun _ =>
      ih.bind fun _ => Tx.Relates.pure _
    cases bound with
    | some a => exact Tx.Relates.pure _
    | none =>
      exact (relates_logsGrow_of_touches (touches_createLegacyAccount _ _ _) (by decide)).bind fun _ =>
        (relates_logsGrow_write fun _ => by exact List.prefix_append _ _).bind fun _ => Tx.Relates.pure _

theorem relates_logsGrow_import (accountIds : ℤ → Uuid) (ids : ℕ → ℕ → Uuid) (now : Time)
    (request : LegacyImportRequest) (importRunId : Uuid) :
    Tx.Relates LogsGrow (importLegacyTransaction accountIds ids now request importRunId) := by
  refine (relates_attempt _).bind fun integrations => (relates_attempt _).bind fun owners =>
    (relates_logsGrow_importAccounts _ _ _ _).bind fun accounts => Tx.Relates.bind ?_ fun _ =>
      (relates_logsGrow_other (by decide) _).bind fun _ => Tx.Relates.pure _
  refine relates_importLegacyRepositories _ _ _ _ fun p _ account c c' counts _ h => ?_
  exact relates_logsGrow_importNew _ _ _ _ _ c counts c' h

/-! ### Histories -/

/-- An operation other than an erasure grows the logs. -/
theorem Operation.commit_logsGrow (k : Contracts) (c : Catalog) (op : Operation)
    (herase : op.erases = false) : LogsGrow c.tables (op.commit k c).tables := by
  have hframe : (evidenceLogs.all fun t => !op.writes.contains t) = true →
      LogsGrow c.tables (op.commit k c).tables := by
    intro hfree t
    by_cases hlog : t ∈ evidenceLogs
    · rw [op.commit_agreeOff k c t (by simpa using List.all_eq_true.mp hfree t hlog)]
      exact Table.Grown.refl t _
    · exact Table.Grown.of_not_log hlog _ _
  cases op with
  | recordPage => exact (relates_logsGrow_recordPage _ _ _ _ _ _).commit c
  | recordIncrementalPage => exact (relates_logsGrow_recordIncrementalPage _ _ _ _ _ _).commit c
  | recordListPage => exact (relates_logsGrow_recordListPage _ _ _ _).commit c
  | recordIngest => exact (relates_logsGrow_recordIngest _ _ _ _ _ _).commit c
  | applyAuthority => exact (relates_logsGrow_applyAuthority _ _ _ _ _).commit c
  | applyListAuthority => exact (relates_logsGrow_applyListAuthority _ _ _ _ _ _).commit c
  | recordAttempt =>
    exact (relates_recordAttempt _ _ _ _ _ _ _ (relates_logsGrow_upsertRepository _ _)
      fun row _ => relates_logsGrow_insertAuditRow row).commit c
  | persistConfirmedStar => exact (relates_logsGrow_persistConfirmedStar _ _ _ _ _ _).commit c
  | persistListMembership =>
    exact (relates_persistListMembership _ _ _ _ _ _ _ _ (relates_logsGrow_upsertRepository _ _)
      (fun _ => relates_logsGrow_other (by decide) _)
      fun row _ => relates_logsGrow_insertAuditRow row).commit c
  | setRepositoryMode => exact (relates_logsGrow_setRepositoryMode _ _ _ _ _ _).commit c
  | importLegacy => exact (relates_logsGrow_import _ _ _ _ _).commit c
  | persistShadowReport =>
    exact (relates_logsGrow_write (t := .legacyShadowReports)
      fun _ => by exact List.prefix_append _ _).commit c
  | publishDue => exact (relates_logsGrow_publishDue _ _ _).commit c
  | recordAcknowledgment => exact (relates_logsGrow_recordAcknowledgment _ _ _).commit c
  | eraseAccount => cases herase
  | _ => exact hframe rfl

theorem eraseAccount_logsTrim (now : Time) (owner : String) (operation : AccountErasureOperation)
    (c : Catalog) :
    LogsTrim c.tables ((eraseAccountInTx now owner operation).commit c).tables := by
  have hstate : Tx.Relates LogsTrim (eraseOwnerState now owner) := by
    intro c u c' h t
    rw [eraseOwnerState_eq h]
    cases t <;> first
      | exact Trims.of_sublist (deleteWhere_sublist _ _)
      | exact List.prefix_rfl
      | trivial
  refine Tx.Relates.commit (hstate.bind fun _ => Tx.Relates.bind (relates_require _ _) fun _ => ?_) c
  exact Tx.Relates.mono (relates_logsGrow_write (t := .accountErasureOperations)
    fun _ => by exact List.prefix_append _ _) fun _ _ h => h.trim

theorem step_logsTrim (k : Contracts) (c : Catalog) (op : Operation) :
    LogsTrim c.tables (step k c op).tables := by
  unfold step
  split
  · by_cases herase : op.erases = true
    · cases op with
      | eraseAccount => exact eraseAccount_logsTrim _ _ _ c
      | _ => cases herase
    · exact (op.commit_logsGrow k c (Bool.eq_false_iff.mpr herase)).trim
  · exact Std.Refl.refl _

theorem step_logsGrow (k : Contracts) (c : Catalog) {op : Operation} (herase : op.erases = false) :
    LogsGrow c.tables (step k c op).tables := by
  unfold step
  split
  · exact op.commit_logsGrow k c herase
  · exact Std.Refl.refl _

theorem logsTrim_run (k : Contracts) (c : Catalog) (history : List Operation) :
    LogsTrim c.tables (runFrom (step k) c history).tables := by
  induction history generalizing c with
  | nil => exact Std.Refl.refl _
  | cons op rest ih => exact IsTrans.trans _ _ _ (step_logsTrim k c op) (ih _)

theorem logsGrow_run (k : Contracts) (c : Catalog) {history : List Operation}
    (herase : ∀ op ∈ history, op.erases = false) :
    LogsGrow c.tables (runFrom (step k) c history).tables := by
  induction history generalizing c with
  | nil => exact Std.Refl.refl _
  | cons op rest ih =>
    obtain ⟨hop, hrest⟩ := List.forall_mem_cons.mp herase
    exact IsTrans.trans _ _ _ (step_logsGrow k c hop) (ih _ hrest)

/-- **Evidence is append-only.**  Between any two moments of any history, no entry of a log is
rewritten, moved or preceded by a new one; an entry is gone only where an owner was erased, and the
catalog-wide logs (reports, publications, feedback and recorded erasures) never lose one. -/
theorem evidence_appendOnly (k : Contracts) (before after : List Operation) :
    LogsTrim (runFrom (step k) emptyCatalog before).tables
        (runFrom (step k) emptyCatalog (before ++ after)).tables ∧
      ((∀ op ∈ after, op.erases = false) →
        LogsGrow (runFrom (step k) emptyCatalog before).tables
          (runFrom (step k) emptyCatalog (before ++ after)).tables) := by
  rw [runFrom_append]
  exact ⟨logsTrim_run k _ after, fun herase => logsGrow_run k _ herase⟩

end GithubCatalog
