import GithubCatalog.PolicyPublication
import GithubCatalog.StarAuthority

/-!
# Pending marks cover every change of the desired state

`PolicyAccounted` is the invariant a debounced publication rests on: whenever the inputs differ from
the last published ones, a mark is pending.  Most operations keep it, because they leave the governed
repositories alone or mark the cursor in the same transaction.  Three do not: a completed snapshot
and an ingested entry never mark, and a confirmed star marks only when the account's own star moves.

* `Operation.changesGovernance` - the operations, by the state they start in, that change a policy
  input without marking;
* `policyAccounted_throughout` - a history whose every such step finds a mark pending keeps the
  invariant in every state;
* `unmarked_ingest` - a history that breaks it.
-/

namespace GithubCatalog

open Relational Transact

/-- The fingerprint of the inputs last settled; nothing settled stands for no inputs. -/
def Database.settledFingerprint (db : Database) : String :=
  db.cursor.lastFingerprint.getD (fingerprint [])

/-- Inputs other than the last settled ones have a mark pending. -/
def PolicyAccounted (db : Database) : Prop :=
  ∀ inputs, loadInputs db = .ok inputs → fingerprint inputs ≠ db.settledFingerprint →
    db.dirty = true

/-- Whether a confirmed write would move a mode. -/
def StarDirection.moves : StarDirection → Option RepositoryMode → Bool
  | .add, mode => decide (mode = none)
  | .remove, mode => decide (mode = some .auto)

/-- The operations that change a policy input in a state without marking the cursor. -/
def Operation.changesGovernance (db : Database) : Operation → Bool
  | .applyAuthority _ _ _ runId accountId =>
    db.repositories.any fun r => mirrorLevel db r.repositoryId &&
      (decide (r.mode = none) && stagedIn runId r.providerRepositoryId db ||
        decide (r.mode = some .auto) && starredBy accountId r.repositoryId db &&
          !stagedIn runId r.providerRepositoryId db)
  | .recordIngest _ _ _ _ repositoryId _ =>
    db.repositories.any fun r => mirrorLevel db r.repositoryId &&
      decide (r.repositoryId = repositoryId) && decide (r.mode = none)
  | .persistConfirmedStar _ _ context pid _ direction =>
    db.repositories.any fun r => mirrorLevel db r.repositoryId &&
      decide (r.providerRepositoryId = pid) && direction.moves r.mode &&
        !newlyApplied direction context.accountId r.repositoryId db
  | .editBackupPolicies rows =>
    decide (loadInputs { db with backupPolicies := rows } ≠ loadInputs db)
  | _ => false

/-! ### Steps that account for their changes -/

/-- Between the two states the inputs stayed, or a mark was made. -/
structure Accounts (db db' : Database) : Prop where
  marked : Marked db db'
  inputs : SameInputs db db' ∨ db.cursor.dirtyGeneration < db'.cursor.dirtyGeneration

instance : Std.Refl Accounts := ⟨fun _ => ⟨Std.Refl.refl _, .inl (Std.Refl.refl _)⟩⟩

instance : IsTrans Database Accounts where
  trans _ _ _ h h' := by
    refine ⟨IsTrans.trans _ _ _ h.marked h'.marked, ?_⟩
    rcases h.inputs with hsame | hlt
    · rcases h'.inputs with hsame' | hlt'
      · exact .inl (IsTrans.trans _ _ _ hsame hsame')
      · exact .inr (lt_of_le_of_lt h.marked.dirty_le hlt')
    · exact .inr (lt_of_lt_of_le hlt h'.marked.dirty_le)

section accounts

variable {α β : Type} {ts : List Table}

/-- The tables the inputs and the cursor live in. -/
def policyTables : List Table := [.repositories, .backupPolicies, .backupPolicyPublicationCursor]

theorem accounts_of_rows {db db' : Database} (h : ∀ t ∈ policyTables, db'.rows t = db.rows t) :
    Accounts db db' :=
  ⟨marked_of_cursor_eq (h .backupPolicyPublicationCursor (by decide)),
    .inl (sameInputs_of_eq (h .backupPolicies (by decide)) (h .repositories (by decide)))⟩

theorem relates_accounts_of_touches {x : Tx α} (h : Touches ts x)
    (ht : ∀ t ∈ policyTables, t ∉ ts) : Tx.Relates Accounts x :=
  Tx.Relates.mono h fun _ _ hagree => accounts_of_rows fun t hmem => hagree t (ht t hmem)

theorem relates_accounts_upsertRepository (fresh : Uuid) (pid : ℤ) :
    Tx.Relates Accounts (upsertRepositoryInTx fresh pid) := by
  intro c id c' h
  exact ⟨relates_marked_of_touches (touches_upsertRepositoryInTx fresh pid) (by decide) _ _ _ h,
    .inl (relates_sameInputs_upsertRepository fresh pid _ _ _ h)⟩

/-- Marking after whatever was done accounts for it. -/
theorem accounts_of_mark {now : Time} {db : Database} {c c' : Catalog} {u : Unit}
    (hbefore : Marked db c.tables) (h : markBackupPolicyDirtyInTx now c = .ok (u, c')) :
    Accounts db c'.tables := by
  have hmark : Marked c.tables c'.tables ∧
      c.tables.cursor.dirtyGeneration < c'.tables.cursor.dirtyGeneration :=
    marked_of_mark (by rw [markBackupPolicyDirtyInTx_eq h])
  exact ⟨IsTrans.trans _ _ _ hbefore hmark.1, .inr (lt_of_le_of_lt hbefore.dirty_le hmark.2)⟩

/-- A mode set and marked is accounted for. -/
theorem relates_accounts_setMode (now : Time) (r : Uuid) (mode : RepositoryMode) :
    Tx.Relates Accounts (setMode r mode >>= fun _ => markBackupPolicyDirtyInTx now) := by
  intro c u c' h
  obtain ⟨⟨⟩, c₁, h₁, h₂⟩ := Tx.bind_eq_ok.mp h
  have hbefore := relates_marked_of_touches (touches_setMode r mode) (by decide) _ _ _ h₁
  exact accounts_of_mark hbefore h₂

theorem relates_accounts_trackRepository (fresh : Uuid) (now : Time) (pid : ℤ) :
    Tx.Relates Accounts (trackRepository fresh now pid) := by
  refine Tx.Relates.bind (relates_accounts_upsertRepository _ _) fun r => ?_
  refine Tx.Relates.bind (relates_fetchOne _) fun mode => ?_
  split
  · exact Tx.Relates.pure _
  · intro c out c' h
    obtain ⟨⟨⟩, c₁, h₁, h₂⟩ := Tx.bind_eq_ok.mp h
    obtain ⟨⟨⟩, c₂, hmark, h₃⟩ := Tx.bind_eq_ok.mp h₂
    obtain ⟨-, rfl⟩ := Tx.pure_eq_ok.mp h₃
    exact relates_accounts_setMode now r .tracked c () c₂
      (Tx.bind_eq_ok.mpr ⟨(), c₁, h₁, hmark⟩)

theorem relates_accounts_setRepositoryModeInTx (ids : ℕ → Uuid) (now : Time)
    (context : MutationContext) (pid : ℤ) (requested : RequestedMode) (key : String) :
    Tx.Relates Accounts (setRepositoryModeInTx ids now context pid requested key) := by
  refine Tx.Relates.bind (relates_accounts_upsertRepository _ _) fun r => ?_
  refine Tx.Relates.bind (relates_fetchOne _) fun current =>
    Tx.Relates.bind (relates_select _) fun starred => ?_
  cases validateMode requested starred with
  | some reason =>
    exact Tx.Relates.bind
      (relates_accounts_of_touches (touches_insertAuditRow _) (by decide)) fun _ => Tx.Relates.pure _
  | none =>
    refine Tx.Relates.bind (relates_onlyIf (relates_accounts_setMode now r requested.mode))
      fun _ => ?_
    exact Tx.Relates.bind
      (relates_accounts_of_touches (touches_insertAuditRow _) (by decide)) fun _ =>
      relates_accounts_of_touches (touches_finishWithReplayGuard _ _) (by decide)

/-- An erasure that collects nothing leaves the inputs alone, and one that collects marks. -/
theorem accounts_erased {now : Time} {owner : String} {db : Database} (hrefs : ForeignKeys db) :
    Accounts db (erased now owner db) := by
  have hcursor := @erased_cursor now owner db
  by_cases hsame : (erased now owner db).repositories = db.repositories
  · rw [if_pos hsame] at hcursor
    refine ⟨marked_of_cursor_eq hcursor, .inl (sameInputs_of_eq ?_ hsame)⟩
    have hpolicies : (erased now owner db).backupPolicies = db.backupPolicies.filter fun p =>
        (erased now owner db).hasRepository p.repositoryId := children_eq now hrefs.policies_repository
    rw [hpolicies, List.filter_eq_self]
    intro p hp
    obtain ⟨r, hr, hid⟩ := List.mem_map.mp (hrefs.policies_repository p hp _ rfl)
    rw [Database.hasRepository, hsame, List.any_eq_true]
    exact ⟨r, hr, decide_eq_true hid⟩
  · rw [if_neg hsame] at hcursor
    have hmark := marked_of_mark hcursor
    exact ⟨hmark.1, .inr hmark.2⟩

theorem relates_accounts_eraseAccountInTx (now : Time) (owner : String)
    (operation : AccountErasureOperation) :
    Tx.Relates Accounts (eraseAccountInTx now owner operation) := by
  refine Tx.Relates.bind ?_ fun _ => Tx.Relates.bind (relates_require _ _) fun _ =>
    relates_accounts_of_touches (Touches.write (List.mem_singleton.mpr rfl) _) (by decide)
  intro c u c' h
  rw [eraseOwnerState_eq h]
  exact accounts_erased c.valid.foreignKeys

end accounts

/-! ### Steps that move modes without a mark -/

theorem Repository.promote_eq_self {r : Repository} (h : r.mode ≠ none) : r.promote = r :=
  if_neg h

theorem Repository.release_eq_self {r : Repository} (h : r.mode ≠ some .auto) : r.release = r :=
  if_neg h

theorem sameInputs_of_recordIngest {observationId : Uuid} {now : Time}
    {runId account repository : Uuid} {seenAt : Time} {c c' : Catalog} {u : Unit}
    (h : recordIngest observationId now runId account repository seenAt c = .ok (u, c'))
    (hguard : Operation.changesGovernance c.tables
      (.recordIngest observationId now runId account repository seenAt) = false) :
    SameInputs c.tables c'.tables := by
  have hpolicies : c'.tables.backupPolicies = c.tables.backupPolicies :=
    (touches_recordIngest _ _ _ _ _ _).rows_eq h (t := .backupPolicies) (by decide)
  refine sameInputs_of_map hpolicies (recordIngest_spec h).1 ?_ ?_
  · intro r
    split
    · exact r.promote_repositoryId
    · rfl
  · intro r hr hlevel
    split
    · next hid =>
      apply Repository.promote_eq_self
      intro hmode
      have hfree := List.any_eq_false.mp hguard r hr
      rw [← of_decide_eq_true hid] at hfree
      simp [hlevel, hmode] at hfree
    · rfl

theorem sameInputs_of_applyAuthority {ids unstarIds : ℕ → Uuid} {now : Time} {runId account : Uuid}
    {c c' : Catalog} {counts : ℕ × ℕ × ℕ × ℕ}
    (h : applyAuthorityAndComplete ids unstarIds now runId account c = .ok (counts, c'))
    (hguard : Operation.changesGovernance c.tables
      (.applyAuthority ids unstarIds now runId account) = false) :
    SameInputs c.tables c'.tables := by
  have hpolicies : c'.tables.backupPolicies = c.tables.backupPolicies :=
    (touches_applyAuthorityAndComplete _ _ _ _ _).rows_eq h (t := .backupPolicies) (by decide)
  refine sameInputs_of_map hpolicies (applyAuthority_spec h).1 ?_ ?_
  · intro r
    exact r.reconciled_repositoryId _ _
  · intro r hr hlevel
    have hfree := List.any_eq_false.mp hguard r hr
    simp only [hlevel, Bool.true_and] at hfree
    unfold Repository.reconciled
    split
    · next hstaged =>
      apply Repository.promote_eq_self
      intro hmode
      simp [hmode, hstaged] at hfree
    · next hstaged =>
      split
      · next hstarred =>
        apply Repository.release_eq_self
        intro hmode
        simp [hmode, hstarred, hstaged] at hfree
      · rfl

theorem StarDirection.adjust_eq_self {direction : StarDirection} {r : Repository}
    (h : direction.moves r.mode = false) : direction.adjust r = r := by
  cases direction with
  | add => exact Repository.promote_eq_self (of_decide_eq_false h)
  | remove => exact Repository.release_eq_self (of_decide_eq_false h)

theorem StarDirection.adjust_repositoryId (direction : StarDirection) (r : Repository) :
    (direction.adjust r).repositoryId = r.repositoryId := by
  cases direction with
  | add => exact r.promote_repositoryId
  | remove => exact r.release_repositoryId

/-- A confirmed write that was not new keeps the inputs where it moves no mirrored mode. -/
theorem sameInputs_of_replayedStar {ids : ℕ → Uuid} {now : Time} {context : MutationContext}
    {pid : ℤ} {key : String} {direction : StarDirection} {c c' : Catalog} {repository : Uuid}
    (hguard : Operation.changesGovernance c.tables
      (.persistConfirmedStar ids now context pid key direction) = false)
    (hrow : ∃ r ∈ catalogued (ids 0) pid c.tables.repositories,
      r.providerRepositoryId = pid ∧ r.repositoryId = repository)
    (hrepos : c'.tables.repositories =
      updateWhere (fun r => decide (r.repositoryId = repository)) direction.adjust
        (catalogued (ids 0) pid c.tables.repositories))
    (hpolicies : c'.tables.backupPolicies = c.tables.backupPolicies)
    (hold : newlyApplied direction context.accountId repository c.tables = false) :
    SameInputs c.tables c'.tables := by
  obtain ⟨r, hr, hpid, rfl⟩ := hrow
  cases hknown : c.tables.repositories.any fun r => decide (r.providerRepositoryId = pid) with
  | true =>
    have hlist : catalogued (ids 0) pid c.tables.repositories = c.tables.repositories :=
      if_pos hknown
    rw [hlist] at hr hrepos
    refine sameInputs_of_map hpolicies hrepos ?_ ?_
    · intro q
      split
      · exact direction.adjust_repositoryId q
      · rfl
    · intro q hq hlevel
      split
      · next hid =>
        have hsame : q = r := c.valid.keys.repositories.eq_of_mem hq hr (of_decide_eq_true hid)
        subst hsame
        apply StarDirection.adjust_eq_self
        have hfree := List.any_eq_false.mp hguard q hq
        simpa [hlevel, hpid, hold] using hfree
      · rfl
  | false =>
    have hunique := c'.valid.keys.repositories
    rw [hrepos, UniqueOn, map_updateWhere direction.adjust_repositoryId] at hunique
    obtain ⟨hlist, hfresh⟩ := fresh_of_catalogued hunique hknown
    -- The row of a provider id the catalog did not know is the one just inserted.
    have hnew : r = ⟨ids 0, pid, none⟩ := by
      rw [hlist] at hr
      rcases List.mem_append.mp hr with hmem | hmem
      · exact absurd (decide_eq_true hpid) (List.any_eq_false.mp hknown r hmem)
      · exact List.mem_singleton.mp hmem
    subst hnew
    cases direction with
    | add =>
      rw [newlyApplied, Bool.not_eq_false'] at hold
      exact absurd (mem_of_starredBy c.valid.foreignKeys hold) hfresh
    | remove =>
      have hsame : c'.tables.repositories = c.tables.repositories ++ [⟨ids 0, pid, none⟩] := by
        rw [hrepos, hlist, updateWhere, List.map_append]
        congr 1
        · have hfixed : ∀ q ∈ c.tables.repositories, (if decide (q.repositoryId = ids 0) then
              StarDirection.remove.adjust q else q) = id q := by
            intro q hq
            apply if_neg
            intro hid
            exact hfresh (List.mem_map.mpr ⟨q, hq, of_decide_eq_true hid⟩)
          rw [List.map_congr_left hfixed, List.map_id]
        · simp [StarDirection.adjust, Repository.release]
      apply sameInputs_of_filter hpolicies
      rw [hsame, List.filter_append, Database.selected]
      exact List.append_nil _

/-- A confirmed write accounts for its change where it moves no mirrored mode unmarked. -/
theorem accounts_of_persistConfirmedStar {ids : ℕ → Uuid} {now : Time} {context : MutationContext}
    {pid : ℤ} {key : String} {direction : StarDirection} {c c' : Catalog} {status : MutationStatus}
    (h : persistConfirmedStar ids now context pid key direction c = .ok (status, c'))
    (hguard : Operation.changesGovernance c.tables
      (.persistConfirmedStar ids now context pid key direction) = false) :
    Accounts c.tables c'.tables := by
  have hpolicies : c'.tables.backupPolicies = c.tables.backupPolicies :=
    (touches_persistConfirmedStar _ _ _ _ _ _).rows_eq h (t := .backupPolicies) (by decide)
  obtain ⟨repository, hrow, hrepos, -, hcursor⟩ := persistConfirmedStar_spec h
  cases hisNew : newlyApplied direction context.accountId repository c.tables with
  | true =>
    rw [hisNew, if_pos rfl] at hcursor
    have hmark := marked_of_mark hcursor
    exact ⟨hmark.1, .inr hmark.2⟩
  | false =>
    rw [hisNew, if_neg Bool.false_ne_true] at hcursor
    exact ⟨marked_of_cursor_eq hcursor,
      .inl (sameInputs_of_replayedStar hguard hrow hrepos hpolicies hisNew)⟩

/-! ### Whole histories -/

theorem accounts_of_leaves {k : Contracts} {c : Catalog} {op : Operation}
    (h : policyTables.all op.leaves = true) : Accounts c.tables (op.commit k c).tables :=
  accounts_of_rows fun t ht => op.rows_commit k c t (List.all_eq_true.mp h t ht)

/-- An operation that changes no input unmarked keeps the inputs or makes a mark. -/
theorem Operation.commit_inputs (k : Contracts) (c : Catalog) (op : Operation)
    (hop : ∀ now commandId, op ≠ .publishDue now commandId)
    (hguard : op.changesGovernance c.tables = false) :
    loadInputs (op.commit k c).tables = loadInputs c.tables ∨
      c.tables.cursor.dirtyGeneration < (op.commit k c).tables.cursor.dirtyGeneration := by
  suffices haccounts : (∀ rows, op ≠ .editBackupPolicies rows) →
      Accounts c.tables (op.commit k c).tables by
    by_cases hedit : ∃ rows, op = .editBackupPolicies rows
    · obtain ⟨rows, rfl⟩ := hedit
      left
      have hsame : loadInputs { c.tables with backupPolicies := rows } = loadInputs c.tables := by
        simpa [changesGovernance] using hguard
      rcases Tx.commit_cases (GithubCatalog.editBackupPolicies rows) c with ⟨u, h⟩ | h
      · rw [GithubCatalog.editBackupPolicies, write_eq_ok] at h
        exact (congrArg loadInputs h).trans hsame
      · exact congrArg (fun d : Catalog => loadInputs d.tables) h
    · exact (haccounts fun rows heq => hedit ⟨rows, heq⟩).inputs.imp
        SameInputs.loadInputs_eq id
  intro hedit
  cases op with
  | publishDue now commandId => exact absurd rfl (hop now commandId)
  | editBackupPolicies rows => exact absurd rfl (hedit rows)
  | applyAuthority =>
    refine Tx.relates_commit fun _ _ h => ⟨?_, .inl (sameInputs_of_applyAuthority h hguard)⟩
    exact relates_marked_of_touches (touches_applyAuthorityAndComplete _ _ _ _ _) (by decide) _ _ _ h
  | recordIngest =>
    refine Tx.relates_commit fun _ _ h => ⟨?_, .inl (sameInputs_of_recordIngest h hguard)⟩
    exact relates_marked_of_touches (touches_recordIngest _ _ _ _ _ _) (by decide) _ _ _ h
  | persistConfirmedStar =>
    exact Tx.relates_commit fun _ _ h => accounts_of_persistConfirmedStar h hguard
  | upsertRepository => exact (relates_accounts_upsertRepository _ _).commit c
  | applyAliasObservation =>
    refine Tx.Relates.commit (relates_applyAliasObservation _ _ _ _ _ _
      (relates_accounts_upsertRepository _ _) ?_) c
    intro α x hx
    exact relates_accounts_of_touches hx (by decide)
  | recordAttempt =>
    refine Tx.Relates.commit (relates_recordAttempt _ _ _ _ _ _ _
      (relates_accounts_upsertRepository _ _) ?_) c
    intro row _
    exact relates_accounts_of_touches (touches_insertAuditRow row) (by decide)
  | persistListMembership =>
    refine Tx.Relates.commit (relates_persistListMembership _ _ _ _ _ _ _ _
      (relates_accounts_upsertRepository _ _) ?_ ?_) c
    · intro r
      exact relates_accounts_of_touches (touches_convergeMembershipProjection _ _ _ _) (by decide)
    · intro row _
      exact relates_accounts_of_touches (touches_insertAuditRow row) (by decide)
  | trackRepository => exact (relates_accounts_trackRepository _ _ _).commit c
  | setRepositoryMode => exact (relates_accounts_setRepositoryModeInTx _ _ _ _ _ _).commit c
  | importLegacy =>
    refine Tx.Relates.commit (relates_importLegacyTransaction _ _ _ _ _ ?_ ?_ ?_) c
    · intro fresh owner i
      exact relates_accounts_of_touches (touches_createLegacyAccount _ _ _) (by decide)
    · intro α x hx
      exact relates_accounts_of_touches hx (by decide)
    · intro p _ account c c' counts _ h
      refine relates_importNewLegacyRepository _ _ _ _ _ (relates_accounts_upsertRepository _ _)
        ?_ ?_ _ _ _ h
      · intro r observedAt
        exact relates_accounts_of_touches (touches_importLegacyStar _ _ _ _) (by decide)
      · intro α x hx
        exact relates_accounts_of_touches hx (by decide)
  | markDirty now =>
    refine Tx.Relates.commit ?_ c
    intro c₁ u c₂ h
    exact accounts_of_mark (Std.Refl.refl _) h
  | eraseAccount => exact (relates_accounts_eraseAccountInTx _ _ _).commit c
  | _ => exact accounts_of_leaves rfl

/-- A step keeps the invariant when it finds a mark pending or changes no input unmarked. -/
theorem policyAccounted_commit (k : Contracts) (c : Catalog) (op : Operation)
    (h : PolicyAccounted c.tables)
    (hguard : c.tables.dirty = true ∨ op.changesGovernance c.tables = false) :
    PolicyAccounted (op.commit k c).tables := by
  by_cases hop : ∃ now commandId, op = .publishDue now commandId
  · obtain ⟨now, commandId, rfl⟩ := hop
    show PolicyAccounted ((publishDueBackupPolicy k now commandId).commit c).tables
    rcases Tx.commit_cases (publishDueBackupPolicy k now commandId) c with ⟨out, hok⟩ | hsame
    · have hframe := touches_publishDueBackupPolicy k now commandId
      have hinputs : loadInputs ((publishDueBackupPolicy k now commandId).commit c).tables =
          loadInputs c.tables :=
        (sameInputs_of_eq (hframe.rows_eq hok (t := .backupPolicies) (by decide))
          (hframe.rows_eq hok (t := .repositories) (by decide))).loadInputs_eq
      intro inputs hload hne
      rw [hinputs] at hload
      rcases publishDue_cases hok with ⟨-, hstate⟩ | ⟨-, inputs', hload', ⟨-, hstate⟩ | hnew⟩
      · rw [hstate] at hne ⊢
        exact h inputs hload hne
      · rw [hload] at hload'
        cases hload'
        rw [hstate] at hne
        exact absurd rfl hne
      · obtain ⟨-, last, policy, envelope, -, -, -, -, hstate⟩ := hnew
        rw [hload] at hload'
        cases hload'
        rw [hstate] at hne
        exact absurd rfl hne
    · rw [hsame]
      exact h
  · have hother : ∀ now commandId, op ≠ .publishDue now commandId :=
      fun now commandId heq => hop ⟨now, commandId, heq⟩
    have hmarked := op.commit_marked k c hother
    intro inputs hload hne
    rcases hguard with hdirty | hguard
    · exact hmarked.dirty hdirty
    · rcases op.commit_inputs k c hother hguard with hsame | hlt
      · rw [hsame] at hload
        apply hmarked.dirty
        apply h inputs hload
        rwa [Database.settledFingerprint, ← hmarked.fingerprint]
      · have hcheck := cursor_check c.valid.checks
        simp only [BackupPolicyPublicationCursor.check, Bool.and_eq_true, decide_eq_true_eq] at hcheck
        apply decide_eq_true
        rw [hmarked.published]
        exact lt_of_le_of_lt hcheck.1.1.1 hlt

/-- What a step has to meet for the marks to stay complete. -/
def MarksComplete (c : Catalog) (op : Operation) : Prop :=
  c.tables.dirty = true ∨ op.changesGovernance c.tables = false

/-- **Pending marks cover every change.**  In every history whose steps change a policy input only
with a mark pending or made, every state's inputs are settled or have a mark pending. -/
theorem policyAccounted_throughout (k : Contracts) (history : List Operation)
    (h : Runs.Guarded (step k) MarksComplete emptyCatalog history) :
    Runs.Throughout (step k) (fun c => PolicyAccounted c.tables) emptyCatalog history := by
  refine Runs.throughout_of_guarded ?_ ?_ h
  · intro c op hc hguard
    unfold step
    split
    · exact policyAccounted_commit k c op hc hguard
    · exact hc
  · intro inputs hload hne
    cases hload
    exact absurd rfl hne

/-! ### An unmarked change -/

/-- An incremental scan of account 1 ingests one repository new to the catalog. -/
def ingestHistory : List Operation :=
  connectOwners ++ [.openRun .incremental 10 1 0, .upsertRepository 1 101,
    .recordIngest 20 0 10 1 1 1000000]

/-- **An ingested star is never announced**: the repository is governed, and no mark is pending. -/
theorem unmarked_ingest :
    ¬ PolicyAccounted (Runs.runFrom (step sampleContracts) emptyCatalog ingestHistory).tables := by
  intro h
  have hdirty := h [trackedInput] (by decide +kernel) (by decide +kernel)
  exact absurd hdirty (by decide +kernel)

/-- The same history with a mark pending before the scan. -/
theorem policyAccounted_throughout_marked :
    Runs.Throughout (step sampleContracts) (fun c => PolicyAccounted c.tables) emptyCatalog
      (connectOwners ++ [.markDirty 0, .openRun .incremental 10 1 0, .upsertRepository 1 101,
        .recordIngest 20 0 10 1 1 1000000]) := by
  apply policyAccounted_throughout
  simp only [Runs.Guarded, connectOwners, List.cons_append, List.nil_append]
  refine ⟨.inr rfl, .inr rfl, .inr rfl, .inr rfl, .inr rfl, .inr rfl, .inl ?_, trivial⟩
  decide +kernel

end GithubCatalog
