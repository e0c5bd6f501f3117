import GithubCatalog.Catalog

/-!
# What writes the `repositories` table

Four statements write repositories while the service runs: a provider id is catalogued, star evidence
promotes a mode, its removal releases one, and a mode request sets one.  Only an erasure deletes rows.
A relation that these statements keep is kept by every operation.

* `KeptByCataloguing` - the relation is kept by the statements of the star flows;
* `Operation.commit_of_kept` - every operation but mode requests and erasures keeps it;
* `Operation.commit_keepsIdentity` - the repository behind a provider id never changes.
-/

namespace GithubCatalog

open Relational Transact

/-- A relation that holds across other tables, and that cataloguing and the star evidence keep. -/
structure KeptByCataloguing (R : Database → Database → Prop) : Prop where
  frame : ∀ {db db' : Database}, db'.repositories = db.repositories → R db db'
  upsert : ∀ fresh pid, Tx.Relates R (upsertRepositoryInTx fresh pid)
  promote : ∀ p : Database → Repository → Bool, Tx.Relates R
    (write .repositories fun db => updateWhere (p db) Repository.promote db.repositories)
  release : ∀ p : Database → Repository → Bool, Tx.Relates R
    (write .repositories fun db => updateWhere (p db) Repository.release db.repositories)

namespace KeptByCataloguing

variable {R : Database → Database → Prop} [Std.Refl R] [IsTrans Database R]

omit [Std.Refl R] [IsTrans Database R] in
theorem of_touches (h : KeptByCataloguing R) {α : Type} {ts : List Table} {x : Tx α}
    (hx : Touches ts x) (ht : .repositories ∉ ts) : Tx.Relates R x :=
  Tx.Relates.mono hx fun _ _ hagree => h.frame (hagree _ ht)

omit [Std.Refl R] [IsTrans Database R] in
theorem write (h : KeptByCataloguing R) {t : Table} (f : Database → t.Rows) (ht : .repositories ≠ t) :
    Tx.Relates R (GithubCatalog.write t f) :=
  h.of_touches (Touches.write (List.mem_singleton.mpr rfl) f) fun hmem =>
    ht (List.mem_singleton.mp hmem)

omit [Std.Refl R] in
theorem applyStarProjection (h : KeptByCataloguing R) (now : Time) (account repository : Uuid)
    (direction : StarDirection) :
    Tx.Relates R (GithubCatalog.applyStarProjection now account repository direction) := by
  cases direction with
  | add =>
    exact (h.write _ (by decide)).bind fun _ =>
      h.promote fun _ r => decide (r.repositoryId = repository)
  | remove =>
    exact (h.write _ (by decide)).bind fun _ =>
      h.release fun _ r => decide (r.repositoryId = repository)

theorem persistConfirmedStar (h : KeptByCataloguing R) (ids : ℕ → Uuid) (now : Time)
    (context : MutationContext) (pid : ℤ) (key : String) (direction : StarDirection) :
    Tx.Relates R (GithubCatalog.persistConfirmedStar ids now context pid key direction) := by
  refine (h.upsert _ _).bind fun r => ?_
  refine Tx.Relates.bind (relates_select _) fun isNew => ?_
  refine (h.applyStarProjection _ _ _ _).bind fun _ => ?_
  refine Tx.Relates.bind (relates_onlyIf ?_) fun _ => ?_
  · exact h.of_touches (touches_markBackupPolicyDirtyInTx now) (by decide)
  · exact (h.of_touches (touches_insertAuditRow _) (by decide)).bind fun _ =>
      relates_finishWithReplayGuard _ _

omit [Std.Refl R] in
theorem recordIngest (h : KeptByCataloguing R) (observationId : Uuid) (now : Time)
    (runId account repository : Uuid) (seenAt : Time) :
    Tx.Relates R (GithubCatalog.recordIngest observationId now runId account repository seenAt) :=
  (h.write _ (by decide)).bind fun _ => (h.write _ (by decide)).bind fun _ =>
    h.promote fun _ r => decide (r.repositoryId = repository)

theorem promoteSeenRepositories (h : KeptByCataloguing R) (now : Time) (runId account : Uuid) :
    Tx.Relates R (GithubCatalog.promoteSeenRepositories now runId account) :=
  (relates_require _ _).bind fun _ => (h.write _ (by decide)).bind fun _ =>
    h.promote fun db r => stagedIn runId r.providerRepositoryId db

omit [Std.Refl R] in
theorem recordUnstar (h : KeptByCataloguing R) (observationId : Uuid) (now : Time)
    (runId account repository : Uuid) :
    Tx.Relates R (GithubCatalog.recordUnstar observationId now runId account repository) :=
  (h.write _ (by decide)).bind fun _ => (h.write _ (by decide)).bind fun _ =>
    h.release fun _ r => decide (r.repositoryId = repository)

/-- The unstarring loop, one release after the other. -/
theorem unstarAbsentRepositories (h : KeptByCataloguing R) (ids : ℕ → Uuid) (now : Time)
    (runId account : Uuid) :
    Tx.Relates R (GithubCatalog.unstarAbsentRepositories ids now runId account) := by
  refine Tx.Relates.bind (relates_select _) fun absent => ?_
  refine (h.write _ (by decide)).bind fun _ => ?_
  refine Tx.Relates.bind ?_ fun _ => Tx.Relates.pure _
  exact Tx.Relates.forM (fun p => h.recordUnstar _ _ _ _ _) _

theorem applyAuthority (h : KeptByCataloguing R) (ids unstarIds : ℕ → Uuid) (now : Time)
    (runId account : Uuid) :
    Tx.Relates R (applyAuthorityAndComplete ids unstarIds now runId account) := by
  refine Tx.Relates.bind (relates_select _) fun additions => ?_
  refine (h.write _ (by decide)).bind fun _ => ?_
  refine (h.write _ (by decide)).bind fun _ => ?_
  refine (h.promoteSeenRepositories _ _ _).bind fun _ => ?_
  refine (h.unstarAbsentRepositories _ _ _ _).bind fun unstars => ?_
  refine (h.write _ (by decide)).bind fun _ => ?_
  refine (h.write _ (by decide)).bind fun _ => ?_
  exact (h.of_touches (touches_completeRunRow _ _ _ _) (by decide)).bind fun _ => Tx.Relates.pure _

theorem importLegacy (h : KeptByCataloguing R) (accountIds : ℤ → Uuid) (ids : ℕ → ℕ → Uuid)
    (now : Time) (request : LegacyImportRequest) (importRunId : Uuid) :
    Tx.Relates R (importLegacyTransaction accountIds ids now request importRunId) := by
  refine relates_importLegacyTransaction accountIds ids now request importRunId ?_ ?_ ?_
  · intro fresh owner integration
    exact h.of_touches (touches_createLegacyAccount _ _ _) (by decide)
  · intro α x hx
    exact h.of_touches hx (by decide)
  · intro p _ account c c' counts _ hok
    refine relates_importNewLegacyRepository _ _ _ _ _ (h.upsert _ _) ?_ ?_ c counts c' hok
    · intro r observedAt
      exact h.of_touches (touches_importLegacyStar _ _ _ _) (by decide)
    · intro α x hx
      exact h.of_touches hx (by decide)

theorem trackRepository (h : KeptByCataloguing R) (hmode : ∀ r mode, Tx.Relates R (setMode r mode))
    (fresh : Uuid) (now : Time) (pid : ℤ) :
    Tx.Relates R (GithubCatalog.trackRepository fresh now pid) := by
  refine (h.upsert _ _).bind fun r => ?_
  refine Tx.Relates.bind (relates_fetchOne _) fun mode => ?_
  split
  · exact Tx.Relates.pure _
  · exact (hmode r _).bind fun _ =>
      (h.of_touches (touches_markBackupPolicyDirtyInTx now) (by decide)).bind fun _ =>
      Tx.Relates.pure _

theorem setRepositoryModeInTx (h : KeptByCataloguing R)
    (hmode : ∀ r mode, Tx.Relates R (setMode r mode)) (ids : ℕ → Uuid) (now : Time)
    (context : MutationContext) (pid : ℤ) (requested : RequestedMode) (key : String) :
    Tx.Relates R (GithubCatalog.setRepositoryModeInTx ids now context pid requested key) := by
  refine (h.upsert _ _).bind fun r => ?_
  refine Tx.Relates.bind (relates_fetchOne _) fun current =>
    Tx.Relates.bind (relates_select _) fun starred => ?_
  cases validateMode requested starred with
  | some reason =>
    exact (h.of_touches (touches_insertAuditRow _) (by decide)).bind fun _ => Tx.Relates.pure _
  | none =>
    refine Tx.Relates.bind (relates_onlyIf ?_) fun _ => ?_
    · exact (hmode r _).bind fun _ =>
        h.of_touches (touches_markBackupPolicyDirtyInTx now) (by decide)
    · exact (h.of_touches (touches_insertAuditRow _) (by decide)).bind fun _ =>
        relates_finishWithReplayGuard _ _

end KeptByCataloguing

namespace Operation

/-- The two functions that serve mode requests. -/
def decidesMode : Operation → Bool
  | .trackRepository .. | .setRepositoryMode .. => true
  | _ => false

variable {R : Database → Database → Prop} [Std.Refl R] [IsTrans Database R]

/-- **The rule of the repositories table.**  What cataloguing and the star evidence keep is kept by
every operation but mode requests and erasures. -/
theorem commit_of_kept (h : KeptByCataloguing R) (k : Contracts) (c : Catalog) (op : Operation)
    (hmode : op.decidesMode = false) (herase : op.erases = false) :
    R c.tables (op.commit k c).tables := by
  have haudit : ∀ row, Tx.Relates R (insertAuditRow row) := fun row =>
    h.of_touches (touches_insertAuditRow row) (by decide)
  cases op with
  | trackRepository => cases hmode
  | setRepositoryMode => cases hmode
  | eraseAccount => cases herase
  | upsertRepository => exact (h.upsert _ _).commit c
  | applyAliasObservation =>
    refine Tx.Relates.commit (relates_applyAliasObservation _ _ _ _ _ _ (h.upsert _ _) ?_) c
    intro α x hx
    exact h.of_touches hx (by decide)
  | applyAuthority => exact (h.applyAuthority _ _ _ _ _).commit c
  | recordIngest => exact (h.recordIngest _ _ _ _ _ _).commit c
  | recordAttempt =>
    exact Tx.Relates.commit (relates_recordAttempt _ _ _ _ _ _ _ (h.upsert _ _)
      fun row _ => haudit row) c
  | persistConfirmedStar => exact (h.persistConfirmedStar _ _ _ _ _ _).commit c
  | persistListMembership =>
    exact Tx.Relates.commit (relates_persistListMembership _ _ _ _ _ _ _ _ (h.upsert _ _)
      (fun _ => h.write _ (by decide)) fun row _ => haudit row) c
  | importLegacy => exact (h.importLegacy _ _ _ _ _).commit c
  | _ => exact h.frame (rows_commit k c _ .repositories rfl)

/-- The same with mode requests, when the relation is kept by the statement that sets a mode. -/
theorem commit_of_kept_modes (h : KeptByCataloguing R)
    (hmode : ∀ r mode, Tx.Relates R (setMode r mode)) (k : Contracts) (c : Catalog) (op : Operation)
    (herase : op.erases = false) : R c.tables (op.commit k c).tables := by
  cases op with
  | trackRepository => exact (h.trackRepository hmode _ _ _).commit c
  | setRepositoryMode => exact (h.setRepositoryModeInTx hmode _ _ _ _ _ _).commit c
  | eraseAccount => cases herase
  | _ => exact commit_of_kept h k c _ rfl rfl

end Operation

/-! ### Stable identity -/

/-- Every repository is still the one behind its provider id. -/
def KeepsIdentity (db db' : Database) : Prop :=
  ∀ q ∈ db.repositories, ∃ q' ∈ db'.repositories,
    q'.repositoryId = q.repositoryId ∧ q'.providerRepositoryId = q.providerRepositoryId

instance : Std.Refl KeepsIdentity := ⟨fun _ q hq => ⟨q, hq, rfl, rfl⟩⟩

instance : IsTrans Database KeepsIdentity := by
  refine ⟨fun _ _ _ h h' q hq => ?_⟩
  obtain ⟨q', hq', hid, hpid⟩ := h q hq
  obtain ⟨q'', hq'', hid', hpid'⟩ := h' q' hq'
  exact ⟨q'', hq'', hid'.trans hid, hpid'.trans hpid⟩

/-- An update of modes. -/
theorem relates_keepsIdentity_update (p : Database → Repository → Bool)
    {f : Repository → Repository}
    (hf : ∀ r, (f r).repositoryId = r.repositoryId ∧
      (f r).providerRepositoryId = r.providerRepositoryId) :
    Tx.Relates KeepsIdentity
      (write .repositories fun db => updateWhere (p db) f db.repositories) := by
  apply relates_write
  intro db _ q hq
  refine ⟨_, mem_updateWhere.mpr ⟨q, hq, rfl⟩, ?_⟩
  split
  · exact hf q
  · exact ⟨rfl, rfl⟩

theorem keptByCataloguing_keepsIdentity : KeptByCataloguing KeepsIdentity where
  frame h q hq := ⟨q, h ▸ hq, rfl, rfl⟩
  upsert fresh pid := by
    refine Tx.Relates.bind (relates_write ?_) fun _ => relates_fetchOne _
    intro db _ q hq
    refine ⟨q, ?_, rfl, rfl⟩
    show q ∈ insertUnless _ _ db.repositories
    unfold insertUnless
    split
    · exact hq
    · exact List.mem_append_left _ hq
  promote p := relates_keepsIdentity_update p fun r => by simp
  release p := relates_keepsIdentity_update p fun r => by simp

/-- **The identity behind a provider id is stable.** -/
theorem Operation.commit_keepsIdentity (k : Contracts) (c : Catalog) (op : Operation)
    (herase : op.erases = false) : KeepsIdentity c.tables (op.commit k c).tables :=
  commit_of_kept_modes keptByCataloguing_keepsIdentity
    (fun _ _ => relates_keepsIdentity_update _ fun _ => ⟨rfl, rfl⟩) k c op herase

end GithubCatalog
