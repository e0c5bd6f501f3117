import GithubCatalog.Catalog
import GithubCatalog.ErasureFrame

/-!
# What the operations do to the policy cursor and to its inputs

Every operation except a publication leaves the settled part of the cursor alone and can only raise
its dirty generation.  The inputs of the policy change only with the governed repositories and with
`backup_policies`.

* `Database.cursor`, `Database.dirty` - the cursor row with its defaults, and whether marks are
  pending;
* `Marked` - only marks were made between two states;
* `SameInputs` - the two states select the same repositories with the same policies;
* `Operation.commit_marked` - every operation except a publication is `Marked`.
-/

namespace GithubCatalog

open Relational Transact

namespace Database

/-- The cursor row, or the row its first writer inserts. -/
def cursor (db : Database) : BackupPolicyPublicationCursor :=
  db.backupPolicyPublicationCursor.getD {}

/-- `dirty_generation > published_generation`. -/
def dirty (db : Database) : Bool := decide (db.cursor.publishedGeneration < db.cursor.dirtyGeneration)

/-- The repositories `load_inputs` selects, in table order. -/
def selected (db : Database) : List Repository :=
  db.repositories.filter fun r => r.governed && mirrorLevel db r.repositoryId

end Database

/-! ### The cursor row's check -/

theorem constraints_cursor {db : Database} (h : Constraints db)
    {cursor : BackupPolicyPublicationCursor} (hcheck : cursor.check = true) :
    Constraints (db.put .backupPolicyPublicationCursor (some cursor)) where
  keys := { h.keys with accounts := h.keys.accounts }
  checks := { h.checks with cursor := fun _ hc => Option.some.inj hc ▸ hcheck }
  foreignKeys := { h.foreignKeys with runs_account := h.foreignKeys.runs_account }

theorem cursor_check {db : Database} (h : Checks db) : db.cursor.check = true := by
  have hcheck := h.cursor
  unfold Database.cursor
  cases hc : db.backupPolicyPublicationCursor with
  | none => decide
  | some cursor => exact hcheck cursor hc

/-- A mark fails only on an exhausted counter: the cursor it writes passes its check. -/
theorem markBackupPolicyDirtyInTx_ne_constraint (now : Time) (c : Catalog) :
    markBackupPolicyDirtyInTx now c ≠ .error (.query .constraint) := by
  refine Tx.bind_ne_error (require_ne_error (by decide) c) fun _ c₁ h₁ => ?_
  obtain ⟨hfits, rfl⟩ := require_eq_ok.mp h₁
  have hcheck : (markedCursor now c.tables.backupPolicyPublicationCursor).check = true := by
    have hold := c.valid.checks.cursor
    cases hcursor : c.tables.backupPolicyPublicationCursor with
    | none => rfl
    | some cursor =>
      have hold := hold cursor hcursor
      rw [hcursor] at hfits
      simp only [BackupPolicyPublicationCursor.check, Bool.and_eq_true,
        decide_eq_true_eq] at hold ⊢
      refine ⟨⟨⟨?_, hfits⟩, hold.1.2⟩, hold.2⟩
      show cursor.publishedGeneration ≤ cursor.dirtyGeneration + 1
      omega
  exact Tx.ne_error_of_succeeds (by rw [Tx.succeeds,
    write_of_valid (constraints_cursor c.valid hcheck)]; rfl)

/-! ### Marks -/

/-- Between the two states only dirty marks were made. -/
structure Marked (db db' : Database) : Prop where
  published : db'.cursor.publishedGeneration = db.cursor.publishedGeneration
  version : db'.cursor.lastPolicyVersion = db.cursor.lastPolicyVersion
  fingerprint : db'.cursor.lastFingerprint = db.cursor.lastFingerprint
  dirty_le : db.cursor.dirtyGeneration ≤ db'.cursor.dirtyGeneration

instance : Std.Refl Marked := ⟨fun _ => ⟨rfl, rfl, rfl, le_rfl⟩⟩

instance : IsTrans Database Marked :=
  ⟨fun _ _ _ h h' => ⟨h'.published.trans h.published, h'.version.trans h.version,
    h'.fingerprint.trans h.fingerprint, h.dirty_le.trans h'.dirty_le⟩⟩

theorem marked_of_cursor {db db' : Database} (h : db'.cursor = db.cursor) : Marked db db' :=
  ⟨by rw [h], by rw [h], by rw [h], by rw [h]⟩

theorem marked_of_cursor_eq {db db' : Database}
    (h : db'.backupPolicyPublicationCursor = db.backupPolicyPublicationCursor) : Marked db db' :=
  marked_of_cursor (by rw [Database.cursor, Database.cursor, h])

theorem markedCursor_eq (now : Time) (o : Option BackupPolicyPublicationCursor) :
    markedCursor now o = { o.getD {} with
      dirtyGeneration := (o.getD {}).dirtyGeneration + 1
      notBefore := some (now + policyDebounce) } := by
  cases o <;> rfl

/-- A mark raises the dirty generation and leaves the rest settled. -/
theorem marked_of_mark {now : Time} {db db' : Database}
    (h : db'.backupPolicyPublicationCursor =
      some (markedCursor now db.backupPolicyPublicationCursor)) :
    Marked db db' ∧ db.cursor.dirtyGeneration < db'.cursor.dirtyGeneration := by
  have hcursor : db'.cursor = { db.cursor with
      dirtyGeneration := db.cursor.dirtyGeneration + 1
      notBefore := some (now + policyDebounce) } := by
    rw [Database.cursor, h, Option.getD_some, markedCursor_eq, Database.cursor]
  rw [hcursor]
  refine ⟨⟨by rw [hcursor], by rw [hcursor], by rw [hcursor], ?_⟩, ?_⟩
  · rw [hcursor]
    exact (lt_add_one _).le
  · exact lt_add_one _

/-- Pending marks stay pending. -/
theorem Marked.dirty {db db' : Database} (h : Marked db db') (hdirty : db.dirty = true) :
    db'.dirty = true := by
  have hlt : db.cursor.publishedGeneration < db.cursor.dirtyGeneration := of_decide_eq_true hdirty
  apply decide_eq_true
  rw [h.published]
  exact lt_of_lt_of_le hlt h.dirty_le

/-! ### The inputs -/

/-- The two states give `load_inputs` the same rows. -/
structure SameInputs (db db' : Database) : Prop where
  policies : db'.backupPolicies = db.backupPolicies
  selected : db'.selected = db.selected

instance : Std.Refl SameInputs := ⟨fun _ => ⟨rfl, rfl⟩⟩

instance : IsTrans Database SameInputs :=
  ⟨fun _ _ _ h h' => ⟨h'.policies.trans h.policies, h'.selected.trans h.selected⟩⟩

theorem mirrorLevel_congr {db db' : Database} (h : db'.backupPolicies = db.backupPolicies)
    (r : Uuid) : mirrorLevel db' r = mirrorLevel db r := by
  rw [mirrorLevel, mirrorLevel, policyOf, policyOf, h]

/-- **Same rows, same inputs.** -/
theorem SameInputs.loadInputs_eq {db db' : Database} (h : SameInputs db db') :
    loadInputs db' = loadInputs db := by
  have hgoverned : governedRepositories db' = governedRepositories db := by
    rw [governedRepositories, governedRepositories, ← Database.selected, ← Database.selected,
      h.selected]
  have hinput : policyInput db' = policyInput db := by
    funext r
    rw [policyInput, policyInput, policyOf, policyOf, h.policies]
  rw [loadInputs, loadInputs, hgoverned, hinput]

/-- A change of repositories that keeps the governed rows of mirroring level. -/
theorem sameInputs_of_filter {db db' : Database} (hp : db'.backupPolicies = db.backupPolicies)
    (hr : (db'.repositories.filter fun r => r.governed && mirrorLevel db r.repositoryId) =
      db.selected) : SameInputs db db' := by
  refine ⟨hp, ?_⟩
  rw [← hr, Database.selected]
  apply List.filter_congr
  intro r _
  rw [mirrorLevel_congr hp]

theorem sameInputs_of_eq {db db' : Database} (hp : db'.backupPolicies = db.backupPolicies)
    (hr : db'.repositories = db.repositories) : SameInputs db db' :=
  sameInputs_of_filter hp (by rw [hr, Database.selected])

/-- An update that leaves the repositories of mirroring level alone keeps the inputs. -/
theorem sameInputs_of_map {db db' : Database} {f : Repository → Repository}
    (hp : db'.backupPolicies = db.backupPolicies) (hr : db'.repositories = db.repositories.map f)
    (hid : ∀ r, (f r).repositoryId = r.repositoryId)
    (hf : ∀ r ∈ db.repositories, mirrorLevel db r.repositoryId = true → f r = r) :
    SameInputs db db' := by
  apply sameInputs_of_filter hp
  rw [hr, List.filter_map, Database.selected]
  have hsame : (db.repositories.filter
      ((fun r => r.governed && mirrorLevel db r.repositoryId) ∘ f)) =
      db.repositories.filter fun r => r.governed && mirrorLevel db r.repositoryId := by
    apply List.filter_congr
    intro r hmem
    simp only [Function.comp, hid]
    by_cases hlevel : mirrorLevel db r.repositoryId = true
    · rw [hf r hmem hlevel]
    · rw [Bool.not_eq_true] at hlevel
      rw [hlevel, Bool.and_false, Bool.and_false]
  have hfixed : ∀ r ∈ db.repositories.filter fun r => r.governed && mirrorLevel db r.repositoryId,
      f r = id r := by
    intro r hmem
    obtain ⟨hr, hsel⟩ := List.mem_filter.mp hmem
    exact hf r hr (Bool.and_eq_true_iff.mp hsel).2
  rw [hsame, List.map_congr_left hfixed, List.map_id]

/-! ### Transactions -/

section transactions

variable {α : Type} {ts : List Table} {x : Tx α}

theorem relates_marked_of_touches (h : Touches ts x) (ht : .backupPolicyPublicationCursor ∉ ts) :
    Tx.Relates Marked x :=
  Tx.Relates.mono h fun _ _ hagree => marked_of_cursor_eq (hagree _ ht)

theorem relates_sameInputs_of_touches (h : Touches ts x) (hr : .repositories ∉ ts)
    (hp : .backupPolicies ∉ ts) : Tx.Relates SameInputs x :=
  Tx.Relates.mono h fun _ _ hagree => sameInputs_of_eq (hagree _ hp) (hagree _ hr)

theorem relates_marked_mark (now : Time) : Tx.Relates Marked (markBackupPolicyDirtyInTx now) := by
  intro c u c' h
  rw [markBackupPolicyDirtyInTx_eq h]
  exact (marked_of_mark rfl).1

/-- A new catalog entry is unclassified, so it is no policy input. -/
theorem relates_sameInputs_upsertRepository (fresh : Uuid) (pid : ℤ) :
    Tx.Relates SameInputs (upsertRepositoryInTx fresh pid) := by
  refine Tx.Relates.bind (relates_write ?_) fun _ => relates_fetchOne _
  intro db _
  refine sameInputs_of_filter ?_ ?_
  · rfl
  show List.filter _ (insertUnless _ _ db.repositories) = _
  rw [insertUnless]
  split
  · rfl
  · rw [List.filter_append, Database.selected]
    exact List.append_nil _

theorem relates_marked_trackRepository (fresh : Uuid) (now : Time) (pid : ℤ) :
    Tx.Relates Marked (trackRepository fresh now pid) := by
  refine (relates_marked_of_touches (touches_upsertRepositoryInTx _ _) (by decide)).bind fun r => ?_
  refine Tx.Relates.bind (relates_fetchOne _) fun mode => ?_
  split
  · exact Tx.Relates.pure _
  · exact (relates_marked_of_touches (touches_setMode _ _) (by decide)).bind fun _ =>
      (relates_marked_mark now).bind fun _ => Tx.Relates.pure _

theorem relates_marked_setRepositoryModeInTx (ids : ℕ → Uuid) (now : Time)
    (context : MutationContext) (pid : ℤ) (requested : RequestedMode) (key : String) :
    Tx.Relates Marked (setRepositoryModeInTx ids now context pid requested key) := by
  refine (relates_marked_of_touches (touches_upsertRepositoryInTx _ _) (by decide)).bind fun r => ?_
  refine Tx.Relates.bind (relates_fetchOne _) fun current =>
    Tx.Relates.bind (relates_select _) fun starred => ?_
  cases validateMode requested starred with
  | some reason =>
    exact (relates_marked_of_touches (touches_insertAuditRow _) (by decide)).bind fun _ =>
      Tx.Relates.pure _
  | none =>
    refine Tx.Relates.bind (relates_onlyIf ?_) fun _ => ?_
    · exact (relates_marked_of_touches (touches_setMode _ _) (by decide)).bind fun _ =>
        relates_marked_mark now
    · exact (relates_marked_of_touches (touches_insertAuditRow _) (by decide)).bind fun _ =>
        relates_marked_of_touches (touches_finishWithReplayGuard _ _) (by decide)

theorem relates_marked_persistConfirmedStar (ids : ℕ → Uuid) (now : Time)
    (context : MutationContext) (pid : ℤ) (key : String) (direction : StarDirection) :
    Tx.Relates Marked (persistConfirmedStar ids now context pid key direction) := by
  refine (relates_marked_of_touches (touches_upsertRepositoryInTx _ _) (by decide)).bind fun r => ?_
  refine Tx.Relates.bind (relates_select _) fun isNew => ?_
  refine (relates_marked_of_touches (touches_applyStarProjection _ _ _ _) (by decide)).bind
    fun _ => ?_
  refine Tx.Relates.bind (relates_onlyIf (relates_marked_mark now)) fun _ => ?_
  exact (relates_marked_of_touches (touches_insertAuditRow _) (by decide)).bind fun _ =>
    relates_marked_of_touches (touches_finishWithReplayGuard _ _) (by decide)

theorem relates_marked_eraseAccountInTx (now : Time) (owner : String)
    (operation : AccountErasureOperation) :
    Tx.Relates Marked (eraseAccountInTx now owner operation) := by
  refine Tx.Relates.bind ?_ fun _ => Tx.Relates.bind (relates_require _ _) fun _ =>
    relates_marked_of_touches (Touches.write (List.mem_singleton.mpr rfl) _) (by decide)
  intro c u c' h
  rw [eraseOwnerState_eq h]
  by_cases hcollected : c.tables.repositories.any
      fun r => decide (r.repositoryId ∈ collected owner c.tables)
  · exact (marked_of_mark (if_pos hcollected)).1
  · exact marked_of_cursor_eq (if_neg hcollected)

end transactions

/-- **Only a publication settles the cursor.** -/
theorem Operation.commit_marked (k : Contracts) (c : Catalog) (op : Operation)
    (hop : ∀ now commandId, op ≠ .publishDue now commandId) :
    Marked c.tables (op.commit k c).tables := by
  cases op with
  | publishDue now commandId => exact absurd rfl (hop now commandId)
  | persistConfirmedStar => exact (relates_marked_persistConfirmedStar _ _ _ _ _ _).commit c
  | trackRepository => exact (relates_marked_trackRepository _ _ _).commit c
  | setRepositoryMode => exact (relates_marked_setRepositoryModeInTx _ _ _ _ _ _).commit c
  | markDirty now => exact (relates_marked_mark now).commit c
  | eraseAccount => exact (relates_marked_eraseAccountInTx _ _ _).commit c
  | _ =>
    exact marked_of_cursor_eq (rows_commit k c _ .backupPolicyPublicationCursor rfl)

end GithubCatalog
