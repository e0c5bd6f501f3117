import GithubCatalog.Mutations

/-!
# Repository modes (`modes.rs`)

Explicit requests set `tracked` and `ignored`; `auto` is reached only through star evidence.
-/

namespace GithubCatalog

open Relational

inductive RequestedMode where
  | auto | tracked | ignored
deriving DecidableEq

/-- The stored value of a requested mode. -/
def RequestedMode.mode : RequestedMode → RepositoryMode
  | .auto => .auto
  | .tracked => .tracked
  | .ignored => .ignored

/-- The mode of a repository inside the transaction. -/
def fetchMode (repositoryId : Uuid) : Tx (Option RepositoryMode) :=
  fetchOne fun db =>
    (db.repositories.find? fun r => decide (r.repositoryId = repositoryId)).map (·.mode)

/-- `update repositories set mode`. -/
def setMode (repositoryId : Uuid) (mode : RepositoryMode) : Tx Unit :=
  write .repositories fun db =>
    updateWhere (fun r => decide (r.repositoryId = repositoryId))
      (fun r => { r with mode := some mode }) db.repositories

inductive TrackOutcome where
  | accepted | alreadyApplied
deriving DecidableEq

/-- `track_repository`. -/
def trackRepository (fresh : Uuid) (now : Time) (providerRepositoryId : ℤ) : Tx TrackOutcome := do
  let repositoryId ← upsertRepositoryInTx fresh providerRepositoryId
  let mode ← fetchMode repositoryId
  if mode = some .tracked then pure .alreadyApplied
  else do
    setMode repositoryId .tracked
    markBackupPolicyDirtyInTx now
    pure .accepted

/-- `validate`: the enforcement matrix for explicit mode requests. -/
def validateMode (requested : RequestedMode) (starred : Bool) : Option RefusalReason :=
  match requested with
  | .auto => some .autoNotDirectlyRequestable
  | .tracked => none
  | .ignored => if starred then some .repositoryCurrentlyStarred else none

/-- `mode_label`. -/
def modeLabel : Option RepositoryMode → String
  | some .auto => "auto"
  | some .tracked => "tracked"
  | some .ignored => "ignored"
  | none => "unclassified"

/-- The audit detail of a mode transition. -/
def transitionDetail (before after : Option RepositoryMode) : Jsonb :=
  .obj [("from", .str (modeLabel before)), ("to", .str (modeLabel after))]

/-- The transaction of `set_repository_mode`, once the key is known to be free. -/
def setRepositoryModeInTx (ids : ℕ → Uuid) (now : Time) (context : MutationContext)
    (providerRepositoryId : ℤ) (requested : RequestedMode) (idempotencyKey : String) :
    Tx MutationStatus := do
  let repositoryId ← upsertRepositoryInTx (ids 0) providerRepositoryId
  let current ← fetchMode repositoryId
  let starred ← select (starredBy context.accountId repositoryId)
  match validateMode requested starred with
  | some reason => do
    let _won ← insertAuditRow (auditRow (ids 1) context repositoryId .modeSet idempotencyKey
      .rejected (reasonDetail reason.label))
    pure (.rejected reason)
  | none => do
    let unchanged := decide (current = some requested.mode)
    onlyIf (!unchanged) do
      setMode repositoryId requested.mode
      markBackupPolicyDirtyInTx now
    let inserted ← insertAuditRow (auditRow (ids 1) context repositoryId .modeSet idempotencyKey
      (if unchanged then .alreadyApplied else .applied)
      (transitionDetail current (some requested.mode)))
    finishWithReplayGuard inserted !unchanged

/-- `set_repository_mode`: a consumed key replays, otherwise the transaction runs. -/
def setRepositoryMode (ids : ℕ → Uuid) (now : Time) (context : MutationContext)
    (providerRepositoryId : ℤ) (requested : RequestedMode) (idempotencyKey : String) :
    Tx MutationStatus := do
  let consumed ← select (successfulOutcomeExists idempotencyKey)
  if consumed then pure .alreadyApplied
  else setRepositoryModeInTx ids now context providerRepositoryId requested idempotencyKey

/-! ### Frames -/

theorem touches_setMode (r : Uuid) (mode : RepositoryMode) : Touches [.repositories] (setMode r mode) :=
  Touches.write (by decide) _

theorem touches_trackRepository (fresh : Uuid) (now : Time) (pid : ℤ) :
    Touches [.repositories, .backupPolicyPublicationCursor] (trackRepository fresh now pid) := by
  refine ((touches_upsertRepositoryInTx _ _).mono (by decide)).bind fun r => ?_
  refine (Touches.fetchOne _).bind fun mode => ?_
  split
  · exact Touches.pure _
  · exact ((touches_setMode _ _).mono (by decide)).bind fun _ =>
      ((touches_markBackupPolicyDirtyInTx _).mono (by decide)).bind fun _ => Touches.pure _

theorem touches_setRepositoryModeInTx (ids : ℕ → Uuid) (now : Time) (context : MutationContext)
    (pid : ℤ) (requested : RequestedMode) (key : String) :
    Touches [.repositories, .backupPolicyPublicationCursor, .mutationAudit]
      (setRepositoryModeInTx ids now context pid requested key) := by
  refine ((touches_upsertRepositoryInTx _ _).mono (by decide)).bind fun r => ?_
  refine (Touches.fetchOne _).bind fun current => (Touches.select _).bind fun starred => ?_
  cases validateMode requested starred with
  | some reason =>
    exact ((touches_insertAuditRow _).mono (by decide)).bind fun _ => Touches.pure _
  | none =>
    refine (Touches.onlyIf ?_).bind fun _ => ?_
    · exact ((touches_setMode _ _).mono (by decide)).bind fun _ =>
        (touches_markBackupPolicyDirtyInTx _).mono (by decide)
    · exact ((touches_insertAuditRow _).mono (by decide)).bind fun _ =>
        (touches_finishWithReplayGuard _ _).mono (by decide)

theorem touches_setRepositoryMode (ids : ℕ → Uuid) (now : Time) (context : MutationContext)
    (pid : ℤ) (requested : RequestedMode) (key : String) :
    Touches [.repositories, .backupPolicyPublicationCursor, .mutationAudit]
      (setRepositoryMode ids now context pid requested key) := by
  refine (Touches.select _).bind fun consumed => ?_
  split
  · exact Touches.pure _
  · exact touches_setRepositoryModeInTx ids now context pid requested key

end GithubCatalog
