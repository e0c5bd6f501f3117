import GithubCatalog.BackupPolicy
import GithubCatalog.MutationTrail
import GithubCatalog.Snapshot

/-!
# Provider mutations: their reads and their local transactions
(`mutations.rs`, `list_mutations.rs`)

A mutation reads the catalog (authorization, replay, exclusion, the account's lists), writes to the
provider, and then commits its local effect in one transaction.  The definitions here are the reads
and the transactions; `GithubCatalog.MutationExecution` puts them in order around the provider.
-/

namespace GithubCatalog

open Relational Transact

/-! ### Requests and what they need -/

structure RepositoryRef where
  providerRepositoryId : ℤ
  owner : String
  name : String
deriving DecidableEq

/-- Which direction one star write travels. -/
inductive StarDirection where
  | add | remove
deriving DecidableEq

def StarDirection.kind : StarDirection → OperationKind
  | .add => .star
  | .remove => .unstar

/-- The direction of one list-membership change. -/
inductive MembershipChange where
  | add | remove
deriving DecidableEq

def MembershipChange.kind : MembershipChange → OperationKind
  | .add => .listMemberAdd
  | .remove => .listMemberRemove

/-- `MutationCapability::accepted_scopes` of a star write and of a list write. -/
def acceptedScopes (listWrite : Bool) : List String :=
  if listWrite then ["user"] else ["repo", "public_repo"]

/-- `authorization_refusal`. -/
def authorizationRefusal (context : MutationContext) (listWrite : Bool) (db : Database) :
    Option RefusalReason :=
  match db.githubAccounts.find? fun a => decide (a.accountId = context.accountId) with
  | none => some .accountNotConnected
  | some account =>
    if account.status ≠ .connected then some .accountNotConnected
    else if (acceptedScopes listWrite).any fun s => account.grantedScopes.contains s then none
    else some .missingScope

/-- `ignored_star_conflict`. -/
def ignoredStarConflict (direction : StarDirection) (providerRepositoryId : ℤ) (db : Database) :
    Bool :=
  decide (direction = .add) &&
    (repositoryOf providerRepositoryId db).any fun r => decide (r.mode = some .ignored)

/-! ### Confirmed stars -/

/-- The star row a confirmed star proposes, and what it does to an existing one. -/
def confirmedStarRow (now : Time) (accountId repositoryId : Uuid) : CurrentStarState :=
  ⟨accountId, repositoryId, true, some now, false, now, none, none⟩

def confirmStar (now : Time) (c : CurrentStarState) : CurrentStarState :=
  { c with
    starred := true, starredAt := c.starredAt.or (some now), lastObservedAt := now
    observedUnstarredAt := none }

/-- The star row a confirmed unstar proposes, and what it does to an existing one. -/
def confirmedUnstarRow (now : Time) (accountId repositoryId : Uuid) : CurrentStarState :=
  ⟨accountId, repositoryId, false, none, false, now, some now, none⟩

def confirmUnstar (now : Time) (c : CurrentStarState) : CurrentStarState :=
  { c with
    starred := false, starredAt := none, observedUnstarredAt := some now, lastObservedAt := now }

/-- `apply_star_projection`. -/
def applyStarProjection (now : Time) (accountId repositoryId : Uuid) :
    StarDirection → Tx Unit
  | .add => do
    write .currentStarState fun db =>
      upsertWhere (fun c => decide (c.key = (accountId, repositoryId))) (confirmStar now)
        (confirmedStarRow now accountId repositoryId) db.currentStarState
    write .repositories fun db =>
      updateWhere (fun r => decide (r.repositoryId = repositoryId)) Repository.promote
        db.repositories
  | .remove => do
    write .currentStarState fun db =>
      upsertWhere (fun c => decide (c.key = (accountId, repositoryId))) (confirmUnstar now)
        (confirmedUnstarRow now accountId repositoryId) db.currentStarState
    write .repositories fun db =>
      updateWhere (fun r => decide (r.repositoryId = repositoryId)) Repository.release
        db.repositories

/-- Whether a confirmed write is new relative to the local star state. -/
def newlyApplied (direction : StarDirection) (accountId repositoryId : Uuid) (db : Database) : Bool :=
  match direction with
  | .add => !starredBy accountId repositoryId db
  | .remove => starredBy accountId repositoryId db

/-- `{"via": "mutation"}`. -/
def viaMutation : Jsonb := .obj [("via", .str "mutation")]

/-- `persist_confirmed_star`. -/
def persistConfirmedStar (ids : ℕ → Uuid) (now : Time) (context : MutationContext)
    (providerRepositoryId : ℤ) (idempotencyKey : String) (direction : StarDirection) :
    Tx MutationStatus := do
  let repositoryId ← upsertRepositoryInTx (ids 0) providerRepositoryId
  let isNew ← select (newlyApplied direction context.accountId repositoryId)
  applyStarProjection now context.accountId repositoryId direction
  onlyIf isNew (markBackupPolicyDirtyInTx now)
  let inserted ← insertAuditRow (auditRow (ids 1) context repositoryId direction.kind
    idempotencyKey (if isNew then .applied else .alreadyApplied) viaMutation)
  finishWithReplayGuard inserted isNew

/-! ### List membership -/

/-- The provider id of the acting account's live target list. -/
def targetProviderId (listId accountId : Uuid) (db : Database) : Option String :=
  (db.starLists.find? fun l => decide (l.listId = listId) && decide (l.accountId = accountId) &&
    decide (l.status = .active)).map (·.providerListId)

/-- `live_member_list_ids`: the provider lists the local authority records the repository in. -/
def liveMemberListIds (accountId : Uuid) (providerRepositoryId : ℤ) (db : Database) : List String :=
  (db.starLists.filter fun l => decide (l.accountId = accountId) && decide (l.status = .active) &&
    db.starListMemberships.any fun m => decide (m.listId = l.listId) && m.member &&
      (repositoryOf providerRepositoryId db).any fun r =>
        decide (r.repositoryId = m.repositoryId)).map (·.providerListId)

/-- The complete desired set of provider lists: the local set with the target added or removed. -/
def desiredListIds (change : MembershipChange) (target : String) (live : List String) :
    List String :=
  let ids := match change with
    | .add => if live.contains target then live else live ++ [target]
    | .remove => live.filter fun id => decide (id ≠ target)
  ids.dedup.insertionSort fun a b => a ≤ b

/-- `converge_membership_projection`. -/
def convergeMembershipProjection (now : Time) (listId repositoryId : Uuid)
    (change : MembershipChange) : Tx Unit :=
  write .starListMemberships fun db =>
    match change with
    | .add =>
      upsertWhere (fun m => decide (m.listId = listId) && decide (m.repositoryId = repositoryId))
        (fun m => { m with member := true, lastObservedAt := now, observedRemovedAt := none })
        ⟨listId, repositoryId, true, now, none, none⟩ db.starListMemberships
    | .remove =>
      upsertWhere (fun m => decide (m.listId = listId) && decide (m.repositoryId = repositoryId))
        (fun m => { m with member := false, lastObservedAt := now, observedRemovedAt := some now })
        ⟨listId, repositoryId, false, now, some now, none⟩ db.starListMemberships

/-- The audit detail of a list write. -/
def viaDesired (desired : List String) : Jsonb :=
  .obj [("via", .str "mutation"), ("desired_list_ids", .arr (desired.map .str))]

/-- The local transaction of `execute_list_membership`. -/
def persistListMembership (ids : ℕ → Uuid) (now : Time) (context : MutationContext)
    (providerRepositoryId : ℤ) (listId : Uuid) (idempotencyKey : String) (change : MembershipChange)
    (desired : List String) : Tx MutationStatus := do
  let repositoryId ← upsertRepositoryInTx (ids 0) providerRepositoryId
  convergeMembershipProjection now listId repositoryId change
  let inserted ← insertAuditRow (auditRow (ids 1) context repositoryId change.kind
    idempotencyKey .applied (viaDesired desired))
  finishWithReplayGuard inserted true

/-! ### Frames -/

theorem touches_applyStarProjection (now : Time) (accountId r : Uuid) (direction : StarDirection) :
    Touches [.currentStarState, .repositories] (applyStarProjection now accountId r direction) := by
  cases direction with
  | add => exact (Touches.write (by decide) _).bind fun _ => Touches.write (by decide) _
  | remove => exact (Touches.write (by decide) _).bind fun _ => Touches.write (by decide) _

theorem touches_persistConfirmedStar (ids : ℕ → Uuid) (now : Time) (context : MutationContext)
    (pid : ℤ) (key : String) (direction : StarDirection) :
    Touches [.repositories, .currentStarState, .backupPolicyPublicationCursor, .mutationAudit]
      (persistConfirmedStar ids now context pid key direction) := by
  refine ((touches_upsertRepositoryInTx _ _).mono (by decide)).bind fun r => ?_
  refine (Touches.select _).bind fun isNew => ?_
  refine ((touches_applyStarProjection _ _ _ _).mono (by decide)).bind fun _ => ?_
  refine ((touches_markBackupPolicyDirtyInTx now).mono (by decide)).onlyIf.bind fun _ => ?_
  exact ((touches_insertAuditRow _).mono (by decide)).bind fun _ =>
    (touches_finishWithReplayGuard _ _).mono (by decide)

theorem touches_persistListMembership (ids : ℕ → Uuid) (now : Time) (context : MutationContext)
    (pid : ℤ) (listId : Uuid) (key : String) (change : MembershipChange) (desired : List String) :
    Touches [.repositories, .starListMemberships, .mutationAudit]
      (persistListMembership ids now context pid listId key change desired) :=
  ((touches_upsertRepositoryInTx _ _).mono (by decide)).bind fun _ =>
    (Touches.write (by decide) _).bind fun _ =>
    ((touches_insertAuditRow _).mono (by decide)).bind fun _ =>
    (touches_finishWithReplayGuard _ _).mono (by decide)

/-- **The rule of a persisted list membership.** -/
theorem relates_persistListMembership {R : Database → Database → Prop} [Std.Refl R]
    [IsTrans Database R] (ids : ℕ → Uuid) (now : Time) (context : MutationContext) (pid : ℤ)
    (listId : Uuid) (key : String) (change : MembershipChange) (desired : List String)
    (hrepo : Tx.Relates R (upsertRepositoryInTx (ids 0) pid))
    (hmember : ∀ r, Tx.Relates R (convergeMembershipProjection now listId r change))
    (haudit : ∀ row, row.listId = none → Tx.Relates R (insertAuditRow row)) :
    Tx.Relates R (persistListMembership ids now context pid listId key change desired) :=
  hrepo.bind fun r => (hmember r).bind fun _ => (haudit _ rfl).bind fun _ =>
    relates_finishWithReplayGuard _ _

theorem touches_convergeMembershipProjection (now : Time) (listId r : Uuid)
    (change : MembershipChange) :
    Touches [.starListMemberships] (convergeMembershipProjection now listId r change) :=
  Touches.write (by decide) _

end GithubCatalog
