import GithubCatalog.Catalog
import GithubCatalog.StarAuthority

/-!
# Mutations in flight (`mutations.rs`, `list_mutations.rs`, `provider_mutations.rs`)

`execute_mutation` is a sequence of reads of the catalog, one resolution and one write at the
provider, and one local transaction; nothing is held in between.  A mutation in flight is therefore a
`Phase`, and `Mutation.step` takes it from one external interaction to the next.  `set_repository_mode`
reads the key, then the mode and the star, and then commits; its reads see committed state and lock
nothing, so they are steps of their own (`ModeChange.step`).

* `Upstream` - what the provider holds: paths, stars and list sets;
* `Plan` - a cleared write; `ProviderWrite` - a confirmed one, with the provider state it met;
* `System.step` - any number of mutations and mode changes interleaved with catalog operations and
  with changes made at the provider.

Every interaction with the catalog has a `Fate`: it is carried out, it fails, or it takes effect and
the call never learns so.

A repository of the provider is named by its numeric id; the GraphQL node id that a path resolves to
stands for the repository, so it is that id here.
-/

namespace GithubCatalog

open Transact

/-! ### The provider -/

/-- What the provider holds: which repository a path leads to, and each account's stars and lists. -/
structure Upstream where
  paths : String → String → Option ℤ
  stars : Uuid → ℤ → Bool
  lists : Uuid → ℤ → List String

namespace Upstream

/-- `addStar` and `removeStar`. -/
def setStar (account : Uuid) (node : ℤ) (starred : Bool) (u : Upstream) : Upstream :=
  { u with stars := fun a r => if a = account ∧ r = node then starred else u.stars a r }

/-- `updateUserListsForItem`, which replaces the item's complete list set. -/
def setLists (account : Uuid) (node : ℤ) (listIds : List String) (u : Upstream) : Upstream :=
  { u with lists := fun a r => if a = account ∧ r = node then listIds else u.lists a r }

theorem stars_setStar (account : Uuid) (node : ℤ) (starred : Bool) (u : Upstream) (a : Uuid) (r : ℤ) :
    (u.setStar account node starred).stars a r =
      if a = account ∧ r = node then starred else u.stars a r :=
  rfl

theorem lists_setLists (account : Uuid) (node : ℤ) (listIds : List String) (u : Upstream) (a : Uuid)
    (r : ℤ) :
    (u.setLists account node listIds).lists a r =
      if a = account ∧ r = node then listIds else u.lists a r :=
  rfl

end Upstream

/-- The catalog and the provider. -/
structure World where
  catalog : Catalog
  upstream : Upstream

/-! ### Requests -/

inductive MutationRequest where
  | star (repository : RepositoryRef) (idempotencyKey : String)
  | unstar (repository : RepositoryRef) (idempotencyKey : String)
  | listMemberAdd (repository : RepositoryRef) (listId : Uuid) (idempotencyKey : String)
  | listMemberRemove (repository : RepositoryRef) (listId : Uuid) (idempotencyKey : String)
deriving DecidableEq

namespace MutationRequest

def repository : MutationRequest → RepositoryRef
  | star r _ | unstar r _ | listMemberAdd r _ _ | listMemberRemove r _ _ => r

def idempotencyKey : MutationRequest → String
  | star _ key | unstar _ key | listMemberAdd _ _ key | listMemberRemove _ _ key => key

/-- `kind_of`. -/
def kind : MutationRequest → OperationKind
  | star _ _ => .star
  | unstar _ _ => .unstar
  | listMemberAdd _ _ _ => .listMemberAdd
  | listMemberRemove _ _ _ => .listMemberRemove

/-- The direction of a star write. -/
def direction : MutationRequest → Option StarDirection
  | star _ _ => some .add
  | unstar _ _ => some .remove
  | _ => none

/-- The change and the list of a list write. -/
def membership : MutationRequest → Option (MembershipChange × Uuid)
  | listMemberAdd _ listId _ => some (.add, listId)
  | listMemberRemove _ listId _ => some (.remove, listId)
  | _ => none

/-- A star request asks for no membership. -/
theorem membership_eq_none {request : MutationRequest} {direction : StarDirection}
    (h : request.direction = some direction) : request.membership = none := by
  cases request with
  | star | unstar => rfl
  | listMemberAdd | listMemberRemove => cases h

end MutationRequest

/-! ### Phases -/

/-- A cleared write.  A list write carries the target's provider id and the provider lists
`live_member_list_ids` returned. -/
inductive Plan where
  | star (direction : StarDirection)
  | lists (change : MembershipChange) (listId : Uuid) (target : String) (live : List String)

namespace Plan

/-- What a write does at the provider. -/
def applyTo (account : Uuid) (node : ℤ) (u : Upstream) : Plan → Upstream
  | star direction => u.setStar account node direction.starred
  | lists change _ target live => u.setLists account node (desiredListIds change target live)

/-- The local transaction after a confirmed write. -/
def persist (ids : ℕ → Uuid) (now : Time) (context : MutationContext) (pid : ℤ) (key : String) :
    Plan → Tx MutationStatus
  | star direction => persistConfirmedStar ids now context pid key direction
  | lists change listId target live =>
    persistListMembership ids now context pid listId key change (desiredListIds change target live)

/-- The plans a request can be cleared for. -/
def Suits (request : MutationRequest) : Plan → Prop
  | star direction => request.direction = some direction
  | lists change listId _ _ => request.membership = some (change, listId)

/-- A star request is cleared for its own direction only. -/
theorem Suits.eq_star {request : MutationRequest} {plan : Plan} (h : plan.Suits request)
    {direction : StarDirection} (hdir : request.direction = some direction) :
    plan = star direction := by
  cases plan with
  | star d =>
    have hsuits : request.direction = some d := h
    rw [hdir] at hsuits
    rw [Option.some.inj hsuits]
  | lists change listId target live =>
    have hsuits : request.membership = some (change, listId) := h
    rw [MutationRequest.membership_eq_none hdir] at hsuits
    cases hsuits

/-- A list request is cleared for its own change and list only. -/
theorem Suits.eq_lists {request : MutationRequest} {plan : Plan} (h : plan.Suits request)
    {change : MembershipChange} {listId : Uuid} (hlist : request.membership = some (change, listId)) :
    ∃ target live, plan = lists change listId target live := by
  cases plan with
  | star d =>
    have hsuits : request.direction = some d := h
    rw [MutationRequest.membership_eq_none hsuits] at hlist
    cases hlist
  | lists change' listId' target live =>
    have hsuits : request.membership = some (change', listId') := h
    rw [hlist] at hsuits
    cases hsuits
    exact ⟨target, live, rfl⟩

end Plan

/-- A confirmed write with the provider state it met. -/
structure ProviderWrite where
  plan : Plan
  node : ℤ
  before : Upstream

/-- The call reported a success. -/
def reportedSuccess (status : Option MutationStatus) : Bool := status.any (·.success)

/-- Where a mutation stands: the next interaction of `execute_mutation`, or its end.  `conclude` is
an ending that still has to be audited; `outraced` is the `AlreadyApplied` of a mutation that lost its
key after its write. -/
inductive Phase where
  | authorize
  | replay
  | exclusion
  | budget
  | target (change : MembershipChange) (listId : Uuid)
  | memberships (change : MembershipChange) (listId : Uuid) (target : String)
  | resolve (plan : Plan)
  | write (plan : Plan) (node : ℤ)
  | persist (wrote : ProviderWrite)
  | conclude (outcome : AuditOutcome) (reason : String) (status : MutationStatus)
  | returned (status : MutationStatus) (wrote : Option ProviderWrite)
  | outraced (wrote : ProviderWrite)
  | raised (error : CatalogError)

namespace Phase

/-- What the caller is told. -/
def status : Phase → Option MutationStatus
  | returned status _ => some status
  | outraced _ => some .alreadyApplied
  | _ => none

/-- The confirmed write of a mutation, once it has one. -/
def wrote : Phase → Option ProviderWrite
  | persist wrote | outraced wrote | returned _ (some wrote) => some wrote
  | _ => none

/-- What a call plans is what it was asked for, and an audited ending claims no success. -/
def Follows (request : MutationRequest) : Phase → Prop
  | target change listId | memberships change listId _ => request.membership = some (change, listId)
  | resolve plan | write plan _ => plan.Suits request
  | persist wrote | outraced wrote | returned _ (some wrote) => wrote.plan.Suits request
  | conclude outcome _ status =>
    (outcome = .rejected ∨ outcome = .failed) ∧ status.success = false
  | _ => True

/-- The call is over. -/
def ended : Phase → Bool
  | returned _ _ | outraced _ | raised _ => true
  | _ => false

end Phase

/-- One call of `execute_mutation`. -/
structure Mutation where
  context : MutationContext
  request : MutationRequest
  phase : Phase

/-- How the provider takes a write: it applies it and says so, leaves the state as it is and says so,
or its answer never arrives. -/
inductive WriteReply where
  | applied
  | denied
  | lost (applied : Bool)
deriving DecidableEq

/-- What a step draws from outside: identifiers, the clock, the fate of its database interaction, the
ledger's and the provider's answers. -/
structure StepInput where
  ids : ℕ → Uuid
  now : Time
  fate : Fate := .served
  acquired : Bool := true
  resolved : Bool := true
  reply : WriteReply := .applied
  text : String := ""

/-- A read of the catalog. -/
def World.read {α : Type} (w : World) (fate : Fate) (f : Database → α) : Except CatalogError α :=
  if fate = .served then .ok (f w.catalog.tables) else .error (.query .unavailable)

namespace Mutation

/-- The provider id the mutation is about. -/
def pid (m : Mutation) : ℤ := m.request.repository.providerRepositoryId

/-- `refused_outcome`. -/
def refuse (reason : RefusalReason) : Phase := .conclude .rejected reason.label (.rejected reason)

/-- `failed_outcome`. -/
def fail (reason : String) : Phase := .conclude .failed reason (.failed reason)

/-- `dispatch`. -/
def dispatch (m : Mutation) : Phase :=
  match m.request with
  | .star _ _ => .resolve (.star .add)
  | .unstar _ _ => .resolve (.star .remove)
  | .listMemberAdd _ listId _ => .target .add listId
  | .listMemberRemove _ listId _ => .target .remove listId

theorem dispatch_star (m : Mutation) {direction : StarDirection}
    (h : m.request.direction = some direction) : m.dispatch = .resolve (.star direction) := by
  unfold dispatch
  cases hreq : m.request with
  | star | unstar => rw [hreq] at h; cases h; rfl
  | listMemberAdd | listMemberRemove => rw [hreq] at h; cases h

/-- The provider after a write was sent. -/
def written (m : Mutation) (plan : Plan) (node : ℤ) (u : Upstream) : WriteReply → Upstream
  | .applied | .lost true => plan.applyTo m.context.accountId node u
  | .denied | .lost false => u

/-- Whether the reply confirms the write: a star reply reports the resulting star, a list reply only
that it was done. -/
def confirms (m : Mutation) (plan : Plan) (node : ℤ) (after : Upstream) (reply : WriteReply) : Bool :=
  match reply, plan with
  | .lost _, _ => false
  | _, .star direction => decide (after.stars m.context.accountId node = direction.starred)
  | .applied, .lists .. => true
  | .denied, .lists .. => false

/-- Why an unconfirmed write failed. -/
def unconfirmed (i : StepInput) : Plan → String
  | .star _ => if i.reply = .denied then "the provider did not confirm the requested star state"
    else i.text
  | .lists .. => i.text

/-- The next phase of a mutation that reads the catalog. -/
def afterRead (m : Mutation) (db : Database) : Phase → Phase
  | .authorize =>
    match authorizationRefusal m.context m.request.membership.isSome db with
    | some reason => refuse reason
    | none => .replay
  | .replay =>
    if successfulOutcomeExists m.request.idempotencyKey db then .returned .alreadyApplied none
    else .exclusion
  | .exclusion =>
    if m.request.direction.any fun d => ignoredStarConflict d m.pid db then refuse .repositoryIgnored
    else .budget
  | .target change listId =>
    match targetProviderId listId m.context.accountId db with
    | some target => .memberships change listId target
    | none => fail "the target list does not exist for the acting account"
  | .memberships change listId target =>
    .resolve (.lists change listId target (liveMemberListIds m.context.accountId m.pid db))
  | phase => phase

/-- A step that reads the catalog. -/
def reading (m : Mutation) (i : StepInput) (w : World) : Phase × World :=
  match w.read i.fate fun db => m.afterRead db m.phase with
  | .ok phase => (phase, w)
  | .error e => (.raised e, w)

/-- A step that ends the call with an audited outcome which claims no success. -/
def concluding (m : Mutation) (i : StepInput) (outcome : AuditOutcome) (reason : String)
    (status : MutationStatus) (w : World) : Phase × World :=
  match i.fate.run (recordAttempt i.ids m.context m.pid m.request.kind m.request.idempotencyKey
      outcome (reasonDetail reason)) w.catalog with
  | (.ok _, c) => (.returned status none, { w with catalog := c })
  | (.error e, c) => (.raised e, { w with catalog := c })

/-- The step that writes at the provider. -/
def writing (m : Mutation) (i : StepInput) (plan : Plan) (node : ℤ) (w : World) : Phase × World :=
  let after := m.written plan node w.upstream i.reply
  (if m.confirms plan node after i.reply then .persist ⟨plan, node, w.upstream⟩
    else fail (unconfirmed i plan), { w with upstream := after })

/-- The step that commits the local effect of a confirmed write. -/
def persisting (m : Mutation) (i : StepInput) (wrote : ProviderWrite) (w : World) : Phase × World :=
  match i.fate.run (wrote.plan.persist i.ids i.now m.context m.pid m.request.idempotencyKey)
      w.catalog with
  | (.ok status, c) => (.returned status (some wrote), { w with catalog := c })
  | (.error .keyTaken, c) => (.outraced wrote, { w with catalog := c })
  | (.error e, c) => (.raised e, { w with catalog := c })

/-- One interaction of `execute_mutation`. -/
def step (m : Mutation) (i : StepInput) (w : World) : Phase × World :=
  match m.phase with
  | .authorize | .replay | .exclusion | .target _ _ | .memberships _ _ _ => m.reading i w
  | .budget =>
    (if i.acquired then m.dispatch
      else .conclude .failed ("rate limited until " ++ i.text)
        (.failed "the account's provider budget is cooling down"), w)
  | .resolve plan =>
    match w.upstream.paths m.request.repository.owner m.request.repository.name, i.resolved with
    | some node, true => (.write plan node, w)
    | _, _ => (fail i.text, w)
  | .write plan node => m.writing i plan node w
  | .persist wrote => m.persisting i wrote w
  | .conclude outcome reason status => m.concluding i outcome reason status w
  | .returned status wrote => (.returned status wrote, w)
  | .outraced wrote => (.outraced wrote, w)
  | .raised e => (.raised e, w)

/-- The call after its next step. -/
def next (m : Mutation) (i : StepInput) (w : World) : Mutation :=
  { m with phase := (m.step i w).1 }

/-- One step of a call that runs alone. -/
def alone (x : Mutation × World) (i : StepInput) : Mutation × World :=
  (x.1.next i x.2, (x.1.step i x.2).2)

end Mutation

/-! ### Mode changes -/

/-- The statements of `set_repository_mode` after its reads. -/
def applyRequestedMode (ids : ℕ → Uuid) (now : Time) (context : MutationContext)
    (requested : RequestedMode) (key : String) (current : Option RepositoryMode) (starred : Bool)
    (repositoryId : Uuid) : Tx MutationStatus :=
  match validateMode requested starred with
  | some reason => do
    let _won ← insertAuditRow (auditRow (ids 1) context repositoryId .modeSet key
      .rejected (reasonDetail reason.label))
    pure (.rejected reason)
  | none => do
    let unchanged := decide (current = some requested.mode)
    onlyIf (!unchanged) do
      setMode repositoryId requested.mode
      markBackupPolicyDirtyInTx now
    let inserted ← insertAuditRow (auditRow (ids 1) context repositoryId .modeSet key
      (if unchanged then .alreadyApplied else .applied)
      (transitionDetail current (some requested.mode)))
    finishWithReplayGuard inserted !unchanged

/-- The transaction is its reads followed by these statements. -/
theorem setRepositoryModeInTx_eq (ids : ℕ → Uuid) (now : Time) (context : MutationContext) (pid : ℤ)
    (requested : RequestedMode) (key : String) :
    setRepositoryModeInTx ids now context pid requested key = (do
      let r ← upsertRepositoryInTx (ids 0) pid
      let current ← fetchMode r
      let starred ← select (starredBy context.accountId r)
      applyRequestedMode ids now context requested key current starred r) :=
  rfl

inductive ModePhase where
  | replay
  | read
  | commit (current : Option RepositoryMode) (starred : Bool)
  | returned (status : MutationStatus)
  | outraced
  | raised (error : CatalogError)

/-- What the caller is told. -/
def ModePhase.status : ModePhase → Option MutationStatus
  | returned status => some status
  | outraced => some .alreadyApplied
  | _ => none

/-- One call of `set_repository_mode`. -/
structure ModeChange where
  context : MutationContext
  pid : ℤ
  requested : RequestedMode
  idempotencyKey : String
  phase : ModePhase

/-- Whether the account stars the repository of a provider id, as far as the catalog knows. -/
def starredFor (account : Uuid) (pid : ℤ) (db : Database) : Bool :=
  (repositoryOf pid db).any fun r => starredBy account r.repositoryId db

/-- The mode of the repository of a provider id. -/
def modeOf (pid : ℤ) (db : Database) : Option RepositoryMode := (repositoryOf pid db).bind (·.mode)

namespace ModeChange

/-- The next phase of a mode change that reads the catalog. -/
def afterRead (g : ModeChange) (db : Database) : ModePhase → ModePhase
  | .replay =>
    if successfulOutcomeExists g.idempotencyKey db then .returned .alreadyApplied else .read
  | .read => .commit (modeOf g.pid db) (starredFor g.context.accountId g.pid db)
  | phase => phase

/-- The local transaction of a mode change, with what it read. -/
def transaction (g : ModeChange) (i : StepInput) (current : Option RepositoryMode) (starred : Bool) :
    Tx MutationStatus := do
  let r ← upsertRepositoryInTx (i.ids 0) g.pid
  applyRequestedMode i.ids i.now g.context g.requested g.idempotencyKey current starred r

/-- A step that reads the catalog. -/
def reading (g : ModeChange) (i : StepInput) (w : World) : ModePhase × World :=
  match w.read i.fate fun db => g.afterRead db g.phase with
  | .ok phase => (phase, w)
  | .error e => (.raised e, w)

/-- The step that commits. -/
def committing (g : ModeChange) (i : StepInput) (current : Option RepositoryMode) (starred : Bool)
    (w : World) : ModePhase × World :=
  match i.fate.run (g.transaction i current starred) w.catalog with
  | (.ok status, c) => (.returned status, { w with catalog := c })
  | (.error .keyTaken, c) => (.outraced, { w with catalog := c })
  | (.error e, c) => (.raised e, { w with catalog := c })

/-- One interaction of `set_repository_mode`. -/
def step (g : ModeChange) (i : StepInput) (w : World) : ModePhase × World :=
  match g.phase with
  | .replay | .read => g.reading i w
  | .commit current starred => g.committing i current starred w
  | .returned status => (.returned status, w)
  | .outraced => (.outraced, w)
  | .raised e => (.raised e, w)

/-- The call after its next step. -/
def next (g : ModeChange) (i : StepInput) (w : World) : ModeChange :=
  { g with phase := (g.step i w).1 }

end ModeChange

/-! ### Interleavings -/

/-- Mutations and mode changes in flight over one world. -/
structure System where
  world : World
  mutations : List Mutation
  modes : List ModeChange

/-- A mutation or a mode change takes its next step, another flow commits an operation, or the
provider changes by other means. -/
inductive Event where
  | advance (n : ℕ) (input : StepInput)
  | adjust (n : ℕ) (input : StepInput)
  | catalog (op : Operation)
  | upstream (u : Upstream)

namespace System

/-- The mutation `n` takes its next step. -/
def advance (s : System) (n : ℕ) (i : StepInput) : System :=
  match s.mutations[n]? with
  | none => s
  | some m => { s with world := (m.step i s.world).2, mutations := s.mutations.set n (m.next i s.world) }

/-- The mode change `n` takes its next step. -/
def adjust (s : System) (n : ℕ) (i : StepInput) : System :=
  match s.modes[n]? with
  | none => s
  | some g => { s with world := (g.step i s.world).2, modes := s.modes.set n (g.next i s.world) }

def step (k : Contracts) (s : System) : Event → System
  | .advance n i => s.advance n i
  | .adjust n i => s.adjust n i
  | .catalog op => { s with world := { s.world with catalog := GithubCatalog.step k s.world.catalog op } }
  | .upstream u => { s with world := { s.world with upstream := u } }

end System

/-! ### What one step does -/

namespace Mutation

variable (m : Mutation) (i : StepInput) (w : World)

/-- A reading step leaves the world alone, and moves on what it read unless the read failed. -/
theorem reading_cases :
    (m.reading i w).2 = w ∧
      ((m.reading i w).1 = m.afterRead w.catalog.tables m.phase ∨ ∃ e, (m.reading i w).1 = .raised e) := by
  unfold reading World.read
  by_cases hserved : i.fate = .served
  · rw [if_pos hserved]
    exact ⟨rfl, .inl rfl⟩
  · rw [if_neg hserved]
    exact ⟨rfl, .inr ⟨_, rfl⟩⟩

/-- A step changes the world only by writing at the provider, by its local transaction, or by the
audit of an unsuccessful ending. -/
theorem step_cases :
    (m.step i w).2 = w ∨
    (∃ plan node, m.phase = .write plan node ∧ m.step i w = m.writing i plan node w) ∨
    (∃ wrote, m.phase = .persist wrote ∧ m.step i w = m.persisting i wrote w) ∨
    ∃ outcome reason status, m.phase = .conclude outcome reason status ∧
      m.step i w = m.concluding i outcome reason status w := by
  unfold step
  cases hphase : m.phase with
  | write plan node => exact .inr (.inl ⟨plan, node, rfl, rfl⟩)
  | persist wrote => exact .inr (.inr (.inl ⟨wrote, rfl, rfl⟩))
  | conclude outcome reason status => exact .inr (.inr (.inr ⟨outcome, reason, status, rfl, rfl⟩))
  | resolve plan =>
    left
    dsimp only
    split
    · rfl
    · rfl
  | budget | returned | outraced | raised => exact .inl rfl
  | authorize | replay | exclusion | target | memberships => exact .inl (m.reading_cases i w).1

variable {m i w}

/-- A star write is confirmed only where the provider ends in the requested state. -/
theorem confirmed_star {direction : StarDirection} {node : ℤ} {wrote : ProviderWrite}
    (h : m.phase = .write (.star direction) node) (hnext : (m.step i w).1 = .persist wrote) :
    wrote = ⟨.star direction, node, w.upstream⟩ ∧ (m.step i w).2.catalog = w.catalog ∧
      (m.step i w).2.upstream.stars =
        (w.upstream.setStar m.context.accountId node direction.starred).stars := by
  have hstep : m.step i w = m.writing i (.star direction) node w := by rw [step, h]
  rw [hstep, writing] at hnext ⊢
  dsimp only at hnext ⊢
  split at hnext
  · next hconfirms =>
    refine ⟨by cases hnext; rfl, rfl, ?_⟩
    cases hreply : i.reply with
    | applied => rfl
    | lost b => rw [hreply] at hconfirms; cases hconfirms
    | denied =>
      -- the state already held
      rw [hreply] at hconfirms
      have hheld : w.upstream.stars m.context.accountId node = direction.starred :=
        of_decide_eq_true hconfirms
      funext a r
      simp only [written, Upstream.setStar]
      split
      · next hcell => rw [hcell.1, hcell.2, hheld]
      · rfl
  · cases hnext

/-- A confirmed list write replaced the list set. -/
theorem confirmed_lists {change : MembershipChange} {listId : Uuid} {target : String}
    {live : List String} {node : ℤ} {wrote : ProviderWrite}
    (h : m.phase = .write (.lists change listId target live) node)
    (hnext : (m.step i w).1 = .persist wrote) :
    (m.step i w).2.upstream =
      w.upstream.setLists m.context.accountId node (desiredListIds change target live) := by
  have hstep : m.step i w = m.writing i (.lists change listId target live) node w := by
    rw [step, h]
  rw [hstep, writing] at hnext ⊢
  dsimp only at hnext ⊢
  split at hnext
  · next hconfirms =>
    cases hreply : i.reply with
    | applied => rfl
    | denied => rw [hreply] at hconfirms; cases hconfirms
    | lost b => rw [hreply] at hconfirms; cases hconfirms
  · cases hnext

theorem step_of_ended (h : m.phase.ended = true) : m.step i w = (m.phase, w) := by
  unfold step
  cases hphase : m.phase with
  | returned | outraced | raised => rfl
  | _ => rw [hphase] at h; cases h

/-- A committing step keeps the key and commits, commits unheard, or leaves the world as it was. -/
theorem persisting_cases (wrote : ProviderWrite) :
    (∃ status c, wrote.plan.persist i.ids i.now m.context m.pid m.request.idempotencyKey w.catalog =
        .ok (status, c) ∧
      (m.persisting i wrote w = (.returned status (some wrote), { w with catalog := c }) ∨
        m.persisting i wrote w = (.raised (.query .unavailable), { w with catalog := c }))) ∨
    (wrote.plan.persist i.ids i.now m.context m.pid m.request.idempotencyKey w.catalog =
        .error .keyTaken ∧ m.persisting i wrote w = (.outraced wrote, w)) ∨
    ∃ e, m.persisting i wrote w = (.raised e, w) := by
  unfold persisting
  obtain ⟨status, c, hok, hrun⟩ | ⟨status, c, hok, hrun⟩ | ⟨e, herr, hrun⟩ := i.fate.run_cases
    (wrote.plan.persist i.ids i.now m.context m.pid m.request.idempotencyKey) w.catalog
  · rw [hrun]
    exact .inl ⟨status, c, hok, .inl rfl⟩
  · rw [hrun]
    exact .inl ⟨status, c, hok, .inr rfl⟩
  · rw [hrun]
    by_cases hkey : e = .keyTaken
    · subst hkey
      rcases herr with herr | herr
      · exact .inr (.inl ⟨herr, rfl⟩)
      · cases herr
    · refine .inr (.inr ⟨e, ?_⟩)
      split
      · next heq => cases heq
      · next heq => cases heq; exact absurd rfl hkey
      · next heq => cases heq; rfl

/-- A call that returns after its write has committed. -/
theorem committed_world {wrote : ProviderWrite} {status : MutationStatus}
    (h : m.phase = .persist wrote) (hnext : (m.step i w).1 = .returned status (some wrote)) :
    wrote.plan.persist i.ids i.now m.context m.pid m.request.idempotencyKey w.catalog =
        .ok (status, (m.step i w).2.catalog) ∧
      (m.step i w).2.upstream = w.upstream := by
  have hstep : m.step i w = m.persisting i wrote w := by rw [step, h]
  rw [hstep] at hnext ⊢
  obtain ⟨status', c, hok, hrun | hrun⟩ | ⟨-, hrun⟩ | ⟨e, hrun⟩ :=
    persisting_cases (m := m) (i := i) (w := w) wrote
  · rw [hrun] at hnext ⊢
    cases hnext
    exact ⟨hok, rfl⟩
  · rw [hrun] at hnext
    cases hnext
  · rw [hrun] at hnext
    cases hnext
  · rw [hrun] at hnext
    cases hnext

/-- A concluding step ends the call without a success, and only its audit transaction can change the
world. -/
theorem concluding_cases (outcome : AuditOutcome) (reason : String) (status : MutationStatus) :
    ∃ c, (c = w.catalog ∨ recordAttempt i.ids m.context m.pid m.request.kind
        m.request.idempotencyKey outcome (reasonDetail reason) w.catalog = .ok ((), c)) ∧
      (m.concluding i outcome reason status w = (.returned status none, { w with catalog := c }) ∨
        ∃ e, m.concluding i outcome reason status w = (.raised e, { w with catalog := c })) := by
  unfold concluding
  obtain ⟨⟨⟩, c, hok, hrun⟩ | ⟨⟨⟩, c, hok, hrun⟩ | ⟨e, -, hrun⟩ := i.fate.run_cases
    (recordAttempt i.ids m.context m.pid m.request.kind m.request.idempotencyKey outcome
      (reasonDetail reason)) w.catalog
  · rw [hrun]
    exact ⟨c, .inr hok, .inl rfl⟩
  · rw [hrun]
    exact ⟨c, .inr hok, .inr ⟨_, rfl⟩⟩
  · rw [hrun]
    exact ⟨w.catalog, .inl rfl, .inr ⟨e, rfl⟩⟩

/-- The next phase of a mutation, with what the step found out: one constructor for each turn
`execute_mutation` can take. -/
inductive Turn (m : Mutation) (i : StepInput) (w : World) : Phase → Prop
  | finished (h : m.phase.ended = true) : Turn m i w m.phase
  | failing (e : CatalogError) : Turn m i w (.raised e)
  | concluding {outcome reason status}
      (h : (outcome = .rejected ∨ outcome = .failed) ∧ status.success = false) :
      Turn m i w (.conclude outcome reason status)
  | authorized (h : m.phase = .authorize) : Turn m i w .replay
  | replayed (h : m.phase = .replay)
      (hkey : successfulOutcomeExists m.request.idempotencyKey w.catalog.tables = true) :
      Turn m i w (.returned .alreadyApplied none)
  | unclaimed (h : m.phase = .replay)
      (hkey : successfulOutcomeExists m.request.idempotencyKey w.catalog.tables = false) :
      Turn m i w .exclusion
  | unexcluded (h : m.phase = .exclusion)
      (hfree : (m.request.direction.any fun d => ignoredStarConflict d m.pid w.catalog.tables) =
        false) : Turn m i w .budget
  | dispatched (h : m.phase = .budget) : Turn m i w m.dispatch
  | targeted {change listId target} (h : m.phase = .target change listId)
      (htarget : targetProviderId listId m.context.accountId w.catalog.tables = some target) :
      Turn m i w (.memberships change listId target)
  | computed {change listId target} (h : m.phase = .memberships change listId target) :
      Turn m i w (.resolve (.lists change listId target
        (liveMemberListIds m.context.accountId m.pid w.catalog.tables)))
  | resolved {plan node} (h : m.phase = .resolve plan)
      (hpath : w.upstream.paths m.request.repository.owner m.request.repository.name = some node) :
      Turn m i w (.write plan node)
  | confirmed {plan node} (h : m.phase = .write plan node) :
      Turn m i w (.persist ⟨plan, node, w.upstream⟩)
  | committed {wrote status c} (h : m.phase = .persist wrote)
      (hok : wrote.plan.persist i.ids i.now m.context m.pid m.request.idempotencyKey w.catalog =
        .ok (status, c)) : Turn m i w (.returned status (some wrote))
  | outraced {wrote} (h : m.phase = .persist wrote)
      (herr : wrote.plan.persist i.ids i.now m.context m.pid m.request.idempotencyKey w.catalog =
        .error .keyTaken) : Turn m i w (.outraced wrote)
  | concluded {outcome reason status} (h : m.phase = .conclude outcome reason status) :
      Turn m i w (.returned status none)

/-- A reading step takes a turn. -/
theorem turn_reading (db : Database) (hdb : db = w.catalog.tables)
    (hreads : ∀ phase, m.phase = phase → phase = .authorize ∨ phase = .replay ∨ phase = .exclusion ∨
      (∃ change listId, phase = .target change listId) ∨
      ∃ change listId target, phase = .memberships change listId target) :
    Turn m i w (m.afterRead db m.phase) := by
  subst hdb
  obtain hp | hp | hp | ⟨change, listId, hp⟩ | ⟨change, listId, target, hp⟩ := hreads _ rfl
  · rw [hp, afterRead]
    split
    · exact .concluding ⟨.inl rfl, rfl⟩
    · exact .authorized hp
  · rw [hp, afterRead]
    split
    · next hkey => exact .replayed hp hkey
    · next hkey => exact .unclaimed hp (by simpa using hkey)
  · rw [hp, afterRead]
    split
    · exact .concluding ⟨.inl rfl, rfl⟩
    · next hfree => exact .unexcluded hp (by simpa using hfree)
  · rw [hp, afterRead]
    split
    · next target htarget => exact .targeted hp htarget
    · exact .concluding ⟨.inr rfl, rfl⟩
  · rw [hp, afterRead]
    exact .computed hp

/-- **Every step takes a turn.** -/
theorem turn (m : Mutation) (i : StepInput) (w : World) : Turn m i w (m.step i w).1 := by
  have hreading : (∀ phase, m.phase = phase → phase = .authorize ∨ phase = .replay ∨
      phase = .exclusion ∨ (∃ change listId, phase = .target change listId) ∨
      ∃ change listId target, phase = .memberships change listId target) →
      Turn m i w (m.reading i w).1 := by
    intro hreads
    obtain ⟨-, hread | ⟨e, hread⟩⟩ := m.reading_cases i w
    · rw [hread]
      exact turn_reading _ rfl hreads
    · rw [hread]
      exact .failing e
  unfold step
  cases hphase : m.phase with
  | authorize | replay | exclusion | target | memberships =>
    refine hreading fun phase hp => ?_
    rw [← hp, hphase]
    simp
  | budget =>
    dsimp only
    split
    · exact .dispatched hphase
    · exact .concluding ⟨.inr rfl, rfl⟩
  | resolve plan =>
    dsimp only
    split
    · next node hpath _ => exact .resolved hphase hpath
    · exact .concluding ⟨.inr rfl, rfl⟩
  | write plan node =>
    dsimp only [writing]
    split
    · exact .confirmed hphase
    · exact .concluding ⟨.inr rfl, rfl⟩
  | persist wrote =>
    dsimp only
    obtain ⟨status, c, hok, hrun | hrun⟩ | ⟨herr, hrun⟩ | ⟨e, hrun⟩ :=
      persisting_cases (m := m) (i := i) (w := w) wrote
    · rw [hrun]; exact .committed hphase hok
    · rw [hrun]; exact .failing _
    · rw [hrun]; exact .outraced hphase herr
    · rw [hrun]; exact .failing _
  | conclude outcome reason status =>
    dsimp only
    obtain ⟨c, -, hrun | ⟨e, hrun⟩⟩ :=
      concluding_cases (m := m) (i := i) (w := w) outcome reason status
    · rw [hrun]; exact .concluded hphase
    · rw [hrun]; exact .failing _
  | returned | outraced | raised =>
    dsimp only
    rw [← hphase]
    exact .finished (by rw [hphase]; rfl)

/-- A step keeps to the request. -/
theorem follows_step (h : m.phase.Follows m.request) (i : StepInput) (w : World) :
    (m.step i w).1.Follows m.request := by
  have hturn := m.turn i w
  generalize (m.step i w).1 = next at hturn ⊢
  cases hturn with
  | finished => exact h
  | failing | authorized | replayed | unclaimed | unexcluded | concluded => trivial
  | concluding hfail => exact hfail
  | dispatched =>
    unfold dispatch
    split
    · next heq => rw [heq]; exact rfl
    · next heq => rw [heq]; exact rfl
    · next heq => rw [heq]; exact rfl
    · next heq => rw [heq]; exact rfl
  | targeted hphase | computed hphase | resolved hphase | confirmed hphase | committed hphase
  | outraced hphase =>
    rw [hphase] at h
    exact h

end Mutation

namespace ModeChange

variable (g : ModeChange) (i : StepInput) (w : World)

theorem reading_cases :
    (g.reading i w).2 = w ∧
      ((g.reading i w).1 = g.afterRead w.catalog.tables g.phase ∨ ∃ e, (g.reading i w).1 = .raised e) := by
  unfold reading World.read
  by_cases hserved : i.fate = .served
  · rw [if_pos hserved]
    exact ⟨rfl, .inl rfl⟩
  · rw [if_neg hserved]
    exact ⟨rfl, .inr ⟨_, rfl⟩⟩

/-- A step changes the world only by its commit. -/
theorem step_cases :
    (g.step i w).2 = w ∨
    ∃ current starred, g.phase = .commit current starred ∧
      g.step i w = g.committing i current starred w := by
  unfold step
  cases hphase : g.phase with
  | commit current starred => exact .inr ⟨current, starred, rfl, rfl⟩
  | returned | outraced | raised => exact .inl rfl
  | replay | read => exact .inl (g.reading_cases i w).1

variable {g i w}

/-- A committing step keeps the key and commits, commits unheard, or leaves the world as it was. -/
theorem committing_cases (current : Option RepositoryMode) (starred : Bool) :
    (∃ status c, g.transaction i current starred w.catalog = .ok (status, c) ∧
      (g.committing i current starred w = (.returned status, { w with catalog := c }) ∨
        g.committing i current starred w =
          (.raised (.query .unavailable), { w with catalog := c }))) ∨
    (g.transaction i current starred w.catalog = .error .keyTaken ∧
      g.committing i current starred w = (.outraced, w)) ∨
    ∃ e, g.committing i current starred w = (.raised e, w) := by
  unfold committing
  obtain ⟨status, c, hok, hrun⟩ | ⟨status, c, hok, hrun⟩ | ⟨e, herr, hrun⟩ := i.fate.run_cases
    (g.transaction i current starred) w.catalog
  · rw [hrun]
    exact .inl ⟨status, c, hok, .inl rfl⟩
  · rw [hrun]
    exact .inl ⟨status, c, hok, .inr rfl⟩
  · rw [hrun]
    by_cases hkey : e = .keyTaken
    · subst hkey
      rcases herr with herr | herr
      · exact .inr (.inl ⟨herr, rfl⟩)
      · cases herr
    · refine .inr (.inr ⟨e, ?_⟩)
      split
      · next heq => cases heq
      · next heq => cases heq; exact absurd rfl hkey
      · next heq => cases heq; rfl

end ModeChange

namespace System

variable {k : Contracts} {s : System}

theorem mutations_advance (s : System) (n : ℕ) (i : StepInput) (j : ℕ) :
    (s.advance n i).mutations[j]? =
      if j = n then s.mutations[n]?.map (·.next i s.world) else s.mutations[j]? := by
  unfold advance
  cases hm : s.mutations[n]? with
  | none =>
    by_cases hj : j = n
    · rw [if_pos hj, hj]
      exact hm
    · rw [if_neg hj]
  | some m =>
    obtain ⟨hlt, -⟩ := List.getElem?_eq_some_iff.mp hm
    dsimp only
    split
    · next hj => rw [hj, List.getElem?_set_self hlt]; rfl
    · next hj => rw [List.getElem?_set_ne (Ne.symm hj)]

theorem modes_adjust (s : System) (n : ℕ) (i : StepInput) (j : ℕ) :
    (s.adjust n i).modes[j]? =
      if j = n then s.modes[n]?.map (·.next i s.world) else s.modes[j]? := by
  unfold adjust
  cases hg : s.modes[n]? with
  | none =>
    by_cases hj : j = n
    · rw [if_pos hj, hj]
      exact hg
    · rw [if_neg hj]
  | some g =>
    obtain ⟨hlt, -⟩ := List.getElem?_eq_some_iff.mp hg
    dsimp only
    split
    · next hj => rw [hj, List.getElem?_set_self hlt]; rfl
    · next hj => rw [List.getElem?_set_ne (Ne.symm hj)]

@[simp] theorem modes_advance (s : System) (n : ℕ) (i : StepInput) :
    (s.advance n i).modes = s.modes := by
  unfold advance
  split
  · rfl
  · rfl

@[simp] theorem mutations_adjust (s : System) (n : ℕ) (i : StepInput) :
    (s.adjust n i).mutations = s.mutations := by
  unfold adjust
  split
  · rfl
  · rfl

end System

end GithubCatalog
