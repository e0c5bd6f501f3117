import GithubCatalog.ModeExclusion

/-!
# Keys and the operations they replay

`execute_mutation` and `set_repository_mode` share one space of idempotency keys, and both replay a key
that has a success without comparing what the success was for.

* `Ask` - what a call asks for: the account, the repository and the deed;
* `Attests` - an audit row, with the catalog its commit left, shows that an ask was carried out;
* `TrailedSystem` - the calls in flight, with the catalog that the commit of each successful row left;
* `KeysOwned` - calls that share a key ask for the same.

A mode change that finds its mode in place only records so, and the row it read is not locked; `Steady`
says that the mode is still in place.  No row records the list of a list mutation.
-/

namespace GithubCatalog

open Relational Transact Runs

/-! ### Asks -/

/-- What is to be done. -/
inductive Deed where
  | star (direction : StarDirection)
  | list (change : MembershipChange) (listId : Uuid)
  | mode (requested : RequestedMode)
deriving DecidableEq

namespace Deed

def kind : Deed → OperationKind
  | star direction => direction.kind
  | list change _ => change.kind
  | mode _ => .modeSet

/-- The list of a list mutation. -/
def listId : Deed → Option Uuid
  | list _ listId => some listId
  | _ => none

end Deed

/-- What a call asks for. -/
structure Ask where
  account : Uuid
  pid : ℤ
  deed : Deed
deriving DecidableEq

/-- Whether a membership change leaves a member. -/
def MembershipChange.member : MembershipChange → Bool
  | .add => true
  | .remove => false

/-- Whether the catalog records the repository as a member of the list, or as none. -/
def recordedMember (listId : Uuid) (pid : ℤ) (member : Bool) (db : Database) : Bool :=
  (repositoryOf pid db).any fun r => db.starListMemberships.any fun m =>
    decide (m.listId = listId) && decide (m.repositoryId = r.repositoryId) && decide (m.member = member)

/-- The requested state is in place in the catalog. -/
def Ask.holds (ask : Ask) (db : Database) : Bool :=
  match ask.deed with
  | .star direction => decide (recordedStar ask.account ask.pid db = some direction.starred)
  | .list change listId => recordedMember listId ask.pid change.member db
  | .mode requested => decide (modeOf ask.pid db = some requested.mode)

def MutationRequest.deed : MutationRequest → Deed
  | star _ _ => .star .add
  | unstar _ _ => .star .remove
  | listMemberAdd _ listId _ => .list .add listId
  | listMemberRemove _ listId _ => .list .remove listId

def Mutation.ask (m : Mutation) : Ask := ⟨m.context.accountId, m.pid, m.request.deed⟩

def ModeChange.ask (g : ModeChange) : Ask := ⟨g.context.accountId, g.pid, .mode g.requested⟩

/-! ### The trail -/

/-- The successful rows of the trail. -/
def successes (db : Database) : List MutationAudit := db.mutationAudit.filter (·.succeeded)

theorem successfulOutcomeExists_iff {key : String} {db : Database} :
    successfulOutcomeExists key db = true ↔ ∃ row ∈ successes db, row.idempotencyKey = key := by
  simp only [successfulOutcomeExists, successes, List.any_eq_true, List.mem_filter, Bool.and_eq_true,
    decide_eq_true_eq]
  constructor
  · rintro ⟨row, hrow, hkey, hsuccess⟩
    exact ⟨row, ⟨hrow, hsuccess⟩, hkey⟩
  · rintro ⟨row, ⟨hrow, hsuccess⟩, hkey⟩
    exact ⟨row, hrow, hkey, hsuccess⟩

/-- The row shows that the ask was carried out under the key, in the catalog its commit left. -/
structure Attests (ask : Ask) (key : String) (row : MutationAudit) (db : Database) : Prop where
  success : row.succeeded = true
  key_eq : row.idempotencyKey = key
  kind : row.operationKind = ask.deed.kind
  account : row.accountId = ask.account
  repository : (repositoryOf ask.pid db).map (·.repositoryId) = some row.repositoryId
  held : ask.holds db = true

/-- What a step of a call does to the successes: nothing, or it commits one that attests its ask. -/
def TrailEffect (ask : Ask) (key : String) (db db' : Database) : Prop :=
  successes db' = successes db ∨ ∃ row, successes db' = successes db ++ [row] ∧
    Attests ask key row db' ∧ row.listId = none

/-- The calls of a system, with what they were told. -/
def System.calls (s : System) : List (Ask × String × Option MutationStatus) :=
  s.mutations.map (fun m => (m.ask, m.request.idempotencyKey, m.phase.status)) ++
    s.modes.map fun g => (g.ask, g.idempotencyKey, g.phase.status)

/-- What the calls ask for, under which keys. -/
def System.asks (s : System) : List (Ask × String) := s.calls.map fun p => (p.1, p.2.1)

/-- Calls that share a key ask for the same. -/
def KeysOwned (s : System) : Prop := ∀ p ∈ s.asks, ∀ q ∈ s.asks, p.2 = q.2 → p.1 = q.1

instance (s : System) : Decidable (KeysOwned s) :=
  inferInstanceAs (Decidable (∀ p ∈ s.asks, ∀ q ∈ s.asks, p.2 = q.2 → p.1 = q.1))

/-- The calls in flight, with the catalog that the commit of each successful row left. -/
structure TrailedSystem where
  system : System
  commits : List (MutationAudit × Database)

namespace TrailedSystem

def tables (x : TrailedSystem) : Database := x.system.world.catalog.tables

def step (k : Contracts) (x : TrailedSystem) (e : Event) : TrailedSystem :=
  let s := x.system.step k e
  ⟨s, x.commits ++ ((successes s.world.catalog.tables).drop (successes x.tables).length).map fun row =>
    (row, s.world.catalog.tables)⟩

/-- A call with the ask and the key reported a success. -/
def Succeeded (x : TrailedSystem) (ask : Ask) (key : String) : Prop :=
  ∃ status, (ask, key, status) ∈ x.system.calls ∧ reportedSuccess status = true

/-- A successful row of the trail attests the ask. -/
def Performed (x : TrailedSystem) (ask : Ask) (key : String) : Prop :=
  ∃ row ∈ successes x.tables, ∃ db, (row, db) ∈ x.commits ∧ Attests ask key row db

/-- A successful row of the trail attests the ask, and records its list. -/
def Backed (x : TrailedSystem) (ask : Ask) (key : String) : Prop :=
  ∃ row ∈ successes x.tables, ∃ db, (row, db) ∈ x.commits ∧ Attests ask key row db ∧
    row.listId = ask.deed.listId

end TrailedSystem

/-- The steps of calls, with fresh audit ids, and of flows that keep off the trail. -/
def Ordinary (x : TrailedSystem) : Event → Prop
  | .advance _ i | .adjust _ i => ∀ a ∈ x.tables.mutationAudit, a.auditId ≠ i.ids 1
  | .catalog op => op.leaves .mutationAudit = true
  | .upstream _ => True

/-- The mode change is about to commit, and found its mode in place. -/
def ModeChange.confirms (g : ModeChange) : Bool :=
  match g.phase with
  | .commit current _ => decide (current = some g.requested.mode)
  | _ => false

/-- A mode change that found its mode in place commits while it is. -/
def Steady (x : TrailedSystem) : Event → Prop
  | .adjust n _ => ∀ g ∈ x.system.modes[n]?, g.confirms = true →
      modeOf g.pid x.tables = some g.requested.mode
  | _ => True

instance (x : TrailedSystem) : (e : Event) → Decidable (Ordinary x e)
  | .advance _ i => inferInstanceAs (Decidable (∀ a ∈ x.tables.mutationAudit, a.auditId ≠ i.ids 1))
  | .adjust _ i => inferInstanceAs (Decidable (∀ a ∈ x.tables.mutationAudit, a.auditId ≠ i.ids 1))
  | .catalog op => inferInstanceAs (Decidable (op.leaves .mutationAudit = true))
  | .upstream _ => inferInstanceAs (Decidable True)

instance (x : TrailedSystem) : (e : Event) → Decidable (Steady x e)
  | .adjust n _ => inferInstanceAs (Decidable (∀ g ∈ x.system.modes[n]?, g.confirms = true →
      modeOf g.pid x.tables = some g.requested.mode))
  | .advance _ _ => inferInstanceAs (Decidable True)
  | .catalog _ => inferInstanceAs (Decidable True)
  | .upstream _ => inferInstanceAs (Decidable True)

/-! ### What one step commits -/

section commits

variable {ids : ℕ → Uuid} {now : Time} {context : MutationContext} {pid : ℤ} {key : String}
  {c c' : Catalog} {status : MutationStatus}

/-- The successes after a successful row. -/
theorem successes_append {db db' : Database} {auditId repositoryId : Uuid} {kind : OperationKind}
    {isNew : Bool} {detail : Jsonb}
    (h : db'.mutationAudit = db.mutationAudit ++ [auditRow auditId context repositoryId kind key
      (if isNew then .applied else .alreadyApplied) detail]) :
    successes db' = successes db ++ [auditRow auditId context repositoryId kind key
      (if isNew then .applied else .alreadyApplied) detail] := by
  rw [successes, h, List.filter_append,
    List.filter_cons_of_pos (succeeded_auditRow auditId context repositoryId kind key isNew detail)]
  rfl

/-- A repository keeps its id when its row is rewritten. -/
theorem repositoryId_updateWhere {db db' : Database} {id : Uuid} {f : Repository → Repository}
    (hpid : ∀ r, (f r).providerRepositoryId = r.providerRepositoryId)
    (hid : ∀ r, (f r).repositoryId = r.repositoryId)
    (h : db'.repositories = updateWhere (fun r => decide (r.repositoryId = id)) f db.repositories) :
    (repositoryOf pid db').map (·.repositoryId) = (repositoryOf pid db).map (·.repositoryId) := by
  rw [repositoryOf_updateWhere hpid h, Option.map_map]
  congr 1
  funext r
  simp only [Function.comp]
  split
  · exact hid r
  · rfl

/-- The repository of a confirmed star. -/
theorem persistConfirmedStar_repository {direction : StarDirection} {id : Uuid} {c₁ : Catalog}
    (h : persistConfirmedStar ids now context pid key direction c = .ok (status, c'))
    (h₁ : upsertRepositoryInTx (ids 0) pid c = .ok (id, c₁)) :
    (repositoryOf pid c'.tables).map (·.repositoryId) = some id := by
  obtain ⟨id', c₁', h₁', hrepos, -⟩ := persistConfirmedStar_eq_ok h
  rw [h₁] at h₁'
  cases h₁'
  obtain ⟨-, r, hr, rfl⟩ := upsertRepositoryInTx_found h₁
  rw [repositoryId_updateWhere direction.adjust_pid direction.adjust_id hrepos, hr]
  rfl

/-- Every repository keeps its id. -/
def KeepsIds (db db' : Database) : Prop :=
  ∀ pid, (repositoryOf pid db').map (·.repositoryId) = (repositoryOf pid db).map (·.repositoryId)

instance : Std.Refl KeepsIds := ⟨fun _ _ => rfl⟩

instance : IsTrans Database KeepsIds := ⟨fun _ _ _ h h' pid => (h' pid).trans (h pid)⟩

theorem keepsIds_of_touches {α : Type} {ts : List Table} {x : Tx α} (hx : Touches ts x)
    (hrepos : Table.repositories ∉ ts) : Tx.Relates KeepsIds x := by
  intro c a c' h q
  have hsame : c'.tables.repositories = c.tables.repositories := hx.rows_eq h hrepos
  rw [repositoryOf, repositoryOf, hsame]

/-- The statements of a mode change keep the ids. -/
theorem keepsIds_applyRequestedMode (i : StepInput) (requested : RequestedMode)
    (current : Option RepositoryMode) (starred : Bool) (id : Uuid) : Tx.Relates KeepsIds
      (applyRequestedMode i.ids i.now context requested key current starred id) := by
  unfold applyRequestedMode
  have haudit : ∀ row, Tx.Relates KeepsIds (insertAuditRow row) := fun row =>
    keepsIds_of_touches (touches_insertAuditRow row) (by decide)
  cases validateMode requested starred with
  | some reason => exact (haudit _).bind fun _ => Tx.Relates.pure _
  | none =>
    refine (relates_onlyIf ?_).bind fun _ => (haudit _).bind fun _ =>
      relates_finishWithReplayGuard _ _
    refine Tx.Relates.bind (relates_write fun db _ q => ?_) fun _ =>
      keepsIds_of_touches (touches_markBackupPolicyDirtyInTx _) (by decide)
    exact repositoryId_updateWhere (f := fun r => { r with mode := some requested.mode })
      (fun _ => rfl) (fun _ => rfl) rfl

/-- A membership change leaves its member. -/
theorem convergeMembershipProjection_member {listId r : Uuid} {change : MembershipChange}
    (h : convergeMembershipProjection now listId r change c = .ok ((), c')) :
    (c'.tables.starListMemberships.any fun m => decide (m.listId = listId) &&
      decide (m.repositoryId = r) && decide (m.member = change.member)) = true := by
  rw [write_eq_ok.mp h]
  cases change with
  | add =>
    apply any_upsertWhere_of_own
    · intro m hm
      simp only [Bool.and_eq_true] at hm ⊢
      exact hm.1
    · intro m hm
      simp only [Bool.and_eq_true, decide_eq_true_eq] at hm ⊢
      exact ⟨hm, rfl⟩
    · simp [MembershipChange.member]
  | remove =>
    apply any_upsertWhere_of_own
    · intro m hm
      simp only [Bool.and_eq_true] at hm ⊢
      exact hm.1
    · intro m hm
      simp only [Bool.and_eq_true, decide_eq_true_eq] at hm ⊢
      exact ⟨hm, rfl⟩
    · simp [MembershipChange.member]

/-- The repository and the membership of a persisted list write. -/
theorem persistListMembership_spec {listId : Uuid} {change : MembershipChange} {desired : List String}
    {id : Uuid} {c₁ : Catalog}
    (h : persistListMembership ids now context pid listId key change desired c = .ok (status, c'))
    (h₁ : upsertRepositoryInTx (ids 0) pid c = .ok (id, c₁)) :
    (repositoryOf pid c'.tables).map (·.repositoryId) = some id ∧
      recordedMember listId pid change.member c'.tables = true := by
  obtain ⟨id', c₁', h₁', h⟩ := Tx.bind_eq_ok.mp h
  rw [h₁] at h₁'
  cases h₁'
  obtain ⟨⟨⟩, c₂, h₂, h₃⟩ := Tx.bind_eq_ok.mp h
  obtain ⟨-, r, hr, rfl⟩ := upsertRepositoryInTx_found h₁
  have hframe : Touches [.mutationAudit] (do
      let inserted ← insertAuditRow (auditRow (ids 1) context r.repositoryId change.kind key .applied
        (viaDesired desired))
      finishWithReplayGuard inserted true) :=
    (touches_insertAuditRow _).bind fun _ => (touches_finishWithReplayGuard _ _).mono (by decide)
  have hrepos : c'.tables.repositories = c₁.tables.repositories :=
    (hframe.rows_eq h₃ (t := .repositories) (by decide)).trans
      ((touches_convergeMembershipProjection _ _ _ _).rows_eq h₂ (t := .repositories) (by decide))
  have hmembers : c'.tables.starListMemberships = c₂.tables.starListMemberships :=
    hframe.rows_eq h₃ (t := .starListMemberships) (by decide)
  have hfound : repositoryOf pid c'.tables = some r := by
    rw [repositoryOf, hrepos]
    exact hr
  refine ⟨by rw [hfound]; rfl, ?_⟩
  rw [recordedMember, hfound, Option.any_some, hmembers]
  exact convergeMembershipProjection_member h₂

end commits

/-- The plan of a call has the kind of its deed. -/
theorem Plan.Suits.kind_eq {request : MutationRequest} {plan : Plan} (h : plan.Suits request) :
    plan.kind = request.deed.kind := by
  cases plan with
  | star direction =>
    cases request with
    | star | unstar => cases h; rfl
    | listMemberAdd | listMemberRemove => cases h
  | lists change listId target live =>
    cases request with
    | star | unstar => cases h
    | listMemberAdd | listMemberRemove => cases h; rfl

theorem MutationRequest.deed_star {request : MutationRequest} {direction : StarDirection}
    (h : request.direction = some direction) : request.deed = .star direction := by
  cases request with
  | star | unstar => cases h; rfl
  | listMemberAdd | listMemberRemove => cases h

theorem MutationRequest.deed_list {request : MutationRequest} {change : MembershipChange}
    {listId : Uuid} (h : request.membership = some (change, listId)) :
    request.deed = .list change listId := by
  cases request with
  | star | unstar => cases h
  | listMemberAdd | listMemberRemove => cases h; rfl

/-- **A persisted write attests its ask.** -/
theorem Mutation.persist_attests {m : Mutation} {plan : Plan} (hsuits : plan.Suits m.request)
    {ids : ℕ → Uuid} {now : Time} {c c' : Catalog} {status : MutationStatus}
    (h : plan.persist ids now m.context m.pid m.request.idempotencyKey c = .ok (status, c')) :
    TrailEffect m.ask m.request.idempotencyKey c.tables c'.tables := by
  obtain ⟨id, c₁, isNew, detail, h₁, haudit, -⟩ := persist_row h
  have hdone : (repositoryOf m.pid c'.tables).map (·.repositoryId) = some id ∧
      m.ask.holds c'.tables = true := by
    cases plan with
    | star direction =>
      refine ⟨persistConfirmedStar_repository h h₁, ?_⟩
      rw [Ask.holds, Mutation.ask, MutationRequest.deed_star hsuits]
      refine decide_eq_true ?_
      rw [recordedStar_persist h, if_pos ⟨rfl, rfl⟩]
    | lists change listId target live =>
      obtain ⟨hrepository, hmember⟩ := persistListMembership_spec h h₁
      refine ⟨hrepository, ?_⟩
      rw [Ask.holds, Mutation.ask, MutationRequest.deed_list hsuits]
      exact hmember
  refine .inr ⟨_, successes_append haudit, ?_, rfl⟩
  exact ⟨succeeded_auditRow _ _ _ _ _ _ _, rfl, hsuits.kind_eq, rfl, hdone.1, hdone.2⟩

/-- **A committed mode change attests its ask**, where a mode it found in place still is. -/
theorem ModeChange.commit_attests {g : ModeChange} {i : StepInput} {current : Option RepositoryMode}
    {starred : Bool} {c c' : Catalog} {status : MutationStatus}
    (hsteady : current = some g.requested.mode → modeOf g.pid c.tables = some g.requested.mode)
    (h : g.transaction i current starred c = .ok (status, c')) :
    TrailEffect g.ask g.idempotencyKey c.tables c'.tables := by
  obtain ⟨id, c₁, h₁, ⟨hsuccess, isNew, detail, haudit⟩ | ⟨-, -, hsame⟩⟩ := modeChange_row h
  · obtain ⟨-, hmode, hset⟩ := reads_transaction h
    have hheld : modeOf g.pid c'.tables = some g.requested.mode := by
      by_cases hcurrent : current = some g.requested.mode
      · rcases hmode with hold | ⟨-, hnew⟩
        · rw [hold, hsteady hcurrent]
        · exact hnew
      · exact hset hsuccess hcurrent
    have hfound : (repositoryOf g.pid c'.tables).map (·.repositoryId) = some id := by
      obtain ⟨id', c₁', h₁', h₂⟩ := Tx.bind_eq_ok.mp h
      rw [h₁] at h₁'
      cases h₁'
      obtain ⟨-, r, hr, rfl⟩ := upsertRepositoryInTx_found h₁
      rw [keepsIds_applyRequestedMode i _ _ _ _ _ _ _ h₂ g.pid, hr]
      rfl
    refine .inr ⟨_, successes_append haudit, ?_, rfl⟩
    exact ⟨succeeded_auditRow _ _ _ _ _ _ _, rfl, rfl, rfl, hfound, decide_eq_true hheld⟩
  · exact .inl hsame

/-- A refused or failed attempt leaves the successes alone. -/
theorem successes_recordAttempt {ids : ℕ → Uuid} {context : MutationContext} {pid : ℤ}
    {kind : OperationKind} {key : String} {outcome : AuditOutcome} {detail : Jsonb} {c c' : Catalog}
    (h : recordAttempt ids context pid kind key outcome detail c = .ok ((), c'))
    (houtcome : outcome = .rejected ∨ outcome = .failed) :
    successes c'.tables = successes c.tables := by
  obtain ⟨r, c₁, h₁, h₂⟩ := Tx.bind_eq_ok.mp h
  obtain ⟨won, c₂, haudit, hpure⟩ := Tx.bind_eq_ok.mp h₂
  obtain ⟨-, rfl⟩ := Tx.pure_eq_ok.mp hpure
  have hsame : c₁.tables.mutationAudit = c.tables.mutationAudit :=
    (touches_upsertRepositoryInTx _ _).rows_eq h₁ (t := .mutationAudit) (by decide)
  rw [successes, successes, successes_insertAuditRow haudit _, hsame]
  rcases houtcome with rfl | rfl
  · rfl
  · rfl

/-- **One step of a mutation.** -/
theorem Mutation.step_trail {m : Mutation} (hfollows : m.phase.Follows m.request) (i : StepInput)
    (w : World) : TrailEffect m.ask m.request.idempotencyKey w.catalog.tables
      (m.step i w).2.catalog.tables := by
  obtain hsame | ⟨plan, node, -, hstep⟩ | ⟨wrote, hphase, hstep⟩ |
    ⟨outcome, reason, status, hphase, hstep⟩ := m.step_cases i w
  · rw [hsame]
    exact .inl rfl
  · rw [hstep]
    exact .inl rfl
  · rw [hphase] at hfollows
    obtain ⟨status, c, hok, hrun | hrun⟩ | ⟨-, hrun⟩ | ⟨e, hrun⟩ :=
      Mutation.persisting_cases (m := m) (i := i) (w := w) wrote
    · rw [hstep, hrun]
      exact Mutation.persist_attests hfollows hok
    · rw [hstep, hrun]
      exact Mutation.persist_attests hfollows hok
    · rw [hstep, hrun]
      exact .inl rfl
    · rw [hstep, hrun]
      exact .inl rfl
  · rw [hphase] at hfollows
    obtain ⟨c, hc, hrun⟩ :=
      Mutation.concluding_cases (m := m) (i := i) (w := w) outcome reason status
    have hquiet : successes c.tables = successes w.catalog.tables := by
      rcases hc with rfl | hok
      · rfl
      · exact successes_recordAttempt hok hfollows.1
    rcases hrun with hrun | ⟨e, hrun⟩
    · rw [hstep, hrun]
      exact .inl hquiet
    · rw [hstep, hrun]
      exact .inl hquiet

/-- **One step of a mode change.** -/
theorem ModeChange.step_trail {g : ModeChange} {i : StepInput} {w : World}
    (hsteady : g.confirms = true → modeOf g.pid w.catalog.tables = some g.requested.mode) :
    TrailEffect g.ask g.idempotencyKey w.catalog.tables (g.step i w).2.catalog.tables := by
  obtain hsame | ⟨current, starred, hphase, hstep⟩ := g.step_cases i w
  · rw [hsame]
    exact .inl rfl
  · obtain ⟨status, c, hok, hrun⟩ | ⟨-, hrun⟩ | ⟨e, hrun⟩ :=
      ModeChange.committing_cases (g := g) (i := i) (w := w) current starred
    · have hfound : current = some g.requested.mode →
          modeOf g.pid w.catalog.tables = some g.requested.mode := by
        intro hcurrent
        apply hsteady
        rw [ModeChange.confirms, hphase]
        exact decide_eq_true hcurrent
      have heffect := ModeChange.commit_attests hfound hok
      rcases hrun with hrun | hrun
      · rw [hstep, hrun]
        exact heffect
      · rw [hstep, hrun]
        exact heffect
    · rw [hstep, hrun]
      exact .inl rfl
    · rw [hstep, hrun]
      exact .inl rfl

/-! ### Successes and the keys they claim -/

theorem TrailEffect.claimed {ask : Ask} {key key' : String} {db db' : Database}
    (h : TrailEffect ask key db db') (hclaimed : successfulOutcomeExists key' db = true) :
    successfulOutcomeExists key' db' = true := by
  obtain ⟨row, hrow, hkey⟩ := successfulOutcomeExists_iff.mp hclaimed
  refine successfulOutcomeExists_iff.mpr ⟨row, ?_, hkey⟩
  rcases h with hsame | ⟨new, hnew, -⟩
  · rw [hsame]
    exact hrow
  · rw [hnew]
    exact List.mem_append_left _ hrow

/-- A list write loses its key only to a row that claimed it, or to a repeated audit id. -/
theorem persistListMembership_keyTaken {ids : ℕ → Uuid} {now : Time} {context : MutationContext}
    {pid : ℤ} {listId : Uuid} {key : String} {change : MembershipChange} {desired : List String}
    {c : Catalog}
    (h : persistListMembership ids now context pid listId key change desired c = .error .keyTaken) :
    successfulOutcomeExists key c.tables = true ∨
      ∃ a ∈ c.tables.mutationAudit, a.auditId = ids 1 := by
  by_contra hfree
  refine Tx.bind_ne_error (upsertRepositoryInTx_ne_error _ _ (by simp) c) (fun r c₁ h₁ => ?_) h
  refine Tx.bind_ne_error (write_ne_error (by decide) _) fun _ c₂ h₂ => ?_
  intro hkey
  have hsame : c₂.tables.mutationAudit = c.tables.mutationAudit :=
    ((touches_convergeMembershipProjection _ _ _ _).rows_eq h₂ (t := .mutationAudit)
      (by decide)).trans ((touches_upsertRepositoryInTx _ _).rows_eq h₁ (t := .mutationAudit)
      (by decide))
  have htaken := audited_keyTaken_cases hkey
  rw [successfulOutcomeExists, hsame] at htaken
  exact hfree htaken

theorem Plan.persist_keyTaken {plan : Plan} {ids : ℕ → Uuid} {now : Time} {context : MutationContext}
    {pid : ℤ} {key : String} {c : Catalog}
    (h : plan.persist ids now context pid key c = .error .keyTaken) :
    successfulOutcomeExists key c.tables = true ∨
      ∃ a ∈ c.tables.mutationAudit, a.auditId = ids 1 := by
  cases plan with
  | star direction => exact persistConfirmedStar_keyTaken h
  | lists change listId target live => exact persistListMembership_keyTaken h

theorem ModeChange.transaction_keyTaken {g : ModeChange} {i : StepInput}
    {current : Option RepositoryMode} {starred : Bool} {c : Catalog}
    (h : g.transaction i current starred c = .error .keyTaken) :
    successfulOutcomeExists g.idempotencyKey c.tables = true ∨
      ∃ a ∈ c.tables.mutationAudit, a.auditId = i.ids 1 := by
  by_contra hfree
  refine Tx.bind_ne_error (upsertRepositoryInTx_ne_error _ _ (by simp) c) (fun r c₁ h₁ => ?_) h
  unfold applyRequestedMode
  cases validateMode g.requested starred with
  | some reason =>
    exact Tx.bind_ne_error (insertAuditRow_ne_error _ (by simp) c₁) fun _ _ _ =>
      Tx.ne_error_of_succeeds rfl
  | none =>
    refine Tx.bind_ne_error ?_ fun _ c₂ h₂ => ?_
    · cases decide (current = some g.requested.mode) with
      | true => exact Tx.ne_error_of_succeeds rfl
      | false =>
        exact Tx.bind_ne_error (write_ne_error (by decide) _) fun _ _ _ =>
          Tx.bind_ne_error (require_ne_error (by decide) _) fun _ _ _ => write_ne_error (by decide) _
    · intro hkey
      have hframe : Touches [.repositories, .backupPolicyPublicationCursor]
          (onlyIf (!decide (current = some g.requested.mode))
            (setMode r g.requested.mode >>= fun _ => markBackupPolicyDirtyInTx i.now)) :=
        Touches.onlyIf (((touches_setMode _ _).mono (by decide)).bind fun _ =>
          (touches_markBackupPolicyDirtyInTx _).mono (by decide))
      have hsame : c₂.tables.mutationAudit = c.tables.mutationAudit :=
        (hframe.rows_eq h₂ (t := .mutationAudit) (by decide)).trans
          ((touches_upsertRepositoryInTx _ _).rows_eq h₁ (t := .mutationAudit) (by decide))
      have htaken := audited_keyTaken_cases hkey
      rw [successfulOutcomeExists, hsame] at htaken
      exact hfree htaken

/-- **A success of a mutation has its key claimed.** -/
theorem Mutation.success_claims {m : Mutation} {i : StepInput} {w : World}
    (hfollows : m.phase.Follows m.request)
    (hfresh : ∀ a ∈ w.catalog.tables.mutationAudit, a.auditId ≠ i.ids 1)
    (h : reportedSuccess (m.step i w).1.status = true) :
    reportedSuccess m.phase.status = true ∨
      successfulOutcomeExists m.request.idempotencyKey (m.step i w).2.catalog.tables = true := by
  have heffect := Mutation.step_trail hfollows i w
  have hturn := m.turn i w
  generalize hnext : (m.step i w).1 = next at hturn h
  cases hturn with
  | finished => exact .inl h
  | failing | concluding | authorized | unclaimed | unexcluded | targeted | computed | resolved
  | confirmed => cases h
  | replayed hphase hkey => exact .inr (heffect.claimed hkey)
  | dispatched hphase =>
    unfold dispatch at h
    split at h
    all_goals cases h
  | committed hphase hok =>
    obtain ⟨hcommit, -⟩ := Mutation.committed_world hphase hnext
    obtain ⟨⟨row, haudit, hkey, hsuccess⟩, -⟩ := persist_audited hcommit
    refine .inr (successfulOutcomeExists_iff.mpr ⟨row, List.mem_filter.mpr ⟨?_, hsuccess⟩, hkey⟩)
    rw [haudit]
    exact List.mem_append_right _ List.mem_cons_self
  | outraced hphase herr =>
    rcases Plan.persist_keyTaken herr with hkey | ⟨a, ha, hid⟩
    · exact .inr (heffect.claimed hkey)
    · exact absurd hid (hfresh a ha)
  | concluded hphase =>
    rw [hphase] at hfollows
    rw [Phase.status, reportedSuccess, Option.any_some, hfollows.2] at h
    cases h

/-- **A success of a mode change has its key claimed.** -/
theorem ModeChange.success_claims {g : ModeChange} {i : StepInput} {w : World}
    (hfresh : ∀ a ∈ w.catalog.tables.mutationAudit, a.auditId ≠ i.ids 1)
    (h : reportedSuccess (g.step i w).1.status = true) :
    reportedSuccess g.phase.status = true ∨
      successfulOutcomeExists g.idempotencyKey (g.step i w).2.catalog.tables = true := by
  by_cases hcommits : ∃ current starred, g.phase = .commit current starred
  · right
    obtain ⟨current, starred, hphase⟩ := hcommits
    have hstep : g.step i w = g.committing i current starred w := by rw [ModeChange.step, hphase]
    obtain ⟨status, c, hok, hrun | hrun⟩ | ⟨herr, hrun⟩ | ⟨e, hrun⟩ :=
      ModeChange.committing_cases (g := g) (i := i) (w := w) current starred
    · rw [hstep, hrun] at h ⊢
      obtain ⟨id, c₁, -, ⟨-, isNew, detail, haudit⟩ | ⟨hrefused, -⟩⟩ := modeChange_row hok
      · have hrow := successes_append haudit
        refine successfulOutcomeExists_iff.mpr ⟨auditRow (i.ids 1) g.context id .modeSet
          g.idempotencyKey (if isNew then .applied else .alreadyApplied) detail, ?_, rfl⟩
        rw [hrow]
        exact List.mem_append_right _ List.mem_cons_self
      · replace h : status.success = true := h
        rw [hrefused] at h
        cases h
    · rw [hstep, hrun] at h
      cases h
    · rw [hstep, hrun]
      rcases ModeChange.transaction_keyTaken herr with hkey | ⟨a, ha, hid⟩
      · exact hkey
      · exact absurd hid (hfresh a ha)
    · rw [hstep, hrun] at h
      cases h
  · obtain hsame | ⟨current, starred, hphase, -⟩ := g.step_cases i w
    · rw [hsame]
      exact (ModeChange.success_step h).imp_right fun hkey => hkey.resolve_right hcommits
    · exact absurd ⟨current, starred, hphase⟩ hcommits

/-! ### Whole runs -/

namespace System

theorem asks_eq (s : System) : s.asks =
    s.mutations.map (fun m => (m.ask, m.request.idempotencyKey)) ++
      s.modes.map fun g => (g.ask, g.idempotencyKey) := by
  rw [asks, calls, List.map_append, List.map_map, List.map_map]
  rfl

/-- The calls go on asking for the same. -/
theorem asks_step (k : Contracts) (s : System) (e : Event) : (s.step k e).asks = s.asks := by
  rw [asks_eq, asks_eq]
  cases e with
  | catalog op => rfl
  | upstream u => rfl
  | advance n i =>
    rw [step, modes_advance]
    congr 1
    apply List.ext_getElem?
    intro j
    rw [List.getElem?_map, List.getElem?_map, mutations_advance]
    split
    · next hj =>
      rw [hj, Option.map_map]
      rfl
    · rfl
  | adjust n i =>
    rw [step, mutations_adjust]
    congr 1
    apply List.ext_getElem?
    intro j
    rw [List.getElem?_map, List.getElem?_map, modes_adjust]
    split
    · next hj =>
      rw [hj, Option.map_map]
      rfl
    · rfl

theorem mem_asks_mutation {s : System} {m : Mutation} (hm : m ∈ s.mutations) :
    (m.ask, m.request.idempotencyKey) ∈ s.asks := by
  rw [asks_eq]
  exact List.mem_append_left _ (List.mem_map.mpr ⟨m, hm, rfl⟩)

theorem mem_asks_mode {s : System} {g : ModeChange} (hg : g ∈ s.modes) :
    (g.ask, g.idempotencyKey) ∈ s.asks := by
  rw [asks_eq]
  exact List.mem_append_right _ (List.mem_map.mpr ⟨g, hg, rfl⟩)

end System

/-- The invariant: every successful row attests an ask under its key, and every success has its key
claimed. -/
structure Trusted (asks : List (Ask × String)) (x : TrailedSystem) : Prop where
  asks_eq : x.system.asks = asks
  follows : ∀ m ∈ x.system.mutations, m.phase.Follows m.request
  rows : ∀ row ∈ successes x.tables, row.listId = none ∧ ∃ ask, (ask, row.idempotencyKey) ∈ asks ∧
    ∃ db, (row, db) ∈ x.commits ∧ Attests ask row.idempotencyKey row db
  mutations : ∀ m ∈ x.system.mutations, reportedSuccess m.phase.status = true →
    successfulOutcomeExists m.request.idempotencyKey x.tables = true
  modes : ∀ g ∈ x.system.modes, reportedSuccess g.phase.status = true →
    successfulOutcomeExists g.idempotencyKey x.tables = true

namespace Trusted

variable {k : Contracts} {asks : List (Ask × String)} {x : TrailedSystem} {e : Event}

/-- The rows after a step that commits nothing, or one attested row. -/
theorem rows_step (h : Trusted asks x) {ask : Ask} {key : String} (hask : (ask, key) ∈ asks)
    (heffect : TrailEffect ask key x.tables (x.step k e).tables) :
    ∀ row ∈ successes (x.step k e).tables, row.listId = none ∧
      ∃ ask, (ask, row.idempotencyKey) ∈ asks ∧
        ∃ db, (row, db) ∈ (x.step k e).commits ∧ Attests ask row.idempotencyKey row db := by
  have hold : ∀ row ∈ successes x.tables, row.listId = none ∧
      ∃ ask, (ask, row.idempotencyKey) ∈ asks ∧
        ∃ db, (row, db) ∈ (x.step k e).commits ∧ Attests ask row.idempotencyKey row db := by
    intro row hrow
    obtain ⟨hlist, ask', hmem, db, hcommit, hattests⟩ := h.rows row hrow
    exact ⟨hlist, ask', hmem, db, List.mem_append_left _ hcommit, hattests⟩
  rcases heffect with hsame | ⟨new, hnew, hattests, hlist⟩
  · rw [hsame]
    exact hold
  · intro row hrow
    rw [hnew, List.mem_append, List.mem_singleton] at hrow
    rcases hrow with hrow | rfl
    · exact hold row hrow
    · refine ⟨hlist, ask, ?_, (x.step k e).tables, ?_, ?_⟩
      · rw [hattests.key_eq]
        exact hask
      · have hdrop : (successes (x.step k e).tables).drop (successes x.tables).length = [row] := by
          rw [hnew, List.drop_left]
        refine List.mem_append_right _ (List.mem_map.mpr ⟨row, ?_, rfl⟩)
        show row ∈ (successes (x.step k e).tables).drop (successes x.tables).length
        rw [hdrop]
        exact List.mem_cons_self
      · rw [hattests.key_eq]
        exact hattests

/-- A step that leaves the trail and the calls alone. -/
theorem quiet (h : Trusted asks x)
    (hmutations : (x.system.step k e).mutations = x.system.mutations)
    (hmodes : (x.system.step k e).modes = x.system.modes)
    (haudit : (x.step k e).tables.mutationAudit = x.tables.mutationAudit) :
    Trusted asks (x.step k e) where
  asks_eq := (System.asks_step k x.system e).trans h.asks_eq
  follows := by
    intro m hm
    exact h.follows m (hmutations ▸ hm)
  rows := by
    intro row hrow
    rw [successes, haudit, ← successes] at hrow
    obtain ⟨hlist, ask, hmem, db, hcommit, hattests⟩ := h.rows row hrow
    exact ⟨hlist, ask, hmem, db, List.mem_append_left _ hcommit, hattests⟩
  mutations := by
    intro m hm hsuccess
    rw [successfulOutcomeExists, haudit]
    exact h.mutations m (hmutations ▸ hm) hsuccess
  modes := by
    intro g hg hsuccess
    rw [successfulOutcomeExists, haudit]
    exact h.modes g (hmodes ▸ hg) hsuccess

theorem advance (h : Trusted asks x) {n : ℕ} {i : StepInput} (hordinary : Ordinary x (.advance n i)) :
    Trusted asks (x.step k (.advance n i)) := by
  obtain ⟨-, hnone⟩ | ⟨m, hm, hmem, hworld⟩ := x.system.advance_cases n i
  · have hstep : x.system.step k (.advance n i) = x.system := hnone
    refine h.quiet (by rw [hstep]) (by rw [hstep]) ?_
    show (x.system.step k (.advance n i)).world.catalog.tables.mutationAudit = _
    rw [hstep]
    rfl
  · have hfollows := h.follows m hmem
    have heffect : TrailEffect m.ask m.request.idempotencyKey x.tables
        (x.step k (.advance n i)).tables := by
      show TrailEffect _ _ _ (x.system.advance n i).world.catalog.tables
      rw [hworld]
      exact Mutation.step_trail hfollows i x.system.world
    refine ⟨(System.asks_step k x.system _).trans h.asks_eq, ?_,
      h.rows_step (h.asks_eq ▸ System.mem_asks_mutation hmem) heffect, ?_, ?_⟩
    · refine System.forall_mutations_advance h.follows fun m' hm' => ?_
      rw [hm] at hm'
      cases hm'
      exact Mutation.follows_step hfollows i x.system.world
    · refine System.forall_mutations_advance ?_ fun m' hm' hsuccess => ?_
      · intro m' hm' hsuccess
        exact heffect.claimed (h.mutations m' hm' hsuccess)
      · rw [hm] at hm'
        cases hm'
        rcases Mutation.success_claims hfollows hordinary hsuccess with hold | hclaimed
        · exact heffect.claimed (h.mutations m hmem hold)
        · show successfulOutcomeExists _ (x.system.advance n i).world.catalog.tables = true
          rw [hworld]
          exact hclaimed
    · intro g hg hsuccess
      replace hg : g ∈ (x.system.advance n i).modes := hg
      rw [System.modes_advance] at hg
      exact heffect.claimed (h.modes g hg hsuccess)

theorem adjust (h : Trusted asks x) {n : ℕ} {i : StepInput} (hordinary : Ordinary x (.adjust n i))
    (hsteady : Steady x (.adjust n i)) : Trusted asks (x.step k (.adjust n i)) := by
  obtain ⟨-, hnone⟩ | ⟨g, hg, hmem, hworld⟩ := x.system.adjust_cases n i
  · have hstep : x.system.step k (.adjust n i) = x.system := hnone
    refine h.quiet (by rw [hstep]) (by rw [hstep]) ?_
    show (x.system.step k (.adjust n i)).world.catalog.tables.mutationAudit = _
    rw [hstep]
    rfl
  · have heffect : TrailEffect g.ask g.idempotencyKey x.tables (x.step k (.adjust n i)).tables := by
      show TrailEffect _ _ _ (x.system.adjust n i).world.catalog.tables
      rw [hworld]
      exact ModeChange.step_trail (hsteady g hg)
    refine ⟨(System.asks_step k x.system _).trans h.asks_eq, ?_,
      h.rows_step (h.asks_eq ▸ System.mem_asks_mode hmem) heffect, ?_, ?_⟩
    · intro m hm
      replace hm : m ∈ (x.system.adjust n i).mutations := hm
      rw [System.mutations_adjust] at hm
      exact h.follows m hm
    · intro m hm hsuccess
      replace hm : m ∈ (x.system.adjust n i).mutations := hm
      rw [System.mutations_adjust] at hm
      exact heffect.claimed (h.mutations m hm hsuccess)
    · refine System.forall_modes_adjust ?_ fun g' hg' hsuccess => ?_
      · intro g' hg' hsuccess
        exact heffect.claimed (h.modes g' hg' hsuccess)
      · rw [hg] at hg'
        cases hg'
        rcases ModeChange.success_claims hordinary hsuccess with hold | hclaimed
        · exact heffect.claimed (h.modes g hmem hold)
        · show successfulOutcomeExists _ (x.system.adjust n i).world.catalog.tables = true
          rw [hworld]
          exact hclaimed

/-- **The step lemma.** -/
theorem step (h : Trusted asks x) (hordinary : Ordinary x e) (hsteady : Steady x e) :
    Trusted asks (x.step k e) := by
  cases e with
  | advance n i => exact h.advance hordinary
  | adjust n i => exact h.adjust hordinary hsteady
  | upstream u => exact h.quiet rfl rfl rfl
  | catalog op =>
    refine h.quiet rfl rfl ?_
    show (GithubCatalog.step k x.system.world.catalog op).tables.mutationAudit = _
    unfold GithubCatalog.step
    split
    · exact op.rows_commit k x.system.world.catalog .mutationAudit hordinary
    · rfl

/-- A success has a row that attests its ask, where its key is owned. -/
theorem performed (h : Trusted asks x) (hkeys : ∀ p ∈ asks, ∀ q ∈ asks, p.2 = q.2 → p.1 = q.1)
    {ask : Ask} {key : String} (hsuccess : x.Succeeded ask key) :
    ∃ row ∈ successes x.tables, row.listId = none ∧ ∃ db, (row, db) ∈ x.commits ∧
      Attests ask key row db := by
  obtain ⟨status, hmem, hstatus⟩ := hsuccess
  have hask : (ask, key) ∈ asks := by
    rw [← h.asks_eq]
    exact List.mem_map.mpr ⟨(ask, key, status), hmem, rfl⟩
  have hclaimed : successfulOutcomeExists key x.tables = true := by
    rcases List.mem_append.mp hmem with hmutation | hmode
    · obtain ⟨m, hm, hcall⟩ := List.mem_map.mp hmutation
      cases hcall
      exact h.mutations m hm hstatus
    · obtain ⟨g, hg, hcall⟩ := List.mem_map.mp hmode
      cases hcall
      exact h.modes g hg hstatus
  obtain ⟨row, hrow, rfl⟩ := successfulOutcomeExists_iff.mp hclaimed
  obtain ⟨hlist, ask', hask', db, hcommit, hattests⟩ := h.rows row hrow
  have hsame : ask = ask' := hkeys _ hask _ hask' rfl
  exact ⟨row, hrow, hlist, db, hcommit, hsame ▸ hattests⟩

end Trusted

/-- No call has begun, and the trail has no success. -/
structure System.Begins (s : System) : Prop where
  mutations : ∀ m ∈ s.mutations, m.phase = .authorize
  modes : ∀ g ∈ s.modes, g.phase = .replay
  trail : successes s.world.catalog.tables = []

/-- **Successes are backed by the trail.**  Along every run of any calls in which calls that share a
key ask for the same and a mode that a call found in place stays until it commits, every call that
reported a success was performed: a successful row of its key records its kind, account and repository,
and the requested state was in place when that row was committed.  The row records the list as well
exactly where there is none. -/
theorem successes_backed (k : Contracts) (start : System) (hstart : start.Begins)
    (hkeys : KeysOwned start) (events : List Event)
    (hordinary : Guarded (TrailedSystem.step k) Ordinary ⟨start, []⟩ events)
    (hsteady : Guarded (TrailedSystem.step k) Steady ⟨start, []⟩ events) :
    Throughout (TrailedSystem.step k) (fun x => ∀ ask key, x.Succeeded ask key →
      x.Performed ask key ∧ (x.Backed ask key ↔ ask.deed.listId = none)) ⟨start, []⟩ events := by
  have hinit : Trusted start.asks ⟨start, []⟩ := by
    refine ⟨rfl, ?_, ?_, ?_, ?_⟩
    · intro m hm
      rw [hstart.mutations m hm]
      trivial
    · intro row hrow
      replace hrow : row ∈ successes start.world.catalog.tables := hrow
      rw [hstart.trail] at hrow
      cases hrow
    · intro m hm hsuccess
      rw [hstart.mutations m hm] at hsuccess
      cases hsuccess
    · intro g hg hsuccess
      rw [hstart.modes g hg] at hsuccess
      cases hsuccess
  have htrusted : Throughout (TrailedSystem.step k) (Trusted start.asks) ⟨start, []⟩ events :=
    throughout_of_guarded (fun x e hx hguard => hx.step hguard.1 hguard.2) hinit
      (hordinary.and hsteady)
  refine Throughout.mono ?_ htrusted
  intro x hx ask key hsuccess
  obtain ⟨row, hrow, hlist, db, hcommit, hattests⟩ := hx.performed hkeys hsuccess
  refine ⟨⟨row, hrow, db, hcommit, hattests⟩, ?_, ?_⟩
  · rintro ⟨row', hrow', -, -, -, hlist'⟩
    rw [← hlist']
    exact (hx.rows row' hrow').1
  · intro hnone
    exact ⟨row, hrow, db, hcommit, hattests, hlist.trans hnone.symm⟩

/-- The acting account of the concrete runs. -/
def trailContext : MutationContext := ⟨1, "owner-a", .web⟩

/-- Two submissions of a star, a removal from the list of the account, and a mode change, each under a
key of its own. -/
def ownedStart : System where
  world := { contestWorld with
    catalog := runFrom (step sampleContracts) contestWorld.catalog (listSnapshot 10 1 "list-a") }
  mutations :=
    [⟨trailContext, .star ⟨101, "rust-lang", "rust"⟩ "star-key", .authorize⟩,
      ⟨trailContext, .star ⟨101, "rust-lang", "rust"⟩ "star-key", .authorize⟩,
      ⟨trailContext, .listMemberRemove ⟨101, "rust-lang", "rust"⟩ 210 "list-key", .authorize⟩]
  modes := [⟨trailContext, 102, .tracked, "mode-key", .replay⟩]

/-- All of them to their ends, the second submission after the first. -/
def ownedRun : List Event :=
  (List.range 7).map (fun n => .advance 0 (inputAt n)) ++
    (List.range 2).map (fun n => .advance 1 (inputAt (10 + n))) ++
    (List.range 9).map (fun n => .advance 2 (inputAt (20 + n))) ++
    (List.range 3).map fun n => .adjust 0 (inputAt (30 + n))

theorem ownedStart_begins : ownedStart.Begins := by
  refine ⟨?_, ?_, by decide +kernel⟩
  · intro m hm
    simp only [ownedStart, List.mem_cons, List.not_mem_nil, or_false] at hm
    rcases hm with rfl | rfl | rfl
    · rfl
    · rfl
    · rfl
  · intro g hg
    rw [List.mem_singleton.mp hg]

theorem successes_backed_owned :
    Throughout (TrailedSystem.step sampleContracts) (fun x => ∀ ask key, x.Succeeded ask key →
        x.Performed ask key ∧ (x.Backed ask key ↔ ask.deed.listId = none)) ⟨ownedStart, []⟩ ownedRun ∧
      (runFrom (TrailedSystem.step sampleContracts) ⟨ownedStart, []⟩ ownedRun).system.calls.map
        (fun p => reportedSuccess p.2.2) = [true, true, true, true] := by
  refine ⟨successes_backed sampleContracts ownedStart ownedStart_begins (by decide +kernel) ownedRun
    (by decide +kernel) (by decide +kernel), by decide +kernel⟩

/-- A mode change of repository 102 and a star of repository 101 under one key. -/
def sharedKeyStart : System where
  world := contestWorld
  mutations := [⟨trailContext, .star ⟨101, "rust-lang", "rust"⟩ "key", .authorize⟩]
  modes := [⟨trailContext, 102, .tracked, "key", .replay⟩]

/-- The star comes after the mode change. -/
def sharedKeyRun : List Event :=
  (List.range 3).map (fun n => .adjust 0 (inputAt n)) ++
    (List.range 2).map fun n => .advance 0 (inputAt (3 + n))

/-- The star replays the success of the mode change: it reports a success, the only success of its key
is of another kind, and neither the catalog nor the provider has the star. -/
theorem shared_key_replays_another :
    let x := runFrom (TrailedSystem.step sampleContracts) ⟨sharedKeyStart, []⟩ sharedKeyRun
    x.Succeeded ⟨1, 101, .star .add⟩ "key" ∧ ¬ x.Performed ⟨1, 101, .star .add⟩ "key" ∧
      (successes x.tables).map (fun row => (row.idempotencyKey, row.operationKind)) =
        [("key", .modeSet)] ∧
      recordedStar 1 101 x.tables = none ∧ x.system.world.upstream.stars 1 101 = false := by
  intro x
  have hrows : (successes x.tables).map (fun row => (row.idempotencyKey, row.operationKind)) =
      [("key", .modeSet)] := by decide +kernel
  refine ⟨⟨some .alreadyApplied, by decide +kernel, rfl⟩, ?_, hrows, by decide +kernel,
    by decide +kernel⟩
  rintro ⟨row, hrow, db, -, hattests⟩
  have hmem : (row.idempotencyKey, row.operationKind) ∈ [("key", OperationKind.modeSet)] := by
    rw [← hrows]
    exact List.mem_map.mpr ⟨row, hrow, rfl⟩
  have hkind : row.operationKind = .modeSet := (Prod.mk.inj (List.mem_singleton.mp hmem)).2
  rw [hattests.kind] at hkind
  cases hkind

end GithubCatalog
