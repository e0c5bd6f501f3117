import GithubCatalog.MutationExecution

/-!
# Outcomes and their local effects

What the calls of `execute_mutation` and `set_repository_mode` change in the catalog, over every
interleaving of any number of them with anything else:

* `SameProjection` - the star state, the list memberships and the modes of the existing repositories
  are as they were;
* `AuditedBy key` - a successful audit row for the key was committed;
* `calls_audited` - one success per key, every change together with its success, and no change by a
  call that is refused, fails or loses its key.
-/

namespace GithubCatalog

open Relational Transact

/-! ### The projection -/

/-- Stars, memberships and the modes of the existing repositories are as they were; a repository
that is new is unclassified. -/
structure SameProjection (db db' : Database) : Prop where
  stars : db'.currentStarState = db.currentStarState
  memberships : db'.starListMemberships = db.starListMemberships
  modes : ∀ r ∈ db.repositories, r ∈ db'.repositories
  unclassified : ∀ r ∈ db'.repositories, r ∈ db.repositories ∨ r.mode = none

instance : Std.Refl SameProjection :=
  ⟨fun _ => ⟨rfl, rfl, fun _ hr => hr, fun _ hr => .inl hr⟩⟩

instance : IsTrans Database SameProjection where
  trans _ _ _ h h' := {
    stars := h'.stars.trans h.stars
    memberships := h'.memberships.trans h.memberships
    modes := fun r hr => h'.modes r (h.modes r hr)
    unclassified := fun r hr => (h'.unclassified r hr).elim (h.unclassified r) .inr }

theorem SameProjection.refl (db : Database) : SameProjection db db := Std.Refl.refl db

theorem sameProjection_of_touches {α : Type} {ts : List Table} {x : Tx α} (hx : Touches ts x)
    (hstars : Table.currentStarState ∉ ts) (hmembers : Table.starListMemberships ∉ ts)
    (hrepos : Table.repositories ∉ ts) : Tx.Relates SameProjection x := by
  intro c a c' h
  have hsame : c'.tables.repositories = c.tables.repositories := hx.rows_eq h hrepos
  exact ⟨hx.rows_eq h hstars, hx.rows_eq h hmembers, fun r hr => hsame ▸ hr,
    fun r hr => .inl (hsame ▸ hr)⟩

/-- Cataloguing a repository adds an unclassified one at most. -/
theorem sameProjection_upsertRepositoryInTx (fresh : Uuid) (pid : ℤ) :
    Tx.Relates SameProjection (upsertRepositoryInTx fresh pid) := by
  intro c id c' h
  obtain ⟨hrepos, hframe, -⟩ := upsertRepositoryInTx_spec h
  refine ⟨hframe .currentStarState (by decide), hframe .starListMemberships (by decide), ?_, ?_⟩
  · intro r hr
    rw [hrepos, catalogued]
    unfold insertUnless
    split
    · exact hr
    · exact List.mem_append_left _ hr
  · intro r hr
    rw [hrepos] at hr
    revert r
    exact forall_insertUnless (fun r hr => .inl hr) (.inr rfl)

theorem sameProjection_insertAuditRow (row : MutationAudit) :
    Tx.Relates SameProjection (insertAuditRow row) :=
  sameProjection_of_touches (touches_insertAuditRow row) (by decide) (by decide) (by decide)

theorem sameProjection_recordAttempt (ids : ℕ → Uuid) (context : MutationContext) (pid : ℤ)
    (kind : OperationKind) (key : String) (outcome : AuditOutcome) (detail : Jsonb) :
    Tx.Relates SameProjection (recordAttempt ids context pid kind key outcome detail) :=
  relates_recordAttempt ids context pid kind key outcome detail
    (sameProjection_upsertRepositoryInTx _ _) fun row _ => sameProjection_insertAuditRow row

/-! ### Audited commits -/

/-- A successful audit row for the key was committed. -/
def AuditedBy (key : String) (db db' : Database) : Prop :=
  ∃ row, db'.mutationAudit = db.mutationAudit ++ [row] ∧ row.idempotencyKey = key ∧
    row.succeeded = true

/-- The audit row of a kept key is a success. -/
theorem succeeded_auditRow (auditId : Uuid) (context : MutationContext) (repositoryId : Uuid)
    (kind : OperationKind) (key : String) (isNew : Bool) (detail : Jsonb) :
    (auditRow auditId context repositoryId kind key (if isNew then .applied else .alreadyApplied)
      detail).succeeded = true := by
  cases isNew <;> rfl

theorem success_of_or {status : MutationStatus} (h : status = .applied ∨ status = .alreadyApplied) :
    status.success = true := by
  rcases h with rfl | rfl
  · rfl
  · rfl

/-- The operation kind that a plan is audited under. -/
def Plan.kind : Plan → OperationKind
  | star direction => direction.kind
  | lists change _ _ _ => change.kind

/-- **The audit row of a persisted write.** -/
theorem persist_row {plan : Plan} {ids : ℕ → Uuid} {now : Time} {context : MutationContext}
    {pid : ℤ} {key : String} {c c' : Catalog} {status : MutationStatus}
    (h : plan.persist ids now context pid key c = .ok (status, c')) :
    ∃ r c₁, ∃ isNew : Bool, ∃ detail, upsertRepositoryInTx (ids 0) pid c = .ok (r, c₁) ∧
      c'.tables.mutationAudit = c.tables.mutationAudit ++ [auditRow (ids 1) context r plan.kind key
        (if isNew then .applied else .alreadyApplied) detail] ∧ status.success = true := by
  cases plan with
  | star direction =>
    simp only [Plan.persist, persistConfirmedStar, Tx.bind_eq_ok, select_eq_ok] at h
    obtain ⟨r, c₁, h₁, isNew, _, ⟨_, rfl⟩, ⟨⟩, c₂, h₂, ⟨⟩, c₃, h₃, h₄⟩ := h
    obtain ⟨haudit, -, hstatus⟩ := audited_eq_ok (Tx.bind_eq_ok.mpr h₄)
    have hsame : c₃.tables.mutationAudit = c.tables.mutationAudit :=
      ((touches_markBackupPolicyDirtyInTx now).onlyIf.rows_eq h₃ (t := .mutationAudit)
        (by decide)).trans (((touches_applyStarProjection _ _ _ _).rows_eq h₂ (t := .mutationAudit)
        (by decide)).trans ((touches_upsertRepositoryInTx _ _).rows_eq h₁ (t := .mutationAudit)
        (by decide)))
    rw [hsame] at haudit
    exact ⟨r, c₁, isNew, viaMutation, h₁, haudit, success_of_or hstatus⟩
  | lists change listId target live =>
    simp only [Plan.persist, persistListMembership, Tx.bind_eq_ok] at h
    obtain ⟨r, c₁, h₁, ⟨⟩, c₂, h₂, h₃⟩ := h
    obtain ⟨haudit, -, hstatus⟩ := audited_eq_ok (Tx.bind_eq_ok.mpr h₃)
    have hsame : c₂.tables.mutationAudit = c.tables.mutationAudit :=
      ((touches_convergeMembershipProjection _ _ _ _).rows_eq h₂ (t := .mutationAudit)
        (by decide)).trans ((touches_upsertRepositoryInTx _ _).rows_eq h₁ (t := .mutationAudit)
        (by decide))
    rw [hsame] at haudit
    exact ⟨r, c₁, true, _, h₁, haudit, success_of_or hstatus⟩

/-- **A persisted write is audited.** -/
theorem persist_audited {plan : Plan} {ids : ℕ → Uuid} {now : Time} {context : MutationContext}
    {pid : ℤ} {key : String} {c c' : Catalog} {status : MutationStatus}
    (h : plan.persist ids now context pid key c = .ok (status, c')) :
    AuditedBy key c.tables c'.tables ∧ status.success = true := by
  obtain ⟨r, c₁, isNew, detail, -, haudit, hstatus⟩ := persist_row h
  exact ⟨⟨_, haudit, rfl, succeeded_auditRow _ _ _ _ _ _ _⟩, hstatus⟩

/-- **The audit row of a committed mode change.**  It is a success, or the request was refused. -/
theorem modeChange_row {g : ModeChange} {i : StepInput} {current : Option RepositoryMode}
    {starred : Bool} {c c' : Catalog} {status : MutationStatus}
    (h : g.transaction i current starred c = .ok (status, c')) :
    ∃ r c₁, upsertRepositoryInTx (i.ids 0) g.pid c = .ok (r, c₁) ∧
      ((status.success = true ∧ ∃ isNew : Bool, ∃ detail, c'.tables.mutationAudit = c.tables.mutationAudit ++
          [auditRow (i.ids 1) g.context r .modeSet g.idempotencyKey
            (if isNew then .applied else .alreadyApplied) detail]) ∨
        (status.success = false ∧ SameProjection c.tables c'.tables ∧
          c'.tables.mutationAudit.filter (·.succeeded) =
            c.tables.mutationAudit.filter (·.succeeded))) := by
  obtain ⟨r, c₁, h₁, h₂⟩ := Tx.bind_eq_ok.mp h
  have haudit₁ : c₁.tables.mutationAudit = c.tables.mutationAudit :=
    (touches_upsertRepositoryInTx _ _).rows_eq h₁ (t := .mutationAudit) (by decide)
  refine ⟨r, c₁, h₁, ?_⟩
  have hfirst := sameProjection_upsertRepositoryInTx _ _ _ _ _ h₁
  unfold applyRequestedMode at h₂
  cases hvalid : validateMode g.requested starred with
  | some reason =>
    rw [hvalid] at h₂
    obtain ⟨won, c₂, haudit, hpure⟩ := Tx.bind_eq_ok.mp h₂
    obtain ⟨rfl, rfl⟩ := Tx.pure_eq_ok.mp hpure
    refine .inr ⟨rfl, IsTrans.trans _ _ _ hfirst (sameProjection_insertAuditRow _ _ _ _ haudit), ?_⟩
    rw [successes_insertAuditRow haudit rfl, haudit₁]
  | none =>
    rw [hvalid] at h₂
    simp only [Tx.bind_eq_ok] at h₂
    obtain ⟨⟨⟩, c₂, hset, hrest⟩ := h₂
    obtain ⟨haudit, -, hstatus⟩ := audited_eq_ok (Tx.bind_eq_ok.mpr hrest)
    have hframe : Touches [.repositories, .backupPolicyPublicationCursor]
        (onlyIf (!decide (current = some g.requested.mode))
          (setMode r g.requested.mode >>= fun _ => markBackupPolicyDirtyInTx i.now)) :=
      Touches.onlyIf (((touches_setMode _ _).mono (by decide)).bind fun _ =>
        (touches_markBackupPolicyDirtyInTx _).mono (by decide))
    have hsame : c₂.tables.mutationAudit = c.tables.mutationAudit :=
      (hframe.rows_eq hset (t := .mutationAudit) (by decide)).trans haudit₁
    rw [hsame] at haudit
    refine .inl ⟨success_of_or hstatus, !decide (current = some g.requested.mode),
      transitionDetail current (some g.requested.mode), ?_⟩
    rw [haudit]
    cases decide (current = some g.requested.mode) with
    | true => rfl
    | false => rfl

/-- A committed mode change is audited as a success, or refused without a change. -/
theorem modeChange_audited {g : ModeChange} {i : StepInput} {current : Option RepositoryMode}
    {starred : Bool} {c c' : Catalog} {status : MutationStatus}
    (h : g.transaction i current starred c = .ok (status, c')) :
    (AuditedBy g.idempotencyKey c.tables c'.tables ∧ status.success = true) ∨
      SameProjection c.tables c'.tables := by
  obtain ⟨r, c₁, -, ⟨hstatus, isNew, detail, haudit⟩ | ⟨-, hsame, -⟩⟩ := modeChange_row h
  · exact .inl ⟨⟨_, haudit, rfl, succeeded_auditRow _ _ _ _ _ _ _⟩, hstatus⟩
  · exact .inr hsame

/-! ### Calls that change nothing -/

/-- The call was refused, failed or lost its key. -/
def Phase.fruitless : Phase → Bool
  | .returned status _ => !status.success
  | .outraced _ => true
  | _ => false

/-- The call was refused or lost its key. -/
def ModePhase.fruitless : ModePhase → Bool
  | .returned status => !status.success
  | .outraced => true
  | _ => false

/-- The call is over. -/
def ModePhase.ended : ModePhase → Bool
  | .returned _ | .outraced | .raised _ => true
  | _ => false

/-- **One step of a mutation.**  It leaves the projection alone, or it commits a success for its key
and ends. -/
theorem Mutation.step_audited (m : Mutation) (i : StepInput) (w : World) :
    SameProjection w.catalog.tables (m.step i w).2.catalog.tables ∨
      (AuditedBy m.request.idempotencyKey w.catalog.tables (m.step i w).2.catalog.tables ∧
        (m.step i w).1.ended = true ∧ (m.step i w).1.fruitless = false) := by
  obtain hsame | ⟨plan, node, -, hstep⟩ | ⟨wrote, -, hstep⟩ | ⟨outcome, reason, status, -, hstep⟩ :=
    m.step_cases i w
  · rw [hsame]
    exact .inl (SameProjection.refl _)
  · rw [hstep]
    exact .inl (SameProjection.refl _)
  · obtain ⟨status, c, hok, hrun | hrun⟩ | ⟨-, hrun⟩ | ⟨e, hrun⟩ :=
      Mutation.persisting_cases (m := m) (i := i) (w := w) wrote
    · obtain ⟨haudit, hstatus⟩ := persist_audited hok
      rw [hstep, hrun]
      exact .inr ⟨haudit, rfl, by rw [Phase.fruitless, hstatus]; rfl⟩
    · rw [hstep, hrun]
      exact .inr ⟨(persist_audited hok).1, rfl, rfl⟩
    · rw [hstep, hrun]
      exact .inl (SameProjection.refl _)
    · rw [hstep, hrun]
      exact .inl (SameProjection.refl _)
  · obtain ⟨c, hc, hrun⟩ :=
      Mutation.concluding_cases (m := m) (i := i) (w := w) outcome reason status
    have hproj : SameProjection w.catalog.tables c.tables := by
      rcases hc with rfl | hok
      · exact SameProjection.refl _
      · exact sameProjection_recordAttempt _ _ _ _ _ _ _ _ _ _ hok
    rcases hrun with hrun | ⟨e, hrun⟩
    · rw [hstep, hrun]
      exact .inl hproj
    · rw [hstep, hrun]
      exact .inl hproj

/-- **One step of a mode change.** -/
theorem ModeChange.step_audited (g : ModeChange) (i : StepInput) (w : World) :
    SameProjection w.catalog.tables (g.step i w).2.catalog.tables ∨
      (AuditedBy g.idempotencyKey w.catalog.tables (g.step i w).2.catalog.tables ∧
        (g.step i w).1.ended = true ∧ (g.step i w).1.fruitless = false) := by
  obtain hsame | ⟨current, starred, -, hstep⟩ := g.step_cases i w
  · rw [hsame]
    exact .inl (SameProjection.refl _)
  · obtain ⟨status, c, hok, hrun⟩ | ⟨-, hrun⟩ | ⟨e, hrun⟩ :=
      ModeChange.committing_cases (g := g) (i := i) (w := w) current starred
    · obtain ⟨haudit, hstatus⟩ | hsame := modeChange_audited hok
      · rcases hrun with hrun | hrun
        · rw [hstep, hrun]
          exact .inr ⟨haudit, rfl, by rw [ModePhase.fruitless, hstatus]; rfl⟩
        · rw [hstep, hrun]
          exact .inr ⟨haudit, rfl, rfl⟩
      · rcases hrun with hrun | hrun
        · rw [hstep, hrun]
          exact .inl hsame
        · rw [hstep, hrun]
          exact .inl hsame
    · rw [hstep, hrun]
      exact .inl (SameProjection.refl _)
    · rw [hstep, hrun]
      exact .inl (SameProjection.refl _)

/-! ### Whole runs -/

namespace System

/-- The idempotency key of the call an event advances. -/
def keyOf (s : System) : Event → Option String
  | .advance n _ => s.mutations[n]?.map (·.request.idempotencyKey)
  | .adjust n _ => s.modes[n]?.map (·.idempotencyKey)
  | _ => none

/-- Whether the call an event advances was refused, failed or lost its key. -/
def fruitless (s : System) : Event → Bool
  | .advance n _ => s.mutations[n]?.any (·.phase.fruitless)
  | .adjust n _ => s.modes[n]?.any (·.phase.fruitless)
  | _ => false

/-- Whether the call an event advances is over. -/
def ended (s : System) : Event → Bool
  | .advance n _ => s.mutations[n]?.any (·.phase.ended)
  | .adjust n _ => s.modes[n]?.any (·.phase.ended)
  | _ => false

variable {k : Contracts}

/-- A call that is over takes no further step. -/
theorem next_of_ended {m : Mutation} (h : m.phase.ended = true) (i : StepInput) (w : World) :
    m.next i w = m := by
  rw [Mutation.next, Mutation.step_of_ended h]

theorem nextMode_of_ended {g : ModeChange} (h : g.phase.ended = true) (i : StepInput) (w : World) :
    g.next i w = g := by
  obtain ⟨context, pid, requested, key, phase⟩ := g
  cases phase with
  | returned | outraced | raised => rfl
  | replay | read | commit => cases h

/-- What an ended call was told stays. -/
theorem fruitless_step {s : System} {e : Event} (hend : s.ended e = true) (e' : Event) :
    (s.step k e').ended e = true ∧ (s.step k e').fruitless e = s.fruitless e := by
  cases e with
  | catalog op => cases hend
  | upstream u => cases hend
  | advance n i =>
    have hkeep : (s.step k e').mutations[n]? = s.mutations[n]? := by
      cases e' with
      | catalog op => rfl
      | upstream u => rfl
      | adjust j i' => rw [step, mutations_adjust]
      | advance j i' =>
        rw [step, mutations_advance]
        split
        · next hj =>
          subst hj
          simp only [ended, Option.any_eq_true] at hend
          obtain ⟨m, hm, hphase⟩ := hend
          rw [hm, Option.map_some, next_of_ended hphase]
        · rfl
    simp only [ended, fruitless, hkeep] at hend ⊢
    exact ⟨hend, trivial⟩
  | adjust n i =>
    have hkeep : (s.step k e').modes[n]? = s.modes[n]? := by
      cases e' with
      | catalog op => rfl
      | upstream u => rfl
      | advance j i' => rw [step, modes_advance]
      | adjust j i' =>
        rw [step, modes_adjust]
        split
        · next hj =>
          subst hj
          simp only [ended, Option.any_eq_true] at hend
          obtain ⟨g, hg, hphase⟩ := hend
          rw [hg, Option.map_some, nextMode_of_ended hphase]
        · rfl
    simp only [ended, fruitless, hkeep] at hend ⊢
    exact ⟨hend, trivial⟩

theorem fruitless_runFrom {s : System} {e : Event} (hend : s.ended e = true) (events : List Event) :
    (Runs.runFrom (step k) s events).fruitless e = s.fruitless e := by
  induction events generalizing s with
  | nil => rfl
  | cons e' events ih =>
    obtain ⟨hend', hsame⟩ := fruitless_step (k := k) hend e'
    exact (ih hend').trans hsame

/-- **One step of a call.** -/
theorem step_audited {s : System} {e : Event} {key : String} (hkey : s.keyOf e = some key) :
    SameProjection s.world.catalog.tables (s.step k e).world.catalog.tables ∨
      (AuditedBy key s.world.catalog.tables (s.step k e).world.catalog.tables ∧
        (s.step k e).ended e = true ∧ (s.step k e).fruitless e = false) := by
  cases e with
  | catalog op => cases hkey
  | upstream u => cases hkey
  | advance n i =>
    obtain ⟨m, hm, rfl⟩ := Option.map_eq_some_iff.mp hkey
    have hnext := mutations_advance s n i n
    rw [if_pos rfl, hm, Option.map_some] at hnext
    have hworld : (s.step k (.advance n i)).world = (m.step i s.world).2 := by
      simp only [step, advance, hm]
    rw [hworld]
    refine (m.step_audited i s.world).imp_right fun h => ⟨h.1, ?_, ?_⟩
    · rw [ended, step, hnext]
      exact h.2.1
    · rw [fruitless, step, hnext]
      exact h.2.2
  | adjust n i =>
    obtain ⟨g, hg, rfl⟩ := Option.map_eq_some_iff.mp hkey
    have hnext := modes_adjust s n i n
    rw [if_pos rfl, hg, Option.map_some] at hnext
    have hworld : (s.step k (.adjust n i)).world = (g.step i s.world).2 := by
      simp only [step, adjust, hg]
    rw [hworld]
    refine (g.step_audited i s.world).imp_right fun h => ⟨h.1, ?_, ?_⟩
    · rw [ended, step, hnext]
      exact h.2.1
    · rw [fruitless, step, hnext]
      exact h.2.2

end System

/-- **Outcomes are truthful.**  Along every run, at every step `e` of a call: the audit trail holds at
most one success for each key; a change of the projection is committed with a success for the call's
own key; and a call that the run ever reports refused, failed or outraced has changed nothing with
this step. -/
theorem calls_audited (k : Contracts) (start : System) (before after : List Event) (e : Event) :
    let s := Runs.runFrom (System.step k) start before
    let s' := s.step k e
    (∀ key, (s.world.catalog.tables.mutationAudit.filter fun a =>
      decide (a.idempotencyKey = key) && a.succeeded).length ≤ 1) ∧
    (∀ key, s.keyOf e = some key →
      SameProjection s.world.catalog.tables s'.world.catalog.tables ∨
        AuditedBy key s.world.catalog.tables s'.world.catalog.tables) ∧
    (∀ key, s.keyOf e = some key → (Runs.runFrom (System.step k) s' after).fruitless e = true →
      SameProjection s.world.catalog.tables s'.world.catalog.tables) := by
  intro s s'
  refine ⟨?_, ?_, ?_⟩
  · intro key
    rw [← List.filter_filter]
    exact s.world.catalog.valid.keys.audit_success.length_filter_le_one key
  · intro key hkey
    exact (System.step_audited hkey).imp_right fun h => h.1
  · intro key hkey hfruitless
    obtain hsame | ⟨-, hend, hno⟩ := System.step_audited (k := k) hkey
    · exact hsame
    · rw [System.fruitless_runFrom hend after, hno] at hfruitless
      cases hfruitless

end GithubCatalog
