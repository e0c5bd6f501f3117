import GithubCatalog.StarTargets

/-!
# Concurrent stars and unstars of one repository

The provider write and the local commit of a star mutation are two steps, so the order of the writes
and the order of the commits can differ.  `Uncrossed` is the order that matters: no write is sent while
a call of the other direction has written and not committed.

* `Converging` - the invariant: a pending commit carries what the provider holds, and where none is
  pending the catalog agrees with the provider;
* `stars_agree_throughout` - along every uncrossed run, once all calls report success the two agree;
* `crossed_stars_disagree` - a star and an unstar whose commits cross.
-/

namespace GithubCatalog

open Relational Transact Runs

/-- Once every call reported success, the catalog's star is the provider's. -/
def Agrees (account : Uuid) (pid : ℤ) (s : System) : Prop :=
  (∀ m ∈ s.mutations, reportedSuccess m.phase.status = true) →
    starredFor account pid s.world.catalog.tables = s.world.upstream.stars account pid

instance (account : Uuid) (pid : ℤ) (s : System) : Decidable (Agrees account pid s) :=
  inferInstanceAs (Decidable ((∀ m ∈ s.mutations, reportedSuccess m.phase.status = true) →
    starredFor account pid s.world.catalog.tables = s.world.upstream.stars account pid))

/-- A call about to write. -/
def Phase.writes : Phase → Bool
  | .write _ _ => true
  | _ => false

/-- The step is a mutation's, its audit id is new, and it sends no write while a call of the other
direction has yet to commit. -/
def Uncrossed (s : System) : Event → Prop
  | .advance n i => FreshAudit s.world i ∧ ∀ m ∈ s.mutations[n]?, m.phase.writes = true →
      ∀ m' ∈ s.mutations, m'.phase.persists = true → m'.request.direction = m.request.direction
  | _ => False

instance (w : World) (i : StepInput) : Decidable (FreshAudit w i) :=
  inferInstanceAs (Decidable (∀ a ∈ w.catalog.tables.mutationAudit, a.auditId ≠ i.ids 1))

instance (s : System) : (e : Event) → Decidable (Uncrossed s e)
  | .advance n i => inferInstanceAs (Decidable (FreshAudit s.world i ∧ ∀ m ∈ s.mutations[n]?,
      m.phase.writes = true → ∀ m' ∈ s.mutations, m'.phase.persists = true →
        m'.request.direction = m.request.direction))
  | .adjust _ _ | .catalog _ | .upstream _ => inferInstanceAs (Decidable False)

/-! ### What a step leaves alone -/

namespace Mutation

variable {m : Mutation} {i : StepInput} {w : World}

/-- A mutation moves no path. -/
theorem paths_step (m : Mutation) (i : StepInput) (w : World) :
    (m.step i w).2.upstream.paths = w.upstream.paths := by
  obtain hsame | ⟨plan, node, -, hstep⟩ | ⟨wrote, -, hstep⟩ | ⟨outcome, reason, status, -, hstep⟩ :=
    m.step_cases i w
  · rw [hsame]
  · rw [hstep, writing]
    cases i.reply with
    | applied => cases plan <;> rfl
    | denied => rfl
    | lost b => cases b <;> cases plan <;> rfl
  · obtain ⟨status, c, -, hrun | hrun⟩ | ⟨-, hrun⟩ | ⟨e, hrun⟩ :=
      persisting_cases (m := m) (i := i) (w := w) wrote
    all_goals rw [hstep, hrun]
  · obtain ⟨c, -, hrun | ⟨e, hrun⟩⟩ :=
      concluding_cases (m := m) (i := i) (w := w) outcome reason status
    all_goals rw [hstep, hrun]

/-- A mutation claims its own key only. -/
theorem keys_other (hfollows : m.phase.Follows m.request) {key : String}
    (hkey : key ≠ m.request.idempotencyKey) :
    successfulOutcomeExists key (m.step i w).2.catalog.tables =
      successfulOutcomeExists key w.catalog.tables := by
  obtain hsame | ⟨plan, node, -, hstep⟩ | ⟨wrote, -, hstep⟩ | ⟨outcome, reason, status, hphase, hstep⟩ :=
    m.step_cases i w
  · rw [hsame]
  · rw [hstep, writing]
  · obtain ⟨status, c, hok, hrun⟩ | ⟨-, hrun⟩ | ⟨e, hrun⟩ :=
      persisting_cases (m := m) (i := i) (w := w) wrote
    · obtain ⟨⟨row, haudit, hrow, -⟩, -⟩ := persist_audited hok
      have hother : successfulOutcomeExists key c.tables =
          successfulOutcomeExists key w.catalog.tables := by
        rw [successfulOutcomeExists, haudit, List.any_append, List.any_cons, hrow,
          decide_eq_false (Ne.symm hkey), Bool.false_and, List.any_nil, Bool.or_false, Bool.or_false]
        rfl
      rcases hrun with hrun | hrun
      · rw [hstep, hrun]
        exact hother
      · rw [hstep, hrun]
        exact hother
    · rw [hstep, hrun]
    · rw [hstep, hrun]
  · rw [hphase] at hfollows
    obtain ⟨c, hc, hrun⟩ := concluding_cases (m := m) (i := i) (w := w) outcome reason status
    have hkeys : successfulOutcomeExists key c.tables =
        successfulOutcomeExists key w.catalog.tables := by
      rcases hc with rfl | hok
      · rfl
      · exact successfulOutcomeExists_recordAttempt hok hfollows.1 key
    rcases hrun with hrun | ⟨e, hrun⟩
    · rw [hstep, hrun]
      exact hkeys
    · rw [hstep, hrun]
      exact hkeys

/-- The world after a step that neither writes nor commits nor audits an ending. -/
theorem world_of_phase (hw : m.phase.writes = false) (hp : m.phase.persists = false)
    (hc : ∀ outcome reason status, m.phase ≠ .conclude outcome reason status) :
    (m.step i w).2 = w := by
  obtain hsame | ⟨plan, node, hphase, -⟩ | ⟨wrote, hphase, -⟩ | ⟨o, r, st, hphase, -⟩ :=
    m.step_cases i w
  · exact hsame
  · rw [hphase] at hw
    cases hw
  · rw [hphase] at hp
    cases hp
  · exact absurd hphase (hc o r st)

end Mutation

/-! ### Calls that will never report success -/

/-- The call ended, or will end, without a success. -/
def Phase.dead : Phase → Bool
  | .raised _ | .conclude _ _ _ => true
  | .returned status _ => !status.success
  | _ => false

theorem Phase.not_success_of_dead {phase : Phase} (h : phase.dead = true) :
    reportedSuccess phase.status = false := by
  cases phase with
  | raised | conclude => rfl
  | returned status wrote => simpa [Phase.dead, Phase.status, reportedSuccess] using h
  | _ => cases h

theorem Mutation.dead_next {m : Mutation} (hfollows : m.phase.Follows m.request)
    (h : m.phase.dead = true) (i : StepInput) (w : World) : (m.next i w).phase.dead = true := by
  have hturn := m.turn i w
  unfold Mutation.next
  generalize (m.step i w).1 = next at hturn ⊢
  cases hturn with
  | finished => exact h
  | failing | concluding => rfl
  | concluded hphase =>
    rw [hphase] at hfollows
    show (!_) = true
    rw [hfollows.2]
    rfl
  | authorized hphase | replayed hphase | unclaimed hphase | unexcluded hphase | dispatched hphase
  | targeted hphase | computed hphase | resolved hphase | confirmed hphase | committed hphase
  | outraced hphase =>
    rw [hphase] at h
    cases h

/-! ### The calls -/

/-- What a phase says about the call's key, which was consumed `before` the run or is consumed `now`,
and about the repository it writes to. -/
def KeyHeld (pid : ℤ) (before now : Bool) : Phase → Prop
  | .authorize | .replay => now = before
  | .exclusion | .budget | .resolve _ | .persist _ => now = false
  | .write _ node => node = pid ∧ now = false
  | .returned status none => status.success = true → before = true
  | .target _ _ | .memberships _ _ _ | .outraced _ => False
  | _ => True

/-- What holds of each call at any moment of a run from `start`: it is about the repository its path
leads to, and its key is claimed by nobody else. -/
structure CallOk (account : Uuid) (pid : ℤ) (start : Database) (w : World) (m : Mutation) : Prop where
  acts : m.context.accountId = account
  asks : m.pid = pid
  direction : ∃ d, m.request.direction = some d
  follows : m.phase.Follows m.request
  path : m.resolves w.upstream = some pid
  held : KeyHeld pid (successfulOutcomeExists m.request.idempotencyKey start)
    (successfulOutcomeExists m.request.idempotencyKey w.catalog.tables) m.phase

section calls

variable {account : Uuid} {pid : ℤ} {start : Database} {w w' : World} {m : Mutation}

/-- A call is not disturbed by a step that moves no path and claims another key. -/
theorem CallOk.of_keeps (h : CallOk account pid start w m)
    (hpaths : w'.upstream.paths = w.upstream.paths)
    (hkey : successfulOutcomeExists m.request.idempotencyKey w'.catalog.tables =
      successfulOutcomeExists m.request.idempotencyKey w.catalog.tables) :
    CallOk account pid start w' m :=
  { h with
    path := by rw [Mutation.resolves, hpaths]; exact h.path
    held := by rw [hkey]; exact h.held }

/-- **The stepping call.** -/
theorem CallOk.next (h : CallOk account pid start w m) {i : StepInput} (hfresh : FreshAudit w i) :
    CallOk account pid start (m.step i w).2 (m.next i w) := by
  obtain ⟨d, hdir⟩ := h.direction
  refine ⟨h.acts, h.asks, h.direction, Mutation.follows_step h.follows i w, ?_, ?_⟩
  · show (m.step i w).2.upstream.paths _ _ = _
    rw [m.paths_step i w]
    exact h.path
  have hheld := h.held
  have hfollows := h.follows
  have hworld := Mutation.world_of_phase (m := m) (i := i) (w := w)
  have hturn := m.turn i w
  obtain ⟨next, hnext⟩ : ∃ next, (m.step i w).1 = next := ⟨_, rfl⟩
  show KeyHeld pid _ (successfulOutcomeExists m.request.idempotencyKey _) (m.step i w).1
  rw [hnext] at hturn ⊢
  cases hturn with
  | finished hend =>
    rw [Mutation.step_of_ended hend]
    exact hheld
  | failing | concluding | committed => trivial
  | authorized hphase =>
    rw [hphase] at hheld hworld
    rw [hworld rfl rfl (by simp)]
    exact hheld
  | replayed hphase hkey =>
    rw [hphase] at hheld
    exact fun _ => hheld.symm.trans hkey
  | unclaimed hphase hkey =>
    rw [hphase] at hworld
    rw [hworld rfl rfl (by simp)]
    exact hkey
  | unexcluded hphase =>
    rw [hphase] at hheld hworld
    rw [hworld rfl rfl (by simp)]
    exact hheld
  | dispatched hphase =>
    rw [hphase] at hheld hworld
    rw [hworld rfl rfl (by simp), m.dispatch_star hdir]
    exact hheld
  | targeted hphase | computed hphase =>
    rw [hphase] at hheld
    exact hheld.elim
  | resolved hphase hpath =>
    rw [hphase] at hheld hworld
    rw [hworld rfl rfl (by simp)]
    have hown := h.path
    rw [Mutation.resolves, hpath] at hown
    exact ⟨Option.some.inj hown, hheld⟩
  | confirmed hphase =>
    rw [hphase] at hheld hfollows
    obtain rfl := Plan.Suits.eq_star hfollows hdir
    rw [(Mutation.confirmed_star hphase hnext).2.1]
    exact hheld.2
  | outraced hphase herr =>
    rw [hphase] at hheld hfollows
    rw [Plan.Suits.eq_star hfollows hdir] at herr
    rcases persistConfirmedStar_keyTaken herr with hclaimed | ⟨a, ha, hid⟩
    · rw [show _ = false from hheld] at hclaimed
      cases hclaimed
    · exact hfresh a ha hid
  | concluded hphase =>
    rw [hphase] at hfollows
    intro hsuccess
    rw [hfollows.2] at hsuccess
    cases hsuccess

end calls

/-! ### The two copies -/

/-- How the catalog stands to the provider while no call is lost: every pending commit carries what the
provider holds, and unless one is pending the two agree - or nothing has been written yet. -/
def InStep (account : Uuid) (pid : ℤ) (start s : System) : Prop :=
  (∀ m ∈ s.mutations, ∀ d, m.phase.persists = true → m.request.direction = some d →
    s.world.upstream.stars account pid = d.starred) ∧
  ((∃ m ∈ s.mutations, m.phase.persists = true) ∨
    starredFor account pid s.world.catalog.tables = s.world.upstream.stars account pid ∨
    ((∀ m ∈ s.mutations, m.phase.wrote = none) ∧
      starredFor account pid s.world.catalog.tables =
        starredFor account pid start.world.catalog.tables ∧
      s.world.upstream.stars account pid = start.world.upstream.stars account pid))

structure Converging (account : Uuid) (pid : ℤ) (start s : System) : Prop where
  calls : ∀ m ∈ s.mutations, CallOk account pid start.world.catalog.tables s.world m
  keys : s.mutations.map (·.request.idempotencyKey) =
    start.mutations.map (·.request.idempotencyKey)
  distinct : (s.mutations.map (·.request.idempotencyKey)).Nodup
  state : (∃ m ∈ s.mutations, m.phase.dead = true) ∨ InStep account pid start s

section system

variable {account : Uuid} {pid : ℤ} {start s : System} {n : ℕ} {i : StepInput} {m : Mutation}

/-- Two calls with one key are the same call. -/
theorem index_eq_of_key (hdistinct : (s.mutations.map (·.request.idempotencyKey)).Nodup) {j : ℕ}
    {m' : Mutation} (hm : s.mutations[n]? = some m) (hm' : s.mutations[j]? = some m')
    (hkey : m'.request.idempotencyKey = m.request.idempotencyKey) : j = n := by
  have hn : (s.mutations.map (·.request.idempotencyKey))[n]? = some m.request.idempotencyKey := by
    rw [List.getElem?_map, hm]
    rfl
  have hj : (s.mutations.map (·.request.idempotencyKey))[j]? = some m.request.idempotencyKey := by
    rw [List.getElem?_map, hm', Option.map_some, hkey]
  obtain ⟨hlt, -⟩ := List.getElem?_eq_some_iff.mp hj
  exact (List.getElem?_inj hlt hdistinct).mp (hj.trans hn.symm)

/-- The calls of an advanced system: the stepping one, and the others as they were. -/
theorem mem_advance_iff (hm : s.mutations[n]? = some m) {m' : Mutation} :
    m' ∈ (s.advance n i).mutations ↔
      m' = m.next i s.world ∨ ∃ j, j ≠ n ∧ s.mutations[j]? = some m' := by
  rw [List.mem_iff_getElem?]
  constructor
  · rintro ⟨j, hj⟩
    rw [System.mutations_advance] at hj
    split at hj
    · rw [hm, Option.map_some] at hj
      exact .inl (Option.some.inj hj).symm
    · next hne => exact .inr ⟨j, hne, hj⟩
  · rintro (rfl | ⟨j, hne, hj⟩)
    · exact ⟨n, by rw [System.mutations_advance, if_pos rfl, hm]; rfl⟩
    · exact ⟨j, by rw [System.mutations_advance, if_neg hne]; exact hj⟩

theorem keys_advance (s : System) (n : ℕ) (i : StepInput) :
    (s.advance n i).mutations.map (·.request.idempotencyKey) =
      s.mutations.map (·.request.idempotencyKey) := by
  unfold System.advance
  cases hm : s.mutations[n]? with
  | none => rfl
  | some m =>
    obtain ⟨hlt, hget⟩ := List.getElem?_eq_some_iff.mp hm
    dsimp only
    rw [List.map_set]
    apply List.ext_getElem?
    intro j
    by_cases hj : j = n
    · subst hj
      rw [List.getElem?_set_self (by simpa using hlt), List.getElem?_map, hm]
      rfl
    · rw [List.getElem?_set_ne (Ne.symm hj)]

/-- A dead call stays dead. -/
theorem dead_advance (hcalls : ∀ m ∈ s.mutations, m.phase.Follows m.request)
    (h : ∃ m ∈ s.mutations, m.phase.dead = true) :
    ∃ m ∈ (s.advance n i).mutations, m.phase.dead = true := by
  obtain ⟨m', hm', hdead⟩ := h
  obtain ⟨j, hj⟩ := List.mem_iff_getElem?.mp hm'
  by_cases hne : j = n
  · subst hne
    exact ⟨m'.next i s.world, (mem_advance_iff hj).mpr (.inl rfl),
      Mutation.dead_next (hcalls m' hm') hdead i s.world⟩
  · refine ⟨m', ?_, hdead⟩
    rw [List.mem_iff_getElem?]
    exact ⟨j, by rw [System.mutations_advance, if_neg hne]; exact hj⟩

/-- A step that leaves the world alone and neither starts nor ends a write keeps the two in step. -/
theorem InStep.of_quiet (h : InStep account pid start s) (hm : s.mutations[n]? = some m)
    (hworld : (s.advance n i).world = s.world)
    (hpersists : (m.next i s.world).phase.persists = m.phase.persists)
    (hwrote : m.phase.wrote = none → (m.next i s.world).phase.wrote = none) :
    InStep account pid start (s.advance n i) := by
  have hmem := List.mem_of_getElem? hm
  obtain ⟨hpending, hcopies⟩ := h
  refine ⟨?_, ?_⟩
  · intro m' hm' d hp hd
    rw [hworld]
    rcases (mem_advance_iff hm).mp hm' with rfl | ⟨j, -, hj⟩
    · exact hpending m hmem d (hpersists ▸ hp) hd
    · exact hpending m' (List.mem_of_getElem? hj) d hp hd
  · rw [hworld]
    refine hcopies.imp ?_ (Or.imp_right fun ⟨hnone, hvalues⟩ => ⟨?_, hvalues⟩)
    · rintro ⟨m', hm', hp⟩
      obtain ⟨j, hj⟩ := List.mem_iff_getElem?.mp hm'
      by_cases hne : j = n
      · subst hne
        rw [hm] at hj
        cases hj
        exact ⟨_, (mem_advance_iff hm).mpr (.inl rfl), hpersists.trans hp⟩
      · exact ⟨m', (mem_advance_iff hm).mpr (.inr ⟨j, hne, hj⟩), hp⟩
    · intro m' hm'
      rcases (mem_advance_iff hm).mp hm' with rfl | ⟨j, -, hj⟩
      · exact hwrote (hnone m hmem)
      · exact hnone m' (List.mem_of_getElem? hj)

/-- **The two copies after one step.** -/
theorem state_advance (h : Converging account pid start s) (hm : s.mutations[n]? = some m)
    (hguard : Uncrossed s (.advance n i)) (hstep : InStep account pid start s) :
    (∃ m ∈ (s.advance n i).mutations, m.phase.dead = true) ∨
      InStep account pid start (s.advance n i) := by
  have hmem := List.mem_of_getElem? hm
  obtain ⟨hacts, hasks, ⟨d, hdir⟩, hfollows, hpath, hheld⟩ := h.calls m hmem
  have hown : m.next i s.world ∈ (s.advance n i).mutations := (mem_advance_iff hm).mpr (.inl rfl)
  have hworld : (s.advance n i).world = (m.step i s.world).2 := by
    simp only [System.advance, hm]
  have hquiet := hstep.of_quiet (i := i) hm
  have hsame := Mutation.world_of_phase (m := m) (i := i) (w := s.world)
  have hturn := m.turn i s.world
  obtain ⟨next, hnext⟩ : ∃ next, (m.step i s.world).1 = next := ⟨_, rfl⟩
  have hphase' : (m.next i s.world).phase = next := hnext
  rw [hnext] at hturn
  rw [hphase', hworld] at hquiet
  cases hturn with
  | failing e => exact .inl ⟨_, hown, by rw [hphase']; rfl⟩
  | concluding => exact .inl ⟨_, hown, by rw [hphase']; rfl⟩
  | concluded hphase =>
    rw [hphase] at hfollows
    refine .inl ⟨_, hown, ?_⟩
    rw [hphase', Phase.dead, hfollows.2]
    rfl
  | finished hend =>
    rw [Mutation.step_of_ended hend] at hquiet
    exact .inr (hquiet rfl rfl id)
  | authorized hphase | replayed hphase | unclaimed hphase | unexcluded hphase | resolved hphase =>
    rw [hphase] at hquiet hsame
    exact .inr (hquiet (hsame rfl rfl (by simp)) rfl fun _ => rfl)
  | dispatched hphase =>
    rw [hphase, m.dispatch_star hdir] at hquiet
    rw [hphase] at hsame
    exact .inr (hquiet (hsame rfl rfl (by simp)) rfl fun _ => rfl)
  | targeted hphase | computed hphase =>
    rw [hphase] at hheld
    exact hheld.elim
  | outraced hphase =>
    have hnext := (CallOk.next (h.calls m hmem) hguard.1).held
    rw [hphase'] at hnext
    exact hnext.elim
  | confirmed hphase =>
    -- the provider now holds this direction, and so does every pending commit
    rw [hphase] at hfollows hheld
    obtain rfl := Plan.Suits.eq_star hfollows hdir
    obtain ⟨-, -, hstars⟩ := Mutation.confirmed_star hphase hnext
    have hvalue : (s.advance n i).world.upstream.stars account pid = d.starred := by
      rw [hworld, hstars, Upstream.stars_setStar, if_pos ⟨hacts.symm, hheld.1.symm⟩]
    refine .inr ⟨?_, .inl ⟨_, hown, by rw [hphase']; rfl⟩⟩
    intro m' hm' d' hp hd'
    rw [hvalue]
    rcases (mem_advance_iff hm).mp hm' with rfl | ⟨j, -, hj⟩
    · rw [show m.request.direction = some d' from hd'] at hdir
      rw [Option.some.inj hdir]
    · have hsamedir := hguard.2 m hm (by rw [hphase]; rfl) m' (List.mem_of_getElem? hj) hp
      rw [hd', hdir] at hsamedir
      rw [Option.some.inj hsamedir]
  | committed hphase =>
    -- the catalog takes over what the provider holds
    rw [hphase] at hfollows
    have hplan := Plan.Suits.eq_star hfollows hdir
    obtain ⟨hok, hupstream⟩ := Mutation.committed_world hphase hnext
    rw [hplan] at hok
    have hvalue : s.world.upstream.stars account pid = d.starred :=
      hstep.1 m hmem d (by rw [hphase]; rfl) hdir
    have hlocal : starredFor account pid (s.advance n i).world.catalog.tables = d.starred := by
      rw [starredFor_eq _ _ (s.advance n i).world.catalog.valid.keys, hworld,
        recordedStar_persist hok, if_pos ⟨hacts.symm, hasks.symm⟩]
      cases d <;> rfl
    refine .inr ⟨?_, .inr (.inl ?_)⟩
    · intro m' hm' d' hp hd'
      rw [hworld, hupstream]
      rcases (mem_advance_iff hm).mp hm' with rfl | ⟨j, -, hj⟩
      · rw [hphase'] at hp
        cases hp
      · exact hstep.1 m' (List.mem_of_getElem? hj) d' hp hd'
    · rw [hlocal, hworld, hupstream, hvalue]

/-- **One step.** -/
theorem converging_step {k : Contracts} {e : Event} (h : Converging account pid start s)
    (hguard : Uncrossed s e) : Converging account pid start (s.step k e) := by
  cases e with
  | adjust | catalog | upstream => exact hguard.elim
  | advance n i =>
    show Converging account pid start (s.advance n i)
    obtain ⟨-, hnone⟩ | ⟨m, hm, hmem, hworld⟩ := s.advance_cases n i
    · rw [hnone]
      exact h
    have hkeys := keys_advance s n i
    refine ⟨?_, hkeys.trans h.keys, hkeys ▸ h.distinct, ?_⟩
    · intro m' hm'
      rw [hworld]
      rcases (mem_advance_iff hm).mp hm' with rfl | ⟨j, hne, hj⟩
      · exact (h.calls m hmem).next hguard.1
      · refine (h.calls m' (List.mem_of_getElem? hj)).of_keeps (m.paths_step i s.world) ?_
        exact Mutation.keys_other (h.calls m hmem).follows fun hkey =>
          hne (index_eq_of_key h.distinct hm hj hkey)
    · rcases h.state with hdead | hstep
      · exact .inl (dead_advance (fun m hm => (h.calls m hm).follows) hdead)
      · exact state_advance h hm hguard hstep

/-- Where every call reported success, the two copies agree. -/
theorem Converging.agrees (h : Converging account pid start s)
    (hstart : starredFor account pid start.world.catalog.tables =
        start.world.upstream.stars account pid ∨
      ∃ m ∈ start.mutations,
        successfulOutcomeExists m.request.idempotencyKey start.world.catalog.tables = false) :
    Agrees account pid s := by
  intro hdone
  obtain ⟨m, hm, hdead⟩ | ⟨-, ⟨m, hm, hp⟩ | hagree | ⟨hnone, hlocal, hupstream⟩⟩ := h.state
  · have hfail := Phase.not_success_of_dead hdead
    rw [hdone m hm] at hfail
    cases hfail
  · have hsuccess := hdone m hm
    cases hphase : m.phase with
    | persist wrote => rw [hphase] at hsuccess; cases hsuccess
    | _ => rw [hphase] at hp; cases hp
  · exact hagree
  · -- nothing was written, so every success is a replay
    rcases hstart with hagree | ⟨m₀, hm₀, hfree⟩
    · rw [hlocal, hupstream, hagree]
    · have hmemkey : m₀.request.idempotencyKey ∈ s.mutations.map (·.request.idempotencyKey) := by
        rw [h.keys]
        exact List.mem_map_of_mem hm₀
      obtain ⟨m, hm, hkey⟩ := List.mem_map.mp hmemkey
      have hheld := (h.calls m hm).held
      have hsuccess := hdone m hm
      have hunwritten := hnone m hm
      rw [hkey, hfree] at hheld
      cases hphase : m.phase with
      | returned status wrote =>
        rw [hphase] at hheld hsuccess hunwritten
        cases wrote with
        | some wrote => cases hunwritten
        | none => cases hheld hsuccess
      | outraced wrote => rw [hphase] at hunwritten; cases hunwritten
      | _ => rw [hphase] at hsuccess; cases hsuccess

end system

/-- **Uncrossed stars agree.**  From any world, any number of star and unstar mutations of one account
for one repository, with distinct keys and a path that leads to it, and no other writer: along every
uncrossed run, once all of them report success, the catalog's star is the provider's.  (If the two
disagree at the start, some call must have a key of its own to execute.) -/
theorem stars_agree_throughout (k : Contracts) (account : Uuid) (pid : ℤ) (s : System)
    (hcalls : ∀ m ∈ s.mutations, (∃ direction, m.Starts account pid direction) ∧
      m.resolves s.world.upstream = some pid)
    (hkeys : (s.mutations.map (·.request.idempotencyKey)).Nodup)
    (hstart : starredFor account pid s.world.catalog.tables = s.world.upstream.stars account pid ∨
      ∃ m ∈ s.mutations,
        successfulOutcomeExists m.request.idempotencyKey s.world.catalog.tables = false)
    (events : List Event) (hguard : Guarded (System.step k) Uncrossed s events) :
    Throughout (System.step k) (Agrees account pid) s events := by
  have hphase : ∀ m ∈ s.mutations, m.phase = .authorize := by
    intro m hm
    obtain ⟨⟨direction, -, -, -, hphase⟩, -⟩ := hcalls m hm
    exact hphase
  have hinit : Converging account pid s s := by
    refine ⟨?_, rfl, hkeys, .inr ⟨?_, .inr (.inr ⟨?_, rfl, rfl⟩)⟩⟩
    · intro m hm
      obtain ⟨⟨direction, hacts, hasks, hdir, hp⟩, hpath⟩ := hcalls m hm
      exact ⟨hacts, hasks, ⟨direction, hdir⟩, by rw [hp]; trivial, hpath, by rw [hp]; rfl⟩
    · intro m hm d hp
      rw [hphase m hm] at hp
      cases hp
    · intro m hm
      rw [hphase m hm]
      rfl
  exact (throughout_of_guarded (G := Uncrossed) (fun t e ht hg => converging_step ht hg) hinit
    hguard).mono fun t ht => ht.agrees hstart

/-! ### A star and an unstar -/

/-- A star and an unstar of one repository. -/
def starAndUnstar : System where
  world := contestWorld
  mutations := [starRust,
    ⟨⟨1, "owner-a", .web⟩, .unstar ⟨101, "rust-lang", "rust"⟩ "unstar-key", .authorize⟩]
  modes := []

theorem starAndUnstar_calls : ∀ m ∈ starAndUnstar.mutations,
    (∃ direction, m.Starts 1 101 direction) ∧
      m.resolves starAndUnstar.world.upstream = some 101 := by
  intro m hm
  rcases List.mem_cons.mp hm with rfl | hm
  · exact ⟨⟨.add, rfl, rfl, rfl, rfl⟩, rfl⟩
  · rw [List.mem_singleton.mp hm]
    exact ⟨⟨.remove, rfl, rfl, rfl, rfl⟩, rfl⟩

/-- The calls run in turns up to their writes, and then one after the other. -/
def uncrossedRun : List Event :=
  (List.range 5).flatMap (fun n => [.advance 0 (inputAt n), .advance 1 (inputAt (10 + n))]) ++
    [.advance 0 (inputAt 20), .advance 0 (inputAt 21), .advance 1 (inputAt 22),
      .advance 1 (inputAt 23)]

/-- Interleaved up to the writes: both succeed, and the copies agree. -/
theorem stars_agree_throughout_interleaved :
    Throughout (System.step sampleContracts) (Agrees 1 101) starAndUnstar uncrossedRun ∧
      (runFrom (System.step sampleContracts) starAndUnstar uncrossedRun).mutations.map
        (fun m => reportedSuccess m.phase.status) = [true, true] :=
  ⟨stars_agree_throughout sampleContracts 1 101 starAndUnstar starAndUnstar_calls (by decide)
    (.inl (by decide +kernel)) uncrossedRun (by decide +kernel), by decide +kernel⟩

/-- The star writes first and commits last. -/
def crossedRun : List Event :=
  (List.range 6).map (fun n => .advance 0 (inputAt n)) ++
    (List.range 7).map (fun n => .advance 1 (inputAt (10 + n))) ++ [.advance 0 (inputAt 20)]

/-- **Crossed commits disagree.**  Both calls report success; the provider holds no star and the catalog
holds one. -/
theorem crossed_stars_disagree :
    (∀ m ∈ starAndUnstar.mutations, (∃ direction, m.Starts 1 101 direction) ∧
      m.resolves starAndUnstar.world.upstream = some 101) ∧
    (starAndUnstar.mutations.map (·.request.idempotencyKey)).Nodup ∧
    ¬ Agrees 1 101 (runFrom (System.step sampleContracts) starAndUnstar crossedRun) :=
  ⟨starAndUnstar_calls, by decide, by decide +kernel⟩

end GithubCatalog
