import GithubCatalog.MutationEffects

/-!
# Starring against exclusion

`execute_mutation(Star)` refuses an ignored repository and `set_repository_mode(Ignored)` refuses a
starred one, but each side reads first and commits later.  The two windows are

* of a star, from its exclusion check to its commit (`Phase.cleared`);
* of an exclusion, from its read of the star to its commit (`ModePhase.commit`).

`Separate` forbids a commit of one side inside a window of the other.  Along every such run no
repository ends ignored and starred by two successful calls (`exclusion_throughout`), and without it
one does (`star_outruns_exclusion`).
-/

namespace GithubCatalog

open Relational Transact Runs

/-- The catalog holds the repository both ignored and starred by the account. -/
def conflicted (account : Uuid) (pid : ℤ) (db : Database) : Bool :=
  starredFor account pid db && decide (modeOf pid db = some .ignored)

/-- A star mutation past its exclusion check that has not committed yet. -/
def Phase.cleared : Phase → Bool
  | .budget | .resolve _ | .write _ _ | .persist _ => true
  | _ => false

/-- A mutation or a mode change about to start. -/
def Mutation.Starts (account : Uuid) (pid : ℤ) (direction : StarDirection) (m : Mutation) : Prop :=
  m.context.accountId = account ∧ m.pid = pid ∧ m.request.direction = some direction ∧
    m.phase = .authorize

def ModeChange.Starts (account : Uuid) (pid : ℤ) (requested : RequestedMode) (g : ModeChange) :
    Prop :=
  g.context.accountId = account ∧ g.pid = pid ∧ g.requested = requested ∧ g.phase = .replay

/-- A star mutation about to commit. -/
def Phase.persists : Phase → Bool
  | .persist _ => true
  | _ => false

/-- A mode change about to commit what it read. -/
def ModePhase.commits : ModePhase → Bool
  | .commit _ _ => true
  | _ => false

/-- The step is one of the calls', and commits nothing inside a window of the other side. -/
def Separate (s : System) : Event → Prop
  | .advance n _ => (s.mutations[n]?.any fun m => m.phase.persists) = true →
      ∀ g ∈ s.modes, g.phase.commits = false
  | .adjust n _ => (s.modes[n]?.any fun g => g.phase.commits) = true →
      ∀ m ∈ s.mutations, m.phase.cleared = false
  | .catalog _ => False
  | .upstream _ => True

instance (s : System) : (e : Event) → Decidable (Separate s e)
  | .advance n _ => inferInstanceAs (Decidable ((s.mutations[n]?.any fun m => m.phase.persists) = true →
      ∀ g ∈ s.modes, g.phase.commits = false))
  | .adjust n _ => inferInstanceAs (Decidable ((s.modes[n]?.any fun g => g.phase.commits) = true →
      ∀ m ∈ s.mutations, m.phase.cleared = false))
  | .catalog _ => inferInstanceAs (Decidable False)
  | .upstream _ => inferInstanceAs (Decidable True)

/-! ### Runs that start without a conflict -/

/-- No conflict; a cleared star saw a repository that is still not ignored, and an exclusion that saw
no star is still right. -/
structure Excluding (account : Uuid) (pid : ℤ) (s : System) : Prop where
  stars : ∀ m ∈ s.mutations, m.context.accountId = account ∧ m.pid = pid ∧
    m.request.direction = some .add ∧ m.phase.Follows m.request ∧
    (m.phase.cleared = true → modeOf pid s.world.catalog.tables ≠ some .ignored)
  modes : ∀ g ∈ s.modes, g.context.accountId = account ∧ g.pid = pid ∧ g.requested = .ignored ∧
    ∀ current, g.phase = .commit current false →
      starredFor account pid s.world.catalog.tables = false
  free : conflicted account pid s.world.catalog.tables = false

/-- The exclusion check of a star reads the mode. -/
theorem ignoredStarConflict_add (pid : ℤ) (db : Database) :
    ignoredStarConflict .add pid db = decide (modeOf pid db = some .ignored) := by
  unfold ignoredStarConflict modeOf
  cases repositoryOf pid db with
  | none => rfl
  | some r => rfl

/-- A step that clears a star read a repository that is not ignored. -/
theorem Mutation.cleared_step {m : Mutation} {i : StepInput} {w : World}
    (hdir : m.request.direction = some .add) (hfollows : m.phase.Follows m.request)
    (h : (m.step i w).1.cleared = true) :
    m.phase.cleared = true ∨ modeOf m.pid w.catalog.tables ≠ some .ignored := by
  have hturn := m.turn i w
  generalize (m.step i w).1 = next at hturn h
  cases hturn with
  | finished => exact .inl h
  | failing | concluding | authorized | replayed | unclaimed | targeted | committed | outraced
  | concluded => cases h
  | unexcluded hphase hfree =>
    rw [hdir, Option.any_some, ignoredStarConflict_add] at hfree
    exact .inr (of_decide_eq_false hfree)
  | dispatched hphase | resolved hphase | confirmed hphase => rw [hphase]; exact .inl rfl
  | computed hphase =>
    rw [hphase] at hfollows
    have hmember : m.request.membership = _ := hfollows
    rw [MutationRequest.membership_eq_none hdir] at hmember
    cases hmember

/-- A mode change that is about to commit read the star. -/
theorem ModeChange.commit_step {g : ModeChange} {i : StepInput} {w : World}
    {current : Option RepositoryMode} {starred : Bool} (h : (g.step i w).1 = .commit current starred) :
    g.phase = .read ∧ (g.step i w).2 = w ∧
      starred = starredFor g.context.accountId g.pid w.catalog.tables := by
  unfold ModeChange.step at h ⊢
  cases hphase : g.phase with
  | replay =>
    simp only [hphase] at h
    obtain ⟨-, hread | ⟨e, hread⟩⟩ := g.reading_cases i w
    · rw [hread, hphase, ModeChange.afterRead] at h
      split at h <;> cases h
    · rw [hread] at h
      cases h
  | read =>
    simp only [hphase] at h
    obtain ⟨hworld, hread | ⟨e, hread⟩⟩ := g.reading_cases i w
    · rw [hread, hphase, ModeChange.afterRead] at h
      cases h
      exact ⟨rfl, hworld, rfl⟩
    · rw [hread] at h
      cases h
  | commit current' starred' =>
    simp only [hphase] at h
    obtain ⟨status, c, -, hrun | hrun⟩ | ⟨-, hrun⟩ | ⟨e, hrun⟩ :=
      ModeChange.committing_cases (g := g) (i := i) (w := w) current' starred'
    · rw [hrun] at h; cases h
    · rw [hrun] at h; cases h
    · rw [hrun] at h; cases h
    · rw [hrun] at h; cases h
  | returned | outraced | raised =>
    simp only [hphase] at h
    cases h

theorem conflicted_of_reads {account : Uuid} {pid : ℤ} {c c' : Catalog}
    (h : SameReads c.tables c'.tables) :
    conflicted account pid c'.tables = conflicted account pid c.tables := by
  rw [conflicted, conflicted, h.starredFor_eq, h.2]

/-- A committed star leaves a starred repository that is not ignored, when it was not. -/
theorem reads_confirmedStar {ids : ℕ → Uuid} {now : Time} {context : MutationContext} {pid : ℤ}
    {key : String} {c c' : Catalog} {status : MutationStatus}
    (h : persistConfirmedStar ids now context pid key .add c = .ok (status, c'))
    (hmode : modeOf pid c.tables ≠ some .ignored) : modeOf pid c'.tables ≠ some .ignored := by
  rw [modeOf_persist h]
  cases hm : modeOf pid c.tables with
  | none => simp [StarDirection.modeAfter]
  | some mode => rw [hm] at hmode; cases mode <;> simp_all [StarDirection.modeAfter]

variable {account : Uuid} {pid : ℤ}

theorem excluding_advance {s : System} (h : Excluding account pid s) {n : ℕ} {i : StepInput}
    (hguard : Separate s (.advance n i)) : Excluding account pid (s.advance n i) := by
  obtain ⟨-, hnone⟩ | ⟨m, hm, hmem, hworld⟩ := s.advance_cases n i
  · rw [hnone]
    exact h
  · obtain ⟨hacc, hpid, hdir, hfollows, hcleared⟩ := h.stars m hmem
    obtain hreads | ⟨wrote, status, hphase, hok⟩ := m.step_reads i s.world
    · -- the reads are as they were
      rw [← hworld] at hreads
      refine ⟨?_, ?_, ?_⟩
      · apply System.forall_mutations_advance
        · intro m' hm'
          obtain ⟨hacc', hpid', hdir', hfollows', hcleared'⟩ := h.stars m' hm'
          exact ⟨hacc', hpid', hdir', hfollows', by rw [hreads.2]; exact hcleared'⟩
        · intro m' hm'
          rw [hm] at hm'
          cases hm'
          refine ⟨hacc, hpid, hdir, Mutation.follows_step hfollows i s.world, fun hnext => ?_⟩
          rw [hreads.2]
          rcases Mutation.cleared_step hdir hfollows hnext with hold | hmode
          · exact hcleared hold
          · exact hpid ▸ hmode
      · intro g hg
        rw [System.modes_advance] at hg
        obtain ⟨hacc', hpid', hreq, hstar⟩ := h.modes g hg
        refine ⟨hacc', hpid', hreq, fun current hcommit => ?_⟩
        rw [hreads.starredFor_eq]
        exact hstar current hcommit
      · rw [conflicted_of_reads hreads]
        exact h.free
    · -- the star commits: its repository is still not ignored, and no exclusion is pending
      have hmode : modeOf pid s.world.catalog.tables ≠ some .ignored :=
        hcleared (by rw [hphase]; rfl)
      have hplan : wrote.plan = .star .add := by
        rw [hphase] at hfollows
        exact Plan.Suits.eq_star hfollows hdir
      rw [hplan, ← hworld, hpid] at hok
      have hmode' := reads_confirmedStar hok hmode
      refine ⟨?_, ?_, ?_⟩
      · apply System.forall_mutations_advance
        · intro m' hm'
          obtain ⟨hacc', hpid', hdir', hfollows', -⟩ := h.stars m' hm'
          exact ⟨hacc', hpid', hdir', hfollows', fun _ => hmode'⟩
        · intro m' hm'
          rw [hm] at hm'
          cases hm'
          exact ⟨hacc, hpid, hdir, Mutation.follows_step hfollows i s.world, fun _ => hmode'⟩
      · intro g hg
        rw [System.modes_advance] at hg
        obtain ⟨hacc', hpid', hreq, -⟩ := h.modes g hg
        have hidle := hguard (by rw [hm, Option.any_some, hphase]; rfl) g hg
        refine ⟨hacc', hpid', hreq, fun current hcommit => ?_⟩
        rw [hcommit] at hidle
        cases hidle
      · rw [conflicted, decide_eq_false hmode', Bool.and_false]

theorem excluding_adjust {s : System} (h : Excluding account pid s) {n : ℕ} {i : StepInput}
    (hguard : Separate s (.adjust n i)) : Excluding account pid (s.adjust n i) := by
  obtain ⟨-, hnone⟩ | ⟨g, hg, hmem, hworld⟩ := s.adjust_cases n i
  · rw [hnone]
    exact h
  · obtain ⟨hacc, hpid, hreq, hstar⟩ := h.modes g hmem
    -- a change that is about to commit after the step read the star just now
    have hnext : ∀ current, (g.step i s.world).1 = .commit current false →
        starredFor account pid s.world.catalog.tables = false := by
      intro current hcommit
      rw [← hacc, ← hpid]
      exact (ModeChange.commit_step hcommit).2.2.symm
    obtain hreads | ⟨current, starred, status, hphase, hok⟩ := g.step_reads i s.world
    · rw [← hworld] at hreads
      refine ⟨?_, ?_, ?_⟩
      · intro m hm
        rw [System.mutations_adjust] at hm
        obtain ⟨hacc', hpid', hdir', hfollows', hcleared'⟩ := h.stars m hm
        exact ⟨hacc', hpid', hdir', hfollows', by rw [hreads.2]; exact hcleared'⟩
      · apply System.forall_modes_adjust
        · intro g' hg'
          obtain ⟨hacc', hpid', hreq', hstar'⟩ := h.modes g' hg'
          exact ⟨hacc', hpid', hreq', by rw [hreads.starredFor_eq]; exact hstar'⟩
        · intro g' hg'
          rw [hg] at hg'
          cases hg'
          exact ⟨hacc, hpid, hreq, by rw [hreads.starredFor_eq]; exact hnext⟩
      · rw [conflicted_of_reads hreads]
        exact h.free
    · rw [← hworld] at hok
      obtain ⟨hstars, hmode, -⟩ := reads_transaction hok
      have hstarred : starredFor account pid (s.adjust n i).world.catalog.tables =
          starredFor account pid s.world.catalog.tables := by
        rw [starredFor_eq _ _ (s.adjust n i).world.catalog.valid.keys,
          starredFor_eq _ _ s.world.catalog.valid.keys, hstars]
      have hunclear := hguard (by rw [hg, Option.any_some, hphase]; rfl)
      refine ⟨?_, ?_, ?_⟩
      · intro m hm
        rw [System.mutations_adjust] at hm
        obtain ⟨hacc', hpid', hdir', hfollows', -⟩ := h.stars m hm
        exact ⟨hacc', hpid', hdir', hfollows', fun hc => by rw [hunclear m hm] at hc; cases hc⟩
      · apply System.forall_modes_adjust
        · intro g' hg'
          obtain ⟨hacc', hpid', hreq', hstar'⟩ := h.modes g' hg'
          exact ⟨hacc', hpid', hreq', by rw [hstarred]; exact hstar'⟩
        · intro g' hg'
          rw [hg] at hg'
          cases hg'
          exact ⟨hacc, hpid, hreq, by rw [hstarred]; exact hnext⟩
      · rw [hpid] at hmode
        rcases hmode with hmode | ⟨hvalid, -⟩
        · rw [conflicted, hstarred, hmode]
          exact h.free
        · -- the request was valid, so it had seen no star
          have hunstarred : starred = false := by
            cases starred with
            | false => rfl
            | true => rw [hreq] at hvalid; cases hvalid
          rw [conflicted, hstarred, hstar current (hunstarred ▸ hphase), Bool.false_and]

/-! ### Runs that start in a conflict

A snapshot may star a repository that is ignored.  Then both sides refuse, and only a replayed key
reports a success. -/

/-- The conflict of `start` stands, both sides refuse, and every success is a replay of a key that
was consumed there. -/
structure Refusing (account : Uuid) (pid : ℤ) (start s : System) : Prop where
  stars : ∀ m ∈ s.mutations, (∃ m₀ ∈ start.mutations, m.request = m₀.request) ∧
    m.context.accountId = account ∧ m.pid = pid ∧
    m.request.direction = some .add ∧ m.phase.Follows m.request ∧ m.phase.cleared = false ∧
    (reportedSuccess m.phase.status = true →
      successfulOutcomeExists m.request.idempotencyKey start.world.catalog.tables = true)
  modes : ∀ g ∈ s.modes, (∃ g₀ ∈ start.modes, g.idempotencyKey = g₀.idempotencyKey) ∧
    g.context.accountId = account ∧ g.pid = pid ∧ g.requested = .ignored ∧
    (∀ current starred, g.phase = .commit current starred → starred = true) ∧
    (reportedSuccess g.phase.status = true →
      successfulOutcomeExists g.idempotencyKey start.world.catalog.tables = true)
  conflict : conflicted account pid s.world.catalog.tables = true
  keys : ∀ key, successfulOutcomeExists key s.world.catalog.tables =
    successfulOutcomeExists key start.world.catalog.tables

/-- A success is an old one, a replay, or the end of a cleared write. -/
theorem Mutation.success_step {m : Mutation} {i : StepInput} {w : World}
    (hfollows : m.phase.Follows m.request)
    (h : reportedSuccess (m.step i w).1.status = true) :
    reportedSuccess m.phase.status = true ∨
      successfulOutcomeExists m.request.idempotencyKey w.catalog.tables = true ∨
      m.phase.cleared = true := by
  have hturn := m.turn i w
  generalize (m.step i w).1 = next at hturn h
  cases hturn with
  | finished => exact .inl h
  | failing | concluding | authorized | unclaimed | unexcluded | targeted | computed | resolved
  | confirmed => cases h
  | replayed hphase hkey => exact .inr (.inl hkey)
  | dispatched hphase => rw [hphase]; exact .inr (.inr rfl)
  | committed hphase => rw [hphase]; exact .inr (.inr rfl)
  | outraced hphase => rw [hphase]; exact .inr (.inr rfl)
  | concluded hphase =>
    rw [hphase] at hfollows
    rw [Phase.status, reportedSuccess, Option.any_some, hfollows.2] at h
    cases h

/-- A success of a mode change is an old one, a replay, or the end of its commit. -/
theorem ModeChange.success_step {g : ModeChange} {i : StepInput} {w : World}
    (h : reportedSuccess (g.step i w).1.status = true) :
    reportedSuccess g.phase.status = true ∨
      successfulOutcomeExists g.idempotencyKey w.catalog.tables = true ∨
      ∃ current starred, g.phase = .commit current starred := by
  unfold ModeChange.step at h
  cases hphase : g.phase with
  | commit current starred => exact .inr (.inr ⟨current, starred, rfl⟩)
  | returned | outraced | raised =>
    simp only [hphase] at h
    exact .inl h
  | replay =>
    simp only [hphase] at h
    obtain ⟨-, hread | ⟨e, hread⟩⟩ := g.reading_cases i w
    · rw [hread, hphase, ModeChange.afterRead] at h
      split at h
      · next hkey => exact .inr (.inl hkey)
      · cases h
    · rw [hread] at h
      cases h
  | read =>
    simp only [hphase] at h
    obtain ⟨-, hread | ⟨e, hread⟩⟩ := g.reading_cases i w
    · rw [hread, hphase, ModeChange.afterRead] at h
      cases h
    · rw [hread] at h
      cases h

/-- A mutation that is not cleared claims no key. -/
theorem Mutation.keys_step {m : Mutation} {i : StepInput} {w : World}
    (hfollows : m.phase.Follows m.request) (hclear : m.phase.cleared = false) (key : String) :
    successfulOutcomeExists key (m.step i w).2.catalog.tables =
      successfulOutcomeExists key w.catalog.tables := by
  obtain hsame | ⟨plan, node, hphase, -⟩ | ⟨wrote, hphase, -⟩ |
    ⟨outcome, reason, status, hphase, hstep⟩ := m.step_cases i w
  · rw [hsame]
  · rw [hphase] at hclear
    cases hclear
  · rw [hphase] at hclear
    cases hclear
  · rw [hphase] at hfollows
    obtain ⟨c, hc, hrun⟩ :=
      Mutation.concluding_cases (m := m) (i := i) (w := w) outcome reason status
    have hkeys : successfulOutcomeExists key c.tables =
        successfulOutcomeExists key w.catalog.tables := by
      rcases hc with rfl | hok
      · rfl
      · exact successfulOutcomeExists_recordAttempt hok hfollows.1 key
    rcases hrun with hrun | ⟨e, hrun⟩
    · rw [hstep, hrun]
      exact hkeys
    · rw [hstep, hrun]
      exact hkeys

/-- An exclusion that saw a star loses no key. -/
theorem ModeChange.refused_ne_keyTaken {g : ModeChange} (hreq : g.requested = .ignored)
    (i : StepInput) (current : Option RepositoryMode) (c : Catalog) :
    g.transaction i current true c ≠ .error .keyTaken := by
  refine Tx.bind_ne_error (upsertRepositoryInTx_ne_error _ _ (by simp) c) fun r c₁ _ => ?_
  rw [applyRequestedMode, hreq]
  exact Tx.bind_ne_error (insertAuditRow_ne_error _ (by simp) c₁) fun _ _ _ =>
    Tx.ne_error_of_succeeds rfl

/-- An exclusion that saw a star is refused: it changes nothing and claims no key. -/
theorem ModeChange.refused {g : ModeChange} (hreq : g.requested = .ignored) {i : StepInput}
    {current : Option RepositoryMode} {c c' : Catalog} {status : MutationStatus}
    (h : g.transaction i current true c = .ok (status, c')) :
    status.success = false ∧ SameReads c.tables c'.tables ∧
      ∀ key, successfulOutcomeExists key c'.tables = successfulOutcomeExists key c.tables := by
  obtain ⟨r, c₁, h₁, h₂⟩ := Tx.bind_eq_ok.mp h
  rw [applyRequestedMode, hreq] at h₂
  obtain ⟨won, c₂, haudit, hpure⟩ := Tx.bind_eq_ok.mp h₂
  obtain ⟨rfl, rfl⟩ := Tx.pure_eq_ok.mp hpure
  have hsame : SameProjection c.tables c₂.tables := IsTrans.trans _ _ _
    (sameProjection_upsertRepositoryInTx _ _ _ _ _ h₁) (sameProjection_insertAuditRow _ _ _ _ haudit)
  have haudits : c₁.tables.mutationAudit = c.tables.mutationAudit :=
    (touches_upsertRepositoryInTx _ _).rows_eq h₁ (t := .mutationAudit) (by decide)
  refine ⟨rfl, hsame.reads, fun key => ?_⟩
  rw [successfulOutcomeExists_insertAuditRow haudit rfl key, successfulOutcomeExists, haudits]
  rfl

theorem refusing_advance {start s : System} (h : Refusing account pid start s) (n : ℕ)
    (i : StepInput) : Refusing account pid start (s.advance n i) := by
  obtain ⟨-, hnone⟩ | ⟨m, hm, hmem, hworld⟩ := s.advance_cases n i
  · rw [hnone]
    exact h
  · obtain ⟨hfrom, hacc, hpid, hdir, hfollows, hclear, hsuccess⟩ := h.stars m hmem
    have hreads : SameReads s.world.catalog.tables (s.advance n i).world.catalog.tables := by
      rw [hworld]
      obtain hreads | ⟨wrote, status, hphase, -⟩ := m.step_reads i s.world
      · exact hreads
      · rw [hphase] at hclear
        cases hclear
    refine ⟨?_, ?_, ?_, ?_⟩
    · apply System.forall_mutations_advance h.stars
      intro m' hm'
      rw [hm] at hm'
      cases hm'
      refine ⟨hfrom, hacc, hpid, hdir, Mutation.follows_step hfollows i s.world, ?_, ?_⟩
      · -- the exclusion check sees the ignored mode
        rw [Mutation.next, ← Bool.not_eq_true]
        intro hnext
        rcases Mutation.cleared_step hdir hfollows hnext with hold | hmode
        · rw [hclear] at hold
          cases hold
        · have hconflict := h.conflict
          rw [conflicted, Bool.and_eq_true, decide_eq_true_eq] at hconflict
          exact hmode (hpid ▸ hconflict.2)
      · intro hnext
        rcases Mutation.success_step hfollows hnext with hold | hkey | hcleared
        · exact hsuccess hold
        · rw [← h.keys]
          exact hkey
        · rw [hclear] at hcleared
          cases hcleared
    · intro g hg
      rw [System.modes_advance] at hg
      exact h.modes g hg
    · rw [conflicted_of_reads hreads]
      exact h.conflict
    · intro key
      rw [hworld, Mutation.keys_step hfollows hclear, h.keys]

theorem refusing_adjust {start s : System} (h : Refusing account pid start s) (n : ℕ)
    (i : StepInput) : Refusing account pid start (s.adjust n i) := by
  obtain ⟨-, hnone⟩ | ⟨g, hg, hmem, hworld⟩ := s.adjust_cases n i
  · rw [hnone]
    exact h
  · obtain ⟨hfrom, hacc, hpid, hreq, hcommit, hsuccess⟩ := h.modes g hmem
    have hconflict := h.conflict
    rw [conflicted, Bool.and_eq_true] at hconflict
    have hnextCommit : ∀ current starred, (g.step i s.world).1 = .commit current starred →
        starred = true := by
      intro current starred hnext
      rw [(ModeChange.commit_step hnext).2.2, hacc, hpid]
      exact hconflict.1
    -- a commit of the stepping change is a refusal
    have hstep : SameReads s.world.catalog.tables (s.adjust n i).world.catalog.tables ∧
        (∀ key, successfulOutcomeExists key (s.adjust n i).world.catalog.tables =
          successfulOutcomeExists key s.world.catalog.tables) ∧
        ((∃ current starred, g.phase = .commit current starred) →
          reportedSuccess (g.step i s.world).1.status = false) := by
      rw [hworld]
      by_cases hphase : ∃ current starred, g.phase = .commit current starred
      · obtain ⟨current, starred, hphase⟩ := hphase
        obtain rfl := hcommit current starred hphase
        have hrunning : g.step i s.world = g.committing i current true s.world := by
          rw [ModeChange.step, hphase]
        rw [hrunning]
        obtain ⟨status, c, hok, hrun⟩ | ⟨herr, -⟩ | ⟨e, hrun⟩ :=
          ModeChange.committing_cases (g := g) (i := i) (w := s.world) current true
        · obtain ⟨hstatus, hreads, hkeys⟩ := ModeChange.refused hreq hok
          rcases hrun with hrun | hrun
          · rw [hrun]
            exact ⟨hreads, hkeys, fun _ => hstatus⟩
          · rw [hrun]
            exact ⟨hreads, hkeys, fun _ => rfl⟩
        · exact absurd herr (ModeChange.refused_ne_keyTaken hreq i current _)
        · rw [hrun]
          exact ⟨SameReads.refl _, fun _ => rfl, fun _ => rfl⟩
      · obtain hsame | ⟨current, starred, hcommitting, -⟩ := g.step_cases i s.world
        · rw [hsame]
          exact ⟨SameReads.refl _, fun _ => rfl, fun hcase => absurd hcase hphase⟩
        · exact absurd ⟨current, starred, hcommitting⟩ hphase
    refine ⟨?_, ?_, ?_, ?_⟩
    · intro m hm
      rw [System.mutations_adjust] at hm
      exact h.stars m hm
    · apply System.forall_modes_adjust h.modes
      intro g' hg'
      rw [hg] at hg'
      cases hg'
      refine ⟨hfrom, hacc, hpid, hreq, hnextCommit, fun hnext => ?_⟩
      rcases ModeChange.success_step hnext with hold | hkey | hphase
      · exact hsuccess hold
      · rw [← h.keys]
        exact hkey
      · rw [ModeChange.next, hstep.2.2 hphase] at hnext
        cases hnext
    · rw [conflicted_of_reads hstep.1]
      exact h.conflict
    · intro key
      rw [hstep.2.1, h.keys]

/-! ### Whole runs -/

/-- Where a star and an exclusion both report success, the repository is not both. -/
def Exclusive (account : Uuid) (pid : ℤ) (s : System) : Prop :=
  ∀ m ∈ s.mutations, ∀ g ∈ s.modes, reportedSuccess m.phase.status = true →
    reportedSuccess g.phase.status = true → conflicted account pid s.world.catalog.tables = false

instance (account : Uuid) (pid : ℤ) (s : System) : Decidable (Exclusive account pid s) :=
  inferInstanceAs (Decidable (∀ m ∈ s.mutations, ∀ g ∈ s.modes,
    reportedSuccess m.phase.status = true → reportedSuccess g.phase.status = true →
      conflicted account pid s.world.catalog.tables = false))

/-- **Separate windows exclude.**  From any world, any number of star mutations and exclusions of one
account over one repository, along every run in which neither side commits inside a window of the
other: no two of them succeed and leave the repository ignored and starred.  (Where it is both at the
start, two keys that were consumed earlier would replay their successes.) -/
theorem exclusion_throughout (k : Contracts) (account : Uuid) (pid : ℤ) (s : System)
    (hstars : ∀ m ∈ s.mutations, m.Starts account pid .add)
    (hmodes : ∀ g ∈ s.modes, g.Starts account pid .ignored)
    (hstart : conflicted account pid s.world.catalog.tables = true → ∀ m ∈ s.mutations,
      ∀ g ∈ s.modes,
        successfulOutcomeExists m.request.idempotencyKey s.world.catalog.tables = false ∨
        successfulOutcomeExists g.idempotencyKey s.world.catalog.tables = false)
    (events : List Event) (hguard : Guarded (System.step k) Separate s events) :
    Throughout (System.step k) (Exclusive account pid) s events := by
  by_cases hconflict : conflicted account pid s.world.catalog.tables = true
  · have hinit : Refusing account pid s s := by
      refine ⟨?_, ?_, hconflict, fun _ => rfl⟩
      · intro m hm
        obtain ⟨hacc, hpid, hdir, hphase⟩ := hstars m hm
        rw [hphase]
        exact ⟨⟨m, hm, rfl⟩, hacc, hpid, hdir, trivial, rfl, fun hc => by cases hc⟩
      · intro g hg
        obtain ⟨hacc, hpid, hreq, hphase⟩ := hmodes g hg
        rw [hphase]
        exact ⟨⟨g, hg, rfl⟩, hacc, hpid, hreq, fun _ _ hc => (by cases hc), fun hc => by cases hc⟩
    refine (throughout_of_guarded (G := Separate) ?_ hinit hguard).mono ?_
    · intro t e ht hsep
      cases e with
      | advance n i => exact refusing_advance ht n i
      | adjust n i => exact refusing_adjust ht n i
      | catalog op => exact hsep.elim
      | upstream u => exact ⟨ht.stars, ht.modes, ht.conflict, ht.keys⟩
    · intro t ht m hm g hg hsuccess hsuccess'
      obtain ⟨⟨m₀, hm₀, hrequest⟩, -, -, -, -, -, hreplayed⟩ := ht.stars m hm
      obtain ⟨⟨g₀, hg₀, hkey⟩, -, -, -, -, hreplayed'⟩ := ht.modes g hg
      have hconsumed := hreplayed hsuccess
      have hconsumed' := hreplayed' hsuccess'
      rw [hrequest] at hconsumed
      rw [hkey] at hconsumed'
      rcases hstart hconflict m₀ hm₀ g₀ hg₀ with hfree | hfree
      · rw [hfree] at hconsumed
        cases hconsumed
      · rw [hfree] at hconsumed'
        cases hconsumed'
  · have hinit : Excluding account pid s := by
      refine ⟨?_, ?_, Bool.eq_false_iff.mpr hconflict⟩
      · intro m hm
        obtain ⟨hacc, hpid, hdir, hphase⟩ := hstars m hm
        rw [hphase]
        exact ⟨hacc, hpid, hdir, trivial, fun hc => by cases hc⟩
      · intro g hg
        obtain ⟨hacc, hpid, hreq, hphase⟩ := hmodes g hg
        rw [hphase]
        exact ⟨hacc, hpid, hreq, fun current hc => by cases hc⟩
    refine (throughout_of_guarded (G := Separate) ?_ hinit hguard).mono fun t ht _ _ _ _ _ _ => ht.free
    intro t e ht hsep
    cases e with
    | advance n i => exact excluding_advance ht hsep
    | adjust n i => exact excluding_adjust ht hsep
    | catalog op => exact hsep.elim
    | upstream u => exact ⟨ht.stars, ht.modes, ht.free⟩

/-! ### Sequential and overlapping runs -/

/-- Distinct identifiers for the steps of a concrete run. -/
def inputAt (n : ℕ) : StepInput := { ids := fun j => BitVec.ofNat 128 (1000 + 10 * n + j), now := 0 }

/-- A catalog with one repository of a connected account, which the provider holds under a path. -/
def contestWorld : World where
  catalog := runFrom (step sampleContracts) emptyCatalog
    (connectOwners ++ [.upsertRepository 50 101])
  upstream := {
    paths := fun owner name => if owner = "rust-lang" ∧ name = "rust" then some 101 else none
    stars := fun _ _ => false
    lists := fun _ _ => [] }

/-- A star and an exclusion of it. -/
def contestStart : System where
  world := contestWorld
  mutations := [⟨⟨1, "owner-a", .web⟩, .star ⟨101, "rust-lang", "rust"⟩ "star-key", .authorize⟩]
  modes := [⟨⟨1, "owner-a", .web⟩, 101, .ignored, "mode-key", .replay⟩]

/-- The star runs to its end before the exclusion starts. -/
def sequentialRun : List Event :=
  (List.range 7).map (fun n => .advance 0 (inputAt n)) ++
    (List.range 3).map fun n => .adjust 0 (inputAt (7 + n))

theorem contestStart_stars : ∀ m ∈ contestStart.mutations, m.Starts 1 101 .add := by
  intro m hm
  rw [List.mem_singleton.mp hm]
  exact ⟨rfl, rfl, rfl, rfl⟩

theorem contestStart_modes : ∀ g ∈ contestStart.modes, g.Starts 1 101 .ignored := by
  intro g hg
  rw [List.mem_singleton.mp hg]
  exact ⟨rfl, rfl, rfl, rfl⟩

theorem contestStart_free : conflicted 1 101 contestStart.world.catalog.tables = false := by
  decide +kernel

/-- A sequential run: the star succeeds and the exclusion is refused. -/
theorem exclusion_throughout_sequential :
    Throughout (System.step sampleContracts) (Exclusive 1 101) contestStart sequentialRun ∧
      (runFrom (System.step sampleContracts) contestStart sequentialRun).mutations.map
        (fun m => reportedSuccess m.phase.status) = [true] ∧
      (runFrom (System.step sampleContracts) contestStart sequentialRun).modes.map
        (fun g => reportedSuccess g.phase.status) = [false] := by
  refine ⟨exclusion_throughout sampleContracts 1 101 contestStart contestStart_stars
    contestStart_modes ?_ sequentialRun ?_, ?_, ?_⟩
  · intro hconflict
    rw [contestStart_free] at hconflict
    cases hconflict
  · decide +kernel
  · decide +kernel
  · decide +kernel

/-- The exclusion runs from its replay check to its commit while the star waits for its budget. -/
def contestRun : List Event :=
  [.advance 0 (inputAt 0), .advance 0 (inputAt 1), .advance 0 (inputAt 2),
    .adjust 0 (inputAt 3), .adjust 0 (inputAt 4), .adjust 0 (inputAt 5),
    .advance 0 (inputAt 6), .advance 0 (inputAt 7), .advance 0 (inputAt 8), .advance 0 (inputAt 9)]

/-- **Overlapping windows do not exclude.**  The star passes its check, the exclusion sees no star and
commits, the star commits: both report success, and the repository is ignored and starred. -/
theorem star_outruns_exclusion :
    (∀ m ∈ contestStart.mutations, m.Starts 1 101 .add) ∧
      (∀ g ∈ contestStart.modes, g.Starts 1 101 .ignored) ∧
      conflicted 1 101 contestStart.world.catalog.tables = false ∧
      ¬ Exclusive 1 101 (runFrom (System.step sampleContracts) contestStart contestRun) :=
  ⟨contestStart_stars, contestStart_modes, contestStart_free, by decide +kernel⟩

end GithubCatalog
