import GithubCatalog.MutationOutcomes

/-!
# What a committed call leaves to read

The reads of the calls in flight are by provider id: the star the catalog records for an account
(`recordedStar`, `starredFor`) and the mode (`modeOf`).  This file computes them after each
transaction of a call:

* a transaction that keeps the projection keeps them (`SameProjection.modeOf_eq`,
  `SameProjection.recordedStar_eq`);
* a confirmed star sets one star and adjusts one mode (`recordedStar_persist`, `modeOf_persist`);
* a mode change sets one mode (`modeOf_transaction`).
-/

namespace GithubCatalog

open Relational Transact

/-- The star state the catalog records for an account and a provider repository, if it records
one. -/
def recordedStar (account : Uuid) (pid : ℤ) (db : Database) : Option Bool :=
  (repositoryOf pid db).bind fun r =>
    (db.currentStarState.find? fun c => decide (c.key = (account, r.repositoryId))).map (·.starred)

/-- A star state is recorded as starred exactly when some row stars the repository. -/
theorem starredFor_eq (account : Uuid) (pid : ℤ) {db : Database} (hkeys : Keys db) :
    starredFor account pid db = decide (recordedStar account pid db = some true) := by
  unfold starredFor recordedStar
  cases repositoryOf pid db with
  | none => simp
  | some r =>
    rw [Option.any_some, Option.bind_some, Bool.eq_iff_iff, decide_eq_true_eq, starredBy,
      List.any_eq_true, Option.map_eq_some_iff]
    simp only [Bool.and_eq_true, decide_eq_true_eq]
    constructor
    · rintro ⟨c, hc, ⟨hacc, hrepo⟩, hstar⟩
      refine ⟨c, ?_, hstar⟩
      have hkey : c.key = (account, r.repositoryId) := by rw [CurrentStarState.key, hacc, hrepo]
      rw [← hkey]
      have hunique : UniqueOn CurrentStarState.key db.currentStarState := hkeys.stars
      exact hunique.find?_eq hc
    · rintro ⟨c, hfind, hstar⟩
      have hkey : c.key = (account, r.repositoryId) := by simpa using List.find?_some hfind
      have hparts := Prod.mk.inj hkey
      exact ⟨c, List.mem_of_find?_eq_some hfind, hparts, hstar⟩

/-! ### Lookups in a catalog -/

section lookups

variable {db db' : Database}

/-- The row of a provider id is the one a lookup finds. -/
theorem repositoryOf_eq (hkeys : Keys db) {r : Repository} (hr : r ∈ db.repositories) :
    repositoryOf r.providerRepositoryId db = some r :=
  hkeys.repositories_provider.find?_eq hr

theorem repositoryOf_mem {pid : ℤ} {r : Repository} (h : repositoryOf pid db = some r) :
    r ∈ db.repositories ∧ r.providerRepositoryId = pid :=
  ⟨List.mem_of_find?_eq_some h, by simpa using List.find?_some h⟩

theorem repositoryOf_none {pid : ℤ} (h : repositoryOf pid db = none) {r : Repository}
    (hr : r ∈ db.repositories) : r.providerRepositoryId ≠ pid := by
  simpa using List.find?_eq_none.mp h r hr

/-- No star row names a repository that is not catalogued. -/
theorem find?_star_none (hrefs : ForeignKeys db) {account repository : Uuid}
    (h : repository ∉ db.repositories.map (·.repositoryId)) :
    (db.currentStarState.find? fun c => decide (c.key = (account, repository))) = none := by
  rw [List.find?_eq_none]
  intro c hc hkey
  have hrepo : c.repositoryId = repository := (Prod.mk.inj (of_decide_eq_true hkey)).2
  exact h (hrepo ▸ hrefs.stars_repository c hc _ rfl)

/-- **A kept projection keeps the reads.** -/
theorem SameProjection.modeOf_eq (h : SameProjection db db') (hkeys : Keys db') (pid : ℤ) :
    modeOf pid db' = modeOf pid db := by
  unfold modeOf
  cases hfound : repositoryOf pid db with
  | some r =>
    obtain ⟨hr, hpid⟩ := repositoryOf_mem hfound
    rw [← hpid, repositoryOf_eq hkeys (h.modes r hr)]
  | none =>
    cases hfound' : repositoryOf pid db' with
    | none => rfl
    | some r =>
      obtain ⟨hr, hpid⟩ := repositoryOf_mem hfound'
      rcases h.unclassified r hr with hold | hnull
      · exact absurd hpid (repositoryOf_none hfound hold)
      · exact hnull

theorem SameProjection.recordedStar_eq (h : SameProjection db db') (hkeys : Keys db')
    (hrefs : ForeignKeys db) (account : Uuid) (pid : ℤ) :
    recordedStar account pid db' = recordedStar account pid db := by
  unfold recordedStar
  rw [h.stars]
  cases hfound : repositoryOf pid db with
  | some r =>
    obtain ⟨hr, hpid⟩ := repositoryOf_mem hfound
    rw [← hpid, repositoryOf_eq hkeys (h.modes r hr)]
  | none =>
    cases hfound' : repositoryOf pid db' with
    | none => rfl
    | some r =>
      obtain ⟨hr, hpid⟩ := repositoryOf_mem hfound'
      have hnew : r.repositoryId ∉ db.repositories.map (·.repositoryId) := by
        intro hmem
        obtain ⟨q, hq, hid⟩ := List.mem_map.mp hmem
        have hsame : q = r := hkeys.repositories.eq_of_mem (h.modes q hq) hr hid
        exact repositoryOf_none hfound hq (hsame ▸ hpid)
      rw [Option.bind_some, find?_star_none hrefs hnew]
      rfl

end lookups

/-! ### A confirmed star -/

/-- What a confirmed write does to a mode. -/
def StarDirection.modeAfter : StarDirection → Option RepositoryMode → Option RepositoryMode
  | .add, none => some .auto
  | .remove, some .auto => none
  | _, mode => mode

@[simp] theorem StarDirection.adjust_mode (direction : StarDirection) (r : Repository) :
    (direction.adjust r).mode = direction.modeAfter r.mode := by
  obtain ⟨id, pid, mode⟩ := r
  cases direction <;> rcases mode with _ | (_ | _ | _) <;> rfl

@[simp] theorem StarDirection.adjust_id (direction : StarDirection) (r : Repository) :
    (direction.adjust r).repositoryId = r.repositoryId := by
  cases direction <;> simp only [adjust, Repository.promote, Repository.release] <;> split <;> rfl

@[simp] theorem StarDirection.adjust_pid (direction : StarDirection) (r : Repository) :
    (direction.adjust r).providerRepositoryId = r.providerRepositoryId := by
  cases direction <;> simp only [adjust, Repository.promote, Repository.release] <;> split <;> rfl

/-- What cataloguing a repository leaves: the same reads, and an entry for it. -/
theorem upsertRepositoryInTx_found {fresh id : Uuid} {pid : ℤ} {c c₁ : Catalog}
    (h : upsertRepositoryInTx fresh pid c = .ok (id, c₁)) :
    SameProjection c.tables c₁.tables ∧
      ∃ r, repositoryOf pid c₁.tables = some r ∧ r.repositoryId = id := by
  obtain ⟨-, -, r, hr, rfl, hid⟩ := upsertRepositoryInTx_spec h
  exact ⟨sameProjection_upsertRepositoryInTx _ _ _ _ _ h, r, repositoryOf_eq c₁.valid.keys hr, hid⟩

/-- A lookup after an update of one entry. -/
theorem repositoryOf_updateWhere {db db' : Database} {id : Uuid} {f : Repository → Repository}
    (hf : ∀ r, (f r).providerRepositoryId = r.providerRepositoryId)
    (h : db'.repositories = updateWhere (fun r => decide (r.repositoryId = id)) f db.repositories)
    (pid : ℤ) :
    repositoryOf pid db' =
      (repositoryOf pid db).map fun r => if decide (r.repositoryId = id) then f r else r := by
  rw [repositoryOf, h]
  exact find?_updateWhere (fun r => by rw [hf]) db.repositories

section star

variable {ids : ℕ → Uuid} {now : Time} {context : MutationContext} {pid : ℤ} {key : String}
  {direction : StarDirection} {c c' : Catalog} {status : MutationStatus}

/-- **The mode after a confirmed write.** -/
theorem modeOf_persist
    (h : persistConfirmedStar ids now context pid key direction c = .ok (status, c')) :
    modeOf pid c'.tables = direction.modeAfter (modeOf pid c.tables) := by
  obtain ⟨id, c₁, h₁, hrepos, -⟩ := persistConfirmedStar_eq_ok h
  obtain ⟨hsame, r, hr, rfl⟩ := upsertRepositoryInTx_found h₁
  rw [← hsame.modeOf_eq c₁.valid.keys, modeOf, modeOf,
    repositoryOf_updateWhere direction.adjust_pid hrepos, hr, Option.map_some,
    if_pos (decide_eq_true rfl)]
  exact direction.adjust_mode r

/-- **The star after a confirmed write**: it is set for the acting account and the requested
repository, and nothing else is. -/
theorem recordedStar_persist
    (h : persistConfirmedStar ids now context pid key direction c = .ok (status, c'))
    (account : Uuid) (q : ℤ) :
    recordedStar account q c'.tables =
      if account = context.accountId ∧ q = pid then some direction.starred
      else recordedStar account q c.tables := by
  obtain ⟨id, c₁, h₁, hrepos, hstars, -⟩ := persistConfirmedStar_eq_ok h
  obtain ⟨hsame, r, hr, rfl⟩ := upsertRepositoryInTx_found h₁
  rw [← hsame.recordedStar_eq c₁.valid.keys c.valid.foreignKeys]
  unfold recordedStar
  rw [repositoryOf_updateWhere direction.adjust_pid hrepos, hstars]
  cases hq : repositoryOf q c₁.tables with
  | none =>
    rw [if_neg]
    · rfl
    · rintro ⟨-, rfl⟩
      rw [hr] at hq
      cases hq
  | some e =>
    have hid : (if decide (e.repositoryId = r.repositoryId) then direction.adjust e else e).repositoryId =
        e.repositoryId := by
      split
      · exact direction.adjust_id e
      · rfl
    rw [Option.map_some, Option.bind_some, Option.bind_some, hid]
    have hown : (context.accountId, r.repositoryId) = (account, e.repositoryId) ↔
        account = context.accountId ∧ q = pid := by
      constructor
      · intro hkey
        obtain ⟨hacc, hrepo⟩ := Prod.mk.inj hkey
        have hsame : r = e := c₁.valid.keys.repositories.eq_of_mem (repositoryOf_mem hr).1
          (repositoryOf_mem hq).1 hrepo
        exact ⟨hacc.symm, by rw [← (repositoryOf_mem hq).2, ← hsame, (repositoryOf_mem hr).2]⟩
      · rintro ⟨rfl, rfl⟩
        rw [hr] at hq
        rw [Option.some.inj hq]
    by_cases hkey : (context.accountId, r.repositoryId) = (account, e.repositoryId)
    · rw [if_pos (hown.mp hkey), ← hkey]
      exact find?_upsertWhere_own (fun s hs => (direction.over_key now s).trans hs)
        (direction.row_key now _ _)
        (direction.over_starred now) (direction.row_starred now _ _) _
    · rw [if_neg (fun hcond => hkey (hown.mpr hcond)),
        find?_upsertWhere_other (direction.over_key now) (direction.row_key now _ _) hkey]

end star

/-- A confirmed write loses its key only to a row that claimed it, or to a repeated audit id. -/
theorem persistConfirmedStar_keyTaken {ids : ℕ → Uuid} {now : Time} {context : MutationContext}
    {pid : ℤ} {key : String} {direction : StarDirection} {c : Catalog}
    (h : persistConfirmedStar ids now context pid key direction c = .error .keyTaken) :
    successfulOutcomeExists key c.tables = true ∨
      ∃ a ∈ c.tables.mutationAudit, a.auditId = ids 1 := by
  by_contra hfree
  rw [not_or] at hfree
  refine Tx.bind_ne_error (upsertRepositoryInTx_ne_error _ _ (by simp) c) (fun r c₁ h₁ => ?_) h
  refine Tx.bind_ne_error (Tx.ne_error_of_succeeds rfl) fun isNew c₂ h₂ => ?_
  obtain ⟨-, rfl⟩ := select_eq_ok.mp h₂
  refine Tx.bind_ne_error ?_ fun _ c₃ h₃ => Tx.bind_ne_error ?_ fun _ c₄ h₄ => ?_
  · cases direction with
    | add => exact Tx.bind_ne_error (write_ne_error (by decide) _) fun _ _ _ =>
        write_ne_error (by decide) _
    | remove => exact Tx.bind_ne_error (write_ne_error (by decide) _) fun _ _ _ =>
        write_ne_error (by decide) _
  · cases isNew with
    | false => exact Tx.ne_error_of_succeeds rfl
    | true => exact Tx.bind_ne_error (require_ne_error (by decide) _) fun _ _ _ =>
        write_ne_error (by decide) _
  · intro hkey
    have hsame : c₄.tables.mutationAudit = c.tables.mutationAudit :=
      ((touches_markBackupPolicyDirtyInTx now).onlyIf.rows_eq h₄ (t := .mutationAudit)
        (by decide)).trans (((touches_applyStarProjection _ _ _ _).rows_eq h₃ (t := .mutationAudit)
        (by decide)).trans ((touches_upsertRepositoryInTx _ _).rows_eq h₁ (t := .mutationAudit)
        (by decide)))
    have htaken := audited_keyTaken_cases hkey
    rw [successfulOutcomeExists, hsame] at htaken
    exact htaken.elim hfree.1 hfree.2

/-! ### A mode change -/

/-- A statement that writes one mode. -/
theorem modeOf_setMode {id : Uuid} {mode : RepositoryMode} {c c' : Catalog} {u : Unit}
    (h : setMode id mode c = .ok (u, c')) :
    (∀ account q, recordedStar account q c'.tables = recordedStar account q c.tables) ∧
      ∀ q r, repositoryOf q c.tables = some r → r.repositoryId = id →
        modeOf q c'.tables = some mode := by
  have htables := write_eq_ok.mp h
  have hrepos : c'.tables.repositories = updateWhere (fun r => decide (r.repositoryId = id))
      (fun r => { r with mode := some mode }) c.tables.repositories := by rw [htables]; rfl
  have hstars : c'.tables.currentStarState = c.tables.currentStarState := by rw [htables]; rfl
  have hfound := repositoryOf_updateWhere (f := fun r => { r with mode := some mode })
    (fun _ => rfl) hrepos
  constructor
  · intro account q
    unfold recordedStar
    rw [hstars, hfound]
    cases repositoryOf q c.tables with
    | none => rfl
    | some r =>
      rw [Option.map_some, Option.bind_some, Option.bind_some]
      split
      · rfl
      · rfl
  · intro q r hr hid
    rw [modeOf, hfound, hr, Option.map_some, if_pos (decide_eq_true hid)]
    rfl

/-- Reads are as they were after a transaction outside the stars and the repositories. -/
theorem reads_of_touches {α : Type} {ts : List Table} {x : Tx α} (hx : Touches ts x)
    (hstars : Table.currentStarState ∉ ts) (hrepos : Table.repositories ∉ ts) {c c' : Catalog} {a : α}
    (h : x c = .ok (a, c')) :
    (∀ account q, recordedStar account q c'.tables = recordedStar account q c.tables) ∧
      ∀ q, modeOf q c'.tables = modeOf q c.tables := by
  have hs : c'.tables.currentStarState = c.tables.currentStarState := hx.rows_eq h hstars
  have hr : c'.tables.repositories = c.tables.repositories := hx.rows_eq h hrepos
  constructor
  · intro account q
    rw [recordedStar, recordedStar, repositoryOf, repositoryOf, hr, hs]
  · intro q
    rw [modeOf, modeOf, repositoryOf, repositoryOf, hr]

/-- **The reads after a mode change**: the stars are as they were, and the mode is as it was or, when
the request was valid, as requested. -/
theorem reads_transaction {g : ModeChange} {i : StepInput} {current : Option RepositoryMode}
    {starred : Bool} {c c' : Catalog} {status : MutationStatus}
    (h : g.transaction i current starred c = .ok (status, c')) :
    (∀ account q, recordedStar account q c'.tables = recordedStar account q c.tables) ∧
      (modeOf g.pid c'.tables = modeOf g.pid c.tables ∨
        (validateMode g.requested starred = none ∧
          modeOf g.pid c'.tables = some g.requested.mode)) ∧
      (status.success = true → current ≠ some g.requested.mode →
        modeOf g.pid c'.tables = some g.requested.mode) := by
  obtain ⟨id, c₁, h₁, h₂⟩ := Tx.bind_eq_ok.mp h
  obtain ⟨hsame, r, hr, rfl⟩ := upsertRepositoryInTx_found h₁
  have hstars₁ := hsame.recordedStar_eq c₁.valid.keys c.valid.foreignKeys
  have hmode₁ := hsame.modeOf_eq c₁.valid.keys g.pid
  unfold applyRequestedMode at h₂
  cases hvalid : validateMode g.requested starred with
  | some reason =>
    rw [hvalid] at h₂
    obtain ⟨won, c₂, haudit, hpure⟩ := Tx.bind_eq_ok.mp h₂
    obtain ⟨rfl, rfl⟩ := Tx.pure_eq_ok.mp hpure
    obtain ⟨hstars, hmode⟩ := reads_of_touches (touches_insertAuditRow _) (by decide) (by decide)
      haudit
    exact ⟨fun a q => (hstars a q).trans (hstars₁ a q), .inl ((hmode _).trans hmode₁),
      fun hsuccess => by cases hsuccess⟩
  | none =>
    rw [hvalid] at h₂
    obtain ⟨⟨⟩, c₂, hset, hrest⟩ := Tx.bind_eq_ok.mp h₂
    have hframe : Touches [.mutationAudit] (do
        let inserted ← insertAuditRow (auditRow (i.ids 1) g.context r.repositoryId .modeSet
          g.idempotencyKey (if decide (current = some g.requested.mode) then .alreadyApplied
            else .applied) (transitionDetail current (some g.requested.mode)))
        finishWithReplayGuard inserted !decide (current = some g.requested.mode)) :=
      (touches_insertAuditRow _).bind fun _ => (touches_finishWithReplayGuard _ _).mono (by decide)
    obtain ⟨hstars₃, hmode₃⟩ := reads_of_touches hframe (by decide) (by decide) hrest
    by_cases hunchanged : decide (current = some g.requested.mode) = true
    · rw [hunchanged, onlyIf, Bool.not_true, if_neg Bool.false_ne_true] at hset
      obtain ⟨-, rfl⟩ := Tx.pure_eq_ok.mp hset
      exact ⟨fun a q => (hstars₃ a q).trans (hstars₁ a q), .inl ((hmode₃ _).trans hmode₁),
        fun _ hother => absurd (of_decide_eq_true hunchanged) hother⟩
    · rw [Bool.eq_false_iff.mpr hunchanged, onlyIf, Bool.not_false, if_pos rfl] at hset
      obtain ⟨⟨⟩, c₃, hwrite, hmark⟩ := Tx.bind_eq_ok.mp hset
      obtain ⟨hstars, hmode⟩ := modeOf_setMode hwrite
      obtain ⟨hstars₂, hmode₂⟩ := reads_of_touches (touches_markBackupPolicyDirtyInTx _) (by decide)
        (by decide) hmark
      have hset : modeOf g.pid c'.tables = some g.requested.mode := by
        rw [hmode₃, hmode₂]
        exact hmode g.pid r hr rfl
      refine ⟨fun a q => ?_, .inr ⟨rfl, hset⟩, fun _ _ => hset⟩
      rw [hstars₃, hstars₂, hstars, hstars₁]

/-! ### One step -/

/-- Every star the catalog records and every mode is as it was. -/
def SameReads (db db' : Database) : Prop :=
  (∀ account q, recordedStar account q db' = recordedStar account q db) ∧
    ∀ q, modeOf q db' = modeOf q db

theorem SameReads.refl (db : Database) : SameReads db db := ⟨fun _ _ => rfl, fun _ => rfl⟩

theorem SameProjection.reads {c c' : Catalog} (h : SameProjection c.tables c'.tables) :
    SameReads c.tables c'.tables :=
  ⟨h.recordedStar_eq c'.valid.keys c.valid.foreignKeys, h.modeOf_eq c'.valid.keys⟩

theorem SameReads.starredFor_eq {c c' : Catalog} (h : SameReads c.tables c'.tables) (account : Uuid)
    (q : ℤ) : starredFor account q c'.tables = starredFor account q c.tables := by
  rw [GithubCatalog.starredFor_eq account q c'.valid.keys,
    GithubCatalog.starredFor_eq account q c.valid.keys, h.1]

/-- A step of a mutation changes a read only by the commit of its confirmed write. -/
theorem Mutation.step_reads (m : Mutation) (i : StepInput) (w : World) :
    SameReads w.catalog.tables (m.step i w).2.catalog.tables ∨
      ∃ wrote status, m.phase = .persist wrote ∧
        wrote.plan.persist i.ids i.now m.context m.pid m.request.idempotencyKey w.catalog =
          .ok (status, (m.step i w).2.catalog) := by
  obtain hsame | ⟨plan, node, -, hstep⟩ | ⟨wrote, hphase, hstep⟩ |
    ⟨outcome, reason, status, -, hstep⟩ := m.step_cases i w
  · rw [hsame]
    exact .inl (SameReads.refl _)
  · rw [hstep]
    exact .inl (SameReads.refl _)
  · obtain ⟨status, c, hok, hrun | hrun⟩ | ⟨-, hrun⟩ | ⟨e, hrun⟩ :=
      Mutation.persisting_cases (m := m) (i := i) (w := w) wrote
    · rw [hstep, hrun]
      exact .inr ⟨wrote, status, hphase, hok⟩
    · rw [hstep, hrun]
      exact .inr ⟨wrote, status, hphase, hok⟩
    · rw [hstep, hrun]
      exact .inl (SameReads.refl _)
    · rw [hstep, hrun]
      exact .inl (SameReads.refl _)
  · obtain ⟨c, hc, hrun⟩ :=
      Mutation.concluding_cases (m := m) (i := i) (w := w) outcome reason status
    have hreads : SameReads w.catalog.tables c.tables := by
      rcases hc with rfl | hok
      · exact SameReads.refl _
      · exact (sameProjection_recordAttempt _ _ _ _ _ _ _ _ _ _ hok).reads
    rcases hrun with hrun | ⟨e, hrun⟩
    · rw [hstep, hrun]
      exact .inl hreads
    · rw [hstep, hrun]
      exact .inl hreads

/-- A step of a mode change changes a read only by its commit. -/
theorem ModeChange.step_reads (g : ModeChange) (i : StepInput) (w : World) :
    SameReads w.catalog.tables (g.step i w).2.catalog.tables ∨
      ∃ current starred status, g.phase = .commit current starred ∧
        g.transaction i current starred w.catalog = .ok (status, (g.step i w).2.catalog) := by
  obtain hsame | ⟨current, starred, hphase, hstep⟩ := g.step_cases i w
  · rw [hsame]
    exact .inl (SameReads.refl _)
  · obtain ⟨status, c, hok, hrun | hrun⟩ | ⟨-, hrun⟩ | ⟨e, hrun⟩ :=
      ModeChange.committing_cases (g := g) (i := i) (w := w) current starred
    · rw [hstep, hrun]
      exact .inr ⟨current, starred, status, hphase, hok⟩
    · rw [hstep, hrun]
      exact .inr ⟨current, starred, status, hphase, hok⟩
    · rw [hstep, hrun]
      exact .inl (SameReads.refl _)
    · rw [hstep, hrun]
      exact .inl (SameReads.refl _)

/-! ### The calls after one step -/

namespace System

variable {s : System} {n : ℕ} {i : StepInput}

/-- What holds of every mutation still holds when the stepping one keeps it. -/
theorem forall_mutations_advance {P : Mutation → Prop} (hall : ∀ m ∈ s.mutations, P m)
    (hnext : ∀ m, s.mutations[n]? = some m → P (m.next i s.world)) :
    ∀ m ∈ (s.advance n i).mutations, P m := by
  intro m hm
  unfold advance at hm
  split at hm
  · exact hall m hm
  · next m₀ hm₀ =>
    rcases List.mem_or_eq_of_mem_set hm with hold | rfl
    · exact hall m hold
    · exact hnext m₀ hm₀

theorem forall_modes_adjust {P : ModeChange → Prop} (hall : ∀ g ∈ s.modes, P g)
    (hnext : ∀ g, s.modes[n]? = some g → P (g.next i s.world)) :
    ∀ g ∈ (s.adjust n i).modes, P g := by
  intro g hg
  unfold adjust at hg
  split at hg
  · exact hall g hg
  · next g₀ hg₀ =>
    rcases List.mem_or_eq_of_mem_set hg with hold | rfl
    · exact hall g hold
    · exact hnext g₀ hg₀

/-- A step is taken by one of the calls in flight, or does nothing. -/
theorem advance_cases (s : System) (n : ℕ) (i : StepInput) :
    (s.mutations[n]? = none ∧ s.advance n i = s) ∨
      ∃ m, s.mutations[n]? = some m ∧ m ∈ s.mutations ∧
        (s.advance n i).world = (m.step i s.world).2 := by
  unfold advance
  cases hm : s.mutations[n]? with
  | none => exact .inl ⟨rfl, rfl⟩
  | some m => exact .inr ⟨m, rfl, List.mem_of_getElem? hm, rfl⟩

theorem adjust_cases (s : System) (n : ℕ) (i : StepInput) :
    (s.modes[n]? = none ∧ s.adjust n i = s) ∨
      ∃ g, s.modes[n]? = some g ∧ g ∈ s.modes ∧ (s.adjust n i).world = (g.step i s.world).2 := by
  unfold adjust
  cases hg : s.modes[n]? with
  | none => exact .inl ⟨rfl, rfl⟩
  | some g => exact .inr ⟨g, rfl, List.mem_of_getElem? hg, rfl⟩

end System

end GithubCatalog
