import GithubCatalog.SnapshotSwap
import GithubCatalog.StarGovernance

/-!
# Stars of unknown time

An import knows that a star exists and not when it was made: it writes the star without a time and
with `provider_starred_at_unknown`.  The flag is sound while it stands on a star without a time
(`TimeSound`).  The promotion of a snapshot clears it; an ingested entry, a confirmed mutation and the
absence from a snapshot write the other two columns only.

* `providerStarTimesUnknown` - what the shadow report counts;
* `Operation.meetsUnknown` - the steps that write over the flag;
* `timesSound_throughout` - the histories without them.
-/

namespace GithubCatalog

open Relational Transact

/-- The flag says that the star has no known time. -/
def TimeSound (c : CurrentStarState) : Prop :=
  c.providerStarredAtUnknown = true → c.starred = true ∧ c.starredAt = none

def TimesSound (db : Database) : Prop := ∀ c ∈ db.currentStarState, TimeSound c

/-- The star rows behind `provider_star_times_unknown` of a shadow report, one for each imported
record that claims a star. -/
def providerStarTimesUnknown (sourceId : String) (db : Database) : List CurrentStarState :=
  (db.legacyImportRepositoryRecords.filter fun r =>
      decide (r.sourceId = sourceId) && r.starred).flatMap fun r =>
    db.currentStarState.filter fun c =>
      decide (c.key = (r.accountId, r.repositoryId)) && c.starred && c.providerStarredAtUnknown

/-- No counted star has a known time. -/
def CountsUnknownTimes (db : Database) : Prop :=
  ∀ sourceId, ∀ c ∈ providerStarTimesUnknown sourceId db, c.starredAt = none

/-- **The steps that meet a star of unknown time**: an ingested entry or a confirmed mutation of that
star, and a snapshot without it. -/
def Operation.meetsUnknown (db : Database) : Operation → Bool
  | .applyAuthority _ _ _ runId accountId => db.currentStarState.any fun c =>
      c.providerStarredAtUnknown && c.absentFrom runId accountId db
  | .recordIngest _ _ _ accountId repositoryId _ => db.currentStarState.any fun c =>
      c.providerStarredAtUnknown && decide (c.key = (accountId, repositoryId))
  | .persistConfirmedStar _ _ context pid _ _ => db.currentStarState.any fun c =>
      c.providerStarredAtUnknown && db.repositories.any fun r =>
        decide (r.providerRepositoryId = pid) && decide (c.key = (context.accountId, r.repositoryId))
  | _ => false

theorem TimesSound.counts {db : Database} (h : TimesSound db) : CountsUnknownTimes db := by
  intro sourceId c hc
  obtain ⟨r, -, hmem⟩ := List.mem_flatMap.mp hc
  obtain ⟨hrow, htest⟩ := List.mem_filter.mp hmem
  rw [Bool.and_eq_true] at htest
  exact (h c hrow htest.2).2

/-! ### One write -/

theorem timeSound_of_known {c : CurrentStarState} (h : c.providerStarredAtUnknown = false) :
    TimeSound c := by
  intro hunknown
  rw [h] at hunknown
  cases hunknown

/-- Writing over rows of known time only. -/
theorem timesSound_upsert {f : CurrentStarState → CurrentStarState} {row : CurrentStarState}
    {p : CurrentStarState → Bool} {t : List CurrentStarState} (ht : ∀ c ∈ t, TimeSound c)
    (hflag : ∀ c, (f c).providerStarredAtUnknown = c.providerStarredAtUnknown)
    (hrow : row.providerStarredAtUnknown = false)
    (hmeets : ∀ c ∈ t, p c = true → c.providerStarredAtUnknown = false) :
    ∀ c ∈ upsertWhere p f row t, TimeSound c := by
  refine forall_upsertWhere ht (fun c hc hp => timeSound_of_known ?_) (timeSound_of_known hrow)
  rw [hflag]
  exact hmeets c hc hp

theorem timesSound_recordIngest {observationId : Uuid} {now : Time}
    {runId accountId repositoryId : Uuid} {seenAt : Time} {c c' : Catalog} {u : Unit}
    (h : recordIngest observationId now runId accountId repositoryId seenAt c = .ok (u, c'))
    (hguard : Operation.meetsUnknown c.tables
      (.recordIngest observationId now runId accountId repositoryId seenAt) = false)
    (hsound : TimesSound c.tables) : TimesSound c'.tables := by
  unfold TimesSound
  rw [recordIngest_stars h]
  refine timesSound_upsert hsound (fun _ => rfl) rfl fun s hs hkey => ?_
  have hfree := List.any_eq_false.mp hguard s hs
  simpa [hkey] using hfree

theorem timesSound_persistConfirmedStar {ids : ℕ → Uuid} {now : Time} {context : MutationContext}
    {pid : ℤ} {key : String} {direction : StarDirection} {c c' : Catalog} {status : MutationStatus}
    (h : persistConfirmedStar ids now context pid key direction c = .ok (status, c'))
    (hguard : Operation.meetsUnknown c.tables
      (.persistConfirmedStar ids now context pid key direction) = false)
    (hsound : TimesSound c.tables) : TimesSound c'.tables := by
  obtain ⟨repository, c₁, h₁, -, hstars, -⟩ := persistConfirmedStar_eq_ok h
  obtain ⟨hrepos₁, hframe₁, r, hr, hpid, hid⟩ := upsertRepositoryInTx_spec h₁
  have hstars₁ : c₁.tables.currentStarState = c.tables.currentStarState :=
    hframe₁ .currentStarState (by decide)
  unfold TimesSound
  rw [hstars, hstars₁]
  refine timesSound_upsert hsound (fun s => ?_) ?_ fun s hs hkey => ?_
  · cases direction <;> rfl
  · cases direction <;> rfl
  · -- The row refers to a repository, so that repository was in the catalog before.
    have hskey : s.key = (context.accountId, repository) := of_decide_eq_true hkey
    have hold : r ∈ c.tables.repositories := by
      have hunique : UniqueOn (·.repositoryId)
          (catalogued (ids 0) pid c.tables.repositories) := by
        rw [← hrepos₁]
        exact c₁.valid.keys.repositories
      have href := c.valid.foreignKeys.stars_repository s hs _ rfl
      rw [hrepos₁] at hr
      cases hknown : c.tables.repositories.any fun r => decide (r.providerRepositoryId = pid) with
      | true =>
        rw [catalogued, insertUnless, hknown] at hr
        exact hr
      | false =>
        obtain ⟨hlist, hfresh⟩ := fresh_of_catalogued hunique hknown
        rw [hlist] at hr
        rcases List.mem_append.mp hr with hold | hnew
        · exact hold
        · rw [List.mem_singleton.mp hnew] at hid
          have hrepo : s.repositoryId = ids 0 := (congrArg Prod.snd hskey).trans hid.symm
          rw [hrepo] at href
          exact absurd href hfresh
    have hfree := List.any_eq_false.mp hguard s hs
    have hnamed : (c.tables.repositories.any fun q => decide (q.providerRepositoryId = pid) &&
        decide (s.key = (context.accountId, q.repositoryId))) = true := by
      refine List.any_eq_true.mpr ⟨r, hold, ?_⟩
      simp [hpid, hid, hskey]
    rw [hnamed, Bool.and_true] at hfree
    simpa using hfree

/-- A snapshot clears the flag of what it saw. -/
theorem timesSound_applyAuthority {ids unstarIds : ℕ → Uuid} {now : Time} {runId accountId : Uuid}
    {c c' : Catalog} {counts : ℕ × ℕ × ℕ × ℕ}
    (h : applyAuthorityAndComplete ids unstarIds now runId accountId c = .ok (counts, c'))
    (hguard : Operation.meetsUnknown c.tables
      (.applyAuthority ids unstarIds now runId accountId) = false)
    (hsound : TimesSound c.tables) : TimesSound c'.tables := by
  have hpromoted : ∀ s ∈ upsertAll CurrentStarState.key (promotedRow now)
      (promotedRows now runId accountId c.tables) c.tables.currentStarState,
      TimeSound s ∧ (s.providerStarredAtUnknown = true → s.absentFrom runId accountId c.tables = false) := by
    refine forall_upsertAll ?_ ?_ ?_
    · intro s hs
      refine ⟨hsound s hs, fun hunknown => ?_⟩
      have hfree := List.any_eq_false.mp hguard s hs
      simpa [hunknown] using hfree
    · intro row hrow
      obtain ⟨p, -, rfl⟩ := List.mem_map.mp hrow
      exact ⟨timeSound_of_known rfl, fun hunknown => nomatch hunknown⟩
    · intro s row hrow hs hkey
      exact ⟨timeSound_of_known rfl, fun hunknown => nomatch hunknown⟩
  unfold TimesSound
  rw [applyAuthority_stars h]
  refine forall_updateWhere (fun s hs => (hpromoted s hs).1) fun s hs habsent => ?_
  apply timeSound_of_known
  show s.providerStarredAtUnknown = false
  rw [← Bool.not_eq_true]
  intro hunknown
  rw [(hpromoted s hs).2 hunknown] at habsent
  cases habsent

/-- Soundness of the flags, as what a transaction keeps. -/
def KeepsTimesSound (db db' : Database) : Prop := TimesSound db → TimesSound db'

instance : Std.Refl KeepsTimesSound := ⟨fun _ h => h⟩

instance : IsTrans Database KeepsTimesSound := ⟨fun _ _ _ h h' hsound => h' (h hsound)⟩

theorem keepsTimesSound_of_eq {db db' : Database}
    (h : db'.currentStarState = db.currentStarState) : KeepsTimesSound db db' := by
  intro hsound
  unfold TimesSound
  rw [h]
  exact hsound

theorem relates_keepsTimesSound_of_touches {α : Type} {ts : List Table} {x : Tx α}
    (hx : Touches ts x) (h : .currentStarState ∉ ts) : Tx.Relates KeepsTimesSound x :=
  Tx.Relates.mono hx fun _ _ hagree => keepsTimesSound_of_eq (hagree .currentStarState h)

/-- An imported star is the flag's own case. -/
theorem relates_keepsTimesSound_importLegacyStar (observationId accountId repositoryId : Uuid)
    (observedAt : Time) :
    Tx.Relates KeepsTimesSound (importLegacyStar observationId accountId repositoryId observedAt) := by
  intro c u c' h hsound
  unfold TimesSound
  rw [importLegacyStar_stars h]
  exact forall_upsertWhere hsound (fun _ _ _ _ => ⟨rfl, rfl⟩) fun _ => ⟨rfl, rfl⟩

/-! ### Whole histories -/

/-- **One operation** that meets no star of unknown time. -/
theorem Operation.commit_keepsTimesSound (k : Contracts) (c : Catalog) (op : Operation)
    (hguard : op.meetsUnknown c.tables = false) :
    KeepsTimesSound c.tables (op.commit k c).tables := by
  cases op with
  | applyAuthority => exact Tx.relates_commit fun _ _ h => timesSound_applyAuthority h hguard
  | recordIngest => exact Tx.relates_commit fun _ _ h => timesSound_recordIngest h hguard
  | persistConfirmedStar =>
    exact Tx.relates_commit fun _ _ h => timesSound_persistConfirmedStar h hguard
  | importLegacy accountIds ids now request importRunId =>
    refine Tx.Relates.commit ?_ c
    apply relates_importLegacyTransaction
    · intro fresh owner i
      exact relates_keepsTimesSound_of_touches (touches_createLegacyAccount _ _ _) (by decide)
    · intro α x hx
      exact relates_keepsTimesSound_of_touches hx (by decide)
    · intro p _ account c₁ c₂ counts _ h
      refine relates_importNewLegacyRepository _ _ _ _ _ ?_ ?_ ?_ _ _ _ h
      · exact relates_keepsTimesSound_of_touches (touches_upsertRepositoryInTx _ _) (by decide)
      · exact fun r observedAt => relates_keepsTimesSound_importLegacyStar _ _ _ _
      · intro α x hx
        exact relates_keepsTimesSound_of_touches hx (by decide)
  | eraseAccount now owner operation =>
    refine Tx.relates_commit fun _ c' h hsound s hs => ?_
    obtain ⟨c₁, h₁, hrecord⟩ := eraseAccountInTx_eq_ok h
    have hstars : c'.tables.currentStarState = (erased now owner c.tables).currentStarState := by
      rw [← eraseOwnerState_eq h₁]
      exact hrecord .currentStarState (by decide)
    rw [hstars] at hs
    exact hsound s (mem_deleteWhere.mp hs).1
  | _ => exact keepsTimesSound_of_eq (rows_commit k c _ .currentStarState rfl)

/-- **Unknown times.**  In every history in which no ingested entry, confirmed mutation or snapshot
meets a star of unknown time other than by seeing it, the flag stands on stars without a time only, and
no shadow report counts a star whose time is known, in every state. -/
theorem timesSound_throughout (k : Contracts) (history : List Operation)
    (h : Runs.Guarded (step k) (fun c op => op.meetsUnknown c.tables = false) emptyCatalog history) :
    Runs.Throughout (step k) (fun c => TimesSound c.tables ∧ CountsUnknownTimes c.tables)
      emptyCatalog history := by
  have hsound : Runs.Throughout (step k) (fun c => TimesSound c.tables) emptyCatalog history := by
    refine Runs.throughout_of_guarded ?_ ?_ h
    · intro c op hc hguard
      unfold step
      split
      · exact op.commit_keepsTimesSound k c hguard hc
      · exact hc
    · intro s hs
      cases hs
  exact hsound.mono fun c hc => ⟨hc, hc.counts⟩

/-- A retired star of owner-a's user. -/
def importStar : Operation :=
  .importLegacy (BitVec.ofInt 128) (fun r n => BitVec.ofNat 128 (100 * (r + 1) + n)) 0
    ⟨"retired", [(1, "owner-a")],
      ⟨[⟨5, 101, "owner", "name", 1, true, none, []⟩], [⟨1, none, none, none⟩]⟩⟩
    2

/-- The imported star, then a snapshot that sees it and supplies its time. -/
def confirmedTimeHistory : List Operation :=
  connectOwners ++ [importStar, .openRun .full 10 1 0,
    .recordPage 11 0 10 1
      [⟨some "1970-01-01T00:00:01Z", { providerRepositoryId := 101, fullName := "owner/name" }⟩],
    .applyAuthority (fun n => 200 + BitVec.ofNat 128 n) (fun n => 300 + BitVec.ofNat 128 n) 0 10 1]

theorem timesSound_throughout_confirmed :
    Runs.Throughout (step sampleContracts)
      (fun c => TimesSound c.tables ∧ CountsUnknownTimes c.tables) emptyCatalog
      confirmedTimeHistory := by
  apply timesSound_throughout
  simp only [Runs.Guarded, confirmedTimeHistory, connectOwners, List.cons_append, List.nil_append]
  refine ⟨rfl, rfl, rfl, rfl, rfl, rfl, ?_, trivial⟩
  decide +kernel

/-- **The flag outlives the time.**  The imported star is ingested with its time, and still counted as
one of unknown time. -/
theorem unknown_outlives_ingest :
    ¬ (TimesSound (Runs.runFrom (step sampleContracts) emptyCatalog (connectOwners ++ [importStar,
        .openRun .incremental 10 1 0, .recordIngest 20 0 10 1 100 1000000])).tables ∧
      CountsUnknownTimes (Runs.runFrom (step sampleContracts) emptyCatalog (connectOwners ++
        [importStar, .openRun .incremental 10 1 0, .recordIngest 20 0 10 1 100 1000000])).tables) := by
  intro h
  refine absurd h.1 ?_
  unfold TimesSound TimeSound
  decide +kernel

end GithubCatalog
