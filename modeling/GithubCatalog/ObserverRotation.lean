import GithubCatalog.Catalog
import GithubCatalog.ErasureState
import GithubCatalog.Lib.Rotation
import GithubCatalog.RepositoryFetches
import Mathlib.Data.List.Sort
import Mathlib.Data.Prod.Lex
import Mathlib.Order.WithBot

/-!
# The rotation of the watch observer (`observe.rs`, `observer.rs`)

A pass selects the watched repositories attempted longest ago, observes them one after another and
records each attempt, unless the budget withheld it.  Between the statements of a pass any other
transaction of the service may run, and a pass may be abandoned.

* `selectWatchedRepositories` - the selection;
* `WatchObserver.step` - the observer among the other flows;
* `watchedSet` - the repositories that a selection can return;
* `Turning` - the attempt times against the log of recorded attempts;
* `rotation_fair` - while the watched set is the same, as many attempts in a row as it has members are
  for all of its members.
-/

namespace GithubCatalog

open Relational Rotation Runs Transact

/-! ### The selection -/

/-- The newest active `owner/name` alias of a repository. -/
def ownerNameAlias (repositoryId : Uuid) (db : Database) : Option String :=
  (((db.repositoryAliases.filter fun a => decide (a.repositoryId = repositoryId) &&
      decide (a.aliasKind = .ownerName) && decide (a.status = .active)).insertionSort
    fun a b => b.createdAt ≤ a.createdAt).head?).map (·.aliasValue)

/-- `exists (... watch.enabled)`. -/
def hasEnabledWatch (repositoryId : Uuid) (db : Database) : Bool :=
  db.repositoryWatches.any fun w => decide (w.repositoryId = repositoryId) && w.enabled

/-- The joined rows of the selection, with their aliases. -/
def watchedRows (db : Database) : List (RepositoryMetadata × String) :=
  db.repositoryMetadata.filterMap fun m =>
    if hasEnabledWatch m.repositoryId db then
      (ownerNameAlias m.repositoryId db).map fun value => (m, value)
    else none

/-- `order by observe_attempted_at nulls first, fetched_at, repository_id`. -/
def RepositoryMetadata.turn (m : RepositoryMetadata) : WithBot Time ×ₗ Time ×ₗ ℕ :=
  toLex (m.observeAttemptedAt, toLex (m.fetchedAt, m.repositoryId.toNat))

structure WatchedRepository where
  repositoryId : Uuid
  ownerName : OwnerName
deriving DecidableEq

/-- The repository of a row whose alias splits. -/
def watchedRepository (row : RepositoryMetadata × String) : Option WatchedRepository :=
  (splitOnce '/' row.2).map fun parts => ⟨row.1.repositoryId, ⟨parts.1, parts.2⟩⟩

/-- `select_watched_repositories`.  The batch is cut before the aliases are split. -/
def selectWatchedRepositories (batch : ℕ) (db : Database) : List WatchedRepository :=
  (((watchedRows db).insertionSort fun a b => a.1.turn ≤ b.1.turn).take batch).filterMap
    watchedRepository

/-! ### The observer -/

/-- What one pass did. -/
structure ObserverPass where
  observed : ℕ := 0
  unchanged : ℕ := 0
  failed : ℕ := 0
  rateLimited : Bool := false
deriving DecidableEq

/-- One more outcome of a pass. -/
def ObserverPass.count (pass : ObserverPass) : Except ObserveFault ObserveOutcome → ObserverPass
  | .ok (.observed _) => { pass with observed := pass.observed + 1 }
  | .ok (.notModified _) => { pass with unchanged := pass.unchanged + 1 }
  | .ok .rateLimited => { pass with rateLimited := true }
  | .ok (.movedTo _) => { pass with failed := pass.failed + 1 }
  | .error _ => { pass with failed := pass.failed + 1 }

/-- Where the observer is: between passes, or at one repository of a pass. -/
inductive PassPhase where
  | idle
  | observing (repository : WatchedRepository) (rest : List WatchedRepository)
      (phase : ObservationPhase)

/-- The loop's next repository. -/
def PassPhase.next : List WatchedRepository → PassPhase
  | [] => .idle
  | repository :: rest => .observing repository rest .acquiring

/-- The repositories the pass has not left behind. -/
def PassPhase.todo : PassPhase → List WatchedRepository
  | .idle => []
  | .observing repository rest _ => repository :: rest

/-- The observer with the catalog, the clock of the last recorded attempt and the recorded attempts,
newest first. -/
structure WatchObserver where
  catalog : Catalog
  phase : PassPhase
  pass : ObserverPass
  clock : Time
  attempts : List (Uuid × Time)

inductive ObserverEvent where
  | startPass
  | observe (i : FetchInput)
  | finish (fate : Fate) (now : Time)
  | abandon
  | operation (op : Operation)

namespace WatchObserver

/-- `record_observation_attempt` and what follows it in the loop. -/
def record (s : WatchObserver) (repository : WatchedRepository) (rest : List WatchedRepository)
    (outcome : Except ObserveFault ObserveOutcome) (fate : Fate) (now : Time) : WatchObserver :=
  let statement := recordObservationAttempt now repository.repositoryId
  let answer := fate.run statement s.catalog
  let attempts :=
    if fate ≠ .rolledBack ∧ statement.succeeds s.catalog = true then
      (repository.repositoryId, now) :: s.attempts
    else s.attempts
  match answer.1 with
  | .ok _ => ⟨answer.2, .next rest, s.pass.count outcome, now, attempts⟩
  | .error _ => ⟨answer.2, .idle, s.pass, now, attempts⟩

/-- `WatchObserver::pass`, statement by statement, among the other flows. -/
def step (k : Contracts) (batch : ℕ) (s : WatchObserver) : ObserverEvent → WatchObserver
  | .startPass =>
    match s.phase with
    | .idle =>
      { s with phase := .next (selectWatchedRepositories batch s.catalog.tables), pass := {} }
    | .observing .. => s
  | .observe i =>
    match s.phase with
    | .idle => s
    | .observing repository rest phase =>
      let next := phase.step k repository.ownerName i s.catalog
      { s with catalog := next.2, phase := .observing repository rest next.1 }
  | .finish fate now =>
    match s.phase with
    | .observing _ _ (.ended (.ok .rateLimited)) =>
      -- A withheld budget attempted nothing and ends the pass.
      { s with phase := .idle, pass := s.pass.count (.ok .rateLimited) }
    | .observing repository rest (.ended outcome) => s.record repository rest outcome fate now
    | _ => s
  | .abandon => { s with phase := .idle }
  | .operation op => { s with catalog := GithubCatalog.step k s.catalog op }

end WatchObserver

/-- `record_observation_attempt`, which no flow but the observer calls. -/
def Operation.recordsAttempt : Operation → Bool
  | .recordObservationAttempt .. => true
  | _ => false

/-- Recorded attempts are later than all before; the other flows record none. -/
def ObserverEvent.Ordered (s : WatchObserver) : ObserverEvent → Prop
  | .finish _ now => s.clock < now
  | .operation op => op.recordsAttempt = false
  | .startPass | .observe _ | .abandon => True

instance (s : WatchObserver) : DecidablePred (ObserverEvent.Ordered s) := fun e =>
  match e with
  | .finish _ now => inferInstanceAs (Decidable (s.clock < now))
  | .operation op => inferInstanceAs (Decidable (op.recordsAttempt = false))
  | .startPass | .observe _ | .abandon => inferInstanceAs (Decidable True)

/-- **The watched set**: the repositories with metadata, an enabled watch and an active alias that reads
as `owner/name`. -/
def watchedSet (db : Database) : Finset Uuid :=
  (((watchedRows db).filterMap watchedRepository).map (·.repositoryId)).toFinset

/-- The recorded attempt of a repository. -/
def attemptedAt (db : Database) (repositoryId : Uuid) : Option Time :=
  (db.repositoryMetadata.find? fun m => decide (m.repositoryId = repositoryId)).bind
    (·.observeAttemptedAt)

/-! ### What a selection returns -/

theorem notLater_of_turn {m n : RepositoryMetadata} (h : m.turn ≤ n.turn) :
    NotLater m.observeAttemptedAt n.observeAttemptedAt := by
  intro t ht
  have hfirst : (ofLex m.turn).1 ≤ (ofLex n.turn).1 := by
    rcases Prod.Lex.toLex_le_toLex.mp h with hlt | ⟨heq, -⟩
    · exact hlt.le
    · exact heq.le
  have hsome : (ofLex m.turn).1 = (t : WithBot Time) := ht
  rw [hsome] at hfirst
  exact WithBot.coe_le_iff.mp hfirst

theorem watchedRows_mem {db : Database} {row : RepositoryMetadata × String}
    (h : row ∈ watchedRows db) : row.1 ∈ db.repositoryMetadata := by
  obtain ⟨m, hm, hrow⟩ := List.mem_filterMap.mp h
  split at hrow
  · obtain ⟨value, -, rfl⟩ := Option.map_eq_some_iff.mp hrow
    exact hm
  · cases hrow

theorem watchedRepository_id {row : RepositoryMetadata × String} {w : WatchedRepository}
    (h : watchedRepository row = some w) : w.repositoryId = row.1.repositoryId := by
  obtain ⟨parts, -, rfl⟩ := Option.map_eq_some_iff.mp h
  rfl

theorem mem_watchedSet {db : Database} {r : Uuid} : r ∈ watchedSet db ↔
    ∃ row ∈ watchedRows db, ∃ w, watchedRepository row = some w ∧ w.repositoryId = r := by
  simp only [watchedSet, List.mem_toFinset, List.mem_map, List.mem_filterMap]
  constructor
  · rintro ⟨w, ⟨row, hrow, hw⟩, hid⟩
    exact ⟨row, hrow, w, hw, hid⟩
  · rintro ⟨row, hrow, w, hw, hid⟩
    exact ⟨w, ⟨row, hrow, hw⟩, hid⟩

/-- A watched repository has metadata. -/
theorem metadata_of_watched {db : Database} {r : Uuid} (h : r ∈ watchedSet db) :
    ∃ m ∈ db.repositoryMetadata, m.repositoryId = r := by
  obtain ⟨row, hrow, w, hw, rfl⟩ := mem_watchedSet.mp h
  exact ⟨row.1, watchedRows_mem hrow, (watchedRepository_id hw).symm⟩

theorem attemptedAt_of_mem {c : Catalog} {m : RepositoryMetadata}
    (hm : m ∈ c.tables.repositoryMetadata) :
    attemptedAt c.tables m.repositoryId = m.observeAttemptedAt := by
  rw [attemptedAt, c.valid.keys.metadata.find?_eq hm, Option.bind_some]

theorem watchedRows_unique (c : Catalog) : UniqueOn (·.1.repositoryId) (watchedRows c.tables) := by
  have hsub : ((watchedRows c.tables).map Prod.fst).Sublist c.tables.repositoryMetadata := by
    unfold watchedRows
    induction c.tables.repositoryMetadata with
    | nil => exact List.Sublist.refl _
    | cons m t ih =>
      rw [List.filterMap_cons]
      split
      · exact ih.cons m
      · next row hrow =>
        have hm : row.1 = m := by
          split at hrow
          · obtain ⟨value, -, rfl⟩ := Option.map_eq_some_iff.mp hrow
            rfl
          · cases hrow
        rw [List.map_cons, hm]
        exact ih.cons_cons m
  have hunique := c.valid.keys.metadata.sublist hsub
  rw [UniqueOn, List.map_map] at hunique
  exact hunique

/-- The ids of a selection, in the order of the rows. -/
theorem filterMap_watched_ids (rows : List (RepositoryMetadata × String)) :
    ((rows.filterMap watchedRepository).map (·.repositoryId)).Sublist
      (rows.map (·.1.repositoryId)) := by
  induction rows with
  | nil => exact List.Sublist.refl _
  | cons row rows ih =>
    rw [List.filterMap_cons]
    split
    · exact ih.cons _
    · next w hw =>
      rw [List.map_cons, watchedRepository_id hw, List.map_cons]
      exact ih.cons_cons _

/-- **A selection** returns members of the watched set, each once, and none ahead of one attempted
longer ago. -/
theorem selection_queued {c : Catalog} {clock : Time} {log : List (Uuid × Time)} (batch : ℕ)
    (h : Stamped (watchedSet c.tables) clock (attemptedAt c.tables) log) :
    Queued (watchedSet c.tables)
      ((selectWatchedRepositories batch c.tables).map (·.repositoryId)) (log.map Prod.fst) := by
  set rows := (watchedRows c.tables).insertionSort fun a b => a.1.turn ≤ b.1.turn with hrows
  have hperm : rows.Perm (watchedRows c.tables) := List.perm_insertionSort _ _
  have hsorted : rows.Pairwise fun a b => a.1.turn ≤ b.1.turn := List.pairwise_insertionSort _ _
  have hselected : selectWatchedRepositories batch c.tables =
      (rows.take batch).filterMap watchedRepository := rfl
  refine Queued.of_oldest h ?_ ?_ ?_
  · have hunique : (rows.map (·.1.repositoryId)).Nodup :=
      (hperm.map _).nodup_iff.mpr (watchedRows_unique c)
    rw [hselected]
    exact hunique.sublist
      ((filterMap_watched_ids _).trans ((List.take_sublist batch rows).map _))
  · intro r hr
    obtain ⟨w, hw, rfl⟩ := List.mem_map.mp hr
    rw [hselected] at hw
    obtain ⟨row, hrow, hrepository⟩ := List.mem_filterMap.mp hw
    exact mem_watchedSet.mpr ⟨row, hperm.mem_iff.mp (List.mem_of_mem_take hrow), w, hrepository, rfl⟩
  · intro ahead r behind htodo q hq hahead
    rw [hselected] at htodo
    obtain ⟨first, last, hsplit, rfl, hlast⟩ := List.map_eq_append_iff.mp htodo
    obtain ⟨w, last, rfl, rfl, rfl⟩ := List.map_eq_cons_iff.mp hlast
    obtain ⟨front, rest, htake, rfl, hrest⟩ := List.filterMap_eq_append_iff.mp hsplit
    obtain ⟨skipped, row, tail, rfl, hskipped, hrow, -⟩ := List.filterMap_eq_cons_iff.mp hrest
    obtain ⟨qrow, hqrow, v, hv, rfl⟩ := mem_watchedSet.mp hq
    -- The rows ahead of this one are in `ahead`, or have no repository.
    have hwhole : rows = front ++ (skipped ++ row :: (tail ++ rows.drop batch)) := by
      conv_lhs => rw [← List.take_append_drop batch rows, htake]
      simp
    have hbehind : qrow = row ∨ qrow ∈ tail ++ rows.drop batch := by
      have hmem : qrow ∈ rows := hperm.mem_iff.mpr hqrow
      rw [hwhole] at hmem
      rcases List.mem_append.mp hmem with hfront | hmem
      · exact absurd (List.mem_map_of_mem (List.mem_filterMap.mpr ⟨qrow, hfront, hv⟩)) hahead
      · rcases List.mem_append.mp hmem with hskip | hmem
        · rw [hskipped qrow hskip] at hv
          cases hv
        · exact List.mem_cons.mp hmem
    have hturn : row.1.turn ≤ qrow.1.turn := by
      rcases hbehind with rfl | hlater
      · exact le_refl _
      · rw [hwhole] at hsorted
        have htail := (List.pairwise_append.mp (List.pairwise_append.mp hsorted).2.1).2.1
        exact (List.pairwise_cons.mp htail).1 qrow hlater
    have hmem : row ∈ rows := by
      rw [hwhole]
      simp
    rw [watchedRepository_id hrow, watchedRepository_id hv,
      attemptedAt_of_mem (watchedRows_mem (hperm.mem_iff.mp hmem)),
      attemptedAt_of_mem (watchedRows_mem hqrow)]
    exact notLater_of_turn hturn

/-! ### What the other flows leave -/

/-- Every row had its attempt before, or is of a repository without a row. -/
def KeepsAttempts (db db' : Database) : Prop :=
  ∀ m' ∈ db'.repositoryMetadata,
    (∃ m ∈ db.repositoryMetadata, m.repositoryId = m'.repositoryId ∧
      m.observeAttemptedAt = m'.observeAttemptedAt) ∨
    ∀ m ∈ db.repositoryMetadata, m.repositoryId ≠ m'.repositoryId

theorem KeepsAttempts.attemptedAt_eq {c c' : Catalog} (h : KeepsAttempts c.tables c'.tables) {r : Uuid}
    (hr : r ∈ watchedSet c.tables) (hr' : r ∈ watchedSet c'.tables) :
    attemptedAt c'.tables r = attemptedAt c.tables r := by
  obtain ⟨m, hm, rfl⟩ := metadata_of_watched hr
  obtain ⟨m', hm', hid⟩ := metadata_of_watched hr'
  rw [attemptedAt_of_mem hm, ← hid, attemptedAt_of_mem hm']
  rcases h m' hm' with ⟨old, hold, hsame, hattempt⟩ | hfresh
  · rw [← hattempt, c.valid.keys.metadata.eq_of_mem hold hm (hsame.trans hid)]
  · exact absurd hid.symm (hfresh m hm)

theorem keepsAttempts_of_subset {db db' : Database}
    (h : ∀ m ∈ db'.repositoryMetadata, m ∈ db.repositoryMetadata) : KeepsAttempts db db' :=
  fun m hm => .inl ⟨m, h m hm, rfl, rfl⟩

theorem keepsAttempts_of_eq {db db' : Database} (h : db'.repositoryMetadata = db.repositoryMetadata) :
    KeepsAttempts db db' :=
  keepsAttempts_of_subset fun _ hm => h ▸ hm

instance : Std.Refl KeepsAttempts := ⟨fun _ => keepsAttempts_of_eq rfl⟩

theorem keepsAttempts_touchFetchedAt {now : Time} {r : Uuid} {c c' : Catalog} {u : Unit}
    (h : touchFetchedAt now r c = .ok (u, c')) : KeepsAttempts c.tables c'.tables := by
  have hrows : c'.tables.repositoryMetadata =
      updateWhere (fun m => decide (m.repositoryId = r)) (fun m => { m with fetchedAt := now })
        c.tables.repositoryMetadata := by
    rw [show c'.tables = _ from write_eq_ok.mp h]
    rfl
  intro m' hm'
  rw [hrows] at hm'
  obtain ⟨m, hm, rfl⟩ := mem_updateWhere.mp hm'
  left
  refine ⟨m, hm, ?_⟩
  split <;> exact ⟨rfl, rfl⟩

theorem keepsAttempts_applyFreshSource {k : Contracts} {revisionId : Uuid} {now : Time} {r : Uuid}
    {body : ProviderRepositoryBody} {etag : Option String} {readme : ReadmeRevision}
    {readmeEtag : Option String} {out : AppliedOutcome} {c c' : Catalog}
    (h : applyFreshSource k revisionId now r body etag readme readmeEtag c = .ok (out, c')) :
    KeepsAttempts c.tables c'.tables := by
  obtain ⟨attributes, -, ⟨-, htouched⟩ | ⟨-, pushedAt, -, hrows⟩⟩ := applyFreshSource_spec h
  · exact keepsAttempts_touchFetchedAt htouched
  · intro m' hm'
    rw [hrows] at hm'
    rcases mem_upsertWhere.mp hm' with ⟨hold, -⟩ | ⟨m, hm, hown, rfl⟩ | ⟨hfresh, rfl⟩
    · exact .inl ⟨m', hold, rfl, rfl⟩
    · exact .inl ⟨m, hm, of_decide_eq_true hown, rfl⟩
    · exact .inr fun m hm => of_decide_eq_false (hfresh m hm)

/-- **One operation** of another flow. -/
theorem Operation.commit_keepsAttempts (k : Contracts) (c : Catalog) (op : Operation)
    (h : op.recordsAttempt = false) : KeepsAttempts c.tables (op.commit k c).tables := by
  cases op with
  | recordObservationAttempt => cases h
  | applyFreshSource => exact Tx.relates_commit fun _ _ hok => keepsAttempts_applyFreshSource hok
  | applyNotModified => exact Tx.relates_commit fun _ _ hok => keepsAttempts_touchFetchedAt hok
  | eraseAccount =>
    refine Tx.relates_commit fun _ c' hok => keepsAttempts_of_subset fun m hm => ?_
    obtain ⟨c₁, h₁, hrecord⟩ := eraseAccountInTx_eq_ok hok
    rw [show c'.tables.repositoryMetadata = c₁.tables.repositoryMetadata from
      hrecord .repositoryMetadata (by decide), eraseOwnerState_eq h₁] at hm
    exact (mem_deleteWhere.mp hm).1
  | _ => exact keepsAttempts_of_eq (rows_commit k c _ .repositoryMetadata rfl)

/-- Whatever its fate, a transaction leaves the store as it was or commits. -/
theorem fate_run_commit {α : Type} (fate : Fate) (x : Tx α) (c : Catalog) :
    (fate.run x c).2 = c ∨ (fate.run x c).2 = x.commit c := by
  rcases Fate.run_cases fate x c with ⟨a, c', hx, hrun⟩ | ⟨a, c', hx, hrun⟩ | ⟨e, -, hrun⟩
  · rw [hrun]
    exact .inr (Tx.commit_of_ok hx).symm
  · rw [hrun]
    exact .inr (Tx.commit_of_ok hx).symm
  · rw [hrun]
    exact .inl rfl

theorem settleFetch_catalog {P α : Type} (answer : Except CatalogError α × Catalog) (failed : P)
    (f : α → P) : (settleFetch answer failed f).2 = answer.2 := by
  obtain ⟨result, c⟩ := answer
  cases result <;> rfl

/-- A statement that is an operation of another flow. -/
theorem keepsAttempts_settled {k : Contracts} {c : Catalog} {P α : Type} {x : Tx α} (op : Operation)
    (hop : op.recordsAttempt = false) (hx : x.commit c = op.commit k c) (fate : Fate) (failed : P)
    (f : α → P) :
    KeepsAttempts c.tables (settleFetch (fate.run x c) failed f).2.tables := by
  rw [settleFetch_catalog]
  rcases fate_run_commit fate x c with hsame | hcommitted
  · rw [hsame]
    exact Std.Refl.refl _
  · rw [hcommitted, hx]
    exact op.commit_keepsAttempts k c hop

theorem keepsAttempts_selected {c : Catalog} {P α : Type} (g : Database → α) (fate : Fate) (failed : P)
    (f : α → P) :
    KeepsAttempts c.tables (settleFetch (fate.run (select g) c) failed f).2.tables := by
  rw [settleFetch_catalog]
  rcases fate_run_commit fate (select g) c with hsame | hcommitted
  · rw [hsame]
    exact Std.Refl.refl _
  · rw [hcommitted]
    exact Std.Refl.refl _

/-- **A statement of an observation** keeps the attempts. -/
theorem RecordPhase.step_keepsAttempts (k : Contracts) (s : FreshSource) (i : FetchInput) (c : Catalog)
    (phase : RecordPhase) : KeepsAttempts c.tables (phase.step k s i c).2.tables := by
  cases phase with
  | validating => exact keepsAttempts_selected _ _ _ _
  | acquiring | fetching | ended => exact Std.Refl.refl _
  | storing bytes etag =>
    exact keepsAttempts_settled (k := k) (.storeReadme s.repositoryId bytes) rfl rfl _ _ _
  | applying readme etag =>
    exact keepsAttempts_settled
      (.applyFreshSource i.freshId i.now s.repositoryId s.body s.etag readme etag) rfl rfl _ _ _
  | tracking owner applied =>
    exact keepsAttempts_settled (k := k) (.registerWatch i.freshId owner s.repositoryId .unevaluated) rfl
      rfl _ _ _
  | evaluating applied =>
    exact keepsAttempts_settled (.evaluateWatches i.ids i.now s.repositoryId) rfl rfl _ _ _

theorem ObservationPhase.step_keepsAttempts (k : Contracts) (requested : OwnerName) (i : FetchInput)
    (c : Catalog) (phase : ObservationPhase) :
    KeepsAttempts c.tables (phase.step k requested i c).2.tables := by
  cases phase with
  | acquiring | fetching | ended => exact Std.Refl.refl _
  | resolving => exact keepsAttempts_selected _ _ _ _
  | validating => exact keepsAttempts_selected _ _ _ _
  | identifying body etag =>
    exact keepsAttempts_settled (k := k) (.upsertRepository i.freshId body.providerRepositoryId) rfl rfl
      _ _ _
  | naming repositoryId body etag =>
    let observed := body.ownerName.map (·.text)
    exact keepsAttempts_settled (k := k) (.applyAliasObservation i.ids i.now body.providerRepositoryId
      .ownerName (observed.filter (· ≠ requested.text)) (observed.getD requested.text)) rfl rfl _ _ _
  | recording s phase => exact phase.step_keepsAttempts k s i c
  | refreshing repositoryId =>
    exact keepsAttempts_settled (k := k) (.applyNotModified i.now repositoryId) rfl rfl _ _ _
  | evaluating repositoryId =>
    exact keepsAttempts_settled (.evaluateWatches i.ids i.now repositoryId) rfl rfl _ _ _

/-! ### One step -/

theorem PassPhase.next_todo (repositories : List WatchedRepository) :
    (PassPhase.next repositories).todo = repositories := by
  cases repositories <;> rfl

/-- The attempts after a recorded one. -/
theorem attemptedAt_recorded {now : Time} {c c' : Catalog} {r q : Uuid} {u : Unit}
    (h : recordObservationAttempt now r c = .ok (u, c')) (hq : q ∈ watchedSet c.tables) :
    attemptedAt c'.tables q = if q = r then some now else attemptedAt c.tables q := by
  obtain ⟨m, hm, rfl⟩ := metadata_of_watched hq
  have hrows : c'.tables.repositoryMetadata =
      updateWhere (fun n => decide (n.repositoryId = r)) (fun n => { n with observeAttemptedAt := some now })
        c.tables.repositoryMetadata := by
    rw [show c'.tables = _ from write_eq_ok.mp h]
    rfl
  have hfound : (updateWhere (fun n : RepositoryMetadata => decide (n.repositoryId = r))
      (fun n => { n with observeAttemptedAt := some now }) c.tables.repositoryMetadata).find?
        (fun n => decide (n.repositoryId = m.repositoryId)) =
      some (if decide (m.repositoryId = r) then { m with observeAttemptedAt := some now } else m) := by
    refine (find?_updateWhere ?_ _).trans ?_
    · exact fun _ => rfl
    · rw [c.valid.keys.metadata.find?_eq hm]
      rfl
  rw [attemptedAt_of_mem hm, attemptedAt, hrows, hfound]
  by_cases hr : m.repositoryId = r <;> simp [hr]

/-- **Recording an attempt**: it takes its place in the log and the row, or nothing was written and the
pass is over. -/
theorem WatchObserver.record_cases (s : WatchObserver) (repository : WatchedRepository)
    (rest : List WatchedRepository) (outcome : Except ObserveFault ObserveOutcome) (fate : Fate)
    (now : Time) :
    (∃ u, recordObservationAttempt now repository.repositoryId s.catalog =
          .ok (u, (s.record repository rest outcome fate now).catalog) ∧
        (s.record repository rest outcome fate now).attempts =
          (repository.repositoryId, now) :: s.attempts ∧
        ((s.record repository rest outcome fate now).phase.todo = rest ∨
          (s.record repository rest outcome fate now).phase.todo = [])) ∨
      ((s.record repository rest outcome fate now).catalog = s.catalog ∧
        (s.record repository rest outcome fate now).attempts = s.attempts ∧
        (s.record repository rest outcome fate now).phase.todo = []) := by
  unfold WatchObserver.record
  cases hx : recordObservationAttempt now repository.repositoryId s.catalog with
  | ok p =>
    have hok : (recordObservationAttempt now repository.repositoryId).succeeds s.catalog = true := by
      rw [Tx.succeeds, hx]
      rfl
    cases fate with
    | served =>
      left
      refine ⟨p.1, ?_, ?_, .inl ?_⟩
      · simp [Fate.run, hx]
      · simp [Fate.run, hx, hok]
      · simp [Fate.run, hx, PassPhase.next_todo]
    | unacknowledged =>
      left
      refine ⟨p.1, ?_, ?_, .inr ?_⟩
      · simp [Fate.run, hx]
      · simp [Fate.run, hx, hok]
      · simp [Fate.run, hx, PassPhase.todo]
    | rolledBack => exact .inr (by simp [Fate.run, PassPhase.todo])
  | error e =>
    have hfailed : (recordObservationAttempt now repository.repositoryId).succeeds s.catalog = false := by
      rw [Tx.succeeds, hx]
      rfl
    right
    cases fate <;> simp [Fate.run, hx, hfailed, PassPhase.todo]

theorem WatchObserver.record_clock (s : WatchObserver) (repository : WatchedRepository)
    (rest : List WatchedRepository) (outcome : Except ObserveFault ObserveOutcome) (fate : Fate)
    (now : Time) : (s.record repository rest outcome fate now).clock = now := by
  unfold WatchObserver.record
  simp only
  split <;> rfl

/-- **The invariant of the rotation.**  The attempt times are those of the log, the rest of the pass is
in turn order, and the log rotates. -/
structure Turning (S : Finset Uuid) (s : WatchObserver) : Prop where
  stamped : Stamped S s.clock (attemptedAt s.catalog.tables) s.attempts
  queued : Queued S (s.phase.todo.map (·.repositoryId)) (s.attempts.map Prod.fst)
  rotates : Rotates S.card (s.attempts.map Prod.fst)

variable {k : Contracts} {batch : ℕ} {S : Finset Uuid} {s : WatchObserver}

/-- A step that records no attempt and keeps or drops the rest of the pass. -/
theorem Turning.unrecorded (h : Turning S s) {t : WatchObserver}
    (hcatalog : KeepsAttempts s.catalog.tables t.catalog.tables)
    (hset : watchedSet s.catalog.tables = S) (hset' : watchedSet t.catalog.tables = S)
    (hclock : t.clock = s.clock) (hattempts : t.attempts = s.attempts)
    (htodo : t.phase.todo = s.phase.todo ∨ t.phase.todo = []) : Turning S t := by
  refine ⟨?_, ?_, ?_⟩
  · rw [hclock, hattempts]
    refine h.stamped.congr fun r hr => hcatalog.attemptedAt_eq ?_ ?_
    · rw [hset]
      exact hr
    · rw [hset']
      exact hr
  · rw [hattempts]
    rcases htodo with hsame | hdropped
    · rw [hsame]
      exact h.queued
    · rw [hdropped]
      exact queued_nil
  · rw [hattempts]
    exact h.rotates

/-- A recorded attempt, or one that failed to be recorded. -/
theorem Turning.record (h : Turning S s) {repository : WatchedRepository}
    {rest : List WatchedRepository} (htodo : s.phase.todo = repository :: rest)
    (outcome : Except ObserveFault ObserveOutcome) (fate : Fate) {now : Time} (hlater : s.clock < now)
    (hset : watchedSet s.catalog.tables = S) :
    Turning S (s.record repository rest outcome fate now) := by
  have hqueued := h.queued
  rw [htodo, List.map_cons] at hqueued
  rcases s.record_cases repository rest outcome fate now with
    ⟨u, hrecorded, hattempts, hphase⟩ | ⟨hcatalog, hattempts, hphase⟩
  · refine ⟨?_, ?_, ?_⟩
    · rw [s.record_clock, hattempts]
      refine h.stamped.record hlater (hqueued.members _ List.mem_cons_self) ?_ fun q hq hne => ?_
      · rw [attemptedAt_recorded hrecorded (hset ▸ hqueued.members _ List.mem_cons_self), if_pos rfl]
      · rw [attemptedAt_recorded hrecorded (hset ▸ hq), if_neg hne]
    · rw [hattempts, List.map_cons]
      rcases hphase with hrest | hdropped
      · rw [hrest]
        exact hqueued.served
      · rw [hdropped]
        exact queued_nil
    · rw [hattempts, List.map_cons]
      exact hqueued.rotates h.rotates
  · refine ⟨?_, ?_, ?_⟩
    · rw [s.record_clock, hattempts, hcatalog]
      exact h.stamped.later hlater.le
    · rw [hphase]
      exact queued_nil
    · rw [hattempts]
      exact h.rotates

/-- **One step** within the watched set. -/
theorem Turning.step (h : Turning S s) {e : ObserverEvent} (he : e.Ordered s)
    (hset : watchedSet s.catalog.tables = S)
    (hset' : watchedSet (s.step k batch e).catalog.tables = S) : Turning S (s.step k batch e) := by
  cases e with
  | startPass =>
    cases hphase : s.phase with
    | observing repository rest phase =>
      have hsame : s.step k batch .startPass = s := by simp [WatchObserver.step, hphase]
      rw [hsame]
      exact h
    | idle =>
      have hstarted : s.step k batch .startPass =
          { s with phase := .next (selectWatchedRepositories batch s.catalog.tables), pass := {} } := by
        simp [WatchObserver.step, hphase]
      rw [hstarted]
      refine ⟨h.stamped, ?_, h.rotates⟩
      have hstamped := h.stamped
      rw [← hset] at hstamped ⊢
      rw [PassPhase.next_todo]
      exact selection_queued batch hstamped
  | observe i =>
    cases hphase : s.phase with
    | idle =>
      have hsame : s.step k batch (.observe i) = s := by simp [WatchObserver.step, hphase]
      rw [hsame]
      exact h
    | observing repository rest phase =>
      have hnext : s.step k batch (.observe i) =
          { s with
            catalog := (phase.step k repository.ownerName i s.catalog).2
            phase := .observing repository rest
              (phase.step k repository.ownerName i s.catalog).1 } := by
        simp [WatchObserver.step, hphase]
      rw [hnext] at hset' ⊢
      refine h.unrecorded (phase.step_keepsAttempts k _ i _) hset hset' rfl rfl (.inl ?_)
      rw [hphase]
      rfl
  | finish fate now =>
    unfold WatchObserver.step at hset' ⊢
    simp only at hset' ⊢
    split
    · exact h.unrecorded (Std.Refl.refl _) hset hset rfl rfl (.inr rfl)
    · next repository rest outcome _ hphase =>
      refine h.record ?_ outcome fate he hset
      rw [hphase]
      rfl
    · exact h
  | abandon => exact h.unrecorded (Std.Refl.refl _) hset hset rfl rfl (.inr rfl)
  | operation op =>
    refine h.unrecorded ?_ hset hset' rfl rfl (.inl rfl)
    show KeepsAttempts s.catalog.tables (GithubCatalog.step k s.catalog op).tables
    unfold GithubCatalog.step
    split
    · exact op.commit_keepsAttempts k s.catalog he
    · exact Std.Refl.refl _

/-- **A run** within the watched set. -/
theorem Turning.run (h : Turning S s) {events : List ObserverEvent}
    (hset : Throughout (WatchObserver.step k batch) (fun t => watchedSet t.catalog.tables = S) s events)
    (hclock : Guarded (WatchObserver.step k batch) (fun t e => e.Ordered t) s events) :
    Turning S (runFrom (WatchObserver.step k batch) s events) := by
  induction events generalizing s with
  | nil => exact h
  | cons e events ih =>
    have hnext : watchedSet (s.step k batch e).catalog.tables = S := by
      cases events with
      | nil => exact hset.2
      | cons _ _ => exact hset.2.1
    exact ih (h.step hclock.1 hset.1 hnext) hset.2 hclock.2

theorem Turning.members (h : Turning S s) : ∀ r ∈ s.attempts.map Prod.fst, r ∈ S := by
  intro r hr
  obtain ⟨e, he, rfl⟩ := List.mem_map.mp hr
  exact h.stamped.members e he

/-- **Fair rotation.**  In every run that starts between two passes and stays within one watched set,
whatever the batch size, the outcomes and the other flows, any `N` recorded attempts in a row, where `N` is
the size of the set, are for `N` different repositories: each of the set has its turn among them. -/
theorem rotation_fair (k : Contracts) (batch : ℕ) {S : Finset Uuid} {s : WatchObserver}
    {events : List ObserverEvent} (hidle : s.phase = .idle) (hattempts : s.attempts = [])
    (hpast : ∀ m ∈ s.catalog.tables.repositoryMetadata, ∀ t ∈ m.observeAttemptedAt, t ≤ s.clock)
    (hset : Throughout (WatchObserver.step k batch) (fun t => watchedSet t.catalog.tables = S) s events)
    (hclock : Guarded (WatchObserver.step k batch) (fun t e => e.Ordered t) s events) :
    ∀ window, window <:+: (runFrom (WatchObserver.step k batch) s events).attempts.map Prod.fst →
      window.length = S.card → window.Nodup ∧ window.toFinset = S := by
  have hstart : Turning S s := by
    refine ⟨?_, ?_, ?_⟩
    · rw [hattempts]
      refine stamped_nil fun r _ t ht => ?_
      obtain ⟨m, hm, hattempted⟩ := Option.bind_eq_some_iff.mp ht
      exact hpast m (List.mem_of_find?_eq_some hm) t hattempted
    · rw [hidle]
      exact queued_nil
    · rw [hattempts]
      trivial
  have hend := hstart.run hset hclock
  intro window hwindow hlength
  have hnodup := hend.rotates.nodup hwindow hlength.le
  refine ⟨hnodup, Finset.eq_of_subset_of_card_le ?_ ?_⟩
  · intro r hr
    exact hend.members r (hwindow.subset (List.mem_toFinset.mp hr))
  · rw [List.toFinset_card_of_nodup hnodup, hlength]

/-- Two watched repositories. -/
def watchedPair : Catalog :=
  runFrom (GithubCatalog.step sampleContracts) emptyCatalog
    [.upsertRepository 1 101, .upsertRepository 2 102,
      .recordAlias 11 0 1 .ownerName "owner/one", .recordAlias 12 0 2 .ownerName "owner/two",
      .applyFreshSource 21 0 1 { providerRepositoryId := 101, fullName := "owner/one" } none
        (.absent .notFound) none,
      .applyFreshSource 22 0 2 { providerRepositoryId := 102, fullName := "owner/two" } none
        (.absent .notFound) none,
      .registerWatch 31 "user:00000000-0000-0000-0000-000000000001" 1 .unevaluated,
      .registerWatch 32 "user:00000000-0000-0000-0000-000000000001" 2 .unevaluated]

/-- A budget with room for one request, and a provider that answers with an error. -/
def failingFetch : FetchInput := ⟨0, .served, 0, fun _ => 0, true, .error .notFound, .error .notFound⟩

/-- A pass of one repository that always fails. -/
def failingPass (now : Time) : List ObserverEvent :=
  [.startPass, .observe failingFetch, .observe failingFetch, .observe failingFetch,
    .observe failingFetch, .finish .served now]

/-- A pass that the budget withholds. -/
def withheldPass : List ObserverEvent :=
  [.startPass, .observe { failingFetch with acquired := false }, .finish .served 9]

theorem rotation_fair_pair :
    (runFrom (WatchObserver.step sampleContracts 1) ⟨watchedPair, .idle, {}, 0, []⟩
        (failingPass 1 ++ withheldPass ++ failingPass 2 ++ failingPass 3)).attempts =
      [(1, 3), (2, 2), (1, 1)] ∧
    ∀ window, window <:+: (runFrom (WatchObserver.step sampleContracts 1) ⟨watchedPair, .idle, {}, 0, []⟩
        (failingPass 1 ++ withheldPass ++ failingPass 2 ++ failingPass 3)).attempts.map Prod.fst →
      window.length = ({1, 2} : Finset Uuid).card → window.Nodup ∧ window.toFinset = {1, 2} :=
  ⟨by decide +kernel, rotation_fair sampleContracts 1 rfl rfl (by decide +kernel) (by decide +kernel)
    (by decide +kernel)⟩

end GithubCatalog
