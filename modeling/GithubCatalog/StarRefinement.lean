import GithubCatalog.ErasureState
import GithubCatalog.ImportAuthority
import GithubCatalog.StarBook

/-!
# The catalog refines the star book

Every committed transaction does the events of the star book that its inputs name, and a failed one
does none.  So the book of every catalog a history reaches is what the events of the history make of the
empty book, and each of its stars is what the last evidence of it said.

* `Operation.starEvents` - the events of an operation;
* `upsertRepositoryInTx_book`, .. - what one transaction does to the book;
* `starBook_step` - one operation; `starBook_refines` - whole histories.
-/

namespace GithubCatalog

open Relational Transact Runs

/-! ### The events of an operation -/

/-- The events of a transaction, when it commits. -/
def ifCommitted {α : Type} (x : Tx α) (c : Catalog) (events : List BookEvent) : List BookEvent :=
  if x.succeeds c then events else []

/-- The events of a record that an import writes; its account is the one its user is bound to. -/
def LegacyRepository.starEvents (sourceId : String) (after : Database) (record : LegacyRepository) :
    List BookEvent :=
  .catalogue record.providerRepositoryId ::
    if record.starred then
      ((boundAccount sourceId record.legacyUserId after).map fun account =>
        BookEvent.claim account record.providerRepositoryId).toList
    else []

/-- The events of an erasure. -/
def erasureEvent (owner : String) (db : Database) : BookEvent :=
  .forget (ownsAccount owner db) (ownsSyncRun owner db) fun pid =>
    (repositoryOf pid db).any fun r => decide (r.repositoryId ∈ collected owner db)

/-- What an operation does to the star book. -/
def Operation.starEvents (k : Contracts) (c : Catalog) : Operation → List BookEvent
  | .upsertRepository fresh pid =>
    ifCommitted (GithubCatalog.upsertRepository fresh pid) c [.catalogue pid]
  | .applyAliasObservation ids now pid kind old value =>
    ifCommitted (GithubCatalog.applyAliasObservation ids now pid kind old value) c [.catalogue pid]
  | .recordPage checkpointId now runId page items =>
    ifCommitted (GithubCatalog.recordPage k checkpointId now runId page items) c
      [.stage runId (items.map (·.repo.providerRepositoryId))]
  | .failRun now runId reason =>
    ifCommitted (GithubCatalog.failRun now runId reason) c [.discard runId]
  | .applyAuthority ids unstarIds now runId accountId =>
    ifCommitted (applyAuthorityAndComplete ids unstarIds now runId accountId) c
      [.reconcile runId accountId]
  | .recordIngest id now runId accountId repositoryId seenAt =>
    ifCommitted (GithubCatalog.recordIngest id now runId accountId repositoryId seenAt) c
      ((c.tables.repositories.find? fun r => decide (r.repositoryId = repositoryId)).map fun r =>
        BookEvent.star .add accountId r.providerRepositoryId).toList
  | .recordAttempt ids context pid kind key outcome detail =>
    ifCommitted (GithubCatalog.recordAttempt ids context pid kind key outcome detail) c
      [.catalogue pid]
  | .persistConfirmedStar ids now context pid key direction =>
    ifCommitted (GithubCatalog.persistConfirmedStar ids now context pid key direction) c
      [.catalogue pid, .star direction context.accountId pid]
  | .persistListMembership ids now context pid listId key change desired =>
    ifCommitted (GithubCatalog.persistListMembership ids now context pid listId key change desired) c
      [.catalogue pid]
  | .trackRepository fresh now pid =>
    ifCommitted (GithubCatalog.trackRepository fresh now pid) c [.catalogue pid, .track pid]
  | .setRepositoryMode ids now context pid requested key =>
    ifCommitted (setRepositoryModeInTx ids now context pid requested key) c
      [.catalogue pid, .request context.accountId pid requested]
  | .importLegacy accountIds ids now request id =>
    let x := importLegacyTransaction accountIds ids now request id
    ifCommitted x c
      ((newRecords request.sourceId c.tables [] request.snapshot.repositories).flatMap
        (·.starEvents request.sourceId (x.commit c).tables))
  | .eraseAccount now owner operation =>
    ifCommitted (eraseAccountInTx now owner operation) c [erasureEvent owner c.tables]
  | _ => []

theorem starBook_commit {α : Type} {x : Tx α} {c : Catalog} {events : List BookEvent}
    (h : ∀ a, x c = .ok (a, x.commit c) →
      starBook (x.commit c).tables = runFrom StarBook.next (starBook c.tables) events) :
    starBook (x.commit c).tables =
      runFrom StarBook.next (starBook c.tables) (ifCommitted x c events) := by
  unfold ifCommitted
  split
  · next hok =>
    obtain ⟨a, ha⟩ := Tx.ok_of_succeeds hok
    exact h a ha
  · next hfailed =>
    rcases Tx.commit_cases x c with ⟨a, ha⟩ | hsame
    · rw [Tx.succeeds, ha] at hfailed
      exact absurd rfl hfailed
    · rw [hsame]
      rfl

/-! ### Lookups -/

/-- A test after a delete that spares all the rows it selects, or none. -/
theorem any_deleteWhere {α : Type} {p q : α → Bool} {gone : Bool}
    (h : ∀ a, q a = true → p a = gone) (t : List α) :
    (deleteWhere p t).any q = (t.any q && !gone) := by
  rw [deleteWhere, List.any_filter]
  induction t with
  | nil => rfl
  | cons a t ih =>
    rw [List.any_cons, List.any_cons, ih]
    cases hq : q a with
    | false => rw [Bool.and_false, Bool.false_or, Bool.false_or]
    | true =>
      rw [h a hq, Bool.and_true, Bool.true_or, Bool.true_and]
      cases gone with
      | false => rfl
      | true => rw [Bool.not_true, Bool.and_false, Bool.or_false]

section lookups

variable {db db' : Database} {pid : ℤ}

/-- A change of rows that leaves their ids alone leaves the stars alone. -/
theorem starredFor_map {f : Repository → Repository} (account : Uuid)
    (hid : ∀ r, (f r).repositoryId = r.repositoryId)
    (hfind : repositoryOf pid db' = (repositoryOf pid db).map f)
    (hstars : db'.currentStarState = db.currentStarState) :
    starredFor account pid db' = starredFor account pid db := by
  rw [starredFor, starredFor, hfind, Option.any_map]
  congr 1
  funext r
  show starredBy account (f r).repositoryId db' = _
  rw [hid, starredBy_of_eq hstars]

/-- One repository's row is changed. -/
theorem repositoryOf_adjusted {f : Repository → Repository} {r : Repository} (hkeys : Keys db)
    (hpid : ∀ r, (f r).providerRepositoryId = r.providerRepositoryId)
    (hr : repositoryOf pid db = some r)
    (hrepos : db'.repositories =
      updateWhere (fun q => decide (q.repositoryId = r.repositoryId)) f db.repositories) (p : ℤ) :
    repositoryOf p db' = (repositoryOf p db).map fun q => if p = pid then f q else q := by
  rw [repositoryOf_updateWhere hpid hrepos]
  cases hq : repositoryOf p db with
  | none => rfl
  | some q =>
    have hsame : q.repositoryId = r.repositoryId ↔ p = pid := by
      constructor
      · intro hid
        have heq : q = r := hkeys.repositories.eq_of_mem (repositoryOf_mem hq).1
          (repositoryOf_mem hr).1 hid
        rw [← (repositoryOf_mem hq).2, heq, (repositoryOf_mem hr).2]
      · rintro rfl
        rw [hr] at hq
        rw [Option.some.inj hq]
    simp only [Option.map_some, decide_eq_true_eq, hsame]

/-- A catalogued repository is found, and the others as before. -/
theorem repositoryOf_catalogued {fresh : Uuid}
    (hrepos : db'.repositories = catalogued fresh pid db.repositories) (p : ℤ) :
    repositoryOf p db' =
      (repositoryOf p db).or (if p = pid then some ⟨fresh, pid, none⟩ else none) := by
  rw [repositoryOf, hrepos, catalogued, insertUnless]
  split
  · next hknown =>
    show repositoryOf p db = _
    split
    · next hp =>
      subst hp
      obtain ⟨r, hr, hpid⟩ := List.any_eq_true.mp hknown
      have hq : (repositoryOf p db).isSome = true := List.find?_isSome.mpr ⟨r, hr, hpid⟩
      rw [Option.or_of_isSome hq]
    · rw [Option.or_none]
  · rw [List.find?_append, List.find?_singleton]
    simp only [eq_comm (a := p), decide_eq_true_eq]
    rfl

/-- Repositories are deleted. -/
theorem repositoryOf_deleted {p : Repository → Bool} (hkeys : Keys db) (hkeys' : Keys db')
    (hrepos : db'.repositories = deleteWhere p db.repositories) (pid : ℤ) :
    repositoryOf pid db' = (repositoryOf pid db).filter fun r => !p r := by
  have hnone : (∀ r ∈ db.repositories, r.providerRepositoryId = pid → p r = true) →
      repositoryOf pid db' = none := by
    intro hall
    rw [repositoryOf, hrepos, List.find?_eq_none]
    intro r hr hpid
    obtain ⟨hr, hkept⟩ := mem_deleteWhere.mp hr
    rw [hall r hr (of_decide_eq_true hpid)] at hkept
    cases hkept
  cases hp : repositoryOf pid db with
  | none => exact hnone fun r hr hpid => absurd hpid (repositoryOf_none hp hr)
  | some r =>
    obtain ⟨hr, hpid⟩ := repositoryOf_mem hp
    cases hgone : p r with
    | true =>
      rw [Option.filter_some_neg (by simp [hgone])]
      refine hnone fun q hq hq' => ?_
      rw [hkeys.repositories_provider.eq_of_mem hq hr (hq'.trans hpid.symm), hgone]
    | false =>
      rw [Option.filter_some_pos (by simp [hgone]), ← hpid]
      refine repositoryOf_eq hkeys' ?_
      rw [hrepos]
      exact mem_deleteWhere.mpr ⟨hr, hgone⟩

end lookups

/-! ### One repository -/

section repository

variable {c c' : Catalog} {pid : ℤ}

/-- Cataloguing a repository. -/
theorem upsertRepositoryInTx_book {fresh id : Uuid} (h : upsertRepositoryInTx fresh pid c = .ok (id, c')) :
    starBook c'.tables = (starBook c.tables).next (.catalogue pid) := by
  obtain ⟨hrepos, hframe, -⟩ := upsertRepositoryInTx_spec h
  have hstars : c'.tables.currentStarState = c.tables.currentStarState :=
    hframe .currentStarState (by decide)
  have hitems : c'.tables.snapshotItems = c.tables.snapshotItems :=
    hframe .snapshotItems (by decide)
  have hfind := repositoryOf_catalogued hrepos
  apply StarBook.ext
  · funext p
    show (repositoryOf p c'.tables).map (·.mode) = if p = pid then _ else _
    rw [hfind]
    simp only [starBook_mode]
    cases repositoryOf p c.tables with
    | none => split <;> rfl
    | some r => split <;> rfl
  · funext account p
    show starredFor account p c'.tables = starredFor account p c.tables
    rw [starredFor, starredFor, hfind]
    cases hp : repositoryOf p c.tables with
    | some r => exact starredBy_of_eq hstars
    | none =>
      rw [Option.none_or]
      split
      · next heq =>
        subst heq
        -- No star row names the id of a repository that was not catalogued.
        have hnew : (c.tables.repositories.any fun r => decide (r.providerRepositoryId = p)) = false := by
          rw [List.any_eq_false]
          intro r hr
          simpa using repositoryOf_none hp hr
        have hfresh := (fresh_of_catalogued (hrepos ▸ c'.valid.keys.repositories) hnew).2
        rw [Option.any_some, starredBy_of_eq hstars, Option.any_none, ← Bool.not_eq_true]
        exact fun hstar => hfresh (mem_of_starredBy c.valid.foreignKeys hstar)
      · rfl
  · funext run p
    show stagedIn run p c'.tables = stagedIn run p c.tables
    rw [stagedIn, stagedIn, hitems]

/-- The modes after one repository's row is changed. -/
theorem starBook_mode_adjusted {db db' : Database} (hkeys : Keys db) {f : Repository → Repository}
    {g : Option RepositoryMode → Option RepositoryMode} {r : Repository}
    (hpid : ∀ r, (f r).providerRepositoryId = r.providerRepositoryId)
    (hmode : (f r).mode = g r.mode) (hr : repositoryOf pid db = some r)
    (hrepos : db'.repositories =
      updateWhere (fun q => decide (q.repositoryId = r.repositoryId)) f db.repositories) :
    (starBook db').mode = ((starBook db).adjust pid g).mode := by
  funext p
  show (repositoryOf p db').map (·.mode) =
    if p = pid then ((repositoryOf p db).map (·.mode)).map g else (repositoryOf p db).map (·.mode)
  rw [repositoryOf_adjusted hkeys hpid hr hrepos]
  split
  · next heq =>
    rw [heq, hr, Option.map_some, Option.map_some, Option.map_some, Option.map_some, hmode]
  · rw [Option.map_map]
    rfl

/-- One mode is changed. -/
theorem starBook_adjusted {db db' : Database} (hkeys : Keys db) {f : Repository → Repository}
    {g : Option RepositoryMode → Option RepositoryMode} {r : Repository}
    (hid : ∀ r, (f r).repositoryId = r.repositoryId)
    (hpid : ∀ r, (f r).providerRepositoryId = r.providerRepositoryId)
    (hmode : (f r).mode = g r.mode) (hr : repositoryOf pid db = some r)
    (hrepos : db'.repositories =
      updateWhere (fun q => decide (q.repositoryId = r.repositoryId)) f db.repositories)
    (hstars : db'.currentStarState = db.currentStarState)
    (hitems : db'.snapshotItems = db.snapshotItems) :
    starBook db' = (starBook db).adjust pid g := by
  apply StarBook.ext (starBook_mode_adjusted hkeys hpid hmode hr hrepos)
  · funext account p
    have hfind := repositoryOf_adjusted hkeys hpid hr hrepos p
    refine starredFor_map account (fun q => ?_) hfind hstars
    split
    · exact hid q
    · rfl
  · funext run p
    show stagedIn run p db' = stagedIn run p db
    rw [stagedIn, stagedIn, hitems]

/-- The stars after one star row is written. -/
theorem starBook_stars_written {db db' : Database} (hkeys : Keys db) {account : Uuid} {starred : Bool}
    {f : ℤ → Repository → Repository} {r : Repository} (hid : ∀ p q, (f p q).repositoryId = q.repositoryId)
    (hfind : ∀ p, repositoryOf p db' = (repositoryOf p db).map (f p)) (hr : repositoryOf pid db = some r)
    (hstars : ∀ a q, starredBy a q db' =
      if (account, r.repositoryId) = (a, q) then starred else starredBy a q db) :
    (starBook db').stars = ((starBook db).setStar account pid starred).stars := by
  funext a p
  show starredFor a p db' = if a = account ∧ p = pid then starred else starredFor a p db
  rw [starredFor, starredFor, hfind]
  cases hp : repositoryOf p db with
  | none =>
    rw [if_neg]
    · rfl
    · rintro ⟨-, rfl⟩
      rw [hr] at hp
      cases hp
  | some q =>
    have hown : (account, r.repositoryId) = (a, q.repositoryId) ↔ a = account ∧ p = pid := by
      rw [Prod.mk.injEq]
      refine and_congr eq_comm ⟨fun hsame => ?_, ?_⟩
      · have heq : r = q := hkeys.repositories.eq_of_mem (repositoryOf_mem hr).1
          (repositoryOf_mem hp).1 hsame
        rw [← (repositoryOf_mem hp).2, ← heq, (repositoryOf_mem hr).2]
      · rintro rfl
        rw [hr] at hp
        rw [Option.some.inj hp]
    rw [Option.map_some, Option.any_some, Option.any_some, hid, hstars]
    simp only [hown]

/-- A star row is written and the mode adjusted. -/
theorem starBook_star {db db' : Database} (hkeys : Keys db) {account : Uuid} (direction : StarDirection)
    {r : Repository} (hr : repositoryOf pid db = some r)
    (hrepos : db'.repositories =
      updateWhere (fun q => decide (q.repositoryId = r.repositoryId)) direction.adjust db.repositories)
    (hstars : ∀ a q, starredBy a q db' =
      if (account, r.repositoryId) = (a, q) then direction.starred else starredBy a q db)
    (hitems : db'.snapshotItems = db.snapshotItems) :
    starBook db' = (starBook db).next (.star direction account pid) := by
  have hmodes := starBook_mode_adjusted hkeys direction.adjust_pid (direction.adjust_mode r) hr hrepos
  have hfind := repositoryOf_adjusted hkeys direction.adjust_pid hr hrepos
  have hid : ∀ p q, (if p = pid then direction.adjust q else q).repositoryId = q.repositoryId := by
    intro p q
    split
    · exact direction.adjust_id q
    · rfl
  refine StarBook.ext hmodes (starBook_stars_written hkeys hid hfind hr hstars) ?_
  funext run p
  show stagedIn run p db' = stagedIn run p db
  rw [stagedIn, stagedIn, hitems]

/-- A star row of a retired catalog is written. -/
theorem starBook_claim {db db' : Database} (hkeys : Keys db) {account : Uuid} {r : Repository}
    (hr : repositoryOf pid db = some r) (hrepos : db'.repositories = db.repositories)
    (hstars : ∀ a q, starredBy a q db' =
      if (account, r.repositoryId) = (a, q) then true else starredBy a q db)
    (hitems : db'.snapshotItems = db.snapshotItems) :
    starBook db' = (starBook db).next (.claim account pid) := by
  have hfind : ∀ p, repositoryOf p db' = (repositoryOf p db).map id := by
    intro p
    rw [repositoryOf, hrepos, Option.map_id_fun]
    rfl
  refine StarBook.ext ?_ (starBook_stars_written hkeys (fun _ _ => rfl) hfind hr hstars) ?_
  · funext p
    rw [starBook_mode, hfind, Option.map_id_fun]
    rfl
  · funext run p
    show stagedIn run p db' = stagedIn run p db
    rw [stagedIn, stagedIn, hitems]

/-- A confirmed star. -/
theorem persistConfirmedStar_book {ids : ℕ → Uuid} {now : Time} {context : MutationContext}
    {key : String} {direction : StarDirection} {status : MutationStatus}
    (h : persistConfirmedStar ids now context pid key direction c = .ok (status, c')) :
    starBook c'.tables = runFrom StarBook.next (starBook c.tables)
      [.catalogue pid, .star direction context.accountId pid] := by
  obtain ⟨id, c₁, h₁, hrepos, hstars, -⟩ := persistConfirmedStar_eq_ok h
  obtain ⟨-, r, hr, rfl⟩ := upsertRepositoryInTx_found h₁
  have hitems : c'.tables.snapshotItems = c.tables.snapshotItems :=
    (touches_persistConfirmedStar _ _ _ _ _ _).rows_eq h (t := .snapshotItems) (by decide)
  have hitems₁ : c₁.tables.snapshotItems = c.tables.snapshotItems :=
    (touches_upsertRepositoryInTx _ _).rows_eq h₁ (t := .snapshotItems) (by decide)
  rw [runFrom_cons, ← upsertRepositoryInTx_book h₁]
  exact starBook_star c₁.valid.keys _ hr hrepos (starredBy_confirmed hstars)
    (hitems.trans hitems₁.symm)

/-- An ingested entry. -/
theorem recordIngest_book {observationId : Uuid} {now : Time} {runId account repository : Uuid}
    {seenAt : Time} {u : Unit}
    (h : recordIngest observationId now runId account repository seenAt c = .ok (u, c')) :
    starBook c'.tables = runFrom StarBook.next (starBook c.tables)
      ((c.tables.repositories.find? fun r => decide (r.repositoryId = repository)).map fun r =>
        BookEvent.star .add account r.providerRepositoryId).toList := by
  obtain ⟨hrepos, hstars⟩ := recordIngest_spec h
  have hitems : c'.tables.snapshotItems = c.tables.snapshotItems :=
    (touches_recordIngest _ _ _ _ _ _).rows_eq h (t := .snapshotItems) (by decide)
  -- The star row refers to a repository, so its id is in the catalog.
  have hmem : repository ∈ c'.tables.repositories.map (·.repositoryId) :=
    mem_of_starredBy c'.valid.foreignKeys (by rw [hstars account, if_pos rfl])
  have hids : c'.tables.repositories.map (·.repositoryId) =
      c.tables.repositories.map (·.repositoryId) := by
    rw [hrepos]
    exact map_updateWhere (fun r => r.promote_repositoryId) _
  obtain ⟨r, hr, rfl⟩ := List.mem_map.mp (hids ▸ hmem)
  rw [c.valid.keys.repositories.find?_eq hr]
  exact starBook_star c.valid.keys .add (repositoryOf_eq c.valid.keys hr) hrepos
    hstars hitems

/-- The mode that a request reads inside its transaction. -/
theorem fetchMode_found {r : Repository} {current : Option RepositoryMode}
    (hr : repositoryOf pid c.tables = some r)
    (h : fetchMode r.repositoryId c = .ok (current, c')) : current = r.mode ∧ c = c' := by
  obtain ⟨hfind, hsame⟩ := fetchOne_eq_ok.mp h
  rw [c.valid.keys.repositories.find?_eq (repositoryOf_mem hr).1] at hfind
  exact ⟨(Option.some.inj hfind).symm, hsame⟩

/-- A mode is set. -/
theorem setMode_book {r : Repository} {mode : RepositoryMode} {u : Unit}
    (hr : repositoryOf pid c.tables = some r) (h : setMode r.repositoryId mode c = .ok (u, c')) :
    starBook c'.tables = (starBook c.tables).adjust pid fun _ => some mode := by
  have htables := write_eq_ok.mp h
  refine starBook_adjusted (f := fun q => { q with mode := some mode }) c.valid.keys (fun _ => rfl)
    (fun _ => rfl) rfl hr ?_ ?_ ?_
  all_goals rw [htables]; rfl

/-- A tracked repository. -/
theorem trackRepository_book {fresh : Uuid} {now : Time} {outcome : TrackOutcome}
    (h : trackRepository fresh now pid c = .ok (outcome, c')) :
    starBook c'.tables = runFrom StarBook.next (starBook c.tables) [.catalogue pid, .track pid] := by
  obtain ⟨id, c₁, h₁, hrest⟩ := Tx.bind_eq_ok.mp h
  obtain ⟨-, r, hr, rfl⟩ := upsertRepositoryInTx_found h₁
  obtain ⟨mode, c₂, h₂, hrest⟩ := Tx.bind_eq_ok.mp hrest
  obtain ⟨rfl, rfl⟩ := fetchMode_found hr h₂
  rw [runFrom_cons, ← upsertRepositoryInTx_book h₁]
  show _ = (starBook c₁.tables).adjust pid fun _ => some .tracked
  split at hrest
  · next htracked =>
    obtain ⟨-, rfl⟩ := Tx.pure_eq_ok.mp hrest
    rw [StarBook.adjust_of_same]
    rw [starBook_mode, hr, Option.map_some, htracked, Option.map_some]
  · obtain ⟨u, c₃, h₃, hrest⟩ := Tx.bind_eq_ok.mp hrest
    obtain ⟨u', c₄, h₄, hdone⟩ := Tx.bind_eq_ok.mp hrest
    obtain ⟨-, rfl⟩ := Tx.pure_eq_ok.mp hdone
    rw [← setMode_book hr h₃]
    exact starBook_of_agreeOff (touches_markBackupPolicyDirtyInTx now _ _ _ h₄) (by decide) (by decide)
      (by decide)

/-- A mode request. -/
theorem setRepositoryModeInTx_book {ids : ℕ → Uuid} {now : Time} {context : MutationContext}
    {requested : RequestedMode} {key : String} {status : MutationStatus}
    (h : setRepositoryModeInTx ids now context pid requested key c = .ok (status, c')) :
    starBook c'.tables = runFrom StarBook.next (starBook c.tables)
      [.catalogue pid, .request context.accountId pid requested] := by
  rw [setRepositoryModeInTx_eq] at h
  obtain ⟨id, c₁, h₁, hrest⟩ := Tx.bind_eq_ok.mp h
  obtain ⟨-, r, hr, rfl⟩ := upsertRepositoryInTx_found h₁
  obtain ⟨current, c₂, h₂, hrest⟩ := Tx.bind_eq_ok.mp hrest
  obtain ⟨rfl, rfl⟩ := fetchMode_found hr h₂
  obtain ⟨starred, c₃, h₃, happly⟩ := Tx.bind_eq_ok.mp hrest
  obtain ⟨rfl, rfl⟩ := select_eq_ok.mp h₃
  have hstarred : (starBook c₁.tables).stars context.accountId pid =
      starredBy context.accountId r.repositoryId c₁.tables := by
    rw [starBook_stars, starredFor, hr, Option.any_some]
  rw [runFrom_cons, ← upsertRepositoryInTx_book h₁]
  show _ = (starBook c₁.tables).adjust pid fun mode =>
    if (validateMode requested ((starBook c₁.tables).stars context.accountId pid)).isSome then mode
    else some requested.mode
  rw [hstarred]
  unfold applyRequestedMode at happly
  cases hvalid : validateMode requested (starredBy context.accountId r.repositoryId c₁.tables) with
  | some reason =>
    rw [hvalid] at happly
    obtain ⟨won, c₄, h₄, hdone⟩ := Tx.bind_eq_ok.mp happly
    obtain ⟨-, rfl⟩ := Tx.pure_eq_ok.mp hdone
    simp only [Option.isSome_some, if_true, StarBook.adjust_of_same Option.map_id']
    exact starBook_of_agreeOff (touches_insertAuditRow _ _ _ _ h₄) (by decide) (by decide) (by decide)
  | none =>
    rw [hvalid] at happly
    obtain ⟨u, c₄, h₄, hrest⟩ := Tx.bind_eq_ok.mp happly
    have haudit : starBook c'.tables = starBook c₄.tables := by
      have hframe : AgreeOff [.mutationAudit] c₄.tables c'.tables :=
        ((touches_insertAuditRow _).bind fun _ =>
          (touches_finishWithReplayGuard _ _).mono (by decide)) _ _ _ hrest
      exact starBook_of_agreeOff hframe (by decide) (by decide) (by decide)
    rw [haudit]
    by_cases hsame : r.mode = some requested.mode
    · rw [decide_eq_true hsame] at h₄
      obtain ⟨-, rfl⟩ := Tx.pure_eq_ok.mp h₄
      rw [StarBook.adjust_of_same]
      rw [starBook_mode, hr, Option.map_some, hsame, Option.map_some]
      rfl
    · rw [decide_eq_false hsame] at h₄
      obtain ⟨u', c₅, h₅, h₆⟩ := Tx.bind_eq_ok.mp h₄
      have hmark := starBook_of_agreeOff (touches_markBackupPolicyDirtyInTx now _ _ _ h₆) (by decide)
        (by decide) (by decide)
      rw [hmark, setMode_book hr h₅]
      rfl

end repository

/-! ### Snapshots -/

section snapshots

variable {c c' : Catalog} {runId accountId : Uuid} {now : Time}

/-- The listings of some runs are dropped. -/
theorem stagedIn_dropped {db db' : Database} (gone : Uuid → Bool)
    (hitems : db'.snapshotItems = deleteWhere (fun i => gone i.syncRunId) db.snapshotItems)
    (run : Uuid) (pid : ℤ) : stagedIn run pid db' = (stagedIn run pid db && !gone run) := by
  rw [stagedIn, hitems]
  refine any_deleteWhere (fun i hi => ?_) _
  rw [Bool.and_eq_true, decide_eq_true_eq] at hi
  rw [hi.1]

/-- A page is staged. -/
theorem recordPage_book {k : Contracts} {checkpointId : Uuid} {page : ℕ} {items : List StarredItem}
    {u : Unit} (h : recordPage k checkpointId now runId page items c = .ok (u, c')) :
    starBook c'.tables =
      (starBook c.tables).next (.stage runId (items.map (·.repo.providerRepositoryId))) := by
  obtain ⟨-, htables⟩ := recordPage_spec h
  rw [htables]
  refine StarBook.ext rfl rfl ?_
  funext run pid
  show stagedIn run pid _ = (stagedIn run pid c.tables || _)
  rw [stagedIn, List.any_append, ← stagedIn, Bool.eq_iff_iff]
  simp only [Bool.or_eq_true, Bool.and_eq_true, List.any_eq_true, List.mem_map, decide_eq_true_eq]
  apply or_congr_right
  constructor
  · rintro ⟨_, ⟨⟨item, n⟩, hitem, rfl⟩, rfl, rfl⟩
    exact ⟨rfl, item, List.fst_mem_of_mem_zipIdx hitem, rfl⟩
  · rintro ⟨rfl, item, hitem, rfl⟩
    obtain ⟨n, hn, rfl⟩ := List.mem_iff_getElem.mp hitem
    exact ⟨_, ⟨(items[n], n), List.mk_mem_zipIdx_iff_getElem?.mpr (List.getElem?_eq_getElem hn), rfl⟩,
      rfl, rfl⟩

/-- A run gives up. -/
theorem failRun_book {reason : String} {u : Unit} (h : failRun now runId reason c = .ok (u, c')) :
    starBook c'.tables = (starBook c.tables).next (.discard runId) := by
  have hframe := touches_failRun now runId reason _ _ _ h
  have hitems : c'.tables.snapshotItems =
      deleteWhere (fun i => decide (i.syncRunId = runId)) c.tables.snapshotItems := by
    obtain ⟨u₁, c₁, h₁, hrest⟩ := Tx.bind_eq_ok.mp h
    obtain ⟨u₂, c₂, h₂, h₃⟩ := Tx.bind_eq_ok.mp hrest
    rw [write_eq_ok.mp h₃, write_eq_ok.mp h₂, write_eq_ok.mp h₁]
    rfl
  have hrepos : c'.tables.repositories = c.tables.repositories := hframe .repositories (by decide)
  have hstars : c'.tables.currentStarState = c.tables.currentStarState :=
    hframe .currentStarState (by decide)
  apply StarBook.ext
  · funext pid
    rw [starBook_mode, repositoryOf, hrepos]
    rfl
  · funext account pid
    exact starredFor_map (f := id) account (fun _ => rfl) (by rw [repositoryOf, hrepos, Option.map_id_fun]; rfl) hstars
  · funext run pid
    rw [starBook_staged, stagedIn_dropped (fun r => decide (r = runId)) hitems, ← decide_not]
    rfl

/-- The staging a swap leaves. -/
theorem applyAuthority_items {ids unstarIds : ℕ → Uuid} {counts : ℕ × ℕ × ℕ × ℕ}
    (h : applyAuthorityAndComplete ids unstarIds now runId accountId c = .ok (counts, c')) :
    c'.tables.snapshotItems =
      deleteWhere (fun i => decide (i.syncRunId = runId)) c.tables.snapshotItems := by
  simp only [applyAuthorityAndComplete, Tx.bind_eq_ok, select_eq_ok, Tx.pure_eq_ok] at h
  obtain ⟨_, _, ⟨-, rfl⟩, ⟨⟩, c₁, h₁, ⟨⟩, c₂, h₂, ⟨⟩, c₃, h₃, n, c₄, h₄, ⟨⟩, c₅, h₅, ⟨⟩, c₆, h₆,
    pair, c₇, h₇, -, rfl⟩ := h
  have h₂' : c₂.tables.snapshotItems = c.tables.snapshotItems := by
    rw [write_eq_ok.mp h₂, write_eq_ok.mp h₁]
    rfl
  have h₄' : c₄.tables.snapshotItems = c₂.tables.snapshotItems :=
    ((touches_unstarAbsentRepositories _ _ _ _).rows_eq h₄ (t := .snapshotItems) (by decide)).trans
      ((touches_promoteSeenRepositories _ _ _).rows_eq h₃ (t := .snapshotItems) (by decide))
  have h₅' : c₅.tables.snapshotItems = c₄.tables.snapshotItems := by
    rw [write_eq_ok.mp h₅]
    rfl
  have h₇' : c₇.tables.snapshotItems = c₆.tables.snapshotItems :=
    (touches_completeRunRow _ _ _ _).rows_eq h₇ (t := .snapshotItems) (by decide)
  rw [h₇', write_eq_ok.mp h₆, ← h₂', ← h₄', ← h₅']
  rfl

theorem Repository.reconciled_pid (staged starred : Bool) (r : Repository) :
    (r.reconciled staged starred).providerRepositoryId = r.providerRepositoryId := by
  cases staged <;> cases starred <;> simp [reconciled]

theorem Repository.reconciled_mode (staged starred : Bool) (r : Repository) :
    (r.reconciled staged starred).mode = reconciledMode staged starred r.mode := by
  obtain ⟨id, pid, mode⟩ := r
  rcases mode with _ | _ | _ | _ <;> cases staged <;> cases starred <;> rfl

/-- A run becomes the account's stars. -/
theorem applyAuthority_book {ids unstarIds : ℕ → Uuid} {counts : ℕ × ℕ × ℕ × ℕ}
    (h : applyAuthorityAndComplete ids unstarIds now runId accountId c = .ok (counts, c')) :
    starBook c'.tables = (starBook c.tables).next (.reconcile runId accountId) := by
  obtain ⟨hrepos, hstars⟩ := applyAuthority_spec h
  have hfind : ∀ pid, repositoryOf pid c'.tables = (repositoryOf pid c.tables).map fun r =>
      r.reconciled (stagedIn runId r.providerRepositoryId c.tables)
        (starredBy accountId r.repositoryId c.tables) := by
    intro pid
    rw [repositoryOf, hrepos, List.find?_map]
    have hpid : ((fun r : Repository => decide (r.providerRepositoryId = pid)) ∘ fun r : Repository =>
        r.reconciled (stagedIn runId r.providerRepositoryId c.tables)
          (starredBy accountId r.repositoryId c.tables)) =
        fun r => decide (r.providerRepositoryId = pid) := by
      funext r
      exact congrArg (fun p => decide (p = pid)) (Repository.reconciled_pid _ _ r)
    rw [hpid, repositoryOf]
  apply StarBook.ext
  · funext pid
    show (repositoryOf pid c'.tables).map (·.mode) = ((repositoryOf pid c.tables).map (·.mode)).map
      (reconciledMode (stagedIn runId pid c.tables) (starredFor accountId pid c.tables))
    rw [hfind, starredFor]
    cases hp : repositoryOf pid c.tables with
    | none => rfl
    | some r =>
      rw [Option.map_some, Option.map_some, Option.map_some, Option.map_some, Option.any_some,
        Repository.reconciled_mode, (repositoryOf_mem hp).2]
  · funext account pid
    show starredFor account pid c'.tables = if account = accountId then
      stagedIn runId pid c.tables && ((repositoryOf pid c.tables).map (·.mode)).isSome
      else starredFor account pid c.tables
    rw [starredFor, starredFor, hfind]
    cases hp : repositoryOf pid c.tables with
    | none => simp
    | some r =>
      obtain ⟨hr, rfl⟩ := repositoryOf_mem hp
      have hstaged : decide (r.repositoryId ∈ stagedIds runId c.tables) =
          stagedIn runId r.providerRepositoryId c.tables := by
        rw [Bool.eq_iff_iff, decide_eq_true_eq]
        exact mem_stagedIds c.valid.keys hr
      rw [Option.map_some, Option.any_some, Option.any_some, Repository.reconciled_repositoryId, hstars,
        hstaged, Option.map_some, Option.isSome_some, Bool.and_true]
  · funext run pid
    rw [starBook_staged,
      stagedIn_dropped (fun r => decide (r = runId)) (applyAuthority_items h), ← decide_not]
    rfl

end snapshots

/-! ### Imports -/

section imports

variable {now : Time} {sourceId : String} {c c' : Catalog}

/-- A new record catalogues its repository and claims its star. -/
theorem importNewLegacyRepository_book {ids : ℕ → Uuid} {record : LegacyRepository} {account : Uuid}
    {counts : ImportCounts}
    (h : importNewLegacyRepository ids now sourceId record account c = .ok (counts, c')) :
    starBook c'.tables = runFrom StarBook.next (starBook c.tables)
      (.catalogue record.providerRepositoryId ::
        if record.starred then [.claim account record.providerRepositoryId] else []) := by
  simp only [importNewLegacyRepository, Tx.bind_eq_ok, Tx.pure_eq_ok] at h
  obtain ⟨repository, c₁, h₁, ⟨⟩, c₂, h₂, ⟨⟩, c₃, h₃, n, c₄, h₄, ⟨⟩, c₅, h₅, -, rfl⟩ := h
  obtain ⟨-, r, hr, rfl⟩ := upsertRepositoryInTx_found h₁
  have halias : AgreeOff [.repositoryAliases] c₁.tables c₂.tables :=
    touches_recordLegacyAlias _ _ _ _ _ _ _ _ h₂
  have hlast : starBook c₅.tables = starBook c₃.tables := by
    have hclaims := starBook_of_agreeOff (touches_importLegacyListClaims _ _ _ _ _ _ _ _ _ h₄)
      (by decide) (by decide) (by decide)
    have hrecords : AgreeOff [.legacyImportRepositoryRecords] c₄.tables c₅.tables :=
      Touches.write (List.mem_singleton.mpr rfl) _ _ _ _ h₅
    rw [← hclaims]
    exact starBook_of_agreeOff hrecords (by decide) (by decide) (by decide)
  have hfirst : starBook c₂.tables = (starBook c.tables).next (.catalogue record.providerRepositoryId) :=
    (starBook_of_agreeOff halias (by decide) (by decide) (by decide)).trans (upsertRepositoryInTx_book h₁)
  rw [hlast, runFrom_cons, ← hfirst]
  unfold onlyIf at h₃
  split at h₃
  · next hstarred =>
    have hstar := touches_importLegacyStar _ _ _ _ _ _ _ h₃
    have hr₂ : repositoryOf record.providerRepositoryId c₂.tables = some r := by
      rw [repositoryOf, show c₂.tables.repositories = c₁.tables.repositories from
        halias .repositories (by decide)]
      exact hr
    rw [if_pos hstarred]
    exact starBook_claim c₂.valid.keys hr₂ (hstar .repositories (by decide)) (importLegacyStar_spec h₃)
      (hstar .snapshotItems (by decide))
  · next hstarred =>
    obtain ⟨-, rfl⟩ := Tx.pure_eq_ok.mp h₃
    rw [if_neg hstarred]
    rfl

/-- The records of an import, one after the other. -/
theorem importLegacyRepositories_book {ids : ℕ → ℕ → Uuid} {accounts : List (ℤ × Uuid)}
    {request : LegacyImportRequest} {before after : Database}
    (hbound : ∀ user a, accounts.lookup user = some a → boundAccount request.sourceId user after = some a)
    {records : List (LegacyRepository × ℕ)} {counts : ImportCounts} {seen : List ℤ}
    (h : importLegacyRepositories ids now request.sourceId accounts records c = .ok (counts, c'))
    (hprogress : ImportProgress request.sourceId seen before c.tables) :
    starBook c'.tables = runFrom StarBook.next (starBook c.tables)
      ((newRecords request.sourceId before seen (records.map Prod.fst)).flatMap
        (·.starEvents request.sourceId after)) := by
  induction records generalizing c counts seen with
  | nil =>
    obtain ⟨-, rfl⟩ := Tx.pure_eq_ok.mp h
    rfl
  | cons p rest ih =>
    obtain ⟨record, n⟩ := p
    simp only [importLegacyRepositories, Tx.bind_eq_ok, Tx.pure_eq_ok] at h
    obtain ⟨first, c₁, h₁, others, c₂, h₂, -, rfl⟩ := h
    rw [List.map_cons, newRecords, ← hprogress.imported]
    simp only [importLegacyRepository, Tx.bind_eq_ok, select_eq_ok] at h₁
    obtain ⟨already, _, ⟨halready, rfl⟩, h₁⟩ := h₁
    rw [halready]
    cases already with
    | true =>
      obtain ⟨-, rfl⟩ := Tx.pure_eq_ok.mp h₁
      exact ih h₂ hprogress
    | false =>
      cases hlookup : accounts.lookup record.legacyUserId with
      | none =>
        rw [hlookup] at h₁
        exact (abort_eq_ok.mp h₁).elim
      | some account =>
        rw [hlookup] at h₁
        obtain ⟨repository, hwritten⟩ := importNewLegacyRepository_writes h₁
        rw [if_neg Bool.false_ne_true, List.flatMap_cons, runFrom_append, LegacyRepository.starEvents,
          hbound _ _ hlookup, Option.map_some, Option.toList_some, ← importNewLegacyRepository_book h₁]
        exact ih h₂ (hprogress.written hwritten)

/-- **An import** does the events of its new records. -/
theorem importLegacyTransaction_book {accountIds : ℤ → Uuid} {ids : ℕ → ℕ → Uuid}
    {request : LegacyImportRequest} {importRunId : Uuid} {out : ℕ × ImportCounts}
    (h : importLegacyTransaction accountIds ids now request importRunId c = .ok (out, c')) :
    starBook c'.tables = runFrom StarBook.next (starBook c.tables)
      ((newRecords request.sourceId c.tables [] request.snapshot.repositories).flatMap
        (·.starEvents request.sourceId c'.tables)) := by
  simp only [importLegacyTransaction, Tx.bind_eq_ok, attempt_eq_ok, Tx.pure_eq_ok] at h
  obtain ⟨integrations, _, ⟨-, rfl⟩, owners, _, ⟨-, rfl⟩, ⟨accounts, n⟩, c₁, h₁,
    counts, c₂, h₂, ⟨⟩, c₃, h₃, -, rfl⟩ := h
  obtain ⟨-, husers, hresolved⟩ := importLegacyAccounts_spec h₁
  have hframe : AgreeOff [.githubAccounts, .legacyImportAccounts] c.tables c₁.tables :=
    touches_importLegacyAccounts _ _ _ _ _ _ _ h₁
  have hlast : AgreeOff [.legacyImportRuns] c₂.tables c₃.tables :=
    Touches.write (List.mem_singleton.mpr rfl) _ _ _ _ h₃
  have hbindings : c₃.tables.legacyImportAccounts = c₁.tables.legacyImportAccounts :=
    (hlast .legacyImportAccounts (by decide)).trans
      ((touches_importLegacyRepositories _ _ _ _ _).rows_eq h₂ (t := .legacyImportAccounts) (by decide))
  have hbound : ∀ user a, accounts.lookup user = some a →
      boundAccount request.sourceId user c₃.tables = some a := by
    intro user a ha
    have hmem : user ∈ owners.map Prod.fst := by
      rw [← husers]
      exact List.mem_map_of_mem (mem_of_lookup ha)
    obtain ⟨owner, howner⟩ := lookup_of_mem hmem
    obtain ⟨b, hb, hres⟩ := hresolved user owner howner
    cases ha.symm.trans hb
    rw [boundAccount, hbindings]
    exact hres.bound
  have hprogress : ImportProgress request.sourceId [] c.tables c₁.tables := by
    refine ⟨⟨[], ?_⟩, fun record => ?_⟩
    · rw [List.append_nil]
      exact hframe .repositories (by decide)
    · rw [alreadyImported, alreadyImported,
        show c₁.tables.legacyImportRepositoryRecords = c.tables.legacyImportRepositoryRecords from
          hframe .legacyImportRepositoryRecords (by decide)]
      exact (Bool.or_false _).symm
  have hloop := importLegacyRepositories_book hbound h₂ hprogress
  rw [List.zipIdx_map_fst, starBook_of_agreeOff hframe (by decide) (by decide) (by decide)] at hloop
  rw [← hloop]
  exact starBook_of_agreeOff hlast (by decide) (by decide) (by decide)

end imports

/-! ### Erasures -/

/-- An erasure forgets the owner's accounts and runs, and the repositories nothing else names. -/
theorem eraseAccount_book {now : Time} {owner : String} {operation : AccountErasureOperation}
    {c c' : Catalog} (h : eraseAccountInTx now owner operation c = .ok ((), c')) :
    starBook c'.tables = (starBook c.tables).next (erasureEvent owner c.tables) := by
  obtain ⟨c₁, h₁, hrecord⟩ := eraseAccountInTx_eq_ok h
  have htables := eraseOwnerState_eq h₁
  have hrepos : c₁.tables.repositories =
      deleteWhere (fun r => decide (r.repositoryId ∈ collected owner c.tables)) c.tables.repositories := by
    rw [htables]
    rfl
  have hstars : c₁.tables.currentStarState =
      deleteWhere (fun s => ownsAccount owner c.tables s.accountId) c.tables.currentStarState := by
    rw [htables]
    rfl
  have hitems : c₁.tables.snapshotItems =
      deleteWhere (fun i => ownsSyncRun owner c.tables i.syncRunId) c.tables.snapshotItems := by
    rw [htables]
    rfl
  have hstarred : ∀ a q, starredBy a q c₁.tables =
      (starredBy a q c.tables && !ownsAccount owner c.tables a) := by
    intro a q
    rw [starredBy, hstars]
    refine any_deleteWhere (fun s hs => ?_) _
    simp only [Bool.and_eq_true, decide_eq_true_eq] at hs
    rw [hs.1.1]
  have hfind := repositoryOf_deleted c.valid.keys c₁.valid.keys hrepos
  rw [starBook_of_agreeOff hrecord (by decide) (by decide) (by decide)]
  apply StarBook.ext
  · funext pid
    show (repositoryOf pid c₁.tables).map (·.mode) = if (repositoryOf pid c.tables).any (fun r =>
      decide (r.repositoryId ∈ collected owner c.tables)) then none else (repositoryOf pid c.tables).map (·.mode)
    rw [hfind]
    cases repositoryOf pid c.tables with
    | none => rfl
    | some r => by_cases hgone : r.repositoryId ∈ collected owner c.tables <;> simp [hgone]
  · funext a pid
    show starredFor a pid c₁.tables = (starredFor a pid c.tables && !ownsAccount owner c.tables a)
    rw [starredFor, starredFor, hfind]
    cases hp : repositoryOf pid c.tables with
    | none => rfl
    | some r =>
      rw [Option.any_some, ← hstarred]
      by_cases hgone : r.repositoryId ∈ collected owner c.tables
      · -- No remaining star row names a collected repository.
        have hunstarred : starredBy a r.repositoryId c₁.tables = false := by
          rw [← Bool.not_eq_true]
          intro hstar
          obtain ⟨q, hq, hid⟩ := List.mem_map.mp (mem_of_starredBy c₁.valid.foreignKeys hstar)
          rw [hrepos] at hq
          have hkept := (mem_deleteWhere.mp hq).2
          rw [hid, decide_eq_true hgone] at hkept
          cases hkept
        rw [hunstarred]
        simp [hgone]
      · simp [hgone]
  · funext run pid
    exact stagedIn_dropped _ hitems run pid

/-! ### Operations and histories -/

/-- The events of an operation of a history. -/
def stepEvents (k : Contracts) (c : Catalog) (op : Operation) : List BookEvent :=
  if op.admissible c.tables then op.starEvents k c else []

/-- An operation that writes none of the book's tables. -/
theorem starBook_untouched {k : Contracts} {c : Catalog} {op : Operation}
    (hrepos : op.leaves .repositories = true) (hstars : op.leaves .currentStarState = true)
    (hitems : op.leaves .snapshotItems = true) :
    starBook (op.commit k c).tables = starBook c.tables :=
  starBook_of_eq (op.rows_commit k c .repositories hrepos) (op.rows_commit k c .currentStarState hstars)
    (op.rows_commit k c .snapshotItems hitems)

/-- A transaction that catalogues a repository and then writes other tables than the book's. -/
theorem starBook_catalogues {α : Type} {fresh : Uuid} {pid : ℤ} {x : Uuid → Tx α} (ts : List Table)
    (hx : ∀ r, Touches ts (x r)) (hrepos : .repositories ∉ ts) (hstars : .currentStarState ∉ ts)
    (hitems : .snapshotItems ∉ ts) {c c' : Catalog} {a : α}
    (h : (upsertRepositoryInTx fresh pid >>= x) c = .ok (a, c')) :
    starBook c'.tables = (starBook c.tables).next (.catalogue pid) := by
  obtain ⟨r, c₁, h₁, h₂⟩ := Tx.bind_eq_ok.mp h
  rw [starBook_of_agreeOff (hx r _ _ _ h₂) hrepos hstars hitems]
  exact upsertRepositoryInTx_book h₁

/-- **One operation** does its events. -/
theorem starBook_commit_op (k : Contracts) (c : Catalog) (op : Operation) :
    starBook (op.commit k c).tables =
      runFrom StarBook.next (starBook c.tables) (op.starEvents k c) := by
  cases op with
  | upsertRepository => exact starBook_commit fun _ h => upsertRepositoryInTx_book h
  | applyAliasObservation ids now pid kind old value =>
    refine starBook_commit fun _ h => starBook_catalogues [.repositoryAliases] (fun r => ?_)
      (by decide) (by decide) (by decide) h
    refine (touches_observedAliasInTx _ _ _ _ _).bind fun aliasId => ?_
    cases old.filter (· ≠ value) with
    | some oldValue => exact (Touches.write (by decide) _).bind fun _ => Touches.pure _
    | none => exact (Touches.pure ()).bind fun _ => Touches.pure _
  | recordPage => exact starBook_commit fun _ h => recordPage_book h
  | failRun => exact starBook_commit fun _ h => failRun_book h
  | applyAuthority => exact starBook_commit fun _ h => applyAuthority_book h
  | recordIngest => exact starBook_commit fun _ h => recordIngest_book h
  | recordAttempt =>
    refine starBook_commit fun _ h => starBook_catalogues [.mutationAudit] (fun r => ?_)
      (by decide) (by decide) (by decide) h
    exact (touches_insertAuditRow _).bind fun _ => Touches.pure _
  | persistConfirmedStar => exact starBook_commit fun _ h => persistConfirmedStar_book h
  | persistListMembership =>
    refine starBook_commit fun _ h => starBook_catalogues [.starListMemberships, .mutationAudit]
      (fun r => ?_) (by decide) (by decide) (by decide) h
    exact ((touches_convergeMembershipProjection _ _ _ _).mono (by decide)).bind fun _ =>
      ((touches_insertAuditRow _).mono (by decide)).bind fun _ =>
        (touches_finishWithReplayGuard _ _).mono (by decide)
  | trackRepository => exact starBook_commit fun _ h => trackRepository_book h
  | setRepositoryMode => exact starBook_commit fun _ h => setRepositoryModeInTx_book h
  | importLegacy => exact starBook_commit fun _ h => importLegacyTransaction_book h
  | eraseAccount => exact starBook_commit fun _ h => eraseAccount_book h
  | _ => exact starBook_untouched rfl rfl rfl

theorem starBook_step (k : Contracts) (c : Catalog) (op : Operation) :
    starBook (step k c op).tables = runFrom StarBook.next (starBook c.tables) (stepEvents k c op) := by
  unfold step stepEvents
  split
  · exact starBook_commit_op k c op
  · rfl

/-- A run does the events of its operations. -/
theorem starBook_run (k : Contracts) (c : Catalog) (history : List Operation) :
    starBook (runFrom (step k) c history).tables = runFrom StarBook.next (starBook c.tables)
      (Refinement.trace (step k) (stepEvents k) c history) :=
  Refinement.runFrom_trace (fun c : Catalog => starBook c.tables) (starBook_step k) c history

/-- **The catalog refines the star book.**  After any history of operations, in any interleaving, the
catalog keeps the book that the events of the history make of the empty one. -/
theorem starBook_refines (k : Contracts) (history : List Operation) :
    starBook (runFrom (step k) emptyCatalog history).tables =
      runFrom StarBook.next StarBook.empty
        (Refinement.trace (step k) (stepEvents k) emptyCatalog history) :=
  starBook_run k emptyCatalog history

/-- **Stars follow the evidence.**  After any history an account stars a repository exactly when the last
event of the history that said anything about that star said so. -/
theorem starredFor_last_evidence (k : Contracts) (history : List Operation) (account : Uuid) (pid : ℤ) :
    starredFor account pid (runFrom (step k) emptyCatalog history).tables =
      (Refinement.lastWrite StarBook.next (StarBook.evidence account pid) StarBook.empty
        (Refinement.trace (step k) (stepEvents k) emptyCatalog history)).getD false := by
  have hrun := starBook_run k emptyCatalog history
  have hstars := congrArg (fun b => StarBook.stars b account pid) hrun
  exact hstars.trans (StarBook.stars_last account pid StarBook.empty _)

end GithubCatalog
