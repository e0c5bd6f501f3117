import GithubCatalog.Snapshot
import Mathlib.Data.List.Sort

/-!
# Importing the retired catalog (`legacy.rs`)

An inspected snapshot of the retired schema is imported in one transaction: accounts that await
re-authorization, repositories with their `owner/name` alias, star claims of unknown time and list
name claims.  A record already imported under its source label is skipped.

The supply `ids` of an import draws an identifier for each row it may create: `ids user 0` for an
account, `ids n 0`, `ids n 1`, `ids n 2` for the repository, the alias and the observation of record
`n` (two supplies).
-/

namespace GithubCatalog

open Relational Transact

structure LegacyRepository where
  legacyRepositoryId : ℤ
  providerRepositoryId : ℤ
  owner : String
  name : String
  legacyUserId : ℤ
  starred : Bool
  observedAt : Option Time
  listNames : List String
deriving DecidableEq

structure LegacyIntegration where
  legacyUserId : ℤ
  grantedScopes : Option String
  login : Option String
  providerUserId : Option ℤ
deriving DecidableEq

structure LegacySnapshot where
  repositories : List LegacyRepository
  integrations : List LegacyIntegration
deriving DecidableEq

/-- `LegacyImportRequest`; the owner map is a list of (retired user, current owner). -/
structure LegacyImportRequest where
  sourceId : String
  ownerMap : List (ℤ × String)
  snapshot : LegacySnapshot
deriving DecidableEq

structure ImportCounts where
  repositories : ℕ := 0
  starClaims : ℕ := 0
  listClaims : ℕ := 0
deriving DecidableEq

def ImportCounts.add (a b : ImportCounts) : ImportCounts :=
  ⟨a.repositories + b.repositories, a.starClaims + b.starClaims, a.listClaims + b.listClaims⟩

/-! ### Validation before any write -/

/-- `valid_source_id`: the same words as the schema's pattern. -/
def validSourceId (text : String) : Bool := isSourceId text

/-- `integrations_by_user`. -/
def integrationsByUser : List LegacyIntegration → Except CatalogError (List LegacyIntegration)
  | [] => .ok []
  | i :: rest => do
    let others ← integrationsByUser rest
    if i.legacyUserId ≤ 0 ∨ i.providerUserId.any (fun n => decide (n ≤ 0)) ∨
        others.any (fun j => decide (j.legacyUserId = i.legacyUserId)) then
      .error .conflictingSourceData
    else .ok (i :: others)

/-- The retired users of a snapshot in map order, each with its current owner. -/
def ownerRefs (request : LegacyImportRequest) (integrations : List LegacyIntegration) :
    Except CatalogError (List (ℤ × String)) :=
  let users := (request.snapshot.repositories.map (·.legacyUserId) ++
    integrations.map (·.legacyUserId)).dedup.insertionSort fun a b => a ≤ b
  users.mapM fun user =>
    (request.ownerMap.lookup user).elim (.error .unmappedLegacyUser) fun owner => .ok (user, owner)

/-! ### Accounts -/

/-- The scopes of a retired grant text. -/
def scopesOf (text : Option String) : List String :=
  text.elim [] fun t => ((splitText ',' t).map trimText).filter fun s => decide (s ≠ "")

/-- The current owner's account of the same provider user, when the integration names one. -/
def existingProviderAccount (ownerRef : String) (providerUserId : Option ℤ) (db : Database) :
    Option Uuid :=
  providerUserId.bind fun n =>
    (db.githubAccounts.find? fun a =>
      decide (a.ownerRef = ownerRef) && decide (a.providerUserId = some n)).map (·.accountId)

/-- Create the account of a retired user unless the owner already has it. -/
def createLegacyAccount (fresh : Uuid) (ownerRef : String) (integration : Option LegacyIntegration) :
    Tx Uuid := do
  let existing ← select (existingProviderAccount ownerRef (integration.bind (·.providerUserId)))
  match existing with
  | some accountId => pure accountId
  | none => do
    write .githubAccounts fun db => db.githubAccounts ++
      [⟨fresh, ownerRef, .reauthorizationRequired, integration.bind (·.providerUserId),
        integration.bind (·.login), scopesOf (integration.bind (·.grantedScopes))⟩]
    pure fresh

/-- `imported_account_id`: the account of a retired user, and whether it was bound now. -/
def importedAccountId (fresh : Uuid) (sourceId : String) (legacyUserId : ℤ) (ownerRef : String)
    (integration : Option LegacyIntegration) : Tx (Uuid × Bool) := do
  let bound ← select fun db => (db.legacyImportAccounts.find? fun a =>
    decide (a.sourceId = sourceId) && decide (a.legacyUserId = legacyUserId)).map (·.accountId)
  match bound with
  | some accountId => pure (accountId, false)
  | none => do
    let accountId ← createLegacyAccount fresh ownerRef integration
    write .legacyImportAccounts fun db =>
      db.legacyImportAccounts ++ [⟨sourceId, legacyUserId, accountId⟩]
    pure (accountId, true)

/-- `import_legacy_accounts`. -/
def importLegacyAccounts (ids : ℤ → Uuid) (sourceId : String)
    (integrations : List LegacyIntegration) :
    List (ℤ × String) → Tx (List (ℤ × Uuid) × ℕ)
  | [] => pure ([], 0)
  | (legacyUserId, ownerRef) :: rest => do
    let (accountId, imported) ← importedAccountId (ids legacyUserId) sourceId legacyUserId ownerRef
      (integrations.find? fun i => decide (i.legacyUserId = legacyUserId))
    let (accounts, count) ← importLegacyAccounts ids sourceId integrations rest
    pure ((legacyUserId, accountId) :: accounts, count + imported.toNat)

/-! ### Repositories -/

/-- `record_legacy_alias`. -/
def recordLegacyAlias (fresh : Uuid) (now : Time) (repositoryId : Uuid) (owner name : String) :
    Tx Unit :=
  if owner = "" ∨ name = "" then abort .conflictingSourceData
  else do
    match ← select (activeAliasHolder .ownerName (owner ++ "/" ++ name)) with
    | some (_, holder) => if holder ≠ repositoryId then abort .aliasConflict else pure ()
    | none =>
      write .repositoryAliases fun db => db.repositoryAliases ++
        [⟨fresh, repositoryId, .ownerName, owner ++ "/" ++ name, .active, none, now⟩]

/-- The star row an import proposes, and what it does to an existing one. -/
def legacyStarRow (accountId repositoryId : Uuid) (observedAt : Time) : CurrentStarState :=
  ⟨accountId, repositoryId, true, none, true, observedAt, none, none⟩

def legacyStarOver (observedAt : Time) (c : CurrentStarState) : CurrentStarState :=
  { c with
    starred := true, starredAt := none, providerStarredAtUnknown := true
    lastObservedAt := observedAt, observedUnstarredAt := none, evidenceRunId := none }

/-- `import_legacy_star`. -/
def importLegacyStar (observationId : Uuid) (accountId repositoryId : Uuid) (observedAt : Time) :
    Tx Unit := do
  write .starObservations fun db => db.starObservations ++
    [⟨observationId, accountId, repositoryId, true, none, true, observedAt⟩]
  write .currentStarState fun db =>
    upsertWhere (fun c => decide (c.key = (accountId, repositoryId))) (legacyStarOver observedAt)
      (legacyStarRow accountId repositoryId observedAt) db.currentStarState

/-- One list name claim, under its trimmed name: whether it was new. -/
def importLegacyListClaim (sourceId : String) (record : LegacyRepository)
    (accountId repositoryId : Uuid) (observedAt : Time) (listName : String) : Tx Bool :=
  if listName = "" ∨ 256 < listName.utf8ByteSize then abort .conflictingSourceData
  else do
    let known ← select fun db => db.legacyListClaims.any fun c =>
      decide (c.sourceId = sourceId) && decide (c.legacyRepositoryId = record.legacyRepositoryId) &&
        decide (c.listName = listName)
    write .legacyListClaims fun db =>
      insertUnless (fun c => decide (c.sourceId = sourceId) &&
          decide (c.legacyRepositoryId = record.legacyRepositoryId) && decide (c.listName = listName))
        ⟨sourceId, record.legacyRepositoryId, accountId, repositoryId, listName, observedAt⟩
        db.legacyListClaims
    pure !known

/-- `import_legacy_list_claims`: how many claims were new. -/
def importLegacyListClaims (sourceId : String) (record : LegacyRepository)
    (accountId repositoryId : Uuid) (observedAt : Time) : List String → Tx ℕ
  | [] => pure 0
  | name :: rest => do
    let inserted ←
      importLegacyListClaim sourceId record accountId repositoryId observedAt (trimText name)
    let count ← importLegacyListClaims sourceId record accountId repositoryId observedAt rest
    pure (inserted.toNat + count)

/-- The import of one record that its source has not imported yet. -/
def importNewLegacyRepository (ids : ℕ → Uuid) (now : Time) (sourceId : String)
    (record : LegacyRepository) (accountId : Uuid) : Tx ImportCounts := do
  let repositoryId ← upsertRepositoryInTx (ids 0) record.providerRepositoryId
  recordLegacyAlias (ids 1) now repositoryId record.owner record.name
  let observedAt := record.observedAt.getD now
  onlyIf record.starred (importLegacyStar (ids 2) accountId repositoryId observedAt)
  let listClaims ← importLegacyListClaims sourceId record accountId repositoryId observedAt
    record.listNames
  write .legacyImportRepositoryRecords fun db => db.legacyImportRepositoryRecords ++
    [⟨sourceId, record.legacyRepositoryId, accountId, repositoryId, record.starred⟩]
  pure ⟨1, record.starred.toNat, listClaims⟩

/-- Whether a source's record was imported before. -/
def alreadyImported (sourceId : String) (record : LegacyRepository) (db : Database) : Bool :=
  db.legacyImportRepositoryRecords.any fun r =>
    decide (r.sourceId = sourceId) && decide (r.legacyRepositoryId = record.legacyRepositoryId)

/-- `import_legacy_repository`. -/
def importLegacyRepository (ids : ℕ → Uuid) (now : Time) (sourceId : String)
    (accounts : List (ℤ × Uuid)) (record : LegacyRepository) : Tx ImportCounts := do
  let already ← select (alreadyImported sourceId record)
  if already then pure {}
  else do
    match accounts.lookup record.legacyUserId with
    | none => abort .conflictingSourceData
    | some accountId => importNewLegacyRepository ids now sourceId record accountId

/-- The loop over the snapshot's records; record `n` draws from `ids n`. -/
def importLegacyRepositories (ids : ℕ → ℕ → Uuid) (now : Time) (sourceId : String)
    (accounts : List (ℤ × Uuid)) : List (LegacyRepository × ℕ) → Tx ImportCounts
  | [] => pure {}
  | (record, n) :: rest => do
    let counts ← importLegacyRepository (ids n) now sourceId accounts record
    let others ← importLegacyRepositories ids now sourceId accounts rest
    pure (counts.add others)

/-! ### The run -/

/-- The insertion of the running import run. -/
def startImportRun (importRunId : Uuid) (sourceId : String) : Tx Unit :=
  write .legacyImportRuns fun db => db.legacyImportRuns ++
    [⟨importRunId, sourceId, .running, 0, 0, 0, 0, none, none⟩]

/-- `complete_import_run`. -/
def completeImportRun (now : Time) (importRunId : Uuid) (accountsImported : ℕ)
    (counts : ImportCounts) : Tx Unit :=
  write .legacyImportRuns fun db =>
    updateWhere (fun r => decide (r.importRunId = importRunId))
      (fun r => { r with
        status := .completed, accountsImported := clampInteger accountsImported
        repositoriesImported := clampInteger counts.repositories
        starClaimsImported := clampInteger counts.starClaims
        listClaimsImported := clampInteger counts.listClaims, finishedAt := some now })
      db.legacyImportRuns

/-- `record_import_failure`. -/
def recordImportFailure (now : Time) (importRunId : Uuid) (failureCode : ImportFailureCode) :
    Tx Unit :=
  write .legacyImportRuns fun db =>
    updateWhere (fun r => decide (r.importRunId = importRunId) && decide (r.status = .running))
      (fun r => { r with
        status := .failed, failureCode := some failureCode, finishedAt := some now })
      db.legacyImportRuns

/-- `import_legacy_transaction`. -/
def importLegacyTransaction (accountIds : ℤ → Uuid) (ids : ℕ → ℕ → Uuid) (now : Time)
    (request : LegacyImportRequest) (importRunId : Uuid) : Tx (ℕ × ImportCounts) := do
  let integrations ← attempt fun _ => integrationsByUser request.snapshot.integrations
  let owners ← attempt fun _ => ownerRefs request integrations
  let (accounts, accountsImported) ←
    importLegacyAccounts accountIds request.sourceId integrations owners
  let counts ← importLegacyRepositories ids now request.sourceId accounts
    request.snapshot.repositories.zipIdx
  completeImportRun now importRunId accountsImported counts
  pure (accountsImported, counts)

/-- The insertion of a shadow report (`shadow.rs`, `persist_shadow_report`). -/
def persistShadowReport (report : LegacyShadowReport) : Tx Unit :=
  write .legacyShadowReports fun db => db.legacyShadowReports ++ [report]

/-! ### Frames -/

theorem touches_createLegacyAccount (fresh : Uuid) (owner : String) (i : Option LegacyIntegration) :
    Touches [.githubAccounts] (createLegacyAccount fresh owner i) := by
  refine (Touches.select _).bind fun existing => ?_
  cases existing with
  | some a => exact Touches.pure _
  | none => exact (Touches.write (by decide) _).bind fun _ => Touches.pure _

theorem touches_importedAccountId (fresh : Uuid) (source : String) (user : ℤ) (owner : String)
    (i : Option LegacyIntegration) :
    Touches [.githubAccounts, .legacyImportAccounts]
      (importedAccountId fresh source user owner i) := by
  refine (Touches.select _).bind fun bound => ?_
  cases bound with
  | some a => exact Touches.pure _
  | none =>
    exact ((touches_createLegacyAccount _ _ _).mono (by decide)).bind fun _ =>
      (Touches.write (by decide) _).bind fun _ => Touches.pure _

theorem touches_importLegacyAccounts (ids : ℤ → Uuid) (source : String)
    (integrations : List LegacyIntegration) (owners : List (ℤ × String)) :
    Touches [.githubAccounts, .legacyImportAccounts]
      (importLegacyAccounts ids source integrations owners) := by
  induction owners with
  | nil => exact Touches.pure _
  | cons p rest ih =>
    exact (touches_importedAccountId _ _ _ _ _).bind fun _ => ih.bind fun _ => Touches.pure _

theorem touches_recordLegacyAlias (fresh : Uuid) (now : Time) (r : Uuid) (owner name : String) :
    Touches [.repositoryAliases] (recordLegacyAlias fresh now r owner name) := by
  unfold recordLegacyAlias
  split
  · exact Touches.abort _
  · refine (Touches.select _).bind fun holder => ?_
    cases holder with
    | some h =>
      show Touches _ (if h.2 ≠ r then abort .aliasConflict else pure ())
      split
      · exact Touches.abort _
      · exact Touches.pure _
    | none => exact Touches.write (by decide) _

theorem touches_importLegacyStar (id account r : Uuid) (observedAt : Time) :
    Touches [.starObservations, .currentStarState] (importLegacyStar id account r observedAt) :=
  (Touches.write (by decide) _).bind fun _ => Touches.write (by decide) _

theorem touches_importLegacyListClaim (source : String) (record : LegacyRepository)
    (account r : Uuid) (observedAt : Time) (name : String) :
    Touches [.legacyListClaims] (importLegacyListClaim source record account r observedAt name) := by
  unfold importLegacyListClaim
  split
  · exact Touches.abort _
  · exact (Touches.select _).bind fun _ => (Touches.write (by decide) _).bind fun _ =>
      Touches.pure _

theorem touches_importLegacyListClaims (source : String) (record : LegacyRepository)
    (account r : Uuid) (observedAt : Time) (names : List String) :
    Touches [.legacyListClaims]
      (importLegacyListClaims source record account r observedAt names) := by
  induction names with
  | nil => exact Touches.pure _
  | cons name rest ih =>
    exact (touches_importLegacyListClaim _ _ _ _ _ _).bind fun _ => ih.bind fun _ => Touches.pure _

/-- The tables the import of one record writes. -/
def importRecordTables : List Table :=
  [.repositories, .repositoryAliases, .starObservations, .currentStarState, .legacyListClaims,
    .legacyImportRepositoryRecords]

theorem touches_importLegacyRepository (ids : ℕ → Uuid) (now : Time) (source : String)
    (accounts : List (ℤ × Uuid)) (record : LegacyRepository) :
    Touches importRecordTables (importLegacyRepository ids now source accounts record) := by
  refine (Touches.select _).bind fun already => ?_
  split
  · exact Touches.pure _
  · cases accounts.lookup record.legacyUserId with
    | none => exact Touches.abort _
    | some account =>
      refine ((touches_upsertRepositoryInTx _ _).mono (by decide)).bind fun r => ?_
      refine ((touches_recordLegacyAlias _ _ _ _ _).mono (by decide)).bind fun _ => ?_
      refine (Touches.onlyIf ((touches_importLegacyStar _ _ _ _).mono (by decide))).bind fun _ => ?_
      exact ((touches_importLegacyListClaims _ _ _ _ _ _).mono (by decide)).bind fun _ =>
        (Touches.write (by decide) _).bind fun _ => Touches.pure _

theorem touches_importLegacyRepositories (ids : ℕ → ℕ → Uuid) (now : Time) (source : String)
    (accounts : List (ℤ × Uuid)) (records : List (LegacyRepository × ℕ)) :
    Touches importRecordTables (importLegacyRepositories ids now source accounts records) := by
  induction records with
  | nil => exact Touches.pure _
  | cons p rest ih =>
    exact (touches_importLegacyRepository _ _ _ _ _).bind fun _ => ih.bind fun _ => Touches.pure _

/-- The tables a whole import writes. -/
def importTables : List Table :=
  [.githubAccounts, .legacyImportAccounts, .legacyImportRuns] ++ importRecordTables

theorem touches_importLegacyTransaction (accountIds : ℤ → Uuid) (ids : ℕ → ℕ → Uuid) (now : Time)
    (request : LegacyImportRequest) (importRunId : Uuid) :
    Touches importTables (importLegacyTransaction accountIds ids now request importRunId) :=
  (Touches.attempt _).bind fun _ => (Touches.attempt _).bind fun _ =>
    ((touches_importLegacyAccounts _ _ _ _).mono (by decide)).bind fun _ =>
    ((touches_importLegacyRepositories _ _ _ _ _).mono (by decide)).bind fun _ =>
    (Touches.write (by decide) _).bind fun _ => Touches.pure _

/-! ### Relations kept by an import -/

section relations

variable {R : Database → Database → Prop} [Std.Refl R] [IsTrans Database R]

/-- **The rule of one imported record.**  It keeps what cataloguing a repository, importing a star
and the remaining statements keep. -/
theorem relates_importNewLegacyRepository (ids : ℕ → Uuid) (now : Time) (source : String)
    (record : LegacyRepository) (account : Uuid)
    (hrepo : Tx.Relates R (upsertRepositoryInTx (ids 0) record.providerRepositoryId))
    (hstar : ∀ r observedAt, Tx.Relates R (importLegacyStar (ids 2) account r observedAt))
    (hrest : ∀ {α : Type} (x : Tx α),
      Touches [.repositoryAliases, .legacyListClaims, .legacyImportRepositoryRecords] x →
        Tx.Relates R x) :
    Tx.Relates R (importNewLegacyRepository ids now source record account) := by
  refine hrepo.bind fun r => ?_
  refine (hrest _ ((touches_recordLegacyAlias _ _ _ _ _).mono (by decide))).bind fun _ => ?_
  refine (relates_onlyIf (hstar r _)).bind fun _ => ?_
  exact (hrest _ ((touches_importLegacyListClaims _ _ _ _ _ _).mono (by decide))).bind fun _ =>
    (hrest _ (Touches.write (by decide) _)).bind fun _ => Tx.Relates.pure _

/-- The tables an import writes besides the accounts and its records. -/
def importFrameTables : List Table := [.legacyImportAccounts, .legacyImportRuns]

/-- The loop over the retired users keeps what the creation of an account and the bindings keep. -/
theorem relates_importLegacyAccounts (ids : ℤ → Uuid) (source : String)
    (integrations : List LegacyIntegration) (owners : List (ℤ × String))
    (haccount : ∀ fresh owner i, Tx.Relates R (createLegacyAccount fresh owner i))
    (hframe : ∀ {α : Type} (x : Tx α), Touches importFrameTables x → Tx.Relates R x) :
    Tx.Relates R (importLegacyAccounts ids source integrations owners) := by
  induction owners with
  | nil => exact Tx.Relates.pure _
  | cons p rest ih =>
    refine Tx.Relates.bind ?_ fun _ => ih.bind fun _ => Tx.Relates.pure _
    refine Tx.Relates.bind (relates_select _) fun bound => ?_
    cases bound with
    | some a => exact Tx.Relates.pure _
    | none =>
      exact (haccount _ _ _).bind fun _ => (hframe _ (Touches.write (by decide) _)).bind fun _ =>
        Tx.Relates.pure _

/-- The loop over the records keeps what the import of each record keeps. -/
theorem relates_importLegacyRepositories (ids : ℕ → ℕ → Uuid) (now : Time) (source : String)
    (accounts : List (ℤ × Uuid)) {records : List (LegacyRepository × ℕ)}
    (hnew : ∀ p ∈ records, ∀ account (c c' : Catalog) counts,
      alreadyImported source p.1 c.tables = false →
      importNewLegacyRepository (ids p.2) now source p.1 account c = .ok (counts, c') →
      R c.tables c'.tables) :
    Tx.Relates R (importLegacyRepositories ids now source accounts records) := by
  induction records with
  | nil => exact Tx.Relates.pure _
  | cons p rest ih =>
    have hrest := ih fun q hq => hnew q (List.mem_cons_of_mem _ hq)
    refine Tx.Relates.bind ?_ fun _ => hrest.bind fun _ => Tx.Relates.pure _
    intro c counts c' h
    simp only [importLegacyRepository, Tx.bind_eq_ok, select_eq_ok] at h
    obtain ⟨already, _, ⟨halready, rfl⟩, h⟩ := h
    cases already with
    | true =>
      obtain ⟨-, rfl⟩ := Tx.pure_eq_ok.mp h
      exact Std.Refl.refl _
    | false =>
      cases hlookup : accounts.lookup p.1.legacyUserId with
      | none =>
        rw [hlookup] at h
        exact (abort_eq_ok.mp h).elim
      | some account =>
        rw [hlookup] at h
        exact hnew p List.mem_cons_self account c c' counts halready h

/-- **The rule of an import.**  A relation that the account statements keep and the import of each
record keeps is kept by the whole. -/
theorem relates_importLegacyTransaction (accountIds : ℤ → Uuid) (ids : ℕ → ℕ → Uuid) (now : Time)
    (request : LegacyImportRequest) (importRunId : Uuid)
    (haccount : ∀ fresh owner i, Tx.Relates R (createLegacyAccount fresh owner i))
    (hframe : ∀ {α : Type} (x : Tx α), Touches importFrameTables x → Tx.Relates R x)
    (hnew : ∀ p ∈ request.snapshot.repositories.zipIdx, ∀ account (c c' : Catalog) counts,
      alreadyImported request.sourceId p.1 c.tables = false →
      importNewLegacyRepository (ids p.2) now request.sourceId p.1 account c = .ok (counts, c') →
      R c.tables c'.tables) :
    Tx.Relates R (importLegacyTransaction accountIds ids now request importRunId) := by
  refine (Tx.Relates.queryOrFail _).bind fun integrations =>
    (Tx.Relates.queryOrFail _).bind fun owners => ?_
  refine (relates_importLegacyAccounts _ _ _ _ haccount hframe).bind fun accounts => ?_
  refine (relates_importLegacyRepositories ids now request.sourceId accounts.1 hnew).bind fun _ => ?_
  exact (hframe _ (Touches.write (by decide) _)).bind fun _ => Tx.Relates.pure _

end relations

end GithubCatalog
