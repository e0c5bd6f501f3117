import GithubCatalog.Lib.Transact
import GithubCatalog.Schema

/-!
# Transactions of the catalog

`Catalog` is a database that satisfies its declared constraints, and `Tx` the transactions over it.
Every statement of the service writes one table, so `write t f` is the writing statement: it replaces
the rows of the table `t` and is refused when a declared constraint no longer holds (keys, checks and
references are all immediate).

`Touches ts x` is the frame of a transaction: its successful runs leave every table outside `ts` as it
was.  The rules below compute it along the program, and `Touches.keeps` turns it into the
preservation of any property that only reads other tables.
-/

namespace GithubCatalog

open Transact

/-! ### Tables by name -/

inductive Table where
  | githubAccounts | githubAccountCredentials | legacyImportRuns | legacyImportAccounts
  | repositories | repositoryAliases | legacyImportRepositoryRecords | repositoryMetadata
  | repositoryMetadataRevisions | repositoryReadmeBlobs | syncRuns | syncCheckpoints
  | snapshotItems | listSnapshotItems | starObservations | currentStarState | legacyListClaims
  | legacyShadowReports | starWatermarks | reconciliationRepairs | starLists | starListMemberships
  | starListMembershipObservations | repositoryWatches | repositoryAnalysisRequests
  | repositoryAnalysisDispatchCursor | repositoryAnalysisLinks | backupPolicies
  | backupPolicyPublicationCursor | backupPolicyPublications | backupPolicyFeedback
  | mutationAudit | repositoryActionAttempts | outboxEvents | inboxEvents
  | accountErasureOperations
deriving DecidableEq

/-- What a table holds: a list of rows, or the one row of a cursor table. -/
@[reducible] def Table.Rows : Table → Type
  | .githubAccounts => List GithubAccount
  | .githubAccountCredentials => List GithubAccountCredential
  | .legacyImportRuns => List LegacyImportRun
  | .legacyImportAccounts => List LegacyImportAccount
  | .repositories => List Repository
  | .repositoryAliases => List RepositoryAlias
  | .legacyImportRepositoryRecords => List LegacyImportRepositoryRecord
  | .repositoryMetadata => List RepositoryMetadata
  | .repositoryMetadataRevisions => List RepositoryMetadataRevision
  | .repositoryReadmeBlobs => List RepositoryReadmeBlob
  | .syncRuns => List SyncRun
  | .syncCheckpoints => List SyncCheckpoint
  | .snapshotItems => List SnapshotItem
  | .listSnapshotItems => List ListSnapshotItem
  | .starObservations => List StarObservation
  | .currentStarState => List CurrentStarState
  | .legacyListClaims => List LegacyListClaim
  | .legacyShadowReports => List LegacyShadowReport
  | .starWatermarks => List StarWatermark
  | .reconciliationRepairs => List ReconciliationRepair
  | .starLists => List StarList
  | .starListMemberships => List StarListMembership
  | .starListMembershipObservations => List StarListMembershipObservation
  | .repositoryWatches => List RepositoryWatch
  | .repositoryAnalysisRequests => List RepositoryAnalysisRequest
  | .repositoryAnalysisDispatchCursor => Option Time
  | .repositoryAnalysisLinks => List RepositoryAnalysisLink
  | .backupPolicies => List BackupPolicy
  | .backupPolicyPublicationCursor => Option BackupPolicyPublicationCursor
  | .backupPolicyPublications => List BackupPolicyPublication
  | .backupPolicyFeedback => List BackupPolicyFeedback
  | .mutationAudit => List MutationAudit
  | .repositoryActionAttempts => List RepositoryActionAttempt
  | .outboxEvents => List OutboxEvent
  | .inboxEvents => List InboxEvent
  | .accountErasureOperations => List AccountErasureOperation

namespace Database

/-- The rows of a table. -/
def rows (db : Database) : (t : Table) → t.Rows
  | .githubAccounts => db.githubAccounts
  | .githubAccountCredentials => db.githubAccountCredentials
  | .legacyImportRuns => db.legacyImportRuns
  | .legacyImportAccounts => db.legacyImportAccounts
  | .repositories => db.repositories
  | .repositoryAliases => db.repositoryAliases
  | .legacyImportRepositoryRecords => db.legacyImportRepositoryRecords
  | .repositoryMetadata => db.repositoryMetadata
  | .repositoryMetadataRevisions => db.repositoryMetadataRevisions
  | .repositoryReadmeBlobs => db.repositoryReadmeBlobs
  | .syncRuns => db.syncRuns
  | .syncCheckpoints => db.syncCheckpoints
  | .snapshotItems => db.snapshotItems
  | .listSnapshotItems => db.listSnapshotItems
  | .starObservations => db.starObservations
  | .currentStarState => db.currentStarState
  | .legacyListClaims => db.legacyListClaims
  | .legacyShadowReports => db.legacyShadowReports
  | .starWatermarks => db.starWatermarks
  | .reconciliationRepairs => db.reconciliationRepairs
  | .starLists => db.starLists
  | .starListMemberships => db.starListMemberships
  | .starListMembershipObservations => db.starListMembershipObservations
  | .repositoryWatches => db.repositoryWatches
  | .repositoryAnalysisRequests => db.repositoryAnalysisRequests
  | .repositoryAnalysisDispatchCursor => db.repositoryAnalysisDispatchCursor
  | .repositoryAnalysisLinks => db.repositoryAnalysisLinks
  | .backupPolicies => db.backupPolicies
  | .backupPolicyPublicationCursor => db.backupPolicyPublicationCursor
  | .backupPolicyPublications => db.backupPolicyPublications
  | .backupPolicyFeedback => db.backupPolicyFeedback
  | .mutationAudit => db.mutationAudit
  | .repositoryActionAttempts => db.repositoryActionAttempts
  | .outboxEvents => db.outboxEvents
  | .inboxEvents => db.inboxEvents
  | .accountErasureOperations => db.accountErasureOperations

/-- Replace the rows of a table. -/
def put (db : Database) : (t : Table) → t.Rows → Database
  | .githubAccounts, rows => { db with githubAccounts := rows }
  | .githubAccountCredentials, rows => { db with githubAccountCredentials := rows }
  | .legacyImportRuns, rows => { db with legacyImportRuns := rows }
  | .legacyImportAccounts, rows => { db with legacyImportAccounts := rows }
  | .repositories, rows => { db with repositories := rows }
  | .repositoryAliases, rows => { db with repositoryAliases := rows }
  | .legacyImportRepositoryRecords, rows => { db with legacyImportRepositoryRecords := rows }
  | .repositoryMetadata, rows => { db with repositoryMetadata := rows }
  | .repositoryMetadataRevisions, rows => { db with repositoryMetadataRevisions := rows }
  | .repositoryReadmeBlobs, rows => { db with repositoryReadmeBlobs := rows }
  | .syncRuns, rows => { db with syncRuns := rows }
  | .syncCheckpoints, rows => { db with syncCheckpoints := rows }
  | .snapshotItems, rows => { db with snapshotItems := rows }
  | .listSnapshotItems, rows => { db with listSnapshotItems := rows }
  | .starObservations, rows => { db with starObservations := rows }
  | .currentStarState, rows => { db with currentStarState := rows }
  | .legacyListClaims, rows => { db with legacyListClaims := rows }
  | .legacyShadowReports, rows => { db with legacyShadowReports := rows }
  | .starWatermarks, rows => { db with starWatermarks := rows }
  | .reconciliationRepairs, rows => { db with reconciliationRepairs := rows }
  | .starLists, rows => { db with starLists := rows }
  | .starListMemberships, rows => { db with starListMemberships := rows }
  | .starListMembershipObservations, rows => { db with starListMembershipObservations := rows }
  | .repositoryWatches, rows => { db with repositoryWatches := rows }
  | .repositoryAnalysisRequests, rows => { db with repositoryAnalysisRequests := rows }
  | .repositoryAnalysisDispatchCursor, rows => { db with repositoryAnalysisDispatchCursor := rows }
  | .repositoryAnalysisLinks, rows => { db with repositoryAnalysisLinks := rows }
  | .backupPolicies, rows => { db with backupPolicies := rows }
  | .backupPolicyPublicationCursor, rows => { db with backupPolicyPublicationCursor := rows }
  | .backupPolicyPublications, rows => { db with backupPolicyPublications := rows }
  | .backupPolicyFeedback, rows => { db with backupPolicyFeedback := rows }
  | .mutationAudit, rows => { db with mutationAudit := rows }
  | .repositoryActionAttempts, rows => { db with repositoryActionAttempts := rows }
  | .outboxEvents, rows => { db with outboxEvents := rows }
  | .inboxEvents, rows => { db with inboxEvents := rows }
  | .accountErasureOperations, rows => { db with accountErasureOperations := rows }

theorem rows_put_of_ne (db : Database) {t u : Table} (rows : t.Rows) (h : u ≠ t) :
    (db.put t rows).rows u = db.rows u := by
  cases t <;> cases u <;> first | rfl | exact absurd rfl h

end Database

/-! ### Errors -/

/-- Why the database refused a statement. -/
inductive QueryFault where
  /-- A key, a check or a reference would be broken. -/
  | constraint
  /-- An upsert met the same key twice. -/
  | cardinality
  /-- A statement that must return a row returned none. -/
  | rowNotFound
  /-- A bound value could not be read as the column's type. -/
  | invalidText
  /-- An integer expression left the range of its type. -/
  | outOfRange
  /-- The database could not be reached. -/
  | unavailable
deriving DecidableEq

/-- The errors a transaction of the catalog ends with. -/
inductive CatalogError where
  | query (fault : QueryFault)
  | liveAliasConflict
  | invalid (field : String)
  | serialization
  | conflictingSourceData
  | aliasConflict
  | invalidSourceId
  | unmappedLegacyUser
  | missingMetadata
  | invalidMetadata
  | invalidStoredIdentity
  | contract
  | lengthOverflow
  | operationOwnerMismatch
  | unknownRecordedOutcome
  | accountNotAwaitingReauthorization
  | keyTaken
deriving DecidableEq

/-! ### Statements -/

/-- A database that satisfies everything the schema declares. -/
abbrev Catalog := Valid Constraints

/-- A transaction of the catalog. -/
abbrev Tx (α : Type) := Transact.Tx Constraints CatalogError α

/-- The empty catalog, as the schema creates it. -/
def emptyCatalog : Catalog := ⟨{}, constraints_empty⟩

/-- A read. -/
def select {α : Type} (f : Database → α) : Tx α := Tx.query f

/-- A read of exactly one row. -/
def fetchOne {α : Type} (f : Database → Option α) : Tx α :=
  Tx.queryOrFail fun db => (f db).elim (.error (.query .rowNotFound)) .ok

/-- Abort the transaction. -/
def abort {α : Type} (e : CatalogError) : Tx α := Tx.fail e

/-- Continue only when the condition holds. -/
def require (e : CatalogError) (p : Database → Bool) : Tx Unit :=
  Tx.queryOrFail fun db => if p db then .ok () else .error e

/-- Read a value that may be refused. -/
def attempt {α : Type} (f : Database → Except CatalogError α) : Tx α := Tx.queryOrFail f

/-- A step taken only under a condition. -/
def onlyIf (b : Bool) (x : Tx Unit) : Tx Unit := if b then x else pure ()

/-- The writing statement. -/
def write (t : Table) (f : Database → t.Rows) : Tx Unit :=
  Tx.exec (.query .constraint) fun db => db.put t (f db)

section inversion

variable {α : Type} {c c' : Catalog}

theorem select_eq_ok {f : Database → α} {a : α} :
    select f c = .ok (a, c') ↔ f c.tables = a ∧ c = c' :=
  Tx.query_eq_ok

theorem fetchOne_eq_ok {f : Database → Option α} {a : α} :
    fetchOne f c = .ok (a, c') ↔ f c.tables = some a ∧ c = c' := by
  rw [fetchOne, Tx.queryOrFail_eq_ok]
  cases f c.tables with
  | none => simp
  | some b => simp

theorem attempt_eq_ok {f : Database → Except CatalogError α} {a : α} :
    attempt f c = .ok (a, c') ↔ f c.tables = .ok a ∧ c = c' :=
  Tx.queryOrFail_eq_ok

theorem abort_eq_ok {e : CatalogError} {a : α} : abort e c = .ok (a, c') ↔ False :=
  Tx.fail_eq_ok

theorem require_eq_ok {e : CatalogError} {p : Database → Bool} {u : Unit} :
    require e p c = .ok (u, c') ↔ p c.tables = true ∧ c = c' := by
  rw [require, Tx.queryOrFail_eq_ok]
  by_cases h : p c.tables = true
  · simp [h]
  · simp [h]

theorem write_eq_ok {t : Table} {f : Database → t.Rows} {u : Unit} :
    write t f c = .ok (u, c') ↔ c'.tables = c.tables.put t (f c.tables) :=
  Tx.exec_eq_ok

theorem write_of_valid {t : Table} {f : Database → t.Rows}
    (h : Constraints (c.tables.put t (f c.tables))) :
    write t f c = .ok ((), ⟨c.tables.put t (f c.tables), h⟩) :=
  Tx.exec_of_valid h

/-- A statement fails with a constraint violation only. -/
theorem write_ne_error {t : Table} {f : Database → t.Rows} {e : CatalogError}
    (he : e ≠ .query .constraint) (c : Catalog) : write t f c ≠ .error e := by
  unfold write Tx.exec
  split
  · rintro ⟨⟩
  · rintro ⟨⟩
    exact he rfl

/-- A read of one row fails with its absence only. -/
theorem fetchOne_ne_error {f : Database → Option α} {e : CatalogError}
    (he : e ≠ .query .rowNotFound) (c : Catalog) : fetchOne f c ≠ .error e := by
  cases hf : f c.tables with
  | some a => simp [fetchOne, Tx.queryOrFail, hf]
  | none =>
    simp only [fetchOne, Tx.queryOrFail, hf, Option.elim]
    rintro ⟨⟩
    exact he rfl

theorem require_ne_error {p : Database → Bool} {e e' : CatalogError} (he : e ≠ e') (c : Catalog) :
    require e' p c ≠ .error e := by
  by_cases hp : p c.tables = true
  · simp [require, Tx.queryOrFail, hp]
  · simp only [require, Tx.queryOrFail, hp, Bool.false_eq_true, if_false]
    rintro ⟨⟩
    exact he rfl

end inversion

/-! ### Transactions that the database may not carry out -/

/-- What becomes of a statement or a transaction: it is carried out, it never takes effect, or it
takes effect and its caller never learns so. -/
inductive Fate where
  | served | rolledBack | unacknowledged
deriving DecidableEq

/-- A transaction under its fate: the answer of the caller, and the committed store. -/
def Fate.run {α : Type} (fate : Fate) (x : Tx α) (c : Catalog) : Except CatalogError α × Catalog :=
  match fate, x c with
  | .served, .ok (a, c') => (.ok a, c')
  | .unacknowledged, .ok (_, c') => (.error (.query .unavailable), c')
  | .rolledBack, _ => (.error (.query .unavailable), c)
  | _, .error e => (.error e, c)

/-- Whatever its fate, a transaction leaves the store as it was or runs to its end; an answer with a
result means that it ran to its end. -/
theorem Fate.run_cases {α : Type} (fate : Fate) (x : Tx α) (c : Catalog) :
    (∃ a c', x c = .ok (a, c') ∧ fate.run x c = (.ok a, c')) ∨
    (∃ a c', x c = .ok (a, c') ∧ fate.run x c = (.error (.query .unavailable), c')) ∨
    (∃ e, (x c = .error e ∨ e = .query .unavailable) ∧ fate.run x c = (.error e, c)) := by
  unfold Fate.run
  cases hx : x c with
  | ok p =>
    cases fate with
    | served => exact .inl ⟨p.1, p.2, rfl, rfl⟩
    | rolledBack => exact .inr (.inr ⟨_, .inr rfl, rfl⟩)
    | unacknowledged => exact .inr (.inl ⟨p.1, p.2, rfl, rfl⟩)
  | error e =>
    cases fate with
    | served => exact .inr (.inr ⟨e, .inl rfl, rfl⟩)
    | rolledBack => exact .inr (.inr ⟨_, .inr rfl, rfl⟩)
    | unacknowledged => exact .inr (.inr ⟨e, .inl rfl, rfl⟩)

/-! ### Relations -/

section relations

variable {α : Type} {R : Database → Database → Prop} [Std.Refl R]

theorem relates_select (f : Database → α) : Tx.Relates R (select f) := Tx.Relates.query f

theorem relates_fetchOne (f : Database → Option α) : Tx.Relates R (fetchOne f) :=
  Tx.Relates.queryOrFail _

theorem relates_attempt (f : Database → Except CatalogError α) : Tx.Relates R (attempt f) :=
  Tx.Relates.queryOrFail f

theorem relates_require (e : CatalogError) (p : Database → Bool) : Tx.Relates R (require e p) :=
  Tx.Relates.queryOrFail _

theorem relates_onlyIf {b : Bool} {x : Tx Unit} (hx : Tx.Relates R x) :
    Tx.Relates R (onlyIf b x) := by
  unfold onlyIf
  split
  · exact hx
  · exact Tx.Relates.pure _

/-- Whatever its fate, a transaction relates the store before and after as its runs do. -/
theorem relates_fate {x : Tx α} (hx : Tx.Relates R x) (fate : Fate) (c : Catalog) :
    R c.tables (fate.run x c).2.tables := by
  obtain ⟨a, c', hok, hrun⟩ | ⟨a, c', hok, hrun⟩ | ⟨e, -, hrun⟩ := fate.run_cases x c
  · rw [hrun]
    exact hx c a c' hok
  · rw [hrun]
    exact hx c a c' hok
  · rw [hrun]
    exact Std.Refl.refl _

omit [Std.Refl R] in
/-- A statement keeps what the replacement of its table keeps. -/
theorem relates_write {t : Table} {f : Database → t.Rows}
    (h : ∀ db, Constraints db → R db (db.put t (f db))) : Tx.Relates R (write t f) :=
  Tx.Relates.exec h

omit [Std.Refl R] in
/-- The same, when what it keeps rests on the constraints of the new state. -/
theorem relates_write_valid {t : Table} {f : Database → t.Rows}
    (h : ∀ db, Constraints db → Constraints (db.put t (f db)) → R db (db.put t (f db))) :
    Tx.Relates R (write t f) :=
  Tx.Relates.exec_valid h

end relations

/-! ### Frames -/

/-- The two databases hold the same rows in every table outside `ts`. -/
def AgreeOff (ts : List Table) (db db' : Database) : Prop := ∀ t, t ∉ ts → db'.rows t = db.rows t

instance (ts : List Table) : Std.Refl (AgreeOff ts) := ⟨fun _ _ _ => rfl⟩

instance (ts : List Table) : IsTrans Database (AgreeOff ts) :=
  ⟨fun _ _ _ h h' t ht => (h' t ht).trans (h t ht)⟩

/-- The transaction writes no table outside `ts`. -/
def Touches (ts : List Table) {α : Type} (x : Tx α) : Prop := Tx.Relates (AgreeOff ts) x

namespace Touches

variable {ts : List Table} {α β : Type}

theorem pure (a : α) : Touches ts (Pure.pure a) := Tx.Relates.pure a

theorem select (f : Database → α) : Touches ts (GithubCatalog.select f) := Tx.Relates.query f

theorem fetchOne (f : Database → Option α) : Touches ts (GithubCatalog.fetchOne f) :=
  Tx.Relates.queryOrFail _

theorem attempt (f : Database → Except CatalogError α) : Touches ts (GithubCatalog.attempt f) :=
  Tx.Relates.queryOrFail f

theorem abort (e : CatalogError) : Touches ts (GithubCatalog.abort e : Tx α) := Tx.Relates.fail e

theorem require (e : CatalogError) (p : Database → Bool) : Touches ts (GithubCatalog.require e p) :=
  Tx.Relates.queryOrFail _

theorem write {t : Table} (ht : t ∈ ts) (f : Database → t.Rows) :
    Touches ts (GithubCatalog.write t f) := by
  apply Tx.Relates.exec
  intro db _ u hu
  apply Database.rows_put_of_ne
  intro heq
  exact hu (heq ▸ ht)

theorem bind {x : Tx α} {f : α → Tx β} (hx : Touches ts x) (hf : ∀ a, Touches ts (f a)) :
    Touches ts (x >>= f) :=
  Tx.Relates.bind hx hf

theorem forM {f : α → Tx Unit} (hf : ∀ a, Touches ts (f a)) (as : List α) :
    Touches ts (as.forM f) :=
  Tx.Relates.forM hf as

theorem onlyIf {b : Bool} {x : Tx Unit} (hx : Touches ts x) :
    Touches ts (GithubCatalog.onlyIf b x) := by
  unfold GithubCatalog.onlyIf
  split
  · exact hx
  · exact Touches.pure _

/-- A larger set of tables is a weaker frame. -/
theorem mono {us : List Table} {x : Tx α} (hx : Touches ts x) (h : ts ⊆ us) : Touches us x := by
  refine Tx.Relates.mono hx ?_
  intro db db' hdb t ht
  exact hdb t fun hmem => ht (h hmem)

/-- A table outside the frame keeps its rows. -/
theorem rows_eq {x : Tx α} (hx : Touches ts x) {c c' : Catalog} {a : α} (h : x c = .ok (a, c'))
    {t : Table} (ht : t ∉ ts) : c'.tables.rows t = c.tables.rows t :=
  hx c a c' h t ht

end Touches

end GithubCatalog
