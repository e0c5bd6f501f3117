import GithubCatalog.ErasureState
import GithubCatalog.ImportLoops
import Mathlib.Data.List.Dedup

/-!
# Importing a snapshot again

`importLegacySnapshot` is the whole call: the checks of the request, the import run's row, the
transaction, and the recorded failure.  A call that returned leaves a binding for every retired user and
a record for every repository of the request (`Imported`).  Both tables only grow, except in an erasure,
and a call that finds everything imported writes nothing but the row of its run.

* `importLegacySnapshot` - `import_legacy_snapshot`;
* `imported_of_ok`, `Operation.commit_imported` - how `Imported` comes about and what keeps it;
* `import_again` - the second call.
-/

namespace GithubCatalog

open Relational Transact Runs

/-- `failure_code`. -/
def failureCode : CatalogError → ImportFailureCode
  | .conflictingSourceData => .conflictingSourceData
  | .aliasConflict => .aliasConflict
  | _ => .persistence

/-- `import_legacy_snapshot`: its answer and the catalog it leaves. -/
def importLegacySnapshot (accountIds : ℤ → Uuid) (ids : ℕ → ℕ → Uuid) (now : Time)
    (request : LegacyImportRequest) (importRunId : Uuid) (c : Catalog) :
    Except CatalogError (ℕ × ImportCounts) × Catalog :=
  if !validSourceId request.sourceId then (.error .invalidSourceId, c)
  else match integrationsByUser request.snapshot.integrations >>= ownerRefs request with
    | .error e => (.error e, c)
    | .ok _ => match startImportRun importRunId request.sourceId c with
      | .error e => (.error e, c)
      | .ok (_, started) =>
        match importLegacyTransaction accountIds ids now request importRunId started with
        | .ok (out, c') => (.ok out, c')
        | .error e => (.error e, (recordImportFailure now importRunId (failureCode e)).commit started)

/-! ### What is imported -/

/-- A retired user has a binding under a source label. -/
def UserImported (sourceId : String) (legacyUserId : ℤ) (db : Database) : Prop :=
  ∃ b ∈ db.legacyImportAccounts, b.sourceId = sourceId ∧ b.legacyUserId = legacyUserId

/-- A record has been imported under a source label. -/
def RecordImported (sourceId : String) (legacyRepositoryId : ℤ) (db : Database) : Prop :=
  ∃ r ∈ db.legacyImportRepositoryRecords,
    r.sourceId = sourceId ∧ r.legacyRepositoryId = legacyRepositoryId

/-- The retired users that a request names. -/
def LegacyImportRequest.users (request : LegacyImportRequest) : List ℤ :=
  request.snapshot.repositories.map (·.legacyUserId) ++
    request.snapshot.integrations.map (·.legacyUserId)

/-- Every retired user of the request is bound and every record of it imported. -/
structure Imported (request : LegacyImportRequest) (db : Database) : Prop where
  users : ∀ user ∈ request.users, UserImported request.sourceId user db
  records : ∀ record ∈ request.snapshot.repositories,
    RecordImported request.sourceId record.legacyRepositoryId db

/-- **An erasure of an imported owner**: one who owns the account that a retired user of the request is
bound to, or that a record of it was imported for. -/
def Operation.erasesImport (request : LegacyImportRequest) (db : Database) : Operation → Bool
  | .eraseAccount _ owner _ =>
    (db.legacyImportAccounts.any fun b => decide (b.sourceId = request.sourceId) &&
        decide (b.legacyUserId ∈ request.users) && ownsAccount owner db b.accountId) ||
      db.legacyImportRepositoryRecords.any fun r => decide (r.sourceId = request.sourceId) &&
        (request.snapshot.repositories.any fun record =>
          decide (record.legacyRepositoryId = r.legacyRepositoryId)) &&
        ownsAccount owner db r.accountId
  | _ => false

theorem boundAccount_isSome {sourceId : String} {user : ℤ} {db : Database} :
    (boundAccount sourceId user db).isSome = true ↔ UserImported sourceId user db := by
  rw [boundAccount, Option.isSome_map, List.find?_isSome]
  simp [UserImported]

theorem alreadyImported_iff {sourceId : String} {record : LegacyRepository} {db : Database} :
    alreadyImported sourceId record db = true ↔
      RecordImported sourceId record.legacyRepositoryId db := by
  simp [alreadyImported, RecordImported]

/-- Bindings and records that stay keep the request imported. -/
theorem Imported.mono {request : LegacyImportRequest} {db db' : Database} (h : Imported request db)
    (haccounts : db.legacyImportAccounts ⊆ db'.legacyImportAccounts)
    (hrecords : db.legacyImportRepositoryRecords ⊆ db'.legacyImportRepositoryRecords) :
    Imported request db' := by
  refine ⟨fun user huser => ?_, fun record hrecord => ?_⟩
  · obtain ⟨b, hb, hname⟩ := h.users user huser
    exact ⟨b, haccounts hb, hname⟩
  · obtain ⟨r, hr, hname⟩ := h.records record hrecord
    exact ⟨r, hrecords hr, hname⟩

/-! ### The first call -/

/-- The second loop only adds records, and imports every record it is given. -/
theorem importLegacyRepositories_imported {ids : ℕ → ℕ → Uuid} {now : Time} {sourceId : String}
    {accounts : List (ℤ × Uuid)} {records : List (LegacyRepository × ℕ)} {counts : ImportCounts}
    {c c' : Catalog}
    (h : importLegacyRepositories ids now sourceId accounts records c = .ok (counts, c')) :
    c.tables.legacyImportRepositoryRecords ⊆ c'.tables.legacyImportRepositoryRecords ∧
      ∀ p ∈ records, alreadyImported sourceId p.1 c'.tables = true := by
  induction records generalizing c counts with
  | nil =>
    obtain ⟨-, rfl⟩ := Tx.pure_eq_ok.mp h
    exact ⟨List.Subset.refl _, fun p hp => nomatch hp⟩
  | cons p rest ih =>
    simp only [importLegacyRepositories, Tx.bind_eq_ok, Tx.pure_eq_ok] at h
    obtain ⟨first, c₁, h₁, others, c₂, h₂, -, rfl⟩ := h
    obtain ⟨hgrown, hrest⟩ := ih h₂
    have hturn : c.tables.legacyImportRepositoryRecords ⊆ c₁.tables.legacyImportRepositoryRecords ∧
        alreadyImported sourceId p.1 c₁.tables = true := by
      rcases importLegacyRepository_cases h₁ with ⟨halready, -, rfl⟩ | ⟨-, account, -, q, hwritten⟩
      · exact ⟨List.Subset.refl _, halready⟩
      · refine ⟨?_, ?_⟩
        · rw [hwritten.records]
          exact List.subset_append_left _ _
        · rw [hwritten.alreadyImported, decide_eq_true rfl, Bool.or_true]
    refine ⟨List.Subset.trans hturn.1 hgrown, fun q hq => ?_⟩
    rcases List.mem_cons.mp hq with rfl | hq
    · obtain ⟨r, hr, hname⟩ := alreadyImported_iff.mp hturn.2
      exact alreadyImported_iff.mpr ⟨r, hgrown hr, hname⟩
    · exact hrest q hq

/-- The owners that a request resolves to, one for each of its users. -/
theorem ownerRefs_users {request : LegacyImportRequest} {integrations : List LegacyIntegration}
    {owners : List (ℤ × String)}
    (hintegrations : integrationsByUser request.snapshot.integrations = .ok integrations)
    (howners : ownerRefs request integrations = .ok owners) (user : ℤ) :
    user ∈ owners.map Prod.fst ↔ user ∈ request.users := by
  obtain ⟨-, rfl⟩ := (mapM_eq_ok fun user p => ownerRef_eq_ok).mp howners
  rw [integrationsByUser_eq hintegrations, List.map_map]
  have hfst : (Prod.fst ∘ fun user => (user, (request.ownerMap.lookup user).getD "")) = id := rfl
  rw [hfst, List.map_id, List.mem_insertionSort, List.mem_dedup]
  rfl

/-- **What an import leaves and keeps.** -/
theorem importLegacyTransaction_imported {accountIds : ℤ → Uuid} {ids : ℕ → ℕ → Uuid} {now : Time}
    {request : LegacyImportRequest} {importRunId : Uuid} {out : ℕ × ImportCounts} {c c' : Catalog}
    (h : importLegacyTransaction accountIds ids now request importRunId c = .ok (out, c')) :
    c.tables.legacyImportAccounts ⊆ c'.tables.legacyImportAccounts ∧
      c.tables.legacyImportRepositoryRecords ⊆ c'.tables.legacyImportRepositoryRecords ∧
      Imported request c'.tables := by
  simp only [importLegacyTransaction, Tx.bind_eq_ok, attempt_eq_ok, Tx.pure_eq_ok] at h
  obtain ⟨integrations, _, ⟨hintegrations, rfl⟩, owners, _, ⟨howners, rfl⟩, ⟨accounts, n⟩, c₁, h₁,
    counts, c₂, h₂, ⟨⟩, c₃, h₃, -, rfl⟩ := h
  obtain ⟨hadded, -, hresolved⟩ := importLegacyAccounts_spec h₁
  obtain ⟨hgrown, hrecords⟩ := importLegacyRepositories_imported h₂
  have hrecords₁ : c₁.tables.legacyImportRepositoryRecords =
      c.tables.legacyImportRepositoryRecords :=
    (touches_importLegacyAccounts _ _ _ _).rows_eq h₁ (t := .legacyImportRepositoryRecords) (by decide)
  have haccounts₂ : c₂.tables.legacyImportAccounts = c₁.tables.legacyImportAccounts :=
    (touches_importLegacyRepositories _ _ _ _ _).rows_eq h₂ (t := .legacyImportAccounts) (by decide)
  have htables := write_eq_ok.mp h₃
  have haccounts₃ : c₃.tables.legacyImportAccounts = c₂.tables.legacyImportAccounts := by
    rw [htables]
    rfl
  have hrecords₃ : c₃.tables.legacyImportRepositoryRecords =
      c₂.tables.legacyImportRepositoryRecords := by
    rw [htables]
    rfl
  obtain ⟨extra, hextra⟩ := hadded.bindings
  refine ⟨?_, ?_, fun user huser => ?_, fun record hrecord => ?_⟩
  · rw [haccounts₃, haccounts₂, hextra]
    exact List.subset_append_left _ _
  · rw [hrecords₃, ← hrecords₁]
    exact hgrown
  · obtain ⟨owner, howner⟩ :=
      lookup_of_mem ((ownerRefs_users hintegrations howners user).mpr huser)
    obtain ⟨a, -, hres⟩ := hresolved user owner howner
    rw [UserImported, haccounts₃, haccounts₂, ← UserImported, ← boundAccount_isSome, hres.bound]
    rfl
  · obtain ⟨i, hi⟩ := List.getElem?_of_mem hrecord
    have hmem : (record, i) ∈ request.snapshot.repositories.zipIdx :=
      List.mk_mem_zipIdx_iff_getElem?.mpr hi
    rw [RecordImported, hrecords₃, ← RecordImported, ← alreadyImported_iff]
    exact hrecords _ hmem

/-- A call that returned leaves its request imported. -/
theorem imported_of_ok {accountIds : ℤ → Uuid} {ids : ℕ → ℕ → Uuid} {now : Time}
    {request : LegacyImportRequest} {importRunId : Uuid} {out : ℕ × ImportCounts} {c c' : Catalog}
    (h : importLegacySnapshot accountIds ids now request importRunId c = (.ok out, c')) :
    validSourceId request.sourceId = true ∧
      (∃ integrations owners, integrationsByUser request.snapshot.integrations = .ok integrations ∧
        ownerRefs request integrations = .ok owners) ∧ Imported request c'.tables := by
  unfold importLegacySnapshot at h
  cases hsource : validSourceId request.sourceId with
  | false =>
    rw [hsource] at h
    cases h
  | true =>
    rw [hsource, if_neg (by simp)] at h
    cases hintegrations : integrationsByUser request.snapshot.integrations with
    | error e =>
      rw [hintegrations] at h
      cases h
    | ok integrations =>
      cases howners : ownerRefs request integrations with
      | error e =>
        simp only [hintegrations, bind, Except.bind, howners] at h
        cases h
      | ok owners =>
        simp only [hintegrations, bind, Except.bind, howners] at h
        refine ⟨rfl, ⟨integrations, owners, rfl, howners⟩, ?_⟩
        split at h
        · cases h
        · split at h
          · next out' c₂ htransaction =>
            cases h
            exact (importLegacyTransaction_imported htransaction).2.2
          · cases h

/-! ### In between -/

/-- **One operation** that erases no imported owner keeps the request imported. -/
theorem Operation.commit_imported (k : Contracts) (c : Catalog) (op : Operation)
    {request : LegacyImportRequest} (h : Imported request c.tables)
    (hguard : op.erasesImport request c.tables = false) : Imported request (op.commit k c).tables := by
  have hother : op.leaves .legacyImportAccounts = true →
      op.leaves .legacyImportRepositoryRecords = true → Imported request (op.commit k c).tables := by
    intro haccounts hrecords
    refine h.mono (fun b hb => ?_) fun r hr => ?_
    · rw [show (op.commit k c).tables.legacyImportAccounts = c.tables.legacyImportAccounts from
        rows_commit k c op .legacyImportAccounts haccounts]
      exact hb
    · rw [show (op.commit k c).tables.legacyImportRepositoryRecords =
        c.tables.legacyImportRepositoryRecords from
          rows_commit k c op .legacyImportRepositoryRecords hrecords]
      exact hr
  cases op with
  | importLegacy accountIds ids now other importRunId =>
    rcases Tx.commit_cases (importLegacyTransaction accountIds ids now other importRunId) c with
      ⟨out, hok⟩ | hkept
    · obtain ⟨haccounts, hrecords, -⟩ := importLegacyTransaction_imported hok
      exact h.mono haccounts hrecords
    · rw [Operation.commit, hkept]
      exact h
  | eraseAccount now owner operation =>
    rcases Tx.commit_cases (eraseAccountInTx now owner operation) c with ⟨⟨⟩, hok⟩ | hkept
    · obtain ⟨c₁, h₁, hagree⟩ := eraseAccountInTx_eq_ok hok
      have hstate := eraseOwnerState_eq h₁
      simp only [Operation.erasesImport, Bool.or_eq_false_iff, List.any_eq_false] at hguard
      rw [Operation.commit]
      refine ⟨fun user huser => ?_, fun record hrecord => ?_⟩
      · obtain ⟨b, hb, hsource, hname⟩ := h.users user huser
        refine ⟨b, ?_, hsource, hname⟩
        rw [show ((eraseAccountInTx now owner operation).commit c).tables.legacyImportAccounts =
          c₁.tables.legacyImportAccounts from hagree .legacyImportAccounts (by decide), hstate]
        refine mem_deleteWhere.mpr ⟨hb, ?_⟩
        simpa [hsource, hname, huser] using hguard.1 b hb
      · obtain ⟨r, hr, hsource, hname⟩ := h.records record hrecord
        refine ⟨r, ?_, hsource, hname⟩
        rw [show ((eraseAccountInTx now owner operation).commit c).tables.legacyImportRepositoryRecords =
          c₁.tables.legacyImportRepositoryRecords from
            hagree .legacyImportRepositoryRecords (by decide), hstate]
        refine mem_deleteWhere.mpr ⟨hr, ?_⟩
        have hnamed : (request.snapshot.repositories.any fun record =>
            decide (record.legacyRepositoryId = r.legacyRepositoryId)) = true :=
          List.any_eq_true.mpr ⟨record, hrecord, decide_eq_true hname.symm⟩
        simpa [hsource, hnamed] using hguard.2 r hr
    · rw [Operation.commit, hkept]
      exact h
  | _ => exact hother rfl rfl

theorem imported_run (k : Contracts) {request : LegacyImportRequest} {c : Catalog}
    (h : Imported request c.tables) {history : List Operation}
    (hguard : Guarded (step k) (fun c op => op.erasesImport request c.tables = false) c history) :
    Imported request (runFrom (step k) c history).tables := by
  refine (throughout_of_guarded (P := fun c => Imported request c.tables) ?_ h hguard).last
  intro c op hc hfree
  unfold step
  split
  · exact op.commit_imported k c hc hfree
  · exact hc

/-! ### The second call -/

/-- The first loop over bound users finds their accounts and writes nothing. -/
theorem importLegacyAccounts_bound {ids : ℤ → Uuid} {sourceId : String}
    {integrations : List LegacyIntegration} {owners : List (ℤ × String)} {c : Catalog}
    (h : ∀ p ∈ owners, UserImported sourceId p.1 c.tables) :
    ∃ accounts, importLegacyAccounts ids sourceId integrations owners c = .ok ((accounts, 0), c) := by
  induction owners with
  | nil => exact ⟨[], rfl⟩
  | cons p rest ih =>
    obtain ⟨accounts, hrest⟩ := ih fun q hq => h q (List.mem_cons_of_mem _ hq)
    obtain ⟨a, ha⟩ := Option.isSome_iff_exists.mp
      (boundAccount_isSome.mpr (h p List.mem_cons_self))
    have hfirst : importedAccountId (ids p.1) sourceId p.1 p.2
        (integrations.find? fun i => decide (i.legacyUserId = p.1)) c = .ok ((a, false), c) := by
      refine Tx.bind_eq_ok.mpr ⟨some a, c, select_eq_ok.mpr ⟨ha, rfl⟩, rfl⟩
    refine ⟨(p.1, a) :: accounts, ?_⟩
    refine Tx.bind_eq_ok.mpr ⟨_, c, hfirst, ?_⟩
    exact Tx.bind_eq_ok.mpr ⟨_, c, hrest, rfl⟩

/-- The second loop over imported records skips them all. -/
theorem importLegacyRepositories_skipped {ids : ℕ → ℕ → Uuid} {now : Time} {sourceId : String}
    {accounts : List (ℤ × Uuid)} {records : List (LegacyRepository × ℕ)} {c : Catalog}
    (h : ∀ p ∈ records, alreadyImported sourceId p.1 c.tables = true) :
    importLegacyRepositories ids now sourceId accounts records c = .ok ({}, c) := by
  induction records with
  | nil => rfl
  | cons p rest ih =>
    have hfirst : importLegacyRepository (ids p.2) now sourceId accounts p.1 c = .ok ({}, c) := by
      refine Tx.bind_eq_ok.mpr ⟨true, c, select_eq_ok.mpr ⟨h p List.mem_cons_self, rfl⟩, ?_⟩
      exact Tx.pure_eq_ok.mpr ⟨rfl, rfl⟩
    refine Tx.bind_eq_ok.mpr ⟨_, c, hfirst, ?_⟩
    exact Tx.bind_eq_ok.mpr ⟨_, c, ih fun q hq => h q (List.mem_cons_of_mem _ hq), rfl⟩

/-- The run rows may be replaced by any checked rows of distinct runs. -/
theorem constraints_importRuns {db : Database} (h : Constraints db) {rows : List LegacyImportRun}
    (hunique : UniqueOn (·.importRunId) rows) (hcheck : ∀ r ∈ rows, r.check = true) :
    Constraints (db.put .legacyImportRuns rows) where
  keys := { h.keys with importRuns := hunique }
  checks := { h.checks with importRuns := hcheck }
  foreignKeys := { h.foreignKeys with runs_account := h.foreignKeys.runs_account }

/-- A new run's row. -/
theorem constraints_newImportRun {c : Catalog} (row : LegacyImportRun)
    (hfresh : row.importRunId ∉ c.tables.legacyImportRuns.map (·.importRunId))
    (hcheck : row.check = true) :
    Constraints (c.tables.put .legacyImportRuns (c.tables.legacyImportRuns ++ [row])) :=
  constraints_importRuns c.valid (UniqueOn.append_singleton c.valid.keys.importRuns hfresh)
    (forall_append_singleton c.valid.checks.importRuns hcheck)

theorem updateWhere_append_fresh {rows : List LegacyImportRun} (row : LegacyImportRun)
    {f : LegacyImportRun → LegacyImportRun} (hfresh : row.importRunId ∉ rows.map (·.importRunId)) :
    updateWhere (fun r => decide (r.importRunId = row.importRunId)) f (rows ++ [row]) =
      rows ++ [f row] := by
  have hrows : updateWhere (fun r => decide (r.importRunId = row.importRunId)) f rows = rows :=
    updateWhere_of_none fun r hr => decide_eq_false fun hid => hfresh (hid ▸ List.mem_map_of_mem hr)
  unfold updateWhere at hrows ⊢
  rw [List.map_append, hrows, List.map_singleton, if_pos (decide_eq_true rfl)]

/-- The row of a running import. -/
def runningImportRun (importRunId : Uuid) (sourceId : String) : LegacyImportRun :=
  ⟨importRunId, sourceId, .running, 0, 0, 0, 0, none, none⟩

/-- The row of a run that completed with nothing to import. -/
def emptyImportRun (now : Time) (importRunId : Uuid) (sourceId : String) : LegacyImportRun :=
  ⟨importRunId, sourceId, .completed, 0, 0, 0, 0, none, some now⟩

/-- **Import idempotence.**  After a call that returned, and any history without an erasure of an
imported owner, the same request returns zero counts under a new run id and changes no table but that of
the import runs, by one completed row. -/
theorem import_again (k : Contracts) {accountIds accountIds' : ℤ → Uuid} {ids ids' : ℕ → ℕ → Uuid}
    {now now' : Time} {request : LegacyImportRequest} {importRunId importRunId' : Uuid}
    {out : ℕ × ImportCounts} {c₀ c₁ : Catalog}
    (hfirst : importLegacySnapshot accountIds ids now request importRunId c₀ = (.ok out, c₁))
    (history : List Operation)
    (hguard : Guarded (step k) (fun c op => op.erasesImport request c.tables = false) c₁ history)
    (hfresh : importRunId' ∉
      (runFrom (step k) c₁ history).tables.legacyImportRuns.map (·.importRunId)) :
    ∃ c', importLegacySnapshot accountIds' ids' now' request importRunId'
        (runFrom (step k) c₁ history) = (.ok (0, {}), c') ∧
      c'.tables = { (runFrom (step k) c₁ history).tables with
        legacyImportRuns := (runFrom (step k) c₁ history).tables.legacyImportRuns ++
          [emptyImportRun now' importRunId' request.sourceId] } := by
  obtain ⟨hsource, ⟨integrations, owners, hintegrations, howners⟩, himported⟩ := imported_of_ok hfirst
  have hafter := imported_run k himported hguard
  generalize runFrom (step k) c₁ history = c at hfresh hafter ⊢
  -- The row of the running import.
  have hsourceId : isSourceId request.sourceId = true := hsource
  have hstarted := constraints_newImportRun (runningImportRun importRunId' request.sourceId) hfresh
    (by simp [runningImportRun, LegacyImportRun.check, hsourceId])
  have hstart : startImportRun importRunId' request.sourceId c = .ok ((), ⟨_, hstarted⟩) :=
    write_of_valid hstarted
  -- Both loops find everything imported.
  obtain ⟨accounts, haccounts⟩ : ∃ accounts, importLegacyAccounts accountIds' request.sourceId
      integrations owners ⟨_, hstarted⟩ = .ok ((accounts, 0), ⟨_, hstarted⟩) := by
    refine importLegacyAccounts_bound fun p hp => ?_
    exact hafter.users p.1
      ((ownerRefs_users hintegrations howners p.1).mp (List.mem_map_of_mem hp))
  have hrecords : importLegacyRepositories ids' now' request.sourceId accounts
      request.snapshot.repositories.zipIdx ⟨_, hstarted⟩ = .ok ({}, ⟨_, hstarted⟩) := by
    refine importLegacyRepositories_skipped fun p hp => ?_
    exact alreadyImported_iff.mpr (hafter.records p.1 (List.fst_mem_of_mem_zipIdx hp))
  -- The row of the completed import.
  have hcompleted : Constraints (c.tables.put .legacyImportRuns
      (c.tables.legacyImportRuns ++ [emptyImportRun now' importRunId' request.sourceId])) :=
    constraints_newImportRun _ hfresh
      (by simp [emptyImportRun, LegacyImportRun.check, hsourceId])
  have hcomplete : completeImportRun now' importRunId' 0 {} ⟨_, hstarted⟩ =
      .ok ((), ⟨_, hcompleted⟩) := by
    have hrow : ∀ f, updateWhere (fun r => decide (r.importRunId = importRunId')) f
        (c.tables.legacyImportRuns ++ [runningImportRun importRunId' request.sourceId]) =
          c.tables.legacyImportRuns ++ [f (runningImportRun importRunId' request.sourceId)] :=
      fun f => updateWhere_append_fresh (runningImportRun importRunId' request.sourceId) hfresh
    refine write_eq_ok.mpr ?_
    show _ = (c.tables.put .legacyImportRuns _).put .legacyImportRuns (updateWhere
      (fun r => decide (r.importRunId = importRunId')) _ (c.tables.legacyImportRuns ++ [_]))
    rw [hrow]
    rfl
  have htransaction : importLegacyTransaction accountIds' ids' now' request importRunId'
      ⟨_, hstarted⟩ = .ok ((0, {}), ⟨_, hcompleted⟩) := by
    refine Tx.bind_eq_ok.mpr ⟨integrations, _, attempt_eq_ok.mpr ⟨hintegrations, rfl⟩, ?_⟩
    refine Tx.bind_eq_ok.mpr ⟨owners, _, attempt_eq_ok.mpr ⟨howners, rfl⟩, ?_⟩
    refine Tx.bind_eq_ok.mpr ⟨_, _, haccounts, ?_⟩
    refine Tx.bind_eq_ok.mpr ⟨_, _, hrecords, ?_⟩
    exact Tx.bind_eq_ok.mpr ⟨_, _, hcomplete, rfl⟩
  refine ⟨⟨_, hcompleted⟩, ?_, rfl⟩
  simp only [importLegacySnapshot, hsource, Bool.not_true, Bool.false_eq_true, if_false,
    hintegrations, bind, Except.bind, howners, hstart, htransaction]

/-- A retired user's repository, starred and on one list. -/
def retiredRequest : LegacyImportRequest :=
  ⟨"retired", [(1, "owner-a")],
    ⟨[⟨5, 101, "owner", "name", 1, true, none, ["reading"]⟩], [⟨1, none, none, none⟩]⟩⟩

/-- The catalog after its import. -/
def retiredCatalog : Catalog :=
  (importLegacySnapshot (BitVec.ofInt 128) (fun _ n => 100 + BitVec.ofNat 128 n) 0 retiredRequest 2
    emptyCatalog).2

/-- The imported account connects and takes the imported star back. -/
def retiredHistory : List Operation :=
  [connectAccount 1 7,
    .persistConfirmedStar (fun n => 60 + BitVec.ofNat 128 n) 1 ⟨1, "owner-a", .web⟩ 101 "k1" .remove]

theorem retired_imported :
    importLegacySnapshot (BitVec.ofInt 128) (fun _ n => 100 + BitVec.ofNat 128 n) 0 retiredRequest 2
      emptyCatalog = (.ok (1, ⟨1, 1, 1⟩), retiredCatalog) := by
  have hanswer : (importLegacySnapshot (BitVec.ofInt 128) (fun _ n => 100 + BitVec.ofNat 128 n) 0
      retiredRequest 2 emptyCatalog).1 = .ok (1, ⟨1, 1, 1⟩) := by
    decide +kernel
  unfold retiredCatalog
  rw [← hanswer]

theorem import_again_retired :
    ∃ c', importLegacySnapshot (fun _ => 9) (fun _ _ => 9) 2 retiredRequest 3
        (runFrom (step sampleContracts) retiredCatalog retiredHistory) = (.ok (0, {}), c') ∧
      c'.tables = { (runFrom (step sampleContracts) retiredCatalog retiredHistory).tables with
        legacyImportRuns :=
          (runFrom (step sampleContracts) retiredCatalog retiredHistory).tables.legacyImportRuns ++
            [emptyImportRun 2 3 retiredRequest.sourceId] } := by
  have hguard : Guarded (step sampleContracts)
      (fun c op => op.erasesImport retiredRequest c.tables = false) retiredCatalog retiredHistory :=
    ⟨rfl, rfl, trivial⟩
  have hfresh : (3 : Uuid) ∉ (runFrom (step sampleContracts) retiredCatalog
      retiredHistory).tables.legacyImportRuns.map (·.importRunId) := by
    decide +kernel
  exact import_again sampleContracts retired_imported retiredHistory hguard hfresh

end GithubCatalog
