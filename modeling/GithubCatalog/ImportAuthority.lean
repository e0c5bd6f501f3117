import GithubCatalog.ImportLoops
import GithubCatalog.SnapshotSwap

/-!
# Imports over established stars

A completed snapshot, an ingested entry and a confirmed mutation establish a star row.  `Evidenced` is
the catalog together with the star rows so established: a row written by one of the three counts as
proven until some other step writes it.  An import writes a star of unknown time over whatever it finds
under its account and repository, so it keeps the proven rows exactly when none of its new records names
one (`claimedStars`).

* `Operation.provesStars` - the operations that establish star rows;
* `Evidenced.step` - the catalog with its proven rows;
* `claimedStars` - the star rows an import writes over;
* `import_keeps_proven_iff` - the imports that keep what is proven.
-/

namespace GithubCatalog

open Relational Transact Runs

/-- The star row of an account and a repository. -/
def starRow (key : Uuid × Uuid) (db : Database) : Option CurrentStarState :=
  db.currentStarState.find? fun c => decide (c.key = key)

/-- Whether an operation writes star rows from provider evidence. -/
def Operation.provesStars : Operation → Bool
  | .applyAuthority .. | .recordIngest .. | .persistConfirmedStar .. => true
  | _ => false

/-- A catalog and the keys of the star rows that provider evidence wrote last. -/
structure Evidenced where
  catalog : Catalog
  proven : Uuid × Uuid → Bool

/-- One operation: a row it leaves as it was stays proven or unproven, a row it wrote is proven when
the operation is one of evidence. -/
def Evidenced.step (k : Contracts) (e : Evidenced) (op : Operation) : Evidenced :=
  let catalog := GithubCatalog.step k e.catalog op
  ⟨catalog, fun key => (starRow key catalog.tables).isSome &&
    if starRow key catalog.tables = starRow key e.catalog.tables then e.proven key
    else op.provesStars⟩

/-- The empty catalog. -/
def Evidenced.empty : Evidenced := ⟨emptyCatalog, fun _ => false⟩

/-- The account an import of the request finds for a retired user. -/
def LegacyImportRequest.accountOf (request : LegacyImportRequest) (legacyUserId : ℤ) (db : Database) :
    Option Uuid :=
  (request.ownerMap.lookup legacyUserId).bind fun owner =>
    foundAccount request.sourceId legacyUserId owner
      (request.snapshot.integrations.find? fun i => decide (i.legacyUserId = legacyUserId)) db

/-- The key of the star row that a starred record names, when both halves exist. -/
def LegacyImportRequest.claim (request : LegacyImportRequest) (db : Database)
    (record : LegacyRepository) : Option (Uuid × Uuid) :=
  if record.starred then
    (request.accountOf record.legacyUserId db).bind fun account =>
      (repositoryOf record.providerRepositoryId db).map fun r => (account, r.repositoryId)
  else none

/-- **The star rows an import writes over**: those its new starred records name. -/
def claimedStars (request : LegacyImportRequest) (db : Database) : List (Uuid × Uuid) :=
  (newRecords request.sourceId db [] request.snapshot.repositories).filterMap (request.claim db)

/-! ### Star rows -/

/-- The row of a star whose time an import did not know. -/
def CurrentStarState.imported (c : CurrentStarState) : Bool :=
  c.starred && c.starredAt.isNone && c.providerStarredAtUnknown

theorem starRow_eq_some {key : Uuid × Uuid} {c : Catalog} {s : CurrentStarState} :
    starRow key c.tables = some s ↔ s ∈ c.tables.currentStarState ∧ s.key = key := by
  constructor
  · intro h
    exact ⟨List.mem_of_find?_eq_some h, by simpa using List.find?_some h⟩
  · rintro ⟨hs, rfl⟩
    exact c.valid.keys.stars.find?_eq hs

/-- A star row refers to an account and a repository. -/
theorem starRow_refers {key : Uuid × Uuid} {c : Catalog} (h : (starRow key c.tables).isSome = true) :
    key.1 ∈ c.tables.githubAccounts.map (·.accountId) ∧
      key.2 ∈ c.tables.repositories.map (·.repositoryId) := by
  obtain ⟨s, hs⟩ := Option.isSome_iff_exists.mp h
  obtain ⟨hmem, rfl⟩ := starRow_eq_some.mp hs
  exact ⟨c.valid.foreignKeys.stars_account s hmem _ rfl,
    c.valid.foreignKeys.stars_repository s hmem _ rfl⟩

theorem starRow_upsert_own {observedAt : Time} {key : Uuid × Uuid} {t : List CurrentStarState} :
    (upsertWhere (fun s => decide (s.key = key)) (legacyStarOver observedAt)
      (legacyStarRow key.1 key.2 observedAt) t).find? (fun s => decide (s.key = key)) =
      some (legacyStarRow key.1 key.2 observedAt) := by
  have hover : ∀ s : CurrentStarState, decide (s.key = key) = true →
      decide ((legacyStarOver observedAt s).key = key) = true := fun _ hs => hs
  rw [find?_upsertWhere_self hover (decide_eq_true rfl)]
  cases hfind : t.find? fun s => decide (s.key = key) with
  | none => rfl
  | some s =>
    have hkey : s.key = key := by simpa using List.find?_some hfind
    rw [← hkey]
    rfl

/-! ### What is proven -/

/-- A proven row exists and knows more than an import does. -/
def ProvenKnown (e : Evidenced) : Prop :=
  ∀ key, e.proven key = true → ∃ s, starRow key e.catalog.tables = some s ∧ s.imported = false

/-- **What evidence writes**: every other row is as it was. -/
theorem provesStars_written {k : Contracts} {op : Operation} (h : op.provesStars = true) (c : Catalog) :
    ∀ s ∈ (op.commit k c).tables.currentStarState,
      s ∈ c.tables.currentStarState ∨ s.imported = false := by
  have hsame : ∀ s ∈ c.tables.currentStarState, s ∈ c.tables.currentStarState ∨ s.imported = false :=
    fun s hs => .inl hs
  cases op with
  | applyAuthority ids unstarIds now runId accountId =>
    rcases Tx.commit_cases (applyAuthorityAndComplete ids unstarIds now runId accountId) c with
      ⟨counts, hok⟩ | hkept
    · rw [Operation.commit, applyAuthority_stars hok]
      refine forall_updateWhere (forall_upsertAll hsame ?_ ?_) fun s _ _ => .inr rfl
      · intro row hrow
        obtain ⟨p, -, rfl⟩ := List.mem_map.mp hrow
        exact .inr (Bool.and_false _)
      · exact fun s row _ _ _ => .inr (Bool.and_false _)
    · rw [Operation.commit, hkept]
      exact hsame
  | recordIngest observationId now runId accountId repositoryId seenAt =>
    rcases Tx.commit_cases
        (GithubCatalog.recordIngest observationId now runId accountId repositoryId seenAt) c with
      ⟨u, hok⟩ | hkept
    · rw [Operation.commit, recordIngest_stars hok]
      refine forall_upsertWhere hsame (fun s _ _ => .inr ?_) (.inr rfl)
      cases s.starredAt <;> simp [CurrentStarState.imported, ingestOver]
    · rw [Operation.commit, hkept]
      exact hsame
  | persistConfirmedStar ids now context pid key direction =>
    rcases Tx.commit_cases (GithubCatalog.persistConfirmedStar ids now context pid key direction) c with
      ⟨status, hok⟩ | hkept
    · obtain ⟨repository, c₁, h₁, -, hstars, -⟩ := persistConfirmedStar_eq_ok hok
      have hstars₁ : c₁.tables.currentStarState = c.tables.currentStarState :=
        (upsertRepositoryInTx_spec h₁).2.1 .currentStarState (by decide)
      rw [Operation.commit, hstars, hstars₁]
      refine forall_upsertWhere hsame (fun s _ _ => .inr ?_) (.inr ?_)
      · cases direction <;> cases s.starredAt <;>
          simp [CurrentStarState.imported, StarDirection.over, confirmStar, confirmUnstar]
      · cases direction <;> rfl
    · rw [Operation.commit, hkept]
      exact hsame
  | _ => cases h

theorem ProvenKnown.step {k : Contracts} {e : Evidenced} (h : ProvenKnown e) (op : Operation) :
    ProvenKnown (e.step k op) := by
  intro key hproven
  simp only [Evidenced.step, Bool.and_eq_true] at hproven
  obtain ⟨hsome, hproven⟩ := hproven
  by_cases hsame : starRow key (GithubCatalog.step k e.catalog op).tables =
      starRow key e.catalog.tables
  · rw [if_pos hsame] at hproven
    obtain ⟨s, hs, hknown⟩ := h key hproven
    exact ⟨s, hsame.trans hs, hknown⟩
  · rw [if_neg hsame] at hproven
    obtain ⟨s, hs⟩ := Option.isSome_iff_exists.mp hsome
    refine ⟨s, hs, ?_⟩
    obtain ⟨hmem, hkey⟩ := starRow_eq_some.mp hs
    unfold GithubCatalog.step at hmem hsame hs
    split at hmem
    · next hadmissible =>
      rw [if_pos hadmissible] at hsame hs
      rcases provesStars_written hproven e.catalog s hmem with hold | hknown
      · exact absurd (hs.trans (starRow_eq_some.mpr ⟨hold, hkey⟩).symm) hsame
      · exact hknown
    · next hrefused =>
      rw [if_neg hrefused] at hsame
      exact absurd rfl hsame

theorem provenKnown_run (k : Contracts) (history : List Operation) :
    ProvenKnown (runFrom (Evidenced.step k) Evidenced.empty history) :=
  invariant_runFrom (P := ProvenKnown) (fun _ op h => h.step op) (fun _ hproven => absurd hproven Bool.false_ne_true)
    history

/-! ### What an import writes -/

/-- The catalog while the second loop of an import that found `db₀` runs. -/
structure ImportProgress (sourceId : String) (seen : List ℤ) (db₀ db : Database) : Prop where
  repositories : ∃ extra, db.repositories = db₀.repositories ++ extra
  imported : ∀ record, alreadyImported sourceId record db =
    (alreadyImported sourceId record db₀ || decide (record.legacyRepositoryId ∈ seen))

theorem ImportProgress.refl (sourceId : String) (db : Database) : ImportProgress sourceId [] db db :=
  ⟨⟨[], (List.append_nil _).symm⟩, fun _ => (Bool.or_false _).symm⟩

section record

variable {request : LegacyImportRequest} {seen : List ℤ} {record : LegacyRepository}
  {account repository : Uuid} {observedAt : Time} {key : Uuid × Uuid} {db₀ : Database}
  {c c' : Catalog}

theorem ImportProgress.written (h : ImportProgress request.sourceId seen db₀ c.tables)
    (hwritten : RecordWritten request.sourceId record account repository observedAt c.tables c'.tables) :
    ImportProgress request.sourceId (record.legacyRepositoryId :: seen) db₀ c'.tables := by
  obtain ⟨xs, hxs⟩ := h.repositories
  obtain ⟨ys, hys⟩ := hwritten.repositories
  refine ⟨⟨xs ++ ys, by rw [hys, hxs, List.append_assoc]⟩, fun other => ?_⟩
  rw [hwritten.alreadyImported, h.imported, Bool.or_assoc]
  congr 1
  rw [Bool.eq_iff_iff]
  simp only [Bool.or_eq_true, decide_eq_true_eq, List.mem_cons]
  exact Or.comm.trans (or_congr_left eq_comm)

/-- The account and the repository of a record, as the catalog before the import has them. -/
theorem claim_eq_some (hstarred : record.starred = true) :
    request.claim db₀ record = some key ↔ request.accountOf record.legacyUserId db₀ = some key.1 ∧
      ∃ r, repositoryOf record.providerRepositoryId db₀ = some r ∧ r.repositoryId = key.2 := by
  rw [LegacyImportRequest.claim, if_pos hstarred, Option.bind_eq_some_iff]
  constructor
  · rintro ⟨a, ha, hpair⟩
    obtain ⟨r, hr, rfl⟩ := Option.map_eq_some_iff.mp hpair
    exact ⟨ha, r, hr, rfl⟩
  · rintro ⟨ha, r, hr, hid⟩
    exact ⟨key.1, ha, Option.map_eq_some_iff.mpr ⟨r, hr, Prod.ext rfl hid⟩⟩

/-- A repository catalogued before the import resolves as it did. -/
theorem repositoryOf_old (h : ImportProgress request.sourceId seen db₀ c.tables) {pid : ℤ}
    {r : Repository} (hr : repositoryOf pid c.tables = some r)
    (hold : r.repositoryId ∈ db₀.repositories.map (·.repositoryId)) :
    repositoryOf pid db₀ = some r := by
  obtain ⟨extra, hextra⟩ := h.repositories
  rw [repositoryOf, hextra, List.find?_append, Option.or_eq_some_iff] at hr
  rcases hr with hr | ⟨-, hr⟩
  · exact hr
  · obtain ⟨q, hq, hid⟩ := List.mem_map.mp hold
    have hunique := c.valid.keys.repositories
    rw [hextra, UniqueOn, List.map_append, List.nodup_append] at hunique
    exact absurd hid (hunique.2.2 _ (List.mem_map_of_mem hq) _
      (List.mem_map_of_mem (List.mem_of_find?_eq_some hr)))

/-- **One record** writes the star row it claims and no other that the catalog had. -/
theorem RecordWritten.starRow
    (hwritten : RecordWritten request.sourceId record account repository observedAt c.tables c'.tables)
    (h : ImportProgress request.sourceId seen db₀ c.tables)
    (hfound : ∀ a, request.accountOf record.legacyUserId db₀ = some a → a = account)
    (hold : account ∈ db₀.githubAccounts.map (·.accountId) →
      request.accountOf record.legacyUserId db₀ = some account)
    (haccount : key.1 ∈ db₀.githubAccounts.map (·.accountId))
    (hrepository : key.2 ∈ db₀.repositories.map (·.repositoryId)) :
    starRow key c'.tables = if request.claim db₀ record = some key then
      some (legacyStarRow key.1 key.2 observedAt) else starRow key c.tables := by
  obtain ⟨r, hr, hid⟩ := hwritten.named
  have hafter := h.written hwritten
  unfold GithubCatalog.starRow
  rw [hwritten.stars]
  cases hstarred : record.starred with
  | false =>
    rw [if_neg (by simp), if_neg]
    rw [LegacyImportRequest.claim, hstarred]
    simp
  | true =>
    rw [if_pos rfl]
    by_cases hkey : (account, repository) = key
    · subst hkey
      rw [starRow_upsert_own, if_pos]
      rw [claim_eq_some hstarred]
      exact ⟨hold haccount, r, repositoryOf_old hafter hr (hid ▸ hrepository), hid⟩
    · have hover : ∀ s : CurrentStarState, (legacyStarOver observedAt s).key = s.key := fun _ => rfl
      have hrow : (legacyStarRow account repository observedAt).key = (account, repository) := rfl
      rw [find?_upsertWhere_other hover hrow hkey, if_neg]
      intro hclaim
      obtain ⟨ha, q, hq, hqid⟩ := (claim_eq_some hstarred).mp hclaim
      obtain ⟨extra, hextra⟩ := hafter.repositories
      rw [repositoryOf, hextra, List.find?_append, show db₀.repositories.find? _ = some q from hq,
        Option.some_or] at hr
      apply hkey
      rw [← hfound _ ha, ← hid, ← Option.some.inj hr, hqid]

end record

/-- **The second loop** writes the star rows that its records claim and no other that the catalog
had. -/
theorem importLegacyRepositories_stars {request : LegacyImportRequest} {db₀ : Database}
    {accounts : List (ℤ × Uuid)} {ids : ℕ → ℕ → Uuid} {now : Time}
    (haccounts : ∀ user a, accounts.lookup user = some a →
      (∀ b, request.accountOf user db₀ = some b → b = a) ∧
        (a ∈ db₀.githubAccounts.map (·.accountId) → request.accountOf user db₀ = some a))
    {key : Uuid × Uuid} (haccount : key.1 ∈ db₀.githubAccounts.map (·.accountId))
    (hrepository : key.2 ∈ db₀.repositories.map (·.repositoryId))
    {records : List (LegacyRepository × ℕ)} {counts : ImportCounts} {c c' : Catalog} {seen : List ℤ}
    (h : importLegacyRepositories ids now request.sourceId accounts records c = .ok (counts, c'))
    (hprogress : ImportProgress request.sourceId seen db₀ c.tables) :
    if key ∈ (newRecords request.sourceId db₀ seen (records.map Prod.fst)).filterMap
        (request.claim db₀) then
      ∃ observedAt, starRow key c'.tables = some (legacyStarRow key.1 key.2 observedAt)
    else starRow key c'.tables = starRow key c.tables := by
  induction records generalizing c counts seen with
  | nil =>
    obtain ⟨-, rfl⟩ := Tx.pure_eq_ok.mp h
    rw [if_neg]
    exact List.not_mem_nil
  | cons p rest ih =>
    obtain ⟨record, n⟩ := p
    simp only [importLegacyRepositories, Tx.bind_eq_ok, Tx.pure_eq_ok] at h
    obtain ⟨first, c₁, h₁, others, c₂, h₂, -, rfl⟩ := h
    rw [List.map_cons, newRecords, ← hprogress.imported]
    rcases importLegacyRepository_cases h₁ with ⟨halready, -, rfl⟩ | ⟨hnew, account, hlookup, q, hwritten⟩
    · rw [if_pos halready]
      exact ih h₂ hprogress
    · obtain ⟨hfound, hold⟩ := haccounts _ _ hlookup
      have hstar := hwritten.starRow hprogress hfound hold haccount hrepository
      have hrest := ih h₂ (hprogress.written hwritten)
      rw [hnew, if_neg Bool.false_ne_true, List.filterMap_cons]
      -- A later record may claim the row again.
      split at hrest
      · next hlater =>
        rw [if_pos]
        · exact hrest
        · split
          · exact hlater
          · exact List.mem_cons_of_mem _ hlater
      · next hlater =>
        rw [hrest, hstar]
        cases hclaim : request.claim db₀ record with
        | none =>
          rw [if_neg hlater, if_neg (by simp)]
        | some claimed =>
          by_cases hkey : claimed = key
          · subst hkey
            rw [if_pos List.mem_cons_self, if_pos rfl]
            exact ⟨_, rfl⟩
          · rw [if_neg, if_neg (by simpa using hkey)]
            simpa [Ne.symm hkey] using hlater

/-- **An import** writes the star rows that its new records claim and no other. -/
theorem importLegacyTransaction_stars {accountIds : ℤ → Uuid} {ids : ℕ → ℕ → Uuid} {now : Time}
    {request : LegacyImportRequest} {importRunId : Uuid} {c c' : Catalog} {out : ℕ × ImportCounts}
    (h : importLegacyTransaction accountIds ids now request importRunId c = .ok (out, c'))
    {key : Uuid × Uuid} (hrow : (starRow key c.tables).isSome = true) :
    if key ∈ claimedStars request c.tables then
      ∃ observedAt, starRow key c'.tables = some (legacyStarRow key.1 key.2 observedAt)
    else starRow key c'.tables = starRow key c.tables := by
  simp only [importLegacyTransaction, Tx.bind_eq_ok, attempt_eq_ok, Tx.pure_eq_ok] at h
  obtain ⟨integrations, _, ⟨hintegrations, rfl⟩, owners, _, ⟨howners, rfl⟩, ⟨accounts, n⟩, c₁, h₁,
    counts, c₂, h₂, ⟨⟩, c₃, h₃, -, rfl⟩ := h
  obtain ⟨hadded, husers, hresolved⟩ := importLegacyAccounts_spec h₁
  have hframe : AgreeOff [.githubAccounts, .legacyImportAccounts] c.tables c₁.tables :=
    touches_importLegacyAccounts _ _ _ _ _ _ _ h₁
  have hstars₁ : starRow key c₁.tables = starRow key c.tables := by
    rw [starRow, starRow, show c₁.tables.currentStarState = c.tables.currentStarState from
      hframe .currentStarState (by decide)]
  have hstars₃ : starRow key c₃.tables = starRow key c₂.tables := by
    rw [starRow, starRow, write_eq_ok.mp h₃]
    rfl
  have hprogress : ImportProgress request.sourceId [] c.tables c₁.tables := by
    refine ⟨⟨[], ?_⟩, fun record => ?_⟩
    · rw [List.append_nil]
      exact hframe .repositories (by decide)
    · rw [alreadyImported, alreadyImported,
        show c₁.tables.legacyImportRepositoryRecords = c.tables.legacyImportRepositoryRecords from
          hframe .legacyImportRepositoryRecords (by decide)]
      exact (Bool.or_false _).symm
  have haccounts : ∀ user a, accounts.lookup user = some a →
      (∀ b, request.accountOf user c.tables = some b → b = a) ∧
        (a ∈ c.tables.githubAccounts.map (·.accountId) →
          request.accountOf user c.tables = some a) := by
    intro user a ha
    have hmem : user ∈ owners.map Prod.fst := by
      rw [← husers]
      exact List.mem_map_of_mem (mem_of_lookup ha)
    obtain ⟨owner, howner⟩ := lookup_of_mem hmem
    obtain ⟨b, hb, hres⟩ := hresolved user owner howner
    cases ha.symm.trans hb
    have hof : request.accountOf user c.tables = foundAccount request.sourceId user owner
        (integrations.find? fun i => decide (i.legacyUserId = user)) c.tables := by
      rw [LegacyImportRequest.accountOf, ownerRefs_mapped howners (mem_of_lookup howner), Option.bind_some,
        integrationsByUser_eq hintegrations]
    rw [hof]
    exact ⟨hres.found, hres.old⟩
  have hloop := importLegacyRepositories_stars haccounts (starRow_refers hrow).1
    (starRow_refers hrow).2 h₂ hprogress
  rw [hstars₃, ← hstars₁]
  rw [List.zipIdx_map_fst] at hloop
  exact hloop

/-! ### What an import keeps -/

/-- The catalog is the one its history reaches. -/
theorem evidenced_catalog (k : Contracts) (history : List Operation) (e : Evidenced) :
    (runFrom (Evidenced.step k) e history).catalog = runFrom (step k) e.catalog history := by
  induction history generalizing e with
  | nil => rfl
  | cons op rest ih => exact ih _

/-- **Imports and evidence.**  After any history, an import that is accepted keeps every row that
provider evidence wrote last exactly when none of its new starred records names such a row. -/
theorem import_keeps_proven_iff (k : Contracts) (history : List Operation) (accountIds : ℤ → Uuid)
    (ids : ℕ → ℕ → Uuid) (now : Time) (request : LegacyImportRequest) (importRunId : Uuid)
    {out : ℕ × ImportCounts} {c' : Catalog}
    (h : importLegacyTransaction accountIds ids now request importRunId
      (runFrom (Evidenced.step k) Evidenced.empty history).catalog = .ok (out, c')) :
    (∀ key, (runFrom (Evidenced.step k) Evidenced.empty history).proven key = true →
        starRow key c'.tables =
          starRow key (runFrom (Evidenced.step k) Evidenced.empty history).catalog.tables) ↔
      ∀ key ∈ claimedStars request
          (runFrom (Evidenced.step k) Evidenced.empty history).catalog.tables,
        (runFrom (Evidenced.step k) Evidenced.empty history).proven key = false := by
  have hknown := provenKnown_run k history
  generalize runFrom (Evidenced.step k) Evidenced.empty history = e at h hknown ⊢
  constructor
  · intro hkept key hclaimed
    rw [← Bool.not_eq_true]
    intro hproven
    obtain ⟨s, hs, hunknown⟩ := hknown key hproven
    have hsome : (starRow key e.catalog.tables).isSome = true := by
      rw [hs]
      rfl
    have hwritten := importLegacyTransaction_stars h hsome
    rw [if_pos hclaimed] at hwritten
    obtain ⟨observedAt, hrow⟩ := hwritten
    rw [hkept key hproven, hs] at hrow
    rw [Option.some.inj hrow] at hunknown
    cases hunknown
  · intro hfree key hproven
    obtain ⟨s, hs, -⟩ := hknown key hproven
    have hsome : (starRow key e.catalog.tables).isSome = true := by
      rw [hs]
      rfl
    have hwritten := importLegacyTransaction_stars h hsome
    rw [if_neg] at hwritten
    · exact hwritten
    · intro hclaimed
      rw [hfree key hclaimed] at hproven
      cases hproven

/-- A star confirmed by the provider, of repository 60 by account 1. -/
def confirmedStarHistory : List Operation :=
  connectOwners ++
    [.persistConfirmedStar (fun n => 60 + BitVec.ofNat 128 n) 0 ⟨1, "owner-a", .web⟩ 101 "k1" .add]

/-- A second archive of account 1's user, with one starred repository. -/
def archiveRequest (providerRepositoryId : ℤ) : LegacyImportRequest :=
  ⟨"archive", [(1, "owner-a")],
    ⟨[⟨5, providerRepositoryId, "owner", "name", 1, true, none, []⟩], [⟨1, none, none, some 7⟩]⟩⟩

/-- An archive of another repository keeps the confirmed star. -/
theorem import_keeps_proven_other :
    ∃ out c', importLegacyTransaction (BitVec.ofInt 128) (fun _ n => 100 + BitVec.ofNat 128 n) 1
        (archiveRequest 102) 2
        (runFrom (Evidenced.step sampleContracts) Evidenced.empty confirmedStarHistory).catalog =
          .ok (out, c') ∧
      ∀ key, (runFrom (Evidenced.step sampleContracts) Evidenced.empty
          confirmedStarHistory).proven key = true →
        starRow key c'.tables = starRow key (runFrom (Evidenced.step sampleContracts)
          Evidenced.empty confirmedStarHistory).catalog.tables := by
  have hok : (importLegacyTransaction (BitVec.ofInt 128) (fun _ n => 100 + BitVec.ofNat 128 n) 1
      (archiveRequest 102) 2).succeeds (runFrom (Evidenced.step sampleContracts) Evidenced.empty
        confirmedStarHistory).catalog = true := by
    decide +kernel
  have hfree : ((claimedStars (archiveRequest 102) (runFrom (Evidenced.step sampleContracts)
      Evidenced.empty confirmedStarHistory).catalog.tables).all fun key =>
        !(runFrom (Evidenced.step sampleContracts) Evidenced.empty confirmedStarHistory).proven key)
          = true := by
    decide +kernel
  obtain ⟨out, h⟩ := Tx.ok_of_succeeds hok
  refine ⟨out, _, h, (import_keeps_proven_iff sampleContracts confirmedStarHistory _ _ _ _ _ h).mpr ?_⟩
  intro key hkey
  rw [← Bool.not_eq_true']
  exact List.all_eq_true.mp hfree key hkey

/-- **An import over evidence.**  The archive that stars the same repository takes the confirmed time
away. -/
theorem import_overwrites_proven :
    (runFrom (Evidenced.step sampleContracts) Evidenced.empty confirmedStarHistory).proven (1, 60) =
        true ∧
      starRow (1, 60) (runFrom (Evidenced.step sampleContracts) Evidenced.empty
        confirmedStarHistory).catalog.tables = some (confirmedStarRow 0 1 60) ∧
      starRow (1, 60) ((Operation.importLegacy (BitVec.ofInt 128)
        (fun _ n => 100 + BitVec.ofNat 128 n) 1 (archiveRequest 101) 2).commit sampleContracts
        (runFrom (Evidenced.step sampleContracts) Evidenced.empty
          confirmedStarHistory).catalog).tables = some (legacyStarRow 1 60 1) := by
  decide +kernel

end GithubCatalog
