import GithubCatalog.ErasureState

/-!
# What an erasure deletes, and what it leaves alone

`ErasureFrame now owner before after` says that `after` is `before` without one owner's data:

* nothing keyed to the owner remains, in any column of any table;
* every table outside `sharedTables` keeps exactly its other rows;
* a shared repository goes, with what hangs off it, exactly when the owner's rows reached it and no
  remaining row names it;
* README bytes go only when the owner's rows named them and nothing names them any more.

`eraseOwnerState_frame` proves it of every successful erasure of every valid catalog.
-/

namespace GithubCatalog

open Relational Transact

/-! ### The columns that name an owner -/

namespace Database

/-- Every `owner_ref`. -/
def ownerRefs (db : Database) : List String :=
  db.githubAccounts.map (·.ownerRef) ++ db.repositoryWatches.map (·.ownerRef) ++
  db.repositoryAnalysisRequests.map (·.ownerRef) ++ db.repositoryAnalysisLinks.map (·.ownerRef) ++
  db.repositoryActionAttempts.map (·.ownerRef)

/-- Every `account_id`. -/
def accountIds (db : Database) : List Uuid :=
  db.githubAccounts.map (·.accountId) ++ db.githubAccountCredentials.map (·.accountId) ++
  db.legacyImportAccounts.map (·.accountId) ++
  db.legacyImportRepositoryRecords.map (·.accountId) ++ db.syncRuns.map (·.accountId) ++
  db.starObservations.map (·.accountId) ++ db.currentStarState.map (·.accountId) ++
  db.legacyListClaims.map (·.accountId) ++ db.starWatermarks.map (·.accountId) ++
  db.starLists.map (·.accountId) ++ db.mutationAudit.map (·.accountId)

/-- Every `sync_run_id` and `evidence_run_id`. -/
def syncRunIds (db : Database) : List Uuid :=
  db.syncRuns.map (·.syncRunId) ++ db.syncCheckpoints.map (·.syncRunId) ++
  db.snapshotItems.map (·.syncRunId) ++ db.listSnapshotItems.map (·.syncRunId) ++
  db.reconciliationRepairs.map (·.syncRunId) ++ db.currentStarState.filterMap (·.evidenceRunId) ++
  db.starLists.filterMap (·.evidenceRunId) ++ db.starListMemberships.filterMap (·.evidenceRunId) ++
  db.starListMembershipObservations.filterMap (·.evidenceRunId)

/-- Every `list_id`. -/
def listIds (db : Database) : List Uuid :=
  db.starLists.map (·.listId) ++ db.starListMemberships.map (·.listId) ++
  db.starListMembershipObservations.map (·.listId) ++ db.mutationAudit.filterMap (·.listId)

/-- Every message payload. -/
def payloads (db : Database) : List Jsonb :=
  db.outboxEvents.map (·.payload) ++ db.inboxEvents.map (·.payload)

/-- Every `repository_id` of the owner-reference tables. -/
def ownerReferences (db : Database) : List Uuid :=
  db.currentStarState.map (·.repositoryId) ++ db.starObservations.map (·.repositoryId) ++
  db.legacyListClaims.map (·.repositoryId) ++
  db.legacyImportRepositoryRecords.map (·.repositoryId) ++
  db.starListMemberships.map (·.repositoryId) ++
  db.starListMembershipObservations.map (·.repositoryId) ++
  db.mutationAudit.map (·.repositoryId) ++ db.reconciliationRepairs.map (·.repositoryId) ++
  db.repositoryWatches.map (·.repositoryId) ++
  db.repositoryAnalysisRequests.map (·.repositoryId) ++
  db.repositoryAnalysisLinks.map (·.repositoryId)

/-- Every provider id an action attempt names. -/
def attemptedProviderIds (db : Database) : List ℤ :=
  db.repositoryActionAttempts.map (·.githubRepositoryNumericId)

/-- Whether a repository is in the catalog. -/
def hasRepository (db : Database) (repositoryId : Uuid) : Bool :=
  db.repositories.any fun r => decide (r.repositoryId = repositoryId)

end Database

/-- The tables all owners share. -/
def sharedTables : List Table :=
  [.repositories, .repositoryAliases, .repositoryMetadata, .repositoryMetadataRevisions,
    .backupPolicies, .repositoryReadmeBlobs, .backupPolicyPublicationCursor]

/-- An alias after the erasure: a redirect to an alias that went is cleared. -/
def RepositoryAlias.released (before after : Database) (a : RepositoryAlias) : RepositoryAlias :=
  if a.redirectTo.any fun t => before.repositoryAliases.any fun b =>
      decide (b.aliasId = t) && !after.hasRepository b.repositoryId then
    { a with redirectTo := none }
  else a

/-- `after` is `before` with one owner erased and nothing else changed. -/
structure ErasureFrame (now : Time) (owner : String) (before after : Database) : Prop where
  ownerRefs_gone : owner ∉ after.ownerRefs
  accountIds_gone : ∀ a ∈ after.accountIds, ownsAccount owner before a = false
  syncRunIds_gone : ∀ r ∈ after.syncRunIds, ownsSyncRun owner before r = false
  listIds_gone : ∀ l ∈ after.listIds, ownsList owner before l = false
  payloads_gone : ∀ p ∈ after.payloads, ownerKeyed owner p = false
  others_kept : AgreeOff sharedTables (withoutOwnerRows owner before) after
  repositories_sublist : after.repositories.Sublist before.repositories
  repositories_deleted : ∀ r ∈ before.repositories, r ∉ after.repositories ↔
    r.repositoryId ∈ capturedRepositories owner before ∧
      r.repositoryId ∉ after.ownerReferences ∧
      r.providerRepositoryId ∉ after.attemptedProviderIds
  aliases : after.repositoryAliases =
    (before.repositoryAliases.filter fun a => after.hasRepository a.repositoryId).map
      (·.released before after)
  metadata : after.repositoryMetadata =
    before.repositoryMetadata.filter fun m => after.hasRepository m.repositoryId
  revisions : after.repositoryMetadataRevisions =
    before.repositoryMetadataRevisions.filter fun r => after.hasRepository r.repositoryId
  policies : after.backupPolicies =
    before.backupPolicies.filter fun p => after.hasRepository p.repositoryId
  blobs_sublist : after.repositoryReadmeBlobs.Sublist before.repositoryReadmeBlobs
  blobs_deleted : ∀ b ∈ before.repositoryReadmeBlobs, b ∉ after.repositoryReadmeBlobs →
    (∃ m ∈ before.repositoryMetadata, m.repositoryId ∈ capturedRepositories owner before ∧
      m.readmeDigest = some b.contentDigest) ∨
    ∃ q ∈ before.repositoryAnalysisRequests, q.ownerRef = owner ∧
      q.readmeDigest = some b.contentDigest
  blobs_named : ∀ b ∈ before.repositoryReadmeBlobs,
    (∃ m ∈ after.repositoryMetadata, m.readmeDigest = some b.contentDigest) ∨
      (∃ q ∈ after.repositoryAnalysisRequests, q.readmeDigest = some b.contentDigest) →
    b ∈ after.repositoryReadmeBlobs
  cursor : after.backupPolicyPublicationCursor =
    if after.repositories = before.repositories then before.backupPolicyPublicationCursor
    else some (markedCursor now before.backupPolicyPublicationCursor)

/-! ### Nothing of the owner remains -/

section gone

variable {owner : String} {db : Database}

/-- An account of another owner is not the owner's: its id is unique. -/
theorem ownsAccount_of_kept (hkeys : Keys db) {a : GithubAccount} (ha : a ∈ db.githubAccounts)
    (hother : a.ownerRef ≠ owner) : ownsAccount owner db a.accountId = false := by
  rw [ownsAccount, List.any_eq_false]
  intro b hb howns
  simp only [Bool.and_eq_true, decide_eq_true_eq] at howns
  have hsame : b = a := hkeys.accounts.eq_of_mem hb ha howns.2
  exact hother (hsame ▸ howns.1)

theorem ownsSyncRun_of_kept (hkeys : Keys db) {r : SyncRun} (hr : r ∈ db.syncRuns)
    (hother : ownsAccount owner db r.accountId = false) :
    ownsSyncRun owner db r.syncRunId = false := by
  rw [ownsSyncRun, List.any_eq_false]
  intro b hb howns
  simp only [Bool.and_eq_true, decide_eq_true_eq] at howns
  have hsame : b = r := hkeys.runs.eq_of_mem hb hr howns.1
  rw [hsame, hother] at howns
  exact Bool.false_ne_true howns.2

theorem ownsList_of_kept (hkeys : Keys db) {l : StarList} (hl : l ∈ db.starLists)
    (hother : ownsAccount owner db l.accountId = false) : ownsList owner db l.listId = false := by
  rw [ownsList, List.any_eq_false]
  intro b hb howns
  simp only [Bool.and_eq_true, decide_eq_true_eq] at howns
  have hsame : b = l := hkeys.lists.eq_of_mem hb hl howns.1
  rw [hsame, hother] at howns
  exact Bool.false_ne_true howns.2

variable {now : Time}

theorem erased_ownerRefs : owner ∉ (erased now owner db).ownerRefs := by
  simp only [Database.ownerRefs, List.mem_append, List.mem_map, or_assoc]
  rintro (⟨r, hr, heq⟩ | ⟨r, hr, heq⟩ | ⟨r, hr, heq⟩ | ⟨r, hr, heq⟩ | ⟨r, hr, heq⟩)
  all_goals exact of_decide_eq_false (mem_deleteWhere.mp hr).2 heq

theorem erased_accountIds (hkeys : Keys db) :
    ∀ a ∈ (erased now owner db).accountIds, ownsAccount owner db a = false := by
  intro a ha
  simp only [Database.accountIds, List.mem_append, List.mem_map, or_assoc] at ha
  rcases ha with ⟨r, hr, rfl⟩ | ⟨r, hr, rfl⟩ | ⟨r, hr, rfl⟩ | ⟨r, hr, rfl⟩ | ⟨r, hr, rfl⟩ |
    ⟨r, hr, rfl⟩ | ⟨r, hr, rfl⟩ | ⟨r, hr, rfl⟩ | ⟨r, hr, rfl⟩ | ⟨r, hr, rfl⟩ | ⟨r, hr, rfl⟩
  · obtain ⟨hmem, hother⟩ := mem_deleteWhere.mp hr
    exact ownsAccount_of_kept hkeys hmem (of_decide_eq_false hother)
  all_goals exact (mem_deleteWhere.mp hr).2

/-- A run that remains is another owner's. -/
theorem erased_syncRuns (hkeys : Keys db) {id : Uuid}
    (h : id ∈ (erased now owner db).syncRuns.map (·.syncRunId)) :
    ownsSyncRun owner db id = false := by
  obtain ⟨r, hr, rfl⟩ := List.mem_map.mp h
  obtain ⟨hmem, hother⟩ := mem_deleteWhere.mp hr
  exact ownsSyncRun_of_kept hkeys hmem hother

theorem erased_syncRunIds (hkeys : Keys db) (hrefs : ForeignKeys (erased now owner db)) :
    ∀ id ∈ (erased now owner db).syncRunIds, ownsSyncRun owner db id = false := by
  intro id hid
  simp only [Database.syncRunIds, List.mem_append, or_assoc] at hid
  rcases hid with h | h | h | h | h | h | h | h | h
  · exact erased_syncRuns hkeys h
  -- The next four tables are filtered by the run, the last four refer to a run that remains.
  iterate 4
    obtain ⟨r, hr, rfl⟩ := List.mem_map.mp h
    exact (mem_deleteWhere.mp hr).2
  · obtain ⟨r, hr, heq⟩ := List.mem_filterMap.mp h
    exact erased_syncRuns hkeys (hrefs.stars_run r hr id heq)
  · obtain ⟨r, hr, heq⟩ := List.mem_filterMap.mp h
    exact erased_syncRuns hkeys (hrefs.lists_run r hr id heq)
  · obtain ⟨r, hr, heq⟩ := List.mem_filterMap.mp h
    exact erased_syncRuns hkeys (hrefs.memberships_run r hr id heq)
  · obtain ⟨r, hr, heq⟩ := List.mem_filterMap.mp h
    exact erased_syncRuns hkeys (hrefs.membershipObservations_run r hr id heq)

/-- A list that remains is another owner's. -/
theorem erased_starLists (hkeys : Keys db) {id : Uuid}
    (h : id ∈ (erased now owner db).starLists.map (·.listId)) : ownsList owner db id = false := by
  obtain ⟨l, hl, rfl⟩ := List.mem_map.mp h
  obtain ⟨hmem, hother⟩ := mem_deleteWhere.mp hl
  exact ownsList_of_kept hkeys hmem hother

theorem erased_listIds (hkeys : Keys db) (hrefs : ForeignKeys (erased now owner db)) :
    ∀ id ∈ (erased now owner db).listIds, ownsList owner db id = false := by
  intro id hid
  simp only [Database.listIds, List.mem_append, or_assoc] at hid
  rcases hid with h | h | h | h
  · exact erased_starLists hkeys h
  iterate 2
    obtain ⟨r, hr, rfl⟩ := List.mem_map.mp h
    exact (mem_deleteWhere.mp hr).2
  · obtain ⟨a, ha, heq⟩ := List.mem_filterMap.mp h
    exact erased_starLists hkeys (hrefs.audit_list a ha id heq)

theorem erased_payloads : ∀ p ∈ (erased now owner db).payloads, ownerKeyed owner p = false := by
  intro p hp
  simp only [Database.payloads, List.mem_append, List.mem_map] at hp
  rcases hp with ⟨e, he, rfl⟩ | ⟨e, he, rfl⟩
  all_goals exact (mem_deleteWhere.mp he).2

end gone

/-! ### Everything else remains -/

section kept

variable {now : Time} {owner : String} {db : Database}

theorem erased_agreeOff :
    AgreeOff sharedTables (withoutOwnerRows owner db) (erased now owner db) := by
  intro t ht
  cases t
  all_goals first
    | rfl
    | exact absurd (by decide) ht

/-- A repository remains exactly when it was there and was not collected. -/
theorem mem_erased_repositories {r : Repository} :
    r ∈ (erased now owner db).repositories ↔
      r ∈ db.repositories ∧ r.repositoryId ∉ collected owner db := by
  rw [show (erased now owner db).repositories =
    deleteWhere (fun r => decide (r.repositoryId ∈ collected owner db)) db.repositories from rfl,
    mem_deleteWhere, decide_eq_false_iff_not]

/-- The reference test of the collection, over the columns it reads. -/
theorem referenced_iff (hunique : UniqueOn (·.repositoryId) db.repositories) {r : Repository}
    (hr : r ∈ db.repositories) :
    referenced db r.repositoryId = true ↔ r.repositoryId ∈ db.ownerReferences ∨
      r.providerRepositoryId ∈ db.attemptedProviderIds := by
  have hattempts : (db.repositoryActionAttempts.any fun a => db.repositories.any fun q =>
      decide (q.repositoryId = r.repositoryId) &&
        decide (q.providerRepositoryId = a.githubRepositoryNumericId)) = true ↔
      r.providerRepositoryId ∈ db.attemptedProviderIds := by
    simp only [List.any_eq_true, Bool.and_eq_true, decide_eq_true_eq,
      Database.attemptedProviderIds, List.mem_map]
    constructor
    · rintro ⟨a, ha, q, hq, hid, hpid⟩
      have hsame : q = r := hunique.eq_of_mem hq hr hid
      exact ⟨a, ha, by rw [← hpid, hsame]⟩
    · rintro ⟨a, ha, hpid⟩
      exact ⟨a, ha, r, hr, rfl, hpid.symm⟩
  rw [referenced, Bool.or_eq_true, hattempts]
  apply or_congr_left
  simp only [Database.ownerReferences, List.mem_append, List.mem_map, Bool.or_eq_true,
    List.any_eq_true, decide_eq_true_eq]

theorem not_mem_erased_repositories (hkeys : Keys db) {r : Repository}
    (hr : r ∈ db.repositories) :
    r ∉ (erased now owner db).repositories ↔
      r.repositoryId ∈ capturedRepositories owner db ∧
        r.repositoryId ∉ (erased now owner db).ownerReferences ∧
        r.providerRepositoryId ∉ (erased now owner db).attemptedProviderIds := by
  have href := @referenced_iff (withoutOwnerRows owner db) hkeys.repositories r hr
  rw [mem_erased_repositories, not_and_not_right]
  simp only [hr, true_imp_iff, collected, List.mem_filter, Bool.not_eq_true', ← not_or]
  rw [← Bool.not_eq_true, href]
  rfl

/-- A row of the catalog hangs off a repository that remains exactly when that repository was not
collected. -/
theorem erased_hasRepository {id : Uuid} (hid : id ∈ db.repositories.map (·.repositoryId)) :
    (erased now owner db).hasRepository id = !decide (id ∈ collected owner db) := by
  obtain ⟨r, hr, rfl⟩ := List.mem_map.mp hid
  rw [Bool.eq_iff_iff, Database.hasRepository, List.any_eq_true]
  simp only [mem_erased_repositories, decide_eq_true_eq, Bool.not_eq_true', decide_eq_false_iff_not]
  constructor
  · rintro ⟨q, ⟨-, hq⟩, heq⟩
    rwa [← heq]
  · intro hkept
    exact ⟨r, ⟨hr, hkept⟩, rfl⟩

/-- The rows hanging off a repository go exactly with it. -/
theorem children_eq (now : Time) {α : Type} {repo : α → Uuid} {rows : List α}
    (hrefs : Refers (fun a => some (repo a)) rows Repository.repositoryId db.repositories) :
    deleteWhere (fun a => decide (repo a ∈ collected owner db)) rows =
      rows.filter fun a => (erased now owner db).hasRepository (repo a) := by
  apply List.filter_congr
  intro a ha
  rw [erased_hasRepository (hrefs a ha _ rfl)]

theorem mem_aliasesOf {t : Uuid}
    (hrefs : Refers (fun a => some a.repositoryId) db.repositoryAliases Repository.repositoryId
      db.repositories) :
    t ∈ aliasesOf (collected owner db) db ↔ (db.repositoryAliases.any fun b =>
      decide (b.aliasId = t) && !(erased now owner db).hasRepository b.repositoryId) = true := by
  simp only [aliasesOf, List.mem_map, List.mem_filter, decide_eq_true_eq, List.any_eq_true,
    Bool.and_eq_true, Bool.not_eq_true']
  constructor
  · rintro ⟨b, ⟨hb, hgone⟩, heq⟩
    refine ⟨b, hb, heq, ?_⟩
    rw [erased_hasRepository (hrefs b hb _ rfl), decide_eq_true hgone]
    rfl
  · rintro ⟨b, hb, heq, hgone⟩
    rw [erased_hasRepository (hrefs b hb _ rfl)] at hgone
    exact ⟨b, ⟨hb, by simpa using hgone⟩, heq⟩

theorem erased_aliases
    (hrefs : Refers (fun a => some a.repositoryId) db.repositoryAliases Repository.repositoryId
      db.repositories) :
    (erased now owner db).repositoryAliases =
      (db.repositoryAliases.filter fun a => (erased now owner db).hasRepository a.repositoryId).map
        (·.released db (erased now owner db)) := by
  have haliases : aliasesOf (collected owner db) (withoutOwnerRows owner db) =
      aliasesOf (collected owner db) db := by
    simp only [aliasesOf, withoutOwnerRows]
  have herased : (erased now owner db).repositoryAliases =
      deleteWhere (fun a => decide (a.repositoryId ∈ collected owner db))
        (updateWhere (fun a => decide (a.repositoryId ∉ collected owner db) &&
          a.redirectTo.any fun t =>
            decide (t ∈ aliasesOf (collected owner db) (withoutOwnerRows owner db)))
          (fun a => { a with redirectTo := none }) db.repositoryAliases) := rfl
  rw [herased, deleteWhere_updateWhere (by intro a; rfl), haliases, children_eq now hrefs,
    updateWhere]
  apply List.map_congr_left
  intro a ha
  obtain ⟨hmem, hkept⟩ := List.mem_filter.mp ha
  rw [erased_hasRepository (hrefs a hmem _ rfl), Bool.not_eq_true', decide_eq_false_iff_not] at hkept
  have hredirect : (a.redirectTo.any fun t => decide (t ∈ aliasesOf (collected owner db) db)) =
      a.redirectTo.any fun t => db.repositoryAliases.any fun b =>
        decide (b.aliasId = t) && !(erased now owner db).hasRepository b.repositoryId := by
    congr 1
    funext t
    rw [Bool.eq_iff_iff, decide_eq_true_eq, mem_aliasesOf hrefs]
  rw [RepositoryAlias.released, ← hredirect, decide_eq_true hkept, Bool.true_and]

/-- The bytes kept are those not captured, and those a remaining row names. -/
theorem mem_erased_blobs {b : RepositoryReadmeBlob} :
    b ∈ (erased now owner db).repositoryReadmeBlobs ↔ b ∈ db.repositoryReadmeBlobs ∧
      (b.contentDigest ∉ capturedDigests owner db ∨
        readmeNamed (erased now owner db) b.contentDigest = true) := by
  have hblobs : (erased now owner db).repositoryReadmeBlobs =
      deleteWhere (fun b => decide (b.contentDigest ∈ capturedDigests owner db) &&
        !readmeNamed (erased now owner db) b.contentDigest) db.repositoryReadmeBlobs := rfl
  rw [hblobs, mem_deleteWhere, Bool.and_eq_false_iff, decide_eq_false_iff_not,
    Bool.not_eq_false']

theorem readmeNamed_iff {digest : String} : readmeNamed db digest = true ↔
    (∃ m ∈ db.repositoryMetadata, m.readmeDigest = some digest) ∨
      ∃ q ∈ db.repositoryAnalysisRequests, q.readmeDigest = some digest := by
  simp only [readmeNamed, Bool.or_eq_true, List.any_eq_true, decide_eq_true_eq]

theorem mem_capturedDigests {digest : String} : digest ∈ capturedDigests owner db ↔
    (∃ m ∈ db.repositoryMetadata, m.repositoryId ∈ capturedRepositories owner db ∧
      m.readmeDigest = some digest) ∨
    ∃ q ∈ db.repositoryAnalysisRequests, q.ownerRef = owner ∧ q.readmeDigest = some digest := by
  simp only [capturedDigests, List.mem_append, List.mem_filterMap, List.mem_filter,
    decide_eq_true_eq, and_assoc]

/-- The mark is made exactly when a repository went. -/
theorem erased_cursor : (erased now owner db).backupPolicyPublicationCursor =
    if (erased now owner db).repositories = db.repositories then db.backupPolicyPublicationCursor
    else some (markedCursor now db.backupPolicyPublicationCursor) := by
  have hsame : (erased now owner db).repositories = db.repositories ↔
      ¬ (db.repositories.any fun r => decide (r.repositoryId ∈ collected owner db)) = true := by
    show deleteWhere _ db.repositories = _ ↔ _
    rw [deleteWhere, List.filter_eq_self]
    simp
  show erasedCursor now owner db = _
  rw [erasedCursor]
  by_cases h : (db.repositories.any fun r => decide (r.repositoryId ∈ collected owner db)) = true
  · rw [if_pos h, if_neg (fun heq => hsame.mp heq h)]
  · rw [if_neg h, if_pos (hsame.mpr h)]

end kept

/-- **An erasure deletes one owner's data and nothing else.** -/
theorem eraseOwnerState_frame (now : Time) (owner : String) (c c' : Catalog)
    (h : eraseOwnerState now owner c = .ok ((), c')) :
    ErasureFrame now owner c.tables c'.tables := by
  have hkeys : Keys c.tables := c.valid.keys
  have hrefs : ForeignKeys c.tables := c.valid.foreignKeys
  have hrefs' : ForeignKeys c'.tables := c'.valid.foreignKeys
  rw [eraseOwnerState_eq h] at hrefs' ⊢
  exact {
    ownerRefs_gone := erased_ownerRefs
    accountIds_gone := erased_accountIds hkeys
    syncRunIds_gone := erased_syncRunIds hkeys hrefs'
    listIds_gone := erased_listIds hkeys hrefs'
    payloads_gone := erased_payloads
    others_kept := erased_agreeOff
    repositories_sublist := deleteWhere_sublist _ _
    repositories_deleted := fun r hr => not_mem_erased_repositories hkeys hr
    aliases := erased_aliases hrefs.aliases_repository
    metadata := children_eq now hrefs.metadata_repository
    revisions := children_eq now hrefs.revisions_repository
    policies := children_eq now hrefs.policies_repository
    blobs_sublist := deleteWhere_sublist _ _
    blobs_deleted := fun b hb hgone => by
      rw [mem_erased_blobs, not_and_or] at hgone
      have hcaptured := (not_or.mp (hgone.resolve_left (not_not_intro hb))).1
      exact mem_capturedDigests.mp (not_not.mp hcaptured)
    blobs_named := fun b hb hnamed => mem_erased_blobs.mpr ⟨hb, .inr (readmeNamed_iff.mpr hnamed)⟩
    cursor := erased_cursor }

/-- Two owners with one account each.  Both star repository 1; only the first owner stars
repository 2, whose alias an old alias of repository 1 redirects to. -/
def sharedCatalog : Catalog where
  tables := {
    githubAccounts := [⟨1, "owner-a", .connected, some 7, none, []⟩,
      ⟨2, "owner-b", .connected, some 8, none, []⟩]
    repositories := [⟨1, 101, some .auto⟩, ⟨2, 102, some .auto⟩]
    repositoryAliases := [⟨1, 2, .ownerName, "a/b", .active, none, 0⟩,
      ⟨2, 1, .ownerName, "a/b", .superseded, some 1, 0⟩]
    currentStarState := [⟨1, 1, true, some 0, false, 0, none, none⟩,
      ⟨1, 2, true, some 0, false, 0, none, none⟩, ⟨2, 1, true, some 0, false, 0, none, none⟩] }
  valid := by decide +kernel

theorem eraseOwnerState_frame_shared :
    (eraseOwnerState 5 "owner-a").succeeds sharedCatalog = true ∧
      ErasureFrame 5 "owner-a" sharedCatalog.tables
        ((eraseOwnerState 5 "owner-a").commit sharedCatalog).tables := by
  have h : (eraseOwnerState 5 "owner-a").succeeds sharedCatalog = true := by decide +kernel
  exact ⟨h, eraseOwnerState_frame 5 "owner-a" _ _ (Tx.succeeds_iff.mp h)⟩

end GithubCatalog
