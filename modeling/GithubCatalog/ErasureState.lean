import GithubCatalog.AccountErasure

/-!
# The state an erasure leaves

The deletes of `AccountErasure` run one after another, each reading the tables the earlier ones left.
This file gives their joint effect as one function of the state before:

* `withoutOwnerRows` - every owner table filtered by its key to the owner, all keys read before;
* `collected` - the captured repositories that no remaining row names;
* `withoutRepositories`, `withoutReadmeBytes` - the two collections;
* `eraseOwnerState_eq` - a successful erasure leaves exactly this state.

The order matters for the references only, so no later statement sees a key that an earlier one
removed: that is what the proofs below check, group by group.
-/

namespace GithubCatalog

open Relational Transact

/-! ### The owner's rows -/

/-- The tables without the rows keyed to the owner, every key read in the state before. -/
def withoutOwnerRows (owner : String) (db : Database) : Database :=
  { db with
    outboxEvents := deleteWhere (fun e => ownerKeyed owner e.payload) db.outboxEvents
    inboxEvents := deleteWhere (fun e => ownerKeyed owner e.payload) db.inboxEvents
    repositoryActionAttempts :=
      deleteWhere (fun a => decide (a.ownerRef = owner)) db.repositoryActionAttempts
    repositoryAnalysisLinks :=
      deleteWhere (fun l => decide (l.ownerRef = owner)) db.repositoryAnalysisLinks
    repositoryAnalysisRequests :=
      deleteWhere (fun r => decide (r.ownerRef = owner)) db.repositoryAnalysisRequests
    repositoryWatches := deleteWhere (fun w => decide (w.ownerRef = owner)) db.repositoryWatches
    mutationAudit := deleteWhere (fun a => ownsAccount owner db a.accountId) db.mutationAudit
    starListMembershipObservations :=
      deleteWhere (fun o => ownsList owner db o.listId) db.starListMembershipObservations
    starListMemberships :=
      deleteWhere (fun m => ownsList owner db m.listId) db.starListMemberships
    starLists := deleteWhere (fun l => ownsAccount owner db l.accountId) db.starLists
    currentStarState := deleteWhere (fun c => ownsAccount owner db c.accountId) db.currentStarState
    starObservations := deleteWhere (fun o => ownsAccount owner db o.accountId) db.starObservations
    legacyListClaims := deleteWhere (fun c => ownsAccount owner db c.accountId) db.legacyListClaims
    starWatermarks := deleteWhere (fun w => ownsAccount owner db w.accountId) db.starWatermarks
    reconciliationRepairs :=
      deleteWhere (fun r => ownsSyncRun owner db r.syncRunId) db.reconciliationRepairs
    snapshotItems := deleteWhere (fun i => ownsSyncRun owner db i.syncRunId) db.snapshotItems
    listSnapshotItems :=
      deleteWhere (fun i => ownsSyncRun owner db i.syncRunId) db.listSnapshotItems
    syncCheckpoints := deleteWhere (fun c => ownsSyncRun owner db c.syncRunId) db.syncCheckpoints
    syncRuns := deleteWhere (fun r => ownsAccount owner db r.accountId) db.syncRuns
    legacyImportRepositoryRecords :=
      deleteWhere (fun r => ownsAccount owner db r.accountId) db.legacyImportRepositoryRecords
    legacyImportAccounts :=
      deleteWhere (fun a => ownsAccount owner db a.accountId) db.legacyImportAccounts
    githubAccountCredentials :=
      deleteWhere (fun c => ownsAccount owner db c.accountId) db.githubAccountCredentials
    githubAccounts := deleteWhere (fun a => decide (a.ownerRef = owner)) db.githubAccounts }


theorem deleteMessages_eq {owner : String} {c c' : Catalog}
    (h : deleteMessages owner c = .ok ((), c')) :
    c'.tables = { c.tables with
      outboxEvents := (withoutOwnerRows owner c.tables).outboxEvents
      inboxEvents := (withoutOwnerRows owner c.tables).inboxEvents } := by
  simp only [deleteMessages, Tx.bind_eq_ok, write_eq_ok] at h
  obtain ⟨-, c₁, h₁, h₂⟩ := h
  rw [h₂, h₁]
  unfold Database.put
  simp only [withoutOwnerRows, ownsAccount, ownsSyncRun, ownsList]

theorem deleteAnalyses_eq {owner : String} {c c' : Catalog}
    (h : deleteAnalyses owner c = .ok ((), c')) :
    c'.tables = { c.tables with
      repositoryActionAttempts := (withoutOwnerRows owner c.tables).repositoryActionAttempts
      repositoryAnalysisLinks := (withoutOwnerRows owner c.tables).repositoryAnalysisLinks
      repositoryAnalysisRequests := (withoutOwnerRows owner c.tables).repositoryAnalysisRequests
      repositoryWatches := (withoutOwnerRows owner c.tables).repositoryWatches } := by
  simp only [deleteAnalyses, Tx.bind_eq_ok, write_eq_ok] at h
  obtain ⟨-, c₁, h₁, -, c₂, h₂, -, c₃, h₃, h₄⟩ := h
  rw [h₄, h₃, h₂, h₁]
  unfold Database.put
  simp only [withoutOwnerRows, ownsAccount, ownsSyncRun, ownsList]

theorem deleteLists_eq {owner : String} {c c' : Catalog}
    (h : deleteLists owner c = .ok ((), c')) :
    c'.tables = { c.tables with
      mutationAudit := (withoutOwnerRows owner c.tables).mutationAudit
      starListMembershipObservations :=
        (withoutOwnerRows owner c.tables).starListMembershipObservations
      starListMemberships := (withoutOwnerRows owner c.tables).starListMemberships
      starLists := (withoutOwnerRows owner c.tables).starLists } := by
  simp only [deleteLists, Tx.bind_eq_ok, write_eq_ok] at h
  obtain ⟨-, c₁, h₁, -, c₂, h₂, -, c₃, h₃, h₄⟩ := h
  rw [h₄, h₃, h₂, h₁]
  unfold Database.put
  simp only [withoutOwnerRows, ownsAccount, ownsSyncRun, ownsList]

theorem deleteStars_eq {owner : String} {c c' : Catalog}
    (h : deleteStars owner c = .ok ((), c')) :
    c'.tables = { c.tables with
      currentStarState := (withoutOwnerRows owner c.tables).currentStarState
      starObservations := (withoutOwnerRows owner c.tables).starObservations
      legacyListClaims := (withoutOwnerRows owner c.tables).legacyListClaims
      starWatermarks := (withoutOwnerRows owner c.tables).starWatermarks } := by
  simp only [deleteStars, Tx.bind_eq_ok, write_eq_ok] at h
  obtain ⟨-, c₁, h₁, -, c₂, h₂, -, c₃, h₃, h₄⟩ := h
  rw [h₄, h₃, h₂, h₁]
  unfold Database.put
  simp only [withoutOwnerRows, ownsAccount, ownsSyncRun, ownsList]

theorem deleteSyncRuns_eq {owner : String} {c c' : Catalog}
    (h : deleteSyncRuns owner c = .ok ((), c')) :
    c'.tables = { c.tables with
      reconciliationRepairs := (withoutOwnerRows owner c.tables).reconciliationRepairs
      snapshotItems := (withoutOwnerRows owner c.tables).snapshotItems
      listSnapshotItems := (withoutOwnerRows owner c.tables).listSnapshotItems
      syncCheckpoints := (withoutOwnerRows owner c.tables).syncCheckpoints
      syncRuns := (withoutOwnerRows owner c.tables).syncRuns } := by
  simp only [deleteSyncRuns, Tx.bind_eq_ok, write_eq_ok] at h
  obtain ⟨-, c₁, h₁, -, c₂, h₂, -, c₃, h₃, -, c₄, h₄, h₅⟩ := h
  rw [h₅, h₄, h₃, h₂, h₁]
  unfold Database.put
  simp only [withoutOwnerRows, ownsAccount, ownsSyncRun, ownsList]

theorem deleteAccounts_eq {owner : String} {c c' : Catalog}
    (h : deleteAccounts owner c = .ok ((), c')) :
    c'.tables = { c.tables with
      legacyImportRepositoryRecords :=
        (withoutOwnerRows owner c.tables).legacyImportRepositoryRecords
      legacyImportAccounts := (withoutOwnerRows owner c.tables).legacyImportAccounts
      githubAccountCredentials := (withoutOwnerRows owner c.tables).githubAccountCredentials
      githubAccounts := (withoutOwnerRows owner c.tables).githubAccounts } := by
  simp only [deleteAccounts, Tx.bind_eq_ok, write_eq_ok] at h
  obtain ⟨-, c₁, h₁, -, c₂, h₂, -, c₃, h₃, h₄⟩ := h
  rw [h₄, h₃, h₂, h₁]
  unfold Database.put
  simp only [withoutOwnerRows, ownsAccount, ownsSyncRun, ownsList]

theorem deleteOwnerRows_eq {owner : String} {c c' : Catalog}
    (h : deleteOwnerRows owner c = .ok ((), c')) : c'.tables = withoutOwnerRows owner c.tables := by
  simp only [deleteOwnerRows, Tx.bind_eq_ok] at h
  obtain ⟨⟨⟩, c₁, h₁, ⟨⟩, c₂, h₂, ⟨⟩, c₃, h₃, ⟨⟩, c₄, h₄, ⟨⟩, c₅, h₅, h₆⟩ := h
  rw [deleteAccounts_eq h₆, deleteSyncRuns_eq h₅, deleteStars_eq h₄, deleteLists_eq h₃,
    deleteAnalyses_eq h₂, deleteMessages_eq h₁]
  simp only [withoutOwnerRows, ownsAccount, ownsSyncRun, ownsList]

/-! ### What only the owner reached -/

/-- The captured repositories no remaining row names. -/
def collected (owner : String) (db : Database) : List Uuid :=
  (capturedRepositories owner db).filter fun r => !referenced (withoutOwnerRows owner db) r

/-- The tables without the given repositories and what hangs off them. -/
def withoutRepositories (doomed : List Uuid) (db : Database) : Database :=
  { db with
    repositoryAliases := deleteWhere (fun a => decide (a.repositoryId ∈ doomed))
      (updateWhere (fun a => decide (a.repositoryId ∉ doomed) &&
        a.redirectTo.any fun t => decide (t ∈ aliasesOf doomed db))
        (fun a => { a with redirectTo := none }) db.repositoryAliases)
    repositoryMetadata :=
      deleteWhere (fun m => decide (m.repositoryId ∈ doomed)) db.repositoryMetadata
    repositoryMetadataRevisions :=
      deleteWhere (fun r => decide (r.repositoryId ∈ doomed)) db.repositoryMetadataRevisions
    backupPolicies := deleteWhere (fun p => decide (p.repositoryId ∈ doomed)) db.backupPolicies
    repositories := deleteWhere (fun r => decide (r.repositoryId ∈ doomed)) db.repositories }

/-- The tables without the README bytes of the given digests that no row names. -/
def withoutReadmeBytes (digests : List String) (db : Database) : Database :=
  { db with
    repositoryReadmeBlobs :=
      deleteWhere (fun b => decide (b.contentDigest ∈ digests) && !readmeNamed db b.contentDigest)
        db.repositoryReadmeBlobs }

/-- What the whole erasure leaves, before the dirty mark. -/
def withoutOwner (owner : String) (db : Database) : Database :=
  withoutReadmeBytes (capturedDigests owner db)
    (withoutRepositories (collected owner db) (withoutOwnerRows owner db))

theorem collectUnreferencedRepositories_eq {candidates : List Uuid} {c c' : Catalog} {n : ℕ}
    (h : collectUnreferencedRepositories candidates c = .ok (n, c')) :
    c'.tables = withoutRepositories (candidates.filter fun r => !referenced c.tables r) c.tables ∧
      n = (c.tables.repositories.filter fun r =>
        decide (r.repositoryId ∈ candidates.filter fun r => !referenced c.tables r)).length := by
  simp only [collectUnreferencedRepositories, Tx.bind_eq_ok, select_eq_ok, write_eq_ok,
    Tx.pure_eq_ok] at h
  obtain ⟨_, _, ⟨rfl, rfl⟩, -, c₁, h₁, -, c₂, h₂, -, c₃, h₃, -, c₄, h₄, -, c₅, h₅, _, _, ⟨rfl, rfl⟩,
    -, c₆, h₆, rfl, rfl⟩ := h
  rw [h₆, h₅, h₄, h₃, h₂, h₁]
  unfold Database.put
  simp only [withoutRepositories, and_self]

theorem collectUnreferencedReadmeBytes_eq {digests : List String} {c c' : Catalog}
    (h : collectUnreferencedReadmeBytes digests c = .ok ((), c')) :
    c'.tables = withoutReadmeBytes digests c.tables := by
  rw [collectUnreferencedReadmeBytes, write_eq_ok] at h
  exact h

/-! ### The whole -/

/-- The cursor after an erasure: marked when a repository was collected. -/
def erasedCursor (now : Time) (owner : String) (db : Database) :
    Option BackupPolicyPublicationCursor :=
  if db.repositories.any fun r => decide (r.repositoryId ∈ collected owner db) then
    some (markedCursor now db.backupPolicyPublicationCursor)
  else db.backupPolicyPublicationCursor

/-- The state a successful erasure leaves. -/
def erased (now : Time) (owner : String) (db : Database) : Database :=
  { withoutOwner owner db with backupPolicyPublicationCursor := erasedCursor now owner db }

/-- **The joint effect of an erasure.** -/
theorem eraseOwnerState_eq {now : Time} {owner : String} {c c' : Catalog}
    (h : eraseOwnerState now owner c = .ok ((), c')) : c'.tables = erased now owner c.tables := by
  simp only [eraseOwnerState, Tx.bind_eq_ok, select_eq_ok] at h
  obtain ⟨_, _, ⟨rfl, rfl⟩, _, _, ⟨rfl, rfl⟩, ⟨⟩, c₁, h₁, n, c₂, h₂, ⟨⟩, c₃, h₃, h₄⟩ := h
  obtain ⟨h₂, hn⟩ := collectUnreferencedRepositories_eq h₂
  rw [deleteOwnerRows_eq h₁] at h₂ hn
  have hstate : c₃.tables = withoutOwner owner c.tables := by
    rw [collectUnreferencedReadmeBytes_eq h₃, h₂, withoutOwner, collected]
  have hcount : 0 < n ↔
      (c.tables.repositories.any fun r => decide (r.repositoryId ∈ collected owner c.tables)) := by
    rw [hn, List.length_filter_pos_iff, List.any_eq_true]
    rfl
  unfold erased erasedCursor
  by_cases hpos : 0 < n
  · rw [onlyIf, decide_eq_true hpos, if_pos rfl] at h₄
    rw [markBackupPolicyDirtyInTx_eq h₄, hstate, if_pos (hcount.mp hpos)]
    rfl
  · rw [onlyIf, decide_eq_false hpos, if_neg Bool.false_ne_true, Tx.pure_eq_ok] at h₄
    obtain ⟨-, rfl⟩ := h₄
    rw [hstate, if_neg (mt hcount.mpr hpos)]
    rfl

end GithubCatalog
