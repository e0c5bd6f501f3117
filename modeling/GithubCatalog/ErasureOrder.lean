import GithubCatalog.PolicyCursor

/-!
# The order of the deletes

Deleting rows breaks no key and no row check, and it breaks a reference only when a row that stays
names a row that goes.  Seven tables are referenced at all (`referencedTables`), so a delete from any
other table always goes through (`deleteLeaf_succeeds`), and each of the seven leaves one obligation.

* `Table.Shrunk`, `Keys.shrink`, `Checks.shrink`, `ForeignKeys.shrink` - what deletes keep;
* `SyncEvidence`, `AnalysisEvidence`, `OwnedEvidence` - whatever names a run, a list, a watch or a
  request of the owner is the owner's as well;
* `eraseOwnerState_ordered` - from such a state no statement of the erasure breaks a constraint.
-/

namespace GithubCatalog

open Relational Transact

/-! ### Fewer rows -/

/-- A table's rows after some of them were deleted; a cursor row is never deleted. -/
def Table.Shrunk : (t : Table) → t.Rows → t.Rows → Prop
  | .githubAccounts, after, before => after.Sublist before
  | .githubAccountCredentials, after, before => after.Sublist before
  | .legacyImportRuns, after, before => after.Sublist before
  | .legacyImportAccounts, after, before => after.Sublist before
  | .repositories, after, before => after.Sublist before
  | .repositoryAliases, after, before => after.Sublist before
  | .legacyImportRepositoryRecords, after, before => after.Sublist before
  | .repositoryMetadata, after, before => after.Sublist before
  | .repositoryMetadataRevisions, after, before => after.Sublist before
  | .repositoryReadmeBlobs, after, before => after.Sublist before
  | .syncRuns, after, before => after.Sublist before
  | .syncCheckpoints, after, before => after.Sublist before
  | .snapshotItems, after, before => after.Sublist before
  | .listSnapshotItems, after, before => after.Sublist before
  | .starObservations, after, before => after.Sublist before
  | .currentStarState, after, before => after.Sublist before
  | .legacyListClaims, after, before => after.Sublist before
  | .legacyShadowReports, after, before => after.Sublist before
  | .starWatermarks, after, before => after.Sublist before
  | .reconciliationRepairs, after, before => after.Sublist before
  | .starLists, after, before => after.Sublist before
  | .starListMemberships, after, before => after.Sublist before
  | .starListMembershipObservations, after, before => after.Sublist before
  | .repositoryWatches, after, before => after.Sublist before
  | .repositoryAnalysisRequests, after, before => after.Sublist before
  | .repositoryAnalysisDispatchCursor, after, before => after = before
  | .repositoryAnalysisLinks, after, before => after.Sublist before
  | .backupPolicies, after, before => after.Sublist before
  | .backupPolicyPublicationCursor, after, before => after = before
  | .backupPolicyPublications, after, before => after.Sublist before
  | .backupPolicyFeedback, after, before => after.Sublist before
  | .mutationAudit, after, before => after.Sublist before
  | .repositoryActionAttempts, after, before => after.Sublist before
  | .outboxEvents, after, before => after.Sublist before
  | .inboxEvents, after, before => after.Sublist before
  | .accountErasureOperations, after, before => after.Sublist before

theorem Table.Shrunk.refl (t : Table) (rows : t.Rows) : t.Shrunk rows rows := by
  cases t <;> first | exact List.Sublist.refl _ | exact Eq.refl _

/-- Every table has only lost rows. -/
def Shrinks (db db' : Database) : Prop := ∀ t : Table, t.Shrunk (db'.rows t) (db.rows t)

theorem Database.rows_put (db : Database) (t : Table) (rows : t.Rows) :
    (db.put t rows).rows t = rows := by
  cases t <;> rfl

theorem shrinks_put {db : Database} {t : Table} {rows : t.Rows} (h : t.Shrunk rows (db.rows t)) :
    Shrinks db (db.put t rows) := by
  intro u
  by_cases hu : u = t
  · subst hu
    rw [Database.rows_put]
    exact h
  · rw [Database.rows_put_of_ne _ _ hu]
    exact Table.Shrunk.refl _ _

section shrink

variable {db db' : Database}

theorem Keys.shrink (h : Keys db) (hs : Shrinks db db') : Keys db' where
  accounts := h.accounts.sublist (hs .githubAccounts)
  accounts_identity := h.accounts_identity.sublist (List.Sublist.filter _ (hs .githubAccounts))
  credentials := h.credentials.sublist (hs .githubAccountCredentials)
  importRuns := h.importRuns.sublist (hs .legacyImportRuns)
  importAccounts := h.importAccounts.sublist (hs .legacyImportAccounts)
  repositories := h.repositories.sublist (hs .repositories)
  repositories_provider := h.repositories_provider.sublist (hs .repositories)
  aliases := h.aliases.sublist (hs .repositoryAliases)
  aliases_live := h.aliases_live.sublist (List.Sublist.filter _ (hs .repositoryAliases))
  records := h.records.sublist (hs .legacyImportRepositoryRecords)
  metadata := h.metadata.sublist (hs .repositoryMetadata)
  revisions := h.revisions.sublist (hs .repositoryMetadataRevisions)
  readmeBlobs := h.readmeBlobs.sublist (hs .repositoryReadmeBlobs)
  runs := h.runs.sublist (hs .syncRuns)
  checkpoints := h.checkpoints.sublist (hs .syncCheckpoints)
  snapshotItems := h.snapshotItems.sublist (hs .snapshotItems)
  listSnapshotItems := h.listSnapshotItems.sublist (hs .listSnapshotItems)
  observations := h.observations.sublist (hs .starObservations)
  stars := h.stars.sublist (hs .currentStarState)
  claims := h.claims.sublist (hs .legacyListClaims)
  shadowReports := h.shadowReports.sublist (hs .legacyShadowReports)
  watermarks := h.watermarks.sublist (hs .starWatermarks)
  repairs := h.repairs.sublist (hs .reconciliationRepairs)
  lists := h.lists.sublist (hs .starLists)
  lists_provider := h.lists_provider.sublist (hs .starLists)
  memberships := h.memberships.sublist (hs .starListMemberships)
  membershipObservations := h.membershipObservations.sublist (hs .starListMembershipObservations)
  watches := h.watches.sublist (hs .repositoryWatches)
  watches_identity := h.watches_identity.sublist (hs .repositoryWatches)
  requests := h.requests.sublist (hs .repositoryAnalysisRequests)
  requests_deduplication := h.requests_deduplication.sublist (hs .repositoryAnalysisRequests)
  requests_outbox :=
    h.requests_outbox.sublist (List.Sublist.filter _ (hs .repositoryAnalysisRequests))
  links := h.links.sublist (hs .repositoryAnalysisLinks)
  links_request := h.links_request.sublist (hs .repositoryAnalysisLinks)
  policies := h.policies.sublist (hs .backupPolicies)
  policies_repository := h.policies_repository.sublist (hs .backupPolicies)
  publications := h.publications.sublist (hs .backupPolicyPublications)
  publications_fingerprint := h.publications_fingerprint.sublist (hs .backupPolicyPublications)
  feedback := h.feedback.sublist (hs .backupPolicyFeedback)
  audit := h.audit.sublist (hs .mutationAudit)
  audit_success := h.audit_success.sublist (List.Sublist.filter _ (hs .mutationAudit))
  attempts := h.attempts.sublist (hs .repositoryActionAttempts)
  attempts_key := h.attempts_key.sublist (hs .repositoryActionAttempts)
  outbox := h.outbox.sublist (hs .outboxEvents)
  inbox := h.inbox.sublist (hs .inboxEvents)
  erasures := h.erasures.sublist (hs .accountErasureOperations)

theorem Checks.shrink (h : Checks db) (hs : Shrinks db db') : Checks db' where
  accounts a ha := h.accounts a (List.Sublist.subset (hs .githubAccounts) ha)
  credentials c hc := h.credentials c (List.Sublist.subset (hs .githubAccountCredentials) hc)
  importRuns r hr := h.importRuns r (List.Sublist.subset (hs .legacyImportRuns) hr)
  importAccounts a ha := h.importAccounts a (List.Sublist.subset (hs .legacyImportAccounts) ha)
  repositories r hr := h.repositories r (List.Sublist.subset (hs .repositories) hr)
  aliases a ha := h.aliases a (List.Sublist.subset (hs .repositoryAliases) ha)
  records r hr := h.records r (List.Sublist.subset (hs .legacyImportRepositoryRecords) hr)
  metadata m hm := h.metadata m (List.Sublist.subset (hs .repositoryMetadata) hm)
  revisions r hr := h.revisions r (List.Sublist.subset (hs .repositoryMetadataRevisions) hr)
  readmeBlobs b hb := h.readmeBlobs b (List.Sublist.subset (hs .repositoryReadmeBlobs) hb)
  runs r hr := h.runs r (List.Sublist.subset (hs .syncRuns) hr)
  observations o ho := h.observations o (List.Sublist.subset (hs .starObservations) ho)
  stars c hc := h.stars c (List.Sublist.subset (hs .currentStarState) hc)
  claims c hc := h.claims c (List.Sublist.subset (hs .legacyListClaims) hc)
  shadowReports r hr := h.shadowReports r (List.Sublist.subset (hs .legacyShadowReports) hr)
  lists l hl := h.lists l (List.Sublist.subset (hs .starLists) hl)
  memberships m hm := h.memberships m (List.Sublist.subset (hs .starListMemberships) hm)
  watches w hw := h.watches w (List.Sublist.subset (hs .repositoryWatches) hw)
  requests r hr := h.requests r (List.Sublist.subset (hs .repositoryAnalysisRequests) hr)
  links l hl := h.links l (List.Sublist.subset (hs .repositoryAnalysisLinks) hl)
  policies p hp := h.policies p (List.Sublist.subset (hs .backupPolicies) hp)
  cursor c hc := by
    have hcursor : db'.backupPolicyPublicationCursor = db.backupPolicyPublicationCursor :=
      hs .backupPolicyPublicationCursor
    rw [hcursor] at hc
    exact h.cursor c hc
  publications p hp := h.publications p (List.Sublist.subset (hs .backupPolicyPublications) hp)
  feedback f hf := h.feedback f (List.Sublist.subset (hs .backupPolicyFeedback) hf)
  audit a ha := h.audit a (List.Sublist.subset (hs .mutationAudit) ha)
  attempts a ha := h.attempts a (List.Sublist.subset (hs .repositoryActionAttempts) ha)
  outbox e he := h.outbox e (List.Sublist.subset (hs .outboxEvents) he)
  inbox e he := h.inbox e (List.Sublist.subset (hs .inboxEvents) he)
  erasures o ho := h.erasures o (List.Sublist.subset (hs .accountErasureOperations) ho)

/-- The tables some reference points into. -/
def referencedTables : List Table :=
  [.githubAccounts, .repositories, .repositoryAliases, .syncRuns, .starLists, .repositoryWatches,
    .repositoryAnalysisRequests]

/-- Every reference holds after deletes that spare the referenced tables. -/
theorem ForeignKeys.shrink (h : ForeignKeys db) (hs : Shrinks db db')
    (hkeep : ∀ t ∈ referencedTables, db'.rows t = db.rows t) : ForeignKeys db' := by
  have haccounts : db'.githubAccounts = db.githubAccounts := hkeep .githubAccounts (by decide)
  have hrepos : db'.repositories = db.repositories := hkeep .repositories (by decide)
  have haliases : db'.repositoryAliases = db.repositoryAliases :=
    hkeep .repositoryAliases (by decide)
  have hruns : db'.syncRuns = db.syncRuns := hkeep .syncRuns (by decide)
  have hlists : db'.starLists = db.starLists := hkeep .starLists (by decide)
  have hwatches : db'.repositoryWatches = db.repositoryWatches :=
    hkeep .repositoryWatches (by decide)
  have hrequests : db'.repositoryAnalysisRequests = db.repositoryAnalysisRequests :=
    hkeep .repositoryAnalysisRequests (by decide)
  rw [foreignKeys_iff, haccounts, hrepos, haliases, hruns, hlists, hwatches, hrequests]
  exact
    ⟨h.credentials_account.sublist (hs .githubAccountCredentials),
      h.importAccounts_account.sublist (hs .legacyImportAccounts),
      h.aliases_repository, h.aliases_redirect,
      h.records_account.sublist (hs .legacyImportRepositoryRecords),
      h.records_repository.sublist (hs .legacyImportRepositoryRecords),
      h.metadata_repository.sublist (hs .repositoryMetadata),
      h.revisions_repository.sublist (hs .repositoryMetadataRevisions),
      h.runs_account,
      h.checkpoints_run.sublist (hs .syncCheckpoints),
      h.snapshotItems_run.sublist (hs .snapshotItems),
      h.listSnapshotItems_run.sublist (hs .listSnapshotItems),
      h.observations_account.sublist (hs .starObservations),
      h.observations_repository.sublist (hs .starObservations),
      h.stars_account.sublist (hs .currentStarState),
      h.stars_repository.sublist (hs .currentStarState),
      h.stars_run.sublist (hs .currentStarState),
      h.claims_account.sublist (hs .legacyListClaims),
      h.claims_repository.sublist (hs .legacyListClaims),
      h.watermarks_account.sublist (hs .starWatermarks),
      h.repairs_run.sublist (hs .reconciliationRepairs),
      h.repairs_repository.sublist (hs .reconciliationRepairs),
      h.lists_account, h.lists_run,
      h.memberships_list.sublist (hs .starListMemberships),
      h.memberships_repository.sublist (hs .starListMemberships),
      h.memberships_run.sublist (hs .starListMemberships),
      h.membershipObservations_list.sublist (hs .starListMembershipObservations),
      h.membershipObservations_repository.sublist (hs .starListMembershipObservations),
      h.membershipObservations_run.sublist (hs .starListMembershipObservations),
      h.watches_repository, h.requests_watch, h.requests_repository,
      h.links_repository.sublist (hs .repositoryAnalysisLinks),
      h.links_request.sublist (hs .repositoryAnalysisLinks),
      h.policies_repository.sublist (hs .backupPolicies),
      h.audit_repository.sublist (hs .mutationAudit),
      h.audit_list.sublist (hs .mutationAudit)⟩

end shrink

/-! ### One delete -/

variable {c : Catalog}

/-- A delete succeeds when it keeps the references. -/
theorem write_succeeds {t : Table} {f : Database → t.Rows}
    (hrows : t.Shrunk (f c.tables) (c.tables.rows t))
    (hrefs : ForeignKeys (c.tables.put t (f c.tables))) : (write t f).succeeds c = true := by
  have hvalid : Constraints (c.tables.put t (f c.tables)) :=
    ⟨c.valid.keys.shrink (shrinks_put hrows), c.valid.checks.shrink (shrinks_put hrows), hrefs⟩
  rw [Tx.succeeds, write_of_valid hvalid]
  rfl

/-- A delete from a table nothing refers to always succeeds. -/
theorem writeLeaf_succeeds {t : Table} {f : Database → t.Rows} (ht : t ∉ referencedTables)
    (hrows : t.Shrunk (f c.tables) (c.tables.rows t)) : (write t f).succeeds c = true := by
  refine write_succeeds hrows (c.valid.foreignKeys.shrink (shrinks_put hrows) ?_)
  intro u hu
  apply Database.rows_put_of_ne
  rintro rfl
  exact ht hu

/-! ### The deletes that leave an obligation -/

theorem deleteRequests_succeeds {p : RepositoryAnalysisRequest → Bool}
    (hlinks : ∀ l ∈ c.tables.repositoryAnalysisLinks, ∀ r ∈ c.tables.repositoryAnalysisRequests,
      r.requestId = l.requestId → p r = false) :
    (write .repositoryAnalysisRequests fun db =>
      deleteWhere p db.repositoryAnalysisRequests).succeeds c = true := by
  have hrefs := c.valid.foreignKeys
  refine write_succeeds (deleteWhere_sublist _ _) { hrefs with
    requests_watch := hrefs.requests_watch.deleteWhere_left p
    requests_repository := hrefs.requests_repository.deleteWhere_left p
    links_request := hrefs.links_request.deleteWhere_right ?_ }
  intro l hl r hr hrequest
  exact hlinks l hl r hr (Option.mem_some_iff.mp hrequest).symm

theorem deleteWatches_succeeds {p : RepositoryWatch → Bool}
    (hrequests : ∀ r ∈ c.tables.repositoryAnalysisRequests, ∀ w ∈ c.tables.repositoryWatches,
      w.watchId = r.watchId → p w = false) :
    (write .repositoryWatches fun db => deleteWhere p db.repositoryWatches).succeeds c = true := by
  have hrefs := c.valid.foreignKeys
  refine write_succeeds (deleteWhere_sublist _ _) { hrefs with
    watches_repository := hrefs.watches_repository.deleteWhere_left p
    requests_watch := hrefs.requests_watch.deleteWhere_right ?_ }
  intro r hr w hw hwatch
  exact hrequests r hr w hw (Option.mem_some_iff.mp hwatch).symm

/-- The lists of an owner go when no membership, observation or audit row names one. -/
theorem deleteStarLists_succeeds {owner : String}
    (hmemberships : Spares (fun m => some m.listId) c.tables.starListMemberships
      (ownsList owner c.tables))
    (hobservations : Spares (fun o => some o.listId) c.tables.starListMembershipObservations
      (ownsList owner c.tables))
    (haudit : Spares MutationAudit.listId c.tables.mutationAudit (ownsList owner c.tables)) :
    (write .starLists fun db =>
      deleteWhere (fun l => ownsAccount owner db l.accountId) db.starLists).succeeds c = true := by
  have hrefs := c.valid.foreignKeys
  have hkept : ∀ l ∈ c.tables.starLists, ownsList owner c.tables l.listId = false →
      ownsAccount owner c.tables l.accountId = false := by
    intro l hl hlist
    rw [ownsList, List.any_eq_false] at hlist
    simpa using hlist l hl
  exact write_succeeds (deleteWhere_sublist _ _) { hrefs with
    lists_account := hrefs.lists_account.deleteWhere_left _
    lists_run := hrefs.lists_run.deleteWhere_left _
    memberships_list := hrefs.memberships_list.deleteWhere_spared hmemberships hkept
    membershipObservations_list :=
      hrefs.membershipObservations_list.deleteWhere_spared hobservations hkept
    audit_list := hrefs.audit_list.deleteWhere_spared haudit hkept }

/-- No row names a run of the owner. -/
structure RunsReleased (owner : String) (db : Database) : Prop where
  checkpoints : Spares (fun k => some k.syncRunId) db.syncCheckpoints (ownsSyncRun owner db)
  snapshotItems : Spares (fun i => some i.syncRunId) db.snapshotItems (ownsSyncRun owner db)
  listSnapshotItems : Spares (fun i => some i.syncRunId) db.listSnapshotItems
    (ownsSyncRun owner db)
  stars : Spares CurrentStarState.evidenceRunId db.currentStarState (ownsSyncRun owner db)
  repairs : Spares (fun r => some r.syncRunId) db.reconciliationRepairs (ownsSyncRun owner db)
  lists : Spares StarList.evidenceRunId db.starLists (ownsSyncRun owner db)
  memberships : Spares StarListMembership.evidenceRunId db.starListMemberships
    (ownsSyncRun owner db)
  membershipObservations : Spares StarListMembershipObservation.evidenceRunId
    db.starListMembershipObservations (ownsSyncRun owner db)

theorem deleteSyncRunRows_succeeds {owner : String} (h : RunsReleased owner c.tables) :
    (write .syncRuns fun db =>
      deleteWhere (fun r => ownsAccount owner db r.accountId) db.syncRuns).succeeds c = true := by
  have hrefs := c.valid.foreignKeys
  have hkept : ∀ r ∈ c.tables.syncRuns, ownsSyncRun owner c.tables r.syncRunId = false →
      ownsAccount owner c.tables r.accountId = false := by
    intro r hr hrun
    rw [ownsSyncRun, List.any_eq_false] at hrun
    simpa using hrun r hr
  exact write_succeeds (deleteWhere_sublist _ _) { hrefs with
    runs_account := hrefs.runs_account.deleteWhere_left _
    checkpoints_run := hrefs.checkpoints_run.deleteWhere_spared h.checkpoints hkept
    snapshotItems_run := hrefs.snapshotItems_run.deleteWhere_spared h.snapshotItems hkept
    listSnapshotItems_run :=
      hrefs.listSnapshotItems_run.deleteWhere_spared h.listSnapshotItems hkept
    stars_run := hrefs.stars_run.deleteWhere_spared h.stars hkept
    repairs_run := hrefs.repairs_run.deleteWhere_spared h.repairs hkept
    lists_run := hrefs.lists_run.deleteWhere_spared h.lists hkept
    memberships_run := hrefs.memberships_run.deleteWhere_spared h.memberships hkept
    membershipObservations_run :=
      hrefs.membershipObservations_run.deleteWhere_spared h.membershipObservations hkept }

/-- No row names an account of the owner. -/
structure AccountsReleased (owner : String) (db : Database) : Prop where
  credentials : Spares (fun k => some k.accountId) db.githubAccountCredentials
    (ownsAccount owner db)
  importAccounts : Spares (fun a => some a.accountId) db.legacyImportAccounts (ownsAccount owner db)
  records : Spares (fun r => some r.accountId) db.legacyImportRepositoryRecords
    (ownsAccount owner db)
  runs : Spares (fun r => some r.accountId) db.syncRuns (ownsAccount owner db)
  observations : Spares (fun o => some o.accountId) db.starObservations (ownsAccount owner db)
  stars : Spares (fun s => some s.accountId) db.currentStarState (ownsAccount owner db)
  claims : Spares (fun k => some k.accountId) db.legacyListClaims (ownsAccount owner db)
  watermarks : Spares (fun w => some w.accountId) db.starWatermarks (ownsAccount owner db)
  lists : Spares (fun l => some l.accountId) db.starLists (ownsAccount owner db)

theorem deleteAccountRows_succeeds {owner : String} (h : AccountsReleased owner c.tables) :
    (write .githubAccounts fun db =>
      deleteWhere (fun a => decide (a.ownerRef = owner)) db.githubAccounts).succeeds c = true := by
  have hrefs := c.valid.foreignKeys
  have hkept : ∀ a ∈ c.tables.githubAccounts, ownsAccount owner c.tables a.accountId = false →
      decide (a.ownerRef = owner) = false := by
    intro a ha howns
    rw [ownsAccount, List.any_eq_false] at howns
    simpa using howns a ha
  exact write_succeeds (deleteWhere_sublist _ _) { hrefs with
    credentials_account := hrefs.credentials_account.deleteWhere_spared h.credentials hkept
    importAccounts_account :=
      hrefs.importAccounts_account.deleteWhere_spared h.importAccounts hkept
    records_account := hrefs.records_account.deleteWhere_spared h.records hkept
    runs_account := hrefs.runs_account.deleteWhere_spared h.runs hkept
    observations_account := hrefs.observations_account.deleteWhere_spared h.observations hkept
    stars_account := hrefs.stars_account.deleteWhere_spared h.stars hkept
    claims_account := hrefs.claims_account.deleteWhere_spared h.claims hkept
    watermarks_account := hrefs.watermarks_account.deleteWhere_spared h.watermarks hkept
    lists_account := hrefs.lists_account.deleteWhere_spared h.lists hkept }

/-! ### The owner's rows -/

/-- Whatever names a run or a list of the owner is the owner's as well. -/
structure SyncEvidence (owner : String) (db : Database) : Prop where
  stars : ∀ s ∈ db.currentStarState, ∀ run ∈ s.evidenceRunId, ownsSyncRun owner db run = true →
    ownsAccount owner db s.accountId = true
  lists : ∀ l ∈ db.starLists, ∀ run ∈ l.evidenceRunId, ownsSyncRun owner db run = true →
    ownsAccount owner db l.accountId = true
  memberships : ∀ m ∈ db.starListMemberships, ∀ run ∈ m.evidenceRunId,
    ownsSyncRun owner db run = true → ownsList owner db m.listId = true
  membershipObservations : ∀ o ∈ db.starListMembershipObservations, ∀ run ∈ o.evidenceRunId,
    ownsSyncRun owner db run = true → ownsList owner db o.listId = true
  audit : ∀ a ∈ db.mutationAudit, a.listId = none

/-- Whatever names a watch or a request of the owner is the owner's as well. -/
structure AnalysisEvidence (owner : String) (db : Database) : Prop where
  requests : ∀ r ∈ db.repositoryAnalysisRequests, ∀ w ∈ db.repositoryWatches,
    w.watchId = r.watchId → w.ownerRef = owner → r.ownerRef = owner
  links : ∀ l ∈ db.repositoryAnalysisLinks, ∀ r ∈ db.repositoryAnalysisRequests,
    r.requestId = l.requestId → r.ownerRef = owner → l.ownerRef = owner

/-- The two together. -/
structure OwnedEvidence (owner : String) (db : Database) : Prop extends
  SyncEvidence owner db, AnalysisEvidence owner db

variable {owner : String}

theorem deleteMessages_succeeds : (deleteMessages owner).succeeds c = true :=
  Tx.bind_succeeds (writeLeaf_succeeds (by decide) (deleteWhere_sublist _ _)) fun _ _ _ =>
    writeLeaf_succeeds (by decide) (deleteWhere_sublist _ _)

theorem deleteAnalyses_succeeds (h : AnalysisEvidence owner c.tables) :
    (deleteAnalyses owner).succeeds c = true := by
  refine Tx.bind_succeeds (writeLeaf_succeeds (by decide) (deleteWhere_sublist _ _))
    fun _ c₁ h₁ => ?_
  refine Tx.bind_succeeds (writeLeaf_succeeds (by decide) (deleteWhere_sublist _ _))
    fun _ c₂ h₂ => ?_
  rw [write_eq_ok] at h₁ h₂
  have hlinks : c₂.tables.repositoryAnalysisLinks =
      deleteWhere (fun l => decide (l.ownerRef = owner)) c.tables.repositoryAnalysisLinks := by
    rw [h₂, h₁]
    rfl
  have hrequests : c₂.tables.repositoryAnalysisRequests = c.tables.repositoryAnalysisRequests := by
    rw [h₂, h₁]
    rfl
  refine Tx.bind_succeeds (deleteRequests_succeeds ?_) fun _ c₃ h₃ => deleteWatches_succeeds ?_
  · rw [hlinks, hrequests]
    intro l hl r hr hrequest
    obtain ⟨hl, hother⟩ := mem_deleteWhere.mp hl
    rw [decide_eq_false_iff_not] at hother ⊢
    exact fun hr' => hother (h.links l hl r hr hrequest hr')
  · rw [write_eq_ok] at h₃
    have hkept : c₃.tables.repositoryAnalysisRequests =
        deleteWhere (fun r => decide (r.ownerRef = owner))
          c.tables.repositoryAnalysisRequests := by
      rw [h₃, ← hrequests]
      rfl
    have hwatches : c₃.tables.repositoryWatches = c.tables.repositoryWatches := by
      rw [h₃, h₂, h₁]
      rfl
    rw [hkept, hwatches]
    intro r hr w hw hwatch
    obtain ⟨hr, hother⟩ := mem_deleteWhere.mp hr
    rw [decide_eq_false_iff_not] at hother ⊢
    exact fun hw' => hother (h.requests r hr w hw hwatch hw')

theorem deleteLists_succeeds (haudit : ∀ a ∈ c.tables.mutationAudit, a.listId = none) :
    (deleteLists owner).succeeds c = true := by
  refine Tx.bind_succeeds (writeLeaf_succeeds (by decide) (deleteWhere_sublist _ _))
    fun _ c₁ h₁ => ?_
  refine Tx.bind_succeeds (writeLeaf_succeeds (by decide) (deleteWhere_sublist _ _))
    fun _ c₂ h₂ => ?_
  refine Tx.bind_succeeds (writeLeaf_succeeds (by decide) (deleteWhere_sublist _ _))
    fun _ c₃ h₃ => ?_
  have hstate : c₃.tables = { c.tables with
      mutationAudit := (withoutOwnerRows owner c.tables).mutationAudit
      starListMembershipObservations :=
        (withoutOwnerRows owner c.tables).starListMembershipObservations
      starListMemberships := (withoutOwnerRows owner c.tables).starListMemberships } := by
    rw [write_eq_ok.mp h₃, write_eq_ok.mp h₂, write_eq_ok.mp h₁]
    unfold Database.put
    simp only [withoutOwnerRows, ownsAccount, ownsList]
  refine deleteStarLists_succeeds ?_ ?_ ?_
  all_goals rw [hstate]
  · exact spares_deleteWhere StarListMembership.listId _ _
  · exact spares_deleteWhere StarListMembershipObservation.listId _ _
  · intro a ha l hl
    rw [haudit a (mem_deleteWhere.mp ha).1] at hl
    cases hl

theorem deleteStars_succeeds : (deleteStars owner).succeeds c = true :=
  Tx.bind_succeeds (writeLeaf_succeeds (by decide) (deleteWhere_sublist _ _)) fun _ _ _ =>
    Tx.bind_succeeds (writeLeaf_succeeds (by decide) (deleteWhere_sublist _ _)) fun _ _ _ =>
    Tx.bind_succeeds (writeLeaf_succeeds (by decide) (deleteWhere_sublist _ _)) fun _ _ _ =>
    writeLeaf_succeeds (by decide) (deleteWhere_sublist _ _)

theorem deleteSyncRuns_succeeds
    (hstars : Spares CurrentStarState.evidenceRunId c.tables.currentStarState
      (ownsSyncRun owner c.tables))
    (hlists : Spares StarList.evidenceRunId c.tables.starLists (ownsSyncRun owner c.tables))
    (hmemberships : Spares StarListMembership.evidenceRunId c.tables.starListMemberships
      (ownsSyncRun owner c.tables))
    (hobservations : Spares StarListMembershipObservation.evidenceRunId
      c.tables.starListMembershipObservations (ownsSyncRun owner c.tables)) :
    (deleteSyncRuns owner).succeeds c = true := by
  refine Tx.bind_succeeds (writeLeaf_succeeds (by decide) (deleteWhere_sublist _ _))
    fun _ c₁ h₁ => ?_
  refine Tx.bind_succeeds (writeLeaf_succeeds (by decide) (deleteWhere_sublist _ _))
    fun _ c₂ h₂ => ?_
  refine Tx.bind_succeeds (writeLeaf_succeeds (by decide) (deleteWhere_sublist _ _))
    fun _ c₃ h₃ => ?_
  refine Tx.bind_succeeds (writeLeaf_succeeds (by decide) (deleteWhere_sublist _ _))
    fun _ c₄ h₄ => deleteSyncRunRows_succeeds ?_
  have hstate : c₄.tables = { c.tables with
      reconciliationRepairs := (withoutOwnerRows owner c.tables).reconciliationRepairs
      snapshotItems := (withoutOwnerRows owner c.tables).snapshotItems
      listSnapshotItems := (withoutOwnerRows owner c.tables).listSnapshotItems
      syncCheckpoints := (withoutOwnerRows owner c.tables).syncCheckpoints } := by
    rw [write_eq_ok.mp h₄, write_eq_ok.mp h₃, write_eq_ok.mp h₂, write_eq_ok.mp h₁]
    unfold Database.put
    simp only [withoutOwnerRows, ownsAccount, ownsSyncRun]
  rw [hstate]
  exact
    { checkpoints := spares_deleteWhere SyncCheckpoint.syncRunId _ _
      snapshotItems := spares_deleteWhere SnapshotItem.syncRunId _ _
      listSnapshotItems := spares_deleteWhere ListSnapshotItem.syncRunId _ _
      repairs := spares_deleteWhere ReconciliationRepair.syncRunId _ _
      stars := hstars
      lists := hlists
      memberships := hmemberships
      membershipObservations := hobservations }

theorem deleteAccounts_succeeds
    (hruns : Spares (fun r => some r.accountId) c.tables.syncRuns (ownsAccount owner c.tables))
    (hobservations : Spares (fun o => some o.accountId) c.tables.starObservations
      (ownsAccount owner c.tables))
    (hstars : Spares (fun s => some s.accountId) c.tables.currentStarState
      (ownsAccount owner c.tables))
    (hclaims : Spares (fun k => some k.accountId) c.tables.legacyListClaims
      (ownsAccount owner c.tables))
    (hwatermarks : Spares (fun w => some w.accountId) c.tables.starWatermarks
      (ownsAccount owner c.tables))
    (hlists : Spares (fun l => some l.accountId) c.tables.starLists (ownsAccount owner c.tables)) :
    (deleteAccounts owner).succeeds c = true := by
  refine Tx.bind_succeeds (writeLeaf_succeeds (by decide) (deleteWhere_sublist _ _))
    fun _ c₁ h₁ => ?_
  refine Tx.bind_succeeds (writeLeaf_succeeds (by decide) (deleteWhere_sublist _ _))
    fun _ c₂ h₂ => ?_
  refine Tx.bind_succeeds (writeLeaf_succeeds (by decide) (deleteWhere_sublist _ _))
    fun _ c₃ h₃ => deleteAccountRows_succeeds ?_
  have hstate : c₃.tables = { c.tables with
      legacyImportRepositoryRecords :=
        (withoutOwnerRows owner c.tables).legacyImportRepositoryRecords
      legacyImportAccounts := (withoutOwnerRows owner c.tables).legacyImportAccounts
      githubAccountCredentials := (withoutOwnerRows owner c.tables).githubAccountCredentials } := by
    rw [write_eq_ok.mp h₃, write_eq_ok.mp h₂, write_eq_ok.mp h₁]
    unfold Database.put
    simp only [withoutOwnerRows, ownsAccount]
  rw [hstate]
  exact
    { credentials := spares_deleteWhere GithubAccountCredential.accountId _ _
      importAccounts := spares_deleteWhere LegacyImportAccount.accountId _ _
      records := spares_deleteWhere LegacyImportRepositoryRecord.accountId _ _
      runs := hruns
      observations := hobservations
      stars := hstars
      claims := hclaims
      watermarks := hwatermarks
      lists := hlists }

/-- What is left when the rows marked by their owner are gone names no run of the owner, if only those
rows did. -/
theorem spares_of_owned {α : Type} {t : List α} {run : α → Option Uuid} {ownsRun : Uuid → Bool}
    {ownsRow : α → Bool} (h : ∀ a ∈ t, ∀ r ∈ run a, ownsRun r = true → ownsRow a = true) :
    Spares run (deleteWhere ownsRow t) ownsRun := by
  intro a ha r hr
  obtain ⟨ha, hkept⟩ := mem_deleteWhere.mp ha
  rw [← Bool.not_eq_true]
  intro howns
  rw [h a ha r hr howns] at hkept
  cases hkept

/-- **The deletes go through.**  Every row that names an owner's row goes before it. -/
theorem deleteOwnerRows_succeeds (h : OwnedEvidence owner c.tables) :
    (deleteOwnerRows owner).succeeds c = true := by
  refine Tx.bind_succeeds deleteMessages_succeeds fun _ c₁ h₁ => ?_
  have e₁ := deleteMessages_eq h₁
  refine Tx.bind_succeeds (deleteAnalyses_succeeds ?_) fun _ c₂ h₂ => ?_
  · rw [e₁]
    exact { h.toAnalysisEvidence with }
  have e₂ := deleteAnalyses_eq h₂
  refine Tx.bind_succeeds (deleteLists_succeeds ?_) fun _ c₃ h₃ => ?_
  · rw [e₂, e₁]
    exact h.audit
  have e₃ := deleteLists_eq h₃
  refine Tx.bind_succeeds deleteStars_succeeds fun _ c₄ h₄ => ?_
  have e₄ := deleteStars_eq h₄
  -- What still names a run is not the owner's, so its run is not either.
  have hstate : c₄.tables = { c.tables with
      outboxEvents := (withoutOwnerRows owner c.tables).outboxEvents
      inboxEvents := (withoutOwnerRows owner c.tables).inboxEvents
      repositoryActionAttempts := (withoutOwnerRows owner c.tables).repositoryActionAttempts
      repositoryAnalysisLinks := (withoutOwnerRows owner c.tables).repositoryAnalysisLinks
      repositoryAnalysisRequests := (withoutOwnerRows owner c.tables).repositoryAnalysisRequests
      repositoryWatches := (withoutOwnerRows owner c.tables).repositoryWatches
      mutationAudit := (withoutOwnerRows owner c.tables).mutationAudit
      starListMembershipObservations :=
        (withoutOwnerRows owner c.tables).starListMembershipObservations
      starListMemberships := (withoutOwnerRows owner c.tables).starListMemberships
      starLists := (withoutOwnerRows owner c.tables).starLists
      currentStarState := (withoutOwnerRows owner c.tables).currentStarState
      starObservations := (withoutOwnerRows owner c.tables).starObservations
      legacyListClaims := (withoutOwnerRows owner c.tables).legacyListClaims
      starWatermarks := (withoutOwnerRows owner c.tables).starWatermarks } := by
    rw [e₄, e₃, e₂, e₁]
    simp only [withoutOwnerRows, ownsAccount, ownsSyncRun, ownsList]
  refine Tx.bind_succeeds (deleteSyncRuns_succeeds ?_ ?_ ?_ ?_) fun _ c₅ h₅ =>
    deleteAccounts_succeeds ?_ ?_ ?_ ?_ ?_ ?_
  · rw [hstate]
    exact spares_of_owned h.stars
  · rw [hstate]
    exact spares_of_owned h.lists
  · rw [hstate]
    exact spares_of_owned h.memberships
  · rw [hstate]
    exact spares_of_owned h.membershipObservations
  all_goals rw [deleteSyncRuns_eq h₅, hstate]
  · exact spares_deleteWhere SyncRun.accountId _ _
  · exact spares_deleteWhere StarObservation.accountId _ _
  · exact spares_deleteWhere CurrentStarState.accountId _ _
  · exact spares_deleteWhere LegacyListClaim.accountId _ _
  · exact spares_deleteWhere StarWatermark.accountId _ _
  · exact spares_deleteWhere StarList.accountId _ _

/-! ### The collection -/

def RepositoryAlias.clearRedirect (a : RepositoryAlias) : RepositoryAlias :=
  { a with redirectTo := none }

/-- Clearing redirects breaks nothing. -/
theorem clearRedirects_succeeds {p : Database → RepositoryAlias → Bool} :
    (write .repositoryAliases fun db => updateWhere (p db) RepositoryAlias.clearRedirect
      db.repositoryAliases).succeeds c = true := by
  have hkeys := c.valid.keys
  have hchecks := c.valid.checks
  have hrefs := c.valid.foreignKeys
  have hrow : ∀ b ∈ updateWhere (p c.tables) RepositoryAlias.clearRedirect
      c.tables.repositoryAliases, ∃ a ∈ c.tables.repositoryAliases,
      b.repositoryId = a.repositoryId ∧ b.status = a.status ∧
        (b.redirectTo = none ∨ b.redirectTo = a.redirectTo) := by
    intro b hb
    obtain ⟨a, ha, rfl⟩ := mem_updateWhere.mp hb
    refine ⟨a, ha, ?_⟩
    split
    · exact ⟨rfl, rfl, .inl rfl⟩
    · exact ⟨rfl, rfl, .inr rfl⟩
  have hids : (updateWhere (p c.tables) RepositoryAlias.clearRedirect
      c.tables.repositoryAliases).map (·.aliasId) = c.tables.repositoryAliases.map (·.aliasId) := by
    apply map_updateWhere
    intro _
    rfl
  have hvalid : Constraints (c.tables.put .repositoryAliases
      (updateWhere (p c.tables) RepositoryAlias.clearRedirect c.tables.repositoryAliases)) := by
    refine ⟨{ hkeys with aliases := ?_, aliases_live := ?_ }, { hchecks with aliases := ?_ },
      { hrefs with aliases_repository := ?_, aliases_redirect := ?_ }⟩
    · rw [UniqueOn]
      exact hids ▸ hkeys.aliases
    · show UniqueOn _ ((updateWhere _ _ _).filter _)
      rw [filter_updateWhere, UniqueOn, map_updateWhere]
      · exact hkeys.aliases_live
      · exact fun _ => rfl
      · exact fun _ => rfl
    · intro b hb
      obtain ⟨a, ha, -, hstatus, hredirect⟩ := hrow b hb
      have hold := hchecks.aliases a ha
      rcases hredirect with hnone | hsame
      · simp [RepositoryAlias.check, hnone]
      · rwa [RepositoryAlias.check, hsame, hstatus]
    · intro b hb k hk
      obtain ⟨a, ha, hrepo, -, -⟩ := hrow b hb
      have hk : k ∈ some a.repositoryId := by
        rw [← hrepo]
        exact hk
      exact hrefs.aliases_repository a ha k hk
    · intro b hb k hk
      obtain ⟨a, ha, -, -, hredirect⟩ := hrow b hb
      show k ∈ (updateWhere _ _ _).map RepositoryAlias.aliasId
      rw [hids]
      rcases hredirect with hnone | hsame
      · rw [hnone] at hk
        cases hk
      · rw [hsame] at hk
        exact hrefs.aliases_redirect a ha k hk
  rw [Tx.succeeds, write_of_valid hvalid]
  rfl

/-- The aliases of doomed repositories go when no other alias redirects to one. -/
theorem deleteAliases_succeeds {p : RepositoryAlias → Bool}
    (h : ∀ a ∈ c.tables.repositoryAliases, ∀ b ∈ c.tables.repositoryAliases,
      b.aliasId ∈ a.redirectTo → p a = false → p b = false) :
    (write .repositoryAliases fun db => deleteWhere p db.repositoryAliases).succeeds c = true := by
  have hrefs := c.valid.foreignKeys
  refine write_succeeds (deleteWhere_sublist _ _) { hrefs with
    aliases_repository := hrefs.aliases_repository.deleteWhere_left _
    aliases_redirect := (hrefs.aliases_redirect.deleteWhere_left p).deleteWhere_right ?_ }
  intro a ha b hb hredirect
  exact h a (mem_deleteWhere.mp ha).1 b hb hredirect (mem_deleteWhere.mp ha).2

/-- No row names one of the repositories. -/
structure RepositoriesReleased (marked : Uuid → Bool) (db : Database) : Prop where
  aliases : Spares (fun a => some a.repositoryId) db.repositoryAliases marked
  records : Spares (fun r => some r.repositoryId) db.legacyImportRepositoryRecords marked
  metadata : Spares (fun m => some m.repositoryId) db.repositoryMetadata marked
  revisions : Spares (fun r => some r.repositoryId) db.repositoryMetadataRevisions marked
  observations : Spares (fun o => some o.repositoryId) db.starObservations marked
  stars : Spares (fun s => some s.repositoryId) db.currentStarState marked
  claims : Spares (fun k => some k.repositoryId) db.legacyListClaims marked
  repairs : Spares (fun r => some r.repositoryId) db.reconciliationRepairs marked
  memberships : Spares (fun m => some m.repositoryId) db.starListMemberships marked
  membershipObservations : Spares (fun o => some o.repositoryId) db.starListMembershipObservations
    marked
  watches : Spares (fun w => some w.repositoryId) db.repositoryWatches marked
  requests : Spares (fun r => some r.repositoryId) db.repositoryAnalysisRequests marked
  links : Spares (fun l => some l.repositoryId) db.repositoryAnalysisLinks marked
  policies : Spares (fun p => some p.repositoryId) db.backupPolicies marked
  audit : Spares (fun a => some a.repositoryId) db.mutationAudit marked

theorem deleteRepositories_succeeds {marked : Uuid → Bool}
    (h : RepositoriesReleased marked c.tables) :
    (write .repositories fun db =>
      deleteWhere (fun r => marked r.repositoryId) db.repositories).succeeds c = true := by
  have hrefs := c.valid.foreignKeys
  have hkept : ∀ r ∈ c.tables.repositories, marked r.repositoryId = false →
      marked r.repositoryId = false := fun _ _ hr => hr
  exact write_succeeds (deleteWhere_sublist _ _) { hrefs with
    aliases_repository := hrefs.aliases_repository.deleteWhere_spared h.aliases hkept
    records_repository := hrefs.records_repository.deleteWhere_spared h.records hkept
    metadata_repository := hrefs.metadata_repository.deleteWhere_spared h.metadata hkept
    revisions_repository := hrefs.revisions_repository.deleteWhere_spared h.revisions hkept
    observations_repository :=
      hrefs.observations_repository.deleteWhere_spared h.observations hkept
    stars_repository := hrefs.stars_repository.deleteWhere_spared h.stars hkept
    claims_repository := hrefs.claims_repository.deleteWhere_spared h.claims hkept
    repairs_repository := hrefs.repairs_repository.deleteWhere_spared h.repairs hkept
    memberships_repository := hrefs.memberships_repository.deleteWhere_spared h.memberships hkept
    membershipObservations_repository :=
      hrefs.membershipObservations_repository.deleteWhere_spared h.membershipObservations hkept
    watches_repository := hrefs.watches_repository.deleteWhere_spared h.watches hkept
    requests_repository := hrefs.requests_repository.deleteWhere_spared h.requests hkept
    links_repository := hrefs.links_repository.deleteWhere_spared h.links hkept
    policies_repository := hrefs.policies_repository.deleteWhere_spared h.policies hkept
    audit_repository := hrefs.audit_repository.deleteWhere_spared h.audit hkept }

/-- The reference test, table by table. -/
theorem not_referenced {db : Database} {id : Uuid} (h : referenced db id = false) :
    (∀ s ∈ db.currentStarState, s.repositoryId ≠ id) ∧
    (∀ o ∈ db.starObservations, o.repositoryId ≠ id) ∧
    (∀ k ∈ db.legacyListClaims, k.repositoryId ≠ id) ∧
    (∀ r ∈ db.legacyImportRepositoryRecords, r.repositoryId ≠ id) ∧
    (∀ m ∈ db.starListMemberships, m.repositoryId ≠ id) ∧
    (∀ o ∈ db.starListMembershipObservations, o.repositoryId ≠ id) ∧
    (∀ a ∈ db.mutationAudit, a.repositoryId ≠ id) ∧
    (∀ r ∈ db.reconciliationRepairs, r.repositoryId ≠ id) ∧
    (∀ w ∈ db.repositoryWatches, w.repositoryId ≠ id) ∧
    (∀ r ∈ db.repositoryAnalysisRequests, r.repositoryId ≠ id) ∧
    ∀ l ∈ db.repositoryAnalysisLinks, l.repositoryId ≠ id := by
  simp only [referenced, Bool.or_eq_false_iff, List.any_eq_false, decide_eq_true_eq, and_assoc] at h
  obtain ⟨h₁, h₂, h₃, h₄, h₅, h₆, h₇, h₈, h₉, h₁₀, h₁₁, -⟩ := h
  exact ⟨h₁, h₂, h₃, h₄, h₅, h₆, h₇, h₈, h₉, h₁₀, h₁₁⟩

/-- After the clearing, no alias that stays redirects to one that goes. -/
theorem redirects_cleared {doomed : List Uuid} {db : Database} {a b : RepositoryAlias}
    (ha : a ∈ updateWhere (fun a => decide (a.repositoryId ∉ doomed) &&
        a.redirectTo.any fun t => decide (t ∈ aliasesOf doomed db)) RepositoryAlias.clearRedirect
      db.repositoryAliases)
    (hb : b ∈ updateWhere (fun a => decide (a.repositoryId ∉ doomed) &&
        a.redirectTo.any fun t => decide (t ∈ aliasesOf doomed db)) RepositoryAlias.clearRedirect
      db.repositoryAliases)
    (hredirect : b.aliasId ∈ a.redirectTo) (hkept : decide (a.repositoryId ∈ doomed) = false) :
    decide (b.repositoryId ∈ doomed) = false := by
  obtain ⟨a₀, ha₀, rfl⟩ := mem_updateWhere.mp ha
  obtain ⟨b₀, hb₀, hb'⟩ := mem_updateWhere.mp hb
  have hid : b.aliasId = b₀.aliasId ∧ b.repositoryId = b₀.repositoryId := by
    rw [← hb']
    split <;> exact ⟨rfl, rfl⟩
  rw [hid.1] at hredirect
  rw [hid.2, decide_eq_false_iff_not]
  split at hredirect
  · cases hredirect
  · next hcond =>
    rw [if_neg hcond, decide_eq_false_iff_not] at hkept
    intro hdoomed
    apply hcond
    rw [Bool.and_eq_true, decide_eq_true_eq, Option.any_eq_true]
    refine ⟨hkept, b₀.aliasId, hredirect, ?_⟩
    rw [decide_eq_true_eq]
    exact List.mem_map_of_mem (List.mem_filter.mpr ⟨hb₀, decide_eq_true hdoomed⟩)

/-- **The collection goes through.**  It takes only repositories that no remaining row names. -/
theorem collectUnreferencedRepositories_succeeds (candidates : List Uuid) :
    (collectUnreferencedRepositories candidates).succeeds c = true := by
  refine Tx.bind_succeeds rfl fun doomed c₀ h₀ => ?_
  obtain ⟨hdoomed, rfl⟩ := select_eq_ok.mp h₀
  have hfree : ∀ id ∈ doomed, referenced c.tables id = false := by
    rw [← hdoomed]
    intro id hid
    simpa using (List.mem_filter.mp hid).2
  refine Tx.bind_succeeds clearRedirects_succeeds fun _ c₁ h₁ => ?_
  refine Tx.bind_succeeds (deleteAliases_succeeds ?_) fun _ c₂ h₂ => ?_
  · rw [write_eq_ok.mp h₁]
    exact fun a ha b hb hredirect hkept => redirects_cleared ha hb hredirect hkept
  refine Tx.bind_succeeds (writeLeaf_succeeds (by decide) (deleteWhere_sublist _ _))
    fun _ c₃ h₃ => ?_
  refine Tx.bind_succeeds (writeLeaf_succeeds (by decide) (deleteWhere_sublist _ _))
    fun _ c₄ h₄ => ?_
  refine Tx.bind_succeeds (writeLeaf_succeeds (by decide) (deleteWhere_sublist _ _))
    fun _ c₅ h₅ => ?_
  refine Tx.bind_succeeds rfl fun _ c₆ h₆ => ?_
  obtain ⟨-, rfl⟩ := select_eq_ok.mp h₆
  refine Tx.bind_succeeds (@deleteRepositories_succeeds c₅ (fun id => decide (id ∈ doomed)) ?_)
    fun _ _ _ => rfl
  have hspare : ∀ {α : Type} {t : List α} {f : α → Uuid},
      (∀ id ∈ doomed, ∀ a ∈ t, f a ≠ id) →
      Spares (fun a => some (f a)) t fun id => decide (id ∈ doomed) := by
    intro α t f h a ha id hid
    rw [decide_eq_false_iff_not]
    exact fun hmem => h id hmem a ha (Option.mem_some_iff.mp hid)
  have hstate : c₅.tables = { c.tables with
      repositoryAliases := (withoutRepositories doomed c.tables).repositoryAliases
      repositoryMetadata := (withoutRepositories doomed c.tables).repositoryMetadata
      repositoryMetadataRevisions :=
        (withoutRepositories doomed c.tables).repositoryMetadataRevisions
      backupPolicies := (withoutRepositories doomed c.tables).backupPolicies } := by
    rw [write_eq_ok.mp h₅, write_eq_ok.mp h₄, write_eq_ok.mp h₃, write_eq_ok.mp h₂,
      write_eq_ok.mp h₁]
    unfold Database.put
    simp only [withoutRepositories]
  rw [hstate]
  let marked : Uuid → Bool := fun id => decide (id ∈ doomed)
  exact
    { aliases := spares_deleteWhere RepositoryAlias.repositoryId _ marked
      records := hspare fun id hid => (not_referenced (hfree id hid)).2.2.2.1
      metadata := spares_deleteWhere RepositoryMetadata.repositoryId _ marked
      revisions := spares_deleteWhere RepositoryMetadataRevision.repositoryId _ marked
      observations := hspare fun id hid => (not_referenced (hfree id hid)).2.1
      stars := hspare fun id hid => (not_referenced (hfree id hid)).1
      claims := hspare fun id hid => (not_referenced (hfree id hid)).2.2.1
      repairs := hspare fun id hid => (not_referenced (hfree id hid)).2.2.2.2.2.2.2.1
      memberships := hspare fun id hid => (not_referenced (hfree id hid)).2.2.2.2.1
      membershipObservations := hspare fun id hid => (not_referenced (hfree id hid)).2.2.2.2.2.1
      watches := hspare fun id hid => (not_referenced (hfree id hid)).2.2.2.2.2.2.2.2.1
      requests := hspare fun id hid => (not_referenced (hfree id hid)).2.2.2.2.2.2.2.2.2.1
      links := hspare fun id hid => (not_referenced (hfree id hid)).2.2.2.2.2.2.2.2.2.2
      policies := spares_deleteWhere BackupPolicy.repositoryId _ marked
      audit := hspare fun id hid => (not_referenced (hfree id hid)).2.2.2.2.2.2.1 }

/-- **The order of the deletes.**  When whatever names the owner's rows is the owner's as well, no
statement of the erasure breaks a constraint. -/
theorem eraseOwnerState_ordered (now : Time) (h : OwnedEvidence owner c.tables) :
    eraseOwnerState now owner c ≠ .error (.query .constraint) := by
  refine Tx.bind_ne_error (Tx.ne_error_of_succeeds rfl) fun candidates c₁ h₁ => ?_
  obtain ⟨-, rfl⟩ := select_eq_ok.mp h₁
  refine Tx.bind_ne_error (Tx.ne_error_of_succeeds rfl) fun digests c₂ h₂ => ?_
  obtain ⟨-, rfl⟩ := select_eq_ok.mp h₂
  refine Tx.bind_ne_error (Tx.ne_error_of_succeeds (deleteOwnerRows_succeeds h)) fun _ c₃ _ => ?_
  refine Tx.bind_ne_error
    (Tx.ne_error_of_succeeds (collectUnreferencedRepositories_succeeds candidates))
    fun collected c₄ _ => ?_
  refine Tx.bind_ne_error (Tx.ne_error_of_succeeds
    (writeLeaf_succeeds (by decide) (deleteWhere_sublist _ _))) fun _ c₅ _ => ?_
  unfold onlyIf
  split
  · exact markBackupPolicyDirtyInTx_ne_constraint now c₅
  · exact Tx.ne_error_of_succeeds rfl

end GithubCatalog
