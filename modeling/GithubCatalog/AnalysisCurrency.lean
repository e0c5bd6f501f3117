import GithubCatalog.AnalysisQueue

/-!
# Whether the linked analysis is of the stored revision

Each recorded revision of a watched repository is followed by an evaluation; requests complete in the
order they were queued.  When nothing is outstanding, the link should name a result of the stored
revision.  It does as long as no revision comes back: a request is queued once for each watch and
revision, so a repository that returns to an earlier revision queues nothing and keeps the link of the
revision it left.

* `CurrencyEvent`, `WatchedCatalog.step` - refreshes with their evaluations, dispatches, deliveries;
* `Unrequested` - the recorded revision is new to the owner's watch;
* `link_current` - the link is current throughout such histories;
* `returned_revision_kept_link` - and is not when a revision comes back.
-/

namespace GithubCatalog

open Relational Transact

/-! ### Histories of one repository -/

inductive CurrencyEvent where
  /-- A revision is recorded, and the watches are evaluated. -/
  | record (revisionId : Uuid) (now : Time) (body : ProviderRepositoryBody) (etag : Option String)
      (readme : ReadmeRevision) (readmeEtag : Option String) (ids : ℕ → Uuid) (evaluated : Time)
  | dispatch (locked : Uuid → Bool) (messageId : Uuid) (now : Time)
  | deliver (now : Time) (messageId : Uuid) (fact : TerminalFact) (status : TerminalStatus)

/-- A catalog, and whether the stored revision has changed since the watch began. -/
structure WatchedCatalog where
  catalog : Catalog
  changed : Bool

namespace WatchedCatalog

def tables (s : WatchedCatalog) : Database := s.catalog.tables

/-- The catalog after a refresh. -/
def refreshed (k : Contracts) (repositoryId : Uuid) (c : Catalog) : CurrencyEvent → Catalog
  | .record revisionId now body etag readme readmeEtag _ _ =>
    (applyFreshSource k revisionId now repositoryId body etag readme readmeEtag).commit c
  | _ => c

def step (k : Contracts) (repositoryId : Uuid) (s : WatchedCatalog) (e : CurrencyEvent) :
    WatchedCatalog :=
  let c := refreshed k repositoryId s.catalog e
  match e with
  | .record _ _ _ _ _ _ ids evaluated =>
    ⟨(evaluateMetadataWatches k ids evaluated repositoryId).commit c,
      s.changed || decide (storedHash repositoryId c.tables ≠ storedHash repositoryId s.tables)⟩
  | .dispatch locked messageId now => ⟨(dispatchUnlocked k locked messageId now).commit c, s.changed⟩
  | .deliver now messageId fact status =>
    ⟨(consumeTerminalFact k now messageId fact status).commit c, s.changed⟩

end WatchedCatalog

/-- A fact that completes, in queue order, what it settles for the owner and the repository. -/
def Completing (k : Contracts) (owner : String) (repositoryId : Uuid) (db : Database)
    (fact : TerminalFact) (status : TerminalStatus) : Prop :=
  InQueueOrder k fact db ∧ ((∃ r ∈ requestsOf owner repositoryId db, fact.names k r = true) →
    status.subject = .analysisCompleted)

/-- The schedule: every refresh is followed by an evaluation that ran, and every request of the owner
completes in the order it was queued. -/
def Scheduled (k : Contracts) (owner : String) (repositoryId : Uuid) (s : WatchedCatalog) :
    CurrencyEvent → Prop
  | .record revisionId now body etag readme readmeEtag ids evaluated =>
    (evaluateMetadataWatches k ids evaluated repositoryId).succeeds (WatchedCatalog.refreshed k
      repositoryId s.catalog (.record revisionId now body etag readme readmeEtag ids evaluated)) = true
  | .dispatch _ _ _ => True
  | .deliver _ _ fact status => Completing k owner repositoryId s.tables fact status

/-- The owner's watch has no request of the stored revision yet, or stands at it. -/
def Unrequested (k : Contracts) (owner : String) (repositoryId : Uuid) (db : Database) : Prop :=
  match evaluatedSource k repositoryId db with
  | .ok source => ∀ w ∈ staleWatches repositoryId source.contentHash db, w.ownerRef = owner →
      requestedFor k repositoryId source db w = false
  | .error _ => True

/-- No refresh brings back a revision that was requested before. -/
def NoReturn (k : Contracts) (owner : String) (repositoryId : Uuid) (s : WatchedCatalog)
    (e : CurrencyEvent) : Prop :=
  Unrequested k owner repositoryId (WatchedCatalog.refreshed k repositoryId s.catalog e).tables

/-- The owner watches the repository from its stored revision on, or from its next one, and has
requested nothing. -/
structure NewlyWatched (owner : String) (repositoryId : Uuid) (db : Database) : Prop where
  watch : ∃ v ∈ db.repositoryWatches, v.ownerRef = owner ∧ v.repositoryId = repositoryId ∧
    v.enabled = true ∧ (v.lastEvaluatedContentHash = none ∨
      v.lastEvaluatedContentHash = storedHash repositoryId db)
  requests : requestsOf owner repositoryId db = []
  links : ∀ l ∈ db.repositoryAnalysisLinks, ¬ (l.ownerRef = owner ∧ l.repositoryId = repositoryId)

/-- Nothing of the owner and the repository is outstanding. -/
def Quiet (owner : String) (repositoryId : Uuid) (db : Database) : Prop :=
  ∀ r ∈ requestsOf owner repositoryId db, r.status ≠ .queued ∧ r.status ≠ .pending

/-- The link names a result of the stored revision. -/
def LinkCurrent (k : Contracts) (owner : String) (repositoryId : Uuid) (db : Database) : Prop :=
  match evaluatedSource k repositoryId db with
  | .ok source => ∃ l ∈ db.repositoryAnalysisLinks, l.ownerRef = owner ∧
      l.repositoryId = repositoryId ∧ ∃ r ∈ db.repositoryAnalysisRequests, r.requestId = l.requestId ∧
        r.sourceRevision = k.revisionValue source.revision
  | .error _ => False

/-- The link is current in a quiescent state, once a revision was recorded. -/
def CurrentWhenQuiet (k : Contracts) (owner : String) (repositoryId : Uuid) (s : WatchedCatalog) :
    Prop :=
  s.changed = true → Quiet owner repositoryId s.tables → LinkCurrent k owner repositoryId s.tables

instance (k : Contracts) (owner : String) (repositoryId : Uuid) (s : WatchedCatalog) :
    (e : CurrencyEvent) → Decidable (Scheduled k owner repositoryId s e)
  | .record .. => inferInstanceAs (Decidable (_ = true))
  | .dispatch .. => isTrue trivial
  | .deliver _ _ fact status => inferInstanceAs (Decidable (InQueueOrder k fact s.tables ∧
      ((∃ r ∈ requestsOf owner repositoryId s.tables, fact.names k r = true) →
        status.subject = .analysisCompleted)))

instance (k : Contracts) (owner : String) (repositoryId : Uuid) (db : Database) :
    Decidable (Unrequested k owner repositoryId db) := by
  unfold Unrequested
  split
  · infer_instance
  · infer_instance

instance (k : Contracts) (owner : String) (repositoryId : Uuid) (s : WatchedCatalog)
    (e : CurrencyEvent) : Decidable (NoReturn k owner repositoryId s e) :=
  inferInstanceAs (Decidable (Unrequested _ _ _ _))

instance (k : Contracts) (owner : String) (repositoryId : Uuid) (db : Database) :
    Decidable (LinkCurrent k owner repositoryId db) := by
  unfold LinkCurrent
  split
  · infer_instance
  · infer_instance

instance (k : Contracts) (owner : String) (repositoryId : Uuid) (s : WatchedCatalog) :
    Decidable (CurrentWhenQuiet k owner repositoryId s) :=
  inferInstanceAs (Decidable (s.changed = true → (∀ r ∈ requestsOf owner repositoryId s.tables,
    r.status ≠ .queued ∧ r.status ≠ .pending) → LinkCurrent k owner repositoryId s.tables))

/-! ### The stored revision -/

section stored

variable {k : Contracts} {repositoryId : Uuid} {db db' : Database} {c c' : Catalog}

theorem storedHash_of_eq (h : db'.repositoryMetadata = db.repositoryMetadata) :
    storedHash repositoryId db' = storedHash repositoryId db := by
  rw [storedHash, h, ← storedHash]

/-- A projection that was fetched again. -/
def RepositoryMetadata.fetchedAgain (now : Time) (m : RepositoryMetadata) : RepositoryMetadata :=
  { m with fetchedAt := now }

theorem find?_fetchedAgain (now : Time) (p : RepositoryMetadata → Bool) (t : List RepositoryMetadata) :
    (updateWhere p (·.fetchedAgain now) t).find? (fun m => decide (m.repositoryId = repositoryId)) =
      (t.find? fun m => decide (m.repositoryId = repositoryId)).map fun m =>
        if p m then m.fetchedAgain now else m := by
  apply find?_updateWhere
  intro m
  rfl

theorem evaluatedSource_touched {now : Time} {p : RepositoryMetadata → Bool}
    (hmetadata : db'.repositoryMetadata =
      updateWhere p (·.fetchedAgain now) db.repositoryMetadata)
    (hrevisions : db'.repositoryMetadataRevisions = db.repositoryMetadataRevisions) :
    evaluatedSource k repositoryId db' = evaluatedSource k repositoryId db := by
  unfold evaluatedSource revisionsOf
  rw [hmetadata, hrevisions, find?_fetchedAgain]
  cases db.repositoryMetadata.find? fun m => decide (m.repositoryId = repositoryId) with
  | none => rfl
  | some m =>
    rw [Option.map_some]
    split
    · rfl
    · rfl

/-- **A refresh** leaves the stored revision alone, or stores another one. -/
theorem applyFreshSource_cases {revisionId : Uuid} {now : Time} {body : ProviderRepositoryBody}
    {etag : Option String} {readme : ReadmeRevision} {readmeEtag : Option String}
    {out : AppliedOutcome}
    (h : applyFreshSource k revisionId now repositoryId body etag readme readmeEtag c = .ok (out, c')) :
    evaluatedSource k repositoryId c'.tables = evaluatedSource k repositoryId c.tables ∨
      storedHash repositoryId c'.tables ≠ storedHash repositoryId c.tables := by
  obtain ⟨attributes, -, ⟨-, htouch⟩ | ⟨hnew, pushedAt, -, hmetadata⟩⟩ := applyFreshSource_spec h
  · left
    have htouched : c'.tables.repositoryMetadata =
        updateWhere (fun m => decide (m.repositoryId = repositoryId)) (·.fetchedAgain now)
          c.tables.repositoryMetadata := by
      rw [write_eq_ok.mp htouch]
      rfl
    refine evaluatedSource_touched htouched ?_
    rw [write_eq_ok.mp htouch]
    rfl
  · right
    have hstored : storedHash repositoryId c'.tables =
        some (sourceDigest k attributes readme) := by
      rw [storedHash, hmetadata]
      refine find?_upsertWhere_own (fun _ _ => ?_) ?_ (fun _ => ?_) ?_ _
      · rfl
      · rfl
      · rfl
      · rfl
    rw [hstored]
    exact fun hsame => hnew hsame.symm

end stored

/-! ### The invariant -/

/-- The last request is of the stored revision. -/
def LastOfStored (k : Contracts) (owner : String) (repositoryId : Uuid) (db : Database) : Prop :=
  ∃ source, evaluatedSource k repositoryId db = .ok source ∧
    ((requestsOf owner repositoryId db).map (·.sourceRevision)).getLast? =
      some (k.revisionValue source.revision)

/-- What histories without a returning revision keep: the watch stands at the stored revision and its
last request is of it, or nothing has changed yet. -/
structure TrackedWatch (k : Contracts) (owner : String) (repositoryId : Uuid) (s : WatchedCatalog) :
    Prop where
  links : LinksLast owner repositoryId s.tables
  unfailed : ∀ r ∈ requestsOf owner repositoryId s.tables, r.status ≠ .failed
  watch : ∃ v ∈ s.tables.repositoryWatches, v.ownerRef = owner ∧ v.repositoryId = repositoryId ∧
    v.enabled = true ∧
    ((v.lastEvaluatedContentHash = storedHash repositoryId s.tables ∧
        LastOfStored k owner repositoryId s.tables) ∨
      (s.changed = false ∧ (v.lastEvaluatedContentHash = none ∨
        v.lastEvaluatedContentHash = storedHash repositoryId s.tables)))

section invariant

variable {k : Contracts} {owner : String} {repositoryId : Uuid} {s : WatchedCatalog}

/-- In a quiescent state the last request is the last completed one, which the link names. -/
theorem TrackedWatch.current (h : TrackedWatch k owner repositoryId s) : CurrentWhenQuiet k owner repositoryId s := by
  intro hchanged hquiet
  obtain ⟨v, -, -, -, -, ⟨-, source, hsource, hlast⟩ | ⟨hsame, -⟩⟩ := h.watch
  · have hall : completedOf owner repositoryId s.tables = requestsOf owner repositoryId s.tables := by
      refine List.filter_eq_self.mpr fun r hr => ?_
      rw [RepositoryAnalysisRequest.isCompleted, decide_eq_true_iff]
      cases hstatus : r.status with
      | queued => exact absurd hstatus (hquiet r hr).1
      | pending => exact absurd hstatus (hquiet r hr).2
      | completed => rfl
      | failed => exact absurd hstatus (h.unfailed r hr)
    have hsome : completedOf owner repositoryId s.tables ≠ [] := by
      intro hnone
      rw [← hall, hnone] at hlast
      cases hlast
    obtain ⟨l, hl, howner, hrepository⟩ := h.links.present hsome
    obtain ⟨r, hr, hid⟩ := h.links.last l hl howner hrepository
    rw [hall] at hr
    rw [List.getLast?_map, hr, Option.map_some, Option.some.injEq] at hlast
    have hmem := List.mem_of_getLast? hr
    rw [LinkCurrent, hsource]
    exact ⟨l, hl, howner, hrepository, r, (List.mem_filter.mp hmem).1, hid, hlast⟩
  · rw [hchanged] at hsame
    cases hsame

theorem tracked_start {c : Catalog} (h : NewlyWatched owner repositoryId c.tables) :
    TrackedWatch k owner repositoryId ⟨c, false⟩ where
  links := by
    constructor
    · intro l hl howner hrepository
      exact absurd ⟨howner, hrepository⟩ (h.links l hl)
    · intro hsome
      refine absurd ?_ hsome
      show (requestsOf owner repositoryId c.tables).filter _ = []
      rw [h.requests]
      rfl
  unfailed := by
    intro r hr
    rw [show requestsOf owner repositoryId (WatchedCatalog.tables ⟨c, false⟩) = [] from h.requests] at hr
    cases hr
  watch := by
    obtain ⟨v, hv, howner, hrepository, henabled, hcheckpoint⟩ := h.watch
    exact ⟨v, hv, howner, hrepository, henabled, .inr ⟨rfl, hcheckpoint⟩⟩

/-- A step that leaves the watches and the stored revision alone. -/
theorem TrackedWatch.frame {c : Catalog} (h : TrackedWatch k owner repositoryId s)
    (hlinks : LinksLast owner repositoryId c.tables)
    (hunfailed : ∀ r ∈ requestsOf owner repositoryId c.tables, r.status ≠ .failed)
    (hrevisions : (requestsOf owner repositoryId c.tables).map (·.sourceRevision) =
      (requestsOf owner repositoryId s.tables).map (·.sourceRevision))
    (hwatches : c.tables.repositoryWatches = s.tables.repositoryWatches)
    (hmetadata : c.tables.repositoryMetadata = s.tables.repositoryMetadata)
    (hhistory : c.tables.repositoryMetadataRevisions = s.tables.repositoryMetadataRevisions) :
    TrackedWatch k owner repositoryId ⟨c, s.changed⟩ where
  links := hlinks
  unfailed := hunfailed
  watch := by
    obtain ⟨v, hv, howner, hrepository, henabled, hwhere⟩ := h.watch
    refine ⟨v, ?_, howner, hrepository, henabled, ?_⟩
    · show v ∈ c.tables.repositoryWatches
      rw [hwatches]
      exact hv
    · show (v.lastEvaluatedContentHash = storedHash repositoryId c.tables ∧ _) ∨
        (s.changed = false ∧ (_ ∨ v.lastEvaluatedContentHash = storedHash repositoryId c.tables))
      rw [storedHash_of_eq hmetadata]
      refine hwhere.imp_left fun ⟨hcheckpoint, source, hsource, hlast⟩ => ⟨hcheckpoint, source, ?_, ?_⟩
      · exact (evaluatedSource_of_eq hmetadata hhistory).trans hsource
      · exact (congrArg List.getLast? hrevisions).trans hlast

theorem TrackedWatch.dispatch (h : TrackedWatch k owner repositoryId s) (locked : Uuid → Bool) (messageId : Uuid)
    (now : Time) :
    TrackedWatch k owner repositoryId ⟨(dispatchUnlocked k locked messageId now).commit s.catalog, s.changed⟩ := by
  rcases Tx.commit_cases (dispatchUnlocked k locked messageId now) s.catalog with ⟨_, hok⟩ | hsame
  · have hframe := touches_dispatchUnlocked k locked messageId now
    rcases dispatchUnlocked_spec hok with hsame | ⟨r, hr, requested, envelope, hqueued, -, -, -, hrequests⟩
    · rw [hsame]
      exact h
    · have hqueue := requestsOf_updateWhere hrequests fun q =>
        show (q.dispatchedAs messageId).isFor owner repositoryId = q.isFor owner repositoryId from rfl
      refine h.frame (h.links.sent hr hqueued hrequests
        (hframe.rows_eq hok (t := .repositoryAnalysisLinks) (by decide))) ?_ ?_
        (hframe.rows_eq hok (t := .repositoryWatches) (by decide))
        (hframe.rows_eq hok (t := .repositoryMetadata) (by decide))
        (hframe.rows_eq hok (t := .repositoryMetadataRevisions) (by decide))
      · rw [hqueue]
        exact forall_updateWhere h.unfailed fun q _ _ hfailed => by cases hfailed
      · rw [hqueue]
        apply map_updateWhere
        intro q
        rfl
  · rw [hsame]
    exact h

theorem TrackedWatch.deliver (h : TrackedWatch k owner repositoryId s) (now : Time) (messageId : Uuid)
    {fact : TerminalFact} {status : TerminalStatus}
    (hguard : Completing k owner repositoryId s.tables fact status) :
    TrackedWatch k owner repositoryId
      ⟨(consumeTerminalFact k now messageId fact status).commit s.catalog, s.changed⟩ := by
  rcases Tx.commit_cases (consumeTerminalFact k now messageId fact status) s.catalog with
    ⟨_, hok⟩ | hsame
  · have hframe := touches_consumeTerminalFact k now messageId fact status
    rcases consumeTerminalFact_spec hok with ⟨hsame, -⟩ | heffect
    · rw [hsame]
      exact h
    · have hqueue := requestsOf_updateWhere heffect.requests fun r =>
        (settle_identity now status r).1 owner repositoryId
      refine h.frame (h.links.delivered heffect fun _ _ => hguard.1) ?_ ?_
        (hframe.rows_eq hok (t := .repositoryWatches) (by decide))
        (hframe.rows_eq hok (t := .repositoryMetadata) (by decide))
        (hframe.rows_eq hok (t := .repositoryMetadataRevisions) (by decide))
      · rw [hqueue]
        refine forall_updateWhere h.unfailed fun q hq hnames hfailed => ?_
        have hcompleted := hguard.2 ⟨q, hq, hnames⟩
        cases status with
        | completed ref => cases hfailed
        | failed code again => cases hcompleted
      · rw [hqueue]
        apply map_updateWhere
        intro r
        exact (settle_identity now status r).2.2.2
  · rw [hsame]
    exact h

/-- What an evaluation adds to the queue of an owner whose watch is stale: a request of the stored
revision, unless it exists. -/
theorem evaluated_stale {source : EvaluatedSource} {stale : List RepositoryWatch} {c : Catalog}
    {db' : Database} {new : List RepositoryAnalysisRequest}
    (h : Evaluated k repositoryId source stale c.tables db' new)
    (hstale : ∀ w ∈ stale, w ∈ c.tables.repositoryWatches) {v : RepositoryWatch} (hv : v ∈ stale)
    (hvowner : v.ownerRef = owner) (hnot : requestedFor k repositoryId source c.tables v = false) :
    ((requestsOf owner repositoryId db').map (·.sourceRevision)).getLast? =
      some (k.revisionValue source.revision) := by
  have hnew : ∃ r ∈ new, r.isFor owner repositoryId = true := by
    have hdone := h.complete v hv
    rw [requestedFor_append h.requests, hnot, Bool.false_or] at hdone
    obtain ⟨r, hr, hkey⟩ := List.any_eq_true.mp hdone
    simp only [Bool.and_eq_true, decide_eq_true_eq] at hkey
    obtain ⟨w, hw, hqueued, -⟩ := h.queued r hr
    have hsame : w = v := c.valid.keys.watches.eq_of_mem (hstale w hw) (hstale v hv)
      (hqueued.watch.symm.trans hkey.1)
    refine ⟨r, hr, isFor_iff.mpr ⟨?_, hqueued.repository⟩⟩
    rw [hqueued.owner, hsame, hvowner]
  obtain ⟨r, hr, hfor⟩ := hnew
  have hsome : new.filter (·.isFor owner repositoryId) ≠ [] :=
    List.ne_nil_of_mem (List.mem_filter.mpr ⟨hr, hfor⟩)
  rw [requestsOf, h.requests, List.filter_append, List.map_append, List.getLast?_append,
    List.getLast?_map]
  have hlast := List.getLast?_eq_some_getLast hsome
  rw [hlast, Option.map_some, Option.some_or]
  obtain ⟨w, -, hqueued, -⟩ := h.queued _ (List.mem_filter.mp (List.getLast_mem hsome)).1
  rw [hqueued.revision]

/-- An evaluation adds nothing to the queue of an owner whose watch is not stale. -/
theorem evaluated_settled {source : EvaluatedSource} {c : Catalog} {db' : Database}
    {new : List RepositoryAnalysisRequest}
    (h : Evaluated k repositoryId source (staleWatches repositoryId source.contentHash c.tables)
      c.tables db' new) {v : RepositoryWatch} (hv : v ∈ c.tables.repositoryWatches)
    (hvowner : v.ownerRef = owner) (hvrepository : v.repositoryId = repositoryId)
    (hsettled : v ∉ staleWatches repositoryId source.contentHash c.tables) :
    requestsOf owner repositoryId db' = requestsOf owner repositoryId c.tables ∧
      v ∈ db'.repositoryWatches := by
  constructor
  · rw [requestsOf, h.requests, List.filter_append, ← requestsOf]
    refine (congrArg _ (List.filter_eq_nil_iff.mpr fun r hr hfor => ?_)).trans (List.append_nil _)
    obtain ⟨w, hw, hqueued, -⟩ := h.queued r hr
    obtain ⟨howner, -⟩ := isFor_iff.mp hfor
    have hwatch := mem_staleWatches.mp hw
    have hsame : w = v := c.valid.keys.watches_identity.eq_of_mem hwatch.1 hv (by
      rw [hwatch.2.1, hvrepository, hvowner, ← howner, hqueued.owner])
    exact hsettled (hsame ▸ hw)
  · rw [h.watches]
    refine mem_updateWhere.mpr ⟨v, hv, if_neg fun hin => ?_⟩
    obtain ⟨w, hw, hid⟩ := List.mem_map.mp (List.contains_iff_mem.mp hin)
    have hsame : w = v := c.valid.keys.watches.eq_of_mem (mem_staleWatches.mp hw).1 hv hid
    exact hsettled (hsame ▸ hw)

/-- What a refresh leaves of the watches and the queue. -/
theorem refreshed_rows (c : Catalog) (e : CurrencyEvent) {t : Table}
    (ht : t ≠ .repositoryMetadata ∧ t ≠ .repositoryMetadataRevisions) :
    (WatchedCatalog.refreshed k repositoryId c e).tables.rows t = c.tables.rows t := by
  cases e with
  | record revisionId now body etag readme readmeEtag ids evaluated =>
    exact (touches_applyFreshSource k revisionId now repositoryId body etag readme readmeEtag).commit c
      t (by simp [ht.1, ht.2])
  | dispatch => rfl
  | deliver => rfl

theorem refreshed_cases (c : Catalog) (e : CurrencyEvent) :
    evaluatedSource k repositoryId (WatchedCatalog.refreshed k repositoryId c e).tables =
        evaluatedSource k repositoryId c.tables ∨
      storedHash repositoryId (WatchedCatalog.refreshed k repositoryId c e).tables ≠
        storedHash repositoryId c.tables := by
  cases e with
  | record revisionId now body etag readme readmeEtag ids evaluated =>
    rcases Tx.commit_cases (applyFreshSource k revisionId now repositoryId body etag readme readmeEtag)
      c with ⟨_, hok⟩ | hsame
    · exact applyFreshSource_cases hok
    · exact .inl (by rw [WatchedCatalog.refreshed, hsame])
  | dispatch => exact .inl rfl
  | deliver => exact .inl rfl

/-- Where the owner's watch stands after an evaluation: at the stored revision, with its last request
of it, or where it stood when nothing had changed. -/
theorem watch_evaluated {source : EvaluatedSource} {c c' : Catalog}
    {new : List RepositoryAnalysisRequest}
    (heval : Evaluated k repositoryId source (staleWatches repositoryId source.contentHash c.tables)
      c.tables c'.tables new)
    (hsource : evaluatedSource k repositoryId c.tables = .ok source)
    (hsource' : evaluatedSource k repositoryId c'.tables = .ok source)
    (hrefreshed : evaluatedSource k repositoryId c.tables = evaluatedSource k repositoryId s.tables ∨
      storedHash repositoryId c.tables ≠ storedHash repositoryId s.tables)
    (hrequests : c.tables.repositoryAnalysisRequests = s.tables.repositoryAnalysisRequests)
    (hnew : Unrequested k owner repositoryId c.tables) {v : RepositoryWatch}
    (hv : v ∈ c.tables.repositoryWatches) (howner : v.ownerRef = owner)
    (hrepository : v.repositoryId = repositoryId) (henabled : v.enabled = true)
    (hwhere : (v.lastEvaluatedContentHash = storedHash repositoryId s.tables ∧
        LastOfStored k owner repositoryId s.tables) ∨
      (s.changed = false ∧ (v.lastEvaluatedContentHash = none ∨
        v.lastEvaluatedContentHash = storedHash repositoryId s.tables))) :
    ∃ v' ∈ c'.tables.repositoryWatches, v'.ownerRef = owner ∧ v'.repositoryId = repositoryId ∧
      v'.enabled = true ∧
      ((v'.lastEvaluatedContentHash = storedHash repositoryId c'.tables ∧
          LastOfStored k owner repositoryId c'.tables) ∨
        ((s.changed || decide (storedHash repositoryId c.tables ≠ storedHash repositoryId s.tables)) =
          false ∧ (v'.lastEvaluatedContentHash = none ∨
            v'.lastEvaluatedContentHash = storedHash repositoryId c'.tables))) := by
  have hhash := storedHash_of_evaluated hsource
  have hhash' := storedHash_of_evaluated hsource'
  by_cases hstale : v ∈ staleWatches repositoryId source.contentHash c.tables
  · refine ⟨v.evaluatedAt source.contentHash, ?_, howner, hrepository, henabled, .inl ⟨?_, source,
      hsource', ?_⟩⟩
    · rw [heval.watches]
      refine mem_updateWhere.mpr ⟨v, hv, if_pos ?_⟩
      exact List.contains_iff_mem.mpr (List.mem_map_of_mem hstale)
    · rw [hhash']
      rfl
    · rw [Unrequested, hsource] at hnew
      exact evaluated_stale heval (fun w hw => (mem_staleWatches.mp hw).1) hstale howner
        (hnew v hstale howner)
  · have hcheckpoint : v.lastEvaluatedContentHash = some source.contentHash := by
      by_contra hother
      exact hstale (mem_staleWatches.mpr ⟨hv, hrepository, henabled, hother⟩)
    obtain ⟨hqueue, hkept⟩ := evaluated_settled heval hv howner hrepository hstale
    refine ⟨v, hkept, howner, hrepository, henabled, ?_⟩
    rw [hhash', ← hcheckpoint]
    rcases hwhere with ⟨hstored, source₀, hsource₀, hlast⟩ | ⟨hsame, hstored⟩
    · -- The checkpoint is the old and the new stored revision, so the refresh changed nothing.
      have hunchanged := hrefreshed.resolve_right (by rw [hhash, ← hcheckpoint, hstored]; simp)
      refine .inl ⟨rfl, source, hsource', ?_⟩
      rw [hqueue, requestsOf, hrequests, ← requestsOf, hlast]
      rw [hsource, hsource₀] at hunchanged
      cases hunchanged
      rfl
    · refine .inr ⟨?_, .inr rfl⟩
      rcases hstored with hnone | hstored
      · rw [hcheckpoint] at hnone
        cases hnone
      · rw [hsame, hhash, ← hcheckpoint, hstored]
        simp

/-- **A refresh that left requests, watches and links alone, evaluated.** -/
theorem TrackedWatch.evaluate (h : TrackedWatch k owner repositoryId s) {c c' : Catalog} {ids : ℕ → Uuid}
    {now : Time} {out : WatchEvaluation}
    (hrequests : c.tables.repositoryAnalysisRequests = s.tables.repositoryAnalysisRequests)
    (hwatches : c.tables.repositoryWatches = s.tables.repositoryWatches)
    (hlinks : c.tables.repositoryAnalysisLinks = s.tables.repositoryAnalysisLinks)
    (hrefreshed : evaluatedSource k repositoryId c.tables = evaluatedSource k repositoryId s.tables ∨
      storedHash repositoryId c.tables ≠ storedHash repositoryId s.tables)
    (hnew : Unrequested k owner repositoryId c.tables)
    (hok : evaluateMetadataWatches k ids now repositoryId c = .ok (out, c')) :
    TrackedWatch k owner repositoryId ⟨c', s.changed ||
      decide (storedHash repositoryId c.tables ≠ storedHash repositoryId s.tables)⟩ := by
  obtain ⟨source, new, hsource, hsource', hlinks', heval⟩ := evaluate_spec hok
  have hqueued : c'.tables.repositoryAnalysisRequests = s.tables.repositoryAnalysisRequests ++ new := by
    rw [heval.requests, hrequests]
  have hunsent : ∀ r ∈ new, r.status = .queued ∧ r.outboxMessageId = none := by
    intro r hr
    obtain ⟨w, -, hfor, -⟩ := heval.queued r hr
    exact ⟨hfor.status, hfor.unsent⟩
  refine ⟨h.links.queued hunsent hqueued (hlinks'.trans hlinks), ?_, ?_⟩
  · intro r hr hfailed
    obtain ⟨hr, hfor⟩ := List.mem_filter.mp hr
    rcases List.mem_append.mp (hqueued ▸ hr) with hold | hnewly
    · exact h.unfailed r (List.mem_filter.mpr ⟨hold, hfor⟩) hfailed
    · rw [(hunsent r hnewly).1] at hfailed
      cases hfailed
  · obtain ⟨v, hv, howner, hrepository, henabled, hwhere⟩ := h.watch
    rw [← hwatches] at hv
    exact watch_evaluated heval hsource hsource' hrefreshed hrequests hnew hv howner hrepository henabled
      hwhere

theorem TrackedWatch.record (h : TrackedWatch k owner repositoryId s) {revisionId : Uuid} {now : Time}
    {body : ProviderRepositoryBody} {etag : Option String} {readme : ReadmeRevision}
    {readmeEtag : Option String} {ids : ℕ → Uuid} {evaluated : Time}
    (hscheduled : Scheduled k owner repositoryId s
      (.record revisionId now body etag readme readmeEtag ids evaluated))
    (hnew : NoReturn k owner repositoryId s
      (.record revisionId now body etag readme readmeEtag ids evaluated)) :
    TrackedWatch k owner repositoryId (s.step k repositoryId
      (.record revisionId now body etag readme readmeEtag ids evaluated)) := by
  obtain ⟨out, hok⟩ := Tx.ok_of_succeeds hscheduled
  exact h.evaluate (refreshed_rows s.catalog _ (t := .repositoryAnalysisRequests) (by decide))
    (refreshed_rows s.catalog _ (t := .repositoryWatches) (by decide))
    (refreshed_rows s.catalog _ (t := .repositoryAnalysisLinks) (by decide))
    (refreshed_cases s.catalog _) hnew hok

theorem TrackedWatch.step (h : TrackedWatch k owner repositoryId s) (e : CurrencyEvent)
    (hguard : Scheduled k owner repositoryId s e ∧ NoReturn k owner repositoryId s e) :
    TrackedWatch k owner repositoryId (s.step k repositoryId e) := by
  cases e with
  | record => exact h.record hguard.1 hguard.2
  | dispatch locked messageId now => exact h.dispatch locked messageId now
  | deliver now messageId fact status => exact h.deliver now messageId hguard.1

end invariant

/-- **The link is current in every quiescent state** of a history in which no recorded revision had
been requested before. -/
theorem link_current {k : Contracts} {owner : String} {repositoryId : Uuid} {c : Catalog}
    (hstart : NewlyWatched owner repositoryId c.tables) {history : List CurrencyEvent}
    (hscheduled : Runs.Guarded (WatchedCatalog.step k repositoryId) (Scheduled k owner repositoryId)
      ⟨c, false⟩ history)
    (hnew : Runs.Guarded (WatchedCatalog.step k repositoryId) (NoReturn k owner repositoryId)
      ⟨c, false⟩ history) :
    Runs.Throughout (WatchedCatalog.step k repositoryId) (CurrentWhenQuiet k owner repositoryId)
      ⟨c, false⟩ history :=
  (Runs.throughout_of_guarded (fun _ e h hguard => h.step e hguard) (tracked_start hstart)
    (hscheduled.and hnew)).mono fun _ h => h.current

/-- A refresh of repository 5 with its evaluation, the `n`-th of a history. -/
def recordedReadme (n : ℕ) (readme : ReadmeRevision) : CurrencyEvent :=
  .record (BitVec.ofNat 128 (40 + n)) n watchedBody none readme none
    (fun i => BitVec.ofNat 128 (60 + 2 * n + i)) n

/-- The request of the `n`-th evaluation goes out and completes. -/
def completedReadme (n : ℕ) (readme : ReadmeRevision) : List CurrencyEvent :=
  [.dispatch (fun _ => false) (BitVec.ofNat 128 (80 + n)) 9000000,
    .deliver 9000000 (BitVec.ofNat 128 (90 + n)) (factOf (BitVec.ofNat 128 (60 + 2 * n)) readme)
      (.completed "result")]

theorem watchedCatalog_newlyWatched : NewlyWatched watchOwner 5 watchedCatalog.tables where
  watch := by decide +kernel
  requests := by decide +kernel
  links := by decide +kernel

/-- A README appears, and its analysis completes. -/
def appearing : List CurrencyEvent := recordedReadme 1 emptyReadme :: completedReadme 1 emptyReadme

/-- It goes, and appears again. -/
def returning : List CurrencyEvent :=
  appearing ++ recordedReadme 2 bareReadme :: completedReadme 2 bareReadme ++
    [recordedReadme 3 emptyReadme]

theorem link_current_appearing :
    Runs.Throughout (WatchedCatalog.step revisionContracts 5)
        (CurrentWhenQuiet revisionContracts watchOwner 5) ⟨watchedCatalog, false⟩ appearing ∧
      (Runs.runFrom (WatchedCatalog.step revisionContracts 5) ⟨watchedCatalog, false⟩
        appearing).changed = true := by
  obtain ⟨hscheduled, hnew, hchanged⟩ :
      Runs.Guarded (WatchedCatalog.step revisionContracts 5) (Scheduled revisionContracts watchOwner 5)
        ⟨watchedCatalog, false⟩ appearing ∧
      Runs.Guarded (WatchedCatalog.step revisionContracts 5) (NoReturn revisionContracts watchOwner 5)
        ⟨watchedCatalog, false⟩ appearing ∧
      (Runs.runFrom (WatchedCatalog.step revisionContracts 5) ⟨watchedCatalog, false⟩
        appearing).changed = true := by
    decide +kernel
  exact ⟨link_current watchedCatalog_newlyWatched hscheduled hnew, hchanged⟩

/-- **A revision that comes back**: nothing is queued the second time the README appears, and the link
stays at the revision without it. -/
theorem returned_revision_kept_link : ¬ ∀ (k : Contracts) (owner : String) (repositoryId : Uuid)
    (c : Catalog) (history : List CurrencyEvent), NewlyWatched owner repositoryId c.tables →
    Runs.Guarded (WatchedCatalog.step k repositoryId) (Scheduled k owner repositoryId) ⟨c, false⟩
      history →
    Runs.Throughout (WatchedCatalog.step k repositoryId) (CurrentWhenQuiet k owner repositoryId)
      ⟨c, false⟩ history := by
  intro h
  have hscheduled : Runs.Guarded (WatchedCatalog.step revisionContracts 5)
      (Scheduled revisionContracts watchOwner 5) ⟨watchedCatalog, false⟩ returning := by
    decide +kernel
  have hbehind : ¬ CurrentWhenQuiet revisionContracts watchOwner 5
      (Runs.runFrom (WatchedCatalog.step revisionContracts 5) ⟨watchedCatalog, false⟩ returning) := by
    decide +kernel
  have hall := h revisionContracts watchOwner 5 watchedCatalog returning watchedCatalog_newlyWatched
    hscheduled
  refine hbehind ?_
  generalize returning = history at hall ⊢
  exact Runs.Throughout.last hall

end GithubCatalog
