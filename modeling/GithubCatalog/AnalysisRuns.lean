import GithubCatalog.Watches

/-!
# Evaluations, dispatches and terminal facts side by side (`watches.rs`)

An evaluation reads the stored revision first and locks the watches afterwards, so other writers may
stand between the two; a dispatcher passes over the requests another one has locked.  Everything else
is one transaction.

* `settleEvaluation` - an evaluation from its lock on, with the revision it read;
* `dispatchUnlocked` - a dispatch that skips locked requests;
* `WatchWorld` - a catalog with the evaluations in flight, and its events;
* one closed form for each transaction: `settleEvaluation_spec`, `dispatchUnlocked_spec`,
  `consumeTerminalFact_spec`.
-/

namespace GithubCatalog

open Relational Transact

/-! ### The world -/

/-- `evaluate_metadata_watches` from its lock on. -/
def settleEvaluation (k : Contracts) (ids : ℕ → Uuid) (now : Time) (repositoryId : Uuid)
    (source : EvaluatedSource) : Tx WatchEvaluation := do
  let watches ← select (staleWatches repositoryId source.contentHash)
  if watches.isEmpty then pure .unchanged
  else do
    write .repositoryAnalysisDispatchCursor fun db =>
      some (db.repositoryAnalysisDispatchCursor.getD now)
    let next ← fetchOne (·.repositoryAnalysisDispatchCursor)
    let (last, count) ← evaluateWatches k ids now repositoryId source watches.zipIdx next
    onlyIf (decide (0 < count)) (write .repositoryAnalysisDispatchCursor fun _ => some last)
    pure (.queued count)

/-- An evaluation whose two parts follow each other. -/
theorem evaluateMetadataWatches_eq (k : Contracts) (ids : ℕ → Uuid) (now : Time)
    (repositoryId : Uuid) : evaluateMetadataWatches k ids now repositoryId =
      (attempt (evaluatedSource k repositoryId) >>= settleEvaluation k ids now repositoryId) :=
  rfl

/-- The due request a dispatcher takes: the earliest that is not locked. -/
def dueRequest (locked : Uuid → Bool) (now : Time) (db : Database) :
    Option RepositoryAnalysisRequest :=
  firstBy RepositoryAnalysisRequest.earlier (db.repositoryAnalysisRequests.filter fun r =>
    decide (r.status = .queued) && decide (r.notBefore ≤ now) && !locked r.requestId)

/-- A request that went out under a message. -/
def RepositoryAnalysisRequest.dispatchedAs (messageId : Uuid) (r : RepositoryAnalysisRequest) :
    RepositoryAnalysisRequest :=
  { r with status := .pending, outboxMessageId := some messageId }

/-- `dispatch_due_repository_analysis` next to other dispatchers (`for update skip locked`). -/
def dispatchUnlocked (k : Contracts) (locked : Uuid → Bool) (messageId : Uuid) (now : Time) :
    Tx AnalysisDispatch := do
  let due ← select (dueRequest locked now)
  match due with
  | none => pure .notDue
  | some r => do
    let requested ← attempt fun _ => (k.requestOf r.requestPayload).elim (.error .serialization) .ok
    let envelope ← attempt fun _ =>
      (k.requestedEnvelope messageId now requested).elim (.error .invalidStoredIdentity) .ok
    write .outboxEvents fun db =>
      db.outboxEvents ++ [newOutboxEvent messageId .analysisRequested envelope now]
    write .repositoryAnalysisRequests fun db =>
      updateWhere (fun q => decide (q.requestId = r.requestId)) (·.dispatchedAs messageId)
        db.repositoryAnalysisRequests
    pure (.pending r.requestId)

/-- A dispatcher that meets no lock. -/
theorem dispatchUnlocked_none (k : Contracts) (messageId : Uuid) (now : Time) :
    dispatchUnlocked k (fun _ => false) messageId now =
      dispatchDueRepositoryAnalysis k messageId now := by
  have hdue : dueRequest (fun _ => false) now = fun db =>
      firstBy RepositoryAnalysisRequest.earlier (db.repositoryAnalysisRequests.filter fun r =>
        decide (r.status = .queued) && decide (r.notBefore ≤ now)) := by
    funext db
    simp only [dueRequest, Bool.not_false, Bool.and_true]
  rw [dispatchUnlocked, hdue]
  rfl

inductive WatchEvent where
  | register (fresh : Uuid) (owner : String) (repositoryId : Uuid) (baseline : WatchBaseline)
  | enable (watchId : Uuid) (enabled : Bool)
  | refresh (revisionId : Uuid) (now : Time) (repositoryId : Uuid) (body : ProviderRepositoryBody)
      (etag : Option String) (readme : ReadmeRevision) (readmeEtag : Option String)
  /-- An evaluation reads the stored revision. -/
  | read (repositoryId : Uuid)
  /-- The evaluation that read in place `n` goes on. -/
  | settle (n : ℕ) (ids : ℕ → Uuid) (now : Time)
  | dispatch (locked : Uuid → Bool) (messageId : Uuid) (now : Time)
  | deliver (now : Time) (messageId : Uuid) (fact : TerminalFact) (status : TerminalStatus)

/-- A catalog with the evaluations in flight: the repository and the revision each has read. -/
structure WatchWorld where
  catalog : Catalog
  reading : List (Uuid × EvaluatedSource)

namespace WatchWorld

def tables (w : WatchWorld) : Database := w.catalog.tables

def step (k : Contracts) (w : WatchWorld) : WatchEvent → WatchWorld
  | .register fresh owner repositoryId baseline =>
    { w with
      catalog := (registerRepositoryAnalysisWatch fresh owner repositoryId baseline).commit w.catalog }
  | .enable watchId enabled =>
    { w with catalog := (setRepositoryAnalysisWatchEnabled watchId enabled).commit w.catalog }
  | .refresh revisionId now repositoryId body etag readme readmeEtag =>
    { w with
      catalog := (applyFreshSource k revisionId now repositoryId body etag readme readmeEtag).commit
        w.catalog }
  | .read repositoryId =>
    match evaluatedSource k repositoryId w.tables with
    | .ok source => { w with reading := w.reading ++ [(repositoryId, source)] }
    | .error _ => w
  | .settle n ids now =>
    match w.reading[n]? with
    | some (repositoryId, source) =>
      ⟨(settleEvaluation k ids now repositoryId source).commit w.catalog, w.reading.eraseIdx n⟩
    | none => w
  | .dispatch locked messageId now =>
    { w with catalog := (dispatchUnlocked k locked messageId now).commit w.catalog }
  | .deliver now messageId fact status =>
    { w with catalog := (consumeTerminalFact k now messageId fact status).commit w.catalog }

end WatchWorld

/-! ### The evaluated source -/

/-- What an evaluation reads: the projection, the newest raw revision of its digest, the attributes of
that payload and the README evidence of the projection. -/
structure ReadFrom (k : Contracts) (repositoryId : Uuid) (db : Database) (source : EvaluatedSource) :
    Prop where
  metadata : ∃ m, (db.repositoryMetadata.find? fun m => decide (m.repositoryId = repositoryId)) =
    some m ∧ m.contentHash = source.contentHash ∧
      k.readmeOf m.readmeRevision = some source.revision.readme
  payload : ∃ r body, ((revisionsOf repositoryId db).find? fun r =>
      decide (r.contentHash = source.contentHash)) = some r ∧ storedBody r.payload = some body ∧
    analysisAttributes k body = .ok source.attributes ∧
    (source.providerId : ℤ) = body.providerRepositoryId
  digest : source.revision.attributesDigestHex = k.sha256Hex (k.attributesBytes source.attributes)

/-- **The source of an evaluation.** -/
theorem evaluatedSource_spec {k : Contracts} {repositoryId : Uuid} {db : Database}
    {source : EvaluatedSource} (h : evaluatedSource k repositoryId db = .ok source) :
    ReadFrom k repositoryId db source := by
  obtain ⟨metadata, hmetadata, h⟩ := except_bind_eq_ok.mp h
  obtain ⟨stored, hstored, h⟩ := except_bind_eq_ok.mp h
  obtain ⟨body, hbody, h⟩ := except_bind_eq_ok.mp h
  obtain ⟨attributes, hattributes, h⟩ := except_bind_eq_ok.mp h
  dsimp only at h
  split at h
  · next hnonneg =>
    obtain ⟨providerId, hprovider, h⟩ := except_bind_eq_ok.mp h
    obtain ⟨readme, hreadme, h⟩ := except_bind_eq_ok.mp h
    cases h
    cases hprovider
    exact ⟨⟨metadata, elim_eq_ok hmetadata, rfl, elim_eq_ok hreadme⟩,
      ⟨stored, body, elim_eq_ok hstored, elim_eq_ok hbody, hattributes, Int.toNat_of_nonneg hnonneg⟩,
      rfl⟩
  · obtain ⟨providerId, hfail, -⟩ := except_bind_eq_ok.mp h
    cases hfail

theorem storedHash_of_evaluated {k : Contracts} {repositoryId : Uuid} {db : Database}
    {source : EvaluatedSource}
    (h : evaluatedSource k repositoryId db = .ok source) :
    storedHash repositoryId db = some source.contentHash := by
  have hsource := evaluatedSource_spec h
  obtain ⟨m, hfind, hhash⟩ := hsource.metadata
  rw [storedHash, hfind, ← hhash.1]
  rfl

/-- The stored revision is a matter of two tables. -/
theorem evaluatedSource_of_eq {k : Contracts} {repositoryId : Uuid} {db db' : Database}
    (hmetadata : db'.repositoryMetadata = db.repositoryMetadata)
    (hrevisions : db'.repositoryMetadataRevisions = db.repositoryMetadataRevisions) :
    evaluatedSource k repositoryId db' = evaluatedSource k repositoryId db := by
  unfold evaluatedSource revisionsOf
  rw [hmetadata, hrevisions]

/-! ### Evaluations -/

/-- A watch whose checkpoint was moved. -/
def RepositoryWatch.evaluatedAt (contentHash : String) (w : RepositoryWatch) : RepositoryWatch :=
  { w with lastEvaluatedContentHash := some contentHash }

/-- A request an evaluation queued for a watch. -/
structure QueuedFor (k : Contracts) (repositoryId : Uuid) (source : EvaluatedSource)
    (w : RepositoryWatch) (r : RepositoryAnalysisRequest) : Prop where
  status : r.status = .queued
  unsent : r.outboxMessageId = none
  watch : r.watchId = w.watchId
  owner : r.ownerRef = w.ownerRef
  repository : r.repositoryId = repositoryId
  revision : r.sourceRevision = k.revisionValue source.revision
  digest : r.idempotencyDigestHex = idempotencyDigest k w.ownerRef repositoryId source

/-- The request of a watch and a revision exists. -/
def requestedFor (k : Contracts) (repositoryId : Uuid) (source : EvaluatedSource) (db : Database)
    (w : RepositoryWatch) : Bool :=
  db.repositoryAnalysisRequests.any fun r => decide (r.watchId = w.watchId) &&
    decide (r.idempotencyDigestHex = idempotencyDigest k w.ownerRef repositoryId source)

/-- What an evaluation of some watches adds and moves. -/
structure Evaluated (k : Contracts) (repositoryId : Uuid) (source : EvaluatedSource)
    (stale : List RepositoryWatch) (db db' : Database) (new : List RepositoryAnalysisRequest) :
    Prop where
  requests : db'.repositoryAnalysisRequests = db.repositoryAnalysisRequests ++ new
  watches : db'.repositoryWatches =
    updateWhere (fun w => (stale.map (·.watchId)).contains w.watchId)
      (·.evaluatedAt source.contentHash) db.repositoryWatches
  queued : ∀ r ∈ new, ∃ w ∈ stale, QueuedFor k repositoryId source w r ∧
    requestedFor k repositoryId source db w = false
  complete : ∀ w ∈ stale, requestedFor k repositoryId source db' w = true
  order : (new.map (·.watchId)).Sublist (stale.map (·.watchId))

section evaluation

variable {k : Contracts} {ids : ℕ → Uuid} {now : Time} {repositoryId : Uuid} {source : EvaluatedSource}
  {c c' : Catalog}

theorem requestedFor_append {db db' : Database} {new : List RepositoryAnalysisRequest}
    (h : db'.repositoryAnalysisRequests = db.repositoryAnalysisRequests ++ new) (w : RepositoryWatch) :
    requestedFor k repositoryId source db' w = (requestedFor k repositoryId source db w ||
      new.any fun r => decide (r.watchId = w.watchId) &&
        decide (r.idempotencyDigestHex = idempotencyDigest k w.ownerRef repositoryId source)) := by
  rw [requestedFor, h, List.any_append, ← requestedFor]

/-- The evaluation of one watch. -/
theorem evaluateWatch_spec {requestId : Uuid} {w : RepositoryWatch} {next : Time} {out : Time × Bool}
    (h : evaluateWatch k requestId now repositoryId source w next c = .ok (out, c')) :
    ∃ new, Evaluated k repositoryId source [w] c.tables c'.tables new := by
  simp only [evaluateWatch, Tx.bind_eq_ok, require_eq_ok, select_eq_ok, write_eq_ok,
    Tx.pure_eq_ok] at h
  obtain ⟨-, _, ⟨-, rfl⟩, known, _, ⟨hknown, rfl⟩, -, c₁, h₁, -, c₂, h₂, -, rfl⟩ := h
  have hwatches : c₂.tables.repositoryWatches = updateWhere (fun v => ([w].map (·.watchId)).contains
      v.watchId) (·.evaluatedAt source.contentHash) c.tables.repositoryWatches := by
    rw [h₂, h₁]
    show updateWhere _ _ c.tables.repositoryWatches = _
    congr 1
    funext v
    simp
  have hrequests : c₂.tables.repositoryAnalysisRequests = c₁.tables.repositoryAnalysisRequests := by
    rw [h₂]
    rfl
  cases hseen : requestedFor k repositoryId source c.tables w with
  | true =>
    have hsame : c₂.tables.repositoryAnalysisRequests = c.tables.repositoryAnalysisRequests ++ [] := by
      rw [hrequests, h₁, List.append_nil]
      exact if_pos hseen
    refine ⟨[], hsame, hwatches, by simp, fun v hv => ?_, by simp⟩
    rw [List.mem_singleton.mp hv, requestedFor_append hsame, hseen]
    rfl
  | false =>
    have hnew : c₂.tables.repositoryAnalysisRequests = c.tables.repositoryAnalysisRequests ++
        [queuedRequest k w (analysisRequest k requestId w.ownerRef repositoryId source)
          (max next now)] := by
      rw [hrequests, h₁]
      exact if_neg (Bool.eq_false_iff.mp hseen)
    refine ⟨_, hnew, hwatches, fun r hr => ?_, fun v hv => ?_, List.Sublist.refl _⟩
    · rw [List.mem_singleton.mp hr]
      exact ⟨w, List.mem_cons_self, ⟨rfl, rfl, rfl, rfl, rfl, rfl, rfl⟩, hseen⟩
    · rw [List.mem_singleton.mp hv, requestedFor_append hnew, hseen]
      simp [queuedRequest, analysisRequest]

theorem requestedFor_mono {db db' : Database} {new : List RepositoryAnalysisRequest}
    (h : db'.repositoryAnalysisRequests = db.repositoryAnalysisRequests ++ new) {w : RepositoryWatch}
    (hw : requestedFor k repositoryId source db w = true) :
    requestedFor k repositoryId source db' w = true := by
  rw [requestedFor_append h, hw]
  rfl

/-- One watch, and then the others. -/
theorem Evaluated.cons {w : RepositoryWatch} {rest : List RepositoryWatch} {db mid db' : Database}
    {first others : List RepositoryAnalysisRequest}
    (h : Evaluated k repositoryId source [w] db mid first)
    (h' : Evaluated k repositoryId source rest mid db' others) :
    Evaluated k repositoryId source (w :: rest) db db' (first ++ others) where
  requests := by rw [h'.requests, h.requests, List.append_assoc]
  watches := by
    rw [h'.watches, h.watches, updateWhere, updateWhere, updateWhere, List.map_map]
    apply List.map_congr_left
    intro v _
    by_cases hfirst : v.watchId = w.watchId
    · simp [hfirst, RepositoryWatch.evaluatedAt]
    · simp [hfirst]
  queued := by
    intro r hr
    rcases List.mem_append.mp hr with hfirst | hother
    · obtain ⟨v, hv, hqueued⟩ := h.queued r hfirst
      exact ⟨v, List.mem_cons.mpr (.inl (List.mem_singleton.mp hv)), hqueued⟩
    · obtain ⟨v, hv, hqueued, hnot⟩ := h'.queued r hother
      rw [requestedFor_append h.requests, Bool.or_eq_false_iff] at hnot
      exact ⟨v, List.mem_cons_of_mem _ hv, hqueued, hnot.1⟩
  complete := by
    intro v hv
    rcases List.mem_cons.mp hv with rfl | hrest
    · exact requestedFor_mono h'.requests (h.complete v List.mem_cons_self)
    · exact h'.complete v hrest
  order := by
    rw [List.map_append, List.map_cons]
    exact h.order.append h'.order

/-- The loop over the stale watches. -/
theorem evaluateWatches_spec {rest : List (RepositoryWatch × ℕ)} {next : Time} {out : Time × ℕ}
    (h : evaluateWatches k ids now repositoryId source rest next c = .ok (out, c')) :
    ∃ new, Evaluated k repositoryId source (rest.map (·.1)) c.tables c'.tables new := by
  induction rest generalizing next c out with
  | nil =>
    obtain ⟨-, rfl⟩ := Tx.pure_eq_ok.mp h
    refine ⟨[], (List.append_nil _).symm, ?_, by simp, by simp, by simp⟩
    simp [updateWhere]
  | cons p rest ih =>
    simp only [evaluateWatches, Tx.bind_eq_ok, Tx.pure_eq_ok] at h
    obtain ⟨first, c₁, h₁, others, c₂, h₂, -, rfl⟩ := h
    obtain ⟨new₁, hfirst⟩ := evaluateWatch_spec h₁
    obtain ⟨new₂, hothers⟩ := ih h₂
    exact ⟨new₁ ++ new₂, hfirst.cons hothers⟩

/-- The tables an evaluation leaves alone. -/
theorem touches_settleEvaluation (k : Contracts) (ids : ℕ → Uuid) (now : Time) (r : Uuid)
    (source : EvaluatedSource) :
    Touches [.repositoryAnalysisRequests, .repositoryWatches, .repositoryAnalysisDispatchCursor]
      (settleEvaluation k ids now r source) := by
  refine (Touches.select _).bind fun watches => ?_
  split
  · exact Touches.pure _
  · refine (Touches.write (by decide) _).bind fun _ => (Touches.fetchOne _).bind fun next => ?_
    exact ((touches_evaluateWatches _ _ _ _ _ _ _).mono (by decide)).bind fun _ =>
      (Touches.onlyIf (Touches.write (by decide) _)).bind fun _ => Touches.pure _

/-- **An evaluation from its lock on.** -/
theorem settleEvaluation_spec {out : WatchEvaluation}
    (h : settleEvaluation k ids now repositoryId source c = .ok (out, c')) :
    ∃ new, Evaluated k repositoryId source (staleWatches repositoryId source.contentHash c.tables)
      c.tables c'.tables new := by
  obtain ⟨watches, _, hread, h⟩ := Tx.bind_eq_ok.mp h
  obtain ⟨rfl, rfl⟩ := select_eq_ok.mp hread
  split at h
  · next hnone =>
    obtain ⟨-, rfl⟩ := Tx.pure_eq_ok.mp h
    rw [List.isEmpty_iff.mp hnone]
    refine ⟨[], (List.append_nil _).symm, ?_, by simp, by simp, by simp⟩
    simp [updateWhere]
  · simp only [Tx.bind_eq_ok, fetchOne_eq_ok, Tx.pure_eq_ok] at h
    obtain ⟨⟨⟩, c₁, h₁, next, _, ⟨-, rfl⟩, out, c₂, h₂, ⟨⟩, c₃, h₃, -, rfl⟩ := h
    obtain ⟨new, hloop⟩ := evaluateWatches_spec h₂
    have hcursor : Touches [.repositoryAnalysisDispatchCursor] (onlyIf (decide (0 < out.2))
        (write .repositoryAnalysisDispatchCursor fun _ => some out.1)) :=
      Touches.onlyIf (Touches.write (by decide) _)
    have hrequests : c₃.tables.repositoryAnalysisRequests = c₂.tables.repositoryAnalysisRequests :=
      hcursor.rows_eq h₃ (t := .repositoryAnalysisRequests) (by decide)
    have hwatches : c₃.tables.repositoryWatches = c₂.tables.repositoryWatches :=
      hcursor.rows_eq h₃ (t := .repositoryWatches) (by decide)
    have hbefore := write_eq_ok.mp h₁
    rw [List.zipIdx_map_fst] at hloop
    refine ⟨new, ?_, ?_, ?_, ?_, hloop.order⟩
    · rw [hrequests, hloop.requests, hbefore]
      rfl
    · rw [hwatches, hloop.watches, hbefore]
      rfl
    · intro r hr
      obtain ⟨w, hw, hqueued, hnot⟩ := hloop.queued r hr
      rw [hbefore] at hnot
      exact ⟨w, hw, hqueued, hnot⟩
    · intro w hw
      rw [requestedFor, hrequests, ← requestedFor]
      exact hloop.complete w hw

theorem mem_staleWatches {db : Database} {contentHash : String} {w : RepositoryWatch} :
    w ∈ staleWatches repositoryId contentHash db ↔ w ∈ db.repositoryWatches ∧
      w.repositoryId = repositoryId ∧ w.enabled = true ∧
        w.lastEvaluatedContentHash ≠ some contentHash := by
  rw [staleWatches, List.mem_insertionSort, List.mem_filter]
  simp [and_assoc]

/-- **A whole evaluation**: it queues for the stale watches, and the stored revision stays. -/
theorem evaluate_spec {out : WatchEvaluation}
    (h : evaluateMetadataWatches k ids now repositoryId c = .ok (out, c')) :
    ∃ source new, evaluatedSource k repositoryId c.tables = .ok source ∧
      evaluatedSource k repositoryId c'.tables = .ok source ∧
      c'.tables.repositoryAnalysisLinks = c.tables.repositoryAnalysisLinks ∧
      Evaluated k repositoryId source (staleWatches repositoryId source.contentHash c.tables) c.tables
        c'.tables new := by
  rw [evaluateMetadataWatches_eq] at h
  obtain ⟨source, _, hread, h⟩ := Tx.bind_eq_ok.mp h
  obtain ⟨hsource, rfl⟩ := attempt_eq_ok.mp hread
  obtain ⟨new, heval⟩ := settleEvaluation_spec h
  have hframe := touches_settleEvaluation k ids now repositoryId source
  refine ⟨source, new, hsource, ?_, hframe.rows_eq h (t := .repositoryAnalysisLinks) (by decide),
    heval⟩
  rw [evaluatedSource_of_eq (hframe.rows_eq h (t := .repositoryMetadata) (by decide))
    (hframe.rows_eq h (t := .repositoryMetadataRevisions) (by decide)), hsource]

end evaluation

/-! ### Dispatches -/

/-- **A dispatch**: nothing, or one queued request goes out under a new message. -/
theorem dispatchUnlocked_spec {k : Contracts} {locked : Uuid → Bool} {messageId : Uuid} {now : Time}
    {c c' : Catalog} {out : AnalysisDispatch}
    (h : dispatchUnlocked k locked messageId now c = .ok (out, c')) :
    c' = c ∨ ∃ r ∈ c.tables.repositoryAnalysisRequests, ∃ requested envelope, r.status = .queued ∧
      k.requestOf r.requestPayload = some requested ∧
      k.requestedEnvelope messageId now requested = some envelope ∧
      c'.tables.outboxEvents = c.tables.outboxEvents ++
        [newOutboxEvent messageId .analysisRequested envelope now] ∧
      c'.tables.repositoryAnalysisRequests =
        updateWhere (fun q => decide (q.requestId = r.requestId)) (·.dispatchedAs messageId)
          c.tables.repositoryAnalysisRequests := by
  obtain ⟨due, _, hread, h⟩ := Tx.bind_eq_ok.mp h
  obtain ⟨hdue, rfl⟩ := select_eq_ok.mp hread
  cases due with
  | none =>
    obtain ⟨-, rfl⟩ := Tx.pure_eq_ok.mp h
    exact .inl rfl
  | some r =>
    obtain ⟨hr, hcond⟩ := List.mem_filter.mp (firstBy_mem hdue)
    simp only [Bool.and_eq_true, decide_eq_true_eq] at hcond
    simp only [Tx.bind_eq_ok, attempt_eq_ok, write_eq_ok, Tx.pure_eq_ok] at h
    obtain ⟨requested, _, ⟨hrequested, rfl⟩, envelope, _, ⟨henvelope, rfl⟩, -, c₁, h₁, -, c₂, h₂, -,
      rfl⟩ := h
    refine .inr ⟨r, hr, requested, envelope, hcond.1.1, ?_, ?_, ?_, ?_⟩
    · cases hparsed : k.requestOf r.requestPayload with
      | none =>
        rw [hparsed] at hrequested
        cases hrequested
      | some value =>
        rw [hparsed] at hrequested
        cases hrequested
        rfl
    · cases hbuilt : k.requestedEnvelope messageId now requested with
      | none =>
        rw [hbuilt] at henvelope
        cases henvelope
      | some value =>
        rw [hbuilt] at henvelope
        cases henvelope
        rfl
    · rw [h₂, h₁]
      rfl
    · rw [h₂, h₁]
      rfl

theorem touches_dispatchUnlocked (k : Contracts) (locked : Uuid → Bool) (messageId : Uuid)
    (now : Time) : Touches [.outboxEvents, .repositoryAnalysisRequests]
      (dispatchUnlocked k locked messageId now) := by
  refine (Touches.select _).bind fun due => ?_
  cases due with
  | none => exact Touches.pure _
  | some r =>
    exact (Touches.attempt _).bind fun _ => (Touches.attempt _).bind fun _ =>
      (Touches.write (by decide) _).bind fun _ => (Touches.write (by decide) _).bind fun _ =>
      Touches.pure _

/-! ### Terminal facts -/

/-- The links after a fact that named a request. -/
def linksAfter (now : Time) (fact : TerminalFact) (links : List RepositoryAnalysisLink) :
    TerminalStatus → List RepositoryAnalysisLink
  | .completed ref =>
    upsertWhere (fun l => decide (l.ownerRef = fact.owner) &&
      decide (l.repositoryId = fact.repositoryId)) (fun _ => linkRow now fact ref)
      (linkRow now fact ref) links
  | .failed _ _ => links

/-- What the delivery of a new message does. -/
structure Delivered (k : Contracts) (now : Time) (messageId : Uuid) (fact : TerminalFact)
    (status : TerminalStatus) (db db' : Database) : Prop where
  unseen : messageId ∉ db.inboxEvents.map (·.messageId)
  inbox : db'.inboxEvents.map (·.messageId) = db.inboxEvents.map (·.messageId) ++ [messageId]
  requests : db'.repositoryAnalysisRequests = updateWhere (fact.names k) (status.settle now ·)
    db.repositoryAnalysisRequests
  links : (∃ r ∈ db.repositoryAnalysisRequests, fact.names k r = true ∧
      db'.repositoryAnalysisLinks = linksAfter now fact db.repositoryAnalysisLinks status) ∨
    ((∀ r ∈ db.repositoryAnalysisRequests, fact.names k r = false) ∧
      db'.repositoryAnalysisLinks = db.repositoryAnalysisLinks)

theorem names_iff {k : Contracts} {fact : TerminalFact} {r : RepositoryAnalysisRequest} :
    fact.names k r = true ↔ r.requestId = fact.requestId ∧ r.ownerRef = fact.owner ∧
      r.repositoryId = fact.repositoryId ∧
      r.githubRepositoryNumericId = fact.githubRepositoryNumericId ∧
      r.sourceRevision = k.revisionValue fact.sourceRevision ∧ r.status = .pending := by
  simp [TerminalFact.names, and_assoc]

theorem linkResult_links {now : Time} {fact : TerminalFact} {status : TerminalStatus} {c c' : Catalog}
    (h : linkResult now fact status c = .ok ((), c')) : c'.tables.repositoryAnalysisLinks =
      linksAfter now fact c.tables.repositoryAnalysisLinks status := by
  cases status with
  | completed ref =>
    rw [write_eq_ok.mp h]
    rfl
  | failed code again =>
    obtain ⟨-, rfl⟩ := Tx.pure_eq_ok.mp h
    rfl

/-- **A delivery**: a message that was seen changes nothing, a new one is recorded and settles the
request it names. -/
theorem consumeTerminalFact_spec {k : Contracts} {now : Time} {messageId : Uuid} {fact : TerminalFact}
    {status : TerminalStatus} {c c' : Catalog} {out : TerminalFactOutcome}
    (h : consumeTerminalFact k now messageId fact status c = .ok (out, c')) :
    (c' = c ∧ messageId ∈ c.tables.inboxEvents.map (·.messageId)) ∨
      Delivered k now messageId fact status c.tables c'.tables := by
  obtain ⟨seen, _, hread, h⟩ := Tx.bind_eq_ok.mp h
  obtain ⟨hseen, rfl⟩ := select_eq_ok.mp hread
  split at h
  · next hdone =>
    obtain ⟨-, rfl⟩ := Tx.pure_eq_ok.mp h
    refine .inl ⟨rfl, ?_⟩
    rw [← hseen] at hdone
    obtain ⟨e, he, hid⟩ := List.any_eq_true.mp hdone
    exact List.mem_map.mpr ⟨e, he, of_decide_eq_true hid⟩
  · next hfresh =>
    right
    simp only [Tx.bind_eq_ok, select_eq_ok, require_eq_ok, Tx.pure_eq_ok] at h
    obtain ⟨⟨⟩, c₁, h₁, ⟨⟩, _, ⟨-, rfl⟩, changed, _, ⟨hchanged, rfl⟩, ⟨⟩, c₂, h₂, ⟨⟩, c₃, h₃, ⟨⟩, c₄,
      h₄, -, rfl⟩ := h
    have hlinkTouches : Touches [.repositoryAnalysisLinks]
        (onlyIf (decide (changed = 1)) (linkResult now fact status)) :=
      Touches.onlyIf (touches_linkResult _ _ _)
    have hrequests₁ : c₁.tables.repositoryAnalysisRequests = c.tables.repositoryAnalysisRequests := by
      rw [write_eq_ok.mp h₁]
      rfl
    have hlinks₂ : c₂.tables.repositoryAnalysisLinks = c.tables.repositoryAnalysisLinks := by
      rw [write_eq_ok.mp h₂, write_eq_ok.mp h₁]
      rfl
    have hlinks₄ : c₄.tables.repositoryAnalysisLinks = c₃.tables.repositoryAnalysisLinks := by
      rw [write_eq_ok.mp h₄]
      rfl
    refine ⟨?_, ?_, ?_, ?_⟩
    · intro hmem
      obtain ⟨e, he, hid⟩ := List.mem_map.mp hmem
      refine hfresh ?_
      rw [← hseen]
      exact List.any_eq_true.mpr ⟨e, he, decide_eq_true hid⟩
    · have hinbox : c₃.tables.inboxEvents = c₁.tables.inboxEvents := by
        have htwo : c₂.tables.inboxEvents = c₁.tables.inboxEvents := by
          rw [write_eq_ok.mp h₂]
          rfl
        exact (hlinkTouches.rows_eq h₃ (t := .inboxEvents) (by decide)).trans htwo
      rw [write_eq_ok.mp h₄]
      show (updateWhere _ _ c₃.tables.inboxEvents).map _ = _
      refine (map_updateWhere (f := fun e : InboxEvent => { e with consumedAt := some now })
        (fun _ => rfl) _).trans ?_
      rw [hinbox, write_eq_ok.mp h₁]
      exact List.map_append
    · have hrequests₃ : c₃.tables.repositoryAnalysisRequests =
          c₂.tables.repositoryAnalysisRequests :=
        hlinkTouches.rows_eq h₃ (t := .repositoryAnalysisRequests) (by decide)
      rw [write_eq_ok.mp h₄]
      show c₃.tables.repositoryAnalysisRequests = _
      rw [hrequests₃, write_eq_ok.mp h₂]
      show updateWhere _ _ c₁.tables.repositoryAnalysisRequests = _
      rw [hrequests₁]
    · rw [hrequests₁] at hchanged
      rw [onlyIf] at h₃
      split at h₃
      · next hone =>
        have hpos : 0 < (c.tables.repositoryAnalysisRequests.filter (fact.names k)).length := by
          rw [hchanged, of_decide_eq_true hone]
          exact Nat.one_pos
        obtain ⟨r, hr⟩ := List.exists_mem_of_length_pos hpos
        obtain ⟨hr, hnames⟩ := List.mem_filter.mp hr
        refine .inl ⟨r, hr, hnames, ?_⟩
        rw [hlinks₄, linkResult_links h₃, hlinks₂]
      · next hnone =>
        obtain ⟨-, rfl⟩ := Tx.pure_eq_ok.mp h₃
        refine .inr ⟨fun r hr => ?_, hlinks₄.trans hlinks₂⟩
        -- At most one request has the id, so none is named.
        by_contra hnames
        have hlength : (c.tables.repositoryAnalysisRequests.filter (fact.names k)).length ≤ 1 := by
          refine le_trans (List.Sublist.length_le (List.monotone_filter_right _ fun a ha => ?_))
            (c.valid.keys.requests.length_filter_le_one fact.requestId)
          exact decide_eq_true (names_iff.mp ha).1
        have hpos := List.length_pos_of_mem
          (List.mem_filter.mpr ⟨hr, Bool.eq_true_of_not_eq_false hnames⟩)
        refine hnone (decide_eq_true ?_)
        omega

end GithubCatalog
