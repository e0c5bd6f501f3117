import GithubCatalog.AnalysisQueue
import GithubCatalog.Lib.Runs
import GithubCatalog.RequestRows

/-!
# Evaluations converge from committed state

A refresh commits a source revision in one transaction and its watches are evaluated in a later one, so
a process may die in between: the history then has the refresh without the evaluation.  An evaluation
takes everything from the stored projection, whatever was lost before it.

* `identity` - the value that the idempotency digest of a request is the digest of, as the row keeps
  it;
* `Keyed` - every request is stored under the digest of its own identity;
* `Converged` - what a returned evaluation leaves behind.

An evaluation queues nothing where a request of the watch has the same digest.  That this request is of
the stored revision rests on SHA-256 telling apart the identities that meet in a history
(`DigestsApart`).
-/

namespace GithubCatalog

open Relational Transact Runs

/-! ### Identities -/

/-- The value that the idempotency digest is taken of. -/
def identityValue (owner : String) (repositoryId : Uuid) (providerId : ℕ)
    (revision attributes : Jsonb) : Jsonb :=
  .obj [("owner", .str owner), ("repository_id", .str (uuidText repositoryId)),
    ("github_repository_numeric_id", .num (toString providerId)), ("source_revision", revision),
    ("repository_attributes", attributes), ("requested_contract", .str "repository_analysis")]

/-- The identity of a stored request. -/
def RepositoryAnalysisRequest.identity (r : RepositoryAnalysisRequest) : Jsonb :=
  identityValue r.ownerRef r.repositoryId r.githubRepositoryNumericId.toNat r.sourceRevision
    r.repositoryAttributes

/-- The identity of what an evaluation asks for a watch. -/
def askedIdentity (k : Contracts) (repositoryId : Uuid) (source : EvaluatedSource)
    (w : RepositoryWatch) : Jsonb :=
  identityValue w.ownerRef repositoryId source.providerId (k.revisionValue source.revision)
    (k.attributesValue source.attributes)

theorem idempotencyDigest_eq (k : Contracts) (repositoryId : Uuid) (source : EvaluatedSource)
    (w : RepositoryWatch) : idempotencyDigest k w.ownerRef repositoryId source =
      contentDigest k (askedIdentity k repositoryId source w) :=
  rfl

/-- Identities agree on the revision and the attributes. -/
theorem eq_of_identityValue_eq {owner owner' : String} {r r' : Uuid} {id id' : ℕ}
    {revision revision' attributes attributes' : Jsonb}
    (h : identityValue owner r id revision attributes =
      identityValue owner' r' id' revision' attributes') :
    revision = revision' ∧ attributes = attributes' := by
  unfold identityValue at h
  injection h with h
  simp only [List.cons.injEq, Prod.mk.injEq, true_and, and_true] at h
  exact ⟨h.2.2.2.1, h.2.2.2.2⟩

/-- Every request is stored under the digest of its identity. -/
def Keyed (k : Contracts) (db : Database) : Prop :=
  ∀ r ∈ db.repositoryAnalysisRequests, r.idempotencyDigestHex = contentDigest k r.identity

/-- The identities that an evaluation digests. -/
def digestedIdentities (k : Contracts) (repositoryId : Uuid) (db : Database) : List Jsonb :=
  match evaluatedSource k repositoryId db with
  | .ok source =>
    (staleWatches repositoryId source.contentHash db).map (askedIdentity k repositoryId source)
  | .error _ => []

/-- No identity that the operation digests has the digest of another that a request is stored with. -/
def DigestsApart (k : Contracts) (c : Catalog) : Operation → Prop
  | .evaluateWatches _ _ repositoryId =>
    ∀ r ∈ c.tables.repositoryAnalysisRequests,
      ∀ value ∈ digestedIdentities k repositoryId c.tables,
        contentDigest k r.identity = contentDigest k value → r.identity = value
  | _ => True

instance (k : Contracts) (c : Catalog) (op : Operation) : Decidable (DigestsApart k c op) := by
  unfold DigestsApart
  split
  · infer_instance
  · infer_instance

/-! ### What an evaluation asks -/

/-- The request is one that an evaluation of the source queued. -/
structure AskedOf (k : Contracts) (repositoryId : Uuid) (source : EvaluatedSource)
    (r : RepositoryAnalysisRequest) : Prop where
  revision : r.sourceRevision = k.revisionValue source.revision
  attributes : r.repositoryAttributes = k.attributesValue source.attributes
  digest : r.idempotencyDigestHex = contentDigest k r.identity

section asks

variable {k : Contracts} {ids : ℕ → Uuid} {now : Time} {repositoryId : Uuid} {source : EvaluatedSource}
  {P : RepositoryAnalysisRequest → Prop}

theorem relates_requests_evaluateWatch (hasked : ∀ r, AskedOf k repositoryId source r → P r)
    (requestId : Uuid) (watch : RepositoryWatch) (next : Time) :
    Tx.Relates (Tx.Keeps fun db => ∀ r ∈ db.repositoryAnalysisRequests, P r)
      (evaluateWatch k requestId now repositoryId source watch next) := by
  refine Tx.Relates.bind (relates_require _ _) fun _ => Tx.Relates.bind (relates_select _) fun _ =>
    Tx.Relates.bind (relates_write ?_) fun _ => Tx.Relates.bind (relates_write ?_) fun _ =>
    Tx.Relates.pure _
  · intro db _ hold
    exact forall_insertUnless hold (hasked _ ⟨rfl, rfl, rfl⟩)
  · intro db _ hold
    exact hold

theorem relates_requests_evaluateWatches (hasked : ∀ r, AskedOf k repositoryId source r → P r)
    (rest : List (RepositoryWatch × ℕ)) (next : Time) :
    Tx.Relates (Tx.Keeps fun db => ∀ r ∈ db.repositoryAnalysisRequests, P r)
      (evaluateWatches k ids now repositoryId source rest next) := by
  induction rest generalizing next with
  | nil => exact Tx.Relates.pure _
  | cons p rest ih =>
    exact Tx.Relates.bind (relates_requests_evaluateWatch hasked _ _ _) fun q =>
      Tx.Relates.bind (ih q.1) fun _ => Tx.Relates.pure _

/-- **Only the stored revision is asked for.** -/
theorem evaluate_asks {c c' : Catalog} {out : WatchEvaluation}
    (hsource : evaluatedSource k repositoryId c.tables = .ok source)
    (h : evaluateMetadataWatches k ids now repositoryId c = .ok (out, c')) :
    ∀ r ∈ c'.tables.repositoryAnalysisRequests,
      r ∈ c.tables.repositoryAnalysisRequests ∨ AskedOf k repositoryId source r := by
  rw [evaluateMetadataWatches_eq] at h
  obtain ⟨source', _, hread, h⟩ := Tx.bind_eq_ok.mp h
  obtain ⟨hsource', rfl⟩ := attempt_eq_ok.mp hread
  obtain rfl : source = source' := Except.ok.inj (hsource.symm.trans hsource')
  have hkeeps : Tx.Relates (Tx.Keeps fun db => ∀ r ∈ db.repositoryAnalysisRequests,
      r ∈ c.tables.repositoryAnalysisRequests ∨ AskedOf k repositoryId source r)
      (settleEvaluation k ids now repositoryId source) := by
    refine Tx.Relates.bind (relates_select _) fun watches => ?_
    split
    · exact Tx.Relates.pure _
    · refine Tx.Relates.bind (relates_write fun db _ hold => hold) fun _ =>
        Tx.Relates.bind (relates_fetchOne _) fun next => ?_
      refine Tx.Relates.bind (relates_requests_evaluateWatches (fun r hr => .inr hr) _ _) fun out => ?_
      exact Tx.Relates.bind (relates_onlyIf (relates_write fun db _ hold => hold)) fun _ =>
        Tx.Relates.pure _
  exact hkeeps _ _ _ h fun r hr => .inl hr

end asks

/-! ### Whole histories -/

/-- **Requests stay under their digests.** -/
theorem Keyed.step {k : Contracts} {c : Catalog} (h : Keyed k c.tables) (op : Operation) :
    Keyed k (step k c op).tables := by
  have hcommit : Keyed k (op.commit k c).tables := by
    cases hop : op.evaluates with
    | false =>
      intro r hr
      obtain ⟨r₀, hr₀, hsame⟩ := op.commit_requests k c hop r hr
      have hdigest : r₀.idempotencyDigestHex = r.idempotencyDigestHex :=
        congrArg (·.idempotencyDigestHex) hsame
      have hidentity : r₀.identity = r.identity := congrArg (·.identity) hsame
      rw [← hdigest, ← hidentity]
      exact h r₀ hr₀
    | true =>
      cases op with
      | evaluateWatches ids now repositoryId =>
        show Keyed k ((evaluateMetadataWatches k ids now repositoryId).commit c).tables
        rcases Tx.commit_cases (evaluateMetadataWatches k ids now repositoryId) c with
          ⟨out, hok⟩ | hsame
        · obtain ⟨source, -, hsource, -⟩ := evaluate_spec hok
          intro r hr
          rcases evaluate_asks hsource hok r hr with hold | hasked
          · exact h r hold
          · exact hasked.digest
        · rw [hsame]
          exact h
      | _ => cases hop
  unfold GithubCatalog.step
  split
  · exact hcommit
  · exact h

/-- What an evaluation that returned leaves behind: every enabled watch of the repository is at the
stored digest, and each one that was moved has a request made of the stored payload and README. -/
structure Converged (k : Contracts) (repositoryId : Uuid) (db db' : Database) : Prop where
  current : ∃ hash, storedHash repositoryId db' = some hash ∧
    ∀ w ∈ db'.repositoryWatches, w.repositoryId = repositoryId → w.enabled = true →
      w.lastEvaluatedContentHash = some hash
  requested : ∃ source, ReadFrom k repositoryId db' source ∧
    ∀ w ∈ db.repositoryWatches, ∀ w' ∈ db'.repositoryWatches, w'.watchId = w.watchId →
      w'.lastEvaluatedContentHash ≠ w.lastEvaluatedContentHash →
      ∃ r ∈ db'.repositoryAnalysisRequests, r.watchId = w.watchId ∧
        r.sourceRevision = k.revisionValue source.revision ∧
        r.repositoryAttributes = k.attributesValue source.attributes

section evaluated

variable {k : Contracts} {repositoryId : Uuid} {source : EvaluatedSource} {db db' : Database}
  {new : List RepositoryAnalysisRequest}

/-- The watches after an evaluation: moved, or not stale. -/
theorem Evaluated.mem_watches
    (h : Evaluated k repositoryId source (staleWatches repositoryId source.contentHash db) db db' new)
    {w' : RepositoryWatch} (hw' : w' ∈ db'.repositoryWatches) :
    (∃ w ∈ staleWatches repositoryId source.contentHash db, w.watchId = w'.watchId ∧
        w'.lastEvaluatedContentHash = some source.contentHash) ∨
      (w' ∈ db.repositoryWatches ∧ w' ∉ staleWatches repositoryId source.contentHash db) := by
  rw [h.watches] at hw'
  obtain ⟨v, hv, rfl⟩ := mem_updateWhere.mp hw'
  split
  · next hcontains =>
    rw [List.contains_iff_mem, List.mem_map] at hcontains
    obtain ⟨w, hw, hid⟩ := hcontains
    exact .inl ⟨w, hw, hid, rfl⟩
  · next hcontains =>
    refine .inr ⟨hv, fun hstale => hcontains ?_⟩
    rw [List.contains_iff_mem]
    exact List.mem_map.mpr ⟨v, hstale, rfl⟩

theorem Evaluated.current
    (h : Evaluated k repositoryId source (staleWatches repositoryId source.contentHash db) db db' new)
    {w' : RepositoryWatch} (hw' : w' ∈ db'.repositoryWatches) (hrepository : w'.repositoryId = repositoryId)
    (henabled : w'.enabled = true) : w'.lastEvaluatedContentHash = some source.contentHash := by
  rcases h.mem_watches hw' with ⟨-, -, -, hmoved⟩ | ⟨hold, hfresh⟩
  · exact hmoved
  · by_contra hother
    exact hfresh (mem_staleWatches.mpr ⟨hold, hrepository, henabled, hother⟩)

/-- A watch whose checkpoint moved was stale. -/
theorem Evaluated.stale_of_moved
    (h : Evaluated k repositoryId source (staleWatches repositoryId source.contentHash db) db db' new)
    (hkeys : UniqueOn (·.watchId) db.repositoryWatches) {w w' : RepositoryWatch}
    (hw : w ∈ db.repositoryWatches) (hw' : w' ∈ db'.repositoryWatches) (hid : w'.watchId = w.watchId)
    (hmoved : w'.lastEvaluatedContentHash ≠ w.lastEvaluatedContentHash) :
    w ∈ staleWatches repositoryId source.contentHash db := by
  rcases h.mem_watches hw' with ⟨v, hv, hvid, -⟩ | ⟨hold, -⟩
  · have hsame : v = w := hkeys.eq_of_mem (mem_staleWatches.mp hv).1 hw (hvid.trans hid)
    exact hsame ▸ hv
  · have hsame : w' = w := hkeys.eq_of_mem hold hw hid
    exact absurd (congrArg (·.lastEvaluatedContentHash) hsame) hmoved

end evaluated

/-- **One evaluation.**  From a catalog whose requests are stored under their digests. -/
theorem evaluate_converges {k : Contracts} {ids : ℕ → Uuid} {now : Time} {repositoryId : Uuid}
    {c c' : Catalog} {out : WatchEvaluation} (hkeyed : Keyed k c.tables)
    (hapart : DigestsApart k c (.evaluateWatches ids now repositoryId))
    (hok : evaluateMetadataWatches k ids now repositoryId c = .ok (out, c')) :
    Converged k repositoryId c.tables c'.tables := by
  obtain ⟨source, new, hsource, hsource', -, heval⟩ := evaluate_spec hok
  refine ⟨⟨source.contentHash, storedHash_of_evaluated hsource', fun w' hw' => heval.current hw'⟩,
    source, evaluatedSource_spec hsource', ?_⟩
  intro w hw w' hw' hid hmoved
  have hstale := heval.stale_of_moved c.valid.keys.watches hw hw' hid hmoved
  obtain ⟨r, hr, hsame⟩ := List.any_eq_true.mp (heval.complete w hstale)
  simp only [Bool.and_eq_true, decide_eq_true_eq] at hsame
  obtain ⟨hwatch, hdigest⟩ := hsame
  refine ⟨r, hr, hwatch, ?_⟩
  rcases evaluate_asks hsource hok r hr with hold | hasked
  · -- The request was there: its digest is that of the stored revision, so it asks for the same.
    have hvalue : askedIdentity k repositoryId source w ∈ digestedIdentities k repositoryId c.tables := by
      rw [digestedIdentities, hsource]
      exact List.mem_map.mpr ⟨w, hstale, rfl⟩
    refine eq_of_identityValue_eq (hapart r hold _ hvalue ?_)
    rw [← hkeyed r hold, hdigest, idempotencyDigest_eq]
    rfl
  · exact ⟨hasked.revision, hasked.attributes⟩

/-- What an operation does if it is an evaluation that returns. -/
def Converges (k : Contracts) (c : Catalog) (op : Operation) : Prop :=
  ∀ ids now repositoryId out c', op = .evaluateWatches ids now repositoryId →
    evaluateMetadataWatches k ids now repositoryId c = .ok (out, c') →
    Converged k repositoryId c.tables c'.tables

/-- **Convergence from committed state.**  In every history, with refreshes that were never evaluated,
registrations with either baseline and watches switched on and off in any order, every evaluation that
returns converges, and no watch ever has two requests with one digest. -/
theorem evaluations_converge (k : Contracts) (history : List Operation)
    (hapart : Guarded (step k) (DigestsApart k) emptyCatalog history) :
    Guarded (step k) (Converges k) emptyCatalog history ∧
      Throughout (step k) (fun c => UniqueOn (fun r => (r.watchId, r.idempotencyDigestHex))
        c.tables.repositoryAnalysisRequests) emptyCatalog history := by
  have hstart : Keyed k emptyCatalog.tables := by
    intro r hr
    cases hr
  constructor
  · refine guarded_of_step (P := fun c => Keyed k c.tables) ?_ hstart hapart
    intro c op hkeyed hquiet
    refine ⟨hkeyed.step op, ?_⟩
    rintro ids now repositoryId out c' rfl hok
    exact evaluate_converges hkeyed hquiet hok
  · refine throughout_of_guarded ?_ emptyCatalog.valid.keys.requests_deduplication hapart
    intro c op _ _
    exact (step k c op).valid.keys.requests_deduplication

/-- An evaluation of repository 5, drawing its request ids from `n` on. -/
def evaluatedFrom (n : ℕ) : Operation :=
  .evaluateWatches (fun i => BitVec.ofNat 128 (n + i)) n 5

/-- The revision with a README is committed by a process that dies before it evaluates; the watch is
paused and resumed, evaluated, and meets the revision without a README again. -/
def repairedHistory : List Operation :=
  [.upsertRepository 5 7, .applyFreshSource 20 0 5 watchedBody none bareReadme none,
    .registerWatch 30 watchOwner 5 .unevaluated, evaluatedFrom 40,
    .applyFreshSource 21 50 5 watchedBody none emptyReadme none, .setWatchEnabled 30 false,
    .setWatchEnabled 30 true, evaluatedFrom 60,
    .applyFreshSource 22 70 5 watchedBody none bareReadme none,
    .registerWatch 31 "user:00000000-0000-0000-0000-000000000002" 5 .current, evaluatedFrom 80]

theorem evaluations_converge_repaired :
    Guarded (step revisionContracts) (DigestsApart revisionContracts) emptyCatalog repairedHistory ∧
      Guarded (step revisionContracts) (Converges revisionContracts) emptyCatalog repairedHistory ∧
      Throughout (step revisionContracts)
        (fun c => UniqueOn (fun r => (r.watchId, r.idempotencyDigestHex))
          c.tables.repositoryAnalysisRequests) emptyCatalog repairedHistory ∧
      (runFrom (step revisionContracts) emptyCatalog
        repairedHistory).tables.repositoryAnalysisRequests.length = 2 := by
  obtain ⟨hapart, htwo⟩ :
      Guarded (step revisionContracts) (DigestsApart revisionContracts) emptyCatalog repairedHistory ∧
      (runFrom (step revisionContracts) emptyCatalog
        repairedHistory).tables.repositoryAnalysisRequests.length = 2 := by
    decide +kernel
  obtain ⟨hconverge, hunique⟩ := evaluations_converge revisionContracts repairedHistory hapart
  exact ⟨hapart, hconverge, hunique, htwo⟩

end GithubCatalog
