import GithubCatalog.Lib.History
import GithubCatalog.MetadataProjection

/-!
# The revision history of a run of fresh sources (`metadata.rs`)

`SourceRun` is the catalog together with the calls of `apply_fresh_source` that returned `Created` or
`Updated`, newest first.  The history of a repository is the newest `REVISION_HISTORY_LIMIT` of its
calls, and the projection is linked to the first of them: the append, the prune and the projection are
separate statements, but the newest revision is never the one pruned.

* `SourceRun.step` - one call;
* `HistoryKept` - the history against the calls;
* `history_of_run` - a run with a strictly increasing clock keeps it;
* `evaluatedSource_stored` - so an evaluation finds the stored revision.
-/

namespace GithubCatalog

open Relational Runs Transact

/-- One call of `apply_fresh_source`. -/
structure SourceCall where
  revisionId : Uuid
  now : Time
  repositoryId : Uuid
  body : ProviderRepositoryBody
  etag : Option String
  readme : ReadmeRevision
  readmeEtag : Option String

namespace SourceCall

/-- The transaction of the call. -/
def run (k : Contracts) (call : SourceCall) : Tx AppliedOutcome :=
  applyFreshSource k call.revisionId call.now call.repositoryId call.body call.etag call.readme
    call.readmeEtag

/-- The content hash of the call's source, when its contracts accept it. -/
def contentHash (k : Contracts) (call : SourceCall) : String :=
  (repositoryAttributes k call.body).toOption.elim "" fun attributes =>
    sourceDigest k attributes call.readme

/-- The revision the call appends. -/
def revision (k : Contracts) (call : SourceCall) : RepositoryMetadataRevision :=
  ⟨call.revisionId, call.repositoryId, normalizedPayload call.body, call.contentHash k, call.now⟩

end SourceCall

/-- A catalog and the calls that were recorded in it, newest first. -/
structure SourceRun where
  catalog : Catalog
  log : List SourceCall

/-- One call: it is logged when it returns `Created` or `Updated`. -/
def SourceRun.step (k : Contracts) (s : SourceRun) (call : SourceCall) : SourceRun :=
  match call.run k s.catalog with
  | .ok (.unchanged, c') => ⟨c', s.log⟩
  | .ok (_, c') => ⟨c', call :: s.log⟩
  | .error _ => s

/-- The calls recorded for one repository, newest first. -/
def SourceRun.recorded (s : SourceRun) (repositoryId : Uuid) : List SourceCall :=
  s.log.filter fun call => decide (call.repositoryId = repositoryId)

/-! ### One call -/

/-- The revisions of a repository in a list of rows, newest first. -/
def newestFirst (rows : List RepositoryMetadataRevision) (repositoryId : Uuid) :
    List RepositoryMetadataRevision :=
  (rows.filter fun r => decide (r.repositoryId = repositoryId)).insertionSort
    fun a b => a.notOlder b = true

/-- The rows that a prune of one repository leaves. -/
def prunedRows (rows : List RepositoryMetadataRevision) (repositoryId : Uuid) :
    List RepositoryMetadataRevision :=
  deleteWhere (fun r => decide (r.repositoryId = repositoryId) &&
    !(((newestFirst rows repositoryId).take revisionHistoryLimit).map (·.revisionId)).contains
      r.revisionId) rows

/-- **What a call does**: the stored source is touched, any other is projected and appended. -/
theorem run_cases {k : Contracts} {call : SourceCall} {out : AppliedOutcome} {c c' : Catalog}
    (h : call.run k c = .ok (out, c')) :
    (out = .unchanged ∧
        c'.tables.repositoryMetadataRevisions = c.tables.repositoryMetadataRevisions ∧
        c'.tables.repositoryMetadata = updateWhere (fun m => decide (m.repositoryId = call.repositoryId))
          (fun m => { m with fetchedAt := call.now }) c.tables.repositoryMetadata) ∨
      (out ≠ .unchanged ∧
        UniqueOn (·.revisionId) (c.tables.repositoryMetadataRevisions ++ [call.revision k]) ∧
        c'.tables.repositoryMetadataRevisions =
          prunedRows (c.tables.repositoryMetadataRevisions ++ [call.revision k]) call.repositoryId ∧
        ∃ pushedAt, pushedTime k call.body.pushedAt = .ok pushedAt ∧
          c'.tables.repositoryMetadata =
            upsertWhere (fun m => decide (m.repositoryId = call.repositoryId))
              (fun m => metadataRow k call.now call.repositoryId call.body pushedAt call.etag
                call.readmeEtag call.readme (call.contentHash k) m.observeAttemptedAt)
              (metadataRow k call.now call.repositoryId call.body pushedAt call.etag call.readmeEtag
                call.readme (call.contentHash k) none) c.tables.repositoryMetadata) := by
  unfold SourceCall.run applyFreshSource at h
  simp only [Tx.bind_eq_ok, attempt_eq_ok, select_eq_ok] at h
  obtain ⟨attributes, _, ⟨hattributes, rfl⟩, current, _, ⟨rfl, rfl⟩, h⟩ := h
  have hhash : call.contentHash k = sourceDigest k attributes call.readme := by
    rw [SourceCall.contentHash, hattributes]
    rfl
  split at h
  · obtain ⟨⟨⟩, c₁, h₁, h⟩ := Tx.bind_eq_ok.mp h
    obtain ⟨rfl, rfl⟩ := Tx.pure_eq_ok.mp h
    have htouched := write_eq_ok.mp h₁
    left
    rw [htouched]
    exact ⟨rfl, rfl, rfl⟩
  · simp only [pruneHistoryInTx, Tx.bind_eq_ok, attempt_eq_ok, write_eq_ok, Tx.pure_eq_ok] at h
    obtain ⟨pushedAt, _, ⟨hpushed, rfl⟩, -, c₁, h₁, -, c₂, h₂, -, c₃, h₃, rfl, rfl⟩ := h
    have hrows₂ : c₂.tables.repositoryMetadataRevisions =
        c.tables.repositoryMetadataRevisions ++ [call.revision k] := by
      rw [h₂, h₁, SourceCall.revision, hhash]
      rfl
    right
    refine ⟨?_, ?_, ?_, pushedAt, hpushed, ?_⟩
    · split <;> simp
    · rw [← hrows₂]
      exact c₂.valid.keys.revisions
    · rw [h₃, ← hrows₂]
      rfl
    · rw [h₃, h₂, hhash]
      rw [show c₁.tables = _ from h₁]
      rfl

/-! ### Newest first -/

theorem RepositoryMetadataRevision.notOlder_iff {a b : RepositoryMetadataRevision} :
    a.notOlder b = true ↔ b.observedAt < a.observedAt ∨
      (a.observedAt = b.observedAt ∧ b.revisionId.toNat ≤ a.revisionId.toNat) := by
  simp [RepositoryMetadataRevision.notOlder]

instance : Std.Total fun a b : RepositoryMetadataRevision => a.notOlder b = true where
  total a b := by
    rw [RepositoryMetadataRevision.notOlder_iff, RepositoryMetadataRevision.notOlder_iff]
    grind

instance : IsTrans RepositoryMetadataRevision fun a b => a.notOlder b = true where
  trans a b c hab hbc := by
    rw [RepositoryMetadataRevision.notOlder_iff] at *
    grind

/-- Rows appended in time are read in the opposite order. -/
theorem newestFirst_eq {rows newest : List RepositoryMetadataRevision} {repositoryId : Uuid}
    (hrows : (rows.filter fun r => decide (r.repositoryId = repositoryId)) = newest.reverse)
    (hdescending : newest.Pairwise fun a b => b.observedAt < a.observedAt) :
    newestFirst rows repositoryId = newest := by
  rw [newestFirst, hrows]
  refine insertionSort_eq_of_perm (List.reverse_perm newest) (hdescending.imp ?_) ?_
  · intro a b hab
    exact RepositoryMetadataRevision.notOlder_iff.mpr (.inl hab)
  · have htimes : UniqueOn (·.observedAt) newest := by
      rw [UniqueOn, List.Nodup, List.pairwise_map]
      exact hdescending.imp fun hab => Nat.ne_of_gt hab
    intro a ha b hb hab hba
    rw [RepositoryMetadataRevision.notOlder_iff] at hab hba
    have htime : a.observedAt = b.observedAt := by grind
    exact htimes.eq_of_mem ha hb htime

/-- A prune keeps the newest revisions of its repository. -/
theorem prunedRows_own {rows newest : List RepositoryMetadataRevision} {repositoryId : Uuid}
    (hrows : (rows.filter fun r => decide (r.repositoryId = repositoryId)) = newest.reverse)
    (hdescending : newest.Pairwise fun a b => b.observedAt < a.observedAt)
    (hunique : UniqueOn (·.revisionId) rows) :
    ((prunedRows rows repositoryId).filter fun r => decide (r.repositoryId = repositoryId)) =
      (newest.take revisionHistoryLimit).reverse := by
  have hids : UniqueOn (·.revisionId) newest := by
    have hsub := hunique.sublist (List.filter_sublist
      (p := fun r : RepositoryMetadataRevision => decide (r.repositoryId = repositoryId)))
    rw [hrows, UniqueOn, List.map_reverse, List.nodup_reverse] at hsub
    exact hsub
  have hkept : ((prunedRows rows repositoryId).filter fun r => decide (r.repositoryId = repositoryId)) =
      (rows.filter fun r => decide (r.repositoryId = repositoryId)).filter fun r =>
        decide (r.revisionId ∈ (newest.take revisionHistoryLimit).map (·.revisionId)) := by
    rw [prunedRows, newestFirst_eq hrows hdescending, deleteWhere, List.filter_filter,
      List.filter_filter]
    congr 1
    funext r
    cases decide (r.repositoryId = repositoryId) <;> simp
  rw [hkept, hrows, List.filter_reverse, filter_keys_take hids]

/-- A prune leaves the other repositories alone. -/
theorem prunedRows_other {rows : List RepositoryMetadataRevision} {repositoryId other : Uuid}
    (hother : other ≠ repositoryId) :
    ((prunedRows rows repositoryId).filter fun r => decide (r.repositoryId = other)) =
      rows.filter fun r => decide (r.repositoryId = other) := by
  rw [prunedRows, deleteWhere, List.filter_filter]
  congr 1
  funext r
  by_cases hr : r.repositoryId = other
  · simp [hr, hother]
  · simp [hr]

/-! ### A run -/

/-- **The history against the calls.**  The table of a repository holds its newest calls, oldest
first, and the projection shows the newest one. -/
structure HistoryKept (k : Contracts) (s : SourceRun) : Prop where
  clock : s.log.Pairwise fun a b => b.now < a.now
  revisions : ∀ r, (s.catalog.tables.repositoryMetadataRevisions.filter fun q =>
    decide (q.repositoryId = r)) =
      (((s.recorded r).take revisionHistoryLimit).map (·.revision k)).reverse
  shown : ∀ m ∈ s.catalog.tables.repositoryMetadata, ∃ call, (s.recorded m.repositoryId).head? = some call ∧
    m.contentHash = call.contentHash k ∧ m.Shows k call.body call.etag call.readme call.readmeEtag

theorem recorded_cons {c c' : Catalog} {log : List SourceCall} {call : SourceCall} (r : Uuid) :
    (SourceRun.mk c' (call :: log)).recorded r =
      if call.repositoryId = r then call :: (SourceRun.mk c log).recorded r
      else (SourceRun.mk c log).recorded r := by
  unfold SourceRun.recorded
  rw [List.filter_cons]
  simp only [decide_eq_true_eq]

/-- The newest calls of a repository are in descending time. -/
theorem HistoryKept.descending {k : Contracts} {s : SourceRun} (h : HistoryKept k s) (r : Uuid) :
    (((s.recorded r).take revisionHistoryLimit).map (·.revision k)).Pairwise
      fun a b => b.observedAt < a.observedAt := by
  rw [List.pairwise_map]
  exact h.clock.sublist ((List.take_sublist _ _).trans List.filter_sublist)

/-- A call that is recorded keeps the history. -/
theorem HistoryKept.recorded {k : Contracts} {c c' : Catalog} {log : List SourceCall}
    (h : HistoryKept k ⟨c, log⟩) {call : SourceCall} (hlater : ∀ q ∈ log, q.now < call.now)
    (hunique : UniqueOn (·.revisionId) (c.tables.repositoryMetadataRevisions ++ [call.revision k]))
    (hrevisions : c'.tables.repositoryMetadataRevisions =
      prunedRows (c.tables.repositoryMetadataRevisions ++ [call.revision k]) call.repositoryId)
    {pushedAt : Option Time} (hpushed : pushedTime k call.body.pushedAt = .ok pushedAt)
    (hmetadata : c'.tables.repositoryMetadata =
      upsertWhere (fun m => decide (m.repositoryId = call.repositoryId))
        (fun m => metadataRow k call.now call.repositoryId call.body pushedAt call.etag
          call.readmeEtag call.readme (call.contentHash k) m.observeAttemptedAt)
        (metadataRow k call.now call.repositoryId call.body pushedAt call.etag call.readmeEtag
          call.readme (call.contentHash k) none) c.tables.repositoryMetadata) :
    HistoryKept k ⟨c', call :: log⟩ := by
  refine ⟨List.pairwise_cons.mpr ⟨hlater, h.clock⟩, fun r => ?_, fun m hm => ?_⟩
  · rw [recorded_cons (c := c), hrevisions]
    by_cases hown : call.repositoryId = r
    · subst hown
      rw [if_pos rfl]
      -- The appended row is the newest of its repository.
      have hrows : ((c.tables.repositoryMetadataRevisions ++ [call.revision k]).filter fun q =>
          decide (q.repositoryId = call.repositoryId)) =
          (call.revision k :: (((SourceRun.mk c log).recorded call.repositoryId).take
            revisionHistoryLimit).map (·.revision k)).reverse := by
        rw [List.filter_append, h.revisions, List.reverse_cons]
        congr 1
        exact List.filter_eq_self.mpr fun q hq => by
          rw [List.mem_singleton.mp hq]
          exact decide_eq_true rfl
      have hdescending : (call.revision k :: (((SourceRun.mk c log).recorded call.repositoryId).take
          revisionHistoryLimit).map (·.revision k)).Pairwise
            fun a b => b.observedAt < a.observedAt := by
        refine List.pairwise_cons.mpr ⟨fun q hq => ?_, h.descending call.repositoryId⟩
        obtain ⟨old, hold, rfl⟩ := List.mem_map.mp hq
        exact hlater old (List.mem_filter.mp (List.mem_of_mem_take hold)).1
      rw [prunedRows_own hrows hdescending hunique, ← List.map_cons, ← List.map_take, take_cons_take]
    · rw [if_neg hown, prunedRows_other (Ne.symm hown), List.filter_append, h.revisions]
      have hnone : ([call.revision k].filter fun q => decide (q.repositoryId = r)) = [] := by
        refine List.filter_eq_nil_iff.mpr fun q hq => ?_
        rw [List.mem_singleton.mp hq]
        exact fun hid => hown (of_decide_eq_true hid)
      rw [hnone, List.append_nil]
  · have hwritten : ∀ attempted, (metadataRow k call.now call.repositoryId call.body pushedAt call.etag
        call.readmeEtag call.readme (call.contentHash k) attempted).Shows k call.body call.etag
          call.readme call.readmeEtag := fun _ => metadataRow_shows hpushed
    rw [recorded_cons (c := c)]
    rw [hmetadata] at hm
    rcases mem_upsertWhere.mp hm with ⟨hold, hother⟩ | ⟨q, -, -, rfl⟩ | ⟨-, rfl⟩
    · have hne : call.repositoryId ≠ m.repositoryId := fun hid => by simp [hid] at hother
      rw [if_neg hne]
      exact h.shown m hold
    · rw [show (metadataRow k call.now call.repositoryId call.body pushedAt call.etag call.readmeEtag
        call.readme (call.contentHash k) q.observeAttemptedAt).repositoryId = call.repositoryId from rfl,
        if_pos rfl]
      exact ⟨call, rfl, rfl, hwritten _⟩
    · rw [show (metadataRow k call.now call.repositoryId call.body pushedAt call.etag call.readmeEtag
        call.readme (call.contentHash k) none).repositoryId = call.repositoryId from rfl, if_pos rfl]
      exact ⟨call, rfl, rfl, hwritten _⟩

/-- **One call** later than every recorded one keeps the history. -/
theorem HistoryKept.step {k : Contracts} {s : SourceRun} (h : HistoryKept k s) {call : SourceCall}
    (hlater : ∀ q ∈ s.log, q.now < call.now) : HistoryKept k (s.step k call) := by
  obtain ⟨c, log⟩ := s
  unfold SourceRun.step
  cases hrun : call.run k c with
  | error e => exact h
  | ok p =>
    obtain ⟨out, c'⟩ := p
    rcases run_cases hrun with ⟨rfl, hrevisions, hmetadata⟩ |
      ⟨hchanged, hunique, hrevisions, pushedAt, hpushed, hmetadata⟩
    · show HistoryKept k ⟨c', log⟩
      refine ⟨h.clock, fun r => ?_, fun m hm => ?_⟩
      · rw [hrevisions]
        exact h.revisions r
      · rw [hmetadata] at hm
        obtain ⟨old, hold, rfl⟩ := mem_updateWhere.mp hm
        have hshown := h.shown old hold
        split
        · obtain ⟨first, hfirst, hhash, hshows⟩ := hshown
          exact ⟨first, hfirst, hhash, RepositoryMetadata.shows_fetched.mpr hshows⟩
        · exact hshown
    · have hkept := h.recorded hlater hunique hrevisions hpushed hmetadata
      cases out with
      | unchanged => exact absurd rfl hchanged
      | created => exact hkept
      | updated => exact hkept

theorem step_log (k : Contracts) (s : SourceRun) (call : SourceCall) :
    (s.step k call).log = s.log ∨ (s.step k call).log = call :: s.log := by
  unfold SourceRun.step
  split
  · exact .inl rfl
  · exact .inr rfl
  · exact .inl rfl

/-- **A run** in strictly increasing time keeps the history. -/
theorem HistoryKept.run {k : Contracts} {s : SourceRun} (h : HistoryKept k s) {calls : List SourceCall}
    (hlater : ∀ q ∈ s.log, ∀ call ∈ calls, q.now < call.now)
    (hclock : calls.Pairwise fun a b => a.now < b.now) :
    Throughout (SourceRun.step k) (HistoryKept k) s calls := by
  induction calls generalizing s with
  | nil => exact h
  | cons call rest ih =>
    obtain ⟨hfirst, hrest⟩ := List.pairwise_cons.mp hclock
    refine ⟨h, ih (h.step fun q hq => hlater q hq call List.mem_cons_self) ?_ hrest⟩
    intro q hq next hnext
    rcases step_log k s call with hsame | hlogged
    · rw [hsame] at hq
      exact hlater q hq next (List.mem_cons_of_mem _ hnext)
    · rw [hlogged] at hq
      rcases List.mem_cons.mp hq with rfl | hq
      · exact hfirst next hnext
      · exact hlater q hq next (List.mem_cons_of_mem _ hnext)

/-! ### What an evaluation finds -/

theorem analysisAttributes_ne_missing (k : Contracts) (body : StoredBody) :
    analysisAttributes k body ≠ .error .missingMetadata := by
  have htext : ∀ accepts text, boundedUnlessBlank accepts text ≠ .error .missingMetadata := by
    intro accepts text
    unfold boundedUnlessBlank
    split
    · simp
    · split <;> simp
  unfold analysisAttributes
  cases hd : boundedUnlessBlank k.repositoryDescription body.description with
  | error e =>
    have hne := htext k.repositoryDescription body.description
    rw [hd] at hne
    simpa [bind, Except.bind] using hne
  | ok description =>
    cases hl : boundedUnlessBlank k.repositoryLanguage body.language with
    | error e =>
      have hne := htext k.repositoryLanguage body.language
      rw [hl] at hne
      simpa [bind, Except.bind] using hne
    | ok language => cases k.repositoryFullName body.fullName <;> simp [bind, Except.bind]

/-- With a projection and its revision, an evaluation has its metadata. -/
theorem evaluatedSource_stored {k : Contracts} {repositoryId : Uuid} {db : Database}
    {m : RepositoryMetadata} {stored : RepositoryMetadataRevision}
    (hmetadata : (db.repositoryMetadata.find? fun m => decide (m.repositoryId = repositoryId)) = some m)
    (hstored : ((revisionsOf repositoryId db).find? fun r =>
      decide (r.contentHash = m.contentHash)) = some stored) :
    evaluatedSource k repositoryId db ≠ .error .missingMetadata := by
  unfold evaluatedSource
  simp only [hmetadata, bind, Except.bind, Option.elim_some, hstored]
  cases storedBody stored.payload with
  | none => simp
  | some body =>
    have hne := analysisAttributes_ne_missing k body
    cases hattributes : analysisAttributes k body with
    | error e =>
      rw [hattributes] at hne
      simpa [hattributes] using hne
    | ok attributes =>
      simp only [Option.elim_some, hattributes]
      by_cases hpos : 0 ≤ body.providerRepositoryId
      · cases k.readmeOf m.readmeRevision <;> simp [hpos, pure, Except.pure]
      · simp [hpos]

/-- **The stored history**: each repository has its newest recorded calls, at most
`REVISION_HISTORY_LIMIT` of them; the revision an evaluation looks up by the projection's content hash
is the one of the call that the projection shows, and it is there. -/
structure HistoryExact (k : Contracts) (s : SourceRun) : Prop where
  bounded : ∀ r, (revisionsOf r s.catalog.tables).length ≤ revisionHistoryLimit
  retained : ∀ r, revisionsOf r s.catalog.tables =
    ((s.recorded r).take revisionHistoryLimit).map (·.revision k)
  linked : ∀ m ∈ s.catalog.tables.repositoryMetadata, ∃ call,
    (s.recorded m.repositoryId).head? = some call ∧
    m.Shows k call.body call.etag call.readme call.readmeEtag ∧
    ((revisionsOf m.repositoryId s.catalog.tables).find? fun q =>
      decide (q.contentHash = m.contentHash)) = some (call.revision k)
  evaluated : ∀ m ∈ s.catalog.tables.repositoryMetadata,
    evaluatedSource k m.repositoryId s.catalog.tables ≠ .error .missingMetadata

theorem HistoryKept.exact {k : Contracts} {s : SourceRun} (h : HistoryKept k s) : HistoryExact k s := by
  have hretained : ∀ r, revisionsOf r s.catalog.tables =
      ((s.recorded r).take revisionHistoryLimit).map (·.revision k) :=
    fun r => newestFirst_eq (h.revisions r) (h.descending r)
  have hlinked : ∀ m ∈ s.catalog.tables.repositoryMetadata, ∃ call,
      (s.recorded m.repositoryId).head? = some call ∧
      m.Shows k call.body call.etag call.readme call.readmeEtag ∧
      ((revisionsOf m.repositoryId s.catalog.tables).find? fun q =>
        decide (q.contentHash = m.contentHash)) = some (call.revision k) := by
    intro m hm
    obtain ⟨call, hfirst, hhash, hshows⟩ := h.shown m hm
    refine ⟨call, hfirst, hshows, ?_⟩
    obtain ⟨rest, hrecorded⟩ := List.head?_eq_some_iff.mp hfirst
    have hsame : decide ((call.revision k).contentHash = call.contentHash k) = true :=
      decide_eq_true rfl
    rw [hretained, hrecorded, revisionHistoryLimit, List.take_succ_cons, List.map_cons, List.find?_cons,
      hhash, hsame]
  refine ⟨fun r => ?_, hretained, hlinked, fun m hm => ?_⟩
  · rw [hretained, List.length_map]
    exact List.length_take_le _ _
  · obtain ⟨call, -, -, hstored⟩ := hlinked m hm
    exact evaluatedSource_stored (find?_projection hm) hstored

/-- **Bounded history.**  Every sequential run of fresh sources with a strictly increasing clock, from a
catalog without metadata, keeps the history exact in every state. -/
theorem history_of_run (k : Contracts) {c : Catalog} (hmetadata : c.tables.repositoryMetadata = [])
    (hrevisions : c.tables.repositoryMetadataRevisions = []) {calls : List SourceCall}
    (hclock : calls.Pairwise fun a b => a.now < b.now) :
    Throughout (SourceRun.step k) (HistoryExact k) ⟨c, []⟩ calls := by
  have hstart : HistoryKept k ⟨c, []⟩ := by
    refine ⟨List.Pairwise.nil, fun r => ?_, fun m hm => ?_⟩
    · rw [hrevisions]
      rfl
    · rw [hmetadata] at hm
      cases hm
  exact (hstart.run (fun q hq => nomatch hq) hclock).mono fun _ h => h.exact

/-- Contracts that tell a present README from an absent one. -/
def readmeContracts : Contracts :=
  { sampleContracts with
    jsonBytes := fun value =>
      if value.member "readme" = some (sampleContracts.readmeValue (.absent .notFound)) then []
      else [0] }

/-- A catalogued repository. -/
def cataloguedRepository : Catalog :=
  runFrom (step readmeContracts) emptyCatalog [.upsertRepository 1 101]

/-- A README that comes and goes. -/
def alternatingSources : List SourceCall :=
  (List.range 3).map fun n =>
    ⟨BitVec.ofNat 128 n, n, 1, { providerRepositoryId := 101, fullName := "owner/name" }, none,
      if n = 1 then .present "00" 4 else .absent .notFound, none⟩

theorem history_of_run_alternating :
    Throughout (SourceRun.step readmeContracts) (HistoryExact readmeContracts)
        ⟨cataloguedRepository, []⟩ alternatingSources ∧
      (runFrom (SourceRun.step readmeContracts) ⟨cataloguedRepository, []⟩
        alternatingSources).log.length = 3 :=
  ⟨history_of_run readmeContracts (by decide +kernel) (by decide +kernel) (by decide +kernel),
    by decide +kernel⟩

end GithubCatalog
