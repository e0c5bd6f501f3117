import GithubCatalog.ErasureFrame
import GithubCatalog.RequestRows

/-!
# README bytes and the rows that name them

`record_fresh_repository` stores the bytes of a README in one transaction and names their digest in a
later one, and an evaluation reads the README evidence before it writes its requests.  An erasure
collects the bytes whose digest was named by what it deletes and is named no longer; it knows nothing
of the flows in between.

* `ReadmeWorld` - the catalog with the README revisions that flows hold, and the evaluations that have
  read;
* `ReadmeEvent` - the transactions of those flows, account erasures and every other operation;
* `collectsReadme` - the digests an erasure collects.
-/

namespace GithubCatalog

open Relational Transact Runs

/-! ### Digests -/

/-- The digest a README revision names. -/
def ReadmeRevision.digest : ReadmeRevision → Option String
  | .present digestHex _ => some digestHex
  | .absent _ => none

/-- `serde_json::from_value` of a README revision reads the digest the SQL reads. -/
def Contracts.ReadsDigest (k : Contracts) : Prop :=
  ∀ value readme, k.readmeOf value = some readme → readme.digest = value.pathText readmeDigestPath

theorem Contracts.Documented.readmeValue_eq {k : Contracts} (hk : k.Documented)
    (readme : ReadmeRevision) :
    (k.readmeValue readme).pathText readmeDigestPath = readme.digest := by
  rw [hk.readmeValue_digest]
  cases readme with
  | present digestHex lengthBytes => rfl
  | absent reason => rfl

theorem Contracts.Documented.revisionValue_eq {k : Contracts} (hk : k.Documented)
    (revision : RepositoryAnalysisRevision) :
    (k.revisionValue revision).pathText ("readme" :: readmeDigestPath) = revision.readme.digest := by
  rw [← hk.readmeValue_eq]
  simp only [Jsonb.pathText, Jsonb.path, hk.revisionValue_readme, Option.bind_some]

/-- The digest is stored, with bytes it is the digest of. -/
def HasBytes (k : Contracts) (db : Database) (digest : String) : Prop :=
  ∃ b ∈ db.repositoryReadmeBlobs, b.contentDigest = digest ∧ k.sha256Hex b.bytes = digest

theorem HasBytes.mono {k : Contracts} {db db' : Database} {digest : String}
    (h : HasBytes k db digest)
    (hblobs : db.repositoryReadmeBlobs ⊆ db'.repositoryReadmeBlobs) : HasBytes k db' digest := by
  obtain ⟨b, hb, hdigest, hbytes⟩ := h
  exact ⟨b, hblobs hb, hdigest, hbytes⟩

/-- Every digest that a projection or a request names is stored. -/
structure ReadmesStored (k : Contracts) (db : Database) : Prop where
  metadata : ∀ m ∈ db.repositoryMetadata, ∀ digest, m.readmeDigest = some digest →
    HasBytes k db digest
  requests : ∀ r ∈ db.repositoryAnalysisRequests, ∀ digest, r.readmeDigest = some digest →
    HasBytes k db digest

/-- The erasure captures the digest, and every row that names it goes. -/
def collectsReadme (owner : String) (db : Database) (digest : String) : Bool :=
  decide (digest ∈ capturedDigests owner db) &&
    (db.repositoryMetadata.all fun m => decide (m.readmeDigest ≠ some digest) ||
      decide (m.repositoryId ∈ collected owner db)) &&
    db.repositoryAnalysisRequests.all fun r => decide (r.readmeDigest ≠ some digest) ||
      decide (r.ownerRef = owner)

/-! ### The world -/

/-- A catalog with the flows in flight: the README revision each recording holds, and the source each
evaluation has read. -/
structure ReadmeWorld where
  catalog : Catalog
  holding : List (Uuid × ReadmeRevision)
  reading : List (Uuid × EvaluatedSource)

/-- Operations that name no README and collect none. -/
def Operation.namesNoReadme : Operation → Bool
  | .applyFreshSource .. => false
  | .evaluateWatches .. => false
  | .eraseAccount .. => false
  | _ => true

inductive ReadmeEvent where
  /-- `stored_validators`, whose README revision the provider then confirms. -/
  | confirm (repositoryId : Uuid)
  /-- `store_readme` of fetched bytes. -/
  | store (repositoryId : Uuid) (bytes : List UInt8)
  /-- The provider has no README to show. -/
  | miss (repositoryId : Uuid) (reason : ReadmeAbsenceReason)
  /-- `apply_fresh_source`, by the recording in place `n`. -/
  | apply (n : ℕ) (revisionId : Uuid) (now : Time) (body : ProviderRepositoryBody)
      (etag readmeEtag : Option String)
  /-- An evaluation reads the stored revision. -/
  | read (repositoryId : Uuid)
  /-- The evaluation that read in place `n` goes on. -/
  | settle (n : ℕ) (ids : ℕ → Uuid) (now : Time)
  | erase (now : Time) (owner : String) (operation : AccountErasureOperation)
  | other (op : Operation) (h : op.namesNoReadme = true)

namespace ReadmeWorld

def start : ReadmeWorld := ⟨emptyCatalog, [], []⟩

def tables (w : ReadmeWorld) : Database := w.catalog.tables

/-- The digests that flows hold and have not named yet. -/
def carried (w : ReadmeWorld) : List String :=
  w.holding.filterMap (fun p => p.2.digest) ++
    w.reading.filterMap fun p => p.2.revision.readme.digest

/-- The stored README revision of a repository, as a flow reads it. -/
def storedReadme (k : Contracts) (repositoryId : Uuid) (db : Database) : Option ReadmeRevision :=
  (db.repositoryMetadata.find? fun m => decide (m.repositoryId = repositoryId)).bind fun m =>
    k.readmeOf m.readmeRevision

def step (k : Contracts) (w : ReadmeWorld) : ReadmeEvent → ReadmeWorld
  | .confirm repositoryId =>
    match storedReadme k repositoryId w.tables with
    | some readme => { w with holding := w.holding ++ [(repositoryId, readme)] }
    | none => w
  | .store repositoryId bytes =>
    match storeReadme k bytes w.catalog with
    | .ok (digest, c) =>
      { w with catalog := c, holding := w.holding ++ [(repositoryId, .present digest bytes.length)] }
    | .error _ => w
  | .miss repositoryId reason => { w with holding := w.holding ++ [(repositoryId, .absent reason)] }
  | .apply n revisionId now body etag readmeEtag =>
    match w.holding[n]? with
    | some (repositoryId, readme) =>
      { w with
        catalog := (applyFreshSource k revisionId now repositoryId body etag readme readmeEtag).commit
          w.catalog
        holding := w.holding.eraseIdx n }
    | none => w
  | .read repositoryId =>
    match evaluatedSource k repositoryId w.tables with
    | .ok source => { w with reading := w.reading ++ [(repositoryId, source)] }
    | .error _ => w
  | .settle n ids now =>
    match w.reading[n]? with
    | some (repositoryId, source) =>
      { w with
        catalog := (settleEvaluation k ids now repositoryId source).commit w.catalog
        reading := w.reading.eraseIdx n }
    | none => w
  | .erase now owner operation =>
    { w with catalog := (eraseAccountInTx now owner operation).commit w.catalog }
  | .other op _ => { w with catalog := GithubCatalog.step k w.catalog op }

end ReadmeWorld

/-- An erasure that collects a digest some flow holds. -/
def ReadmeEvent.collectsHeld (w : ReadmeWorld) : ReadmeEvent → Bool
  | .erase _ owner _ => w.carried.any fun digest => collectsReadme owner w.tables digest
  | _ => false

/-! ### What the transactions name -/

section named

variable {k : Contracts} {c c' : Catalog}

/-- A refresh names the README it was given, in one projection. -/
theorem applyFreshSource_named {revisionId : Uuid} {now : Time} {repositoryId : Uuid}
    {body : ProviderRepositoryBody} {etag : Option String} {readme : ReadmeRevision}
    {readmeEtag : Option String} {out : AppliedOutcome}
    (h : applyFreshSource k revisionId now repositoryId body etag readme readmeEtag c = .ok (out, c')) :
    ∀ m ∈ c'.tables.repositoryMetadata,
      (∃ m₀ ∈ c.tables.repositoryMetadata, m₀.readmeRevision = m.readmeRevision) ∨
        m.readmeRevision = k.readmeValue readme := by
  obtain ⟨attributes, -, ⟨-, htouch⟩ | ⟨-, pushedAt, -, hmetadata⟩⟩ := applyFreshSource_spec h
  · intro m hm
    rw [write_eq_ok.mp htouch] at hm
    obtain ⟨m₀, hm₀, rfl⟩ := mem_updateWhere.mp hm
    refine .inl ⟨m₀, hm₀, ?_⟩
    split
    · rfl
    · rfl
  · intro m hm
    rw [hmetadata] at hm
    rcases mem_upsertWhere.mp hm with ⟨hold, -⟩ | ⟨m₀, -, -, rfl⟩ | ⟨-, rfl⟩
    · exact .inl ⟨m, hold, rfl⟩
    · exact .inr rfl
    · exact .inr rfl

/-- Operations that name no README leave the evidence of the projections alone. -/
theorem Operation.commit_metadata (op : Operation) (h : op.namesNoReadme = true) :
    ∀ m ∈ (op.commit k c).tables.repositoryMetadata,
      ∃ m₀ ∈ c.tables.repositoryMetadata, m₀.readmeRevision = m.readmeRevision := by
  have hother : op.leaves .repositoryMetadata = true →
      ∀ m ∈ (op.commit k c).tables.repositoryMetadata,
        ∃ m₀ ∈ c.tables.repositoryMetadata, m₀.readmeRevision = m.readmeRevision := by
    intro hleaves m hm
    have hrows : (op.commit k c).tables.repositoryMetadata = c.tables.repositoryMetadata :=
      rows_commit k c op .repositoryMetadata hleaves
    exact ⟨m, hrows ▸ hm, rfl⟩
  have htouch : ∀ {p : RepositoryMetadata → Bool} {f : RepositoryMetadata → RepositoryMetadata},
      (∀ m, (f m).readmeRevision = m.readmeRevision) →
      ∀ m ∈ ((write .repositoryMetadata fun db => updateWhere p f db.repositoryMetadata).commit
        c).tables.repositoryMetadata,
        ∃ m₀ ∈ c.tables.repositoryMetadata, m₀.readmeRevision = m.readmeRevision := by
    intro p f hf m hm
    rcases Tx.commit_cases (write .repositoryMetadata fun db =>
      updateWhere p f db.repositoryMetadata) c with ⟨⟨⟩, hok⟩ | hsame
    · rw [write_eq_ok.mp hok] at hm
      obtain ⟨m₀, hm₀, rfl⟩ := mem_updateWhere.mp hm
      refine ⟨m₀, hm₀, ?_⟩
      split
      · exact (hf m₀).symm
      · rfl
    · rw [hsame] at hm
      exact ⟨m, hm, rfl⟩
  cases op with
  | applyFreshSource => cases h
  | evaluateWatches => cases h
  | eraseAccount => cases h
  | applyNotModified now r => exact htouch fun _ => rfl
  | recordObservationAttempt now r => exact htouch fun _ => rfl
  | _ => exact hother rfl

/-- `store_readme` keeps what is stored, and stores the new bytes under their digest. -/
theorem storeReadme_spec {bytes : List UInt8} {digest : String}
    (h : storeReadme k bytes c = .ok (digest, c')) :
    digest = k.sha256Hex bytes ∧ c.tables.repositoryReadmeBlobs ⊆ c'.tables.repositoryReadmeBlobs ∧
      (∃ b ∈ c'.tables.repositoryReadmeBlobs, b.contentDigest = digest) ∧
      ∀ b ∈ c'.tables.repositoryReadmeBlobs, b ∈ c.tables.repositoryReadmeBlobs ∨
        k.sha256Hex b.bytes = b.contentDigest := by
  simp only [storeReadme, Tx.bind_eq_ok, write_eq_ok, Tx.pure_eq_ok] at h
  obtain ⟨-, c₁, h₁, rfl, rfl⟩ := h
  have hblobs : c₁.tables.repositoryReadmeBlobs =
      insertUnless (fun b => decide (b.contentDigest = k.sha256Hex bytes))
        ⟨k.sha256Hex bytes, bytes, bytes.length⟩ c.tables.repositoryReadmeBlobs := by
    rw [h₁]
    rfl
  refine ⟨rfl, ?_⟩
  rw [hblobs]
  unfold insertUnless
  split
  · next hknown =>
    obtain ⟨b, hb, hdigest⟩ := List.any_eq_true.mp hknown
    exact ⟨List.Subset.refl _, ⟨b, hb, of_decide_eq_true hdigest⟩, fun b hb => .inl hb⟩
  · refine ⟨List.subset_append_left _ _, ⟨_, List.mem_append_right _ List.mem_cons_self, rfl⟩, ?_⟩
    intro b hb
    rw [List.mem_append, List.mem_singleton] at hb
    rcases hb with hb | rfl
    · exact .inl hb
    · exact .inr rfl

/-- The bytes an erasure does not collect stay. -/
theorem mem_erased_of_uncollected {now : Time} {owner : String} {db : Database}
    {b : RepositoryReadmeBlob} (hb : b ∈ db.repositoryReadmeBlobs)
    (hkept : collectsReadme owner db b.contentDigest = false) :
    b ∈ (erased now owner db).repositoryReadmeBlobs := by
  refine mem_erased_blobs.mpr ⟨hb, ?_⟩
  rw [or_iff_not_imp_left, not_not]
  intro hcaptured
  rw [readmeNamed_iff]
  rw [collectsReadme, decide_eq_true hcaptured, Bool.true_and, Bool.and_eq_false_iff] at hkept
  rcases hkept with hmetadata | hrequests
  · obtain ⟨m, hm, hnames⟩ := List.all_eq_false.mp hmetadata
    simp only [Bool.or_eq_true, decide_eq_true_eq, not_or, not_not] at hnames
    exact .inl ⟨m, mem_deleteWhere.mpr ⟨hm, decide_eq_false hnames.2⟩, hnames.1⟩
  · obtain ⟨r, hr, hnames⟩ := List.all_eq_false.mp hrequests
    simp only [Bool.or_eq_true, decide_eq_true_eq, not_or, not_not] at hnames
    exact .inr ⟨r, mem_deleteWhere.mpr ⟨hr, decide_eq_false hnames.2⟩, hnames.1⟩

end named

/-! ### The bytes stay -/

/-- The invariant: what is named and what is held is stored, and under its own digest. -/
structure ReadmesHeld (k : Contracts) (w : ReadmeWorld) : Prop where
  stored : ReadmesStored k w.tables
  carried : ∀ digest ∈ w.carried, HasBytes k w.tables digest
  authentic : ∀ b ∈ w.tables.repositoryReadmeBlobs, k.sha256Hex b.bytes = b.contentDigest

namespace ReadmesHeld

variable {k : Contracts} {w : ReadmeWorld} {c' : Catalog}

theorem mem_carried {digest : String} : digest ∈ w.carried ↔
    (∃ p ∈ w.holding, p.2.digest = some digest) ∨
      ∃ p ∈ w.reading, p.2.revision.readme.digest = some digest := by
  simp only [ReadmeWorld.carried, List.mem_append, List.mem_filterMap]

/-- A README revision that a flow reads is one that a projection names. -/
theorem digest_of_read (h : ReadmesHeld k w) (hread : k.ReadsDigest) {m : RepositoryMetadata}
    (hm : m ∈ w.tables.repositoryMetadata) {readme : ReadmeRevision}
    (hreadme : k.readmeOf m.readmeRevision = some readme) {digest : String}
    (hdigest : readme.digest = some digest) : HasBytes k w.tables digest := by
  refine h.stored.metadata m hm digest ?_
  rw [← hdigest, hread _ _ hreadme]
  rfl

/-- A flow begins to hold a README revision that is stored. -/
theorem hold (h : ReadmesHeld k w) {r : Uuid} {readme : ReadmeRevision}
    (hbytes : ∀ digest, readme.digest = some digest → HasBytes k w.tables digest) :
    ReadmesHeld k { w with holding := w.holding ++ [(r, readme)] } where
  stored := h.stored
  carried digest hcarried := by
    rcases mem_carried.mp hcarried with ⟨p, hp, hdigest⟩ | hreading
    · rw [List.mem_append, List.mem_singleton] at hp
      rcases hp with hp | rfl
      · exact h.carried digest (mem_carried.mpr (.inl ⟨p, hp, hdigest⟩))
      · exact hbytes digest hdigest
    · exact h.carried digest (mem_carried.mpr (.inr hreading))
  authentic := h.authentic

/-- A transaction that collects nothing and names only what was stored. -/
theorem grown (h : ReadmesHeld k w)
    (hblobs : w.tables.repositoryReadmeBlobs ⊆ c'.tables.repositoryReadmeBlobs)
    (hauthentic : ∀ b ∈ c'.tables.repositoryReadmeBlobs, b ∈ w.tables.repositoryReadmeBlobs ∨
      k.sha256Hex b.bytes = b.contentDigest)
    (hmetadata : ∀ m ∈ c'.tables.repositoryMetadata, ∀ digest, m.readmeDigest = some digest →
      HasBytes k w.tables digest)
    (hrequests : ∀ r ∈ c'.tables.repositoryAnalysisRequests, ∀ digest,
      r.readmeDigest = some digest → HasBytes k w.tables digest) :
    ReadmesHeld k { w with catalog := c' } where
  stored :=
    ⟨fun m hm digest hdigest => (hmetadata m hm digest hdigest).mono hblobs,
      fun r hr digest hdigest => (hrequests r hr digest hdigest).mono hblobs⟩
  carried digest hcarried := (h.carried digest hcarried).mono hblobs
  authentic b hb := by
    rcases hauthentic b hb with hold | hnew
    · exact h.authentic b hold
    · exact hnew

/-- A flow that ends holds nothing any more. -/
theorem release (h : ReadmesHeld k w) {holding : List (Uuid × ReadmeRevision)}
    {reading : List (Uuid × EvaluatedSource)} (hholding : holding ⊆ w.holding)
    (hreading : reading ⊆ w.reading) : ReadmesHeld k ⟨w.catalog, holding, reading⟩ where
  stored := h.stored
  carried digest hcarried := by
    apply h.carried digest
    rcases mem_carried.mp hcarried with ⟨p, hp, hdigest⟩ | ⟨p, hp, hdigest⟩
    · exact mem_carried.mpr (.inl ⟨p, hholding hp, hdigest⟩)
    · exact mem_carried.mpr (.inr ⟨p, hreading hp, hdigest⟩)
  authentic := h.authentic

theorem requests_of_asked (h : ReadmesHeld k w) (hasked : AsksNothing w.tables c'.tables) :
    ∀ r ∈ c'.tables.repositoryAnalysisRequests, ∀ digest, r.readmeDigest = some digest →
      HasBytes k w.tables digest := by
  intro r hr digest hdigest
  obtain ⟨r₀, hr₀, hsame⟩ := hasked r hr
  have hrevision : r₀.sourceRevision = r.sourceRevision := congrArg (·.sourceRevision) hsame
  refine h.stored.requests r₀ hr₀ digest ?_
  rw [RepositoryAnalysisRequest.readmeDigest, hrevision]
  exact hdigest

theorem metadata_of_kept (h : ReadmesHeld k w)
    (hkept : ∀ m ∈ c'.tables.repositoryMetadata,
      ∃ m₀ ∈ w.tables.repositoryMetadata, m₀.readmeRevision = m.readmeRevision) :
    ∀ m ∈ c'.tables.repositoryMetadata, ∀ digest, m.readmeDigest = some digest →
      HasBytes k w.tables digest := by
  intro m hm digest hdigest
  obtain ⟨m₀, hm₀, hsame⟩ := hkept m hm
  refine h.stored.metadata m₀ hm₀ digest ?_
  rw [RepositoryMetadata.readmeDigest, hsame]
  exact hdigest

theorem store (h : ReadmesHeld k w) {bytes : List UInt8} {digest : String}
    (hok : storeReadme k bytes w.catalog = .ok (digest, c')) :
    ReadmesHeld k { w with catalog := c' } ∧ HasBytes k c'.tables digest := by
  obtain ⟨-, hblobs, ⟨b, hb, hdigest⟩, hauthentic⟩ := storeReadme_spec hok
  have hframe := touches_storeReadme k bytes
  have hgrown : ReadmesHeld k { w with catalog := c' } := by
    refine h.grown hblobs hauthentic (h.metadata_of_kept fun m hm => ⟨m, ?_, rfl⟩)
      (h.requests_of_asked (asksNothing_of_eq ?_))
    · rw [← show c'.tables.repositoryMetadata = w.tables.repositoryMetadata from
        hframe.rows_eq hok (t := .repositoryMetadata) (by decide)]
      exact hm
    · exact hframe.rows_eq hok (t := .repositoryAnalysisRequests) (by decide)
  exact ⟨hgrown, b, hb, hdigest, (hgrown.authentic b hb).trans hdigest⟩

theorem apply (h : ReadmesHeld k w) (hk : k.Documented) {r : Uuid} {readme : ReadmeRevision}
    (hheld : (r, readme) ∈ w.holding) {revisionId : Uuid} {now : Time}
    {body : ProviderRepositoryBody} {etag readmeEtag : Option String} {out : AppliedOutcome}
    (hok : applyFreshSource k revisionId now r body etag readme readmeEtag w.catalog =
      .ok (out, c')) : ReadmesHeld k { w with catalog := c' } := by
  have hframe := touches_applyFreshSource k revisionId now r body etag readme readmeEtag
  have hblobs : c'.tables.repositoryReadmeBlobs = w.tables.repositoryReadmeBlobs :=
    hframe.rows_eq hok (t := .repositoryReadmeBlobs) (by decide)
  refine h.grown ?_ (fun b hb => .inl (hblobs ▸ hb)) ?_
    (h.requests_of_asked (asksNothing_of_eq
      (hframe.rows_eq hok (t := .repositoryAnalysisRequests) (by decide))))
  · rw [hblobs]
    exact List.Subset.refl _
  · intro m hm digest hdigest
    rcases applyFreshSource_named hok m hm with ⟨m₀, hm₀, hsame⟩ | hnew
    · refine h.stored.metadata m₀ hm₀ digest ?_
      rw [RepositoryMetadata.readmeDigest, hsame]
      exact hdigest
    · refine h.carried digest (mem_carried.mpr (.inl ⟨_, hheld, ?_⟩))
      rw [← hk.readmeValue_eq, ← hnew]
      exact hdigest

theorem settle (h : ReadmesHeld k w) (hk : k.Documented) {r : Uuid} {source : EvaluatedSource}
    (hread : (r, source) ∈ w.reading) {ids : ℕ → Uuid} {now : Time} {out : WatchEvaluation}
    (hok : settleEvaluation k ids now r source w.catalog = .ok (out, c')) :
    ReadmesHeld k { w with catalog := c' } := by
  have hframe := touches_settleEvaluation k ids now r source
  obtain ⟨new, hevaluated⟩ := settleEvaluation_spec hok
  have hblobs : c'.tables.repositoryReadmeBlobs = w.tables.repositoryReadmeBlobs :=
    hframe.rows_eq hok (t := .repositoryReadmeBlobs) (by decide)
  have hmetadata : c'.tables.repositoryMetadata = w.tables.repositoryMetadata :=
    hframe.rows_eq hok (t := .repositoryMetadata) (by decide)
  refine h.grown ?_ (fun b hb => .inl (hblobs ▸ hb))
    (h.metadata_of_kept fun m hm => ⟨m, hmetadata ▸ hm, rfl⟩) ?_
  · rw [hblobs]
    exact List.Subset.refl _
  · intro q hq digest hdigest
    rw [hevaluated.requests, List.mem_append] at hq
    rcases hq with hold | hnew
    · exact h.stored.requests q hold digest hdigest
    · obtain ⟨v, -, hqueued, -⟩ := hevaluated.queued q hnew
      refine h.carried digest (mem_carried.mpr (.inr ⟨_, hread, ?_⟩))
      rw [← hk.revisionValue_eq, ← hqueued.revision]
      exact hdigest

/-- An erasure that collects no held digest. -/
theorem erase (h : ReadmesHeld k w) {now : Time} {owner : String}
    {operation : AccountErasureOperation}
    (hquiet : (w.carried.any fun digest => collectsReadme owner w.tables digest) = false)
    (hok : eraseAccountInTx now owner operation w.catalog = .ok ((), c')) :
    ReadmesHeld k { w with catalog := c' } := by
  obtain ⟨c₁, h₁, hagree⟩ := eraseAccountInTx_eq_ok hok
  have hstate := eraseOwnerState_eq h₁
  have hblobs : c'.tables.repositoryReadmeBlobs =
      (erased now owner w.tables).repositoryReadmeBlobs := by
    refine (hagree .repositoryReadmeBlobs (by decide)).trans ?_
    rw [hstate]
    rfl
  have hmetadata : c'.tables.repositoryMetadata = (erased now owner w.tables).repositoryMetadata := by
    refine (hagree .repositoryMetadata (by decide)).trans ?_
    rw [hstate]
    rfl
  have hrequests : c'.tables.repositoryAnalysisRequests =
      (erased now owner w.tables).repositoryAnalysisRequests := by
    refine (hagree .repositoryAnalysisRequests (by decide)).trans ?_
    rw [hstate]
    rfl
  -- What a remaining row names was stored before, and is spared.
  have hnamed : ∀ digest, HasBytes k w.tables digest →
      readmeNamed (erased now owner w.tables) digest = true → HasBytes k c'.tables digest := by
    rintro digest ⟨b, hb, rfl, hbytes⟩ hnames
    refine ⟨b, ?_, rfl, hbytes⟩
    rw [hblobs]
    exact mem_erased_blobs.mpr ⟨hb, .inr hnames⟩
  refine ⟨⟨?_, ?_⟩, ?_, ?_⟩
  · intro m hm digest hdigest
    replace hm : m ∈ (erased now owner w.tables).repositoryMetadata := hmetadata ▸ hm
    exact hnamed digest (h.stored.metadata m (mem_deleteWhere.mp hm).1 digest hdigest)
      (readmeNamed_iff.mpr (.inl ⟨m, hm, hdigest⟩))
  · intro r hr digest hdigest
    replace hr : r ∈ (erased now owner w.tables).repositoryAnalysisRequests := hrequests ▸ hr
    exact hnamed digest (h.stored.requests r (mem_deleteWhere.mp hr).1 digest hdigest)
      (readmeNamed_iff.mpr (.inr ⟨r, hr, hdigest⟩))
  · intro digest hcarried
    obtain ⟨b, hb, hdigest, hbytes⟩ := h.carried digest hcarried
    refine ⟨b, ?_, hdigest, hbytes⟩
    show b ∈ c'.tables.repositoryReadmeBlobs
    rw [hblobs]
    refine mem_erased_of_uncollected hb ?_
    rw [hdigest]
    exact Bool.eq_false_iff.mpr (List.any_eq_false.mp hquiet digest hcarried)
  · intro b hb
    replace hb : b ∈ c'.tables.repositoryReadmeBlobs := hb
    rw [hblobs] at hb
    exact h.authentic b (mem_erased_blobs.mp hb).1

/-- Every other operation. -/
theorem other (h : ReadmesHeld k w) (op : Operation) (hop : op.namesNoReadme = true) :
    ReadmesHeld k { w with catalog := op.commit k w.catalog } := by
  have hevaluates : op.evaluates = false := by
    cases op with
    | evaluateWatches => cases hop
    | _ => rfl
  have hkept : ∀ m ∈ (op.commit k w.catalog).tables.repositoryMetadata,
      ∃ m₀ ∈ w.tables.repositoryMetadata, m₀.readmeRevision = m.readmeRevision :=
    Operation.commit_metadata op hop
  have hasks : AsksNothing w.tables (op.commit k w.catalog).tables :=
    op.commit_requests k w.catalog hevaluates
  have hnamed := h.metadata_of_kept hkept
  have hasked := h.requests_of_asked hasks
  have hsame : op.leaves .repositoryReadmeBlobs = true →
      ReadmesHeld k { w with catalog := op.commit k w.catalog } := by
    intro hleaves
    have hblobs : (op.commit k w.catalog).tables.repositoryReadmeBlobs =
        w.tables.repositoryReadmeBlobs := op.rows_commit k w.catalog .repositoryReadmeBlobs hleaves
    refine h.grown ?_ (fun b hb => .inl (hblobs ▸ hb)) hnamed hasked
    rw [hblobs]
    exact List.Subset.refl _
  cases op with
  | eraseAccount => cases hop
  | storeReadme r bytes =>
    rcases Tx.commit_cases (GithubCatalog.storeReadme k bytes) w.catalog with ⟨digest, hok⟩ | hnone
    · exact (h.store hok).1
    · have hcommit : Operation.commit k w.catalog (.storeReadme r bytes) = w.catalog := hnone
      rw [hcommit]
      exact h
  | _ => exact hsame rfl

/-- **The step lemma.** -/
theorem step (h : ReadmesHeld k w) (hk : k.Documented) (hread : k.ReadsDigest) (e : ReadmeEvent)
    (hquiet : e.collectsHeld w = false) : ReadmesHeld k (w.step k e) := by
  cases e with
  | confirm repositoryId =>
    cases hstored : ReadmeWorld.storedReadme k repositoryId w.tables with
    | none =>
      simp only [ReadmeWorld.step, hstored]
      exact h
    | some readme =>
      simp only [ReadmeWorld.step, hstored]
      obtain ⟨m, hfind, hreadme⟩ := Option.bind_eq_some_iff.mp hstored
      exact h.hold fun digest => h.digest_of_read hread (List.mem_of_find?_eq_some hfind) hreadme
  | store repositoryId bytes =>
    cases hok : storeReadme k bytes w.catalog with
    | error e =>
      simp only [ReadmeWorld.step, hok]
      exact h
    | ok p =>
      obtain ⟨digest, c'⟩ := p
      simp only [ReadmeWorld.step, hok]
      obtain ⟨hgrown, hbytes⟩ := h.store hok
      exact hgrown.hold fun d hd => Option.some.inj hd ▸ hbytes
  | miss repositoryId reason => exact h.hold fun digest hdigest => by cases hdigest
  | apply n revisionId now body etag readmeEtag =>
    cases hn : w.holding[n]? with
    | none =>
      simp only [ReadmeWorld.step, hn]
      exact h
    | some p =>
      simp only [ReadmeWorld.step, hn]
      have hgone : w.holding.eraseIdx n ⊆ w.holding := (List.eraseIdx_sublist _ _).subset
      rcases Tx.commit_cases (applyFreshSource k revisionId now p.1 body etag p.2 readmeEtag)
        w.catalog with ⟨out, hok⟩ | hsame
      · exact (h.apply hk (List.mem_of_getElem? hn) hok).release hgone (List.Subset.refl _)
      · rw [hsame]
        exact h.release hgone (List.Subset.refl _)
  | read repositoryId =>
    cases hsource : evaluatedSource k repositoryId w.tables with
    | error e =>
      simp only [ReadmeWorld.step, hsource]
      exact h
    | ok source =>
      simp only [ReadmeWorld.step, hsource]
      obtain ⟨m, hfind, -, hreadme⟩ := (evaluatedSource_spec hsource).metadata
      refine ⟨h.stored, fun digest hcarried => ?_, h.authentic⟩
      rcases mem_carried.mp hcarried with hholding | ⟨p, hp, hdigest⟩
      · exact h.carried digest (mem_carried.mpr (.inl hholding))
      · rw [List.mem_append, List.mem_singleton] at hp
        rcases hp with hp | rfl
        · exact h.carried digest (mem_carried.mpr (.inr ⟨p, hp, hdigest⟩))
        · exact h.digest_of_read hread (List.mem_of_find?_eq_some hfind) hreadme hdigest
  | settle n ids now =>
    cases hn : w.reading[n]? with
    | none =>
      simp only [ReadmeWorld.step, hn]
      exact h
    | some p =>
      simp only [ReadmeWorld.step, hn]
      have hgone : w.reading.eraseIdx n ⊆ w.reading := (List.eraseIdx_sublist _ _).subset
      rcases Tx.commit_cases (settleEvaluation k ids now p.1 p.2) w.catalog with ⟨out, hok⟩ | hsame
      · exact (h.settle hk (List.mem_of_getElem? hn) hok).release (List.Subset.refl _) hgone
      · rw [hsame]
        exact h.release (List.Subset.refl _) hgone
  | erase now owner operation =>
    show ReadmesHeld k { w with catalog := (eraseAccountInTx now owner operation).commit w.catalog }
    rcases Tx.commit_cases (eraseAccountInTx now owner operation) w.catalog with ⟨⟨⟩, hok⟩ | hsame
    · exact h.erase hquiet hok
    · rw [hsame]
      exact h
  | other op hop =>
    show ReadmesHeld k { w with catalog := GithubCatalog.step k w.catalog op }
    unfold GithubCatalog.step
    split
    · exact h.other op hop
    · exact h

end ReadmesHeld

/-- **README bytes stay with the rows that name them.**  In every interleaving of recordings,
evaluations, erasures and other operations in which no erasure collects a digest that a flow has
stored or read and not yet named, every digest that a projection or an analysis request names has its
bytes. -/
theorem readme_bytes_kept (k : Contracts) (hk : k.Documented) (hread : k.ReadsDigest)
    (history : List ReadmeEvent)
    (h : Guarded (ReadmeWorld.step k) (fun w e => e.collectsHeld w = false) ReadmeWorld.start
      history) :
    Throughout (ReadmeWorld.step k) (fun w => ReadmesStored k w.tables) ReadmeWorld.start history := by
  have hstart : ReadmesHeld k ReadmeWorld.start := by
    refine ⟨⟨?_, ?_⟩, ?_, ?_⟩
    · intro m hm
      cases hm
    · intro r hr
      cases hr
    · intro digest hcarried
      cases hcarried
    · intro b hb
      cases hb
  have hheld : Throughout (ReadmeWorld.step k) (ReadmesHeld k) ReadmeWorld.start history :=
    throughout_of_guarded (fun w e hw hquiet => ReadmesHeld.step hw hk hread e hquiet) hstart h
  exact Throughout.mono (fun w hw => hw.stored) hheld

theorem sampleContracts_readsDigest : sampleContracts.ReadsDigest := by
  intro value readme h
  have hreadme := Option.some.inj h
  cases hpath : value.pathText readmeDigestPath with
  | none =>
    rw [hpath] at hreadme
    rw [← hreadme]
    rfl
  | some hex =>
    rw [hpath] at hreadme
    rw [← hreadme]
    rfl

/-- The body of repository `pid`. -/
def readmeBody (pid : ℤ) : ProviderRepositoryBody := ⟨pid, "owner/name", none, none, 0, [], none, none⟩

/-- The only owner with a relation to repository 1. -/
def readmeOwner : String := "user:00000000-0000-0000-0000-000000000001"

/-- Repositories 1 and 2 have the same README; repository 1 is recorded with it, and watched. -/
def sharedReadme : List ReadmeEvent :=
  [.other (.upsertRepository 1 101) rfl, .other (.upsertRepository 2 102) rfl, .store 1 [97],
    .apply 0 20 1 (readmeBody 101) none none, .other (.registerWatch 30 readmeOwner 1 .current) rfl]

/-- The erasure of the owner. -/
def eraseReadmeOwner : ReadmeEvent :=
  .erase 5 readmeOwner ⟨40, sampleContracts.sha256Hex [], .verified⟩

/-- The owner is erased before repository 2 stores the bytes again. -/
theorem readme_bytes_kept_shared :
    let history := sharedReadme ++ [eraseReadmeOwner, .store 2 [97],
      .apply 0 21 6 (readmeBody 102) none none]
    Guarded (ReadmeWorld.step sampleContracts) (fun w e => e.collectsHeld w = false)
        ReadmeWorld.start history ∧
      Throughout (ReadmeWorld.step sampleContracts)
        (fun w => ReadmesStored sampleContracts w.tables) ReadmeWorld.start history := by
  intro history
  have hquiet : Guarded (ReadmeWorld.step sampleContracts) (fun w e => e.collectsHeld w = false)
      ReadmeWorld.start history := by decide +kernel
  exact ⟨hquiet, readme_bytes_kept sampleContracts sampleContracts_documented
    sampleContracts_readsDigest history hquiet⟩

/-- The owner is erased between the store and the refresh of repository 2: the erasure collects the
bytes, and the projection of repository 2 names a digest without bytes. -/
theorem collected_readme_still_named :
    let w := runFrom (ReadmeWorld.step sampleContracts) ReadmeWorld.start
      (sharedReadme ++ [.store 2 [97], eraseReadmeOwner, .apply 0 21 6 (readmeBody 102) none none])
    (w.tables.repositoryMetadata.map fun m => (m.repositoryId, m.readmeDigest)) =
        [(2, some (sampleContracts.sha256Hex [97]))] ∧
      w.tables.repositoryReadmeBlobs = [] ∧ ¬ ReadmesStored sampleContracts w.tables := by
  intro w
  have hblobs : w.tables.repositoryReadmeBlobs = [] := by decide +kernel
  have hnamed : ∃ m ∈ w.tables.repositoryMetadata,
      m.readmeDigest = some (sampleContracts.sha256Hex [97]) := by decide +kernel
  refine ⟨by decide +kernel, hblobs, fun hstored => ?_⟩
  obtain ⟨m, hm, hdigest⟩ := hnamed
  obtain ⟨b, hb, -⟩ := hstored.metadata m hm _ hdigest
  rw [hblobs] at hb
  cases hb

end GithubCatalog
