import GithubCatalog.SyncRuns
import Mathlib.Data.List.Sort

/-!
# Metadata projection, README blobs and revision history (`metadata.rs`, `observe.rs`)

A fresh provider body is recorded as one source revision: the projection row, one raw history row and,
for a present README, the content-addressed blob stored before it.
-/

namespace GithubCatalog

open Relational Transact

/-- `REVISION_HISTORY_LIMIT`. -/
def revisionHistoryLimit : ℕ := 10

inductive AppliedOutcome where
  | created | updated | unchanged
deriving DecidableEq

/-- `store_readme`: preserve one README body under its digest. -/
def storeReadme (k : Contracts) (bytes : List UInt8) : Tx String := do
  write .repositoryReadmeBlobs fun db =>
    insertUnless (fun b => decide (b.contentDigest = k.sha256Hex bytes))
      ⟨k.sha256Hex bytes, bytes, bytes.length⟩ db.repositoryReadmeBlobs
  pure (k.sha256Hex bytes)

/-- An optional text of a body, checked by its contract when it is not empty. -/
def boundedText (accepts : String → Bool) (text : Option String) :
    Except CatalogError (Option String) :=
  match text.filter (· ≠ "") with
  | none => .ok none
  | some t => if accepts t then .ok (some t) else .error .contract

/-- `repository_attributes`. -/
def repositoryAttributes (k : Contracts) (body : ProviderRepositoryBody) :
    Except CatalogError RepositoryAnalysisAttributes := do
  let description ← boundedText k.repositoryDescription body.description
  let primaryLanguage ← boundedText k.repositoryLanguage body.language
  if k.repositoryFullName body.fullName then
    .ok ⟨body.fullName, description, primaryLanguage⟩
  else .error .contract

/-- `content_digest`, of a JSON value. -/
def contentDigest (k : Contracts) (value : Jsonb) : String := k.sha256Hex (k.jsonBytes value)

/-- The serialized `ContentDigest` of a hexadecimal digest. -/
def digestValue (hex : String) : Jsonb := .obj [("algorithm", .str "sha256"), ("hex", .str hex)]

/-- The source identity a revision is recorded under. -/
def sourceDigest (k : Contracts) (attributes : RepositoryAnalysisAttributes)
    (readme : ReadmeRevision) : String :=
  contentDigest k (.obj
    [("attributes_digest", digestValue (contentDigest k (k.attributesValue attributes))),
      ("readme", k.readmeValue readme)])

/-- A JSON string or null. -/
def textValue (text : Option String) : Jsonb := text.elim .null .str

/-- `normalized_payload`. -/
def normalizedPayload (body : ProviderRepositoryBody) : Jsonb :=
  .obj [("provider_repository_id", .num (toString body.providerRepositoryId)),
    ("full_name", .str body.fullName),
    ("description", textValue body.description),
    ("language", textValue body.language),
    ("stargazers", .num (toString body.stargazers)),
    ("topics", .arr (body.topics.map .str)),
    ("default_branch", textValue body.defaultBranch),
    ("pushed_at", textValue body.pushedAt)]

/-- The bound push time of a body. -/
def pushedTime (k : Contracts) : Option String → Except CatalogError (Option Time)
  | none => .ok none
  | some text => (k.timestamp text).elim (.error (.query .invalidText)) fun t => .ok (some t)

/-- The projection row of a body; the observation attempt of an existing row stays. -/
def metadataRow (k : Contracts) (now : Time) (repositoryId : Uuid) (body : ProviderRepositoryBody)
    (pushedAt : Option Time) (etag readmeEtag : Option String) (readme : ReadmeRevision)
    (contentHash : String) (attempted : Option Time) : RepositoryMetadata :=
  ⟨repositoryId, body.description, body.language, body.stargazers, .arr (body.topics.map .str),
    body.defaultBranch, pushedAt, etag, readmeEtag, k.readmeValue readme, contentHash, now,
    attempted⟩

/-- `order by observed_at desc, revision_id desc`: whether `a` comes before or with `b`. -/
def RepositoryMetadataRevision.notOlder (a b : RepositoryMetadataRevision) : Bool :=
  decide (b.observedAt < a.observedAt) ||
    (decide (a.observedAt = b.observedAt) && decide (b.revisionId.toNat ≤ a.revisionId.toNat))

/-- The revisions of a repository, newest first. -/
def revisionsOf (repositoryId : Uuid) (db : Database) : List RepositoryMetadataRevision :=
  (db.repositoryMetadataRevisions.filter fun r =>
    decide (r.repositoryId = repositoryId)).insertionSort fun a b => a.notOlder b = true

/-- `prune_history_in_tx`. -/
def pruneHistoryInTx (repositoryId : Uuid) : Tx Unit :=
  write .repositoryMetadataRevisions fun db =>
    let kept := ((revisionsOf repositoryId db).take revisionHistoryLimit).map (·.revisionId)
    deleteWhere (fun r => decide (r.repositoryId = repositoryId) && !kept.contains r.revisionId)
      db.repositoryMetadataRevisions

/-- Refresh the fetch time of a projection. -/
def touchFetchedAt (now : Time) (repositoryId : Uuid) : Tx Unit :=
  write .repositoryMetadata fun db =>
    updateWhere (fun m => decide (m.repositoryId = repositoryId))
      (fun m => { m with fetchedAt := now }) db.repositoryMetadata

/-- `apply_fresh_source`. -/
def applyFreshSource (k : Contracts) (revisionId : Uuid) (now : Time) (repositoryId : Uuid)
    (body : ProviderRepositoryBody) (etag : Option String) (readme : ReadmeRevision)
    (readmeEtag : Option String) : Tx AppliedOutcome := do
  let attributes ← attempt fun _ => repositoryAttributes k body
  let digest := sourceDigest k attributes readme
  let current ← select fun db => (db.repositoryMetadata.find? fun m =>
    decide (m.repositoryId = repositoryId)).map (·.contentHash)
  if current = some digest then do
    touchFetchedAt now repositoryId
    pure .unchanged
  else do
    let pushedAt ← attempt fun _ => pushedTime k body.pushedAt
    write .repositoryMetadata fun db =>
      upsertWhere (fun m => decide (m.repositoryId = repositoryId))
        (fun m => metadataRow k now repositoryId body pushedAt etag readmeEtag readme digest
          m.observeAttemptedAt)
        (metadataRow k now repositoryId body pushedAt etag readmeEtag readme digest none)
        db.repositoryMetadata
    write .repositoryMetadataRevisions fun db => db.repositoryMetadataRevisions ++
      [⟨revisionId, repositoryId, normalizedPayload body, digest, now⟩]
    pruneHistoryInTx repositoryId
    pure (if current.isSome then .updated else .created)

/-- `apply_not_modified`. -/
def applyNotModified (now : Time) (repositoryId : Uuid) : Tx Unit := touchFetchedAt now repositoryId

/-- `record_observation_attempt`. -/
def recordObservationAttempt (now : Time) (repositoryId : Uuid) : Tx Unit :=
  write .repositoryMetadata fun db =>
    updateWhere (fun m => decide (m.repositoryId = repositoryId))
      (fun m => { m with observeAttemptedAt := some now }) db.repositoryMetadata

/-! ### What a fresh source does -/

/-- **A fresh source** of the stored identity refreshes the fetch time; any other one takes the
projection over. -/
theorem applyFreshSource_spec {k : Contracts} {revisionId : Uuid} {now : Time} {repositoryId : Uuid}
    {body : ProviderRepositoryBody} {etag : Option String} {readme : ReadmeRevision}
    {readmeEtag : Option String} {out : AppliedOutcome} {c c' : Catalog}
    (h : applyFreshSource k revisionId now repositoryId body etag readme readmeEtag c = .ok (out, c')) :
    ∃ attributes, repositoryAttributes k body = .ok attributes ∧
      (((c.tables.repositoryMetadata.find? fun m => decide (m.repositoryId = repositoryId)).map
            (·.contentHash) = some (sourceDigest k attributes readme) ∧
          touchFetchedAt now repositoryId c = .ok ((), c')) ∨
        ((c.tables.repositoryMetadata.find? fun m => decide (m.repositoryId = repositoryId)).map
            (·.contentHash) ≠ some (sourceDigest k attributes readme) ∧
          ∃ pushedAt, pushedTime k body.pushedAt = .ok pushedAt ∧
            c'.tables.repositoryMetadata =
              upsertWhere (fun m => decide (m.repositoryId = repositoryId))
                (fun m => metadataRow k now repositoryId body pushedAt etag readmeEtag readme
                  (sourceDigest k attributes readme) m.observeAttemptedAt)
                (metadataRow k now repositoryId body pushedAt etag readmeEtag readme
                  (sourceDigest k attributes readme) none)
                c.tables.repositoryMetadata)) := by
  simp only [applyFreshSource, Tx.bind_eq_ok, attempt_eq_ok, select_eq_ok] at h
  obtain ⟨attributes, _, ⟨hattributes, rfl⟩, current, _, ⟨rfl, rfl⟩, h⟩ := h
  refine ⟨attributes, hattributes, ?_⟩
  split at h
  · next hsame =>
    obtain ⟨⟨⟩, c₁, h₁, h⟩ := Tx.bind_eq_ok.mp h
    obtain ⟨-, rfl⟩ := Tx.pure_eq_ok.mp h
    exact .inl ⟨hsame, h₁⟩
  · next hnew =>
    simp only [pruneHistoryInTx, Tx.bind_eq_ok, attempt_eq_ok, write_eq_ok, Tx.pure_eq_ok] at h
    obtain ⟨pushedAt, _, ⟨hpushed, rfl⟩, -, c₁, h₁, -, c₂, h₂, -, c₃, h₃, -, rfl⟩ := h
    refine .inr ⟨hnew, pushedAt, hpushed, ?_⟩
    have hmetadata : c₃.tables.repositoryMetadata = c₁.tables.repositoryMetadata := by
      rw [h₃, h₂]
      rfl
    rw [hmetadata, h₁]
    rfl

/-! ### Frames -/

theorem touches_storeReadme (k : Contracts) (bytes : List UInt8) :
    Touches [.repositoryReadmeBlobs] (storeReadme k bytes) :=
  (Touches.write (by decide) _).bind fun _ => Touches.pure _

theorem touches_touchFetchedAt (now : Time) (r : Uuid) :
    Touches [.repositoryMetadata] (touchFetchedAt now r) :=
  Touches.write (by decide) _

theorem touches_applyFreshSource (k : Contracts) (revisionId : Uuid) (now : Time) (r : Uuid)
    (body : ProviderRepositoryBody) (etag : Option String) (readme : ReadmeRevision)
    (readmeEtag : Option String) :
    Touches [.repositoryMetadata, .repositoryMetadataRevisions]
      (applyFreshSource k revisionId now r body etag readme readmeEtag) := by
  refine (Touches.attempt _).bind fun attributes => (Touches.select _).bind fun current => ?_
  split
  · exact ((touches_touchFetchedAt _ _).mono (by decide)).bind fun _ => Touches.pure _
  · exact (Touches.attempt _).bind fun _ => (Touches.write (by decide) _).bind fun _ =>
      (Touches.write (by decide) _).bind fun _ => (Touches.write (by decide) _).bind fun _ =>
      Touches.pure _

theorem touches_recordObservationAttempt (now : Time) (r : Uuid) :
    Touches [.repositoryMetadata] (recordObservationAttempt now r) :=
  Touches.write (by decide) _

end GithubCatalog
