import GithubCatalog.Catalog

/-!
# What the projection shows after a fresh source (`metadata.rs`)

`apply_fresh_source` rewrites the projection when the source identity differs from the stored one.  The
identity is a digest over the full name, the description, the language and the README evidence; the
projection and the validators of the next conditional request hold more than that.

* `RepositoryMetadata.Shows` - a row shows a body, its validators and its README evidence;
* `projection_shows_iff` - when the row does so after a successful call;
* `stargazers_left_behind` - a body that differs in its stargazer count alone.
-/

namespace GithubCatalog

open Relational Runs Transact

/-- The row shows a body with its push time, the two validators and the README revision. -/
structure RepositoryMetadata.Shows (k : Contracts) (body : ProviderRepositoryBody)
    (etag : Option String) (readme : ReadmeRevision) (readmeEtag : Option String)
    (m : RepositoryMetadata) : Prop where
  description : m.description = body.description
  language : m.language = body.language
  stargazers : m.stargazersCount = body.stargazers
  topics : m.topics = .arr (body.topics.map .str)
  defaultBranch : m.defaultBranch = body.defaultBranch
  pushedAt : pushedTime k body.pushedAt = .ok m.pushedAt
  providerEtag : m.providerEtag = etag
  readmeEtag : m.readmeEtag = readmeEtag
  readmeRevision : m.readmeRevision = k.readmeValue readme

/-- The source of a body and a README is the one a row was stored under. -/
def RepositoryMetadata.storedUnder (k : Contracts) (body : ProviderRepositoryBody)
    (readme : ReadmeRevision) (m : RepositoryMetadata) : Prop :=
  ∃ attributes, repositoryAttributes k body = .ok attributes ∧
    m.contentHash = sourceDigest k attributes readme

section projection

variable {k : Contracts} {now : Time} {repositoryId : Uuid} {body : ProviderRepositoryBody}
  {etag readmeEtag : Option String} {readme : ReadmeRevision}

/-- What a row shows does not depend on its fetch time. -/
theorem RepositoryMetadata.shows_fetched {m : RepositoryMetadata} :
    RepositoryMetadata.Shows k body etag readme readmeEtag { m with fetchedAt := now } ↔
      m.Shows k body etag readme readmeEtag :=
  ⟨fun ⟨h₁, h₂, h₃, h₄, h₅, h₆, h₇, h₈, h₉⟩ => ⟨h₁, h₂, h₃, h₄, h₅, h₆, h₇, h₈, h₉⟩,
    fun ⟨h₁, h₂, h₃, h₄, h₅, h₆, h₇, h₈, h₉⟩ => ⟨h₁, h₂, h₃, h₄, h₅, h₆, h₇, h₈, h₉⟩⟩

/-- A written row shows the body it was written from. -/
theorem metadataRow_shows {pushedAt : Option Time} {hash : String} {attempted : Option Time}
    (hpushed : pushedTime k body.pushedAt = .ok pushedAt) :
    (metadataRow k now repositoryId body pushedAt etag readmeEtag readme hash attempted).Shows k body
      etag readme readmeEtag where
  description := rfl
  language := rfl
  stargazers := rfl
  topics := rfl
  defaultBranch := rfl
  pushedAt := hpushed
  providerEtag := rfl
  readmeEtag := rfl
  readmeRevision := rfl

/-- The projection of a repository is found by its key. -/
theorem find?_projection {c : Catalog} {m : RepositoryMetadata}
    (hm : m ∈ c.tables.repositoryMetadata) :
    c.tables.repositoryMetadata.find? (fun n => decide (n.repositoryId = m.repositoryId)) = some m :=
  c.valid.keys.metadata.find?_eq hm

/-- **When the projection shows the observed source.**  After a call that returns, the row of the
repository shows the body, its validators and its README exactly when no row with other contents was
stored under the same source identity. -/
theorem projection_shows_iff {revisionId : Uuid} {out : AppliedOutcome} {c c' : Catalog}
    (h : applyFreshSource k revisionId now repositoryId body etag readme readmeEtag c = .ok (out, c')) :
    (∃ m ∈ c'.tables.repositoryMetadata, m.repositoryId = repositoryId ∧
        m.Shows k body etag readme readmeEtag) ↔
      ∀ m ∈ c.tables.repositoryMetadata, m.repositoryId = repositoryId →
        m.storedUnder k body readme → m.Shows k body etag readme readmeEtag := by
  obtain ⟨attributes, hattributes, ⟨hsame, htouch⟩ | ⟨hnew, pushedAt, hpushed, hrows⟩⟩ :=
    applyFreshSource_spec h
  · have hrows : c'.tables.repositoryMetadata =
        updateWhere (fun m => decide (m.repositoryId = repositoryId))
          (fun m => { m with fetchedAt := now }) c.tables.repositoryMetadata := by
      rw [write_eq_ok.mp htouch]
      rfl
    obtain ⟨stored, hfind, hhash⟩ := Option.map_eq_some_iff.mp hsame
    have hstored : stored.repositoryId = repositoryId := by simpa using List.find?_some hfind
    have hmem := List.mem_of_find?_eq_some hfind
    constructor
    · rintro ⟨m, hm, hid, hshows⟩ n hn hnid -
      rw [hrows, mem_updateWhere] at hm
      obtain ⟨m₀, hm₀, rfl⟩ := hm
      by_cases hm₀id : m₀.repositoryId = repositoryId
      · rw [if_pos (decide_eq_true hm₀id), RepositoryMetadata.shows_fetched] at hshows
        rw [c.valid.keys.metadata.eq_of_mem hn hm₀ (hnid.trans hm₀id.symm)]
        exact hshows
      · rw [if_neg (by simpa using hm₀id)] at hid
        exact absurd hid hm₀id
    · intro hall
      refine ⟨{ stored with fetchedAt := now }, ?_, hstored, ?_⟩
      · rw [hrows, mem_updateWhere]
        exact ⟨stored, hmem, if_pos (decide_eq_true hstored)⟩
      · rw [RepositoryMetadata.shows_fetched]
        exact hall stored hmem hstored ⟨attributes, hattributes, hhash⟩
  · constructor
    · rintro - m hm rfl ⟨attributes', hattributes', hhash⟩
      rw [hattributes] at hattributes'
      cases hattributes'
      rw [find?_projection hm] at hnew
      exact absurd (congrArg some hhash) hnew
    · intro _
      rw [hrows]
      by_cases hany : ∃ m ∈ c.tables.repositoryMetadata, m.repositoryId = repositoryId
      · obtain ⟨m, hm, hid⟩ := hany
        exact ⟨_, mem_upsertWhere.mpr (.inr (.inl ⟨m, hm, decide_eq_true hid, rfl⟩)), rfl,
          metadataRow_shows hpushed⟩
      · have hnone : ∀ m ∈ c.tables.repositoryMetadata, decide (m.repositoryId = repositoryId) = false :=
          fun m hm => decide_eq_false fun hid => hany ⟨m, hm, hid⟩
        exact ⟨_, mem_upsertWhere.mpr (.inr (.inr ⟨hnone, rfl⟩)), rfl, metadataRow_shows hpushed⟩

end projection

/-! ### A body that gained a star -/

/-- A body with a stargazer count. -/
def bodyWithStars (stargazers : ℤ) : ProviderRepositoryBody :=
  { providerRepositoryId := 101, fullName := "owner/name", stargazers := stargazers }

/-- A catalogued repository, observed once or not at all. -/
def observedCatalog (observations : List Operation) : Catalog :=
  runFrom (step sampleContracts) emptyCatalog (.upsertRepository 1 101 :: observations)

/-- The first observation, with one stargazer. -/
def firstObservation : Tx AppliedOutcome :=
  applyFreshSource sampleContracts 7 0 1 (bodyWithStars 1) none (.absent .notFound) none

theorem projection_shows_iff_first :
    ∃ m ∈ (firstObservation.commit (observedCatalog [])).tables.repositoryMetadata,
      m.repositoryId = 1 ∧ m.Shows sampleContracts (bodyWithStars 1) none (.absent .notFound) none := by
  obtain ⟨out, hok⟩ := Tx.ok_of_succeeds (x := firstObservation) (s := observedCatalog [])
    (by decide +kernel)
  have hempty : (observedCatalog []).tables.repositoryMetadata = [] := by decide +kernel
  refine (projection_shows_iff hok).mpr fun m hm => ?_
  rw [hempty] at hm
  exact absurd hm List.not_mem_nil

/-- **A star is not shown.**  The second observation differs in its stargazer count alone: it returns,
and the row keeps the first count. -/
theorem stargazers_left_behind :
    ¬ ∀ (c c' : Catalog) (out : AppliedOutcome), Reachable sampleContracts c →
      applyFreshSource sampleContracts 8 1 1 (bodyWithStars 2) none (.absent .notFound) none c =
        .ok (out, c') →
      ∃ m ∈ c'.tables.repositoryMetadata, m.repositoryId = 1 ∧
        m.Shows sampleContracts (bodyWithStars 2) none (.absent .notFound) none := by
  intro hall
  let c := observedCatalog
    [.applyFreshSource 7 0 1 (bodyWithStars 1) none (.absent .notFound) none]
  let second := applyFreshSource sampleContracts 8 1 1 (bodyWithStars 2) none (.absent .notFound) none
  obtain ⟨out, hok⟩ := Tx.ok_of_succeeds (x := second) (s := c) (by decide +kernel)
  obtain ⟨m, hm, -, hshows⟩ := hall c _ out ⟨_, rfl⟩ hok
  have hcount : ∀ m ∈ (second.commit c).tables.repositoryMetadata, m.stargazersCount = 1 := by
    decide +kernel
  exact absurd ((hcount m hm).symm.trans hshows.stargazers) (by decide)

end GithubCatalog
