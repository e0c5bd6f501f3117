import GithubCatalog.ErasurePermanence
import GithubCatalog.MetadataProjection
import GithubCatalog.RepositoryFetches
import Mathlib.Data.List.Induction

/-!
# The fetch behind a projection

A fresh source of another identity takes a projection over; one of the stored identity, a not-modified
answer and an observation attempt refresh its times.  So a row is that of one fetch, whatever flows ran
beside it, and the validators of the next conditional request are those of the fetch it shows.

* `RepositoryMetadata.Refreshes` - a row with other times;
* `Operation.Fetched` - the fetch that a row is of;
* `Operation.SameSource` - an operation that does not take the projection over;
* `projection_lastFetch` - whole histories.
-/

namespace GithubCatalog

open Relational Transact Runs

/-- The row with other times. -/
def RepositoryMetadata.Refreshes (m m' : RepositoryMetadata) : Prop :=
  ∃ fetched attempted, m' = { m with fetchedAt := fetched, observeAttemptedAt := attempted }

/-- The operation is the fetch that the row is of. -/
def Operation.Fetched (k : Contracts) (m : RepositoryMetadata) : Operation → Prop
  | .applyFreshSource _ now repositoryId body etag readme readmeEtag => ∃ attributes pushedAt,
      repositoryAttributes k body = .ok attributes ∧ pushedTime k body.pushedAt = .ok pushedAt ∧
      (metadataRow k now repositoryId body pushedAt etag readmeEtag readme
        (sourceDigest k attributes readme) none).Refreshes m
  | _ => False

/-- What a fetch leaves for the next conditional request. -/
def Operation.validators (k : Contracts) : Operation → Option String × Option String × Option Jsonb
  | .applyFreshSource _ _ _ _ etag readme readmeEtag => (etag, readmeEtag, some (k.readmeValue readme))
  | _ => (none, none, none)

/-- A fetch of the repository that succeeds is of the source with the hash. -/
def Operation.SameSource (k : Contracts) (repositoryId : Uuid) (hash : String) (c : Catalog) :
    Operation → Prop
  | .applyFreshSource revisionId now r body etag readme readmeEtag => r = repositoryId →
      (GithubCatalog.applyFreshSource k revisionId now r body etag readme readmeEtag).succeeds c = true →
      ∃ attributes, repositoryAttributes k body = .ok attributes ∧
        sourceDigest k attributes readme = hash
  | _ => True

namespace RepositoryMetadata.Refreshes

variable {m m' m'' : RepositoryMetadata}

theorem refl (m : RepositoryMetadata) : m.Refreshes m := ⟨m.fetchedAt, m.observeAttemptedAt, rfl⟩

theorem trans (h : m.Refreshes m') (h' : m'.Refreshes m'') : m.Refreshes m'' := by
  obtain ⟨_, _, rfl⟩ := h
  obtain ⟨fetched, attempted, rfl⟩ := h'
  exact ⟨fetched, attempted, rfl⟩

theorem repositoryId (h : m.Refreshes m') : m'.repositoryId = m.repositoryId := by
  obtain ⟨_, _, rfl⟩ := h
  rfl

theorem contentHash (h : m.Refreshes m') : m'.contentHash = m.contentHash := by
  obtain ⟨_, _, rfl⟩ := h
  rfl

end RepositoryMetadata.Refreshes

section projections

variable {k : Contracts} {c : Catalog} {m m' : RepositoryMetadata}

theorem Operation.Fetched.refreshes {op : Operation} (h : op.Fetched k m) (hm : m.Refreshes m') :
    op.Fetched k m' := by
  cases op with
  | applyFreshSource =>
    obtain ⟨attributes, pushedAt, hattributes, hpushed, hrow⟩ := h
    exact ⟨attributes, pushedAt, hattributes, hpushed, hrow.trans hm⟩
  | _ => exact h.elim

/-- Every row is a refreshed one. -/
def ProjectionsRefreshed (db db' : Database) : Prop :=
  ∀ m ∈ db'.repositoryMetadata, ∃ m₀ ∈ db.repositoryMetadata, m₀.Refreshes m

instance : Std.Refl ProjectionsRefreshed := ⟨fun _ m hm => ⟨m, hm, .refl m⟩⟩

theorem relates_refreshed_update {p : RepositoryMetadata → Bool}
    {f : RepositoryMetadata → RepositoryMetadata} (hf : ∀ m : RepositoryMetadata, m.Refreshes (f m)) :
    Tx.Relates ProjectionsRefreshed
      (write .repositoryMetadata fun db => updateWhere p f db.repositoryMetadata) := by
  refine relates_write fun db _ m hm => ?_
  obtain ⟨m₀, hm₀, rfl⟩ := mem_updateWhere.mp hm
  refine ⟨m₀, hm₀, ?_⟩
  split
  · exact hf m₀
  · exact .refl m₀

theorem relates_refreshed_touchFetchedAt (now : Time) (repositoryId : Uuid) :
    Tx.Relates ProjectionsRefreshed (touchFetchedAt now repositoryId) :=
  relates_refreshed_update fun m => ⟨now, m.observeAttemptedAt, rfl⟩

/-- A fetch that succeeds wrote the row, or left it of the fetch it was of. -/
theorem applyFreshSource_projection {revisionId : Uuid} {now : Time} {repositoryId : Uuid}
    {body : ProviderRepositoryBody} {etag : Option String} {readme : ReadmeRevision}
    {readmeEtag : Option String} {out : AppliedOutcome} {c' : Catalog}
    (h : applyFreshSource k revisionId now repositoryId body etag readme readmeEtag c = .ok (out, c'))
    (hm : m ∈ c'.tables.repositoryMetadata) :
    ((repositoryId = m.repositoryId → ∃ attributes, repositoryAttributes k body = .ok attributes ∧
        sourceDigest k attributes readme = m.contentHash) ∧
      ∃ m₀ ∈ c.tables.repositoryMetadata, m₀.Refreshes m) ∨
    (Operation.applyFreshSource revisionId now repositoryId body etag readme readmeEtag).Fetched k m := by
  obtain ⟨attributes, hattributes, ⟨hcurrent, htouch⟩ | ⟨-, pushedAt, hpushed, hrows⟩⟩ :=
    applyFreshSource_spec h
  · obtain ⟨m₀, hm₀, hrefreshed⟩ := relates_refreshed_touchFetchedAt now repositoryId c _ c' htouch m hm
    refine .inl ⟨fun hid => ⟨attributes, hattributes, ?_⟩, m₀, hm₀, hrefreshed⟩
    rw [hid, hrefreshed.repositoryId, find?_projection hm₀, Option.map_some] at hcurrent
    rw [hrefreshed.contentHash]
    exact (Option.some.inj hcurrent).symm
  · rw [hrows] at hm
    rcases mem_upsertWhere.mp hm with ⟨hold, hother⟩ | ⟨m₀, -, -, rfl⟩ | ⟨-, rfl⟩
    · exact .inl ⟨fun hid => absurd hid.symm (of_decide_eq_false hother), m, hold, .refl m⟩
    · exact .inr ⟨attributes, pushedAt, hattributes, hpushed, now, m₀.observeAttemptedAt, rfl⟩
    · exact .inr ⟨attributes, pushedAt, hattributes, hpushed, now, none, rfl⟩

/-- **The step lemma.**  A row was written by the operation, or is of the fetch it was of before, and the
operation is no fetch of another source. -/
theorem Operation.commit_projection (op : Operation)
    (hm : m ∈ (op.commit k c).tables.repositoryMetadata) :
    (op.SameSource k m.repositoryId m.contentHash c ∧
      ∃ m₀ ∈ c.tables.repositoryMetadata, m₀.Refreshes m) ∨ op.Fetched k m := by
  have hother : op.leaves .repositoryMetadata = true →
      ∃ m₀ ∈ c.tables.repositoryMetadata, m₀.Refreshes m := by
    intro hleaves
    have hrows : (op.commit k c).tables.repositoryMetadata = c.tables.repositoryMetadata :=
      op.rows_commit k c .repositoryMetadata hleaves
    exact ⟨m, hrows ▸ hm, .refl m⟩
  cases op with
  | applyFreshSource revisionId now repositoryId body etag readme readmeEtag =>
    by_cases hsucceeds : (GithubCatalog.applyFreshSource k revisionId now repositoryId body etag readme
        readmeEtag).succeeds c = true
    · obtain ⟨out, hok⟩ := Tx.ok_of_succeeds hsucceeds
      rcases applyFreshSource_projection hok hm with ⟨hsource, hkept⟩ | hfetched
      · exact .inl ⟨fun hid _ => hsource hid, hkept⟩
      · exact .inr hfetched
    · have hcommit : Operation.commit k c
          (.applyFreshSource revisionId now repositoryId body etag readme readmeEtag) = c := by
        rcases Tx.commit_cases (GithubCatalog.applyFreshSource k revisionId now repositoryId body etag
          readme readmeEtag) c with ⟨out, hok⟩ | hsame
        · exact absurd (by rw [Tx.succeeds, hok]; rfl) hsucceeds
        · exact hsame
      rw [hcommit] at hm
      exact .inl ⟨fun _ h => absurd h hsucceeds, m, hm, .refl m⟩
  | applyNotModified now repositoryId =>
    exact .inl ⟨trivial, (relates_refreshed_touchFetchedAt now repositoryId).commit c m hm⟩
  | recordObservationAttempt now repositoryId =>
    have hrefreshed : Tx.Relates ProjectionsRefreshed
        (GithubCatalog.recordObservationAttempt now repositoryId) :=
      relates_refreshed_update fun m => ⟨m.fetchedAt, some now, rfl⟩
    exact .inl ⟨trivial, hrefreshed.commit c m hm⟩
  | eraseAccount now owner operation =>
    refine .inl ⟨trivial, ?_⟩
    refine Tx.relates_commit (R := ProjectionsRefreshed) (fun _ c' h m hm => ?_) m hm
    have hsame : c'.tables.repositoryMetadata = (erased now owner c.tables).repositoryMetadata :=
      eraseAccountInTx_erased h .repositoryMetadata (by decide)
    rw [hsame] at hm
    exact ⟨m, (mem_deleteWhere.mp hm).1, .refl m⟩
  | _ => exact .inl ⟨trivial, hother rfl⟩

theorem step_projection (op : Operation) (hm : m ∈ (step k c op).tables.repositoryMetadata) :
    (op.SameSource k m.repositoryId m.contentHash c ∧
      ∃ m₀ ∈ c.tables.repositoryMetadata, m₀.Refreshes m) ∨ op.Fetched k m := by
  unfold step at hm
  split at hm
  · exact op.commit_projection hm
  · next hrefused =>
    refine .inl ⟨?_, m, hm, .refl m⟩
    cases op with
    | applyFreshSource => exact absurd rfl hrefused
    | _ => trivial

/-- The induction is on the end of the history: the fetch of a row stays where it is. -/
theorem lastFetch_run (k : Contracts) (history : List Operation) :
    ∀ m ∈ (runFrom (step k) emptyCatalog history).tables.repositoryMetadata,
      ∃ (before : List Operation) (fetch : Operation) (after : List Operation),
        history = before ++ fetch :: after ∧ fetch.Fetched k m ∧
        ∀ (n : ℕ) (op : Operation), after[n]? = some op → op.SameSource k m.repositoryId m.contentHash
          (runFrom (step k) emptyCatalog (before ++ fetch :: after.take n)) := by
  induction history using List.reverseRecOn with
  | nil => exact List.forall_mem_nil _
  | append_singleton history op ih =>
    intro m hm
    rw [runFrom_append, runFrom_cons, runFrom_nil] at hm
    rcases step_projection op hm with ⟨hsource, m₀, hm₀, hrefreshed⟩ | hfetched
    · obtain ⟨before, fetch, after, rfl, hfetched, hlater⟩ := ih m₀ hm₀
      refine ⟨before, fetch, after ++ [op], by simp, hfetched.refreshes hrefreshed,
        fun n later hn => ?_⟩
      rcases Nat.lt_or_ge n after.length with hlt | hge
      · rw [List.getElem?_append_left hlt] at hn
        rw [List.take_append_of_le_length hlt.le, hrefreshed.repositoryId, hrefreshed.contentHash]
        exact hlater n later hn
      · rw [List.getElem?_append_right hge, List.getElem?_singleton] at hn
        split at hn
        · next hzero =>
          have hlast : n = after.length := by omega
          rw [← Option.some.inj hn, hlast, List.take_left]
          exact hsource
        · cases hn
    · exact ⟨history, op, [], rfl, hfetched, fun _ _ hn => by cases hn⟩

/-- What a conditional request is made with. -/
theorem storedValidators_fetched {op : Operation} (h : op.Fetched k m)
    (hm : m ∈ c.tables.repositoryMetadata) :
    storedValidators m.repositoryId c.tables = op.validators k := by
  cases op with
  | applyFreshSource =>
    obtain ⟨_, _, -, -, _, _, rfl⟩ := h
    rw [storedValidators, find?_projection hm]
    rfl
  | _ => exact h.elim

end projections

/-- **A projection is the last fetch of another source.**  After any history, a row is that of one fetch of
it, with refreshed times: every later fetch of the repository that succeeded was of the same source.  And
the validators of the next conditional request are the two that this fetch was given, with the README
revision it stored. -/
theorem projection_lastFetch (k : Contracts) (history : List Operation) :
    ∀ m ∈ (runFrom (step k) emptyCatalog history).tables.repositoryMetadata,
      ∃ (before : List Operation) (fetch : Operation) (after : List Operation),
        history = before ++ fetch :: after ∧ fetch.Fetched k m ∧
        (∀ (n : ℕ) (op : Operation), after[n]? = some op → op.SameSource k m.repositoryId m.contentHash
          (runFrom (step k) emptyCatalog (before ++ fetch :: after.take n))) ∧
        storedValidators m.repositoryId (runFrom (step k) emptyCatalog history).tables =
          fetch.validators k := by
  intro m hm
  obtain ⟨before, fetch, after, hhistory, hfetched, hlater⟩ := lastFetch_run k history m hm
  exact ⟨before, fetch, after, hhistory, hfetched, hlater, storedValidators_fetched hfetched hm⟩

/-- A fetch with both validators, its source again under other ones, and a not-modified answer. -/
def refreshedProjection : List Operation :=
  [.upsertRepository 5 7, .applyFreshSource 20 0 5 watchedBody (some "a") bareReadme (some "b"),
    .applyFreshSource 21 1 5 watchedBody (some "c") bareReadme none, .applyNotModified 2 5]

theorem projection_lastFetch_refreshed :
    ∃ (before : List Operation) (fetch : Operation) (after : List Operation),
      refreshedProjection = before ++ fetch :: after ∧
        storedValidators 5 (runFrom (step commandContracts) emptyCatalog refreshedProjection).tables =
          fetch.validators commandContracts := by
  obtain ⟨m, hm, hid⟩ : ∃ m ∈ (runFrom (step commandContracts) emptyCatalog
      refreshedProjection).tables.repositoryMetadata, m.repositoryId = 5 := by
    decide +kernel
  obtain ⟨before, fetch, after, hhistory, -, -, hvalidators⟩ :=
    projection_lastFetch commandContracts refreshedProjection m hm
  exact ⟨before, fetch, after, hhistory, hid ▸ hvalidators⟩

end GithubCatalog
