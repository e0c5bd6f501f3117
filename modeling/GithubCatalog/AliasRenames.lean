import GithubCatalog.AliasNames
import GithubCatalog.AliasResolution
import GithubCatalog.RepositoryWrites

/-!
# The names of repositories upstream and in the catalog

Snapshots, incremental scans, list snapshots, observations and actions each catalogue the repository
they see and then claim its `owner/name` path.

* `UpstreamNames` - which path belongs to which repository; a path belongs to one at most;
* `Sighting` - a flow sees a repository under its current path;
* `NameWorld` - the catalog, the provider and the path each repository was last seen under.

No flow ever supersedes a path: listings pass no superseded value, and `observe_repository` passes the
observed value, which `apply_alias_observation` drops.  So the catalog follows the provider as long as
no sighting brings a new path for a repository that is live under another.
-/

namespace GithubCatalog

open Relational Transact Runs

/-! ### Paths -/

/-- An `owner/name` path: one separator, both halves non-empty. -/
def isPath (fullName : String) : Bool := (listedAlias fullName).isSome

theorem eq_of_splitOnce {sep : Char} {text left right : String}
    (h : splitOnce sep text = some (left, right)) :
    text.toList = left.toList ++ sep :: right.toList := by
  unfold splitOnce at h
  split at h
  · cases h
  · next c rest hdrop =>
    obtain ⟨rfl, rfl⟩ := Prod.mk.inj (Option.some.inj h)
    have hsep : c = sep := by
      have hhead := List.head?_dropWhile_not (· ≠ sep) text.toList
      simp only [hdrop, List.head?_cons] at hhead
      simpa using hhead
    subst hsep
    rw [String.toList_ofList, String.toList_ofList, ← hdrop, List.takeWhile_append_dropWhile]

theorem listedAlias_of_isPath {fullName : String} (h : isPath fullName = true) :
    listedAlias fullName = some fullName := by
  obtain ⟨value, hvalue⟩ := Option.isSome_iff_exists.mp h
  rw [hvalue]
  unfold listedAlias at hvalue
  split at hvalue
  · split at hvalue
    · cases hvalue
    · exact hvalue.symm
  · cases hvalue

/-- A path is what a body of that full name is known by. -/
theorem ownerNameValue_of_isPath {fullName : String} (h : isPath fullName = true) :
    ownerNameValue fullName = some fullName := by
  have hlisted := listedAlias_of_isPath h
  cases hsplit : splitOnce '/' fullName with
  | none => simp only [listedAlias, hsplit, reduceCtorEq] at hlisted
  | some halves =>
    obtain ⟨owner, name⟩ := halves
    simp only [listedAlias, hsplit] at hlisted
    split at hlisted
    · cases hlisted
    · next hhalves =>
      have hjoined : owner ++ "/" ++ name = fullName := by
        apply String.toList_injective
        rw [eq_of_splitOnce hsplit]
        simp
      simp only [Bool.or_eq_true, not_or] at hhalves
      simp only [ownerNameValue, hsplit, hhalves.1.1, hhalves.1.2, hjoined, Bool.or_self,
        Bool.false_eq_true, if_false]

/-! ### Sightings -/

/-- The paths of the provider at one time. -/
structure UpstreamNames where
  name : ℤ → Option String
  paths : ∀ pid path, name pid = some path → isPath path = true
  unique : ∀ pid pid' path, name pid = some path → name pid' = some path → pid = pid'

/-- The flows that see repositories. -/
inductive SightingFlow where
  /-- `record_page` of a snapshot, or `ingest_window` of an incremental scan. -/
  | listing
  /-- `record_page` of a list snapshot. -/
  | listEntry
  /-- `observe_repository`, for the alias it was asked. -/
  | requested (requestedValue : String)
  /-- `execute_catalog_action`. -/
  | acted
deriving DecidableEq

structure Sighting where
  ids : ℕ → Uuid
  now : Time
  flow : SightingFlow
  providerRepositoryId : ℤ

namespace Sighting

def observe (s : Sighting) (superseded : Option String) (observed : String) : Tx Uuid :=
  applyAliasObservation (fun n => s.ids (n + 1)) s.now s.providerRepositoryId .ownerName superseded
    observed

/-- The alias transaction of the flow, for a body that carries `fullName`. -/
def claim (s : Sighting) (fullName : String) (repositoryId : Uuid) : Tx Unit :=
  match s.flow with
  | .listing =>
    match ownerNameValue fullName with
    | some value => do
      let _ ← s.observe none value
    | none => pure ()
  | .listEntry =>
    match listedAlias fullName with
    | some value => do
      let _ ← s.observe none value
    | none => pure ()
  | .requested requestedValue => do
    let observed := ownerNameValue fullName
    let _ ← s.observe (observed.filter (· ≠ requestedValue)) (observed.getD requestedValue)
  | .acted => recordAlias (s.ids 1) s.now repositoryId .ownerName fullName

/-- The transactions of the flow: the repository, then its alias.  The second may fail alone. -/
def see (s : Sighting) (fullName : String) (c : Catalog) : Except CatalogError Uuid × Catalog :=
  match upsertRepository (s.ids 0) s.providerRepositoryId c with
  | .error e => (.error e, c)
  | .ok (r, c₁) =>
    match s.claim fullName r c₁ with
    | .error e => (.error e, c₁)
    | .ok ((), c₂) => (.ok r, c₂)

end Sighting

/-- Operations of the flows that write no path. -/
def Operation.namesNothing : Operation → Bool
  | .recordAlias _ _ _ kind _ => decide (kind ≠ .ownerName)
  | .applyAliasObservation .. => false
  | .importLegacy .. => false
  | .eraseAccount .. => false
  | _ => true

/-- What happens: the provider renames, transfers or creates, a flow sees a repository, or an
operation of some flow writes no path. -/
inductive NameEvent where
  | upstream (u : UpstreamNames)
  | sighting (s : Sighting)
  | other (op : Operation) (h : op.namesNothing = true)

/-- The catalog, the provider, and the path each repository was last seen under. -/
structure NameWorld where
  catalog : Catalog
  upstream : UpstreamNames
  lastSeen : ℤ → Option String

namespace NameWorld

def start (u : UpstreamNames) : NameWorld := ⟨emptyCatalog, u, fun _ => none⟩

def step (k : Contracts) (w : NameWorld) : NameEvent → NameWorld
  | .upstream u => { w with upstream := u }
  | .sighting s =>
    match w.upstream.name s.providerRepositoryId with
    | none => w
    | some path =>
      match s.see path w.catalog with
      | (.ok _, c) =>
        { w with
          catalog := c
          lastSeen := Function.update w.lastSeen s.providerRepositoryId (some path) }
      | (.error _, c) => { w with catalog := c }
  | .other op _ => { w with catalog := GithubCatalog.step k w.catalog op }

end NameWorld

/-- The path is a live alias of the repository. -/
def goesBy (r : Uuid) (path : String) (db : Database) : Prop :=
  ∃ a ∈ db.repositoryAliases, a.holds .ownerName path = true ∧ a.repositoryId = r

instance (r : Uuid) (path : String) (db : Database) : Decidable (goesBy r path db) :=
  inferInstanceAs (Decidable (∃ a ∈ db.repositoryAliases, _))

/-- A sighting that brings a new path, which no other repository holds, for a repository that is live
under another path. -/
def NameEvent.renames (w : NameWorld) : NameEvent → Bool
  | .sighting s =>
    match w.upstream.name s.providerRepositoryId with
    | none => false
    | some path => w.catalog.tables.repositories.any fun q =>
      decide (q.providerRepositoryId = s.providerRepositoryId) &&
        (w.catalog.tables.repositoryAliases.any fun a =>
          a.holds .ownerName a.aliasValue && decide (a.repositoryId = q.repositoryId) &&
            decide (a.aliasValue ≠ path)) &&
        !(w.catalog.tables.repositoryAliases.any fun a =>
          a.holds .ownerName path && decide (a.repositoryId ≠ q.repositoryId))
  | _ => false

/-! ### What a claim changes -/

section claims

variable {fresh : Uuid} {now : Time} {r id : Uuid} {kind : AliasKind} {value : String}
  {t t' : List RepositoryAlias}

/-- A claim adds one live alias and takes none away. -/
theorem Claimed.live_iff (h : Claimed fresh now r kind value t t' id) {r' : Uuid}
    {kind' : AliasKind} {value' : String} :
    (∃ a ∈ t', a.holds kind' value' = true ∧ a.repositoryId = r') ↔
      (∃ a ∈ t, a.holds kind' value' = true ∧ a.repositoryId = r') ∨
        (r' = r ∧ kind' = kind ∧ value' = value) := by
  constructor
  · rintro ⟨b, hb, hlive, rfl⟩
    cases h with
    | live ha hlive' hown => exact .inl ⟨b, hb, hlive, rfl⟩
    | returned hfree ha hdormant =>
      obtain ⟨a, ha', rfl⟩ := mem_updateWhere.mp hb
      by_cases hd : a.dormant r kind value = true
      · rw [if_pos hd] at hlive ⊢
        obtain ⟨hname, -⟩ := RepositoryAlias.dormant_iff.mp hd
        obtain ⟨hrepo, hkind, hvalue⟩ := by simpa [RepositoryAlias.name] using hname
        obtain ⟨hkind', hvalue', -⟩ := RepositoryAlias.holds_iff.mp hlive
        exact .inr ⟨hrepo, hkind'.symm.trans hkind, hvalue'.symm.trans hvalue⟩
      · rw [if_neg hd] at hlive ⊢
        exact .inl ⟨a, ha', hlive, rfl⟩
    | inserted hfree hnew =>
      rw [List.mem_append, List.mem_singleton] at hb
      rcases hb with hb | rfl
      · exact .inl ⟨b, hb, hlive, rfl⟩
      · obtain ⟨hkind, hvalue, -⟩ := RepositoryAlias.holds_iff.mp hlive
        exact .inr ⟨rfl, hkind.symm, hvalue.symm⟩
  · rintro (⟨a, ha, hlive, rfl⟩ | ⟨rfl, rfl, rfl⟩)
    · cases h with
      | live ha' hlive' hown => exact ⟨a, ha, hlive, rfl⟩
      | returned hfree ha' hdormant =>
        have hawake : ¬ a.dormant r kind value = true := fun hd =>
          (RepositoryAlias.dormant_iff.mp hd).2 (RepositoryAlias.holds_iff.mp hlive).2.2
        exact ⟨a, mem_updateWhere.mpr ⟨a, ha, if_neg hawake⟩, hlive, rfl⟩
      | inserted hfree hnew => exact ⟨a, List.mem_append_left _ ha, hlive, rfl⟩
    · obtain ⟨a, ha, hlive, hrepo, -⟩ := h.row
      exact ⟨a, ha, hlive, hrepo⟩

/-- A claimed value was live with no other repository. -/
theorem Claimed.eq_of_holds {db : Database} (hkeys : Keys db)
    (h : Claimed fresh now r kind value db.repositoryAliases t' id) {a : RepositoryAlias}
    (ha : a ∈ db.repositoryAliases) (hlive : a.holds kind value = true) : a.repositoryId = r := by
  cases h with
  | live ha' hlive' hown => rw [GithubCatalog.eq_of_holds hkeys ha ha' hlive hlive', hown]
  | returned hfree _ _ | inserted hfree _ =>
    rw [hfree a ha] at hlive
    cases hlive

/-- A claim leaves the resolution of other values alone. -/
theorem Claimed.resolveAlias_other {db db' : Database}
    (h : Claimed fresh now r kind value db.repositoryAliases db'.repositoryAliases id)
    {value' : String} (hne : value' ≠ value) :
    resolveAlias kind value' db' = resolveAlias kind value' db := by
  have hrows : (db'.repositoryAliases.filter (·.named kind value')) =
      db.repositoryAliases.filter (·.named kind value') := by
    generalize db'.repositoryAliases = t' at h
    cases h with
    | live _ _ _ => rfl
    | returned _ _ _ =>
      refine filter_updateWhere_of_mem fun a _ hd => ?_
      have hvalue : a.aliasValue = value :=
        congrArg (·.2.2) (RepositoryAlias.dormant_iff.mp hd).1
      have hother : ¬ a.named kind value' = true := fun hnamed =>
        hne ((RepositoryAlias.named_iff.mp hnamed).2.symm.trans hvalue)
      exact ⟨Bool.eq_false_iff.mpr hother, Bool.eq_false_iff.mpr hother⟩
    | inserted _ _ =>
      have hother : ¬ (RepositoryAlias.mk fresh r kind value .active none now).named kind value' = true :=
        fun hnamed => hne (RepositoryAlias.named_iff.mp hnamed).2.symm
      rw [List.filter_append, List.filter_singleton, Bool.eq_false_iff.mpr hother]
      exact List.append_nil _
  rw [resolveAlias_eq, resolveAlias_eq, hrows]

end claims

/-! ### What a sighting changes -/

namespace Sighting

variable {s : Sighting} {path : String} {r : Uuid} {c c' : Catalog}

theorem observe_spec {old : Option String} {r' : Uuid} (h : s.observe old path c = .ok (r', c'))
    (hold : old.filter (· ≠ path) = none)
    (hrow : ∃ q ∈ c.tables.repositories, q.providerRepositoryId = s.providerRepositoryId ∧
      q.repositoryId = r) :
    (∃ fresh id, Claimed fresh s.now r .ownerName path c.tables.repositoryAliases
        c'.tables.repositoryAliases id) ∧
      c.tables.repositories ⊆ c'.tables.repositories := by
  have hobserved := applyAliasObservation_spec h
  obtain ⟨q, hq, hpid, hid⟩ := hrow
  obtain ⟨q', hq', hpid', hid'⟩ := hobserved.repository
  have hsame : q = q' := c'.valid.keys.repositories_provider.eq_of_mem (hobserved.repositories hq) hq'
    (hpid.trans hpid'.symm)
  have hr : r' = r := by rw [← hid', ← hsame, hid]
  obtain ⟨claimed, id, hclaimed, haliases⟩ := hobserved.aliases
  rw [hold] at haliases
  replace haliases : c'.tables.repositoryAliases = claimed.tables.repositoryAliases := haliases
  rw [hr, ← haliases] at hclaimed
  exact ⟨⟨_, id, hclaimed⟩, hobserved.repositories⟩

/-- `observe_repository` passes the observed value as the superseded one, and it is dropped. -/
theorem filter_observed (requestedValue : String) :
    ((some path).filter (· ≠ requestedValue)).filter (· ≠ path) = none := by
  by_cases hsame : path = requestedValue
  · simp [hsame]
  · simp [hsame]

/-- **The alias of a sighting.**  Whichever flow it is, a seen path is claimed and nothing is
superseded. -/
theorem claim_spec (hpath : isPath path = true)
    (hrow : ∃ q ∈ c.tables.repositories, q.providerRepositoryId = s.providerRepositoryId ∧
      q.repositoryId = r)
    (h : s.claim path r c = .ok ((), c')) :
    (∃ fresh id, Claimed fresh s.now r .ownerName path c.tables.repositoryAliases
        c'.tables.repositoryAliases id) ∧
      c.tables.repositories ⊆ c'.tables.repositories := by
  cases hflow : s.flow with
  | listing =>
    simp only [claim, hflow, ownerNameValue_of_isPath hpath] at h
    obtain ⟨r', c₁, h₁, h₂⟩ := Tx.bind_eq_ok.mp h
    obtain ⟨-, rfl⟩ := Tx.pure_eq_ok.mp h₂
    exact observe_spec h₁ rfl hrow
  | listEntry =>
    simp only [claim, hflow, listedAlias_of_isPath hpath] at h
    obtain ⟨r', c₁, h₁, h₂⟩ := Tx.bind_eq_ok.mp h
    obtain ⟨-, rfl⟩ := Tx.pure_eq_ok.mp h₂
    exact observe_spec h₁ rfl hrow
  | requested requestedValue =>
    simp only [claim, hflow, ownerNameValue_of_isPath hpath] at h
    obtain ⟨r', c₁, h₁, h₂⟩ := Tx.bind_eq_ok.mp h
    obtain ⟨-, rfl⟩ := Tx.pure_eq_ok.mp h₂
    exact observe_spec h₁ (filter_observed requestedValue) hrow
  | acted =>
    simp only [claim, hflow] at h
    obtain ⟨id, hclaimed⟩ := recordAlias_spec h
    refine ⟨⟨_, id, hclaimed⟩, ?_⟩
    rw [show c'.tables.repositories = c.tables.repositories from
      (touches_recordAlias _ _ _ _ _).rows_eq h (t := .repositories) (by decide)]
    exact List.Subset.refl _

end Sighting

/-! ### Conflicts -/

section conflicts

variable {fresh : Uuid} {now : Time} {r : Uuid} {kind : AliasKind} {value : String} {c : Catalog}

theorem reactivateAliasInTx_ne_conflict :
    reactivateAliasInTx fresh now r kind value c ≠ .error .liveAliasConflict := by
  refine Tx.bind_ne_error (Tx.ne_error_of_succeeds rfl) fun reactivated c₁ _ => ?_
  refine Tx.bind_ne_error (write_ne_error (by decide) _) fun _ c₂ _ => ?_
  cases reactivated with
  | some a => exact Tx.ne_error_of_succeeds rfl
  | none => exact Tx.bind_ne_error (write_ne_error (by decide) _) fun _ _ _ =>
      Tx.ne_error_of_succeeds rfl

theorem observedAliasInTx_ne_conflict
    (hown : ∀ a ∈ c.tables.repositoryAliases, a.holds kind value = true → a.repositoryId = r) :
    observedAliasInTx fresh now r kind value c ≠ .error .liveAliasConflict := by
  refine Tx.bind_ne_error (Tx.ne_error_of_succeeds rfl) fun holder c₁ h₁ => ?_
  obtain ⟨hholder, rfl⟩ := select_eq_ok.mp h₁
  cases holder with
  | none => exact reactivateAliasInTx_ne_conflict
  | some p =>
    obtain ⟨a, ha, hlive, -, hrepo⟩ := activeAliasHolder_eq_some hholder
    have hsame : ¬ p.2 ≠ r := not_not.mpr (hrepo.symm.trans (hown a ha hlive))
    simp only [if_neg hsame]
    exact Tx.ne_error_of_succeeds rfl

theorem recordAlias_ne_conflict
    (hown : ∀ a ∈ c.tables.repositoryAliases, a.holds kind value = true → a.repositoryId = r) :
    recordAlias fresh now r kind value c ≠ .error .liveAliasConflict := by
  refine Tx.bind_ne_error (Tx.ne_error_of_succeeds rfl) fun holder c₁ h₁ => ?_
  obtain ⟨hholder, rfl⟩ := select_eq_ok.mp h₁
  cases holder with
  | none => exact Tx.bind_ne_error reactivateAliasInTx_ne_conflict fun _ _ _ =>
      Tx.ne_error_of_succeeds rfl
  | some p =>
    obtain ⟨a, ha, hlive, -, hrepo⟩ := activeAliasHolder_eq_some hholder
    have hsame : ¬ p.2 ≠ r := not_not.mpr (hrepo.symm.trans (hown a ha hlive))
    simp only [if_neg hsame]
    exact Tx.ne_error_of_succeeds rfl

/-- The rows of a value are the repository's own where no other repository holds it. -/
theorem eq_of_not_heldByOther {pid : ℤ} {c' : Catalog} (hother : ¬ heldByOther pid kind value c.tables)
    (haliases : c'.tables.repositoryAliases = c.tables.repositoryAliases)
    (hsubset : c.tables.repositories ⊆ c'.tables.repositories)
    (hrow : ∃ q ∈ c'.tables.repositories, q.providerRepositoryId = pid ∧ q.repositoryId = r) :
    ∀ a ∈ c'.tables.repositoryAliases, a.holds kind value = true → a.repositoryId = r := by
  intro a ha hlive
  obtain ⟨q, hq, hpid, hid⟩ := hrow
  rw [haliases] at ha
  by_contra hne
  refine hother ⟨a, ha, hlive, fun q' hq' hpid' heq => hne ?_⟩
  have hsame : q' = q := c'.valid.keys.repositories_provider.eq_of_mem (hsubset hq') hq
    (hpid'.trans hpid.symm)
  rw [← heq, hsame, hid]

theorem applyAliasObservation_ne_conflict {ids : ℕ → Uuid} {pid : ℤ} {old : Option String}
    (hother : ¬ heldByOther pid kind value c.tables) :
    applyAliasObservation ids now pid kind old value c ≠ .error .liveAliasConflict := by
  refine Tx.bind_ne_error (upsertRepositoryInTx_ne_error _ _ (by simp) c) fun r c₁ h₁ => ?_
  obtain ⟨hrow, hsubset⟩ := upsertRepositoryInTx_row h₁
  have haliases : c₁.tables.repositoryAliases = c.tables.repositoryAliases :=
    (touches_upsertRepositoryInTx _ _).rows_eq h₁ (t := .repositoryAliases) (by decide)
  have hown := eq_of_not_heldByOther hother haliases hsubset hrow
  refine Tx.bind_ne_error (observedAliasInTx_ne_conflict hown) fun id c₂ _ => ?_
  cases old.filter (· ≠ value) with
  | none => exact Tx.ne_error_of_succeeds rfl
  | some oldValue => exact Tx.bind_ne_error (write_ne_error (by decide) _) fun _ _ _ =>
      Tx.ne_error_of_succeeds rfl

end conflicts

namespace Sighting

variable {s : Sighting} {path : String} {r : Uuid} {c c' : Catalog}

theorem claim_ne_conflict (hpath : isPath path = true)
    (hrow : ∃ q ∈ c.tables.repositories, q.providerRepositoryId = s.providerRepositoryId ∧
      q.repositoryId = r)
    (hother : ¬ heldByOther s.providerRepositoryId .ownerName path c.tables) :
    s.claim path r c ≠ .error .liveAliasConflict := by
  have hobserve : ∀ old, (s.observe old path >>= fun _ => pure () : Tx Unit) c ≠
      .error .liveAliasConflict := fun old =>
    Tx.bind_ne_error (applyAliasObservation_ne_conflict hother) fun _ _ _ =>
      Tx.ne_error_of_succeeds rfl
  cases hflow : s.flow with
  | listing =>
    simp only [claim, hflow, ownerNameValue_of_isPath hpath]
    exact hobserve none
  | listEntry =>
    simp only [claim, hflow, listedAlias_of_isPath hpath]
    exact hobserve none
  | requested requestedValue =>
    simp only [claim, hflow, ownerNameValue_of_isPath hpath]
    exact hobserve _
  | acted =>
    simp only [claim, hflow]
    exact recordAlias_ne_conflict (eq_of_not_heldByOther hother rfl (List.Subset.refl _) hrow)

/-- A sighting that succeeded. -/
theorem see_ok (hpath : isPath path = true) (h : s.see path c = (.ok r, c')) :
    (∃ q ∈ c'.tables.repositories, q.providerRepositoryId = s.providerRepositoryId ∧
        q.repositoryId = r) ∧
      c.tables.repositories ⊆ c'.tables.repositories ∧
      ∃ fresh id, Claimed fresh s.now r .ownerName path c.tables.repositoryAliases
        c'.tables.repositoryAliases id := by
  unfold see at h
  split at h
  · cases h
  · next r' c₁ hupsert =>
    split at h
    · cases h
    · next c₂ hclaim =>
      cases h
      obtain ⟨hrow, hsubset⟩ := upsertRepositoryInTx_row hupsert
      have haliases : c₁.tables.repositoryAliases = c.tables.repositoryAliases :=
        (touches_upsertRepositoryInTx _ _).rows_eq hupsert (t := .repositoryAliases) (by decide)
      obtain ⟨hclaimed, hsubset'⟩ := claim_spec hpath hrow hclaim
      obtain ⟨q, hq, hpid, hid⟩ := hrow
      rw [haliases] at hclaimed
      exact ⟨⟨q, hsubset' hq, hpid, hid⟩, List.Subset.trans hsubset hsubset', hclaimed⟩

/-- A sighting that failed may have catalogued its repository. -/
theorem see_error {e : CatalogError} (h : s.see path c = (.error e, c')) :
    c'.tables.repositoryAliases = c.tables.repositoryAliases ∧
      c.tables.repositories ⊆ c'.tables.repositories := by
  unfold see at h
  split at h
  · cases h
    exact ⟨rfl, List.Subset.refl _⟩
  · next r' c₁ hupsert =>
    split at h
    · cases h
      exact ⟨(touches_upsertRepositoryInTx _ _).rows_eq hupsert (t := .repositoryAliases) (by decide),
        (upsertRepositoryInTx_row hupsert).2⟩
    · cases h

theorem see_ne_conflict (hpath : isPath path = true)
    (hother : ¬ heldByOther s.providerRepositoryId .ownerName path c.tables) :
    (s.see path c).1 ≠ .error .liveAliasConflict := by
  intro h
  unfold see at h
  split at h
  · next e hupsert =>
    cases h
    exact upsertRepositoryInTx_ne_error _ _ (by simp) c hupsert
  · next r c₁ hupsert =>
    split at h
    · next e hclaim =>
      cases h
      obtain ⟨hrow, hsubset⟩ := upsertRepositoryInTx_row hupsert
      have haliases : c₁.tables.repositoryAliases = c.tables.repositoryAliases :=
        (touches_upsertRepositoryInTx _ _).rows_eq hupsert (t := .repositoryAliases) (by decide)
      refine claim_ne_conflict hpath hrow ?_ hclaim
      rintro ⟨a, ha, hlive, hforeign⟩
      rw [haliases] at ha
      exact hother ⟨a, ha, hlive, fun q hq => hforeign q (hsubset hq)⟩
    · cases h

end Sighting

/-! ### The catalog follows the provider -/

/-- A repository has one live path at most, the one it was last seen under. -/
structure NamesCurrent (w : NameWorld) : Prop where
  once : ∀ a ∈ w.catalog.tables.repositoryAliases, ∀ b ∈ w.catalog.tables.repositoryAliases,
    a.holds .ownerName a.aliasValue = true → b.holds .ownerName b.aliasValue = true →
      a.repositoryId = b.repositoryId → a = b
  lastSeen : ∀ q ∈ w.catalog.tables.repositories, ∀ path,
    goesBy q.repositoryId path w.catalog.tables ↔ w.lastSeen q.providerRepositoryId = some path

/-- What a sighting owes.  A path that was asked for and is not the one the body carries is no longer
live for the repository, and still resolves to it; a path under which no other repository was last
seen is claimed without conflict. -/
structure SightingMeets (w : NameWorld) (s : Sighting) : Prop where
  requested : ∀ requestedValue path r c', s.flow = .requested requestedValue →
    w.upstream.name s.providerRepositoryId = some path → path ≠ requestedValue →
    s.see path w.catalog = (.ok r, c') →
      ¬ goesBy r requestedValue c'.tables ∧
        (resolveAlias .ownerName requestedValue w.catalog.tables = some r →
          resolveAlias .ownerName requestedValue c'.tables = some r)
  claimable : ∀ path, w.upstream.name s.providerRepositoryId = some path →
    (∀ pid, pid ≠ s.providerRepositoryId → w.lastSeen pid ≠ some path) →
      (s.see path w.catalog).1 ≠ .error .liveAliasConflict

/-- The invariant: `NamesCurrent`, and only catalogued repositories were seen. -/
structure NamesFollowed (w : NameWorld) : Prop where
  live : ∀ q ∈ w.catalog.tables.repositories, ∀ path,
    goesBy q.repositoryId path w.catalog.tables ↔ w.lastSeen q.providerRepositoryId = some path
  known : ∀ pid path, w.lastSeen pid = some path →
    ∃ q ∈ w.catalog.tables.repositories, q.providerRepositoryId = pid

namespace NamesFollowed

variable {w : NameWorld} {s : Sighting} {path : String} {r : Uuid} {c' : Catalog}

theorem namesCurrent (h : NamesFollowed w) : NamesCurrent w where
  once a ha b hb hlive hlive' hrepo := by
    obtain ⟨q, hq, hid⟩ := List.mem_map.mp
      (w.catalog.valid.foreignKeys.aliases_repository a ha a.repositoryId rfl)
    have hseen := (h.live q hq a.aliasValue).mp ⟨a, ha, hlive, hid.symm⟩
    have hseen' := (h.live q hq b.aliasValue).mp ⟨b, hb, hlive', (hid.trans hrepo).symm⟩
    rw [hseen] at hseen'
    rw [← Option.some.inj hseen'] at hlive'
    exact eq_of_holds w.catalog.valid.keys ha hb hlive hlive'
  lastSeen := h.live

/-- The live paths of the repositories there are now, by the state before. -/
theorem live_before (h : NamesFollowed w) (hkeeps : KeepsIdentity w.catalog.tables c'.tables)
    {q : Repository} (hq : q ∈ c'.tables.repositories) {path : String} :
    goesBy q.repositoryId path w.catalog.tables ↔ w.lastSeen q.providerRepositoryId = some path := by
  constructor
  · rintro ⟨a, ha, hlive, hrepo⟩
    obtain ⟨q₀, hq₀, hid₀⟩ := List.mem_map.mp
      (w.catalog.valid.foreignKeys.aliases_repository a ha a.repositoryId rfl)
    obtain ⟨q', hq', hid', hpid'⟩ := hkeeps q₀ hq₀
    have hsame : q' = q := c'.valid.keys.repositories.eq_of_mem hq' hq
      (hid'.trans (hid₀.trans hrepo))
    rw [← hsame, hpid']
    exact (h.live q₀ hq₀ path).mp ⟨a, ha, hlive, hid₀.symm⟩
  · intro hseen
    obtain ⟨q₀, hq₀, hpid₀⟩ := h.known _ _ hseen
    obtain ⟨q', hq', hid', hpid'⟩ := hkeeps q₀ hq₀
    have hsame : q' = q := c'.valid.keys.repositories_provider.eq_of_mem hq' hq (hpid'.trans hpid₀)
    rw [← hsame, hid']
    refine (h.live q₀ hq₀ path).mpr ?_
    rw [hpid₀, hseen]

theorem known_after (h : NamesFollowed w) (hkeeps : KeepsIdentity w.catalog.tables c'.tables)
    {pid : ℤ} (hseen : w.lastSeen pid = some path) :
    ∃ q ∈ c'.tables.repositories, q.providerRepositoryId = pid := by
  obtain ⟨q, hq, hpid⟩ := h.known _ _ hseen
  obtain ⟨q', hq', -, hpid'⟩ := hkeeps q hq
  exact ⟨q', hq', hpid'.trans hpid⟩

/-- A step that leaves the live paths alone. -/
theorem of_kept (h : NamesFollowed w) (hkeeps : KeepsIdentity w.catalog.tables c'.tables)
    (hlive : ∀ r path, goesBy r path c'.tables ↔ goesBy r path w.catalog.tables) :
    NamesFollowed { w with catalog := c' } where
  live _ hq _ := (hlive _ _).trans (h.live_before hkeeps hq)
  known _ _ hseen := h.known_after hkeeps hseen

/-- The repository of a sighting that is no rename was live under the seen path or under none. -/
theorem eq_of_goesBy (hname : w.upstream.name s.providerRepositoryId = some path)
    (hquiet : NameEvent.renames w (.sighting s) = false)
    (hrow : ∃ q ∈ c'.tables.repositories, q.providerRepositoryId = s.providerRepositoryId ∧
      q.repositoryId = r)
    (hsubset : w.catalog.tables.repositories ⊆ c'.tables.repositories)
    {fresh id : Uuid} {now : Time}
    (hclaimed : Claimed fresh now r .ownerName path w.catalog.tables.repositoryAliases
      c'.tables.repositoryAliases id)
    {old : String} (hgoes : goesBy r old w.catalog.tables) : old = path := by
  obtain ⟨a, ha, hlive, hrepo⟩ := hgoes
  obtain ⟨q, hq, hpid, hid⟩ := hrow
  obtain ⟨q₀, hq₀, hid₀⟩ := List.mem_map.mp
    (w.catalog.valid.foreignKeys.aliases_repository a ha a.repositoryId rfl)
  have hsame : q₀ = q := c'.valid.keys.repositories.eq_of_mem (hsubset hq₀) hq
    (by rw [hid₀, hrepo, hid])
  subst hsame
  by_contra hne
  obtain ⟨-, hvalue, -⟩ := RepositoryAlias.holds_iff.mp hlive
  subst hvalue
  have hall : ¬ ∃ b ∈ w.catalog.tables.repositoryAliases, b.holds .ownerName path = true ∧
      b.repositoryId ≠ q₀.repositoryId := by
    rintro ⟨b, hb, hlive', hother⟩
    exact hother ((hclaimed.eq_of_holds w.catalog.valid.keys hb hlive').trans hid.symm)
  simp only [NameEvent.renames, hname] at hquiet
  refine List.any_eq_false.mp hquiet q₀ hq₀ ?_
  simp only [Bool.and_eq_true, decide_eq_true_eq, Bool.not_eq_true', List.any_eq_true]
  refine ⟨⟨hpid, a, ha, ⟨hlive, hid₀.symm⟩, hne⟩, ?_⟩
  rw [List.any_eq_false]
  intro b hb hboth
  rw [Bool.and_eq_true, decide_eq_true_eq] at hboth
  exact hall ⟨b, hb, hboth⟩

/-- **A sighting that is no rename.** -/
theorem seen (h : NamesFollowed w) (hname : w.upstream.name s.providerRepositoryId = some path)
    (hquiet : NameEvent.renames w (.sighting s) = false)
    (hsee : s.see path w.catalog = (.ok r, c')) :
    NamesFollowed { w with
      catalog := c'
      lastSeen := Function.update w.lastSeen s.providerRepositoryId (some path) } := by
  obtain ⟨hrow, hsubset, fresh, id, hclaimed⟩ := Sighting.see_ok (w.upstream.paths _ _ hname) hsee
  have hold : ∀ old, goesBy r old w.catalog.tables → old = path :=
    fun old => eq_of_goesBy hname hquiet hrow hsubset hclaimed
  obtain ⟨p, hp, hpid, hid⟩ := hrow
  have hkeeps : KeepsIdentity w.catalog.tables c'.tables := fun q hq => ⟨q, hsubset hq, rfl, rfl⟩
  have hlive : ∀ r' old, goesBy r' old c'.tables ↔ goesBy r' old w.catalog.tables ∨
      (r' = r ∧ old = path) := by
    intro r' old
    refine hclaimed.live_iff.trans (or_congr_right ?_)
    simp
  constructor
  · intro q hq old
    show goesBy q.repositoryId old c'.tables ↔
      Function.update w.lastSeen s.providerRepositoryId (some path) q.providerRepositoryId = some old
    rw [hlive]
    by_cases hsame : q.providerRepositoryId = s.providerRepositoryId
    · have heq : q = p := c'.valid.keys.repositories_provider.eq_of_mem hq hp (hsame.trans hpid.symm)
      rw [hsame, Function.update_self, heq, hid]
      constructor
      · rintro (hgoes | ⟨-, rfl⟩)
        · rw [hold old hgoes]
        · rfl
      · intro hsome
        exact .inr ⟨rfl, (Option.some.inj hsome).symm⟩
    · have hne : q.repositoryId ≠ r := by
        intro heq
        have hrow : q = p := c'.valid.keys.repositories.eq_of_mem hq hp (heq.trans hid.symm)
        exact hsame (by rw [hrow, hpid])
      rw [Function.update_of_ne hsame, ← h.live_before hkeeps hq]
      simp [hne]
  · intro pid old hseen
    by_cases hsame : pid = s.providerRepositoryId
    · exact ⟨p, hp, hpid.trans hsame.symm⟩
    · exact h.known_after hkeeps ((Function.update_of_ne hsame _ _).symm.trans hseen)

theorem sightingMeets (h : NamesFollowed w) (hquiet : NameEvent.renames w (.sighting s) = false) :
    SightingMeets w s where
  requested requestedValue path r c' _ hname hne hsee := by
    obtain ⟨hrow, hsubset, fresh, id, hclaimed⟩ := Sighting.see_ok (w.upstream.paths _ _ hname) hsee
    constructor
    · intro hgoes
      rcases hclaimed.live_iff.mp hgoes with hgoes | ⟨-, -, heq⟩
      · exact hne (eq_of_goesBy hname hquiet hrow hsubset hclaimed hgoes).symm
      · exact hne heq.symm
    · intro hresolved
      rw [hclaimed.resolveAlias_other hne.symm, hresolved]
  claimable path hname hunseen := by
    refine Sighting.see_ne_conflict (w.upstream.paths _ _ hname) ?_
    rintro ⟨a, ha, hlive, hforeign⟩
    obtain ⟨q, hq, hid⟩ := List.mem_map.mp
      (w.catalog.valid.foreignKeys.aliases_repository a ha a.repositoryId rfl)
    have hseen := (h.live q hq path).mp ⟨a, ha, hlive, hid.symm⟩
    exact hunseen q.providerRepositoryId (fun hpid => hforeign q hq hpid hid) hseen

/-- **The step lemma.** -/
theorem step (k : Contracts) (h : NamesFollowed w) (e : NameEvent) (hquiet : e.renames w = false) :
    NamesFollowed (w.step k e) := by
  cases e with
  | upstream u => exact ⟨h.live, h.known⟩
  | sighting s =>
    cases hname : w.upstream.name s.providerRepositoryId with
    | none =>
      simp only [NameWorld.step, hname]
      exact h
    | some path =>
      rcases hsee : s.see path w.catalog with ⟨e | r, c'⟩ <;>
        simp only [NameWorld.step, hname, hsee]
      · obtain ⟨haliases, hsubset⟩ := Sighting.see_error hsee
        refine h.of_kept (fun q hq => ⟨q, hsubset hq, rfl, rfl⟩) fun r path => ?_
        rw [goesBy, haliases]
        rfl
      · exact h.seen hname hquiet hsee
  | other op hother =>
    show NamesFollowed { w with catalog := GithubCatalog.step k w.catalog op }
    unfold GithubCatalog.step
    split
    · have herase : op.erases = false := by
        cases op with
        | eraseAccount => cases hother
        | _ => rfl
      refine h.of_kept (op.commit_keepsIdentity k w.catalog herase) fun r path => ?_
      have heffect := op.aliasEffect k w.catalog
      generalize op.commit k w.catalog = c' at heffect ⊢
      cases heffect with
      | kept haliases =>
        rw [goesBy, haliases]
        rfl
      | recorded _ hclaimed =>
        have hkind := of_decide_eq_true hother
        refine hclaimed.live_iff.trans (or_iff_left ?_)
        exact fun hsame => hkind hsame.2.1.symm
      | observed _ | imported _ | erased _ _ => cases hother
    · exact h

end NamesFollowed

/-- **The catalog follows the provider.**  In every history of upstream changes, sightings of the five
flows and other operations in which no sighting brings a new path for a repository that is live under
another, every repository is live under the path it was last seen under and no other, and every
sighting meets what it owes. -/
theorem names_follow_upstream (k : Contracts) (u : UpstreamNames) (history : List NameEvent)
    (h : Guarded (NameWorld.step k) (fun w e => e.renames w = false) (NameWorld.start u) history) :
    Throughout (NameWorld.step k) NamesCurrent (NameWorld.start u) history ∧
      Guarded (NameWorld.step k) (fun w e => ∀ s, e = .sighting s → SightingMeets w s)
        (NameWorld.start u) history := by
  have hstart : NamesFollowed (NameWorld.start u) := by
    constructor
    · intro q hq
      cases hq
    · intro pid path hseen
      cases hseen
  constructor
  · exact Throughout.mono (fun w hw => hw.namesCurrent)
      (throughout_of_guarded (fun w e hw hquiet => hw.step k e hquiet) hstart h)
  · refine guarded_of_step (P := NamesFollowed) ?_ hstart h
    intro w e hw hquiet
    refine ⟨hw.step k e hquiet, ?_⟩
    rintro s rfl
    exact hw.sightingMeets hquiet

/-- The provider with repository 101 and, where it has a path, repository 102. -/
def upstreamOf (path : String) (other : Option String)
    (h : isPath path = true ∧ other.all isPath = true ∧ other ≠ some path) : UpstreamNames where
  name pid := if pid = 101 then some path else if pid = 102 then other else none
  paths := by
    intro pid p hname
    split at hname
    · exact Option.some.inj hname ▸ h.1
    · split at hname
      · rw [hname] at h
        exact h.2.1
      · cases hname
  unique := by
    intro pid pid' p hname hname'
    grind

/-- A repository seen by one of the flows. -/
def sighted (n : ℕ) (pid : ℤ) (flow : SightingFlow) : Sighting :=
  ⟨fun i => BitVec.ofNat 128 (10 * n + i), n, flow, pid⟩

/-- Every flow sees a repository; repository 102 meets a path that repository 101 was last seen
under. -/
def followedHistory : List NameEvent :=
  [.sighting (sighted 1 101 .listing), .sighting (sighted 2 101 (.requested "a/x")),
    .upstream (upstreamOf "a/y" (some "a/x") (by decide)), .sighting (sighted 3 102 .listing),
    .upstream (upstreamOf "a/x" (some "b/z") (by decide)), .sighting (sighted 4 102 .listEntry),
    .sighting (sighted 5 102 .acted), .other (.trackRepository 60 6 102) rfl]

theorem names_follow_upstream_followed :
    let u := upstreamOf "a/x" none (by decide)
    Guarded (NameWorld.step sampleContracts) (fun w e => e.renames w = false) (NameWorld.start u)
        followedHistory ∧
      Throughout (NameWorld.step sampleContracts) NamesCurrent (NameWorld.start u) followedHistory ∧
      Guarded (NameWorld.step sampleContracts) (fun w e => ∀ s, e = .sighting s → SightingMeets w s)
        (NameWorld.start u) followedHistory := by
  intro u
  have hquiet : Guarded (NameWorld.step sampleContracts) (fun w e => e.renames w = false)
      (NameWorld.start u) followedHistory := by decide +kernel
  exact ⟨hquiet, names_follow_upstream sampleContracts u followedHistory hquiet⟩

/-- Repository 101 listed as `a/x`, renamed to `a/y`, and observed under the old path; then the old
path passes to repository 102. -/
def renamedHistory : List NameEvent :=
  [.sighting (sighted 1 101 .listing), .upstream (upstreamOf "a/y" none (by decide)),
    .sighting (sighted 2 101 (.requested "a/x")),
    .upstream (upstreamOf "a/y" (some "a/x") (by decide))]

/-- The observed rename supersedes nothing: both paths stay live with the repository, and the one that
upstream passed on cannot be claimed though the new name was observed. -/
theorem renamed_repository_keeps_old_name :
    let u := upstreamOf "a/x" none (by decide)
    let w := runFrom (NameWorld.step sampleContracts) (NameWorld.start u) renamedHistory
    ¬ NamesCurrent w ∧ w.lastSeen 101 = some "a/y" ∧ goesBy 10 "a/x" w.catalog.tables ∧
      goesBy 10 "a/y" w.catalog.tables ∧ w.upstream.name 102 = some "a/x" ∧
      ((sighted 3 102 .listing).see "a/x" w.catalog).1 = .error .liveAliasConflict := by
  intro u w
  have hrow : ∃ q ∈ w.catalog.tables.repositories, q.repositoryId = 10 ∧
      q.providerRepositoryId = 101 := by decide +kernel
  have hseen : w.lastSeen 101 = some "a/y" := by decide +kernel
  have hold : goesBy 10 "a/x" w.catalog.tables := by decide +kernel
  refine ⟨?_, hseen, hold, by decide +kernel, by decide +kernel, by decide +kernel⟩
  intro hcurrent
  obtain ⟨q, hq, hid, hpid⟩ := hrow
  have hlast := (hcurrent.lastSeen q hq "a/x").mp (hid ▸ hold)
  rw [hpid, hseen] at hlast
  exact absurd hlast (by decide)

end GithubCatalog
