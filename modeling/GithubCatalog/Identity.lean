import GithubCatalog.Transaction

/-!
# Stable repository identity and mutable aliases (`identity.rs`)

The numeric provider id is the stable identity of a repository; `owner/name` paths and URLs are
aliases that move.  The identifiers `Uuid::now_v7` would draw and the statement clock are arguments.
-/

namespace GithubCatalog

open Relational Transact

/-- `upsert_repository_in_tx`: find the repository of a provider id, or catalogue it. -/
def upsertRepositoryInTx (fresh : Uuid) (providerRepositoryId : ℤ) : Tx Uuid := do
  write .repositories fun db =>
    insertUnless (fun r => decide (r.providerRepositoryId = providerRepositoryId))
      ⟨fresh, providerRepositoryId, none⟩ db.repositories
  fetchOne fun db =>
    (db.repositories.find? fun r => decide (r.providerRepositoryId = providerRepositoryId)).map
      (·.repositoryId)

/-- `upsert_repository`. -/
def upsertRepository (fresh : Uuid) (providerRepositoryId : ℤ) : Tx Uuid :=
  upsertRepositoryInTx fresh providerRepositoryId

/-- The alias row a value is live under. -/
def RepositoryAlias.holds (kind : AliasKind) (value : String) (a : RepositoryAlias) : Bool :=
  decide (a.aliasKind = kind) && decide (a.aliasValue = value) && decide (a.status = .active)

/-- `active_alias_holder_in_tx`: the live alias row of a value, with its repository. -/
def activeAliasHolder (kind : AliasKind) (value : String) (db : Database) : Option (Uuid × Uuid) :=
  (db.repositoryAliases.find? (·.holds kind value)).map fun a => (a.aliasId, a.repositoryId)

/-- The rows `reactivate_alias_in_tx` updates. -/
def RepositoryAlias.dormant (repositoryId : Uuid) (kind : AliasKind) (value : String)
    (a : RepositoryAlias) : Bool :=
  decide (a.repositoryId = repositoryId) && decide (a.aliasKind = kind) &&
    decide (a.aliasValue = value) && decide (a.status ≠ .active)

/-- `reactivate_alias_in_tx`: bring back the repository's own row for the value, or insert one. -/
def reactivateAliasInTx (fresh : Uuid) (now : Time) (repositoryId : Uuid) (kind : AliasKind)
    (value : String) : Tx Uuid := do
  let reactivated ← select fun db => db.repositoryAliases.find? (·.dormant repositoryId kind value)
  write .repositoryAliases fun db =>
    updateWhere (·.dormant repositoryId kind value)
      (fun a => { a with status := .active, redirectTo := none }) db.repositoryAliases
  match reactivated with
  | some a => pure a.aliasId
  | none => do
    write .repositoryAliases fun db =>
      db.repositoryAliases ++ [⟨fresh, repositoryId, kind, value, .active, none, now⟩]
    pure fresh

/-- `record_alias`. -/
def recordAlias (fresh : Uuid) (now : Time) (repositoryId : Uuid) (kind : AliasKind)
    (value : String) : Tx Unit := do
  match ← select (activeAliasHolder kind value) with
  | some (_, holder) => if holder ≠ repositoryId then abort .liveAliasConflict else pure ()
  | none => do
    let _ ← reactivateAliasInTx fresh now repositoryId kind value

/-- `supersede_alias_in_tx`. -/
def supersedeAliasInTx (kind : AliasKind) (supersededValue : String) (redirectTo : Uuid) : Tx Unit :=
  write .repositoryAliases fun db =>
    updateWhere (·.holds kind supersededValue)
      (fun a => { a with status := .superseded, redirectTo := some redirectTo })
      db.repositoryAliases

/-- The alias row the observed value is live under after this step of `apply_alias_observation`. -/
def observedAliasInTx (fresh : Uuid) (now : Time) (repositoryId : Uuid) (kind : AliasKind)
    (observedValue : String) : Tx Uuid := do
  match ← select (activeAliasHolder kind observedValue) with
  | some (aliasId, holder) =>
    if holder ≠ repositoryId then abort .liveAliasConflict else pure aliasId
  | none => reactivateAliasInTx fresh now repositoryId kind observedValue

/-- `apply_alias_observation`: the observed value becomes the live alias of the repository, and the
superseded value stays resolvable as redirect history. -/
def applyAliasObservation (ids : ℕ → Uuid) (now : Time) (providerRepositoryId : ℤ) (kind : AliasKind)
    (supersededValue : Option String) (observedValue : String) : Tx Uuid := do
  let repositoryId ← upsertRepositoryInTx (ids 0) providerRepositoryId
  let aliasId ← observedAliasInTx (ids 1) now repositoryId kind observedValue
  match supersededValue.filter (· ≠ observedValue) with
  | some oldValue => supersedeAliasInTx kind oldValue aliasId
  | none => pure ()
  pure repositoryId

/-- `resolve_alias`: the live holder first, then the newest row of the value. -/
def resolveAlias (kind : AliasKind) (value : String) (db : Database) : Option Uuid :=
  let rows := db.repositoryAliases.filter fun a =>
    decide (a.aliasKind = kind) && decide (a.aliasValue = value)
  let best := rows.foldl (fun best a =>
    match best with
    | none => some a
    | some b =>
      if decide (a.status = .active) && decide (b.status ≠ .active) then some a
      else if (decide (a.status = .active) == decide (b.status = .active)) &&
          decide (b.createdAt < a.createdAt) then some a
      else some b) none
  best.map (·.repositoryId)

/-! ### Frames -/

theorem touches_upsertRepositoryInTx (fresh : Uuid) (pid : ℤ) :
    Touches [.repositories] (upsertRepositoryInTx fresh pid) :=
  (Touches.write (by decide) _).bind fun _ => Touches.fetchOne _

/-- A catalogued repository has a row. -/
theorem exists_of_upsertRepository {fresh : Uuid} {pid : ℤ} {c c' : Catalog} {id : Uuid}
    (h : upsertRepositoryInTx fresh pid c = .ok (id, c')) :
    ∃ q ∈ c'.tables.repositories, q.providerRepositoryId = pid := by
  obtain ⟨u, c₁, -, hfetch⟩ := Tx.bind_eq_ok.mp h
  obtain ⟨hread, rfl⟩ := fetchOne_eq_ok.mp hfetch
  obtain ⟨q, hfind, -⟩ := Option.map_eq_some_iff.mp hread
  have hpid := List.find?_some hfind
  exact ⟨q, List.mem_of_find?_eq_some hfind, of_decide_eq_true hpid⟩

/-- Cataloguing a repository is refused by the database or not at all. -/
theorem upsertRepositoryInTx_ne_error (fresh : Uuid) (pid : ℤ) {e : CatalogError}
    (he : ∀ fault, e ≠ .query fault) (c : Catalog) : upsertRepositoryInTx fresh pid c ≠ .error e :=
  Tx.bind_ne_error (write_ne_error (he _) c) fun _ c₁ _ => fetchOne_ne_error (he _) c₁

theorem touches_reactivateAliasInTx (fresh : Uuid) (now : Time) (r : Uuid) (kind : AliasKind)
    (value : String) :
    Touches [.repositoryAliases] (reactivateAliasInTx fresh now r kind value) := by
  refine (Touches.select _).bind fun reactivated => (Touches.write (by decide) _).bind fun _ => ?_
  cases reactivated with
  | some a => exact Touches.pure _
  | none => exact (Touches.write (by decide) _).bind fun _ => Touches.pure _

theorem touches_recordAlias (fresh : Uuid) (now : Time) (r : Uuid) (kind : AliasKind)
    (value : String) : Touches [.repositoryAliases] (recordAlias fresh now r kind value) := by
  refine (Touches.select _).bind fun holder => ?_
  cases holder with
  | some h =>
    show Touches _ (if h.2 ≠ r then abort .liveAliasConflict else pure ())
    split
    · exact Touches.abort _
    · exact Touches.pure _
  | none => exact (touches_reactivateAliasInTx fresh now r kind value).bind fun _ => Touches.pure _

theorem touches_observedAliasInTx (fresh : Uuid) (now : Time) (r : Uuid) (kind : AliasKind)
    (value : String) : Touches [.repositoryAliases] (observedAliasInTx fresh now r kind value) := by
  refine (Touches.select _).bind fun holder => ?_
  cases holder with
  | some h =>
    show Touches _ (if h.2 ≠ r then abort .liveAliasConflict else pure h.1)
    split
    · exact Touches.abort _
    · exact Touches.pure _
  | none => exact touches_reactivateAliasInTx fresh now r kind value

theorem touches_applyAliasObservation (ids : ℕ → Uuid) (now : Time) (pid : ℤ) (kind : AliasKind)
    (old : Option String) (value : String) :
    Touches [.repositories, .repositoryAliases]
      (applyAliasObservation ids now pid kind old value) := by
  refine ((touches_upsertRepositoryInTx _ _).mono (by decide)).bind fun r => ?_
  refine ((touches_observedAliasInTx _ _ _ _ _).mono (by decide)).bind fun aliasId => ?_
  cases old.filter (· ≠ value) with
  | some oldValue => exact (Touches.write (by decide) _).bind fun _ => Touches.pure _
  | none => exact (Touches.pure ()).bind fun _ => Touches.pure _

/-- **The rule of an alias observation.**  It keeps what cataloguing a repository and writing
aliases keep. -/
theorem relates_applyAliasObservation {R : Database → Database → Prop} [Std.Refl R]
    [IsTrans Database R] (ids : ℕ → Uuid) (now : Time) (pid : ℤ) (kind : AliasKind)
    (old : Option String) (value : String)
    (hrepo : Tx.Relates R (upsertRepositoryInTx (ids 0) pid))
    (hrest : ∀ {α : Type} (x : Tx α), Touches [.repositoryAliases] x → Tx.Relates R x) :
    Tx.Relates R (applyAliasObservation ids now pid kind old value) := by
  refine hrepo.bind fun r => ?_
  refine (hrest _ (touches_observedAliasInTx _ _ _ _ _)).bind fun aliasId => ?_
  cases old.filter (· ≠ value) with
  | some oldValue =>
    exact (hrest _ (Touches.write (by decide) _)).bind fun _ => Tx.Relates.pure _
  | none => exact Tx.Relates.bind (Tx.Relates.pure ()) fun _ => Tx.Relates.pure _

end GithubCatalog
