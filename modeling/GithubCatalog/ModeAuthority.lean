import GithubCatalog.ErasureFrame
import GithubCatalog.RepositoryWrites

/-!
# Who decides an explicit mode

Six statements of the service update the mode column.  Those of the synchronization flows and of the
star mutations are guarded by the current mode: star evidence promotes an unclassified repository to
`auto`, and an evidenced removal releases `auto`.  So a mode that a user decided, `tracked` or
`ignored`, is left alone by everything except the two functions that serve mode requests.

* `Repository.explicit` - the mode was decided by a user;
* `KeepsExplicit` - every repository with an explicit mode is still there, with that mode;
* `Operation.commit_keepsExplicit` - one operation; `explicit_mode_kept` - whole histories.
-/

namespace GithubCatalog

open Relational Runs Transact

/-- A mode that a user decided. -/
def Repository.explicit (r : Repository) : Bool :=
  decide (r.mode = some .tracked) || decide (r.mode = some .ignored)

/-- Star evidence says nothing about an explicit mode. -/
theorem Repository.promote_of_explicit {r : Repository} (h : r.explicit = true) : r.promote = r := by
  unfold Repository.promote
  rw [if_neg]
  intro hmode
  simp [Repository.explicit, hmode] at h

theorem Repository.release_of_explicit {r : Repository} (h : r.explicit = true) : r.release = r := by
  unfold Repository.release
  rw [if_neg]
  intro hmode
  simp [Repository.explicit, hmode] at h

/-- Every repository with an explicit mode is still there, with that mode. -/
def KeepsExplicit (db db' : Database) : Prop :=
  ∀ r ∈ db.repositories, r.explicit = true → r ∈ db'.repositories

instance : Std.Refl KeepsExplicit := ⟨fun _ _ hr _ => hr⟩

instance : IsTrans Database KeepsExplicit :=
  ⟨fun _ _ _ h h' r hr hexplicit => h' r (h r hr hexplicit) hexplicit⟩

theorem keepsExplicit_of_eq {db db' : Database} (h : db'.repositories = db.repositories) :
    KeepsExplicit db db' := by
  intro r hr _
  rw [h]
  exact hr

/-- A guarded update of modes keeps the explicit ones. -/
theorem keepsExplicit_updateWhere (db : Database) (p : Repository → Bool)
    {f : Repository → Repository} (hf : ∀ r, r.explicit = true → f r = r) :
    KeepsExplicit db (db.put .repositories (updateWhere p f db.repositories)) := by
  intro r hr hexplicit
  refine mem_updateWhere.mpr ⟨r, hr, ?_⟩
  split
  · exact hf r hexplicit
  · rfl

/-- Star evidence and new catalog entries leave explicit modes alone. -/
theorem keptByCataloguing_keepsExplicit : KeptByCataloguing KeepsExplicit where
  frame := keepsExplicit_of_eq
  upsert fresh pid := by
    refine Tx.Relates.bind (relates_write ?_) fun _ => relates_fetchOne _
    intro db _ r hr _
    show r ∈ insertUnless _ _ db.repositories
    rw [insertUnless]
    split
    · exact hr
    · exact List.mem_append_left _ hr
  promote p := relates_write fun db _ =>
    keepsExplicit_updateWhere db (p db) fun _ => Repository.promote_of_explicit
  release p := relates_write fun db _ =>
    keepsExplicit_updateWhere db (p db) fun _ => Repository.release_of_explicit

/-! ### Operations -/

namespace Operation

/-- **One operation.**  Everything but a mode request and an erasure keeps the explicit modes. -/
theorem commit_keepsExplicit (k : Contracts) (c : Catalog) (op : Operation)
    (hmode : op.decidesMode = false) (herase : op.erases = false) :
    KeepsExplicit c.tables (op.commit k c).tables :=
  commit_of_kept keptByCataloguing_keepsExplicit k c op hmode herase

/-- The repositories an erasure leaves were there before. -/
theorem mem_of_eraseAccount {k : Contracts} {c : Catalog} {now : Time} {owner : String}
    {operation : AccountErasureOperation} {r : Repository}
    (hr : r ∈ ((Operation.eraseAccount now owner operation).commit k c).tables.repositories) :
    r ∈ c.tables.repositories := by
  rcases Tx.commit_cases (eraseAccountInTx now owner operation) c with ⟨a, hok⟩ | hsame
  · obtain ⟨u, c₁, herase, hrest⟩ := Tx.bind_eq_ok.mp hok
    obtain ⟨v, c₂, hrequire, hwrite⟩ := Tx.bind_eq_ok.mp hrest
    obtain ⟨-, rfl⟩ := require_eq_ok.mp hrequire
    have hrows : (Tx.commit (eraseAccountInTx now owner operation) c).tables.repositories =
        c₁.tables.repositories := by
      rw [write_eq_ok.mp hwrite]
      rfl
    have hmem : r ∈ c₁.tables.repositories := hrows ▸ hr
    rw [eraseOwnerState_eq herase] at hmem
    exact (mem_erased_repositories.mp hmem).1
  · have hmem : r ∈ (Tx.commit (eraseAccountInTx now owner operation) c).tables.repositories := hr
    rw [hsame] at hmem
    exact hmem

/-- An operation that changes the explicit mode of a repository serves a mode request. -/
theorem decidesMode_of_change (k : Contracts) (c : Catalog) (op : Operation) {r r' : Repository}
    (hr : r ∈ c.tables.repositories) (hexplicit : r.explicit = true)
    (hr' : r' ∈ (op.commit k c).tables.repositories) (hid : r'.repositoryId = r.repositoryId)
    (hmode : r'.mode ≠ r.mode) : op.decidesMode = true := by
  by_contra hother
  rw [Bool.not_eq_true] at hother
  have hsame : r' = r := by
    cases op with
    | eraseAccount =>
      exact c.valid.keys.repositories.eq_of_mem (mem_of_eraseAccount hr') hr hid
    | _ =>
      have hkept := commit_keepsExplicit k c _ hother rfl r hr hexplicit
      exact (Operation.commit k c _).valid.keys.repositories.eq_of_mem hr' hkept hid
  exact hmode (by rw [hsame])

end Operation

theorem step_keepsExplicit (k : Contracts) (c : Catalog) (op : Operation)
    (hmode : op.decidesMode = false) (herase : op.erases = false) :
    KeepsExplicit c.tables (step k c op).tables := by
  unfold step
  split
  · exact op.commit_keepsExplicit k c hmode herase
  · exact Std.Refl.refl _

/-- **Explicit modes stand.**  Along every history of operations, by any accounts and with any
replies and failures, that serves no mode request and erases no account, a repository whose mode is
`tracked` or `ignored` stays catalogued with exactly that mode.  Whatever the operation, a change of
the explicit mode of a repository is the work of `track_repository` or `set_repository_mode`. -/
theorem explicit_mode_kept (k : Contracts) (c : Catalog) :
    (∀ history : List Operation,
      (∀ op ∈ history, op.decidesMode = false ∧ op.erases = false) →
      ∀ r ∈ c.tables.repositories, r.explicit = true →
        r ∈ (runFrom (step k) c history).tables.repositories) ∧
    ∀ op : Operation, ∀ r ∈ c.tables.repositories, r.explicit = true →
      ∀ r' ∈ (step k c op).tables.repositories, r'.repositoryId = r.repositoryId →
        r'.mode ≠ r.mode → op.decidesMode = true := by
  constructor
  · intro history
    induction history generalizing c with
    | nil => exact fun _ r hr _ => hr
    | cons op ops ih =>
      intro hops r hr hexplicit
      obtain ⟨hmode, herase⟩ := hops op List.mem_cons_self
      refine ih (step k c op) (fun o ho => hops o (List.mem_cons_of_mem _ ho)) r ?_ hexplicit
      exact step_keepsExplicit k c op hmode herase r hr hexplicit
  · intro op r hr hexplicit r' hr' hid hmode
    unfold step at hr'
    split at hr'
    · exact op.decidesMode_of_change k c hr hexplicit hr' hid hmode
    · exact absurd (congrArg Repository.mode (c.valid.keys.repositories.eq_of_mem hr' hr hid)) hmode

/-- A connected owner tracks repository 101. -/
def explicitCatalog : Catalog :=
  runFrom (step sampleContracts) emptyCatalog (connectOwners ++ [.trackRepository 50 0 101])

/-- The account stars and unstars it. -/
def starredAndUnstarred : List Operation :=
  [.persistConfirmedStar (fun n => 60 + BitVec.ofNat 128 n) 1 ⟨1, "owner-a", .web⟩ 101 "k1" .add,
    .persistConfirmedStar (fun n => 70 + BitVec.ofNat 128 n) 2 ⟨1, "owner-a", .web⟩ 101 "k2" .remove]

/-- The mode stands while the star comes and goes, and the change to `ignored` is a mode request. -/
theorem explicit_mode_kept_tracked :
    (⟨50, 101, some .tracked⟩ : Repository) ∈
      (runFrom (step sampleContracts) explicitCatalog starredAndUnstarred).tables.repositories ∧
    (Operation.setRepositoryMode (fun n => 80 + BitVec.ofNat 128 n) 3 ⟨1, "owner-a", .web⟩ 101 .ignored
      "k3").decidesMode = true := by
  have hr : (⟨50, 101, some .tracked⟩ : Repository) ∈ explicitCatalog.tables.repositories := by
    decide +kernel
  obtain ⟨hkept, hdecides⟩ := explicit_mode_kept sampleContracts explicitCatalog
  refine ⟨hkept starredAndUnstarred (by decide) _ hr (by decide), ?_⟩
  exact hdecides _ _ hr (by decide) ⟨50, 101, some .ignored⟩ (by decide +kernel) rfl (by decide)

end GithubCatalog
