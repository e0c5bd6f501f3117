import GithubCatalog.AliasTable
import GithubCatalog.RepositoryWrites

/-!
# Whose aliases rename evidence rewrites

`reactivate_alias_in_tx` selects rows by repository; `supersede_alias_in_tx` selects the live row of a
value, whoever holds it.  Evidence delivered again after its old name went to another repository takes
that name away from its new holder.

* `OnlyOwnRows` - a call changed the aliases of its own repository only;
* `AliasEvidence.crosses` - the superseded value is live with another repository;
* `Operation.concerns` - the operation observes the repository, or deletes it;
* `evidence_keeps_to_itself` - the frame of a call, and what its redelivery does.
-/

namespace GithubCatalog

open Relational Transact Runs

/-- The alias rows of a repository. -/
def aliasRows (r : Uuid) (db : Database) : List RepositoryAlias :=
  db.repositoryAliases.filter fun a => decide (a.repositoryId = r)

theorem mem_aliasRows {r : Uuid} {db : Database} {a : RepositoryAlias} :
    a ∈ aliasRows r db ↔ a ∈ db.repositoryAliases ∧ a.repositoryId = r := by
  simp [aliasRows]

/-- Only the rows of one repository changed. -/
def OnlyOwnRows (r : Uuid) (db db' : Database) : Prop :=
  ∀ other, other ≠ r → aliasRows other db' = aliasRows other db

/-- The superseded value is live with another repository than that of the evidence. -/
def AliasEvidence.crosses (e : AliasEvidence) (db : Database) : Bool :=
  (e.superseded.filter (· ≠ e.observed)).any fun old =>
    db.repositoryAliases.any fun a => a.holds e.kind old && !e.owns db a

/-! ### One call -/

section claims

variable {fresh : Uuid} {now : Time} {r id : Uuid} {kind : AliasKind} {value old : String}
  {t t' : List RepositoryAlias}

/-- A claim writes rows of its repository only. -/
theorem Claimed.filter_other (h : Claimed fresh now r kind value t t' id) {other : Uuid}
    (hne : other ≠ r) : (t'.filter fun a => decide (a.repositoryId = other)) =
      t.filter fun a => decide (a.repositoryId = other) := by
  cases h with
  | live ha hlive hown => rfl
  | returned hfree ha hdormant =>
    refine filter_updateWhere_of_mem fun a _ hd => ?_
    have hrepo : a.repositoryId = r := congrArg Prod.fst (RepositoryAlias.dormant_iff.mp hd).1
    have hother : ¬ a.repositoryId = other := by
      rw [hrepo]
      exact hne.symm
    exact ⟨decide_eq_false hother, decide_eq_false hother⟩
  | inserted hfree hnew =>
    rw [List.filter_append, List.filter_singleton, decide_eq_false hne.symm]
    exact List.append_nil _

/-- A claim leaves the live rows of other values alone. -/
theorem Claimed.mem_of_holds (h : Claimed fresh now r kind value t t' id) (hne : old ≠ value)
    {a : RepositoryAlias} (hlive : a.holds kind old = true) : a ∈ t' ↔ a ∈ t := by
  obtain ⟨hkind, hvalue, hactive⟩ := RepositoryAlias.holds_iff.mp hlive
  cases h with
  | live ha hlive hown => rfl
  | returned hfree ha hdormant =>
    have hawake : ∀ b : RepositoryAlias, b.dormant r kind value = true → b.reactivated ≠ a := by
      rintro b hd rfl
      obtain ⟨hname, -⟩ := RepositoryAlias.dormant_iff.mp hd
      exact hne (hvalue.symm.trans (congrArg (·.2.2) hname))
    rw [mem_updateWhere]
    constructor
    · rintro ⟨b, hb, hsame⟩
      by_cases hd : b.dormant r kind value = true
      · rw [if_pos hd] at hsame
        exact absurd hsame (hawake b hd)
      · rw [if_neg hd] at hsame
        exact hsame ▸ hb
    · intro hmem
      refine ⟨a, hmem, if_neg fun hd => ?_⟩
      exact (RepositoryAlias.dormant_iff.mp hd).2 hactive
  | inserted hfree hnew =>
    rw [List.mem_append, List.mem_singleton, or_iff_left]
    rintro rfl
    exact hne hvalue.symm

end claims

section calls

variable {e : AliasEvidence} {c c' : Catalog} {r : Uuid}

/-- **The frame of a call.**  It keeps to the rows of its repository exactly when the superseded value
is not live with another one. -/
theorem AliasObservation.onlyOwnRows_iff {fresh : Uuid}
    (hobserved : AliasObservation fresh e.now e.providerRepositoryId e.kind e.superseded e.observed
      c.tables c'.tables r) :
    OnlyOwnRows r c.tables c'.tables ↔ e.crosses c.tables = false := by
  obtain ⟨claimed, id, hclaimed, haliases⟩ := hobserved.aliases
  have howns : ∀ a ∈ c.tables.repositoryAliases, e.owns c.tables a = true ↔ a.repositoryId = r :=
    fun a ha => AliasEvidence.owns_iff hobserved ha
  cases hold : e.superseded.filter (· ≠ e.observed) with
  | none =>
    rw [hold] at haliases
    refine iff_of_true (fun other hne => ?_) ?_
    · rw [aliasRows, haliases]
      exact hclaimed.filter_other hne
    · rw [AliasEvidence.crosses, hold]
      rfl
  | some old =>
    have hne : old ≠ e.observed := of_decide_eq_true (Option.filter_eq_some_iff.mp hold).2
    rw [hold] at haliases
    have hcrosses : e.crosses c.tables =
        c.tables.repositoryAliases.any fun a => a.holds e.kind old && !e.owns c.tables a := by
      rw [AliasEvidence.crosses, hold]
      rfl
    rw [hcrosses, List.any_eq_false]
    constructor
    · intro hown a ha htaken
      rw [Bool.and_eq_true, Bool.not_eq_true'] at htaken
      obtain ⟨hlive, hforeign⟩ := htaken
      have hother : a.repositoryId ≠ r := by
        intro hrepo
        rw [(howns a ha).mpr hrepo] at hforeign
        cases hforeign
      -- The row of the other repository is live before and superseded after.
      have hmem : a ∈ aliasRows a.repositoryId c'.tables := by
        rw [hown _ hother]
        exact mem_aliasRows.mpr ⟨ha, rfl⟩
      have hkept := (mem_aliasRows.mp hmem).1
      rw [haliases] at hkept
      obtain ⟨b, -, hsame⟩ := mem_updateWhere.mp hkept
      by_cases hb : b.holds e.kind old = true
      · rw [if_pos hb] at hsame
        obtain ⟨-, -, hactive⟩ := RepositoryAlias.holds_iff.mp hlive
        rw [← hsame] at hactive
        cases hactive
      · rw [if_neg hb] at hsame
        exact hb (hsame ▸ hlive)
    · intro hfree other hother
      rw [aliasRows, haliases]
      refine Eq.trans (filter_updateWhere_of_mem fun a ha hlive => ?_) (hclaimed.filter_other hother)
      have hmem := (hclaimed.mem_of_holds hne hlive).mp ha
      have hrepo : a.repositoryId = r := by
        refine (howns a hmem).mp ?_
        by_contra hforeign
        exact hfree a hmem (by rw [hlive, Bool.eq_false_iff.mpr hforeign]; rfl)
      have hne' : ¬ a.repositoryId = other := by
        rw [hrepo]
        exact hother.symm
      exact ⟨decide_eq_false hne', decide_eq_false hne'⟩

/-- After a call the superseded value is live nowhere. -/
theorem not_holds_superseded (h : e.run c = .ok (r, c')) {old : String}
    (hold : e.superseded.filter (· ≠ e.observed) = some old) :
    ∀ a ∈ c'.tables.repositoryAliases, a.holds e.kind old = false := by
  obtain ⟨claimed, id, -, haliases⟩ := (applyAliasObservation_spec h).aliases
  rw [hold] at haliases
  intro a ha
  rw [haliases] at ha
  obtain ⟨b, -, rfl⟩ := mem_updateWhere.mp ha
  rw [Bool.eq_false_iff]
  intro hlive
  split at hlive
  · obtain ⟨-, -, hactive⟩ := RepositoryAlias.holds_iff.mp hlive
    cases hactive
  · next hb => exact hb hlive

/-- A call whose evidence is in the table already changes no alias. -/
theorem commit_of_settled
    (hrepository : ∃ q ∈ c.tables.repositories,
      q.providerRepositoryId = e.providerRepositoryId ∧ q.repositoryId = r)
    (hlive : ∃ a ∈ c.tables.repositoryAliases, a.holds e.kind e.observed = true ∧
      a.repositoryId = r)
    (hdone : ∀ old, e.superseded.filter (· ≠ e.observed) = some old →
      ∀ a ∈ c.tables.repositoryAliases, a.repositoryId = r → a.holds e.kind old = false)
    (hcrosses : e.crosses c.tables = false) :
    (e.commit c).tables.repositoryAliases = c.tables.repositoryAliases := by
  have hcases : (∃ r', e.run c = .ok (r', e.commit c)) ∨ e.commit c = c := Tx.commit_cases e.run c
  rcases hcases with ⟨r', hok⟩ | hsame
  · have hobserved := applyAliasObservation_spec hok
    obtain ⟨q, hq, hpid, hid⟩ := hrepository
    obtain ⟨q', hq', hpid', hid'⟩ := hobserved.repository
    have hsame : q = q' := (e.commit c).valid.keys.repositories_provider.eq_of_mem
      (hobserved.repositories hq) hq' (hpid.trans hpid'.symm)
    have hrepo : r' = r := by rw [← hid, ← hid', hsame]
    subst hrepo
    obtain ⟨claimed, id, hclaimed, haliases⟩ := hobserved.aliases
    obtain ⟨a, ha, halive, -⟩ := hlive
    have hkept : claimed.tables.repositoryAliases = c.tables.repositoryAliases := by
      generalize claimed.tables.repositoryAliases = t at hclaimed
      cases hclaimed with
      | live _ _ _ => rfl
      | returned hfree _ _ =>
        rw [hfree a ha] at halive
        cases halive
      | inserted hfree _ =>
        rw [hfree a ha] at halive
        cases halive
    rw [haliases, hkept]
    cases hold : e.superseded.filter (· ≠ e.observed) with
    | none => rfl
    | some old =>
      refine updateWhere_of_none fun b hb => ?_
      rw [Bool.eq_false_iff]
      intro hblive
      rw [AliasEvidence.crosses, hold] at hcrosses
      have hown := List.any_eq_false.mp hcrosses b hb
      rw [hblive, Bool.true_and, Bool.not_eq_true', Bool.not_eq_false] at hown
      have hdead := hdone old hold b hb ((AliasEvidence.owns_iff hobserved hb).mp hown)
      rw [hdead] at hblive
      cases hblive
  · rw [hsame]

end calls

/-! ### Between two deliveries -/

/-- The provider id is that of the repository. -/
def identifies (pid : ℤ) (r : Uuid) (db : Database) : Bool :=
  db.repositories.any fun q => decide (q.providerRepositoryId = pid) && decide (q.repositoryId = r)

namespace Operation

/-- Evidence whose superseded value is live with another repository. -/
def crosses (db : Database) : Operation → Bool
  | .applyAliasObservation ids now pid kind old value =>
    AliasEvidence.crosses ⟨ids, now, pid, kind, old, value⟩ db
  | _ => false

/-- The operation observes the repository, or deletes it. -/
def concerns (r : Uuid) (db : Database) : Operation → Bool
  | .recordAlias _ _ r' _ _ => decide (r' = r)
  | .applyAliasObservation _ _ pid _ _ _ => identifies pid r db
  | .importLegacy _ _ _ request _ => request.snapshot.repositories.any fun record =>
      identifies record.providerRepositoryId r db
  | .eraseAccount _ owner _ => decide (r ∈ collected owner db)
  | _ => false

end Operation

/-- What an alias row says apart from its redirect. -/
def RepositoryAlias.stamp (a : RepositoryAlias) :
    Uuid × (Uuid × AliasKind × String) × AliasStatus :=
  (a.aliasId, a.name, a.status)

/-- The repository is still behind its provider id, with the rows it had. -/
structure AliasesKept (pid : ℤ) (r : Uuid) (rows : List RepositoryAlias) (db : Database) : Prop where
  repository : ∃ q ∈ db.repositories, q.providerRepositoryId = pid ∧ q.repositoryId = r
  rows : (aliasRows r db).map RepositoryAlias.stamp = rows.map RepositoryAlias.stamp

section kept

variable {pid : ℤ} {r : Uuid} {rows : List RepositoryAlias} {c c' : Catalog}

/-- A repository of another provider id is another repository. -/
theorem AliasesKept.ne_of_identifies (h : AliasesKept pid r rows c.tables) {pid' : ℤ} {r' : Uuid}
    (hnot : identifies pid' r c.tables = false)
    (hsubset : c.tables.repositories ⊆ c'.tables.repositories)
    (hrow : ∃ q ∈ c'.tables.repositories, q.providerRepositoryId = pid' ∧ q.repositoryId = r') :
    r ≠ r' := by
  rintro rfl
  obtain ⟨q, hq, -, hid⟩ := h.repository
  obtain ⟨q', hq', hpid', hid'⟩ := hrow
  have hsame : q = q' := c'.valid.keys.repositories.eq_of_mem (hsubset hq) hq' (hid.trans hid'.symm)
  subst hsame
  have hidentified : identifies pid' r c.tables = true :=
    List.any_eq_true.mpr ⟨q, hq, by rw [decide_eq_true hpid', decide_eq_true hid]; rfl⟩
  rw [hnot] at hidentified
  cases hidentified

theorem AliasesKept.of_rows (h : AliasesKept pid r rows c.tables)
    (hrepository : ∃ q ∈ c'.tables.repositories, q.providerRepositoryId = pid ∧ q.repositoryId = r)
    (hrows : aliasRows r c'.tables = aliasRows r c.tables) : AliasesKept pid r rows c'.tables :=
  ⟨hrepository, by rw [hrows]; exact h.rows⟩

/-- An import of other repositories. -/
theorem AliasesKept.imported {accountIds : ℤ → Uuid} {ids : ℕ → ℕ → Uuid} {now : Time}
    {request : LegacyImportRequest} {importRunId : Uuid} {answer : ℕ × ImportCounts}
    (h : AliasesKept pid r rows c.tables)
    (hother : ∀ record ∈ request.snapshot.repositories, record.providerRepositoryId ≠ pid)
    (hok : importLegacyTransaction accountIds ids now request importRunId c = .ok (answer, c')) :
    AliasesKept pid r rows c'.tables := by
  have hkeeps : Tx.Relates (Tx.Keeps (AliasesKept pid r rows))
      (importLegacyTransaction accountIds ids now request importRunId) := by
    refine relates_import_aliases ?_ ?_
    · intro db db' hrepositories haliases _ hdb
      refine ⟨hrepositories ▸ hdb.repository, ?_⟩
      rw [aliasRows, haliases]
      exact hdb.rows
    · intro record hrecord c₁ c₂ fresh r' _ haliased hdb
      obtain ⟨q, hq, hpid, hid⟩ := hdb.repository
      have hnot : identifies record.providerRepositoryId r c₁.tables = false := by
        refine List.any_eq_false.mpr fun p hp hboth => ?_
        rw [Bool.and_eq_true, decide_eq_true_eq, decide_eq_true_eq] at hboth
        have hsame : p = q := c₁.valid.keys.repositories.eq_of_mem hp hq (hboth.2.trans hid.symm)
        exact hother record hrecord (by rw [← hboth.1, hsame, hpid])
      have hne := hdb.ne_of_identifies hnot haliased.repositories haliased.repository
      refine hdb.of_rows ⟨q, haliased.repositories hq, hpid, hid⟩ ?_
      have hclaimed := haliased.aliases
      unfold aliasRows
      generalize c₂.tables.repositoryAliases = t at hclaimed
      cases hclaimed with
      | live _ _ _ => rfl
      | inserted _ =>
        rw [List.filter_append, List.filter_singleton, decide_eq_false hne.symm]
        exact List.append_nil _
  exact hkeeps c answer c' hok h

/-- The erasure of an owner without whom the repository is still known. -/
theorem AliasesKept.eraseOther {now : Time} {owner : String} (h : AliasesKept pid r rows c.tables)
    (hkept : r ∉ collected owner c.tables)
    (hrepositories : c'.tables.repositories = (erased now owner c.tables).repositories)
    (haliases : c'.tables.repositoryAliases = (erased now owner c.tables).repositoryAliases) :
    AliasesKept pid r rows c'.tables := by
  obtain ⟨q, hq, hpid, hid⟩ := h.repository
  have hmem : q ∈ (erased now owner c.tables).repositories :=
    mem_erased_repositories.mpr ⟨hq, hid ▸ hkept⟩
  refine ⟨⟨q, hrepositories ▸ hmem, hpid, hid⟩, ?_⟩
  have hthere : (erased now owner c.tables).hasRepository r = true :=
    List.any_eq_true.mpr ⟨q, hmem, decide_eq_true hid⟩
  have hreleased : ∀ a : RepositoryAlias,
      (a.released c.tables (erased now owner c.tables)).repositoryId = a.repositoryId ∧
      (a.released c.tables (erased now owner c.tables)).stamp = a.stamp := by
    intro a
    unfold RepositoryAlias.released
    split
    · exact ⟨rfl, rfl⟩
    · exact ⟨rfl, rfl⟩
  rw [← h.rows, aliasRows, haliases, erased_aliases c.valid.foreignKeys.aliases_repository,
    List.filter_map, List.map_map]
  have htest : ((fun a : RepositoryAlias => decide (a.repositoryId = r)) ∘
      RepositoryAlias.released c.tables (erased now owner c.tables)) =
      fun a => decide (a.repositoryId = r) := by
    funext a
    simp only [Function.comp, (hreleased a).1]
  have hstamp : RepositoryAlias.stamp ∘
      RepositoryAlias.released c.tables (erased now owner c.tables) = RepositoryAlias.stamp := by
    funext a
    exact (hreleased a).2
  rw [htest, hstamp, List.filter_filter, aliasRows]
  congr 1
  apply List.filter_congr
  intro a _
  by_cases hrepo : a.repositoryId = r
  · rw [hrepo, hthere, Bool.and_true]
  · rw [decide_eq_false hrepo, Bool.false_and]

/-- The repository stays behind its provider id unless it is deleted. -/
theorem Operation.commit_repository (k : Contracts) (op : Operation)
    (hrow : ∃ q ∈ c.tables.repositories, q.providerRepositoryId = pid ∧ q.repositoryId = r)
    (hquiet : op.concerns r c.tables = false) :
    ∃ q ∈ (op.commit k c).tables.repositories, q.providerRepositoryId = pid ∧
      q.repositoryId = r := by
  obtain ⟨q, hq, hpid, hid⟩ := hrow
  by_cases herase : op.erases = false
  · obtain ⟨q', hq', hid', hpid'⟩ := op.commit_keepsIdentity k c herase q hq
    exact ⟨q', hq', hpid'.trans hpid, hid'.trans hid⟩
  · cases op with
    | eraseAccount now owner operation =>
      have hkept : r ∉ collected owner c.tables := of_decide_eq_false hquiet
      rcases Tx.commit_cases (eraseAccountInTx now owner operation) c with ⟨⟨⟩, hok⟩ | hsame
      · obtain ⟨c₁, h₁, hagree⟩ := eraseAccountInTx_eq_ok hok
        have hrepositories : (Operation.commit k c
            (.eraseAccount now owner operation)).tables.repositories =
            (GithubCatalog.erased now owner c.tables).repositories :=
          (hagree .repositories (by decide)).trans (by rw [eraseOwnerState_eq h₁]; rfl)
        refine ⟨q, ?_, hpid, hid⟩
        rw [hrepositories]
        exact mem_erased_repositories.mpr ⟨hq, hid ▸ hkept⟩
      · have hcommit : Operation.commit k c (.eraseAccount now owner operation) = c := hsame
        rw [hcommit]
        exact ⟨q, hq, hpid, hid⟩
    | _ => exact absurd rfl herase

/-- **The step lemma.**  An operation that neither concerns the repository nor crosses over leaves its
rows as they were. -/
theorem AliasesKept.commit (k : Contracts) (op : Operation) (h : AliasesKept pid r rows c.tables)
    (hquiet : op.concerns r c.tables = false) (hcrosses : op.crosses c.tables = false) :
    AliasesKept pid r rows (op.commit k c).tables := by
  have hrepository := op.commit_repository k h.repository hquiet
  have heffect := op.aliasEffect k c
  generalize op.commit k c = c' at heffect hrepository ⊢
  cases heffect with
  | kept haliases => exact h.of_rows hrepository (by rw [aliasRows, haliases]; rfl)
  | recorded _ hclaimed =>
    refine h.of_rows hrepository (hclaimed.filter_other ?_)
    exact fun heq => of_decide_eq_false hquiet heq.symm
  | @observed ids now pid' kind old value r' hobserved =>
    have hown : OnlyOwnRows r' c.tables c'.tables :=
      (AliasObservation.onlyOwnRows_iff (e := ⟨ids, now, pid', kind, old, value⟩) hobserved).mpr hcrosses
    exact h.of_rows hrepository
      (hown r (h.ne_of_identifies hquiet hobserved.repositories hobserved.repository))
  | @imported accountIds ids now request importRunId answer hok =>
    refine h.imported (fun record hrecord hpid => ?_) hok
    obtain ⟨q, hq, hqpid, hid⟩ := h.repository
    refine List.any_eq_false.mp hquiet record hrecord (List.any_eq_true.mpr ⟨q, hq, ?_⟩)
    rw [hpid, decide_eq_true hqpid, decide_eq_true hid]
    rfl
  | erased hrepositories haliases => exact h.eraseOther (of_decide_eq_false hquiet) hrepositories haliases

/-- The live rows of a repository left alone are those it had. -/
theorem AliasesKept.holds_iff (h : AliasesKept pid r rows c.tables) {kind : AliasKind}
    {value : String} : (∃ a ∈ c.tables.repositoryAliases, a.holds kind value = true ∧
      a.repositoryId = r) ↔ ∃ a ∈ rows, a.holds kind value = true ∧ a.repositoryId = r := by
  have hstamp : ∀ a b : RepositoryAlias, a.stamp = b.stamp → a.holds kind value = true →
      a.repositoryId = r → b.holds kind value = true ∧ b.repositoryId = r := by
    intro a b hsame hlive hrepo
    obtain ⟨-, hname, hstatus⟩ := by simpa [RepositoryAlias.stamp] using hsame
    obtain ⟨hkind, hvalue, hactive⟩ := RepositoryAlias.holds_iff.mp hlive
    obtain ⟨hr, hk, hv⟩ := by simpa [RepositoryAlias.name] using hname
    exact ⟨RepositoryAlias.holds_iff.mpr ⟨hk.symm.trans hkind, hv.symm.trans hvalue,
      hstatus.symm.trans hactive⟩, hr.symm.trans hrepo⟩
  constructor
  · rintro ⟨a, ha, hlive, hrepo⟩
    have hmem : a.stamp ∈ rows.map RepositoryAlias.stamp :=
      h.rows ▸ List.mem_map_of_mem (mem_aliasRows.mpr ⟨ha, hrepo⟩)
    obtain ⟨b, hb, hsame⟩ := List.mem_map.mp hmem
    exact ⟨b, hb, hstamp a b hsame.symm hlive hrepo⟩
  · rintro ⟨a, ha, hlive, hrepo⟩
    have hmem : a.stamp ∈ (aliasRows r c.tables).map RepositoryAlias.stamp :=
      h.rows ▸ List.mem_map_of_mem ha
    obtain ⟨b, hb, hsame⟩ := List.mem_map.mp hmem
    exact ⟨b, (mem_aliasRows.mp hb).1, hstamp a b hsame.symm hlive hrepo⟩

end kept

/-- The same evidence, delivered again. -/
def AliasEvidence.redelivered (e : AliasEvidence) (ids : ℕ → Uuid) (now : Time) : AliasEvidence :=
  { e with ids := ids, now := now }

/-- What the redelivery of evidence leaves: the table as it found it, and the repository's rows as the
first delivery left them. -/
structure Redelivered (e : AliasEvidence) (r : Uuid) (first second : Catalog) :
    Prop where
  table : (e.commit second).tables.repositoryAliases = second.tables.repositoryAliases
  rows : (aliasRows r (e.commit second).tables).map RepositoryAlias.stamp =
    (aliasRows r first.tables).map RepositoryAlias.stamp

/-- **Rename evidence keeps to its repository.**  A call changes the aliases of its own repository only
exactly when the superseded value is not live with another one.  Delivered again after any operations
that do not concern the repository, the evidence changes nothing, where no evidence on the way crosses
over to another repository. -/
theorem evidence_keeps_to_itself (k : Contracts) (e : AliasEvidence) (c first : Catalog) (r : Uuid)
    (h : e.run c = .ok (r, first)) :
    (OnlyOwnRows r c.tables first.tables ↔ e.crosses c.tables = false) ∧
    ∀ (history : List Operation) (ids : ℕ → Uuid) (now : Time),
      Guarded (step k) (fun s op => op.concerns r s.tables = false ∧ op.crosses s.tables = false) first
        history →
      (e.redelivered ids now).crosses (runFrom (step k) first history).tables = false →
      Redelivered (e.redelivered ids now) r first (runFrom (step k) first history) := by
  have hobserved := applyAliasObservation_spec h
  refine ⟨hobserved.onlyOwnRows_iff, fun history ids now hguard hcrosses => ?_⟩
  have hfirst : AliasesKept e.providerRepositoryId r (aliasRows r first.tables) first.tables :=
    ⟨hobserved.repository, rfl⟩
  have hlast : AliasesKept e.providerRepositoryId r (aliasRows r first.tables)
      (runFrom (step k) first history).tables := by
    refine Throughout.last (throughout_of_guarded (P := fun s : Catalog =>
      AliasesKept e.providerRepositoryId r (aliasRows r first.tables) s.tables) ?_ hfirst hguard)
    intro s op hs hop
    unfold step
    split
    · exact hs.commit k op hop.1 hop.2
    · exact hs
  generalize runFrom (step k) first history = second at hlast hcrosses ⊢
  have hlive : ∃ a ∈ second.tables.repositoryAliases,
      a.holds (e.redelivered ids now).kind (e.redelivered ids now).observed = true ∧
        a.repositoryId = r := by
    refine hlast.holds_iff.mpr ?_
    obtain ⟨a, ha, hholds, hrepo⟩ := hobserved.row
    exact ⟨a, mem_aliasRows.mpr ⟨ha, hrepo⟩, hholds, hrepo⟩
  have hdone : ∀ old, (e.redelivered ids now).superseded.filter
      (· ≠ (e.redelivered ids now).observed) = some old →
      ∀ a ∈ second.tables.repositoryAliases, a.repositoryId = r →
        a.holds (e.redelivered ids now).kind old = false := by
    intro old hold a ha hrepo
    rw [Bool.eq_false_iff]
    intro hholds
    obtain ⟨b, hb, hbholds, -⟩ := hlast.holds_iff.mp ⟨a, ha, hholds, hrepo⟩
    have hdead := not_holds_superseded h hold b (mem_aliasRows.mp hb).1
    have hbholds' : b.holds e.kind old = true := hbholds
    rw [hdead] at hbholds'
    cases hbholds'
  have htable : ((e.redelivered ids now).commit second).tables.repositoryAliases =
      second.tables.repositoryAliases := commit_of_settled hlast.repository hlive hdone hcrosses
  refine ⟨htable, ?_⟩
  rw [← hlast.rows, aliasRows, htable]
  rfl

/-- Repository 101 moves from one name to another, after 102 was seen under a third. -/
def moveEvidence : AliasEvidence :=
  ⟨fun i => BitVec.ofNat 128 (20 + i), 2, 101, .ownerName, some "a/x", "a/y"⟩

/-- The catalog the evidence meets: repository 101 under its old name. -/
def beforeMove : Catalog :=
  runFrom (step sampleContracts) emptyCatalog
    [.applyAliasObservation (fun i => BitVec.ofNat 128 (10 + i)) 1 101 .ownerName none "a/x"]

/-- Repository 102 seen under a name. -/
def newcomerSeenAs (value : String) : Operation :=
  .applyAliasObservation (fun i => BitVec.ofNat 128 (30 + i)) 3 102 .ownerName none value

theorem evidence_keeps_to_itself_moved :
    moveEvidence.run beforeMove = .ok (10, moveEvidence.commit beforeMove) ∧
      (OnlyOwnRows 10 beforeMove.tables (moveEvidence.commit beforeMove).tables ↔
        moveEvidence.crosses beforeMove.tables = false) ∧
      Redelivered (moveEvidence.redelivered (fun i => BitVec.ofNat 128 (40 + i)) 4) 10
        (moveEvidence.commit beforeMove)
        (runFrom (step sampleContracts) (moveEvidence.commit beforeMove) [newcomerSeenAs "a/z"]) := by
  have hrun : moveEvidence.run beforeMove = .ok (10, moveEvidence.commit beforeMove) := by
    obtain ⟨r, hok⟩ := Tx.ok_of_succeeds
      (show moveEvidence.run.succeeds beforeMove = true by decide +kernel)
    have hr : (moveEvidence.run beforeMove).toOption.map Prod.fst = some 10 := by decide +kernel
    rw [hok] at hr
    cases hr
    exact hok
  have hboth := evidence_keeps_to_itself sampleContracts moveEvidence beforeMove _ 10 hrun
  exact ⟨hrun, hboth.1, hboth.2 [newcomerSeenAs "a/z"] _ _ (by decide +kernel) (by decide +kernel)⟩

/-- Evidence delivered again after the old name went to another repository: the newcomer loses its
live name, and its row redirects to the first repository's. -/
theorem evidence_takes_name_over :
    let taken := runFrom (step sampleContracts) (moveEvidence.commit beforeMove)
      [newcomerSeenAs "a/x"]
    let again := (moveEvidence.redelivered (fun i => BitVec.ofNat 128 (40 + i)) 4).commit taken
    (aliasRows 30 taken.tables).map (fun a => (a.status, a.redirectTo)) = [(.active, none)] ∧
      (aliasRows 30 again.tables).map (fun a => (a.status, a.redirectTo)) =
        [(.superseded, some 21)] ∧
      ¬ OnlyOwnRows 10 taken.tables again.tables := by
  intro taken again
  have hbefore : (aliasRows 30 taken.tables).map (fun a => (a.status, a.redirectTo)) =
      [(.active, none)] := by decide +kernel
  have hafter : (aliasRows 30 again.tables).map (fun a => (a.status, a.redirectTo)) =
      [(.superseded, some 21)] := by decide +kernel
  refine ⟨hbefore, hafter, fun hown => ?_⟩
  rw [hown 30 (by decide), hbefore] at hafter
  cases hafter

end GithubCatalog
