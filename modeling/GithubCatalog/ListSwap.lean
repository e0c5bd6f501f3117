import GithubCatalog.MutationEffects
import GithubCatalog.StarLists

/-!
# The list authority swap, table by table

`apply_list_authority_and_complete` in closed form.  All joins after the upsert of the lists read one
database, the one before the swap with the lists upserted (`withListed`).

* `promoteSeenPairs_spec`, `demoteAbsentPairs_spec`, `completeListRunRow_spec` - its statements;
* `ListSwapping` - the tables after a swap; `applyListAuthority_swapping` - a successful swap leaves
  them.
-/

namespace GithubCatalog

open Relational Transact

/-! ### The tables after a swap -/

/-- The lists after the upsert. -/
def listedLists (listIds : ℕ → Uuid) (runId accountId : Uuid) (db : Database) : List StarList :=
  upsertAll StarList.key StarList.relisted (proposedLists listIds runId accountId db) db.starLists

/-- The tables after the upsert. -/
def withListed (listIds : ℕ → Uuid) (runId accountId : Uuid) (db : Database) : Database :=
  { db with starLists := listedLists listIds runId accountId db }

/-- The account's active lists that a run did not stage. -/
def StarList.unlistedBy (runId accountId : Uuid) (db : Database) (l : StarList) : Bool :=
  decide (l.accountId = accountId) && decide (l.status = .active) &&
    !(stagedListRows runId db).any fun i => decide (i.providerListId = l.providerListId)

def StarList.tombstone (now : Time) (runId : Uuid) (l : StarList) : StarList :=
  { l with status := .removed, observedRemovedAt := some now, evidenceRunId := some runId }

def StarListMembership.demote (now : Time) (runId : Uuid) (m : StarListMembership) :
    StarListMembership :=
  { m with member := false, observedRemovedAt := some now, evidenceRunId := some runId }

/-- The pairs a swap demotes. -/
def demotedPairs (runId accountId : Uuid) (db : Database) : List (Uuid × Uuid) :=
  (db.starListMemberships.filter (·.absentFrom runId accountId db)).map StarListMembership.key

/-- The observations of some pairs. -/
def pairObservations (ids : ℕ → Uuid) (now : Time) (runId : Uuid) (member : Bool)
    (pairs : List (Uuid × Uuid)) : List StarListMembershipObservation :=
  pairs.zipIdx.map fun p => ⟨ids p.2, p.1.1, p.1.2, member, now, some runId⟩

/-- A run row that a list swap completed. -/
def SyncRun.listedBy (now : Time) (additions removals : ℕ) (r : SyncRun) : SyncRun :=
  { r with
    status := .completed, finishedAt := some now, additions := clampInteger additions
    removals := clampInteger removals }

/-- The tables after a swap. -/
structure ListSwapping (listIds memberIds removalIds : ℕ → Uuid) (now : Time)
    (runId accountId : Uuid) (db db' : Database) (counts : ℕ × ℕ × ℕ × ℕ) : Prop where
  valid : Constraints (withListed listIds runId accountId db)
  lists : db'.starLists = updateWhere (·.unlistedBy runId accountId db) (·.tombstone now runId)
    (listedLists listIds runId accountId db)
  pairs_nodup : (stagedPairs runId accountId (withListed listIds runId accountId db)).Nodup
  memberships : db'.starListMemberships =
    updateWhere (·.absentFrom runId accountId (withListed listIds runId accountId db))
      (·.demote now runId)
      (upsertAll StarListMembership.key (StarListMembership.promoted now)
        (promotedPairs now runId accountId (withListed listIds runId accountId db))
        db.starListMemberships)
  observations : db'.starListMembershipObservations = db.starListMembershipObservations ++
    pairObservations memberIds now runId true
      (stagedPairsAnywhere runId (withListed listIds runId accountId db)) ++
    pairObservations removalIds now runId false
      (demotedPairs runId accountId (withListed listIds runId accountId db))
  runs : db'.syncRuns = updateWhere (fun r => decide (r.syncRunId = runId))
    (·.listedBy now
      (countMemberAdditions runId accountId (withListed listIds runId accountId db))
      (demotedPairs runId accountId (withListed listIds runId accountId db)).length) db.syncRuns
  repositories : db'.repositories = db.repositories
  counts : ∃ run ∈ db.syncRuns, run.syncRunId = runId ∧
    counts = (run.pagesProcessed.toNat, run.itemsObserved.toNat,
      countMemberAdditions runId accountId (withListed listIds runId accountId db),
      (demotedPairs runId accountId (withListed listIds runId accountId db)).length)

section swap

variable {listIds memberIds removalIds : ℕ → Uuid} {now : Time} {runId accountId : Uuid}
  {c c' : Catalog}

/-- What the joins of the swap read. -/
theorem stagedPairsWhere_congr {db db' : Database} (p : StarList → Bool)
    (hitems : db'.listSnapshotItems = db.listSnapshotItems)
    (hrepos : db'.repositories = db.repositories) (hlists : db'.starLists = db.starLists) :
    stagedPairsWhere p runId db' = stagedPairsWhere p runId db := by
  simp only [stagedPairsWhere, stagedListRows, repositoryOf, hitems, hrepos, hlists]

theorem absentFrom_list_congr {db db' : Database}
    (hitems : db'.listSnapshotItems = db.listSnapshotItems)
    (hrepos : db'.repositories = db.repositories) (hlists : db'.starLists = db.starLists) :
    (fun m : StarListMembership => m.absentFrom runId accountId db') =
      fun m => m.absentFrom runId accountId db := by
  funext m
  simp only [StarListMembership.absentFrom, stagedListRows, repositoryOf, hitems, hrepos, hlists]

/-- A staged pair is not absent. -/
theorem not_absentFrom_of_staged {db : Database} (hkeys : Keys db) {m : StarListMembership}
    (hm : m.key ∈ stagedPairs runId accountId db) : m.absentFrom runId accountId db = false := by
  obtain ⟨i, hi, hpair⟩ := List.mem_flatMap.mp hm
  cases hrepo : repositoryOf i.providerRepositoryId db with
  | none =>
    rw [hrepo] at hpair
    cases hpair
  | some r =>
    rw [hrepo] at hpair
    obtain ⟨l, hl, hkey⟩ := List.mem_map.mp hpair
    obtain ⟨hl, hcond⟩ := List.mem_filter.mp hl
    simp only [Bool.and_eq_true, decide_eq_true_eq] at hcond
    obtain ⟨hlist, hrepository⟩ := Prod.mk.inj hkey
    rw [StarListMembership.absentFrom, Bool.and_eq_false_iff]
    refine .inr (List.any_eq_false.mpr fun l' hl' habsent => ?_)
    simp only [Bool.and_eq_true, decide_eq_true_eq, Bool.not_eq_true', List.any_eq_false] at habsent
    obtain ⟨⟨-, hid⟩, hnone⟩ := habsent
    have hsame : l' = l := hkeys.lists.eq_of_mem hl' hl (hid.trans hlist.symm)
    subst hsame
    exact hnone i hi ⟨hcond.2.symm, by simp [hrepo, hrepository]⟩

/-- The promotion makes no pair absent and hides none. -/
theorem demotedPairs_promoted {db db' : Database} (hkeys : Keys db)
    (htest : (fun m : StarListMembership => m.absentFrom runId accountId db') =
      fun m => m.absentFrom runId accountId db)
    (hmembers : db'.starListMemberships = upsertAll StarListMembership.key
      (StarListMembership.promoted now) (promotedPairs now runId accountId db)
        db.starListMemberships) :
    demotedPairs runId accountId db' = demotedPairs runId accountId db := by
  rw [demotedPairs, demotedPairs, htest, hmembers, filter_upsertAll]
  intro row hrow
  obtain ⟨p, hp, rfl⟩ := List.mem_map.mp hrow
  refine ⟨not_absentFrom_of_staged hkeys hp, fun m hkey => ?_⟩
  have hstaged : m.key ∈ stagedPairs runId accountId db := by
    rw [hkey]
    exact hp
  exact ⟨not_absentFrom_of_staged hkeys hstaged, not_absentFrom_of_staged hkeys hstaged⟩

/-- The loop over the demoted pairs appends an observation for each. -/
theorem recordRemovals_spec {pairs : List ((Uuid × Uuid) × ℕ)} {u : Unit}
    (h : (pairs.forM fun p => write .starListMembershipObservations fun db =>
      (db.starListMembershipObservations ++
        [⟨removalIds p.2, p.1.1, p.1.2, false, now, some runId⟩] :
          List StarListMembershipObservation)) c = .ok (u, c')) :
    c'.tables.starListMembershipObservations = c.tables.starListMembershipObservations ++
      pairs.map fun p => ⟨removalIds p.2, p.1.1, p.1.2, false, now, some runId⟩ := by
  induction pairs generalizing c with
  | nil =>
    obtain ⟨-, rfl⟩ := Tx.pure_eq_ok.mp h
    exact (List.append_nil _).symm
  | cons p rest ih =>
    obtain ⟨⟨⟩, c₁, h₁, hrest⟩ := Tx.bind_eq_ok.mp h
    have hobs : c₁.tables.starListMembershipObservations =
        c.tables.starListMembershipObservations ++
          [⟨removalIds p.2, p.1.1, p.1.2, false, now, some runId⟩] := by
      rw [write_eq_ok.mp h₁]
      rfl
    rw [ih hrest, hobs, List.append_assoc]
    rfl

/-- The promotion: the membership rows, and its own check that no pair is staged twice. -/
theorem promoteSeenPairs_spec {u : Unit} (h : promoteSeenPairs now runId accountId c = .ok (u, c')) :
    (stagedPairs runId accountId c.tables).Nodup ∧ c'.tables.starListMemberships =
      upsertAll StarListMembership.key (StarListMembership.promoted now)
        (promotedPairs now runId accountId c.tables) c.tables.starListMemberships := by
  simp only [promoteSeenPairs, Tx.bind_eq_ok, require_eq_ok] at h
  obtain ⟨-, _, ⟨hkeys, rfl⟩, hwrite⟩ := h
  refine ⟨?_, ?_⟩
  · have hnodup := of_decide_eq_true hkeys
    rw [promotedPairs, List.map_map] at hnodup
    exact (List.map_id (stagedPairs runId accountId c.tables)) ▸ hnodup
  · rw [write_eq_ok.mp hwrite]
    rfl

/-- The demotion: the membership rows, their observations and their number. -/
theorem demoteAbsentPairs_spec {n : ℕ}
    (h : demoteAbsentPairs removalIds now runId accountId c = .ok (n, c')) :
    n = (demotedPairs runId accountId c.tables).length ∧
      c'.tables.starListMemberships = updateWhere (·.absentFrom runId accountId c.tables)
        (·.demote now runId) c.tables.starListMemberships ∧
      c'.tables.starListMembershipObservations = c.tables.starListMembershipObservations ++
        pairObservations removalIds now runId false (demotedPairs runId accountId c.tables) := by
  simp only [demoteAbsentPairs, Tx.bind_eq_ok, select_eq_ok, write_eq_ok, Tx.pure_eq_ok] at h
  obtain ⟨demoted, _, ⟨hdemoted, rfl⟩, -, c₁, h₁, ⟨⟩, c₂, hloop, hn, rfl⟩ := h
  have heq : demotedPairs runId accountId c.tables = demoted := hdemoted
  have hloop' := recordRemovals_spec hloop
  have hframe : c₂.tables.starListMemberships = c₁.tables.starListMemberships :=
    (Touches.forM (fun p => Touches.write
      (List.mem_singleton.mpr rfl : Table.starListMembershipObservations ∈ _) _) _).rows_eq hloop
        (t := .starListMemberships) (by decide)
  rw [heq]
  refine ⟨hn.symm, ?_, ?_⟩
  · rw [hframe, h₁]
    rfl
  · rw [hloop', h₁]
    rfl

/-- The run row a list swap completes, as it was before. -/
theorem completeListRunRow_spec {additions removals : ℕ} {pair : ℕ × ℕ}
    (h : completeListRunRow now runId additions removals c = .ok (pair, c')) :
    c'.tables.syncRuns = updateWhere (fun r => decide (r.syncRunId = runId))
        (·.listedBy now additions removals) c.tables.syncRuns ∧
      ∃ run ∈ c.tables.syncRuns, run.syncRunId = runId ∧
        pair = (run.pagesProcessed.toNat, run.itemsObserved.toNat) := by
  obtain ⟨u, c₁, hwrite, hfetch⟩ := Tx.bind_eq_ok.mp h
  obtain ⟨hread, rfl⟩ := fetchOne_eq_ok.mp hfetch
  have hruns : c₁.tables.syncRuns = updateWhere (fun r => decide (r.syncRunId = runId))
      (·.listedBy now additions removals) c.tables.syncRuns := by
    rw [write_eq_ok.mp hwrite]
    rfl
  refine ⟨hruns, ?_⟩
  obtain ⟨run, hfind, hpair⟩ := Option.map_eq_some_iff.mp hread
  have hkey : ∀ r : SyncRun, decide ((r.listedBy now additions removals).syncRunId = runId) =
      decide (r.syncRunId = runId) := fun _ => rfl
  rw [hruns, find?_updateWhere hkey] at hfind
  obtain ⟨old, hold, rfl⟩ := Option.map_eq_some_iff.mp hfind
  have hid := List.find?_some hold
  refine ⟨old, List.mem_of_find?_eq_some hold, of_decide_eq_true hid, ?_⟩
  rw [← hpair, if_pos hid]
  rfl

/-- **The list swap in closed form.** -/
theorem applyListAuthority_swapping {counts : ℕ × ℕ × ℕ × ℕ}
    (h : applyListAuthorityAndComplete listIds memberIds removalIds now runId accountId c =
      .ok (counts, c')) :
    ListSwapping listIds memberIds removalIds now runId accountId c.tables c'.tables counts := by
  simp only [applyListAuthorityAndComplete, Tx.bind_eq_ok, select_eq_ok, Tx.pure_eq_ok] at h
  obtain ⟨⟨⟩, c₁, h₁, additions, _, ⟨hadditions, rfl⟩, ⟨⟩, c₂, h₂, ⟨⟩, c₃, h₃, n, c₄, h₄, ⟨⟩, c₅, h₅,
    ⟨⟩, c₆, h₆, pair, c₇, h₇, hcounts, rfl⟩ := h
  have hlisted : c₁.tables = withListed listIds runId accountId c.tables := write_eq_ok.mp h₁
  have hobserve : AgreeOff [.starListMembershipObservations] c₁.tables c₂.tables :=
    (Touches.write (by decide) _ : Touches _ _) _ _ _ h₂
  have hpromote : AgreeOff [.starListMemberships] c₂.tables c₃.tables :=
    touches_promoteSeenPairs _ _ _ _ _ _ h₃
  have hdemote : AgreeOff [.starListMemberships, .starListMembershipObservations] c₃.tables c₄.tables :=
    touches_demoteAbsentPairs _ _ _ _ _ _ _ h₄
  have hclose : AgreeOff [.starLists, .listSnapshotItems] c₄.tables c₆.tables :=
    IsTrans.trans _ _ _ ((Touches.write (by decide) _ : Touches _ _) _ _ _ h₅)
      ((Touches.write (by decide) _ : Touches _ _) _ _ _ h₆)
  have hcomplete : AgreeOff [.syncRuns] c₆.tables c₇.tables :=
    touches_completeListRunRow _ _ _ _ _ _ _ h₇
  -- The observations are taken over the lists as they stand after the upsert.
  have hobs₂ : c₂.tables.starListMembershipObservations =
      c.tables.starListMembershipObservations ++ pairObservations memberIds now runId true
        (stagedPairsAnywhere runId (withListed listIds runId accountId c.tables)) := by
    rw [write_eq_ok.mp h₂, ← hlisted]
    show c₁.tables.starListMembershipObservations ++ _ = _
    rw [hlisted]
    rfl
  obtain ⟨hnodup, hmembers₃⟩ := promoteSeenPairs_spec h₃
  have hpairs₂ : stagedPairs runId accountId c₂.tables =
      stagedPairs runId accountId (withListed listIds runId accountId c.tables) := by
    rw [← hlisted]
    exact stagedPairsWhere_congr _ (hobserve .listSnapshotItems (by decide))
      (hobserve .repositories (by decide)) (hobserve .starLists (by decide))
  rw [hpairs₂] at hnodup
  have hmembers₂ : c₂.tables.starListMemberships = c.tables.starListMemberships := by
    have hkept : c₂.tables.starListMemberships = c₁.tables.starListMemberships :=
      hobserve .starListMemberships (by decide)
    rw [hkept, hlisted]
    rfl
  rw [promotedPairs, hpairs₂, ← promotedPairs, hmembers₂] at hmembers₃
  have htest : (fun m : StarListMembership => m.absentFrom runId accountId c₃.tables) =
      fun m => m.absentFrom runId accountId (withListed listIds runId accountId c.tables) := by
    rw [← hlisted]
    refine absentFrom_list_congr ?_ ?_ ?_
    · exact (hpromote .listSnapshotItems (by decide)).trans (hobserve .listSnapshotItems (by decide))
    · exact (hpromote .repositories (by decide)).trans (hobserve .repositories (by decide))
    · exact (hpromote .starLists (by decide)).trans (hobserve .starLists (by decide))
  have hdemoted : demotedPairs runId accountId c₃.tables =
      demotedPairs runId accountId (withListed listIds runId accountId c.tables) :=
    demotedPairs_promoted (hlisted ▸ c₁.valid.keys) htest hmembers₃
  obtain ⟨hn, hmembers₄, hobs₄⟩ := demoteAbsentPairs_spec h₄
  rw [hdemoted] at hn hobs₄
  obtain ⟨hruns, run, hrun, hid, hpair⟩ := completeListRunRow_spec h₇
  have hsame : c₆.tables.syncRuns = c.tables.syncRuns := by
    have hfirst : c₁.tables.syncRuns = c.tables.syncRuns := by
      rw [hlisted]
      rfl
    exact (hclose .syncRuns (by decide)).trans ((hdemote .syncRuns (by decide)).trans
      ((hpromote .syncRuns (by decide)).trans ((hobserve .syncRuns (by decide)).trans hfirst)))
  rw [hlisted] at hadditions
  refine ⟨hlisted ▸ c₁.valid, ?_, hnodup, ?_, ?_, ?_, ?_, run, hsame ▸ hrun, hid, ?_⟩
  · have hlists₄ : c₄.tables.starLists = listedLists listIds runId accountId c.tables := by
      have hkept : c₄.tables.starLists = c₁.tables.starLists :=
        (hdemote .starLists (by decide)).trans ((hpromote .starLists (by decide)).trans
          (hobserve .starLists (by decide)))
      rw [hkept, hlisted]
      rfl
    have hitems₄ : c₄.tables.listSnapshotItems = c.tables.listSnapshotItems := by
      have hkept : c₄.tables.listSnapshotItems = c₁.tables.listSnapshotItems :=
        (hdemote .listSnapshotItems (by decide)).trans
          ((hpromote .listSnapshotItems (by decide)).trans
            (hobserve .listSnapshotItems (by decide)))
      rw [hkept, hlisted]
      rfl
    have hlists₇ : c₇.tables.starLists = c₅.tables.starLists :=
      (hcomplete .starLists (by decide)).trans
        ((Touches.write (by decide) _ : Touches [.listSnapshotItems] _).rows_eq h₆
          (t := .starLists) (by decide))
    have hlists₅ : c₅.tables.starLists =
        updateWhere (·.unlistedBy runId accountId c₄.tables) (·.tombstone now runId)
          c₄.tables.starLists := by
      rw [write_eq_ok.mp h₅]
      rfl
    have hunlisted : (fun l : StarList => l.unlistedBy runId accountId c₄.tables) =
        fun l => l.unlistedBy runId accountId c.tables := by
      funext l
      simp only [StarList.unlistedBy, stagedListRows, hitems₄]
    rw [hlists₇, hlists₅, hunlisted, hlists₄]
  · have hfinal : c₇.tables.starListMemberships = c₄.tables.starListMemberships :=
      (hcomplete .starListMemberships (by decide)).trans (hclose .starListMemberships (by decide))
    rw [hfinal, hmembers₄, htest, hmembers₃]
  · have hfinal : c₇.tables.starListMembershipObservations =
        c₄.tables.starListMembershipObservations :=
      (hcomplete .starListMembershipObservations (by decide)).trans
        (hclose .starListMembershipObservations (by decide))
    have hobs₃ : c₃.tables.starListMembershipObservations =
        c₂.tables.starListMembershipObservations :=
      hpromote .starListMembershipObservations (by decide)
    rw [hfinal, hobs₄, hobs₃, hobs₂]
  · rw [hruns, hsame, hn, ← hadditions]
  · have hfirst : c₁.tables.repositories = c.tables.repositories := by
      rw [hlisted]
      rfl
    exact (hcomplete .repositories (by decide)).trans ((hclose .repositories (by decide)).trans
      ((hdemote .repositories (by decide)).trans ((hpromote .repositories (by decide)).trans
        ((hobserve .repositories (by decide)).trans hfirst))))
  · rw [← hcounts, hpair, hn, ← hadditions]

end swap

end GithubCatalog
