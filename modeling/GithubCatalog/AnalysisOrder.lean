import GithubCatalog.AnalysisQueue

/-!
# Whether analyses only move forward

The recorded revisions of a repository are numbered, and every request and every checkpoint carries
the number of the revision its evaluation read.  The link of an owner and a repository should never
move to a request of an earlier number, and a checkpoint never back to one.

Nothing in the code compares numbers: a completion moves the link whichever request it completes, and
an evaluation that read before another refresh still settles.  Both move forward exactly as far as
completions arrive in queue order and no revision is recorded between an evaluation's read and its
lock.

* `NumberedWorld` - a world with the numbers as ghost state;
* `InOrder` - the two conditions on a step;
* `analysis_forward` - every step of such a history moves links and checkpoints forward;
* `analysis_moved_back` - a history that moves a link back, and one that moves a checkpoint back.
-/

namespace GithubCatalog

open Relational Transact

/-! ### Numbered revisions -/

/-- A world with the numbers of the recorded revisions: how many were recorded of each repository,
which one each evaluation in flight has read, and which one each request and each watch's checkpoint
is of. -/
structure NumberedWorld where
  world : WatchWorld
  recorded : Uuid → ℕ
  read : List ℕ
  requested : Uuid → ℕ
  checkpoint : Uuid → ℕ

/-- The checkpoint of a watch. -/
def checkpointOf (watchId : Uuid) (db : Database) : Option String :=
  (db.repositoryWatches.find? fun w => decide (w.watchId = watchId)).bind (·.lastEvaluatedContentHash)

namespace NumberedWorld

def tables (s : NumberedWorld) : Database := s.world.tables

/-- Number the requests that were not there before. -/
def stampRequests (before : Database) (number : ℕ) (old : Uuid → ℕ) : Uuid → ℕ := fun id =>
  if (before.repositoryAnalysisRequests.map (·.requestId)).contains id then old id else number

/-- Number the checkpoints that moved. -/
def stampCheckpoints (before after : Database) (number : ℕ) (old : Uuid → ℕ) : Uuid → ℕ := fun id =>
  if checkpointOf id after = checkpointOf id before then old id else number

/-- A revision is recorded when the stored one changes. -/
def countRecorded (before after : Database) (repositoryId : Uuid) (old : Uuid → ℕ) : Uuid → ℕ :=
  fun id => if id = repositoryId ∧ storedHash id after ≠ storedHash id before then old id + 1 else old id

def step (k : Contracts) (s : NumberedWorld) (e : WatchEvent) : NumberedWorld :=
  let world := s.world.step k e
  match e with
  | .register _ _ repositoryId _ =>
    { s with
      world := world
      checkpoint := stampCheckpoints s.tables world.tables (s.recorded repositoryId) s.checkpoint }
  | .refresh _ _ repositoryId _ _ _ _ =>
    { s with
      world := world
      recorded := countRecorded s.tables world.tables repositoryId s.recorded }
  | .read repositoryId =>
    { s with
      world := world
      read := if world.reading.length = s.world.reading.length then s.read
        else s.read ++ [s.recorded repositoryId] }
  | .settle n _ _ =>
    { s with
      world := world
      read := s.read.eraseIdx n
      requested := stampRequests s.tables (s.read.getD n 0) s.requested
      checkpoint := stampCheckpoints s.tables world.tables (s.read.getD n 0) s.checkpoint }
  | .enable .. | .dispatch .. | .deliver .. => { s with world := world }

/-- The numbers start with the catalog: nothing was requested, and nothing is in flight. -/
def start (c : Catalog) : NumberedWorld := ⟨⟨c, []⟩, fun _ => 0, [], fun _ => 0, fun _ => 0⟩

end NumberedWorld

/-- The two conditions: an evaluation settles while the revision it read is still the stored one, and
a completion arrives in queue order. -/
def InOrder (k : Contracts) (s : NumberedWorld) : WatchEvent → Prop
  | .settle n _ _ => ∀ p ∈ s.world.reading[n]?, s.read.getD n 0 = s.recorded p.1
  | .deliver _ _ fact status => status.subject = .analysisCompleted → InQueueOrder k fact s.tables
  | _ => True

/-- No link moves to a request of an earlier revision. -/
def LinksForward (s s' : NumberedWorld) : Prop :=
  ∀ l ∈ s.tables.repositoryAnalysisLinks, ∀ l' ∈ s'.tables.repositoryAnalysisLinks,
    l'.ownerRef = l.ownerRef → l'.repositoryId = l.repositoryId →
    s.requested l.requestId ≤ s'.requested l'.requestId

/-- No checkpoint moves back to an earlier revision. -/
def CheckpointsForward (s s' : NumberedWorld) : Prop :=
  ∀ w ∈ s.tables.repositoryWatches, s.checkpoint w.watchId ≤ s'.checkpoint w.watchId

/-- Links and checkpoints move to no earlier revision. -/
structure Forward (s s' : NumberedWorld) : Prop where
  links : LinksForward s s'
  checkpoints : CheckpointsForward s s'

instance (k : Contracts) (s : NumberedWorld) : (e : WatchEvent) → Decidable (InOrder k s e)
  | .settle n _ _ =>
    match h : s.world.reading[n]? with
    | none => isTrue fun p hp => by rw [h] at hp; cases hp
    | some p => decidable_of_iff (s.read.getD n 0 = s.recorded p.1) (by simp [InOrder, h])
  | .deliver _ _ fact status => inferInstanceAs
      (Decidable (status.subject = .analysisCompleted → InQueueOrder k fact s.tables))
  | .register .. | .enable .. | .refresh .. | .read .. | .dispatch .. => isTrue trivial

instance (s s' : NumberedWorld) : Decidable (LinksForward s s') :=
  inferInstanceAs (Decidable (∀ l ∈ s.tables.repositoryAnalysisLinks,
    ∀ l' ∈ s'.tables.repositoryAnalysisLinks, _))

instance (s s' : NumberedWorld) : Decidable (CheckpointsForward s s') :=
  inferInstanceAs (Decidable (∀ w ∈ s.tables.repositoryWatches, _))

/-! ### The invariant -/

/-- Requests stand in the order of their revisions, and nothing is numbered ahead of its repository. -/
structure Ordered (s : NumberedWorld) : Prop where
  links : ∀ owner repositoryId, LinksLast owner repositoryId s.tables
  sorted : ∀ owner repositoryId, ((requestsOf owner repositoryId s.tables).map fun r =>
    s.requested r.requestId).Pairwise (· ≤ ·)
  requests : ∀ r ∈ s.tables.repositoryAnalysisRequests,
    s.requested r.requestId ≤ s.recorded r.repositoryId
  watches : ∀ w ∈ s.tables.repositoryWatches, s.checkpoint w.watchId ≤ s.recorded w.repositoryId
  unused : ∀ id, id ∉ s.tables.repositoryWatches.map (·.watchId) → s.checkpoint id = 0

section invariant

variable {k : Contracts} {s s' : NumberedWorld}

theorem ordered_start {c : Catalog} (h : c.tables.repositoryAnalysisRequests = []) :
    Ordered (NumberedWorld.start c) where
  links := by
    intro owner repositoryId
    constructor
    · intro l hl
      have href := c.valid.foreignKeys.links_request l hl _ rfl
      rw [h] at href
      cases href
    · intro hsome
      refine absurd ?_ hsome
      rw [completedOf_eq]
      show c.tables.repositoryAnalysisRequests.filter _ = []
      rw [h]
      rfl
  sorted := by
    intro owner repositoryId
    show ((c.tables.repositoryAnalysisRequests.filter _).map _).Pairwise _
    rw [h]
    exact List.Pairwise.nil
  requests := fun _ _ => Nat.zero_le _
  watches := fun _ _ => Nat.zero_le _
  unused := fun _ _ => rfl

/-- The one link of an owner and a repository. -/
theorem link_eq {c : Catalog} {l l' : RepositoryAnalysisLink}
    (hl : l ∈ c.tables.repositoryAnalysisLinks) (hl' : l' ∈ c.tables.repositoryAnalysisLinks)
    (howner : l'.ownerRef = l.ownerRef) (hrepository : l'.repositoryId = l.repositoryId) : l' = l :=
  c.valid.keys.links.eq_of_mem hl' hl (Prod.ext howner hrepository)

/-- A step that leaves requests, links and their numbers alone. -/
theorem Ordered.frame (h : Ordered s)
    (hrequests : s'.tables.repositoryAnalysisRequests = s.tables.repositoryAnalysisRequests)
    (hlinks : s'.tables.repositoryAnalysisLinks = s.tables.repositoryAnalysisLinks)
    (hrequested : s'.requested = s.requested) (hrecorded : ∀ id, s.recorded id ≤ s'.recorded id)
    (hwatches : (∀ w ∈ s'.tables.repositoryWatches,
        s'.checkpoint w.watchId ≤ s'.recorded w.repositoryId) ∧
      (∀ id, id ∉ s'.tables.repositoryWatches.map (·.watchId) → s'.checkpoint id = 0) ∧
      ∀ id, s.checkpoint id ≤ s'.checkpoint id) : Ordered s' ∧ Forward s s' := by
  refine ⟨⟨?_, ?_, ?_, hwatches.1, hwatches.2.1⟩, ?_, fun w _ => hwatches.2.2 w.watchId⟩
  · intro owner repositoryId
    refine (h.links owner repositoryId).of_eq ?_ fun l _ _ => by rw [hlinks]
    rw [completedOf_eq, completedOf_eq, hrequests]
  · intro owner repositoryId
    rw [hrequested, requestsOf, hrequests, ← requestsOf]
    exact h.sorted owner repositoryId
  · intro r hr
    rw [hrequests] at hr
    rw [hrequested]
    exact (h.requests r hr).trans (hrecorded _)
  · intro l hl l' hl' howner hrepository
    rw [hlinks] at hl'
    rw [hrequested, link_eq hl hl' howner hrepository]

/-! ### Checkpoints -/

/-- What a statement does to the watches when only those of one repository, old or new, may get
another checkpoint. -/
structure WatchesMoved (repositoryId : Uuid) (db db' : Database) : Prop where
  old : ∀ w ∈ db.repositoryWatches, ∃ w' ∈ db'.repositoryWatches, w'.watchId = w.watchId ∧
    w'.repositoryId = w.repositoryId ∧
    (w'.lastEvaluatedContentHash = w.lastEvaluatedContentHash ∨ w.repositoryId = repositoryId)
  new : ∀ w' ∈ db'.repositoryWatches, (∃ w ∈ db.repositoryWatches, w.watchId = w'.watchId) ∨
    w'.repositoryId = repositoryId

theorem watchesMoved_of_eq (repositoryId : Uuid) {db db' : Database}
    (h : db'.repositoryWatches = db.repositoryWatches) : WatchesMoved repositoryId db db' where
  old := fun w hw => ⟨w, by rw [h]; exact hw, rfl, rfl, .inl rfl⟩
  new := fun w hw => .inl ⟨w, by rw [← h]; exact hw, rfl⟩

theorem checkpointOf_eq {c : Catalog} {w : RepositoryWatch} (hw : w ∈ c.tables.repositoryWatches) :
    checkpointOf w.watchId c.tables = w.lastEvaluatedContentHash := by
  rw [checkpointOf, c.valid.keys.watches.find?_eq hw]
  rfl

theorem checkpointOf_unused {db : Database} {id : Uuid}
    (h : id ∉ db.repositoryWatches.map (·.watchId)) : checkpointOf id db = none := by
  have hnone : db.repositoryWatches.find? (fun w => decide (w.watchId = id)) = none := by
    refine List.find?_eq_none.mpr fun w hw hid => h ?_
    exact List.mem_map.mpr ⟨w, hw, of_decide_eq_true hid⟩
  rw [checkpointOf, hnone]
  rfl

/-- Checkpoints that move to the last recorded revision move forward. -/
theorem Ordered.stamped (h : Ordered s) {c' : Catalog} {repositoryId : Uuid}
    (hmoved : WatchesMoved repositoryId s.tables c'.tables) :
    let stamped := NumberedWorld.stampCheckpoints s.tables c'.tables (s.recorded repositoryId)
      s.checkpoint
    (∀ w ∈ c'.tables.repositoryWatches, stamped w.watchId ≤ s.recorded w.repositoryId) ∧
      (∀ id, id ∉ c'.tables.repositoryWatches.map (·.watchId) → stamped id = 0) ∧
      ∀ id, s.checkpoint id ≤ stamped id := by
  intro stamped
  have hgone : ∀ id, id ∉ c'.tables.repositoryWatches.map (·.watchId) →
      id ∉ s.tables.repositoryWatches.map (·.watchId) := by
    intro id hnot hmem
    obtain ⟨w, hw, rfl⟩ := List.mem_map.mp hmem
    obtain ⟨w', hw', hid, -⟩ := hmoved.old w hw
    exact hnot (List.mem_map.mpr ⟨w', hw', hid⟩)
  -- A watch whose checkpoint moved is one of the repository.
  have hown : ∀ w ∈ s.tables.repositoryWatches,
      checkpointOf w.watchId c'.tables ≠ checkpointOf w.watchId s.tables →
      w.repositoryId = repositoryId := by
    intro w hw hchanged
    obtain ⟨w', hw', hid, -, hsame | hown⟩ := hmoved.old w hw
    · refine absurd ?_ hchanged
      rw [← hid, checkpointOf_eq hw', hsame, hid]
      exact (checkpointOf_eq (c := s.world.catalog) hw).symm
    · exact hown
  refine ⟨?_, ?_, ?_⟩
  · intro w' hw'
    show (if _ then _ else _) ≤ _
    rcases hmoved.new w' hw' with ⟨w, hw, hid⟩ | hnew
    · obtain ⟨v, hv, hvid, hrepository, -⟩ := hmoved.old w hw
      have hsame : v = w' := c'.valid.keys.watches.eq_of_mem hv hw' (hvid.trans hid)
      rw [← hsame, hrepository, hvid]
      split
      · exact h.watches w hw
      · next hchanged => rw [hown w hw hchanged]
    · rw [hnew]
      split
      · by_cases hmem : w'.watchId ∈ s.tables.repositoryWatches.map (·.watchId)
        · obtain ⟨w, hw, hid⟩ := List.mem_map.mp hmem
          obtain ⟨v, hv, hvid, hrepository, -⟩ := hmoved.old w hw
          have hsame : v = w' := c'.valid.keys.watches.eq_of_mem hv hw' (hvid.trans hid)
          rw [← hnew, ← hsame, hrepository, hvid]
          exact h.watches w hw
        · rw [h.unused _ hmem]
          exact Nat.zero_le _
      · exact le_rfl
  · intro id hnot
    show (if _ then _ else _) = 0
    rw [checkpointOf_unused hnot, checkpointOf_unused (hgone id hnot), if_pos rfl]
    exact h.unused id (hgone id hnot)
  · intro id
    show _ ≤ (if _ then _ else _)
    split
    · exact le_rfl
    · next hchanged =>
      by_cases hmem : id ∈ s.tables.repositoryWatches.map (·.watchId)
      · obtain ⟨w, hw, rfl⟩ := List.mem_map.mp hmem
        rw [← hown w hw hchanged]
        exact h.watches w hw
      · rw [h.unused id hmem]
        exact Nat.zero_le _

theorem registerWatch_moved {fresh : Uuid} {owner : String} {repositoryId : Uuid}
    {baseline : WatchBaseline} {c c' : Catalog} {out : Uuid}
    (h : registerRepositoryAnalysisWatch fresh owner repositoryId baseline c = .ok (out, c')) :
    WatchesMoved repositoryId c.tables c'.tables := by
  simp only [registerRepositoryAnalysisWatch, Tx.bind_eq_ok, attempt_eq_ok, write_eq_ok,
    fetchOne_eq_ok] at h
  obtain ⟨checkpoint, _, ⟨-, rfl⟩, -, c₁, h₁, -, rfl⟩ := h
  rw [h₁]
  show WatchesMoved repositoryId c.tables (c.tables.put .repositoryWatches (upsertWhere _ _ _ _))
  rw [upsertWhere]
  split
  · constructor
    · intro w hw
      refine ⟨_, mem_updateWhere.mpr ⟨w, hw, rfl⟩, ?_⟩
      split
      · next hmine =>
        simp only [Bool.and_eq_true, decide_eq_true_eq] at hmine
        exact ⟨rfl, rfl, .inr hmine.2⟩
      · exact ⟨rfl, rfl, .inl rfl⟩
    · intro w' hw'
      obtain ⟨w, hw, rfl⟩ := mem_updateWhere.mp hw'
      refine .inl ⟨w, hw, ?_⟩
      split
      · rfl
      · rfl
  · constructor
    · intro w hw
      exact ⟨w, List.mem_append_left _ hw, rfl, rfl, .inl rfl⟩
    · intro w' hw'
      rcases List.mem_append.mp hw' with hold | hnew
      · exact .inl ⟨w', hold, rfl⟩
      · rw [List.mem_singleton.mp hnew]
        exact .inr rfl

theorem Evaluated.moved {repositoryId : Uuid} {source : EvaluatedSource} {c : Catalog} {db' : Database}
    {new : List RepositoryAnalysisRequest}
    (h : Evaluated k repositoryId source (staleWatches repositoryId source.contentHash c.tables)
      c.tables db' new) : WatchesMoved repositoryId c.tables db' := by
  constructor
  · intro w hw
    refine ⟨_, by rw [h.watches]; exact mem_updateWhere.mpr ⟨w, hw, rfl⟩, ?_⟩
    split
    · next hin =>
      obtain ⟨v, hv, hid⟩ := List.mem_map.mp (List.contains_iff_mem.mp hin)
      have hstale := mem_staleWatches.mp hv
      have hsame : v = w := c.valid.keys.watches.eq_of_mem hstale.1 hw hid
      exact ⟨rfl, rfl, .inr (hsame ▸ hstale.2.1)⟩
    · exact ⟨rfl, rfl, .inl rfl⟩
  · intro w' hw'
    rw [h.watches] at hw'
    obtain ⟨w, hw, rfl⟩ := mem_updateWhere.mp hw'
    refine .inl ⟨w, hw, ?_⟩
    split
    · rfl
    · rfl

/-- Watches that keep their ids and repositories, with the checkpoints they had. -/
theorem Ordered.watches_kept (h : Ordered s)
    (hwatches : s'.tables.repositoryWatches.map (fun w => (w.watchId, w.repositoryId)) =
      s.tables.repositoryWatches.map fun w => (w.watchId, w.repositoryId))
    (hcheckpoint : s'.checkpoint = s.checkpoint) (hrecorded : ∀ id, s.recorded id ≤ s'.recorded id) :
    (∀ w ∈ s'.tables.repositoryWatches, s'.checkpoint w.watchId ≤ s'.recorded w.repositoryId) ∧
      (∀ id, id ∉ s'.tables.repositoryWatches.map (·.watchId) → s'.checkpoint id = 0) ∧
      ∀ id, s.checkpoint id ≤ s'.checkpoint id := by
  rw [hcheckpoint]
  refine ⟨?_, ?_, fun _ => le_rfl⟩
  · intro w hw
    have hmem : (w.watchId, w.repositoryId) ∈
        s.tables.repositoryWatches.map fun w => (w.watchId, w.repositoryId) := by
      rw [← hwatches]
      exact List.mem_map.mpr ⟨w, hw, rfl⟩
    obtain ⟨v, hv, hsame⟩ := List.mem_map.mp hmem
    obtain ⟨hid, hrepository⟩ := Prod.mk.inj hsame
    rw [← hid, ← hrepository]
    exact (h.watches v hv).trans (hrecorded _)
  · intro id hnot
    have hids : ∀ db : Database, db.repositoryWatches.map (·.watchId) =
        (db.repositoryWatches.map fun w => (w.watchId, w.repositoryId)).map Prod.fst := by
      intro db
      rw [List.map_map]
      rfl
    rw [hids, hwatches, ← hids] at hnot
    exact h.unused id hnot

/-! ### Requests -/

/-- Numbered requests join their queue at its end. -/
theorem Ordered.queued (h : Ordered s) {new : List RepositoryAnalysisRequest} {number : ℕ}
    (hrequests : s'.tables.repositoryAnalysisRequests = s.tables.repositoryAnalysisRequests ++ new)
    (hnew : ∀ r ∈ new, (r.status = .queued ∧ r.outboxMessageId = none) ∧
      number = s.recorded r.repositoryId)
    (hlinks : s'.tables.repositoryAnalysisLinks = s.tables.repositoryAnalysisLinks)
    (hrequested : s'.requested = NumberedWorld.stampRequests s.tables number s.requested)
    (hrecorded : s'.recorded = s.recorded)
    (hwatches : (∀ w ∈ s'.tables.repositoryWatches,
        s'.checkpoint w.watchId ≤ s'.recorded w.repositoryId) ∧
      (∀ id, id ∉ s'.tables.repositoryWatches.map (·.watchId) → s'.checkpoint id = 0) ∧
      ∀ id, s.checkpoint id ≤ s'.checkpoint id) : Ordered s' ∧ Forward s s' := by
  have hkept : ∀ id ∈ s.tables.repositoryAnalysisRequests.map (·.requestId),
      s'.requested id = s.requested id := by
    intro id hid
    rw [hrequested]
    exact if_pos (List.contains_iff_mem.mpr hid)
  have hfresh : ∀ r ∈ new, s'.requested r.requestId = number := by
    intro r hr
    rw [hrequested]
    refine if_neg fun hin => ?_
    have hunique := s'.world.catalog.valid.keys.requests
    rw [show s'.world.catalog.tables.repositoryAnalysisRequests = _ from hrequests, UniqueOn,
      List.map_append] at hunique
    exact List.disjoint_of_nodup_append hunique (List.contains_iff_mem.mp hin)
      (List.mem_map_of_mem hr)
  refine ⟨⟨?_, ?_, ?_, hwatches.1, hwatches.2.1⟩, ?_, fun w _ => hwatches.2.2 w.watchId⟩
  · intro owner repositoryId
    exact (h.links owner repositoryId).queued (fun r hr => (hnew r hr).1) hrequests hlinks
  · intro owner repositoryId
    rw [requestsOf, hrequests, List.filter_append, List.map_append, ← requestsOf]
    refine List.pairwise_append.mpr ⟨?_, ?_, ?_⟩
    · refine (congrArg (List.Pairwise _) (List.map_congr_left fun r hr => ?_)).mpr
        (h.sorted owner repositoryId)
      exact hkept _ (List.mem_map_of_mem (List.mem_filter.mp hr).1)
    · refine List.pairwise_map.mpr (List.pairwise_of_forall_mem_list ?_)
      intro r hr q hq
      obtain ⟨hr, hrfor⟩ := List.mem_filter.mp hr
      obtain ⟨hq, -⟩ := List.mem_filter.mp hq
      rw [hfresh r hr, hfresh q hq]
    · intro m hm m' hm'
      obtain ⟨r, hr, rfl⟩ := List.mem_map.mp hm
      obtain ⟨q, hq, rfl⟩ := List.mem_map.mp hm'
      obtain ⟨hr, hrfor⟩ := List.mem_filter.mp hr
      obtain ⟨hq, hqfor⟩ := List.mem_filter.mp hq
      rw [hkept _ (List.mem_map_of_mem hr), hfresh q hq, (hnew q hq).2, (isFor_iff.mp hqfor).2,
        ← (isFor_iff.mp hrfor).2]
      exact h.requests r hr
  · intro r hr
    rw [hrequests] at hr
    rw [hrecorded]
    rcases List.mem_append.mp hr with hold | hadded
    · rw [hkept _ (List.mem_map_of_mem hold)]
      exact h.requests r hold
    · rw [hfresh r hadded, (hnew r hadded).2]
  · intro l hl l' hl' howner hrepository
    rw [hlinks] at hl'
    rw [link_eq hl hl' howner hrepository, hkept]
    exact s.world.catalog.valid.foreignKeys.links_request l hl _ rfl

/-- Requests that are sent or settled stay where they stand. -/
theorem Ordered.updated (h : Ordered s) {p : RepositoryAnalysisRequest → Bool}
    {f : RepositoryAnalysisRequest → RepositoryAnalysisRequest}
    (hrequests : s'.tables.repositoryAnalysisRequests =
      updateWhere p f s.tables.repositoryAnalysisRequests)
    (hf : ∀ r, (∀ owner repositoryId, (f r).isFor owner repositoryId = r.isFor owner repositoryId) ∧
      (f r).requestId = r.requestId ∧ (f r).repositoryId = r.repositoryId)
    (hlast : ∀ owner repositoryId, LinksLast owner repositoryId s'.tables)
    (hwatches : s'.tables.repositoryWatches = s.tables.repositoryWatches)
    (hrequested : s'.requested = s.requested) (hrecorded : s'.recorded = s.recorded)
    (hcheckpoint : s'.checkpoint = s.checkpoint) : Ordered s' where
  links := hlast
  sorted := by
    intro owner repositoryId
    rw [requestsOf_updateWhere hrequests fun r => (hf r).1 owner repositoryId, hrequested,
      map_updateWhere fun r => by rw [(hf r).2.1]]
    exact h.sorted owner repositoryId
  requests := by
    rw [hrequests, hrequested, hrecorded]
    refine forall_updateWhere h.requests fun r hr _ => ?_
    rw [(hf r).2.1, (hf r).2.2]
    exact h.requests r hr
  watches := by
    rw [hwatches, hcheckpoint, hrecorded]
    exact h.watches
  unused := by
    rw [hwatches, hcheckpoint]
    exact h.unused

/-- **A completion in queue order moves the link forward.** -/
theorem Ordered.forward_delivered (h : Ordered s) {db' : Database} {now : Time} {messageId : Uuid}
    {fact : TerminalFact} {status : TerminalStatus}
    (effect : Delivered k now messageId fact status s.tables db')
    (horder : status.subject = .analysisCompleted → InQueueOrder k fact s.tables) :
    ∀ l ∈ s.tables.repositoryAnalysisLinks, ∀ l' ∈ db'.repositoryAnalysisLinks,
      l'.ownerRef = l.ownerRef → l'.repositoryId = l.repositoryId →
      s.requested l.requestId ≤ s.requested l'.requestId := by
  intro l hl l' hl' howner hrepository
  have hsame : l' ∈ s.tables.repositoryAnalysisLinks →
      s.requested l.requestId ≤ s.requested l'.requestId := by
    intro hold
    rw [link_eq (c := s.world.catalog) hl hold howner hrepository]
  rcases Delivered.cases (c := s.world.catalog) effect with ⟨-, hlinks⟩ |
    ⟨before, r, after, hsplit, hnames, -, hafter, hlinks⟩
  · exact hsame (hlinks ▸ hl')
  rw [hlinks] at hl'
  by_cases hown : l'.ownerRef = fact.owner ∧ l'.repositoryId = fact.repositoryId
  · cases status with
    | failed code again => exact hsame hl'
    | completed ref =>
      rw [mem_linksAfter_own hown.1 hown.2] at hl'
      obtain ⟨hid, hrowner, hrrepository, -, -, hpending⟩ := names_iff.mp hnames
      -- The old link names a completed request, which stands before the one that completes now.
      obtain ⟨q, hq, hqid⟩ := (h.links fact.owner fact.repositoryId).last l hl
        (howner.symm.trans hown.1) (hrepository.symm.trans hown.2)
      obtain ⟨hqueue, hcompleted⟩ := List.mem_filter.mp (List.mem_of_getLast? hq)
      obtain ⟨hmem, hfor⟩ := List.mem_filter.mp hqueue
      have hbefore : q ∈ before := by
        rw [show s.tables.repositoryAnalysisRequests = before ++ r :: after from hsplit] at hmem
        rcases List.mem_append.mp hmem with hin | hrest
        · exact hin
        · rcases List.mem_cons.mp hrest with rfl | hlater
          · rw [RepositoryAnalysisRequest.isCompleted, hpending] at hcompleted
            cases hcompleted
          · rw [← hafter] at hlater
            rw [horder rfl q hlater hfor] at hcompleted
            cases hcompleted
      have hsorted := h.sorted fact.owner fact.repositoryId
      rw [requestsOf, show s.tables.repositoryAnalysisRequests = before ++ r :: after from hsplit,
        List.filter_append, List.filter_cons_of_pos (isFor_iff.mpr ⟨hrowner, hrrepository⟩),
        List.map_append, List.map_cons] at hsorted
      rw [hl', ← hqid]
      show s.requested q.requestId ≤ s.requested fact.requestId
      rw [← hid]
      exact (List.pairwise_append.mp hsorted).2.2 _
        (List.mem_map.mpr ⟨q, List.mem_filter.mpr ⟨hbefore, hfor⟩, rfl⟩) _ List.mem_cons_self
  · exact hsame ((mem_linksAfter_other hown).mp hl')

/-! ### Every step -/

theorem Ordered.settle (h : Ordered s) {n : ℕ} {ids : ℕ → Uuid} {now : Time}
    (horder : InOrder k s (.settle n ids now)) :
    Ordered (s.step k (.settle n ids now)) ∧ Forward s (s.step k (.settle n ids now)) := by
  -- A settled evaluation that changes no table numbers nothing.
  have hidle : ∀ s' : NumberedWorld, s'.tables = s.tables → s'.recorded = s.recorded →
      s'.requested = NumberedWorld.stampRequests s.tables (s.read.getD n 0) s.requested →
      s'.checkpoint = NumberedWorld.stampCheckpoints s.tables s'.tables (s.read.getD n 0)
        s.checkpoint → Ordered s' ∧ Forward s s' := by
    intro s' htables hrecorded hrequested hcheckpoint
    have hrequests : s'.tables.repositoryAnalysisRequests =
        s.tables.repositoryAnalysisRequests ++ [] := by rw [htables, List.append_nil]
    refine h.queued hrequests (by simp) (by rw [htables])
      hrequested hrecorded (h.watches_kept (by rw [htables]) ?_ fun _ => by rw [hrecorded])
    rw [hcheckpoint, htables]
    funext id
    exact if_pos rfl
  cases hread : s.world.reading[n]? with
  | none =>
    have hworld : s.world.step k (.settle n ids now) = s.world := by
      rw [WatchWorld.step, hread]
    refine hidle _ ?_ rfl rfl rfl
    show (s.world.step k (.settle n ids now)).tables = s.tables
    rw [hworld]
    rfl
  | some p =>
    have hcatalog : (s.world.step k (.settle n ids now)).catalog =
        (settleEvaluation k ids now p.1 p.2).commit s.world.catalog := by
      rw [WatchWorld.step, hread]
    have hnumber : s.read.getD n 0 = s.recorded p.1 := horder p hread
    rcases Tx.commit_cases (settleEvaluation k ids now p.1 p.2) s.world.catalog with ⟨_, hok⟩ | hsame
    · rw [← hcatalog] at hok
      obtain ⟨new, heval⟩ := settleEvaluation_spec hok
      refine h.queued heval.requests ?_
        ((touches_settleEvaluation _ _ _ _ _).rows_eq hok (t := .repositoryAnalysisLinks) (by decide))
        rfl rfl ?_
      · intro r hr
        obtain ⟨w, -, hqueued, -⟩ := heval.queued r hr
        exact ⟨⟨hqueued.status, hqueued.unsent⟩, by rw [hnumber, hqueued.repository]⟩
      · have hstamped := @Ordered.stamped _ h (s.world.step k (.settle n ids now)).catalog _ heval.moved
        rw [← hnumber] at hstamped
        exact hstamped
    · refine hidle _ ?_ rfl rfl rfl
      show (s.world.step k (.settle n ids now)).catalog.tables = s.tables
      rw [hcatalog, hsame]
      rfl

theorem Ordered.dispatch (h : Ordered s) (locked : Uuid → Bool) (messageId : Uuid) (now : Time) :
    Ordered (s.step k (.dispatch locked messageId now)) ∧
      Forward s (s.step k (.dispatch locked messageId now)) := by
  rcases Tx.commit_cases (dispatchUnlocked k locked messageId now) s.world.catalog with ⟨_, hok⟩ | hsame
  · have hframe := touches_dispatchUnlocked k locked messageId now
    have hlinks : (s.step k (.dispatch locked messageId now)).tables.repositoryAnalysisLinks =
        s.tables.repositoryAnalysisLinks :=
      hframe.rows_eq hok (t := .repositoryAnalysisLinks) (by decide)
    have hwatches := hframe.rows_eq hok (t := .repositoryWatches) (by decide)
    rcases dispatchUnlocked_spec hok with hsame | ⟨r, hr, requested, envelope, hqueued, -, -, -,
      hrequests⟩
    · exact h.frame (congrArg (·.tables.repositoryAnalysisRequests) hsame) hlinks rfl (fun _ => le_rfl)
        (h.watches_kept (congrArg _ hwatches) rfl fun _ => le_rfl)
    · refine ⟨h.updated hrequests (fun q => ⟨fun _ _ => rfl, rfl, rfl⟩) (fun owner repositoryId =>
        (h.links owner repositoryId).sent hr hqueued hrequests hlinks) hwatches rfl rfl rfl, ?_,
        fun _ _ => le_rfl⟩
      intro l hl l' hl' howner hrepository
      rw [hlinks] at hl'
      rw [link_eq hl hl' howner hrepository]
      exact le_rfl
  · have htables : (s.step k (.dispatch locked messageId now)).tables = s.tables :=
      congrArg (·.tables) hsame
    exact h.frame (by rw [htables]) (by rw [htables]) rfl (fun _ => le_rfl)
      (h.watches_kept (by rw [htables]) rfl fun _ => le_rfl)

theorem Ordered.deliver (h : Ordered s) {now : Time} {messageId : Uuid} {fact : TerminalFact}
    {status : TerminalStatus} (horder : InOrder k s (.deliver now messageId fact status)) :
    Ordered (s.step k (.deliver now messageId fact status)) ∧
      Forward s (s.step k (.deliver now messageId fact status)) := by
  have hcases : (consumeTerminalFact k now messageId fact status).commit s.world.catalog =
      s.world.catalog ∨ Delivered k now messageId fact status s.world.catalog.tables
        ((consumeTerminalFact k now messageId fact status).commit s.world.catalog).tables :=
    deliver_cases
  rcases hcases with hsame | heffect
  · have htables : (s.step k (.deliver now messageId fact status)).tables = s.tables :=
      congrArg (·.tables) hsame
    exact h.frame (by rw [htables]) (by rw [htables]) rfl (fun _ => le_rfl)
      (h.watches_kept (by rw [htables]) rfl fun _ => le_rfl)
  · have hwatches := (touches_consumeTerminalFact k now messageId fact status).commit s.world.catalog
      .repositoryWatches (by decide)
    have hidentity : ∀ r : RepositoryAnalysisRequest, _ := fun r => settle_identity now status r
    refine ⟨h.updated heffect.requests
      (fun r => ⟨(hidentity r).1, (hidentity r).2.1, (hidentity r).2.2.1⟩) (fun owner repositoryId =>
        (h.links owner repositoryId).delivered heffect ?_) hwatches rfl rfl rfl, ?_, fun _ _ => le_rfl⟩
    · rintro ref rfl
      exact horder rfl
    · exact h.forward_delivered heffect horder

/-- **One step.** -/
theorem Ordered.step (h : Ordered s) (e : WatchEvent) (horder : InOrder k s e) :
    Ordered (s.step k e) ∧ Forward s (s.step k e) := by
  cases e with
  | register fresh owner repositoryId baseline =>
    have hframe := touches_registerRepositoryAnalysisWatch fresh owner repositoryId baseline
    have hmoved : WatchesMoved repositoryId s.tables
        ((registerRepositoryAnalysisWatch fresh owner repositoryId baseline).commit
          s.world.catalog).tables := by
      rcases Tx.commit_cases (registerRepositoryAnalysisWatch fresh owner repositoryId baseline)
        s.world.catalog with ⟨_, hok⟩ | hsame
      · exact registerWatch_moved hok
      · rw [hsame]
        exact watchesMoved_of_eq _ rfl
    exact h.frame (hframe.commit s.world.catalog .repositoryAnalysisRequests (by decide))
      (hframe.commit s.world.catalog .repositoryAnalysisLinks (by decide)) rfl (fun _ => le_rfl)
      (h.stamped hmoved)
  | enable watchId enabled =>
    have hframe : Touches [.repositoryWatches] (setRepositoryAnalysisWatchEnabled watchId enabled) :=
      Touches.write (List.mem_singleton.mpr rfl) _
    refine h.frame (hframe.commit s.world.catalog .repositoryAnalysisRequests (by decide))
      (hframe.commit s.world.catalog .repositoryAnalysisLinks (by decide)) rfl (fun _ => le_rfl)
      (h.watches_kept ?_ rfl fun _ => le_rfl)
    rcases Tx.commit_cases (setRepositoryAnalysisWatchEnabled watchId enabled) s.world.catalog with
      ⟨_, hok⟩ | hsame
    · show ((setRepositoryAnalysisWatchEnabled watchId enabled).commit
        s.world.catalog).tables.repositoryWatches.map _ = _
      rw [write_eq_ok.mp hok]
      apply map_updateWhere
      intro w
      rfl
    · exact congrArg (fun c : Catalog => c.tables.repositoryWatches.map _) hsame
  | refresh revisionId now repositoryId body etag readme readmeEtag =>
    have hframe := touches_applyFreshSource k revisionId now repositoryId body etag readme readmeEtag
    have hgrows : ∀ id, s.recorded id ≤ (s.step k
        (.refresh revisionId now repositoryId body etag readme readmeEtag)).recorded id := by
      intro id
      show _ ≤ (if _ then _ else _)
      split
      · exact Nat.le_succ _
      · exact le_rfl
    exact h.frame (hframe.commit s.world.catalog .repositoryAnalysisRequests (by decide))
      (hframe.commit s.world.catalog .repositoryAnalysisLinks (by decide)) rfl hgrows
      (h.watches_kept (congrArg _ (hframe.commit s.world.catalog .repositoryWatches (by decide))) rfl
        hgrows)
  | read repositoryId =>
    have htables : (s.step k (.read repositoryId)).tables = s.tables := by
      show (s.world.step k (.read repositoryId)).tables = s.world.tables
      rw [WatchWorld.step]
      split
      · rfl
      · rfl
    exact h.frame (by rw [htables]) (by rw [htables]) rfl (fun _ => le_rfl)
      (h.watches_kept (by rw [htables]) rfl fun _ => le_rfl)
  | settle n ids now => exact h.settle horder
  | dispatch locked messageId now => exact h.dispatch locked messageId now
  | deliver now messageId fact status => exact h.deliver horder

end invariant

/-- **Analyses move forward** in every history whose evaluations settle before the next revision is
recorded and whose completions arrive in queue order. -/
theorem analysis_forward {k : Contracts} {c : Catalog}
    (hstart : c.tables.repositoryAnalysisRequests = []) {history : List WatchEvent}
    (horder : Runs.Guarded (NumberedWorld.step k) (InOrder k) (NumberedWorld.start c) history) :
    Runs.Guarded (NumberedWorld.step k) (fun s e => Forward s (s.step k e)) (NumberedWorld.start c)
      history :=
  Runs.guarded_of_step (fun _ e h hguard => h.step e hguard) (ordered_start hstart) horder

/-- Repository 5 is stored with another README, the `n`-th time. -/
def storedReadme (n : ℕ) (readme : ReadmeRevision) : WatchEvent :=
  .refresh (BitVec.ofNat 128 (40 + n)) n 5 watchedBody none readme none

/-- The evaluation in place `i` goes on. -/
def settledAt (i n : ℕ) : WatchEvent :=
  .settle i (fun j => BitVec.ofNat 128 (60 + 2 * n + j)) n

/-- A request goes out. -/
def sentOut (n : ℕ) : WatchEvent := .dispatch (fun _ => false) (BitVec.ofNat 128 (80 + n)) 9000000

/-- The request of the `n`-th evaluation completes. -/
def completedAt (n : ℕ) (readme : ReadmeRevision) : WatchEvent :=
  .deliver 9000000 (BitVec.ofNat 128 (90 + n)) (factOf (BitVec.ofNat 128 (60 + 2 * n)) readme)
    (.completed "result")

/-- A README appears; its revision is evaluated, requested and analysed. -/
def oneRevision : List WatchEvent :=
  [storedReadme 1 emptyReadme, .read 5, settledAt 0 1, sentOut 1, completedAt 1 emptyReadme]

/-- A README appears and goes again, each time evaluated; the second request completes first. -/
def lateCompletion : List WatchEvent :=
  [storedReadme 1 emptyReadme, .read 5, settledAt 0 1, storedReadme 2 bareReadme, .read 5,
    settledAt 0 2, sentOut 1, sentOut 2, completedAt 2 bareReadme, completedAt 1 emptyReadme]

/-- Two evaluations read the README; one of them settles after the revision without it was
evaluated. -/
def lateEvaluation : List WatchEvent :=
  [storedReadme 1 emptyReadme, .read 5, .read 5, settledAt 0 1, storedReadme 2 bareReadme, .read 5,
    settledAt 1 2, settledAt 0 3]

theorem watchedCatalog_unrequested : watchedCatalog.tables.repositoryAnalysisRequests = [] := rfl

theorem analysis_forward_oneRevision :
    Runs.Guarded (NumberedWorld.step revisionContracts)
      (fun s e => Forward s (s.step revisionContracts e)) (NumberedWorld.start watchedCatalog)
      oneRevision :=
  analysis_forward watchedCatalog_unrequested (by decide +kernel)

/-- **Analyses move back**: a late completion takes the link back to the first revision, and a late
evaluation the checkpoint. -/
theorem analysis_moved_back :
    (¬ ∀ (k : Contracts) (c : Catalog) (history : List WatchEvent),
      c.tables.repositoryAnalysisRequests = [] → Runs.Guarded (NumberedWorld.step k)
        (fun s e => LinksForward s (s.step k e)) (NumberedWorld.start c) history) ∧
    ¬ ∀ (k : Contracts) (c : Catalog) (history : List WatchEvent),
      c.tables.repositoryAnalysisRequests = [] → Runs.Guarded (NumberedWorld.step k)
        (fun s e => CheckpointsForward s (s.step k e)) (NumberedWorld.start c) history := by
  constructor
  · intro h
    have hlate := h revisionContracts watchedCatalog lateCompletion watchedCatalog_unrequested
    revert hlate
    decide +kernel
  · intro h
    have hlate := h revisionContracts watchedCatalog lateEvaluation watchedCatalog_unrequested
    revert hlate
    decide +kernel

end GithubCatalog
