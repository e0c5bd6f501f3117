import GithubCatalog.Lib.Pacing
import GithubCatalog.Lib.Runs
import GithubCatalog.RequestRows

/-!
# The pacing of analysis requests

Evaluations take the due times of their requests from the one dispatch cursor.  An evaluation reads
the stored revision, locks the stale watches, and allocates due times under the lock of the cursor
row; other evaluations and every other operation may come between these.

* `allocateRequests` - an evaluation from the lock of the cursor on;
* `PacingWorld` - a catalog with the evaluations in flight, and the clock of the evaluation that
  queued each request.
-/

namespace GithubCatalog

open Relational Transact Pacing

/-! ### Allocation -/

/-- `evaluate_metadata_watches` from the lock of the cursor on, for the watches it has locked. -/
def allocateRequests (k : Contracts) (ids : ℕ → Uuid) (now : Time) (repositoryId : Uuid)
    (source : EvaluatedSource) (watches : List RepositoryWatch) : Tx WatchEvaluation := do
  write .repositoryAnalysisDispatchCursor fun db =>
    some (db.repositoryAnalysisDispatchCursor.getD now)
  let next ← fetchOne (·.repositoryAnalysisDispatchCursor)
  let (last, count) ← evaluateWatches k ids now repositoryId source watches.zipIdx next
  onlyIf (decide (0 < count)) (write .repositoryAnalysisDispatchCursor fun _ => some last)
  pure (.queued count)

/-- An evaluation whose parts follow each other. -/
theorem settleEvaluation_eq (k : Contracts) (ids : ℕ → Uuid) (now : Time) (repositoryId : Uuid)
    (source : EvaluatedSource) : settleEvaluation k ids now repositoryId source =
      (select (staleWatches repositoryId source.contentHash) >>= fun watches =>
        if watches.isEmpty then pure .unchanged
        else allocateRequests k ids now repositoryId source watches) :=
  rfl

/-- The requests of a database, below a cursor. -/
abbrev PacedBelow (db : Database) (next : Time) : Prop :=
  Paced dispatchSpacing RepositoryAnalysisRequest.requestId RepositoryAnalysisRequest.notBefore
    db.repositoryAnalysisRequests next

/-- What some evaluations at `now` do to the requests and the cursor they carry. -/
structure Allotted (now next next' : Time) (queued : ℕ) (db db' : Database) : Prop where
  paced : PacedBelow db next → PacedBelow db' next'
  idle : queued = 0 → next' = next ∧
    db'.repositoryAnalysisRequests = db.repositoryAnalysisRequests
  due : ∀ r ∈ db'.repositoryAnalysisRequests, r ∈ db.repositoryAnalysisRequests ∨ now ≤ r.notBefore
  kept : db.repositoryAnalysisRequests ⊆ db'.repositoryAnalysisRequests

section allocation

variable {k : Contracts} {ids : ℕ → Uuid} {now : Time} {repositoryId : Uuid} {source : EvaluatedSource}
  {c c' : Catalog}

/-- The evaluation of one watch takes one slot, or none where its request exists. -/
theorem evaluateWatch_allotted {requestId : Uuid} {w : RepositoryWatch} {next : Time}
    {out : Time × Bool}
    (h : evaluateWatch k requestId now repositoryId source w next c = .ok (out, c')) :
    Allotted now next out.1 out.2.toNat c.tables c'.tables := by
  simp only [evaluateWatch, Tx.bind_eq_ok, require_eq_ok, select_eq_ok, write_eq_ok,
    Tx.pure_eq_ok] at h
  obtain ⟨-, _, ⟨-, rfl⟩, known, _, ⟨hknown, rfl⟩, -, c₁, h₁, -, c₂, h₂, hout, rfl⟩ := h
  have hrequests : c₂.tables.repositoryAnalysisRequests = c₁.tables.repositoryAnalysisRequests := by
    rw [h₂]
    rfl
  cases known with
  | true =>
    have hsame : c₂.tables.repositoryAnalysisRequests = c.tables.repositoryAnalysisRequests := by
      rw [hrequests, h₁]
      exact if_pos hknown
    subst hout
    refine ⟨fun hpaced => ?_, fun _ => ⟨rfl, hsame⟩, fun r hr => .inl (hsame ▸ hr), ?_⟩
    · rw [PacedBelow, hsame]
      exact hpaced
    · rw [hsame]
      exact List.Subset.refl _
  | false =>
    have hnew : c₂.tables.repositoryAnalysisRequests = c.tables.repositoryAnalysisRequests ++
        [queuedRequest k w (analysisRequest k requestId w.ownerRef repositoryId source)
          (max next now)] := by
      rw [hrequests, h₁]
      exact if_neg (Bool.eq_false_iff.mp hknown)
    subst hout
    refine ⟨fun hpaced => ?_, fun hnone => absurd hnone (by simp), fun r hr => ?_, ?_⟩
    · rw [PacedBelow, hnew]
      exact hpaced.take (Nat.zero_le _) (le_max_left next now)
    · rw [hnew, List.mem_append, List.mem_singleton] at hr
      rcases hr with hr | rfl
      · exact .inl hr
      · exact .inr (le_max_right next now)
    · rw [hnew]
      exact List.subset_append_left _ _

theorem Allotted.trans {next next' next'' : Time} {n m : ℕ} {db mid db' : Database}
    (h : Allotted now next next' n db mid) (h' : Allotted now next' next'' m mid db') :
    Allotted now next next'' (n + m) db db' where
  paced hpaced := h'.paced (h.paced hpaced)
  idle hnone := by
    obtain ⟨hcursor, hrows⟩ := h.idle (by omega)
    obtain ⟨hcursor', hrows'⟩ := h'.idle (by omega)
    exact ⟨hcursor'.trans hcursor, hrows'.trans hrows⟩
  due r hr := by
    rcases h'.due r hr with hmid | hdue
    · exact h.due r hmid
    · exact .inr hdue
  kept := List.Subset.trans h.kept h'.kept

/-- The loop over the watches. -/
theorem evaluateWatches_allotted {rest : List (RepositoryWatch × ℕ)} {next : Time} {out : Time × ℕ}
    (h : evaluateWatches k ids now repositoryId source rest next c = .ok (out, c')) :
    Allotted now next out.1 out.2 c.tables c'.tables := by
  induction rest generalizing next c out with
  | nil =>
    obtain ⟨rfl, rfl⟩ := Tx.pure_eq_ok.mp h
    exact ⟨id, fun _ => ⟨rfl, rfl⟩, fun r hr => .inl hr, List.Subset.refl _⟩
  | cons p rest ih =>
    simp only [evaluateWatches, Tx.bind_eq_ok, Tx.pure_eq_ok] at h
    obtain ⟨first, c₁, h₁, others, c₂, h₂, rfl, rfl⟩ := h
    exact (evaluateWatch_allotted h₁).trans (ih h₂)

/-- The cursor is past every request. -/
def CursorPast (db : Database) : Prop :=
  db.repositoryAnalysisRequests = [] ∨
    ∃ next, db.repositoryAnalysisDispatchCursor = some next ∧ PacedBelow db next

/-- **An allocation.**  The requests stay spaced below the cursor, and the new ones are due at `now`
or later. -/
theorem allocateRequests_spec {watches : List RepositoryWatch} {out : WatchEvaluation}
    (h : allocateRequests k ids now repositoryId source watches c = .ok (out, c'))
    (hpast : CursorPast c.tables) :
    CursorPast c'.tables ∧ c.tables.repositoryAnalysisRequests ⊆ c'.tables.repositoryAnalysisRequests ∧
      ∀ r ∈ c'.tables.repositoryAnalysisRequests,
        r ∈ c.tables.repositoryAnalysisRequests ∨ now ≤ r.notBefore := by
  simp only [allocateRequests, Tx.bind_eq_ok, fetchOne_eq_ok, Tx.pure_eq_ok] at h
  obtain ⟨⟨⟩, c₁, h₁, next, _, ⟨hnext, rfl⟩, ⟨last, count⟩, c₂, h₂, ⟨⟩, c₃, h₃, -, rfl⟩ := h
  have hbefore := write_eq_ok.mp h₁
  have hrequests₁ : c₁.tables.repositoryAnalysisRequests = c.tables.repositoryAnalysisRequests := by
    rw [hbefore]
    rfl
  have hcursor₁ : c₁.tables.repositoryAnalysisDispatchCursor =
      some (c.tables.repositoryAnalysisDispatchCursor.getD now) := by
    rw [hbefore]
    rfl
  have hloop := evaluateWatches_allotted h₂
  have hpaced₁ : PacedBelow c₁.tables next := by
    rw [PacedBelow, hrequests₁]
    rcases hpast with hnone | ⟨stored, hstored, hpaced⟩
    · rw [hnone]
      exact Paced.nil
    · rw [hcursor₁, hstored] at hnext
      exact Option.some.inj hnext ▸ hpaced
  have hcursor₂ : c₂.tables.repositoryAnalysisDispatchCursor = some next :=
    ((touches_evaluateWatches _ _ _ _ _ _ _).rows_eq h₂ (t := .repositoryAnalysisDispatchCursor)
      (by decide)).trans hnext
  have hupdate : Touches [.repositoryAnalysisDispatchCursor] (onlyIf (decide (0 < count))
      (write .repositoryAnalysisDispatchCursor fun _ => some last)) :=
    Touches.onlyIf (Touches.write (by decide) _)
  have hrequests₃ : c₃.tables.repositoryAnalysisRequests = c₂.tables.repositoryAnalysisRequests :=
    hupdate.rows_eq h₃ (t := .repositoryAnalysisRequests) (by decide)
  have hcursor₃ : c₃.tables.repositoryAnalysisDispatchCursor = some last := by
    by_cases hqueued : 0 < count
    · rw [decide_eq_true hqueued] at h₃
      replace h₃ : write .repositoryAnalysisDispatchCursor (fun _ => some last) c₂ = .ok ((), c₃) := h₃
      rw [write_eq_ok.mp h₃]
      rfl
    · rw [decide_eq_false hqueued] at h₃
      obtain ⟨-, rfl⟩ := Tx.pure_eq_ok.mp h₃
      have hidle : last = next := (hloop.idle (Nat.eq_zero_of_not_pos hqueued)).1
      rw [hcursor₂, hidle]
  refine ⟨.inr ⟨last, hcursor₃, ?_⟩, ?_, ?_⟩
  · rw [PacedBelow, hrequests₃]
    exact hloop.paced hpaced₁
  · rw [hrequests₃, ← hrequests₁]
    exact hloop.kept
  · rw [hrequests₃, ← hrequests₁]
    exact hloop.due

end allocation

/-! ### Evaluations side by side -/

/-- A catalog with the evaluations that have read and those that have locked their watches, and the
`now` of the evaluation that queued each request. -/
structure PacingWorld where
  catalog : Catalog
  reading : List (Uuid × EvaluatedSource)
  locking : List (Uuid × EvaluatedSource × List RepositoryWatch)
  queuedAt : Uuid → Option Time

inductive PacingEvent where
  /-- An evaluation reads the stored revision. -/
  | read (repositoryId : Uuid)
  /-- The evaluation that read in place `n` locks its stale watches. -/
  | lock (n : ℕ)
  /-- The evaluation that locked in place `n` locks the cursor and finishes. -/
  | allocate (n : ℕ) (ids : ℕ → Uuid) (now : Time)
  | other (op : Operation) (h : op.evaluates = false)

namespace PacingWorld

def start : PacingWorld := ⟨emptyCatalog, [], [], fun _ => none⟩

/-- The requests that were not there before are stamped with `now`. -/
def stamp (before after : Database) (now : Time) (old : Uuid → Option Time) : Uuid → Option Time :=
  fun id =>
    if id ∈ after.repositoryAnalysisRequests.map (·.requestId) ∧
      id ∉ before.repositoryAnalysisRequests.map (·.requestId) then some now else old id

def step (k : Contracts) (w : PacingWorld) : PacingEvent → PacingWorld
  | .read repositoryId =>
    match evaluatedSource k repositoryId w.catalog.tables with
    | .ok source => { w with reading := w.reading ++ [(repositoryId, source)] }
    | .error _ => w
  | .lock n =>
    match w.reading[n]? with
    | none => w
    | some (repositoryId, source) =>
      let watches := staleWatches repositoryId source.contentHash w.catalog.tables
      { w with
        reading := w.reading.eraseIdx n
        locking := if watches.isEmpty then w.locking
          else w.locking ++ [(repositoryId, source, watches)] }
  | .allocate n ids now =>
    match w.locking[n]? with
    | none => w
    | some (repositoryId, source, watches) =>
      let after := (allocateRequests k ids now repositoryId source watches).commit w.catalog
      { w with
        catalog := after
        locking := w.locking.eraseIdx n
        queuedAt := stamp w.catalog.tables after.tables now w.queuedAt }
  | .other op _ => { w with catalog := GithubCatalog.step k w.catalog op }

end PacingWorld

/-- Any two requests are at least the spacing apart, and none is due before the `now` of the evaluation
that queued it. -/
structure RequestsPaced (w : PacingWorld) : Prop where
  apart : ∀ r ∈ w.catalog.tables.repositoryAnalysisRequests,
    ∀ r' ∈ w.catalog.tables.repositoryAnalysisRequests, r.requestId ≠ r'.requestId →
      r.notBefore + dispatchSpacing ≤ r'.notBefore ∨ r'.notBefore + dispatchSpacing ≤ r.notBefore
  due : ∀ r ∈ w.catalog.tables.repositoryAnalysisRequests,
    ∃ now, w.queuedAt r.requestId = some now ∧ now ≤ r.notBefore

/-- The invariant: the cursor is past every request, and every request is due after its evaluation. -/
structure PacedByCursor (w : PacingWorld) : Prop where
  past : CursorPast w.catalog.tables
  due : ∀ r ∈ w.catalog.tables.repositoryAnalysisRequests,
    ∃ now, w.queuedAt r.requestId = some now ∧ now ≤ r.notBefore

namespace PacedByCursor

variable {w : PacingWorld}

theorem requestsPaced (h : PacedByCursor w) : RequestsPaced w where
  apart r hr r' hr' hne := by
    rcases h.past with hnone | ⟨next, -, hpaced⟩
    · rw [hnone] at hr
      cases hr
    · exact hpaced.apart r hr r' hr' hne
  due := h.due

/-- Operations that ask nothing keep the cursor past every request. -/
theorem other (h : PacedByCursor w) (k : Contracts) (op : Operation) (hop : op.evaluates = false) :
    PacedByCursor { w with catalog := op.commit k w.catalog } := by
  have hfrom := op.commit_requests k w.catalog hop
  have hcursor : (op.commit k w.catalog).tables.repositoryAnalysisDispatchCursor =
      w.catalog.tables.repositoryAnalysisDispatchCursor := by
    refine Operation.rows_commit k w.catalog op .repositoryAnalysisDispatchCursor ?_
    cases op with
    | evaluateWatches => cases hop
    | _ => rfl
  have hcolumns : ∀ r r' : RepositoryAnalysisRequest, r.asked = r'.asked →
      r.requestId = r'.requestId ∧ r.notBefore = r'.notBefore := by
    intro r r' hasked
    exact ⟨congrArg (·.requestId) hasked, congrArg (·.notBefore) hasked⟩
  constructor
  · rcases h.past with hnone | ⟨next, hnext, hpaced⟩
    · refine .inl (List.eq_nil_iff_forall_not_mem.mpr fun r' hr' => ?_)
      obtain ⟨r, hr, -⟩ := hfrom r' hr'
      rw [hnone] at hr
      cases hr
    · refine .inr ⟨next, hcursor.trans hnext, hpaced.thin fun r' hr' => ?_⟩
      obtain ⟨r, hr, hasked⟩ := hfrom r' hr'
      exact ⟨r, hr, hcolumns r r' hasked⟩
  · intro r' hr'
    obtain ⟨r, hr, hasked⟩ := hfrom r' hr'
    obtain ⟨hid, htime⟩ := hcolumns r r' hasked
    obtain ⟨now, hqueued, hle⟩ := h.due r hr
    exact ⟨now, hid ▸ hqueued, htime ▸ hle⟩

theorem allocate (h : PacedByCursor w) {k : Contracts} {ids : ℕ → Uuid} {now : Time}
    {repositoryId : Uuid} {source : EvaluatedSource} {watches : List RepositoryWatch}
    {out : WatchEvaluation} {c' : Catalog}
    (hok : allocateRequests k ids now repositoryId source watches w.catalog = .ok (out, c')) :
    CursorPast c'.tables ∧ ∀ r ∈ c'.tables.repositoryAnalysisRequests,
      ∃ at', PacingWorld.stamp w.catalog.tables c'.tables now w.queuedAt r.requestId = some at' ∧
        at' ≤ r.notBefore := by
  obtain ⟨hpast, hkept, hnew⟩ := allocateRequests_spec hok h.past
  refine ⟨hpast, fun r hr => ?_⟩
  unfold PacingWorld.stamp
  by_cases hold : r.requestId ∈ w.catalog.tables.repositoryAnalysisRequests.map (·.requestId)
  · -- The row of an old id is the old row.
    rw [if_neg fun hboth => hboth.2 hold]
    obtain ⟨q, hq, hid⟩ := List.mem_map.mp hold
    have hsame : q = r := c'.valid.keys.requests.eq_of_mem (hkept hq) hr hid
    exact h.due r (hsame ▸ hq)
  · rw [if_pos ⟨List.mem_map_of_mem hr, hold⟩]
    rcases hnew r hr with hwas | hdue
    · exact absurd (List.mem_map_of_mem hwas) hold
    · exact ⟨now, rfl, hdue⟩

/-- **The step lemma.** -/
theorem step (h : PacedByCursor w) (k : Contracts) (e : PacingEvent) : PacedByCursor (w.step k e) := by
  cases e with
  | read repositoryId =>
    cases hread : evaluatedSource k repositoryId w.catalog.tables with
    | error e =>
      simp only [PacingWorld.step, hread]
      exact h
    | ok source =>
      simp only [PacingWorld.step, hread]
      exact ⟨h.past, h.due⟩
  | lock n =>
    cases hn : w.reading[n]? with
    | none =>
      simp only [PacingWorld.step, hn]
      exact h
    | some p =>
      simp only [PacingWorld.step, hn]
      exact ⟨h.past, h.due⟩
  | allocate n ids now =>
    cases hn : w.locking[n]? with
    | none =>
      simp only [PacingWorld.step, hn]
      exact h
    | some p =>
      simp only [PacingWorld.step, hn]
      rcases Tx.commit_cases (allocateRequests k ids now p.1 p.2.1 p.2.2) w.catalog with
        ⟨out, hok⟩ | hsame
      · obtain ⟨hpast, hdue⟩ := h.allocate hok
        exact ⟨hpast, hdue⟩
      · simp only [hsame]
        refine ⟨h.past, fun r hr => ?_⟩
        show ∃ at', PacingWorld.stamp _ _ _ _ _ = some at' ∧ _
        unfold PacingWorld.stamp
        rw [if_neg fun hboth => hboth.2 (List.mem_map_of_mem hr)]
        exact h.due r hr
  | other op hop =>
    show PacedByCursor { w with catalog := GithubCatalog.step k w.catalog op }
    unfold GithubCatalog.step
    split
    · exact h.other k op hop
    · exact h

end PacedByCursor

/-- **Requests are paced.**  Whatever evaluations of whatever repositories run side by side, with
whatever clocks and next to whatever other operations, in every state they reach any two analysis
requests are due at least the dispatch spacing apart, and each no earlier than the clock of its
evaluation. -/
theorem requests_paced (k : Contracts) (history : List PacingEvent) :
    RequestsPaced (Runs.runFrom (PacingWorld.step k) PacingWorld.start history) := by
  have hstart : PacedByCursor PacingWorld.start := by
    constructor
    · exact .inl rfl
    · intro r hr
      cases hr
  have hrun : PacedByCursor (Runs.runFrom (PacingWorld.step k) PacingWorld.start history) :=
    Runs.invariant_runFrom (fun w e (hw : PacedByCursor w) => hw.step k e) hstart history
  exact hrun.requestsPaced

end GithubCatalog
