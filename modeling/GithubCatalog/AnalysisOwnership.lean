import GithubCatalog.ErasureOrder

/-!
# Whose analyses

A queued request belongs to the owner of its watch, and a link to the owner of its request, in every
reachable catalog: requests are made of the watch they name, terminal facts are matched by owner, and
no later statement moves a watch, a request or a link to another owner.

* `Analysed` - the invariant, for every owner at once;
* `Operation.commit_analysed` - every operation keeps it.
-/

namespace GithubCatalog

open Relational Transact

/-- Every request is its watch's owner's, and every link its request's owner's. -/
structure Analysed (db : Database) : Prop where
  requests : ∀ r ∈ db.repositoryAnalysisRequests, ∀ w ∈ db.repositoryWatches,
    w.watchId = r.watchId → w.ownerRef = r.ownerRef
  links : ∀ l ∈ db.repositoryAnalysisLinks, ∀ r ∈ db.repositoryAnalysisRequests,
    r.requestId = l.requestId → r.ownerRef = l.ownerRef

theorem Analysed.evidence {db : Database} (h : Analysed db) (owner : String) :
    AnalysisEvidence owner db where
  requests := fun r hr w hw hid howner => (h.requests r hr w hw hid).symm.trans howner
  links := fun l hl r hr hid howner => (h.links l hl r hr hid).symm.trans howner

/-- The tables the invariant is about. -/
def analysisTables : List Table :=
  [.repositoryWatches, .repositoryAnalysisRequests, .repositoryAnalysisLinks]

theorem analysed_of_agree {db db' : Database}
    (h : ∀ t ∈ analysisTables, db'.rows t = db.rows t) : Tx.Keeps Analysed db db' := by
  intro hold
  have hwatches : db'.repositoryWatches = db.repositoryWatches := h .repositoryWatches (by decide)
  have hrequests : db'.repositoryAnalysisRequests = db.repositoryAnalysisRequests :=
    h .repositoryAnalysisRequests (by decide)
  have hlinks : db'.repositoryAnalysisLinks = db.repositoryAnalysisLinks :=
    h .repositoryAnalysisLinks (by decide)
  constructor
  · rw [hwatches, hrequests]
    exact hold.requests
  · rw [hrequests, hlinks]
    exact hold.links

/-! ### Watches -/

/-- A watch of the table, up to its checkpoint. -/
def knownWatch (db : Database) (watch : RepositoryWatch) : Prop :=
  ∃ w ∈ db.repositoryWatches, w.watchId = watch.watchId ∧ w.ownerRef = watch.ownerRef

/-- An update that keeps whose the watches are. -/
theorem analysed_updateWatches {db : Database} {p : RepositoryWatch → Bool}
    {f : RepositoryWatch → RepositoryWatch}
    (hf : ∀ w, (f w).watchId = w.watchId ∧ (f w).ownerRef = w.ownerRef) :
    Tx.Keeps Analysed db (db.put .repositoryWatches (updateWhere p f db.repositoryWatches)) := by
  intro hold
  refine { hold with requests := fun r hr => forall_updateWhere (hold.requests r hr) ?_ }
  intro w hw _ hid
  rw [(hf w).1] at hid
  rw [(hf w).2]
  exact hold.requests r hr w hw hid

theorem relates_analysed_registerWatch (fresh : Uuid) (owner : String) (r : Uuid)
    (baseline : WatchBaseline) :
    Tx.Relates (Tx.Keeps Analysed) (registerRepositoryAnalysisWatch fresh owner r baseline) := by
  refine Tx.Relates.bind (relates_attempt _) fun checkpoint =>
    Tx.Relates.bind (relates_write_valid ?_) fun _ => relates_fetchOne _
  intro db hvalid hvalid'
  unfold upsertWhere at hvalid' ⊢
  split at hvalid'
  · next hany =>
    rw [if_pos hany]
    exact analysed_updateWatches fun _ => ⟨rfl, rfl⟩
  · next hany =>
    rw [if_neg hany]
    intro hold
    refine { hold with
      requests := fun q hq => forall_append_singleton (hold.requests q hq) ?_ }
    -- Nothing names a watch that is being inserted.
    intro hid
    have hfresh := hvalid'.keys.watches.not_mem_of_append
    rw [hid] at hfresh
    exact absurd (hvalid.foreignKeys.requests_watch q hq _ rfl) hfresh

/-! ### Requests -/

/-- An update that keeps whose the requests are. -/
theorem analysed_updateRequests {db : Database} {p : RepositoryAnalysisRequest → Bool}
    {f : RepositoryAnalysisRequest → RepositoryAnalysisRequest}
    (hf : ∀ r, (f r).requestId = r.requestId ∧ (f r).watchId = r.watchId ∧
      (f r).ownerRef = r.ownerRef) : Tx.Keeps Analysed db
      (db.put .repositoryAnalysisRequests (updateWhere p f db.repositoryAnalysisRequests)) := by
  intro hold
  refine ⟨forall_updateWhere hold.requests ?_, fun l hl => forall_updateWhere (hold.links l hl) ?_⟩
  · intro r hr _ w hw hid
    rw [(hf r).2.1] at hid
    rw [(hf r).2.2]
    exact hold.requests r hr w hw hid
  · intro r hr _ hid
    rw [(hf r).1] at hid
    rw [(hf r).2.2]
    exact hold.links l hl r hr hid

/-- The watches of an evaluation are known, and the invariant holds. -/
def KnownWatches (watches : List RepositoryWatch) (db : Database) : Prop :=
  Analysed db ∧ ∀ w ∈ watches, knownWatch db w

theorem relates_knownWatches_evaluateWatch (k : Contracts) (requestId : Uuid) (now : Time)
    (repositoryId : Uuid) (source : EvaluatedSource) {watches : List RepositoryWatch}
    {watch : RepositoryWatch} (hwatch : watch ∈ watches) (next : Time) :
    Tx.Relates (Tx.Keeps (KnownWatches watches))
      (evaluateWatch k requestId now repositoryId source watch next) := by
  refine Tx.Relates.bind (relates_require _ _) fun _ => Tx.Relates.bind (relates_select _) fun _ =>
    Tx.Relates.bind (relates_write_valid ?_) fun _ => Tx.Relates.bind (relates_write ?_) fun _ =>
    Tx.Relates.pure _
  · rintro db hvalid hvalid' ⟨hold, hknown⟩
    refine ⟨?_, hknown⟩
    unfold insertUnless at hvalid' ⊢
    split at hvalid'
    · next hany =>
      rw [if_pos hany]
      exact ⟨hold.requests, hold.links⟩
    · next hany =>
      rw [if_neg hany]
      refine ⟨forall_append_singleton hold.requests ?_,
        fun l hl => forall_append_singleton (hold.links l hl) ?_⟩
      · -- The watch of the new request is the one it was made of.
        intro w hw hid
        obtain ⟨w', hw', hid', howner⟩ := hknown watch hwatch
        have hsame : w = w' := hvalid.keys.watches.eq_of_mem hw hw' (hid.trans hid'.symm)
        rw [hsame, howner]
        rfl
      · intro hid
        have hfresh := hvalid'.keys.requests.not_mem_of_append
        rw [hid] at hfresh
        exact absurd (hvalid.foreignKeys.links_request l hl _ rfl) hfresh
  · rintro db _ ⟨hold, hknown⟩
    refine ⟨analysed_updateWatches (fun _ => ⟨rfl, rfl⟩) hold, ?_⟩
    intro w hw
    obtain ⟨w', hw', hid, howner⟩ := hknown w hw
    refine ⟨_, mem_updateWhere.mpr ⟨w', hw', rfl⟩, ?_⟩
    split
    · exact ⟨hid, howner⟩
    · exact ⟨hid, howner⟩

theorem relates_knownWatches_evaluateWatches (k : Contracts) (ids : ℕ → Uuid) (now : Time)
    (repositoryId : Uuid) (source : EvaluatedSource) {watches : List RepositoryWatch}
    (rest : List (RepositoryWatch × ℕ)) (hrest : ∀ p ∈ rest, p.1 ∈ watches) (next : Time) :
    Tx.Relates (Tx.Keeps (KnownWatches watches))
      (evaluateWatches k ids now repositoryId source rest next) := by
  induction rest generalizing next with
  | nil => exact Tx.Relates.pure _
  | cons p rest ih =>
    refine Tx.Relates.bind
      (relates_knownWatches_evaluateWatch _ _ _ _ _ (hrest p List.mem_cons_self) _) fun q => ?_
    exact Tx.Relates.bind (ih (fun p hp => hrest p (List.mem_cons_of_mem _ hp)) q.1) fun _ =>
      Tx.Relates.pure _

theorem analysed_evaluateMetadataWatches {k : Contracts} {ids : ℕ → Uuid} {now : Time} {r : Uuid}
    {c c' : Catalog} {out : WatchEvaluation}
    (h : evaluateMetadataWatches k ids now r c = .ok (out, c')) :
    Tx.Keeps Analysed c.tables c'.tables := by
  intro hold
  simp only [evaluateMetadataWatches, Tx.bind_eq_ok, attempt_eq_ok, select_eq_ok] at h
  obtain ⟨source, _, ⟨-, rfl⟩, watches, _, ⟨hwatches, rfl⟩, h⟩ := h
  have hknown : KnownWatches watches c.tables := by
    refine ⟨hold, fun w hw => ⟨w, ?_, rfl, rfl⟩⟩
    rw [← hwatches, staleWatches, List.mem_insertionSort] at hw
    exact (List.mem_filter.mp hw).1
  split at h
  · obtain ⟨-, rfl⟩ := Tx.pure_eq_ok.mp h
    exact hold
  · simp only [Tx.bind_eq_ok, fetchOne_eq_ok, Tx.pure_eq_ok] at h
    obtain ⟨⟨⟩, c₁, h₁, next, _, ⟨-, rfl⟩, out, c₂, h₂, ⟨⟩, c₃, h₃, -, rfl⟩ := h
    have e₁ : KnownWatches watches c₁.tables := by
      rw [write_eq_ok.mp h₁]
      exact ⟨⟨hold.requests, hold.links⟩, hknown.2⟩
    have e₂ := relates_knownWatches_evaluateWatches _ _ _ _ _ _
      (fun p hp => List.fst_mem_of_mem_zipIdx hp) _ _ _ _ h₂ e₁
    have hcursor : Touches [.repositoryAnalysisDispatchCursor] (onlyIf (decide (0 < out.2))
        (write .repositoryAnalysisDispatchCursor fun _ => some out.1)) :=
      Touches.onlyIf (Touches.write (by decide) _)
    refine analysed_of_agree (fun t ht => hcursor _ _ _ h₃ t ?_) e₂.1
    intro hmem
    rw [List.mem_singleton.mp hmem] at ht
    exact absurd ht (by decide)

theorem relates_analysed_dispatch (k : Contracts) (messageId : Uuid) (now : Time) :
    Tx.Relates (Tx.Keeps Analysed) (dispatchDueRepositoryAnalysis k messageId now) := by
  refine Tx.Relates.bind (relates_select _) fun due => ?_
  cases due with
  | none => exact Tx.Relates.pure _
  | some r =>
    refine Tx.Relates.bind (relates_attempt _) fun _ => Tx.Relates.bind (relates_attempt _) fun _ =>
      Tx.Relates.bind (relates_write ?_) fun _ => Tx.Relates.bind (relates_write ?_) fun _ =>
      Tx.Relates.pure _
    · intro db _ hold
      exact ⟨hold.requests, hold.links⟩
    · intro db _
      exact analysed_updateRequests fun _ => ⟨rfl, rfl, rfl⟩

/-! ### Terminal facts -/

/-- Settling a request moves none of its keys. -/
theorem settle_keys (now : Time) (status : TerminalStatus) (r : RepositoryAnalysisRequest) :
    (status.settle now r).requestId = r.requestId ∧ (status.settle now r).watchId = r.watchId ∧
      (status.settle now r).ownerRef = r.ownerRef := by
  cases status with
  | completed ref => exact ⟨rfl, rfl, rfl⟩
  | failed code again => exact ⟨rfl, rfl, rfl⟩

/-- A linked result is its request's owner's when the fact names that request. -/
theorem analysed_linkResult {now : Time} {fact : TerminalFact} {status : TerminalStatus}
    {c c' : Catalog} (h : linkResult now fact status c = .ok ((), c'))
    (hrequest : ∃ r ∈ c.tables.repositoryAnalysisRequests, r.requestId = fact.requestId ∧
      r.ownerRef = fact.owner) : Tx.Keeps Analysed c.tables c'.tables := by
  intro hold
  cases status with
  | failed code again =>
    obtain ⟨-, rfl⟩ := Tx.pure_eq_ok.mp h
    exact hold
  | completed ref =>
    have hlink : ∀ r ∈ c.tables.repositoryAnalysisRequests,
        r.requestId = (linkRow now fact ref).requestId →
        r.ownerRef = (linkRow now fact ref).ownerRef := by
      intro r hr hid
      obtain ⟨r', hr', hid', howner⟩ := hrequest
      have hsame : r = r' := c.valid.keys.requests.eq_of_mem hr hr' (hid.trans hid'.symm)
      rw [hsame]
      exact howner
    rw [write_eq_ok.mp h]
    exact { hold with
      links := forall_upsertWhere hold.links (fun _ _ _ => hlink) hlink }

theorem analysed_consumeTerminalFact {k : Contracts} {now : Time} {messageId : Uuid}
    {fact : TerminalFact} {status : TerminalStatus} {c c' : Catalog} {out : TerminalFactOutcome}
    (h : consumeTerminalFact k now messageId fact status c = .ok (out, c')) :
    Tx.Keeps Analysed c.tables c'.tables := by
  intro hold
  simp only [consumeTerminalFact, Tx.bind_eq_ok, select_eq_ok] at h
  obtain ⟨seen, _, ⟨-, rfl⟩, h⟩ := h
  split at h
  · obtain ⟨-, rfl⟩ := Tx.pure_eq_ok.mp h
    exact hold
  simp only [Tx.bind_eq_ok, select_eq_ok, require_eq_ok, Tx.pure_eq_ok] at h
  obtain ⟨⟨⟩, c₁, h₁, ⟨⟩, _, ⟨-, rfl⟩, changed, _, ⟨hchanged, rfl⟩, ⟨⟩, c₂, h₂, ⟨⟩, c₃, h₃, ⟨⟩, c₄,
    h₄, -, rfl⟩ := h
  have e₁ : Analysed c₁.tables := by
    rw [write_eq_ok.mp h₁]
    exact ⟨hold.requests, hold.links⟩
  have e₂ : Analysed c₂.tables := by
    rw [write_eq_ok.mp h₂]
    exact analysed_updateRequests (settle_keys now status) e₁
  have e₃ : Analysed c₃.tables := by
    rw [onlyIf] at h₃
    split at h₃
    · next hone =>
      refine analysed_linkResult h₃ ?_ e₂
      -- The fact names a request, and settling it moved none of its keys.
      have hpos : 0 < (c₁.tables.repositoryAnalysisRequests.filter (fact.names k)).length := by
        rw [hchanged, of_decide_eq_true hone]
        exact Nat.one_pos
      obtain ⟨r, hr⟩ := List.exists_mem_of_length_pos hpos
      obtain ⟨hr, hnames⟩ := List.mem_filter.mp hr
      rw [write_eq_ok.mp h₂]
      refine ⟨status.settle now r, mem_updateWhere.mpr ⟨r, hr, if_pos hnames⟩, ?_⟩
      rw [(settle_keys now status r).1, (settle_keys now status r).2.2]
      simp only [TerminalFact.names, Bool.and_eq_true, decide_eq_true_eq] at hnames
      exact ⟨hnames.1.1.1.1.1, hnames.1.1.1.1.2⟩
    · obtain ⟨-, rfl⟩ := Tx.pure_eq_ok.mp h₃
      exact e₂
  rw [write_eq_ok.mp h₄]
  exact ⟨e₃.requests, e₃.links⟩

/-! ### Whole histories -/

/-- **One operation.**  Every operation keeps requests and links with their owners. -/
theorem Operation.commit_analysed (k : Contracts) (c : Catalog) (op : Operation) :
    Tx.Keeps Analysed c.tables (op.commit k c).tables := by
  cases op with
  | registerWatch => exact (relates_analysed_registerWatch _ _ _ _).commit c
  | setWatchEnabled =>
    refine Tx.Relates.commit (relates_write ?_) c
    intro db _
    exact analysed_updateWatches fun _ => ⟨rfl, rfl⟩
  | evaluateWatches =>
    exact Tx.relates_commit fun _ _ h => analysed_evaluateMetadataWatches h
  | dispatchAnalysis => exact (relates_analysed_dispatch _ _ _).commit c
  | consumeTerminalFact => exact Tx.relates_commit fun _ _ h => analysed_consumeTerminalFact h
  | eraseAccount =>
    refine Tx.relates_commit fun _ c' h => ?_
    obtain ⟨c₁, h₁, hrecord⟩ := eraseAccountInTx_eq_ok h
    have herased : Tx.Keeps Analysed c.tables c₁.tables := by
      rw [eraseOwnerState_eq h₁]
      intro hold
      exact
        { requests := fun r hr w hw =>
            hold.requests r (mem_deleteWhere.mp hr).1 w (mem_deleteWhere.mp hw).1
          links := fun l hl r hr =>
            hold.links l (mem_deleteWhere.mp hl).1 r (mem_deleteWhere.mp hr).1 }
    refine IsTrans.trans _ _ _ herased (analysed_of_agree fun t ht => hrecord t ?_)
    intro hmem
    rw [List.mem_singleton.mp hmem] at ht
    exact absurd ht (by decide)
  | _ => exact analysed_of_agree (rows_commit_all k c _ analysisTables rfl)

end GithubCatalog
