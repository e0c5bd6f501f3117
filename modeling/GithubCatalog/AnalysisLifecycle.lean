import GithubCatalog.PolicyPublication
import GithubCatalog.AnalysisRuns

/-!
# The life of an analysis request

A request is queued, goes out once, and is settled by at most one terminal fact.  Evaluations,
dispatches and deliveries run side by side, next to every other operation of the service but the
erasure of an account.

* `AnalysisStep` - the three things a step can do to analyses;
* `AnalysisSound` - outbox rows and links stand for the requests they name;
* `Moves` - the moves of one request;
* `analysis_lifecycle` - both in every reachable world, with at most one effect per message.
-/

namespace GithubCatalog

open Relational Transact

/-! ### Worlds -/

/-- A watch event, or an operation that erases no account. -/
inductive AnalysisEvent where
  | watch (event : WatchEvent)
  | operation (op : Operation) (keeps : op.erases = false)

/-- One event next to the evaluations in flight. -/
def WatchWorld.advance (k : Contracts) (w : WatchWorld) : AnalysisEvent → WatchWorld
  | .watch event => w.step k event
  | .operation op _ => { w with catalog := GithubCatalog.step k w.catalog op }

/-- The empty catalog, nothing in flight. -/
def WatchWorld.empty : WatchWorld := ⟨emptyCatalog, []⟩

/-- The ids and the bodies of the analysis requests in the outbox. -/
def analysisMessages (db : Database) : List (Uuid × Jsonb) :=
  (db.outboxEvents.filter fun e => decide (e.subject = .analysisRequested)).map fun e =>
    (e.messageId, e.payload)

/-! ### What a step can do -/

inductive AnalysisStep (k : Contracts) (db db' : Database) : Prop where
  /-- Requests are queued, or nothing happens. -/
  | queued (new : List RepositoryAnalysisRequest)
      (unsent : ∀ r ∈ new, r.status = .queued ∧ r.outboxMessageId = none)
      (requests : db'.repositoryAnalysisRequests = db.repositoryAnalysisRequests ++ new)
      (links : db'.repositoryAnalysisLinks = db.repositoryAnalysisLinks)
      (messages : analysisMessages db' = analysisMessages db)
  /-- A queued request goes out. -/
  | sent (r : RepositoryAnalysisRequest) (messageId : Uuid) (now : Time)
      (requested : RepositoryAnalysisRequested) (envelope : Jsonb)
      (mem : r ∈ db.repositoryAnalysisRequests) (queued : r.status = .queued)
      (parsed : k.requestOf r.requestPayload = some requested)
      (built : k.requestedEnvelope messageId now requested = some envelope)
      (requests : db'.repositoryAnalysisRequests =
        updateWhere (fun q => decide (q.requestId = r.requestId)) (·.dispatchedAs messageId)
          db.repositoryAnalysisRequests)
      (links : db'.repositoryAnalysisLinks = db.repositoryAnalysisLinks)
      (messages : analysisMessages db' = analysisMessages db ++ [(messageId, envelope)])
  /-- A new message arrives. -/
  | delivered (now : Time) (messageId : Uuid) (fact : TerminalFact) (status : TerminalStatus)
      (effect : Delivered k now messageId fact status db db')
      (messages : analysisMessages db' = analysisMessages db)

section steps

variable {k : Contracts} {db db' : Database} {c c' : Catalog}

theorem analysisMessages_of_eq (h : db'.outboxEvents = db.outboxEvents) :
    analysisMessages db' = analysisMessages db := by
  rw [analysisMessages, h, ← analysisMessages]

theorem analysisMessages_append {e : OutboxEvent} (h : db'.outboxEvents = db.outboxEvents ++ [e]) :
    analysisMessages db' = analysisMessages db ++
      if e.subject = .analysisRequested then [(e.messageId, e.payload)] else [] := by
  rw [analysisMessages, h, List.filter_append, List.map_append, ← analysisMessages]
  congr 1
  by_cases hsubject : e.subject = .analysisRequested
  · simp [hsubject]
  · simp [hsubject]

/-- Tables that agree, seen from the analyses. -/
theorem analysisStep_quiet (requests : db'.repositoryAnalysisRequests = db.repositoryAnalysisRequests)
    (links : db'.repositoryAnalysisLinks = db.repositoryAnalysisLinks)
    (messages : analysisMessages db' = analysisMessages db) : AnalysisStep k db db' :=
  .queued [] (by simp) (requests.trans (List.append_nil _).symm) links messages

instance : Std.Refl (AnalysisStep k) := ⟨fun _ => analysisStep_quiet rfl rfl rfl⟩

theorem analysisStep_settleEvaluation {ids : ℕ → Uuid} {now : Time} {repositoryId : Uuid}
    {source : EvaluatedSource} {out : WatchEvaluation}
    (h : settleEvaluation k ids now repositoryId source c = .ok (out, c')) :
    AnalysisStep k c.tables c'.tables := by
  obtain ⟨new, hnew⟩ := settleEvaluation_spec h
  have hframe := touches_settleEvaluation k ids now repositoryId source
  refine .queued new ?_ hnew.requests (hframe.rows_eq h (t := .repositoryAnalysisLinks) (by decide))
    (analysisMessages_of_eq (hframe.rows_eq h (t := .outboxEvents) (by decide)))
  intro r hr
  obtain ⟨w, -, hqueued, -⟩ := hnew.queued r hr
  exact ⟨hqueued.status, hqueued.unsent⟩

theorem analysisStep_evaluate {ids : ℕ → Uuid} {now : Time} {repositoryId : Uuid}
    {out : WatchEvaluation} (h : evaluateMetadataWatches k ids now repositoryId c = .ok (out, c')) :
    AnalysisStep k c.tables c'.tables := by
  rw [evaluateMetadataWatches_eq] at h
  obtain ⟨source, _, hread, h⟩ := Tx.bind_eq_ok.mp h
  obtain ⟨-, rfl⟩ := attempt_eq_ok.mp hread
  exact analysisStep_settleEvaluation h

theorem analysisStep_dispatch {locked : Uuid → Bool} {messageId : Uuid} {now : Time}
    {out : AnalysisDispatch} (h : dispatchUnlocked k locked messageId now c = .ok (out, c')) :
    AnalysisStep k c.tables c'.tables := by
  rcases dispatchUnlocked_spec h with rfl | ⟨r, hr, requested, envelope, hqueued, hparsed, hbuilt,
    houtbox, hrequests⟩
  · exact analysisStep_quiet rfl rfl rfl
  · have hlinks : c'.tables.repositoryAnalysisLinks = c.tables.repositoryAnalysisLinks :=
      (touches_dispatchUnlocked k locked messageId now).rows_eq h (t := .repositoryAnalysisLinks)
        (by decide)
    refine .sent r messageId now requested envelope hr hqueued hparsed hbuilt hrequests hlinks ?_
    rw [analysisMessages_append houtbox]
    rfl

theorem analysisStep_consume {now : Time} {messageId : Uuid} {fact : TerminalFact}
    {status : TerminalStatus} {out : TerminalFactOutcome}
    (h : consumeTerminalFact k now messageId fact status c = .ok (out, c')) :
    AnalysisStep k c.tables c'.tables := by
  rcases consumeTerminalFact_spec h with ⟨rfl, -⟩ | heffect
  · exact analysisStep_quiet rfl rfl rfl
  · exact .delivered now messageId fact status heffect (analysisMessages_of_eq
      ((touches_consumeTerminalFact _ _ _ _ _).rows_eq h (t := .outboxEvents) (by decide)))

/-- The relay leaves ids, subjects and bodies alone. -/
theorem analysisMessages_relay (now : Time) (messageId : Uuid) (result : RelayResult) (db : Database) :
    analysisMessages (db.put .outboxEvents (updateWhere (result.selects messageId)
      (settleOutboxRow now result) db.outboxEvents)) = analysisMessages db := by
  have hsame : ∀ e : OutboxEvent,
      (decide ((settleOutboxRow now result e).subject = .analysisRequested)) =
        decide (e.subject = .analysisRequested) := by
    intro e
    rw [(settleOutboxRow_identity now result e).2.1]
  show (List.filter _ (updateWhere _ _ db.outboxEvents)).map _ = _
  rw [filter_updateWhere hsame, analysisMessages]
  apply map_updateWhere
  intro e
  rw [(settleOutboxRow_identity now result e).1, (settleOutboxRow_identity now result e).2.2]

theorem analysisStep_publishDue {now : Time} {commandId : Uuid} {out : PublicationOutcome}
    (h : publishDueBackupPolicy k now commandId c = .ok (out, c')) :
    AnalysisStep k c.tables c'.tables := by
  have hframe := touches_publishDueBackupPolicy k now commandId
  refine analysisStep_quiet (hframe.rows_eq h (t := .repositoryAnalysisRequests) (by decide))
    (hframe.rows_eq h (t := .repositoryAnalysisLinks) (by decide)) ?_
  rcases publishDue_cases h with ⟨-, htables⟩ | ⟨-, inputs, -, ⟨-, htables⟩ | ⟨-, last, policy,
    envelope, -, -, -, -, htables⟩⟩
  · rw [htables]
    rfl
  · rw [htables]
    rfl
  · have happend : c'.tables.outboxEvents = c.tables.outboxEvents ++
        [newOutboxEvent commandId .backupPolicyApply envelope now] := by
      rw [htables]
      rfl
    rw [analysisMessages_append happend]
    exact List.append_nil _

/-- **One operation.** -/
theorem Operation.commit_analysisStep (k : Contracts) (c : Catalog) (op : Operation)
    (hkeeps : op.erases = false) : AnalysisStep k c.tables (op.commit k c).tables := by
  have hother : ∀ op : Operation, ([Table.repositoryAnalysisRequests, .repositoryAnalysisLinks,
      .outboxEvents].all fun t => op.leaves t) = true →
      AnalysisStep k c.tables (op.commit k c).tables := by
    intro op hleaves
    have hrows := Operation.rows_commit_all k c op _ hleaves
    exact analysisStep_quiet (hrows .repositoryAnalysisRequests (by decide))
      (hrows .repositoryAnalysisLinks (by decide))
      (analysisMessages_of_eq (hrows .outboxEvents (by decide)))
  cases op with
  | evaluateWatches => exact Tx.relates_commit fun _ _ h => analysisStep_evaluate h
  | dispatchAnalysis messageId now =>
    refine Tx.relates_commit fun _ _ h => ?_
    rw [← dispatchUnlocked_none] at h
    exact analysisStep_dispatch h
  | consumeTerminalFact => exact Tx.relates_commit fun _ _ h => analysisStep_consume h
  | publishDue => exact Tx.relates_commit fun _ _ h => analysisStep_publishDue h
  | recordRelayResult now messageId result =>
    refine Tx.relates_commit fun _ c' h => ?_
    rw [write_eq_ok.mp h]
    exact analysisStep_quiet rfl rfl (analysisMessages_relay now messageId result c.tables)
  | eraseAccount => cases hkeeps
  | _ => exact hother _ rfl

/-- **One event.** -/
theorem analysisStep_advance (k : Contracts) (w : WatchWorld) (e : AnalysisEvent) :
    AnalysisStep k w.tables (w.advance k e).tables := by
  have hframe : ∀ {α : Type} {ts : List Table} {x : Tx α}, Touches ts x →
      Table.repositoryAnalysisRequests ∉ ts → Table.repositoryAnalysisLinks ∉ ts →
      Table.outboxEvents ∉ ts → AnalysisStep k w.tables (x.commit w.catalog).tables := by
    intro α ts x hx hrequests hlinks houtbox
    refine Tx.relates_commit fun _ _ h => ?_
    exact analysisStep_quiet (hx.rows_eq h hrequests) (hx.rows_eq h hlinks)
      (analysisMessages_of_eq (hx.rows_eq h houtbox))
  cases e with
  | operation op keeps =>
    show AnalysisStep k w.tables (GithubCatalog.step k w.catalog op).tables
    rw [GithubCatalog.step]
    split
    · exact Operation.commit_analysisStep k w.catalog op keeps
    · exact analysisStep_quiet rfl rfl rfl
  | watch event =>
    cases event with
    | register =>
      exact hframe (touches_registerRepositoryAnalysisWatch _ _ _ _) (by decide) (by decide)
        (by decide)
    | enable =>
      exact hframe (Touches.write (List.mem_singleton.mpr rfl) _) (by decide) (by decide) (by decide)
    | refresh =>
      exact hframe (touches_applyFreshSource _ _ _ _ _ _ _ _) (by decide) (by decide) (by decide)
    | read repositoryId =>
      show AnalysisStep k w.tables (WatchWorld.step k w (.read repositoryId)).tables
      rw [WatchWorld.step]
      split
      · exact analysisStep_quiet rfl rfl rfl
      · exact analysisStep_quiet rfl rfl rfl
    | settle n ids now =>
      show AnalysisStep k w.tables (WatchWorld.step k w (.settle n ids now)).tables
      rw [WatchWorld.step]
      split
      · exact Tx.relates_commit fun _ _ h => analysisStep_settleEvaluation h
      · exact analysisStep_quiet rfl rfl rfl
    | dispatch => exact Tx.relates_commit fun _ _ h => analysisStep_dispatch h
    | deliver => exact Tx.relates_commit fun _ _ h => analysisStep_consume h

end steps

/-! ### Messages are received once -/

/-- The received messages stay received. -/
def InboxGrows (db db' : Database) : Prop :=
  db.inboxEvents.map (·.messageId) ⊆ db'.inboxEvents.map (·.messageId)

theorem inboxGrows_of_eq {db db' : Database} (h : db'.inboxEvents = db.inboxEvents) :
    InboxGrows db db' := by
  rw [InboxGrows, h]
  exact List.Subset.refl _

instance : Std.Refl InboxGrows := ⟨fun _ => List.Subset.refl _⟩

instance : IsTrans Database InboxGrows := ⟨fun _ _ _ h h' => List.Subset.trans h h'⟩

theorem inboxGrows_consumed {now : Time} {messageId : Uuid} (db : Database) :
    InboxGrows db (db.put .inboxEvents (updateWhere (fun e => decide (e.messageId = messageId))
      (fun e => { e with consumedAt := some now }) db.inboxEvents)) := by
  intro id hid
  show id ∈ (updateWhere _ _ db.inboxEvents).map (·.messageId)
  rw [map_updateWhere (f := fun e : InboxEvent => { e with consumedAt := some now }) fun _ => rfl]
  exact hid

theorem inboxGrows_append (e : InboxEvent) (db : Database) :
    InboxGrows db (db.put .inboxEvents (db.inboxEvents ++ [e])) :=
  List.map_subset _ (List.subset_append_left _ _)

theorem inboxGrows_claim (commandId : Uuid) (payload : Jsonb) :
    Tx.Relates InboxGrows (claimSyncCommand commandId payload) := by
  refine Tx.Relates.bind (relates_select _) fun _ =>
    Tx.Relates.bind (relates_write ?_) fun _ => Tx.Relates.pure _
  intro db _
  show InboxGrows db (db.put .inboxEvents (insertUnless _ _ db.inboxEvents))
  rw [insertUnless]
  split
  · exact inboxGrows_of_eq rfl
  · exact inboxGrows_append _ db

theorem inboxGrows_acknowledge (now : Time) (messageId : Uuid) (ack : PolicyAcknowledged) :
    Tx.Relates InboxGrows (recordBackupPolicyAcknowledgment now messageId ack) := by
  refine Tx.Relates.bind (relates_select _) fun _ => ?_
  split
  · exact Tx.Relates.pure _
  · refine Tx.Relates.bind (relates_write fun db _ => inboxGrows_append _ db) fun _ =>
      Tx.Relates.bind (relates_attempt _) fun _ => Tx.Relates.bind (relates_attempt _) fun _ =>
      Tx.Relates.bind (relates_attempt _) fun _ =>
      Tx.Relates.bind (relates_write fun db _ => inboxGrows_of_eq rfl) fun _ =>
      Tx.Relates.bind (relates_write fun db _ => inboxGrows_consumed db) fun _ => Tx.Relates.pure _

theorem inboxGrows_consume {k : Contracts} {now : Time} {messageId : Uuid} {fact : TerminalFact}
    {status : TerminalStatus} {c c' : Catalog} {out : TerminalFactOutcome}
    (h : consumeTerminalFact k now messageId fact status c = .ok (out, c')) :
    InboxGrows c.tables c'.tables := by
  rcases consumeTerminalFact_spec h with ⟨rfl, -⟩ | heffect
  · exact inboxGrows_of_eq rfl
  · rw [InboxGrows, heffect.inbox]
    exact List.subset_append_left _ _

theorem inboxGrows_advance (k : Contracts) (w : WatchWorld) (e : AnalysisEvent) :
    InboxGrows w.tables (w.advance k e).tables := by
  have hframe : ∀ {α : Type} {ts : List Table} {x : Tx α}, Touches ts x →
      Table.inboxEvents ∉ ts → InboxGrows w.tables (x.commit w.catalog).tables := by
    intro α ts x hx hinbox
    exact Tx.relates_commit fun _ _ h => inboxGrows_of_eq (hx.rows_eq h hinbox)
  cases e with
  | operation op keeps =>
    show InboxGrows w.tables (GithubCatalog.step k w.catalog op).tables
    rw [GithubCatalog.step]
    split
    · cases op with
      | claimSyncCommand => exact (inboxGrows_claim _ _).commit _
      | consumeInboxEvent now messageId =>
        exact (relates_write fun db _ => inboxGrows_consumed db).commit _
      | consumeTerminalFact => exact Tx.relates_commit fun _ _ h => inboxGrows_consume h
      | recordAcknowledgment => exact (inboxGrows_acknowledge _ _ _).commit _
      | eraseAccount => cases keeps
      | _ => exact inboxGrows_of_eq (Operation.rows_commit k _ _ .inboxEvents rfl)
    · exact inboxGrows_of_eq rfl
  | watch event =>
    cases event with
    | register => exact hframe (touches_registerRepositoryAnalysisWatch _ _ _ _) (by decide)
    | enable => exact hframe (Touches.write (List.mem_singleton.mpr rfl) _) (by decide)
    | refresh => exact hframe (touches_applyFreshSource _ _ _ _ _ _ _ _) (by decide)
    | read repositoryId =>
      show InboxGrows w.tables (WatchWorld.step k w (.read repositoryId)).tables
      rw [WatchWorld.step]
      split
      · exact inboxGrows_of_eq rfl
      · exact inboxGrows_of_eq rfl
    | settle n ids now =>
      show InboxGrows w.tables (WatchWorld.step k w (.settle n ids now)).tables
      rw [WatchWorld.step]
      split
      · exact hframe (touches_settleEvaluation _ _ _ _ _) (by decide)
      · exact inboxGrows_of_eq rfl
    | dispatch => exact hframe (touches_dispatchUnlocked _ _ _ _) (by decide)
    | deliver => exact Tx.relates_commit fun _ _ h => inboxGrows_consume h

section delivery

variable {k : Contracts} {now : Time} {messageId : Uuid} {fact : TerminalFact}
  {status : TerminalStatus} {c : Catalog}

theorem deliver_cases : (consumeTerminalFact k now messageId fact status).commit c = c ∨
    Delivered k now messageId fact status c.tables
      ((consumeTerminalFact k now messageId fact status).commit c).tables := by
  rcases Tx.commit_cases (consumeTerminalFact k now messageId fact status) c with ⟨_, hok⟩ | hsame
  · rcases consumeTerminalFact_spec hok with ⟨hsame, -⟩ | heffect
    · exact .inl hsame
    · exact .inr heffect
  · exact .inl hsame

/-- A message that took effect was received. -/
theorem received_of_effect
    (h : ((consumeTerminalFact k now messageId fact status).commit c).tables ≠ c.tables) :
    messageId ∈ ((consumeTerminalFact k now messageId fact status).commit c).tables.inboxEvents.map
      (·.messageId) := by
  rcases deliver_cases (k := k) (c := c) with hsame | heffect
  · exact absurd (congrArg Valid.tables hsame) h
  · rw [heffect.inbox]
    exact List.mem_append_right _ (List.mem_singleton.mpr rfl)

/-- A received message changes nothing. -/
theorem unchanged_of_received (h : messageId ∈ c.tables.inboxEvents.map (·.messageId)) :
    (consumeTerminalFact k now messageId fact status).commit c = c := by
  rcases deliver_cases (k := k) (c := c) with hsame | heffect
  · exact hsame
  · exact absurd h heffect.unseen

/-- A fact that names no request exactly: whichever request has its id differs from it in its owner,
its repository, its numeric id or its revision. -/
def Mismatched (k : Contracts) (fact : TerminalFact) (db : Database) : Prop :=
  ∀ r ∈ db.repositoryAnalysisRequests, r.requestId = fact.requestId →
    ¬ (r.ownerRef = fact.owner ∧ r.repositoryId = fact.repositoryId ∧
      r.githubRepositoryNumericId = fact.githubRepositoryNumericId ∧
      r.sourceRevision = k.revisionValue fact.sourceRevision)

/-- A mismatching fact changes no request and no link. -/
theorem mismatched_unchanged (h : Mismatched k fact c.tables) :
    ((consumeTerminalFact k now messageId fact status).commit c).tables.repositoryAnalysisRequests =
        c.tables.repositoryAnalysisRequests ∧
      ((consumeTerminalFact k now messageId fact status).commit c).tables.repositoryAnalysisLinks =
        c.tables.repositoryAnalysisLinks := by
  rcases deliver_cases (k := k) (c := c) with hsame | heffect
  · rw [hsame]
    exact ⟨rfl, rfl⟩
  · have hnone : ∀ r ∈ c.tables.repositoryAnalysisRequests, fact.names k r = false := by
      intro r hr
      by_contra hnames
      obtain ⟨hid, howner, hrepository, hnumeric, hrevision, -⟩ :=
        names_iff.mp (Bool.eq_true_of_not_eq_false hnames)
      exact h r hr hid ⟨howner, hrepository, hnumeric, hrevision⟩
    constructor
    · rw [heffect.requests, updateWhere]
      conv_rhs => rw [← List.map_id c.tables.repositoryAnalysisRequests]
      apply List.map_congr_left
      intro r hr
      rw [hnone r hr]
      rfl
    · rcases heffect.links with ⟨r, hr, hnames, -⟩ | ⟨-, hlinks⟩
      · rw [hnone r hr] at hnames
        cases hnames
      · exact hlinks

end delivery

/-! ### The moves of a request -/

/-- The moves of one request. -/
inductive Moves : RepositoryAnalysisRequest → RepositoryAnalysisRequest → Prop where
  | stays (r) : Moves r r
  | goesOut {r} (messageId : Uuid) (queued : r.status = .queued) : Moves r (r.dispatchedAs messageId)
  | settles {r} (now : Time) (status : TerminalStatus) (pending : r.status = .pending) :
    Moves r (status.settle now r)

/-- Every request of the old table makes one of the moves, in place; the others are new, and queued. -/
def MovesOnly (db db' : Database) : Prop :=
  ∃ kept new, db'.repositoryAnalysisRequests = kept ++ new ∧
    List.Forall₂ Moves db.repositoryAnalysisRequests kept ∧
    ∀ r ∈ new, r.status = .queued ∧ r.outboxMessageId = none

/-- An update whose rows all make a move. -/
theorem forall₂_moves_updateWhere {t : List RepositoryAnalysisRequest}
    {p : RepositoryAnalysisRequest → Bool} {f : RepositoryAnalysisRequest → RepositoryAnalysisRequest}
    (h : ∀ r ∈ t, p r = true → Moves r (f r)) : List.Forall₂ Moves t (updateWhere p f t) := by
  rw [updateWhere, List.forall₂_map_right_iff, List.forall₂_same]
  intro r hr
  show Moves r (if p r = true then f r else r)
  split
  · next hp => exact h r hr hp
  · exact .stays r

/-- **A step moves requests forward only.** -/
theorem AnalysisStep.movesOnly {k : Contracts} {c : Catalog} {db' : Database}
    (h : AnalysisStep k c.tables db') : MovesOnly c.tables db' := by
  cases h with
  | queued new unsent requests links messages =>
    exact ⟨_, new, requests, List.forall₂_same.mpr fun r _ => .stays r, unsent⟩
  | sent r messageId now requested envelope mem queued parsed built requests links messages =>
    refine ⟨_, [], requests.trans (List.append_nil _).symm, forall₂_moves_updateWhere ?_, by simp⟩
    intro q hq hid
    rw [c.valid.keys.requests.eq_of_mem hq mem (of_decide_eq_true hid)]
    exact .goesOut messageId queued
  | delivered now messageId fact status effect messages =>
    refine ⟨_, [], effect.requests.trans (List.append_nil _).symm, forall₂_moves_updateWhere ?_,
      by simp⟩
    intro q _ hnames
    exact .settles now status (names_iff.mp hnames).2.2.2.2.2

/-- A terminal row is where the moves end. -/
theorem Moves.eq_of_terminal {r r' : RepositoryAnalysisRequest} (h : Moves r r')
    (hterminal : r.status = .completed ∨ r.status = .failed) : r' = r := by
  cases h with
  | stays => rfl
  | goesOut messageId queued =>
    rw [queued] at hterminal
    rcases hterminal with hterminal | hterminal
    · cases hterminal
    · cases hterminal
  | settles now status pending =>
    rw [pending] at hterminal
    rcases hterminal with hterminal | hterminal
    · cases hterminal
    · cases hterminal

theorem MovesOnly.terminal_mem {db db' : Database} (h : MovesOnly db db')
    {r : RepositoryAnalysisRequest} (hr : r ∈ db.repositoryAnalysisRequests)
    (hterminal : r.status = .completed ∨ r.status = .failed) :
    r ∈ db'.repositoryAnalysisRequests := by
  obtain ⟨kept, new, hrequests, hmoves, -⟩ := h
  obtain ⟨r', hr', hmove⟩ := exists_mem_of_forall₂ hmoves hr
  rw [hmove.eq_of_terminal hterminal] at hr'
  rw [hrequests]
  exact List.mem_append_left _ hr'

/-! ### Outbox rows and links -/

/-- The message of a sent request: its id, with the envelope of what the request says. -/
def CarriedBy (k : Contracts) (db : Database) (r : RepositoryAnalysisRequest) (messageId : Uuid) :
    Prop :=
  ∃ now requested envelope, k.requestOf r.requestPayload = some requested ∧
    k.requestedEnvelope messageId now requested = some envelope ∧
    (messageId, envelope) ∈ analysisMessages db

/-- A link stands for a completed request. -/
def LinkedBy (l : RepositoryAnalysisLink) (r : RepositoryAnalysisRequest) : Prop :=
  r.requestId = l.requestId ∧ r.status = .completed ∧ r.ownerRef = l.ownerRef ∧
    r.repositoryId = l.repositoryId ∧ r.analysisResultRef = some l.analysisResultRef

/-- Links stand for completed requests. -/
def LinksStand (db : Database) : Prop :=
  ∀ l ∈ db.repositoryAnalysisLinks, ∃ r ∈ db.repositoryAnalysisRequests, LinkedBy l r

/-- Outbox rows and links stand for the requests they name. -/
structure AnalysisSound (k : Contracts) (db : Database) : Prop where
  /-- The analysis messages and the sent requests are the same, one for one. -/
  sent : ((analysisMessages db).map (·.1)).Perm
    (db.repositoryAnalysisRequests.filterMap (·.outboxMessageId))
  carried : ∀ r ∈ db.repositoryAnalysisRequests, ∀ m, r.outboxMessageId = some m → CarriedBy k db r m
  linked : ∀ l ∈ db.repositoryAnalysisLinks, ∃ r ∈ db.repositoryAnalysisRequests, LinkedBy l r

theorem settle_outbox (now : Time) (status : TerminalStatus) (r : RepositoryAnalysisRequest) :
    (status.settle now r).outboxMessageId = r.outboxMessageId ∧
      (status.settle now r).requestPayload = r.requestPayload := by
  cases status with
  | completed ref => exact ⟨rfl, rfl⟩
  | failed code again => exact ⟨rfl, rfl⟩

/-- What a step keeps of the message that carries a request. -/
theorem CarriedBy.mono {k : Contracts} {db db' : Database} {r r' : RepositoryAnalysisRequest} {m : Uuid}
    (h : CarriedBy k db r m) (hpayload : r'.requestPayload = r.requestPayload)
    (hmessages : analysisMessages db ⊆ analysisMessages db') : CarriedBy k db' r' m := by
  obtain ⟨now, requested, envelope, hparsed, hbuilt, hmem⟩ := h
  exact ⟨now, requested, envelope, by rw [hpayload, hparsed], hbuilt, hmessages hmem⟩

/-- A queued request has no message yet. -/
theorem Catalog.unsent (c : Catalog) {r : RepositoryAnalysisRequest}
    (hr : r ∈ c.tables.repositoryAnalysisRequests) (hqueued : r.status = .queued) :
    r.outboxMessageId = none := by
  have hcheck := c.valid.checks.requests r hr
  simp only [RepositoryAnalysisRequest.check, RepositoryAnalysisRequest.terminalCheck, hqueued,
    Bool.and_eq_true] at hcheck
  simp_all

/-- Every other request has one. -/
theorem Catalog.sent (c : Catalog) {r : RepositoryAnalysisRequest}
    (hr : r ∈ c.tables.repositoryAnalysisRequests) (hsent : r.status ≠ .queued) :
    ∃ m, r.outboxMessageId = some m := by
  apply Option.isSome_iff_exists.mp
  have hcheck := c.valid.checks.requests r hr
  cases hstatus : r.status with
  | queued => exact absurd hstatus hsent
  | _ =>
    simp only [RepositoryAnalysisRequest.check, RepositoryAnalysisRequest.terminalCheck, hstatus,
      Bool.and_eq_true] at hcheck
    simp_all

section sound

variable {k : Contracts} {c : Catalog} {db' : Database}

/-- The links after a fact stand for the requests after it. -/
theorem linked_delivered {now : Time} {fact : TerminalFact} {status : TerminalStatus}
    {t : List RepositoryAnalysisRequest} {links : List RepositoryAnalysisLink}
    (h : ∀ l ∈ links, ∃ r ∈ t, LinkedBy l r) {r : RepositoryAnalysisRequest} (hr : r ∈ t)
    (hnames : fact.names k r = true) : ∀ l ∈ linksAfter now fact links status,
      ∃ r ∈ updateWhere (fact.names k) (status.settle now ·) t, LinkedBy l r := by
  have hold : ∀ l ∈ links, ∃ r ∈ updateWhere (fact.names k) (status.settle now ·) t, LinkedBy l r := by
    intro l hl
    obtain ⟨q, hq, hlinked⟩ := h l hl
    refine ⟨q, mem_updateWhere.mpr ⟨q, hq, if_neg ?_⟩, hlinked⟩
    intro hq'
    have hstatus := hlinked.2.1
    rw [(names_iff.mp hq').2.2.2.2.2] at hstatus
    cases hstatus
  cases status with
  | failed code again => exact hold
  | completed ref =>
    obtain ⟨hid, howner, hrepository, -⟩ := names_iff.mp hnames
    have hnew : ∃ r ∈ updateWhere (fact.names k) (TerminalStatus.settle now · (.completed ref)) t,
        LinkedBy (linkRow now fact ref) r :=
      ⟨_, mem_updateWhere.mpr ⟨r, hr, if_pos hnames⟩, hid, rfl, howner, hrepository, rfl⟩
    exact forall_upsertWhere hold (fun _ _ _ => hnew) hnew

/-- **A step keeps the links with their requests.** -/
theorem AnalysisStep.linksStand (hstep : AnalysisStep k c.tables db') (h : LinksStand c.tables) :
    LinksStand db' := by
  cases hstep with
  | queued new unsent requests links messages =>
    intro l hl
    rw [links] at hl
    obtain ⟨r, hr, hlinked⟩ := h l hl
    rw [requests]
    exact ⟨r, List.mem_append_left _ hr, hlinked⟩
  | sent r messageId now requested envelope mem queued parsed built requests links messages =>
    intro l hl
    rw [links] at hl
    obtain ⟨q, hq, hlinked⟩ := h l hl
    rw [requests]
    refine ⟨q, mem_updateWhere.mpr ⟨q, hq, if_neg ?_⟩, hlinked⟩
    -- The linked request is completed, the one that goes out is not.
    intro hid
    have hstatus := hlinked.2.1
    rw [c.valid.keys.requests.eq_of_mem hq mem (of_decide_eq_true hid), queued] at hstatus
    cases hstatus
  | delivered now messageId fact status effect messages =>
    rcases effect.links with ⟨r, hr, hnames, hlinks⟩ | ⟨hnone, hlinks⟩
    · rw [LinksStand, hlinks, effect.requests]
      exact linked_delivered h hr hnames
    · intro l hl
      rw [hlinks] at hl
      obtain ⟨q, hq, hlinked⟩ := h l hl
      rw [effect.requests]
      refine ⟨q, mem_updateWhere.mpr ⟨q, hq, if_neg ?_⟩, hlinked⟩
      rw [hnone q hq]
      exact Bool.false_ne_true

theorem AnalysisSound.queued (h : AnalysisSound k c.tables) {new : List RepositoryAnalysisRequest}
    (unsent : ∀ r ∈ new, r.status = .queued ∧ r.outboxMessageId = none)
    (requests : db'.repositoryAnalysisRequests = c.tables.repositoryAnalysisRequests ++ new)
    (links : db'.repositoryAnalysisLinks = c.tables.repositoryAnalysisLinks)
    (messages : analysisMessages db' = analysisMessages c.tables) : AnalysisSound k db' where
  sent := by
    have hnew : new.filterMap (·.outboxMessageId) = [] :=
      List.filterMap_eq_nil_iff.mpr fun r hr => (unsent r hr).2
    rw [messages, requests, List.filterMap_append, hnew, List.append_nil]
    exact h.sent
  carried := by
    intro r hr m hm
    rw [requests] at hr
    rcases List.mem_append.mp hr with hold | hnew
    · exact (h.carried r hold m hm).mono rfl (by rw [messages]; exact List.Subset.refl _)
    · rw [(unsent r hnew).2] at hm
      cases hm
  linked := (AnalysisStep.queued (k := k) new unsent requests links messages).linksStand h.linked

theorem AnalysisSound.dispatched (h : AnalysisSound k c.tables) {r : RepositoryAnalysisRequest}
    {messageId : Uuid} {now : Time} {requested : RepositoryAnalysisRequested} {envelope : Jsonb}
    (hr : r ∈ c.tables.repositoryAnalysisRequests) (hqueued : r.status = .queued)
    (parsed : k.requestOf r.requestPayload = some requested)
    (built : k.requestedEnvelope messageId now requested = some envelope)
    (requests : db'.repositoryAnalysisRequests =
      updateWhere (fun q => decide (q.requestId = r.requestId)) (·.dispatchedAs messageId)
        c.tables.repositoryAnalysisRequests)
    (links : db'.repositoryAnalysisLinks = c.tables.repositoryAnalysisLinks)
    (messages : analysisMessages db' = analysisMessages c.tables ++ [(messageId, envelope)]) :
    AnalysisSound k db' where
  sent := by
    obtain ⟨s, u, hsplit, hupdate⟩ :=
      c.valid.keys.requests.updateWhere_split hr (·.dispatchedAs messageId)
    have hold := h.sent
    rw [hsplit, List.filterMap_append, List.filterMap_cons_none (c.unsent hr hqueued),
      ← List.filterMap_append] at hold
    have hsome : (r.dispatchedAs messageId).outboxMessageId = some messageId := rfl
    rw [messages, requests, hupdate, List.map_append, List.filterMap_append,
      List.filterMap_cons_some hsome]
    refine List.perm_append_comm.trans (List.Perm.trans ?_ List.perm_middle.symm)
    rw [← List.filterMap_append]
    exact hold.cons messageId
  carried := by
    rw [requests]
    have hsubset : analysisMessages c.tables ⊆ analysisMessages db' := by
      rw [messages]
      exact List.subset_append_left _ _
    refine forall_updateWhere (fun q hq m hm => (h.carried q hq m hm).mono rfl hsubset) ?_
    intro q hq hid m hm
    have hsame := c.valid.keys.requests.eq_of_mem hq hr (of_decide_eq_true hid)
    subst hsame
    cases hm
    refine ⟨now, requested, envelope, parsed, built, ?_⟩
    rw [messages]
    exact List.mem_append_right _ (List.mem_singleton.mpr rfl)
  linked := (AnalysisStep.sent r messageId now requested envelope hr hqueued parsed built requests links
    messages).linksStand h.linked

theorem AnalysisSound.delivered (h : AnalysisSound k c.tables) {now : Time} {messageId : Uuid}
    {fact : TerminalFact} {status : TerminalStatus}
    (effect : Delivered k now messageId fact status c.tables db')
    (messages : analysisMessages db' = analysisMessages c.tables) : AnalysisSound k db' where
  sent := by
    rw [messages, effect.requests, filterMap_updateWhere fun r => (settle_outbox now status r).1]
    exact h.sent
  carried := by
    rw [effect.requests]
    have hsubset : analysisMessages c.tables ⊆ analysisMessages db' := by
      rw [messages]
      exact List.Subset.refl _
    refine forall_updateWhere (fun q hq m hm => (h.carried q hq m hm).mono rfl hsubset) ?_
    intro q hq _ m hm
    rw [(settle_outbox now status q).1] at hm
    exact (h.carried q hq m hm).mono (settle_outbox now status q).2 hsubset
  linked := (AnalysisStep.delivered now messageId fact status effect messages).linksStand h.linked

/-- **A step keeps outbox rows and links with their requests.** -/
theorem AnalysisStep.sound (hstep : AnalysisStep k c.tables db') (h : AnalysisSound k c.tables) :
    AnalysisSound k db' := by
  cases hstep with
  | queued new unsent requests links messages => exact h.queued unsent requests links messages
  | sent r messageId now requested envelope mem queued parsed built requests links messages =>
    exact h.dispatched mem queued parsed built requests links messages
  | delivered now messageId fact status effect messages => exact h.delivered effect messages

end sound

/-! ### Every reachable world -/

/-- The row of a sent request in the outbox. -/
def SentAs (r : RepositoryAnalysisRequest) (e : OutboxEvent) : Prop :=
  e.subject = .analysisRequested ∧ r.outboxMessageId = some e.messageId

/-- What holds of the analyses of a world, and of all that can happen to them from there on. -/
structure AnalysisLife (k : Contracts) (w : WatchWorld) : Prop where
  sound : AnalysisSound k w.tables
  /-- A request that is not queued has one row in the outbox. -/
  row : ∀ r ∈ w.tables.repositoryAnalysisRequests, r.status ≠ .queued →
    ∃! e, e ∈ w.tables.outboxEvents ∧ SentAs r e
  moves : ∀ e, MovesOnly w.tables (w.advance k e).tables
  /-- A terminal row never changes again. -/
  settled : ∀ r ∈ w.tables.repositoryAnalysisRequests, (r.status = .completed ∨ r.status = .failed) →
    ∀ later, r ∈ (Runs.runFrom (WatchWorld.advance k) w later).tables.repositoryAnalysisRequests
  /-- A message that took effect takes none again. -/
  once : ∀ messageId now fact status,
    (w.step k (.deliver now messageId fact status)).tables ≠ w.tables →
    ∀ later now' fact' status',
      let w' := Runs.runFrom (WatchWorld.advance k) (w.step k (.deliver now messageId fact status)) later
      (w'.step k (.deliver now' messageId fact' status')).tables = w'.tables
  mismatch : ∀ messageId now fact status, Mismatched k fact w.tables →
    let w' := w.step k (.deliver now messageId fact status)
    w'.tables.repositoryAnalysisRequests = w.tables.repositoryAnalysisRequests ∧
      w'.tables.repositoryAnalysisLinks = w.tables.repositoryAnalysisLinks

theorem analysisSound_empty (k : Contracts) : AnalysisSound k WatchWorld.empty.tables where
  sent := List.Perm.refl _
  carried := by
    intro r hr
    cases hr
  linked := by
    intro l hl
    cases hl

theorem AnalysisSound.row {k : Contracts} {c : Catalog} (h : AnalysisSound k c.tables)
    {r : RepositoryAnalysisRequest} (hr : r ∈ c.tables.repositoryAnalysisRequests)
    (hsent : r.status ≠ .queued) : ∃! e, e ∈ c.tables.outboxEvents ∧ SentAs r e := by
  obtain ⟨m, hm⟩ := c.sent hr hsent
  obtain ⟨_, _, envelope, _, _, hmem⟩ := h.carried r hr m hm
  obtain ⟨e, he, heq⟩ := List.mem_map.mp hmem
  obtain ⟨he, hsubject⟩ := List.mem_filter.mp he
  have hid : e.messageId = m := congrArg Prod.fst heq
  refine ⟨e, ⟨he, of_decide_eq_true hsubject, by rw [hm, hid]⟩, ?_⟩
  rintro e' ⟨he', -, hm'⟩
  rw [hm, Option.some.injEq] at hm'
  exact c.valid.keys.outbox.eq_of_mem he' he (hm'.symm.trans hid.symm)

/-- **Every analysis request lives once**: it is queued, sent under one message and settled by one
fact, over any interleaving of evaluations, dispatches and deliveries. -/
theorem analysis_lifecycle (k : Contracts) (history : List AnalysisEvent) :
    AnalysisLife k (Runs.runFrom (WatchWorld.advance k) WatchWorld.empty history) := by
  set w := Runs.runFrom (WatchWorld.advance k) WatchWorld.empty history with hw
  have hsound : AnalysisSound k w.tables :=
    Runs.invariant_runFrom (P := fun w => AnalysisSound k w.tables)
      (fun w e h => (analysisStep_advance k w e).sound h) (analysisSound_empty k) history
  refine ⟨hsound, fun r hr hsent => hsound.row hr hsent,
    fun e => (analysisStep_advance k w e).movesOnly, ?_, ?_, ?_⟩
  · intro r hr hterminal later
    exact Runs.invariant_runFrom
      (P := fun w : WatchWorld => r ∈ w.tables.repositoryAnalysisRequests)
      (fun w e h => (analysisStep_advance k w e).movesOnly.terminal_mem h hterminal) hr later
  · intro messageId now fact status heffect later now' fact' status'
    have hreceived : messageId ∈
        (w.step k (.deliver now messageId fact status)).tables.inboxEvents.map (·.messageId) :=
      received_of_effect heffect
    have hlater := Runs.invariant_runFrom
      (P := fun w : WatchWorld => messageId ∈ w.tables.inboxEvents.map (·.messageId))
      (fun w e h => inboxGrows_advance k w e h) hreceived later
    exact congrArg Valid.tables (unchanged_of_received hlater)
  · intro messageId now fact status hmismatched
    exact mismatched_unchanged hmismatched

end GithubCatalog
