import GithubCatalog.IncrementalScan
import GithubCatalog.SyncCommands

/-!
# Dispatching a synchronization command (`commands.rs`)

An accepted command claims its delivery, runs the requested star mode, chains a full snapshot behind a
detected gap, runs the list snapshot, and marks the delivery consumed.  The three flows run statement
by statement, as `ScanPhase.step` and `Attempt.step` have them, among any other writers; a process
that stops leaves a delivery that has not ended.

* `CommandPhase.step` - the next statement of a delivery;
* `CommandDelivery` - a delivery with the catalog and the reports of its flows;
* `handleSyncCommand` - a run of it;
* `KeepsPromise` - what the handling promises about the star outcome, the list snapshot and a gap;
* `keepsPromise_iff` - when it is kept.
-/

namespace GithubCatalog

open Runs Transact

structure HandledSyncCommand where
  commandId : Uuid
  accountId : Uuid
  requestedMode : RequestedSyncMode
  incremental : Option ScanOutcome := none
  full : Option SnapshotOutcome := none
  starLists : Option SnapshotOutcome := none
deriving DecidableEq

inductive ConsumedSyncCommand where
  | handled (h : HandledSyncCommand)
  | duplicate
deriving DecidableEq

inductive SyncCommandError where
  | refused (refusal : CommandRefusal)
  | persistence (error : CatalogError)
  | snapshot (error : CatalogError)
  | incremental (error : CatalogError)
  | starLists (error : CatalogError)
deriving DecidableEq

/-- Where a delivery stands. -/
inductive CommandPhase where
  | received (envelopeJson : String)
  | resolving (v : ValidatedEnvelope)
  | claiming (v : ValidatedEnvelope) (accountId : Uuid)
  | scanning (h : HandledSyncCommand) (phase : ScanPhase)
  | snapshotting (h : HandledSyncCommand) (phase : AttemptPhase (List StarredItem) ℕ)
  | listing (h : HandledSyncCommand) (phase : AttemptPhase UserListsPage (Option String))
  | consuming (h : HandledSyncCommand)
  | ended (result : Except SyncCommandError ConsumedSyncCommand)
deriving DecidableEq

/-- What the world contributes to one step. -/
structure CommandInput extends ScanInput where
  listReply : Except String UserListsPage

/-- What it contributes to a step of the list snapshot. -/
def CommandInput.lists (i : CommandInput) : AttemptInput UserListsPage where
  elapsed := i.elapsed
  fate := i.fate
  crash := i.crash
  freshId := i.freshId
  ids := i.ids
  acquired := i.acquired
  reply := i.listReply

/-- The result of an ended scan. -/
def ScanPhase.result? : ScanPhase → Option (Except CatalogError ScanOutcome)
  | .ended result => some result
  | _ => none

/-- The result of an ended snapshot. -/
def AttemptPhase.result? {Page Place : Type} :
    AttemptPhase Page Place → Option (Except CatalogError SnapshotOutcome)
  | .ended result => some result
  | _ => none

namespace CommandPhase

/-- The first flow of a claimed command. -/
def dispatch (h : HandledSyncCommand) : CommandPhase :=
  match h.requestedMode with
  | .incremental => .scanning h .reading
  | .full => .snapshotting h .opening

/-- After the claim: a delivery that is not the first ends. -/
def afterClaim (v : ValidatedEnvelope) (accountId : Uuid) (first : Bool) : CommandPhase :=
  if first then
    dispatch { commandId := v.commandId, accountId, requestedMode := v.requestedMode }
  else .ended (.ok .duplicate)

/-- After the incremental scan: a gap chains the full snapshot. -/
def afterScan (h : HandledSyncCommand) : Except CatalogError ScanOutcome → CommandPhase
  | .error e => .ended (.error (.incremental e))
  | .ok (.gapDetected runId) =>
    .snapshotting { h with incremental := some (.gapDetected runId) } .opening
  | .ok (.deferredToFull outcome) =>
    .listing { h with full := some outcome, incremental := some (.deferredToFull outcome) } .opening
  | .ok outcome => .listing { h with incremental := some outcome } .opening

/-- After a full snapshot. -/
def afterSnapshot (h : HandledSyncCommand) : Except CatalogError SnapshotOutcome → CommandPhase
  | .error e => .ended (.error (.snapshot e))
  | .ok outcome => .listing { h with full := some outcome } .opening

/-- After the list snapshot. -/
def afterLists (h : HandledSyncCommand) : Except CatalogError SnapshotOutcome → CommandPhase
  | .error e => .ended (.error (.starLists e))
  | .ok outcome => .consuming { h with starLists := some outcome }

/-- After the delivery was marked. -/
def afterConsume (h : HandledSyncCommand) : Except CatalogError Unit → CommandPhase
  | .error e => .ended (.error (.persistence e))
  | .ok _ => .ended (.ok (.handled h))

/-- The next statement of a delivery. -/
def step (k : Contracts) (p : Parsers) (i : CommandInput) (now : Time) (c : Catalog) :
    CommandPhase → CommandPhase × Catalog
  | received envelopeJson =>
    match validateEnvelope p envelopeJson with
    | .error refusal => (.ended (.error (.refused refusal)), c)
    | .ok v => (.resolving v, c)
  | resolving v =>
    match i.fate.run (select fun db => resolveAccount db.githubAccounts v.ownerRef) c with
    | (.error e, c') => (.ended (.error (.persistence e)), c')
    | (.ok (.error refusal), c') => (.ended (.error (.refused refusal)), c')
    | (.ok (.ok accountId), c') => (.claiming v accountId, c')
  | claiming v accountId =>
    match i.fate.run (claimSyncCommand v.commandId v.raw) c with
    | (.error e, c') => (.ended (.error (.persistence e)), c')
    | (.ok first, c') => (afterClaim v accountId first, c')
  | scanning h phase =>
    let s := phase.step k h.accountId i.toScanInput now c
    (s.1.result?.elim (.scanning h s.1) (afterScan h), s.2)
  | snapshotting h phase =>
    let s := Attempt.step (starEnumeration k) i.toAttemptInput now c ⟨h.accountId, phase, false⟩
    (s.1.result?.elim (.snapshotting h s.1) (afterSnapshot h), s.2)
  | listing h phase =>
    let s := Attempt.step listEnumeration i.lists now c ⟨h.accountId, phase, false⟩
    (s.1.result?.elim (.listing h s.1) (afterLists h), s.2)
  | consuming h =>
    let s := i.fate.run (consumeInboxEvent now h.commandId) c
    (afterConsume h s.1, s.2)
  | ended result => (.ended result, c)

end CommandPhase

/-! ### One delivery and the reports of its flows -/

/-- What happened to a delivery: it was claimed, a flow ended, or the mark was attempted. -/
inductive FlowReport where
  | claimed
  | incremental (result : Except CatalogError ScanOutcome)
  | full (result : Except CatalogError SnapshotOutcome)
  | starLists (result : Except CatalogError SnapshotOutcome)
  | consumed (result : Except CatalogError Unit)
deriving DecidableEq

/-- The report of one step. -/
def CommandPhase.reports (k : Contracts) (i : CommandInput) (now : Time) (c : Catalog) :
    CommandPhase → List FlowReport
  | .claiming v _ =>
    match (i.fate.run (claimSyncCommand v.commandId v.raw) c).1 with
    | .ok true => [.claimed]
    | _ => []
  | .scanning h phase =>
    ((phase.step k h.accountId i.toScanInput now c).1.result?.map .incremental).toList
  | .snapshotting h phase =>
    ((Attempt.step (starEnumeration k) i.toAttemptInput now c
      ⟨h.accountId, phase, false⟩).1.result?.map .full).toList
  | .listing h phase =>
    ((Attempt.step listEnumeration i.lists now c ⟨h.accountId, phase, false⟩).1.result?.map
      .starLists).toList
  | .consuming h => [.consumed (i.fate.run (consumeInboxEvent now h.commandId) c).1]
  | _ => []

/-- A delivery, its catalog and what its flows reported. -/
structure CommandDelivery where
  catalog : Catalog
  now : Time
  phase : CommandPhase
  reports : List FlowReport := []

/-- A step of the delivery, or a write of somebody else. -/
inductive CommandEvent where
  | self (i : CommandInput)
  | catalog (op : Operation)

def CommandDelivery.step (k : Contracts) (p : Parsers) (s : CommandDelivery) :
    CommandEvent → CommandDelivery
  | .self i =>
    { catalog := (s.phase.step k p i (s.now + i.elapsed) s.catalog).2
      now := s.now + i.elapsed
      phase := (s.phase.step k p i (s.now + i.elapsed) s.catalog).1
      reports := s.reports ++ s.phase.reports k i (s.now + i.elapsed) s.catalog }
  | .catalog op => { s with catalog := GithubCatalog.step k s.catalog op }

/-- `handle_sync_command`, among other writers. -/
def handleSyncCommand (k : Contracts) (p : Parsers) (c : Catalog) (now : Time) (envelopeJson : String)
    (events : List CommandEvent) : CommandDelivery :=
  runFrom (CommandDelivery.step k p) ⟨c, now, .received envelopeJson, []⟩ events

/-! ### The promise -/

/-- The answer reports an outcome of the incremental scan. -/
def ReportsIncremental (result : Except SyncCommandError ConsumedSyncCommand) (o : ScanOutcome) :
    Prop :=
  ∃ h, result = .ok (.handled h) ∧ h.incremental = some o

/-- The answer reports an outcome of a full snapshot. -/
def ReportsFull (result : Except SyncCommandError ConsumedSyncCommand) (o : SnapshotOutcome) : Prop :=
  ∃ h, result = .ok (.handled h) ∧ h.full = some o

/-- **The promise of a handled command**: the list snapshot was attempted, its error replaces no star
outcome that was established, and a gap is reported together with the forced full outcome. -/
structure KeepsPromise (reports : List FlowReport)
    (result : Except SyncCommandError ConsumedSyncCommand) : Prop where
  attempts : ∃ lists, .starLists lists ∈ reports
  keeps_incremental : ∀ e o, .starLists (.error e) ∈ reports → .incremental (.ok o) ∈ reports →
    ReportsIncremental result o
  keeps_full : ∀ e o, .starLists (.error e) ∈ reports → .full (.ok o) ∈ reports →
    ReportsFull result o
  gap : ∀ runId, .incremental (.ok (.gapDetected runId)) ∈ reports →
    ReportsIncremental result (.gapDetected runId) ∧ ∃ o, ReportsFull result o

/-- No flow ended with an error, and after a gap the delivery could be marked. -/
structure Untroubled (reports : List FlowReport) : Prop where
  incremental : ∀ e, .incremental (.error e) ∉ reports
  full : ∀ e, .full (.error e) ∉ reports
  starLists : ∀ e, .starLists (.error e) ∉ reports
  consumed : ∀ runId e, .incremental (.ok (.gapDetected runId)) ∈ reports →
    .consumed (.error e) ∉ reports

/-- The reports of a star mode that ended without an error, and what is handled then. -/
inductive StarReports : HandledSyncCommand → List FlowReport → Prop
  | scanned {h : HandledSyncCommand} (o : ScanOutcome) (hgap : ∀ runId, o ≠ .gapDetected runId)
      (ho : h.incremental = some o) : StarReports h [.claimed, .incremental (.ok o)]
  | snapshotted {h : HandledSyncCommand} (o : SnapshotOutcome) (ho : h.full = some o) :
      StarReports h [.claimed, .full (.ok o)]
  | chained {h : HandledSyncCommand} (runId : Uuid) (o : SnapshotOutcome)
      (hgap : h.incremental = some (.gapDetected runId)) (ho : h.full = some o) :
      StarReports h [.claimed, .incremental (.ok (.gapDetected runId)), .full (.ok o)]

/-- What was reported, by where the delivery stands. -/
inductive Fits : CommandPhase → List FlowReport → Prop
  | received (envelopeJson : String) : Fits (.received envelopeJson) []
  | resolving (v : ValidatedEnvelope) : Fits (.resolving v) []
  | claiming (v : ValidatedEnvelope) (accountId : Uuid) : Fits (.claiming v accountId) []
  | undispatched (result : Except SyncCommandError ConsumedSyncCommand) : Fits (.ended result) []
  | scanning (h : HandledSyncCommand) (phase : ScanPhase) : Fits (.scanning h phase) [.claimed]
  | snapshotting (h : HandledSyncCommand) (phase : AttemptPhase (List StarredItem) ℕ) :
      Fits (.snapshotting h phase) [.claimed]
  | rescanning {h : HandledSyncCommand} {runId : Uuid}
      (hgap : h.incremental = some (.gapDetected runId))
      (phase : AttemptPhase (List StarredItem) ℕ) :
      Fits (.snapshotting h phase) [.claimed, .incremental (.ok (.gapDetected runId))]
  | scanFailed (e : CatalogError) :
      Fits (.ended (.error (.incremental e))) [.claimed, .incremental (.error e)]
  | snapshotFailed (e : CatalogError) :
      Fits (.ended (.error (.snapshot e))) [.claimed, .full (.error e)]
  | rescanFailed (runId : Uuid) (e : CatalogError) :
      Fits (.ended (.error (.snapshot e)))
        [.claimed, .incremental (.ok (.gapDetected runId)), .full (.error e)]
  | listing {h : HandledSyncCommand} {log : List FlowReport} (hstar : StarReports h log)
      (phase : AttemptPhase UserListsPage (Option String)) : Fits (.listing h phase) log
  | listsFailed {h : HandledSyncCommand} {log : List FlowReport} (hstar : StarReports h log)
      (e : CatalogError) : Fits (.ended (.error (.starLists e))) (log ++ [.starLists (.error e)])
  | consuming {h : HandledSyncCommand} {log : List FlowReport} (hstar : StarReports h log)
      (o : SnapshotOutcome) : Fits (.consuming h) (log ++ [.starLists (.ok o)])
  | marked {h : HandledSyncCommand} {log : List FlowReport} (hstar : StarReports h log)
      (o : SnapshotOutcome) (marking : Except CatalogError Unit) :
      Fits (CommandPhase.afterConsume h marking)
        (log ++ [.starLists (.ok o)] ++ [.consumed marking])

namespace Fits

variable {k : Contracts} {p : Parsers} {i : CommandInput} {now : Time} {c : Catalog}

theorem dispatched (h : HandledSyncCommand) : Fits (CommandPhase.dispatch h) [.claimed] := by
  unfold CommandPhase.dispatch
  cases h.requestedMode with
  | incremental => exact .scanning _ _
  | full => exact .snapshotting _ _

/-- The end of the incremental scan. -/
theorem afterScan (h : HandledSyncCommand) (result : Except CatalogError ScanOutcome) :
    Fits (CommandPhase.afterScan h result) [.claimed, .incremental result] := by
  cases result with
  | error e => exact .scanFailed e
  | ok o =>
    cases o with
    | gapDetected runId => exact .rescanning rfl _
    | deferredToFull outcome => exact .listing (.scanned _ (by rintro _ ⟨⟩) rfl) _
    | completed runId pages items => exact .listing (.scanned _ (by rintro _ ⟨⟩) rfl) _
    | paused runId => exact .listing (.scanned _ (by rintro _ ⟨⟩) rfl) _
    | failed runId => exact .listing (.scanned _ (by rintro _ ⟨⟩) rfl) _

/-- **One step.**  The reports fit the phase after it. -/
theorem step {phase : CommandPhase} {log : List FlowReport} (h : Fits phase log) :
    Fits (phase.step k p i now c).1 (log ++ phase.reports k i now c) := by
  cases h with
  | received envelopeJson =>
    cases hv : validateEnvelope p envelopeJson with
    | error refusal =>
      simp only [CommandPhase.step, hv]
      exact .undispatched _
    | ok v =>
      simp only [CommandPhase.step, hv]
      exact .resolving v
  | resolving v =>
    cases hanswer : i.fate.run (select fun db => resolveAccount db.githubAccounts v.ownerRef) c with
    | mk answer c' =>
      cases answer with
      | error e =>
        simp only [CommandPhase.step, hanswer]
        exact .undispatched _
      | ok resolved =>
        cases resolved with
        | error refusal =>
          simp only [CommandPhase.step, hanswer]
          exact .undispatched _
        | ok accountId =>
          simp only [CommandPhase.step, hanswer]
          exact .claiming v accountId
  | claiming v accountId =>
    cases hanswer : i.fate.run (claimSyncCommand v.commandId v.raw) c with
    | mk answer c' =>
      cases answer with
      | error e =>
        simp only [CommandPhase.step, CommandPhase.reports, hanswer]
        exact .undispatched _
      | ok first =>
        cases first with
        | true =>
          simp only [CommandPhase.step, CommandPhase.reports, hanswer]
          exact dispatched _
        | false =>
          simp only [CommandPhase.step, CommandPhase.reports, hanswer]
          exact .undispatched _
  | undispatched result => exact .undispatched result
  | scanning h phase =>
    simp only [CommandPhase.step, CommandPhase.reports]
    cases (phase.step k h.accountId i.toScanInput now c).1.result? with
    | none => exact .scanning h _
    | some result => exact afterScan h result
  | snapshotting h phase =>
    simp only [CommandPhase.step, CommandPhase.reports]
    cases (Attempt.step (starEnumeration k) i.toAttemptInput now c
        ⟨h.accountId, phase, false⟩).1.result? with
    | none => exact .snapshotting h _
    | some result =>
      cases result with
      | error e => exact .snapshotFailed e
      | ok o => exact .listing (.snapshotted _ rfl) _
  | rescanning hgap phase =>
    simp only [CommandPhase.step, CommandPhase.reports]
    cases (Attempt.step (starEnumeration k) i.toAttemptInput now c
        ⟨_, phase, false⟩).1.result? with
    | none => exact .rescanning hgap _
    | some result =>
      cases result with
      | error e => exact .rescanFailed _ e
      | ok o =>
        refine .listing (.chained _ _ ?_ rfl) _
        exact hgap
  | scanFailed e => exact .scanFailed e
  | snapshotFailed e => exact .snapshotFailed e
  | rescanFailed runId e => exact .rescanFailed runId e
  | listing hstar phase =>
    simp only [CommandPhase.step, CommandPhase.reports]
    cases (Attempt.step listEnumeration i.lists now c ⟨_, phase, false⟩).1.result? with
    | none => exact (List.append_nil log).symm ▸ .listing hstar _
    | some result =>
      cases result with
      | error e => exact .listsFailed hstar e
      | ok o =>
        refine .consuming ?_ o
        cases hstar with
        | scanned o hgap ho => exact .scanned o hgap ho
        | snapshotted o ho => exact .snapshotted o ho
        | chained runId o hgap ho => exact .chained runId o hgap ho
  | listsFailed hstar e =>
    show Fits _ (_ ++ [])
    rw [List.append_nil]
    exact .listsFailed hstar e
  | consuming hstar o => exact .marked hstar o _
  | marked hstar o marking =>
    have hstays : ∀ h : HandledSyncCommand,
        ((CommandPhase.afterConsume h marking).step k p i now c).1 =
          CommandPhase.afterConsume h marking ∧
        (CommandPhase.afterConsume h marking).reports k i now c = [] := by
      intro h
      cases marking with
      | error e => exact ⟨rfl, rfl⟩
      | ok u => exact ⟨rfl, rfl⟩
    rw [(hstays _).1, (hstays _).2, List.append_nil]
    exact .marked hstar o marking

end Fits

/-- What a delivery reports fits the place where it stands. -/
theorem fits_handleSyncCommand (k : Contracts) (p : Parsers) (c : Catalog) (now : Time)
    (envelopeJson : String) (events : List CommandEvent) :
    Fits (handleSyncCommand k p c now envelopeJson events).phase
      (handleSyncCommand k p c now envelopeJson events).reports := by
  refine invariant_runFrom (P := fun s : CommandDelivery => Fits s.phase s.reports) ?_
    (.received envelopeJson) events
  intro s e hs
  cases e with
  | self i => exact hs.step
  | catalog op => exact hs

/-- A star mode that ended without an error established an outcome. -/
theorem StarReports.established {h : HandledSyncCommand} {log : List FlowReport}
    (hstar : StarReports h log) :
    (∃ o, FlowReport.incremental (.ok o) ∈ log) ∨ ∃ o, FlowReport.full (.ok o) ∈ log := by
  cases hstar with
  | scanned o hgap ho => exact .inl ⟨o, by simp⟩
  | snapshotted o ho => exact .inr ⟨o, by simp⟩
  | chained runId o hgap ho => exact .inr ⟨o, by simp⟩

/-- It reported no error, and nothing of the flows behind it. -/
theorem StarReports.clean {h : HandledSyncCommand} {log : List FlowReport}
    (hstar : StarReports h log) :
    (∀ e, FlowReport.incremental (.error e) ∉ log) ∧ (∀ e, FlowReport.full (.error e) ∉ log) ∧
      (∀ r, FlowReport.starLists r ∉ log) ∧ ∀ r, FlowReport.consumed r ∉ log := by
  cases hstar with
  | scanned o hgap ho => simp
  | snapshotted o ho => simp
  | chained runId o hgap ho => simp

/-- A gap it reported is handled, together with a full outcome. -/
theorem StarReports.gap {h : HandledSyncCommand} {log : List FlowReport} (hstar : StarReports h log)
    {runId : Uuid} (hgap : FlowReport.incremental (.ok (.gapDetected runId)) ∈ log) :
    h.incremental = some (.gapDetected runId) ∧ ∃ o, h.full = some o := by
  cases hstar with
  | scanned o hnone ho =>
    simp only [List.mem_cons, List.not_mem_nil, reduceCtorEq, FlowReport.incremental.injEq,
      Except.ok.injEq, or_false, false_or] at hgap
    exact absurd hgap.symm (hnone runId)
  | snapshotted o ho => simp at hgap
  | chained runId' o hfirst ho =>
    simp only [List.mem_cons, List.not_mem_nil, reduceCtorEq, FlowReport.incremental.injEq,
      Except.ok.injEq, ScanOutcome.gapDetected.injEq, or_false, false_or] at hgap
    exact ⟨hgap ▸ hfirst, o, ho⟩

/-- A star flow that ended with an error leaves the lists unattempted. -/
theorem iff_of_starFailed {log : List FlowReport}
    {result : Except SyncCommandError ConsumedSyncCommand}
    (hfailed : ¬ Untroubled log) (hlists : ∀ lists, .starLists lists ∉ log) :
    KeepsPromise log result ↔ Untroubled log := by
  refine iff_of_false (fun h => ?_) hfailed
  obtain ⟨lists, hmem⟩ := h.attempts
  exact hlists lists hmem

/-- A list snapshot that ended with an error replaces what the star mode established. -/
theorem iff_of_listsFailed {h : HandledSyncCommand} {log : List FlowReport}
    (hstar : StarReports h log) (e : CatalogError) :
    KeepsPromise (log ++ [.starLists (.error e)]) (.error (.starLists e)) ↔
      Untroubled (log ++ [.starLists (.error e)]) := by
  have hmem : FlowReport.starLists (.error e) ∈ log ++ [.starLists (.error e)] :=
    List.mem_append_right _ (List.mem_singleton.mpr rfl)
  refine iff_of_false (fun hkeeps => ?_) fun h => h.starLists e hmem
  obtain ⟨o, ho⟩ | ⟨o, ho⟩ := hstar.established
  · obtain ⟨h', heq, -⟩ := hkeeps.keeps_incremental e o hmem (List.mem_append_left _ ho)
    cases heq
  · obtain ⟨h', heq, -⟩ := hkeeps.keeps_full e o hmem (List.mem_append_left _ ho)
    cases heq

/-- All flows ended without an error: the mark decides whether a gap is reported. -/
theorem iff_of_marked {h : HandledSyncCommand} {log : List FlowReport} (hstar : StarReports h log)
    (o : SnapshotOutcome) (marking : Except CatalogError Unit)
    {result : Except SyncCommandError ConsumedSyncCommand}
    (hresult : CommandPhase.afterConsume h marking = .ended result) :
    KeepsPromise (log ++ [.starLists (.ok o)] ++ [.consumed marking]) result ↔
      Untroubled (log ++ [.starLists (.ok o)] ++ [.consumed marking]) := by
  obtain ⟨hincremental, hfull, hlists, hconsumed⟩ := hstar.clean
  have hnolists : ∀ e, FlowReport.starLists (.error e) ∉
      log ++ [.starLists (.ok o)] ++ [.consumed marking] := by
    intro e he
    simp only [List.mem_append, List.mem_singleton, hlists, reduceCtorEq, or_false,
      FlowReport.starLists.injEq] at he
  have hgap : ∀ runId, FlowReport.incremental (.ok (.gapDetected runId)) ∈
      log ++ [.starLists (.ok o)] ++ [.consumed marking] →
      FlowReport.incremental (.ok (.gapDetected runId)) ∈ log := by
    intro runId hmem
    simpa using hmem
  constructor
  · intro hkeeps
    refine ⟨fun e he => ?_, fun e he => ?_, hnolists, fun runId e hrun he => ?_⟩
    · exact hincremental e (by simpa using he)
    · exact hfull e (by simpa using he)
    · obtain ⟨⟨h', heq, -⟩, -⟩ := hkeeps.gap runId hrun
      simp only [List.mem_append, List.mem_singleton, hconsumed, reduceCtorEq, false_or,
        FlowReport.consumed.injEq] at he
      rw [← he] at hresult
      cases hresult
      cases heq
  · intro htroubled
    refine ⟨⟨.ok o, by simp⟩, fun e _ he => absurd he (hnolists e),
      fun e _ he => absurd he (hnolists e), fun runId hrun => ?_⟩
    obtain ⟨hscanned, full, hsnapshotted⟩ := hstar.gap (hgap runId hrun)
    cases marking with
    | error e => exact absurd (by simp) (htroubled.consumed runId e hrun)
    | ok u =>
      cases hresult
      exact ⟨⟨h, rfl, hscanned⟩, full, h, rfl, hsnapshotted⟩

/-- **Handled commands.**  Whatever the flows of a claimed command do, and whoever else writes: the
handling keeps its promise exactly when no flow ends with an error and, after a gap, the delivery can
be marked. -/
theorem keepsPromise_iff (k : Contracts) (p : Parsers) (c : Catalog) (now : Time)
    (envelopeJson : String) (events : List CommandEvent)
    (result : Except SyncCommandError ConsumedSyncCommand)
    (hended : (handleSyncCommand k p c now envelopeJson events).phase = .ended result)
    (hclaimed : .claimed ∈ (handleSyncCommand k p c now envelopeJson events).reports) :
    KeepsPromise (handleSyncCommand k p c now envelopeJson events).reports result ↔
      Untroubled (handleSyncCommand k p c now envelopeJson events).reports := by
  have hfits := fits_handleSyncCommand k p c now envelopeJson events
  generalize (handleSyncCommand k p c now envelopeJson events).reports = log at hfits hclaimed ⊢
  generalize (handleSyncCommand k p c now envelopeJson events).phase = phase at hfits hended
  cases hfits with
  | undispatched result' => cases hclaimed
  | scanFailed e => exact iff_of_starFailed (fun h => h.incremental e (by simp)) (by simp)
  | snapshotFailed e => exact iff_of_starFailed (fun h => h.full e (by simp)) (by simp)
  | rescanFailed runId e => exact iff_of_starFailed (fun h => h.full e (by simp)) (by simp)
  | listsFailed hstar e =>
    cases hended
    exact iff_of_listsFailed hstar e
  | marked hstar o marking => exact iff_of_marked hstar o marking hended
  | received | resolving | claiming | scanning | snapshotting | rescanning | listing | consuming =>
    cases hended

/-! ### One command -/

/-- A step in a world that never admits a fetch. -/
def deliveryInput (fate : Fate) (freshId : Uuid) : CommandEvent :=
  .self
    { elapsed := 1, fate, crash := false, freshId, ids := fun _ _ => 0, acquired := false
      reply := .error "", shown := "", listReply := .error "" }

/-- The steps of the delivery, the step `n` under its own fate. -/
def deliveryEvents (fates : List Fate) : List CommandEvent :=
  fates.zipIdx.map fun entry => deliveryInput entry.1 (500 + BitVec.ofNat 128 entry.2)

/-- The delivery of a command of `owner-a` to the catalog of two connected owners. -/
def deliveryAfter (fates : List Fate) : CommandDelivery :=
  handleSyncCommand sampleContracts sampleParsers
    (runFrom (GithubCatalog.step sampleContracts) emptyCatalog connectOwners) 100
    (commandText "owner-a") (deliveryEvents fates)

/-- Both flows pause, and the delivery is marked. -/
theorem keepsPromise_iff_paused :
    KeepsPromise (deliveryAfter (List.replicate 11 .served)).reports
        (.ok (.handled ⟨7, 1, .incremental, some (.deferredToFull (.paused 505)), some (.paused 505),
          some (.paused 508)⟩)) ↔
      Untroubled (deliveryAfter (List.replicate 11 .served)).reports :=
  keepsPromise_iff sampleContracts sampleParsers _ 100 (commandText "owner-a") _ _
    (by decide +kernel) (by decide +kernel)

/-- A list snapshot that cannot read its runs takes the paused star outcome with it, and a scan that
cannot read its watermark takes the list snapshot with it. -/
theorem promise_broken :
    ((deliveryAfter (List.replicate 7 .served ++ [.rolledBack])).phase =
        .ended (.error (.starLists (.query .unavailable))) ∧
      ¬ KeepsPromise (deliveryAfter (List.replicate 7 .served ++ [.rolledBack])).reports
        (.error (.starLists (.query .unavailable)))) ∧
    (deliveryAfter (List.replicate 3 .served ++ [.rolledBack])).phase =
        .ended (.error (.incremental (.query .unavailable))) ∧
      ¬ KeepsPromise (deliveryAfter (List.replicate 3 .served ++ [.rolledBack])).reports
        (.error (.incremental (.query .unavailable))) := by
  have hpaused : (deliveryAfter (List.replicate 7 .served ++ [.rolledBack])).reports =
      [.claimed, .incremental (.ok (.deferredToFull (.paused 505))),
        .starLists (.error (.query .unavailable))] := by
    decide +kernel
  have hunread : (deliveryAfter (List.replicate 3 .served ++ [.rolledBack])).reports =
      [.claimed, .incremental (.error (.query .unavailable))] := by
    decide +kernel
  refine ⟨⟨by decide +kernel, fun hkeeps => ?_⟩, by decide +kernel, fun hkeeps => ?_⟩
  · obtain ⟨h, heq, -⟩ := hkeeps.keeps_incremental (.query .unavailable)
      (.deferredToFull (.paused 505)) (by rw [hpaused]; simp) (by rw [hpaused]; simp)
    cases heq
  · obtain ⟨lists, hmem⟩ := hkeeps.attempts
    rw [hunread] at hmem
    simp at hmem

end GithubCatalog
