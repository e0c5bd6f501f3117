import GithubCatalog.ActionFaults
import GithubCatalog.IncrementalScan
import GithubCatalog.Lib.Permits
import GithubCatalog.ListSwap
import GithubCatalog.ModeExclusion
import GithubCatalog.RepositoryFetches

/-!
# Requests and acquisitions (`rate_limit.rs` and its callers)

Every flow that sends provider requests acquires from the shared ledger at its own call sites.  The
log of a system of flows notes each successful acquisition and each request, with the flow and the
token it is for.

* `Flow.exchange` - what the next step of a flow has to do with the ledger or the provider;
* `BudgetSystem.step` - flows that start, step and stop, over one ledger;
* `Flow.position` - where a flow stands with the acquisitions it made;
* `requests_within_budget_iff` - the runs in which every request has an acquisition of its own.
-/

namespace GithubCatalog

open Runs Permits

/-! ### What a step exchanges -/

/-- An acquisition or a request. -/
inductive Exchange where
  | acquires
  | sends
deriving DecidableEq

/-- `ledger.acquire` and `list_starred` or `list_user_lists` of a snapshot's loop. -/
def AttemptPhase.exchange {Page Place : Type} : AttemptPhase Page Place → Option Exchange
  | .acquiring _ _ => some .acquires
  | .fetching _ _ => some .sends
  | _ => none

/-- `ledger.acquire` and `list_starred_newest_first` of the scan's loop, or those of the snapshot it
deferred to. -/
def ScanPhase.exchange : ScanPhase → Option Exchange
  | .deferring phase => phase.exchange
  | .acquiring _ _ _ => some .acquires
  | .fetching _ _ _ => some .sends
  | _ => none

/-- `ledger.acquire` of `execute_mutation`, the node lookup and the write. -/
def Phase.exchange : Phase → Option Exchange
  | .budget => some .acquires
  | .resolve _ | .write _ _ => some .sends
  | _ => none

/-- `access.ledger.acquire` and `fetch_readme`. -/
def RecordPhase.exchange : RecordPhase → Option Exchange
  | .acquiring _ _ => some .acquires
  | .fetching _ _ => some .sends
  | _ => none

/-! ### Flows -/

/-- A flow that was started with a token, where it stands. -/
inductive Flow where
  | fullSnapshot (token : String) (accountId : Uuid) (phase : AttemptPhase (List StarredItem) ℕ)
  | listSnapshot (token : String) (accountId : Uuid)
      (phase : AttemptPhase UserListsPage (Option String))
  | incrementalScan (token : String) (accountId : Uuid) (phase : ScanPhase)
  | observation (token : String) (requested : OwnerName) (phase : ObservationPhase)
  | action (userId : Uuid) (request : RepositoryActionRequest) (stage : ActionStage)
  | preview (userId : Uuid) (owner name : String) (phase : PreviewPhase)
  | mutation (token : String) (m : Mutation)
  | stopped

/-- A flow to be started. -/
inductive FlowStart where
  | fullSnapshot (token : String) (accountId : Uuid)
  | listSnapshot (token : String) (accountId : Uuid)
  | incrementalScan (token : String) (accountId : Uuid)
  | observation (token : String) (requested : OwnerName)
  | action (userId : Uuid) (request : RepositoryActionRequest)
  | preview (userId : Uuid) (owner name : String)
  | mutation (token : String) (context : MutationContext) (request : MutationRequest)

def FlowStart.flow : FlowStart → Flow
  | fullSnapshot token accountId => .fullSnapshot token accountId .opening
  | listSnapshot token accountId => .listSnapshot token accountId .opening
  | incrementalScan token accountId => .incrementalScan token accountId .reading
  | observation token requested => .observation token requested .acquiring
  | action userId request => .action userId request (.first request)
  | preview userId owner name => .preview userId owner name .choosing
  | mutation token context request => .mutation token ⟨context, request, .authorize⟩

/-- What the world contributes to a step of any flow. -/
structure BudgetInput where
  now : Time
  stars : ScanInput
  lists : AttemptInput UserListsPage
  fetch : FetchInput
  env : ActionEnvironment
  mutation : StepInput

/-- The decision of the ledger in place of the input's. -/
def BudgetInput.decided (i : BudgetInput) (granted : Bool) : BudgetInput :=
  { i with
    stars := { i.stars with acquired := granted }
    lists := { i.lists with acquired := granted }
    fetch := { i.fetch with acquired := granted }
    mutation := { i.mutation with acquired := granted } }

namespace Flow

/-- What the next step exchanges, and the token it is for. -/
def exchange : Flow → Option (Exchange × String)
  | fullSnapshot token _ phase => phase.exchange.map (·, token)
  | listSnapshot token _ phase => phase.exchange.map (·, token)
  | incrementalScan token _ phase => phase.exchange.map (·, token)
  | observation token _ phase =>
    match phase with
    | .acquiring => some (.acquires, token)
    | .fetching _ _ => some (.sends, token)
    | .recording _ phase => phase.exchange.map (·, token)
    | _ => none
  | action _ _ stage =>
    match stage with
    | .acquiring token => some (.acquires, token)
    | .fetching token => some (.sends, token)
    | .recording token _ phase => phase.exchange.map (·, token)
    | .starring _ token m => m.phase.exchange.map (·, token)
    | _ => none
  | preview _ _ _ phase =>
    match phase with
    | .acquiring token => some (.acquires, token)
    | .fetching token => some (.sends, token)
    | _ => none
  | mutation token m => m.phase.exchange.map (·, token)
  | stopped => none

/-- The next step. -/
def step (k : Contracts) (p : ActionContracts) (i : BudgetInput) (w : World) : Flow → Flow × World
  | fullSnapshot token accountId phase =>
    let s := Attempt.step (starEnumeration k) i.stars.toAttemptInput i.now w.catalog
      ⟨accountId, phase, false⟩
    (.fullSnapshot token accountId s.1, { w with catalog := s.2 })
  | listSnapshot token accountId phase =>
    let s := Attempt.step listEnumeration i.lists i.now w.catalog ⟨accountId, phase, false⟩
    (.listSnapshot token accountId s.1, { w with catalog := s.2 })
  | incrementalScan token accountId phase =>
    let s := phase.step k accountId i.stars i.now w.catalog
    (.incrementalScan token accountId s.1, { w with catalog := s.2 })
  | observation token requested phase =>
    let s := phase.step k requested i.fetch w.catalog
    (.observation token requested s.1, { w with catalog := s.2 })
  | action userId request stage =>
    let s := stage.step k p userId request i.env i.fetch i.mutation w
    (.action userId request s.1, s.2)
  | preview userId owner name phase =>
    (.preview userId owner name (phase.step userId owner name i.env i.fetch), w)
  | mutation token m =>
    let s := m.step i.mutation w
    (.mutation token { m with phase := s.1 }, s.2)
  | stopped => (.stopped, w)

/-- The next step sends the write of a star or a list mutation. -/
def writes : Flow → Bool
  | mutation _ m | action _ _ (.starring _ _ m) =>
    match m.phase with
    | .write _ _ => true
    | _ => false
  | _ => false

end Flow

/-! ### Systems of flows -/

/-- The world, the ledger, the flows that were started, and their acquisitions and requests. -/
structure BudgetSystem where
  world : World
  ledger : RateLimitLedger
  flows : List Flow
  log : List (Entry String)

/-- A flow starts, takes its next step or fails; a response is observed; the service restarts;
somebody else writes the catalog or at the provider. -/
inductive BudgetEvent where
  | start (f : FlowStart)
  | advance (n : ℕ) (i : BudgetInput)
  | stop (n : ℕ)
  | observe (now : Time) (token : String) (headers : RateLimitHeaders)
  | restart
  | catalog (op : Operation)
  | upstream (u : Upstream)

namespace BudgetSystem

/-- The service before its first flow. -/
def booted (w : World) : BudgetSystem := ⟨w, RateLimitLedger.new, [], []⟩

/-- Whether the ledger grants what the flow asks for. -/
def granted (s : BudgetSystem) (now : Time) (f : Flow) : Bool :=
  match f.exchange with
  | some (.acquires, token) => s.ledger.grants now token
  | _ => false

/-- The ledger after the step of a flow. -/
def ledgerAfter (s : BudgetSystem) (now : Time) (f : Flow) : RateLimitLedger :=
  match f.exchange with
  | some (.acquires, token) => (s.ledger.acquire now token).2
  | _ => s.ledger

/-- What the step of the flow `n` adds to the log. -/
def logged (s : BudgetSystem) (n : ℕ) (now : Time) (f : Flow) : List (Entry String) :=
  match f.exchange with
  | some (.acquires, token) => if s.ledger.grants now token then [.granted n token] else []
  | some (.sends, token) => [.spent n token]
  | none => []

/-- The flow `n` takes its next step. -/
def advance (k : Contracts) (p : ActionContracts) (s : BudgetSystem) (n : ℕ) (i : BudgetInput) :
    BudgetSystem :=
  match s.flows[n]? with
  | none => s
  | some f =>
    let next := f.step k p (i.decided (s.granted i.now f)) s.world
    { world := next.2
      ledger := s.ledgerAfter i.now f
      flows := s.flows.set n next.1
      log := s.log ++ s.logged n i.now f }

def step (k : Contracts) (p : ActionContracts) (s : BudgetSystem) : BudgetEvent → BudgetSystem
  | .start f => { s with flows := s.flows ++ [f.flow] }
  | .advance n i => s.advance k p n i
  | .stop n => { s with flows := s.flows.set n .stopped }
  | .observe now token headers => { s with ledger := s.ledger.observe now token headers }
  | .restart => { s with ledger := RateLimitLedger.new, flows := s.flows.map fun _ => .stopped }
  | .catalog op => { s with world := { s.world with catalog := GithubCatalog.step k s.world.catalog op } }
  | .upstream u => { s with world := { s.world with upstream := u } }

/-- Every request was preceded by an acquisition of its own flow for its token, and no token has more
requests than acquisitions. -/
def WithinBudget (s : BudgetSystem) : Prop :=
  Permits.Covered s.log ∧ ∀ token, (spenders token s.log).length ≤ (grantees token s.log).length

/-- The event sends no write of a star or a list mutation. -/
def SendsNoWrite (s : BudgetSystem) : BudgetEvent → Prop
  | .advance n _ => ∀ f ∈ s.flows[n]?, f.writes = false
  | _ => True

end BudgetSystem

/-! ### Positions -/

/-- A snapshot holds its acquisition only between the ledger and the provider. -/
def AttemptPhase.standing {Page Place : Type} : AttemptPhase Page Place → Standing
  | .acquiring _ _ => .drawing
  | .fetching _ _ => .spending
  | .ended _ => .finished
  | _ => .idle

def ScanPhase.standing : ScanPhase → Standing
  | .deferring phase => phase.standing
  | .acquiring _ _ _ => .drawing
  | .fetching _ _ _ => .spending
  | .ended _ => .finished
  | _ => .idle

/-- A mutation spends its acquisition on the node lookup; behind the write it exchanges nothing. -/
def Phase.standing : Phase → Standing
  | .authorize | .replay | .exclusion => .idle
  | .budget => .drawing
  | .target _ _ | .memberships _ _ _ => .holding
  | .resolve _ => .spending
  | .write _ _ => .overspending
  | .persist _ | .conclude _ _ _ | .returned _ _ | .outraced _ | .raised _ => .finished

/-- Somebody else goes on after the recording. -/
def RecordPhase.standing : RecordPhase → Standing
  | .acquiring _ _ => .drawing
  | .fetching _ _ => .spending
  | _ => .idle

def ObservationPhase.standing : ObservationPhase → Standing
  | .acquiring => .drawing
  | .resolving | .validating _ => .holding
  | .fetching _ _ => .spending
  | .recording _ phase => phase.standing
  | .ended _ => .finished
  | _ => .idle

def ActionStage.position : ActionStage → Position String
  | .acquiring token => ⟨.drawing, token⟩
  | .fetching token => ⟨.spending, token⟩
  | .recording token _ phase => ⟨phase.standing, token⟩
  | .starring _ token m => ⟨m.phase.standing, token⟩
  | .ended _ => ⟨.finished, ""⟩
  | _ => ⟨.idle, ""⟩

def PreviewPhase.position : PreviewPhase → Position String
  | .choosing => ⟨.idle, ""⟩
  | .acquiring token => ⟨.drawing, token⟩
  | .fetching token => ⟨.spending, token⟩
  | .ended _ => ⟨.finished, ""⟩

/-- Where a flow stands with the acquisitions it made. -/
def Flow.position : Flow → Position String
  | .fullSnapshot token _ phase => ⟨phase.standing, token⟩
  | .listSnapshot token _ phase => ⟨phase.standing, token⟩
  | .incrementalScan token _ phase => ⟨phase.standing, token⟩
  | .observation token _ phase => ⟨phase.standing, token⟩
  | .action _ _ stage => stage.position
  | .preview _ _ _ phase => phase.position
  | .mutation token m => ⟨m.phase.standing, token⟩
  | .stopped => ⟨.finished, ""⟩

/-- What a standing exchanges next. -/
def exchangeOf : Standing → Option Exchange
  | .drawing => some .acquires
  | .spending | .overspending => some .sends
  | _ => none

theorem attempt_exchange {Page Place : Type} (phase : AttemptPhase Page Place) :
    phase.exchange = exchangeOf phase.standing := by
  cases phase <;> rfl

theorem scan_exchange (phase : ScanPhase) : phase.exchange = exchangeOf phase.standing := by
  cases phase with
  | deferring phase => exact attempt_exchange phase
  | _ => rfl

theorem mutation_exchange (phase : Phase) : phase.exchange = exchangeOf phase.standing := by
  cases phase <;> rfl

theorem record_exchange (phase : RecordPhase) : phase.exchange = exchangeOf phase.standing := by
  cases phase <;> rfl

/-- The exchange of a flow, by its position. -/
theorem Flow.exchange_eq (f : Flow) :
    f.exchange = (exchangeOf f.position.standing).map (·, f.position.token) := by
  cases f with
  | fullSnapshot token accountId phase => exact congrArg (Option.map _) (attempt_exchange phase)
  | listSnapshot token accountId phase => exact congrArg (Option.map _) (attempt_exchange phase)
  | incrementalScan token accountId phase => exact congrArg (Option.map _) (scan_exchange phase)
  | observation token requested phase =>
    cases phase with
    | recording s phase => exact congrArg (Option.map _) (record_exchange phase)
    | _ => rfl
  | action userId request stage =>
    cases stage with
    | recording token s phase => exact congrArg (Option.map _) (record_exchange phase)
    | starring metadata token m => exact congrArg (Option.map _) (mutation_exchange m.phase)
    | _ => rfl
  | preview userId owner name phase => cases phase <;> rfl
  | mutation token m => exact congrArg (Option.map _) (mutation_exchange m.phase)
  | stopped => rfl

/-- What a step logs, by the position of its flow. -/
theorem BudgetSystem.logged_eq (s : BudgetSystem) (n : ℕ) (now : Time) (f : Flow) :
    s.logged n now f = f.position.entries n (s.granted now f) := by
  unfold BudgetSystem.logged BudgetSystem.granted Position.entries
  rw [f.exchange_eq]
  cases hstanding : f.position.standing <;> rfl

/-- Only the write of a mutation is sent without an acquisition. -/
theorem Flow.overspending_iff (f : Flow) :
    f.position.standing = .overspending ↔ f.writes = true := by
  have hphase : ∀ phase : Phase, phase.standing = .overspending ↔
      (match phase with
        | .write _ _ => true
        | _ => false) = true := by
    intro phase
    cases phase <;> simp [Phase.standing]
  cases f with
  | mutation token m => exact hphase m.phase
  | action userId request stage =>
    cases stage with
    | starring metadata token m => exact hphase m.phase
    | recording token s phase =>
      refine iff_of_false (fun h => ?_) Bool.false_ne_true
      cases phase <;> exact nomatch h
    | _ => exact iff_of_false (fun h => nomatch h) Bool.false_ne_true
  | fullSnapshot token accountId phase | listSnapshot token accountId phase =>
    refine iff_of_false (fun h => ?_) Bool.false_ne_true
    cases phase <;> exact nomatch h
  | incrementalScan token accountId phase =>
    refine iff_of_false (fun h => ?_) Bool.false_ne_true
    cases phase with
    | deferring phase => cases phase <;> exact nomatch h
    | _ => exact nomatch h
  | observation token requested phase =>
    refine iff_of_false (fun h => ?_) Bool.false_ne_true
    cases phase with
    | recording s phase => cases phase <;> exact nomatch h
    | _ => exact nomatch h
  | preview userId owner name phase =>
    refine iff_of_false (fun h => ?_) Bool.false_ne_true
    cases phase <;> exact nomatch h
  | stopped => exact iff_of_false (fun h => nomatch h) Bool.false_ne_true

/-! ### Steps -/

section steps

variable {k : Contracts} {now : Time} {c : Catalog} {granted : Bool}

/-- A step that is done with its acquisition, or had none. -/
theorem leads_of_not_held {a b : Standing} (ha : a ≠ .finished) (hafter : a.after granted = false)
    (hb : b.held = false) : a.Leads granted b :=
  .inr ⟨ha, hb.trans hafter.symm⟩

/-- Behind a statement a snapshot holds what its continuation holds. -/
theorem attempt_settle {Page Place α : Type} {answer : Except CatalogError α × Catalog}
    {f : α → AttemptPhase Page Place} (hf : ∀ a, (f a).standing.held = false) :
    (Attempt.settle answer f).1.standing.held = false := by
  obtain ⟨result, c'⟩ := answer
  cases result with
  | ok a => exact hf a
  | error e => rfl

/-- **One step of a snapshot.** -/
theorem attempt_leads {Page Place : Type} (e : Enumeration Page Place) (i : AttemptInput Page)
    (a : Attempt Page Place) :
    a.phase.standing.Leads i.acquired (a.step e i now c).1.standing := by
  unfold Attempt.step
  cases hphase : a.phase with
  | acquiring runId place =>
    dsimp only
    cases hacquired : i.acquired with
    | true => exact .inr ⟨nofun, rfl⟩
    | false => exact .inl rfl
  | fetching runId place =>
    refine leads_of_not_held nofun rfl ?_
    show (Attempt.afterFetch e runId place i.reply).standing.held = false
    unfold Attempt.afterFetch
    split
    · rfl
    · split
      · rfl
      · rfl
  | ended result => exact .inl rfl
  | opening =>
    refine leads_of_not_held nofun rfl (attempt_settle fun found => ?_)
    cases found <;> rfl
  | identifying runId place page todo =>
    refine leads_of_not_held nofun rfl ?_
    cases todo with
    | nil => rfl
    | cons entry todo =>
      refine attempt_settle fun _ => ?_
      unfold Attempt.afterUpsert
      split
      · rfl
      · rfl
  | recording runId place page =>
    refine leads_of_not_held nofun rfl (attempt_settle fun _ => ?_)
    unfold Attempt.afterRecord
    split
    · rfl
    · rfl
  | applying runId =>
    refine leads_of_not_held nofun rfl (attempt_settle fun _ => ?_)
    unfold Attempt.afterApply
    split
    · rfl
    · rfl
  | resuming | inserting | failing | naming | reading =>
    exact leads_of_not_held nofun rfl (attempt_settle fun _ => rfl)

theorem scan_settle {α : Type} {answer : Except CatalogError α × Catalog} {f : α → ScanPhase}
    (hf : ∀ a, (f a).standing.held = false) : (ScanPhase.settle answer f).1.standing.held = false := by
  obtain ⟨result, c'⟩ := answer
  cases result with
  | ok a => exact hf a
  | error e => rfl

/-- A scan that deferred stands where the snapshot stands. -/
theorem afterDeferral_standing (phase : AttemptPhase (List StarredItem) ℕ) :
    (ScanPhase.afterDeferral phase).standing = phase.standing := by
  cases phase with
  | ended result => cases result <;> rfl
  | _ => rfl

/-- **One step of an incremental scan.** -/
theorem scan_leads (accountId : Uuid) (i : ScanInput) (phase : ScanPhase) :
    phase.standing.Leads i.acquired (phase.step k accountId i now c).1.standing := by
  cases phase with
  | deferring phase =>
    show phase.standing.Leads i.acquired (ScanPhase.afterDeferral _).standing
    rw [afterDeferral_standing]
    exact attempt_leads (starEnumeration k) i.toAttemptInput ⟨accountId, phase, false⟩
  | acquiring watermark runId l =>
    show Standing.drawing.Leads i.acquired (if _ then _ else _ : ScanPhase).standing
    cases hacquired : i.acquired with
    | true => exact .inr ⟨nofun, rfl⟩
    | false => exact .inl rfl
  | fetching watermark runId l =>
    refine leads_of_not_held nofun rfl ?_
    show (ScanPhase.afterFetch k watermark runId l i.shown i.reply).standing.held = false
    unfold ScanPhase.afterFetch
    split
    · rfl
    · split
      · rfl
      · rfl
  | ended result => exact .inl rfl
  | reading =>
    refine leads_of_not_held nofun rfl (scan_settle fun watermark => ?_)
    cases watermark <;> rfl
  | opening watermark =>
    refine leads_of_not_held nofun rfl (scan_settle fun found => ?_)
    cases found <;> rfl
  | identifying watermark runId l page todo =>
    refine leads_of_not_held nofun rfl ?_
    cases todo with
    | nil => rfl
    | cons entry todo =>
      refine scan_settle fun repositoryId => ?_
      unfold ScanPhase.afterUpsert
      split
      · rfl
      · rfl
  | recording watermark runId l page =>
    refine leads_of_not_held nofun rfl (scan_settle fun _ => ?_)
    unfold ScanPhase.afterRecord
    split
    · rfl
    · rfl
  | resuming | inserting | failing | naming | ingesting | completing =>
    exact leads_of_not_held nofun rfl (scan_settle fun _ => rfl)

/-- **One step of a mutation.** -/
theorem mutation_leads (m : Mutation) (i : StepInput) (w : World) :
    m.phase.standing.Leads i.acquired (m.step i w).1.standing := by
  have hread : ∀ phase : Phase, m.phase = phase →
      (phase.standing.Leads i.acquired (m.afterRead w.catalog.tables phase).standing) →
      phase.standing.Leads i.acquired (m.reading i w).1.standing := by
    intro phase hphase hafter
    rcases (m.reading_cases i w).2 with heq | ⟨e, heq⟩
    · rw [heq, hphase]
      exact hafter
    · rw [heq]
      exact .inl rfl
  unfold Mutation.step
  cases hphase : m.phase with
  | authorize =>
    refine hread _ hphase ?_
    dsimp only [Mutation.afterRead]
    split
    · exact .inl rfl
    · exact .inr ⟨nofun, rfl⟩
  | replay =>
    refine hread _ hphase ?_
    dsimp only [Mutation.afterRead]
    split
    · exact .inl rfl
    · exact .inr ⟨nofun, rfl⟩
  | exclusion =>
    refine hread _ hphase ?_
    dsimp only [Mutation.afterRead]
    split
    · exact .inl rfl
    · exact .inr ⟨nofun, rfl⟩
  | budget =>
    show Standing.drawing.Leads i.acquired (if _ then _ else _ : Phase).standing
    cases hacquired : i.acquired with
    | false => exact .inl rfl
    | true =>
      refine .inr ⟨nofun, ?_⟩
      show m.dispatch.standing.held = true
      unfold Mutation.dispatch
      cases m.request <;> rfl
  | target change listId =>
    refine hread _ hphase ?_
    dsimp only [Mutation.afterRead]
    split
    · exact .inr ⟨nofun, rfl⟩
    · exact .inl rfl
  | memberships change listId target => exact hread _ hphase (.inr ⟨nofun, rfl⟩)
  | resolve plan =>
    dsimp only
    split
    · exact .inr ⟨nofun, rfl⟩
    · exact .inl rfl
  | write plan node =>
    left
    show (if _ then _ else _ : Phase).standing = .finished
    split
    · rfl
    · rfl
  | persist wrote =>
    left
    show (m.persisting i wrote w).1.standing = .finished
    unfold Mutation.persisting
    split
    · rfl
    · rfl
    · rfl
  | conclude outcome reason status =>
    left
    show (m.concluding i outcome reason status w).1.standing = .finished
    unfold Mutation.concluding
    split
    · rfl
    · rfl
  | returned | outraced | raised => exact .inl rfl

/-- Behind a statement stands the failure or a continuation. -/
theorem settleFetch_cases {P α : Type} {Q : P → Prop} {answer : Except CatalogError α × Catalog}
    {failed : P} {f : α → P} (hfailed : Q failed) (hf : ∀ a, Q (f a)) :
    Q (settleFetch answer failed f).1 := by
  obtain ⟨result, c'⟩ := answer
  cases result with
  | ok a => exact hf a
  | error e => exact hfailed

theorem record_alive (phase : RecordPhase) : phase.standing ≠ .finished := by
  cases phase <;> exact nofun

theorem record_settle {α : Type} {answer : Except CatalogError α × Catalog} {failed : RecordPhase}
    {f : α → RecordPhase} (hfailed : failed.standing.held = false)
    (hf : ∀ a, (f a).standing.held = false) :
    (settleFetch answer failed f).1.standing.held = false :=
  settleFetch_cases (Q := fun phase => (RecordPhase.standing phase).held = false) hfailed hf

/-- **One step of the recording.** -/
theorem record_held (s : FreshSource) (i : FetchInput) (phase : RecordPhase) :
    (phase.step k s i c).1.standing.held = phase.standing.after i.acquired := by
  cases phase with
  | validating => exact record_settle rfl fun _ => rfl
  | acquiring etag revision =>
    show (if _ then _ else _ : RecordPhase).standing.held = i.acquired
    cases hacquired : i.acquired with
    | true => rfl
    | false => rfl
  | fetching etag revision =>
    show (RecordPhase.afterReadme k etag revision i.readme).standing.held = false
    unfold RecordPhase.afterReadme
    split
    · rfl
    · rfl
    · split
      · rfl
      · rfl
    · rfl
    · rfl
  | storing bytes etag =>
    exact record_settle rfl fun _ => rfl
  | applying readme etag =>
    refine record_settle rfl fun applied => ?_
    unfold RecordPhase.afterApply
    split
    · rfl
    · rfl
  | tracking owner applied =>
    exact record_settle rfl fun _ => rfl
  | evaluating applied =>
    exact record_settle rfl fun _ => rfl
  | ended result => rfl

/-- **One step of an observation.** -/
theorem observation_leads (requested : OwnerName) (i : FetchInput) (phase : ObservationPhase) :
    phase.standing.Leads i.acquired (phase.step k requested i c).1.standing := by
  cases phase with
  | acquiring =>
    show Standing.drawing.Leads i.acquired (if _ then _ else _ : ObservationPhase).standing
    cases hacquired : i.acquired with
    | true => exact .inr ⟨nofun, rfl⟩
    | false => exact .inl rfl
  | resolving =>
    refine settleFetch_cases
      (Q := fun q => Standing.holding.Leads i.acquired (ObservationPhase.standing q)) (.inl rfl)
      fun known => .inr ⟨nofun, ?_⟩
    cases known <;> rfl
  | validating known =>
    exact settleFetch_cases
      (Q := fun q => Standing.holding.Leads i.acquired (ObservationPhase.standing q)) (.inl rfl)
      fun _ => .inr ⟨nofun, rfl⟩
  | fetching known etag =>
    refine leads_of_not_held nofun rfl ?_
    show (ObservationPhase.afterFetch known i.repository).standing.held = false
    unfold ObservationPhase.afterFetch
    split
    · rfl
    · rfl
    · cases known <;> rfl
    · rfl
  | recording s phase =>
    have hheld := record_held (k := k) (c := c) s i phase
    show phase.standing.Leads i.acquired (ObservationPhase.afterRecord s _).standing
    unfold ObservationPhase.afterRecord
    split
    · exact .inl rfl
    · exact .inl rfl
    · exact .inl rfl
    · exact .inr ⟨record_alive phase, hheld⟩
  | identifying | naming | refreshing | evaluating =>
    exact leads_of_not_held nofun rfl
      (settleFetch_cases (Q := fun q => (ObservationPhase.standing q).held = false) rfl fun _ => rfl)
  | ended result => exact .inl rfl

/-- **One step of a preview.** -/
theorem preview_moves (userId : Uuid) (owner name : String) (env : ActionEnvironment) (i : FetchInput)
    (phase : PreviewPhase) :
    phase.position.Moves i.acquired (phase.step userId owner name env i).position := by
  cases phase with
  | choosing =>
    unfold PreviewPhase.step
    cases eligibleAccount env with
    | error fault => exact ⟨.inl rfl, nofun⟩
    | ok account => exact ⟨.inr ⟨nofun, rfl⟩, nofun⟩
  | acquiring token =>
    show Position.Moves i.acquired ⟨.drawing, token⟩ (if _ then _ else _ : PreviewPhase).position
    cases hacquired : i.acquired with
    | true => exact ⟨.inr ⟨nofun, rfl⟩, fun _ => rfl⟩
    | false => exact ⟨.inl rfl, nofun⟩
  | fetching token =>
    show Position.Moves i.acquired ⟨.spending, token⟩
      (PreviewPhase.afterFetch owner name i.repository).position
    unfold PreviewPhase.afterFetch
    split
    · exact ⟨.inl rfl, nofun⟩
    · split
      · exact ⟨.inl rfl, nofun⟩
      · exact ⟨.inl rfl, nofun⟩
    · exact ⟨.inl rfl, nofun⟩
  | ended result => exact ⟨.inl rfl, nofun⟩

/-- A step that is done with its acquisition, or had none, with tokens. -/
theorem moves_of_not_held {p q : Position String} (hp : p.standing ≠ .finished)
    (hafter : p.standing.after granted = false) (hq : q.standing.held = false) : p.Moves granted q where
  leads := leads_of_not_held hp hafter hq
  token h := nomatch hq.symm.trans h

theorem action_settle {α : Type} {answer : Except CatalogError α × Catalog} {failed : ActionStage}
    {f : α → ActionStage} (hfailed : failed.position.standing.held = false)
    (hf : ∀ a, (f a).position.standing.held = false) :
    (settleFetch answer failed f).1.position.standing.held = false :=
  settleFetch_cases (Q := fun stage => (ActionStage.position stage).standing.held = false) hfailed hf

theorem afterMetadata_held (request : RepositoryActionRequest) (metadata : MetadataOutcome) :
    (ActionStage.afterMetadata request metadata).position.standing.held = false := by
  unfold ActionStage.afterMetadata
  cases request.mode <;> rfl

/-- **One step of an action.**  Its star mutation acquires for the token of the account. -/
theorem action_moves (p : ActionContracts) (userId : Uuid) (request : RepositoryActionRequest)
    (env : ActionEnvironment) (i : FetchInput) (mi : StepInput) (w : World)
    (hsame : mi.acquired = i.acquired) (stage : ActionStage) :
    stage.position.Moves i.acquired (stage.step k p userId request env i mi w).1.position := by
  cases stage with
  | refusing =>
    refine moves_of_not_held nofun rfl ?_
    dsimp only [ActionStage.step]
    split
    · rfl
    · rfl
    · rfl
  | choosing =>
    refine moves_of_not_held nofun rfl ?_
    dsimp only [ActionStage.step]
    split
    · rfl
    · rfl
  | acquiring token =>
    dsimp only [ActionStage.step]
    cases hacquired : i.acquired with
    | false => exact ⟨.inl rfl, nofun⟩
    | true =>
      rw [if_pos rfl]
      split
      · exact ⟨.inl rfl, nofun⟩
      · exact ⟨.inr ⟨nofun, rfl⟩, fun _ => rfl⟩
  | fetching token =>
    refine moves_of_not_held nofun rfl ?_
    show (ActionStage.afterFetch request token i.repository).position.standing.held = false
    unfold ActionStage.afterFetch
    split
    · split
      · rfl
      · rfl
    · rfl
  | identifying token body etag =>
    exact moves_of_not_held nofun rfl (action_settle rfl fun _ => rfl)
  | naming token s => exact moves_of_not_held nofun rfl (action_settle rfl fun _ => rfl)
  | linking token s =>
    refine moves_of_not_held nofun rfl (action_settle rfl fun _ => ?_)
    unfold ActionStage.afterLinks
    split
    · rfl
    · split
      · rfl
      · rfl
  | recording token s phase =>
    have hheld := record_held (k := k) (c := w.catalog) s i phase
    show Position.Moves i.acquired ⟨phase.standing, token⟩
      (ActionStage.afterRecord request token s (phase.step k s i w.catalog).1).position
    cases hnext : (phase.step k s i w.catalog).1 with
    | ended result =>
      rw [hnext] at hheld
      refine moves_of_not_held (record_alive phase) hheld.symm ?_
      cases result with
      | ok applied => cases applied <;> exact afterMetadata_held request _
      | error fault => cases fault <;> rfl
    | validating | acquiring | fetching | storing | applying | tracking | evaluating =>
      rw [hnext] at hheld
      exact ⟨.inr ⟨record_alive phase, hheld⟩, fun _ => rfl⟩
  | tracking metadata =>
    refine moves_of_not_held nofun rfl (action_settle rfl fun outcome => ?_)
    cases outcome <;> rfl
  | unlocking metadata =>
    refine moves_of_not_held nofun rfl ?_
    show (ActionStage.afterUnlock p env userId request metadata).position.standing.held = false
    unfold ActionStage.afterUnlock
    split
    · rfl
    · split
      · rfl
      · split
        · rfl
        · rfl
  | starring metadata token m =>
    have hleads := mutation_leads m mi w
    rw [hsame] at hleads
    show Position.Moves i.acquired ⟨m.phase.standing, token⟩
      (ActionStage.afterMutation p env request metadata token m (m.step mi w).1).position
    unfold ActionStage.afterMutation
    split
    · exact ⟨.inl rfl, nofun⟩
    · exact ⟨hleads, fun _ => rfl⟩
  | ended result => exact ⟨.inl rfl, nofun⟩

/-- **One step of any flow.** -/
theorem Flow.moves (p : ActionContracts) (i : BudgetInput) (w : World) (f : Flow) :
    f.position.Moves granted (f.step k p (i.decided granted) w).1.position := by
  cases f with
  | fullSnapshot token accountId phase =>
    exact ⟨attempt_leads (starEnumeration k) (i.decided granted).stars.toAttemptInput
      ⟨accountId, phase, false⟩, fun _ => rfl⟩
  | listSnapshot token accountId phase =>
    exact ⟨attempt_leads listEnumeration (i.decided granted).lists ⟨accountId, phase, false⟩,
      fun _ => rfl⟩
  | incrementalScan token accountId phase =>
    exact ⟨scan_leads accountId (i.decided granted).stars phase, fun _ => rfl⟩
  | observation token requested phase =>
    exact ⟨observation_leads requested (i.decided granted).fetch phase, fun _ => rfl⟩
  | action userId request stage =>
    exact action_moves p userId request i.env (i.decided granted).fetch (i.decided granted).mutation w
      rfl stage
  | preview userId owner name phase =>
    exact preview_moves userId owner name i.env (i.decided granted).fetch phase
  | mutation token m => exact ⟨mutation_leads m (i.decided granted).mutation w, fun _ => rfl⟩
  | stopped => exact ⟨.inl rfl, nofun⟩

end steps

/-- A flow starts without an acquisition. -/
theorem FlowStart.flow_held (f : FlowStart) : f.flow.position.standing.held = false := by
  cases f with
  | action userId request =>
    show (ActionStage.first request).position.standing.held = false
    unfold ActionStage.first
    split
    · rfl
    · rfl
  | _ => rfl

/-! ### Runs -/

namespace BudgetSystem

variable {k : Contracts} {p : ActionContracts}

/-- The positions of the flows. -/
def positions (s : BudgetSystem) (n : ℕ) : Option (Position String) := s.flows[n]?.map Flow.position

/-- The log agrees with the flows. -/
def Balanced (s : BudgetSystem) : Prop := Books s.log s.positions

theorem Balanced.within {s : BudgetSystem} (h : s.Balanced) : s.WithinBudget :=
  ⟨Books.covered h, (Books.covered h).total⟩

theorem balanced_booted (w : World) : (booted w).Balanced := books_nil _ fun _ => rfl

/-- The positions after a flow was replaced. -/
theorem positions_set {flows : List Flow} {n : ℕ} {f g : Flow} (hn : flows[n]? = some f) (m : ℕ) :
    (flows.set n g)[m]?.map Flow.position =
      if m = n then some g.position else flows[m]?.map Flow.position := by
  rw [List.getElem?_set]
  by_cases heq : n = m
  · subst heq
    rw [if_pos rfl, if_pos rfl, if_pos (List.getElem?_eq_some_iff.mp hn).1]
    rfl
  · rw [if_neg heq, if_neg (Ne.symm heq)]

/-- The books of a flow's step. -/
theorem advance_log {s : BudgetSystem} {n : ℕ} {f : Flow} (hn : s.flows[n]? = some f)
    (i : BudgetInput) :
    (s.advance k p n i).log = s.log ++ f.position.entries n (s.granted i.now f) ∧
      ∀ m, (s.advance k p n i).positions m = if m = n then
        some (f.step k p (i.decided (s.granted i.now f)) s.world).1.position else s.positions m := by
  unfold advance
  rw [hn]
  exact ⟨by rw [← s.logged_eq], fun m => positions_set hn m⟩

/-- The positions after a flow was added. -/
theorem positions_append (flows : List Flow) (f : Flow) (m : ℕ) :
    (flows ++ [f])[m]?.map Flow.position =
      if m = flows.length then some f.position else flows[m]?.map Flow.position := by
  rcases Nat.lt_trichotomy m flows.length with hlt | heq | hgt
  · rw [if_neg (Nat.ne_of_lt hlt), List.getElem?_append_left hlt]
  · rw [if_pos heq, heq, List.getElem?_concat_length]
    rfl
  · rw [if_neg (Nat.ne_of_gt hgt), List.getElem?_eq_none (Nat.le_of_lt hgt),
      List.getElem?_eq_none (by rw [List.length_append]; exact hgt)]

/-- A flow that sends no write pays for its step. -/
theorem pays_of_sendsNoWrite {f : Flow} (h : f.writes = false) :
    f.position.standing ≠ .overspending :=
  fun hover => nomatch h.symm.trans (f.overspending_iff.mp hover)

/-- Flows that stop leave the books balanced. -/
theorem Balanced.stop {s : BudgetSystem} (h : s.Balanced) {flows : List Flow}
    (hstop : ∀ m : ℕ,
      flows[m]? = s.flows[m]? ∨ (s.flows[m]? ≠ none ∧ flows[m]? = some Flow.stopped)) :
    Books s.log fun m : ℕ => flows[m]?.map Flow.position := by
  refine Books.leave h fun m => ?_
  rcases hstop m with heq | ⟨hsome, hstopped⟩
  · left
    rw [heq]
    rfl
  · refine .inr ⟨?_, Flow.stopped.position, ?_, rfl⟩
    · rw [positions, ne_eq, Option.map_eq_none_iff]
      exact hsome
    · rw [hstopped]
      rfl

/-- **One event** that sends no write keeps the books. -/
theorem Balanced.step {s : BudgetSystem} (h : s.Balanced) (e : BudgetEvent) (he : s.SendsNoWrite e) :
    (s.step k p e).Balanced := by
  cases e with
  | start f =>
    have hfree : s.positions s.flows.length = none := by
      rw [positions, List.getElem?_eq_none (le_refl _)]
      rfl
    exact Books.join h hfree f.flow_held fun m => positions_append s.flows f.flow m
  | advance n i =>
    show (s.advance k p n i).Balanced
    cases hn : s.flows[n]? with
    | none =>
      rw [advance, hn]
      exact h
    | some f =>
      obtain ⟨hlog, hpositions⟩ := advance_log (k := k) (p := p) hn i
      have hposition : s.positions n = some f.position := by
        rw [positions, hn]
        rfl
      rw [Balanced, hlog]
      exact Books.advance h hposition (pays_of_sendsNoWrite (he f hn)) (f.moves p i s.world) hpositions
  | stop n =>
    refine Balanced.stop h fun m => ?_
    show (s.flows.set n .stopped)[m]? = _ ∨ (_ ∧ (s.flows.set n .stopped)[m]? = _)
    rw [List.getElem?_set]
    by_cases heq : n = m
    · subst heq
      by_cases hlt : n < s.flows.length
      · right
        rw [if_pos rfl, if_pos hlt]
        exact ⟨fun hnone => absurd (List.getElem?_eq_none_iff.mp hnone) (Nat.not_le_of_lt hlt), rfl⟩
      · left
        rw [if_pos rfl, if_neg hlt, List.getElem?_eq_none (Nat.le_of_not_lt hlt)]
    · exact .inl (if_neg heq)
  | restart =>
    refine Balanced.stop h fun m => ?_
    show (s.flows.map fun _ => Flow.stopped)[m]? = _ ∨
      (_ ∧ (s.flows.map fun _ => Flow.stopped)[m]? = _)
    rw [List.getElem?_map]
    cases hm : s.flows[m]? with
    | none => exact .inl rfl
    | some f => exact .inr ⟨nofun, rfl⟩
  | observe now token headers => exact h
  | catalog op => exact h
  | upstream u => exact h

/-- **The write of a mutation** is one request too many. -/
theorem Balanced.write {s : BudgetSystem} (h : s.Balanced) (e : BudgetEvent)
    (he : ¬ s.SendsNoWrite e) : ¬ (s.step k p e).WithinBudget := by
  cases e with
  | advance n i =>
    simp only [SendsNoWrite, Option.mem_def, not_forall] at he
    obtain ⟨f, hn, hwrites⟩ := he
    have hposition : s.positions n = some f.position := by
      rw [positions, hn]
      rfl
    obtain ⟨hlog, -⟩ := advance_log (k := k) (p := p) hn i
    rintro ⟨hcovered, -⟩
    rw [show (s.step k p (.advance n i)).log = _ from hlog] at hcovered
    have hover := f.overspending_iff.mpr (Bool.eq_true_of_not_eq_false hwrites)
    exact Books.overspent h hposition hover hcovered
  | start | stop | observe | restart | catalog | upstream => exact absurd trivial he

end BudgetSystem

/-- **Requests within the budget.**  From the start of the service, and whatever flows run in whatever
order, every request has an acquisition of its own flow and token before it, and no token has more
requests than acquisitions, exactly as long as no star or list mutation sends its write: the node
lookup has spent the only acquisition of the mutation by then. -/
theorem requests_within_budget_iff (k : Contracts) (p : ActionContracts) (w : World)
    (events : List BudgetEvent) :
    Throughout (BudgetSystem.step k p) BudgetSystem.WithinBudget (BudgetSystem.booted w) events ↔
      Guarded (BudgetSystem.step k p) BudgetSystem.SendsNoWrite (BudgetSystem.booted w) events :=
  throughout_iff_guarded (I := BudgetSystem.Balanced) (fun _ h => h.within) (fun _ e h he => h.step e he)
    (fun _ e h he => h.write e he) (BudgetSystem.balanced_booted w)

/-- Inputs under which every statement is served. -/
def everyServed : BudgetInput where
  now := 0
  stars :=
    { elapsed := 0, fate := .served, crash := false, freshId := 0, ids := fun _ _ => 0
      acquired := true, reply := .ok [], shown := "" }
  lists :=
    { elapsed := 0, fate := .served, crash := false, freshId := 0, ids := fun _ _ => 0
      acquired := true, reply := .error "" }
  fetch :=
    { now := 0, fate := .served, freshId := 0, ids := fun _ => 0, acquired := true
      repository := .error .notFound, readme := .ok .notFound }
  env := sampleEnvironment
  mutation := inputAt 0

/-- A star mutation up to its write. -/
def starWriteRun : List BudgetEvent :=
  .start (.mutation "account" ⟨1, "owner-a", .web⟩ (.star ⟨101, "rust-lang", "rust"⟩ "star-key")) ::
    List.replicate 6 (.advance 0 everyServed)

/-- **One acquisition, two requests**: the node lookup and the write. -/
theorem star_write_overspends :
    ¬ Throughout (BudgetSystem.step sampleContracts sampleActions) BudgetSystem.WithinBudget
      (BudgetSystem.booted contestWorld) starWriteRun := by
  intro h
  have hlast := h.last.2 "account"
  revert hlast
  decide +kernel

end GithubCatalog
