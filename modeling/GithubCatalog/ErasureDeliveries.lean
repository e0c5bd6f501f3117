import GithubCatalog.ErasureState
import GithubCatalog.Catalog

/-!
# Deliveries of an account erasure (`account_erasure.rs`)

`erase_account` looks its operation up, revokes the owner's grants, and commits the deletion together
with the recorded answer; where another delivery recorded the operation first, it rolls back and reads
that answer.  Nothing is held in between, so every read, every revocation and the transaction is a
step of its own, with a fate, and the process may stop after any of them.

* `ErasureDelivery.step` - the next step of a delivery;
* `Erasures` - the catalog and the deliveries in flight;
* `erasures_converge` - one record an operation, one answer, and no deletion for another owner.
-/

namespace GithubCatalog

open Relational Runs Transact

/-- `AccountErasureAcknowledged`. -/
structure ErasureAcknowledgement where
  operationId : Uuid
  outcome : ErasureOutcome
deriving DecidableEq

/-- How the service is configured: the client id of its OAuth app, and its credential key. -/
structure ErasureConfig where
  oauthClientId : Option String
  credentialKey : Bool

/-- A credential as `revoke_grants` reads it. -/
abbrev HeldCredential := CredentialKind × Option String

/-- Where a delivery stands. -/
inductive ErasurePhase where
  | looking
  | reading
  | revoking (todo : List HeldCredential) (outcome : ErasureOutcome)
  | erasing (outcome : ErasureOutcome)
  | rereading
  | ended (result : Except CatalogError ErasureAcknowledgement)
deriving DecidableEq

/-- One delivery of an erasure command. -/
structure ErasureDelivery where
  owner : String
  operationId : Uuid
  phase : ErasurePhase := .looking
  stopped : Bool := false
deriving DecidableEq

/-- What the world contributes to a step; `loaded` and `revoked` are the answers of
`load_active_oauth` and of `revoke_oauth_grant`. -/
structure ErasureInput where
  now : Time
  fate : Fate
  loaded : Bool
  revoked : Bool

/-- `owner_digest`. -/
def ownerDigest (k : Contracts) (owner : String) : String := k.sha256Hex owner.toUTF8.data.toList

/-- `recorded_operation`. -/
def recordedOperation (operationId : Uuid) (db : Database) : Option AccountErasureOperation :=
  db.accountErasureOperations.find? fun o => decide (o.operationId = operationId)

/-- The credentials of an owner. -/
def ownerCredentials (owner : String) (db : Database) : List HeldCredential :=
  (db.githubAccountCredentials.filter fun c => ownsAccount owner db c.accountId).map fun c =>
    (c.credentialKind, c.oauthClientId)

/-- One turn of `revoke_grants`: a grant that is not known to be revoked makes the outcome
incomplete. -/
def revokeGrant (config : ErasureConfig) (i : ErasureInput) (credential : HeldCredential)
    (outcome : ErasureOutcome) : ErasureOutcome :=
  let matchingApp := config.oauthClientId.any fun clientId =>
    decide (credential.1 = .oauth) && decide (credential.2 = some clientId)
  if matchingApp && config.credentialKey && i.loaded && i.revoked then outcome
  else .incompleteExternalGrantRevocation

namespace ErasureDelivery

variable (k : Contracts) (config : ErasureConfig)

/-- The record a delivery would commit. -/
def record (d : ErasureDelivery) (outcome : ErasureOutcome) : AccountErasureOperation :=
  ⟨d.operationId, ownerDigest k d.owner, outcome⟩

/-- `replay`. -/
def replay (d : ErasureDelivery) (recorded : AccountErasureOperation) :
    Except CatalogError ErasureAcknowledgement :=
  if recorded.ownerDigest ≠ ownerDigest k d.owner then .error .operationOwnerMismatch
  else .ok ⟨d.operationId, recorded.outcome⟩

/-- The next step of `erase_account`. -/
def step (i : ErasureInput) (d : ErasureDelivery) (c : Catalog) : ErasurePhase × Catalog :=
  match d.phase with
  | .looking =>
    match (i.fate.run (select (recordedOperation d.operationId)) c).1 with
    | .ok (some recorded) => (.ended (d.replay k recorded), c)
    | .ok none => (.reading, c)
    | .error e => (.ended (.error e), c)
  | .reading =>
    match (i.fate.run (select (ownerCredentials d.owner)) c).1 with
    | .ok credentials => (.revoking credentials .verified, c)
    | .error e => (.ended (.error e), c)
  | .revoking [] outcome => (.erasing outcome, c)
  | .revoking (credential :: todo) outcome =>
    (.revoking todo (revokeGrant config i credential outcome), c)
  | .erasing outcome =>
    match i.fate.run (eraseAccountInTx i.now d.owner (d.record k outcome)) c with
    | (.ok _, c') => (.ended (.ok ⟨d.operationId, outcome⟩), c')
    | (.error .keyTaken, c') => (.rereading, c')
    | (.error e, c') => (.ended (.error e), c')
  | .rereading =>
    match (i.fate.run (select (recordedOperation d.operationId)) c).1 with
    | .ok (some recorded) => (.ended (d.replay k recorded), c)
    | .ok none => (.ended (.error (.query .rowNotFound)), c)
    | .error e => (.ended (.error e), c)
  | .ended result => (.ended result, c)

end ErasureDelivery

/-! ### Deliveries in flight -/

structure Erasures where
  catalog : Catalog
  deliveries : List ErasureDelivery

/-- A command is delivered, a delivery takes its next step or stops, or another flow commits. -/
inductive ErasureEvent where
  | deliver (owner : String) (operationId : Uuid)
  | advance (n : ℕ) (i : ErasureInput)
  | crash (n : ℕ)
  | catalog (op : Operation)

namespace Erasures

variable (k : Contracts) (config : ErasureConfig)

def advance (n : ℕ) (i : ErasureInput) (s : Erasures) : Erasures :=
  match s.deliveries[n]? with
  | none => s
  | some d =>
    if d.stopped then s
    else
      { catalog := (d.step k config i s.catalog).2
        deliveries := s.deliveries.set n { d with phase := (d.step k config i s.catalog).1 } }

def step (s : Erasures) : ErasureEvent → Erasures
  | .deliver owner operationId =>
    { s with deliveries := s.deliveries ++ [{ owner, operationId }] }
  | .advance n i => s.advance k config n i
  | .crash n => { s with deliveries := s.deliveries.modify n fun d => { d with stopped := true } }
  | .catalog op =>
    if op.erases then s else { s with catalog := GithubCatalog.step k s.catalog op }

/-- The state after a run from the empty catalog. -/
def after (events : List ErasureEvent) : Erasures :=
  runFrom (step k config) ⟨emptyCatalog, []⟩ events

end Erasures

/-! ### What one step commits -/

/-- The transaction of a delivery was carried out: the owner's state is deleted, and the answer is
recorded with it. -/
def ErasureCommitted (k : Contracts) (now : Time) (d : ErasureDelivery) (outcome : ErasureOutcome)
    (c c' : Catalog) : Prop :=
  ∃ c₁, eraseOwnerState now d.owner c = .ok ((), c₁) ∧
    c'.tables = { c₁.tables with
      accountErasureOperations := c.tables.accountErasureOperations ++ [d.record k outcome] }

theorem eraseAccountInTx_commits {k : Contracts} {now : Time} {d : ErasureDelivery}
    {outcome : ErasureOutcome} {c c' : Catalog}
    (h : eraseAccountInTx now d.owner (d.record k outcome) c = .ok ((), c')) :
    ErasureCommitted k now d outcome c c' := by
  simp only [eraseAccountInTx, Tx.bind_eq_ok, require_eq_ok, write_eq_ok] at h
  obtain ⟨⟨⟩, c₁, herase, ⟨⟩, _, ⟨-, rfl⟩, hwrite⟩ := h
  have hrows : c₁.tables.accountErasureOperations = c.tables.accountErasureOperations := by
    rw [eraseOwnerState_eq herase]
    rfl
  refine ⟨c₁, herase, ?_⟩
  rw [hwrite, ← hrows]
  rfl

theorem ErasureCommitted.operations {k : Contracts} {now : Time} {d : ErasureDelivery}
    {outcome : ErasureOutcome} {c c' : Catalog} (h : ErasureCommitted k now d outcome c c') :
    c'.tables.accountErasureOperations =
      c.tables.accountErasureOperations ++ [d.record k outcome] := by
  obtain ⟨c₁, -, h⟩ := h
  rw [h]

/-- The answer of a delivery is the recorded one, for its own owner. -/
def ErasureDelivery.Recorded (k : Contracts) (d : ErasureDelivery) (a : ErasureAcknowledgement)
    (db : Database) : Prop :=
  ∃ o ∈ db.accountErasureOperations, o.operationId = d.operationId ∧
    o.ownerDigest = ownerDigest k d.owner ∧ a = ⟨d.operationId, o.outcome⟩

namespace ErasureDelivery

variable {k : Contracts} {config : ErasureConfig} {d : ErasureDelivery} {c : Catalog}

/-- A read is answered from the store or fails. -/
theorem read_cases {α : Type} (fate : Fate) (f : Database → α) (c : Catalog) :
    (fate.run (select f) c).1 = .ok (f c.tables) ∨
      ∃ e, (fate.run (select f) c).1 = .error e := by
  rcases Fate.run_cases fate (select f) c with ⟨a, c', hx, hrun⟩ | ⟨a, c', hx, hrun⟩ | ⟨e, -, hrun⟩
  · obtain ⟨rfl, rfl⟩ := select_eq_ok.mp hx
    exact .inl (by rw [hrun])
  · exact .inr ⟨_, by rw [hrun]⟩
  · exact .inr ⟨e, by rw [hrun]⟩

theorem mem_of_recordedOperation {operationId : Uuid} {db : Database} {o : AccountErasureOperation}
    (h : recordedOperation operationId db = some o) :
    o ∈ db.accountErasureOperations ∧ o.operationId = operationId := by
  have hid := List.find?_some h
  exact ⟨List.mem_of_find?_eq_some h, of_decide_eq_true hid⟩

theorem replay_eq_ok {o : AccountErasureOperation} {a : ErasureAcknowledgement}
    (h : d.replay k o = .ok a) :
    o.ownerDigest = ownerDigest k d.owner ∧ a = ⟨d.operationId, o.outcome⟩ := by
  unfold replay at h
  split at h
  · exact nomatch h
  · next howner => exact ⟨not_not.mp howner, (Except.ok.inj h).symm⟩

/-- A delivery answers the recorded row to its own owner only. -/
theorem recorded_of_replay {o : AccountErasureOperation} {a : ErasureAcknowledgement}
    (ho : recordedOperation d.operationId c.tables = some o) (h : d.replay k o = .ok a) :
    d.Recorded k a c.tables := by
  obtain ⟨hmem, hid⟩ := mem_of_recordedOperation ho
  obtain ⟨howner, rfl⟩ := replay_eq_ok h
  exact ⟨o, hmem, hid, howner, rfl⟩

/-- **The steps of a delivery.**  A step leaves the catalog as it is, and answers what is recorded; or
it commits the deletion together with the record. -/
theorem step_cases (k : Contracts) (config : ErasureConfig) (d : ErasureDelivery) (c : Catalog)
    (i : ErasureInput) :
    ((d.step k config i c).2 = c ∧
      ∀ a, (d.step k config i c).1 = .ended (.ok a) →
        d.phase = .ended (.ok a) ∨ d.Recorded k a c.tables) ∨
    ∃ outcome, d.phase = .erasing outcome ∧
      ErasureCommitted k i.now d outcome c (d.step k config i c).2 ∧
      ∀ a, (d.step k config i c).1 = .ended (.ok a) → a = ⟨d.operationId, outcome⟩ := by
  unfold step
  cases hphase : d.phase with
  | looking =>
    left
    rcases read_cases i.fate (recordedOperation d.operationId) c with h | ⟨e, h⟩
    · cases ho : recordedOperation d.operationId c.tables with
      | none => simp [h, ho]
      | some o =>
        simp only [h, ho, ErasurePhase.ended.injEq, true_and]
        exact fun a ha => .inr (recorded_of_replay ho ha)
    · simp [h]
  | reading =>
    left
    rcases read_cases i.fate (ownerCredentials d.owner) c with h | ⟨e, h⟩
    · simp [h]
    · simp [h]
  | revoking todo outcome =>
    left
    cases todo with
    | nil => simp
    | cons credential todo => simp
  | erasing outcome =>
    rcases Fate.run_cases i.fate (eraseAccountInTx i.now d.owner (d.record k outcome)) c with
      ⟨⟨⟩, c', hx, hrun⟩ | ⟨⟨⟩, c', hx, hrun⟩ | ⟨e, -, hrun⟩
    · right
      simp only [hrun, ErasurePhase.ended.injEq, Except.ok.injEq]
      exact ⟨outcome, rfl, eraseAccountInTx_commits hx, fun a ha => ha.symm⟩
    · right
      simp only [hrun, ErasurePhase.ended.injEq]
      exact ⟨outcome, rfl, eraseAccountInTx_commits hx, fun a ha => nomatch ha⟩
    · left
      cases e <;> simp [hrun]
  | rereading =>
    left
    rcases read_cases i.fate (recordedOperation d.operationId) c with h | ⟨e, h⟩
    · cases ho : recordedOperation d.operationId c.tables with
      | none => simp [h, ho]
      | some o =>
        simp only [h, ho, ErasurePhase.ended.injEq, true_and]
        exact fun a ha => .inr (recorded_of_replay ho ha)
    · simp [h]
  | ended result => exact .inl ⟨rfl, fun a ha => .inl ha⟩

/-- A served lookup that meets another owner's record ends the delivery with the refusal. -/
theorem step_refused {o : AccountErasureOperation} (i : ErasureInput) (hserved : i.fate = .served)
    (hphase : d.phase = .looking ∨ d.phase = .rereading)
    (ho : recordedOperation d.operationId c.tables = some o)
    (howner : o.ownerDigest ≠ ownerDigest k d.owner) :
    d.step k config i c = (.ended (.error .operationOwnerMismatch), c) := by
  have hread : (i.fate.run (select (recordedOperation d.operationId)) c).1 = .ok (some o) := by
    rw [hserved, ← ho]
    rfl
  rcases hphase with hphase | hphase
  · simp only [step, hphase, hread, replay, if_pos howner]
  · simp only [step, hphase, hread, replay, if_pos howner]

end ErasureDelivery

/-! ### Runs -/

/-- Operations of other flows record no erasure. -/
theorem Operation.commit_operations (k : Contracts) (c : Catalog) (op : Operation)
    (h : op.erases = false) :
    (op.commit k c).tables.accountErasureOperations = c.tables.accountErasureOperations := by
  refine Operation.rows_commit k c op .accountErasureOperations ?_
  cases op <;> first | rfl | exact absurd h (by simp [Operation.erases])

namespace Erasures

variable {k : Contracts} {config : ErasureConfig}

/-- What later states keep: the records, and who the deliveries are. -/
structure Extends (s t : Erasures) : Prop where
  operations : s.catalog.tables.accountErasureOperations ⊆
    t.catalog.tables.accountErasureOperations
  deliveries : ∀ (n : ℕ) (d : ErasureDelivery), s.deliveries[n]? = some d →
    ∃ d' : ErasureDelivery, t.deliveries[n]? = some d' ∧ d'.owner = d.owner ∧ d'.operationId = d.operationId

theorem Extends.refl (s : Erasures) : Extends s s :=
  ⟨List.Subset.refl _, fun _ d h => ⟨d, h, rfl, rfl⟩⟩

theorem Extends.trans {s t u : Erasures} (h : Extends s t) (h' : Extends t u) : Extends s u where
  operations := List.Subset.trans h.operations h'.operations
  deliveries n d hd := by
    obtain ⟨d', hd', howner, hid⟩ := h.deliveries n d hd
    obtain ⟨d'', hd'', howner', hid'⟩ := h'.deliveries n d' hd'
    exact ⟨d'', hd'', howner'.trans howner, hid'.trans hid⟩

/-- A delivery is replaced by itself in another phase. -/
theorem extends_replaced {s : Erasures} {n : ℕ} {d d' : ErasureDelivery} {c : Catalog}
    (hd : s.deliveries[n]? = some d) (howner : d'.owner = d.owner)
    (hid : d'.operationId = d.operationId)
    (hops : s.catalog.tables.accountErasureOperations ⊆ c.tables.accountErasureOperations) :
    Extends s ⟨c, s.deliveries.set n d'⟩ := by
  refine ⟨hops, fun m e he => ?_⟩
  by_cases hm : m = n
  · subst hm
    rw [hd] at he
    obtain rfl := Option.some.inj he
    have hlt := (List.getElem?_eq_some_iff.mp hd).1
    exact ⟨d', by simp [hlt], howner, hid⟩
  · exact ⟨e, by rw [← he]; exact List.getElem?_set_ne (Ne.symm hm), rfl, rfl⟩

/-- A turn of a delivery, where it takes one. -/
theorem advance_cases (k : Contracts) (config : ErasureConfig) (n : ℕ) (i : ErasureInput)
    (s : Erasures) :
    s.advance k config n i = s ∨
      ∃ d, s.deliveries[n]? = some d ∧ d.stopped = false ∧
        s.advance k config n i = ⟨(d.step k config i s.catalog).2,
          s.deliveries.set n { d with phase := (d.step k config i s.catalog).1 }⟩ := by
  unfold advance
  cases hd : s.deliveries[n]? with
  | none => exact .inl rfl
  | some d =>
    cases hstopped : d.stopped with
    | true => exact .inl (by simp [hstopped])
    | false => exact .inr ⟨d, rfl, hstopped, by simp [hstopped]⟩

theorem operations_step (k : Contracts) (config : ErasureConfig) (d : ErasureDelivery)
    (i : ErasureInput) (c : Catalog) :
    c.tables.accountErasureOperations ⊆
      (d.step k config i c).2.tables.accountErasureOperations := by
  rcases d.step_cases k config c i with ⟨hc, -⟩ | ⟨outcome, -, hc, -⟩
  · rw [hc]
    exact List.Subset.refl _
  · rw [hc.operations]
    exact List.subset_append_left _ _

theorem catalog_operations (op : Operation) (s : Erasures) :
    (s.step k config (.catalog op)).catalog.tables.accountErasureOperations =
      s.catalog.tables.accountErasureOperations := by
  unfold Erasures.step GithubCatalog.step
  by_cases herases : op.erases = true
  · simp [herases]
  · by_cases hadm : op.admissible s.catalog.tables = true
    · simp [herases, hadm, Operation.commit_operations k s.catalog op (Bool.eq_false_iff.mpr herases)]
    · simp [herases, hadm]

theorem catalog_deliveries (op : Operation) (s : Erasures) :
    (s.step k config (.catalog op)).deliveries = s.deliveries := by
  unfold Erasures.step
  by_cases herases : op.erases = true
  · simp [herases]
  · simp [herases]

theorem extends_step (k : Contracts) (config : ErasureConfig) (s : Erasures) (e : ErasureEvent) :
    Extends s (s.step k config e) := by
  cases e with
  | deliver owner operationId =>
    refine ⟨List.Subset.refl _, fun n d hd => ⟨d, ?_, rfl, rfl⟩⟩
    have hlt := (List.getElem?_eq_some_iff.mp hd).1
    rw [← hd]
    exact List.getElem?_append_left hlt
  | advance n i =>
    rcases s.advance_cases k config n i with h | ⟨d, hd, -, h⟩
    · show Extends s (s.advance k config n i)
      rw [h]
      exact Extends.refl s
    · show Extends s (s.advance k config n i)
      rw [h]
      exact extends_replaced hd rfl rfl (operations_step k config d i s.catalog)
  | crash n =>
    refine ⟨List.Subset.refl _, fun m d hd => ?_⟩
    show ∃ d', (s.deliveries.modify n _)[m]? = some d' ∧ _
    rw [List.getElem?_modify, hd]
    by_cases hm : n = m
    · exact ⟨{ d with stopped := true }, by simp [hm], rfl, rfl⟩
    · exact ⟨d, by simp [hm], rfl, rfl⟩
  | catalog op =>
    refine ⟨fun o ho => by rwa [catalog_operations], fun n d hd => ⟨d, ?_, rfl, rfl⟩⟩
    rwa [catalog_deliveries]

theorem extends_runFrom (s : Erasures) (events : List ErasureEvent) :
    Extends s (runFrom (step k config) s events) :=
  invariant_runFrom (P := Extends s) (fun t e h => h.trans (extends_step k config t e)) (Extends.refl s) events

/-- What holds in every state of a run. -/
structure Sound (k : Contracts) (s : Erasures) : Prop where
  /-- A successful answer is the recorded one. -/
  answered : ∀ d ∈ s.deliveries, ∀ a, d.phase = .ended (.ok a) → d.Recorded k a s.catalog.tables
  /-- A record is some delivery's. -/
  recorded : ∀ o ∈ s.catalog.tables.accountErasureOperations, ∃ d ∈ s.deliveries,
    o.operationId = d.operationId ∧ o.ownerDigest = ownerDigest k d.owner

theorem recorded_mono {d : ErasureDelivery} {a : ErasureAcknowledgement} {db db' : Database}
    (h : d.Recorded k a db) (hops : db.accountErasureOperations ⊆ db'.accountErasureOperations) :
    d.Recorded k a db' := by
  obtain ⟨o, ho, hrow⟩ := h
  exact ⟨o, hops ho, hrow⟩

namespace Sound

variable {s t : Erasures}

/-- The old records stay some delivery's. -/
theorem kept (h : Sound k s) (hext : Extends s t) {o : AccountErasureOperation}
    (ho : o ∈ s.catalog.tables.accountErasureOperations) :
    ∃ d ∈ t.deliveries, o.operationId = d.operationId ∧ o.ownerDigest = ownerDigest k d.owner := by
  obtain ⟨d, hd, hid, howner⟩ := h.recorded o ho
  obtain ⟨n, hn⟩ := List.mem_iff_getElem?.mp hd
  obtain ⟨d', hd', howner', hid'⟩ := hext.deliveries n d hn
  exact ⟨d', List.mem_of_getElem? hd', by rw [hid', hid], by rw [howner', howner]⟩

/-- A delivery takes its turn. -/
theorem advanced (h : Sound k s) {n : ℕ} {d : ErasureDelivery} (hd : s.deliveries[n]? = some d)
    (i : ErasureInput) :
    Sound k ⟨(d.step k config i s.catalog).2,
      s.deliveries.set n { d with phase := (d.step k config i s.catalog).1 }⟩ := by
  have hops := operations_step k config d i s.catalog
  have hmem := List.mem_of_getElem? hd
  have hext : Extends s ⟨(d.step k config i s.catalog).2,
      s.deliveries.set n { d with phase := (d.step k config i s.catalog).1 }⟩ :=
    extends_replaced hd rfl rfl hops
  rcases d.step_cases k config s.catalog i with
    ⟨hc, hanswer⟩ | ⟨outcome, -, hcommit, hanswer⟩
  · refine ⟨fun e he a ha => ?_, fun o ho => h.kept hext (by rw [hc] at ho; exact ho)⟩
    rcases List.mem_or_eq_of_mem_set he with he | rfl
    · exact recorded_mono (h.answered e he a ha) hops
    · have hrow : d.Recorded k a s.catalog.tables := by
        rcases hanswer a ha with hended | hrow
        · exact h.answered d hmem a hended
        · exact hrow
      exact recorded_mono hrow hops
  · have hnew : d.record k outcome ∈
        (d.step k config i s.catalog).2.tables.accountErasureOperations := by
      rw [hcommit.operations]
      exact List.mem_append_right _ (List.mem_singleton.mpr rfl)
    refine ⟨fun e he a ha => ?_, fun o ho => ?_⟩
    · rcases List.mem_or_eq_of_mem_set he with he | rfl
      · exact recorded_mono (h.answered e he a ha) hops
      · exact ⟨_, hnew, rfl, rfl, hanswer a ha⟩
    · have ho' : o ∈ s.catalog.tables.accountErasureOperations ++ [d.record k outcome] := by
        rw [← hcommit.operations]
        exact ho
      rcases List.mem_append.mp ho' with ho' | ho'
      · exact h.kept hext ho'
      · obtain rfl := List.mem_singleton.mp ho'
        obtain ⟨d', hd', howner, hid⟩ := hext.deliveries n d hd
        exact ⟨d', List.mem_of_getElem? hd', hid.symm, by rw [howner]; rfl⟩

/-- **Every step keeps the answers and the records together.** -/
theorem step (h : Sound k s) (e : ErasureEvent) : Sound k (s.step k config e) := by
  have hext := extends_step k config s e
  cases e with
  | deliver owner operationId =>
    refine ⟨fun d hd a ha => ?_, fun o ho => h.kept hext ho⟩
    rcases List.mem_append.mp hd with hd | hd
    · exact h.answered d hd a ha
    · obtain rfl := List.mem_singleton.mp hd
      exact nomatch ha
  | advance n i =>
    show Sound k (s.advance k config n i)
    rcases s.advance_cases k config n i with heq | ⟨d, hd, -, heq⟩
    · rw [heq]
      exact h
    · rw [heq]
      exact h.advanced hd i
  | crash n =>
    refine ⟨fun d hd a ha => ?_, fun o ho => h.kept hext ho⟩
    obtain ⟨m, hm⟩ := List.mem_iff_getElem?.mp hd
    change (s.deliveries.modify n _)[m]? = some d at hm
    rw [List.getElem?_modify] at hm
    obtain ⟨d', hd', rfl⟩ := Option.map_eq_some_iff.mp hm
    have hmem := List.mem_of_getElem? hd'
    by_cases hn : n = m
    · rw [if_pos hn] at ha ⊢
      exact h.answered d' hmem a ha
    · rw [if_neg hn] at ha ⊢
      exact h.answered d' hmem a ha
  | catalog op =>
    refine ⟨fun d hd a ha => ?_, fun o ho => h.kept hext (by rwa [catalog_operations] at ho)⟩
    rw [catalog_deliveries] at hd
    exact recorded_mono (h.answered d hd a ha) hext.operations

end Sound

theorem sound_after (k : Contracts) (config : ErasureConfig) (events : List ErasureEvent) :
    Sound k (after k config events) := by
  refine invariant_runFrom (P := Sound k) (fun s e h => h.step e) ?_ events
  exact ⟨fun d hd => (nomatch hd), fun o ho => (nomatch ho)⟩

theorem after_append (before behind : List ErasureEvent) :
    after k config (before ++ behind) = runFrom (step k config) (after k config before) behind :=
  runFrom_append _ _ before behind

/-- The end of a run extends each of its states. -/
theorem extends_after (k : Contracts) (config : ErasureConfig) (before behind : List ErasureEvent) :
    Extends (after k config before) (after k config (before ++ behind)) := by
  rw [after_append]
  exact extends_runFrom _ behind

/-! ### Whose record it is -/

/-- The digests tell the owners of the deliveries apart. -/
def OwnersApart (k : Contracts) (s : Erasures) : Prop :=
  ∀ d ∈ s.deliveries, ∀ d' ∈ s.deliveries,
    ownerDigest k d.owner = ownerDigest k d'.owner → d.owner = d'.owner

/-- The operation of the delivery was recorded for another owner. -/
def RecordedForAnother (k : Contracts) (d : ErasureDelivery) (s : Erasures) : Prop :=
  ∃ o ∈ s.catalog.tables.accountErasureOperations, o.operationId = d.operationId ∧
    ∃ d' ∈ s.deliveries, o.ownerDigest = ownerDigest k d'.owner ∧ d'.owner ≠ d.owner

/-- Such a delivery reads a digest that is not its own. -/
theorem RecordedForAnother.digest_ne {d : ErasureDelivery} {s : Erasures}
    (h : RecordedForAnother k d s) (hapart : OwnersApart k s) (hd : d ∈ s.deliveries) :
    ∃ o ∈ s.catalog.tables.accountErasureOperations, o.operationId = d.operationId ∧
      o.ownerDigest ≠ ownerDigest k d.owner := by
  obtain ⟨o, ho, hid, d', hd', howner, hne⟩ := h
  exact ⟨o, ho, hid, fun heq => hne (hapart d' hd' d hd (howner.symm.trans heq))⟩

/-- At most one record an operation. -/
theorem record_unique (c : Catalog) {o o' : AccountErasureOperation}
    (ho : o ∈ c.tables.accountErasureOperations) (ho' : o' ∈ c.tables.accountErasureOperations)
    (hid : o.operationId = o'.operationId) : o = o' :=
  c.valid.keys.erasures.eq_of_mem ho ho' hid

/-- A delivery that commits owns the record of its operation. -/
theorem digest_of_committed {s t : Erasures} {d : ErasureDelivery} {outcome : ErasureOutcome}
    {now : Time} (hcommit : ErasureCommitted k now d outcome s.catalog t.catalog)
    {u : Erasures} (hext : Extends t u) {o : AccountErasureOperation}
    (ho : o ∈ u.catalog.tables.accountErasureOperations) (hid : o.operationId = d.operationId) :
    o.ownerDigest = ownerDigest k d.owner := by
  have hnew : d.record k outcome ∈ t.catalog.tables.accountErasureOperations := by
    rw [hcommit.operations]
    exact List.mem_append_right _ (List.mem_singleton.mpr rfl)
  rw [record_unique u.catalog ho (hext.operations hnew) hid]
  rfl

/-- The next state of a run. -/
theorem after_advance (before : List ErasureEvent) (n : ℕ) (i : ErasureInput) :
    after k config (before ++ [.advance n i]) = (after k config before).advance k config n i :=
  after_append before [.advance n i]

/-- A turn leaves the catalog, or commits the deletion of its delivery with the record. -/
theorem turn_cases (before : List ErasureEvent) (n : ℕ) (i : ErasureInput) :
    (after k config (before ++ [.advance n i])).catalog = (after k config before).catalog ∨
      ∃ d outcome, (after k config before).deliveries[n]? = some d ∧ d.stopped = false ∧
        d.phase = .erasing outcome ∧
        ErasureCommitted k i.now d outcome (after k config before).catalog
          (after k config (before ++ [.advance n i])).catalog := by
  rw [after_advance]
  rcases (after k config before).advance_cases k config n i with
    heq | ⟨d, hd, hrunning, heq⟩
  · rw [heq]
    exact .inl rfl
  · rw [heq]
    rcases d.step_cases k config (after k config before).catalog i with
      ⟨hc, -⟩ | ⟨outcome, hphase, hcommit, -⟩
    · exact .inl hc
    · exact .inr ⟨d, outcome, hd, hrunning, hphase, hcommit⟩

variable {events before behind : List ErasureEvent} {n : ℕ} {i : ErasureInput} {d : ErasureDelivery}

/-- A delivery of an operation recorded for another owner is not answered. -/
theorem not_answered (hapart : OwnersApart k (after k config events))
    (hd : (after k config events).deliveries[n]? = some d)
    (hother : RecordedForAnother k d (after k config events)) (a : ErasureAcknowledgement) :
    d.phase ≠ .ended (.ok a) := by
  intro hended
  have hmem := List.mem_of_getElem? hd
  obtain ⟨o, ho, hid, hne⟩ := hother.digest_ne hapart hmem
  obtain ⟨o', ho', hid', howner, -⟩ := (sound_after k config events).answered d hmem a hended
  rw [record_unique _ ho ho' (hid.trans hid'.symm)] at hne
  exact hne howner

/-- No turn of it changes the catalog. -/
theorem no_turn_deletes (hapart : OwnersApart k (after k config (before ++ .advance n i :: behind)))
    (hd : (after k config (before ++ .advance n i :: behind)).deliveries[n]? = some d)
    (hother : RecordedForAnother k d (after k config (before ++ .advance n i :: behind))) :
    (after k config (before ++ [.advance n i])).catalog = (after k config before).catalog := by
  rcases turn_cases before n i with hsame | ⟨e, outcome, he, -, -, hcommit⟩
  · exact hsame
  · exfalso
    obtain ⟨o, ho, hid, hne⟩ := hother.digest_ne hapart (List.mem_of_getElem? hd)
    obtain ⟨d', hd', howner, hid'⟩ := (extends_after k config before _).deliveries n e he
    rw [hd] at hd'
    obtain rfl := Option.some.inj hd'
    have hext : Extends (after k config (before ++ [.advance n i]))
        (after k config (before ++ .advance n i :: behind)) := by
      have h := extends_after k config (before ++ [.advance n i]) behind
      rwa [List.append_assoc] at h
    rw [howner] at hne
    exact hne (digest_of_committed hcommit hext ho (hid.trans hid'))

/-- Where it reads the record, it ends with the refusal. -/
theorem turn_refused (hapart : OwnersApart k (after k config before))
    (hd : (after k config before).deliveries[n]? = some d) (hrunning : d.stopped = false)
    (hother : RecordedForAnother k d (after k config before)) (hserved : i.fate = .served)
    (hphase : d.phase = .looking ∨ d.phase = .rereading) :
    (after k config (before ++ [.advance n i])).deliveries[n]? =
      some { d with phase := .ended (.error .operationOwnerMismatch) } := by
  obtain ⟨o, ho, hid, hne⟩ := hother.digest_ne hapart (List.mem_of_getElem? hd)
  have hread : recordedOperation d.operationId (after k config before).catalog.tables = some o := by
    rw [recordedOperation, ← hid]
    exact (after k config before).catalog.valid.keys.erasures.find?_eq ho
  have hlt := (List.getElem?_eq_some_iff.mp hd).1
  rw [after_advance, advance, hd]
  simp [hrunning, ErasureDelivery.step_refused i hserved hphase hread hne, hlt]

/-- How the deliveries of a run converge. -/
structure Converged (k : Contracts) (config : ErasureConfig) (events : List ErasureEvent) : Prop where
  /-- At most one record an operation, and each some delivery's. -/
  records : UniqueOn (·.operationId) (after k config events).catalog.tables.accountErasureOperations ∧
    ∀ o ∈ (after k config events).catalog.tables.accountErasureOperations,
      ∃ d ∈ (after k config events).deliveries,
        o.operationId = d.operationId ∧ o.ownerDigest = ownerDigest k d.owner
  /-- A successful answer is the recorded one, for the delivery's owner. -/
  answers : ∀ d ∈ (after k config events).deliveries, ∀ a, d.phase = .ended (.ok a) →
    d.Recorded k a (after k config events).catalog.tables
  /-- A delivery whose operation is recorded for another owner is not answered, and deletes nothing. -/
  refusals : ∀ n d, (after k config events).deliveries[n]? = some d →
    RecordedForAnother k d (after k config events) →
      (∀ a, d.phase ≠ .ended (.ok a)) ∧
      ∀ before i behind, events = before ++ .advance n i :: behind →
        (after k config (before ++ [.advance n i])).catalog = (after k config before).catalog
  /-- It is refused where it reads the record. -/
  refused : ∀ before n i behind d, events = before ++ .advance n i :: behind →
    (after k config before).deliveries[n]? = some d → d.stopped = false →
    RecordedForAnother k d (after k config before) → i.fate = .served →
    d.phase = .looking ∨ d.phase = .rereading →
      (after k config (before ++ [.advance n i])).deliveries[n]? =
        some { d with phase := .ended (.error .operationOwnerMismatch) }
  /-- The deletion and the record are committed together or not at all. -/
  together : ∀ before n i behind, events = before ++ .advance n i :: behind →
    (after k config (before ++ [.advance n i])).catalog = (after k config before).catalog ∨
      ∃ d outcome, (after k config before).deliveries[n]? = some d ∧ d.stopped = false ∧
        d.phase = .erasing outcome ∧
        ErasureCommitted k i.now d outcome (after k config before).catalog
          (after k config (before ++ [.advance n i])).catalog

/-- Owners told apart at the end of a run are told apart throughout. -/
theorem OwnersApart.earlier
    (h : OwnersApart k (after k config (before ++ behind))) : OwnersApart k (after k config before) := by
  have hend : ∀ d ∈ (after k config before).deliveries,
      ∃ d' ∈ (after k config (before ++ behind)).deliveries, d'.owner = d.owner := by
    intro d hd
    obtain ⟨n, hn⟩ := List.mem_iff_getElem?.mp hd
    obtain ⟨d', hd', howner, -⟩ := (extends_after k config before behind).deliveries n d hn
    exact ⟨d', List.mem_of_getElem? hd', howner⟩
  intro d hd e he heq
  obtain ⟨d', hd', howner⟩ := hend d hd
  obtain ⟨e', he', howner'⟩ := hend e he
  have hsame := h d' hd' e' he' (by rw [howner, howner', heq])
  rwa [howner, howner'] at hsame

/-- **Erasure deliveries converge.**  In every interleaving of any deliveries, with crashes, failed
statements and other flows anywhere between their steps. -/
theorem erasures_converge (k : Contracts) (config : ErasureConfig) (events : List ErasureEvent)
    (hapart : OwnersApart k (after k config events)) : Converged k config events where
  records := ⟨(after k config events).catalog.valid.keys.erasures,
    (sound_after k config events).recorded⟩
  answers := (sound_after k config events).answered
  refusals n d hd hother := by
    refine ⟨not_answered hapart hd hother, fun before i behind hevents => ?_⟩
    subst hevents
    exact no_turn_deletes hapart hd hother
  refused before n i behind d hevents hd hrunning hother hserved hphase := by
    subst hevents
    exact turn_refused hapart.earlier hd hrunning hother hserved hphase
  together before n i behind _ := turn_cases before n i

/-! ### Three deliveries of one operation

Two of them look the operation up before any has recorded it, and the third is another owner's. -/

/-- Digests of the two owners' references. -/
def ownerContracts : Contracts := { sampleContracts with
  sha256Hex := fun bytes =>
    if bytes = [111, 119, 110, 101, 114, 45, 97] then
      "95256875151043abdcafdd26fd390c650d6311e1d7185df477ce50736b6a5d0b"
    else if bytes = [111, 119, 110, 101, 114, 45, 98] then
      "3c31ba8d4dab9e1f45dc499d788d1db449c91610c11b91122b194cd7e905fe2a"
    else sampleContracts.sha256Hex bytes }

def erasureConfig : ErasureConfig := ⟨some "client", true⟩

/-- A step everything answers. -/
def servedStep (n : ℕ) : ErasureEvent := .advance n ⟨9, .served, true, true⟩

/-- The first delivery commits and its process stops; the second meets the record in its transaction;
the third is refused. -/
def threeDeliveries : List ErasureEvent :=
  connectOwners.map .catalog ++
    [.deliver "owner-a" 5, .deliver "owner-a" 5, .deliver "owner-b" 5,
      servedStep 0, servedStep 1, servedStep 0, servedStep 1, servedStep 0, servedStep 0,
      .advance 0 ⟨9, .unacknowledged, true, true⟩, .crash 0, servedStep 1, servedStep 1,
      servedStep 1, servedStep 1, servedStep 2]

theorem erasures_converge_three :
    OwnersApart ownerContracts (after ownerContracts erasureConfig threeDeliveries) ∧
      Converged ownerContracts erasureConfig threeDeliveries := by
  have hapart : OwnersApart ownerContracts (after ownerContracts erasureConfig threeDeliveries) := by
    unfold OwnersApart
    decide +kernel
  exact ⟨hapart, erasures_converge _ _ _ hapart⟩

example : (after ownerContracts erasureConfig threeDeliveries).deliveries.map
    (fun d => (d.owner, d.phase)) =
    [("owner-a", .ended (.error (.query .unavailable))),
      ("owner-a", .ended (.ok ⟨5, .incompleteExternalGrantRevocation⟩)),
      ("owner-b", .ended (.error .operationOwnerMismatch))] := by
  decide +kernel

end Erasures

end GithubCatalog
