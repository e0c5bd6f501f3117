import GithubCatalog.Lib.Runs
import GithubCatalog.PolicyPublication

/-!
# Publishers and dirty marks side by side

A publisher locks the cursor row, reads the inputs under that lock and settles the generation it read;
meanwhile other transactions go on, and those that mark the policy dirty wait for the row.

* `Publisher` - how far the publisher that holds the row has come;
* `PolicyWorld` - the catalog, that publisher, and two counts: the marks committed so far, and those
  among them that were committed when the inputs last settled were read;
* `PolicySerialized` - what holds in every state: the versions are `1 .. n`, one command each, and no
  mark is lost.
-/

namespace GithubCatalog

open Relational Transact

/-! ### The world -/

/-- A publisher that holds the cursor row. -/
inductive Publisher where
  | locked (now : Time) (commandId : Uuid) (cursor : BackupPolicyPublicationCursor)
  /-- It has read its inputs, at a time when `seen` marks were committed. -/
  | loaded (now : Time) (commandId : Uuid) (cursor : BackupPolicyPublicationCursor)
      (inputs : List BackupPolicyInput) (seen : ℕ)

structure PolicyWorld where
  catalog : Catalog
  publisher : Option Publisher
  marks : ℕ
  covered : ℕ

inductive PolicyEvent where
  | lock (now : Time) (commandId : Uuid)
  | load
  | settle
  /-- The publisher's transaction is rolled back, and its lock released. -/
  | abandon
  | transact (op : Operation) (h : ∀ now commandId, op ≠ .publishDue now commandId)

namespace PolicyWorld

def start : PolicyWorld := ⟨emptyCatalog, none, 0, 0⟩

def tables (w : PolicyWorld) : Database := w.catalog.tables

/-- A transaction that writes the cursor row waits for the publisher that holds it. -/
def waits (w : PolicyWorld) (after : Catalog) : Bool :=
  w.publisher.isSome && decide
    (after.tables.backupPolicyPublicationCursor ≠ w.tables.backupPolicyPublicationCursor)

def step (k : Contracts) (w : PolicyWorld) : PolicyEvent → PolicyWorld
  | .lock now commandId =>
    match w.publisher with
    | some _ => w
    | none =>
      if w.tables.cursor.due now then
        { w with publisher := some (.locked now commandId w.tables.cursor) }
      else { w with catalog := ensureCursor.commit w.catalog }
  | .load =>
    match w.publisher with
    | some (.locked now commandId cursor) =>
      match loadInputs w.tables with
      | .ok inputs =>
        { w with publisher := some (.loaded now commandId cursor inputs w.marks) }
      | .error _ => { w with publisher := none }
    | _ => w
  | .settle =>
    match w.publisher with
    | some (.loaded now commandId cursor inputs seen) =>
      match (ensureCursor >>= fun _ => settlePublication k now commandId cursor inputs) w.catalog with
      | .ok (_, c) => { w with catalog := c, publisher := none, covered := seen }
      | .error _ => { w with publisher := none }
    | _ => w
  | .abandon => { w with publisher := none }
  | .transact op _ =>
    let after := GithubCatalog.step k w.catalog op
    if w.waits after then w
    else { w with
      catalog := after
      marks := w.marks +
        if w.tables.cursor.dirtyGeneration < after.tables.cursor.dirtyGeneration then 1 else 0 }

end PolicyWorld

/-! ### Commands -/

/-- The policy commands of the outbox, with their ids. -/
def policyCommands (db : Database) : List (Uuid × Jsonb) :=
  (db.outboxEvents.filter fun e => decide (e.subject = .backupPolicyApply)).map fun e =>
    (e.messageId, e.payload)

/-- A command carries the document of a publication, under its version. -/
def CarriesPolicy (k : Contracts) (p : BackupPolicyPublication) (command : Uuid × Jsonb) : Prop :=
  ∃ (producedAt : Time) (policy : DesiredBackupPolicy),
    (policy.policyVersion : ℤ) = p.policyVersion ∧ k.policyValue policy = p.document ∧
      k.applyEnvelope command.1 producedAt policy = some command.2

theorem policyCommands_of_eq {db db' : Database} (h : db'.outboxEvents = db.outboxEvents) :
    policyCommands db' = policyCommands db := by
  rw [policyCommands, h, policyCommands]

theorem policyCommands_append {db db' : Database} {e : OutboxEvent}
    (h : db'.outboxEvents = db.outboxEvents ++ [e]) : policyCommands db' = policyCommands db ++
      if e.subject = .backupPolicyApply then [(e.messageId, e.payload)] else [] := by
  rw [policyCommands, h, List.filter_append, List.map_append, List.filter_singleton, policyCommands]
  by_cases hsubject : e.subject = .backupPolicyApply
  · simp [hsubject]
  · simp [hsubject]

theorem policyCommands_relay (now : Time) (messageId : Uuid) (result : RelayResult) (db : Database) :
    policyCommands (db.put .outboxEvents (updateWhere (result.selects messageId)
      (settleOutboxRow now result) db.outboxEvents)) = policyCommands db := by
  have hsame : ∀ e : OutboxEvent,
      (decide ((settleOutboxRow now result e).subject = .backupPolicyApply)) =
        decide (e.subject = .backupPolicyApply) := by
    intro e
    rw [(settleOutboxRow_identity now result e).2.1]
  show (List.filter _ (updateWhere _ _ db.outboxEvents)).map _ = _
  rw [filter_updateWhere hsame, policyCommands]
  apply map_updateWhere
  intro e
  rw [(settleOutboxRow_identity now result e).1, (settleOutboxRow_identity now result e).2.2]

theorem policyCommands_dispatch {k : Contracts} {messageId : Uuid} {now : Time} {c c' : Catalog}
    {out : AnalysisDispatch} (h : dispatchDueRepositoryAnalysis k messageId now c = .ok (out, c')) :
    policyCommands c'.tables = policyCommands c.tables := by
  obtain ⟨due, _, hread, h⟩ := Tx.bind_eq_ok.mp h
  obtain ⟨-, rfl⟩ := select_eq_ok.mp hread
  cases due with
  | none =>
    obtain ⟨-, rfl⟩ := Tx.pure_eq_ok.mp h
    rfl
  | some r =>
    simp only [Tx.bind_eq_ok, attempt_eq_ok, write_eq_ok, Tx.pure_eq_ok] at h
    obtain ⟨requested, _, ⟨-, rfl⟩, envelope, _, ⟨-, rfl⟩, -, c₁, h₁, -, c₂, h₂, -, rfl⟩ := h
    have happend : c₂.tables.outboxEvents = c.tables.outboxEvents ++
        [newOutboxEvent messageId .analysisRequested envelope now] := by
      rw [h₂, h₁]
      rfl
    rw [policyCommands_append happend]
    exact List.append_nil _

/-- An erasure deletes the messages of an owner, and policy commands have none. -/
theorem policyCommands_erase {now : Time} {owner : String} {operation : AccountErasureOperation}
    {c c' : Catalog} (h : eraseAccountInTx now owner operation c = .ok ((), c'))
    (hfree : ∀ command ∈ policyCommands c.tables, ownerKeyed owner command.2 = false) :
    policyCommands c'.tables = policyCommands c.tables := by
  obtain ⟨c₁, h₁, hagree⟩ := eraseAccountInTx_eq_ok h
  have houtbox : c'.tables.outboxEvents =
      deleteWhere (fun e => ownerKeyed owner e.payload) c.tables.outboxEvents := by
    refine (hagree .outboxEvents (by decide)).trans ?_
    rw [eraseOwnerState_eq h₁]
    rfl
  rw [policyCommands, houtbox, deleteWhere, List.filter_filter, policyCommands]
  congr 1
  apply List.filter_congr
  intro e he
  by_cases hsubject : e.subject = .backupPolicyApply
  · have hcommand : (e.messageId, e.payload) ∈ policyCommands c.tables :=
      List.mem_map.mpr ⟨e, List.mem_filter.mpr ⟨he, decide_eq_true hsubject⟩, rfl⟩
    have hkept : ownerKeyed owner e.payload = false := hfree _ hcommand
    rw [hkept]
    simp
  · simp [hsubject]

/-- The two states have the same policy commands. -/
def SameCommands (db db' : Database) : Prop := policyCommands db' = policyCommands db

instance : Std.Refl SameCommands := ⟨fun _ => rfl⟩

/-- Only publications add policy commands, and none goes. -/
theorem Operation.commit_sameCommands (k : Contracts) (c : Catalog) (op : Operation)
    (hop : ∀ now commandId, op ≠ .publishDue now commandId)
    (hfree : ∀ owner, ∀ command ∈ policyCommands c.tables, ownerKeyed owner command.2 = false) :
    SameCommands c.tables (op.commit k c).tables := by
  cases op with
  | publishDue now commandId => exact absurd rfl (hop now commandId)
  | dispatchAnalysis messageId now =>
    exact Tx.relates_commit fun _ _ h => policyCommands_dispatch h
  | recordRelayResult now messageId result =>
    refine Tx.relates_commit fun _ c' h => ?_
    rw [write_eq_ok.mp h]
    exact policyCommands_relay now messageId result c.tables
  | eraseAccount now owner operation =>
    exact Tx.relates_commit fun _ _ h => policyCommands_erase h (hfree owner)
  | _ => exact policyCommands_of_eq (rows_commit k c _ .outboxEvents rfl)

/-! ### What holds in every state -/

/-- The versions are `1 .. n` with `n` in the cursor; each has its command and each command its
version; and a mark committed after the inputs last settled were read is still pending. -/
structure PolicySerialized (k : Contracts) (w : PolicyWorld) : Prop where
  versions : ∃ n : ℕ, w.tables.cursor.lastPolicyVersion = n ∧
    w.tables.backupPolicyPublications.map (·.policyVersion) =
      (List.range n).map fun i : ℕ => (i : ℤ) + 1
  commands : List.Forall₂ (CarriesPolicy k) w.tables.backupPolicyPublications
    (policyCommands w.tables)
  generations : w.tables.cursor.publishedGeneration ≤ w.tables.cursor.dirtyGeneration
  unlost : w.covered < w.marks →
    w.tables.cursor.publishedGeneration < w.tables.cursor.dirtyGeneration

/-- The cursor a publisher read under its lock is the stored one, and no mark followed its read. -/
def PolicyWorld.Held (w : PolicyWorld) : Prop :=
  match w.publisher with
  | none => True
  | some (.locked _ _ cursor) => cursor = w.tables.cursor
  | some (.loaded _ _ cursor _ seen) => cursor = w.tables.cursor ∧ seen = w.marks

section steps

variable {k : Contracts} {w : PolicyWorld} {c : Catalog}

theorem cursor_generations (c : Catalog) :
    c.tables.cursor.publishedGeneration ≤ c.tables.cursor.dirtyGeneration := by
  have hcheck := cursor_check c.valid.checks
  simp only [BackupPolicyPublicationCursor.check, Bool.and_eq_true, decide_eq_true_eq] at hcheck
  exact hcheck.1.1.1

/-- No policy command names an owner. -/
theorem PolicySerialized.ownerless (h : PolicySerialized k w) (hk : k.Documented) (owner : String) :
    ∀ command ∈ policyCommands w.tables, ownerKeyed owner command.2 = false := by
  intro command hcommand
  obtain ⟨p, -, at', policy, -, -, henvelope⟩ := exists_mem_of_forall₂ h.commands.flip hcommand
  exact hk.not_ownerKeyed henvelope owner

theorem policyVersion_of_derive {version : ℕ} {producedAt : Time} {inputs : List BackupPolicyInput}
    {policy : DesiredBackupPolicy} (h : deriveBackupPolicy k version producedAt inputs = .ok policy) :
    policy.policyVersion = version := by
  rw [deriveBackupPolicy] at h
  cases hentries : (inputs.filter (·.included)).mapM (toEntry k) with
  | error e =>
    rw [hentries] at h
    cases h
  | ok entries =>
    rw [hentries] at h
    simp only [bind, Except.bind] at h
    split at h
    · split at h
      · cases h
        rfl
      · cases h
    · cases h

/-- A step that leaves cursor, publications and commands alone, and adds no mark. -/
theorem PolicySerialized.of_same (h : PolicySerialized k w) {publisher : Option Publisher}
    (hcursor : c.tables.cursor = w.tables.cursor)
    (hpublications : c.tables.backupPolicyPublications = w.tables.backupPolicyPublications)
    (hcommands : SameCommands w.tables c.tables) :
    PolicySerialized k ⟨c, publisher, w.marks, w.covered⟩ where
  versions := by
    obtain ⟨n, hversion, hversions⟩ := h.versions
    refine ⟨n, ?_, ?_⟩
    · show c.tables.cursor.lastPolicyVersion = n
      rw [hcursor, hversion]
    · show c.tables.backupPolicyPublications.map _ = _
      rw [hpublications, hversions]
  commands := by
    show List.Forall₂ _ c.tables.backupPolicyPublications (policyCommands c.tables)
    rw [hpublications, hcommands]
    exact h.commands
  generations := cursor_generations c
  unlost hlost := by
    show c.tables.cursor.publishedGeneration < c.tables.cursor.dirtyGeneration
    rw [hcursor]
    exact h.unlost hlost

/-- A transaction that is no publication. -/
theorem PolicySerialized.transact (h : PolicySerialized k w) (hk : k.Documented) (op : Operation)
    (hop : ∀ now commandId, op ≠ .publishDue now commandId) {publisher : Option Publisher} :
    PolicySerialized k ⟨op.commit k w.catalog, publisher, w.marks +
      (if w.tables.cursor.dirtyGeneration < (op.commit k w.catalog).tables.cursor.dirtyGeneration
        then 1 else 0), w.covered⟩ := by
  have hmarked := op.commit_marked k w.catalog hop
  have hpublications := op.commit_publications k w.catalog hop
  have hcommands := op.commit_sameCommands k w.catalog hop (h.ownerless hk)
  have hbefore := h.generations
  generalize op.commit k w.catalog = c at hmarked hpublications hcommands ⊢
  obtain ⟨n, hversion, hversions⟩ := h.versions
  refine ⟨⟨n, hmarked.version.trans hversion, ?_⟩, ?_, cursor_generations c, ?_⟩
  · show c.tables.backupPolicyPublications.map _ = _
    rw [hpublications]
    exact hversions
  · show List.Forall₂ _ c.tables.backupPolicyPublications (policyCommands c.tables)
    rw [hpublications, hcommands]
    exact h.commands
  · intro hlost
    show c.tables.cursor.publishedGeneration < c.tables.cursor.dirtyGeneration
    rw [hmarked.published]
    by_cases hmark : w.tables.cursor.dirtyGeneration < c.tables.cursor.dirtyGeneration
    · exact lt_of_le_of_lt hbefore hmark
    · rw [if_neg hmark] at hlost
      exact lt_of_lt_of_le (h.unlost hlost) hmarked.dirty_le

/-- The settling of a publisher whose cursor is the stored one and whose inputs cover every mark. -/
theorem PolicySerialized.settled (h : PolicySerialized k w) {now : Time} {commandId : Uuid}
    {inputs : List BackupPolicyInput} {publisher : Option Publisher}
    (hsettled : Settled k now commandId inputs w.tables c.tables) :
    PolicySerialized k ⟨c, publisher, w.marks, w.marks⟩ := by
  obtain ⟨n, hversion, hversions⟩ := h.versions
  have hnone : w.marks < w.marks → c.tables.cursor.publishedGeneration <
      c.tables.cursor.dirtyGeneration := fun hlt => absurd hlt (lt_irrefl _)
  rcases hsettled with ⟨-, htables⟩ | ⟨-, last, policy, envelope, hlast, hderive, -, henvelope, htables⟩
  · refine ⟨⟨n, ?_, ?_⟩, ?_, cursor_generations c, hnone⟩
    · show c.tables.cursor.lastPolicyVersion = n
      rw [htables]
      exact hversion
    · show c.tables.backupPolicyPublications.map _ = _
      rw [htables]
      exact hversions
    · show List.Forall₂ _ c.tables.backupPolicyPublications (policyCommands c.tables)
      rw [htables]
      exact h.commands
  · have hcommands : policyCommands c.tables = policyCommands w.tables ++ [(commandId, envelope)] := by
      refine policyCommands_append (e := newOutboxEvent commandId .backupPolicyApply envelope now) ?_
      rw [htables]
      rfl
    have hpublications : c.tables.backupPolicyPublications = w.tables.backupPolicyPublications ++
        [⟨w.tables.cursor.lastPolicyVersion + 1, fingerprint inputs, k.policyValue policy⟩] := by
      rw [htables]
      rfl
    refine ⟨⟨n + 1, ?_, ?_⟩, ?_, cursor_generations c, hnone⟩
    · show c.tables.cursor.lastPolicyVersion = _
      rw [htables]
      show w.tables.cursor.lastPolicyVersion + 1 = _
      rw [hversion]
      rfl
    · show c.tables.backupPolicyPublications.map _ = _
      rw [hpublications, List.map_append, hversions, List.range_succ, List.map_append, hversion]
      rfl
    · show List.Forall₂ _ c.tables.backupPolicyPublications (policyCommands c.tables)
      rw [hpublications, hcommands]
      refine List.rel_append h.commands (.cons ⟨now, policy, ?_, rfl, henvelope⟩ .nil)
      rw [policyVersion_of_derive hderive, ← hlast]
      rfl

/-- A transaction that did not have to wait leaves what a publisher read as it is. -/
theorem PolicyWorld.Held.unlocked (h : w.Held) (hfree : w.waits c = false) :
    PolicyWorld.Held ⟨c, w.publisher, w.marks +
      (if w.tables.cursor.dirtyGeneration < c.tables.cursor.dirtyGeneration then 1 else 0),
      w.covered⟩ := by
  rcases w with ⟨c₀, publisher, marks, covered⟩
  cases publisher with
  | none => trivial
  | some p =>
    have hrow : c.tables.backupPolicyPublicationCursor = c₀.tables.backupPolicyPublicationCursor :=
      not_not.mp (of_decide_eq_false hfree)
    have hcursor : c.tables.cursor = c₀.tables.cursor := by
      rw [Database.cursor, Database.cursor, hrow]
    simp only [PolicyWorld.tables, hcursor, lt_irrefl, if_false, Nat.add_zero]
    cases p with
    | locked now commandId cursor =>
      show cursor = c.tables.cursor
      rw [hcursor]
      exact h
    | loaded now commandId cursor inputs seen =>
      show cursor = c.tables.cursor ∧ seen = marks
      rw [hcursor]
      exact h

/-- **The step lemma.** -/
theorem PolicySerialized.step (h : PolicySerialized k w) (hheld : w.Held) (hk : k.Documented)
    (e : PolicyEvent) : PolicySerialized k (w.step k e) ∧ (w.step k e).Held := by
  rcases w with ⟨c, publisher, marks, covered⟩
  cases e with
  | lock now commandId =>
    cases publisher with
    | some p => exact ⟨h, hheld⟩
    | none =>
      by_cases hdue : c.tables.cursor.due now = true
      · simp only [PolicyWorld.step, PolicyWorld.tables, hdue, if_true]
        exact ⟨h.of_same rfl rfl rfl, rfl⟩
      · simp only [PolicyWorld.step, PolicyWorld.tables, hdue]
        refine ⟨?_, trivial⟩
        rcases Tx.commit_cases ensureCursor c with ⟨⟨⟩, hok⟩ | hsame
        · have htables := write_eq_ok.mp hok
          refine h.of_same ?_ ?_ (policyCommands_of_eq ?_)
          · rw [htables]
            rfl
          · rw [htables]
            rfl
          · rw [htables]
            rfl
        · simp only [hsame]
          exact h
  | load =>
    rcases publisher with _ | ⟨now, commandId, cursor⟩ | ⟨now, commandId, cursor, inputs, seen⟩
    · exact ⟨h, hheld⟩
    · cases hload : loadInputs c.tables with
      | error e =>
        simp only [PolicyWorld.step, PolicyWorld.tables, hload]
        exact ⟨h.of_same rfl rfl rfl, trivial⟩
      | ok inputs =>
        simp only [PolicyWorld.step, PolicyWorld.tables, hload]
        exact ⟨h.of_same rfl rfl rfl, hheld, rfl⟩
    · exact ⟨h, hheld⟩
  | settle =>
    rcases publisher with _ | ⟨now, commandId, cursor⟩ | ⟨now, commandId, cursor, inputs, seen⟩
    · exact ⟨h, hheld⟩
    · exact ⟨h, hheld⟩
    · have hcursor : cursor = c.tables.cursor := hheld.1
      have hseen : seen = marks := hheld.2
      subst hcursor hseen
      cases hsettle : (ensureCursor >>= fun _ => settlePublication k now commandId c.tables.cursor
          inputs) c with
      | error e =>
        simp only [PolicyWorld.step, hsettle]
        exact ⟨h.of_same rfl rfl rfl, trivial⟩
      | ok p =>
        obtain ⟨⟨⟩, c₁, hensure, hpublish⟩ := Tx.bind_eq_ok.mp hsettle
        simp only [PolicyWorld.step, hsettle]
        exact ⟨h.settled (settlePublication_cases hensure hpublish), trivial⟩
  | abandon => exact ⟨h.of_same rfl rfl rfl, trivial⟩
  | transact op hop =>
    simp only [PolicyWorld.step]
    by_cases hadmissible : op.admissible c.tables = true
    · simp only [GithubCatalog.step, hadmissible, if_true]
      split
      · exact ⟨h, hheld⟩
      · next hfree =>
        exact ⟨h.transact hk op hop, hheld.unlocked (by simpa using hfree)⟩
    · simp only [GithubCatalog.step, hadmissible, Bool.false_eq_true, if_false]
      split
      · exact ⟨h, hheld⟩
      · simp only [PolicyWorld.tables, lt_irrefl, if_false, Nat.add_zero]
        exact ⟨h, hheld⟩

end steps

/-- The cursor row can always be made sure of. -/
theorem ensureCursor_ok (c : Catalog) : ∃ c₁, ensureCursor c = .ok ((), c₁) ∧
    c₁.tables.backupPolicyPublicationCursor = some c.tables.cursor ∧
      loadInputs c₁.tables = loadInputs c.tables :=
  ⟨_, write_of_valid (constraints_cursor c.valid (cursor_check c.valid.checks)), rfl,
    SameInputs.loadInputs_eq (sameInputs_of_eq rfl rfl)⟩

/-- A publisher that nobody comes between is `publish_due_backup_policy`. -/
theorem PolicyWorld.publish_eq (k : Contracts) (w : PolicyWorld) (hfree : w.publisher = none)
    (now : Time) (commandId : Uuid) :
    (((w.step k (.lock now commandId)).step k .load).step k .settle).catalog =
      (publishDueBackupPolicy k now commandId).commit w.catalog := by
  rcases w with ⟨c, publisher, marks, covered⟩
  cases hfree
  obtain ⟨c₁, hensure, hcursor, hinputs⟩ := ensureCursor_ok c
  have hfetch : fetchOne (·.backupPolicyPublicationCursor) c₁ = .ok (c.tables.cursor, c₁) :=
    fetchOne_eq_ok.mpr ⟨hcursor, rfl⟩
  rw [publishDueBackupPolicy_eq, Tx.commit, Tx.bind_of_ok hensure, Tx.bind_of_ok hfetch]
  by_cases hdue : c.tables.cursor.due now = true
  · simp only [PolicyWorld.step, PolicyWorld.tables, hdue, if_true]
    cases hload : loadInputs c.tables with
    | error e =>
      have hattempt : attempt loadInputs c₁ = .error e := by
        simp only [attempt, Tx.queryOrFail, hinputs, hload]
      simp only [Tx.bind_of_error hattempt]
    | ok inputs =>
      have hattempt : attempt loadInputs c₁ = .ok (inputs, c₁) :=
        attempt_eq_ok.mpr ⟨hinputs.trans hload, rfl⟩
      simp only [Tx.bind_of_ok hattempt, Tx.bind_of_ok hensure]
      cases settlePublication k now commandId c.tables.cursor inputs c₁ with
      | error e => rfl
      | ok p => rfl
  · simp only [PolicyWorld.step, PolicyWorld.tables, hdue, Bool.false_eq_true, if_false]
    rw [Tx.commit_of_ok hensure]
    rfl

/-- **Versions and marks.**  Whatever publishers and transactions run side by side, in every state the
published versions are `1 .. n` with `n` in the cursor, each with its one command; the published
generation is at most the dirty one, and below it where a mark was committed after the inputs last
settled were read. -/
theorem policy_serialized (k : Contracts) (hk : k.Documented) (history : List PolicyEvent) :
    PolicySerialized k (Runs.runFrom (PolicyWorld.step k) PolicyWorld.start history) := by
  have hstart : PolicySerialized k PolicyWorld.start ∧ PolicyWorld.start.Held := by
    refine ⟨⟨⟨0, rfl, rfl⟩, .nil, le_refl _, ?_⟩, trivial⟩
    intro hlost
    exact absurd hlost (lt_irrefl 0)
  have hrun := Runs.invariant_runFrom
    (P := fun w => PolicySerialized k w ∧ w.Held) (fun w e h => h.1.step h.2 hk e) hstart history
  exact hrun.1

/-- A repository is tracked; a publisher reads it; the next track waits for the row and then marks; the
publisher settles, and another publishes the second repository. -/
def publishedTwice : List PolicyEvent :=
  [.transact (.trackRepository 1 0 101) (by simp), .lock 60000000 10, .load,
    .transact (.trackRepository 2 0 102) (by simp), .settle,
    .transact (.trackRepository 2 60000000 102) (by simp), .lock 120000000 11, .load, .settle,
    .transact (.markDirty 120000000) (by simp)]

theorem policy_serialized_publishedTwice :
    let w := Runs.runFrom (PolicyWorld.step sampleContracts) PolicyWorld.start publishedTwice
    PolicySerialized sampleContracts w ∧
      w.tables.backupPolicyPublications.map (·.policyVersion) = [1, 2] ∧ w.covered < w.marks := by
  intro w
  exact ⟨policy_serialized sampleContracts sampleContracts_documented publishedTwice,
    by decide +kernel⟩

end GithubCatalog
