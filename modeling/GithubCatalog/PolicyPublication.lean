import GithubCatalog.PolicyCursor

/-!
# Publications of the desired backup policy

The ledger of publications: the highest version is the cursor's last one, it carries the cursor's
last fingerprint, and every version was derived from inputs with its fingerprint and sent as an
outbox command (`PolicyLedger`).  Every history keeps it.

A due publication compares the inputs with the last fingerprint only, while the table keeps every
fingerprint unique.  `publishDue_current_iff` gives the exact states in which it succeeds and leaves
a current document: the inputs are the last published ones, or were never published before.
`publishDue_returning` is a history that returns to an earlier desired state.
-/

namespace GithubCatalog

open Relational Transact

/-! ### What a publication does -/

/-- The cursor after a publication. -/
def BackupPolicyPublicationCursor.settled (c : BackupPolicyPublicationCursor) (version : ℤ)
    (fp : String) : BackupPolicyPublicationCursor :=
  { c with
    publishedGeneration := c.dirtyGeneration, lastPolicyVersion := version
    lastFingerprint := some fp, notBefore := none }

/-- The tables after a publication that found the last inputs again. -/
def Database.settledUnchanged (db : Database) (fp : String) : Database :=
  { db with
    backupPolicyPublicationCursor := some (db.cursor.settled db.cursor.lastPolicyVersion fp) }

/-- The tables after the publication of a new version. -/
def Database.settledNew (db : Database) (k : Contracts) (now : Time) (commandId : Uuid) (fp : String)
    (policy : DesiredBackupPolicy) (envelope : Jsonb) : Database :=
  { db with
    backupPolicyPublicationCursor := some (db.cursor.settled (db.cursor.lastPolicyVersion + 1) fp)
    backupPolicyPublications := db.backupPolicyPublications ++
      [⟨db.cursor.lastPolicyVersion + 1, fp, k.policyValue policy⟩]
    outboxEvents := db.outboxEvents ++
      [newOutboxEvent commandId .backupPolicyApply envelope now] }

section publication

variable {k : Contracts} {now : Time} {commandId : Uuid} {c c' : Catalog}

theorem unsignedOf_eq_ok {field : String} {n : ℤ} {m : ℕ} :
    unsignedOf field n = .ok m ↔ (m : ℤ) = n := by
  unfold unsignedOf
  split
  · simp only [Except.ok.injEq]
    omega
  · simp only [reduceCtorEq, false_iff]
    omega

theorem storedVersion_eq_ok {version : ℕ} {stored : ℤ} :
    storedVersion version = .ok stored ↔ version < 2 ^ 63 ∧ (version : ℤ) = stored := by
  unfold storedVersion
  split
  · simp_all
  · simp_all

/-- The publication of a new version, inverted. -/
theorem publishVersion_eq {inputs : List BackupPolicyInput} {out : PublicationOutcome}
    (h : publishVersion k now commandId c.tables.cursor inputs c = .ok (out, c'))
    (hcursor : c.tables.backupPolicyPublicationCursor = some c.tables.cursor) :
    ∃ (last : ℕ) (policy : DesiredBackupPolicy) (envelope : Jsonb),
      (last : ℤ) = c.tables.cursor.lastPolicyVersion ∧
      deriveBackupPolicy k (last + 1) now inputs = .ok policy ∧ last + 1 < 2 ^ 63 ∧
      k.applyEnvelope commandId now policy = some envelope ∧
      c'.tables =
        c.tables.settledNew k now commandId (fingerprint inputs) policy envelope := by
  simp only [publishVersion, settle, Tx.bind_eq_ok, attempt_eq_ok, write_eq_ok,
    Tx.pure_eq_ok] at h
  obtain ⟨last, _, ⟨hlast, rfl⟩, policy, _, ⟨hpolicy, rfl⟩, stored, _, ⟨hstored, rfl⟩, -, c₁, h₁,
    envelope, _, ⟨henvelope, rfl⟩, -, c₂, h₂, -, c₃, h₃, -, rfl⟩ := h
  rw [unsignedOf_eq_ok] at hlast
  obtain ⟨hbound, rfl⟩ := storedVersion_eq_ok.mp hstored
  have hsome : k.applyEnvelope commandId now policy = some envelope := by
    cases hopt : k.applyEnvelope commandId now policy with
    | none =>
      rw [hopt] at henvelope
      cases henvelope
    | some e =>
      rw [hopt] at henvelope
      cases henvelope
      rfl
  refine ⟨last, policy, envelope, hlast, hpolicy, hbound, hsome, ?_⟩
  rw [h₃, h₂, h₁]
  unfold Database.put
  simp only [Database.settledNew, hcursor, Option.map_some, BackupPolicyPublicationCursor.settled,
    Nat.cast_add, Nat.cast_one, hlast]

/-- `publish_due_backup_policy` from its inputs on, with the cursor row it has locked. -/
def settlePublication (k : Contracts) (now : Time) (commandId : Uuid)
    (cursor : BackupPolicyPublicationCursor) (inputs : List BackupPolicyInput) :
    Tx PublicationOutcome :=
  if cursor.lastFingerprint = some (fingerprint inputs) then do
    settle cursor.dirtyGeneration cursor.lastPolicyVersion (fingerprint inputs)
    pure .unchanged
  else publishVersion k now commandId cursor inputs

/-- The row a publisher makes sure of before it locks it. -/
def ensureCursor : Tx Unit :=
  write .backupPolicyPublicationCursor fun db => some (db.backupPolicyPublicationCursor.getD {})

/-- A publication whose parts follow each other. -/
theorem publishDueBackupPolicy_eq (k : Contracts) (now : Time) (commandId : Uuid) :
    publishDueBackupPolicy k now commandId = (ensureCursor >>= fun _ =>
      fetchOne (·.backupPolicyPublicationCursor) >>= fun cursor =>
        if cursor.due now then attempt loadInputs >>= settlePublication k now commandId cursor
        else pure .pending) :=
  rfl

/-- What the settling of inputs did to the tables it found. -/
def Settled (k : Contracts) (now : Time) (commandId : Uuid) (inputs : List BackupPolicyInput)
    (db db' : Database) : Prop :=
  (db.cursor.lastFingerprint = some (fingerprint inputs) ∧
      db' = db.settledUnchanged (fingerprint inputs)) ∨
    (db.cursor.lastFingerprint ≠ some (fingerprint inputs) ∧
      ∃ (last : ℕ) (policy : DesiredBackupPolicy) (envelope : Jsonb),
        (last : ℤ) = db.cursor.lastPolicyVersion ∧
        deriveBackupPolicy k (last + 1) now inputs = .ok policy ∧ last + 1 < 2 ^ 63 ∧
        k.applyEnvelope commandId now policy = some envelope ∧
        db' = db.settledNew k now commandId (fingerprint inputs) policy envelope)

/-- **The settling of inputs**, in a transaction that holds the cursor row. -/
theorem settlePublication_cases {inputs : List BackupPolicyInput} {out : PublicationOutcome}
    {c₁ : Catalog} (hensure : ensureCursor c = .ok ((), c₁))
    (h : settlePublication k now commandId c.tables.cursor inputs c₁ = .ok (out, c')) :
    Settled k now commandId inputs c.tables c'.tables := by
  have htables : c₁.tables = { c.tables with
      backupPolicyPublicationCursor := some c.tables.cursor } := write_eq_ok.mp hensure
  have hsame : c₁.tables.cursor = c.tables.cursor := by rw [htables]; rfl
  unfold settlePublication at h
  split at h
  · next hlast =>
    refine .inl ⟨hlast, ?_⟩
    simp only [settle, Tx.bind_eq_ok, write_eq_ok, Tx.pure_eq_ok] at h
    obtain ⟨-, c₂, h₂, -, rfl⟩ := h
    rw [h₂, htables]
    unfold Database.put
    simp only [Database.settledUnchanged, Option.map_some, BackupPolicyPublicationCursor.settled]
  · next hlast =>
    refine .inr ⟨hlast, ?_⟩
    rw [← hsame] at h
    obtain ⟨last, policy, envelope, hversion, hpolicy, hbound, henvelope, hstate⟩ :=
      publishVersion_eq h (by rw [hsame, htables])
    refine ⟨last, policy, envelope, hversion.trans (by rw [hsame]), hpolicy, hbound, henvelope, ?_⟩
    rw [hstate, Database.settledNew, hsame]
    simp only [htables, Database.settledNew]

/-- **What a publication can do.**  It waits, finds the last inputs again, or appends a version. -/
theorem publishDue_cases {out : PublicationOutcome}
    (h : publishDueBackupPolicy k now commandId c = .ok (out, c')) :
    (c.tables.cursor.due now = false ∧ c'.tables = { c.tables with
      backupPolicyPublicationCursor := some c.tables.cursor }) ∨
    (c.tables.cursor.due now = true ∧ ∃ inputs, loadInputs c.tables = .ok inputs ∧
      ((c.tables.cursor.lastFingerprint = some (fingerprint inputs) ∧
        c'.tables = c.tables.settledUnchanged (fingerprint inputs)) ∨
      (c.tables.cursor.lastFingerprint ≠ some (fingerprint inputs) ∧
        ∃ (last : ℕ) (policy : DesiredBackupPolicy) (envelope : Jsonb),
        (last : ℤ) = c.tables.cursor.lastPolicyVersion ∧
        deriveBackupPolicy k (last + 1) now inputs = .ok policy ∧ last + 1 < 2 ^ 63 ∧
        k.applyEnvelope commandId now policy = some envelope ∧
        c'.tables =
          c.tables.settledNew k now commandId (fingerprint inputs) policy envelope))) := by
  rw [publishDueBackupPolicy_eq] at h
  simp only [Tx.bind_eq_ok, fetchOne_eq_ok] at h
  obtain ⟨⟨⟩, c₁, h₁, cursor, _, ⟨hcursor, rfl⟩, hrest⟩ := h
  have htables : c₁.tables = { c.tables with
      backupPolicyPublicationCursor := some c.tables.cursor } := write_eq_ok.mp h₁
  have hcur : cursor = c.tables.cursor := by
    rw [htables] at hcursor
    exact (Option.some.inj hcursor).symm
  have hinputs : loadInputs c₁.tables = loadInputs c.tables :=
    (sameInputs_of_eq (by rw [htables]) (by rw [htables])).loadInputs_eq
  subst hcur
  split at hrest
  · next hdue =>
    refine .inr ⟨hdue, ?_⟩
    simp only [Tx.bind_eq_ok, attempt_eq_ok] at hrest
    obtain ⟨inputs, _, ⟨hload, rfl⟩, hpublish⟩ := hrest
    exact ⟨inputs, hinputs ▸ hload, settlePublication_cases h₁ hpublish⟩
  · next hdue =>
    simp only [Tx.pure_eq_ok] at hrest
    obtain ⟨-, rfl⟩ := hrest
    exact .inl ⟨by simpa using hdue, htables⟩

end publication

/-! ### The ledger of publications -/

/-- A publication was derived from inputs with its fingerprint, and a command carries it. -/
def Recorded (k : Contracts) (outbox : List OutboxEvent) (p : BackupPolicyPublication) : Prop :=
  ∃ (inputs : List BackupPolicyInput) (policy : DesiredBackupPolicy) (version : ℕ)
    (producedAt : Time),
    p.policyVersion = version ∧ p.fingerprint = fingerprint inputs ∧
    deriveBackupPolicy k version producedAt inputs = .ok policy ∧
    p.document = k.policyValue policy ∧
    ∃ e ∈ outbox, e.subject = .backupPolicyApply ∧
      k.applyEnvelope e.messageId producedAt policy = some e.payload

/-- What every history keeps of the cursor and its publications. -/
structure PolicyLedger (k : Contracts) (db : Database) : Prop where
  version_nonneg : 0 ≤ db.cursor.lastPolicyVersion
  bounded : ∀ p ∈ db.backupPolicyPublications, p.policyVersion ≤ db.cursor.lastPolicyVersion
  last : ∀ fp ∈ db.cursor.lastFingerprint, ∃ p ∈ db.backupPolicyPublications,
    p.policyVersion = db.cursor.lastPolicyVersion ∧ p.fingerprint = fp
  recorded : ∀ p ∈ db.backupPolicyPublications, Recorded k db.outboxEvents p

theorem policyLedger_empty (k : Contracts) : PolicyLedger k {} where
  version_nonneg := le_rfl
  bounded := by simp
  last := by simp [Database.cursor]
  recorded := by simp

/-- The catalog-wide messages of the outbox stay in it. -/
def CommandsKept (db db' : Database) : Prop :=
  ∀ e ∈ db.outboxEvents, (∀ owner, ownerKeyed owner e.payload = false) →
    ∃ e' ∈ db'.outboxEvents,
      e'.messageId = e.messageId ∧ e'.subject = e.subject ∧ e'.payload = e.payload

theorem commandsKept_of_subset {db db' : Database} (h : db.outboxEvents ⊆ db'.outboxEvents) :
    CommandsKept db db' :=
  fun e he _ => ⟨e, h he, rfl, rfl, rfl⟩

theorem commandsKept_of_eq {db db' : Database} (h : db'.outboxEvents = db.outboxEvents) :
    CommandsKept db db' :=
  commandsKept_of_subset (by rw [h]; exact List.Subset.refl _)

instance : Std.Refl CommandsKept := ⟨fun _ => commandsKept_of_subset (List.Subset.refl _)⟩

instance : IsTrans Database CommandsKept where
  trans db db' db'' h h' := by
    intro e he hfree
    obtain ⟨e', he', hid, hsubject, hpayload⟩ := h e he hfree
    obtain ⟨e'', he'', hid', hsubject', hpayload'⟩ := h' e' he' (by rwa [hpayload])
    exact ⟨e'', he'', hid'.trans hid, hsubject'.trans hsubject, hpayload'.trans hpayload⟩

theorem relates_commandsKept_of_touches {α : Type} {ts : List Table} {x : Tx α}
    (h : Touches ts x) (ht : .outboxEvents ∉ ts) : Tx.Relates CommandsKept x :=
  Tx.Relates.mono h fun _ _ hagree => commandsKept_of_eq (hagree .outboxEvents ht)

/-- The policy command names no owner. -/
theorem Contracts.Documented.not_ownerKeyed {k : Contracts} (hk : k.Documented) {id : Uuid}
    {at' : Time} {policy : DesiredBackupPolicy} {envelope : Jsonb}
    (h : k.applyEnvelope id at' policy = some envelope) (owner : String) :
    ownerKeyed owner envelope = false := by
  obtain ⟨howner, htenant, haccount⟩ := hk.applyEnvelope_ownerless _ _ _ _ h
  rw [ownerKeyed, howner, htenant, haccount]
  rfl

theorem Recorded.mono {k : Contracts} (hk : k.Documented) {db db' : Database}
    (hkept : CommandsKept db db') {p : BackupPolicyPublication}
    (h : Recorded k db.outboxEvents p) : Recorded k db'.outboxEvents p := by
  obtain ⟨inputs, policy, version, at', hv, hfp, hderive, hdoc, e, he, hsubject, henvelope⟩ := h
  obtain ⟨e', he', hid, hsubject', hpayload⟩ := hkept e he (hk.not_ownerKeyed henvelope)
  refine ⟨inputs, policy, version, at', hv, hfp, hderive, hdoc, e', he', ?_, ?_⟩
  · rw [hsubject', hsubject]
  · rw [hid, hpayload, henvelope]

/-- Marks and kept commands keep the ledger. -/
theorem PolicyLedger.mono {k : Contracts} (hk : k.Documented) {db db' : Database}
    (h : PolicyLedger k db) (hmarked : Marked db db')
    (hpubs : db'.backupPolicyPublications = db.backupPolicyPublications)
    (hkept : CommandsKept db db') : PolicyLedger k db' where
  version_nonneg := by rw [hmarked.version]; exact h.version_nonneg
  bounded := by rw [hmarked.version, hpubs]; exact h.bounded
  last := by rw [hmarked.version, hmarked.fingerprint, hpubs]; exact h.last
  recorded := by
    rw [hpubs]
    intro p hp
    exact (h.recorded p hp).mono hk hkept

/-! ### Every operation keeps the ledger -/

theorem relates_commandsKept_dispatch (k : Contracts) (messageId : Uuid) (now : Time) :
    Tx.Relates CommandsKept (dispatchDueRepositoryAnalysis k messageId now) := by
  refine Tx.Relates.bind (relates_select _) fun due => ?_
  cases due with
  | none => exact Tx.Relates.pure _
  | some r =>
    refine Tx.Relates.bind (relates_attempt _) fun requested =>
      Tx.Relates.bind (relates_attempt _) fun envelope =>
      Tx.Relates.bind (relates_write ?_) fun _ => Tx.Relates.bind ?_ fun _ => Tx.Relates.pure _
    · intro db _
      exact commandsKept_of_subset (List.subset_append_left _ _)
    · exact relates_commandsKept_of_touches (Touches.write (List.mem_singleton.mpr rfl) _)
        (by decide)

theorem settleOutboxRow_identity (now : Time) (result : RelayResult) (e : OutboxEvent) :
    (settleOutboxRow now result e).messageId = e.messageId ∧
      (settleOutboxRow now result e).subject = e.subject ∧
      (settleOutboxRow now result e).payload = e.payload := by
  cases result <;> exact ⟨rfl, rfl, rfl⟩

theorem relates_commandsKept_relay (now : Time) (messageId : Uuid) (result : RelayResult) :
    Tx.Relates CommandsKept (recordRelayResult now messageId result) := by
  apply relates_write
  intro db _ e he _
  by_cases hsel : result.selects messageId e = true
  · refine ⟨settleOutboxRow now result e, ?_, settleOutboxRow_identity now result e⟩
    exact mem_updateWhere.mpr ⟨e, he, if_pos hsel⟩
  · exact ⟨e, mem_updateWhere.mpr ⟨e, he, if_neg hsel⟩, rfl, rfl, rfl⟩

theorem relates_commandsKept_erase (now : Time) (owner : String)
    (operation : AccountErasureOperation) :
    Tx.Relates CommandsKept (eraseAccountInTx now owner operation) := by
  refine Tx.Relates.bind ?_ fun _ => Tx.Relates.bind (relates_require _ _) fun _ =>
    relates_commandsKept_of_touches (Touches.write (List.mem_singleton.mpr rfl) _) (by decide)
  intro c u c' h e he hfree
  rw [eraseOwnerState_eq h]
  exact ⟨e, mem_deleteWhere.mpr ⟨he, hfree owner⟩, rfl, rfl, rfl⟩

theorem Operation.commit_commandsKept (k : Contracts) (c : Catalog) (op : Operation)
    (hop : ∀ now commandId, op ≠ .publishDue now commandId) :
    CommandsKept c.tables (op.commit k c).tables := by
  cases op with
  | publishDue now commandId => exact absurd rfl (hop now commandId)
  | dispatchAnalysis => exact (relates_commandsKept_dispatch _ _ _).commit c
  | recordRelayResult => exact (relates_commandsKept_relay _ _ _).commit c
  | eraseAccount => exact (relates_commandsKept_erase _ _ _).commit c
  | _ => exact commandsKept_of_eq (rows_commit k c _ .outboxEvents rfl)

theorem Operation.commit_publications (k : Contracts) (c : Catalog) (op : Operation)
    (hop : ∀ now commandId, op ≠ .publishDue now commandId) :
    (op.commit k c).tables.backupPolicyPublications = c.tables.backupPolicyPublications := by
  cases op with
  | publishDue now commandId => exact absurd rfl (hop now commandId)
  | _ => exact rows_commit k c _ .backupPolicyPublications rfl

theorem PolicyLedger.settledUnchanged {k : Contracts} {db : Database} (h : PolicyLedger k db)
    {fp : String} (hlast : db.cursor.lastFingerprint = some fp) :
    PolicyLedger k (db.settledUnchanged fp) where
  version_nonneg := h.version_nonneg
  bounded := h.bounded
  last := fun fp' hfp => h.last fp' (hlast ▸ hfp)
  recorded := h.recorded

theorem PolicyLedger.settledNew {k : Contracts} {db : Database} (h : PolicyLedger k db)
    {now : Time} {commandId : Uuid} {inputs : List BackupPolicyInput} {last : ℕ}
    {policy : DesiredBackupPolicy} {envelope : Jsonb}
    (hlast : (last : ℤ) = db.cursor.lastPolicyVersion)
    (hderive : deriveBackupPolicy k (last + 1) now inputs = .ok policy)
    (henvelope : k.applyEnvelope commandId now policy = some envelope) :
    PolicyLedger k (db.settledNew k now commandId (fingerprint inputs) policy envelope) where
  version_nonneg := by
    show 0 ≤ db.cursor.lastPolicyVersion + 1
    have := h.version_nonneg
    omega
  bounded := by
    intro p hp
    rcases List.mem_append.mp hp with hold | hnew
    · exact (h.bounded p hold).trans (lt_add_one _).le
    · rw [List.mem_singleton.mp hnew]
      exact le_rfl
  last := by
    intro fp hfp
    refine ⟨_, List.mem_append_right _ List.mem_cons_self, rfl, ?_⟩
    exact Option.some.inj hfp
  recorded := by
    intro p hp
    have hsub : db.outboxEvents ⊆ db.outboxEvents ++
        [newOutboxEvent commandId .backupPolicyApply envelope now] := List.subset_append_left _ _
    rcases List.mem_append.mp hp with hold | hnew
    · obtain ⟨inputs', policy', version, at', hv, hfp, hd, hdoc, e, he, hs, hen⟩ :=
        h.recorded p hold
      exact ⟨inputs', policy', version, at', hv, hfp, hd, hdoc, e, hsub he, hs, hen⟩
    · rw [List.mem_singleton.mp hnew]
      refine ⟨inputs, policy, last + 1, now, ?_, rfl, hderive, rfl, _,
        List.mem_append_right _ List.mem_cons_self, rfl, henvelope⟩
      rw [← hlast, Nat.cast_add, Nat.cast_one]

/-- **Every history keeps the ledger.** -/
theorem policyLedger_of_reachable {k : Contracts} (hk : k.Documented) {c : Catalog}
    (hc : Reachable k c) : PolicyLedger k c.tables := by
  refine Reachable.induct (P := fun c => PolicyLedger k c.tables) (policyLedger_empty k) ?_ hc
  intro c op h _
  by_cases hop : ∃ now commandId, op = .publishDue now commandId
  · obtain ⟨now, commandId, rfl⟩ := hop
    show PolicyLedger k ((publishDueBackupPolicy k now commandId).commit c).tables
    rcases Tx.commit_cases (publishDueBackupPolicy k now commandId) c with ⟨out, hok⟩ | hsame
    · rcases publishDue_cases hok with ⟨-, hstate⟩ | ⟨-, inputs, -, ⟨hlast, hstate⟩ | hnew⟩
      · rw [hstate]
        exact h.mono hk (marked_of_cursor rfl) rfl (commandsKept_of_eq rfl)
      · rw [hstate]
        exact h.settledUnchanged hlast
      · obtain ⟨-, last, policy, envelope, hversion, hderive, -, henvelope, hstate⟩ := hnew
        rw [hstate]
        exact h.settledNew hversion hderive henvelope
    · rw [hsame]
      exact h
  · have hother : ∀ now commandId, op ≠ .publishDue now commandId :=
      fun now commandId heq => hop ⟨now, commandId, heq⟩
    exact h.mono hk (op.commit_marked k c hother) (op.commit_publications k c hother)
      (op.commit_commandsKept k c hother)

/-! ### When a publication succeeds -/

section success

variable {k : Contracts} {now : Time} {commandId : Uuid} {c c' : Catalog}

theorem constraints_publication {db : Database} (h : Constraints db) {p : BackupPolicyPublication}
    (hcheck : p.check = true)
    (hversion : p.policyVersion ∉ db.backupPolicyPublications.map (·.policyVersion))
    (hfp : p.fingerprint ∉ db.backupPolicyPublications.map (·.fingerprint)) :
    Constraints (db.put .backupPolicyPublications (db.backupPolicyPublications ++ [p])) where
  keys := { h.keys with
    publications := h.keys.publications.append_singleton hversion
    publications_fingerprint := h.keys.publications_fingerprint.append_singleton hfp }
  checks := { h.checks with
    publications := by
      intro q hq
      rcases List.mem_append.mp hq with hold | hnew
      · exact h.checks.publications q hold
      · exact List.mem_singleton.mp hnew ▸ hcheck }
  foreignKeys := { h.foreignKeys with runs_account := h.foreignKeys.runs_account }

theorem constraints_outbox {db : Database} (h : Constraints db) {e : OutboxEvent}
    (hcheck : e.check = true) (hid : e.messageId ∉ db.outboxEvents.map (·.messageId)) :
    Constraints (db.put .outboxEvents (db.outboxEvents ++ [e])) where
  keys := { h.keys with outbox := h.keys.outbox.append_singleton hid }
  checks := { h.checks with
    outbox := by
      intro q hq
      rcases List.mem_append.mp hq with hold | hnew
      · exact h.checks.outbox q hold
      · exact List.mem_singleton.mp hnew ▸ hcheck }
  foreignKeys := { h.foreignKeys with runs_account := h.foreignKeys.runs_account }

/-- A settled cursor passes its check when its version fits. -/
theorem settled_check {cursor : BackupPolicyPublicationCursor} (h : cursor.check = true)
    {version : ℤ} (hversion : fitsBigint version = true) (fp : String) :
    (cursor.settled version fp).check = true := by
  simp only [BackupPolicyPublicationCursor.check, Bool.and_eq_true] at h
  simp only [BackupPolicyPublicationCursor.check, BackupPolicyPublicationCursor.settled,
    Bool.and_eq_true, decide_eq_true_eq, le_refl, hversion, h.1.1.2, and_self]

/-- The inputs can be turned into a valid document and a command, whatever the version. -/
structure ContractValid (k : Contracts) (inputs : List BackupPolicyInput) : Prop where
  derives : ∀ version producedAt, 0 < version →
    ∃ policy, deriveBackupPolicy k version producedAt inputs = .ok policy
  sends : ∀ version producedAt policy commandId,
    deriveBackupPolicy k version producedAt inputs = .ok policy →
    ∃ envelope, k.applyEnvelope commandId producedAt policy = some envelope

/-- The inputs of a due publication were published last, or never. -/
def Publishable (db : Database) (inputs : List BackupPolicyInput) : Prop :=
  db.cursor.lastFingerprint = some (fingerprint inputs) ∨
    (fingerprint inputs ∉ db.backupPolicyPublications.map (·.fingerprint) ∧
      db.cursor.lastPolicyVersion + 1 < 2 ^ 63)

theorem publishVersion_succeeds (hk : k.Documented) (hledger : PolicyLedger k c.tables)
    {inputs : List BackupPolicyInput} (hvalid : ContractValid k inputs)
    (hfresh : commandId ∉ c.tables.outboxEvents.map (·.messageId))
    (hnew : fingerprint inputs ∉ c.tables.backupPolicyPublications.map (·.fingerprint))
    (hbound : c.tables.cursor.lastPolicyVersion + 1 < 2 ^ 63)
    (hcursor : c.tables.backupPolicyPublicationCursor = some c.tables.cursor) :
    ∃ out c', publishVersion k now commandId c.tables.cursor inputs c = .ok (out, c') := by
  obtain ⟨last, hlast⟩ := Int.eq_ofNat_of_zero_le hledger.version_nonneg
  obtain ⟨policy, hpolicy⟩ := hvalid.derives (last + 1) now (Nat.succ_pos last)
  obtain ⟨envelope, henvelope⟩ := hvalid.sends _ _ _ commandId hpolicy
  have hpub : Constraints (c.tables.put .backupPolicyPublications (c.tables.backupPolicyPublications
      ++ [⟨((last + 1 : ℕ) : ℤ), fingerprint inputs, k.policyValue policy⟩])) := by
    apply constraints_publication c.valid
    · simp [BackupPolicyPublication.check, hk.policyValue_isObject]
    · intro hmem
      obtain ⟨p, hp, heq⟩ := List.mem_map.mp hmem
      have := hledger.bounded p hp
      push_cast at heq
      omega
    · exact hnew
  have hout := constraints_outbox hpub
    (e := newOutboxEvent commandId .backupPolicyApply envelope now)
    (by
      have hobject := hk.applyEnvelope_isObject _ _ _ _ henvelope
      simp [OutboxEvent.check, newOutboxEvent, hobject, fitsInteger]) hfresh
  have hfits : fitsBigint ((last + 1 : ℕ) : ℤ) = true := by
    simp [fitsBigint]
    omega
  have hset := constraints_cursor hout
    (settled_check (cursor_check c.valid.checks) hfits (fingerprint inputs))
  refine ⟨.published (last + 1), ⟨_, hset⟩, ?_⟩
  simp only [publishVersion, settle, Tx.bind_eq_ok, attempt_eq_ok, write_eq_ok, Tx.pure_eq_ok]
  refine ⟨last, _, ⟨unsignedOf_eq_ok.mpr hlast.symm, rfl⟩, policy, _, ⟨hpolicy, rfl⟩, _, _,
    ⟨storedVersion_eq_ok.mpr ⟨by omega, rfl⟩, rfl⟩, (), ⟨_, hpub⟩, rfl, envelope, _,
    ⟨by rw [henvelope]; rfl, rfl⟩, (), ⟨_, hout⟩, rfl, (), ⟨_, hset⟩, ?_, rfl, rfl⟩
  unfold Database.put
  simp only [hcursor, Option.map_some, BackupPolicyPublicationCursor.settled]

/-- A due publication of publishable inputs succeeds. -/
theorem publishDue_succeeds (hk : k.Documented) (hledger : PolicyLedger k c.tables)
    {inputs : List BackupPolicyInput} (hdue : c.tables.cursor.due now = true)
    (hload : loadInputs c.tables = .ok inputs) (hvalid : ContractValid k inputs)
    (hfresh : commandId ∉ c.tables.outboxEvents.map (·.messageId))
    (hpub : Publishable c.tables inputs) :
    ∃ out c', publishDueBackupPolicy k now commandId c = .ok (out, c') := by
  have hcheck := cursor_check c.valid.checks
  have hvalid₁ := constraints_cursor c.valid hcheck
  -- The row the publication locks first; nothing else has changed.
  obtain ⟨c₁, htables⟩ : ∃ c₁ : Catalog,
      c₁.tables = c.tables.put .backupPolicyPublicationCursor (some c.tables.cursor) :=
    ⟨⟨_, hvalid₁⟩, rfl⟩
  have hcursor : c₁.tables.cursor = c.tables.cursor := by rw [htables]; rfl
  have hrow : c₁.tables.backupPolicyPublicationCursor = some c₁.tables.cursor := by
    rw [hcursor, htables]
    rfl
  have hload₁ : loadInputs c₁.tables = .ok inputs := by
    rw [← hload]
    exact (sameInputs_of_eq (by rw [htables]; rfl) (by rw [htables]; rfl)).loadInputs_eq
  have hledger₁ : PolicyLedger k c₁.tables :=
    hledger.mono hk (marked_of_cursor hcursor) (by rw [htables]; rfl)
      (commandsKept_of_eq (by rw [htables]; rfl))
  suffices hrest : ∃ out c', (if c₁.tables.cursor.lastFingerprint = some (fingerprint inputs) then do
      settle c₁.tables.cursor.dirtyGeneration c₁.tables.cursor.lastPolicyVersion (fingerprint inputs)
      pure .unchanged
      else publishVersion k now commandId c₁.tables.cursor inputs) c₁ = .ok (out, c') by
    obtain ⟨out, c', hout⟩ := hrest
    refine ⟨out, c', ?_⟩
    simp only [publishDueBackupPolicy, Tx.bind_eq_ok, write_eq_ok, fetchOne_eq_ok]
    refine ⟨(), c₁, htables, c₁.tables.cursor, c₁, ⟨hrow, rfl⟩, ?_⟩
    rw [if_pos (hcursor ▸ hdue)]
    exact Tx.bind_eq_ok.mpr ⟨inputs, c₁, attempt_eq_ok.mpr ⟨hload₁, rfl⟩, hout⟩
  split
  · have hcheck₁ := cursor_check c₁.valid.checks
    have hfits : fitsBigint c₁.tables.cursor.lastPolicyVersion = true := by
      simp only [BackupPolicyPublicationCursor.check, Bool.and_eq_true] at hcheck₁
      exact hcheck₁.2
    have hset := constraints_cursor c₁.valid (settled_check hcheck₁ hfits (fingerprint inputs))
    refine ⟨.unchanged, ⟨_, hset⟩, ?_⟩
    simp only [settle, Tx.bind_eq_ok, write_eq_ok, Tx.pure_eq_ok]
    refine ⟨(), ⟨_, hset⟩, ?_, trivial, rfl⟩
    simp only [hrow, Option.map_some, BackupPolicyPublicationCursor.settled]
  · next hne =>
    rcases hpub with hlast | ⟨hnew, hbound⟩
    · exact absurd (hcursor ▸ hlast) hne
    · apply publishVersion_succeeds hk hledger₁ hvalid
      · rw [htables]
        exact hfresh
      · rw [htables]
        exact hnew
      · rw [hcursor]
        exact hbound
      · exact hrow

end success

/-! ### The document in force -/

/-- The document lists exactly the inputs: one entry each, in the document's own order. -/
def DesiredBackupPolicy.Lists (k : Contracts) (policy : DesiredBackupPolicy)
    (inputs : List BackupPolicyInput) : Prop :=
  ∃ entries, inputs.mapM (toEntry k) = .ok entries ∧ policy.repositories.Perm entries

/-- The publication of the highest version, and the command carrying it, list exactly the inputs. -/
def Current (k : Contracts) (db : Database) (inputs : List BackupPolicyInput) : Prop :=
  ∃ p ∈ db.backupPolicyPublications,
    (∀ q ∈ db.backupPolicyPublications, q.policyVersion ≤ p.policyVersion) ∧
    ∃ policy : DesiredBackupPolicy, p.document = k.policyValue policy ∧ policy.Lists k inputs ∧
      ∃ e ∈ db.outboxEvents, e.subject = .backupPolicyApply ∧
        ∃ producedAt, k.applyEnvelope e.messageId producedAt policy = some e.payload

theorem mapM_ok_mem {α β ε : Type} {f : α → Except ε β} {xs : List α} {ys : List β}
    (h : xs.mapM f = .ok ys) : ∀ y ∈ ys, ∃ x ∈ xs, f x = .ok y := by
  induction xs generalizing ys with
  | nil =>
    cases h
    simp
  | cons x xs ih =>
    rw [List.mapM_cons] at h
    cases hx : f x with
    | error e =>
      rw [hx] at h
      cases h
    | ok y =>
      cases hxs : xs.mapM f with
      | error e =>
        rw [hx, hxs] at h
        cases h
      | ok zs =>
        rw [hx, hxs] at h
        cases h
        intro z hz
        rcases List.mem_cons.mp hz with rfl | hz
        · exact ⟨x, List.mem_cons_self, hx⟩
        · obtain ⟨x', hx', hf⟩ := ih hxs z hz
          exact ⟨x', List.mem_cons_of_mem _ hx', hf⟩

/-- Every loaded input is included. -/
theorem included_of_loadInputs {db : Database} {inputs : List BackupPolicyInput}
    (h : loadInputs db = .ok inputs) : ∀ i ∈ inputs, i.included = true := by
  intro i hi
  obtain ⟨r, -, hr⟩ := mapM_ok_mem h i hi
  unfold policyInput at hr
  simp only [bind, Except.bind, pure, Except.pure] at hr
  split at hr
  · cases hr
  · split at hr
    · cases hr
    · cases hr
      rfl

theorem lists_of_derive {k : Contracts} {version : ℕ} {producedAt : Time}
    {inputs : List BackupPolicyInput} {policy : DesiredBackupPolicy}
    (hderive : deriveBackupPolicy k version producedAt inputs = .ok policy)
    (hincluded : ∀ i ∈ inputs, i.included = true) : policy.Lists k inputs := by
  rw [deriveBackupPolicy, List.filter_eq_self.mpr hincluded] at hderive
  cases hentries : inputs.mapM (toEntry k) with
  | error e =>
    rw [hentries] at hderive
    cases hderive
  | ok entries =>
    rw [hentries] at hderive
    simp only [bind, Except.bind] at hderive
    split at hderive
    · split at hderive
      · cases hderive
        exact ⟨entries, hentries, List.perm_insertionSort _ _⟩
      · cases hderive
    · cases hderive

/-- The last publication is current when the inputs have its fingerprint. -/
theorem PolicyLedger.current {k : Contracts} {db : Database} (h : PolicyLedger k db)
    {inputs : List BackupPolicyInput} (hload : loadInputs db = .ok inputs)
    (hlast : db.cursor.lastFingerprint = some (fingerprint inputs)) : Current k db inputs := by
  obtain ⟨p, hp, hversion, hfp⟩ := h.last _ hlast
  obtain ⟨inputs', policy, version, producedAt, -, hfp', hderive, hdoc, e, he, hsubject,
    henvelope⟩ := h.recorded p hp
  have hinputs : inputs' = inputs := fingerprint_injective (hfp'.symm.trans hfp)
  subst hinputs
  refine ⟨p, hp, ?_, policy, hdoc, lists_of_derive hderive (included_of_loadInputs hload), e, he,
    hsubject, producedAt, henvelope⟩
  intro q hq
  rw [hversion]
  exact h.bounded q hq

/-- **When a due publication leaves a current document.**  In every reachable catalog a due
publication of contract-valid inputs succeeds with a current document exactly when the inputs are
the last published ones, or carry a fingerprint no earlier publication has. -/
theorem publishDue_current_iff (k : Contracts) (hk : k.Documented) (c : Catalog)
    (hc : Reachable k c) (now : Time) (commandId : Uuid) (inputs : List BackupPolicyInput)
    (hdue : c.tables.cursor.due now = true) (hload : loadInputs c.tables = .ok inputs)
    (hvalid : ContractValid k inputs)
    (hfresh : commandId ∉ c.tables.outboxEvents.map (·.messageId)) :
    (∃ out c', publishDueBackupPolicy k now commandId c = .ok (out, c') ∧
      loadInputs c'.tables = .ok inputs ∧ Current k c'.tables inputs) ↔
      Publishable c.tables inputs := by
  have hledger := policyLedger_of_reachable hk hc
  constructor
  · rintro ⟨out, c', hok, -, -⟩
    rcases publishDue_cases hok with ⟨hpending, -⟩ | ⟨-, inputs', hload', ⟨hlast, -⟩ | hnew⟩
    · rw [hdue] at hpending
      cases hpending
    · rw [hload] at hload'
      cases hload'
      exact .inl hlast
    · obtain ⟨-, last, policy, envelope, hversion, -, hbound, -, hstate⟩ := hnew
      rw [hload] at hload'
      cases hload'
      refine .inr ⟨?_, by omega⟩
      have hunique := c'.valid.keys.publications_fingerprint
      rw [hstate] at hunique
      exact hunique.not_mem_of_append
  · intro hpub
    obtain ⟨out, c', hok⟩ := publishDue_succeeds hk hledger hdue hload hvalid hfresh hpub
    have hreach : Reachable k c' := by
      obtain ⟨history, rfl⟩ := hc
      refine ⟨history ++ [.publishDue now commandId], ?_⟩
      rw [Runs.runFrom_append]
      exact Tx.commit_of_ok hok
    have hsame : loadInputs c'.tables = .ok inputs := by
      rw [← hload]
      have hframe := touches_publishDueBackupPolicy k now commandId
      exact (sameInputs_of_eq (hframe.rows_eq hok (t := .backupPolicies) (by decide))
        (hframe.rows_eq hok (t := .repositories) (by decide))).loadInputs_eq
    refine ⟨out, c', hok, hsame, (policyLedger_of_reachable hk hreach).current hsame ?_⟩
    rcases publishDue_cases hok with ⟨hpending, -⟩ | ⟨-, inputs', hload', ⟨-, hstate⟩ | hnew⟩
    · rw [hdue] at hpending
      cases hpending
    · rw [hload] at hload'
      cases hload'
      rw [hstate]
      rfl
    · obtain ⟨-, last, policy, envelope, -, -, -, -, hstate⟩ := hnew
      rw [hload] at hload'
      cases hload'
      rw [hstate]
      rfl

/-! ### Returning to an earlier desired state -/

/-- One tracked repository as a policy input. -/
def trackedInput : BackupPolicyInput :=
  ⟨"repository:00000000-0000-0000-0000-000000000001", true, "daily", "standard", none, []⟩

theorem contractValid_trackedInput : ContractValid sampleContracts [trackedInput] where
  derives := fun _ _ _ => ⟨_, rfl⟩
  sends := fun _ _ _ _ _ => ⟨_, rfl⟩

/-- The catalog after tracking one repository. -/
def trackedCatalog : Catalog :=
  Runs.runFrom (step sampleContracts) emptyCatalog [.trackRepository 1 0 101]

theorem publishDue_current_iff_tracked :
    (∃ out c', publishDueBackupPolicy sampleContracts 60000000 10 trackedCatalog = .ok (out, c') ∧
      loadInputs c'.tables = .ok [trackedInput] ∧
      Current sampleContracts c'.tables [trackedInput]) ↔
      Publishable trackedCatalog.tables [trackedInput] := by
  apply publishDue_current_iff sampleContracts sampleContracts_documented trackedCatalog
  · exact ⟨_, rfl⟩
  · decide +kernel
  · decide +kernel
  · exact contractValid_trackedInput
  · decide +kernel

/-- The repository is tracked and published, then ignored and published, then tracked again. -/
def returningHistory : List Operation :=
  [.trackRepository 1 0 101, .publishDue 60000000 10,
    .setRepositoryMode (fun n => 20 + BitVec.ofNat 128 n) 60000000 ⟨1, "user", .web⟩ 101 .ignored
      "key-1",
    .publishDue 120000000 11, .trackRepository 2 120000000 101]

/-- **Returning to an earlier desired state is never published**: the old fingerprint is still in
the table, and the publication fails on its unique index. -/
theorem publishDue_returning :
    ∃ c, Reachable sampleContracts c ∧ c.tables.cursor.due 180000000 = true ∧
      loadInputs c.tables = .ok [trackedInput] ∧ ContractValid sampleContracts [trackedInput] ∧
      12 ∉ c.tables.outboxEvents.map (·.messageId) ∧
      ¬ ∃ out c', publishDueBackupPolicy sampleContracts 180000000 12 c = .ok (out, c') := by
  refine ⟨Runs.runFrom (step sampleContracts) emptyCatalog returningHistory, ⟨_, rfl⟩, ?_, ?_,
    contractValid_trackedInput, ?_, ?_⟩
  · decide +kernel
  · decide +kernel
  · decide +kernel
  · have hfails : (publishDueBackupPolicy sampleContracts 180000000 12).succeeds
        (Runs.runFrom (step sampleContracts) emptyCatalog returningHistory) = false := by
      decide +kernel
    rintro ⟨out, c', hok⟩
    rw [Tx.succeeds, hok] at hfails
    cases hfails

end GithubCatalog
