import GithubCatalog.ActionReplay
import Mathlib.Data.List.TakeWhile

/-!
# What an answered fault leaves behind

A request that was granted execution and then answers an `ApiFault` returns before
`complete_action`, so its attempt stays in progress and no later statement of the service completes
or deletes it: the identical request is refused from then on.

* `ActionEnvironment.serves` - the calls whose failure makes the execution a fault, answered;
* `executeAction_isOk` - an execution of a valid target is a fault exactly when they are not;
* `Unfinished` - a granted request that has not recorded its result has its attempt in progress;
* `resubmission_conflicts_iff` - the identical request, at any later time.
-/

namespace GithubCatalog

open Relational Runs Transact

/-! ### Which executions end in a fault -/

/-- `star_account_id` and the two reads of the catalog whose failure is a fault: the account row of a
star, and the connected accounts unless the star is refused. -/
def ActionEnvironment.serves (p : ActionContracts) (env : ActionEnvironment)
    (request : RepositoryActionRequest) : Bool :=
  if request.mode = .star then
    (starAccountId p request).isOk && env.starAccount.any fun account =>
      (refusalOf env.credentialKey account).isSome || env.connectedAccounts.isSome
  else env.connectedAccounts.isSome

theorem toLower_eq_slash {c : Char} (h : c.toLower = '/') : c = '/' := by
  unfold Char.toLower at h
  split at h
  · next hupper =>
    have hval : c.val + 32 = '/'.val := congrArg Char.val h
    have hge := hupper.1
    have hle := hupper.2
    simp only [UInt32.le_iff_toNat_le] at hge hle
    have hnat := congrArg UInt32.toNat hval
    rw [UInt32.toNat_add] at hnat
    simp at hnat hge hle
    omega
  · exact h

/-- A name that is spelled like `owner/name` has a separator. -/
theorem splitOnce_of_eqIgnoreAsciiCase {text owner name : String}
    (h : eqIgnoreAsciiCase text (owner ++ "/" ++ name) = true) :
    ∃ parts, splitOnce '/' text = some parts := by
  have hlower := of_decide_eq_true h
  have hmem : '/' ∈ text.toList := by
    have hslash : '/' ∈ (owner ++ "/" ++ name).toList.map Char.toLower := by
      rw [String.toList_append, String.toList_append]
      simp only [List.map_append, List.mem_append]
      exact .inl (.inr (by decide))
    rw [← hlower] at hslash
    obtain ⟨c, hc, hlow⟩ := List.mem_map.mp hslash
    exact toLower_eq_slash hlow ▸ hc
  unfold splitOnce
  cases hdrop : text.toList.dropWhile (· ≠ '/') with
  | cons c rest => exact ⟨_, rfl⟩
  | nil =>
    have hall := List.dropWhile_eq_nil_iff.mp hdrop '/' hmem
    simp at hall

/-- A validated target parses wherever the execution parses it again. -/
theorem validated_parts {request : RepositoryActionRequest}
    (h : validateActionTarget request = .ok ()) :
    (∃ parts, repositoryParts request.canonicalUrl = .ok parts) ∧
      ∃ parts, splitOnce '/' request.repositoryFullName = some parts := by
  unfold validateActionTarget at h
  cases hparts : repositoryParts request.canonicalUrl with
  | error fault =>
    rw [hparts] at h
    cases h
  | ok parts =>
    rw [hparts] at h
    refine ⟨⟨parts, rfl⟩, ?_⟩
    by_cases hname : eqIgnoreAsciiCase request.repositoryFullName (parts.1 ++ "/" ++ parts.2) = true
    · exact splitOnce_of_eqIgnoreAsciiCase hname
    · have herror : (if eqIgnoreAsciiCase request.repositoryFullName
          (parts.1 ++ "/" ++ parts.2) = true then Except.ok () else
          Except.error ApiFault.invalidRequest) = Except.ok () := h
      rw [if_neg hname] at herror
      cases herror

section execution

variable {p : ActionContracts} {env : ActionEnvironment} {request : RepositoryActionRequest}

theorem executeStarAction_isOk {parts : String × String} {accountId : Uuid}
    (hname : splitOnce '/' request.repositoryFullName = some parts)
    (haccount : starAccountId p request = .ok accountId) (metadata : MetadataOutcome) :
    (executeStarAction p env request metadata).isOk = true := by
  unfold executeStarAction
  rw [haccount, hname]
  show (if _ then _ else _ : Except ApiFault RepositoryActionResult).isOk = true
  split
  · rfl
  · cases env.mutation with
    | ok status => cases status <;> rfl
    | error fault => cases fault <;> rfl

theorem finishCatalogAction_isOk {parts : String × String}
    (hname : splitOnce '/' request.repositoryFullName = some parts)
    (haccount : request.mode = .star → ∃ accountId, starAccountId p request = .ok accountId)
    (metadata : MetadataOutcome) : (finishCatalogAction p env request metadata).isOk = true := by
  unfold finishCatalogAction
  cases hmode : request.mode with
  | metadata => rfl
  | track => rfl
  | star =>
    obtain ⟨accountId, haccount⟩ := haccount hmode
    exact executeStarAction_isOk hname haccount metadata

theorem recordCatalogAction_isOk {userId : Uuid} {parts names : String × String}
    (hparts : repositoryParts request.canonicalUrl = .ok parts)
    (hname : splitOnce '/' request.repositoryFullName = some names)
    (haccount : request.mode = .star → ∃ accountId, starAccountId p request = .ok accountId) :
    (recordCatalogAction p env userId request).isOk = true := by
  have hfinish : ∀ metadata, (finishCatalogAction p env request metadata).isOk = true :=
    finishCatalogAction_isOk hname haccount
  unfold recordCatalogAction
  split
  · rfl
  · split
    · rfl
    · rw [hparts]
      show (if _ then _ else _ : Except ApiFault RepositoryActionResult).isOk = true
      rw [if_neg (by rw [p.tenantRef_userRef]; simp)]
      cases env.recorded with
      | ok outcome =>
        cases outcome with
        | created => exact hfinish _
        | updated => exact hfinish _
        | unchanged => exact hfinish _
      | error fault => cases fault <;> rfl

theorem eligibleAccount_eq {accounts : List (Uuid × List String)}
    (h : env.connectedAccounts = some accounts) :
    ∃ account, eligibleAccount env = .ok account := by
  rw [eligibleAccount, h]
  cases accounts with
  | nil => exact ⟨_, rfl⟩
  | cons account rest =>
    cases rest with
    | nil => exact ⟨_, rfl⟩
    | cons other more => exact ⟨_, rfl⟩

/-- The fetch is a fault exactly when the connected accounts could not be read. -/
theorem fetchActionMetadata_isOk {parts : String × String}
    (hparts : repositoryParts request.canonicalUrl = .ok parts) :
    (fetchActionMetadata env request).isOk = env.connectedAccounts.isSome := by
  unfold fetchActionMetadata
  cases haccounts : env.connectedAccounts with
  | none =>
    have hread : eligibleAccount env = .error .persistence := by rw [eligibleAccount, haccounts]
    rw [hread]
    rfl
  | some accounts =>
    obtain ⟨account, hread⟩ := eligibleAccount_eq haccounts
    rw [hread, hparts]
    show (if _ then _ else _ : Except ApiFault _).isOk = true
    split
    · rfl
    · cases env.fetched with
      | none => rfl
      | some reply =>
        cases reply with
        | none => rfl
        | some body =>
          show (if _ then _ else _ : Except ApiFault _).isOk = true
          split
          · rfl
          · rfl

/-- The catalog part is a fault exactly when the connected accounts could not be read. -/
theorem executeCatalogAction_isOk {userId : Uuid} (hvalid : validateActionTarget request = .ok ())
    (haccount : request.mode = .star → ∃ accountId, starAccountId p request = .ok accountId) :
    (executeCatalogAction p env userId request).isOk = env.connectedAccounts.isSome := by
  obtain ⟨⟨parts, hparts⟩, ⟨names, hname⟩⟩ := validated_parts hvalid
  have hfetch : (fetchActionMetadata env request).isOk = env.connectedAccounts.isSome :=
    fetchActionMetadata_isOk hparts
  have hrecord : (recordCatalogAction p env userId request).isOk = true :=
    recordCatalogAction_isOk hparts hname haccount
  unfold executeCatalogAction
  cases hfetched : fetchActionMetadata env request with
  | error fault =>
    rw [hfetched] at hfetch
    exact hfetch
  | ok fetched =>
    rw [hfetched] at hfetch
    rw [← hfetch]
    cases fetched with
    | error result => rfl
    | ok body => exact hrecord

/-- **The faults of an execution.**  The execution of a valid target ends in a fault exactly when the
account reference of a star is malformed or one of the two account reads fails. -/
theorem executeAction_isOk {userId : Uuid} (hvalid : validateActionTarget request = .ok ()) :
    (executeAction p env userId request).isOk = env.serves p request := by
  unfold executeAction ActionEnvironment.serves
  by_cases hmode : request.mode = .star
  · rw [if_pos hmode, if_pos hmode]
    unfold starRefusal
    cases haccount : starAccountId p request with
    | error fault => rfl
    | ok accountId =>
      cases env.starAccount with
      | none => rfl
      | some account =>
        show _ = ((refusalOf env.credentialKey account).isSome || env.connectedAccounts.isSome)
        cases hrefusal : refusalOf env.credentialKey account with
        | some reason =>
          simp only [bind, Except.bind, hrefusal]
          rfl
        | none =>
          simp only [bind, Except.bind, hrefusal]
          exact executeCatalogAction_isOk hvalid fun _ => ⟨accountId, haccount⟩
  · rw [if_neg hmode, if_neg hmode]
    exact executeCatalogAction_isOk hvalid fun h => absurd h hmode

end execution

/-! ### Attempts in progress -/

namespace ActionPhase

/-- The target passed validation. -/
def validated : ActionPhase → Bool
  | claim | lookup | executing | completing _ | answered true _ => true
  | _ => false

/-- Granted, with no result recorded or about to be. -/
def unrecorded : ActionPhase → Bool
  | executing | answered true (.error _) => true
  | _ => false

end ActionPhase

namespace ActionCall

variable {p : ActionContracts} {i : ActionInput} {c : Catalog} {call : ActionCall}

/-- The request has not run its completing statement. -/
def opens (call : ActionCall) : Bool :=
  match call.phase with
  | .completing _ => !call.stopped
  | phase => phase.unrecorded

theorem opens_of_unrecorded (h : call.phase.unrecorded = true) : call.opens = true := by
  unfold opens
  cases hphase : call.phase with
  | completing result =>
    rw [hphase] at h
    cases h
  | _ =>
    rw [hphase] at h
    exact h

theorem opens_cases (h : call.opens = true) : call.phase.unrecorded = true ∨
    (∃ result, call.phase = .completing result) ∧ call.stopped = false := by
  unfold opens at h
  cases hphase : call.phase with
  | completing result =>
    simp only [hphase] at h
    exact .inr ⟨⟨result, rfl⟩, by simpa using h⟩
  | _ =>
    simp only [hphase] at h
    exact .inl h

theorem granted_of_opens (h : call.opens = true) : call.phase.granted = true := by
  rcases opens_cases h with hphase | ⟨⟨result, hphase⟩, -⟩
  · cases hcase : call.phase with
    | executing => rfl
    | answered granted reply =>
      rw [hcase] at hphase
      cases granted with
      | true => rfl
      | false => cases hphase
    | _ =>
      rw [hcase] at hphase
      cases hphase
  · rw [hphase]
    rfl

theorem Turn.validated_cases {phase next : ActionPhase} {c' : Catalog}
    (h : Turn p i c call phase next c') (hnext : next.validated = true) :
    phase.validated = true ∨ validateActionTarget call.request = .ok () := by
  cases h with
  | validated hvalid => exact .inr hvalid
  | rejected | unclaimed | unacknowledged | replayed | unread => cases hnext
  | done => exact .inl hnext
  | _ => exact .inl rfl

/-- Only the completing statement and the insertion write. -/
theorem Turn.store_eq {phase next : ActionPhase} {c' : Catalog}
    (h : Turn p i c call phase next c') (hphase : phase.unrecorded = true) : c' = c := by
  cases h with
  | executed | faulted | done => rfl
  | _ => cases hphase

/-- A request comes to hold an attempt in progress by its insertion, and then executes. -/
theorem Turn.unrecorded_cases {phase next : ActionPhase} {c' : Catalog}
    (h : Turn p i c call phase next c')
    (hnext : next.unrecorded = true ∨ ∃ result, next = .completing result) :
    phase.unrecorded = true ∨ call.Inserted c c' := by
  cases h with
  | granted _ hins => exact .inr hins
  | executed | faulted => exact .inl rfl
  | done =>
    rcases hnext with hnext | ⟨result, hnext⟩
    · exact .inl hnext
    · cases hnext
  | _ =>
    rcases hnext with hnext | ⟨result, hnext⟩
    · cases hnext
    · cases hnext

/-- An attempt stays as it is, unless the step is the completing statement of its request. -/
theorem attempt_next {a : RepositoryActionAttempt} (ha : a ∈ c.tables.repositoryActionAttempts) :
    a ∈ (call.next p i c).2.tables.repositoryActionAttempts ∨
      ((∃ result, call.phase = .completing result) ∧ call.Holds a) := by
  rcases call.next_store p i c with hstore | hstore
  · rw [hstore]
    exact .inl ha
  · rw [hstore]
    rcases (call.turn p i c).attempts with hsame | ⟨-, hins⟩ | ⟨result, hphase, hrec⟩
    · rw [hsame]
      exact .inl ha
    · rw [hins]
      exact .inl (List.mem_append_left _ ha)
    · by_cases hcompletes : call.completes a = true
      · exact .inr ⟨⟨result, hphase⟩, (completes_iff.mp hcompletes).1⟩
      · left
        rw [hrec]
        exact mem_updateWhere.mpr ⟨a, ha, if_neg hcompletes⟩

end ActionCall

/-- The invariant of the claims: a request past validation is valid, and one that has not run its
completing statement has its attempt in progress. -/
structure Unfinished (s : ActionSystem) : Prop where
  valid : ∀ call ∈ s.calls, call.phase.validated = true →
    validateActionTarget call.request = .ok ()
  inProgress : ∀ call ∈ s.calls, call.opens = true →
    ∃ a ∈ s.attempts, call.Holds a ∧ a.status = .inProgress

namespace Unfinished

variable {p : ActionContracts} {k : Contracts} {start : List RepositoryActionAttempt}
  {s : ActionSystem}

theorem arrived (h : s.Arrived) : Unfinished s where
  valid call hcall hvalid := by
    rw [h call hcall] at hvalid
    cases hvalid
  inProgress call hcall hopen := by
    rw [ActionCall.opens, h call hcall] at hopen
    cases hopen

/-- The request's own step. -/
theorem inProgress_next (h : Unfinished s) {call : ActionCall} (hcall : call ∈ s.calls)
    (i : ActionInput) (hopen : (call.next p i s.catalog).1.opens = true) :
    ∃ a ∈ (call.next p i s.catalog).2.tables.repositoryActionAttempts,
      call.Holds a ∧ a.status = .inProgress := by
  have hturn := call.turn p i s.catalog
  unfold ActionCall.next at hopen ⊢
  split at hopen
  · next hstopped =>
    rw [if_pos hstopped]
    exact h.inProgress call hcall hopen
  · next hlive =>
    rw [if_neg hlive]
    split at hopen
    · next hcrash =>
      -- A process that stops here has its attempt open only while it executes.
      rw [if_pos hcrash]
      have hphase : call.phase.unrecorded = true := by
        rcases ActionCall.opens_cases hopen with hphase | ⟨-, hstopped⟩
        · exact hphase
        · cases hstopped
      show ∃ a ∈ (call.step p i s.catalog).2.tables.repositoryActionAttempts, _
      rw [hturn.store_eq hphase]
      exact h.inProgress call hcall (ActionCall.opens_of_unrecorded hphase)
    · next hcrash =>
      rw [if_neg hcrash]
      have hnext : (call.step p i s.catalog).1.unrecorded = true ∨
          ∃ result, (call.step p i s.catalog).1 = .completing result := by
        rcases ActionCall.opens_cases hopen with hnext | ⟨hnext, -⟩
        · exact .inl hnext
        · exact .inr hnext
      show ∃ a ∈ (call.step p i s.catalog).2.tables.repositoryActionAttempts, _
      rcases hturn.unrecorded_cases hnext with hphase | ⟨-, hins⟩
      · rw [hturn.store_eq hphase]
        exact h.inProgress call hcall (ActionCall.opens_of_unrecorded hphase)
      · rw [hins]
        exact ⟨_, List.mem_append_right _ List.mem_cons_self, ⟨rfl, rfl, rfl⟩, rfl⟩

/-- **One event keeps the attempts of unfinished requests in progress.**  The completing statement of
another request has another key, because one request per key is granted. -/
theorem step (h : Unfinished s) (hreplays : Replays p start s) (e : ActionEvent)
    (he : e.sparesAttempts = true) : Unfinished (s.step p k e) := by
  cases e with
  | catalog op =>
    have hsame : (s.step p k (.catalog op)).attempts = s.attempts :=
      ActionSystem.attempts_catalog p k s he
    exact ⟨h.valid, hsame ▸ h.inProgress⟩
  | call n i =>
    cases hcall : s.calls[n]? with
    | none =>
      rw [ActionSystem.step_call_none p k hcall]
      exact h
    | some call =>
      have hmem : call ∈ s.calls := List.mem_of_getElem? hcall
      rw [ActionSystem.step_call_some p k hcall]
      refine ⟨?_, ?_⟩
      · intro call₀ hcall₀ hvalid
        rcases List.mem_or_eq_of_mem_set hcall₀ with hold | rfl
        · exact h.valid call₀ hold hvalid
        · rw [(call.next_request p i s.catalog).1]
          rcases call.next_phase p i s.catalog with hsame | ⟨hstep, -⟩
          · exact h.valid call hmem (hsame ▸ hvalid)
          · rcases (call.turn p i s.catalog).validated_cases (hstep ▸ hvalid) with hbefore | hok
            · exact h.valid call hmem hbefore
            · exact hok
      · intro call₀ hcall₀ hopen
        obtain ⟨m, hm⟩ := List.mem_iff_getElem?.mp hcall₀
        by_cases hmn : n = m
        · subst hmn
          have hlt : n < s.calls.length := (List.getElem?_eq_some_iff.mp hcall).1
          rw [List.getElem?_set_self hlt] at hm
          obtain rfl := Option.some.inj hm
          obtain ⟨a, ha, hholds, hstatus⟩ := h.inProgress_next hmem i hopen
          exact ⟨a, ha, ActionCall.holds_next.mpr hholds, hstatus⟩
        · rw [List.getElem?_set_ne hmn] at hm
          obtain ⟨a, ha, hholds, hstatus⟩ := h.inProgress call₀ (List.mem_of_getElem? hm) hopen
          rcases @ActionCall.attempt_next p i s.catalog call a ha with
            hkept | ⟨⟨result, hphase⟩, hholds'⟩
          · exact ⟨a, hkept, hholds, hstatus⟩
          · have hkey := hholds'.key.symm.trans hholds.key
            exact absurd (hreplays.single n m call call₀ hcall hm hkey (by rw [hphase]; rfl)
              (ActionCall.granted_of_opens hopen)) hmn

theorem run (h : Unfinished s) (hreplays : Replays p start s) (events : List ActionEvent)
    (hevents : ∀ e ∈ events, e.sparesAttempts = true) :
    Unfinished (runFrom (ActionSystem.step p k) s events) := by
  induction events generalizing s with
  | nil => exact h
  | cons e events ih =>
    have he := hevents e List.mem_cons_self
    exact ih (h.step hreplays e he) (hreplays.step e he)
      fun e' he' => hevents e' (List.mem_cons_of_mem _ he')

end Unfinished

/-! ### The completing statement -/

/-- The completed row passes its checks. -/
theorem constraints_recorded {db : Database} (h : Constraints db) (call : ActionCall) (now : Time)
    {value : Jsonb} (hvalue : value.isObject = true) :
    Constraints (db.put .repositoryActionAttempts
      (updateWhere call.completes (ActionCall.record now value) db.repositoryActionAttempts)) where
  keys :=
    { h.keys with
      attempts := by
        show UniqueOn _ (updateWhere _ _ _)
        rw [UniqueOn, map_updateWhere]
        · exact h.keys.attempts
        · exact fun _ => rfl
      attempts_key := by
        show UniqueOn _ (updateWhere _ _ _)
        rw [UniqueOn, map_updateWhere]
        · exact h.keys.attempts_key
        · exact fun _ => rfl }
  checks :=
    { h.checks with
      attempts := by
        refine forall_updateWhere h.checks.attempts ?_
        intro a ha _
        have hcheck := h.checks.attempts a ha
        simp only [RepositoryActionAttempt.check, Bool.and_eq_true] at hcheck ⊢
        obtain ⟨⟨⟨⟨⟨huser, hid⟩, hbody⟩, -⟩, -⟩, -⟩ := hcheck
        exact ⟨⟨⟨⟨⟨huser, hid⟩, hbody⟩, hvalue⟩, rfl⟩, rfl⟩ }
  foreignKeys := { h.foreignKeys with runs_account := h.foreignKeys.runs_account }

/-- An attempt in progress can be completed. -/
theorem completeAction_of_open {c : Catalog} {call : ActionCall} {a : RepositoryActionAttempt}
    (ha : a ∈ c.tables.repositoryActionAttempts) (hholds : call.Holds a)
    (hstatus : a.status = .inProgress) (now : Time) {value : Jsonb}
    (hvalue : value.isObject = true) :
    ∃ c', completeAction now call.ownerRef call.request value c = .ok ((), c') ∧
      call.Recorded now value c c' := by
  have hany : c.tables.repositoryActionAttempts.any call.completes = true :=
    List.any_eq_true.mpr ⟨a, ha, ActionCall.completes_iff.mpr ⟨hholds, hstatus⟩⟩
  refine ⟨⟨_, constraints_recorded c.valid call now hvalue⟩, ?_, rfl⟩
  have hrequire : require (.query .rowNotFound) (fun db =>
      db.repositoryActionAttempts.any call.completes) c = .ok ((), c) :=
    require_eq_ok.mpr ⟨hany, rfl⟩
  exact (Tx.bind_of_ok hrequire).trans (write_of_valid (constraints_recorded c.valid call now hvalue))

/-- A completing statement that is not rolled back takes effect. -/
theorem completed_of_open {c : Catalog} {call : ActionCall} {a : RepositoryActionAttempt}
    (ha : a ∈ c.tables.repositoryActionAttempts) (hholds : call.Holds a)
    (hstatus : a.status = .inProgress) (now : Time) {value : Jsonb}
    (hvalue : value.isObject = true) {fate : Fate} (hfate : fate ≠ .rolledBack) :
    ActionCall.record now value a ∈
      (fate.run (completeAction now call.ownerRef call.request value) c).2.tables.repositoryActionAttempts := by
  obtain ⟨c', hok, hrec⟩ := completeAction_of_open ha hholds hstatus now hvalue
  have hstore : (fate.run (completeAction now call.ownerRef call.request value) c).2 = c' := by
    unfold Fate.run
    rw [hok]
    cases fate with
    | served => rfl
    | unacknowledged => rfl
    | rolledBack => exact absurd rfl hfate
  rw [hstore, hrec]
  exact mem_updateWhere.mpr ⟨a, ha, if_pos (ActionCall.completes_iff.mpr ⟨hholds, hstatus⟩)⟩

/-! ### The identical request, later -/

/-- The identical request arrives alone and nothing fails: its first three steps. -/
def resubmit (p : ActionContracts) (env : ActionEnvironment) (userId : Uuid)
    (request : RepositoryActionRequest) (c : Catalog) : ActionPhase :=
  let input : ActionInput := ⟨0, .served, false, env⟩
  let validated := ActionCall.next p input c ⟨userId, request, .received, false⟩
  let claimed := validated.1.next p input validated.2
  (claimed.1.next p input claimed.2).1.phase

/-- A held key is looked up. -/
theorem resubmit_of_held {p : ActionContracts} (env : ActionEnvironment) {call : ActionCall}
    {c : Catalog} (hvalid : validateActionTarget call.request = .ok ())
    {a : RepositoryActionAttempt} (ha : a ∈ c.tables.repositoryActionAttempts)
    (hholds : call.Holds a) :
    resubmit p env call.userId call.request c =
      .answered false (ActionCall.replied p (existingClaim call.ownerRef call.request c.tables)) := by
  have hheld : keyHeld call.request.idempotencyKey c.tables = true :=
    List.any_eq_true.mpr ⟨a, ha, decide_eq_true hholds.key⟩
  have hinsert := @insertAttempt_of_held call.ownerRef call.request c hheld
  have hrun : Fate.served.run (insertAttempt call.ownerRef call.request) c = (.ok false, c) := by
    unfold Fate.run
    rw [hinsert]
  have hfirst : ActionCall.next p ⟨0, .served, false, env⟩ c
      ⟨call.userId, call.request, .received, false⟩ =
        (⟨call.userId, call.request, .claim, false⟩, c) := by
    simp only [ActionCall.next, ActionCall.step, hvalid, Bool.false_eq_true, if_false]
  have hsecond : ActionCall.next p ⟨0, .served, false, env⟩ c
      ⟨call.userId, call.request, .claim, false⟩ =
        (⟨call.userId, call.request, .lookup, false⟩, c) := by
    have hrun' : Fate.served.run (insertAttempt (ActionCall.ownerRef
        ⟨call.userId, call.request, .claim, false⟩) call.request) c = (.ok false, c) := hrun
    simp only [ActionCall.next, ActionCall.step, hrun', Bool.false_eq_true, if_false]
  unfold resubmit
  simp only [hfirst, hsecond]
  rfl

/-- The row of a key is the one the lookup finds. -/
theorem existingClaim_of_mem {c : Catalog} {call : ActionCall} {a : RepositoryActionAttempt}
    (ha : a ∈ c.tables.repositoryActionAttempts) (hholds : call.Holds a) :
    existingClaim call.ownerRef call.request c.tables =
      match a.status, a.result with
      | .completed, some result => .replay result
      | _, _ => .conflict := by
  have hfind := c.valid.keys.attempts_key.find?_eq ha
  simp only [hholds.key] at hfind
  have hsame : ¬ (a.ownerRef ≠ call.ownerRef ∨ a.requestFingerprint ≠ call.request.fingerprint) := by
    rw [not_or, not_ne_iff, not_ne_iff]
    exact ⟨hholds.owner, hholds.fingerprint⟩
  cases hstatus : a.status with
  | inProgress => simp only [existingClaim, hfind, if_neg hsame, hstatus]
  | completed =>
    cases hresult : a.result with
    | none => simp only [existingClaim, hfind, if_neg hsame, hstatus, hresult]
    | some result => simp only [existingClaim, hfind, if_neg hsame, hstatus, hresult]

theorem resubmit_of_inProgress {p : ActionContracts} (env : ActionEnvironment) {call : ActionCall}
    {c : Catalog} (hvalid : validateActionTarget call.request = .ok ())
    {a : RepositoryActionAttempt} (ha : a ∈ c.tables.repositoryActionAttempts)
    (hholds : call.Holds a) (hstatus : a.status = .inProgress) :
    resubmit p env call.userId call.request c = .answered false (.error .idempotencyConflict) := by
  rw [resubmit_of_held env hvalid ha hholds, existingClaim_of_mem ha hholds, hstatus]
  rfl

theorem resubmit_of_completed {p : ActionContracts} (env : ActionEnvironment) {call : ActionCall}
    {c : Catalog} (hvalid : validateActionTarget call.request = .ok ())
    {a : RepositoryActionAttempt} (ha : a ∈ c.tables.repositoryActionAttempts)
    (hholds : call.Holds a) (hstatus : a.status = .completed) {result : RepositoryActionResult}
    (hresult : a.result = some (p.resultValue result)) :
    resubmit p env call.userId call.request c = .answered false (.ok result) := by
  rw [resubmit_of_held env hvalid ha hholds, existingClaim_of_mem ha hholds, hstatus, hresult]
  show ActionPhase.answered false (ActionCall.replied p (.replay (p.resultValue result))) = _
  rw [ActionCall.replied_read p (p.resultOf_resultValue result)]

/-! ### Whole runs -/

section runs

variable {p : ActionContracts} {k : Contracts} {start : List RepositoryActionAttempt}
  {s : ActionSystem}

/-- An event of another request, or of the catalog. -/
def ActionEvent.notOf (n : ℕ) : ActionEvent → Bool
  | .call m _ => decide (m ≠ n)
  | .catalog _ => true

/-- A request stands still while the others move. -/
theorem call_run_of_notOf {n : ℕ} (events : List ActionEvent)
    (hevents : ∀ e ∈ events, e.notOf n = true) :
    (runFrom (ActionSystem.step p k) s events).calls[n]? = s.calls[n]? := by
  induction events generalizing s with
  | nil => rfl
  | cons e events ih =>
    have hstep : (s.step p k e).calls[n]? = s.calls[n]? := by
      cases e with
      | catalog op => rfl
      | call m i =>
        have hne : m ≠ n := of_decide_eq_true (hevents _ List.mem_cons_self)
        cases hcall : s.calls[m]? with
        | none => rw [ActionSystem.step_call_none p k hcall]
        | some call =>
          rw [ActionSystem.step_call_some p k hcall]
          exact List.getElem?_set_ne hne
    exact (ih fun e' he' => hevents e' (List.mem_cons_of_mem _ he')).trans hstep

/-- An answered request stands still. -/
theorem next_of_answered {call : ActionCall} {granted : Bool}
    {reply : Except ApiFault RepositoryActionResult} (h : call.phase = .answered granted reply)
    (hlive : call.stopped = false) {i : ActionInput} (hcrash : i.crash = false) (c : Catalog) :
    call.next p i c = (call, c) := by
  have hstep : call.step p i c = (call.phase, c) := by
    unfold ActionCall.step
    rw [h]
  unfold ActionCall.next
  rw [if_neg (by rw [hlive]; decide), if_neg (by rw [hcrash]; decide), hstep]

/-- **An attempt left in progress.**  Once its request has been granted and answered, nothing
completes the attempt any more. -/
theorem inProgress_run (hreplays : Replays p start s) {n : ℕ} {call : ActionCall}
    (hcall : s.calls[n]? = some call) {reply : Except ApiFault RepositoryActionResult}
    (hphase : call.phase = .answered true reply) {a : RepositoryActionAttempt}
    (ha : a ∈ s.attempts) (hholds : call.Holds a) (events : List ActionEvent)
    (hevents : ∀ e ∈ events, e.sparesAttempts = true) :
    a ∈ (runFrom (ActionSystem.step p k) s events).attempts := by
  induction events generalizing s call with
  | nil => exact ha
  | cons e events ih =>
    have he := hevents e List.mem_cons_self
    have hrest : ∀ e' ∈ events, e'.sparesAttempts = true := fun e' he' =>
      hevents e' (List.mem_cons_of_mem _ he')
    cases e with
    | catalog op =>
      refine ih (hreplays.step _ he) hcall hphase ?_ hholds hrest
      rw [ActionSystem.attempts_catalog p k s he]
      exact ha
    | call m i =>
      cases hother : s.calls[m]? with
      | none =>
        show a ∈ (runFrom _ (s.step p k (.call m i)) events).attempts
        rw [ActionSystem.step_call_none p k hother]
        exact ih hreplays hcall hphase ha hholds hrest
      | some other =>
        have hkept : a ∈ (s.step p k (.call m i)).attempts := by
          rw [ActionSystem.step_call_some p k hother]
          rcases @ActionCall.attempt_next p i s.catalog other a ha with
            hkept | ⟨⟨result, hcompleting⟩, hholds'⟩
          · exact hkept
          · have hkey := hholds'.key.symm.trans hholds.key
            have hmn := hreplays.single m n other call hother hcall hkey (by rw [hcompleting]; rfl)
              (by rw [hphase]; rfl)
            subst hmn
            obtain rfl := Option.some.inj (hother.symm.trans hcall)
            rw [hphase] at hcompleting
            cases hcompleting
        by_cases hmn : m = n
        · subst hmn
          obtain rfl := Option.some.inj (hother.symm.trans hcall)
          have hlt : m < s.calls.length := (List.getElem?_eq_some_iff.mp hcall).1
          have hset : (s.step p k (.call m i)).calls[m]? = some (other.next p i s.catalog).1 := by
            rw [ActionSystem.step_call_some p k hother]
            exact List.getElem?_set_self hlt
          have hanswered : (other.next p i s.catalog).1.phase = .answered true reply := by
            rcases other.next_phase p i s.catalog with hsame | ⟨hstep, -⟩
            · rw [hsame]
              exact hphase
            · rw [hstep, ActionCall.step, hphase]
          exact ih (hreplays.step _ he) hset hanswered hkept (ActionCall.holds_next.mpr hholds) hrest
        · refine ih (hreplays.step _ he) ?_ hphase hkept hholds hrest
          rw [ActionSystem.step_call_some p k hother]
          exact (List.getElem?_set_ne hmn).trans hcall

/-- The execution step of a granted request: it goes on to record a result, or answers a fault. -/
theorem next_of_executing {call : ActionCall} (hphase : call.phase = .executing)
    (hlive : call.stopped = false) (hvalid : validateActionTarget call.request = .ok ())
    {i : ActionInput} (hcrash : i.crash = false) (c : Catalog) :
    (i.env.serves p call.request = true ∧
      ∃ result, call.next p i c = ({ call with phase := .completing result }, c)) ∨
    (i.env.serves p call.request = false ∧
      ∃ fault, call.next p i c = ({ call with phase := .answered true (.error fault) }, c)) := by
  have hisOk := @executeAction_isOk p i.env call.request call.userId hvalid
  have hnext : call.next p i c = ({ call with phase := (call.step p i c).1 }, (call.step p i c).2) := by
    unfold ActionCall.next
    rw [if_neg (by rw [hlive]; decide), if_neg (by rw [hcrash]; decide)]
  rw [hnext]
  cases hexec : executeAction p i.env call.userId call.request with
  | ok result =>
    rw [hexec] at hisOk
    have hstep : call.step p i c = (.completing result, c) := by
      rw [ActionCall.step, hphase]
      simp only [hexec]
    rw [hstep]
    exact .inl ⟨hisOk.symm, result, rfl⟩
  | error fault =>
    rw [hexec] at hisOk
    have hstep : call.step p i c = (.answered true (.error fault), c) := by
      rw [ActionCall.step, hphase]
      simp only [hexec]
    rw [hstep]
    exact .inr ⟨hisOk.symm, fault, rfl⟩

/-- The completing step of a granted request. -/
theorem next_of_completing {call : ActionCall} {result : RepositoryActionResult}
    (hphase : call.phase = .completing result) (hlive : call.stopped = false) {i : ActionInput}
    (hcrash : i.crash = false) (c : Catalog) :
    call.next p i c = ({ call with phase := .answered true (.ok result) },
      (i.fate.run (completeAction i.now call.ownerRef call.request (p.resultValue result)) c).2) := by
  have hstep : call.step p i c = (.answered true (.ok result),
      (i.fate.run (completeAction i.now call.ownerRef call.request (p.resultValue result)) c).2) := by
    rw [ActionCall.step, hphase]
  unfold ActionCall.next
  rw [if_neg (by rw [hlive]; decide), if_neg (by rw [hcrash]; decide), hstep]

theorem holds_phase {call : ActionCall} {a : RepositoryActionAttempt} {phase : ActionPhase} :
    ActionCall.Holds { call with phase := phase } a ↔ call.Holds a :=
  ⟨fun h => ⟨h.key, h.owner, h.fingerprint⟩, fun h => ⟨h.key, h.owner, h.fingerprint⟩⟩

/-- **After the answer.**  From a state in which a granted request executes, let it take its execution
step and its completing step, with any events of other requests and of the catalog between and after
them.  The identical request is then refused as a conflict, or answered with the recorded result
exactly when the execution was served and the completing statement was not rolled back. -/
theorem resubmit_run (hreplays : Replays p start s) (hunfinished : Unfinished s) {n : ℕ}
    {call : ActionCall} (hcall : s.calls[n]? = some call) (hphase : call.phase = .executing)
    (hlive : call.stopped = false) {i j : ActionInput} (hi : i.crash = false) (hj : j.crash = false)
    {mid later : List ActionEvent} (hmid : ∀ e ∈ mid, e.sparesAttempts = true)
    (hothers : ∀ e ∈ mid, e.notOf n = true) (hlater : ∀ e ∈ later, e.sparesAttempts = true)
    (env : ActionEnvironment) :
    let c := (runFrom (ActionSystem.step p k) s
      (.call n i :: mid ++ .call n j :: later)).catalog
    (i.env.serves p call.request = true ∧ j.fate ≠ .rolledBack ∧
      ∃ result, resubmit p env call.userId call.request c = .answered false (.ok result)) ∨
    ((i.env.serves p call.request = false ∨ j.fate = .rolledBack) ∧
      resubmit p env call.userId call.request c =
        .answered false (.error .idempotencyConflict)) := by
  intro c
  have hvalid : validateActionTarget call.request = .ok () :=
    hunfinished.valid call (List.mem_of_getElem? hcall) (by rw [hphase]; rfl)
  have hlt : n < s.calls.length := (List.getElem?_eq_some_iff.mp hcall).1
  -- The states after the execution step, the events between, and the completing step.
  let s₁ := s.step p k (.call n i)
  let s₂ := runFrom (ActionSystem.step p k) s₁ mid
  let s₃ := s₂.step p k (.call n j)
  have hc : c = (runFrom (ActionSystem.step p k) s₃ later).catalog := by
    show (runFrom (ActionSystem.step p k) s _).catalog = _
    rw [List.cons_append, runFrom_cons, runFrom_append, runFrom_cons]
  have hreplays₂ : Replays p start s₂ := (hreplays.step _ rfl).run mid hmid
  have hunfinished₂ : Unfinished s₂ :=
    (hunfinished.step hreplays _ rfl).run (hreplays.step _ rfl) mid hmid
  have hreplays₃ : Replays p start s₃ := hreplays₂.step _ rfl
  have hcall₁ : s₁.calls[n]? = some (call.next p i s.catalog).1 := by
    show (s.step p k (.call n i)).calls[n]? = _
    rw [ActionSystem.step_call_some p k hcall]
    exact List.getElem?_set_self hlt
  have hcall₂ : s₂.calls[n]? = some (call.next p i s.catalog).1 :=
    (call_run_of_notOf mid hothers).trans hcall₁
  have hlt₂ : n < s₂.calls.length := (List.getElem?_eq_some_iff.mp hcall₂).1
  rcases @next_of_executing p call hphase hlive hvalid i hi s.catalog with
    ⟨hserves, result, hnext⟩ | ⟨hserves, fault, hnext⟩
  · rw [hnext] at hcall₂
    obtain ⟨a, ha, hholds, hstatus⟩ := hunfinished₂.inProgress _ (List.mem_of_getElem? hcall₂)
      (by simp only [ActionCall.opens, hlive]; rfl)
    have hnext₂ := @next_of_completing p { call with phase := .completing result } result rfl hlive j
      hj s₂.catalog
    have hcall₃ : s₃.calls[n]? = some { call with phase := .answered true (.ok result) } := by
      show (s₂.step p k (.call n j)).calls[n]? = _
      rw [ActionSystem.step_call_some p k hcall₂, hnext₂]
      exact List.getElem?_set_self hlt₂
    by_cases hfate : j.fate = .rolledBack
    · have ha₃ : a ∈ s₃.attempts := by
        show a ∈ (s₂.step p k (.call n j)).attempts
        rw [ActionSystem.step_call_some p k hcall₂, hnext₂, hfate]
        exact ha
      have hkept : a ∈ (runFrom (ActionSystem.step p k) s₃ later).attempts :=
        inProgress_run hreplays₃ hcall₃ rfl ha₃ (holds_phase.mpr (holds_phase.mp hholds)) later
          hlater
      refine .inr ⟨.inr hfate, ?_⟩
      rw [hc]
      exact resubmit_of_inProgress env hvalid hkept (holds_phase.mp hholds) hstatus
    · have ha₃ : ActionCall.record j.now (p.resultValue result) a ∈ s₃.attempts := by
        show _ ∈ (s₂.step p k (.call n j)).attempts
        rw [ActionSystem.step_call_some p k hcall₂, hnext₂]
        exact completed_of_open ha hholds hstatus j.now (p.resultValue_isObject result) hfate
      have hkept := (ActionSystem.grows_run p k s₃ later hlater).completed _ ha₃ rfl
      refine .inl ⟨hserves, hfate, result, ?_⟩
      rw [hc]
      have hown : call.Holds (ActionCall.record j.now (p.resultValue result) a) :=
        ⟨hholds.key, hholds.owner, hholds.fingerprint⟩
      exact resubmit_of_completed env hvalid hkept hown rfl rfl
  · rw [hnext] at hcall₂
    obtain ⟨a, ha, hholds, hstatus⟩ := hunfinished₂.inProgress _ (List.mem_of_getElem? hcall₂) rfl
    have hsame : s₃ = s₂ := by
      show s₂.step p k (.call n j) = s₂
      rw [ActionSystem.step_call_some p k hcall₂,
        @next_of_answered p { call with phase := .answered true (.error fault) } _ _ rfl hlive j hj]
      have hset := List.set_getElem_self hlt₂
      rw [(List.getElem?_eq_some_iff.mp hcall₂).2] at hset
      rw [hset]
    have hkept : a ∈ (runFrom (ActionSystem.step p k) s₂ later).attempts :=
      inProgress_run hreplays₂ hcall₂ rfl ha hholds later hlater
    refine .inr ⟨.inl hserves, ?_⟩
    rw [hc, hsame]
    exact resubmit_of_inProgress env hvalid hkept (holds_phase.mp hholds) hstatus

end runs

/-- **Faults are final.**  Requests arrive at any catalog; one of them is granted, takes its execution
step and its completing step without a crash, and anything else that erases no account happens before,
between and after.  Where the handler answers an `ApiFault`, the identical request is refused as a
conflict at every later time.  It answers one exactly when the account reference of a star is malformed
or one of the two account reads fails, and the identical request is not a conflict exactly when it does
not and the completing statement is not rolled back. -/
theorem resubmission_conflicts_iff (p : ActionContracts) (k : Contracts) (start : ActionSystem)
    (harrived : start.Arrived) (before mid later : List ActionEvent)
    (hbefore : ∀ e ∈ before, e.sparesAttempts = true)
    (hmid : ∀ e ∈ mid, e.sparesAttempts = true) (hlater : ∀ e ∈ later, e.sparesAttempts = true)
    (n : ℕ) (hothers : ∀ e ∈ mid, e.notOf n = true) (call : ActionCall)
    (hcall : (runFrom (ActionSystem.step p k) start before).calls[n]? = some call)
    (hphase : call.phase = .executing) (hlive : call.stopped = false) (i j : ActionInput)
    (hi : i.crash = false) (hj : j.crash = false) (env : ActionEnvironment) :
    let s := runFrom (ActionSystem.step p k) start before
    let c := (runFrom (ActionSystem.step p k) s (.call n i :: mid ++ .call n j :: later)).catalog
    let again := resubmit p env call.userId call.request c
    let faults := ∃ fault, (call.next p i s.catalog).1.phase = .answered true (.error fault)
    (faults → again = .answered false (.error .idempotencyConflict)) ∧
    (faults ↔ i.env.serves p call.request = false) ∧
    (again ≠ .answered false (.error .idempotencyConflict) ↔
      i.env.serves p call.request = true ∧ j.fate ≠ .rolledBack) := by
  intro s c again faults
  have hreplays : Replays p start.attempts s := (Replays.arrived harrived).run before hbefore
  have hunfinished : Unfinished s :=
    (Unfinished.arrived harrived).run (Replays.arrived harrived) before hbefore
  have hvalid : validateActionTarget call.request = .ok () :=
    hunfinished.valid call (List.mem_of_getElem? hcall) (by rw [hphase]; rfl)
  have hfaults : faults ↔ i.env.serves p call.request = false := by
    rcases @next_of_executing p call hphase hlive hvalid i hi s.catalog with
      ⟨hserves, result, hnext⟩ | ⟨hserves, fault, hnext⟩
    · rw [hserves]
      refine ⟨?_, fun h => by cases h⟩
      rintro ⟨fault, hfault⟩
      rw [hnext] at hfault
      cases hfault
    · exact ⟨fun _ => hserves, fun _ => ⟨fault, by rw [hnext]⟩⟩
  rcases resubmit_run hreplays hunfinished hcall hphase hlive hi hj hmid hothers hlater env with
    ⟨hserves, hfate, result, hagain⟩ | ⟨hunserved, hagain⟩
  · refine ⟨fun h => ?_, hfaults, fun _ => ⟨hserves, hfate⟩, fun _ => ?_⟩
    · rw [hfaults.mp h] at hserves
      cases hserves
    · show resubmit p env call.userId call.request c ≠ _
      rw [hagain]
      rintro ⟨⟩
  · refine ⟨fun _ => hagain, hfaults, fun h => absurd hagain h, ?_⟩
    rintro ⟨hserves, hfate⟩
    rcases hunserved with hno | hno
    · rw [hserves] at hno
      cases hno
    · exact absurd hno hfate

/-- A request arrives. -/
def requestedOnce : ActionSystem := ⟨emptyCatalog, [⟨5, sampleAction, .received, false⟩]⟩

theorem requestedOnce_arrived : requestedOnce.Arrived := by
  intro call hcall
  rw [List.mem_singleton.mp hcall]

/-- The read of the connected accounts fails. -/
def unreadAccounts : ActionEnvironment := { sampleEnvironment with connectedAccounts := none }

/-- The request is validated and granted, and its execution meets the failing read. -/
def faultedRun : List ActionEvent :=
  [servedStep 0, servedStep 0, .call 0 ⟨0, .served, false, unreadAccounts⟩]

/-- A request that answered a fault after its grant can be refused as a conflict when nothing fails
any more. -/
theorem not_resubmittable_after_fault :
    ¬ ∀ (p : ActionContracts) (k : Contracts) (start : ActionSystem) (events : List ActionEvent),
      start.Arrived → (∀ e ∈ events, e.sparesAttempts = true) →
      ∀ call ∈ (runFrom (ActionSystem.step p k) start events).calls,
        (∃ fault, call.phase = .answered true (.error fault)) → ∀ env,
        resubmit p env call.userId call.request
            (runFrom (ActionSystem.step p k) start events).catalog ≠
          .answered false (.error .idempotencyConflict) := by
  intro h
  refine h sampleActions sampleContracts requestedOnce faultedRun requestedOnce_arrived (by decide)
    ⟨5, sampleAction, .answered true (.error .persistence), false⟩ ?_ ⟨_, rfl⟩ sampleEnvironment ?_
  · exact List.mem_of_getElem? (i := 0) rfl
  · decide +kernel

/-- With the accounts read and the result recorded, the identical request is no conflict. -/
theorem resubmission_conflicts_iff_recorded :
    resubmit sampleActions sampleEnvironment 5 sampleAction
      (runFrom (ActionSystem.step sampleActions sampleContracts)
        (runFrom (ActionSystem.step sampleActions sampleContracts) requestedOnce
          [servedStep 0, servedStep 0])
        [servedStep 0, servedStep 0]).catalog ≠ .answered false (.error .idempotencyConflict) := by
  exact (resubmission_conflicts_iff sampleActions sampleContracts requestedOnce
    requestedOnce_arrived [servedStep 0, servedStep 0] [] [] (by decide) (by decide) (by decide) 0
    (by decide) ⟨5, sampleAction, .executing, false⟩ rfl rfl rfl
    ⟨0, .served, false, sampleEnvironment⟩ ⟨0, .served, false, sampleEnvironment⟩ rfl rfl
    sampleEnvironment).2.2.mpr (by decide)

end GithubCatalog
