import GithubCatalog.ListReplies
import GithubCatalog.RateLimit

/-!
# The provider gateway (`provider.rs`, `provider_mutations.rs`, `provider/`)

Every operation of the gateway sends one request and turns the response into a reply or an error.  The
rate evidence of a response travels in the reply only, and its caller observes it there; an error
carries none.

* `rateHeadersFrom`, `graphqlRateLimit` - what a response says about the budget;
* `fetchRepository`, `fetchReadme`, .. - the operations, from the response on;
* `GatewayCall.observed` - what the flow that sent a request hands to the ledger;
* `retryAfter_honoured_iff` - which `Retry-After` reaches the ledger.
-/

namespace GithubCatalog

open Runs

/-! ### Responses -/

/-- A response: `header name` is the first value of that name, when it is visible text, and the body is
missing when it could not be read to its end. -/
structure HttpResponse where
  status : ℕ
  header : String → Option String
  contentLength : Option ℕ
  body : Option (List UInt8)

/-- The digits of a number. -/
def digitsValue (text : List Char) : Option ℕ :=
  if text ≠ [] ∧ text.all Char.isDigit then some (Nat.ofDigitChars 10 text 0) else none

/-- `str::parse::<u64>`. -/
def parseU64 (text : String) : Option ℕ :=
  let digits := match text.toList with
    | '+' :: rest => rest
    | digits => digits
  (digitsValue digits).filter fun n => decide (n < 2 ^ 64)

/-- `str::parse::<i64>`. -/
def parseI64 (text : String) : Option ℤ :=
  let value := match text.toList with
    | '-' :: rest => (digitsValue rest).map fun n => -(n : ℤ)
    | '+' :: rest => (digitsValue rest).map fun n => (n : ℤ)
    | digits => (digitsValue digits).map fun n => (n : ℤ)
  value.filter fun n => decide (-2 ^ 63 ≤ n) && decide (n < 2 ^ 63)

/-- `rate_headers_from`. -/
def rateHeadersFrom (header : String → Option String) : RateLimitHeaders where
  limit := (header "x-ratelimit-limit").bind parseI64
  remaining := (header "x-ratelimit-remaining").bind parseI64
  resetEpochSeconds := (header "x-ratelimit-reset").bind parseI64
  retryAfterSeconds := (header "retry-after").bind parseU64

/-- The accounting in the body of a GraphQL reply. -/
structure GraphqlRateLimit where
  remaining : Option ℤ
  resetAt : Option String

/-! ### Payloads -/

/-- `UserListsData`. -/
structure UserListsData where
  lists : UserListsConnection
  rateLimit : Option GraphqlRateLimit

structure NodeIdEnvelope where
  id : String
  rateLimit : Option GraphqlRateLimit

/-- `MutationEnvelope`, with the confirmed viewer state of each payload. -/
structure MutationEnvelope where
  addStar : Option Bool
  removeStar : Option Bool
  rateLimit : Option GraphqlRateLimit

structure UpdateListsEnvelope where
  updateUserListsForItem : Option (List String)
  rateLimit : Option GraphqlRateLimit

structure AuthenticatedUserWire where
  id : ℤ
  login : String

/-- `Response::json` at the payload types, and the epoch seconds of an RFC 3339 text. -/
structure GatewayDecoders where
  repository : List UInt8 → Option ProviderRepositoryBody
  starred : List UInt8 → Option (List StarredItem)
  userLists : List UInt8 → Option UserListsData
  nodeId : List UInt8 → Option NodeIdEnvelope
  mutation : List UInt8 → Option MutationEnvelope
  updateLists : List UInt8 → Option UpdateListsEnvelope
  user : List UInt8 → Option AuthenticatedUserWire
  rfc3339Epoch : String → Option ℤ

/-- `graphql_rate_limit`. -/
def graphqlRateLimit (d : GatewayDecoders) (headerRate : RateLimitHeaders)
    (bodyRate : Option GraphqlRateLimit) : RateLimitHeaders :=
  let fromHeaders := headerRate.limit.isSome || headerRate.remaining.isSome ||
    headerRate.resetEpochSeconds.isSome
  if fromHeaders || bodyRate.isNone then headerRate
  else
    { limit := none
      remaining := bodyRate.bind (·.remaining)
      resetEpochSeconds := (bodyRate.bind (·.resetAt)).bind d.rfc3339Epoch
      retryAfterSeconds := none }

inductive ProviderError where
  | notFound
  | unauthorized
  | contentTooLarge
  | transport
  | unexpectedStatus (status : ℕ)
deriving DecidableEq

structure OwnerName where
  owner : String
  name : String
deriving DecidableEq

/-- `owner_name`. -/
def ProviderRepositoryBody.ownerName (body : ProviderRepositoryBody) : Option OwnerName :=
  match splitOnce '/' body.fullName with
  | some (owner, name) => if owner = "" ∨ name = "" then none else some ⟨owner, name⟩
  | none => none

inductive FetchOutcome where
  | fresh (body : ProviderRepositoryBody) (etag : Option String) (renameEvidence : Option OwnerName)
  | notModified
  | movedPermanently (target : OwnerName)

inductive ReadmeFetchOutcome where
  | fresh (bytes : List UInt8) (etag : Option String)
  | notModified
  | notFound
  | notAuthorized

/-- A reply: what the exchange established, with the rate evidence of the same response. -/
structure Reply (α : Type) where
  value : α
  rateLimit : RateLimitHeaders

/-- `README_MAX_BYTES`. -/
def readmeMaxBytes : ℕ := 1048576

/-- What follows the first occurrence of a marker. -/
def afterMarker (marker : List Char) : List Char → Option (List Char)
  | [] => if marker = [] then some [] else none
  | c :: rest =>
    if marker.isPrefixOf (c :: rest) then some ((c :: rest).drop marker.length)
    else afterMarker marker rest

/-- `split(['?', '#']).next()`. -/
def beforeQuery (text : String) : String :=
  String.ofList (text.toList.takeWhile fun c => c != '?' && c != '#')

/-- `parse_moved_location`. -/
def parseMovedLocation (location : String) : Option OwnerName :=
  match afterMarker "/repos/".toList location.toList with
  | none =>
    match splitOnce '/' (String.ofList (location.toList.dropWhile (· == '/'))) with
    | none => none
    | some (owner, rest) =>
      let name := beforeQuery rest
      if owner = "" ∨ name = "" ∨ name.toList.contains '/' then none else some ⟨owner, name⟩
  | some tail =>
    match splitOnce '/' (beforeQuery (String.ofList tail)) with
    | none => none
    | some (owner, namePath) =>
      let name := String.ofList (namePath.toList.takeWhile (· != '/'))
      if owner = "" ∨ name = "" then none else some ⟨owner, name⟩

/-! ### The operations -/

/-- `response.json().await`. -/
def HttpResponse.json {α : Type} (r : HttpResponse) (decode : List UInt8 → Option α) :
    Except ProviderError α :=
  (r.body.bind decode).elim (.error .transport) .ok

section operations

variable (d : GatewayDecoders) (r : HttpResponse)

/-- `fetch_repository`. -/
def fetchRepository (owner name : String) : Except ProviderError (Reply FetchOutcome) :=
  let rateLimit := rateHeadersFrom r.header
  if r.status = 200 then do
    let body ← r.json d.repository
    let renameEvidence := body.ownerName.filter fun observed =>
      observed.owner != owner || observed.name != name
    .ok ⟨.fresh body (r.header "etag") renameEvidence, rateLimit⟩
  else if r.status = 304 then .ok ⟨.notModified, rateLimit⟩
  else if r.status = 301 then
    match (r.header "location").bind parseMovedLocation with
    | none => .error (.unexpectedStatus 301)
    | some target => .ok ⟨.movedPermanently target, rateLimit⟩
  else if r.status = 404 then .error .notFound
  else if r.status = 401 ∨ r.status = 403 then .error .unauthorized
  else .error (.unexpectedStatus r.status)

/-- `fetch_readme`. -/
def fetchReadme : Except ProviderError (Reply ReadmeFetchOutcome) :=
  let rateLimit := rateHeadersFrom r.header
  if r.status = 200 then
    if r.contentLength.any fun length => decide (readmeMaxBytes < length) then
      .error .contentTooLarge
    else do
      let bytes ← r.json some
      if readmeMaxBytes < bytes.length then .error .contentTooLarge
      else .ok ⟨.fresh bytes (r.header "etag"), rateLimit⟩
  else if r.status = 304 then .ok ⟨.notModified, rateLimit⟩
  else if r.status = 404 then .ok ⟨.notFound, rateLimit⟩
  else if r.status = 401 ∨ r.status = 403 then .ok ⟨.notAuthorized, rateLimit⟩
  else .error (.unexpectedStatus r.status)

/-- The status families of the operations that accept a 200 only. -/
def acceptOk {α : Type} (decode : List UInt8 → Option α) : Except ProviderError α :=
  if r.status = 200 then r.json decode
  else if r.status = 401 ∨ r.status = 403 then .error .unauthorized
  else .error (.unexpectedStatus r.status)

/-- `list_starred_with`, the response of both orderings. -/
def listStarred : Except ProviderError (Reply (List StarredItem)) := do
  let items ← acceptOk r d.starred
  .ok ⟨items, rateHeadersFrom r.header⟩

/-- `list_user_lists`. -/
def fetchUserLists : Except ProviderError (Reply UserListsPage) := do
  let data ← acceptOk r d.userLists
  .ok ⟨listUserLists data.lists, graphqlRateLimit d (rateHeadersFrom r.header) data.rateLimit⟩

/-- `fetch_repository_node_id`. -/
def fetchRepositoryNodeId : Except ProviderError (Reply String) :=
  if r.status = 404 then .error .notFound
  else do
    let envelope ← acceptOk r d.nodeId
    .ok ⟨envelope.id, graphqlRateLimit d (rateHeadersFrom r.header) envelope.rateLimit⟩

/-- `star_write`, for the payload that confirms the mutation. -/
def starWrite (confirmation : MutationEnvelope → Option Bool) :
    Except ProviderError (Reply Bool) := do
  let envelope ← acceptOk r d.mutation
  match confirmation envelope with
  | none => .error (.unexpectedStatus 200)
  | some viewerHasStarred =>
    .ok ⟨viewerHasStarred, graphqlRateLimit d (rateHeadersFrom r.header) envelope.rateLimit⟩

/-- `set_repository_lists`. -/
def setRepositoryLists : Except ProviderError (Reply (List String)) := do
  let envelope ← acceptOk r d.updateLists
  match envelope.updateUserListsForItem with
  | none => .error (.unexpectedStatus 200)
  | some lists =>
    .ok ⟨lists, graphqlRateLimit d (rateHeadersFrom r.header) envelope.rateLimit⟩

structure AuthenticatedUser where
  providerUserId : ℤ
  login : String
  grantedScopes : List String

/-- `authenticate_pat`. -/
def authenticatePat : Except ProviderError AuthenticatedUser := do
  let body ← acceptOk r d.user
  if body.id ≤ 0 ∨ body.login = "" then .error (.unexpectedStatus 200)
  else
    let scopes := ((r.header "x-oauth-scopes").map fun value =>
      ((splitText ',' value).map trimText).filter (· != "")).getD []
    .ok ⟨body.id, body.login, scopes⟩

/-- `confirm_token_is_dead`. -/
def confirmTokenIsDead : Except ProviderError Unit :=
  if r.status = 401 then .ok () else .error (.unexpectedStatus r.status)

/-- `revoke_oauth_grant`; the answer of its probe is another response. -/
def revokeOauthGrant (probe : HttpResponse) : Except ProviderError Unit :=
  if r.status = 204 then .ok ()
  else if r.status = 404 then confirmTokenIsDead probe
  else .error (.unexpectedStatus r.status)

end operations

/-! ### What the flows hand to the ledger -/

/-- The requests of the gateway. -/
inductive GatewayCall where
  | fetchRepository (owner name : String)
  | fetchReadme
  | listStarred
  | listStarredNewestFirst
  | listUserLists
  | fetchRepositoryNodeId
  | starRepository
  | unstarRepository
  | setRepositoryLists
  | authenticatePat
  | revokeOauthGrant
  | confirmTokenIsDead
deriving DecidableEq

/-- The evidence a flow observes: that of a reply, where its caller looks at it. -/
def evidence {α : Type} (answer : Except ProviderError (Reply α)) : Option RateLimitHeaders :=
  answer.toOption.map (·.rateLimit)

/-- What the flow that sent the request hands to the ledger.  Every caller ends at an error; the caller
of `set_repository_lists` drops the reply as well, and the last three operations have no rate evidence. -/
def GatewayCall.observed (d : GatewayDecoders) (r : HttpResponse) :
    GatewayCall → Option RateLimitHeaders
  | .fetchRepository owner name => evidence (GithubCatalog.fetchRepository d r owner name)
  | .fetchReadme => evidence (GithubCatalog.fetchReadme r)
  | .listStarred | .listStarredNewestFirst => evidence (GithubCatalog.listStarred d r)
  | .listUserLists => evidence (fetchUserLists d r)
  | .fetchRepositoryNodeId => evidence (GithubCatalog.fetchRepositoryNodeId d r)
  | .starRepository => evidence (starWrite d r (·.addStar))
  | .unstarRepository => evidence (starWrite d r (·.removeStar))
  | .setRepositoryLists | .authenticatePat | .revokeOauthGrant | .confirmTokenIsDead => none

/-- The ledger after the flow has handled the response. -/
def GatewayCall.handled (d : GatewayDecoders) (now : Time) (token : String) (call : GatewayCall)
    (r : HttpResponse) (l : RateLimitLedger) : RateLimitLedger :=
  match call.observed d r with
  | none => l
  | some headers => l.observe now token headers

/-- What happens to the ledger later on. -/
inductive LedgerEvent where
  | acquire (now : Time) (token : String)
  | observe (now : Time) (token : String) (headers : RateLimitHeaders)

namespace LedgerEvent

def apply (l : RateLimitLedger) : LedgerEvent → RateLimitLedger
  | .acquire now token => (l.acquire now token).2
  | .observe now token headers => l.observe now token headers

/-- No response of the token puts an earlier end in the place of its cooldown. -/
def Leaves (token : String) (until_ : Time) (_ : RateLimitLedger) : LedgerEvent → Prop
  | .acquire _ _ => True
  | .observe now token' headers => token' = token → ∀ seconds ∈ headers.retryAfterSeconds,
      until_ ≤ now + seconds * second

/-- The token is refused from `now` on and before `until_`. -/
def Refused (token : String) (now until_ : Time) (l : RateLimitLedger) : LedgerEvent → Prop
  | .acquire at' token' => token' = token → now ≤ at' → at' < until_ → l.grants at' token = false
  | .observe _ _ _ => True

end LedgerEvent

/-- **The period of a response is honoured**: whatever the ledger held, the token is refused for that
many seconds after the flow handled the response, as long as no later response cuts its cooldown
short. -/
def RetryAfterHonoured (d : GatewayDecoders) (now : Time) (token : String) (call : GatewayCall)
    (r : HttpResponse) (seconds : ℕ) : Prop :=
  ∀ (l : RateLimitLedger) (events : List LedgerEvent),
    Guarded LedgerEvent.apply (LedgerEvent.Leaves token (now + seconds * second))
      (call.handled d now token r l) events →
    Guarded LedgerEvent.apply (LedgerEvent.Refused token now (now + seconds * second))
      (call.handled d now token r l) events

/-! ### Cooldowns along later events -/

section cooldown

variable {token : String} {until_ : Time} {l : RateLimitLedger}

/-- The token is cooling down until the time given, at least. -/
def CoolsUntil (token : String) (until_ : Time) (l : RateLimitLedger) : Prop :=
  ∃ b, l token = some b ∧ ∃ cooldown, b.cooldownUntil = some cooldown ∧ until_ ≤ cooldown

theorem store_other (l : RateLimitLedger) {token token' : String} (h : token' ≠ token) (b : Bucket) :
    l.store token' b token = l token := by
  rw [RateLimitLedger.store]
  exact Function.update_of_ne h.symm _ _

/-- An acquisition for another token. -/
theorem acquire_other (l : RateLimitLedger) {token token' : String} (h : token' ≠ token) (now : Time) :
    (l.acquire now token').2 token = l token := by
  cases hb : l token' with
  | none => rw [RateLimitLedger.acquire, hb]
  | some b =>
    obtain ⟨_, -, -, hacquire⟩ | ⟨-, -, -, hacquire⟩ | ⟨-, -, hacquire⟩ :=
      RateLimitLedger.acquire_cases hb now
    · rw [hacquire]
    · rw [hacquire]
    · rw [hacquire]
      exact store_other l h _

theorem CoolsUntil.acquired (h : CoolsUntil token until_ l) (now : Time) :
    CoolsUntil token until_ (l.acquire now token).2 ∧
      (now < until_ → l.grants now token = false) := by
  obtain ⟨b, hb, cooldown, hcooldown, hle⟩ := h
  have hrefused : ∀ retryAt, l.acquire now token = (.error retryAt, l) →
      CoolsUntil token until_ (l.acquire now token).2 ∧
        (now < until_ → l.grants now token = false) := by
    intro retryAt hacquire
    rw [RateLimitLedger.grants, hacquire]
    exact ⟨⟨b, hb, cooldown, hcooldown, hle⟩, fun _ => rfl⟩
  obtain ⟨_, -, -, hacquire⟩ | ⟨-, -, -, hacquire⟩ | ⟨hpast, -, hacquire⟩ :=
    RateLimitLedger.acquire_cases hb now
  · exact hrefused _ hacquire
  · exact hrefused _ hacquire
  · constructor
    · rw [hacquire]
      exact ⟨_, l.store_self token _, cooldown, hcooldown, hle⟩
    · -- A grant means that the cooldown is over.
      intro hlt
      exact absurd (hle.trans (hpast cooldown hcooldown)) (Nat.not_le_of_lt hlt)

theorem CoolsUntil.observed (h : CoolsUntil token until_ l) {now : Time} {headers : RateLimitHeaders}
    (hlater : ∀ seconds ∈ headers.retryAfterSeconds, until_ ≤ now + seconds * second) :
    CoolsUntil token until_ (l.observe now token headers) := by
  obtain ⟨b, hb, cooldown, hcooldown, hle⟩ := h
  have hbucket := RateLimitLedger.observe_self now token headers l
  rw [hb, Option.getD_some] at hbucket
  refine ⟨_, hbucket, ?_⟩
  show ∃ cooldown, RateLimitLedger.cooldownAfter now b.cooldownUntil headers.retryAfterSeconds =
    some cooldown ∧ until_ ≤ cooldown
  cases hretry : headers.retryAfterSeconds with
  | none => exact ⟨cooldown, hcooldown, hle⟩
  | some seconds =>
    by_cases hfits : now + seconds * second < systemTimeEnd
    · exact ⟨_, if_pos hfits, hlater seconds hretry⟩
    · exact ⟨cooldown, (if_neg hfits).trans hcooldown, hle⟩

/-- **One later event** neither ends the cooldown early nor finds the token granted before its end. -/
theorem CoolsUntil.step (h : CoolsUntil token until_ l) (now : Time) (e : LedgerEvent)
    (he : e.Leaves token until_ l) :
    CoolsUntil token until_ (e.apply l) ∧ e.Refused token now until_ l := by
  cases e with
  | acquire at' token' =>
    by_cases htoken : token' = token
    · subst htoken
      obtain ⟨hcools, hrefused⟩ := h.acquired at'
      exact ⟨hcools, fun _ _ hlt => hrefused hlt⟩
    · refine ⟨?_, fun heq => absurd heq htoken⟩
      rw [CoolsUntil, LedgerEvent.apply, acquire_other l htoken]
      exact h
  | observe at' token' headers =>
    refine ⟨?_, trivial⟩
    by_cases htoken : token' = token
    · subst htoken
      exact h.observed (he rfl)
    · rw [CoolsUntil, LedgerEvent.apply, RateLimitLedger.observe, store_other l htoken]
      exact h

/-- Along every run. -/
theorem CoolsUntil.refused (h : CoolsUntil token until_ l) (now : Time) (events : List LedgerEvent)
    (hleaves : Guarded LedgerEvent.apply (LedgerEvent.Leaves token until_) l events) :
    Guarded LedgerEvent.apply (LedgerEvent.Refused token now until_) l events :=
  guarded_of_step (P := CoolsUntil token until_) (fun _ e hl he => hl.step now e he) h hleaves

end cooldown

/-! ### Which evidence is kept -/

/-- What GraphQL accounting leaves of the response's period: all of it, unless the body reports the
budget and the headers do not. -/
def BudgetKept (r : HttpResponse) (bodyRate : Option GraphqlRateLimit) : Prop :=
  (rateHeadersFrom r.header).limit ≠ none ∨ (rateHeadersFrom r.header).remaining ≠ none ∨
    (rateHeadersFrom r.header).resetEpochSeconds ≠ none ∨ bodyRate = none

/-- The response is of a kind whose evidence its flow observes with the period in it. -/
def GatewayCall.Keeps (d : GatewayDecoders) (r : HttpResponse) : GatewayCall → Prop
  | .fetchRepository _ _ =>
    (r.status = 200 ∧ r.body.bind d.repository ≠ none) ∨ r.status = 304 ∨
      (r.status = 301 ∧ (r.header "location").bind parseMovedLocation ≠ none)
  | .fetchReadme =>
    (r.status = 200 ∧ (∀ length ∈ r.contentLength, length ≤ readmeMaxBytes) ∧
      ∃ bytes, r.body = some bytes ∧ bytes.length ≤ readmeMaxBytes) ∨
      r.status = 304 ∨ r.status = 404 ∨ r.status = 401 ∨ r.status = 403
  | .listStarred | .listStarredNewestFirst => r.status = 200 ∧ r.body.bind d.starred ≠ none
  | .listUserLists =>
    r.status = 200 ∧ ∃ data, r.body.bind d.userLists = some data ∧ BudgetKept r data.rateLimit
  | .fetchRepositoryNodeId =>
    r.status = 200 ∧ ∃ envelope, r.body.bind d.nodeId = some envelope ∧
      BudgetKept r envelope.rateLimit
  | .starRepository =>
    r.status = 200 ∧ ∃ envelope, r.body.bind d.mutation = some envelope ∧ envelope.addStar ≠ none ∧
      BudgetKept r envelope.rateLimit
  | .unstarRepository =>
    r.status = 200 ∧ ∃ envelope, r.body.bind d.mutation = some envelope ∧
      envelope.removeStar ≠ none ∧ BudgetKept r envelope.rateLimit
  | .setRepositoryLists | .authenticatePat | .revokeOauthGrant | .confirmTokenIsDead => False

/-- What of a response's period the ledger is told. -/
def toldPeriod (headers : Option RateLimitHeaders) : Option ℕ := headers.bind (·.retryAfterSeconds)

section told

variable {d : GatewayDecoders} {r : HttpResponse} {α β : Type}

theorem graphqlRateLimit_kept {bodyRate : Option GraphqlRateLimit} (h : BudgetKept r bodyRate) :
    graphqlRateLimit d (rateHeadersFrom r.header) bodyRate = rateHeadersFrom r.header := by
  refine if_pos ?_
  simp only [Bool.or_eq_true, Option.isSome_iff_ne_none, Option.isNone_iff_eq_none, or_assoc]
  exact h

theorem graphqlRateLimit_dropped {bodyRate : Option GraphqlRateLimit} (h : ¬ BudgetKept r bodyRate) :
    (graphqlRateLimit d (rateHeadersFrom r.header) bodyRate).retryAfterSeconds = none := by
  have hcond : ¬ (((rateHeadersFrom r.header).limit.isSome || (rateHeadersFrom r.header).remaining.isSome ||
      (rateHeadersFrom r.header).resetEpochSeconds.isSome) || bodyRate.isNone) = true := by
    simp only [Bool.or_eq_true, Option.isSome_iff_ne_none, Option.isNone_iff_eq_none, or_assoc]
    exact h
  simp only [graphqlRateLimit, if_neg hcond]

/-- An accepted response was a 200 that decodes. -/
theorem acceptOk_eq (r : HttpResponse) (decode : List UInt8 → Option α) :
    (acceptOk r decode).toOption = if r.status = 200 then r.body.bind decode else none := by
  unfold acceptOk HttpResponse.json
  by_cases hstatus : r.status = 200
  · rw [if_pos hstatus, if_pos hstatus]
    cases r.body.bind decode with
    | none => rfl
    | some a => rfl
  · rw [if_neg hstatus, if_neg hstatus]
    split
    · rfl
    · rfl

/-- The evidence behind an accepted response. -/
theorem evidence_acceptOk {decode : List UInt8 → Option α}
    (f : α → Except ProviderError (Reply β)) :
    evidence (acceptOk r decode >>= f) =
      if r.status = 200 then (r.body.bind decode).bind fun a => evidence (f a) else none := by
  have haccept := acceptOk_eq r decode
  cases hanswer : acceptOk r decode with
  | ok a =>
    rw [hanswer] at haccept
    split at haccept
    · next hstatus =>
      rw [if_pos hstatus, ← haccept]
      rfl
    · exact nomatch haccept
  | error e =>
    rw [hanswer] at haccept
    split at haccept
    · next hstatus =>
      rw [if_pos hstatus, ← haccept]
      rfl
    · next hstatus =>
      rw [if_neg hstatus]
      rfl

/-- A GraphQL reply tells the period when the budget of its body leaves it. -/
theorem told_graphql (d : GatewayDecoders) (r : HttpResponse) (rate : Option GraphqlRateLimit)
    (value : β) :
    toldPeriod (evidence (.ok ⟨value, graphqlRateLimit d (rateHeadersFrom r.header) rate⟩)) =
        (rateHeadersFrom r.header).retryAfterSeconds ∧ BudgetKept r rate ∨
      toldPeriod (evidence (.ok ⟨value, graphqlRateLimit d (rateHeadersFrom r.header) rate⟩)) = none ∧
        ¬ BudgetKept r rate := by
  by_cases hkept : BudgetKept r rate
  · refine .inl ⟨?_, hkept⟩
    rw [graphqlRateLimit_kept hkept]
    rfl
  · exact .inr ⟨graphqlRateLimit_dropped hkept, hkept⟩

/-- The same behind an accepted response, for the bodies that make a reply. -/
theorem told_accepted (d : GatewayDecoders) (r : HttpResponse) (decode : List UInt8 → Option α)
    (rate : α → Option GraphqlRateLimit) (answer : α → Except ProviderError (Reply β))
    (P : α → Prop)
    (hreply : ∀ a, P a → ∃ value, answer a =
      .ok ⟨value, graphqlRateLimit d (rateHeadersFrom r.header) (rate a)⟩)
    (herror : ∀ a, ¬ P a → evidence (answer a) = none) :
    ((r.status = 200 ∧ ∃ a, r.body.bind decode = some a ∧ P a ∧ BudgetKept r (rate a)) ∧
      toldPeriod (evidence (acceptOk r decode >>= answer)) =
        (rateHeadersFrom r.header).retryAfterSeconds) ∨
    (¬ (r.status = 200 ∧ ∃ a, r.body.bind decode = some a ∧ P a ∧ BudgetKept r (rate a)) ∧
      toldPeriod (evidence (acceptOk r decode >>= answer)) = none) := by
  rw [evidence_acceptOk]
  by_cases hstatus : r.status = 200
  · rw [if_pos hstatus]
    cases hbody : r.body.bind decode with
    | none => exact .inr ⟨by simp, rfl⟩
    | some a =>
      rw [Option.bind_some]
      by_cases hP : P a
      · obtain ⟨value, heq⟩ := hreply a hP
        rw [heq]
        rcases told_graphql d r (rate a) value with ⟨htold, hkept⟩ | ⟨htold, hkept⟩
        · exact .inl ⟨⟨hstatus, a, rfl, hP, hkept⟩, htold⟩
        · exact .inr ⟨by simp [hkept], htold⟩
      · refine .inr ⟨by simp [hP], ?_⟩
        rw [herror a hP]
        rfl
  · rw [if_neg hstatus]
    exact .inr ⟨fun h => hstatus h.1, rfl⟩

end told

/-! ### What the ledger is told -/

/-- The response's own period reaches the ledger exactly when its flow keeps the evidence; otherwise no
period does. -/
def GatewayCall.TellsKept (d : GatewayDecoders) (r : HttpResponse) (call : GatewayCall) : Prop :=
  (call.Keeps d r ∧
    toldPeriod (call.observed d r) = (rateHeadersFrom r.header).retryAfterSeconds) ∨
  (¬ call.Keeps d r ∧ toldPeriod (call.observed d r) = none)

section tells

variable (d : GatewayDecoders) (r : HttpResponse)

theorem tellsKept_fetchRepository (owner name : String) :
    (GatewayCall.fetchRepository owner name).TellsKept d r := by
  unfold GatewayCall.TellsKept GatewayCall.Keeps GatewayCall.observed fetchRepository
  by_cases h200 : r.status = 200
  · cases hbody : r.body.bind d.repository with
    | none =>
      refine .inr ⟨by simp [h200], ?_⟩
      simp only [h200, HttpResponse.json, hbody]
      rfl
    | some body =>
      refine .inl ⟨by simp [h200], ?_⟩
      simp only [h200, HttpResponse.json, hbody]
      rfl
  · by_cases h304 : r.status = 304
    · refine .inl ⟨by simp [h304], ?_⟩
      simp only [h304]
      rfl
    · by_cases h301 : r.status = 301
      · cases htarget : (r.header "location").bind parseMovedLocation with
        | none =>
          refine .inr ⟨by simp [h301], ?_⟩
          simp only [h301]
          rfl
        | some target =>
          refine .inl ⟨by simp [h301], ?_⟩
          simp only [h301]
          rfl
      · refine .inr ⟨by simp [h200, h304, h301], ?_⟩
        simp only [h200, h304, h301, if_false]
        split
        · rfl
        · split
          · rfl
          · rfl

/-- The length a response announces, against the bound. -/
theorem announced_over {length : Option ℕ} :
    (length.any fun n => decide (readmeMaxBytes < n)) = true ↔ ¬ ∀ n ∈ length, n ≤ readmeMaxBytes := by
  cases length with
  | none => simp
  | some n => simp

theorem tellsKept_fetchReadme : GatewayCall.fetchReadme.TellsKept d r := by
  unfold GatewayCall.TellsKept GatewayCall.Keeps GatewayCall.observed fetchReadme
  by_cases h200 : r.status = 200
  · by_cases hlong : (r.contentLength.any fun length => decide (readmeMaxBytes < length)) = true
    · have hover := announced_over.mp hlong
      refine .inr ⟨by simp only [hover, h200]; simp, ?_⟩
      rw [if_pos h200, if_pos hlong]
      rfl
    · have hshort : ∀ n ∈ r.contentLength, n ≤ readmeMaxBytes :=
        not_not.mp fun h => hlong (announced_over.mpr h)
      rw [if_pos h200, if_neg hlong]
      cases hbody : r.body with
      | none =>
        refine .inr ⟨by simp [h200], ?_⟩
        simp only [HttpResponse.json, hbody]
        rfl
      | some bytes =>
        by_cases hbytes : readmeMaxBytes < bytes.length
        · refine .inr ⟨by simp [h200, hbytes], ?_⟩
          simp only [HttpResponse.json, hbody]
          show toldPeriod (evidence (if readmeMaxBytes < bytes.length then _ else _)) = _
          rw [if_pos hbytes]
          rfl
        · refine .inl ⟨.inl ⟨h200, hshort, bytes, rfl, Nat.le_of_not_lt hbytes⟩, ?_⟩
          simp only [HttpResponse.json, hbody]
          show toldPeriod (evidence (if readmeMaxBytes < bytes.length then _ else _)) = _
          rw [if_neg hbytes]
          rfl
  · by_cases hempty : r.status = 304 ∨ r.status = 404 ∨ r.status = 401 ∨ r.status = 403
    · refine .inl ⟨.inr hempty, ?_⟩
      rcases hempty with h | h | h | h
      · simp only [h]
        rfl
      · simp only [h]
        rfl
      · simp only [h]
        rfl
      · simp only [h]
        rfl
    · refine .inr ⟨by simp [h200, hempty], ?_⟩
      simp only [not_or] at hempty
      simp only [h200, hempty, or_self, if_false]
      rfl

theorem told_listStarred :
    ((r.status = 200 ∧ r.body.bind d.starred ≠ none) ∧
      toldPeriod (evidence (listStarred d r)) = (rateHeadersFrom r.header).retryAfterSeconds) ∨
    (¬ (r.status = 200 ∧ r.body.bind d.starred ≠ none) ∧
      toldPeriod (evidence (listStarred d r)) = none) := by
  unfold listStarred
  rw [evidence_acceptOk]
  by_cases h200 : r.status = 200
  · rw [if_pos h200]
    cases hbody : r.body.bind d.starred with
    | none => exact .inr ⟨by simp, rfl⟩
    | some items => exact .inl ⟨⟨h200, by simp⟩, rfl⟩
  · rw [if_neg h200]
    exact .inr ⟨fun h => h200 h.1, rfl⟩

theorem told_starWrite (confirmation : MutationEnvelope → Option Bool) :
    ((r.status = 200 ∧ ∃ envelope, r.body.bind d.mutation = some envelope ∧
        confirmation envelope ≠ none ∧ BudgetKept r envelope.rateLimit) ∧
      toldPeriod (evidence (starWrite d r confirmation)) =
        (rateHeadersFrom r.header).retryAfterSeconds) ∨
    (¬ (r.status = 200 ∧ ∃ envelope, r.body.bind d.mutation = some envelope ∧
        confirmation envelope ≠ none ∧ BudgetKept r envelope.rateLimit) ∧
      toldPeriod (evidence (starWrite d r confirmation)) = none) := by
  refine told_accepted d r d.mutation (fun envelope => envelope.rateLimit) _
    (fun envelope => confirmation envelope ≠ none) ?_ ?_
  · intro envelope h
    obtain ⟨value, hvalue⟩ := Option.ne_none_iff_exists'.mp h
    exact ⟨value, by simp only [hvalue]⟩
  · intro envelope h
    simp only [not_not.mp h]
    rfl

/-- The reads whose accepted body is always a reply. -/
theorem told_read {α β : Type} (decode : List UInt8 → Option α) (rate : α → Option GraphqlRateLimit)
    (value : α → β) :
    ((r.status = 200 ∧ ∃ a, r.body.bind decode = some a ∧ BudgetKept r (rate a)) ∧
      toldPeriod (evidence (acceptOk r decode >>= fun a =>
        .ok ⟨value a, graphqlRateLimit d (rateHeadersFrom r.header) (rate a)⟩)) =
        (rateHeadersFrom r.header).retryAfterSeconds) ∨
    (¬ (r.status = 200 ∧ ∃ a, r.body.bind decode = some a ∧ BudgetKept r (rate a)) ∧
      toldPeriod (evidence (acceptOk r decode >>= fun a =>
        .ok ⟨value a, graphqlRateLimit d (rateHeadersFrom r.header) (rate a)⟩)) = none) := by
  have htold := told_accepted d r decode rate (fun a =>
    .ok ⟨value a, graphqlRateLimit d (rateHeadersFrom r.header) (rate a)⟩) (fun _ => True)
    (fun a _ => ⟨value a, rfl⟩) (fun _ h => absurd trivial h)
  simpa only [true_and] using htold

/-- **What the ledger is told**, for every operation. -/
theorem tellsKept (call : GatewayCall) : call.TellsKept d r := by
  cases call with
  | fetchRepository owner name => exact tellsKept_fetchRepository d r owner name
  | fetchReadme => exact tellsKept_fetchReadme d r
  | listStarred => exact told_listStarred d r
  | listStarredNewestFirst => exact told_listStarred d r
  | listUserLists => exact told_read d r d.userLists (·.rateLimit) fun data => listUserLists data.lists
  | fetchRepositoryNodeId =>
    unfold GatewayCall.TellsKept GatewayCall.Keeps GatewayCall.observed fetchRepositoryNodeId
    by_cases h404 : r.status = 404
    · refine .inr ⟨by simp [h404], ?_⟩
      simp only [if_pos h404]
      rfl
    · simp only [if_neg h404]
      exact told_read d r d.nodeId (·.rateLimit) (·.id)
  | starRepository => exact told_starWrite d r (·.addStar)
  | unstarRepository => exact told_starWrite d r (·.removeStar)
  | setRepositoryLists => exact .inr ⟨id, rfl⟩
  | authenticatePat => exact .inr ⟨id, rfl⟩
  | revokeOauthGrant => exact .inr ⟨id, rfl⟩
  | confirmTokenIsDead => exact .inr ⟨id, rfl⟩

end tells

/-! ### Which periods are honoured -/

section honoured

variable {d : GatewayDecoders} {r : HttpResponse} {call : GatewayCall} {now : Time} {token text : String}
  {seconds : ℕ}

/-- A period that ends within `SystemTime` is read off its digits. -/
theorem parseU64_digits (hnumeric : digitsValue text.toList = some seconds)
    (hfits : seconds < 2 ^ 64) : parseU64 text = some seconds := by
  have hkept : (digitsValue text.toList).filter (fun n => decide (n < 2 ^ 64)) = some seconds := by
    rw [hnumeric, Option.filter_some, if_pos (decide_eq_true hfits)]
  unfold parseU64
  split
  next rest htext =>
    -- A plus sign is no digit.
    rw [htext, digitsValue, if_neg (by simp)] at hnumeric
    exact nomatch hnumeric
  next => exact hkept

/-- What a number reads as is at most the number of its digits. -/
theorem parseU64_of_digits (hnumeric : digitsValue text.toList = some seconds) :
    parseU64 text = none ∨ parseU64 text = some seconds := by
  by_cases hfits : seconds < 2 ^ 64
  · exact .inr (parseU64_digits hnumeric hfits)
  · left
    have hdropped : (digitsValue text.toList).filter (fun n => decide (n < 2 ^ 64)) = none := by
      rw [hnumeric, Option.filter_some, if_neg (by simpa using hfits)]
    unfold parseU64
    split
    next rest htext =>
      rw [htext, digitsValue, if_neg (by simp)] at hnumeric
      exact nomatch hnumeric
    next => exact hdropped

theorem retryAfter_of_header (hheader : r.header "retry-after" = some text) :
    (rateHeadersFrom r.header).retryAfterSeconds = parseU64 text := by
  rw [rateHeadersFrom, hheader]
  rfl

/-- The ledger cools down for a period it was told. -/
theorem coolsUntil_handled (hkeeps : call.Keeps d r) (hheader : r.header "retry-after" = some text)
    (hparse : parseU64 text = some seconds) (hfits : now + seconds * second < systemTimeEnd)
    (l : RateLimitLedger) :
    CoolsUntil token (now + seconds * second) (call.handled d now token r l) := by
  have htold : toldPeriod (call.observed d r) = some seconds := by
    rcases tellsKept d r call with ⟨-, htold⟩ | ⟨hnot, -⟩
    · rw [htold, retryAfter_of_header hheader, hparse]
    · exact absurd hkeeps hnot
  obtain ⟨headers, hobserved, hretry⟩ := Option.bind_eq_some_iff.mp htold
  rw [GatewayCall.handled, hobserved]
  refine ⟨_, RateLimitLedger.observe_self now token headers l, now + seconds * second, ?_, le_rfl⟩
  show RateLimitLedger.cooldownAfter now _ headers.retryAfterSeconds = _
  rw [hretry]
  exact if_pos hfits

/-- A fresh ledger that was told no period the clock can hold does not cool the token down. -/
theorem cooldown_handled_new
    (htold : ∀ told, toldPeriod (call.observed d r) = some told → ¬ now + told * second < systemTimeEnd) :
    ∀ b ∈ call.handled d now token r RateLimitLedger.new token, b.cooldownUntil = none := by
  intro b hb
  cases hobserved : call.observed d r with
  | none =>
    rw [GatewayCall.handled, hobserved] at hb
    exact nomatch hb
  | some headers =>
    rw [GatewayCall.handled, hobserved] at hb
    rw [hobserved] at htold
    obtain rfl := Option.some.inj ((RateLimitLedger.observe_self now token headers _).symm.trans hb)
    show RateLimitLedger.cooldownAfter now none headers.retryAfterSeconds = none
    cases hretry : headers.retryAfterSeconds with
    | none => rfl
    | some told => exact if_neg (htold told hretry)

/-- The response after it, without a period. -/
def laterHeaders : RateLimitHeaders := { remaining := some 100 }

/-- Without a cooldown the token is granted again at once, after any response that leaves it a
budget. -/
theorem grants_without_cooldown {l : RateLimitLedger}
    (h : ∀ b ∈ l token, b.cooldownUntil = none) :
    (l.observe now token laterHeaders).grants now token = true := by
  have hbucket := RateLimitLedger.observe_self now token laterHeaders l
  have hcooldown : (RateLimitLedger.observed now laterHeaders
      ((l token).getD (RateLimitLedger.freshBucket now))).cooldownUntil = none := by
    cases hb : l token with
    | none => rfl
    | some b => exact h b hb
  rw [RateLimitLedger.grants]
  obtain ⟨until_, huntil, -⟩ | ⟨-, -, hfloor, -⟩ | ⟨-, -, hacquire⟩ :=
    RateLimitLedger.acquire_cases hbucket now
  · rw [hcooldown] at huntil
    cases huntil
  · exact absurd (show (100 : ℤ) ≤ reserveFloor from hfloor) (by decide)
  · rw [hacquire]
    rfl

end honoured

/-- **Which `Retry-After` periods are honoured**: those of the responses whose flow observes the
evidence with the period in it, as far as the clock can hold their end, and the empty period. -/
theorem retryAfter_honoured_iff (d : GatewayDecoders) (now : Time) (token : String)
    (call : GatewayCall) (r : HttpResponse) (text : String) (seconds : ℕ)
    (hheader : r.header "retry-after" = some text)
    (hnumeric : digitsValue text.toList = some seconds) :
    RetryAfterHonoured d now token call r seconds ↔
      seconds = 0 ∨ (call.Keeps d r ∧ now + seconds * second < systemTimeEnd) := by
  constructor
  · intro hhonoured
    by_contra hnot
    obtain ⟨hpositive, hlost⟩ := not_or.mp hnot
    have htold : ∀ told, toldPeriod (call.observed d r) = some told →
        ¬ now + told * second < systemTimeEnd := by
      intro told htold hfits
      rcases tellsKept d r call with ⟨hkeeps, heq⟩ | ⟨-, heq⟩
      · rw [heq, retryAfter_of_header hheader] at htold
        rcases parseU64_of_digits hnumeric with hparse | hparse
        · exact nomatch hparse.symm.trans htold
        · obtain rfl := Option.some.inj (hparse.symm.trans htold)
          exact hlost ⟨hkeeps, hfits⟩
      · exact nomatch heq.symm.trans htold
    -- The next response without a period, and an acquisition at the same instant.
    have hrefused := hhonoured RateLimitLedger.new
      [.observe now token laterHeaders, .acquire now token]
      ⟨fun _ _ hmem => (nomatch hmem), trivial, trivial⟩
    have hlt : now < now + seconds * second :=
      Nat.lt_add_of_pos_right (Nat.mul_pos (Nat.pos_of_ne_zero hpositive) (by decide))
    have hgrants := hrefused.2.1 rfl le_rfl hlt
    rw [LedgerEvent.apply, grants_without_cooldown (cooldown_handled_new htold)] at hgrants
    exact nomatch hgrants
  · rintro (rfl | ⟨hkeeps, hfits⟩) l events hleaves
    · -- Nothing is promised of an empty period.
      refine guarded_of_step (P := fun _ => True) (G := LedgerEvent.Leaves token (now + 0 * second))
        (fun _ e _ _ => ⟨trivial, ?_⟩) trivial hleaves
      cases e with
      | acquire at' token' => exact fun _ hle hlt => absurd hlt (Nat.not_lt_of_le (by simpa using hle))
      | observe at' token' headers => trivial
    · have hseconds : seconds < 2 ^ 64 := by
        have hbelow : seconds * second < 2 ^ 63 * second :=
          Nat.lt_of_le_of_lt (Nat.le_add_left _ now) hfits
        exact (Nat.lt_of_mul_lt_mul_right hbelow).trans (by decide)
      have hcools : CoolsUntil token (now + seconds * second) (call.handled d now token r l) :=
        coolsUntil_handled hkeeps hheader (parseU64_digits hnumeric hseconds) hfits l
      exact hcools.refused now events hleaves

/-- Decoders that know the empty page of stars. -/
def emptyPageDecoders : GatewayDecoders where
  repository _ := none
  starred bytes := if bytes = [91, 93] then some [] else none
  userLists _ := none
  nodeId _ := none
  mutation _ := none
  updateLists _ := none
  user _ := none
  rfc3339Epoch _ := none

/-- An empty page that asks for a minute. -/
def pausedResponse (status : ℕ) : HttpResponse where
  status := status
  header name := if name = "retry-after" then some "60" else none
  contentLength := some 2
  body := some [91, 93]

theorem retryAfter_honoured_iff_page :
    RetryAfterHonoured emptyPageDecoders 0 "token" .listStarred (pausedResponse 200) 60 ↔
      60 = 0 ∨ (GatewayCall.listStarred.Keeps emptyPageDecoders (pausedResponse 200) ∧
        0 + 60 * second < systemTimeEnd) :=
  retryAfter_honoured_iff emptyPageDecoders 0 "token" .listStarred (pausedResponse 200) "60" 60 rfl
    (by decide)

/-- The same response under status 403: the next acquisition is granted in the same instant. -/
theorem forbidden_period_lost :
    (pausedResponse 403).header "retry-after" = some "60" ∧
      digitsValue "60".toList = some 60 ∧
      ¬ RetryAfterHonoured emptyPageDecoders 0 "token" .listStarred (pausedResponse 403) 60 := by
  refine ⟨rfl, by decide, fun hhonoured => ?_⟩
  have hrefused := hhonoured RateLimitLedger.new [.acquire 0 "token"] ⟨trivial, trivial⟩
  exact nomatch hrefused.1 rfl le_rfl (by decide)

end GithubCatalog
