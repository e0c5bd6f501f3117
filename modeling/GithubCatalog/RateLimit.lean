import GithubCatalog.Lib.Tally
import GithubCatalog.Rows
import Mathlib.Logic.Function.Basic

/-!
# The rate-limit ledger (`rate_limit.rs`)

The ledger keeps one bucket per token.  `acquire` takes one request off the bucket, unless a cooldown
runs or the reserve floor is reached before the reset time; `observe` overwrites the bucket with what a
response reported.

* `RateLimitLedger.acquire`, `RateLimitLedger.observe` - the two operations, with the clock they read;
* `Window` - one token in one reset window: the ledger, what the provider has left, the requests in
  flight and the replies that nobody has observed yet;
* `grants_within_reserve` - the reserve and the cooldowns, along runs whose observations never raise the
  counter and never cut a cooldown short;
* `late_reply_overdraws` - a reply observed late.
-/

namespace GithubCatalog

open Runs

/-- `RESERVE_FLOOR`. -/
def reserveFloor : ℤ := 1

/-- One second. -/
def second : Time := 1000000

/-- The first instant a `SystemTime` cannot hold. -/
def systemTimeEnd : Time := 2 ^ 63 * second

structure RateLimitHeaders where
  limit : Option ℤ := none
  remaining : Option ℤ := none
  resetEpochSeconds : Option ℤ := none
  retryAfterSeconds : Option ℕ := none
deriving DecidableEq

structure Bucket where
  remaining : ℤ
  resetAt : Time
  cooldownUntil : Option Time
deriving DecidableEq

/-- The buckets by token label. -/
abbrev RateLimitLedger : Type := String → Option Bucket

namespace RateLimitLedger

/-- `RateLimitLedger::new`. -/
def new : RateLimitLedger := fun _ => none

/-- The ledger with another bucket for a token. -/
def store (l : RateLimitLedger) (token : String) (b : Bucket) : RateLimitLedger :=
  Function.update l token (some b)

/-- `acquire`: a grant, or the time to retry at. -/
def acquire (now : Time) (token : String) (l : RateLimitLedger) :
    Except Time Unit × RateLimitLedger :=
  match l token with
  | none => (.ok (), l)
  | some b =>
    match b.cooldownUntil.filter fun until_ => decide (now < until_) with
    | some retryAt => (.error retryAt, l)
    | none =>
      if now < b.resetAt ∧ b.remaining ≤ reserveFloor then (.error b.resetAt, l)
      else (.ok (), l.store token { b with remaining := b.remaining - 1 })

/-- The bucket of a token nothing was observed for. -/
def freshBucket (now : Time) : Bucket := ⟨2 ^ 63 - 1, now, none⟩

/-- The cooldown after a response.  The addition panics past the end of `SystemTime`; the other fields
are stored by then and this one is not. -/
def cooldownAfter (now : Time) (current : Option Time) : Option ℕ → Option Time
  | none => current
  | some seconds =>
    if now + seconds * second < systemTimeEnd then some (now + seconds * second) else current

/-- What a response makes of a bucket. -/
def observed (now : Time) (headers : RateLimitHeaders) (b : Bucket) : Bucket where
  remaining := headers.remaining.getD b.remaining
  resetAt := headers.resetEpochSeconds.elim b.resetAt fun epoch => (max epoch 0).toNat * second
  cooldownUntil := cooldownAfter now b.cooldownUntil headers.retryAfterSeconds

/-- `observe`. -/
def observe (now : Time) (token : String) (headers : RateLimitHeaders) (l : RateLimitLedger) :
    RateLimitLedger :=
  l.store token (observed now headers ((l token).getD (freshBucket now)))

/-- A grant. -/
def grants (l : RateLimitLedger) (now : Time) (token : String) : Bool := (l.acquire now token).1.isOk

theorem store_self (l : RateLimitLedger) (token : String) (b : Bucket) :
    l.store token b token = some b := by
  rw [store, Function.update_self]

theorem observe_self (now : Time) (token : String) (headers : RateLimitHeaders)
    (l : RateLimitLedger) :
    l.observe now token headers token =
      some (observed now headers ((l token).getD (freshBucket now))) :=
  l.store_self token _

/-- **What an acquisition does** to a known bucket: it is refused by a running cooldown or by the
reserve before the reset, and it takes one request off otherwise. -/
theorem acquire_cases {l : RateLimitLedger} {token : String} {b : Bucket} (hb : l token = some b)
    (now : Time) :
    (∃ until_, b.cooldownUntil = some until_ ∧ now < until_ ∧
      l.acquire now token = (.error until_, l)) ∨
    ((∀ until_ ∈ b.cooldownUntil, until_ ≤ now) ∧ now < b.resetAt ∧ b.remaining ≤ reserveFloor ∧
      l.acquire now token = (.error b.resetAt, l)) ∨
    ((∀ until_ ∈ b.cooldownUntil, until_ ≤ now) ∧ (now < b.resetAt → reserveFloor < b.remaining) ∧
      l.acquire now token = (.ok (), l.store token { b with remaining := b.remaining - 1 })) := by
  have hacquire : ∀ h : (∀ until_ ∈ b.cooldownUntil, until_ ≤ now),
      l.acquire now token =
        if now < b.resetAt ∧ b.remaining ≤ reserveFloor then (.error b.resetAt, l)
        else (.ok (), l.store token { b with remaining := b.remaining - 1 }) := by
    intro h
    have hfilter : b.cooldownUntil.filter (fun until_ => decide (now < until_)) = none := by
      rw [Option.filter_eq_none_iff]
      intro until_ huntil
      simpa using h until_ huntil
    simp only [acquire, hb, hfilter]
  by_cases hcool : ∃ until_ ∈ b.cooldownUntil, now < until_
  · obtain ⟨until_, huntil, hlt⟩ := hcool
    refine .inl ⟨until_, huntil, hlt, ?_⟩
    have hfilter : b.cooldownUntil.filter (fun until_ => decide (now < until_)) = some until_ := by
      rw [Option.mem_def.mp huntil, Option.filter_some, if_pos (decide_eq_true hlt)]
    simp only [acquire, hb, hfilter]
  · have hpast : ∀ until_ ∈ b.cooldownUntil, until_ ≤ now := fun until_ huntil =>
      Nat.le_of_not_lt fun hlt => hcool ⟨until_, huntil, hlt⟩
    right
    rw [hacquire hpast]
    by_cases hfloor : now < b.resetAt ∧ b.remaining ≤ reserveFloor
    · exact .inl ⟨hpast, hfloor.1, hfloor.2, if_pos hfloor⟩
    · exact .inr ⟨hpast, fun hlt => lt_of_not_ge fun hle => hfloor ⟨hlt, hle⟩, if_neg hfloor⟩

end RateLimitLedger

/-! ### One token in one window -/

/-- What the provider reports: what is left after the request, the end of the window, and the period it
asks to be left alone for. -/
def reported (resetSeconds : ℕ) (left : ℤ) (retryAfter : Option ℕ) : RateLimitHeaders where
  remaining := some left
  resetEpochSeconds := some resetSeconds
  retryAfterSeconds := retryAfter

/-- One token within one reset window.  `replies` are the reports of served requests that were not
observed yet, `periods` the ends of the `Retry-After` periods that were. -/
structure Window where
  ledger : RateLimitLedger
  allowance : ℤ
  inFlight : ℕ
  replies : List (ℤ × Option ℕ)
  periods : List Time

/-- A caller acquires and sends its request, the provider serves one, or the reply `n` is observed. -/
inductive WindowEvent where
  | acquire (now : Time)
  | serve (retryAfter : Option ℕ)
  | observe (n : ℕ) (now : Time)
deriving DecidableEq

namespace Window

variable (token : String) (resetSeconds : ℕ)

/-- The ends of the period a response asks for. -/
def periodsOf (now : Time) (retryAfter : Option ℕ) : List Time :=
  (retryAfter.map fun seconds => now + seconds * second).toList

/-- A window at its first observation, with whatever was in flight before it. -/
def opened (others : RateLimitLedger) (now : Time) (left : ℤ) (retryAfter : Option ℕ)
    (allowance : ℤ) (inFlight : ℕ) (replies : List (ℤ × Option ℕ)) : Window where
  ledger := RateLimitLedger.observe now token (reported resetSeconds left retryAfter)
    (Function.update others token none)
  allowance := allowance
  inFlight := inFlight
  replies := replies
  periods := periodsOf now retryAfter

def step (s : Window) : WindowEvent → Window
  | .acquire now =>
    { s with
      ledger := (s.ledger.acquire now token).2
      inFlight := if s.ledger.grants now token then s.inFlight + 1 else s.inFlight }
  | .serve retryAfter =>
    if s.inFlight = 0 then s
    else
      { s with
        allowance := s.allowance - 1, inFlight := s.inFlight - 1
        replies := s.replies ++ [(s.allowance - 1, retryAfter)] }
  | .observe n now =>
    match s.replies[n]? with
    | none => s
    | some (left, retryAfter) =>
      { s with
        ledger := s.ledger.observe now token (reported resetSeconds left retryAfter)
        replies := s.replies.eraseIdx n
        periods := s.periods ++ periodsOf now retryAfter }

/-- An acquisition granted before the reset. -/
def spent (s : Window) : WindowEvent → ℕ
  | .acquire now => if s.ledger.grants now token ∧ now < resetSeconds * second then 1 else 0
  | _ => 0

/-- No acquisition is granted while an observed period runs. -/
def Patient (s : Window) : WindowEvent → Prop
  | .acquire now => ∀ until_ ∈ s.periods, now < until_ → s.ledger.grants now token = false
  | _ => True

instance (s : Window) : (e : WindowEvent) → Decidable (s.Patient token e)
  | .acquire now =>
    inferInstanceAs (Decidable (∀ until_ ∈ s.periods, now < until_ → s.ledger.grants now token = false))
  | .serve _ | .observe _ _ => inferInstanceAs (Decidable True)

/-- The period ends within `SystemTime`, and not before the cooldown it replaces. -/
def Extends (now : Time) (cooldown : Option Time) (retryAfter : Option ℕ) : Prop :=
  ∀ seconds ∈ retryAfter, now + seconds * second < systemTimeEnd ∧
    ∀ until_ ∈ cooldown, until_ ≤ now + seconds * second

/-- The observed reply reports no more than the counter holds, and no earlier end than the cooldown. -/
def InOrder (s : Window) : WindowEvent → Prop
  | .observe n now => ∀ reply ∈ s.replies[n]?, ∀ b ∈ s.ledger token,
      reply.1 ≤ b.remaining ∧ Extends now b.cooldownUntil reply.2
  | _ => True

/-- The bucket of the window: it ends with the window and its cooldown covers every observed period. -/
structure Kept (s : Window) (b : Bucket) : Prop where
  bucket : s.ledger token = some b
  resetAt : b.resetAt = resetSeconds * second
  covers : ∀ until_ ∈ s.periods, ∃ cooldown, b.cooldownUntil = some cooldown ∧ until_ ≤ cooldown

/-- What the ledger would still grant before the reset. -/
def unspent (s : Window) : ℕ := ((s.ledger token).elim 0 fun b => b.remaining - reserveFloor).toNat

variable {token resetSeconds} {s : Window} {b : Bucket}

theorem Kept.unspent_eq (h : Kept token resetSeconds s b) :
    s.unspent token = (b.remaining - reserveFloor).toNat := by
  rw [unspent, h.bucket]
  rfl

/-- An observation in order covers its own period and the earlier ones. -/
theorem covers_observed {now : Time} {cooldown : Option Time} {retryAfter : Option ℕ}
    {periods : List Time} (hextends : Extends now cooldown retryAfter)
    (hcovers : ∀ until_ ∈ periods, ∃ cd, cooldown = some cd ∧ until_ ≤ cd) :
    ∀ until_ ∈ periods ++ periodsOf now retryAfter,
      ∃ cd, RateLimitLedger.cooldownAfter now cooldown retryAfter = some cd ∧ until_ ≤ cd := by
  cases retryAfter with
  | none =>
    intro until_ huntil
    rw [periodsOf, Option.map_none, Option.toList_none, List.append_nil] at huntil
    exact hcovers until_ huntil
  | some seconds =>
    obtain ⟨hfits, hlater⟩ := hextends seconds rfl
    have hafter : RateLimitLedger.cooldownAfter now cooldown (some seconds) =
        some (now + seconds * second) := if_pos hfits
    intro until_ huntil
    refine ⟨_, hafter, ?_⟩
    rcases List.mem_append.mp huntil with hold | hnew
    · obtain ⟨cd, hcd, hle⟩ := hcovers until_ hold
      exact hle.trans (hlater cd hcd)
    · rw [periodsOf, Option.map_some, Option.toList_some, List.mem_singleton] at hnew
      exact hnew.le

/-- The first observation opens a kept window. -/
theorem kept_opened (others : RateLimitLedger) {now : Time} {left : ℤ} {retryAfter : Option ℕ}
    (hextends : Extends now none retryAfter) (allowance : ℤ) (inFlight : ℕ)
    (replies : List (ℤ × Option ℕ)) :
    (opened token resetSeconds others now left retryAfter allowance inFlight replies).Kept token
      resetSeconds
      (RateLimitLedger.observed now (reported resetSeconds left retryAfter)
        (RateLimitLedger.freshBucket now)) where
  bucket := by
    show RateLimitLedger.observe now token _ (Function.update others token none) token = _
    rw [RateLimitLedger.observe_self, Function.update_self]
    rfl
  resetAt := by
    show (max (resetSeconds : ℤ) 0).toNat * second = resetSeconds * second
    rw [max_eq_left (Int.natCast_nonneg _), Int.toNat_natCast]
  covers := covers_observed hextends fun _ (h : _ ∈ ([] : List Time)) =>
    absurd h List.not_mem_nil

/-- **One event of the window**: the bucket stays kept, a grant before the reset is paid from what was
unspent, and no grant falls into an observed period. -/
theorem Kept.step (h : s.Kept token resetSeconds b) (e : WindowEvent) (he : s.InOrder token e) :
    (∃ b', (s.step token resetSeconds e).Kept token resetSeconds b') ∧
      s.spent token resetSeconds e + (s.step token resetSeconds e).unspent token ≤ s.unspent token ∧
      s.Patient token e := by
  cases e with
  | acquire now =>
    have hrefused : ∀ retryAt, s.ledger.acquire now token = (.error retryAt, s.ledger) →
        (∃ b', (s.step token resetSeconds (.acquire now)).Kept token resetSeconds b') ∧
          s.spent token resetSeconds (.acquire now) +
            (s.step token resetSeconds (.acquire now)).unspent token ≤ s.unspent token ∧
          s.Patient token (.acquire now) := by
      intro retryAt hacquire
      have hgrants : s.ledger.grants now token = false := by
        rw [RateLimitLedger.grants, hacquire]
        rfl
      have hstep : s.step token resetSeconds (.acquire now) = s := by
        simp only [Window.step, hacquire, hgrants, Bool.false_eq_true, if_false]
      rw [hstep]
      refine ⟨⟨b, h⟩, ?_, fun _ _ _ => hgrants⟩
      simp [spent, hgrants]
    obtain ⟨retryAt, -, -, hacquire⟩ | ⟨-, -, -, hacquire⟩ | ⟨hpast, hfloor, hacquire⟩ :=
      RateLimitLedger.acquire_cases h.bucket now
    · exact hrefused _ hacquire
    · exact hrefused _ hacquire
    · have hgrants : s.ledger.grants now token = true := by
        rw [RateLimitLedger.grants, hacquire]
        rfl
      have hkept : (s.step token resetSeconds (.acquire now)).Kept token resetSeconds
          { b with remaining := b.remaining - 1 } := by
        refine ⟨?_, h.resetAt, h.covers⟩
        show (s.ledger.acquire now token).2 token = _
        rw [hacquire]
        exact s.ledger.store_self token _
      refine ⟨⟨_, hkept⟩, ?_, ?_⟩
      · rw [hkept.unspent_eq, h.unspent_eq]
        show (if _ then 1 else 0) + _ ≤ _
        split
        · next hspent =>
          have habove := hfloor (h.resetAt.symm ▸ hspent.2)
          show 1 + (b.remaining - 1 - reserveFloor).toNat ≤ (b.remaining - reserveFloor).toNat
          omega
        · show 0 + (b.remaining - 1 - reserveFloor).toNat ≤ (b.remaining - reserveFloor).toNat
          omega
      · intro until_ huntil hlt
        obtain ⟨cooldown, hcooldown, hle⟩ := h.covers until_ huntil
        exact absurd (hle.trans (hpast cooldown hcooldown)) (Nat.not_le_of_lt hlt)
  | serve retryAfter =>
    have hsame : (s.step token resetSeconds (.serve retryAfter)).ledger = s.ledger ∧
        (s.step token resetSeconds (.serve retryAfter)).periods = s.periods := by
      by_cases hflight : s.inFlight = 0
      · simp only [Window.step, if_pos hflight, and_self]
      · simp only [Window.step, if_neg hflight, and_self]
    have hkept : (s.step token resetSeconds (.serve retryAfter)).Kept token resetSeconds b :=
      ⟨hsame.1 ▸ h.bucket, h.resetAt, hsame.2 ▸ h.covers⟩
    refine ⟨⟨b, hkept⟩, ?_, trivial⟩
    rw [hkept.unspent_eq, h.unspent_eq]
    exact (Nat.zero_add _).le
  | observe n now =>
    cases hreply : s.replies[n]? with
    | none =>
      have hstep : s.step token resetSeconds (.observe n now) = s := by
        simp only [Window.step, hreply]
      rw [hstep]
      exact ⟨⟨b, h⟩, (Nat.zero_add _).le, trivial⟩
    | some reply =>
      obtain ⟨left, retryAfter⟩ := reply
      obtain ⟨hlower, hextends⟩ := he (left, retryAfter) hreply b h.bucket
      have hstep : s.step token resetSeconds (.observe n now) =
          { s with
            ledger := s.ledger.observe now token (reported resetSeconds left retryAfter)
            replies := s.replies.eraseIdx n
            periods := s.periods ++ periodsOf now retryAfter } := by
        simp only [Window.step, hreply]
      have hkept : (s.step token resetSeconds (.observe n now)).Kept token resetSeconds
          (RateLimitLedger.observed now (reported resetSeconds left retryAfter) b) := by
        rw [hstep]
        refine ⟨?_, ?_, ?_⟩
        · show s.ledger.observe now token _ token = _
          rw [RateLimitLedger.observe_self, h.bucket]
          rfl
        · show (max (resetSeconds : ℤ) 0).toNat * second = resetSeconds * second
          rw [max_eq_left (Int.natCast_nonneg _), Int.toNat_natCast]
        · exact covers_observed hextends h.covers
      refine ⟨⟨_, hkept⟩, ?_, trivial⟩
      rw [hkept.unspent_eq, h.unspent_eq]
      show 0 + (left - reserveFloor).toNat ≤ (b.remaining - reserveFloor).toNat
      omega

end Window

/-- **The reserve and the cooldowns.**  From the first observation on, which reported `left` requests,
and along every run whose later observations report no more than the counter holds and no earlier end
than the cooldown: before the reset no more acquisitions are granted than lie above the reserve floor,
and none while an observed period runs. -/
theorem grants_within_reserve (token : String) (resetSeconds : ℕ) (others : RateLimitLedger)
    (now : Time) (left : ℤ) (retryAfter : Option ℕ) (allowance : ℤ) (inFlight : ℕ)
    (replies : List (ℤ × Option ℕ)) (events : List WindowEvent)
    (hfirst : Window.Extends now none retryAfter)
    (horder : Guarded (Window.step token resetSeconds) (Window.InOrder token)
      (Window.opened token resetSeconds others now left retryAfter allowance inFlight replies)
      events) :
    (total (Window.step token resetSeconds) (Window.spent token resetSeconds)
      (Window.opened token resetSeconds others now left retryAfter allowance inFlight replies)
      events : ℤ) ≤ max 0 (left - reserveFloor) ∧
    Guarded (Window.step token resetSeconds) (Window.Patient token)
      (Window.opened token resetSeconds others now left retryAfter allowance inFlight replies)
      events := by
  have hopened : (Window.opened token resetSeconds others now left retryAfter allowance inFlight
      replies).Kept token resetSeconds
      (RateLimitLedger.observed now (reported resetSeconds left retryAfter)
        (RateLimitLedger.freshBucket now)) :=
    Window.kept_opened others hfirst allowance inFlight replies
  constructor
  · have hpays : ∀ s e, (∃ b, Window.Kept token resetSeconds s b) → s.InOrder token e →
        (∃ b, Window.Kept token resetSeconds (s.step token resetSeconds e) b) ∧
          s.spent token resetSeconds e + (s.step token resetSeconds e).unspent token ≤
            0 + s.unspent token := by
      intro s e hs he
      obtain ⟨b, hs⟩ := hs
      obtain ⟨hkept, hspent, -⟩ := hs.step e he
      rw [Nat.zero_add]
      exact ⟨hkept, hspent⟩
    have hpaid := total_le_of_guarded hpays ⟨_, hopened⟩ horder
    rw [total_zero, hopened.unspent_eq] at hpaid
    have hleft : (RateLimitLedger.observed now (reported resetSeconds left retryAfter)
        (RateLimitLedger.freshBucket now)).remaining = left := rfl
    rw [hleft] at hpaid
    omega
  · exact guarded_of_step (P := fun s : Window => ∃ b, s.Kept token resetSeconds b)
      (fun s e ⟨b, hs⟩ he => ⟨(hs.step e he).1, (hs.step e he).2.2⟩) ⟨_, hopened⟩ horder

/-- The account's window: 3 requests left at the first observation, one of them taken and served. -/
theorem grants_within_reserve_account :
    (total (Window.step "account-1" 3600) (Window.spent "account-1" 3600)
      (Window.opened "account-1" 3600 RateLimitLedger.new 0 3 none 3 0 [])
      [.acquire 1, .serve (some 60), .observe 0 2, .acquire 3] : ℤ) ≤ max 0 (3 - reserveFloor) ∧
    Guarded (Window.step "account-1" 3600) (Window.Patient "account-1")
      (Window.opened "account-1" 3600 RateLimitLedger.new 0 3 none 3 0 [])
      [.acquire 1, .serve (some 60), .observe 0 2, .acquire 3] :=
  grants_within_reserve "account-1" 3600 RateLimitLedger.new 0 3 none 3 0 [] _
    (by simp [Window.Extends])
    ⟨trivial, trivial, by
      intro reply hreply b hb
      obtain rfl : (2, some 60) = reply := Option.some.inj hreply
      obtain rfl : (⟨2, 3600 * second, none⟩ : Bucket) = b := Option.some.inj hb
      exact ⟨le_refl _, by simp [Window.Extends, second, systemTimeEnd]⟩, trivial, trivial⟩

/-- A reply observed late puts back what the second acquisition took, and a third one is granted.  A
later period of five seconds ends a minute's cooldown. -/
theorem late_reply_overdraws :
    ¬ (total (Window.step "account-1" 3600) (Window.spent "account-1" 3600)
        (Window.opened "account-1" 3600 RateLimitLedger.new 0 3 none 3 0 [])
        [.acquire 1, .acquire 2, .serve none, .observe 0 3, .acquire 4] : ℤ) ≤
          max 0 (3 - reserveFloor) ∧
    ¬ Guarded (Window.step "account-1" 3600) (Window.Patient "account-1")
        (Window.opened "account-1" 3600 RateLimitLedger.new 0 50 none 50 0 [])
        [.acquire 1, .acquire 2, .serve (some 60), .serve (some 5), .observe 0 (10 * second),
          .observe 0 (11 * second), .acquire (20 * second)] := by
  decide

end GithubCatalog
