import GithubCatalog.ProviderGateway

/-!
# The ranges of the ledger's arithmetic (`rate_limit.rs`)

`observe` adds seconds to a `SystemTime` and `acquire` takes one off an `i64`.

* `addSeconds`, `decrement` - the two operations, with the ends of their ranges;
* `RateLimitLedger.tryObserve`, `RateLimitLedger.tryAcquire` - the operations of the ledger over them;
* `LedgerEvent.Sound`, `LedgerEvent.Fits` - what is asked of a call, and when it is met;
* `ledger_sound_iff` - the runs all of whose calls are sound.
-/

namespace GithubCatalog

open Runs

/-- `SystemTime + Duration::from_secs(seconds)`; none where it panics. -/
def addSeconds (t : Time) (seconds : ℕ) : Option Time :=
  if t + seconds * second < systemTimeEnd then some (t + seconds * second) else none

/-- `n -= 1` on an `i64`; none where it overflows. -/
def decrement (n : ℤ) : Option ℤ := if fitsBigint (n - 1) then some (n - 1) else none

/-- The epoch second of an `i64` is a `SystemTime`. -/
theorem addSeconds_epoch {epoch : ℤ} (h : fitsBigint epoch = true) :
    addSeconds 0 (max epoch 0).toNat = some ((max epoch 0).toNat * second) := by
  simp only [fitsBigint, Bool.and_eq_true, decide_eq_true_eq] at h
  have hlt : (max epoch 0).toNat < 2 ^ 63 := by omega
  have hend : 0 + (max epoch 0).toNat * second < systemTimeEnd := by
    rw [Nat.zero_add]
    exact Nat.mul_lt_mul_of_pos_right hlt (by decide)
  rw [addSeconds, if_pos hend, Nat.zero_add]

/-- Only the least `i64` cannot be decremented. -/
theorem decrement_isSome {n : ℤ} (h : fitsBigint n = true) :
    (decrement n).isSome = true ↔ n ≠ -(2 ^ 63) := by
  simp only [fitsBigint, Bool.and_eq_true, decide_eq_true_eq] at h
  unfold decrement fitsBigint
  split
  · next hfits =>
    simp only [Bool.and_eq_true, decide_eq_true_eq] at hfits
    refine iff_of_true rfl ?_
    omega
  · next hfits =>
    simp only [Bool.and_eq_true, decide_eq_true_eq] at hfits
    refine iff_of_false (by simp) ?_
    omega

/-! ### The operations over them -/

namespace RateLimitLedger

/-- `acquire`; none where the counter overflows. -/
def tryAcquire (now : Time) (token : String) (l : RateLimitLedger) :
    Option (Except Time Unit × RateLimitLedger) :=
  match l token with
  | none => some (.ok (), l)
  | some b =>
    match b.cooldownUntil.filter fun until_ => decide (now < until_) with
    | some retryAt => some (.error retryAt, l)
    | none =>
      if now < b.resetAt ∧ b.remaining ≤ reserveFloor then some (.error b.resetAt, l)
      else (decrement b.remaining).map fun left => (.ok (), l.store token { b with remaining := left })

/-- What a response makes of a bucket; none where an addition panics. -/
def tryObserved (now : Time) (headers : RateLimitHeaders) (b : Bucket) : Option Bucket := do
  let resetAt ← headers.resetEpochSeconds.elim (some b.resetAt) fun epoch =>
    addSeconds 0 (max epoch 0).toNat
  let cooldownUntil ← headers.retryAfterSeconds.elim (some b.cooldownUntil) fun seconds =>
    (addSeconds now seconds).map some
  some ⟨headers.remaining.getD b.remaining, resetAt, cooldownUntil⟩

/-- `observe`; none where an addition panics. -/
def tryObserve (now : Time) (token : String) (headers : RateLimitHeaders) (l : RateLimitLedger) :
    Option RateLimitLedger :=
  (tryObserved now headers ((l token).getD (freshBucket now))).map (l.store token)

/-- A known bucket is left alone by a refusal, and decremented otherwise. -/
theorem tryAcquire_known {l : RateLimitLedger} {token : String} {b : Bucket} (hb : l token = some b)
    (now : Time) :
    ((now < b.resetAt ∨ ∃ until_ ∈ b.cooldownUntil, now < until_) ∧
      l.tryAcquire now token = some (l.acquire now token)) ∨
    ((∀ until_ ∈ b.cooldownUntil, until_ ≤ now) ∧
      ¬ (now < b.resetAt ∧ b.remaining ≤ reserveFloor) ∧
      l.tryAcquire now token = (decrement b.remaining).map fun _ => l.acquire now token) := by
  cases hcool : b.cooldownUntil.filter fun until_ => decide (now < until_) with
  | some retryAt =>
    have hretry := Option.filter_eq_some_iff.mp hcool
    refine .inl ⟨.inr ⟨retryAt, hretry.1, of_decide_eq_true hretry.2⟩, ?_⟩
    simp only [tryAcquire, acquire, hb, hcool]
  | none =>
    by_cases hfloor : now < b.resetAt ∧ b.remaining ≤ reserveFloor
    · refine .inl ⟨.inl hfloor.1, ?_⟩
      simp only [tryAcquire, acquire, hb, hcool, if_pos hfloor]
    · refine .inr ⟨fun until_ huntil => ?_, hfloor, ?_⟩
      · have hpast := Option.filter_eq_none_iff.mp hcool until_ huntil
        simpa using hpast
      · simp only [tryAcquire, acquire, hb, hcool, if_neg hfloor]
        unfold decrement
        split
        · rfl
        · rfl

/-- A refusal names a later time. -/
theorem acquire_refused {l : RateLimitLedger} {token : String} {now retryAt : Time}
    (h : (l.acquire now token).1 = .error retryAt) : now < retryAt := by
  cases hb : l token with
  | none =>
    rw [acquire, hb] at h
    cases h
  | some b =>
    obtain ⟨until_, -, hlt, hacquire⟩ | ⟨-, hlt, -, hacquire⟩ | ⟨-, -, hacquire⟩ :=
      acquire_cases hb now
    · rw [hacquire] at h
      cases h
      exact hlt
    · rw [hacquire] at h
      cases h
      exact hlt
    · rw [hacquire] at h
      cases h

/-- A bucket takes a response in exactly when the period does not leave `SystemTime`. -/
theorem tryObserved_eq {headers : RateLimitHeaders} (now : Time) (b : Bucket)
    (hreset : ∀ epoch ∈ headers.resetEpochSeconds, fitsBigint epoch = true) :
    tryObserved now headers b =
      if ∀ seconds ∈ headers.retryAfterSeconds, now + seconds * second < systemTimeEnd then
        some (observed now headers b)
      else none := by
  have hresetAt : (headers.resetEpochSeconds.elim (some b.resetAt) fun epoch =>
      addSeconds 0 (max epoch 0).toNat) = some (observed now headers b).resetAt := by
    simp only [observed]
    cases hepoch : headers.resetEpochSeconds with
    | none => rw [Option.elim_none, Option.elim_none]
    | some epoch =>
      rw [Option.elim_some, Option.elim_some]
      exact addSeconds_epoch (hreset epoch hepoch)
  have hcooldown : (headers.retryAfterSeconds.elim (some b.cooldownUntil) fun seconds =>
      (addSeconds now seconds).map some) =
        if ∀ seconds ∈ headers.retryAfterSeconds, now + seconds * second < systemTimeEnd then
          some (observed now headers b).cooldownUntil
        else none := by
    simp only [observed]
    cases headers.retryAfterSeconds with
    | none => rw [if_pos (by simp), Option.elim_none, cooldownAfter]
    | some seconds =>
      rw [Option.elim_some, cooldownAfter]
      by_cases hfits : now + seconds * second < systemTimeEnd
      · rw [if_pos (by simpa using hfits), if_pos hfits, addSeconds, if_pos hfits, Option.map_some]
      · rw [if_neg (by simpa using hfits), addSeconds, if_neg hfits, Option.map_none]
  unfold tryObserved
  rw [hresetAt, hcooldown]
  split
  · rfl
  · rfl

end RateLimitLedger

/-! ### Sound calls -/

/-- The counters are `i64` values. -/
def Ranged (l : RateLimitLedger) : Prop :=
  ∀ token, ∀ b ∈ l token, fitsBigint b.remaining = true

namespace LedgerEvent

/-- The types of the header values and of the clock. -/
def InRange : LedgerEvent → Prop
  | .acquire now _ => now < systemTimeEnd
  | .observe now _ headers => now < systemTimeEnd ∧
      (∀ n ∈ headers.remaining, fitsBigint n = true) ∧
      (∀ n ∈ headers.resetEpochSeconds, fitsBigint n = true) ∧
      ∀ n ∈ headers.retryAfterSeconds, n < 2 ^ 64

/-- What `rate_headers_from` parses has the types of its fields. -/
theorem inRange_parsed {now : Time} (hnow : now < systemTimeEnd) (token : String)
    (header : String → Option String) :
    (LedgerEvent.observe now token (rateHeadersFrom header)).InRange := by
  have hsigned : ∀ {text : Option String} {n : ℤ}, n ∈ text.bind parseI64 → fitsBigint n = true := by
    intro text n hn
    obtain ⟨value, -, hvalue⟩ := Option.bind_eq_some_iff.mp (Option.mem_def.mp hn)
    exact (Option.filter_eq_some_iff.mp hvalue).2
  refine ⟨hnow, fun n hn => hsigned hn, fun n hn => hsigned hn, fun n hn => ?_⟩
  obtain ⟨value, -, hvalue⟩ := Option.bind_eq_some_iff.mp (Option.mem_def.mp hn)
  exact of_decide_eq_true (Option.filter_eq_some_iff.mp hvalue).2

/-- What is asked of a call: that it neither panics nor overflows, and a refusal names a later time. -/
def Sound (l : RateLimitLedger) : LedgerEvent → Prop
  | .acquire now token => ∃ answer, l.tryAcquire now token = some answer ∧
      ∀ retryAt, answer.1 = .error retryAt → now < retryAt
  | .observe now token headers => (l.tryObserve now token headers).isSome = true

/-- The period ends within `SystemTime`, and a counter of `i64::MIN` is not drawn on: its reset or its
cooldown is still ahead. -/
def Fits (l : RateLimitLedger) : LedgerEvent → Prop
  | .acquire now token => ∀ b ∈ l token, b.remaining = -(2 ^ 63) →
      now < b.resetAt ∨ ∃ until_ ∈ b.cooldownUntil, now < until_
  | .observe now _ headers => ∀ seconds ∈ headers.retryAfterSeconds,
      now + seconds * second < systemTimeEnd

variable {l : RateLimitLedger}

/-- An acquisition within its range is sound. -/
theorem sound_of_same {now : Time} {token : String}
    (h : l.tryAcquire now token = some (l.acquire now token)) :
    LedgerEvent.Sound l (.acquire now token) :=
  ⟨_, h, fun _ => RateLimitLedger.acquire_refused⟩

/-- **One call.** -/
theorem sound_iff (hl : Ranged l) {e : LedgerEvent} (he : e.InRange) : e.Sound l ↔ e.Fits l := by
  cases e with
  | observe now token headers =>
    show (Option.map _ (RateLimitLedger.tryObserved _ _ _)).isSome = true ↔ _
    rw [RateLimitLedger.tryObserved_eq now _ he.2.2.1, Option.isSome_map]
    split
    · next hfits => exact iff_of_true rfl hfits
    · next hfits => exact iff_of_false (by simp) hfits
  | acquire now token =>
    cases hb : l token with
    | none =>
      have hsame : l.tryAcquire now token = some (l.acquire now token) := by
        simp only [RateLimitLedger.tryAcquire, RateLimitLedger.acquire, hb]
      refine iff_of_true (sound_of_same hsame) fun b hmem => ?_
      rw [hb] at hmem
      cases hmem
    | some b =>
      obtain ⟨hahead, hsame⟩ | ⟨hpast, hfloor, hdraws⟩ := RateLimitLedger.tryAcquire_known hb now
      · refine iff_of_true (sound_of_same hsame) fun b' hb' _ => ?_
        obtain rfl : b = b' := Option.some.inj (hb.symm.trans hb')
        exact hahead
      · have hcounter := decrement_isSome (hl token b hb)
        have hfits : LedgerEvent.Fits l (.acquire now token) ↔ b.remaining ≠ -(2 ^ 63) := by
          constructor
          · intro hfits hleast
            rcases hfits b hb hleast with hreset | ⟨until_, huntil, hlt⟩
            · exact hfloor ⟨hreset, by rw [hleast]; decide⟩
            · exact absurd (hpast until_ huntil) (Nat.not_le_of_lt hlt)
          · intro hmore b' hb' hleast
            obtain rfl : b = b' := Option.some.inj (hb.symm.trans hb')
            exact absurd hleast hmore
        rw [hfits, ← hcounter]
        cases hleft : decrement b.remaining with
        | none =>
          rw [hleft] at hdraws
          refine iff_of_false ?_ (by simp)
          rintro ⟨answer, hanswer, -⟩
          rw [hdraws] at hanswer
          cases hanswer
        | some left =>
          rw [hleft] at hdraws
          exact iff_of_true (sound_of_same hdraws) rfl

/-- **One call keeps the counters in range.** -/
theorem Fits.ranged (hl : Ranged l) {e : LedgerEvent} (he : e.InRange) (h : e.Fits l) :
    Ranged (e.apply l) := by
  have hstored : ∀ {token : String} {b : Bucket}, fitsBigint b.remaining = true →
      Ranged (l.store token b) := by
    intro token b hb token' b' hb'
    by_cases hsame : token' = token
    · rw [hsame, l.store_self] at hb'
      obtain rfl : b = b' := Option.some.inj hb'
      exact hb
    · rw [RateLimitLedger.store, Function.update_of_ne hsame] at hb'
      exact hl token' b' hb'
  cases e with
  | observe now token headers =>
    have hbucket : fitsBigint ((l token).getD (RateLimitLedger.freshBucket now)).remaining = true := by
      cases hb : l token with
      | none => exact (by decide : fitsBigint (2 ^ 63 - 1) = true)
      | some b => exact hl token b hb
    refine hstored ?_
    show fitsBigint (headers.remaining.getD _) = true
    cases hremaining : headers.remaining with
    | some n => exact he.2.1 n hremaining
    | none => exact hbucket
  | acquire now token =>
    show Ranged (l.acquire now token).2
    cases hb : l token with
    | none =>
      rw [RateLimitLedger.acquire, hb]
      exact hl
    | some b =>
      obtain ⟨_, -, -, hacquire⟩ | ⟨-, -, -, hacquire⟩ | ⟨hpast, hfloor, hacquire⟩ :=
        RateLimitLedger.acquire_cases hb now
      · rw [hacquire]
        exact hl
      · rw [hacquire]
        exact hl
      · rw [hacquire]
        refine hstored ?_
        -- A counter at the least `i64` would have been refused.
        have hmore : b.remaining ≠ -(2 ^ 63) := by
          intro hleast
          rcases h b hb hleast with hreset | ⟨until_, huntil, hlt⟩
          · have habove := hfloor hreset
            rw [hleast] at habove
            exact absurd habove (by decide)
          · exact absurd (hpast until_ huntil) (Nat.not_le_of_lt hlt)
        have hrange := hl token b hb
        simp only [fitsBigint, Bool.and_eq_true, decide_eq_true_eq] at hrange ⊢
        omega

end LedgerEvent

/-- **The ledger's arithmetic.**  In every run of observations, of whatever the headers can hold, and
acquisitions, all calls are sound - none panics or overflows, and every refusal names a later time -
exactly when every observed `Retry-After` ends within `SystemTime` and no counter of `i64::MIN` is
drawn on. -/
theorem ledger_sound_iff (events : List LedgerEvent) (hevents : ∀ e ∈ events, e.InRange) :
    Guarded LedgerEvent.apply LedgerEvent.Sound RateLimitLedger.new events ↔
      Guarded LedgerEvent.apply LedgerEvent.Fits RateLimitLedger.new events := by
  have hnew : Ranged RateLimitLedger.new := fun token b hb => nomatch hb
  constructor
  · intro hsound
    refine guarded_of_step (P := Ranged) ?_ hnew (hsound.and (guarded_of_forall hevents))
    rintro l e hl ⟨hcall, he⟩
    have hfits := (LedgerEvent.sound_iff hl he).mp hcall
    exact ⟨hfits.ranged hl he, hfits⟩
  · intro hfits
    refine guarded_of_step (P := Ranged) ?_ hnew (hfits.and (guarded_of_forall hevents))
    rintro l e hl ⟨hcall, he⟩
    exact ⟨hcall.ranged hl he, (LedgerEvent.sound_iff hl he).mpr hcall⟩

/-- An allowance of two, one of them taken, and a refusal until the reset. -/
theorem ledger_sound_reserve :
    Guarded LedgerEvent.apply LedgerEvent.Sound RateLimitLedger.new
      [.observe 0 "account-1" (reported 3600 2 (some 60)), .acquire (60 * second) "account-1",
        .acquire (61 * second) "account-1"] := by
  refine (ledger_sound_iff _ ?_).mpr ⟨?_, ?_, ?_, trivial⟩
  · simp [LedgerEvent.InRange, reported, systemTimeEnd, second, fitsBigint]
  · simp [LedgerEvent.Fits, reported, systemTimeEnd, second]
  · intro b hb hleast
    obtain rfl : (⟨2, 3600 * second, some (0 + 60 * second)⟩ : Bucket) = b := Option.some.inj hb
    exact absurd hleast (by decide)
  · intro b hb hleast
    obtain rfl : (⟨1, 3600 * second, some (0 + 60 * second)⟩ : Bucket) = b := Option.some.inj hb
    exact absurd hleast (by decide)

/-- A `Retry-After` of `u64::MAX` panics; a counter of `i64::MIN` overflows after its reset. -/
theorem ledger_unsound :
    (LedgerEvent.observe 0 "account-1" (reported 3600 2 (some (2 ^ 64 - 1)))).InRange ∧
    ¬ Guarded LedgerEvent.apply LedgerEvent.Sound RateLimitLedger.new
        [.observe 0 "account-1" (reported 3600 2 (some (2 ^ 64 - 1)))] ∧
    (LedgerEvent.observe 0 "account-1" (reported 3600 (-(2 ^ 63)) none)).InRange ∧
    ¬ Guarded LedgerEvent.apply LedgerEvent.Sound RateLimitLedger.new
        [.observe 0 "account-1" (reported 3600 (-(2 ^ 63)) none),
          .acquire (3600 * second) "account-1"] := by
  refine ⟨?_, ?_, ?_, ?_⟩
  · simp [LedgerEvent.InRange, reported, systemTimeEnd, second, fitsBigint]
  · rintro ⟨hcall, -⟩
    have hnone : RateLimitLedger.new.tryObserve 0 "account-1"
        (reported 3600 2 (some (2 ^ 64 - 1))) = none := by
      rfl
    rw [LedgerEvent.Sound, hnone] at hcall
    cases hcall
  · simp [LedgerEvent.InRange, reported, systemTimeEnd, second, fitsBigint]
  · rintro ⟨-, ⟨answer, hanswer, -⟩, -⟩
    have hnone : (RateLimitLedger.new.observe 0 "account-1"
        (reported 3600 (-(2 ^ 63)) none)).tryAcquire (3600 * second) "account-1" = none := by
      rfl
    cases hnone.symm.trans hanswer

end GithubCatalog
