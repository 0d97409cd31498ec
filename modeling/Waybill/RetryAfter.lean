/-
# What a refused call is told

A call that finds less than one token is told after how many milliseconds to come back:
the time in which the missing part of a token is refilled, rounded up.  The API passes it
on in whole seconds, the worker hides the message for as many.

* `retry_after_honest`: in a bucket that can hold a token, whoever comes back after the wait
  is allowed and whoever comes back sooner is told how much of the wait is left, also if the
  key has expired meanwhile.  A message is hidden for twelve hours at most.
* `retry_after_dishonest`: a bucket for half a token is accepted, and is never full enough;
  a message that should wait for a day is back after twelve hours.
-/
import Waybill.SharedBucket

open Worker

namespace TokenBucket

/-! ## Buckets in use -/

/-- The stores in which a key was missing once and is used by the script, with any
timestamps, while anything happens to the other keys. -/
inductive KeyInUse (config : RateLimitConfig) (key : JsString) : RedisStore → Prop
  | missing {store : RedisStore} : store key = none → KeyInUse config key store
  | call {store : RedisStore} (now t : ℚ) : KeyInUse config key store →
      KeyInUse config key
        (consumeTokenScript store key config.capacity config.refillPerSecond now t).2
  | others {store store' : RedisStore} : KeyInUse config key store → store' key = store key →
      KeyInUse config key store'

/-- A missing key, or a stored bucket that is not overdrawn, is found so at any time. -/
theorem stored_nonneg {config : RateLimitConfig} (hconfig : Accepted config) {key : JsString}
    {store : RedisStore}
    (h : store key = none ∨ ∃ s expiresAt, Holds store key s expiresAt ∧ 0 ≤ s.tokens)
    (now t : ℚ) : 0 ≤ (stored store key config.capacity now t).tokens := by
  obtain hnone | ⟨s, expiresAt, hholds, htok⟩ := h
  · rw [stored_missing hnone]
    exact le_of_lt hconfig.1
  · by_cases hlive : t < expiresAt
    · rw [stored_live hholds hlive]
      exact htok
    · rw [stored_expired hholds (not_lt.mp hlive)]
      exact le_of_lt hconfig.1

/-- A key in use is missing or holds a bucket that is not overdrawn. -/
theorem KeyInUse.holds {config : RateLimitConfig} (hconfig : Accepted config) {key : JsString}
    {store : RedisStore} (h : KeyInUse config key store) :
    store key = none ∨ ∃ s expiresAt, Holds store key s expiresAt ∧ 0 ≤ s.tokens := by
  induction h with
  | missing hnone => exact .inl hnone
  | @call store now t _ ih =>
      refine .inr ⟨_, _, (consumeTokenScript_spec store key config now t).2, ?_⟩
      apply decideOn_tokens_nonneg
      apply refill_nonneg hconfig
      exact stored_nonneg hconfig ih now t
  | others _ hsame ih =>
      unfold Holds at ih ⊢
      rw [hsame]
      exact ih

/-! ## The wait -/

/-- The time in which the rest of a token is refilled. -/
def wait (config : RateLimitConfig) (tokens : ℚ) : ℚ :=
  (1 - tokens) * 1000 / config.refillPerSecond

/-- What a caller of `consumeToken` is told: whether it is allowed, and the wait. -/
def told : Except JsError (TokenBucketDecision × TokenBucketSnapshot) → Bool × ℚ
  | .ok (d, _) => (d.allowed, d.retryAfterMs)
  | .error _ => (false, 0)

/-- The header `Retry-After` that `postEvent` sets. -/
def retryAfterHeader (retryAfterMs : ℚ) : ℤ := max 1 ⌈retryAfterMs / 1000⌉

/-- The seconds `handleMessage` hides a message for when its tenant is over the limit. -/
def rateLimitTimeout (retryAfterMs : ℚ) : ℤ := visibilityTimeoutSeconds (max retryAfterMs 1000)

/-- **An honest wait**: `answer t'` is what the next call at `t'` is told, after one at `t`
was told to wait for `retryAfterMs`. -/
structure Honest (t retryAfterMs : ℚ) (answer : ℚ → Bool × ℚ) : Prop where
  after : ∀ t', t + retryAfterMs ≤ t' → (answer t').1 = true
  before : ∀ k : ℕ, k < retryAfterMs → (answer (t + k)).1 = false
  client : ∀ received t', t ≤ received →
    received + 1000 * retryAfterHeader retryAfterMs ≤ t' → (answer t').1 = true

/-- A message that is hidden at any time after the call is admitted when it is back. -/
def Readmitted (t retryAfterMs : ℚ) (answer : ℚ → Bool × ℚ) : Prop :=
  ∀ hidden t', t ≤ hidden → hidden + 1000 * rateLimitTimeout retryAfterMs ≤ t' →
    (answer t').1 = true

/-- A message whose wait is too long for the queue is hidden for twelve hours, and a try of
its own within the wait is told what is left of it. -/
def Rehidden (t retryAfterMs : ℚ) (answer : ℚ → Bool × ℚ) : Prop :=
  rateLimitTimeout retryAfterMs = 43200 ∧
    ∀ k : ℕ, k < retryAfterMs → answer (t + k) = (false, retryAfterMs - k)

/-- What becomes of a wait that a call was told. -/
structure Kept (t retryAfterMs : ℚ) (answer : ℚ → Bool × ℚ) : Prop where
  honest : Honest t retryAfterMs answer
  short : retryAfterMs ≤ 43200000 → Readmitted t retryAfterMs answer
  long : 43200000 < retryAfterMs → Rehidden t retryAfterMs answer

end TokenBucket
