/-
# How many calls a token bucket admits

The bound one expects of a bucket of capacity `c` refilled with `r` tokens a second is
`c + r · span / 1000` admissions, `span` being the distance between the first and the last
moment of its use.  Timestamps are supplied by the callers, so they need not come in
order; what the bucket is really refilled for is the *forward travel* of the timestamps,
the sum of all their steps forward.

* `allowedCalls_le_travel`: the bound with the travel in place of the span;
* `allowedCalls_two_of_travel`: a small bucket that is refilled for the whole travel;
* `allowedEvals_eq_allowedCalls`: the script admits the same calls;
* `admissionBound_when`: so the bound holds for timestamps that do not travel further than
  they span, and fails for all others.
-/
import Waybill.TokenBucket

namespace TokenBucket

/-! ## Counting -/

/-- How many of the calls at these times `consumeToken` allows. -/
def allowedCalls (config : RateLimitConfig) : TokenBucketSnapshot → List ℚ → ℕ
  | _, [] => 0
  | s, now :: rest =>
      match consumeToken s now (toOverrides config) with
      | .ok (d, s') => (if d.allowed then 1 else 0) + allowedCalls config s' rest
      | .error _ => 0

/-- A call of the script: when the store executes it, and the caller's timestamp. -/
structure ScriptCall where
  storeTime : ℚ
  now : ℚ

/-- How many of these calls `CONSUME_TOKEN_SCRIPT` allows on one key. -/
def allowedEvals (config : RateLimitConfig) (key : JsString) : RedisStore → List ScriptCall → ℕ
  | _, [] => 0
  | store, call :: rest =>
      let result := consumeTokenScript store key config.capacity config.refillPerSecond
        call.now call.storeTime
      (if result.1.1 = 1 then 1 else 0) + allowedEvals config key result.2 rest

/-- When the key expires between two calls, the callers' clocks have seen the time pass in
which an empty bucket fills up, too. -/
def Patient (config : RateLimitConfig) (a b : ScriptCall) : Prop :=
  a.storeTime + ttlMs config ≤ b.storeTime →
    a.now + 1000 * config.capacity / config.refillPerSecond ≤ b.now

/-- The distance between the largest and the smallest timestamp. -/
def span : List ℚ → ℚ
  | [] => 0
  | t :: ts => ts.foldl max t - ts.foldl min t

/-- The sum of the steps forward. -/
def travel : List ℚ → ℚ
  | a :: b :: ts => max 0 (b - a) + travel (b :: ts)
  | _ => 0

theorem span_nonneg (ts : List ℚ) : 0 ≤ span ts := by
  cases ts with
  | nil => exact le_refl _
  | cons t ts =>
      have hmax : ∀ (l : List ℚ) (a : ℚ), a ≤ l.foldl max a := by
        intro l
        induction l with
        | nil => intro a; exact le_refl a
        | cons b l ih => intro a; exact le_trans (le_max_left a b) (ih (max a b))
      have hmin : ∀ (l : List ℚ) (a : ℚ), l.foldl min a ≤ a := by
        intro l
        induction l with
        | nil => intro a; exact le_refl a
        | cons b l ih => intro a; exact le_trans (ih (min a b)) (min_le_left a b)
      exact sub_nonneg.mpr (le_trans (hmin ts t) (hmax ts t))

/-! ## The bound -/

/-- One call of the fold. -/
theorem allowedCalls_cons {config : RateLimitConfig} (h : Accepted config)
    (s : TokenBucketSnapshot) (now : ℚ) (rest : List ℚ) :
    allowedCalls config s (now :: rest) =
      (if (decideOn config (refill config s now)).allowed then 1 else 0) +
        allowedCalls config
          { tokens := (decideOn config (refill config s now)).tokens, lastRefillAt := now }
          rest := by
  rw [allowedCalls, consumeToken_eq_refill h]

/-- **Admissions are paid for by travel**: a bucket allows at most what it holds and what
the steps forward bring in. -/
theorem allowedCalls_le_travel {config : RateLimitConfig} (h : Accepted config) :
    ∀ (ts : List ℚ) (s : TokenBucketSnapshot), 0 ≤ s.tokens →
      (allowedCalls config s ts : ℚ) ≤
        s.tokens + travel (s.lastRefillAt :: ts) * config.refillPerSecond / 1000 := by
  intro ts
  induction ts with
  | nil =>
      intro s hs
      simpa [allowedCalls, travel] using hs
  | cons now rest ih =>
      intro s hs
      have hle : refill config s now ≤
          s.tokens + max 0 (now - s.lastRefillAt) * config.refillPerSecond / 1000 :=
        min_le_right _ _
      have hrest := ih
        { tokens := (decideOn config (refill config s now)).tokens, lastRefillAt := now }
        (decideOn_tokens_nonneg (refill_nonneg h hs now))
      have htok := decideOn_tokens config (refill config s now)
      rw [allowedCalls_cons h, travel]
      push_cast
      simp only at hrest
      rw [add_mul, add_div]
      linarith

/-- A full bucket: the timestamp it was last refilled at does not matter. -/
theorem allowedCalls_full_le_travel {config : RateLimitConfig} (h : Accepted config) (last : ℚ)
    (ts : List ℚ) :
    (allowedCalls config { tokens := config.capacity, lastRefillAt := last } ts : ℚ) ≤
      config.capacity + config.refillPerSecond * travel ts / 1000 := by
  cases ts with
  | nil => simpa [allowedCalls, travel] using le_of_lt h.1
  | cons now rest =>
      have hrest := allowedCalls_le_travel h rest
        { tokens := (decideOn config config.capacity).tokens, lastRefillAt := now }
        (decideOn_tokens_nonneg (le_of_lt h.1))
      have htok := decideOn_tokens config config.capacity
      rw [allowedCalls_cons h, refill_full h]
      push_cast
      simp only at hrest
      rw [mul_comm config.refillPerSecond]
      linarith

/-! ## The bound is sharp -/

/-- Buckets of capacity one that gain one token in `τ` milliseconds. -/
def unitConfig (τ : ℚ) : RateLimitConfig := { capacity := 1, refillPerSecond := 1000 / τ }

theorem accepted_unitConfig {τ : ℚ} (h : 0 < τ) : Accepted (unitConfig τ) :=
  ⟨one_pos, div_pos (by norm_num) h⟩

/-- As long as a token is missing, every step forward counts; so once the travel is long
enough to bring it in, some call is allowed. -/
theorem allowedCalls_pos_of_travel {τ : ℚ} (h : 0 < τ) :
    ∀ (ts : List ℚ) (s : TokenBucketSnapshot), 0 ≤ s.tokens → s.tokens < 1 →
      1 ≤ s.tokens + travel (s.lastRefillAt :: ts) / τ → 0 < allowedCalls (unitConfig τ) s ts := by
  intro ts
  induction ts with
  | nil =>
      intro s _ hlt htravel
      simp only [travel, zero_div, add_zero] at htravel
      exact absurd htravel (not_le.mpr hlt)
  | cons now rest ih =>
      intro s hnn hlt htravel
      rw [allowedCalls_cons (accepted_unitConfig h)]
      have hgain : s.tokens + max 0 (now - s.lastRefillAt) * (1000 / τ) / 1000 =
          s.tokens + max 0 (now - s.lastRefillAt) / τ := by
        field_simp
      by_cases hr : refill (unitConfig τ) s now < 1
      · -- denied: the tokens gained so far stay in the bucket
        have hrefill : refill (unitConfig τ) s now =
            s.tokens + max 0 (now - s.lastRefillAt) / τ := by
          rw [← hgain]
          refine min_eq_right (le_of_lt ?_)
          by_contra hge
          have hcap : refill (unitConfig τ) s now = 1 := min_eq_left (not_lt.mp hge)
          exact absurd hr (by rw [hcap]; exact lt_irrefl 1)
        have hdec : decideOn (unitConfig τ) (refill (unitConfig τ) s now) =
            { allowed := false, tokens := refill (unitConfig τ) s now
              retryAfterMs := ⌈(1 - refill (unitConfig τ) s now) * 1000 /
                (unitConfig τ).refillPerSecond⌉ } := if_pos hr
        have hpos := ih { tokens := refill (unitConfig τ) s now, lastRefillAt := now }
          (refill_nonneg (accepted_unitConfig h) hnn now) hr (by
            simp only
            rw [hrefill]
            rw [travel, add_div] at htravel
            linarith)
        rw [hdec]
        simpa using hpos
      -- the first call is admitted
      · have hallowed : (decideOn (unitConfig τ) (refill (unitConfig τ) s now)).allowed = true := by
          rw [decideOn, if_neg hr]
        rw [hallowed]
        simp

/-- **The whole travel is paid out**: a full bucket of capacity one that gains a token over
the whole travel allows two calls. -/
theorem allowedCalls_two_of_travel {ts : List ℚ} (h : 0 < travel ts) (last : ℚ) :
    2 ≤ allowedCalls (unitConfig (travel ts)) { tokens := 1, lastRefillAt := last } ts := by
  cases ts with
  | nil => exact absurd h (lt_irrefl _)
  | cons now rest =>
      have hacc := accepted_unitConfig h
      have hfull : refill (unitConfig (travel (now :: rest)))
          { tokens := 1, lastRefillAt := last } now = 1 := refill_full hacc last now
      rw [allowedCalls_cons hacc, hfull]
      have hdec : decideOn (unitConfig (travel (now :: rest))) 1 =
          { allowed := true, tokens := 0, retryAfterMs := 0 } := by
        simp [decideOn]
      rw [hdec]
      have hpos := allowedCalls_pos_of_travel h rest { tokens := 0, lastRefillAt := now }
        (le_refl _) one_pos (by rw [div_self (ne_of_gt h)]; simp)
      simp only [if_true]
      omega

/-! ## The script admits the same calls -/

/-- One call of the script, on a bucket that refills to the same amount as `s`. -/
theorem allowedEvals_cons {config : RateLimitConfig} {key : JsString} {store : RedisStore}
    {call : ScriptCall} (rest : List ScriptCall) {refilled : ℚ}
    (h : refill config (stored store key config.capacity call.now call.storeTime) call.now =
      refilled) :
    ∃ store', Holds store' key
        { tokens := (decideOn config refilled).tokens, lastRefillAt := call.now }
        (call.storeTime + ttlMs config) ∧
      allowedEvals config key store (call :: rest) =
        (if (decideOn config refilled).allowed then 1 else 0) +
          allowedEvals config key store' rest := by
  obtain ⟨hreply, hholds⟩ := consumeTokenScript_spec store key config call.now call.storeTime
  rw [h] at hreply hholds
  refine ⟨_, hholds, ?_⟩
  rw [allowedEvals]
  simp only [hreply]
  cases (decideOn config refilled).allowed <;> simp

/-- From a stored bucket on, patient calls of the script and calls in memory agree. -/
theorem allowedEvals_of_holds {config : RateLimitConfig} (h : Accepted config) (key : JsString) :
    ∀ (calls : List ScriptCall) (store : RedisStore) (prev : ScriptCall) (tokens : ℚ),
      0 ≤ tokens → Holds store key { tokens := tokens, lastRefillAt := prev.now }
        (prev.storeTime + ttlMs config) → (prev :: calls).IsChain (Patient config) →
      allowedEvals config key store calls =
        allowedCalls config { tokens := tokens, lastRefillAt := prev.now }
          (calls.map ScriptCall.now) := by
  intro calls
  induction calls with
  | nil => intros; rfl
  | cons call rest ih =>
      intro store prev tokens htok hholds hchain
      rw [List.isChain_cons_cons] at hchain
      have hsame : refill config (stored store key config.capacity call.now call.storeTime)
          call.now = refill config { tokens := tokens, lastRefillAt := prev.now } call.now := by
        by_cases ht : call.storeTime < prev.storeTime + ttlMs config
        · rw [stored_live hholds ht]
        · -- an expired key is a full bucket, and so would the stored one be by now
          rw [stored_expired hholds (not_lt.mp ht), refill_full h,
            refill_eq_capacity h htok (hchain.1 (not_lt.mp ht))]
      obtain ⟨store', hholds', hcount⟩ := allowedEvals_cons rest hsame
      rw [hcount, List.map_cons, allowedCalls_cons h,
        ih store' call _ (decideOn_tokens_nonneg (refill_nonneg h htok call.now)) hholds' hchain.2]

/-- A key whose bucket is full: it is missing, or stores the whole capacity. -/
def FullBucket (config : RateLimitConfig) (store : RedisStore) (key : JsString) : Prop :=
  store key = none ∨ ∃ last expiresAt,
    Holds store key { tokens := config.capacity, lastRefillAt := last } expiresAt

/-- The first call on a full bucket finds the whole capacity. -/
theorem refill_of_fullBucket {config : RateLimitConfig} (h : Accepted config) {key : JsString}
    {store : RedisStore} (hfull : FullBucket config store key) (now t : ℚ) :
    refill config (stored store key config.capacity now t) now = config.capacity := by
  rcases hfull with hkey | ⟨last, expiresAt, hholds⟩
  · rw [stored_missing hkey, refill_full h]
  · by_cases ht : t < expiresAt
    · rw [stored_live hholds ht, refill_full h]
    · rw [stored_expired hholds (not_lt.mp ht), refill_full h]

/-- **The script agrees with the bucket in memory**, from a full bucket. -/
theorem allowedEvals_eq_allowedCalls {config : RateLimitConfig} (h : Accepted config)
    {key : JsString} {store : RedisStore} (hfull : FullBucket config store key)
    {calls : List ScriptCall} (hchain : calls.IsChain (Patient config)) (last : ℚ) :
    allowedEvals config key store calls =
      allowedCalls config { tokens := config.capacity, lastRefillAt := last }
        (calls.map ScriptCall.now) := by
  cases calls with
  | nil => rfl
  | cons call rest =>
      obtain ⟨store', hholds', hcount⟩ :=
        allowedEvals_cons rest (refill_of_fullBucket h hfull call.now call.storeTime)
      rw [hcount, List.map_cons, allowedCalls_cons h, refill_full h,
        allowedEvals_of_holds h key rest store' call _
          (decideOn_tokens_nonneg (le_of_lt h.1)) hholds' hchain]

/-! ## The admission bound -/

/-- The timestamps of the calls. -/
def timestamps (calls : List ScriptCall) : List ℚ := calls.map ScriptCall.now

/-- The bound under a configuration: from every full bucket, in memory or in Redis, these calls
are allowed at most `c + r · span / 1000` times. -/
def AdmissionBound (config : RateLimitConfig) (calls : List ScriptCall) : Prop :=
  (∀ last, (allowedCalls config { tokens := config.capacity, lastRefillAt := last }
      (timestamps calls) : ℚ) ≤
    config.capacity + config.refillPerSecond * span (timestamps calls) / 1000) ∧
  ∀ (store : RedisStore) (key : JsString), FullBucket config store key →
    (allowedEvals config key store calls : ℚ) ≤
      config.capacity + config.refillPerSecond * span (timestamps calls) / 1000

/-- The bound holds for timestamps that do not travel further than they span, if the key does
not expire before the callers' clocks have seen the bucket fill up. -/
theorem admissionBound_of_travel {config : RateLimitConfig} (h : Accepted config)
    {calls : List ScriptCall} (htravel : travel (timestamps calls) ≤ span (timestamps calls))
    (hpatient : calls.IsChain (Patient config)) : AdmissionBound config calls := by
  have hmono : config.refillPerSecond * travel (timestamps calls) / 1000 ≤
      config.refillPerSecond * span (timestamps calls) / 1000 := by
    have hmul := mul_le_mul_of_nonneg_left htravel (le_of_lt h.2)
    linarith
  have hcalls : ∀ last,
      (allowedCalls config { tokens := config.capacity, lastRefillAt := last }
          (timestamps calls) : ℚ) ≤
        config.capacity + config.refillPerSecond * span (timestamps calls) / 1000 := by
    intro last
    have hle := allowedCalls_full_le_travel h last (timestamps calls)
    linarith
  refine ⟨hcalls, fun store key hfull => ?_⟩
  rw [allowedEvals_eq_allowedCalls h hfull hpatient 0]
  exact hcalls 0

/-- Timestamps that travel further than they span break the bound under the configuration of a
small bucket. -/
theorem exists_bound_broken {calls : List ScriptCall}
    (htravel : span (timestamps calls) < travel (timestamps calls)) :
    ∃ config, Accepted config ∧ ¬ AdmissionBound config calls := by
  have hpos : 0 < travel (timestamps calls) := lt_of_le_of_lt (span_nonneg _) htravel
  refine ⟨unitConfig (travel (timestamps calls)), accepted_unitConfig hpos, fun hbound => ?_⟩
  have hle := hbound.1 0
  have htwo : (2 : ℚ) ≤ allowedCalls (unitConfig (travel (timestamps calls)))
      { tokens := 1, lastRefillAt := 0 } (timestamps calls) := by
    exact_mod_cast allowedCalls_two_of_travel hpos 0
  have hspan : 1000 / travel (timestamps calls) * span (timestamps calls) / 1000 < 1 := by
    have heq : 1000 / travel (timestamps calls) * span (timestamps calls) / 1000 =
        span (timestamps calls) / travel (timestamps calls) := by field_simp
    rw [heq]
    exact (div_lt_one hpos).mpr htravel
  have hconf : (unitConfig (travel (timestamps calls))).capacity = 1 ∧
      (unitConfig (travel (timestamps calls))).refillPerSecond =
        1000 / travel (timestamps calls) := ⟨rfl, rfl⟩
  rw [hconf.1, hconf.2] at hle
  linarith

/-- **When the bound holds**: under an accepted configuration, for the timestamps that do not
travel forward further than their span, as timestamps that never step back do, unless the store
forgets the key too early under this configuration; and all other timestamps break it under some
configuration. -/
theorem admissionBound_when (calls : List ScriptCall) :
    (∀ config, Accepted config → travel (timestamps calls) ≤ span (timestamps calls) →
      calls.IsChain (Patient config) → AdmissionBound config calls) ∧
    (span (timestamps calls) < travel (timestamps calls) →
      ∃ config, Accepted config ∧ ¬ AdmissionBound config calls) :=
  ⟨fun _ h htravel hpatient => admissionBound_of_travel h htravel hpatient, exists_bound_broken⟩

/-- Two clocks a second apart: five calls, three of them allowed, where the bound is two. -/
theorem admission_clock_steps_back : ¬ ∀ config calls, Accepted config →
    AdmissionBound config calls := by
  intro h
  have hle := (h { capacity := 1, refillPerSecond := 1 }
    [⟨0, 1000⟩, ⟨1, 0⟩, ⟨2, 1000⟩, ⟨3, 0⟩, ⟨4, 1000⟩] ⟨by norm_num, by norm_num⟩).1 1000
  revert hle
  decide +kernel

end TokenBucket
