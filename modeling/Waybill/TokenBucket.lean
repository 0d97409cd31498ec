/-
# The token bucket (`shared/src/rate-limit.ts`)

The same bucket is written twice in the source: `consumeToken` works on a snapshot in
memory, `CONSUME_TOKEN_SCRIPT` on a Redis hash that is deleted some time after its last
use.  Both are here, in exact arithmetic.

* `consumeToken_eq_refill`: one call refills the bucket up to its capacity, never for
  negative elapsed time, and takes a token if there is one.
* `consumeTokenScript_spec`: the script does the same to the bucket it finds, a missing or
  expired key being a full bucket.
-/
import Waybill.Redis

/-- `RateLimitConfig`. -/
structure RateLimitConfig where
  capacity : ℚ
  refillPerSecond : ℚ
  deriving DecidableEq

/-- `Partial<RateLimitConfig>`. -/
structure RateLimitOverrides where
  capacity : Option ℚ := none
  refillPerSecond : Option ℚ := none

/-- `TokenBucketSnapshot`. -/
structure TokenBucketSnapshot where
  tokens : ℚ
  lastRefillAt : ℚ
  deriving DecidableEq

/-- `TokenBucketDecision`. -/
structure TokenBucketDecision where
  allowed : Bool
  tokens : ℚ
  retryAfterMs : ℚ
  deriving DecidableEq

namespace TokenBucket

/-! ## Configuration -/

/-- `DEFAULT_CONFIG`. -/
def defaultConfig : RateLimitConfig := { capacity := 10, refillPerSecond := 10 }

/-- A whole configuration, passed on as overrides. -/
def toOverrides (config : RateLimitConfig) : RateLimitOverrides :=
  { capacity := some config.capacity, refillPerSecond := some config.refillPerSecond }

/-- `normalizeRateLimitConfig`. -/
def normalizeRateLimitConfig (overrides : RateLimitOverrides) :
    Except JsError RateLimitConfig :=
  let config : RateLimitConfig :=
    { capacity := overrides.capacity.getD defaultConfig.capacity
      refillPerSecond := overrides.refillPerSecond.getD defaultConfig.refillPerSecond }
  if config.capacity ≤ 0 ∨ config.refillPerSecond ≤ 0 then
    .error { message := js "rate limit capacity and refill rate must be positive" }
  else .ok config

/-- The configurations `normalizeRateLimitConfig` accepts. -/
def Accepted (config : RateLimitConfig) : Prop :=
  0 < config.capacity ∧ 0 < config.refillPerSecond

theorem normalize_eq_ok_iff (overrides : RateLimitOverrides) (config : RateLimitConfig) :
    normalizeRateLimitConfig overrides = .ok config ↔
      config = { capacity := overrides.capacity.getD defaultConfig.capacity
                 refillPerSecond :=
                  overrides.refillPerSecond.getD defaultConfig.refillPerSecond } ∧
        Accepted config := by
  unfold normalizeRateLimitConfig
  simp only
  split_ifs with h
  · constructor
    · intro hc
      cases hc
    · rintro ⟨rfl, hc, hr⟩
      rcases h with h | h
      · exact absurd hc (not_lt.mpr h)
      · exact absurd hr (not_lt.mpr h)
  · rw [not_or, not_le, not_le] at h
    constructor
    · rintro ⟨⟩
      exact ⟨rfl, h⟩
    · rintro ⟨rfl, -⟩
      rfl

/-- An accepted configuration is kept as it is. -/
theorem normalize_toOverrides {config : RateLimitConfig} (h : Accepted config) :
    normalizeRateLimitConfig (toOverrides config) = .ok config := by
  rw [normalize_eq_ok_iff]
  exact ⟨rfl, h⟩

/-! ## The bucket in memory -/

/-- `consumeToken`: the decision and the snapshot after. -/
def consumeToken (current : TokenBucketSnapshot) (now : ℚ) (overrides : RateLimitOverrides) :
    Except JsError (TokenBucketDecision × TokenBucketSnapshot) :=
  match normalizeRateLimitConfig overrides with
  | .error e => .error e
  | .ok config =>
      -- a clock that steps back adds nothing
      let elapsedMs := max 0 (now - current.lastRefillAt)
      let refilled := min config.capacity
        (current.tokens + elapsedMs * config.refillPerSecond / 1000)
      if refilled < 1 then
        .ok ({ allowed := false, tokens := refilled
               retryAfterMs := ⌈(1 - refilled) * 1000 / config.refillPerSecond⌉ },
          { tokens := refilled, lastRefillAt := now })
      else
        let tokens := refilled - 1
        .ok ({ allowed := true, tokens := tokens, retryAfterMs := 0 },
          { tokens := tokens, lastRefillAt := now })

/-- What the bucket holds when a call has refilled it. -/
def refill (config : RateLimitConfig) (s : TokenBucketSnapshot) (now : ℚ) : ℚ :=
  min config.capacity (s.tokens + max 0 (now - s.lastRefillAt) * config.refillPerSecond / 1000)

/-- The decision on a refilled bucket. -/
def decideOn (config : RateLimitConfig) (refilled : ℚ) : TokenBucketDecision :=
  if refilled < 1 then
    { allowed := false, tokens := refilled
      retryAfterMs := ⌈(1 - refilled) * 1000 / config.refillPerSecond⌉ }
  else { allowed := true, tokens := refilled - 1, retryAfterMs := 0 }

/-- **One call**: refill, then decide; the snapshot keeps the tokens that are left. -/
theorem consumeToken_eq_refill {config : RateLimitConfig} (h : Accepted config)
    (s : TokenBucketSnapshot) (now : ℚ) :
    consumeToken s now (toOverrides config) =
      .ok (decideOn config (refill config s now),
        { tokens := (decideOn config (refill config s now)).tokens, lastRefillAt := now }) := by
  unfold consumeToken
  rw [normalize_toOverrides h]
  by_cases hr : refill config s now < 1
  · rw [decideOn, if_pos hr]
    exact if_pos hr
  · rw [decideOn, if_neg hr]
    exact if_neg hr

/-! ## The bucket in Redis -/

/-- `tonumber(redis.call('HGET', …))`: `nil` for a missing field and for a text that is no
number. -/
def hgetNumber (raw : RedisHash) (name : JsString) : Option ℚ :=
  match raw.field name with
  | some (.number q) => some q
  | _ => none

/-- A Lua number in a reply: cut down to an integer. -/
def replyInteger (q : ℚ) : ℤ := if 0 ≤ q then ⌊q⌋ else ⌈q⌉

/-- The branch of the script on the refilled bucket: `allowed`, `tokens`,
`retry_after_ms`. -/
def scriptBranch (tokens refillPerSecond : ℚ) : ℚ × ℚ × ℚ :=
  if tokens ≥ 1 then (1, tokens - 1, 0)
  else (0, tokens, ⌈(1 - tokens) * 1000 / refillPerSecond⌉)

/-- `CONSUME_TOKEN_SCRIPT`: the three numbers of the reply and the store after, for a
script executed at time `t` of the store. -/
def consumeTokenScript (store : RedisStore) (key : JsString)
    (capacity refillPerSecond now t : ℚ) : (ℤ × ℤ × ℤ) × RedisStore :=
  let raw := store.get key t
  let tokens := (hgetNumber raw (js "tokens")).getD capacity
  let lastRefillAt := (hgetNumber raw (js "lastRefillAt")).getD now
  let elapsed := max 0 (now - lastRefillAt)
  let tokens := min capacity (tokens + elapsed * refillPerSecond / 1000)
  let reply := scriptBranch tokens refillPerSecond
  let store := store.hset key
    [(js "tokens", .number reply.2.1), (js "lastRefillAt", .number now)] t
  let store := store.pexpire key ⌈1000 * capacity / refillPerSecond⌉ t
  ((replyInteger reply.1, replyInteger reply.2.1, replyInteger reply.2.2), store)

/-- `scope` of a limit. -/
inductive Scope where
  | ingestion
  | delivery
  deriving DecidableEq

/-- The text of a scope. -/
def Scope.text : Scope → JsString
  | .ingestion => js "ingestion"
  | .delivery => js "delivery"

/-- `tenantRateLimitKey`. -/
def tenantRateLimitKey (tenantId : JsString) (scope : Scope) : JsString :=
  js "waybill:rate-limit:" ++ scope.text ++ js ":tenant:" ++ tenantId

/-! ## The stored bucket -/

/-- The bucket the script finds: the stored one, or a full one where there is none. -/
def stored (store : RedisStore) (key : JsString) (capacity now t : ℚ) : TokenBucketSnapshot :=
  { tokens := (hgetNumber (store.get key t) (js "tokens")).getD capacity
    lastRefillAt := (hgetNumber (store.get key t) (js "lastRefillAt")).getD now }

/-- The bucket a key holds until it expires. -/
def Holds (store : RedisStore) (key : JsString) (s : TokenBucketSnapshot) (expiresAt : ℚ) :
    Prop :=
  ∃ hash, store key = some ⟨hash, some expiresAt⟩ ∧
    hgetNumber hash (js "tokens") = some s.tokens ∧
    hgetNumber hash (js "lastRefillAt") = some s.lastRefillAt

/-- The time to live the script sets. -/
def ttlMs (config : RateLimitConfig) : ℚ := ⌈1000 * config.capacity / config.refillPerSecond⌉

theorem tokens_ne_lastRefillAt : (js "tokens" == js "lastRefillAt") = false := by decide +kernel

theorem hgetNumber_written (old : RedisHash) (tokens now : ℚ) :
    hgetNumber (old.write [(js "tokens", .number tokens), (js "lastRefillAt", .number now)])
        (js "tokens") = some tokens ∧
      hgetNumber (old.write [(js "tokens", .number tokens), (js "lastRefillAt", .number now)])
        (js "lastRefillAt") = some now := by
  constructor
  · simp [hgetNumber, RedisHash.write, RedisHash.field]
  · simp [hgetNumber, RedisHash.write, RedisHash.field, tokens_ne_lastRefillAt]

/-- **The script does one call of the bucket it finds**, and stores what is left. -/
theorem consumeTokenScript_spec (store : RedisStore) (key : JsString)
    (config : RateLimitConfig) (now t : ℚ) :
    let s := stored store key config.capacity now t
    let d := decideOn config (refill config s now)
    (consumeTokenScript store key config.capacity config.refillPerSecond now t).1 =
        (if d.allowed then 1 else 0, replyInteger d.tokens, replyInteger d.retryAfterMs) ∧
      Holds (consumeTokenScript store key config.capacity config.refillPerSecond now t).2 key
        { tokens := d.tokens, lastRefillAt := now } (t + ttlMs config) := by
  intro s d
  have hreply : scriptBranch (refill config s now) config.refillPerSecond =
      (if d.allowed then 1 else 0, d.tokens, d.retryAfterMs) := by
    unfold scriptBranch
    by_cases hr : refill config s now < 1
    · rw [if_neg (not_le.mpr hr)]
      simp [d, decideOn, hr]
    · rw [if_pos (not_lt.mp hr)]
      simp [d, decideOn, hr]
  have hscript : consumeTokenScript store key config.capacity config.refillPerSecond now t =
      ((replyInteger (scriptBranch (refill config s now) config.refillPerSecond).1,
          replyInteger (scriptBranch (refill config s now) config.refillPerSecond).2.1,
          replyInteger (scriptBranch (refill config s now) config.refillPerSecond).2.2),
        (store.hset key
          [(js "tokens", .number (scriptBranch (refill config s now) config.refillPerSecond).2.1),
            (js "lastRefillAt", .number now)] t).pexpire key (ttlMs config) t) := rfl
  rw [hreply] at hscript
  rw [hscript]
  refine ⟨?_, (store.get key t).write
    [(js "tokens", .number d.tokens), (js "lastRefillAt", .number now)], ?_, ?_⟩
  · cases d.allowed <;> simp [replyInteger]
  · exact RedisStore.pexpire_hset_self store key _ (ttlMs config) t
  · exact hgetNumber_written _ _ _

/-- A live key is found as it is. -/
theorem stored_live {store : RedisStore} {key : JsString} {s : TokenBucketSnapshot}
    {expiresAt capacity now t : ℚ} (h : Holds store key s expiresAt) (ht : t < expiresAt) :
    stored store key capacity now t = s := by
  obtain ⟨hash, hkey, htok, hlast⟩ := h
  have hget : store.get key t = hash := by
    rw [RedisStore.get, RedisStore.entryAt, hkey, Option.filter_some,
      if_pos (by simpa [RedisEntry.live] using ht)]
  rw [stored, hget, htok, hlast]
  rfl

/-- An expired key is a full bucket. -/
theorem stored_expired {store : RedisStore} {key : JsString} {s : TokenBucketSnapshot}
    {expiresAt capacity now t : ℚ} (h : Holds store key s expiresAt) (ht : expiresAt ≤ t) :
    stored store key capacity now t = { tokens := capacity, lastRefillAt := now } := by
  obtain ⟨hash, hkey, -, -⟩ := h
  have hget : store.get key t = [] := by
    rw [RedisStore.get, RedisStore.entryAt, hkey, Option.filter_some,
      if_neg (by simpa [RedisEntry.live] using ht)]
  rw [stored, hget]
  rfl

/-- A missing key is a full bucket. -/
theorem stored_missing {store : RedisStore} {key : JsString} {capacity now t : ℚ}
    (h : store key = none) :
    stored store key capacity now t = { tokens := capacity, lastRefillAt := now } := by
  rw [stored, RedisStore.get, RedisStore.entryAt, h]
  rfl

/-! ## Refilling -/

/-- A bucket that has had the time to fill up is full. -/
theorem refill_eq_capacity {config : RateLimitConfig} {s : TokenBucketSnapshot} {now : ℚ}
    (h : Accepted config) (htok : 0 ≤ s.tokens)
    (hlong : s.lastRefillAt + 1000 * config.capacity / config.refillPerSecond ≤ now) :
    refill config s now = config.capacity := by
  have hel : 1000 * config.capacity / config.refillPerSecond ≤ now - s.lastRefillAt := by linarith
  have hmul : 1000 * config.capacity / config.refillPerSecond * config.refillPerSecond ≤
      max 0 (now - s.lastRefillAt) * config.refillPerSecond :=
    mul_le_mul_of_nonneg_right (le_max_of_le_right hel) (le_of_lt h.2)
  rw [div_mul_cancel₀ _ (ne_of_gt h.2)] at hmul
  unfold refill
  exact min_eq_left (by linarith)

/-- A full bucket stays full. -/
theorem refill_full {config : RateLimitConfig} (h : Accepted config) (last now : ℚ) :
    refill config { tokens := config.capacity, lastRefillAt := last } now = config.capacity := by
  have hel : 0 ≤ max 0 (now - last) * config.refillPerSecond / 1000 :=
    div_nonneg (mul_nonneg (le_max_left _ _) (le_of_lt h.2)) (by norm_num)
  unfold refill
  exact min_eq_left (by simpa using hel)

/-- The refilled bucket is never negative. -/
theorem refill_nonneg {config : RateLimitConfig} (h : Accepted config)
    {s : TokenBucketSnapshot} (htok : 0 ≤ s.tokens) (now : ℚ) : 0 ≤ refill config s now := by
  have hel : 0 ≤ max 0 (now - s.lastRefillAt) * config.refillPerSecond / 1000 :=
    div_nonneg (mul_nonneg (le_max_left _ _) (le_of_lt h.2)) (by norm_num)
  unfold refill
  exact le_min (le_of_lt h.1) (by linarith)

/-- A decision leaves a bucket that is not negative. -/
theorem decideOn_tokens_nonneg {config : RateLimitConfig} {refilled : ℚ} (h : 0 ≤ refilled) :
    0 ≤ (decideOn config refilled).tokens := by
  unfold decideOn
  by_cases hr : refilled < 1
  · rw [if_pos hr]
    exact h
  · rw [if_neg hr]
    exact sub_nonneg.mpr (not_lt.mp hr)

/-- What a decision takes out of the bucket. -/
theorem decideOn_tokens (config : RateLimitConfig) (refilled : ℚ) :
    (decideOn config refilled).tokens =
      refilled - if (decideOn config refilled).allowed then 1 else 0 := by
  unfold decideOn
  by_cases hr : refilled < 1 <;> simp [hr]

end TokenBucket
