/-
# The shared bucket refines the one in memory

`consumeTenantToken` keeps the bucket of a tenant and a scope in Redis, where it is deleted
after the time in which an empty bucket fills up.  For each tenant and scope it decides what
`consumeToken` decides on a bucket of their own that is never forgotten
(`shared_refines_local`): a bucket that was forgotten would be full again (`Mirrors`).
-/
import Waybill.System

open Worker

namespace TokenBucket

/-! ## Calls -/

/-- A call of `consumeTenantToken`. -/
structure BucketCall where
  tenantId : JsString
  scope : Scope
  time : ℚ

/-- A call at its time, which is the time of the store as well. -/
def callBucket (config : RateLimitConfig) (c : BucketCall) (w : World) :
    Option (Except JsError TokenBucketDecision × World) :=
  services.run 0 (fun _ => {}) (consumeTenantToken c.tenantId c.scope (toOverrides config))
    { w with clock := c.time }

/-- The answers to the calls of one tenant and scope, among the calls of all. -/
def sharedDecisions (config : RateLimitConfig) (tenantId : JsString) (scope : Scope) :
    World → List BucketCall → List TokenBucketDecision
  | _, [] => []
  | w, c :: rest =>
      match callBucket config c w with
      | some (.ok d, w') =>
          if c.tenantId = tenantId ∧ c.scope = scope then
            d :: sharedDecisions config tenantId scope w' rest
          else sharedDecisions config tenantId scope w' rest
      | _ => []

/-- The times of the calls of one tenant and scope. -/
def ownTimes (tenantId : JsString) (scope : Scope) (calls : List BucketCall) : List ℚ :=
  (calls.filter (fun c => decide (c.tenantId = tenantId ∧ c.scope = scope))).map BucketCall.time

/-- `consumeToken`, folded over calls at these times. -/
def localDecisions (config : RateLimitConfig) :
    TokenBucketSnapshot → List ℚ → List TokenBucketDecision
  | _, [] => []
  | s, now :: rest =>
      match consumeToken s now (toOverrides config) with
      | .ok (d, s') => d :: localDecisions config s' rest
      | .error _ => []

/-- A decision with the integer part of its tokens. -/
def reported (d : TokenBucketDecision) : TokenBucketDecision := { d with tokens := ⌊d.tokens⌋ }

/-! ## Keys -/

theorem head_scope_ne : Scope.ingestion.text.head? = some 105 ∧
    Scope.delivery.text.head? = some 100 := by decide +kernel

/-- Every tenant and scope has a key of its own. -/
theorem tenantRateLimitKey_inj {t t' : JsString} {scope scope' : Scope}
    (h : tenantRateLimitKey t scope = tenantRateLimitKey t' scope') : t = t' ∧ scope = scope' := by
  unfold tenantRateLimitKey at h
  simp only [List.append_assoc] at h
  have htext := List.append_cancel_left h
  have hhead := congrArg List.head? htext
  simp only [List.head?_append] at hhead
  cases scope <;> cases scope'
  case ingestion.ingestion | delivery.delivery =>
    exact ⟨List.append_cancel_left (List.append_cancel_left htext), rfl⟩
  all_goals
    rw [head_scope_ne.1, head_scope_ne.2, Option.some_or, Option.some_or] at hhead
    exact absurd hhead (by decide)

/-! ## One call -/

/-- What the script does at the time of a call. -/
def scriptAt (config : RateLimitConfig) (c : BucketCall) (w : World) :
    (ℤ × ℤ × ℤ) × RedisStore :=
  consumeTokenScript w.redis (tenantRateLimitKey c.tenantId c.scope) config.capacity
    config.refillPerSecond c.time c.time

/-- A call is the script, at its time. -/
theorem callBucket_eq {config : RateLimitConfig} (h : Accepted config) (c : BucketCall)
    (w : World) :
    callBucket config c w = some
      (.ok { allowed := (scriptAt config c w).1.1 == 1
             tokens := (scriptAt config c w).1.2.1
             retryAfterMs := (scriptAt config c w).1.2.2 },
        { w with
          clock := c.time
          redis := (scriptAt config c w).2 }) := by
  unfold callBucket consumeTenantToken
  simp only [normalize_toOverrides h]
  rfl

/-- The script writes no other key. -/
theorem scriptAt_ne {config : RateLimitConfig} {c : BucketCall} {w : World} {key : JsString}
    (h : key ≠ tenantRateLimitKey c.tenantId c.scope) :
    (scriptAt config c w).2 key = w.redis key := by
  refine (RedisStore.pexpire_ne _ h _ _).trans ?_
  exact RedisStore.hset_ne _ h _ _

/-! ## Simulation -/

/-- The stored bucket of a key stands for a bucket in memory: it is the same until the key
expires, and where there is no key the bucket is full. -/
def Mirrors (config : RateLimitConfig) (store : RedisStore) (key : JsString)
    (s : TokenBucketSnapshot) : Prop :=
  0 ≤ s.tokens ∧
    (store key = none ∧ s.tokens = config.capacity ∨
      Holds store key s (s.lastRefillAt + ttlMs config))

/-- A time to live is long enough to fill an empty bucket. -/
theorem fill_le_ttlMs (config : RateLimitConfig) :
    1000 * config.capacity / config.refillPerSecond ≤ ttlMs config := Int.le_ceil _

/-- **A forgotten bucket would be full**: refilling the stored bucket gives what refilling
the one in memory gives, whether or not the key has expired. -/
theorem Mirrors.refill_eq {config : RateLimitConfig} (hconfig : Accepted config)
    {store : RedisStore} {key : JsString} {s : TokenBucketSnapshot}
    (h : Mirrors config store key s) (now : ℚ) :
    refill config (stored store key config.capacity now now) now = refill config s now := by
  obtain ⟨htok, ⟨hnone, hfull⟩ | hholds⟩ := h
  · rw [stored_missing hnone, refill_full hconfig]
    obtain ⟨tokens, last⟩ := s
    cases hfull
    exact (refill_full hconfig last now).symm
  · by_cases hlive : now < s.lastRefillAt + ttlMs config
    · rw [stored_live hholds hlive]
    · have hlong := fill_le_ttlMs config
      rw [stored_expired hholds (not_lt.mp hlive), refill_full hconfig,
        refill_eq_capacity hconfig htok (by linarith)]

/-- A reply cuts a number that is not negative down to its integer part. -/
theorem replyInteger_of_nonneg {q : ℚ} (h : 0 ≤ q) : replyInteger q = ⌊q⌋ := if_pos h

/-- A wait is a whole number. -/
theorem replyInteger_retryAfterMs (config : RateLimitConfig) (refilled : ℚ) :
    (replyInteger (decideOn config refilled).retryAfterMs : ℚ) =
      (decideOn config refilled).retryAfterMs := by
  unfold decideOn replyInteger
  by_cases hr : refilled < 1
  · rw [if_pos hr]
    simp
  · rw [if_neg hr]
    simp

/-- What a call decides on the bucket it mirrors. -/
def localDecision (config : RateLimitConfig) (s : TokenBucketSnapshot) (now : ℚ) :
    TokenBucketDecision := decideOn config (refill config s now)

/-- **One call** answers what the bucket in memory answers, and mirrors it again. -/
theorem Mirrors.call {config : RateLimitConfig} (hconfig : Accepted config) {c : BucketCall}
    {w : World} {s : TokenBucketSnapshot}
    (h : Mirrors config w.redis (tenantRateLimitKey c.tenantId c.scope) s) :
    (.ok { allowed := (scriptAt config c w).1.1 == 1
           tokens := (scriptAt config c w).1.2.1
           retryAfterMs := (scriptAt config c w).1.2.2 } : Except JsError TokenBucketDecision) =
        .ok (reported (localDecision config s c.time)) ∧
      Mirrors config (scriptAt config c w).2 (tenantRateLimitKey c.tenantId c.scope)
        { tokens := (localDecision config s c.time).tokens, lastRefillAt := c.time } := by
  have hspec := consumeTokenScript_spec w.redis (tenantRateLimitKey c.tenantId c.scope) config
    c.time c.time
  simp only [h.refill_eq hconfig] at hspec
  obtain ⟨hreply, hholds⟩ := hspec
  have htok : 0 ≤ (localDecision config s c.time).tokens :=
    decideOn_tokens_nonneg (refill_nonneg hconfig h.1 c.time)
  refine ⟨?_, htok, .inr hholds⟩
  have heq : (scriptAt config c w).1 = _ := hreply
  rw [heq, reported, ← replyInteger_of_nonneg htok]
  unfold localDecision
  rw [replyInteger_retryAfterMs]
  cases (decideOn config (refill config s c.time)).allowed <;> rfl

/-- A call on another tenant or scope changes nothing. -/
theorem Mirrors.frame {config : RateLimitConfig} {c : BucketCall} {w : World} {key : JsString}
    {s : TokenBucketSnapshot} (h : Mirrors config w.redis key s)
    (hkey : key ≠ tenantRateLimitKey c.tenantId c.scope) :
    Mirrors config (scriptAt config c w).2 key s := by
  have hsame : (scriptAt config c w).2 key = w.redis key := scriptAt_ne hkey
  unfold Mirrors Holds at h ⊢
  rw [hsame]
  exact h

/-! ## All calls -/

/-- The answers to one tenant and scope, from any store that mirrors its bucket. -/
theorem sharedDecisions_of_mirrors {config : RateLimitConfig} (hconfig : Accepted config)
    (tenantId : JsString) (scope : Scope) (calls : List BucketCall) {w : World}
    {s : TokenBucketSnapshot}
    (h : Mirrors config w.redis (tenantRateLimitKey tenantId scope) s) :
    sharedDecisions config tenantId scope w calls =
      (localDecisions config s (ownTimes tenantId scope calls)).map reported := by
  induction calls generalizing w s with
  | nil => rfl
  | cons c rest ih =>
      rw [sharedDecisions, callBucket_eq hconfig]
      by_cases hown : c.tenantId = tenantId ∧ c.scope = scope
      · obtain ⟨rfl, rfl⟩ := hown
        obtain ⟨hanswer, hnext⟩ := h.call hconfig
        have htimes : ownTimes c.tenantId c.scope (c :: rest) =
            c.time :: ownTimes c.tenantId c.scope rest := by
          simp [ownTimes]
        rw [hanswer, htimes, localDecisions, consumeToken_eq_refill hconfig]
        simp only [and_self, if_true, List.map_cons]
        exact congrArg _ (ih hnext)
      · have htimes : ownTimes tenantId scope (c :: rest) = ownTimes tenantId scope rest := by
          simp [ownTimes, hown]
        rw [htimes]
        simp only [if_neg hown]
        refine ih (h.frame ?_)
        intro hkey
        obtain ⟨ht, hs⟩ := tenantRateLimitKey_inj hkey
        exact hown ⟨ht.symm, hs.symm⟩

/-- **The shared bucket refines the one in memory**: from a store without buckets, the
answers to the calls of each tenant and scope, among any calls, are what `consumeToken`
answers when it is folded over these calls alone from a full bucket, with the tokens cut
down to their integer part. -/
theorem shared_refines_local (config : RateLimitConfig) (hconfig : Accepted config)
    (w : World) (hw : ∀ tenantId scope, w.redis (tenantRateLimitKey tenantId scope) = none)
    (calls : List BucketCall) (tenantId : JsString) (scope : Scope) (last : ℚ) :
    sharedDecisions config tenantId scope w calls =
      (localDecisions config { tokens := config.capacity, lastRefillAt := last }
        (ownTimes tenantId scope calls)).map reported :=
  sharedDecisions_of_mirrors hconfig tenantId scope calls
    ⟨le_of_lt hconfig.1, .inl ⟨hw tenantId scope, rfl⟩⟩

/-- Two calls empty the bucket of a tenant, a third one is refused, another scope is
not affected, and when the bucket is asked for again it has been forgotten. -/
theorem shared_refines_local_forgotten :
    let config : RateLimitConfig := { capacity := 2, refillPerSecond := 1 }
    let ask (scope : Scope) (time : ℚ) : BucketCall := ⟨js "tenant", scope, time⟩
    let calls := [ask .ingestion 1, ask .ingestion 1, ask .ingestion 1, ask .delivery 1,
      ask .ingestion 9000]
    sharedDecisions config (js "tenant") .ingestion Sample.start.world.world calls =
        (localDecisions config { tokens := 2, lastRefillAt := 0 }
          (ownTimes (js "tenant") .ingestion calls)).map reported ∧
      (sharedDecisions config (js "tenant") .ingestion Sample.start.world.world calls).map
        TokenBucketDecision.allowed = [true, true, false, true] :=
  ⟨shared_refines_local { capacity := 2, refillPerSecond := 1 } ⟨by norm_num, by norm_num⟩
    Sample.start.world.world (fun _ _ => rfl) _ (js "tenant") .ingestion 0, by decide +kernel⟩

end TokenBucket
