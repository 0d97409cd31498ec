/-
# The circuit breaker (`delivery/circuit-breaker.ts`)

The pure half of the breaker: the snapshot, `applyFailure`, `applySuccess`,
`getCircuitDecision`, and the form in which a snapshot is stored in a Redis hash
(`encode`, `decode`).  The reading and writing of that hash is in `Worker.lean`.

Thresholds, times and counts are rationals; `openedAt` and `halfOpenInFlight` are
optional as in the source, and an `openedAt` of `0` is stored as the empty text because
the source tests it for truth.
-/
import Waybill.Redis

/-- `CircuitState`. -/
inductive CircuitState where
  | closed
  | opened
  | halfOpen
  deriving DecidableEq, Repr

/-- `CircuitConfig`. -/
structure CircuitConfig where
  failureThreshold : ℚ
  cooldownMs : ℚ
  deriving DecidableEq

/-- `Partial<CircuitConfig>`. -/
structure CircuitOverrides where
  failureThreshold : Option ℚ := none
  cooldownMs : Option ℚ := none

/-- `CircuitSnapshot`. -/
structure CircuitSnapshot where
  state : CircuitState
  failureCount : ℚ
  openedAt : Option ℚ := none
  halfOpenInFlight : Option Bool := none
  deriving DecidableEq

/-- The answer of `getCircuitDecision`. -/
structure CircuitDecision where
  allowed : Bool
  state : CircuitState
  delayMs : ℚ
  deriving DecidableEq

namespace Circuit

/-! ## Configuration -/

/-- `DEFAULT_CONFIG`. -/
def defaultConfig : CircuitConfig := { failureThreshold := 5, cooldownMs := 30000 }

/-- `normalizeConfig`. -/
def normalizeConfig (overrides : CircuitOverrides) : CircuitConfig :=
  { failureThreshold := overrides.failureThreshold.getD defaultConfig.failureThreshold
    cooldownMs := overrides.cooldownMs.getD defaultConfig.cooldownMs }

/-- A whole configuration, passed on as overrides. -/
def toOverrides (config : CircuitConfig) : CircuitOverrides :=
  { failureThreshold := some config.failureThreshold, cooldownMs := some config.cooldownMs }

@[simp] theorem normalizeConfig_toOverrides (config : CircuitConfig) :
    normalizeConfig (toOverrides config) = config := rfl

@[simp] theorem normalizeConfig_default : normalizeConfig {} = defaultConfig := rfl

/-! ## Transitions -/

/-- `applyFailure`. -/
def applyFailure (current : CircuitSnapshot) (now : ℚ) (overrides : CircuitOverrides) :
    CircuitSnapshot :=
  let config := normalizeConfig overrides
  let nextFailureCount := current.failureCount + 1
  match current.state with
  | .opened =>
      -- an open circuit keeps its time of opening
      { state := .opened, failureCount := current.failureCount
        openedAt := some (current.openedAt.getD now), halfOpenInFlight := some false }
  | .halfOpen =>
      -- the probe has failed
      { state := .opened, failureCount := config.failureThreshold
        openedAt := some now, halfOpenInFlight := some false }
  | .closed =>
      -- the failure that reaches the threshold opens
      if nextFailureCount ≥ config.failureThreshold then
        { state := .opened, failureCount := config.failureThreshold
          openedAt := some now, halfOpenInFlight := some false }
      else
        { state := .closed, failureCount := nextFailureCount
          openedAt := none, halfOpenInFlight := some false }

/-- `applySuccess`. -/
def applySuccess (_current : CircuitSnapshot) (_now : ℚ) (_overrides : CircuitOverrides) :
    CircuitSnapshot :=
  { state := .closed, failureCount := 0, openedAt := none, halfOpenInFlight := some false }

/-- `getCircuitDecision`. -/
def getCircuitDecision (current : CircuitSnapshot) (now : ℚ) (overrides : CircuitOverrides) :
    CircuitDecision :=
  let config := normalizeConfig overrides
  match current.state with
  | .opened =>
      let openedAt := current.openedAt.getD now
      let remaining := config.cooldownMs - (now - openedAt)
      if remaining > 0 then { allowed := false, state := .opened, delayMs := remaining }
      else { allowed := true, state := .halfOpen, delayMs := 0 }
  | .halfOpen =>
      { allowed := !(current.halfOpenInFlight.getD false), state := .halfOpen, delayMs := 0 }
  | .closed => { allowed := true, state := .closed, delayMs := 0 }

/-! ## The stored form -/

/-- `circuitKeyForTarget`. -/
def circuitKeyForTarget (targetUrl : JsString) : JsString := js "waybill:circuit:" ++ targetUrl

/-- The text of a state. -/
def stateText : CircuitState → JsString
  | .closed => js "closed"
  | .opened => js "open"
  | .halfOpen => js "half-open"

/-- A stored state; every other text is treated as closed, as the comparisons of the
source do. -/
def readState (x : Option RedisText) : CircuitState :=
  if x = some (.text (stateText .opened)) then .opened
  else if x = some (.text (stateText .halfOpen)) then .halfOpen
  else .closed

/-- The fields `writeCircuitState` stores. -/
def encode (snapshot : CircuitSnapshot) : RedisHash :=
  [(js "state", .text (stateText snapshot.state)),
    (js "failureCount", .number snapshot.failureCount),
    (js "openedAt",
      match snapshot.openedAt with
      | some t => if t = 0 then .text [] else .number t
      | none => .text []),
    (js "halfOpenInFlight",
      .text (if snapshot.halfOpenInFlight = some true then js "true" else js "false"))]

/-- The snapshot `readCircuitState` reads off the stored fields. -/
def decode (raw : RedisHash) : CircuitSnapshot :=
  if raw.isEmpty then { state := .closed, failureCount := 0 }
  else
    { state := readState (raw.field (js "state"))
      failureCount :=
        match raw.field (js "failureCount") with
        | some x => x.toNumber
        | none => 0
      openedAt :=
        match raw.field (js "openedAt") with
        | some x => if x.truthy then some x.toNumber else none
        | none => none
      halfOpenInFlight := some (decide
        (raw.field (js "halfOpenInFlight") = some (.text (js "true")))) }

/-- The time to live `writeCircuitState` sets, in seconds. -/
def ttlSeconds (config : CircuitConfig) : ℚ := max 1 ⌈config.cooldownMs / 1000⌉

/-- A stored snapshot lives for the cooldown at least. -/
theorem cooldown_le_ttl (config : CircuitConfig) :
    config.cooldownMs ≤ 1000 * ttlSeconds config := by
  have hceil : config.cooldownMs / 1000 ≤ (⌈config.cooldownMs / 1000⌉ : ℚ) := Int.le_ceil _
  have hmax : (⌈config.cooldownMs / 1000⌉ : ℚ) ≤ ttlSeconds config := le_max_right _ _
  linarith

/-! ## Decisions on an open circuit -/

/-- What an open circuit that is still cooling down answers. -/
theorem decision_cooling {s : CircuitSnapshot} {now : ℚ} {o : CircuitOverrides}
    (hs : s.state = .opened)
    (hnow : now < s.openedAt.getD now + (normalizeConfig o).cooldownMs) :
    (getCircuitDecision s now o).allowed = false := by
  unfold getCircuitDecision
  rw [hs]
  have h : (normalizeConfig o).cooldownMs - (now - s.openedAt.getD now) > 0 := by linarith
  simp only [h, if_true]

/-- **Denials**: the decision is negative exactly on an open circuit that is cooling down
or on a half-open one with a probe in flight. -/
theorem allowed_eq_false_iff (s : CircuitSnapshot) (now : ℚ) (o : CircuitOverrides) :
    (getCircuitDecision s now o).allowed = false ↔
      (s.state = .opened ∧ now < s.openedAt.getD now + (normalizeConfig o).cooldownMs) ∨
        (s.state = .halfOpen ∧ s.halfOpenInFlight = some true) := by
  unfold getCircuitDecision
  cases hs : s.state with
  | closed => simp
  | opened =>
      by_cases h : (normalizeConfig o).cooldownMs - (now - s.openedAt.getD now) > 0
      · have h' : now < s.openedAt.getD now + (normalizeConfig o).cooldownMs := by linarith
        simp [h, h']
      · have h' : ¬ now < s.openedAt.getD now + (normalizeConfig o).cooldownMs := by
          intro hlt
          exact h (by linarith)
        simp [h, h']
  | halfOpen => cases s.halfOpenInFlight <;> simp

/-! ## Reading back a stored snapshot -/

theorem field_encode_state (s : CircuitSnapshot) (rest : RedisHash) :
    RedisHash.field (encode s ++ rest) (js "state") = some (.text (stateText s.state)) := by
  simp [RedisHash.field, encode]

theorem js_names_distinct :
    (js "state" == js "failureCount") = false ∧ (js "state" == js "openedAt") = false ∧
      (js "failureCount" == js "openedAt") = false ∧
      (js "state" == js "halfOpenInFlight") = false ∧
      (js "failureCount" == js "halfOpenInFlight") = false ∧
      (js "openedAt" == js "halfOpenInFlight") = false := by decide +kernel

theorem field_encode_failureCount (s : CircuitSnapshot) (rest : RedisHash) :
    RedisHash.field (encode s ++ rest) (js "failureCount") = some (.number s.failureCount) := by
  obtain ⟨h1, -, -, -, -, -⟩ := js_names_distinct
  simp [RedisHash.field, encode, h1]

theorem field_encode_openedAt (s : CircuitSnapshot) (rest : RedisHash) :
    RedisHash.field (encode s ++ rest) (js "openedAt") =
      some (match s.openedAt with
        | some t => if t = 0 then .text [] else .number t
        | none => .text []) := by
  obtain ⟨-, h2, h3, -, -, -⟩ := js_names_distinct
  simp [RedisHash.field, encode, h2, h3]

theorem field_encode_halfOpenInFlight (s : CircuitSnapshot) (rest : RedisHash) :
    RedisHash.field (encode s ++ rest) (js "halfOpenInFlight") =
      some (.text (if s.halfOpenInFlight = some true then js "true" else js "false")) := by
  obtain ⟨-, -, -, h4, h5, h6⟩ := js_names_distinct
  simp [RedisHash.field, encode, h4, h5, h6]

theorem stateText_ne : stateText .opened ≠ stateText .halfOpen ∧
    stateText .closed ≠ stateText .opened ∧ stateText .closed ≠ stateText .halfOpen := by
  decide +kernel

theorem readState_stateText (s : CircuitState) : readState (some (.text (stateText s))) = s := by
  obtain ⟨h1, h2, h3⟩ := stateText_ne
  cases s <;> simp [readState, h1.symm, h2, h3]

/-- **The stored form keeps the snapshot**, over whatever was stored before, except that
an `openedAt` of `0` is forgotten and `halfOpenInFlight` is made definite. -/
theorem decode_write_encode (s : CircuitSnapshot) (old : RedisHash) :
    decode (old.write (encode s)) =
      { state := s.state, failureCount := s.failureCount
        openedAt := s.openedAt.filter (· ≠ 0)
        halfOpenInFlight := some (decide (s.halfOpenInFlight = some true)) } := by
  have htf : js "false" ≠ js "true" := by decide +kernel
  have hne : (encode s ++ old.filter (fun f => !(encode s).any (fun g => g.1 == f.1))).isEmpty
      = false := rfl
  rw [decode, RedisHash.write, hne]
  simp only [field_encode_state, field_encode_failureCount, field_encode_openedAt,
    field_encode_halfOpenInFlight, readState_stateText, RedisText.toNumber, Bool.false_eq_true,
    if_false]
  congr 1
  · cases s.openedAt with
    | none => rfl
    | some t => by_cases ht : t = 0 <;> simp [ht, RedisText.truthy, Option.filter_some]
  · by_cases h : s.halfOpenInFlight = some true <;> simp [h, htf]

/-- The state is read off its field, also where nothing is stored. -/
theorem decode_state (raw : RedisHash) :
    (decode raw).state = readState (raw.field (js "state")) := by
  cases raw with
  | nil => rfl
  | cons f rest => rfl

/-- The time of opening that a field holds. -/
def readOpenedAt (x : Option RedisText) : Option ℚ :=
  x.bind (fun x => if x.truthy then some x.toNumber else none)

/-- The time of opening is read off its field, also where nothing is stored. -/
theorem decode_openedAt (raw : RedisHash) :
    (decode raw).openedAt = readOpenedAt (raw.field (js "openedAt")) := by
  cases raw with
  | nil => rfl
  | cons f rest =>
      unfold decode readOpenedAt
      rw [List.isEmpty_cons, if_neg Bool.false_ne_true]
      cases RedisHash.field (f :: rest) (js "openedAt") with
      | none => rfl
      | some x => rfl

/-- Marking a probe leaves the state and the time of opening as they were read before, also
where nothing was stored. -/
theorem decode_write_mark (raw : RedisHash) (mark : JsString) :
    (decode (raw.write [(js "halfOpenInFlight", .text mark)])).state = (decode raw).state ∧
      (decode (raw.write [(js "halfOpenInFlight", .text mark)])).openedAt =
        (decode raw).openedAt := by
  obtain ⟨-, -, -, h4, -, h6⟩ := js_names_distinct
  rw [decode_state, decode_state, decode_openedAt, decode_openedAt,
    RedisHash.field_write_of_not (by simpa [BEq.comm] using h4),
    RedisHash.field_write_of_not (by simpa [BEq.comm] using h6)]
  exact ⟨rfl, rfl⟩

/-! ## Stored as opened -/

/-- The stored circuit is one that was opened at time `t`. -/
def StoredOpen (t : ℚ) (raw : RedisHash) : Prop :=
  (decode raw).state = .opened ∧ (decode raw).openedAt = some t

/-- A circuit that is written as opened is stored so, whatever was stored before. -/
theorem storedOpen_write {t : ℚ} {fields : RedisHash} (old : RedisHash) (h : StoredOpen t fields) :
    StoredOpen t (old.write fields) := by
  obtain ⟨hstate, hopened⟩ := h
  rw [decode_state] at hstate
  rw [decode_openedAt] at hopened
  have hstored : ∃ x, fields.field (js "state") = some x := by
    cases hx : fields.field (js "state") with
    | none =>
        rw [hx] at hstate
        cases hstate
    | some x => exact ⟨x, rfl⟩
  obtain ⟨x, hx⟩ := hstored
  obtain ⟨y, hy, -⟩ := Option.bind_eq_some_iff.mp hopened
  constructor
  · rw [decode_state, RedisHash.field_write_of_some hx, ← hx]
    exact hstate
  · rw [decode_openedAt, RedisHash.field_write_of_some hy, ← hy]
    exact hopened

/-- Other fields do not matter. -/
theorem storedOpen_write_other {t : ℚ} {raw fields : RedisHash}
    (hstate : (fields.field (js "state")).isSome = false)
    (hopened : (fields.field (js "openedAt")).isSome = false) (h : StoredOpen t raw) :
    StoredOpen t (raw.write fields) := by
  have hnot : ∀ name, (fields.field name).isSome = false → ∀ f ∈ fields, (f.1 == name) = false := by
    intro name hname f hf
    rw [← Bool.not_eq_true]
    intro hf'
    have hsome : (fields.field name).isSome = true := by
      rw [RedisHash.field, Option.isSome_map]
      exact List.find?_isSome.mpr ⟨f, hf, hf'⟩
    rw [hname] at hsome
    cases hsome
  unfold StoredOpen
  rw [decode_state, decode_openedAt, RedisHash.field_write_of_not (hnot _ hstate),
    RedisHash.field_write_of_not (hnot _ hopened), ← decode_state, ← decode_openedAt]
  exact h

/-- It denies deliveries until it has cooled down. -/
theorem denied_of_storedOpen {t now : ℚ} {raw : RedisHash} (h : StoredOpen t raw)
    (hnow : now < t + defaultConfig.cooldownMs) :
    (getCircuitDecision (decode raw) now {}).allowed = false := by
  apply decision_cooling h.1
  rw [h.2]
  exact hnow

end Circuit
