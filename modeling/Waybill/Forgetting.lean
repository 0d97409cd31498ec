/-
# The stored circuit and the folded one

A circuit is stored in Redis with a time to live, and read back as a new circuit when that has
elapsed.  Folding `applyFailure` and `applySuccess` over the same calls never forgets.

* `stored_refines_folded`: in a sequential run the stored circuit answers as the folded one, as
  long as no call meets a key that has expired over failures that still count (`Remembered`).
* `decision_refines_iff`: after such a run this is exactly when the next decision agrees.
* `fifth_failure_forgotten`: with the default configuration, a failure more than the cooldown
  after four others counts as the first one.
-/
import Waybill.Reopen

open Worker

/-! ## The folded circuit -/

/-- `applyFailure` and `applySuccess`, folded over the calls so far. -/
def folded (config : CircuitConfig) : List CircuitRecord → CircuitSnapshot
  | [] => { state := .closed, failureCount := 0 }
  | x :: earlier =>
      match x.call with
      | .failure =>
          Circuit.applyFailure (folded config earlier) x.time (Circuit.toOverrides config)
      | .success =>
          Circuit.applySuccess (folded config earlier) x.time (Circuit.toOverrides config)
      | _ => folded config earlier

/-- The failures recorded since the last success. -/
def failuresSince : List CircuitRecord → ℕ
  | [] => 0
  | x :: earlier =>
      match x.call with
      | .failure => failuresSince earlier + 1
      | .success => 0
      | _ => failuresSince earlier

/-- When the circuit was last stored. -/
def lastWrite : List CircuitRecord → Option ℚ
  | [] => none
  | x :: earlier =>
      match x.call with
      | .failure | .success => some x.time
      | _ => lastWrite earlier

/-- A call answers as the folded circuit does: a decision with the same flag and state, a failure
with an open circuit exactly when the failures since the last success have reached the
threshold. -/
structure CircuitRecord.Refines (config : CircuitConfig) (earlier : List CircuitRecord)
    (x : CircuitRecord) : Prop where
  decided : ∀ d, x.result = .decided d →
    d.allowed = (Circuit.getCircuitDecision (folded config earlier) x.time
        (Circuit.toOverrides config)).allowed ∧
      d.state = (Circuit.getCircuitDecision (folded config earlier) x.time
        (Circuit.toOverrides config)).state
  opens : x.call = .failure → ∀ s, x.result = .recorded s →
    (s.state = .opened ↔ config.failureThreshold ≤ failuresSince (x :: earlier))

/-- Every call of a log does. -/
def AllRefine (config : CircuitConfig) : List CircuitRecord → Prop
  | [] => True
  | x :: earlier => x.Refines config earlier ∧ AllRefine config earlier

/-- The calls of the delivery path: decisions, failures and successes, at positive times. -/
def Recorded (a : ℚ × CircuitCall) : Prop := 0 < a.1 ∧ a.2 ≠ .markProbe

/-- **Refinement**, in every sequential run whose calls satisfy `ok`. -/
def CircuitRefines (targetUrl : JsString) (config : CircuitConfig)
    (ok : CircuitLog → ℚ × CircuitCall → Prop) : Prop :=
  ∀ s, Run (CircuitLog.Start targetUrl) (CircuitLog.step targetUrl config)
    (fun s a => Recorded a ∧ ok s a) s → AllRefine config s.calls

/-! ## Expiry -/

/-- The key written last has not expired at time `t`. -/
def Alive (config : CircuitConfig) (calls : List CircuitRecord) (t : ℚ) : Prop :=
  ∃ written, lastWrite calls = some written ∧ t < written + 1000 * Circuit.ttlSeconds config

/-- A call that does not meet an expired key over failures that count for it: a decision needs
to know of an open circuit, a failure of every failure before it, a success of nothing. -/
def Remembered (config : CircuitConfig) (s : CircuitLog) : ℚ × CircuitCall → Prop
  | (t, .decide) =>
      Alive config s.calls t ∨ (failuresSince s.calls : ℚ) < config.failureThreshold
  | (t, .failure) => Alive config s.calls t ∨ failuresSince s.calls = 0
  | _ => True

instance (a : ℚ × CircuitCall) : Decidable (Recorded a) := inferInstanceAs (Decidable (_ ∧ _))

instance (config : CircuitConfig) (calls : List CircuitRecord) (t : ℚ) :
    Decidable (Alive config calls t) :=
  decidable_of_iff ((lastWrite calls).any
      (fun written => decide (t < written + 1000 * Circuit.ttlSeconds config)) = true) (by
    simp only [Alive, Option.any_eq_true, decide_eq_true_eq])

instance (config : CircuitConfig) (s : CircuitLog) (a : ℚ × CircuitCall) :
    Decidable (Remembered config s a) :=
  match a with
  | (_, .decide) => inferInstanceAs (Decidable (_ ∨ _))
  | (_, .failure) => inferInstanceAs (Decidable (_ ∨ _))
  | (_, .success) => inferInstanceAs (Decidable True)
  | (_, .markProbe) => inferInstanceAs (Decidable True)

/-! ## What the folded circuit is -/

/-- A folded circuit counts the failures up to the threshold, and is open from then on. -/
structure Counted (config : CircuitConfig) (failures : ℕ) (s : CircuitSnapshot) : Prop where
  below : (failures : ℚ) < config.failureThreshold →
    s.state = .closed ∧ s.failureCount = failures ∧ s.openedAt = none
  reached : config.failureThreshold ≤ failures →
    s.state = .opened ∧ ∃ t, 0 < t ∧ s.openedAt = some t

section

variable {targetUrl : JsString} {config : CircuitConfig} {t : ℚ} {failures : ℕ}
  {s : CircuitSnapshot}

/-- No failures are below the threshold. -/
theorem counted_none (hthreshold : 1 ≤ config.failureThreshold)
    (hs : s.state = .closed ∧ s.failureCount = 0 ∧ s.openedAt = none) : Counted config 0 s := by
  constructor
  · intro _
    exact ⟨hs.1, by simpa using hs.2.1, hs.2.2⟩
  · intro hreached
    exfalso
    norm_num at hreached
    linarith

/-- One more failure. -/
theorem Counted.failure (h : Counted config failures s) (ht : 0 < t) :
    Counted config (failures + 1)
      (Circuit.applyFailure s t (Circuit.toOverrides config)) := by
  by_cases hbelow : (failures : ℚ) < config.failureThreshold
  · obtain ⟨hstate, hcount, -⟩ := h.below hbelow
    unfold Circuit.applyFailure
    simp only [hstate, hcount, Circuit.normalizeConfig_toOverrides]
    constructor
    · intro hnext
      push_cast at hnext
      rw [if_neg (not_le.mpr hnext)]
      exact ⟨rfl, by push_cast; rfl, rfl⟩
    · intro hnext
      push_cast at hnext
      rw [if_pos hnext]
      exact ⟨rfl, t, ht, rfl⟩
  · obtain ⟨hstate, x, hx, hopened⟩ := h.reached (not_lt.mp hbelow)
    unfold Circuit.applyFailure
    simp only [hstate, hopened]
    constructor
    · intro hnext
      push_cast at hnext
      exact absurd (by linarith) hbelow
    · intro _
      exact ⟨rfl, x, hx, rfl⟩

/-- A circuit that was counted is open exactly from the threshold on. -/
theorem Counted.opened_iff (h : Counted config failures s) :
    s.state = .opened ↔ config.failureThreshold ≤ failures := by
  constructor
  · intro hopened
    by_contra hbelow
    rw [(h.below (not_le.mp hbelow)).1] at hopened
    cases hopened
  · intro hreached
    exact (h.reached hreached).1

/-- Every stored circuit has a definite mark. -/
theorem applyFailure_mark (s : CircuitSnapshot) (t : ℚ) (o : CircuitOverrides) :
    (Circuit.applyFailure s t o).halfOpenInFlight = some false := by
  unfold Circuit.applyFailure
  cases s.state with
  | closed =>
      simp only
      split_ifs <;> rfl
  | opened => rfl
  | halfOpen => rfl

/-- A counted circuit is read back as it was stored. -/
theorem Counted.stored (h : Counted config failures s) (hmark : s.halfOpenInFlight = some false) :
    ({ state := s.state, failureCount := s.failureCount
       openedAt := s.openedAt.filter (· ≠ 0)
       halfOpenInFlight := some (decide (s.halfOpenInFlight = some true)) } : CircuitSnapshot) =
      s := by
  have hopened : s.openedAt.filter (· ≠ 0) = s.openedAt := by
    by_cases hbelow : (failures : ℚ) < config.failureThreshold
    · rw [(h.below hbelow).2.2]
      rfl
    · obtain ⟨-, x, hx, hsome⟩ := h.reached (not_lt.mp hbelow)
      rw [hsome, Option.filter_some, if_pos (by simpa using ne_of_gt hx)]
  rw [hopened, hmark]
  obtain ⟨state, failureCount, openedAt, mark⟩ := s
  cases hmark
  rfl

/-- Below the threshold nothing but the count matters to a failure. -/
theorem Counted.failure_eq {s' : CircuitSnapshot} (h : Counted config failures s)
    (h' : Counted config failures s')
    (hbelow : (failures : ℚ) < config.failureThreshold) (t : ℚ) (o : CircuitOverrides) :
    Circuit.applyFailure s t o = Circuit.applyFailure s' t o := by
  obtain ⟨hstate, hcount, -⟩ := h.below hbelow
  obtain ⟨hstate', hcount', -⟩ := h'.below hbelow
  unfold Circuit.applyFailure
  simp only [hstate, hstate', hcount, hcount']

/-- A closed circuit allows every delivery. -/
theorem decision_closed (hs : s.state = .closed) (t : ℚ) (o : CircuitOverrides) :
    Circuit.getCircuitDecision s t o = { allowed := true, state := .closed, delayMs := 0 } := by
  unfold Circuit.getCircuitDecision
  rw [hs]

end

/-! ## Simulation -/

/-- The stored circuit is the folded one until its key expires, and a new one from then on. -/
structure Recalls (targetUrl : JsString) (config : CircuitConfig) (s : CircuitLog) : Prop where
  counted : Counted config (failuresSince s.calls) (folded config s.calls)
  live : ∀ t, s.world.clock ≤ t → Alive config s.calls t →
    circuitAt targetUrl t s.world = folded config s.calls
  dead : ∀ t, s.world.clock ≤ t → ¬ Alive config s.calls t →
    circuitAt targetUrl t s.world = { state := .closed, failureCount := 0 }

section

variable {targetUrl : JsString} {config : CircuitConfig} {t : ℚ} {s s' : CircuitLog}

/-- Nothing is stored at the start, and nothing is folded. -/
theorem recalls_start (hthreshold : 1 ≤ config.failureThreshold) (h : s.Start targetUrl) :
    Recalls targetUrl config s := by
  have hnew : ∀ t, circuitAt targetUrl t s.world = { state := .closed, failureCount := 0 } := by
    intro t
    have hget : s.world.redis.get (Circuit.circuitKeyForTarget targetUrl) t = [] := by
      simp [RedisStore.get, RedisStore.entryAt, h.key]
    unfold circuitAt
    rw [hget]
    rfl
  constructor
  · rw [h.calls]
    exact counted_none hthreshold ⟨rfl, rfl, rfl⟩
  · intro t _ halive
    rw [h.calls] at halive
    obtain ⟨_, hnone, -⟩ := halive
    cases hnone
  · intro t _ _
    exact hnew t

/-- A circuit that was just stored is recalled. -/
theorem recalls_store {snapshot : CircuitSnapshot} {w : World} {calls : List CircuitRecord}
    (hcounted : Counted config (failuresSince calls) snapshot)
    (hmark : snapshot.halfOpenInFlight = some false) (hfolded : folded config calls = snapshot)
    (hwritten : lastWrite calls = some t) :
    Recalls targetUrl config ⟨storeCircuit targetUrl config t snapshot w, calls⟩ := by
  have halive : ∀ t', Alive config calls t' ↔ t' < t + 1000 * Circuit.ttlSeconds config := by
    intro t'
    constructor
    · rintro ⟨written, hlast, hlt⟩
      obtain rfl := Option.some.inj (hwritten.symm.trans hlast)
      exact hlt
    · intro hlt
      exact ⟨t, hwritten, hlt⟩
  constructor
  · rw [hfolded]
    exact hcounted
  · intro t' _ hlive
    rw [circuitAt_store ((halive t').mp hlive), hcounted.stored hmark, hfolded]
  · intro t' _ hdead
    have hexpired : ¬ t' < t + 1000 * Circuit.ttlSeconds config :=
      fun h => hdead ((halive t').mpr h)
    show Circuit.decode _ = _
    rw [storeCircuit, RedisStore.get_expire_hset, if_neg hexpired]
    rfl

/-- What a failure stores is what is folded, if the failures before it are remembered. -/
theorem Recalls.failure_eq (h : Recalls targetUrl config s)
    (hthreshold : 1 ≤ config.failureThreshold) (ht : s.world.clock ≤ t)
    (hremembered : Remembered config s (t, .failure)) :
    Circuit.applyFailure (circuitAt targetUrl t s.world) t (Circuit.toOverrides config) =
      Circuit.applyFailure (folded config s.calls) t (Circuit.toOverrides config) := by
  by_cases halive : Alive config s.calls t
  · rw [h.live t ht halive]
  · have hnone : failuresSince s.calls = 0 := hremembered.resolve_left halive
    have hcounted := h.counted
    rw [hnone] at hcounted
    have hnew : Counted config 0 (circuitAt targetUrl t s.world) :=
      counted_none hthreshold (by rw [h.dead t ht halive]; exact ⟨rfl, rfl, rfl⟩)
    exact hnew.failure_eq hcounted (by push_cast; linarith) t _

/-- What a decision reads answers as the folded circuit, if the circuit is remembered. -/
theorem Recalls.decision_eq (h : Recalls targetUrl config s) (ht : s.world.clock ≤ t)
    (hremembered : Remembered config s (t, .decide)) :
    Circuit.getCircuitDecision (circuitAt targetUrl t s.world) t (Circuit.toOverrides config) =
      Circuit.getCircuitDecision (folded config s.calls) t (Circuit.toOverrides config) := by
  by_cases halive : Alive config s.calls t
  · rw [h.live t ht halive]
  · have hbelow := hremembered.resolve_left halive
    rw [h.dead t ht halive, decision_closed rfl, decision_closed (h.counted.below hbelow).1]

/-- **One call**: it answers as the folded circuit, which is recalled again. -/
theorem Recalls.step (h : Recalls targetUrl config s) (hthreshold : 1 ≤ config.failureThreshold)
    {a : ℚ × CircuitCall} (ha : Recorded a) (hremembered : Remembered config s a)
    (hs : s.step targetUrl config a = some s') :
    Recalls targetUrl config s' ∧
      ∃ x, s'.calls = x :: s.calls ∧ x.Refines config s.calls := by
  obtain ⟨t, call⟩ := a
  simp only [CircuitLog.step] at hs
  split_ifs at hs with ht
  cases call with
  | markProbe => exact absurd rfl ha.2
  -- a decision changes nothing, and is that of the folded circuit while it is remembered
  | decide =>
      rw [callAt_decide] at hs
      obtain rfl := Option.some.inj hs
      refine ⟨⟨h.counted, ?_, ?_⟩, _, rfl, ?_, ?_⟩
      · intro t' ht' hlive
        exact h.live t' (ht.trans ht') hlive
      · intro t' ht' hdead
        exact h.dead t' (ht.trans ht') hdead
      · rintro d ⟨rfl⟩
        rw [h.decision_eq ht hremembered]
        exact ⟨rfl, rfl⟩
      · intro hfailure
        cases hfailure
  -- a success forgets all failures, in both
  | success =>
      rw [callAt_success] at hs
      obtain rfl := Option.some.inj hs
      refine ⟨recalls_store (counted_none hthreshold ⟨rfl, rfl, rfl⟩) rfl rfl rfl, _, rfl, ?_, ?_⟩
      · intro d hd
        cases hd
      · intro hfailure
        cases hfailure
  -- what was read agrees, so what is stored does
  | failure =>
      rw [callAt_failure, h.failure_eq hthreshold ht hremembered] at hs
      obtain rfl := Option.some.inj hs
      have hcounted := h.counted.failure ha.1
      refine ⟨recalls_store hcounted (applyFailure_mark _ _ _) rfl rfl, _, rfl, ?_, ?_⟩
      · intro d hd
        cases hd
      · rintro _ snapshot ⟨rfl⟩
        exact hcounted.opened_iff

/-- In a run in which nothing that counts was forgotten, the folded circuit is recalled, and
every call has answered as it does. -/
theorem recalls_of_run (hthreshold : 1 ≤ config.failureThreshold)
    (h : Run (CircuitLog.Start targetUrl) (CircuitLog.step targetUrl config)
      (fun s a => Recorded a ∧ Remembered config s a) s) :
    Recalls targetUrl config s ∧ AllRefine config s.calls := by
  refine h.invariant (I := fun s => Recalls targetUrl config s ∧ AllRefine config s.calls) ?_ ?_
  · intro s hs
    refine ⟨recalls_start hthreshold hs, ?_⟩
    rw [hs.calls]
    trivial
  · rintro s a s' ⟨hrecalls, hall⟩ ⟨ha, hremembered⟩ hs
    obtain ⟨hnext, x, hcalls, hx⟩ := hrecalls.step hthreshold ha hremembered hs
    refine ⟨hnext, ?_⟩
    rw [hcalls]
    exact ⟨hx, hall⟩

end

/-! ## Refinement -/

/-- **The stored circuit refines the folded one** in every sequential run in which no call meets
an expired key over failures that count for it. -/
theorem stored_refines_folded (targetUrl : JsString) (config : CircuitConfig)
    (hthreshold : 1 ≤ config.failureThreshold) :
    CircuitRefines targetUrl config (Remembered config) :=
  fun _ h => (recalls_of_run hthreshold h).2

/-- After such a run, the next decision has the flag and the state of the folded circuit exactly
if the open circuit has not been forgotten. -/
theorem decision_refines_iff {targetUrl : JsString} {config : CircuitConfig} {s : CircuitLog}
    {t : ℚ} (hthreshold : 1 ≤ config.failureThreshold)
    (h : Run (CircuitLog.Start targetUrl) (CircuitLog.step targetUrl config)
      (fun s a => Recorded a ∧ Remembered config s a) s) (ht : s.world.clock ≤ t) :
    ((Circuit.getCircuitDecision (circuitAt targetUrl t s.world) t
          (Circuit.toOverrides config)).allowed =
        (Circuit.getCircuitDecision (folded config s.calls) t
          (Circuit.toOverrides config)).allowed ∧
      (Circuit.getCircuitDecision (circuitAt targetUrl t s.world) t
          (Circuit.toOverrides config)).state =
        (Circuit.getCircuitDecision (folded config s.calls) t (Circuit.toOverrides config)).state) ↔
      Remembered config s (t, .decide) := by
  have hrecalls := (recalls_of_run hthreshold h).1
  constructor
  · rintro ⟨-, hstate⟩
    by_contra hforgotten
    obtain ⟨hdead, hreached⟩ := not_or.mp hforgotten
    rw [hrecalls.dead t ht hdead, decision_closed rfl] at hstate
    have hopened := (hrecalls.counted.reached (not_lt.mp hreached)).1
    -- an open circuit answers as an open or a half-open one
    unfold Circuit.getCircuitDecision at hstate
    rw [hopened] at hstate
    simp only at hstate
    split_ifs at hstate
  · intro hremembered
    rw [hrecalls.decision_eq ht hremembered]
    exact ⟨rfl, rfl⟩

/-! ## Two runs -/

namespace Sample

/-- Failures at time 1000. -/
def failures (n : ℕ) : List (ℚ × CircuitCall) := List.replicate n (1000, .failure)

/-- A played run of calls that satisfy a condition. -/
theorem exists_sequential (config : CircuitConfig) (ok : CircuitLog → ℚ × CircuitCall → Prop)
    [∀ s a, Decidable (ok s a)] (as : List (ℚ × CircuitCall)) (test : CircuitLog → Bool)
    (h : (Run.play (CircuitLog.step targetUrl config)
      (fun s a => decide (Recorded a) && decide (ok s a)) as untouched).any test = true) :
    ∃ s, Run (CircuitLog.Start targetUrl) (CircuitLog.step targetUrl config)
      (fun s a => Recorded a ∧ ok s a) s ∧ test s = true := by
  refine Run.exists_of_play ?_ untouched_start h
  intro s a ha
  simpa only [Bool.and_eq_true, decide_eq_true_eq] using ha

/-- The last call is a failure that was not the first of five, and left the circuit closed. -/
def missed (s : CircuitLog) : Bool :=
  match s.calls with
  | ⟨t, .failure, .recorded snapshot⟩ :: earlier =>
      decide (snapshot.state = .closed) &&
        decide (failuresSince (⟨t, .failure, .recorded snapshot⟩ :: earlier) = 5)
  | _ => false

theorem not_refines_of_missed {s : CircuitLog} (h : missed s = true) :
    ¬ AllRefine Circuit.defaultConfig s.calls := by
  unfold missed at h
  split at h
  · rename_i t snapshot earlier hcalls
    simp only [Bool.and_eq_true, decide_eq_true_eq] at h
    rw [hcalls]
    rintro ⟨hlast, -⟩
    have hopened : snapshot.state = .opened := by
      refine (hlast.opens rfl snapshot rfl).mpr ?_
      rw [h.2]
      norm_num [Circuit.defaultConfig]
    rw [h.1] at hopened
    cases hopened
  · cases h

end Sample

/-- Five failures open the circuit, and a decision during the cooldown is that of the folded
circuit. -/
theorem stored_refines_folded_default : ∃ s : CircuitLog, s.calls.length = 6 ∧
    failuresSince s.calls = 5 ∧ AllRefine Circuit.defaultConfig s.calls := by
  obtain ⟨s, hs, htest⟩ := Sample.exists_sequential Circuit.defaultConfig
    (Remembered Circuit.defaultConfig) (Sample.failures 5 ++ [(2000, .decide)])
    (fun s => decide (s.calls.length = 6 ∧ failuresSince s.calls = 5)) (by decide +kernel)
  have hlong := of_decide_eq_true htest
  exact ⟨s, hlong.1, hlong.2,
    stored_refines_folded Sample.targetUrl Circuit.defaultConfig (by decide +kernel) s hs⟩

/-- Four failures and, after the time to live, a fifth one: the circuit stays closed. -/
theorem fifth_failure_forgotten :
    ¬ CircuitRefines Sample.targetUrl Circuit.defaultConfig (fun _ _ => True) := by
  intro hclaim
  obtain ⟨s, hs, hmissed⟩ := Sample.exists_sequential Circuit.defaultConfig (fun _ _ => True)
    (Sample.failures 4 ++ [(40000, .failure)]) Sample.missed (by decide +kernel)
  exact Sample.not_refines_of_missed hmissed (hclaim s hs)
