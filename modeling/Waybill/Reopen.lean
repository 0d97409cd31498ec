/-
# Reopening after a failed probe

The calls that concern the circuit of one target, one after the other and without failures:
decisions, the mark of a probe, successes and failures, each at a time of its own.

* A *failed probe* is the failure of a delivery that was admitted when the open circuit had
  cooled down, with no success recorded since it was opened.
* `failed_probe_reopens_iff`: it opens the circuit for another cooldown exactly if the
  failures counted since the key expired reach the threshold with it, or if the circuit was
  opened again at that very time.
* `failed_probe_forgotten`: usually the key has expired with the cooldown, and the failure of
  the probe is counted as the first one.
-/
import Waybill.System

open Worker

/-! ## The calls -/

/-- What concerns the circuit of a target. -/
inductive CircuitCall where
  | decide
  | markProbe
  | success
  | failure
  deriving DecidableEq

/-- What a call returns. -/
inductive CircuitResult where
  | decided (decision : CircuitDecision)
  | marked
  | recorded (snapshot : CircuitSnapshot)

/-- The program of a call. -/
def CircuitCall.program (targetUrl : JsString) (config : CircuitConfig) :
    CircuitCall → Async CircuitResult
  | .decide => do
      let (decision, _) ← shouldAllowDelivery targetUrl (Circuit.toOverrides config)
      return .decided decision
  | .markProbe => do
      Worker.markProbe targetUrl
      return .marked
  | .success => do
      let snapshot ← recordDeliverySuccess targetUrl (Circuit.toOverrides config)
      return .recorded snapshot
  | .failure => do
      let snapshot ← recordDeliveryFailure targetUrl (Circuit.toOverrides config)
      return .recorded snapshot

/-- A call at a time. -/
def callAt (targetUrl : JsString) (config : CircuitConfig) (t : ℚ) (call : CircuitCall)
    (w : World) : Option (Except JsError CircuitResult × World) :=
  services.run 0 (fun _ => {}) (call.program targetUrl config) { w with clock := t }

/-- What the circuit of a target reads at a time. -/
def circuitAt (targetUrl : JsString) (t : ℚ) (w : World) : CircuitSnapshot :=
  Circuit.decode (w.redis.get (Circuit.circuitKeyForTarget targetUrl) t)

/-- What `writeCircuitState` leaves in the store. -/
def storeCircuit (targetUrl : JsString) (config : CircuitConfig) (t : ℚ)
    (snapshot : CircuitSnapshot) (w : World) : World :=
  { w with
    clock := t
    redis := (w.redis.hset (Circuit.circuitKeyForTarget targetUrl) (Circuit.encode snapshot)
      t).expire (Circuit.circuitKeyForTarget targetUrl) (Circuit.ttlSeconds config) t }

section

variable (targetUrl : JsString) (config : CircuitConfig) (t : ℚ) (w : World)

/-- A decision only reads. -/
theorem callAt_decide : callAt targetUrl config t .decide w =
    some (.ok (.decided (Circuit.getCircuitDecision (circuitAt targetUrl t w) t
      (Circuit.toOverrides config))), { w with clock := t }) := rfl

/-- A success stores a closed circuit. -/
theorem callAt_success : callAt targetUrl config t .success w =
    some (.ok (.recorded (Circuit.applySuccess (circuitAt targetUrl t w) t
        (Circuit.toOverrides config))),
      storeCircuit targetUrl config t (Circuit.applySuccess (circuitAt targetUrl t w) t
        (Circuit.toOverrides config)) w) := rfl

/-- A failure stores what `applyFailure` says. -/
theorem callAt_failure : callAt targetUrl config t .failure w =
    some (.ok (.recorded (Circuit.applyFailure (circuitAt targetUrl t w) t
        (Circuit.toOverrides config))),
      storeCircuit targetUrl config t (Circuit.applyFailure (circuitAt targetUrl t w) t
        (Circuit.toOverrides config)) w) := rfl

end

/-! ## Runs -/

/-- A call with the time at which it was made and what it returned. -/
structure CircuitRecord where
  time : ℚ
  call : CircuitCall
  result : CircuitResult

/-- The world, and the calls so far, the last one first. -/
structure CircuitLog where
  world : World
  calls : List CircuitRecord

/-- One call, not earlier than the ones before. -/
def CircuitLog.step (targetUrl : JsString) (config : CircuitConfig) (s : CircuitLog) :
    ℚ × CircuitCall → Option CircuitLog
  | (t, call) =>
      if s.world.clock ≤ t then
        match callAt targetUrl config t call s.world with
        | some (.ok result, w) =>
            some { world := w, calls := { time := t, call := call, result := result } :: s.calls }
        | _ => none
      else none

/-- What one call is: its program ran, at a time that is not earlier. -/
theorem CircuitLog.step_eq_some {targetUrl : JsString} {config : CircuitConfig} {s s' : CircuitLog}
    {t : ℚ} {call : CircuitCall} (h : s.step targetUrl config (t, call) = some s') :
    s.world.clock ≤ t ∧
      ∃ result, callAt targetUrl config t call s.world = some (.ok result, s'.world) := by
  simp only [step] at h
  split_ifs at h with ht
  split at h
  · rename_i result w hcall
    obtain rfl := Option.some.inj h
    exact ⟨ht, result, hcall⟩
  · cases h

/-- Nothing is known of the target yet. -/
structure CircuitLog.Start (targetUrl : JsString) (s : CircuitLog) : Prop where
  calls : s.calls = []
  key : s.world.redis (Circuit.circuitKeyForTarget targetUrl) = none

/-- The logs of sequential runs. -/
abbrev Logged (targetUrl : JsString) (config : CircuitConfig) : CircuitLog → Prop :=
  Run (CircuitLog.Start targetUrl) (CircuitLog.step targetUrl config) (fun _ _ => True)

/-- When the circuit was last opened, if no success has been recorded since. -/
def openedSince : List CircuitRecord → Option ℚ
  | [] => none
  | x :: earlier =>
      match x.call, x.result with
      | .success, _ => none
      | .failure, .recorded snapshot =>
          if snapshot.state == .opened && snapshot.openedAt == some x.time then some x.time
          else openedSince earlier
      | _, _ => openedSince earlier

/-- A delivery was admitted when the open circuit had cooled down, and no success has been
recorded since it was opened. -/
def probeAdmitted (config : CircuitConfig) : List CircuitRecord → Bool
  | [] => false
  | x :: earlier =>
      match x.call, x.result with
      | .success, _ => false
      | .decide, .decided decision =>
          (decision.allowed &&
              (openedSince earlier).any (fun openedAt => openedAt + config.cooldownMs ≤ x.time)) ||
            probeAdmitted config earlier
      | _, _ => probeAdmitted config earlier

/-- **A failed probe**: a sequential run in which one was admitted, and the time of its
failure. -/
structure FailedProbe where
  targetUrl : JsString
  config : CircuitConfig
  threshold_pos : 1 ≤ config.failureThreshold
  cooldown_pos : 0 < config.cooldownMs
  log : CircuitLog
  logged : Logged targetUrl config log
  admitted : probeAdmitted config log.calls = true
  failedAt : ℚ
  later : log.world.clock ≤ failedAt

/-- The failure is recorded, and every decision within the cooldown is negative. -/
def FailedProbe.Reopens (x : FailedProbe) : Prop :=
  ∃ s, x.log.step x.targetUrl x.config (x.failedAt, .failure) = some s ∧
    ∀ t, x.failedAt ≤ t → t < x.failedAt + x.config.cooldownMs →
      (Circuit.getCircuitDecision (circuitAt x.targetUrl t s.world) t
        (Circuit.toOverrides x.config)).allowed = false

/-- The failures counted reach the threshold with this one, or the circuit was opened at this
very time (an opening at time `0` is stored without its time). -/
def FailedProbe.Reaches (x : FailedProbe) : Prop :=
  let current := circuitAt x.targetUrl x.failedAt x.log.world
  (current.state = .closed ∧ x.config.failureThreshold ≤ current.failureCount + 1) ∨
    (current.state = .opened ∧
      (current.openedAt = none ∨ current.openedAt = some x.failedAt))

/-! ## What is stored -/

/-- What a sequential run may read at time `t`: half-open is never stored, and the circuit was
opened before. -/
structure Plausible (t : ℚ) (s : CircuitSnapshot) : Prop where
  state : s.state ≠ .halfOpen
  openedAt : ∀ x, s.openedAt = some x → x ≤ t ∧ x ≠ 0

section

variable {targetUrl : JsString} {config : CircuitConfig} {t t' : ℚ} {w : World}
  {s : CircuitSnapshot}

theorem Plausible.mono (h : Plausible t s) (ht : t ≤ t') : Plausible t' s :=
  ⟨h.state, fun x hx => ⟨(h.openedAt x hx).1.trans ht, (h.openedAt x hx).2⟩⟩

/-- A key that does not exist. -/
theorem plausible_nil : Plausible t (Circuit.decode []) :=
  ⟨fun h => (nomatch h), fun _ h => (nomatch h)⟩

/-- The stored circuit is plausible at all later times. -/
def Tenable (targetUrl : JsString) (w : World) : Prop :=
  ∀ t, w.clock ≤ t → Plausible w.clock (circuitAt targetUrl t w)

/-- What is read back of a stored snapshot while its key lives. -/
theorem circuitAt_store (ht : t' < t + 1000 * Circuit.ttlSeconds config) :
    circuitAt targetUrl t' (storeCircuit targetUrl config t s w) =
      { state := s.state, failureCount := s.failureCount
        openedAt := s.openedAt.filter (· ≠ 0)
        halfOpenInFlight := some (decide (s.halfOpenInFlight = some true)) } := by
  unfold circuitAt storeCircuit
  rw [RedisStore.get_expire_hset, if_pos ht, Circuit.decode_write_encode]

/-- A stored snapshot is plausible. -/
theorem tenable_store (hstate : s.state ≠ .halfOpen) (hopened : ∀ x, s.openedAt = some x → x ≤ t) :
    Tenable targetUrl (storeCircuit targetUrl config t s w) := by
  intro t' _
  by_cases hlive : t' < t + 1000 * Circuit.ttlSeconds config
  · rw [circuitAt_store hlive]
    refine ⟨hstate, fun x hx => ?_⟩
    obtain ⟨hx, hne⟩ := Option.filter_eq_some_iff.mp hx
    exact ⟨hopened x hx, by simpa using hne⟩
  · unfold circuitAt storeCircuit
    rw [RedisStore.get_expire_hset, if_neg hlive]
    exact plausible_nil

/-- A mark over the stored circuit. -/
theorem tenable_mark (h : Tenable targetUrl w) (ht : w.clock ≤ t) :
    Tenable targetUrl { w with
      clock := t
      redis := w.redis.hset (Circuit.circuitKeyForTarget targetUrl)
        [(js "halfOpenInFlight", .text (js "true"))] t } := by
  intro t' _
  have hold := (h t ht).mono ht
  rcases RedisStore.get_hset w.redis (Circuit.circuitKeyForTarget targetUrl)
    [(js "halfOpenInFlight", .text (js "true"))] t t' with hget | hget
  · unfold circuitAt
    rw [hget]
    obtain ⟨hstate, hopened⟩ := Circuit.decode_write_mark
      (w.redis.get (Circuit.circuitKeyForTarget targetUrl) t) (js "true")
    exact ⟨hstate ▸ hold.state, fun x hx => hold.openedAt x (hopened ▸ hx)⟩
  · unfold circuitAt
    rw [hget]
    exact plausible_nil

/-- What `applyFailure` makes of a plausible circuit. -/
theorem plausible_applyFailure (overrides : CircuitOverrides) (h : Plausible t s) :
    (Circuit.applyFailure s t overrides).state ≠ .halfOpen ∧
      ∀ x, (Circuit.applyFailure s t overrides).openedAt = some x → x ≤ t := by
  unfold Circuit.applyFailure
  cases hs : s.state with
  | halfOpen => exact absurd hs h.state
  | opened =>
      refine ⟨by simp, fun x hx => ?_⟩
      obtain rfl := Option.some.inj hx
      cases ho : s.openedAt with
      | none => exact le_refl t
      | some y => exact (h.openedAt y ho).1
  | closed =>
      simp only
      split_ifs
      · exact ⟨by simp, fun x hx => le_of_eq (Option.some.inj hx).symm⟩
      · exact ⟨by simp, fun x hx => nomatch hx⟩

/-- **One call** keeps what is stored plausible. -/
theorem tenable_step {x x' : CircuitLog} {c : ℚ × CircuitCall}
    (h : Tenable targetUrl x.world) (hs : x.step targetUrl config c = some x') :
    Tenable targetUrl x'.world := by
  obtain ⟨t, call⟩ := c
  obtain ⟨ht, result, hcall⟩ := CircuitLog.step_eq_some hs
  obtain ⟨x', calls⟩ := x'
  change Tenable targetUrl x'
  cases call with
  | decide =>
      obtain ⟨-, rfl⟩ := Prod.mk.inj (Option.some.inj hcall)
      exact fun t' ht' => (h t' (ht.trans ht')).mono ht
  | markProbe =>
      obtain ⟨-, rfl⟩ := Prod.mk.inj (Option.some.inj hcall)
      have hmark := tenable_mark h ht
      exact hmark
  | success =>
      obtain ⟨-, rfl⟩ := Prod.mk.inj (Option.some.inj hcall)
      exact tenable_store (fun hne => nomatch hne) (fun _ hx => nomatch hx)
  | failure =>
      obtain ⟨-, rfl⟩ := Prod.mk.inj (Option.some.inj hcall)
      obtain ⟨hstate, hopened⟩ := plausible_applyFailure (Circuit.toOverrides config)
        ((h t ht).mono ht)
      exact tenable_store hstate hopened

/-- In every sequential run, what is stored is plausible. -/
theorem tenable_of_logged {x : CircuitLog} (h : Logged targetUrl config x) :
    Tenable targetUrl x.world := by
  refine h.invariant ?_ fun _ _ _ hx _ hs => tenable_step hx hs
  intro x hx t _
  have hget : x.world.redis.get (Circuit.circuitKeyForTarget targetUrl) t = [] := by
    simp [RedisStore.get, RedisStore.entryAt, hx.key]
  unfold circuitAt
  rw [hget]
  exact plausible_nil

end

/-! ## The failure of a probe -/

section

variable {targetUrl : JsString} {config : CircuitConfig} {t t' : ℚ} {w : World}
  {s current : CircuitSnapshot}

/-- Decisions on a stored snapshot, during a cooldown. -/
theorem denied_store_iff (ht : t' < t + config.cooldownMs) (hstate : s.state ≠ .halfOpen) :
    (Circuit.getCircuitDecision (circuitAt targetUrl t' (storeCircuit targetUrl config t s w)) t'
        (Circuit.toOverrides config)).allowed = false ↔
      s.state = .opened ∧ t' < (s.openedAt.filter (· ≠ 0)).getD t' + config.cooldownMs := by
  have httl := Circuit.cooldown_le_ttl config
  have hlive : t' < t + 1000 * Circuit.ttlSeconds config := by linarith
  rw [circuitAt_store hlive, Circuit.allowed_eq_false_iff]
  simp [hstate]

/-- A circuit opened at time `t` denies deliveries for a cooldown, also at `t = 0`. -/
theorem denied_of_opened_now (hcooldown : 0 < config.cooldownMs)
    (ht : t' < t + config.cooldownMs) (hstate : s.state = .opened) (hopened : s.openedAt = some t) :
    (Circuit.getCircuitDecision (circuitAt targetUrl t' (storeCircuit targetUrl config t s w)) t'
      (Circuit.toOverrides config)).allowed = false := by
  refine (denied_store_iff ht (by simp [hstate])).mpr ⟨hstate, ?_⟩
  rw [hopened, Option.filter_some]
  by_cases hzero : t = 0
  · simp [hzero, hcooldown]
  · simpa [hzero] using ht

/-- **A failure denies deliveries for a cooldown** exactly if it opens the circuit, or finds
it opened at the same time. -/
theorem failure_denies_iff (targetUrl : JsString) (w : World)
    (hcooldown : 0 < config.cooldownMs) (h : Plausible t current) :
    (∀ t', t ≤ t' → t' < t + config.cooldownMs →
        (Circuit.getCircuitDecision (circuitAt targetUrl t' (storeCircuit targetUrl config t
          (Circuit.applyFailure current t (Circuit.toOverrides config)) w)) t'
          (Circuit.toOverrides config)).allowed = false) ↔
      (current.state = .closed ∧ config.failureThreshold ≤ current.failureCount + 1) ∨
        (current.state = .opened ∧ (current.openedAt = none ∨ current.openedAt = some t)) := by
  obtain ⟨state, failureCount, openedAt, halfOpenInFlight⟩ := current
  cases state with
  | halfOpen => exact absurd rfl h.state
  | closed =>
      by_cases hcount : config.failureThreshold ≤ failureCount + 1
      · simp only [hcount, and_self, true_or, iff_true]
        intro t' _ ht'
        refine denied_of_opened_now hcooldown ht' ?_ ?_ <;> simp [Circuit.applyFailure, hcount]
      · -- the failure is only counted, and the circuit stays closed
        simp only [hcount, and_false, false_or, reduceCtorEq, false_and, iff_false]
        intro hdenied
        have hnow := hdenied t (le_refl t) (by linarith)
        rw [denied_store_iff (by linarith) (by simp [Circuit.applyFailure, hcount])] at hnow
        simp [Circuit.applyFailure, hcount] at hnow
  | opened =>
      simp only [reduceCtorEq, false_and, true_and, false_or]
      cases openedAt with
      | none =>
          simp only [true_or, iff_true]
          intro t' _ ht'
          exact denied_of_opened_now hcooldown ht' rfl rfl
      | some x =>
          obtain ⟨hle, hne⟩ := h.openedAt x rfl
          simp only [reduceCtorEq, false_or, Option.some.injEq]
          constructor
          · -- the old time of opening is kept, so the cooldown ends before its time
            intro hdenied
            by_contra hnow
            have hlt : x < t := lt_of_le_of_ne hle hnow
            have hmax : max t (x + config.cooldownMs) < t + config.cooldownMs :=
              max_lt (by linarith) (by linarith)
            have hend := hdenied _ (le_max_left t (x + config.cooldownMs)) hmax
            rw [denied_store_iff hmax (by simp [Circuit.applyFailure])] at hend
            have hcool := hend.2
            simp only [Circuit.applyFailure, Option.getD_some] at hcool
            rw [Option.filter_some, if_pos (by simpa using hne), Option.getD_some] at hcool
            exact absurd (le_max_right t (x + config.cooldownMs)) (not_le.mpr hcool)
          · rintro rfl t' _ ht'
            exact denied_of_opened_now hcooldown ht' rfl rfl

end

/-- The step in which a failure is recorded. -/
theorem step_failure (targetUrl : JsString) (config : CircuitConfig) {t : ℚ} {x : CircuitLog}
    (ht : x.world.clock ≤ t) : ∃ calls, x.step targetUrl config (t, .failure) =
      some ⟨storeCircuit targetUrl config t (Circuit.applyFailure
        (circuitAt targetUrl t x.world) t (Circuit.toOverrides config)) x.world, calls⟩ := by
  simp only [CircuitLog.step]
  rw [if_pos ht, callAt_failure]
  exact ⟨_, rfl⟩

/-- **A failed probe reopens the circuit** for another cooldown exactly if the failures
counted reach the threshold with it, or the circuit was opened again at that very time. -/
theorem failed_probe_reopens_iff (x : FailedProbe) : x.Reopens ↔ x.Reaches := by
  -- what a run has stored passes for a circuit at every later time
  have hplausible : Plausible x.failedAt (circuitAt x.targetUrl x.failedAt x.log.world) :=
    (tenable_of_logged x.logged x.failedAt x.later).mono x.later
  have hiff := failure_denies_iff x.targetUrl x.log.world x.cooldown_pos hplausible
  obtain ⟨calls, hstep⟩ := step_failure x.targetUrl x.config x.later
  constructor
  · rintro ⟨s, hs, hdenied⟩
    obtain rfl := Option.some.inj (hstep.symm.trans hs)
    exact hiff.mp hdenied
  · intro hreaches
    exact ⟨_, hstep, hiff.mpr hreaches⟩

/-! ## Two runs -/

namespace Sample

/-- A target of which nothing is known. -/
def untouched : CircuitLog := { world := start.world.world, calls := [] }

def targetUrl : JsString := js "http://receiver/hook"

theorem untouched_start : untouched.Start targetUrl where
  calls := rfl
  key := rfl

/-- Failures at time 1000, and a decision when the cooldown is over. -/
def probe (config : CircuitConfig) (failures : ℕ) : List (ℚ × CircuitCall) :=
  List.replicate failures (1000, .failure) ++ [(1000 + config.cooldownMs, .decide)]

/-- A played run with a probe whose failure is recorded at once. -/
theorem exists_failedProbe (config : CircuitConfig) (hthreshold : 1 ≤ config.failureThreshold)
    (hcooldown : 0 < config.cooldownMs) (failures : ℕ) (test : CircuitLog → Bool)
    (h : (Run.play (CircuitLog.step targetUrl config) (fun _ _ => true) (probe config failures)
      untouched).any (fun s => probeAdmitted config s.calls &&
        decide (s.world.clock ≤ 1000 + config.cooldownMs) && test s) = true) :
    ∃ x : FailedProbe, x.targetUrl = targetUrl ∧ x.config = config ∧
      x.failedAt = 1000 + config.cooldownMs ∧ test x.log = true := by
  have hplay : ∃ s, Logged targetUrl config s ∧ (probeAdmitted config s.calls &&
      decide (s.world.clock ≤ 1000 + config.cooldownMs) && test s) = true :=
    Run.exists_of_play (fun _ _ _ => trivial) untouched_start h
  obtain ⟨s, hs, htest⟩ := hplay
  simp only [Bool.and_eq_true, decide_eq_true_eq] at htest
  obtain ⟨⟨hadmitted, hlater⟩, htest⟩ := htest
  exact ⟨⟨targetUrl, config, hthreshold, hcooldown, s, hs, hadmitted, _, hlater⟩, rfl, rfl, rfl,
    htest⟩

end Sample

/-- With a threshold of one, the failure of the probe opens the circuit again. -/
theorem first_failure_reopens : ∃ x : FailedProbe, x.Reaches ∧ x.Reopens := by
  obtain ⟨x, htarget, hconfig, hfailed, htest⟩ := Sample.exists_failedProbe
    { failureThreshold := 1, cooldownMs := 1000 } (by norm_num) (by norm_num) 1
    (fun s => decide ((circuitAt Sample.targetUrl (1000 + 1000) s.world).state = .closed ∧
      1 ≤ (circuitAt Sample.targetUrl (1000 + 1000) s.world).failureCount + 1)) (by decide +kernel)
  have hreaches : x.Reaches := by
    refine .inl ?_
    rw [htarget, hconfig, hfailed]
    exact of_decide_eq_true htest
  exact ⟨x, hreaches, (failed_probe_reopens_iff x).mpr hreaches⟩

/-- With the default configuration, the key has expired, the failure of the probe counts as
the first one, and the next delivery is admitted at the same time. -/
theorem failed_probe_forgotten : ¬ ∀ x : FailedProbe, x.Reopens := by
  intro hclaim
  obtain ⟨x, htarget, hconfig, hfailed, htest⟩ := Sample.exists_failedProbe Circuit.defaultConfig
    (by decide) (by decide) 5
    (fun s => (s.step Sample.targetUrl Circuit.defaultConfig
        (1000 + Circuit.defaultConfig.cooldownMs, .failure)).any (fun s' =>
      (Circuit.getCircuitDecision
        (circuitAt Sample.targetUrl (1000 + Circuit.defaultConfig.cooldownMs) s'.world)
        (1000 + Circuit.defaultConfig.cooldownMs)
        (Circuit.toOverrides Circuit.defaultConfig)).allowed)) (by decide +kernel)
  obtain ⟨s, hstep, hdenied⟩ := hclaim x
  rw [htarget, hconfig, hfailed] at hstep hdenied
  have hnow := hdenied _ (le_refl _) (lt_add_of_pos_right _ (hconfig ▸ x.cooldown_pos))
  rw [hstep, Option.any_some, hnow] at htest
  cases htest
