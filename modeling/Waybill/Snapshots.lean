/-
# What a snapshot of the circuit says

The snapshots that failures and successes lead to, and what is left of them in Redis.

* `tells_folded`: a snapshot is closed with the number of failures since the last success, or
  open since the failure that brought this number to the threshold.
* `stored_answers`: as long as the key has not expired, the stored snapshot answers as the
  original does, whatever was stored before.
-/
import Waybill.Forgetting

open Worker

/-! ## Counting failures -/

/-- The times of the failures since the last success, the last one first. -/
def failureTimes : List CircuitRecord → List ℚ
  | [] => []
  | x :: earlier =>
      match x.call with
      | .failure => x.time :: failureTimes earlier
      | .success => []
      | _ => failureTimes earlier

/-- Failures since the last success are among the calls. -/
theorem mem_failureTimes {calls : List CircuitRecord} {t : ℚ} (h : t ∈ failureTimes calls) :
    ∃ x ∈ calls, x.time = t := by
  induction calls with
  | nil => cases h
  | cons x earlier ih =>
      have hearlier : t ∈ failureTimes earlier → ∃ y ∈ x :: earlier, y.time = t := by
        intro ht
        obtain ⟨y, hy, htime⟩ := ih ht
        exact ⟨y, List.mem_cons_of_mem _ hy, htime⟩
      unfold failureTimes at h
      cases hcall : x.call with
      | failure =>
          rw [hcall] at h
          rcases List.mem_cons.mp h with rfl | ht
          · exact ⟨x, List.mem_cons_self, rfl⟩
          · exact hearlier ht
      | success =>
          rw [hcall] at h
          cases h
      | decide =>
          rw [hcall] at h
          exact hearlier h
      | markProbe =>
          rw [hcall] at h
          exact hearlier h

/-- What a snapshot says of the failures since the last success: their number, as long as it is
below the threshold, and then the time of the failure that brought it there. -/
inductive Tells (config : CircuitConfig) (times : List ℚ) (s : CircuitSnapshot) : Prop where
  | closed (state : s.state = .closed) (openedAt : s.openedAt = none)
      (failureCount : s.failureCount = times.length)
      (below : (times.length : ℚ) < config.failureThreshold)
  | opened (later before : List ℚ) (t : ℚ) (failures : times = later ++ t :: before)
      (below : (before.length : ℚ) < config.failureThreshold)
      (reached : config.failureThreshold ≤ before.length + 1)
      (state : s.state = .opened) (openedAt : s.openedAt = some t)
      (failureCount : s.failureCount = config.failureThreshold)

section

variable {config : CircuitConfig} {times : List ℚ} {s : CircuitSnapshot}

/-- One more failure is counted, or changes nothing. -/
theorem Tells.failure (h : Tells config times s) (t : ℚ) :
    Tells config (t :: times) (Circuit.applyFailure s t (Circuit.toOverrides config)) := by
  cases h with
  | closed hstate hopened hcount hbelow =>
      unfold Circuit.applyFailure
      simp only [hstate, hcount, Circuit.normalizeConfig_toOverrides]
      by_cases hnext : (times.length : ℚ) + 1 ≥ config.failureThreshold
      · rw [if_pos hnext]
        exact .opened [] times t rfl hbelow hnext rfl rfl rfl
      · rw [if_neg hnext]
        have hlength : ((t :: times).length : ℚ) = times.length + 1 := by
          rw [List.length_cons]
          push_cast
          rfl
        exact .closed rfl rfl hlength.symm (by linarith)
  | opened later before x hfailures hbelow hreached hstate hopened hcount =>
      unfold Circuit.applyFailure
      simp only [hstate, hopened]
      exact .opened (t :: later) before x (by rw [hfailures, List.cons_append]) hbelow hreached
        rfl rfl hcount

/-- **What is folded**, for any sequence of calls. -/
theorem tells_folded (hthreshold : 1 ≤ config.failureThreshold) (calls : List CircuitRecord) :
    Tells config (failureTimes calls) (folded config calls) := by
  have hnone : ((0 : ℕ) : ℚ) < config.failureThreshold := by
    push_cast
    linarith
  induction calls with
  | nil => exact .closed rfl rfl (by norm_num [folded, failureTimes]) hnone
  | cons x earlier ih =>
      unfold failureTimes folded
      cases x.call with
      | failure => exact ih.failure x.time
      | success => exact .closed rfl rfl (by norm_num [Circuit.applySuccess]) hnone
      | decide => exact ih
      | markProbe => exact ih

end

/-! ## The stored form -/

/-- What the two commands of `writeCircuitState` leave, each performed at a time of its own. -/
def writtenCircuit (redis : RedisStore) (targetUrl : JsString) (snapshot : CircuitSnapshot)
    (overrides : CircuitOverrides) (t₁ t₂ : ℚ) : RedisStore :=
  (redis.hset (Circuit.circuitKeyForTarget targetUrl) (Circuit.encode snapshot) t₁).expire
    (Circuit.circuitKeyForTarget targetUrl)
    (Circuit.ttlSeconds (Circuit.normalizeConfig overrides)) t₂

/-- The program of `writeCircuitState` performs them. -/
theorem run_writeCircuitState (targetUrl : JsString) (snapshot : CircuitSnapshot)
    (overrides : CircuitOverrides) (w : World) :
    services.run 0 (fun _ => {}) (writeCircuitState targetUrl snapshot overrides) w =
      some (.ok (), { w with
        redis := writtenCircuit w.redis targetUrl snapshot overrides w.clock w.clock }) := rfl

/-- The program of `readCircuitState`. -/
theorem run_readCircuitState (targetUrl : JsString) (w : World) :
    services.run 0 (fun _ => {}) (readCircuitState targetUrl) w =
      some (.ok (circuitAt targetUrl w.clock w), w) := rfl

/-- Two snapshots that answer in the same way at every time. -/
structure SameAnswers (r s : CircuitSnapshot) : Prop where
  decision : ∀ now o, Circuit.getCircuitDecision r now o = Circuit.getCircuitDecision s now o
  failure : ∀ now o, Circuit.applyFailure r now o = Circuit.applyFailure s now o
  success : ∀ now o, Circuit.applySuccess r now o = Circuit.applySuccess s now o

/-- Only a half-open circuit looks at the mark of a probe. -/
theorem sameAnswers_of_fields {r s : CircuitSnapshot} (hstate : r.state = s.state)
    (hcount : r.failureCount = s.failureCount) (hopened : r.openedAt = s.openedAt)
    (hprobe : s.state ≠ .halfOpen) : SameAnswers r s := by
  constructor
  · intro now o
    unfold Circuit.getCircuitDecision
    rw [hstate, hopened]
    cases hs : s.state with
    | closed => rfl
    | opened => rfl
    | halfOpen => exact absurd hs hprobe
  · intro now o
    unfold Circuit.applyFailure
    rw [hstate, hcount, hopened]
  · intro now o
    rfl

/-- **The stored snapshot answers as the original**, while its key is there. -/
theorem stored_answers {s : CircuitSnapshot} (hprobe : s.state ≠ .halfOpen)
    (hopened : s.openedAt ≠ some 0) (redis : RedisStore) (targetUrl : JsString)
    (o : CircuitOverrides) (t₁ t₂ t : ℚ)
    (hlive : ((writtenCircuit redis targetUrl s o t₁ t₂).entryAt
      (Circuit.circuitKeyForTarget targetUrl) t).isSome) :
    SameAnswers (Circuit.decode ((writtenCircuit redis targetUrl s o t₁ t₂).get
      (Circuit.circuitKeyForTarget targetUrl) t)) s := by
  have hget : (writtenCircuit redis targetUrl s o t₁ t₂).get
      (Circuit.circuitKeyForTarget targetUrl) t =
        (redis.get (Circuit.circuitKeyForTarget targetUrl) t₁).write (Circuit.encode s) := by
    rw [RedisStore.get_eq_held, writtenCircuit, RedisStore.held_expire, RedisStore.held_hset]
    intro e he
    obtain ⟨e', he'⟩ := Option.isSome_iff_exists.mp hlive
    rw [RedisStore.entryAt, he, Option.filter_eq_some_iff] at he'
    obtain ⟨heq, hlive'⟩ := he'
    rwa [Option.some.inj heq]
  rw [hget, Circuit.decode_write_encode]
  refine sameAnswers_of_fields ?_ ?_ ?_ hprobe
  · rfl
  · rfl
  · show s.openedAt.filter (· ≠ 0) = s.openedAt
    cases h : s.openedAt with
    | none => rfl
    | some x =>
        have hx : x ≠ 0 := by
          rintro rfl
          exact hopened h
        simp [hx]

/-- **Reachable snapshots and their stored form.**  After any calls at positive times, the
snapshot tells the failures since the last success, and what is read back of it answers in the
same way at every time, over anything that was stored before, until the key expires. -/
theorem snapshots_kept (config : CircuitConfig) (hthreshold : 1 ≤ config.failureThreshold)
    (calls : List CircuitRecord) (hpos : ∀ x ∈ calls, 0 < x.time) :
    Tells config (failureTimes calls) (folded config calls) ∧
      ∀ (redis : RedisStore) (targetUrl : JsString) (t₁ t₂ t : ℚ),
        ((writtenCircuit redis targetUrl (folded config calls) (Circuit.toOverrides config) t₁
          t₂).entryAt (Circuit.circuitKeyForTarget targetUrl) t).isSome →
        SameAnswers (Circuit.decode ((writtenCircuit redis targetUrl (folded config calls)
          (Circuit.toOverrides config) t₁ t₂).get (Circuit.circuitKeyForTarget targetUrl) t))
          (folded config calls) := by
  have htells := tells_folded hthreshold calls
  refine ⟨htells, ?_⟩
  intro redis targetUrl t₁ t₂ t hlive
  refine stored_answers ?_ ?_ redis targetUrl _ t₁ t₂ t hlive
  -- the probe mark is looked at in half-open only, which is never folded
  · cases htells with
    | closed hstate => simp [hstate]
    | opened _ _ _ _ _ _ hstate => simp [hstate]
  -- a stored 0 would be read back as no time, and no failure is at 0
  · cases htells with
    | closed _ hopened => simp [hopened]
    | opened later before x hfailures _ _ _ hopened =>
        have hmem : x ∈ failureTimes calls := by
          rw [hfailures]
          exact List.mem_append_right _ List.mem_cons_self
        obtain ⟨y, hy, rfl⟩ := mem_failureTimes hmem
        have hy0 := hpos y hy
        rw [hopened]
        intro hzero
        have htime : y.time = 0 := Option.some.inj hzero
        linarith

/-- Five failures with the default configuration: open since the fifth, and still so when it is
read back. -/
theorem snapshots_kept_opened :
    (folded Circuit.defaultConfig ([6, 5, 4, 3, 2, 1].map (fun t =>
        ⟨t, .failure, .marked⟩))).openedAt = some 5 ∧
      (Circuit.getCircuitDecision (Circuit.decode ((writtenCircuit (fun _ => none) [] (folded
        Circuit.defaultConfig ([6, 5, 4, 3, 2, 1].map (fun t => ⟨t, .failure, .marked⟩)))
        (Circuit.toOverrides Circuit.defaultConfig) 6 7).get (Circuit.circuitKeyForTarget [])
          1000)) 1000 {}).allowed = false := by
  obtain ⟨htells, hstored⟩ := snapshots_kept Circuit.defaultConfig (by norm_num
    [Circuit.defaultConfig]) ([6, 5, 4, 3, 2, 1].map (fun t => ⟨t, .failure, .marked⟩))
    (by decide)
  refine ⟨by decide +kernel, ?_⟩
  rw [(hstored (fun _ => none) [] 6 7 1000 (by decide +kernel)).decision]
  decide +kernel
