/-
# Failures recorded at the same time

Any number of calls of `recordDeliveryFailure` for one target, of any number of workers.  A call
reads the circuit, applies its failure to what it read, and stores the result.

* `no_failure_lost`: if every call finds the circuit as it read it when it stores it again, no
  failure is lost, and an opened circuit stays open for its cooldown.
* `failures_lost`: five calls that read the circuit before any of them stores it count as one.
-/
import Waybill.Calls
import Waybill.Worker

open Worker

/-! ## Calls -/

/-- Calls of `recordDeliveryFailure` for a target. -/
def failureCalls (targetUrl : JsString) (config : CircuitConfig) :
    Machine Services History Choice Unit CircuitSnapshot ℚ :=
  callsOf fun _ => recordDeliveryFailure targetUrl (Circuit.toOverrides config)

/-- The circuit that is stored for a target. -/
def storedCircuit (targetUrl : JsString) (w : World) : CircuitSnapshot :=
  Circuit.decode (w.redis.held (Circuit.circuitKeyForTarget targetUrl))

/-- Before the first call: a closed circuit without failures. -/
structure FailuresBegin (targetUrl : JsString) (s : Calls Unit CircuitSnapshot) : Prop
    extends s.Start where
  closed : (storedCircuit targetUrl s.world.world).state = .closed
  count : (storedCircuit targetUrl s.world.world).failureCount = 0

/-- No operation fails, and the key does not expire. -/
def Healthy (targetUrl : JsString) (s : Calls Unit CircuitSnapshot) :
    PoolAction Choice Unit ℚ → Prop
  | .step _ c => c.fault = .none ∧
      ∀ e, s.world.world.redis (Circuit.circuitKeyForTarget targetUrl) = some e →
        e.live s.world.world.clock = true
  | _ => True

/-- What a reading of a circuit returned. -/
def Deed.reading : Deed → Option RedisHash
  | ⟨_, .hgetall key, _, before⟩ => some (before.redis.get key before.clock)
  | _ => none

/-- What a call last read. -/
def lastReading (deeds : List Deed) (pid : ℕ) : Option RedisHash :=
  deeds.findSome? (fun x => if x.pid = pid then x.reading else none)

/-- The circuit is still what a call has read, when the call stores it. -/
def StoresWhatItRead (targetUrl : JsString) (s : Calls Unit CircuitSnapshot) :
    PoolAction Choice Unit ℚ → Prop
  | .step pid _ => ∀ j key fields k, s.tasks pid = some ⟨j, .call (.hset key fields) k⟩ →
      (lastReading s.world.deeds pid).map Circuit.decode =
        some (storedCircuit targetUrl s.world.world)
  | _ => True

/-- **No lost failures**: when all calls have returned, and there were enough of them, the
circuit is open; and once it is stored as opened at time `T`, whatever is stored from then on
denies deliveries before `T + cooldownMs`. -/
structure NoLostFailures (targetUrl : JsString) (config : CircuitConfig)
    (ok : Calls Unit CircuitSnapshot → PoolAction Choice Unit ℚ → Prop) : Prop where
  opens : ∀ s : Calls Unit CircuitSnapshot,
    Run (FailuresBegin targetUrl) (failureCalls targetUrl config).step
      (fun s a => Healthy targetUrl s a ∧ ok s a) s →
    s.Quiet → 0 < s.spawned → config.failureThreshold ≤ s.spawned →
    (storedCircuit targetUrl s.world.world).state = .opened
  cools : ∀ (s s' : Calls Unit CircuitSnapshot) (T : ℚ),
    Run (FailuresBegin targetUrl) (failureCalls targetUrl config).step
      (fun s a => Healthy targetUrl s a ∧ ok s a) s →
    (storedCircuit targetUrl s.world.world).state = .opened →
    (storedCircuit targetUrl s.world.world).openedAt = some T →
    Run (fun x => x = s) (failureCalls targetUrl config).step
      (fun s a => Healthy targetUrl s a ∧ ok s a) s' →
    ∀ t < T + config.cooldownMs,
      (Circuit.getCircuitDecision (storedCircuit targetUrl s'.world.world) t
        (Circuit.toOverrides config)).allowed = false

/-! ## Where a call stands -/

/-- The operation a call performs next, and what it has read before. -/
inductive FailurePhase where
  | reading
  | timing (raw : RedisHash)
  | storing (raw : RedisHash) (t : ℚ)
  | expiring
  | recorded
  | failed

/-- The operations of a call. -/
inductive FailureOp (targetUrl : JsString) (config : CircuitConfig) : FailurePhase → Op → Prop
  | read : FailureOp targetUrl config .reading (.hgetall (Circuit.circuitKeyForTarget targetUrl))
  | time {raw : RedisHash} : FailureOp targetUrl config (.timing raw) .now
  | store {raw : RedisHash} {t : ℚ} : FailureOp targetUrl config (.storing raw t)
      (.hset (Circuit.circuitKeyForTarget targetUrl) (Circuit.encode
        (Circuit.applyFailure (Circuit.decode raw) t (Circuit.toOverrides config))))
  | expire : FailureOp targetUrl config .expiring
      (.expire (Circuit.circuitKeyForTarget targetUrl) (Circuit.ttlSeconds config))

/-- Where an answer leads. -/
def FailurePhase.next : FailurePhase → (op : Op) → Except JsError op.Res → FailurePhase
  | .reading, .hgetall _, .ok raw => .timing raw
  | .timing raw, .now, .ok t => .storing raw t
  | .storing _ _, .hset _ _, .ok _ => .expiring
  | .expiring, .expire _ _, .ok _ => .recorded
  | _, _, _ => .failed

/-- `recordDeliveryFailure`, one operation after the other. -/
def recording (targetUrl : JsString) (config : CircuitConfig) : Protocol Services where
  Phase := FailurePhase
  Allows := FailureOp targetUrl config
  next := FailurePhase.next

/-- The end of a call. -/
def FailurePhase.Ends : Except JsError CircuitSnapshot → FailurePhase → Prop
  | .ok _, φ => φ = .recorded
  | .error _, φ => φ = .failed

theorem follows_next {targetUrl : JsString} {config : CircuitConfig} {op : Op}
    {f : op.Res → Async CircuitSnapshot} {φ : FailurePhase} (ψ : op.Res → FailurePhase)
    (hallow : FailureOp targetUrl config φ op) (hnext : ∀ a, φ.next op (.ok a) = ψ a)
    (herr : ∀ e, φ.next op (.error e) = .failed)
    (hok : ∀ a, (recording targetUrl config).Follows (f a) (ψ a) FailurePhase.Ends) :
    (recording targetUrl config).Follows (@Prog.perform Services op >>= f) φ
      FailurePhase.Ends :=
  @Protocol.Follows.step Services (recording targetUrl config) CircuitSnapshot op f φ ψ
    FailurePhase.Ends hallow hnext herr hok

/-- `recordDeliveryFailure` keeps to it. -/
theorem follows_recording (targetUrl : JsString) (config : CircuitConfig) :
    (recording targetUrl config).Follows
      (recordDeliveryFailure targetUrl (Circuit.toOverrides config)) .reading
      FailurePhase.Ends := by
  simp only [recordDeliveryFailure, readCircuitState, writeCircuitState, bind_assoc, pure_bind]
  refine follows_next FailurePhase.timing .read (fun _ => rfl) (fun _ => rfl) fun raw => ?_
  refine follows_next (FailurePhase.storing raw) .time (fun _ => rfl) (fun _ => rfl) fun t => ?_
  refine follows_next (fun _ => .expiring) .store (fun _ => rfl) (fun _ => rfl) fun _ => ?_
  exact follows_next (fun _ => .recorded) .expire (fun _ => rfl) (fun _ => rfl) fun _ => rfl

/-! ## What holds of the circuit -/

/-- An operation that stores a circuit. -/
def Deed.stores (x : Deed) : Bool :=
  match x.op with
  | .hset _ _ => true
  | _ => false

/-- How often a circuit was stored. -/
def storeCount (deeds : List Deed) : ℕ := deeds.countP Deed.stores

/-- A closed circuit has counted every failure, and is not due to be opened. -/
structure Tally (config : CircuitConfig) (stores : ℕ) (s : CircuitSnapshot) : Prop where
  state : s.state ≠ .halfOpen
  closed : s.state = .closed →
    s.failureCount = stores ∧ (0 < stores → (stores : ℚ) < config.failureThreshold)
  opened : s.state = .opened → s.openedAt ≠ some 0

/-- What a call may rely on. -/
def FailureFacts (pid : ℕ) : FailurePhase → History → Prop
  | .reading, _ => True
  | .timing raw, h => lastReading h.deeds pid = some raw
  | .storing raw _, h => lastReading h.deeds pid = some raw
  | .expiring, h => ∃ x ∈ h.deeds, x.pid = pid ∧ x.stores = true
  | .recorded, h => ∃ x ∈ h.deeds, x.pid = pid ∧ x.stores = true
  | .failed, _ => False

section

variable {targetUrl : JsString} {config : CircuitConfig} {stores : ℕ} {t : ℚ}
  {s : CircuitSnapshot}

/-- What is read back of a snapshot that was stored over what was read before. -/
def readBack (s : CircuitSnapshot) : CircuitSnapshot :=
  { state := s.state, failureCount := s.failureCount, openedAt := s.openedAt.filter (· ≠ 0)
    halfOpenInFlight := some (decide (s.halfOpenInFlight = some true)) }

/-- **One more failure**, stored over the circuit it was applied to. -/
theorem Tally.failure (h : Tally config stores s) :
    Tally config (stores + 1)
      (readBack (Circuit.applyFailure s t (Circuit.toOverrides config))) := by
  have hopened : ∀ x : CircuitSnapshot, (readBack x).openedAt ≠ some 0 := by
    intro x hx
    have hne := (Option.filter_eq_some_iff.mp hx).2
    simp at hne
  cases hs : s.state with
  | halfOpen => exact absurd hs h.state
  | opened =>
      have hnext : (Circuit.applyFailure s t (Circuit.toOverrides config)).state = .opened := by
        rw [Circuit.applyFailure, hs]
      refine ⟨?_, ?_, fun _ => hopened _⟩
      · intro hhalf
        cases hnext.symm.trans hhalf
      · intro hclosed
        cases hnext.symm.trans hclosed
  | closed =>
      obtain ⟨hcount, -⟩ := h.closed hs
      by_cases hreached : config.failureThreshold ≤ (stores : ℚ) + 1
      · have hnext : (Circuit.applyFailure s t (Circuit.toOverrides config)).state = .opened := by
          simp [Circuit.applyFailure, hs, hcount, hreached]
        refine ⟨?_, ?_, fun _ => hopened _⟩
        · intro hhalf
          cases hnext.symm.trans hhalf
        · intro hclosed
          cases hnext.symm.trans hclosed
      · have hnext : (Circuit.applyFailure s t (Circuit.toOverrides config)).state = .closed ∧
            (Circuit.applyFailure s t (Circuit.toOverrides config)).failureCount =
              (stores : ℚ) + 1 := by
          simp [Circuit.applyFailure, hs, hcount, hreached]
        refine ⟨?_, ?_, fun _ => hopened _⟩
        · intro hhalf
          cases hnext.1.symm.trans hhalf
        · intro _
          push_cast
          exact ⟨hnext.2, fun _ => not_le.mp hreached⟩

/-- An open circuit stays open since the same time. -/
theorem opened_failure {T : ℚ} (hs : s.state = .opened) (hopened : s.openedAt = some T)
    (hne : T ≠ 0) :
    (readBack (Circuit.applyFailure s t (Circuit.toOverrides config))).state = .opened ∧
      (readBack (Circuit.applyFailure s t (Circuit.toOverrides config))).openedAt = some T := by
  unfold readBack Circuit.applyFailure
  rw [hs, hopened]
  refine ⟨rfl, ?_⟩
  show (some T).filter (· ≠ 0) = some T
  rw [Option.filter_some, if_pos (by simpa using hne)]

/-- A circuit that was opened at time `T` denies deliveries until it has cooled down. -/
theorem denied_of_opened {T : ℚ} (hs : s.state = .opened) (hopened : s.openedAt = some T)
    (ht : t < T + config.cooldownMs) :
    (Circuit.getCircuitDecision s t (Circuit.toOverrides config)).allowed = false := by
  refine Circuit.decision_cooling hs ?_
  rw [hopened]
  exact ht

end

/-! ## One operation -/

section

variable {targetUrl : JsString} {config : CircuitConfig} {opening : Option ℚ} {pid q : ℕ}
  {φ ψ : FailurePhase} {op : Op} {c : Choice} {h h' : History} {r : Except JsError op.Res}

/-- What always holds; once the circuit was stored as opened at some time, it stays so. -/
structure FailureInv (targetUrl : JsString) (config : CircuitConfig) (opening : Option ℚ)
    (h : History) : Prop where
  tally : Tally config (storeCount h.deeds) (storedCircuit targetUrl h.world)
  since : ∀ T, opening = some T → (storedCircuit targetUrl h.world).state = .opened ∧
    (storedCircuit targetUrl h.world).openedAt = some T

/-- The conditions on an operation of a call. -/
structure FailureOk (targetUrl : JsString) (pid : ℕ) (op : Op) (c : Choice) (h : History) :
    Prop where
  healthy : c.fault = .none
  unchanged : ∀ key fields, op = .hset key fields →
    (lastReading h.deeds pid).map Circuit.decode = some (storedCircuit targetUrl h.world)

theorem lastReading_cons_other {x : Deed} (hx : x.pid ≠ pid ∨ x.reading = none)
    (deeds : List Deed) : lastReading (x :: deeds) pid = lastReading deeds pid := by
  unfold lastReading
  rw [List.findSome?_cons]
  rcases hx with hx | hx
  · rw [if_neg hx]
  · by_cases hpid : x.pid = pid
    · rw [if_pos hpid, hx]
    · rw [if_neg hpid]

/-- Operations that store nothing leave the circuit as it is known to be. -/
theorem FailureInv.of_same (hinv : FailureInv targetUrl config opening h)
    (hcircuit : storedCircuit targetUrl h'.world = storedCircuit targetUrl h.world)
    (hcount : storeCount h'.deeds = storeCount h.deeds) :
    FailureInv targetUrl config opening h' := by
  constructor
  · rw [hcircuit, hcount]
    exact hinv.tally
  · rw [hcircuit]
    exact hinv.since

/-- **One operation of a call**: what it reads it remembers, and what it stores is one failure
more than what is there. -/
theorem failure_step (hinv : FailureInv targetUrl config opening h) (hφ : FailureFacts pid φ h)
    (hallow : FailureOp targetUrl config φ op) (hok : FailureOk targetUrl pid op c h)
    (hexec : chronicle.exec pid op c h = some (r, h')) :
    FailureInv targetUrl config opening h' ∧ FailureFacts pid (φ.next op r) h' := by
  obtain ⟨hworld, hdeeds⟩ := chronicle_exec hexec
  have happly := World.exec_of_healthy hok.healthy hworld
  cases hallow with
  | read =>
      obtain ⟨rfl, hw⟩ := Prod.mk.inj happly
      refine ⟨hinv.of_same (by rw [← hw]) (by rw [hdeeds]; rfl), ?_⟩
      show lastReading h'.deeds pid = _
      rw [hdeeds]
      simp [lastReading, Deed.reading]
  | time =>
      obtain ⟨rfl, hw⟩ := Prod.mk.inj happly
      refine ⟨hinv.of_same (by rw [← hw]) (by rw [hdeeds]; rfl), ?_⟩
      show lastReading h'.deeds pid = _
      rw [hdeeds, lastReading_cons_other (.inr rfl)]
      exact hφ
  | @store raw t =>
      obtain ⟨rfl, hw⟩ := Prod.mk.inj happly
      -- nobody has stored between the read and now
      have hread : Circuit.decode raw = storedCircuit targetUrl h.world := by
        have hsame := hok.unchanged _ _ rfl
        rw [show lastReading h.deeds pid = some raw from hφ] at hsame
        exact Option.some.inj hsame
      have hstored : storedCircuit targetUrl h'.world = readBack
          (Circuit.applyFailure (storedCircuit targetUrl h.world) t
            (Circuit.toOverrides config)) := by
        rw [← hread, ← hw]
        show Circuit.decode (RedisStore.held (h.world.redis.hset _ _ _) _) = _
        rw [RedisStore.held_hset, Circuit.decode_write_encode]
        rfl
      have hcount : storeCount h'.deeds = storeCount h.deeds + 1 := by
        rw [hdeeds]
        exact List.countP_cons_of_pos rfl
      refine ⟨⟨?_, ?_⟩, ?_⟩
      · rw [hstored, hcount]
        exact hinv.tally.failure
      -- an open circuit stays open, with the time of its opening
      · intro T hT
        obtain ⟨hopened, hsince⟩ := hinv.since T hT
        rw [hstored]
        refine opened_failure hopened hsince ?_
        rintro rfl
        exact hinv.tally.opened hopened hsince
      · rw [show FailureFacts pid (FailurePhase.next _ _ _) h' = ∃ x ∈ h'.deeds, _ from rfl, hdeeds]
        exact ⟨_, List.mem_cons_self, rfl, rfl⟩
  | expire =>
      obtain ⟨rfl, hw⟩ := Prod.mk.inj happly
      refine ⟨hinv.of_same ?_ (by rw [hdeeds]; rfl), ?_⟩
      · unfold storedCircuit
        rw [← hw]
        exact congrArg Circuit.decode (RedisStore.held_expire _ _ _ _)
      · obtain ⟨x, hx, hrest⟩ := hφ
        rw [show FailureFacts pid (FailurePhase.next _ _ _) h' = ∃ x ∈ h'.deeds, _ from rfl, hdeeds]
        exact ⟨x, List.mem_cons_of_mem _ hx, hrest⟩

/-- Operations of other calls change nothing for a call. -/
theorem failureFacts_others (hq : q ≠ pid) (hexec : chronicle.exec pid op c h = some (r, h'))
    (hψ : FailureFacts q ψ h) : FailureFacts q ψ h' := by
  obtain ⟨-, hdeeds⟩ := chronicle_exec hexec
  cases ψ with
  | reading => exact trivial
  | timing raw =>
      show lastReading h'.deeds q = some raw
      rw [hdeeds, lastReading_cons_other (.inl hq.symm)]
      exact hψ
  | storing raw t =>
      show lastReading h'.deeds q = some raw
      rw [hdeeds, lastReading_cons_other (.inl hq.symm)]
      exact hψ
  | expiring | recorded =>
      obtain ⟨x, hx, hrest⟩ := hψ
      exact ⟨x, hdeeds ▸ List.mem_cons_of_mem _ hx, hrest⟩
  | failed => exact hψ

end

/-- **Calls that store what they read**: the circuit is what the failures so far make of it. -/
def failureContract (targetUrl : JsString) (config : CircuitConfig) (opening : Option ℚ) :
    Contract (failureCalls targetUrl config) (recording targetUrl config) where
  Inv := FailureInv targetUrl config opening
  first _ _ := .reading
  Facts pid _ φ h := FailureFacts pid φ h
  End _ := FailurePhase.Ends
  Apart _ _ := True
  -- what is stored now is what the call has read
  Ok pid _ op c h := FailureOk targetUrl pid op c h
  Fresh _ _ := True
  follows hb := by
    obtain rfl := Option.some.inj hb
    exact follows_recording targetUrl config
  begins _ _ _ := trivial
  surroundings hinv hs := by
    obtain rfl := History.passTime_eq_some hs
    refine ⟨⟨hinv.tally, hinv.since⟩, fun _ h => h, fun pid _ φ hφ => ?_⟩
    cases φ <;> exact hφ
  call hinv hφ hallow hok hexec := failure_step hinv hφ hallow hok hexec
  frame _ _ hq _ _ _ hexec hψ := failureFacts_others hq hexec hψ
  goes_on hend _ ha := by
    obtain ⟨rfl, rfl⟩ := Prod.mk.inj (Option.some.inj ha)
    exact hend
  after _ hφ _ := hφ
  apart_after _ h := h
  apart_symm h := h
  fresh_succ h := h
  fresh_call _ h _ := h

/-! ## Runs -/

section

variable {targetUrl : JsString} {config : CircuitConfig} {opening : Option ℚ}
  {s s' : Calls Unit CircuitSnapshot} {a : PoolAction Choice Unit ℚ}

/-- The condition on runs is the one of the contract. -/
theorem failures_permitted (hhealthy : Healthy targetUrl s a)
    (hok : StoresWhatItRead targetUrl s a) :
    (failureContract targetUrl config opening).Permits s a := by
  cases a with
  | spawn j => exact fun _ _ _ => trivial
  | step pid c =>
      intro j op k ht
      refine ⟨hhealthy.1, ?_⟩
      rintro key fields rfl
      exact hok j key fields k ht
  | _ => exact trivial

/-- In such a run every call stands where its facts hold. -/
theorem good_of_failures
    (h : Run (FailuresBegin targetUrl) (failureCalls targetUrl config).step
      (fun s a => Healthy targetUrl s a ∧ StoresWhatItRead targetUrl s a) s) :
    (failureContract targetUrl config none).Good s := by
  refine (failureContract targetUrl config none).invariant ?_ ?_ h
  · intro s hs
    refine .of_empty ⟨⟨?_, ?_, ?_⟩, ?_⟩ trivial hs.tasks
    · rw [hs.closed]
      intro hhalf
      cases hhalf
    · intro _
      rw [hs.count, hs.deeds]
      exact ⟨by simp [storeCount], fun hpos => absurd hpos (lt_irrefl 0)⟩
    · intro hopened
      cases hs.closed.symm.trans hopened
    · intro T hT
      cases hT
  · rintro s a _ ⟨hhealthy, hok⟩
    exact failures_permitted hhealthy hok

/-- A call that has returned has stored the circuit. -/
theorem stored_of_returned (hgood : (failureContract targetUrl config opening).Good s) {pid : ℕ}
    {j : Unit} {x : CircuitSnapshot} (ht : s.tasks pid = some ⟨j, .ret x⟩) :
    ∃ y ∈ s.world.deeds, y.pid = pid ∧ y.stores = true := by
  obtain ⟨φ, hend, hφ⟩ := hgood.stands pid _ ht
  have hrecorded : φ = .recorded := hend
  rw [hrecorded] at hφ
  exact hφ

/-- As many calls as have returned have stored the circuit. -/
theorem spawned_le_stores (hgood : (failureContract targetUrl config opening).Good s)
    (hquiet : s.Quiet) : s.spawned ≤ storeCount s.world.deeds := by
  have hsub : Finset.range s.spawned ⊆
      ((s.world.deeds.filter Deed.stores).map Deed.pid).toFinset := by
    intro pid hpid
    obtain ⟨j, x, ht⟩ := hquiet pid (Finset.mem_range.mp hpid)
    obtain ⟨y, hy, hpid, hstores⟩ := stored_of_returned hgood ht
    rw [List.mem_toFinset, List.mem_map]
    exact ⟨y, List.mem_filter.mpr ⟨hy, hstores⟩, hpid⟩
  calc s.spawned = (Finset.range s.spawned).card := (Finset.card_range _).symm
    _ ≤ ((s.world.deeds.filter Deed.stores).map Deed.pid).toFinset.card :=
        Finset.card_le_card hsub
    _ ≤ ((s.world.deeds.filter Deed.stores).map Deed.pid).length := List.toFinset_card_le _
    _ = storeCount s.world.deeds := by
        rw [List.length_map, storeCount, List.countP_eq_length_filter]

end

/-- **No failure is lost** if every call finds the circuit as it has read it when it stores it
again. -/
theorem no_failure_lost (targetUrl : JsString) (config : CircuitConfig) :
    NoLostFailures targetUrl config (StoresWhatItRead targetUrl) := by
  constructor
  -- every call has returned, so there are as many stores as calls
  · intro s h hquiet hpos hreached
    have hgood := good_of_failures h
    have hle := spawned_le_stores hgood hquiet
    have htally : Tally config (storeCount s.world.deeds) (storedCircuit targetUrl s.world.world) :=
      hgood.inv.tally
    cases hstate : (storedCircuit targetUrl s.world.world).state with
    | opened => rfl
    | halfOpen => exact absurd hstate htally.state
    | closed =>
        have hlt := (htally.closed hstate).2 (by omega)
        have hle' : (s.spawned : ℚ) ≤ storeCount s.world.deeds := by exact_mod_cast hle
        exact absurd (hreached.trans hle') (not_le.mpr hlt)
  · intro s s' T h hopened hsince hlater t ht
    have hgood := good_of_failures h
    -- the contract again, from the state in which the circuit was opened at `T`
    have hgood' : (failureContract targetUrl config (some T)).Good s' := by
      refine (failureContract targetUrl config (some T)).invariant ?_ ?_ hlater
      · rintro _ rfl
        refine ⟨⟨hgood.inv.tally, ?_⟩, hgood.fresh, hgood.numbered, hgood.stands, hgood.apart⟩
        rintro _ ⟨rfl⟩
        exact ⟨hopened, hsince⟩
      · rintro s a _ ⟨hhealthy, hok⟩
        exact failures_permitted hhealthy hok
    obtain ⟨hstate, htime⟩ := hgood'.inv.since T rfl
    exact denied_of_opened hstate htime ht

/-! ## Five failures at once -/

namespace Sample

/-- Five calls that read the circuit before any of them stores it. -/
def fiveAtOnce : List (PoolAction Choice Unit ℚ) :=
  List.replicate 5 (.spawn ()) ++ [0, 1, 2, 3, 4].flatMap (fun pid => steps pid 1) ++
    [0, 1, 2, 3, 4].flatMap (fun pid => steps pid 3)

/-- No operation of the played run fails, and the key it finds is alive. -/
def healthy (s : Calls Unit CircuitSnapshot) : PoolAction Choice Unit ℚ → Bool
  | .step _ c => decide (c.fault = .none) &&
      (s.world.world.redis (Circuit.circuitKeyForTarget (js "http://receiver/hook"))).all
        (fun e => e.live s.world.world.clock)
  | _ => true

theorem healthy_of_check {s : Calls Unit CircuitSnapshot} {a : PoolAction Choice Unit ℚ}
    (h : healthy s a = true) : Healthy (js "http://receiver/hook") s a := by
  cases a with
  | step pid c =>
      simp only [healthy, Bool.and_eq_true, decide_eq_true_eq, Option.all_eq_true] at h
      exact ⟨h.1, h.2⟩
  | _ => exact trivial

end Sample

/-- Five calls have returned, and one failure has been counted. -/
theorem failures_lost :
    ¬ NoLostFailures (js "http://receiver/hook") Circuit.defaultConfig (fun _ _ => True) := by
  intro hclaim
  have hplay : (Run.play (failureCalls (js "http://receiver/hook") Circuit.defaultConfig).step
      Sample.healthy Sample.fiveAtOnce Sample.idle).any (fun s : Calls Unit CircuitSnapshot =>
        decide (s.spawned = 5) && (List.range 5).all (Sample.hasReturned s) &&
          decide ((storedCircuit (js "http://receiver/hook") s.world.world).state = .closed)) =
      true := by decide +kernel
  have hbegin : FailuresBegin (js "http://receiver/hook") Sample.idle :=
    ⟨Sample.idle_start, by decide +kernel, by decide +kernel⟩
  have hcheck : ∀ s a, Sample.healthy s a = true → Healthy (js "http://receiver/hook") s a ∧ True :=
    fun _ _ h => ⟨Sample.healthy_of_check h, trivial⟩
  obtain ⟨s, hs, htest⟩ := Run.exists_of_play hcheck hbegin hplay
  simp only [Bool.and_eq_true, decide_eq_true_eq, List.all_eq_true] at htest
  obtain ⟨⟨hspawned, hreturned⟩, hclosed⟩ := htest
  have hopened := hclaim.opens s hs ?_ (by omega) ?_
  · cases hclosed.symm.trans hopened
  · intro pid hpid
    rw [hspawned] at hpid
    exact Sample.returned_of_check (hreturned pid (List.mem_range.mpr hpid))
  · rw [hspawned]
    norm_num [Circuit.defaultConfig]
