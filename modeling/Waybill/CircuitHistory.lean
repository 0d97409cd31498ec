/-
# What the store holds of a circuit

The operations performed so far tell what Redis holds under the circuit's key, as far as the
expiry of the key allows it.

* `written`: the last write to the key stored the circuit as opened at a time `t`.
* `reopened`: after such a write the key was given its time to live, and neither the state nor
  the time of opening has been written since.
* `Reflects`: the store agrees with that, whoever reads and writes in between, and whatever
  fails or expires (`reflects_step`).
* `storedOpen_of_reopened`: who reads the key before the cooldown is over finds that circuit.
-/
import Waybill.Effects
import Waybill.System

open Worker Publisher Api

/-! ## The operations on the key -/

/-- The circuit's key. -/
def circuitKey (env : Env) : JsString := Circuit.circuitKeyForTarget env.receiverUrl

/-- The operation writes fields of the circuit. -/
def Op.writesCircuit (env : Env) : Op → Bool
  | .hset key _ => key == circuitKey env
  | _ => false

/-- The operation writes the state or the time of opening. -/
def Op.rewritesCircuit (env : Env) : Op → Bool
  | .hset key fields =>
      key == circuitKey env &&
        ((fields.field (js "state")).isSome || (fields.field (js "openedAt")).isSome)
  | _ => false

/-- The snapshot that `writeCircuitState` stores. -/
def Op.storedCircuit (env : Env) : Op → Option CircuitSnapshot
  | .hset key fields =>
      if key == circuitKey env && (fields.field (js "state")).isSome then
        some (Circuit.decode fields)
      else none
  | _ => none

/-- The circuit is written as opened at time `t`. -/
def TraceEntry.opens (env : Env) (t : ℚ) (x : TraceEntry) : Bool :=
  (x.op.storedCircuit env).any (fun s => s.state == .opened && s.openedAt == some t)

/-- The key was found, and given its time to live. -/
def TraceEntry.prolongs (env : Env) : TraceEntry → Bool
  | ⟨_, _, .expire key _, .ok found⟩ => key == circuitKey env && found
  | _ => false

/-- The last write to the key has stored the circuit as opened at time `t`. -/
def written (env : Env) (t : ℚ) : List TraceEntry → Bool
  | [] => false
  | x :: earlier =>
      (x.opens env t && x.result.isOk && decide (t ≤ x.time)) ||
        (!x.op.writesCircuit env && written env t earlier)

/-- The circuit was opened at time `t`, with a time to live of its own, and it has not been
opened or closed since. -/
def reopened (env : Env) (t : ℚ) : List TraceEntry → Bool
  | [] => false
  | x :: earlier =>
      (x.prolongs env && written env t earlier) ||
        (!x.op.rewritesCircuit env && reopened env t earlier)

/-! ## The keys of the limits -/

/-- A limit's key is not the circuit's. -/
theorem circuitKey_ne_rateLimit (env : Env) (tenantId : JsString) (scope : TokenBucket.Scope) :
    circuitKey env ≠ TokenBucket.tenantRateLimitKey tenantId scope := by
  intro h
  have hhead : (js "waybill:circuit:").take 9 ≠ (js "waybill:rate-limit:").take 9 := by
    decide +kernel
  have hcircuit : (circuitKey env).take 9 = (js "waybill:circuit:").take 9 :=
    List.take_append_of_le_length (by decide +kernel)
  have hlimit : (TokenBucket.tenantRateLimitKey tenantId scope).take 9 =
      (js "waybill:rate-limit:").take 9 := by
    unfold TokenBucket.tenantRateLimitKey
    rw [List.append_assoc, List.append_assoc]
    exact List.take_append_of_le_length (by decide +kernel)
  exact hhead (hcircuit.symm.trans (h ▸ hlimit))

/-! ## What an operation does to the key -/

/-- What an operation that was answered `r` has done to the circuit's key. -/
inductive CircuitEffect (env : Env) (w w' : World) : (op : Op) → Except JsError op.Res → Prop
  /-- fields were written -/
  | write {fields r} : w'.redis = w.redis.hset (circuitKey env) fields w.clock →
      CircuitEffect env w w' (.hset (circuitKey env) fields) r
  /-- the time to live was set, of a key that was found or was not -/
  | prolong {r : Except JsError Bool} :
      w'.redis = w.redis.expire (circuitKey env) (Circuit.ttlSeconds Circuit.defaultConfig)
        w.clock →
      (∀ found, r = .ok found → found = (w.redis.entryAt (circuitKey env) w.clock).isSome) →
      CircuitEffect env w w' (.expire (circuitKey env) (Circuit.ttlSeconds Circuit.defaultConfig)) r
  /-- nothing: the operation failed -/
  | fail {op e} : w'.redis (circuitKey env) = w.redis (circuitKey env) →
      CircuitEffect env w w' op (.error e)
  /-- nothing: it is about something else -/
  | aside {op r} : w'.redis (circuitKey env) = w.redis (circuitKey env) →
      op.writesCircuit env = false →
      (∀ pid t, TraceEntry.prolongs env ⟨pid, t, op, r⟩ = false) → CircuitEffect env w w' op r

section

variable {env : Env} {φ : Phase} {op : Op} {c : Choice} {w w' : World}
  {r : Except JsError op.Res}

/-- **The circuit's key** is written by `hset` and given the circuit's time to live by `expire`;
nothing else touches it. -/
theorem circuit_of_exec (hallow : Allows env φ op) (h : w.exec op c = some (r, w')) :
    CircuitEffect env w w' op r := by
  have hlimit : ∀ store tenantId scope n k t t', (TokenBucket.consumeTokenScript store
      (TokenBucket.tenantRateLimitKey tenantId scope) n k t t').2 (circuitKey env) =
        store (circuitKey env) := by
    intro store tenantId scope n k t t'
    have hne := circuitKey_ne_rateLimit env tenantId scope
    exact (RedisStore.pexpire_ne _ hne _ _).trans (RedisStore.hset_ne _ hne _ _)
  cases hallow with
  | probe | failureWrite | successWrite =>
      rcases World.exec_world h with rfl | ⟨rfl, e, rfl⟩
      · exact .write rfl
      · exact .fail rfl
  | failureExpire | successExpire =>
      rcases World.exec_world h with rfl | ⟨rfl, e, rfl⟩
      · refine .prolong rfl ?_
        rintro found rfl
        have happly := World.exec_ok h
        exact (Except.ok.inj (congrArg Prod.fst happly)).symm
      · exact .fail rfl
  | limit | ingestLimit =>
      rcases World.exec_world h with rfl | ⟨rfl, e, rfl⟩
      · exact .aside (hlimit w.redis _ _ _ _ _ _) rfl fun _ _ => rfl
      · exact .fail rfl
  | _ =>
      exact .aside (congrFun (World.redis_of_exec h nofun nofun nofun) _) rfl fun _ _ => rfl

end

/-! ## The store agrees -/

/-- The entry of a key is a circuit opened at time `t` that outlives its cooldown. -/
def Cooling (t : ℚ) (entry : Option RedisEntry) : Prop :=
  ∃ e u, entry = some e ∧ e.expiresAt = some u ∧ t + Circuit.defaultConfig.cooldownMs ≤ u ∧
    Circuit.StoredOpen t e.hash

/-- The store and the operations performed so far agree on the circuit. -/
structure Reflects (env : Env) (s : State) : Prop where
  written : ∀ t, written env t s.trace = true → t ≤ s.world.clock ∧
    ∃ e, s.world.redis (circuitKey env) = some e ∧ Circuit.StoredOpen t e.hash
  reopened : ∀ t, reopened env t s.trace = true → t ≤ s.world.clock ∧
    (s.world.clock < t + Circuit.defaultConfig.cooldownMs →
      Cooling t (s.world.redis (circuitKey env)))

section

variable {env : Env} {t clock : ℚ} {x : TraceEntry} {trace : List TraceEntry} {s s' : State}
  {redis : RedisStore} {fields : RedisHash}

/-- Who opens the circuit writes it. -/
theorem writes_of_opens (h : x.opens env t = true) :
    ∃ fields, x.op = .hset (circuitKey env) fields ∧ Circuit.StoredOpen t fields := by
  unfold TraceEntry.opens at h
  cases hop : x.op with
  | hset key fields =>
      rw [hop] at h
      unfold Op.storedCircuit at h
      simp only at h
      split_ifs at h with hcond
      · rw [Bool.and_eq_true, beq_iff_eq] at hcond
        rw [Option.any_some, Bool.and_eq_true, beq_iff_eq, beq_iff_eq] at h
        exact ⟨fields, by rw [hcond.1], h⟩
      · cases h
  | _ =>
      rw [hop] at h
      cases h

theorem not_opens (h : x.op.writesCircuit env = false) : x.opens env t = false := by
  rw [← Bool.not_eq_true]
  intro hopens
  obtain ⟨fields, hop, -⟩ := writes_of_opens hopens
  rw [hop, Op.writesCircuit, beq_self_eq_true] at h
  cases h

/-- An entry that opens nothing leaves the last write as it was. -/
theorem written_cons_of_not (hnot : (x.opens env t && x.result.isOk) = false)
    (h : written env t (x :: trace) = true) :
    x.op.writesCircuit env = false ∧ written env t trace = true := by
  rw [written, hnot, Bool.false_and, Bool.false_or, Bool.and_eq_true, Bool.not_eq_true'] at h
  exact h

/-- So does an entry that sets no time to live. -/
theorem reopened_cons_of_not (hnot : x.prolongs env = false)
    (h : reopened env t (x :: trace) = true) :
    x.op.rewritesCircuit env = false ∧ reopened env t trace = true := by
  rw [reopened, hnot, Bool.false_and, Bool.false_or, Bool.and_eq_true, Bool.not_eq_true'] at h
  exact h

/-- A cooling circuit is found. -/
theorem Cooling.entryAt {key : JsString} (h : Cooling t (redis key))
    (hclock : clock < t + Circuit.defaultConfig.cooldownMs) :
    ∃ e u, redis.entryAt key clock = some e ∧ e.expiresAt = some u ∧
      t + Circuit.defaultConfig.cooldownMs ≤ u ∧ Circuit.StoredOpen t e.hash := by
  obtain ⟨e, u, he, hu, hle, hopen⟩ := h
  refine ⟨e, u, ?_, hu, hle, hopen⟩
  have hlive : e.live clock = true := by
    unfold RedisEntry.live
    rw [hu]
    exact decide_eq_true (lt_of_lt_of_le hclock hle)
  rw [RedisStore.entryAt, he, Option.filter_some, if_pos hlive]

/-- Writing other fields keeps it. -/
theorem Cooling.hset {key : JsString} (h : Cooling t (redis key))
    (hclock : clock < t + Circuit.defaultConfig.cooldownMs)
    (hstate : (fields.field (js "state")).isSome = false)
    (hopened : (fields.field (js "openedAt")).isSome = false) :
    Cooling t (redis.hset key fields clock key) := by
  obtain ⟨e, u, he, hu, hle, hopen⟩ := h.entryAt hclock
  rw [RedisStore.hset, Function.update_self, RedisStore.get, he]
  exact ⟨_, u, rfl, hu, hle, Circuit.storedOpen_write_other hstate hopened hopen⟩

/-- Setting the time to live of an opened circuit makes it outlive its cooldown. -/
theorem cooling_expire {key : JsString} {e : RedisEntry} (he : redis.entryAt key clock = some e)
    (hopen : Circuit.StoredOpen t e.hash) (ht : t ≤ clock) :
    Cooling t (redis.expire key (Circuit.ttlSeconds Circuit.defaultConfig) clock key) := by
  have httl := Circuit.cooldown_le_ttl Circuit.defaultConfig
  unfold RedisStore.expire RedisStore.pexpire
  rw [he]
  simp only [Function.update_self]
  exact ⟨_, _, rfl, rfl, by linarith, hopen⟩

/-- **One operation**: the store goes on agreeing with the operations performed. -/
theorem reflects_step {φ : Phase} {op : Op} {c : Choice} {r : Except JsError op.Res} {pid : ℕ}
    (h : Reflects env s) (hallow : Allows env φ op)
    (hexec : device.exec pid op c s = some (r, s')) : Reflects env s' := by
  obtain ⟨hexec, -, htrace⟩ := device_exec hexec
  have hclock := World.clock_of_exec hexec
  cases circuit_of_exec hallow hexec with
  | @write fields r hredis =>
      constructor
      -- what was written last is an opening, or something else
      · intro t ht
        rw [htrace, written, Bool.or_eq_true] at ht
        rw [hclock, hredis, RedisStore.hset, Function.update_self]
        rcases ht with ht | ht
        · rw [Bool.and_eq_true, Bool.and_eq_true, decide_eq_true_eq] at ht
          obtain ⟨fields', hop, hopen⟩ := writes_of_opens ht.1.1
          obtain rfl := (Op.hset.inj hop).2
          exact ⟨ht.2, _, rfl, Circuit.storedOpen_write _ hopen⟩
        · rw [Op.writesCircuit, beq_self_eq_true] at ht
          cases ht
      -- an opening that was not rewritten is still there
      · intro t ht
        rw [htrace] at ht
        obtain ⟨hrewrites, ht⟩ := reopened_cons_of_not rfl ht
        rw [Op.rewritesCircuit, beq_self_eq_true, Bool.true_and, Bool.or_eq_false_iff] at hrewrites
        obtain ⟨hle, hcooling⟩ := h.reopened t ht
        rw [hclock, hredis]
        exact ⟨hle, fun hlt => (hcooling hlt).hset hlt hrewrites.1 hrewrites.2⟩
  -- with the `expire` after it, an opening lasts for the whole cooldown
  | @prolong r hredis hfound =>
      constructor
      · intro t ht
        rw [htrace] at ht
        obtain ⟨-, ht⟩ := written_cons_of_not rfl ht
        obtain ⟨hle, e, he, hopen⟩ := h.written t ht
        obtain ⟨expiresAt, he'⟩ := RedisStore.expire_self he
          (Circuit.ttlSeconds Circuit.defaultConfig) s.world.clock
        rw [hclock, hredis]
        exact ⟨hle, _, he', hopen⟩
      · intro t ht
        rw [htrace, reopened, Bool.or_eq_true, Bool.and_eq_true] at ht
        rw [hclock, hredis]
        rcases ht with ⟨hprolongs, ht⟩ | ht
        · -- the key was found, so it still is the one that was written
          obtain ⟨hle, e, he, hopen⟩ := h.written t ht
          refine ⟨hle, fun _ => ?_⟩
          cases r with
          | error e => cases hprolongs
          | ok found =>
              have hsome := hfound found rfl
              have hboth : (circuitKey env == circuitKey env && found) = true := hprolongs
              rw [Bool.and_eq_true] at hboth
              rw [hboth.2] at hsome
              obtain ⟨e', he'⟩ := Option.isSome_iff_exists.mp hsome.symm
              have hs := (Option.filter_eq_some_iff.mp he').1
              obtain rfl : e = e' := Option.some.inj (he.symm.trans hs)
              exact cooling_expire he' hopen hle
        · rw [Bool.and_eq_true] at ht
          obtain ⟨hle, hcooling⟩ := h.reopened t ht.2
          refine ⟨hle, fun hlt => ?_⟩
          obtain ⟨e, u, he, -, -, hopen⟩ := (hcooling hlt).entryAt hlt
          exact cooling_expire he hopen hle
  | @fail op e hredis =>
      have hprolongs : TraceEntry.prolongs env ⟨pid, s.world.clock, op, .error e⟩ = false := by
        cases op <;> rfl
      constructor
      · intro t ht
        rw [htrace] at ht
        rw [hclock, hredis]
        exact h.written t (written_cons_of_not (Bool.and_false _) ht).2
      · intro t ht
        rw [htrace] at ht
        rw [hclock, hredis]
        exact h.reopened t (reopened_cons_of_not hprolongs ht).2
  | @aside op r hredis hwrites hprolongs =>
      constructor
      · intro t ht
        rw [htrace] at ht
        rw [hclock, hredis]
        refine h.written t (written_cons_of_not ?_ ht).2
        rw [not_opens hwrites, Bool.false_and]
      · intro t ht
        rw [htrace] at ht
        rw [hclock, hredis]
        exact h.reopened t (reopened_cons_of_not (hprolongs pid s.world.clock) ht).2

/-- Time alone changes nothing of it. -/
theorem reflects_later {dt : ℚ} (h : Reflects env s) (hdt : passTime dt s = some s') :
    Reflects env s' := by
  have hle := clock_le_of_passTime hdt
  obtain rfl := passTime_eq_some hdt
  constructor
  · intro t ht
    obtain ⟨ht, hopen⟩ := h.written t ht
    exact ⟨ht.trans hle, hopen⟩
  · intro t ht
    obtain ⟨ht, hcooling⟩ := h.reopened t ht
    exact ⟨ht.trans hle, fun hlt => hcooling (lt_of_le_of_lt hle hlt)⟩

/-- **What is read** before the cooldown is over is the circuit that was opened again. -/
theorem storedOpen_of_reopened (h : Reflects env s) (ht : reopened env t s.trace = true)
    (hlt : s.world.clock < t + Circuit.defaultConfig.cooldownMs) :
    Circuit.StoredOpen t (s.world.redis.get (circuitKey env) s.world.clock) := by
  obtain ⟨e, u, he, -, -, hopen⟩ := ((h.reopened t ht).2 hlt).entryAt hlt
  rw [RedisStore.get, he]
  exact hopen

end
