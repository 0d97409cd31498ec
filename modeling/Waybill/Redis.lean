/-
# Redis hashes with expiry

The two pieces of shared state of the workers, the circuit of a destination and the
token bucket of a tenant, are Redis hashes whose key is deleted when its time to live
has elapsed.

* A stored field is a text, or the text of a number; `String` followed by `Number` is
  the identity on finite numbers, so the number is kept as such (`RedisText`).
* `get`, `hset` and `expire` are `HGETALL`, `HSET` and `EXPIRE`/`PEXPIRE` at a time.

Times are milliseconds, as rationals: nothing below depends on the clock's resolution.
-/
import Waybill.CodeUnits
import Mathlib.Data.Rat.Floor

/-- A field of a Redis hash: a text, or the text of a finite number. -/
inductive RedisText where
  | text (s : JsString)
  | number (q : ℚ)
  deriving DecidableEq

namespace RedisText

/-- JavaScript truthiness: only the empty text is falsy (`"0"` is truthy). -/
def truthy : RedisText → Bool
  | text s => !s.isEmpty
  | number _ => true

/-- `Number(…)`; `Number("")` is `0`, and no other text is ever read as a number. -/
def toNumber : RedisText → ℚ
  | text _ => 0
  | number q => q

end RedisText

/-- The fields of a hash; a later write of a field replaces it. -/
abbrev RedisHash := List (JsString × RedisText)

/-- A field of a hash, `none` when it is missing. -/
def RedisHash.field (h : RedisHash) (name : JsString) : Option RedisText :=
  (h.find? (fun f => f.1 == name)).map Prod.snd

/-- Writing fields over a hash. -/
def RedisHash.write (h fields : RedisHash) : RedisHash :=
  fields ++ h.filter (fun f => !fields.any (fun g => g.1 == f.1))

/-- A hash with the time at which its key is deleted, if it has one. -/
structure RedisEntry where
  hash : RedisHash
  expiresAt : Option ℚ

/-- The keys of the store. -/
abbrev RedisStore := JsString → Option RedisEntry

namespace RedisEntry

/-- The key has not been deleted at time `t`. -/
def live (e : RedisEntry) (t : ℚ) : Bool :=
  match e.expiresAt with
  | none => true
  | some x => t < x

end RedisEntry

namespace RedisStore

/-- The entry of a key that is still there at time `t`. -/
def entryAt (s : RedisStore) (key : JsString) (t : ℚ) : Option RedisEntry :=
  (s key).filter (fun e => e.live t)

/-- `HGETALL`: the empty hash when the key does not exist. -/
def get (s : RedisStore) (key : JsString) (t : ℚ) : RedisHash :=
  match s.entryAt key t with
  | some e => e.hash
  | none => []

/-- `HSET`: keeps the time to live of an existing key; a new key has none. -/
def hset (s : RedisStore) (key : JsString) (fields : RedisHash) (t : ℚ) : RedisStore :=
  Function.update s key (some
    { hash := (s.get key t).write fields
      expiresAt := (s.entryAt key t).bind RedisEntry.expiresAt })

/-- `PEXPIRE`: restarts the time to live of an existing key. -/
def pexpire (s : RedisStore) (key : JsString) (ms t : ℚ) : RedisStore :=
  match s.entryAt key t with
  | some e => Function.update s key (some { e with expiresAt := some (t + ms) })
  | none => s

/-- `EXPIRE`, in seconds. -/
def expire (s : RedisStore) (key : JsString) (seconds t : ℚ) : RedisStore :=
  s.pexpire key (1000 * seconds) t

/-! ## Reading back what was written -/

theorem hset_ne (s : RedisStore) {key key' : JsString} (h : key' ≠ key) (fields : RedisHash)
    (t : ℚ) : s.hset key fields t key' = s key' := by
  rw [hset, Function.update_of_ne h]

theorem pexpire_ne (s : RedisStore) {key key' : JsString} (h : key' ≠ key) (ms t : ℚ) :
    s.pexpire key ms t key' = s key' := by
  unfold pexpire
  cases s.entryAt key t with
  | none => rfl
  | some e => simp only [Function.update_of_ne h]

/-- Only live entries are found. -/
theorem live_of_entryAt {s : RedisStore} {key : JsString} {t : ℚ} {e : RedisEntry}
    (h : s.entryAt key t = some e) : e.live t = true := by
  rw [entryAt, Option.filter_eq_some_iff] at h
  exact h.2

/-- A written key inherits a time to live that has not elapsed. -/
theorem live_inherited (s : RedisStore) (key : JsString) (hash : RedisHash) (t : ℚ) :
    RedisEntry.live ⟨hash, (s.entryAt key t).bind RedisEntry.expiresAt⟩ t = true := by
  cases h : s.entryAt key t with
  | none => rfl
  | some e =>
      have he : e.live t = true := live_of_entryAt h
      exact he

/-- A key that was just written exists. -/
theorem entryAt_hset (s : RedisStore) (key : JsString) (fields : RedisHash) (t : ℚ) :
    (s.hset key fields t).entryAt key t = some
      { hash := (s.get key t).write fields
        expiresAt := (s.entryAt key t).bind RedisEntry.expiresAt } := by
  rw [entryAt, hset, Function.update_self, Option.filter_some, if_pos (live_inherited s key _ t)]

/-- After a write and a new time to live, the key holds the written hash until then. -/
theorem pexpire_hset_self (s : RedisStore) (key : JsString) (fields : RedisHash) (ms t : ℚ) :
    (s.hset key fields t).pexpire key ms t key =
      some { hash := (s.get key t).write fields, expiresAt := some (t + ms) } := by
  rw [pexpire, entryAt_hset]
  simp only [Function.update_self]

theorem get_expire_hset (s : RedisStore) (key : JsString) (fields : RedisHash)
    (seconds t t' : ℚ) :
    ((s.hset key fields t).expire key seconds t).get key t' =
      if t' < t + 1000 * seconds then (s.get key t).write fields else [] := by
  rw [get, entryAt, expire, pexpire_hset_self, Option.filter_some]
  simp only [RedisEntry.live, decide_eq_true_eq]
  by_cases h : t' < t + 1000 * seconds
  · rw [if_pos h, if_pos h]
  · rw [if_neg h, if_neg h]

/-- A written key holds the written hash, or has expired with the old one. -/
theorem get_hset (s : RedisStore) (key : JsString) (fields : RedisHash) (t t' : ℚ) :
    (s.hset key fields t).get key t' = (s.get key t).write fields ∨
      (s.hset key fields t).get key t' = [] := by
  rw [get, entryAt, hset, Function.update_self, Option.filter_some]
  split_ifs
  · exact .inl rfl
  · exact .inr rfl

/-! ## What a key holds, expired or not -/

/-- The hash of a key, whether or not it has expired. -/
def held (s : RedisStore) (key : JsString) : RedisHash := ((s key).map RedisEntry.hash).getD []

/-- A key that has not expired is found as it is. -/
theorem get_eq_held {s : RedisStore} {key : JsString} {t : ℚ}
    (h : ∀ e, s key = some e → e.live t = true) : s.get key t = s.held key := by
  unfold get held entryAt
  cases hs : s key with
  | none => rfl
  | some e =>
      rw [Option.filter_some, if_pos (h e hs)]
      rfl

theorem held_hset (s : RedisStore) (key : JsString) (fields : RedisHash) (t : ℚ) :
    (s.hset key fields t).held key = (s.get key t).write fields := by
  unfold held hset
  rw [Function.update_self]
  rfl

theorem held_expire (s : RedisStore) (key : JsString) (seconds t : ℚ) :
    (s.expire key seconds t).held key = s.held key := by
  unfold expire pexpire
  cases he : s.entryAt key t with
  | none => rfl
  | some e =>
      have hs : s key = some e := (Option.filter_eq_some_iff.mp he).1
      unfold held
      simp only [hs, Function.update_self, Option.map_some]

/-- A time to live changes nothing else of an entry. -/
theorem expire_self {s : RedisStore} {key : JsString} {e : RedisEntry} (h : s key = some e)
    (seconds t : ℚ) :
    ∃ expiresAt, s.expire key seconds t key = some { e with expiresAt := expiresAt } := by
  unfold expire pexpire
  cases he : s.entryAt key t with
  | none => exact ⟨e.expiresAt, h⟩
  | some e' =>
      have hs : s key = some e' := (Option.filter_eq_some_iff.mp he).1
      obtain rfl : e = e' := Option.some.inj (h.symm.trans hs)
      exact ⟨some (t + 1000 * seconds), Function.update_self ..⟩

end RedisStore

/-- Fields that are not written keep their value. -/
theorem RedisHash.field_write_of_not {h fields : RedisHash} {name : JsString}
    (hname : ∀ f ∈ fields, (f.1 == name) = false) :
    (h.write fields).field name = h.field name := by
  have hnone : fields.find? (fun f => f.1 == name) = none := by
    rw [List.find?_eq_none]
    intro f hf
    rw [hname f hf]
    exact Bool.false_ne_true
  unfold RedisHash.field RedisHash.write
  rw [List.find?_append, hnone, Option.none_or, List.find?_filter]
  congr 2
  funext f
  by_cases hf : f.1 = name
  · have hany : fields.any (fun g => g.1 == f.1) = false := by
      rw [List.any_eq_false]
      intro g hg
      rw [hf, hname g hg]
      exact Bool.false_ne_true
    rw [hany]
    simp [hf]
  · simp [hf]

/-- Fields that are written have their new value. -/
theorem RedisHash.field_write_of_some {h fields : RedisHash} {name : JsString} {x : RedisText}
    (hx : fields.field name = some x) : (h.write fields).field name = some x := by
  obtain ⟨f, hf, rfl⟩ := Option.map_eq_some_iff.mp hx
  unfold RedisHash.field RedisHash.write
  rw [List.find?_append, hf]
  rfl
