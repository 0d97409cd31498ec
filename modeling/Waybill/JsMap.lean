/-
# Maps in insertion order

A general library; nothing in it names this repository.

A `JsMap` is the `Map` of JavaScript: entries with distinct keys, in the order in which
the keys came.  `set` keeps the place of a key that is already there, `delete` gives it
up.  `modify` changes the value of one key in place, which is what an assignment to a
field of a stored object does.

The `get_…` theorems say what each operation does to every key.
-/
import Mathlib.Tactic

/-- Entries with distinct keys, in the order of insertion. -/
structure JsMap (K V : Type) where
  entries : List (K × V)
  nodup : (entries.map Prod.fst).Nodup

namespace JsMap

variable {K V : Type} [DecidableEq K]

/-- `new Map()`. -/
def empty : JsMap K V := ⟨[], List.nodup_nil⟩

/-- `map.get(key)`. -/
def get (m : JsMap K V) (key : K) : Option V :=
  (m.entries.find? (fun p => decide (p.1 = key))).map Prod.snd

/-- `map.size`. -/
def size (m : JsMap K V) : ℕ := m.entries.length

/-- The entries with the value of one key changed. -/
def modifyEntries (entries : List (K × V)) (key : K) (f : V → V) : List (K × V) :=
  entries.map (fun p => if p.1 = key then (p.1, f p.2) else p)

theorem map_fst_modifyEntries (entries : List (K × V)) (key : K) (f : V → V) :
    (modifyEntries entries key f).map Prod.fst = entries.map Prod.fst := by
  rw [modifyEntries, List.map_map]
  apply List.map_congr_left
  intro p _
  show (if p.1 = key then (p.1, f p.2) else p).1 = p.1
  split <;> rfl

/-- The value of one key changed, if the key is there. -/
def modify (m : JsMap K V) (key : K) (f : V → V) : JsMap K V :=
  ⟨modifyEntries m.entries key f, by rw [map_fst_modifyEntries]; exact m.nodup⟩

/-- `map.set(key, value)`: in place, or as the last entry. -/
def set (m : JsMap K V) (key : K) (value : V) : JsMap K V :=
  if h : key ∈ m.entries.map Prod.fst then m.modify key (fun _ => value)
  else
    ⟨m.entries ++ [(key, value)], by
      rw [List.map_append, List.nodup_append]
      refine ⟨m.nodup, List.nodup_singleton key, ?_⟩
      intro a ha b hb hab
      have hkey : a = key := hab.trans (List.mem_singleton.mp hb)
      exact h (hkey ▸ ha)⟩

/-- `map.delete(key)`. -/
def delete (m : JsMap K V) (key : K) : JsMap K V :=
  ⟨m.entries.filter (fun p => decide (p.1 ≠ key)),
    m.nodup.sublist (List.filter_sublist.map Prod.fst)⟩

/-! ## Reading -/

theorem get_empty (key : K) : (empty : JsMap K V).get key = none := rfl

/-- The key of an entry found is the one looked for. -/
theorem mem_of_get {m : JsMap K V} {key : K} {v : V} (h : m.get key = some v) :
    (key, v) ∈ m.entries := by
  obtain ⟨p, hp, hv⟩ := Option.map_eq_some_iff.mp h
  have hkey : p.1 = key := by simpa using List.find?_some hp
  have hmem := List.mem_of_find?_eq_some hp
  rw [← hkey, ← hv]
  exact hmem

/-- A key without a value has no entry. -/
theorem get_eq_none_iff {m : JsMap K V} {key : K} :
    m.get key = none ↔ key ∉ m.entries.map Prod.fst := by
  rw [get, Option.map_eq_none_iff, List.find?_eq_none]
  constructor
  · intro h hmem
    obtain ⟨p, hp, hkey⟩ := List.mem_map.mp hmem
    exact h p hp (decide_eq_true hkey)
  · intro h p hp hkey
    exact h (List.mem_map.mpr ⟨p, hp, of_decide_eq_true hkey⟩)

/-- **Entries and values agree**: keys are distinct, so an entry is what `get` finds. -/
theorem get_of_mem {m : JsMap K V} {key : K} {v : V} (h : (key, v) ∈ m.entries) :
    m.get key = some v := by
  cases hget : m.get key with
  | none =>
      exact absurd (List.mem_map.mpr ⟨_, h, rfl⟩) (get_eq_none_iff.mp hget)
  | some w =>
      have hpair : ((key, w) : K × V) = (key, v) :=
        List.inj_on_of_nodup_map m.nodup (mem_of_get hget) h rfl
      rw [(Prod.mk.inj hpair).2]

/-! ## Writing -/

/-- What `find?` sees in modified entries. -/
theorem find_modifyEntries (entries : List (K × V)) (key key' : K) (f : V → V) :
    (((modifyEntries entries key f).find? (fun p => decide (p.1 = key'))).map Prod.snd) =
      ((entries.find? (fun p => decide (p.1 = key'))).map Prod.snd).map
        (fun v => if key' = key then f v else v) := by
  induction entries with
  | nil => rfl
  | cons p rest ih =>
      rw [modifyEntries, List.map_cons, List.find?_cons, List.find?_cons]
      have hfst : (if p.1 = key then (p.1, f p.2) else p).1 = p.1 := by split <;> rfl
      rw [hfst]
      by_cases hp : p.1 = key'
      · rw [decide_eq_true hp]
        show some (if p.1 = key then (p.1, f p.2) else p).2 =
          some (if key' = key then f p.2 else p.2)
        rw [hp]
        split <;> rfl
      · rw [decide_eq_false hp]
        exact ih

theorem get_modify (m : JsMap K V) (key key' : K) (f : V → V) :
    (m.modify key f).get key' = (m.get key').map (fun v => if key' = key then f v else v) :=
  find_modifyEntries m.entries key key' f

@[simp] theorem get_set_self (m : JsMap K V) (key : K) (v : V) :
    (m.set key v).get key = some v := by
  unfold set
  split_ifs with h
  · rw [get_modify]
    cases hget : m.get key with
    | none => exact absurd h (get_eq_none_iff.mp hget)
    | some w => simp
  · exact get_of_mem (List.mem_append_right _ (List.mem_singleton.mpr rfl))

theorem get_set_ne (m : JsMap K V) {key key' : K} (h : key' ≠ key) (v : V) :
    (m.set key v).get key' = m.get key' := by
  unfold set
  split_ifs with hmem
  · rw [get_modify]
    simp [h]
  · show ((m.entries ++ [(key, v)]).find? _).map Prod.snd = m.get key'
    rw [List.find?_append, List.find?_cons, decide_eq_false (Ne.symm h)]
    simp [get]

@[simp] theorem get_delete_self (m : JsMap K V) (key : K) : (m.delete key).get key = none := by
  rw [get_eq_none_iff]
  intro hmem
  obtain ⟨p, hp, hkey⟩ := List.mem_map.mp hmem
  exact of_decide_eq_true (List.mem_filter.mp hp).2 hkey

theorem get_delete_ne (m : JsMap K V) {key key' : K} (h : key' ≠ key) :
    (m.delete key).get key' = m.get key' := by
  show ((m.entries.filter _).find? _).map Prod.snd = (m.entries.find? _).map Prod.snd
  rw [List.find?_filter]
  congr 2
  funext p
  by_cases hp : p.1 = key'
  · simp [hp, h]
  · simp [hp]

/-- Deleting can only lose a key. -/
theorem get_delete_of_none {m : JsMap K V} {key : K} (h : m.get key = none) (other : K) :
    (m.delete other).get key = none := by
  by_cases hkey : key = other
  · rw [hkey, get_delete_self]
  · rw [get_delete_ne m hkey, h]

/-- What is left after deleting was there before. -/
theorem get_of_get_delete {m : JsMap K V} {key other : K} {v : V}
    (h : (m.delete other).get key = some v) : m.get key = some v := by
  by_cases hkey : key = other
  · rw [hkey, get_delete_self] at h
    cases h
  · rwa [get_delete_ne m hkey] at h

/-! ## Sizes -/

theorem size_set_le (m : JsMap K V) (key : K) (v : V) : (m.set key v).size ≤ m.size + 1 := by
  unfold set
  split_ifs
  · have hsize : (m.modify key (fun _ => v)).size = m.size :=
      List.length_map (fun p : K × V => if p.1 = key then (p.1, v) else p)
    omega
  · exact List.length_append.le

theorem size_delete_le (m : JsMap K V) (key : K) : (m.delete key).size ≤ m.size :=
  List.length_filter_le _ _

/-- Deleting the first entry makes room. -/
theorem size_delete_head {m : JsMap K V} {p : K × V} {rest : List (K × V)}
    (h : m.entries = p :: rest) : (m.delete p.1).size + 1 ≤ m.size := by
  have hfilter : m.entries.filter (fun x => decide (x.1 ≠ p.1)) =
      rest.filter (fun x => decide (x.1 ≠ p.1)) := by
    rw [h, List.filter_cons_of_neg (by simp)]
  have hle := List.length_filter_le (fun x : K × V => decide (x.1 ≠ p.1)) rest
  have hlength : m.entries.length = rest.length + 1 := by rw [h, List.length_cons]
  change (m.entries.filter (fun x => decide (x.1 ≠ p.1))).length + 1 ≤ m.entries.length
  rw [hfilter]
  omega

end JsMap
