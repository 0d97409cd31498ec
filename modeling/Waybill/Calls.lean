/-
# Concurrent calls

Any number of calls of one function of the services, started at any time and performed one
operation at a time in any order.  A call that has returned keeps its result.

* `History` adds to the world the operations performed so far, each with the world and the
  choice it was performed with, so that what it did can be read off (`Deed.result`,
  `Deed.took`).
* `callsOf` is the machine of the calls.
-/
import Waybill.Effects
import Waybill.System

/-! ## History -/

/-- An operation, and what it was performed with. -/
structure Deed where
  pid : ℕ
  op : Op
  choice : Choice
  before : World

namespace Deed

/-- What the operation answered. -/
def result (x : Deed) : Except JsError x.op.Res := (x.before.outcome x.op x.choice).1

/-- The operation had its effect, whether or not the caller was told so. -/
def took (x : Deed) : Bool :=
  (x.op.isLocal || x.choice.fault != .before) && (x.before.apply x.op x.choice).1.isOk

end Deed

/-- The world, and the operations so far, the last one first. -/
structure History where
  world : World
  deeds : List Deed

/-- The operations on the world, remembered. -/
def chronicle : Device Services History Choice where
  exec pid op c h := (h.world.exec op c).map (fun rw =>
    (rw.1, { world := rw.2
             deeds := { pid := pid, op := op, choice := c, before := h.world } :: h.deeds }))

theorem chronicle_exec {pid : ℕ} {op : Op} {c : Choice} {h h' : History}
    {r : Except JsError op.Res} (hexec : chronicle.exec pid op c h = some (r, h')) :
    h.world.exec op c = some (r, h'.world) ∧
      h'.deeds = { pid := pid, op := op, choice := c, before := h.world } :: h.deeds := by
  obtain ⟨⟨r', w'⟩, hw, heq⟩ := Option.map_eq_some_iff.mp hexec
  obtain ⟨rfl, rfl⟩ := Prod.mk.inj heq
  exact ⟨hw, rfl⟩

/-- Time passes. -/
def History.passTime (dt : ℚ) (h : History) : Option History :=
  if 0 ≤ dt then some { h with world := { h.world with clock := h.world.clock + dt } } else none

theorem History.passTime_eq_some {dt : ℚ} {h h' : History} (hs : h.passTime dt = some h') :
    h' = { h with world := { h.world with clock := h.world.clock + dt } } := by
  unfold passTime at hs
  split_ifs at hs
  exact (Option.some.inj hs).symm

/-! ## Calls -/

section

variable {J R : Type}

/-- The calls in progress, and those that have returned. -/
abbrev Calls (J R : Type) := Pool Services History J R

/-- Calls of a function, each with arguments of its own. -/
def callsOf (program : J → Async R) : Machine Services History Choice J R ℚ where
  device := chronicle
  surroundings := History.passTime
  body j _ := some (program j)
  after j r := some (j, .ret r)

/-- A call has returned. -/
def Calls.Returned (s : Calls J R) (pid : ℕ) (j : J) (r : R) : Prop :=
  s.tasks pid = some ⟨j, .ret r⟩

/-- Every call has returned. -/
def Calls.Quiet (s : Calls J R) : Prop := ∀ pid < s.spawned, ∃ j r, s.Returned pid j r

/-- Before the first call. -/
structure Calls.Start (s : Calls J R) : Prop where
  deeds : s.world.deeds = []
  tasks : ∀ pid, s.tasks pid = none
  spawned : s.spawned = 0

end

/-! ## A small world -/

namespace Sample

/-- No calls yet, in a world with one tenant and nothing else. -/
def idle {J R : Type} : Calls J R :=
  { world := { world := start.world.world, deeds := [] }, tasks := fun _ => none, spawned := 0 }

theorem idle_start {J R : Type} : Calls.Start (idle : Calls J R) where
  deeds := rfl
  tasks _ := rfl
  spawned := rfl

/-- Some operations of a call, in a row. -/
def steps {J : Type} (pid n : ℕ) : List (PoolAction Choice J ℚ) := List.replicate n (.step pid {})

/-- A call has returned. -/
def hasReturned {J R : Type} (s : Calls J R) (pid : ℕ) : Bool :=
  match s.tasks pid with
  | some ⟨_, .ret _⟩ => true
  | _ => false

theorem returned_of_check {J R : Type} {s : Calls J R} {pid : ℕ}
    (h : hasReturned s pid = true) : ∃ j r, s.Returned pid j r := by
  unfold hasReturned at h
  split at h
  · rename_i j r ht
    exact ⟨j, r, ht⟩
  · cases h

end Sample
