/-
# Programs over I/O operations, and the protocols they follow

A general library; nothing in it names this repository.

* `Prog S α` is a program over an interface `S` of I/O operations.  It returns, throws,
  or performs one operation and goes on with the answer.  An answer may be an error, so
  every operation may fail, and a scheduler may stop between any two operations.
* `Protocol S` is a typestate for such programs: in a phase some operations are allowed,
  and an operation with its answer leads to the next phase.  `Follows p φ Q` says that
  `p`, started in phase `φ`, only performs allowed operations, whatever the answers are,
  and ends as `Q` says.
* `Device` gives the operations their meaning on a shared world, one choice of the
  environment per operation.
* `Run` is reachability under a condition on the steps, with its induction rule.
* `Machine` runs any number of programs on one device, in any order, and may drop any of
  them at any time.
* `Contract` ties the phases of a protocol to facts about the world: `Contract.call` is
  the rule for a process's own step, `Contract.frame` the one for the steps of the others,
  and `Contract.invariant` says that the rules are enough.
-/
import Mathlib.Tactic

/-- A family of I/O operations with their answers and their errors. -/
structure Interface where
  Op : Type
  Res : Op → Type
  Err : Type

/-- A program over the operations of `S`. -/
inductive Prog (S : Interface) (α : Type) : Type where
  | ret (a : α)
  | throw (e : S.Err)
  | call (op : S.Op) (k : Except S.Err (S.Res op) → Prog S α)

namespace Prog

variable {S : Interface} {α β : Type}

/-- Sequencing: an error skips the rest. -/
def bind : Prog S α → (α → Prog S β) → Prog S β
  | ret a, f => f a
  | throw e, _ => throw e
  | call op k, f => call op (fun r => (k r).bind f)

instance : Monad (Prog S) where
  pure := ret
  bind := bind

/-- Perform one operation; its error is thrown. -/
def perform (op : S.Op) : Prog S (S.Res op) :=
  call op (fun r => match r with
    | .ok a => ret a
    | .error e => throw e)

/-- `try`: the outcome of a program as a value. -/
def attempt : Prog S α → Prog S (Except S.Err α)
  | ret a => ret (.ok a)
  | throw e => ret (.error e)
  | call op k => call op (fun r => (k r).attempt)

/-- `try … finally`: an error of the second program takes the place of the first one's. -/
def ensure (p : Prog S α) (cleanup : Prog S Unit) : Prog S α :=
  p.attempt.bind (fun r => cleanup.bind (fun _ => match r with
    | .ok a => ret a
    | .error e => throw e))

/-- An optional value, or an error. -/
def getOrThrow (x : Option α) (e : S.Err) : Prog S α :=
  match x with
  | some a => ret a
  | none => throw e

theorem bind_eq (p : Prog S α) (f : α → Prog S β) : (p >>= f) = p.bind f := rfl

/-- Programs are a monad: sequencing can be read from left to right. -/
instance : LawfulMonad (Prog S) := LawfulMonad.mk' (Prog S)
  (fun p => by
    change p.bind ret = p
    induction p with
    | ret a => rfl
    | throw e => rfl
    | call op k ih => exact congrArg (call op) (funext ih))
  (fun _ _ => rfl)
  (fun p f g => by
    change (p.bind f).bind g = p.bind (fun a => (f a).bind g)
    induction p with
    | ret a => rfl
    | throw e => rfl
    | call op k ih => exact congrArg (call op) (funext ih))

end Prog

/-! ## Protocols -/

/-- Which operations a phase allows, and where an answered operation leads. -/
structure Protocol (S : Interface) where
  Phase : Type
  Allows : Phase → S.Op → Prop
  next : Phase → (op : S.Op) → Except S.Err (S.Res op) → Phase

namespace Protocol

variable {S : Interface} {P : Protocol S} {α β : Type}

/-- Started in phase `φ`, the program performs allowed operations only, and ends as `Q`
says of its outcome and the phase then reached. -/
def Follows (P : Protocol S) : Prog S α → P.Phase → (Except S.Err α → P.Phase → Prop) → Prop
  | .ret a, φ, Q => Q (.ok a) φ
  | .throw e, φ, Q => Q (.error e) φ
  | .call op k, φ, Q => P.Allows φ op ∧ ∀ r, P.Follows (k r) (P.next φ op r) Q

@[simp] theorem follows_ret (a : α) (φ : P.Phase) (Q : Except S.Err α → P.Phase → Prop) :
    P.Follows (.ret a) φ Q ↔ Q (.ok a) φ := Iff.rfl

@[simp] theorem follows_pure (a : α) (φ : P.Phase) (Q : Except S.Err α → P.Phase → Prop) :
    P.Follows (pure a) φ Q ↔ Q (.ok a) φ := Iff.rfl

@[simp] theorem follows_throw (e : S.Err) (φ : P.Phase)
    (Q : Except S.Err α → P.Phase → Prop) :
    P.Follows (.throw e) φ Q ↔ Q (.error e) φ := Iff.rfl

/-- A weaker postcondition. -/
theorem Follows.imp {p : Prog S α} {φ : P.Phase} {Q Q' : Except S.Err α → P.Phase → Prop}
    (h : P.Follows p φ Q) (hQ : ∀ r ψ, Q r ψ → Q' r ψ) : P.Follows p φ Q' := by
  induction p generalizing φ with
  | ret a => exact hQ _ _ h
  | throw e => exact hQ _ _ h
  | call op k ih => exact ⟨h.1, fun r => ih r (h.2 r)⟩

/-- **Sequencing**: the second program starts in the phase the first one ends in. -/
theorem Follows.bind {p : Prog S α} {f : α → Prog S β} {φ : P.Phase}
    {Q : Except S.Err β → P.Phase → Prop} {M : Except S.Err α → P.Phase → Prop}
    (hp : P.Follows p φ M) (hok : ∀ a ψ, M (.ok a) ψ → P.Follows (f a) ψ Q)
    (herr : ∀ e ψ, M (.error e) ψ → Q (.error e) ψ) : P.Follows (p >>= f) φ Q := by
  rw [Prog.bind_eq]
  induction p generalizing φ with
  | ret a => exact hok a φ hp
  | throw e => exact herr e φ hp
  | call op k ih => exact ⟨hp.1, fun r => ih r (hp.2 r)⟩

/-- `try`: every outcome is a normal one. -/
theorem follows_attempt (p : Prog S α) (φ : P.Phase)
    (Q : Except S.Err (Except S.Err α) → P.Phase → Prop) :
    P.Follows p.attempt φ Q ↔ P.Follows p φ (fun r ψ => Q (.ok r) ψ) := by
  induction p generalizing φ with
  | ret a => exact Iff.rfl
  | throw e => exact Iff.rfl
  | call op k ih =>
      refine and_congr_right fun _ => forall_congr' fun r => ?_
      exact ih r (P.next φ op r)

/-- `finally`: whatever the first program ends with, the second one goes on from there. -/
theorem Follows.ensure {p : Prog S α} {cleanup : Prog S Unit} {φ : P.Phase}
    {Q : Except S.Err α → P.Phase → Prop} {M : P.Phase → Prop}
    (hp : P.Follows p φ (fun _ ψ => M ψ))
    (hcleanup : ∀ ψ, M ψ → P.Follows cleanup ψ (fun _ χ => ∀ r, Q r χ)) :
    P.Follows (p.ensure cleanup) φ Q := by
  have htry : P.Follows p.attempt φ (fun r ψ => (∃ a, r = .ok a) ∧ M ψ) :=
    (follows_attempt _ _ _).mpr (hp.imp fun r ψ hψ => ⟨⟨r, rfl⟩, hψ⟩)
  refine htry.bind (fun r ψ hψ => ?_) (fun e ψ hψ => (nomatch hψ.1))
  refine (hcleanup ψ hψ.2).bind (fun _ χ hχ => ?_) (fun e χ hχ => hχ (.error e))
  cases r with
  | ok a => exact hχ (.ok a)
  | error e => exact hχ (.error e)

/-- In a phase that allows everything and is never left, a program may be anything. -/
theorem follows_of_sink {φ : P.Phase} (hallow : ∀ op, P.Allows φ op)
    (hnext : ∀ op r, P.next φ op r = φ) {Q : Except S.Err α → P.Phase → Prop}
    (hQ : ∀ r, Q r φ) (p : Prog S α) : P.Follows p φ Q := by
  induction p with
  | ret a => exact hQ (.ok a)
  | throw e => exact hQ (.error e)
  | call op k ih =>
      refine ⟨hallow op, fun r => ?_⟩
      rw [hnext op r]
      exact ih r

/-- One operation, and nothing else. -/
theorem follows_perform (op : S.Op) (φ : P.Phase)
    (Q : Except S.Err (S.Res op) → P.Phase → Prop) :
    P.Follows (Prog.perform op) φ Q ↔ P.Allows φ op ∧ ∀ r, Q r (P.next φ op r) := by
  refine and_congr_right fun _ => forall_congr' fun r => ?_
  cases r with
  | ok a => exact Iff.rfl
  | error e => exact Iff.rfl

/-- One operation, and what follows its answer in the phase `ψ` it leads to. -/
theorem Follows.step {op : S.Op} {f : S.Res op → Prog S α} {φ : P.Phase}
    (ψ : S.Res op → P.Phase) {Q : Except S.Err α → P.Phase → Prop} (hallow : P.Allows φ op)
    (hnext : ∀ a, P.next φ op (.ok a) = ψ a) (herr : ∀ e, Q (.error e) (P.next φ op (.error e)))
    (hok : ∀ a, P.Follows (f a) (ψ a) Q) : P.Follows (Prog.perform op >>= f) φ Q := by
  refine ⟨hallow, fun r => ?_⟩
  cases r with
  | ok a => exact hnext a ▸ hok a
  | error e => exact herr e

/-- One operation at the end. -/
theorem Follows.last {op : S.Op} {φ : P.Phase} (ψ : S.Res op → P.Phase)
    {Q : Except S.Err (S.Res op) → P.Phase → Prop} (hallow : P.Allows φ op)
    (hnext : ∀ a, P.next φ op (.ok a) = ψ a) (herr : ∀ e, Q (.error e) (P.next φ op (.error e)))
    (hok : ∀ a, Q (.ok a) (ψ a)) : P.Follows (Prog.perform op) φ Q := by
  refine ⟨hallow, fun r => ?_⟩
  cases r with
  | ok a => exact hnext a ▸ hok a
  | error e => exact herr e

/-- A protocol that allows everything is followed by every program. -/
theorem follows_true (hall : ∀ φ op, P.Allows φ op) (p : Prog S α) (φ : P.Phase) :
    P.Follows p φ (fun _ _ => True) := by
  induction p generalizing φ with
  | ret a => exact trivial
  | throw e => exact trivial
  | call op k ih => exact ⟨hall φ op, fun r => ih r _⟩

/-- The outcome of a program whose operations are answered by a function, and the phase
reached. -/
def outcome (P : Protocol S) (answer : ∀ op, Except S.Err (S.Res op)) :
    Prog S α → P.Phase → Except S.Err α × P.Phase
  | .ret a, φ => (.ok a, φ)
  | .throw e, φ => (.error e, φ)
  | .call op k, φ => P.outcome answer (k (answer op)) (P.next φ op (answer op))

/-- One way to answer the operations is among all of them. -/
theorem Follows.outcome {p : Prog S α} {φ : P.Phase} {Q : Except S.Err α → P.Phase → Prop}
    (h : P.Follows p φ Q) (answer : ∀ op, Except S.Err (S.Res op)) :
    Q (P.outcome answer p φ).1 (P.outcome answer p φ).2 := by
  induction p generalizing φ with
  | ret a => exact h
  | throw e => exact h
  | call op k ih => exact ih _ (h.2 _)

/-- A program follows every protocol that its own one simulates: related phases allow at
least as much and stay related. -/
theorem Follows.simulate {P' : Protocol S} {R : P.Phase → P'.Phase → Prop}
    (hallow : ∀ φ φ' op, R φ φ' → P.Allows φ op → P'.Allows φ' op)
    (hnext : ∀ φ φ' op r, R φ φ' → P.Allows φ op → R (P.next φ op r) (P'.next φ' op r))
    {p : Prog S α} {φ : P.Phase} {φ' : P'.Phase} {Q : Except S.Err α → P.Phase → Prop}
    (h : P.Follows p φ Q) (hR : R φ φ') :
    P'.Follows p φ' (fun r ψ' => ∃ ψ, R ψ ψ' ∧ Q r ψ) := by
  induction p generalizing φ φ' with
  | ret a => exact ⟨φ, hR, h⟩
  | throw e => exact ⟨φ, hR, h⟩
  | call op k ih =>
      refine ⟨hallow φ φ' op hR h.1, fun r => ?_⟩
      exact ih r (h.2 r) (hnext φ φ' op r hR h.1)

/-- Two protocols side by side. -/
def prod (P P' : Protocol S) : Protocol S where
  Phase := P.Phase × P'.Phase
  Allows φ op := P.Allows φ.1 op ∧ P'.Allows φ.2 op
  next φ op r := (P.next φ.1 op r, P'.next φ.2 op r)

/-- A program that follows two protocols follows them side by side. -/
theorem Follows.prod {P' : Protocol S} {p : Prog S α} {φ : P.Phase × P'.Phase}
    {Q : Except S.Err α → P.Phase → Prop} {Q' : Except S.Err α → P'.Phase → Prop}
    (h : P.Follows p φ.1 Q) (h' : P'.Follows p φ.2 Q') :
    (P.prod P').Follows p φ (fun r ψ => Q r ψ.1 ∧ Q' r ψ.2) := by
  induction p generalizing φ with
  | ret a => exact ⟨h, h'⟩
  | throw e => exact ⟨h, h'⟩
  | call op k ih => exact ⟨⟨h.1, h'.1⟩, fun r => ih r (h.2 r) (h'.2 r)⟩

/-- And each of the two by itself. -/
theorem Follows.of_prod {P' : Protocol S} {p : Prog S α} {φ : P.Phase × P'.Phase}
    {Q : Except S.Err α → P.Phase → Prop} {Q' : Except S.Err α → P'.Phase → Prop}
    (h : (P.prod P').Follows p φ (fun r ψ => Q r ψ.1 ∧ Q' r ψ.2)) :
    P.Follows p φ.1 Q ∧ P'.Follows p φ.2 Q' := by
  induction p generalizing φ with
  | ret a => exact h
  | throw e => exact h
  | call op k ih => exact ⟨⟨h.1.1, fun r => (ih r (h.2 r)).1⟩, h.1.2, fun r => (ih r (h.2 r)).2⟩

end Protocol

/-! ## Devices -/

/-- The meaning of the operations on a world `W`, for a calling process and a choice `c` of
the environment: the answer and the world after, or `none` where the environment has no
such choice. -/
structure Device (S : Interface) (W C : Type) where
  exec : ℕ → (op : S.Op) → C → W → Option (Except S.Err (S.Res op) × W)

namespace Device

variable {S : Interface} {W C : Type} {α : Type}

/-- One operation of a program: the rest of the program and the world after. -/
def step (D : Device S W C) (pid : ℕ) (p : Prog S α) (c : C) (w : W) :
    Option (Prog S α × W) :=
  match p with
  | .call op k => (D.exec pid op c w).map (fun rw => (k rw.1, rw.2))
  | _ => none

/-- What one step of a program is: an operation, its answer, and the rest. -/
theorem step_eq_some {D : Device S W C} {pid : ℕ} {p p' : Prog S α} {c : C} {w w' : W}
    (h : D.step pid p c w = some (p', w')) :
    ∃ op k r, p = .call op k ∧ D.exec pid op c w = some (r, w') ∧ p' = k r := by
  cases p with
  | ret a => simp [step] at h
  | throw e => simp [step] at h
  | call op k =>
      rw [step, Option.map_eq_some_iff] at h
      obtain ⟨⟨r, w₁⟩, hexec, heq⟩ := h
      obtain ⟨rfl, rfl⟩ := Prod.mk.inj heq
      exact ⟨op, k, r, rfl, hexec, rfl⟩

/-- A program run by itself, with the environment's choices read off the operations. -/
def run (D : Device S W C) (pid : ℕ) (choose : S.Op → C) :
    Prog S α → W → Option (Except S.Err α × W)
  | .ret a, w => some (.ok a, w)
  | .throw e, w => some (.error e, w)
  | .call op k, w =>
      match D.exec pid op (choose op) w with
      | some (r, w') => D.run pid choose (k r) w'
      | none => none

/-- The first operation of a program. -/
theorem run_call {D : Device S W C} {pid : ℕ} {choose : S.Op → C} {op : S.Op}
    {k : Except S.Err (S.Res op) → Prog S α} {w w' : W} {r : Except S.Err (S.Res op)}
    (h : D.exec pid op (choose op) w = some (r, w')) :
    D.run pid choose (.call op k) w = D.run pid choose (k r) w' := by
  rw [run, h]

/-- A program in sequence: the second part runs on the world that the first one leaves. -/
theorem run_bind {β : Type} (D : Device S W C) (pid : ℕ) (choose : S.Op → C) (p : Prog S α)
    (f : α → Prog S β) (w : W) :
    D.run pid choose (p >>= f) w = (D.run pid choose p w).bind (fun rw => match rw.1 with
      | .ok a => D.run pid choose (f a) rw.2
      | .error e => some (.error e, rw.2)) := by
  rw [Prog.bind_eq]
  induction p generalizing w with
  | ret a => rfl
  | throw e => rfl
  | call op k ih =>
      rw [Prog.bind, run, run]
      cases D.exec pid op (choose op) w with
      | none => rfl
      | some rw => exact ih rw.1 rw.2

/-- A sequence returns if both parts do. -/
theorem run_bind_eq_ok {β : Type} {D : Device S W C} {pid : ℕ} {choose : S.Op → C} {p : Prog S α}
    {f : α → Prog S β} {w w' : W} {b : β} :
    D.run pid choose (p >>= f) w = some (.ok b, w') ↔
      ∃ a w₁, D.run pid choose p w = some (.ok a, w₁) ∧
        D.run pid choose (f a) w₁ = some (.ok b, w') := by
  rw [run_bind, Option.bind_eq_some_iff]
  constructor
  · rintro ⟨⟨r, w₁⟩, hp, hf⟩
    cases r with
    | ok a => exact ⟨a, w₁, hp, hf⟩
    | error e => cases hf
  · rintro ⟨a, w₁, hp, hf⟩
    exact ⟨(.ok a, w₁), hp, hf⟩

end Device

/-! ## Runs -/

/-- The states reached by runs whose every step `a`, taken in state `s`, satisfies
`ok s a`. -/
inductive Run {σ A : Type} (start : σ → Prop) (step : σ → A → Option σ) (ok : σ → A → Prop) :
    σ → Prop where
  | init {s : σ} : start s → Run start step ok s
  | next {s s' : σ} {a : A} : Run start step ok s → ok s a → step s a = some s' →
      Run start step ok s'

namespace Run

variable {σ A : Type} {start : σ → Prop} {step : σ → A → Option σ} {ok : σ → A → Prop}

/-- **Invariants**: what holds at the start and is kept by every permitted step holds in
every state reached. -/
theorem invariant {I : σ → Prop} (h₀ : ∀ s, start s → I s)
    (hstep : ∀ s a s', I s → ok s a → step s a = some s' → I s') {s : σ}
    (h : Run start step ok s) : I s := by
  induction h with
  | init hs => exact h₀ _ hs
  | next _ hok hs ih => exact hstep _ _ _ ih hok hs

/-- A run begins somewhere. -/
theorem exists_start {s : σ} (h : Run start step ok s) : ∃ s₀, start s₀ := by
  induction h with
  | init hs => exact ⟨_, hs⟩
  | next _ _ _ ih => exact ih

/-- A run goes on from where another one ended. -/
theorem append {s s' : σ} (h : Run start step ok s) (h' : Run (fun x => x = s) step ok s') :
    Run start step ok s' := by
  induction h' with
  | init hs => exact hs ▸ h
  | next _ hok hs ih => exact .next ih hok hs

/-- An invariant may use one that is already known. -/
theorem invariant_of {I J : σ → Prop} (hJ : ∀ s, Run start step ok s → J s)
    (h₀ : ∀ s, start s → I s)
    (hstep : ∀ s a s', J s → J s' → I s → ok s a → step s a = some s' → I s') {s : σ}
    (h : Run start step ok s) : I s := by
  induction h with
  | init hs => exact h₀ _ hs
  | next hr hok hs ih => exact hstep _ _ _ (hJ _ hr) (hJ _ (.next hr hok hs)) ih hok hs

/-- Fewer conditions, more runs. -/
theorem weaken {ok' : σ → A → Prop} (hok : ∀ s a, ok s a → ok' s a) {s : σ}
    (h : Run start step ok s) : Run start step ok' s := by
  induction h with
  | init hs => exact .init hs
  | next _ ha hs ih => exact .next ih (hok _ _ ha) hs

/-- A list of steps, one after the other, as long as each passes a check. -/
def play (step : σ → A → Option σ) (check : σ → A → Bool) : List A → σ → Option σ
  | [], s => some s
  | a :: as, s => if check s a then (step s a).bind (play step check as) else none

/-- Steps that pass the check reach a state of a run. -/
theorem of_play {check : σ → A → Bool} (hcheck : ∀ s a, check s a = true → ok s a) {as : List A}
    {s s' : σ} (h : Run start step ok s) (hs : play step check as s = some s') :
    Run start step ok s' := by
  induction as generalizing s with
  | nil => exact Option.some.inj hs ▸ h
  | cons a as ih =>
      rw [play] at hs
      split_ifs at hs with ha
      obtain ⟨s₁, h₁, hs⟩ := Option.bind_eq_some_iff.mp hs
      exact ih (.next h (hcheck s a ha) h₁) hs

/-- What a run played from a start state ends with. -/
theorem exists_of_play {check : σ → A → Bool} (hcheck : ∀ s a, check s a = true → ok s a)
    {as : List A} {s : σ} (h₀ : start s) {test : σ → Bool}
    (h : (play step check as s).any test = true) : ∃ s', Run start step ok s' ∧ test s' = true := by
  obtain ⟨s', hs', htest⟩ := (Option.any_eq_true _ _).mp h
  exact ⟨s', of_play hcheck (.init h₀) hs', htest⟩

/-- The same from a given state on. -/
theorem exists_of_play_from {check : σ → A → Bool} (hcheck : ∀ s a, check s a = true → ok s a)
    {as : List A} {s : σ} {test : σ → Bool}
    (h : (play step check as s).any test = true) :
    ∃ s', Run (fun x => x = s) step ok s' ∧ test s' = true := by
  obtain ⟨s', hs', htest⟩ := (Option.any_eq_true _ _).mp h
  exact ⟨s', of_play hcheck (.init rfl) hs', htest⟩

end Run

/-! ## Machines -/

/-- A process: what it was started for, and the rest of its program. -/
structure Proc (S : Interface) (J R : Type) where
  job : J
  prog : Prog S R

/-- The world and the processes; their numbers are never used twice. -/
structure Pool (S : Interface) (W J R : Type) where
  world : W
  tasks : ℕ → Option (Proc S J R)
  spawned : ℕ

/-- What can happen next: the surroundings move, a job is started, a process performs its
next operation, ends, or disappears. -/
inductive PoolAction (C J E : Type) where
  | surroundings (e : E)
  | spawn (job : J)
  | step (pid : ℕ) (c : C)
  | finish (pid : ℕ)
  | crash (pid : ℕ)

/-- A device, its surroundings, the program of every job that may be started, and what a
process that returned `r` goes on with, if anything. -/
structure Machine (S : Interface) (W C J R E : Type) where
  device : Device S W C
  surroundings : E → W → Option W
  body : J → W → Option (Prog S R)
  after : J → R → Option (J × Prog S R)

namespace Machine

variable {S : Interface} {W C J R E : Type}

/-- A process takes the place of another, or of none. -/
def put (s : Pool S W J R) (pid : ℕ) (t : Option (Proc S J R)) : Pool S W J R :=
  { s with tasks := Function.update s.tasks pid t }

/-- One step of the machine. -/
def step (M : Machine S W C J R E) (s : Pool S W J R) : PoolAction C J E → Option (Pool S W J R)
  | .surroundings e => (M.surroundings e s.world).map (fun w => { s with world := w })
  | .spawn j => (M.body j s.world).map (fun p =>
      { put s s.spawned (some ⟨j, p⟩) with spawned := s.spawned + 1 })
  | .step pid c =>
      match s.tasks pid with
      | some t => (M.device.step pid t.prog c s.world).map (fun pw =>
          { put s pid (some ⟨t.job, pw.1⟩) with world := pw.2 })
      | none => none
  | .finish pid =>
      match s.tasks pid with
      | some ⟨j, .ret a⟩ => some (put s pid ((M.after j a).map (fun jp => ⟨jp.1, jp.2⟩)))
      | some ⟨_, .throw _⟩ => some (put s pid none)
      | _ => none
  | .crash pid => (s.tasks pid).map (fun _ => put s pid none)

theorem put_tasks_self (s : Pool S W J R) (pid : ℕ) (t : Option (Proc S J R)) :
    (put s pid t).tasks pid = t := by
  simp [put]

theorem put_tasks_ne (s : Pool S W J R) {pid q : ℕ} (t : Option (Proc S J R)) (h : q ≠ pid) :
    (put s pid t).tasks q = s.tasks q := by
  simp [put, h]

/-- An operation of a process: who performs it, and what is left. -/
theorem step_call {M : Machine S W C J R E} {s s' : Pool S W J R} {pid : ℕ} {c : C}
    (h : M.step s (.step pid c) = some s') :
    ∃ j op k r w', s.tasks pid = some ⟨j, .call op k⟩ ∧
      M.device.exec pid op c s.world = some (r, w') ∧
      s' = { put s pid (some ⟨j, k r⟩) with world := w' } := by
  unfold step at h
  cases ht : s.tasks pid with
  | none => simp [ht] at h
  | some t =>
      simp only [ht, Option.map_eq_some_iff] at h
      obtain ⟨⟨p', w'⟩, hs, rfl⟩ := h
      obtain ⟨op, k, r, hp, hexec, rfl⟩ := Device.step_eq_some hs
      obtain ⟨j, p⟩ := t
      subst hp
      exact ⟨j, op, k, r, w', rfl, hexec, rfl⟩

/-- The end of a process: it threw, or it returned and goes on as `after` says. -/
theorem step_finish {M : Machine S W C J R E} {s s' : Pool S W J R} {pid : ℕ}
    (h : M.step s (.finish pid) = some s') :
    (∃ j e, s.tasks pid = some ⟨j, .throw e⟩ ∧ s' = put s pid none) ∨
      (∃ j a, s.tasks pid = some ⟨j, .ret a⟩ ∧
        s' = put s pid ((M.after j a).map (fun jp => ⟨jp.1, jp.2⟩))) := by
  unfold step at h
  cases ht : s.tasks pid with
  | none => simp [ht] at h
  | some t =>
      obtain ⟨j, p⟩ := t
      cases p with
      | ret a =>
          simp only [ht, Option.some.injEq] at h
          exact .inr ⟨j, a, rfl, h.symm⟩
      | throw e =>
          simp only [ht, Option.some.injEq] at h
          exact .inl ⟨j, e, rfl, h.symm⟩
      | call op k => simp [ht] at h

end Machine

/-! ## Contracts -/

/-- Phases as facts about the world.

`Inv` is what always holds, `first j` the phase in which the program of job `j` starts, and
`Facts pid j φ` what process `pid`, started for job `j` and standing in phase `φ`, may rely
on.  `Apart` says which jobs may be under way together, `Ok` under which condition a process
may perform an operation, given the environment's choice, and `Fresh n` that the numbers from
`n` on have left no mark on the world. -/
structure Contract {S : Interface} {W C J R E : Type} (M : Machine S W C J R E)
    (P : Protocol S) where
  Inv : W → Prop
  first : J → W → P.Phase
  Facts : ℕ → J → P.Phase → W → Prop
  End : J → Except S.Err R → P.Phase → Prop
  Apart : J → J → Prop
  Ok : ℕ → J → S.Op → C → W → Prop
  Fresh : ℕ → W → Prop
  follows : ∀ {j w p}, M.body j w = some p → P.Follows p (first j w) (End j)
  begins : ∀ {pid j w p}, Inv w → Fresh pid w → M.body j w = some p →
    Facts pid j (first j w) w
  surroundings : ∀ {e w w'}, Inv w → M.surroundings e w = some w' →
    Inv w' ∧ (∀ n, Fresh n w → Fresh n w') ∧ ∀ pid j φ, Facts pid j φ w → Facts pid j φ w'
  call : ∀ {pid j φ op c w r w'}, Inv w → Facts pid j φ w → P.Allows φ op → Ok pid j op c w →
    M.device.exec pid op c w = some (r, w') → Inv w' ∧ Facts pid j (P.next φ op r) w'
  frame : ∀ {pid j φ op c w r w' q i ψ}, Inv w → Apart j i → q ≠ pid → Facts pid j φ w →
    P.Allows φ op → Ok pid j op c w → M.device.exec pid op c w = some (r, w') →
    Facts q i ψ w → Facts q i ψ w'
  goes_on : ∀ {pid j a φ w j' p'}, End j (.ok a) φ → Facts pid j φ w →
    M.after j a = some (j', p') → P.Follows p' φ (End j')
  after : ∀ {pid j a φ w j' p'}, End j (.ok a) φ → Facts pid j φ w →
    M.after j a = some (j', p') → Facts pid j' φ w
  apart_after : ∀ {j a j' p' i}, M.after j a = some (j', p') → Apart j i → Apart j' i
  apart_symm : ∀ {i j}, Apart i j → Apart j i
  fresh_succ : ∀ {n w}, Fresh n w → Fresh (n + 1) w
  fresh_call : ∀ {n pid op c w r w'}, pid < n → Fresh n w →
    M.device.exec pid op c w = some (r, w') → Fresh n w'

namespace Contract

variable {S : Interface} {W C J R E : Type} {M : Machine S W C J R E} {P : Protocol S}

/-- The steps a contract speaks about. -/
def Permits (K : Contract M P) (s : Pool S W J R) : PoolAction C J E → Prop
  | .spawn j => ∀ pid t, s.tasks pid = some t → K.Apart j t.job
  | .step pid c => ∀ j op k, s.tasks pid = some ⟨j, .call op k⟩ → K.Ok pid j op c s.world
  | _ => True

/-- A process stands in some phase whose facts hold. -/
def Stands (K : Contract M P) (pid : ℕ) (t : Proc S J R) (w : W) : Prop :=
  ∃ φ, P.Follows t.prog φ (K.End t.job) ∧ K.Facts pid t.job φ w

/-- The invariant holds and every process stands somewhere. -/
structure Good (K : Contract M P) (s : Pool S W J R) : Prop where
  inv : K.Inv s.world
  fresh : K.Fresh s.spawned s.world
  numbered : ∀ pid t, s.tasks pid = some t → pid < s.spawned
  stands : ∀ pid t, s.tasks pid = some t → K.Stands pid t s.world
  apart : ∀ p q t u, p ≠ q → s.tasks p = some t → s.tasks q = some u → K.Apart t.job u.job

variable {K : Contract M P} {s s' : Pool S W J R}

/-- Replacing the process of one number by one that stands well keeps everything. -/
theorem Good.put (h : K.Good s) {pid : ℕ} {t : Option (Proc S J R)}
    (hnum : ∀ u, t = some u → pid < s.spawned)
    (hst : ∀ u, t = some u → K.Stands pid u s.world)
    (hap : ∀ u, t = some u → ∀ q v, q ≠ pid → s.tasks q = some v → K.Apart u.job v.job) :
    K.Good (Machine.put s pid t) where
  inv := h.inv
  fresh := h.fresh
  numbered := by
    intro q u hq
    by_cases hqp : q = pid
    · subst hqp
      rw [Machine.put_tasks_self] at hq
      exact hnum u hq
    · rw [Machine.put_tasks_ne s t hqp] at hq
      exact h.numbered q u hq
  stands := by
    intro q u hq
    by_cases hqp : q = pid
    · subst hqp
      rw [Machine.put_tasks_self] at hq
      exact hst u hq
    · rw [Machine.put_tasks_ne s t hqp] at hq
      exact h.stands q u hq
  apart := by
    intro p q u v hne hp hq
    by_cases hpp : p = pid
    · subst hpp
      rw [Machine.put_tasks_self] at hp
      rw [Machine.put_tasks_ne s t hne.symm] at hq
      exact hap u hp q v hne.symm hq
    · rw [Machine.put_tasks_ne s t hpp] at hp
      by_cases hqp : q = pid
      · subst hqp
        rw [Machine.put_tasks_self] at hq
        exact K.apart_symm (hap v hq p u hpp hp)
      · rw [Machine.put_tasks_ne s t hqp] at hq
        exact h.apart p q u v hne hp hq

/-- A new process. -/
theorem Good.spawn (h : K.Good s) {j : J} {p : Prog S R} (hb : M.body j s.world = some p)
    (hap : ∀ pid t, s.tasks pid = some t → K.Apart j t.job) :
    K.Good { Machine.put s s.spawned (some ⟨j, p⟩) with spawned := s.spawned + 1 } := by
  have hfree : s.tasks s.spawned = none := by
    by_contra hne
    obtain ⟨t, ht⟩ := Option.ne_none_iff_exists'.mp hne
    exact lt_irrefl _ (h.numbered _ t ht)
  -- with the counter moved on, the new process only takes an empty place
  have hgood : K.Good { s with spawned := s.spawned + 1 } :=
    { inv := h.inv
      fresh := K.fresh_succ h.fresh
      numbered := fun pid t ht => Nat.lt_succ_of_lt (h.numbered pid t ht)
      stands := h.stands
      apart := h.apart }
  change K.Good (Machine.put { s with spawned := s.spawned + 1 } s.spawned (some ⟨j, p⟩))
  refine hgood.put ?_ ?_ ?_
  · intro u _
    exact Nat.lt_succ_self _
  · rintro u ⟨rfl⟩
    exact ⟨_, K.follows hb, K.begins h.inv h.fresh hb⟩
  · rintro u ⟨rfl⟩ q v _ hq
    exact hap q v hq

/-- **One step of one process**: it stands in its next phase, the others stay put. -/
theorem Good.call (h : K.Good s) {pid : ℕ} {j : J} {op : S.Op}
    {k : Except S.Err (S.Res op) → Prog S R} {c : C} {r : Except S.Err (S.Res op)} {w' : W}
    (ht : s.tasks pid = some ⟨j, .call op k⟩) (hok : K.Ok pid j op c s.world)
    (hexec : M.device.exec pid op c s.world = some (r, w')) :
    K.Good { Machine.put s pid (some ⟨j, k r⟩) with world := w' } := by
  obtain ⟨φ, ⟨hallow, hk⟩, hφ⟩ := h.stands pid _ ht
  obtain ⟨hinv, hfacts⟩ := K.call h.inv hφ hallow hok hexec
  have hpid : pid < s.spawned := h.numbered pid _ ht
  -- the others are framed
  have hothers : ∀ q u, q ≠ pid → s.tasks q = some u → K.Stands q u w' := by
    intro q u hq hu
    obtain ⟨ψ, hprog, hψ⟩ := h.stands q u hu
    exact ⟨ψ, hprog, K.frame h.inv (h.apart pid q _ u hq.symm ht hu) hq hφ hallow hok hexec hψ⟩
  refine
    { inv := hinv
      fresh := K.fresh_call hpid h.fresh hexec
      numbered := ?_
      stands := ?_
      apart := ?_ }
  · intro q u hu
    by_cases hq : q = pid
    · exact hq ▸ hpid
    · rw [show (Machine.put s pid (some ⟨j, k r⟩)).tasks q = s.tasks q from
        Machine.put_tasks_ne s _ hq] at hu
      exact h.numbered q u hu
  · intro q u hu
    by_cases hq : q = pid
    · subst hq
      rw [show (Machine.put s q (some ⟨j, k r⟩)).tasks q = _ from
        Machine.put_tasks_self s q _] at hu
      obtain rfl := Option.some.inj hu
      exact ⟨_, hk r, hfacts⟩
    · rw [show (Machine.put s pid (some ⟨j, k r⟩)).tasks q = s.tasks q from
        Machine.put_tasks_ne s _ hq] at hu
      exact hothers q u hq hu
  · -- the jobs are the same as before
    have hsame : ∀ q u, (Machine.put s pid (some ⟨j, k r⟩)).tasks q = some u →
        ∃ v, s.tasks q = some v ∧ v.job = u.job := by
      intro q u hu
      by_cases hq : q = pid
      · subst hq
        rw [Machine.put_tasks_self] at hu
        obtain rfl := Option.some.inj hu
        exact ⟨_, ht, rfl⟩
      · rw [Machine.put_tasks_ne s _ hq] at hu
        exact ⟨u, hu, rfl⟩
    intro p q u v hne hp hq
    obtain ⟨u', hu', hju⟩ := hsame p u hp
    obtain ⟨v', hv', hjv⟩ := hsame q v hq
    rw [← hju, ← hjv]
    exact h.apart p q u' v' hne hu' hv'

/-- A pool without processes. -/
theorem Good.of_empty (hinv : K.Inv s.world) (hfresh : K.Fresh s.spawned s.world)
    (htasks : ∀ pid, s.tasks pid = none) : K.Good s where
  inv := hinv
  fresh := hfresh
  numbered pid t ht := by simp [htasks pid] at ht
  stands pid t ht := by simp [htasks pid] at ht
  apart p _ t _ _ hp := by simp [htasks p] at hp

/-- Every permitted step keeps everything. -/
theorem Good.step (h : K.Good s) {a : PoolAction C J E} (hok : K.Permits s a)
    (hs : M.step s a = some s') : K.Good s' := by
  cases a with
  | surroundings e =>
      rw [Machine.step, Option.map_eq_some_iff] at hs
      obtain ⟨w', hw', rfl⟩ := hs
      obtain ⟨hinv, hfresh, hfacts⟩ := K.surroundings h.inv hw'
      refine ⟨hinv, hfresh _ h.fresh, h.numbered, ?_, h.apart⟩
      intro pid t ht
      obtain ⟨φ, hprog, hφ⟩ := h.stands pid t ht
      exact ⟨φ, hprog, hfacts pid _ φ hφ⟩
  | spawn j =>
      rw [Machine.step, Option.map_eq_some_iff] at hs
      obtain ⟨p, hb, rfl⟩ := hs
      exact h.spawn hb hok
  | step pid c =>
      obtain ⟨j, op, k, r, w', ht, hexec, rfl⟩ := Machine.step_call hs
      exact h.call ht (hok j op k ht) hexec
  | finish pid =>
      obtain ⟨j, e, ht, rfl⟩ | ⟨j, a, ht, rfl⟩ := Machine.step_finish hs
      · exact h.put (by simp) (by simp) (by simp)
      · obtain ⟨φ, hend, hφ⟩ := h.stands pid _ ht
        have hafter : ∀ u, (M.after j a).map (fun jp => (⟨jp.1, jp.2⟩ : Proc S J R)) = some u →
            M.after j a = some (u.job, u.prog) := by
          intro u hu
          obtain ⟨jp, hjp, rfl⟩ := Option.map_eq_some_iff.mp hu
          exact hjp
        refine h.put ?_ ?_ ?_
        · intro _ _
          exact h.numbered pid _ ht
        · intro u hu
          exact ⟨φ, K.goes_on hend hφ (hafter u hu), K.after hend hφ (hafter u hu)⟩
        · intro u hu q v hq hv
          exact K.apart_after (hafter u hu) (h.apart pid q _ v hq.symm ht hv)
  | crash pid =>
      rw [Machine.step, Option.map_eq_some_iff] at hs
      obtain ⟨t, ht, rfl⟩ := hs
      exact h.put (by simp) (by simp) (by simp)

/-- **Contracts are kept**: if every step of a run is permitted, the invariant holds in
every state reached, and every process stands in a phase whose facts hold. -/
theorem invariant (K : Contract M P) {start : Pool S W J R → Prop}
    {ok : Pool S W J R → PoolAction C J E → Prop} (hstart : ∀ s, start s → K.Good s)
    (hok : ∀ s a, K.Good s → ok s a → K.Permits s a) {s : Pool S W J R}
    (h : Run start M.step ok s) : K.Good s :=
  h.invariant hstart fun _ _ _ hgood ha hs => hgood.step (hok _ _ hgood ha) hs

/-! ## Extending a contract -/

/-- More facts on top of a contract; every rule may use what the contract says. -/
structure Extension (K : Contract M P) where
  Inv : W → Prop
  Facts : ℕ → J → P.Phase → W → Prop
  Apart : J → J → Prop
  Ok : ℕ → J → S.Op → C → W → Prop
  Fresh : ℕ → W → Prop
  begins : ∀ {pid j w p}, K.Inv w → Inv w → Fresh pid w → M.body j w = some p →
    Facts pid j (K.first j w) w
  surroundings : ∀ {e w w'}, Inv w → M.surroundings e w = some w' →
    Inv w' ∧ (∀ n, Fresh n w → Fresh n w') ∧ ∀ pid j φ, Facts pid j φ w → Facts pid j φ w'
  call : ∀ {pid j φ op c w r w'}, K.Inv w → K.Facts pid j φ w → K.Inv w' →
    K.Facts pid j (P.next φ op r) w' → Inv w → Facts pid j φ w → P.Allows φ op → Ok pid j op c w →
    M.device.exec pid op c w = some (r, w') → Inv w' ∧ Facts pid j (P.next φ op r) w'
  frame : ∀ {pid j φ op c w r w' q i ψ}, K.Inv w → K.Facts pid j φ w → K.Facts q i ψ w →
    Inv w → K.Apart j i → Apart j i → q ≠ pid → Facts pid j φ w → P.Allows φ op →
    Ok pid j op c w → M.device.exec pid op c w = some (r, w') → Facts q i ψ w → Facts q i ψ w'
  after : ∀ {pid j a φ w j' p'}, K.End j (.ok a) φ → Facts pid j φ w →
    M.after j a = some (j', p') → Facts pid j' φ w
  apart_after : ∀ {j a j' p' i}, M.after j a = some (j', p') → Apart j i → Apart j' i
  apart_symm : ∀ {i j}, Apart i j → Apart j i
  fresh_succ : ∀ {n w}, Fresh n w → Fresh (n + 1) w
  fresh_call : ∀ {n pid op c w r w'}, pid < n → Fresh n w →
    M.device.exec pid op c w = some (r, w') → Fresh n w'

/-- A contract with its extension is a contract. -/
def Extension.contract {K : Contract M P} (X : K.Extension) : Contract M P where
  Inv w := K.Inv w ∧ X.Inv w
  first := K.first
  Facts pid j φ w := K.Facts pid j φ w ∧ X.Facts pid j φ w
  End := K.End
  Apart j i := K.Apart j i ∧ X.Apart j i
  Ok pid j op c w := K.Ok pid j op c w ∧ X.Ok pid j op c w
  Fresh n w := K.Fresh n w ∧ X.Fresh n w
  follows := K.follows
  begins hinv hfresh hb := ⟨K.begins hinv.1 hfresh.1 hb, X.begins hinv.1 hinv.2 hfresh.2 hb⟩
  surroundings hinv hs := by
    obtain ⟨hinv₁, hfresh₁, hfacts₁⟩ := K.surroundings hinv.1 hs
    obtain ⟨hinv₂, hfresh₂, hfacts₂⟩ := X.surroundings hinv.2 hs
    exact ⟨⟨hinv₁, hinv₂⟩, fun n h => ⟨hfresh₁ n h.1, hfresh₂ n h.2⟩,
      fun pid j φ h => ⟨hfacts₁ pid j φ h.1, hfacts₂ pid j φ h.2⟩⟩
  -- the contract goes first; the extension may use what it has kept
  call hinv hφ hallow hok hexec := by
    obtain ⟨hinv₁, hnext₁⟩ := K.call hinv.1 hφ.1 hallow hok.1 hexec
    obtain ⟨hinv₂, hnext₂⟩ :=
      X.call hinv.1 hφ.1 hinv₁ hnext₁ hinv.2 hφ.2 hallow hok.2 hexec
    exact ⟨⟨hinv₁, hinv₂⟩, hnext₁, hnext₂⟩
  frame hinv hap hne hφ hallow hok hexec hψ :=
    ⟨K.frame hinv.1 hap.1 hne hφ.1 hallow hok.1 hexec hψ.1,
      X.frame hinv.1 hφ.1 hψ.1 hinv.2 hap.1 hap.2 hne hφ.2 hallow hok.2 hexec hψ.2⟩
  goes_on hend hφ ha := K.goes_on hend hφ.1 ha
  after hend hφ ha := ⟨K.after hend hφ.1 ha, X.after hend hφ.2 ha⟩
  apart_after ha hap := ⟨K.apart_after ha hap.1, X.apart_after ha hap.2⟩
  apart_symm hap := ⟨K.apart_symm hap.1, X.apart_symm hap.2⟩
  fresh_succ h := ⟨K.fresh_succ h.1, X.fresh_succ h.2⟩
  fresh_call hpid h hexec := ⟨K.fresh_call hpid h.1 hexec, X.fresh_call hpid h.2 hexec⟩

/-! ## Two contracts side by side -/

/-- Two contracts of one machine, each over its own protocol, are a contract over the two
protocols side by side. -/
def prod {P' : Protocol S} (K : Contract M P) (K' : Contract M P') :
    Contract M (P.prod P') where
  Inv w := K.Inv w ∧ K'.Inv w
  first j w := (K.first j w, K'.first j w)
  Facts pid j φ w := K.Facts pid j φ.1 w ∧ K'.Facts pid j φ.2 w
  End j r φ := K.End j r φ.1 ∧ K'.End j r φ.2
  Apart j i := K.Apart j i ∧ K'.Apart j i
  Ok pid j op c w := K.Ok pid j op c w ∧ K'.Ok pid j op c w
  Fresh n w := K.Fresh n w ∧ K'.Fresh n w
  follows hb := (K.follows hb).prod (K'.follows hb)
  begins hinv hfresh hb := ⟨K.begins hinv.1 hfresh.1 hb, K'.begins hinv.2 hfresh.2 hb⟩
  surroundings hinv hs := by
    obtain ⟨hinv₁, hfresh₁, hfacts₁⟩ := K.surroundings hinv.1 hs
    obtain ⟨hinv₂, hfresh₂, hfacts₂⟩ := K'.surroundings hinv.2 hs
    exact ⟨⟨hinv₁, hinv₂⟩, fun n h => ⟨hfresh₁ n h.1, hfresh₂ n h.2⟩,
      fun pid j φ h => ⟨hfacts₁ pid j φ.1 h.1, hfacts₂ pid j φ.2 h.2⟩⟩
  call hinv hφ hallow hok hexec := by
    obtain ⟨hinv₁, hnext₁⟩ := K.call hinv.1 hφ.1 hallow.1 hok.1 hexec
    obtain ⟨hinv₂, hnext₂⟩ := K'.call hinv.2 hφ.2 hallow.2 hok.2 hexec
    exact ⟨⟨hinv₁, hinv₂⟩, hnext₁, hnext₂⟩
  frame hinv hap hne hφ hallow hok hexec hψ :=
    ⟨K.frame hinv.1 hap.1 hne hφ.1 hallow.1 hok.1 hexec hψ.1,
      K'.frame hinv.2 hap.2 hne hφ.2 hallow.2 hok.2 hexec hψ.2⟩
  goes_on hend hφ ha := (K.goes_on hend.1 hφ.1 ha).prod (K'.goes_on hend.2 hφ.2 ha)
  after hend hφ ha := ⟨K.after hend.1 hφ.1 ha, K'.after hend.2 hφ.2 ha⟩
  apart_after ha hap := ⟨K.apart_after ha hap.1, K'.apart_after ha hap.2⟩
  apart_symm hap := ⟨K.apart_symm hap.1, K'.apart_symm hap.2⟩
  fresh_succ h := ⟨K.fresh_succ h.1, K'.fresh_succ h.2⟩
  fresh_call hpid h hexec := ⟨K.fresh_call hpid h.1 hexec, K'.fresh_call hpid h.2 hexec⟩

/-- A good state of both contracts is a good one of the two side by side. -/
theorem Good.prod {P' : Protocol S} {K' : Contract M P'} (h : K.Good s) (h' : K'.Good s) :
    (K.prod K').Good s where
  inv := ⟨h.inv, h'.inv⟩
  fresh := ⟨h.fresh, h'.fresh⟩
  numbered := h.numbered
  stands := by
    intro pid t ht
    obtain ⟨φ, hφ, hfacts⟩ := h.stands pid t ht
    obtain ⟨φ', hφ', hfacts'⟩ := h'.stands pid t ht
    exact ⟨(φ, φ'), hφ.prod hφ', hfacts, hfacts'⟩
  apart p q t u hne hp hq := ⟨h.apart p q t u hne hp hq, h'.apart p q t u hne hp hq⟩

end Contract
