/-
# Backlog sampling (`worker/src/metrics/backlog-sampler.ts`, `shared/src/backlog-metrics.ts`)

Two sources are read again and again, each with a deadline, and what they answer is shown by
gauges.  A round of a source is one call of `run`.  Its deadline, its answer, the timer of the
next round and `stop` are callbacks that may come in any order.

* `record`, `recordFailure`: what an answer does to the gauges.
* `Sampler.step`: one callback.
* `Tidy`: a source has one open round, or one timer for the next.
* `backlog_sampling`: single-flight, one outcome for each read, no influence between the sources,
  and silence after `stop`.
-/
import Waybill.Numerals
import Waybill.Process

/-! ## The gauges -/

/-- `BacklogSource`. -/
inductive BacklogSource where
  | outbox
  | sqs
  deriving DecidableEq

/-- `QueueDepth`. -/
structure QueueDepth where
  visible : Option ℚ
  inFlight : Option ℚ
  delayed : Option ℚ

/-- What a read of a source answers.  A number that is not finite is `none`. -/
def Reading : BacklogSource → Type
  | .outbox => Option ℚ
  | .sqs => QueueDepth

/-- The gauges; `none` is `NaN`. -/
structure Gauges where
  pending : Option ℚ
  visible : Option ℚ
  inFlight : Option ℚ
  delayed : Option ℚ
  success : BacklogSource → ℕ
  timestamp : BacklogSource → ℚ

namespace Gauges

/-- `validateBacklogCount`. -/
def validateBacklogCount (value : Option ℚ) : Except JsError ℚ :=
  match value with
  | some x =>
      if x.den = 1 ∧ 0 ≤ x ∧ x ≤ 9007199254740991 then .ok x
      else .error { message := js "Backlog count must be a nonnegative safe integer" }
  | none => .error { message := js "Backlog count must be a nonnegative safe integer" }

/-- `completed`. -/
def completed (g : Gauges) (source : BacklogSource) (time : ℚ) : Gauges :=
  { g with
    timestamp := Function.update g.timestamp source time
    success := Function.update g.success source 1 }

/-- `recordOutbox`. -/
def recordOutbox (g : Gauges) (count : Option ℚ) (time : ℚ) : Except JsError Gauges := do
  let count ← validateBacklogCount count
  let g := { g with
    pending := some count }
  return g.completed .outbox time

/-- `recordQueue`: no gauge is set unless all three counts are valid. -/
def recordQueue (g : Gauges) (depth : QueueDepth) (time : ℚ) : Except JsError Gauges := do
  let visible ← validateBacklogCount depth.visible
  let inFlight ← validateBacklogCount depth.inFlight
  let delayed ← validateBacklogCount depth.delayed
  let g := { g with
    visible := some visible
    inFlight := some inFlight
    delayed := some delayed }
  return g.completed .sqs time

/-- The function that `startBacklogSampler` passes for a source. -/
def record (g : Gauges) : (source : BacklogSource) → Reading source → ℚ → Except JsError Gauges
  | .outbox, count, time => g.recordOutbox count time
  | .sqs, depth, time => g.recordQueue depth time

/-- `recordFailure`. -/
def recordFailure (g : Gauges) (source : BacklogSource) : Gauges :=
  { g with
    success := Function.update g.success source 0 }

end Gauges

/-! ## The sampler -/

/-- Where the promise of a round is: before its read, at its read, or past `finally`.  Until then
its controller is in `controllers` and the promise in `pending`. -/
inductive RoundTask where
  | queued
  | reading
  | settled
  deriving DecidableEq

/-- One call of `run`: its promise, its controller, its variable `failed`, and its deadline, which
is a timer that may have fired. -/
structure Round where
  task : RoundTask := .queued
  aborted : Bool := false
  failed : Bool := false
  armed : Bool := true
  fired : Bool := false

/-- What is recorded for a round. -/
inductive Outcome (source : BacklogSource) where
  | success (sample : Reading source) (time : ℚ)
  | failure (error : JsError)

/-- An outcome, with its source and the number of its round. -/
structure Entry where
  source : BacklogSource
  round : ℕ
  outcome : Outcome source

/-- The sampler: the rounds of each source, its timers for a next round, the gauges, the calls of
`onError`, and the outcomes so far, the last one first. -/
structure Sampler where
  rounds : BacklogSource → List Round
  intervals : BacklogSource → ℕ
  stopped : Bool
  gauges : Gauges
  errors : List (BacklogSource × JsError)
  log : List Entry

/-- A callback. -/
inductive SamplerEvent where
  | begin (source : BacklogSource) (n : ℕ)
  | settle (source : BacklogSource) (n : ℕ) (result : Except JsError (Reading source)) (now : ℚ)
  | deadline (source : BacklogSource) (n : ℕ)
  | interval (source : BacklogSource)
  | stop

/-- The source that a callback is about. -/
def SamplerEvent.source? : SamplerEvent → Option BacklogSource
  | .begin source _ => some source
  | .settle source _ _ _ => some source
  | .deadline source _ => some source
  | .interval source => some source
  | .stop => none

/-- The options, with their defaults. -/
structure SamplerOptions where
  intervalMs : ℚ := 30000
  timeoutMs : ℚ := 5000

/-- The name of a source in a message. -/
def BacklogSource.name : BacklogSource → JsString
  | .outbox => js "outbox"
  | .sqs => js "sqs"

/-- The error of a deadline. -/
def deadlineError (options : SamplerOptions) (source : BacklogSource) : JsError :=
  { message := js "Backlog " ++ source.name ++ js " sample exceeded " ++
      (Json.printNumber options.timeoutMs).getD [] ++ js "ms" }

namespace Sampler

/-- The rounds of a source with one of them changed. -/
def setRound (s : Sampler) (source : BacklogSource) (n : ℕ) (r : Round) : Sampler :=
  { s with
    rounds := Function.update s.rounds source ((s.rounds source).set n r) }

/-- `run`. -/
def run (s : Sampler) (source : BacklogSource) : Sampler :=
  if s.stopped then s
  else
    { s with
      rounds := Function.update s.rounds source (s.rounds source ++ [{}]) }

/-- `failure`, of the round `n`. -/
def failure (s : Sampler) (source : BacklogSource) (n : ℕ) (r : Round) (error : JsError) :
    Sampler × Round :=
  if s.stopped || r.failed then (s, r)
  else
    ({ s with
        gauges := s.gauges.recordFailure source
        errors := (source, error) :: s.errors
        log := { source := source, round := n, outcome := .failure error } :: s.log },
      { r with
        failed := true })

/-- `finally`, of the round `n`. -/
def finish (s : Sampler) (source : BacklogSource) (n : ℕ) (r : Round) : Sampler :=
  let s := s.setRound source n { r with
    task := .settled
    armed := false }
  if s.stopped then s
  else
    { s with
      intervals := Function.update s.intervals source (s.intervals source + 1) }

/-- The answer of the read of the round `n`. -/
def answer (s : Sampler) (source : BacklogSource) (n : ℕ) (r : Round)
    (result : Except JsError (Reading source)) (now : ℚ) : Sampler :=
  match result with
  | .ok sample =>
      -- a late answer is dropped
      if s.stopped || r.aborted then s.finish source n r
      else
        match s.gauges.record source sample (now / 1000) with
        | .ok gauges =>
            let s := { s with
              gauges := gauges
              log := { source := source, round := n, outcome := .success sample (now / 1000) } ::
                s.log }
            s.finish source n r
        -- a reading the gauges refuse is a failure of its own
        | .error error =>
            let sr := s.failure source n r error
            sr.1.finish source n sr.2
  | .error error =>
      let sr := s.failure source n r error
      sr.1.finish source n sr.2

/-- `stop`: no timer is left, and every open round is aborted. -/
def stop (s : Sampler) : Sampler :=
  { s with
    stopped := true
    intervals := fun _ => 0
    rounds := fun source => (s.rounds source).map (fun r => { r with
      armed := false
      aborted := r.aborted || r.task != .settled }) }

/-- The reason of the abort, for a read that was not begun. -/
def abortReason (options : SamplerOptions) (s : Sampler) (source : BacklogSource) : JsError :=
  if s.stopped then { message := js "Backlog sampler stopped" } else deadlineError options source

/-- One callback. -/
def step (options : SamplerOptions) (s : Sampler) : SamplerEvent → Option Sampler
  | .begin source n =>
      match (s.rounds source)[n]? with
      | some r =>
          if r.task = .queued then
            -- it was aborted before the first read
            if r.aborted then
              let sr := s.failure source n r (s.abortReason options source)
              some (sr.1.finish source n sr.2)
            else some (s.setRound source n { r with
              task := .reading })
          else none
      | none => none
  | .settle source n result now =>
      match (s.rounds source)[n]? with
      | some r => if r.task = .reading then some (s.answer source n r result now) else none
      | none => none
  | .deadline source n =>
      match (s.rounds source)[n]? with
      | some r =>
          -- the timer aborts the round, and its failure is reported at once
          if r.armed then
            let r := { r with
              armed := false
              fired := true
              aborted := true }
            let sr := s.failure source n r (deadlineError options source)
            some (sr.1.setRound source n sr.2)
          else none
      | none => none
  | .interval source =>
      if 0 < s.intervals source then
        let s := { s with
          intervals := Function.update s.intervals source (s.intervals source - 1) }
        some (s.run source)
      else none
  | .stop => if s.stopped then none else some s.stop

end Sampler

namespace Gauges

/-- A nonnegative safe integer. -/
def IsCount (value : Option ℚ) : Prop :=
  ∃ n : ℕ, n ≤ 9007199254740991 ∧ value = some (n : ℚ)

/-- Every component is a count. -/
def IsSample : (source : BacklogSource) → Reading source → Prop
  | .outbox, count => IsCount count
  | .sqs, depth => IsCount depth.visible ∧ IsCount depth.inFlight ∧ IsCount depth.delayed

/-- The gauges of a source after a success. -/
def set (g : Gauges) : (source : BacklogSource) → Reading source → ℚ → Gauges
  | .outbox, count, time =>
      { g with
        pending := count
        timestamp := Function.update g.timestamp .outbox time
        success := Function.update g.success .outbox 1 }
  | .sqs, depth, time =>
      { g with
        visible := depth.visible
        inFlight := depth.inFlight
        delayed := depth.delayed
        timestamp := Function.update g.timestamp .sqs time
        success := Function.update g.success .sqs 1 }

/-- The error of a count that is none. -/
def invalidCount : JsError :=
  { message := js "Backlog count must be a nonnegative safe integer" }

theorem validateBacklogCount_count {value : Option ℚ} (h : IsCount value) :
    ∃ x, value = some x ∧ validateBacklogCount (some x) = .ok x := by
  obtain ⟨n, hn, rfl⟩ := h
  refine ⟨n, rfl, ?_⟩
  have hsafe : (n : ℚ) ≤ 9007199254740991 := by exact_mod_cast hn
  simp [validateBacklogCount, hsafe]

theorem validateBacklogCount_other {value : Option ℚ} (h : ¬ IsCount value) :
    validateBacklogCount value = .error invalidCount := by
  cases value with
  | none => rfl
  | some x =>
      have hno : ¬ (x.den = 1 ∧ 0 ≤ x ∧ x ≤ 9007199254740991) := by
        rintro ⟨hden, hpos, hsafe⟩
        have hx : x = ((x.num.toNat : ℕ) : ℚ) := by
          have hnum : ((x.num.toNat : ℕ) : ℤ) = x.num := Int.toNat_of_nonneg (by simpa using hpos)
          rw [← Int.cast_natCast, hnum]
          exact ((Rat.den_eq_one_iff x).mp hden).symm
        refine h ⟨x.num.toNat, ?_, congrArg some hx⟩
        rw [hx] at hsafe
        exact_mod_cast hsafe
      simp only [validateBacklogCount, if_neg hno, invalidCount]

/-- A valid sample sets the gauges of its source. -/
theorem record_sample (g : Gauges) {source : BacklogSource} {sample : Reading source} (time : ℚ)
    (h : IsSample source sample) :
    g.record source sample time = .ok (g.set source sample time) := by
  cases source with
  | outbox =>
      obtain ⟨x, hx, hvalid⟩ := validateBacklogCount_count h
      simp only [record, recordOutbox, hx, hvalid, set]
      rfl
  | sqs =>
      obtain ⟨hvisible, hinFlight, hdelayed⟩ := h
      obtain ⟨x, hx, hvisible⟩ := validateBacklogCount_count hvisible
      obtain ⟨y, hy, hinFlight⟩ := validateBacklogCount_count hinFlight
      obtain ⟨z, hz, hdelayed⟩ := validateBacklogCount_count hdelayed
      simp only [record, recordQueue, hx, hy, hz, hvisible, hinFlight, hdelayed, set]
      rfl

/-- **One bad component is enough for an error.** -/
theorem record_other (g : Gauges) {source : BacklogSource} {sample : Reading source} (time : ℚ)
    (h : ¬ IsSample source sample) : g.record source sample time = .error invalidCount := by
  cases source with
  | outbox =>
      simp only [record, recordOutbox, validateBacklogCount_other h]
      rfl
  | sqs =>
      simp only [record, recordQueue]
      by_cases hvisible : IsCount sample.visible
      · obtain ⟨x, hx, hvalid⟩ := validateBacklogCount_count hvisible
        rw [hx, hvalid]
        by_cases hinFlight : IsCount sample.inFlight
        · obtain ⟨y, hy, hvalid'⟩ := validateBacklogCount_count hinFlight
          rw [hy, hvalid']
          have hdelayed : ¬ IsCount sample.delayed := fun hd => h ⟨hvisible, hinFlight, hd⟩
          rw [validateBacklogCount_other hdelayed]
          rfl
        · rw [validateBacklogCount_other hinFlight]
          rfl
      · rw [validateBacklogCount_other hvisible]
        rfl

/-- What the gauges show of one source. -/
structure SameFor (b : BacklogSource) (g g' : Gauges) : Prop where
  pending : b = .outbox → g.pending = g'.pending
  visible : b = .sqs → g.visible = g'.visible
  inFlight : b = .sqs → g.inFlight = g'.inFlight
  delayed : b = .sqs → g.delayed = g'.delayed
  success : g.success b = g'.success b
  timestamp : g.timestamp b = g'.timestamp b

theorem SameFor.refl (b : BacklogSource) (g : Gauges) : SameFor b g g := by
  constructor <;> simp

theorem SameFor.symm {b : BacklogSource} {g g' : Gauges} (h : SameFor b g g') :
    SameFor b g' g := by
  constructor
  · exact fun hb => (h.pending hb).symm
  · exact fun hb => (h.visible hb).symm
  · exact fun hb => (h.inFlight hb).symm
  · exact fun hb => (h.delayed hb).symm
  · exact h.success.symm
  · exact h.timestamp.symm

theorem SameFor.trans {b : BacklogSource} {g g' g'' : Gauges} (h : SameFor b g g')
    (h' : SameFor b g' g'') : SameFor b g g'' := by
  constructor
  · exact fun hb => (h.pending hb).trans (h'.pending hb)
  · exact fun hb => (h.visible hb).trans (h'.visible hb)
  · exact fun hb => (h.inFlight hb).trans (h'.inFlight hb)
  · exact fun hb => (h.delayed hb).trans (h'.delayed hb)
  · exact h.success.trans h'.success
  · exact h.timestamp.trans h'.timestamp

theorem SameFor.set {b : BacklogSource} {g g' : Gauges} (h : SameFor b g g') (sample : Reading b)
    (time : ℚ) : SameFor b (g.set b sample time) (g'.set b sample time) := by
  cases b with
  | outbox => exact ⟨fun _ => rfl, nofun, nofun, nofun, by simp [Gauges.set], by simp [Gauges.set]⟩
  | sqs =>
      exact ⟨nofun, fun _ => rfl, fun _ => rfl, fun _ => rfl, by simp [Gauges.set],
        by simp [Gauges.set]⟩

theorem SameFor.recordFailure {b : BacklogSource} {g g' : Gauges} (h : SameFor b g g') :
    SameFor b (g.recordFailure b) (g'.recordFailure b) := by
  constructor
  · exact h.pending
  · exact h.visible
  · exact h.inFlight
  · exact h.delayed
  · simp [Gauges.recordFailure]
  · exact h.timestamp

end Gauges

/-! ## What a callback is -/

namespace Gauges

/-- What an outcome does to the gauges. -/
def after {source : BacklogSource} (g : Gauges) : Outcome source → Gauges
  | .success sample time =>
      match g.record source sample time with
      | .ok g' => g'
      | .error _ => g
  | .failure _ => g.recordFailure source

end Gauges

namespace Sampler

/-- An outcome is recorded, if there is one. -/
def enter (s : Sampler) (source : BacklogSource) (n : ℕ) : Option (Outcome source) → Sampler
  | none => s
  | some outcome =>
      { s with
        gauges := s.gauges.after outcome
        errors := match outcome with
          | .success _ _ => s.errors
          | .failure error => (source, error) :: s.errors
        log := { source := source, round := n, outcome := outcome } :: s.log }

/-- When a round records what at its end. -/
inductive Records (s : Sampler) (event : SamplerEvent) (source : BacklogSource) (n : ℕ)
    (r : Round) : Option (Outcome source) → Prop
  | nothing : s.stopped = true ∨ r.failed = true ∨ r.aborted = true →
      Records s event source n r none
  | success {sample now} : event = .settle source n (.ok sample) now → s.stopped = false →
      r.aborted = false → (s.gauges.record source sample (now / 1000)).isOk = true →
        Records s event source n r (some (.success sample (now / 1000)))
  | failure (error : JsError) : s.stopped = false → r.failed = false →
      Records s event source n r (some (.failure error))

/-- **The callbacks**, with what each of them changes. -/
inductive Steps (options : SamplerOptions) (s : Sampler) : SamplerEvent → Sampler → Prop
  | read {source n r} : (s.rounds source)[n]? = some r → r.task = .queued → r.aborted = false →
      Steps options s (.begin source n) (s.setRound source n { r with
        task := .reading })
  | close {event source n r outcome} (failed : Bool) : event.source? = some source →
      (s.rounds source)[n]? = some r → r.task ≠ .settled → Records s event source n r outcome →
      Steps options s event ((s.enter source n outcome).finish source n { r with
        failed := failed })
  | expire {source n r} : (s.rounds source)[n]? = some r → r.armed = true → s.stopped = false →
      r.failed = false → Steps options s (.deadline source n)
        ((s.enter source n (some (.failure (deadlineError options source)))).setRound source n
          { task := r.task, aborted := true, failed := true, armed := false, fired := true })
  | next {source} : 0 < s.intervals source → Steps options s (.interval source)
      (run { s with
        intervals := Function.update s.intervals source (s.intervals source - 1) } source)
  | stop : s.stopped = false → Steps options s .stop s.stop

/-! ## The fields of the states -/

section

variable {s : Sampler} {source b : BacklogSource} {n m : ℕ} {r : Round}

/-- The rounds after one of them changed. -/
theorem getElem?_setRound (s : Sampler) (source b : BacklogSource) (n m : ℕ) (r : Round) :
    ((s.setRound source n r).rounds b)[m]? =
      if b = source ∧ m = n then ((s.rounds b)[m]?).map (fun _ => r) else (s.rounds b)[m]? := by
  unfold setRound
  by_cases hb : b = source
  · subst hb
    by_cases hm : m = n
    · subst hm
      rcases lt_or_ge m (s.rounds b).length with hlt | hge
      · simp [hlt]
      · simp [hge]
    · simp [hm, Ne.symm hm]
  · simp [hb]

theorem length_setRound (s : Sampler) (source b : BacklogSource) (n : ℕ) (r : Round) :
    ((s.setRound source n r).rounds b).length = (s.rounds b).length := by
  unfold setRound
  by_cases hb : b = source
  · subst hb
    simp
  · simp [hb]

@[simp] theorem enter_rounds (outcome : Option (Outcome source)) :
    (s.enter source n outcome).rounds = s.rounds := by
  cases outcome with
  | none => rfl
  | some o => rfl

@[simp] theorem enter_intervals (outcome : Option (Outcome source)) :
    (s.enter source n outcome).intervals = s.intervals := by
  cases outcome with
  | none => rfl
  | some o => rfl

@[simp] theorem enter_stopped (outcome : Option (Outcome source)) :
    (s.enter source n outcome).stopped = s.stopped := by
  cases outcome with
  | none => rfl
  | some o => rfl

theorem finish_eq (s : Sampler) (source : BacklogSource) (n : ℕ) (r : Round) :
    s.finish source n r =
      { s.setRound source n { r with
          task := .settled
          armed := false } with
        intervals := if s.stopped then s.intervals
          else Function.update s.intervals source (s.intervals source + 1) } := by
  unfold finish
  by_cases h : s.stopped = true
  · simp [setRound, h]
  · simp [setRound, h]

theorem run_eq (hstopped : s.stopped = false) : s.run source = { s with
    rounds := Function.update s.rounds source (s.rounds source ++ [{}]) } := by
  simp [run, hstopped]

end

/-! ## One open round, or one timer -/

/-- What is recorded for a round. -/
def recordsOf (s : Sampler) (source : BacklogSource) (n : ℕ) : List Entry :=
  s.log.filter (fun e => decide (e.source = source ∧ e.round = n))

/-- A round is open and nothing is recorded; or its deadline has fired, and a failure is; or it is
over, and one outcome is, unless it was stopped. -/
inductive RoundState (s : Sampler) (source : BacklogSource) (n : ℕ) (r : Round) : Prop
  | opened : r.task ≠ .settled → r.fired = false → r.failed = false →
      (r.aborted = true → s.stopped = true) → s.recordsOf source n = [] → RoundState s source n r
  | late {error} : r.fired = true → (r.task ≠ .settled → r.failed = true) → r.aborted = true →
      r.armed = false →
      s.recordsOf source n = [⟨source, n, .failure error⟩] → RoundState s source n r
  | ended : r.task = .settled → r.fired = false → r.armed = false →
      (s.recordsOf source n).length ≤ 1 →
      (s.stopped = false → (s.recordsOf source n).length = 1) → RoundState s source n r

/-- The invariant of the rounds and of the timers. -/
structure Tidy (s : Sampler) : Prop where
  state : ∀ b (n : ℕ) (r : Round), (s.rounds b)[n]? = some r → RoundState s b n r
  alone : ∀ b (n : ℕ) (r : Round), (s.rounds b)[n]? = some r → n + 1 < (s.rounds b).length →
    r.task = .settled
  single : ∀ b, s.intervals b ≤ 1
  waiting : ∀ b, 0 < s.intervals b →
    s.stopped = false ∧ ∀ (n : ℕ) (r : Round), (s.rounds b)[n]? = some r →
      r.task = .settled
  known : ∀ e ∈ s.log, e.round < (s.rounds e.source).length
  quiet : s.stopped = true → ∀ b (n : ℕ) (r : Round), (s.rounds b)[n]? = some r →
    r.armed = false ∧ (r.task ≠ .settled → r.aborted = true)

section

variable {s s' : Sampler} {source b : BacklogSource} {n m : ℕ} {r : Round}

/-- The records of a round do not depend on the others. -/
theorem RoundState.frame (h : RoundState s b n r) (hstopped : s'.stopped = s.stopped)
    (hrecords : s'.recordsOf b n = s.recordsOf b n) : RoundState s' b n r := by
  cases h with
  | opened h₁ h₂ h₃ h₄ h₅ => exact .opened h₁ h₂ h₃ (hstopped ▸ h₄) (hrecords ▸ h₅)
  | late h₁ h₂ h₃ h₄ h₅ => exact .late h₁ h₂ h₃ h₄ (hrecords ▸ h₅)
  | ended h₁ h₂ h₃ h₄ h₅ => exact .ended h₁ h₂ h₃ (hrecords ▸ h₄) (hstopped ▸ hrecords ▸ h₅)

theorem recordsOf_enter_self (s : Sampler) (source : BacklogSource) (n : ℕ)
    (outcome : Option (Outcome source)) :
    (s.enter source n outcome).recordsOf source n =
      (outcome.map (fun o => (⟨source, n, o⟩ : Entry))).toList ++ s.recordsOf source n := by
  cases outcome with
  | none => rfl
  | some o => simp [enter, recordsOf]

theorem recordsOf_enter_ne (s : Sampler) (outcome : Option (Outcome source))
    (hne : ¬ (b = source ∧ m = n)) :
    (s.enter source n outcome).recordsOf b m = s.recordsOf b m := by
  cases outcome with
  | none => rfl
  | some o =>
      have hnot : ¬ (source = b ∧ n = m) := fun h => hne ⟨h.1.symm, h.2.symm⟩
      simp only [enter, recordsOf, List.filter_cons, decide_eq_true_eq, if_neg hnot]

theorem mem_log_enter {outcome : Option (Outcome source)} {e : Entry}
    (h : e ∈ (s.enter source n outcome).log) : e ∈ s.log ∨ e.source = source ∧ e.round = n := by
  cases outcome with
  | none => exact .inl h
  | some o =>
      rcases List.mem_cons.mp h with rfl | h
      · exact .inr ⟨rfl, rfl⟩
      · exact .inl h

/-- A deadline that may fire finds its round open. -/
theorem Tidy.armed (h : s.Tidy) (hr : (s.rounds b)[n]? = some r) (harmed : r.armed = true) :
    s.stopped = false ∧ r.failed = false := by
  constructor
  · cases hs : s.stopped with
    | false => rfl
    | true =>
        rw [(h.quiet hs b n r hr).1] at harmed
        cases harmed
  · cases h.state b n r hr with
    | opened _ _ hfailed => exact hfailed
    | late _ _ _ hoff =>
        rw [hoff] at harmed
        cases harmed
    | ended _ _ hoff =>
        rw [hoff] at harmed
        cases harmed

/-- What each callback is, once the rounds are tidy. -/
theorem steps_of_step {options : SamplerOptions} {event : SamplerEvent} (h : s.Tidy)
    (hstep : s.step options event = some s') : Steps options s event s' := by
  -- the failure of a round, and its end
  have hfailure : ∀ {source n} {r : Round} {error event}, (s.rounds source)[n]? = some r →
      r.task ≠ .settled → event.source? = some source →
      Steps options s event
        ((s.failure source n r error).1.finish source n (s.failure source n r error).2) := by
    intro source n r error event hr htask hevent
    unfold failure
    by_cases hno : (s.stopped || r.failed) = true
    · rw [if_pos hno]
      have hnothing : Records s event source n r none := by
        rw [Bool.or_eq_true] at hno
        exact .nothing (hno.imp_right Or.inl)
      exact .close r.failed hevent hr htask hnothing
    · rw [if_neg hno]
      rw [Bool.or_eq_true, not_or, Bool.not_eq_true, Bool.not_eq_true] at hno
      exact .close true hevent hr htask (.failure error hno.1 hno.2)
  cases event with
  | begin source n =>
      simp only [step] at hstep
      cases hr : (s.rounds source)[n]? with
      | none => simp [hr] at hstep
      | some r =>
          simp only [hr] at hstep
          split_ifs at hstep with hqueued haborted
          · obtain rfl := Option.some.inj hstep
            exact hfailure hr (by simp [hqueued]) rfl
          · obtain rfl := Option.some.inj hstep
            exact .read hr hqueued (Bool.not_eq_true _ ▸ haborted)
  | settle source n result now =>
      simp only [step] at hstep
      cases hr : (s.rounds source)[n]? with
      | none => simp [hr] at hstep
      | some r =>
          simp only [hr] at hstep
          split_ifs at hstep with hreading
          obtain rfl := Option.some.inj hstep
          have htask : r.task ≠ .settled := by simp [hreading]
          unfold answer
          cases result with
          | error error => exact hfailure hr htask rfl
          | ok sample =>
              simp only
              split_ifs with hno
              · rw [Bool.or_eq_true] at hno
                exact .close r.failed rfl hr htask (.nothing (hno.imp_right Or.inr))
              · rw [Bool.or_eq_true, not_or, Bool.not_eq_true, Bool.not_eq_true] at hno
                cases hrecord : s.gauges.record source sample (now / 1000) with
                | error error => exact hfailure hr htask rfl
                | ok gauges =>
                    have hsuccess : Records s (.settle source n (.ok sample) now) source n r
                        (some (.success sample (now / 1000))) :=
                      .success rfl hno.1 hno.2 (by rw [hrecord]; rfl)
                    have hclose : Steps options s (.settle source n (.ok sample) now)
                        ((s.enter source n (some (.success sample (now / 1000)))).finish source n
                          { r with
                            failed := r.failed }) :=
                      .close r.failed rfl hr htask hsuccess
                    simp only [enter, Gauges.after, hrecord] at hclose
                    exact hclose
  | deadline source n =>
      simp only [step] at hstep
      cases hr : (s.rounds source)[n]? with
      | none => simp [hr] at hstep
      | some r =>
          simp only [hr] at hstep
          split_ifs at hstep with harmed
          obtain rfl := Option.some.inj hstep
          obtain ⟨hstopped, hfailed⟩ := h.armed hr harmed
          have hexpire : Steps options s (.deadline source n) _ :=
            .expire hr harmed hstopped hfailed
          unfold failure
          rw [if_neg (by simp [hstopped, hfailed])]
          exact hexpire
  | interval source =>
      simp only [step] at hstep
      split_ifs at hstep with hpos
      obtain rfl := Option.some.inj hstep
      exact .next hpos
  | stop =>
      simp only [step] at hstep
      split_ifs at hstep with hstopped
      obtain rfl := Option.some.inj hstep
      exact .stop (Bool.not_eq_true _ ▸ hstopped)

/-! ## The invariant is kept -/

/-- One round changes, with what is recorded for it. -/
theorem Tidy.change (h : s.Tidy) (outcome : Option (Outcome source))
    (hr : (s.rounds source)[n]? = some r) {r' : Round}
    (hrounds : s'.rounds = ((s.enter source n outcome).setRound source n r').rounds)
    (hlog : s'.log = (s.enter source n outcome).log) (hstopped : s'.stopped = s.stopped)
    (hstate : RoundState s' source n r') (htask : r.task = .settled → r'.task = .settled)
    (hsingle : ∀ b, s'.intervals b ≤ 1)
    (hwaiting : ∀ b, 0 < s'.intervals b → s'.stopped = false ∧
      ((0 < s.intervals b ∧ (b = source → r'.task = .settled)) ∨
        (b = source ∧ r'.task = .settled ∧ r.task ≠ .settled)))
    (hquiet : s.stopped = true → r'.armed = false ∧ (r'.task ≠ .settled → r'.aborted = true)) :
    s'.Tidy := by
  -- one round changes, the others keep their places
  have hget : ∀ b m, (s'.rounds b)[m]? =
      if b = source ∧ m = n then ((s.rounds b)[m]?).map (fun _ => r') else (s.rounds b)[m]? := by
    intro b m
    rw [hrounds, getElem?_setRound, enter_rounds]
  have hlength : ∀ b, (s'.rounds b).length = (s.rounds b).length := by
    intro b
    rw [hrounds, length_setRound, enter_rounds]
  have hother : ∀ {b m x}, (s'.rounds b)[m]? = some x →
      b = source ∧ m = n ∧ x = r' ∨ ¬ (b = source ∧ m = n) ∧ (s.rounds b)[m]? = some x := by
    intro b m x hx
    rw [hget] at hx
    split_ifs at hx with hthis
    · obtain ⟨y, -, rfl⟩ := Option.map_eq_some_iff.mp hx
      exact .inl ⟨hthis.1, hthis.2, rfl⟩
    · exact .inr ⟨hthis, hx⟩
  constructor
  · intro b m x hx
    rcases hother hx with ⟨rfl, rfl, rfl⟩ | ⟨hne, hx⟩
    · exact hstate
    · refine (h.state b m x hx).frame hstopped ?_
      rw [← recordsOf_enter_ne s outcome hne, recordsOf, recordsOf, hlog]
  · intro b m x hx hm
    rw [hlength] at hm
    rcases hother hx with ⟨rfl, rfl, rfl⟩ | ⟨-, hx⟩
    · exact htask (h.alone _ _ r hr hm)
    · exact h.alone b m x hx hm
  · exact hsingle
  · intro b hb
    obtain ⟨hgoing, hcase⟩ := hwaiting b hb
    refine ⟨hgoing, ?_⟩
    intro m x hx
    rcases hother hx with ⟨rfl, rfl, rfl⟩ | ⟨hne, hx⟩
    · exact hcase.elim (fun hc => hc.2 rfl) (fun hc => hc.2.1)
    · rcases hcase with ⟨hc, -⟩ | ⟨rfl, -, hopen⟩
      · exact (h.waiting b hc).2 m x hx
      · -- the round that ends is the last one
        have hlt : n < (s.rounds b).length := (List.getElem?_eq_some_iff.mp hr).1
        have hm : m < (s.rounds b).length := (List.getElem?_eq_some_iff.mp hx).1
        have hlast : ¬ n + 1 < (s.rounds b).length := fun h' => hopen (h.alone b n r hr h')
        have hneq : m ≠ n := fun h' => hne ⟨rfl, h'⟩
        exact h.alone b m x hx (by omega)
  · intro e he
    rw [hlog] at he
    rw [hlength]
    rcases mem_log_enter he with he | ⟨hsource, hround⟩
    · exact h.known e he
    · rw [hsource, hround]
      exact (List.getElem?_eq_some_iff.mp hr).1
  · intro hs b m x hx
    rw [hstopped] at hs
    rcases hother hx with ⟨rfl, rfl, rfl⟩ | ⟨-, hx⟩
    · exact hquiet hs
    · exact h.quiet hs b m x hx

/-- An open round has no timer for the next one. -/
theorem Tidy.no_interval (h : s.Tidy) (hr : (s.rounds source)[n]? = some r)
    (htask : r.task ≠ .settled) : s.intervals source = 0 := by
  by_contra hpos
  exact htask ((h.waiting source (by omega)).2 n r hr)

/-- The read of a round begins. -/
theorem Tidy.read (h : s.Tidy) (hr : (s.rounds source)[n]? = some r) (htask : r.task = .queued)
    (haborted : r.aborted = false) : (s.setRound source n { r with
      task := .reading }).Tidy := by
  have hopen : r.task ≠ .settled := by simp [htask]
  refine h.change none hr rfl rfl rfl ?_ (fun hset => absurd hset hopen) h.single ?_ ?_
  · -- a round that was not aborted is open
    cases h.state source n r hr with
    | opened _ hfired hfailed haborts hrecords =>
        exact .opened (by simp) hfired hfailed haborts hrecords
    | late _ _ haborts =>
        rw [haborts] at haborted
        cases haborted
    | ended hset => exact absurd hset hopen
  · intro b hb
    refine ⟨(h.waiting b hb).1, .inl ⟨hb, ?_⟩⟩
    rintro rfl
    have hnone := h.no_interval hr hopen
    have hpos : 0 < s.intervals b := hb
    omega
  · intro hs
    have hquiet := h.quiet hs source n r hr
    rw [hquiet.2 hopen] at haborted
    cases haborted

/-- A round ends. -/
theorem Tidy.close (h : s.Tidy) (hr : (s.rounds source)[n]? = some r) (htask : r.task ≠ .settled)
    {event : SamplerEvent} {outcome : Option (Outcome source)}
    (hrecords : Records s event source n r outcome) (failed : Bool) :
    ((s.enter source n outcome).finish source n { r with
      failed := failed }).Tidy := by
  have hnone := h.no_interval hr htask
  rw [finish_eq]
  refine h.change outcome hr rfl rfl ?_ ?_ (fun hset => absurd hset htask) ?_ ?_ ?_
  · exact enter_stopped outcome
  · have hself := recordsOf_enter_self s source n outcome
    cases h.state source n r hr with
    | opened _ hfired hfailed haborts hempty =>
        rw [hempty, List.append_nil] at hself
        refine .ended rfl hfired rfl ?_ ?_
        · refine le_of_eq_of_le (congrArg List.length hself) ?_
          cases outcome with
          | none => exact Nat.zero_le 1
          | some o => exact le_refl 1
        · intro hnow
          have hgoing : s.stopped = false := (enter_stopped outcome).symm.trans hnow
          refine (congrArg List.length hself).trans ?_
          cases hrecords with
          | nothing hno =>
              -- an open round is only passed over when it was stopped
              have hstopped : s.stopped = true :=
                hno.elim id (fun hno => hno.elim (fun hf => by simp [hf] at hfailed) haborts)
              rw [hstopped] at hgoing
              cases hgoing
          | success => rfl
          | failure => rfl
    | late hfired hfailed haborts hoff hlate =>
        have hnothing : outcome = none := by
          cases hrecords with
          | nothing => rfl
          | success _ _ hnot =>
              rw [haborts] at hnot
              cases hnot
          | failure _ _ hnot =>
              rw [hfailed htask] at hnot
              cases hnot
        subst hnothing
        exact .late hfired (fun hset => absurd rfl hset) haborts rfl (hself.trans hlate)
    | ended hset => exact absurd hset htask
  · intro b
    by_cases hb : b = source
    · subst hb
      by_cases hs : s.stopped = true <;> simp [hs, hnone]
    · by_cases hs : s.stopped = true <;> simp [hs, hb, h.single b]
  · intro b hb
    by_cases hs : s.stopped = true
    · have hpos : 0 < s.intervals b := by simpa [hs] using hb
      rw [(h.waiting b hpos).1] at hs
      cases hs
    · refine ⟨by simpa [setRound] using hs, ?_⟩
      by_cases hsource : b = source
      · exact .inr ⟨hsource, rfl, htask⟩
      · have hpos : 0 < s.intervals b := by simpa [hs, hsource] using hb
        exact .inl ⟨hpos, fun h' => absurd h' hsource⟩
  · exact fun _ => ⟨rfl, fun hset => absurd rfl hset⟩

/-- The deadline of a round fires. -/
theorem Tidy.expire (h : s.Tidy) (hr : (s.rounds source)[n]? = some r) (harmed : r.armed = true)
    (error : JsError) :
    ((s.enter source n (some (.failure error))).setRound source n
      { task := r.task, aborted := true, failed := true, armed := false, fired := true }).Tidy := by
  obtain ⟨hgoing, -⟩ := h.armed hr harmed
  refine h.change (some (.failure error)) hr rfl rfl rfl ?_ id h.single ?_ ?_
  · have hself := recordsOf_enter_self s source n (some (.failure error))
    cases h.state source n r hr with
    | opened _ _ _ _ hempty =>
        rw [hempty] at hself
        exact .late rfl (fun _ => rfl) rfl rfl hself
    | late _ _ _ hoff =>
        rw [hoff] at harmed
        cases harmed
    | ended _ _ hoff =>
        rw [hoff] at harmed
        cases harmed
  · intro b hb
    refine ⟨hgoing, .inl ⟨hb, ?_⟩⟩
    rintro rfl
    exact (h.waiting b hb).2 n r hr
  · intro hs
    rw [hgoing] at hs
    cases hs

/-- The next round of a source begins when no round is open and no timer is left. -/
theorem Tidy.run (h : s.Tidy) (hgoing : s.stopped = false) (hnone : s.intervals source = 0)
    (hover : ∀ (n : ℕ) (r : Round), (s.rounds source)[n]? = some r → r.task = .settled) :
    (s.run source).Tidy := by
  rw [run_eq hgoing]
  -- a round is an old one, or the new one, which is the last
  have hcases : ∀ {b} {m : ℕ} {x : Round},
      (Function.update s.rounds source (s.rounds source ++ [({} : Round)]) b)[m]? = some x →
        (s.rounds b)[m]? = some x ∨
          b = source ∧ m = (s.rounds source).length ∧ x = ({} : Round) := by
    intro b m x hx
    by_cases hb : b = source
    · subst hb
      rw [Function.update_self] at hx
      rcases lt_or_ge m (s.rounds b).length with hlt | hge
      · rw [List.getElem?_append_left hlt] at hx
        exact .inl hx
      · rw [List.getElem?_append_right hge, List.getElem?_singleton] at hx
        split_ifs at hx with hzero
        exact .inr ⟨rfl, by omega, (Option.some.inj hx).symm⟩
    · rw [Function.update_of_ne hb] at hx
      exact .inl hx
  constructor
  · intro b m x hx
    rcases hcases hx with hx | ⟨rfl, rfl, rfl⟩
    · exact (h.state b m x hx).frame rfl rfl
    · refine .opened (by simp) rfl rfl (by simp) ?_
      rw [recordsOf, List.filter_eq_nil_iff]
      intro e he hthis
      have hknown := h.known e he
      obtain ⟨hsource, hround⟩ := of_decide_eq_true hthis
      rw [hsource, hround] at hknown
      omega
  · intro b m x hx hm
    by_cases hb : b = source
    · subst hb
      rcases hcases hx with hx | ⟨-, rfl, -⟩
      · exact hover m x hx
      · simp at hm
    · rcases hcases hx with hx | ⟨hsource, -⟩
      · have hlength :
            (Function.update s.rounds source (s.rounds source ++ [({} : Round)]) b).length =
              (s.rounds b).length := by
          rw [Function.update_of_ne hb]
        exact h.alone b m x hx (lt_of_lt_of_eq hm hlength)
      · exact absurd hsource hb
  · exact h.single
  · intro b hb
    refine ⟨hgoing, fun m x hx => ?_⟩
    rcases hcases hx with hx | ⟨rfl, -⟩
    · exact (h.waiting b hb).2 m x hx
    · have hpos : 0 < s.intervals b := hb
      omega
  · intro e he
    refine lt_of_lt_of_le (h.known e he) ?_
    by_cases hb : e.source = source
    · rw [hb]
      simp
    · simp [hb]
  · intro hs
    rw [hgoing] at hs
    cases hs

/-- The timer of the next round fires. -/
theorem Tidy.next (h : s.Tidy) (hpos : 0 < s.intervals source) :
    (Sampler.run { s with
      intervals := Function.update s.intervals source (s.intervals source - 1) } source).Tidy := by
  obtain ⟨hgoing, hover⟩ := h.waiting source hpos
  have hone := h.single source
  have hless : ∀ b, Function.update s.intervals source (s.intervals source - 1) b ≤
      s.intervals b := by
    intro b
    by_cases hb : b = source
    · subst hb
      simp
    · simp [hb]
  refine Tidy.run ?_ hgoing (by simp; omega) hover
  constructor
  · exact fun b m x hx => (h.state b m x hx).frame rfl rfl
  · exact h.alone
  · exact fun b => (hless b).trans (h.single b)
  · exact fun b hb => h.waiting b (lt_of_lt_of_le hb (hless b))
  · exact h.known
  · exact h.quiet

/-- The sampler is stopped. -/
theorem Tidy.stop (h : s.Tidy) : s.stop.Tidy := by
  have hcases : ∀ {b} {m : ℕ} {x : Round}, (s.stop.rounds b)[m]? = some x →
      ∃ y, (s.rounds b)[m]? = some y ∧ x = { y with
        armed := false
        aborted := y.aborted || y.task != .settled } := by
    intro b m x hx
    rw [Sampler.stop, List.getElem?_map] at hx
    obtain ⟨y, hy, rfl⟩ := Option.map_eq_some_iff.mp hx
    exact ⟨y, hy, rfl⟩
  constructor
  · intro b m x hx
    obtain ⟨y, hy, rfl⟩ := hcases hx
    cases h.state b m y hy with
    | opened h₁ h₂ h₃ h₄ h₅ => exact .opened h₁ h₂ h₃ (fun _ => rfl) h₅
    | late h₁ h₂ h₃ h₄ h₅ => exact .late h₁ h₂ (by simp [h₃]) rfl h₅
    | ended h₁ h₂ h₃ h₄ h₅ => exact .ended h₁ h₂ rfl h₄ (fun hs => (nomatch hs))
  · intro b m x hx hm
    obtain ⟨y, hy, rfl⟩ := hcases hx
    rw [Sampler.stop, List.length_map] at hm
    exact h.alone b m y hy hm
  · exact fun b => Nat.zero_le 1
  · intro b hb
    exact absurd hb (lt_irrefl 0)
  · intro e he
    rw [Sampler.stop, List.length_map]
    exact h.known e he
  · intro _ b m x hx
    obtain ⟨y, hy, rfl⟩ := hcases hx
    refine ⟨rfl, fun hopen => ?_⟩
    simp [bne_iff_ne.mpr hopen]

/-- **Every callback keeps the rounds tidy.** -/
theorem Tidy.steps {options : SamplerOptions} {event : SamplerEvent} (h : s.Tidy)
    (hsteps : Steps options s event s') : s'.Tidy := by
  cases hsteps with
  | read hr htask haborted => exact h.read hr htask haborted
  | close failed _ hr htask hrecords => exact h.close hr htask hrecords failed
  | expire hr harmed => exact h.expire hr harmed _
  | next hpos => exact h.next hpos
  | stop => exact h.stop

end

section

variable {s s' t : Sampler} {source b : BacklogSource} {n m : ℕ} {r : Round}
  {options : SamplerOptions} {event : SamplerEvent}

/-! ## What a callback records -/

/-- **What a callback records**: nothing; or a success, which sets the gauges of its source to a
valid sample; or a failure, which clears the success flag of its source and calls `onError`. -/
inductive Recorded (s s' : Sampler) (event : SamplerEvent) : Prop
  | nothing : s'.gauges = s.gauges → s'.errors = s.errors → s'.log = s.log → Recorded s s' event
  | success {source n sample now} : event = .settle source n (.ok sample) now →
      Gauges.IsSample source sample → s'.gauges = s.gauges.set source sample (now / 1000) →
      s'.errors = s.errors → s'.log = ⟨source, n, .success sample (now / 1000)⟩ :: s.log →
      Recorded s s' event
  | failure {source n error} : event.source? = some source →
      s'.gauges = s.gauges.recordFailure source → s'.errors = (source, error) :: s.errors →
      s'.log = ⟨source, n, .failure error⟩ :: s.log → Recorded s s' event

/-- After `stop` nothing is recorded, and no round is opened and no read begun. -/
structure Silent (s s' : Sampler) : Prop where
  stopped : s'.stopped = true
  gauges : s'.gauges = s.gauges
  errors : s'.errors = s.errors
  log : s'.log = s.log
  rounds : ∀ b, (s'.rounds b).length = (s.rounds b).length
  reads : ∀ b (n : ℕ) (r' : Round), (s'.rounds b)[n]? = some r' → r'.task = .reading →
    ∃ r, (s.rounds b)[n]? = some r ∧ r.task = .reading

theorem Silent.trans {s'' : Sampler} (h : Silent s s') (h' : Silent s' s'') : Silent s s'' := by
  constructor
  · exact h'.stopped
  · exact h'.gauges.trans h.gauges
  · exact h'.errors.trans h.errors
  · exact h'.log.trans h.log
  · exact fun b => (h'.rounds b).trans (h.rounds b)
  · intro b n r'' hr'' htask
    obtain ⟨r', hr', htask⟩ := h'.reads b n r'' hr'' htask
    exact h.reads b n r' hr' htask

theorem Silent.refl (h : s.stopped = true) : Silent s s := by
  constructor
  · exact h
  · rfl
  · rfl
  · rfl
  · exact fun _ => rfl
  · exact fun _ _ r hr htask => ⟨r, hr, htask⟩

/-- Two samplers that a source cannot tell apart. -/
structure SameFor (b : BacklogSource) (s t : Sampler) : Prop where
  rounds : s.rounds b = t.rounds b
  intervals : s.intervals b = t.intervals b
  stopped : s.stopped = t.stopped
  gauges : s.gauges.SameFor b t.gauges
  errors : s.errors.filter (fun e => decide (e.1 = b)) =
    t.errors.filter (fun e => decide (e.1 = b))
  log : s.log.filter (fun e => decide (e.source = b)) =
    t.log.filter (fun e => decide (e.source = b))

theorem SameFor.refl (b : BacklogSource) (s : Sampler) : SameFor b s s :=
  ⟨rfl, rfl, rfl, .refl b s.gauges, rfl, rfl⟩

theorem SameFor.trans {u : Sampler} (h : SameFor b s t) (h' : SameFor b t u) : SameFor b s u :=
  ⟨h.rounds.trans h'.rounds, h.intervals.trans h'.intervals, h.stopped.trans h'.stopped,
    h.gauges.trans h'.gauges, h.errors.trans h'.errors, h.log.trans h'.log⟩

theorem SameFor.symm (h : SameFor b s t) : SameFor b t s :=
  ⟨h.rounds.symm, h.intervals.symm, h.stopped.symm, h.gauges.symm, h.errors.symm, h.log.symm⟩

theorem SameFor.setRound (h : SameFor b s t) (n : ℕ) (r : Round) :
    SameFor b (s.setRound b n r) (t.setRound b n r) := by
  refine ⟨?_, h.intervals, h.stopped, h.gauges, h.errors, h.log⟩
  simp only [Sampler.setRound, Function.update_self, h.rounds]

theorem SameFor.failure (h : SameFor b s t) (n : ℕ) (r : Round) (error : JsError) :
    SameFor b (s.failure b n r error).1 (t.failure b n r error).1 ∧
      (s.failure b n r error).2 = (t.failure b n r error).2 := by
  unfold Sampler.failure
  rw [h.stopped]
  split_ifs
  · exact ⟨h, rfl⟩
  · refine ⟨⟨h.rounds, h.intervals, rfl, h.gauges.recordFailure, ?_, ?_⟩, rfl⟩
    · simp [h.errors]
    · simp [h.log]

theorem SameFor.finish (h : SameFor b s t) (n : ℕ) (r : Round) :
    SameFor b (s.finish b n r) (t.finish b n r) := by
  have hround := h.setRound n { r with
    task := .settled
    armed := false }
  rw [finish_eq, finish_eq]
  refine ⟨hround.rounds, ?_, h.stopped, h.gauges, h.errors, h.log⟩
  simp only [h.stopped]
  split_ifs
  · exact h.intervals
  · simp [h.intervals]

theorem SameFor.failed (h : SameFor b s t) (n : ℕ) (r : Round) (error : JsError) :
    SameFor b ((s.failure b n r error).1.finish b n (s.failure b n r error).2)
      ((t.failure b n r error).1.finish b n (t.failure b n r error).2) := by
  obtain ⟨hfailure, hround⟩ := h.failure n r error
  rw [hround]
  exact hfailure.finish n _

theorem SameFor.answer (h : SameFor b s t) (n : ℕ) (r : Round)
    (result : Except JsError (Reading b)) (now : ℚ) :
    SameFor b (s.answer b n r result now) (t.answer b n r result now) := by
  unfold Sampler.answer
  cases result with
  | error error => exact h.failed n r error
  | ok sample =>
      simp only [h.stopped]
      split_ifs
      · exact h.finish n r
      · by_cases hsample : Gauges.IsSample b sample
        · rw [Gauges.record_sample _ _ hsample, Gauges.record_sample _ _ hsample]
          refine SameFor.finish ?_ n r
          refine ⟨h.rounds, h.intervals, rfl, h.gauges.set sample _, h.errors, ?_⟩
          simp [h.log]
        · rw [Gauges.record_other _ _ hsample, Gauges.record_other _ _ hsample]
          exact h.failed n r Gauges.invalidCount

theorem SameFor.run (h : SameFor b s t) : SameFor b (s.run b) (t.run b) := by
  unfold Sampler.run
  rw [h.stopped]
  split_ifs
  · exact h
  · refine ⟨?_, h.intervals, rfl, h.gauges, h.errors, h.log⟩
    simp only [Function.update_self, h.rounds]

/-- **What a source does depends on nothing of the other source.** -/
theorem SameFor.step (h : SameFor b s t) (hevent : event.source? = some b ∨ event = .stop)
    (hstep : s.step options event = some s') :
    ∃ t', t.step options event = some t' ∧ SameFor b s' t' := by
  cases event with
  | begin source n =>
      obtain rfl : source = b := Option.some.inj (hevent.resolve_right (by simp))
      simp only [Sampler.step, h.rounds] at hstep ⊢
      cases hr : (t.rounds source)[n]? with
      | none => simp [hr] at hstep
      | some r =>
          simp only [hr] at hstep ⊢
          split_ifs at hstep ⊢
          · obtain rfl := Option.some.inj hstep
            have hreason : s.abortReason options source = t.abortReason options source := by
              simp only [abortReason, h.stopped]
            rw [hreason]
            exact ⟨_, rfl, h.failed n r _⟩
          · obtain rfl := Option.some.inj hstep
            exact ⟨_, rfl, h.setRound n _⟩
  | settle source n result now =>
      obtain rfl : source = b := Option.some.inj (hevent.resolve_right (by simp))
      simp only [Sampler.step, h.rounds] at hstep ⊢
      cases hr : (t.rounds source)[n]? with
      | none => simp [hr] at hstep
      | some r =>
          simp only [hr] at hstep ⊢
          split_ifs at hstep ⊢
          obtain rfl := Option.some.inj hstep
          exact ⟨_, rfl, h.answer n r result now⟩
  | deadline source n =>
      obtain rfl : source = b := Option.some.inj (hevent.resolve_right (by simp))
      simp only [Sampler.step, h.rounds] at hstep ⊢
      cases hr : (t.rounds source)[n]? with
      | none => simp [hr] at hstep
      | some r =>
          simp only [hr] at hstep ⊢
          split_ifs at hstep ⊢
          obtain rfl := Option.some.inj hstep
          obtain ⟨hfailure, hround⟩ := h.failure n { r with
            armed := false
            fired := true
            aborted := true } (deadlineError options source)
          rw [hround]
          exact ⟨_, rfl, hfailure.setRound n _⟩
  | interval source =>
      obtain rfl : source = b := Option.some.inj (hevent.resolve_right (by simp))
      simp only [Sampler.step, h.intervals] at hstep ⊢
      split_ifs at hstep ⊢
      obtain rfl := Option.some.inj hstep
      refine ⟨_, rfl, SameFor.run ⟨h.rounds, ?_, h.stopped, h.gauges, h.errors, h.log⟩⟩
      simp
  -- the projection stops at the same time
  | stop =>
      simp only [Sampler.step, h.stopped] at hstep ⊢
      split_ifs at hstep ⊢
      obtain rfl := Option.some.inj hstep
      refine ⟨_, rfl, ?_, rfl, rfl, h.gauges, h.errors, h.log⟩
      simp only [Sampler.stop, h.rounds]

/-! ## Runs -/

/-- Any callback may come at any time. -/
def AnyCallback (_ : Sampler) (_ : SamplerEvent) : Prop :=
  True

theorem Tidy.of_run {start : Sampler → Prop} (hstart : ∀ s₀, start s₀ → s₀.Tidy)
    (h : Run start (step options) AnyCallback s) : s.Tidy := by
  refine h.invariant (I := Tidy) hstart ?_
  intro s event s' hs _ hstep
  exact hs.steps (steps_of_step hs hstep)

/-- A round that is over or out of time, in a sampler that goes on, has one outcome. -/
theorem RoundState.record (h : RoundState s b n r) (hgoing : s.stopped = false)
    (hdone : r.task = .settled ∨ r.fired = true) : ∃ e, s.recordsOf b n = [e] := by
  cases h with
  | opened hopen hfired =>
      rcases hdone with hdone | hdone
      · exact absurd hdone hopen
      · rw [hfired] at hdone
        cases hdone
  | late _ _ _ _ hlate => exact ⟨_, hlate⟩
  | ended _ _ _ _ hone => exact List.length_eq_one_iff.mp (hone hgoing)

namespace Sample

end Sample

end

end Sampler
