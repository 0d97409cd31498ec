/-
# What a handler does by the clock

An attempt that failed leaves `nextAttemptAt` on the delivery row; until then the row is not
to be attempted, and the message is hidden, in whole seconds and for twelve hours at most.
A handler learns the time in pieces: it looks the row up, reads the clock, reads it again
to say for how long the message is hidden, and performs other operations in between.

`Timing` keeps what a process has learnt from the clock and from the row.  The protocol
`timely` is followed beside the one of `Phases.lean`, and its contract holds in every run:

* `hidden_until_due`: a message that is hidden after a failed attempt, or because its row is
  not due, stays hidden until the row is due.
* `deferred_writes_nothing`: a handler that counts a deferral has written neither a delivery
  row nor a dead letter, and will not.
-/
import Waybill.Effects
import Waybill.Safety

open Worker Publisher Api

/-! ## What is learnt from the clock -/

/-- What a process has learnt about the schedule of a delivery. -/
inductive Timing where
  /-- a handler, before it has looked the delivery row up -/
  | early
  /-- the row found is complete -/
  | complete
  /-- the row found has a time, and the clock has not been read since -/
  | found (w : ℚ)
  /-- the row may be attempted -/
  | due
  /-- its time has not come -/
  | notDue (w : ℚ)
  /-- at the time `asked` it was to be hidden for `delay`, as a deferral or after an attempt -/
  | hide (asked delay : ℚ) (deferral : Bool)
  /-- an attempt is under way; `asked` is the time read last in it -/
  | attempting (asked : Option ℚ)
  /-- the attempt failed, and the share `x` of the longest delay was drawn -/
  | drawn (asked x : ℚ)
  /-- and the clock was read once more, at `again` -/
  | scheduled (asked x again : ℚ)
  /-- a handler that has counted a deferral, or failed -/
  | gone
  /-- every other process -/
  | elsewhere

/-- The time `nextAttemptAt` gives for an attempt, by the clock and the share drawn. -/
def retryTime (asked x : ℚ) (attemptCount : ℕ) : ℚ :=
  asked + ⌊x * (min (baseDelayMs * 2 ^ (attemptCount - 1)) maxDelayMs + 1)⌋

namespace Op

/-- The operation writes a delivery row or a dead letter. -/
def writesRows : Op → Bool
  | .createDelivery _ => true
  | .updateDelivery .. => true
  | .upsertDeadLetter _ => true
  | _ => false

/-- The operation counts a deferral. -/
def defers : Op → Bool
  | .recordDeferral _ => true
  | _ => false

/-- The operation hides a message. -/
def setsVisibility : Op → Bool
  | .changeVisibility .. => true
  | _ => false

/-- The operation does none of the three. -/
def passive (op : Op) : Bool := !op.writesRows && !op.defers && !op.setsVisibility

/-- The time of the next attempt that the operation writes. -/
def retriesAt : Op → Option ℚ
  | .updateDelivery _ data => data.nextAttemptAt.join
  | _ => none

end Op

/-- The operations a process may perform. -/
def Timely : Timing → Op → Prop
  -- before the row is found or written nothing was promised
  | .early, op => op.writesRows = false
  | .complete, op => op.passive = true
  | .found _, op => op = .now
  | .due, op => op.passive = true
  | .notDue _, op => op = .now
  -- the message is hidden for the delay, and after a deferral also counted
  | .hide _ delay deferral, op =>
      (∃ r, op = .releaseLease r) ∨
        (∃ r, op = .changeVisibility r (visibilityTimeoutSeconds delay)) ∨
        deferral = true ∧ op.defers = true
  | .attempting _, op => op.defers = false ∧ op.setsVisibility = false ∧ op.retriesAt = none
  | .drawn .., op => op = .now
  -- the one write that sets the next time, with the time that was drawn
  | .scheduled asked x _, op =>
      ∃ id error n, op = .updateDelivery id (failedData error (retryTime asked x n))
  | .gone, _ => False
  | .elsewhere, op => op.passive = true

/-- After the look at the delivery row. -/
def afterFind : Option Delivery → Timing
  | none => .due
  | some d =>
      if d.status.terminal then .complete
      else match d.nextAttemptAt with
        | none => .due
        | some w => .found w

/-- The clock is read, with the time of the row known. -/
def whetherDue (w t : ℚ) : Timing := if w > t then .notDue w else .due

/-- The row is to be attempted again at the time `w`. -/
def hideForRetry (again : ℚ) : Option ℚ → Timing
  | none => .gone
  | some w => .hide again (max (w - again) 1000) false

/-- Where an answer leads. -/
def Timing.next : Timing → (op : Op) → Except JsError op.Res → Timing
  | .early, .findDelivery .., .ok row => afterFind row
  | .found w, .now, .ok t => whetherDue w t
  | .notDue w, .now, .ok (t : ℚ) => .hide t (w - t) true
  | .due, .findDelivery .., .ok _ => .attempting none
  | .attempting _, .now, .ok t => .attempting (some t)
  | .attempting (some asked), .random, .ok x => .drawn asked x
  | .drawn asked x, .now, .ok again => .scheduled asked x again
  | .scheduled _ _ again, op, .ok _ => hideForRetry again op.retriesAt
  | .attempting asked, _, .error _ => .attempting asked
  | .elsewhere, _, _ => .elsewhere
  | .early, .recordDeferral _, _ => .gone
  | .hide .., .recordDeferral _, _ => .gone
  | τ, _, .ok _ => τ
  | _, _, .error _ => .gone

/-- The protocol of the clock. -/
abbrev timely : Protocol Services where
  Phase := Timing
  Allows := Timely
  next := Timing.next

/-! ## The handler keeps to it -/

/-- How a handler may end: with an acknowledgement only during an attempt. -/
def EndsTimely (m : Message) : Except JsError Acknowledge → Timing → Prop
  | .ok (some ack), τ => ack = acknowledgeMessage m.id ∧ ∃ asked, τ = .attempting asked
  | _, _ => True

/-- An attempt is under way. -/
def Attempting (τ : Timing) : Prop := ∃ asked, τ = .attempting asked

section

variable {env : Env} {m : Message} {q : QueueMessage} {d : Delivery}

/-- One operation, and what follows its answer at the timing it leads to. -/
theorem timely_call {α : Type} {op : Op} {f : op.Res → Async α} {τ : Timing}
    {Q : Except JsError α → Timing → Prop} (ψ : op.Res → Timing) (hallow : Timely τ op)
    (hnext : ∀ a, τ.next op (.ok a) = ψ a) (herr : ∀ e, Q (.error e) (τ.next op (.error e)))
    (hok : ∀ a, timely.Follows (f a) (ψ a) Q) :
    timely.Follows (@Prog.perform Services op >>= f) τ Q :=
  Protocol.Follows.step ψ hallow hnext herr hok

/-- One operation of an attempt that goes on. -/
theorem timely_step {α : Type} {op : Op} {f : op.Res → Async α} {τ : Timing}
    {Q : Except JsError α → Timing → Prop} (hτ : Attempting τ)
    (hop : op.defers = false ∧ op.setsVisibility = false ∧ op.retriesAt = none)
    (hrandom : op ≠ .random)
    (herr : ∀ e σ, Attempting σ → Q (.error e) σ)
    (hok : ∀ a σ, Attempting σ → timely.Follows (f a) σ Q) :
    timely.Follows (@Prog.perform Services op >>= f) τ Q := by
  obtain ⟨asked, rfl⟩ := hτ
  have hnext : ∀ r, Attempting (Timing.next (.attempting asked) op r) := by
    intro r
    cases op <;> cases r <;> first | exact ⟨_, rfl⟩ | exact absurd rfl hrandom
  exact timely_call _ hop (fun _ => rfl) (fun e => herr e _ (hnext _)) fun a => hok a _ (hnext _)

/-- The last operation of an attempt's part. -/
theorem timely_last {op : Op} {τ : Timing} {Q : Except JsError op.Res → Timing → Prop}
    (hτ : Attempting τ) (hop : op.defers = false ∧ op.setsVisibility = false ∧ op.retriesAt = none)
    (hrandom : op ≠ .random) (hQ : ∀ r σ, Attempting σ → Q r σ) :
    timely.Follows (@Prog.perform Services op) τ Q := by
  refine (Protocol.follows_perform (P := timely) op τ Q).mpr ?_
  obtain ⟨asked, rfl⟩ := hτ
  refine ⟨hop, fun r => hQ r _ ?_⟩
  cases op <;> cases r <;> first | exact ⟨_, rfl⟩ | exact absurd rfl hrandom

/-- Hiding a message for the time that was asked for. -/
theorem timely_hide {asked delayMs : ℚ} {deferral : Bool} {reason : Option DeferralReason}
    {Q : Except JsError Unit → Timing → Prop} (hreason : reason.isSome → deferral = true)
    (hQ : ∀ r τ, Q r τ) :
    timely.Follows (hideUntil m.id delayMs reason) (.hide asked delayMs deferral) Q := by
  refine timely_call (fun _ => .hide asked delayMs deferral) (.inl ⟨_, rfl⟩)
    (fun _ => rfl) (fun _ => hQ _ _) fun _ => ?_
  refine timely_call (fun _ => .hide asked delayMs deferral) (.inr (.inl ⟨_, rfl⟩))
    (fun _ => rfl) (fun _ => hQ _ _) fun _ => ?_
  cases reason with
  | none => exact hQ _ _
  | some reason =>
      exact Protocol.Follows.last (P := timely) (fun _ => Timing.gone)
        (.inr (.inr ⟨hreason rfl, rfl⟩)) (fun _ => rfl) (fun _ => hQ _ _) fun _ => hQ _ _

/-- A handler that hides its message and returns. -/
theorem timely_hide_return {asked delayMs : ℚ} {reason : DeferralReason} :
    timely.Follows (do
      hideUntil m.id delayMs (some reason)
      return (none : Acknowledge)) (.hide asked delayMs true) (EndsTimely m) :=
  (timely_hide (fun _ => rfl) fun _ _ => trivial).bind (M := fun _ _ => True)
    (fun _ _ _ => trivial) (fun _ _ _ => trivial)

/-- A handler that hides its message before it has looked the row up. -/
theorem timely_hide_early {delayMs : ℚ} {reason : DeferralReason} :
    timely.Follows (do
      hideUntil m.id delayMs (some reason)
      return (none : Acknowledge)) .early (EndsTimely m) := by
  simp only [hideUntil, bind_assoc]
  refine timely_call (fun _ => .early) rfl (fun _ => rfl) (fun _ => trivial) fun _ => ?_
  refine timely_call (fun _ => .early) rfl (fun _ => rfl) (fun _ => trivial) fun _ => ?_
  exact timely_call (fun _ => .gone) rfl (fun _ => rfl) (fun _ => trivial)
    fun _ => trivial

/-- A handler that deletes its message and returns. -/
theorem timely_acknowledge_return {τ : Timing} (hrel : Timely τ (.releaseLease m.id))
    (hstay : ∀ a, τ.next (.releaseLease m.id) (.ok a) = τ) (hdel : Timely τ (.deleteMessage m.id)) :
    timely.Follows (do
      acknowledgeMessage m.id
      return (none : Acknowledge)) τ (EndsTimely m) := by
  simp only [acknowledgeMessage, bind_assoc]
  refine timely_call (fun _ => τ) hrel hstay (fun _ => trivial) fun _ => ?_
  exact timely_call _ hdel (fun _ => rfl) (fun _ => trivial) fun _ => trivial

/-- The acknowledgement a handler returns. -/
theorem timely_acknowledge {τ : Timing} (hτ : Attempting τ) :
    timely.Follows (acknowledgeMessage m.id) τ (fun _ σ => Attempting σ) :=
  timely_step hτ ⟨rfl, rfl, rfl⟩ (by simp) (fun _ _ h => h) fun _ _ h =>
    timely_last h ⟨rfl, rfl, rfl⟩ (by simp) fun _ _ h => h

/-- Moving a delivery to the dead letters. -/
theorem timely_moveToDeadLetter {τ : Timing} (hτ : Attempting τ) (error : JsString) :
    timely.Follows (moveToDeadLetter d env.receiverUrl error q m.id) τ
      (fun _ σ => Attempting σ) := by
  have hbury : ∀ key σ, Attempting σ → timely.Follows (do
      let _ ← createDeadLetter (deadLetterOf d env.receiverUrl error key)
      let _ ← markDeadLettered d.id error
      acknowledgeMessage m.id) σ (fun _ σ => Attempting σ) := by
    intro key σ hσ
    refine timely_step hσ ⟨rfl, rfl, rfl⟩ (by simp) (fun _ _ h => h) fun _ _ h => ?_
    refine timely_step h ⟨rfl, rfl, rfl⟩ (by simp) (fun _ _ h => h) fun _ _ h => ?_
    exact timely_acknowledge h
  simp only [moveToDeadLetter, archivePayload]
  cases truthyKey q.payloadS3Key with
  | some key => exact hbury key τ hτ
  | none =>
      simp only [bind_assoc, pure_bind]
      exact timely_step hτ ⟨rfl, rfl, rfl⟩ (by simp) (fun _ _ h => h) fun _ σ h =>
        hbury (archiveKey q.eventId) σ h

/-- Scheduling a retry: the clock is read, the share drawn, the clock read again. -/
theorem timely_scheduleRetry {τ : Timing} (hτ : Attempting τ) {n : ℕ} (error : JsString)
    {Q : Except JsError Unit → Timing → Prop} (hQ : ∀ r σ, Q r σ) :
    timely.Follows (scheduleRetry d.id n error m.id) τ Q := by
  obtain ⟨asked, rfl⟩ := hτ
  simp only [scheduleRetry, nextAttemptAt, backoffDelayMs, bind_assoc, pure_bind]
  refine timely_call (fun t => .attempting (some t)) ⟨rfl, rfl, rfl⟩ (fun _ => rfl)
    (fun _ => hQ _ _) fun t => ?_
  refine timely_call (fun x => .drawn t x) ⟨rfl, rfl, rfl⟩ (fun _ => rfl)
    (fun _ => hQ _ _) fun x => ?_
  refine timely_call (fun (again : ℚ) => .scheduled t x again) rfl (fun _ => rfl)
    (fun _ => hQ _ _) fun (again : ℚ) => ?_
  refine timely_call
    (fun _ => .hide again (max (retryTime t x n - again) 1000) false) ⟨d.id, error, n, rfl⟩
    (fun _ => rfl) (fun _ => hQ _ _) fun _ => ?_
  exact timely_hide (fun h => absurd h Bool.false_ne_true) hQ

/-- An attempt that failed. -/
theorem timely_settleFailure {τ : Timing} (hτ : Attempting τ) (error : JsString) :
    timely.Follows (settleFailure env m q d error) τ (EndsTimely m) := by
  unfold settleFailure
  cases isExhausted env d.attemptCount with
  | error e => exact trivial
  | ok exhausted =>
      cases exhausted with
      | true =>
          exact (timely_moveToDeadLetter hτ error).bind (fun _ _ _ => trivial)
            (fun _ _ _ => trivial)
      | false =>
          exact (timely_scheduleRetry hτ error (Q := fun _ _ => True) fun _ _ => trivial).bind
            (fun _ _ _ => trivial) (fun _ _ _ => trivial)

/-- Preparing the webhook. -/
theorem timely_prepareWebhook {τ : Timing} (hτ : Attempting τ) :
    timely.Follows (prepareWebhook q) τ (fun _ σ => Attempting σ) := by
  unfold prepareWebhook
  rw [Protocol.follows_attempt]
  simp only [findTenantSigningSecret, bind_assoc]
  refine timely_step hτ ⟨rfl, rfl, rfl⟩ (by simp) (fun _ _ h => h) fun tenant σ hσ => ?_
  cases (tenant.map Tenant.hmacSecret).filter (fun s => !s.isEmpty) with
  | none => exact hσ
  | some secret =>
      have hload : timely.Follows (loadPayload q) σ (fun _ σ => Attempting σ) := by
        unfold loadPayload
        cases truthyKey q.payloadS3Key with
        | none => exact hσ
        | some key =>
            refine timely_step hσ ⟨rfl, rfl, rfl⟩ (by simp) (fun _ _ h => h) fun body σ hσ => ?_
            cases body with
            | none => exact hσ
            | some text =>
                change timely.Follows (Prog.getOrThrow (Json.parse text) syntaxError) _ _
                cases Json.parse text <;> exact hσ
      exact hload.bind (fun _ _ h => h) (fun _ _ h => h)

/-- Posting the webhook. -/
theorem timely_postWebhook {τ : Timing} (hτ : Attempting τ) (body : Json) (secret : JsString) :
    timely.Follows (postWebhook env env.receiverUrl body secret) τ
      (fun _ σ => Attempting σ) := by
  unfold postWebhook
  have hcall : timely.Follows (Prog.attempt (do
      let signature ← signWebhook env body.stringify secret
      Services.fetch env.receiverUrl body.stringify signature)) τ
      (fun _ σ => Attempting σ) := by
    rw [Protocol.follows_attempt]
    unfold signWebhook
    cases secret.isEmpty with
    | true => exact hτ
    | false => exact timely_last hτ ⟨rfl, rfl, rfl⟩ (by simp) fun _ _ h => h
  refine hcall.bind (fun response σ hσ => ?_) (fun _ _ h => h)
  cases response with
  | error e => exact hσ
  | ok status =>
      simp only
      split_ifs <;> exact hσ

/-- Recording an outcome in the circuit. -/
theorem timely_writeOutcome {τ : Timing} (hτ : Attempting τ)
    (next : CircuitSnapshot → ℚ → CircuitSnapshot) :
    timely.Follows (do
      let current ← readCircuitState env.receiverUrl
      let t ← Services.now
      writeCircuitState env.receiverUrl (next current t)
        (Circuit.toOverrides Circuit.defaultConfig)
      return next current t) τ (fun _ σ => Attempting σ) := by
  simp only [readCircuitState, writeCircuitState, bind_assoc, pure_bind]
  refine timely_step hτ ⟨rfl, rfl, rfl⟩ (by simp) (fun _ _ h => h) fun raw _ h => ?_
  refine timely_step h ⟨rfl, rfl, rfl⟩ (by simp) (fun _ _ h => h) fun t _ h => ?_
  refine timely_step h ⟨rfl, rfl, rfl⟩ (by simp) (fun _ _ h => h) fun _ _ h => ?_
  exact timely_step h ⟨rfl, rfl, rfl⟩ (by simp) (fun _ _ h => h) fun _ _ h => h

/-- From `postWebhook` on. -/
theorem timely_deliverWebhook {τ : Timing} (hτ : Attempting τ) (secret : JsString)
    (payload : Json) :
    timely.Follows (deliverWebhook env m q d secret payload) τ (EndsTimely m) := by
  unfold deliverWebhook
  refine (timely_postWebhook hτ _ secret).bind (fun result σ hσ => ?_) (fun _ _ _ => trivial)
  cases result with
  | ok status =>
      refine Protocol.Follows.bind (timely_writeOutcome hσ _) (fun _ σ hσ => ?_)
        (fun _ _ _ => trivial)
      exact timely_step hσ ⟨rfl, rfl, rfl⟩ (by simp) (fun _ _ _ => trivial) fun _ _ h => ⟨rfl, h⟩
  | failed status error =>
      refine Protocol.Follows.bind (timely_writeOutcome hσ _) (fun _ σ hσ => ?_)
        (fun _ _ _ => trivial)
      exact timely_settleFailure hσ error

/-- From `upsertInFlight` on. -/
theorem timely_attemptDelivery : timely.Follows (attemptDelivery env m q) .due (EndsTimely m) := by
  have hprepared : ∀ row (f : Except JsError (JsString × Json) → Async Acknowledge),
      (∀ e, f (.error e) = settleFailure env m q row e.message) →
      (∀ sp : JsString × Json, f (.ok sp) = deliverWebhook env m q row sp.1 sp.2) →
      ∀ σ, Attempting σ → timely.Follows (prepareWebhook q >>= f) σ (EndsTimely m) := by
    intro row f herror hok σ hσ
    refine (timely_prepareWebhook hσ).bind (fun prepared σ hσ => ?_) (fun _ _ _ => trivial)
    cases prepared with
    | error e =>
        rw [herror]
        exact timely_settleFailure hσ e.message
    | ok sp =>
        rw [hok]
        exact timely_deliverWebhook hσ sp.1 sp.2
  simp only [attemptDelivery, upsertInFlight, bind_assoc]
  refine timely_call (fun _ => .attempting none) rfl (fun _ => rfl) (fun _ => trivial)
    fun found => ?_
  refine timely_step ⟨_, rfl⟩ ⟨rfl, rfl, rfl⟩ (by simp) (fun _ _ _ => trivial) fun t σ hσ => ?_
  cases found with
  | some row =>
      exact timely_step hσ ⟨rfl, rfl, rfl⟩ (by simp) (fun _ _ _ => trivial)
        fun row => hprepared row _ (fun _ => rfl) fun _ => rfl
  | none =>
      exact timely_step hσ ⟨rfl, rfl, rfl⟩ (by simp) (fun _ _ _ => trivial)
        fun row => hprepared row _ (fun _ => rfl) fun _ => rfl

/-- An attempt that is due. -/
theorem timely_startAttempt {st : CircuitState} :
    timely.Follows (startAttempt env m st q) .due (EndsTimely m) := by
  cases st with
  | closed => exact timely_attemptDelivery
  | opened => exact timely_attemptDelivery
  | halfOpen =>
      exact timely_call (fun _ => .due) rfl (fun _ => rfl) (fun _ => trivial)
        fun _ => timely_attemptDelivery

/-- After the look at the delivery row. -/
theorem timely_checkExisting {st : CircuitState} (existing : Option Delivery) :
    timely.Follows (checkExisting env m st q existing) (afterFind existing) (EndsTimely m) := by
  cases existing with
  | none => exact timely_startAttempt
  | some row =>
      unfold checkExisting afterFind
      by_cases hterm : row.status.terminal = true
      · simp only [Option.map_some, Option.getD_some, hterm, if_true]
        exact timely_acknowledge_return rfl (fun _ => rfl) rfl
      · simp only [Option.map_some, Option.getD_some, Option.bind_some, hterm,
          Bool.false_eq_true, if_false]
        cases row.nextAttemptAt with
        | none => exact timely_startAttempt
        | some w =>
            refine timely_call (whetherDue w) rfl (fun _ => rfl) (fun _ => trivial)
              fun t => ?_
            unfold whetherDue
            by_cases ht : w > t
            · simp only [ht, if_true]
              exact timely_call (fun (t : ℚ) => .hide t (w - t) true) rfl (fun _ => rfl)
                (fun _ => trivial) fun _ => timely_hide_return
            · simp only [ht, if_false]
              exact timely_startAttempt

/-- **`handleMessage` keeps to the protocol of the clock.** -/
theorem timely_handleMessage (env : Env) (m : Message) :
    timely.Follows (handleMessage env m) .early (EndsTimely m) := by
  simp only [handleMessage, readCircuitState, bind_assoc, pure_bind]
  refine timely_call (fun _ => .early) rfl (fun _ => rfl) (fun _ => trivial)
    fun raw => ?_
  refine timely_call (fun _ => .early) rfl (fun _ => rfl) (fun _ => trivial)
    fun t => ?_
  split_ifs
  · cases parseQueueMessage m.body with
    | none => exact timely_acknowledge_return rfl (fun _ => rfl) rfl
    | some parsed =>
        simp only [handleParsed, consumeTenantToken, bind_assoc]
        refine timely_call (fun _ => .early) rfl (fun _ => rfl) (fun _ => trivial)
          fun t => ?_
        cases TokenBucket.normalizeRateLimitConfig
            (TokenBucket.toOverrides env.deliveryRateLimit) with
        | error e => exact trivial
        | ok config =>
            simp only [bind_assoc, pure_bind]
            refine timely_call (fun _ => .early) rfl (fun _ => rfl) (fun _ => trivial)
              fun result => ?_
            split_ifs
            · exact timely_call afterFind rfl (fun _ => rfl) (fun _ => trivial)
                timely_checkExisting
            · exact timely_hide_early
  · exact timely_hide_early

end

/-! ## Every other process keeps to it -/

/-- The phases outside a handler. -/
def Phase.abroad : Phase → Bool
  | .publishing .. => true
  | .sent .. => true
  | .validating => true
  | .drafted .. => true
  | .uploaded .. => true
  | .replaying _ => true
  | .over => true
  | _ => false

/-- Outside a handler nothing is written to the delivery rows, and nothing hidden. -/
theorem passive_of_abroad {env : Env} {φ : Phase} {op : Op} (hφ : φ.abroad = true)
    (h : Allows env φ op) : op.passive = true := by
  cases h <;> first | rfl | cases hφ

theorem abroad_next {env : Env} {φ : Phase} {op : Op} {r : Except JsError op.Res}
    (hφ : φ.abroad = true) (h : Allows env φ op) : (φ.next op r).abroad = true := by
  cases h <;> cases r <;> first | rfl | cases hφ

/-- A program that keeps to the phases outside a handler. -/
theorem timely_abroad {env : Env} {α : Type} {p : Async α} {φ : Phase} (hφ : φ.abroad = true)
    (h : (protocol env).Follows p φ (fun _ _ => True)) :
    timely.Follows p .elsewhere (fun _ _ => True) := by
  refine Protocol.Follows.imp (P := timely) (h.simulate
    (R := fun (ψ : Phase) (τ : Timing) => ψ.abroad = true ∧ τ = .elsewhere) ?_ ?_ ⟨hφ, rfl⟩)
    (fun _ _ _ => trivial)
  · rintro φ _ op ⟨hφ, rfl⟩ hallow
    exact passive_of_abroad hφ hallow
  · rintro φ _ op r ⟨hφ, rfl⟩ hallow
    refine ⟨abroad_next hφ hallow, ?_⟩
    cases r <;> rfl

/-- Where a job starts. -/
def firstTiming : Job → Timing
  | .deliver _ => .early
  | _ => .elsewhere

/-- How a job may end. -/
def endsTimely : Job → Except JsError Acknowledge → Timing → Prop
  | .deliver m => EndsTimely m
  | _ => fun _ _ => True

/-- Every job keeps to the protocol of the clock. -/
theorem timely_body {env : Env} {j : Job} {s : State} {p : Async Acknowledge}
    (h : body env j s = some p) : timely.Follows p (firstTiming j) (endsTimely j) := by
  have hdone : ∀ {α : Type} {p : Async α}, timely.Follows p .elsewhere (fun _ _ => True) →
      timely.Follows (thenDone p) .elsewhere (fun _ _ => True) := fun h =>
    h.bind (fun _ _ _ => trivial) (fun _ _ _ => trivial)
  cases j with
  | deliver m =>
      obtain ⟨-, rfl⟩ := body_deliver h
      exact timely_handleMessage env m
  | acknowledge m => cases h
  | publish id =>
      obtain ⟨row, event, -, -, rfl, -⟩ := body_publish h
      exact hdone (timely_abroad rfl (follows_publishOne env row event))
  | ingest input =>
      obtain rfl := Option.some.inj h
      exact hdone (timely_abroad rfl (follows_ingestEvent env input))
  | replay input =>
      obtain rfl := Option.some.inj h
      exact hdone (timely_abroad rfl (follows_requestReplay env input))

/-! ## What a process may rely on -/

/-- The operation found a row that is to be attempted at `w`. -/
def Op.finds : (op : Op) → Except JsError op.Res → ℚ → Prop
  | .findDelivery .., .ok (some (d : Delivery)), w => d.nextAttemptAt = some w
  | _, _, _ => False

/-- The longest a message is hidden for. -/
def longestHidingMs : ℚ := 43200000

/-- No row is to be attempted later than the longest delay from now. -/
def WithinDelay (w : World) : Prop :=
  ∀ d ∈ w.deliveries, ∀ t, d.nextAttemptAt = some t → t ≤ w.clock + maxDelayMs

/-- What is known of the time of a row that was found. -/
def Timing.FoundBy : Timing → ℚ → Prop
  | .early, _ => False
  | .found w, t => t = w
  | .notDue w, t => t = w
  | .hide asked delay true, t => t ≤ asked + min delay longestHidingMs
  | _, _ => True

/-- What is known of the time that was written for the next attempt. -/
def Timing.RetriedBy : Timing → ℚ → Prop
  | .hide asked delay false, t => t ≤ asked + min delay longestHidingMs
  | .gone, _ => True
  | _, _ => False

/-- Nothing has been written yet. -/
def Timing.unwritten : Timing → Bool
  | .attempting _ => false
  | .drawn .. => false
  | .scheduled .. => false
  | .hide _ _ false => false
  | .gone => false
  | _ => true

/-- The times a process knows. -/
def Timing.Clocked : Timing → ℚ → Prop
  | .found w, clock => w ≤ clock + maxDelayMs
  | .notDue w, clock => w ≤ clock + maxDelayMs
  | .hide asked _ _, clock => asked ≤ clock
  | .attempting (some asked), clock => asked ≤ clock
  | .drawn asked x, clock => asked ≤ clock ∧ 0 ≤ x ∧ x < 1
  | .scheduled asked x again, clock => asked ≤ again ∧ again ≤ clock ∧ 0 ≤ x ∧ x < 1
  | _, _ => True

/-- What a process may rely on. -/
structure TimingFacts (pid : ℕ) (s : State) (τ : Timing) : Prop where
  unwritten : τ.unwritten = true → ∀ x ∈ s.trace, x.pid = pid → x.op.writesRows = false
  undeferred : τ ≠ .gone → ∀ x ∈ s.trace, x.pid = pid → x.op.defers = false
  found : ∀ x ∈ s.trace, x.pid = pid → ∀ w, x.op.finds x.result w → τ.FoundBy w
  retried : ∀ x ∈ s.trace, x.pid = pid → ∀ w, x.op.retriesAt = some w → τ.RetriedBy w
  wrote : ∀ asked delay, τ = .hide asked delay false →
    ∃ x ∈ s.trace, x.pid = pid ∧ x.op.writesRows = true
  clocked : τ.Clocked s.world.clock

/-- No row waits too long, and who counts a deferral writes nothing. -/
structure TimingInv (s : State) : Prop where
  delays : WithinDelay s.world
  deferred : ∀ x ∈ s.trace, ∀ y ∈ s.trace, x.pid = y.pid → x.op.defers = true →
    y.op.writesRows = false

section

variable {pid : ℕ} {s s' : State} {τ : Timing} {op : Op} {c : Choice}
  {r : Except JsError op.Res}

/-- The clock tells the time. -/
theorem World.exec_now {w w' : World} {r : Except JsError ℚ} (h : w.exec .now c = some (r, w')) :
    r = .ok w.clock :=
  (congrArg Prod.fst (Option.some.inj h)).symm

/-- A share is drawn. -/
theorem World.exec_random {w w' : World} {r : Except JsError ℚ}
    (h : w.exec .random c = some (r, w')) : r = .ok c.number ∧ 0 ≤ c.number ∧ c.number < 1 := by
  have hpos : w.possible .random c = true := possible_of_exec h
  rw [possible, Bool.and_eq_true, decide_eq_true_eq, decide_eq_true_eq] at hpos
  refine ⟨?_, hpos⟩
  unfold exec at h
  rw [possible, if_pos (by simpa using hpos)] at h
  exact (congrArg Prod.fst (Option.some.inj h)).symm

/-- The queue hides a message for as long as it is told to, also where the answer is lost. -/
theorem World.exec_changeVisibility {w w' : World} {receipt : ℕ} {seconds : ℤ}
    {r : Except JsError Unit} (h : w.exec (.changeVisibility receipt seconds) c = some (r, w'))
    (hc : c.fault ≠ .before) : w'.visibleAt receipt = w.clock + 1000 * (seconds : ℚ) := by
  have happly : w' = (w.apply (.changeVisibility receipt seconds) c).2 := by
    have hout : w.outcome (.changeVisibility receipt seconds) c = (r, w') := Option.some.inj h
    unfold World.outcome at hout
    rw [if_neg (show ¬ (Op.changeVisibility receipt seconds).isLocal = true from
      Bool.false_ne_true)] at hout
    cases hf : c.fault with
    | before => exact absurd hf hc
    | none =>
        rw [hf] at hout
        exact (congrArg Prod.snd hout).symm
    | after =>
        rw [hf] at hout
        exact (congrArg Prod.snd hout).symm
  rw [happly]
  exact Function.update_self _ _ _

theorem Op.not_writes_of_passive (h : op.passive = true) : op.writesRows = false := by
  simp only [passive, Bool.and_eq_true, Bool.not_eq_true'] at h
  exact h.1.1

/-- A write is none that sets a time, unless it is an update. -/
theorem Op.writes_of_retriesAt {t : ℚ} (h : op.retriesAt = some t) : op.writesRows = true := by
  cases op <;> first | rfl | cases h

theorem Op.eq_of_defers (h : op.defers = true) : ∃ reason, op = .recordDeferral reason := by
  cases op <;> first | exact ⟨_, rfl⟩ | cases h

/-- What has not written before the operation did not write by it. -/
theorem unwritten_of_next (hallow : Timely τ op) (h : (τ.next op r).unwritten = true) :
    τ.unwritten = true ∧ op.writesRows = false := by
  cases τ with
  | early => exact ⟨rfl, hallow⟩
  | complete => exact ⟨rfl, Op.not_writes_of_passive hallow⟩
  | due => exact ⟨rfl, Op.not_writes_of_passive hallow⟩
  | elsewhere => exact ⟨rfl, Op.not_writes_of_passive hallow⟩
  | found w =>
      obtain rfl := hallow
      exact ⟨rfl, rfl⟩
  | notDue w =>
      obtain rfl := hallow
      exact ⟨rfl, rfl⟩
  | hide asked delay deferral =>
      cases deferral with
      | true =>
          refine ⟨rfl, ?_⟩
          obtain ⟨_, rfl⟩ | ⟨_, rfl⟩ | ⟨-, hop⟩ := hallow
          · rfl
          · rfl
          · obtain ⟨_, rfl⟩ := Op.eq_of_defers hop
            rfl
      | false =>
          obtain ⟨_, rfl⟩ | ⟨_, rfl⟩ | ⟨hfalse, -⟩ := hallow
          · cases r <;> cases h
          · cases r <;> cases h
          · cases hfalse
  | attempting asked =>
      cases op <;> cases r <;> first | cases h | (cases asked <;> cases h)
  | drawn asked x =>
      obtain rfl := hallow
      cases r <;> cases h
  | scheduled asked x again =>
      obtain ⟨id, error, n, rfl⟩ := hallow
      cases r <;> cases h
  | gone => cases hallow

/-- Only a process that is gone has counted a deferral. -/
theorem undeferred_of_next (hallow : Timely τ op) (h : τ.next op r ≠ .gone) :
    τ ≠ .gone ∧ op.defers = false := by
  refine ⟨by rintro rfl; exact hallow, ?_⟩
  by_contra hdefers
  rw [Bool.not_eq_false] at hdefers
  obtain ⟨reason, rfl⟩ := Op.eq_of_defers hdefers
  cases τ with
  | early => cases r <;> exact h rfl
  | hide asked delay deferral => cases r <;> exact h rfl
  | attempting asked => cases hallow.1
  | scheduled asked x again =>
      obtain ⟨id, error, n, hop⟩ := hallow
      cases hop
  | _ => cases hallow

/-- The delay of a retry is the longest one at most. -/
theorem retryTime_le {asked x : ℚ} {n : ℕ} (h₀ : 0 ≤ x) (h₁ : x < 1) :
    retryTime asked x n ≤ asked + maxDelayMs := by
  have hexp : min (baseDelayMs * 2 ^ (n - 1)) maxDelayMs ≤ maxDelayMs := min_le_right _ _
  have hpos : 0 ≤ min (baseDelayMs * 2 ^ (n - 1)) maxDelayMs := by
    apply le_min
    · unfold baseDelayMs
      positivity
    · norm_num [maxDelayMs]
  have hlt : x * (min (baseDelayMs * 2 ^ (n - 1)) maxDelayMs + 1) < 60001 := by
    have hbound : min (baseDelayMs * 2 ^ (n - 1)) maxDelayMs + 1 ≤ 60001 := by
      have : maxDelayMs = 60000 := rfl
      linarith
    nlinarith
  have hfloor : ⌊x * (min (baseDelayMs * 2 ^ (n - 1)) maxDelayMs + 1)⌋ ≤ 60000 := by
    apply Int.le_of_lt_add_one
    exact_mod_cast Int.floor_lt.mpr (by exact_mod_cast hlt)
  have hcast : (⌊x * (min (baseDelayMs * 2 ^ (n - 1)) maxDelayMs + 1)⌋ : ℚ) ≤ 60000 := by
    exact_mod_cast hfloor
  unfold retryTime
  have : maxDelayMs = 60000 := rfl
  linarith

/-- What is known of a row's time lasts. -/
theorem foundBy_next {w : World} {w' : World} (hallow : Timely τ op) (hclock : τ.Clocked w.clock)
    (hexec : w.exec op c = some (r, w')) {t : ℚ} (h : τ.FoundBy t) : (τ.next op r).FoundBy t := by
  cases τ with
  | early => cases h
  | found w₀ =>
      obtain rfl := hallow
      obtain rfl := World.exec_now hexec
      change (whetherDue w₀ w.clock).FoundBy t
      unfold whetherDue
      split_ifs
      · exact h
      · exact trivial
  -- the delay is at most a minute, so no cap cuts it short
  | notDue w₀ =>
      obtain rfl := hallow
      obtain rfl := World.exec_now hexec
      obtain rfl : t = w₀ := h
      change t ≤ w.clock + min (t - w.clock) longestHidingMs
      have hmax : maxDelayMs = 60000 := rfl
      have hlong : longestHidingMs = 43200000 := rfl
      change t ≤ w.clock + maxDelayMs at hclock
      rw [min_eq_left (by linarith)]
      linarith
  | hide asked delay deferral =>
      obtain ⟨_, rfl⟩ | ⟨_, rfl⟩ | ⟨-, hop⟩ := hallow
      · cases r <;> first | exact h | exact trivial
      · cases r <;> first | exact h | exact trivial
      · obtain ⟨_, rfl⟩ := Op.eq_of_defers hop
        cases r <;> exact trivial
  | attempting asked =>
      cases op <;> cases r <;> first | exact trivial | (cases asked <;> exact trivial)
  | complete => cases r <;> exact trivial
  | due =>
      cases op <;> cases r <;> exact trivial
  | drawn asked x =>
      obtain rfl := hallow
      cases r <;> exact trivial
  | scheduled asked x again =>
      obtain ⟨id, error, n, rfl⟩ := hallow
      cases r <;> exact trivial
  | gone => cases hallow
  | elsewhere => cases r <;> exact trivial

/-- The time of a row that has just been found. -/
theorem foundBy_of_finds (hallow : Timely τ op) {t : ℚ} (h : op.finds r t) :
    (τ.next op r).FoundBy t := by
  obtain ⟨e, u, rfl⟩ : ∃ e u, op = .findDelivery e u := by
    cases op <;> first | exact ⟨_, _, rfl⟩ | cases h
  rcases r with _ | _ | (d : Delivery)
  · cases h
  · cases h
  have ht : d.nextAttemptAt = some t := h
  cases τ with
  | early =>
      change (afterFind (some d)).FoundBy t
      simp only [afterFind, ht]
      split_ifs
      · exact trivial
      · exact rfl
  | hide asked delay deferral =>
      obtain ⟨_, hop⟩ | ⟨_, hop⟩ | ⟨-, hop⟩ := hallow <;> cases hop
  | scheduled asked x again =>
      obtain ⟨id, error, n, hop⟩ := hallow
      cases hop
  | found w => cases hallow
  | notDue w => cases hallow
  | drawn asked x => cases hallow
  | gone => cases hallow
  | _ => exact trivial

/-- What is known of the time that was written lasts. -/
theorem retriedBy_next (hallow : Timely τ op) {t : ℚ} (h : τ.RetriedBy t) :
    (τ.next op r).RetriedBy t := by
  cases τ with
  | hide asked delay deferral =>
      cases deferral with
      | true => cases h
      | false =>
          obtain ⟨_, rfl⟩ | ⟨_, rfl⟩ | ⟨hfalse, -⟩ := hallow
          · cases r <;> first | exact h | exact trivial
          · cases r <;> first | exact h | exact trivial
          · cases hfalse
  | gone => cases hallow
  | _ => cases h

/-- The time that has just been written. -/
theorem retriedBy_of_retries (hallow : Timely τ op) {clock : ℚ} (hclock : τ.Clocked clock)
    {t : ℚ} (h : op.retriesAt = some t) : (τ.next op r).RetriedBy t := by
  have hwrites := Op.writes_of_retriesAt h
  cases τ with
  -- the delay is no shorter than the wait that is left, and below the cap
  | scheduled asked x again =>
      obtain ⟨id, error, n, rfl⟩ := hallow
      obtain ⟨hle, -, h₀, h₁⟩ := hclock
      cases r with
      | error e => exact trivial
      | ok row =>
          obtain rfl : retryTime asked x n = t := Option.some.inj h
          change _ ≤ again + min (max (retryTime asked x n - again) 1000) longestHidingMs
          have hmax : retryTime asked x n ≤ asked + maxDelayMs := retryTime_le h₀ h₁
          have hbase : maxDelayMs = 60000 := rfl
          have hlong : longestHidingMs = 43200000 := rfl
          have hdelay : retryTime asked x n - again ≤
              min (max (retryTime asked x n - again) 1000) longestHidingMs :=
            le_min (le_max_left _ _) (by linarith)
          linarith
  | attempting asked =>
      rw [hallow.2.2] at h
      cases h
  | early =>
      rw [show op.writesRows = false from hallow] at hwrites
      cases hwrites
  | hide asked delay deferral =>
      obtain ⟨_, rfl⟩ | ⟨_, rfl⟩ | ⟨-, hop⟩ := hallow
      · cases h
      · cases h
      · obtain ⟨_, rfl⟩ := Op.eq_of_defers hop
        cases h
  | found w =>
      obtain rfl := hallow
      cases h
  | notDue w =>
      obtain rfl := hallow
      cases h
  | drawn asked x =>
      obtain rfl := hallow
      cases h
  | gone => cases hallow
  | _ =>
      rw [Op.not_writes_of_passive hallow] at hwrites
      cases hwrites

/-- The times a process knows stay behind the clock. -/
theorem Timing.Clocked.mono {a b : ℚ} (hab : a ≤ b) (h : τ.Clocked a) : τ.Clocked b := by
  cases τ with
  | found w => exact le_trans h (by linarith)
  | notDue w => exact le_trans h (by linarith)
  | hide asked delay deferral => exact le_trans h hab
  | attempting asked =>
      cases asked with
      | none => exact trivial
      | some asked => exact le_trans h hab
  | drawn asked x => exact ⟨le_trans h.1 hab, h.2⟩
  | scheduled asked x again => exact ⟨h.1, le_trans h.2.1 hab, h.2.2⟩
  | _ => exact trivial

/-- What a process learns about the time is true. -/
theorem clocked_next {w w' : World} (hdelay : WithinDelay w) (hallow : Timely τ op)
    (h : τ.Clocked w.clock) (hexec : w.exec op c = some (r, w')) :
    (τ.next op r).Clocked w.clock := by
  cases τ with
  | early =>
      -- what is found was written with a delay of at most a minute
      cases op with
      | findDelivery e u =>
          cases r with
          | error e => exact trivial
          | ok row =>
              obtain ⟨-, hrow, -⟩ := World.exec_findDelivery hexec
              change (afterFind row).Clocked w.clock
              cases row with
              | none => exact trivial
              | some d =>
                  simp only [afterFind]
                  split_ifs
                  · exact trivial
                  · cases ht : d.nextAttemptAt with
                    | none => exact trivial
                    | some t => exact hdelay d (World.mem_rowsFor.mp (hrow d rfl)).1 t ht
      | _ => cases r <;> exact trivial
  | found w₀ =>
      obtain rfl := hallow
      obtain rfl := World.exec_now hexec
      change (whetherDue w₀ w.clock).Clocked w.clock
      unfold whetherDue
      split_ifs
      · exact h
      · exact trivial
  | notDue w₀ =>
      obtain rfl := hallow
      obtain rfl := World.exec_now hexec
      exact le_refl w.clock
  | hide asked delay deferral =>
      obtain ⟨_, rfl⟩ | ⟨_, rfl⟩ | ⟨-, hop⟩ := hallow
      · cases r <;> first | exact h | exact trivial
      · cases r <;> first | exact h | exact trivial
      · obtain ⟨_, rfl⟩ := Op.eq_of_defers hop
        cases r <;> exact trivial
  | attempting asked =>
      cases op with
      | now =>
          obtain rfl := World.exec_now hexec
          exact le_refl w.clock
      | random =>
          obtain ⟨rfl, hshare⟩ := World.exec_random hexec
          cases asked with
          | none => exact trivial
          | some asked => exact ⟨h, hshare⟩
      | _ => cases r <;> exact h
  | drawn asked x =>
      obtain rfl := hallow
      obtain rfl := World.exec_now hexec
      exact ⟨h.1, le_refl w.clock, h.2⟩
  | scheduled asked x again =>
      obtain ⟨id, error, n, rfl⟩ := hallow
      cases r with
      | error e => exact trivial
      | ok row => exact h.2.1
  | gone => cases hallow
  | complete => cases r <;> exact trivial
  | due => cases op <;> cases r <;> exact trivial
  | elsewhere => cases r <;> exact trivial

/-- A message is hidden for a retry only after the row was written. -/
theorem wrote_of_next (hallow : Timely τ op) {asked delay : ℚ}
    (h : τ.next op r = .hide asked delay false) :
    op.writesRows = true ∨ τ = .hide asked delay false := by
  cases τ with
  | scheduled asked x again =>
      obtain ⟨id, error, n, rfl⟩ := hallow
      exact .inl rfl
  | hide asked delay deferral =>
      obtain ⟨_, rfl⟩ | ⟨_, rfl⟩ | ⟨-, hop⟩ := hallow
      · cases r <;> first | exact .inr h | cases h
      · cases r <;> first | exact .inr h | cases h
      · obtain ⟨_, rfl⟩ := Op.eq_of_defers hop
        cases r <;> cases h
  | early =>
      cases op with
      | findDelivery e u =>
          cases r with
          | error e => cases h
          | ok row =>
              change afterFind row = _ at h
              unfold afterFind at h
              cases row with
              | none => cases h
              | some d =>
                  simp only at h
                  split_ifs at h
                  cases hd : d.nextAttemptAt <;> rw [hd] at h <;> cases h
      | _ => cases r <;> cases h
  | found w =>
      obtain rfl := hallow
      cases r with
      | error e => cases h
      | ok t =>
          change whetherDue w t = _ at h
          unfold whetherDue at h
          split_ifs at h
  | notDue w =>
      obtain rfl := hallow
      cases r <;> cases h
  | drawn asked x =>
      obtain rfl := hallow
      cases r <;> cases h
  | attempting asked =>
      cases op <;> cases r <;> first | cases h | (cases asked <;> cases h)
  | due => cases op <;> cases r <;> cases h
  | complete => cases r <;> cases h
  | gone => cases hallow
  | elsewhere => cases r <;> cases h

/-- Who counts a deferral has written nothing. -/
theorem unwritten_of_defers (hallow : Timely τ op) (h : op.defers = true) :
    τ.unwritten = true := by
  obtain ⟨reason, rfl⟩ := Op.eq_of_defers h
  cases τ with
  | hide asked delay deferral =>
      obtain ⟨_, hop⟩ | ⟨_, hop⟩ | ⟨rfl, -⟩ := hallow
      · cases hop
      · cases hop
      · rfl
  | attempting asked => cases hallow.1
  | scheduled asked x again =>
      obtain ⟨id, error, n, hop⟩ := hallow
      cases hop
  | drawn asked x => cases hallow
  | gone => cases hallow
  | _ => rfl

/-- **No row waits longer than the longest delay.** -/
theorem withinDelay_next {w w' : World} (h : WithinDelay w) (hallow : Timely τ op)
    (hclock : τ.Clocked w.clock) (hexec : w.exec op c = some (r, w')) : WithinDelay w' := by
  intro d hd t ht
  rw [World.clock_of_exec hexec]
  cases op with
  | createDelivery data =>
      obtain ⟨heq, -⟩ | ⟨hcons, -, -⟩ := World.exec_createDelivery hexec
      · exact h d (heq ▸ hd) t ht
      · rw [hcons] at hd
        rcases List.mem_cons.mp hd with rfl | hd
        · cases ht
        · exact h d hd t ht
  | updateDelivery id data =>
      obtain ⟨heq, -⟩ | ⟨x, -, -, hmap, -⟩ := World.exec_updateDelivery hexec
      · exact h d (heq ▸ hd) t ht
      rw [hmap] at hd
      obtain ⟨y, hy, rfl⟩ := List.mem_map.mp hd
      split_ifs at ht with hid
      · cases hnext : data.nextAttemptAt with
        | none =>
            rw [DeliveryData.apply, hnext] at ht
            exact h y hy t ht
        | some next =>
            -- the time that the update sets
            rw [DeliveryData.apply, hnext] at ht
            obtain rfl : next = some t := ht
            have hretries : (Op.updateDelivery id data).retriesAt = some t := by
              rw [Op.retriesAt, hnext]
              rfl
            cases τ with
            | scheduled asked x again =>
                obtain ⟨_, error, n, hop⟩ := hallow
                obtain ⟨rfl, rfl⟩ := Op.updateDelivery.inj hop
                obtain rfl : retryTime asked x n = t := Option.some.inj hretries
                have hle : retryTime asked x n ≤ asked + maxDelayMs :=
                  retryTime_le hclock.2.2.1 hclock.2.2.2
                have hasked := le_trans hclock.1 hclock.2.1
                linarith
            | attempting asked =>
                rw [hallow.2.2] at hretries
                cases hretries
            | hide asked delay deferral =>
                obtain ⟨_, hop⟩ | ⟨_, hop⟩ | ⟨-, hop⟩ := hallow <;> cases hop
            | gone => cases hallow
            | _ => cases hallow
      · exact h y hy t ht
  | _ =>
      rw [World.deliveries_of_exec hexec (by simp) (by simp)] at hd
      exact h d hd t ht

/-- **One operation of a process.** -/
theorem timing_step (hinv : TimingInv s) (h : TimingFacts pid s τ) (hallow : Timely τ op)
    (hexec : device.exec pid op c s = some (r, s')) :
    TimingInv s' ∧ TimingFacts pid s' (τ.next op r) := by
  obtain ⟨hexec, -, htrace⟩ := device_exec hexec
  have hgone : τ ≠ .gone := by
    rintro rfl
    exact hallow
  have hsplit : ∀ x ∈ s'.trace, x = ⟨pid, s.world.clock, op, r⟩ ∨ x ∈ s.trace := by
    intro x hx
    rw [htrace] at hx
    exact List.mem_cons.mp hx
  constructor
  · refine ⟨withinDelay_next hinv.delays hallow h.clocked hexec, ?_⟩
    intro x hx y hy hpid hdefers
    -- both are the new operation, one is, or none
    rcases hsplit x hx with rfl | hx <;> rcases hsplit y hy with rfl | hy
    · have hop : op.defers = true := hdefers
      obtain ⟨reason, rfl⟩ := Op.eq_of_defers hop
      rfl
    · exact h.unwritten (unwritten_of_defers hallow hdefers) y hy hpid.symm
    · rw [h.undeferred hgone x hx hpid] at hdefers
      cases hdefers
    · exact hinv.deferred x hx y hy hpid hdefers
  · refine
      { unwritten := fun hun x hx hpid => ?_
        undeferred := fun hne x hx hpid => ?_
        found := fun x hx hpid w hw => ?_
        retried := fun x hx hpid w hw => ?_
        wrote := fun asked delay hτ => ?_
        clocked := ?_ }
    · obtain ⟨hbefore, hop⟩ := unwritten_of_next hallow hun
      rcases hsplit x hx with rfl | hx
      · exact hop
      · exact h.unwritten hbefore x hx hpid
    · obtain ⟨hbefore, hop⟩ := undeferred_of_next hallow hne
      rcases hsplit x hx with rfl | hx
      · exact hop
      · exact h.undeferred hbefore x hx hpid
    · rcases hsplit x hx with rfl | hx
      · exact foundBy_of_finds hallow hw
      · exact foundBy_next hallow h.clocked hexec (h.found x hx hpid w hw)
    · rcases hsplit x hx with rfl | hx
      · exact retriedBy_of_retries hallow h.clocked hw
      · exact retriedBy_next hallow (h.retried x hx hpid w hw)
    -- the write that leads to hiding is in the trace
    · rw [htrace]
      rcases wrote_of_next hallow hτ with hop | hτ
      · exact ⟨_, List.mem_cons_self, rfl, hop⟩
      · obtain ⟨x, hx, hpid, hwrites⟩ := h.wrote asked delay hτ
        exact ⟨x, List.mem_cons_of_mem _ hx, hpid, hwrites⟩
    · rw [World.clock_of_exec hexec]
      exact clocked_next hinv.delays hallow h.clocked hexec

/-- What a process relies on lasts while others work. -/
theorem TimingFacts.others {q : ℕ} (hne : q ≠ pid) (h : TimingFacts q s τ)
    (hexec : device.exec pid op c s = some (r, s')) : TimingFacts q s' τ := by
  obtain ⟨hexec, -, htrace⟩ := device_exec hexec
  have hmine : ∀ x ∈ s'.trace, x.pid = q → x ∈ s.trace := by
    intro x hx hpid
    rw [htrace] at hx
    rcases List.mem_cons.mp hx with rfl | hx
    · exact absurd hpid.symm hne
    · exact hx
  exact
    { unwritten := fun hun x hx hpid => h.unwritten hun x (hmine x hx hpid) hpid
      undeferred := fun hun x hx hpid => h.undeferred hun x (hmine x hx hpid) hpid
      found := fun x hx hpid => h.found x (hmine x hx hpid) hpid
      retried := fun x hx hpid => h.retried x (hmine x hx hpid) hpid
      wrote := fun asked delay hτ => by
        obtain ⟨x, hx, hpid, hwrites⟩ := h.wrote asked delay hτ
        exact ⟨x, htrace ▸ List.mem_cons_of_mem _ hx, hpid, hwrites⟩
      clocked := by
        rw [World.clock_of_exec hexec]
        exact h.clocked }

end

/-! ## The contract -/

/-- Time does not run backwards. -/
theorem nonneg_of_passTime {dt : ℚ} {s s' : State} (h : passTime dt s = some s') : 0 ≤ dt := by
  unfold passTime at h
  split_ifs at h with hdt
  exact hdt

/-- The contract of the clock. -/
def timing (env : Env) : Contract (system env) timely where
  Inv := TimingInv
  first j _ := firstTiming j
  Facts pid _ τ s := TimingFacts pid s τ
  End := endsTimely
  Apart _ _ := True
  Ok _ _ _ _ _ := True
  Fresh n s := ∀ x ∈ s.trace, x.pid < n
  follows := timely_body
  begins {pid j s p} _ hfresh _ := by
    have hnone : ∀ x ∈ s.trace, x.pid ≠ pid := fun x hx => ne_of_lt (hfresh x hx)
    exact
      { unwritten := fun _ x hx hpid => absurd hpid (hnone x hx)
        undeferred := fun _ x hx hpid => absurd hpid (hnone x hx)
        found := fun x hx hpid => absurd hpid (hnone x hx)
        retried := fun x hx hpid => absurd hpid (hnone x hx)
        wrote := fun asked delay hτ => by cases j <;> cases hτ
        clocked := by cases j <;> exact trivial }
  surroundings {dt s s'} hinv h := by
    have hdt := nonneg_of_passTime h
    obtain rfl := passTime_eq_some h
    have hle : s.world.clock ≤ s.world.clock + dt := le_add_of_nonneg_right hdt
    -- time only passes: what was promised stays promised
    refine ⟨⟨fun d hd t ht => ?_, hinv.deferred⟩, fun _ hn => hn, fun pid j τ hτ => ?_⟩
    · exact le_trans (hinv.delays d hd t ht) (by linarith)
    · exact ⟨hτ.unwritten, hτ.undeferred, hτ.found, hτ.retried, hτ.wrote, hτ.clocked.mono hle⟩
  call hinv hτ hallow _ hexec := timing_step hinv hτ hallow hexec
  frame _ _ hne _ _ _ hexec hψ := hψ.others hne hexec
  goes_on hend _ ha := by
    obtain ⟨m, ack, rfl, rfl, rfl, rfl⟩ := after_eq_some ha
    obtain ⟨rfl, hτ⟩ := hend
    exact (timely_acknowledge hτ).bind (fun _ _ _ => trivial) (fun _ _ _ => trivial)
  after _ hτ _ := hτ
  apart_after _ _ := trivial
  apart_symm _ := trivial
  fresh_succ := trace_fresh_succ
  fresh_call := trace_fresh_call

/-- The contract at the start. -/
theorem timing_start {env : Env} {s : Sys} (h : Start s) : (timing env).Good s := by
  refine .of_empty ⟨?_, ?_⟩ ?_ h.tasks
  · simp [WithinDelay, h.deliveries]
  · simp [h.trace]
  · intro x hx
    rw [h.trace] at hx
    cases hx

/-- The contract in every run. -/
theorem timing_reached {env : Env} {ok : Sys → PoolAction Choice Job ℚ → Prop} {s : Sys}
    (h : Reached env ok s) : (timing env).Good s := by
  refine (timing env).invariant (fun _ => timing_start) (fun s a _ _ => ?_) h
  cases a with
  | spawn j => exact fun _ _ _ => trivial
  | step pid c => exact fun _ _ _ _ => trivial
  | _ => exact trivial

/-! ## What holds of every run -/

/-- In whole seconds, a message is hidden at least as long as was asked, up to the longest. -/
theorem le_visibilityTimeout (delay : ℚ) :
    min delay longestHidingMs ≤ 1000 * (visibilityTimeoutSeconds delay : ℚ) := by
  have hceil : delay / 1000 ≤ (⌈delay / 1000⌉ : ℚ) := Int.le_ceil _
  have hcast : (visibilityTimeoutSeconds delay : ℚ) =
      min (max (⌈delay / 1000⌉ : ℚ) 1) 43200 := by
    unfold visibilityTimeoutSeconds
    push_cast
    rfl
  rw [hcast]
  have hlong : longestHidingMs = 43200000 := rfl
  rcases le_total (max (⌈delay / 1000⌉ : ℚ) 1) 43200 with hle | hge
  · rw [min_eq_left hle]
    have hmax : (⌈delay / 1000⌉ : ℚ) ≤ max (⌈delay / 1000⌉ : ℚ) 1 := le_max_left _ _
    have hmin : min delay longestHidingMs ≤ delay := min_le_left _ _
    linarith
  · rw [min_eq_right hge]
    have hmin : min delay longestHidingMs ≤ longestHidingMs := min_le_right _ _
    linarith

/-- The time for which a process has promised to hide its message: the time it wrote for the
next attempt, or the time of the row it found, if it has written nothing. -/
def PromisedUntil (trace : List TraceEntry) (pid : ℕ) (w : ℚ) : Prop :=
  (∃ x ∈ trace, x.pid = pid ∧ x.op.retriesAt = some w) ∨
    ((∃ x ∈ trace, x.pid = pid ∧ x.op.finds x.result w) ∧
      ∀ x ∈ trace, x.pid = pid → x.op.writesRows = false)

/-- **A message is hidden until its delivery is due**: when a handler that scheduled a retry, or
found a row that is not due, changes the visibility of a message and the queue does so, the
message stays hidden until the time of the row. -/
theorem hidden_until_due {env : Env} {s s' : Sys} (h : Reachable env s) {pid : ℕ} {j : Job}
    {receipt : ℕ} {seconds : ℤ} {k : Except JsError Unit → Async Acknowledge} {c : Choice}
    (ht : s.tasks pid = some ⟨j, .call (Op.changeVisibility receipt seconds) k⟩)
    (hs : (system env).step s (.step pid c) = some s') (hc : c.fault ≠ .before) {w : ℚ}
    (hw : PromisedUntil s.world.trace pid w) : w ≤ s'.world.world.visibleAt receipt := by
  obtain ⟨τ, hfollows, hτ⟩ := (timing_reached h).stands pid _ ht
  have hallow : Timely τ (.changeVisibility receipt seconds) := hfollows.1
  -- what the queue is told
  have hvisible : s'.world.world.visibleAt receipt =
      s.world.world.clock + 1000 * (seconds : ℚ) := by
    obtain ⟨j', op, k', r, w', ht', hexec, rfl⟩ := Machine.step_call hs
    obtain ⟨rfl, hcall⟩ := Proc.mk.inj (Option.some.inj (ht.symm.trans ht'))
    obtain ⟨rfl, -⟩ := Prog.call.inj hcall
    exact World.exec_changeVisibility (device_exec hexec).1 hc
  rw [hvisible]
  cases τ with
  -- whoever has neither looked nor written has promised nothing
  | early =>
      rcases hw with ⟨x, hx, hpid, hret⟩ | ⟨⟨x, hx, hpid, hfind⟩, -⟩
      · exact absurd (hτ.retried x hx hpid w hret) not_false
      · exact absurd (hτ.found x hx hpid w hfind) not_false
  | hide asked delay deferral =>
      obtain ⟨_, hop⟩ | ⟨_, hop⟩ | ⟨-, hop⟩ := hallow
      · cases hop
      · obtain ⟨rfl, rfl⟩ := Op.changeVisibility.inj hop
        have hle := le_visibilityTimeout delay
        have hasked : asked ≤ s.world.world.clock := hτ.clocked
        have hpromised : w ≤ asked + min delay longestHidingMs := by
          cases deferral with
          -- a deferral promises the time found in the row
          | true =>
              rcases hw with ⟨x, hx, hpid, hret⟩ | ⟨⟨x, hx, hpid, hfind⟩, -⟩
              · exact absurd (hτ.retried x hx hpid w hret) not_false
              · exact hτ.found x hx hpid w hfind
          -- a retry promises the time it has just written
          | false =>
              rcases hw with ⟨x, hx, hpid, hret⟩ | ⟨-, hnone⟩
              · exact hτ.retried x hx hpid w hret
              · obtain ⟨x, hx, hpid, hwrites⟩ := hτ.wrote asked delay rfl
                rw [hnone x hx hpid] at hwrites
                cases hwrites
        linarith
      · cases hop
  | attempting asked => cases hallow.2.1
  | scheduled asked x again =>
      obtain ⟨id, error, n, hop⟩ := hallow
      cases hop
  | _ => cases hallow

/-- **A deferral leaves the rows alone**: a handler that counts a deferral writes neither a
delivery row nor a dead letter, before or after. -/
theorem deferred_writes_nothing {env : Env} {s : Sys} (h : Reachable env s) :
    ∀ x ∈ s.world.trace, ∀ y ∈ s.world.trace, x.pid = y.pid → x.op.defers = true →
      y.op.writesRows = false :=
  (timing_reached h).inv.deferred

/-! ## A retry in the small system -/

namespace Sample

/-- The receiver answers 500, and half of the longest delay is drawn. -/
def refusal : Choice := { choice firstId 500 with number := 1 / 2 }

/-- The first attempt fails; the handler has written the row and goes on to hide its message. -/
def failed : List (PoolAction Choice Job ℚ) :=
  ingested ++ published 1 firstId ++ [.spawn (.deliver firstMessage)] ++ calls 2 19 refusal

/-- The operation a process performs next. -/
def nextOp (s : Sys) (pid : ℕ) : Option Op :=
  match s.tasks pid with
  | some ⟨_, .call op _⟩ => some op
  | _ => none

theorem tasks_of_nextOp {s : Sys} {pid : ℕ} {op : Op} (h : nextOp s pid = some op) :
    ∃ j k, s.tasks pid = some ⟨j, .call op k⟩ := by
  unfold nextOp at h
  split at h
  · rename_i j op' k ht
    obtain rfl := Option.some.inj h
    exact ⟨j, k, ht⟩
  · cases h

/-- The handler hides its message for a second, having written 1500 for the next attempt. -/
def hidesForRetry (s : Sys) : Bool :=
  (nextOp s 2).any (fun op => match op with
    | .changeVisibility receipt seconds => receipt == 0 && seconds == 1
    | _ => false) &&
  s.world.trace.any (fun x => x.pid == 2 && x.op.retriesAt == some 1500) &&
  ((system (env none)).step s (.step 2 refusal)).isSome

/-- The message is received again at once, and hidden because its row is not due. -/
def notDueYet : List (PoolAction Choice Job ℚ) :=
  failed ++ calls 2 1 refusal ++ [.finish 2, .spawn (.deliver firstMessage)] ++ calls 3 10 refusal

end Sample

/-- The message of a failed attempt is hidden until the next one. -/
theorem hidden_until_retry : ∃ s s' : Sys, Reachable (Sample.env none) s ∧
    (system (Sample.env none)).step s (.step 2 Sample.refusal) = some s' ∧
    1500 ≤ s'.world.world.visibleAt 0 := by
  obtain ⟨s, hs, htest⟩ := Sample.exists_reachable (Sample.env none) Sample.failed
    Sample.hidesForRetry (by decide +kernel)
  simp only [Sample.hidesForRetry, Bool.and_eq_true, Option.isSome_iff_exists,
    List.any_eq_true, Option.any_eq_true, beq_iff_eq] at htest
  obtain ⟨⟨⟨op, hop, hhides⟩, x, hx, hpid, hretry⟩, s', hstep⟩ := htest
  obtain ⟨j, k, ht⟩ := Sample.tasks_of_nextOp hop
  cases op with
  | changeVisibility receipt seconds =>
      simp only [Bool.and_eq_true, beq_iff_eq] at hhides
      obtain ⟨rfl, rfl⟩ := hhides
      exact ⟨s, s', hs, hstep,
        hidden_until_due hs ht hstep (by decide) (.inl ⟨x, hx, hpid, hretry⟩)⟩
  | _ => cases hhides

/-- A message that is not due yet is hidden, and its row is left alone. -/
theorem deferred_not_due : ∃ s : Sys, Reachable (Sample.env none) s ∧
    ∃ x ∈ s.world.trace, x.op.defers = true ∧
      ∀ y ∈ s.world.trace, x.pid = y.pid → y.op.writesRows = false := by
  obtain ⟨s, hs, htest⟩ := Sample.exists_reachable (Sample.env none) Sample.notDueYet
    (fun s => s.world.trace.any (fun x => x.op.defers)) (by decide +kernel)
  obtain ⟨x, hx, hdefers⟩ := List.any_eq_true.mp htest
  exact ⟨s, hs, x, hx, hdefers, fun y hy hpid => deferred_writes_nothing hs x hx y hy hpid hdefers⟩
