/-
# What an attempt owes

Once `upsertInFlight` has counted an attempt, the handler owes its delivery row an outcome: it
goes on until it has written a final status, or, as long as attempts are left, a time for the
next one.  Only a failing operation keeps it from that.

* `Closing` is where a process stands in this, `Closes` what it may write there.
* `closing_handleMessage`: a handler keeps to it, and ends with nothing owed.
* `closing`: the contract of all processes, which is followed beside the one of `Safety.lean`.
-/
import Waybill.Safety

open Worker Publisher Api

/-! ## What is owed -/

/-- What a process owes. -/
inductive Closing where
  /-- a handler that has counted no attempt -/
  | idle
  /-- an attempt was counted on the row -/
  | owing (d : Delivery)
  /-- the outcome is written, or an operation has failed; and every other process -/
  | gone

/-- What a process may write: an attempt ends with a final status, or is not the last one. -/
def Closes (env : Env) : Closing → Op → Prop
  | .owing d, .updateDelivery _ data =>
      data.status.terminal = true ∨ isExhausted env d.attemptCount = .ok false
  | _, _ => True

/-- Where an answer leads; `handleMessage` catches the errors of the secret, the payload and the
webhook call. -/
def Closing.next : Closing → (op : Op) → Except JsError op.Res → Closing
  | .idle, .updateDelivery .., .ok row => .owing row
  | .idle, .createDelivery _, .ok row => .owing row
  | .owing _, .updateDelivery .., _ => .gone
  | .owing d, .findTenant _, _ => .owing d
  | .owing d, .getObject _, _ => .owing d
  | .owing d, .fetch .., _ => .owing d
  | .owing _, _, .error _ => .gone
  | τ, _, _ => τ

/-- The protocol of what is owed. -/
abbrev closingProtocol (env : Env) : Protocol Services where
  Phase := Closing
  Allows := Closes env
  next := Closing.next

/-! ## The handler keeps to it -/

/-- How a handler ends: with nothing owed, unless no maximum is configured. -/
def EndsClosing (env : Env) (m : Message) (r : Except JsError Acknowledge) (τ : Closing) : Prop :=
  (∀ d, τ = .owing d → ∃ e, maxDeliveryAttempts env = .error e) ∧
    ∀ ack, r = .ok (some ack) → ack = acknowledgeMessage m.id

section

variable {env : Env} {m : Message} {q : QueueMessage} {d : Delivery}

/-- A handler that owes nothing may return without an acknowledgement, or fail. -/
theorem endsClosing_of_not_owing {r : Except JsError Acknowledge} {τ : Closing}
    (hr : ∀ ack, r ≠ .ok (some ack)) (hτ : ∀ d, τ ≠ .owing d) : EndsClosing env m r τ :=
  ⟨fun d hd => absurd hd (hτ d), fun ack hack => absurd hack (hr ack)⟩

/-- A failure ends a handler that owes nothing. -/
theorem endsClosing_error {e : JsError} {τ : Closing} (hτ : ∀ d, τ ≠ .owing d) :
    EndsClosing env m (.error e) τ :=
  endsClosing_of_not_owing (fun _ h => nomatch h) hτ

/-- So does a deferral. -/
theorem endsClosing_none {τ : Closing} (hτ : ∀ d, τ ≠ .owing d) :
    EndsClosing env m (.ok none) τ :=
  endsClosing_of_not_owing (fun _ h => nomatch h) hτ

theorem idle_ne_owing (d : Delivery) : Closing.idle ≠ .owing d := by simp

theorem gone_ne_owing (d : Delivery) : Closing.gone ≠ .owing d := by simp

/-- One operation, and what follows its answer where it leads. -/
theorem closing_call {α : Type} {op : Op} {f : op.Res → Async α} {τ : Closing}
    {Q : Except JsError α → Closing → Prop} (ψ : op.Res → Closing) (hallow : Closes env τ op)
    (hnext : ∀ a, τ.next op (.ok a) = ψ a) (herr : ∀ e, Q (.error e) (τ.next op (.error e)))
    (hok : ∀ a, (closingProtocol env).Follows (f a) (ψ a) Q) :
    (closingProtocol env).Follows (@Prog.perform Services op >>= f) τ Q :=
  Protocol.Follows.step ψ hallow hnext herr hok

/-- Hiding a message, or deleting it, leaves open what is owed. -/
theorem closing_hide {τ : Closing} (hτ : ∀ d, τ ≠ .owing d) {delayMs : ℚ}
    {reason : Option DeferralReason} :
    (closingProtocol env).Follows (hideUntil m.id delayMs reason) τ
      (fun _ σ => ∀ d, σ ≠ .owing d) := by
  cases τ with
  | owing d => exact absurd rfl (hτ d)
  | idle | gone =>
      refine closing_call (fun _ => _) trivial (fun _ => rfl) (fun _ => hτ) fun _ => ?_
      refine closing_call (fun _ => _) trivial (fun _ => rfl) (fun _ => hτ) fun _ => ?_
      cases reason with
      | none => exact hτ
      | some reason =>
          exact Protocol.Follows.last (P := closingProtocol env) (fun _ => _) trivial (fun _ => rfl)
            (fun _ => hτ) fun _ => hτ

/-- The acknowledgement owes nothing. -/
theorem closing_acknowledge {τ : Closing} (hτ : ∀ d, τ ≠ .owing d) :
    (closingProtocol env).Follows (acknowledgeMessage m.id) τ (fun _ σ => ∀ d, σ ≠ .owing d) := by
  cases τ with
  | owing d => exact absurd rfl (hτ d)
  | idle | gone =>
      refine closing_call (fun _ => _) trivial (fun _ => rfl) (fun _ => hτ) fun _ => ?_
      exact Protocol.Follows.last (P := closingProtocol env) (fun _ => _) trivial (fun _ => rfl)
        (fun _ => hτ) fun _ => hτ

/-- A handler that hides its message and returns. -/
theorem closing_hide_return {τ : Closing} (hτ : ∀ d, τ ≠ .owing d) {delayMs : ℚ}
    {reason : DeferralReason} :
    (closingProtocol env).Follows (do
      hideUntil m.id delayMs (some reason)
      return (none : Acknowledge)) τ (EndsClosing env m) :=
  (closing_hide hτ).bind (fun _ _ h => endsClosing_none h) (fun _ _ h => endsClosing_error h)

/-- A handler that deletes its message and returns. -/
theorem closing_acknowledge_return {τ : Closing} (hτ : ∀ d, τ ≠ .owing d) :
    (closingProtocol env).Follows (do
      acknowledgeMessage m.id
      return (none : Acknowledge)) τ (EndsClosing env m) :=
  (closing_acknowledge hτ).bind (fun _ _ h => endsClosing_none h) (fun _ _ h => endsClosing_error h)

/-- Moving a delivery to the dead letters writes its final status. -/
theorem closing_moveToDeadLetter (error : JsString) :
    (closingProtocol env).Follows (moveToDeadLetter d env.receiverUrl error q m.id) (.owing d)
      (fun _ σ => ∀ d, σ ≠ .owing d) := by
  have hbury : ∀ key, (closingProtocol env).Follows (do
      let _ ← createDeadLetter (deadLetterOf d env.receiverUrl error key)
      let _ ← markDeadLettered d.id error
      acknowledgeMessage m.id) (.owing d) (fun _ σ => ∀ d, σ ≠ .owing d) := by
    intro key
    refine closing_call (fun _ => .owing d) trivial (fun _ => rfl) (fun _ => gone_ne_owing)
      fun _ => ?_
    refine closing_call (fun _ => .gone) (.inl rfl) (fun _ => rfl) (fun _ => gone_ne_owing)
      fun _ => ?_
    exact closing_acknowledge gone_ne_owing
  simp only [moveToDeadLetter, archivePayload]
  cases truthyKey q.payloadS3Key with
  | some key => exact hbury key
  | none =>
      simp only [bind_assoc, pure_bind]
      exact closing_call (fun _ => .owing d) trivial (fun _ => rfl) (fun _ => gone_ne_owing)
        fun _ => hbury (archiveKey q.eventId)

/-- Scheduling a retry writes its time, where attempts are left. -/
theorem closing_scheduleRetry (hleft : isExhausted env d.attemptCount = .ok false) {n : ℕ}
    (error : JsString) :
    (closingProtocol env).Follows (scheduleRetry d.id n error m.id) (.owing d)
      (fun _ σ => ∀ d, σ ≠ .owing d) := by
  simp only [scheduleRetry, nextAttemptAt, backoffDelayMs, bind_assoc, pure_bind]
  refine closing_call (fun _ => .owing d) trivial (fun _ => rfl) (fun _ => gone_ne_owing)
    fun _ => ?_
  refine closing_call (fun _ => .owing d) trivial (fun _ => rfl) (fun _ => gone_ne_owing)
    fun _ => ?_
  refine closing_call (fun _ => .owing d) trivial (fun _ => rfl) (fun _ => gone_ne_owing)
    fun _ => ?_
  refine closing_call (fun _ => .gone) (.inr hleft) (fun _ => rfl) (fun _ => gone_ne_owing)
    fun _ => ?_
  exact closing_hide gone_ne_owing

/-- **An attempt that failed** is closed or scheduled again. -/
theorem closing_settleFailure (error : JsString) :
    (closingProtocol env).Follows (settleFailure env m q d error) (.owing d)
      (EndsClosing env m) := by
  unfold settleFailure
  cases hexhausted : isExhausted env d.attemptCount with
  | error e =>
      -- nothing can be decided without a maximum
      refine ⟨fun _ _ => ?_, fun _ h => nomatch h⟩
      unfold isExhausted at hexhausted
      cases hmax : maxDeliveryAttempts env with
      | error e' => exact ⟨e', rfl⟩
      | ok max =>
          rw [hmax] at hexhausted
          cases hexhausted
  | ok exhausted =>
      cases exhausted with
      | true =>
          exact (closing_moveToDeadLetter error).bind (fun _ _ h => endsClosing_none h)
            (fun _ _ h => endsClosing_error h)
      | false =>
          exact (closing_scheduleRetry hexhausted error).bind (fun _ _ h => endsClosing_none h)
            (fun _ _ h => endsClosing_error h)

/-- Preparing the webhook throws nothing, and settles nothing. -/
theorem closing_prepareWebhook :
    (closingProtocol env).Follows (prepareWebhook q) (.owing d)
      (fun r σ => σ = .owing d ∧ ∃ prepared, r = .ok prepared) := by
  unfold prepareWebhook
  rw [Protocol.follows_attempt]
  simp only [findTenantSigningSecret, bind_assoc]
  refine closing_call (fun _ => .owing d) trivial (fun _ => rfl) (fun _ => ⟨rfl, _, rfl⟩)
    fun tenant => ?_
  cases (tenant.map Tenant.hmacSecret).filter (fun s => !s.isEmpty) with
  | none => exact ⟨rfl, _, rfl⟩
  | some secret =>
      have hload : (closingProtocol env).Follows (loadPayload q) (.owing d)
          (fun _ σ => σ = .owing d) := by
        unfold loadPayload
        cases truthyKey q.payloadS3Key with
        | none => exact rfl
        | some key =>
            refine closing_call (fun _ => .owing d) trivial (fun _ => rfl) (fun _ => rfl)
              fun body => ?_
            cases body with
            | none => exact rfl
            | some text =>
                change (closingProtocol env).Follows
                  (Prog.getOrThrow (Json.parse text) syntaxError) _ _
                cases Json.parse text <;> exact rfl
      exact hload.bind (fun _ _ h => ⟨h, _, rfl⟩) (fun _ _ h => ⟨h, _, rfl⟩)

/-- Posting the webhook throws nothing, and settles nothing. -/
theorem closing_postWebhook (body : Json) (secret : JsString) :
    (closingProtocol env).Follows (postWebhook env env.receiverUrl body secret) (.owing d)
      (fun r σ => σ = .owing d ∧ ∃ result, r = .ok result) := by
  unfold postWebhook
  have hcall : (closingProtocol env).Follows (Prog.attempt (do
      let signature ← signWebhook env body.stringify secret
      Services.fetch env.receiverUrl body.stringify signature)) (.owing d)
      (fun r σ => σ = .owing d ∧ ∃ response, r = .ok response) := by
    rw [Protocol.follows_attempt]
    unfold signWebhook
    cases secret.isEmpty with
    | true => exact ⟨rfl, _, rfl⟩
    | false =>
        exact Protocol.Follows.last (P := closingProtocol env) (fun _ => .owing d) trivial
          (fun _ => rfl) (fun _ => ⟨rfl, _, rfl⟩) fun _ => ⟨rfl, _, rfl⟩
  refine hcall.bind ?_ ?_
  · rintro response σ ⟨rfl, -⟩
    cases response with
    | error e => exact ⟨rfl, _, rfl⟩
    | ok status =>
        simp only
        split_ifs <;> exact ⟨rfl, _, rfl⟩
  · rintro e σ ⟨-, _, h⟩
    cases h

/-- Recording an outcome in the circuit settles nothing, and may fail. -/
theorem closing_writeOutcome (next : CircuitSnapshot → ℚ → CircuitSnapshot) :
    (closingProtocol env).Follows (do
      let current ← readCircuitState env.receiverUrl
      let t ← Services.now
      writeCircuitState env.receiverUrl (next current t)
        (Circuit.toOverrides Circuit.defaultConfig)
      return next current t) (.owing d)
      (fun r σ => ((∃ s, r = .ok s) → σ = .owing d) ∧ ((∃ e, r = .error e) → σ = .gone)) := by
  simp only [readCircuitState, writeCircuitState, bind_assoc, pure_bind]
  have hfailed : ∀ e : JsError, ((∃ s, (Except.error e : Except JsError CircuitSnapshot) = .ok s) →
      Closing.gone = .owing d) ∧ ((∃ e', (Except.error e : Except JsError CircuitSnapshot) =
        .error e') → Closing.gone = .gone) := by simp
  refine closing_call (fun _ => .owing d) trivial (fun _ => rfl) hfailed fun raw => ?_
  refine closing_call (fun _ => .owing d) trivial (fun _ => rfl) hfailed fun t => ?_
  refine closing_call (fun _ => .owing d) trivial (fun _ => rfl) hfailed fun _ => ?_
  refine closing_call (fun _ => .owing d) trivial (fun _ => rfl) hfailed fun _ => ⟨?_, ?_⟩
  · exact fun _ => rfl
  · rintro ⟨e, he⟩
    cases he

/-- From `postWebhook` on. -/
theorem closing_deliverWebhook (secret : JsString) (payload : Json) :
    (closingProtocol env).Follows (deliverWebhook env m q d secret payload) (.owing d)
      (EndsClosing env m) := by
  unfold deliverWebhook
  refine (closing_postWebhook _ secret).bind ?_ (fun _ _ h => nomatch h.2)
  rintro result σ ⟨rfl, -⟩
  have hgone : ∀ {e : JsError} {σ : Closing}, σ = .gone → EndsClosing env m (.error e) σ := by
    rintro e σ rfl
    exact endsClosing_error gone_ne_owing
  cases result with
  | ok status =>
      refine Protocol.Follows.bind (closing_writeOutcome _) (fun s σ hσ => ?_)
        (fun e σ hσ => hgone (hσ.2 ⟨e, rfl⟩))
      rw [hσ.1 ⟨s, rfl⟩]
      refine closing_call (fun _ => .gone) (.inl rfl) (fun _ => rfl) (fun _ => hgone rfl)
        fun _ => ?_
      refine ⟨fun d h => absurd h (gone_ne_owing d), ?_⟩
      rintro ack ⟨rfl⟩
      rfl
  | failed status error =>
      refine Protocol.Follows.bind (closing_writeOutcome _) (fun s σ hσ => ?_)
        (fun e σ hσ => hgone (hσ.2 ⟨e, rfl⟩))
      rw [hσ.1 ⟨s, rfl⟩]
      exact closing_settleFailure error

/-- From `upsertInFlight` on. -/
theorem closing_attemptDelivery :
    (closingProtocol env).Follows (attemptDelivery env m q) .idle (EndsClosing env m) := by
  have hprepared : ∀ row (f : Except JsError (JsString × Json) → Async Acknowledge),
      (∀ e, f (.error e) = settleFailure env m q row e.message) →
      (∀ sp : JsString × Json, f (.ok sp) = deliverWebhook env m q row sp.1 sp.2) →
      (closingProtocol env).Follows (prepareWebhook q >>= f) (.owing row)
        (EndsClosing env m) := by
    intro row f herror hok
    refine closing_prepareWebhook.bind ?_ (fun _ _ h => nomatch h.2)
    rintro prepared σ ⟨rfl, -⟩
    cases prepared with
    | error e =>
        rw [herror]
        exact closing_settleFailure e.message
    | ok sp =>
        rw [hok]
        exact closing_deliverWebhook sp.1 sp.2
  have hidle : ∀ e, EndsClosing env m (.error e) .idle := fun e =>
    endsClosing_error idle_ne_owing
  simp only [attemptDelivery, upsertInFlight, bind_assoc]
  refine closing_call (fun _ => .idle) trivial (fun _ => rfl) hidle fun found => ?_
  refine closing_call (fun _ => .idle) trivial (fun _ => rfl) hidle fun t => ?_
  cases found with
  | some row =>
      exact closing_call (fun row => .owing row) trivial (fun _ => rfl) hidle
        fun row => hprepared row _ (fun _ => rfl) fun _ => rfl
  | none =>
      exact closing_call (fun row => .owing row) trivial (fun _ => rfl) hidle
        fun row => hprepared row _ (fun _ => rfl) fun _ => rfl

/-- After the look at the delivery row. -/
theorem closing_checkExisting {st : CircuitState} (existing : Option Delivery) :
    (closingProtocol env).Follows (checkExisting env m st q existing) .idle
      (EndsClosing env m) := by
  have hidle : ∀ e, EndsClosing env m (.error e) .idle := fun e =>
    endsClosing_error idle_ne_owing
  have hstart : (closingProtocol env).Follows (startAttempt env m st q) .idle
      (EndsClosing env m) := by
    cases st with
    | closed | opened => exact closing_attemptDelivery
    | halfOpen =>
        exact closing_call (fun _ => .idle) trivial (fun _ => rfl) hidle
          fun _ => closing_attemptDelivery
  unfold checkExisting
  split_ifs
  · exact closing_acknowledge_return idle_ne_owing
  · cases existing.bind Delivery.nextAttemptAt with
    | none => exact hstart
    | some w =>
        refine closing_call (fun _ => .idle) trivial (fun _ => rfl) hidle fun t => ?_
        split_ifs
        · exact closing_call (fun _ => .idle) trivial (fun _ => rfl) hidle
            fun _ => closing_hide_return idle_ne_owing
        · exact hstart

/-- **`handleMessage` settles what it owes**, unless an operation fails. -/
theorem closing_handleMessage (env : Env) (m : Message) :
    (closingProtocol env).Follows (handleMessage env m) .idle (EndsClosing env m) := by
  have hidle : ∀ e, EndsClosing env m (.error e) .idle := fun e =>
    endsClosing_error idle_ne_owing
  simp only [handleMessage, readCircuitState, bind_assoc, pure_bind]
  refine closing_call (fun _ => .idle) trivial (fun _ => rfl) hidle fun raw => ?_
  refine closing_call (fun _ => .idle) trivial (fun _ => rfl) hidle fun t => ?_
  split_ifs
  · cases parseQueueMessage m.body with
    | none => exact closing_acknowledge_return idle_ne_owing
    | some parsed =>
        simp only [handleParsed, consumeTenantToken, bind_assoc]
        refine closing_call (fun _ => .idle) trivial (fun _ => rfl) hidle fun t => ?_
        cases TokenBucket.normalizeRateLimitConfig
            (TokenBucket.toOverrides env.deliveryRateLimit) with
        | error e => exact hidle e
        | ok config =>
            simp only [bind_assoc, pure_bind]
            refine closing_call (fun _ => .idle) trivial (fun _ => rfl) hidle fun result => ?_
            split_ifs
            · exact closing_call (fun _ => .idle) trivial (fun _ => rfl) hidle
                closing_checkExisting
            · exact closing_hide_return idle_ne_owing
  · exact closing_hide_return idle_ne_owing

end

/-! ## The contract -/

/-- Where a job starts. -/
def firstClosing : Job → Closing
  | .deliver _ => .idle
  | _ => .gone

/-- How a job may end. -/
def endsClosing (env : Env) : Job → Except JsError Acknowledge → Closing → Prop
  | .deliver m => EndsClosing env m
  | _ => fun _ _ => True

/-- Every job keeps to it; only handlers owe anything. -/
theorem closing_body {env : Env} {j : Job} {s : State} {p : Async Acknowledge}
    (h : body env j s = some p) :
    (closingProtocol env).Follows p (firstClosing j) (endsClosing env j) := by
  have hallow : ∀ op, Closes env .gone op := fun op => trivial
  have hnext : ∀ op r, Closing.next .gone op r = .gone := fun op r => rfl
  have hgone : ∀ p : Async Acknowledge,
      (closingProtocol env).Follows p .gone (fun _ _ => True) := fun p =>
    Protocol.follows_of_sink (P := closingProtocol env) hallow hnext (fun _ => trivial) p
  cases j with
  | deliver m =>
      obtain ⟨-, rfl⟩ := body_deliver h
      exact closing_handleMessage env m
  | acknowledge m | publish id | ingest input | replay input => exact hgone p

/-- The acknowledgement that a handler returned writes no row. -/
theorem closing_returned_acknowledge {env : Env} (m : Message) (τ : Closing) :
    (closingProtocol env).Follows (acknowledgeMessage m.id) τ (fun _ _ => True) := by
  have hallow : ∀ σ op, (∀ id data, op ≠ .updateDelivery id data) → Closes env σ op := by
    intro σ op hop
    cases σ <;> cases op <;> first | exact trivial | exact absurd rfl (hop _ _)
  refine closing_call _ (hallow _ _ (by simp)) (fun _ => rfl) (fun _ => trivial) fun _ => ?_
  exact Protocol.Follows.last (P := closingProtocol env) _ (hallow _ _ (by simp)) (fun _ => rfl)
    (fun _ => trivial) fun _ => trivial

/-- **The contract of what is owed.** -/
def closing (env : Env) : Contract (system env) (closingProtocol env) where
  Inv _ := True
  first j _ := firstClosing j
  Facts _ _ _ _ := True
  End := endsClosing env
  Apart _ _ := True
  Ok _ _ _ _ _ := True
  Fresh _ _ := True
  follows := closing_body
  begins _ _ _ := trivial
  surroundings _ _ := ⟨trivial, fun _ _ => trivial, fun _ _ _ _ => trivial⟩
  call _ _ _ _ _ := ⟨trivial, trivial⟩
  frame _ _ _ _ _ _ _ _ := trivial
  goes_on {pid j a φ w j' p'} hend _ ha := by
    obtain ⟨m, ack, rfl, rfl, rfl, rfl⟩ := after_eq_some ha
    obtain rfl := hend.2 ack rfl
    exact (closing_returned_acknowledge m φ).bind (fun _ _ _ => trivial) (fun _ _ _ => trivial)
  after _ _ _ := trivial
  apart_after _ _ := trivial
  apart_symm _ := trivial
  fresh_succ _ := trivial
  fresh_call _ _ _ := trivial

/-- The contract at the start. -/
theorem closing_start {env : Env} {s : Sys} (h : Start s) : (closing env).Good s :=
  .of_empty trivial trivial h.tasks
