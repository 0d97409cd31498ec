/-
# Where a process stands

A process of one of the services walks through phases: a handler reads the circuit, is
denied or goes on, checks the delivery row, counts an attempt, and so on.  A phase keeps
what the process has learnt on its way.

* `Allows` lists, phase by phase, the operations a process may perform there.
* `Phase.next` says where the answer leads.
* `follows_handleMessage` and its companions: the programs perform nothing else, whatever
  the services answer.

Every argument about runs is by cases on `Allows`.
-/
import Waybill.Publisher
import Waybill.Api

open Worker Publisher Api

/-- Where a process stands. -/
inductive Phase where
  /-- a handler, before it reads the circuit -/
  | start (m : Message)
  /-- it has read the stored circuit -/
  | read (m : Message) (raw : RedisHash)
  /-- the circuit denied the delivery -/
  | denied (m : Message)
  /-- a denied message has been hidden -/
  | hidden (m : Message)
  /-- and the reason has been counted -/
  | concealed (m : Message)
  /-- the body is no queue message -/
  | poison (m : Message)
  /-- the circuit admitted the delivery -/
  | admitted (m : Message) (state : CircuitState) (q : QueueMessage)
  /-- the tenant's limit admitted it as well -/
  | checking (m : Message) (state : CircuitState) (q : QueueMessage)
  /-- the delivery row found is not complete -/
  | due (m : Message) (state : CircuitState) (q : QueueMessage) (existing : Option Delivery)
  /-- the delivery row found is complete -/
  | settled (m : Message) (q : QueueMessage) (row : Delivery)
  /-- inside `upsertInFlight`, after its query -/
  | upserting (m : Message) (q : QueueMessage) (found : Option Delivery)
  /-- an attempt is counted: the webhook is prepared, posted unless `posted`, or given up -/
  | trying (m : Message) (q : QueueMessage) (row : Delivery) (posted : Bool)
      (text : Option JsString) (archived : Bool)
  /-- the dead letter is recorded -/
  | buried (m : Message) (q : QueueMessage) (row : Delivery)
  /-- the message is being hidden -/
  | deferring (m : Message)
  /-- the receiver accepted the webhook -/
  | accepted (m : Message) (q : QueueMessage) (row : Delivery)
  /-- the final status is committed -/
  | complete (m : Message) (q : QueueMessage) (row : Delivery)
  /-- `publishOne`, before and after the send -/
  | publishing (row : Outbox) (event : Event)
  | sent (row : Outbox) (event : Event)
  /-- `ingestEvent`, before an identifier is drawn, after, and after the upload -/
  | validating
  | drafted (tenantId type : JsString) (payload : Json) (eventId : JsString)
  | uploaded (tenantId type : JsString) (payload : Json) (eventId : JsString)
  /-- `requestReplay`, with the source it last read -/
  | replaying (source : Option ReplaySource)
  /-- nothing is left to do -/
  | over

/-- The key under which a message's payload is or will be archived. -/
def keyOf (q : QueueMessage) : JsString := (truthyKey q.payloadS3Key).getD (archiveKey q.eventId)

/-- The payload a handler has at hand, given the object it loaded. -/
def payloadOf (q : QueueMessage) (text : Option JsString) : Option Json :=
  match truthyKey q.payloadS3Key with
  | none => some q.payload
  | some _ => text.bind Json.parse

/-! ## What a phase allows -/

/-- The operations a process may perform in a phase. -/
inductive Allows (env : Env) : Phase → Op → Prop where
  | readCircuit {m} : Allows env (.start m) (.hgetall (Circuit.circuitKeyForTarget env.receiverUrl))
  | decide {m raw} : Allows env (.read m raw) .now
  | deniedRelease {m} : Allows env (.denied m) (.releaseLease m.id)
  | deniedHide {m s} : Allows env (.denied m) (.changeVisibility m.id s)
  | hiddenCount {m} : Allows env (.hidden m) (.recordDeferral .circuitOpen)
  | poisonRelease {m} : Allows env (.poison m) (.releaseLease m.id)
  | poisonDelete {m} : Allows env (.poison m) (.deleteMessage m.id)
  | limitNow {m st q} : Allows env (.admitted m st q) .now
  | limit {m st q c r t} : Allows env (.admitted m st q)
      (.evalConsumeToken (TokenBucket.tenantRateLimitKey q.tenantId .delivery) c r t)
  | check {m st q} : Allows env (.checking m st q) (.findDelivery q.eventId env.receiverUrl)
  | dueNow {m st q e} : Allows env (.due m st q e) .now
  | dueRelease {m st q e} : Allows env (.due m st q e) (.releaseLease m.id)
  | dueHide {m st q e s} : Allows env (.due m st q e) (.changeVisibility m.id s)
  | dueCount {m st q e} : Allows env (.due m st q e) (.recordDeferral .notDue)
  | probe {m q e} : Allows env (.due m .halfOpen q e)
      (.hset (Circuit.circuitKeyForTarget env.receiverUrl)
        [(js "halfOpenInFlight", .text (js "true"))])
  | look {m st q e} : Allows env (.due m st q e) (.findDelivery q.eventId env.receiverUrl)
  | settledRelease {m q d} : Allows env (.settled m q d) (.releaseLease m.id)
  | settledDelete {m q d} : Allows env (.settled m q d) (.deleteMessage m.id)
  | upsertNow {m q f} : Allows env (.upserting m q f) .now
  | upsertUpdate {m q d t} :
      Allows env (.upserting m q (some d)) (.updateDelivery d.id (inFlightData t))
  | upsertCreate {m q t} : Allows env (.upserting m q none)
      (.createDelivery (inFlightDelivery q.eventId q.tenantId env.receiverUrl t))
  | secret {m q d p x a} : Allows env (.trying m q d p x a) (.findTenant q.tenantId)
  | load {m q d p x a key} : truthyKey q.payloadS3Key = some key →
      Allows env (.trying m q d p x a) (.getObject key)
  | fetch {m q d x a payload g} : payloadOf q x = some payload →
      Allows env (.trying m q d false x a)
        (.fetch env.receiverUrl (webhookBody q payload).stringify g)
  | failureRead {m q d p x a} : Allows env (.trying m q d p x a)
      (.hgetall (Circuit.circuitKeyForTarget env.receiverUrl))
  | failureNow {m q d p x a} : Allows env (.trying m q d p x a) .now
  | failureWrite {m q d p x a f} : Allows env (.trying m q d p x a)
      (.hset (Circuit.circuitKeyForTarget env.receiverUrl) f)
  | failureExpire {m q d p x a} : Allows env (.trying m q d p x a)
      (.expire (Circuit.circuitKeyForTarget env.receiverUrl)
        (Circuit.ttlSeconds Circuit.defaultConfig))
  | backoff {m q d p x a} : Allows env (.trying m q d p x a) .random
  | retry {m q d p x a e t} :
      Allows env (.trying m q d p x a) (.updateDelivery d.id (failedData e t))
  | archive {m q d p x} : truthyKey q.payloadS3Key = none →
      Allows env (.trying m q d p x false)
        (.putObject (archiveKey q.eventId) q.payload.stringify)
  | bury {m q d p x a e} : ((truthyKey q.payloadS3Key).isSome ∨ a = true) →
      Allows env (.trying m q d p x a)
        (.upsertDeadLetter (deadLetterOf d env.receiverUrl e (keyOf q)))
  | markDead {m q d e} :
      Allows env (.buried m q d) (.updateDelivery d.id (deadLetteredData e))
  | deferRelease {m} : Allows env (.deferring m) (.releaseLease m.id)
  | deferHide {m s} : Allows env (.deferring m) (.changeVisibility m.id s)
  | deferCount {m} : Allows env (.deferring m) (.recordDeferral .rateLimit)
  | successRead {m q d} : Allows env (.accepted m q d)
      (.hgetall (Circuit.circuitKeyForTarget env.receiverUrl))
  | successNow {m q d} : Allows env (.accepted m q d) .now
  | successWrite {m q d f} : Allows env (.accepted m q d)
      (.hset (Circuit.circuitKeyForTarget env.receiverUrl) f)
  | successExpire {m q d} : Allows env (.accepted m q d)
      (.expire (Circuit.circuitKeyForTarget env.receiverUrl)
        (Circuit.ttlSeconds Circuit.defaultConfig))
  | markDone {m q d} : Allows env (.accepted m q d) (.updateDelivery d.id succeededData)
  | completeRelease {m q d} : Allows env (.complete m q d) (.releaseLease m.id)
  | completeDelete {m q d} : Allows env (.complete m q d) (.deleteMessage m.id)
  | send {row event} :
      Allows env (.publishing row event) (.sendMessage event.tenantId (messageBody event))
  | sentNow {row event} : Allows env (.sent row event) .now
  | publish {row event t} : Allows env (.sent row event) (.markPublished row.id t)
  | ingestTenant {t} : Allows env .validating (.findTenant t)
  | ingestNow : Allows env .validating .now
  | ingestLimit {tenantId c r t} : Allows env .validating
      (.evalConsumeToken (TokenBucket.tenantRateLimitKey tenantId .ingestion) c r t)
  | draft {t ty p} : Allows env .validating (.newEventId t ty p)
  | upload {t ty p e} : Allows env (.drafted t ty p e) (.putObject (claimCheckKey t e) p.stringify)
  | commitInline {t ty p e} :
      Allows env (.drafted t ty p e) (.createEvent (eventRecord t ty e p .postgres))
  | commitUploaded {t ty p e} :
      Allows env (.uploaded t ty p e) (.createEvent (eventRecord t ty e p .s3))
  | replayKey {s t k} : Allows env (.replaying s) (.findReplayByKey t k)
  | replaySource {s t d} : Allows env (.replaying s) (.findReplaySource t d)
  | replayArchive {s k} : Allows env (.replaying s) (.getObject k)
  | commitReplay {source input} :
      Allows env (.replaying (some source)) (.insertReplay (newReplay input source))

/-! ## Where an answer leads -/

/-- After the circuit's decision. -/
def afterDecision (m : Message) (decision : CircuitDecision) : Phase :=
  if decision.allowed then
    match parseQueueMessage m.body with
    | none => .poison m
    | some q => .admitted m decision.state q
  else .denied m

/-- After the look at the delivery row. -/
def afterCheck (m : Message) (state : CircuitState) (q : QueueMessage) :
    Option Delivery → Phase
  | none => .due m state q none
  | some d => if d.status.terminal then .settled m q d else .due m state q (some d)

/-- After the receiver's answer. -/
def afterPost (m : Message) (q : QueueMessage) (row : Delivery) (text : Option JsString)
    (archived : Bool) (status : ℕ) : Phase :=
  if statusOk status then .accepted m q row else .trying m q row true text archived

/-- Where an answer leads during an attempt. -/
def tryingNext (m : Message) (q : QueueMessage) (row : Delivery) (posted : Bool)
    (text : Option JsString) (archived : Bool) : (op : Op) → Except JsError op.Res → Phase
  | .findTenant _, _ => .trying m q row posted text archived
  | .getObject _, .ok x => .trying m q row posted x archived
  | .getObject _, .error _ => .trying m q row posted text archived
  | .fetch .., .ok status => afterPost m q row text archived status
  | .fetch .., .error _ => .trying m q row true text archived
  | .putObject .., .ok _ => .trying m q row posted text true
  | .upsertDeadLetter _, .ok _ => .buried m q row
  | .updateDelivery .., .ok _ => .deferring m
  | _, .ok _ => .trying m q row posted text archived
  | _, .error _ => .over

/-- Where an answer leads. -/
def Phase.next : Phase → (op : Op) → Except JsError op.Res → Phase
  -- the attempt has phases of its own
  | .trying m q row posted text archived, op, r => tryingNext m q row posted text archived op r
  | .replaying _, .findReplaySource .., .ok source => .replaying source
  | .replaying source, _, _ => .replaying source
  -- nothing but an attempt and a replay catches an error
  | _, _, .error _ => .over
  | .start m, .hgetall _, .ok raw => .read m raw
  | .read m raw, .now, .ok t =>
      afterDecision m (Circuit.getCircuitDecision (Circuit.decode raw) t {})
  | .denied m, .changeVisibility .., .ok _ => .hidden m
  | .hidden m, .recordDeferral _, .ok _ => .concealed m
  | .admitted m st q, .evalConsumeToken .., .ok r =>
      -- the bucket allows the attempt, or the message is hidden for a while
      if r.1 = 1 then .checking m st q else .deferring m
  | .checking m st q, .findDelivery .., .ok existing => afterCheck m st q existing
  | .due m _ q _, .findDelivery .., .ok found => .upserting m q found
  | .upserting m q _, .updateDelivery .., .ok row => .trying m q row false none false
  | .upserting m q _, .createDelivery _, .ok row => .trying m q row false none false
  | .buried m q row, .updateDelivery .., .ok _ => .complete m q row
  | .accepted m q row, .updateDelivery .., .ok _ => .complete m q row
  | .publishing row event, .sendMessage .., .ok _ => .sent row event
  | .validating, .newEventId t ty p, .ok id => .drafted t ty p id
  | .drafted t ty p e, .putObject .., .ok _ => .uploaded t ty p e
  | .drafted .., .createEvent _, .ok _ => .over
  | φ, _, .ok _ => φ

/-- The protocol of all services. -/
abbrev protocol (env : Env) : Protocol Services where
  Phase := Phase
  Allows := Allows env
  next := Phase.next

/-! ## The handler keeps to its phases -/

section

variable {env : Env} {m : Message} {q : QueueMessage} {d : Delivery}

/-- The phases in which a handler may return without an acknowledgement: its message has been
hidden or deleted. -/
def Phase.rests : Phase → Bool
  | .concealed _ => true
  | .poison _ => true
  | .due .. => true
  | .settled .. => true
  | .deferring _ => true
  | .complete .. => true
  | _ => false

/-- How a handler may end: with an acknowledgement only after a final status. -/
def Returns (m : Message) : Except JsError Acknowledge → Phase → Prop
  | .ok (some ack), φ => ack = acknowledgeMessage m.id ∧ ∃ q d, φ = .complete m q d
  | .ok none, φ => φ.rests = true
  | .error _, _ => True

/-- One operation of a program, and what follows its answer in the phase it leads to. -/
theorem follows_step {α : Type} {op : Op} {f : op.Res → Async α} {φ : Phase}
    {Q : Except JsError α → Phase → Prop} (hallow : Allows env φ op) (ψ : op.Res → Phase)
    (hnext : ∀ a, φ.next op (.ok a) = ψ a) (herr : ∀ e, Q (.error e) (φ.next op (.error e)))
    (hok : ∀ a, (protocol env).Follows (f a) (ψ a) Q) :
    (protocol env).Follows (@Prog.perform Services op >>= f) φ Q :=
  Protocol.Follows.step ψ hallow hnext herr hok

/-- One operation at the end of a program. -/
theorem follows_last {op : Op} {φ : Phase}
    {Q : Except JsError op.Res → Phase → Prop} (hallow : Allows env φ op) (ψ : op.Res → Phase)
    (hnext : ∀ a, φ.next op (.ok a) = ψ a) (herr : ∀ e, Q (.error e) (φ.next op (.error e)))
    (hok : ∀ a, Q (.ok a) (ψ a)) :
    (protocol env).Follows (@Prog.perform Services op) φ Q :=
  Protocol.Follows.last ψ hallow hnext herr hok

/-- Hiding a message in phase `φ`, which then is phase `φ'`. -/
theorem follows_hideUntil (φ φ' : Phase) {reason : Option DeferralReason} {delayMs : ℚ}
    {Q : Except JsError Unit → Phase → Prop} (herr : ∀ e ψ, Q (.error e) ψ)
    (hrel : Allows env φ (.releaseLease m.id))
    (hstay : ∀ a, φ.next (.releaseLease m.id) (.ok a) = φ)
    (hhide : ∀ s, Allows env φ (.changeVisibility m.id s))
    (hnext : ∀ s a, φ.next (.changeVisibility m.id s) (.ok a) = φ')
    (hcount : ∀ r, reason = some r →
      Allows env φ' (.recordDeferral r) ∧ ∀ a, Q (.ok ()) (φ'.next (.recordDeferral r) (.ok a)))
    (hdone : reason = none → Q (.ok ()) φ') :
    (protocol env).Follows (hideUntil m.id delayMs reason) φ Q := by
  refine follows_step hrel _ hstay (fun e => herr e _) fun _ => ?_
  refine follows_step (hhide _) _ (hnext _) (fun e => herr e _) fun _ => ?_
  cases reason with
  | none => exact hdone rfl
  | some r =>
      exact follows_last (hcount r rfl).1 _ (fun _ => rfl) (fun e => herr e _) (hcount r rfl).2

/-- A handler that hides its message and returns. -/
theorem follows_hide_return (φ φ' φ'' : Phase) {reason : DeferralReason} {delayMs : ℚ}
    (hrel : Allows env φ (.releaseLease m.id))
    (hstay : ∀ a, φ.next (.releaseLease m.id) (.ok a) = φ)
    (hhide : ∀ s, Allows env φ (.changeVisibility m.id s))
    (hnext : ∀ s a, φ.next (.changeVisibility m.id s) (.ok a) = φ')
    (hcount : Allows env φ' (.recordDeferral reason))
    (hlast : ∀ a, φ'.next (.recordDeferral reason) (.ok a) = φ'')
    (hdone : φ''.rests = true) :
    (protocol env).Follows (do
      hideUntil m.id delayMs (some reason)
      return (none : Acknowledge)) φ (Returns m) := by
  have hhidden : (protocol env).Follows (hideUntil m.id delayMs (some reason)) φ
      (fun r ψ => r = .ok () → ψ = φ'') := by
    refine follows_hideUntil φ φ' (fun _ _ h => nomatch h) hrel hstay hhide hnext ?_
      (fun h => nomatch h)
    rintro r ⟨rfl⟩
    exact ⟨hcount, fun a _ => hlast a⟩
  refine hhidden.bind (fun _ ψ hψ => ?_) (fun _ _ _ => trivial)
  rw [hψ rfl]
  exact hdone

/-- Deleting a message in phase `φ`. -/
theorem follows_acknowledge (φ : Phase) {Q : Except JsError Unit → Phase → Prop}
    (herr : ∀ e ψ, Q (.error e) ψ) (hrel : Allows env φ (.releaseLease m.id))
    (hstay : ∀ a, φ.next (.releaseLease m.id) (.ok a) = φ)
    (hdel : Allows env φ (.deleteMessage m.id))
    (hdone : ∀ a, Q (.ok ()) (φ.next (.deleteMessage m.id) (.ok a))) :
    (protocol env).Follows (acknowledgeMessage m.id) φ Q := by
  refine follows_step hrel _ hstay (fun e => herr e _) fun _ => ?_
  exact follows_last hdel _ (fun _ => rfl) (fun e => herr e _) hdone

/-- A handler that deletes its message and returns. -/
theorem follows_acknowledge_return (φ : Phase) (hrel : Allows env φ (.releaseLease m.id))
    (hstay : ∀ a, φ.next (.releaseLease m.id) (.ok a) = φ)
    (hdel : Allows env φ (.deleteMessage m.id))
    (hlast : ∀ a, φ.next (.deleteMessage m.id) (.ok a) = φ)
    (hdone : φ.rests = true) :
    (protocol env).Follows (do
      acknowledgeMessage m.id
      return (none : Acknowledge)) φ (Returns m) := by
  have hdeleted : (protocol env).Follows (acknowledgeMessage m.id) φ
      (fun r ψ => r = .ok () → ψ = φ) :=
    follows_acknowledge φ (fun _ _ h => nomatch h) hrel hstay hdel (fun a _ => hlast a)
  refine hdeleted.bind (fun _ ψ hψ => ?_) (fun _ _ _ => trivial)
  rw [hψ rfl]
  exact hdone

/-- Moving a delivery to the dead letters. -/
theorem follows_moveToDeadLetter {p : Bool} {x : Option JsString} (error : JsString) :
    (protocol env).Follows (moveToDeadLetter d env.receiverUrl error q m.id)
      (.trying m q d p x false) (fun r φ => r = .ok () → φ = .complete m q d) := by
  have hbury : ∀ a, ((truthyKey q.payloadS3Key).isSome ∨ a = true) →
      (protocol env).Follows (do
        let _ ← createDeadLetter (deadLetterOf d env.receiverUrl error (keyOf q))
        let _ ← markDeadLettered d.id error
        acknowledgeMessage m.id) (.trying m q d p x a)
        (fun r φ => r = .ok () → φ = .complete m q d) := by
    intro a ha
    refine follows_step (.bury ha) (fun _ => .buried m q d) (fun _ => rfl) (fun _ h => nomatch h)
      fun _ => ?_
    refine follows_step .markDead (fun _ => .complete m q d) (fun _ => rfl) (fun _ h => nomatch h)
      fun _ => ?_
    exact follows_acknowledge _ (fun _ _ h => nomatch h) .completeRelease (fun _ => rfl)
      .completeDelete (fun _ _ => rfl)
  simp only [moveToDeadLetter, archivePayload]
  cases hk : truthyKey q.payloadS3Key with
  | some key =>
      have hkey : keyOf q = key := by rw [keyOf, hk]; rfl
      have h := hbury false (.inl (by rw [hk]; rfl))
      rw [hkey] at h
      exact h
  | none =>
      have hkey : keyOf q = archiveKey q.eventId := by rw [keyOf, hk]; rfl
      simp only [bind_assoc, pure_bind]
      refine follows_step (.archive hk) (fun _ => .trying m q d p x true) (fun _ => rfl)
        (fun _ h => nomatch h) fun _ => ?_
      have h := hbury true (.inr rfl)
      rw [hkey] at h
      exact h

/-- Scheduling a retry. -/
theorem follows_scheduleRetry {p : Bool} {x : Option JsString} {n : ℕ} (error : JsString) :
    (protocol env).Follows (scheduleRetry d.id n error m.id) (.trying m q d p x false)
      (fun r φ => r = .ok () → φ = .deferring m) := by
  simp only [scheduleRetry, nextAttemptAt, backoffDelayMs, bind_assoc, pure_bind]
  refine follows_step .failureNow (fun _ => .trying m q d p x false) (fun _ => rfl)
    (fun _ h => nomatch h) fun _ => ?_
  refine follows_step .backoff (fun _ => .trying m q d p x false) (fun _ => rfl)
    (fun _ h => nomatch h) fun _ => ?_
  refine follows_step .failureNow (fun _ => .trying m q d p x false) (fun _ => rfl)
    (fun _ h => nomatch h) fun _ => ?_
  refine follows_step .retry (fun _ => .deferring m) (fun _ => rfl) (fun _ h => nomatch h)
    fun _ => ?_
  exact follows_hideUntil _ (.deferring m) (fun _ _ h => nomatch h) .deferRelease (fun _ => rfl)
    (fun _ => .deferHide) (fun _ _ => rfl) (fun _ h => nomatch h) (fun _ _ => rfl)

/-- An attempt that failed. -/
theorem follows_settleFailure {p : Bool} {x : Option JsString} (error : JsString) :
    (protocol env).Follows (settleFailure env m q d error) (.trying m q d p x false)
      (Returns m) := by
  unfold settleFailure
  cases isExhausted env d.attemptCount with
  | error e => exact trivial
  | ok exhausted =>
      cases exhausted with
      | true =>
          refine (follows_moveToDeadLetter error).bind (fun _ φ hφ => ?_) (fun _ _ _ => trivial)
          rw [hφ rfl]
          rfl
      | false =>
          refine (follows_scheduleRetry error).bind (fun _ φ hφ => ?_) (fun _ _ _ => trivial)
          rw [hφ rfl]
          rfl

/-- Loading the payload: only what was loaded is returned. -/
theorem follows_loadPayload :
    (protocol env).Follows (loadPayload q) (.trying m q d false none false)
      (fun r φ => ∃ x, φ = .trying m q d false x false ∧
        ∀ payload, r = .ok payload → payloadOf q x = some payload) := by
  unfold loadPayload
  cases hk : truthyKey q.payloadS3Key with
  | none =>
      refine ⟨none, rfl, ?_⟩
      rintro _ ⟨rfl⟩
      rw [payloadOf, hk]
  | some key =>
      refine follows_step (.load hk) (fun body => .trying m q d false body false) (fun _ => rfl)
        (fun _ => ⟨none, rfl, fun _ h => nomatch h⟩) fun body => ?_
      cases body with
      | none => exact ⟨none, rfl, fun _ h => nomatch h⟩
      | some text =>
          change (protocol env).Follows (Prog.getOrThrow (Json.parse text) syntaxError) _ _
          cases hp : Json.parse text with
          | none => exact ⟨some text, rfl, fun _ h => nomatch h⟩
          | some payload =>
              refine ⟨some text, rfl, ?_⟩
              rintro _ ⟨rfl⟩
              rw [payloadOf, hk]
              exact hp

/-- Preparing the webhook. -/
theorem follows_prepareWebhook :
    (protocol env).Follows (prepareWebhook q) (.trying m q d false none false)
      (fun r φ => ∃ prepared, r = .ok prepared ∧ ∃ x, φ = .trying m q d false x false ∧
        ∀ sp, prepared = .ok sp → payloadOf q x = some sp.2) := by
  unfold prepareWebhook
  rw [Protocol.follows_attempt]
  simp only [findTenantSigningSecret, bind_assoc]
  refine follows_step .secret (fun _ => .trying m q d false none false) (fun _ => rfl)
    (fun _ => ⟨_, rfl, none, rfl, fun _ h => nomatch h⟩) fun tenant => ?_
  cases (tenant.map Tenant.hmacSecret).filter (fun s => !s.isEmpty) with
  | none => exact ⟨_, rfl, none, rfl, fun _ h => nomatch h⟩
  | some secret =>
      refine follows_loadPayload.bind ?_ ?_
      · rintro payload φ ⟨x, hφ, hpay⟩
        refine ⟨_, rfl, x, hφ, ?_⟩
        rintro _ ⟨rfl⟩
        exact hpay payload rfl
      · rintro e φ ⟨x, hφ, -⟩
        exact ⟨_, rfl, x, hφ, fun _ h => nomatch h⟩

/-- Where the receiver's answer leaves an attempt. -/
def Answered (m : Message) (q : QueueMessage) (row : Delivery) (text : Option JsString) :
    Except JsError ℕ → Phase → Prop
  | .ok status, φ => φ = afterPost m q row text false status
  | .error _, φ => ∃ posted, φ = .trying m q row posted text false

/-- Posting the webhook. -/
theorem follows_postWebhook {x : Option JsString} {payload : Json} (secret : JsString)
    (hpay : payloadOf q x = some payload) :
    (protocol env).Follows (postWebhook env env.receiverUrl (webhookBody q payload) secret)
      (.trying m q d false x false)
      (fun r φ => ∃ result, r = .ok result ∧ match result with
        | .ok _ => φ = .accepted m q d
        | .failed _ _ => ∃ p, φ = .trying m q d p x false) := by
  unfold postWebhook
  have hcall : (protocol env).Follows (Prog.attempt (do
      let signature ← signWebhook env (webhookBody q payload).stringify secret
      Services.fetch env.receiverUrl (webhookBody q payload).stringify signature))
      (.trying m q d false x false)
      (fun r φ => ∃ result, r = .ok result ∧ Answered m q d x result φ) := by
    rw [Protocol.follows_attempt]
    unfold signWebhook
    cases secret.isEmpty with
    | true => exact ⟨_, rfl, false, rfl⟩
    | false =>
        exact follows_last (.fetch hpay) (fun status => afterPost m q d x false status)
          (fun _ => rfl) (fun _ => ⟨_, rfl, true, rfl⟩) (fun _ => ⟨_, rfl, rfl⟩)
  refine hcall.bind ?_ ?_
  · rintro response φ ⟨result, ⟨rfl⟩, hφ⟩
    cases response with
    | error e => exact ⟨_, rfl, hφ⟩
    | ok status =>
        simp only at hφ
        by_cases hok : statusOk status = true
        · simp only [hok, if_true]
          exact ⟨_, rfl, by rw [hφ, afterPost, if_pos hok]⟩
        · simp only [hok]
          exact ⟨_, rfl, true, by rw [hφ, afterPost, if_neg hok]⟩
  · rintro e φ ⟨_, h, -⟩
    cases h

/-- Recording a failure in the circuit. -/
theorem follows_recordDeliveryFailure {p : Bool} {x : Option JsString} :
    (protocol env).Follows (recordDeliveryFailure env.receiverUrl {}) (.trying m q d p x false)
      (fun r φ => (∃ s, r = .ok s) → φ = .trying m q d p x false) := by
  simp only [recordDeliveryFailure, readCircuitState, writeCircuitState, bind_assoc, pure_bind]
  refine follows_step .failureRead (fun _ => .trying m q d p x false) (fun _ => rfl)
    (fun _ h => nomatch h) fun _ => ?_
  refine follows_step .failureNow (fun _ => .trying m q d p x false) (fun _ => rfl)
    (fun _ h => nomatch h) fun _ => ?_
  refine follows_step .failureWrite (fun _ => .trying m q d p x false) (fun _ => rfl)
    (fun _ h => nomatch h) fun _ => ?_
  exact follows_step .failureExpire (fun _ => .trying m q d p x false) (fun _ => rfl)
    (fun _ h => nomatch h) fun _ _ => rfl

/-- Recording a success in the circuit. -/
theorem follows_recordDeliverySuccess :
    (protocol env).Follows (recordDeliverySuccess env.receiverUrl {}) (.accepted m q d)
      (fun r φ => (∃ s, r = .ok s) → φ = .accepted m q d) := by
  simp only [recordDeliverySuccess, readCircuitState, writeCircuitState, bind_assoc, pure_bind]
  refine follows_step .successRead (fun _ => .accepted m q d) (fun _ => rfl) (fun _ h => nomatch h)
    fun _ => ?_
  refine follows_step .successNow (fun _ => .accepted m q d) (fun _ => rfl) (fun _ h => nomatch h)
    fun _ => ?_
  refine follows_step .successWrite (fun _ => .accepted m q d) (fun _ => rfl) (fun _ h => nomatch h)
    fun _ => ?_
  exact follows_step .successExpire (fun _ => .accepted m q d) (fun _ => rfl) (fun _ h => nomatch h)
    fun _ _ => rfl

/-- From `postWebhook` on. -/
theorem follows_deliverWebhook {x : Option JsString} {payload : Json} (secret : JsString)
    (hpay : payloadOf q x = some payload) :
    (protocol env).Follows (deliverWebhook env m q d secret payload)
      (.trying m q d false x false) (Returns m) := by
  unfold deliverWebhook
  refine (follows_postWebhook secret hpay).bind ?_ (fun _ _ _ => trivial)
  rintro result φ ⟨_, ⟨rfl⟩, hφ⟩
  cases result with
  | ok status =>
      obtain rfl : φ = _ := hφ
      refine follows_recordDeliverySuccess.bind (fun s φ hφ => ?_) (fun _ _ _ => trivial)
      rw [hφ ⟨s, rfl⟩]
      exact follows_step .markDone (fun _ => .complete m q d) (fun _ => rfl) (fun _ => trivial)
        fun _ => ⟨rfl, q, d, rfl⟩
  | failed status error =>
      obtain ⟨p, rfl⟩ := hφ
      refine follows_recordDeliveryFailure.bind (fun s φ hφ => ?_) (fun _ _ _ => trivial)
      rw [hφ ⟨s, rfl⟩]
      exact follows_settleFailure error

/-- From a row that is in flight on. -/
theorem follows_prepared {row : Delivery}
    {f : Except JsError (JsString × Json) → Async Acknowledge}
    (herr : ∀ e, f (.error e) = settleFailure env m q row e.message)
    (hok : ∀ sp, f (.ok sp) = deliverWebhook env m q row sp.1 sp.2) :
    (protocol env).Follows (prepareWebhook q >>= f) (.trying m q row false none false)
      (Returns m) := by
  refine follows_prepareWebhook.bind ?_ (fun _ _ _ => trivial)
  rintro prepared φ ⟨_, ⟨rfl⟩, x, rfl, hpay⟩
  cases prepared with
  | error e =>
      rw [herr]
      exact follows_settleFailure e.message
  | ok sp =>
      rw [hok]
      exact follows_deliverWebhook sp.1 (hpay sp rfl)

/-- From `upsertInFlight` on. -/
theorem follows_attemptDelivery {st : CircuitState} {existing : Option Delivery} :
    (protocol env).Follows (attemptDelivery env m q) (.due m st q existing) (Returns m) := by
  simp only [attemptDelivery, upsertInFlight, bind_assoc]
  refine follows_step .look (fun found => .upserting m q found) (fun _ => rfl) (fun _ => trivial)
    fun found => ?_
  refine follows_step .upsertNow (fun _ => .upserting m q found) (fun _ => rfl) (fun _ => trivial)
    fun t => ?_
  cases found with
  | some row =>
      exact follows_step .upsertUpdate _ (fun _ => rfl) (fun _ => trivial)
        fun row => follows_prepared (fun _ => rfl) (fun _ => rfl)
  | none =>
      exact follows_step .upsertCreate _ (fun _ => rfl) (fun _ => trivial)
        fun row => follows_prepared (fun _ => rfl) (fun _ => rfl)

/-- An attempt that is due. -/
theorem follows_startAttempt {st : CircuitState} {existing : Option Delivery} :
    (protocol env).Follows (startAttempt env m st q) (.due m st q existing) (Returns m) := by
  cases st with
  | closed => exact follows_attemptDelivery
  | opened => exact follows_attemptDelivery
  | halfOpen =>
      exact follows_step .probe (fun _ => .due m .halfOpen q existing) (fun _ => rfl)
        (fun _ => trivial) fun _ => follows_attemptDelivery

/-- After the look at the delivery row. -/
theorem follows_checkExisting {st : CircuitState} (existing : Option Delivery) :
    (protocol env).Follows (checkExisting env m st q existing) (afterCheck m st q existing)
      (Returns m) := by
  unfold checkExisting
  by_cases hterm : (existing.map (fun d => d.status.terminal)).getD false = true
  · obtain ⟨row, rfl⟩ : ∃ row, existing = some row := by
      cases existing with
      | none => cases hterm
      | some row => exact ⟨row, rfl⟩
    have hphase : afterCheck m st q (some row) = .settled m q row := if_pos hterm
    rw [if_pos hterm, hphase]
    exact follows_acknowledge_return _ .settledRelease (fun _ => rfl) .settledDelete
      (fun _ => rfl) rfl
  · have hphase : afterCheck m st q existing = .due m st q existing := by
      cases existing with
      | none => rfl
      | some row => exact if_neg hterm
    rw [if_neg hterm, hphase]
    cases existing.bind Delivery.nextAttemptAt with
    | none => exact follows_startAttempt
    | some nextAttempt =>
        refine follows_step .dueNow (fun _ => .due m st q existing) (fun _ => rfl)
          (fun _ => trivial) fun t => ?_
        by_cases ht : nextAttempt > t
        · simp only [ht, if_true]
          refine follows_step .dueNow (fun _ => .due m st q existing) (fun _ => rfl)
            (fun _ => trivial) fun t' => ?_
          exact follows_hide_return _ (.due m st q existing) (.due m st q existing) .dueRelease
            (fun _ => rfl) (fun _ => .dueHide) (fun _ _ => rfl) .dueCount (fun _ => rfl) rfl
        · simp only [ht, if_false]
          exact follows_startAttempt

/-- From the tenant's limit on. -/
theorem follows_handleParsed {st : CircuitState} :
    (protocol env).Follows (handleParsed env m st q) (.admitted m st q) (Returns m) := by
  simp only [handleParsed, consumeTenantToken, bind_assoc]
  refine follows_step .limitNow (fun _ => .admitted m st q) (fun _ => rfl) (fun _ => trivial)
    fun t => ?_
  cases TokenBucket.normalizeRateLimitConfig (TokenBucket.toOverrides env.deliveryRateLimit) with
  | error e => exact trivial
  | ok config =>
      simp only [bind_assoc, pure_bind]
      refine follows_step .limit (fun r => if r.1 = 1 then .checking m st q else .deferring m)
        (fun _ => rfl) (fun _ => trivial) fun result => ?_
      by_cases hallowed : result.1 = 1
      · simp only [hallowed, beq_self_eq_true, if_true]
        exact follows_step .check (afterCheck m st q) (fun _ => rfl) (fun _ => trivial)
          follows_checkExisting
      · have hdenied : (result.1 == 1) = false := by simpa using hallowed
        simp only [hallowed, hdenied, if_false, Bool.false_eq_true]
        exact follows_hide_return _ (.deferring m) (.deferring m) .deferRelease (fun _ => rfl)
          (fun _ => .deferHide) (fun _ _ => rfl) .deferCount (fun _ => rfl) rfl

/-- **`handleMessage` keeps to the protocol.** -/
theorem follows_handleMessage (env : Env) (m : Message) :
    (protocol env).Follows (handleMessage env m) (.start m) (Returns m) := by
  simp only [handleMessage, readCircuitState, bind_assoc, pure_bind]
  refine follows_step .readCircuit (fun raw => .read m raw) (fun _ => rfl) (fun _ => trivial)
    fun raw => ?_
  refine follows_step .decide
    (fun t => afterDecision m (Circuit.getCircuitDecision (Circuit.decode raw) t {}))
    (fun _ => rfl) (fun _ => trivial) fun t => ?_
  unfold afterDecision
  cases (Circuit.getCircuitDecision (Circuit.decode raw) t {}).allowed with
  | true =>
      simp only [if_true]
      cases parseQueueMessage m.body with
      | some q => exact follows_handleParsed
      | none =>
          exact follows_acknowledge_return _ .poisonRelease (fun _ => rfl) .poisonDelete
            (fun _ => rfl) rfl
  | false =>
      simp only [Bool.false_eq_true, if_false]
      exact follows_hide_return _ (.hidden m) (.concealed m) .deniedRelease (fun _ => rfl)
        (fun _ => .deniedHide) (fun _ _ => rfl) .hiddenCount (fun _ => rfl) rfl

/-- The acknowledgement a handler returns. -/
theorem follows_returned_acknowledge :
    (protocol env).Follows (acknowledgeMessage m.id) (.complete m q d) (fun _ _ => True) :=
  follows_acknowledge _ (fun _ _ => trivial) .completeRelease (fun _ => rfl) .completeDelete
    (fun _ => trivial)

end

/-! ## The publisher and the API keep to theirs -/

/-- `publishOne` keeps to the protocol. -/
theorem follows_publishOne (env : Env) (row : Outbox) (event : Event) :
    (protocol env).Follows (publishOne row event) (.publishing row event) (fun _ _ => True) := by
  simp only [publishOne, Publisher.markPublished, bind_assoc]
  refine follows_step .send (fun _ => .sent row event) (fun _ => rfl) (fun _ => trivial)
    fun _ => ?_
  refine follows_step .sentNow (fun _ => .sent row event) (fun _ => rfl) (fun _ => trivial)
    fun _ => ?_
  exact follows_step .publish (fun _ => .sent row event) (fun _ => rfl) (fun _ => trivial)
    fun _ => trivial

/-- Storing an accepted event. -/
theorem follows_storeEvent {env : Env} {t ty e : JsString} {payload : Json} (large : Bool) :
    (protocol env).Follows (storeEvent t ty e payload large) (.drafted t ty payload e)
      (fun _ _ => True) := by
  unfold storeEvent
  cases large with
  | true =>
      refine follows_step .upload (fun _ => .uploaded t ty payload e) (fun _ => rfl)
        (fun _ => trivial) fun _ => ?_
      exact follows_step .commitUploaded _ (fun _ => rfl) (fun _ => trivial) fun _ => trivial
  | false =>
      -- parsing the text that was just printed gives the payload back
      simp only [Bool.false_eq_true, if_false, Json.parse_stringify]
      exact follows_step .commitInline _ (fun _ => rfl) (fun _ => trivial) fun _ => trivial

/-- `ingestEvent` keeps to the protocol. -/
theorem follows_ingestEvent (env : Env) (input : Json) :
    (protocol env).Follows (ingestEvent env input) .validating (fun _ _ => True) := by
  unfold ingestEvent
  cases safeParse input with
  | error issues => exact trivial
  | ok request =>
      simp only
      cases request.payload with
      | none => exact trivial
      | some payload =>
          simp only [ingestValid, enforceIngestionRateLimit, consumeTenantToken, bind_assoc]
          refine follows_step .ingestTenant (fun _ => .validating) (fun _ => rfl)
            (fun _ => trivial) fun tenant => ?_
          cases tenant with
          | none => exact trivial
          | some tenant =>
              refine follows_step .ingestNow (fun _ => .validating) (fun _ => rfl)
                (fun _ => trivial) fun t => ?_
              cases TokenBucket.normalizeRateLimitConfig
                  (TokenBucket.toOverrides env.ingestionRateLimit) with
              | error e => exact trivial
              | ok config =>
                  simp only [bind_assoc, pure_bind]
                  refine follows_step .ingestLimit (fun _ => .validating) (fun _ => rfl)
                    (fun _ => trivial) fun result => ?_
                  by_cases hallowed : result.1 = 1
                  · simp only [hallowed, beq_self_eq_true, if_true, pure_bind]
                    refine follows_step .draft
                      (fun id => .drafted request.tenantId request.type payload id)
                      (fun _ => rfl) (fun _ => trivial) fun id => ?_
                    cases sqsMaxBytes env with
                    | error e => exact trivial
                    | ok limit => exact follows_storeEvent _
                  · have hdenied : (result.1 == 1) = false := by simpa using hallowed
                    simp only [hdenied, Bool.false_eq_true, if_false]
                    exact trivial

/-- Reading an archive. -/
theorem follows_readArchivedPayload {env : Env} {source : Option ReplaySource} (key : JsString) :
    (protocol env).Follows (readArchivedPayload key) (.replaying source)
      (fun _ φ => φ = .replaying source) := by
  unfold readArchivedPayload
  have hget : (protocol env).Follows (Prog.attempt (Services.getObject key)) (.replaying source)
      (fun r φ => ∃ x, r = .ok x ∧ φ = .replaying source) := by
    rw [Protocol.follows_attempt]
    exact follows_last .replayArchive _ (fun _ => rfl) (fun e => ⟨_, rfl, rfl⟩)
      (fun _ => ⟨_, rfl, rfl⟩)
  refine hget.bind ?_ ?_
  · rintro object φ ⟨_, -, rfl⟩
    cases object with
    | error e =>
        simp only
        split_ifs <;> rfl
    | ok object =>
        cases object with
        | none => rfl
        | some text =>
            simp only
            split_ifs
            · rfl
            · cases Json.parse text <;> rfl
  · rintro e φ ⟨_, h, -⟩
    cases h

/-- `response` performs no operation. -/
theorem follows_response {env : Env} {φ : Phase} (record : ReplayRecord) (id : JsString)
    {Q : Except JsError ReplayResponse → Phase → Prop} (hQ : ∀ r, Q r φ) :
    (protocol env).Follows (response record id) φ Q := by
  unfold response
  split_ifs
  · exact hQ _
  · exact hQ _

/-- The transaction of a replay. -/
theorem follows_createReplay {env : Env} {source : Option ReplaySource} (input : ReplayInput)
    (key url : JsString) :
    (protocol env).Follows (createReplay input key url) (.replaying source)
      (fun _ φ => ∃ s, φ = .replaying s) := by
  unfold createReplay
  refine follows_step .replayKey (fun _ => .replaying source) (fun _ => rfl)
    (fun _ => ⟨_, rfl⟩) fun existing => ?_
  cases existing with
  | some record => exact ⟨_, rfl⟩
  | none =>
      refine follows_step .replaySource (fun found => .replaying found) (fun _ => rfl)
        (fun _ => ⟨_, rfl⟩) fun found => ?_
      cases found with
      | none => exact ⟨_, rfl⟩
      | some found =>
          simp only
          split_ifs
          · exact ⟨_, rfl⟩
          · exact follows_step .commitReplay (fun _ => .replaying (some found)) (fun _ => rfl)
              (fun _ => ⟨_, rfl⟩) fun _ => ⟨_, rfl⟩

/-- The transaction and the look at the winner. -/
theorem follows_commitReplay {env : Env} {source : Option ReplaySource} (input : ReplayInput)
    (key url : JsString) :
    (protocol env).Follows (commitReplay input key url) (.replaying source)
      (fun _ φ => ∃ s, φ = .replaying s) := by
  unfold commitReplay
  have htry : (protocol env).Follows (Prog.attempt (do
      let result ← createReplay input key url
      replayResult input result)) (.replaying source)
      (fun r φ => (∃ x, r = .ok x) ∧ ∃ s, φ = .replaying s) := by
    rw [Protocol.follows_attempt]
    refine (follows_createReplay input key url).bind ?_ ?_
    · rintro result φ ⟨s, rfl⟩
      cases result with
      | existing record => exact follows_response record _ fun _ => ⟨⟨_, rfl⟩, s, rfl⟩
      | missing => exact ⟨⟨_, rfl⟩, s, rfl⟩
      | conflict => exact ⟨⟨_, rfl⟩, s, rfl⟩
      | created record => exact follows_response record _ fun _ => ⟨⟨_, rfl⟩, s, rfl⟩
    · rintro e φ ⟨s, rfl⟩
      exact ⟨⟨_, rfl⟩, s, rfl⟩
  refine htry.bind ?_ (fun _ φ h => h.2)
  rintro result φ ⟨-, s, rfl⟩
  cases result with
  | ok r => exact ⟨s, rfl⟩
  | error e =>
      simp only
      split_ifs
      · refine follows_step .replayKey (fun _ => .replaying s) (fun _ => rfl)
          (fun _ => ⟨s, rfl⟩) fun repeated => ?_
        cases repeated with
        | some record => exact follows_response record _ fun _ => ⟨s, rfl⟩
        | none => exact ⟨s, rfl⟩
      · exact ⟨s, rfl⟩

/-- `requestReplay`, of a key that was not used before. -/
theorem follows_replaySource {env : Env} {source : Option ReplaySource} (input : ReplayInput) :
    (protocol env).Follows (Api.replaySource env input) (.replaying source)
      (fun _ φ => ∃ s, φ = .replaying s) := by
  unfold Api.replaySource
  refine follows_step .replaySource (fun found => .replaying found) (fun _ => rfl)
    (fun _ => ⟨_, rfl⟩) fun found => ?_
  cases found with
  | none => exact ⟨_, rfl⟩
  | some found =>
      change (protocol env).Follows (if _ then _ else _) _ _
      split_ifs
      · exact ⟨_, rfl⟩
      · exact ⟨_, rfl⟩
      · exact ⟨_, rfl⟩
      · exact ⟨_, rfl⟩
      · refine (follows_readArchivedPayload _).bind ?_ ?_
        · rintro _ φ rfl
          exact follows_commitReplay input _ _
        · rintro e φ rfl
          exact ⟨_, rfl⟩

/-- `requestReplay` keeps to the protocol. -/
theorem follows_requestReplay (env : Env) (input : ReplayInput) :
    (protocol env).Follows (requestReplay env input) (.replaying none) (fun _ _ => True) := by
  unfold requestReplay
  refine Protocol.Follows.bind (M := fun _ _ => True) ?_ ?_ (fun _ _ _ => trivial)
  · rw [Protocol.follows_attempt]
    refine follows_step .replayKey (fun _ => .replaying none) (fun _ => rfl)
      (fun _ => trivial) fun existing => ?_
    cases existing with
    | some record => exact follows_response record _ fun _ => trivial
    | none => exact (follows_replaySource input).imp fun _ _ _ => trivial
  · intro result φ _
    cases result with
    | ok r => exact trivial
    | error cause => exact trivial
