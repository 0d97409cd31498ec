/-
# The delivery worker (`worker/src/index.ts` and what it calls)

`handleMessage` and the functions it calls, from `delivery/` and `repositories/`, as programs
over the operations of `World.lean`: every `await` on a service is one operation, and any of
them may throw.

* An optional `metrics` object only counts; of its calls `recordDeferral` is kept, which says
  why a message was hidden.
* `sendWithTimeout` and `observeSqsOperation` pass results and errors on, so they are not
  visible here: which error a timed-out call throws is the environment's choice.
* `handleMessage` is cut into pieces where the source makes a decision; each piece says which
  part of the source it is.
-/
import Waybill.JsonParse
import Waybill.World
import Waybill.Circuit

open Services

/-! ## Queue messages -/

/-- `QueueMessage`. -/
structure QueueMessage where
  eventId : JsString
  tenantId : JsString
  type : JsString
  payload : Json
  payloadS3Key : Option JsString

/-- A key that is not empty, as the source tests for. -/
def truthyKey (key : Option JsString) : Option JsString := key.filter (fun k => !k.isEmpty)

namespace Worker

/-- `parseQueueMessage`. -/
def parseQueueMessage (body : JsString) : Option QueueMessage := do
  let parsed ← Json.parse body
  let eventId ← (parsed.get? (js "eventId")).bind Json.str?
  let tenantId ← (parsed.get? (js "tenantId")).bind Json.str?
  let type ← (parsed.get? (js "type")).bind Json.str?
  return { eventId := eventId, tenantId := tenantId, type := type
           payload := (parsed.get? (js "payload")).getD .null
           payloadS3Key := (parsed.get? (js "payloadS3Key")).bind Json.str? }

/-! ## `delivery/backoff.ts` -/

/-- `BASE_DELAY_MS`, `MAX_DELAY_MS`, `DEFAULT_MAX_ATTEMPTS`. -/
def baseDelayMs : ℚ := 1000
def maxDelayMs : ℚ := 60000
def defaultMaxAttempts : ℚ := 8

/-- `maxDeliveryAttempts`. -/
def maxDeliveryAttempts (env : Env) : Except JsError ℚ :=
  match env.maxDeliveryAttempts with
  | none => .ok defaultMaxAttempts
  | some (.finite parsed) =>
      if parsed < 1 then
        .error { message := js "MAX_DELIVERY_ATTEMPTS must be a positive number" }
      else .ok parsed
  | some _ => .error { message := js "MAX_DELIVERY_ATTEMPTS must be a positive number" }

/-- `isExhausted`. -/
def isExhausted (env : Env) (attemptCount : ℕ) : Except JsError Bool :=
  (maxDeliveryAttempts env).map (fun max => decide ((attemptCount : ℚ) ≥ max))

/-- `backoffDelayMs`. -/
def backoffDelayMs (attemptCount : ℕ) : Async ℚ := do
  let exp := min (baseDelayMs * 2 ^ (attemptCount - 1)) maxDelayMs
  let x ← random
  return ⌊x * (exp + 1)⌋

/-- `nextAttemptAt`. -/
def nextAttemptAt (attemptCount : ℕ) : Async ℚ := do
  let t ← now
  let delay ← backoffDelayMs attemptCount
  return t + delay

/-- `visibilityTimeoutSeconds`. -/
def visibilityTimeoutSeconds (delayMs : ℚ) : ℤ := min (max ⌈delayMs / 1000⌉ 1) 43200

/-! ## `delivery/circuit-breaker.ts` -/

/-- `readCircuitState`. -/
def readCircuitState (targetUrl : JsString) : Async CircuitSnapshot := do
  let raw ← hgetall (Circuit.circuitKeyForTarget targetUrl)
  return Circuit.decode raw

/-- `writeCircuitState`. -/
def writeCircuitState (targetUrl : JsString) (snapshot : CircuitSnapshot)
    (overrides : CircuitOverrides) : Async Unit := do
  let config := Circuit.normalizeConfig overrides
  let key := Circuit.circuitKeyForTarget targetUrl
  hset key (Circuit.encode snapshot)
  let _ ← expire key (Circuit.ttlSeconds config)
  return ()

/-- `recordDeliveryFailure`. -/
def recordDeliveryFailure (targetUrl : JsString) (overrides : CircuitOverrides) :
    Async CircuitSnapshot := do
  let config := Circuit.normalizeConfig overrides
  let current ← readCircuitState targetUrl
  let t ← now
  let next := Circuit.applyFailure current t (Circuit.toOverrides config)
  writeCircuitState targetUrl next (Circuit.toOverrides config)
  return next

/-- `recordDeliverySuccess`. -/
def recordDeliverySuccess (targetUrl : JsString) (overrides : CircuitOverrides) :
    Async CircuitSnapshot := do
  let config := Circuit.normalizeConfig overrides
  let current ← readCircuitState targetUrl
  let t ← now
  let next := Circuit.applySuccess current t (Circuit.toOverrides config)
  writeCircuitState targetUrl next (Circuit.toOverrides config)
  return next

/-- `shouldAllowDelivery`. -/
def shouldAllowDelivery (targetUrl : JsString) (overrides : CircuitOverrides) :
    Async (CircuitDecision × CircuitSnapshot) := do
  let config := Circuit.normalizeConfig overrides
  let snapshot ← readCircuitState targetUrl
  let t ← now
  return (Circuit.getCircuitDecision snapshot t (Circuit.toOverrides config), snapshot)

/-! ## `rate-limit.ts` -/

/-- `consumeTenantToken`. -/
def consumeTenantToken (tenantId : JsString) (scope : TokenBucket.Scope)
    (overrides : RateLimitOverrides) : Async TokenBucketDecision := do
  let t ← now
  match TokenBucket.normalizeRateLimitConfig overrides with
  | .error e => .throw e
  | .ok config =>
      let result ← evalConsumeToken (TokenBucket.tenantRateLimitKey tenantId scope)
        config.capacity config.refillPerSecond t
      return { allowed := result.1 == 1, tokens := result.2.1, retryAfterMs := result.2.2 }

/-! ## `repositories/` -/

/-- `findTenantSigningSecret`. -/
def findTenantSigningSecret (tenantId : JsString) : Async JsString := do
  let tenant ← findTenant tenantId
  Prog.getOrThrow ((tenant.map Tenant.hmacSecret).filter (fun s => !s.isEmpty))
    { message := js "Tenant signing secret is unavailable" }

/-- `findByEventAndUrl`. -/
def findByEventAndUrl (eventId targetUrl : JsString) : Async (Option Delivery) :=
  findDelivery eventId targetUrl

/-- The update of `upsertInFlight`. -/
def inFlightData (t : ℚ) : DeliveryData :=
  { status := .inFlight, incrementAttempts := 1, lastAttemptAt := some t
    lastError := some none, nextAttemptAt := some none }

/-- The row `upsertInFlight` creates. -/
def inFlightDelivery (eventId tenantId targetUrl : JsString) (t : ℚ) : NewDelivery :=
  { eventId := eventId, tenantId := tenantId, targetUrl := targetUrl
    status := .inFlight, attemptCount := 1, lastAttemptAt := t }

/-- `upsertInFlight`. -/
def upsertInFlight (eventId tenantId targetUrl : JsString) : Async Delivery := do
  let existing ← findDelivery eventId targetUrl
  let t ← now
  match existing with
  | some existing => updateDelivery existing.id (inFlightData t)
  | none => createDelivery (inFlightDelivery eventId tenantId targetUrl t)

/-- What `markSucceeded`, `markFailed` and `markDeadLettered` write. -/
def succeededData : DeliveryData := { status := .succeeded, lastError := some none }

def failedData (error : JsString) (nextAttempt : ℚ) : DeliveryData :=
  { status := .failed, lastError := some (some (error.take 500))
    nextAttemptAt := some (some nextAttempt) }

def deadLetteredData (error : JsString) : DeliveryData :=
  { status := .deadLettered, lastError := some (some (error.take 500))
    nextAttemptAt := some none }

/-- `markSucceeded`. -/
def markSucceeded (id : JsString) : Async Delivery := updateDelivery id succeededData

/-- `markFailed`. -/
def markFailed (id error : JsString) (nextAttempt : ℚ) : Async Delivery :=
  updateDelivery id (failedData error nextAttempt)

/-- `markDeadLettered`. -/
def markDeadLettered (id error : JsString) : Async Delivery :=
  updateDelivery id (deadLetteredData error)

/-- `createDeadLetter`. -/
def createDeadLetter (input : NewDeadLetter) : Async DeadLetter := upsertDeadLetter input

/-! ## Payloads -/

/-- `JSON.parse` of a text that is no JSON text. -/
def syntaxError : JsError := { name := js "SyntaxError", message := js "JSON Parse error" }

/-- `loadPayload`. -/
def loadPayload (message : QueueMessage) : Async Json :=
  match truthyKey message.payloadS3Key with
  | none => return message.payload
  | some key => do
      let body ← getObject key
      let text ← Prog.getOrThrow body { message := js "S3 object empty: " ++ key }
      Prog.getOrThrow (Json.parse text) syntaxError

/-- The key under which the worker archives a payload. -/
def archiveKey (eventId : JsString) : JsString := js "dead-letters/" ++ eventId ++ js ".json"

/-- `archivePayload`. -/
def archivePayload (message : QueueMessage) : Async JsString :=
  match truthyKey message.payloadS3Key with
  | some key => return key
  | none => do
      putObject (archiveKey message.eventId) message.payload.stringify
      return archiveKey message.eventId

/-! ## `delivery/http.ts` -/

/-- `WebhookResult`. -/
inductive WebhookResult where
  | ok (status : ℕ)
  | failed (status : Option ℕ) (error : JsString)

/-- `signWebhook`. -/
def signWebhook (env : Env) (body secret : JsString) : Async JsString :=
  if secret.isEmpty then .throw { message := js "Webhook signing secret must not be empty" }
  else return js "sha256=" ++ env.hmacSha256Hex secret body

/-- `postWebhook`; the body is an object, so `JSON.stringify` never gives `undefined`. -/
def postWebhook (env : Env) (url : JsString) (body : Json) (secret : JsString) :
    Async WebhookResult := do
  let serialized := body.stringify
  let response ← Prog.attempt (do
    let signature ← signWebhook env serialized secret
    fetch url serialized signature)
  match response with
  | .ok status =>
      if statusOk status then return .ok status
      else return .failed (some status) (js "receiver returned " ++ js (toString status))
  | .error e => return .failed none e.message

/-- The body `handleMessage` posts. -/
def webhookBody (message : QueueMessage) (payload : Json) : Json :=
  .obj [(js "eventId", .str message.eventId), (js "tenantId", .str message.tenantId),
    (js "type", .str message.type), (js "payload", payload)]

/-! ## Settling a message -/

/-- `hideUntil`. -/
def hideUntil (receipt : ℕ) (delayMs : ℚ) (reason : Option DeferralReason) : Async Unit := do
  releaseLease receipt
  changeVisibility receipt (visibilityTimeoutSeconds delayMs)
  match reason with
  | some reason => recordDeferral reason
  | none => return ()

/-- `acknowledgeMessage`. -/
def acknowledgeMessage (receipt : ℕ) : Async Unit := do
  releaseLease receipt
  deleteMessage receipt

/-- The record `moveToDeadLetter` creates. -/
def deadLetterOf (delivery : Delivery) (targetUrl error payloadS3Key : JsString) :
    NewDeadLetter :=
  { eventId := delivery.eventId, deliveryId := delivery.id, tenantId := delivery.tenantId
    targetUrl := targetUrl, lastError := some (error.take 500)
    attemptCount := delivery.attemptCount, payloadS3Key := payloadS3Key }

/-- `moveToDeadLetter`. -/
def moveToDeadLetter (delivery : Delivery) (targetUrl error : JsString) (message : QueueMessage)
    (receipt : ℕ) : Async Unit := do
  let payloadS3Key ← archivePayload message
  let _ ← createDeadLetter (deadLetterOf delivery targetUrl error payloadS3Key)
  let _ ← markDeadLettered delivery.id error
  acknowledgeMessage receipt

/-- `scheduleRetry`. -/
def scheduleRetry (deliveryId : JsString) (attemptCount : ℕ) (error : JsString) (receipt : ℕ) :
    Async Unit := do
  let whenMs ← nextAttemptAt attemptCount
  let t ← now
  let delayMs := max (whenMs - t) 1000
  let _ ← markFailed deliveryId error whenMs
  hideUntil receipt delayMs none

/-! ## `handleMessage` -/

/-- An acknowledgement that is still to be run, if there is one. -/
abbrev Acknowledge := Option (Async Unit)

/-- An attempt that failed: dead-letter the delivery, or schedule a retry. -/
def settleFailure (env : Env) (m : Message) (parsed : QueueMessage) (delivery : Delivery)
    (error : JsString) : Async Acknowledge := do
  match isExhausted env delivery.attemptCount with
  | .error e => .throw e
  | .ok true =>
      moveToDeadLetter delivery env.receiverUrl error parsed m.id
      return none
  | .ok false =>
      scheduleRetry delivery.id delivery.attemptCount error m.id
      return none

/-- The signing secret and the payload, or the error that preparing the webhook threw. -/
def prepareWebhook (parsed : QueueMessage) : Async (Except JsError (JsString × Json)) :=
  Prog.attempt (do
    let signingSecret ← findTenantSigningSecret parsed.tenantId
    let payload ← loadPayload parsed
    return (signingSecret, payload))

/-- From `postWebhook` on. -/
def deliverWebhook (env : Env) (m : Message) (parsed : QueueMessage) (delivery : Delivery)
    (signingSecret : JsString) (payload : Json) : Async Acknowledge := do
  let result ← postWebhook env env.receiverUrl (webhookBody parsed payload) signingSecret
  match result with
  | .failed _ error =>
      let _ ← recordDeliveryFailure env.receiverUrl {}
      settleFailure env m parsed delivery error
  | .ok _ =>
      let _ ← recordDeliverySuccess env.receiverUrl {}
      let _ ← markSucceeded delivery.id
      return some (acknowledgeMessage m.id)

/-- From `upsertInFlight` on. -/
def attemptDelivery (env : Env) (m : Message) (parsed : QueueMessage) : Async Acknowledge := do
  let delivery ← upsertInFlight parsed.eventId parsed.tenantId env.receiverUrl
  let prepared ← prepareWebhook parsed
  match prepared with
  | .error e => settleFailure env m parsed delivery e.message
  | .ok (signingSecret, payload) => deliverWebhook env m parsed delivery signingSecret payload

/-- The `halfOpenInFlight` mark of a probe. -/
def markProbe (targetUrl : JsString) : Async Unit :=
  hset (Circuit.circuitKeyForTarget targetUrl) [(js "halfOpenInFlight", .text (js "true"))]

/-- An attempt that is due: mark the probe first if the circuit was half open. -/
def startAttempt (env : Env) (m : Message) (state : CircuitState) (parsed : QueueMessage) :
    Async Acknowledge :=
  match state with
  | .halfOpen => do
      markProbe env.receiverUrl
      attemptDelivery env m parsed
  | _ => attemptDelivery env m parsed

/-- What the delivery row found says: complete, not due yet, or due. -/
def checkExisting (env : Env) (m : Message) (state : CircuitState) (parsed : QueueMessage)
    (existing : Option Delivery) : Async Acknowledge :=
  if (existing.map (fun d => d.status.terminal)).getD false then do
    acknowledgeMessage m.id
    return none
  else
    match existing.bind Delivery.nextAttemptAt with
    | none => startAttempt env m state parsed
    | some nextAttempt => do
        let t ← now
        if nextAttempt > t then
          let t' ← now
          hideUntil m.id (nextAttempt - t') (some .notDue)
          return none
        else startAttempt env m state parsed

/-- From the tenant's limit on. -/
def handleParsed (env : Env) (m : Message) (state : CircuitState) (parsed : QueueMessage) :
    Async Acknowledge := do
  let rateLimit ← consumeTenantToken parsed.tenantId .delivery
    (TokenBucket.toOverrides env.deliveryRateLimit)
  if rateLimit.allowed then
    let existing ← findByEventAndUrl parsed.eventId env.receiverUrl
    checkExisting env m state parsed existing
  else
    hideUntil m.id (max rateLimit.retryAfterMs 1000) (some .rateLimit)
    return none

/-- **`handleMessage`**. -/
def handleMessage (env : Env) (m : Message) : Async Acknowledge := do
  let breaker ← readCircuitState env.receiverUrl
  let t ← now
  let decision := Circuit.getCircuitDecision breaker t {}
  if decision.allowed then
    match parseQueueMessage m.body with
    | none =>
        acknowledgeMessage m.id
        return none
    | some parsed => handleParsed env m decision.state parsed
  else
    hideUntil m.id (max decision.delayMs 1000) (some .circuitOpen)
    return none

end Worker
