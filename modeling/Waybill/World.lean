/-
# The world the services share

One state for everything outside a process: the clock, the PostgreSQL tables
(`schema.prisma`), the S3 bucket, the SQS queue, Redis, and the receivers.  The programs of
`Worker.lean`, `Publisher.lean` and `Api.lean` act on it through the operations `Op`, one
statement, command or request each.

* `Choice` is what the environment decides about an operation: the identifiers it draws,
  which of several rows a query returns, the redirects of a webhook call and the answer it ends
  with, and whether it fails, before it had any effect or after.
* `World.apply` is the operation when it does not fail, `World.exec` with its failures.
* A receipt handle is the number of the message: an old handle still deletes.

Kept for the statements only: `posts` (every webhook call), `deleted` (the messages removed
from the queue), `drafts` (for which request an event identifier was drawn).
-/
import Waybill.Json
import Waybill.Process
import Waybill.TokenBucket

/-! ## Rows -/

/-- `Tenant`. -/
structure Tenant where
  id : JsString
  hmacSecret : JsString

/-- `Event`; a `payload` of `none` is SQL `NULL`. -/
structure Event where
  id : JsString
  tenantId : JsString
  type : JsString
  payload : Option Json
  payloadS3Key : Option JsString

/-- `Outbox`. -/
structure Outbox where
  id : JsString
  eventId : JsString
  published : Bool
  createdAt : ℚ
  publishedAt : Option ℚ

/-- `DeliveryStatus`. -/
inductive DeliveryStatus where
  | pending
  | inFlight
  | succeeded
  | failed
  | deadLettered
  deriving DecidableEq, Repr

/-- `Delivery`. -/
structure Delivery where
  id : JsString
  eventId : JsString
  tenantId : JsString
  targetUrl : JsString
  status : DeliveryStatus
  attemptCount : ℕ
  lastAttemptAt : Option ℚ
  nextAttemptAt : Option ℚ
  lastError : Option JsString
  createdAt : ℚ
  deriving DecidableEq

/-- `DeadLetter`. -/
structure DeadLetter where
  id : JsString
  eventId : JsString
  deliveryId : JsString
  tenantId : JsString
  targetUrl : JsString
  lastError : Option JsString
  attemptCount : ℕ
  payloadS3Key : JsString
  createdAt : ℚ
  deriving DecidableEq

/-- `Replay`. -/
structure Replay where
  id : JsString
  tenantId : JsString
  sourceDeadLetterId : JsString
  eventId : JsString
  idempotencyKey : JsString
  createdAt : ℚ
  deriving DecidableEq

/-- A status no handler leaves. -/
def DeliveryStatus.terminal : DeliveryStatus → Bool
  | .succeeded => true
  | .deadLettered => true
  | _ => false

/-! ## Inputs of the statements -/

/-- The `data` of `prisma.delivery.update`; `none` leaves a column as it is. -/
structure DeliveryData where
  status : DeliveryStatus
  incrementAttempts : ℕ := 0
  lastAttemptAt : Option ℚ := none
  lastError : Option (Option JsString) := none
  nextAttemptAt : Option (Option ℚ) := none

/-- The row after an update. -/
def DeliveryData.apply (data : DeliveryData) (d : Delivery) : Delivery :=
  { d with
    status := data.status
    attemptCount := d.attemptCount + data.incrementAttempts
    lastAttemptAt := data.lastAttemptAt.or d.lastAttemptAt
    lastError := data.lastError.getD d.lastError
    nextAttemptAt := data.nextAttemptAt.getD d.nextAttemptAt }

/-- The `data` of `prisma.delivery.create`. -/
structure NewDelivery where
  eventId : JsString
  tenantId : JsString
  targetUrl : JsString
  status : DeliveryStatus
  attemptCount : ℕ
  lastAttemptAt : ℚ

/-- The input of `createDeadLetter`. -/
structure NewDeadLetter where
  eventId : JsString
  deliveryId : JsString
  tenantId : JsString
  targetUrl : JsString
  lastError : Option JsString
  attemptCount : ℕ
  payloadS3Key : JsString

/-- `CreateEventRecord`. -/
structure CreateEventRecord where
  id : JsString
  tenantId : JsString
  type : JsString
  payload : Option Json
  payloadS3Key : Option JsString

/-- The rows `createReplay` inserts in its transaction. -/
structure NewReplay where
  tenantId : JsString
  sourceDeadLetterId : JsString
  idempotencyKey : JsString
  eventTenantId : JsString
  eventType : JsString
  payloadS3Key : JsString

/-- `sourceSelect`: a dead letter with what it is joined to. -/
structure ReplaySource where
  deadLetter : DeadLetter
  event : Event
  delivery : Delivery
  replay : Option Replay

/-- `replaySelect`. -/
structure ReplayRecord where
  replay : Replay
  sourceDeadLetter : DeadLetter

/-! ## Messages and calls -/

/-- A message of the queue. -/
structure Message where
  id : ℕ
  groupId : JsString
  body : JsString
  deriving DecidableEq

/-- A webhook call of `fetch`: the statuses of the redirects it followed, and the status of the
response that it returned, if it returned one. -/
structure Post where
  url : JsString
  body : JsString
  signature : JsString
  redirects : List ℕ
  answer : Option ℕ
  deriving DecidableEq

/-- `response.ok`. -/
def statusOk (status : ℕ) : Bool := 200 ≤ status && status ≤ 299

/-- The methods of the requests that a webhook call makes. -/
inductive RequestMethod where
  | post
  | get
  deriving DecidableEq

/-- The statuses that `fetch` follows to another request. -/
def redirectStatus (status : ℕ) : Bool :=
  status == 301 || status == 302 || status == 303 || status == 307 || status == 308

/-- The method of the request after a redirect: 301, 302 and 303 turn a POST into a GET without
a body, 307 and 308 repeat the request. -/
def RequestMethod.redirected (method : RequestMethod) (status : ℕ) : RequestMethod :=
  if status = 307 ∨ status = 308 then method else .get

/-- The requests of a call of `fetch`, the first one made with `method`, each with the status it
was answered: redirects are followed, as `redirect` is left at its default. -/
def followed (method : RequestMethod) : List ℕ → ℕ → List (RequestMethod × ℕ)
  | [], status => [(method, status)]
  | redirect :: redirects, status =>
      (method, redirect) :: followed (method.redirected redirect) redirects status

/-- The answered requests of a webhook call; of a call that failed none is on record. -/
def Post.replies (x : Post) : List (RequestMethod × ℕ) :=
  match x.answer with
  | some status => followed .post x.redirects status
  | none => []

/-- An event identifier with the request it was drawn for. -/
structure Draft where
  eventId : JsString
  tenantId : JsString
  type : JsString
  payload : Json

/-- Why a message was hidden. -/
inductive DeferralReason where
  | circuitOpen
  | rateLimit
  | notDue
  deriving DecidableEq

/-! ## Operations -/

/-- The operations of the services. -/
inductive Op where
  | now
  | random
  | newEventId (tenantId type : JsString) (payload : Json)
  | hgetall (key : JsString)
  | hset (key : JsString) (fields : RedisHash)
  | expire (key : JsString) (seconds : ℚ)
  | evalConsumeToken (key : JsString) (capacity refillPerSecond now : ℚ)
  | findTenant (id : JsString)
  | findDelivery (eventId targetUrl : JsString)
  | createDelivery (data : NewDelivery)
  | updateDelivery (id : JsString) (data : DeliveryData)
  | upsertDeadLetter (input : NewDeadLetter)
  | markPublished (id : JsString) (publishedAt : ℚ)
  | createEvent (input : CreateEventRecord)
  | findReplayByKey (tenantId idempotencyKey : JsString)
  | findReplaySource (tenantId id : JsString)
  | insertReplay (input : NewReplay)
  | getObject (key : JsString)
  | putObject (key body : JsString)
  | sendMessage (groupId body : JsString)
  | changeVisibility (receipt : ℕ) (seconds : ℤ)
  | deleteMessage (receipt : ℕ)
  | releaseLease (receipt : ℕ)
  | recordDeferral (reason : DeferralReason)
  | fetch (url body signature : JsString)

namespace Op

/-- What an operation answers when it does not fail. -/
def Res : Op → Type
  | now => ℚ
  | random => ℚ
  | newEventId .. => JsString
  | hgetall _ => RedisHash
  | hset .. => Unit
  | expire .. => Bool
  | evalConsumeToken .. => ℤ × ℤ × ℤ
  | findTenant _ => Option Tenant
  | findDelivery .. => Option Delivery
  | createDelivery _ => Delivery
  | updateDelivery .. => Delivery
  | upsertDeadLetter _ => DeadLetter
  | markPublished .. => ℕ
  | createEvent _ => Event × Outbox
  | findReplayByKey .. => Option ReplayRecord
  | findReplaySource .. => Option ReplaySource
  | insertReplay _ => ReplayRecord
  | getObject _ => Option JsString
  | putObject .. => Unit
  | sendMessage .. => Unit
  | changeVisibility .. => Unit
  | deleteMessage _ => Unit
  | releaseLease _ => Unit
  | recordDeferral _ => Unit
  | fetch .. => ℕ

/-- Operations that never leave the process, and so never fail. -/
def isLocal : Op → Bool
  | now => true
  | random => true
  | newEventId .. => true
  | releaseLease _ => true
  | recordDeferral _ => true
  | _ => false

/-- Operations that leave the records alone: they read, or write to Redis or to the
visibility of a message. -/
def isSilent : Op → Bool
  | newEventId .. => false
  | createDelivery _ => false
  | updateDelivery .. => false
  | upsertDeadLetter _ => false
  | markPublished .. => false
  | createEvent _ => false
  | insertReplay _ => false
  | putObject .. => false
  | sendMessage .. => false
  | deleteMessage _ => false
  | fetch .. => false
  | _ => true

end Op

/-- The operations as an interface for programs. -/
abbrev Services : Interface := { Op := Op, Res := Op.Res, Err := JsError }

/-! ## The world -/

/-- What is on record: the tables, the bucket, the queue and the webhook calls. -/
structure Records where
  tenants : List Tenant
  events : List Event
  outbox : List Outbox
  deliveries : List Delivery
  deadLetters : List DeadLetter
  replays : List Replay
  objects : JsString → Option JsString
  queue : List Message
  nextMessage : ℕ
  posts : List Post
  deleted : List Message
  drafts : List Draft

/-- Everything outside the processes. -/
structure World extends Records where
  clock : ℚ
  visibleAt : ℕ → ℚ
  redis : RedisStore

/-- Whether an operation goes wrong: before it had its effect, or after. -/
inductive Fault where
  | none
  | before
  | after
  deriving DecidableEq

/-- The environment's choices for one operation. -/
structure Choice where
  fault : Fault := .none
  error : JsError := { message := js "failure" }
  id : JsString := []
  outboxId : JsString := []
  replayId : JsString := []
  pick : ℕ := 0
  number : ℚ := 0
  redirects : List ℕ := []
  status : ℕ := 200

/-! ## Errors of the database and the object store -/

/-- `PrismaClientKnownRequestError`. -/
def prismaError (code : String) : JsError :=
  { name := js "PrismaClientKnownRequestError", message := js "database request failed"
    code := some (js code) }

/-- A unique index is violated. -/
def uniqueViolation : JsError := prismaError "P2002"

/-- A referenced row is missing. -/
def foreignKeyViolation : JsError := prismaError "P2003"

/-- The row to update is missing. -/
def recordNotFound : JsError := prismaError "P2025"

/-- The object is missing. -/
def noSuchKey : JsError :=
  { name := js "NoSuchKey", message := js "The specified key does not exist." }

namespace World

/-! ## Queries -/

/-- The delivery rows of an event and a destination. -/
def rowsFor (w : World) (eventId targetUrl : JsString) : List Delivery :=
  w.deliveries.filter (fun d => d.eventId == eventId && d.targetUrl == targetUrl)

/-- `findFirst` without an order: any of the matching rows. -/
def pickFrom {α : Type} (rows : List α) (pick : ℕ) : Option α := rows[pick % rows.length]?

/-- An event row. -/
def eventById (w : World) (id : JsString) : Option Event := w.events.find? (fun e => e.id == id)

/-- A delivery row. -/
def deliveryById (w : World) (id : JsString) : Option Delivery :=
  w.deliveries.find? (fun d => d.id == id)

/-- A dead letter with the rows it refers to. -/
def sourceOf (w : World) (d : DeadLetter) : Option ReplaySource := do
  let event ← w.eventById d.eventId
  let delivery ← w.deliveryById d.deliveryId
  return { deadLetter := d, event := event, delivery := delivery
           replay := w.replays.find? (fun r => r.sourceDeadLetterId == d.id) }

/-- A replay with its dead letter. -/
def recordOf (w : World) (r : Replay) : Option ReplayRecord := do
  let source ← w.deadLetters.find? (fun d => d.id == r.sourceDeadLetterId)
  return { replay := r, sourceDeadLetter := source }

/-! ## Statements and commands -/

/-- `prisma.delivery.create`. -/
def createDelivery (w : World) (data : NewDelivery) (id : JsString) :
    Except JsError Delivery × World :=
  if w.events.any (fun e => e.id == data.eventId) && w.tenants.any (fun t => t.id == data.tenantId)
  then
    let row : Delivery :=
      { id := id, eventId := data.eventId, tenantId := data.tenantId, targetUrl := data.targetUrl
        status := data.status, attemptCount := data.attemptCount
        lastAttemptAt := some data.lastAttemptAt, nextAttemptAt := none, lastError := none
        createdAt := w.clock }
    (.ok row, { w with deliveries := row :: w.deliveries })
  else (.error foreignKeyViolation, w)

/-- `prisma.delivery.update`. -/
def updateDelivery (w : World) (id : JsString) (data : DeliveryData) :
    Except JsError Delivery × World :=
  match w.deliveryById id with
  | some d =>
      (.ok (data.apply d),
        { w with deliveries := w.deliveries.map (fun d => if d.id = id then data.apply d else d) })
  | none => (.error recordNotFound, w)

/-- The row of a new dead letter. -/
def newDeadLetter (w : World) (input : NewDeadLetter) (id : JsString) : DeadLetter :=
  { id := id, eventId := input.eventId, deliveryId := input.deliveryId
    tenantId := input.tenantId, targetUrl := input.targetUrl, lastError := input.lastError
    attemptCount := input.attemptCount, payloadS3Key := input.payloadS3Key
    createdAt := w.clock }

/-- The `update` of the upsert. -/
def refreshDeadLetter (input : NewDeadLetter) (d : DeadLetter) : DeadLetter :=
  { d with lastError := input.lastError, attemptCount := input.attemptCount
           payloadS3Key := input.payloadS3Key }

/-- `prisma.deadLetter.upsert` by `deliveryId`. -/
def upsertDeadLetter (w : World) (input : NewDeadLetter) (id : JsString) :
    Except JsError DeadLetter × World :=
  match w.deadLetters.find? (fun d => d.deliveryId == input.deliveryId) with
  | some d =>
      (.ok (refreshDeadLetter input d),
        { w with deadLetters := w.deadLetters.map (fun d =>
            if d.deliveryId = input.deliveryId then refreshDeadLetter input d else d) })
  | none =>
      if w.events.any (fun e => e.id == input.eventId) &&
          w.deliveries.any (fun d => d.id == input.deliveryId) then
        (.ok (w.newDeadLetter input id),
          { w with deadLetters := w.newDeadLetter input id :: w.deadLetters })
      else (.error foreignKeyViolation, w)

/-- `prisma.outbox.updateMany` on an unpublished row: how many rows it changed. -/
def markPublished (w : World) (id : JsString) (publishedAt : ℚ) : ℕ × World :=
  ((w.outbox.filter (fun o => o.id == id && !o.published)).length,
    { w with outbox := w.outbox.map (fun o =>
        if o.id = id ∧ o.published = false then
          { o with published := true, publishedAt := some publishedAt }
        else o) })

/-- The outbox row of a new event. -/
def newOutbox (w : World) (eventId id : JsString) : Outbox :=
  { id := id, eventId := eventId, published := false, createdAt := w.clock, publishedAt := none }

/-- The transaction of `ingestEvent`: `createEvent` and `createOutbox`. -/
def createEvent (w : World) (input : CreateEventRecord) (outboxId : JsString) :
    Except JsError (Event × Outbox) × World :=
  if w.events.any (fun e => e.id == input.id) then (.error uniqueViolation, w)
  else if w.tenants.any (fun t => t.id == input.tenantId) then
    let event : Event :=
      { id := input.id, tenantId := input.tenantId, type := input.type, payload := input.payload
        payloadS3Key := input.payloadS3Key }
    (.ok (event, w.newOutbox input.id outboxId),
      { w with events := event :: w.events
               outbox := w.newOutbox input.id outboxId :: w.outbox })
  else (.error foreignKeyViolation, w)

/-- The commit of `createReplay`: its three rows, or none of them. -/
def insertReplay (w : World) (input : NewReplay) (eventId outboxId replayId : JsString) :
    Except JsError ReplayRecord × World :=
  -- the three foreign keys, the unique keys, then the rows of one transaction
  match w.deadLetters.find? (fun d => d.id == input.sourceDeadLetterId) with
  | none => (.error foreignKeyViolation, w)
  | some source =>
      if w.tenants.any (fun t => t.id == input.tenantId) &&
          w.tenants.any (fun t => t.id == input.eventTenantId) then
        if w.replays.any (fun r => r.sourceDeadLetterId == input.sourceDeadLetterId ||
            (r.tenantId == input.tenantId && r.idempotencyKey == input.idempotencyKey)) then
          (.error uniqueViolation, w)
        else
          let event : Event :=
            { id := eventId, tenantId := input.eventTenantId, type := input.eventType
              payload := none, payloadS3Key := some input.payloadS3Key }
          let replay : Replay :=
            { id := replayId, tenantId := input.tenantId
              sourceDeadLetterId := input.sourceDeadLetterId, eventId := eventId
              idempotencyKey := input.idempotencyKey, createdAt := w.clock }
          (.ok { replay := replay, sourceDeadLetter := source },
            { w with events := event :: w.events
                     outbox := w.newOutbox eventId outboxId :: w.outbox
                     replays := replay :: w.replays })
      else (.error foreignKeyViolation, w)

/-- `SendMessage`. -/
def sendMessage (w : World) (groupId body : JsString) : World :=
  { w with queue := { id := w.nextMessage, groupId := groupId, body := body } :: w.queue
           visibleAt := Function.update w.visibleAt w.nextMessage w.clock
           nextMessage := w.nextMessage + 1 }

/-- `DeleteMessage`. -/
def deleteMessage (w : World) (receipt : ℕ) : World :=
  { w with queue := w.queue.filter (fun m => m.id != receipt)
           deleted := w.queue.filter (fun m => m.id == receipt) ++ w.deleted }

/-- A webhook call and what came back. -/
def post (w : World) (url body signature : JsString) (redirects : List ℕ) (answer : Option ℕ) :
    World :=
  { w with posts :=
      { url := url, body := body, signature := signature, redirects := redirects
        answer := answer } :: w.posts }

/-! ## One operation -/

/-- An operation that does not fail. -/
def apply (w : World) : (op : Op) → Choice → Except JsError op.Res × World
  | .now, _ => (.ok w.clock, w)
  | .random, c => (.ok c.number, w)
  | .newEventId tenantId type payload, c =>
      (.ok c.id, { w with drafts :=
        { eventId := c.id, tenantId := tenantId, type := type, payload := payload } :: w.drafts })
  | .hgetall key, _ => (.ok (w.redis.get key w.clock), w)
  | .hset key fields, _ => (.ok (), { w with redis := w.redis.hset key fields w.clock })
  | .expire key seconds, _ =>
      (.ok (w.redis.entryAt key w.clock).isSome,
        { w with redis := w.redis.expire key seconds w.clock })
  | .evalConsumeToken key capacity refillPerSecond now, _ =>
      let result := TokenBucket.consumeTokenScript w.redis key capacity refillPerSecond now w.clock
      (.ok result.1, { w with redis := result.2 })
  | .findTenant id, _ => (.ok (w.tenants.find? (fun t => t.id == id)), w)
  | .findDelivery eventId targetUrl, c =>
      (.ok (pickFrom (w.rowsFor eventId targetUrl) c.pick), w)
  | .createDelivery data, c => w.createDelivery data c.id
  | .updateDelivery id data, _ => w.updateDelivery id data
  | .upsertDeadLetter input, c => w.upsertDeadLetter input c.id
  | .markPublished id publishedAt, _ =>
      (.ok (w.markPublished id publishedAt).1, (w.markPublished id publishedAt).2)
  | .createEvent input, c => w.createEvent input c.outboxId
  -- with the dead letter it came from
  | .findReplayByKey tenantId idempotencyKey, _ =>
      (.ok ((w.replays.find? (fun r =>
        r.tenantId == tenantId && r.idempotencyKey == idempotencyKey)).bind w.recordOf), w)
  | .findReplaySource tenantId id, _ =>
      (.ok ((w.deadLetters.find? (fun d => d.tenantId == tenantId && d.id == id)).bind
        w.sourceOf), w)
  | .insertReplay input, c => w.insertReplay input c.id c.outboxId c.replayId
  | .getObject key, _ =>
      match w.objects key with
      | some text => (.ok (some text), w)
      -- `NoSuchKey`
      | none => (.error noSuchKey, w)
  | .putObject key body, _ =>
      (.ok (), { w with objects := Function.update w.objects key (some body) })
  | .sendMessage groupId body, _ => (.ok (), w.sendMessage groupId body)
  | .changeVisibility receipt seconds, _ =>
      (.ok (), { w with
        visibleAt := Function.update w.visibleAt receipt (w.clock + 1000 * seconds) })
  | .deleteMessage receipt, _ => (.ok (), w.deleteMessage receipt)
  | .releaseLease _, _ => (.ok (), w)
  | .recordDeferral _, _ => (.ok (), w)
  | .fetch url body signature, c =>
      -- every answer on the way is kept, the last one is what `fetch` returns
      (.ok c.status, w.post url body signature c.redirects (some c.status))

/-- What is left of an operation that failed before its effect: a webhook call was made
all the same. -/
def attempted (w : World) : Op → World
  | .fetch url body signature => w.post url body signature [] none
  | _ => w

/-- An operation with the environment's choices: its answer and the world after. -/
def outcome (w : World) (op : Op) (c : Choice) : Except JsError op.Res × World :=
  if op.isLocal then w.apply op c
  else
    match c.fault with
    | .none => w.apply op c
    | .before => (.error c.error, w.attempted op)
    | .after => (.error c.error, (w.apply op c).2)

/-! ## Fresh identifiers -/

/-- An identifier no event was or will be drawn for; `crypto.randomUUID` and PostgreSQL
draw identifiers of 36 units, and never one twice. -/
def eventIdFree (w : World) (id : JsString) : Bool :=
  id.length == 36 && w.drafts.all (fun d => d.eventId != id) &&
    w.events.all (fun e => e.id != id)

/-- The choices that are open to the environment. -/
def possible (w : World) : Op → Choice → Bool
  | .random, c => decide (0 ≤ c.number) && decide (c.number < 1)
  | .newEventId .., c => w.eventIdFree c.id
  | .createDelivery _, c => w.deliveries.all (fun d => d.id != c.id)
  | .upsertDeadLetter _, c => w.deadLetters.all (fun d => d.id != c.id)
  | .createEvent _, c => w.outbox.all (fun o => o.id != c.outboxId)
  | .insertReplay _, c =>
      w.eventIdFree c.id && w.outbox.all (fun o => o.id != c.outboxId) &&
        w.replays.all (fun r => r.id != c.replayId)
  | .fetch .., c => c.redirects.all redirectStatus && decide (c.redirects.length ≤ 20)
  | _, _ => true

/-- **One operation of a process.** -/
def exec (w : World) (op : Op) (c : Choice) : Option (Except JsError op.Res × World) :=
  if w.possible op c then some (w.outcome op c) else none

/-- Where an operation can lead: it had its effect, or it failed without one. -/
theorem exec_world {w w' : World} {op : Op} {c : Choice} {r : Except JsError op.Res}
    (h : w.exec op c = some (r, w')) :
    w' = (w.apply op c).2 ∨ (w' = w.attempted op ∧ ∃ e, r = .error e) := by
  unfold exec at h
  split_ifs at h with hpos
  rw [Option.some.injEq] at h
  unfold outcome at h
  split_ifs at h with hloc
  · exact .inl (congrArg Prod.snd h).symm
  · cases hf : c.fault with
    | none =>
        rw [hf] at h
        exact .inl (congrArg Prod.snd h).symm
    | before =>
        rw [hf] at h
        exact .inr ⟨(congrArg Prod.snd h).symm, c.error, (congrArg Prod.fst h).symm⟩
    | after =>
        rw [hf] at h
        exact .inl (congrArg Prod.snd h).symm

/-- An operation that answered did what it is for. -/
theorem exec_ok {w w' : World} {op : Op} {c : Choice} {a : op.Res}
    (h : w.exec op c = some (.ok a, w')) : w.apply op c = (.ok a, w') := by
  unfold exec at h
  split_ifs at h with hpos
  rw [Option.some.injEq] at h
  unfold outcome at h
  split_ifs at h with hloc
  · exact h
  · cases hf : c.fault with
    | none =>
        rw [hf] at h
        exact h
    | before =>
        rw [hf] at h
        cases congrArg Prod.fst h
    | after =>
        rw [hf] at h
        cases congrArg Prod.fst h

/-- A silent operation leaves the records alone. -/
theorem records_of_silent {w w' : World} {op : Op} {c : Choice} {r : Except JsError op.Res}
    (hsilent : op.isSilent = true) (h : w.exec op c = some (r, w')) :
    w'.toRecords = w.toRecords := by
  have happly : (w.apply op c).2.toRecords = w.toRecords := by
    cases op <;> first | rfl | cases hsilent
    case getObject key =>
      rw [apply]
      cases w.objects key <;> rfl
  have hattempted : (w.attempted op).toRecords = w.toRecords := by
    cases op <;> first | rfl | cases hsilent
  rcases exec_world h with rfl | ⟨rfl, -⟩
  · exact happly
  · exact hattempted

/-- Only possible choices are made. -/
theorem possible_of_exec {w w' : World} {op : Op} {c : Choice} {r : Except JsError op.Res}
    (h : w.exec op c = some (r, w')) : w.possible op c = true := by
  unfold exec at h
  split_ifs at h with hpos
  exact hpos

end World

/-- The operations on a world without processes. -/
def services : Device Services World Choice where
  exec _ op c w := w.exec op c

/-! ## Configuration -/

/-- `Number(raw)`. -/
inductive JsNumber where
  | nan
  | infinite (negative : Bool)
  | finite (q : ℚ)
  deriving DecidableEq

/-- The environment variables of the services, the unset and the empty one alike, and the
digest that `node:crypto` computes.  A variable that only says where a service is found is
left out: without it every operation on that service fails. -/
structure Env where
  receiverUrl : JsString
  maxDeliveryAttempts : Option JsNumber := none
  sqsMaxMessageBytes : Option JsNumber := none
  deliveryRateLimit : RateLimitConfig := TokenBucket.defaultConfig
  ingestionRateLimit : RateLimitConfig := TokenBucket.defaultConfig
  hmacSha256Hex : JsString → JsString → JsString

/-! ## The operations as programs -/

/-- A program of the services. -/
abbrev Async := Prog Services

namespace Services

/-- `Date.now()`. -/
def now : Async ℚ := @Prog.perform Services .now

/-- `Math.random()`. -/
def random : Async ℚ := @Prog.perform Services .random

/-- `randomUUID()`, for the event of a request. -/
def newEventId (tenantId type : JsString) (payload : Json) : Async JsString :=
  @Prog.perform Services (.newEventId tenantId type payload)

/-- `HGETALL`. -/
def hgetall (key : JsString) : Async RedisHash := @Prog.perform Services (.hgetall key)

/-- `HSET`. -/
def hset (key : JsString) (fields : RedisHash) : Async Unit :=
  @Prog.perform Services (.hset key fields)

/-- `EXPIRE`; it answers whether there is a key. -/
def expire (key : JsString) (seconds : ℚ) : Async Bool :=
  @Prog.perform Services (.expire key seconds)

/-- `EVAL` of the script of the token bucket. -/
def evalConsumeToken (key : JsString) (capacity refillPerSecond now : ℚ) : Async (ℤ × ℤ × ℤ) :=
  @Prog.perform Services (.evalConsumeToken key capacity refillPerSecond now)

/-- `tenant.findUnique`. -/
def findTenant (id : JsString) : Async (Option Tenant) := @Prog.perform Services (.findTenant id)

/-- `delivery.findFirst` of an event and a destination. -/
def findDelivery (eventId targetUrl : JsString) : Async (Option Delivery) :=
  @Prog.perform Services (.findDelivery eventId targetUrl)

/-- `delivery.create`. -/
def createDelivery (data : NewDelivery) : Async Delivery :=
  @Prog.perform Services (.createDelivery data)

/-- `delivery.update`. -/
def updateDelivery (id : JsString) (data : DeliveryData) : Async Delivery :=
  @Prog.perform Services (.updateDelivery id data)

/-- `deadLetter.upsert` by the delivery. -/
def upsertDeadLetter (input : NewDeadLetter) : Async DeadLetter :=
  @Prog.perform Services (.upsertDeadLetter input)

/-- `outbox.updateMany` of the row, if it is unpublished. -/
def updatePublished (id : JsString) (publishedAt : ℚ) : Async ℕ :=
  @Prog.perform Services (.markPublished id publishedAt)

/-- The transaction that inserts an event with its outbox row. -/
def createEvent (input : CreateEventRecord) : Async (Event × Outbox) :=
  @Prog.perform Services (.createEvent input)

/-- The replay of a tenant under an idempotency key. -/
def findReplayByKey (tenantId idempotencyKey : JsString) : Async (Option ReplayRecord) :=
  @Prog.perform Services (.findReplayByKey tenantId idempotencyKey)

/-- A dead letter of a tenant, with what a replay takes from it. -/
def findReplaySource (tenantId id : JsString) : Async (Option ReplaySource) :=
  @Prog.perform Services (.findReplaySource tenantId id)

/-- The transaction that inserts a replay with its event and its outbox row. -/
def insertReplay (input : NewReplay) : Async ReplayRecord :=
  @Prog.perform Services (.insertReplay input)

/-- `GetObjectCommand`. -/
def getObject (key : JsString) : Async (Option JsString) :=
  @Prog.perform Services (.getObject key)

/-- `PutObjectCommand`. -/
def putObject (key body : JsString) : Async Unit := @Prog.perform Services (.putObject key body)

/-- `SendMessageCommand`. -/
def sendMessage (groupId body : JsString) : Async Unit :=
  @Prog.perform Services (.sendMessage groupId body)

/-- `ChangeMessageVisibilityCommand`. -/
def changeVisibility (receipt : ℕ) (seconds : ℤ) : Async Unit :=
  @Prog.perform Services (.changeVisibility receipt seconds)

/-- `DeleteMessageCommand`. -/
def deleteMessage (receipt : ℕ) : Async Unit := @Prog.perform Services (.deleteMessage receipt)

/-- `leases.release`. -/
def releaseLease (receipt : ℕ) : Async Unit := @Prog.perform Services (.releaseLease receipt)

/-- The counter of deferrals. -/
def recordDeferral (reason : DeferralReason) : Async Unit :=
  @Prog.perform Services (.recordDeferral reason)

/-- `fetch` of the webhook; it answers the final status. -/
def fetch (url body signature : JsString) : Async ℕ :=
  @Prog.perform Services (.fetch url body signature)

end Services
