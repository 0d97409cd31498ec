/-
# The worker's main loop (`worker/src/index.ts`)

A cycle sends ten receives, handles the messages of whichever comes back next one after the
other, acknowledges beside that what was delivered, and defers the messages of tenants that
have had their turns.  `delivery/message-batch.ts` and `delivery/tenant-turns.ts` are part of
it, and the receipts are kept by the `VisibilityLeases` of `LeaseState`.

* The loop and the acknowledgements are programs over the operations `ReceiveOp`; what the
  programs share (the turns, the deferred messages, the pending acknowledgements, the leases)
  is changed by the operations.
* `MainLoop` is the loop with everything that runs beside it.  Receives come back in any
  order, or fail; a handler releases its receipt when it likes and ends as it likes; leases
  are renewed and lost.
* A `Message` that the loop handles is an object: two deliveries of one body are two objects.
-/
import Waybill.Visibility
import Waybill.Worker

namespace ReceiveLoop

/-- `Message`.  `ref` is the identity of the object. -/
structure SqsMessage where
  ref : ℕ
  receiptHandle : Option JsString
  body : Option JsString
  deriving DecidableEq

namespace SqsMessage

/-- `message.ReceiptHandle`, as the source tests it. -/
def receipt (m : SqsMessage) : Option JsString := truthyKey m.receiptHandle

/-- The tenant of a message that can be parsed. -/
def tenant (m : SqsMessage) : Option JsString :=
  (Worker.parseQueueMessage (m.body.getD [])).map QueueMessage.tenantId

end SqsMessage

/-- `ReceiveResult`; a receive that failed has no messages. -/
structure ReceiveResult where
  id : ℕ
  messages : List SqsMessage
  error : Option JsError

/-- `RECEIVE_BATCHES`. -/
def receiveBatches : ℕ := 10

/-! ## `delivery/tenant-turns.ts` -/

/-- `TenantTurns`, with its map `used`. -/
structure TenantTurns where
  used : JsMap JsString ℕ

namespace TenantTurns

/-- The limit that the constructor takes when it is given none. -/
def limit : ℕ := 10

/-- `new TenantTurns()`. -/
def new : TenantTurns := ⟨JsMap.empty⟩

/-- `this.used.get(tenantId) ?? 0`. -/
def count (turns : TenantTurns) (tenantId : JsString) : ℕ := (turns.used.get tenantId).getD 0

/-- `take(tenantId)`. -/
def take (turns : TenantTurns) (tenantId : JsString) : Bool × TenantTurns :=
  if turns.count tenantId ≥ limit then (false, turns)
  else (true, ⟨turns.used.set tenantId (turns.count tenantId + 1)⟩)

/-- A turn is refused when the tenant has had all of its turns, and only then. -/
theorem take_fst (turns : TenantTurns) (tenantId : JsString) :
    (turns.take tenantId).1 = decide (turns.count tenantId < limit) := by
  unfold take
  split_ifs with h
  · exact (decide_eq_false (by omega)).symm
  · exact (decide_eq_true (by omega)).symm

theorem take_snd_of_full {turns : TenantTurns} {tenantId : JsString}
    (h : limit ≤ turns.count tenantId) : (turns.take tenantId).2 = turns := by
  rw [take, if_pos h]

/-- A turn that is taken is counted for its tenant. -/
theorem count_take {turns : TenantTurns} {tenantId : JsString}
    (h : turns.count tenantId < limit) (t : JsString) :
    (turns.take tenantId).2.count t = turns.count t + if tenantId = t then 1 else 0 := by
  rw [take, if_neg (by omega)]
  show ((turns.used.set tenantId (turns.count tenantId + 1)).get t).getD 0 = _
  by_cases ht : tenantId = t
  · subst ht
    rw [JsMap.get_set_self, if_pos rfl]
    rfl
  · rw [JsMap.get_set_ne _ (Ne.symm ht), if_neg ht]
    rfl

end TenantTurns

/-! ## Operations -/

/-- The operations of the loop and of its acknowledgements. -/
inductive ReceiveOp where
  /-- makes the objects of a cycle anew -/
  | newCycle
  /-- sends a receive and puts its promise into `pendingReceives` -/
  | receive (id : ℕ)
  /-- `await Promise.race(pendingReceives.values())` -/
  | race (pendingReceives : List ℕ)
  /-- `receipt && !leases.isCurrent(receipt)` -/
  | uncertain (message : SqsMessage)
  /-- `release(receipt)` up to its `await`; the answer names what it waits for -/
  | release (receipt : JsString)
  | releaseAll (receipts : List JsString)
  | awaitReleases (waits : List ℕ)
  | warnSkipped (message : SqsMessage)
  /-- `parsed && !turns.take(parsed.tenantId)` -/
  | refused (message : SqsMessage)
  | pushDeferred (message : SqsMessage)
  /-- calls `handleMessage` -/
  | handleMessage (message : SqsMessage)
  | awaitHandler (call : ℕ)
  /-- `confirmations.schedule(…)`, once there is room -/
  | schedule (message : SqsMessage) (receipt : JsString)
  /-- the `await` of `confirmations.drain()` -/
  | drain
  | onError (message : SqsMessage) (error : JsError)
  | callbackError (error : JsError)
  | deleteMessage (receipt : JsString)
  | readDeferred
  /-- the requests of `deferExcessMessages`, whose outcomes are only logged and counted -/
  | changeVisibility (batches : List (List JsString))
  | sleep
  /-- waits for ever; the loop of a model has to end somewhere -/
  | hang

namespace ReceiveOp

/-- What an operation answers when it does not throw. -/
def Res : ReceiveOp → Type
  | newCycle => Unit
  | receive _ => Unit
  | race _ => ReceiveResult
  | uncertain _ => Bool
  | release _ => ℕ
  | releaseAll _ => List ℕ
  | awaitReleases _ => Unit
  | warnSkipped _ => Unit
  | refused _ => Bool
  | pushDeferred _ => Unit
  | handleMessage _ => ℕ
  | awaitHandler _ => Except JsError Bool
  | schedule .. => Unit
  | drain => List JsError
  | onError .. => Unit
  | callbackError _ => Unit
  | deleteMessage _ => Unit
  | readDeferred => List SqsMessage
  | changeVisibility _ => Unit
  | sleep => Unit
  | hang => Empty

/-- Operations that may throw: a callback, and a request. -/
def mayThrow : ReceiveOp → Bool
  | onError .. => true
  | deleteMessage _ => true
  | _ => false

end ReceiveOp

/-- The operations as an interface for programs. -/
abbrev ReceiveServices : Interface := { Op := ReceiveOp, Res := ReceiveOp.Res, Err := JsError }

/-- A program of the loop. -/
abbrev Receiving := Prog ReceiveServices

/-- Perform one operation. -/
def perform (op : ReceiveOp) : Receiving op.Res := @Prog.perform ReceiveServices op

def race (pendingReceives : List ℕ) : Receiving ReceiveResult := perform (.race pendingReceives)

def uncertain (message : SqsMessage) : Receiving Bool := perform (.uncertain message)

def refused (message : SqsMessage) : Receiving Bool := perform (.refused message)

def releaseAll (receipts : List JsString) : Receiving (List ℕ) := perform (.releaseAll receipts)

def awaitReleases (waits : List ℕ) : Receiving Unit := perform (.awaitReleases waits)

def callHandler (message : SqsMessage) : Receiving ℕ := perform (.handleMessage message)

def awaitHandler (call : ℕ) : Receiving (Except JsError Bool) := perform (.awaitHandler call)

def awaitPending : Receiving (List JsError) := perform .drain

def onError (message : SqsMessage) (error : JsError) : Receiving Unit :=
  perform (.onError message error)

def readDeferred : Receiving (List SqsMessage) := perform .readDeferred

def hang : Receiving Empty := perform .hang

/-! ## Releasing and acknowledging -/

/-- `leases.release(receipt)`. -/
def release (receipt : JsString) : Receiving Unit :=
  Prog.bind (perform (.release receipt)) (fun wait => awaitReleases [wait])

/-- `if (receipt) await leases.release(receipt)`. -/
def releaseOf (message : SqsMessage) : Receiving Unit :=
  match message.receipt with
  | some receipt => release receipt
  | none => return ()

/-- `acknowledgeMessage`. -/
def acknowledgeMessage (receipt : JsString) : Receiving Unit := do
  release receipt
  perform (.deleteMessage receipt)

/-- The `catch` of an acknowledgement's task. -/
def reportFailure (message : SqsMessage) : Except JsError Unit → Receiving Unit
  | .ok _ => return ()
  | .error e => do
      let told ← (onError message e).attempt
      match told with
      | .ok _ => return ()
      | .error callbackError => perform (.callbackError callbackError)

/-- The task that `schedule` starts for `() => acknowledgeMessage(queueUrl, receipt)`. -/
def confirmation (message : SqsMessage) (receipt : JsString) : Receiving Unit := do
  let outcome ← (acknowledgeMessage receipt).attempt
  reportFailure message outcome

/-- `drain`. -/
def drain : Receiving Unit := do
  let callbackErrors ← awaitPending
  if callbackErrors.isEmpty then return ()
  else .throw { name := js "AggregateError", message := js "Confirmation error callback failed" }

/-! ## A message -/

/-- `handleMessage` as the loop sees it: it throws, or returns the receipt of which the
acknowledgement is to be scheduled, or nothing. -/
def handleMessage (message : SqsMessage) : Receiving (Option JsString) := do
  let call ← callHandler message
  let outcome ← awaitHandler call
  match outcome with
  | .ok acknowledges => return if acknowledges then message.receipt else none
  | .error e => .throw e

/-- The `try` around `handleMessage`. -/
def tryHandle (message : SqsMessage) : Receiving (Option JsString) := do
  let acknowledge ← handleMessage message
  if acknowledge.isNone then
    releaseOf message
    return acknowledge
  else return acknowledge

/-- The `try` with its `catch`. -/
def deliver (message : SqsMessage) : Receiving (Option JsString) := do
  let outcome ← (tryHandle message).attempt
  match outcome with
  | .ok acknowledge => return acknowledge
  | .error e =>
      releaseOf message
      .throw e

/-- The callback that the loop gives to `processDeliveryBatch`. -/
def handle (message : SqsMessage) : Receiving (Option JsString) := do
  let uncertain ← uncertain message
  if uncertain then
    releaseOf message
    perform (.warnSkipped message)
    return none
  else
    let refused ← refused message
    if refused then
      perform (.pushDeferred message)
      return none
    else deliver message

/-- `if (acknowledge) await confirmations.schedule(message, acknowledge, onError)`. -/
def scheduleIfAny (message : SqsMessage) : Option JsString → Receiving Unit
  | some receipt => perform (.schedule message receipt)
  | none => return ()

/-- The `catch` of `processDeliveryBatch`. -/
def catchError (message : SqsMessage) : Except JsError Unit → Receiving Unit
  | .ok _ => return ()
  | .error e => onError message e

/-- `processDeliveryBatch`, with confirmations that it shares. -/
def processDeliveryBatch : List SqsMessage → Receiving Unit
  | [] => return ()
  | message :: rest => do
      let outcome ← (do
        let acknowledge ← handle message
        scheduleIfAny message acknowledge).attempt
      catchError message outcome
      processDeliveryBatch rest

/-! ## A cycle -/

/-- The `for` loop that sends the receives. -/
def sendReceives : List ℕ → Receiving Unit
  | [] => return ()
  | id :: rest => do
      perform (.receive id)
      sendReceives rest

/-- `while (pendingReceives.size)`, for as many turns as there are receives; it returns
`receiveFailed`. -/
def receiveAll : ℕ → List ℕ → Bool → Receiving Bool
  | _, [], receiveFailed => return receiveFailed
  | 0, _ :: _, _ => do
      let never ← hang
      nomatch never
  | turns + 1, id :: pending, receiveFailed => do
      let result ← race (id :: pending)
      processDeliveryBatch result.messages
      receiveAll turns ((id :: pending).erase result.id) (receiveFailed || result.error.isSome)

/-- `receipts.slice(i, i + 10)` for every tenth `i`. -/
def batchesOf (receipts : List JsString) : List (List JsString) :=
  (List.range ((receipts.length + 9) / 10)).map (fun i => (receipts.drop (10 * i)).take 10)

/-- `deferExcessMessages`. -/
def deferExcessMessages (messages : List SqsMessage) : Receiving Unit := do
  let receipts := messages.filterMap SqsMessage.receipt
  let waits ← releaseAll receipts
  awaitReleases waits
  perform (.changeVisibility (batchesOf receipts))

/-- A turn of `while (true)`. -/
def cycle : Receiving Unit := do
  perform .newCycle
  sendReceives (List.range receiveBatches)
  let receiveFailed ←
    (receiveAll receiveBatches (List.range receiveBatches) false).ensure drain
  let deferred ← readDeferred
  deferExcessMessages deferred
  if receiveFailed then perform .sleep else return ()

/-- **The main loop**, for a number of cycles. -/
def loop : ℕ → Receiving Unit
  | 0 => do
      let never ← hang
      nomatch never
  | cycles + 1 => do
      cycle
      loop cycles

/-! ## What runs beside the loop -/

/-- A call of `handleMessage`, with what it ended with: an error, or whether it returned an
acknowledgement. -/
structure Handler where
  message : SqsMessage
  outcome : Option (Except JsError Bool)

/-- A scheduled acknowledgement, and the rest of its task. -/
structure Confirmation where
  message : SqsMessage
  receipt : JsString
  task : Receiving Unit

/-- `DeliveryConfirmations`; `pending` are the tasks that have not come to their end. -/
structure DeliveryConfirmations where
  pending : List Confirmation
  callbackErrors : List JsError

/-- The `limit` of the confirmations. -/
def confirmationLimit : ℕ := 10

/-- The loop and what runs beside it.  Receives are `flying`, or `arrived` and not looked at
yet.  `received` are the messages of this cycle; `lapsed`, `skipped`, `deferred` and `handled`
are those found uncertain, skipped, deferred and passed to `handleMessage`. -/
structure MainLoop where
  leases : LeaseState
  prog : Receiving Unit
  flying : List ℕ
  arrived : List ReceiveResult
  created : ℕ
  received : List SqsMessage
  lapsed : List SqsMessage
  skipped : List SqsMessage
  turns : TenantTurns
  deferred : List SqsMessage
  handled : List SqsMessage
  handlers : List Handler
  confirmations : DeliveryConfirmations

/-- `handleMessage` throws at once when a message has no receipt. -/
def Handler.new (message : SqsMessage) : Handler :=
  { message := message
    outcome := if message.receipt.isNone then
        some (.error { message := js "SQS message missing ReceiptHandle" })
      else none }

/-- A receive as it comes from the queue: the handle and the body of every message. -/
abbrev Response := List (Option JsString × Option JsString)

/-- The message objects of a response. -/
def messagesFrom : ℕ → Response → List SqsMessage
  | _, [] => []
  | n, (receiptHandle, body) :: rest => ⟨n, receiptHandle, body⟩ :: messagesFrom (n + 1) rest

/-- What is known of leases without the loop: time, the queue, rounds and waits. -/
def ofSurroundings : LeaseEvent → Bool
  | .track _ => false
  | .release _ => false
  | .operate _ => false
  | .issue _ => false
  | .stop => false
  | _ => true

namespace MainLoop

/-- What an operation answers; it blocks where it has no answer.  Of several receives that
have come back, `pick` says which one the race finds. -/
def answer (s : MainLoop) (pick : ℕ) : (op : ReceiveOp) → Option op.Res
  | .newCycle => some ()
  | .receive _ => some ()
  | .race pendingReceives =>
      (s.arrived[pick]?).filter (fun r => decide (r.id ∈ pendingReceives))
  | .uncertain m =>
      -- a message without a receipt is never in doubt
      some ((m.receipt.map (fun r => !s.leases.leases.isCurrent r s.leases.clock)).getD false)
  | .release _ => some s.leases.waits.length
  | .releaseAll receipts =>
      some ((List.range receipts.length).map (s.leases.waits.length + ·))
  -- an await goes on when all waits are over
  | .awaitReleases waits => if waits.all s.leases.waitOver then some () else none
  | .warnSkipped _ => some ()
  | .refused m => some ((m.tenant.map (fun t => !(s.turns.take t).1)).getD false)
  | .pushDeferred _ => some ()
  | .handleMessage _ => some s.handlers.length
  | .awaitHandler call => (s.handlers[call]?).bind Handler.outcome
  | .schedule .. =>
      -- `schedule` returns when there is room
      if s.confirmations.pending.length < confirmationLimit then some () else none
  | .drain =>
      if s.confirmations.pending.isEmpty then some s.confirmations.callbackErrors else none
  | .onError .. => some ()
  | .callbackError _ => some ()
  | .deleteMessage _ => some ()
  | .readDeferred => some s.deferred
  | .changeVisibility _ => some ()
  | .sleep => some ()
  | .hang => none

/-- What an operation does that answers this. -/
def effect (s : MainLoop) (pick : ℕ) : (op : ReceiveOp) → op.Res → MainLoop
  | .newCycle, _ =>
      -- a cycle starts with nothing deferred and no callback errors
      { s with
        received := []
        lapsed := []
        skipped := []
        turns := .new
        deferred := []
        handled := []
        confirmations := { s.confirmations with callbackErrors := [] } }
  | .receive id, _ =>
      { s with
        flying := s.flying ++ [id] }
  | .race _, _ =>
      { s with
        arrived := s.arrived.eraseIdx pick }
  | .uncertain m, true =>
      { s with
        lapsed := m :: s.lapsed }
  | .release receipt, _ =>
      { s with
        leases := s.leases.release receipt }
  | .releaseAll receipts, _ =>
      { s with
        leases := receipts.foldl LeaseState.release s.leases }
  | .warnSkipped m, _ =>
      { s with
        skipped := m :: s.skipped }
  | .refused m, _ =>
      { s with
        turns := (m.tenant.map (fun t => (s.turns.take t).2)).getD s.turns }
  | .pushDeferred m, _ =>
      { s with
        deferred := s.deferred ++ [m] }
  | .handleMessage m, _ =>
      { s with
        handled := m :: s.handled
        handlers := s.handlers ++ [Handler.new m] }
  | .schedule m receipt, _ =>
      { s with
        confirmations := { s.confirmations with
          pending := s.confirmations.pending ++ [⟨m, receipt, confirmation m receipt⟩] } }
  | .callbackError e, _ =>
      { s with
        confirmations := { s.confirmations with
          callbackErrors := s.confirmations.callbackErrors ++ [e] } }
  | _, _ => s

/-- An operation throws, or has its effect. -/
def perform (s : MainLoop) (pick : ℕ) (fault : Option JsError) (op : ReceiveOp) :
    Option (Except JsError op.Res × MainLoop) :=
  match (if op.mayThrow then fault else none) with
  | some e => some (.error e, s)
  | none => (s.answer pick op).map (fun a => (.ok a, s.effect pick op a))

/-- The loop performs its next operation. -/
def run (s : MainLoop) (pick : ℕ) (fault : Option JsError) : Option MainLoop :=
  match s.prog with
  | .call op k => (s.perform pick fault op).map (fun rs => { rs.2 with prog := k rs.1 })
  | _ => none

/-- The pending acknowledgements are replaced. -/
def withPending (s : MainLoop) (pending : List Confirmation) : MainLoop :=
  { s with
    confirmations := { s.confirmations with pending := pending } }

/-- An acknowledgement's task performs its next operation. -/
def confirm (s : MainLoop) (i : ℕ) (c : Confirmation) (fault : Option JsError) :
    Option MainLoop :=
  match c.task with
  | .call op k => (s.perform 0 fault op).map (fun rs =>
      rs.2.withPending (rs.2.confirmations.pending.set i { c with task := k rs.1 }))
  | _ => none

/-- A task that has come to its end is no longer pending. -/
def settle (s : MainLoop) (i : ℕ) (c : Confirmation) : Option MainLoop :=
  match c.task with
  | .call .. => none
  | _ => some (s.withPending (s.confirmations.pending.eraseIdx i))

/-- A receive comes back: every receipt of it is tracked. -/
def arrive (s : MainLoop) (id : ℕ) (messages : List SqsMessage) (error : Option JsError) :
    MainLoop :=
  { s with
    leases := (messages.filterMap SqsMessage.receipt).foldl LeaseState.track s.leases
    flying := s.flying.erase id
    arrived := s.arrived ++ [⟨id, messages, error⟩]
    created := s.created + messages.length
    received := s.received ++ messages }

/-- The handler of a call releases the receipt of its message. -/
def handlerReleases (s : MainLoop) (h : Handler) : Option MainLoop :=
  match h.outcome, h.message.receipt with
  | none, some receipt => some
      { s with
        leases := s.leases.release receipt }
  | _, _ => none

/-- The handler of a call ends. -/
def handlerEnds (s : MainLoop) (call : ℕ) (h : Handler) (outcome : Except JsError Bool) :
    Option MainLoop :=
  match h.outcome with
  | none => some
      { s with
        handlers := s.handlers.set call { h with outcome := some outcome } }
  | some _ => none

end MainLoop

/-- What can happen next. -/
inductive LoopEvent where
  | run (pick : ℕ) (fault : Option JsError)
  | confirm (i : ℕ) (fault : Option JsError)
  | settle (i : ℕ)
  | arrive (id : ℕ) (response : Response)
  | fail (id : ℕ) (error : JsError)
  | handlerReleases (call : ℕ)
  | handlerEnds (call : ℕ) (outcome : Except JsError Bool)
  | lease (e : LeaseEvent)

/-- What the event does. -/
def next (s : MainLoop) : LoopEvent → Option MainLoop
  | .run pick fault => s.run pick fault
  | .confirm i fault => (s.confirmations.pending[i]?).bind (fun c => s.confirm i c fault)
  | .settle i => (s.confirmations.pending[i]?).bind (s.settle i)
  -- a receive in flight is answered, or fails
  | .arrive id response =>
      if id ∈ s.flying then some (s.arrive id (messagesFrom s.created response) none) else none
  | .fail id error => if id ∈ s.flying then some (s.arrive id [] (some error)) else none
  | .handlerReleases call => (s.handlers[call]?).bind s.handlerReleases
  | .handlerEnds call outcome =>
      (s.handlers[call]?).bind (fun h => s.handlerEnds call h outcome)
  | .lease e =>
      if ofSurroundings e then
        (s.leases.step e).map (fun l =>
          { s with
            leases := l })
      else none

/-- Events that take place on the worker's thread, which does nothing else while a part of
`renewAll` runs; what happens to the leases themselves says so on its own. -/
def onThread : LoopEvent → Bool
  | .lease _ => false
  | _ => true

/-- **A step.** -/
def step (s : MainLoop) (e : LoopEvent) : Option MainLoop :=
  if onThread e && !s.leases.free then none else next s e

/-- A worker that has just been started. -/
structure Start (s : MainLoop) : Prop where
  leases : s.leases.Start
  prog : ∃ cycles, s.prog = loop cycles
  flying : s.flying = []
  arrived : s.arrived = []
  received : s.received = []
  lapsed : s.lapsed = []
  skipped : s.skipped = []
  turns : s.turns = .new
  deferred : s.deferred = []
  handled : s.handled = []
  handlers : s.handlers = []
  confirmations : s.confirmations = ⟨[], []⟩

end ReceiveLoop
