/-
# Publishing a row (`worker/src/outbox-poller.ts`, `worker/src/repositories/outbox.ts`)

`publishOne` sends one outbox row to the queue and marks it published.  Which rows a tick
selects is in `Backlog.lean`.
-/
import Waybill.Worker

open Services

namespace Publisher

/-! ## Publishing a row -/

/-- The message `publishOne` builds for an event. -/
def queueMessage (event : Event) : QueueMessage :=
  { eventId := event.id
    tenantId := event.tenantId
    type := event.type
    payload := match truthyKey event.payloadS3Key with
      | some _ => .null
      | none => event.payload.getD .null
    payloadS3Key := event.payloadS3Key }

/-- A `QueueMessage` as a JSON value. -/
def messageJson (message : QueueMessage) : Json :=
  .obj [(js "eventId", .str message.eventId), (js "tenantId", .str message.tenantId),
    (js "type", .str message.type), (js "payload", message.payload),
    (js "payloadS3Key",
      match message.payloadS3Key with
      | some key => .str key
      | none => .null)]

/-- The `MessageBody` of an event. -/
def messageBody (event : Event) : JsString := (messageJson (queueMessage event)).stringify

/-- `markPublished`: how many rows it changed. -/
def markPublished (id : JsString) : Async ℕ := do
  let t ← now
  updatePublished id t

/-- `publishOne`. -/
def publishOne (row : Outbox) (event : Event) : Async Unit := do
  sendMessage event.tenantId (messageBody event)
  let _ ← markPublished row.id
  return ()

/-! ## Reading a message back -/

/-- The member names of a queue message differ. -/
theorem member_names_distinct :
    (js "payloadS3Key" == js "payload") = false ∧ (js "payloadS3Key" == js "type") = false ∧
      (js "payloadS3Key" == js "tenantId") = false ∧ (js "payloadS3Key" == js "eventId") = false ∧
      (js "payload" == js "type") = false ∧ (js "payload" == js "tenantId") = false ∧
      (js "payload" == js "eventId") = false ∧ (js "type" == js "tenantId") = false ∧
      (js "type" == js "eventId") = false ∧ (js "tenantId" == js "eventId") = false := by
  decide +kernel

/-- The members of a message. -/
theorem get?_messageJson (message : QueueMessage) :
    (messageJson message).get? (js "eventId") = some (.str message.eventId) ∧
      (messageJson message).get? (js "tenantId") = some (.str message.tenantId) ∧
      (messageJson message).get? (js "type") = some (.str message.type) ∧
      (messageJson message).get? (js "payload") = some message.payload ∧
      ((messageJson message).get? (js "payloadS3Key")).bind Json.str? = message.payloadS3Key := by
  obtain ⟨h1, h2, h3, h4, h5, h6, h7, h8, h9, h10⟩ := member_names_distinct
  refine ⟨?_, ?_, ?_, ?_, ?_⟩
  · simp [messageJson, Json.get?, h4, h7, h9, h10]
  · simp [messageJson, Json.get?, h3, h6, h8]
  · simp [messageJson, Json.get?, h2, h5]
  · simp [messageJson, Json.get?, h1]
  · cases hk : message.payloadS3Key <;> simp [messageJson, Json.get?, Json.str?, hk]

/-- **A published message is never poison**: a handler reads back what was sent. -/
theorem parseQueueMessage_messageBody (event : Event) :
    Worker.parseQueueMessage (messageBody event) = some (queueMessage event) := by
  obtain ⟨h1, h2, h3, h4, h5⟩ := get?_messageJson (queueMessage event)
  rw [Worker.parseQueueMessage, messageBody, Json.parse_stringify]
  simp [h1, h2, h3, h4, h5, Json.str?]

/-- The event a webhook body names. -/
def postedEvent (body : JsString) : Option JsString :=
  ((Json.parse body).bind (fun v => v.get? (js "eventId"))).bind Json.str?

/-- A webhook names the event it was made for. -/
theorem postedEvent_webhookBody (message : QueueMessage) (payload : Json) :
    postedEvent (Worker.webhookBody message payload).stringify = some message.eventId := by
  obtain ⟨-, -, -, -, -, -, h7, -, h9, h10⟩ := member_names_distinct
  rw [postedEvent, Json.parse_stringify]
  simp [Worker.webhookBody, Json.get?, Json.str?, h7, h9, h10]

end Publisher
