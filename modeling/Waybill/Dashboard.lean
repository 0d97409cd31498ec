/-
# What the dashboard reads (`web/src/lib/`)

The dashboard trusts nothing the API sends: every answer is read field by field, and an answer
that is not as expected is refused as a whole.  Here are the readers of the two listings, with
the values that they are for.

* `deliveryPages`, `deadLetterPages`: the formats of the two pages, put together from those of
  their fields.
* `readers_exact`: the readers accept exactly the pages that consist of well-formed records of
  the tenant, none of them twice.

`Date.parse` of a text that is not in the ECMAScript format is up to the engine, so it is a
parameter.
-/
import Waybill.Pages
import Waybill.Readers

open Keyset (Page)

namespace Dashboard

open Format (object? bind_of_read)

/-- `DashboardApiError`. -/
structure DashboardApiError where
  status : ℕ
  message : JsString

/-- What was read, or `invalid()`. -/
def orInvalid {α : Type} (message : JsString) : Option α → Except DashboardApiError α
  | some a => .ok a
  | none => .error { status := 502, message := message }

theorem orInvalid_eq_ok {α : Type} {message : JsString} {a : Option α} {b : α} :
    orInvalid message a = .ok b ↔ a = some b := by
  cases a with
  | none => exact Iff.intro (fun h => nomatch h) (fun h => nomatch h)
  | some a =>
      refine ⟨fun h => congrArg some (Except.ok.inj h), fun h => ?_⟩
      rw [orInvalid, Option.some.inj h]

/-! ## Fields -/

/-- `uuid(value)`. -/
def uuid : Format JsString := Format.text.only Api.isUuid

/-- A string or `null`. -/
def optionalString : Format (Option JsString) :=
  Format.string.nullable fun _ h => nomatch h

/-- A string that is not empty, or `null`. -/
def optionalText : Format (Option JsString) := Format.text.nullable fun _ h => nomatch h

section

variable (parseDate : JsString → Option ℤ)

/-- `date(value)`. -/
def date : Format JsString := Format.text.only (fun s => (parseDate s).isSome)

/-- `optionalDate(value)`. -/
def optionalDate : Format (Option JsString) := (date parseDate).nullable fun _ h => nomatch h

end

/-! ## Deliveries (`dashboard-api.ts`) -/

/-- `DeliveryRecord`. -/
structure DeliveryRecord where
  id : JsString
  eventId : JsString
  tenantId : JsString
  targetUrl : JsString
  status : DeliveryStatus
  attemptCount : ℕ
  createdAt : JsString
  lastAttemptAt : Option JsString
  nextAttemptAt : Option JsString
  lastError : Option JsString
  eventType : JsString
  deriving DecidableEq

/-- A record as it is sent. -/
def DeliveryRecord.json (parseDate : JsString → Option ℤ) (r : DeliveryRecord) : Json :=
  .obj [(js "id", uuid.write r.id), (js "eventId", uuid.write r.eventId),
    (js "tenantId", .str r.tenantId), (js "targetUrl", Format.text.write r.targetUrl),
    (js "status", .str (Api.statusText r.status)),
    (js "attemptCount", Format.count.write r.attemptCount),
    (js "createdAt", (date parseDate).write r.createdAt),
    (js "lastAttemptAt", (optionalDate parseDate).write r.lastAttemptAt),
    (js "nextAttemptAt", (optionalDate parseDate).write r.nextAttemptAt),
    (js "lastError", optionalString.write r.lastError),
    (js "event", .obj [(js "type", Format.text.write r.eventType)])]

/-- A record of a tenant that the dashboard can show. -/
structure DeliveryRecord.WellFormed (parseDate : JsString → Option ℤ) (tenantId : JsString)
    (r : DeliveryRecord) : Prop where
  id : uuid.Valid r.id
  eventId : uuid.Valid r.eventId
  tenantId : r.tenantId = tenantId
  targetUrl : Format.text.Valid r.targetUrl
  attemptCount : Format.count.Valid r.attemptCount
  createdAt : (date parseDate).Valid r.createdAt
  lastAttemptAt : (optionalDate parseDate).Valid r.lastAttemptAt
  nextAttemptAt : (optionalDate parseDate).Valid r.nextAttemptAt
  eventType : Format.text.Valid r.eventType

/-- The callback of `readDeliveryHistory`. -/
def readDeliveryRecord (parseDate : JsString → Option ℤ) (tenantId : JsString)
    (value : Option Json) : Option DeliveryRecord := do
  let row ← object? value
  let event ← object? (row.get? (js "event"))
  let owner ← Format.string.read (row.get? (js "tenantId"))
  let status ← (row.get? (js "status")).bind Api.status?
  let lastError ← optionalString.read (row.get? (js "lastError"))
  if owner = tenantId then do
    let id ← uuid.read (row.get? (js "id"))
    let eventId ← uuid.read (row.get? (js "eventId"))
    let targetUrl ← Format.text.read (row.get? (js "targetUrl"))
    let attemptCount ← Format.count.read (row.get? (js "attemptCount"))
    let createdAt ← (date parseDate).read (row.get? (js "createdAt"))
    let lastAttemptAt ← (optionalDate parseDate).read (row.get? (js "lastAttemptAt"))
    let nextAttemptAt ← (optionalDate parseDate).read (row.get? (js "nextAttemptAt"))
    let eventType ← Format.text.read (event.get? (js "type"))
    return { id := id, eventId := eventId, tenantId := tenantId, targetUrl := targetUrl
             status := status, attemptCount := attemptCount, createdAt := createdAt
             lastAttemptAt := lastAttemptAt, nextAttemptAt := nextAttemptAt
             lastError := lastError, eventType := eventType }
  else none

section

variable {parseDate : JsString → Option ℤ} {tenantId : JsString}

theorem readDeliveryRecord_json {r : DeliveryRecord} (h : r.WellFormed parseDate tenantId) :
    readDeliveryRecord parseDate tenantId (some (r.json parseDate)) = some r := by
  obtain rfl := h.tenantId
  have hobject : object? (some (r.json parseDate)) = some (r.json parseDate) := rfl
  have hevent : object? ((r.json parseDate).get? (js "event")) =
    some (.obj [(js "type", Format.text.write r.eventType)]) := rfl
  have howner : Format.string.read ((r.json parseDate).get? (js "tenantId")) =
    some r.tenantId := rfl
  have hstatus : ((r.json parseDate).get? (js "status")).bind Api.status? = some r.status :=
    Api.status?_statusText r.status
  have herror : optionalString.read ((r.json parseDate).get? (js "lastError")) =
    some r.lastError := optionalString.read_write _ fun _ _ => trivial
  have hid : uuid.read ((r.json parseDate).get? (js "id")) = some r.id := uuid.read_write _ h.id
  have heventId : uuid.read ((r.json parseDate).get? (js "eventId")) = some r.eventId :=
    uuid.read_write _ h.eventId
  have hurl : Format.text.read ((r.json parseDate).get? (js "targetUrl")) = some r.targetUrl :=
    Format.text.read_write _ h.targetUrl
  have hcount : Format.count.read ((r.json parseDate).get? (js "attemptCount")) =
    some r.attemptCount := Format.count.read_write _ h.attemptCount
  have hcreated : (date parseDate).read ((r.json parseDate).get? (js "createdAt")) =
    some r.createdAt := (date parseDate).read_write _ h.createdAt
  have hlast : (optionalDate parseDate).read ((r.json parseDate).get? (js "lastAttemptAt")) =
    some r.lastAttemptAt := (optionalDate parseDate).read_write _ h.lastAttemptAt
  have hnext : (optionalDate parseDate).read ((r.json parseDate).get? (js "nextAttemptAt")) =
    some r.nextAttemptAt := (optionalDate parseDate).read_write _ h.nextAttemptAt
  have htype : Format.text.read
      ((Json.obj [(js "type", Format.text.write r.eventType)]).get? (js "type")) =
        some r.eventType := Format.text.read_write _ h.eventType
  unfold readDeliveryRecord
  rw [bind_of_read hobject, bind_of_read hevent, bind_of_read howner, bind_of_read hstatus,
    bind_of_read herror, if_pos rfl, bind_of_read hid, bind_of_read heventId, bind_of_read hurl,
    bind_of_read hcount, bind_of_read hcreated, bind_of_read hlast, bind_of_read hnext,
    bind_of_read htype]
  rfl

theorem wellFormed_of_readDeliveryRecord {value : Option Json} {r : DeliveryRecord}
    (h : readDeliveryRecord parseDate tenantId value = some r) :
    r.WellFormed parseDate tenantId := by
  obtain ⟨row, -, h⟩ := Option.bind_eq_some_iff.mp h
  obtain ⟨event, -, h⟩ := Option.bind_eq_some_iff.mp h
  obtain ⟨owner, -, h⟩ := Option.bind_eq_some_iff.mp h
  obtain ⟨status, -, h⟩ := Option.bind_eq_some_iff.mp h
  obtain ⟨lastError, -, h⟩ := Option.bind_eq_some_iff.mp h
  obtain ⟨-, h⟩ := Option.ite_none_right_eq_some.mp h
  obtain ⟨id, hid, h⟩ := Option.bind_eq_some_iff.mp h
  obtain ⟨eventId, heventId, h⟩ := Option.bind_eq_some_iff.mp h
  obtain ⟨url, hurl, h⟩ := Option.bind_eq_some_iff.mp h
  obtain ⟨n, hn, h⟩ := Option.bind_eq_some_iff.mp h
  obtain ⟨created, hcreated, h⟩ := Option.bind_eq_some_iff.mp h
  obtain ⟨last, hlast, h⟩ := Option.bind_eq_some_iff.mp h
  obtain ⟨next, hnext, h⟩ := Option.bind_eq_some_iff.mp h
  obtain ⟨type, htype, h⟩ := Option.bind_eq_some_iff.mp h
  obtain rfl := Option.some.inj h
  exact
    { id := uuid.valid_read _ _ hid
      eventId := uuid.valid_read _ _ heventId
      tenantId := rfl
      targetUrl := Format.text.valid_read _ _ hurl
      attemptCount := Format.count.valid_read _ _ hn
      createdAt := (date parseDate).valid_read _ _ hcreated
      lastAttemptAt := (optionalDate parseDate).valid_read _ _ hlast
      nextAttemptAt := (optionalDate parseDate).valid_read _ _ hnext
      eventType := Format.text.valid_read _ _ htype }

end

section

variable (parseDate : JsString → Option ℤ) (tenantId : JsString)

/-- The records of a tenant. -/
def deliveryRecord : Format DeliveryRecord where
  read := readDeliveryRecord parseDate tenantId
  write := DeliveryRecord.json parseDate
  Valid := DeliveryRecord.WellFormed parseDate tenantId
  read_write _ h := readDeliveryRecord_json h
  valid_read _ _ h := wellFormed_of_readDeliveryRecord h

/-- `DeliveryHistory`. -/
def deliveryPages : Format (Page DeliveryRecord JsString) :=
  ((deliveryRecord parseDate tenantId).items DeliveryRecord.id).page optionalString

/-- `readDeliveryHistory`. -/
def readDeliveryHistory (value : Option Json) :
    Except DashboardApiError (Page DeliveryRecord JsString) :=
  orInvalid (js "Waybill returned an unexpected response. Please try again.")
    ((deliveryPages parseDate tenantId).read value)

end

/-! ## Dead letters (`dead-letters.ts`) -/

/-- `DeadLetterReplay`. -/
structure DeadLetterReplay where
  id : JsString
  eventId : JsString
  createdAt : JsString
  deriving DecidableEq

/-- `DeadLetterRecord`. -/
structure DeadLetterRecord where
  id : JsString
  eventId : JsString
  deliveryId : JsString
  tenantId : JsString
  targetUrl : JsString
  lastError : Option JsString
  attemptCount : ℕ
  createdAt : JsString
  eventType : JsString
  replay : Option DeadLetterReplay
  deriving DecidableEq

section

variable (parseDate : JsString → Option ℤ) (tenantId : JsString)

/-- The replay of a dead letter, in `readDeadLetterHistory`. -/
def deadLetterReplay : Format DeadLetterReplay where
  read value := do
    let replay ← object? value
    let id ← uuid.read (replay.get? (js "id"))
    let eventId ← uuid.read (replay.get? (js "eventId"))
    let createdAt ← (date parseDate).read (replay.get? (js "createdAt"))
    return { id := id, eventId := eventId, createdAt := createdAt }
  write r := .obj [(js "id", uuid.write r.id), (js "eventId", uuid.write r.eventId),
    (js "createdAt", (date parseDate).write r.createdAt)]
  Valid r := uuid.Valid r.id ∧ uuid.Valid r.eventId ∧ (date parseDate).Valid r.createdAt
  read_write r h := by
    have hid : uuid.read (some (uuid.write r.id)) = some r.id := uuid.read_write _ h.1
    have heventId : uuid.read (some (uuid.write r.eventId)) = some r.eventId :=
      uuid.read_write _ h.2.1
    have hcreated : (date parseDate).read (some ((date parseDate).write r.createdAt)) =
      some r.createdAt := (date parseDate).read_write _ h.2.2
    refine (bind_of_read rfl _).trans ?_
    refine (bind_of_read hid _).trans ?_
    refine (bind_of_read heventId _).trans ?_
    exact bind_of_read hcreated _
  valid_read value r h := by
    obtain ⟨replay, -, h⟩ := Option.bind_eq_some_iff.mp h
    obtain ⟨id, hid, h⟩ := Option.bind_eq_some_iff.mp h
    obtain ⟨eventId, heventId, h⟩ := Option.bind_eq_some_iff.mp h
    obtain ⟨created, hcreated, h⟩ := Option.bind_eq_some_iff.mp h
    obtain rfl := Option.some.inj h
    exact ⟨uuid.valid_read _ _ hid, uuid.valid_read _ _ heventId,
      (date parseDate).valid_read _ _ hcreated⟩

/-- The replay, or `null`. -/
def optionalReplay : Format (Option DeadLetterReplay) :=
  (deadLetterReplay parseDate).nullable fun _ h => nomatch h

/-- A dead letter as it is sent. -/
def DeadLetterRecord.json (r : DeadLetterRecord) : Json :=
  .obj [(js "id", uuid.write r.id), (js "eventId", uuid.write r.eventId),
    (js "deliveryId", uuid.write r.deliveryId), (js "tenantId", .str r.tenantId),
    (js "targetUrl", Format.text.write r.targetUrl),
    (js "lastError", optionalString.write r.lastError),
    (js "attemptCount", Format.count.write r.attemptCount),
    (js "createdAt", (date parseDate).write r.createdAt),
    (js "event", .obj [(js "type", Format.text.write r.eventType)]),
    (js "replay", (optionalReplay parseDate).write r.replay)]

/-- A dead letter of a tenant that the dashboard can show. -/
structure DeadLetterRecord.WellFormed (r : DeadLetterRecord) : Prop where
  id : uuid.Valid r.id
  eventId : uuid.Valid r.eventId
  deliveryId : uuid.Valid r.deliveryId
  tenantId : r.tenantId = tenantId
  targetUrl : Format.text.Valid r.targetUrl
  attemptCount : Format.count.Valid r.attemptCount
  createdAt : (date parseDate).Valid r.createdAt
  eventType : Format.text.Valid r.eventType
  replay : (optionalReplay parseDate).Valid r.replay

/-- The callback of `readDeadLetterHistory`. -/
def readDeadLetterRecord (value : Option Json) : Option DeadLetterRecord := do
  let row ← object? value
  let event ← object? (row.get? (js "event"))
  let owner ← Format.string.read (row.get? (js "tenantId"))
  let attemptCount ← Format.count.read (row.get? (js "attemptCount"))
  let lastError ← optionalString.read (row.get? (js "lastError"))
  if owner = tenantId then do
    let replay ← (optionalReplay parseDate).read (row.get? (js "replay"))
    let id ← uuid.read (row.get? (js "id"))
    let eventId ← uuid.read (row.get? (js "eventId"))
    let deliveryId ← uuid.read (row.get? (js "deliveryId"))
    let targetUrl ← Format.text.read (row.get? (js "targetUrl"))
    let createdAt ← (date parseDate).read (row.get? (js "createdAt"))
    let eventType ← Format.text.read (event.get? (js "type"))
    return { id := id, eventId := eventId, deliveryId := deliveryId, tenantId := tenantId
             targetUrl := targetUrl, lastError := lastError, attemptCount := attemptCount
             createdAt := createdAt, eventType := eventType, replay := replay }
  else none

end

section

variable {parseDate : JsString → Option ℤ} {tenantId : JsString}

theorem readDeadLetterRecord_json {r : DeadLetterRecord} (h : r.WellFormed parseDate tenantId) :
    readDeadLetterRecord parseDate tenantId (some (r.json parseDate)) = some r := by
  obtain rfl := h.tenantId
  have hobject : object? (some (r.json parseDate)) = some (r.json parseDate) := rfl
  have hevent : object? ((r.json parseDate).get? (js "event")) =
    some (.obj [(js "type", Format.text.write r.eventType)]) := rfl
  have howner : Format.string.read ((r.json parseDate).get? (js "tenantId")) =
    some r.tenantId := rfl
  have hcount : Format.count.read ((r.json parseDate).get? (js "attemptCount")) =
    some r.attemptCount := Format.count.read_write _ h.attemptCount
  have herror : optionalString.read ((r.json parseDate).get? (js "lastError")) =
    some r.lastError := optionalString.read_write _ fun _ _ => trivial
  have hreplay : (optionalReplay parseDate).read ((r.json parseDate).get? (js "replay")) =
    some r.replay := (optionalReplay parseDate).read_write _ h.replay
  have hid : uuid.read ((r.json parseDate).get? (js "id")) = some r.id := uuid.read_write _ h.id
  have heventId : uuid.read ((r.json parseDate).get? (js "eventId")) = some r.eventId :=
    uuid.read_write _ h.eventId
  have hdeliveryId : uuid.read ((r.json parseDate).get? (js "deliveryId")) =
    some r.deliveryId := uuid.read_write _ h.deliveryId
  have hurl : Format.text.read ((r.json parseDate).get? (js "targetUrl")) = some r.targetUrl :=
    Format.text.read_write _ h.targetUrl
  have hcreated : (date parseDate).read ((r.json parseDate).get? (js "createdAt")) =
    some r.createdAt := (date parseDate).read_write _ h.createdAt
  have htype : Format.text.read
      ((Json.obj [(js "type", Format.text.write r.eventType)]).get? (js "type")) =
        some r.eventType := Format.text.read_write _ h.eventType
  unfold readDeadLetterRecord
  rw [bind_of_read hobject, bind_of_read hevent, bind_of_read howner, bind_of_read hcount,
    bind_of_read herror, if_pos rfl, bind_of_read hreplay, bind_of_read hid,
    bind_of_read heventId, bind_of_read hdeliveryId, bind_of_read hurl, bind_of_read hcreated,
    bind_of_read htype]
  rfl

theorem wellFormed_of_readDeadLetterRecord {value : Option Json} {r : DeadLetterRecord}
    (h : readDeadLetterRecord parseDate tenantId value = some r) :
    r.WellFormed parseDate tenantId := by
  obtain ⟨row, -, h⟩ := Option.bind_eq_some_iff.mp h
  obtain ⟨event, -, h⟩ := Option.bind_eq_some_iff.mp h
  obtain ⟨owner, -, h⟩ := Option.bind_eq_some_iff.mp h
  obtain ⟨n, hn, h⟩ := Option.bind_eq_some_iff.mp h
  obtain ⟨lastError, -, h⟩ := Option.bind_eq_some_iff.mp h
  obtain ⟨-, h⟩ := Option.ite_none_right_eq_some.mp h
  obtain ⟨replay, hreplay, h⟩ := Option.bind_eq_some_iff.mp h
  obtain ⟨id, hid, h⟩ := Option.bind_eq_some_iff.mp h
  obtain ⟨eventId, heventId, h⟩ := Option.bind_eq_some_iff.mp h
  obtain ⟨deliveryId, hdeliveryId, h⟩ := Option.bind_eq_some_iff.mp h
  obtain ⟨url, hurl, h⟩ := Option.bind_eq_some_iff.mp h
  obtain ⟨created, hcreated, h⟩ := Option.bind_eq_some_iff.mp h
  obtain ⟨type, htype, h⟩ := Option.bind_eq_some_iff.mp h
  obtain rfl := Option.some.inj h
  exact
    { id := uuid.valid_read _ _ hid
      eventId := uuid.valid_read _ _ heventId
      deliveryId := uuid.valid_read _ _ hdeliveryId
      tenantId := rfl
      targetUrl := Format.text.valid_read _ _ hurl
      attemptCount := Format.count.valid_read _ _ hn
      createdAt := (date parseDate).valid_read _ _ hcreated
      eventType := Format.text.valid_read _ _ htype
      replay := (optionalReplay parseDate).valid_read _ _ hreplay }

end

section

variable (parseDate : JsString → Option ℤ) (tenantId : JsString)

/-- The dead letters of a tenant. -/
def deadLetterRecord : Format DeadLetterRecord where
  read := readDeadLetterRecord parseDate tenantId
  write := DeadLetterRecord.json parseDate
  Valid := DeadLetterRecord.WellFormed parseDate tenantId
  read_write _ h := readDeadLetterRecord_json h
  valid_read _ _ h := wellFormed_of_readDeadLetterRecord h

/-- `DeadLetterHistory`. -/
def deadLetterPages : Format (Page DeadLetterRecord JsString) :=
  ((deadLetterRecord parseDate tenantId).items DeadLetterRecord.id).page optionalText

/-- `readDeadLetterHistory`. -/
def readDeadLetterHistory (value : Option Json) :
    Except DashboardApiError (Page DeadLetterRecord JsString) :=
  orInvalid (js "Waybill returned unexpected dead-letter data. Please try again.")
    ((deadLetterPages parseDate tenantId).read value)

end

/-! ## What the readers accept -/

/-- **The readers are exact**: a page is what some text is read as if and only if each of its
records is well formed and of the tenant, and no two have the same id; the cursor of a page of
dead letters is not empty. -/
theorem readers_exact (parseDate : JsString → Option ℤ) (tenantId : JsString) :
    (∀ page : Page DeliveryRecord JsString,
      (∃ text, readDeliveryHistory parseDate tenantId (Json.parse text) = .ok page) ↔
        (∀ r ∈ page.items, r.WellFormed parseDate tenantId) ∧
          (page.items.map DeliveryRecord.id).Nodup) ∧
    (∀ page : Page DeadLetterRecord JsString,
      (∃ text, readDeadLetterHistory parseDate tenantId (Json.parse text) = .ok page) ↔
        ((∀ r ∈ page.items, r.WellFormed parseDate tenantId) ∧
          (page.items.map DeadLetterRecord.id).Nodup) ∧ page.nextCursor ≠ some []) := by
  constructor
  · intro page
    calc (∃ text, readDeliveryHistory parseDate tenantId (Json.parse text) = .ok page)
        ↔ ∃ text, (deliveryPages parseDate tenantId).read (Json.parse text) = some page :=
          exists_congr fun text => orInvalid_eq_ok
      _ ↔ (deliveryPages parseDate tenantId).Valid page := Format.exists_parse_iff _ page
      _ ↔ _ := and_iff_left fun _ _ => trivial
  · intro page
    -- a cursor of the dead letters is refused only if it is empty
    have hcursor : optionalText.Valid page.nextCursor ↔ page.nextCursor ≠ some [] := by
      constructor
      · exact fun hvalid hnil => absurd (hvalid [] hnil).2 Bool.false_ne_true
      · intro hne s hs
        refine ⟨trivial, ?_⟩
        cases s with
        | nil => exact absurd hs hne
        | cons u s => rfl
    calc (∃ text, readDeadLetterHistory parseDate tenantId (Json.parse text) = .ok page)
        ↔ ∃ text, (deadLetterPages parseDate tenantId).read (Json.parse text) = some page :=
          exists_congr fun text => orInvalid_eq_ok
      _ ↔ (deadLetterPages parseDate tenantId).Valid page := Format.exists_parse_iff _ page
      _ ↔ _ := and_congr_right fun _ => hcursor

end Dashboard
