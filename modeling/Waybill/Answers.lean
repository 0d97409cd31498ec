/-
# What the API answers to the dashboard (`api/src/controllers/`, `web/src/lib/dashboard-api.ts`)

The two listings once more, now with both ends of the connection: the controllers print a page
or an error as a response, and the dashboard takes the response apart again.

`listings_shown` is the result: the page that the service computed is the page that the
dashboard shows, and an error becomes the message for its status.  It needs that the rows are
as the writers of the tables leave them (`Stored`), and that `Date.parse` reads what
`toISOString` printed.
-/
import Waybill.Dashboard

open Keyset (Page)

namespace Keyset

variable {ρ π κ : Type*} [LinearOrder κ] {place : ρ → π} {key : π → κ} {n : ℕ}
  {position : Option π} {rows : List ρ}

/-- What tells the rows apart tells those of a page apart. -/
theorem nodup_items {β : Type*} (f : ρ → β) (h : (rows.map f).Nodup) :
    ((page place key n position rows).items.map f).Nodup := by
  have hremaining : ((remaining place key position rows).map f).Nodup :=
    List.Nodup.sublist (List.Sublist.map _ List.filter_sublist) h
  have hsorted : ((Ranking.sorted (fun r => key (place r))
      (remaining place key position rows)).map f).Nodup :=
    ((Ranking.sorted_perm _ _).map f).nodup_iff.mpr hremaining
  exact List.Nodup.sublist (List.Sublist.map _ (List.take_sublist n _)) hsorted

/-- A cursor is the place of a row of the page. -/
theorem exists_of_nextCursor {p : π}
    (h : (page place key n position rows).nextCursor = some p) :
    ∃ r ∈ (page place key n position rows).items, place r = p := by
  obtain ⟨-, h⟩ := Option.ite_none_right_eq_some.mp h
  obtain ⟨last, hlast, rfl⟩ := Option.map_eq_some_iff.mp h
  exact ⟨last, List.mem_of_getLast? hlast, rfl⟩

end Keyset

namespace Api

/-! ## Responses -/

/-- A response. -/
structure Answer where
  status : ℕ
  body : JsString
  deriving DecidableEq

/-- `res.status(status).json(value)`. -/
def Answer.json (status : ℕ) (value : Json) : Answer :=
  { status := status
    body := value.stringify }

/-- `{ error: error.message }`. -/
def errorJson (error : JsError) : Json := .obj [(js "error", .str error.message)]

/-- A `Date`, as `JSON.stringify` prints it. -/
def dateJson (t : ℤ) : Json := .str (Calendar.toISOString t)

/-- A column that may be `NULL`. -/
def columnJson {α : Type} (json : α → Json) : Option α → Json
  | none => .null
  | some a => json a

/-- What `listDeliveryHistory` selects of a row. -/
def DeliveryRow.json (row : DeliveryRow) : Json :=
  .obj [(js "id", .str row.id), (js "eventId", .str row.eventId),
    (js "tenantId", .str row.tenantId), (js "targetUrl", .str row.targetUrl),
    (js "status", .str (statusText row.status)),
    (js "attemptCount", .ofNumber (row.attemptCount : ℤ)),
    (js "createdAt", dateJson row.createdAt),
    (js "lastAttemptAt", columnJson dateJson row.lastAttemptAt),
    (js "nextAttemptAt", columnJson dateJson row.nextAttemptAt),
    (js "lastError", columnJson .str row.lastError),
    (js "event", .obj [(js "type", .str row.eventType)])]

/-- What `listDeadLetters` selects of a replay. -/
def ReplayRow.json (row : ReplayRow) : Json :=
  .obj [(js "id", .str row.id), (js "eventId", .str row.eventId),
    (js "createdAt", dateJson row.createdAt)]

/-- What `listDeadLetters` selects of a row. -/
def DeadLetterRow.json (row : DeadLetterRow) : Json :=
  .obj [(js "id", .str row.id), (js "eventId", .str row.eventId),
    (js "deliveryId", .str row.deliveryId), (js "tenantId", .str row.tenantId),
    (js "targetUrl", .str row.targetUrl), (js "lastError", columnJson .str row.lastError),
    (js "attemptCount", .ofNumber (row.attemptCount : ℤ)),
    (js "createdAt", dateJson row.createdAt),
    (js "event", .obj [(js "type", .str row.eventType)]),
    (js "replay", columnJson ReplayRow.json row.replay)]

/-- `{ items, nextCursor }`. -/
def pageJson {ρ : Type} (json : ρ → Json) (page : Page ρ JsString) : Json :=
  .obj [(js "items", .arr (page.items.map json)),
    (js "nextCursor", columnJson .str page.nextCursor)]

namespace Listing

variable {ρ Q κ : Type} [LinearOrder κ] (L : Listing ρ Q) (collate : Uuid → κ)

/-- The status for an error: a query that is not accepted throws a `…ValidationError`, and a
replica that cannot be read an `…UnavailableError`. -/
def errorStatus (tenantId query : Json) : ℕ :=
  match L.parse tenantId query with
  | .error _ => 400
  | .ok _ => 503

/-- The controller of a listing. -/
def answer (json : ρ → Json) (tenantId query : Json) (replica : Option (List ρ)) : Answer :=
  match L.get collate tenantId query replica with
  | .ok page => .json 200 (pageJson json page)
  | .error error => .json (L.errorStatus tenantId query) (errorJson error)

end Listing

section

variable {κ : Type} [LinearOrder κ] (collate : Uuid → κ)

/-- `getDeliveries`. -/
def getDeliveries : Json → Json → Option (List DeliveryRow) → Answer :=
  deliveryHistory.answer collate DeliveryRow.json

/-- `getDeadLetterList`. -/
def getDeadLetterList : Json → Json → Option (List DeadLetterRow) → Answer :=
  deadLetters.answer collate DeadLetterRow.json

end

/-! ## Rows as they are stored -/

/-- A date of a year of four digits. -/
def Dated (t : ℤ) : Prop := 0 ≤ (Calendar.fields t).year ∧ (Calendar.fields t).year ≤ 9999

/-- A delivery as the tables hold it: ids are drawn UUIDs, a type or a URL is never empty, and
`attempt_count` is an `Int`. -/
structure DeliveryRow.Stored (row : DeliveryRow) : Prop where
  eventId : isUuid row.eventId = true
  targetUrl : row.targetUrl ≠ []
  attemptCount : row.attemptCount < 2 ^ 31
  lastAttemptAt : ∀ t ∈ row.lastAttemptAt, Dated t
  nextAttemptAt : ∀ t ∈ row.nextAttemptAt, Dated t
  eventType : row.eventType ≠ []

/-- A dead letter as the tables hold it. -/
structure DeadLetterRow.Stored (row : DeadLetterRow) : Prop where
  eventId : isUuid row.eventId = true
  deliveryId : isUuid row.deliveryId = true
  targetUrl : row.targetUrl ≠ []
  attemptCount : row.attemptCount < 2 ^ 31
  eventType : row.eventType ≠ []
  replay : ∀ replay ∈ row.replay,
    isUuid replay.id = true ∧ isUuid replay.eventId = true ∧ Dated replay.createdAt

end Api

namespace Dashboard

open Api

/-! ## Receiving -/

/-- `messages`. -/
def messages : ℕ → Option JsString
  | 401 => some (js "Your session has ended. Sign in again to continue.")
  | 403 => some (js "This request is not permitted. Refresh your session and try again.")
  | 404 => some (js "This workspace is no longer available to your account.")
  | 503 => some (js "Waybill is temporarily unavailable. Please try again shortly.")
  | _ => none

/-- The error for a response that is not `ok`. -/
def refusal (status : ℕ) : DashboardApiError :=
  { status := status
    message := (messages status).getD
      (js "The request could not be completed. Please try again.") }

/-- The error if there is no response, or none that can be read. -/
def unreachable : DashboardApiError :=
  { status := 0
    message := js "Unable to reach Waybill. Check your connection and try again." }

/-- `requestDashboardApi`, from what `fetch` returned on. -/
def requestDashboardApi : Option Answer → Except DashboardApiError (Option Json)
  | none => .error unreachable
  | some response =>
      if 200 ≤ response.status ∧ response.status < 300 then
        if response.status = 204 then .ok none
        else
          match Json.parse response.body with
          | none => .error unreachable
          | some value => .ok (some value)
      else .error (refusal response.status)

section

variable (parseDate : JsString → Option ℤ) (tenantId : JsString) (response : Option Answer)

/-- A page of deliveries, as the dashboard loads it. -/
def loadDeliveries : Except DashboardApiError (Page DeliveryRecord JsString) :=
  requestDashboardApi response >>= readDeliveryHistory parseDate tenantId

/-- A page of dead letters, as the dashboard loads it. -/
def loadDeadLetters : Except DashboardApiError (Page DeadLetterRecord JsString) :=
  requestDashboardApi response >>= readDeadLetterHistory parseDate tenantId

end

/-- The value of a success is read. -/
theorem requestDashboardApi_json (value : Json) :
    requestDashboardApi (some (.json 200 value)) = .ok (some value) := by
  simp only [requestDashboardApi, Answer.json, Json.parse_stringify]
  rfl

/-- The status of a failure is reported. -/
theorem requestDashboardApi_refused {status : ℕ} (h : ¬ (200 ≤ status ∧ status < 300))
    (value : Json) : requestDashboardApi (some (.json status value)) = .error (refusal status) :=
  if_neg h

/-! ## Rows as they are shown -/

/-- A delivery, as the dashboard shows it. -/
def recordOf (row : DeliveryRow) : DeliveryRecord where
  id := row.id
  eventId := row.eventId
  tenantId := row.tenantId
  targetUrl := row.targetUrl
  status := row.status
  attemptCount := row.attemptCount
  createdAt := Calendar.toISOString row.createdAt
  lastAttemptAt := row.lastAttemptAt.map Calendar.toISOString
  nextAttemptAt := row.nextAttemptAt.map Calendar.toISOString
  lastError := row.lastError
  eventType := row.eventType

/-- A dead letter, as the dashboard shows it. -/
def letterOf (row : DeadLetterRow) : DeadLetterRecord where
  id := row.id
  eventId := row.eventId
  deliveryId := row.deliveryId
  tenantId := row.tenantId
  targetUrl := row.targetUrl
  lastError := row.lastError
  attemptCount := row.attemptCount
  createdAt := Calendar.toISOString row.createdAt
  eventType := row.eventType
  replay := row.replay.map (fun replay =>
    { id := replay.id
      eventId := replay.eventId
      createdAt := Calendar.toISOString replay.createdAt })

/-- A page with its items as they are shown. -/
def shown {ρ α : Type} (record : ρ → α) (page : Page ρ JsString) : Page α JsString :=
  { items := page.items.map record
    nextCursor := page.nextCursor }

/-- `Date.parse` reads what `toISOString` printed. -/
def ParsesIso (parseDate : JsString → Option ℤ) : Prop :=
  ∀ t, Dated t → (parseDate (Calendar.toISOString t)).isSome

section

variable {parseDate : JsString → Option ℤ}

theorem text_valid {s : JsString} (h : s ≠ []) : Format.text.Valid s := by
  refine ⟨trivial, ?_⟩
  show (!s.isEmpty) = true
  rw [List.isEmpty_eq_false_iff.mpr h]
  rfl

theorem uuid_valid {id : JsString} (h : isUuid id = true) : uuid.Valid id := by
  refine ⟨text_valid fun hnil => ?_, h⟩
  rw [hnil] at h
  cases h

theorem date_valid (hdates : ParsesIso parseDate) {t : ℤ} (h : Dated t) :
    (date parseDate).Valid (Calendar.toISOString t) := by
  refine ⟨text_valid fun hnil => ?_, hdates t h⟩
  have hread := Calendar.datetime?_toISOString h
  rw [hnil] at hread
  cases hread

theorem optionalDate_valid (hdates : ParsesIso parseDate) {t : Option ℤ}
    (h : ∀ x ∈ t, Dated x) : (optionalDate parseDate).Valid (t.map Calendar.toISOString) := by
  intro s hs
  obtain ⟨x, hx, rfl⟩ := Option.map_eq_some_iff.mp hs
  exact date_valid hdates (h x hx)

/-- **A row on record is a well-formed record** of its tenant. -/
theorem recordOf_wellFormed (hdates : ParsesIso parseDate) {row : DeliveryRow}
    (h : row.Stored) (hcreated : Dated row.createdAt) :
    (recordOf row).WellFormed parseDate row.tenantId where
  id := uuid_valid row.id.2
  eventId := uuid_valid h.eventId
  tenantId := rfl
  targetUrl := text_valid h.targetUrl
  attemptCount := lt_trans h.attemptCount (by decide)
  createdAt := date_valid hdates hcreated
  lastAttemptAt := optionalDate_valid hdates h.lastAttemptAt
  nextAttemptAt := optionalDate_valid hdates h.nextAttemptAt
  eventType := text_valid h.eventType

/-- So is a dead letter. -/
theorem letterOf_wellFormed (hdates : ParsesIso parseDate) {row : DeadLetterRow}
    (h : row.Stored) (hcreated : Dated row.createdAt) :
    (letterOf row).WellFormed parseDate row.tenantId where
  id := uuid_valid row.id.2
  eventId := uuid_valid h.eventId
  deliveryId := uuid_valid h.deliveryId
  tenantId := rfl
  targetUrl := text_valid h.targetUrl
  attemptCount := lt_trans h.attemptCount (by decide)
  createdAt := date_valid hdates hcreated
  eventType := text_valid h.eventType
  replay := by
    intro replay hreplay
    obtain ⟨stored, hstored, rfl⟩ := Option.map_eq_some_iff.mp hreplay
    obtain ⟨hid, heventId, hdated⟩ := h.replay stored hstored
    exact ⟨uuid_valid hid, uuid_valid heventId, date_valid hdates hdated⟩

/-- What the controller prints of a row is the record that is shown. -/
theorem json_recordOf (row : DeliveryRow) : row.json = (recordOf row).json parseDate := by
  obtain ⟨id, eventId, tenantId, targetUrl, status, attemptCount, createdAt, lastAttemptAt,
    nextAttemptAt, lastError, eventType⟩ := row
  cases lastAttemptAt <;> cases nextAttemptAt <;> cases lastError <;> rfl

/-- A dead letter is written as its record. -/
theorem json_letterOf (row : DeadLetterRow) : row.json = (letterOf row).json parseDate := by
  obtain ⟨id, eventId, deliveryId, tenantId, targetUrl, lastError, attemptCount, createdAt,
    eventType, replay⟩ := row
  cases lastError <;> cases replay <;> rfl

end

/-! ## Pages -/

section

variable {ρ Q κ α : Type} [LinearOrder κ] {L : Listing ρ Q} {collate : Uuid → κ}
  {tenantId query : Json} {q : Q} {page : Page ρ JsString} {json : ρ → Json}

/-- The rows of a page are those of the query. -/
theorem mem_of_get (hparse : L.parse tenantId query = .ok q) {rows : List ρ}
    (hget : L.get collate tenantId query (some rows) = .ok page) {r : ρ} (hr : r ∈ page.items) :
    r ∈ rows ∧ L.selects q r = true := by
  rw [Listing.get_eq hparse] at hget
  obtain rfl := Except.ok.inj hget
  exact List.mem_filter.mp (Keyset.mem_items hr).1

/-- **A page is read as it was printed**, if its rows and its cursor are valid. -/
theorem read_page (F : Format α) (C : Format (Option JsString)) {record : ρ → α}
    {key : α → JsString} (hjson : ∀ r, json r = F.write (record r))
    (hcursors : ∀ c, C.write c = columnJson .str c)
    (hkey : ∀ r, key (record r) = (L.place r).id) (hparse : L.parse tenantId query = .ok q)
    {t : L.Table} (hget : L.get collate tenantId query (some t.rows) = .ok page)
    (hrows : ∀ r ∈ t.rows, L.selects q r = true → F.Valid (record r))
    (hcursor : C.Valid page.nextCursor) :
    ((F.items key).page C).read (some (pageJson json page)) = some (shown record page) := by
  have hids : (t.rows.map (fun r => ((L.place r).id : JsString))).Nodup := by
    have hval := t.unique.map Subtype.val_injective
    rwa [List.map_map] at hval
  have hkeys : (page.items.map (fun r => ((L.place r).id : JsString))).Nodup := by
    rw [Listing.get_eq hparse] at hget
    obtain rfl := Except.ok.inj hget
    exact Keyset.nodup_items _ (List.Nodup.sublist (List.Sublist.map _ List.filter_sublist) hids)
  have hvalid : ((F.items key).page C).Valid (shown record page) := by
    refine ⟨⟨fun a ha => ?_, ?_⟩, hcursor⟩
    · obtain ⟨r, hr, rfl⟩ := List.mem_map.mp ha
      obtain ⟨hmem, hselected⟩ := mem_of_get hparse hget hr
      exact hrows r hmem hselected
    · show ((page.items.map record).map key).Nodup
      rw [List.map_map]
      refine Eq.mpr (congrArg List.Nodup (List.map_congr_left fun r _ => ?_)) hkeys
      exact hkey r
  have hwrite : pageJson json page = ((F.items key).page C).write (shown record page) := by
    show _ = Json.obj [(js "items", .arr ((page.items.map record).map F.write)),
      (js "nextCursor", C.write page.nextCursor)]
    have hitems : page.items.map json = page.items.map (F.write ∘ record) :=
      List.map_congr_left fun r _ => hjson r
    rw [List.map_map, hcursors, pageJson, hitems]
  rw [hwrite]
  exact ((F.items key).page C).read_write _ hvalid

end

/-! ## Tenants -/

theorem eq_of_uuid? {s : JsString} {id : Uuid} (h : uuid? (some (.str s)) = some id) :
    (id : JsString) = s := by
  obtain ⟨hid, h⟩ := Option.dite_none_right_eq_some.mp h
  exact (congrArg Subtype.val (Option.some.inj h)).symm

/-- The tenant of an accepted query is the tenant of the path. -/
theorem tenantId_of_history {tenantId : JsString} {query : Json} {q : DeliveryHistoryQuery}
    (h : parseDeliveryHistoryQuery (.str tenantId) query = .ok q) :
    (q.tenantId : JsString) = tenantId := by
  unfold parseDeliveryHistoryQuery at h
  split at h
  · cases h
  all_goals
    rename_i hinput
    obtain ⟨-, hp⟩ := Option.ite_none_right_eq_some.mp hinput
    obtain ⟨tenant, htenant, hp⟩ := Option.bind_eq_some_iff.mp hp
    obtain ⟨status, -, hp⟩ := Option.bind_eq_some_iff.mp hp
    obtain ⟨limit, -, hp⟩ := Option.bind_eq_some_iff.mp hp
    obtain ⟨encoded, -, hp⟩ := Option.bind_eq_some_iff.mp hp
    obtain ⟨rfl, -⟩ := Prod.mk.inj (Option.some.inj hp)
  · obtain rfl := Except.ok.inj h
    exact eq_of_uuid? htenant
  · split at h
    · cases h
    · split_ifs at h
      obtain rfl := Except.ok.inj h
      exact eq_of_uuid? htenant

/-- The query of the dead letters is of the tenant of the request. -/
theorem tenantId_of_letters {tenantId : JsString} {query : Json} {d : DeadLetterQuery}
    (h : parseDeadLetterQuery (.str tenantId) query = .ok d) :
    (d.tenantId : JsString) = tenantId := by
  unfold parseDeadLetterQuery at h
  split at h
  · cases h
  all_goals
    rename_i hinput
    obtain ⟨-, hp⟩ := Option.ite_none_right_eq_some.mp hinput
    obtain ⟨tenant, htenant, hp⟩ := Option.bind_eq_some_iff.mp hp
    obtain ⟨limit, -, hp⟩ := Option.bind_eq_some_iff.mp hp
    obtain ⟨encoded, -, hp⟩ := Option.bind_eq_some_iff.mp hp
    obtain ⟨rfl, -⟩ := Prod.mk.inj (Option.some.inj hp)
  · obtain rfl := Except.ok.inj h
    exact eq_of_uuid? htenant
  · split at h
    · cases h
    · split_ifs at h
      obtain rfl := Except.ok.inj h
      exact eq_of_uuid? htenant

/-! ## The result -/

section

variable {ρ Q κ : Type} [LinearOrder κ] {L : Listing ρ Q} {collate : Uuid → κ}
  {tenantId query : Json} {replica : Option (List ρ)} {json : ρ → Json} {error : JsError}

/-- A page that is computed was asked for with an accepted query. -/
theorem exists_parse_of_get {page : Page ρ JsString}
    (h : L.get collate tenantId query replica = .ok page) :
    ∃ q rows, L.parse tenantId query = .ok q ∧ replica = some rows := by
  unfold Listing.get at h
  split at h
  · cases h
  · next q hparse =>
      split at h
      · cases h
      · next rows => exact ⟨q, rows, hparse, rfl⟩

/-- The answer to an accepted request. -/
theorem answer_of_get {page : Page ρ JsString}
    (h : L.get collate tenantId query replica = .ok page) :
    L.answer collate json tenantId query replica = .json 200 (pageJson json page) := by
  unfold Listing.answer
  rw [h]

/-- A refused request is reported with its status. -/
theorem requestDashboardApi_error (h : L.get collate tenantId query replica = .error error) :
    requestDashboardApi (some (L.answer collate json tenantId query replica)) =
      .error (refusal (L.errorStatus tenantId query)) := by
  unfold Listing.answer
  rw [h]
  apply requestDashboardApi_refused
  unfold Listing.errorStatus
  cases L.parse tenantId query with
  | error _ => exact fun h => absurd h.2 (show ¬ (400 : ℕ) < 300 by decide)
  | ok _ => exact fun h => absurd h.2 (show ¬ (503 : ℕ) < 300 by decide)

end

/-- **The dashboard shows what the service computed**: for the tenant of the request, a page is
shown with each of its rows and with its cursor, and an error with the message for its status. -/
theorem listings_shown {κ : Type} [LinearOrder κ] (collate : Uuid → κ)
    {parseDate : JsString → Option ℤ} (hdates : ParsesIso parseDate) (tenantId : JsString)
    (query : Json) :
    (∀ replica : Option deliveryHistory.Table, (∀ t ∈ replica, ∀ r ∈ t.rows, r.Stored) →
      loadDeliveries parseDate tenantId
          (some (getDeliveries collate (.str tenantId) query (replica.map (·.rows)))) =
        match getDeliveryHistory collate (.str tenantId) query (replica.map (·.rows)) with
        | .ok page => .ok (shown recordOf page)
        | .error _ => .error (refusal (deliveryHistory.errorStatus (.str tenantId) query))) ∧
    (∀ replica : Option deadLetters.Table, (∀ t ∈ replica, ∀ r ∈ t.rows, r.Stored) →
      loadDeadLetters parseDate tenantId
          (some (getDeadLetterList collate (.str tenantId) query (replica.map (·.rows)))) =
        match getDeadLetters collate (.str tenantId) query (replica.map (·.rows)) with
        | .ok page => .ok (shown letterOf page)
        | .error _ => .error (refusal (deadLetters.errorStatus (.str tenantId) query))) := by
  constructor
  · intro replica hstored
    unfold loadDeliveries getDeliveries getDeliveryHistory
    cases hget : deliveryHistory.get collate (.str tenantId) query (replica.map (·.rows)) with
    | error error =>
        rw [requestDashboardApi_error hget]
        rfl
    | ok page =>
        -- there was a page, so the query parsed and a replica was read
        obtain ⟨q, rows, hparse, hsome⟩ := exists_parse_of_get hget
        obtain ⟨t, rfl, rfl⟩ := Option.map_eq_some_iff.mp hsome
        rw [answer_of_get hget, requestDashboardApi_json]
        apply orInvalid_eq_ok.mpr
        apply read_page (deliveryRecord parseDate tenantId) optionalString json_recordOf
          (fun c => by cases c <;> rfl) (fun _ => rfl) hparse hget
        · intro r hr hselected
          obtain ⟨hown, -⟩ := Bool.and_eq_true_iff.mp hselected
          rw [← tenantId_of_history hparse, ← of_decide_eq_true hown]
          exact recordOf_wellFormed hdates (hstored t rfl r hr) (t.dated r hr)
        · exact fun _ _ => trivial
  · intro replica hstored
    unfold loadDeadLetters getDeadLetterList getDeadLetters
    cases hget : deadLetters.get collate (.str tenantId) query (replica.map (·.rows)) with
    | error error =>
        rw [requestDashboardApi_error hget]
        rfl
    | ok page =>
        obtain ⟨q, rows, hparse, hsome⟩ := exists_parse_of_get hget
        obtain ⟨t, rfl, rfl⟩ := Option.map_eq_some_iff.mp hsome
        rw [answer_of_get hget, requestDashboardApi_json]
        apply orInvalid_eq_ok.mpr
        apply read_page (deadLetterRecord parseDate tenantId) optionalText json_letterOf
          (fun c => by cases c <;> rfl) (fun _ => rfl) hparse hget
        · intro r hr hselected
          rw [← tenantId_of_letters hparse, ← of_decide_eq_true hselected]
          exact letterOf_wellFormed hdates (hstored t rfl r hr) (t.dated r hr)
        · intro cursor hcursor
          -- the cursor is printed from a row of the page
          have hrows := hget
          rw [Option.map_some, Listing.get_eq hparse] at hrows
          obtain rfl := Except.ok.inj hrows
          obtain ⟨place, hplace, rfl⟩ := Option.map_eq_some_iff.mp hcursor
          obtain ⟨r, hr, rfl⟩ := Keyset.exists_of_nextCursor hplace
          have hmem := (List.mem_filter.mp (Keyset.mem_items hr).1).1
          exact text_valid (encodeText_ne_nil _ (deadLetterCursorJson_text q (t.dated r hmem)).1)

namespace Sample

/-- A `Date.parse` that reads nothing but what `toISOString` prints. -/
def parseIso (s : JsString) : Option ℤ := (Calendar.datetime? s).map Calendar.Fields.time

theorem parsesIso_parseIso : ParsesIso parseIso := by
  intro t ht
  rw [parseIso, Calendar.datetime?_toISOString ht]
  rfl

theorem before_stored : ∀ t ∈ some Api.Sample.before, ∀ r ∈ t.rows, r.Stored := by
  rintro _ ⟨rfl⟩ r hr
  simp only [Api.Sample.before, List.mem_cons, List.not_mem_nil, or_false] at hr
  rcases hr with rfl | rfl
  all_goals
    exact ⟨by decide, by decide, by decide, (fun _ h => nomatch h), (fun _ h => nomatch h),
      by decide⟩

end Sample

/-- The first page of the deliveries of a tenant, and a query that is refused. -/
theorem listings_shown_first :
    (∃ page, getDeliveryHistory Api.Sample.collateC (.str Api.Sample.viewer)
        Api.Sample.smallPages (some Api.Sample.before.rows) = .ok page ∧
      loadDeliveries Sample.parseIso Api.Sample.viewer (some (getDeliveries Api.Sample.collateC
        (.str Api.Sample.viewer) Api.Sample.smallPages (some Api.Sample.before.rows))) =
          .ok (shown recordOf page)) ∧
    loadDeadLetters Sample.parseIso Api.Sample.viewer (some (getDeadLetterList
      Api.Sample.collateC (.str Api.Sample.viewer) .null none)) = .error (refusal 400) := by
  constructor
  · have h := (listings_shown Api.Sample.collateC Sample.parsesIso_parseIso Api.Sample.viewer
      Api.Sample.smallPages).1 (some Api.Sample.before) Sample.before_stored
    exact ⟨_, rfl, h⟩
  · exact (listings_shown Api.Sample.collateC Sample.parsesIso_parseIso Api.Sample.viewer
      .null).2 none (fun _ h => nomatch h)

end Dashboard
