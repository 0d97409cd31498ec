/-
# Page cursors (`api/src/services/delivery-history-query.ts`, `dead-letter-query.ts`)

A page of the delivery history or of the dead letters ends with a cursor: the tenant, the
filter and the last row as JSON, in base64url.  The next request brings it back.

* `decodeText_encodeText`: what was encoded as ASCII text is decoded again.
* `parseDeliveryHistoryQuery_cursor`, `parseDeadLetterQuery_cursor`: what a request with a
  cursor is, by the request without it.
* `cursors_bound`: a cursor is accepted for its own tenant, filter and resource only.
-/
import Waybill.Api
import Waybill.Base64Url
import Waybill.Calendar
import Waybill.Utf8

namespace Json

/-- An object without the members of a name. -/
def without (v : Json) (name : JsString) : Json :=
  match v with
  | obj members => obj (members.filter (fun m => m.1 != name))
  | v => v

theorem get?_without_ne (v : Json) {name other : JsString} (h : other ≠ name) :
    (v.without name).get? other = v.get? other := by
  cases v with
  | obj members =>
      have hkept : ∀ m : JsString × Json,
          decide ((m.1 != name) = true ∧ (m.1 == other) = true) = (m.1 == other) := by
        intro m
        by_cases hm : m.1 = other
        · simp [hm, h]
        · simp [hm]
      simp only [without, get?, ← List.filter_reverse, List.find?_filter, hkept]
  | _ => rfl

theorem get?_without_self (v : Json) (name : JsString) : (v.without name).get? name = none := by
  cases v with
  | obj members =>
      have hnone : ∀ m : JsString × Json,
          decide ((m.1 != name) = true ∧ (m.1 == name) = true) = false := by
        intro m
        by_cases hm : m.1 = name
        · simp [hm]
        · simp [hm]
      simp only [without, get?, ← List.filter_reverse, List.find?_filter, hnone]
      simp
  | _ => rfl

end Json

namespace Api

/-! ## Validation -/

/-- A text that passed `z.string().uuid()`. -/
abbrev Uuid := { s : JsString // isUuid s = true }

/-- `z.string().uuid()`. -/
def uuid? : Option Json → Option Uuid
  | some (.str s) => if h : isUuid s = true then some ⟨s, h⟩ else none
  | _ => none

/-- The names of the statuses. -/
def statusText : DeliveryStatus → JsString
  | .pending => js "PENDING"
  | .inFlight => js "IN_FLIGHT"
  | .succeeded => js "SUCCEEDED"
  | .failed => js "FAILED"
  | .deadLettered => js "DEAD_LETTERED"

/-- `z.enum([…])`. -/
def status? : Json → Option DeliveryStatus
  | .str s =>
      [DeliveryStatus.pending, .inFlight, .succeeded, .failed, .deadLettered].find?
        (fun status => statusText status == s)
  | _ => none

/-- `/^[1-9][0-9]*$/`. -/
def isPositive : JsString → Bool
  | [] => false
  | u :: s => Json.isDigit u && u != 48 && s.all Json.isDigit

theorem one_le_of_isPositive {s : JsString} (h : isPositive s = true) :
    1 ≤ Json.digitsValue s := by
  have hfold : ∀ (t : JsString) (a : ℕ), 1 ≤ a →
      1 ≤ t.foldl (fun acc u => 10 * acc + (u.toNat - 48)) a := by
    intro t
    induction t with
    | nil => exact fun _ ha => ha
    | cons u t ih =>
        intro a ha
        apply ih
        show 1 ≤ 10 * a + (u.toNat - 48)
        omega
  cases s with
  | nil => cases h
  | cons u s =>
      simp only [isPositive, Json.isDigit, Bool.and_eq_true, decide_eq_true_eq, bne_iff_ne,
        ne_eq] at h
      have hne : u.toNat ≠ 48 := fun heq => h.1.2 (UInt16.toNat_inj.mp heq)
      have hfirst : 1 ≤ 10 * 0 + (u.toNat - 48) := by omega
      exact hfold s _ hfirst

/-- A page size. -/
abbrev Limit := { n : ℕ // 1 ≤ n ∧ n ≤ 100 }

/-- `limit`: decimal digits for a number up to 100, and 50 if there are none. -/
def limit? (v : Option Json) : Option Limit :=
  match v.getD (.str (js "50")) with
  | .str s =>
      if h : isPositive s = true ∧ Json.digitsValue s ≤ 100 then
        some ⟨Json.digitsValue s, one_le_of_isPositive h.1, h.2⟩
      else none
  | _ => none

/-- `z.string().min(1).max(1024)`. -/
def cursorText? : Json → Option JsString
  | .str s => if 1 ≤ s.length ∧ s.length ≤ 1024 then some s else none
  | _ => none

/-- `z.string().datetime()`, and `new Date` of it. -/
def date? : Option Json → Option ℤ
  | some (.str s) => (Calendar.datetime? s).map Calendar.Fields.time
  | _ => none

/-- `.optional()`. -/
def optional {α : Type} (check : Json → Option α) : Option Json → Option (Option α)
  | none => some none
  | some v => (check v).map some

/-- `.nullable()`. -/
def nullable {α : Type} (check : Json → Option α) : Json → Option (Option α)
  | .null => some none
  | v => (check v).map some

/-- `z.object({…}).strict()`: no member has another name. -/
def hasOnly (names : List JsString) : Json → Bool
  | .obj members => members.all (fun m => names.contains m.1)
  | _ => false

/-! ## Texts of cursors -/

/-- `Buffer.from(JSON.stringify(value)).toString("base64url")`. -/
def encodeText (v : Json) : JsString := Base64Url.encode (Utf8.encode v.stringify)

/-- The check that a cursor is what its bytes are encoded as. -/
def isCanonical (encoded : JsString) : Bool :=
  !encoded.isEmpty && encoded.all Base64Url.isLetter &&
    Base64Url.encode (Base64Url.decode encoded) == encoded

/-- The value of a cursor. -/
def decodeText (encoded : JsString) : Option Json :=
  if isCanonical encoded then Json.parse (Utf8.decode (Base64Url.decode encoded)) else none

/-! ## Queries -/

/-- What a cursor says of a row: `createdAt` as a time value, and `id`. -/
structure RowCursor where
  createdAt : ℤ
  id : Uuid
  deriving DecidableEq

/-- `DeliveryHistoryQuery`. -/
structure DeliveryHistoryQuery where
  tenantId : Uuid
  status : Option DeliveryStatus
  limit : Limit
  cursor : Option RowCursor
  deriving DecidableEq

/-- `DeadLetterQuery`. -/
structure DeadLetterQuery where
  tenantId : Uuid
  limit : Limit
  cursor : Option RowCursor
  deriving DecidableEq

/-! ## `delivery-history-query.ts` -/

/-- `inputSchema`: the query without its cursor, and the text of the cursor. -/
def historyInput (tenantId query : Json) : Option (DeliveryHistoryQuery × Option JsString) :=
  if hasOnly [js "status", js "limit", js "cursor"] query then do
    let tenantId ← uuid? (some tenantId)
    let status ← optional status? (query.get? (js "status"))
    let limit ← limit? (query.get? (js "limit"))
    let encoded ← optional cursorText? (query.get? (js "cursor"))
    return ({ tenantId := tenantId, status := status, limit := limit, cursor := none }, encoded)
  else none

/-- `cursorSchema`. -/
def historyCursor? (v : Json) : Option (Uuid × Option DeliveryStatus × RowCursor) :=
  if hasOnly [js "tenantId", js "status", js "createdAt", js "id"] v then do
    let tenantId ← uuid? (v.get? (js "tenantId"))
    let status ← (v.get? (js "status")).bind (nullable status?)
    let createdAt ← date? (v.get? (js "createdAt"))
    let id ← uuid? (v.get? (js "id"))
    return (tenantId, status, ⟨createdAt, id⟩)
  else none

/-- `parseDeliveryHistoryQuery`. -/
def parseDeliveryHistoryQuery (tenantId query : Json) : Except JsError DeliveryHistoryQuery :=
  match historyInput tenantId query with
  | none => .error { message := js "Invalid tenant ID or delivery history query" }
  | some (result, none) => .ok result
  | some (result, some encoded) =>
      match (decodeText encoded).bind historyCursor? with
      | none => .error { message := js "Invalid cursor for this tenant and status filter" }
      | some (tenantId, status, row) =>
          if tenantId = result.tenantId ∧ status = result.status then
            .ok { result with
              cursor := some row }
          else .error { message := js "Invalid cursor for this tenant and status filter" }

/-- What `deliveryHistoryCursor` prints. -/
def historyCursorJson (q : DeliveryHistoryQuery) (row : RowCursor) : Json :=
  .obj [(js "tenantId", .str q.tenantId),
    (js "status", (q.status.map (fun status => Json.str (statusText status))).getD .null),
    (js "createdAt", .str (Calendar.toISOString row.createdAt)), (js "id", .str row.id)]

/-- `deliveryHistoryCursor`. -/
def deliveryHistoryCursor (q : DeliveryHistoryQuery) (row : RowCursor) : JsString :=
  encodeText (historyCursorJson q row)

/-! ## `dead-letter-query.ts` -/

/-- `listSchema`: the query without its cursor, and the text of the cursor. -/
def deadLetterInput (tenantId query : Json) : Option (DeadLetterQuery × Option JsString) :=
  if hasOnly [js "limit", js "cursor"] query then do
    let tenantId ← uuid? (some tenantId)
    let limit ← limit? (query.get? (js "limit"))
    let encoded ← optional cursorText? (query.get? (js "cursor"))
    return ({ tenantId := tenantId, limit := limit, cursor := none }, encoded)
  else none

/-- `z.literal("dead-letters")`. -/
def resource? : Option Json → Option Unit
  | some (.str s) => if s = js "dead-letters" then some () else none
  | _ => none

/-- `cursorSchema`. -/
def deadLetterCursor? (v : Json) : Option (Uuid × RowCursor) :=
  if hasOnly [js "resource", js "tenantId", js "createdAt", js "id"] v then do
    let _ ← resource? (v.get? (js "resource"))
    let tenantId ← uuid? (v.get? (js "tenantId"))
    let createdAt ← date? (v.get? (js "createdAt"))
    let id ← uuid? (v.get? (js "id"))
    return (tenantId, ⟨createdAt, id⟩)
  else none

/-- `parseDeadLetterQuery`. -/
def parseDeadLetterQuery (tenantId query : Json) : Except JsError DeadLetterQuery :=
  match deadLetterInput tenantId query with
  | none => .error { message := js "Invalid tenant ID or dead-letter query" }
  | some (result, none) => .ok result
  | some (result, some encoded) =>
      match (decodeText encoded).bind deadLetterCursor? with
      | none => .error { message := js "Invalid dead-letter cursor for this tenant" }
      | some (tenantId, row) =>
          if tenantId = result.tenantId then
            .ok { result with
              cursor := some row }
          else .error { message := js "Invalid dead-letter cursor for this tenant" }

/-- What `deadLetterCursor` prints. -/
def deadLetterCursorJson (d : DeadLetterQuery) (row : RowCursor) : Json :=
  .obj [(js "resource", .str (js "dead-letters")), (js "tenantId", .str d.tenantId),
    (js "createdAt", .str (Calendar.toISOString row.createdAt)), (js "id", .str row.id)]

/-- `deadLetterCursor`. -/
def deadLetterCursor (d : DeadLetterQuery) (row : RowCursor) : JsString :=
  encodeText (deadLetterCursorJson d row)

/-! ## The codec -/

theorem encodeText_ne_nil (v : Json) (h : JsString.isAscii v.stringify = true) :
    encodeText v ≠ [] := by
  intro hnil
  have hlength := Base64Url.length_encode (Utf8.encode v.stringify)
  rw [← encodeText, hnil, Utf8.length_encode (JsString.lt_of_isAscii h)] at hlength
  have hpos := List.length_pos_iff.mpr (Json.stringify_ne_nil v)
  rw [List.length_nil] at hlength
  omega

/-- **What is produced is canonical.** -/
theorem isCanonical_encodeText (v : Json) (h : JsString.isAscii v.stringify = true) :
    isCanonical (encodeText v) = true := by
  have hne : (encodeText v).isEmpty = false := by
    rw [List.isEmpty_eq_false_iff]
    exact encodeText_ne_nil v h
  have hall : (encodeText v).all Base64Url.isLetter = true :=
    List.all_eq_true.mpr (Base64Url.isLetter_encode _)
  unfold isCanonical
  rw [hne, hall, encodeText, Base64Url.decode_encode, beq_self_eq_true]
  rfl

/-- **Decoding undoes encoding**, for values that print as ASCII. -/
theorem decodeText_encodeText (v : Json) (h : JsString.isAscii v.stringify = true) :
    decodeText (encodeText v) = some v := by
  rw [decodeText, if_pos (isCanonical_encodeText v h), encodeText, Base64Url.decode_encode,
    Utf8.decode_encode (JsString.lt_of_isAscii h), Json.parse_stringify]

/-- The length of a cursor. -/
theorem length_encodeText (v : Json) (h : JsString.isAscii v.stringify = true) :
    (encodeText v).length = (4 * v.stringify.length + 2) / 3 := by
  rw [encodeText, Base64Url.length_encode, Utf8.length_encode (JsString.lt_of_isAscii h)]

/-! ## Requests with a cursor -/

theorem hasOnly_without {names : List JsString} {name : JsString} (h : names.contains name = true)
    (v : Json) : hasOnly names (v.without name) = hasOnly names v := by
  cases v with
  | obj members =>
      simp only [Json.without, hasOnly, List.all_filter]
      apply List.all_congr rfl
      intro m
      by_cases hm : m.1 = name
      · rw [hm, h, Bool.or_true]
      · have hne : (m.1 != name) = true := bne_iff_ne.mpr hm
        rw [hne]
        rfl
  | _ => rfl

/-- A cursor of a permitted length passes its check, and is the only thing that a cursor adds. -/
theorem historyInput_cursor {tenantId query : Json} {text : JsString}
    (h : query.get? (js "cursor") = some (.str text)) (hlength : 1 ≤ text.length ∧
      text.length ≤ 1024) :
    historyInput tenantId query =
      (historyInput tenantId (query.without (js "cursor"))).map (fun p => (p.1, some text)) := by
  have htext : cursorText? (.str text) = some text := if_pos hlength
  unfold historyInput
  rw [hasOnly_without (by decide), Json.get?_without_ne _ (by decide),
    Json.get?_without_ne _ (by decide), Json.get?_without_self, h]
  split_ifs
  · cases uuid? (some tenantId) with
    | none => rfl
    | some tenantId =>
        cases optional status? (query.get? (js "status")) with
        | none => rfl
        | some status =>
            cases limit? (query.get? (js "limit")) with
            | none => rfl
            | some limit => simp [optional, htext]
  · rfl

/-- The input with a cursor is the input without, and the cursor. -/
theorem deadLetterInput_cursor {tenantId query : Json} {text : JsString}
    (h : query.get? (js "cursor") = some (.str text)) (hlength : 1 ≤ text.length ∧
      text.length ≤ 1024) :
    deadLetterInput tenantId query =
      (deadLetterInput tenantId (query.without (js "cursor"))).map (fun p => (p.1, some text)) := by
  have htext : cursorText? (.str text) = some text := if_pos hlength
  unfold deadLetterInput
  rw [hasOnly_without (by decide), Json.get?_without_ne _ (by decide), Json.get?_without_self, h]
  split_ifs
  · cases uuid? (some tenantId) with
    | none => rfl
    | some tenantId =>
        cases limit? (query.get? (js "limit")) with
        | none => rfl
        | some limit => simp [optional, htext]
  · rfl

/-- Without the member there is no cursor. -/
theorem historyInput_without {tenantId query : Json} {p : DeliveryHistoryQuery × Option JsString}
    (h : historyInput tenantId (query.without (js "cursor")) = some p) : p.2 = none := by
  unfold historyInput at h
  rw [Json.get?_without_self] at h
  obtain ⟨-, h⟩ := Option.ite_none_right_eq_some.mp h
  simp only [optional, Option.bind_eq_bind, Option.bind_eq_some_iff] at h
  obtain ⟨tenantId, -, status, -, limit, -, encoded, hencoded, hp⟩ := h
  obtain rfl := Option.some.inj hencoded
  obtain rfl := Option.some.inj hp
  rfl

/-- Without a cursor there is none. -/
theorem deadLetterInput_without {tenantId query : Json} {p : DeadLetterQuery × Option JsString}
    (h : deadLetterInput tenantId (query.without (js "cursor")) = some p) : p.2 = none := by
  unfold deadLetterInput at h
  rw [Json.get?_without_self] at h
  obtain ⟨-, h⟩ := Option.ite_none_right_eq_some.mp h
  simp only [optional, Option.bind_eq_bind, Option.bind_eq_some_iff] at h
  obtain ⟨tenantId, -, limit, -, encoded, hencoded, hp⟩ := h
  obtain rfl := Option.some.inj hencoded
  obtain rfl := Option.some.inj hp
  rfl

/-- **A request with a cursor** is the request without it, for the tenant and the filter that
the cursor names. -/
theorem parseDeliveryHistoryQuery_cursor {tenantId query : Json} {text : JsString}
    (h : query.get? (js "cursor") = some (.str text)) (hlength : 1 ≤ text.length ∧
      text.length ≤ 1024) (r : DeliveryHistoryQuery) :
    parseDeliveryHistoryQuery tenantId query = .ok r ↔
      ∃ q row, parseDeliveryHistoryQuery tenantId (query.without (js "cursor")) = .ok q ∧
        (decodeText text).bind historyCursor? = some (q.tenantId, q.status, row) ∧
        r = { q with
          cursor := some row } := by
  unfold parseDeliveryHistoryQuery
  rw [historyInput_cursor h hlength]
  cases hinput : historyInput tenantId (query.without (js "cursor")) with
  | none =>
      constructor
      · intro hr
        cases hr
      · rintro ⟨q, row, hq, -⟩
        cases hq
  | some p =>
      obtain ⟨q, encoded⟩ := p
      obtain rfl : encoded = none := historyInput_without hinput
      simp only [Option.map_some]
      cases (decodeText text).bind historyCursor? with
      | none =>
          constructor
          · intro hr
            cases hr
          · rintro ⟨q', row, -, hrow, -⟩
            cases hrow
      -- the cursor must be of the same tenant and status
      | some c =>
          obtain ⟨tenant, status, row⟩ := c
          simp only
          constructor
          · intro hr
            split_ifs at hr with hsame
            obtain ⟨rfl, rfl⟩ := hsame
            obtain rfl := Except.ok.inj hr
            exact ⟨q, row, rfl, rfl, rfl⟩
          · rintro ⟨q', row', hq, hrow, rfl⟩
            obtain rfl := Except.ok.inj hq
            obtain ⟨rfl, rfl, rfl⟩ : tenant = q.tenantId ∧ status = q.status ∧ row = row' := by
              simpa using hrow
            rw [if_pos ⟨rfl, rfl⟩]

/-- **A query with a cursor** is accepted if it is accepted without, and the cursor is of its
tenant. -/
theorem parseDeadLetterQuery_cursor {tenantId query : Json} {text : JsString}
    (h : query.get? (js "cursor") = some (.str text)) (hlength : 1 ≤ text.length ∧
      text.length ≤ 1024) (r : DeadLetterQuery) :
    parseDeadLetterQuery tenantId query = .ok r ↔
      ∃ d row, parseDeadLetterQuery tenantId (query.without (js "cursor")) = .ok d ∧
        (decodeText text).bind deadLetterCursor? = some (d.tenantId, row) ∧
        r = { d with
          cursor := some row } := by
  unfold parseDeadLetterQuery
  rw [deadLetterInput_cursor h hlength]
  cases hinput : deadLetterInput tenantId (query.without (js "cursor")) with
  | none =>
      constructor
      · intro hr
        cases hr
      · rintro ⟨d, row, hd, -⟩
        cases hd
  | some p =>
      obtain ⟨d, encoded⟩ := p
      obtain rfl : encoded = none := deadLetterInput_without hinput
      simp only [Option.map_some]
      cases (decodeText text).bind deadLetterCursor? with
      | none =>
          constructor
          · intro hr
            cases hr
          · rintro ⟨d', row, -, hrow, -⟩
            cases hrow
      -- the cursor must be of the same tenant
      | some c =>
          obtain ⟨tenant, row⟩ := c
          simp only
          constructor
          · intro hr
            split_ifs at hr with hsame
            subst hsame
            obtain rfl := Except.ok.inj hr
            exact ⟨d, row, rfl, rfl, rfl⟩
          · rintro ⟨d', row', hd, hrow, rfl⟩
            obtain rfl := Except.ok.inj hd
            obtain ⟨rfl, rfl⟩ : tenant = d.tenantId ∧ row = row' := by
              simpa using hrow
            rw [if_pos rfl]

/-! ## What the cursors say -/

/-- A row of a year of four digits. -/
def RowCursor.FourDigits (row : RowCursor) : Prop :=
  0 ≤ (Calendar.fields row.createdAt).year ∧ (Calendar.fields row.createdAt).year ≤ 9999

theorem uuid?_some (id : Uuid) : uuid? (some (.str id)) = some id := by
  rw [uuid?, dif_pos id.2]

theorem status?_statusText (status : DeliveryStatus) :
    status? (.str (statusText status)) = some status := by
  cases status with
  | pending => rfl
  | inFlight => rfl
  | succeeded => rfl
  | failed => rfl
  | deadLettered => rfl

/-- A time is read back from its text. -/
theorem date?_toISOString {row : RowCursor} (h : row.FourDigits) :
    date? (some (.str (Calendar.toISOString row.createdAt))) = some row.createdAt := by
  rw [date?, Calendar.datetime?_toISOString h, Option.map_some, Calendar.time_fields]

/-- **The history cursor** says its tenant, its filter and its row. -/
theorem historyCursor?_json (q : DeliveryHistoryQuery) {row : RowCursor} (h : row.FourDigits) :
    historyCursor? (historyCursorJson q row) = some (q.tenantId, q.status, row) := by
  have hstatus : nullable status?
      ((q.status.map (fun status => Json.str (statusText status))).getD .null) =
        some q.status := by
    cases q.status with
    | none => rfl
    | some status =>
        show (status? (.str (statusText status))).map some = _
        rw [status?_statusText]
        rfl
  have htenantId : (historyCursorJson q row).get? (js "tenantId") = some (.str q.tenantId) := rfl
  have hstatusId : (historyCursorJson q row).get? (js "status") =
    some ((q.status.map (fun status => Json.str (statusText status))).getD .null) := rfl
  have hcreatedAt : (historyCursorJson q row).get? (js "createdAt") =
    some (.str (Calendar.toISOString row.createdAt)) := rfl
  have hid : (historyCursorJson q row).get? (js "id") = some (.str row.id) := rfl
  have honly : hasOnly [js "tenantId", js "status", js "createdAt", js "id"]
    (historyCursorJson q row) = true := rfl
  rw [historyCursor?, if_pos honly, htenantId, hstatusId, hcreatedAt, hid, uuid?_some,
    uuid?_some, date?_toISOString h, Option.bind_some, hstatus]
  rfl

/-- **The dead-letter cursor** says its tenant and its row. -/
theorem deadLetterCursor?_json (d : DeadLetterQuery) {row : RowCursor} (h : row.FourDigits) :
    deadLetterCursor? (deadLetterCursorJson d row) = some (d.tenantId, row) := by
  have hresource : (deadLetterCursorJson d row).get? (js "resource") =
    some (.str (js "dead-letters")) := rfl
  have htenantId : (deadLetterCursorJson d row).get? (js "tenantId") = some (.str d.tenantId) := rfl
  have hcreatedAt : (deadLetterCursorJson d row).get? (js "createdAt") =
    some (.str (Calendar.toISOString row.createdAt)) := rfl
  have hid : (deadLetterCursorJson d row).get? (js "id") = some (.str row.id) := rfl
  have honly : hasOnly [js "resource", js "tenantId", js "createdAt", js "id"]
    (deadLetterCursorJson d row) = true := rfl
  rw [deadLetterCursor?, if_pos honly, hresource, htenantId, hcreatedAt, hid, uuid?_some,
    uuid?_some, date?_toISOString h]
  rfl

/-- Each schema is strict, so the cursor of the other resource has a member too many. -/
theorem historyCursor?_deadLetter (d : DeadLetterQuery) (row : RowCursor) :
    historyCursor? (deadLetterCursorJson d row) = none := rfl

/-- A cursor of the delivery history is none of the dead letters. -/
theorem deadLetterCursor?_history (q : DeliveryHistoryQuery) (row : RowCursor) :
    deadLetterCursor? (historyCursorJson q row) = none := rfl

/-! ## The size of the cursors -/

theorem isPlain_of_isDigit {u : UInt16} (h : Json.isDigit u = true) : Json.isPlain u = true := by
  simp only [Json.isDigit, Bool.and_eq_true, decide_eq_true_eq] at h
  simp only [Json.isPlain, Bool.and_eq_true, decide_eq_true_eq, bne_iff_ne, ne_eq]
  refine ⟨⟨⟨by omega, by omega⟩, ?_⟩, ?_⟩
  · rintro rfl
    revert h
    decide
  · rintro rfl
    revert h
    decide

/-- A printed date of such a year has 24 units. -/
theorem length_toISOString {row : RowCursor} (h : row.FourDigits) :
    (Calendar.toISOString row.createdAt).length = 24 := by
  rw [Calendar.toISOString, Calendar.Fields.print, Calendar.printYear_of_four h]
  simp [Json.length_fixedDigits]

theorem isPlain_toISOString {row : RowCursor} (h : row.FourDigits) :
    ∀ u ∈ Calendar.toISOString row.createdAt, Json.isPlain u = true := by
  have hdigits : ∀ k n, (Json.fixedDigits k n).all Json.isPlain = true := by
    intro k n
    rw [List.all_eq_true]
    exact fun u hu => isPlain_of_isDigit (Json.fixedDigits_isDigit k n u hu)
  rw [← List.all_eq_true, Calendar.toISOString, Calendar.Fields.print,
    Calendar.printYear_of_four h]
  simp only [List.all_append, List.all_cons, hdigits]
  rfl

theorem isPlain_statusText (status : DeliveryStatus) :
    ∀ u ∈ statusText status, Json.isPlain u = true := by
  rw [← List.all_eq_true]
  cases status with
  | pending => rfl
  | inFlight => rfl
  | succeeded => rfl
  | failed => rfl
  | deadLettered => rfl

theorem length_statusText (status : DeliveryStatus) : (statusText status).length ≤ 13 := by
  cases status with
  | pending => decide
  | inFlight => decide
  | succeeded => decide
  | failed => decide
  | deadLettered => decide

/-- The text of the filter. -/
theorem stringify_status (status : Option DeliveryStatus) :
    JsString.isAscii ((status.map (fun status => Json.str (statusText status))).getD
        .null).stringify = true ∧
      ((status.map (fun status => Json.str (statusText status))).getD .null).stringify.length ≤
        15 := by
  cases status with
  | none => decide
  | some status =>
      show JsString.isAscii (Json.quote (statusText status)) = true ∧
        (Json.quote (statusText status)).length ≤ 15
      rw [Json.length_quote_of_plain (isPlain_statusText status)]
      have hlength := length_statusText status
      exact ⟨Json.isAscii_quote_of_plain (isPlain_statusText status), by omega⟩

/-- The names of the members. -/
theorem cursorNames_ascii :
    JsString.isAscii (Json.quote (js "tenantId")) = true ∧
      JsString.isAscii (Json.quote (js "status")) = true ∧
      JsString.isAscii (Json.quote (js "createdAt")) = true ∧
      JsString.isAscii (Json.quote (js "id")) = true ∧
      JsString.isAscii (Json.quote (js "resource")) = true ∧
      JsString.isAscii (Json.quote (js "dead-letters")) = true := by
  decide

theorem cursorNames_length :
    (Json.quote (js "tenantId")).length = 10 ∧ (Json.quote (js "status")).length = 8 ∧
      (Json.quote (js "createdAt")).length = 11 ∧ (Json.quote (js "id")).length = 4 ∧
      (Json.quote (js "resource")).length = 10 ∧
      (Json.quote (js "dead-letters")).length = 14 := by
  decide

/-- The text of a cursor is short, and ASCII. -/
theorem historyCursorJson_text (q : DeliveryHistoryQuery) {row : RowCursor}
    (h : row.FourDigits) : JsString.isAscii (historyCursorJson q row).stringify = true ∧
      (historyCursorJson q row).stringify.length ≤ 160 := by
  obtain ⟨htenantId, hstatus, hcreatedAt, hid, -⟩ := cursorNames_ascii
  obtain ⟨hn₁, hn₂, hn₃, hn₄, -⟩ := cursorNames_length
  obtain ⟨hascii, hlength⟩ := stringify_status q.status
  have htenant := isPlain_of_isUuid q.tenantId.2
  have hdate := isPlain_toISOString h
  have hrow := isPlain_of_isUuid row.id.2
  unfold historyCursorJson
  constructor
  · simp only [Json.stringify, Json.stringifyMembers, JsString.isAscii_cons,
      JsString.isAscii_append, htenantId, hstatus, hcreatedAt, hid, hascii,
      Json.isAscii_quote_of_plain htenant, Json.isAscii_quote_of_plain hdate,
      Json.isAscii_quote_of_plain hrow]
    rfl
  · simp only [Json.stringify, Json.stringifyMembers, List.length_cons, List.length_append,
      hn₁, hn₂, hn₃, hn₄, Json.length_quote_of_plain htenant, Json.length_quote_of_plain hdate,
      Json.length_quote_of_plain hrow, length_of_isUuid q.tenantId.2, length_of_isUuid row.id.2,
      length_toISOString h, List.length_nil]
    omega

/-- So is that of the other listing. -/
theorem deadLetterCursorJson_text (d : DeadLetterQuery) {row : RowCursor}
    (h : row.FourDigits) : JsString.isAscii (deadLetterCursorJson d row).stringify = true ∧
      (deadLetterCursorJson d row).stringify.length ≤ 160 := by
  obtain ⟨htenantId, -, hcreatedAt, hid, hresource, hletters⟩ := cursorNames_ascii
  obtain ⟨hn₁, -, hn₃, hn₄, hn₅, hn₆⟩ := cursorNames_length
  have htenant := isPlain_of_isUuid d.tenantId.2
  have hdate := isPlain_toISOString h
  have hrow := isPlain_of_isUuid row.id.2
  unfold deadLetterCursorJson
  constructor
  · simp only [Json.stringify, Json.stringifyMembers, JsString.isAscii_cons,
      JsString.isAscii_append, htenantId, hcreatedAt, hid, hresource, hletters,
      Json.isAscii_quote_of_plain htenant, Json.isAscii_quote_of_plain hdate,
      Json.isAscii_quote_of_plain hrow]
    rfl
  · simp only [Json.stringify, Json.stringifyMembers, List.length_cons, List.length_append,
      hn₁, hn₃, hn₄, hn₅, hn₆, Json.length_quote_of_plain htenant,
      Json.length_quote_of_plain hdate, Json.length_quote_of_plain hrow,
      length_of_isUuid d.tenantId.2, length_of_isUuid row.id.2, length_toISOString h,
      List.length_nil]
    omega

/-- **A cursor fits** the bound of the schema. -/
theorem encodeText_fits {v : Json} (h : JsString.isAscii v.stringify = true ∧
    v.stringify.length ≤ 160) : 1 ≤ (encodeText v).length ∧ (encodeText v).length ≤ 1024 := by
  have hpos := List.length_pos_iff.mpr (Json.stringify_ne_nil v)
  rw [length_encodeText v h.1]
  omega

/-! ## Binding -/

/-- **Cursors are bound** to their tenant, their filter and their resource.  With a cursor that
was produced for a row, a request is accepted exactly if it is without it and names the same
tenant and filter, and then the row is what it goes on from; no cursor is accepted by the
other resource. -/
theorem cursors_bound (q : DeliveryHistoryQuery) (d : DeadLetterQuery) (row : RowCursor)
    (h : row.FourDigits) :
    (∀ tenantId query, query.get? (js "cursor") = some (.str (deliveryHistoryCursor q row)) →
      (∀ r, parseDeliveryHistoryQuery tenantId query = .ok r ↔
        ∃ q', parseDeliveryHistoryQuery tenantId (query.without (js "cursor")) = .ok q' ∧
          q'.tenantId = q.tenantId ∧ q'.status = q.status ∧ r = { q' with
            cursor := some row }) ∧
      ∀ r, parseDeadLetterQuery tenantId query ≠ .ok r) ∧
    (∀ tenantId query, query.get? (js "cursor") = some (.str (deadLetterCursor d row)) →
      (∀ r, parseDeadLetterQuery tenantId query = .ok r ↔
        ∃ d', parseDeadLetterQuery tenantId (query.without (js "cursor")) = .ok d' ∧
          d'.tenantId = d.tenantId ∧ r = { d' with
            cursor := some row }) ∧
      ∀ r, parseDeliveryHistoryQuery tenantId query ≠ .ok r) ∧
    (∀ text ∈ [deliveryHistoryCursor q row, deadLetterCursor d row],
      1 ≤ text.length ∧ text.length ≤ 1024 ∧ isCanonical text = true) := by
  have hq := historyCursorJson_text q h
  have hd := deadLetterCursorJson_text d h
  refine ⟨?_, ?_, ?_⟩
  · intro tenantId query hcursor
    constructor
    -- it decodes to the tenant, the filter and the row it was printed from
    · intro r
      rw [parseDeliveryHistoryQuery_cursor hcursor (encodeText_fits hq), deliveryHistoryCursor,
        decodeText_encodeText _ hq.1, Option.bind_some, historyCursor?_json q h]
      constructor
      · rintro ⟨q', row', hq', hrow, rfl⟩
        simp only [Option.some.injEq, Prod.mk.injEq] at hrow
        obtain ⟨htenant, hstatus, rfl⟩ := hrow
        exact ⟨q', hq', htenant.symm, hstatus.symm, rfl⟩
      · rintro ⟨q', hq', htenant, hstatus, rfl⟩
        exact ⟨q', row, hq', by rw [htenant, hstatus], rfl⟩
    -- the schema of the other listing is strict: there is a member too many
    · intro r hr
      obtain ⟨d', row', -, hrow, -⟩ :=
        (parseDeadLetterQuery_cursor hcursor (encodeText_fits hq) r).mp hr
      rw [deliveryHistoryCursor, decodeText_encodeText _ hq.1, Option.bind_some,
        deadLetterCursor?_history] at hrow
      cases hrow
  · intro tenantId query hcursor
    constructor
    -- the same for the dead letters
    · intro r
      rw [parseDeadLetterQuery_cursor hcursor (encodeText_fits hd), deadLetterCursor,
        decodeText_encodeText _ hd.1, Option.bind_some, deadLetterCursor?_json d h]
      constructor
      · rintro ⟨d', row', hd', hrow, rfl⟩
        simp only [Option.some.injEq, Prod.mk.injEq] at hrow
        obtain ⟨htenant, rfl⟩ := hrow
        exact ⟨d', hd', htenant.symm, rfl⟩
      · rintro ⟨d', hd', htenant, rfl⟩
        exact ⟨d', row, hd', by rw [htenant], rfl⟩
    · intro r hr
      obtain ⟨q', row', -, hrow, -⟩ :=
        (parseDeliveryHistoryQuery_cursor hcursor (encodeText_fits hd) r).mp hr
      rw [deadLetterCursor, decodeText_encodeText _ hd.1, Option.bind_some,
        historyCursor?_deadLetter] at hrow
      cases hrow
  -- what is printed is canonical and within the bounds of the query
  · intro text htext
    simp only [List.mem_cons, List.not_mem_nil, or_false] at htext
    rcases htext with rfl | rfl
    · obtain ⟨hlow, hhigh⟩ := encodeText_fits hq
      exact ⟨hlow, hhigh, isCanonical_encodeText _ hq.1⟩
    · obtain ⟨hlow, hhigh⟩ := encodeText_fits hd
      exact ⟨hlow, hhigh, isCanonical_encodeText _ hd.1⟩

namespace Sample

/-- A tenant. -/
def viewer : Uuid := ⟨js "6f1b7a3e-58c2-4d09-9e4b-0a7c35d1f482", by decide⟩

/-- Its failed deliveries. -/
def failedQuery : DeliveryHistoryQuery where
  tenantId := viewer
  status := some .failed
  limit := ⟨50, by decide⟩
  cursor := none

/-- Its dead letters. -/
def letterQuery : DeadLetterQuery where
  tenantId := viewer
  limit := ⟨50, by decide⟩
  cursor := none

/-- A delivery of `2026-10-25T00:00:00.000Z`. -/
def lastRow : RowCursor where
  createdAt := 1792886400000
  id := ⟨js "c2a9e6d4-1b7f-4f38-8a50-93e1d7b6204f", by decide⟩

end Sample

/-- The next page of the failed deliveries. -/
theorem cursors_bound_failed :
    parseDeliveryHistoryQuery (.str Sample.viewer) (.obj [(js "status", .str (js "FAILED")),
        (js "cursor", .str (deliveryHistoryCursor Sample.failedQuery Sample.lastRow))]) =
      .ok { Sample.failedQuery with
        cursor := some Sample.lastRow } := by
  have hyear : Sample.lastRow.FourDigits := by
    unfold RowCursor.FourDigits
    decide
  obtain ⟨hhistory, -, -⟩ :=
    cursors_bound Sample.failedQuery Sample.letterQuery Sample.lastRow hyear
  obtain ⟨haccepted, -⟩ := hhistory (.str Sample.viewer) (.obj [(js "status", .str (js "FAILED")),
    (js "cursor", .str (deliveryHistoryCursor Sample.failedQuery Sample.lastRow))]) rfl
  exact (haccepted _).mpr ⟨Sample.failedQuery, rfl, rfl, rfl, rfl⟩

end Api
