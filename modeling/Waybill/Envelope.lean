/-
# The size of an inline message

`ingestEvent` compares the size of the payload with the limit of the queue, but the message
that `publishOne` sends wraps the payload in an envelope with its identifiers and its type.

* `utf8Length_messageBody`: the envelope takes `envelopeBytes` on top of the payload.
* `inline_publishable_iff`: an event that was stored inline fits the queue exactly if its
  payload leaves room for the envelope.
* `inline_unpublishable`: with little room left it does not.
-/
import Waybill.System

open Worker Publisher Api

/-! ## The envelope of an event -/

/-- An identifier takes one byte for each of its units. -/
theorem size_uuid {id : JsString} (h : isUuid id = true) : (Json.str id).size = 38 := by
  rw [Json.size_str_of_plain (isPlain_of_isUuid h), length_of_isUuid h]

/-- What a message with an inline payload takes besides its payload. -/
def envelopeBytes (type : JsString) : ℕ := 139 + (Json.str type).size

/-- The quoted member names of a message. -/
theorem member_names_size :
    JsString.utf8Length (Json.quote (js "eventId")) = 9 ∧
      JsString.utf8Length (Json.quote (js "tenantId")) = 10 ∧
      JsString.utf8Length (Json.quote (js "type")) = 6 ∧
      JsString.utf8Length (Json.quote (js "payload")) = 9 ∧
      JsString.utf8Length (Json.quote (js "payloadS3Key")) = 14 := by
  decide

/-- **The size of a message** is that of its payload and its envelope. -/
theorem utf8Length_messageBody {event : Event} (hid : isUuid event.id = true)
    (htenant : isUuid event.tenantId = true) (hkey : event.payloadS3Key = none) :
    JsString.utf8Length (messageBody event) =
      (event.payload.getD .null).size + envelopeBytes event.type := by
  have hnull : Json.null.size = 4 := by decide
  have hend : JsString.utf8Length (Json.stringifyMembers []) = 1 := by decide
  obtain ⟨h1, h2, h3, h4, h5⟩ := member_names_size
  have hmessage : queueMessage event =
      { eventId := event.id, tenantId := event.tenantId, type := event.type
        payload := event.payload.getD .null, payloadS3Key := none } := by
    simp [queueMessage, hkey, truthyKey]
  change (messageJson (queueMessage event)).size = _
  rw [hmessage, messageJson, Json.size_obj, Json.utf8Length_stringifyMembers,
    Json.utf8Length_stringifyMembers, Json.utf8Length_stringifyMembers,
    Json.utf8Length_stringifyMembers, h1, h2, h3, h4, h5, size_uuid hid, size_uuid htenant, hnull,
    hend, envelopeBytes]
  simp only
  omega

/-! ## What `ingestEvent` commits -/

/-- The row of a record. -/
def CreateEventRecord.event (record : CreateEventRecord) : Event :=
  { id := record.id, tenantId := record.tenantId, type := record.type, payload := record.payload
    payloadS3Key := record.payloadS3Key }

/-- Programs with the last event record they committed. -/
def committing : Protocol Services where
  Phase := Option CreateEventRecord
  Allows _ _ := True
  next φ op _ :=
    match op with
    | .createEvent record => some record
    | _ => φ

/-- `ingestEvent` reports that the record it committed is stored in PostgreSQL, and its
identifier is one that `crypto.randomUUID` can have drawn. -/
structure StoredInline (env : Env) (outcome : Except JsError IngestedEvent)
    (committed : Option CreateEventRecord) (record : CreateEventRecord) (limit : ℚ) : Prop where
  storedIn : ∃ result, outcome = .ok result ∧ result.storedIn = .postgres
  committed : committed = some record
  drawn : isUuid record.id = true
  limit : sqsMaxBytes env = .ok limit

/-- The message `publishOne` builds is within the limit. -/
def Publishable (record : CreateEventRecord) (limit : ℚ) : Prop :=
  (JsString.utf8Length (messageBody record.event) : ℚ) ≤ limit

/-- Whatever is requested and however the services answer, the message of an event that is
stored inline is within the limit. -/
def InlinePublishable (env : Env) : Prop :=
  ∀ input, committing.Follows (ingestEvent env input) none (fun outcome committed =>
    ∀ record limit, StoredInline env outcome committed record limit → Publishable record limit)

section

variable {env : Env}

/-- Nothing is stored by a call that threw. -/
theorem StoredInline.not_error {e : JsError} {committed : Option CreateEventRecord}
    {record : CreateEventRecord} {limit : ℚ} :
    ¬ StoredInline env (.error e) committed record limit := by
  rintro ⟨⟨result, hresult, -⟩, -⟩
  cases hresult

/-- A valid request names its tenant by a UUID. -/
theorem isUuid_of_safeParse {input : Json} {request : IngestRequest}
    (h : safeParse input = .ok request) : isUuid request.tenantId = true := by
  have hcheck : ∀ v s, checkString v tenantIdIssues = .ok s → isUuid s = true := by
    intro v s hs
    unfold checkString at hs
    split at hs
    · split_ifs at hs with hissues
      obtain rfl := Except.ok.inj hs
      by_contra hne
      simp [tenantIdIssues, hne] at hissues
    · cases hs
  cases input with
  | obj members =>
      simp only [safeParse] at h
      split at h
      · rename_i tenantId type htenant htype
        obtain rfl := Except.ok.inj h
        exact hcheck _ _ htenant
      · cases h
  | _ => cases h

/-- The payload of an inline record. -/
theorem getD_dbPayload (payload : Json) : (dbPayload payload).getD .null = payload := by
  cases payload <;> rfl

/-- A record that is stored inline. -/
theorem publishable_inline_iff {tenantId type eventId : JsString} {payload : Json} {limit : ℚ}
    (htenant : isUuid tenantId = true) (hid : isUuid eventId = true) :
    Publishable (eventRecord tenantId type eventId payload .postgres) limit ↔
      (payloadBytes payload + envelopeBytes type : ℚ) ≤ limit := by
  have hsize := @utf8Length_messageBody
    (eventRecord tenantId type eventId payload .postgres).event hid htenant rfl
  have hpayload : (eventRecord tenantId type eventId payload .postgres).event.payload.getD .null =
      payload := getD_dbPayload payload
  rw [hpayload] at hsize
  rw [Publishable, hsize]
  exact_mod_cast Iff.rfl

/-- What is stored inline is the record of the request. -/
theorem follows_ingestValid (env : Env) (tenantId type : JsString) (payload : Json) :
    committing.Follows (ingestValid env tenantId type payload) none (fun outcome committed =>
      ∀ record limit, StoredInline env outcome committed record limit →
        record = eventRecord tenantId type record.id payload .postgres) := by
  have hany : ∀ {α : Type} (p : Async α) (φ : committing.Phase),
      committing.Follows p φ (fun _ _ => True) := fun p φ =>
    Protocol.follows_true (fun _ _ => trivial) p φ
  have herr : ∀ (e : JsError) (φ : committing.Phase), ∀ record limit,
      StoredInline env (.error e) φ record limit →
        record = eventRecord tenantId type record.id payload .postgres :=
    fun _ _ _ _ h => absurd h StoredInline.not_error
  refine (hany _ none).bind (fun tenant φ _ => ?_) (fun e φ _ => herr e φ)
  refine (hany _ φ).bind (fun _ φ _ => ?_) (fun e φ _ => herr e φ)
  refine (hany _ φ).bind (fun _ φ _ => ?_) (fun e φ _ => herr e φ)
  refine (hany _ φ).bind (fun eventId φ _ => ?_) (fun e φ _ => herr e φ)
  cases sqsMaxBytes env with
  | error e => exact herr e φ
  | ok limit =>
      simp only [storeEvent]
      split_ifs
      · refine (hany _ φ).bind (fun _ φ _ => ?_) (fun e φ _ => herr e φ)
        refine (hany _ φ).bind (fun _ φ _ => ?_) (fun e φ _ => herr e φ)
        -- the payload went to the object store
        rintro record limit ⟨⟨result, hresult, hstored⟩, -⟩
        obtain rfl := Except.ok.inj hresult
        cases hstored
      · rw [Json.parse_stringify]
        refine ⟨trivial, fun r => ?_⟩
        cases r with
        | error e => exact herr e _
        | ok row =>
            rintro record limit ⟨-, hcommitted, -, -⟩
            obtain rfl := Option.some.inj hcommitted
            rfl

/-- **Inline events fit the queue** exactly if their payload leaves room for the envelope. -/
theorem inline_publishable_iff (env : Env) (input : Json) :
    committing.Follows (ingestEvent env input) none (fun outcome committed =>
      ∀ record limit, StoredInline env outcome committed record limit →
        ∃ request payload, safeParse input = .ok request ∧ request.payload = some payload ∧
          (Publishable record limit ↔
            (payloadBytes payload + envelopeBytes request.type : ℚ) ≤ limit)) := by
  unfold ingestEvent
  cases hparse : safeParse input with
  | error issues => exact fun _ _ h => absurd h StoredInline.not_error
  | ok request =>
      simp only
      cases hpayload : request.payload with
      | none => exact fun _ _ h => absurd h StoredInline.not_error
      | some payload =>
          -- the record stored inline is the request's own, so its size is known
          refine (follows_ingestValid env _ _ payload).imp fun outcome committed hrecord => ?_
          intro record limit h
          refine ⟨request, payload, rfl, hpayload, ?_⟩
          rw [hrecord record limit h]
          exact publishable_inline_iff (isUuid_of_safeParse hparse) h.drawn

end

/-- Answers to a request for which everything succeeds. -/
def Sample.answer : (op : Op) → Except JsError op.Res
  | .now => .ok (0 : ℚ)
  | .findTenant id => .ok (some { id := id, hmacSecret := js "whsec_waybill" })
  | .evalConsumeToken .. => .ok ((1, 0, 0) : ℤ × ℤ × ℤ)
  | .newEventId .. => .ok firstId
  | .createEvent record =>
      .ok (record.event, { id := firstId, eventId := record.id, published := false, createdAt := 0
                           publishedAt := none })
  | _ => .error { message := js "failure" }

/-- The environment of a queue that takes 100 bytes. -/
def Sample.narrow : Env :=
  { Sample.env none with
    sqsMaxMessageBytes := some (.finite 100) }

/-- A record stored inline whose message does not fit into 100 bytes. -/
def Sample.tooLarge : Except JsError Api.IngestedEvent × Option CreateEventRecord → Bool
  | (.ok result, some record) => decide (result.storedIn = .postgres) && isUuid record.id &&
      decide (100 < JsString.utf8Length (messageBody record.event))
  | _ => false

theorem Sample.tooLarge_eq_true {x : Except JsError Api.IngestedEvent × Option CreateEventRecord}
    (h : tooLarge x = true) : ∃ result record, x = (.ok result, some record) ∧
      result.storedIn = .postgres ∧ isUuid record.id = true ∧
        100 < JsString.utf8Length (messageBody record.event) := by
  unfold tooLarge at h
  split at h
  · rename_i result record
    simp only [Bool.and_eq_true, decide_eq_true_eq] at h
    exact ⟨result, record, rfl, h.1.1, h.1.2, h.2⟩
  · cases h

/-- With a limit of 100 bytes a `null` payload is stored inline, and its message is larger. -/
theorem inline_unpublishable : ¬ InlinePublishable Sample.narrow := by
  intro hclaim
  have hfits := (hclaim Sample.input).outcome Sample.answer
  have hrun : Sample.tooLarge (committing.outcome Sample.answer
      (ingestEvent Sample.narrow Sample.input) none) = true := by decide +kernel
  obtain ⟨result, record, hout, hstored, hid, hsize⟩ := Sample.tooLarge_eq_true hrun
  rw [hout] at hfits
  have hlimit : sqsMaxBytes Sample.narrow = .ok 100 := by decide
  have hle : (JsString.utf8Length (messageBody record.event) : ℚ) ≤ 100 :=
    hfits record 100 ⟨⟨result, rfl, hstored⟩, rfl, hid, hlimit⟩
  have hle' : JsString.utf8Length (messageBody record.event) ≤ 100 := by
    exact_mod_cast hle
  omega
