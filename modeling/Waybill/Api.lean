/-
# The API's writes (`api/src/services/events.ts`, `api/src/services/replays.ts`)

`ingestEvent` accepts an event, `requestReplay` a replay of a dead-lettered one.  Both
commit an event together with its outbox row; nothing else does.

The class of a thrown error, which `instanceof` looks at, is its `name` here.
-/
import Waybill.JsonSize
import Waybill.Worker

open Services

namespace Api

/-! ## Validation (`ingestSchema`) -/

/-- `typeof` as zod names it. -/
def parsedType : Json → JsString
  | .null => js "null"
  | .bool _ => js "boolean"
  | .num _ => js "number"
  | .str _ => js "string"
  | .arr _ => js "array"
  | .obj _ => js "object"

/-- The message of an `invalid_type` issue; a missing member is `undefined`. -/
def invalidType (expected : JsString) : Option Json → JsString
  | none => js "Required"
  | some v => js "Expected " ++ expected ++ js ", received " ++ parsedType v

/-- A hexadecimal digit. -/
def isHex (u : UInt16) : Bool :=
  (48 ≤ u.toNat && u.toNat ≤ 57) || (97 ≤ u.toNat && u.toNat ≤ 102) ||
    (65 ≤ u.toNat && u.toNat ≤ 70)

/-- `z.string().uuid()`: hexadecimal groups of 8, 4, 4, 4 and 12, joined by hyphens. -/
def isUuid (s : JsString) : Bool :=
  s.length == 36 &&
    s.zipIdx.all (fun ui =>
      if ui.2 == 8 || ui.2 == 13 || ui.2 == 18 || ui.2 == 23 then ui.1 == 45 else isHex ui.1)

/-- The units of an identifier are digits, letters and hyphens. -/
theorem isPlain_of_isUuid {id : JsString} (h : isUuid id = true) :
    ∀ u ∈ id, Json.isPlain u = true := by
  simp only [isUuid, Bool.and_eq_true, beq_iff_eq, List.all_eq_true] at h
  intro u hu
  obtain ⟨i, hi, hget⟩ := List.mem_iff_getElem.mp hu
  have hmem : (u, i) ∈ id.zipIdx := by
    rw [List.mem_zipIdx_iff_getElem?, List.getElem?_eq_getElem hi, hget]
  have hunit := h.2 _ hmem
  have hcases : u = 45 ∨ isHex u = true := by
    split_ifs at hunit
    · exact .inl (by simpa using hunit)
    · exact .inr hunit
  rcases hcases with rfl | hhex
  · decide
  · simp only [isHex, Bool.or_eq_true, Bool.and_eq_true, decide_eq_true_eq] at hhex
    simp only [Json.isPlain, Bool.and_eq_true, decide_eq_true_eq, bne_iff_ne, ne_eq]
    refine ⟨⟨⟨by omega, by omega⟩, ?_⟩, ?_⟩
    · rintro rfl
      revert hhex
      decide
    · rintro rfl
      revert hhex
      decide

theorem length_of_isUuid {id : JsString} (h : isUuid id = true) : id.length = 36 := by
  simp only [isUuid, Bool.and_eq_true, beq_iff_eq] at h
  exact h.1

/-- `z.string()` with checks on the string: the string, or the messages of the issues. -/
def checkString (v : Option Json) (checks : JsString → List JsString) :
    Except (List JsString) JsString :=
  match v with
  | some (.str s) => if (checks s).isEmpty then .ok s else .error (checks s)
  | v => .error [invalidType (js "string") v]

/-- The checks of `tenantId`. -/
def tenantIdIssues (s : JsString) : List JsString :=
  if isUuid s then [] else [js "Invalid uuid"]

/-- The checks of `type`. -/
def typeIssues (s : JsString) : List JsString :=
  (if s.length < 1 then [js "String must contain at least 1 character(s)"] else []) ++
    (if 200 < s.length then [js "String must contain at most 200 character(s)"] else [])

/-- A validated request. -/
structure IngestRequest where
  tenantId : JsString
  type : JsString
  payload : Option Json

/-- The messages of a failed check. -/
def issuesOf {α : Type} : Except (List JsString) α → List JsString
  | .ok _ => []
  | .error issues => issues

/-- `ingestSchema.safeParse`. -/
def safeParse (input : Json) : Except (List JsString) IngestRequest :=
  match input with
  | .obj members =>
      let tenantId := checkString ((Json.obj members).get? (js "tenantId")) tenantIdIssues
      let type := checkString ((Json.obj members).get? (js "type")) typeIssues
      match tenantId, type with
      | .ok tenantId, .ok type =>
          .ok { tenantId := tenantId, type := type
                payload := (Json.obj members).get? (js "payload") }
      | tenantId, type => .error (issuesOf tenantId ++ issuesOf type)
  | v => .error [invalidType (js "object") (some v)]

/-- Messages joined with `"; "`. -/
def joinMessages : List JsString → JsString
  | [] => []
  | [m] => m
  | m :: ms => m ++ js "; " ++ joinMessages ms

/-! ## Errors -/

def validationError (message : JsString) : JsError :=
  { name := js "ValidationError", message := message }

def tenantNotFoundError (tenantId : JsString) : JsError :=
  { name := js "TenantNotFoundError", message := js "Tenant not found: " ++ tenantId }

def ingestionRateLimitError : JsError :=
  { name := js "IngestionRateLimitError", message := js "tenant ingestion rate limit exceeded" }

/-! ## `ingestEvent` -/

/-- `DEFAULT_SQS_MAX_MESSAGE_BYTES`. -/
def defaultSqsMaxMessageBytes : ℚ := 262144

/-- `payloadBytes`. -/
def payloadBytes (payload : Json) : ℕ := JsString.utf8Length payload.stringify

/-- `sqsMaxBytes`. -/
def sqsMaxBytes (env : Env) : Except JsError ℚ :=
  match env.sqsMaxMessageBytes with
  | none => .ok defaultSqsMaxMessageBytes
  | some (.finite parsed) =>
      if parsed ≤ 0 then
        .error { message := js "SQS_MAX_MESSAGE_BYTES must be a positive number" }
      else .ok parsed
  | some _ => .error { message := js "SQS_MAX_MESSAGE_BYTES must be a positive number" }

/-- `storedIn`. -/
inductive StoredIn where
  | postgres
  | s3
  deriving DecidableEq

/-- `IngestedEvent`. -/
structure IngestedEvent where
  eventId : JsString
  outboxId : JsString
  storedIn : StoredIn

/-- The claim-check key of an event. -/
def claimCheckKey (tenantId eventId : JsString) : JsString :=
  js "events/" ++ tenantId ++ js "/" ++ eventId ++ js ".json"

/-- `enforceIngestionRateLimit`. -/
def enforceIngestionRateLimit (env : Env) (tenantId : JsString) : Async TokenBucketDecision := do
  let decision ← Worker.consumeTenantToken tenantId .ingestion
    (TokenBucket.toOverrides env.ingestionRateLimit)
  if decision.allowed then return decision else .throw ingestionRateLimitError

/-- `payload: input.payload === null ? Prisma.DbNull : input.payload`. -/
def dbPayload : Json → Option Json
  | .null => none
  | v => some v

/-- The row of an event whose payload is stored inline, or under its claim-check key. -/
def eventRecord (tenantId type eventId : JsString) (payload : Json) : StoredIn → CreateEventRecord
  | .postgres =>
      { id := eventId, tenantId := tenantId, type := type, payload := dbPayload payload
        payloadS3Key := none }
  | .s3 =>
      { id := eventId, tenantId := tenantId, type := type, payload := none
        payloadS3Key := some (claimCheckKey tenantId eventId) }

/-- `ingestEvent`, from the choice of the storage on. -/
def storeEvent (tenantId type eventId : JsString) (payload : Json) (tooLargeForSqs : Bool) :
    Async IngestedEvent :=
  if tooLargeForSqs then do
    putObject (claimCheckKey tenantId eventId) payload.stringify
    let (event, outbox) ← createEvent (eventRecord tenantId type eventId payload .s3)
    return { eventId := event.id, outboxId := outbox.id, storedIn := .s3 }
  else do
    let inlinePayload ← Prog.getOrThrow (Json.parse payload.stringify) Worker.syntaxError
    let (event, outbox) ← createEvent (eventRecord tenantId type eventId inlinePayload .postgres)
    return { eventId := event.id, outboxId := outbox.id, storedIn := .postgres }

/-- `ingestEvent`, of a valid request. -/
def ingestValid (env : Env) (tenantId type : JsString) (payload : Json) : Async IngestedEvent := do
  let tenant ← findTenant tenantId
  let _ ← Prog.getOrThrow tenant (tenantNotFoundError tenantId)
  let _ ← enforceIngestionRateLimit env tenantId
  let eventId ← newEventId tenantId type payload
  match sqsMaxBytes env with
  | .error e => .throw e
  | .ok limit =>
      storeEvent tenantId type eventId payload (decide ((payloadBytes payload : ℚ) > limit))

/-- **`ingestEvent`**. -/
def ingestEvent (env : Env) (input : Json) : Async IngestedEvent :=
  match safeParse input with
  | .error issues => .throw (validationError (joinMessages issues))
  | .ok request =>
      match request.payload with
      | none => .throw (validationError (js "payload is required"))
      | some payload => ingestValid env request.tenantId request.type payload

/-! ## Archived payloads -/

/-- `MAX_ARCHIVE_BYTES`. -/
def maxArchiveBytes : ℕ := 4 * 1024 * 1024

def archiveNotFoundError : JsError :=
  { name := js "ArchiveNotFoundError", message := js "Archived payload no longer exists" }

def invalidArchiveError (message : String) : JsError :=
  { name := js "InvalidArchiveError", message := js message }

/-- `readArchivedPayload`. -/
def readArchivedPayload (key : JsString) : Async Json := do
  let object ← Prog.attempt (getObject key)
  match object with
  | .error e => if e.name = js "NoSuchKey" then .throw archiveNotFoundError else .throw e
  | .ok none => .throw (invalidArchiveError "Archive body is missing")
  | .ok (some text) =>
      if JsString.utf8Length text > maxArchiveBytes then
        .throw (invalidArchiveError "Archive exceeds the inspection size limit")
      else Prog.getOrThrow (Json.parse text) (invalidArchiveError "Archive is not valid UTF-8 JSON")

/-! ## `requestReplay` -/

/-- The result of `parseReplayQuery`. -/
structure ReplayInput where
  tenantId : JsString
  deadLetterId : JsString
  idempotencyKey : JsString
  deriving DecidableEq

def replayConflictError (message : String) : JsError :=
  { name := js "ReplayConflictError", message := js message }

def deadLetterNotFoundError : JsError :=
  { name := js "DeadLetterNotFoundError", message := js "Dead-letter record not found" }

/-- The response of a replay request. -/
structure ReplayResponse where
  replayId : JsString
  deadLetterId : JsString
  originalEventId : JsString
  eventId : JsString
  createdAt : ℚ

/-- `response`. -/
def response (record : ReplayRecord) (deadLetterId : JsString) : Async ReplayResponse :=
  if record.replay.sourceDeadLetterId ≠ deadLetterId then
    .throw (replayConflictError "Idempotency key is already used for another dead-letter record")
  else
    return { replayId := record.replay.id, deadLetterId := record.replay.sourceDeadLetterId
             originalEventId := record.sourceDeadLetter.eventId
             eventId := record.replay.eventId, createdAt := record.replay.createdAt }

/-- The outcome of `createReplay`. -/
inductive CreateReplayResult where
  | existing (record : ReplayRecord)
  | missing
  | conflict
  | created (record : ReplayRecord)

/-- The rows `createReplay` inserts. -/
def newReplay (input : ReplayInput) (source : ReplaySource) : NewReplay :=
  { tenantId := input.tenantId, sourceDeadLetterId := source.deadLetter.id
    idempotencyKey := input.idempotencyKey
    eventTenantId := source.deadLetter.tenantId, eventType := source.event.type
    payloadS3Key := source.deadLetter.payloadS3Key }

/-- `createReplay`: the reads of its transaction, and its commit. -/
def createReplay (input : ReplayInput) (archiveKey targetUrl : JsString) :
    Async CreateReplayResult := do
  let existing ← findReplayByKey input.tenantId input.idempotencyKey
  match existing with
  | some record => return .existing record
  | none =>
      let source ← findReplaySource input.tenantId input.deadLetterId
      match source with
      | none => return .missing
      | some source =>
          -- only what was dead-lettered for this target, from this archive, can be replayed
          if source.delivery.status ≠ .deadLettered ∨ source.deadLetter.targetUrl ≠ targetUrl ∨
              source.deadLetter.payloadS3Key ≠ archiveKey then
            return .conflict
          else
            let record ← insertReplay (newReplay input source)
            return .created record

/-- What `requestReplay` makes of the transaction. -/
def replayResult (input : ReplayInput) : CreateReplayResult → Async ReplayResponse
  | .missing => .throw deadLetterNotFoundError
  | .conflict =>
      .throw (replayConflictError "Source delivery changed; reload before replaying")
  | .existing record => response record input.deadLetterId
  | .created record => response record input.deadLetterId

/-- The transaction and, after a unique violation, the look at the winner. -/
def commitReplay (input : ReplayInput) (archiveKey targetUrl : JsString) :
    Async ReplayResponse := do
  let result ← Prog.attempt (do
    let result ← createReplay input archiveKey targetUrl
    replayResult input result)
  match result with
  | .ok r => return r
  | .error e =>
      if e.name = js "PrismaClientKnownRequestError" ∧ e.code = some (js "P2002") then
        let repeated ← findReplayByKey input.tenantId input.idempotencyKey
        match repeated with
        | some record => response record input.deadLetterId
        | none =>
            .throw (replayConflictError "This dead-letter record already has a replay")
      else .throw e

/-- `requestReplay`, of a key that was not used before. -/
def replaySource (env : Env) (input : ReplayInput) : Async ReplayResponse := do
  let found ← findReplaySource input.tenantId input.deadLetterId
  let source ← Prog.getOrThrow found deadLetterNotFoundError
  if source.delivery.status ≠ .deadLettered then
    .throw (replayConflictError "Only a dead-lettered delivery can be replayed")
  else if source.replay.isSome then
    .throw (replayConflictError "This dead-letter record already has a replay")
  else if env.receiverUrl.isEmpty then
    .throw { message := js "RECEIVER_URL is required for replay" }
  else if source.deadLetter.targetUrl ≠ env.receiverUrl then
    .throw (replayConflictError "Replay destination must match the configured receiver")
  else do
    let _ ← readArchivedPayload source.deadLetter.payloadS3Key
    commitReplay input source.deadLetter.payloadS3Key env.receiverUrl

/-- The error `requestReplay` throws for the one it caught. -/
def replayError (cause : JsError) : JsError :=
  if cause.name = js "ReplayConflictError" ∨ cause.name = js "DeadLetterNotFoundError" then cause
  else if cause.name = js "ArchiveNotFoundError" then
    { name := js "ArchivedPayloadGoneError"
      message := js "Archived payload is no longer available" }
  else if cause.name = js "InvalidArchiveError" then
    { name := js "ArchivedPayloadInvalidError"
      message := js "Archived payload cannot be replayed" }
  else
    { name := js "DeadLetterUnavailableError"
      message := js "Dead-letter data is temporarily unavailable" }

/-- **`requestReplay`**. -/
def requestReplay (env : Env) (input : ReplayInput) : Async ReplayResponse := do
  let result ← Prog.attempt (do
    let existing ← findReplayByKey input.tenantId input.idempotencyKey
    match existing with
    | some record => response record input.deadLetterId
    | none => replaySource env input)
  match result with
  | .ok r => return r
  | .error cause => .throw (replayError cause)

end Api
