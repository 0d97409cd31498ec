/-
# Whether an archived payload can be read again

The API takes request bodies of up to 2 MiB, and reads archived payloads of up to 4 MiB.
What is archived is not what was sent: the body is parsed and its payload printed again,
numbers in full where they were written with an exponent.

* `archived_readable_iff`: in every run, the archived payload of a request, or of a replay of
  it, is read again exactly if it has at most 4 MiB when it is printed; if the body is
  well-formed UTF-8 and its numbers are printed no longer than they were written, it has.
* `archive_too_large`: a body of 1 MB can be printed in more.
-/
import Waybill.JsonSize
import Waybill.Safety

open Worker Api

namespace Archive

/-! ## Request bodies -/

/-- `limit: "2mb"` of `express.json`. -/
def bodyLimit : ℕ := 2 * 1024 * 1024

/-- The parsed text of a request body, decoded from the charset it was sent in. -/
def bodyText (decode : List UInt8 → JsString) (body : List UInt8) : Option Json :=
  if body.length ≤ bodyLimit then Json.parse (decode body) else none

/-- The payload of a body, as it was written. -/
def writtenPayload (decode : List UInt8 → JsString) (body : List UInt8) : Option Json :=
  (bodyText decode body).bind (fun t => t.get? (js "payload"))

/-- A request was sent in this body: `req.body` is the value of its text, and `ingestEvent`
has drawn an event identifier for it. -/
def SentIn (decode : List UInt8 → JsString) (body : List UInt8) (d : Draft) : Prop :=
  ∃ text, bodyText decode body = some text ∧
    safeParse text.evaluate =
      .ok { tenantId := d.tenantId, type := d.type, payload := some d.payload }

/-- What was sent is what was written, evaluated. -/
theorem SentIn.evaluate {decode : List UInt8 → JsString} {body : List UInt8} {d : Draft}
    (h : SentIn decode body d) :
    ∃ written, writtenPayload decode body = some written ∧ written.evaluate = d.payload := by
  obtain ⟨text, htext, hparse⟩ := h
  have hpayload : text.evaluate.get? (js "payload") = some d.payload := by
    unfold safeParse at hparse
    split at hparse
    · next members hmembers =>
        rw [hmembers]
        simp only at hparse
        split at hparse
        · exact congrArg IngestRequest.payload (Except.ok.inj hparse)
        · cases hparse
    · cases hparse
  rw [Json.get?_evaluate] at hpayload
  obtain ⟨written, hwritten, heval⟩ := Option.map_eq_some_iff.mp hpayload
  refine ⟨written, ?_, heval⟩
  rw [writtenPayload, htext]
  exact hwritten

/-- A payload takes no more than the body it was sent in, if its numbers do not grow. -/
theorem printedSize_le_bodyLimit {decode : List UInt8 → JsString} {body : List UInt8}
    {written : Json} (h : writtenPayload decode body = some written)
    (hformed : Json.WellFormed (decode body))
    (hdecode : JsString.utf8Length (decode body) ≤ body.length)
    (hnumbers : Json.NumbersShrink written) : Json.printedSize written ≤ bodyLimit := by
  obtain ⟨text, htext, hget⟩ := Option.bind_eq_some_iff.mp h
  unfold bodyText at htext
  split_ifs at htext with hlimit
  calc Json.printedSize written ≤ written.size := Json.printedSize_le written hnumbers
    _ ≤ text.size := Json.size_get? hget
    _ ≤ JsString.utf8Length (decode body) := Json.size_of_parse htext hformed
    _ ≤ body.length := hdecode
    _ ≤ bodyLimit := hlimit

/-! ## Reading the archive -/

/-- The error for an archive that is too large. -/
def tooLarge : JsError := invalidArchiveError "Archive exceeds the inspection size limit"

/-- **Reading** the text of a value gives the value, unless it is too large. -/
theorem run_readArchivedPayload {w : World} {key : JsString} {payload : Json}
    (h : w.objects key = some payload.stringify) :
    services.run 0 (fun _ => {}) (readArchivedPayload key) w =
      some (if payload.size ≤ maxArchiveBytes then .ok payload else .error tooLarge, w) := by
  have hget : services.exec 0 (.getObject key) {} w = some (.ok (some payload.stringify), w) := by
    have hoperation : services.exec 0 (.getObject key) {} w =
        some (w.apply (.getObject key) {}) := rfl
    rw [hoperation, World.apply, h]
  refine (Device.run_call hget).trans ?_
  change services.run 0 (fun _ => {})
    (if payload.size > maxArchiveBytes then .throw tooLarge
      else Prog.getOrThrow (Json.parse payload.stringify) _) w = _
  rw [Json.parse_stringify]
  by_cases hsize : payload.size ≤ maxArchiveBytes
  · rw [if_pos hsize, if_neg (not_lt.mpr hsize)]
    rfl
  · rw [if_neg hsize, if_pos (not_le.mp hsize)]
    rfl

/-- What is archived for a dead letter of a request, or of a replay of it. -/
theorem objects_of_descends {w : Records} (h : w.Sound) {d : Draft} (hd : d ∈ w.drafts)
    {x : DeadLetter} (hx : x ∈ w.deadLetters) (hid : DescendsFrom w d.eventId x.eventId) :
    w.objects x.payloadS3Key = some d.payload.stringify := by
  obtain ⟨e, he, heid, -, -, p, hp, hobj⟩ := h.archived x hx
  obtain ⟨-, -, hcarries⟩ := carries_of_descends h hd hid e he heid
  rw [hobj, hp.unique hcarries]

/-- **An archived payload can be read exactly if it is printed in 4 MiB**: of every request
that was sent in a body of at most 2 MiB, in whatever charset, and is dead-lettered or
replayed and dead-lettered.  A body of well-formed UTF-8 whose numbers are printed no longer
than they were written always can. -/
theorem archived_readable_iff {env : Env} {s : Sys} (h : Reachable env s) :
    ∀ decode body, ∀ d ∈ s.world.world.drafts, SentIn decode body d →
      ∃ written, writtenPayload decode body = some written ∧
        (∀ x ∈ s.world.world.deadLetters,
          DescendsFrom s.world.world.toRecords d.eventId x.eventId →
          ∃ text, s.world.world.objects x.payloadS3Key = some text ∧
            (JsString.utf8Length text ≤ maxArchiveBytes ↔
              Json.printedSize written ≤ maxArchiveBytes) ∧
            services.run 0 (fun _ => {}) (readArchivedPayload x.payloadS3Key) s.world.world =
              some (if Json.printedSize written ≤ maxArchiveBytes then .ok d.payload
                else .error tooLarge, s.world.world)) ∧
        (Json.WellFormed (decode body) → JsString.utf8Length (decode body) ≤ body.length →
          Json.NumbersShrink written → Json.printedSize written ≤ maxArchiveBytes) := by
  have hs := (custody_of_reached h).inv
  intro decode body d hd hsent
  obtain ⟨written, hwritten, heval⟩ := hsent.evaluate
  -- what is archived is as long as the value as it was written in the request
  have hsize : d.payload.size = Json.printedSize written := by
    rw [← heval, Json.size_evaluate]
  refine ⟨written, hwritten, ?_, ?_⟩
  · intro x hx hid
    have hobj := objects_of_descends hs hd hx hid
    have hrun : services.run 0 (fun _ => {}) (readArchivedPayload x.payloadS3Key)
        s.world.world = _ := run_readArchivedPayload hobj
    rw [hsize] at hrun
    refine ⟨_, hobj, ?_, hrun⟩
    rw [← hsize]
    exact Iff.rfl
  -- if no number grows in print, that value is no longer than the request's body
  · intro hformed hdecode hnumbers
    have hlimit := printedSize_le_bodyLimit hwritten hformed hdecode hnumbers
    exact hlimit.trans (by decide)

/-! ## Bodies that grow -/

/-- A text of ASCII characters, one byte each. -/
def asciiBytes (s : JsString) : List UInt8 := s.map UInt16.toUInt8

/-- Bytes below `0x80` in UTF-8. -/
def asciiDecode (body : List UInt8) : JsString := body.map UInt8.toUInt16

theorem asciiDecode_asciiBytes {s : JsString} (h : ∀ u ∈ s, u.toNat < 0x80) :
    asciiDecode (asciiBytes s) = s := by
  rw [asciiDecode, asciiBytes, List.map_map]
  conv_rhs => rw [← List.map_id s]
  apply List.map_congr_left
  intro u hu
  have hlt := h u hu
  apply UInt16.toNat_inj.mp
  simp
  omega

/-- The literal `1e20`. -/
def exponentLiteral : Json.Number := ⟨js "1e20", by decide⟩

/-- An array of these. -/
def exponents (n : ℕ) : Json := .arr (List.replicate n (.num exponentLiteral))

/-- The text of a request. -/
def requestText (payload : Json) : Json :=
  .obj [(js "tenantId", .str Sample.tenantId), (js "type", .str (js "order.created")),
    (js "payload", payload)]

/-- A request with such a payload. -/
def growingText (n : ℕ) : Json := requestText (exponents n)

theorem printedLength_exponentLiteral : exponentLiteral.printedLength = 21 := by decide +kernel

theorem size_exponents {n : ℕ} (hn : n ≠ 0) : (exponents n).size = 5 * n + 1 := by
  have hne : List.replicate n (Json.num exponentLiteral) ≠ [] := by simpa using hn
  have hone : Json.itemSize (.num exponentLiteral) = 5 := by decide
  rw [exponents, Json.size_arr hne, List.map_replicate, List.sum_replicate, hone, smul_eq_mul]
  omega

theorem printedSize_exponents {n : ℕ} (hn : n ≠ 0) : (exponents n).printedSize = 22 * n + 1 := by
  have hitems : ∀ m, Json.printedItems (List.replicate m (.num exponentLiteral)) = 22 * m := by
    intro m
    induction m with
    | zero => rfl
    | succ m ih =>
        rw [List.replicate_succ, Json.printedItems, ih, Json.printedSize,
          printedLength_exponentLiteral]
        omega
  have hne : (List.replicate n (Json.num exponentLiteral)).isEmpty = false := by
    simpa using hn
  rw [exponents, Json.printedSize, hne, hitems]
  rfl

theorem exponents_ascii (n : ℕ) : JsString.isAscii (exponents n).stringify = true := by
  have hitems : ∀ m, JsString.isAscii
      (Json.stringifyItems (List.replicate m (.num exponentLiteral))) = true := by
    intro m
    induction m with
    | zero => rfl
    | succ m ih =>
        rw [List.replicate_succ, Json.stringifyItems, JsString.isAscii_cons,
          JsString.isAscii_append, ih]
        rfl
  cases n with
  | zero => rfl
  | succ n =>
      rw [exponents, List.replicate_succ, Json.stringify, JsString.isAscii_cons,
        JsString.isAscii_append, hitems]
      rfl

theorem growingText_ascii (n : ℕ) : ∀ u ∈ (growingText n).stringify, u.toNat < 0x80 := by
  have htenant : JsString.isAscii (Json.quote (js "tenantId")) = true := by decide +kernel
  have hid : JsString.isAscii (Json.quote Sample.tenantId) = true := by decide +kernel
  have htype : JsString.isAscii (Json.quote (js "type")) = true := by decide +kernel
  have hcreated : JsString.isAscii (Json.quote (js "order.created")) = true := by decide +kernel
  have hpayload : JsString.isAscii (Json.quote (js "payload")) = true := by decide +kernel
  apply JsString.lt_of_isAscii
  simp only [growingText, requestText, Json.stringify, Json.stringifyMembers,
    JsString.isAscii_cons, JsString.isAscii_append, htenant, hid, htype, hcreated, hpayload,
    exponents_ascii]
  rfl

/-- The body of the request. -/
def growingBody (n : ℕ) : List UInt8 := asciiBytes (growingText n).stringify

theorem length_growingBody {n : ℕ} (hn : n ≠ 0) : (growingBody n).length = 5 * n + 86 := by
  have hmembers : (growingText n).size =
      Json.memberSize (js "tenantId", .str Sample.tenantId) +
        (Json.memberSize (js "type", .str (js "order.created")) +
          (Json.memberSize (js "payload", exponents n) + 0)) + 1 :=
    Json.size_members (List.cons_ne_nil _ _)
  have htenant : Json.memberSize (js "tenantId", .str Sample.tenantId) = 50 := by decide +kernel
  have htype : Json.memberSize (js "type", .str (js "order.created")) = 23 := by decide +kernel
  have hname : (Json.str (js "payload")).size = 9 := by decide +kernel
  have hpayload : Json.memberSize (js "payload", exponents n) = 9 + 1 + (5 * n + 1) + 1 := by
    rw [← hname, ← size_exponents hn]
    rfl
  have hascii : (growingText n).size = (growingText n).stringify.length :=
    JsString.utf8Length_ascii _ (growingText_ascii n)
  rw [growingBody, asciiBytes, List.length_map, ← hascii, hmembers, htenant, htype, hpayload]
  omega

/-- The request is accepted, with the value of its payload. -/
theorem safeParse_requestText (payload : Json) : safeParse (requestText payload).evaluate =
    .ok { tenantId := Sample.tenantId, type := js "order.created"
          payload := some payload.evaluate } := by
  obtain ⟨members, hmembers⟩ : ∃ members, (requestText payload).evaluate = .obj members :=
    ⟨_, by rw [requestText, Json.evaluate]⟩
  have htenant : (Json.obj members).get? (js "tenantId") = some (.str Sample.tenantId) := by
    have hget : (requestText payload).get? (js "tenantId") = some (.str Sample.tenantId) := rfl
    rw [← hmembers, Json.get?_evaluate, hget, Option.map_some, Json.evaluate]
  have htype : (Json.obj members).get? (js "type") = some (.str (js "order.created")) := by
    have hget : (requestText payload).get? (js "type") = some (.str (js "order.created")) := rfl
    rw [← hmembers, Json.get?_evaluate, hget, Option.map_some, Json.evaluate]
  have hpayload : (Json.obj members).get? (js "payload") = some payload.evaluate := by
    rw [← hmembers, Json.get?_evaluate]
    rfl
  have hissues : checkString (some (.str Sample.tenantId)) tenantIdIssues = .ok Sample.tenantId ∧
      checkString (some (.str (js "order.created"))) typeIssues = .ok (js "order.created") := by
    decide +kernel
  rw [hmembers, safeParse]
  simp only [htenant, htype, hpayload, hissues.1, hissues.2]

/-- What the environment answers to the operations of the request. -/
def growingChoice : Op → Choice := fun _ => Sample.choice Sample.firstId 200

/-- The world of the small system. -/
def growingWorld : World := Sample.start.world.world

/-- The bucket of the tenant lets the request through. -/
theorem growing_admitted : ((TokenBucket.consumeTokenScript growingWorld.redis
    (TokenBucket.tenantRateLimitKey Sample.tenantId .ingestion) 10 10 1000 1000).1.1 == 1) =
      true := by
  decide +kernel

/-- **A large payload** is uploaded as it is printed. -/
theorem run_ingestEvent_large {input payload : Json}
    (hparse : safeParse input = .ok { tenantId := Sample.tenantId, type := js "order.created"
                                      payload := some payload })
    (hlarge : 262144 < payloadBytes payload) :
    ∃ w, services.run 0 growingChoice (ingestEvent (Sample.env none) input) growingWorld =
        some (.ok { eventId := Sample.firstId, outboxId := Sample.firstId, storedIn := .s3 }, w) ∧
      w.objects (claimCheckKey Sample.tenantId Sample.firstId) = some payload.stringify := by
  have hstore : decide ((payloadBytes payload : ℚ) > defaultSqsMaxMessageBytes) = true := by
    rw [decide_eq_true_eq, defaultSqsMaxMessageBytes]
    exact_mod_cast hlarge
  have hnormal : TokenBucket.normalizeRateLimitConfig
      (TokenBucket.toOverrides (Sample.env none).ingestionRateLimit) =
        .ok TokenBucket.defaultConfig := by
    decide +kernel
  unfold ingestEvent
  rw [hparse]
  simp only [ingestValid, enforceIngestionRateLimit, consumeTenantToken, hnormal]
  -- the tenant is found and the limit is asked
  change ∃ w, services.run 0 growingChoice ((if ((TokenBucket.consumeTokenScript
    growingWorld.redis (TokenBucket.tenantRateLimitKey Sample.tenantId .ingestion) 10 10 1000
    1000).1.1 == 1) = true then _ else _) >>= _) _ = _ ∧ _
  rw [if_pos growing_admitted]
  change ∃ w, services.run 0 growingChoice (storeEvent Sample.tenantId (js "order.created")
    Sample.firstId payload (decide ((payloadBytes payload : ℚ) > defaultSqsMaxMessageBytes))) _ =
      _ ∧ _
  rw [hstore]
  exact ⟨_, rfl, rfl⟩

/-- A body of `1e20`s is accepted, and what is uploaded for it cannot be read. -/
theorem growing_unreadable {n : ℕ} (hsmall : n ≤ 400000) (hlarge : 190650 < n) :
    (growingBody n).length ≤ bodyLimit ∧
      ∃ text w, bodyText asciiDecode (growingBody n) = some text ∧
        services.run 0 growingChoice (ingestEvent (Sample.env none) text.evaluate) growingWorld =
          some (.ok { eventId := Sample.firstId, outboxId := Sample.firstId, storedIn := .s3 },
            w) ∧
        (∃ stored, w.objects (claimCheckKey Sample.tenantId Sample.firstId) = some stored ∧
          maxArchiveBytes < JsString.utf8Length stored) ∧
        services.run 0 (fun _ => {})
          (readArchivedPayload (claimCheckKey Sample.tenantId Sample.firstId)) w =
            some (.error tooLarge, w) := by
  have hn : n ≠ 0 := by omega
  have hlimit : (growingBody n).length ≤ bodyLimit := by
    rw [length_growingBody hn, bodyLimit]
    omega
  have hsize : (exponents n).evaluate.size = 22 * n + 1 := by
    rw [Json.size_evaluate, printedSize_exponents hn]
  have hmax : maxArchiveBytes < (exponents n).evaluate.size := by
    rw [hsize, maxArchiveBytes]
    omega
  have htext : bodyText asciiDecode (growingBody n) = some (growingText n) := by
    rw [bodyText, if_pos hlimit, growingBody, asciiDecode_asciiBytes (growingText_ascii n),
      Json.parse_stringify]
  have hbytes : 262144 < payloadBytes (exponents n).evaluate := by
    show 262144 < (exponents n).evaluate.size
    rw [hsize]
    omega
  obtain ⟨w, hrun, hobj⟩ := run_ingestEvent_large (safeParse_requestText (exponents n)) hbytes
  have hread := run_readArchivedPayload hobj
  rw [if_neg (not_le.mpr hmax)] at hread
  exact ⟨hlimit, growingText n, w, htext, hrun, ⟨_, hobj, hmax⟩, hread⟩

/-- **Not every accepted event can be inspected**: 200 000 times `1e20` is a body of 1 MB,
which is archived in 4.4 MB. -/
theorem archive_too_large :
    (growingBody 200000).length ≤ bodyLimit ∧
      ∃ text w, bodyText asciiDecode (growingBody 200000) = some text ∧
        services.run 0 growingChoice (ingestEvent (Sample.env none) text.evaluate) growingWorld =
          some (.ok { eventId := Sample.firstId, outboxId := Sample.firstId, storedIn := .s3 },
            w) ∧
        (∃ stored, w.objects (claimCheckKey Sample.tenantId Sample.firstId) = some stored ∧
          maxArchiveBytes < JsString.utf8Length stored) ∧
        services.run 0 (fun _ => {})
          (readArchivedPayload (claimCheckKey Sample.tenantId Sample.firstId)) w =
            some (.error tooLarge, w) :=
  growing_unreadable (by omega) (by omega)

/-- The draft of the small system's request. -/
def nullDraft (d : Draft) : Bool :=
  d.tenantId == Sample.tenantId && d.type == js "order.created" && d.eventId == Sample.firstId &&
    match d.payload with
    | .null => true
    | _ => false

theorem fields_of_nullDraft {d : Draft} (h : nullDraft d = true) :
    d.tenantId = Sample.tenantId ∧ d.type = js "order.created" ∧ d.payload = .null := by
  obtain ⟨eventId, tenantId, type, payload⟩ := d
  simp only [nullDraft, Bool.and_eq_true, beq_iff_eq] at h
  obtain ⟨⟨⟨htenant, htype⟩, -⟩, hpayload⟩ := h
  refine ⟨htenant, htype, ?_⟩
  cases payload with
  | null => rfl
  | _ => cases hpayload

/-- The `null` of a dead-lettered request can be read. -/
theorem archived_readable_sample : ∃ s, Reachable (Sample.env (some (.finite 1))) s ∧
    ∃ d ∈ s.world.world.drafts, SentIn asciiDecode (asciiBytes Sample.input.stringify) d ∧
      ∃ x ∈ s.world.world.deadLetters, x.eventId = d.eventId ∧
        ∃ text, s.world.world.objects x.payloadS3Key = some text ∧
          JsString.utf8Length text ≤ maxArchiveBytes := by
  obtain ⟨s, hs, htest⟩ := Sample.exists_reachable (Sample.env (some (.finite 1)))
    Sample.replayed (fun s => s.world.world.drafts.any (fun d => nullDraft d &&
      s.world.world.deadLetters.any (fun x => x.eventId == d.eventId)))
    (by decide +kernel)
  obtain ⟨d, hd, hboth⟩ := List.any_eq_true.mp htest
  obtain ⟨hdraft, hletter⟩ := (Bool.and_eq_true _ _).mp hboth
  obtain ⟨x, hx, hid⟩ := List.any_eq_true.mp hletter
  rw [beq_iff_eq] at hid
  have hascii : ∀ u ∈ Sample.input.stringify, u.toNat < 0x80 :=
    JsString.lt_of_isAscii (by decide +kernel)
  have hlimit : (asciiBytes Sample.input.stringify).length ≤ bodyLimit := by decide +kernel
  have htext : bodyText asciiDecode (asciiBytes Sample.input.stringify) = some Sample.input := by
    rw [bodyText, if_pos hlimit, asciiDecode_asciiBytes hascii, Json.parse_stringify]
  have hsent : SentIn asciiDecode (asciiBytes Sample.input.stringify) d := by
    obtain ⟨htenant, htype, hpayload⟩ := fields_of_nullDraft hdraft
    refine ⟨Sample.input, htext, ?_⟩
    rw [htenant, htype, hpayload]
    exact safeParse_requestText .null
  have hdescends : DescendsFrom s.world.world.toRecords d.eventId x.eventId := hid ▸ .refl
  obtain ⟨written, hwritten, hall, -⟩ := archived_readable_iff hs _ _ d hd hsent
  obtain ⟨stored, hstored, hiff, -⟩ := hall x hx hdescends
  rw [writtenPayload, htext] at hwritten
  obtain rfl : Json.null = written := Option.some.inj hwritten
  exact ⟨s, hs, d, hd, hsent, x, hx, hid, stored, hstored, hiff.mpr (by decide)⟩

end Archive
