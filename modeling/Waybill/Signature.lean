/-
# Signed delivery (`shared/src/webhook-signature.ts`, `shared/scripts/webhook-receiver.ts`)

A webhook carries the HMAC of its body in a header, in hexadecimal.  HMAC-SHA256 itself is an
arbitrary function of a secret and bytes to 32 bytes.

* `verifyWebhookSignature_eq`: exactly one header is accepted for a body and a secret.
* `receive_ok_iff`: the requests that the receiver answers with 200.
* `signed_delivery`: both, and that what `postWebhook` sends is among these.
-/
import Waybill.FatalUtf8
import Waybill.Worker

namespace Webhook

/-! ## Hexadecimal -/

/-- `digest("hex")`. -/
def hex : List UInt8 → JsString
  | [] => []
  | b :: bytes => Json.hexDigit (b.toNat / 16) :: Json.hexDigit (b.toNat % 16) :: hex bytes

/-- `[0-9a-f]`. -/
def isLowerHex (u : UInt16) : Bool :=
  (48 ≤ u.toNat && u.toNat ≤ 57) || (97 ≤ u.toNat && u.toNat ≤ 102)

/-- `Buffer.from(text, "hex")`: the pairs of digits, up to where there is none. -/
def ofHex : JsString → List UInt8
  | a :: b :: rest =>
      match Json.hexValue a, Json.hexValue b with
      | some x, some y => UInt8.ofNat (x * 16 + y) :: ofHex rest
      | _, _ => []
  | _ => []

theorem isLowerHex_hexDigit : ∀ n < 16, isLowerHex (Json.hexDigit n) = true := by decide

theorem length_hex (bytes : List UInt8) : (hex bytes).length = 2 * bytes.length := by
  induction bytes with
  | nil => rfl
  | cons b bytes ih =>
      rw [hex, List.length_cons, List.length_cons, List.length_cons, ih]
      omega

theorem isLowerHex_hex (bytes : List UInt8) : (hex bytes).all isLowerHex = true := by
  induction bytes with
  | nil => rfl
  | cons b bytes ih =>
      have hb := b.toNat_lt
      rw [hex, List.all_cons, List.all_cons, isLowerHex_hexDigit _ (by omega),
        isLowerHex_hexDigit _ (by omega), ih]
      rfl

theorem ofHex_hex (bytes : List UInt8) : ofHex (hex bytes) = bytes := by
  induction bytes with
  | nil => rfl
  | cons b bytes ih =>
      have hb := b.toNat_lt
      have hbyte : b.toNat / 16 * 16 + b.toNat % 16 = b.toNat := by omega
      rw [hex, ofHex, Json.hexValue_hexDigit _ (by omega), Json.hexValue_hexDigit _ (by omega)]
      show UInt8.ofNat (b.toNat / 16 * 16 + b.toNat % 16) :: ofHex (hex bytes) = b :: bytes
      rw [hbyte, UInt8.ofNat_toNat, ih]

/-- A lower-case digit is the digit of its value. -/
theorem exists_hexDigit {u : UInt16} (h : isLowerHex u = true) :
    ∃ n < 16, u = Json.hexDigit n := by
  simp only [isLowerHex, Bool.or_eq_true, Bool.and_eq_true, decide_eq_true_eq] at h
  by_cases hdigit : u.toNat ≤ 57
  · refine ⟨u.toNat - 48, by omega, ?_⟩
    have hu : 48 + (u.toNat - 48) = u.toNat := by omega
    rw [Json.hexDigit, if_pos (by omega), hu, UInt16.ofNat_toNat]
  · refine ⟨u.toNat - 87, by omega, ?_⟩
    have hu : 87 + (u.toNat - 87) = u.toNat := by omega
    rw [Json.hexDigit, if_neg (by omega), hu, UInt16.ofNat_toNat]

/-- **Pairs of lower-case digits are bytes**, written in one way only. -/
theorem exists_hex {n : ℕ} {text : JsString} (hlength : text.length = 2 * n)
    (h : text.all isLowerHex = true) : ∃ bytes, bytes.length = n ∧ text = hex bytes := by
  induction n generalizing text with
  | zero => exact ⟨[], rfl, List.length_eq_zero_iff.mp hlength⟩
  | succ n ih =>
      obtain ⟨a, rest, rfl⟩ := List.exists_cons_of_length_pos (l := text) (by omega)
      obtain ⟨b, rest, rfl⟩ := List.exists_cons_of_length_pos (l := rest) (by
        rw [List.length_cons] at hlength
        omega)
      rw [List.length_cons, List.length_cons] at hlength
      rw [List.all_cons, List.all_cons, Bool.and_eq_true, Bool.and_eq_true] at h
      obtain ⟨ha, hb, hrest⟩ := h
      obtain ⟨x, hx, rfl⟩ := exists_hexDigit ha
      obtain ⟨y, hy, rfl⟩ := exists_hexDigit hb
      obtain ⟨bytes, hbytes, rfl⟩ := ih (by omega) hrest
      refine ⟨UInt8.ofNat (x * 16 + y) :: bytes, by rw [List.length_cons, hbytes], ?_⟩
      have hnat : (UInt8.ofNat (x * 16 + y)).toNat = x * 16 + y := by
        rw [UInt8.toNat_ofNat', Nat.mod_eq_of_lt (by omega)]
      have hfirst : (x * 16 + y) / 16 = x := by omega
      have hsecond : (x * 16 + y) % 16 = y := by omega
      rw [hex, hnat, hfirst, hsecond]

/-! ## `webhook-signature.ts` -/

/-- 32 bytes. -/
abbrev Digest := { bytes : List UInt8 // bytes.length = 32 }

/-- `WebhookBody`. -/
inductive Body where
  | text (s : JsString)
  | bytes (b : List UInt8)

/-- What is hashed: a string as UTF-8. -/
def Body.toBytes : Body → List UInt8
  | text s => Utf8.encode s
  | bytes b => b

/-- `/^sha256=[0-9a-f]{64}$/`. -/
def isSignature (signature : JsString) : Bool :=
  signature.take 7 == js "sha256=" && (signature.drop 7).length == 64 &&
    (signature.drop 7).all isLowerHex

/-- `timingSafeEqual` throws on buffers of different lengths. -/
def timingSafeEqual (a b : List UInt8) : Except JsError Bool :=
  if a.length = b.length then .ok (a == b)
  else
    .error { name := js "RangeError"
             message := js "Input buffers must have the same byte length" }

section

variable (hmacSha256 : JsString → List UInt8 → Digest)

/-- The header for a body. -/
def headerOf (body : Body) (secret : JsString) : JsString :=
  js "sha256=" ++ hex (hmacSha256 secret body.toBytes)

/-- `signWebhook`. -/
def signWebhook (body : Body) (secret : JsString) : Except JsError JsString :=
  if secret.length = 0 then .error { message := js "Webhook signing secret must not be empty" }
  else .ok (headerOf hmacSha256 body secret)

/-- `verifyWebhookSignature`. -/
def verifyWebhookSignature (body : Body) (signature : Option JsString) (secret : JsString) :
    Except JsError Bool :=
  match signature with
  | none => .ok false
  | some signature =>
      if secret.isEmpty || signature.isEmpty || !isSignature signature then .ok false
      else
        (signWebhook hmacSha256 body secret).bind (fun expected =>
          timingSafeEqual (ofHex (expected.drop 7)) (ofHex (signature.drop 7)))

/-! ## `webhook-receiver.ts` -/

/-- What the receiver reads of a request; its body may fail to arrive. -/
structure Request where
  method : JsString
  pathname : JsString
  signature : Option JsString
  body : Except JsError (List UInt8)

/-- What it answers. -/
structure Response where
  status : ℕ
  body : JsString
  deriving DecidableEq

/-- `typeof body !== "object" || body === null || !("tenantId" in body) || …`. -/
def hasTenant (tenantId : JsString) (body : Json) : Bool :=
  match body with
  | .obj members =>
      match (Json.obj members).get? (js "tenantId") with
      | some (.str s) => s == tenantId
      | _ => false
  | _ => false

/-- The handler of `createWebhookReceiver`. -/
def receive (tenantId secret : JsString) (req : Request) : Except JsError Response :=
  if req.method ≠ js "POST" ∨ req.pathname ≠ js "/webhook" then .ok ⟨404, js "not found"⟩
  else
    match req.body with
    | .error _ => .ok ⟨400, js "could not read request body"⟩
    | .ok bytes =>
        (verifyWebhookSignature hmacSha256 (.bytes bytes) req.signature secret).map (fun valid =>
          if !valid then ⟨401, js "invalid signature"⟩
          else
            match (Utf8.decodeFatal bytes).bind Json.parse with
            | none => ⟨400, js "invalid JSON"⟩
            | some body =>
                if hasTenant tenantId body then
                  ⟨200, (Json.obj [(js "ok", .bool true)]).stringify⟩
                else ⟨403, js "unexpected tenant"⟩)

/-- `createWebhookReceiver`. -/
def createWebhookReceiver (tenantId secret : JsString) :
    Except JsError (Request → Except JsError Response) :=
  if tenantId.isEmpty || secret.isEmpty then
    .error { message := js "Receiver tenant ID and secret are required" }
  else .ok (receive hmacSha256 tenantId secret)

end

/-! ## One header for a body -/

section

variable {hmacSha256 : JsString → List UInt8 → Digest} {body : Body} {secret : JsString}

theorem drop_headerOf :
    (headerOf hmacSha256 body secret).drop 7 = hex (hmacSha256 secret body.toBytes) := by
  rw [headerOf]
  exact List.drop_left' rfl

theorem take_headerOf : (headerOf hmacSha256 body secret).take 7 = js "sha256=" := by
  rw [headerOf]
  exact List.take_left' rfl

theorem isSignature_headerOf : isSignature (headerOf hmacSha256 body secret) = true := by
  rw [isSignature, take_headerOf, drop_headerOf, length_hex,
    (hmacSha256 secret body.toBytes).2, isLowerHex_hex]
  rfl

/-- A header of the right form is the prefix and 32 bytes in hexadecimal. -/
theorem exists_of_isSignature {signature : JsString} (h : isSignature signature = true) :
    ∃ bytes, bytes.length = 32 ∧ signature = js "sha256=" ++ hex bytes := by
  rw [isSignature, Bool.and_eq_true, Bool.and_eq_true, beq_iff_eq, beq_iff_eq] at h
  obtain ⟨⟨hleading, hlength⟩, hall⟩ := h
  obtain ⟨bytes, hbytes, hrest⟩ := exists_hex (n := 32) hlength hall
  refine ⟨bytes, hbytes, ?_⟩
  rw [← hleading, ← hrest, List.take_append_drop]

/-- **One header is accepted**: the one that `signWebhook` gives, character for character.  In
particular the comparison of the digests is never made on different lengths. -/
theorem verifyWebhookSignature_eq (hsecret : secret ≠ []) (signature : Option JsString) :
    verifyWebhookSignature hmacSha256 body signature secret =
      .ok (decide (signature = some (headerOf hmacSha256 body secret))) := by
  have hfilled : secret.isEmpty = false := List.isEmpty_eq_false_iff.mpr hsecret
  have hsigned : signWebhook hmacSha256 body secret = .ok (headerOf hmacSha256 body secret) := by
    rw [signWebhook, if_neg (fun hlength => hsecret (List.length_eq_zero_iff.mp hlength))]
  unfold verifyWebhookSignature
  cases signature with
  | none => rfl
  | some signature =>
      by_cases hform : isSignature signature = true
      · obtain ⟨bytes, hbytes, rfl⟩ := exists_of_isSignature hform
        have hdrop : (js "sha256=" ++ hex bytes).drop 7 = hex bytes := List.drop_left' rfl
        have hlength : (ofHex (hex (hmacSha256 secret body.toBytes))).length =
            (ofHex (hex bytes)).length := by
          rw [ofHex_hex, ofHex_hex, hbytes, (hmacSha256 secret body.toBytes).2]
        have hiff : (hmacSha256 secret body.toBytes : List UInt8) = bytes ↔
            some (js "sha256=" ++ hex bytes) = some (headerOf hmacSha256 body secret) := by
          rw [Option.some_inj, headerOf, List.append_cancel_left_eq]
          constructor
          · rintro rfl
            rfl
          · intro heq
            rw [← ofHex_hex bytes, heq, ofHex_hex]
        simp only [hfilled, hform, hsigned]
        show timingSafeEqual (ofHex ((headerOf hmacSha256 body secret).drop 7))
          (ofHex ((js "sha256=" ++ hex bytes).drop 7)) = _
        rw [drop_headerOf, hdrop, timingSafeEqual, if_pos hlength, ofHex_hex, ofHex_hex]
        congr 1
        rw [Bool.eq_iff_iff, beq_iff_eq, decide_eq_true_eq, hiff]
      · have hne : some signature ≠ some (headerOf hmacSha256 body secret) := by
          intro heq
          rw [Option.some.inj heq] at hform
          exact hform isSignature_headerOf
        rw [Bool.not_eq_true] at hform
        simp [hform, hne]

/-- An empty secret verifies nothing. -/
theorem verifyWebhookSignature_empty (signature : Option JsString) :
    verifyWebhookSignature hmacSha256 body signature [] = .ok false := by
  cases signature with
  | none => rfl
  | some signature => rfl

end

/-! ## What the receiver answers with 200 -/

section

variable {hmacSha256 : JsString → List UInt8 → Digest} {tenantId secret : JsString}

/-- The value of a signed body names the tenant. -/
theorem hasTenant_iff {body : Json} : hasTenant tenantId body = true ↔
    ∃ members, body = .obj members ∧
      (Json.obj members).get? (js "tenantId") = some (.str tenantId) := by
  cases body with
  | obj members =>
      simp only [hasTenant]
      constructor
      · intro h
        cases hget : (Json.obj members).get? (js "tenantId") with
        | none => simp [hget] at h
        | some v =>
            cases v with
            | str s =>
                simp only [hget, beq_iff_eq] at h
                subst h
                exact ⟨members, rfl, hget⟩
            | _ => simp [hget] at h
      · rintro ⟨members', heq, hget⟩
        obtain rfl := Json.obj.inj heq
        simp [hget]
  | _ =>
      constructor
      · intro h
        cases h
      · rintro ⟨members, heq, -⟩
        cases heq

/-- A body that the receiver accepts: well-formed UTF-8, after an optional byte-order mark, of a
JSON object that names the tenant. -/
def Genuine (tenantId : JsString) (bytes : List UInt8) : Prop :=
  ∃ text members, Json.WellFormed text ∧ Utf8.dropBom bytes = Utf8.encode text ∧
    Json.parse text = some (.obj members) ∧
    (Json.obj members).get? (js "tenantId") = some (.str tenantId)

theorem genuine_iff {bytes : List UInt8} : Genuine tenantId bytes ↔
    ∃ body, (Utf8.decodeFatal bytes).bind Json.parse = some body ∧
      hasTenant tenantId body = true := by
  constructor
  · rintro ⟨text, members, hformed, hbytes, hparse, hget⟩
    have hdecode : Utf8.decodeFatal bytes = some text :=
      Utf8.decodeStrict_eq_some_iff.mpr ⟨hformed, hbytes.symm⟩
    exact ⟨.obj members, by rw [hdecode, Option.bind_some, hparse],
      hasTenant_iff.mpr ⟨members, rfl, hget⟩⟩
  · rintro ⟨body, hbody, htenant⟩
    obtain ⟨text, hdecode, hparse⟩ := Option.bind_eq_some_iff.mp hbody
    obtain ⟨hformed, hencode⟩ := Utf8.decodeStrict_eq_some_iff.mp hdecode
    obtain ⟨members, rfl, hget⟩ := hasTenant_iff.mp htenant
    exact ⟨text, members, hformed, hencode.symm, hparse, hget⟩

/-- **The receiver answers 200** exactly to signed requests that name its tenant; whatever is
sent, it answers. -/
theorem receive_ok_iff (hsecret : secret ≠ []) (req : Request) :
    ∃ response, receive hmacSha256 tenantId secret req = .ok response ∧
      (response.status = 200 ↔
        req.method = js "POST" ∧ req.pathname = js "/webhook" ∧
          ∃ bytes, req.body = .ok bytes ∧
            req.signature = some (headerOf hmacSha256 (.bytes bytes) secret) ∧
            Genuine tenantId bytes) := by
  unfold receive
  -- another route is not found, whatever it carries
  by_cases hroute : req.method ≠ js "POST" ∨ req.pathname ≠ js "/webhook"
  · rw [if_pos hroute]
    refine ⟨_, rfl, ?_⟩
    constructor
    · intro h
      cases h
    · rintro ⟨hmethod, hpath, -⟩
      rcases hroute with h | h
      · exact absurd hmethod h
      · exact absurd hpath h
  rw [if_neg hroute]
  rw [not_or, not_not, not_not] at hroute
  obtain ⟨hmethod, hpath⟩ := hroute
  cases hbody : req.body with
  | error e =>
      refine ⟨_, rfl, ?_⟩
      constructor
      · intro h
        cases h
      · rintro ⟨-, -, bytes, hbytes, -⟩
        cases hbytes
  | ok bytes =>
      simp only [verifyWebhookSignature_eq hsecret, Except.map]
      refine ⟨_, rfl, ?_⟩
      -- the signature is checked before the body is read
      by_cases hsigned : req.signature = some (headerOf hmacSha256 (.bytes bytes) secret)
      · simp only [hsigned, decide_true, Bool.not_true, Bool.false_eq_true, if_false]
        cases hvalue : (Utf8.decodeFatal bytes).bind Json.parse with
        | none =>
            constructor
            · intro h
              cases h
            · rintro ⟨-, -, bytes', hbytes, -, hgenuine⟩
              obtain rfl := Except.ok.inj hbytes
              obtain ⟨body, hbody', -⟩ := genuine_iff.mp hgenuine
              rw [hvalue] at hbody'
              cases hbody'
        | some body =>
            -- a body of another tenant is refused
            by_cases htenant : hasTenant tenantId body = true
            · simp only [htenant, if_true, true_iff]
              exact ⟨hmethod, hpath, bytes, rfl, rfl, genuine_iff.mpr ⟨body, hvalue, htenant⟩⟩
            · simp only [if_neg htenant]
              constructor
              · intro h
                cases h
              · rintro ⟨-, -, bytes', hbytes, -, hgenuine⟩
                obtain rfl := Except.ok.inj hbytes
                obtain ⟨body', hbody', htenant'⟩ := genuine_iff.mp hgenuine
                obtain rfl := Option.some.inj (hvalue.symm.trans hbody')
                exact absurd htenant' htenant
      · simp only [hsigned, decide_false, Bool.not_false, if_true]
        constructor
        · intro h
          cases h
        · rintro ⟨-, -, bytes', hbytes, hheader, -⟩
          obtain rfl := Except.ok.inj hbytes
          exact absurd hheader hsigned

end

/-! ## What the worker sends -/

/-- The request that a `fetch` of the worker arrives as, at a receiver that finds the path of
the URL to be `pathname`. -/
def requestOf (pathname body signature : JsString) : Request where
  method := js "POST"
  pathname := pathname
  signature := some signature
  body := .ok (Utf8.encode body)

/-- The environment of a worker that hashes with `hmacSha256`. -/
def hashing (hmacSha256 : JsString → List UInt8 → Digest) (env : Env) : Env :=
  { env with
    hmacSha256Hex := fun secret body => hex (hmacSha256 secret (Utf8.encode body)) }

/-- `postWebhook` makes one request, with the header of the text it sends. -/
theorem postWebhook_eq (hmacSha256 : JsString → List UInt8 → Digest) (env : Env)
    (url : JsString) (body : Json) {secret : JsString} (hsecret : secret ≠ []) :
    ∃ k, Worker.postWebhook (hashing hmacSha256 env) url body secret =
        .call (.fetch url body.stringify (headerOf hmacSha256 (.text body.stringify) secret)) k ∧
      ∀ r, ∃ result, k r = .ret result := by
  have hfilled : secret.isEmpty = false := List.isEmpty_eq_false_iff.mpr hsecret
  have hsign : Worker.signWebhook (hashing hmacSha256 env) body.stringify secret =
      .ret (headerOf hmacSha256 (.text body.stringify) secret) := by
    rw [Worker.signWebhook, hfilled]
    rfl
  unfold Worker.postWebhook
  simp only [hsign]
  refine ⟨_, rfl, ?_⟩
  intro r
  cases r with
  | error e => exact ⟨_, rfl⟩
  | ok status =>
      by_cases hok : statusOk status = true
      · exact ⟨_, if_pos hok⟩
      · exact ⟨_, if_neg hok⟩

/-- A JSON object that names the tenant is a genuine body. -/
theorem genuine_stringify {tenantId : JsString} {members : List (JsString × Json)}
    (h : (Json.obj members).get? (js "tenantId") = some (.str tenantId)) :
    Genuine tenantId (Utf8.encode (Json.obj members).stringify) := by
  rw [genuine_iff]
  refine ⟨.obj members, ?_, hasTenant_iff.mpr ⟨members, rfl, h⟩⟩
  rw [Utf8.decodeFatal_stringify, Option.bind_some, Json.parse_stringify]

/-- **Signed delivery is accepted exactly when it is genuine.**  Verification never throws and
accepts one header for a body, the same for a string and for its bytes, and none without a
secret; the receiver answers 200 to the requests with that header whose body names its tenant,
and to what the worker sends for such a body. -/
theorem signed_delivery (hmacSha256 : JsString → List UInt8 → Digest) :
    (∀ body signature secret, secret ≠ [] →
      ∃ valid, verifyWebhookSignature hmacSha256 body signature secret = .ok valid ∧
        (valid = true ↔
          ∃ text, signature = some text ∧ signWebhook hmacSha256 body secret = .ok text)) ∧
    (∀ s secret, signWebhook hmacSha256 (.text s) secret =
        signWebhook hmacSha256 (.bytes (Utf8.encode s)) secret ∧
      ∀ signature, verifyWebhookSignature hmacSha256 (.text s) signature secret =
        verifyWebhookSignature hmacSha256 (.bytes (Utf8.encode s)) signature secret) ∧
    (∀ body signature, verifyWebhookSignature hmacSha256 body signature [] = .ok false) ∧
    ∀ tenantId secret, tenantId ≠ [] → secret ≠ [] →
      ∃ handle, createWebhookReceiver hmacSha256 tenantId secret = .ok handle ∧
        (∀ req, ∃ response, handle req = .ok response ∧
          (response.status = 200 ↔
            req.method = js "POST" ∧ req.pathname = js "/webhook" ∧
              ∃ bytes, req.body = .ok bytes ∧
                (∃ text, req.signature = some text ∧
                  signWebhook hmacSha256 (.bytes bytes) secret = .ok text) ∧
                Genuine tenantId bytes)) ∧
        ∀ env url members,
          (Json.obj members).get? (js "tenantId") = some (.str tenantId) →
          ∃ text signature k,
            Worker.postWebhook (hashing hmacSha256 env) url (.obj members) secret =
              .call (.fetch url text signature) k ∧
            (∀ r, ∃ result, k r = .ret result) ∧
            ∃ response, handle (requestOf (js "/webhook") text signature) = .ok response ∧
              response.status = 200 := by
  -- with a secret, signing is printing the digest
  have hsign : ∀ (body : Body) (secret signature : JsString), secret ≠ [] →
      (signWebhook hmacSha256 body secret = .ok signature ↔
        signature = headerOf hmacSha256 body secret) := by
    intro body secret signature hsecret
    rw [signWebhook, if_neg (fun hlength => hsecret (List.length_eq_zero_iff.mp hlength))]
    constructor
    · intro h
      exact (Except.ok.inj h).symm
    · rintro rfl
      rfl
  have hheader : ∀ (body : Body) (secret : JsString) (signature : Option JsString), secret ≠ [] →
      (signature = some (headerOf hmacSha256 body secret) ↔
        ∃ text, signature = some text ∧ signWebhook hmacSha256 body secret = .ok text) := by
    intro body secret signature hsecret
    constructor
    · rintro rfl
      exact ⟨_, rfl, (hsign body secret _ hsecret).mpr rfl⟩
    · rintro ⟨text, rfl, htext⟩
      rw [(hsign body secret text hsecret).mp htext]
  refine ⟨?_, fun s secret => ⟨rfl, fun signature => rfl⟩,
    fun body signature => verifyWebhookSignature_empty signature, ?_⟩
  · intro body signature secret hsecret
    refine ⟨_, verifyWebhookSignature_eq hsecret signature, ?_⟩
    rw [decide_eq_true_eq]
    exact hheader body secret signature hsecret
  · intro tenantId secret htenant hsecret
    have hcreated : createWebhookReceiver hmacSha256 tenantId secret =
        .ok (receive hmacSha256 tenantId secret) := by
      rw [createWebhookReceiver, List.isEmpty_eq_false_iff.mpr htenant,
        List.isEmpty_eq_false_iff.mpr hsecret]
      rfl
    refine ⟨_, hcreated, ?_, ?_⟩
    -- the receiver
    · intro req
      obtain ⟨response, hresponse, hiff⟩ :=
        @receive_ok_iff hmacSha256 tenantId secret hsecret req
      refine ⟨response, hresponse, ?_⟩
      rw [hiff]
      simp only [hheader _ _ _ hsecret]
    -- the worker signs the text it posts, so the receiver's digest is the same
    · intro env url members hget
      obtain ⟨k, hcall, hends⟩ := postWebhook_eq hmacSha256 env url (.obj members) hsecret
      refine ⟨_, _, k, hcall, hends, ?_⟩
      obtain ⟨response, hresponse, hiff⟩ := @receive_ok_iff hmacSha256 tenantId secret hsecret
        (requestOf (js "/webhook") (Json.obj members).stringify
          (headerOf hmacSha256 (.text (Json.obj members).stringify) secret))
      exact ⟨response, hresponse, hiff.mpr ⟨rfl, rfl, _, rfl, rfl, genuine_stringify hget⟩⟩

namespace Sample

/-- What stands for the digests that no sample is about. -/
def noDigest : Digest := ⟨List.replicate 32 0, rfl⟩

/-- An event of the tenant `t`. -/
def payload : Json := .obj [(js "tenantId", .str (js "t"))]

/-- HMAC-SHA256 of its text, with the secret `s`. -/
def hmacSha256 (secret : JsString) (bytes : List UInt8) : Digest :=
  if secret = js "s" ∧ bytes = Utf8.encode payload.stringify then
    ⟨[153, 175, 67, 18, 129, 39, 159, 248, 210, 214, 191, 42, 55, 103, 156, 28,
      192, 128, 171, 194, 209, 33, 92, 208, 99, 216, 37, 243, 114, 36, 51, 3], rfl⟩
  else noDigest

/-- The header that goes with it. -/
def header : JsString :=
  js "sha256=99af431281279ff8d2d6bf2a37679c1cc080abc2d1215cd063d825f372243303"

end Sample

/-- An event of a tenant is signed, and accepted by its receiver with its own signature alone. -/
theorem signed_delivery_accepted : ∃ handle,
    createWebhookReceiver Sample.hmacSha256 (js "t") (js "s") = .ok handle ∧
      (∀ signature, verifyWebhookSignature Sample.hmacSha256 (.text Sample.payload.stringify)
        signature (js "s") = .ok (decide (signature = some Sample.header))) ∧
      ∀ env url, ∃ text k,
        Worker.postWebhook (hashing Sample.hmacSha256 env) url Sample.payload (js "s") =
          .call (.fetch url text Sample.header) k ∧
        ∃ response, handle (requestOf (js "/webhook") text Sample.header) = .ok response ∧
          response.status = 200 := by
  have hsigned : headerOf Sample.hmacSha256 (.text Sample.payload.stringify) (js "s") =
      Sample.header := by decide +kernel
  obtain ⟨hverify, -, -, hreceiver⟩ := signed_delivery Sample.hmacSha256
  obtain ⟨handle, hcreated, -, hsent⟩ := hreceiver (js "t") (js "s") (by decide) (by decide)
  refine ⟨handle, hcreated, ?_, ?_⟩
  · intro signature
    obtain ⟨valid, hvalid, hiff⟩ :=
      hverify (.text Sample.payload.stringify) signature (js "s") (by decide)
    have hheader : signWebhook Sample.hmacSha256 (.text Sample.payload.stringify) (js "s") =
        .ok Sample.header := congrArg Except.ok hsigned
    rw [hvalid, Bool.eq_iff_iff.mpr (hiff.trans ?_)]
    rw [decide_eq_true_eq]
    constructor
    · rintro ⟨text, rfl, htext⟩
      rw [Except.ok.inj (hheader.symm.trans htext)]
    · rintro rfl
      exact ⟨_, rfl, hheader⟩
  · intro env url
    obtain ⟨text, signature, k, hcall, -, response, hresponse, hstatus⟩ :=
      hsent env url [(js "tenantId", .str (js "t"))] rfl
    obtain ⟨k', hcall', -⟩ := postWebhook_eq Sample.hmacSha256 env url Sample.payload
      (show js "s" ≠ [] by decide)
    have hsame := Prog.call.inj (hcall.symm.trans hcall')
    obtain ⟨-, rfl, rfl⟩ := Op.fetch.inj hsame.1
    rw [hsigned] at hcall hresponse
    exact ⟨_, k, hcall, response, hresponse, hstatus⟩

end Webhook
