/-
# Identity (`api/src/services/auth.ts`, `services/api-keys.ts`, `middleware/auth.ts`)

Sign-in with GitHub, sessions, memberships and API keys.  The tables are lists of rows; every
function of the repositories is one operation on them, or the statements of its transaction.
SHA-256 is an arbitrary function of bytes to 32 bytes.

* `cookieToken`, `bearer?`: the credentials in the headers of a request.
* `Directory`: the tables, and what was done to them so far.
* `begin`, `complete`, `authorize`, `logout`, `issue`, `revoke`, `guard`: the services as programs
  over the operations.
-/
import Waybill.Base64Url
import Waybill.Cursors
import Waybill.NumberTexts
import Waybill.Signature

namespace Identity

open Webhook (Digest hex ofHex isLowerHex timingSafeEqual)

/-! ## Tokens (`services/auth-tokens.ts`) -/

/-- `validToken`: 43 letters of base64url. -/
def validToken (s : JsString) : Bool := s.length == 43 && s.all Base64Url.isLetter

/-- The token in the only cookie of a name. -/
def cookieToken (header : Option JsString) (name : JsString) : Option JsString :=
  let values := ((((header.getD []).splitOn 59).map JsString.trim).filter
    (fun part => (name ++ [61]).isPrefixOf part)).map (fun part => part.drop (name.length + 1))
  match values with
  | [value] => if validToken value then some value else none
  | _ => none

/-- `cookieNames`: of the session and of the sign-in. -/
def cookieNames (secure : Bool) : JsString × JsString :=
  if secure then (js "__Host-waybill-session", js "__Host-waybill-oauth")
  else (js "waybill-session", js "waybill-oauth")

/-- `newToken` of an API key. -/
def keyToken (id secret : JsString) : JsString := js "wb_" ++ id ++ js "." ++ secret

/-- An ASCII letter without its case. -/
def lower (u : UInt16) : UInt16 := if 65 ≤ u.toNat ∧ u.toNat ≤ 90 then u + 32 else u

/-- `bearerPattern.exec`: the token and the id in it. -/
def bearer? (header : JsString) : Option (JsString × JsString) :=
  let token := header.drop 7
  let id := (token.drop 3).take 36
  if (header.take 7).map lower = js "bearer " ∧ (token.take 3).map lower = js "wb_" ∧
      Api.isUuid id = true ∧ (token.drop 39).take 1 = js "." ∧
      validToken (token.drop 40) = true then
    some (token, id)
  else none

section

variable (sha256 : List UInt8 → Digest)

/-- `tokenHash`. -/
def tokenHash (value : JsString) : JsString := hex (sha256 (Utf8.encode value))

/-- `tokensEqual`. -/
def tokensEqual (left right : JsString) : Except JsError Bool :=
  timingSafeEqual (ofHex (tokenHash sha256 left)) (ofHex (tokenHash sha256 right))

end

/-! ## Rows -/

structure User where
  id : JsString
  githubId : JsString
  githubLogin : JsString
  deriving DecidableEq

structure Membership where
  userId : JsString
  tenantId : JsString
  deriving DecidableEq

structure OAuthLogin where
  stateHash : JsString
  browserHash : JsString
  codeVerifier : JsString
  expiresAt : ℤ
  deriving DecidableEq

structure AuthSession where
  tokenHash : JsString
  userId : JsString
  csrfToken : JsString
  expiresAt : ℤ
  deriving DecidableEq

structure ApiKey where
  id : JsString
  tenantId : JsString
  createdByUserId : JsString
  name : JsString
  tokenHash : JsString
  expiresAt : ℤ
  revokedAt : Option ℤ
  createdAt : ℤ
  deriving DecidableEq

/-- What `githubIdentity` returns. -/
structure GithubIdentity where
  githubId : JsString
  githubLogin : JsString
  deriving DecidableEq

/-- A session to create. -/
structure NewSession where
  tokenHash : JsString
  csrfToken : JsString
  expiresAt : ℤ

/-- A key to create. -/
structure NewKey where
  id : JsString
  tenantId : JsString
  createdByUserId : JsString
  name : JsString
  tokenHash : JsString
  expiresAt : ℤ

/-- What `findSession` selects. -/
structure Session where
  tokenHash : JsString
  csrfToken : JsString
  expiresAt : ℤ
  user : User
  memberships : List JsString
  deriving DecidableEq

/-! ## The tables -/

/-- What was done: by which call, and to which row. -/
inductive Entry where
  | begun (pid : ℕ) (login : OAuthLogin)
  | consumed (pid : ℕ) (login : OAuthLogin) (now : ℤ)
  | refused (pid : ℕ)
  | opened (pid : ℕ) (session : AuthSession) (previous : Option JsString)
  | closed (pid : ℕ) (tokenHash : JsString)
  | issued (pid : ℕ) (key : ApiKey)
  | revoked (pid : ℕ) (tenantId id : JsString)
  | granted (membership : Membership)
  | removed (membership : Membership)
  deriving DecidableEq

/-- The call that did it. -/
def Entry.pid? : Entry → Option ℕ
  | begun pid _ => some pid
  | consumed pid _ _ => some pid
  | refused pid => some pid
  | opened pid _ _ => some pid
  | closed pid _ => some pid
  | issued pid _ => some pid
  | revoked pid _ _ => some pid
  | granted _ => none
  | removed _ => none

/-- The tables and the clock; the tokens and the ids that were drawn and the times that were read,
with the calls that did it; and what was done so far, the last entry first. -/
structure Directory where
  clock : ℤ
  tenants : List JsString
  users : List User
  memberships : List Membership
  logins : List OAuthLogin
  sessions : List AuthSession
  apiKeys : List ApiKey
  tokens : List (ℕ × JsString)
  ids : List (ℕ × JsString)
  readings : List (ℕ × ℤ)
  log : List Entry

/-! ## Operations -/

/-- The operations of the services. -/
inductive Op where
  | now
  | newToken
  | randomUUID
  | createLogin (input : OAuthLogin)
  | findLogin (stateHash : JsString)
  | deleteLogin (stateHash browserHash : JsString) (now : ℤ)
  | githubIdentity (code codeVerifier : JsString)
  | createSession (identity : GithubIdentity) (session : NewSession)
      (previousHash : Option JsString)
  | findSession (tokenHash : JsString) (now : ℤ)
  | deleteSession (tokenHash : JsString)
  | createKey (input : NewKey)
  | findKey (id : JsString)
  | revokeKey (tenantId id : JsString) (now : ℤ)

/-- Their answers. -/
def Op.Res : Op → Type
  | now => ℤ
  | newToken => JsString
  | randomUUID => JsString
  | createLogin _ => Unit
  | findLogin _ => Option OAuthLogin
  | deleteLogin _ _ _ => ℕ
  | githubIdentity _ _ => GithubIdentity
  | createSession _ _ _ => Unit
  | findSession _ _ => Option Session
  | deleteSession _ => Unit
  | createKey _ => ApiKey
  | findKey _ => Option ApiKey
  | revokeKey _ _ _ => Option ApiKey

/-- What the services throw: an `AuthError`, or anything else. -/
inductive Failure where
  | auth (status : ℕ) (message : JsString)
  | other (error : JsError)
  deriving DecidableEq

/-- The interface of the services. -/
def Accounts : Interface where
  Op := Op
  Res := Op.Res
  Err := Failure

abbrev Async := Prog Accounts

/-- The environment's choices for one operation. -/
structure Choice where
  fault : Fault := .none
  error : JsError := { message := js "failure" }
  token : JsString := []
  id : JsString := []
  identity : Option GithubIdentity := none

/-! ## What the operations do -/

namespace Directory

/-- The sessions that are left when a new one replaces another. -/
def otherSessions (w : Directory) (previousHash : Option JsString) : List AuthSession :=
  w.sessions.filter (fun s => !(decide (s.expiresAt ≤ w.clock) || previousHash == some s.tokenHash))

/-- `user.upsert` by `githubId`: the user, and the rows after. -/
def upsertUser (w : Directory) (identity : GithubIdentity) (id : JsString) :
    Except JsError (User × List User) :=
  match w.users.find? (fun u => u.githubId == identity.githubId) with
  | some u =>
      let row : User := { u with
        githubLogin := identity.githubLogin }
      .ok (row, w.users.map (fun v => if v.id = u.id then row else v))
  | none =>
      if w.users.any (fun u => u.id == id) then .error uniqueViolation
      else
        let row : User := { id := id, githubId := identity.githubId
                            githubLogin := identity.githubLogin }
        .ok (row, row :: w.users)

/-- `createLogin`. -/
def createLogin (w : Directory) (pid : ℕ) (input : OAuthLogin) : Except JsError Unit × Directory :=
  let logins := w.logins.filter (fun l => !decide (l.expiresAt ≤ w.clock))
  if logins.any (fun l => l.stateHash == input.stateHash) then (.error uniqueViolation, w)
  else
    (.ok (), { w with
      logins := input :: logins
      log := .begun pid input :: w.log })

/-- The rows that `deleteLogin` deletes. -/
def doomed (stateHash browserHash : JsString) (now : ℤ) : OAuthLogin → Bool :=
  fun l => l.stateHash == stateHash && l.browserHash == browserHash && decide (now < l.expiresAt)

/-- `deleteMany` of `consumeLogin`, with the number of rows that were deleted. -/
def deleteLogin (w : Directory) (pid : ℕ) (stateHash browserHash : JsString) (now : ℤ) :
    ℕ × Directory :=
  let rows := w.logins.filter (doomed stateHash browserHash now)
  (rows.length, { w with
    logins := w.logins.filter (fun l => !doomed stateHash browserHash now l)
    log := rows.map (fun l => .consumed pid l now) ++ w.log })

/-- `createSession`. -/
def createSession (w : Directory) (pid : ℕ) (identity : GithubIdentity) (session : NewSession)
    (previousHash : Option JsString) (id : JsString) : Except JsError Unit × Directory :=
  match w.upsertUser identity id with
  | .error error => (.error error, w)
  | .ok (user, users) =>
      let sessions := w.otherSessions previousHash
      if sessions.any (fun s => s.tokenHash == session.tokenHash) then (.error uniqueViolation, w)
      else
        let row : AuthSession :=
          { tokenHash := session.tokenHash, userId := user.id, csrfToken := session.csrfToken
            expiresAt := session.expiresAt }
        (.ok (), { w with
          users := users
          sessions := row :: sessions
          log := .opened pid row previousHash :: w.log })

/-- `findSession`, with the tenants of the user. -/
def findSession (w : Directory) (tokenHash : JsString) (now : ℤ) : Option Session := do
  let s ← w.sessions.find? (fun s => s.tokenHash == tokenHash && decide (now < s.expiresAt))
  let user ← w.users.find? (fun u => u.id == s.userId)
  return { tokenHash := s.tokenHash, csrfToken := s.csrfToken, expiresAt := s.expiresAt
           user := user
           memberships := (w.memberships.filter (fun m => m.userId == user.id)).map
             Membership.tenantId }

/-- `deleteSession`. -/
def deleteSession (w : Directory) (pid : ℕ) (tokenHash : JsString) : Directory :=
  { w with
    sessions := w.sessions.filter (fun s => s.tokenHash != tokenHash)
    log := .closed pid tokenHash :: w.log }

/-- `create` of a key: its creator must be a member of the tenant. -/
def createKey (w : Directory) (pid : ℕ) (input : NewKey) : Except JsError ApiKey × Directory :=
  if w.apiKeys.any (fun k => k.id == input.id || k.tokenHash == input.tokenHash) then
    (.error uniqueViolation, w)
  else if w.memberships.contains ⟨input.createdByUserId, input.tenantId⟩ then
    let row : ApiKey :=
      { id := input.id, tenantId := input.tenantId, createdByUserId := input.createdByUserId
        name := input.name, tokenHash := input.tokenHash, expiresAt := input.expiresAt
        revokedAt := none, createdAt := w.clock }
    (.ok row, { w with
      apiKeys := row :: w.apiKeys
      log := .issued pid row :: w.log })
  else (.error foreignKeyViolation, w)

/-- `revoke` of a key: the first time counts. -/
def revokeKey (w : Directory) (pid : ℕ) (tenantId id : JsString) (now : ℤ) :
    Option ApiKey × Directory :=
  let apiKeys := w.apiKeys.map (fun k =>
    if k.tenantId = tenantId ∧ k.id = id ∧ k.revokedAt = none then { k with
      revokedAt := some now } else k)
  (apiKeys.find? (fun k => k.tenantId == tenantId && k.id == id), { w with
    apiKeys := apiKeys
    log := .revoked pid tenantId id :: w.log })

/-- What an operation answers and does. -/
def apply (w : Directory) (pid : ℕ) (c : Choice) : (op : Op) → Except JsError op.Res × Directory
  | .now => (.ok w.clock, { w with
      readings := (pid, w.clock) :: w.readings })
  | .newToken => (.ok c.token, { w with
      tokens := (pid, c.token) :: w.tokens })
  | .randomUUID => (.ok c.id, { w with
      ids := (pid, c.id) :: w.ids })
  | .createLogin input => w.createLogin pid input
  | .findLogin stateHash => (.ok (w.logins.find? (fun l => l.stateHash == stateHash)), w)
  -- one statement: it says how many rows it has deleted
  | .deleteLogin stateHash browserHash now =>
      let r := w.deleteLogin pid stateHash browserHash now
      (.ok r.1, r.2)
  | .githubIdentity _ _ =>
      match c.identity with
      | some identity => (.ok identity, w)
      | none => (.error c.error, { w with
          log := .refused pid :: w.log })
  | .createSession identity session previousHash =>
      w.createSession pid identity session previousHash c.id
  | .findSession tokenHash now => (.ok (w.findSession tokenHash now), w)
  | .deleteSession tokenHash => (.ok (), w.deleteSession pid tokenHash)
  | .createKey input => w.createKey pid input
  | .findKey id => (.ok (w.apiKeys.find? (fun k => k.id == id)), w)
  | .revokeKey tenantId id now =>
      let r := w.revokeKey pid tenantId id now
      (.ok r.1, r.2)

/-- A token and an id are drawn once, and are well formed. -/
def possible (w : Directory) (c : Choice) : Op → Bool
  | .newToken => validToken c.token && !(w.tokens.any (fun t => t.2 == c.token))
  | .randomUUID => Api.isUuid c.id && !(w.ids.any (fun i => i.2 == c.id))
  | _ => true

/-- Only what leaves the process can go wrong. -/
def fault (c : Choice) : Op → Fault
  | .now => .none
  | .newToken => .none
  | .randomUUID => .none
  | .githubIdentity _ _ => .none
  | _ => c.fault

end Directory

/-- The operations on the tables.  The database may be out of reach, or its answer may be lost. -/
def accounts : Device Accounts Directory Choice where
  exec pid op c w :=
    if w.possible c op then
      match Directory.fault c op with
      | .before => some (.error (.other c.error), w)
      | .none => some ((w.apply pid c op).1.mapError Failure.other, (w.apply pid c op).2)
      | .after => some (.error (.other c.error), (w.apply pid c op).2)
    else none

/-- What the operators do: time passes, and a membership is granted or revoked. -/
inductive Surroundings where
  | passTime (milliseconds : ℕ)
  | grant (githubId tenantId : JsString)
  | revoke (githubId tenantId : JsString)

/-- `grant-tenant.ts`; revoking a membership deletes the keys that it issued. -/
def surroundings : Surroundings → Directory → Option Directory
  | .passTime milliseconds, w => some { w with
      clock := w.clock + milliseconds }
  | .grant githubId tenantId, w =>
      (w.users.find? (fun u => u.githubId == githubId)).bind (fun user =>
        if w.tenants.contains tenantId then
          let row : Membership := ⟨user.id, tenantId⟩
          some { w with
            memberships :=
              if w.memberships.contains row then w.memberships else row :: w.memberships
            log := .granted row :: w.log }
        else none)
  | .revoke githubId tenantId, w =>
      (w.users.find? (fun u => u.githubId == githubId)).bind (fun user =>
        if w.tenants.contains tenantId then
          let row : Membership := ⟨user.id, tenantId⟩
          some { w with
            memberships := w.memberships.filter (fun m => m != row)
            -- the keys a member made for the tenant go with the membership
            apiKeys := w.apiKeys.filter
              (fun k => !(k.createdByUserId == user.id && k.tenantId == tenantId))
            log := .removed row :: w.log }
        else none)

/-! ## `services/auth-config.ts` -/

/-- The settings of the session mode. -/
structure Settings where
  apiOrigin : JsString
  webOrigin : JsString
  secure : Bool
  clientId : JsString

/-- `AuthConfig`. -/
inductive AuthConfig where
  | development
  | session (settings : Settings)

/-! ## `services/auth.ts` -/

/-- `new AuthError(…)`, thrown. -/
def refuse {α : Type} (status : ℕ) (message : String) : Async α :=
  .throw (.auth status (js message))

/-- One operation. -/
def ask (op : Op) : Async op.Res := Prog.perform (S := Accounts) op

/-- `SESSION_SECONDS` and `LOGIN_SECONDS`, in milliseconds. -/
def sessionMs : ℤ := 7 * 24 * 60 * 60 * 1000

def loginMs : ℤ := 5 * 60 * 1000

/-- What `begin` returns: the parameters of the address to go to, and the cookie. -/
structure Attempt where
  clientId : JsString
  redirectUri : JsString
  state : JsString
  codeChallenge : JsString
  browser : JsString

/-- `callbackSchema`. -/
def callback? (query : Json) : Option (JsString × JsString) :=
  match query.get? (js "state"), query.get? (js "code") with
  | some (.str state), some (.str code) =>
      if validToken state = true ∧ 1 ≤ code.length ∧ code.length ≤ 1024 then some (state, code)
      else none
  | _, _ => none

section

variable (sha256 : List UInt8 → Digest) (config : AuthConfig)

/-- `enabled`. -/
def enabled : Async Settings :=
  match config with
  | .session settings => .ret settings
  | .development => refuse 503 "GitHub sign-in is not enabled"

/-- `session`. -/
def session (cookie : Option JsString) : Async Session := do
  let settings ← enabled config
  match cookieToken cookie (cookieNames settings.secure).1 with
  | none => refuse 401 "Sign in required"
  | some token => do
      let now : ℤ ← ask .now
      match ← ask (.findSession (tokenHash sha256 token) now) with
      | none => refuse 401 "Session expired or revoked"
      | some result => return result

/-- `csrf`. -/
def csrf (current : Session) (origin token : Option JsString) : Async Unit := do
  let settings ← enabled config
  match token with
  | none => refuse 403 "Invalid request origin or CSRF token"
  | some token =>
      if origin = some settings.webOrigin ∧ validToken token = true then
        match tokensEqual sha256 current.csrfToken token with
        | .ok true => return ()
        | .ok false => refuse 403 "Invalid request origin or CSRF token"
        | .error error => .throw (.other error)
      else refuse 403 "Invalid request origin or CSRF token"

/-- `begin`. -/
def begin : Async Attempt := do
  let settings ← enabled config
  let state ← ask .newToken
  let browser ← ask .newToken
  let verifier ← ask .newToken
  let now : ℤ ← ask .now
  ask (.createLogin { stateHash := tokenHash sha256 state
                      browserHash := tokenHash sha256 browser
                      codeVerifier := verifier
                      expiresAt := now + loginMs })
  return { clientId := settings.clientId
           redirectUri := settings.apiOrigin ++ js "/auth/github/callback"
           state := state
           codeChallenge := Base64Url.encode (ofHex (tokenHash sha256 verifier))
           browser := browser }

/-- `consumeLogin` of the repository. -/
def consumeLogin (stateHash browserHash : JsString) (now : ℤ) : Async (Option OAuthLogin) := do
  match ← ask (.findLogin stateHash) with
  | none => return none
  | some row =>
      if row.browserHash ≠ browserHash ∨ row.expiresAt ≤ now then return none
      else do
        let count : ℕ ← ask (.deleteLogin stateHash browserHash now)
        return (if count = 1 then some row else none)

/-- `complete`, once the attempt was consumed. -/
def signIn (settings : Settings) (code : JsString) (cookie : Option JsString)
    (attempt : OAuthLogin) : Async JsString := do
  match ← (ask (.githubIdentity code attempt.codeVerifier)).attempt with
  | .error _ => refuse 502 "GitHub sign-in failed; start again"
  | .ok identity => do
      let token ← ask .newToken
      let previous := cookieToken cookie (cookieNames settings.secure).1
      let csrfToken ← ask .newToken
      let now : ℤ ← ask .now
      ask (.createSession identity { tokenHash := tokenHash sha256 token
                                     csrfToken := csrfToken
                                     expiresAt := now + sessionMs }
        (previous.map (tokenHash sha256)))
      return token

/-- `complete`. -/
def complete (query : Json) (cookie : Option JsString) : Async JsString := do
  let settings ← enabled config
  match callback? query, cookieToken cookie (cookieNames settings.secure).2 with
  | some (state, code), some browser => do
      let now : ℤ ← ask .now
      match ← consumeLogin (tokenHash sha256 state) (tokenHash sha256 browser) now with
      | none => refuse 400 "Sign-in request expired or already used"
      | some attempt => signIn sha256 settings code cookie attempt
  | _, _ => refuse 400 "Invalid or denied GitHub callback"

/-- `authorize`. -/
def authorize (cookie : Option JsString) (tenantId : Option Json) (method : JsString)
    (origin csrfToken : Option JsString) : Async Session := do
  let current ← session sha256 config cookie
  if ¬ [js "GET", js "HEAD", js "OPTIONS"].contains method then
    csrf sha256 config current origin csrfToken
  match Api.uuid? tenantId with
  | none => refuse 400 "Invalid tenant ID"
  | some tenantId =>
      if current.memberships.contains (tenantId : JsString) then return current
      else refuse 404 "Tenant not found"

/-- `logout`. -/
def logout (cookie origin token : Option JsString) : Async Unit := do
  let current ← session sha256 config cookie
  csrf sha256 config current origin token
  ask (.deleteSession current.tokenHash)

/-! ## `services/api-keys.ts` -/

/-- `/^[a-f0-9]{64}$/`. -/
def isHash (s : JsString) : Bool := s.length == 64 && s.all isLowerHex

/-- `authorize` of the API keys. -/
def authorizeKey (header : JsString) (tenantId : Option Json) : Async Unit := do
  match bearer? header with
  | none => refuse 401 "Invalid API key"
  | some (token, id) => do
      match ← ask (.findKey id) with
      | none => refuse 401 "Invalid or expired API key"
      | some key =>
          -- a key that is revoked, expired or malformed is refused in the same words
          if key.revokedAt ≠ none then refuse 401 "Invalid or expired API key"
          else do
            let now : ℤ ← ask .now
            if key.expiresAt ≤ now ∨ isHash key.tokenHash = false then
              refuse 401 "Invalid or expired API key"
            else
              match timingSafeEqual (ofHex (tokenHash sha256 token)) (ofHex key.tokenHash) with
              | .error error => .throw (.other error)
              | .ok false => refuse 401 "Invalid or expired API key"
              | .ok true =>
                  -- the key is genuine; whether it is for this tenant is asked last
                  match Api.uuid? tenantId with
                  | none => refuse 400 "Invalid tenant ID"
                  | some tenantId =>
                      if (tenantId : JsString) = key.tenantId then return ()
                      else refuse 404 "Tenant not found"

/-- `issueSchema`: the trimmed name, and the number of days. -/
def issueInput? (input : Json) : Option (JsString × ℕ) :=
  if Api.hasOnly [js "name", js "expiresInDays"] input then
    match input.get? (js "name") with
    | some (.str name) =>
        let name := JsString.trim name
        if 1 ≤ name.length ∧ name.length ≤ 80 then
          match input.get? (js "expiresInDays") with
          -- 90 days unless the request says otherwise
          | none => some (name, 90)
          | some days =>
              match days.number? with
              | some days =>
                  if days.den = 1 ∧ 1 ≤ days ∧ days ≤ 365 then some (name, days.num.toNat) else none
              | none => none
        else none
    | _ => none
  else none

/-- `issue`: the key, and its token. -/
def issue (cookie : Option JsString) (tenantId : JsString) (origin csrfToken : Option JsString)
    (input : Json) : Async (ApiKey × JsString) := do
  let current ← authorize sha256 config cookie (some (.str tenantId)) (js "POST") origin csrfToken
  match issueInput? input with
  | none => refuse 400 "Supply a key name and an optional expiry of 1 to 365 days"
  | some (name, days) => do
      let id ← ask .randomUUID
      let secret ← ask .newToken
      let now : ℤ ← ask .now
      let key ← ask (.createKey { id := id, tenantId := tenantId
                                  createdByUserId := current.user.id, name := name
                                  tokenHash := tokenHash sha256 (keyToken id secret)
                                  expiresAt := now + days * 86400000 })
      return (key, keyToken id secret)

/-- `revoke`. -/
def revoke (cookie : Option JsString) (tenantId id : JsString)
    (origin csrfToken : Option JsString) : Async ApiKey := do
  let _ ← authorize sha256 config cookie (some (.str tenantId)) (js "POST") origin csrfToken
  if Api.isUuid id = true then do
    let now : ℤ ← ask .now
    match ← ask (.revokeKey tenantId id now) with
    | none => refuse 404 "API key not found"
    | some key => return key
  else refuse 400 "Invalid API key ID"

/-! ## `middleware/auth.ts` -/

/-- Where a request goes: `POST /events`, with the tenant in its body, or a route below
`/tenants/:tenantId`. -/
inductive Route where
  | events (tenantId : Option Json)
  | tenant (tenantId : JsString)

/-- What the guards read of a request. -/
structure Request where
  route : Route
  method : JsString
  authorization : Option JsString
  cookie : Option JsString
  origin : Option JsString
  csrfToken : Option JsString

/-- `guard`: it returns where the next handler is called. -/
def guard (req : Request) : Async Unit :=
  match req.authorization, req.route with
  | none, .events tenantId => do
      let _ ← authorize sha256 config req.cookie tenantId req.method req.origin req.csrfToken
      return ()
  | none, .tenant tenantId => do
      let _ ← authorize sha256 config req.cookie (some (.str tenantId)) req.method req.origin
        req.csrfToken
      return ()
  | some header, .events tenantId => authorizeKey sha256 header tenantId
  | some _, .tenant _ => refuse 401 "API keys are restricted to event ingestion"

/-! ## Calls -/

/-- A call of the API. -/
inductive Job where
  | begin
  | complete (query : Json) (cookie : Option JsString)
  | me (cookie : Option JsString)
  | logout (cookie origin token : Option JsString)
  | guard (req : Request)
  | issue (cookie : Option JsString) (tenantId : JsString) (origin csrfToken : Option JsString)
      (input : Json)
  | revoke (cookie : Option JsString) (tenantId id : JsString) (origin csrfToken : Option JsString)

/-- What a call returns. -/
inductive Reply where
  | attempt (attempt : Attempt)
  | token (token : JsString)
  | session (current : Session)
  | done
  | issued (key : ApiKey) (token : JsString)
  | key (key : ApiKey)

/-- The program of a call. -/
def program : Job → Async Reply
  | .begin => Reply.attempt <$> begin sha256 config
  | .complete query cookie => Reply.token <$> complete sha256 config query cookie
  | .me cookie => Reply.session <$> session sha256 config cookie
  | .logout cookie origin token =>
      (fun _ => Reply.done) <$> logout sha256 config cookie origin token
  | .guard req => (fun _ => Reply.done) <$> guard sha256 config req
  | .issue cookie tenantId origin csrfToken input =>
      (fun r => Reply.issued r.1 r.2) <$> issue sha256 config cookie tenantId origin csrfToken input
  | .revoke cookie tenantId id origin csrfToken =>
      Reply.key <$> revoke sha256 config cookie tenantId id origin csrfToken

/-- The calls in progress on one database.  A call that has ended keeps its answer. -/
def server : Machine Accounts Directory Choice Job Reply Surroundings where
  device := accounts
  surroundings := surroundings
  body job _ := some (program sha256 config job)
  after job reply := some (job, .ret reply)

end

end Identity
