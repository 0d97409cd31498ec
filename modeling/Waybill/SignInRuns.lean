/-
# Sign-in under any interleaving

* `Phase`: where a call stands, by what it did and may still do.
* `signInContract`: the phases as facts about the tables.
* `sign_in_accounted`: attempts are used once, and a session is opened only by the callback of its
  attempt.
-/
import Waybill.SignIn

namespace Identity

open Webhook (ofHex timingSafeEqual)

/-! ## Phases -/

/-- Where a call stands.  A callback is one that presented a well-formed state and cookie. -/
inductive Phase where
  | free (drawn ids : List JsString)
  | callback (c : Callback) (now : Option ℤ)
  | consumed (c : Callback)
  | identified (c : Callback) (drawn : List JsString)
  | opened (hash : JsString)
  | done

section

variable (sha256 : List UInt8 → Webhook.Digest)

/-- What a call may do: a callback consumes the attempt that it presented, and opens a session only
after that; the hashes that are stored are those of tokens that the call drew. -/
def Phase.Allows : Phase → Op → Prop
  -- hashes that are stored are hashes of what was drawn
  | .free drawn ids, op =>
      match op with
      | .createLogin login => ∃ state ∈ drawn, ∃ browser ∈ drawn,
          login.stateHash = tokenHash sha256 state ∧ login.browserHash = tokenHash sha256 browser
      | .createKey input => ∃ id ∈ ids, ∃ secret ∈ drawn,
          input.id = id ∧ input.tokenHash = tokenHash sha256 (keyToken id secret)
      | .deleteLogin _ _ _ => False
      | .githubIdentity _ _ => False
      | .createSession _ _ _ => False
      | _ => True
  -- a callback deletes its login before it asks for the identity
  | .callback c now, op =>
      match op with
      | .now => True
      | .findLogin _ => True
      | .deleteLogin stateHash browserHash n =>
          stateHash = c.stateHash ∧ browserHash = c.browserHash ∧ now = some n
      | _ => False
  | .consumed _, op =>
      match op with
      | .githubIdentity _ _ => True
      | _ => False
  | .identified c drawn, op =>
      match op with
      | .now => True
      | .newToken => True
      | .createSession _ session previous => previous = c.previous ∧ ∃ token ∈ drawn,
          session.tokenHash = tokenHash sha256 token
      | _ => False
  | _, _ => False

/-- Where a call stands after an answer. -/
def Phase.next : Phase → (op : Op) → Except Failure op.Res → Phase
  | .free drawn ids, .newToken, .ok token => .free (token :: drawn) ids
  | .free drawn ids, .randomUUID, .ok id => .free drawn (id :: ids)
  | .free drawn ids, .now, .ok _ => .free drawn ids
  | .free drawn ids, .findLogin _, .ok _ => .free drawn ids
  | .free drawn ids, .findSession _ _, .ok _ => .free drawn ids
  | .free drawn ids, .findKey _, .ok _ => .free drawn ids
  | .callback c _, .now, .ok now => .callback c (some now)
  | .callback c now, .findLogin _, .ok _ => .callback c now
  | .callback c _, .deleteLogin _ _ _, .ok count =>
      -- exactly one row deleted: the login was this handler's to consume
      if (show ℕ from count) = 1 then .consumed c else .done
  | .consumed c, .githubIdentity _ _, .ok _ => .identified c []
  | .identified c drawn, .newToken, .ok token => .identified c (token :: drawn)
  | .identified c drawn, .now, .ok _ => .identified c drawn
  | .identified _ _, .createSession _ session _, .ok _ => .opened session.tokenHash
  | _, _, _ => .done

/-- The protocol of the calls. -/
def signInProtocol : Protocol Accounts where
  Phase := Phase
  Allows := Phase.Allows sha256
  next := Phase.next

end

/-! ## The programs -/

section

variable {sha256 : List UInt8 → Webhook.Digest} {settings : Settings} {drawn ids : List JsString}

/-- One operation that leaves a call free. -/
theorem follows_ask {α : Type} {o : Op} {f : o.Res → Async α} {φ : Phase} (ψ : o.Res → Phase)
    {Q : Except Failure α → Phase → Prop} (hallow : φ.Allows sha256 o)
    (hnext : ∀ a, φ.next o (.ok a) = ψ a) (herr : ∀ e, Q (.error e) (φ.next o (.error e)))
    (hok : ∀ a, (signInProtocol sha256).Follows (f a) (ψ a) Q) :
    (signInProtocol sha256).Follows (ask o >>= f) φ Q :=
  Protocol.Follows.step (P := signInProtocol sha256) ψ hallow hnext herr hok

/-- Reading the session. -/
theorem enabled_session (settings : Settings) :
    enabled (.session settings) = (pure settings : Async Settings) := rfl

/-- `session` keeps to the protocol, and draws nothing. -/
theorem follows_session (cookie : Option JsString) :
    (signInProtocol sha256).Follows (session sha256 (.session settings) cookie) (.free drawn ids)
      (fun r ψ => ∀ s, r = .ok s → ψ = .free drawn ids) := by
  rw [session, enabled_session, pure_bind]
  cases cookieToken cookie (cookieNames settings.secure).1 with
  | none => exact fun s hs => by cases hs
  | some token =>
      refine follows_ask (fun _ => .free drawn ids) trivial (fun _ => rfl)
        (fun e s hs => by cases hs) fun now => ?_
      refine follows_ask (fun _ => .free drawn ids) trivial (fun _ => rfl)
        (fun e s hs => by cases hs) fun found => ?_
      cases found with
      | none => exact fun s hs => by cases hs
      | some current => exact fun s _ => rfl

/-- What a call returns. -/
theorem follows_map {α β : Type} {p : Async α} {φ : Phase} (f : α → β)
    {Q : Except Failure α → Phase → Prop} {Q' : Except Failure β → Phase → Prop}
    (h : (signInProtocol sha256).Follows p φ Q) (hok : ∀ a ψ, Q (.ok a) ψ → Q' (.ok (f a)) ψ)
    (herr : ∀ e ψ, Q' (.error e) ψ) : (signInProtocol sha256).Follows (f <$> p) φ Q' :=
  Protocol.Follows.bind (f := fun a => pure (f a)) h hok fun e ψ _ => herr e ψ

/-- A program that performs nothing. -/
theorem follows_csrf (current : Session) (origin token : Option JsString) (φ : Phase) :
    (signInProtocol sha256).Follows (csrf sha256 (.session settings) current origin token) φ
      (fun _ ψ => ψ = φ) := by
  cases token with
  | none => exact rfl
  | some token =>
      show (signInProtocol sha256).Follows
        (if origin = some settings.webOrigin ∧ validToken token = true then _ else _) _ _
      split_ifs
      · cases tokensEqual sha256 current.csrfToken token with
        | error e => exact rfl
        | ok same =>
            cases same with
            | false => exact rfl
            | true => exact rfl
      · exact rfl

/-- The session, and what follows it. -/
theorem follows_then {α : Type} {cookie : Option JsString} {f : Session → Async α}
    {Q : Except Failure α → Phase → Prop} (herr : ∀ e ψ, Q (.error e) ψ)
    (hok : ∀ s, (signInProtocol sha256).Follows (f s) (.free drawn ids) Q) :
    (signInProtocol sha256).Follows (session sha256 (.session settings) cookie >>= f)
      (.free drawn ids) Q := by
  refine (follows_session cookie).bind (fun s ψ hψ => ?_) fun e ψ _ => herr e ψ
  rw [hψ s rfl]
  exact hok s

/-- The end of `authorize`. -/
theorem follows_tenant (current : Session) (tenantId : Option Json) :
    (signInProtocol sha256).Follows
      (match Api.uuid? tenantId with
        | none => refuse 400 "Invalid tenant ID"
        | some tenantId =>
            if current.memberships.contains (tenantId : JsString) then
              (return current : Async Session)
            else refuse 404 "Tenant not found") (.free drawn ids)
      (fun r ψ => ∀ s, r = .ok s → ψ = .free drawn ids) := by
  cases Api.uuid? tenantId with
  | none => exact fun s hs => by cases hs
  | some tenantId =>
      simp only
      split_ifs
      · exact fun s _ => rfl
      · exact fun s hs => by cases hs

/-- `authorize` keeps to the protocol. -/
theorem follows_authorize (cookie : Option JsString) (tenantId : Option Json) (method : JsString)
    (origin token : Option JsString) :
    (signInProtocol sha256).Follows
      (authorize sha256 (.session settings) cookie tenantId method origin token) (.free drawn ids)
      (fun r ψ => ∀ s, r = .ok s → ψ = .free drawn ids) := by
  unfold authorize
  refine follows_then (fun e ψ s hs => by cases hs) fun current => ?_
  split_ifs
  · exact follows_tenant current tenantId
  · refine (follows_csrf current origin token _).bind (fun _ ψ hψ => ?_)
      fun e ψ _ s hs => by cases hs
    rw [hψ]
    exact follows_tenant current tenantId

/-- The authorized session, and what follows it. -/
theorem follows_authorized {α : Type} {cookie : Option JsString} {tenantId : Option Json}
    {method : JsString} {origin token : Option JsString} {f : Session → Async α}
    (hok : ∀ s, (signInProtocol sha256).Follows (f s) (.free drawn ids) fun _ _ => True) :
    (signInProtocol sha256).Follows
      (authorize sha256 (.session settings) cookie tenantId method origin token >>= f)
      (.free drawn ids) fun _ _ => True := by
  refine (follows_authorize cookie tenantId method origin token).bind (fun s ψ hψ => ?_)
    fun _ _ _ => trivial
  rw [hψ s rfl]
  exact hok s

/-- `begin` stores the hashes of two tokens that it drew. -/
theorem follows_begin : (signInProtocol sha256).Follows (begin sha256 (.session settings))
    (.free [] []) fun _ _ => True := by
  show (signInProtocol sha256).Follows (ask .newToken >>= fun state => _) _ _
  refine follows_ask (o := .newToken) (fun state => .free [state] []) trivial (fun _ => rfl)
    (fun _ => trivial) fun state => ?_
  refine follows_ask (o := .newToken) (fun browser => .free [browser, state] []) trivial
    (fun _ => rfl) (fun _ => trivial) fun browser => ?_
  refine follows_ask (o := .newToken) (fun verifier => .free [verifier, browser, state] []) trivial
    (fun _ => rfl) (fun _ => trivial) fun verifier => ?_
  refine follows_ask (fun _ => .free [verifier, browser, state] []) trivial (fun _ => rfl)
    (fun _ => trivial) fun now => ?_
  refine follows_ask (fun _ => .done) ?_ (fun _ => rfl) (fun _ => trivial) fun _ => trivial
  exact ⟨state, List.mem_cons_of_mem _ (List.mem_cons_of_mem _ List.mem_cons_self), browser,
    List.mem_cons_of_mem _ List.mem_cons_self, rfl, rfl⟩

/-- `logout` keeps to the protocol. -/
theorem follows_logout (cookie origin token : Option JsString) :
    (signInProtocol sha256).Follows (logout sha256 (.session settings) cookie origin token)
      (.free [] []) fun _ _ => True := by
  unfold logout
  refine follows_then (fun _ _ => trivial) fun current => ?_
  refine (follows_csrf current origin token _).bind (fun _ ψ hψ => ?_) fun _ _ _ => trivial
  rw [hψ]
  exact ⟨trivial, fun r => by cases r <;> trivial⟩

/-- `authorize` of a key keeps to the protocol. -/
theorem follows_authorizeKey (header : JsString) (tenantId : Option Json) :
    (signInProtocol sha256).Follows (authorizeKey sha256 header tenantId) (.free [] [])
      fun _ _ => True := by
  unfold authorizeKey
  cases bearer? header with
  | none => trivial
  | some b =>
      obtain ⟨token, id⟩ := b
      refine follows_ask (fun _ => .free [] []) trivial (fun _ => rfl) (fun _ => trivial)
        fun found => ?_
      cases found with
      | none => trivial
      | some key =>
          simp only
          split_ifs
          · trivial
          · refine follows_ask (fun _ => .free [] []) trivial (fun _ => rfl) (fun _ => trivial)
              fun now => ?_
            split_ifs
            · trivial
            · cases timingSafeEqual (ofHex (tokenHash sha256 token)) (ofHex key.tokenHash) with
              | error e => trivial
              | ok same =>
                  cases same with
                  | false => trivial
                  | true =>
                      cases Api.uuid? tenantId with
                      | none => trivial
                      | some tenantId =>
                          simp only
                          split_ifs <;> trivial

/-- The guard keeps to the protocol. -/
theorem follows_guard (req : Request) :
    (signInProtocol sha256).Follows (guard sha256 (.session settings) req) (.free [] [])
      fun _ _ => True := by
  unfold guard
  cases req.authorization with
  | some header =>
      cases req.route with
      | events tenantId => exact follows_authorizeKey header tenantId
      | tenant tenantId => trivial
  | none =>
      cases req.route with
      | events tenantId => exact follows_authorized fun _ => trivial
      | tenant tenantId => exact follows_authorized fun _ => trivial

/-- `issue` stores the hash of the token that it returns. -/
theorem follows_issue (cookie : Option JsString) (tenantId : JsString)
    (origin csrfToken : Option JsString) (input : Json) :
    (signInProtocol sha256).Follows
      (issue sha256 (.session settings) cookie tenantId origin csrfToken input) (.free [] [])
      fun _ _ => True := by
  unfold issue
  refine follows_authorized fun current => ?_
  cases issueInput? input with
  | none => trivial
  | some request =>
      obtain ⟨name, days⟩ := request
      refine follows_ask (o := .randomUUID) (fun id => .free [] [id]) trivial (fun _ => rfl)
        (fun _ => trivial) fun id => ?_
      refine follows_ask (o := .newToken) (fun secret => .free [secret] [id]) trivial
        (fun _ => rfl) (fun _ => trivial) fun secret => ?_
      refine follows_ask (fun _ => .free [secret] [id]) trivial (fun _ => rfl)
        (fun _ => trivial) fun now => ?_
      refine follows_ask (fun _ => .done) ?_ (fun _ => rfl) (fun _ => trivial) fun _ => trivial
      exact ⟨id, List.mem_singleton_self id, secret, List.mem_singleton_self secret, rfl, rfl⟩

/-- `revoke` keeps to the protocol. -/
theorem follows_revoke (cookie : Option JsString) (tenantId id : JsString)
    (origin csrfToken : Option JsString) :
    (signInProtocol sha256).Follows
      (revoke sha256 (.session settings) cookie tenantId id origin csrfToken) (.free [] [])
      fun _ _ => True := by
  unfold revoke
  refine follows_authorized fun current => ?_
  split_ifs
  · refine follows_ask (fun _ => .free [] []) trivial (fun _ => rfl) (fun _ => trivial)
      fun now => ?_
    refine follows_ask (fun _ => .done) trivial (fun _ => rfl) (fun _ => trivial) fun found => ?_
    cases found with
    | none => trivial
    | some key => trivial
  · trivial

/-- Once the attempt is consumed. -/
theorem follows_signIn (code : JsString) (cookie : Option JsString) (login : OAuthLogin)
    {c : Callback} (hprevious : c.previous =
      (cookieToken cookie (cookieNames settings.secure).1).map (tokenHash sha256)) :
    (signInProtocol sha256).Follows (signIn sha256 settings code cookie login) (.consumed c)
      fun r ψ => ∀ token, r = .ok token → ψ = .opened (tokenHash sha256 token) := by
  refine ⟨trivial, fun r => ?_⟩
  cases r with
  | error e => exact fun _ h => by cases h
  | ok identity =>
      refine follows_ask (o := .newToken) (fun token => .identified c [token]) trivial
        (fun _ => rfl) (fun _ _ h => by cases h) fun token => ?_
      refine follows_ask (o := .newToken) (fun csrfToken => .identified c [csrfToken, token])
        trivial (fun _ => rfl) (fun _ _ h => by cases h) fun csrfToken => ?_
      refine follows_ask (fun _ => .identified c [csrfToken, token]) trivial (fun _ => rfl)
        (fun _ _ h => by cases h) fun now => ?_
      refine follows_ask (fun _ => .opened (tokenHash sha256 token)) ?_ (fun _ => rfl)
        (fun _ _ h => by cases h) fun _ => ?_
      · exact ⟨hprevious.symm, token, List.mem_cons_of_mem _ List.mem_cons_self, rfl⟩
      · intro t ht
        rw [Except.ok.inj ht]

/-- `consumeLogin`, with what was presented. -/
theorem follows_consumeLogin {α : Type} {c : Callback} {now : ℤ} {f : Option OAuthLogin → Async α}
    {Q : Except Failure α → Phase → Prop} (herr : ∀ e ψ, Q (.error e) ψ)
    (hnone : ∀ φ, (signInProtocol sha256).Follows (f none) φ Q)
    (hsome : ∀ login, (signInProtocol sha256).Follows (f (some login)) (.consumed c) Q) :
    (signInProtocol sha256).Follows (consumeLogin c.stateHash c.browserHash now >>= f)
      (.callback c (some now)) Q := by
  unfold consumeLogin
  rw [bind_assoc]
  refine follows_ask (o := .findLogin c.stateHash) (fun _ => .callback c (some now)) trivial
    (fun _ => rfl) (fun e => herr e _) fun found => ?_
  cases found with
  | none => exact hnone _
  | some row =>
      simp only
      split_ifs
      · exact hnone _
      · have hcount : ∀ count : ℕ, (signInProtocol sha256).Follows
            (f (if count = 1 then some row else none))
            (if count = 1 then Phase.consumed c else .done) Q := by
          intro count
          by_cases hone : count = 1
          · subst hone
            exact hsome row
          · rw [if_neg hone]
            exact hnone _
        refine ⟨⟨rfl, rfl, rfl⟩, fun r => ?_⟩
        cases r with
        | error e => exact herr e _
        | ok count => exact hcount count

/-- Where a call starts. -/
def firstPhase (sha256 : List UInt8 → Webhook.Digest) (settings : Settings) (job : Job) : Phase :=
  match callbackOf sha256 settings job with
  | some c => .callback c none
  | none => .free [] []

/-- **The callback**: first the attempt is consumed, then a session is opened. -/
theorem follows_complete (query : Json) (cookie : Option JsString) :
    (signInProtocol sha256).Follows (complete sha256 (.session settings) query cookie)
      (firstPhase sha256 settings (.complete query cookie))
      fun r ψ => ∀ token, r = .ok token → ψ = .opened (tokenHash sha256 token) := by
  rw [complete, enabled_session, pure_bind]
  cases hquery : callback? query with
  | none => exact fun _ h => by cases h
  | some presented =>
      obtain ⟨state, code⟩ := presented
      cases hbrowser : cookieToken cookie (cookieNames settings.secure).2 with
      | none => exact fun _ h => by cases h
      | some browser =>
          let c : Callback := ⟨tokenHash sha256 state, tokenHash sha256 browser,
            (cookieToken cookie (cookieNames settings.secure).1).map (tokenHash sha256)⟩
          have hfirst : firstPhase sha256 settings (.complete query cookie) =
              .callback c none := by
            simp only [firstPhase, callbackOf, hquery, hbrowser, c]
          rw [hfirst]
          refine follows_ask (o := .now) (fun now => .callback c (some now)) trivial
            (fun _ => rfl) (fun _ _ h => by cases h) fun now => ?_
          exact follows_consumeLogin (c := c) (fun _ _ _ h => by cases h)
            (fun _ _ h => by cases h) fun login => follows_signIn code cookie login rfl

/-! ### Jobs -/

/-- What a call stands for when it returned a token. -/
def Ends (sha256 : List UInt8 → Webhook.Digest) (r : Except Failure Reply) (φ : Phase) : Prop :=
  ∀ token, r = .ok (.token token) → φ = .opened (tokenHash sha256 token)

/-- A call that returns something else. -/
theorem follows_other {α : Type} {p : Async α} {φ : Phase} {f : α → Reply}
    (hf : ∀ a t, f a ≠ .token t)
    (h : (signInProtocol sha256).Follows p φ fun _ _ => True) :
    (signInProtocol sha256).Follows (f <$> p) φ (Ends sha256) :=
  follows_map f h (fun a _ _ t ht => (hf a t (Except.ok.inj ht)).elim) fun _ _ _ ht => by cases ht

/-- **Every call of the API keeps to the protocol.** -/
theorem follows_program (job : Job) : (signInProtocol sha256).Follows
    (program sha256 (.session settings) job) (firstPhase sha256 settings job) (Ends sha256) := by
  cases job with
  | begin => exact follows_other (fun _ _ h => by cases h) follows_begin
  | complete query cookie =>
      refine follows_map _ (follows_complete query cookie) (fun a ψ h t ht => ?_)
        fun _ _ _ ht => by cases ht
      exact h t (congrArg Except.ok (Reply.token.inj (Except.ok.inj ht)))
  | me cookie =>
      exact follows_other (fun _ _ h => by cases h)
        ((follows_session cookie).imp fun _ _ _ => trivial)
  | logout cookie origin token =>
      exact follows_other (fun _ _ h => by cases h) (follows_logout cookie origin token)
  | guard req => exact follows_other (fun _ _ h => by cases h) (follows_guard req)
  | issue cookie tenantId origin csrfToken input =>
      exact follows_other (fun _ _ h => by cases h)
        (follows_issue cookie tenantId origin csrfToken input)
  | revoke cookie tenantId id origin csrfToken =>
      exact follows_other (fun _ _ h => by cases h)
        (follows_revoke cookie tenantId id origin csrfToken)

end

/-! ## The contract -/

/-- What one call leaves of the histories of the others. -/
structure Extends (pid : ℕ) (w w' : Directory) : Prop where
  tokens : ∀ t ∈ w.tokens, t ∈ w'.tokens
  ids : ∀ i ∈ w.ids, i ∈ w'.ids
  readings : ∀ n ∈ w.readings, n ∈ w'.readings
  others : ∀ q, q ≠ pid → w'.of q = w.of q

theorem Extends.refl (pid : ℕ) (w : Directory) : Extends pid w w :=
  ⟨fun _ h => h, fun _ h => h, fun _ h => h, fun _ _ => rfl⟩

section

variable {w w' : Directory} {pid : ℕ}

/-- One more entry of the call. -/
theorem Extends.entry {e : Entry} (hlog : w'.log = e :: w.log) (hpid : e.pid? = some pid)
    (htokens : w'.tokens = w.tokens) (hids : w'.ids = w.ids)
    (hreadings : w'.readings = w.readings) : Extends pid w w' where
  tokens := by rw [htokens]; exact fun _ h => h
  ids := by rw [hids]; exact fun _ h => h
  readings := by rw [hreadings]; exact fun _ h => h
  others q hq := by
    rw [Directory.of_cons hlog, hpid, if_neg]
    exact fun h => hq (Option.some.inj h).symm

/-- A deletion of sign-ins only adds to the log. -/
theorem deleteLogin_extends (w : Directory) (pid : ℕ) (stateHash browserHash : JsString) (now : ℤ) :
    Extends pid w (w.deleteLogin pid stateHash browserHash now).2 where
  tokens _ h := h
  ids _ h := h
  readings _ h := h
  others q hq := by
    show (_ ++ w.log).filter _ = _
    rw [List.filter_append, List.filter_eq_nil_iff.mpr, List.nil_append, Directory.of]
    intro e he
    obtain ⟨login, -, rfl⟩ := List.mem_map.mp he
    simpa [Entry.pid?] using fun h => hq h.symm

/-- **No operation touches the history of another call.** -/
theorem apply_extends (w : Directory) (pid : ℕ) (c : Choice) (op : Op) :
    Extends pid w (w.apply pid c op).2 := by
  cases op with
  | now => exact ⟨fun _ h => h, fun _ h => h, fun _ h => List.mem_cons_of_mem _ h, fun _ _ => rfl⟩
  | newToken =>
      exact ⟨fun _ h => List.mem_cons_of_mem _ h, fun _ h => h, fun _ h => h, fun _ _ => rfl⟩
  | randomUUID =>
      exact ⟨fun _ h => h, fun _ h => List.mem_cons_of_mem _ h, fun _ h => h, fun _ _ => rfl⟩
  -- a state that is taken leaves no entry
  | createLogin input =>
      simp only [Directory.apply, Directory.createLogin]
      split_ifs
      · exact .refl pid w
      · exact .entry rfl rfl rfl rfl rfl
  | findLogin stateHash => exact .refl pid w
  | deleteLogin stateHash browserHash now =>
      exact deleteLogin_extends w pid stateHash browserHash now
  | githubIdentity code codeVerifier =>
      simp only [Directory.apply]
      cases c.identity with
      | some identity => exact .refl pid w
      | none => exact .entry rfl rfl rfl rfl rfl
  | createSession identity session previous =>
      simp only [Directory.apply, Directory.createSession]
      cases w.upsertUser identity c.id with
      | error e => exact .refl pid w
      | ok r =>
          simp only
          split_ifs
          · exact .refl pid w
          · exact .entry rfl rfl rfl rfl rfl
  | findSession tokenHash now => exact .refl pid w
  | deleteSession tokenHash => exact .entry rfl rfl rfl rfl rfl
  | createKey input =>
      simp only [Directory.apply, Directory.createKey]
      split_ifs
      · exact .refl pid w
      · exact .entry rfl rfl rfl rfl rfl
      · exact .refl pid w
  | findKey id => exact .refl pid w
  | revokeKey tenantId id now => exact .entry rfl rfl rfl rfl rfl

/-- What an operation of a call is. -/
theorem accounts_exec {op : Op} {c : Choice} {r : Except Failure op.Res}
    (h : accounts.exec pid op c w = some (r, w')) : w.possible c op = true ∧
      ((w' = w ∧ ∃ e, r = .error e) ∨
        (w' = (w.apply pid c op).2 ∧ ∀ a, r = .ok a → (w.apply pid c op).1 = .ok a)) := by
  simp only [accounts] at h
  split_ifs at h with hpossible
  refine ⟨hpossible, ?_⟩
  cases hfault : Directory.fault c op with
  | before =>
      rw [hfault] at h
      obtain ⟨rfl, rfl⟩ := Prod.mk.inj (Option.some.inj h)
      exact .inl ⟨rfl, _, rfl⟩
  | after =>
      rw [hfault] at h
      obtain ⟨rfl, rfl⟩ := Prod.mk.inj (Option.some.inj h)
      exact .inr ⟨rfl, fun a ha => by cases ha⟩
  | none =>
      rw [hfault] at h
      obtain ⟨rfl, rfl⟩ := Prod.mk.inj (Option.some.inj h)
      refine .inr ⟨rfl, fun a ha => ?_⟩
      cases happly : (w.apply pid c op).1 with
      | error e => rw [happly] at ha; cases ha
      | ok b => rw [happly] at ha; exact congrArg Except.ok (Except.ok.inj ha)

end

section

variable (sha256 : List UInt8 → Webhook.Digest) (settings : Settings)

/-- What a call may rely on where it stands. -/
def PhaseFacts (pid : ℕ) (job : Job) (w : Directory) : Phase → Prop
  | .free drawn ids => w.of pid = [] ∧ (∀ t ∈ drawn, (pid, t) ∈ w.tokens) ∧
      ∀ i ∈ ids, (pid, i) ∈ w.ids
  | .callback c now => callbackOf sha256 settings job = some c ∧ w.of pid = [] ∧
      ∀ n, now = some n → (pid, n) ∈ w.readings
  | .consumed c => callbackOf sha256 settings job = some c ∧
      ∃ login n, w.of pid = [.consumed pid login n] ∧ Took w.readings pid c login n
  | .identified c drawn => callbackOf sha256 settings job = some c ∧
      (∃ login n, w.of pid = [.consumed pid login n] ∧ Took w.readings pid c login n) ∧
      ∀ t ∈ drawn, (pid, t) ∈ w.tokens
  | .opened hash => Course sha256 settings w.tokens w.ids w.readings pid job (w.of pid) ∧
      ∃ session previous, .opened pid session previous ∈ w.of pid ∧ session.tokenHash = hash
  | .done => Course sha256 settings w.tokens w.ids w.readings pid job (w.of pid)

end

section

variable {sha256 : List UInt8 → Webhook.Digest} {settings : Settings} {T : Set JsString}
  {w w' : Directory} {pid : ℕ} {job : Job} {φ : Phase}

/-- In every phase, the call did what a call can have done. -/
theorem PhaseFacts.course (h : PhaseFacts sha256 settings pid job w φ) :
    Course sha256 settings w.tokens w.ids w.readings pid job (w.of pid) := by
  cases φ with
  | free drawn ids => rw [h.1]; exact .nothing
  | callback c now => rw [h.2.1]; exact .nothing
  | consumed c =>
      obtain ⟨hc, login, n, hown, htook⟩ := h
      rw [hown]
      exact .consumed hc htook
  | identified c drawn =>
      obtain ⟨hc, ⟨login, n, hown, htook⟩, -⟩ := h
      rw [hown]
      exact .consumed hc htook
  | opened hash => exact h.1
  | done => exact h

/-- The facts of a call last while its history does. -/
theorem PhaseFacts.mono (h : PhaseFacts sha256 settings pid job w φ)
    (htokens : ∀ t ∈ w.tokens, t ∈ w'.tokens) (hids : ∀ i ∈ w.ids, i ∈ w'.ids)
    (hreadings : ∀ n ∈ w.readings, n ∈ w'.readings) (hown : w'.of pid = w.of pid) :
    PhaseFacts sha256 settings pid job w' φ := by
  cases φ with
  | free drawn ids =>
      exact ⟨hown.trans h.1, fun t ht => htokens _ (h.2.1 t ht), fun i hi => hids _ (h.2.2 i hi)⟩
  | callback c now =>
      exact ⟨h.1, hown.trans h.2.1, fun n hn => hreadings _ (h.2.2 n hn)⟩
  | consumed c =>
      obtain ⟨hc, login, n, howns, htook⟩ := h
      exact ⟨hc, login, n, hown.trans howns, htook.mono hreadings⟩
  | identified c drawn =>
      obtain ⟨hc, ⟨login, n, howns, htook⟩, hdrawn⟩ := h
      exact ⟨hc, ⟨login, n, hown.trans howns, htook.mono hreadings⟩,
        fun t ht => htokens _ (hdrawn t ht)⟩
  | opened hash =>
      obtain ⟨hcourse, hopened⟩ := h
      show Course sha256 settings w'.tokens w'.ids w'.readings pid job (w'.of pid) ∧ _
      rw [hown]
      exact ⟨hcourse.mono htokens hids hreadings, hopened⟩
  | done =>
      show Course sha256 settings w'.tokens w'.ids w'.readings pid job (w'.of pid)
      rw [hown]
      exact Course.mono h htokens hids hreadings

/-- After an error nothing more is done. -/
theorem Phase.next_error (φ : Phase) (op : Op) (e : Failure) : φ.next op (.error e) = .done := by
  cases φ <;> cases op <;> rfl

/-- After a failure a call relies on nothing more. -/
theorem PhaseFacts.error (hcourse : Course sha256 settings w.tokens w.ids w.readings pid job
    (w.of pid)) (op : Op) (e : Failure) :
    PhaseFacts sha256 settings pid job w (φ.next op (.error e)) := by
  rw [Phase.next_error]
  exact hcourse

/-- A session that was created is the last entry. -/
theorem createSession_ok {identity : GithubIdentity} {session : NewSession}
    {previous : Option JsString} {id : JsString} {a : Unit}
    (h : (w.createSession pid identity session previous id).1 = .ok a) :
    ∃ row : AuthSession, row.tokenHash = session.tokenHash ∧
      (w.createSession pid identity session previous id).2.log =
        .opened pid row previous :: w.log := by
  unfold Directory.createSession at h ⊢
  cases hupsert : w.upsertUser identity id with
  | error e =>
      rw [hupsert] at h
      cases h
  | ok r =>
      obtain ⟨user, users⟩ := r
      rw [hupsert] at h
      simp only at h ⊢
      split_ifs at h ⊢
      exact ⟨_, rfl, rfl⟩

/-- The row of a key. -/
def NewKey.row (input : NewKey) (createdAt : ℤ) : ApiKey :=
  { id := input.id, tenantId := input.tenantId, createdByUserId := input.createdByUserId
    name := input.name, tokenHash := input.tokenHash, expiresAt := input.expiresAt
    revokedAt := none, createdAt := createdAt }

/-- A key is created with a new id for a member of the tenant, or nothing happens. -/
theorem createKey_cases (w : Directory) (pid : ℕ) (input : NewKey) :
    (∃ e, w.createKey pid input = (.error e, w)) ∨
      ((∀ k ∈ w.apiKeys, k.id ≠ input.id ∧ k.tokenHash ≠ input.tokenHash) ∧
        ⟨input.createdByUserId, input.tenantId⟩ ∈ w.memberships ∧
        w.createKey pid input = (.ok (input.row w.clock), { w with
          apiKeys := input.row w.clock :: w.apiKeys
          log := .issued pid (input.row w.clock) :: w.log })) := by
  unfold Directory.createKey
  split_ifs with hused hmember
  · exact .inl ⟨_, rfl⟩
  · refine .inr ⟨fun k hk => ?_, List.contains_iff_mem.mp hmember, rfl⟩
    have hnot := hused
    simp only [List.any_eq_true, Bool.or_eq_true, beq_iff_eq, not_exists, not_and, not_or] at hnot
    exact hnot k hk
  · exact .inl ⟨_, rfl⟩

/-- What an operation keeps and leads to. -/
structure Kept (sha256 : List UInt8 → Webhook.Digest) (settings : Settings) (T : Set JsString)
    (pid : ℕ) (job : Job) (φ : Phase) (op : Op) (c : Choice) (w : Directory) : Prop where
  inv : Accounted sha256 settings T (w.apply pid c op).2
  course : Course sha256 settings (w.apply pid c op).2.tokens (w.apply pid c op).2.ids
    (w.apply pid c op).2.readings pid job ((w.apply pid c op).2.of pid)
  next : ∀ a, (w.apply pid c op).1 = .ok a →
    PhaseFacts sha256 settings pid job (w.apply pid c op).2 (φ.next op (.ok a))

section

variable (hinv : Accounted sha256 settings T w) (hfacts : PhaseFacts sha256 settings pid job w φ)
  {c : Choice}
include hinv hfacts

/-- Looking something up. -/
theorem kept_look {op : Op} (hsame : (w.apply pid c op).2 = w)
    (hnext : ∀ a, (w.apply pid c op).1 = .ok a →
      PhaseFacts sha256 settings pid job w (φ.next op (.ok a))) :
    Kept sha256 settings T pid job φ op c w where
  inv := by rw [hsame]; exact hinv
  course := by rw [hsame]; exact hfacts.course
  next := by rw [hsame]; exact hnext

theorem kept_now (hallow : φ.Allows sha256 .now) :
    Kept sha256 settings T pid job φ .now c w := by
  have hmono : PhaseFacts sha256 settings pid job (w.apply pid c .now).2 φ :=
    hfacts.mono (fun _ h => h) (fun _ h => h) (fun _ h => List.mem_cons_of_mem _ h) rfl
  refine ⟨hinv.read, hmono.course, fun a ha => ?_⟩
  obtain rfl := Except.ok.inj ha
  cases φ with
  | free drawn ids => exact hmono
  | callback c' now =>
      refine ⟨hmono.1, hmono.2.1, fun n hn => ?_⟩
      obtain rfl := Option.some.inj hn
      exact List.mem_cons_self
  | identified c' drawn => exact hmono
  | _ => exact hallow.elim

theorem kept_newToken (hallow : φ.Allows sha256 .newToken)
    (hpossible : w.possible c .newToken = true) (hT : c.token ∈ T) :
    Kept sha256 settings T pid job φ .newToken c w := by
  have hmono : PhaseFacts sha256 settings pid job (w.apply pid c .newToken).2 φ :=
    hfacts.mono (fun _ h => List.mem_cons_of_mem _ h) (fun _ h => h) (fun _ h => h) rfl
  have hfresh : ∀ u ∈ w.tokens, u.2 ≠ c.token := by
    simp only [Directory.possible, Bool.and_eq_true, Bool.not_eq_true', List.any_eq_false,
      beq_iff_eq] at hpossible
    exact hpossible.2
  refine ⟨hinv.draw hfresh hT, hmono.course, fun a ha => ?_⟩
  obtain rfl := Except.ok.inj ha
  cases φ with
  | free drawn ids =>
      refine ⟨hmono.1, fun t ht => ?_, hmono.2.2⟩
      rcases List.mem_cons.mp ht with rfl | ht
      · exact List.mem_cons_self
      · exact hmono.2.1 t ht
  | identified c' drawn =>
      refine ⟨hmono.1, hmono.2.1, fun t ht => ?_⟩
      rcases List.mem_cons.mp ht with rfl | ht
      · exact List.mem_cons_self
      · exact hmono.2.2 t ht
  | _ => exact hallow.elim

theorem kept_randomUUID (hallow : φ.Allows sha256 .randomUUID) :
    Kept sha256 settings T pid job φ .randomUUID c w := by
  have hmono : PhaseFacts sha256 settings pid job (w.apply pid c .randomUUID).2 φ :=
    hfacts.mono (fun _ h => h) (fun _ h => List.mem_cons_of_mem _ h) (fun _ h => h) rfl
  refine ⟨hinv.drawId, hmono.course, fun a ha => ?_⟩
  obtain rfl := Except.ok.inj ha
  cases φ with
  | free drawn ids =>
      refine ⟨hmono.1, hmono.2.1, fun i hi => ?_⟩
      rcases List.mem_cons.mp hi with rfl | hi
      · exact List.mem_cons_self
      · exact hmono.2.2 i hi
  | _ => exact hallow.elim

/-- A sign-in begins. -/
theorem kept_createLogin (hinj : Set.InjOn (tokenHash sha256) T) {input : OAuthLogin}
    (hallow : φ.Allows sha256 (.createLogin input)) :
    Kept sha256 settings T pid job φ (.createLogin input) c w := by
  cases φ with
  | free drawn ids =>
      obtain ⟨hown, hdrawn, -⟩ := hfacts
      obtain ⟨state, hs, browser, hb, hstate, hbrowser⟩ := hallow
      have hbegun : Course sha256 settings w.tokens w.ids w.readings pid job [.begun pid input] :=
        .begun (hdrawn _ hs) (hdrawn _ hb) hstate hbrowser
      have hcourse : Course sha256 settings (w.createLogin pid input).2.tokens
          (w.createLogin pid input).2.ids (w.createLogin pid input).2.readings pid job
          ((w.createLogin pid input).2.of pid) := by
        unfold Directory.createLogin
        simp only
        split_ifs
        · rw [hown]
          exact .nothing
        · rw [Directory.of_cons (w := w) rfl, if_pos (by rfl), hown]
          exact hbegun
      exact ⟨hinv.createLogin hinj hown hbegun, hcourse, fun _ _ => hcourse⟩
  | _ => exact hallow.elim

/-- A sign-in is consumed, or was already. -/
theorem kept_deleteLogin (hinj : Set.InjOn (tokenHash sha256) T) {stateHash browserHash : JsString}
    {now : ℤ} (hallow : φ.Allows sha256 (.deleteLogin stateHash browserHash now)) :
    Kept sha256 settings T pid job φ (.deleteLogin stateHash browserHash now) c w := by
  cases φ with
  | callback c' now' =>
      obtain ⟨hc, hown, hread⟩ := hfacts
      obtain ⟨rfl, rfl, rfl⟩ := hallow
      obtain ⟨hinv', hcases⟩ := hinv.deleteLogin hinj hown hc (hread now rfl)
      rcases hcases with ⟨hzero, hown'⟩ | ⟨hone, login, htook, hown'⟩
      · have hcourse : Course sha256 settings w.tokens w.ids w.readings pid job
            ((w.deleteLogin pid c'.stateHash c'.browserHash now).2.of pid) := by
          rw [hown']
          exact .nothing
        refine ⟨hinv', hcourse, fun a ha => ?_⟩
        obtain rfl := Except.ok.inj ha
        simp only [Phase.next]
        rw [if_neg (by omega)]
        exact hcourse
      · have hcourse : Course sha256 settings w.tokens w.ids w.readings pid job
            ((w.deleteLogin pid c'.stateHash c'.browserHash now).2.of pid) := by
          rw [hown']
          exact .consumed hc htook
        refine ⟨hinv', hcourse, fun a ha => ?_⟩
        obtain rfl := Except.ok.inj ha
        simp only [Phase.next]
        rw [if_pos hone]
        exact ⟨hc, login, now, hown', htook⟩
  | _ => exact hallow.elim

theorem kept_githubIdentity {code codeVerifier : JsString}
    (hallow : φ.Allows sha256 (.githubIdentity code codeVerifier)) :
    Kept sha256 settings T pid job φ (.githubIdentity code codeVerifier) c w := by
  cases φ with
  | consumed c' =>
      obtain ⟨hc, login, n, hown, htook⟩ := hfacts
      cases hidentity : c.identity with
      | some identity =>
          have hfacts : PhaseFacts sha256 settings pid job w (.consumed c') :=
            ⟨hc, login, n, hown, htook⟩
          refine kept_look hinv hfacts (by simp only [Directory.apply, hidentity]) fun a _ => ?_
          exact ⟨hc, ⟨login, n, hown, htook⟩, fun t ht => by cases ht⟩
      | none =>
          have hcourse : Course sha256 settings w.tokens w.ids w.readings pid job
              [.refused pid, .consumed pid login n] := .refused hc htook
          have happly : w.apply pid c (.githubIdentity code codeVerifier) =
              (.error c.error, { w with
                log := .refused pid :: w.log }) := by
            simp only [Directory.apply, hidentity]
          have hown' : Directory.of { w with
              log := .refused pid :: w.log } pid = [.refused pid, .consumed pid login n] := by
            rw [Directory.of_cons (w := w) (e := .refused pid) rfl, if_pos (by rfl), hown]
          refine ⟨?_, ?_, fun a ha => ?_⟩
          · rw [happly]
            refine hinv.note (e := .refused pid) trivial rfl rfl rfl rfl rfl rfl rfl rfl
              fun p hp => ?_
            obtain rfl := Option.some.inj hp
            rw [hown]
            exact ⟨job, hcourse⟩
          · rw [happly, hown']
            exact hcourse
          · rw [happly] at ha
            cases ha
  | _ => exact hallow.elim

/-- A session is opened. -/
theorem kept_createSession {identity : GithubIdentity} {session : NewSession}
    {previous : Option JsString}
    (hallow : φ.Allows sha256 (.createSession identity session previous)) :
    Kept sha256 settings T pid job φ (.createSession identity session previous) c w := by
  cases φ with
  | identified c' drawn =>
      obtain ⟨hc, ⟨login, n, hown, htook⟩, hdrawn⟩ := hfacts
      obtain ⟨rfl, token, ht, htoken⟩ := hallow
      obtain ⟨hinv', entries, hown', hcourse⟩ :=
        hinv.createSession hown hc htook (hdrawn token ht) htoken identity c.id
      have hcourse' : Course sha256 settings
          (w.createSession pid identity session c'.previous c.id).2.tokens
          (w.createSession pid identity session c'.previous c.id).2.ids
          (w.createSession pid identity session c'.previous c.id).2.readings pid job
          ((w.createSession pid identity session c'.previous c.id).2.of pid) := by
        have hextends := apply_extends w pid c (.createSession identity session c'.previous)
        rw [hown']
        exact hcourse.mono hextends.tokens hextends.ids hextends.readings
      refine ⟨hinv', hcourse', fun a ha => ⟨hcourse', ?_⟩⟩
      obtain ⟨row, hhash, hlog⟩ := createSession_ok ha
      have hmem : Entry.opened pid row c'.previous ∈
          (w.createSession pid identity session c'.previous c.id).2.log := by
        rw [hlog]
        exact List.mem_cons_self
      exact ⟨row, _, Directory.mem_of.mpr ⟨hmem, rfl⟩, hhash⟩
  | _ => exact hallow.elim

/-- A session is closed. -/
theorem kept_deleteSession {hash : JsString} (hallow : φ.Allows sha256 (.deleteSession hash)) :
    Kept sha256 settings T pid job φ (.deleteSession hash) c w := by
  cases φ with
  | free drawn ids =>
      obtain ⟨hown, -, -⟩ := hfacts
      have hcourse : Course sha256 settings w.tokens w.ids w.readings pid job
          ((w.deleteSession pid hash).of pid) := by
        rw [Directory.of_cons (w := w) (e := .closed pid hash) rfl, if_pos (by rfl), hown]
        exact .closed
      exact ⟨hinv.deleteSession hown hash, hcourse, fun _ _ => hcourse⟩
  | _ => exact hallow.elim

/-- A key is issued. -/
theorem kept_createKey {input : NewKey} (hallow : φ.Allows sha256 (.createKey input)) :
    Kept sha256 settings T pid job φ (.createKey input) c w := by
  cases φ with
  | free drawn ids =>
      have hfree := hfacts
      obtain ⟨hown, hdrawn, hids⟩ := hfacts
      obtain ⟨id, hi, secret, hs, hid, hhash⟩ := hallow
      rcases createKey_cases w pid input with ⟨e, happly⟩ | ⟨-, -, happly⟩
      · exact kept_look hinv hfree (congrArg Prod.snd happly) fun _ _ => hfree.course
      · have hcourse : Course sha256 settings w.tokens w.ids w.readings pid job
            [.issued pid (input.row w.clock)] :=
          .issued (hids _ hi) (hdrawn _ hs) hid hhash rfl
        have hcourse' : Course sha256 settings (w.createKey pid input).2.tokens
            (w.createKey pid input).2.ids (w.createKey pid input).2.readings pid job
            ((w.createKey pid input).2.of pid) := by
          rw [happly, Directory.of_cons (w := w) (e := .issued pid (input.row w.clock)) rfl,
            if_pos (by rfl), hown]
          exact hcourse
        refine ⟨?_, hcourse', fun _ _ => hcourse'⟩
        show Accounted sha256 settings T (w.createKey pid input).2
        rw [happly]
        refine hinv.note (e := .issued pid (input.row w.clock)) trivial rfl rfl rfl rfl rfl rfl rfl
          rfl fun p hp => ?_
        obtain rfl := Option.some.inj hp
        rw [hown]
        exact ⟨job, hcourse⟩
  | _ => exact hallow.elim

/-- A key is revoked. -/
theorem kept_revokeKey {tenantId id : JsString} {now : ℤ}
    (hallow : φ.Allows sha256 (.revokeKey tenantId id now)) :
    Kept sha256 settings T pid job φ (.revokeKey tenantId id now) c w := by
  cases φ with
  | free drawn ids =>
      obtain ⟨hown, -, -⟩ := hfacts
      have hcourse : Course sha256 settings w.tokens w.ids w.readings pid job
          ((w.revokeKey pid tenantId id now).2.of pid) := by
        rw [Directory.of_cons (w := w) (e := .revoked pid tenantId id) rfl, if_pos (by rfl), hown]
        exact .revoked
      refine ⟨?_, hcourse, fun _ _ => hcourse⟩
      refine hinv.note (e := .revoked pid tenantId id) trivial rfl rfl rfl rfl rfl rfl rfl rfl
        fun p hp => ?_
      obtain rfl := Option.some.inj hp
      rw [hown]
      exact ⟨job, .revoked⟩
  | _ => exact hallow.elim

/-- **Every allowed operation keeps the invariant**, and leads to the next phase. -/
theorem kept_apply (hinj : Set.InjOn (tokenHash sha256) T) {op : Op}
    (hallow : φ.Allows sha256 op) (hpossible : w.possible c op = true)
    (hT : op = .newToken → c.token ∈ T) : Kept sha256 settings T pid job φ op c w := by
  cases op with
  | now => exact kept_now hinv hfacts hallow
  | newToken => exact kept_newToken hinv hfacts hallow hpossible (hT rfl)
  | randomUUID => exact kept_randomUUID hinv hfacts hallow
  | createLogin input => exact kept_createLogin hinv hfacts hinj hallow
  | findLogin stateHash =>
      refine kept_look hinv hfacts rfl fun a _ => ?_
      cases φ with
      | free drawn ids => exact hfacts
      | callback c' now => exact hfacts
      | _ => exact hallow.elim
  | deleteLogin stateHash browserHash now => exact kept_deleteLogin hinv hfacts hinj hallow
  | githubIdentity code codeVerifier => exact kept_githubIdentity hinv hfacts hallow
  | createSession identity session previous => exact kept_createSession hinv hfacts hallow
  | findSession tokenHash now =>
      refine kept_look hinv hfacts rfl fun a _ => ?_
      cases φ with
      | free drawn ids => exact hfacts
      | _ => exact hallow.elim
  | deleteSession tokenHash => exact kept_deleteSession hinv hfacts hallow
  | createKey input => exact kept_createKey hinv hfacts hallow
  | findKey id =>
      refine kept_look hinv hfacts rfl fun a _ => ?_
      cases φ with
      | free drawn ids => exact hfacts
      | _ => exact hallow.elim
  | revokeKey tenantId id now => exact kept_revokeKey hinv hfacts hallow

end

/-! ### The surroundings -/

/-- What the operators do is in nobody's history. -/
theorem surroundings_kept (hinv : Accounted sha256 settings T w) {e : Surroundings}
    (h : surroundings e w = some w') : Accounted sha256 settings T w' ∧ w'.tokens = w.tokens ∧
      w'.ids = w.ids ∧ w'.readings = w.readings ∧ ∀ q, w'.of q = w.of q := by
  cases e with
  | passTime milliseconds =>
      obtain rfl := Option.some.inj h
      exact ⟨hinv.passTime milliseconds, rfl, rfl, rfl, fun _ => rfl⟩
  | grant githubId tenantId =>
      obtain ⟨user, -, h⟩ := Option.bind_eq_some_iff.mp h
      split_ifs at h
      obtain rfl := Option.some.inj h
      refine ⟨hinv.note (e := .granted ⟨user.id, tenantId⟩) trivial rfl rfl rfl rfl rfl rfl rfl rfl
        (fun p hp => by cases hp), rfl, rfl, rfl, fun q => ?_⟩
      exact Directory.of_cons (w := w) (e := .granted ⟨user.id, tenantId⟩) rfl q
  | revoke githubId tenantId =>
      obtain ⟨user, -, h⟩ := Option.bind_eq_some_iff.mp h
      split_ifs at h
      obtain rfl := Option.some.inj h
      refine ⟨hinv.note (e := .removed ⟨user.id, tenantId⟩) trivial rfl rfl rfl rfl rfl rfl rfl rfl
        (fun p hp => by cases hp), rfl, rfl, rfl, fun q => ?_⟩
      exact Directory.of_cons (w := w) (e := .removed ⟨user.id, tenantId⟩) rfl q

end

/-! ### The contract -/

/-- **The contract of the calls**, when the tokens in `T` have different hashes. -/
def signInContract (sha256 : List UInt8 → Webhook.Digest) (settings : Settings) (T : Set JsString)
    (hinj : Set.InjOn (tokenHash sha256) T) :
    Contract (server sha256 (.session settings)) (signInProtocol sha256) where
  Inv := Accounted sha256 settings T
  first job _ := firstPhase sha256 settings job
  Facts pid job φ w := PhaseFacts sha256 settings pid job w φ
  End _ := Ends sha256
  Apart _ _ := True
  Ok _ _ op c _ := op = .newToken → c.token ∈ T
  Fresh n w := ∀ q, n ≤ q → w.of q = []
  follows {j w p} hb := by
    obtain rfl := Option.some.inj hb
    exact follows_program j
  begins {pid j w p} _ hfresh _ := by
    unfold firstPhase
    cases hc : callbackOf sha256 settings j with
    | none => exact ⟨hfresh pid le_rfl, (fun _ h => by cases h), fun _ h => by cases h⟩
    | some c => exact ⟨hc, hfresh pid le_rfl, fun _ h => by cases h⟩
  surroundings {e w w'} hinv hs := by
    obtain ⟨hinv', htokens, hids, hreadings, hof⟩ := surroundings_kept hinv hs
    refine ⟨hinv', fun n hfresh q hq => (hof q).trans (hfresh q hq), fun pid j φ hfacts => ?_⟩
    exact hfacts.mono (by rw [htokens]; exact fun _ h => h) (by rw [hids]; exact fun _ h => h)
      (by rw [hreadings]; exact fun _ h => h) (hof pid)
  call {pid j φ op c w r w'} hinv hfacts hallow hok hexec := by
    obtain ⟨hpossible, ⟨rfl, e, rfl⟩ | ⟨rfl, hr⟩⟩ := accounts_exec hexec
    · exact ⟨hinv, PhaseFacts.error (PhaseFacts.course hfacts) op e⟩
    · have hkept := kept_apply hinv hfacts hinj hallow hpossible hok
      refine ⟨hkept.inv, ?_⟩
      cases r with
      | error e => exact PhaseFacts.error hkept.course op e
      | ok a => exact hkept.next a (hr a rfl)
  frame {pid j φ op c w r w' q i ψ} _ _ hne _ _ _ hexec hψ := by
    obtain ⟨-, ⟨rfl, -⟩ | ⟨rfl, -⟩⟩ := accounts_exec hexec
    · exact hψ
    · have hextends := apply_extends w pid c op
      exact hψ.mono hextends.tokens hextends.ids hextends.readings (hextends.others q hne)
  goes_on {pid j a φ w j' p'} hend _ ha := by
    obtain ⟨-, rfl⟩ := Prod.mk.inj (Option.some.inj ha)
    exact hend
  after {pid j a φ w j' p'} _ hfacts ha := by
    obtain ⟨rfl, -⟩ := Prod.mk.inj (Option.some.inj ha)
    exact hfacts
  apart_after _ _ := trivial
  apart_symm _ := trivial
  fresh_succ hfresh q hq := hfresh q (by omega)
  fresh_call {n pid op c w r w'} hpid hfresh hexec q hq := by
    obtain ⟨-, ⟨rfl, -⟩ | ⟨rfl, -⟩⟩ := accounts_exec hexec
    · exact hfresh q hq
    · rw [(apply_extends w pid c op).others q (by omega)]
      exact hfresh q hq

/-! ## Runs -/

/-- Nobody has signed in yet, and no call is in progress. -/
structure Starts (s : Pool Accounts Directory Job Reply) : Prop where
  log : s.world.log = []
  logins : s.world.logins = []
  sessions : s.world.sessions = []
  apiKeys : s.world.apiKeys = []
  tokens : s.world.tokens = []
  ids : s.world.ids = []
  named : (s.world.users.map User.id).Nodup
  idle : ∀ pid, s.tasks pid = none

/-- Every token that is drawn is in `T`. -/
def Draws (T : Set JsString) (s : Pool Accounts Directory Job Reply)
    (a : PoolAction Choice Job Surroundings) : Prop :=
  ∀ pid c job k, a = .step pid c → s.tasks pid = some ⟨job, .call .newToken k⟩ → c.token ∈ T

/-- The callback that presented an attempt. -/
def Presented (sha256 : List UInt8 → Webhook.Digest) (settings : Settings) (job : Job)
    (login : OAuthLogin) : Prop :=
  ∃ query cookie state code browser, job = .complete query cookie ∧
    callback? query = some (state, code) ∧
    cookieToken cookie (cookieNames settings.secure).2 = some browser ∧
    login.stateHash = tokenHash sha256 state ∧ login.browserHash = tokenHash sha256 browser

/-- **What is said of sign-in.** -/
structure SignedIn (sha256 : List UInt8 → Webhook.Digest) (settings : Settings)
    (s : Pool Accounts Directory Job Reply) : Prop where
  /-- No attempt is consumed twice. -/
  once : (s.world.log.filterMap Entry.consumedState).Nodup
  /-- What is consumed was begun, and had not expired. -/
  begun : ∀ p login now, .consumed p login now ∈ s.world.log →
    (∃ q, .begun q login ∈ s.world.log) ∧ now < login.expiresAt ∧ (p, now) ∈ s.world.readings
  /-- A session is opened by the call that consumed an attempt, after that and once. -/
  opened : ∀ p session previous, .opened p session previous ∈ s.world.log →
    ∃ login now token, s.world.of p = [.opened p session previous, .consumed p login now] ∧
      (p, token) ∈ s.world.tokens ∧ session.tokenHash = tokenHash sha256 token
  /-- An attempt whose identity was refused is lost, and opens nothing. -/
  refused : ∀ p, .refused p ∈ s.world.log →
    ∃ login now, s.world.of p = [.refused p, .consumed p login now]
  /-- Only the callback that presented an attempt has consumed it. -/
  presented : ∀ p t login now, s.tasks p = some t → .consumed p login now ∈ s.world.log →
    Presented sha256 settings t.job login
  /-- The token that a callback returned is the one of the session that it opened. -/
  returned : ∀ p job token, s.tasks p = some ⟨job, .ret (.token token)⟩ →
    ∃ session previous, .opened p session previous ∈ s.world.log ∧
      session.tokenHash = tokenHash sha256 token

section

variable {sha256 : List UInt8 → Webhook.Digest} {settings : Settings} {T : Set JsString}

/-- At the start nothing is to be accounted for. -/
theorem Starts.accounted {s : Pool Accounts Directory Job Reply} (h : Starts s) :
    Accounted sha256 settings T s.world where
  drawn := by
    rw [h.tokens]
    exact List.nodup_nil
  inUse t ht := by
    rw [h.tokens] at ht
    cases ht
  courses pid := by
    refine ⟨.begin, ?_⟩
    rw [Directory.of, h.log]
    exact .nothing
  stored login hlogin := by
    rw [h.logins] at hlogin
    cases hlogin
  states := by
    rw [h.logins]
    exact List.nodup_nil
  once := by
    rw [h.log]
    exact List.nodup_nil
  attempts p login now hmem := by
    rw [h.log] at hmem
    cases hmem
  live session hsession := by
    rw [h.sessions] at hsession
    cases hsession
  kept session hlive _ := by
    obtain ⟨p, previous, hmem⟩ := hlive.mem
    rw [h.log] at hmem
    cases hmem
  distinct := by
    rw [h.sessions]
    exact List.nodup_nil
  owned session hsession := by
    rw [h.sessions] at hsession
    cases hsession
  named := h.named

theorem Starts.good {hinj : Set.InjOn (tokenHash sha256) T}
    {s : Pool Accounts Directory Job Reply} (h : Starts s) :
    (signInContract sha256 settings T hinj).Good s :=
  .of_empty h.accounted (fun q _ => by rw [Directory.of, h.log]; rfl) h.idle

/-- The steps of such a run are permitted. -/
theorem Draws.permits {hinj : Set.InjOn (tokenHash sha256) T}
    {s : Pool Accounts Directory Job Reply} {a : PoolAction Choice Job Surroundings}
    (h : Draws T s a) : (signInContract sha256 settings T hinj).Permits s a := by
  cases a with
  | spawn job => exact fun _ _ _ => trivial
  | step pid c =>
      rintro job op k ht rfl
      exact h pid c job k rfl ht
  | _ => trivial

/-- What a call consumed it had presented. -/
theorem Course.presented {w : Directory} {pid : ℕ} {job : Job} {entries : List Entry}
    (h : Course sha256 settings w.tokens w.ids w.readings pid job entries) {p : ℕ}
    {login : OAuthLogin} {now : ℤ} (hmem : .consumed p login now ∈ entries) :
    Presented sha256 settings job login := by
  obtain ⟨-, ⟨c, hc, htook⟩, -⟩ := h.of_consumed hmem
  cases job with
  | complete query cookie =>
      simp only [callbackOf] at hc
      split at hc
      · next state code browser hquery hbrowser =>
          obtain rfl := Option.some.inj hc
          exact ⟨query, cookie, state, code, browser, rfl, hquery, hbrowser, htook.state,
            htook.browser⟩
      · cases hc
  | _ => cases hc

/-- **Sign-in under any interleaving**, with any number of calls at the same time and with answers
of the database lost: an attempt is consumed at most once, by the callback that presented its state
and its browser cookie in time, and only that call opens a session, at most one. -/
theorem sign_in_accounted (hinj : Set.InjOn (tokenHash sha256) T)
    {s : Pool Accounts Directory Job Reply}
    (h : Run Starts (server sha256 (.session settings)).step (Draws T) s) :
    SignedIn sha256 settings s := by
  have hgood : (signInContract sha256 settings T hinj).Good s :=
    Contract.invariant _ (fun _ hs => hs.good) (fun _ _ _ ha => ha.permits) h
  have hinv : Accounted sha256 settings T s.world := hgood.inv
  refine
    { once := hinv.once
      begun := ?_
      opened := ?_
      refused := ?_
      presented := ?_
      returned := ?_ }
  -- a consumed login was begun, was still valid, and was read before
  · intro p login now hmem
    obtain ⟨job, hcourse⟩ := hinv.courses p
    obtain ⟨-, ⟨c, -, htook⟩, -⟩ := hcourse.of_consumed (Directory.mem_of.mpr ⟨hmem, rfl⟩)
    exact ⟨hinv.attempts p login now hmem, htook.early, htook.read⟩
  · intro p session previous hmem
    exact hinv.of_opened hmem
  · intro p hmem
    obtain ⟨job, hcourse⟩ := hinv.courses p
    exact hcourse.of_refused (Directory.mem_of.mpr ⟨hmem, rfl⟩)
  · intro p t login now ht hmem
    obtain ⟨φ, -, hfacts⟩ := hgood.stands p t ht
    exact (PhaseFacts.course hfacts).presented (Directory.mem_of.mpr ⟨hmem, rfl⟩)
  -- the token in the answer is the one whose hash was stored
  · intro p job token ht
    obtain ⟨φ, hends, hfacts⟩ := hgood.stands p _ ht
    obtain rfl : φ = .opened (tokenHash sha256 token) := hends token rfl
    obtain ⟨-, session, previous, hmem, hhash⟩ := hfacts
    exact ⟨session, previous, (Directory.mem_of.mp hmem).1, hhash⟩

end

namespace Sample

/-- A token of one letter. -/
def letters (u : UInt16) : JsString := List.replicate 43 u

/-- SHA-256 of the tokens of `A`, `B`, `C`, `D` and `E`. -/
def digests : List (List UInt8 × Webhook.Digest) :=
  [(List.replicate 43 65,
      ⟨[15, 0, 115, 133, 182, 249, 212, 183, 238, 178, 116, 134, 5, 175, 225, 169,
        132, 160, 163, 191, 163, 240, 20, 208, 158, 42, 120, 76, 233, 229, 205, 26], rfl⟩),
    (List.replicate 43 66,
      ⟨[65, 45, 196, 108, 201, 227, 203, 38, 242, 159, 124, 20, 21, 197, 86, 52,
        154, 246, 41, 4, 197, 209, 91, 10, 45, 140, 253, 197, 207, 162, 43, 52], rfl⟩),
    (List.replicate 43 67,
      ⟨[148, 32, 20, 175, 3, 25, 92, 151, 252, 138, 97, 33, 160, 62, 22, 96,
        184, 144, 39, 165, 56, 50, 90, 16, 30, 186, 66, 109, 172, 215, 229, 135], rfl⟩),
    (List.replicate 43 68,
      ⟨[57, 26, 176, 27, 248, 209, 108, 210, 72, 254, 6, 32, 43, 110, 109, 252,
        20, 156, 177, 108, 150, 214, 22, 59, 52, 236, 57, 146, 151, 171, 118, 91], rfl⟩),
    (List.replicate 43 69,
      ⟨[89, 174, 102, 218, 110, 211, 187, 196, 69, 158, 38, 203, 219, 12, 255, 249,
        108, 251, 116, 116, 43, 56, 109, 174, 139, 221, 66, 157, 254, 123, 31, 156], rfl⟩)]

/-- SHA-256, as far as the samples need it. -/
def sha256 (bytes : List UInt8) : Webhook.Digest :=
  ((digests.find? (fun d => d.1 == bytes)).map Prod.snd).getD (Webhook.Sample.noDigest)

/-- The settings of a development machine. -/
def settings : Settings :=
  { apiOrigin := js "http://127.0.0.1:3000", webOrigin := js "http://127.0.0.1:5173"
    secure := false, clientId := js "Iv1" }

/-- The tokens that are drawn. -/
def tokens : List JsString := [letters 65, letters 66, letters 67, letters 68, letters 69]

theorem tokens_injOn : Set.InjOn (tokenHash sha256) {t | t ∈ tokens} := by
  have hnodup : (tokens.map (tokenHash sha256)).Nodup := by decide +kernel
  exact fun _ ha _ hb heq => List.inj_on_of_nodup_map hnodup ha hb heq

/-- The tables before anybody has signed in. -/
def directory : Directory :=
  { clock := 1700000000000, tenants := [], users := [], memberships := [], logins := []
    sessions := [], apiKeys := [], tokens := [], ids := [], readings := [], log := [] }

/-- One operation of a call. -/
def op (pid : ℕ) (token : JsString := letters 65) : PoolAction Choice Job Surroundings :=
  .step pid { token := token
              id := js "11111111-1111-4111-8111-111111111111"
              identity := some { githubId := js "7", githubLogin := js "octocat" } }

/-- A sign-in: `begin`, and the callback. -/
def signInRun : List (PoolAction Choice Job Surroundings) :=
  [.spawn .begin, op 0 (letters 65), op 0 (letters 66), op 0 (letters 67), op 0, op 0, .finish 0,
    .surroundings (.passTime 1000),
    .spawn (.complete (.obj [(js "state", .str (letters 65)), (js "code", .str (js "c"))])
      (some (js "waybill-oauth=" ++ letters 66))),
    op 1, op 1, op 1, op 1, op 1 (letters 68), op 1 (letters 69), op 1, op 1]

/-- Tokens are from the list. -/
def drawn (_ : Pool Accounts Directory Job Reply) : PoolAction Choice Job Surroundings → Bool
  | .step _ c => tokens.contains c.token
  | _ => true

theorem drawn_draws (s : Pool Accounts Directory Job Reply)
    (a : PoolAction Choice Job Surroundings) (h : drawn s a = true) :
    Draws {t | t ∈ tokens} s a := by
  rintro pid c job k rfl -
  exact List.contains_iff_mem.mp h

/-- The pool before the first call. -/
def idle : Pool Accounts Directory Job Reply :=
  { world := directory, tasks := fun _ => none, spawned := 0 }

theorem idle_starts : Starts idle where
  log := rfl
  logins := rfl
  sessions := rfl
  apiKeys := rfl
  tokens := rfl
  ids := rfl
  named := List.nodup_nil
  idle _ := rfl

/-- The callback returned the token. -/
def signedIn (s : Pool Accounts Directory Job Reply) : Bool :=
  match s.tasks 1 with
  | some ⟨_, .ret (.token token)⟩ => token == letters 68 && s.world.log.length == 3
  | _ => false

end Sample

/-- A sign-in runs to its end. -/
theorem sign_in_accounted_once : ∃ s, Sample.signedIn s = true ∧
    SignedIn Sample.sha256 Sample.settings s := by
  have hplayed : (Run.play (server Sample.sha256 (.session Sample.settings)).step Sample.drawn
      Sample.signInRun Sample.idle).any Sample.signedIn = true := by decide +kernel
  have hplay : ∃ s, Run Starts (server Sample.sha256 (.session Sample.settings)).step
      (Draws {t | t ∈ Sample.tokens}) s ∧ Sample.signedIn s = true :=
    Run.exists_of_play Sample.drawn_draws Sample.idle_starts hplayed
  obtain ⟨s, hs, htest⟩ := hplay
  exact ⟨s, htest, sign_in_accounted Sample.tokens_injOn hs⟩

end Identity
