/-
# Sign-in attempts and sessions: the invariant

Any number of calls of the API at the same time, on one database, with any cookies.

* `Course`: what one call can have done.
* `Live`: a session that was opened, and neither logged out nor replaced since.
* `Accounted`: the invariant of the tables and the history, with one lemma for each operation.
-/
import Waybill.Identity

namespace Identity

/-! ## The history of one call -/

/-- What a call did so far, the last entry first. -/
def Directory.of (w : Directory) (pid : ℕ) : List Entry :=
  w.log.filter (fun e => e.pid? == some pid)

theorem Directory.mem_of {w : Directory} {pid : ℕ} {e : Entry} :
    e ∈ w.of pid ↔ e ∈ w.log ∧ e.pid? = some pid := by
  rw [of, List.mem_filter, beq_iff_eq]

/-- What a callback of the sign-in presented: the hashes of its state, of its browser cookie and
of its session cookie. -/
structure Callback where
  stateHash : JsString
  browserHash : JsString
  previous : Option JsString

/-- The attempt is the one that was presented, and had not expired when the call read the clock. -/
structure Took (readings : List (ℕ × ℤ)) (pid : ℕ) (c : Callback) (login : OAuthLogin)
    (now : ℤ) : Prop where
  state : login.stateHash = c.stateHash
  browser : login.browserHash = c.browserHash
  early : now < login.expiresAt
  read : (pid, now) ∈ readings

section

variable (sha256 : List UInt8 → Webhook.Digest) (settings : Settings)

/-- What a call presented, if it is a well-formed callback. -/
def callbackOf : Job → Option Callback
  | .complete query cookie =>
      match callback? query, cookieToken cookie (cookieNames settings.secure).2 with
      | some (state, _), some browser =>
          some { stateHash := tokenHash sha256 state
                 browserHash := tokenHash sha256 browser
                 previous := (cookieToken cookie (cookieNames settings.secure).1).map
                   (tokenHash sha256) }
      | _, _ => none
  | _ => none

/-- **What one call can have done.**  Only a callback consumes an attempt, the one that it
presented; and only after that it opens a session. -/
inductive Course (tokens ids : List (ℕ × JsString)) (readings : List (ℕ × ℤ)) (pid : ℕ)
    (job : Job) : List Entry → Prop where
  | nothing : Course tokens ids readings pid job []
  | begun {login : OAuthLogin} {state browser : JsString} : (pid, state) ∈ tokens →
      (pid, browser) ∈ tokens → login.stateHash = tokenHash sha256 state →
      login.browserHash = tokenHash sha256 browser →
      Course tokens ids readings pid job [.begun pid login]
  | consumed {c : Callback} {login : OAuthLogin} {now : ℤ} :
      callbackOf sha256 settings job = some c → Took readings pid c login now →
      Course tokens ids readings pid job [.consumed pid login now]
  | refused {c : Callback} {login : OAuthLogin} {now : ℤ} :
      callbackOf sha256 settings job = some c → Took readings pid c login now →
      Course tokens ids readings pid job [.refused pid, .consumed pid login now]
  | opened {c : Callback} {login : OAuthLogin} {now : ℤ} {session : AuthSession}
      {token : JsString} :
      callbackOf sha256 settings job = some c → Took readings pid c login now →
      (pid, token) ∈ tokens → session.tokenHash = tokenHash sha256 token →
      Course tokens ids readings pid job
        [.opened pid session c.previous, .consumed pid login now]
  | closed {hash : JsString} : Course tokens ids readings pid job [.closed pid hash]
  | issued {key : ApiKey} {id secret : JsString} : (pid, id) ∈ ids → (pid, secret) ∈ tokens →
      key.id = id → key.tokenHash = tokenHash sha256 (keyToken id secret) →
      key.revokedAt = none → Course tokens ids readings pid job [.issued pid key]
  | revoked {tenantId id : JsString} : Course tokens ids readings pid job [.revoked pid tenantId id]

end

/-! ## Live sessions -/

/-- The entry ends the session of a hash. -/
def Entry.Ends (hash : JsString) : Entry → Prop
  | opened _ _ previous => previous = some hash
  | closed _ h => h = hash
  | _ => False

/-- The session was opened, and has not been logged out or replaced since. -/
def Live (log : List Entry) (session : AuthSession) : Prop :=
  ∃ pid previous after before, log = after ++ .opened pid session previous :: before ∧
    ∀ e ∈ after, ¬ e.Ends session.tokenHash

/-- A session is live after an entry that opens it, or does not end it. -/
theorem live_cons {e : Entry} {log : List Entry} {session : AuthSession} :
    Live (e :: log) session ↔ (∃ pid previous, e = .opened pid session previous) ∨
      (Live log session ∧ ¬ e.Ends session.tokenHash) := by
  constructor
  · rintro ⟨pid, previous, after, before, hlog, hafter⟩
    cases after with
    | nil =>
        obtain ⟨rfl, rfl⟩ := List.cons.inj hlog
        exact .inl ⟨pid, previous, rfl⟩
    | cons e' after =>
        obtain ⟨rfl, rfl⟩ := List.cons.inj hlog
        exact .inr ⟨⟨pid, previous, after, before, rfl,
          fun x hx => hafter x (List.mem_cons_of_mem _ hx)⟩, hafter _ List.mem_cons_self⟩
  · rintro (⟨pid, previous, rfl⟩ | ⟨⟨pid, previous, after, before, rfl, hafter⟩, hends⟩)
    · exact ⟨pid, previous, [], log, rfl, fun _ h => by cases h⟩
    · refine ⟨pid, previous, e :: after, before, rfl, fun x hx => ?_⟩
      rcases List.mem_cons.mp hx with rfl | hx
      · exact hends
      · exact hafter x hx

theorem Live.mem {log : List Entry} {session : AuthSession} (h : Live log session) :
    ∃ pid previous, .opened pid session previous ∈ log := by
  obtain ⟨pid, previous, after, before, rfl, -⟩ := h
  exact ⟨pid, previous, List.mem_append_right _ List.mem_cons_self⟩

/-! ## The invariant -/

/-- The state of an attempt that was consumed. -/
def Entry.consumedState : Entry → Option JsString
  | consumed _ login _ => some login.stateHash
  | _ => none

section

variable (sha256 : List UInt8 → Webhook.Digest) (settings : Settings) (T : Set JsString)

/-- **The invariant** of the tables and the history; `T` are the tokens in use. -/
structure Accounted (w : Directory) : Prop where
  drawn : (w.tokens.map Prod.snd).Nodup
  inUse : ∀ t ∈ w.tokens, t.2 ∈ T
  courses : ∀ pid, ∃ job, Course sha256 settings w.tokens w.ids w.readings pid job (w.of pid)
  stored : ∀ login ∈ w.logins, (∃ pid, .begun pid login ∈ w.log) ∧
    ∀ pid now, .consumed pid login now ∉ w.log
  states : (w.logins.map OAuthLogin.stateHash).Nodup
  once : (w.log.filterMap Entry.consumedState).Nodup
  attempts : ∀ pid login now, .consumed pid login now ∈ w.log → ∃ q, .begun q login ∈ w.log
  live : ∀ session ∈ w.sessions, Live w.log session
  kept : ∀ session, Live w.log session → w.clock < session.expiresAt → session ∈ w.sessions
  distinct : (w.sessions.map AuthSession.tokenHash).Nodup
  owned : ∀ session ∈ w.sessions, ∃ user ∈ w.users, user.id = session.userId
  named : (w.users.map User.id).Nodup

end

section

variable {sha256 : List UInt8 → Webhook.Digest} {settings : Settings} {T : Set JsString}
  {w w' : Directory} {pid : ℕ} {job : Job} {tokens ids tokens' ids' : List (ℕ × JsString)}
  {readings readings' : List (ℕ × ℤ)} {entries : List Entry}

/-! ### What a course says -/

theorem Took.mono {c : Callback} {login : OAuthLogin} {now : ℤ}
    (h : Took readings pid c login now) (hreadings : ∀ n ∈ readings, n ∈ readings') :
    Took readings' pid c login now :=
  { h with
    read := hreadings _ h.read }

theorem Course.mono (h : Course sha256 settings tokens ids readings pid job entries)
    (htokens : ∀ t ∈ tokens, t ∈ tokens') (hids : ∀ i ∈ ids, i ∈ ids')
    (hreadings : ∀ n ∈ readings, n ∈ readings') :
    Course sha256 settings tokens' ids' readings' pid job entries := by
  cases h with
  | nothing => exact .nothing
  | begun hs hb hstate hbrowser => exact .begun (htokens _ hs) (htokens _ hb) hstate hbrowser
  | consumed hc htook => exact .consumed hc (htook.mono hreadings)
  | refused hc htook => exact .refused hc (htook.mono hreadings)
  | opened hc htook ht htoken =>
      exact .opened hc (htook.mono hreadings) (htokens _ ht) htoken
  | closed => exact .closed
  | issued hi hs hid hhash hnew => exact .issued (hids _ hi) (htokens _ hs) hid hhash hnew
  | revoked => exact .revoked

/-- A call that began a sign-in did nothing else. -/
theorem Course.of_begun (h : Course sha256 settings tokens ids readings pid job entries) {p : ℕ}
    {login : OAuthLogin} (hmem : .begun p login ∈ entries) : entries = [.begun pid login] ∧
      p = pid ∧ ∃ state browser, (pid, state) ∈ tokens ∧ (pid, browser) ∈ tokens ∧
        login.stateHash = tokenHash sha256 state ∧
        login.browserHash = tokenHash sha256 browser := by
  cases h with
  | begun hs hb hstate hbrowser =>
      obtain ⟨rfl, rfl⟩ := Entry.begun.inj (List.mem_singleton.mp hmem)
      exact ⟨rfl, rfl, _, _, hs, hb, hstate, hbrowser⟩
  | _ => simp at hmem

/-- What a call consumed is what it presented, before it expired. -/
theorem Course.of_consumed (h : Course sha256 settings tokens ids readings pid job entries) {p : ℕ}
    {login : OAuthLogin} {now : ℤ} (hmem : .consumed p login now ∈ entries) : p = pid ∧
      (∃ c, callbackOf sha256 settings job = some c ∧ Took readings pid c login now) ∧
      ∀ q login' now', .consumed q login' now' ∈ entries → login' = login ∧ now' = now := by
  cases h with
  | consumed hc htook =>
      obtain ⟨rfl, rfl, rfl⟩ := Entry.consumed.inj (List.mem_singleton.mp hmem)
      refine ⟨rfl, ⟨_, hc, htook⟩, fun q login' now' hmem' => ?_⟩
      obtain ⟨-, rfl, rfl⟩ := Entry.consumed.inj (List.mem_singleton.mp hmem')
      exact ⟨rfl, rfl⟩
  | refused hc htook =>
      simp only [List.mem_cons, reduceCtorEq, List.not_mem_nil, or_false, false_or,
        Entry.consumed.injEq] at hmem
      obtain ⟨rfl, rfl, rfl⟩ := hmem
      refine ⟨rfl, ⟨_, hc, htook⟩, fun q login' now' hmem' => ?_⟩
      simp only [List.mem_cons, reduceCtorEq, List.not_mem_nil, or_false, false_or,
        Entry.consumed.injEq] at hmem'
      exact hmem'.2
  | opened hc htook =>
      simp only [List.mem_cons, reduceCtorEq, List.not_mem_nil, or_false, false_or,
        Entry.consumed.injEq] at hmem
      obtain ⟨rfl, rfl, rfl⟩ := hmem
      refine ⟨rfl, ⟨_, hc, htook⟩, fun q login' now' hmem' => ?_⟩
      simp only [List.mem_cons, reduceCtorEq, List.not_mem_nil, or_false, false_or,
        Entry.consumed.injEq] at hmem'
      exact hmem'.2
  | _ => simp at hmem

/-- A call that opened a session did nothing else, after it had consumed its attempt. -/
theorem Course.of_opened (h : Course sha256 settings tokens ids readings pid job entries) {p : ℕ}
    {session : AuthSession} {previous : Option JsString}
    (hmem : .opened p session previous ∈ entries) : p = pid ∧ ∃ c login now token,
      callbackOf sha256 settings job = some c ∧ previous = c.previous ∧
      entries = [.opened pid session c.previous, .consumed pid login now] ∧
      (pid, token) ∈ tokens ∧ session.tokenHash = tokenHash sha256 token := by
  cases h with
  | opened hc htook ht htoken =>
      simp only [List.mem_cons, reduceCtorEq, List.not_mem_nil, or_false,
        Entry.opened.injEq] at hmem
      obtain ⟨rfl, rfl, rfl⟩ := hmem
      exact ⟨rfl, _, _, _, _, hc, rfl, rfl, ht, htoken⟩
  | _ => simp at hmem

/-- A call that was refused had consumed its sign-in. -/
theorem Course.of_refused (h : Course sha256 settings tokens ids readings pid job entries) {p : ℕ}
    (hmem : .refused p ∈ entries) :
    ∃ login now, entries = [.refused p, .consumed p login now] := by
  cases h with
  | refused hc htook =>
      simp only [List.mem_cons, reduceCtorEq, List.not_mem_nil, or_false,
        Entry.refused.injEq] at hmem
      obtain rfl := hmem
      exact ⟨_, _, rfl⟩
  | _ => simp at hmem

/-- A call that issued a key did nothing else. -/
theorem Course.of_issued (h : Course sha256 settings tokens ids readings pid job entries) {p : ℕ}
    {key : ApiKey} (hmem : .issued p key ∈ entries) :
    entries = [.issued p key] ∧ (p, key.id) ∈ ids := by
  cases h with
  | issued hi hs hid hhash hnew =>
      obtain ⟨rfl, rfl⟩ := Entry.issued.inj (List.mem_singleton.mp hmem)
      rw [hid]
      exact ⟨rfl, hi⟩
  | _ => simp at hmem

/-! ### What the invariant says -/

/-- A token is drawn by one call only. -/
theorem Accounted.drawn_once (h : Accounted sha256 settings T w) {p q : ℕ} {t : JsString}
    (hp : (p, t) ∈ w.tokens) (hq : (q, t) ∈ w.tokens) : p = q := by
  have heq := List.inj_on_of_nodup_map h.drawn hp hq rfl
  exact (Prod.mk.inj heq).1

/-- A sign-in on record was begun by one call, with its tokens. -/
theorem Accounted.of_begun (h : Accounted sha256 settings T w) {p : ℕ} {login : OAuthLogin}
    (hmem : .begun p login ∈ w.log) : w.of p = [.begun p login] ∧
      ∃ state browser, (p, state) ∈ w.tokens ∧ (p, browser) ∈ w.tokens ∧
        login.stateHash = tokenHash sha256 state ∧
        login.browserHash = tokenHash sha256 browser := by
  obtain ⟨job, hcourse⟩ := h.courses p
  obtain ⟨hown, -, hdrawn⟩ := hcourse.of_begun (Directory.mem_of.mpr ⟨hmem, rfl⟩)
  exact ⟨hown, hdrawn⟩

/-- **Attempts have different states.** -/
theorem Accounted.attempt_unique (h : Accounted sha256 settings T w)
    (hinj : Set.InjOn (tokenHash sha256) T) {p q : ℕ} {login login' : OAuthLogin}
    (hp : .begun p login ∈ w.log) (hq : .begun q login' ∈ w.log)
    (hstate : login.stateHash = login'.stateHash) : p = q ∧ login = login' := by
  obtain ⟨hown, s, -, hs, -, hhash, -⟩ := h.of_begun hp
  obtain ⟨hown', s', -, hs', -, hhash', -⟩ := h.of_begun hq
  obtain rfl : s = s' := hinj (h.inUse _ hs) (h.inUse _ hs') (by rw [← hhash, hstate, hhash'])
  obtain rfl := h.drawn_once hs hs'
  have hsame := hown.symm.trans hown'
  exact ⟨rfl, (Entry.begun.inj (List.cons.inj hsame).1).2⟩

/-- A session on record was opened by one call, which had consumed a sign-in. -/
theorem Accounted.of_opened (h : Accounted sha256 settings T w) {p : ℕ} {session : AuthSession}
    {previous : Option JsString} (hmem : .opened p session previous ∈ w.log) :
    ∃ login now token, w.of p = [.opened p session previous, .consumed p login now] ∧
      (p, token) ∈ w.tokens ∧ session.tokenHash = tokenHash sha256 token := by
  obtain ⟨job, hcourse⟩ := h.courses p
  obtain ⟨-, c, login, now, token, -, rfl, hown, ht, htoken⟩ :=
    hcourse.of_opened (Directory.mem_of.mpr ⟨hmem, rfl⟩)
  exact ⟨login, now, token, hown, ht, htoken⟩

/-- **Sessions have different tokens.** -/
theorem Accounted.session_unique (h : Accounted sha256 settings T w)
    (hinj : Set.InjOn (tokenHash sha256) T) {p q : ℕ} {session session' : AuthSession}
    {previous previous' : Option JsString} (hp : .opened p session previous ∈ w.log)
    (hq : .opened q session' previous' ∈ w.log)
    (hhash : session.tokenHash = session'.tokenHash) : p = q ∧ session = session' := by
  obtain ⟨login, now, t, hown, ht, htoken⟩ := h.of_opened hp
  obtain ⟨login', now', t', hown', ht', htoken'⟩ := h.of_opened hq
  obtain rfl : t = t' := hinj (h.inUse _ ht) (h.inUse _ ht') (by rw [← htoken, hhash, htoken'])
  obtain rfl := h.drawn_once ht ht'
  have hsame := hown.symm.trans hown'
  exact ⟨rfl, (Entry.opened.inj (List.cons.inj hsame).1).2.1⟩

/-! ### What keeps the invariant -/

theorem Directory.of_cons {e : Entry} (h : w'.log = e :: w.log) (q : ℕ) :
    w'.of q = if e.pid? = some q then e :: w.of q else w.of q := by
  rw [of, of, h]
  by_cases hq : e.pid? = some q
  · rw [List.filter_cons_of_pos (by rw [hq, beq_self_eq_true]), if_pos hq]
  · rw [List.filter_cons_of_neg (by simpa using hq), if_neg hq]

/-- Courses of the calls, when one entry was added. -/
theorem Accounted.courses_cons (h : Accounted sha256 settings T w) {e : Entry}
    (hlog : w'.log = e :: w.log) (htokens : w'.tokens = w.tokens) (hids : w'.ids = w.ids)
    (hreadings : w'.readings = w.readings)
    (hnew : ∀ p, e.pid? = some p →
      ∃ job, Course sha256 settings w.tokens w.ids w.readings p job (e :: w.of p)) :
    ∀ q, ∃ job, Course sha256 settings w'.tokens w'.ids w'.readings q job (w'.of q) := by
  intro q
  rw [Directory.of_cons hlog, htokens, hids, hreadings]
  split_ifs with hq
  · exact hnew q hq
  · exact h.courses q

/-- The entry says nothing of attempts and sessions. -/
def Entry.Aside : Entry → Prop
  | refused _ => True
  | issued _ _ => True
  | revoked _ _ _ => True
  | granted _ => True
  | removed _ => True
  | _ => False

/-- An entry of another kind keeps the account. -/
theorem Accounted.note (h : Accounted sha256 settings T w) {e : Entry} (haside : e.Aside)
    (hlog : w'.log = e :: w.log) (htokens : w'.tokens = w.tokens) (hids : w'.ids = w.ids)
    (hreadings : w'.readings = w.readings) (hclock : w'.clock = w.clock)
    (hlogins : w'.logins = w.logins)
    (hsessions : w'.sessions = w.sessions) (husers : w'.users = w.users)
    (hnew : ∀ p, e.pid? = some p →
      ∃ job, Course sha256 settings w.tokens w.ids w.readings p job (e :: w.of p)) :
    Accounted sha256 settings T w' := by
  have hbegun : ∀ {p login}, .begun p login ∈ w'.log ↔ .begun p login ∈ w.log := by
    intro p login
    rw [hlog, List.mem_cons, or_iff_right]
    rintro rfl
    exact haside
  have hconsumed : ∀ {p login now}, .consumed p login now ∈ w'.log ↔
      .consumed p login now ∈ w.log := by
    intro p login now
    rw [hlog, List.mem_cons, or_iff_right]
    rintro rfl
    exact haside
  have hlive : ∀ {session}, Live w'.log session ↔ Live w.log session := by
    intro session
    rw [hlog, live_cons]
    constructor
    · rintro (⟨p, previous, rfl⟩ | ⟨hlive, -⟩)
      · exact haside.elim
      · exact hlive
    · intro hlive
      refine .inr ⟨hlive, ?_⟩
      cases e with
      | opened => exact haside.elim
      | closed => exact haside.elim
      | _ => exact id
  have honce : w'.log.filterMap Entry.consumedState = w.log.filterMap Entry.consumedState := by
    rw [hlog]
    cases e with
    | consumed => exact haside.elim
    | _ => rfl
  exact
    { drawn := by rw [htokens]; exact h.drawn
      inUse := by rw [htokens]; exact h.inUse
      courses := h.courses_cons hlog htokens hids hreadings hnew
      stored := by
        intro login hlogin
        rw [hlogins] at hlogin
        obtain ⟨⟨p, hp⟩, hnot⟩ := h.stored login hlogin
        exact ⟨⟨p, hbegun.mpr hp⟩, fun q now hq => hnot q now (hconsumed.mp hq)⟩
      states := by rw [hlogins]; exact h.states
      once := by rw [honce]; exact h.once
      attempts := by
        intro p login now hp
        obtain ⟨q, hq⟩ := h.attempts p login now (hconsumed.mp hp)
        exact ⟨q, hbegun.mpr hq⟩
      live := by
        intro session hsession
        rw [hsessions] at hsession
        exact hlive.mpr (h.live session hsession)
      kept := by
        intro session hsession hclock'
        rw [hclock] at hclock'
        rw [hsessions]
        exact h.kept session (hlive.mp hsession) hclock'
      distinct := by rw [hsessions]; exact h.distinct
      owned := by rw [hsessions, husers]; exact h.owned
      named := by rw [husers]; exact h.named }

/-- A new token. -/
theorem Accounted.draw (h : Accounted sha256 settings T w) {t : JsString}
    (hfresh : ∀ u ∈ w.tokens, u.2 ≠ t) (ht : t ∈ T) :
    Accounted sha256 settings T { w with
      tokens := (pid, t) :: w.tokens } where
  drawn := by
    rw [List.map_cons, List.nodup_cons]
    refine ⟨fun hmem => ?_, h.drawn⟩
    obtain ⟨u, hu, heq⟩ := List.mem_map.mp hmem
    exact hfresh u hu heq
  inUse := by
    intro u hu
    rcases List.mem_cons.mp hu with rfl | hu
    · exact ht
    · exact h.inUse u hu
  courses := by
    intro q
    obtain ⟨job, hcourse⟩ := h.courses q
    exact ⟨job, hcourse.mono (fun _ hu => List.mem_cons_of_mem _ hu) (fun _ hi => hi)
      (fun _ hn => hn)⟩
  stored := h.stored
  states := h.states
  once := h.once
  attempts := h.attempts
  live := h.live
  kept := h.kept
  distinct := h.distinct
  owned := h.owned
  named := h.named

/-- A new id. -/
theorem Accounted.drawId (h : Accounted sha256 settings T w) {i : JsString} :
    Accounted sha256 settings T { w with
      ids := (pid, i) :: w.ids } :=
  { h with
    courses := by
      intro q
      obtain ⟨job, hcourse⟩ := h.courses q
      exact ⟨job, hcourse.mono (fun _ hu => hu) (fun _ hi => List.mem_cons_of_mem _ hi)
        (fun _ hn => hn)⟩ }

/-- A call reads the clock. -/
theorem Accounted.read (h : Accounted sha256 settings T w) {n : ℤ} :
    Accounted sha256 settings T { w with
      readings := (pid, n) :: w.readings } :=
  { h with
    courses := by
      intro q
      obtain ⟨job, hcourse⟩ := h.courses q
      exact ⟨job, hcourse.mono (fun _ hu => hu) (fun _ hi => hi)
        (fun _ hn => List.mem_cons_of_mem _ hn)⟩ }

/-- Time passes. -/
theorem Accounted.passTime (h : Accounted sha256 settings T w) (n : ℕ) :
    Accounted sha256 settings T { w with
      clock := w.clock + n } :=
  { h with
    kept := by
      intro session hlive hclock
      apply h.kept session hlive
      have hlater : w.clock + n < session.expiresAt := hclock
      omega }

/-- **`createLogin`**: a new attempt, and the expired ones are gone. -/
theorem Accounted.createLogin (h : Accounted sha256 settings T w)
    (hinj : Set.InjOn (tokenHash sha256) T) (hown : w.of pid = []) {login : OAuthLogin}
    (hcourse : Course sha256 settings w.tokens w.ids w.readings pid job [.begun pid login]) :
    Accounted sha256 settings T (w.createLogin pid login).2 := by
  unfold Directory.createLogin
  simp only
  split_ifs with hused
  · exact h
  · obtain ⟨-, -, state, browser, hs, -, hstate, -⟩ := hcourse.of_begun List.mem_cons_self
    -- the state was drawn by this call, so no attempt has it yet
    have hnone : ∀ q login', .begun q login' ∈ w.log → login'.stateHash ≠ login.stateHash := by
      intro q login' hq heq
      obtain ⟨hown', s', -, hs', -, hstate', -⟩ := h.of_begun hq
      obtain rfl : s' = state :=
        hinj (h.inUse _ hs') (h.inUse _ hs) (by rw [← hstate', heq, hstate])
      obtain rfl := h.drawn_once hs hs'
      rw [hown] at hown'
      cases hown'
    exact
      { drawn := h.drawn
        inUse := h.inUse
        courses := h.courses_cons (e := .begun pid login) rfl rfl rfl rfl (by
          intro p hp
          obtain rfl := Option.some.inj hp
          rw [hown]
          exact ⟨job, hcourse⟩)
        stored := by
          intro login' hlogin'
          rcases List.mem_cons.mp hlogin' with rfl | hold
          · refine ⟨⟨pid, List.mem_cons_self⟩, fun p now hp => ?_⟩
            rcases List.mem_cons.mp hp with heq | hp
            · cases heq
            · obtain ⟨q, hq⟩ := h.attempts p login' now hp
              exact hnone q login' hq rfl
          · obtain ⟨⟨p, hp⟩, hnot⟩ := h.stored login' (List.mem_filter.mp hold).1
            refine ⟨⟨p, List.mem_cons_of_mem _ hp⟩, fun q now hq => ?_⟩
            rcases List.mem_cons.mp hq with heq | hq
            · cases heq
            · exact hnot q now hq
        states := by
          rw [List.map_cons, List.nodup_cons]
          refine ⟨fun hmem => ?_, h.states.sublist (List.filter_sublist.map _)⟩
          obtain ⟨login', hlogin', heq⟩ := List.mem_map.mp hmem
          exact hused (List.any_eq_true.mpr ⟨login', hlogin', by rw [heq, beq_self_eq_true]⟩)
        once := h.once
        attempts := by
          intro p login' now hp
          rcases List.mem_cons.mp hp with heq | hp
          · cases heq
          · obtain ⟨q, hq⟩ := h.attempts p login' now hp
            exact ⟨q, List.mem_cons_of_mem _ hq⟩
        live := fun session hsession =>
          live_cons.mpr (.inr ⟨h.live session hsession, id⟩)
        kept := by
          intro session hlive hclock
          rcases live_cons.mp hlive with ⟨p, previous, heq⟩ | ⟨hlive, -⟩
          · cases heq
          · exact h.kept session hlive hclock
        distinct := h.distinct
        owned := h.owned
        named := h.named }

/-- At most one row has a state. -/
theorem doomed_rows {logins : List OAuthLogin} (h : (logins.map OAuthLogin.stateHash).Nodup)
    (stateHash browserHash : JsString) (now : ℤ) :
    logins.filter (Directory.doomed stateHash browserHash now) = [] ∨
      ∃ login ∈ logins, login.stateHash = stateHash ∧ login.browserHash = browserHash ∧
        now < login.expiresAt ∧
        logins.filter (Directory.doomed stateHash browserHash now) = [login] := by
  have hall : ∀ l ∈ logins.filter (Directory.doomed stateHash browserHash now), l ∈ logins ∧
      l.stateHash = stateHash ∧ l.browserHash = browserHash ∧ now < l.expiresAt := by
    intro l hl
    obtain ⟨hmem, hdoomed⟩ := List.mem_filter.mp hl
    simp only [Directory.doomed, Bool.and_eq_true, beq_iff_eq, decide_eq_true_eq] at hdoomed
    exact ⟨hmem, hdoomed.1.1, hdoomed.1.2, hdoomed.2⟩
  have hnodup : ((logins.filter (Directory.doomed stateHash browserHash now)).map
      OAuthLogin.stateHash).Nodup := h.sublist (List.filter_sublist.map _)
  cases hrows : logins.filter (Directory.doomed stateHash browserHash now) with
  | nil => exact .inl rfl
  | cons login rest =>
      rw [hrows] at hall hnodup
      obtain ⟨hmem, hstate, hbrowser, hnow⟩ := hall login List.mem_cons_self
      obtain rfl : rest = [] := by
        apply List.eq_nil_iff_forall_not_mem.mpr
        intro other hother
        have hother' := hall other (List.mem_cons_of_mem _ hother)
        apply (List.nodup_cons.mp hnodup).1
        exact List.mem_map.mpr ⟨other, hother, by rw [hother'.2.1, hstate]⟩
      exact .inr ⟨login, hmem, hstate, hbrowser, hnow, rfl⟩

/-- **`deleteLogin`**: one attempt is consumed, or none. -/
theorem Accounted.deleteLogin (h : Accounted sha256 settings T w)
    (hinj : Set.InjOn (tokenHash sha256) T) (hown : w.of pid = []) {c : Callback}
    (hc : callbackOf sha256 settings job = some c) {now : ℤ} (hread : (pid, now) ∈ w.readings) :
    Accounted sha256 settings T (w.deleteLogin pid c.stateHash c.browserHash now).2 ∧
      (((w.deleteLogin pid c.stateHash c.browserHash now).1 = 0 ∧
          (w.deleteLogin pid c.stateHash c.browserHash now).2.of pid = []) ∨
        ((w.deleteLogin pid c.stateHash c.browserHash now).1 = 1 ∧ ∃ login,
          Took w.readings pid c login now ∧
          (w.deleteLogin pid c.stateHash c.browserHash now).2.of pid =
            [.consumed pid login now])) := by
  unfold Directory.deleteLogin
  rcases doomed_rows h.states c.stateHash c.browserHash now with
    hrows | ⟨login, hmem, hstate, hbrowser, hnow, hrows⟩
  · -- nothing matched
    have hkeep : w.logins.filter (fun l => !Directory.doomed c.stateHash c.browserHash now l) =
        w.logins := by
      rw [List.filter_eq_self]
      intro l hl
      have hnot := List.filter_eq_nil_iff.mp hrows l hl
      simpa using hnot
    rw [hrows, hkeep]
    exact ⟨h, .inl ⟨rfl, hown⟩⟩
  · rw [hrows]
    simp only [List.map_cons, List.map_nil, List.cons_append, List.nil_append,
      List.length_singleton]
    obtain ⟨⟨q, hq⟩, hunused⟩ := h.stored login hmem
    have htook : Took w.readings pid c login now := ⟨hstate, hbrowser, hnow, hread⟩
    have hcourse : Course sha256 settings w.tokens w.ids w.readings pid job
        [.consumed pid login now] := .consumed hc htook
    refine ⟨?_, .inr ⟨trivial, login, htook, ?_⟩⟩
    · exact
        { drawn := h.drawn
          inUse := h.inUse
          courses := h.courses_cons (e := .consumed pid login now) rfl rfl rfl rfl (by
            intro p hp
            obtain rfl := Option.some.inj hp
            rw [hown]
            exact ⟨job, hcourse⟩)
          stored := by
            intro other hother
            obtain ⟨hother, hsafe⟩ := List.mem_filter.mp hother
            obtain ⟨⟨p, hp⟩, hnot⟩ := h.stored other hother
            refine ⟨⟨p, List.mem_cons_of_mem _ hp⟩, fun p' now' hp' => ?_⟩
            rcases List.mem_cons.mp hp' with heq | hp'
            · -- the row that was consumed is not there any more
              obtain ⟨-, rfl, -⟩ := Entry.consumed.inj heq
              simp [Directory.doomed, hstate, hbrowser, hnow] at hsafe
            · exact hnot p' now' hp'
          states := h.states.sublist (List.filter_sublist.map _)
          once := by
            show (login.stateHash :: w.log.filterMap Entry.consumedState).Nodup
            rw [List.nodup_cons]
            refine ⟨fun hused => ?_, h.once⟩
            obtain ⟨e, he, heq⟩ := List.mem_filterMap.mp hused
            cases e with
            | consumed p other now' =>
                obtain ⟨q', hq'⟩ := h.attempts p other now' he
                obtain ⟨-, rfl⟩ := h.attempt_unique hinj hq' hq (Option.some.inj heq)
                exact hunused p now' he
            | _ => cases heq
          attempts := by
            intro p other now' hp
            rcases List.mem_cons.mp hp with heq | hp
            · obtain ⟨-, rfl, -⟩ := Entry.consumed.inj heq
              exact ⟨q, List.mem_cons_of_mem _ hq⟩
            · obtain ⟨q', hq'⟩ := h.attempts p other now' hp
              exact ⟨q', List.mem_cons_of_mem _ hq'⟩
          live := fun session hsession =>
            live_cons.mpr (.inr ⟨h.live session hsession, id⟩)
          kept := by
            intro session hlive hclock
            rcases live_cons.mp hlive with ⟨p, previous, heq⟩ | ⟨hlive, -⟩
            · cases heq
            · exact h.kept session hlive hclock
          distinct := h.distinct
          owned := h.owned
          named := h.named }
    · rw [Directory.of_cons (w := w) (e := .consumed pid login now) rfl, if_pos (by rfl), hown]

/-- The user of a sign-in is stored, and the others stay. -/
theorem upsertUser_spec {identity : GithubIdentity} {id : JsString} {user : User}
    {users : List User} (hnamed : (w.users.map User.id).Nodup)
    (h : w.upsertUser identity id = .ok (user, users)) : user ∈ users ∧
      (∀ u ∈ w.users, ∃ v ∈ users, v.id = u.id) ∧ (users.map User.id).Nodup := by
  unfold Directory.upsertUser at h
  split at h
  · next u hfound =>
      obtain ⟨rfl, rfl⟩ := Prod.mk.inj (Except.ok.inj h)
      have hu := List.mem_of_find?_eq_some hfound
      have hids : (w.users.map (fun v => if v.id = u.id then ({ u with
          githubLogin := identity.githubLogin } : User) else v)).map User.id =
            w.users.map User.id := by
        rw [List.map_map]
        apply List.map_congr_left
        intro v _
        by_cases hv : v.id = u.id
        · simp [hv]
        · simp [hv]
      refine ⟨List.mem_map.mpr ⟨u, hu, if_pos rfl⟩, fun v hv => ?_, by rw [hids]; exact hnamed⟩
      have hmem : v.id ∈ (w.users.map (fun v => if v.id = u.id then ({ u with
          githubLogin := identity.githubLogin } : User) else v)).map User.id := by
        rw [hids]
        exact List.mem_map_of_mem hv
      obtain ⟨x, hx, heq⟩ := List.mem_map.mp hmem
      exact ⟨x, hx, heq⟩
  · split_ifs at h with hused
    obtain ⟨rfl, rfl⟩ := Prod.mk.inj (Except.ok.inj h)
    refine ⟨List.mem_cons_self, fun v hv => ⟨v, List.mem_cons_of_mem _ hv, rfl⟩, ?_⟩
    rw [List.map_cons, List.nodup_cons]
    refine ⟨fun hmem => ?_, hnamed⟩
    obtain ⟨v, hv, heq⟩ := List.mem_map.mp hmem
    exact hused (List.any_eq_true.mpr ⟨v, hv, by rw [heq, beq_self_eq_true]⟩)

/-- **`createSession`**: a new session, in place of the one that was presented. -/
theorem Accounted.createSession (h : Accounted sha256 settings T w) {c : Callback}
    {login : OAuthLogin} {now : ℤ} (hown : w.of pid = [.consumed pid login now])
    (hc : callbackOf sha256 settings job = some c) (htook : Took w.readings pid c login now)
    {token : JsString} (ht : (pid, token) ∈ w.tokens) {session : NewSession}
    (htoken : session.tokenHash = tokenHash sha256 token) (identity : GithubIdentity)
    (id : JsString) :
    Accounted sha256 settings T (w.createSession pid identity session c.previous id).2 ∧
      ∃ entries, (w.createSession pid identity session c.previous id).2.of pid = entries ∧
        Course sha256 settings w.tokens w.ids w.readings pid job entries := by
  unfold Directory.createSession
  cases hupsert : w.upsertUser identity id with
  | error error => exact ⟨h, _, hown, .consumed hc htook⟩
  | ok r =>
      obtain ⟨user, users⟩ := r
      obtain ⟨huser, hothers, hnamed⟩ := upsertUser_spec h.named hupsert
      simp only
      split_ifs with hused
      · exact ⟨h, _, hown, .consumed hc htook⟩
      · let row : AuthSession := ⟨session.tokenHash, user.id, session.csrfToken, session.expiresAt⟩
        have hcourse : Course sha256 settings w.tokens w.ids w.readings pid job
            [.opened pid row c.previous, .consumed pid login now] :=
          .opened hc htook ht htoken
        -- expired sessions and the previous one go
        have hleft : ∀ {s}, s ∈ w.otherSessions c.previous ↔
            s ∈ w.sessions ∧ w.clock < s.expiresAt ∧ c.previous ≠ some s.tokenHash := by
          intro s
          simp only [Directory.otherSessions, List.mem_filter, Bool.not_eq_true',
            Bool.or_eq_false_iff, decide_eq_false_iff_not, not_le, beq_eq_false_iff_ne, ne_eq]
        refine ⟨?_, _, ?_, hcourse⟩
        · exact
            { drawn := h.drawn
              inUse := h.inUse
              courses := h.courses_cons (e := .opened pid row c.previous) rfl rfl rfl rfl (by
                intro p hp
                obtain rfl := Option.some.inj hp
                rw [hown]
                exact ⟨job, hcourse⟩)
              stored := by
                intro other hother
                obtain ⟨⟨p, hp⟩, hnot⟩ := h.stored other hother
                refine ⟨⟨p, List.mem_cons_of_mem _ hp⟩, fun p' now' hp' => ?_⟩
                rcases List.mem_cons.mp hp' with heq | hp'
                · cases heq
                · exact hnot p' now' hp'
              states := h.states
              once := h.once
              attempts := by
                intro p other now' hp
                rcases List.mem_cons.mp hp with heq | hp
                · cases heq
                · obtain ⟨q, hq⟩ := h.attempts p other now' hp
                  exact ⟨q, List.mem_cons_of_mem _ hq⟩
              live := by
                intro s hs
                rcases List.mem_cons.mp hs with rfl | hs
                · exact live_cons.mpr (.inl ⟨pid, _, rfl⟩)
                · obtain ⟨hs, -, hprevious⟩ := hleft.mp hs
                  exact live_cons.mpr (.inr ⟨h.live s hs, hprevious⟩)
              kept := by
                intro s hlive hclock
                rcases live_cons.mp hlive with ⟨p, previous, heq⟩ | ⟨hlive, hends⟩
                · obtain ⟨-, rfl, -⟩ := Entry.opened.inj heq
                  exact List.mem_cons_self
                · exact List.mem_cons_of_mem _
                    (hleft.mpr ⟨h.kept s hlive hclock, hclock, hends⟩)
              distinct := by
                rw [List.map_cons, List.nodup_cons]
                -- a hash in use would have failed the insert
                refine ⟨fun hmem => ?_, h.distinct.sublist (List.filter_sublist.map _)⟩
                obtain ⟨s, hs, heq⟩ := List.mem_map.mp hmem
                exact hused (List.any_eq_true.mpr ⟨s, hs, by rw [heq, beq_self_eq_true]⟩)
              owned := by
                intro s hs
                rcases List.mem_cons.mp hs with rfl | hs
                · exact ⟨user, huser, rfl⟩
                · obtain ⟨u, hu, heq⟩ := h.owned s (hleft.mp hs).1
                  obtain ⟨v, hv, heq'⟩ := hothers u hu
                  exact ⟨v, hv, heq'.trans heq⟩
              named := hnamed }
        · rw [Directory.of_cons (w := w) (e := .opened pid row c.previous) rfl, if_pos (by rfl),
            hown]

/-- `deleteSession`. -/
theorem Accounted.deleteSession (h : Accounted sha256 settings T w) (hown : w.of pid = [])
    (hash : JsString) : Accounted sha256 settings T (w.deleteSession pid hash) where
  drawn := h.drawn
  inUse := h.inUse
  courses := h.courses_cons (e := .closed pid hash) rfl rfl rfl rfl (by
    intro p hp
    obtain rfl := Option.some.inj hp
    rw [hown]
    exact ⟨.begin, .closed⟩)
  stored := by
    intro other hother
    obtain ⟨⟨p, hp⟩, hnot⟩ := h.stored other hother
    refine ⟨⟨p, List.mem_cons_of_mem _ hp⟩, fun p' now' hp' => ?_⟩
    rcases List.mem_cons.mp hp' with heq | hp'
    · cases heq
    · exact hnot p' now' hp'
  states := h.states
  once := h.once
  attempts := by
    intro p other now' hp
    rcases List.mem_cons.mp hp with heq | hp
    · cases heq
    · obtain ⟨q, hq⟩ := h.attempts p other now' hp
      exact ⟨q, List.mem_cons_of_mem _ hq⟩
  live := by
    intro s hs
    obtain ⟨hs, hne⟩ := List.mem_filter.mp hs
    exact live_cons.mpr (.inr ⟨h.live s hs, fun heq => (bne_iff_ne.mp hne) heq.symm⟩)
  kept := by
    intro s hlive hclock
    rcases live_cons.mp hlive with ⟨p, previous, heq⟩ | ⟨hlive, hends⟩
    · cases heq
    · exact List.mem_filter.mpr
        ⟨h.kept s hlive hclock, bne_iff_ne.mpr fun heq => hends heq.symm⟩
  distinct := h.distinct.sublist (List.filter_sublist.map _)
  owned := fun s hs => h.owned s (List.mem_filter.mp hs).1
  named := h.named

end

end Identity
