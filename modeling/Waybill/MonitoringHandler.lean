/-
# The monitoring endpoint (`handle` of `web/src/server/observability.ts`)

Any number of calls of `handle` run at once.  Each of them asks for its session, takes a report
from the cache or waits for a snapshot, which it may share with others.  What happens between two
`await`s is one step, and the steps of the calls may come in any order.

* `letIn`: what a call does with the answer to `/auth/me`.
* `Handler.step`: one step of the calls or of the snapshots.
* `Handler.Sound`: the invariant.
* `monitoring_guarded`: few snapshots and reports, no report without a session, no report that is
  too old, no failed snapshot in the cache.
-/
import Waybill.Base64Url
import Waybill.JsMap
import Waybill.MonitoringReports
import Waybill.Process

namespace Monitoring

/-! ## Requests -/

/-- What is read of a URL. -/
structure Url where
  protocol : JsString
  username : JsString
  password : JsString
  hostname : JsString
  host : JsString
  pathname : JsString
  search : JsString
  hash : JsString
  origin : JsString
  searchParams : List (JsString × JsString)

/-- `new URL(s)`, which throws for `none`; `Date.parse(s)`, which is `NaN` for `none`; and
`a.localeCompare(b)`. -/
structure Platform where
  parseUrl : JsString → Option Url
  parseDate : JsString → Option ℚ
  localeCompare : JsString → JsString → Ordering

/-- What is read of a request. -/
structure Request where
  url : JsString
  host : Option JsString
  origin : Option JsString
  secFetchSite : Option JsString
  cookie : Option JsString

/-- What is read of the environment. -/
structure Settings where
  authApiOrigin : Option JsString
  authWebOrigin : Option JsString
  nodeEnv : Option JsString
  operatorGithubIds : Option JsString
  prometheusOrigin : Option JsString

/-- The error of a failed snapshot. -/
def unavailable : MonitoringError :=
  { status := 503, message := js "Monitoring is temporarily unavailable." }

/-- The error of a configuration that cannot be used. -/
def unconfigured : MonitoringError :=
  { status := 503, message := js "Monitoring configuration is unavailable." }

/-- The error of a request without a valid session. -/
def signInRequired : MonitoringError :=
  { status := 401, message := js "Sign in required." }

/-- The error of a session that could not be verified. -/
def unverified : MonitoringError :=
  { status := 503, message := js "Session verification is unavailable." }

/-- The error of a range that is none. -/
def unsupportedRange : MonitoringError :=
  { status := 400, message := js "Use a supported monitoring range." }

/-- The error of a fourth snapshot. -/
def busy : MonitoringError :=
  { status := 503, message := js "Monitoring is busy. Try again shortly." }

/-- `/^[1-9][0-9]{0,19}$/` -/
def isGithubId (s : JsString) : Bool :=
  s.length ≤ 20 && s.all Json.isDigit &&
    match s with
    | [] => false
    | d :: _ => d ≠ 48

/-- `operatorIds` -/
def operatorIds (value : Option JsString) : List JsString :=
  match value with
  | none => []
  | some value =>
      if value = [] ∨ 4096 < value.length then []
      else
        let ids := (value.splitOn 44).map JsString.trim
        if ids.length ≤ 100 ∧ ids.all isGithubId then ids else []

section

variable (platform : Platform)

/-- `origin` -/
def originOf (value : Option JsString) : Except MonitoringError Url :=
  match platform.parseUrl (value.getD []) with
  | some url =>
      if [js "http:", js "https:"].contains url.protocol ∧ url.username = [] ∧
          url.password = [] ∧ url.pathname = js "/" ∧ url.search = [] ∧ url.hash = [] then .ok url
      else .error unconfigured
  | none => .error unconfigured

/-- `s.toLowerCase()`, of the characters of a header. -/
def lowerHeader (s : JsString) : JsString :=
  s.map (fun u =>
    if (0xC0 ≤ u.toNat ∧ u.toNat ≤ 0xDE ∧ u ≠ 0xD7) then UInt16.ofNat (u.toNat + 32)
    else lowerUnit u)

/-- The origins of the API and of the page, and the cookie of the session. -/
structure Topology where
  api : Url
  web : Url
  cookieName : JsString

/-- `monitoringTopology`. -/
def monitoringTopology (request : Request) (env : Settings) : Except MonitoringError Topology := do
  let api ← originOf platform env.authApiOrigin
  let web ← originOf platform env.authWebOrigin
  let isLocal := [js "127.0.0.1", js "localhost", js "[::1]"].contains web.hostname
  let matchingHost ←
    match request.host with
    -- an empty `Host` counts as none
    | some (u :: host) => Except.ok (lowerHeader (u :: host) == web.host)
    | _ =>
        match platform.parseUrl request.url with
        | some url => .ok (url.origin == web.origin)
        | none => .error unavailable
  -- plain http is for a local page outside production only
  if api.hostname ≠ web.hostname || api.protocol ≠ web.protocol || !matchingHost ||
      (web.protocol ≠ js "https:" && (!isLocal || env.nodeEnv == some (js "production"))) then
    throw { status := 503, message := js "Monitoring session topology is unsupported." }
  -- a request of another origin is refused, one without an origin is not
  if request.origin.any (fun origin => origin ≠ [] && origin ≠ web.origin) ||
      request.secFetchSite == some (js "cross-site") then
    throw { status := 403, message := js "Monitoring access is restricted." }
  let cookieName :=
    if api.protocol = js "https:" then js "__Host-waybill-session" else js "waybill-session"
  return { api := api, web := web, cookieName := cookieName }

/-- One to three digits. -/
def isHostPart (s : JsString) : Bool :=
  s ≠ [] && s.length ≤ 3 && s.all Json.isDigit

/-- `1[6-9]|2\d|3[01]` -/
def isPrivatePart (s : JsString) : Bool :=
  s.length == 2 && s.all Json.isDigit && 16 ≤ Json.digitsValue s && Json.digitsValue s ≤ 31

/-- `/^[a-z][a-z0-9-]*$/` -/
def isHostName : JsString → Bool
  | [] => false
  | u :: s =>
      (97 ≤ u.toNat && u.toNat ≤ 122) &&
        s.all (fun v => (97 ≤ v.toNat && v.toNat ≤ 122) || Json.isDigit v || v == 45)

/-- The host is this machine, or in a private network. -/
def privateHost (host : JsString) : Bool :=
  [js "localhost", js "127.0.0.1", js "[::1]"].contains host ||
    (match host.splitOn 46 with
      | [a, b, c, d] =>
          isHostPart c && isHostPart d &&
            ((a == js "10" && isHostPart b) || (a == js "192" && b == js "168") ||
              (a == js "172" && isPrivatePart b))
      | _ => false) ||
    isHostName host || (js ".internal").isSuffixOf host

/-- `prometheusOrigin`. -/
def prometheusOrigin (env : Settings) : Except MonitoringError JsString := do
  let url ← originOf platform env.prometheusOrigin
  if privateHost url.hostname then return url.origin else throw unconfigured

/-! ## Sessions -/

/-- `/^name=[A-Za-z0-9_-]{43}$/` -/
def isSessionCookie (cookieName cookie : JsString) : Bool :=
  (cookieName ++ [61]).isPrefixOf cookie &&
    (cookie.drop (cookieName.length + 1)).length == 43 &&
    (cookie.drop (cookieName.length + 1)).all Base64Url.isLetter

/-- The cookie that a call sends to `/auth/me`. -/
def sessionCookie (request : Request) (env : Settings) : Except MonitoringError JsString := do
  let topology ← monitoringTopology platform request env
  let cookies := (((request.cookie.getD []).splitOn 59).map JsString.trim).filter
    (fun s => (topology.cookieName ++ [61]).isPrefixOf s)
  match cookies with
  | [cookie] =>
      if isSessionCookie topology.cookieName cookie then .ok cookie else .error signInRequired
  | _ => .error signInRequired

/-- The answer to `/auth/me`: none, or a status with a body, which is a value if it was read. -/
inductive SessionAnswer where
  | failed
  | answered (status : ℕ) (body : Option Json)

/-- The member is a string. -/
def stringOf (v : Json) (name : JsString) : Option JsString := (v.get? name).bind Json.str?

/-- The operator of a session, at a time. -/
def verifySession (env : Settings) (answer : SessionAnswer) (time : ℚ) :
    Except MonitoringError JsString :=
  match answer with
  | .failed => .error unverified
  | .answered status body =>
      -- a session the API does not know is different from an API that fails
      if status = 401 then .error signInRequired
      else if ¬ (200 ≤ status ∧ status ≤ 299) then .error unverified
      else
        match body, (body.bind (fun session => session.get? (js "user"))) with
        | some session, some (.obj members) =>
            match stringOf (.obj members) (js "githubId"),
                (stringOf session (js "expiresAt")).bind platform.parseDate with
            | some githubId, some expiresAt =>
                -- expiry is compared at the time the answer is in
                if isGithubId githubId = false ∨ expiresAt ≤ time then .error signInRequired
                else if (operatorIds env.operatorGithubIds).contains githubId then .ok githubId
                else .error { status := 403, message := js "Operator access required." }
            | _, _ => .error signInRequired
        | _, _ => .error unavailable

/-- The range of a name. -/
def rangeOfName (name : JsString) : Option MonitoringRange :=
  [MonitoringRange.fiveMinutes, .oneHour, .sixHours, .oneDay].find?
    (fun range => range.name == name)

/-- The range of a request; the parameters are `range` once at most. -/
def requestedRange (request : Request) : Except MonitoringError MonitoringRange :=
  match platform.parseUrl request.url with
  | none => .error unavailable
  | some url =>
      if url.searchParams.any (fun p => p.1 ≠ js "range") ∨ 1 < url.searchParams.length then
        .error unsupportedRange
      else
        match rangeOfName ((url.searchParams.head?.map Prod.snd).getD (js "24h")) with
        | some range => .ok range
        | none => .error unsupportedRange

/-- What a call asks for, once its session is verified. -/
def letIn (request : Request) (env : Settings) (answer : SessionAnswer) (time : ℚ) :
    Except MonitoringError (JsString × MonitoringRange) := do
  let _ ← verifySession platform env answer time
  let range ← requestedRange platform request
  let prometheus ← prometheusOrigin platform env
  return (prometheus, range)

end

/-! ## How long a report is fresh -/

/-- `monitoringLimits.cacheMs`. -/
def cacheMs : ℚ := 10000

/-- When the sources of the current samples become too old, in milliseconds. -/
def boundaries (localeCompare : JsString → JsString → Ordering) (clock : ℚ) (answers : Answers) :
    List ℚ :=
  [(QueryKey.scrapeTime, (45 : ℚ)), (QueryKey.sampleTime, (90 : ℚ))].flatMap (fun b =>
    (currentQueries localeCompare clock answers b.1).series.filterMap (fun s =>
      ((textAt s none).bind JsString.toNumber).map (fun stamp => (stamp + b.2) * 1000)))

/-- What `freshness` has for the report of a snapshot that was begun at `clock`, and ended at
`time`. -/
def freshUntil (localeCompare : JsString → JsString → Ordering) (clock : ℚ) (answers : Answers)
    (time : ℚ) : ℚ :=
  ((boundaries localeCompare clock answers).filter
    (fun boundary => decide (checkedAt clock * 1000 < boundary))).foldl min (time + cacheMs)

/-! ## The steps -/

/-- How a snapshot ended. -/
structure Completion where
  answers : Answers
  time : ℚ

/-- A snapshot: its target and range, when it was begun, and what it came to. -/
structure Snapshot where
  prometheus : JsString
  range : MonitoringRange
  begun : ℚ
  result : Option Completion := none

/-- An entry of `cache`, with the number of the snapshot that it is from. -/
structure CacheEntry where
  expires : ℚ
  report : MonitoringReport
  snapshot : ℕ

/-- Where a call is: before it, at `/auth/me`, at the promise of a snapshot, or past it. -/
inductive CallPhase where
  | idle
  | asking
  | waiting (snapshot : ℕ)
  | done

/-- What has happened: a call got its answer to `/auth/me`, a snapshot ended, a call returned the
report of a snapshot, which it took from the cache at a time if there is one, or an error. -/
inductive LogEntry where
  | session (call : ℕ) (answer : SessionAnswer) (time : ℚ)
  | completed (snapshot : ℕ) (prometheus : JsString) (range : MonitoringRange) (begun : ℚ)
      (completion : Completion)
  | served (call snapshot : ℕ) (cachedAt : Option ℚ) (result : Except MonitoringError JsValue)
  | refused (call : ℕ) (error : MonitoringError)

/-- The state of `createMonitoringHandler`: its maps, its calls and their snapshots, the time of
the clock, and what has happened, the last one first. -/
structure Handler where
  phase : ℕ → CallPhase
  snapshots : List Snapshot
  inflight : JsMap JsString ℕ
  cache : JsMap JsString CacheEntry
  now : ℚ
  log : List LogEntry

/-- What can happen: a request arrives, its session is answered, a snapshot settles, its key is
released, and a waiting call goes on. -/
inductive HandlerEvent where
  | arrive (call : ℕ)
  | session (call : ℕ) (answer : SessionAnswer) (t₁ t₂ t₃ : ℚ)
  | settle (snapshot : ℕ) (answers : Answers) (time : ℚ)
  | release (snapshot : ℕ)
  | resume (call : ℕ) (time : ℚ)

/-- `${prometheus}:${range}`. -/
def cacheKey (prometheus : JsString) (range : MonitoringRange) : JsString :=
  prometheus ++ js ":" ++ range.name

namespace Snapshot

/-- The key of a snapshot. -/
def key (s : Snapshot) : JsString := cacheKey s.prometheus s.range

end Snapshot

namespace Handler

/-- A call goes on to another phase. -/
def setPhase (s : Handler) (call : ℕ) (phase : CallPhase) : Handler :=
  { s with
    phase := Function.update s.phase call phase }

/-- A call returns the report of a snapshot. -/
def serve (s : Handler) (call k : ℕ) (cachedAt : Option ℚ) (report : MonitoringReport) : Handler :=
  { s.setPhase call .done with
    log := .served call k cachedAt (respond report) :: s.log }

/-- A call returns an error. -/
def refuse (s : Handler) (call : ℕ) (error : MonitoringError) : Handler :=
  { s.setPhase call .done with
    log := .refused call error :: s.log }

/-- A call with a verified session: a report of the cache, or a snapshot. -/
def proceed (s : Handler) (call : ℕ) (prometheus : JsString) (range : MonitoringRange)
    (t₂ t₃ : ℚ) : Handler :=
  let key := cacheKey prometheus range
  match (s.cache.get key).filter (fun entry => decide (t₂ < entry.expires)) with
  | some entry => s.serve call entry.snapshot (some t₂) entry.report
  | none =>
      match s.inflight.get key with
      -- someone has asked for the same: wait for it
      | some k => s.setPhase call (.waiting k)
      | none =>
          -- at most three snapshots are under way
          if 3 ≤ s.inflight.size then s.refuse call busy
          else
            let k := s.snapshots.length
            let snapshot : Snapshot := { prometheus := prometheus, range := range, begun := t₃ }
            let s := { s with
              snapshots := s.snapshots ++ [snapshot]
              inflight := s.inflight.set key k }
            s.setPhase call (.waiting k)

/-- A report is kept, in the place of the oldest one if there are three. -/
def remember (s : Handler) (key : JsString) (entry : CacheEntry) : Handler :=
  let cache :=
    if 3 ≤ s.cache.size then
      match s.cache.entries with
      | [] => s.cache
      | first :: _ => s.cache.delete first.1
    else s.cache
  { s with
    cache := cache.set key entry }

section

variable (platform : Platform) (input : ℕ → Request × Settings)

/-- One step of a call or of a snapshot. -/
def step (s : Handler) : HandlerEvent → Option Handler
  | .arrive call =>
      match s.phase call with
      | .idle =>
          match sessionCookie platform (input call).1 (input call).2 with
          | .ok _ => some (s.setPhase call .asking)
          | .error error => some (s.refuse call error)
      | _ => none
  | .session call answer t₁ t₂ t₃ =>
      match s.phase call with
      | .asking =>
          let s := { s with
            now := t₃
            log := .session call answer t₁ :: s.log }
          -- the request goes on without an await up to the snapshot
          match letIn platform (input call).1 (input call).2 answer t₁ with
          | .ok (prometheus, range) => some (s.proceed call prometheus range t₂ t₃)
          | .error error => some (s.refuse call error)
      | _ => none
  | .settle k answers time =>
      match s.snapshots[k]? with
      | some snapshot =>
          -- a promise settles once
          if snapshot.result.isNone then
            let completion : Completion := { answers := answers, time := time }
            some { s with
              now := time
              snapshots := s.snapshots.set k { snapshot with
                result := some completion }
              log := .completed k snapshot.prometheus snapshot.range snapshot.begun completion ::
                s.log }
          else none
      | none => none
  | .release k =>
      match s.snapshots[k]? with
      | some snapshot =>
          -- `finally` of the snapshot, unless another one has taken its place
          if snapshot.result.isSome ∧ s.inflight.get snapshot.key = some k then
            some { s with
              inflight := s.inflight.delete snapshot.key }
          else none
      | none => none
  | .resume call time =>
      match s.phase call with
      | .waiting k =>
          match s.snapshots[k]? with
          -- everyone who waited gets the same answers
          | some { prometheus, range, begun, result := some completion } =>
              match snapshot platform.localeCompare range begun completion.answers with
              | .ok report =>
                  let entry : CacheEntry :=
                    { expires := min (time + cacheMs)
                        (freshUntil platform.localeCompare begun completion.answers completion.time)
                      report := report
                      snapshot := k }
                  let s := { s.remember (cacheKey prometheus range) entry with
                    now := time }
                  some (s.serve call k none report)
              | .error error => some (s.refuse call error)
          | _ => none
      | _ => none

/-- The clock does not go back. -/
def Onwards (s : Handler) : HandlerEvent → Prop
  | .arrive _ => True
  | .session _ _ t₁ t₂ t₃ => s.now ≤ t₁ ∧ t₁ ≤ t₂ ∧ t₂ ≤ t₃
  | .settle _ _ time => s.now ≤ time
  | .release _ => True
  | .resume _ time => s.now ≤ time

end

/-- A handler before its first request. -/
def empty (now : ℚ) : Handler :=
  { phase := fun _ => .idle
    snapshots := []
    inflight := .empty
    cache := .empty
    now := now
    log := [] }

end Handler

/-! ## What has to have happened -/

section

variable (platform : Platform) (input : ℕ → Request × Settings)

/-- A call was admitted by its answer to `/auth/me`. -/
def Admitted (log : List LogEntry) (call : ℕ) (prometheus : JsString)
    (range : MonitoringRange) : Prop :=
  ∃ answer time, .session call answer time ∈ log ∧
    letIn platform (input call).1 (input call).2 answer time = .ok (prometheus, range)

/-- A snapshot was completed with a report. -/
def Reported (log : List LogEntry) (k : ℕ) (prometheus : JsString) (range : MonitoringRange)
    (begun : ℚ) (c : Completion) (report : MonitoringReport) : Prop :=
  .completed k prometheus range begun c ∈ log ∧
    snapshot platform.localeCompare range begun c.answers = .ok report

/-- What has happened before an entry of the log. -/
def Justifies (earlier : List LogEntry) : LogEntry → Prop
  | .served call k cachedAt result =>
      ∃ prometheus range begun c report, Admitted platform input earlier call prometheus range ∧
        Reported platform earlier k prometheus range begun c report ∧ result = respond report ∧
          ∀ time ∈ cachedAt, c.time ≤ time ∧
            time < freshUntil platform.localeCompare begun c.answers c.time
  | _ => True

/-- Every entry of the log is justified by those before it. -/
def Justified : List LogEntry → Prop
  | [] => True
  | e :: earlier => Justifies platform input earlier e ∧ Justified earlier

/-- An entry of the cache is a report that was fresh when it was kept. -/
def Kept (log : List LogEntry) (now : ℚ) (key : JsString) (entry : CacheEntry) : Prop :=
  ∃ prometheus range begun c, cacheKey prometheus range = key ∧
    Reported platform log entry.snapshot prometheus range begun c entry.report ∧ c.time ≤ now ∧
      entry.expires ≤ freshUntil platform.localeCompare begun c.answers c.time

end

section

variable {platform : Platform} {input : ℕ → Request × Settings} {log log' : List LogEntry}
  {call k : ℕ} {prometheus : JsString} {range : MonitoringRange}

/-- What was admitted stays so while the log grows. -/
theorem Admitted.mono (h : Admitted platform input log call prometheus range)
    (hlog : log ⊆ log') : Admitted platform input log' call prometheus range := by
  obtain ⟨answer, time, hmem, hadmitted⟩ := h
  exact ⟨answer, time, hlog hmem, hadmitted⟩

theorem Reported.mono {begun : ℚ} {c : Completion} {report : MonitoringReport}
    (h : Reported platform log k prometheus range begun c report) (hlog : log ⊆ log') :
    Reported platform log' k prometheus range begun c report :=
  ⟨hlog h.1, h.2⟩

/-- A cached report stays accounted for while the log and the time go on. -/
theorem Kept.mono {now now' : ℚ} {key : JsString} {entry : CacheEntry}
    (h : Kept platform log now key entry) (hlog : log ⊆ log') (hnow : now ≤ now') :
    Kept platform log' now' key entry := by
  obtain ⟨prometheus, range, begun, c, hkey, hreported, htime, hexpires⟩ := h
  exact ⟨prometheus, range, begun, c, hkey, hreported.mono hlog, htime.trans hnow, hexpires⟩

/-- The justification of an entry within a log. -/
theorem Justified.of_append {later earlier : List LogEntry} {e : LogEntry}
    (h : Justified platform input (later ++ e :: earlier)) :
    Justifies platform input earlier e := by
  induction later with
  | nil => exact h.1
  | cons d later ih => exact ih h.2

end

/-- **Origins and ranges have keys of their own.** -/
theorem cacheKey_inj {p q : JsString} {r r' : MonitoringRange}
    (h : cacheKey p r = cacheKey q r') : p = q ∧ r = r' := by
  -- the name of a range has no colon
  have hnames : ∀ r : MonitoringRange, (58 : UInt16) ∉ r.name := by
    intro r
    cases r <;> decide
  have hcut : ∀ (x : JsString) (r : MonitoringRange),
      (cacheKey x r).reverse.takeWhile (fun u => u != 58) = r.name.reverse := by
    intro x r
    have hpass : ∀ u ∈ r.name.reverse, (u != 58) = true := by
      intro u hu
      rw [bne_iff_ne]
      rintro rfl
      exact hnames r (List.mem_reverse.mp hu)
    have hcolon : (js ":").reverse = [58] := by decide
    rw [cacheKey, List.reverse_append, List.reverse_append, hcolon,
      List.takeWhile_append_of_pos hpass, List.singleton_append,
      List.takeWhile_cons_of_neg (by decide), List.append_nil]
  have hname : r.name = r'.name := by
    rw [← List.reverse_inj, ← hcut p r, ← hcut q r', h]
  have hrange : r = r' := by
    have hdistinct : ∀ r r' : MonitoringRange, r.name = r'.name → r = r' := by
      intro r r'
      cases r <;> cases r' <;> decide
    exact hdistinct r r' hname
  refine ⟨?_, hrange⟩
  rw [cacheKey, cacheKey, hname] at h
  exact List.append_cancel_right (List.append_cancel_right h)

/-- A time before `freshUntil`. -/
theorem lt_freshUntil_iff {localeCompare : JsString → JsString → Ordering} {clock : ℚ}
    {answers : Answers} {time t : ℚ} :
    t < freshUntil localeCompare clock answers time ↔ t < time + cacheMs ∧
      ∀ boundary ∈ boundaries localeCompare clock answers, checkedAt clock * 1000 < boundary →
        t < boundary := by
  have hfold : ∀ (l : List ℚ) (a : ℚ), t < l.foldl min a ↔ t < a ∧ ∀ b ∈ l, t < b := by
    intro l
    induction l with
    | nil => simp
    | cons b l ih =>
        intro a
        rw [List.foldl_cons, ih, lt_min_iff, List.forall_mem_cons, and_assoc]
  rw [freshUntil, hfold]
  simp only [List.mem_filter, decide_eq_true_eq, and_imp]

namespace Handler

/-! ## What each step is -/

/-- A call has the answer to `/auth/me`. -/
def heard (s : Handler) (call : ℕ) (answer : SessionAnswer) (t₁ t₃ : ℚ) : Handler :=
  { s with
    now := t₃
    log := .session call answer t₁ :: s.log }

section

variable (platform : Platform) (input : ℕ → Request × Settings)

/-- **The steps**, with what each of them changes. -/
inductive Steps (s : Handler) : HandlerEvent → Handler → Prop
  | ask {call} : Steps s (.arrive call) (s.setPhase call .asking)
  | refuse {call} (error : MonitoringError) :
      Steps s (.arrive call) (s.refuse call error)
  | turnAway {call answer t₁ t₂ t₃} (error : MonitoringError) :
      Steps s (.session call answer t₁ t₂ t₃) ((s.heard call answer t₁ t₃).refuse call error)
  | hit {call answer t₁ t₂ t₃ prometheus range entry} :
      letIn platform (input call).1 (input call).2 answer t₁ = .ok (prometheus, range) →
      s.cache.get (cacheKey prometheus range) = some entry → t₂ < entry.expires →
      Steps s (.session call answer t₁ t₂ t₃)
        ((s.heard call answer t₁ t₃).serve call entry.snapshot (some t₂) entry.report)
  | join {call answer t₁ t₂ t₃ prometheus range k} :
      letIn platform (input call).1 (input call).2 answer t₁ = .ok (prometheus, range) →
      s.inflight.get (cacheKey prometheus range) = some k →
      Steps s (.session call answer t₁ t₂ t₃)
        ((s.heard call answer t₁ t₃).setPhase call (.waiting k))
  | begin {call answer t₁ t₂ t₃ prometheus range} :
      letIn platform (input call).1 (input call).2 answer t₁ = .ok (prometheus, range) →
      s.inflight.get (cacheKey prometheus range) = none → s.inflight.size < 3 →
      Steps s (.session call answer t₁ t₂ t₃) (setPhase { s.heard call answer t₁ t₃ with
        snapshots := s.snapshots ++ [{ prometheus := prometheus, range := range, begun := t₃ }]
        inflight := s.inflight.set (cacheKey prometheus range) s.snapshots.length } call
          (.waiting s.snapshots.length))
  | settle {k answers time snapshot} : s.snapshots[k]? = some snapshot → snapshot.result = none →
      Steps s (.settle k answers time) { s with
        now := time
        snapshots := s.snapshots.set k { snapshot with
          result := some { answers := answers, time := time } }
        log := .completed k snapshot.prometheus snapshot.range snapshot.begun
          { answers := answers, time := time } :: s.log }
  | release {k snapshot c} : s.snapshots[k]? = some snapshot → snapshot.result = some c →
      s.inflight.get snapshot.key = some k →
      Steps s (.release k) { s with
        inflight := s.inflight.delete snapshot.key }
  | fail {call time k snap c error} : s.phase call = .waiting k → s.snapshots[k]? = some snap →
      snap.result = some c →
      snapshot platform.localeCompare snap.range snap.begun c.answers = .error error →
      Steps s (.resume call time) (s.refuse call error)
  | complete {call time k snap c report} : s.phase call = .waiting k →
      s.snapshots[k]? = some snap → snap.result = some c →
      snapshot platform.localeCompare snap.range snap.begun c.answers = .ok report →
      Steps s (.resume call time) (serve { s.remember snap.key
          { expires := min (time + cacheMs)
              (freshUntil platform.localeCompare snap.begun c.answers c.time)
            report := report
            snapshot := k } with
        now := time } call k none report)

end

section

variable {platform : Platform} {input : ℕ → Request × Settings} {s s' : Handler}
  {event : HandlerEvent}

/-- Every step is one of `Steps`. -/
theorem steps_of_step (hstep : s.step platform input event = some s') :
    Steps platform input s event s' := by
  cases event with
  | arrive call =>
      simp only [step] at hstep
      split at hstep
      · split at hstep
        · obtain rfl := Option.some.inj hstep
          exact .ask
        · obtain rfl := Option.some.inj hstep
          exact .refuse _
      · cases hstep
  | session call answer t₁ t₂ t₃ =>
      simp only [step] at hstep
      split at hstep
      · split at hstep
        · next prometheus range hadmitted =>
            obtain rfl := Option.some.inj hstep
            unfold proceed
            simp only
            split
            -- fresh in the cache
            · next entry hentry =>
                obtain ⟨hget, hlt⟩ := Option.filter_eq_some_iff.mp hentry
                exact .hit hadmitted hget (of_decide_eq_true hlt)
            · split
              -- under way
              · next k hk => exact .join hadmitted hk
              · next hnone =>
                  split_ifs with hfull
                  · exact .turnAway busy
                  · exact .begin hadmitted hnone (not_le.mp hfull)
        · obtain rfl := Option.some.inj hstep
          exact .turnAway _
      · cases hstep
  | settle k answers time =>
      simp only [step] at hstep
      split at hstep
      · next snapshot hsnapshot =>
          split_ifs at hstep with hnone
          obtain rfl := Option.some.inj hstep
          exact .settle hsnapshot (Option.isNone_iff_eq_none.mp hnone)
      · cases hstep
  | release k =>
      simp only [step] at hstep
      split at hstep
      · next snapshot hsnapshot =>
          split_ifs at hstep with hsome
          obtain rfl := Option.some.inj hstep
          obtain ⟨c, hc⟩ := Option.isSome_iff_exists.mp hsome.1
          exact .release hsnapshot hc hsome.2
      · cases hstep
  | resume call time =>
      simp only [step] at hstep
      split at hstep
      · next k hphase =>
          split at hstep
          · next prometheus range begun c hsnapshot =>
              split at hstep
              · next report hreport =>
                  obtain rfl := Option.some.inj hstep
                  have hdone : Steps platform input s (.resume call time) _ :=
                    .complete hphase hsnapshot rfl hreport
                  exact hdone
              · next error herror =>
                  obtain rfl := Option.some.inj hstep
                  exact .fail hphase hsnapshot rfl herror
          · cases hstep
      · cases hstep

end

/-! ## The invariant -/

section

variable (platform : Platform) (input : ℕ → Request × Settings)

/-- The maps of the handler: an open snapshot is in flight, and what is in the cache was a fresh
report. -/
structure Maps (s : Handler) : Prop where
  few : s.inflight.size ≤ 3
  small : s.cache.size ≤ 3
  running : ∀ k snap, s.snapshots[k]? = some snap → snap.result = none →
    s.inflight.get snap.key = some k
  held : ∀ key k, s.inflight.get key = some k → ∃ snap, s.snapshots[k]? = some snap ∧ snap.key = key
  completed : ∀ k snap c, s.snapshots[k]? = some snap → snap.result = some c →
    .completed k snap.prometheus snap.range snap.begun c ∈ s.log ∧ c.time ≤ s.now
  cached : ∀ key entry, s.cache.get key = some entry → Kept platform s.log s.now key entry

/-- The invariant of the handler. -/
structure Sound (s : Handler) : Prop extends Maps platform s where
  waiting : ∀ call k, s.phase call = .waiting k → ∃ snap, s.snapshots[k]? = some snap ∧
    Admitted platform input s.log call snap.prometheus snap.range
  justified : Justified platform input s.log

end

section

variable {platform : Platform} {input : ℕ → Request × Settings} {s s' : Handler}
  {event : HandlerEvent} {call k : ℕ}

/-- More may have happened. -/
theorem Maps.mono (h : Maps platform s) (hsnapshots : s'.snapshots = s.snapshots)
    (hinflight : s'.inflight = s.inflight) (hcache : s'.cache = s.cache)
    (hlog : s.log ⊆ s'.log) (hnow : s.now ≤ s'.now) : Maps platform s' := by
  constructor
  · rw [hinflight]
    exact h.few
  · rw [hcache]
    exact h.small
  · rw [hsnapshots, hinflight]
    exact h.running
  · rw [hsnapshots, hinflight]
    exact h.held
  · intro k snap c hsnap hc
    rw [hsnapshots] at hsnap
    obtain ⟨hmem, htime⟩ := h.completed k snap c hsnap hc
    exact ⟨hlog hmem, htime.trans hnow⟩
  · intro key entry hget
    rw [hcache] at hget
    exact (h.cached key entry hget).mono hlog hnow

/-- The calls that wait, after one of them has gone on. -/
theorem waiting_setPhase {phase : CallPhase} {log : List LogEntry}
    (h : ∀ call k, s.phase call = .waiting k → ∃ snap, s.snapshots[k]? = some snap ∧
      Admitted platform input s.log call snap.prometheus snap.range)
    (hlog : s.log ⊆ log) (hphase : ∀ k, phase = .waiting k → ∃ snap, s.snapshots[k]? = some snap ∧
      Admitted platform input log call snap.prometheus snap.range) :
    ∀ n k, Function.update s.phase call phase n = .waiting k → ∃ snap,
      s.snapshots[k]? = some snap ∧ Admitted platform input log n snap.prometheus snap.range := by
  intro n k hn
  by_cases hcall : n = call
  · subst hcall
    rw [Function.update_self] at hn
    exact hphase k hn
  · rw [Function.update_of_ne hcall] at hn
    obtain ⟨snap, hsnap, hadmitted⟩ := h n k hn
    exact ⟨snap, hsnap, hadmitted.mono hlog⟩

theorem Sound.ask (h : Sound platform input s) :
    Sound platform input (s.setPhase call .asking) where
  toMaps := h.toMaps.mono rfl rfl rfl (List.Subset.refl _) (le_refl _)
  waiting := waiting_setPhase h.waiting (List.Subset.refl _) (fun _ hk => (nomatch hk))
  justified := h.justified

/-- A call that hears of its session. -/
theorem Sound.hear (h : Sound platform input s) {answer : SessionAnswer} {t₁ t₃ : ℚ}
    (hnow : s.now ≤ t₃) : Sound platform input (s.heard call answer t₁ t₃) where
  toMaps := h.toMaps.mono rfl rfl rfl (List.subset_cons_self _ _) hnow
  waiting := by
    intro n k hn
    obtain ⟨snap, hsnap, hadmitted⟩ := h.waiting n k hn
    exact ⟨snap, hsnap, hadmitted.mono (List.subset_cons_self _ _)⟩
  justified := ⟨trivial, h.justified⟩

/-- A call may be refused. -/
theorem Sound.refuse (h : Sound platform input s) (error : MonitoringError) :
    Sound platform input (s.refuse call error) where
  toMaps := h.toMaps.mono rfl rfl rfl (List.subset_cons_self _ _) (le_refl _)
  waiting := waiting_setPhase h.waiting (List.subset_cons_self _ _) (fun _ hk => (nomatch hk))
  justified := ⟨trivial, h.justified⟩

/-- A call that returns a report which it may return. -/
theorem Sound.serve (h : Sound platform input s) {cachedAt : Option ℚ} {report : MonitoringReport}
    (hresult : Justifies platform input s.log (.served call k cachedAt (respond report))) :
    Sound platform input (s.serve call k cachedAt report) where
  toMaps := h.toMaps.mono rfl rfl rfl (List.subset_cons_self _ _) (le_refl _)
  waiting := waiting_setPhase h.waiting (List.subset_cons_self _ _) (fun _ hk => (nomatch hk))
  justified := ⟨hresult, h.justified⟩

/-- A report of the cache. -/
theorem Sound.hit (h : Sound platform input s) {answer : SessionAnswer} {t₁ t₂ t₃ : ℚ}
    {prometheus : JsString} {range : MonitoringRange} {entry : CacheEntry}
    (hadmitted : letIn platform (input call).1 (input call).2 answer t₁ = .ok (prometheus, range))
    (hget : s.cache.get (cacheKey prometheus range) = some entry) (hlt : t₂ < entry.expires)
    (htimes : s.now ≤ t₂ ∧ t₂ ≤ t₃) : Sound platform input
      ((s.heard call answer t₁ t₃).serve call entry.snapshot (some t₂) entry.report) := by
  refine (h.hear (htimes.1.trans htimes.2)).serve ?_
  obtain ⟨p, r, begun, c, hkey, hreported, htime, hexpires⟩ := h.cached _ entry hget
  obtain ⟨rfl, rfl⟩ := cacheKey_inj hkey
  refine ⟨p, r, begun, c, entry.report, ⟨answer, t₁, List.mem_cons_self, hadmitted⟩,
    hreported.mono (List.subset_cons_self _ _), rfl, ?_⟩
  intro time ht
  obtain rfl := Option.some.inj ht
  exact ⟨htime.trans htimes.1, lt_of_lt_of_le hlt hexpires⟩

/-- A call that waits for a snapshot of its key. -/
theorem Sound.join (h : Sound platform input s) {answer : SessionAnswer} {t₁ t₃ : ℚ}
    {prometheus : JsString} {range : MonitoringRange}
    (hadmitted : letIn platform (input call).1 (input call).2 answer t₁ = .ok (prometheus, range))
    (hget : s.inflight.get (cacheKey prometheus range) = some k) (hnow : s.now ≤ t₃) :
    Sound platform input ((s.heard call answer t₁ t₃).setPhase call (.waiting k)) := by
  have hheard : Sound platform input (s.heard call answer t₁ t₃) := h.hear hnow
  obtain ⟨snap, hsnap, hkey⟩ := h.held _ k hget
  obtain ⟨hprometheus, hrange⟩ := cacheKey_inj hkey
  constructor
  · exact hheard.toMaps.mono rfl rfl rfl (List.Subset.refl _) (le_refl _)
  · refine waiting_setPhase hheard.waiting (List.Subset.refl _) ?_
    intro j hj
    obtain rfl := CallPhase.waiting.inj hj
    refine ⟨snap, hsnap, answer, t₁, List.mem_cons_self, ?_⟩
    rw [hprometheus, hrange, hadmitted]
  · exact hheard.justified

/-- A call that begins a snapshot. -/
theorem Sound.begin (h : Sound platform input s) {answer : SessionAnswer} {t₁ t₃ : ℚ}
    {prometheus : JsString} {range : MonitoringRange}
    (hadmitted : letIn platform (input call).1 (input call).2 answer t₁ = .ok (prometheus, range))
    (hget : s.inflight.get (cacheKey prometheus range) = none) (hfew : s.inflight.size < 3)
    (hnow : s.now ≤ t₃) :
    Sound platform input (setPhase { s.heard call answer t₁ t₃ with
      snapshots := s.snapshots ++ [{ prometheus := prometheus, range := range, begun := t₃ }]
      inflight := s.inflight.set (cacheKey prometheus range) s.snapshots.length } call
        (.waiting s.snapshots.length)) := by
  have hheard : Sound platform input (s.heard call answer t₁ t₃) := h.hear hnow
  -- a snapshot is an old one, or the new one, which is the last
  have hcases : ∀ {j : ℕ} {snap : Snapshot},
      (s.snapshots ++ [{ prometheus := prometheus, range := range, begun := t₃ }])[j]? =
        some snap → s.snapshots[j]? = some snap ∨
          j = s.snapshots.length ∧
            snap = { prometheus := prometheus, range := range, begun := t₃ } := by
    intro j snap hsnap
    rcases lt_or_ge j s.snapshots.length with hlt | hge
    · rw [List.getElem?_append_left hlt] at hsnap
      exact .inl hsnap
    · rw [List.getElem?_append_right hge, List.getElem?_singleton] at hsnap
      split_ifs at hsnap with hzero
      exact .inr ⟨by omega, (Option.some.inj hsnap).symm⟩
  have hold : ∀ {j : ℕ} {snap : Snapshot}, s.snapshots[j]? = some snap →
      (s.snapshots ++ [{ prometheus := prometheus, range := range, begun := t₃ }])[j]? =
        some snap := by
    intro j snap hsnap
    rw [List.getElem?_append_left (List.getElem?_eq_some_iff.mp hsnap).1]
    exact hsnap
  have hnew : (s.snapshots ++ [{ prometheus := prometheus, range := range, begun := t₃ }])[
      s.snapshots.length]? = some { prometheus := prometheus, range := range, begun := t₃ } := by
    simp
  constructor
  · constructor
    · have hsize := s.inflight.size_set_le (cacheKey prometheus range) s.snapshots.length
      exact hsize.trans hfew
    · exact hheard.small
    · intro j snap hsnap hnone
      rcases hcases hsnap with hsnap | ⟨rfl, rfl⟩
      · have hrunning := h.running j snap hsnap hnone
        have hne : snap.key ≠ cacheKey prometheus range := by
          intro hkey
          rw [hkey, hget] at hrunning
          cases hrunning
        exact (JsMap.get_set_ne _ hne _).trans hrunning
      · exact JsMap.get_set_self _ _ _
    · intro key j hj
      by_cases hkey : key = cacheKey prometheus range
      · subst hkey
        have hj := (JsMap.get_set_self s.inflight _ s.snapshots.length).symm.trans hj
        obtain rfl := Option.some.inj hj
        exact ⟨_, hnew, rfl⟩
      · have hj := (JsMap.get_set_ne s.inflight hkey s.snapshots.length).symm.trans hj
        obtain ⟨snap, hsnap, hsnapkey⟩ := h.held key j hj
        exact ⟨snap, hold hsnap, hsnapkey⟩
    · intro j snap c hsnap hc
      rcases hcases hsnap with hsnap | ⟨rfl, rfl⟩
      · exact hheard.completed j snap c hsnap hc
      · cases hc
    · exact hheard.cached
  · intro n j hn
    change Function.update s.phase call (.waiting s.snapshots.length) n = .waiting j at hn
    by_cases hcall : n = call
    · subst hcall
      rw [Function.update_self] at hn
      obtain rfl := CallPhase.waiting.inj hn
      exact ⟨_, hnew, answer, t₁, List.mem_cons_self, hadmitted⟩
    · rw [Function.update_of_ne hcall] at hn
      obtain ⟨snap, hsnap, hadmitted⟩ := hheard.waiting n j hn
      exact ⟨snap, hold hsnap, hadmitted⟩
  · exact hheard.justified

/-- A snapshot ends. -/
theorem Sound.settle (h : Sound platform input s) {answers : Answers} {time : ℚ}
    {snapshot : Snapshot} (hsnapshot : s.snapshots[k]? = some snapshot)
    (hnone : snapshot.result = none) (hnow : s.now ≤ time) :
    Sound platform input { s with
      now := time
      snapshots := s.snapshots.set k { snapshot with
        result := some { answers := answers, time := time } }
      log := .completed k snapshot.prometheus snapshot.range snapshot.begun
        { answers := answers, time := time } :: s.log } := by
  have hsubset := List.subset_cons_self (LogEntry.completed k snapshot.prometheus snapshot.range
    snapshot.begun { answers := answers, time := time }) s.log
  -- a snapshot is this one, which has ended, or it is as it was
  have hcases : ∀ {j : ℕ} {snap : Snapshot}, (s.snapshots.set k { snapshot with
      result := some { answers := answers, time := time } })[j]? = some snap →
        j = k ∧ snap = { snapshot with
          result := some { answers := answers, time := time } } ∨ s.snapshots[j]? = some snap := by
    intro j snap hsnap
    rw [List.getElem?_set] at hsnap
    split_ifs at hsnap with hj hlt
    · exact .inl ⟨hj.symm, (Option.some.inj hsnap).symm⟩
    · exact .inr hsnap
  have hsame : ∀ {j : ℕ} {snap : Snapshot}, s.snapshots[j]? = some snap →
      ∃ snap', (s.snapshots.set k { snapshot with
        result := some { answers := answers, time := time } })[j]? = some snap' ∧
          snap'.prometheus = snap.prometheus ∧ snap'.range = snap.range := by
    intro j snap hsnap
    rw [List.getElem?_set]
    split_ifs with hj hlt
    · subst hj
      obtain rfl := Option.some.inj (hsnap.symm.trans hsnapshot)
      exact ⟨_, rfl, rfl, rfl⟩
    · subst hj
      exact absurd (List.getElem?_eq_some_iff.mp hsnap).1 hlt
    · exact ⟨snap, hsnap, rfl, rfl⟩
  constructor
  · constructor
    · exact h.few
    · exact h.small
    · intro j snap hsnap hopen
      rcases hcases hsnap with ⟨rfl, rfl⟩ | hsnap
      · cases hopen
      · exact h.running j snap hsnap hopen
    · intro key j hj
      obtain ⟨snap, hsnap, hkey⟩ := h.held key j hj
      obtain ⟨snap', hsnap', hprometheus, hrange⟩ := hsame hsnap
      refine ⟨snap', hsnap', ?_⟩
      rw [Snapshot.key, hprometheus, hrange]
      exact hkey
    · intro j snap c hsnap hc
      rcases hcases hsnap with ⟨rfl, rfl⟩ | hsnap
      · obtain rfl := Option.some.inj hc
        exact ⟨List.mem_cons_self, le_refl _⟩
      · obtain ⟨hmem, htime⟩ := h.completed j snap c hsnap hc
        exact ⟨hsubset hmem, htime.trans hnow⟩
    · intro key entry hget
      exact (h.cached key entry hget).mono hsubset hnow
  · intro n j hn
    obtain ⟨snap, hsnap, hadmitted⟩ := h.waiting n j hn
    obtain ⟨snap', hsnap', hprometheus, hrange⟩ := hsame hsnap
    refine ⟨snap', hsnap', ?_⟩
    rw [hprometheus, hrange]
    exact hadmitted.mono hsubset
  · exact ⟨trivial, h.justified⟩

/-- A snapshot that has ended gives up its place. -/
theorem Sound.release (h : Sound platform input s) {snapshot : Snapshot} {c : Completion}
    (hsnapshot : s.snapshots[k]? = some snapshot) (hc : snapshot.result = some c)
    (hget : s.inflight.get snapshot.key = some k) : Sound platform input { s with
      inflight := s.inflight.delete snapshot.key } := by
  constructor
  · constructor
    · exact (s.inflight.size_delete_le _).trans h.few
    · exact h.small
    · intro j snap hsnap hopen
      have hrunning := h.running j snap hsnap hopen
      have hne : snap.key ≠ snapshot.key := by
        intro hkey
        rw [hkey, hget] at hrunning
        obtain rfl := Option.some.inj hrunning
        obtain rfl := Option.some.inj (hsnap.symm.trans hsnapshot)
        rw [hc] at hopen
        cases hopen
      exact (JsMap.get_delete_ne _ hne).trans hrunning
    · exact fun key j hj => h.held key j (JsMap.get_of_get_delete hj)
    · exact h.completed
    · exact h.cached
  · exact h.waiting
  · exact h.justified

/-- A report is kept. -/
theorem Sound.remember (h : Sound platform input s) {key : JsString} {entry : CacheEntry}
    {time : ℚ} (hnow : s.now ≤ time) (hkept : Kept platform s.log s.now key entry) :
    Sound platform input { s.remember key entry with
      now := time } := by
  -- what is left of the cache, and its size
  obtain ⟨rest, hrest, hroom, hleft⟩ : ∃ rest : JsMap JsString CacheEntry,
      (s.remember key entry).cache = rest.set key entry ∧ rest.size < 3 ∧
        ∀ key' entry', rest.get key' = some entry' → s.cache.get key' = some entry' := by
    have hsmall := h.small
    unfold Handler.remember
    simp only
    split_ifs with hfull
    · cases hentries : s.cache.entries with
      | nil =>
          have hzero : s.cache.size = 0 := by rw [JsMap.size, hentries, List.length_nil]
          omega
      | cons first others =>
          have hroom := JsMap.size_delete_head hentries
          exact ⟨s.cache.delete first.1, rfl, by omega,
            fun key' entry' => JsMap.get_of_get_delete⟩
    · exact ⟨_, rfl, by omega, fun _ _ hget => hget⟩
  constructor
  · constructor
    · exact h.few
    · have hsize := rest.size_set_le key entry
      change (s.remember key entry).cache.size ≤ 3
      rw [hrest]
      omega
    · exact h.running
    · exact h.held
    · intro j snap c hsnap hc
      obtain ⟨hmem, htime⟩ := h.completed j snap c hsnap hc
      exact ⟨hmem, htime.trans hnow⟩
    · intro key' entry' hget
      change (s.remember key entry).cache.get key' = some entry' at hget
      rw [hrest] at hget
      by_cases hkey : key' = key
      · subst hkey
        rw [JsMap.get_set_self] at hget
        obtain rfl := Option.some.inj hget
        exact hkept.mono (List.Subset.refl _) hnow
      · rw [JsMap.get_set_ne _ hkey] at hget
        exact (h.cached key' entry' (hleft key' entry' hget)).mono (List.Subset.refl _) hnow
  · exact h.waiting
  · exact h.justified

/-- A call that has waited for a report. -/
theorem Sound.complete (h : Sound platform input s) {time : ℚ} {snap : Snapshot} {c : Completion}
    {report : MonitoringReport} (hphase : s.phase call = .waiting k)
    (hsnap : s.snapshots[k]? = some snap) (hc : snap.result = some c)
    (hreport : snapshot platform.localeCompare snap.range snap.begun c.answers = .ok report)
    (hnow : s.now ≤ time) :
    Sound platform input (Handler.serve { s.remember snap.key
        { expires := min (time + cacheMs)
            (freshUntil platform.localeCompare snap.begun c.answers c.time)
          report := report
          snapshot := k } with
      now := time } call k none report) := by
  obtain ⟨hmem, htime⟩ := h.completed k snap c hsnap hc
  have hreported : Reported platform s.log k snap.prometheus snap.range snap.begun c report :=
    ⟨hmem, hreport⟩
  obtain ⟨snap', hsnap', hadmitted⟩ := h.waiting call k hphase
  obtain rfl := Option.some.inj (hsnap.symm.trans hsnap')
  refine Sound.serve (h.remember hnow ?_) ?_
  · exact ⟨snap.prometheus, snap.range, snap.begun, c, rfl, hreported, htime, min_le_right _ _⟩
  · exact ⟨snap.prometheus, snap.range, snap.begun, c, report, hadmitted, hreported, rfl,
      fun time ht => (nomatch ht)⟩

/-- **Every step keeps the invariant.** -/
theorem Sound.steps (h : Sound platform input s) (hnow : s.Onwards event)
    (hsteps : Steps platform input s event s') : Sound platform input s' := by
  cases hsteps with
  | ask => exact h.ask
  | refuse error => exact h.refuse error
  | turnAway error => exact (h.hear (hnow.1.trans (hnow.2.1.trans hnow.2.2))).refuse error
  | hit hadmitted hget hlt => exact h.hit hadmitted hget hlt ⟨hnow.1.trans hnow.2.1, hnow.2.2⟩
  | join hadmitted hget => exact h.join hadmitted hget (hnow.1.trans (hnow.2.1.trans hnow.2.2))
  | begin hadmitted hget hfew =>
      exact h.begin hadmitted hget hfew (hnow.1.trans (hnow.2.1.trans hnow.2.2))
  | settle hsnapshot hnone => exact h.settle hsnapshot hnone hnow
  | release hsnapshot hc hget => exact h.release hsnapshot hc hget
  | fail => exact h.refuse _
  | complete hphase hsnap hc hreport => exact h.complete hphase hsnap hc hreport hnow

theorem sound_empty (now : ℚ) : Sound platform input (empty now) := by
  constructor
  · constructor
    · exact Nat.zero_le 3
    · exact Nat.zero_le 3
    · intro k snap hsnap
      cases hsnap
    · intro key k hk
      cases hk
    · intro k snap c hsnap
      cases hsnap
    · intro key entry hget
      cases hget
  · intro call k hk
    cases hk
  · trivial

/-- The account holds in every state of a run. -/
theorem Sound.of_run {start : ℚ}
    (h : Run (fun x => x = empty start) (step platform input) Onwards s) :
    Sound platform input s := by
  refine h.invariant (I := Sound platform input) ?_ ?_
  · rintro x rfl
    exact sound_empty start
  · intro x event x' hx hnow hstep
    exact hx.steps hnow (steps_of_step hstep)

/-! ## What is served -/

/-- The snapshots that are in progress. -/
def inProgress (s : Handler) : List Snapshot := s.snapshots.filter (fun snap => snap.result.isNone)

/-- Snapshots in progress are for different keys. -/
theorem Sound.keys_nodup (h : Sound platform input s) :
    (s.inProgress.map Snapshot.key).Nodup := by
  have hdistinct : s.snapshots.Pairwise (fun a b => a.result = none → b.result = none →
      a.key ≠ b.key) := by
    rw [List.pairwise_iff_getElem]
    intro i j hi hj hlt hopen hopen' hkey
    have hfirst := h.running i _ (List.getElem?_eq_getElem hi) hopen
    have hsecond := h.running j _ (List.getElem?_eq_getElem hj) hopen'
    rw [hkey, hsecond] at hfirst
    have hij := Option.some.inj hfirst
    omega
  rw [List.Nodup, List.pairwise_map]
  refine (hdistinct.filter _).imp_of_mem ?_
  intro a b ha hb hab
  have hopen := (List.mem_filter.mp ha).2
  have hopen' := (List.mem_filter.mp hb).2
  exact hab (Option.isNone_iff_eq_none.mp hopen) (Option.isNone_iff_eq_none.mp hopen')

/-- No more than three snapshots are in progress. -/
theorem Sound.few_inProgress (h : Sound platform input s) : s.inProgress.length ≤ 3 := by
  have hsubset : s.inProgress.map Snapshot.key ⊆ s.inflight.entries.map Prod.fst := by
    intro key hkey
    obtain ⟨snap, hsnap, rfl⟩ := List.mem_map.mp hkey
    obtain ⟨hmem, hopen⟩ := List.mem_filter.mp hsnap
    obtain ⟨k, hk⟩ := List.getElem?_of_mem hmem
    have hget := h.running k snap hk (Option.isNone_iff_eq_none.mp hopen)
    exact List.mem_map.mpr ⟨_, JsMap.mem_of_get hget, rfl⟩
  have hle := (List.subperm_of_subset h.keys_nodup hsubset).length_le
  rw [List.length_map, List.length_map] at hle
  exact hle.trans h.few

end

section

variable {platform : Platform} {input : ℕ → Request × Settings} {s : Handler}

/-- The answer to `/auth/me` names an operator, in a session that has not ended. -/
def Authorised (platform : Platform) (env : Settings) (answer : SessionAnswer) (time : ℚ) :
    Prop :=
  ∃ status session user githubId text expiresAt, answer = .answered status (some session) ∧
    (200 ≤ status ∧ status ≤ 299) ∧ session.get? (js "user") = some user ∧
      stringOf user (js "githubId") = some githubId ∧
        stringOf session (js "expiresAt") = some text ∧
          platform.parseDate text = some expiresAt ∧ time < expiresAt ∧
            githubId ∈ operatorIds env.operatorGithubIds

/-- A session that `verifySession` lets pass is authorised. -/
theorem authorised_of_verify {env : Settings} {answer : SessionAnswer} {time : ℚ}
    {githubId : JsString} (h : verifySession platform env answer time = .ok githubId) :
    Authorised platform env answer time := by
  unfold verifySession at h
  split at h
  · cases h
  · next status body =>
      split_ifs at h with hsignedOut hstatus
      · split at h
        · next session members huser =>
            split at h
            · next id expiresAt hid hexpires =>
                split_ifs at h with hbad hoperator
                obtain ⟨text, htext, hdate⟩ := Option.bind_eq_some_iff.mp hexpires
                rw [not_or, not_le] at hbad
                exact ⟨status, session, .obj members, id, text, expiresAt, rfl, hstatus, huser, hid,
                  htext, hdate, hbad.2, List.contains_iff_mem.mp hoperator⟩
            · cases h
        · cases h

/-- A call that is admitted has a session, and asks for a range of a configured origin. -/
theorem of_admit {request : Request} {env : Settings} {answer : SessionAnswer} {time : ℚ}
    {prometheus : JsString} {range : MonitoringRange}
    (h : letIn platform request env answer time = .ok (prometheus, range)) :
    Authorised platform env answer time ∧ requestedRange platform request = .ok range ∧
      prometheusOrigin platform env = .ok prometheus := by
  unfold letIn at h
  cases hverify : verifySession platform env answer time with
  | error error =>
      rw [hverify] at h
      cases h
  | ok githubId =>
      rw [hverify] at h
      cases hrange : requestedRange platform request with
      | error error =>
          rw [hrange] at h
          cases h
      | ok r =>
          rw [hrange] at h
          cases hprometheus : prometheusOrigin platform env with
          | error error =>
              rw [hprometheus] at h
              cases h
          | ok p =>
              rw [hprometheus] at h
              obtain ⟨rfl, rfl⟩ := Prod.mk.inj (Except.ok.inj h)
              exact ⟨authorised_of_verify hverify, rfl, rfl⟩

/-- **The monitoring endpoint is guarded.**  In every state of every run, whatever the order of the
steps of its calls and snapshots:

* at most three snapshots are in progress, no two of them for one origin and range, and at most
  three reports are kept;
* a call that returns a report has had an answer to `/auth/me` that names an operator in a session
  that had not ended, and the report is one of the origin and the range that it asks for;
* a report that was taken from the cache had been completed less than ten seconds before, and no
  source that was fresh when it was begun had become too old;
* what is kept are reports of completed snapshots: a call that waited for a failed one gets its
  error and keeps nothing, and its key is free again. -/
theorem monitoring_guarded {start : ℚ}
    (h : Run (fun x => x = empty start) (step platform input) Onwards s) :
    (s.inProgress.length ≤ 3 ∧ (s.inProgress.map Snapshot.key).Nodup ∧ s.cache.size ≤ 3) ∧
    (∀ later earlier call k cachedAt result,
      s.log = later ++ .served call k cachedAt result :: earlier →
      (∃ answer time, .session call answer time ∈ earlier ∧
        Authorised platform (input call).2 answer time) ∧
      ∃ prometheus range begun c report,
        requestedRange platform (input call).1 = .ok range ∧
        prometheusOrigin platform (input call).2 = .ok prometheus ∧
        Reported platform earlier k prometheus range begun c report ∧ result = respond report ∧
        ∀ t ∈ cachedAt, c.time ≤ t ∧ t < c.time + 10000 ∧
          ∀ boundary ∈ boundaries platform.localeCompare begun c.answers,
            report.checkedAt * 1000 < boundary → t < boundary) ∧
    (∀ key entry, s.cache.get key = some entry → ∃ prometheus range begun c,
      cacheKey prometheus range = key ∧
        Reported platform s.log entry.snapshot prometheus range begun c entry.report) ∧
    (∀ call k snap c error time s', s.phase call = .waiting k → s.snapshots[k]? = some snap →
      snap.result = some c →
      snapshot platform.localeCompare snap.range snap.begun c.answers = .error error →
      s.step platform input (.resume call time) = some s' →
        s'.cache = s.cache ∧ s'.log = .refused call error :: s.log) ∧
    (∀ k snap s', s.snapshots[k]? = some snap → s.step platform input (.release k) = some s' →
      s'.inflight.get snap.key = none) := by
  have hs : Sound platform input s := .of_run h
  refine ⟨⟨hs.few_inProgress, hs.keys_nodup, hs.small⟩, ?_, ?_, ?_, ?_⟩
  -- who asked, which range was admitted, and how old the answer may be
  · intro later earlier call k cachedAt result hlog
    have hjustified := hs.justified
    rw [hlog] at hjustified
    obtain ⟨prometheus, range, begun, c, report, hadmitted, hreported, hresult, hcached⟩ :=
      hjustified.of_append
    obtain ⟨answer, time, hmem, hadmitted⟩ := hadmitted
    obtain ⟨hauthorised, hrange, hprometheus⟩ := of_admit hadmitted
    refine ⟨⟨answer, time, hmem, hauthorised⟩, prometheus, range, begun, c, report, hrange,
      hprometheus, hreported, hresult, ?_⟩
    intro t ht
    obtain ⟨hbefore, hlt⟩ := hcached t ht
    obtain ⟨hcache, hboundaries⟩ := lt_freshUntil_iff.mp hlt
    obtain ⟨-, -, -, -, hchecked, -, -⟩ := snapshot_eq hreported.2
    rw [hchecked]
    exact ⟨hbefore, hcache, hboundaries⟩
  -- only reports are kept
  · intro key entry hget
    obtain ⟨prometheus, range, begun, c, hkey, hreported, -, -⟩ := hs.cached key entry hget
    exact ⟨prometheus, range, begun, c, hkey, hreported⟩
  -- a snapshot that failed is refused to its callers and not kept
  · intro call k snap c error time s' hphase hsnap hc herror hstep
    obtain ⟨prometheus, range, begun, result⟩ := snap
    obtain rfl : result = some c := hc
    simp only [step, hphase, hsnap, herror] at hstep
    obtain rfl := Option.some.inj hstep
    exact ⟨rfl, rfl⟩
  · intro k snap s' hsnap hstep
    simp only [step, hsnap] at hstep
    split_ifs at hstep
    obtain rfl := Option.some.inj hstep
    exact JsMap.get_delete_self _ _

end

namespace Sample

/-- A URL of this machine. -/
def localUrl (host path : JsString) : Url :=
  { protocol := js "http:"
    username := []
    password := []
    hostname := js "localhost"
    host := host
    pathname := path
    search := []
    hash := []
    origin := js "http://" ++ host
    searchParams := [] }

/-- `URL` and `Date.parse` on the texts of the sample. -/
def platform : Platform :=
  { parseUrl := fun s =>
      if s = js "http://localhost:3001" then some (localUrl (js "localhost:3001") (js "/"))
      else if s = js "http://localhost:4321" then some (localUrl (js "localhost:4321") (js "/"))
      else if s = js "http://localhost:9090" then some (localUrl (js "localhost:9090") (js "/"))
      else if s = js "http://localhost:4321/monitoring/data" then
        some (localUrl (js "localhost:4321") (js "/monitoring/data"))
      else none
    parseDate := fun s => if s = js "2100-01-01T00:00:00.000Z" then some 4102444800000 else none
    localeCompare := Monitoring.Sample.localeCompare }

/-- A request for the page's report. -/
def request : Request :=
  { url := js "http://localhost:4321/monitoring/data"
    host := some (js "localhost:4321")
    origin := none
    secFetchSite := none
    cookie := some (js "theme=dark; waybill-session=" ++ List.replicate 43 97) }

/-- The settings of a development machine. -/
def settings : Settings :=
  { authApiOrigin := some (js "http://localhost:3001")
    authWebOrigin := some (js "http://localhost:4321")
    nodeEnv := none
    operatorGithubIds := some (js "7, 12")
    prometheusOrigin := some (js "http://localhost:9090") }

/-- The session of an operator. -/
def session : SessionAnswer :=
  .answered 200 (some (.obj [(js "user", .obj [(js "githubId", .str (js "12"))]),
    (js "expiresAt", .str (js "2100-01-01T00:00:00.000Z"))]))

/-- The second call finds the report of the first one. -/
def events : List HandlerEvent :=
  [.arrive 0, .session 0 session 86400000 86400000 86400000, .arrive 1,
    .settle 0 Monitoring.Sample.quiet 86401000, .resume 0 86402000, .release 0,
    .session 1 session 86410000 86410000 86410000]

/-- The times of an event come one after the other. -/
def check (s : Handler) : HandlerEvent → Bool
  | .session _ _ t₁ t₂ t₃ => decide (s.now ≤ t₁ ∧ t₁ ≤ t₂ ∧ t₂ ≤ t₃)
  | .settle _ _ time => decide (s.now ≤ time)
  | .resume _ time => decide (s.now ≤ time)
  | _ => true

theorem onwards_of_check (s : Handler) (event : HandlerEvent) (h : check s event = true) :
    s.Onwards event := by
  cases event with
  | arrive call => trivial
  | session call answer t₁ t₂ t₃ => simpa [check, Onwards] using h
  | settle k answers time => simpa [check, Onwards] using h
  | release k => trivial
  | resume call time => simpa [check, Onwards] using h

/-- The report was taken from the cache. -/
def isCached : LogEntry → Bool
  | .served call k (some t) (.ok _) => call == 1 && k == 0 && t == 86410000
  | _ => false

end Sample

/-- A call that is served from the cache. -/
theorem monitoring_guarded_cached : ∃ s,
    Run (fun x => x = empty 86400000) (step Sample.platform (fun _ => (Sample.request,
      Sample.settings))) Onwards s ∧ s.log.head?.any Sample.isCached = true ∧
      s.inProgress.length ≤ 3 ∧ s.cache.size ≤ 3 := by
  have hplay : (Run.play (step Sample.platform (fun _ => (Sample.request, Sample.settings)))
      Sample.check Sample.events (empty 86400000)).any
        (fun s => s.log.head?.any Sample.isCached) = true := by
    decide +kernel
  obtain ⟨s, h, hs⟩ := Run.exists_of_play_from Sample.onwards_of_check hplay
  obtain ⟨⟨hfew, -, hsmall⟩, -⟩ := monitoring_guarded h
  exact ⟨s, h, hs, hfew, hsmall⟩

end Handler

end Monitoring
