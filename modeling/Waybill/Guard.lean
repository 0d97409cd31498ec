/-
# The cost guard (`infra/oracle/guard.ts`)

A timer runs `guard.ts enforce` every minute.  A run that finds the account covered, the usage
within its limits and the system healthy, or not healthy for two minutes at most, leaves a lease
of three minutes in a file; `guard.ts lease` tells a service whether there is a lease.

* `readPolicy`, `readPlan`, `permission`, `validLease`, `healthPermission`, `withinUsage`: the
  checks.
* `main`: the three modes of the program, over the operations of the host.
* `device`: what the operations do to the files of the guard and to the clock; whatever else they
  read is chosen by the surroundings, and each of them may fail.
-/
import Waybill.JsonParse
import Waybill.NumberTexts
import Waybill.Process

namespace Guard

/-- `new Error(…)`. -/
def failure (message : String) : JsError := { message := js message }

/-- A function of the source that throws. -/
abbrev Checked (α : Type) := Except JsError α

/-- `if (…) throw new Error(message);`. -/
def ensureNot (refused : Bool) (message : String) : Checked Unit :=
  if refused then .error (failure message) else .ok ()

/-! ## The checks -/

/-- `Date.now()`: a time value of ECMAScript. -/
structure Instant where
  ms : ℤ
  lower : -8640000000000000 ≤ ms
  upper : ms ≤ 8640000000000000
  deriving DecidableEq

/-- `Policy`. -/
structure Policy where
  accountId : JsString
  startsAt : ℤ
  endsAt : ℤ
  benefitsExpireAt : ℤ
  minimumCreditsUsd : ℚ
  maxSqsPerHour : ℚ
  maxWritesPerHour : ℚ
  maxArchiveReadsPerHour : ℚ

/-- `Plan`. -/
structure Plan where
  accountId : JsString
  expiresAt : ℤ
  credits : ℚ

/-- `Lease`. -/
structure Lease where
  issuedAt : ℤ
  validUntil : ℤ
  cutoff : ℤ

/-- A second, in milliseconds. -/
def second : ℤ := 1000
/-- `day`. -/
def day : ℤ := 86400 * second
/-- The time for which the services may be unhealthy. -/
def grace : ℤ := 120 * second
/-- The time for which a lease is issued. -/
def leaseLife : ℤ := 180 * second
/-- `Number.MAX_SAFE_INTEGER`. -/
def maxSafeInteger : ℚ := 9007199254740991

/-- Neither `null`, nor an array, nor a primitive. -/
def object (value : Option Json) : Checked Json :=
  match value with
  | some (.obj members) => .ok (.obj members)
  | _ => .error (failure "invalid-data")

/-- `Date.parse` of texts that are not ISO 8601 is left to the implementation. -/
def time (dateParse : JsString → Option ℤ) (value : Option Json) : Checked ℤ :=
  match (value.bind Json.str?).bind dateParse with
  | some t => .ok t
  | none => .error (failure "invalid-time")

/-- A finite number between two bounds. -/
def within (x : Option ℚ) (min max : ℚ) : Checked ℚ :=
  match x with
  | some x => if x < min ∨ x > max then .error (failure "invalid-number") else .ok x
  | none => .error (failure "invalid-number")

/-- `number`. -/
def number (value : Option Json) (min max : ℚ) : Checked ℚ :=
  within (value.bind Json.number?) min max

/-- The name of an account has twelve digits. -/
def isAccountId (s : JsString) : Bool := s.length == 12 && s.all Json.isDigit

/-- `value === true`. -/
def isTrue : Option Json → Bool
  | some (.bool true) => true
  | _ => false

/-- `value === text`. -/
def isText (value : Option Json) (text : JsString) : Bool := value.bind Json.str? == some text

/-- `readPolicy`. -/
def readPolicy (dateParse : JsString → Option ℤ) (value : Json) : Checked Policy := do
  let raw ← object value
  let accountId := (raw.get? (js "accountId")).bind Json.str?
  ensureNot (!isTrue (raw.get? (js "coveredServicesVerified")) || !accountId.any isAccountId)
    "coverage-not-verified"
  let startsAt ← time dateParse (raw.get? (js "startsAt"))
  let endsAt ← time dateParse (raw.get? (js "endsAt"))
  let benefitsExpireAt ← time dateParse (raw.get? (js "benefitsExpireAt"))
  -- at most 60 days, and the benefits last three days longer than the start
  ensureNot (endsAt ≤ startsAt || endsAt - startsAt > 60 * day ||
    benefitsExpireAt ≤ startsAt + 3 * day) "invalid-operating-window"
  let minimumCreditsUsd ← number (raw.get? (js "minimumCreditsUsd")) 5 10000
  let maxSqsPerHour ← number (raw.get? (js "maxSqsPerHour")) 2000 100000
  let maxWritesPerHour ← number (raw.get? (js "maxWritesPerHour")) 1 10000
  let maxArchiveReadsPerHour ← number (raw.get? (js "maxArchiveReadsPerHour")) 1 10000
  return { accountId := accountId.getD [], startsAt, endsAt, benefitsExpireAt, minimumCreditsUsd
           maxSqsPerHour, maxWritesPerHour, maxArchiveReadsPerHour }

/-- `readPlan`. -/
def readPlan (dateParse : JsString → Option ℤ) (value : Json) (policy : Policy) : Checked Plan := do
  let raw ← object value
  let credit ← object (raw.get? (js "accountPlanRemainingCredits"))
  ensureNot (!isText (raw.get? (js "accountId")) policy.accountId ||
    !isText (raw.get? (js "accountPlanType")) (js "FREE") ||
    !isText (raw.get? (js "accountPlanStatus")) (js "ACTIVE") ||
    !isText (credit.get? (js "unit")) (js "USD")) "unsupported-account-plan"
  let expiresAt ← time dateParse (raw.get? (js "accountPlanExpirationDate"))
  let credits ← number (credit.get? (js "amount")) 0 1000000
  return { accountId := policy.accountId, expiresAt, credits }

/-- `permission`: a lease up to the nearest of the three ends. -/
def permission (policy : Policy) (plan : Plan) (now : ℤ) : Checked Lease := do
  let cutoff :=
    min (min policy.endsAt (policy.benefitsExpireAt - 3 * day)) (plan.expiresAt - 3 * day)
  ensureNot (now < policy.startsAt || now ≥ cutoff || plan.credits ≤ policy.minimumCreditsUsd)
    "coverage-window-or-reserve"
  return { issuedAt := now, validUntil := min (now + leaseLife) cutoff, cutoff }

/-- `validLease`. -/
def validLease (value : Json) (now : ℤ) : Bool :=
  let checked : Checked Bool := do
    let raw ← object value
    let issued ← number (raw.get? (js "issuedAt")) 0 maxSafeInteger
    let validUntil ← number (raw.get? (js "validUntil")) 0 maxSafeInteger
    let cutoff ← number (raw.get? (js "cutoff")) 0 maxSafeInteger
    return issued ≤ (now + 5 * second : ℤ) && issued ≤ validUntil &&
      validUntil ≤ issued + leaseLife && now < validUntil && validUntil ≤ cutoff
  match checked with
  | .ok valid => valid
  | .error _ => false

/-- `none` is a timestamp that is not finite. -/
def healthyBackup (timestamp : Option ℚ) (now : ℤ) : Bool :=
  match timestamp with
  | some t => t > 0 && t ≤ (now + 5 * second : ℤ) && now - t ≤ 36 * 3600 * second
  | none => false

/-- `healthPermission`: since when the services are unhealthy, unless that is for too long. -/
def healthPermission (healthy : Bool) (previousBad : Option ℚ) (now : ℤ) : Checked (Option ℚ) :=
  if healthy then .ok none
  else
    let since := previousBad.getD now
    if since > now ∨ now - since ≥ grace then .error (failure "health-grace-exhausted")
    else .ok (some since)

/-- `withinUsage`. -/
def withinUsage (policy : Policy) (sqs writes archives : ℚ) : Bool :=
  sqs ≥ 0 && writes ≥ 0 && archives ≥ 0 && sqs + 120 ≤ policy.maxSqsPerHour &&
    writes ≤ policy.maxWritesPerHour && archives ≤ policy.maxArchiveReadsPerHour

/-- `readMetric`. -/
def readMetric (value : Json) (emptyAllowed : Bool) : Checked ℚ := do
  let raw ← object value
  let data ← object (raw.get? (js "data"))
  match data.get? (js "result") with
  | some (.arr result) =>
      ensureNot (!isText (raw.get? (js "status")) (js "success") ||
        !isText (data.get? (js "resultType")) (js "vector")) "invalid-monitoring"
      match result with
      -- no series counts as 0 where none is expected
      | [] => if emptyAllowed then return 0 else .error (failure "invalid-monitoring")
      | [first] =>
          let row ← object first
          match row.get? (js "value") with
          | some (.arr [_, .str text]) =>
              ensureNot (JsString.trim text == []) "invalid-monitoring"
              within (JsString.toNumber text) 0 maxSafeInteger
          | _ => .error (failure "invalid-monitoring")
      | _ => .error (failure "invalid-monitoring")
  | _ => .error (failure "invalid-monitoring")

/-! ## The operations of the host -/

/-- The files. -/
inductive Path where
  | latch
  | policy
  | backup
  | directory
  | health
  | lease
  | leaseTmp
  deriving DecidableEq

/-- The files that only the guard writes. -/
def Path.own : Path → Bool
  | .health => true
  | .lease => true
  | .leaseTmp => true
  | _ => false

/-- The queries of the monitoring. -/
inductive Query where
  | up
  | timestamp
  | sqs
  | writes
  | archives
  deriving DecidableEq

/-- A call of `Date.now` in the source, and what else is known where its answer is used: for
`healthPermission` that is the first argument.  The answer does not depend on it. -/
inductive Site where
  | lease
  | start
  | permission
  | behind
  | ahead
  | health (healthy : Bool)
  deriving DecidableEq

/-- What `statSync` answers. -/
structure Stat where
  uid : ℕ
  mode : ℕ
  size : ℕ
  isFile : Bool

/-- A response of Prometheus, with its text if there is a body. -/
structure Answer where
  ok : Bool
  body : Option JsString

/-- The operations of the script. -/
inductive Op where
  | getuid
  | now (site : Site)
  | existsSync (path : Path)
  | statSync (path : Path)
  | readFileSync (path : Path)
  | accountPlan
  | healthScript
  | query (q : Query)
  | mkdirSync (path : Path)
  | chmodSync (path : Path)
  | writeFileSync (path : Path) (text : JsString)
  | renameSync (source target : Path)
  | unlinkSync (path : Path)
  deriving DecidableEq

/-- Their answers. -/
def Op.Res : Op → Type
  | .getuid => ℕ
  | .now _ => Instant
  | .existsSync _ => Bool
  | .statSync _ => Stat
  | .readFileSync _ => JsString
  | .accountPlan => JsString
  | .query _ => Answer
  | _ => Unit

/-- The interface of the script. -/
abbrev Host : Interface := { Op := Op, Res := Op.Res, Err := JsError }

/-! ## The program -/

/-- A check within the program. -/
def check {α : Type} (x : Checked α) : Prog Host α :=
  match x with
  | .ok a => .ret a
  | .error e => .throw e

/-- `JSON.parse(text)`. -/
def parseJson (text : JsString) : Checked Json :=
  match Json.parse text with
  | some v => .ok v
  | none => .error { name := js "SyntaxError", message := js "JSON Parse error" }

/-- A regular file of root that nobody else may write. -/
def secureRead (path : Path) : Prog Host JsString := do
  let stat : Stat ← Prog.perform (S := Host) (.statSync path)
  check (ensureNot (stat.uid != 0 || stat.mode &&& 0o022 != 0 || stat.size > 32768 || !stat.isFile)
    "unsafe-local-file")
  Prog.perform (S := Host) (.readFileSync path)

/-- `metric`. -/
def metric (q : Query) (emptyAllowed : Bool) : Prog Host ℚ := do
  let response : Answer ← Prog.perform (S := Host) (.query q)
  check (ensureNot (!response.ok || response.body.isNone) "monitoring-unavailable")
  let value ← check (parseJson (response.body.getD []))
  check (readMetric value emptyAllowed)

/-- What a run asks for at once. -/
structure Evidence where
  planText : JsString
  health : Bool
  up : ℚ
  timestamp : ℚ
  sqs : ℚ
  writes : ℚ
  archives : ℚ

/-- `Promise.all`: nothing of it touches the files of the guard. -/
def gather : Prog Host Evidence := do
  let planText : JsString ← Prog.perform (S := Host) .accountPlan
  let health ← (Prog.perform (S := Host) .healthScript).attempt
  let up ← metric .up true
  let timestamp ← metric .timestamp true
  let sqs ← metric .sqs true
  let writes ← metric .writes true
  let archives ← metric .archives true
  return { planText, health := health.isOk, up, timestamp, sqs, writes, archives }

/-- `object(…).badSince`, a time or `null`. -/
def readBadSince (value : Json) : Checked (Option ℚ) := do
  let raw ← object value
  match raw.get? (js "badSince") with
  | some .null => return none
  | v =>
      let since ← number v 0 maxSafeInteger
      return some since

/-- Since when the services were unhealthy at the last run, by the file of the health. -/
def previousBad : Prog Host (Option ℚ) := do
  let known : Bool ← Prog.perform (S := Host) (.existsSync .health)
  if known then
    let text ← secureRead .health
    let value ← check (parseJson text)
    check (readBadSince value)
  else return none

/-- The conjunction of the source, which reads the clock twice at most. -/
def isHealthy (e : Evidence) : Prog Host Bool :=
  if e.health && e.up == 3 then do
    let behind : Instant ← Prog.perform (S := Host) (.now .behind)
    if e.timestamp * second ≥ behind.ms - 90000 then
      let ahead : Instant ← Prog.perform (S := Host) (.now .ahead)
      return e.timestamp * second ≤ ahead.ms + 5000
    else return false
  else return false

/-- `JSON.stringify({ badSince })`. -/
def healthText (badSince : Option ℚ) : JsString :=
  Json.stringify (.obj [(js "badSince", match badSince with
    | some t => Json.ofNumber t
    | none => .null)])

/-- `JSON.stringify(lease)`. -/
def leaseText (lease : Lease) : JsString :=
  Json.stringify (.obj [(js "issuedAt", Json.ofNumber lease.issuedAt),
    (js "validUntil", Json.ofNumber lease.validUntil), (js "cutoff", Json.ofNumber lease.cutoff)])

/-- The files of a run that may go on. -/
def renew (lease : Lease) (badSince : Option ℚ) : Prog Host Unit := do
  Prog.perform (S := Host) (.mkdirSync .directory)
  Prog.perform (S := Host) (.chmodSync .directory)
  Prog.perform (S := Host) (.writeFileSync .health (healthText badSince))
  Prog.perform (S := Host) (.writeFileSync .leaseTmp (leaseText lease))
  Prog.perform (S := Host) (.chmodSync .leaseTmp)
  Prog.perform (S := Host) (.renameSync .leaseTmp .lease)

section

variable (dateParse : JsString → Option ℤ)

/-- From the first reading of the clock on. -/
def decideLease (mode : JsString) : Prog Host Unit := do
  let now : Instant ← Prog.perform (S := Host) (.now .start)
  let policyText ← secureRead .policy
  let policyValue ← check (parseJson policyText)
  let policy ← check (readPolicy dateParse policyValue)
  check (ensureNot (now.ms < policy.startsAt ||
    now.ms ≥ min policy.endsAt (policy.benefitsExpireAt - 3 * day)) "outside-local-window")
  let backupText ← secureRead .backup
  let backup := (JsString.toNumber (JsString.trim backupText)).map (fun x : ℚ => x * second)
  check (ensureNot (!healthyBackup backup now.ms) "backup-not-current")
  let evidence ← gather
  let planValue ← check (parseJson evidence.planText)
  let plan ← check (readPlan dateParse planValue policy)
  let issue : Instant ← Prog.perform (S := Host) (.now .permission)
  let lease ← check (permission policy plan issue.ms)
  -- a spent budget withholds the lease
  check (ensureNot (!withinUsage policy evidence.sqs evidence.writes evidence.archives)
    "usage-circuit-open")
  let previous ← previousBad
  let healthy ← isHealthy evidence
  let later : Instant ← Prog.perform (S := Host) (.now (.health healthy))
  let badSince ← check (healthPermission healthy previous later.ms)
  if mode = js "check" then check (ensureNot badSince.isSome "health-not-ready")
  else renew lease badSince

/-- `main`. -/
def main (mode : JsString) : Prog Host Unit :=
  if mode = js "lease" then do
    let text ← secureRead .lease
    let value ← check (parseJson text)
    let now : Instant ← Prog.perform (S := Host) (.now .lease)
    check (ensureNot (!validLease value now.ms) "expired-lease")
  else if mode ≠ js "check" ∧ mode ≠ js "enforce" then .throw (failure "invalid-mode")
  else do
    let uid : ℕ ← Prog.perform (S := Host) .getuid
    check (ensureNot (uid != 0) "root-required")
    let latched : Bool ← Prog.perform (S := Host) (.existsSync .latch)
    if latched then check (ensureNot (mode != js "enforce") "shutdown-latched")
    else decideLease dateParse mode

/-- A failed run takes the lease away, if it can. -/
def program (mode : JsString) : Prog Host Unit := do
  let result ← (main dateParse mode).attempt
  match result with
  | .ok _ => return ()
  | .error e =>
      if mode = js "enforce" then
        let _ ← (Prog.perform (S := Host) (.unlinkSync .lease)).attempt
        .throw e
      else .throw e

end

/-! ## The host -/

/-- The files of the guard and the clock. -/
structure Files where
  file : Path → Option JsString
  clock : ℤ

/-- What the surroundings decide about an operation. -/
inductive Choice where
  | done
  | fail (e : JsError)
  | torn (e : JsError) (written : ℕ)
  | uid (n : ℕ)
  | time (t : Instant)
  | flag (b : Bool)
  | stat (s : Stat)
  | text (s : JsString)
  | answer (a : Answer)

/-- A file with other contents, or without any. -/
def Files.put (w : Files) (path : Path) (content : Option JsString) : Files :=
  { w with
    file := Function.update w.file path content }

/-- The error of a file that is not there. -/
def missing : JsError := { message := js "ENOENT: no such file or directory" }

/-- A failed write may have cut the file, or have written a part of the text. -/
def Files.exec (w : Files) (op : Op) (c : Choice) : Option (Except JsError op.Res × Files) :=
  match op, c with
  -- a write that fails may leave a beginning of the text
  | .writeFileSync path text, .torn e n =>
      if n < text.length then some (.error e, w.put path (some (text.take n))) else none
  | _, .fail e => some (.error e, w)
  | .getuid, .uid n => some (.ok n, w)
  | .now _, .time t =>
      -- time is read from outside and never runs back
      if w.clock ≤ t.ms then some (.ok t, { w with
        clock := t.ms })
      else none
  | .existsSync path, .flag b =>
      -- a file the guard does not write itself may be there or not
      if path.own then some (.ok (w.file path).isSome, w) else some (.ok b, w)
  | .statSync _, .stat s => some (.ok s, w)
  | .readFileSync path, .text s =>
      if path.own then
        match w.file path with
        | some content => some (.ok content, w)
        | none => some (.error missing, w)
      else some (.ok s, w)
  | .accountPlan, .text s => some (.ok s, w)
  | .healthScript, .done => some (.ok (), w)
  | .query _, .answer a => some (.ok a, w)
  | .mkdirSync _, .done => some (.ok (), w)
  | .chmodSync _, .done => some (.ok (), w)
  | .writeFileSync path text, .done => some (.ok (), w.put path (some text))
  | .renameSync source target, .done =>
      match w.file source with
      | some content => some (.ok (), (w.put source none).put target (some content))
      | none => some (.error missing, w)
  | .unlinkSync path, .done =>
      if (w.file path).isSome then some (.ok (), w.put path none) else some (.error missing, w)
  | _, _ => none

end Guard
