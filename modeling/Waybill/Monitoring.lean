/-
# The monitoring report (`web/src/server/observability.ts`, `web/src/lib/monitoring.ts`)

A snapshot asks Prometheus some fixed queries, and a report is made of the answers; a browser
reads the report and checks it.  Numbers are exact: a sum or a difference is not rounded.

* `parseQuery`: what is accepted of an answer.
* `snapshot`: the report of the answers.
* `readMonitoringReport`: what is accepted of a report.
-/
import Waybill.JsonSize
import Waybill.NumberTexts
import Waybill.Ranking
import Waybill.World

/-! ## Values with exact numbers -/

/-- The values of JSON texts, with their numbers. -/
inductive JsValue where
  | null
  | bool (b : Bool)
  | number (x : ℚ)
  | string (s : JsString)
  | array (items : List JsValue)
  | object (members : List (JsString × JsValue))

namespace JsValue

/-- Property access, `none` for `undefined`. -/
def get? (v : JsValue) (name : JsString) : Option JsValue :=
  match v with
  | object members => (members.find? (fun m => m.1 == name)).map Prod.snd
  | _ => none

/-- `Number.isFinite(v)`, with the number. -/
def number? : Option JsValue → Option ℚ
  | some (number x) => some x
  | _ => none

/-- `value === null`. -/
def isNull : JsValue → Bool
  | null => true
  | _ => false

/-- The value is this string. -/
def isString (s : JsString) : Option JsValue → Bool
  | some (string t) => t == s
  | _ => false

mutual

/-- The value as it is printed. -/
def json : JsValue → Json
  | null => .null
  | bool b => .bool b
  | number x => .ofNumber x
  | string s => .str s
  | array items => .arr (jsonItems items)
  | object members => .obj (jsonMembers members)

/-- The items of an array as JSON. -/
def jsonItems : List JsValue → List Json
  | [] => []
  | v :: items => json v :: jsonItems items

/-- The members of an object as JSON. -/
def jsonMembers : List (JsString × JsValue) → List (JsString × Json)
  | [] => []
  | (k, v) :: members => (k, json v) :: jsonMembers members

end

/-- A member is read, where the names are distinct. -/
theorem get?_of_mem {members : List (JsString × JsValue)} {name : JsString} {v : JsValue}
    (hnodup : (members.map Prod.fst).Nodup) (hmem : (name, v) ∈ members) :
    (object members).get? name = some v := by
  rw [get?]
  induction members with
  | nil => cases hmem
  | cons m members ih =>
      rw [List.map_cons, List.nodup_cons] at hnodup
      rcases List.mem_cons.mp hmem with rfl | hmem
      · simp
      · have hne : m.1 ≠ name := by
          rintro rfl
          exact hnodup.1 (List.mem_map.mpr ⟨_, hmem, rfl⟩)
        rw [List.find?_cons_of_neg (by simpa using hne)]
        exact ih hnodup.2 hmem

theorem jsonItems_eq (items : List JsValue) : jsonItems items = items.map json := by
  induction items with
  | nil => rfl
  | cons v items ih => rw [jsonItems, ih, List.map_cons]

theorem jsonMembers_eq (members : List (JsString × JsValue)) :
    jsonMembers members = members.map (fun m => (m.1, m.2.json)) := by
  induction members with
  | nil => rfl
  | cons m members ih => rw [jsonMembers, ih, List.map_cons]

end JsValue

/-! ## Reports -/

/-- `MonitoringRange`. -/
inductive MonitoringRange where
  | fiveMinutes
  | oneHour
  | sixHours
  | oneDay
  deriving DecidableEq

namespace MonitoringRange

/-- Its name in a request. -/
def name : MonitoringRange → JsString
  | .fiveMinutes => js "5m"
  | .oneHour => js "1h"
  | .sixHours => js "6h"
  | .oneDay => js "24h"

/-- Its length. -/
def seconds : MonitoringRange → ℚ
  | .fiveMinutes => 300
  | .oneHour => 3600
  | .sixHours => 21600
  | .oneDay => 86400

/-- The distance of its samples, in seconds. -/
def step : MonitoringRange → ℚ
  | .fiveMinutes => 15
  | .oneHour => 15
  | .sixHours => 60
  | .oneDay => 120

end MonitoringRange

/-- `MetricState`. -/
inductive MetricState where
  | ready
  | missing
  | stale
  | idle
  | nonFinite
  | unavailable
  | error
  deriving DecidableEq

/-- The keys of `metricStateLabels`. -/
def MetricState.name : MetricState → JsString
  | .ready => js "ready"
  | .missing => js "missing"
  | .stale => js "stale"
  | .idle => js "idle"
  | .nonFinite => js "non-finite"
  | .unavailable => js "unavailable"
  | .error => js "error"

/-- `MetricValue`; `none` is `null`. -/
structure MetricValue where
  state : MetricState
  value : Option ℚ
  deriving DecidableEq

/-- `MonitoringPoint`. -/
structure MonitoringPoint extends MetricValue where
  time : ℚ

/-- `MonitoringSeries`. -/
structure MonitoringSeries where
  label : JsString
  state : MetricState
  points : List MonitoringPoint

/-- The members are those of `instantKeys`. -/
structure MonitoringInstant where
  attempts : MetricValue
  p95 : MetricValue
  retries : MetricValue
  deadLetters : MetricValue
  outbox : MetricValue
  visible : MetricValue
  inFlight : MetricValue
  delayed : MetricValue
  clientErrors : MetricValue
  serverErrors : MetricValue
  aborted : MetricValue

/-- `MonitoringReport["history"]`. -/
structure MonitoringHistory where
  attempts : List MonitoringSeries
  duration : List MonitoringSeries

/-- `MonitoringReport`. -/
structure MonitoringReport where
  range : MonitoringRange
  start : ℚ
  stop : ℚ
  step : ℚ
  checkedAt : ℚ
  isPartial : Bool
  instant : MonitoringInstant
  history : MonitoringHistory

namespace Monitoring

/-! ## The answers of Prometheus -/

/-- `monitoringLimits.responseBytes`. -/
def responseBytes : ℕ := 1048576

/-- `monitoringLimits.series`. -/
def maxSeries : ℕ := 8

/-- `monitoringLimits.points`. -/
def maxPoints : ℕ := 721

/-- A series of an answer: its labels, and its samples with their times. -/
structure Series where
  metric : List (JsString × JsString)
  values : List (ℚ × JsString)

/-- What has become of a query. -/
inductive Query where
  | ok (series : List Series)
  | failed

/-- The keys of `fixedMonitoringQueries`. -/
inductive QueryKey where
  | attempts
  | p50
  | p95
  | p99
  | retries
  | deadLetters
  | outbox
  | queue
  | apiErrors
  | up
  | scrapeTime
  | sampleSuccess
  | sampleTime
  | durationObservations
  deriving DecidableEq

/-- The queries of the present state. -/
def queryKeys : List QueryKey :=
  [.attempts, .p50, .p95, .p99, .retries, .deadLetters, .outbox, .queue, .apiErrors, .up,
    .scrapeTime, .sampleSuccess, .sampleTime, .durationObservations]

/-- The queries of the history. -/
def historyKeys : List QueryKey :=
  [.attempts, .p50, .p95, .p99, .durationObservations, .up, .scrapeTime]

/-- `toLowerCase` of an ASCII letter. -/
def lowerUnit (u : UInt16) : UInt16 :=
  if 65 ≤ u.toNat ∧ u.toNat ≤ 90 then UInt16.ofNat (u.toNat + 32) else u

/-- Digits with a point or an exponent, in small letters. -/
def isDecimal (t : JsString) : Bool :=
  let whole := t.takeWhile Json.isDigit
  let fraction := Json.splitFraction (t.dropWhile Json.isDigit)
  (whole ≠ [] || fraction.1 ≠ []) &&
    match fraction.2 with
    | [] => true
    | e :: u =>
        let digits := if u.head? = some 43 ∨ u.head? = some 45 then u.tail else u
        e = 101 && digits ≠ [] && digits.all Json.isDigit

/-- `/^(?:NaN|[+-]?Inf|[+-]?(?:\d+\.?\d*|\.\d+)(?:e[+-]?\d+)?)$/i` -/
def isSampleText (s : JsString) : Bool :=
  let t := s.map lowerUnit
  let unsigned := if t.head? = some 43 ∨ t.head? = some 45 then t.tail else t
  t = js "nan" || unsigned = js "inf" || isDecimal unsigned

/-- A sample, after those up to a time. -/
def parseSample (start stop : ℚ) (previous : Option ℚ) : Json → Option (ℚ × JsString)
  | .arr [raw, .str text] =>
      match raw.number? with
      | some time =>
          if start ≤ time ∧ time ≤ stop ∧ (∀ t ∈ previous, t < time) ∧ isSampleText text = true then
            some (time, text)
          else none
      | none => none
  | _ => none

/-- The samples of a series, each later than the one before. -/
def parseSamples (start stop : ℚ) : Option ℚ → List Json → Option (List (ℚ × JsString))
  | _, [] => some []
  | previous, raw :: rest =>
      match parseSample start stop previous raw with
      | some sample =>
          (parseSamples start stop (some sample.1) rest).map (fun samples => sample :: samples)
      | none => none

/-- The entries of an object, in the order of its properties. -/
def entries? : Json → Option (List (JsString × Json))
  | .obj members => some (Json.ownOrder (members.foldl Json.assign []))
  | _ => none

/-- A label, of bounded length. -/
def parseLabel : JsString × Json → Option (JsString × JsString)
  | (k, .str v) => if k.length ≤ 100 ∧ v.length ≤ 200 then some (k, v) else none
  | _ => none

/-- The labels of a series, at most twelve. -/
def parseLabels (metric : Json) : Option (List (JsString × JsString)) :=
  match entries? metric with
  | some entries => if entries.length ≤ 12 then entries.mapM parseLabel else none
  | none => none

/-- The items of an array. -/
def items? : Json → Option (List Json)
  | .arr items => some items
  | _ => none

section

variable (localeCompare : JsString → JsString → Ordering)

/-- The text that tells series apart. -/
def labelKey (labels : List (JsString × JsString)) : JsString :=
  (Json.arr ((labels.mergeSort (fun a b => localeCompare a.1 b.1 != .gt)).map
    (fun m => .arr [.str m.1, .str m.2]))).stringify

/-- How many samples a series may have. -/
def maxValues (range : Bool) : ℕ := if range then maxPoints else 1

/-- `resultType` of an answer. -/
def resultType (range : Bool) : JsString := if range then js "matrix" else js "vector"

/-- The list of the samples of a series. -/
def sampleValues (range : Bool) (item : Json) : Option (List Json) :=
  if range then (item.get? (js "values")).bind items?
  else (item.get? (js "value")).map (fun value => [value])

/-- One series, with the text of its labels. -/
def parseSeries (range : Bool) (start stop : ℚ) (item : Json) : Option (JsString × Series) :=
  match (item.get? (js "metric")).bind parseLabels, sampleValues range item with
  | some labels, some values =>
      if values.length ≤ maxValues range then
        (parseSamples start stop none values).map
          (fun samples => (labelKey localeCompare labels, { metric := labels, values := samples }))
      else none
  | _, _ => none

/-- The series of an answer, no two with the same labels. -/
def parseAllSeries (range : Bool) (start stop : ℚ) : List JsString → List Json →
    Option (List Series)
  | _, [] => some []
  | labelsSeen, item :: rest =>
      match parseSeries localeCompare range start stop item with
      | some (key, series) =>
          if labelsSeen.contains key then none
          else (parseAllSeries range start stop (key :: labelsSeen) rest).map
            (fun all => series :: all)
      | none => none

/-- `parseQuery`; `none` when it throws. -/
def parseQuery (value : Json) (range : Bool) (start stop : ℚ) : Option (List Series) :=
  let data := (value.get? (js "data")).getD .null
  if (value.get? (js "status")).bind Json.str? = some (js "success") ∧
      (value.get? (js "warnings")).isNone ∧ (value.get? (js "infos")).isNone ∧
      (data.get? (js "resultType")).bind Json.str? = some (resultType range) then
    match (data.get? (js "result")).bind items? with
    | some result =>
        if result.length ≤ maxSeries then
          parseAllSeries localeCompare range start stop [] result
        else none
    | none => none
  else none

end

/-! ## The metrics of the answers -/

/-- `s.metric.name` -/
def Series.label? (s : Series) (name : JsString) : Option JsString :=
  (s.metric.find? (fun m => m.1 == name)).map Prod.snd

/-- `metric`, of no value. -/
def metric (state : MetricState) : MetricValue := { state := state, value := none }

/-- `number` -/
def number (raw : Option JsString) (idle : Bool) : MetricValue :=
  match raw with
  | none => metric .missing
  | some raw =>
      match JsString.toNumber raw with
      | some n =>
          if 0 ≤ n then { state := .ready, value := some n }
          else metric (if raw = js "NaN" ∧ idle = true then .idle else .nonFinite)
      | none => metric (if raw = js "NaN" ∧ idle = true then .idle else .nonFinite)

/-- `at` -/
def textAt (series : Series) : Option ℚ → Option JsString
  | none => series.values.head?.map Prod.snd
  | some time => (series.values.find? (fun v => v.1 == time)).map Prod.snd

/-- The loop of `sourceHealth`. -/
def healthOf (stamps : List Series) (job : JsString) (now : ℚ) (time : Option ℚ) :
    List Series → MetricState
  | [] => .ready
  | source :: rest =>
      match textAt source time with
      | none => .missing
      | some state =>
          -- the first source that is not well decides
          if state ≠ js "1" then .unavailable
          else
            let stamp := stamps.find? (fun s => s.label? (js "job") == some job &&
              s.label? (js "instance") == source.label? (js "instance"))
            match (stamp.bind (fun s => textAt s time)).bind JsString.toNumber with
            | some timestamp =>
                -- a scrape is stale after 45 seconds, and so is one of the future
                if timestamp ≤ 0 ∨ 45 ≤ now - timestamp ∨ now < timestamp then .stale
                else healthOf stamps job now time rest
            | none => .stale

/-- `sourceHealth`: all instances of a job are up and were scraped lately. -/
def sourceHealth (up stamps : Query) (job : JsString) (now : ℚ) (time : Option ℚ) : MetricState :=
  match up, stamps with
  | .ok up, .ok stamps =>
      let sources := up.filter (fun s => s.label? (js "job") == some job)
      if sources.isEmpty then .missing else healthOf stamps job now time sources
  | _, _ => .error

/-- The first of some numbers that is not ready, or else their sum. -/
def total (numbers : List MetricValue) : MetricValue :=
  match numbers.find? (fun n => n.state != .ready) with
  | some invalid => invalid
  | none => { state := .ready, value := some (numbers.map (fun n => n.value.getD 0)).sum }

/-- `readMetric`. -/
def readMetric (query : Query) (health : MetricState) (label : Option (JsString × JsString))
    (idle : Bool) : MetricValue :=
  match query with
  | .failed => metric .error
  | .ok series =>
      if health ≠ .ready then metric health
      else
        let rows :=
          match label with
          | some (name, value) => series.filter (fun s : Series => s.label? name == some value)
          | none => series
        if rows.isEmpty then metric .missing
        else total (rows.map (fun row => number (textAt row none) idle))

/-! ## Snapshots -/

/-- The answers to the queries; `none` is a query that failed before its body was a value. -/
structure Answers where
  current : QueryKey → Option Json
  history : QueryKey → Option Json

/-- `MonitoringError`. -/
structure MonitoringError where
  status : ℕ
  message : JsString

section

variable (localeCompare : JsString → JsString → Ordering)

/-- A query with its answer; what cannot be parsed has failed. -/
def query (answer : Option Json) (range : Bool) (start stop : ℚ) : Query :=
  match answer.bind (fun value => parseQuery localeCompare value range start stop) with
  | some series => .ok series
  | none => .failed

end

/-- The query was answered. -/
def Query.isOk : Query → Bool
  | .ok _ => true
  | .failed => false

/-- Its series, none if it failed. -/
def Query.series : Query → List Series
  | .ok series => series
  | .failed => []

/-- The state of a source of backlog samples. -/
def backlog (current : QueryKey → Query) (publisher : MetricState) (checkedAt : ℚ)
    (source : JsString) : MetricState :=
  if publisher ≠ .ready then publisher
  else
    match current .sampleSuccess, current .sampleTime with
    | .ok sampleSuccess, .ok sampleTime =>
        let rows := sampleSuccess.filter (fun s => s.label? (js "source") == some source)
        if rows.isEmpty then .missing
        else
          -- one source that has sampled within 90 seconds is enough
          let valid := rows.any (fun s : Series =>
            let stamp := sampleTime.find? (fun t : Series =>
              t.label? (js "instance") == s.label? (js "instance") &&
                t.label? (js "job") == s.label? (js "job") &&
                t.label? (js "source") == some source)
            match (stamp.bind (fun t => textAt t none)).bind JsString.toNumber with
            | some time => textAt s none == some (js "1") && decide (0 < time) &&
                decide (time ≤ checkedAt) && decide (checkedAt - time < 90)
            | none => false)
          if valid then .ready
          else if rows.any (fun s => textAt s none == some (js "1")) then .stale
          else .unavailable
    | _, _ => .error

/-- The rows of a history series. -/
def rowsOf (outcome : Option JsString) (series : List Series) : List Series :=
  match outcome with
  | some outcome => series.filter (fun s => s.label? (js "outcome") == some outcome)
  | none => series

/-- The times of some rows, each once and in order. -/
def timesOf (rows : List Series) : List ℚ :=
  Ranking.sorted id (rows.flatMap (fun s => s.values.map Prod.fst)).dedup

/-- The point of some rows at a time. -/
def pointAt (history : QueryKey → Query) (rows : List Series) (time : ℚ) : MonitoringPoint :=
  let health :=
    sourceHealth (history .up) (history .scrapeTime) (js "waybill-worker") time (some time)
  if health ≠ .ready then { metric health with
    time := time }
  else
    let count := (history .durationObservations).series.find?
      (fun s => (textAt s (some time)).isSome)
    let isIdle := (count.bind (fun s => textAt s (some time))) == some (js "0")
    { total (rows.map (fun row => number (textAt row (some time)) isIdle)) with
      time := time }

/-- `historical`: the series of the page from the rows of a query. -/
def historical (history : QueryKey → Query) (key : QueryKey) (label : JsString)
    (outcome : Option JsString) : MonitoringSeries :=
  match history key with
  | .failed => { label := label, state := .error, points := [] }
  | .ok series =>
      let rows := rowsOf outcome series
      let points := (timesOf rows).map (pointAt history rows)
      { label := label
        state :=
          if points.any (fun p => p.state == .ready) then .ready
          else
            match points with
            | [] => .missing
            | p :: _ => p.state
        points := points }

/-- The second in which a snapshot is begun. -/
def checkedAt (clock : ℚ) : ℚ := ⌊clock / 1000⌋

/-- `end`: the last multiple of the step. -/
def stopOf (range : MonitoringRange) (clock : ℚ) : ℚ :=
  ⌊checkedAt clock / range.step⌋ * range.step

/-- `start`. -/
def startOf (range : MonitoringRange) (clock : ℚ) : ℚ := stopOf range clock - range.seconds

section

variable (localeCompare : JsString → JsString → Ordering)

/-- The queries of the present state, with their answers. -/
def currentQueries (clock : ℚ) (answers : Answers) (key : QueryKey) : Query :=
  query localeCompare (answers.current key) false (checkedAt clock) (checkedAt clock)

/-- The queries of the history, with their answers. -/
def historyQueries (range : MonitoringRange) (clock : ℚ) (answers : Answers) (key : QueryKey) :
    Query :=
  query localeCompare (answers.history key) true (startOf range clock) (stopOf range clock)

/-- `instant`, from the queries of the present state. -/
def instantOf (current : QueryKey → Query) (checkedAt : ℚ) : MonitoringInstant :=
  let health := fun job => sourceHealth (current .up) (current .scrapeTime) job checkedAt none
  let worker := health (js "waybill-worker")
  let api := health (js "waybill-api")
  let publisher := health (js "waybill-publisher")
  let idle := (readMetric (current .durationObservations) worker none false).value == some 0
  let outbox := backlog current publisher checkedAt (js "outbox")
  let sqs := backlog current publisher checkedAt (js "sqs")
  { attempts := readMetric (current .attempts) worker none false
    p95 := readMetric (current .p95) worker none idle
    retries := readMetric (current .retries) worker none false
    deadLetters := readMetric (current .deadLetters) worker none false
    outbox := readMetric (current .outbox) outbox none false
    visible := readMetric (current .queue) sqs (some (js "state", js "visible")) false
    inFlight := readMetric (current .queue) sqs (some (js "state", js "in_flight")) false
    delayed := readMetric (current .queue) sqs (some (js "state", js "delayed")) false
    clientErrors := readMetric (current .apiErrors) api (some (js "status_class", js "4xx")) false
    serverErrors := readMetric (current .apiErrors) api (some (js "status_class", js "5xx")) false
    aborted := readMetric (current .apiErrors) api (some (js "status_class", js "aborted")) false }

/-- `history`, from the queries of the history. -/
def historyOf (history : QueryKey → Query) : MonitoringHistory :=
  { attempts :=
      [historical history .attempts (js "success") (some (js "success")),
        historical history .attempts (js "failure") (some (js "failure"))]
    duration :=
      [historical history .p50 (js "p50") none, historical history .p95 (js "p95") none,
        historical history .p99 (js "p99") none] }

/-- The report of a snapshot that was begun at a time, once all its queries are answered. -/
def snapshot (range : MonitoringRange) (clock : ℚ) (answers : Answers) :
    Except MonitoringError MonitoringReport :=
  let current := currentQueries localeCompare clock answers
  let history := historyQueries localeCompare range clock answers
  -- a report needs one current answer; the rest may be missing
  if queryKeys.any (fun key => (current key).isOk) then
    .ok
      { range := range
        start := startOf range clock
        stop := stopOf range clock
        step := range.step
        checkedAt := checkedAt clock
        isPartial := queryKeys.any (fun key => !(current key).isOk) ||
          historyKeys.any (fun key => !(history key).isOk)
        instant := instantOf current (checkedAt clock)
        history := historyOf history }
  else .error { status := 503, message := js "Monitoring is temporarily unavailable." }

end

/-! ## The body of a response -/

/-- The members of a `MetricValue`. -/
def metricMembers (m : MetricValue) : List (JsString × JsValue) :=
  [(js "state", .string m.state.name), (js "value", (m.value.map JsValue.number).getD .null)]

/-- A point in the response. -/
def pointValue (p : MonitoringPoint) : JsValue :=
  .object ((js "time", .number p.time) :: metricMembers p.toMetricValue)

/-- A series in the response. -/
def seriesValue (s : MonitoringSeries) : JsValue :=
  .object [(js "label", .string s.label), (js "state", .string s.state.name),
    (js "points", .array (s.points.map pointValue))]

/-- The present state in the response. -/
def instantMembers (i : MonitoringInstant) : List (JsString × MetricValue) :=
  [(js "attempts", i.attempts), (js "p95", i.p95), (js "retries", i.retries),
    (js "deadLetters", i.deadLetters), (js "outbox", i.outbox), (js "visible", i.visible),
    (js "inFlight", i.inFlight), (js "delayed", i.delayed), (js "clientErrors", i.clientErrors),
    (js "serverErrors", i.serverErrors), (js "aborted", i.aborted)]

/-- The history in the response. -/
def historyMembers (history : MonitoringHistory) : List (JsString × JsValue) :=
  [(js "attempts", .array (history.attempts.map seriesValue)),
    (js "duration", .array (history.duration.map seriesValue))]

/-- The report in the response. -/
def reportMembers (report : MonitoringReport) : List (JsString × JsValue) :=
  [(js "range", .string report.range.name), (js "start", .number report.start),
    (js "end", .number report.stop), (js "step", .number report.step),
    (js "checkedAt", .number report.checkedAt), (js "partial", .bool report.isPartial),
    (js "instant", .object ((instantMembers report.instant).map
      (fun m => (m.1, .object (metricMembers m.2))))),
    (js "history", .object (historyMembers report.history))]

/-- What `JSON.stringify` writes of a report, and `JSON.parse` reads. -/
def reportValue (report : MonitoringReport) : JsValue := .object (reportMembers report)

/-- The body of a response 200, unless it is too large. -/
def respond (report : MonitoringReport) : Except MonitoringError JsValue :=
  if (reportValue report).json.size > responseBytes then
    .error { status := 503, message := js "Monitoring result is unavailable." }
  else .ok (reportValue report)

/-! ## The reader of a report -/

/-- `instantKeys`. -/
def instantKeys : List JsString :=
  [js "attempts", js "p95", js "retries", js "deadLetters", js "outbox", js "visible",
    js "inFlight", js "delayed", js "clientErrors", js "serverErrors", js "aborted"]

/-- The keys of `metricStateLabels`. -/
def states : List JsString :=
  [js "ready", js "missing", js "stale", js "idle", js "non-finite", js "unavailable", js "error"]

/-- `states.includes(v)` -/
def isState : Option JsValue → Bool
  | some (.string s) => states.contains s
  | _ => false

/-- `metric` of the reader. -/
def validMetric (m : Option JsValue) : Bool :=
  let state := m.bind (fun v => v.get? (js "state"))
  let value := m.bind (fun v => v.get? (js "value"))
  isState state &&
    if JsValue.isString (js "ready") state then
      match JsValue.number? value with
      | some x => decide (0 ≤ x)
      | none => false
    else
      match value with
      | some v => v.isNull
      | none => false

/-- The points of a series, after a point at a time. -/
def validPoints (start stop : ℚ) : Option ℚ → List JsValue → Bool
  | _, [] => true
  | previous, p :: rest =>
      match JsValue.number? (p.get? (js "time")) with
      | some time => validMetric (some p) && decide (start ≤ time) && decide (time ≤ stop) &&
          decide (∀ t ∈ previous, t < time) && validPoints start stop (some time) rest
      | none => false

/-- A series is valid, as the reader checks it. -/
def validSeries (start stop : ℚ) (s : JsValue) : Bool :=
  isState (s.get? (js "state")) &&
    match s.get? (js "points") with
    | some (.array points) => decide (points.length ≤ 721) && validPoints start stop none points
    | _ => false

/-- `s.label === label`. -/
def hasLabel (label : JsString) (s : JsValue) : Bool :=
  JsValue.isString label (s.get? (js "label"))

/-- The lists of `history` that are read, with their labels. -/
def historyLabels : List (JsString × List JsString) :=
  [(js "attempts", [js "success", js "failure"]), (js "duration", [js "p50", js "p95", js "p99"])]

/-- The checks of the history, one list of series after the other. -/
def readHistory (start stop : ℚ) (history : Option JsValue) :
    List (JsString × List JsString) → Except JsError Unit
  | [] => .ok ()
  | (key, labels) :: rest =>
      match history.bind (fun v => v.get? key) with
      | some (.array series) =>
          if series.length ≠ labels.length then
            .error { message := js "Invalid monitoring history" }
          -- the reader looks at `label` before it checks the entry
          else if series.any JsValue.isNull then
            .error
              { name := js "TypeError"
                message := js "Cannot read properties of null (reading 'label')" }
          else if labels.all (fun label =>
              (series.filter (hasLabel label)).length == 1) = false then
            .error { message := js "Invalid monitoring history" }
          else if series.all (validSeries start stop) = false then
            .error { message := js "Invalid monitoring points" }
          else readHistory start stop history rest
      | _ => .error { message := js "Invalid monitoring history" }

/-- `readMonitoringReport`. -/
def readMonitoringReport (data : JsValue) (range : MonitoringRange) : Except JsError JsValue :=
  let invalid : Except JsError JsValue :=
    .error { message := js "Invalid monitoring response" }
  match JsValue.number? (data.get? (js "checkedAt")), JsValue.number? (data.get? (js "start")),
      JsValue.number? (data.get? (js "end")), JsValue.number? (data.get? (js "step")),
      data.get? (js "partial"), data.get? (js "instant") with
  | some _, some start, some stop, some step, some (.bool _), some instant =>
      if JsValue.isString range.name (data.get? (js "range")) = false ∨ step ≠ range.step ∨
          stop - start ≠ range.seconds ∨
          instantKeys.all (fun key => validMetric (instant.get? key)) = false then invalid
      else
        match readHistory start stop (data.get? (js "history")) historyLabels with
        | .ok _ => .ok data
        | .error error => .error error
  | _, _, _, _, _, _ => invalid

end Monitoring
