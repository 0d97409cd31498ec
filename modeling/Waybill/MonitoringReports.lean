/-
# Producer and consumer of the monitoring report

A report that is made of the answers is read back, if none of its history series has more points
than the reader accepts.  Each series of an answer has at most `721` samples, but the rows of a
history series are merged: at as many times as its rows have samples, eight times as many if
they are not aligned.

* `within_of_parseQuery`, `pairwise_timesOf`: the times of a history series.
* `validMetric_of_valid`: every metric of a report is a valid one.
* `report_read_iff`: when a report is read back.
-/
import Waybill.Monitoring

open Json

namespace Monitoring

/-! ## The samples that are accepted -/

/-- The times of some samples are in an interval. -/
def Within (start stop : ℚ) (values : List (ℚ × JsString)) : Prop :=
  ∀ v ∈ values, start ≤ v.1 ∧ v.1 ≤ stop

section

variable {start stop : ℚ} {localeCompare : JsString → JsString → Ordering}

/-- An accepted sample is in the interval. -/
theorem within_of_parseSample {previous : Option ℚ} {raw : Json} {v : ℚ × JsString}
    (h : parseSample start stop previous raw = some v) : start ≤ v.1 ∧ v.1 ≤ stop := by
  unfold parseSample at h
  split at h
  · split at h
    · split_ifs at h with hcheck
      obtain rfl := Option.some.inj h
      exact ⟨hcheck.1, hcheck.2.1⟩
    · cases h
  · cases h

/-- All accepted samples are in the interval. -/
theorem within_of_parseSamples {previous : Option ℚ} {raws : List Json}
    {values : List (ℚ × JsString)} (h : parseSamples start stop previous raws = some values) :
    Within start stop values := by
  induction raws generalizing previous values with
  | nil =>
      obtain rfl := Option.some.inj h
      intro v hv
      cases hv
  | cons raw raws ih =>
      rw [parseSamples] at h
      cases hsample : parseSample start stop previous raw with
      | none => simp [hsample] at h
      | some sample =>
          simp only [hsample, Option.map_eq_some_iff] at h
          obtain ⟨rest, hrest, rfl⟩ := h
          intro v hv
          rcases List.mem_cons.mp hv with rfl | hv
          · exact within_of_parseSample hsample
          · exact ih hrest v hv

/-- So are those of an accepted series. -/
theorem within_of_parseSeries {range : Bool} {item : Json} {key : JsString} {s : Series}
    (h : parseSeries localeCompare range start stop item = some (key, s)) :
    Within start stop s.values := by
  unfold parseSeries at h
  split at h
  · split_ifs at h
    obtain ⟨samples, hsamples, hseries⟩ := Option.map_eq_some_iff.mp h
    obtain ⟨-, rfl⟩ := Prod.mk.inj hseries
    exact within_of_parseSamples hsamples
  · cases h

/-- So are those of all series of an answer. -/
theorem within_of_parseAllSeries {range : Bool} {labelsSeen : List JsString} {items : List Json}
    {all : List Series}
    (h : parseAllSeries localeCompare range start stop labelsSeen items = some all) :
    ∀ s ∈ all, Within start stop s.values := by
  induction items generalizing labelsSeen all with
  | nil =>
      obtain rfl := Option.some.inj h
      intro s hs
      cases hs
  | cons item items ih =>
      rw [parseAllSeries] at h
      cases hitem : parseSeries localeCompare range start stop item with
      | none => simp [hitem] at h
      | some ks =>
          obtain ⟨key, s⟩ := ks
          simp only [hitem] at h
          split_ifs at h
          obtain ⟨rest, hrest, rfl⟩ := Option.map_eq_some_iff.mp h
          intro t ht
          rcases List.mem_cons.mp ht with rfl | ht
          · exact within_of_parseSeries hitem
          · exact ih hrest t ht

/-- **The samples of an accepted answer are in its interval.** -/
theorem within_of_parseQuery {value : Json} {range : Bool} {all : List Series}
    (h : parseQuery localeCompare value range start stop = some all) :
    ∀ s ∈ all, Within start stop s.values := by
  unfold parseQuery at h
  simp only at h
  split_ifs at h
  split at h
  · split_ifs at h
    exact within_of_parseAllSeries h
  · cases h

/-- A query that was answered has its samples in the interval. -/
theorem within_of_query {answer : Option Json} {range : Bool} {all : List Series}
    (h : query localeCompare answer range start stop = .ok all) :
    ∀ s ∈ all, Within start stop s.values := by
  unfold query at h
  split at h
  · next series hseries =>
      obtain rfl := Query.ok.inj h
      obtain ⟨value, -, hvalue⟩ := Option.bind_eq_some_iff.mp hseries
      exact within_of_parseQuery hvalue
  · cases h

end

/-! ## The times of a history series -/

theorem pairwise_timesOf (rows : List Series) : (timesOf rows).Pairwise (· < ·) :=
  Ranking.pairwise_sorted (List.nodup_dedup _) (fun _ _ _ _ h => h)

theorem mem_timesOf {rows : List Series} {time : ℚ} :
    time ∈ timesOf rows ↔ ∃ s ∈ rows, ∃ v ∈ s.values, v.1 = time := by
  rw [timesOf, (Ranking.sorted_perm _ _).mem_iff, List.mem_dedup]
  simp

/-- The distinct times at which some rows have samples. -/
def sampleTimes (rows : List Series) : Finset ℚ :=
  (rows.flatMap (fun s => s.values.map Prod.fst)).toFinset

theorem length_timesOf (rows : List Series) : (timesOf rows).length = (sampleTimes rows).card := by
  rw [timesOf, (Ranking.sorted_perm _ _).length_eq, sampleTimes, List.card_toFinset]

/-! ## The metrics of a report -/

/-- A value is there exactly if the metric is ready, and then not negative. -/
def MetricValue.Valid (m : MetricValue) : Prop :=
  if m.state = .ready then ∃ x, m.value = some x ∧ 0 ≤ x else m.value = none

theorem valid_metric {state : MetricState} (h : state ≠ .ready) :
    MetricValue.Valid (metric state) := by
  rw [MetricValue.Valid, metric, if_neg h]

theorem valid_number (raw : Option JsString) (idle : Bool) :
    MetricValue.Valid (number raw idle) := by
  unfold number
  split
  · exact valid_metric (by decide)
  · split
    · split_ifs with hpos
      · rw [MetricValue.Valid, if_pos rfl]
        exact ⟨_, rfl, hpos⟩
      · exact valid_metric (by decide)
      · exact valid_metric (by decide)
    · split_ifs
      · exact valid_metric (by decide)
      · exact valid_metric (by decide)

/-- A sum of valid values is valid. -/
theorem valid_total {numbers : List MetricValue} (h : ∀ n ∈ numbers, MetricValue.Valid n) :
    MetricValue.Valid (total numbers) := by
  unfold total
  split
  · next invalid hinvalid => exact h invalid (List.mem_of_find?_eq_some hinvalid)
  · next hready =>
      rw [MetricValue.Valid, if_pos rfl]
      refine ⟨_, rfl, List.sum_nonneg ?_⟩
      intro x hx
      obtain ⟨n, hn, rfl⟩ := List.mem_map.mp hx
      have hstate : n.state = .ready := by
        by_contra hno
        exact List.find?_eq_none.mp hready n hn (by simpa using hno)
      have hvalid := h n hn
      rw [MetricValue.Valid, if_pos hstate] at hvalid
      obtain ⟨x, hx, hpos⟩ := hvalid
      rw [hx]
      exact hpos

theorem valid_total_numbers (rows : List Series) (time : Option ℚ) (idle : Bool) :
    MetricValue.Valid (total (rows.map (fun row => number (textAt row time) idle))) := by
  apply valid_total
  intro n hn
  obtain ⟨row, -, rfl⟩ := List.mem_map.mp hn
  exact valid_number _ _

/-- What `readMetric` answers is valid. -/
theorem valid_readMetric (query : Query) (health : MetricState)
    (label : Option (JsString × JsString)) (idle : Bool) :
    MetricValue.Valid (readMetric query health label idle) := by
  unfold readMetric
  split
  · exact valid_metric (by decide)
  · split_ifs with hhealth
    · exact valid_metric hhealth
    · simp only
      split_ifs
      · exact valid_metric (by decide)
      · exact valid_total_numbers _ _ _

/-- A point of a series is valid. -/
theorem valid_pointAt (history : QueryKey → Query) (rows : List Series) (time : ℚ) :
    MetricValue.Valid (pointAt history rows time).toMetricValue := by
  unfold pointAt
  simp only
  split_ifs with hhealth
  · exact valid_metric hhealth
  · exact valid_total_numbers _ _ _

/-! ## Reading metrics and points -/

theorem metricNames_nodup : [js "time", js "state", js "value"].Nodup := by
  decide

theorem isState_name (state : MetricState) : isState (some (.string state.name)) = true := by
  cases state <;> decide

theorem isReady_name (state : MetricState) :
    JsValue.isString (js "ready") (some (.string state.name)) = decide (state = .ready) := by
  cases state <;> decide

/-- An object with the members of a metric. -/
theorem validMetric_of_valid {m : MetricValue} (h : MetricValue.Valid m) {v : JsValue}
    (hstate : v.get? (js "state") = some (.string m.state.name))
    (hvalue : v.get? (js "value") = some ((m.value.map JsValue.number).getD .null)) :
    validMetric (some v) = true := by
  unfold validMetric
  simp only [Option.bind_some, hstate, hvalue, isState_name, isReady_name, Bool.true_and,
    decide_eq_true_eq]
  rw [MetricValue.Valid] at h
  split_ifs at h ⊢
  · obtain ⟨x, hx, hpos⟩ := h
    simp [hx, JsValue.number?, hpos]
  · simp [h, JsValue.isNull]

theorem get?_metric (m : MetricValue) :
    (JsValue.object (metricMembers m)).get? (js "state") = some (.string m.state.name) ∧
      (JsValue.object (metricMembers m)).get? (js "value") =
        some ((m.value.map JsValue.number).getD .null) := by
  have hnodup : ((metricMembers m).map Prod.fst).Nodup := metricNames_nodup.of_cons
  constructor
  · exact JsValue.get?_of_mem hnodup List.mem_cons_self
  · exact JsValue.get?_of_mem hnodup (List.mem_cons_of_mem _ List.mem_cons_self)

theorem get?_point (p : MonitoringPoint) :
    (pointValue p).get? (js "time") = some (.number p.time) ∧
      (pointValue p).get? (js "state") = some (.string p.state.name) ∧
      (pointValue p).get? (js "value") = some ((p.value.map JsValue.number).getD .null) := by
  have hnodup : (((js "time", JsValue.number p.time) :: metricMembers p.toMetricValue).map
      Prod.fst).Nodup := metricNames_nodup
  refine ⟨?_, ?_, ?_⟩
  · exact JsValue.get?_of_mem hnodup List.mem_cons_self
  · exact JsValue.get?_of_mem hnodup (List.mem_cons_of_mem _ List.mem_cons_self)
  · exact JsValue.get?_of_mem hnodup
      (List.mem_cons_of_mem _ (List.mem_cons_of_mem _ List.mem_cons_self))

/-- Points in order, within the interval and with valid metrics. -/
structure GoodPoints (start stop : ℚ) (points : List MonitoringPoint) : Prop where
  ordered : (points.map (fun p => p.time)).Pairwise (· < ·)
  within : ∀ p ∈ points, start ≤ p.time ∧ p.time ≤ stop
  valid : ∀ p ∈ points, MetricValue.Valid p.toMetricValue

theorem GoodPoints.tail {start stop : ℚ} {p : MonitoringPoint} {points : List MonitoringPoint}
    (h : GoodPoints start stop (p :: points)) : GoodPoints start stop points := by
  constructor
  · exact h.ordered.of_cons
  · exact fun q hq => h.within q (List.mem_cons_of_mem _ hq)
  · exact fun q hq => h.valid q (List.mem_cons_of_mem _ hq)

/-- **Good points pass the check of the reader.** -/
theorem validPoints_of_good {start stop : ℚ} {previous : Option ℚ}
    {points : List MonitoringPoint} (h : GoodPoints start stop points)
    (hprevious : ∀ t ∈ previous, ∀ p ∈ points, t < p.time) :
    validPoints start stop previous (points.map pointValue) = true := by
  induction points generalizing previous with
  | nil => rfl
  | cons p points ih =>
      obtain ⟨htime, hstate, hvalue⟩ := get?_point p
      obtain ⟨hstart, hstop⟩ := h.within p List.mem_cons_self
      have hmetric : validMetric (some (pointValue p)) = true :=
        validMetric_of_valid (h.valid p List.mem_cons_self) hstate hvalue
      have hbefore : ∀ t ∈ previous, t < p.time := fun t ht => hprevious t ht p List.mem_cons_self
      have hrest : validPoints start stop (some p.time) (points.map pointValue) = true := by
        refine ih h.tail ?_
        intro t ht q hq
        obtain rfl := Option.some.inj ht
        exact List.rel_of_pairwise_cons h.ordered (List.mem_map_of_mem hq)
      rw [List.map_cons, validPoints, htime]
      simp only [JsValue.number?, hmetric, hrest, hstart, hstop, decide_true, Bool.true_and,
        Bool.and_true, decide_eq_true_eq]
      exact hbefore

/-! ## Reading series -/

theorem seriesNames_nodup : [js "label", js "state", js "points"].Nodup := by
  decide

theorem get?_series (s : MonitoringSeries) :
    (seriesValue s).get? (js "label") = some (.string s.label) ∧
      (seriesValue s).get? (js "state") = some (.string s.state.name) ∧
      (seriesValue s).get? (js "points") = some (.array (s.points.map pointValue)) := by
  refine ⟨?_, ?_, ?_⟩
  · exact JsValue.get?_of_mem seriesNames_nodup List.mem_cons_self
  · exact JsValue.get?_of_mem seriesNames_nodup (List.mem_cons_of_mem _ List.mem_cons_self)
  · exact JsValue.get?_of_mem seriesNames_nodup
      (List.mem_cons_of_mem _ (List.mem_cons_of_mem _ List.mem_cons_self))

/-- **A series is accepted if it is not too long.** -/
theorem validSeries_eq {start stop : ℚ} {s : MonitoringSeries}
    (h : GoodPoints start stop s.points) :
    validSeries start stop (seriesValue s) = decide (s.points.length ≤ 721) := by
  obtain ⟨-, hstate, hpoints⟩ := get?_series s
  have hvalid : validPoints start stop none (s.points.map pointValue) = true :=
    validPoints_of_good h (fun t ht => (nomatch ht))
  simp only [validSeries, hstate, hpoints, isState_name, hvalid, List.length_map, Bool.true_and,
    Bool.and_true]

theorem hasLabel_seriesValue (label : JsString) (s : MonitoringSeries) :
    hasLabel label (seriesValue s) = (s.label == label) := by
  rw [hasLabel, (get?_series s).1]
  rfl

/-- The labels of some series, each of them once. -/
theorem filter_hasLabel {series : List MonitoringSeries}
    (hnodup : (series.map (fun s => s.label)).Nodup) {label : JsString}
    (hmem : label ∈ series.map (fun s => s.label)) :
    ((series.map seriesValue).filter (hasLabel label)).length = 1 := by
  rw [← List.countP_eq_length_filter, List.countP_map]
  have hcount : (series.map (fun s => s.label)).count label = 1 :=
    List.count_eq_one_of_mem hnodup hmem
  rw [List.count, List.countP_map] at hcount
  refine Eq.trans (List.countP_congr ?_) hcount
  intro s _
  simp only [Function.comp, hasLabel_seriesValue]

/-- The lists of a history, one after the other. -/
theorem readHistory_cons {start stop : ℚ} {history : JsValue} {key : JsString}
    {series : List MonitoringSeries} {rest : List (JsString × List JsString)}
    (hseries : history.get? key = some (.array (series.map seriesValue)))
    (hnodup : (series.map (fun s => s.label)).Nodup)
    (hgood : ∀ s ∈ series, GoodPoints start stop s.points) :
    (readHistory start stop (some history) ((key, series.map (fun s => s.label)) :: rest)).isOk =
      (series.all (fun s => decide (s.points.length ≤ 721)) &&
        (readHistory start stop (some history) rest).isOk) := by
  have hnull : (series.map seriesValue).any JsValue.isNull = false := by
    rw [List.any_eq_false]
    intro v hv
    obtain ⟨s, -, rfl⟩ := List.mem_map.mp hv
    exact Bool.false_ne_true
  have hlabels : (series.map (fun s => s.label)).all
      (fun label => ((series.map seriesValue).filter (hasLabel label)).length == 1) = true := by
    rw [List.all_eq_true]
    intro label hlabel
    rw [filter_hasLabel hnodup hlabel]
    rfl
  have hvalid : (series.map seriesValue).all (validSeries start stop) =
      series.all (fun s => decide (s.points.length ≤ 721)) := by
    rw [List.all_map, Bool.eq_iff_iff, List.all_eq_true, List.all_eq_true]
    refine forall₂_congr fun s hs => ?_
    rw [Function.comp, validSeries_eq (hgood s hs)]
  rw [readHistory]
  simp only [Option.bind_some, hseries, List.length_map, hnull, hlabels, hvalid]
  cases hall : series.all (fun s => decide (s.points.length ≤ 721)) with
  | true => simp
  | false => simp [Except.isOk, Except.toBool]

/-! ## Reading a report -/

theorem reportNames_nodup : [js "range", js "start", js "end", js "step", js "checkedAt",
    js "partial", js "instant", js "history"].Nodup := by
  decide

theorem instantKeys_nodup : instantKeys.Nodup := by
  decide

/-- The metrics of an instant are accepted. -/
theorem validMetric_instant {i : MonitoringInstant}
    (h : ∀ m ∈ instantMembers i, MetricValue.Valid m.2) :
    instantKeys.all (fun key => validMetric ((JsValue.object ((instantMembers i).map
      (fun m => (m.1, .object (metricMembers m.2))))).get? key)) = true := by
  have hnames : ((instantMembers i).map
      (fun m => (m.1, JsValue.object (metricMembers m.2)))).map Prod.fst = instantKeys := rfl
  have hnodup := hnames ▸ instantKeys_nodup
  rw [List.all_eq_true]
  intro key hkey
  rw [← hnames] at hkey
  obtain ⟨⟨k, v⟩, hmem, rfl⟩ := List.mem_map.mp hkey
  rw [JsValue.get?_of_mem hnodup hmem]
  obtain ⟨m, hm, hmv⟩ := List.mem_map.mp hmem
  obtain ⟨-, rfl⟩ := Prod.mk.inj hmv
  obtain ⟨hstate, hvalue⟩ := get?_metric m.2
  exact validMetric_of_valid (h m hm) hstate hvalue

/-- What every report is. -/
structure GoodReport (report : MonitoringReport) : Prop where
  step : report.step = report.range.step
  seconds : report.stop - report.start = report.range.seconds
  instant : ∀ m ∈ instantMembers report.instant, MetricValue.Valid m.2
  attempts : report.history.attempts.map (fun s => s.label) = [js "success", js "failure"]
  duration : report.history.duration.map (fun s => s.label) = [js "p50", js "p95", js "p99"]
  points : ∀ s ∈ report.history.attempts ++ report.history.duration,
    GoodPoints report.start report.stop s.points

theorem get?_report (report : MonitoringReport) {name : JsString} {v : JsValue} (i : ℕ)
    (h : (reportMembers report)[i]? = some (name, v)) :
    (reportValue report).get? name = some v :=
  JsValue.get?_of_mem reportNames_nodup (List.mem_of_getElem? h)

theorem historyNames_nodup (history : MonitoringHistory) :
    ((historyMembers history).map Prod.fst).Nodup := by
  change [js "attempts", js "duration"].Nodup
  decide

/-- The history of a good report. -/
theorem readHistory_report {report : MonitoringReport} (h : GoodReport report) :
    (readHistory report.start report.stop (some (.object (historyMembers report.history)))
      historyLabels).isOk = true ↔
      ∀ s ∈ report.history.attempts ++ report.history.duration, s.points.length ≤ 721 := by
  have hattempts : (report.history.attempts.map (fun s => s.label)).Nodup := by
    rw [h.attempts]
    decide
  have hduration : (report.history.duration.map (fun s => s.label)).Nodup := by
    rw [h.duration]
    decide
  have hnodup := historyNames_nodup report.history
  have hfirst := JsValue.get?_of_mem hnodup List.mem_cons_self
  have hsecond := JsValue.get?_of_mem hnodup (List.mem_cons_of_mem _ List.mem_cons_self)
  have hlabels : historyLabels =
      [(js "attempts", report.history.attempts.map (fun s => s.label)),
        (js "duration", report.history.duration.map (fun s => s.label))] := by
    rw [h.attempts, h.duration, historyLabels]
  rw [hlabels,
    readHistory_cons hfirst hattempts (fun s hs => h.points s (List.mem_append_left _ hs)),
    readHistory_cons hsecond hduration (fun s hs => h.points s (List.mem_append_right _ hs)),
    Bool.and_eq_true, Bool.and_eq_true, List.all_eq_true, List.all_eq_true,
    List.forall_mem_append]
  simp [readHistory, Except.isOk, Except.toBool]

/-- **A good report is read back if none of its series is too long.** -/
theorem readMonitoringReport_iff {report : MonitoringReport} (h : GoodReport report) :
    readMonitoringReport (reportValue report) report.range = .ok (reportValue report) ↔
      ∀ s ∈ report.history.attempts ++ report.history.duration, s.points.length ≤ 721 := by
  rw [← readHistory_report h]
  have hrange : JsValue.isString report.range.name (some (.string report.range.name)) = true :=
    beq_self_eq_true _
  unfold readMonitoringReport
  simp only [get?_report report 0 rfl, get?_report report 1 rfl, get?_report report 2 rfl,
    get?_report report 3 rfl, get?_report report 4 rfl, get?_report report 5 rfl,
    get?_report report 6 rfl, get?_report report 7 rfl, JsValue.number?, hrange, h.step,
    h.seconds, validMetric_instant h.instant]
  cases readHistory report.start report.stop (some (.object (historyMembers report.history)))
      historyLabels with
  | ok _ => simp [Except.isOk, Except.toBool]
  | error _ => simp [Except.isOk, Except.toBool]

/-! ## The size of a report -/

/-- Items that are bounded. -/
theorem size_array_le {items : List JsValue} {bound : ℕ}
    (h : ∀ v ∈ items, v.json.size ≤ bound) :
    (JsValue.array items).json.size ≤ (bound + 1) * items.length + 2 := by
  have hsum : ((items.map JsValue.json).map itemSize).sum ≤
      ((items.map JsValue.json).map itemSize).length • (bound + 1) := by
    refine List.sum_le_card_nsmul _ _ ?_
    intro x hx
    obtain ⟨j, hj, rfl⟩ := List.mem_map.mp hx
    obtain ⟨v, hv, rfl⟩ := List.mem_map.mp hj
    exact Nat.succ_le_succ (h v hv)
  rw [List.length_map, List.length_map, smul_eq_mul, mul_comm] at hsum
  rw [JsValue.json, JsValue.jsonItems_eq]
  cases items with
  | nil =>
      rw [List.map_nil]
      have hempty : (arr []).size = 2 := by decide
      omega
  | cons v items =>
      rw [size_arr (by simp)]
      omega

theorem size_object {members : List (JsString × JsValue)} (h : members ≠ []) :
    (JsValue.object members).json.size =
      (members.map (fun m => (Json.str m.1).size + 1 + m.2.json.size + 1)).sum + 1 := by
  rw [JsValue.json, JsValue.jsonMembers_eq, size_members (by simpa using h), List.map_map]
  rfl

theorem size_state_le (state : MetricState) : (Json.str state.name).size ≤ 13 := by
  cases state <;> decide

theorem size_value_le (value : Option ℚ) :
    ((value.map JsValue.number).getD .null).json.size ≤ 25 := by
  cases value with
  | none => decide
  | some x => exact size_ofNumber_le x

/-- The bytes of the members of a metric. -/
theorem size_metricMembers_le (m : MetricValue) :
    ((metricMembers m).map (fun m => (Json.str m.1).size + 1 + m.2.json.size + 1)).sum ≤ 56 := by
  have hstate := size_state_le m.state
  have hvalue := size_value_le m.value
  have hnames : (Json.str (js "state")).size = 7 ∧ (Json.str (js "value")).size = 7 := by
    decide
  simp only [metricMembers, List.map_cons, List.map_nil, List.sum_cons, List.sum_nil, hnames,
    JsValue.json]
  omega

theorem size_pointValue_le (p : MonitoringPoint) : (pointValue p).json.size ≤ 90 := by
  have hmetric := size_metricMembers_le p.toMetricValue
  have htime := size_ofNumber_le p.time
  have hname : (Json.str (js "time")).size = 6 := by decide
  rw [pointValue, size_object (by simp), List.map_cons, List.sum_cons, hname, JsValue.json]
  omega

/-- The size of a series is bounded by its number of points. -/
theorem size_seriesValue_le (s : MonitoringSeries) :
    (seriesValue s).json.size ≤ 44 + (Json.str s.label).size + 91 * s.points.length := by
  have hstate := size_state_le s.state
  have hpoints : (JsValue.array (s.points.map pointValue)).json.size ≤
      (90 + 1) * (s.points.map pointValue).length + 2 := by
    refine size_array_le ?_
    intro v hv
    obtain ⟨p, -, rfl⟩ := List.mem_map.mp hv
    exact size_pointValue_le p
  rw [List.length_map] at hpoints
  have hnames : (Json.str (js "label")).size = 7 ∧ (Json.str (js "state")).size = 7 ∧
      (Json.str (js "points")).size = 8 := by
    decide
  rw [seriesValue, size_object (by simp)]
  simp only [List.map_cons, List.map_nil, List.sum_cons, List.sum_nil, hnames]
  have hlabel : (JsValue.string s.label).json.size = (Json.str s.label).size := rfl
  have hname : (JsValue.string s.state.name).json.size = (Json.str s.state.name).size := rfl
  omega

/-- The points of some series. -/
def pointCount (series : List MonitoringSeries) : ℕ :=
  (series.map (fun s => s.points.length)).sum

/-- The size of several series is bounded by the number of all their points. -/
theorem size_series_le (series : List MonitoringSeries)
    (h : ∀ s ∈ series, (Json.str s.label).size ≤ 9) :
    (JsValue.array (series.map seriesValue)).json.size ≤
      54 * series.length + 91 * pointCount series + 2 := by
  have hsum : (((series.map seriesValue).map JsValue.json).map itemSize).sum ≤
      54 * series.length + 91 * pointCount series := by
    induction series with
    | nil => exact Nat.zero_le _
    | cons s series ih =>
        have hrest := ih (fun t ht => h t (List.mem_cons_of_mem _ ht))
        have hlabel := h s List.mem_cons_self
        have hthis := size_seriesValue_le s
        simp only [List.map_cons, List.sum_cons, List.length_cons, itemSize, pointCount]
          at hrest ⊢
        omega
  rw [JsValue.json, JsValue.jsonItems_eq]
  cases series with
  | nil => decide
  | cons s series =>
      rw [size_arr (by simp)]
      omega

theorem size_instant_le (i : MonitoringInstant) :
    (JsValue.object ((instantMembers i).map
      (fun m => (m.1, .object (metricMembers m.2))))).json.size ≤ 900 := by
  have hkeys : ∀ key ∈ instantKeys, (Json.str key).size ≤ 14 := by decide
  rw [size_object (by simp [instantMembers]), List.map_map]
  have hsum := List.sum_le_card_nsmul ((instantMembers i).map
    ((fun m => (Json.str m.1).size + 1 + m.2.json.size + 1) ∘
      (fun m => (m.1, JsValue.object (metricMembers m.2))))) 74 ?_
  · rw [List.length_map, smul_eq_mul] at hsum
    have hlength : (instantMembers i).length = 11 := rfl
    omega
  · intro x hx
    obtain ⟨m, hm, rfl⟩ := List.mem_map.mp hx
    have hkey : m.1 ∈ instantKeys := List.mem_map_of_mem (f := Prod.fst) hm
    have hsize := hkeys m.1 hkey
    have hmetric := size_metricMembers_le m.2
    simp only [Function.comp, size_object (show metricMembers m.2 ≠ [] from List.cons_ne_nil _ _)]
    omega

/-- **A report is as large as it has points**, up to a constant. -/
theorem size_report_le {report : MonitoringReport} (h : GoodReport report) :
    (reportValue report).json.size ≤
      2000 + 91 * pointCount (report.history.attempts ++ report.history.duration) := by
  have hlabels : ∀ label ∈ [js "success", js "failure", js "p50", js "p95", js "p99"],
      (Json.str label).size ≤ 9 := by
    decide
  have hattempts := size_series_le report.history.attempts (fun s hs => by
    have hmem : s.label ∈ [js "success", js "failure"] := h.attempts ▸ List.mem_map_of_mem hs
    exact hlabels _ (List.mem_append_left _ hmem))
  have hduration := size_series_le report.history.duration (fun s hs => by
    have hmem : s.label ∈ [js "p50", js "p95", js "p99"] := h.duration ▸ List.mem_map_of_mem hs
    exact hlabels _ (List.mem_append_right [js "success", js "failure"] hmem))
  have htwo : report.history.attempts.length = 2 := by
    simpa using congrArg List.length h.attempts
  have hthree : report.history.duration.length = 3 := by
    simpa using congrArg List.length h.duration
  have hcount : pointCount (report.history.attempts ++ report.history.duration) =
      pointCount report.history.attempts + pointCount report.history.duration := by
    simp only [pointCount, List.map_append, List.sum_append]
  have hinstant := size_instant_le report.instant
  have hstart := size_ofNumber_le report.start
  have hstop := size_ofNumber_le report.stop
  have hstep := size_ofNumber_le report.step
  have hchecked := size_ofNumber_le report.checkedAt
  have hrange : (Json.str report.range.name).size ≤ 5 := by
    cases report.range <;> decide
  have hpartial : (Json.bool report.isPartial).size ≤ 5 := by
    cases report.isPartial <;> decide
  -- the members' names, with their quotes
  have hnames : (Json.str (js "attempts")).size = 10 ∧ (Json.str (js "duration")).size = 10 ∧
      (Json.str (js "range")).size = 7 ∧ (Json.str (js "start")).size = 7 ∧
      (Json.str (js "end")).size = 5 ∧ (Json.str (js "step")).size = 6 ∧
      (Json.str (js "checkedAt")).size = 11 ∧ (Json.str (js "partial")).size = 9 ∧
      (Json.str (js "instant")).size = 9 ∧ (Json.str (js "history")).size = 9 := by
    decide
  have hhistory : (JsValue.object (historyMembers report.history)).json.size ≤
      400 + 91 * pointCount (report.history.attempts ++ report.history.duration) := by
    rw [size_object (by simp [historyMembers])]
    simp only [historyMembers, List.map_cons, List.map_nil, List.sum_cons, List.sum_nil, hnames]
    omega
  rw [reportValue, size_object (by simp [reportMembers])]
  simp only [reportMembers, List.map_cons, List.map_nil, List.sum_cons, List.sum_nil, hnames]
  simp only [JsValue.json] at hinstant hhistory ⊢
  omega

/-! ## Snapshots -/

/-- The history series of a report: a query, and the outcome of its rows. -/
def historySeries : List (QueryKey × Option JsString) :=
  [(.attempts, some (js "success")), (.attempts, some (js "failure")), (.p50, none), (.p95, none),
    (.p99, none)]

theorem time_pointAt (history : QueryKey → Query) (rows : List Series) (time : ℚ) :
    (pointAt history rows time).time = time := by
  unfold pointAt
  simp only
  split_ifs
  · rfl
  · rfl

/-- A history series has a point for each time of its rows. -/
theorem length_historical (history : QueryKey → Query) (key : QueryKey) (label : JsString)
    (outcome : Option JsString) :
    (historical history key label outcome).points.length =
      (sampleTimes (rowsOf outcome (history key).series)).card := by
  unfold historical
  cases history key with
  | failed =>
      cases outcome with
      | none => rfl
      | some outcome => rfl
  | ok series => rw [List.length_map, length_timesOf, Query.series]

/-- **The points of a history series are good**: in order, in the interval, and valid. -/
theorem goodPoints_historical {start stop : ℚ} {history : QueryKey → Query} {key : QueryKey}
    (hwithin : ∀ series, history key = .ok series → ∀ s ∈ series, Within start stop s.values)
    (label : JsString) (outcome : Option JsString) :
    GoodPoints start stop (historical history key label outcome).points := by
  unfold historical
  cases hkey : history key with
  | failed => exact ⟨List.Pairwise.nil, nofun, nofun⟩
  | ok series =>
      have hrows : ∀ s ∈ rowsOf outcome series, s ∈ series := by
        intro s hs
        cases outcome with
        | none => exact hs
        | some outcome => exact List.mem_of_mem_filter hs
      simp only
      constructor
      · rw [List.map_map]
        have hid : ((fun p : MonitoringPoint => p.time) ∘ pointAt history (rowsOf outcome series)) =
            id := funext fun time => time_pointAt _ _ time
        rw [hid, List.map_id]
        exact pairwise_timesOf _
      · intro p hp
        obtain ⟨time, htime, rfl⟩ := List.mem_map.mp hp
        obtain ⟨s, hs, v, hv, rfl⟩ := mem_timesOf.mp htime
        rw [time_pointAt]
        exact hwithin series hkey s (hrows s hs) v hv
      · intro p hp
        obtain ⟨time, -, rfl⟩ := List.mem_map.mp hp
        exact valid_pointAt _ _ _

theorem label_historical (history : QueryKey → Query) (key : QueryKey) (label : JsString)
    (outcome : Option JsString) : (historical history key label outcome).label = label := by
  unfold historical
  cases history key with
  | failed => rfl
  | ok series => rfl

section

variable {localeCompare : JsString → JsString → Ordering} {range : MonitoringRange} {clock : ℚ}
  {answers : Answers} {report : MonitoringReport}

/-- What a successful snapshot reports. -/
theorem snapshot_eq (h : snapshot localeCompare range clock answers = .ok report) :
    report.range = range ∧ report.start = startOf range clock ∧
      report.stop = stopOf range clock ∧ report.step = range.step ∧
      report.checkedAt = checkedAt clock ∧
      report.instant = instantOf (currentQueries localeCompare clock answers) (checkedAt clock) ∧
      report.history = historyOf (historyQueries localeCompare range clock answers) := by
  unfold snapshot at h
  simp only at h
  split_ifs at h
  obtain rfl := Except.ok.inj h
  exact ⟨rfl, rfl, rfl, rfl, rfl, rfl, rfl⟩

/-- **Every report of a snapshot is good.** -/
theorem goodReport_of_snapshot (h : snapshot localeCompare range clock answers = .ok report) :
    GoodReport report := by
  obtain ⟨hrange, hstart, hstop, hstep, -, hinstant, hhistory⟩ := snapshot_eq h
  have hwithin : ∀ key series, historyQueries localeCompare range clock answers key = .ok series →
      ∀ s ∈ series, Within (startOf range clock) (stopOf range clock) s.values :=
    fun key series hseries => within_of_query hseries
  constructor
  · rw [hstep, hrange]
  · rw [hstart, hstop, hrange, startOf, sub_sub_cancel]
  · rw [hinstant]
    intro m hm
    simp only [instantOf, instantMembers, List.mem_cons, List.not_mem_nil, or_false] at hm
    rcases hm with rfl | rfl | rfl | rfl | rfl | rfl | rfl | rfl | rfl | rfl | rfl
    all_goals exact valid_readMetric _ _ _ _
  · rw [hhistory, historyOf, List.map_cons, List.map_cons, label_historical, label_historical]
    rfl
  · rw [hhistory, historyOf, List.map_cons, List.map_cons, List.map_cons, label_historical,
      label_historical, label_historical]
    rfl
  · rw [hhistory, hstart, hstop]
    intro s hs
    simp only [historyOf, List.cons_append, List.nil_append, List.mem_cons, List.not_mem_nil,
      or_false] at hs
    rcases hs with rfl | rfl | rfl | rfl | rfl
    all_goals exact goodPoints_historical (hwithin _) _ _

/-- **When a report is read back.**  A response with a report is accepted, and its history is in
order and in its interval, exactly if the rows of each history series have samples at `721` times
at most. -/
theorem report_read_iff (h : snapshot localeCompare range clock answers = .ok report)
    {body : JsValue} (hbody : respond report = .ok body) :
    (readMonitoringReport body range = .ok body ∧
      ∀ s ∈ report.history.attempts ++ report.history.duration,
        (s.points.map (fun p => p.time)).Pairwise (· < ·) ∧
          ∀ p ∈ s.points, report.start ≤ p.time ∧ p.time ≤ report.stop) ↔
      ∀ k ∈ historySeries, (sampleTimes (rowsOf k.2
        (historyQueries localeCompare range clock answers k.1).series)).card ≤ 721 := by
  have hgood := goodReport_of_snapshot h
  have hordered : ∀ s ∈ report.history.attempts ++ report.history.duration,
      (s.points.map (fun p => p.time)).Pairwise (· < ·) ∧
        ∀ p ∈ s.points, report.start ≤ p.time ∧ p.time ≤ report.stop :=
    fun s hs => ⟨(hgood.points s hs).ordered, (hgood.points s hs).within⟩
  obtain ⟨hrange, -, -, -, -, -, hhistory⟩ := snapshot_eq h
  -- a response is sent only if it fits, and then it is the report
  have hvalue : body = reportValue report := by
    unfold respond at hbody
    split_ifs at hbody
    exact (Except.ok.inj hbody).symm
  rw [hvalue, ← hrange, readMonitoringReport_iff hgood, and_iff_left hordered, hrange, hhistory]
  simp [historyOf, historySeries, length_historical]

end

/-! ## Rows that are not aligned -/

namespace Sample

/-- The order of the texts unit by unit. -/
def localeCompare (a b : JsString) : Ordering := compareOfLessAndEq a b

/-- An answer of Prometheus. -/
def answer (resultType : JsString) (result : List Json) : Json :=
  .obj [(js "status", .str (js "success")),
    (js "data", .obj [(js "resultType", .str resultType), (js "result", .arr result)])]

/-- A sample of the value `1`. -/
def rawSample (time : ℕ) : Json := .arr [.ofNumber time, .str (js "1")]

/-- A series of such samples. -/
def rawSeries (labels : List (JsString × Json)) (times : List ℕ) : Json :=
  .obj [(js "metric", .obj labels), (js "values", .arr (times.map rawSample))]

/-- The seconds at which the first instance is sampled. -/
def evenTimes : List ℕ := (List.range 361).map (fun k => 2 * k)

/-- The seconds at which the second instance is sampled. -/
def oddTimes (n : ℕ) : List ℕ := (List.range n).map (fun k => 2 * k + 1)

/-- No history is answered. -/
def quiet : Answers :=
  { current := fun key => if key = .up then some (answer (resultType false) []) else none
    history := fun _ => none }

/-- The series of the two instances. -/
def rawRows (n : ℕ) : List Json :=
  [rawSeries [] evenTimes, rawSeries [(js "instance", .str (js "a"))] (oddTimes n)]

/-- Two instances are sampled one second apart from each other, `361` times and `n` times. -/
def shifted (n : ℕ) : Answers :=
  { quiet with
    history := fun key =>
      if key = .p50 then some (answer (resultType true) (rawRows n)) else none }

/-- What is accepted of the samples. -/
def samples (times : List ℕ) : List (ℚ × JsString) := times.map (fun t : ℕ => ((t : ℚ), js "1"))

/-- What is accepted of the two instances. -/
def rows (n : ℕ) : List Series :=
  [{ metric := [], values := samples evenTimes },
    { metric := [(js "instance", js "a")], values := samples (oddTimes n) }]

/-- Samples in order and in the interval are accepted. -/
theorem parseSamples_raw {start stop : ℚ} {times : List ℕ} (hsorted : times.Pairwise (· < ·))
    (hwithin : ∀ t ∈ times, start ≤ t ∧ (t : ℚ) ≤ stop ∧ t < 2 ^ 53) {previous : Option ℚ}
    (hprevious : ∀ p ∈ previous, ∀ t ∈ times, p < t) :
    parseSamples start stop previous (times.map rawSample) = some (samples times) := by
  induction times generalizing previous with
  | nil => rfl
  | cons t times ih =>
      obtain ⟨hstart, hstop, hsmall⟩ := hwithin t List.mem_cons_self
      have hnumber : (Json.ofNumber (t : ℚ)).number? = some (t : ℚ) := by
        have habs : |(t : ℤ)| < 2 ^ 53 := by
          rw [Nat.abs_cast]
          exact_mod_cast hsmall
        exact_mod_cast number?_ofNumber habs
      have htext : isSampleText (js "1") = true := by decide
      have hbefore : ∀ p ∈ previous, p < t := fun p hp => hprevious p hp t List.mem_cons_self
      have hsample : parseSample start stop previous (rawSample t) = some ((t : ℚ), js "1") := by
        simp only [parseSample, rawSample, hnumber]
        rw [if_pos ⟨hstart, hstop, hbefore, htext⟩]
      have hrest : parseSamples start stop (some (t : ℚ)) (times.map rawSample) =
          some (samples times) := by
        refine ih hsorted.of_cons (fun u hu => hwithin u (List.mem_cons_of_mem _ hu)) ?_
        intro p hp u hu
        obtain rfl := Option.some.inj hp
        exact_mod_cast List.rel_of_pairwise_cons hsorted hu
      rw [List.map_cons, parseSamples, hsample]
      simp only [hrest, Option.map_some, samples, List.map_cons]

theorem bounds : startOf .oneDay 86400000 = 0 ∧ stopOf .oneDay 86400000 = 86400 := by
  decide +kernel

theorem parseSamples_even :
    parseSamples 0 86400 none (evenTimes.map rawSample) = some (samples evenTimes) := by
  refine parseSamples_raw ?_ ?_ (fun p hp => (nomatch hp))
  · rw [evenTimes, List.pairwise_map]
    exact List.pairwise_lt_range.imp (fun {a b} h => by omega)
  · intro t ht
    obtain ⟨k, hk, rfl⟩ := List.mem_map.mp ht
    rw [List.mem_range] at hk
    refine ⟨by positivity, ?_, by omega⟩
    have hle : 2 * k ≤ 86400 := by omega
    exact_mod_cast hle

theorem parseSamples_odd {n : ℕ} (hn : n ≤ 361) :
    parseSamples 0 86400 none ((oddTimes n).map rawSample) = some (samples (oddTimes n)) := by
  refine parseSamples_raw ?_ ?_ (fun p hp => (nomatch hp))
  · rw [oddTimes, List.pairwise_map]
    exact List.pairwise_lt_range.imp (fun {a b} h => by omega)
  · intro t ht
    obtain ⟨k, hk, rfl⟩ := List.mem_map.mp ht
    rw [List.mem_range] at hk
    refine ⟨by positivity, ?_, by omega⟩
    have hle : 2 * k + 1 ≤ 86400 := by omega
    exact_mod_cast hle

/-- An answer is read series by series. -/
theorem parseQuery_answer {range : Bool} {start stop : ℚ} {result : List Json}
    (h : result.length ≤ maxSeries) :
    parseQuery localeCompare (answer (resultType range) result) range start stop =
      parseAllSeries localeCompare range start stop [] result := by
  have hdata : (answer (resultType range) result).get? (js "data") =
      some (.obj [(js "resultType", .str (resultType range)), (js "result", .arr result)]) := rfl
  have hstatus : (answer (resultType range) result).get? (js "status") =
      some (.str (js "success")) := rfl
  have hwarnings : (answer (resultType range) result).get? (js "warnings") = none := rfl
  have hinfos : (answer (resultType range) result).get? (js "infos") = none := rfl
  have htype : (Json.obj [(js "resultType", .str (resultType range)),
      (js "result", .arr result)]).get? (js "resultType") = some (.str (resultType range)) := rfl
  have hresult : (Json.obj [(js "resultType", .str (resultType range)),
      (js "result", .arr result)]).get? (js "result") = some (.arr result) := rfl
  simp only [parseQuery, hdata, hstatus, hwarnings, hinfos, Option.getD_some, htype, hresult,
    Option.bind_some, Json.str?, items?, Option.isNone_none, and_self, if_true, if_pos h]

theorem parseSeries_raw {labels : List (JsString × Json)} {metric : List (JsString × JsString)}
    (hlabels : parseLabels (.obj labels) = some metric) {times : List ℕ}
    (hlength : times.length ≤ maxPoints)
    (htimes : parseSamples 0 86400 none (times.map rawSample) = some (samples times)) :
    parseSeries localeCompare true 0 86400 (rawSeries labels times) =
      some (labelKey localeCompare metric, { metric := metric, values := samples times }) := by
  have hmetric : (rawSeries labels times).get? (js "metric") = some (.obj labels) := rfl
  have hvalues : sampleValues true (rawSeries labels times) = some (times.map rawSample) := rfl
  have hfits : (times.map rawSample).length ≤ maxValues true := by
    rw [List.length_map]
    exact hlength
  simp only [parseSeries, hmetric, Option.bind_some, hlabels, hvalues, if_pos hfits, htimes,
    Option.map_some]

/-- The series of the two instances are accepted. -/
theorem parseAllSeries_raw {n : ℕ} (hn : n ≤ 361) :
    parseAllSeries localeCompare true 0 86400 [] (rawRows n) = some (rows n) := by
  have hempty : parseLabels (.obj []) = some [] := by decide +kernel
  have hone : parseLabels (.obj [(js "instance", .str (js "a"))]) =
      some [(js "instance", js "a")] := by
    decide +kernel
  have heven : evenTimes.length ≤ maxPoints := by simp [evenTimes, maxPoints]
  have hodd : (oddTimes n).length ≤ maxPoints := by
    rw [oddTimes, List.length_map, List.length_range]
    exact le_trans hn (by decide)
  have hkeys : ([labelKey localeCompare []].contains
      (labelKey localeCompare [(js "instance", js "a")])) = false := by
    decide +kernel
  have hnone : ([] : List JsString).contains (labelKey localeCompare []) = false := rfl
  rw [rawRows, parseAllSeries, parseSeries_raw hempty heven parseSamples_even]
  simp only [hnone, Bool.false_eq_true, if_false]
  rw [parseAllSeries, parseSeries_raw hone hodd (parseSamples_odd hn)]
  simp only [hkeys, Bool.false_eq_true, if_false]
  rw [parseAllSeries, Option.map_some, Option.map_some, rows]

/-- The one query that is answered, -/
theorem historyQueries_shifted {n : ℕ} (hn : n ≤ 361) :
    historyQueries localeCompare .oneDay 86400000 (shifted n) .p50 = .ok (rows n) := by
  have hanswer : (shifted n).history .p50 = some (answer (resultType true) (rawRows n)) := by
    simp only [shifted, if_true]
  have hfits : (rawRows n).length ≤ maxSeries := by
    rw [rawRows, List.length_cons, List.length_singleton]
    decide
  have hparse : parseQuery localeCompare (answer (resultType true) (rawRows n)) true 0 86400 =
      some (rows n) := by
    rw [parseQuery_answer hfits, parseAllSeries_raw hn]
  rw [historyQueries, bounds.1, bounds.2, hanswer, query, Option.bind_some, hparse]

/-- and the others. -/
theorem historyQueries_other {n : ℕ} {key : QueryKey} (h : key ≠ .p50) :
    historyQueries localeCompare .oneDay 86400000 (shifted n) key = .failed := by
  have hnone : (shifted n).history key = none := by
    simp only [shifted, if_neg h]
  rw [historyQueries, hnone, query, Option.bind_none]

theorem mem_samples {times : List ℕ} {time : ℚ} :
    (∃ v ∈ samples times, v.1 = time) ↔ ∃ t ∈ times, (t : ℚ) = time := by
  simp only [samples, List.mem_map]
  constructor
  · rintro ⟨v, ⟨t, ht, rfl⟩, rfl⟩
    exact ⟨t, ht, rfl⟩
  · rintro ⟨t, ht, rfl⟩
    exact ⟨_, ⟨t, ht, rfl⟩, rfl⟩

/-- The samples of the rows are all at different times. -/
theorem card_sampleTimes {n : ℕ} (hn : 360 ≤ n ∧ n ≤ 361) :
    (sampleTimes (rows n)).card = 361 + n := by
  have htimes : sampleTimes (rows n) = (Finset.range (361 + n)).image (fun t : ℕ => (t : ℚ)) := by
    ext time
    have hmem : time ∈ sampleTimes (rows n) ↔ ∃ s ∈ rows n, ∃ v ∈ s.values, v.1 = time := by
      simp [sampleTimes]
    rw [hmem, Finset.mem_image]
    simp only [rows, List.mem_cons, List.not_mem_nil, or_false, exists_eq_or_imp, exists_eq_left,
      mem_samples, evenTimes, oddTimes, List.mem_map, List.mem_range, Finset.mem_range,
      exists_exists_and_eq_and]
    constructor
    · rintro (⟨k, hk, rfl⟩ | ⟨k, hk, rfl⟩)
      · exact ⟨2 * k, by omega, rfl⟩
      · exact ⟨2 * k + 1, by omega, rfl⟩
    · rintro ⟨t, ht, rfl⟩
      rcases Nat.even_or_odd' t with ⟨k, rfl | rfl⟩
      · exact .inl ⟨k, by omega, rfl⟩
      · exact .inr ⟨k, by omega, rfl⟩
  rw [htimes, Finset.card_image_of_injective _ Nat.cast_injective, Finset.card_range]

/-- Where nothing is answered there are no samples. -/
theorem card_sampleTimes_nil (outcome : Option JsString) :
    (sampleTimes (rowsOf outcome [])).card = 0 := by
  cases outcome with
  | none => rfl
  | some outcome => rfl

/-- The points of a history with one answer. -/
theorem pointCount_historyOf {history : QueryKey → Query} {series : List Series}
    (hp50 : history .p50 = .ok series) (hother : ∀ key, key ≠ .p50 → history key = .failed) :
    pointCount ((historyOf history).attempts ++ (historyOf history).duration) =
      (sampleTimes series).card := by
  have hattempts := hother .attempts (by decide)
  have hp95 := hother .p95 (by decide)
  have hp99 := hother .p99 (by decide)
  have hall : rowsOf none series = series := rfl
  simp only [historyOf, List.cons_append, List.nil_append, pointCount, List.map_cons,
    List.map_nil, List.sum_cons, List.sum_nil, length_historical, hp50, hattempts, hp95, hp99,
    Query.series, card_sampleTimes_nil, hall, Nat.zero_add, Nat.add_zero]

/-- With one answer a snapshot has a report. -/
theorem exists_report (answers : Answers) (h : answers.current = quiet.current) : ∃ report,
    snapshot localeCompare .oneDay 86400000 answers = .ok report := by
  have hany : queryKeys.any (fun key =>
      (currentQueries localeCompare 86400000 quiet key).isOk) = true := by
    decide
  have hcurrent : currentQueries localeCompare 86400000 answers =
      currentQueries localeCompare 86400000 quiet := by
    funext key
    simp only [currentQueries, h]
  unfold snapshot
  simp only [hcurrent, hany, if_true]
  exact ⟨_, rfl⟩

/-- A report of few points is not too large for a response. -/
theorem respond_of_small {answers : Answers} {report : MonitoringReport}
    (h : snapshot localeCompare .oneDay 86400000 answers = .ok report)
    (hsmall : pointCount (report.history.attempts ++ report.history.duration) ≤ 722) :
    respond report = .ok (reportValue report) := by
  have hsize := size_report_le (goodReport_of_snapshot h)
  rw [respond, if_neg]
  rw [responseBytes]
  omega

/-- The points of the history of the two instances. -/
theorem pointCount_shifted {n : ℕ} (hn : 360 ≤ n ∧ n ≤ 361) {report : MonitoringReport}
    (h : snapshot localeCompare .oneDay 86400000 (shifted n) = .ok report) :
    pointCount (report.history.attempts ++ report.history.duration) = 361 + n := by
  obtain ⟨-, -, -, -, -, -, hhistory⟩ := snapshot_eq h
  rw [hhistory, pointCount_historyOf (historyQueries_shifted hn.2)
    (fun key hkey => historyQueries_other hkey), card_sampleTimes hn]

end Sample

/-- Two rows whose samples are not at the same times make a report that is not read back. -/
theorem report_not_read : ∃ report body,
    snapshot Sample.localeCompare .oneDay 86400000 (Sample.shifted 361) = .ok report ∧
      respond report = .ok body ∧
      readMonitoringReport body .oneDay ≠ .ok body := by
  obtain ⟨report, hreport⟩ := Sample.exists_report (Sample.shifted 361) rfl
  obtain ⟨hrange, -, -, -, -, -, hhistory⟩ := snapshot_eq hreport
  have hcount := Sample.pointCount_shifted (by decide) hreport
  refine ⟨report, reportValue report, hreport, Sample.respond_of_small hreport hcount.le, ?_⟩
  intro hread
  rw [← hrange, readMonitoringReport_iff (goodReport_of_snapshot hreport), hhistory] at hread
  have hmem : historical (historyQueries Sample.localeCompare .oneDay 86400000 (Sample.shifted 361))
      .p50 (js "p50") none ∈
      (historyOf
        (historyQueries Sample.localeCompare .oneDay 86400000 (Sample.shifted 361))).attempts ++
        (historyOf
          (historyQueries Sample.localeCompare .oneDay 86400000 (Sample.shifted 361))).duration :=
    List.mem_append_right _ List.mem_cons_self
  have hlong := hread _ hmem
  rw [length_historical, Sample.historyQueries_shifted le_rfl, Query.series, rowsOf,
    Sample.card_sampleTimes (by decide)] at hlong
  omega

/-- With one sample less the report is read back. -/
theorem report_read_shifted : ∃ report body,
    snapshot Sample.localeCompare .oneDay 86400000 (Sample.shifted 360) = .ok report ∧
      pointCount (report.history.attempts ++ report.history.duration) = 721 ∧
      respond report = .ok body ∧ readMonitoringReport body .oneDay = .ok body := by
  obtain ⟨report, hreport⟩ := Sample.exists_report (Sample.shifted 360) rfl
  have hcount := Sample.pointCount_shifted (by decide) hreport
  have hbody : respond report = .ok (reportValue report) :=
    Sample.respond_of_small hreport (by omega)
  refine ⟨report, reportValue report, hreport, hcount, hbody,
    ((report_read_iff hreport hbody).mpr ?_).1⟩
  intro k hk
  by_cases hkey : k.1 = .p50
  · have hk : k = (.p50, none) := by
      fin_cases hk <;> first | rfl | cases hkey
    subst hk
    rw [Sample.historyQueries_shifted (by decide), Query.series, rowsOf,
      Sample.card_sampleTimes (by decide)]
  · rw [Sample.historyQueries_other hkey, Query.series, Sample.card_sampleTimes_nil]
    exact Nat.zero_le 721

end Monitoring
