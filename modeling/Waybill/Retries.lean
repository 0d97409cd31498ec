/-
# Retries wait

In runs with one handler at a time for an event, its delivery is not attempted again before
the time that the failed attempt left on its row (`retry_not_early`): what a handler has read
is the row as it is, because nobody else writes it, and it goes on only if the clock has
reached the time it read.

The contract is the one of `Exclusive.lean` beside the one of `Schedule.lean`.
-/
import Waybill.Exclusive
import Waybill.Schedule

open Worker Publisher Api Records

/-! ## What a handler knows of the time of its row -/

/-- Every row may be attempted by now. -/
def RowsDue (rows : List Delivery) (clock : ℚ) : Prop :=
  ∀ d ∈ rows, ∀ w, d.nextAttemptAt = some w → w ≤ clock

/-- What a handler that has found a row knows, by what it has read from the clock. -/
def DueTiming (rows : List Delivery) (clock : ℚ) : Timing → Prop
  | .found w => ∀ d ∈ rows, d.nextAttemptAt = some w
  | .due => RowsDue rows clock
  | _ => True

/-- The timing of a handler that has found a row and has not attempted it. -/
def Timing.looked : Timing → Bool
  | .found _ => true
  | .due => true
  | .notDue _ => true
  | .hide .. => true
  | .gone => true
  | _ => false

/-- What a handler of the event knows about the time of its rows. -/
def DueFacts (eventId : JsString) (rows : List Delivery) (clock : ℚ) :
    Phase → Timing → Prop
  | .start _, τ => τ = .early
  | .read .., τ => τ = .early
  | .admitted .., τ => τ = .early
  | .checking .., τ => τ = .early
  | .due _ _ q _, τ => τ.looked = true ∧ (q.eventId = eventId → DueTiming rows clock τ)
  | .upserting _ q _, _ => q.eventId = eventId → RowsDue rows clock
  | .trying _ q d _ _ _, _ => q.eventId = eventId → d.nextAttemptAt = none
  | .buried _ q d, _ => q.eventId = eventId → d.nextAttemptAt = none
  | .accepted _ q d, _ => q.eventId = eventId → d.nextAttemptAt = none
  | _, _ => True

section

variable {env : Env} {eventId : JsString} {w w' : World} {φ : Phase} {τ : Timing} {op : Op}
  {c : Choice} {r : Except JsError op.Res} {rows rows' : List Delivery} {clock clock' : ℚ}

theorem RowsDue.later (h : RowsDue rows clock) (hle : clock ≤ clock') : RowsDue rows clock' :=
  fun d hd t ht => le_trans (h d hd t ht) hle

theorem DueTiming.later (h : DueTiming rows clock τ) (hle : clock ≤ clock') :
    DueTiming rows clock' τ := by
  cases τ with
  | found w => exact h
  | due => exact RowsDue.later h hle
  | _ => exact trivial

/-- Time passes. -/
theorem DueFacts.later (h : DueFacts eventId rows clock φ τ) (hle : clock ≤ clock') :
    DueFacts eventId rows clock' φ τ := by
  cases φ with
  | due m st q e => exact ⟨h.1, fun hq => (h.2 hq).later hle⟩
  | upserting m q found => exact fun hq => (h hq).later hle
  | _ => exact h

/-- The rows of the event are no matter to a handler of another one. -/
theorem DueFacts.other (h : DueFacts eventId rows clock φ τ)
    (hother : ∀ q, φ.owns = some q → q.eventId ≠ eventId) :
    DueFacts eventId rows' clock φ τ := by
  cases φ with
  | due m st q e => exact ⟨h.1, fun hq => absurd hq (hother q rfl)⟩
  | upserting m q found => exact fun hq => absurd hq (hother q rfl)
  | _ => exact h

/-- After the look at the delivery row. -/
theorem dueFacts_afterCheck (hown : OwnInv env eventId w) {m : Message} {st : CircuitState}
    {q : QueueMessage} {existing : Option Delivery}
    (hexec : w.exec (.findDelivery q.eventId env.receiverUrl) c = some (.ok existing, w')) :
    DueFacts eventId (w.rowsFor eventId env.receiverUrl) w.clock (afterCheck m st q existing)
      (afterFind existing) := by
  obtain ⟨-, hsome, hnone⟩ := World.exec_findDelivery hexec
  cases existing with
  | none =>
      refine ⟨rfl, ?_⟩
      rintro rfl d hd
      rw [hnone rfl] at hd
      cases hd
  | some d =>
      simp only [afterCheck, afterFind]
      split_ifs with hterm
      · exact trivial
      · cases hnext : d.nextAttemptAt with
        | none =>
            refine ⟨rfl, ?_⟩
            rintro rfl x hx t ht
            rw [hown.unique x hx d (hsome d rfl), hnext] at ht
            cases ht
        | some t =>
            refine ⟨rfl, ?_⟩
            rintro rfl x hx
            rw [hown.unique x hx d (hsome d rfl), hnext]

/-- An operation in the phase where the row has been found. -/
theorem dueFacts_found {m : Message} {st : CircuitState} {q : QueueMessage}
    {e : Option Delivery} (h : DueFacts eventId rows w.clock (.due m st q e) τ)
    (hallow : Timely τ op) (hfind : ∀ e u, op ≠ .findDelivery e u)
    (hexec : w.exec op c = some (r, w')) :
    DueFacts eventId rows w.clock (.due m st q e) (τ.next op r) := by
  obtain ⟨hlooked, hrows⟩ := h
  cases τ with
  | found t =>
      obtain rfl := hallow
      obtain rfl := World.exec_now hexec
      change DueFacts eventId rows w.clock (.due m st q e) (whetherDue t w.clock)
      unfold whetherDue
      split_ifs with hlt
      · exact ⟨rfl, fun _ => trivial⟩
      · refine ⟨rfl, fun hq d hd t' ht' => ?_⟩
        rw [hrows hq d hd] at ht'
        obtain rfl := Option.some.inj ht'
        exact not_lt.mp hlt
  | due =>
      cases op with
      | findDelivery e u => exact absurd rfl (hfind e u)
      | _ => cases r <;> first | exact ⟨rfl, hrows⟩ | exact ⟨rfl, fun _ => trivial⟩
  | notDue t =>
      obtain rfl := hallow
      obtain rfl := World.exec_now hexec
      exact ⟨rfl, fun _ => trivial⟩
  | hide asked delay deferral =>
      obtain ⟨_, rfl⟩ | ⟨_, rfl⟩ | ⟨-, hop⟩ := hallow
      · cases r <;> exact ⟨rfl, fun _ => trivial⟩
      · cases r <;> exact ⟨rfl, fun _ => trivial⟩
      · obtain ⟨_, rfl⟩ := Op.eq_of_defers hop
        cases r <;> exact ⟨rfl, fun _ => trivial⟩
  | gone => cases hallow
  | _ => cases hlooked

/-- **One operation of a handler.** -/
theorem due_step (hs : Sound w.toRecords) (hown : OwnInv env eventId w)
    (hrow : RowFacts eventId (w.rowsFor eventId env.receiverUrl) φ)
    (hφ : DueFacts eventId (w.rowsFor eventId env.receiverUrl) w.clock φ τ)
    (hallow : Allows env φ op) (htimely : Timely τ op) (hexec : w.exec op c = some (r, w')) :
    DueFacts eventId (w'.rowsFor eventId env.receiverUrl) w'.clock (φ.next op r)
      (τ.next op r) := by
  rw [World.clock_of_exec hexec]
  have hquiet : (∀ data, op ≠ .createDelivery data) → (∀ id data, op ≠ .updateDelivery id data) →
      w'.rowsFor eventId env.receiverUrl = w.rowsFor eventId env.receiverUrl := by
    intro hcreate hupdate
    rw [World.rowsFor, World.deliveries_of_exec hexec hcreate hupdate]
    rfl
  cases hallow with
  | readCircuit =>
      obtain rfl : τ = .early := hφ
      cases r <;> first | exact rfl | exact trivial
  | @decide m raw =>
      obtain rfl : τ = .early := hφ
      cases r with
      | error e => exact trivial
      | ok t =>
          change DueFacts eventId _ _ (afterDecision m _) .early
          unfold afterDecision
          cases parseQueueMessage m.body <;> split_ifs <;> first | exact rfl | exact trivial
  | limitNow =>
      obtain rfl : τ = .early := hφ
      cases r <;> first | exact rfl | exact trivial
  | limit =>
      obtain rfl : τ = .early := hφ
      cases r with
      | error e => exact trivial
      | ok result =>
          change DueFacts eventId _ _ (if result.1 = 1 then _ else _) .early
          split_ifs
          · exact rfl
          · exact trivial
  -- what was found decides whether the row is due
  | check =>
      obtain rfl : τ = .early := hφ
      cases r with
      | error e => exact trivial
      | ok existing =>
          rw [hquiet (by simp) (by simp)]
          exact dueFacts_afterCheck hown hexec
  | look =>
      rw [hquiet (by simp) (by simp)]
      cases r with
      | error e => exact trivial
      | ok found =>
          intro hq
          have htiming := hφ.2 hq
          cases τ with
          | due => exact htiming
          | found t => cases htimely
          | notDue t => cases htimely
          | hide asked delay deferral =>
              obtain ⟨_, hop⟩ | ⟨_, hop⟩ | ⟨-, hop⟩ := htimely <;> cases hop
          | gone => cases htimely
          | _ => cases hφ.1
  -- the update clears the row's next time
  | @upsertUpdate m q d t =>
      cases r with
      | error e => exact trivial
      | ok row =>
          intro hq
          rcases own_update hs hown ((hrow hq).2.2 d rfl) hexec with ⟨-, e, he⟩ | ⟨-, -, hanswer⟩
          · cases he
          · rw [hanswer row rfl]
            rfl
  -- a new row has none
  | @upsertCreate m q t =>
      cases r with
      | error e => exact trivial
      | ok row =>
          intro _
          rcases World.exec_createDelivery hexec with ⟨-, e, he⟩ | ⟨-, -, hanswer⟩
          · cases he
          · rw [hanswer row rfl]
            rfl
  | upsertNow =>
      rw [hquiet (by simp) (by simp)]
      cases r <;> first | exact hφ | exact trivial
  | fetch =>
      cases r with
      | error e => exact hφ
      | ok status =>
          change DueFacts eventId _ _ (afterPost _ _ _ _ _ status) _
          unfold afterPost
          split_ifs <;> exact hφ
  | dueNow | dueRelease | dueHide | dueCount | probe =>
      rw [hquiet (by simp) (by simp)]
      cases r with
      | error e => exact trivial
      | ok a => exact dueFacts_found hφ htimely (by simp) hexec
  | _ => cases r <;> first | exact trivial | exact hφ

/-- **The row of the event waits**: before its time no operation writes it. -/
theorem rows_wait (hs : Sound w.toRecords) (hP : w.PhaseFacts φ) (hown : OwnInv env eventId w)
    (hrow : RowFacts eventId (w.rowsFor eventId env.receiverUrl) φ)
    (hφ : DueFacts eventId (w.rowsFor eventId env.receiverUrl) w.clock φ τ)
    (hallow : Allows env φ op) (hexec : w.exec op c = some (r, w')) {d : Delivery}
    (hd : d ∈ w.rowsFor eventId env.receiverUrl) {t : ℚ} (ht : d.nextAttemptAt = some t) :
    t ≤ w.clock ∨ w'.rowsFor eventId env.receiverUrl = w.rowsFor eventId env.receiverUrl := by
  by_cases hother : ∀ q, φ.writes = some q → q.eventId ≠ eventId
  · exact .inr (rows_same hs hP hallow hexec hother)
  · push Not at hother
    obtain ⟨q, hq, hev⟩ := hother
    -- the handler has read the clock already, or the row has no time
    have hcleared : ∀ d', d' ∈ w.rowsFor eventId env.receiverUrl → d'.nextAttemptAt = none →
        t ≤ w.clock := by
      intro d' hd' hnone
      rw [hown.unique d' hd' d hd, ht] at hnone
      cases hnone
    have hcome : t ≤ w.clock := by
      cases φ <;> cases hq
      case upserting m found => exact hφ hev d hd t ht
      case trying m d' p x a => exact hcleared d' (hrow hev).1 (hφ hev)
      case buried m d' => exact hcleared d' (hrow hev).1 (hφ hev)
      case accepted m d' => exact hcleared d' (hrow hev).1 (hφ hev)
    exact .inl hcome

end

/-! ## The contract -/

/-- The contract of a run in which retries wait. -/
def waiting (env : Env) (eventId : JsString) :
    ((exclusive env eventId).contract.prod (timing env)).Extension where
  Inv _ := True
  Facts _ _ φ s := DueFacts eventId (s.world.rowsFor eventId env.receiverUrl) s.world.clock φ.1 φ.2
  Apart _ _ := True
  Ok _ _ _ _ _ := True
  Fresh _ _ := True
  begins {pid j s p} _ _ _ _ := by
    change DueFacts eventId _ _ (firstPhase j s) (firstTiming j)
    obtain ⟨m, rfl, h⟩ | h | h | h | ⟨row, event, h⟩ := firstPhase_cases j s <;>
      rw [h] <;> first | exact rfl | exact trivial
  surroundings {dt s s'} _ h := by
    have hdt := nonneg_of_passTime h
    obtain rfl := passTime_eq_some h
    refine ⟨trivial, fun _ hn => hn, fun _ _ _ hφ => ?_⟩
    exact hφ.later (le_add_of_nonneg_right hdt)
  call hs hP _ _ _ hφ hallow _ hexec := by
    obtain ⟨hexec, -, -⟩ := device_exec hexec
    exact ⟨trivial, due_step hs.1.1 hs.1.2 hP.1.2 hφ hallow.1 hallow.2 hexec⟩
  frame {pid j φ op c s r s' q i ψ} hs hP hPψ _ hap _ _ _ hallow _ hexec hψ := by
    obtain ⟨hexec, -, -⟩ := device_exec hexec
    rw [World.clock_of_exec hexec]
    rcases account_same_or_apart hs.1.1 hP.1.1.1 hP.1.1.2 hPψ.1.1.1 hPψ.1.1.2 hap.1.2 hallow.1
      hexec with hsame | hne
    · rw [show s'.world.rowsFor eventId env.receiverUrl =
        s.world.rowsFor eventId env.receiverUrl from congrArg Account.rows hsame]
      exact hψ
    · exact hψ.other hne
  after {pid j a φ s j' p'} hend _ ha := by
    obtain ⟨m, ack, rfl, rfl, rfl, rfl⟩ := after_eq_some ha
    obtain ⟨⟨-, q, d, hφ⟩, -⟩ := hend
    rw [hφ]
    exact trivial
  apart_after _ _ := trivial
  apart_symm _ := trivial
  fresh_succ _ := trivial
  fresh_call _ _ _ := trivial

/-- The contract in every run with one handler at a time. -/
theorem waiting_reached {env : Env} {eventId : JsString} {s : Sys}
    (h : Reached env (ExclusiveStep eventId) s) : (waiting env eventId).contract.Good s := by
  refine (waiting env eventId).contract.invariant ?_ ?_ h
  · intro s hs
    have hstart : ((exclusive env eventId).contract.prod (timing env)).Good s :=
      (exclusive_start hs).prod (timing_start hs)
    exact .of_empty ⟨hstart.inv, trivial⟩ ⟨hstart.fresh, trivial⟩ hs.tasks
  · intro s a hgood ha
    cases a with
    | spawn j =>
        exact fun pid t ht =>
          ⟨⟨apart_of_exclusiveStep hgood.numbered ha pid t ht, trivial⟩, trivial⟩
    | step pid c => exact fun j op k _ => ⟨⟨⟨trivial, trivial⟩, trivial⟩, trivial⟩
    | _ => exact trivial

/-! ## No attempt before its time -/

/-- The operation counts an attempt on a row of the event, or posts its webhook. -/
def Op.attempts (w : World) (eventId url : JsString) : Op → Prop
  | .createDelivery data => data.eventId = eventId ∧ data.targetUrl = url
  | .updateDelivery id data => data.status = .inFlight ∧ ∃ d ∈ w.rowsFor eventId url, d.id = id
  | .fetch _ body _ => postedEvent body = some eventId
  | _ => False

/-- A row of the event that waits for the time `t`, until it has come. -/
def WaitsFor (env : Env) (eventId : JsString) (t : ℚ) (w : World) : Prop :=
  t ≤ w.clock ∨ ∃ d ∈ w.rowsFor eventId env.receiverUrl, d.nextAttemptAt = some t

/-- One step of the system leaves the row waiting. -/
theorem waitsFor_step {env : Env} {eventId : JsString} {t : ℚ} {s s' : Sys}
    {a : PoolAction Choice Job ℚ} (hgood : (waiting env eventId).contract.Good s)
    (hstep : (system env).step s a = some s') (h : WaitsFor env eventId t s.world.world) :
    WaitsFor env eventId t s'.world.world := by
  cases a with
  | surroundings dt =>
      rw [Machine.step, Option.map_eq_some_iff] at hstep
      obtain ⟨w', hw', rfl⟩ := hstep
      have hdt := nonneg_of_passTime hw'
      obtain rfl := passTime_eq_some hw'
      exact h.imp (fun hle => le_trans hle (le_add_of_nonneg_right hdt)) id
  | spawn j =>
      rw [Machine.step, Option.map_eq_some_iff] at hstep
      obtain ⟨p, -, rfl⟩ := hstep
      exact h
  | finish pid =>
      obtain ⟨j, e, -, rfl⟩ | ⟨j, x, -, rfl⟩ := Machine.step_finish hstep
      · exact h
      · exact h
  | crash pid =>
      rw [Machine.step, Option.map_eq_some_iff] at hstep
      obtain ⟨x, -, rfl⟩ := hstep
      exact h
  | step pid c =>
      obtain ⟨j, op, k, r, w', ht, hexec, rfl⟩ := Machine.step_call hstep
      obtain ⟨φ, ⟨hallow, -⟩, hfacts, hdue⟩ := hgood.stands pid _ ht
      obtain ⟨hexec, -, -⟩ := device_exec hexec
      unfold WaitsFor
      rw [World.clock_of_exec hexec]
      rcases h with hle | ⟨d, hd, hnext⟩
      · exact .inl hle
      · rcases rows_wait hgood.inv.1.1.1 hfacts.1.1.1 hgood.inv.1.1.2 hfacts.1.2 hdue hallow.1
          hexec hd hnext with hle | hsame
        · exact .inl hle
        · exact .inr ⟨d, hsame ▸ hd, hnext⟩

/-- **No retry before its time**: once the row of an event has a time for its next attempt, no
handler counts an attempt on it or posts its webhook before that time, whatever happens in
between, as long as one handler at a time works for the event. -/
theorem retry_not_early {env : Env} {eventId : JsString} {s s' : Sys}
    (h : Reached env (ExclusiveStep eventId) s) {d : Delivery}
    (hd : d ∈ s.world.world.rowsFor eventId env.receiverUrl) {t : ℚ}
    (hnext : d.nextAttemptAt = some t)
    (hlater : Run (fun x => x = s) (system env).step (ExclusiveStep eventId) s') {pid : ℕ} {j : Job}
    {op : Op} {k : Except JsError op.Res → Async Acknowledge}
    (ht : s'.tasks pid = some ⟨j, .call op k⟩)
    (hop : op.attempts s'.world.world eventId env.receiverUrl) : t ≤ s'.world.world.clock := by
  have hreached : ∀ x, Run (fun x => x = s) (system env).step (ExclusiveStep eventId) x →
      Reached env (ExclusiveStep eventId) x := fun x hx => h.append hx
  have hwaits : WaitsFor env eventId t s'.world.world := by
    refine Run.invariant_of (I := fun x => WaitsFor env eventId t x.world.world)
      (fun x hx => waiting_reached (hreached x hx)) ?_ ?_ hlater
    · rintro _ rfl
      exact .inr ⟨d, hd, hnext⟩
    · exact fun x a x' hgood _ hx _ hstep => waitsFor_step hgood hstep hx
  -- the time is past, or the row still waits for it
  rcases hwaits with hle | ⟨x, hx, hxnext⟩
  · exact hle
  have hgood := waiting_reached (hreached s' hlater)
  obtain ⟨φ, ⟨hallow, -⟩, hfacts, hdue⟩ := hgood.stands pid _ ht
  obtain ⟨φ, τ⟩ := φ
  have hallow : Allows env φ op := hallow.1
  have hdue : DueFacts eventId (s'.world.world.rowsFor eventId env.receiverUrl)
    s'.world.world.clock φ τ := hdue
  cases hallow with
  | @upsertCreate m q now =>
      obtain ⟨hq, -⟩ := hop
      exact hdue hq x hx t hxnext
  | @upsertUpdate m q row now =>
      -- the row that is updated is the event's, so the message is too
      obtain ⟨-, y, hy, hid⟩ := hop
      obtain ⟨hymem, hyev, -⟩ := World.mem_rowsFor.mp hy
      obtain ⟨hrowev, -, z, hz, hzid, hzev, -⟩ := hfacts.1.1.1.2 row rfl
      have hzy : z = y :=
        hgood.inv.1.1.1.deliveriesUnique z hz y hymem (hzid.trans hid.symm)
      have hq : q.eventId = eventId := by rw [← hrowev, ← hzev, hzy, hyev]
      exact hdue hq x hx t hxnext
  -- a post follows the update that clears the row's next time
  | @fetch m q row text archived payload signature hp =>
      have hposted : postedEvent (webhookBody q payload).stringify = some eventId := hop
      rw [postedEvent_webhookBody] at hposted
      have hq : q.eventId = eventId := Option.some.inj hposted
      have hrow : row ∈ s'.world.world.rowsFor eventId env.receiverUrl := (hfacts.1.2 hq).1
      have hnone : row.nextAttemptAt = none := hdue hq
      rw [hgood.inv.1.1.2.unique row hrow x hx, hxnext] at hnone
      cases hnone
  | retry => cases hop.1
  | markDead => cases hop.1
  | markDone => cases hop.1
  | _ => cases hop

/-- The message is received again when its row is due, and posted once more. -/
def Sample.retried : List (PoolAction Choice Job ℚ) :=
  [.surroundings 500, .spawn (.deliver firstMessage)] ++ calls 3 10 refusal

/-- The row of the first event waits until 1500. -/
def Sample.waitsUntil1500 (s : Sys) : Bool :=
  decide (s.world.world.clock = 1000) &&
    (s.world.world.rowsFor firstId (env none).receiverUrl).any
      (fun d => d.nextAttemptAt == some 1500)

/-- The handler is about to post the webhook of the first event. -/
def Sample.posts (s : Sys) : Bool :=
  (nextOp s 3).any (fun op => match op with
    | .fetch _ body _ => postedEvent body == some firstId
    | _ => false)

/-- The second attempt waits until the first one's delay is over. -/
theorem retry_not_early_retried : ∃ s s' : Sys, s.world.world.clock = 1000 ∧
    Run (fun x => x = s) (system (Sample.env none)).step (ExclusiveStep Sample.firstId) s' ∧
    Sample.posts s' = true ∧ 1500 ≤ s'.world.world.clock := by
  have hplayed : ((Run.play (system (Sample.env none)).step
      (fun s a => decide (ExclusiveStep Sample.firstId s a))
      (Sample.failed ++ Sample.calls 2 1 Sample.refusal ++ [.finish 2]) Sample.start).any
        fun s => Sample.waitsUntil1500 s && (Run.play (system (Sample.env none)).step
          (fun s a => decide (ExclusiveStep Sample.firstId s a)) Sample.retried s).any
          Sample.posts) = true := by
    decide +kernel
  obtain ⟨s, hs, htest⟩ := Sample.exists_reached (Sample.env none)
    (ExclusiveStep Sample.firstId) _ _ _ (fun _ _ h => of_decide_eq_true h) hplayed
  rw [Bool.and_eq_true, Sample.waitsUntil1500, Bool.and_eq_true, decide_eq_true_eq,
    List.any_eq_true] at htest
  obtain ⟨⟨hclock, d, hd, hnext⟩, hrest⟩ := htest
  have hplay : ∃ s', Run (fun x => x = s) (system (Sample.env none)).step
      (ExclusiveStep Sample.firstId) s' ∧ Sample.posts s' = true :=
    Run.exists_of_play_from (fun _ _ h => of_decide_eq_true h) hrest
  obtain ⟨s', hlater, hposts⟩ := hplay
  refine ⟨s, s', hclock, hlater, hposts, ?_⟩
  obtain ⟨op, hop, hbody⟩ := (Option.any_eq_true _ _).mp hposts
  obtain ⟨j, k, ht⟩ := Sample.tasks_of_nextOp hop
  cases op with
  | fetch url body signature =>
      exact retry_not_early hs hd (beq_iff_eq.mp hnext) hlater ht (beq_iff_eq.mp hbody)
  | _ => cases hbody
