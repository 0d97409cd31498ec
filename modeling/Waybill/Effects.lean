/-
# What one operation can do to the records

One lemma for each table that says which operations touch it, and one for each statement
that writes it, whether it answers, fails or fails after its effect.  The arguments about
runs split on these.
-/
import Waybill.World

namespace World

variable {w w' : World} {c : Choice} {op : Op} {r : Except JsError op.Res}

/-! ## Failures -/

/-- Whether an operation had its effect decides what the world is after it. -/
theorem exec_effect (hexec : w.exec op c = some (r, w')) :
    w' = if op.isLocal || c.fault != .before then (w.apply op c).2 else w.attempted op := by
  unfold exec at hexec
  split_ifs at hexec
  have hout : w.outcome op c = (r, w') := Option.some.inj hexec
  unfold outcome at hout
  cases hlocal : op.isLocal with
  | true =>
      rw [hlocal, if_pos rfl] at hout
      rw [hout]
      rfl
  | false =>
      rw [hlocal] at hout
      cases hf : c.fault with
      | none =>
          rw [hf] at hout
          have hw : w.apply op c = (r, w') := hout
          rw [hw]
          rfl
      | before =>
          rw [hf] at hout
          exact (congrArg Prod.snd hout).symm
      | after =>
          rw [hf] at hout
          exact (congrArg Prod.snd hout).symm

/-- What an operation without a failure is. -/
theorem exec_of_healthy (hfault : c.fault = .none) (h : w.exec op c = some (r, w')) :
    w.apply op c = (r, w') := by
  unfold exec at h
  split_ifs at h
  have hout : w.outcome op c = (r, w') := Option.some.inj h
  unfold outcome at hout
  rw [hfault] at hout
  split_ifs at hout
  · exact hout
  · exact hout

/-! ## Who touches what -/

/-- What holds of every outcome of an operation holds after it. -/
theorem exec_cases {P : World → Prop} (h : w.exec op c = some (r, w'))
    (happly : P (w.apply op c).2) (hattempted : P (w.attempted op)) : P w' := by
  rcases exec_world h with rfl | ⟨rfl, -⟩
  · exact happly
  · exact hattempted

/-- Only deliveries are written by `create` and `update`. -/
theorem deliveries_of_exec (h : w.exec op c = some (r, w'))
    (hcreate : ∀ data, op ≠ .createDelivery data)
    (hupdate : ∀ id data, op ≠ .updateDelivery id data) : w'.deliveries = w.deliveries := by
  refine @exec_cases w w' c op r (fun x => x.deliveries = w.deliveries) h ?_ ?_
  · cases op <;> first
      | rfl
      | exact absurd rfl (hcreate _)
      | exact absurd rfl (hupdate _ _)
      | (simp only [apply, upsertDeadLetter, createEvent, insertReplay]
         repeat' split
         all_goals rfl)
  · cases op <;> rfl

/-- Only `deleteMessage` removes messages. -/
theorem deleted_of_exec (h : w.exec op c = some (r, w'))
    (hdelete : ∀ receipt, op ≠ .deleteMessage receipt) : w'.deleted = w.deleted := by
  refine @exec_cases w w' c op r (fun x => x.deleted = w.deleted) h ?_ ?_
  · cases op <;> first
      | rfl
      | exact absurd rfl (hdelete _)
      | (simp only [apply, createDelivery, updateDelivery, upsertDeadLetter, createEvent,
           insertReplay]
         repeat' split
         all_goals rfl)
  · cases op <;> rfl

/-- Only `fetch` calls the receiver. -/
theorem posts_of_exec (h : w.exec op c = some (r, w'))
    (hfetch : ∀ url body signature, op ≠ .fetch url body signature) : w'.posts = w.posts := by
  refine @exec_cases w w' c op r (fun x => x.posts = w.posts) h ?_ ?_
  · cases op <;> first
      | rfl
      | exact absurd rfl (hfetch _ _ _)
      | (simp only [apply, createDelivery, updateDelivery, upsertDeadLetter, createEvent,
           insertReplay]
         repeat' split
         all_goals rfl)
  · cases op <;> first
      | rfl
      | exact absurd rfl (hfetch _ _ _)

/-- Only the upsert writes dead letters. -/
theorem deadLetters_of_exec (h : w.exec op c = some (r, w'))
    (hupsert : ∀ input, op ≠ .upsertDeadLetter input) : w'.deadLetters = w.deadLetters := by
  refine @exec_cases w w' c op r (fun x => x.deadLetters = w.deadLetters) h ?_ ?_
  · cases op <;> first
      | rfl
      | exact absurd rfl (hupsert _)
      | (simp only [apply, createDelivery, updateDelivery, createEvent, insertReplay]
         repeat' split
         all_goals rfl)
  · cases op <;> rfl

/-- The outbox only changes where a row is marked, or inserted with a new event. -/
theorem outbox_of_exec (h : w.exec op c = some (r, w'))
    (hmark : ∀ id t, op ≠ .markPublished id t) (hevent : ∀ input, op ≠ .createEvent input)
    (hreplay : ∀ input, op ≠ .insertReplay input) : w'.outbox = w.outbox := by
  refine @exec_cases w w' c op r (fun x => x.outbox = w.outbox) h ?_ ?_
  · cases op <;> first
      | rfl
      | exact absurd rfl (hmark _ _)
      | exact absurd rfl (hevent _)
      | exact absurd rfl (hreplay _)
      | (simp only [apply, createDelivery, updateDelivery, upsertDeadLetter]
         repeat' split
         all_goals rfl)
  · cases op <;> rfl

/-- Redis is only written by its own commands. -/
theorem redis_of_exec (h : w.exec op c = some (r, w')) (hhset : ∀ key fields, op ≠ .hset key fields)
    (hexpire : ∀ key seconds, op ≠ .expire key seconds)
    (heval : ∀ key n k t, op ≠ .evalConsumeToken key n k t) : w'.redis = w.redis := by
  refine @exec_cases w w' c op r (fun x => x.redis = w.redis) h ?_ ?_
  · cases op <;> first
      | rfl
      | exact absurd rfl (hhset _ _)
      | exact absurd rfl (hexpire _ _)
      | exact absurd rfl (heval _ _ _ _)
      | (simp only [apply, createDelivery, updateDelivery, upsertDeadLetter, createEvent,
           insertReplay]
         repeat' split
         all_goals rfl)
  · cases op <;> rfl

/-- No operation turns the clock. -/
theorem clock_of_exec (h : w.exec op c = some (r, w')) :
    w'.clock = w.clock := by
  have happly : (w.apply op c).2.clock = w.clock := by
    cases op with
    | getObject key =>
        rw [apply]
        cases w.objects key <;> rfl
    | createDelivery data =>
        change (w.createDelivery data c.id).2.clock = _
        unfold createDelivery
        split_ifs <;> rfl
    | updateDelivery id data =>
        change (w.updateDelivery id data).2.clock = _
        unfold updateDelivery
        cases w.deliveryById id <;> rfl
    | upsertDeadLetter input =>
        change (w.upsertDeadLetter input c.id).2.clock = _
        unfold upsertDeadLetter
        cases w.deadLetters.find? _ with
        | some d => rfl
        | none =>
            simp only
            split_ifs <;> rfl
    | createEvent input =>
        change (w.createEvent input c.outboxId).2.clock = _
        unfold createEvent
        split_ifs <;> rfl
    | insertReplay input =>
        change (w.insertReplay input c.id c.outboxId c.replayId).2.clock = _
        unfold insertReplay
        cases w.deadLetters.find? _ with
        | none => rfl
        | some d =>
            simp only
            split_ifs <;> rfl
    | _ => rfl
  rcases exec_world h with rfl | ⟨rfl, -⟩
  · exact happly
  · cases op <;> rfl

/-! ## The statements -/

/-- The row `create` inserts. -/
def newDelivery (w : World) (data : NewDelivery) (id : JsString) : Delivery :=
  { id := id, eventId := data.eventId, tenantId := data.tenantId, targetUrl := data.targetUrl
    status := data.status, attemptCount := data.attemptCount
    lastAttemptAt := some data.lastAttemptAt, nextAttemptAt := none, lastError := none
    createdAt := w.clock }

/-- An answer is the operation's own, or an error instead. -/
theorem exec_result (h : w.exec op c = some (r, w')) :
    r = (w.apply op c).1 ∨ ∃ e, r = .error e := by
  cases r with
  | error e => exact .inr ⟨e, rfl⟩
  | ok a => exact .inl (congrArg Prod.fst (exec_ok h)).symm

/-- `create` inserts its row, or does nothing. -/
theorem exec_createDelivery {data : NewDelivery} {r : Except JsError Delivery}
    (h : w.exec (.createDelivery data) c = some (r, w')) :
    (w'.deliveries = w.deliveries ∧ ∃ e, r = .error e) ∨
      (w'.deliveries = w.newDelivery data c.id :: w.deliveries ∧
        (∀ d ∈ w.deliveries, d.id ≠ c.id) ∧
          ∀ row, r = .ok row → row = w.newDelivery data c.id) := by
  have hpos : w.possible (.createDelivery data) c = true := possible_of_exec h
  have hfresh : ∀ d ∈ w.deliveries, d.id ≠ c.id := by simpa [possible] using hpos
  have happly : w.apply (.createDelivery data) c = w.createDelivery data c.id := rfl
  have hresult := exec_result h
  rw [happly] at hresult
  have hworld := exec_world h
  rw [happly] at hworld
  unfold createDelivery at hresult hworld
  split_ifs at hresult hworld
  · rcases hworld with rfl | ⟨rfl, he⟩
    · refine .inr ⟨rfl, hfresh, ?_⟩
      rintro row rfl
      rcases hresult with hrow | ⟨e, he⟩
      · exact Except.ok.inj hrow
      · cases he
    · exact .inl ⟨rfl, he⟩
  · refine .inl ⟨?_, ?_⟩
    · rcases hworld with rfl | ⟨rfl, -⟩ <;> rfl
    · rcases hresult with he | he
      · exact ⟨_, he⟩
      · exact he

/-- `update` changes its row, or does nothing. -/
theorem exec_updateDelivery {id : JsString} {data : DeliveryData} {r : Except JsError Delivery}
    (h : w.exec (.updateDelivery id data) c = some (r, w')) :
    (w'.deliveries = w.deliveries ∧ ∃ e, r = .error e) ∨
      ∃ d ∈ w.deliveries, d.id = id ∧
        w'.deliveries = w.deliveries.map (fun d => if d.id = id then data.apply d else d) ∧
        ∀ row, r = .ok row → row = data.apply d := by
  have happly : w.apply (.updateDelivery id data) c = w.updateDelivery id data := rfl
  have hresult := exec_result h
  rw [happly] at hresult
  have hworld := exec_world h
  rw [happly] at hworld
  unfold updateDelivery at hresult hworld
  cases hfind : w.deliveryById id with
  | none =>
      rw [hfind] at hresult hworld
      refine .inl ⟨?_, ?_⟩
      · rcases hworld with rfl | ⟨rfl, -⟩ <;> rfl
      · rcases hresult with he | he
        · exact ⟨_, he⟩
        · exact he
  | some d =>
      rw [hfind] at hresult hworld
      rcases hworld with rfl | ⟨rfl, he⟩
      · refine .inr ⟨d, List.mem_of_find?_eq_some hfind, by simpa using List.find?_some hfind,
          rfl, ?_⟩
        rintro row rfl
        rcases hresult with hrow | ⟨e, he⟩
        · exact Except.ok.inj hrow
        · cases he
      · exact .inl ⟨rfl, he⟩

/-- The upsert refreshes the dead letter of its delivery, inserts one, or does nothing. -/
theorem exec_upsertDeadLetter {input : NewDeadLetter} {r : Except JsError DeadLetter}
    (h : w.exec (.upsertDeadLetter input) c = some (r, w')) :
    (w'.deadLetters = w.deadLetters ∧ ∃ e, r = .error e) ∨
      (w'.deadLetters = w.deadLetters.map (fun d =>
          if d.deliveryId = input.deliveryId then refreshDeadLetter input d else d) ∧
        ∃ d ∈ w.deadLetters, d.deliveryId = input.deliveryId) ∨
      (w'.deadLetters = w.newDeadLetter input c.id :: w.deadLetters ∧
        ∀ d ∈ w.deadLetters, d.deliveryId ≠ input.deliveryId) := by
  have happly : w.apply (.upsertDeadLetter input) c = w.upsertDeadLetter input c.id := rfl
  have hresult := exec_result h
  rw [happly] at hresult
  have hworld := exec_world h
  rw [happly] at hworld
  unfold upsertDeadLetter at hresult hworld
  cases hfind : w.deadLetters.find? (fun d => d.deliveryId == input.deliveryId) with
  | some d =>
      rw [hfind] at hworld
      rcases hworld with rfl | ⟨rfl, he⟩
      · exact .inr (.inl ⟨rfl, d, List.mem_of_find?_eq_some hfind,
          by simpa using List.find?_some hfind⟩)
      · exact .inl ⟨rfl, he⟩
  | none =>
      rw [hfind] at hresult hworld
      simp only at hresult hworld
      split_ifs at hresult hworld
      · rcases hworld with rfl | ⟨rfl, he⟩
        · exact .inr (.inr ⟨rfl, fun d hd => by simpa using List.find?_eq_none.mp hfind d hd⟩)
        · exact .inl ⟨rfl, he⟩
      · refine .inl ⟨?_, ?_⟩
        · rcases hworld with rfl | ⟨rfl, -⟩ <;> rfl
        · rcases hresult with he | he
          · exact ⟨_, he⟩
          · exact he

/-- The row a replay is recorded in. -/
def replayRow (w : World) (input : NewReplay) (eventId replayId : JsString) : Replay :=
  { id := replayId, tenantId := input.tenantId, sourceDeadLetterId := input.sourceDeadLetterId
    eventId := eventId, idempotencyKey := input.idempotencyKey, createdAt := w.clock }

/-- The commit of a replay inserts its three rows, or does nothing. -/
theorem exec_insertReplay {input : NewReplay} {r : Except JsError ReplayRecord}
    (h : w.exec (.insertReplay input) c = some (r, w')) :
    (w'.events = w.events ∧ w'.outbox = w.outbox ∧ w'.replays = w.replays ∧ ∃ e, r = .error e) ∨
      ((∃ event, w'.events = event :: w.events ∧ event.id = c.id) ∧
        w'.outbox = w.newOutbox c.id c.outboxId :: w.outbox ∧
        w'.replays = w.replayRow input c.id c.replayId :: w.replays ∧
        (∀ e ∈ w.events, e.id ≠ c.id) ∧
        (∀ x ∈ w.replays, x.sourceDeadLetterId ≠ input.sourceDeadLetterId ∧
          ¬ (x.tenantId = input.tenantId ∧ x.idempotencyKey = input.idempotencyKey)) ∧
        ∀ record, r = .ok record → record.replay = w.replayRow input c.id c.replayId) := by
  have hpos : w.possible (.insertReplay input) c = true := possible_of_exec h
  have hfresh : ∀ e ∈ w.events, e.id ≠ c.id := by
    simp only [possible, eventIdFree, Bool.and_eq_true, List.all_eq_true, bne_iff_ne] at hpos
    exact hpos.1.1.2
  have happly : w.apply (.insertReplay input) c =
      w.insertReplay input c.id c.outboxId c.replayId := rfl
  have hresult := exec_result h
  rw [happly] at hresult
  have hworld := exec_world h
  rw [happly] at hworld
  -- whatever went wrong, the transaction left nothing
  have hsame : ∀ e : JsError, r = .error e ∨ (∃ e', r = .error e') →
      w' = w ∨ (w' = w ∧ ∃ e', r = .error e') →
      w'.events = w.events ∧ w'.outbox = w.outbox ∧ w'.replays = w.replays ∧
        ∃ e, r = .error e := by
    rintro e hr hw
    have hw' : w' = w := by
      rcases hw with hw | ⟨hw, -⟩
      · exact hw
      · exact hw
    refine ⟨by rw [hw'], by rw [hw'], by rw [hw'], ?_⟩
    rcases hr with hr | hr
    · exact ⟨e, hr⟩
    · exact hr
  unfold insertReplay at hresult hworld
  -- the foreign keys first, then the unique ones
  cases hfind : w.deadLetters.find? (fun d => d.id == input.sourceDeadLetterId) with
  | none =>
      rw [hfind] at hresult hworld
      exact .inl (hsame _ hresult hworld)
  | some source =>
      rw [hfind] at hresult hworld
      simp only at hresult hworld
      split_ifs at hresult hworld with htenants hused
      · exact .inl (hsame _ hresult hworld)
      · rcases hworld with rfl | ⟨rfl, he⟩
        · refine .inr ⟨⟨_, rfl, rfl⟩, rfl, rfl, hfresh, ?_, ?_⟩
          · intro x hx
            rw [List.any_eq_true, not_exists] at hused
            have hnot := hused x
            simp only [hx, true_and, Bool.or_eq_true, Bool.and_eq_true, beq_iff_eq] at hnot
            exact not_or.mp hnot
          · rintro record rfl
            rcases hresult with hrow | ⟨e, he⟩
            · rw [Except.ok.inj hrow]
              rfl
            · cases he
        · exact .inl ⟨rfl, rfl, rfl, he⟩
      · exact .inl (hsame _ hresult hworld)

/-- A replay that is found by a key is one of that key. -/
theorem exec_findReplayByKey {tenantId idempotencyKey : JsString} {record : ReplayRecord}
    (h : w.exec (.findReplayByKey tenantId idempotencyKey) c = some (.ok (some record), w')) :
    record.replay ∈ w.replays ∧ record.replay.tenantId = tenantId ∧
      record.replay.idempotencyKey = idempotencyKey := by
  have hfound : (w.replays.find? (fun r =>
      r.tenantId == tenantId && r.idempotencyKey == idempotencyKey)).bind w.recordOf =
        some record := Except.ok.inj (congrArg Prod.fst (exec_ok h))
  obtain ⟨replay, hfind, hrecord⟩ := Option.bind_eq_some_iff.mp hfound
  have hreplay : record.replay = replay := by
    obtain ⟨source, -, hsource⟩ := Option.bind_eq_some_iff.mp hrecord
    rw [← Option.some.inj hsource]
  have hkey := List.find?_some hfind
  simp only [Bool.and_eq_true, beq_iff_eq] at hkey
  rw [hreplay]
  exact ⟨List.mem_of_find?_eq_some hfind, hkey⟩

/-- `DeleteMessage` removes the message of its receipt, or does nothing. -/
theorem exec_deleteMessage {receipt : ℕ} {r : Except JsError Unit}
    (h : w.exec (.deleteMessage receipt) c = some (r, w')) :
    ∀ m ∈ w'.deleted, m ∈ w.deleted ∨ (m ∈ w.queue ∧ m.id = receipt) := by
  intro m hm
  rcases exec_world h with rfl | ⟨rfl, -⟩
  · rcases List.mem_append.mp hm with hm | hm
    · simp only [List.mem_filter, beq_iff_eq] at hm
      exact .inr hm
    · exact .inl hm
  · exact .inl hm

/-- A webhook call is made, whatever comes back. -/
theorem exec_fetch {url body signature : JsString} {r : Except JsError ℕ}
    (h : w.exec (.fetch url body signature) c = some (r, w')) :
    ∃ redirects answer, w'.posts =
      { url := url, body := body, signature := signature, redirects := redirects
        answer := answer } :: w.posts := by
  rcases exec_world h with rfl | ⟨rfl, -⟩
  · exact ⟨c.redirects, some c.status, rfl⟩
  · exact ⟨[], none, rfl⟩

/-- What the webhook calls after an operation are: the ones before, and one more of `fetch`, which
failed or was answered as its environment says. -/
theorem replies_of_exec (h : w.exec op c = some (r, w')) :
    ∀ x ∈ w'.posts, x ∈ w.posts ∨ x.replies = [] ∨
      ∃ url body signature, op = .fetch url body signature ∧
        x.replies = followed .post c.redirects c.status := by
  intro x hx
  by_cases hfetch : ∀ url body signature, op ≠ .fetch url body signature
  · exact .inl (posts_of_exec h hfetch ▸ hx)
  · push Not at hfetch
    obtain ⟨url, body, signature, rfl⟩ := hfetch
    rcases exec_world h with rfl | ⟨rfl, -⟩
    · rcases List.mem_cons.mp hx with rfl | hx
      · exact .inr (.inr ⟨url, body, signature, rfl, rfl⟩)
      · exact .inl hx
    · rcases List.mem_cons.mp hx with rfl | hx
      · exact .inr (.inl rfl)
      · exact .inl hx

/-- An answer of the receiver that reaches the process. -/
theorem exec_fetch_ok {url body signature : JsString} {status : ℕ}
    (h : w.exec (.fetch url body signature) c = some (.ok status, w')) :
    c.fault = .none ∧ c.status = status := by
  refine ⟨?_, Except.ok.inj (congrArg Prod.fst (exec_ok h))⟩
  unfold exec at h
  split_ifs at h with hpos
  have hout : w.outcome (.fetch url body signature) c = (.ok status, w') := Option.some.inj h
  unfold outcome at hout
  cases hf : c.fault with
  | none => rfl
  | before =>
      rw [hf] at hout
      cases congrArg Prod.fst hout
  | after =>
      rw [hf] at hout
      cases congrArg Prod.fst hout

/-- A query for deliveries returns one of them, if there are any. -/
theorem exec_findDelivery {eventId url : JsString} {r : Except JsError (Option Delivery)}
    (h : w.exec (.findDelivery eventId url) c = some (r, w')) :
    w' = w ∧ (∀ d, r = .ok (some d) → d ∈ w.rowsFor eventId url) ∧
      (r = .ok none → w.rowsFor eventId url = []) := by
  have hworld : w' = w := by
    rcases exec_world h with rfl | ⟨rfl, -⟩ <;> rfl
  have hpick : r = .ok (pickFrom (w.rowsFor eventId url) c.pick) ∨ ∃ e, r = .error e :=
    exec_result h
  refine ⟨hworld, ?_, ?_⟩
  · rintro d rfl
    rcases hpick with hpick | ⟨e, he⟩
    · exact List.mem_of_getElem? (Except.ok.inj hpick).symm
    · cases he
  · rintro rfl
    rcases hpick with hpick | ⟨e, he⟩
    · have hnone : (w.rowsFor eventId url)[c.pick % (w.rowsFor eventId url).length]? = none :=
        (Except.ok.inj hpick).symm
      rw [List.getElem?_eq_none_iff] at hnone
      by_contra hne
      exact absurd (Nat.mod_lt c.pick (List.length_pos_of_ne_nil hne)) (not_lt.mpr hnone)
    · cases he

/-- The rows of an event and a destination. -/
theorem mem_rowsFor {eventId url : JsString} {d : Delivery} :
    d ∈ w.rowsFor eventId url ↔ d ∈ w.deliveries ∧ d.eventId = eventId ∧ d.targetUrl = url := by
  simp [rowsFor]

/-- A new event comes with a new outbox row. -/
theorem exec_createEvent {input : CreateEventRecord} {r : Except JsError (Event × Outbox)}
    (h : w.exec (.createEvent input) c = some (r, w')) :
    w'.outbox = w.outbox ∨ w'.outbox = w.newOutbox input.id c.outboxId :: w.outbox := by
  refine @exec_cases w w' c (.createEvent input) r
    (fun x => x.outbox = w.outbox ∨ x.outbox = w.newOutbox input.id c.outboxId :: w.outbox)
    h ?_ (.inl rfl)
  simp only [apply, createEvent]
  split_ifs
  · exact .inl rfl
  · exact .inr rfl
  · exact .inl rfl

/-- **The outbox grows by new rows only**, unless a row is marked. -/
theorem exec_outbox (h : w.exec op c = some (r, w')) (hmark : ∀ id t, op ≠ .markPublished id t) :
    w'.outbox = w.outbox ∨
      ∃ o, w'.outbox = o :: w.outbox ∧ ∀ o' ∈ w.outbox, o'.id ≠ o.id := by
  have hpos := possible_of_exec h
  cases op with
  | createEvent input =>
      rcases exec_createEvent h with hsame | hnew
      · exact .inl hsame
      · refine .inr ⟨_, hnew, ?_⟩
        simp only [possible, List.all_eq_true, bne_iff_ne] at hpos
        exact hpos
  | insertReplay input =>
      rcases exec_insertReplay h with ⟨-, hsame, -⟩ | ⟨-, hnew, -⟩
      · exact .inl hsame
      · refine .inr ⟨_, hnew, ?_⟩
        simp only [possible, Bool.and_eq_true, List.all_eq_true, bne_iff_ne] at hpos
        exact hpos.1.2
  | markPublished id t => exact absurd rfl (hmark id t)
  | _ => exact .inl (outbox_of_exec h nofun nofun nofun)

end World
