/-
# What a process may rely on

The facts that go with each phase of a process: which message and event it works for, that
its delivery row exists, what it has loaded or stored, and, before it deletes a message or
marks a row published, why the event is safe.

* `PhaseFacts.mono`: nobody else takes a fact away.
* `step_sound`: an allowed operation keeps the records sound and undoes nothing.
* `step_facts`: its answer establishes the facts of the next phase.
-/
import Waybill.Custody

open Worker Publisher Api Records

namespace Records

/-! ## Facts -/

/-- A message that is or was in the queue, for an event on record. -/
def MessageOk (w : Records) (m : Message) : Prop :=
  m.id < w.nextMessage ∧ (∀ m' ∈ w.queue, m'.id = m.id → m' = m) ∧
    ∃ e ∈ w.events, m.body = messageBody e

/-- A message that was read as `q`. -/
def Handling (w : Records) (m : Message) (q : QueueMessage) : Prop :=
  w.MessageOk m ∧ parseQueueMessage m.body = some q

/-- A delivery row of the event a message is about. -/
def RowOk (w : Records) (q : QueueMessage) (d : Delivery) : Prop :=
  d.eventId = q.eventId ∧ d.tenantId = q.tenantId ∧
    ∃ d' ∈ w.deliveries, d'.id = d.id ∧ d'.eventId = d.eventId ∧ d'.tenantId = d.tenantId

/-- What has been loaded and archived during an attempt. -/
def AttemptOk (w : Records) (q : QueueMessage) (text : Option JsString) (archived : Bool) :
    Prop :=
  (∀ x, text = some x → ∃ key, truthyKey q.payloadS3Key = some key ∧ w.objects key = some x) ∧
    (archived = true → truthyKey q.payloadS3Key = none ∧
      w.objects (archiveKey q.eventId) = some q.payload.stringify)

/-- A dead letter as a replay read it. -/
def SourceOk (w : Records) (source : ReplaySource) : Prop :=
  source.event ∈ w.events ∧ source.event.tenantId = source.deadLetter.tenantId ∧
    source.deadLetter.payloadS3Key ≠ [] ∧
    (∃ d ∈ w.deadLetters, d.id = source.deadLetter.id ∧ d.eventId = source.event.id) ∧
    ∃ p, w.Carries source.event p ∧ w.objects source.deadLetter.payloadS3Key = some p.stringify

/-- The facts of each phase. -/
def PhaseFacts (w : Records) : Phase → Prop
  | .start m => w.MessageOk m
  | .read m _ => w.MessageOk m
  | .poison _ => False
  | .admitted m _ q => w.Handling m q
  | .checking m _ q => w.Handling m q
  | .due m _ q _ => w.Handling m q
  | .settled m q _ => w.Handling m q ∧ w.Finished q.eventId
  | .upserting m q found => w.Handling m q ∧ ∀ d, found = some d → w.RowOk q d
  | .trying m q d _ text archived => w.Handling m q ∧ w.RowOk q d ∧ w.AttemptOk q text archived
  | .buried m q d => w.Handling m q ∧ w.RowOk q d ∧ w.Buried q.eventId
  -- a 2xx was the answer, and the row is not marked yet
  | .accepted m q d => w.Handling m q ∧ w.RowOk q d ∧ w.Accepted q.eventId
  | .complete m q _ => w.Handling m q ∧ w.Finished q.eventId
  -- the row that is sent is still in the outbox, and is of this event
  | .publishing row event => event ∈ w.events ∧ (∃ o ∈ w.outbox, o.id = row.id) ∧
      ∀ o ∈ w.outbox, o.id = row.id → o.eventId = event.id
  | .sent row event => w.Handed event.id ∧ (∃ o ∈ w.outbox, o.id = row.id) ∧
      ∀ o ∈ w.outbox, o.id = row.id → o.eventId = event.id
  | .drafted t ty p e => { eventId := e, tenantId := t, type := ty, payload := p } ∈ w.drafts
  | .uploaded t ty p e => { eventId := e, tenantId := t, type := ty, payload := p } ∈ w.drafts ∧
      w.objects (claimCheckKey t e) = some p.stringify
  | .replaying source => ∀ s, source = some s → w.SourceOk s
  | _ => True

variable {w w' : Records}

/-! ## Facts last -/

theorem MessageOk.mono (h : Forward w w') {m : Message} (hm : w.MessageOk m) :
    w'.MessageOk m := by
  obtain ⟨hlt, huniq, e, he, hbody⟩ := hm
  refine ⟨lt_of_lt_of_le hlt h.numbers, fun m' hm' hid => ?_, e, h.events e he, hbody⟩
  rcases h.queue m' hm' with hold | hnew
  · exact huniq m' hold hid
  · -- a new message has a number of its own
    rw [hnew] at hid
    exact absurd hid (ne_of_gt hlt)

theorem Handling.mono (h : Forward w w') {m : Message} {q : QueueMessage}
    (hq : w.Handling m q) : w'.Handling m q :=
  ⟨hq.1.mono h, hq.2⟩

theorem RowOk.mono (h : Forward w w') {q : QueueMessage} {d : Delivery} (hd : w.RowOk q d) :
    w'.RowOk q d := by
  obtain ⟨hev, hten, d₁, hd₁, hid₁, hev₁, hten₁⟩ := hd
  obtain ⟨d₂, hd₂, hid₂, hev₂, hten₂⟩ := h.deliveries d₁ hd₁
  exact ⟨hev, hten, d₂, hd₂, hid₂.trans hid₁, hev₂.trans hev₁, hten₂.trans hten₁⟩

theorem AttemptOk.mono (h : Forward w w') {q : QueueMessage} {text : Option JsString} {a : Bool}
    (ha : w.AttemptOk q text a) : w'.AttemptOk q text a := by
  refine ⟨fun x hx => ?_, fun harch => ?_⟩
  · obtain ⟨key, hkey, hobj⟩ := ha.1 x hx
    exact ⟨key, hkey, h.objects _ _ hobj⟩
  · exact ⟨(ha.2 harch).1, h.objects _ _ (ha.2 harch).2⟩

theorem SourceOk.mono (h : Forward w w') {s : ReplaySource} (hs : w.SourceOk s) :
    w'.SourceOk s := by
  obtain ⟨hev, hten, hne, ⟨d, hd, hid, hdev⟩, p, hp, hobj⟩ := hs
  obtain ⟨d', hd', hid', hdev', -⟩ := h.deadLetters d hd
  exact ⟨h.events _ hev, hten, hne, ⟨d', hd', hid'.trans hid, hdev'.trans hdev⟩, p,
    h.carries hp, h.objects _ _ hobj⟩

/-- The outbox row a publisher works on keeps its event. -/
theorem Forward.outboxRow (h : Forward w w') {id eventId : JsString}
    (hrow : (∃ o ∈ w.outbox, o.id = id) ∧ ∀ o ∈ w.outbox, o.id = id → o.eventId = eventId) :
    (∃ o ∈ w'.outbox, o.id = id) ∧ ∀ o ∈ w'.outbox, o.id = id → o.eventId = eventId := by
  obtain ⟨⟨o, ho, hid⟩, hall⟩ := hrow
  constructor
  · obtain ⟨o', ho', hid'⟩ := h.outboxKept o ho
    exact ⟨o', ho', hid'.trans hid⟩
  · intro x hx hxid
    rcases h.outbox x hx with ⟨x', hx', hxid', hxev⟩ | hfresh
    · rw [← hxev]
      exact hall x' hx' (hxid'.trans hxid)
    · exact absurd (hid.trans hxid.symm) (hfresh o ho)

/-- **Facts last**, whatever anybody does. -/
theorem PhaseFacts.mono (h : Forward w w') {φ : Phase} (hφ : w.PhaseFacts φ) :
    w'.PhaseFacts φ := by
  cases φ with
  | start m => exact MessageOk.mono h hφ
  | read m raw => exact MessageOk.mono h hφ
  | poison m => exact hφ
  | admitted m st q => exact Handling.mono h hφ
  | checking m st q => exact Handling.mono h hφ
  | due m st q e => exact Handling.mono h hφ
  | settled m q d => exact ⟨hφ.1.mono h, h.finished hφ.2⟩
  | upserting m q found => exact ⟨hφ.1.mono h, fun d hd => (hφ.2 d hd).mono h⟩
  | trying m q d p x a => exact ⟨hφ.1.mono h, hφ.2.1.mono h, hφ.2.2.mono h⟩
  | buried m q d => exact ⟨hφ.1.mono h, hφ.2.1.mono h, h.buried _ hφ.2.2⟩
  | accepted m q d => exact ⟨hφ.1.mono h, hφ.2.1.mono h, h.accepted _ hφ.2.2⟩
  | complete m q d => exact ⟨hφ.1.mono h, h.finished hφ.2⟩
  | publishing row event => exact ⟨h.events _ hφ.1, h.outboxRow hφ.2⟩
  | sent row event => exact ⟨h.handed _ hφ.1, h.outboxRow hφ.2⟩
  | drafted t ty p e => exact h.drafts _ hφ
  | uploaded t ty p e => exact ⟨h.drafts _ hφ.1, h.objects _ _ hφ.2⟩
  | replaying source => exact fun s hs => (hφ s hs).mono h
  | _ => trivial

/-! ## First uses of facts -/

/-- The event a handler works for. -/
theorem Handling.event {m : Message} {q : QueueMessage} (h : w.Handling m q) :
    ∃ e ∈ w.events, q = queueMessage e := by
  obtain ⟨⟨-, -, e, he, hbody⟩, hq⟩ := h
  rw [hbody, parseQueueMessage_messageBody] at hq
  exact ⟨e, he, (Option.some.inj hq).symm⟩

/-- A message that is deleted once its event is finished. -/
theorem Handling.finished {m : Message} {q : QueueMessage} (h : w.Handling m q)
    (hf : w.Finished q.eventId) :
    ∀ m' ∈ w.queue, m'.id = m.id → ∀ q', parseQueueMessage m'.body = some q' →
      w.Finished q'.eventId := by
  intro m' hm' hid q' hq'
  rw [h.1.2.1 m' hm' hid, h.2] at hq'
  exact Option.some.inj hq' ▸ hf

/-- The payload of a message without a key is the event's. -/
theorem carries_inline {e : Event} (hk : truthyKey e.payloadS3Key = none) :
    w.Carries e (e.payload.getD .null) ∧ (queueMessage e).payload = e.payload.getD .null := by
  unfold Carries queueMessage
  rw [hk]
  exact ⟨rfl, rfl⟩

/-- What a handler is about to post is the event's payload. -/
theorem AttemptOk.carries (h : Sound w) {e : Event} (he : e ∈ w.events) {text : Option JsString}
    {a : Bool} (ha : w.AttemptOk (queueMessage e) text a) {payload : Json}
    (hp : payloadOf (queueMessage e) text = some payload) : w.Carries e payload := by
  have hkey : (queueMessage e).payloadS3Key = e.payloadS3Key := rfl
  unfold payloadOf at hp
  rw [hkey] at hp
  cases hk : truthyKey e.payloadS3Key with
  | none =>
      rw [hk] at hp
      obtain ⟨hcar, hpay⟩ := carries_inline (w := w) hk
      rw [Option.some.injEq, hpay] at hp
      exact hp ▸ hcar
  | some key =>
      rw [hk, Option.bind_eq_some_iff] at hp
      obtain ⟨x, hx, hparse⟩ := hp
      obtain ⟨key', hkey', hobj⟩ := ha.1 x hx
      rw [hkey, hk, Option.some.injEq] at hkey'
      obtain ⟨p, hcar⟩ := h.carries e he
      have hstored : w.objects key = some p.stringify := by
        have := hcar
        unfold Carries at this
        rwa [hk] at this
      rw [← hkey', hstored, Option.some.injEq] at hobj
      rw [← hobj, Json.parse_stringify, Option.some.injEq] at hparse
      exact hparse ▸ hcar

/-- What a handler buries has its payload archived. -/
theorem Buriable.of_attempt (h : Sound w) {e : Event} (he : e ∈ w.events)
    {text : Option JsString} {a : Bool} (ha : w.AttemptOk (queueMessage e) text a)
    (hready : (truthyKey (queueMessage e).payloadS3Key).isSome ∨ a = true) {d : Delivery}
    (hd : w.RowOk (queueMessage e) d) (url error : JsString) :
    w.Buriable (deadLetterOf d url error (keyOf (queueMessage e))) := by
  have hkey : (queueMessage e).payloadS3Key = e.payloadS3Key := rfl
  obtain ⟨hev, hten, d', hd', hid', hev', -⟩ := hd
  refine ⟨⟨e, he, hev.symm, hten.symm, ?_⟩, d', hd', hid', hev'⟩
  unfold keyOf deadLetterOf
  simp only
  rw [hkey] at hready ⊢
  cases hk : truthyKey e.payloadS3Key with
  | some key =>
      obtain ⟨p, hcar⟩ := h.carries e he
      refine ⟨(truthyKey_some hk).2, p, hcar, ?_⟩
      unfold Carries at hcar
      rwa [hk] at hcar
  | none =>
      rw [hk] at hready
      have harch : a = true := hready.resolve_left (by simp)
      obtain ⟨hcar, hpay⟩ := carries_inline (w := w) hk
      refine ⟨archiveKey_ne_nil _, _, hcar, ?_⟩
      rw [← hpay]
      exact (ha.2 harch).2

/-! ## An operation keeps the records sound -/

section

variable {env : Env} {w w' : World} {c : Choice} {φ : Phase} {op : Op}

/-- The records are sound, and nothing was undone. -/
def SoundAfter (w : World) (x : Records) : Prop := Sound x ∧ Forward w.toRecords x

theorem soundAfter_same (h : Sound w.toRecords) : SoundAfter w w.toRecords :=
  ⟨h, Forward.refl _⟩

/-- An operation had its effect on the records, or none. -/
theorem exec_records {P : Records → Prop} {r : Except JsError op.Res}
    (hexec : w.exec op c = some (r, w')) (hatt : (w.attempted op).toRecords = w.toRecords)
    (hsame : P w.toRecords) (happly : P (w.apply op c).2.toRecords) : P w'.toRecords := by
  rcases World.exec_world hexec with rfl | ⟨rfl, -⟩
  · exact happly
  · rw [hatt]
    exact hsame

/-- Drawing an identifier. -/
theorem soundAfter_newEventId (h : Sound w.toRecords) {t ty : JsString} {p : Json}
    (hpos : w.possible (.newEventId t ty p) c = true) :
    SoundAfter w (w.apply (.newEventId t ty p) c).2.toRecords := by
  have hfree : w.eventIdFree c.id = true := hpos
  simp only [World.eventIdFree, Bool.and_eq_true, beq_iff_eq, List.all_eq_true, bne_iff_ne]
    at hfree
  exact h.newDraft hfree.1.1 hfree.1.2 hfree.2

/-- Creating a delivery row. -/
theorem soundAfter_createDelivery (h : Sound w.toRecords) {q : QueueMessage} {t : ℚ}
    (hevent : ∃ e ∈ w.events, q = queueMessage e)
    (hpos : w.possible
      (.createDelivery (inFlightDelivery q.eventId q.tenantId env.receiverUrl t)) c = true) :
    SoundAfter w
      (w.apply (.createDelivery (inFlightDelivery q.eventId q.tenantId env.receiverUrl t))
        c).2.toRecords := by
  have hfresh : ∀ d ∈ w.deliveries, d.id ≠ c.id := by
    simpa [World.possible] using hpos
  obtain ⟨e, he, rfl⟩ := hevent
  simp only [World.apply, World.createDelivery]
  split_ifs
  · exact h.newDelivery hfresh ⟨e, he, rfl, rfl⟩ rfl
  · exact soundAfter_same h

/-- Updating a delivery row. -/
theorem soundAfter_updateDelivery (h : Sound w.toRecords) {q : QueueMessage} {d : Delivery}
    {data : DeliveryData} (hd : w.RowOk q d)
    (hsucceeded : data.status = .succeeded → w.Accepted q.eventId)
    (hdead : data.status = .deadLettered → w.Buried q.eventId) :
    SoundAfter w (w.apply (.updateDelivery d.id data) c).2.toRecords := by
  obtain ⟨hev, -, d', hd', hid', hev', -⟩ := hd
  have hall : ∀ x ∈ w.deliveries, x.id = d.id → x.eventId = q.eventId := by
    intro x hx hxid
    rw [h.deliveriesUnique x hx d' hd' (hxid.trans hid'.symm), hev', hev]
  simp only [World.apply, World.updateDelivery]
  cases w.deliveryById d.id with
  | none => exact soundAfter_same h
  | some _ =>
      exact h.updateDelivery (fun x hx hxid hs => hall x hx hxid ▸ hsucceeded hs)
        (fun x hx hxid hs => hall x hx hxid ▸ hdead hs)

/-- Recording a dead letter. -/
theorem soundAfter_upsertDeadLetter (h : Sound w.toRecords) {input : NewDeadLetter}
    (hin : w.Buriable input) (hpos : w.possible (.upsertDeadLetter input) c = true) :
    SoundAfter w (w.apply (.upsertDeadLetter input) c).2.toRecords := by
  have hfresh : ∀ d ∈ w.deadLetters, d.id ≠ c.id := by
    simpa [World.possible] using hpos
  simp only [World.apply, World.upsertDeadLetter]
  cases w.deadLetters.find? (fun d => d.deliveryId == input.deliveryId) with
  | some _ => exact h.refreshDeadLetter hin
  | none =>
      simp only
      split_ifs
      · exact h.newDeadLetter hin hfresh rfl rfl rfl rfl
      · exact soundAfter_same h

/-- Committing an event that was drafted. -/
theorem soundAfter_createEvent (h : Sound w.toRecords) {t ty e : JsString} {p : Json}
    {stored : StoredIn}
    (hdraft : { eventId := e, tenantId := t, type := ty, payload := p } ∈ w.drafts)
    (hstored : stored = .s3 → w.objects (claimCheckKey t e) = some p.stringify)
    (hpos : w.possible (.createEvent (eventRecord t ty e p stored)) c = true) :
    SoundAfter w (w.apply (.createEvent (eventRecord t ty e p stored)) c).2.toRecords := by
  have hfresh : ∀ o ∈ w.outbox, o.id ≠ c.outboxId := by
    simpa [World.possible] using hpos
  have hfields : (eventRecord t ty e p stored).id = e ∧
      (eventRecord t ty e p stored).tenantId = t ∧ (eventRecord t ty e p stored).type = ty := by
    cases stored <;> exact ⟨rfl, rfl, rfl⟩
  have hcarries : w.Carries
      { id := (eventRecord t ty e p stored).id
        tenantId := (eventRecord t ty e p stored).tenantId
        type := (eventRecord t ty e p stored).type
        payload := (eventRecord t ty e p stored).payload
        payloadS3Key := (eventRecord t ty e p stored).payloadS3Key } p := by
    cases stored with
    | postgres =>
        change (dbPayload p).getD .null = p
        cases p <;> rfl
    | s3 =>
        unfold Carries
        simp only [eventRecord, truthyKey_of_ne (claimCheckKey_ne_nil t e)]
        exact hstored rfl
  simp only [World.apply, World.createEvent]
  split_ifs with hold htenant
  · exact soundAfter_same h
  · have hnew : ∀ e' ∈ w.events, e'.id ≠ (eventRecord t ty e p stored).id := by
      simpa using hold
    refine h.addEvent hnew ⟨p, hcarries⟩ ?_ ⟨rfl, rfl⟩ hfresh fun r hr => .inl hr
    intro d hd hid
    have hd' : d = { eventId := e, tenantId := t, type := ty, payload := p } :=
      h.draftsUnique d hd _ hdraft (hid.symm.trans hfields.1)
    subst hd'
    exact ⟨hfields.2.1, hfields.2.2, hcarries⟩
  · exact soundAfter_same h

/-- Committing a replay. -/
theorem soundAfter_insertReplay (h : Sound w.toRecords) {input : ReplayInput}
    {source : ReplaySource} (hs : w.SourceOk source)
    (hpos : w.possible (.insertReplay (newReplay input source)) c = true) :
    SoundAfter w (w.apply (.insertReplay (newReplay input source)) c).2.toRecords := by
  simp only [World.possible, Bool.and_eq_true, List.all_eq_true, bne_iff_ne, World.eventIdFree,
    beq_iff_eq] at hpos
  obtain ⟨⟨⟨⟨-, hdrafts⟩, hevents⟩, houtbox⟩, -⟩ := hpos
  obtain ⟨hev, hten, hne, ⟨d, hd, hdid, hdev⟩, p, hcar, hobj⟩ := hs
  simp only [World.apply, World.insertReplay]
  cases w.deadLetters.find? (fun x => x.id == (newReplay input source).sourceDeadLetterId) with
  | none => exact soundAfter_same h
  | some found =>
      simp only
      split_ifs with htenants hused
      · exact soundAfter_same h
      · have hcarries : w.Carries
            { id := c.id, tenantId := (newReplay input source).eventTenantId
              type := (newReplay input source).eventType, payload := none
              payloadS3Key := some (newReplay input source).payloadS3Key } p := by
          unfold Carries
          simp only [newReplay, truthyKey_of_ne hne]
          exact hobj
        refine h.addEvent hevents ⟨p, hcarries⟩ (fun x hx hid => absurd hid.symm (hdrafts x hx))
          ⟨rfl, rfl⟩ houtbox ?_
        refine List.forall_mem_cons.mpr ⟨.inr ?_, fun r hr => .inl hr⟩
        exact ⟨d, hd, hdid, source.event, hev, hdev.symm, rfl, hten.symm, rfl, p, hcar, hcarries⟩
      · exact soundAfter_same h

/-- Uploading a claim check. -/
theorem soundAfter_upload (h : Sound w.toRecords) {t ty e : JsString} {p : Json}
    (hdraft : { eventId := e, tenantId := t, type := ty, payload := p } ∈ w.drafts) :
    SoundAfter w (w.toRecords.storeObject (claimCheckKey t e) p.stringify) := by
  have hlen : e.length = 36 := h.draftLength _ hdraft
  refine h.storeObject ?_ ?_ ?_
  · intro text htext
    obtain ⟨d, hd, hid, hpay⟩ := h.claimChecks t e text hlen htext
    rw [hpay, h.draftsUnique d hd _ hdraft hid]
  · intro t' id hid hkey
    exact ⟨_, hdraft, (claimCheckKey_inj hid hlen hkey).2.symm, rfl⟩
  · exact fun id hkey => absurd hkey (archiveKey_ne_claimCheckKey id t e)

/-- Archiving a payload. -/
theorem soundAfter_archive (h : Sound w.toRecords) {e : Event} (he : e ∈ w.events)
    (hk : truthyKey (queueMessage e).payloadS3Key = none) :
    SoundAfter w (w.toRecords.storeObject (archiveKey (queueMessage e).eventId)
      (queueMessage e).payload.stringify) := by
  have hkey : truthyKey e.payloadS3Key = none := hk
  have hpay := (carries_inline (w := w.toRecords) hkey).2
  refine h.storeObject ?_ ?_ ?_
  · intro text htext
    obtain ⟨e', he', hid, -, htext'⟩ := h.archives e.id text htext
    rw [htext', h.eventsUnique e' he' e he hid, hpay]
  · exact fun t id _ hkey => absurd hkey.symm (archiveKey_ne_claimCheckKey _ t id)
  · intro id hid
    exact ⟨e, he, (archiveKey_inj hid).symm, hkey, by rw [hpay]⟩

/-- Deleting the message of a finished event. -/
theorem soundAfter_delete (h : Sound w.toRecords) {m : Message} {q : QueueMessage}
    (hq : w.Handling m q) (hf : w.Finished q.eventId) :
    SoundAfter w (w.apply (.deleteMessage m.id) c).2.toRecords :=
  h.dequeue (hq.finished hf)

/-- Posting a webhook, whatever the receiver answers. -/
theorem soundAfter_post (h : Sound w.toRecords) {q : QueueMessage} {text : Option JsString}
    {a : Bool} {payload : Json} (hevent : ∃ e ∈ w.events, q = queueMessage e)
    (ha : w.AttemptOk q text a) (hp : payloadOf q text = some payload)
    (url signature : JsString) (redirects : List ℕ) (answer : Option ℕ) :
    SoundAfter w
      (w.post url (webhookBody q payload).stringify signature redirects answer).toRecords := by
  obtain ⟨e, he, rfl⟩ := hevent
  exact h.addPost ⟨e, he, payload, ha.carries h he hp, rfl⟩

/-- **Allowed operations keep the records sound.** -/
theorem step_sound (h : Sound w.toRecords) (hφ : w.PhaseFacts φ) (hallow : Allows env φ op)
    {r : Except JsError op.Res} (hexec : w.exec op c = some (r, w')) :
    SoundAfter w w'.toRecords := by
  have hpos := World.possible_of_exec hexec
  -- most operations write no record
  by_cases hsilent : op.isSilent = true
  · rw [World.records_of_silent hsilent hexec]
    exact soundAfter_same h
  have hsame := soundAfter_same h
  cases hallow with
  | poisonDelete => exact absurd hφ not_false
  | settledDelete => exact exec_records hexec rfl hsame (soundAfter_delete h hφ.1 hφ.2)
  | completeDelete => exact exec_records hexec rfl hsame (soundAfter_delete h hφ.1 hφ.2)
  | upsertUpdate =>
      exact exec_records hexec rfl hsame (soundAfter_updateDelivery h (hφ.2 _ rfl)
        (fun hs => nomatch hs) (fun hs => nomatch hs))
  | upsertCreate =>
      exact exec_records hexec rfl hsame (soundAfter_createDelivery h hφ.1.event hpos)
  | fetch hp =>
      -- the post is recorded whether or not its answer arrives
      rcases World.exec_world hexec with rfl | ⟨rfl, -⟩
      · exact soundAfter_post h hφ.1.event hφ.2.2 hp _ _ _ _
      · exact soundAfter_post h hφ.1.event hφ.2.2 hp _ _ _ _
  | retry =>
      exact exec_records hexec rfl hsame (soundAfter_updateDelivery h hφ.2.1
        (fun hs => nomatch hs) (fun hs => nomatch hs))
  | archive hk =>
      obtain ⟨e, he, rfl⟩ := hφ.1.event
      exact exec_records hexec rfl hsame (soundAfter_archive h he hk)
  | bury hready =>
      obtain ⟨e, he, rfl⟩ := hφ.1.event
      exact exec_records hexec rfl hsame (soundAfter_upsertDeadLetter h
        (Buriable.of_attempt h he hφ.2.2 hready hφ.2.1 _ _) hpos)
  | markDead =>
      exact exec_records hexec rfl hsame (soundAfter_updateDelivery h hφ.2.1
        (fun hs => nomatch hs) (fun _ => hφ.2.2))
  | markDone =>
      exact exec_records hexec rfl hsame (soundAfter_updateDelivery h hφ.2.1
        (fun _ => hφ.2.2) (fun hs => nomatch hs))
  | send => exact exec_records hexec rfl hsame (h.enqueue ⟨_, hφ.1, rfl⟩)
  | publish =>
      exact exec_records hexec rfl hsame (h.markPublished fun o ho hid =>
        (hφ.2.2 o ho hid).symm ▸ hφ.1)
  | draft => exact exec_records hexec rfl hsame (soundAfter_newEventId h hpos)
  | upload => exact exec_records hexec rfl hsame (soundAfter_upload h hφ)
  | commitInline =>
      exact exec_records hexec rfl hsame
        (soundAfter_createEvent h hφ (fun hs => nomatch hs) hpos)
  | commitUploaded =>
      exact exec_records hexec rfl hsame (soundAfter_createEvent h hφ.1 (fun _ => hφ.2) hpos)
  | commitReplay =>
      exact exec_records hexec rfl hsame (soundAfter_insertReplay h (hφ _ rfl) hpos)
  | _ => exact absurd rfl hsilent

/-! ## Its answer establishes the next facts -/

/-- Any of several rows is one of them. -/
theorem mem_of_pickFrom {α : Type} {rows : List α} {n : ℕ} {a : α}
    (h : World.pickFrom rows n = some a) : a ∈ rows :=
  List.mem_of_getElem? h

/-- A delivery row a query returns belongs to the event it asked for. -/
theorem found_delivery {eventId url : JsString} {d : Delivery}
    (hexec : w.exec (.findDelivery eventId url) c = some (.ok (some d), w')) :
    d ∈ w.deliveries ∧ d.eventId = eventId ∧ d.targetUrl = url ∧ w' = w := by
  have happly : (Except.ok (World.pickFrom (w.rowsFor eventId url) c.pick), w) =
      (Except.ok (some d), w') := World.exec_ok hexec
  rw [Prod.mk.injEq, Except.ok.injEq] at happly
  have hmem := mem_of_pickFrom happly.1
  simp only [World.rowsFor, List.mem_filter, Bool.and_eq_true, beq_iff_eq] at hmem
  exact ⟨hmem.1, hmem.2.1, hmem.2.2, happly.2.symm⟩

/-- After the circuit's decision: a message that was published is no poison. -/
theorem facts_afterDecision {x : Records} {m : Message} {decision : CircuitDecision}
    (hm : x.MessageOk m) : x.PhaseFacts (afterDecision m decision) := by
  obtain ⟨e, he, hbody⟩ := hm.2.2
  have hparse : parseQueueMessage m.body = some (queueMessage e) := by
    rw [hbody, parseQueueMessage_messageBody]
  unfold afterDecision
  rw [hparse]
  split_ifs
  · exact ⟨hm, hparse⟩
  · exact trivial

/-- A complete delivery is a finished event. -/
theorem finished_of_terminal {x : Records} (h : Sound x) {d : Delivery} (hd : d ∈ x.deliveries)
    (hterm : d.status.terminal = true) : x.Finished d.eventId := by
  cases hs : d.status with
  | succeeded => exact .inl (h.succeeded d hd hs)
  | deadLettered => exact .inr (h.deadLettered d hd hs)
  | pending => rw [hs] at hterm; cases hterm
  | inFlight => rw [hs] at hterm; cases hterm
  | failed => rw [hs] at hterm; cases hterm

/-- After the look at the delivery row: a complete delivery is a finished event. -/
theorem facts_afterCheck (h : Sound w.toRecords) {m : Message} {st : CircuitState}
    {q : QueueMessage} (hq : w.Handling m q) {url : JsString} {existing : Option Delivery}
    (hexec : w.exec (.findDelivery q.eventId url) c = some (.ok existing, w')) :
    w'.PhaseFacts (afterCheck m st q existing) := by
  have hw : w' = w := (congrArg Prod.snd (World.exec_ok hexec)).symm
  subst hw
  cases existing with
  | none => exact hq
  | some d =>
      obtain ⟨hd, hev, -, -⟩ := found_delivery hexec
      unfold afterCheck
      by_cases hterm : d.status.terminal = true
      · simp only [hterm, if_true]
        exact ⟨hq, hev ▸ finished_of_terminal h hd hterm⟩
      · simp only [hterm]
        exact hq

/-- A row found for the event of a message. -/
theorem rowOk_of_found (h : Sound w.toRecords) {m : Message} {q : QueueMessage}
    (hq : w.Handling m q) {d : Delivery} (hd : d ∈ w.deliveries) (hev : d.eventId = q.eventId) :
    w.RowOk q d := by
  obtain ⟨e, he, rfl⟩ := hq.event
  obtain ⟨e', he', hid, hten⟩ := h.delivered d hd
  refine ⟨hev, ?_, d, hd, rfl, rfl, rfl⟩
  rw [← hten, h.eventsUnique e' he' e he (hid.trans hev)]
  rfl

/-- The row `upsertInFlight` updated. -/
theorem rowOk_of_updated (h : Sound w.toRecords) {q : QueueMessage} {d row : Delivery}
    {data : DeliveryData} (hd : w.RowOk q d)
    (hexec : w.exec (.updateDelivery d.id data) c = some (.ok row, w')) :
    w'.RowOk q row := by
  obtain ⟨hev, hten, d', hd', hid', hev', hten'⟩ := hd
  have happly : w.updateDelivery d.id data = (.ok row, w') := World.exec_ok hexec
  unfold World.updateDelivery at happly
  cases hfind : w.deliveryById d.id with
  | none =>
      rw [hfind] at happly
      cases congrArg Prod.fst happly
  | some x =>
      rw [hfind, Prod.mk.injEq, Except.ok.injEq] at happly
      obtain ⟨rfl, rfl⟩ := happly
      have hx : x ∈ w.deliveries := List.mem_of_find?_eq_some hfind
      have hxid : x.id = d.id := by simpa using List.find?_some hfind
      obtain rfl : x = d' := h.deliveriesUnique x hx d' hd' (hxid.trans hid'.symm)
      refine ⟨hev'.trans hev, hten'.trans hten, data.apply x, ?_, rfl, rfl, rfl⟩
      exact List.mem_map.mpr ⟨x, hx, by rw [if_pos hxid]⟩

/-- The row `upsertInFlight` created. -/
theorem rowOk_of_created {q : QueueMessage} {url : JsString} {t : ℚ} {row : Delivery}
    (hexec : w.exec (.createDelivery (inFlightDelivery q.eventId q.tenantId url t)) c =
      some (.ok row, w')) : w'.RowOk q row := by
  have happly : w.createDelivery (inFlightDelivery q.eventId q.tenantId url t) c.id =
      (.ok row, w') := World.exec_ok hexec
  unfold World.createDelivery at happly
  split_ifs at happly
  · rw [Prod.mk.injEq, Except.ok.injEq] at happly
    obtain ⟨rfl, rfl⟩ := happly
    exact ⟨rfl, rfl, _, List.mem_cons_self, rfl, rfl, rfl⟩
  · cases congrArg Prod.fst happly

/-- A dead letter that was just recorded. -/
theorem buried_of_upserted (h : Sound w'.toRecords) {input : NewDeadLetter} {d : DeadLetter}
    (hexec : w.exec (.upsertDeadLetter input) c = some (.ok d, w'))
    (hsame : ∀ x ∈ w.deadLetters, x.deliveryId = input.deliveryId → x.eventId = input.eventId) :
    w'.Buried input.eventId := by
  have hmem : d ∈ w'.deadLetters ∧ d.eventId = input.eventId := by
    have happly : w.upsertDeadLetter input c.id = (.ok d, w') := World.exec_ok hexec
    unfold World.upsertDeadLetter at happly
    cases hfind : w.deadLetters.find? (fun d => d.deliveryId == input.deliveryId) with
    | some x =>
        rw [hfind, Prod.mk.injEq, Except.ok.injEq] at happly
        obtain ⟨rfl, rfl⟩ := happly
        have hx : x ∈ w.deadLetters := List.mem_of_find?_eq_some hfind
        have hxid : x.deliveryId = input.deliveryId := by simpa using List.find?_some hfind
        exact ⟨List.mem_map.mpr ⟨x, hx, by rw [if_pos hxid]⟩, hsame x hx hxid⟩
    | none =>
        rw [hfind] at happly
        simp only at happly
        split_ifs at happly
        · rw [Prod.mk.injEq, Except.ok.injEq] at happly
          obtain ⟨rfl, rfl⟩ := happly
          exact ⟨List.mem_cons_self, rfl⟩
        · cases congrArg Prod.fst happly
  obtain ⟨-, -, -, -, -, p, -, hobj⟩ := h.archived d hmem.1
  exact ⟨d, hmem.1, hmem.2, Option.isSome_iff_exists.mpr ⟨_, hobj⟩⟩

/-- A dead letter a replay has read. -/
theorem sourceOk_of_found (h : Sound w.toRecords) {t id : JsString} {source : ReplaySource}
    (hexec : w.exec (.findReplaySource t id) c = some (.ok (some source), w')) :
    w'.SourceOk source := by
  have happly : (Except.ok ((w.deadLetters.find? (fun d => d.tenantId == t && d.id == id)).bind
      w.sourceOf), w) = (Except.ok (some source), w') := World.exec_ok hexec
  rw [Prod.mk.injEq, Except.ok.injEq, Option.bind_eq_some_iff] at happly
  obtain ⟨⟨d, hfind, hsource⟩, rfl⟩ := happly
  simp only [World.sourceOf, Option.bind_eq_bind, Option.bind_eq_some_iff, Option.pure_def,
    Option.some.injEq] at hsource
  obtain ⟨event, hevent, delivery, -, rfl⟩ := hsource
  have hd : d ∈ w.deadLetters := List.mem_of_find?_eq_some hfind
  have he : event ∈ w.events := List.mem_of_find?_eq_some hevent
  have heid : event.id = d.eventId := by simpa using List.find?_some hevent
  obtain ⟨e', he', hid', hten, hne, p, hcar, hobj⟩ := h.archived d hd
  obtain rfl : e' = event := h.eventsUnique e' he' event he (hid'.trans heid.symm)
  exact ⟨he, hten, hne, ⟨d, hd, rfl, heid.symm⟩, p, hcar, hobj⟩

/-- At the start of an attempt nothing is loaded or archived. -/
theorem attemptOk_start {x : Records} {q : QueueMessage} : x.AttemptOk q none false :=
  ⟨fun _ hx => (nomatch hx), fun harch => (nomatch harch)⟩

/-- A webhook the receiver accepted. -/
theorem accepted_of_posted {q : QueueMessage} {payload : Json} {url signature : JsString}
    {status : ℕ} (hstatus : statusOk status = true)
    (hexec : w.exec (.fetch url (webhookBody q payload).stringify signature) c =
      some (.ok status, w')) : w'.Accepted q.eventId := by
  have happly : (Except.ok c.status, w.post url (webhookBody q payload).stringify signature
      c.redirects (some c.status)) = (Except.ok status, w') := World.exec_ok hexec
  rw [Prod.mk.injEq, Except.ok.injEq] at happly
  obtain ⟨rfl, rfl⟩ := happly
  exact ⟨_, List.mem_cons_self, postedEvent_webhookBody q payload, _, rfl, hstatus⟩

/-- An object that was uploaded. -/
theorem object_of_put {key body : JsString} {u : Unit}
    (hexec : w.exec (.putObject key body) c = some (.ok u, w')) :
    w'.objects key = some body := by
  have hw : { w with objects := Function.update w.objects key (some body) } = w' :=
    congrArg Prod.snd (World.exec_ok hexec)
  rw [← hw]
  exact Function.update_self ..

/-- An object that was loaded. -/
theorem object_of_get {key : JsString} {x : Option JsString}
    (hexec : w.exec (.getObject key) c = some (.ok x, w')) :
    ∀ text, x = some text → w'.objects key = some text := by
  have happly : w.apply (.getObject key) c = (.ok x, w') := World.exec_ok hexec
  unfold World.apply at happly
  intro text htext
  cases hobj : w.objects key with
  | none =>
      simp only [hobj] at happly
      cases congrArg Prod.fst happly
  | some y =>
      simp only [hobj] at happly
      have hw : w = w' := congrArg Prod.snd happly
      have hx : some y = x := Except.ok.inj (congrArg Prod.fst happly)
      rw [← hw, hobj, hx, htext]

/-- An identifier that was drawn. -/
theorem draft_of_drawn {t ty id : JsString} {p : Json}
    (hexec : w.exec (.newEventId t ty p) c = some (.ok id, w')) :
    { eventId := id, tenantId := t, type := ty, payload := p } ∈ w'.drafts := by
  have hw : { w with drafts :=
      { eventId := c.id, tenantId := t, type := ty, payload := p } :: w.drafts } = w' :=
    congrArg Prod.snd (World.exec_ok hexec)
  have hid : c.id = id := Except.ok.inj (congrArg Prod.fst (World.exec_ok hexec))
  rw [← hw, ← hid]
  exact List.mem_cons_self

/-- A message that was sent. -/
theorem handed_of_sent {event : Event} {groupId : JsString} {u : Unit}
    (hexec : w.exec (.sendMessage groupId (messageBody event)) c = some (.ok u, w')) :
    w'.Handed event.id := by
  have hw : w.sendMessage groupId (messageBody event) = w' :=
    congrArg Prod.snd (World.exec_ok hexec)
  rw [← hw]
  exact .inl ⟨_, List.mem_cons_self, _, parseQueueMessage_messageBody event, rfl⟩

/-- **An answer establishes the facts of the next phase.** -/
theorem step_facts (h : Sound w.toRecords) (hφ : w.PhaseFacts φ) (hallow : Allows env φ op)
    {r : Except JsError op.Res} (hexec : w.exec op c = some (r, w')) :
    w'.PhaseFacts (φ.next op r) := by
  obtain ⟨hsound, hfwd⟩ := step_sound h hφ hallow hexec
  have hmono : w'.PhaseFacts φ := hφ.mono hfwd
  cases hallow with
  -- the facts of before still hold; what is new comes from the answer
  | readCircuit => cases r <;> first | exact hmono | exact trivial
  | decide => cases r <;> first | exact trivial | exact facts_afterDecision hmono
  | limit =>
      cases r with
      | error e => trivial
      | ok result =>
          change w'.PhaseFacts (if result.1 = 1 then _ else _)
          split_ifs
          · exact hmono
          · trivial
  | check =>
      cases r with
      | error e => trivial
      | ok existing => exact facts_afterCheck h hφ hexec
  | look =>
      cases r with
      | error e => trivial
      | ok found =>
          have hw : w' = w := (congrArg Prod.snd (World.exec_ok hexec)).symm
          subst hw
          refine ⟨hφ, fun d hd => ?_⟩
          subst hd
          obtain ⟨hmem, hev, -, -⟩ := found_delivery hexec
          exact rowOk_of_found h hφ hmem hev
  | upsertUpdate =>
      cases r with
      | error e => trivial
      | ok row => exact ⟨hmono.1, rowOk_of_updated h (hφ.2 _ rfl) hexec, attemptOk_start⟩
  | upsertCreate =>
      cases r with
      | error e => trivial
      | ok row => exact ⟨hmono.1, rowOk_of_created hexec, attemptOk_start⟩
  | load hk =>
      cases r with
      | error e => exact hmono
      | ok body =>
          exact ⟨hmono.1, hmono.2.1, fun text htext => ⟨_, hk, object_of_get hexec text htext⟩,
            hmono.2.2.2⟩
  | fetch =>
      cases r with
      | error e => exact hmono
      | ok status =>
          change w'.PhaseFacts (afterPost _ _ _ _ _ status)
          unfold afterPost
          split_ifs with hstatus
          · exact ⟨hmono.1, hmono.2.1, accepted_of_posted hstatus hexec⟩
          · exact hmono
  | archive hk =>
      cases r with
      | error e => trivial
      | ok u => exact ⟨hmono.1, hmono.2.1, hmono.2.2.1, fun _ => ⟨hk, object_of_put hexec⟩⟩
  | @bury m q d p x a e hready =>
      cases r with
      | error e => trivial
      | ok dead =>
          refine ⟨hmono.1, hmono.2.1, ?_⟩
          have hburied := buried_of_upserted hsound hexec fun y hy hdel => ?_
          · exact hφ.2.1.1 ▸ hburied
          · -- the dead letter of the same delivery is for the same event
            obtain ⟨d₁, hd₁, hid₁, hev₁⟩ := h.deadDelivery y hy
            obtain ⟨-, -, d₂, hd₂, hid₂, hev₂, -⟩ := hφ.2.1
            rw [← hev₁, h.deliveriesUnique d₁ hd₁ d₂ hd₂ (by rw [hid₁, hdel, hid₂]; rfl)]
            exact hev₂
  | markDead => cases r <;> first | exact trivial | exact ⟨hmono.1, .inr hmono.2.2⟩
  | markDone => cases r <;> first | exact trivial | exact ⟨hmono.1, .inl hmono.2.2⟩
  | send => cases r <;> first | exact trivial | exact ⟨handed_of_sent hexec, hmono.2⟩
  | draft => cases r <;> first | exact trivial | exact draft_of_drawn hexec
  | upload => cases r <;> first | exact trivial | exact ⟨hmono, object_of_put hexec⟩
  | replaySource =>
      cases r with
      | error e => exact hmono
      | ok source =>
          rintro s rfl
          exact sourceOk_of_found h hexec
  | _ => cases r <;> first | exact hmono | exact trivial

end

end Records
