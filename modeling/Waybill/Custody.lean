/-
# Where an accepted event is

The records are `Sound` when every event can be accounted for: its payload is stored, the
messages, webhook calls, deliveries and dead letters that mention it agree with it, and it
is in somebody's custody (`InCustody`): its outbox row is unpublished, a message for it is
in the queue, a webhook call for it ended with a success, or it is a dead letter with an
archived payload.  A call that followed redirects may end with a success although no POST was
answered with one: whether the receiver has the event is `Delivered`.

The lemmas below say, for every statement the services execute, under which circumstances
the records stay sound, and what about them is never undone (`Forward`).
-/
import Waybill.System

open Worker Publisher Api

namespace Records

/-! ## Accounting for an event -/

/-- The payload of an event, inline or in the bucket. -/
def Carries (w : Records) (e : Event) (payload : Json) : Prop :=
  match truthyKey e.payloadS3Key with
  | some key => w.objects key = some payload.stringify
  | none => e.payload.getD .null = payload

/-- A webhook call for the event has ended with a success. -/
def Accepted (w : Records) (id : JsString) : Prop :=
  ∃ x ∈ w.posts, postedEvent x.body = some id ∧ ∃ s, x.answer = some s ∧ statusOk s = true

/-- The receiver has answered a POST for the event with a success. -/
def Delivered (w : Records) (id : JsString) : Prop :=
  ∃ x ∈ w.posts, postedEvent x.body = some id ∧
    ∃ s, (.post, s) ∈ x.replies ∧ statusOk s = true

/-- There is a dead letter for the event, and its payload is archived. -/
def Buried (w : Records) (id : JsString) : Prop :=
  ∃ d ∈ w.deadLetters, d.eventId = id ∧ (w.objects d.payloadS3Key).isSome

/-- A message for the event is in the queue. -/
def Queued (w : Records) (id : JsString) : Prop :=
  ∃ m ∈ w.queue, ∃ q, parseQueueMessage m.body = some q ∧ q.eventId = id

/-- The outbox row of the event is unpublished. -/
def Unpublished (w : Records) (id : JsString) : Prop :=
  ∃ o ∈ w.outbox, o.eventId = id ∧ o.published = false

/-- The event is finished: accepted, or dead-lettered. -/
def Finished (w : Records) (id : JsString) : Prop := w.Accepted id ∨ w.Buried id

/-- The event has left the outbox safely. -/
def Handed (w : Records) (id : JsString) : Prop := w.Queued id ∨ w.Finished id

/-- The event is accounted for. -/
def InCustody (w : Records) (id : JsString) : Prop := w.Unpublished id ∨ w.Handed id

/-- The event is not lost: its outbox row is unpublished, a message for it is in the queue, the
receiver has answered a POST for it with a success, or its payload is kept with a dead letter. -/
def NotLost (w : Records) (id : JsString) : Prop :=
  w.Unpublished id ∨ w.Queued id ∨ w.Delivered id ∨ w.Buried id

/-- **The accounts.** -/
structure Sound (w : Records) : Prop where
  eventsUnique : ∀ e ∈ w.events, ∀ e' ∈ w.events, e.id = e'.id → e = e'
  draftsUnique : ∀ d ∈ w.drafts, ∀ d' ∈ w.drafts, d.eventId = d'.eventId → d = d'
  deliveriesUnique : ∀ d ∈ w.deliveries, ∀ d' ∈ w.deliveries, d.id = d'.id → d = d'
  deadLettersUnique : ∀ d ∈ w.deadLetters, ∀ d' ∈ w.deadLetters, d.id = d'.id → d = d'
  outboxUnique : ∀ o ∈ w.outbox, ∀ o' ∈ w.outbox, o.id = o'.id → o.eventId = o'.eventId
  messagesUnique : ∀ m ∈ w.queue, ∀ m' ∈ w.queue, m.id = m'.id → m = m'
  messagesNumbered : ∀ m ∈ w.queue, m.id < w.nextMessage
  draftLength : ∀ d ∈ w.drafts, d.eventId.length = 36
  carries : ∀ e ∈ w.events, ∃ p, w.Carries e p
  drafted : ∀ d ∈ w.drafts, ∀ e ∈ w.events, e.id = d.eventId →
    e.tenantId = d.tenantId ∧ e.type = d.type ∧ w.Carries e d.payload
  claimChecks : ∀ t id text, id.length = 36 → w.objects (claimCheckKey t id) = some text →
    ∃ d ∈ w.drafts, d.eventId = id ∧ text = d.payload.stringify
  archives : ∀ id text, w.objects (archiveKey id) = some text →
    ∃ e ∈ w.events, e.id = id ∧ truthyKey e.payloadS3Key = none ∧
      text = (e.payload.getD .null).stringify
  replayed : ∀ r ∈ w.replays, ∃ d ∈ w.deadLetters, d.id = r.sourceDeadLetterId ∧
    ∃ e ∈ w.events, e.id = d.eventId ∧ ∃ e' ∈ w.events, e'.id = r.eventId ∧
      e'.tenantId = e.tenantId ∧ e'.type = e.type ∧ ∃ p, w.Carries e p ∧ w.Carries e' p
  archived : ∀ d ∈ w.deadLetters, ∃ e ∈ w.events, e.id = d.eventId ∧ e.tenantId = d.tenantId ∧
    d.payloadS3Key ≠ [] ∧ ∃ p, w.Carries e p ∧ w.objects d.payloadS3Key = some p.stringify
  deadDelivery : ∀ d ∈ w.deadLetters, ∃ d' ∈ w.deliveries, d'.id = d.deliveryId ∧
    d'.eventId = d.eventId
  delivered : ∀ d ∈ w.deliveries, ∃ e ∈ w.events, e.id = d.eventId ∧ e.tenantId = d.tenantId
  messages : ∀ m ∈ w.queue, ∃ e ∈ w.events, m.body = messageBody e
  posted : ∀ x ∈ w.posts, ∃ e ∈ w.events, ∃ p, w.Carries e p ∧
    x.body = (webhookBody (queueMessage e) p).stringify
  succeeded : ∀ d ∈ w.deliveries, d.status = .succeeded → w.Accepted d.eventId
  deadLettered : ∀ d ∈ w.deliveries, d.status = .deadLettered → w.Buried d.eventId
  custody : ∀ e ∈ w.events, w.InCustody e.id

/-- What is never undone. -/
structure Forward (w w' : Records) : Prop where
  events : ∀ e ∈ w.events, e ∈ w'.events
  drafts : ∀ d ∈ w.drafts, d ∈ w'.drafts
  objects : ∀ key text, w.objects key = some text → w'.objects key = some text
  accepted : ∀ id, w.Accepted id → w'.Accepted id
  buried : ∀ id, w.Buried id → w'.Buried id
  handed : ∀ id, w.Handed id → w'.Handed id
  outbox : ∀ o ∈ w'.outbox, (∃ o' ∈ w.outbox, o'.id = o.id ∧ o'.eventId = o.eventId) ∨
    ∀ o' ∈ w.outbox, o'.id ≠ o.id
  outboxKept : ∀ o ∈ w.outbox, ∃ o' ∈ w'.outbox, o'.id = o.id
  queue : ∀ m ∈ w'.queue, m ∈ w.queue ∨ m.id = w.nextMessage
  numbers : w.nextMessage ≤ w'.nextMessage
  deliveries : ∀ d ∈ w.deliveries, ∃ d' ∈ w'.deliveries, d'.id = d.id ∧
    d'.eventId = d.eventId ∧ d'.tenantId = d.tenantId
  deadLetters : ∀ d ∈ w.deadLetters, ∃ d' ∈ w'.deadLetters, d'.id = d.id ∧
    d'.eventId = d.eventId ∧ d'.tenantId = d.tenantId

theorem Forward.refl (w : Records) : Forward w w where
  events := fun _ h => h
  drafts := fun _ h => h
  objects := fun _ _ h => h
  accepted := fun _ h => h
  buried := fun _ h => h
  handed := fun _ h => h
  outbox := fun o h => .inl ⟨o, h, rfl, rfl⟩
  outboxKept := fun o h => ⟨o, h, rfl⟩
  queue := fun _ h => .inl h
  numbers := le_refl _
  deliveries := fun d h => ⟨d, h, rfl, rfl, rfl⟩
  deadLetters := fun d h => ⟨d, h, rfl, rfl, rfl⟩

/-! ## First consequences -/

variable {w w' : Records}

/-- A stored payload stays stored. -/
theorem Forward.carries (h : Forward w w') {e : Event} {p : Json} (he : w.Carries e p) :
    w'.Carries e p := by
  unfold Carries at he ⊢
  cases hk : truthyKey e.payloadS3Key with
  | none =>
      rw [hk] at he
      exact he
  | some key =>
      rw [hk] at he
      exact h.objects key _ he

/-- A closed delivery stays closed. -/
theorem Forward.finished (h : Forward w w') {id : JsString} (hf : w.Finished id) :
    w'.Finished id :=
  hf.imp (h.accepted id) (h.buried id)

/-- An event has one payload. -/
theorem Carries.unique {e : Event} {p p' : Json} (h : w.Carries e p) (h' : w.Carries e p') :
    p = p' := by
  unfold Carries at h h'
  cases hk : truthyKey e.payloadS3Key with
  | none =>
      rw [hk] at h h'
      exact h.symm.trans h'
  | some key =>
      rw [hk] at h h'
      exact Json.stringify_injective (Option.some.inj (h.symm.trans h'))

/-- A truthy key is not empty. -/
theorem truthyKey_some {key : Option JsString} {k : JsString} (h : truthyKey key = some k) :
    key = some k ∧ k ≠ [] := by
  unfold truthyKey at h
  rw [Option.filter_eq_some_iff] at h
  refine ⟨h.1, ?_⟩
  rintro rfl
  simp at h

/-- A key that is not empty is truthy. -/
theorem truthyKey_of_ne {k : JsString} (h : k ≠ []) : truthyKey (some k) = some k := by
  cases k with
  | nil => exact absurd rfl h
  | cons u s => rfl

/-! ## The keys of the bucket -/

/-- Keys of payloads are different for different events. -/
theorem claimCheckKey_inj {t t' id id' : JsString} (hid : id.length = 36)
    (hid' : id'.length = 36) (h : claimCheckKey t id = claimCheckKey t' id') :
    t = t' ∧ id = id' := by
  unfold claimCheckKey at h
  have h₁ := List.append_cancel_right h
  have h₂ := List.append_inj' h₁ (by rw [hid, hid'])
  have h₃ := List.append_cancel_right h₂.1
  exact ⟨List.append_cancel_left h₃, h₂.2⟩

/-- So are keys of archives. -/
theorem archiveKey_inj {id id' : JsString} (h : archiveKey id = archiveKey id') : id = id' :=
  List.append_cancel_left (List.append_cancel_right h)

/-- A dead letter's key is never a claim-check key: they open with `d` and `e`. -/
theorem archiveKey_ne_claimCheckKey (id t id' : JsString) :
    archiveKey id ≠ claimCheckKey t id' := by
  intro h
  have hhead : ∀ s : JsString, (archiveKey s).head? = some 100 := by
    intro s
    have hjs : js "dead-letters/" = 100 :: (js "dead-letters/").tail := by decide
    rw [archiveKey, hjs]
    rfl
  have hhead' : ∀ s s' : JsString, (claimCheckKey s s').head? = some 101 := by
    intro s s'
    have hjs : js "events/" = 101 :: (js "events/").tail := by decide
    rw [claimCheckKey, hjs]
    rfl
  have hne := congrArg List.head? h
  rw [hhead, hhead'] at hne
  exact absurd hne (by decide)

theorem archiveKey_ne_nil (id : JsString) : archiveKey id ≠ [] := by
  intro h
  unfold archiveKey at h
  rw [List.append_eq_nil_iff, List.append_eq_nil_iff] at h
  exact absurd h.1.1 (by decide)

theorem claimCheckKey_ne_nil (t id : JsString) : claimCheckKey t id ≠ [] := by
  intro h
  unfold claimCheckKey at h
  rw [List.append_eq_nil_iff] at h
  exact absurd h.2 (by decide)

/-! ## Changing one table -/

/-- The records with other deliveries. -/
def setDeliveries (w : Records) (rows : List Delivery) : Records := { w with deliveries := rows }

/-- The records with other dead letters. -/
def setDeadLetters (w : Records) (rows : List DeadLetter) : Records :=
  { w with deadLetters := rows }

/-- The delivery rows after an update of one of them. -/
def updatedRows (w : Records) (id : JsString) (data : DeliveryData) : List Delivery :=
  w.deliveries.map (fun d => if d.id = id then data.apply d else d)

/-- The dead letters after the one of a delivery was recorded again. -/
def refreshedRows (w : Records) (input : NewDeadLetter) : List DeadLetter :=
  w.deadLetters.map (fun d =>
    if d.deliveryId = input.deliveryId then World.refreshDeadLetter input d else d)

/-- The outbox after a row was marked published. -/
def publishedRows (w : Records) (id : JsString) (publishedAt : ℚ) : List Outbox :=
  w.outbox.map (fun o =>
    if o.id = id ∧ o.published = false then
      { o with published := true, publishedAt := some publishedAt }
    else o)

/-- The records with another outbox. -/
def setOutbox (w : Records) (rows : List Outbox) : Records := { w with outbox := rows }

/-- An event with its outbox row, committed together; `replays` are the replays then. -/
def addEvent (w : Records) (e : Event) (o : Outbox) (replays : List Replay) : Records :=
  { w with events := e :: w.events, outbox := o :: w.outbox, replays := replays }

/-- The records with one more object. -/
def storeObject (w : Records) (key body : JsString) : Records :=
  { w with objects := Function.update w.objects key (some body) }

/-- The records with one more message. -/
def enqueue (w : Records) (groupId body : JsString) : Records :=
  { w with queue := { id := w.nextMessage, groupId := groupId, body := body } :: w.queue
           nextMessage := w.nextMessage + 1 }

/-- The records without a message that was deleted. -/
def dequeue (w : Records) (receipt : ℕ) : Records :=
  { w with queue := w.queue.filter (fun m => m.id != receipt)
           deleted := w.queue.filter (fun m => m.id == receipt) ++ w.deleted }

/-- The records with one more webhook call. -/
def addPost (w : Records) (x : Post) : Records := { w with posts := x :: w.posts }

/-! ## Unique identifiers -/

/-- A new row with a new identifier. -/
theorem unique_cons {α β : Type} {l : List α} {f : α → β} {a : α}
    (h : ∀ x ∈ l, ∀ y ∈ l, f x = f y → x = y) (hfresh : ∀ x ∈ l, f x ≠ f a) :
    ∀ x ∈ a :: l, ∀ y ∈ a :: l, f x = f y → x = y := by
  intro x hx y hy hxy
  rcases List.mem_cons.mp hx with hxa | hxl
  · rcases List.mem_cons.mp hy with hya | hyl
    · rw [hxa, hya]
    · exact absurd (hxa ▸ hxy).symm (hfresh y hyl)
  · rcases List.mem_cons.mp hy with hya | hyl
    · exact absurd (hya ▸ hxy) (hfresh x hxl)
    · exact h x hxl y hyl hxy

/-- Rows that are changed without changing their identifiers. -/
theorem unique_map {α β : Type} {l : List α} {f : α → β} {g : α → α}
    (h : ∀ x ∈ l, ∀ y ∈ l, f x = f y → x = y) (hg : ∀ x, f (g x) = f x) :
    ∀ x ∈ l.map g, ∀ y ∈ l.map g, f x = f y → x = y := by
  intro x hx y hy hxy
  obtain ⟨x', hx', rfl⟩ := List.mem_map.mp hx
  obtain ⟨y', hy', rfl⟩ := List.mem_map.mp hy
  rw [hg, hg] at hxy
  rw [h x' hx' y' hy' hxy]

/-! ## Statements that keep the records sound -/

/-- A draft for an identifier that is free. -/
theorem Sound.newDraft (h : Sound w) {d : Draft} (hlen : d.eventId.length = 36)
    (hdrafts : ∀ d' ∈ w.drafts, d'.eventId ≠ d.eventId)
    (hevents : ∀ e ∈ w.events, e.id ≠ d.eventId) :
    Sound { w with drafts := d :: w.drafts } ∧ Forward w { w with drafts := d :: w.drafts } := by
  constructor
  · refine { h with draftsUnique := ?_, draftLength := ?_, drafted := ?_, claimChecks := ?_ }
    · exact unique_cons h.draftsUnique hdrafts
    · exact List.forall_mem_cons.mpr ⟨hlen, h.draftLength⟩
    · exact List.forall_mem_cons.mpr ⟨fun e he hid => absurd hid (hevents e he), h.drafted⟩
    · intro t id text hid htext
      obtain ⟨x, hx, hxid, hxtext⟩ := h.claimChecks t id text hid htext
      exact ⟨x, List.mem_cons_of_mem _ hx, hxid, hxtext⟩
  · exact { Forward.refl w with drafts := fun x hx => List.mem_cons_of_mem _ hx }

/-- A delivery row for an event of the same tenant, not complete. -/
theorem Sound.newDelivery (h : Sound w) {d : Delivery} (hfresh : ∀ d' ∈ w.deliveries, d'.id ≠ d.id)
    (hevent : ∃ e ∈ w.events, e.id = d.eventId ∧ e.tenantId = d.tenantId)
    (hstatus : d.status = .inFlight) :
    (w.setDeliveries (d :: w.deliveries)).Sound ∧
      Forward w (w.setDeliveries (d :: w.deliveries)) := by
  constructor
  · refine { h with
      deliveriesUnique := ?_, deadDelivery := ?_, delivered := ?_, succeeded := ?_,
      deadLettered := ?_ }
    · exact unique_cons h.deliveriesUnique hfresh
    · intro x hx
      obtain ⟨d', hd', hid, hev⟩ := h.deadDelivery x hx
      exact ⟨d', List.mem_cons_of_mem _ hd', hid, hev⟩
    · exact List.forall_mem_cons.mpr ⟨hevent, h.delivered⟩
    · refine List.forall_mem_cons.mpr ⟨fun hs => ?_, h.succeeded⟩
      rw [hstatus] at hs
      cases hs
    · refine List.forall_mem_cons.mpr ⟨fun hs => ?_, h.deadLettered⟩
      rw [hstatus] at hs
      cases hs
  · exact { Forward.refl w with
      deliveries := fun x hx => ⟨x, List.mem_cons_of_mem _ hx, rfl, rfl, rfl⟩ }

/-- An update of a delivery row; a final status needs its reason. -/
theorem Sound.updateDelivery (h : Sound w) {id : JsString} {data : DeliveryData}
    (hsucceeded : ∀ d ∈ w.deliveries, d.id = id → data.status = .succeeded → w.Accepted d.eventId)
    (hdead : ∀ d ∈ w.deliveries, d.id = id → data.status = .deadLettered → w.Buried d.eventId) :
    (w.setDeliveries (w.updatedRows id data)).Sound ∧
      Forward w (w.setDeliveries (w.updatedRows id data)) := by
  have hsame : ∀ d : Delivery, (if d.id = id then data.apply d else d).id = d.id ∧
      (if d.id = id then data.apply d else d).eventId = d.eventId ∧
      (if d.id = id then data.apply d else d).tenantId = d.tenantId := by
    intro d
    split_ifs <;> exact ⟨rfl, rfl, rfl⟩
  constructor
  · refine { h with
      deliveriesUnique := ?_, deadDelivery := ?_, delivered := ?_, succeeded := ?_,
      deadLettered := ?_ }
    · exact unique_map h.deliveriesUnique fun d => (hsame d).1
    · intro x hx
      obtain ⟨d, hd, hid, hev⟩ := h.deadDelivery x hx
      exact ⟨_, List.mem_map_of_mem hd, (hsame d).1.trans hid, (hsame d).2.1.trans hev⟩
    · intro x hx
      obtain ⟨d, hd, rfl⟩ := List.mem_map.mp hx
      rw [(hsame d).2.1, (hsame d).2.2]
      exact h.delivered d hd
    · intro x hx hs
      obtain ⟨d, hd, rfl⟩ := List.mem_map.mp hx
      rw [(hsame d).2.1]
      -- the row that is written, or another one
      by_cases hid : d.id = id
      · rw [if_pos hid] at hs
        exact hsucceeded d hd hid hs
      · rw [if_neg hid] at hs
        exact h.succeeded d hd hs
    · intro x hx hs
      obtain ⟨d, hd, rfl⟩ := List.mem_map.mp hx
      rw [(hsame d).2.1]
      by_cases hid : d.id = id
      · rw [if_pos hid] at hs
        exact hdead d hd hid hs
      · rw [if_neg hid] at hs
        exact h.deadLettered d hd hs
  · exact { Forward.refl w with
      deliveries := fun d hd =>
        ⟨_, List.mem_map_of_mem hd, (hsame d).1, (hsame d).2.1, (hsame d).2.2⟩ }

/-- What an upsert of a dead letter needs to know. -/
structure Buriable (w : Records) (input : NewDeadLetter) : Prop where
  event : ∃ e ∈ w.events, e.id = input.eventId ∧ e.tenantId = input.tenantId ∧
    input.payloadS3Key ≠ [] ∧ ∃ p, w.Carries e p ∧ w.objects input.payloadS3Key = some p.stringify
  delivery : ∃ d ∈ w.deliveries, d.id = input.deliveryId ∧ d.eventId = input.eventId

/-- A new dead letter. -/
theorem Sound.newDeadLetter (h : Sound w) {input : NewDeadLetter} {d : DeadLetter}
    (hin : Buriable w input) (hfresh : ∀ d' ∈ w.deadLetters, d'.id ≠ d.id)
    (hevent : d.eventId = input.eventId) (htenant : d.tenantId = input.tenantId)
    (hdelivery : d.deliveryId = input.deliveryId) (hkey : d.payloadS3Key = input.payloadS3Key) :
    (w.setDeadLetters (d :: w.deadLetters)).Sound ∧
      Forward w (w.setDeadLetters (d :: w.deadLetters)) := by
  have hburied : ∀ id, w.Buried id →
      (w.setDeadLetters (d :: w.deadLetters)).Buried id := by
    rintro id ⟨x, hx, hid, hobj⟩
    exact ⟨x, List.mem_cons_of_mem _ hx, hid, hobj⟩
  have hhanded : ∀ id, w.Handed id →
      (w.setDeadLetters (d :: w.deadLetters)).Handed id := by
    rintro id (hq | ha | hb)
    · exact .inl hq
    · exact .inr (.inl ha)
    · exact .inr (.inr (hburied id hb))
  constructor
  · refine { h with
      deadLettersUnique := ?_, replayed := ?_, archived := ?_, deadDelivery := ?_,
      deadLettered := ?_, custody := ?_ }
    · exact unique_cons h.deadLettersUnique hfresh
    · intro r hr
      obtain ⟨x, hx, hrest⟩ := h.replayed r hr
      exact ⟨x, List.mem_cons_of_mem _ hx, hrest⟩
    · refine List.forall_mem_cons.mpr ⟨?_, h.archived⟩
      rw [hevent, htenant, hkey]
      exact hin.event
    · refine List.forall_mem_cons.mpr ⟨?_, h.deadDelivery⟩
      rw [hevent, hdelivery]
      exact hin.delivery
    · exact fun x hx hs => hburied _ (h.deadLettered x hx hs)
    · exact fun e he => (h.custody e he).imp id (hhanded e.id)
  · exact { Forward.refl w with
      buried := hburied
      handed := hhanded
      deadLetters := fun x hx => ⟨x, List.mem_cons_of_mem _ hx, rfl, rfl, rfl⟩ }

/-- The dead letter of a delivery that has one already. -/
theorem Sound.refreshDeadLetter (h : Sound w) {input : NewDeadLetter} (hin : Buriable w input) :
    (w.setDeadLetters (w.refreshedRows input)).Sound ∧
      Forward w (w.setDeadLetters (w.refreshedRows input)) := by
  have hsame : ∀ d : DeadLetter,
      (if d.deliveryId = input.deliveryId then World.refreshDeadLetter input d else d).id = d.id ∧
      (if d.deliveryId = input.deliveryId then World.refreshDeadLetter input d else d).eventId =
        d.eventId ∧
      (if d.deliveryId = input.deliveryId then World.refreshDeadLetter input d else d).tenantId =
        d.tenantId ∧
      (if d.deliveryId = input.deliveryId then World.refreshDeadLetter input d else d).deliveryId =
        d.deliveryId := by
    intro d
    split_ifs <;> exact ⟨rfl, rfl, rfl, rfl⟩
  -- the refreshed dead letter belongs to the same event
  have heventId : ∀ d ∈ w.deadLetters, d.deliveryId = input.deliveryId →
      d.eventId = input.eventId := by
    intro d hd hdel
    obtain ⟨d₁, hd₁, hid₁, hev₁⟩ := h.deadDelivery d hd
    obtain ⟨d₂, hd₂, hid₂, hev₂⟩ := hin.delivery
    rw [← hev₁, ← hev₂, h.deliveriesUnique d₁ hd₁ d₂ hd₂ (by rw [hid₁, hid₂, hdel])]
  have hburied : ∀ id, w.Buried id → (w.setDeadLetters (w.refreshedRows input)).Buried id := by
    rintro id ⟨x, hx, hid, hobj⟩
    refine ⟨_, List.mem_map_of_mem hx, (hsame x).2.1.trans hid, ?_⟩
    by_cases hdel : x.deliveryId = input.deliveryId
    · obtain ⟨e, -, -, -, -, p, -, hp⟩ := hin.event
      rw [if_pos hdel]
      exact Option.isSome_iff_exists.mpr ⟨_, hp⟩
    · rw [if_neg hdel]
      exact hobj
  have hhanded : ∀ id, w.Handed id → (w.setDeadLetters (w.refreshedRows input)).Handed id := by
    rintro id (hq | ha | hb)
    · exact .inl hq
    · exact .inr (.inl ha)
    · exact .inr (.inr (hburied id hb))
  constructor
  · refine { h with
      deadLettersUnique := ?_, replayed := ?_, archived := ?_, deadDelivery := ?_,
      deadLettered := ?_, custody := ?_ }
    · exact unique_map h.deadLettersUnique fun d => (hsame d).1
    · intro r hr
      obtain ⟨x, hx, hid, e, he, heid, hrest⟩ := h.replayed r hr
      exact ⟨_, List.mem_map_of_mem hx, (hsame x).1.trans hid, e, he,
        heid.trans (hsame x).2.1.symm, hrest⟩
    · intro x hx
      obtain ⟨d, hd, rfl⟩ := List.mem_map.mp hx
      rw [(hsame d).2.1, (hsame d).2.2.1]
      obtain ⟨e, he, heid, hten, hne, p, hp, hobj⟩ := h.archived d hd
      by_cases hdel : d.deliveryId = input.deliveryId
      · obtain ⟨e', he', heid', -, hne', p', hp', hobj'⟩ := hin.event
        have hee : e' = e := h.eventsUnique e' he' e he (by
          rw [heid', heid, heventId d hd hdel])
        rw [if_pos hdel]
        exact ⟨e, he, heid, hten, hne', p', hee ▸ hp', hobj'⟩
      · rw [if_neg hdel]
        exact ⟨e, he, heid, hten, hne, p, hp, hobj⟩
    · intro x hx
      obtain ⟨d, hd, rfl⟩ := List.mem_map.mp hx
      rw [(hsame d).2.1, (hsame d).2.2.2]
      exact h.deadDelivery d hd
    · exact fun x hx hs => hburied _ (h.deadLettered x hx hs)
    · exact fun e he => (h.custody e he).imp id (hhanded e.id)
  · exact { Forward.refl w with
      buried := hburied
      handed := hhanded
      deadLetters := fun d hd =>
        ⟨_, List.mem_map_of_mem hd, (hsame d).1, (hsame d).2.1, (hsame d).2.2.1⟩ }

/-- Marking rows published whose events have left the outbox safely. -/
theorem Sound.markPublished (h : Sound w) {id : JsString} {t : ℚ}
    (hhanded : ∀ o ∈ w.outbox, o.id = id → w.Handed o.eventId) :
    (w.setOutbox (w.publishedRows id t)).Sound ∧
      Forward w (w.setOutbox (w.publishedRows id t)) := by
  have hsame : ∀ o : Outbox,
      (if o.id = id ∧ o.published = false then
        { o with published := true, publishedAt := some t } else o).id = o.id ∧
      (if o.id = id ∧ o.published = false then
        { o with published := true, publishedAt := some t } else o).eventId = o.eventId := by
    intro o
    split_ifs <;> exact ⟨rfl, rfl⟩
  constructor
  · refine { h with outboxUnique := ?_, custody := ?_ }
    · intro x hx y hy hxy
      obtain ⟨o, ho, rfl⟩ := List.mem_map.mp hx
      obtain ⟨o', ho', rfl⟩ := List.mem_map.mp hy
      rw [(hsame o).1, (hsame o').1] at hxy
      rw [(hsame o).2, (hsame o').2]
      exact h.outboxUnique o ho o' ho' hxy
    · intro e he
      rcases h.custody e he with ⟨o, ho, hoe, hop⟩ | hh
      · by_cases hid : o.id = id
        · exact .inr (hoe ▸ hhanded o ho hid)
        · refine .inl ⟨_, List.mem_map_of_mem ho, (hsame o).2.trans hoe, ?_⟩
          rw [if_neg (fun hc => hid hc.1)]
          exact hop
      · exact .inr hh
  · refine { Forward.refl w with outbox := ?_, outboxKept := ?_ }
    · intro x hx
      obtain ⟨o, ho, rfl⟩ := List.mem_map.mp hx
      exact .inl ⟨o, ho, (hsame o).1.symm, (hsame o).2.symm⟩
    · exact fun o ho => ⟨_, List.mem_map_of_mem ho, (hsame o).1⟩

/-- A new event: its payload is stored, it agrees with its draft if it has one, and the
replay that created it, if any, passes on the payload of the event it replays. -/
theorem Sound.addEvent (h : Sound w) {e : Event} {o : Outbox} {replays : List Replay}
    (hnew : ∀ e' ∈ w.events, e'.id ≠ e.id) (hcarries : ∃ p, w.Carries e p)
    (hdraft : ∀ d ∈ w.drafts, e.id = d.eventId →
      e.tenantId = d.tenantId ∧ e.type = d.type ∧ w.Carries e d.payload)
    (hrow : o.eventId = e.id ∧ o.published = false) (hfresh : ∀ o' ∈ w.outbox, o'.id ≠ o.id)
    (hreplays : ∀ r ∈ replays, r ∈ w.replays ∨ ∃ d ∈ w.deadLetters, d.id = r.sourceDeadLetterId ∧
      ∃ e₀ ∈ w.events, e₀.id = d.eventId ∧ e.id = r.eventId ∧ e.tenantId = e₀.tenantId ∧
        e.type = e₀.type ∧ ∃ p, w.Carries e₀ p ∧ w.Carries e p) :
    (w.addEvent e o replays).Sound ∧ Forward w (w.addEvent e o replays) := by
  have hold : ∀ e' ∈ w.events, e' ∈ e :: w.events := fun e' he' => List.mem_cons_of_mem _ he'
  constructor
  · refine { h with
      eventsUnique := ?_, outboxUnique := ?_, carries := ?_, drafted := ?_, archives := ?_,
      replayed := ?_, archived := ?_, delivered := ?_, messages := ?_, posted := ?_,
      custody := ?_ }
    · exact unique_cons h.eventsUnique hnew
    · intro x hx y hy hxy
      rcases List.mem_cons.mp hx with hxo | hx'
      · rcases List.mem_cons.mp hy with hyo | hy'
        · rw [hxo, hyo]
        · exact absurd (hxo ▸ hxy).symm (hfresh y hy')
      · rcases List.mem_cons.mp hy with hyo | hy'
        · exact absurd (hyo ▸ hxy) (hfresh x hx')
        · exact h.outboxUnique x hx' y hy' hxy
    · exact List.forall_mem_cons.mpr ⟨hcarries, h.carries⟩
    · intro d hd
      exact List.forall_mem_cons.mpr ⟨hdraft d hd, h.drafted d hd⟩
    · intro id text htext
      obtain ⟨e', he', hrest⟩ := h.archives id text htext
      exact ⟨e', hold e' he', hrest⟩
    -- a row of before, or the one of the replay that commits
    · intro r hr
      rcases hreplays r hr with hr' | ⟨d, hd, hid, e₀, he₀, heid, hre, hten, hty, hp⟩
      · obtain ⟨d, hd, hid, e₀, he₀, heid, e', he', hrest⟩ := h.replayed r hr'
        exact ⟨d, hd, hid, e₀, hold e₀ he₀, heid, e', hold e' he', hrest⟩
      · exact ⟨d, hd, hid, e₀, hold e₀ he₀, heid, e, List.mem_cons_self, hre, hten, hty, hp⟩
    · intro d hd
      obtain ⟨e', he', hrest⟩ := h.archived d hd
      exact ⟨e', hold e' he', hrest⟩
    · intro d hd
      obtain ⟨e', he', hrest⟩ := h.delivered d hd
      exact ⟨e', hold e' he', hrest⟩
    · intro m hm
      obtain ⟨e', he', hrest⟩ := h.messages m hm
      exact ⟨e', hold e' he', hrest⟩
    · intro x hx
      obtain ⟨e', he', hrest⟩ := h.posted x hx
      exact ⟨e', hold e' he', hrest⟩
    -- the new event is in the custody of its outbox row
    · refine List.forall_mem_cons.mpr ⟨.inl ⟨o, List.mem_cons_self, hrow⟩, fun e' he' => ?_⟩
      rcases h.custody e' he' with ⟨o', ho', hrest⟩ | hh
      · exact .inl ⟨o', List.mem_cons_of_mem _ ho', hrest⟩
      · exact .inr hh
  · refine { Forward.refl w with events := hold, outbox := ?_, outboxKept := ?_ }
    · intro x hx
      rcases List.mem_cons.mp hx with hxo | hx'
      · exact .inr fun o' ho' => hxo ▸ hfresh o' ho'
      · exact .inl ⟨x, hx', rfl, rfl⟩
    · exact fun o' ho' => ⟨o', List.mem_cons_of_mem _ ho', rfl⟩

/-- An upload that never replaces a different object. -/
theorem Sound.storeObject (h : Sound w) {key body : JsString}
    (hsame : ∀ text, w.objects key = some text → text = body)
    (hclaim : ∀ t id, id.length = 36 → claimCheckKey t id = key →
      ∃ d ∈ w.drafts, d.eventId = id ∧ body = d.payload.stringify)
    (harchive : ∀ id, archiveKey id = key → ∃ e ∈ w.events, e.id = id ∧
      truthyKey e.payloadS3Key = none ∧ body = (e.payload.getD .null).stringify) :
    (w.storeObject key body).Sound ∧ Forward w (w.storeObject key body) := by
  -- a key that had an object keeps its text
  have hobjects : ∀ k text, w.objects k = some text →
      (w.storeObject key body).objects k = some text := by
    intro k text hk
    by_cases hkey : k = key
    · subst hkey
      rw [hsame text hk]
      exact Function.update_self ..
    · exact (Function.update_of_ne hkey ..).trans hk
  have hback : ∀ k text, (w.storeObject key body).objects k = some text →
      (k = key ∧ text = body) ∨ w.objects k = some text := by
    intro k text hk
    by_cases hkey : k = key
    · subst hkey
      have hself : (w.storeObject k body).objects k = some body := Function.update_self ..
      rw [hself, Option.some.injEq] at hk
      exact .inl ⟨rfl, hk.symm⟩
    · exact .inr ((Function.update_of_ne hkey ..).symm.trans hk)
  have hburied : ∀ id, w.Buried id → (w.storeObject key body).Buried id := by
    rintro id ⟨d, hd, hid, hobj⟩
    obtain ⟨text, htext⟩ := Option.isSome_iff_exists.mp hobj
    exact ⟨d, hd, hid, Option.isSome_iff_exists.mpr ⟨text, hobjects _ _ htext⟩⟩
  have hhanded : ∀ id, w.Handed id → (w.storeObject key body).Handed id := by
    rintro id (hq | ha | hb)
    · exact .inl hq
    · exact .inr (.inl ha)
    · exact .inr (.inr (hburied id hb))
  have hfwd : Forward w (w.storeObject key body) :=
    { Forward.refl w with objects := hobjects, buried := hburied, handed := hhanded }
  refine ⟨{ h with
      carries := ?_, drafted := ?_, claimChecks := ?_, archives := ?_, replayed := ?_,
      archived := ?_, posted := ?_, deadLettered := ?_, custody := ?_ }, hfwd⟩
  · intro e he
    obtain ⟨p, hp⟩ := h.carries e he
    exact ⟨p, hfwd.carries hp⟩
  · intro d hd e he hid
    obtain ⟨hten, hty, hp⟩ := h.drafted d hd e he hid
    exact ⟨hten, hty, hfwd.carries hp⟩
  -- the object is a claim check of a draft
  · intro t id text hlen htext
    rcases hback _ _ htext with ⟨hkey, rfl⟩ | hk
    · exact hclaim t id hlen hkey
    · exact h.claimChecks t id text hlen hk
  -- or the archive of an event
  · intro id text htext
    rcases hback _ _ htext with ⟨hkey, rfl⟩ | hk
    · exact harchive id hkey
    · exact h.archives id text hk
  · intro r hr
    obtain ⟨d, hd, hid, e, he, heid, e', he', hre, hten, hty, p, hp, hp'⟩ := h.replayed r hr
    exact ⟨d, hd, hid, e, he, heid, e', he', hre, hten, hty, p, hfwd.carries hp,
      hfwd.carries hp'⟩
  · intro d hd
    obtain ⟨e, he, heid, hten, hne, p, hp, hobj⟩ := h.archived d hd
    exact ⟨e, he, heid, hten, hne, p, hfwd.carries hp, hobjects _ _ hobj⟩
  · intro x hx
    obtain ⟨e, he, p, hp, hbody⟩ := h.posted x hx
    exact ⟨e, he, p, hfwd.carries hp, hbody⟩
  · exact fun d hd hs => hburied _ (h.deadLettered d hd hs)
  · exact fun e he => (h.custody e he).imp id (hhanded e.id)

/-- The message of an event. -/
theorem Sound.enqueue (h : Sound w) {groupId body : JsString}
    (hevent : ∃ e ∈ w.events, body = messageBody e) :
    (w.enqueue groupId body).Sound ∧ Forward w (w.enqueue groupId body) := by
  have hhanded : ∀ id, w.Handed id → (w.enqueue groupId body).Handed id := by
    rintro id (⟨m, hm, hq⟩ | hf)
    · exact .inl ⟨m, List.mem_cons_of_mem _ hm, hq⟩
    · exact .inr hf
  constructor
  · refine { h with
      messagesUnique := ?_, messagesNumbered := ?_, messages := ?_, custody := ?_ }
    · exact unique_cons h.messagesUnique fun m hm => ne_of_lt (h.messagesNumbered m hm)
    · exact List.forall_mem_cons.mpr ⟨Nat.lt_succ_self _,
        fun m hm => Nat.lt_succ_of_lt (h.messagesNumbered m hm)⟩
    · exact List.forall_mem_cons.mpr ⟨hevent, h.messages⟩
    · exact fun e he => (h.custody e he).imp id (hhanded e.id)
  · refine { Forward.refl w with handed := hhanded, queue := ?_, numbers := Nat.le_succ _ }
    intro m hm
    rcases List.mem_cons.mp hm with rfl | hm'
    · exact .inr rfl
    · exact .inl hm'

/-- A message whose event is finished is removed. -/
theorem Sound.dequeue (h : Sound w) {receipt : ℕ}
    (hfinished : ∀ m ∈ w.queue, m.id = receipt → ∀ q, parseQueueMessage m.body = some q →
      w.Finished q.eventId) :
    (w.dequeue receipt).Sound ∧ Forward w (w.dequeue receipt) := by
  have hsub : ∀ m ∈ (w.dequeue receipt).queue, m ∈ w.queue := fun m hm =>
    List.mem_of_mem_filter hm
  have hhanded : ∀ id, w.Handed id → (w.dequeue receipt).Handed id := by
    rintro id (⟨m, hm, q, hq, hid⟩ | hf)
    · by_cases hm' : m.id = receipt
      · exact .inr (hid ▸ hfinished m hm hm' q hq)
      · exact .inl ⟨m, List.mem_filter.mpr ⟨hm, by simpa using hm'⟩, q, hq, hid⟩
    · exact .inr hf
  constructor
  · refine { h with
      messagesUnique := ?_, messagesNumbered := ?_, messages := ?_, custody := ?_ }
    · exact fun m hm m' hm' => h.messagesUnique m (hsub m hm) m' (hsub m' hm')
    · exact fun m hm => h.messagesNumbered m (hsub m hm)
    · exact fun m hm => h.messages m (hsub m hm)
    · exact fun e he => (h.custody e he).imp id (hhanded e.id)
  · exact { Forward.refl w with handed := hhanded, queue := fun m hm => .inl (hsub m hm) }

/-- A webhook call for an event, with its payload. -/
theorem Sound.addPost (h : Sound w) {x : Post} (hbody : ∃ e ∈ w.events, ∃ p, w.Carries e p ∧
      x.body = (webhookBody (queueMessage e) p).stringify) :
    (w.addPost x).Sound ∧ Forward w (w.addPost x) := by
  have haccepted : ∀ id, w.Accepted id → (w.addPost x).Accepted id := by
    rintro id ⟨y, hy, hrest⟩
    exact ⟨y, List.mem_cons_of_mem _ hy, hrest⟩
  have hhanded : ∀ id, w.Handed id → (w.addPost x).Handed id := by
    rintro id (hq | ha | hb)
    · exact .inl hq
    · exact .inr (.inl (haccepted id ha))
    · exact .inr (.inr hb)
  constructor
  · refine { h with posted := ?_, succeeded := ?_, custody := ?_ }
    · exact List.forall_mem_cons.mpr ⟨hbody, h.posted⟩
    · exact fun d hd hs => haccepted _ (h.succeeded d hd hs)
    · exact fun e he => (h.custody e he).imp id (hhanded e.id)
  · exact { Forward.refl w with accepted := haccepted, handed := hhanded }

end Records
