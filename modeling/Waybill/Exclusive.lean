/-
# One handler at a time

Runs in which the messages of one event are handled by one handler at a time.  Anything may
still fail or crash, other events are handled alongside, and acknowledgements of earlier
handlers may still be under way.

The *account* of an event is all that is on record about it: its delivery rows, the webhook
calls made for it, its dead letters.  Only a handler of the event that is past its query
(`Phase.writes`) changes the account (`account_same`), and there is one such handler at a
time, so a handler owns the rows it works on (`RowFacts`, `own_step`).
-/
import Waybill.Effects
import Waybill.Safety

open Worker Publisher Api Records

/-! ## The condition -/

/-- A job that handles messages of an event. -/
def Job.handles (eventId : JsString) : Job → Bool
  | .deliver m => (parseQueueMessage m.body).any (fun q => q.eventId == eventId)
  | _ => false

/-- No handler of the event is started while there is another. -/
def ExclusiveStep (eventId : JsString) (s : Sys) : PoolAction Choice Job ℚ → Prop
  | .spawn j => ∀ pid < s.spawned, ∀ t ∈ s.tasks pid,
      ¬ (j.handles eventId = true ∧ t.job.handles eventId = true)
  | _ => True

instance (eventId : JsString) (s : Sys) (a : PoolAction Choice Job ℚ) :
    Decidable (ExclusiveStep eventId s a) := by
  cases a <;> unfold ExclusiveStep <;> infer_instance

/-! ## The account of an event -/

/-- What is on record about an event. -/
structure Account where
  rows : List Delivery
  posts : List Post
  deadLetters : List DeadLetter

/-- The account of an event at the receiver. -/
def account (env : Env) (eventId : JsString) (w : World) : Account where
  rows := w.rowsFor eventId env.receiverUrl
  posts := w.posts.filter (fun x => postedEvent x.body == some eventId)
  deadLetters := w.deadLetters.filter (fun d => d.eventId == eventId)

/-- The message of a handler that may write the account. -/
def Phase.writes : Phase → Option QueueMessage
  | .upserting _ q _ => some q
  | .trying _ q _ _ _ _ => some q
  | .buried _ q _ => some q
  | .accepted _ q _ => some q
  | _ => none

section

variable {env : Env} {eventId : JsString} {w w' : World} {φ : Phase} {op : Op} {c : Choice}
  {r : Except JsError op.Res}

/-- Changing elements that do not pass a filter. -/
theorem filter_map_of_fixed {α : Type} {l : List α} {f : α → α} {p : α → Bool}
    (hp : ∀ x ∈ l, p (f x) = p x) (hfix : ∀ x ∈ l, p x = true → f x = x) :
    (l.map f).filter p = l.filter p := by
  induction l with
  | nil => rfl
  | cons x l ih =>
      have ih' := ih (fun y hy => hp y (List.mem_cons_of_mem _ hy))
        (fun y hy => hfix y (List.mem_cons_of_mem _ hy))
      rw [List.map_cons, List.filter_cons, List.filter_cons, ih', hp x List.mem_cons_self]
      by_cases hx : p x = true
      · rw [if_pos hx, if_pos hx, hfix x List.mem_cons_self hx]
      · rw [if_neg hx, if_neg hx]

/-- An update of another event's row. -/
theorem rows_same_of_update (hs : Sound w.toRecords) {q : QueueMessage} {d : Delivery}
    {data : DeliveryData} {r : Except JsError Delivery} (hd : w.RowOk q d)
    (hq : q.eventId ≠ eventId) (hexec : w.exec (.updateDelivery d.id data) c = some (r, w')) :
    w'.rowsFor eventId env.receiverUrl = w.rowsFor eventId env.receiverUrl := by
  obtain ⟨hev, -, d', hd', hid', hev', -⟩ := hd
  rcases World.exec_updateDelivery hexec with ⟨heq, -⟩ | ⟨-, -, -, heq, -⟩
  · rw [World.rowsFor, heq]
    rfl
  · rw [World.rowsFor, heq]
    refine filter_map_of_fixed (fun x _ => ?_) (fun x hx hp => ?_)
    · split_ifs <;> rfl
    · simp only [Bool.and_eq_true, beq_iff_eq] at hp
      refine if_neg fun hxid => hq ?_
      rw [← hev, ← hev', ← hs.deliveriesUnique x hx d' hd' (hxid.trans hid'.symm)]
      exact hp.1

/-- The rows of an event change by its own handlers only. -/
theorem rows_same (hs : Sound w.toRecords) (hP : w.PhaseFacts φ) (hallow : Allows env φ op)
    (hexec : w.exec op c = some (r, w')) (hφ : ∀ q, φ.writes = some q → q.eventId ≠ eventId) :
    w'.rowsFor eventId env.receiverUrl = w.rowsFor eventId env.receiverUrl := by
  cases hallow with
  | upsertUpdate => exact rows_same_of_update hs (hP.2 _ rfl) (hφ _ rfl) hexec
  | retry => exact rows_same_of_update hs hP.2.1 (hφ _ rfl) hexec
  | markDead => exact rows_same_of_update hs hP.2.1 (hφ _ rfl) hexec
  | markDone => exact rows_same_of_update hs hP.2.1 (hφ _ rfl) hexec
  | @upsertCreate m q t =>
      rcases World.exec_createDelivery hexec with ⟨heq, -⟩ | ⟨heq, -, -⟩
      · rw [World.rowsFor, heq]
        rfl
      · rw [World.rowsFor, heq]
        refine List.filter_cons_of_neg ?_
        simp only [World.newDelivery, inFlightDelivery, Bool.and_eq_true, beq_iff_eq, not_and]
        exact fun hev => absurd hev (hφ q rfl)
  | _ =>
      rw [World.rowsFor, World.deliveries_of_exec hexec (by simp) (by simp)]
      rfl

/-- **The account of an event changes by its own handlers only.** -/
theorem account_same (hs : Sound w.toRecords) (hP : w.PhaseFacts φ) (hallow : Allows env φ op)
    (hexec : w.exec op c = some (r, w')) (hφ : ∀ q, φ.writes = some q → q.eventId ≠ eventId) :
    account env eventId w' = account env eventId w := by
  have hrows := rows_same hs hP hallow hexec hφ
  have hposts : w'.posts.filter (fun x => postedEvent x.body == some eventId) =
      w.posts.filter (fun x => postedEvent x.body == some eventId) := by
    cases hallow with
    | fetch =>
        obtain ⟨redirects, answer, hposts⟩ := World.exec_fetch hexec
        rw [hposts]
        refine List.filter_cons_of_neg ?_
        simp only [postedEvent_webhookBody, beq_iff_eq, Option.some.injEq]
        exact hφ _ rfl
    | _ => rw [World.posts_of_exec hexec (by simp)]
  have hdead : w'.deadLetters.filter (fun d => d.eventId == eventId) =
      w.deadLetters.filter (fun d => d.eventId == eventId) := by
    cases hallow with
    | @bury m q d p x a e hready =>
        obtain ⟨-, ⟨hev, -, d', hd', hid', hev', -⟩, -⟩ := hP
        rcases World.exec_upsertDeadLetter hexec with ⟨heq, -⟩ | ⟨heq, -⟩ | ⟨heq, -⟩
        · rw [heq]
        · rw [heq]
          refine filter_map_of_fixed (fun y _ => ?_) (fun y hy hp => ?_)
          · split_ifs <;> rfl
          · -- the dead letter of this delivery is for its event
            refine if_neg fun hdel => hφ _ rfl ?_
            obtain ⟨d₁, hd₁, hid₁, hev₁⟩ := hs.deadDelivery y hy
            rw [beq_iff_eq] at hp
            rw [← hev, ← hev', ← hs.deliveriesUnique d₁ hd₁ d' hd' (by rw [hid₁, hid', hdel]; rfl),
              hev₁, hp]
        · rw [heq]
          refine List.filter_cons_of_neg ?_
          simp only [World.newDeadLetter, deadLetterOf, beq_iff_eq]
          exact fun hne => hφ _ rfl (hev.symm.trans hne)
    | _ => rw [World.deadLetters_of_exec hexec (by simp)]
  unfold account
  rw [hrows, hposts, hdead]

/-! ## A handler's own rows -/

/-- One of the rows has a final status. -/
def Closed (rows : List Delivery) : Prop := ∃ d ∈ rows, d.status.terminal = true

/-- What a handler of the event knows about its rows. -/
def RowFacts (eventId : JsString) (rows : List Delivery) : Phase → Prop
  | .due _ _ q _ => q.eventId = eventId → ∀ d ∈ rows, d.status.terminal = false
  | .upserting _ q found => q.eventId = eventId →
      (∀ d ∈ rows, d.status.terminal = false) ∧ (found = none → rows = []) ∧
        ∀ d, found = some d → d ∈ rows
  | .trying _ q d _ _ _ => q.eventId = eventId → d ∈ rows ∧ d.status.terminal = false
  | .buried _ q d => q.eventId = eventId → d ∈ rows ∧ d.status.terminal = false
  | .accepted _ q d => q.eventId = eventId → d ∈ rows ∧ d.status.terminal = false
  | .settled _ q _ => q.eventId = eventId → Closed rows
  | .complete _ q _ => q.eventId = eventId → Closed rows
  | _ => True

/-- The event has one row, and a message of it is deleted only after the row is closed. -/
structure OwnInv (env : Env) (eventId : JsString) (w : World) : Prop where
  unique : ∀ d ∈ w.rowsFor eventId env.receiverUrl, ∀ d' ∈ w.rowsFor eventId env.receiverUrl,
    d = d'
  deleted : ∀ m ∈ w.deleted, ∀ q, parseQueueMessage m.body = some q → q.eventId = eventId →
    Closed (w.rowsFor eventId env.receiverUrl)

/-- No message of the event has been deleted while its row is open. -/
theorem OwnInv.not_deleted (h : OwnInv env eventId w) {d : Delivery}
    (hd : d ∈ w.rowsFor eventId env.receiverUrl) (hopen : d.status.terminal = false) {m : Message}
    (hm : m ∈ w.deleted) {q : QueueMessage} (hq : parseQueueMessage m.body = some q) :
    q.eventId ≠ eventId := by
  intro hev
  obtain ⟨x, hx, hterm⟩ := h.deleted m hm q hq hev
  rw [h.unique x hx d hd, hopen] at hterm
  cases hterm

/-- A handler updates its own row. -/
theorem own_update (hs : Sound w.toRecords) (h : OwnInv env eventId w) {d : Delivery}
    {data : DeliveryData} {r : Except JsError Delivery}
    (hd : d ∈ w.rowsFor eventId env.receiverUrl)
    (hexec : w.exec (.updateDelivery d.id data) c = some (r, w')) :
    (w'.rowsFor eventId env.receiverUrl = w.rowsFor eventId env.receiverUrl ∧
        ∃ e, r = .error e) ∨
      (data.apply d ∈ w'.rowsFor eventId env.receiverUrl ∧
        (∀ x ∈ w'.rowsFor eventId env.receiverUrl, x = data.apply d) ∧
        ∀ row, r = .ok row → row = data.apply d) := by
  obtain ⟨hmem, hev, hurl⟩ := World.mem_rowsFor.mp hd
  rcases World.exec_updateDelivery hexec with ⟨heq, he⟩ | ⟨x, hx, hxid, hmap, hanswer⟩
  · refine .inl ⟨?_, he⟩
    rw [World.rowsFor, heq]
    rfl
  · obtain rfl := hs.deliveriesUnique x hx d hmem hxid
    refine .inr ⟨?_, fun y hy => ?_, hanswer⟩
    · refine World.mem_rowsFor.mpr ⟨?_, hev, hurl⟩
      rw [hmap]
      exact List.mem_map.mpr ⟨x, hx, if_pos rfl⟩
    · obtain ⟨hy, hyev, hyurl⟩ := World.mem_rowsFor.mp hy
      rw [hmap] at hy
      obtain ⟨z, hz, rfl⟩ := List.mem_map.mp hy
      by_cases hzid : z.id = x.id
      · rw [if_pos hzid, hs.deliveriesUnique z hz x hx hzid]
      · rw [if_neg hzid] at hyev hyurl
        exact absurd (congrArg Delivery.id
          (h.unique z (World.mem_rowsFor.mpr ⟨hz, hyev, hyurl⟩) x hd)) hzid

/-- A handler creates its row. -/
theorem own_create {q : QueueMessage} {t : ℚ} {r : Except JsError Delivery}
    (hnone : w.rowsFor q.eventId env.receiverUrl = [])
    (hexec : w.exec (.createDelivery (inFlightDelivery q.eventId q.tenantId env.receiverUrl t)) c =
      some (r, w')) :
    (w'.rowsFor q.eventId env.receiverUrl = [] ∧ ∃ e, r = .error e) ∨
      ∃ d, w'.rowsFor q.eventId env.receiverUrl = [d] ∧ d.status = .inFlight ∧
        d.attemptCount = 1 ∧ ∀ row, r = .ok row → row = d := by
  rcases World.exec_createDelivery hexec with ⟨heq, he⟩ | ⟨hcons, -, hanswer⟩
  · refine .inl ⟨?_, he⟩
    rw [World.rowsFor, heq]
    exact hnone
  · refine .inr ⟨_, ?_, rfl, rfl, hanswer⟩
    rw [World.rowsFor, hcons]
    rw [World.rowsFor] at hnone
    rw [List.filter_cons_of_pos (by simp [World.newDelivery, inFlightDelivery]), hnone]

/-- After the look at the delivery row. -/
theorem rowFacts_afterCheck (h : OwnInv env eventId w) {m : Message} {st : CircuitState}
    {q : QueueMessage} {existing : Option Delivery}
    (hexec : w.exec (.findDelivery q.eventId env.receiverUrl) c = some (.ok existing, w')) :
    RowFacts eventId (w'.rowsFor eventId env.receiverUrl) (afterCheck m st q existing) := by
  obtain ⟨rfl, hsome, hnone⟩ := World.exec_findDelivery hexec
  cases existing with
  | none =>
      rintro rfl
      rw [hnone rfl]
      exact fun d hd => nomatch hd
  | some d =>
      unfold afterCheck
      by_cases hterm : d.status.terminal = true
      · simp only [hterm, if_true]
        rintro rfl
        exact ⟨d, hsome d rfl, hterm⟩
      · simp only [hterm]
        rintro rfl x hx
        rw [h.unique x hx d (hsome d rfl)]
        exact eq_false_of_ne_true hterm

/-- After `upsertInFlight` looked at the rows. -/
theorem rowFacts_afterLook {m : Message} {q : QueueMessage} {found : Option Delivery}
    (hopen : q.eventId = eventId →
      ∀ d ∈ w.rowsFor eventId env.receiverUrl, d.status.terminal = false)
    (hexec : w.exec (.findDelivery q.eventId env.receiverUrl) c = some (.ok found, w')) :
    RowFacts eventId (w'.rowsFor eventId env.receiverUrl) (.upserting m q found) := by
  obtain ⟨rfl, hsome, hnone⟩ := World.exec_findDelivery hexec
  rintro rfl
  refine ⟨hopen rfl, ?_, ?_⟩
  · rintro rfl
    exact hnone rfl
  · rintro d rfl
    exact hsome d rfl

/-- The facts with the same rows, in the next phase. -/
theorem rowFacts_next (hop : ∀ id data, op ≠ .updateDelivery id data)
    (hcreate : ∀ data, op ≠ .createDelivery data)
    (hfind : ∀ eventId url, op ≠ .findDelivery eventId url) {rows : List Delivery}
    (hφ : RowFacts eventId rows φ) (hallow : Allows env φ op) :
    RowFacts eventId rows (φ.next op r) := by
  cases hallow with
  | decide =>
      cases r with
      | error e => exact trivial
      | ok t =>
          rename_i m raw
          change RowFacts eventId rows (afterDecision m _)
          unfold afterDecision
          cases parseQueueMessage m.body <;> split_ifs <;> exact trivial
  | limit =>
      cases r with
      | error e => exact trivial
      | ok result =>
          change RowFacts eventId rows (if result.1 = 1 then _ else _)
          split_ifs <;> exact trivial
  | check => exact absurd rfl (hfind _ _)
  | look => exact absurd rfl (hfind _ _)
  | upsertUpdate => exact absurd rfl (hop _ _)
  | upsertCreate => exact absurd rfl (hcreate _)
  | retry => exact absurd rfl (hop _ _)
  | markDead => exact absurd rfl (hop _ _)
  | markDone => exact absurd rfl (hop _ _)
  | fetch =>
      cases r with
      | error e => exact hφ
      | ok status =>
          change RowFacts eventId rows (afterPost _ _ _ _ _ status)
          unfold afterPost
          split_ifs <;> exact hφ
  | _ => cases r <;> first | exact trivial | exact hφ

/-- Deleting the message of a closed row. -/
theorem ownInv_delete (h : OwnInv env eventId w) {m : Message} {q : QueueMessage}
    {r : Except JsError Unit} (hq : w.Handling m q)
    (hclosed : q.eventId = eventId → Closed (w.rowsFor eventId env.receiverUrl))
    (hexec : w.exec (.deleteMessage m.id) c = some (r, w')) : OwnInv env eventId w' := by
  have hrows : w'.rowsFor eventId env.receiverUrl = w.rowsFor eventId env.receiverUrl := by
    rw [World.rowsFor, World.deliveries_of_exec hexec (by simp) (by simp)]
    rfl
  refine ⟨by rw [hrows]; exact h.unique, fun x hx q' hq' hev => ?_⟩
  rw [hrows]
  rcases World.exec_deleteMessage hexec x hx with hold | ⟨hqueue, hid⟩
  · exact h.deleted x hold q' hq' hev
  · rw [hq.1.2.1 x hqueue hid, hq.2] at hq'
    exact hclosed (Option.some.inj hq' ▸ hev)

/-- Updating an own row. -/
theorem ownInv_update (hs : Sound w.toRecords) (h : OwnInv env eventId w) {q : QueueMessage}
    {d : Delivery} {data : DeliveryData} {r : Except JsError Delivery} (hd : w.RowOk q d)
    (hown : q.eventId = eventId → d ∈ w.rowsFor eventId env.receiverUrl ∧ d.status.terminal = false)
    (hexec : w.exec (.updateDelivery d.id data) c = some (r, w')) : OwnInv env eventId w' := by
  have hdeleted : w'.deleted = w.deleted := World.deleted_of_exec hexec (by simp)
  by_cases hq : q.eventId = eventId
  · obtain ⟨hmem, hopen⟩ := hown hq
    rcases own_update hs h hmem hexec with ⟨hrows, -⟩ | ⟨-, hall, -⟩
    · exact ⟨by rw [hrows]; exact h.unique, by rw [hdeleted, hrows]; exact h.deleted⟩
    · refine ⟨fun x hx y hy => by rw [hall x hx, hall y hy], fun x hx q' hq' hev => ?_⟩
      rw [hdeleted] at hx
      exact absurd hev (h.not_deleted hmem hopen hx hq')
  · have hrows := @rows_same_of_update env _ _ _ _ hs _ _ _ _ hd hq hexec
    exact ⟨by rw [hrows]; exact h.unique, by rw [hdeleted, hrows]; exact h.deleted⟩

/-- Nothing changes about the rows and the deleted messages. -/
theorem ownInv_same (h : OwnInv env eventId w)
    (hrows : w'.rowsFor eventId env.receiverUrl = w.rowsFor eventId env.receiverUrl)
    (hdeleted : w'.deleted = w.deleted) : OwnInv env eventId w' :=
  ⟨by rw [hrows]; exact h.unique, by rw [hdeleted, hrows]; exact h.deleted⟩

/-- Another attempt is counted on an open row, which stays open. -/
theorem own_upsertUpdate {m : Message} {q : QueueMessage} {d : Delivery} {t : ℚ}
    {r : Except JsError Delivery} (hs : Sound w.toRecords) (h : OwnInv env eventId w)
    (hrow : w.RowOk q d)
    (hφ : RowFacts eventId (w.rowsFor eventId env.receiverUrl) (.upserting m q (some d)))
    (hexec : w.exec (.updateDelivery d.id (inFlightData t)) c = some (r, w')) :
    OwnInv env eventId w' ∧ RowFacts eventId (w'.rowsFor eventId env.receiverUrl)
      (Phase.next (.upserting m q (some d)) (.updateDelivery d.id (inFlightData t)) r) := by
  have hown : q.eventId = eventId →
      d ∈ w.rowsFor eventId env.receiverUrl ∧ d.status.terminal = false := fun hq =>
    ⟨(hφ hq).2.2 d rfl, (hφ hq).1 d ((hφ hq).2.2 d rfl)⟩
  refine ⟨ownInv_update hs h hrow hown hexec, ?_⟩
  cases r with
  | error e => exact trivial
  | ok row =>
      intro hq
      rcases own_update hs h (hown hq).1 hexec with ⟨-, e, he⟩ | ⟨hmem, -, hanswer⟩
      · cases he
      · rw [hanswer row rfl]
        exact ⟨hmem, rfl⟩

/-- The first attempt of an event without a row opens its only one. -/
theorem own_upsertCreate {m : Message} {q : QueueMessage} {t : ℚ} {r : Except JsError Delivery}
    (h : OwnInv env q.eventId w)
    (hφ : RowFacts q.eventId (w.rowsFor q.eventId env.receiverUrl) (.upserting m q none))
    (hexec : w.exec (.createDelivery (inFlightDelivery q.eventId q.tenantId env.receiverUrl t)) c =
      some (r, w')) :
    OwnInv env q.eventId w' ∧ RowFacts q.eventId (w'.rowsFor q.eventId env.receiverUrl)
      (Phase.next (.upserting m q none)
        (.createDelivery (inFlightDelivery q.eventId q.tenantId env.receiverUrl t)) r) := by
  have hnone := (hφ rfl).2.1 rfl
  have hnew : ∀ x ∈ w'.deleted, ∀ q', parseQueueMessage x.body = some q' →
      q'.eventId = q.eventId → Closed (w'.rowsFor q.eventId env.receiverUrl) := by
    intro x hx q' hq' hev
    rw [World.deleted_of_exec hexec (by simp)] at hx
    obtain ⟨y, hy, -⟩ := h.deleted x hx q' hq' hev
    rw [hnone] at hy
    cases hy
  rcases own_create hnone hexec with ⟨hrows, e, rfl⟩ | ⟨d, hrows, hstatus, -, hanswer⟩
  · exact ⟨⟨by rw [hrows]; simp, hnew⟩, trivial⟩
  · refine ⟨⟨by rw [hrows]; simp, hnew⟩, ?_⟩
    cases r with
    | error e => exact trivial
    | ok row =>
        intro _
        rw [hanswer row rfl, hrows, hstatus]
        exact ⟨List.mem_cons_self, rfl⟩

/-- The outcome of an attempt is written on its own row; a final one closes it. -/
theorem own_mark {q : QueueMessage} {d : Delivery} {data : DeliveryData}
    {r : Except JsError Delivery} (hs : Sound w.toRecords) (h : OwnInv env eventId w)
    (hrow : w.RowOk q d) (hφ : q.eventId = eventId →
      d ∈ w.rowsFor eventId env.receiverUrl ∧ d.status.terminal = false)
    (hexec : w.exec (.updateDelivery d.id data) c = some (r, w')) :
    OwnInv env eventId w' ∧ ((∃ row, r = .ok row) → data.status.terminal = true →
      q.eventId = eventId → Closed (w'.rowsFor eventId env.receiverUrl)) := by
  refine ⟨ownInv_update hs h hrow hφ hexec, ?_⟩
  rintro ⟨row, rfl⟩ hterm hq
  rcases own_update hs h (hφ hq).1 hexec with ⟨-, e, he⟩ | ⟨hmem, -, -⟩
  · cases he
  · exact ⟨_, hmem, hterm⟩

/-- An operation that writes no row and looks for none. -/
theorem own_quiet (hinv : OwnInv env eventId w')
    (hφ : RowFacts eventId (w.rowsFor eventId env.receiverUrl) φ) (hallow : Allows env φ op)
    (hexec : w.exec op c = some (r, w')) (hupdate : ∀ id data, op ≠ .updateDelivery id data)
    (hcreate : ∀ data, op ≠ .createDelivery data)
    (hfind : ∀ eventId url, op ≠ .findDelivery eventId url) :
    OwnInv env eventId w' ∧
      RowFacts eventId (w'.rowsFor eventId env.receiverUrl) (φ.next op r) := by
  have hrows : w'.rowsFor eventId env.receiverUrl = w.rowsFor eventId env.receiverUrl := by
    rw [World.rowsFor, World.deliveries_of_exec hexec hcreate hupdate]
    rfl
  rw [hrows]
  exact ⟨hinv, rowFacts_next hupdate hcreate hfind hφ hallow⟩

/-- **One operation of a handler that owns its rows.** -/
theorem own_step (hs : Sound w.toRecords) (hP : w.PhaseFacts φ) (h : OwnInv env eventId w)
    (hφ : RowFacts eventId (w.rowsFor eventId env.receiverUrl) φ) (hallow : Allows env φ op)
    (hexec : w.exec op c = some (r, w')) :
    OwnInv env eventId w' ∧
      RowFacts eventId (w'.rowsFor eventId env.receiverUrl) (φ.next op r) := by
  cases hallow with
  -- a message that cannot be read is never of an event in custody
  | poisonDelete => exact absurd hP not_false
  | settledDelete =>
      exact own_quiet (ownInv_delete h hP.1 hφ hexec) hφ .settledDelete hexec (by simp) (by simp)
        (by simp)
  | completeDelete =>
      exact own_quiet (ownInv_delete h hP.1 hφ hexec) hφ .completeDelete hexec (by simp) (by simp)
        (by simp)
  | check =>
      obtain ⟨hw, -, -⟩ := World.exec_findDelivery hexec
      refine ⟨by rw [hw]; exact h, ?_⟩
      cases r with
      | error e => exact trivial
      | ok existing => exact rowFacts_afterCheck h hexec
  | look =>
      obtain ⟨hw, -, -⟩ := World.exec_findDelivery hexec
      refine ⟨by rw [hw]; exact h, ?_⟩
      cases r with
      | error e => exact trivial
      | ok found => exact rowFacts_afterLook hφ hexec
  | upsertUpdate => exact own_upsertUpdate hs h (hP.2 _ rfl) hφ hexec
  -- a row is created for the event, or for another one
  | @upsertCreate m q t =>
      by_cases hq : q.eventId = eventId
      · subst hq
        exact own_upsertCreate h hφ hexec
      · have hne : ∀ q', (Phase.upserting m q none).writes = some q' → q'.eventId ≠ eventId := by
          rintro q' ⟨rfl⟩
          exact hq
        refine ⟨ownInv_same h (rows_same hs hP .upsertCreate hexec hne)
          (World.deleted_of_exec hexec (by simp)), ?_⟩
        cases r with
        | error e => exact trivial
        | ok row => exact fun hq' => absurd hq' hq
  | retry =>
      refine ⟨(own_mark hs h hP.2.1 hφ hexec).1, ?_⟩
      cases r <;> exact trivial
  -- a final status closes the row, and the handler has nothing left to write
  | markDead | markDone =>
      obtain ⟨hinv, hclosed⟩ := own_mark hs h hP.2.1 hφ hexec
      refine ⟨hinv, ?_⟩
      cases r with
      | error e => exact trivial
      | ok row => exact fun hq => hclosed ⟨row, rfl⟩ rfl hq
  | _ =>
      refine own_quiet (ownInv_same h ?_ ?_) hφ (by constructor <;> assumption) hexec (by simp)
        (by simp) (by simp)
      · rw [World.rowsFor, World.deliveries_of_exec hexec (by simp) (by simp)]
        rfl
      · exact World.deleted_of_exec hexec (by simp)

end

/-! ## The contract -/

/-- Phases in which a handler relies on its rows. -/
def Phase.owns : Phase → Option QueueMessage
  | .due _ _ q _ => some q
  | φ => φ.writes

/-- A process that relies on the rows of an event was started to handle its messages. -/
theorem handles_of_owns {w : World} {j : Job} {φ : Phase} (hP : w.PhaseFacts φ)
    (hj : WorksFor j φ) {q : QueueMessage} (hφ : φ.owns = some q) :
    j.handles q.eventId = true := by
  have hdeliver : ∀ m, φ.message = some m → (∀ q d, φ ≠ .complete m q d) →
      parseQueueMessage m.body = some q → j.handles q.eventId = true := by
    intro m hm hne hq
    rcases hj m hm with rfl | ⟨-, q', d, h⟩
    · simp [Job.handles, hq]
    · exact absurd h (hne q' d)
  cases φ <;> cases hφ
  case due m st e => exact hdeliver m rfl (by simp) hP.2
  case upserting m found => exact hdeliver m rfl (by simp) hP.1.2
  case trying m d p x a => exact hdeliver m rfl (by simp) hP.1.2
  case buried m d => exact hdeliver m rfl (by simp) hP.1.2
  case accepted m d => exact hdeliver m rfl (by simp) hP.1.2

theorem Phase.owns_of_writes {φ : Phase} {q : QueueMessage} (h : φ.writes = some q) :
    φ.owns = some q := by
  cases φ <;> first | exact h | cases h

/-- When somebody else writes the account of the event, this process does not rely on it. -/
theorem account_same_or_apart {env : Env} {eventId : JsString} {w w' : World} {j i : Job}
    {φ ψ : Phase} {op : Op} {c : Choice} {r : Except JsError op.Res} (hs : Sound w.toRecords)
    (hP : w.PhaseFacts φ) (hj : WorksFor j φ) (hPψ : w.PhaseFacts ψ) (hi : WorksFor i ψ)
    (hap : ¬ (j.handles eventId = true ∧ i.handles eventId = true)) (hallow : Allows env φ op)
    (hexec : w.exec op c = some (r, w')) :
    account env eventId w' = account env eventId w ∨
      ∀ q, ψ.owns = some q → q.eventId ≠ eventId := by
  by_cases hother : ∀ q, φ.writes = some q → q.eventId ≠ eventId
  · exact .inl (account_same hs hP hallow hexec hother)
  · push Not at hother
    obtain ⟨q, hq, hev⟩ := hother
    refine .inr fun q' hq' hev' => hap ⟨?_, hev' ▸ handles_of_owns hPψ hi hq'⟩
    exact hev ▸ handles_of_owns hP hj (Phase.owns_of_writes hq)

/-- A handler that may write the account of the event has no closed row. -/
theorem not_closed_of_writes {env : Env} {eventId : JsString} {w : World} {φ : Phase}
    {q : QueueMessage} (h : OwnInv env eventId w)
    (hφ : RowFacts eventId (w.rowsFor eventId env.receiverUrl) φ) (hq : φ.writes = some q)
    (hev : q.eventId = eventId) : ¬ Closed (w.rowsFor eventId env.receiverUrl) := by
  rintro ⟨d, hd, hterm⟩
  cases φ <;> cases hq
  case upserting m found =>
    rw [(hφ hev).1 d hd] at hterm
    cases hterm
  all_goals
    rw [h.unique d hd _ (hφ hev).1, (hφ hev).2] at hterm
    cases hterm

/-- What a process knows about its rows lasts while others work. -/
theorem rowFacts_others {env : Env} {eventId : JsString} {w w' : World} {j i : Job} {φ ψ : Phase}
    {op : Op} {c : Choice} {r : Except JsError op.Res} (hs : Sound w.toRecords)
    (hP : w.PhaseFacts φ) (hj : WorksFor j φ) (hPψ : w.PhaseFacts ψ) (hi : WorksFor i ψ)
    (hap : ¬ (j.handles eventId = true ∧ i.handles eventId = true)) (h : OwnInv env eventId w)
    (hφ : RowFacts eventId (w.rowsFor eventId env.receiverUrl) φ) (hallow : Allows env φ op)
    (hexec : w.exec op c = some (r, w'))
    (hψ : RowFacts eventId (w.rowsFor eventId env.receiverUrl) ψ) :
    RowFacts eventId (w'.rowsFor eventId env.receiverUrl) ψ := by
  by_cases hother : ∀ q, φ.writes = some q → q.eventId ≠ eventId
  · rw [rows_same hs hP hallow hexec hother]
    exact hψ
  · -- the other process handles this event, so this one does not
    push Not at hother
    obtain ⟨q, hq, hev⟩ := hother
    have hjh : j.handles eventId = true :=
      hev ▸ handles_of_owns hP hj (Phase.owns_of_writes hq)
    have hmine : ∀ q', ψ.owns = some q' → q'.eventId ≠ eventId := fun q' hq' hev' =>
      hap ⟨hjh, hev' ▸ handles_of_owns hPψ hi hq'⟩
    have hopen := not_closed_of_writes h hφ hq hev
    cases ψ with
    | due m st q' e => exact fun hq' => absurd hq' (hmine _ rfl)
    | upserting m q' found => exact fun hq' => absurd hq' (hmine _ rfl)
    | trying m q' d p x a => exact fun hq' => absurd hq' (hmine _ rfl)
    | buried m q' d => exact fun hq' => absurd hq' (hmine _ rfl)
    | accepted m q' d => exact fun hq' => absurd hq' (hmine _ rfl)
    | settled m q' d => exact fun hq' => absurd (hψ hq') hopen
    | complete m q' d => exact fun hq' => absurd (hψ hq') hopen
    | _ => trivial

/-- The contract of a run with one handler at a time for the event. -/
def exclusive (env : Env) (eventId : JsString) : (custody env).Extension where
  Inv s := OwnInv env eventId s.world
  Facts _ _ φ s := RowFacts eventId (s.world.rowsFor eventId env.receiverUrl) φ
  -- one handler of the event at a time
  Apart j i := ¬ (j.handles eventId = true ∧ i.handles eventId = true)
  Ok _ _ _ _ _ := True
  Fresh _ _ := True
  begins {pid j s p} _ _ _ _ := by
    change RowFacts eventId _ (firstPhase j s)
    obtain ⟨m, -, h⟩ | h | h | h | ⟨row, event, h⟩ := firstPhase_cases j s <;>
      (rw [h]; exact trivial)
  surroundings {dt s s'} hinv h := by
    obtain rfl := passTime_eq_some h
    exact ⟨⟨hinv.unique, hinv.deleted⟩, fun _ hn => hn, fun _ _ _ hφ => hφ⟩
  call hs hP _ _ hinv hφ hallow _ hexec := by
    obtain ⟨hexec, -, -⟩ := device_exec hexec
    exact own_step hs hP.1 hinv hφ hallow hexec
  frame hs hP hPψ hinv _ hap _ hφ hallow _ hexec hψ := by
    obtain ⟨hexec, -, -⟩ := device_exec hexec
    exact rowFacts_others hs hP.1 hP.2 hPψ.1 hPψ.2 hap hinv hφ hallow hexec hψ
  after hend hφ ha := by
    obtain ⟨m, ack, rfl, rfl, rfl, rfl⟩ := after_eq_some ha
    obtain ⟨-, q, d, rfl⟩ := hend
    exact hφ
  apart_after ha _ := by
    obtain ⟨m, ack, rfl, rfl, rfl, rfl⟩ := after_eq_some ha
    exact fun h => absurd h.1 (by simp [Job.handles])
  apart_symm hap h := hap ⟨h.2, h.1⟩
  fresh_succ _ := trivial
  fresh_call _ _ _ := trivial

/-- The contract at the start. -/
theorem exclusive_start {env : Env} {eventId : JsString} {s : Sys} (h : Start s) :
    (exclusive env eventId).contract.Good s := by
  refine .of_empty ⟨h.sound, ?_, ?_⟩ ⟨trivial, trivial⟩ h.tasks
  · simp [World.rowsFor, h.deliveries]
  · simp [h.deleted]

/-- No two handlers of the event are under way together. -/
theorem apart_of_exclusiveStep {env : Env} {eventId : JsString} {s : Sys} {j : Job}
    (hnum : ∀ pid t, s.tasks pid = some t → pid < s.spawned)
    (h : ExclusiveStep eventId s (.spawn j)) :
    ∀ pid t, s.tasks pid = some t → (exclusive env eventId).contract.Apart j t.job :=
  fun pid t ht => ⟨trivial, h pid (hnum pid t ht) t ht⟩
