/-
# Bounded attempts

The webhook of an event is posted at most as often as configured (`attempts_bounded`) in
runs with one handler at a time, if nothing interrupts a handler between the last attempt the
maximum leaves and the final status of its delivery row.  An attempt is counted before it is
made, but whether attempts are used up is only looked at after one has failed, and what follows
then (archive, dead letter, final status) may be interrupted (`attempts_exceeded`).

* `AttemptInv`: the calls are covered by counted attempts, and stay within the maximum.
* `AfterPosting`: a handler that has posted still owes the row an outcome, or the row is closed,
  or attempts are left.
* `Guarded`: once the calls have reached the maximum, the row is closed, or the handler that
  made the last one is still alive, so no attempt is counted any more.
-/
import Waybill.Closing
import Waybill.Exclusive

open Worker Publisher Api Records

/-! ## The condition -/

/-- The operation posts the webhook of the event. -/
def Op.postsFor (eventId : JsString) : Op → Bool
  | .fetch _ body _ => postedEvent body == some eventId
  | _ => false

/-- The process has posted the webhook of the event. -/
def hasPosted (eventId : JsString) (trace : List TraceEntry) (pid : ℕ) : Bool :=
  trace.any (fun x => x.pid == pid && x.op.postsFor eventId)

/-- The process has posted the webhook of the event, with as many attempts counted as the
maximum `n` allows, and the delivery row has no final status yet. -/
def exhausting (env : Env) (eventId : JsString) (n : ℕ) (s : State) (pid : ℕ) : Bool :=
  hasPosted eventId s.trace pid && (s.world.rowsFor eventId env.receiverUrl).any
    (fun d => decide (n ≤ d.attemptCount) && !d.status.terminal)

/-- Nothing fails, and no process disappears, between the last attempt and the final status. -/
def UninterruptedStep (env : Env) (eventId : JsString) (n : ℕ) (s : Sys) :
    PoolAction Choice Job ℚ → Prop
  | .step pid c => exhausting env eventId n s.world pid = true → c.fault = .none
  | .crash pid => exhausting env eventId n s.world pid = false
  | _ => True

instance (env : Env) (eventId : JsString) (n : ℕ) (s : Sys) (a : PoolAction Choice Job ℚ) :
    Decidable (UninterruptedStep env eventId n s a) :=
  a.casesOn (motive := fun a => Decidable (UninterruptedStep env eventId n s a))
    (fun _ => .isTrue trivial) (fun _ => .isTrue trivial)
    (fun pid c => inferInstanceAs
      (Decidable (exhausting env eventId n s.world pid = true → c.fault = .none)))
    (fun _ => .isTrue trivial)
    (fun pid => inferInstanceAs (Decidable (exhausting env eventId n s.world pid = false)))

section

variable {env : Env} {eventId : JsString} {n : ℕ} {s : State} {x : TraceEntry}
  {trace : List TraceEntry} {pid : ℕ}

/-- A process posts once it has an entry for it. -/
theorem hasPosted_cons : hasPosted eventId (x :: trace) pid = true ↔
    (x.pid = pid ∧ x.op.postsFor eventId = true) ∨ hasPosted eventId trace pid = true := by
  unfold hasPosted
  rw [List.any_cons, Bool.or_eq_true, Bool.and_eq_true, beq_iff_eq]

theorem hasPosted_of_fresh (h : ∀ x ∈ trace, x.pid < pid) :
    ¬ hasPosted eventId trace pid = true := by
  intro hposted
  obtain ⟨x, hx, hentry⟩ := List.any_eq_true.mp hposted
  rw [Bool.and_eq_true, beq_iff_eq] at hentry
  exact absurd hentry.1 (ne_of_lt (h x hx))

/-- A process that has posted, with an open row that has used up its attempts. -/
theorem exhausting_of_posted {d : Delivery} (hposted : hasPosted eventId s.trace pid = true)
    (hd : d ∈ s.world.rowsFor eventId env.receiverUrl) (hopen : d.status.terminal = false)
    (hle : n ≤ d.attemptCount) : exhausting env eventId n s pid = true := by
  unfold exhausting
  rw [hposted, Bool.true_and, List.any_eq_true]
  refine ⟨d, hd, ?_⟩
  rw [hopen, decide_eq_true hle]
  rfl

end

/-! ## Calls and attempts -/

/-- Every webhook call is covered by a counted attempt, and the calls are within the maximum. -/
structure AttemptInv (n : ℕ) (a : Account) : Prop where
  covered : ∀ d ∈ a.rows, a.posts.length ≤ d.attemptCount
  bounded : a.posts.length ≤ n
  none : a.rows = [] → a.posts = []

/-- An attempt that has not posted yet may still do so. -/
def MayPost (eventId : JsString) (n : ℕ) (posts : List Post) : Phase → Prop
  | .trying _ q d posted _ _ => q.eventId = eventId → posted = false →
      posts.length + 1 ≤ d.attemptCount ∧ posts.length < n
  | _ => True

/-- No attempt is counted on a row of the event once the calls have reached the maximum. -/
def CountsBelow (env : Env) (eventId : JsString) (n : ℕ) (w : World) (op : Op) : Prop :=
  ∀ id t, op = .updateDelivery id (inFlightData t) →
    ∀ d ∈ w.rowsFor eventId env.receiverUrl, d.id = id → (account env eventId w).posts.length < n

section

variable {env : Env} {eventId : JsString} {n : ℕ} {w w' : World} {φ : Phase} {op : Op}
  {c : Choice} {r : Except JsError op.Res}

/-- The configured maximum admits one attempt. -/
theorem one_le_max {max : ℚ} (h : maxDeliveryAttempts env = .ok max) : 1 ≤ max := by
  unfold maxDeliveryAttempts at h
  split at h
  · rw [← Except.ok.inj h]
    norm_num [defaultMaxAttempts]
  · split_ifs at h with hlt
    rw [← Except.ok.inj h]
    exact not_lt.mp hlt
  · cases h

/-- The calls for an event are left alone by an operation that is none of them. -/
theorem posts_account (hexec : w.exec op c = some (r, w'))
    (hfetch : op.postsFor eventId = false) :
    (account env eventId w').posts = (account env eventId w).posts := by
  cases op with
  | fetch url body signature =>
      obtain ⟨redirects, answer, hcons⟩ := World.exec_fetch hexec
      have hother : ¬ (postedEvent body == some eventId) = true := by
        rw [show (postedEvent body == some eventId) = false from hfetch]
        exact Bool.false_ne_true
      change w'.posts.filter _ = w.posts.filter _
      rw [hcons]
      exact List.filter_cons_of_neg hother
  | _ =>
      unfold account
      rw [World.posts_of_exec hexec (by simp)]

/-- The rows stay when no delivery is written. -/
theorem rows_account (hexec : w.exec op c = some (r, w'))
    (hcreate : ∀ data, op ≠ .createDelivery data)
    (hupdate : ∀ id data, op ≠ .updateDelivery id data) :
    (account env eventId w').rows = (account env eventId w).rows := by
  unfold account
  rw [World.rowsFor, World.deliveries_of_exec hexec hcreate hupdate]
  rfl

/-- An update of an own row loses no attempts. -/
theorem attemptInv_update (hs : Sound w.toRecords) (hown : OwnInv env eventId w)
    (h : AttemptInv n (account env eventId w)) {d : Delivery} {data : DeliveryData}
    {r : Except JsError Delivery} (hd : d ∈ w.rowsFor eventId env.receiverUrl)
    (hexec : w.exec (.updateDelivery d.id data) c = some (r, w')) :
    AttemptInv n (account env eventId w') := by
  have hposts : (account env eventId w').posts = (account env eventId w).posts :=
    posts_account hexec rfl
  rcases own_update hs hown hd hexec with ⟨hrows, -⟩ | ⟨hmem, hall, -⟩
  · have hsame : (account env eventId w').rows = (account env eventId w).rows := hrows
    exact ⟨by rw [hsame, hposts]; exact h.covered, by rw [hposts]; exact h.bounded,
      by rw [hsame, hposts]; exact h.none⟩
  · refine ⟨fun x hx => ?_, by rw [hposts]; exact h.bounded, fun hnil => ?_⟩
    · rw [hposts, hall x hx]
      exact le_trans (h.covered d hd) (Nat.le_add_right _ _)
    · rw [show (account env eventId w').rows = w'.rowsFor eventId env.receiverUrl from rfl] at hnil
      rw [hnil] at hmem
      cases hmem

/-- An operation that touches neither the rows nor the webhook calls. -/
theorem attemptInv_same (h : AttemptInv n (account env eventId w))
    (hrows : (account env eventId w').rows = (account env eventId w).rows)
    (hposts : (account env eventId w').posts = (account env eventId w).posts) :
    AttemptInv n (account env eventId w') :=
  ⟨by rw [hrows, hposts]; exact h.covered, by rw [hposts]; exact h.bounded,
    by rw [hrows, hposts]; exact h.none⟩

/-! ## One operation -/

/-- Another attempt is counted on the row. -/
theorem attempt_again (hs : Sound w.toRecords) (hown : OwnInv env eventId w) {m : Message}
    {q : QueueMessage} {d : Delivery} {t : ℚ} {r : Except JsError Delivery}
    (hd : d ∈ w.rowsFor eventId env.receiverUrl) (h : AttemptInv n (account env eventId w))
    (hok : CountsBelow env eventId n w (.updateDelivery d.id (inFlightData t)))
    (hexec : w.exec (.updateDelivery d.id (inFlightData t)) c = some (r, w')) :
    AttemptInv n (account env eventId w') ∧ MayPost eventId n (account env eventId w').posts
      ((Phase.upserting m q (some d)).next (.updateDelivery d.id (inFlightData t)) r) := by
  refine ⟨attemptInv_update hs hown h hd hexec, ?_⟩
  cases r with
  | error e => exact trivial
  | ok row =>
      intro _ _
      rcases own_update hs hown hd hexec with ⟨-, e, he⟩ | ⟨-, -, hanswer⟩
      · cases he
      · rw [posts_account hexec rfl, hanswer row rfl]
        exact ⟨Nat.succ_le_succ (h.covered d hd), hok d.id t rfl d hd rfl⟩

/-- The first attempt is counted on a new row. -/
theorem attempt_first {m : Message} {q : QueueMessage} {t : ℚ} {r : Except JsError Delivery}
    (hn : 1 ≤ n) (hnone : w.rowsFor q.eventId env.receiverUrl = [])
    (h : AttemptInv n (account env q.eventId w))
    (hexec : w.exec (.createDelivery (inFlightDelivery q.eventId q.tenantId env.receiverUrl t)) c =
      some (r, w')) :
    AttemptInv n (account env q.eventId w') ∧ MayPost q.eventId n (account env q.eventId w').posts
      ((Phase.upserting m q none).next
        (.createDelivery (inFlightDelivery q.eventId q.tenantId env.receiverUrl t)) r) := by
  have hposts : (account env q.eventId w').posts = [] := by
    rw [posts_account hexec rfl]
    exact h.none hnone
  rcases own_create hnone hexec with ⟨hrows, e, rfl⟩ | ⟨d, hrows, -, hcount, hanswer⟩
  · have hnil : (account env q.eventId w').rows = [] := hrows
    exact ⟨⟨by rw [hnil]; simp, by rw [hposts]; simp, fun _ => hposts⟩, trivial⟩
  · have hcons : (account env q.eventId w').rows = [d] := hrows
    refine ⟨⟨?_, ?_, fun _ => hposts⟩, ?_⟩
    · rw [hcons, hposts]
      simp
    · rw [hposts]
      exact Nat.zero_le _
    · cases r with
      | error e => exact trivial
      | ok row =>
          intro _ _
          rw [hposts, hanswer row rfl, hcount]
          exact ⟨le_refl _, hn⟩

/-- The webhook is posted in an attempt that has not done so. -/
theorem attempt_posted (hown : OwnInv env eventId w) {d : Delivery} {url body signature : JsString}
    {r : Except JsError ℕ} (hd : d ∈ w.rowsFor eventId env.receiverUrl)
    (hevent : postedEvent body = some eventId)
    (hmay : (account env eventId w).posts.length + 1 ≤ d.attemptCount ∧
      (account env eventId w).posts.length < n)
    (hexec : w.exec (.fetch url body signature) c = some (r, w')) :
    AttemptInv n (account env eventId w') := by
  obtain ⟨redirects, answer, hcons⟩ := World.exec_fetch hexec
  have hposts : (account env eventId w').posts.length =
      (account env eventId w).posts.length + 1 := by
    unfold account
    rw [hcons]
    simp [hevent]
  have hrows : (account env eventId w').rows = (account env eventId w).rows :=
    rows_account hexec (by simp) (by simp)
  refine ⟨?_, ?_, ?_⟩
  · rw [hrows, hposts]
    intro y hy
    rw [hown.unique y hy d hd]
    exact hmay.1
  · rw [hposts]
    exact hmay.2
  · rw [hrows]
    intro hnil
    rw [show (account env eventId w).rows = w.rowsFor eventId env.receiverUrl from rfl] at hnil
    rw [hnil] at hd
    cases hd

/-- The attempt of an event is not for another one. -/
theorem mayPost_of_not {posts : List Post} {ψ : Phase}
    (h : ∀ q, ψ.owns = some q → q.eventId ≠ eventId) : MayPost eventId n posts ψ := by
  cases ψ with
  | trying m q d p x a => exact fun hq => absurd hq (h q rfl)
  | _ => trivial

/-- Only a handler past its query, and before its post, may post after its next operation. -/
theorem mayPost_next {posts posts' : List Post} (hφ : MayPost eventId n posts φ)
    (hallow : Allows env φ op) (hposts : posts' = posts)
    (hcount : ∀ q, φ.writes = some q → q.eventId = eventId →
      (∀ data, op ≠ .createDelivery data) ∧ ∀ id t, op ≠ .updateDelivery id (inFlightData t)) :
    MayPost eventId n posts' (φ.next op r) := by
  rw [hposts]
  cases hallow with
  | decide =>
      cases r with
      | error e => exact trivial
      | ok t =>
          rename_i m raw
          change MayPost eventId n posts (afterDecision m _)
          unfold afterDecision
          cases parseQueueMessage m.body <;> split_ifs <;> exact trivial
  | limit =>
      cases r with
      | error e => exact trivial
      | ok result =>
          change MayPost eventId n posts (if result.1 = 1 then _ else _)
          split_ifs <;> exact trivial
  | check =>
      cases r with
      | error e => exact trivial
      | ok existing =>
          rename_i m st q
          change MayPost eventId n posts (afterCheck m st q existing)
          cases existing with
          | none => exact trivial
          | some d =>
              unfold afterCheck
              simp only
              split_ifs <;> exact trivial
  | fetch =>
      cases r with
      | error e => exact fun _ hfalse => nomatch hfalse
      | ok status =>
          change MayPost eventId n posts (afterPost _ _ _ _ _ status)
          unfold afterPost
          split_ifs
          · exact trivial
          · exact fun _ hfalse => nomatch hfalse
  -- no attempt of this event is counted by the operation
  | upsertUpdate =>
      cases r with
      | error e => exact trivial
      | ok row => exact fun hq => absurd rfl ((hcount _ rfl hq).2 _ _)
  | upsertCreate =>
      cases r with
      | error e => exact trivial
      | ok row => exact fun hq => absurd rfl ((hcount _ rfl hq).1 _)
  | _ => cases r <;> first | exact trivial | exact hφ

/-- **One operation keeps the webhook calls within the attempts.** -/
theorem attempt_step (hs : Sound w.toRecords) (hP : w.PhaseFacts φ) (hown : OwnInv env eventId w)
    (hrow : RowFacts eventId (w.rowsFor eventId env.receiverUrl) φ) (hn : 1 ≤ n)
    (h : AttemptInv n (account env eventId w))
    (hφ : MayPost eventId n (account env eventId w).posts φ) (hallow : Allows env φ op)
    (hok : CountsBelow env eventId n w op) (hexec : w.exec op c = some (r, w')) :
    AttemptInv n (account env eventId w') ∧
      MayPost eventId n (account env eventId w').posts (φ.next op r) := by
  -- a process that is not at work on the event leaves its account alone
  by_cases hother : ∀ q, φ.writes = some q → q.eventId ≠ eventId
  · have hsame := account_same hs hP hallow hexec hother
    rw [hsame]
    exact ⟨h, mayPost_next hφ hallow rfl fun q hq hev => absurd hev (hother q hq)⟩
  push Not at hother
  obtain ⟨q₀, hq₀, rfl⟩ := hother
  have hmark : ∀ {d : Delivery} {data : DeliveryData} {r : Except JsError Delivery},
      d ∈ w.rowsFor q₀.eventId env.receiverUrl →
      w.exec (.updateDelivery d.id data) c = some (r, w') →
      AttemptInv n (account env q₀.eventId w') := fun hd hexec =>
    attemptInv_update hs hown h hd hexec
  cases hallow with
  | upsertUpdate =>
      cases hq₀
      exact attempt_again hs hown ((hrow rfl).2.2 _ rfl) h hok hexec
  | upsertCreate =>
      cases hq₀
      exact attempt_first hn ((hrow rfl).2.1 rfl) h hexec
  | fetch =>
      cases hq₀
      refine ⟨attempt_posted hown (hrow rfl).1 (postedEvent_webhookBody _ _) (hφ rfl rfl) hexec,
        ?_⟩
      cases r with
      | error e => exact fun _ hfalse => nomatch hfalse
      | ok status =>
          change MayPost q₀.eventId n _ (afterPost _ _ _ _ _ status)
          unfold afterPost
          split_ifs
          · exact trivial
          · exact fun _ hfalse => nomatch hfalse
  -- the row is written after the attempt, and nothing more is posted
  | retry | markDead | markDone =>
      cases hq₀
      refine ⟨hmark (hrow rfl).1 hexec, ?_⟩
      cases r <;> exact trivial
  | _ =>
      have hposts : (account env q₀.eventId w').posts = (account env q₀.eventId w).posts :=
        posts_account hexec rfl
      refine ⟨attemptInv_same h (rows_account hexec (by simp) (by simp)) hposts, ?_⟩
      rw [hposts]
      cases r <;> first | (cases hq₀; done) | exact trivial | exact hφ

end

/-! ## After a post -/

/-- A handler and what it owes agree. -/
def Linked : Phase → Closing → Prop
  | .trying _ _ d _ _ _, τ => τ = .owing d
  | .buried _ _ d, τ => τ = .owing d
  | .accepted _ _ d, τ => τ = .owing d
  | .complete .., _ => True
  | .deferring _, _ => True
  | φ, τ => φ.message.isSome = true → τ = .idle

/-- Nothing more comes of an attempt: the row is closed, or attempts are left. -/
def AtRest (eventId : JsString) (n : ℕ) (j : Job) (rows : List Delivery) : Prop :=
  Closed rows ∨ (j.handles eventId = true ∧ ∀ d ∈ rows, d.attemptCount < n)

/-- Where a process stands that has posted the webhook of the event. -/
def AfterPosting (eventId : JsString) (n : ℕ) (j : Job) (rows : List Delivery) : Phase → Prop
  | .trying _ q _ posted _ _ => q.eventId = eventId ∧ posted = true
  | .buried _ q _ => q.eventId = eventId
  | .accepted _ q _ => q.eventId = eventId
  | .complete _ q _ => q.eventId = eventId
  | .deferring _ => AtRest eventId n j rows
  | .over => AtRest eventId n j rows
  | _ => False

/-- The message and the row of an attempt that is under way. -/
def Phase.counted : Phase → Option (QueueMessage × Delivery)
  | .trying _ q d _ _ _ => some (q, d)
  | .buried _ q d => some (q, d)
  | .accepted _ q d => some (q, d)
  | _ => none

/-- A row that exists is updated. -/
theorem World.updateDelivery_answered {w : World} {id : JsString} {data : DeliveryData}
    (h : ∃ d ∈ w.deliveries, d.id = id) : ∃ a, (w.updateDelivery id data).1 = .ok a := by
  obtain ⟨d, hd, rfl⟩ := h
  unfold updateDelivery
  cases hfind : w.deliveryById d.id with
  | some x => exact ⟨_, rfl⟩
  | none =>
      have hnone := List.find?_eq_none.mp hfind d hd
      simp at hnone

/-- The dead letter of a delivery on record is written. -/
theorem World.upsertDeadLetter_answered {w : World} {input : NewDeadLetter} {id : JsString}
    (hevent : ∃ e ∈ w.events, e.id = input.eventId)
    (hdelivery : ∃ d ∈ w.deliveries, d.id = input.deliveryId) :
    ∃ a, (w.upsertDeadLetter input id).1 = .ok a := by
  have hboth : (w.events.any (fun e => e.id == input.eventId) &&
      w.deliveries.any (fun d => d.id == input.deliveryId)) = true := by
    rw [Bool.and_eq_true, List.any_eq_true, List.any_eq_true]
    simpa using ⟨hevent, hdelivery⟩
  unfold upsertDeadLetter
  cases w.deadLetters.find? (fun d => d.deliveryId == input.deliveryId) with
  | some x => exact ⟨_, rfl⟩
  | none =>
      simp only
      rw [if_pos hboth]
      exact ⟨_, rfl⟩

section

variable {env : Env} {eventId : JsString} {n : ℕ} {w w' : World} {j : Job} {φ : Phase}
  {τ : Closing} {op : Op} {c : Choice} {r : Except JsError op.Res} {q : QueueMessage}
  {d : Delivery}

/-- The two go on agreeing. -/
theorem Linked.next (h : Linked φ τ) (hallow : Allows env φ op) :
    Linked (φ.next op r) (τ.next op r) := by
  cases hallow with
  | decide =>
      obtain rfl : τ = .idle := h rfl
      cases r with
      | error e => exact fun hnone => nomatch hnone
      | ok t =>
          rename_i m raw
          change Linked (afterDecision m _) .idle
          unfold afterDecision
          cases parseQueueMessage m.body <;> split_ifs <;> exact fun _ => rfl
  | limit =>
      obtain rfl : τ = .idle := h rfl
      cases r with
      | error e => exact fun hnone => nomatch hnone
      | ok result =>
          change Linked (if result.1 = 1 then _ else _) .idle
          split_ifs
          · exact fun _ => rfl
          · exact trivial
  | check =>
      obtain rfl : τ = .idle := h rfl
      cases r with
      | error e => exact fun hnone => nomatch hnone
      | ok existing =>
          rename_i m st q
          change Linked (afterCheck m st q existing) .idle
          cases existing with
          | none => exact fun _ => rfl
          | some d =>
              unfold afterCheck
              simp only
              split_ifs <;> exact fun _ => rfl
  | fetch =>
      obtain rfl := h
      cases r with
      | error e => exact rfl
      | ok status =>
          change Linked (afterPost _ _ _ _ _ status) _
          unfold afterPost
          split_ifs <;> exact rfl
  -- inside an attempt both protocols know its row
  | secret | load | failureRead | failureNow | failureWrite | failureExpire | backoff | retry
  | archive | bury | markDead | successRead | successNow | successWrite | successExpire
  | markDone =>
      obtain rfl := h
      cases r <;> first | exact rfl | exact trivial | exact fun hnone => nomatch hnone
  | completeRelease | completeDelete | deferRelease | deferHide | deferCount =>
      cases r <;> first | exact trivial | exact fun hnone => nomatch hnone
  -- publishing, ingesting and replaying make no webhook call
  | send | sentNow | publish | ingestTenant | ingestNow | ingestLimit | draft | upload
  | commitInline | commitUploaded | replayKey | replaySource | replayArchive | commitReplay =>
      cases r <;> exact fun hnone => nomatch hnone
  | _ =>
      obtain rfl : τ = .idle := h rfl
      cases r <;> first | exact fun _ => rfl | exact rfl

/-- The row of an attempt for the event is its own, and open. -/
theorem rowFacts_counted (hrow : RowFacts eventId (w.rowsFor eventId env.receiverUrl) φ)
    (hφ : φ.counted = some (q, d)) (hev : q.eventId = eventId) :
    d ∈ w.rowsFor eventId env.receiverUrl ∧ d.status.terminal = false := by
  cases φ <;> cases hφ
  all_goals exact hrow hev

theorem Phase.writes_of_counted (hφ : φ.counted = some (q, d)) : φ.writes = some q := by
  cases φ <;> cases hφ
  all_goals rfl

/-- During an attempt no operation but the payload's loading goes wrong by itself. -/
theorem answered_of_healthy (hs : Sound w.toRecords) (hP : w.PhaseFacts φ)
    (hallow : Allows env φ op) (hφ : φ.counted = some (q, d)) (hload : ∀ key, op ≠ .getObject key)
    (c : Choice) : ∃ a, (w.apply op c).1 = .ok a := by
  have hrow : ∀ {q : QueueMessage} {d : Delivery}, w.RowOk q d →
      ∃ d' ∈ w.deliveries, d'.id = d.id := by
    rintro q d ⟨-, -, d', hd', hid, -⟩
    exact ⟨d', hd', hid⟩
  cases hallow with
  | load => exact absurd rfl (hload _)
  | retry | markDead | markDone => exact World.updateDelivery_answered (hrow hP.2.1)
  | bury =>
      obtain ⟨-, ⟨hev, -, d', hd', hid, hev', -⟩, -⟩ := hP
      obtain ⟨e, he, heid, -⟩ := hs.delivered d' hd'
      exact World.upsertDeadLetter_answered ⟨e, he, heid.trans hev'⟩ ⟨d', hd', hid⟩
  | _ => first | exact ⟨_, rfl⟩ | cases hφ

/-- An attempt that fails although nothing may fail once attempts are used up has some left. -/
theorem lt_of_error (hs : Sound w.toRecords) (hP : w.PhaseFacts φ) (hallow : Allows env φ op)
    (hφ : φ.counted = some (q, d)) (hload : ∀ key, op ≠ .getObject key)
    (hhealthy : n ≤ d.attemptCount → c.fault = .none) {e : JsError}
    (hexec : w.exec op c = some (.error e, w')) : d.attemptCount < n := by
  by_contra hge
  have happly := World.exec_of_healthy (hhealthy (not_lt.mp hge)) hexec
  obtain ⟨a, ha⟩ := answered_of_healthy hs hP hallow hφ hload c
  rw [happly] at ha
  cases ha

/-- During an attempt no other one is counted. -/
theorem counts_kept (hs : Sound w.toRecords) (hown : OwnInv env eventId w)
    (hallow : Allows env φ op) (hφ : φ.counted = some (q, d))
    (hd : d ∈ w.rowsFor eventId env.receiverUrl) (hexec : w.exec op c = some (r, w')) :
    ∀ x ∈ w'.rowsFor eventId env.receiverUrl, x.attemptCount = d.attemptCount := by
  intro x hx
  cases hallow with
  | retry | markDead | markDone =>
      cases hφ
      rcases own_update hs hown hd hexec with ⟨hrows, -⟩ | ⟨-, hall, -⟩
      · rw [hrows] at hx
        rw [hown.unique x hx _ hd]
      · rw [hall x hx]
        rfl
  | upsertUpdate | upsertCreate => cases hφ
  | _ =>
      have hrows : w'.rowsFor eventId env.receiverUrl = w.rowsFor eventId env.receiverUrl :=
        rows_account hexec (by simp) (by simp)
      rw [hrows] at hx
      rw [hown.unique x hx _ hd]

/-- Where attempts are left, the count is below the maximum. -/
theorem lt_of_isExhausted {k : ℕ} (hmax : maxDeliveryAttempts env = .ok (n : ℚ))
    (h : isExhausted env k = .ok false) : k < n := by
  unfold isExhausted at h
  rw [hmax] at h
  have hlt : ¬ (k : ℚ) ≥ n := of_decide_eq_false (Except.ok.inj h)
  exact_mod_cast not_le.mp hlt

/-- **After a post** a handler goes on owing the row an outcome, until it is closed or given the
time of another attempt; it fails only where attempts are left. -/
theorem AfterPosting.next (hs : Sound w.toRecords) (hP : w.PhaseFacts φ)
    (hown : OwnInv env eventId w)
    (hrow : RowFacts eventId (w.rowsFor eventId env.receiverUrl) φ) (hwork : WorksFor j φ)
    (hlinked : Linked φ τ) (hmax : maxDeliveryAttempts env = .ok (n : ℚ))
    (h : AfterPosting eventId n j (w.rowsFor eventId env.receiverUrl) φ)
    (hallow : Allows env φ op) (hcloses : Closes env τ op)
    (hhealthy : ∀ d ∈ w.rowsFor eventId env.receiverUrl, d.status.terminal = false →
      n ≤ d.attemptCount → c.fault = .none) (hexec : w.exec op c = some (r, w')) :
    AfterPosting eventId n j (w'.rowsFor eventId env.receiverUrl) (φ.next op r) := by
  -- a handler that stops while an attempt is left is at rest
  have hleft : ∀ {q : QueueMessage} {d : Delivery}, φ.counted = some (q, d) →
      q.eventId = eventId → d.attemptCount < n →
      AtRest eventId n j (w'.rowsFor eventId env.receiverUrl) := by
    intro q d hφ hev hlt
    refine .inr ⟨?_, fun x hx => ?_⟩
    · rw [← hev]
      exact handles_of_owns hP hwork (Phase.owns_of_writes (Phase.writes_of_counted hφ))
    · rw [counts_kept hs hown hallow hφ (rowFacts_counted hrow hφ hev).1 hexec x hx]
      exact hlt
  -- so is one with a failed operation, as the last attempt is not disturbed
  have hfails : ∀ {q : QueueMessage} {d : Delivery}, φ.counted = some (q, d) →
      q.eventId = eventId → (∀ key, op ≠ .getObject key) → (∃ e, r = .error e) →
      AtRest eventId n j (w'.rowsFor eventId env.receiverUrl) := by
    rintro q d hφ hev hload ⟨e, rfl⟩
    obtain ⟨hd, hopen⟩ := rowFacts_counted hrow hφ hev
    exact hleft hφ hev (lt_of_error hs hP hallow hφ hload (hhealthy d hd hopen) hexec)
  cases hallow with
  | fetch => exact absurd h.2 Bool.false_ne_true
  | secret | load => cases r <;> exact h
  | failureRead | failureNow | failureWrite | failureExpire | backoff | archive =>
      cases r with
      | error e => exact hfails rfl h.1 (by simp) ⟨e, rfl⟩
      | ok a => exact h
  | bury =>
      cases r with
      | error e => exact hfails rfl h.1 (by simp) ⟨e, rfl⟩
      | ok a => exact h.1
  | retry =>
      obtain rfl := hlinked
      cases r with
      | error e => exact hfails rfl h.1 (by simp) ⟨e, rfl⟩
      | ok a =>
          -- a retry is scheduled only if the attempts are not exhausted
          rcases hcloses with hterm | hexhausted
          · cases hterm
          · exact hleft rfl h.1 (lt_of_isExhausted hmax hexhausted)
  | markDead | successRead | successNow | successWrite | successExpire | markDone =>
      cases r with
      | error e => exact hfails rfl h (by simp) ⟨e, rfl⟩
      | ok a => exact h
  -- the row is final already
  | completeRelease | completeDelete =>
      cases r with
      | error e =>
          refine .inl ?_
          rw [show w'.rowsFor eventId env.receiverUrl = w.rowsFor eventId env.receiverUrl from
            rows_account hexec (by simp) (by simp)]
          exact hrow h
      | ok a => exact h
  | deferRelease | deferHide | deferCount =>
      rw [show w'.rowsFor eventId env.receiverUrl = w.rowsFor eventId env.receiverUrl from
        rows_account hexec (by simp) (by simp)]
      cases r <;> exact h
  | _ => exact absurd h not_false

/-- The post itself is an attempt's. -/
theorem afterPosting_of_post {rows : List Delivery} (hallow : Allows env φ op)
    (hop : op.postsFor eventId = true) : AfterPosting eventId n j rows (φ.next op r) := by
  cases hallow with
  | fetch =>
      rw [Op.postsFor, postedEvent_webhookBody, beq_iff_eq] at hop
      obtain rfl := Option.some.inj hop
      cases r with
      | error e => exact ⟨rfl, rfl⟩
      | ok status =>
          change AfterPosting _ n j rows (afterPost _ _ _ _ _ status)
          unfold afterPost
          split_ifs
          · exact rfl
          · exact ⟨rfl, rfl⟩
  | _ => cases hop

/-- A process that has posted the webhook of the event works on its row, or has come to rest. -/
theorem AfterPosting.cases (h : AfterPosting eventId n j (w.rowsFor eventId env.receiverUrl) φ)
    (hrow : RowFacts eventId (w.rowsFor eventId env.receiverUrl) φ) :
    (∃ q d, φ.counted = some (q, d) ∧ q.eventId = eventId) ∨
      AtRest eventId n j (w.rowsFor eventId env.receiverUrl) := by
  cases φ with
  | trying m q d p x a => exact .inl ⟨q, d, rfl, h.1⟩
  | buried m q d => exact .inl ⟨q, d, rfl, h⟩
  | accepted m q d => exact .inl ⟨q, d, rfl, h⟩
  | complete m q d => exact .inr (.inl (hrow h))
  | _ => first | exact absurd h not_false | exact .inr h

/-- What others do leaves it there. -/
theorem AfterPosting.others {i : Job} {ψ : Phase} (hs : Sound w.toRecords) (hP : w.PhaseFacts φ)
    (hwork : WorksFor j φ) (hPψ : w.PhaseFacts ψ) (hworkψ : WorksFor i ψ)
    (hown : OwnInv env eventId w)
    (hrow : RowFacts eventId (w.rowsFor eventId env.receiverUrl) φ)
    (hrowψ : RowFacts eventId (w.rowsFor eventId env.receiverUrl) ψ)
    (hapart : ¬ (j.handles eventId = true ∧ i.handles eventId = true)) (hallow : Allows env φ op)
    (hexec : w.exec op c = some (r, w'))
    (h : AfterPosting eventId n i (w.rowsFor eventId env.receiverUrl) ψ) :
    AfterPosting eventId n i (w'.rowsFor eventId env.receiverUrl) ψ := by
  by_cases hother : ∀ q, φ.writes = some q → q.eventId ≠ eventId
  · rw [rows_same hs hP hallow hexec hother]
    exact h
  · -- the other one handles the event, so this one does not, and the row is open
    push Not at hother
    obtain ⟨q, hq, hev⟩ := hother
    have hhandles : j.handles eventId = true :=
      hev ▸ handles_of_owns hP hwork (Phase.owns_of_writes hq)
    cases ψ with
    | complete m q' d => exact h
    | _ =>
        rcases h.cases hrowψ with ⟨q', d, hψ, hev'⟩ | hclosed | ⟨hhandles', -⟩
        · exact absurd ⟨hhandles, hev' ▸ handles_of_owns hPψ hworkψ
            (Phase.owns_of_writes (Phase.writes_of_counted hψ))⟩ hapart
        · exact absurd hclosed (not_closed_of_writes hown hrow hq hev)
        · exact absurd ⟨hhandles, hhandles'⟩ hapart

end

/-! ## The contract -/

/-- A job starts with nothing owed. -/
theorem linked_firstPhase {j : Job} {s : State} : Linked (firstPhase j s) (firstClosing j) := by
  obtain ⟨m, rfl, h⟩ | h | h | h | ⟨row, event, h⟩ := firstPhase_cases j s
  · rw [h]
    exact fun _ => rfl
  all_goals
    rw [h]
    exact fun hnone => nomatch hnone

/-- The contract of a run in which no last attempt is interrupted: one handler at a time, each
settling what it owes. -/
def attempts (env : Env) (eventId : JsString) {n : ℕ}
    (hmax : maxDeliveryAttempts env = .ok (n : ℚ)) :
    ((exclusive env eventId).contract.prod (closing env)).Extension where
  Inv s := AttemptInv n (account env eventId s.world)
  Facts pid j φ s := Linked φ.1 φ.2 ∧ MayPost eventId n (account env eventId s.world).posts φ.1 ∧
    (hasPosted eventId s.trace pid = true →
      AfterPosting eventId n j (s.world.rowsFor eventId env.receiverUrl) φ.1)
  Apart _ _ := True
  -- the first part follows from `Guarded`, the second is the condition of the runs
  Ok pid _ op c s := CountsBelow env eventId n s.world op ∧
    (exhausting env eventId n s pid = true → c.fault = .none)
  Fresh k s := ∀ x ∈ s.trace, x.pid < k
  begins {pid j s p} _ _ hfresh _ := by
    refine ⟨linked_firstPhase, ?_, fun hposted => absurd hposted (hasPosted_of_fresh hfresh)⟩
    change MayPost eventId n _ (firstPhase j s)
    obtain ⟨m, -, h⟩ | h | h | h | ⟨row, event, h⟩ := firstPhase_cases j s <;>
      (rw [h]; exact trivial)
  surroundings {dt s s'} hinv h := by
    obtain rfl := passTime_eq_some h
    exact ⟨⟨hinv.covered, hinv.bounded, hinv.none⟩, fun _ hn => hn, fun _ _ _ hφ => hφ⟩
  call hs hP _ _ hinv hφ hallow hok hexec := by
    obtain ⟨hexec, -, htrace⟩ := device_exec hexec
    have hn : 1 ≤ n := by exact_mod_cast one_le_max hmax
    obtain ⟨hinv', hmay⟩ :=
      attempt_step hs.1.1 hP.1.1.1 hs.1.2 hP.1.2 hn hinv hφ.2.1 hallow.1 hok.1 hexec
    refine ⟨hinv', hφ.1.next hallow.1, hmay, fun hposted => ?_⟩
    rw [htrace, hasPosted_cons] at hposted
    rcases hposted with ⟨-, hop⟩ | hposted
    · exact afterPosting_of_post hallow.1 hop
    · refine (hφ.2.2 hposted).next hs.1.1 hP.1.1.1 hs.1.2 hP.1.2 hP.1.1.2 hφ.1 hmax hallow.1
        hallow.2 (fun d hd hopen hle => ?_) hexec
      exact hok.2 (exhausting_of_posted hposted hd hopen hle)
  frame {pid j φ op c s r s' i k ψ} hs hP hPψ _ hap _ hne _ hallow _ hexec hψ := by
    obtain ⟨hexec, -, htrace⟩ := device_exec hexec
    refine ⟨hψ.1, ?_, fun hposted => ?_⟩
    · rcases account_same_or_apart hs.1.1 hP.1.1.1 hP.1.1.2 hPψ.1.1.1 hPψ.1.1.2 hap.1.2 hallow.1
        hexec with hsame | hnot
      · rw [hsame]
        exact hψ.2.1
      · exact mayPost_of_not hnot
    · rw [htrace, hasPosted_cons] at hposted
      rcases hposted with ⟨hpid, -⟩ | hposted
      · exact absurd hpid hne.symm
      · exact (hψ.2.2 hposted).others hs.1.1 hP.1.1.1 hP.1.1.2 hPψ.1.1.1 hPψ.1.1.2 hs.1.2 hP.1.2
          hPψ.1.2 hap.1.2 hallow.1 hexec
  after {pid j a φ s j' p'} hend hφ ha := by
    obtain ⟨m, ack, rfl, rfl, rfl, rfl⟩ := after_eq_some ha
    obtain ⟨⟨-, q, d, hcomplete⟩, -⟩ := hend
    rw [hcomplete] at hφ ⊢
    exact hφ
  apart_after _ _ := trivial
  apart_symm _ := trivial
  fresh_succ := trace_fresh_succ
  fresh_call := trace_fresh_call

/-! ## Runs -/

/-- Once the calls have reached the maximum, the row is closed, or a process that has posted is
still alive. -/
def Guarded (env : Env) (eventId : JsString) (n : ℕ) (s : Sys) : Prop :=
  (account env eventId s.world.world).posts.length < n ∨
    Closed (s.world.world.rowsFor eventId env.receiverUrl) ∨
    ∃ pid t, s.tasks pid = some t ∧ hasPosted eventId s.world.trace pid = true

section

variable {env : Env} {eventId : JsString} {n : ℕ} {s s' : Sys}
  {hmax : maxDeliveryAttempts env = .ok (n : ℚ)}

theorem Linked.of_counted {φ : Phase} {τ : Closing} {q : QueueMessage} {d : Delivery}
    (h : Linked φ τ) (hφ : φ.counted = some (q, d)) : τ = .owing d := by
  cases φ <;> cases hφ
  all_goals exact h

/-- At rest the calls are below the maximum, or the row is closed. -/
theorem AtRest.below {w : World} {j : Job} (hn : 1 ≤ n)
    (hinv : AttemptInv n (account env eventId w))
    (h : AtRest eventId n j (w.rowsFor eventId env.receiverUrl)) :
    (account env eventId w).posts.length < n ∨ Closed (w.rowsFor eventId env.receiverUrl) := by
  rcases h with hclosed | ⟨-, hleft⟩
  · exact .inr hclosed
  · cases hrows : (account env eventId w).rows with
    | nil =>
        rw [hinv.none hrows]
        exact .inl hn
    | cons d rows =>
        have hd : d ∈ (account env eventId w).rows := by
          rw [hrows]
          exact List.mem_cons_self
        exact .inl (lt_of_le_of_lt (hinv.covered d hd) (hleft d hd))

/-- A process that has posted works on the open row of the event, and owes it an outcome, or has
come to rest. -/
theorem works_or_rests (hgood : (attempts env eventId hmax).contract.Good s) {pid : ℕ}
    {t : Proc Services Job Acknowledge} (ht : s.tasks pid = some t)
    (hposted : hasPosted eventId s.world.trace pid = true) :
    (∃ d ∈ s.world.world.rowsFor eventId env.receiverUrl, d.status.terminal = false ∧
        t.job.handles eventId = true ∧
        (closingProtocol env).Follows t.prog (.owing d) (endsClosing env t.job)) ∨
      AtRest eventId n t.job (s.world.world.rowsFor eventId env.receiverUrl) := by
  obtain ⟨⟨φ, τ⟩, hfollows, ⟨⟨hphase, hrow⟩, -⟩, hlinked, -, hafter⟩ := hgood.stands pid t ht
  rcases (hafter hposted).cases hrow with ⟨q, d, hφ, hev⟩ | hrest
  · obtain ⟨hd, hopen⟩ := rowFacts_counted hrow hφ hev
    refine .inl ⟨d, hd, hopen, ?_, ?_⟩
    · rw [← hev]
      exact handles_of_owns hphase.1 hphase.2 (Phase.owns_of_writes (Phase.writes_of_counted hφ))
    · obtain rfl : τ = .owing d := hlinked.of_counted hφ
      exact hfollows.of_prod.2
  · exact .inr hrest

/-- Once the calls have reached the maximum, no attempt is counted. -/
theorem counts_below (hgood : (attempts env eventId hmax).contract.Good s)
    (hguarded : Guarded env eventId n s) {pid : ℕ} {j : Job} {op : Op}
    {k : Except JsError op.Res → Async Acknowledge} (ht : s.tasks pid = some ⟨j, .call op k⟩) :
    CountsBelow env eventId n s.world.world op := by
  intro id t hop d hd hid
  have hn : 1 ≤ n := by exact_mod_cast one_le_max hmax
  obtain ⟨⟨φ, τ⟩, ⟨⟨hallow, -⟩, -⟩, ⟨⟨hphase, hrow⟩, -⟩, -, -, hafter⟩ := hgood.stands pid _ ht
  have hinv : AttemptInv n (account env eventId s.world.world) := hgood.inv.2
  cases hallow with
  | @upsertUpdate m q row now =>
      -- the row that is counted on is the event's, so the message is too
      obtain ⟨hrowid, -⟩ := Op.updateDelivery.inj hop
      obtain ⟨hdmem, hdev, -⟩ := World.mem_rowsFor.mp hd
      obtain ⟨hrowev, -, z, hz, hzid, hzev, -⟩ := hphase.1.2 row rfl
      have hzd : z = d := hgood.inv.1.1.1.deliveriesUnique z hz d hdmem
        (hzid.trans (hrowid.trans hid.symm))
      have hev : q.eventId = eventId := by rw [← hrowev, ← hzev, hzd, hdev]
      have hrow : RowFacts eventId (s.world.world.rowsFor eventId env.receiverUrl)
        (.upserting m q (some row)) := hrow
      have hopen : ¬ Closed (s.world.world.rowsFor eventId env.receiverUrl) :=
        not_closed_of_writes hgood.inv.1.1.2 hrow rfl hev
      rcases hguarded with hlt | hclosed | ⟨p, u, hu, hposted⟩
      · exact hlt
      · exact absurd hclosed hopen
      · by_cases hp : p = pid
        · subst hp
          exact absurd (hafter hposted) not_false
        · rcases works_or_rests hgood hu hposted with ⟨-, -, -, hhandles, -⟩ | hrest
          · refine absurd ⟨hhandles, ?_⟩ (hgood.apart p pid u _ hp hu ht).1.1.2
            exact hev ▸ handles_of_owns hphase.1 hphase.2 rfl
          · exact (hrest.below hn hinv).resolve_right hopen
  | retry | markDead | markDone =>
      cases congrArg DeliveryData.status (Op.updateDelivery.inj hop).2
  | _ => cases hop

/-- A process that posts no more leaves the row as it must be. -/
theorem guarded_of_gone (hgood : (attempts env eventId hmax).contract.Good s) {pid : ℕ}
    {t : Proc Services Job Acknowledge} (ht : s.tasks pid = some t)
    (hposted : hasPosted eventId s.world.trace pid = true)
    (howes : ∀ d ∈ s.world.world.rowsFor eventId env.receiverUrl, d.status.terminal = false →
      t.job.handles eventId = true →
      (closingProtocol env).Follows t.prog (.owing d) (endsClosing env t.job) →
      d.attemptCount < n) :
    (account env eventId s.world.world).posts.length < n ∨
      Closed (s.world.world.rowsFor eventId env.receiverUrl) := by
  have hn : 1 ≤ n := by exact_mod_cast one_le_max hmax
  have hinv : AttemptInv n (account env eventId s.world.world) := hgood.inv.2
  rcases works_or_rests hgood ht hposted with ⟨d, hd, hopen, hhandles, hfollows⟩ | hrest
  · exact .inl (lt_of_le_of_lt (hinv.covered d hd) (howes d hd hopen hhandles hfollows))
  · exact hrest.below hn hinv

/-- A program that has ended owes nothing. -/
theorem not_owing_of_ended (hmax : maxDeliveryAttempts env = .ok (n : ℚ)) {j : Job} {d : Delivery}
    {r : Except JsError Acknowledge} (hj : j.handles eventId = true) :
    ¬ endsClosing env j r (.owing d) := by
  cases j with
  | deliver m =>
      intro hend
      obtain ⟨e, he⟩ := hend.1 d rfl
      rw [hmax] at he
      cases he
  | _ => cases hj

/-- **One step of the system** keeps the last attempt guarded. -/
theorem guarded_step (hgood : (attempts env eventId hmax).contract.Good s)
    {a : PoolAction Choice Job ℚ} (hok : UninterruptedStep env eventId n s a)
    (hstep : (system env).step s a = some s') (h : Guarded env eventId n s) :
    Guarded env eventId n s' := by
  cases a with
  | surroundings dt =>
      rw [Machine.step, Option.map_eq_some_iff] at hstep
      obtain ⟨w', hw', rfl⟩ := hstep
      obtain rfl := passTime_eq_some hw'
      exact h
  | spawn j =>
      rw [Machine.step, Option.map_eq_some_iff] at hstep
      obtain ⟨p, -, rfl⟩ := hstep
      refine h.imp_right (Or.imp_right ?_)
      rintro ⟨pid, t, ht, hposted⟩
      exact ⟨pid, t, (Machine.put_tasks_ne s _ (ne_of_lt (hgood.numbered pid t ht))).trans ht,
        hposted⟩
  | finish pid =>
      -- a program that has ended owes nothing, so the row is closed or attempts are left
      have hends : ∀ t, s.tasks pid = some t → hasPosted eventId s.world.trace pid = true →
          (∃ e, t.prog = .throw e) ∨ (∃ x, t.prog = .ret x) →
          (account env eventId s.world.world).posts.length < n ∨
            Closed (s.world.world.rowsFor eventId env.receiverUrl) := by
        intro t ht hposted hended
        refine guarded_of_gone hgood ht hposted fun d _ _ hhandles hfollows => ?_
        rcases hended with ⟨e, he⟩ | ⟨x, hx⟩
        · rw [he] at hfollows
          exact absurd hfollows (not_owing_of_ended hmax hhandles)
        · rw [hx] at hfollows
          exact absurd hfollows (not_owing_of_ended hmax hhandles)
      rcases h with hlt | hclosed | ⟨p, t, ht, hposted⟩
      · obtain ⟨j, e, -, rfl⟩ | ⟨j, x, -, rfl⟩ := Machine.step_finish hstep
        · exact .inl hlt
        · exact .inl hlt
      · obtain ⟨j, e, -, rfl⟩ | ⟨j, x, -, rfl⟩ := Machine.step_finish hstep
        · exact .inr (.inl hclosed)
        · exact .inr (.inl hclosed)
      · by_cases hp : p = pid
        · subst hp
          obtain ⟨j, e, hu, rfl⟩ | ⟨j, x, hu, rfl⟩ := Machine.step_finish hstep
          · exact (hends _ hu hposted (.inl ⟨e, rfl⟩)).imp_right .inl
          · exact (hends _ hu hposted (.inr ⟨x, rfl⟩)).imp_right .inl
        · obtain ⟨j, e, -, rfl⟩ | ⟨j, x, -, rfl⟩ := Machine.step_finish hstep
          · exact .inr (.inr ⟨p, t, (Machine.put_tasks_ne s _ hp).trans ht, hposted⟩)
          · exact .inr (.inr ⟨p, t, (Machine.put_tasks_ne s _ hp).trans ht, hposted⟩)
  | crash pid =>
      rw [Machine.step, Option.map_eq_some_iff] at hstep
      obtain ⟨u, hu, rfl⟩ := hstep
      rcases h with hlt | hclosed | ⟨p, t, ht, hposted⟩
      · exact .inl hlt
      · exact .inr (.inl hclosed)
      · by_cases hp : p = pid
        · subst hp
          refine (guarded_of_gone hgood ht hposted fun d hd hopen _ _ => ?_).imp_right .inl
          by_contra hge
          have hexhausting := exhausting_of_posted hposted hd hopen (not_lt.mp hge)
          rw [show exhausting env eventId n s.world p = false from hok] at hexhausting
          cases hexhausting
        · exact .inr (.inr ⟨p, t, (Machine.put_tasks_ne s _ hp).trans ht, hposted⟩)
  | step pid c =>
      obtain ⟨j, op, k, r, w', ht, hexec, rfl⟩ := Machine.step_call hstep
      obtain ⟨⟨φ, τ⟩, ⟨⟨hallow, -⟩, -⟩, ⟨⟨hphase, hrow⟩, -⟩, -⟩ := hgood.stands pid _ ht
      obtain ⟨hexec, -, htrace⟩ := device_exec hexec
      have hself : ∃ t, (Machine.put s pid (some ⟨j, k r⟩)).tasks pid = some t :=
        ⟨_, Machine.put_tasks_self s pid _⟩
      by_cases hop : op.postsFor eventId = true
      · obtain ⟨t', ht'⟩ := hself
        refine .inr (.inr ⟨pid, t', ht', ?_⟩)
        rw [htrace, hasPosted_cons]
        exact .inl ⟨rfl, hop⟩
      rcases h with hlt | hclosed | ⟨p, t, hp, hposted⟩
      · refine .inl ?_
        rw [posts_account hexec (eq_false_of_ne_true hop)]
        exact hlt
      · have hother : ∀ q, φ.writes = some q → q.eventId ≠ eventId := fun q hq hev =>
          not_closed_of_writes hgood.inv.1.1.2 hrow hq hev hclosed
        refine .inr (.inl ?_)
        rw [rows_same hgood.inv.1.1.1 hphase.1 hallow hexec hother]
        exact hclosed
      · have hlater : hasPosted eventId w'.trace p = true := by
          rw [htrace, hasPosted_cons]
          exact .inr hposted
        by_cases hpp : p = pid
        · subst hpp
          obtain ⟨t', ht'⟩ := hself
          exact .inr (.inr ⟨p, t', ht', hlater⟩)
        · exact .inr (.inr ⟨p, t, (Machine.put_tasks_ne s _ hpp).trans hp, hlater⟩)

end

/-- In every run whose steps satisfy `ok`, the webhook of the event is called at most as often
as configured. -/
def BoundedAttempts (env : Env) (eventId : JsString) (ok : Sys → PoolAction Choice Job ℚ → Prop) :
    Prop :=
  ∀ s, Reached env ok s → ∀ max, maxDeliveryAttempts env = .ok max →
    ((s.world.world.posts.filter (fun x => postedEvent x.body == some eventId)).length : ℚ) ≤ max

/-- **Attempts are bounded** by a whole maximum while one handler at a time works for the event
and none is interrupted between its last attempt and the final status. -/
theorem attempts_bounded (env : Env) (eventId : JsString) (n : ℕ)
    (hmax : maxDeliveryAttempts env = .ok (n : ℚ)) :
    BoundedAttempts env eventId
      (fun s a => ExclusiveStep eventId s a ∧ UninterruptedStep env eventId n s a) := by
  intro s h max hconfigured
  have hn : 1 ≤ n := by exact_mod_cast one_le_max hmax
  -- the contract bounds the count, `Guarded` says who may still raise it
  have hboth : (attempts env eventId hmax).contract.Good s ∧ Guarded env eventId n s := by
    refine h.invariant
      (I := fun s => (attempts env eventId hmax).contract.Good s ∧ Guarded env eventId n s) ?_ ?_
    · intro s hs
      have hstart : ((exclusive env eventId).contract.prod (closing env)).Good s :=
        (exclusive_start hs).prod (closing_start hs)
      have hrows : account env eventId s.world.world = ⟨[], [], []⟩ := by
        simp [account, World.rowsFor, hs.deliveries, hs.posts, hs.deadLetters]
      refine ⟨.of_empty ⟨hstart.inv, ?_⟩ ⟨hstart.fresh, ?_⟩ hs.tasks, .inl ?_⟩
      · change AttemptInv n (account env eventId s.world.world)
        rw [hrows]
        refine ⟨?_, Nat.zero_le n, fun _ => rfl⟩
        intro d hd
        cases hd
      · intro x hx
        rw [hs.trace] at hx
        cases hx
      · rw [hrows]
        exact hn
    · rintro s a s' ⟨hgood, hguarded⟩ ⟨hexclusive, huninterrupted⟩ hstep
      refine ⟨hgood.step ?_ hstep, guarded_step hgood huninterrupted hstep hguarded⟩
      cases a with
      -- a handler is started when no other one of the event is alive
      | spawn j =>
          exact fun pid t ht =>
            ⟨⟨apart_of_exclusiveStep hgood.numbered hexclusive pid t ht, trivial⟩, trivial⟩
      -- an attempt is counted below the maximum only, and the last one is closed undisturbed
      | step pid c =>
          exact fun j op k ht =>
            ⟨⟨⟨trivial, trivial⟩, trivial⟩, counts_below hgood hguarded ht, huninterrupted⟩
      | _ => exact trivial
  have hinv : AttemptInv n (account env eventId s.world.world) := hboth.1.inv.2
  rw [hmax] at hconfigured
  obtain rfl := Except.ok.inj hconfigured
  exact_mod_cast hinv.bounded

/-- The first of two attempts fails and its handler disappears; the second one fails, the dead
letter is recorded and the row gets its final status. -/
def Sample.usedUp : List (PoolAction Choice Job ℚ) :=
  ingested ++ published 1 firstId ++ [.spawn (.deliver firstMessage)] ++
    calls 2 12 (choice firstId 500) ++ [.crash 2] ++
    [.spawn (.deliver firstMessage)] ++ calls 3 17 (choice firstId 500)

/-- A maximum of two attempts is used up and not exceeded. -/
theorem attempts_bounded_twice :
    ∃ s, Reached (Sample.env (some (.finite 2))) (fun s a => ExclusiveStep Sample.firstId s a ∧
        UninterruptedStep (Sample.env (some (.finite 2))) Sample.firstId 2 s a) s ∧
      Closed (s.world.world.rowsFor Sample.firstId (js "http://receiver/hook")) ∧
      (s.world.world.posts.filter
        (fun x => postedEvent x.body == some Sample.firstId)).length = 2 ∧
      ((s.world.world.posts.filter
        (fun x => postedEvent x.body == some Sample.firstId)).length : ℚ) ≤ 2 := by
  have hmax : maxDeliveryAttempts (Sample.env (some (.finite 2))) = .ok ((2 : ℕ) : ℚ) := by
    decide +kernel
  obtain ⟨s, hs, htest⟩ := Sample.exists_reached (Sample.env (some (.finite 2)))
    (fun s a => ExclusiveStep Sample.firstId s a ∧
      UninterruptedStep (Sample.env (some (.finite 2))) Sample.firstId 2 s a)
    (fun s a => decide (ExclusiveStep Sample.firstId s a ∧
      UninterruptedStep (Sample.env (some (.finite 2))) Sample.firstId 2 s a))
    Sample.usedUp
    (fun s => decide (∃ d ∈ s.world.world.rowsFor Sample.firstId (js "http://receiver/hook"),
        d.status.terminal = true) &&
      ((s.world.world.posts.filter
        (fun x => postedEvent x.body == some Sample.firstId)).length == 2))
    (fun _ _ h => of_decide_eq_true h) (by decide +kernel)
  rw [Bool.and_eq_true, beq_iff_eq, decide_eq_true_iff] at htest
  exact ⟨s, hs, htest.1, htest.2, attempts_bounded _ Sample.firstId 2 hmax s hs 2 hmax⟩

/-- The first attempt fails and uses up the maximum of one; the archive fails before the
dead letter is recorded, and the message is received again. -/
def Sample.interrupted : List (PoolAction Choice Job ℚ) :=
  ingested ++ published 1 firstId ++ [.spawn (.deliver firstMessage)] ++
    calls 2 14 (choice firstId 500) ++ [.step 2 { fault := .before }, .finish 2] ++
    [.spawn (.deliver firstMessage)] ++ calls 3 10 (choice firstId 500)

/-- An interrupted last attempt is followed by another one. -/
theorem attempts_exceeded : ¬ BoundedAttempts (Sample.env (some (.finite 1))) Sample.firstId
    (ExclusiveStep Sample.firstId) := by
  intro hclaim
  obtain ⟨s, hs, htest⟩ := Sample.exists_reached (Sample.env (some (.finite 1)))
    (ExclusiveStep Sample.firstId) (fun s a => decide (ExclusiveStep Sample.firstId s a))
    Sample.interrupted
    (fun s => (s.world.world.posts.filter
      (fun x => postedEvent x.body == some Sample.firstId)).length == 2)
    (fun _ _ h => of_decide_eq_true h) (by decide +kernel)
  have hle := hclaim s hs 1 (by decide +kernel)
  rw [beq_iff_eq.mp htest] at hle
  norm_num at hle
