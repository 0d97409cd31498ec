/-
# No accepted event is lost, and none is changed

The facts of the phases are a contract that all services keep (`custody`), so the accounts
are sound in every reachable state (`custody_of_reached`).  Two results about whole runs
follow, whatever fails, crashes or is delivered twice:

* `no_event_lost`: no event on record is lost, unless a receiver redirects a webhook call to a
  page that answers a GET with a success: `fetch` follows redirects, and the call then looks
  delivered (`event_lost_by_redirect`).
* `payload_fidelity`: every webhook is for the event of the message that is handled, and the
  ones for an accepted event, or for any replay of it, carry the request's tenant, type and
  payload.
-/
import Waybill.Effects
import Waybill.Facts

open Worker Publisher Api Records

/-! ## Processes and their messages -/

/-- The message a handler works for. -/
def Phase.message : Phase → Option Message
  | .start m => some m
  | .read m _ => some m
  | .denied m => some m
  | .hidden m => some m
  | .concealed m => some m
  | .poison m => some m
  | .admitted m _ _ => some m
  | .checking m _ _ => some m
  | .due m _ _ _ => some m
  | .settled m _ _ => some m
  | .upserting m _ _ => some m
  | .trying m _ _ _ _ _ => some m
  | .buried m _ _ => some m
  | .deferring m => some m
  | .accepted m _ _ => some m
  | .complete m _ _ => some m
  | _ => none

/-- A handler works for the message it was started for, and an acknowledgement comes after
the final status. -/
def WorksFor (j : Job) (φ : Phase) : Prop :=
  ∀ m, φ.message = some m → j = .deliver m ∨ (j = .acknowledge m ∧ ∃ q d, φ = .complete m q d)

/-- A handler keeps its message. -/
theorem Phase.message_next {env : Env} {φ : Phase} {op : Op} {r : Except JsError op.Res}
    {m : Message} (hallow : Allows env φ op) (h : (φ.next op r).message = some m) :
    φ.message = some m := by
  cases hallow with
  | decide =>
      cases r with
      | error e => cases h
      | ok t =>
          rename_i m' raw
          change (afterDecision m' _).message = some m at h
          unfold afterDecision at h
          split_ifs at h
          · cases hp : parseQueueMessage m'.body with
            | none => rw [hp] at h; exact h
            | some q => rw [hp] at h; exact h
          · exact h
  | limit =>
      cases r with
      | error e => cases h
      | ok result =>
          change Phase.message (if result.1 = 1 then _ else _) = some m at h
          split_ifs at h <;> exact h
  | check =>
      cases r with
      | error e => cases h
      | ok existing =>
          rename_i m' st q
          change (afterCheck m' st q existing).message = some m at h
          cases existing with
          | none => exact h
          | some d =>
              unfold afterCheck at h
              simp only at h
              split_ifs at h <;> exact h
  | fetch =>
      cases r with
      | error e => exact h
      | ok status =>
          change (afterPost _ _ _ _ _ status).message = some m at h
          unfold afterPost at h
          split_ifs at h <;> exact h
  | _ => cases r <;> first | exact h | cases h

/-- After the final status a process only releases and deletes its message. -/
theorem Phase.complete_next {env : Env} {m : Message} {q : QueueMessage} {d : Delivery} {op : Op}
    {r : Except JsError op.Res} (hallow : Allows env (.complete m q d) op) :
    (Phase.complete m q d).next op r = .complete m q d ∨
      (Phase.complete m q d).next op r = .over := by
  cases hallow <;> cases r <;> first | exact .inl rfl | exact .inr rfl

theorem WorksFor.next {env : Env} {j : Job} {φ : Phase} {op : Op} {r : Except JsError op.Res}
    (h : WorksFor j φ) (hallow : Allows env φ op) : WorksFor j (φ.next op r) := by
  intro m hm
  rcases h m (Phase.message_next hallow hm) with hj | ⟨hj, q, d, rfl⟩
  · exact .inl hj
  · rcases Phase.complete_next (r := r) hallow with hn | hn
    · exact .inr ⟨hj, q, d, hn⟩
    · rw [hn] at hm
      cases hm

/-! ## The contract -/

/-- The phase in which a job starts. -/
def firstPhase : Job → State → Phase
  | .deliver m, _ => .start m
  | .acknowledge _, _ => .over
  | .publish outboxId, s =>
      match s.world.outbox.find? (fun o => o.id == outboxId && !o.published) with
      | none => .over
      | some row =>
          match s.world.eventById row.eventId with
          | none => .over
          | some event => .publishing row event
  | .ingest _, _ => .validating
  | .replay _, _ => .replaying none

/-- How a job may end. -/
def jobEnds : Job → Except JsError Acknowledge → Phase → Prop
  | .deliver m => Returns m
  | _ => fun _ _ => True

/-- A program whose result is not used. -/
theorem follows_thenDone {env : Env} {α : Type} {p : Async α} {φ : Phase}
    (h : (protocol env).Follows p φ (fun _ _ => True)) :
    (protocol env).Follows (thenDone p) φ (fun _ _ => True) :=
  h.bind (fun _ _ _ => trivial) (fun _ _ _ => trivial)

/-- The program of a handler's job. -/
theorem body_deliver {env : Env} {m : Message} {s : State} {p : Async Acknowledge}
    (h : body env (.deliver m) s = some p) : m ∈ s.world.queue ∧ p = handleMessage env m := by
  simp only [body] at h
  split_ifs at h with hm
  exact ⟨hm, (Option.some.inj h).symm⟩

/-- The program of a publisher's job. -/
theorem body_publish {env : Env} {id : JsString} {s : State} {p : Async Acknowledge}
    (h : body env (.publish id) s = some p) :
    ∃ row event, s.world.outbox.find? (fun o => o.id == id && !o.published) = some row ∧
      s.world.eventById row.eventId = some event ∧ p = thenDone (publishOne row event) ∧
      firstPhase (.publish id) s = .publishing row event := by
  simp only [body, Option.bind_eq_bind, Option.bind_eq_some_iff, Option.pure_def,
    Option.some.injEq] at h
  obtain ⟨row, hrow, event, hevent, rfl⟩ := h
  refine ⟨row, event, hrow, hevent, rfl, ?_⟩
  simp only [firstPhase, hrow, hevent]

/-- Every job keeps to the protocol. -/
theorem follows_body {env : Env} {j : Job} {s : State} {p : Async Acknowledge}
    (h : body env j s = some p) : (protocol env).Follows p (firstPhase j s) (jobEnds j) := by
  cases j with
  | deliver m =>
      obtain ⟨-, rfl⟩ := body_deliver h
      exact follows_handleMessage env m
  | acknowledge m => cases h
  | publish id =>
      obtain ⟨row, event, -, -, rfl, hfirst⟩ := body_publish h
      rw [hfirst]
      exact follows_thenDone (follows_publishOne env row event)
  | ingest input =>
      obtain rfl := Option.some.inj h
      exact follows_thenDone (follows_ingestEvent env input)
  | replay input =>
      obtain rfl := Option.some.inj h
      exact follows_thenDone (follows_requestReplay env input)

/-- What holds when a job starts. -/
theorem facts_firstPhase {env : Env} {j : Job} {s : State} {p : Async Acknowledge}
    (hs : Sound s.world.toRecords) (h : body env j s = some p) :
    s.world.PhaseFacts (firstPhase j s) := by
  cases j with
  | deliver m =>
      obtain ⟨hm, -⟩ := body_deliver h
      exact ⟨hs.messagesNumbered m hm, fun m' hm' hid => hs.messagesUnique m' hm' m hm hid,
        hs.messages m hm⟩
  | acknowledge m => cases h
  | publish id =>
      obtain ⟨row, event, hrow, hevent, -, hfirst⟩ := body_publish h
      rw [hfirst]
      have hmem : row ∈ s.world.outbox := List.mem_of_find?_eq_some hrow
      have hid : event.id = row.eventId := by simpa using List.find?_some hevent
      refine ⟨List.mem_of_find?_eq_some hevent, ⟨row, hmem, rfl⟩, fun o ho hoid => ?_⟩
      rw [hid]
      exact hs.outboxUnique o ho row hmem hoid
  | ingest input => exact trivial
  | replay input => exact fun _ hx => nomatch hx

/-- A handler starts at the beginning, and no other job is about a message. -/
theorem firstPhase_cases (j : Job) (s : State) :
    (∃ m, j = .deliver m ∧ firstPhase j s = .start m) ∨ firstPhase j s = .over ∨
      firstPhase j s = .validating ∨ firstPhase j s = .replaying none ∨
      ∃ row event, firstPhase j s = .publishing row event := by
  cases j with
  | deliver m => exact .inl ⟨m, rfl, rfl⟩
  | acknowledge m => exact .inr (.inl rfl)
  | publish id =>
      simp only [firstPhase]
      cases s.world.outbox.find? (fun o => o.id == id && !o.published) with
      | none => exact .inr (.inl rfl)
      | some row =>
          simp only
          cases s.world.eventById row.eventId with
          | none => exact .inr (.inl rfl)
          | some event => exact .inr (.inr (.inr (.inr ⟨row, event, rfl⟩)))
  | ingest input => exact .inr (.inr (.inl rfl))
  | replay input => exact .inr (.inr (.inr (.inl rfl)))

theorem worksFor_firstPhase {j : Job} {s : State} : WorksFor j (firstPhase j s) := by
  intro m hm
  obtain ⟨m', rfl, h⟩ | h | h | h | ⟨row, event, h⟩ := firstPhase_cases j s
  · rw [h] at hm
    exact .inl (congrArg Job.deliver (Option.some.inj hm))
  all_goals
    rw [h] at hm
    cases hm

/-- What goes on after a job is the acknowledgement a handler returned. -/
theorem after_eq_some {j j' : Job} {a : Acknowledge} {p' : Async Acknowledge}
    (h : after j a = some (j', p')) :
    ∃ m ack, j = .deliver m ∧ a = some ack ∧ j' = .acknowledge m ∧ p' = thenDone ack := by
  unfold after at h
  split at h
  · rename_i m ack
    obtain ⟨rfl, rfl⟩ := Prod.mk.inj (Option.some.inj h)
    exact ⟨m, ack, rfl, rfl, rfl, rfl⟩
  · cases h

/-- **The contract of all services.** -/
def custody (env : Env) : Contract (system env) (protocol env) where
  Inv s := Sound s.world.toRecords
  first := firstPhase
  Facts _ j φ s := s.world.PhaseFacts φ ∧ WorksFor j φ
  End := jobEnds
  Apart _ _ := True
  Ok _ _ _ _ _ := True
  Fresh _ _ := True
  follows := follows_body
  begins hs _ h := ⟨facts_firstPhase hs h, worksFor_firstPhase⟩
  surroundings {dt s s'} hs h := by
    obtain rfl := passTime_eq_some h
    exact ⟨hs, fun _ hn => hn, fun _ _ _ hφ => hφ⟩
  call hs hφ hallow _ hexec := by
    obtain ⟨hexec, -, -⟩ := device_exec hexec
    exact ⟨(step_sound hs hφ.1 hallow hexec).1, step_facts hs hφ.1 hallow hexec,
      hφ.2.next hallow⟩
  frame hs _ _ hφ hallow _ hexec hψ := by
    obtain ⟨hexec, -, -⟩ := device_exec hexec
    exact ⟨hψ.1.mono (step_sound hs hφ.1 hallow hexec).2, hψ.2⟩
  goes_on hend _ ha := by
    obtain ⟨m, ack, rfl, rfl, rfl, rfl⟩ := after_eq_some ha
    obtain ⟨rfl, q, d, rfl⟩ := hend
    exact follows_thenDone follows_returned_acknowledge
  after hend hφ ha := by
    obtain ⟨m, ack, rfl, rfl, rfl, rfl⟩ := after_eq_some ha
    obtain ⟨-, q, d, rfl⟩ := hend
    refine ⟨hφ.1, fun m' hm' => .inr ⟨?_, q, d, ?_⟩⟩
    · rw [Option.some.inj hm']
    · rw [Option.some.inj hm']
  apart_after _ _ := trivial
  apart_symm _ := trivial
  fresh_succ _ := trivial
  fresh_call _ _ _ := trivial

/-! ## Runs -/

/-- An empty system has nothing to account for. -/
theorem Start.sound {s : Sys} (h : Start s) : Sound s.world.world.toRecords where
  eventsUnique := by simp [h.events]
  draftsUnique := by simp [h.drafts]
  deliveriesUnique := by simp [h.deliveries]
  deadLettersUnique := by simp [h.deadLetters]
  outboxUnique := by simp [h.outbox]
  messagesUnique := by simp [h.queue]
  messagesNumbered := by simp [h.queue]
  draftLength := by simp [h.drafts]
  carries := by simp [h.events]
  drafted := by simp [h.drafts]
  claimChecks := by simp [h.objects]
  archives := by simp [h.objects]
  replayed := by simp [h.replays]
  archived := by simp [h.deadLetters]
  deadDelivery := by simp [h.deadLetters]
  delivered := by simp [h.deliveries]
  messages := by simp [h.queue]
  posted := by simp [h.posts]
  succeeded := by simp [h.deliveries]
  deadLettered := by simp [h.deliveries]
  custody := by simp [h.events]

theorem Start.custody {env : Env} {s : Sys} (h : Start s) : (custody env).Good s :=
  .of_empty h.sound trivial h.tasks

/-- In every reachable state the accounts are sound, and every process stands in a phase
whose facts hold. -/
theorem custody_of_reached {env : Env} {ok : Sys → PoolAction Choice Job ℚ → Prop} {s : Sys}
    (h : Reached env ok s) : (custody env).Good s :=
  (custody env).invariant (fun _ hs => hs.custody)
    (fun _ a _ _ => match a with
      | .spawn _ => fun _ _ _ => trivial
      | .step .. => fun _ _ _ _ => trivial
      | .surroundings _ => trivial
      | .finish _ => trivial
      | .crash _ => trivial) h

/-- **Every event is accounted for**: whatever fails, crashes or is delivered twice, it has an
unpublished outbox row, a message in the queue, a webhook call that ended with a success, or a
dead letter whose payload is stored. -/
theorem in_custody_of_reached {env : Env} {ok : Sys → PoolAction Choice Job ℚ → Prop} {s : Sys}
    (h : Reached env ok s) : ∀ e ∈ s.world.world.events, s.world.world.InCustody e.id :=
  (custody_of_reached h).inv.custody

/-! ## Redirects -/

/-- The environment answers no GET that a redirect of a webhook call leads to with a success. -/
def NoGetSucceeds (s : Sys) : PoolAction Choice Job ℚ → Prop
  | .step pid c => ∀ j op k, s.tasks pid = some ⟨j, .call op k⟩ →
      ∀ url body signature, op = .fetch url body signature →
        ∀ status, (.get, status) ∈ followed .post c.redirects c.status → statusOk status = false
  | _ => True

/-- The last request of a call is answered with the status the call ends with. -/
theorem last_mem_followed (method : RequestMethod) (redirects : List ℕ) (status : ℕ) :
    ∃ method', (method', status) ∈ followed method redirects status := by
  induction redirects generalizing method with
  | nil => exact ⟨method, List.mem_singleton_self _⟩
  | cons redirect redirects ih =>
      obtain ⟨method', h⟩ := ih (method.redirected redirect)
      exact ⟨method', List.mem_cons_of_mem _ h⟩

/-- Every success of a webhook call was the answer to a POST. -/
def PostsSucceed (w : Records) : Prop :=
  ∀ x ∈ w.posts, ∀ status, (.get, status) ∈ x.replies → statusOk status = false

/-- **One step** leads no GET to a success, if its environment does not. -/
theorem postsSucceed_step {env : Env} {s s' : Sys} {a : PoolAction Choice Job ℚ}
    (h : PostsSucceed s.world.world.toRecords) (ha : NoGetSucceeds s a)
    (hs : (system env).step s a = some s') : PostsSucceed s'.world.world.toRecords := by
  cases a with
  | step pid c =>
      obtain ⟨j, op, k, r, w', ht, hexec, rfl⟩ := Machine.step_call hs
      obtain ⟨hexec, -, -⟩ := device_exec hexec
      have hposts := World.replies_of_exec hexec
      intro x hx status hget
      rcases hposts x hx with hold | hnone | ⟨url, body, signature, rfl, hreplies⟩
      · exact h x hold status hget
      · rw [hnone] at hget
        cases hget
      · rw [hreplies] at hget
        exact ha j _ k ht url body signature rfl status hget
  | surroundings dt =>
      rw [Machine.step, Option.map_eq_some_iff] at hs
      obtain ⟨w', hw', rfl⟩ := hs
      obtain rfl := passTime_eq_some hw'
      exact h
  | spawn j =>
      rw [Machine.step, Option.map_eq_some_iff] at hs
      obtain ⟨p, -, rfl⟩ := hs
      exact h
  | finish pid =>
      obtain ⟨j, e, -, rfl⟩ | ⟨j, a, -, rfl⟩ := Machine.step_finish hs <;> exact h
  | crash pid =>
      rw [Machine.step, Option.map_eq_some_iff] at hs
      obtain ⟨t, -, rfl⟩ := hs
      exact h

/-- A call that ended with a success was delivered, if no GET succeeds. -/
theorem delivered_of_accepted {w : Records} (h : PostsSucceed w) {id : JsString}
    (hid : w.Accepted id) : w.Delivered id := by
  obtain ⟨x, hx, hbody, status, hanswer, hok⟩ := hid
  have hreplies : x.replies = followed .post x.redirects status := by
    rw [Post.replies, hanswer]
  obtain ⟨method, hlast⟩ := last_mem_followed .post x.redirects status
  rw [← hreplies] at hlast
  cases method with
  | post => exact ⟨x, hx, hbody, status, hlast, hok⟩
  | get =>
      rw [h x hx status hlast] at hok
      cases hok

/-- In every run whose steps satisfy `ok`, no event on record is lost. -/
def NoEventLost (env : Env) (ok : Sys → PoolAction Choice Job ℚ → Prop) : Prop :=
  ∀ s, Reached env ok s → ∀ e ∈ s.world.world.events, s.world.world.NotLost e.id

/-- **No accepted event is lost**, whatever fails, crashes or is delivered twice, as long as no
GET to which a receiver redirects a webhook call is answered with a success. -/
theorem no_event_lost (env : Env) : NoEventLost env NoGetSucceeds := by
  intro s h e he
  -- no GET succeeds, so whatever made a call succeed was an answer to a POST
  have hposts : PostsSucceed s.world.world.toRecords := by
    refine h.invariant ?_ fun _ _ _ hposts ha hs => postsSucceed_step hposts ha hs
    intro s hs x hx
    rw [hs.posts] at hx
    cases hx
  -- where the event in custody is, as an observer of the four services sees it
  rcases in_custody_of_reached h e he with hrow | hmessage | haccepted | hburied
  · exact .inl hrow
  · exact .inr (.inl hmessage)
  · exact .inr (.inr (.inl (delivered_of_accepted hposts haccepted)))
  · exact .inr (.inr (.inr hburied))

/-- The receiver answers the POST with 302, and the GET that `fetch` goes on with with 200; the
handler ends, and its acknowledgement deletes the message. -/
def Sample.redirected : List (PoolAction Choice Job ℚ) :=
  ingested ++ published 1 firstId ++ [.spawn (.deliver firstMessage)] ++
    calls 2 15 { choice firstId 200 with redirects := [302] } ++ [.finish 2] ++
    calls 2 2 {} ++ [.finish 2]

/-- A redirect to a page that exists loses the event. -/
theorem event_lost_by_redirect :
    ¬ NoEventLost (Sample.env none) (fun _ _ => True) := by
  intro hclaim
  obtain ⟨s, hs, htest⟩ := Sample.exists_reachable (Sample.env none) Sample.redirected
    (fun s => s.world.world.events.any (fun e => e.id == Sample.firstId) &&
      s.world.world.outbox.all Outbox.published && s.world.world.queue.isEmpty &&
      s.world.world.deadLetters.isEmpty && s.world.world.posts.all (fun x =>
        x.replies.all (fun reply => reply.1 == .get || !statusOk reply.2))) (by decide +kernel)
  simp only [Bool.and_eq_true, List.any_eq_true, List.all_eq_true, List.isEmpty_iff, beq_iff_eq,
    Bool.or_eq_true, Bool.not_eq_true'] at htest
  obtain ⟨⟨⟨⟨⟨e, he, -⟩, hpublished⟩, hqueue⟩, hdead⟩, hposts⟩ := htest
  rcases hclaim s hs e he with
    ⟨o, ho, -, hunpublished⟩ | ⟨m, hm, -⟩ | ⟨x, hx, -, status, hreply, hok⟩ | ⟨d, hd, -⟩
  · rw [hpublished o ho] at hunpublished
    cases hunpublished
  · rw [hqueue] at hm
    cases hm
  · rcases hposts x hx _ hreply with hget | hfails
    · cases hget
    · rw [hfails] at hok
      cases hok
  · rw [hdead] at hd
    cases hd

/-! ## Payloads -/

/-- One event was created by a replay of another. -/
def ReplayOf (w : Records) (id id' : JsString) : Prop :=
  ∃ r ∈ w.replays, r.eventId = id' ∧ ∃ d ∈ w.deadLetters, d.id = r.sourceDeadLetterId ∧
    d.eventId = id

/-- An event was created by a chain of replays, of any length, that starts with another. -/
def DescendsFrom (w : Records) : JsString → JsString → Prop :=
  Relation.ReflTransGen (ReplayOf w)

/-- The descendants of a request carry what it carried. -/
theorem carries_of_descends {w : Records} (h : Sound w) {d : Draft} (hd : d ∈ w.drafts)
    {id : JsString} (hid : DescendsFrom w d.eventId id) :
    ∀ e ∈ w.events, e.id = id →
      e.tenantId = d.tenantId ∧ e.type = d.type ∧ w.Carries e d.payload := by
  induction hid with
  | refl => exact h.drafted d hd
  | tail _ hreplay ih =>
      obtain ⟨r, hr, hrid, x, hx, hxid, hxe⟩ := hreplay
      obtain ⟨y, hy, hyid, e, he, heid, e', he', hre, hten, htype, p, hp, hp'⟩ :=
        h.replayed r hr
      obtain rfl : y = x := h.deadLettersUnique y hy x hx (hyid.trans hxid.symm)
      obtain ⟨hten₀, htype₀, hp₀⟩ := ih e he (heid.trans hxe)
      intro e'' he'' hid''
      obtain rfl : e'' = e' := h.eventsUnique e'' he'' e' he' (by rw [hid'', hre, hrid])
      rw [hten, htype, hten₀, htype₀]
      exact ⟨rfl, rfl, hp.unique hp₀ ▸ hp'⟩

/-- A webhook is posted for the event of the message that is handled. -/
theorem posts_own_event {env : Env} {s : Sys} (h : Reachable env s) {pid : ℕ} {j : Job}
    {url body signature : JsString} {k : Except JsError ℕ → Async Acknowledge}
    (ht : s.tasks pid = some ⟨j, .call (.fetch url body signature) k⟩) :
    ∃ m, j = .deliver m ∧
      ∃ e ∈ s.world.world.events, m.body = messageBody e ∧ postedEvent body = some e.id := by
  obtain ⟨φ, ⟨hallow, -⟩, hfacts, hwork⟩ := (custody_of_reached h).stands pid _ ht
  cases hallow with
  | @fetch m q d x a payload g hp =>
      have hjob : j = .deliver m := by
        rcases hwork m rfl with hj | ⟨-, q', d', hφ⟩
        · exact hj
        · cases hφ
      obtain ⟨e, he, hbody⟩ := hfacts.1.1.2.2
      have hq : q = queueMessage e := by
        have hparse := hfacts.1.2
        rw [hbody, parseQueueMessage_messageBody] at hparse
        exact (Option.some.inj hparse).symm
      refine ⟨m, hjob, e, he, hbody, ?_⟩
      rw [postedEvent_webhookBody, hq]
      rfl

/-- **Payloads survive**: a webhook is posted for the event of the message that is handled, every
webhook on record is for an event on record, and every webhook posted for an accepted event, or
for an event at the end of any chain of replays of it, carries the tenant, the type and the
payload of the request, and the identifier of the event that is delivered. -/
theorem payload_fidelity {env : Env} {s : Sys} (h : Reachable env s) :
    (∀ pid j url body signature k,
      s.tasks pid = some ⟨j, .call (.fetch url body signature) k⟩ → ∃ m, j = .deliver m ∧
        ∃ e ∈ s.world.world.events, m.body = messageBody e ∧ postedEvent body = some e.id) ∧
    (∀ x ∈ s.world.world.posts, ∃ e ∈ s.world.world.events, postedEvent x.body = some e.id) ∧
    ∀ d ∈ s.world.world.drafts, ∀ id, DescendsFrom s.world.world.toRecords d.eventId id →
      ∀ x ∈ s.world.world.posts, postedEvent x.body = some id →
        x.body = (Json.obj [(js "eventId", .str id), (js "tenantId", .str d.tenantId),
          (js "type", .str d.type), (js "payload", d.payload)]).stringify := by
  have hs := (custody_of_reached h).inv
  refine ⟨fun pid j url body signature k ht => posts_own_event h ht, fun x hx => ?_, ?_⟩
  · obtain ⟨e, he, p, -, hbody⟩ := hs.posted x hx
    refine ⟨e, he, ?_⟩
    rw [hbody, postedEvent_webhookBody]
    rfl
  -- the body is made from the event's own payload, which is its draft's
  · intro d hd id hid x hx hposted
    obtain ⟨e, he, p, hp, hbody⟩ := hs.posted x hx
    rw [hbody, postedEvent_webhookBody] at hposted
    have heid : e.id = id := Option.some.inj hposted
    obtain ⟨hten, htype, hcarries⟩ := carries_of_descends hs hd hid e he heid
    rw [hbody, ← heid, ← hten, ← htype, hp.unique hcarries]
    rfl

/-- A request is dead-lettered after one attempt and replayed, and the replay is delivered. -/
def Sample.replayed : List (PoolAction Choice Job ℚ) :=
  Sample.ingested ++ Sample.published 1 Sample.firstId ++
    [.spawn (.deliver Sample.firstMessage)] ++
    Sample.calls 2 19 (Sample.choice Sample.firstId 500) ++
    [.spawn (.replay { tenantId := Sample.tenantId, deadLetterId := Sample.firstId
                       idempotencyKey := js "again" })] ++
    Sample.calls 3 6 (Sample.choice Sample.secondId 200) ++
    Sample.published 4 Sample.secondId ++
    [.spawn (.deliver (Sample.message 1
      (Sample.event Sample.secondId (some (archiveKey Sample.firstId)))))] ++
    Sample.calls 5 16 (Sample.choice Sample.secondId 200)

/-- The `null` payload of a request reaches the receiver through its dead letter. -/
theorem payload_fidelity_sample : ∃ s, Reachable (Sample.env (some (.finite 1))) s ∧
    ∃ d ∈ s.world.world.drafts, d.eventId = Sample.firstId ∧
      ∃ x ∈ s.world.world.posts, postedEvent x.body = some Sample.secondId ∧
        x.body = (Json.obj [(js "eventId", .str Sample.secondId),
          (js "tenantId", .str d.tenantId), (js "type", .str d.type),
          (js "payload", d.payload)]).stringify := by
  obtain ⟨s, hs, htest⟩ := Sample.exists_reachable (Sample.env (some (.finite 1)))
    Sample.replayed (fun s => decide (
      (∃ r ∈ s.world.world.replays, r.eventId = Sample.secondId ∧
        ∃ d ∈ s.world.world.deadLetters, d.id = r.sourceDeadLetterId ∧
          d.eventId = Sample.firstId) ∧
      (∃ d ∈ s.world.world.drafts, d.eventId = Sample.firstId) ∧
      ∃ x ∈ s.world.world.posts, postedEvent x.body = some Sample.secondId))
    (by decide +kernel)
  obtain ⟨hreplay, ⟨d, hd, hid⟩, x, hx, hposted⟩ := of_decide_eq_true htest
  have hdescends : DescendsFrom s.world.world.toRecords d.eventId Sample.secondId :=
    .single (hid ▸ hreplay)
  exact ⟨s, hs, d, hd, hid, x, hx, hposted,
    (payload_fidelity hs).2.2 d hd Sample.secondId hdescends x hx hposted⟩
