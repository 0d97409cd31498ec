/-
# The whole system

Any number of handlers, publishers and API requests on one world, one operation at a time
and in any order; every operation may fail, any process may disappear between two of them,
and the queue may hand out a message again as long as it has not been deleted.

* `Job` is what a process is started for; an acknowledgement that a handler returned is run
  as a process of its own, beside the handlers that follow.
* `State` adds to the world what the statements about runs look back at: every operation
  performed so far (`trace`), and for each process the delivery rows of its event as it last
  found or left them (`seen`).
* `start` is a system whose tables, bucket and queue are empty but for its tenants.
-/
import Waybill.Phases

open Worker Publisher Api

/-! ## State -/

/-- An operation that was performed. -/
structure TraceEntry where
  pid : ℕ
  time : ℚ
  op : Op
  result : Except JsError op.Res

/-- The world, and what has happened so far. -/
structure State where
  world : World
  seen : ℕ → Option (List Delivery)
  trace : List TraceEntry

/-- The event and the destination whose delivery rows an operation looks at or writes. -/
def Op.deliveryOf (w : World) : Op → Option (JsString × JsString)
  | .findDelivery eventId targetUrl => some (eventId, targetUrl)
  | .createDelivery data => some (data.eventId, data.targetUrl)
  | .updateDelivery id _ => (w.deliveryById id).map (fun d => (d.eventId, d.targetUrl))
  | _ => none

/-- What a process has seen after an operation. -/
def seenAfter (s : State) (pid : ℕ) (op : Op) (w' : World) : ℕ → Option (List Delivery) :=
  match op.deliveryOf s.world with
  | some (eventId, targetUrl) => Function.update s.seen pid (some (w'.rowsFor eventId targetUrl))
  | none => s.seen

/-- The operations on the state. -/
def device : Device Services State Choice where
  exec pid op c s := (s.world.exec op c).map (fun rw =>
    (rw.1, { world := rw.2, seen := seenAfter s pid op rw.2
             trace := { pid := pid, time := s.world.clock, op := op, result := rw.1 } ::
              s.trace }))

theorem device_exec {pid : ℕ} {op : Op} {c : Choice} {s s' : State} {r : Except JsError op.Res}
    (h : device.exec pid op c s = some (r, s')) :
    s.world.exec op c = some (r, s'.world) ∧ s'.seen = seenAfter s pid op s'.world ∧
      s'.trace = { pid := pid, time := s.world.clock, op := op, result := r } :: s.trace := by
  obtain ⟨⟨r', w'⟩, hexec, heq⟩ := Option.map_eq_some_iff.mp h
  obtain ⟨rfl, rfl⟩ := Prod.mk.inj heq
  exact ⟨hexec, rfl, rfl⟩

/-- A process with a later number is as unheard of. -/
theorem trace_fresh_succ {n : ℕ} {s : State} (h : ∀ x ∈ s.trace, x.pid < n) :
    ∀ x ∈ s.trace, x.pid < n + 1 :=
  fun x hx => Nat.lt_succ_of_lt (h x hx)

/-- An operation of another process is no entry of it. -/
theorem trace_fresh_call {n pid : ℕ} {op : Op} {c : Choice} {s s' : State}
    {r : Except JsError op.Res} (hpid : pid < n) (h : ∀ x ∈ s.trace, x.pid < n)
    (hexec : device.exec pid op c s = some (r, s')) : ∀ x ∈ s'.trace, x.pid < n := by
  obtain ⟨-, -, htrace⟩ := device_exec hexec
  rw [htrace]
  exact List.forall_mem_cons.mpr ⟨hpid, h⟩

/-! ## Jobs -/

/-- What a process is started for. -/
inductive Job where
  | deliver (m : Message)
  | acknowledge (m : Message)
  | publish (outboxId : JsString)
  | ingest (input : Json)
  | replay (input : ReplayInput)

/-- A program that returns nothing to go on with. -/
def thenDone {α : Type} (p : Async α) : Async Acknowledge := do
  let _ ← p
  return none

/-- The program of a job: a message is handled while it is in the queue, a row published
while it is unpublished. -/
def body (env : Env) : Job → State → Option (Async Acknowledge)
  | .deliver m, s => if m ∈ s.world.queue then some (handleMessage env m) else none
  | .acknowledge _, _ => none
  | .publish outboxId, s => do
      let row ← s.world.outbox.find? (fun o => o.id == outboxId && !o.published)
      let event ← s.world.eventById row.eventId
      return thenDone (publishOne row event)
  | .ingest input, _ => some (thenDone (ingestEvent env input))
  | .replay input, _ => some (thenDone (requestReplay env input))

/-- A returned acknowledgement is run. -/
def after : Job → Acknowledge → Option (Job × Async Acknowledge)
  | .deliver m, some ack => some (.acknowledge m, thenDone ack)
  | _, _ => none

/-- Time passes. -/
def passTime (dt : ℚ) (s : State) : Option State :=
  if 0 ≤ dt then some { s with world := { s.world with clock := s.world.clock + dt } } else none

theorem passTime_eq_some {dt : ℚ} {s s' : State} (h : passTime dt s = some s') :
    s' = { s with world := { s.world with clock := s.world.clock + dt } } := by
  unfold passTime at h
  split_ifs at h
  exact (Option.some.inj h).symm

/-- Time does not go back. -/
theorem clock_le_of_passTime {dt : ℚ} {s s' : State} (h : passTime dt s = some s') :
    s.world.clock ≤ s'.world.clock := by
  unfold passTime at h
  split_ifs at h with hdt
  obtain rfl := Option.some.inj h
  exact le_add_of_nonneg_right hdt

/-! ## The machine -/

/-- A state of the whole system. -/
abbrev Sys := Pool Services State Job Acknowledge

/-- The system. -/
def system (env : Env) : Machine Services State Choice Job Acknowledge ℚ where
  device := device
  surroundings := passTime
  body := body env
  after := after

/-- A system before its first event. -/
structure Start (s : Sys) : Prop where
  events : s.world.world.events = []
  outbox : s.world.world.outbox = []
  deliveries : s.world.world.deliveries = []
  deadLetters : s.world.world.deadLetters = []
  replays : s.world.world.replays = []
  objects : ∀ key, s.world.world.objects key = none
  queue : s.world.world.queue = []
  posts : s.world.world.posts = []
  deleted : s.world.world.deleted = []
  drafts : s.world.world.drafts = []
  seen : ∀ pid, s.world.seen pid = none
  trace : s.world.trace = []
  tasks : ∀ pid, s.tasks pid = none

/-- The states reached by runs whose steps satisfy `ok`. -/
abbrev Reached (env : Env) (ok : Sys → PoolAction Choice Job ℚ → Prop) : Sys → Prop :=
  Run Start (system env).step ok

/-- The states reached by any run. -/
abbrev Reachable (env : Env) : Sys → Prop := Reached env (fun _ _ => True)

/-! ## A small system

One tenant and one request with a `null` payload, to play runs on. -/

namespace Sample

def tenantId : JsString := js "6f1b7a3e-58c2-4d09-9e4b-0a7c35d1f482"

def firstId : JsString := js "c2a9e6d4-1b7f-4f38-8a50-93e1d7b6204f"

def secondId : JsString := js "7d40f1b8-3e65-4a2c-b91d-5f8c06e2a7d3"

def input : Json :=
  .obj [(js "tenantId", .str tenantId), (js "type", .str (js "order.created")),
    (js "payload", .null)]

/-- The event of the request, or a replay of it. -/
def event (id : JsString) (payloadS3Key : Option JsString) : Event :=
  { id := id, tenantId := tenantId, type := js "order.created", payload := none
    payloadS3Key := payloadS3Key }

/-- The digests of the two webhook bodies below, under the tenant's secret. -/
def digest (body : JsString) : JsString :=
  if postedEvent body = some firstId then
    js "678c0919c755a6f3f1e68504b083bd89a79fc8ad102fd8e580b421a36eeef99d"
  else js "cad107a38a4e9c727c4a13ab25eecfee8f66dd3712135e8d1203029787aab28e"

def env (maxAttempts : Option JsNumber) : Env :=
  { receiverUrl := js "http://receiver/hook", maxDeliveryAttempts := maxAttempts
    hmacSha256Hex := fun _ body => digest body }

def start : Sys where
  world :=
    { world :=
        { tenants := [{ id := tenantId, hmacSecret := js "whsec_waybill" }]
          events := [], outbox := [], deliveries := [], deadLetters := [], replays := []
          objects := fun _ => none, queue := [], nextMessage := 0, posts := [], deleted := []
          drafts := [], clock := 1000, visibleAt := fun _ => 0, redis := fun _ => none }
      seen := fun _ => none
      trace := [] }
  tasks := fun _ => none
  spawned := 0

theorem start_start : Start start where
  events := rfl
  outbox := rfl
  deliveries := rfl
  deadLetters := rfl
  replays := rfl
  objects _ := rfl
  queue := rfl
  posts := rfl
  deleted := rfl
  drafts := rfl
  seen _ := rfl
  trace := rfl
  tasks _ := rfl

/-- A message of the queue. -/
def message (id : ℕ) (e : Event) : Message :=
  { id := id, groupId := tenantId, body := messageBody e }

/-- The message of the first event. -/
def firstMessage : Message := message 0 (event firstId none)

def choice (id : JsString) (status : ℕ) : Choice :=
  { id := id, outboxId := id, replayId := id, status := status }

/-- Some operations of a process, in a row. -/
def calls (pid n : ℕ) (c : Choice) : List (PoolAction Choice Job ℚ) :=
  List.replicate n (.step pid c)

/-- Process 0 ingests the request. -/
def ingested : List (PoolAction Choice Job ℚ) :=
  [.spawn (.ingest input)] ++ calls 0 5 (choice firstId 200) ++ [.finish 0]

/-- The outbox row of an event is published. -/
def published (pid : ℕ) (id : JsString) : List (PoolAction Choice Job ℚ) :=
  [.spawn (.publish id)] ++ calls pid 3 (choice id 200) ++ [.finish pid]

/-- A played run, from the small system on. -/
theorem exists_reached (env : Env) (ok : Sys → PoolAction Choice Job ℚ → Prop)
    (check : Sys → PoolAction Choice Job ℚ → Bool) (as : List (PoolAction Choice Job ℚ))
    (test : Sys → Bool) (hcheck : ∀ s a, check s a = true → ok s a)
    (h : (Run.play (system env).step check as start).any test = true) :
    ∃ s, Reached env ok s ∧ test s = true :=
  Run.exists_of_play hcheck start_start h

/-- The same, whatever the steps. -/
theorem exists_reachable (env : Env) (as : List (PoolAction Choice Job ℚ)) (test : Sys → Bool)
    (h : (Run.play (system env).step (fun _ _ => true) as start).any test = true) :
    ∃ s, Reachable env s ∧ test s = true :=
  exists_reached env _ _ as test (fun _ _ _ => trivial) h

end Sample
