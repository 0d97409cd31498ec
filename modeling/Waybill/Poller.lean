/-
# The publisher's main loop (`worker/src/outbox-poller.ts`)

A publisher becomes the leader by taking an advisory lock in its database session, and then
publishes the outbox tick by tick; whatever goes wrong, it gives up its session and starts
again as a standby.

* The programs of the loop are written over the operations `PollerOp` of a publisher, the
  calls of `publishOne` that a tick starts over the `Services`, on which they run side by
  side.
* `Cluster` is any number of publishers on one world, with the holder of the lock.  An event
  is one operation of a main loop or of one of its calls, a signal, the end or the death of a
  process, or something that the other services do.
-/
import Waybill.Backlog
import Waybill.Publisher

namespace OutboxPoller

/-! ## Operations -/

/-- `Outbox & { event: Event }`. -/
structure UnpublishedOutbox where
  row : Outbox
  event : Event

/-- The operations of a main loop. -/
inductive PollerOp where
  /-- reads the flag that the signal handlers set -/
  | stopping
  | sleep
  /-- waits for ever; the loop of a model has to end somewhere -/
  | hang
  | tryAdvisoryLock
  | advisoryUnlock
  | disconnect
  /-- the ranking query of `listUnpublished` -/
  | selectPending (limit : ℕ) (afterTenantId : JsString)
  /-- `outbox.findMany` for the selected rows -/
  | findUnpublished (ids : List JsString)
  /-- `rows.map((row) => publishOne(…))` -/
  | startPublishing (rows : List UnpublishedOutbox)
  | allSettled
  | stopBacklogSampler
  | disconnectBacklogReader
  | stopMetricsServer

namespace PollerOp

/-- What an operation answers when it does not fail. -/
def Res : PollerOp → Type
  | stopping => Bool
  | sleep => Unit
  | hang => Unit
  | tryAdvisoryLock => Bool
  | advisoryUnlock => Unit
  | disconnect => Unit
  | selectPending .. => List JsString
  | findUnpublished _ => List UnpublishedOutbox
  | startPublishing _ => Unit
  | allSettled => List (Except JsError Unit)
  | stopBacklogSampler => Unit
  | disconnectBacklogReader => Unit
  | stopMetricsServer => Unit

/-- Operations that never leave the process, and so never fail. -/
def isLocal : PollerOp → Bool
  | stopping => true
  | sleep => true
  | hang => true
  | startPublishing _ => true
  | allSettled => true
  | _ => false

/-- The operations of a tick, from the selection of the rows on. -/
def ofTick : PollerOp → Bool
  | selectPending .. => true
  | findUnpublished _ => true
  | startPublishing _ => true
  | allSettled => true
  | _ => false

end PollerOp

/-- The operations as an interface for programs. -/
abbrev PollerServices : Interface := { Op := PollerOp, Res := PollerOp.Res, Err := JsError }

/-- A program of the main loop. -/
abbrev Polling := Prog PollerServices

/-- Perform one operation. -/
def perform (op : PollerOp) : Polling op.Res := @Prog.perform PollerServices op

def readStopping : Polling Bool := perform .stopping

def sleep : Polling Unit := perform .sleep

def selectPending (limit : ℕ) (afterTenantId : JsString) : Polling (List JsString) :=
  perform (.selectPending limit afterTenantId)

def findUnpublished (ids : List JsString) : Polling (List UnpublishedOutbox) :=
  perform (.findUnpublished ids)

def startPublishing (rows : List UnpublishedOutbox) : Polling Unit :=
  perform (.startPublishing rows)

def allSettled : Polling (List (Except JsError Unit)) := perform .allSettled

def disconnect : Polling Unit := perform .disconnect

/-! ## The programs -/

/-- `BATCH_SIZE`. -/
def batchSize : ℕ := 10

def tryBecomeLeader : Polling Bool := perform .tryAdvisoryLock

def releaseLeader : Polling Unit := perform .advisoryUnlock

/-- The rows found, in the order in which they were selected. -/
def arrange (selected : List JsString) (rows : List UnpublishedOutbox) : List UnpublishedOutbox :=
  selected.filterMap (fun id => rows.find? (fun r => r.row.id == id))

/-- `listUnpublished`. -/
def listUnpublished (limit : ℕ) (afterTenantId : JsString) : Polling (List UnpublishedOutbox) := do
  let selected ← selectPending limit afterTenantId
  if selected.isEmpty then return []
  else
    let rows ← findUnpublished selected
    return arrange selected rows

/-- What `tick` returns. -/
structure TickResult where
  count : ℕ
  failed : Bool
  afterTenantId : JsString

/-- `tick`. -/
def tick (afterTenantId : JsString) : Polling TickResult := do
  let rows ← listUnpublished batchSize afterTenantId
  startPublishing rows
  let results ← allSettled
  return { count := rows.length
           failed := results.any (fun r => !r.isOk)
           afterTenantId := (rows.getLast?.map (fun r => r.event.tenantId)).getD afterTenantId }

/-- How a turn of the loop ends: it goes on, or the `catch` is reached. -/
inductive Turn where
  | goOn (isLeader : Bool) (afterTenantId : JsString)
  | failed (afterTenantId : JsString)

/-- `if (!stopping) await sleep(POLL_MS)`. -/
def pauseUnlessStopping : Polling Unit := do
  let stopping ← readStopping
  if stopping then return () else sleep

/-- The `try` of the loop; it returns nothing where the loop goes on as a standby. -/
def tryTick (isLeader : Bool) (afterTenantId : JsString) : Polling (Option TickResult) := do
  let leads ← if isLeader then pure true else tryBecomeLeader
  if leads then
    let result ← tick afterTenantId
    if !result.failed && result.count == 0 then
      pauseUnlessStopping
    return some result
  else
    sleep
    return none

/-- How the `try` ended; a tick with a failed publication has moved the cursor before it
throws. -/
def turnOf (afterTenantId : JsString) : Except JsError (Option TickResult) → Turn
  | .ok none => .goOn false afterTenantId
  | .ok (some result) =>
      if result.failed then .failed result.afterTenantId else .goOn true result.afterTenantId
  | .error _ => .failed afterTenantId

/-- The loop, for a number of turns; it returns `isLeader`. -/
def loop : ℕ → Bool → JsString → Polling Bool
  | 0, isLeader, _ => do
      perform .hang
      return isLeader
  | turns + 1, isLeader, afterTenantId => do
      let stopping ← readStopping
      if stopping then return isLeader
      else
        let outcome ← (tryTick isLeader afterTenantId).attempt
        match turnOf afterTenantId outcome with
        | .goOn isLeader afterTenantId => loop turns isLeader afterTenantId
        | .failed afterTenantId =>
            disconnect
            pauseUnlessStopping
            loop turns false afterTenantId

/-- The `finally` of `main`. -/
def shutDown (isLeader : Bool) : Polling Unit :=
  (perform .stopBacklogSampler).ensure ((perform .disconnectBacklogReader).ensure
    ((if isLeader then releaseLeader else pure ()).ensure
      (disconnect.ensure (perform .stopMetricsServer))))

/-- `main`.  Whenever the loop throws, `isLeader` has been set to `false` before. -/
def main (turns : ℕ) : Polling Unit := do
  let result ← (loop turns false []).attempt
  shutDown (result.toOption.getD false)
  match result with
  | .ok _ => return ()
  | .error e => .throw e

/-! ## Publishers on one world -/

/-- A call of `publishOne`, and the rest of it. -/
structure Sending where
  row : Outbox
  event : Event
  call : Async Unit

/-- The call has returned or thrown. -/
def Sending.settled (x : Sending) : Bool :=
  match x.call with
  | .call .. => false
  | _ => true

/-- What a settled call ended with. -/
def Sending.result (x : Sending) : Except JsError Unit :=
  match x.call with
  | .throw e => .error e
  | _ => .ok ()

/-- A publisher: the rest of its main loop, the calls of its tick, and whether it was told to
stop. -/
structure PublisherProcess where
  prog : Polling Unit
  sending : List Sending
  signalled : Bool

/-- Publishers on one world.  `lock` is the process whose session holds the advisory lock;
`sends` are the rows sent to the queue so far. -/
structure Cluster where
  world : World
  lock : Option ℕ
  processes : ℕ → Option PublisherProcess
  spawned : ℕ
  sends : List JsString

/-- The unpublished rows with their events, as the ranking query looks at them. -/
def pendingRows (w : World) : List (Publisher.PendingRow JsString JsString) :=
  w.outbox.filterMap (fun o => if o.published then none
    else (w.eventById o.eventId).map (fun e => ⟨o.id, e.tenantId, o.createdAt⟩))

/-- The ranking query: the first rows in turn, under the collation of the database. -/
def rankPending (collation : LinearOrder JsString) (w : World) (limit : ℕ)
    (afterTenantId : JsString) : List JsString :=
  letI := collation
  (Ranking.first limit (Publisher.selectionKey (pendingRows w) afterTenantId)
    (pendingRows w)).map Publisher.PendingRow.id

/-- `findMany` with `published: false`. -/
def unpublishedAmong (w : World) (ids : List JsString) : List UnpublishedOutbox :=
  (w.outbox.filter (fun o => !o.published && ids.contains o.id)).filterMap (fun o =>
    (w.eventById o.eventId).map (fun e => ⟨o, e⟩))

/-- What an operation answers when it does not fail. -/
def answer (collation : LinearOrder JsString) (s : Cluster) (pid : ℕ) (p : PublisherProcess) :
    (op : PollerOp) → op.Res
  | .stopping => p.signalled
  | .sleep => ()
  | .hang => ()
  | .tryAdvisoryLock => decide (s.lock = none ∨ s.lock = some pid)
  | .advisoryUnlock => ()
  | .disconnect => ()
  | .selectPending limit afterTenantId => rankPending collation s.world limit afterTenantId
  | .findUnpublished ids => unpublishedAmong s.world ids
  | .startPublishing _ => ()
  | .allSettled => p.sending.map Sending.result
  | .stopBacklogSampler => ()
  | .disconnectBacklogReader => ()
  | .stopMetricsServer => ()

/-- The lock given up by a process, if it has it. -/
def freed (lock : Option ℕ) (pid : ℕ) : Option ℕ := if lock = some pid then none else lock

/-- The holder of the lock after an operation.  The lock is taken once by a session, and
lost when the session ends. -/
def lockAfter (lock : Option ℕ) (pid : ℕ) : PollerOp → Option ℕ
  | .tryAdvisoryLock => if lock = none then some pid else lock
  | .advisoryUnlock => freed lock pid
  | .disconnect => freed lock pid
  | _ => lock

/-- The calls of a tick after an operation: `publishOne` is called for each row. -/
def sendingAfter (sending : List Sending) : PollerOp → List Sending
  | .startPublishing rows =>
      rows.map (fun r => ⟨r.row, r.event, Publisher.publishOne r.row r.event⟩)
  | .allSettled => []
  | _ => sending

/-- Operations that wait: for ever, or until all calls of the tick have settled. -/
def ready (p : PublisherProcess) : PollerOp → Bool
  | .hang => false
  | .allSettled => p.sending.all Sending.settled
  | _ => true

namespace Cluster

/-- A process takes the place of another, or of none. -/
def put (s : Cluster) (pid : ℕ) (p : Option PublisherProcess) : Cluster :=
  { s with
    processes := Function.update s.processes pid p }

/-- The operation has its effect, and the main loop goes on with what it is told. -/
def perform (collation : LinearOrder JsString) (s : Cluster) (pid : ℕ) (p : PublisherProcess)
    (op : PollerOp) (k : Except JsError op.Res → Polling Unit) (fault : Fault)
    (error : JsError) : Cluster :=
  let told : Except JsError op.Res :=
    if op.isLocal || fault == .none then .ok (answer collation s pid p op) else .error error
  if op.isLocal || fault != .before then
    { s.put pid (some { p with prog := k told, sending := sendingAfter p.sending op }) with
      lock := lockAfter s.lock pid op }
  else s.put pid (some { p with prog := k told })

/-- A process ends: its session is closed, and its calls are gone. -/
def die (s : Cluster) (pid : ℕ) : Cluster :=
  { s.put pid none with
    lock := freed s.lock pid }

/-- What an operation of `publishOne` adds to the rows sent. -/
def sentBy (row : Outbox) (fault : Fault) : Op → List JsString
  | .sendMessage .. => if fault = .before then [] else [row.id]
  | _ => []

/-- A call of `publishOne` performs its next operation. -/
def publish (s : Cluster) (pid : ℕ) (p : PublisherProcess) (i : ℕ) (x : Sending) (op : Op)
    (k : Except JsError op.Res → Async Unit) (c : Choice) : Option Cluster :=
  (services.exec pid op c s.world).map (fun rw =>
    { s.put pid (some { p with sending := p.sending.set i { x with call := k rw.1 } }) with
      world := rw.2
      sends := sentBy x.row c.fault op ++ s.sends })

end Cluster

/-- What can happen next. -/
inductive ClusterEvent where
  | start (turns : ℕ)
  | signal (pid : ℕ)
  | poll (pid : ℕ) (fault : Fault) (error : JsError)
  | publish (pid i : ℕ) (c : Choice)
  | exit (pid : ℕ)
  | crash (pid : ℕ)
  | service (op : Op) (c : Choice)
  | passTime (dt : ℚ)

/-- Only publishers send messages and mark rows. -/
def ofPublisher : Op → Bool
  | .sendMessage .. => true
  | .markPublished .. => true
  | _ => false

/-- A main loop performs its next operation. -/
def stepPoll (collation : LinearOrder JsString) (s : Cluster) (pid : ℕ) (p : PublisherProcess)
    (fault : Fault) (error : JsError) : Option Cluster :=
  match p.prog with
  | .call op k => if ready p op then some (s.perform collation pid p op k fault error) else none
  | _ => none

/-- A call of `publishOne` performs its next operation. -/
def stepPublish (s : Cluster) (pid : ℕ) (p : PublisherProcess) (i : ℕ) (x : Sending)
    (c : Choice) : Option Cluster :=
  match x.call with
  | .call op k => s.publish pid p i x op k c
  | _ => none

/-- A main loop has come to its end, and its process ends. -/
def stepExit (s : Cluster) (pid : ℕ) (p : PublisherProcess) : Option Cluster :=
  match p.prog with
  | .call .. => none
  | _ => some (s.die pid)

/-- A step. -/
def step (collation : LinearOrder JsString) (s : Cluster) : ClusterEvent → Option Cluster
  | .start turns => some
      { s.put s.spawned (some { prog := main turns, sending := [], signalled := false }) with
        spawned := s.spawned + 1 }
  | .signal pid => (s.processes pid).map (fun p => s.put pid (some { p with signalled := true }))
  | .poll pid fault error =>
      (s.processes pid).bind (fun p => stepPoll collation s pid p fault error)
  | .publish pid i c =>
      (s.processes pid).bind (fun p =>
        (p.sending[i]?).bind (fun x => stepPublish s pid p i x c))
  | .exit pid => (s.processes pid).bind (stepExit s pid)
  | .crash pid => (s.processes pid).map (fun _ => s.die pid)
  | .service op c =>
      -- the other services do anything but what only a publisher does
      if ofPublisher op then none
      else (s.world.exec op c).map (fun rw => { s with world := rw.2 })
  | .passTime dt =>
      if 0 ≤ dt then some { s with world := { s.world with clock := s.world.clock + dt } }
      else none

/-- No publisher has been started, and nothing has been sent; rows are told apart by their
identifiers. -/
structure Start (s : Cluster) : Prop where
  processes : ∀ pid, s.processes pid = none
  lock : s.lock = none
  sends : s.sends = []
  distinct : (s.world.outbox.map Outbox.id).Nodup

end OutboxPoller
