/-
# Visibility leases

The worker tracks every receipt it has received and renews the queue's visibility timeout
of all of them in rounds, ten receipts a call (`delivery/visibility.ts`).  A round runs
beside everything else the worker does: receipts are tracked and released while its calls
are under way, calls are answered late, in part or not at all, and a release waits for the
round that was under way when it was called.

`VisibilityLeases` is the object with what its methods do to it.  `LeaseState` adds what
runs around it: the clock, the queue, the round being started, the calls, and those who
wait for a round to end.  Every event is one uninterrupted piece of that, so a run is any
interleaving.
-/
import Waybill.CodeUnits
import Waybill.JsMap
import Waybill.Process

/-- The object a receipt is tracked with.  `id` is the identity of the object. -/
structure LeaseEntry where
  id : ℕ
  expiresAt : ℚ
  deriving DecidableEq

/-- `receipts` and `pending`; a promise in `pending` is named by the number of its round.
`created` counts the entry objects made so far. -/
structure VisibilityLeases where
  receipts : JsMap JsString LeaseEntry
  pending : Option ℕ
  created : ℕ

/-- A changed element is an old one, or the one that was changed. -/
theorem List.getElem?_modify_some {α : Type} {l : List α} {i j : ℕ} {f : α → α} {x' : α}
    (h : (l.modify i f)[j]? = some x') :
    ∃ x, l[j]? = some x ∧ (x' = x ∨ j = i ∧ x' = f x) := by
  rw [List.getElem?_modify] at h
  obtain ⟨x, hx, heq⟩ := Option.map_eq_some_iff.mp h
  refine ⟨x, hx, ?_⟩
  split_ifs at heq with hij
  · exact .inr ⟨hij.symm, heq.symm⟩
  · exact .inl heq.symm

namespace VisibilityLeases

/-- `new VisibilityLeases(…)`. -/
def new : VisibilityLeases := ⟨JsMap.empty, none, 0⟩

/-- `track(receipt)` at the time `now`. -/
def track (v : VisibilityLeases) (receipt : JsString) (now : ℚ) : VisibilityLeases :=
  { v with
    receipts := v.receipts.set receipt ⟨v.created, now + 30000⟩
    created := v.created + 1 }

/-- `isCurrent(receipt)` at the time `now`. -/
def isCurrent (v : VisibilityLeases) (receipt : JsString) (now : ℚ) : Bool :=
  decide (((v.receipts.get receipt).map LeaseEntry.expiresAt).getD 0 > now + 5000)

/-- What `release(receipt)` does before it waits. -/
def release (v : VisibilityLeases) (receipt : JsString) : VisibilityLeases :=
  { v with
    receipts := v.receipts.delete receipt }

/-- `if (this.receipts.get(receipt) === entry) entry.expiresAt = t`. -/
def setExpiry (receipts : JsMap JsString LeaseEntry) (receipt : JsString) (entry : LeaseEntry)
    (t : ℚ) : JsMap JsString LeaseEntry :=
  receipts.modify receipt (fun e => if e.id = entry.id then ⟨e.id, t⟩ else e)

/-- The loop over a batch: every entry that is still the tracked one gets its new time. -/
def setExpiries (t : JsString → ℚ) :
    List (JsString × LeaseEntry) → JsMap JsString LeaseEntry → JsMap JsString LeaseEntry
  | [], receipts => receipts
  | (receipt, entry) :: rest, receipts =>
      setExpiries t rest (setExpiry receipts receipt entry (t receipt))

/-- The batch was answered with the receipts confirmed. -/
def confirm (v : VisibilityLeases) (batch : List (JsString × LeaseEntry)) (startedAt : ℚ)
    (confirmed : List JsString) : VisibilityLeases :=
  { v with
    receipts := setExpiries (fun r => if r ∈ confirmed then startedAt + 30000 else 0) batch
      v.receipts }

/-- The call failed. -/
def invalidate (v : VisibilityLeases) (batch : List (JsString × LeaseEntry)) :
    VisibilityLeases :=
  { v with
    receipts := setExpiries (fun _ => 0) batch v.receipts }

/-- What the loop over a batch leaves at a receipt: the entry as it was, or the same entry
with its new time. -/
theorem get_setExpiries {t : JsString → ℚ} {receipt : JsString} {e' : LeaseEntry} :
    ∀ {batch : List (JsString × LeaseEntry)} {receipts : JsMap JsString LeaseEntry},
      (setExpiries t batch receipts).get receipt = some e' →
      ∃ e, receipts.get receipt = some e ∧
        (e' = e ∨ receipt ∈ batch.map Prod.fst ∧ e'.expiresAt = t receipt)
  | [], _, h => ⟨e', h, .inl rfl⟩
  | (r, entry) :: rest, receipts, h => by
      have hrest : (setExpiries t rest (setExpiry receipts r entry (t r))).get receipt =
          some e' := h
      obtain ⟨e₁, h₁, hrest⟩ := get_setExpiries hrest
      rw [setExpiry, JsMap.get_modify] at h₁
      obtain ⟨e, he, heq⟩ := Option.map_eq_some_iff.mp h₁
      refine ⟨e, he, ?_⟩
      rcases hrest with rfl | ⟨hmem, htime⟩
      · split_ifs at heq with hr hid
        · subst hr
          exact .inr ⟨List.mem_cons_self, by rw [← heq]⟩
        · exact .inl heq.symm
        · exact .inl heq.symm
      · exact .inr ⟨List.mem_cons_of_mem _ hmem, htime⟩

/-- The loop over a batch tracks nothing. -/
theorem get_setExpiries_of_none {t : JsString → ℚ} {receipt : JsString}
    {batch : List (JsString × LeaseEntry)} {receipts : JsMap JsString LeaseEntry}
    (h : receipts.get receipt = none) : (setExpiries t batch receipts).get receipt = none := by
  cases hget : (setExpiries t batch receipts).get receipt with
  | none => rfl
  | some e' =>
      obtain ⟨e, he, -⟩ := get_setExpiries hget
      exact nomatch h.symm.trans he

end VisibilityLeases

/-! ## What runs around it -/

/-- The part of `renewAll` that runs without a pause: entries still to be filtered, and
those kept but not sent yet. -/
structure Sweep where
  round : ℕ
  unseen : List (JsString × LeaseEntry)
  kept : List (JsString × LeaseEntry)

/-- One `renewBatch` call.  `renewed` are the receipts the queue has renewed for it. -/
structure RenewCall where
  round : ℕ
  batch : List (JsString × LeaseEntry)
  startedAt : ℚ
  answered : Bool
  renewed : List JsString

/-- How a `renewBatch` call ends: with the set it returns, or with an error. -/
inductive Reply where
  | confirmed (receipts : List JsString)
  | failed

/-- The `catch` of the batch's callback is reached: the call failed, or `onError` threw when
it was told of an incomplete confirmation. -/
def RenewCall.caught (c : RenewCall) (tryThrows : Bool) : Reply → Bool
  | .confirmed receipts => c.batch.any (fun p => decide (p.1 ∉ receipts)) && tryThrows
  | .failed => true

/-- What the callback of a batch does to the entries once its call has ended. -/
def VisibilityLeases.receive (v : VisibilityLeases) (c : RenewCall) (tryThrows : Bool) :
    Reply → VisibilityLeases
  | .confirmed receipts =>
      if c.caught tryThrows (.confirmed receipts) then
        (v.confirm c.batch c.startedAt receipts).invalidate c.batch
      else v.confirm c.batch c.startedAt receipts
  | .failed => v.invalidate c.batch

namespace VisibilityLeases

/-- An answer leaves the pending round alone. -/
theorem pending_receive (v : VisibilityLeases) (c : RenewCall) (tryThrows : Bool)
    (reply : Reply) : (v.receive c tryThrows reply).pending = v.pending := by
  cases reply with
  | confirmed receipts =>
      dsimp only [receive]
      split <;> rfl
  | failed => rfl

/-- An answer tracks nothing. -/
theorem get_receive_of_none {v : VisibilityLeases} {receipt : JsString}
    (h : v.receipts.get receipt = none) {c : RenewCall} {tryThrows : Bool} {reply : Reply} :
    (v.receive c tryThrows reply).receipts.get receipt = none := by
  cases reply with
  | confirmed receipts =>
      dsimp only [receive]
      split
      · exact get_setExpiries_of_none (get_setExpiries_of_none h)
      · exact get_setExpiries_of_none h
  | failed => exact get_setExpiries_of_none h

end VisibilityLeases

/-- Someone who waits for the round that was pending: `release` of a receipt, or `stop`.
`resolvedAt` is the number of calls begun when the wait was over, `retracked` says that
the receipt was tracked again since. -/
structure Wait where
  receipt : Option JsString
  waitsFor : Option ℕ
  resolvedAt : Option ℕ
  retracked : Bool
  deriving DecidableEq

/-- A wait that learns of a `track`. -/
def Wait.noteTrack (receipt : JsString) (w : Wait) : Wait :=
  { w with
    retracked := w.retracked || w.receipt == some receipt }

/-- The worker's deliberate changes of a message's visibility, or its deletion. -/
inductive Deliberate where
  | hideUntil (receipt : JsString)
  | acknowledgeMessage (receipt : JsString)
  | deferExcessMessages (handles : List (Option JsString))

namespace Deliberate

/-- The receipts an operation releases; a message without a handle is passed over. -/
def receipts : Deliberate → List JsString
  | .hideUntil receipt => [receipt]
  | .acknowledgeMessage receipt => [receipt]
  | .deferExcessMessages handles => handles.filterMap (fun h => h.filter (· ≠ []))

end Deliberate

/-- An operation under way: the places of its releases among the waits, and the number of
calls begun when it sent its request. -/
structure Operation where
  kind : Deliberate
  releases : List ℕ
  issuedAt : Option ℕ

/-- The worker and the queue.  `servedAt` and `hiddenUntil` are the queue's; `rejected`
says that `renewAll` of the pending round has thrown. -/
structure LeaseState where
  clock : ℚ
  leases : VisibilityLeases
  rounds : ℕ
  sweep : Option Sweep
  calls : List RenewCall
  rejected : Bool
  waits : List Wait
  operations : List Operation
  servedAt : JsString → Option ℚ
  hiddenUntil : JsString → ℚ

/-- What can happen next. -/
inductive LeaseEvent where
  | tick (t : ℚ)
  | serve (receipt : JsString)
  | renew (call : ℕ) (receipt : JsString)
  | track (receipt : JsString)
  | renewNow
  | sweep
  | answer (call : ℕ) (reply : Reply) (tryThrows catchThrows : Bool)
  | settle
  | release (receipt : JsString)
  | stop
  | resolve (wait : ℕ)
  | operate (kind : Deliberate)
  | issue (operation : ℕ)

namespace LeaseState

/-- The worker's thread is free. -/
def free (s : LeaseState) : Bool := s.sweep.isNone

/-- The call is under way. -/
def underWay (s : LeaseState) (call : ℕ) : Bool :=
  (s.calls[call]?).any (fun c => !c.answered)

/-- All calls of the round have ended. -/
def roundDone (s : LeaseState) (round : ℕ) : Bool :=
  s.calls.all (fun c => c.answered || c.round != round)

/-- The wait is over. -/
def waitOver (s : LeaseState) (wait : ℕ) : Bool :=
  (s.waits[wait]?).any (fun w => w.resolvedAt.isSome)

/-- Which events are possible.  While the part of `renewAll` without a pause runs, the
worker does nothing else; only a `renewBatch` that throws at once ends within it. -/
def enabled (s : LeaseState) : LeaseEvent → Bool
  | .tick t => decide (s.clock ≤ t)
  | .serve _ => true
  | .renew call receipt =>
      decide (s.clock < s.hiddenUntil receipt) &&
        (s.calls[call]?).any (fun c => decide (receipt ∈ c.batch.map Prod.fst))
  | .track _ => s.free
  | .renewNow => s.free
  -- only a round under way looks on
  | .sweep => !s.free
  | .answer call (.confirmed _) _ _ => s.free && s.underWay call
  -- a request that throws at once ends while the round is still sending
  | .answer call .failed _ _ => s.underWay call
  | .settle => s.free && (s.leases.pending).any (fun k => s.rejected || s.roundDone k)
  | .release _ => s.free
  | .stop => s.free
  | .resolve wait =>
      -- a wait is over when the renewal it waits for is no longer pending
      s.free && (s.waits[wait]?).any (fun w => w.resolvedAt.isNone &&
        (w.waitsFor.isNone || decide (w.waitsFor ≠ s.leases.pending)))
  | .operate _ => s.free
  | .issue operation =>
      s.free && (s.operations[operation]?).any (fun o => o.issuedAt.isNone &&
        o.releases.all s.waitOver)

/-! ## Effects -/

/-- The queue shows the message to this worker and hides it from the others. -/
def serve (s : LeaseState) (receipt : JsString) : LeaseState :=
  { s with
    servedAt := Function.update s.servedAt receipt (some s.clock)
    hiddenUntil := Function.update s.hiddenUntil receipt (s.clock + 30000) }

/-- The queue renews a receipt for a call. -/
def renew (s : LeaseState) (call : ℕ) (receipt : JsString) : LeaseState :=
  { s with
    calls := s.calls.modify call (fun c => { c with renewed := receipt :: c.renewed })
    hiddenUntil := Function.update s.hiddenUntil receipt (s.clock + 30000) }

/-- The receive has come back. -/
def track (s : LeaseState) (receipt : JsString) : LeaseState :=
  { s with
    leases := s.leases.track receipt s.clock
    waits := s.waits.map (Wait.noteTrack receipt) }

/-- `renewNow`, from the timer or from anyone: a new round, unless one is pending. -/
def renewNow (s : LeaseState) : LeaseState :=
  match s.leases.pending with
  | some _ => s
  | none =>
      { s with
        leases := { s.leases with pending := some s.rounds }
        rounds := s.rounds + 1
        sweep := some ⟨s.rounds, s.leases.receipts.entries, []⟩
        rejected := false }

/-- One step of the part of `renewAll` without a pause: the filter looks at an entry, the
next ten entries are sent, or the part is over. -/
def goOn (s : LeaseState) (w : Sweep) : LeaseState :=
  match w.unseen, w.kept with
  | p :: rest, kept =>
      { s with
        sweep := some ⟨w.round, rest, if p.2.expiresAt > s.clock then kept ++ [p] else kept⟩ }
  | [], [] =>
      { s with
        sweep := none }
  | [], p :: rest =>
      { s with
        calls := s.calls ++ [⟨w.round, (p :: rest).take 10, s.clock, false, []⟩]
        sweep := some ⟨w.round, [], (p :: rest).drop 10⟩ }

/-- A call has ended, and its callback goes on. -/
def answer (s : LeaseState) (call : ℕ) (c : RenewCall) (reply : Reply)
    (tryThrows catchThrows : Bool) : LeaseState :=
  { s with
    leases := s.leases.receive c tryThrows reply
    calls := s.calls.modify call (fun c => { c with answered := true })
    rejected := s.rejected ||
      (c.caught tryThrows reply && catchThrows && decide (s.leases.pending = some c.round)) }

/-- The continuation of `renewAll`. -/
def settle (s : LeaseState) : LeaseState :=
  { s with
    leases := { s.leases with pending := none } }

/-- `release(receipt)` up to its `await`. -/
def release (s : LeaseState) (receipt : JsString) : LeaseState :=
  { s with
    leases := s.leases.release receipt
    waits := s.waits ++ [⟨some receipt, s.leases.pending, none, false⟩] }

/-- `stop()` up to its `await`; the timer it clears is not the only caller of `renewNow`. -/
def stop (s : LeaseState) : LeaseState :=
  { s with
    waits := s.waits ++ [⟨none, s.leases.pending, none, false⟩] }

/-- A wait is over; `stop` then forgets all receipts. -/
def resolve (s : LeaseState) (wait : ℕ) (w : Wait) : LeaseState :=
  { s with
    leases := if w.receipt.isNone then { s.leases with receipts := JsMap.empty } else s.leases
    waits := s.waits.modify wait (fun w => { w with resolvedAt := some s.calls.length }) }

/-- A deliberate operation releases its receipts, all before it waits for any of them. -/
def operate (s : LeaseState) (kind : Deliberate) : LeaseState :=
  let s' := kind.receipts.foldl release s
  { s' with
    operations := s.operations ++
      [⟨kind, (List.range kind.receipts.length).map (s.waits.length + ·), none⟩] }

/-- Its releases are over, and it sends its request. -/
def issue (s : LeaseState) (operation : ℕ) : LeaseState :=
  { s with
    operations := s.operations.modify operation
      (fun o => { o with issuedAt := some s.calls.length }) }

/-- What an event does. -/
def next (s : LeaseState) : LeaseEvent → LeaseState
  | .tick t =>
      { s with
        clock := t }
  | .serve receipt => s.serve receipt
  | .renew call receipt => s.renew call receipt
  | .track receipt => s.track receipt
  | .renewNow => s.renewNow
  | .sweep => (s.sweep.map s.goOn).getD s
  | .answer call reply tryThrows catchThrows =>
      ((s.calls[call]?).map (fun c => s.answer call c reply tryThrows catchThrows)).getD s
  | .settle => s.settle
  | .release receipt => s.release receipt
  | .stop => s.stop
  | .resolve wait => ((s.waits[wait]?).map (s.resolve wait)).getD s
  | .operate kind => s.operate kind
  | .issue operation => s.issue operation

/-- A step. -/
def step (s : LeaseState) (e : LeaseEvent) : Option LeaseState :=
  if s.enabled e then some (s.next e) else none

/-- Nothing is tracked and nothing runs.  The queue may hide anything. -/
structure Start (s : LeaseState) : Prop where
  clock : 0 ≤ s.clock
  leases : s.leases = .new
  sweep : s.sweep = none
  calls : s.calls = []
  rejected : s.rejected = false
  waits : s.waits = []
  operations : s.operations = []
  servedAt : ∀ r, s.servedAt r = none
  hiddenUntil : ∀ r, s.hiddenUntil r ≤ s.clock + 30000

theorem step_eq_some {s s' : LeaseState} {e : LeaseEvent} :
    s.step e = some s' ↔ s.enabled e = true ∧ s.next e = s' := by
  unfold step
  split_ifs with h
  · exact ⟨fun heq => ⟨h, Option.some.inj heq⟩, fun hs => congrArg some hs.2⟩
  · exact ⟨fun heq => (nomatch heq), fun hs => absurd hs.1 h⟩

end LeaseState

/-! ## Sample runs -/

namespace Sample

/-- Nothing has happened yet. -/
def leases : LeaseState where
  clock := 0
  leases := .new
  rounds := 0
  sweep := none
  calls := []
  rejected := false
  waits := []
  operations := []
  servedAt := fun _ => none
  hiddenUntil := fun _ => 0

theorem leases_start : leases.Start where
  clock := le_rfl
  leases := rfl
  sweep := rfl
  calls := rfl
  rejected := rfl
  waits := rfl
  operations := rfl
  servedAt := fun _ => rfl
  hiddenUntil := fun _ => by
    show (0 : ℚ) ≤ 0 + 30000
    norm_num

/-- A receipt is served, tracked four seconds later and renewed at ten seconds; the answer
comes late. -/
def renewedOnce : List LeaseEvent :=
  [.serve (js "r"), .tick 4000, .track (js "r"), .tick 10000, .renewNow, .sweep, .sweep, .sweep,
    .tick 12000, .renew 0 (js "r"), .tick 30000, .answer 0 (.confirmed [js "r"]) false false,
    .settle]

/-- A message is hidden on purpose while its receipt is being renewed. -/
def hiddenOnce : List LeaseEvent :=
  [.serve (js "r"), .track (js "r"), .renewNow, .sweep, .sweep, .sweep,
    .operate (.hideUntil (js "r")), .renew 0 (js "r"), .answer 0 (.confirmed [js "r"]) false false,
    .settle, .resolve 0, .issue 0]

end Sample
