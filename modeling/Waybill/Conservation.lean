/-
# No message of a cycle is lost, and no receipt leaks

What the phases of `ReceiveCycle` say about the state, concern by concern: where every message
of the cycle is (`Placed`), what the tenants' turns count (`Turned`), which handler is under
way (`Attended`), how many acknowledgements are pending (`Bounded`), and who still has to
release a receipt that is tracked (`Owned`).  Messages are counted: an operation moves one
message from one list to another.
-/
import Waybill.ReceiveCycle
import Waybill.Heartbeats

namespace ReceiveLoop

/-! ## What a phase knows -/

namespace Stage

/-- The message whose fate is not decided yet. -/
def unplaced : Stage → List SqsMessage
  | .doubted m => [m]
  | .leaving m => [m]
  | .owned m => [m]
  | .refused m => [m]
  | .chosen m => [m]
  | _ => []

/-- The message that is going to be skipped. -/
def doubts : Stage → List SqsMessage
  | .doubted m => [m]
  | .leaving m => [m]
  | _ => []

/-- The message whose turn was taken, and that has not been passed on. -/
def turn : Stage → List SqsMessage
  | .chosen m => [m]
  | _ => []

/-- The message that is going to be deferred. -/
def refusals : Stage → List SqsMessage
  | .refused m => [m]
  | _ => []

/-- The call that is waited for. -/
def calling : Stage → Option ℕ
  | .handling _ call => some call
  | _ => none

/-- The receipt that is still to be released. -/
def holds : Stage → List JsString
  | .doubted m => m.receipt.toList
  | .owned m => m.receipt.toList
  | .refused m => m.receipt.toList
  | .chosen m => m.receipt.toList
  | .handling m _ => m.receipt.toList
  | .owing receipt => [receipt]
  | .acknowledged _ receipt => [receipt]
  | _ => []

end Stage

namespace CyclePhase

/-- The stage of the message that is being handled. -/
def stage : CyclePhase → Stage
  | .receiving _ _ stage => stage
  | _ => .ready

/-- The messages in hand. -/
def hand : CyclePhase → List SqsMessage
  | .receiving _ hand _ => hand
  | _ => []

/-- The receives still pending. -/
def pending : CyclePhase → List ℕ
  | .receiving pending _ _ => pending
  | _ => []

/-- The messages whose fate is not decided yet. -/
def unplaced (φ : CyclePhase) : List SqsMessage := φ.stage.unplaced ++ φ.hand

end CyclePhase

namespace MainLoop

/-- Messages that have come back and are not in hand yet. -/
def waiting (s : MainLoop) : List SqsMessage := s.arrived.flatMap ReceiveResult.messages

/-- How many messages of a tenant were passed to `handleMessage` in this cycle. -/
def handledOf (s : MainLoop) (tenantId : JsString) : ℕ :=
  s.handled.countP (fun m => decide (m.tenant = some tenantId))

/-- `VisibilityLeases` tracks the receipt. -/
def Tracks (s : MainLoop) (receipt : JsString) : Prop :=
  s.leases.leases.receipts.get receipt ≠ none

end MainLoop

/-! ## Where the messages are -/

/-- Every message of the cycle is in one place, and only doubted ones are skipped. -/
structure Placed (φ : CyclePhase) (s : MainLoop) : Prop where
  pending : ∀ id, φ.pending.count id =
    s.flying.count id + (s.arrived.map ReceiveResult.id).count id
  placed : ∀ m, s.received.count m = s.skipped.count m + s.deferred.count m +
    s.handled.count m + φ.unplaced.count m + s.waiting.count m
  lapsed : ∀ m, s.lapsed.count m = s.skipped.count m + φ.stage.doubts.count m
  created : ∀ m ∈ s.received, m.ref < s.created
  distinct : s.received.Nodup

/-- The receive that a race finds is taken off. -/
theorem arrived_perm {s : MainLoop} {pick : ℕ} {result : ReceiveResult}
    (h : s.arrived[pick]? = some result) :
    (result :: s.arrived.eraseIdx pick).Perm s.arrived := by
  obtain ⟨hlt, rfl⟩ := List.getElem?_eq_some_iff.mp h
  exact List.getElem_cons_eraseIdx_perm hlt

theorem count_arrived {s : MainLoop} {pick : ℕ} {result : ReceiveResult}
    (h : s.arrived[pick]? = some result) (id : ℕ) :
    (s.arrived.map ReceiveResult.id).count id =
      ((s.arrived.eraseIdx pick).map ReceiveResult.id).count id +
        if result.id == id then 1 else 0 := by
  rw [← ((arrived_perm h).map ReceiveResult.id).count_eq id, List.map_cons, List.count_cons]

theorem count_waiting {s : MainLoop} {pick : ℕ} {result : ReceiveResult}
    (h : s.arrived[pick]? = some result) (m : SqsMessage) :
    s.waiting.count m = result.messages.count m +
      ((s.arrived.eraseIdx pick).flatMap ReceiveResult.messages).count m := by
  rw [MainLoop.waiting, ← ((arrived_perm h).flatMap_right ReceiveResult.messages).count_eq m,
    List.flatMap_cons, List.count_append]

/-- Between two cycles, and behind the confirmations, no receive is pending. -/
theorem Placed.waiting_nil {φ : CyclePhase} {s : MainLoop} (h : Placed φ s)
    (hpending : φ.pending = []) : s.waiting = [] := by
  have harrived : s.arrived = [] := by
    cases ha : s.arrived with
    | nil => rfl
    | cons result rest =>
        have hcount := h.pending result.id
        rw [hpending, ha, List.map_cons, List.count_cons_self, List.count_nil] at hcount
        omega
  rw [MainLoop.waiting, harrived]
  rfl

/-- A doubted message is not placed yet, whether it has a receipt or not. -/
theorem unplaced_afterDoubt (m : SqsMessage) : (Stage.afterDoubt m).unplaced = [m] := by
  unfold Stage.afterDoubt
  split_ifs <;> rfl

theorem doubts_afterDoubt (m : SqsMessage) : (Stage.afterDoubt m).doubts = [m] := by
  unfold Stage.afterDoubt
  split_ifs <;> rfl

/-- Behind the handler, the message is placed. -/
theorem unplaced_afterHandler (m : SqsMessage) (outcome : Except JsError Bool) :
    (Stage.afterHandler m outcome).unplaced = [] := by
  unfold Stage.afterHandler
  split <;> rfl

theorem doubts_afterHandler (m : SqsMessage) (outcome : Except JsError Bool) :
    (Stage.afterHandler m outcome).doubts = [] := by
  unfold Stage.afterHandler
  split <;> rfl

/-- A move takes a message from one place to another. -/
theorem Placed.move {φ ψ : CyclePhase} {s s' : MainLoop} (h : Placed φ s)
    (hmove : Move s φ ψ s') : Placed ψ s' := by
  cases hmove with
  -- the last cycle has read every response
  | newCycle =>
      have hwaiting := h.waiting_nil rfl
      refine ⟨h.pending, fun m => ?_, fun m => rfl, fun m hm => (nomatch hm), List.nodup_nil⟩
      show _ = _ + s.waiting.count m
      rw [hwaiting]
      rfl
  | receive pending id =>
      refine ⟨fun i => ?_, h.placed, h.lapsed, h.created, h.distinct⟩
      have hi : pending.count i = _ := h.pending i
      show (pending ++ [id]).count i = (s.flying ++ [id]).count i +
        (s.arrived.map ReceiveResult.id).count i
      rw [List.count_append, List.count_append]
      omega
  -- the messages of the response come into hand
  | @race pending pick result hget hmem =>
      refine ⟨fun i => ?_, fun m => ?_, h.lapsed, h.created, h.distinct⟩
      · have hi : pending.count i = _ := h.pending i
        have hids := count_arrived hget i
        show (pending.erase result.id).count i = _
        rw [List.count_erase]
        dsimp only
        omega
      · have hm := h.placed m
        have hmessages := count_waiting hget m
        have hunplaced : (CyclePhase.receiving pending [] .ready).unplaced.count m = 0 := rfl
        show s.received.count m = s.skipped.count m + s.deferred.count m + s.handled.count m +
          result.messages.count m + ((s.arrived.eraseIdx pick).flatMap _).count m
        omega
  -- a message in doubt waits to be skipped
  | uncertain pending m hand =>
      refine ⟨h.pending, fun x => ?_, fun x => ?_, h.created, h.distinct⟩
      · show _ = _ + ((Stage.afterDoubt m).unplaced ++ hand).count x + _
        rw [unplaced_afterDoubt]
        exact h.placed x
      · have hx : s.lapsed.count x = s.skipped.count x + 0 := h.lapsed x
        show (m :: s.lapsed).count x = s.skipped.count x + (Stage.afterDoubt m).doubts.count x
        rw [doubts_afterDoubt, List.count_cons, List.count_cons, List.count_nil]
        omega
  | warnSkipped pending m hand =>
      refine ⟨h.pending, fun x => ?_, fun x => ?_, h.created, h.distinct⟩
      · have hx : s.received.count x = s.skipped.count x + s.deferred.count x +
          s.handled.count x + (m :: hand).count x + s.waiting.count x := h.placed x
        rw [List.count_cons] at hx
        show s.received.count x = (m :: s.skipped).count x + s.deferred.count x +
          s.handled.count x + hand.count x + s.waiting.count x
        rw [List.count_cons]
        omega
      · have hx : s.lapsed.count x = s.skipped.count x + [m].count x := h.lapsed x
        rw [List.count_cons, List.count_nil] at hx
        show s.lapsed.count x = (m :: s.skipped).count x + 0
        rw [List.count_cons]
        omega
  | pushDeferred pending m hand =>
      refine ⟨h.pending, fun x => ?_, h.lapsed, h.created, h.distinct⟩
      have hx : s.received.count x = s.skipped.count x + s.deferred.count x +
        s.handled.count x + (m :: hand).count x + s.waiting.count x := h.placed x
      rw [List.count_cons] at hx
      show s.received.count x = s.skipped.count x + (s.deferred ++ [m]).count x +
        s.handled.count x + hand.count x + s.waiting.count x
      rw [List.count_append, List.count_cons, List.count_nil]
      omega
  -- from the hand to the handler
  | handleMessage pending m hand =>
      refine ⟨h.pending, fun x => ?_, h.lapsed, h.created, h.distinct⟩
      have hx : s.received.count x = s.skipped.count x + s.deferred.count x +
        s.handled.count x + (m :: hand).count x + s.waiting.count x := h.placed x
      rw [List.count_cons] at hx
      show s.received.count x = s.skipped.count x + s.deferred.count x +
        (m :: s.handled).count x + hand.count x + s.waiting.count x
      rw [List.count_cons]
      omega
  | @awaitHandler pending m hand call x outcome _ _ =>
      refine ⟨h.pending, fun y => ?_, fun y => ?_, h.created, h.distinct⟩
      · show _ = _ + ((Stage.afterHandler m outcome).unplaced ++ hand).count y + _
        rw [unplaced_afterHandler]
        exact h.placed y
      · show _ = _ + (Stage.afterHandler m outcome).doubts.count y
        rw [doubts_afterHandler]
        exact h.lapsed y
  | _ => exact ⟨h.pending, h.placed, h.lapsed, h.created, h.distinct⟩

/-! ## The turns of the tenants -/

/-- The turns count what was passed to `handleMessage`, and whoever is deferred has had all
of its turns. -/
structure Turned (φ : CyclePhase) (s : MainLoop) : Prop where
  turns : ∀ t, s.turns.count t =
    s.handledOf t + φ.stage.turn.countP (fun m => decide (m.tenant = some t))
  limit : ∀ t, s.turns.count t ≤ TenantTurns.limit
  deferred : ∀ m ∈ s.deferred ++ φ.stage.refusals, ∃ t, m.tenant = some t ∧
    s.handledOf t = TenantTurns.limit

theorem turn_afterDoubt (m : SqsMessage) :
    (Stage.afterDoubt m).turn = [] ∧ (Stage.afterDoubt m).refusals = [] := by
  unfold Stage.afterDoubt
  split_ifs <;> exact ⟨rfl, rfl⟩

theorem turn_afterHandler (m : SqsMessage) (outcome : Except JsError Bool) :
    (Stage.afterHandler m outcome).turn = [] ∧ (Stage.afterHandler m outcome).refusals = [] := by
  unfold Stage.afterHandler
  split <;> exact ⟨rfl, rfl⟩

/-- A stage without a turn and a refusal says nothing about the counts. -/
theorem Turned.of_stage {φ ψ : CyclePhase} {s s' : MainLoop} (h : Turned φ s)
    (hφ : φ.stage.turn = []) (hψ : ψ.stage.turn = [] ∧ ψ.stage.refusals = [])
    (hturns : s'.turns = s.turns) (hhandled : s'.handled = s.handled)
    (hdeferred : s'.deferred = s.deferred) : Turned ψ s' := by
  have hcount : ∀ t, s'.handledOf t = s.handledOf t := fun t => by
    rw [MainLoop.handledOf, hhandled]
    rfl
  refine ⟨fun t => ?_, fun t => ?_, fun m hm => ?_⟩
  · have ht := h.turns t
    rw [hφ] at ht
    rw [hturns, hcount, hψ.1]
    exact ht
  · rw [hturns]
    exact h.limit t
  · rw [hψ.2, List.append_nil, hdeferred] at hm
    obtain ⟨t, ht, hlimit⟩ := h.deferred m (List.mem_append_left _ hm)
    exact ⟨t, ht, (hcount t).trans hlimit⟩

/-- A move takes a turn, or hands one on. -/
theorem Turned.move {φ ψ : CyclePhase} {s s' : MainLoop} (h : Turned φ s)
    (hmove : Move s φ ψ s') : Turned ψ s' := by
  cases hmove with
  | idle φ => exact h
  | newCycle => exact ⟨fun t => rfl, fun t => Nat.zero_le _, fun m hm => (nomatch hm)⟩
  | uncertain pending m hand => exact h.of_stage rfl (turn_afterDoubt m) rfl rfl rfl
  -- the tenant has had all its turns of this cycle
  | @refuse pending hand m t ht hfull =>
      refine ⟨h.turns, h.limit, fun x hx => ?_⟩
      rcases List.mem_append.mp hx with hx | hx
      · exact h.deferred x (List.mem_append_left _ hx)
      · obtain rfl := List.mem_singleton.mp hx
        have hcount : s.turns.count t = s.handledOf t + 0 := h.turns t
        have hlimit := h.limit t
        exact ⟨t, ht, by omega⟩
  -- one turn more for the tenant of the message
  | @take pending hand m turns hcount hroom =>
      refine ⟨fun t => ?_, fun t => ?_, h.deferred⟩
      · have ht : s.turns.count t = s.handledOf t + 0 := h.turns t
        show turns.count t = s.handledOf t + [m].countP (fun m => decide (m.tenant = some t))
        rw [hcount, List.countP_cons, List.countP_nil]
        simp only [decide_eq_true_eq]
        omega
      · have hlimit := h.limit t
        have hroom := hroom t
        show turns.count t ≤ _
        rw [hcount]
        split_ifs with ht
        · have := hroom ht
          omega
        · exact hlimit
  | pushDeferred pending m hand =>
      refine ⟨h.turns, h.limit, fun x hx => h.deferred x ?_⟩
      have hx : x ∈ (s.deferred ++ [m]) ++ [] := hx
      rwa [List.append_nil] at hx
  | handleMessage pending m hand =>
      have hcount : ∀ t, (m :: s.handled).countP (fun m => decide (m.tenant = some t)) =
          s.handledOf t + [m].countP (fun m => decide (m.tenant = some t)) := fun t => by
        rw [MainLoop.handledOf, List.countP_cons, List.countP_cons, List.countP_nil]
        omega
      refine ⟨fun t => (h.turns t).trans (hcount t).symm, h.limit, fun x hx => ?_⟩
      obtain ⟨t, ht, hlimit⟩ := h.deferred x hx
      have hturns : s.turns.count t = s.handledOf t + [m].countP _ := h.turns t
      have hbound := h.limit t
      refine ⟨t, ht, (hcount t).trans ?_⟩
      omega
  | @awaitHandler pending m hand call x outcome _ _ =>
      exact h.of_stage rfl (turn_afterHandler m outcome) rfl rfl rfl
  | _ => exact h.of_stage rfl ⟨rfl, rfl⟩ rfl rfl rfl

/-! ## The handlers -/

/-- Only the call that is waited for may be under way. -/
def Attended (φ : CyclePhase) (s : MainLoop) : Prop :=
  ∀ i h, s.handlers[i]? = some h → h.outcome = none → φ.stage.calling = some i

/-- A handler is called when none is under way. -/
theorem Attended.move {φ ψ : CyclePhase} {s s' : MainLoop} (h : Attended φ s)
    (hmove : Move s φ ψ s') : Attended ψ s' := by
  cases hmove with
  | uncertain pending m hand => exact fun i x hx hnone => (nomatch h i x hx hnone)
  | handleMessage pending m hand =>
      intro i x hx hnone
      show some s.handlers.length = some i
      rcases Nat.lt_or_ge i s.handlers.length with hlt | hge
      · rw [List.getElem?_append_left hlt] at hx
        exact nomatch h i x hx hnone
      · have hi := (List.getElem?_eq_some_iff.mp hx).1
        rw [List.length_append, List.length_singleton] at hi
        exact congrArg some (by omega)
  | @awaitHandler pending m hand call x outcome hget houtcome =>
      intro i y hy hnone
      -- the call that was waited for has ended, and no other one was under way
      have hi : some call = some i := h i y hy hnone
      obtain rfl := Option.some.inj hi
      obtain rfl := Option.some.inj (hget.symm.trans hy)
      exact nomatch hnone.symm.trans houtcome
  | _ => exact h

/-! ## The pending acknowledgements -/

/-- The task of an acknowledgement keeps to its protocol. -/
def Confirmation.Keeps (c : Confirmation) : Prop :=
  ∃ φ, (φ = .confirming c.receipt ∨ φ = .confirmed) ∧
    cycleProtocol.Follows c.task φ (Ends (At .confirmed))

/-- The phases without acknowledgements. -/
def CyclePhase.quiet : CyclePhase → Bool
  | .over => true
  | .drained => true
  | .deferring _ => true
  | _ => false

/-- There is room for the pending acknowledgements, and they keep to their protocol. -/
structure Bounded (φ : CyclePhase) (s : MainLoop) : Prop where
  room : s.confirmations.pending.length ≤ confirmationLimit
  quiet : φ.quiet = true → s.confirmations.pending = []
  errors : s.confirmations.callbackErrors = []
  keeps : ∀ c ∈ s.confirmations.pending, c.Keeps

/-- An acknowledgement is added when there is room for it. -/
theorem Bounded.move {φ ψ : CyclePhase} {s s' : MainLoop} (h : Bounded φ s)
    (hmove : Move s φ ψ s') : Bounded ψ s' := by
  cases hmove with
  | idle φ => exact h
  | newCycle => exact ⟨h.room, fun hquiet => absurd hquiet Bool.false_ne_true, rfl, h.keeps⟩
  | schedule pending m hand receipt hroom =>
      refine ⟨?_, fun hquiet => absurd hquiet Bool.false_ne_true, h.errors, fun c hc => ?_⟩
      · show (s.confirmations.pending ++ [_]).length ≤ _
        rw [List.length_append, List.length_singleton]
        omega
      · rcases List.mem_append.mp hc with hc | hc
        · exact h.keeps c hc
        · obtain rfl := List.mem_singleton.mp hc
          exact ⟨_, .inl rfl, follows_confirmation m receipt⟩
  | drain hpending => exact ⟨h.room, fun _ => hpending, h.errors, h.keeps⟩
  | readDeferred => exact ⟨h.room, fun _ => h.quiet rfl, h.errors, h.keeps⟩
  | releaseAll receipts => exact ⟨h.room, fun _ => h.quiet rfl, h.errors, h.keeps⟩
  | _ =>
      exact ⟨h.room, fun hquiet => absurd hquiet Bool.false_ne_true, h.errors, h.keeps⟩

/-! ## Who has to release a receipt -/

/-- The receipts that the loop itself still has to release or to hand on. -/
def CyclePhase.inCare (deferred : List SqsMessage) : CyclePhase → List JsString
  | .receiving _ hand stage => stage.holds ++ (hand ++ deferred).filterMap SqsMessage.receipt
  | .drained => deferred.filterMap SqsMessage.receipt
  | .deferring receipts => receipts
  | _ => []

/-- A pending acknowledgement that has not begun will release the receipt. -/
def MainLoop.WillConfirm (s : MainLoop) (receipt : JsString) : Prop :=
  ∃ c ∈ s.confirmations.pending, c.receipt = receipt ∧
    c.task = confirmation c.message c.receipt

/-- Every tracked receipt has someone who will release it. -/
def Owned (φ : CyclePhase) (s : MainLoop) : Prop :=
  ∀ r, s.Tracks r → r ∈ φ.inCare s.deferred ∨ r ∈ s.waiting.filterMap SqsMessage.receipt ∨
    s.WillConfirm r

/-- A doubted message still has its receipt. -/
theorem holds_afterDoubt (m : SqsMessage) : (Stage.afterDoubt m).holds = m.receipt.toList := by
  unfold Stage.afterDoubt
  split_ifs with hm
  · rfl
  · rw [Option.not_isSome_iff_eq_none.mp hm]
    rfl

/-- So has a message whose handler has ended. -/
theorem holds_afterHandler (m : SqsMessage) (outcome : Except JsError Bool) :
    (Stage.afterHandler m outcome).holds = m.receipt.toList := by
  unfold Stage.afterHandler
  cases hm : m.receipt with
  | none => rfl
  | some receipt =>
      cases outcome with
      | error e => rfl
      | ok acknowledges => cases acknowledges <;> rfl

/-- Releasing a receipt: what is tracked afterwards was tracked before. -/
theorem tracks_release {l : LeaseState} {receipt r : JsString}
    (h : (l.release receipt).leases.receipts.get r ≠ none) :
    r ≠ receipt ∧ l.leases.receipts.get r ≠ none := by
  by_cases hr : r = receipt
  · subst hr
    exact absurd (JsMap.get_delete_self _ _) h
  · refine ⟨hr, ?_⟩
    rwa [show (l.release receipt).leases.receipts.get r = l.leases.receipts.get r from
      JsMap.get_delete_ne _ hr] at h

/-- Released receipts are not tracked. -/
theorem tracks_releases {receipts : List JsString} {l : LeaseState} {r : JsString}
    (h : (receipts.foldl LeaseState.release l).leases.receipts.get r ≠ none) :
    r ∉ receipts ∧ l.leases.receipts.get r ≠ none := by
  induction receipts generalizing l with
  | nil => exact ⟨fun hmem => (nomatch hmem), h⟩
  | cons receipt rest ih =>
      obtain ⟨hrest, hl⟩ := ih h
      obtain ⟨hne, hl⟩ := tracks_release hl
      refine ⟨fun hmem => ?_, hl⟩
      rcases List.mem_cons.mp hmem with heq | hmem
      · exact hne heq
      · exact hrest hmem

/-- The receipt of the first message, and those of the others. -/
theorem filterMap_receipt_cons (m : SqsMessage) (l : List SqsMessage) :
    (m :: l).filterMap SqsMessage.receipt =
      m.receipt.toList ++ l.filterMap SqsMessage.receipt := by
  rw [List.filterMap_cons]
  cases m.receipt <;> rfl

/-- A move that changes neither leases nor acknowledgements hands receipts on. -/
theorem Owned.hand_on {φ ψ : CyclePhase} {s s' : MainLoop} (h : Owned φ s)
    (hleases : s'.leases = s.leases) (hpending : s'.confirmations.pending = s.confirmations.pending)
    (hcare : ∀ r, r ∈ φ.inCare s.deferred ∨ r ∈ s.waiting.filterMap SqsMessage.receipt →
      r ∈ ψ.inCare s'.deferred ∨ r ∈ s'.waiting.filterMap SqsMessage.receipt) :
    Owned ψ s' := by
  intro r hr
  rw [MainLoop.Tracks, hleases] at hr
  rcases h r hr with hin | hwait | ⟨c, hc, hreceipt⟩
  · exact (hcare r (.inl hin)).imp id .inl
  · exact (hcare r (.inr hwait)).imp id .inl
  · exact .inr (.inr ⟨c, hpending ▸ hc, hreceipt⟩)

/-- A move that releases receipts. -/
theorem Owned.release {φ ψ : CyclePhase} {s : MainLoop} (h : Owned φ s) {l : LeaseState}
    (receipts : List JsString)
    (hl : ∀ r, l.leases.receipts.get r ≠ none → r ∉ receipts ∧ s.Tracks r)
    (hcare : ∀ r ∈ φ.inCare s.deferred, r ∈ receipts ∨ r ∈ ψ.inCare s.deferred) :
    Owned ψ { s with leases := l } := by
  intro r hr
  obtain ⟨hnot, htracked⟩ := hl r hr
  rcases h r htracked with hin | hrest
  · exact .inl ((hcare r hin).resolve_left hnot)
  · exact .inr hrest

/-- **A move leaves no receipt behind.** -/
theorem Owned.move {φ ψ : CyclePhase} {s s' : MainLoop} (h : Owned φ s)
    (hmove : Move s φ ψ s') : Owned ψ s' := by
  cases hmove with
  | newCycle =>
      refine h.hand_on rfl rfl fun r hr => ?_
      rcases hr with hr | hr
      · exact nomatch hr
      · exact .inr hr
  | @race pending pick result hget hmem =>
      refine h.hand_on rfl rfl fun r hr => ?_
      show r ∈ (result.messages ++ s.deferred).filterMap SqsMessage.receipt ∨
        r ∈ ((s.arrived.eraseIdx pick).flatMap _).filterMap SqsMessage.receipt
      rw [List.filterMap_append]
      rcases hr with hr | hr
      · exact .inl (List.mem_append_right _ hr)
      · have hperm := ((arrived_perm hget).flatMap_right
          ReceiveResult.messages).filterMap SqsMessage.receipt
        have hr := hperm.mem_iff.mpr hr
        rw [List.flatMap_cons, List.filterMap_append] at hr
        rcases List.mem_append.mp hr with hr | hr
        · exact .inl (List.mem_append_left _ hr)
        · exact .inr hr
  | certain pending m hand =>
      refine h.hand_on rfl rfl fun r hr => hr.imp_left fun hr => ?_
      have hr : r ∈ (m :: (hand ++ s.deferred)).filterMap SqsMessage.receipt := hr
      rwa [filterMap_receipt_cons] at hr
  | uncertain pending m hand =>
      refine h.hand_on rfl rfl fun r hr => hr.imp_left fun hr => ?_
      have hr : r ∈ (m :: (hand ++ s.deferred)).filterMap SqsMessage.receipt := hr
      rw [filterMap_receipt_cons] at hr
      show r ∈ (Stage.afterDoubt m).holds ++ _
      rw [holds_afterDoubt]
      exact hr
  -- the receipt in doubt is released, and owed by nobody
  | @releaseDoubted pending m hand receipt hm =>
      refine h.release [receipt] (fun r hr => ?_) (fun r hr => ?_)
      · obtain ⟨hne, hr⟩ := tracks_release hr
        exact ⟨fun hmem => hne (List.mem_singleton.mp hmem), hr⟩
      · have hr : r ∈ m.receipt.toList ++ _ := hr
        rw [hm] at hr
        exact List.mem_append.mp hr
  | pushDeferred pending m hand =>
      refine h.hand_on rfl rfl fun r hr => hr.imp_left fun hr => ?_
      have hr : r ∈ m.receipt.toList ++ (hand ++ s.deferred).filterMap SqsMessage.receipt := hr
      show r ∈ (hand ++ (s.deferred ++ [m])).filterMap SqsMessage.receipt
      rw [← List.append_assoc, List.filterMap_append]
      rcases List.mem_append.mp hr with hr | hr
      · refine List.mem_append_right _ ?_
        rw [filterMap_receipt_cons]
        exact List.mem_append_left _ hr
      · exact List.mem_append_left _ hr
  | @awaitHandler pending m hand call x outcome _ _ =>
      refine h.hand_on rfl rfl fun r hr => hr.imp_left fun hr => ?_
      show r ∈ (Stage.afterHandler m outcome).holds ++ _
      rw [holds_afterHandler]
      exact hr
  | releaseOwed pending hand receipt =>
      refine h.release [receipt] (fun r hr => ?_)
        (fun r hr => List.mem_append.mp hr)
      obtain ⟨hne, hr⟩ := tracks_release hr
      exact ⟨fun hmem => hne (List.mem_singleton.mp hmem), hr⟩
  -- from the loop to the confirmations
  | schedule pending m hand receipt hroom =>
      intro r hr
      rcases h r hr with hin | hwait | ⟨c, hc, hreceipt⟩
      · rcases List.mem_append.mp hin with hr | hr
        · obtain rfl := List.mem_singleton.mp hr
          exact .inr (.inr ⟨_, List.mem_append_right _ List.mem_cons_self, rfl, rfl⟩)
        · exact .inl hr
      · exact .inr (.inl hwait)
      · exact .inr (.inr ⟨c, List.mem_append_left _ hc, hreceipt⟩)
  -- what was deferred is released at the end of the cycle
  | releaseAll receipts =>
      exact h.release receipts (fun r hr => tracks_releases hr)
        (fun r hr => .inl hr)
  | _ => exact h

/-! ## Steps -/

/-- Everything that a phase of the loop says. -/
structure Stands (φ : CyclePhase) (s : MainLoop) : Prop where
  ofLoop : φ.ofLoop = true
  placed : Placed φ s
  turned : Turned φ s
  attended : Attended φ s
  bounded : Bounded φ s
  owned : Owned φ s

/-- A move leaves the loop in the next phase. -/
theorem Stands.move {φ ψ : CyclePhase} {s s' : MainLoop} (h : Stands φ s)
    (hmove : Move s φ ψ s') : Stands ψ s' :=
  ⟨hmove.ofLoop h.ofLoop, h.placed.move hmove, h.turned.move hmove, h.attended.move hmove,
    h.bounded.move hmove, h.owned.move hmove⟩

/-- What runs beside the loop changes only the leases, the handlers and the acknowledgements;
where the messages are, and the turns, is as before. -/
theorem Stands.beside {φ : CyclePhase} {s s' : MainLoop} (h : Stands φ s)
    (hs' : s' = { s with
      leases := s'.leases
      prog := s'.prog
      handlers := s'.handlers
      confirmations := s'.confirmations })
    (hattended : Attended φ s') (hbounded : Bounded φ s') (howned : Owned φ s') :
    Stands φ s' := by
  refine ⟨h.ofLoop, ?_, ?_, hattended, hbounded, howned⟩
  · rw [hs']
    exact ⟨h.placed.pending, h.placed.placed, h.placed.lapsed, h.placed.created,
      h.placed.distinct⟩
  · rw [hs']
    exact ⟨h.turned.turns, h.turned.limit, h.turned.deferred⟩

/-- None of it is about the rest of the program. -/
theorem Stands.goOn {φ : CyclePhase} {s : MainLoop} (h : Stands φ s) (p : Receiving Unit) :
    Stands φ { s with prog := p } :=
  h.beside rfl h.attended
    ⟨h.bounded.room, h.bounded.quiet, h.bounded.errors, h.bounded.keeps⟩ h.owned

/-- The loop stands somewhere, and goes on from there. -/
def Sound (s : MainLoop) : Prop :=
  ∃ φ, cycleProtocol.Follows s.prog φ (Ends (At .over)) ∧ Stands φ s

/-- Error callbacks do not throw, neither the loop's nor that of the leases. -/
def CallbacksReturn (s : MainLoop) : LoopEvent → Prop
  | .run _ fault => ∀ m e k, s.prog = .call (.onError m e) k → fault = none
  | .confirm i fault => ∀ c m e k, s.confirmations.pending[i]? = some c →
      c.task = .call (.onError m e) k → fault = none
  | .lease e => LeaseState.OnErrorReturns s.leases e
  | _ => True

/-- An operation that does not throw has an answer, and its effect. -/
theorem perform_eq_some {s s' : MainLoop} {pick : ℕ} {fault : Option JsError} {op : ReceiveOp}
    {r : Except JsError op.Res} (h : s.perform pick fault op = some (r, s'))
    (hop : op.mayThrow = true → fault = none) :
    ∃ a, s.answer pick op = some a ∧ r = .ok a ∧ s' = s.effect pick op a := by
  have hnone : (if op.mayThrow then fault else none) = none := by
    split_ifs with hthrows
    · exact hop hthrows
    · rfl
  rw [MainLoop.perform, hnone] at h
  obtain ⟨a, ha, heq⟩ := Option.map_eq_some_iff.mp h
  obtain ⟨rfl, rfl⟩ := Prod.mk.inj heq
  exact ⟨a, ha, rfl, rfl⟩

/-- In the loop, only `onError` may throw. -/
theorem CycleAllows.eq_onError {φ : CyclePhase} {op : ReceiveOp} (h : CycleAllows φ op)
    (hφ : φ.ofLoop = true) (hop : op.mayThrow = true) : ∃ m e, op = .onError m e := by
  cases h with
  | onError _ m e => exact ⟨m, e, rfl⟩
  | deleteMessage _ => exact absurd hφ Bool.false_ne_true
  | anything => exact absurd hφ Bool.false_ne_true
  | _ => exact absurd hop Bool.false_ne_true

/-- The loop performs an operation. -/
theorem Sound.run {s s' : MainLoop} {pick : ℕ} {fault : Option JsError} (h : Sound s)
    (hok : CallbacksReturn s (.run pick fault)) (hstep : s.run pick fault = some s') :
    Sound s' := by
  obtain ⟨φ, hprog, hstands⟩ := h
  rw [MainLoop.run] at hstep
  cases hs : s.prog with
  | ret a =>
      rw [hs] at hstep
      cases hstep
  | throw e =>
      rw [hs] at hstep
      cases hstep
  | call op k =>
      rw [hs] at hstep hprog
      obtain ⟨⟨r, s₁⟩, hperform, rfl⟩ := Option.map_eq_some_iff.mp hstep
      obtain ⟨hallow, hk⟩ := hprog
      have hfault : op.mayThrow = true → fault = none := fun hop => by
        obtain ⟨m, e, rfl⟩ := hallow.eq_onError hstands.ofLoop hop
        exact hok m e k hs
      obtain ⟨a, ha, rfl, rfl⟩ := perform_eq_some hperform hfault
      have hmove := move_of_answer hstands.ofLoop hallow hstands.bounded.errors ha
      exact ⟨_, hk (.ok a), (hstands.move hmove).goOn _⟩

/-! ## Acknowledgements -/

/-- The first thing that a task does is to release its receipt. -/
theorem confirmation_eq_call (m : SqsMessage) (receipt : JsString) :
    ∃ k, confirmation m receipt = .call (.release receipt) k := ⟨_, rfl⟩

/-- What an operation of a task does to the leases. -/
theorem confirm_leases {s s' : MainLoop} {φ : CyclePhase} {fault : Option JsError}
    {receipt : JsString} {op : ReceiveOp} {r : Except JsError op.Res}
    (hφ : φ = .confirming receipt ∨ φ = .confirmed) (hallow : CycleAllows φ op)
    (hfault : ∀ m e, op = .onError m e → fault = none)
    (hperform : s.perform 0 fault op = some (r, s')) :
    (φ.next op r = .confirming receipt ∨ φ.next op r = .confirmed) ∧
      (op = .release receipt ∧ s' = { s with leases := s.leases.release receipt } ∨
        (∀ receipt', op ≠ .release receipt') ∧ s' = s) := by
  by_cases hdelete : op.deletes = true
  · cases op with
    | deleteMessage receipt' =>
        refine ⟨?_, .inr ⟨fun _ h => (nomatch h), ?_⟩⟩
        · have hsame : φ.next (.deleteMessage receipt') r = φ := by
            rcases hφ with rfl | rfl <;> cases r <;> rfl
          rw [hsame]
          exact hφ
        · cases fault with
          | none => exact (Prod.mk.inj (Option.some.inj hperform)).2.symm
          | some e => exact (Prod.mk.inj (Option.some.inj hperform)).2.symm
    | _ => exact absurd hdelete Bool.false_ne_true
  · have hnone : op.mayThrow = true → fault = none := fun hop => by
      cases op with
      | onError m e => exact hfault m e rfl
      | deleteMessage receipt' => exact absurd rfl hdelete
      | _ => exact absurd hop Bool.false_ne_true
    obtain ⟨a, ha, rfl, rfl⟩ := perform_eq_some hperform hnone
    cases hallow with
    | releaseConfirmed =>
        obtain rfl := CyclePhase.confirming.inj (hφ.resolve_right (fun h => (nomatch h)))
        exact ⟨.inr rfl, .inl ⟨rfl, rfl⟩⟩
    | awaitReleases _ _ =>
        rw [show φ.next (.awaitReleases _) (.ok a) = φ from next_awaitReleases φ _]
        exact ⟨hφ, .inr ⟨fun _ h => (nomatch h), rfl⟩⟩
    | onError _ _ _ =>
        rw [show φ.next (.onError _ _) (.ok a) = φ from next_onError φ _ _]
        exact ⟨hφ, .inr ⟨fun _ h => (nomatch h), rfl⟩⟩
    | deleteMessage _ => exact absurd rfl hdelete
    | _ => rcases hφ with hφ | hφ <;> cases hφ

/-- The pending acknowledgements, and the leases, change. -/
theorem Stands.of_confirmations {φ : CyclePhase} {s : MainLoop} (h : Stands φ s)
    {l : LeaseState} {pending : List Confirmation}
    (hlength : pending.length ≤ s.confirmations.pending.length)
    (hkeeps : ∀ c ∈ pending, c.Keeps)
    (howned : Owned φ ({ s with leases := l }.withPending pending)) :
    Stands φ ({ s with leases := l }.withPending pending) := by
  refine h.beside rfl h.attended ⟨hlength.trans h.bounded.room, fun hquiet => ?_,
    h.bounded.errors, hkeeps⟩ howned
  rw [h.bounded.quiet hquiet] at hlength
  exact List.length_eq_zero_iff.mp (Nat.le_zero.mp hlength)

/-- A task goes on. -/
theorem Stands.confirm {φ : CyclePhase} {s s' : MainLoop} {i : ℕ} {c : Confirmation}
    {fault : Option JsError} (h : Stands φ s) (hc : s.confirmations.pending[i]? = some c)
    (hok : CallbacksReturn s (.confirm i fault)) (hstep : s.confirm i c fault = some s') :
    Stands φ s' ∧ s'.prog = s.prog := by
  have hmem : c ∈ s.confirmations.pending := List.mem_of_getElem? hc
  obtain ⟨χ, hχ, htask⟩ := h.bounded.keeps c hmem
  rw [MainLoop.confirm] at hstep
  cases ht : c.task with
  | ret a =>
      rw [ht] at hstep
      cases hstep
  | throw e =>
      rw [ht] at hstep
      cases hstep
  | call op k =>
      rw [ht] at hstep htask
      obtain ⟨⟨r, s₁⟩, hperform, rfl⟩ := Option.map_eq_some_iff.mp hstep
      obtain ⟨hallow, hk⟩ := htask
      have hfault : ∀ m e, op = .onError m e → fault = none := fun m e hop => by
        subst hop
        exact hok c m e k hc ht
      obtain ⟨hnext, heffect⟩ := confirm_leases hχ hallow hfault hperform
      have hkeeps : ∀ c' ∈ s.confirmations.pending.set i { c with task := k r }, c'.Keeps := by
        intro c' hc'
        rcases List.mem_or_eq_of_mem_set hc' with hc' | rfl
        · exact h.bounded.keeps c' hc'
        · exact ⟨_, hnext, hk r⟩
      have hlength : (s.confirmations.pending.set i { c with task := k r }).length ≤
          s.confirmations.pending.length := by
        rw [List.length_set]
      -- whoever had not begun before is still there, unless it has just released its receipt
      have hbegun : ∀ receipt, s.WillConfirm receipt →
          (receipt = c.receipt ∧ op = .release c.receipt) ∨
            ∃ c' ∈ s.confirmations.pending.set i { c with task := k r },
              c'.receipt = receipt ∧ c'.task = confirmation c'.message c'.receipt := by
        rintro receipt ⟨c', hc', hreceipt, hbegin⟩
        obtain ⟨j, hj⟩ := List.mem_iff_getElem?.mp hc'
        by_cases hij : i = j
        · subst hij
          obtain rfl := Option.some.inj (hc.symm.trans hj)
          obtain ⟨k', hk'⟩ := confirmation_eq_call c.message c.receipt
          have hcall := ht.symm.trans (hbegin.trans hk')
          injection hcall with hop _
          exact .inl ⟨hreceipt.symm, hop⟩
        · refine .inr ⟨c', ?_, hreceipt, hbegin⟩
          refine List.mem_of_getElem? (i := j) ?_
          rw [List.getElem?_set_ne hij]
          exact hj
      rcases heffect with ⟨hop, rfl⟩ | ⟨hop, rfl⟩
      · refine ⟨h.of_confirmations hlength hkeeps fun receipt hr => ?_, rfl⟩
        obtain ⟨hne, hr⟩ := tracks_release hr
        rcases h.owned receipt hr with hin | hwait | hconfirm
        · exact .inl hin
        · exact .inr (.inl hwait)
        · rcases hbegun receipt hconfirm with ⟨heq, -⟩ | hstill
          · exact absurd heq hne
          · exact .inr (.inr hstill)
      · refine ⟨h.of_confirmations (l := s₁.leases) hlength hkeeps fun receipt hr => ?_, rfl⟩
        rcases h.owned receipt hr with hin | hwait | hconfirm
        · exact .inl hin
        · exact .inr (.inl hwait)
        · rcases hbegun receipt hconfirm with ⟨-, heq⟩ | hstill
          · exact absurd heq (hop _)
          · exact .inr (.inr hstill)

/-- A task that has come to its end goes. -/
theorem Stands.settle {φ : CyclePhase} {s s' : MainLoop} {i : ℕ} {c : Confirmation}
    (h : Stands φ s) (hc : s.confirmations.pending[i]? = some c)
    (hstep : s.settle i c = some s') : Stands φ s' ∧ s'.prog = s.prog := by
  have hended : c.task ≠ confirmation c.message c.receipt := by
    intro hbegin
    obtain ⟨k, hk⟩ := confirmation_eq_call c.message c.receipt
    rw [MainLoop.settle, hbegin, hk] at hstep
    cases hstep
  have hs' : s' = s.withPending (s.confirmations.pending.eraseIdx i) := by
    rw [MainLoop.settle] at hstep
    split at hstep
    · cases hstep
    · exact (Option.some.inj hstep).symm
  subst hs'
  refine ⟨h.of_confirmations (l := s.leases) (List.length_eraseIdx_le _ _)
    (fun c' hc' => h.bounded.keeps c' ((List.eraseIdx_sublist _ _).subset hc'))
    (fun receipt hr => ?_), rfl⟩
  rcases h.owned receipt hr with hin | hwait | ⟨c', hc', hreceipt, hbegin⟩
  · exact .inl hin
  · exact .inr (.inl hwait)
  · refine .inr (.inr ⟨c', ?_, hreceipt, hbegin⟩)
    obtain ⟨j, hj⟩ := List.mem_iff_getElem?.mp hc'
    refine List.mem_eraseIdx_iff_getElem?.mpr ⟨j, ?_, hj⟩
    rintro rfl
    obtain rfl := Option.some.inj (hc.symm.trans hj)
    exact hended hbegin

/-! ## Receives, handlers and leases -/

/-- The objects of a response are new, and told apart. -/
theorem messagesFrom_fresh (n : ℕ) (response : Response) :
    (∀ m ∈ messagesFrom n response, n ≤ m.ref ∧ m.ref < n + (messagesFrom n response).length) ∧
      (messagesFrom n response).Nodup := by
  induction response generalizing n with
  | nil => exact ⟨fun m hm => (nomatch hm), List.nodup_nil⟩
  | cons x rest ih =>
      obtain ⟨hrange, hnodup⟩ := ih (n + 1)
      obtain ⟨receiptHandle, body⟩ := x
      constructor
      · intro m hm
        rw [messagesFrom, List.length_cons]
        rcases List.mem_cons.mp hm with rfl | hm
        · exact ⟨le_refl _, by dsimp only; omega⟩
        · have := hrange m hm
          omega
      · refine List.nodup_cons.mpr ⟨fun hmem => ?_, hnodup⟩
        have := (hrange _ hmem).1
        dsimp only at this
        omega

/-- What is tracked after tracking some receipts. -/
theorem tracks_tracks {receipts : List JsString} {l : LeaseState} {r : JsString}
    (h : (receipts.foldl LeaseState.track l).leases.receipts.get r ≠ none) :
    r ∈ receipts ∨ l.leases.receipts.get r ≠ none := by
  induction receipts generalizing l with
  | nil => exact .inr h
  | cons receipt rest ih =>
      rcases ih h with hmem | hl
      · exact .inl (List.mem_cons_of_mem _ hmem)
      · by_cases hr : r = receipt
        · exact .inl (hr ▸ List.mem_cons_self)
        · refine .inr ?_
          rwa [show (l.track receipt).leases.receipts.get r = l.leases.receipts.get r from
            JsMap.get_set_ne _ hr _] at hl

/-- A receive has come back. -/
theorem Stands.arrive {φ : CyclePhase} {s : MainLoop} (h : Stands φ s) {id : ℕ}
    {messages : List SqsMessage} (error : Option JsError) (hid : id ∈ s.flying)
    (hrange : ∀ m ∈ messages, s.created ≤ m.ref ∧ m.ref < s.created + messages.length)
    (hnodup : messages.Nodup) : Stands φ (s.arrive id messages error) := by
  have hwaiting : (s.arrive id messages error).waiting = s.waiting ++ messages := by
    show (s.arrived ++ [_]).flatMap _ = _
    rw [List.flatMap_append, List.flatMap_cons, List.flatMap_nil, List.append_nil]
    rfl
  refine ⟨h.ofLoop, ⟨fun i => ?_, fun m => ?_, h.placed.lapsed, fun m hm => ?_, ?_⟩,
    ⟨h.turned.turns, h.turned.limit, h.turned.deferred⟩, h.attended,
    ⟨h.bounded.room, h.bounded.quiet, h.bounded.errors, h.bounded.keeps⟩, fun r hr => ?_⟩
  · have hi := h.placed.pending i
    have hcount : 0 < s.flying.count id := List.count_pos_iff.mpr hid
    show _ = (s.flying.erase id).count i + ((s.arrived ++ [_]).map ReceiveResult.id).count i
    rw [List.count_erase, List.map_append, List.count_append, List.map_singleton,
      List.count_singleton]
    -- the request that is answered is no longer in flight
    split_ifs with hids
    · obtain rfl := beq_iff_eq.mp hids
      omega
    · omega
  · have hm := h.placed.placed m
    rw [hwaiting, List.count_append]
    show (s.received ++ messages).count m = _ + (s.waiting.count m + messages.count m)
    rw [List.count_append]
    show _ = s.skipped.count m + s.deferred.count m + s.handled.count m + _ + _
    omega
  · show m.ref < s.created + messages.length
    rcases List.mem_append.mp hm with hm | hm
    · have := h.placed.created m hm
      omega
    · exact (hrange m hm).2
  -- references are drawn afresh, so no message is one of before
  · refine List.nodup_append.mpr ⟨h.placed.distinct, hnodup, fun m hm m' hm' heq => ?_⟩
    subst heq
    have hold := h.placed.created m hm
    have hnew := (hrange m hm').1
    omega
  · rw [hwaiting, List.filterMap_append]
    rcases tracks_tracks hr with hmem | hold
    · exact .inr (.inl (List.mem_append_right _ hmem))
    · rcases h.owned r hold with hin | hwait | hconfirm
      · exact .inl hin
      · exact .inr (.inl (List.mem_append_left _ hwait))
      · exact .inr (.inr hconfirm)

/-- Without the loop, nothing new is tracked. -/
theorem tracks_lease {l l' : LeaseState} {e : LeaseEvent} {r : JsString}
    (he : ofSurroundings e = true) (hstep : l.step e = some l')
    (h : l'.leases.receipts.get r ≠ none) : l.leases.receipts.get r ≠ none := by
  obtain ⟨-, rfl⟩ := LeaseState.step_eq_some.mp hstep
  intro hnone
  apply h
  cases e with
  | renewNow =>
      show (l.renewNow).leases.receipts.get r = none
      rw [LeaseState.renewNow]
      split <;> exact hnone
  | sweep =>
      show ((l.sweep.map l.goOn).getD l).leases.receipts.get r = none
      cases l.sweep with
      | none => exact hnone
      | some w =>
          show (l.goOn w).leases.receipts.get r = none
          rw [LeaseState.goOn]
          split <;> exact hnone
  | answer call reply tryThrows catchThrows =>
      show (((l.calls[call]?).map _).getD l).leases.receipts.get r = none
      cases l.calls[call]? with
      | none => exact hnone
      | some c => exact VisibilityLeases.get_receive_of_none hnone
  | resolve wait =>
      show (((l.waits[wait]?).map (l.resolve wait)).getD l).leases.receipts.get r = none
      cases l.waits[wait]? with
      | none => exact hnone
      | some w =>
          show (if w.receipt.isNone then _ else l.leases : VisibilityLeases).receipts.get r = none
          split_ifs
          · rfl
          · exact hnone
  | tick t => exact hnone
  | serve receipt => exact hnone
  | renew call receipt => exact hnone
  | settle => exact hnone
  | _ => exact absurd he Bool.false_ne_true

/-- The leases change on their own. -/
theorem Stands.lease {φ : CyclePhase} {s : MainLoop} (h : Stands φ s) {l : LeaseState}
    (hl : ∀ r, l.leases.receipts.get r ≠ none → s.Tracks r) :
    Stands φ { s with leases := l } :=
  h.beside rfl h.attended
    ⟨h.bounded.room, h.bounded.quiet, h.bounded.errors, h.bounded.keeps⟩
    (fun r hr => h.owned r (hl r hr))

/-- A handler ends. -/
theorem Stands.handlerEnds {φ : CyclePhase} {s s' : MainLoop} {call : ℕ} {x : Handler}
    {outcome : Except JsError Bool} (h : Stands φ s)
    (hstep : s.handlerEnds call x outcome = some s') : Stands φ s' ∧ s'.prog = s.prog := by
  rw [MainLoop.handlerEnds] at hstep
  split at hstep
  · obtain rfl := Option.some.inj hstep
    refine ⟨h.beside rfl (fun i y hy hnone => ?_)
      ⟨h.bounded.room, h.bounded.quiet, h.bounded.errors, h.bounded.keeps⟩ h.owned, rfl⟩
    have hy : (s.handlers.set call { x with outcome := some outcome })[i]? = some y := hy
    by_cases hi : call = i
    · subst hi
      obtain ⟨hlt, hget⟩ := List.getElem?_eq_some_iff.mp hy
      rw [List.getElem_set_self] at hget
      subst hget
      cases hnone
    · rw [List.getElem?_set_ne hi] at hy
      exact h.attended i y hy hnone
  · cases hstep

/-- **Every step leaves everything as it should be.** -/
theorem Sound.step {s s' : MainLoop} {e : LoopEvent} (h : Sound s) (hok : CallbacksReturn s e)
    (hstep : step s e = some s') : Sound s' := by
  have hnext : next s e = some s' := by
    rw [ReceiveLoop.step] at hstep
    split_ifs at hstep
    exact hstep
  obtain ⟨φ, hprog, hstands⟩ := h
  cases e with
  | run pick fault => exact Sound.run ⟨φ, hprog, hstands⟩ hok hnext
  | confirm i fault =>
      obtain ⟨c, hc, hnext⟩ := Option.bind_eq_some_iff.mp hnext
      obtain ⟨hstands', hsame⟩ := hstands.confirm hc hok hnext
      exact ⟨φ, hsame ▸ hprog, hstands'⟩
  | settle i =>
      obtain ⟨c, hc, hnext⟩ := Option.bind_eq_some_iff.mp hnext
      obtain ⟨hstands', hsame⟩ := hstands.settle hc hnext
      exact ⟨φ, hsame ▸ hprog, hstands'⟩
  | arrive id response =>
      rw [next] at hnext
      split_ifs at hnext with hid
      obtain rfl := Option.some.inj hnext
      obtain ⟨hrange, hnodup⟩ := messagesFrom_fresh s.created response
      exact ⟨φ, hprog, hstands.arrive none hid hrange hnodup⟩
  | fail id error =>
      rw [next] at hnext
      split_ifs at hnext with hid
      obtain rfl := Option.some.inj hnext
      exact ⟨φ, hprog, hstands.arrive (some error) hid (fun m hm => (nomatch hm))
        List.nodup_nil⟩
  | handlerReleases call =>
      obtain ⟨x, hx, hnext⟩ := Option.bind_eq_some_iff.mp hnext
      rw [MainLoop.handlerReleases] at hnext
      split at hnext
      · obtain rfl := Option.some.inj hnext
        exact ⟨φ, hprog, hstands.lease fun r hr => (tracks_release hr).2⟩
      · cases hnext
  | handlerEnds call outcome =>
      obtain ⟨x, hx, hnext⟩ := Option.bind_eq_some_iff.mp hnext
      obtain ⟨hstands', hsame⟩ := hstands.handlerEnds hnext
      exact ⟨φ, hsame ▸ hprog, hstands'⟩
  | lease e =>
      rw [next] at hnext
      split_ifs at hnext with he
      obtain ⟨l, hl, rfl⟩ := Option.map_eq_some_iff.mp hnext
      exact ⟨φ, hprog, hstands.lease fun r hr => tracks_lease he hl hr⟩

/-- A worker that has just been started stands before its first cycle. -/
theorem Start.sound {s : MainLoop} (h : Start s) : Sound s := by
  obtain ⟨cycles, hprog⟩ := h.prog
  refine ⟨.over, hprog ▸ follows_loop cycles, rfl, ⟨fun id => ?_, fun m => ?_, fun m => ?_,
    fun m hm => ?_, ?_⟩, ⟨fun t => ?_, fun t => ?_, fun m hm => ?_⟩, fun i x hx => ?_,
    ⟨?_, fun _ => ?_, ?_, fun c hc => ?_⟩, fun r hr => ?_⟩
  · rw [h.flying, h.arrived]
    rfl
  · rw [MainLoop.waiting, h.received, h.skipped, h.deferred, h.handled, h.arrived]
    rfl
  · rw [h.lapsed, h.skipped]
    rfl
  · rw [h.received] at hm
    exact nomatch hm
  · rw [h.received]
    exact List.nodup_nil
  · rw [MainLoop.handledOf, h.turns, h.handled]
    rfl
  · rw [h.turns]
    exact Nat.zero_le _
  · rw [h.deferred] at hm
    exact nomatch hm
  · rw [h.handlers] at hx
    exact nomatch hx
  · rw [h.confirmations]
    exact Nat.zero_le _
  · rw [h.confirmations]
  · rw [h.confirmations]
  · rw [h.confirmations] at hc
    exact nomatch hc
  · rw [MainLoop.Tracks, h.leases.leases] at hr
    exact absurd rfl hr

/-! ## Conservation -/

namespace MainLoop

/-- What the loop is about to do. -/
def about (s : MainLoop) : Option ReceiveOp :=
  match s.prog with
  | .call op _ => some op
  | _ => none

/-- A cycle has ended: the loop is about to begin the next one, if there is one. -/
def CycleOver (s : MainLoop) : Prop := s.about = some .newCycle ∨ s.about = some .hang

/-- The loop is about to defer messages, or in the middle of it. -/
def Defers (s : MainLoop) : Prop :=
  s.about = some .readDeferred ∨ (∃ receipts, s.about = some (.releaseAll receipts)) ∨
    ∃ batches, s.about = some (.changeVisibility batches)

/-- The call of a handler is under way. -/
def UnderWay (s : MainLoop) (call : ℕ) : Prop :=
  ∃ h, s.handlers[call]? = some h ∧ h.outcome = none

end MainLoop

/-- **Conservation in a receive cycle.**  Every message received in the cycle is at most, and
in the end exactly, once among those skipped, deferred and passed to `handleMessage`. -/
structure Conserved (s : MainLoop) : Prop where
  /-- the messages are distinct objects -/
  distinct : s.received.Nodup
  once : ∀ m, s.skipped.count m + s.deferred.count m + s.handled.count m ≤ s.received.count m
  complete : s.CycleOver → ∀ m ∈ s.received,
    s.skipped.count m + s.deferred.count m + s.handled.count m = 1
  /-- those skipped, and no others, were found to be owned uncertainly -/
  skipped : ∀ m ∈ s.skipped, m ∈ s.lapsed
  owned : ∀ m ∈ s.deferred ++ s.handled, m ∉ s.lapsed
  turns : ∀ t, s.handledOf t ≤ 10
  deferred : ∀ m ∈ s.deferred, ∃ t, m.tenant = some t ∧ s.handledOf t = 10
  handlers : ∀ i j, s.UnderWay i → s.UnderWay j → i = j
  confirmations : s.confirmations.pending.length ≤ 10
  drained : s.Defers → s.confirmations.pending = []
  /-- no receipt at all is tracked when the cycle has ended -/
  released : s.CycleOver → ∀ receipt, ¬ s.Tracks receipt

/-- The phase allows what the loop is about to do. -/
theorem Sound.allows {s : MainLoop} {φ : CyclePhase} {op : ReceiveOp}
    (hprog : cycleProtocol.Follows s.prog φ (Ends (At .over))) (h : s.about = some op) :
    CycleAllows φ op := by
  rw [MainLoop.about] at h
  cases hs : s.prog with
  | ret a =>
      rw [hs] at h
      cases h
  | throw e =>
      rw [hs] at h
      cases h
  | call op' k =>
      rw [hs] at h hprog
      obtain rfl := Option.some.inj h
      exact hprog.1

/-- A cycle ends in the phase between two cycles. -/
theorem Stands.over_of_cycleOver {φ : CyclePhase} {s : MainLoop} (h : Stands φ s)
    (hprog : cycleProtocol.Follows s.prog φ (Ends (At .over))) (hover : s.CycleOver) :
    φ = .over := by
  have hφ := h.ofLoop
  rcases hover with hover | hover
  · have hallow := Sound.allows hprog hover
    cases hallow with
    | newCycle => rfl
    | anything => exact absurd hφ Bool.false_ne_true
  · have hallow := Sound.allows hprog hover
    cases hallow with
    | hang => rfl
    | anything => exact absurd hφ Bool.false_ne_true

/-- Deferring takes place in a phase without acknowledgements. -/
theorem Stands.quiet_of_defers {φ : CyclePhase} {s : MainLoop} (h : Stands φ s)
    (hprog : cycleProtocol.Follows s.prog φ (Ends (At .over))) (hdefers : s.Defers) :
    φ.quiet = true := by
  have hφ := h.ofLoop
  rcases hdefers with hdefers | ⟨receipts, hdefers⟩ | ⟨batches, hdefers⟩
  · have hallow := Sound.allows hprog hdefers
    cases hallow with
    | readDeferred => rfl
    | anything => exact absurd hφ Bool.false_ne_true
  · have hallow := Sound.allows hprog hdefers
    cases hallow with
    | releaseAll => rfl
    | anything => exact absurd hφ Bool.false_ne_true
  · have hallow := Sound.allows hprog hdefers
    cases hallow with
    | changeVisibility _ => rfl
    | anything => exact absurd hφ Bool.false_ne_true

/-- What the phases say is enough. -/
theorem Sound.conserved {s : MainLoop} (h : Sound s) : Conserved s := by
  obtain ⟨φ, hprog, hstands⟩ := h
  have hplaced := hstands.placed
  have honce : ∀ m, s.skipped.count m + s.deferred.count m + s.handled.count m ≤
      s.received.count m := fun m => by
    rw [hplaced.placed m]
    omega
  have hone : ∀ m, s.received.count m ≤ 1 := List.nodup_iff_count_le_one.mp hplaced.distinct
  refine
    { distinct := hplaced.distinct
      once := honce
      complete := fun hover m hm => ?_
      skipped := fun m hm => ?_
      owned := fun m hm hlapsed => ?_
      turns := fun t => ?_
      deferred := fun m hm => hstands.turned.deferred m (List.mem_append_left _ hm)
      handlers := ?_
      confirmations := hstands.bounded.room
      drained := fun hdefers => hstands.bounded.quiet (hstands.quiet_of_defers hprog hdefers)
      released := fun hover receipt htracks => ?_ }
  -- at the end of a cycle nothing is in hand or on its way
  · obtain rfl := hstands.over_of_cycleOver hprog hover
    have hcount := hplaced.placed m
    rw [hplaced.waiting_nil rfl, List.count_eq_one_of_mem hplaced.distinct hm] at hcount
    exact hcount.symm
  · have hlapsed := hplaced.lapsed m
    have hpos := List.count_pos_iff.mpr hm
    exact List.count_pos_iff.mp (by omega)
  · -- a doubted message is skipped, or about to be, and so nowhere else
    have hcount := hplaced.placed m
    have hcount' := hplaced.lapsed m
    have hpos := List.count_pos_iff.mpr hlapsed
    have hpos' := List.count_pos_iff.mpr hm
    have hdoubts : φ.stage.doubts.count m ≤ φ.unplaced.count m := by
      rw [CyclePhase.unplaced, List.count_append]
      cases φ.stage <;> first | exact Nat.le_add_right _ _ | exact Nat.zero_le _
    have hm1 := hone m
    rw [List.count_append] at hpos'
    omega
  · have hcount := hstands.turned.turns t
    have hlimit := hstands.turned.limit t
    have hten : TenantTurns.limit = 10 := rfl
    omega
  · rintro i j ⟨x, hx, hnone⟩ ⟨y, hy, hnone'⟩
    exact Option.some.inj
      ((hstands.attended i x hx hnone).symm.trans (hstands.attended j y hy hnone'))
  -- and no receipt is owed
  · obtain rfl := hstands.over_of_cycleOver hprog hover
    rcases hstands.owned receipt htracks with hin | hwait | ⟨c, hc, -⟩
    · exact nomatch hin
    · rw [hplaced.waiting_nil rfl] at hwait
      exact nomatch hwait
    · rw [hstands.bounded.quiet rfl] at hc
      exact nomatch hc

/-- **Conservation**: in every state of every run of the main loop in which error callbacks
return. -/
theorem messages_conserved {s : MainLoop} (h : Run Start step CallbacksReturn s) :
    Conserved s :=
  (h.invariant (I := Sound) (fun _ h₀ => h₀.sound)
    (fun _ _ _ hi hok hstep => hi.step hok hstep)).conserved

end ReceiveLoop

namespace Sample

open ReceiveLoop

/-- A worker with one cycle to run. -/
def mainLoop : MainLoop where
  leases := Sample.leases
  prog := loop 1
  flying := []
  arrived := []
  created := 0
  received := []
  lapsed := []
  skipped := []
  turns := .new
  deferred := []
  handled := []
  handlers := []
  confirmations := ⟨[], []⟩

theorem mainLoop_start : Start mainLoop where
  leases := Sample.leases_start
  prog := ⟨1, rfl⟩
  flying := rfl
  arrived := rfl
  received := rfl
  lapsed := rfl
  skipped := rfl
  turns := rfl
  deferred := rfl
  handled := rfl
  handlers := rfl
  confirmations := rfl

/-- The loop goes on. -/
def goOn : LoopEvent := .run 0 none

/-- Ten receives, of which one brings a message and one fails; the message is acknowledged. -/
def oneMessage : List LoopEvent :=
  List.replicate 11 goOn ++
    [.arrive 0 [(some (js "r"), none)]] ++
    (List.range 8).map (fun i => .arrive (i + 1) []) ++
    [.fail 9 { message := js "timed out" }] ++
    [goOn, goOn, goOn, goOn, .handlerEnds 0 (.ok true), goOn, goOn] ++
    List.replicate 9 goOn ++
    [.confirm 0 none, .lease (.resolve 0), .confirm 0 none, .confirm 0 none, .settle 0] ++
    List.replicate 6 goOn

/-- The condition on a step, as a check. -/
def callbacksReturn : LoopEvent → Bool
  | .run _ fault => fault.isNone
  | .confirm _ fault => fault.isNone
  | .lease e => LeaseState.onErrorReturns e
  | _ => true

theorem callbacksReturn_of_check {s : MainLoop} {e : LoopEvent}
    (h : callbacksReturn e = true) : CallbacksReturn s e := by
  cases e with
  | run pick fault => exact fun _ _ _ _ => Option.isNone_iff_eq_none.mp h
  | confirm i fault => exact fun _ _ _ _ _ _ => Option.isNone_iff_eq_none.mp h
  | lease e => exact LeaseState.onErrorReturns_of_check (s := s.leases) h
  | _ => exact trivial

/-- The loop has nothing more to do. -/
def waitsForever : Option ReceiveOp → Bool
  | some .hang => true
  | _ => false

theorem eq_hang_of_check {op : Option ReceiveOp} (h : waitsForever op = true) :
    op = some .hang := by
  cases op with
  | none => exact absurd h Bool.false_ne_true
  | some op => cases op <;> first | rfl | exact absurd h Bool.false_ne_true

end Sample

namespace ReceiveLoop

/-- A cycle that has ended, with one message received and handled. -/
theorem messages_conserved_handled :
    ∃ s : MainLoop, s.received.length = 1 ∧ s.handled.length = 1 ∧ s.CycleOver ∧
      Conserved s := by
  have hplay : (Run.play step (fun _ e => Sample.callbacksReturn e) Sample.oneMessage
      Sample.mainLoop).any (fun s => decide (s.received.length = 1 ∧ s.handled.length = 1) &&
        Sample.waitsForever s.about) = true := by
    decide +kernel
  obtain ⟨s, hs, htest⟩ :=
    Run.exists_of_play (fun _ _ h => Sample.callbacksReturn_of_check h) Sample.mainLoop_start
      hplay
  obtain ⟨hlength, hover⟩ := Bool.and_eq_true_iff.mp htest
  obtain ⟨hreceived, hhandled⟩ := of_decide_eq_true hlength
  exact ⟨s, hreceived, hhandled, .inr (Sample.eq_hang_of_check hover), messages_conserved hs⟩

end ReceiveLoop
