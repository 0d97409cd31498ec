/-
# The phases of a receive cycle

Where the main loop is, as far as messages and receipts are concerned, and that the loop and
its acknowledgements keep to it on every path.

A phase knows the receives that have not been looked at, the messages in hand, and what has
been found out about the first of them.  Once a callback has thrown, nothing is said any
more: `broken` allows everything.
-/
import Waybill.ReceiveLoop

namespace ReceiveLoop

/-- What has been found out about the message that is being handled: nothing yet; its receipt
is uncertain, and not released or released; it is certain; its tenant has had its turns, or
gives it one; its handler was called; its receipt has to be released, or acknowledged. -/
inductive Stage where
  | ready
  | doubted (m : SqsMessage)
  | leaving (m : SqsMessage)
  | owned (m : SqsMessage)
  | refused (m : SqsMessage)
  | chosen (m : SqsMessage)
  | handling (m : SqsMessage) (call : ℕ)
  | owing (receipt : JsString)
  | acknowledged (m : SqsMessage) (receipt : JsString)

/-- Where a program is: between two cycles; in a cycle, with the receives still pending, the
messages in hand and what is known of the one before them; behind the confirmations; with
the receipts to be deferred; in an acknowledgement; or anywhere. -/
inductive CyclePhase where
  | over
  | receiving (pending : List ℕ) (hand : List SqsMessage) (stage : Stage)
  | drained
  | deferring (receipts : List JsString)
  | confirming (receipt : JsString)
  | confirmed
  | broken

/-- Which operations a phase allows. -/
inductive CycleAllows : CyclePhase → ReceiveOp → Prop
  | newCycle : CycleAllows .over .newCycle
  | hang : CycleAllows .over .hang
  | receive {pending : List ℕ} (id : ℕ) :
      CycleAllows (.receiving pending [] .ready) (.receive id)
  | race {pending : List ℕ} : CycleAllows (.receiving pending [] .ready) (.race pending)
  | uncertain {pending : List ℕ} {m : SqsMessage} {hand : List SqsMessage} :
      CycleAllows (.receiving pending (m :: hand) .ready) (.uncertain m)
  | releaseDoubted {pending : List ℕ} {m : SqsMessage} {hand : List SqsMessage}
      {receipt : JsString} (h : m.receipt = some receipt) :
      CycleAllows (.receiving pending hand (.doubted m)) (.release receipt)
  | warnSkipped {pending : List ℕ} {m : SqsMessage} {hand : List SqsMessage} :
      CycleAllows (.receiving pending hand (.leaving m)) (.warnSkipped m)
  | refused {pending : List ℕ} {m : SqsMessage} {hand : List SqsMessage} :
      CycleAllows (.receiving pending hand (.owned m)) (.refused m)
  | pushDeferred {pending : List ℕ} {m : SqsMessage} {hand : List SqsMessage} :
      CycleAllows (.receiving pending hand (.refused m)) (.pushDeferred m)
  | handleMessage {pending : List ℕ} {m : SqsMessage} {hand : List SqsMessage} :
      CycleAllows (.receiving pending hand (.chosen m)) (.handleMessage m)
  | awaitHandler {pending : List ℕ} {m : SqsMessage} {hand : List SqsMessage} {call : ℕ} :
      CycleAllows (.receiving pending hand (.handling m call)) (.awaitHandler call)
  | releaseOwed {pending : List ℕ} {hand : List SqsMessage} {receipt : JsString} :
      CycleAllows (.receiving pending hand (.owing receipt)) (.release receipt)
  | schedule {pending : List ℕ} {m : SqsMessage} {hand : List SqsMessage}
      {receipt : JsString} :
      CycleAllows (.receiving pending hand (.acknowledged m receipt)) (.schedule m receipt)
  | drain : CycleAllows (.receiving [] [] .ready) .drain
  | readDeferred : CycleAllows .drained .readDeferred
  | releaseAll {receipts : List JsString} :
      CycleAllows (.deferring receipts) (.releaseAll receipts)
  | changeVisibility (batches : List (List JsString)) :
      CycleAllows .over (.changeVisibility batches)
  | sleep : CycleAllows .over .sleep
  | releaseConfirmed {receipt : JsString} :
      CycleAllows (.confirming receipt) (.release receipt)
  | deleteMessage (receipt : JsString) : CycleAllows .confirmed (.deleteMessage receipt)
  | awaitReleases (φ : CyclePhase) (waits : List ℕ) : CycleAllows φ (.awaitReleases waits)
  | onError (φ : CyclePhase) (m : SqsMessage) (e : JsError) : CycleAllows φ (.onError m e)
  | anything (op : ReceiveOp) : CycleAllows .broken op

/-- A message without a receipt has none to release. -/
def Stage.afterDoubt (m : SqsMessage) : Stage :=
  if m.receipt.isSome then .doubted m else .leaving m

/-- What is left to be done with the receipt of a message that was handled. -/
def Stage.afterHandler (m : SqsMessage) (outcome : Except JsError Bool) : Stage :=
  match m.receipt, outcome with
  | none, _ => .ready
  | some receipt, .ok true => .acknowledged m receipt
  | some receipt, _ => .owing receipt

/-- Where an answer leads. -/
def CyclePhase.next : CyclePhase → (op : ReceiveOp) → Except JsError op.Res → CyclePhase
  | φ, .deleteMessage _, _ => φ
  -- an error breaks the cycle off
  | _, _, .error _ => .broken
  | .over, .newCycle, .ok _ => .receiving [] [] .ready
  | .receiving pending hand stage, .receive id, .ok _ =>
      .receiving (pending ++ [id]) hand stage
  -- the response that came first leaves the set of receives
  | .receiving pending _ stage, .race _, .ok result =>
      if result.id ∈ pending then .receiving (pending.erase result.id) result.messages stage
      else .broken
  | .receiving pending hand _, .uncertain m, .ok true =>
      .receiving pending hand.tail (Stage.afterDoubt m)
  | .receiving pending hand _, .uncertain m, .ok false =>
      .receiving pending hand.tail (.owned m)
  | .receiving pending hand (.doubted m), .release _, .ok _ =>
      .receiving pending hand (.leaving m)
  | .receiving pending hand (.leaving _), .warnSkipped _, .ok _ =>
      .receiving pending hand .ready
  | .receiving pending hand (.owned _), .refused m, .ok true =>
      .receiving pending hand (.refused m)
  | .receiving pending hand (.owned _), .refused m, .ok false =>
      .receiving pending hand (.chosen m)
  | .receiving pending hand (.refused _), .pushDeferred _, .ok _ =>
      .receiving pending hand .ready
  | .receiving pending hand (.chosen _), .handleMessage m, .ok call =>
      .receiving pending hand (.handling m call)
  | .receiving pending hand (.handling m _), .awaitHandler _, .ok outcome =>
      .receiving pending hand (Stage.afterHandler m outcome)
  | .receiving pending hand (.owing _), .release _, .ok _ => .receiving pending hand .ready
  | .receiving pending hand (.acknowledged ..), .schedule .., .ok _ =>
      .receiving pending hand .ready
  | .receiving .., .drain, .ok [] => .drained
  -- `drain` rejects if a callback has thrown
  | .receiving .., .drain, .ok (_ :: _) => .broken
  | .drained, .readDeferred, .ok deferred => .deferring (deferred.filterMap SqsMessage.receipt)
  | .deferring _, .releaseAll _, .ok _ => .over
  | .confirming _, .release _, .ok _ => .confirmed
  | φ, _, .ok _ => φ

/-- The protocol of the loop and of its acknowledgements. -/
abbrev cycleProtocol : Protocol ReceiveServices where
  Phase := CyclePhase
  Allows := CycleAllows
  next := CyclePhase.next

/-- A request that may fail without harm to the phase. -/
def ReceiveOp.deletes : ReceiveOp → Bool
  | .deleteMessage _ => true
  | _ => false

theorem next_error (φ : CyclePhase) {op : ReceiveOp} (h : op.deletes = false) (e : JsError) :
    φ.next op (.error e) = .broken := by
  cases op <;> first | exact absurd h.symm Bool.false_ne_true | cases φ <;> rfl

theorem next_broken (op : ReceiveOp) (r : Except JsError op.Res) :
    CyclePhase.next .broken op r = .broken := by
  cases r with
  | error e => cases op <;> rfl
  | ok a =>
      cases op with
      | uncertain m =>
          revert a
          show ∀ doubt : Bool, _
          intro doubt
          cases doubt <;> rfl
      | refused m =>
          revert a
          show ∀ refused : Bool, _
          intro refused
          cases refused <;> rfl
      | drain =>
          revert a
          show ∀ errors : List JsError, _
          intro errors
          cases errors <;> rfl
      | _ => rfl

/-- Waiting for releases, and reporting an error, change no phase. -/
theorem next_awaitReleases (φ : CyclePhase) (waits : List ℕ) :
    φ.next (.awaitReleases waits) (.ok ()) = φ := by
  cases φ with
  | receiving pending hand stage => cases stage <;> rfl
  | _ => rfl

theorem next_onError (φ : CyclePhase) (m : SqsMessage) (e : JsError) :
    φ.next (.onError m e) (.ok ()) = φ := by
  cases φ with
  | receiving pending hand stage => cases stage <;> rfl
  | _ => rfl

/-! ## The programs keep to the phases -/

section

variable {α β : Type}

/-- A program ends as `Q` says, unless a callback has thrown. -/
def Ends (Q : Except JsError α → CyclePhase → Prop) (r : Except JsError α)
    (φ : CyclePhase) : Prop :=
  φ = .broken ∨ Q r φ

/-- It returns in the phase `ψ`. -/
def At (ψ : CyclePhase) (r : Except JsError α) (φ : CyclePhase) : Prop :=
  (∃ a, r = .ok a) ∧ φ = ψ

theorem follows_broken (p : Receiving α) (Q : Except JsError α → CyclePhase → Prop) :
    cycleProtocol.Follows p .broken (Ends Q) :=
  Protocol.follows_of_sink (P := cycleProtocol) CycleAllows.anything next_broken
    (fun _ => .inl rfl) p

/-- One operation that leaves nothing to be said when it throws. -/
theorem follows_op {op : ReceiveOp} {φ : CyclePhase} (hallow : CycleAllows φ op)
    (hop : op.deletes = false) {k : Except JsError op.Res → Receiving α}
    {Q : Except JsError α → CyclePhase → Prop}
    (hok : ∀ a, cycleProtocol.Follows (k (.ok a)) (φ.next op (.ok a)) (Ends Q)) :
    cycleProtocol.Follows (.call op k) φ (Ends Q) := by
  refine ⟨hallow, fun r => ?_⟩
  cases r with
  | error e =>
      rw [show cycleProtocol.next φ op (.error e) = .broken from next_error φ hop e]
      exact follows_broken _ _
  | ok a => exact hok a

/-- An operation, and a program that goes on with its answer. -/
theorem follows_ask {op : ReceiveOp} {φ : CyclePhase} (hallow : CycleAllows φ op)
    (hop : op.deletes = false) {f : op.Res → Receiving α}
    {Q : Except JsError α → CyclePhase → Prop}
    (hok : ∀ a, cycleProtocol.Follows (f a) (φ.next op (.ok a)) (Ends Q)) :
    cycleProtocol.Follows ((perform op).bind f) φ (Ends Q) :=
  follows_op hallow hop hok

/-- One program after the other. -/
theorem follows_then {p : Receiving α} {f : α → Receiving β} {φ : CyclePhase}
    {M : Except JsError α → CyclePhase → Prop} {Q : Except JsError β → CyclePhase → Prop}
    (hp : cycleProtocol.Follows p φ (Ends M))
    (hok : ∀ a ψ, M (.ok a) ψ → cycleProtocol.Follows (f a) ψ (Ends Q))
    (herror : ∀ e ψ, M (.error e) ψ → Q (.error e) ψ) :
    cycleProtocol.Follows (p.bind f) φ (Ends Q) := by
  refine hp.bind (fun a ψ hψ => ?_) (fun e ψ hψ => ?_)
  · rcases hψ with rfl | hψ
    · exact follows_broken _ _
    · exact hok a ψ hψ
  · rcases hψ with rfl | hψ
    · exact .inl rfl
    · exact .inr (herror e ψ hψ)

/-- A program that can only return, and another one after it. -/
theorem follows_at {p : Receiving α} {f : α → Receiving β} {φ ψ : CyclePhase}
    {Q : Except JsError β → CyclePhase → Prop}
    (hp : cycleProtocol.Follows p φ (Ends (At ψ)))
    (hok : ∀ a, cycleProtocol.Follows (f a) ψ (Ends Q)) :
    cycleProtocol.Follows (p.bind f) φ (Ends Q) := by
  refine follows_then hp (fun a χ hχ => ?_) (fun e χ hχ => ?_)
  · rw [hχ.2]
    exact hok a
  · obtain ⟨⟨a, ha⟩, -⟩ := hχ
    cases ha

/-- `try` around a program. -/
theorem follows_try {p : Receiving α} {f : Except JsError α → Receiving β} {φ : CyclePhase}
    {M : Except JsError α → CyclePhase → Prop} {Q : Except JsError β → CyclePhase → Prop}
    (hp : cycleProtocol.Follows p φ (Ends M))
    (hok : ∀ r ψ, M r ψ → cycleProtocol.Follows (f r) ψ (Ends Q)) :
    cycleProtocol.Follows (p.attempt.bind f) φ (Ends Q) := by
  have htry : cycleProtocol.Follows p.attempt φ
      (Ends (fun r ψ => ∃ x, r = .ok x ∧ M x ψ)) := by
    refine (Protocol.follows_attempt _ _ _).mpr (hp.imp fun r ψ hψ => ?_)
    rcases hψ with rfl | hψ
    · exact .inl rfl
    · exact .inr ⟨r, rfl, hψ⟩
  refine follows_then htry (fun r ψ hψ => ?_) (fun e ψ hψ => ?_)
  · obtain ⟨x, hx, hψ⟩ := hψ
    obtain rfl := Except.ok.inj hx
    exact hok r ψ hψ
  · obtain ⟨x, hx, -⟩ := hψ
    cases hx

/-- An operation whose answer does not matter. -/
theorem follows_perform_at {op : ReceiveOp} {φ ψ : CyclePhase} (hallow : CycleAllows φ op)
    (hop : op.deletes = false) (hnext : ∀ a, φ.next op (.ok a) = ψ) :
    cycleProtocol.Follows (perform op) φ (Ends (At ψ)) := by
  refine follows_op hallow hop (fun a => ?_)
  rw [hnext a]
  exact .inr ⟨⟨a, rfl⟩, rfl⟩

/-- Releasing a receipt. -/
theorem follows_release {φ ψ : CyclePhase} {receipt : JsString}
    (hallow : CycleAllows φ (.release receipt))
    (hnext : ∀ wait, φ.next (.release receipt) (.ok wait) = ψ) :
    cycleProtocol.Follows (release receipt) φ (Ends (At ψ)) :=
  follows_at (follows_perform_at hallow rfl hnext) (fun _ =>
    follows_perform_at (.awaitReleases _ _) rfl (fun _ => next_awaitReleases _ _))

/-- Reporting an error. -/
theorem follows_onError (φ : CyclePhase) (m : SqsMessage) (e : JsError) :
    cycleProtocol.Follows (onError m e) φ (Ends (At φ)) :=
  follows_perform_at (.onError φ m e) rfl (fun _ => next_onError φ m e)

end

/-- A task of an acknowledgement releases its receipt first. -/
theorem follows_confirmation (m : SqsMessage) (receipt : JsString) :
    cycleProtocol.Follows (confirmation m receipt) (.confirming receipt)
      (Ends (At .confirmed)) := by
  have hdelete : cycleProtocol.Follows (perform (.deleteMessage receipt)) .confirmed
      (Ends (fun _ φ => φ = .confirmed)) :=
    (Protocol.follows_perform (P := cycleProtocol) _ _ _).mpr
      ⟨.deleteMessage receipt, fun r => .inr (by cases r <;> rfl)⟩
  have hacknowledge : cycleProtocol.Follows (acknowledgeMessage receipt) (.confirming receipt)
      (Ends (fun _ φ => φ = .confirmed)) :=
    follows_at (follows_release .releaseConfirmed (fun _ => rfl)) (fun _ => hdelete)
  refine follows_try hacknowledge (fun r φ hφ => ?_)
  rw [show φ = .confirmed from hφ]
  cases r with
  | ok a => exact .inr ⟨⟨(), rfl⟩, rfl⟩
  | error e =>
      refine follows_try (follows_onError .confirmed m e) (fun r ψ hψ => ?_)
      obtain ⟨⟨a, rfl⟩, rfl⟩ := hψ
      exact .inr ⟨⟨(), rfl⟩, rfl⟩

section

variable (pending : List ℕ) (hand : List SqsMessage) (m : SqsMessage)

/-- The phase after a message: its receipt has to be acknowledged, or it is done with. -/
def afterMessage (acknowledge : Option JsString) : CyclePhase :=
  match acknowledge with
  | some receipt => .receiving pending hand (.acknowledged m receipt)
  | none => .receiving pending hand .ready

/-- How the handling of a message ends. -/
def Handled : Except JsError (Option JsString) → CyclePhase → Prop
  | .ok acknowledge, φ => φ = afterMessage pending hand m acknowledge
  | .error _, φ => φ = .receiving pending hand .ready

/-- The phase when `handleMessage` has ended without an acknowledgement. -/
def unacknowledged : CyclePhase :=
  match m.receipt with
  | some receipt => .receiving pending hand (.owing receipt)
  | none => .receiving pending hand .ready

/-- What is owed is released. -/
theorem follows_releaseOf :
    cycleProtocol.Follows (releaseOf m) (unacknowledged pending hand m)
      (Ends (At (.receiving pending hand .ready))) := by
  unfold releaseOf unacknowledged
  cases m.receipt with
  | some receipt => exact follows_release .releaseOwed (fun _ => rfl)
  | none => exact .inr ⟨⟨(), rfl⟩, rfl⟩

/-- How a call of `handleMessage` ends. -/
theorem follows_handleMessage :
    cycleProtocol.Follows (handleMessage m) (.receiving pending hand (.chosen m))
      (Ends (fun r φ =>
        (∃ receipt, r = .ok (some receipt) ∧ φ = afterMessage pending hand m (some receipt)) ∨
          (∀ receipt, r ≠ .ok (some receipt)) ∧ φ = unacknowledged pending hand m)) := by
  refine follows_ask .handleMessage rfl (fun call => ?_)
  refine follows_ask .awaitHandler rfl (fun outcome => ?_)
  revert outcome
  show ∀ outcome : Except JsError Bool, _
  intro outcome
  show cycleProtocol.Follows _ (.receiving pending hand (Stage.afterHandler m outcome)) _
  unfold Stage.afterHandler unacknowledged
  cases outcome with
  | error e =>
      refine .inr (.inr ⟨fun _ h => (nomatch h), ?_⟩)
      cases m.receipt <;> rfl
  | ok acknowledges =>
      cases acknowledges with
      | false =>
          refine .inr (.inr ⟨fun _ h => (nomatch h), ?_⟩)
          cases m.receipt <;> rfl
      | true =>
          cases hm : m.receipt with
          | some receipt => exact .inr (.inl ⟨receipt, rfl, rfl⟩)
          | none => exact .inr (.inr ⟨fun _ h => (nomatch Except.ok.inj h), rfl⟩)

/-- The `try` and the `catch` around it. -/
theorem follows_deliver :
    cycleProtocol.Follows (deliver m) (.receiving pending hand (.chosen m))
      (Ends (Handled pending hand m)) := by
  -- the `try` returns with everything done, or throws with the receipt still owed
  have htry : cycleProtocol.Follows (tryHandle m) (.receiving pending hand (.chosen m))
      (Ends (fun r φ =>
        (∃ acknowledge, r = .ok acknowledge ∧ φ = afterMessage pending hand m acknowledge) ∨
          (∃ e, r = .error e) ∧ φ = unacknowledged pending hand m)) := by
    refine follows_then (follows_handleMessage pending hand m) (fun acknowledge φ hφ => ?_)
      (fun e φ hφ => ?_)
    · rcases hφ with ⟨receipt, hr, rfl⟩ | ⟨hr, rfl⟩
      · obtain rfl := Except.ok.inj hr
        exact .inr (.inl ⟨_, rfl, rfl⟩)
      · cases acknowledge with
        | some receipt => exact absurd rfl (hr receipt)
        | none =>
            refine follows_at (follows_releaseOf pending hand m) (fun _ => ?_)
            exact .inr (.inl ⟨none, rfl, rfl⟩)
    · rcases hφ with ⟨receipt, hr, -⟩ | ⟨-, rfl⟩
      · cases hr
      · exact .inr ⟨⟨e, rfl⟩, rfl⟩
  refine follows_try htry (fun r φ hφ => ?_)
  rcases hφ with ⟨acknowledge, rfl, rfl⟩ | ⟨⟨e, rfl⟩, rfl⟩
  · exact .inr rfl
  · exact follows_at (follows_releaseOf pending hand m) (fun _ => .inr rfl)

/-- The callback of the loop. -/
theorem follows_handle :
    cycleProtocol.Follows (handle m) (.receiving pending (m :: hand) .ready)
      (Ends (Handled pending hand m)) := by
  refine follows_ask .uncertain rfl (fun doubt => ?_)
  revert doubt
  show ∀ doubt : Bool, _
  intro doubt
  cases doubt with
  | true =>
      have hrelease : cycleProtocol.Follows (releaseOf m)
          (.receiving pending hand (Stage.afterDoubt m))
          (Ends (At (.receiving pending hand (.leaving m)))) := by
        unfold releaseOf Stage.afterDoubt
        cases hm : m.receipt with
        | some receipt => exact follows_release (.releaseDoubted hm) (fun _ => rfl)
        | none => exact .inr ⟨⟨(), rfl⟩, rfl⟩
      refine follows_at hrelease (fun _ => ?_)
      exact follows_at (follows_perform_at .warnSkipped rfl (fun _ => rfl))
        (fun _ => .inr rfl)
  | false =>
      refine follows_ask .refused rfl (fun refused => ?_)
      revert refused
      show ∀ refused : Bool, _
      intro refused
      cases refused with
      | true =>
          exact follows_at (follows_perform_at .pushDeferred rfl (fun _ => rfl))
            (fun _ => .inr rfl)
      | false => exact follows_deliver pending hand m

/-- A batch is handled message by message. -/
theorem follows_processDeliveryBatch (messages : List SqsMessage) :
    cycleProtocol.Follows (processDeliveryBatch messages) (.receiving pending messages .ready)
      (Ends (At (.receiving pending [] .ready))) := by
  induction messages with
  | nil => exact .inr ⟨⟨(), rfl⟩, rfl⟩
  | cons m rest ih =>
      have hmessage : cycleProtocol.Follows
          ((handle m).bind (scheduleIfAny m)) (.receiving pending (m :: rest) .ready)
          (Ends (fun _ φ => φ = .receiving pending rest .ready)) := by
        refine follows_then (follows_handle pending rest m) (fun acknowledge φ hφ => ?_)
          (fun e φ hφ => hφ)
        rw [show φ = afterMessage pending rest m acknowledge from hφ]
        cases acknowledge with
        | some receipt =>
            exact (follows_perform_at .schedule rfl (fun _ => rfl)).imp
              (fun r ψ hψ => hψ.imp id And.right)
        | none => exact .inr rfl
      refine follows_try hmessage (fun r φ hφ => ?_)
      rw [show φ = .receiving pending rest .ready from hφ]
      cases r with
      | ok a => exact ih
      | error e => exact follows_at (follows_onError _ m e) (fun _ => ih)

end

/-- The receives are handled one after the other, each once. -/
theorem follows_receiveAll (turns : ℕ) (pending : List ℕ) (receiveFailed : Bool)
    (h : pending.length = turns) :
    cycleProtocol.Follows (receiveAll turns pending receiveFailed)
      (.receiving pending [] .ready) (Ends (At (.receiving [] [] .ready))) := by
  induction turns generalizing pending receiveFailed with
  | zero =>
      obtain rfl := List.length_eq_zero_iff.mp h
      exact .inr ⟨⟨receiveFailed, rfl⟩, rfl⟩
  | succ turns ih =>
      obtain ⟨id, rest, rfl⟩ := List.exists_cons_of_length_eq_add_one h
      refine follows_ask .race rfl (fun result => ?_)
      revert result
      show ∀ result : ReceiveResult, _
      intro result
      by_cases hmem : result.id ∈ id :: rest
      · have hlength : ((id :: rest).erase result.id).length = turns := by
          rw [List.length_erase_of_mem hmem, h]
          omega
        have hnext : CyclePhase.next (.receiving (id :: rest) [] .ready) (.race (id :: rest))
            (.ok result) =
              .receiving ((id :: rest).erase result.id) result.messages .ready :=
          if_pos hmem
        rw [hnext]
        exact follows_at (follows_processDeliveryBatch _ _) (fun _ => ih _ _ hlength)
      · have hnext : CyclePhase.next (.receiving (id :: rest) [] .ready) (.race (id :: rest))
            (.ok result) = .broken := if_neg hmem
        rw [hnext]
        exact follows_broken _ _

/-- Sending the receives. -/
theorem follows_sendReceives (ids pending : List ℕ) :
    cycleProtocol.Follows (sendReceives ids) (.receiving pending [] .ready)
      (Ends (At (.receiving (pending ++ ids) [] .ready))) := by
  induction ids generalizing pending with
  | nil =>
      rw [List.append_nil]
      exact .inr ⟨⟨(), rfl⟩, rfl⟩
  | cons id rest ih =>
      refine follows_at (follows_perform_at (.receive id) rfl (fun _ => rfl)) (fun _ => ?_)
      rw [show pending ++ id :: rest = (pending ++ [id]) ++ rest from by simp]
      exact ih (pending ++ [id])

/-- Waiting for the confirmations. -/
theorem follows_drain :
    cycleProtocol.Follows drain (.receiving [] [] .ready) (Ends (At .drained)) := by
  refine follows_ask .drain rfl (fun errors => ?_)
  revert errors
  show ∀ errors : List JsError, _
  intro errors
  cases errors with
  | nil => exact .inr ⟨⟨(), rfl⟩, rfl⟩
  | cons e rest => exact .inl rfl

/-- The receipts of deferred messages are released. -/
theorem follows_deferExcessMessages (messages : List SqsMessage) :
    cycleProtocol.Follows (deferExcessMessages messages)
      (.deferring (messages.filterMap SqsMessage.receipt)) (Ends (At .over)) := by
  refine follows_ask .releaseAll rfl (fun waits => ?_)
  refine follows_at (follows_perform_at (.awaitReleases _ _) rfl (fun _ => rfl)) (fun _ => ?_)
  exact follows_perform_at (.changeVisibility _) rfl (fun _ => rfl)

/-- A cycle. -/
theorem follows_cycle : cycleProtocol.Follows cycle .over (Ends (At .over)) := by
  refine follows_at (follows_perform_at .newCycle rfl (fun _ => rfl)) (fun _ => ?_)
  refine follows_at (follows_sendReceives (List.range receiveBatches) []) (fun _ => ?_)
  have hreceive : cycleProtocol.Follows
      ((receiveAll receiveBatches (List.range receiveBatches) false).ensure drain)
      (.receiving (List.range receiveBatches) [] .ready) (Ends (At .drained)) := by
    refine follows_try (follows_receiveAll _ _ _ (List.length_range)) (fun r φ hφ => ?_)
    obtain ⟨⟨a, rfl⟩, rfl⟩ := hφ
    exact follows_at follows_drain (fun _ => .inr ⟨⟨a, rfl⟩, rfl⟩)
  refine follows_at hreceive (fun receiveFailed => ?_)
  refine follows_ask .readDeferred rfl (fun deferred => ?_)
  refine follows_at (follows_deferExcessMessages deferred) (fun _ => ?_)
  cases receiveFailed with
  | true => exact follows_perform_at .sleep rfl (fun _ => rfl)
  | false => exact .inr ⟨⟨(), rfl⟩, rfl⟩

/-- **The main loop keeps to its phases.** -/
theorem follows_loop (cycles : ℕ) :
    cycleProtocol.Follows (loop cycles) .over (Ends (At .over)) := by
  induction cycles with
  | zero => exact follows_ask .hang rfl (fun never => nomatch never)
  | succ cycles ih => exact follows_at follows_cycle (fun _ => ih)

/-! ## What an operation can do -/

/-- What an answered operation of the loop does: the phases before and after it, and the
state after it. -/
inductive Move (s : MainLoop) : CyclePhase → CyclePhase → MainLoop → Prop
  | idle (φ : CyclePhase) : Move s φ φ s
  | newCycle : Move s .over (.receiving [] [] .ready)
      { s with
        received := []
        lapsed := []
        skipped := []
        turns := .new
        deferred := []
        handled := []
        confirmations := { s.confirmations with callbackErrors := [] } }
  | receive (pending : List ℕ) (id : ℕ) :
      Move s (.receiving pending [] .ready) (.receiving (pending ++ [id]) [] .ready)
        { s with
          flying := s.flying ++ [id] }
  | race {pending : List ℕ} {pick : ℕ} {result : ReceiveResult}
      (hget : s.arrived[pick]? = some result) (hmem : result.id ∈ pending) :
      Move s (.receiving pending [] .ready)
        (.receiving (pending.erase result.id) result.messages .ready)
        { s with
          arrived := s.arrived.eraseIdx pick }
  | certain (pending : List ℕ) (m : SqsMessage) (hand : List SqsMessage) :
      Move s (.receiving pending (m :: hand) .ready) (.receiving pending hand (.owned m)) s
  | uncertain (pending : List ℕ) (m : SqsMessage) (hand : List SqsMessage) :
      Move s (.receiving pending (m :: hand) .ready)
        (.receiving pending hand (Stage.afterDoubt m))
        { s with
          lapsed := m :: s.lapsed }
  | releaseDoubted (pending : List ℕ) {m : SqsMessage} (hand : List SqsMessage)
      {receipt : JsString} (h : m.receipt = some receipt) :
      Move s (.receiving pending hand (.doubted m)) (.receiving pending hand (.leaving m))
        { s with
          leases := s.leases.release receipt }
  | warnSkipped (pending : List ℕ) (m : SqsMessage) (hand : List SqsMessage) :
      Move s (.receiving pending hand (.leaving m)) (.receiving pending hand .ready)
        { s with
          skipped := m :: s.skipped }
  | refuse (pending : List ℕ) (hand : List SqsMessage) {m : SqsMessage} {t : JsString}
      (ht : m.tenant = some t) (hfull : TenantTurns.limit ≤ s.turns.count t) :
      Move s (.receiving pending hand (.owned m)) (.receiving pending hand (.refused m)) s
  | take (pending : List ℕ) (hand : List SqsMessage) {m : SqsMessage} {turns : TenantTurns}
      (hcount : ∀ t, turns.count t = s.turns.count t + if m.tenant = some t then 1 else 0)
      (hroom : ∀ t, m.tenant = some t → s.turns.count t < TenantTurns.limit) :
      Move s (.receiving pending hand (.owned m)) (.receiving pending hand (.chosen m))
        { s with
          turns := turns }
  | pushDeferred (pending : List ℕ) (m : SqsMessage) (hand : List SqsMessage) :
      Move s (.receiving pending hand (.refused m)) (.receiving pending hand .ready)
        { s with
          deferred := s.deferred ++ [m] }
  | handleMessage (pending : List ℕ) (m : SqsMessage) (hand : List SqsMessage) :
      Move s (.receiving pending hand (.chosen m))
        (.receiving pending hand (.handling m s.handlers.length))
        { s with
          handled := m :: s.handled
          handlers := s.handlers ++ [Handler.new m] }
  | awaitHandler (pending : List ℕ) (m : SqsMessage) (hand : List SqsMessage) {call : ℕ}
      {h : Handler} {outcome : Except JsError Bool} (hget : s.handlers[call]? = some h)
      (houtcome : h.outcome = some outcome) :
      Move s (.receiving pending hand (.handling m call))
        (.receiving pending hand (Stage.afterHandler m outcome)) s
  | releaseOwed (pending : List ℕ) (hand : List SqsMessage) (receipt : JsString) :
      Move s (.receiving pending hand (.owing receipt)) (.receiving pending hand .ready)
        { s with
          leases := s.leases.release receipt }
  | schedule (pending : List ℕ) (m : SqsMessage) (hand : List SqsMessage) (receipt : JsString)
      (hroom : s.confirmations.pending.length < confirmationLimit) :
      Move s (.receiving pending hand (.acknowledged m receipt))
        (.receiving pending hand .ready)
        (s.withPending (s.confirmations.pending ++ [⟨m, receipt, confirmation m receipt⟩]))
  | drain (hpending : s.confirmations.pending = []) : Move s (.receiving [] [] .ready) .drained s
  | readDeferred : Move s .drained (.deferring (s.deferred.filterMap SqsMessage.receipt)) s
  | releaseAll (receipts : List JsString) : Move s (.deferring receipts) .over
      { s with
        leases := receipts.foldl LeaseState.release s.leases }

/-- A message is refused when its tenant has had all of its turns. -/
theorem refused_true {s : MainLoop} {pick : ℕ} {m : SqsMessage}
    (h : s.answer pick (.refused m) = some true) :
    ∃ t, m.tenant = some t ∧ TenantTurns.limit ≤ s.turns.count t ∧
      (s.effect pick (.refused m) true).turns = s.turns := by
  have hanswer : (m.tenant.map (fun t => !(s.turns.take t).1)).getD false = true :=
    Option.some.inj h
  cases ht : m.tenant with
  | none =>
      rw [ht] at hanswer
      exact absurd hanswer Bool.false_ne_true
  | some t =>
      rw [ht] at hanswer
      have htake : (s.turns.take t).1 = false := by simpa using hanswer
      rw [TenantTurns.take_fst] at htake
      have hfull : TenantTurns.limit ≤ s.turns.count t := by
        have := of_decide_eq_false htake
        omega
      refine ⟨t, rfl, hfull, ?_⟩
      show (m.tenant.map (fun t => (s.turns.take t).2)).getD s.turns = s.turns
      rw [ht]
      exact TenantTurns.take_snd_of_full hfull

/-- Otherwise its turn is counted, if it has a tenant. -/
theorem refused_false {s : MainLoop} {pick : ℕ} {m : SqsMessage}
    (h : s.answer pick (.refused m) = some false) (t : JsString) :
    (s.effect pick (.refused m) false).turns.count t =
      s.turns.count t + (if m.tenant = some t then 1 else 0) ∧
      (m.tenant = some t → s.turns.count t < TenantTurns.limit) := by
  have hanswer : (m.tenant.map (fun t => !(s.turns.take t).1)).getD false = false :=
    Option.some.inj h
  show ((m.tenant.map (fun t => (s.turns.take t).2)).getD s.turns).count t = _ ∧ _
  cases ht : m.tenant with
  | none => exact ⟨rfl, fun h => (nomatch h)⟩
  | some t' =>
      rw [ht] at hanswer
      have htake : (s.turns.take t').1 = true := by simpa using hanswer
      rw [TenantTurns.take_fst] at htake
      have hroom := of_decide_eq_true htake
      constructor
      · show (s.turns.take t').2.count t = _
        rw [TenantTurns.count_take hroom]
        simp only [Option.some.injEq]
      · intro heq
        rw [← Option.some.inj heq]
        exact hroom

/-- The effects of `refused`, as a move. -/
theorem move_refused {s : MainLoop} {pick : ℕ} {m : SqsMessage} (pending : List ℕ)
    (hand : List SqsMessage) {refused : Bool}
    (h : s.answer pick (.refused m) = some refused) :
    Move s (.receiving pending hand (.owned m))
      (CyclePhase.next (.receiving pending hand (.owned m)) (.refused m) (.ok refused))
      (s.effect pick (.refused m) refused) := by
  cases refused with
  | true =>
      obtain ⟨t, ht, hfull, hturns⟩ := refused_true h
      have hsame : s.effect pick (.refused m) true = s := by
        show { s with turns := (s.effect pick (.refused m) true).turns } = s
        rw [hturns]
      rw [hsame]
      exact .refuse pending hand ht hfull
  | false =>
      exact .take pending hand (fun t => (refused_false h t).1) (fun t => (refused_false h t).2)

/-- Whoever awaits a handler learns its outcome. -/
theorem answer_awaitHandler {s : MainLoop} {pick call : ℕ} {outcome : Except JsError Bool}
    (h : s.answer pick (.awaitHandler call) = some outcome) :
    ∃ x, s.handlers[call]? = some x ∧ x.outcome = some outcome :=
  Option.bind_eq_some_iff.mp h

/-- A message is scheduled when there is room. -/
theorem answer_schedule {s : MainLoop} {pick : ℕ} {m : SqsMessage} {receipt : JsString}
    {a : Unit} (h : s.answer pick (.schedule m receipt) = some a) :
    s.confirmations.pending.length < confirmationLimit := by
  by_contra hfull
  exact nomatch (if_neg hfull).symm.trans h

/-- The confirmations are drained when none is pending. -/
theorem answer_drain {s : MainLoop} {pick : ℕ} {errors : List JsError}
    (h : s.answer pick .drain = some errors) :
    s.confirmations.pending = [] ∧ s.confirmations.callbackErrors = errors := by
  have h : (if s.confirmations.pending.isEmpty then some s.confirmations.callbackErrors
    else none) = some errors := h
  split_ifs at h with hempty
  exact ⟨List.isEmpty_iff.mp hempty, Option.some.inj h⟩

/-- What a race answers. -/
theorem answer_race {s : MainLoop} {pick : ℕ} {pending : List ℕ} {result : ReceiveResult}
    (h : s.answer pick (.race pending) = some result) :
    s.arrived[pick]? = some result ∧ result.id ∈ pending := by
  obtain ⟨hget, hmem⟩ := Option.filter_eq_some_iff.mp h
  exact ⟨hget, of_decide_eq_true hmem⟩

/-- A phase of the main loop of which something is known. -/
def CyclePhase.ofLoop : CyclePhase → Bool
  | .over => true
  | .receiving .. => true
  | .drained => true
  | .deferring _ => true
  | _ => false

/-- **An answered operation is a move.** -/
theorem move_of_answer {φ : CyclePhase} {s : MainLoop} {op : ReceiveOp} {pick : ℕ}
    {a : op.Res} (hφ : φ.ofLoop = true) (hallow : CycleAllows φ op)
    (herrors : s.confirmations.callbackErrors = []) (ha : s.answer pick op = some a) :
    Move s φ (φ.next op (.ok a)) (s.effect pick op a) := by
  cases hallow with
  | newCycle => exact .newCycle
  | hang => exact (nomatch a)
  | receive id => exact .receive _ id
  | @race pending =>
      obtain ⟨hget, hmem⟩ := answer_race ha
      rw [show CyclePhase.next (.receiving pending [] .ready) (.race pending) (.ok a) =
        .receiving (pending.erase a.id) a.messages .ready from if_pos hmem]
      exact .race hget hmem
  | @uncertain pending m hand =>
      revert a
      show ∀ doubt : Bool, _ → _
      -- the lease is current, or not
      intro doubt ha
      cases doubt with
      | true => exact .uncertain pending m hand
      | false => exact .certain pending m hand
  | releaseDoubted hm => exact .releaseDoubted _ _ hm
  | warnSkipped => exact .warnSkipped _ _ _
  | refused => exact move_refused _ _ ha
  | pushDeferred => exact .pushDeferred _ _ _
  | handleMessage =>
      obtain rfl := Option.some.inj ha
      exact .handleMessage _ _ _
  | awaitHandler =>
      obtain ⟨x, hget, houtcome⟩ := answer_awaitHandler ha
      exact .awaitHandler _ _ _ hget houtcome
  | releaseOwed => exact .releaseOwed _ _ _
  | schedule => exact .schedule _ _ _ _ (answer_schedule ha)
  | drain =>
      -- no callback has thrown, so there is nothing to reject with
      obtain ⟨hpending, herrs⟩ := answer_drain ha
      obtain rfl := herrors.symm.trans herrs
      exact .drain hpending
  | readDeferred =>
      obtain rfl := Option.some.inj ha
      exact .readDeferred
  | releaseAll => exact .releaseAll _
  | changeVisibility _ => exact .idle _
  | sleep => exact .idle _
  | releaseConfirmed => exact absurd hφ Bool.false_ne_true
  | deleteMessage _ => exact absurd hφ Bool.false_ne_true
  | awaitReleases _ _ =>
      rw [show φ.next (.awaitReleases _) (.ok a) = φ from next_awaitReleases φ _]
      exact .idle φ
  | onError _ _ _ =>
      rw [show φ.next (.onError _ _) (.ok a) = φ from next_onError φ _ _]
      exact .idle φ
  | anything => exact absurd hφ Bool.false_ne_true

/-- A move stays in the loop. -/
theorem Move.ofLoop {s s' : MainLoop} {φ ψ : CyclePhase} (h : Move s φ ψ s')
    (hφ : φ.ofLoop = true) : ψ.ofLoop = true := by
  cases h <;> exact hφ

end ReceiveLoop
