/-
# Delivery batches (`processDeliveryBatch` of `worker/src/delivery/message-batch.ts`)

A batch hands its messages to `handle` one after the other and passes the acknowledgements
that come back to a `DeliveryConfirmations`: its own, which it drains in the end, or one that
is shared by any number of batches and other callers.

`onError` may throw when it is called for an acknowledgement; for a delivery it returns.

* `batch_correct` is what holds in every run.
* `drain_leaves_waiting`: a drain does not wait for a call of `schedule` that is still waiting
  for room when it is called.
-/
import Waybill.Confirmations

/-- How a call of `handle` ended: without an acknowledgement, with one, which was passed to
`schedule`, or with an error. -/
inductive BatchOutcome where
  | nothing
  | acknowledge (c : ℕ)
  | threw
  deriving DecidableEq

/-- Where the loop of a batch is. -/
inductive BatchPhase where
  | ready
  | handling
  | scheduling (c : ℕ)
  | draining (d : ℕ)
  | finished (rejected : Bool)
  deriving DecidableEq

/-- A call of `processDeliveryBatch`. -/
structure DeliveryBatch (M : Type) where
  messages : List M
  outcomes : List BatchOutcome
  phase : BatchPhase

/-- The batches on one object, and whether it is shared.  `handled` are the calls of `handle`
with the number of their batch, `reported` those whose error `onError` was called with. -/
structure BatchState (M : Type) where
  confirmations : DeliveryConfirmations M
  shared : Bool
  batches : List (DeliveryBatch M)
  handled : List (ℕ × M)
  reported : List (ℕ × ℕ)

/-- How a call of `handle` ends. -/
inductive HandleResult where
  | nothing
  | acknowledge
  | threw

/-- What can happen next. -/
inductive BatchEvent (M : Type) where
  | confirmations (e : ConfirmationEvent M)
  | process (messages : List M)
  | next (b : ℕ)
  | handled (b : ℕ) (result : HandleResult)
  | scheduled (b : ℕ)
  | drained (b : ℕ)

namespace BatchState

variable {M : Type}

/-- `new DeliveryConfirmations(limit)`, to be shared. -/
def share (limit : ℕ) : BatchState M :=
  { confirmations := .new limit, shared := true, batches := [], handled := [], reported := [] }

/-- `processDeliveryBatch(messages, handle, onError)`, with an object of its own. -/
def alone (messages : List M) : BatchState M :=
  { confirmations := .new 10, shared := false
    batches := [{ messages := messages, outcomes := [], phase := .ready }]
    handled := [], reported := [] }

/-- A batch goes on. -/
def setBatch (s : BatchState M) (b : ℕ) (x : DeliveryBatch M) : BatchState M :=
  { s with
    batches := s.batches.set b x }

/-- The events others may cause: calls are made on a shared object only. -/
def permitted (s : BatchState M) : ConfirmationEvent M → Bool
  | .schedule _ | .drain => s.shared
  | _ => true

/-- The head of the loop: the next message is handled, or the batch ends, after draining an
object of its own. -/
def advance (s : BatchState M) (b : ℕ) (x : DeliveryBatch M) : BatchState M :=
  match x.messages[x.outcomes.length]? with
  | some message =>
      { s.setBatch b { x with
          phase := .handling } with
        handled := s.handled ++ [(b, message)] }
  | none =>
      if s.shared then s.setBatch b { x with
        phase := .finished false }
      else
        { s.setBatch b { x with
            phase := .draining s.confirmations.drains.length } with
          confirmations := s.confirmations.drain }

/-- A call of `handle` has ended. -/
def settleHandle (s : BatchState M) (b : ℕ) (x : DeliveryBatch M) : HandleResult → BatchState M
  | .nothing => s.setBatch b { x with
      outcomes := x.outcomes ++ [.nothing]
      phase := .ready }
  -- a handler that throws is reported, and its message is not acknowledged
  | .threw =>
      { s.setBatch b { x with
          outcomes := x.outcomes ++ [.threw]
          phase := .ready } with
        reported := s.reported ++ [(b, x.outcomes.length)] }
  | .acknowledge =>
      match x.messages[x.outcomes.length]? with
      | some message =>
          { s.setBatch b { x with
              outcomes := x.outcomes ++ [.acknowledge s.confirmations.calls.length]
              phase := .scheduling s.confirmations.calls.length } with
            confirmations := s.confirmations.schedule message }
      | none => s

/-- What an event does, if it can happen. -/
def step (s : BatchState M) : BatchEvent M → Option (BatchState M)
  | .confirmations e =>
      if s.permitted e then
        (s.confirmations.step e).map (fun o => { s with
          confirmations := o })
      else none
  | .process messages =>
      if s.shared then
        some { s with
          batches := s.batches ++ [{ messages := messages, outcomes := [], phase := .ready }] }
      else none
  | .next b =>
      match s.batches[b]? with
      | some x => if x.phase = .ready then some (s.advance b x) else none
      | none => none
  | .handled b result =>
      match s.batches[b]? with
      | some x => if x.phase = .handling then some (s.settleHandle b x result) else none
      | none => none
  | .scheduled b =>
      match s.batches[b]? with
      | some x =>
          match x.phase with
          | .scheduling c =>
              -- the loop awaits `schedule`, which returns when the task is created
              if (s.confirmations.phase c).any CallPhase.hasTask then
                some (s.setBatch b { x with
                  phase := .ready })
              else none
          | _ => none
      | none => none
  | .drained b =>
      match s.batches[b]? with
      | some x =>
          match x.phase with
          | .draining d =>
              match (s.confirmations.drains[d]?).bind DrainCall.outcome with
              | some errors => some (s.setBatch b { x with
                  phase := .finished (!errors.isEmpty) })
              | none => none
          | _ => none
      | none => none

/-- A run begins with a shared object, or with a batch that has its own. -/
def Start (limit : ℕ) (s : BatchState M) : Prop :=
  (1 ≤ limit ∧ s = share limit) ∨ limit = 10 ∧ ∃ messages, s = alone messages

/-- The states of all runs. -/
abbrev Reachable (limit : ℕ) : BatchState M → Prop := Run (Start limit) step (fun _ _ => True)

/-! ## What an event is -/

/-- The ways the state can change. -/
inductive Move (s s' : BatchState M) : Prop
  | same (heq : s' = s)
  | confirmations (e : ConfirmationEvent M) (o : DeliveryConfirmations M)
      (hpermitted : s.permitted e = true) (hstep : s.confirmations.step e = some o)
      (heq : s' = { s with
        confirmations := o })
  | process (messages : List M) (hshared : s.shared = true)
      (heq : s' = { s with
        batches := s.batches ++ [{ messages := messages, outcomes := [], phase := .ready }] })
  | handle (b : ℕ) (x : DeliveryBatch M) (message : M) (hb : s.batches[b]? = some x)
      (hphase : x.phase = .ready) (hmessage : x.messages[x.outcomes.length]? = some message)
      (heq : s' = { s.setBatch b { x with
          phase := .handling } with
        handled := s.handled ++ [(b, message)] })
  | finish (b : ℕ) (x : DeliveryBatch M) (hb : s.batches[b]? = some x) (hshared : s.shared = true)
      (hphase : x.phase = .ready) (hend : x.messages.length ≤ x.outcomes.length)
      (heq : s' = s.setBatch b { x with
        phase := .finished false })
  | drain (b : ℕ) (x : DeliveryBatch M) (hb : s.batches[b]? = some x)
      (hshared : s.shared = false) (hphase : x.phase = .ready)
      (hend : x.messages.length ≤ x.outcomes.length)
      (heq : s' = { s.setBatch b { x with
          phase := .draining s.confirmations.drains.length } with
        confirmations := s.confirmations.drain })
  | nothing (b : ℕ) (x : DeliveryBatch M) (hb : s.batches[b]? = some x)
      (hphase : x.phase = .handling)
      (heq : s' = s.setBatch b { x with
        outcomes := x.outcomes ++ [.nothing]
        phase := .ready })
  | threw (b : ℕ) (x : DeliveryBatch M) (hb : s.batches[b]? = some x)
      (hphase : x.phase = .handling)
      (heq : s' = { s.setBatch b { x with
          outcomes := x.outcomes ++ [.threw]
          phase := .ready } with
        reported := s.reported ++ [(b, x.outcomes.length)] })
  | schedule (b : ℕ) (x : DeliveryBatch M) (message : M) (hb : s.batches[b]? = some x)
      (hphase : x.phase = .handling) (hmessage : x.messages[x.outcomes.length]? = some message)
      (heq : s' = { s.setBatch b { x with
          outcomes := x.outcomes ++ [.acknowledge s.confirmations.calls.length]
          phase := .scheduling s.confirmations.calls.length } with
        confirmations := s.confirmations.schedule message })
  | scheduled (b : ℕ) (x : DeliveryBatch M) (c : ℕ) (hb : s.batches[b]? = some x)
      (hphase : x.phase = .scheduling c) (htask : s.confirmations.At CallPhase.hasTask c)
      (heq : s' = s.setBatch b { x with
        phase := .ready })
  | drained (b : ℕ) (x : DeliveryBatch M) (d : ℕ) (call : DrainCall) (errors : List ℕ)
      (hb : s.batches[b]? = some x) (hphase : x.phase = .draining d)
      (hdrain : s.confirmations.drains[d]? = some call) (herrors : call.outcome = some errors)
      (heq : s' = s.setBatch b { x with
        phase := .finished (!errors.isEmpty) })

theorem move_of_step {s s' : BatchState M} {e : BatchEvent M} (h : s.step e = some s') :
    Move s s' := by
  cases e with
  | confirmations e =>
      obtain ⟨hpermitted, h⟩ := Option.ite_none_right_eq_some.mp h
      obtain ⟨o, hstep, rfl⟩ := Option.map_eq_some_iff.mp h
      exact .confirmations e o hpermitted hstep rfl
  | process messages =>
      obtain ⟨hshared, h⟩ := Option.ite_none_right_eq_some.mp h
      exact .process messages hshared (Option.some.inj h).symm
  | next b =>
      rw [step] at h
      split at h
      · next x hb =>
          obtain ⟨hphase, h⟩ := Option.ite_none_right_eq_some.mp h
          obtain rfl := Option.some.inj h
          -- the next message, or the end of the batch
          unfold advance
          split
          · next message hmessage => exact .handle b x message hb hphase hmessage rfl
          · next hnone =>
              have hend := List.getElem?_eq_none_iff.mp hnone
              by_cases hshared : s.shared = true
              · rw [if_pos hshared]
                exact .finish b x hb hshared hphase hend rfl
              · rw [if_neg hshared]
                exact .drain b x hb (Bool.not_eq_true _ ▸ hshared) hphase hend rfl
      · cases h
  | handled b result =>
      rw [step] at h
      split at h
      · next x hb =>
          obtain ⟨hphase, h⟩ := Option.ite_none_right_eq_some.mp h
          obtain rfl := Option.some.inj h
          cases result with
          | nothing => exact .nothing b x hb hphase rfl
          | threw => exact .threw b x hb hphase rfl
          | acknowledge =>
              rw [settleHandle]
              split
              · next message hmessage => exact .schedule b x message hb hphase hmessage rfl
              · exact .same rfl
      · cases h
  | scheduled b =>
      rw [step] at h
      split at h
      · next x hb =>
          split at h
          · next c hphase =>
              obtain ⟨htask, h⟩ := Option.ite_none_right_eq_some.mp h
              exact .scheduled b x c hb hphase htask (Option.some.inj h).symm
          · cases h
      · cases h
  | drained b =>
      rw [step] at h
      split at h
      · next x hb =>
          split at h
          · next d hphase =>
              split at h
              · next errors herrors =>
                  obtain ⟨call, hdrain, hcall⟩ := Option.bind_eq_some_iff.mp herrors
                  exact .drained b x d call errors hb hphase hdrain hcall (Option.some.inj h).symm
              · cases h
          · cases h
      · cases h

/-- An event of a batch leaves its object, or calls `schedule` or `drain` on it. -/
theorem confirmations_of_step {s s' : BatchState M} {e : BatchEvent M} (h : s.step e = some s')
    (he : ¬ ∃ e', e = .confirmations e') :
    s'.confirmations = s.confirmations ∨
      (∃ message, s'.confirmations = s.confirmations.schedule message) ∨
      s'.confirmations = s.confirmations.drain := by
  cases e with
  | confirmations e' => exact absurd ⟨e', rfl⟩ he
  | process messages =>
      obtain ⟨-, h⟩ := Option.ite_none_right_eq_some.mp h
      obtain rfl := Option.some.inj h
      exact .inl rfl
  | next b =>
      rw [step] at h
      split at h
      · obtain ⟨-, h⟩ := Option.ite_none_right_eq_some.mp h
        obtain rfl := Option.some.inj h
        unfold advance
        split
        · exact .inl rfl
        · split_ifs
          · exact .inl rfl
          · exact .inr (.inr rfl)
      · cases h
  | handled b result =>
      rw [step] at h
      split at h
      · obtain ⟨-, h⟩ := Option.ite_none_right_eq_some.mp h
        obtain rfl := Option.some.inj h
        cases result with
        | nothing => exact .inl rfl
        | threw => exact .inl rfl
        | acknowledge =>
            rw [settleHandle]
            split
            · exact .inr (.inl ⟨_, rfl⟩)
            · exact .inl rfl
      · cases h
  | scheduled b =>
      rw [step] at h
      split at h
      · split at h
        · obtain ⟨-, h⟩ := Option.ite_none_right_eq_some.mp h
          obtain rfl := Option.some.inj h
          exact .inl rfl
        · cases h
      · cases h
  | drained b =>
      rw [step] at h
      split at h
      · split at h
        · split at h
          · obtain rfl := Option.some.inj h
            exact .inl rfl
          · cases h
        · cases h
      · cases h

/-! ## The invariant -/

end BatchState

/-- The loop is over. -/
def BatchPhase.isOver : BatchPhase → Bool
  | draining _ | finished _ => true
  | _ => false

/-- How often `handle` was called. -/
def DeliveryBatch.handlings {M : Type} (x : DeliveryBatch M) : ℕ :=
  x.outcomes.length + if x.phase = .handling then 1 else 0

namespace BatchState

variable {M : Type}

/-- The messages that a batch has handed to `handle`. -/
def handledBy (s : BatchState M) (b : ℕ) : List M :=
  (s.handled.filter (fun call => call.1 == b)).map Prod.snd

/-- The acknowledgement of the `i`-th message of a batch is a call of `schedule`. -/
def Schedules (s : BatchState M) (b i c : ℕ) : Prop :=
  ∃ x, s.batches[b]? = some x ∧ x.outcomes[i]? = some (.acknowledge c)

/-- What is known of a batch. -/
structure BatchSound (s : BatchState M) (b : ℕ) (x : DeliveryBatch M) : Prop where
  handled : s.handledBy b = x.messages.take x.handlings
  bounded : x.handlings ≤ x.messages.length
  complete : x.phase.isOver = true → x.outcomes.length = x.messages.length
  reported : ∀ i, s.reported.count (b, i) = if x.outcomes[i]? = some .threw then 1 else 0
  acknowledged : ∀ i c : ℕ, x.outcomes[i]? = some (.acknowledge c) →
    ∃ m, x.messages[i]? = some m ∧ s.confirmations.messageOf c = some m ∧
      (x.phase = .scheduling c ∨ s.confirmations.At CallPhase.hasTask c)
  scheduling : ∀ c, x.phase = .scheduling c → BatchOutcome.acknowledge c ∈ x.outcomes
  draining : ∀ d, x.phase = .draining d → d < s.confirmations.drains.length
  drained : s.shared = false → ∀ rejected, x.phase = .finished rejected →
    ∃ d ∈ s.confirmations.drains, ∃ errors, d.outcome = some errors ∧ rejected = !errors.isEmpty

/-- What is known of the object of a batch of its own: all calls on it are the batch's, and
its drain comes after them. -/
structure Own (s : BatchState M) : Prop where
  single : s.batches.length = 1
  calls : ∀ c < s.confirmations.calls.length, ∃ i, s.Schedules 0 i c
  drains : ∀ d ∈ s.confirmations.drains, d.made = s.confirmations.calls.length ∧
    ∀ c < d.made, c ∈ d.admitted
  quiet : ∀ (b : ℕ) (x : DeliveryBatch M), s.batches[b]? = some x → x.phase.isOver = false →
    s.confirmations.drains = []

/-- **The invariant.** -/
structure Sound (s : BatchState M) : Prop where
  confirmations : s.confirmations.Sound
  batches : ∀ (b : ℕ) (x : DeliveryBatch M), s.batches[b]? = some x → BatchSound s b x
  handled : ∀ call ∈ s.handled, call.1 < s.batches.length
  reported : ∀ failure ∈ s.reported, failure.1 < s.batches.length
  distinct : ∀ {b i b' i' c : ℕ}, s.Schedules b i c → s.Schedules b' i' c → b = b' ∧ i = i'
  own : s.shared = false → Own s

/-- What a batch knows stays true while others go on. -/
theorem BatchSound.mono {s s' : BatchState M} {b : ℕ} {x : DeliveryBatch M}
    (h : BatchSound s b x) (hkept : s.confirmations.Kept s'.confirmations)
    (hon : s.confirmations.Onward s'.confirmations) (hshared : s'.shared = s.shared)
    (hhandled : s'.handledBy b = s.handledBy b)
    (hreported : ∀ i, s'.reported.count (b, i) = s.reported.count (b, i)) :
    BatchSound s' b x where
  handled := hhandled.trans h.handled
  bounded := h.bounded
  complete := h.complete
  reported i := (hreported i).trans (h.reported i)
  acknowledged i c hi := by
    obtain ⟨m, hm, hmessage, htask⟩ := h.acknowledged i c hi
    exact ⟨m, hm, hkept.messages c m hmessage,
      htask.imp_right (hon.at CallPhase.lasting_hasTask)⟩
  scheduling := h.scheduling
  draining d hd := lt_of_lt_of_le (h.draining d hd) hkept.length
  drained hown rejected hphase := by
    obtain ⟨d, hd, errors, ho, hr⟩ := h.drained (hshared ▸ hown) rejected hphase
    obtain ⟨d', hd', -, -, hend⟩ := hkept.drains d hd
    exact ⟨d', hd', errors, hend errors ho, hr⟩

/-- A batch whose loop goes on in another phase, with the same calls of `handle`. -/
theorem BatchSound.setPhase {s : BatchState M} {b : ℕ} {x : DeliveryBatch M}
    (h : BatchSound s b x) {p : BatchPhase} (hhandling : p ≠ .handling)
    (hphase : x.phase ≠ .handling) (hscheduling : ∀ c, p ≠ .scheduling c)
    (htask : ∀ c, x.phase = .scheduling c → s.confirmations.At CallPhase.hasTask c)
    (hcomplete : p.isOver = true → x.messages.length ≤ x.outcomes.length)
    (hdraining : ∀ d, p = .draining d → d < s.confirmations.drains.length)
    (hdrained : s.shared = false → ∀ rejected, p = .finished rejected →
      ∃ d ∈ s.confirmations.drains, ∃ errors, d.outcome = some errors ∧
        rejected = !errors.isEmpty) :
    BatchSound s b { x with
      phase := p } := by
  have hcount : ({ x with
      phase := p } : DeliveryBatch M).handlings = x.handlings := by
    unfold DeliveryBatch.handlings
    rw [if_neg hhandling, if_neg hphase]
  have hlength : x.outcomes.length ≤ x.messages.length := by
    have hle := h.bounded
    unfold DeliveryBatch.handlings at hle
    omega
  refine ⟨?_, ?_, ?_, h.reported, ?_, ?_, hdraining, hdrained⟩
  · rw [hcount]
    exact h.handled
  · rw [hcount]
    exact h.bounded
  · intro hover
    exact le_antisymm hlength (hcomplete hover)
  · intro i c hi
    obtain ⟨m, hm, hmessage, hor⟩ := h.acknowledged i c hi
    exact ⟨m, hm, hmessage, .inr (hor.elim (htask c) id)⟩
  · intro c hc
    exact absurd hc (hscheduling c)

theorem schedules_set {s s' : BatchState M} {b : ℕ} {x x' : DeliveryBatch M}
    (hb : s.batches[b]? = some x) (hbatches : s'.batches = s.batches.set b x') {b₁ i c : ℕ} :
    s'.Schedules b₁ i c ↔
      if b₁ = b then x'.outcomes[i]? = some (.acknowledge c) else s.Schedules b₁ i c := by
  unfold Schedules
  rw [hbatches, List.getElem?_set]
  have hlt : b < s.batches.length := (List.getElem?_eq_some_iff.mp hb).1
  by_cases hbb : b₁ = b
  · subst hbb
    simp [hlt]
  · simp [Ne.symm hbb, hbb]

/-- **A batch goes on**: the others know what they knew. -/
theorem sound_set {s s' : BatchState M} (h : Sound s) {b : ℕ} {x x' : DeliveryBatch M}
    (hb : s.batches[b]? = some x) (hbatches : s'.batches = s.batches.set b x')
    (hshared : s'.shared = s.shared) (hconfirmations : s'.confirmations.Sound)
    (hkept : s.confirmations.Kept s'.confirmations)
    (hon : s.confirmations.Onward s'.confirmations)
    (hhandled : ∃ l, s'.handled = s.handled ++ l ∧ ∀ call ∈ l, call.1 = b)
    (hreported : ∃ l, s'.reported = s.reported ++ l ∧ ∀ failure ∈ l, failure.1 = b)
    (hself : BatchSound s' b x')
    (hfresh : ∀ i c, x'.outcomes[i]? = some (.acknowledge c) →
      x.outcomes[i]? = some (.acknowledge c) ∨
        i = x.outcomes.length ∧ c = s.confirmations.calls.length)
    (hown : s.shared = false → Own s') : Sound s' := by
  have hlt : b < s.batches.length := (List.getElem?_eq_some_iff.mp hb).1
  have hlength : s'.batches.length = s.batches.length := by
    rw [hbatches, List.length_set]
  obtain ⟨calls, hcalls, hcallsOf⟩ := hhandled
  obtain ⟨failures, hfailures, hfailuresOf⟩ := hreported
  refine ⟨hconfirmations, ?_, ?_, ?_, ?_, fun hs => hown (hshared ▸ hs)⟩
  · intro b₁ x₁ hb₁
    rw [hbatches, List.getElem?_set] at hb₁
    by_cases hbb : b = b₁
    · subst hbb
      rw [if_pos rfl, if_pos hlt] at hb₁
      obtain rfl := Option.some.inj hb₁
      exact hself
    · rw [if_neg hbb] at hb₁
      refine (h.batches b₁ x₁ hb₁).mono hkept hon hshared ?_ ?_
      · unfold handledBy
        have hnil : calls.filter (fun call => call.1 == b₁) = [] := by
          rw [List.filter_eq_nil_iff]
          intro call hcall heq
          exact hbb ((hcallsOf call hcall).symm.trans (beq_iff_eq.mp heq))
        rw [hcalls, List.filter_append, hnil, List.append_nil]
      · intro i
        have hzero : failures.count (b₁, i) = 0 := by
          rw [List.count_eq_zero]
          intro hin
          exact hbb (hfailuresOf _ hin).symm
        rw [hfailures, List.count_append, hzero]
        rfl
  · intro call hcall
    rw [hcalls] at hcall
    rcases List.mem_append.mp hcall with hin | hin
    · exact hlength ▸ h.handled call hin
    · rw [hcallsOf call hin]
      omega
  · intro failure hfailure
    rw [hfailures] at hfailure
    rcases List.mem_append.mp hfailure with hin | hin
    · exact hlength ▸ h.reported failure hin
    · rw [hfailuresOf failure hin]
      omega
  · intro b₁ i₁ b₂ i₂ c h₁ h₂
    -- a call that was made before is not the one that is made now
    have hold : ∀ {b₁ i₁ : ℕ}, s'.Schedules b₁ i₁ c →
        s.Schedules b₁ i₁ c ∧ c < s.confirmations.calls.length ∨
          b₁ = b ∧ i₁ = x.outcomes.length ∧ c = s.confirmations.calls.length := by
      intro b₁ i₁ hs
      rw [schedules_set hb hbatches] at hs
      have hsmall : s.Schedules b₁ i₁ c → c < s.confirmations.calls.length := by
        rintro ⟨y, hy, hout⟩
        obtain ⟨m, -, hmessage, -⟩ := (h.batches b₁ y hy).acknowledged i₁ c hout
        exact DeliveryConfirmations.lt_of_messageOf hmessage
      by_cases hbb : b₁ = b
      · rw [if_pos hbb] at hs
        subst hbb
        rcases hfresh i₁ c hs with hs | ⟨hi, hc⟩
        · exact .inl ⟨⟨x, hb, hs⟩, hsmall ⟨x, hb, hs⟩⟩
        · exact .inr ⟨rfl, hi, hc⟩
      · rw [if_neg hbb] at hs
        exact .inl ⟨hs, hsmall hs⟩
    rcases hold h₁ with ⟨h₁, hlt₁⟩ | ⟨rfl, rfl, hc₁⟩
    · rcases hold h₂ with ⟨h₂, -⟩ | ⟨rfl, rfl, hc₂⟩
      · exact h.distinct h₁ h₂
      · omega
    · rcases hold h₂ with ⟨-, hlt₂⟩ | ⟨rfl, rfl, -⟩
      · omega
      · exact ⟨rfl, rfl⟩

/-- The object of a batch of its own, after a step that makes no call. -/
theorem own_set {s s' : BatchState M} (h : Own s) {b : ℕ} {x x' : DeliveryBatch M}
    (hb : s.batches[b]? = some x) (hbatches : s'.batches = s.batches.set b x')
    (houtcomes : ∀ i c : ℕ, x.outcomes[i]? = some (.acknowledge c) →
      x'.outcomes[i]? = some (.acknowledge c))
    (hconfirmations : s'.confirmations = s.confirmations)
    (hover : x'.phase.isOver = false → x.phase.isOver = false) : Own s' := by
  refine ⟨?_, ?_, ?_, ?_⟩
  · rw [hbatches, List.length_set]
    exact h.single
  · rw [hconfirmations]
    intro c hc
    obtain ⟨i, y, hy, hout⟩ := h.calls c hc
    refine ⟨i, (schedules_set hb hbatches).mpr ?_⟩
    by_cases hbb : 0 = b
    · subst hbb
      obtain rfl := Option.some.inj (hb.symm.trans hy)
      rw [if_pos rfl]
      exact houtcomes i c hout
    · rw [if_neg hbb]
      exact ⟨y, hy, hout⟩
  · rw [hconfirmations]
    exact h.drains
  · rw [hconfirmations]
    intro b₁ x₁ hb₁ hnot
    rw [hbatches, List.getElem?_set] at hb₁
    by_cases hbb : b = b₁
    · subst hbb
      rw [if_pos rfl] at hb₁
      obtain ⟨-, hb₁⟩ := Option.ite_none_right_eq_some.mp hb₁
      obtain rfl := Option.some.inj hb₁
      exact h.quiet b x hb (hover hnot)
    · rw [if_neg hbb] at hb₁
      exact h.quiet b₁ x₁ hb₁ hnot

/-- The outcomes of a batch whose call of `handle` has ended. -/
theorem outcomes_append {l : List BatchOutcome} {o : BatchOutcome} {i c : ℕ}
    (h : (l ++ [o])[i]? = some (.acknowledge c)) :
    l[i]? = some (.acknowledge c) ∨ i = l.length ∧ o = .acknowledge c := by
  rcases Nat.lt_trichotomy i l.length with hlt | rfl | hgt
  · rw [List.getElem?_append_left hlt] at h
    exact .inl h
  · rw [List.getElem?_append_right le_rfl, Nat.sub_self] at h
    exact .inr ⟨rfl, Option.some.inj h⟩
  · rw [List.getElem?_eq_none (by simp; omega)] at h
    cases h

/-- What is known of a batch whose call of `handle` has ended. -/
theorem BatchSound.settle {s : BatchState M} {b : ℕ} {x : DeliveryBatch M}
    (h : BatchSound s b x) (hphase : x.phase = .handling) {s' : BatchState M}
    (o : BatchOutcome) (p : BatchPhase)
    (hp : p = .ready ∨ ∃ c, p = .scheduling c ∧ o = .acknowledge c)
    (hhandled : s'.handled = s.handled)
    (hreported : ∀ i, s'.reported.count (b, i) =
      s.reported.count (b, i) + if i = x.outcomes.length ∧ o = .threw then 1 else 0)
    (hkept : s.confirmations.Kept s'.confirmations)
    (hon : s.confirmations.Onward s'.confirmations)
    (hnew : ∀ c, o = .acknowledge c → ∃ m, x.messages[x.outcomes.length]? = some m ∧
      s'.confirmations.messageOf c = some m ∧ p = .scheduling c) :
    BatchSound s' b { x with
      outcomes := x.outcomes ++ [o]
      phase := p } := by
  have hcount : ({ x with
      outcomes := x.outcomes ++ [o]
      phase := p } : DeliveryBatch M).handlings = x.handlings := by
    have hnot : p ≠ .handling := by
      rcases hp with rfl | ⟨c, rfl, -⟩
      · exact BatchPhase.noConfusion
      · exact BatchPhase.noConfusion
    unfold DeliveryBatch.handlings
    rw [if_neg hnot, if_pos hphase, List.length_append]
    rfl
  refine ⟨?_, ?_, ?_, ?_, ?_, ?_, ?_, ?_⟩
  · rw [hcount, ← h.handled]
    unfold handledBy
    rw [hhandled]
  · rw [hcount]
    exact h.bounded
  · intro hover
    rcases hp with rfl | ⟨c, rfl, -⟩
    · cases hover
    · cases hover
  · intro i
    rw [hreported i, h.reported i]
    -- the outcomes of before, the new one, and none after it
    rcases Nat.lt_trichotomy i x.outcomes.length with hlt | rfl | hgt
    · simp [List.getElem?_append_left hlt, ne_of_lt hlt]
    · simp
    · rw [List.getElem?_eq_none (le_of_lt hgt), List.getElem?_eq_none (by simp; omega)]
      simp [ne_of_gt hgt]
  · intro i c hi
    rcases outcomes_append hi with hold | ⟨rfl, rfl⟩
    · obtain ⟨m, hm, hmessage, hor⟩ := h.acknowledged i c hold
      refine ⟨m, hm, hkept.messages c m hmessage, .inr ?_⟩
      rcases hor with hsched | htask
      · rw [hphase] at hsched
        cases hsched
      · exact hon.at CallPhase.lasting_hasTask htask
    · obtain ⟨m, hm, hmessage, hsched⟩ := hnew c rfl
      exact ⟨m, hm, hmessage, .inl hsched⟩
  -- the loop waits for the call it has just made
  · intro c hc
    rcases hp with rfl | ⟨c', rfl, rfl⟩
    · cases hc
    · injection hc with hc
      subst hc
      exact List.mem_append_right _ (List.mem_singleton_self _)
  · intro d hd
    rcases hp with rfl | ⟨c, rfl, -⟩
    · cases hd
    · cases hd
  · intro _ rejected hfin
    rcases hp with rfl | ⟨c, rfl, -⟩
    · cases hfin
    · cases hfin

theorem kept_refl (o : DeliveryConfirmations M) : o.Kept o :=
  ⟨rfl, fun _ _ hm => hm, DeliveryConfirmations.drains_kept rfl, le_rfl⟩

/-- What the object does by itself. -/
theorem sound_confirmations {s : BatchState M} (h : Sound s) {e : ConfirmationEvent M}
    {o : DeliveryConfirmations M} (hpermitted : s.permitted e = true)
    (hstep : s.confirmations.step e = some o) : Sound { s with
      confirmations := o } := by
  obtain ⟨hsound, hon⟩ := DeliveryConfirmations.sound_step h.confirmations hstep
  have hkept := DeliveryConfirmations.kept_step hstep
  refine ⟨hsound, ?_, h.handled, h.reported, fun h₁ h₂ => h.distinct h₁ h₂, ?_⟩
  · intro b x hb
    exact (h.batches b x hb).mono hkept hon rfl rfl (fun _ => rfl)
  · intro hown
    have hshared : s.shared = false := hown
    have hcall : ¬ DeliveryConfirmations.IsCall e := by
      intro hcall
      cases e with
      | schedule message => exact Bool.false_ne_true (hshared.symm.trans hpermitted)
      | drain => exact Bool.false_ne_true (hshared.symm.trans hpermitted)
      | _ => exact hcall
    obtain ⟨-, hquiet⟩ := DeliveryConfirmations.quiet_step hcall hstep
    have hold := h.own hshared
    refine ⟨hold.single, ?_, ?_, ?_⟩
    · intro c hc
      exact hold.calls c (hquiet.calls ▸ hc)
    · intro d' hd'
      obtain ⟨d, hd, hmade, hadmitted⟩ := hquiet.drains d' hd'
      obtain ⟨hcount, hall⟩ := hold.drains d hd
      refine ⟨hmade.trans (hcount.trans hquiet.calls.symm), ?_⟩
      rw [hmade, hadmitted]
      exact hall
    · intro b x hb hnot
      rw [List.eq_nil_iff_forall_not_mem]
      intro d' hd'
      obtain ⟨d, hd, -⟩ := hquiet.drains d' hd'
      rw [hold.quiet b x hb hnot] at hd
      cases hd

/-- A batch that is added to a shared object. -/
theorem sound_process {s : BatchState M} (h : Sound s) (hshared : s.shared = true)
    (messages : List M) : Sound { s with
      batches := s.batches ++ [{ messages := messages, outcomes := [], phase := .ready }] } := by
  -- a batch of before, or the new one
  have hsplit : ∀ {b : ℕ} {x : DeliveryBatch M},
      (s.batches ++ [{ messages := messages, outcomes := [], phase := .ready }])[b]? = some x →
        s.batches[b]? = some x ∨ b = s.batches.length ∧
          x = { messages := messages, outcomes := [], phase := .ready } := by
    intro b x hb
    rcases Nat.lt_trichotomy b s.batches.length with hlt | rfl | hgt
    · rw [List.getElem?_append_left hlt] at hb
      exact .inl hb
    · rw [List.getElem?_append_right le_rfl, Nat.sub_self] at hb
      exact .inr ⟨rfl, (Option.some.inj hb).symm⟩
    · rw [List.getElem?_eq_none (by simp; omega)] at hb
      cases hb
  refine ⟨h.confirmations, ?_, ?_, ?_, ?_, ?_⟩
  · intro b x hb
    rcases hsplit hb with hb | ⟨rfl, rfl⟩
    · exact (h.batches b x hb).mono (kept_refl _) (.refl _) rfl rfl (fun _ => rfl)
    · refine ⟨?_, Nat.zero_le _, nofun, ?_, nofun, nofun, nofun, nofun⟩
      · have hnil : s.handled.filter (fun call => call.1 == s.batches.length) = [] := by
          rw [List.filter_eq_nil_iff]
          intro call hcall heq
          exact absurd (beq_iff_eq.mp heq) (ne_of_lt (h.handled call hcall))
        unfold handledBy
        rw [hnil]
        rfl
      · intro i
        rw [List.count_eq_zero.mpr]
        · rfl
        · intro hin
          exact absurd (h.reported _ hin) (lt_irrefl _)
  · intro call hcall
    rw [List.length_append]
    exact Nat.lt_succ_of_lt (h.handled call hcall)
  · intro failure hfailure
    rw [List.length_append]
    exact Nat.lt_succ_of_lt (h.reported failure hfailure)
  · rintro b i b' i' c ⟨x, hb, hout⟩ ⟨x', hb', hout'⟩
    rcases hsplit hb with hb | ⟨rfl, rfl⟩
    · rcases hsplit hb' with hb' | ⟨rfl, rfl⟩
      · exact h.distinct ⟨x, hb, hout⟩ ⟨x', hb', hout'⟩
      · cases hout'
    · cases hout
  · intro hown
    exact absurd (hshared.symm.trans hown) Bool.noConfusion

/-- The next message is handed to `handle`. -/
theorem sound_handle {s : BatchState M} (h : Sound s) {b : ℕ} {x : DeliveryBatch M} {message : M}
    (hb : s.batches[b]? = some x) (hphase : x.phase = .ready)
    (hmessage : x.messages[x.outcomes.length]? = some message) :
    Sound { s.setBatch b { x with
        phase := .handling } with
      handled := s.handled ++ [(b, message)] } := by
  have hbatch := h.batches b x hb
  have hlt := (List.getElem?_eq_some_iff.mp hmessage).1
  have hcount : x.handlings = x.outcomes.length := by
    unfold DeliveryBatch.handlings
    rw [hphase]
    rfl
  refine sound_set h hb rfl rfl h.confirmations (kept_refl _) (.refl _)
    ⟨[(b, message)], rfl, ?_⟩ ⟨[], (List.append_nil _).symm, nofun⟩ ?_ (fun _ _ hi => .inl hi)
    ?_
  · intro call hcall
    rw [List.mem_singleton.mp hcall]
  · refine ⟨?_, hlt, nofun, hbatch.reported, ?_, nofun, nofun, nofun⟩
    · have hhandled := hbatch.handled
      rw [hcount] at hhandled
      show ((s.handled ++ [(b, message)]).filter (fun call => call.1 == b)).map Prod.snd =
        x.messages.take (x.outcomes.length + 1)
      rw [List.filter_append, List.map_append, List.take_add_one, hmessage]
      unfold handledBy at hhandled
      rw [hhandled]
      simp
    · intro i c hi
      obtain ⟨m, hm, hkept, hor⟩ := hbatch.acknowledged i c hi
      refine ⟨m, hm, hkept, .inr (hor.elim ?_ id)⟩
      intro hsched
      rw [hphase] at hsched
      cases hsched
  · intro hown
    exact own_set (h.own hown) hb rfl (fun _ _ hi => hi) rfl (fun _ => by rw [hphase]; rfl)

/-- A batch on a shared object is over. -/
theorem sound_finish {s : BatchState M} (h : Sound s) {b : ℕ} {x : DeliveryBatch M}
    (hb : s.batches[b]? = some x) (hshared : s.shared = true) (hphase : x.phase = .ready)
    (hend : x.messages.length ≤ x.outcomes.length) :
    Sound (s.setBatch b { x with
      phase := .finished false }) := by
  refine sound_set h hb rfl rfl h.confirmations (kept_refl _) (.refl _)
    ⟨[], (List.append_nil _).symm, nofun⟩ ⟨[], (List.append_nil _).symm, nofun⟩
    ?_ (fun _ _ hi => .inl hi) ?_
  · refine ((h.batches b x hb).setPhase (p := .finished false) nofun ?_ nofun ?_
      (fun _ => hend) nofun ?_).mono (kept_refl _) (.refl _) rfl rfl (fun _ => rfl)
    · rw [hphase]
      exact nofun
    · intro c hc
      rw [hphase] at hc
      cases hc
    · intro hown
      exact absurd (hshared.symm.trans hown) Bool.noConfusion
  · intro hown
    exact absurd (hshared.symm.trans hown) Bool.noConfusion

/-- A batch with an object of its own drains it. -/
theorem sound_drain {s : BatchState M} (h : Sound s) {b : ℕ} {x : DeliveryBatch M}
    (hb : s.batches[b]? = some x) (hshared : s.shared = false) (hphase : x.phase = .ready)
    (hend : x.messages.length ≤ x.outcomes.length) :
    Sound { s.setBatch b { x with
        phase := .draining s.confirmations.drains.length } with
      confirmations := s.confirmations.drain } := by
  have hkept := DeliveryConfirmations.kept_drain s.confirmations
  have hnext := h.batches b x hb
  have hold := h.own hshared
  refine sound_set h hb rfl rfl (DeliveryConfirmations.sound_drain h.confirmations) hkept
    (.refl _) ⟨[], (List.append_nil _).symm, nofun⟩ ⟨[], (List.append_nil _).symm, nofun⟩
    ?_ (fun _ _ hi => .inl hi) ?_
  · have hlater : BatchSound { s.setBatch b { x with
          phase := .draining s.confirmations.drains.length } with
        confirmations := s.confirmations.drain } b x :=
      hnext.mono hkept (.refl _) rfl rfl (fun _ => rfl)
    refine hlater.setPhase (p := .draining s.confirmations.drains.length) nofun ?_ nofun ?_
      (fun _ => hend) ?_ (fun _ => nofun)
    · rw [hphase]
      exact nofun
    · intro c hc
      rw [hphase] at hc
      cases hc
    · intro d hd
      injection hd with hd
      subst hd
      show s.confirmations.drains.length < (s.confirmations.drains ++ [_]).length
      rw [List.length_append]
      exact Nat.lt_succ_self _
  · intro _
    obtain ⟨y, hbatches⟩ := List.length_eq_one_iff.mp hold.single
    have hquiet := hold.quiet b x hb (by rw [hphase]; rfl)
    have hmade : ∀ c < s.confirmations.calls.length, c ∈ s.confirmations.admitted := by
      intro c hc
      refine List.mem_filter.mpr ⟨List.mem_range.mpr hc, ?_⟩
      obtain ⟨i, z, hz, hout⟩ := hold.calls c hc
      obtain ⟨-, -, -, hor⟩ := (h.batches 0 z hz).acknowledged i c hout
      refine hor.resolve_left ?_
      -- there is one batch only, and its loop is over
      have hb0 : b = 0 := by
        have hlt := (List.getElem?_eq_some_iff.mp hb).1
        have hone := hold.single
        omega
      subst hb0
      obtain rfl := Option.some.inj (hb.symm.trans hz)
      rw [hphase]
      exact nofun
    refine ⟨?_, ?_, ?_, ?_⟩
    · show (s.batches.set b _).length = 1
      rw [List.length_set]
      exact hold.single
    · intro c hc
      obtain ⟨i, z, hz, hout⟩ := hold.calls c hc
      refine ⟨i, (schedules_set hb rfl).mpr ?_⟩
      by_cases hbb : 0 = b
      · subst hbb
        obtain rfl := Option.some.inj (hb.symm.trans hz)
        rw [if_pos rfl]
        exact hout
      · rw [if_neg hbb]
        exact ⟨z, hz, hout⟩
    · intro d hd
      have hd' : d ∈ s.confirmations.drains ++ [_] := hd
      rw [hquiet] at hd'
      obtain rfl := List.mem_singleton.mp hd'
      exact ⟨rfl, hmade⟩
    · intro b₁ x₁ hb₁ hnot
      have hb₁' : (s.batches.set b _)[b₁]? = some x₁ := hb₁
      have hlt := (List.getElem?_eq_some_iff.mp hb₁').1
      have hlt' := (List.getElem?_eq_some_iff.mp hb).1
      rw [List.length_set] at hlt
      obtain rfl : b = b₁ := by
        have hone := hold.single
        omega
      rw [List.getElem?_set, if_pos rfl, if_pos hlt'] at hb₁'
      obtain rfl := Option.some.inj hb₁'
      cases hnot

/-- A call of `handle` has ended without an acknowledgement. -/
theorem sound_nothing {s : BatchState M} (h : Sound s) {b : ℕ} {x : DeliveryBatch M}
    (hb : s.batches[b]? = some x) (hphase : x.phase = .handling) :
    Sound (s.setBatch b { x with
      outcomes := x.outcomes ++ [.nothing]
      phase := .ready }) := by
  refine sound_set h hb rfl rfl h.confirmations (kept_refl _) (.refl _)
    ⟨[], (List.append_nil _).symm, nofun⟩ ⟨[], (List.append_nil _).symm, nofun⟩
    ?_ ?_ ?_
  · refine (h.batches b x hb).settle hphase .nothing .ready (.inl rfl) rfl ?_ (kept_refl _)
      (.refl _) nofun
    intro i
    simp
    rfl
  · intro i c hi
    rcases outcomes_append hi with hi | ⟨-, ho⟩
    · exact .inl hi
    · cases ho
  · intro hown
    refine own_set (h.own hown) hb rfl ?_ rfl (fun _ => by rw [hphase]; rfl)
    intro i c hi
    exact List.getElem?_append_left (List.getElem?_eq_some_iff.mp hi).1 ▸ hi

/-- A call of `handle` has thrown, which is reported. -/
theorem sound_threw {s : BatchState M} (h : Sound s) {b : ℕ} {x : DeliveryBatch M}
    (hb : s.batches[b]? = some x) (hphase : x.phase = .handling) :
    Sound { s.setBatch b { x with
        outcomes := x.outcomes ++ [.threw]
        phase := .ready } with
      reported := s.reported ++ [(b, x.outcomes.length)] } := by
  refine sound_set h hb rfl rfl h.confirmations (kept_refl _) (.refl _)
    ⟨[], (List.append_nil _).symm, nofun⟩ ⟨[(b, x.outcomes.length)], rfl, ?_⟩
    ?_ ?_ ?_
  · intro failure hfailure
    rw [List.mem_singleton.mp hfailure]
  · refine (h.batches b x hb).settle hphase .threw .ready (.inl rfl) rfl ?_ (kept_refl _)
      (.refl _) nofun
    intro i
    show (s.reported ++ [(b, x.outcomes.length)]).count (b, i) = _
    rw [List.count_append, List.count_singleton]
    by_cases hi : i = x.outcomes.length
    · simp [hi]
    · simp [hi, Ne.symm hi]
  · intro i c hi
    rcases outcomes_append hi with hi | ⟨-, ho⟩
    · exact .inl hi
    · cases ho
  · intro hown
    refine own_set (h.own hown) hb rfl ?_ rfl (fun _ => by rw [hphase]; rfl)
    intro i c hi
    exact List.getElem?_append_left (List.getElem?_eq_some_iff.mp hi).1 ▸ hi

/-- An acknowledgement has come back and is scheduled. -/
theorem sound_schedule {s : BatchState M} (h : Sound s) {b : ℕ} {x : DeliveryBatch M}
    {message : M} (hb : s.batches[b]? = some x) (hphase : x.phase = .handling)
    (hmessage : x.messages[x.outcomes.length]? = some message) :
    Sound { s.setBatch b { x with
        outcomes := x.outcomes ++ [.acknowledge s.confirmations.calls.length]
        phase := .scheduling s.confirmations.calls.length } with
      confirmations := s.confirmations.schedule message } := by
  have hsound := DeliveryConfirmations.sound_step (e := .schedule message) h.confirmations rfl
  have hkept := DeliveryConfirmations.kept_schedule s.confirmations message
  have hlength := DeliveryConfirmations.length_schedule s.confirmations message
  refine sound_set h hb rfl rfl hsound.1 hkept hsound.2
    ⟨[], (List.append_nil _).symm, nofun⟩ ⟨[], (List.append_nil _).symm, nofun⟩
    ?_ ?_ ?_
  · refine (h.batches b x hb).settle hphase (.acknowledge s.confirmations.calls.length)
      (.scheduling s.confirmations.calls.length) (.inr ⟨_, rfl, rfl⟩) rfl ?_ hkept hsound.2 ?_
    · intro i
      simp
      rfl
    · intro c hc
      injection hc with hc
      subst hc
      refine ⟨message, hmessage, ?_, rfl⟩
      exact (DeliveryConfirmations.messageOf_schedule _ _ _).trans (if_pos rfl)
  · intro i c hi
    rcases outcomes_append hi with hi | ⟨rfl, ho⟩
    · exact .inl hi
    · injection ho with ho
      exact .inr ⟨rfl, ho.symm⟩
  -- with confirmations of its own there is one batch, which has not drained yet
  · intro hown
    have hold := h.own hown
    have hquiet := hold.quiet b x hb (by rw [hphase]; rfl)
    have hdrains : (s.confirmations.schedule message).drains = [] :=
      (DeliveryConfirmations.drains_enter _ _).trans hquiet
    have hb0 : b = 0 := by
      have hlt := (List.getElem?_eq_some_iff.mp hb).1
      have hone := hold.single
      omega
    subst hb0
    refine ⟨?_, ?_, ?_, ?_⟩
    · show (s.batches.set 0 _).length = 1
      rw [List.length_set]
      exact hold.single
    · intro c hc
      have hc' : c < s.confirmations.calls.length + 1 := hlength ▸ hc
      by_cases hnew : c = s.confirmations.calls.length
      · refine ⟨x.outcomes.length, (schedules_set hb rfl).mpr ?_⟩
        rw [if_pos rfl, hnew]
        simp
      · obtain ⟨i, z, hz, hout⟩ := hold.calls c (by omega)
        obtain rfl := Option.some.inj (hb.symm.trans hz)
        refine ⟨i, (schedules_set hb rfl).mpr ?_⟩
        rw [if_pos rfl]
        exact (List.getElem?_append_left (List.getElem?_eq_some_iff.mp hout).1).trans hout
    · intro d hd
      have hd' : d ∈ (s.confirmations.schedule message).drains := hd
      rw [hdrains] at hd'
      cases hd'
    · intro _ _ _ _
      exact hdrains

/-- A call of `schedule` has returned to its batch. -/
theorem sound_scheduled {s : BatchState M} (h : Sound s) {b c : ℕ} {x : DeliveryBatch M}
    (hb : s.batches[b]? = some x) (hphase : x.phase = .scheduling c)
    (htask : s.confirmations.At CallPhase.hasTask c) :
    Sound (s.setBatch b { x with
      phase := .ready }) := by
  have hbatch := h.batches b x hb
  refine sound_set h hb rfl rfl h.confirmations (kept_refl _) (.refl _)
    ⟨[], (List.append_nil _).symm, nofun⟩ ⟨[], (List.append_nil _).symm, nofun⟩
    ?_ (fun _ _ hi => .inl hi) ?_
  · refine (hbatch.setPhase (p := .ready) nofun ?_ nofun ?_ nofun nofun (fun _ => nofun)).mono
      (kept_refl _) (.refl _) rfl rfl (fun _ => rfl)
    · rw [hphase]
      exact nofun
    · intro c' hc'
      rw [hphase] at hc'
      injection hc' with hc'
      exact hc' ▸ htask
  · intro hown
    exact own_set (h.own hown) hb rfl (fun _ _ hi => hi) rfl (fun _ => by rw [hphase]; rfl)

/-- The drain of a batch has ended. -/
theorem sound_drained {s : BatchState M} (h : Sound s) {b d : ℕ} {x : DeliveryBatch M}
    {call : DrainCall} {errors : List ℕ} (hb : s.batches[b]? = some x)
    (hphase : x.phase = .draining d) (hdrain : s.confirmations.drains[d]? = some call)
    (herrors : call.outcome = some errors) :
    Sound (s.setBatch b { x with
      phase := .finished (!errors.isEmpty) }) := by
  have hbatch := h.batches b x hb
  refine sound_set h hb rfl rfl h.confirmations (kept_refl _) (.refl _)
    ⟨[], (List.append_nil _).symm, nofun⟩ ⟨[], (List.append_nil _).symm, nofun⟩
    ?_ (fun _ _ hi => .inl hi) ?_
  · refine (hbatch.setPhase (p := .finished (!errors.isEmpty)) nofun ?_ nofun ?_ ?_ nofun
      ?_).mono (kept_refl _) (.refl _) rfl rfl (fun _ => rfl)
    · rw [hphase]
      exact nofun
    · intro c hc
      rw [hphase] at hc
      cases hc
    · intro _
      exact (hbatch.complete (by rw [hphase]; rfl)).ge
    · intro _ rejected hrejected
      injection hrejected with hrejected
      exact ⟨call, List.mem_of_getElem? hdrain, errors, herrors, hrejected.symm⟩
  · intro hown
    exact own_set (h.own hown) hb rfl (fun _ _ hi => hi) rfl nofun

/-- **Every event keeps the invariant.** -/
theorem sound_step {s s' : BatchState M} (h : Sound s) {e : BatchEvent M}
    (hstep : s.step e = some s') : Sound s' := by
  cases move_of_step hstep with
  | same heq =>
      rw [heq]
      exact h
  | confirmations e o hpermitted hstep heq =>
      rw [heq]
      exact sound_confirmations h hpermitted hstep
  | process messages hshared heq =>
      rw [heq]
      exact sound_process h hshared messages
  | handle b x message hb hphase hmessage heq =>
      rw [heq]
      exact sound_handle h hb hphase hmessage
  | finish b x hb hshared hphase hend heq =>
      rw [heq]
      exact sound_finish h hb hshared hphase hend
  | drain b x hb hshared hphase hend heq =>
      rw [heq]
      exact sound_drain h hb hshared hphase hend
  | nothing b x hb hphase heq =>
      rw [heq]
      exact sound_nothing h hb hphase
  | threw b x hb hphase heq =>
      rw [heq]
      exact sound_threw h hb hphase
  | schedule b x message hb hphase hmessage heq =>
      rw [heq]
      exact sound_schedule h hb hphase hmessage
  | scheduled b x c hb hphase htask heq =>
      rw [heq]
      exact sound_scheduled h hb hphase htask
  | drained b x d call errors hb hphase hdrain herrors heq =>
      rw [heq]
      exact sound_drained h hb hphase hdrain herrors

/-- The limit stays. -/
theorem limit_step {s s' : BatchState M} {e : BatchEvent M} (hstep : s.step e = some s') :
    s'.confirmations.limit = s.confirmations.limit := by
  cases move_of_step hstep with
  | confirmations e o _ hstep heq =>
      rw [heq]
      exact (DeliveryConfirmations.kept_step hstep).limit
  | schedule b x message _ _ _ heq =>
      rw [heq]
      exact (DeliveryConfirmations.kept_schedule s.confirmations message).limit
  | same heq | process _ _ heq | handle _ _ _ _ _ _ heq | finish _ _ _ _ _ _ heq
  | drain _ _ _ _ _ _ heq | nothing _ _ _ _ heq | threw _ _ _ _ heq | scheduled _ _ _ _ _ _ heq
  | drained _ _ _ _ _ _ _ _ _ heq =>
      subst heq
      rfl

/-- An object of its own, before the first message. -/
theorem sound_alone (messages : List M) : Sound (alone messages) := by
  have hbatch : ∀ {b : ℕ} {x : DeliveryBatch M}, (alone messages).batches[b]? = some x →
      x = { messages := messages, outcomes := [], phase := .ready } := by
    intro b x hb
    exact List.mem_singleton.mp (List.mem_of_getElem? hb)
  refine ⟨DeliveryConfirmations.sound_new (by omega), ?_, nofun, nofun, ?_, ?_⟩
  · intro b x hb
    obtain rfl := hbatch hb
    exact ⟨rfl, Nat.zero_le _, nofun, fun _ => rfl, nofun, nofun, nofun, nofun⟩
  · rintro b i b' i' c ⟨x, hb, hout⟩ -
    obtain rfl := hbatch hb
    cases hout
  · intro _
    exact ⟨rfl, nofun, nofun, fun _ _ _ _ => rfl⟩

/-- **The invariant holds in every run.** -/
theorem sound_of_reachable {limit : ℕ} {s : BatchState M} (h : Reachable limit s) :
    Sound s ∧ s.confirmations.limit = limit := by
  refine h.invariant (I := fun s => Sound s ∧ s.confirmations.limit = limit) ?_ ?_
  · rintro s (⟨hlimit, rfl⟩ | ⟨rfl, messages, rfl⟩)
    · exact ⟨⟨DeliveryConfirmations.sound_new hlimit, nofun, nofun, nofun, nofun, nofun⟩, rfl⟩
    · exact ⟨sound_alone messages, rfl⟩
  · rintro s e s' ⟨hsound, hlimit⟩ - hstep
    exact ⟨sound_step hsound hstep, (limit_step hstep).trans hlimit⟩

/-! ## What holds -/

/-- A new call, as opposed to one that goes on. -/
def IsNew : BatchEvent M → Prop
  | .confirmations e => DeliveryConfirmations.IsCall e
  | .process _ => True
  | _ => False

/-- Nothing can go on without a new call. -/
def Resting (s : BatchState M) : Prop := ∀ e, ¬ IsNew e → s.step e = none

/-- What a batch has done: `handle` was called with its messages in their order, once with
each, and never while another call was running; an error of `handle` was reported once; and
every acknowledgement that came back is a call of `schedule` with its message. -/
structure BatchCorrect (s : BatchState M) (b : ℕ) (x : DeliveryBatch M) : Prop where
  inOrder : s.handledBy b = x.messages.take (s.handledBy b).length
  oneAtATime : (s.handledBy b).length ≤ x.outcomes.length + 1
  reported : ∀ i, s.reported.count (b, i) = if x.outcomes[i]? = some .threw then 1 else 0
  acknowledged : ∀ i c : ℕ, x.outcomes[i]? = some (.acknowledge c) →
    ∃ m, x.messages[i]? = some m ∧ s.confirmations.messageOf c = some m

/-- What a call of `drain` has done when it ends: every acknowledgement whose task had been
created when it was called has settled; the errors it was left with are errors that callbacks
threw, and those of these acknowledgements are among them. -/
structure DrainCorrect (s : BatchState M) (d : DrainCall) (errors : List ℕ) : Prop where
  settled : ∀ c ∈ d.admitted, s.confirmations.At CallPhase.settled c
  thrown : ∀ c ∈ errors, c ∈ s.confirmations.callbackErrors
  complete : ∀ c ∈ s.confirmations.callbackErrors, c ∈ d.admitted → c ∈ errors

/-- The call whose error callback throws in an event, if one does. -/
def thrown : BatchEvent M → List ℕ
  | .confirmations e => DeliveryConfirmations.thrown e
  | _ => []

/-- **What an event does to the errors**: a drain that ends is rejected exactly if a callback has
thrown until then, and with all the errors thrown. -/
theorem errorsExact_step {s s' : BatchState M} {e : BatchEvent M} (h : s.step e = some s') :
    DeliveryConfirmations.ErrorsExact s.confirmations s'.confirmations (thrown e) := by
  by_cases hevent : ∃ e', e = .confirmations e'
  · obtain ⟨e', rfl⟩ := hevent
    obtain ⟨-, h⟩ := Option.ite_none_right_eq_some.mp h
    obtain ⟨o, hstep, rfl⟩ := Option.map_eq_some_iff.mp h
    exact DeliveryConfirmations.errorsExact_step hstep
  · have hnone : thrown e = [] := by
      cases e with
      | confirmations e' => exact absurd ⟨e', rfl⟩ hevent
      | _ => rfl
    rw [hnone]
    rcases confirmations_of_step h hevent with hsame | ⟨message, hschedule⟩ | hdrain
    · exact .same (by rw [hsame]) (by rw [hsame])
    · rw [hschedule]
      exact DeliveryConfirmations.errorsExact_schedule _ message
    · rw [hdrain]
      exact DeliveryConfirmations.errorsExact_drain _

/-- What a batch with an object of its own has waited for in the end, and when it is
rejected. -/
structure OwnCorrect (s : BatchState M) (rejected : Bool) : Prop where
  settled : ∀ c < s.confirmations.calls.length, s.confirmations.At CallPhase.settled c
  rejects : rejected = true ↔ s.confirmations.callbackErrors ≠ []

/-- What has happened when nothing can go on: every batch has handled every message and is
over, every acknowledgement was invoked once, and its error reported once if it failed, and
every drain has ended. -/
structure Complete (s : BatchState M) : Prop where
  handled : ∀ (b : ℕ) (x : DeliveryBatch M), s.batches[b]? = some x →
    s.handledBy b = x.messages ∧ ∃ rejected, x.phase = .finished rejected
  invoked : ∀ c < s.confirmations.calls.length, s.confirmations.invoked.count c = 1 ∧
    s.confirmations.reported.count c = s.confirmations.bit CallPhase.rejected c
  drained : ∀ d ∈ s.confirmations.drains, d.outcome.isSome = true

theorem handledBy_of_sound {s : BatchState M} {b : ℕ} {x : DeliveryBatch M}
    (h : BatchSound s b x) : BatchCorrect s b x := by
  have hlength : (s.handledBy b).length = x.handlings := by
    rw [h.handled, List.length_take]
    exact min_eq_left h.bounded
  refine ⟨?_, ?_, h.reported, ?_⟩
  · rw [hlength]
    exact h.handled
  · rw [hlength]
    unfold DeliveryBatch.handlings
    split_ifs <;> omega
  · intro i c hi
    obtain ⟨m, hm, hmessage, -⟩ := h.acknowledged i c hi
    exact ⟨m, hm, hmessage⟩

/-- A batch with an object of its own that is over. -/
theorem own_correct {s : BatchState M} (h : Sound s) (hown : s.shared = false) {b : ℕ}
    {x : DeliveryBatch M} (hb : s.batches[b]? = some x) {rejected : Bool}
    (hphase : x.phase = .finished rejected) : OwnCorrect s rejected := by
  obtain ⟨d, hd, errors, ho, rfl⟩ := (h.batches b x hb).drained hown rejected hphase
  obtain ⟨hsettled, hthrown, hcomplete⟩ :=
    DeliveryConfirmations.drained_settled h.confirmations hd ho
  obtain ⟨hmade, hall⟩ := (h.own hown).drains d hd
  have hadmitted : ∀ c < s.confirmations.calls.length, c ∈ d.admitted := by
    intro c hc
    exact hall c (hmade ▸ hc)
  refine ⟨fun c hc => hsettled c (hadmitted c hc), ?_⟩
  rw [Bool.not_eq_true', List.isEmpty_eq_false_iff]
  constructor
  · intro hne
    obtain ⟨c, hc⟩ := List.exists_mem_of_ne_nil _ hne
    exact List.ne_nil_of_mem (hthrown c hc)
  · intro hne
    obtain ⟨c, hc⟩ := List.exists_mem_of_ne_nil _ hne
    refine List.ne_nil_of_mem (hcomplete c hc (hadmitted c ?_))
    obtain ⟨p, hp, -⟩ := DeliveryConfirmations.phase_of_at (h.confirmations.errors c hc)
    exact DeliveryConfirmations.lt_of_phase hp

theorem complete_of_resting {s : BatchState M} (h : Sound s) (hrest : Resting s) :
    Complete s := by
  have hkernel : DeliveryConfirmations.Resting s.confirmations := by
    intro e he
    have hpermitted : s.permitted e = true := by
      cases e with
      | schedule message => exact absurd trivial he
      | drain => exact absurd trivial he
      | _ => rfl
    have hstep := hrest (.confirmations e) he
    rw [step, if_pos hpermitted] at hstep
    exact Option.map_eq_none_iff.mp hstep
  obtain ⟨hfulfilled, hdrained⟩ :=
    DeliveryConfirmations.resting_fulfilled h.confirmations hkernel
  refine ⟨?_, ?_, hdrained⟩
  · intro b x hb
    have hbatch := h.batches b x hb
    obtain ⟨rejected, hphase⟩ : ∃ rejected, x.phase = .finished rejected := by
      cases hphase : x.phase with
      | ready =>
          have hstep := hrest (.next b) id
          rw [step, hb] at hstep
          simp only [hphase, if_true] at hstep
          cases hstep
      | handling =>
          have hstep := hrest (.handled b .nothing) id
          rw [step, hb] at hstep
          simp only [hphase, if_true] at hstep
          cases hstep
      | scheduling c =>
          -- the acknowledgement that is being scheduled is through
          obtain ⟨i, hi⟩ := List.mem_iff_getElem?.mp (hbatch.scheduling c hphase)
          obtain ⟨m, -, hmessage, -⟩ := hbatch.acknowledged i c hi
          have hdone := hfulfilled c (DeliveryConfirmations.lt_of_messageOf hmessage)
          obtain ⟨p, hp, hf⟩ := DeliveryConfirmations.phase_of_at hdone
          have htask : (s.confirmations.phase c).any CallPhase.hasTask = true := by
            rw [hp, Option.any_some]
            cases p <;> first | rfl | cases hf
          have hstep := hrest (.scheduled b) id
          rw [step, hb] at hstep
          simp only [hphase, htask, if_true] at hstep
          cases hstep
      | draining d =>
          have hd := hbatch.draining d hphase
          have hended := hdrained _ (List.getElem_mem hd)
          obtain ⟨errors, herrors⟩ := Option.isSome_iff_exists.mp hended
          have hstep := hrest (.drained b) id
          rw [step, hb] at hstep
          simp only [hphase, List.getElem?_eq_getElem hd, Option.bind_some, herrors] at hstep
          cases hstep
      | finished rejected => exact ⟨rejected, rfl⟩
    refine ⟨?_, rejected, hphase⟩
    have hover := hbatch.complete (by rw [hphase]; rfl)
    rw [hbatch.handled, DeliveryBatch.handlings, hphase, if_neg nofun, hover]
    exact List.take_length
  · intro c hc
    obtain ⟨p, hp, hf⟩ := DeliveryConfirmations.phase_of_at (hfulfilled c hc)
    rw [h.confirmations.invoked c, h.confirmations.reported c,
      DeliveryConfirmations.bit_of_phase hp, DeliveryConfirmations.bit_of_phase hp,
      DeliveryConfirmations.bit_of_phase hp]
    cases p with
    | fulfilled rejected => exact ⟨rfl, rfl⟩
    | _ => cases hf

/-- **Batches and their confirmations**, in every run: at most `limit` acknowledgements are
unsettled, every batch handles its messages in order and one at a time, every acknowledgement
is invoked at most once, and reported at most once and only if it failed, a drain waits for
every acknowledgement whose task had been created when it was called, the event with which it
ends leaves it with exactly the errors that callbacks have thrown, and when nothing can go on,
everything is done. -/
theorem batch_correct {limit : ℕ} {s : BatchState M} (h : Reachable limit s) :
    (∀ l : List ℕ, l.Nodup → (∀ c ∈ l, s.confirmations.At CallPhase.unsettled c) →
      l.length ≤ limit) ∧
    (∀ (b : ℕ) (x : DeliveryBatch M), s.batches[b]? = some x → BatchCorrect s b x) ∧
    (∀ {b i b' i' c : ℕ}, s.Schedules b i c → s.Schedules b' i' c → b = b' ∧ i = i') ∧
    (∀ c, s.confirmations.invoked.count c = s.confirmations.bit CallPhase.invoked c ∧
      s.confirmations.reported.count c = s.confirmations.bit CallPhase.reported c) ∧
    (∀ d ∈ s.confirmations.drains, ∀ errors, d.outcome = some errors → DrainCorrect s d errors) ∧
    (∀ e s', s.step e = some s' →
      DeliveryConfirmations.ErrorsExact s.confirmations s'.confirmations (thrown e)) ∧
    (s.shared = false → ∀ (b : ℕ) (x : DeliveryBatch M), s.batches[b]? = some x →
      ∀ rejected, x.phase = .finished rejected → OwnCorrect s rejected) ∧
    (Resting s → Complete s) := by
  obtain ⟨hsound, rfl⟩ := sound_of_reachable h
  refine ⟨?_, ?_, ?_, ?_, ?_, ?_, ?_, ?_⟩
  · intro l hl hall
    exact DeliveryConfirmations.unsettled_le hsound.confirmations hl hall
  · intro b x hb
    exact handledBy_of_sound (hsound.batches b x hb)
  · intro b i b' i' c h₁ h₂
    exact hsound.distinct h₁ h₂
  · intro c
    exact ⟨hsound.confirmations.invoked c, hsound.confirmations.reported c⟩
  · intro d hd errors ho
    obtain ⟨hsettled, hthrown, hcomplete⟩ :=
      DeliveryConfirmations.drained_settled hsound.confirmations hd ho
    exact ⟨hsettled, hthrown, hcomplete⟩
  · intro e s' hstep
    exact errorsExact_step hstep
  · intro hown b x hb rejected hphase
    exact own_correct hsound hown hb hphase
  · exact complete_of_resting hsound

end BatchState

namespace BatchState.Sample

/-- A batch of two messages with an object of its own: the acknowledgement of the first fails
and its callback throws, and `handle` throws for the second. -/
def failingBatch : List (BatchEvent ℕ) :=
  [.next 0, .handled 0 .acknowledge, .scheduled 0, .next 0, .handled 0 .threw,
    .confirmations (.acknowledge 0), .confirmations (.settle 0 false),
    .confirmations (.catchError 0 true), .confirmations (.finish 0), .confirmations (.fulfil 0),
    .next 0, .confirmations (.drained 0), .drained 0]

/-- With room for one, the second call of `schedule` waits; `drain` is called, the first
acknowledgement is through, and the second is created. -/
def waitingCall : List (BatchEvent ℕ) :=
  [.confirmations (.schedule 0), .confirmations (.schedule 1), .confirmations .drain,
    .confirmations (.acknowledge 0), .confirmations (.settle 0 true), .confirmations (.finish 0),
    .confirmations (.fulfil 0), .confirmations (.raced 1), .confirmations (.drained 0)]

end BatchState.Sample

namespace BatchState

theorem batch_correct_failing : ∃ s : BatchState ℕ, Reachable 10 s ∧ s.handledBy 0 = [7, 8] ∧
    OwnCorrect s true := by
  have hplay : ((Run.play step (fun _ _ => true) Sample.failingBatch (alone [7, 8])).any
      fun s => !s.shared && (s.handledBy 0 == [7, 8]) &&
        ((s.batches[0]?).any fun x => x.phase == .finished true)) = true := by
    decide +kernel
  have hstart : Start 10 (alone [7, 8]) := .inr ⟨rfl, [7, 8], rfl⟩
  obtain ⟨s, hs, htest⟩ := Run.exists_of_play (fun _ _ _ => trivial) hstart hplay
  rw [Bool.and_eq_true, Bool.and_eq_true, Bool.not_eq_true', beq_iff_eq] at htest
  obtain ⟨⟨hown, hhandled⟩, hphase⟩ := htest
  obtain ⟨x, hb, hx⟩ := (Option.any_eq_true _ _).mp hphase
  obtain ⟨-, -, -, -, -, -, hcorrect, -⟩ := batch_correct hs
  exact ⟨s, hs, hhandled, hcorrect hown 0 x hb true (beq_iff_eq.mp hx)⟩

/-- **A drain does not wait for a call that waits for room**: when it is resolved, an
acknowledgement that was scheduled before it was called has not settled. -/
theorem drain_leaves_waiting : ∃ s : BatchState ℕ, Reachable 1 s ∧
    ∃ d ∈ s.confirmations.drains, d.outcome = some [] ∧
      ∃ c < d.made, ¬ s.confirmations.At CallPhase.settled c := by
  have hplay : ((Run.play step (fun _ _ => true) Sample.waitingCall (share 1)).any
      fun s => s.confirmations.drains.any fun d => d.outcome == some [] && decide (1 < d.made) &&
        !(s.confirmations.phase 1).any CallPhase.settled) = true := by
    decide +kernel
  have hstart : Start 1 (share 1 : BatchState ℕ) := .inl ⟨le_rfl, rfl⟩
  obtain ⟨s, hs, htest⟩ := Run.exists_of_play (fun _ _ _ => trivial) hstart hplay
  obtain ⟨d, hd, hall⟩ := List.any_eq_true.mp htest
  rw [Bool.and_eq_true, Bool.and_eq_true, Bool.not_eq_true', beq_iff_eq, decide_eq_true_eq]
    at hall
  obtain ⟨⟨houtcome, hmade⟩, hsettled⟩ := hall
  refine ⟨s, hs, d, hd, houtcome, 1, hmade, ?_⟩
  rw [DeliveryConfirmations.At, hsettled]
  exact Bool.false_ne_true

end BatchState
