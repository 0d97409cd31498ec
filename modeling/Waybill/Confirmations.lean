/-
# Delivery confirmations (`DeliveryConfirmations` of `worker/src/delivery/message-batch.ts`)

Acknowledgements run beside the deliveries that follow, at most `limit` at a time.  A call of
`schedule` that finds no room waits until a pending one is through, and looks again.

The object is modelled with all calls that were made on it.  An event is one piece of the
code that runs without a pause, so a run is any order in which acknowledgements settle and
callbacks are run.

* `Sound` is the invariant: a call is pending from its acknowledgement being created to its
  `finally`, and what was invoked and reported is where its phase says.
* `drained_settled`: what a `drain` has waited for.
* `errorsExact_step`: a `drain` that ends is rejected with exactly the errors thrown until then.
* `resting_fulfilled`: nothing waits for ever.
-/
import Waybill.Process
import Mathlib.Data.List.Basic

/-- What has become of a call of `schedule`: it waits for one of some tasks, or its task was
created, runs the acknowledgement, runs `onError` after a failure, runs `finally`, and is
fulfilled. -/
inductive CallPhase where
  | waiting (raced : List ℕ)
  | created
  | running
  | failed
  | caught (rejected : Bool)
  | deleted (rejected : Bool)
  | fulfilled (rejected : Bool)
  deriving DecidableEq

namespace CallPhase

/-- The task was created. -/
def hasTask : CallPhase → Bool
  | waiting _ => false
  | _ => true

/-- The task is in `pending`. -/
def held : CallPhase → Bool
  | created | running | failed | caught _ => true
  | _ => false

/-- The acknowledgement was invoked. -/
def invoked : CallPhase → Bool
  | waiting _ | created => false
  | _ => true

/-- The acknowledgement has not settled, but its task was created. -/
def unsettled : CallPhase → Bool
  | created | running => true
  | _ => false

/-- The acknowledgement has settled. -/
def settled : CallPhase → Bool
  | failed | caught _ | deleted _ | fulfilled _ => true
  | _ => false

/-- The failure of the acknowledgement was reported. -/
def reported : CallPhase → Bool
  | caught r | deleted r | fulfilled r => r
  | _ => false

/-- The task is no longer in `pending`. -/
def removed : CallPhase → Bool
  | deleted _ | fulfilled _ => true
  | _ => false

/-- The task is fulfilled. -/
def isFulfilled : CallPhase → Bool
  | fulfilled _ => true
  | _ => false

/-- The acknowledgement has failed. -/
def rejected : CallPhase → Bool
  | failed => true
  | caught r | deleted r | fulfilled r => r
  | _ => false

end CallPhase

/-- A call of `schedule`. -/
structure ScheduleCall (M : Type) where
  message : M
  phase : CallPhase

/-- A call of `drain`: the tasks it waits for, and the errors it was left with in the end,
none if it was resolved.  `made` counts the calls of `schedule` before it, and `admitted` are
those of them whose task had been created. -/
structure DrainCall where
  awaited : List ℕ
  made : ℕ
  admitted : List ℕ
  outcome : Option (List ℕ)

/-- The object, and the calls made on it.  A task is named by the number of its call;
`invoked` and `reported` are the acknowledgements that were invoked and those whose failure
`onError` was called with. -/
structure DeliveryConfirmations (M : Type) where
  limit : ℕ
  pending : List ℕ
  callbackErrors : List ℕ
  calls : List (ScheduleCall M)
  drains : List DrainCall
  invoked : List ℕ
  reported : List ℕ

/-- What can happen next. -/
inductive ConfirmationEvent (M : Type) where
  | schedule (message : M)
  | drain
  | raced (c : ℕ)
  | acknowledge (c : ℕ)
  | settle (c : ℕ) (ok : Bool)
  | catchError (c : ℕ) (throws : Bool)
  | finish (c : ℕ)
  | fulfil (c : ℕ)
  | drained (d : ℕ)

namespace DeliveryConfirmations

variable {M : Type}

/-- `new DeliveryConfirmations(limit)`. -/
def new (limit : ℕ) : DeliveryConfirmations M :=
  { limit := limit, pending := [], callbackErrors := [], calls := [], drains := [], invoked := []
    reported := [] }

/-- The phase of a call. -/
def phase (s : DeliveryConfirmations M) (c : ℕ) : Option CallPhase :=
  (s.calls[c]?).map ScheduleCall.phase

/-- A call goes on. -/
def setPhase (s : DeliveryConfirmations M) (c : ℕ) (p : CallPhase) : DeliveryConfirmations M :=
  { s with
    calls := s.calls.modify c (fun x => { x with
      phase := p }) }

/-- The loop of `schedule`, from its condition on: wait for one of the pending tasks, or
create the task. -/
def enter (s : DeliveryConfirmations M) (c : ℕ) : DeliveryConfirmations M :=
  if s.pending.length ≥ s.limit then s.setPhase c (.waiting s.pending)
  else { s.setPhase c .created with
    pending := s.pending ++ [c] }

/-- `schedule(message, acknowledge, onError)`. -/
def schedule (s : DeliveryConfirmations M) (message : M) : DeliveryConfirmations M :=
  enter { s with
    calls := s.calls ++ [{ message := message, phase := .waiting [] }] } s.calls.length

/-- The calls whose task was created. -/
def admitted (s : DeliveryConfirmations M) : List ℕ :=
  (List.range s.calls.length).filter (fun c => (s.phase c).any CallPhase.hasTask)

/-- `drain()`. -/
def drain (s : DeliveryConfirmations M) : DeliveryConfirmations M :=
  { s with
    drains := s.drains ++ [{ awaited := s.pending, made := s.calls.length
                             admitted := s.admitted, outcome := none }] }

/-- A task is fulfilled. -/
def done (s : DeliveryConfirmations M) (c : ℕ) : Bool := (s.phase c).any CallPhase.isFulfilled

/-- A race is won by a task that is fulfilled. -/
def won (s : DeliveryConfirmations M) (c : ℕ) : Bool :=
  match s.phase c with
  | some (.waiting raced) => raced.any s.done
  | _ => false

/-- What an event does, if it can happen. -/
def step (s : DeliveryConfirmations M) : ConfirmationEvent M → Option (DeliveryConfirmations M)
  | .schedule message => some (s.schedule message)
  | .drain => some s.drain
  | .raced c => if s.won c then some (s.enter c) else none
  | .acknowledge c =>
      -- `.then(acknowledge)`
      if s.phase c = some .created then
        some { s.setPhase c .running with
          invoked := s.invoked ++ [c] }
      else none
  | .settle c ok =>
      if s.phase c = some .running then
        some (s.setPhase c (if ok then .caught false else .failed))
      else none
  | .catchError c throws =>
      -- the callback may throw, which is kept for `drain`
      if s.phase c = some .failed then
        some { s.setPhase c (.caught true) with
          reported := s.reported ++ [c]
          callbackErrors := if throws then s.callbackErrors ++ [c] else s.callbackErrors }
      else none
  | .finish c =>
      -- `finally`: the task leaves the set
      match s.phase c with
      | some (.caught rejected) =>
          some { s.setPhase c (.deleted rejected) with
            pending := s.pending.erase c }
      | _ => none
  | .fulfil c =>
      match s.phase c with
      | some (.deleted rejected) => some (s.setPhase c (.fulfilled rejected))
      | _ => none
  | .drained d =>
      match s.drains[d]? with
      | some call =>
          -- `Promise.all` of the snapshot
          if call.outcome = none ∧ call.awaited.all s.done then
            some { s with
              drains := s.drains.modify d (fun x => { x with
                outcome := some s.callbackErrors }) }
          else none
      | none => none

/-! ## Phases -/

/-- The phases after one call has changed its own. -/
theorem phase_setPhase (s : DeliveryConfirmations M) (c : ℕ) (p : CallPhase) (c' : ℕ) :
    (s.setPhase c p).phase c' =
      if c = c' then (s.phase c').map (fun _ => p) else s.phase c' := by
  unfold phase setPhase
  rw [List.getElem?_modify]
  split_ifs with hc
  · cases s.calls[c']? <;> rfl
  · cases s.calls[c']? <;> rfl

/-- A call that goes on is in its new phase, the others stay in theirs. -/
theorem phase_setPhase_self {s : DeliveryConfirmations M} {c : ℕ} {q : CallPhase}
    (h : s.phase c = some q) (p : CallPhase) : (s.setPhase c p).phase c = some p := by
  rw [phase_setPhase, if_pos rfl, h, Option.map_some]

theorem phase_setPhase_ne (s : DeliveryConfirmations M) {c c' : ℕ} (h : c' ≠ c) (p : CallPhase) :
    (s.setPhase c p).phase c' = s.phase c' := by
  rw [phase_setPhase, if_neg (Ne.symm h)]

theorem phase_eq_none {s : DeliveryConfirmations M} {c : ℕ} (h : s.calls.length ≤ c) :
    s.phase c = none := by
  rw [phase, List.getElem?_eq_none h]
  rfl

theorem lt_of_phase {s : DeliveryConfirmations M} {c : ℕ} {p : CallPhase}
    (h : s.phase c = some p) : c < s.calls.length := by
  by_contra hle
  rw [phase_eq_none (not_lt.mp hle)] at h
  cases h

theorem length_setPhase (s : DeliveryConfirmations M) (c : ℕ) (p : CallPhase) :
    (s.setPhase c p).calls.length = s.calls.length := List.length_modify ..

/-- What a call is when it has entered: it waits for all pending tasks, of which there is no
room for more, or its task is one of them. -/
theorem enter_cases (s : DeliveryConfirmations M) (c : ℕ) :
    (s.limit ≤ s.pending.length ∧ s.enter c = s.setPhase c (.waiting s.pending)) ∨
      (s.pending.length < s.limit ∧ s.enter c = { s.setPhase c .created with
        pending := s.pending ++ [c] }) := by
  unfold enter
  by_cases hroom : s.pending.length ≥ s.limit
  · exact .inl ⟨hroom, if_pos hroom⟩
  · exact .inr ⟨not_le.mp hroom, if_neg hroom⟩

/-! ## How far a call is -/

end DeliveryConfirmations

/-- The phases in their order. -/
def CallPhase.rank : CallPhase → ℕ
  | waiting _ => 0
  | created => 1
  | running => 2
  | failed => 3
  | caught _ => 4
  | deleted _ => 5
  | fulfilled _ => 6

/-- A property of phases that is not lost. -/
def CallPhase.Lasting (f : CallPhase → Bool) : Prop :=
  ∀ p q : CallPhase, p.rank ≤ q.rank → f p = true → f q = true

theorem CallPhase.lasting_hasTask : Lasting hasTask := by
  intro p q hrank hp
  cases p <;> cases q <;> simp_all [rank, hasTask]

theorem CallPhase.lasting_removed : Lasting removed := by
  intro p q hrank hp
  cases p <;> cases q <;> simp_all [rank, removed]

theorem CallPhase.lasting_isFulfilled : Lasting isFulfilled := by
  intro p q hrank hp
  cases p <;> cases q <;> simp_all [rank, isFulfilled]

namespace DeliveryConfirmations

variable {M : Type}

/-- A call is in a phase with a property. -/
def At (s : DeliveryConfirmations M) (f : CallPhase → Bool) (c : ℕ) : Prop :=
  (s.phase c).any f = true

theorem at_of_phase {s : DeliveryConfirmations M} {c : ℕ} {p : CallPhase} {f : CallPhase → Bool}
    (h : s.phase c = some p) : s.At f c ↔ f p = true := by
  rw [At, h, Option.any_some]

theorem phase_of_at {s : DeliveryConfirmations M} {c : ℕ} {f : CallPhase → Bool}
    (h : s.At f c) : ∃ p, s.phase c = some p ∧ f p = true := (Option.any_eq_true _ _).mp h

/-- No call goes back. -/
def Onward (s s' : DeliveryConfirmations M) : Prop :=
  ∀ c p, s.phase c = some p → ∃ q, s'.phase c = some q ∧ p.rank ≤ q.rank

theorem Onward.refl (s : DeliveryConfirmations M) : Onward s s := fun _ p h => ⟨p, h, le_rfl⟩

/-- What lasts is kept as calls go onward. -/
theorem Onward.at {s s' : DeliveryConfirmations M} (h : Onward s s') {f : CallPhase → Bool}
    (hf : CallPhase.Lasting f) {c : ℕ} (hc : s.At f c) : s'.At f c := by
  obtain ⟨p, hp, hfp⟩ := phase_of_at hc
  obtain ⟨q, hq, hrank⟩ := h c p hp
  exact (at_of_phase hq).mpr (hf p q hrank hfp)

/-- A call that goes to a later phase goes onward. -/
theorem onward_setPhase {s : DeliveryConfirmations M} {c : ℕ} {p q : CallPhase}
    (h : s.phase c = some q) (hrank : q.rank ≤ p.rank) : Onward s (s.setPhase c p) := by
  intro c' r hr
  by_cases hc : c' = c
  · subst hc
    obtain rfl := Option.some.inj (h.symm.trans hr)
    exact ⟨p, phase_setPhase_self h p, hrank⟩
  · exact ⟨r, (phase_setPhase_ne s hc p).trans hr, le_rfl⟩

/-! ## The invariant -/

/-- One for a call in a phase with a property. -/
def bit (s : DeliveryConfirmations M) (f : CallPhase → Bool) (c : ℕ) : ℕ :=
  if (s.phase c).any f then 1 else 0

/-- What a call of `drain` knows. -/
structure DrainSound (s : DeliveryConfirmations M) (d : DrainCall) : Prop where
  awaited : ∀ c ∈ d.awaited, s.At CallPhase.hasTask c
  admitted : ∀ c ∈ d.admitted, c ∈ d.awaited ∨ s.At CallPhase.removed c
  ended : ∀ errors, d.outcome = some errors →
    (∀ c ∈ d.awaited, s.At CallPhase.isFulfilled c) ∧
      (∀ c ∈ errors, c ∈ s.callbackErrors) ∧
      ∀ c ∈ s.callbackErrors, c ∈ d.admitted → c ∈ errors

/-- What a waiting call waits for. -/
def RaceSound (s : DeliveryConfirmations M) (c : ℕ) : Prop :=
  ∀ raced, s.phase c = some (.waiting raced) →
    raced ≠ [] ∧ ∀ t ∈ raced, s.At CallPhase.hasTask t

/-- The accounts, but for what the waiting calls wait for. -/
structure Accounts (s : DeliveryConfirmations M) : Prop where
  positive : 1 ≤ s.limit
  bounded : s.pending.length ≤ s.limit
  pending : ∀ c, s.pending.count c = s.bit CallPhase.held c
  invoked : ∀ c, s.invoked.count c = s.bit CallPhase.invoked c
  reported : ∀ c, s.reported.count c = s.bit CallPhase.reported c
  errors : ∀ c ∈ s.callbackErrors, s.At CallPhase.reported c
  drains : ∀ d ∈ s.drains, DrainSound s d

/-- **The invariant.** -/
structure Sound (s : DeliveryConfirmations M) : Prop extends Accounts s where
  races : ∀ c, RaceSound s c

/-- A call counts once, if its phase does. -/
theorem bit_of_phase {s : DeliveryConfirmations M} {c : ℕ} {p : CallPhase}
    (h : s.phase c = some p) (f : CallPhase → Bool) : s.bit f c = if f p then 1 else 0 := by
  rw [bit, h, Option.any_some]

/-- The pending tasks are those that are held. -/
theorem mem_pending {s : DeliveryConfirmations M} (h : Accounts s) {c : ℕ} :
    c ∈ s.pending ↔ s.At CallPhase.held c := by
  rw [← List.count_pos_iff, h.pending c, bit, At]
  split_ifs with hheld
  · simp [hheld]
  · simp [hheld]

/-- What a drain knows stays true. -/
theorem DrainSound.onward {s s' : DeliveryConfirmations M} {d : DrainCall} (h : DrainSound s d)
    (hon : Onward s s') (herrors : s'.callbackErrors = s.callbackErrors) : DrainSound s' d where
  awaited c hc := hon.at CallPhase.lasting_hasTask (h.awaited c hc)
  admitted c hc := (h.admitted c hc).imp_right (hon.at CallPhase.lasting_removed)
  ended errors ho := by
    obtain ⟨hall, hsub, hkept⟩ := h.ended errors ho
    rw [herrors]
    exact ⟨fun c hc => hon.at CallPhase.lasting_isFulfilled (hall c hc), hsub, hkept⟩

/-- A race stays sound while others go on. -/
theorem RaceSound.onward {s s' : DeliveryConfirmations M} {c : ℕ} (h : RaceSound s c)
    (hon : Onward s s') (hphase : ∀ raced, s'.phase c = some (.waiting raced) →
      s.phase c = some (.waiting raced)) : RaceSound s' c := by
  intro raced hraced
  obtain ⟨hne, hall⟩ := h raced (hphase raced hraced)
  exact ⟨hne, fun t ht => hon.at CallPhase.lasting_hasTask (hall t ht)⟩

/-! ## One event -/

/-- How a call counts after one has changed its phase. -/
theorem bit_setPhase {s s' : DeliveryConfirmations M} {c : ℕ} {p q : CallPhase}
    (h : s.phase c = some q) (hcalls : s'.calls = (s.setPhase c p).calls)
    (f : CallPhase → Bool) (c' : ℕ) :
    s'.bit f c' = if c' = c then (if f p then 1 else 0) else s.bit f c' := by
  have hphase : s'.phase c' = (s.setPhase c p).phase c' := by
    unfold phase
    rw [hcalls]
  rw [bit, hphase]
  by_cases hc : c' = c
  · subst hc
    rw [phase_setPhase_self h, Option.any_some, if_pos rfl]
  · rw [phase_setPhase_ne s hc, if_neg hc, bit]

/-- A list that counts one for each call in a phase with a property, after a call has gone
on. -/
def Counts (l l' : List ℕ) (f : CallPhase → Bool) (c : ℕ) (q p : CallPhase) : Prop :=
  ∀ c', l'.count c' + (if c' = c then (if f q then 1 else 0) else 0) =
    l.count c' + (if c' = c then (if f p then 1 else 0) else 0)

theorem counts_same {f : CallPhase → Bool} {q p : CallPhase} (h : f q = f p) (l : List ℕ)
    (c : ℕ) : Counts l l f c q p := by
  intro c'
  rw [h]

theorem counts_append {f : CallPhase → Bool} {q p : CallPhase} (hq : f q = false)
    (hp : f p = true) (l : List ℕ) (c : ℕ) : Counts l (l ++ [c]) f c q p := by
  intro c'
  rw [hq, hp, List.count_append, List.count_singleton]
  by_cases hc : c' = c
  · simp [hc]
  · have hne : (c == c') = false := beq_eq_false_iff_ne.mpr (Ne.symm hc)
    simp [hc, hne]

theorem counts_erase {f : CallPhase → Bool} {q p : CallPhase} (hq : f q = true)
    (hp : f p = false) {l : List ℕ} {c : ℕ} (hmem : c ∈ l) : Counts l (l.erase c) f c q p := by
  have hpos : 0 < l.count c := List.count_pos_iff.mpr hmem
  intro c'
  rw [hq, hp]
  by_cases hc : c' = c
  · subst hc
    rw [List.count_erase_self]
    simp only [if_true, Bool.false_eq_true, if_false]
    omega
  · rw [List.count_erase_of_ne hc]
    simp [hc]

/-- **A call goes on.** -/
theorem accounts_advance {s : DeliveryConfirmations M} (s' : DeliveryConfirmations M)
    (h : Accounts s) {c : ℕ} {q : CallPhase} (p : CallPhase) (hq : s.phase c = some q)
    (hrank : q.rank ≤ p.rank)
    (hcalls : s'.calls = (s.setPhase c p).calls) (hlimit : s'.limit = s.limit)
    (hdrains : s'.drains = s.drains) (hbounded : s'.pending.length ≤ s.limit)
    (hpending : Counts s.pending s'.pending CallPhase.held c q p)
    (hinvoked : Counts s.invoked s'.invoked CallPhase.invoked c q p)
    (hreported : Counts s.reported s'.reported CallPhase.reported c q p)
    (hkept : ∀ x ∈ s.callbackErrors, x ∈ s'.callbackErrors)
    (herrors : ∀ x ∈ s'.callbackErrors, x ∈ s.callbackErrors ∨
      x = c ∧ q = .failed ∧ p = .caught true)
    (hstays : q.reported = true → p.reported = true) : Accounts s' ∧ Onward s s' := by
  have hphase : ∀ c', s'.phase c' = (s.setPhase c p).phase c' := by
    intro c'
    unfold phase
    rw [hcalls]
  have hon : Onward s s' := by
    intro c' r hr
    obtain ⟨r', hr', hle⟩ := onward_setPhase hq hrank c' r hr
    exact ⟨r', (hphase c').trans hr', hle⟩
  -- a list that changes by `c` still counts the calls of its phases
  have hcount : ∀ {l l' : List ℕ} {f : CallPhase → Bool}, (∀ x, l.count x = s.bit f x) →
      Counts l l' f c q p → ∀ x, l'.count x = s'.bit f x := by
    intro l l' f hl hcounts x
    have hx := hcounts x
    have hbit : s'.bit f x = _ := bit_setPhase hq hcalls f x
    rw [hl x] at hx
    by_cases hxc : x = c
    · subst hxc
      rw [bit_of_phase hq f] at hx
      simp only [if_true] at hx hbit
      omega
    · simp only [if_neg hxc] at hx hbit
      omega
  refine ⟨⟨hlimit ▸ h.positive, hlimit ▸ hbounded, hcount h.pending hpending,
    hcount h.invoked hinvoked, hcount h.reported hreported, ?_, ?_⟩, hon⟩
  · intro x hx
    have hself : s'.phase c = some p := (hphase c).trans (phase_setPhase_self hq p)
    -- an error of before, or the one just caught
    rcases herrors x hx with hx | ⟨rfl, -, rfl⟩
    · by_cases hxc : x = c
      · subst hxc
        exact (at_of_phase hself).mpr (hstays ((at_of_phase hq).mp (h.errors x hx)))
      · have hsame : s'.phase x = s.phase x := (hphase x).trans (phase_setPhase_ne s hxc p)
        rw [At, hsame]
        exact h.errors x hx
    · exact (at_of_phase hself).mpr rfl
  · rw [hdrains]
    intro d hd
    have hsound := h.drains d hd
    refine ⟨fun x hx => hon.at CallPhase.lasting_hasTask (hsound.awaited x hx),
      fun x hx => (hsound.admitted x hx).imp_right (hon.at CallPhase.lasting_removed), ?_⟩
    -- a drain that has ended awaited calls that are over for good
    intro errors ho
    obtain ⟨hall, hsub, hlate⟩ := hsound.ended errors ho
    refine ⟨fun x hx => hon.at CallPhase.lasting_isFulfilled (hall x hx),
      fun x hx => hkept x (hsub x hx), ?_⟩
    intro x hx hadmitted
    rcases herrors x hx with hx | ⟨rfl, rfl, -⟩
    · exact hlate x hx hadmitted
    · -- what fails now was not over when the drain was
      have hnot : ∀ f : CallPhase → Bool, f .failed = false → ¬ s.At f x :=
        fun f hf hat => Bool.false_ne_true (hf.symm.trans ((at_of_phase hq).mp hat))
      rcases hsound.admitted x hadmitted with hin | hremoved
      · exact absurd (hall x hin) (hnot _ rfl)
      · exact absurd hremoved (hnot _ rfl)

/-- The other calls wait for what they waited for. -/
theorem races_advance {s s' : DeliveryConfirmations M} {c : ℕ} {p : CallPhase}
    (hraces : ∀ c', c' ≠ c → RaceSound s c') (hon : Onward s s')
    (hcalls : s'.calls = (s.setPhase c p).calls) (hself : RaceSound s' c) :
    ∀ c', RaceSound s' c' := by
  intro c'
  by_cases hc : c' = c
  · exact hc ▸ hself
  · refine (hraces c' hc).onward hon ?_
    intro raced hraced
    have hsame : s'.phase c' = s.phase c' := by
      rw [← phase_setPhase_ne s hc p]
      unfold phase
      rw [hcalls]
    rwa [← hsame]

/-- A call that is no longer waiting. -/
theorem race_of_phase {s s' : DeliveryConfirmations M} {c : ℕ} {q p : CallPhase}
    (hq : s.phase c = some q) (hcalls : s'.calls = (s.setPhase c p).calls)
    (htask : p.hasTask = true) : RaceSound s' c := by
  intro raced hraced
  have hp : s'.phase c = some p := by
    rw [← phase_setPhase_self hq p]
    unfold phase
    rw [hcalls]
  obtain rfl := Option.some.inj (hp.symm.trans hraced)
  cases htask

/-- **Entering**: the call waits again, for tasks of which there is one at least, or its task
finds room. -/
theorem sound_enter {s : DeliveryConfirmations M} (h : Accounts s) {c : ℕ} {raced : List ℕ}
    (hc : s.phase c = some (.waiting raced)) (hraces : ∀ c', c' ≠ c → RaceSound s c') :
    Sound (s.enter c) ∧ Onward s (s.enter c) := by
  rcases enter_cases s c with ⟨hfull, heq⟩ | ⟨hroom, heq⟩
  · rw [heq]
    obtain ⟨haccounts, hon⟩ := accounts_advance (s.setPhase c (.waiting s.pending)) h
      (.waiting s.pending) hc le_rfl rfl rfl rfl h.bounded (counts_same rfl _ _)
      (counts_same rfl _ _) (counts_same rfl _ _) (fun _ hx => hx) (fun _ hx => .inl hx)
      (fun hr => hr)
    refine ⟨⟨haccounts, races_advance hraces hon rfl ?_⟩, hon⟩
    intro tasks htasks
    rw [phase_setPhase_self hc] at htasks
    obtain rfl : s.pending = tasks := by injection Option.some.inj htasks
    have hpositive := h.positive
    refine ⟨List.ne_nil_of_length_pos (by omega), ?_⟩
    intro t ht
    apply hon.at CallPhase.lasting_hasTask
    obtain ⟨p, hp, hheld⟩ := phase_of_at ((mem_pending h).mp ht)
    refine (at_of_phase hp).mpr ?_
    cases p <;> first | rfl | cases hheld
  · rw [heq]
    obtain ⟨haccounts, hon⟩ := accounts_advance { s.setPhase c .created with
        pending := s.pending ++ [c] } h .created hc (Nat.zero_le _) rfl rfl rfl
      (by rw [List.length_append, List.length_singleton]; exact hroom)
      (counts_append rfl rfl _ _) (counts_same rfl _ _) (counts_same rfl _ _)
      (fun _ hx => hx) (fun _ hx => .inl hx) (fun hr => hr)
    exact ⟨⟨haccounts, races_advance hraces hon rfl (race_of_phase hc rfl rfl)⟩, hon⟩

/-- A call that is added, still waiting for nothing. -/
theorem sound_append {s : DeliveryConfirmations M} (h : Sound s) (message : M) :
    ∃ s₁ : DeliveryConfirmations M, s.schedule message = s₁.enter s.calls.length ∧
      Accounts s₁ ∧ s₁.phase s.calls.length = some (.waiting []) ∧ Onward s s₁ ∧
      ∀ c', c' ≠ s.calls.length → RaceSound s₁ c' := by
  refine ⟨{ s with
    calls := s.calls ++ [{ message := message, phase := .waiting [] }] }, rfl, ?_⟩
  generalize hs₁ : ({ s with
    calls := s.calls ++ [{ message := message, phase := .waiting [] }] } :
      DeliveryConfirmations M) = s₁
  -- the calls of before keep their numbers
  have hold : ∀ c, c ≠ s.calls.length → s₁.phase c = s.phase c := by
    intro c hc
    rw [← hs₁, phase, phase]
    simp only
    rcases Nat.lt_or_gt_of_ne hc with hlt | hgt
    · rw [List.getElem?_append_left hlt]
    · rw [List.getElem?_eq_none (by simp; omega), List.getElem?_eq_none (by omega)]
  have hnew : s₁.phase s.calls.length = some (.waiting []) := by
    rw [← hs₁, phase]
    simp only
    rw [List.getElem?_append_right le_rfl, Nat.sub_self]
    rfl
  have hon : Onward s s₁ := by
    intro c p hp
    exact ⟨p, (hold c (ne_of_lt (lt_of_phase hp))).trans hp, le_rfl⟩
  -- a call that waits is counted nowhere
  have hbit : ∀ f : CallPhase → Bool, f (.waiting []) = false → ∀ c, s₁.bit f c = s.bit f c := by
    intro f hf c
    by_cases hc : c = s.calls.length
    · subst hc
      rw [bit_of_phase hnew, bit, phase_eq_none le_rfl, hf]
      rfl
    · rw [bit, bit, hold c hc]
  have hsame : s₁.limit = s.limit ∧ s₁.pending = s.pending ∧ s₁.invoked = s.invoked ∧
      s₁.reported = s.reported ∧ s₁.callbackErrors = s.callbackErrors ∧ s₁.drains = s.drains := by
    rw [← hs₁]
    exact ⟨rfl, rfl, rfl, rfl, rfl, rfl⟩
  obtain ⟨hlimit, hpending, hinvoked, hreported, herrors, hdrains⟩ := hsame
  refine ⟨⟨hlimit ▸ h.positive, ?_, ?_, ?_, ?_, ?_, ?_⟩, hnew, hon, ?_⟩
  · rw [hpending, hlimit]
    exact h.bounded
  · intro c
    rw [hpending, hbit _ rfl]
    exact h.pending c
  · intro c
    rw [hinvoked, hbit _ rfl]
    exact h.invoked c
  · intro c
    rw [hreported, hbit _ rfl]
    exact h.reported c
  · rw [herrors]
    intro c hc
    obtain ⟨p, hp, hr⟩ := phase_of_at (h.errors c hc)
    exact (at_of_phase ((hold c (ne_of_lt (lt_of_phase hp))).trans hp)).mpr hr
  · rw [hdrains]
    intro d hd
    exact (h.drains d hd).onward hon herrors
  · intro c hc
    refine (h.races c).onward hon ?_
    intro raced hraced
    rwa [hold c hc] at hraced

/-- A race was won by a task that is fulfilled. -/
theorem waiting_of_won {s : DeliveryConfirmations M} {c : ℕ} (h : s.won c = true) :
    ∃ raced, s.phase c = some (.waiting raced) ∧ ∃ t ∈ raced, s.At CallPhase.isFulfilled t := by
  unfold won at h
  split at h
  · next raced hc =>
      obtain ⟨t, ht, hdone⟩ := List.any_eq_true.mp h
      exact ⟨raced, hc, t, ht, hdone⟩
  · cases h

/-- A call that goes on and is not waiting keeps the invariant. -/
theorem sound_advance {s : DeliveryConfirmations M} (s' : DeliveryConfirmations M) (h : Sound s)
    {c : ℕ} {q : CallPhase} (p : CallPhase) (hq : s.phase c = some q) (htask : p.hasTask = true)
    (hcalls : s'.calls = (s.setPhase c p).calls)
    (hnext : Accounts s' ∧ Onward s s') : Sound s' ∧ Onward s s' :=
  ⟨⟨hnext.1, races_advance (fun c' _ => h.races c') hnext.2 hcalls
    (race_of_phase hq hcalls htask)⟩, hnext.2⟩

/-- A drain that begins. -/
theorem sound_drain {s : DeliveryConfirmations M} (h : Sound s) : Sound s.drain := by
  refine ⟨⟨h.positive, h.bounded, h.pending, h.invoked, h.reported, h.errors, ?_⟩, h.races⟩
  intro d hd
  rcases List.mem_append.mp hd with hd | hd
  · exact (h.drains d hd).onward (Onward.refl s) rfl
  · obtain rfl := List.mem_singleton.mp hd
    refine ⟨?_, ?_, ?_⟩
    · intro c hc
      obtain ⟨p, hp, hheld⟩ := phase_of_at ((mem_pending h.toAccounts).mp hc)
      refine (at_of_phase hp).mpr ?_
      cases p <;> first | rfl | cases hheld
    · intro c hc
      obtain ⟨p, hp, htask⟩ := phase_of_at (List.mem_filter.mp hc).2
      by_cases hin : c ∈ s.pending
      · exact .inl hin
      · -- a task that is not pending was removed
        refine .inr ((at_of_phase hp).mpr ?_)
        have hheld : ¬ p.held = true := fun hheld =>
          hin ((mem_pending h.toAccounts).mpr ((at_of_phase hp).mpr hheld))
        cases p <;> first | rfl | exact absurd rfl hheld | cases htask
    · intro errors ho
      cases ho

/-- A drain that ends. -/
theorem sound_drained {s : DeliveryConfirmations M} (h : Sound s) {i : ℕ} {d : DrainCall}
    (hd : s.drains[i]? = some d) (hall : d.awaited.all s.done = true) :
    Sound { s with
      drains := s.drains.modify i (fun x => { x with
        outcome := some s.callbackErrors }) } := by
  refine ⟨⟨h.positive, h.bounded, h.pending, h.invoked, h.reported, h.errors, ?_⟩, h.races⟩
  intro d' hd'
  obtain ⟨j, hj⟩ := List.mem_iff_getElem?.mp hd'
  rw [List.getElem?_modify] at hj
  obtain ⟨x, hx, heq⟩ := Option.map_eq_some_iff.mp hj
  have hsound := h.drains x (List.mem_of_getElem? hx)
  by_cases hij : i = j
  · subst hij
    obtain rfl := Option.some.inj (hd.symm.trans hx)
    rw [if_pos rfl] at heq
    subst heq
    refine ⟨hsound.awaited, hsound.admitted, ?_⟩
    intro errors ho
    obtain rfl := Option.some.inj ho
    exact ⟨fun c hc => List.all_eq_true.mp hall c hc, fun c hc => hc, fun c hc _ => hc⟩
  · rw [if_neg hij] at heq
    obtain rfl : x = d' := heq
    exact hsound.onward (Onward.refl s) rfl

/-- **Every event keeps the invariant**, and no call goes back. -/
theorem sound_step {s s' : DeliveryConfirmations M} (h : Sound s) {e : ConfirmationEvent M}
    (hstep : s.step e = some s') : Sound s' ∧ Onward s s' := by
  cases e with
  | schedule message =>
      obtain rfl := Option.some.inj hstep
      obtain ⟨s₁, heq, haccounts, hnew, hon, hraces⟩ := sound_append h message
      obtain ⟨hsound, hon'⟩ := sound_enter haccounts hnew hraces
      rw [heq]
      refine ⟨hsound, ?_⟩
      intro c p hp
      obtain ⟨q, hq, hle⟩ := hon c p hp
      obtain ⟨r, hr, hle'⟩ := hon' c q hq
      exact ⟨r, hr, hle.trans hle'⟩
  | drain =>
      obtain rfl := Option.some.inj hstep
      exact ⟨sound_drain h, Onward.refl s⟩
  | raced c =>
      rw [step] at hstep
      split_ifs at hstep with hwon
      obtain rfl := Option.some.inj hstep
      obtain ⟨raced, hc, -⟩ := waiting_of_won hwon
      exact sound_enter h.toAccounts hc fun c' _ => h.races c'
  | acknowledge c =>
      rw [step] at hstep
      obtain ⟨hc, hstep⟩ := Option.ite_none_right_eq_some.mp hstep
      obtain rfl := Option.some.inj hstep
      refine sound_advance _ h .running hc rfl rfl ?_
      exact accounts_advance _ h.toAccounts .running hc (by decide) rfl rfl rfl h.bounded
        (counts_same rfl _ _) (counts_append rfl rfl _ _) (counts_same rfl _ _)
        (fun _ hx => hx) (fun _ hx => .inl hx) (fun hr => hr)
  | settle c ok =>
      rw [step] at hstep
      obtain ⟨hc, hstep⟩ := Option.ite_none_right_eq_some.mp hstep
      obtain rfl := Option.some.inj hstep
      cases ok with
      | true =>
          refine sound_advance _ h (.caught false) hc rfl rfl ?_
          exact accounts_advance _ h.toAccounts (.caught false) hc (by decide) rfl rfl rfl
            h.bounded (counts_same rfl _ _) (counts_same rfl _ _) (counts_same rfl _ _)
            (fun _ hx => hx) (fun _ hx => .inl hx) (fun hr => hr)
      | false =>
          refine sound_advance _ h .failed hc rfl rfl ?_
          exact accounts_advance _ h.toAccounts .failed hc (by decide) rfl rfl rfl
            h.bounded (counts_same rfl _ _) (counts_same rfl _ _) (counts_same rfl _ _)
            (fun _ hx => hx) (fun _ hx => .inl hx) (fun hr => hr)
  -- the one event that reports a call, and that may add a callback error
  | catchError c throws =>
      rw [step] at hstep
      obtain ⟨hc, hstep⟩ := Option.ite_none_right_eq_some.mp hstep
      obtain rfl := Option.some.inj hstep
      refine sound_advance _ h (.caught true) hc rfl rfl ?_
      refine accounts_advance _ h.toAccounts (.caught true) hc (by decide) rfl rfl rfl
        h.bounded (counts_same rfl _ _) (counts_same rfl _ _) (counts_append rfl rfl _ _)
        ?_ ?_ (fun _ => rfl)
      · intro x hx
        cases throws with
        | true => exact List.mem_append_left _ hx
        | false => exact hx
      · intro x hx
        cases throws with
        | true =>
            rcases List.mem_append.mp hx with hx | hx
            · exact .inl hx
            · exact .inr ⟨List.mem_singleton.mp hx, rfl, rfl⟩
        | false => exact .inl hx
  | finish c =>
      rw [step] at hstep
      split at hstep
      · next rejected hc =>
          obtain rfl := Option.some.inj hstep
          -- its task was in the set, so the set gets smaller
          have hin : c ∈ s.pending := (mem_pending h.toAccounts).mpr ((at_of_phase hc).mpr rfl)
          refine sound_advance _ h (.deleted rejected) hc rfl rfl ?_
          exact accounts_advance _ h.toAccounts (.deleted rejected) hc (Nat.le_succ 4) rfl rfl rfl
            ((List.length_erase_le).trans h.bounded) (counts_erase rfl rfl hin)
            (counts_same rfl _ _) (counts_same rfl _ _)
            (fun _ hx => hx) (fun _ hx => .inl hx) (fun hr => hr)
      · cases hstep
  | fulfil c =>
      rw [step] at hstep
      split at hstep
      · next rejected hc =>
          obtain rfl := Option.some.inj hstep
          refine sound_advance _ h (.fulfilled rejected) hc rfl rfl ?_
          exact accounts_advance _ h.toAccounts (.fulfilled rejected) hc (Nat.le_succ 5) rfl rfl rfl
            h.bounded (counts_same rfl _ _) (counts_same rfl _ _) (counts_same rfl _ _)
            (fun _ hx => hx) (fun _ hx => .inl hx) (fun hr => hr)
      · cases hstep
  | drained i =>
      rw [step] at hstep
      split at hstep
      · next d hd =>
          split_ifs at hstep with hready
          obtain rfl := Option.some.inj hstep
          exact ⟨sound_drained h hd hready.2, Onward.refl s⟩
      · cases hstep

/-- The accounts of a new object are sound. -/
theorem sound_new {limit : ℕ} (h : 1 ≤ limit) : Sound (new limit : DeliveryConfirmations M) := by
  refine ⟨⟨h, Nat.zero_le _, fun _ => rfl, fun _ => rfl, fun _ => rfl, ?_, ?_⟩, ?_⟩
  · intro c hc
    cases hc
  · intro d hd
    cases hd
  · intro c raced hc
    cases hc

/-! ## What follows -/

/-- **At most `limit` acknowledgements are unsettled.** -/
theorem unsettled_le {s : DeliveryConfirmations M} (h : Sound s) {l : List ℕ} (hl : l.Nodup)
    (hall : ∀ c ∈ l, s.At CallPhase.unsettled c) : l.length ≤ s.limit := by
  have hsub : l ⊆ s.pending := by
    intro c hc
    obtain ⟨p, hp, hu⟩ := phase_of_at (hall c hc)
    refine (mem_pending h.toAccounts).mpr ((at_of_phase hp).mpr ?_)
    cases p <;> first | rfl | cases hu
  exact (hl.subperm hsub).length_le.trans h.bounded

/-- **A drain that has ended** has waited for every acknowledgement whose task had been
created when it was called, and knows every error of their callbacks. -/
theorem drained_settled {s : DeliveryConfirmations M} (h : Sound s) {d : DrainCall}
    (hd : d ∈ s.drains) {errors : List ℕ} (ho : d.outcome = some errors) :
    (∀ c ∈ d.admitted, s.At CallPhase.settled c) ∧ (∀ c ∈ errors, c ∈ s.callbackErrors) ∧
      ∀ c ∈ s.callbackErrors, c ∈ d.admitted → c ∈ errors := by
  have hsound := h.drains d hd
  obtain ⟨hall, hsub, hlate⟩ := hsound.ended errors ho
  refine ⟨?_, hsub, hlate⟩
  intro c hc
  rcases hsound.admitted c hc with hin | hremoved
  · obtain ⟨p, hp, hf⟩ := phase_of_at (hall c hin)
    refine (at_of_phase hp).mpr ?_
    cases p <;> first | rfl | cases hf
  · obtain ⟨p, hp, hf⟩ := phase_of_at hremoved
    refine (at_of_phase hp).mpr ?_
    cases p <;> first | rfl | cases hf

/-- A call on the object, as opposed to a piece of one that goes on. -/
def IsCall : ConfirmationEvent M → Prop
  | .schedule _ | .drain => True
  | _ => False

/-- Nothing can go on without a new call. -/
def Resting (s : DeliveryConfirmations M) : Prop := ∀ e, ¬ IsCall e → s.step e = none

/-- A task that rests is fulfilled. -/
theorem fulfilled_of_resting {s : DeliveryConfirmations M} (hrest : Resting s) {c : ℕ}
    {p : CallPhase} (hp : s.phase c = some p) (htask : p.hasTask = true) :
    s.At CallPhase.isFulfilled c := by
  cases p with
  | waiting raced => cases htask
  | created =>
      have hstep := hrest (.acknowledge c) id
      rw [step, if_pos hp] at hstep
      cases hstep
  | running =>
      have hstep := hrest (.settle c true) id
      rw [step, if_pos hp] at hstep
      cases hstep
  | failed =>
      have hstep := hrest (.catchError c false) id
      rw [step, if_pos hp] at hstep
      cases hstep
  | caught r =>
      have hstep := hrest (.finish c) id
      rw [step, hp] at hstep
      cases hstep
  | deleted r =>
      have hstep := hrest (.fulfil c) id
      rw [step, hp] at hstep
      cases hstep
  | fulfilled r => exact (at_of_phase hp).mpr rfl

/-- **Nothing waits for ever**: when nothing can go on, every acknowledgement that was
scheduled has been invoked and is through, and every drain has ended. -/
theorem resting_fulfilled {s : DeliveryConfirmations M} (h : Sound s) (hrest : Resting s) :
    (∀ c < s.calls.length, s.At CallPhase.isFulfilled c) ∧
      ∀ d ∈ s.drains, d.outcome.isSome = true := by
  constructor
  · intro c hc
    obtain ⟨p, hp⟩ : ∃ p, s.phase c = some p := by
      rw [phase, List.getElem?_eq_getElem hc]
      exact ⟨_, rfl⟩
    by_cases htask : p.hasTask = true
    · exact fulfilled_of_resting hrest hp htask
    · -- a waiting call waits for tasks that are all fulfilled
      obtain ⟨raced, rfl⟩ : ∃ raced, p = .waiting raced := by
        cases p with
        | waiting raced => exact ⟨raced, rfl⟩
        | _ => exact absurd rfl htask
      obtain ⟨hne, hall⟩ := h.races c raced hp
      obtain ⟨t, rest, rfl⟩ := List.exists_cons_of_ne_nil hne
      obtain ⟨q, hq, htask'⟩ := phase_of_at (hall t List.mem_cons_self)
      have hdone : s.done t = true := fulfilled_of_resting hrest hq htask'
      have hwon : s.won c = true := by
        unfold won
        rw [hp]
        simp [hdone]
      have hstep := hrest (.raced c) id
      rw [step, if_pos hwon] at hstep
      cases hstep
  · intro d hd
    by_contra hnone
    rw [Bool.not_eq_true, Option.isSome_eq_false_iff, Option.isNone_iff_eq_none] at hnone
    obtain ⟨i, hi⟩ := List.mem_iff_getElem?.mp hd
    have hall : d.awaited.all s.done = true := by
      rw [List.all_eq_true]
      intro c hc
      obtain ⟨q, hq, htask⟩ := phase_of_at ((h.drains d hd).awaited c hc)
      exact fulfilled_of_resting hrest hq htask
    have hstep := hrest (.drained i) id
    rw [step, hi] at hstep
    simp only [hnone, hall, and_self, if_true] at hstep
    cases hstep

/-! ## Messages -/

/-- The message a call was made with. -/
def messageOf (s : DeliveryConfirmations M) (c : ℕ) : Option M :=
  (s.calls[c]?).map ScheduleCall.message

theorem messageOf_setPhase (s : DeliveryConfirmations M) (c : ℕ) (p : CallPhase) (c' : ℕ) :
    (s.setPhase c p).messageOf c' = s.messageOf c' := by
  unfold messageOf setPhase
  rw [List.getElem?_modify]
  cases s.calls[c']? with
  | none => rfl
  | some x =>
      simp only [Option.map_some]
      split_ifs <;> rfl

theorem messageOf_enter (s : DeliveryConfirmations M) (c c' : ℕ) :
    (s.enter c).messageOf c' = s.messageOf c' := by
  rcases enter_cases s c with ⟨-, heq⟩ | ⟨-, heq⟩
  · rw [heq, messageOf_setPhase]
  · rw [heq]
    exact messageOf_setPhase s c .created c'

theorem length_enter (s : DeliveryConfirmations M) (c : ℕ) :
    (s.enter c).calls.length = s.calls.length := by
  rcases enter_cases s c with ⟨-, heq⟩ | ⟨-, heq⟩
  · rw [heq, length_setPhase]
  · rw [heq]
    exact length_setPhase s c .created

/-- A call that is made keeps its message, and the others theirs. -/
theorem messageOf_schedule (s : DeliveryConfirmations M) (message : M) (c : ℕ) :
    (s.schedule message).messageOf c =
      if c = s.calls.length then some message else s.messageOf c := by
  unfold schedule
  rw [messageOf_enter, messageOf, messageOf]
  simp only
  rcases Nat.lt_trichotomy c s.calls.length with hlt | rfl | hgt
  · rw [List.getElem?_append_left hlt, if_neg (ne_of_lt hlt)]
  · rw [List.getElem?_append_right le_rfl, Nat.sub_self, if_pos rfl]
    rfl
  · rw [List.getElem?_eq_none (by simp; omega), List.getElem?_eq_none (by omega),
      if_neg (ne_of_gt hgt)]

theorem length_schedule (s : DeliveryConfirmations M) (message : M) :
    (s.schedule message).calls.length = s.calls.length + 1 := by
  unfold schedule
  rw [length_enter]
  exact List.length_append

theorem drains_enter (s : DeliveryConfirmations M) (c : ℕ) : (s.enter c).drains = s.drains := by
  rcases enter_cases s c with ⟨-, heq⟩ | ⟨-, heq⟩
  · rw [heq]
    rfl
  · rw [heq]
    rfl

/-- What an event leaves: messages stay, and so does what a drain has seen and how it has
ended. -/
structure Kept (s s' : DeliveryConfirmations M) : Prop where
  limit : s'.limit = s.limit
  messages : ∀ c m, s.messageOf c = some m → s'.messageOf c = some m
  drains : ∀ d ∈ s.drains, ∃ d' ∈ s'.drains, d'.made = d.made ∧ d'.admitted = d.admitted ∧
    ∀ errors, d.outcome = some errors → d'.outcome = some errors
  length : s.drains.length ≤ s'.drains.length

/-- Nothing is called: the calls and the drains are those there were. -/
structure Quiet (s s' : DeliveryConfirmations M) : Prop where
  calls : s'.calls.length = s.calls.length
  drains : ∀ d' ∈ s'.drains, ∃ d ∈ s.drains, d'.made = d.made ∧ d'.admitted = d.admitted

theorem lt_of_messageOf {s : DeliveryConfirmations M} {c : ℕ} {m : M}
    (h : s.messageOf c = some m) : c < s.calls.length := by
  by_contra hle
  rw [messageOf, List.getElem?_eq_none (not_lt.mp hle)] at h
  cases h

/-- Drains that are not touched. -/
theorem drains_kept {s s' : DeliveryConfirmations M} (h : s'.drains = s.drains) :
    ∀ d ∈ s.drains, ∃ d' ∈ s'.drains, d'.made = d.made ∧ d'.admitted = d.admitted ∧
      ∀ errors, d.outcome = some errors → d'.outcome = some errors := by
  intro d hd
  exact ⟨d, h ▸ hd, rfl, rfl, fun _ ho => ho⟩

theorem limit_enter (s : DeliveryConfirmations M) (c : ℕ) : (s.enter c).limit = s.limit := by
  rcases enter_cases s c with ⟨-, heq⟩ | ⟨-, heq⟩
  · rw [heq]
    rfl
  · rw [heq]
    rfl

theorem kept_schedule (s : DeliveryConfirmations M) (message : M) :
    Kept s (s.schedule message) := by
  have hdrains : (s.schedule message).drains = s.drains := drains_enter _ _
  refine ⟨?_, ?_, drains_kept hdrains, hdrains ▸ le_rfl⟩
  · unfold schedule
    rw [limit_enter]
  · intro c m hm
    rw [messageOf_schedule, if_neg (ne_of_lt (lt_of_messageOf hm)), hm]

theorem kept_drain (s : DeliveryConfirmations M) : Kept s s.drain :=
  ⟨rfl, fun _ _ hm => hm,
    fun d hd => ⟨d, List.mem_append_left _ hd, rfl, rfl, fun _ ho => ho⟩,
    List.length_append ▸ Nat.le_add_right _ _⟩

/-- A call that goes on leaves the rest. -/
theorem kept_setPhase {s o : DeliveryConfirmations M} {c : ℕ} {p : CallPhase}
    (hlimit : o.limit = s.limit) (hcalls : o.calls = (s.setPhase c p).calls)
    (hdrains : o.drains = s.drains) : Kept s o ∧ Quiet s o := by
  refine ⟨⟨hlimit, ?_, drains_kept hdrains, hdrains ▸ le_rfl⟩, ?_, ?_⟩
  · intro c' m hm
    rw [← messageOf_setPhase s c p] at hm
    unfold messageOf at hm ⊢
    rwa [hcalls]
  · rw [hcalls, length_setPhase]
  · rw [hdrains]
    exact fun d hd => ⟨d, hd, rfl, rfl⟩

/-- A drain that ends was not over before, and keeps what it has seen. -/
theorem kept_drained {s : DeliveryConfirmations M} {i : ℕ} {d : DrainCall}
    (hd : s.drains[i]? = some d) (hnone : d.outcome = none) (errors : List ℕ) :
    Kept s { s with
      drains := s.drains.modify i (fun x => { x with
        outcome := some errors }) } ∧
    Quiet s { s with
      drains := s.drains.modify i (fun x => { x with
        outcome := some errors }) } := by
  refine ⟨⟨rfl, fun _ _ hm => hm, ?_, (List.length_modify ..).ge⟩, rfl, ?_⟩
  · intro d₀ hd₀
    obtain ⟨j, hj⟩ := List.mem_iff_getElem?.mp hd₀
    by_cases hij : i = j
    · subst hij
      obtain rfl := Option.some.inj (hd.symm.trans hj)
      refine ⟨{ d with outcome := some errors }, ?_, rfl, rfl, ?_⟩
      · refine List.mem_of_getElem? (i := i) ?_
        rw [List.getElem?_modify, hd]
        simp
      · intro errors' ho
        rw [hnone] at ho
        cases ho
    · refine ⟨d₀, List.mem_of_getElem? (i := j) ?_, rfl, rfl, fun _ ho => ho⟩
      rw [List.getElem?_modify, hj]
      simp [hij]
  · intro d' hd'
    obtain ⟨j, hj⟩ := List.mem_iff_getElem?.mp hd'
    rw [List.getElem?_modify] at hj
    obtain ⟨x, hx, heq⟩ := Option.map_eq_some_iff.mp hj
    refine ⟨x, List.mem_of_getElem? hx, ?_⟩
    by_cases hij : i = j
    · rw [if_pos hij] at heq
      subst heq
      exact ⟨rfl, rfl⟩
    · rw [if_neg hij] at heq
      subst heq
      exact ⟨rfl, rfl⟩

/-- **What an event that is no call leaves.** -/
theorem quiet_step {s s' : DeliveryConfirmations M} {e : ConfirmationEvent M} (he : ¬ IsCall e)
    (hstep : s.step e = some s') : Kept s s' ∧ Quiet s s' := by
  cases e with
  | schedule message => exact absurd trivial he
  | drain => exact absurd trivial he
  -- the loop looks again, and may create the task now
  | raced c =>
      obtain ⟨-, hstep⟩ := Option.ite_none_right_eq_some.mp hstep
      obtain rfl := Option.some.inj hstep
      have hdrains := drains_enter s c
      refine ⟨⟨limit_enter s c, fun c' m hm => (messageOf_enter s c c').trans hm,
        drains_kept hdrains, hdrains ▸ le_rfl⟩, length_enter s c, ?_⟩
      rw [hdrains]
      exact fun d hd => ⟨d, hd, rfl, rfl⟩
  | acknowledge c =>
      obtain ⟨-, hstep⟩ := Option.ite_none_right_eq_some.mp hstep
      obtain rfl := Option.some.inj hstep
      exact kept_setPhase rfl rfl rfl
  | settle c ok =>
      obtain ⟨-, hstep⟩ := Option.ite_none_right_eq_some.mp hstep
      obtain rfl := Option.some.inj hstep
      exact kept_setPhase rfl rfl rfl
  | catchError c throws =>
      obtain ⟨-, hstep⟩ := Option.ite_none_right_eq_some.mp hstep
      obtain rfl := Option.some.inj hstep
      exact kept_setPhase rfl rfl rfl
  | finish c =>
      rw [step] at hstep
      split at hstep
      · obtain rfl := Option.some.inj hstep
        exact kept_setPhase rfl rfl rfl
      · cases hstep
  | fulfil c =>
      rw [step] at hstep
      split at hstep
      · obtain rfl := Option.some.inj hstep
        exact kept_setPhase rfl rfl rfl
      · cases hstep
  | drained i =>
      rw [step] at hstep
      split at hstep
      · next d hd =>
          obtain ⟨hready, hstep⟩ := Option.ite_none_right_eq_some.mp hstep
          obtain rfl := Option.some.inj hstep
          exact kept_drained hd hready.1 _
      · cases hstep

/-- **A step leaves the calls their messages**, and the object its limit. -/
theorem kept_step {s s' : DeliveryConfirmations M} {e : ConfirmationEvent M}
    (hstep : s.step e = some s') : Kept s s' := by
  cases e with
  | schedule message =>
      obtain rfl := Option.some.inj hstep
      exact kept_schedule s message
  | drain =>
      obtain rfl := Option.some.inj hstep
      exact kept_drain s
  | _ => exact (quiet_step id hstep).1

/-! ## The errors of the callbacks -/

/-- The call whose error callback throws in an event, if one does. -/
def thrown : ConfirmationEvent M → List ℕ
  | .catchError c true => [c]
  | _ => []

/-- What an event does to the errors: those that callbacks throw are added to the others, and a
drain that ends is left with exactly the errors that have been thrown until then. -/
structure ErrorsExact (s s' : DeliveryConfirmations M) (added : List ℕ) : Prop where
  errors : s'.callbackErrors = s.callbackErrors ++ added
  ended : ∀ (i : ℕ) (d : DrainCall) (errors : List ℕ), s'.drains[i]? = some d →
    d.outcome = some errors →
    (∃ d₀, s.drains[i]? = some d₀ ∧ d₀.outcome = some errors) ∨ errors = s'.callbackErrors

/-- An event that adds no error and leaves the drains. -/
theorem ErrorsExact.same {s s' : DeliveryConfirmations M}
    (herrors : s'.callbackErrors = s.callbackErrors) (hdrains : s'.drains = s.drains) :
    ErrorsExact s s' [] := by
  refine ⟨herrors.trans (List.append_nil _).symm, fun i d errors hd ho => .inl ⟨d, ?_, ho⟩⟩
  rw [← hdrains]
  exact hd

theorem errors_enter (s : DeliveryConfirmations M) (c : ℕ) :
    (s.enter c).callbackErrors = s.callbackErrors := by
  rcases enter_cases s c with ⟨-, heq⟩ | ⟨-, heq⟩
  · rw [heq]
    rfl
  · rw [heq]
    rfl

theorem errorsExact_schedule (s : DeliveryConfirmations M) (message : M) :
    ErrorsExact s (s.schedule message) [] :=
  .same (errors_enter _ _) (drains_enter _ _)

/-- A drain that begins has not ended. -/
theorem errorsExact_drain (s : DeliveryConfirmations M) : ErrorsExact s s.drain [] := by
  refine ⟨(List.append_nil _).symm, fun i d errors hd ho => ?_⟩
  change (s.drains ++ [_])[i]? = some d at hd
  rcases Nat.lt_or_ge i s.drains.length with hlt | hge
  · rw [List.getElem?_append_left hlt] at hd
    exact .inl ⟨d, hd, ho⟩
  · rw [List.getElem?_append_right hge] at hd
    obtain rfl := List.mem_singleton.mp (List.mem_of_getElem? hd)
    cases ho

/-- A drain that ends takes the errors there are. -/
theorem errorsExact_drained (s : DeliveryConfirmations M) (i : ℕ) :
    ErrorsExact s { s with
      drains := s.drains.modify i (fun x => { x with
        outcome := some s.callbackErrors }) } [] := by
  refine ⟨(List.append_nil _).symm, fun j d errors hd ho => ?_⟩
  rw [List.getElem?_modify] at hd
  obtain ⟨x, hx, heq⟩ := Option.map_eq_some_iff.mp hd
  by_cases hij : i = j
  · rw [if_pos hij] at heq
    subst heq
    exact .inr (Option.some.inj ho).symm
  · rw [if_neg hij] at heq
    subst heq
    exact .inl ⟨_, hx, ho⟩

/-- **What an event does to the errors.** -/
theorem errorsExact_step {s s' : DeliveryConfirmations M} {e : ConfirmationEvent M}
    (hstep : s.step e = some s') : ErrorsExact s s' (thrown e) := by
  cases e with
  | schedule message =>
      obtain rfl := Option.some.inj hstep
      exact errorsExact_schedule s message
  | drain =>
      obtain rfl := Option.some.inj hstep
      exact errorsExact_drain s
  | raced c =>
      obtain ⟨-, hstep⟩ := Option.ite_none_right_eq_some.mp hstep
      obtain rfl := Option.some.inj hstep
      exact .same (errors_enter s c) (drains_enter s c)
  | acknowledge c =>
      obtain ⟨-, hstep⟩ := Option.ite_none_right_eq_some.mp hstep
      obtain rfl := Option.some.inj hstep
      exact .same rfl rfl
  | settle c ok =>
      obtain ⟨-, hstep⟩ := Option.ite_none_right_eq_some.mp hstep
      obtain rfl := Option.some.inj hstep
      exact .same rfl rfl
  | catchError c throws =>
      obtain ⟨-, hstep⟩ := Option.ite_none_right_eq_some.mp hstep
      obtain rfl := Option.some.inj hstep
      cases throws with
      | false => exact .same rfl rfl
      | true => exact ⟨rfl, fun i d errors hd ho => .inl ⟨d, hd, ho⟩⟩
  | finish c =>
      rw [step] at hstep
      split at hstep
      · obtain rfl := Option.some.inj hstep
        exact .same rfl rfl
      · cases hstep
  | fulfil c =>
      rw [step] at hstep
      split at hstep
      · obtain rfl := Option.some.inj hstep
        exact .same rfl rfl
      · cases hstep
  | drained i =>
      rw [step] at hstep
      split at hstep
      · obtain ⟨-, hstep⟩ := Option.ite_none_right_eq_some.mp hstep
        obtain rfl := Option.some.inj hstep
        exact errorsExact_drained s i
      · cases hstep

end DeliveryConfirmations
