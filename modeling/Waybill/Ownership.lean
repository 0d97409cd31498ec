/-
# Ownership is never overstated

What `VisibilityLeases` believes about a receipt is compared with what the queue does.  A
receipt is tracked with the time of its arrival, up to five seconds after the queue began to
hide the message; a renewal is counted from the time before it was sent, so the queue hides
the message at least as long.  `Honest` relates every entry to the queue's deadline, and the
five seconds of `isCurrent` are what the first kind of entry is late
(`hidden_of_isCurrent`).
-/
import Waybill.Visibility

namespace LeaseState

/-- What is taken for granted of a step: a receive comes back within five seconds, and the
queue confirms what it has renewed.  What a request that hides or deletes a message does at
the queue is not part of these runs. -/
def Assumed (s : LeaseState) : LeaseEvent → Prop
  | .track receipt => ∃ t, s.servedAt receipt = some t ∧ s.clock ≤ t + 5000
  | .answer call (.confirmed receipts) _ _ =>
      ∀ c, s.calls[call]? = some c →
        ∀ r ∈ c.batch.map Prod.fst, r ∈ receipts → r ∈ c.renewed
  | .issue _ => False
  | _ => True

/-- No entry outlives the queue's deadline by more than five seconds. -/
def Covers (hiddenUntil : JsString → ℚ) (receipts : JsMap JsString LeaseEntry) : Prop :=
  ∀ r e, receipts.get r = some e → e.expiresAt = 0 ∨ e.expiresAt ≤ hiddenUntil r + 5000

/-- The entries, the calls and the queue agree. -/
structure Honest (s : LeaseState) : Prop where
  clock : 0 ≤ s.clock
  hidden : ∀ r, s.hiddenUntil r ≤ s.clock + 30000
  served : ∀ r t, s.servedAt r = some t → t + 30000 ≤ s.hiddenUntil r
  covers : Covers s.hiddenUntil s.leases.receipts
  renewed : ∀ (i : ℕ) (c : RenewCall), s.calls[i]? = some c → c.startedAt ≤ s.clock ∧
    ∀ r ∈ c.renewed, c.startedAt + 30000 ≤ s.hiddenUntil r

namespace Covers

variable {hiddenUntil : JsString → ℚ} {receipts : JsMap JsString LeaseEntry}

theorem empty : Covers hiddenUntil JsMap.empty := by
  intro r e he
  exact nomatch he

/-- A later deadline covers what the earlier one did. -/
theorem mono (h : Covers hiddenUntil receipts) {hiddenUntil' : JsString → ℚ}
    (hle : ∀ r, hiddenUntil r ≤ hiddenUntil' r) : Covers hiddenUntil' receipts := by
  intro r e he
  rcases h r e he with h₀ | h₁
  · exact .inl h₀
  · exact .inr (by linarith [hle r])

theorem set (h : Covers hiddenUntil receipts) {receipt : JsString} {entry : LeaseEntry}
    (hentry : entry.expiresAt ≤ hiddenUntil receipt + 5000) :
    Covers hiddenUntil (receipts.set receipt entry) := by
  intro r e he
  by_cases hr : r = receipt
  · subst hr
    rw [JsMap.get_set_self] at he
    exact .inr (Option.some.inj he ▸ hentry)
  · rw [JsMap.get_set_ne receipts hr] at he
    exact h r e he

theorem delete (h : Covers hiddenUntil receipts) (receipt : JsString) :
    Covers hiddenUntil (receipts.delete receipt) := by
  intro r e he
  by_cases hr : r = receipt
  · rw [hr, JsMap.get_delete_self] at he
    exact nomatch he
  · rw [JsMap.get_delete_ne receipts hr] at he
    exact h r e he

/-- A loop over a batch that writes covered times only. -/
theorem setExpiries (h : Covers hiddenUntil receipts) {t : JsString → ℚ}
    {batch : List (JsString × LeaseEntry)}
    (ht : ∀ r ∈ batch.map Prod.fst, t r = 0 ∨ t r ≤ hiddenUntil r + 5000) :
    Covers hiddenUntil (VisibilityLeases.setExpiries t batch receipts) := by
  intro r e' he'
  obtain ⟨e, he, rfl | ⟨hmem, htime⟩⟩ := VisibilityLeases.get_setExpiries he'
  · exact h r e' he
  · rw [htime]
    exact ht r hmem

end Covers

/-! ## The steps -/

namespace Honest

variable {s : LeaseState}

/-- The queue hides a message anew: from now on, and so at least as long as before. -/
theorem hidden_update (h : Honest s) (receipt r : JsString) :
    s.hiddenUntil r ≤ Function.update s.hiddenUntil receipt (s.clock + 30000) r := by
  by_cases hr : r = receipt
  · rw [hr, Function.update_self]
    exact h.hidden receipt
  · rw [Function.update_of_ne hr]

/-- A renewal hides a message for thirty seconds. -/
theorem hidden_update_le (h : Honest s) (receipt r : JsString) :
    Function.update s.hiddenUntil receipt (s.clock + 30000) r ≤ s.clock + 30000 := by
  by_cases hr : r = receipt
  · rw [hr, Function.update_self]
  · rw [Function.update_of_ne hr]
    exact h.hidden r

theorem tick (h : Honest s) {t : ℚ} (ht : s.clock ≤ t) :
    Honest { s with
      clock := t } where
  clock := le_trans h.clock ht
  hidden := fun r => le_trans (h.hidden r) (by linarith)
  served := h.served
  covers := h.covers
  renewed := fun i c hc => ⟨le_trans (h.renewed i c hc).1 ht, (h.renewed i c hc).2⟩

theorem serve (h : Honest s) (receipt : JsString) : Honest (s.serve receipt) where
  clock := h.clock
  hidden := h.hidden_update_le receipt
  served := by
    intro r t ht
    by_cases hr : r = receipt
    · subst hr
      have ht : Function.update s.servedAt r (some s.clock) r = some t := ht
      rw [Function.update_self] at ht
      show t + 30000 ≤ Function.update s.hiddenUntil r (s.clock + 30000) r
      rw [Function.update_self, Option.some.inj ht]
    · have ht : Function.update s.servedAt receipt (some s.clock) r = some t := ht
      rw [Function.update_of_ne hr] at ht
      exact le_trans (h.served r t ht) (h.hidden_update receipt r)
  covers := h.covers.mono (h.hidden_update receipt)
  renewed := fun i c hc => ⟨(h.renewed i c hc).1, fun r hr =>
    le_trans ((h.renewed i c hc).2 r hr) (h.hidden_update receipt r)⟩

/-- The call was sent before, so what it counts is not more than the queue gives. -/
theorem renew (h : Honest s) (call : ℕ) (receipt : JsString) :
    Honest (s.renew call receipt) where
  clock := h.clock
  hidden := h.hidden_update_le receipt
  served := fun r t ht => le_trans (h.served r t ht) (h.hidden_update receipt r)
  covers := h.covers.mono (h.hidden_update receipt)
  renewed := by
    intro i c' hc'
    obtain ⟨c, hc, hcase⟩ := List.getElem?_modify_some hc'
    obtain ⟨hstarted, hrenewed⟩ := h.renewed i c hc
    have hold : ∀ r ∈ c.renewed, c.startedAt + 30000 ≤ (s.renew call receipt).hiddenUntil r :=
      fun r hr => le_trans (hrenewed r hr) (h.hidden_update receipt r)
    rcases hcase with rfl | ⟨-, rfl⟩
    · exact ⟨hstarted, hold⟩
    · refine ⟨hstarted, fun r hr => ?_⟩
      rcases List.mem_cons.mp hr with rfl | hr
      · show c.startedAt + 30000 ≤ Function.update s.hiddenUntil r (s.clock + 30000) r
        rw [Function.update_self]
        linarith
      · exact hold r hr

/-- The entry counts from the arrival, at most five seconds after the queue does. -/
theorem track (h : Honest s) {receipt : JsString} {t : ℚ} (ht : s.servedAt receipt = some t)
    (hlate : s.clock ≤ t + 5000) : Honest (s.track receipt) where
  clock := h.clock
  hidden := h.hidden
  served := h.served
  covers := h.covers.set (by
    have hserved := h.served receipt t ht
    show s.clock + 30000 ≤ s.hiddenUntil receipt + 5000
    linarith)
  renewed := h.renewed

/-- What the worker only does to itself: entries may go, and nothing else is touched. -/
theorem of_same (h : Honest s) {s' : LeaseState} (hclock : s'.clock = s.clock)
    (hhidden : s'.hiddenUntil = s.hiddenUntil) (hserved : s'.servedAt = s.servedAt)
    (hcalls : s'.calls = s.calls)
    (hcovers : Covers s.hiddenUntil s'.leases.receipts) : Honest s' where
  clock := hclock ▸ h.clock
  hidden := fun r => by rw [hhidden, hclock]; exact h.hidden r
  served := fun r t ht => by
    rw [hserved] at ht
    rw [hhidden]
    exact h.served r t ht
  covers := hhidden ▸ hcovers
  renewed := fun i c hc => by
    rw [hcalls] at hc
    rw [hclock, hhidden]
    exact h.renewed i c hc

theorem renewNow (h : Honest s) : Honest s.renewNow := by
  unfold LeaseState.renewNow
  split
  · exact h
  · exact h.of_same rfl rfl rfl rfl h.covers

/-- A call that is sent counts from now. -/
theorem goOn (h : Honest s) (w : Sweep) : Honest (s.goOn w) := by
  unfold LeaseState.goOn
  split
  · exact h.of_same rfl rfl rfl rfl h.covers
  · exact h.of_same rfl rfl rfl rfl h.covers
  · refine ⟨h.clock, h.hidden, h.served, h.covers, ?_⟩
    intro i c hc
    rcases List.mem_append.mp (List.mem_of_getElem? hc) with hold | hnew
    · obtain ⟨j, hj⟩ := List.mem_iff_getElem?.mp hold
      exact h.renewed j c hj
    · obtain rfl := List.mem_singleton.mp hnew
      exact ⟨le_rfl, fun r hr => nomatch hr⟩

/-- The times a call writes when it ends are covered. -/
theorem covers_receive (h : Honest s) {call : ℕ} {c : RenewCall} (hc : s.calls[call]? = some c)
    {reply : Reply} {tryThrows catchThrows : Bool}
    (hok : Assumed s (.answer call reply tryThrows catchThrows)) :
    Covers s.hiddenUntil (s.leases.receive c tryThrows reply).receipts := by
  have hinvalid : ∀ {v : VisibilityLeases}, Covers s.hiddenUntil v.receipts →
      Covers s.hiddenUntil (v.invalidate c.batch).receipts :=
    fun hv => hv.setExpiries (fun _ _ => .inl rfl)
  cases reply with
  | failed => exact hinvalid h.covers
  | confirmed receipts =>
      have hconfirm : Covers s.hiddenUntil
          (s.leases.confirm c.batch c.startedAt receipts).receipts := by
        apply h.covers.setExpiries
        intro r hr
        split_ifs with hmem
        · have := (h.renewed call c hc).2 r (hok c hc r hr hmem)
          exact .inr (by linarith)
        · exact .inl rfl
      dsimp only [VisibilityLeases.receive]
      split
      · exact hinvalid hconfirm
      · exact hconfirm

theorem answer (h : Honest s) {call : ℕ} {c : RenewCall} (hc : s.calls[call]? = some c)
    {reply : Reply} {tryThrows catchThrows : Bool}
    (hok : Assumed s (.answer call reply tryThrows catchThrows)) :
    Honest (s.answer call c reply tryThrows catchThrows) := by
  refine ⟨h.clock, h.hidden, h.served, h.covers_receive hc hok, ?_⟩
  intro i c₁ hc₁
  obtain ⟨c₀, hc₀, rfl | ⟨-, rfl⟩⟩ := List.getElem?_modify_some hc₁
  · exact h.renewed i c₁ hc₀
  · exact h.renewed i c₀ hc₀

theorem release (h : Honest s) (receipt : JsString) : Honest (s.release receipt) :=
  h.of_same rfl rfl rfl rfl (h.covers.delete receipt)

theorem resolve (h : Honest s) (wait : ℕ) (w : Wait) : Honest (s.resolve wait w) := by
  refine h.of_same rfl rfl rfl rfl ?_
  unfold LeaseState.resolve
  dsimp only
  split
  · exact Covers.empty
  · exact h.covers

theorem foldl_release (h : Honest s) (receipts : List JsString) :
    Honest (receipts.foldl LeaseState.release s) := by
  induction receipts generalizing s with
  | nil => exact h
  | cons r rest ih => exact ih (h.release r)

/-- **Every step keeps the agreement.** -/
theorem next (h : Honest s) {e : LeaseEvent} (henabled : s.enabled e = true)
    (hok : Assumed s e) : Honest (s.next e) := by
  cases e with
  | tick t => exact h.tick (of_decide_eq_true henabled)
  | serve receipt => exact h.serve receipt
  | renew call receipt => exact h.renew call receipt
  | track receipt =>
      obtain ⟨t, ht, hlate⟩ := hok
      exact h.track ht hlate
  | renewNow => exact h.renewNow
  | sweep =>
      show Honest ((s.sweep.map s.goOn).getD s)
      cases s.sweep with
      | none => exact h
      | some w => exact h.goOn w
  | answer call reply tryThrows catchThrows =>
      show Honest ((s.calls[call]?.map fun c => _).getD s)
      cases hc : s.calls[call]? with
      | none => exact h
      | some c => exact h.answer hc hok
  | settle => exact h.of_same rfl rfl rfl rfl h.covers
  | release receipt => exact h.release receipt
  | stop => exact h.of_same rfl rfl rfl rfl h.covers
  | resolve wait =>
      show Honest ((s.waits[wait]?.map (s.resolve wait)).getD s)
      cases s.waits[wait]? with
      | none => exact h
      | some w => exact h.resolve wait w
  | operate kind =>
      have hrel := h.foldl_release kind.receipts
      exact hrel.of_same rfl rfl rfl rfl hrel.covers
  | issue operation => exact hok.elim

end Honest

/-- A start is honest. -/
theorem Start.honest {s : LeaseState} (h : Start s) : Honest s where
  clock := h.clock
  hidden := h.hiddenUntil
  served := fun r t ht => nomatch (h.servedAt r).symm.trans ht
  covers := by
    rw [h.leases]
    exact Covers.empty
  renewed := fun i c hc => by
    rw [h.calls] at hc
    exact nomatch hc

/-! ## Ownership -/

/-- **Ownership is never overstated**: in every interleaving, whenever `isCurrent` holds of a
receipt, the queue still hides its message. -/
theorem hidden_of_isCurrent {s : LeaseState} (h : Run Start step Assumed s)
    {receipt : JsString} (hcurrent : s.leases.isCurrent receipt s.clock = true) :
    s.clock < s.hiddenUntil receipt := by
  have hs : Honest s := h.invariant (I := Honest) (fun _ h₀ => h₀.honest)
    (fun s e s' hi hok hstep => by
      obtain ⟨henabled, rfl⟩ := step_eq_some.mp hstep
      exact hi.next henabled hok)
  have hlt : s.clock + 5000 < ((s.leases.receipts.get receipt).map LeaseEntry.expiresAt).getD 0 :=
    of_decide_eq_true hcurrent
  have hclock := hs.clock
  -- an entry that is gone, or whose expiry is unknown, is not current
  cases he : s.leases.receipts.get receipt with
  | none =>
      rw [he] at hlt
      have : s.clock + 5000 < 0 := hlt
      linarith
  | some e =>
      rw [he] at hlt
      have hexpires : s.clock + 5000 < e.expiresAt := hlt
      rcases hs.covers receipt e he with h₀ | h₁
      · linarith
      · linarith

/-- The assumptions, as a check. -/
def assumed (s : LeaseState) : LeaseEvent → Bool
  | .track receipt => (s.servedAt receipt).any (fun t => decide (s.clock ≤ t + 5000))
  | .answer call (.confirmed receipts) _ _ =>
      (s.calls[call]?).all (fun c => (c.batch.map Prod.fst).all
        (fun r => !receipts.contains r || c.renewed.contains r))
  | .issue _ => false
  | _ => true

theorem assumed_of_check {s : LeaseState} {e : LeaseEvent} (h : s.assumed e = true) :
    s.Assumed e := by
  cases e with
  | track receipt =>
      obtain ⟨t, ht, hlate⟩ := (Option.any_eq_true _ _).mp h
      exact ⟨t, ht, of_decide_eq_true hlate⟩
  | answer call reply tryThrows catchThrows =>
      cases reply with
      | failed => exact trivial
      | confirmed receipts =>
          intro c hc r hr hmem
          have hall := List.all_eq_true.mp ((Option.all_eq_true _ _).mp h c hc) r hr
          rw [List.contains_iff_mem.mpr hmem] at hall
          exact List.contains_iff_mem.mp hall
  | issue operation => exact nomatch h
  | _ => exact trivial

/-- A receipt tracked four seconds late and renewed once is current after thirty seconds. -/
theorem hidden_of_isCurrent_renewed :
    ∃ s : LeaseState, Run Start step Assumed s ∧
      s.leases.isCurrent (js "r") s.clock = true ∧ s.clock < s.hiddenUntil (js "r") := by
  have hplay : (Run.play step assumed Sample.renewedOnce
      Sample.leases).any (fun s => s.leases.isCurrent (js "r") s.clock) = true := by
    decide +kernel
  obtain ⟨s, hs, hcurrent⟩ :=
    Run.exists_of_play (fun _ _ h => assumed_of_check h) Sample.leases_start hplay
  exact ⟨s, hs, hcurrent, hidden_of_isCurrent hs hcurrent⟩

end LeaseState
