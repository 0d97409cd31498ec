/-
# No late heartbeat

A message whose visibility is changed on purpose, or which is deleted, must not be renewed
afterwards.  `release` drops the receipt and then waits for whatever round was pending when
it was called; rounds, releases and receives go on in the meantime.

* `Silent` is what is known of a receipt that was released and not tracked again: no new
  round can pick it up, and a call that still has it belongs to the round that its release
  waits for.
* `Orderly` adds that whatever is under way belongs to the pending round.
* `last_renewal_over` is the result for the releases and for the operations that start with
  one.
-/
import Waybill.Visibility

namespace LeaseState

/-- `onError` does not throw. -/
def OnErrorReturns (_ : LeaseState) : LeaseEvent → Prop
  | .answer _ _ tryThrows catchThrows => tryThrows = false ∧ catchThrows = false
  | _ => True

/-- A round is in progress: it is pending, or being started, or one of its calls is under
way. -/
def InProgress (s : LeaseState) (round : ℕ) : Prop :=
  s.leases.pending = some round ∨ (∃ w, s.sweep = some w ∧ w.round = round) ∨
    ∃ c ∈ s.calls, c.answered = false ∧ c.round = round

/-- The renewals of a receipt were begun among the first `n` calls, and all have ended. -/
def RenewalsOver (s : LeaseState) (receipt : JsString) (n : ℕ) : Prop :=
  ∀ (i : ℕ) (c : RenewCall), s.calls[i]? = some c → receipt ∈ c.batch.map Prod.fst →
    i < n ∧ c.answered = true

/-! ## The invariant -/

/-- What is known of a receipt released with the wait `w`. -/
structure Silent (receipts : JsMap JsString LeaseEntry) (sweep : Option Sweep)
    (calls : List RenewCall) (receipt : JsString) (w : Wait) : Prop where
  untracked : receipts.get receipt = none
  sweeping : ∀ sw, sweep = some sw → receipt ∈ (sw.unseen ++ sw.kept).map Prod.fst →
    w.waitsFor = some sw.round
  calling : ∀ (i : ℕ) (c : RenewCall), calls[i]? = some c → receipt ∈ c.batch.map Prod.fst →
    (c.answered = false → w.waitsFor = some c.round) ∧ ∀ n, w.resolvedAt = some n → i < n

/-- A release of the operation for each of its receipts; and once the operation has sent its
request, all its releases were over before. -/
structure Prepared (waits : List Wait) (o : Operation) : Prop where
  released : ∀ r ∈ o.kind.receipts, ∃ j ∈ o.releases, ∃ w, waits[j]? = some w ∧
    w.receipt = some r
  issued : ∀ n, o.issuedAt = some n → ∀ j ∈ o.releases, ∃ w m, waits[j]? = some w ∧
    w.resolvedAt = some m ∧ m ≤ n

/-- Whatever is under way belongs to the pending round. -/
structure Orderly (s : LeaseState) : Prop where
  returned : s.rejected = false
  pending : ∀ k, s.leases.pending = some k → k < s.rounds
  waiting : ∀ (i : ℕ) (w : Wait) (k : ℕ), s.waits[i]? = some w → w.waitsFor = some k →
    k < s.rounds ∧ (w.resolvedAt.isSome → s.leases.pending ≠ some k)
  resolved : ∀ (i : ℕ) (w : Wait) (m : ℕ), s.waits[i]? = some w → w.resolvedAt = some m →
    m ≤ s.calls.length
  sweeping : ∀ sw, s.sweep = some sw → s.leases.pending = some sw.round
  calling : ∀ (i : ℕ) (c : RenewCall), s.calls[i]? = some c → c.answered = false →
    s.leases.pending = some c.round
  silent : ∀ (i : ℕ) (w : Wait) (r : JsString), s.waits[i]? = some w → w.receipt = some r →
    w.retracked = false → Silent s.leases.receipts s.sweep s.calls r w
  prepared : ∀ (i : ℕ) (o : Operation), s.operations[i]? = some o → Prepared s.waits o

theorem Start.orderly {s : LeaseState} (h : Start s) : Orderly s where
  returned := h.rejected
  pending := fun k hk => by
    rw [h.leases] at hk
    exact nomatch hk
  waiting := fun i w k hw => by
    rw [h.waits] at hw
    exact nomatch hw
  resolved := fun i w m hw => by
    rw [h.waits] at hw
    exact nomatch hw
  sweeping := fun sw hsw => nomatch h.sweep.symm.trans hsw
  calling := fun i c hc => by
    rw [h.calls] at hc
    exact nomatch hc
  silent := fun i w r hw => by
    rw [h.waits] at hw
    exact nomatch hw
  prepared := fun i o ho => by
    rw [h.operations] at ho
    exact nomatch ho

/-! ## What the invariant says -/

namespace Orderly

variable {s : LeaseState}

/-- A round in progress is the pending one. -/
theorem pending_of_inProgress (h : Orderly s) {k : ℕ} (hk : s.InProgress k) :
    s.leases.pending = some k := by
  rcases hk with hpending | ⟨w, hw, rfl⟩ | ⟨c, hc, hanswered, rfl⟩
  · exact hpending
  · exact h.sweeping w hw
  · obtain ⟨i, hi⟩ := List.mem_iff_getElem?.mp hc
    exact h.calling i c hi hanswered

/-- A release whose wait is over has seen the last renewal of its receipt. -/
theorem renewalsOver (h : Orderly s) {i : ℕ} {w : Wait} {r : JsString} {n : ℕ}
    (hw : s.waits[i]? = some w) (hr : w.receipt = some r) (htracked : w.retracked = false)
    (hn : w.resolvedAt = some n) : s.RenewalsOver r n := by
  intro j c hc hmem
  obtain ⟨hround, hbegun⟩ := (h.silent i w r hw hr htracked).calling j c hc hmem
  refine ⟨hbegun n hn, ?_⟩
  -- a call under way would belong to the pending round, which the wait has outlasted
  by_contra hanswered
  rw [Bool.not_eq_true] at hanswered
  exact (h.waiting i w c.round hw (hround hanswered)).2 (by rw [hn]; rfl)
    (h.calling j c hc hanswered)

end Orderly

/-! ## Silence is kept -/

namespace Silent

variable {receipts : JsMap JsString LeaseEntry} {sweep : Option Sweep} {calls : List RenewCall}
  {receipt : JsString} {w : Wait}

/-- Entries may change, as long as the receipt stays untracked. -/
theorem receipts_change (h : Silent receipts sweep calls receipt w)
    {receipts' : JsMap JsString LeaseEntry} (hnone : receipts'.get receipt = none) :
    Silent receipts' sweep calls receipt w :=
  ⟨hnone, h.sweeping, h.calling⟩

/-- A sweep that has no more entries than the one before. -/
theorem shrink {sw sw' : Sweep} (h : Silent receipts (some sw) calls receipt w)
    (hround : sw'.round = sw.round)
    (hsub : ∀ p ∈ sw'.unseen ++ sw'.kept, p ∈ sw.unseen ++ sw.kept) :
    Silent receipts (some sw') calls receipt w where
  untracked := h.untracked
  sweeping := by
    intro sw₁ heq hmem
    obtain rfl := Option.some.inj heq
    obtain ⟨p, hp, hr⟩ := List.mem_map.mp hmem
    rw [hround]
    exact h.sweeping sw rfl (List.mem_map.mpr ⟨p, hsub p hp, hr⟩)
  calling := h.calling

theorem sweep_over (h : Silent receipts sweep calls receipt w) :
    Silent receipts none calls receipt w :=
  ⟨h.untracked, fun _ heq => (nomatch heq), h.calling⟩

/-- A new call has the receipt only if the wait still lasts and waits for its round. -/
theorem send (h : Silent receipts sweep calls receipt w) {c : RenewCall}
    (hc : receipt ∈ c.batch.map Prod.fst → w.waitsFor = some c.round ∧ w.resolvedAt = none) :
    Silent receipts sweep (calls ++ [c]) receipt w where
  untracked := h.untracked
  sweeping := h.sweeping
  calling := by
    intro i c' hc' hmem
    by_cases hi : i < calls.length
    · rw [List.getElem?_append_left hi] at hc'
      exact h.calling i c' hc' hmem
    · -- past the old calls there is only the new one
      rw [List.getElem?_append_right (by omega)] at hc'
      obtain rfl := List.mem_singleton.mp (List.mem_of_getElem? hc')
      obtain ⟨hround, hres⟩ := hc hmem
      exact ⟨fun _ => hround, fun n hn => nomatch hres.symm.trans hn⟩

/-- A call changes; it keeps its batch and its round, and does not come back to life. -/
theorem calls_modify (h : Silent receipts sweep calls receipt w) (call : ℕ)
    {f : RenewCall → RenewCall} (hbatch : ∀ c, (f c).batch = c.batch)
    (hround : ∀ c, (f c).round = c.round)
    (hanswered : ∀ c, (f c).answered = false → c.answered = false) :
    Silent receipts sweep (calls.modify call f) receipt w where
  untracked := h.untracked
  sweeping := h.sweeping
  calling := by
    intro i c' hc' hmem
    obtain ⟨c, hc, rfl | ⟨-, rfl⟩⟩ := List.getElem?_modify_some hc'
    · exact h.calling i c' hc hmem
    · rw [hbatch] at hmem
      obtain ⟨hold, hbegun⟩ := h.calling i c hc hmem
      exact ⟨fun ha => (hround c).symm ▸ hold (hanswered c ha), hbegun⟩

end Silent

/-! ## The steps -/

/-- Waits that come or go on: none is lost, and one that is over stays so. -/
def WaitsGrow (waits waits' : List Wait) : Prop :=
  ∀ (j : ℕ) (w : Wait), waits[j]? = some w → ∃ w', waits'[j]? = some w' ∧
    w'.receipt = w.receipt ∧ ∀ m, w.resolvedAt = some m → w'.resolvedAt = some m

/-- A prepared operation stays so while waits are added. -/
theorem Prepared.grow {waits waits' : List Wait} {o : Operation} (h : Prepared waits o)
    (hgrow : WaitsGrow waits waits') : Prepared waits' o where
  released := by
    intro r hr
    obtain ⟨j, hj, w, hw, hreceipt⟩ := h.released r hr
    obtain ⟨w', hw', hsame, -⟩ := hgrow j w hw
    exact ⟨j, hj, w', hw', hsame.trans hreceipt⟩
  issued := by
    intro n hn j hj
    obtain ⟨w, m, hw, hm, hle⟩ := h.issued n hn j hj
    obtain ⟨w', hw', -, hres⟩ := hgrow j w hw
    exact ⟨w', m, hw', hres m hm, hle⟩

theorem waitsGrow_append (waits more : List Wait) : WaitsGrow waits (waits ++ more) := by
  intro j w hw
  have hj := (List.getElem?_eq_some_iff.mp hw).1
  exact ⟨w, by rw [List.getElem?_append_left hj, hw], rfl, fun _ hm => hm⟩

namespace Orderly

variable {s : LeaseState}

/-- What happens at the queue, or to the clock. -/
theorem of_same (h : Orderly s) {s' : LeaseState} (hleases : s'.leases = s.leases)
    (hrounds : s'.rounds = s.rounds) (hsweep : s'.sweep = s.sweep) (hcalls : s'.calls = s.calls)
    (hrejected : s'.rejected = s.rejected) (hwaits : s'.waits = s.waits)
    (hoperations : s'.operations = s.operations) : Orderly s' := by
  constructor
  · rw [hrejected]; exact h.returned
  · rw [hleases, hrounds]; exact h.pending
  · rw [hleases, hrounds, hwaits]; exact h.waiting
  · rw [hwaits, hcalls]; exact h.resolved
  · rw [hleases, hsweep]; exact h.sweeping
  · rw [hleases, hcalls]; exact h.calling
  · rw [hleases, hsweep, hcalls, hwaits]; exact h.silent
  · rw [hwaits, hoperations]; exact h.prepared

/-- The queue renews a receipt for a call: the calls under way are the same. -/
theorem renew (h : Orderly s) (call : ℕ) (receipt : JsString) :
    Orderly (s.renew call receipt) where
  returned := h.returned
  pending := h.pending
  waiting := h.waiting
  resolved := fun i w m hw hm => (h.resolved i w m hw hm).trans_eq
    (List.length_modify _ s.calls call).symm
  sweeping := h.sweeping
  calling := by
    intro i c' hc' ha
    obtain ⟨c, hc, rfl | ⟨-, rfl⟩⟩ := List.getElem?_modify_some hc'
    · exact h.calling i c' hc ha
    · exact h.calling i c hc ha
  silent := fun i w r hw hr ht => (h.silent i w r hw hr ht).calls_modify call
    (fun _ => rfl) (fun _ => rfl) (fun _ ha => ha)
  prepared := h.prepared

/-- A receipt that is tracked is not silent any more; the others stay as they are. -/
theorem track (h : Orderly s) (receipt : JsString) : Orderly (s.track receipt) where
  returned := h.returned
  pending := h.pending
  waiting := by
    intro i w' k hw' hk
    have hw' : (s.waits.map (Wait.noteTrack receipt))[i]? = some w' := hw'
    rw [List.getElem?_map] at hw'
    obtain ⟨w, hw, rfl⟩ := Option.map_eq_some_iff.mp hw'
    exact h.waiting i w k hw hk
  resolved := by
    intro i w' m hw' hm
    have hw' : (s.waits.map (Wait.noteTrack receipt))[i]? = some w' := hw'
    rw [List.getElem?_map] at hw'
    obtain ⟨w, hw, rfl⟩ := Option.map_eq_some_iff.mp hw'
    exact h.resolved i w m hw hm
  sweeping := h.sweeping
  calling := h.calling
  silent := by
    intro i w' r hw' hr ht
    have hw' : (s.waits.map (Wait.noteTrack receipt))[i]? = some w' := hw'
    rw [List.getElem?_map] at hw'
    obtain ⟨w, hw, rfl⟩ := Option.map_eq_some_iff.mp hw'
    have ht : (w.retracked || w.receipt == some receipt) = false := ht
    rw [Bool.or_eq_false_iff] at ht
    have hr : w.receipt = some r := hr
    -- a wait for the receipt itself is marked as tracked again
    have hne : r ≠ receipt := by
      intro heq
      have hbeq := ht.2
      rw [hr, heq, beq_self_eq_true] at hbeq
      exact nomatch hbeq
    have hold := h.silent i w r hw hr ht.1
    refine ⟨?_, hold.sweeping, hold.calling⟩
    show (s.leases.receipts.set receipt _).get r = none
    rw [JsMap.get_set_ne _ hne]
    exact hold.untracked
  prepared := fun i o ho => (h.prepared i o ho).grow (by
    intro j w hw
    refine ⟨w.noteTrack receipt, ?_, rfl, fun _ hm => hm⟩
    show (s.waits.map (Wait.noteTrack receipt))[j]? = _
    rw [List.getElem?_map, hw]
    rfl)

/-- A new round looks at the tracked receipts only. -/
theorem renewNow (h : Orderly s) : Orderly s.renewNow := by
  unfold LeaseState.renewNow
  split
  · exact h
  next hnone =>
    have hquiet : ∀ (i : ℕ) (c : RenewCall), s.calls[i]? = some c → c.answered ≠ false :=
      fun i c hc ha => nomatch hnone.symm.trans (h.calling i c hc ha)
    constructor
    · rfl
    · intro k hk
      obtain rfl := Option.some.inj hk
      exact Nat.lt_succ_self _
    · intro i w k hw hk
      have hlt := (h.waiting i w k hw hk).1
      exact ⟨by show k < s.rounds + 1; omega, fun _ heq => by
        have : s.rounds = k := Option.some.inj heq
        omega⟩
    · exact h.resolved
    · intro sw hsw
      obtain rfl := Option.some.inj hsw
      rfl
    · intro i c hc ha
      exact absurd ha (hquiet i c hc)
    · intro i w r hw hr ht
      have hold := h.silent i w r hw hr ht
      refine ⟨hold.untracked, ?_, hold.calling⟩
      intro sw hsw hmem
      obtain rfl := Option.some.inj hsw
      have hmem : r ∈ (s.leases.receipts.entries ++ []).map Prod.fst := hmem
      rw [List.append_nil] at hmem
      exact absurd hmem (JsMap.get_eq_none_iff.mp hold.untracked)
    · exact h.prepared

/-- The part of `renewAll` without a pause keeps to the entries it began with. -/
theorem goOn (h : Orderly s) {sw : Sweep} (hsw : s.sweep = some sw) : Orderly (s.goOn sw) := by
  have hsilent : ∀ (i : ℕ) (w : Wait) (r : JsString), s.waits[i]? = some w →
      w.receipt = some r → w.retracked = false →
      Silent s.leases.receipts (some sw) s.calls r w := by
    rw [← hsw]
    exact h.silent
  have hround := h.sweeping sw hsw
  have hone : ∀ {sw' : Sweep}, sw'.round = sw.round → ∀ sw₁, some sw' = some sw₁ →
      s.leases.pending = some sw₁.round := by
    intro sw' hsame sw₁ heq
    obtain rfl := Option.some.inj heq
    rw [hsame, hround]
  unfold LeaseState.goOn
  split
  · next p rest hunseen =>
      -- the filter looks at the next entry
      refine ⟨h.returned, h.pending, h.waiting, h.resolved, hone rfl, h.calling, ?_, h.prepared⟩
      intro i w r hw hr ht
      refine (hsilent i w r hw hr ht).shrink rfl ?_
      intro q hq
      rw [hunseen]
      dsimp only at hq
      split_ifs at hq with hlate
      · simp only [List.mem_append, List.mem_cons] at hq ⊢
        tauto
      · simp only [List.mem_append, List.mem_cons] at hq ⊢
        tauto
  · -- the part is over
    refine ⟨h.returned, h.pending, h.waiting, h.resolved, fun _ heq => (nomatch heq),
      h.calling, ?_, h.prepared⟩
    exact fun i w r hw hr ht => (h.silent i w r hw hr ht).sweep_over
  · next p rest hunseen hkept =>
      -- the next ten are sent
      refine ⟨h.returned, h.pending, h.waiting, ?_, hone rfl, ?_, ?_, h.prepared⟩
      · intro i w m hw hm
        have hle := h.resolved i w m hw hm
        rw [List.length_append]
        omega
      · intro i c hc ha
        rcases List.mem_append.mp (List.mem_of_getElem? hc) with hold | hnew
        · obtain ⟨j, hj⟩ := List.mem_iff_getElem?.mp hold
          exact h.calling j c hj ha
        · obtain rfl := List.mem_singleton.mp hnew
          exact hround
      · intro i w r hw hr ht
        have hold := hsilent i w r hw hr ht
        have hsub : ∀ q ∈ p :: rest, q ∈ sw.unseen ++ sw.kept := fun q hq => by
          rw [hunseen, hkept]
          exact hq
        have hshrink : Silent s.leases.receipts (some ⟨sw.round, [], (p :: rest).drop 10⟩)
            s.calls r w := hold.shrink rfl (fun q hq => hsub q (List.mem_of_mem_drop hq))
        refine hshrink.send ?_
        intro hmem
        obtain ⟨q, hq, hkey⟩ := List.mem_map.mp hmem
        have hwaits : w.waitsFor = some sw.round := hold.sweeping sw rfl
          (List.mem_map.mpr ⟨q, hsub q (List.mem_of_mem_take hq), hkey⟩)
        refine ⟨hwaits, ?_⟩
        -- a wait that is over has outlasted the pending round
        by_contra hres
        exact (h.waiting i w sw.round hw hwaits).2 (Option.isSome_iff_ne_none.mpr hres) hround

/-- The entries of a batch change, and its call is no longer under way. -/
theorem answer (h : Orderly s) (call : ℕ) (c : RenewCall) (reply : Reply)
    {tryThrows catchThrows : Bool} (hreturns : catchThrows = false) :
    Orderly (s.answer call c reply tryThrows catchThrows) := by
  have hpending : (s.answer call c reply tryThrows catchThrows).leases.pending =
      s.leases.pending := VisibilityLeases.pending_receive _ _ _ _
  constructor
  · show (s.rejected || (c.caught tryThrows reply && catchThrows && _)) = false
    rw [h.returned, hreturns, Bool.and_false, Bool.false_and, Bool.or_false]
  · rw [hpending]
    exact h.pending
  · rw [hpending]
    exact h.waiting
  · exact fun i w m hw hm => (h.resolved i w m hw hm).trans_eq
      (List.length_modify _ s.calls call).symm
  · rw [hpending]
    exact h.sweeping
  · rw [hpending]
    intro i c' hc' ha
    obtain ⟨c₀, hc₀, rfl | ⟨-, rfl⟩⟩ := List.getElem?_modify_some hc'
    · exact h.calling i c' hc₀ ha
    · exact nomatch ha
  · intro i w r hw hr ht
    have hold := h.silent i w r hw hr ht
    exact (hold.receipts_change
      (VisibilityLeases.get_receive_of_none hold.untracked)).calls_modify call
        (fun _ => rfl) (fun _ => rfl) (fun _ ha => nomatch ha)
  · exact h.prepared

/-- A round ends with the last of its calls. -/
theorem settle (h : Orderly s) {k : ℕ} (hfree : s.sweep = none)
    (hk : s.leases.pending = some k) (hdone : s.roundDone k = true) : Orderly s.settle where
  returned := h.returned
  pending := fun _ heq => (nomatch heq)
  waiting := fun i w k hw hk => ⟨(h.waiting i w k hw hk).1, fun _ heq => (nomatch heq)⟩
  resolved := h.resolved
  sweeping := fun sw hsw => nomatch hfree.symm.trans hsw
  calling := by
    intro i c hc ha
    have hround : c.round = k := (Option.some.inj ((h.calling i c hc ha).symm.trans hk))
    have hover := List.all_eq_true.mp hdone c (List.mem_of_getElem? hc)
    rw [ha, hround, bne_self_eq_false] at hover
    exact nomatch hover
  silent := h.silent
  prepared := h.prepared

/-- Whoever begins to wait now waits for the pending round. -/
theorem waiting_append (h : Orderly s) (receipt : Option JsString) :
    ∀ (i : ℕ) (w : Wait) (k : ℕ),
      (s.waits ++ [⟨receipt, s.leases.pending, none, false⟩])[i]? = some w →
      w.waitsFor = some k → k < s.rounds ∧ (w.resolvedAt.isSome → s.leases.pending ≠ some k) := by
  intro i w k hw hk
  rcases List.mem_append.mp (List.mem_of_getElem? hw) with hold | hnew
  · obtain ⟨j, hj⟩ := List.mem_iff_getElem?.mp hold
    exact h.waiting j w k hj hk
  · obtain rfl := List.mem_singleton.mp hnew
    exact ⟨h.pending k hk, fun hres => nomatch hres⟩

theorem resolved_append (h : Orderly s) (receipt : Option JsString) :
    ∀ (i : ℕ) (w : Wait) (m : ℕ),
      (s.waits ++ [⟨receipt, s.leases.pending, none, false⟩])[i]? = some w →
      w.resolvedAt = some m → m ≤ s.calls.length := by
  intro i w m hw hm
  rcases List.mem_append.mp (List.mem_of_getElem? hw) with hold | hnew
  · obtain ⟨j, hj⟩ := List.mem_iff_getElem?.mp hold
    exact h.resolved j w m hj hm
  · obtain rfl := List.mem_singleton.mp hnew
    exact nomatch hm

/-- **The receipt released is silent from now on**: it is not tracked, and whatever still has
it belongs to the pending round. -/
theorem release (h : Orderly s) (receipt : JsString) : Orderly (s.release receipt) where
  returned := h.returned
  pending := h.pending
  waiting := h.waiting_append (some receipt)
  resolved := h.resolved_append (some receipt)
  sweeping := h.sweeping
  calling := h.calling
  silent := by
    intro i w r hw hr ht
    rcases List.mem_append.mp (List.mem_of_getElem? hw) with hold | hnew
    · obtain ⟨j, hj⟩ := List.mem_iff_getElem?.mp hold
      have hsilent := h.silent j w r hj hr ht
      exact hsilent.receipts_change (JsMap.get_delete_of_none hsilent.untracked receipt)
    · obtain rfl := List.mem_singleton.mp hnew
      obtain rfl : receipt = r := Option.some.inj hr
      exact ⟨JsMap.get_delete_self _ _, fun sw hsw _ => h.sweeping sw hsw,
        fun i c hc _ => ⟨h.calling i c hc, fun _ hn => nomatch hn⟩⟩
  prepared := fun i o ho => (h.prepared i o ho).grow (waitsGrow_append _ _)

theorem stop (h : Orderly s) : Orderly s.stop where
  returned := h.returned
  pending := h.pending
  waiting := h.waiting_append none
  resolved := h.resolved_append none
  sweeping := h.sweeping
  calling := h.calling
  silent := by
    intro i w r hw hr ht
    rcases List.mem_append.mp (List.mem_of_getElem? hw) with hold | hnew
    · obtain ⟨j, hj⟩ := List.mem_iff_getElem?.mp hold
      exact h.silent j w r hj hr ht
    · obtain rfl := List.mem_singleton.mp hnew
      exact nomatch hr
  prepared := fun i o ho => (h.prepared i o ho).grow (waitsGrow_append _ _)

/-- A wait is over once its round is not the pending one. -/
theorem resolve (h : Orderly s) {wait : ℕ} {w₀ : Wait} (hw₀ : s.waits[wait]? = some w₀)
    (hnone : w₀.resolvedAt = none)
    (hover : w₀.waitsFor = none ∨ w₀.waitsFor ≠ s.leases.pending) :
    Orderly (s.resolve wait w₀) := by
  have hleases : (s.resolve wait w₀).leases.pending = s.leases.pending := by
    unfold LeaseState.resolve
    dsimp only
    split <;> rfl
  constructor
  · exact h.returned
  · rw [hleases]
    exact h.pending
  · rw [hleases]
    intro i w' k hw' hk
    obtain ⟨w, hw, rfl | ⟨rfl, rfl⟩⟩ := List.getElem?_modify_some hw'
    · exact h.waiting i w' k hw hk
    · refine ⟨(h.waiting i w k hw hk).1, fun _ hpending => ?_⟩
      obtain rfl : w₀ = w := Option.some.inj (hw₀.symm.trans hw)
      have hk : w₀.waitsFor = some k := hk
      -- it was over only if its renewal was
      rcases hover with hnone' | hne
      · exact nomatch hnone'.symm.trans hk
      · exact hne (hk.trans hpending.symm)
  · intro i w' m hw' hm
    obtain ⟨w, hw, rfl | ⟨-, rfl⟩⟩ := List.getElem?_modify_some hw'
    · exact h.resolved i w' m hw hm
    · exact (Option.some.inj hm).ge
  · rw [hleases]
    exact h.sweeping
  · rw [hleases]
    exact h.calling
  · intro i w' r hw' hr ht
    have hreceipts : ∀ {r : JsString}, s.leases.receipts.get r = none →
        (s.resolve wait w₀).leases.receipts.get r = none := by
      intro r hget
      unfold LeaseState.resolve
      dsimp only
      split
      · rfl
      · exact hget
    obtain ⟨w, hw, rfl | ⟨-, rfl⟩⟩ := List.getElem?_modify_some hw'
    · have hold := h.silent i w' r hw hr ht
      exact hold.receipts_change (hreceipts hold.untracked)
    -- the requests made until now are counted when it ends
    · have hold := h.silent i w r hw hr ht
      refine ⟨hreceipts hold.untracked, hold.sweeping, fun j c hc hmem => ?_⟩
      refine ⟨(hold.calling j c hc hmem).1, fun n hn => ?_⟩
      have hj := (List.getElem?_eq_some_iff.mp hc).1
      exact Option.some.inj hn ▸ hj
  · intro i o ho
    refine (h.prepared i o ho).grow (fun j w hw => ?_)
    by_cases hj : wait = j
    · subst hj
      obtain rfl : w₀ = w := Option.some.inj (hw₀.symm.trans hw)
      refine ⟨{ w₀ with resolvedAt := some s.calls.length }, ?_, rfl,
        fun m hm => nomatch hnone.symm.trans hm⟩
      show (s.waits.modify wait _)[wait]? = _
      rw [List.getElem?_modify_eq, hw₀]
      rfl
    · refine ⟨w, ?_, rfl, fun _ hm => hm⟩
      show (s.waits.modify wait _)[j]? = _
      rw [List.getElem?_modify_ne _ _ hj, hw]

/-- Releases one after the other, without a wait in between. -/
theorem foldl_release (h : Orderly s) (receipts : List JsString) :
    Orderly (receipts.foldl LeaseState.release s) := by
  induction receipts generalizing s with
  | nil => exact h
  | cons r rest ih => exact ih (h.release r)

theorem waits_foldl_release (s : LeaseState) (receipts : List JsString) :
    (receipts.foldl LeaseState.release s).waits =
      s.waits ++ receipts.map (fun r => ⟨some r, s.leases.pending, none, false⟩) := by
  induction receipts generalizing s with
  | nil => exact (List.append_nil _).symm
  | cons r rest ih =>
      rw [List.foldl_cons, ih]
      show (s.waits ++ [⟨some r, s.leases.pending, none, false⟩]) ++ _ = _
      rw [List.append_assoc]
      rfl

theorem operations_foldl_release (s : LeaseState) (receipts : List JsString) :
    (receipts.foldl LeaseState.release s).operations = s.operations := by
  induction receipts generalizing s with
  | nil => rfl
  | cons r rest ih =>
      rw [List.foldl_cons, ih]
      rfl

/-- The operation knows the place of the release of each of its receipts. -/
theorem operate (h : Orderly s) (kind : Deliberate) : Orderly (s.operate kind) := by
  have hrel := h.foldl_release kind.receipts
  refine ⟨hrel.returned, hrel.pending, hrel.waiting, hrel.resolved, hrel.sweeping, hrel.calling,
    hrel.silent, ?_⟩
  intro i o ho
  rcases List.mem_append.mp (List.mem_of_getElem? ho) with hold | hnew
  · rw [← operations_foldl_release s kind.receipts] at hold
    obtain ⟨j, hj⟩ := List.mem_iff_getElem?.mp hold
    exact hrel.prepared j o hj
  · obtain rfl := List.mem_singleton.mp hnew
    refine ⟨fun r hr => ?_, fun n hn => nomatch hn⟩
    obtain ⟨k, hk⟩ := List.mem_iff_getElem?.mp hr
    have hlt := (List.getElem?_eq_some_iff.mp hk).1
    refine ⟨s.waits.length + k, List.mem_map.mpr ⟨k, List.mem_range.mpr hlt, rfl⟩,
      ⟨some r, s.leases.pending, none, false⟩, ?_, rfl⟩
    show (kind.receipts.foldl LeaseState.release s).waits[s.waits.length + k]? = _
    rw [waits_foldl_release, List.getElem?_append_right (by omega), Nat.add_sub_cancel_left,
      List.getElem?_map, hk]
    rfl

/-- The request is sent when all releases of the operation are over. -/
theorem issue (h : Orderly s) {operation : ℕ} {o₀ : Operation}
    (ho₀ : s.operations[operation]? = some o₀)
    (hover : o₀.releases.all s.waitOver = true) : Orderly (s.issue operation) := by
  refine ⟨h.returned, h.pending, h.waiting, h.resolved, h.sweeping, h.calling, h.silent, ?_⟩
  intro i o' ho'
  obtain ⟨o, ho, rfl | ⟨rfl, rfl⟩⟩ := List.getElem?_modify_some ho'
  · exact h.prepared i o' ho
  · obtain rfl : o₀ = o := Option.some.inj (ho₀.symm.trans ho)
    refine ⟨(h.prepared i o₀ ho).released, fun n hn j hj => ?_⟩
    obtain ⟨w, hw, hsome⟩ := (Option.any_eq_true _ _).mp (List.all_eq_true.mp hover j hj)
    obtain ⟨m, hm⟩ := Option.isSome_iff_exists.mp hsome
    exact ⟨w, m, hw, hm, Option.some.inj hn ▸ h.resolved j w m hw hm⟩

/-- **Every step keeps the order.** -/
theorem next (h : Orderly s) {e : LeaseEvent} (henabled : s.enabled e = true)
    (hok : OnErrorReturns s e) : Orderly (s.next e) := by
  cases e with
  | tick t => exact h.of_same rfl rfl rfl rfl rfl rfl rfl
  | serve receipt => exact h.of_same rfl rfl rfl rfl rfl rfl rfl
  | renew call receipt => exact h.renew call receipt
  | track receipt => exact h.track receipt
  | renewNow => exact h.renewNow
  | sweep =>
      show Orderly ((s.sweep.map s.goOn).getD s)
      cases hsw : s.sweep with
      | none => exact h
      | some sw => exact h.goOn hsw
  | answer call reply tryThrows catchThrows =>
      show Orderly ((s.calls[call]?.map fun c => _).getD s)
      cases s.calls[call]? with
      | none => exact h
      | some c => exact h.answer call c reply hok.2
  -- no callback has thrown, so the round ends when all its requests are answered
  | settle =>
      obtain ⟨hfree, hany⟩ := Bool.and_eq_true_iff.mp henabled
      obtain ⟨k, hk, hdone⟩ := (Option.any_eq_true _ _).mp hany
      rw [h.returned, Bool.false_or] at hdone
      exact h.settle (Option.isNone_iff_eq_none.mp hfree) hk hdone
  | release receipt => exact h.release receipt
  | stop => exact h.stop
  -- the renewal it waited for is not pending any more
  | resolve wait =>
      obtain ⟨-, hany⟩ := Bool.and_eq_true_iff.mp henabled
      obtain ⟨w, hw, hover⟩ := (Option.any_eq_true _ _).mp hany
      obtain ⟨hnone, hover⟩ := Bool.and_eq_true_iff.mp hover
      show Orderly ((s.waits[wait]?.map (s.resolve wait)).getD s)
      rw [hw]
      refine h.resolve hw (Option.isNone_iff_eq_none.mp hnone) ?_
      rcases (Bool.or_eq_true_iff).mp hover with hwaits | hne
      · exact .inl (Option.isNone_iff_eq_none.mp hwaits)
      · exact .inr (of_decide_eq_true hne)
  | operate kind => exact h.operate kind
  | issue operation =>
      obtain ⟨-, hany⟩ := Bool.and_eq_true_iff.mp henabled
      obtain ⟨o, ho, hover⟩ := (Option.any_eq_true _ _).mp hany
      exact h.issue ho (Bool.and_eq_true_iff.mp hover).2

end Orderly

/-! ## The last renewal -/

/-- **No late heartbeat**: at most one round is in progress; when a release is over and its
receipt was not tracked again, every call with the receipt was begun before and has ended;
and so it is for every receipt of an operation that has sent its request. -/
theorem last_renewal_over {s : LeaseState} (h : Run Start step OnErrorReturns s) :
    (∀ j k, s.InProgress j → s.InProgress k → j = k) ∧
      (∀ w ∈ s.waits, ∀ r n, w.receipt = some r → w.retracked = false →
        w.resolvedAt = some n → s.RenewalsOver r n) ∧
      ∀ o ∈ s.operations, ∀ n, o.issuedAt = some n → ∀ r ∈ o.kind.receipts,
        ∃ j ∈ o.releases, ∃ w, s.waits[j]? = some w ∧ w.receipt = some r ∧
          (w.retracked = false → s.RenewalsOver r n) := by
  have hs : Orderly s := h.invariant (I := Orderly) (fun _ h₀ => h₀.orderly)
    (fun s e s' hi hok hstep => by
      obtain ⟨henabled, rfl⟩ := step_eq_some.mp hstep
      exact hi.next henabled hok)
  refine ⟨fun j k hj hk => ?_, fun w hw r n hr ht hn => ?_, fun o ho n hn r hr => ?_⟩
  · exact Option.some.inj
      ((hs.pending_of_inProgress hj).symm.trans (hs.pending_of_inProgress hk))
  · obtain ⟨i, hi⟩ := List.mem_iff_getElem?.mp hw
    exact hs.renewalsOver hi hr ht hn
  · obtain ⟨i, hi⟩ := List.mem_iff_getElem?.mp ho
    obtain ⟨j, hj, w, hw, hreceipt⟩ := (hs.prepared i o hi).released r hr
    -- the wait for this receipt ended before the operation sent its request
    refine ⟨j, hj, w, hw, hreceipt, fun ht i' c hc hmem => ?_⟩
    obtain ⟨w', m, hw', hm, hle⟩ := (hs.prepared i o hi).issued n hn j hj
    obtain rfl : w = w' := Option.some.inj (hw.symm.trans hw')
    obtain ⟨hlt, hanswered⟩ := hs.renewalsOver hw hreceipt ht hm i' c hc hmem
    exact ⟨by omega, hanswered⟩

/-- The condition on a step, as a check. -/
def onErrorReturns : LeaseEvent → Bool
  | .answer _ _ tryThrows catchThrows => !tryThrows && !catchThrows
  | _ => true

theorem onErrorReturns_of_check {s : LeaseState} {e : LeaseEvent} (h : onErrorReturns e = true) :
    OnErrorReturns s e := by
  cases e with
  | answer call reply tryThrows catchThrows =>
      obtain ⟨htry, hcatch⟩ := Bool.and_eq_true_iff.mp h
      exact ⟨by simpa using htry, by simpa using hcatch⟩
  | _ => exact trivial

/-- A message hidden on purpose while its receipt is being renewed: the request is sent after
the answer. -/
theorem last_renewal_over_hidden :
    ∃ s : LeaseState, Run Start step OnErrorReturns s ∧
      ⟨some (js "r"), some 0, some 1, false⟩ ∈ s.waits ∧ s.RenewalsOver (js "r") 1 := by
  have hplay : (Run.play step (fun _ e => onErrorReturns e) Sample.hiddenOnce
      Sample.leases).any
        (fun s => decide (s.waits = [⟨some (js "r"), some 0, some 1, false⟩])) = true := by
    decide +kernel
  obtain ⟨s, hs, htest⟩ :=
    Run.exists_of_play (fun _ _ h => onErrorReturns_of_check h) Sample.leases_start hplay
  have hmem : ⟨some (js "r"), some 0, some 1, false⟩ ∈ s.waits := by
    rw [of_decide_eq_true htest]
    exact List.mem_singleton_self _
  exact ⟨s, hs, hmem, (last_renewal_over hs).2.1 _ hmem _ _ rfl rfl rfl⟩

end LeaseState
