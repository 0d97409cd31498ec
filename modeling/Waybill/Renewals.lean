/-
# What a round of renewals does

A round of `renewAll` looks at the tracked receipts, sends those it finds unexpired in batches
of ten, and sets the time of every one of them by the response to its own batch.

* `Divided`: every receipt tracked at the start of a round is still to be looked at, or was
  found expired, or is in exactly one batch.
* `Renewed`: what the entries of these receipts are.
* `batch_confirmations` is the result, for the renewals and for `deferExcessMessages`.
-/
import Waybill.Heartbeats
import Waybill.QueueConfirmations

/-! ## What is looked at -/

/-- A call, without what the queue knows of it. -/
structure SentCall where
  round : ℕ
  batch : List (JsString × LeaseEntry)
  startedAt : ℚ
  answered : Bool

/-- What was sent in a call. -/
def RenewCall.sent (c : RenewCall) : SentCall := ⟨c.round, c.batch, c.startedAt, c.answered⟩

/-- What concerns a round. -/
structure RoundView where
  clock : ℚ
  created : ℕ
  receipts : JsMap JsString LeaseEntry
  sweep : Option Sweep
  calls : List SentCall

/-- What a round looks at. -/
def LeaseState.view (s : LeaseState) : RoundView :=
  ⟨s.clock, s.leases.created, s.leases.receipts, s.sweep, s.calls.map RenewCall.sent⟩

/-- What a round began with. -/
structure RoundStart where
  number : ℕ
  clock : ℚ
  created : ℕ
  entries : List (JsString × LeaseEntry)

namespace RoundView

/-- The entries that were sent in a round. -/
def sentIn (v : RoundView) (k : ℕ) : List (JsString × LeaseEntry) :=
  (v.calls.filter (fun c => c.round == k)).flatMap SentCall.batch

/-- The entries the filter has kept and not sent yet. -/
def kept (v : RoundView) : List (JsString × LeaseEntry) := (v.sweep.map Sweep.kept).getD []

/-- The entries the filter has not looked at. -/
def unseen (v : RoundView) : List (JsString × LeaseEntry) := (v.sweep.map Sweep.unseen).getD []

/-- A time at which the filter can have looked at an entry: before anything was sent. -/
def LookedAt (b : RoundStart) (v : RoundView) (t : ℚ) : Prop :=
  b.clock ≤ t ∧ t ≤ v.clock ∧ ∀ c ∈ v.calls, c.round = b.number → t ≤ c.startedAt

/-- Where the entries of the start are. -/
structure Divided (b : RoundStart) (v : RoundView) : Prop where
  clock : b.clock ≤ v.clock
  round : ∀ w, v.sweep = some w → w.round = b.number
  parts : (v.sentIn b.number ++ v.kept ++ v.unseen).Sublist b.entries
  sending : v.unseen ≠ [] → ∀ c ∈ v.calls, c.round ≠ b.number
  expired : ∀ p ∈ b.entries, p ∉ v.sentIn b.number ++ v.kept ++ v.unseen →
    ∃ t, LookedAt b v t ∧ p.2.expiresAt ≤ t
  current : ∀ p ∈ v.sentIn b.number ++ v.kept, ∃ t, LookedAt b v t ∧ t < p.2.expiresAt

/-- The time a call gives to a receipt of its batch. -/
def renewedTo (c : SentCall) (response : Option BatchResponse) (receipt : JsString) : ℚ :=
  match response with
  | none => 0
  | some result =>
      if (confirmedBatchReceipts (c.batch.map Prod.fst) result).contains receipt then
        c.startedAt + 30000
      else 0

/-- What the entries of the start are, as long as they are tracked. -/
structure Renewed (b : RoundStart) (response : ℕ → Option BatchResponse) (v : RoundView) :
    Prop where
  created : b.created ≤ v.created
  known : ∀ p ∈ b.entries, p.2.id < b.created
  settled : ∀ c ∈ v.calls, c.round ≠ b.number → c.answered = true
  called : ∀ p ∈ b.entries, ∀ e', v.receipts.get p.1 = some e' → e'.id = p.2.id →
    ∀ (j : ℕ) (c : SentCall), v.calls[j]? = some c → c.round = b.number → p ∈ c.batch →
      e' = if c.answered then ⟨p.2.id, renewedTo c (response j) p.1⟩ else p.2
  unsent : ∀ p ∈ b.entries, ∀ e', v.receipts.get p.1 = some e' → e'.id = p.2.id →
    p ∉ v.sentIn b.number → e' = p.2

/-! ## What does not concern a round -/

/-- A look remains one of the round while the clock goes on. -/
theorem LookedAt.later {b : RoundStart} {v v' : RoundView} {t : ℚ} (h : LookedAt b v t)
    (hclock : v.clock ≤ v'.clock) (hcalls : v'.calls = v.calls) : LookedAt b v' t :=
  ⟨h.1, h.2.1.trans hclock, hcalls ▸ h.2.2⟩

/-- A step that touches no call and no sweep keeps the division. -/
theorem Divided.frame {b : RoundStart} {v v' : RoundView} (h : Divided b v)
    (hclock : v.clock ≤ v'.clock) (hcalls : v'.calls = v.calls) (hsweep : v'.sweep = v.sweep) :
    Divided b v' := by
  have hsent : v'.sentIn b.number = v.sentIn b.number := by
    unfold sentIn
    rw [hcalls]
  have hkept : v'.kept = v.kept := by
    unfold kept
    rw [hsweep]
  have hunseen : v'.unseen = v.unseen := by
    unfold unseen
    rw [hsweep]
  refine ⟨h.clock.trans hclock, hsweep ▸ h.round, ?_, ?_, ?_, ?_⟩
  · rw [hsent, hkept, hunseen]
    exact h.parts
  · rw [hunseen, hcalls]
    exact h.sending
  · rw [hsent, hkept, hunseen]
    intro p hp hout
    obtain ⟨t, ht, hle⟩ := h.expired p hp hout
    exact ⟨t, ht.later hclock hcalls, hle⟩
  · rw [hsent, hkept]
    intro p hp
    obtain ⟨t, ht, hlt⟩ := h.current p hp
    exact ⟨t, ht.later hclock hcalls, hlt⟩

/-- Receipts may be forgotten, or tracked anew with another object. -/
theorem Renewed.frame {b : RoundStart} {response : ℕ → Option BatchResponse} {v v' : RoundView}
    (h : Renewed b response v) (hcreated : v.created ≤ v'.created) (hcalls : v'.calls = v.calls)
    (hreceipts : ∀ r e', v'.receipts.get r = some e' →
      v.receipts.get r = some e' ∨ b.created ≤ e'.id) : Renewed b response v' := by
  have hold : ∀ p ∈ b.entries, ∀ e', v'.receipts.get p.1 = some e' → e'.id = p.2.id →
      v.receipts.get p.1 = some e' := by
    intro p hp e' hget hid
    refine (hreceipts p.1 e' hget).resolve_right ?_
    have hlt := h.known p hp
    omega
  refine ⟨h.created.trans hcreated, h.known, hcalls ▸ h.settled, ?_, ?_⟩
  · rw [hcalls]
    intro p hp e' hget hid
    exact h.called p hp e' (hold p hp e' hget hid) hid
  · intro p hp e' hget hid hout
    refine h.unsent p hp e' (hold p hp e' hget hid) hid ?_
    unfold sentIn at hout ⊢
    rwa [hcalls] at hout

/-! ## The filter and the batches -/

/-- The filter looks at the next entry. -/
theorem Divided.look {b : RoundStart} {v : RoundView} (h : Divided b v) {w : Sweep}
    (hw : v.sweep = some w) {p : JsString × LeaseEntry} {rest : List (JsString × LeaseEntry)}
    (hunseen : w.unseen = p :: rest) :
    Divided b { v with
      sweep := some ⟨w.round, rest,
        if p.2.expiresAt > v.clock then w.kept ++ [p] else w.kept⟩ } := by
  have hparts := h.parts
  have hcurrent := h.current
  have hexpired := h.expired
  have hsending := h.sending
  unfold kept unseen at hparts hexpired hsending
  unfold kept at hcurrent
  rw [hw, Option.map_some, Option.getD_some, Option.map_some, Option.getD_some, hunseen] at hparts
  simp only [hw, Option.map_some, Option.getD_some, hunseen] at hexpired hsending
  rw [hw, Option.map_some, Option.getD_some] at hcurrent
  have hnone := hsending (List.cons_ne_nil _ _)
  -- the entry is looked at now, before any batch of the round
  have hnow : LookedAt b v v.clock :=
    ⟨h.clock, le_rfl, fun c hc hround => absurd hround (hnone c hc)⟩
  refine ⟨h.clock, ?_, ?_, fun _ => hnone, ?_, ?_⟩
  · intro w' hw'
    obtain rfl := Option.some.inj hw'
    exact h.round w hw
  · show (v.sentIn b.number ++ (if p.2.expiresAt > v.clock then w.kept ++ [p] else w.kept) ++
      rest).Sublist b.entries
    split_ifs
    · rw [← List.append_assoc, List.append_assoc, List.singleton_append]
      exact hparts
    · refine List.Sublist.trans ?_ hparts
      exact (List.Sublist.refl _).append (List.sublist_cons_self p rest)
  · intro q hq hout
    by_cases hqp : q = p
    · subst hqp
      refine ⟨v.clock, hnow, ?_⟩
      by_contra hlate
      refine hout (List.mem_append_left _ (List.mem_append_right _ ?_))
      show q ∈ if q.2.expiresAt > v.clock then w.kept ++ [q] else w.kept
      rw [if_pos (not_le.mp hlate)]
      exact List.mem_append_right _ (List.mem_singleton_self q)
    · refine hexpired q hq fun hin => hout ?_
      show q ∈ v.sentIn b.number ++ (if p.2.expiresAt > v.clock then w.kept ++ [p] else w.kept) ++
        rest
      rw [List.mem_append, List.mem_append, List.mem_cons] at hin
      rw [List.mem_append, List.mem_append]
      rcases hin with (hin | hin) | heq | hin
      · exact .inl (.inl hin)
      · refine .inl (.inr ?_)
        split_ifs
        · exact List.mem_append_left _ hin
        · exact hin
      · exact absurd heq hqp
      · exact .inr hin
  -- an entry is kept because it was unexpired at that time
  · intro q hq
    have hq' : q ∈ v.sentIn b.number ++
        if p.2.expiresAt > v.clock then w.kept ++ [p] else w.kept := hq
    split_ifs at hq' with hfresh
    · rw [← List.append_assoc, List.mem_append, List.mem_singleton] at hq'
      rcases hq' with hold | rfl
      · exact hcurrent q hold
      · exact ⟨v.clock, hnow, hfresh⟩
    · exact hcurrent q hq'

/-- All batches are sent. -/
theorem Divided.sent {b : RoundStart} {v : RoundView} (h : Divided b v) {w : Sweep}
    (hw : v.sweep = some w) (hunseen : w.unseen = []) (hkept : w.kept = []) :
    Divided b { v with
      sweep := none } := by
  have hk : v.kept = [] := by
    unfold kept
    rw [hw, Option.map_some, Option.getD_some, hkept]
  have hu : v.unseen = [] := by
    unfold unseen
    rw [hw, Option.map_some, Option.getD_some, hunseen]
  have hparts := h.parts
  have hexpired := h.expired
  have hcurrent := h.current
  rw [hk, hu] at hparts hexpired
  rw [hk] at hcurrent
  exact ⟨h.clock, nofun, hparts, fun hne => absurd rfl hne, hexpired, hcurrent⟩

theorem sentIn_append (v : RoundView) {k : ℕ} {c : SentCall} (hround : c.round = k)
    (sweep : Option Sweep) :
    ({ v with
      calls := v.calls ++ [c]
      sweep := sweep } : RoundView).sentIn k = v.sentIn k ++ c.batch := by
  show ((v.calls ++ [c]).filter (fun c => c.round == k)).flatMap SentCall.batch = _
  rw [List.filter_append, List.flatMap_append]
  simp [sentIn, hround]

/-- The next ten entries are sent. -/
theorem Divided.send {b : RoundStart} {v : RoundView} (h : Divided b v) {w : Sweep}
    (hw : v.sweep = some w) (hunseen : w.unseen = []) :
    Divided b { v with
      calls := v.calls ++ [⟨w.round, w.kept.take 10, v.clock, false⟩]
      sweep := some ⟨w.round, [], w.kept.drop 10⟩ } := by
  have hround := h.round w hw
  have hsent := sentIn_append v (c := ⟨w.round, w.kept.take 10, v.clock, false⟩) hround
    (some ⟨w.round, [], w.kept.drop 10⟩)
  have hk : v.kept = w.kept := by
    unfold kept
    rw [hw]
    rfl
  have hu : v.unseen = [] := by
    unfold unseen
    rw [hw, Option.map_some, Option.getD_some, hunseen]
  -- ten entries go from the kept ones to the sent ones
  have hall : v.sentIn b.number ++ w.kept.take 10 ++ w.kept.drop 10 =
      v.sentIn b.number ++ v.kept := by
    rw [List.append_assoc, List.take_append_drop, hk]
  have hlater : ∀ {t : ℚ}, LookedAt b v t → LookedAt b { v with
      calls := v.calls ++ [⟨w.round, w.kept.take 10, v.clock, false⟩]
      sweep := some ⟨w.round, [], w.kept.drop 10⟩ } t := by
    rintro t ⟨hfrom, hto, hcalls⟩
    refine ⟨hfrom, hto, ?_⟩
    intro c hc hcr
    rcases List.mem_append.mp hc with hc | hc
    · exact hcalls c hc hcr
    · rw [List.mem_singleton.mp hc]
      exact hto
  have hparts := h.parts
  have hexpired := h.expired
  have hcurrent := h.current
  rw [hu, List.append_nil, ← hall] at hparts hexpired
  rw [← hall] at hcurrent
  refine ⟨h.clock, ?_, ?_, fun hne => absurd rfl hne, ?_, ?_⟩
  · intro w' hw'
    obtain rfl := Option.some.inj hw'
    exact hround
  -- sent and kept entries together stay the same
  · rw [hsent]
    exact (List.append_nil _).symm ▸ hparts
  · rw [hsent]
    intro p hp hout
    obtain ⟨t, ht, hle⟩ := hexpired p hp fun hin => hout (List.mem_append_left _ hin)
    exact ⟨t, hlater ht, hle⟩
  · rw [hsent]
    intro p hp
    obtain ⟨t, ht, hlt⟩ := hcurrent p hp
    exact ⟨t, hlater ht, hlt⟩

end RoundView

/-- **What the loop over a batch leaves**: the entry gets its new time if the batch has it. -/
theorem VisibilityLeases.get_setExpiries_of_some {t : JsString → ℚ} {receipt : JsString}
    {e : LeaseEntry} {batch : List (JsString × LeaseEntry)}
    {receipts : JsMap JsString LeaseEntry} (h : receipts.get receipt = some e) :
    (setExpiries t batch receipts).get receipt =
      some (if batch.any (fun p => decide (p.1 = receipt ∧ p.2.id = e.id)) then ⟨e.id, t receipt⟩
        else e) := by
  induction batch generalizing receipts e with
  | nil => exact h
  | cons p rest ih =>
      obtain ⟨r, entry⟩ := p
      show (setExpiries t rest (setExpiry receipts r entry (t r))).get receipt = _
      have hget : (setExpiry receipts r entry (t r)).get receipt =
          some (if r = receipt ∧ entry.id = e.id then ⟨e.id, t receipt⟩ else e) := by
        rw [setExpiry, JsMap.get_modify, h, Option.map_some]
        by_cases hr : receipt = r
        · subst hr
          by_cases hid : e.id = entry.id
          · simp [hid]
          · simp [hid, Ne.symm hid]
        · simp [hr, Ne.symm hr]
      rw [ih hget, List.any_cons]
      by_cases hhit : r = receipt ∧ entry.id = e.id
      · simp [hhit]
      · rw [if_neg hhit, decide_eq_false hhit, Bool.false_or]

namespace RoundView

variable {b : RoundStart} {response : ℕ → Option BatchResponse} {v : RoundView}

/-- Entries of a round have different receipts. -/
theorem Divided.nodup (h : Divided b v) (hnodup : (b.entries.map Prod.fst).Nodup) :
    ((v.sentIn b.number ++ v.kept ++ v.unseen).map Prod.fst).Nodup :=
  hnodup.sublist (h.parts.map Prod.fst)

theorem mem_sentIn {k : ℕ} {p : JsString × LeaseEntry} :
    p ∈ v.sentIn k ↔ ∃ c ∈ v.calls, c.round = k ∧ p ∈ c.batch := by
  unfold sentIn
  rw [List.mem_flatMap]
  constructor
  · rintro ⟨c, hc, hp⟩
    obtain ⟨hc, hround⟩ := List.mem_filter.mp hc
    exact ⟨c, hc, beq_iff_eq.mp hround, hp⟩
  · rintro ⟨c, hc, hround, hp⟩
    exact ⟨c, List.mem_filter.mpr ⟨hc, beq_iff_eq.mpr hround⟩, hp⟩

/-- What was sent was tracked at the start of the round. -/
theorem Divided.mem_entries (h : Divided b v) {p : JsString × LeaseEntry}
    (hp : p ∈ v.sentIn b.number) : p ∈ b.entries :=
  h.parts.subset (List.mem_append_left _ (List.mem_append_left _ hp))

/-- The batches of a round have no receipt in common. -/
theorem Divided.batch_unique (h : Divided b v) (hnodup : (b.entries.map Prod.fst).Nodup)
    {i j : ℕ} {c d : SentCall} (hc : v.calls[i]? = some c) (hd : v.calls[j]? = some d)
    (hcr : c.round = b.number) (hdr : d.round = b.number) {p q : JsString × LeaseEntry}
    (hp : p ∈ c.batch) (hq : q ∈ d.batch) (hkey : p.1 = q.1) : i = j := by
  have hsent : ((v.sentIn b.number).map Prod.fst).Nodup := by
    have hall := h.nodup hnodup
    rw [List.append_assoc, List.map_append] at hall
    exact (List.nodup_append.mp hall).1
  unfold sentIn at hsent
  rw [List.map_flatMap, List.nodup_flatMap, List.pairwise_filter, List.pairwise_iff_getElem]
    at hsent
  obtain ⟨hi, rfl⟩ := List.getElem?_eq_some_iff.mp hc
  obtain ⟨hj, rfl⟩ := List.getElem?_eq_some_iff.mp hd
  have hin : p.1 ∈ v.calls[i].batch.map Prod.fst := List.mem_map.mpr ⟨p, hp, rfl⟩
  have hin' : p.1 ∈ v.calls[j].batch.map Prod.fst := List.mem_map.mpr ⟨q, hq, hkey.symm⟩
  rcases Nat.lt_trichotomy i j with hlt | heq | hgt
  · exact absurd hin' (hsent.2 i j hi hj hlt (beq_iff_eq.mpr hcr) (beq_iff_eq.mpr hdr) hin)
  · exact heq
  · exact absurd hin (hsent.2 j i hj hi hgt (beq_iff_eq.mpr hdr) (beq_iff_eq.mpr hcr) hin')

/-- The next ten entries are sent: they are what they were. -/
theorem Renewed.send (h : Renewed b response v) (hdivided : Divided b v)
    (hnodup : (b.entries.map Prod.fst).Nodup) {w : Sweep} (hw : v.sweep = some w) :
    Renewed b response { v with
      calls := v.calls ++ [⟨w.round, w.kept.take 10, v.clock, false⟩]
      sweep := some ⟨w.round, [], w.kept.drop 10⟩ } := by
  have hround := hdivided.round w hw
  have hsent := sentIn_append v (c := ⟨w.round, w.kept.take 10, v.clock, false⟩) hround
    (some ⟨w.round, [], w.kept.drop 10⟩)
  refine ⟨h.created, h.known, ?_, ?_, ?_⟩
  · intro c hc hcr
    rcases List.mem_append.mp hc with hc | hc
    · exact h.settled c hc hcr
    · rw [List.mem_singleton.mp hc] at hcr
      exact absurd hround hcr
  · intro p hp e' hget hid j c hc hcr hin
    have hc' : (v.calls ++ [⟨w.round, w.kept.take 10, v.clock, false⟩])[j]? = some c := hc
    rcases Nat.lt_trichotomy j v.calls.length with hlt | rfl | hgt
    · rw [List.getElem?_append_left hlt] at hc'
      exact h.called p hp e' hget hid j c hc' hcr hin
    · rw [List.getElem?_append_right le_rfl, Nat.sub_self] at hc'
      obtain rfl := Option.some.inj hc'
      refine h.unsent p hp e' hget hid fun hold => ?_
      -- what was kept had not been sent
      have hall := hdivided.nodup hnodup
      rw [List.append_assoc, List.map_append] at hall
      have hkept : p ∈ v.kept := by
        unfold kept
        rw [hw]
        exact List.mem_of_mem_take hin
      exact (List.nodup_append.mp hall).2.2 p.1 (List.mem_map.mpr ⟨p, hold, rfl⟩) p.1
        (List.mem_map.mpr ⟨p, List.mem_append_left _ hkept, rfl⟩) rfl
    · rw [List.getElem?_eq_none (by simp; omega)] at hc'
      cases hc'
  · rw [hsent]
    intro p hp e' hget hid hout
    exact h.unsent p hp e' hget hid fun hin => hout (List.mem_append_left _ hin)

/-- A call is answered, and the loop over its batch runs. -/
def answer (v : RoundView) (response : ℕ → Option BatchResponse) (call : ℕ) (c : SentCall) :
    RoundView :=
  { v with
    receipts := VisibilityLeases.setExpiries (renewedTo c (response call)) c.batch v.receipts
    calls := v.calls.modify call (fun c => { c with
      answered := true }) }

theorem sentIn_answer (call : ℕ) (c : SentCall) (k : ℕ) :
    (v.answer response call c).sentIn k = v.sentIn k := by
  have hmodify : ∀ (l : List SentCall) (i : ℕ),
      ((l.modify i (fun c => { c with
        answered := true })).filter (fun c => c.round == k)).flatMap SentCall.batch =
        (l.filter (fun c => c.round == k)).flatMap SentCall.batch := by
    intro l
    induction l with
    | nil => intro i; cases i <;> rfl
    | cons x rest ih =>
        intro i
        cases i with
        | zero =>
            rw [List.modify_zero_cons, List.filter_cons, List.filter_cons]
            split_ifs <;> rfl
        | succ i =>
            rw [List.modify_succ_cons, List.filter_cons, List.filter_cons]
            split_ifs
            · rw [List.flatMap_cons, List.flatMap_cons, ih i]
            · exact ih i
  exact hmodify v.calls call

/-- An answer keeps the division. -/
theorem Divided.answer (h : Divided b v) (call : ℕ) (c : SentCall) :
    Divided b (v.answer response call c) := by
  have hlater : ∀ {t : ℚ}, LookedAt b v t → LookedAt b (v.answer response call c) t := by
    rintro t ⟨hfrom, hto, hcalls⟩
    refine ⟨hfrom, hto, ?_⟩
    intro d hd hdr
    obtain ⟨j, hj⟩ := List.mem_iff_getElem?.mp hd
    obtain ⟨x, hx, rfl | ⟨-, rfl⟩⟩ := List.getElem?_modify_some hj
    · exact hcalls d (List.mem_of_getElem? hx) hdr
    · exact hcalls x (List.mem_of_getElem? hx) hdr
  refine ⟨h.clock, h.round, ?_, ?_, ?_, ?_⟩
  · rw [sentIn_answer]
    exact h.parts
  · intro hne d hd
    obtain ⟨j, hj⟩ := List.mem_iff_getElem?.mp hd
    obtain ⟨x, hx, rfl | ⟨-, rfl⟩⟩ := List.getElem?_modify_some hj
    · exact h.sending hne d (List.mem_of_getElem? hx)
    · exact h.sending hne x (List.mem_of_getElem? hx)
  · rw [sentIn_answer]
    intro p hp hout
    obtain ⟨t, ht, hle⟩ := h.expired p hp hout
    exact ⟨t, hlater ht, hle⟩
  · rw [sentIn_answer]
    intro p hp
    obtain ⟨t, ht, hlt⟩ := h.current p hp
    exact ⟨t, hlater ht, hlt⟩

/-- A tracked entry before and after the answer. -/
theorem get_answer {call : ℕ} {c : SentCall} {receipt : JsString} {e' : LeaseEntry}
    (h : (v.answer response call c).receipts.get receipt = some e') :
    ∃ e, v.receipts.get receipt = some e ∧ e'.id = e.id ∧
      e' = if c.batch.any (fun p => decide (p.1 = receipt ∧ p.2.id = e.id)) then
        ⟨e.id, renewedTo c (response call) receipt⟩ else e := by
  obtain ⟨e, he, -⟩ := VisibilityLeases.get_setExpiries h
  have hget : (v.answer response call c).receipts.get receipt = _ :=
    VisibilityLeases.get_setExpiries_of_some he
  have heq := Option.some.inj (h.symm.trans hget)
  refine ⟨e, he, ?_, heq⟩
  rw [heq]
  split_ifs <;> rfl

/-- **A call is answered**: the entries of its batch get their time, and the others stay. -/
theorem Renewed.answer (h : Renewed b response v) (hdivided : Divided b v)
    (hnodup : (b.entries.map Prod.fst).Nodup) {call : ℕ} {c : SentCall}
    (hc : v.calls[call]? = some c) (hopen : c.answered = false) :
    Renewed b response (v.answer response call c) := by
  have hround : c.round = b.number := by
    by_contra hne
    exact Bool.false_ne_true (hopen.symm.trans (h.settled c (List.mem_of_getElem? hc) hne))
  have hsentc : ∀ q ∈ c.batch, q ∈ v.sentIn b.number := fun q hq =>
    mem_sentIn.mpr ⟨c, List.mem_of_getElem? hc, hround, hq⟩
  -- an entry that is not in the batch keeps its time
  have hmiss : ∀ p ∈ b.entries, ∀ e : LeaseEntry, p ∉ c.batch → e.id = p.2.id →
      c.batch.any (fun q => decide (q.1 = p.1 ∧ q.2.id = e.id)) = false := by
    intro p hp e hout hid
    rw [Bool.eq_false_iff]
    intro hany
    obtain ⟨q, hq, hhit⟩ := List.any_eq_true.mp hany
    obtain ⟨hkey, -⟩ := of_decide_eq_true hhit
    have heq := List.inj_on_of_nodup_map hnodup (hdivided.mem_entries (hsentc q hq)) hp hkey
    exact hout (heq ▸ hq)
  refine ⟨h.created, h.known, ?_, ?_, ?_⟩
  · intro d hd hdr
    obtain ⟨j, hj⟩ := List.mem_iff_getElem?.mp hd
    obtain ⟨x, hx, rfl | ⟨-, rfl⟩⟩ := List.getElem?_modify_some hj
    · exact h.settled d (List.mem_of_getElem? hx) hdr
    · rfl
  · intro p hp e' hget hid j d hd hdr hin
    obtain ⟨e, he, hids, heq⟩ := get_answer hget
    have hide : e.id = p.2.id := hids.symm.trans hid
    by_cases hj : j = call
    · subst hj
      have hd' : (v.calls.modify j _)[j]? = some d := hd
      rw [List.getElem?_modify_eq, hc] at hd'
      obtain rfl := Option.some.inj hd'
      have hhit : c.batch.any (fun q => decide (q.1 = p.1 ∧ q.2.id = e.id)) = true :=
        List.any_eq_true.mpr ⟨p, hin, decide_eq_true ⟨rfl, hide.symm⟩⟩
      rw [hhit, if_pos rfl, hide] at heq
      rw [heq, if_pos rfl]
      rfl
    · have hd' : (v.calls.modify call _)[j]? = some d := hd
      rw [List.getElem?_modify_ne _ _ (Ne.symm hj)] at hd'
      have hout : p ∉ c.batch := fun hp' =>
        hj (hdivided.batch_unique hnodup hd' hc hdr hround hin hp' rfl)
      rw [hmiss p hp e hout hide, if_neg Bool.false_ne_true] at heq
      rw [heq]
      exact h.called p hp e he hide j d hd' hdr hin
  · rw [sentIn_answer]
    intro p hp e' hget hid hout
    obtain ⟨e, he, hids, heq⟩ := get_answer hget
    have hide : e.id = p.2.id := hids.symm.trans hid
    rw [hmiss p hp e (fun hin => hout (hsentc p hin)) hide, if_neg Bool.false_ne_true] at heq
    rw [heq]
    exact h.unsent p hp e he hide hout

/-- An entry that was not there at the start is not in a batch. -/
theorem Renewed.get_answer_new (h : Renewed b response v) (hdivided : Divided b v) {call : ℕ}
    {c : SentCall} (hc : v.calls[call]? = some c) (hopen : c.answered = false)
    {receipt : JsString} {e' : LeaseEntry}
    (hget : (v.answer response call c).receipts.get receipt = some e')
    (hnew : b.created ≤ e'.id) : v.receipts.get receipt = some e' := by
  have hround : c.round = b.number := by
    by_contra hne
    exact Bool.false_ne_true (hopen.symm.trans (h.settled c (List.mem_of_getElem? hc) hne))
  obtain ⟨e, he, hids, heq⟩ := get_answer hget
  have hnone : c.batch.any (fun q => decide (q.1 = receipt ∧ q.2.id = e.id)) = false := by
    rw [Bool.eq_false_iff]
    intro hany
    obtain ⟨q, hq, hhit⟩ := List.any_eq_true.mp hany
    obtain ⟨-, hid⟩ := of_decide_eq_true hhit
    have hold := h.known q (hdivided.mem_entries
      (mem_sentIn.mpr ⟨c, List.mem_of_getElem? hc, hround, hq⟩))
    omega
  rw [hnone, if_neg Bool.false_ne_true] at heq
  rw [heq]
  exact he

/-- What an event can do to what concerns a round. -/
inductive Move (response : ℕ → Option BatchResponse) (v v' : RoundView) : Prop
  | frame (hclock : v.clock ≤ v'.clock) (hcreated : v.created ≤ v'.created)
      (hcalls : v'.calls = v.calls) (hsweep : v'.sweep = v.sweep)
      (hreceipts : ∀ r e', v'.receipts.get r = some e' →
        v.receipts.get r = some e' ∨ v.created ≤ e'.id ∧ e'.id < v'.created)
  | look (w : Sweep) (p : JsString × LeaseEntry) (rest : List (JsString × LeaseEntry))
      (hw : v.sweep = some w) (hunseen : w.unseen = p :: rest)
      (heq : v' = { v with
        sweep := some ⟨w.round, rest,
          if p.2.expiresAt > v.clock then w.kept ++ [p] else w.kept⟩ })
  | sent (w : Sweep) (hw : v.sweep = some w) (hunseen : w.unseen = []) (hkept : w.kept = [])
      (heq : v' = { v with
        sweep := none })
  | send (w : Sweep) (hw : v.sweep = some w) (hunseen : w.unseen = [])
      (heq : v' = { v with
        calls := v.calls ++ [⟨w.round, w.kept.take 10, v.clock, false⟩]
        sweep := some ⟨w.round, [], w.kept.drop 10⟩ })
  | answer (call : ℕ) (c : SentCall) (hc : v.calls[call]? = some c) (hopen : c.answered = false)
      (heq : v' = v.answer response call c)

/-- What is known in a round. -/
structure InRound (b : RoundStart) (response : ℕ → Option BatchResponse) (v : RoundView) :
    Prop where
  nodup : (b.entries.map Prod.fst).Nodup
  divided : Divided b v
  renewed : Renewed b response v

/-- **Every event of a round keeps what is known.** -/
theorem InRound.move (h : InRound b response v) {v' : RoundView} (hmove : Move response v v') :
    InRound b response v' := by
  have hsweep : ∀ sweep : Option Sweep, Renewed b response { v with
      sweep := sweep } := fun _ => h.renewed.frame le_rfl rfl fun _ _ hget => .inl hget
  cases hmove with
  | frame hclock hcreated hcalls hsame hreceipts =>
      refine ⟨h.nodup, h.divided.frame hclock hcalls hsame, h.renewed.frame hcreated hcalls ?_⟩
      intro r e' hget
      exact (hreceipts r e' hget).imp_right fun hnew => h.renewed.created.trans hnew.1
  | look w p rest hw hunseen heq =>
      rw [heq]
      exact ⟨h.nodup, h.divided.look hw hunseen, hsweep _⟩
  | sent w hw hunseen hkept heq =>
      rw [heq]
      exact ⟨h.nodup, h.divided.sent hw hunseen hkept, hsweep _⟩
  | send w hw hunseen heq =>
      rw [heq]
      exact ⟨h.nodup, h.divided.send hw hunseen, h.renewed.send h.divided h.nodup hw⟩
  | answer call c hc hopen heq =>
      rw [heq]
      exact ⟨h.nodup, h.divided.answer call c, h.renewed.answer h.divided h.nodup hc hopen⟩

/-- **An entry that is not in a batch stays**: one that was tracked since the start. -/
theorem InRound.unchanged (h : InRound b response v) {v' : RoundView}
    (hmove : Move response v v') {receipt : JsString} {e' : LeaseEntry}
    (hget : v'.receipts.get receipt = some e') (hnew : b.created ≤ e'.id)
    (hold : e'.id < v.created) : v.receipts.get receipt = some e' := by
  cases hmove with
  | frame _ _ _ _ hreceipts =>
      refine (hreceipts receipt e' hget).resolve_right ?_
      omega
  | look w p rest hw hunseen heq =>
      rw [heq] at hget
      exact hget
  | sent w hw hunseen hkept heq =>
      rw [heq] at hget
      exact hget
  | send w hw hunseen heq =>
      rw [heq] at hget
      exact hget
  | answer call c hc hopen heq =>
      rw [heq] at hget
      exact h.renewed.get_answer_new h.divided hc hopen hget hnew

theorem created_move {v' : RoundView} (hmove : Move response v v') : v.created ≤ v'.created := by
  cases hmove with
  | frame _ hcreated _ _ _ => exact hcreated
  | look w p rest hw hunseen heq =>
      rw [heq]
  | sent w hw hunseen hkept heq =>
      rw [heq]
  | send w hw hunseen heq =>
      rw [heq]
  | answer call c hc hopen heq =>
      rw [heq]
      exact le_rfl

/-- Objects are numbered. -/
def Numbered (v : RoundView) : Prop :=
  ∀ r e, v.receipts.get r = some e → e.id < v.created

theorem Numbered.move (h : Numbered v) {v' : RoundView} (hmove : Move response v v') :
    Numbered v' := by
  intro r e' hget
  cases hmove with
  | frame _ hcreated _ _ hreceipts =>
      rcases hreceipts r e' hget with hold | ⟨-, hlt⟩
      · exact lt_of_lt_of_le (h r e' hold) hcreated
      · exact hlt
  | look w p rest hw hunseen heq =>
      subst heq
      exact h r e' hget
  | sent w hw hunseen hkept heq =>
      subst heq
      exact h r e' hget
  | send w hw hunseen heq =>
      subst heq
      exact h r e' hget
  | answer call c hc hopen heq =>
      subst heq
      obtain ⟨e, he, hid, -⟩ := get_answer hget
      exact hid ▸ h r e he

end RoundView

/-! ## The worker -/

/-- The `renewBatch` of the worker; `none` is a request that failed. -/
def renewBatch (receipts : List JsString) : Option BatchResponse → Reply
  | none => .failed
  | some result => .confirmed (confirmedBatchReceipts receipts result)

/-- What the answer to a batch does to the leases. -/
theorem VisibilityLeases.receive_renewBatch (v : VisibilityLeases) (c : RenewCall)
    (response : Option BatchResponse) :
    v.receive c false (renewBatch (c.batch.map Prod.fst) response) = { v with
      receipts := setExpiries (RoundView.renewedTo c.sent response) c.batch v.receipts } := by
  cases response with
  | none => rfl
  | some result =>
      rw [renewBatch, receive]
      have hcaught : c.caught false (.confirmed
          (confirmedBatchReceipts (c.batch.map Prod.fst) result)) = false := Bool.and_false _
      have htime : RoundView.renewedTo c.sent (some result) = fun r =>
          if r ∈ confirmedBatchReceipts (c.batch.map Prod.fst) result then c.startedAt + 30000
          else 0 := by
        funext r
        simp only [RoundView.renewedTo, RenewCall.sent, List.contains_iff_mem]
      rw [hcaught, if_neg Bool.false_ne_true, htime]
      rfl

namespace LeaseState

/-- The calls of `renewBatch` get the responses, by their numbers, and `onError` returns. -/
def Answers (response : ℕ → Option BatchResponse) (s : LeaseState) : LeaseEvent → Prop
  | .answer call reply tryThrows catchThrows => tryThrows = false ∧ catchThrows = false ∧
      ∀ c, s.calls[call]? = some c → reply = renewBatch (c.batch.map Prod.fst) (response call)
  | _ => True

theorem Answers.onErrorReturns {response : ℕ → Option BatchResponse} {s : LeaseState}
    {e : LeaseEvent} (h : Answers response s e) : OnErrorReturns s e := by
  cases e with
  | answer call reply tryThrows catchThrows => exact ⟨h.1, h.2.1⟩
  | _ => trivial

/-- What a round begins with that is opened now. -/
def roundStart (s : LeaseState) : RoundStart :=
  ⟨s.rounds, s.clock, s.leases.created, s.leases.receipts.entries⟩

theorem view_foldl_release (receipts : List JsString) (s : LeaseState) :
    (receipts.foldl release s).view.clock = s.view.clock ∧
      (receipts.foldl release s).view.created = s.view.created ∧
      (receipts.foldl release s).view.calls = s.view.calls ∧
      (receipts.foldl release s).view.sweep = s.view.sweep ∧
      ∀ r e', (receipts.foldl release s).view.receipts.get r = some e' →
        s.view.receipts.get r = some e' := by
  induction receipts generalizing s with
  | nil => exact ⟨rfl, rfl, rfl, rfl, fun _ _ hget => hget⟩
  | cons receipt rest ih =>
      obtain ⟨hclock, hcreated, hcalls, hsweep, hreceipts⟩ := ih (s.release receipt)
      refine ⟨hclock, hcreated, hcalls, hsweep, ?_⟩
      intro r e' hget
      have hgone := hreceipts r e' hget
      by_cases hr : r = receipt
      · subst hr
        exact nomatch (JsMap.get_delete_self s.leases.receipts r).symm.trans hgone
      · exact (JsMap.get_delete_ne s.leases.receipts hr).symm.trans hgone

/-- A call that is changed, as seen by a round. -/
theorem map_sent_modify (calls : List RenewCall) (call : ℕ) (f : RenewCall → RenewCall)
    (g : SentCall → SentCall) (hfg : ∀ c, (f c).sent = g c.sent) :
    (calls.modify call f).map RenewCall.sent = (calls.map RenewCall.sent).modify call g := by
  refine List.ext_getElem? ?_
  intro j
  rw [List.getElem?_map, List.getElem?_modify, List.getElem?_modify, List.getElem?_map]
  cases calls[j]? with
  | none => rfl
  | some c =>
      by_cases hj : call = j
      · simp [hj, hfg]
      · simp [hj]

/-- **What an event does to a round**, but for the one that opens it. -/
theorem move_next {response : ℕ → Option BatchResponse} {s : LeaseState} {e : LeaseEvent}
    (henabled : s.enabled e = true) (hok : Answers response s e)
    (hopens : e = .renewNow → s.leases.pending ≠ none) :
    RoundView.Move response s.view (s.next e).view := by
  have hsame : ∀ {s' : LeaseState}, s'.view = s.view → RoundView.Move response s.view s'.view := by
    intro s' heq
    rw [heq]
    exact .frame le_rfl le_rfl rfl rfl fun _ _ hget => .inl hget
  cases e with
  | tick t =>
      refine .frame (of_decide_eq_true henabled) le_rfl rfl rfl fun _ _ hget => .inl hget
  | serve receipt => exact hsame rfl
  | renew call receipt =>
      have hcalls := map_sent_modify s.calls call
        (fun c => { c with renewed := receipt :: c.renewed }) id fun _ => rfl
      rw [List.modify_id] at hcalls
      refine .frame le_rfl le_rfl hcalls rfl fun _ _ hget => .inl hget
  -- the new entry has a fresh number
  | track receipt =>
      refine .frame le_rfl (Nat.le_succ _) rfl rfl ?_
      intro r e' hget
      by_cases hr : r = receipt
      · subst hr
        have heq := (JsMap.get_set_self s.leases.receipts r _).symm.trans hget
        obtain rfl := Option.some.inj heq
        exact .inr ⟨le_rfl, Nat.lt_succ_self _⟩
      · exact .inl ((JsMap.get_set_ne s.leases.receipts hr _).symm.trans hget)
  | renewNow =>
      refine hsame ?_
      show (s.renewNow).view = s.view
      unfold renewNow
      split
      · rfl
      · next hnone => exact absurd hnone (hopens rfl)
  -- it looks at the next entry, sends a batch, or has sent the last one
  | sweep =>
      show RoundView.Move response s.view ((s.sweep.map s.goOn).getD s).view
      cases hsw : s.sweep with
      | none => exact hsame rfl
      | some w =>
          show RoundView.Move response s.view (s.goOn w).view
          unfold goOn
          split
          · next p rest hunseen => exact .look w p rest hsw hunseen rfl
          · next hunseen hkept => exact .sent w hsw hunseen hkept rfl
          · next p rest hunseen hkept =>
              refine .send w hsw hunseen ?_
              rw [hkept]
              show RoundView.mk _ _ _ _ ((s.calls ++ [_]).map RenewCall.sent) = _
              rw [List.map_append]
              rfl
  -- a batch is answered once, as the response says
  | answer call reply tryThrows catchThrows =>
      obtain ⟨rfl, rfl, hreply⟩ := hok
      have hunder : s.underWay call = true := by
        cases reply with
        | confirmed receipts => exact (Bool.and_eq_true_iff.mp henabled).2
        | failed => exact henabled
      obtain ⟨c, hc, hopen⟩ := (Option.any_eq_true _ _).mp hunder
      obtain rfl := hreply c hc
      have hcalls := map_sent_modify s.calls call (fun c => { c with answered := true })
        (fun c => { c with
          answered := true }) fun _ => rfl
      refine .answer call c.sent (by simp [view, hc]) (Bool.not_eq_true' _ ▸ hopen) ?_
      show ((s.calls[call]?.map fun c => s.answer call c _ false false).getD s).view = _
      rw [hc, Option.map_some, Option.getD_some]
      unfold LeaseState.answer view RoundView.answer
      simp only [VisibilityLeases.receive_renewBatch, hcalls]
      rfl
  | settle => exact hsame rfl
  | release receipt =>
      obtain ⟨hclock, hcreated, hcalls, hsweep, hreceipts⟩ := view_foldl_release [receipt] s
      exact .frame hclock.ge hcreated.ge hcalls hsweep fun r e' hget => .inl (hreceipts r e' hget)
  | stop => exact hsame rfl
  | resolve wait =>
      show RoundView.Move response s.view ((s.waits[wait]?.map (s.resolve wait)).getD s).view
      cases s.waits[wait]? with
      | none => exact hsame rfl
      | some w =>
          show RoundView.Move response s.view (s.resolve wait w).view
          unfold resolve
          split_ifs
          · exact .frame le_rfl le_rfl rfl rfl nofun
          · exact hsame rfl
  | operate kind =>
      obtain ⟨hclock, hcreated, hcalls, hsweep, hreceipts⟩ := view_foldl_release kind.receipts s
      exact .frame hclock.ge hcreated.ge hcalls hsweep fun r e' hget => .inl (hreceipts r e' hget)
  | issue operation => exact hsame rfl

/-- Rounds are numbered in their order, and only `renewNow` opens one. -/
theorem pending_next (s : LeaseState) (e : LeaseEvent) :
    s.rounds ≤ (s.next e).rounds ∧
      ((s.next e).leases.pending = s.leases.pending ∨ (s.next e).leases.pending = none ∨
        e = .renewNow ∧ s.leases.pending = none ∧ (s.next e).leases.pending = some s.rounds ∧
          (s.next e).rounds = s.rounds + 1) := by
  have hreleases : ∀ (receipts : List JsString) (s : LeaseState),
      (receipts.foldl release s).rounds = s.rounds ∧
        (receipts.foldl release s).leases.pending = s.leases.pending := by
    intro receipts
    induction receipts with
    | nil => exact fun s => ⟨rfl, rfl⟩
    | cons receipt rest ih => exact fun s => ih (s.release receipt)
  cases e with
  | renewNow =>
      show s.rounds ≤ (s.renewNow).rounds ∧ ((s.renewNow).leases.pending = s.leases.pending ∨ _)
      -- a round is opened only if none is pending
      cases hpending : s.leases.pending with
      | none =>
          have heq : (s.renewNow).rounds = s.rounds + 1 ∧
              (s.renewNow).leases.pending = some s.rounds := by
            unfold renewNow
            rw [hpending]
            exact ⟨rfl, rfl⟩
          exact ⟨by omega, .inr (.inr ⟨rfl, rfl, heq.2, heq.1⟩)⟩
      | some k =>
          have heq : s.renewNow = s := by
            unfold renewNow
            rw [hpending]
          rw [heq]
          exact ⟨le_rfl, .inl hpending⟩
  | sweep =>
      show s.rounds ≤ ((s.sweep.map s.goOn).getD s).rounds ∧
        (((s.sweep.map s.goOn).getD s).leases.pending = s.leases.pending ∨ _)
      cases s.sweep with
      | none => exact ⟨le_rfl, .inl rfl⟩
      | some w =>
          show s.rounds ≤ (s.goOn w).rounds ∧ ((s.goOn w).leases.pending = s.leases.pending ∨ _)
          unfold goOn
          split <;> exact ⟨le_rfl, .inl rfl⟩
  | answer call reply tryThrows catchThrows =>
      show s.rounds ≤ ((s.calls[call]?.map fun c => _).getD s).rounds ∧
        (((s.calls[call]?.map fun c => _).getD s).leases.pending = s.leases.pending ∨ _)
      cases s.calls[call]? with
      | none => exact ⟨le_rfl, .inl rfl⟩
      | some c => exact ⟨le_rfl, .inl (VisibilityLeases.pending_receive _ _ _ _)⟩
  | resolve wait =>
      show s.rounds ≤ ((s.waits[wait]?.map (s.resolve wait)).getD s).rounds ∧
        (((s.waits[wait]?.map (s.resolve wait)).getD s).leases.pending = s.leases.pending ∨ _)
      cases s.waits[wait]? with
      | none => exact ⟨le_rfl, .inl rfl⟩
      | some w =>
          refine ⟨le_rfl, .inl ?_⟩
          show (s.resolve wait w).leases.pending = s.leases.pending
          unfold resolve
          dsimp only
          split_ifs <;> rfl
  | operate kind =>
      obtain ⟨hrounds, hpending⟩ := hreleases kind.receipts s
      exact ⟨hrounds.ge, .inl hpending⟩
  | settle => exact ⟨le_rfl, .inr (.inl rfl)⟩
  | _ => exact ⟨le_rfl, .inl rfl⟩

/-- What is known between the rounds. -/
structure Filed (s : LeaseState) : Prop where
  orderly : Orderly s
  numbered : RoundView.Numbered s.view
  rounds : ∀ c ∈ s.view.calls, c.round < s.rounds

theorem view_renewNow {s : LeaseState} (h : s.leases.pending = none) :
    s.renewNow.view = { s.view with
      sweep := some ⟨s.rounds, s.leases.receipts.entries, []⟩ } := by
  unfold renewNow
  rw [h]
  rfl

/-- A step keeps the calls filed under their rounds. -/
theorem Filed.next {response : ℕ → Option BatchResponse} {s : LeaseState} (h : Filed s)
    {e : LeaseEvent} (henabled : s.enabled e = true) (hok : Answers response s e) :
    Filed (s.next e) := by
  have horderly := h.orderly.next henabled hok.onErrorReturns
  obtain ⟨hrounds, -⟩ := pending_next s e
  by_cases hopens : e = .renewNow ∧ s.leases.pending = none
  · obtain ⟨rfl, hnone⟩ := hopens
    have hview : (s.next .renewNow).view = _ := view_renewNow hnone
    refine ⟨horderly, ?_, ?_⟩
    · rw [hview]
      exact h.numbered
    · rw [hview]
      exact fun c hc => lt_of_lt_of_le (h.rounds c hc) hrounds
  · have hmove := move_next henabled hok fun he hnone => hopens ⟨he, hnone⟩
    refine ⟨horderly, h.numbered.move hmove, ?_⟩
    have hold : ∀ c ∈ s.view.calls, c.round < (s.next e).rounds := fun c hc =>
      lt_of_lt_of_le (h.rounds c hc) hrounds
    intro c hc
    cases hmove with
    | frame _ _ hcalls _ _ => exact hold c (hcalls ▸ hc)
    | look w p rest hw hunseen heq =>
        rw [heq] at hc
        exact hold c hc
    | sent w hw hunseen hkept heq =>
        rw [heq] at hc
        exact hold c hc
    | send w hw hunseen heq =>
        rw [heq] at hc
        rcases List.mem_append.mp hc with hc | hc
        · exact hold c hc
        · rw [List.mem_singleton.mp hc]
          exact lt_of_lt_of_le (h.orderly.pending _ (h.orderly.sweeping w hw)) hrounds
    | answer call d hd hopen heq =>
        rw [heq] at hc
        obtain ⟨j, hj⟩ := List.mem_iff_getElem?.mp hc
        obtain ⟨x, hx, rfl | ⟨-, rfl⟩⟩ := List.getElem?_modify_some hj
        · exact hold c (List.mem_of_getElem? hx)
        · exact hold x (List.mem_of_getElem? hx)

theorem filed_of_run {response : ℕ → Option BatchResponse} {s : LeaseState}
    (h : Run Start step (Answers response) s) : Filed s := by
  refine h.invariant (I := Filed) ?_ ?_
  · intro s hs
    refine ⟨hs.orderly, ?_, ?_⟩
    · intro r e hget
      have hget' : s.leases.receipts.get r = some e := hget
      rw [hs.leases] at hget'
      cases hget'
    · intro c hc
      have hc' : c ∈ s.calls.map RenewCall.sent := hc
      rw [hs.calls] at hc'
      cases hc'
  · intro s e s' hs hok hstep
    obtain ⟨henabled, rfl⟩ := step_eq_some.mp hstep
    exact hs.next henabled hok

/-- **A round begins**: nothing was looked at. -/
theorem Filed.opened {s : LeaseState} (h : Filed s) (hidle : s.leases.pending = none)
    (response : ℕ → Option BatchResponse) :
    RoundView.InRound s.roundStart response s.renewNow.view := by
  have hsent : s.renewNow.view.sentIn s.rounds = [] := by
    rw [view_renewNow hidle]
    show ((s.view.calls).filter (fun c => c.round == s.rounds)).flatMap SentCall.batch = []
    rw [List.filter_eq_nil_iff.mpr, List.flatMap_nil]
    intro c hc heq
    exact absurd (beq_iff_eq.mp heq) (ne_of_lt (h.rounds c hc))
  have hparts : s.renewNow.view.sentIn s.rounds ++ s.renewNow.view.kept ++
      s.renewNow.view.unseen = s.leases.receipts.entries := by
    rw [hsent, view_renewNow hidle]
    rfl
  refine ⟨s.leases.receipts.nodup, ⟨?_, ?_, ?_, ?_, ?_, ?_⟩, ⟨?_, ?_, ?_, ?_, ?_⟩⟩
  · rw [view_renewNow hidle]
    exact le_rfl
  · rw [view_renewNow hidle]
    intro w hw
    obtain rfl := Option.some.inj hw
    rfl
  · exact hparts ▸ List.Sublist.refl _
  · rw [view_renewNow hidle]
    exact fun _ c hc => ne_of_lt (h.rounds c hc)
  · intro p hp hout
    exact absurd (hparts ▸ hp) hout
  · intro p hp
    have hnil : s.renewNow.view.sentIn s.rounds ++ s.renewNow.view.kept = [] := by
      rw [hsent, view_renewNow hidle]
      rfl
    exact nomatch (hnil ▸ hp : p ∈ ([] : List (JsString × LeaseEntry)))
  · rw [view_renewNow hidle]
    exact le_rfl
  · intro p hp
    exact h.numbered p.1 p.2 (JsMap.get_of_mem hp)
  · rw [view_renewNow hidle]
    intro c hc _
    obtain ⟨x, hx, rfl⟩ := List.mem_map.mp hc
    obtain ⟨j, hj⟩ := List.mem_iff_getElem?.mp hx
    -- a call under way would belong to a pending round
    by_contra hopen
    have hround := h.orderly.calling j x hj (Bool.not_eq_true _ ▸ hopen)
    exact nomatch hidle.symm.trans hround
  · rw [view_renewNow hidle]
    intro p hp e' hget hid j c hc hcr
    exact absurd hcr (ne_of_lt (h.rounds c (List.mem_of_getElem? hc)))
  · rw [view_renewNow hidle]
    intro p hp e' hget hid _
    exact Option.some.inj (hget.symm.trans (JsMap.get_of_mem hp))

/-! ## After a round -/

/-- What is known after the start of a round: as long as it is pending, what it does. -/
def SinceStart (b : RoundStart) (response : ℕ → Option BatchResponse) (s : LeaseState) : Prop :=
  b.number < s.rounds ∧
    (s.leases.pending = some b.number → RoundView.InRound b response s.view)

/-- The state before an event of a pending round was in the round. -/
theorem pending_before {s : LeaseState} {e : LeaseEvent} {k : ℕ} (hlt : k < s.rounds)
    (hpending : (s.next e).leases.pending = some k) :
    s.leases.pending = some k ∧ (e = .renewNow → s.leases.pending ≠ none) := by
  obtain ⟨-, hsame | hnone | ⟨-, -, hopened, -⟩⟩ := pending_next s e
  · have hk := hsame.symm.trans hpending
    exact ⟨hk, fun _ hnone => nomatch hnone.symm.trans hk⟩
  · exact nomatch hnone.symm.trans hpending
  · have heq := Option.some.inj (hopened.symm.trans hpending)
    omega

/-- A step after the start of a round. -/
theorem SinceStart.next {b : RoundStart} {response : ℕ → Option BatchResponse} {s : LeaseState}
    (h : SinceStart b response s) {e : LeaseEvent} (henabled : s.enabled e = true)
    (hok : Answers response s e) : SinceStart b response (s.next e) := by
  refine ⟨lt_of_lt_of_le h.1 (pending_next s e).1, fun hpending => ?_⟩
  obtain ⟨hbefore, hopens⟩ := pending_before h.1 hpending
  exact (h.2 hbefore).move (move_next henabled hok hopens)

/-- What holds since the start of a round, in every later state. -/
theorem sinceStart_of_run {response : ℕ → Option BatchResponse} {s₀ s : LeaseState}
    (h₀ : Run Start step (Answers response) s₀) (hidle : s₀.leases.pending = none)
    (h : Run (fun x => x = s₀.renewNow) step (Answers response) s) :
    SinceStart s₀.roundStart response s := by
  refine h.invariant (I := SinceStart s₀.roundStart response) ?_ ?_
  · rintro s rfl
    refine ⟨?_, fun _ => (filed_of_run h₀).opened hidle response⟩
    show s₀.rounds < s₀.renewNow.rounds
    unfold renewNow
    rw [hidle]
    exact Nat.lt_succ_self _
  · intro s e s' hs hok hstep
    obtain ⟨henabled, rfl⟩ := step_eq_some.mp hstep
    exact hs.next henabled hok

/-- The entry at a place of a batch was reported successful and not failed. -/
def ReportedAt (response : Option BatchResponse) (i : ℕ) : Prop :=
  ∃ result, response = some result ∧ result.Reported (indexId i)

/-- What a round has done to the entry `e` of a receipt, which is `e'` in the end.  The round
has looked at it at a time `t` before its first batch.  If it was not expired then, it was sent
at one place of one batch, and has its time by the response to that place; otherwise the
receipt is in no batch of the round, and the entry is what it was. -/
def RoundOutcome (response : ℕ → Option BatchResponse) (s₀ s : LeaseState) (receipt : JsString)
    (e e' : LeaseEntry) : Prop :=
  ∃ t, s₀.clock ≤ t ∧ t ≤ s.clock ∧ (∀ c ∈ s.calls, c.round = s₀.rounds → t ≤ c.startedAt) ∧
    ((t < e.expiresAt ∧ ∃ j c i, s.calls[j]? = some c ∧ c.round = s₀.rounds ∧
        c.batch[i]? = some (receipt, e) ∧
        (∀ j' c' i', s.calls[j']? = some c' → c'.round = s₀.rounds →
          c'.batch[i']? = some (receipt, e) → j' = j ∧ i' = i) ∧
        (ReportedAt (response j) i → e'.expiresAt = c.startedAt + 30000) ∧
        (¬ ReportedAt (response j) i → e'.expiresAt = 0)) ∨
      (e.expiresAt ≤ t ∧
        (∀ c ∈ s.calls, c.round = s₀.rounds → ∀ p ∈ c.batch, p.1 ≠ receipt) ∧ e' = e))

/-- The time that a call gives to the receipt at a place of its batch. -/
theorem renewedTo_eq {c : SentCall} (hnodup : (c.batch.map Prod.fst).Nodup)
    {response : Option BatchResponse} {i : ℕ} {p : JsString × LeaseEntry}
    (hi : c.batch[i]? = some p) :
    (ReportedAt response i → RoundView.renewedTo c response p.1 = c.startedAt + 30000) ∧
      (¬ ReportedAt response i → RoundView.renewedTo c response p.1 = 0) := by
  cases response with
  | none => exact ⟨fun ⟨_, hnone, _⟩ => (nomatch hnone), fun _ => rfl⟩
  | some result =>
      have hplace : (c.batch.map Prod.fst)[i]? = some p.1 := by
        rw [List.getElem?_map, hi]
        rfl
      have hiff : p.1 ∈ confirmedBatchReceipts (c.batch.map Prod.fst) result ↔
          ReportedAt (some result) i := by
        rw [mem_confirmedBatchReceipts]
        constructor
        · rintro ⟨i', hi', hreported⟩
          obtain ⟨hlt, -⟩ := List.getElem?_eq_some_iff.mp hplace
          obtain rfl := (List.getElem?_inj hlt hnodup).mp (hplace.trans hi'.symm)
          exact ⟨result, rfl, hreported⟩
        · rintro ⟨result', heq, hreported⟩
          obtain rfl := Option.some.inj heq
          exact ⟨i, hplace, hreported⟩
      unfold RoundView.renewedTo
      simp only [List.contains_iff_mem]
      exact ⟨fun hr => if_pos (hiff.mpr hr), fun hr => if_neg fun hin => hr (hiff.mp hin)⟩

/-- **A round is attributed to the right receipts.** -/
theorem renewal_round {response : ℕ → Option BatchResponse} {s₀ s : LeaseState}
    (h₀ : Run Start step (Answers response) s₀) (hidle : s₀.leases.pending = none)
    (h : Run (fun x => x = s₀.renewNow) step (Answers response) s)
    (hpending : s.leases.pending = some s₀.rounds) (hsweep : s.sweep = none)
    (hdone : s.roundDone s₀.rounds = true) {receipt : JsString} {e e' : LeaseEntry}
    (hstart : s₀.leases.receipts.get receipt = some e)
    (hget : s.leases.receipts.get receipt = some e') (hid : e'.id = e.id) :
    RoundOutcome response s₀ s receipt e e' := by
  obtain ⟨hnodup, hdivided, hrenewed⟩ := (sinceStart_of_run h₀ hidle h).2 hpending
  have hentry : (receipt, e) ∈ s₀.leases.receipts.entries := JsMap.mem_of_get hstart
  have hempty : s.view.sentIn s₀.rounds ++ s.view.kept ++ s.view.unseen =
      s.view.sentIn s₀.rounds := by
    have hk : s.view.kept = [] := by
      unfold RoundView.kept view
      rw [hsweep]
      rfl
    have hu : s.view.unseen = [] := by
      unfold RoundView.unseen view
      rw [hsweep]
      rfl
    rw [hk, hu, List.append_nil, List.append_nil]
  have hcalls : ∀ {t : ℚ}, RoundView.LookedAt s₀.roundStart s.view t →
      ∀ c ∈ s.calls, c.round = s₀.rounds → t ≤ c.startedAt := by
    intro t ht c hc hround
    exact ht.2.2 c.sent (List.mem_map.mpr ⟨c, hc, rfl⟩) hround
  have hsent : ∀ {j : ℕ} {c : RenewCall}, s.calls[j]? = some c →
      s.view.calls[j]? = some c.sent := by
    intro j c hc
    unfold view
    rw [List.getElem?_map, hc]
    rfl
  by_cases hin : (receipt, e) ∈ s.view.sentIn s₀.rounds
  · obtain ⟨t, ht, hlt⟩ := hdivided.current _ (List.mem_append_left _ hin)
    refine ⟨t, ht.1, ht.2.1, hcalls ht, .inl ⟨hlt, ?_⟩⟩
    obtain ⟨d, hd, hround, hp⟩ := RoundView.mem_sentIn.mp hin
    obtain ⟨c, hc, rfl⟩ := List.mem_map.mp hd
    obtain ⟨j, hj⟩ := List.mem_iff_getElem?.mp hc
    obtain ⟨i, hi⟩ := List.mem_iff_getElem?.mp hp
    have hbatch : (c.batch.map Prod.fst).Nodup := by
      have hall : ((s.view.sentIn s₀.rounds ++ s.view.kept ++ s.view.unseen).map
          Prod.fst).Nodup := hdivided.nodup hnodup
      rw [hempty] at hall
      unfold RoundView.sentIn at hall
      rw [List.map_flatMap, List.nodup_flatMap] at hall
      exact hall.1 c.sent (List.mem_filter.mpr ⟨hd, beq_iff_eq.mpr hround⟩)
    have hanswered : c.answered = true := by
      have hor := List.all_eq_true.mp hdone c hc
      rw [Bool.or_eq_true, bne_iff_ne] at hor
      exact hor.resolve_right fun hne => hne hround
    have hvalue := hrenewed.called _ hentry e' hget hid j c.sent (hsent hj) hround hp
    rw [show c.sent.answered = true from hanswered, if_pos rfl] at hvalue
    have htime : (ReportedAt (response j) i →
        RoundView.renewedTo c.sent (response j) receipt = c.startedAt + 30000) ∧
          (¬ ReportedAt (response j) i → RoundView.renewedTo c.sent (response j) receipt = 0) :=
      renewedTo_eq hbatch hi
    obtain ⟨hyes, hno⟩ := htime
    refine ⟨j, c, i, hj, hround, hi, ?_, ?_, ?_⟩
    · intro j' c' i' hj' hround' hi'
      obtain rfl := hdivided.batch_unique hnodup (hsent hj') (hsent hj) hround' hround
        (List.mem_of_getElem? hi') hp rfl
      obtain rfl := Option.some.inj (hj.symm.trans hj')
      obtain ⟨hlt', -⟩ := List.getElem?_eq_some_iff.mp hi'
      have hbn : c.batch.Nodup := hbatch.of_map Prod.fst
      exact ⟨rfl, (List.getElem?_inj hlt' hbn).mp (hi'.trans hi.symm)⟩
    · intro hreported
      rw [hvalue]
      exact hyes hreported
    · intro hreported
      rw [hvalue]
      exact hno hreported
  · have hout : (receipt, e) ∉ s.view.sentIn s₀.rounds ++ s.view.kept ++ s.view.unseen := by
      rw [hempty]
      exact hin
    obtain ⟨t, ht, hle⟩ := hdivided.expired _ hentry hout
    refine ⟨t, ht.1, ht.2.1, hcalls ht, .inr ⟨hle, ?_, hrenewed.unsent _ hentry e' hget hid hin⟩⟩
    intro c hc hround p hp hreceipt
    have hsentIn : p ∈ s.view.sentIn s₀.rounds :=
      RoundView.mem_sentIn.mpr ⟨c.sent, List.mem_map.mpr ⟨c, hc, rfl⟩, hround, hp⟩
    -- only one entry of the start has this receipt
    have hsame : p = (receipt, e) :=
      List.inj_on_of_nodup_map hnodup (hdivided.mem_entries hsentIn) hentry hreceipt
    exact hin (hsame ▸ hsentIn)

/-- A round is opened by an event of the run. -/
theorem run_opened {response : ℕ → Option BatchResponse} {s₀ s : LeaseState}
    (h₀ : Run Start step (Answers response) s₀) (hidle : s₀.leases.pending = none)
    (h : Run (fun x => x = s₀.renewNow) step (Answers response) s) :
    Run Start step (Answers response) s := by
  have hfree : s₀.free = true := by
    rw [free, Option.isNone_iff_eq_none]
    by_contra hsweep
    obtain ⟨w, hw⟩ := Option.ne_none_iff_exists'.mp hsweep
    exact nomatch hidle.symm.trans ((filed_of_run h₀).orderly.sweeping w hw)
  refine h.invariant ?_ fun s e s' hs hok hstep => .next hs hok hstep
  rintro s rfl
  exact .next (a := .renewNow) h₀ trivial (step_eq_some.mpr ⟨hfree, rfl⟩)

/-- **A receipt that was tracked since the start** is not touched by the round. -/
theorem unchanged_in_round {response : ℕ → Option BatchResponse} {s₀ s₁ s : LeaseState}
    (h₀ : Run Start step (Answers response) s₀) (hidle : s₀.leases.pending = none)
    (h₁ : Run (fun x => x = s₀.renewNow) step (Answers response) s₁)
    (h : Run (fun x => x = s₁) step (Answers response) s)
    (hpending : s.leases.pending = some s₀.rounds) {receipt : JsString} {e₁ e' : LeaseEntry}
    (hold : s₁.leases.receipts.get receipt = some e₁) (hnew : s₀.leases.created ≤ e₁.id)
    (hget : s.leases.receipts.get receipt = some e') (hid : e'.id = e₁.id) : e' = e₁ := by
  have hnumbered : e₁.id < s₁.leases.created :=
    (filed_of_run (run_opened h₀ hidle h₁)).numbered receipt e₁ hold
  have hall : SinceStart s₀.roundStart response s ∧ e₁.id < s.view.created ∧
      (s.leases.pending = some s₀.rounds → ∀ e', s.view.receipts.get receipt = some e' →
        e'.id = e₁.id → e' = e₁) := by
    refine h.invariant (I := fun s => SinceStart s₀.roundStart response s ∧
      e₁.id < s.view.created ∧ (s.leases.pending = some s₀.rounds → ∀ e',
        s.view.receipts.get receipt = some e' → e'.id = e₁.id → e' = e₁)) ?_ ?_
    · rintro s rfl
      refine ⟨sinceStart_of_run h₀ hidle h₁, hnumbered, ?_⟩
      intro _ e' hget _
      exact Option.some.inj (hget.symm.trans hold)
    · rintro s e s' ⟨hsince, hlt, hkept⟩ hok hstep
      obtain ⟨henabled, rfl⟩ := step_eq_some.mp hstep
      have hsince' := hsince.next henabled hok
      by_cases hopens : e = .renewNow ∧ s.leases.pending = none
      · obtain ⟨rfl, hnone⟩ := hopens
        have hview : (s.next .renewNow).view = _ := view_renewNow hnone
        refine ⟨hsince', hview ▸ hlt, fun hpending => ?_⟩
        exact absurd hnone ((pending_before hsince.1 hpending).2 rfl)
      · have hmove := move_next henabled hok fun he hnone => hopens ⟨he, hnone⟩
        refine ⟨hsince', lt_of_lt_of_le hlt (RoundView.created_move hmove), ?_⟩
        intro hpending e' hget hid
        obtain ⟨hbefore, -⟩ := pending_before hsince.1 hpending
        have hround := hsince.2 hbefore
        have hlow : s₀.roundStart.created ≤ e'.id := hid ▸ hnew
        exact hkept hbefore e' (hround.unchanged hmove hget hlow (hid ▸ hlt)) hid
  exact hall.2.2 hpending e' hget hid

/-- **Batch confirmations are attributed to the right receipts**: after a round every entry
that was tracked at its start and is still the same object has the time that the response to
its own place in its own batch gives it, or is what it was if the round found it expired; every
entry that was tracked since is what it was; and `deferExcessMessages` sends, counts and logs
what was confirmed. -/
theorem batch_confirmations (response : ℕ → Option BatchResponse) :
    (∀ s₀ s : LeaseState, Run Start step (Answers response) s₀ → s₀.leases.pending = none →
      Run (fun x => x = s₀.renewNow) step (Answers response) s →
      s.leases.pending = some s₀.rounds → s.sweep = none → s.roundDone s₀.rounds = true →
      ∀ receipt e e', s₀.leases.receipts.get receipt = some e →
        s.leases.receipts.get receipt = some e' → e'.id = e.id →
        RoundOutcome response s₀ s receipt e e') ∧
    (∀ s₀ s₁ s : LeaseState, Run Start step (Answers response) s₀ → s₀.leases.pending = none →
      Run (fun x => x = s₀.renewNow) step (Answers response) s₁ →
      Run (fun x => x = s₁) step (Answers response) s → s.leases.pending = some s₀.rounds →
      ∀ receipt e₁ e', s₁.leases.receipts.get receipt = some e₁ → s₀.leases.created ≤ e₁.id →
        s.leases.receipts.get receipt = some e' → e'.id = e₁.id → e' = e₁) ∧
    ∀ receipts : List JsString, receipts.Nodup →
      (((deferReceipts receipts response).sent.flatten).map BatchEntry.receiptHandle = receipts ∧
        ∀ request ∈ (deferReceipts receipts response).sent,
          1 ≤ request.length ∧ request.length ≤ 10) ∧
      (deferReceipts receipts response).counted =
        {receipt | ConfirmedBy receipts response receipt}.ncard ∧
      (deferReceipts receipts response).logged.Nodup ∧
      ∀ (j : ℕ) (batch : List JsString), (ReceiveLoop.batchesOf receipts)[j]? = some batch →
        (j ∈ (deferReceipts receipts response).logged ↔ response j = none ∨
          ∃ result, response j = some result ∧
            (result.hasFailures = true ∨ ∃ receipt ∈ batch, ¬ Confirms batch result receipt)) := by
  refine ⟨?_, ?_, fun receipts h => deferral_attributed h response⟩
  · intro s₀ s h₀ hidle h hpending hsweep hdone receipt e e' hstart hget hid
    exact renewal_round h₀ hidle h hpending hsweep hdone hstart hget hid
  · intro s₀ s₁ s h₀ hidle h₁ h hpending receipt e₁ e' hold hnew hget hid
    exact unchanged_in_round h₀ hidle h₁ h hpending hold hnew hget hid

end LeaseState

/-! ## Sample rounds -/

namespace Sample

/-- The first entry has succeeded, the second both has and has not. -/
def contradictory : ℕ → Option BatchResponse :=
  fun _ => some { successful := some [some (js "0"), some (js "1")]
                  failed := some [some (js "1")] }

/-- Two replies are the same. -/
def sameReply : Reply → Reply → Bool
  | .confirmed a, .confirmed b => a == b
  | .failed, .failed => true
  | _, _ => false

/-- The condition on an event, as a check. -/
def answers (response : ℕ → Option BatchResponse) (s : LeaseState) : LeaseEvent → Bool
  | .answer call reply tryThrows catchThrows => !tryThrows && !catchThrows &&
      (s.calls[call]?).all fun c =>
        sameReply reply (renewBatch (c.batch.map Prod.fst) (response call))
  | _ => true

theorem answers_of_check {response : ℕ → Option BatchResponse} {s : LeaseState} {e : LeaseEvent}
    (h : answers response s e = true) : LeaseState.Answers response s e := by
  cases e with
  | answer call reply tryThrows catchThrows =>
      obtain ⟨hthrows, hreply⟩ := Bool.and_eq_true_iff.mp h
      obtain ⟨htry, hcatch⟩ := Bool.and_eq_true_iff.mp hthrows
      refine ⟨Bool.not_eq_true' _ ▸ htry, Bool.not_eq_true' _ ▸ hcatch, ?_⟩
      intro c hc
      rw [hc] at hreply
      have hsame : sameReply reply (renewBatch (c.batch.map Prod.fst) (response call)) = true :=
        hreply
      unfold sameReply at hsame
      split at hsame
      · next a b _ hb =>
          rw [beq_iff_eq.mp hsame, hb]
      · next _ hb => rw [hb]
      · cases hsame
  | _ => trivial

/-- What a list of events leads to. -/
def after (response : ℕ → Option BatchResponse) (events : List LeaseEvent) (s : LeaseState) :
    LeaseState :=
  (Run.play LeaseState.step (answers response) events s).getD s

theorem run_after {start : LeaseState → Prop} {response : ℕ → Option BatchResponse}
    {events : List LeaseEvent} {s : LeaseState}
    (hs : start s)
    (h : (Run.play LeaseState.step (answers response) events s).isSome = true) :
    Run start LeaseState.step (LeaseState.Answers response) (after response events s) := by
  obtain ⟨s', hs'⟩ := Option.isSome_iff_exists.mp h
  have heq : after response events s = s' := by
    unfold after
    rw [hs']
    rfl
  rw [heq]
  exact Run.of_play (fun _ _ => answers_of_check) (.init hs) hs'

/-- Two receipts are tracked. -/
def twoTracked : LeaseState :=
  after contradictory [.track (js "r"), .track (js "q"), .tick 10000] leases

/-- The round looks at both and sends them; the answer comes late. -/
def roundOfTwo : LeaseState :=
  after contradictory [.sweep, .sweep, .sweep, .sweep, .tick 12000,
    .answer 0 (.confirmed [js "r"]) false false] twoTracked.renewNow

/-- A receipt is tracked, and nearly expired. -/
def nearlyExpired : LeaseState := after contradictory [.track (js "r"), .tick 29999] leases

/-- A round that is opened before the receipt expires, and looks at it when it has. -/
def lateLook : LeaseState :=
  after contradictory [.tick 30000, .sweep, .sweep] nearlyExpired.renewNow

end Sample

namespace LeaseState

/-- A batch of two with contradictory answers. -/
theorem batch_confirmations_sample :
    RoundOutcome Sample.contradictory Sample.twoTracked Sample.roundOfTwo (js "r") ⟨0, 30000⟩
      ⟨0, 40000⟩ ∧
    (deferReceipts [js "r", js "q"] Sample.contradictory).counted =
      {receipt | ConfirmedBy [js "r", js "q"] Sample.contradictory receipt}.ncard := by
  have h₀ : Run Start step (Answers Sample.contradictory) Sample.twoTracked :=
    Sample.run_after Sample.leases_start (by decide)
  have h : Run (fun x => x = Sample.twoTracked.renewNow) step (Answers Sample.contradictory)
      Sample.roundOfTwo := Sample.run_after rfl (by decide +kernel)
  obtain ⟨hround, -, hdefer⟩ := batch_confirmations Sample.contradictory
  refine ⟨?_, (hdefer [js "r", js "q"] (by decide)).2.1⟩
  exact hround _ _ h₀ (by decide +kernel) h (by decide +kernel)
    (Option.isNone_iff_eq_none.mp (by decide +kernel)) (by decide +kernel) (js "r") ⟨0, 30000⟩
    ⟨0, 40000⟩ (by decide +kernel) (by decide +kernel) rfl

/-- **The filter reads the clock for every entry**: a receipt that was unexpired when the round
began, and has expired when the round looks at it, is in no batch, and keeps its time. -/
theorem late_look_keeps_expiry : ∃ s₀ s : LeaseState,
    Run Start step (Answers Sample.contradictory) s₀ ∧ s₀.leases.pending = none ∧
    Run (fun x => x = s₀.renewNow) step (Answers Sample.contradictory) s ∧
    s.leases.pending = some s₀.rounds ∧ s.sweep = none ∧ s.roundDone s₀.rounds = true ∧
    ∃ e, s₀.leases.receipts.get (js "r") = some e ∧ s₀.clock < e.expiresAt ∧
      s.leases.receipts.get (js "r") = some e ∧ e.expiresAt ≠ 0 ∧ s.calls = [] :=
  ⟨Sample.nearlyExpired, Sample.lateLook,
    Sample.run_after Sample.leases_start (by decide), by decide,
    Sample.run_after rfl (by decide +kernel), by decide +kernel,
    Option.isNone_iff_eq_none.mp (by decide +kernel), by decide +kernel, ⟨0, 30000⟩,
    by decide +kernel, by decide +kernel, by decide +kernel, by decide +kernel,
    List.length_eq_zero_iff.mp (by decide +kernel)⟩

end LeaseState
