/-
# Confirmations of a batch (`delivery/queue-confirmations.ts`)

The queue changes the visibility of up to ten messages in one request.  The entries of a
request are named by their place in it, and the response says of every name whether the
entry succeeded or failed, or says nothing, or says both, or names an entry that was not
sent.

* `mem_confirmedBatchReceipts` is what is counted as confirmed.
* `deferExcessMessages` of `worker/src/index.ts` sends its receipts in such batches.
-/
import Waybill.JsMap
import Waybill.ReceiveLoop

/-! ## Maps from lists -/

namespace JsMap

variable {K V : Type} [DecidableEq K]

/-- `new Map(entries)`. -/
def ofList (entries : List (K × V)) : JsMap K V := entries.foldl (fun m p => m.set p.1 p.2) empty

theorem get_foldl_set {entries : List (K × V)} (h : (entries.map Prod.fst).Nodup) (m : JsMap K V)
    (key : K) (v : V) :
    (entries.foldl (fun m p => m.set p.1 p.2) m).get key = some v ↔
      (key, v) ∈ entries ∨ key ∉ entries.map Prod.fst ∧ m.get key = some v := by
  induction entries generalizing m with
  | nil => simp
  | cons p rest ih =>
      obtain ⟨hnot, hrest⟩ := List.nodup_cons.mp h
      rw [List.foldl_cons, ih hrest]
      by_cases hp : key = p.1
      · subst hp
        have hout : ∀ w, (p.1, w) ∉ rest := fun w hw => hnot (List.mem_map.mpr ⟨_, hw, rfl⟩)
        rw [get_set_self]
        constructor
        · rintro (hin | ⟨-, hv⟩)
          · exact absurd hin (hout v)
          · exact .inl (Option.some.inj hv ▸ List.mem_cons_self)
        · rintro (hin | ⟨hkey, -⟩)
          · rcases List.mem_cons.mp hin with heq | hin
            · exact .inr ⟨hnot, by rw [← heq]⟩
            · exact absurd hin (hout v)
          · exact absurd List.mem_cons_self hkey
      · have hne : (key, v) ≠ p := fun heq => hp (by rw [← heq])
        rw [get_set_ne _ hp, List.mem_cons, List.map_cons, List.mem_cons, not_or]
        constructor
        · rintro (hin | ⟨hkey, hv⟩)
          · exact .inl (.inr hin)
          · exact .inr ⟨⟨hp, hkey⟩, hv⟩
        · rintro ((heq | hin) | ⟨⟨-, hkey⟩, hv⟩)
          · exact absurd heq hne
          · exact .inl hin
          · exact .inr ⟨hkey, hv⟩

/-- **A map of distinct keys** has the entries it was made of. -/
theorem get_ofList {entries : List (K × V)} (h : (entries.map Prod.fst).Nodup) {key : K} {v : V} :
    (ofList entries).get key = some v ↔ (key, v) ∈ entries := by
  rw [ofList, get_foldl_set h]
  simp [get_empty]

end JsMap

/-! ## Names of entries -/

/-- `String(index)`. -/
def indexId (index : ℕ) : JsString := (Nat.toDigits 10 index).map (fun c => UInt16.ofNat c.toNat)

/-- The digits can be read off the name. -/
theorem map_indexId (index : ℕ) :
    (indexId index).map (fun u => Char.ofNat u.toNat) = Nat.toDigits 10 index := by
  rw [indexId, List.map_map]
  refine (List.map_congr_left ?_).trans (List.map_id _)
  intro c hc
  have hdigit := Nat.isDigit_of_mem_toDigits (by omega) le_rfl hc
  rw [Char.isDigit, Bool.and_eq_true, decide_eq_true_eq, decide_eq_true_eq] at hdigit
  have hle : c.toNat ≤ 57 := UInt32.le_iff_toNat_le.mp hdigit.2
  show Char.ofNat (UInt16.ofNat c.toNat).toNat = c
  rw [UInt16.toNat_ofNat', Nat.mod_eq_of_lt (by omega), Char.ofNat_toNat]

theorem indexId_injective : Function.Injective indexId := by
  intro i j h
  have hdigits : Nat.toDigits 10 i = Nat.toDigits 10 j := by
    rw [← map_indexId, h, map_indexId]
  rw [← Nat.ofDigitChars_ten_toDigits (n := i), hdigits, Nat.ofDigitChars_ten_toDigits]

/-! ## What is confirmed -/

/-- The names in the response to a batch request; an entry may have none. -/
structure BatchResponse where
  successful : Option (List (Option JsString))
  failed : Option (List (Option JsString))

namespace BatchResponse

/-- `result.Failed ?? []`. -/
def failures (result : BatchResponse) : List (Option JsString) := result.failed.getD []

/-- `result.Failed?.length`, as a condition. -/
def hasFailures (result : BatchResponse) : Bool := !result.failures.isEmpty

/-- An entry was reported successful and not failed. -/
def Reported (result : BatchResponse) (id : JsString) : Prop :=
  some id ∈ result.successful.getD [] ∧ some id ∉ result.failures

end BatchResponse

/-- `set.add(value)`, on the values in their order. -/
def addValue {V : Type} [DecidableEq V] (values : List V) (v : V) : List V :=
  if v ∈ values then values else values ++ [v]

/-- The loop over `result.Successful`. -/
def confirmEntries (requested : JsMap JsString JsString) (failed : List (Option JsString)) :
    List (Option JsString) → List JsString → List JsString
  | [], confirmed => confirmed
  | entry :: rest, confirmed =>
      match entry with
      | none => confirmEntries requested failed rest confirmed
      | some id =>
          if some id ∈ failed then confirmEntries requested failed rest confirmed
          else
            match requested.get id with
            | none => confirmEntries requested failed rest confirmed
            | some receipt => confirmEntries requested failed rest (addValue confirmed receipt)

/-- **`confirmedBatchReceipts(receipts, result)`**, as the values of the set in the order in
which they came. -/
def confirmedBatchReceipts (receipts : List JsString) (result : BatchResponse) : List JsString :=
  confirmEntries (.ofList (receipts.mapIdx fun index receipt => (indexId index, receipt)))
    result.failures (result.successful.getD []) []

theorem mem_addValue {V : Type} [DecidableEq V] {values : List V} {v w : V} :
    w ∈ addValue values v ↔ w = v ∨ w ∈ values := by
  unfold addValue
  split_ifs with hin
  · exact ⟨.inr, fun h => h.elim (fun heq => heq ▸ hin) id⟩
  · rw [List.mem_append, List.mem_singleton, or_comm]

theorem nodup_addValue {V : Type} [DecidableEq V] {values : List V} (h : values.Nodup) (v : V) :
    (addValue values v).Nodup := by
  unfold addValue
  split_ifs with hin
  · exact h
  · rw [List.nodup_append]
    refine ⟨h, List.nodup_singleton v, ?_⟩
    intro a ha b hb hab
    exact hin (List.mem_singleton.mp hb ▸ hab ▸ ha)

theorem mem_confirmEntries {requested : JsMap JsString JsString}
    {failed entries : List (Option JsString)} {confirmed : List JsString} {receipt : JsString} :
    receipt ∈ confirmEntries requested failed entries confirmed ↔
      receipt ∈ confirmed ∨ ∃ id, some id ∈ entries ∧ some id ∉ failed ∧
        requested.get id = some receipt := by
  induction entries generalizing confirmed with
  | nil => simp [confirmEntries]
  | cons entry rest ih =>
      cases entry with
      | none =>
          rw [confirmEntries, ih]
          simp
      | some id =>
          have hsplit : (∃ id', some id' ∈ some id :: rest ∧ some id' ∉ failed ∧
              requested.get id' = some receipt) ↔
              (some id ∉ failed ∧ requested.get id = some receipt) ∨
                ∃ id', some id' ∈ rest ∧ some id' ∉ failed ∧ requested.get id' = some receipt := by
            simp only [List.mem_cons, Option.some.injEq, or_and_right, exists_or,
              exists_eq_left]
          rw [confirmEntries, hsplit]
          by_cases hfailed : some id ∈ failed
          · rw [if_pos hfailed, ih]
            simp only [hfailed, not_true_eq_false, false_and, false_or]
          · rw [if_neg hfailed]
            cases hget : requested.get id with
            | none =>
                simp only [ih, reduceCtorEq, and_false, false_or]
            | some receipt' =>
                simp only [ih, mem_addValue, hfailed, not_false_eq_true, true_and,
                  Option.some.injEq]
                constructor
                · rintro ((heq | hin) | hlater)
                  · exact .inr (.inl heq.symm)
                  · exact .inl hin
                  · exact .inr (.inr hlater)
                · rintro (hin | heq | hlater)
                  · exact .inl (.inr hin)
                  · exact .inl (.inl heq.symm)
                  · exact .inr hlater

theorem nodup_confirmEntries {requested : JsMap JsString JsString}
    {failed entries : List (Option JsString)} {confirmed : List JsString} (h : confirmed.Nodup) :
    (confirmEntries requested failed entries confirmed).Nodup := by
  induction entries generalizing confirmed with
  | nil => exact h
  | cons entry rest ih =>
      cases entry with
      | none => exact ih h
      | some id =>
          rw [confirmEntries]
          split_ifs
          · exact ih h
          · split
            · exact ih h
            · exact ih (nodup_addValue h _)

/-- **What is confirmed**: a receipt whose own entry was reported successful and not
failed. -/
theorem mem_confirmedBatchReceipts {receipts : List JsString} {result : BatchResponse}
    {receipt : JsString} :
    receipt ∈ confirmedBatchReceipts receipts result ↔
      ∃ i, receipts[i]? = some receipt ∧ result.Reported (indexId i) := by
  have hkeys : ((receipts.mapIdx fun index receipt => (indexId index, receipt)).map
      Prod.fst).Nodup := by
    have hrange : (receipts.mapIdx fun index receipt => (indexId index, receipt)).map Prod.fst =
        (List.range receipts.length).map indexId := by
      refine List.ext_getElem (by simp) ?_
      intro i _ _
      simp
    rw [hrange]
    exact List.nodup_range.map indexId_injective
  have hget : ∀ {id : JsString}, (JsMap.ofList (receipts.mapIdx fun index receipt =>
      (indexId index, receipt))).get id = some receipt ↔
        ∃ i, receipts[i]? = some receipt ∧ indexId i = id := by
    intro id
    rw [JsMap.get_ofList hkeys, List.mem_mapIdx]
    constructor
    · rintro ⟨i, hi, heq⟩
      obtain ⟨hid, hreceipt⟩ := Prod.mk.inj heq
      exact ⟨i, hreceipt ▸ List.getElem?_eq_getElem hi, hid⟩
    · rintro ⟨i, hi, hid⟩
      obtain ⟨hlt, hreceipt⟩ := List.getElem?_eq_some_iff.mp hi
      exact ⟨i, hlt, by rw [hid, hreceipt]⟩
  unfold confirmedBatchReceipts
  rw [mem_confirmEntries]
  constructor
  · rintro (hin | ⟨id, hok, hfail, hrequested⟩)
    · cases hin
    · obtain ⟨i, hi, rfl⟩ := hget.mp hrequested
      exact ⟨i, hi, hok, hfail⟩
  · rintro ⟨i, hi, hok, hfail⟩
    exact .inr ⟨indexId i, hok, hfail, hget.mpr ⟨i, hi, rfl⟩⟩

theorem nodup_confirmedBatchReceipts (receipts : List JsString) (result : BatchResponse) :
    (confirmedBatchReceipts receipts result).Nodup := nodup_confirmEntries List.nodup_nil

/-! ## Requests -/

/-- An entry of a request to change visibilities. -/
structure BatchEntry where
  id : JsString
  receiptHandle : JsString
  visibilityTimeout : ℕ

/-- The entries for a batch of receipts. -/
def batchEntries (receipts : List JsString) : List BatchEntry :=
  receipts.mapIdx fun index receipt =>
    { id := indexId index, receiptHandle := receipt, visibilityTimeout := 30 }

/-- The receipt's own entry was reported successful and not failed. -/
def Confirms (batch : List JsString) (result : BatchResponse) (receipt : JsString) : Prop :=
  ∃ entry ∈ batchEntries batch, entry.receiptHandle = receipt ∧ result.Reported entry.id

theorem mem_confirmed_iff {batch : List JsString} {result : BatchResponse} {receipt : JsString} :
    receipt ∈ confirmedBatchReceipts batch result ↔ Confirms batch result receipt := by
  rw [mem_confirmedBatchReceipts, Confirms]
  constructor
  · rintro ⟨i, hi, hreported⟩
    obtain ⟨hlt, rfl⟩ := List.getElem?_eq_some_iff.mp hi
    exact ⟨_, List.mem_mapIdx.mpr ⟨i, hlt, rfl⟩, rfl, hreported⟩
  · rintro ⟨entry, hentry, rfl, hreported⟩
    obtain ⟨i, hlt, rfl⟩ := List.mem_mapIdx.mp hentry
    exact ⟨i, List.getElem?_eq_getElem hlt, hreported⟩

/-- Only receipts of the batch are confirmed. -/
theorem Confirms.mem {batch : List JsString} {result : BatchResponse} {receipt : JsString}
    (h : Confirms batch result receipt) : receipt ∈ batch := by
  obtain ⟨i, hi, -⟩ := mem_confirmedBatchReceipts.mp (mem_confirmed_iff.mpr h)
  exact List.mem_of_getElem? hi

/-- The whole batch is confirmed if as many receipts are as it has. -/
theorem length_confirmed_eq {batch : List JsString} (h : batch.Nodup) (result : BatchResponse) :
    (confirmedBatchReceipts batch result).length = batch.length ↔
      ∀ receipt ∈ batch, Confirms batch result receipt := by
  have hsub : confirmedBatchReceipts batch result ⊆ batch :=
    fun receipt hin => (mem_confirmed_iff.mp hin).mem
  have hsubperm := (nodup_confirmedBatchReceipts batch result).subperm hsub
  constructor
  · intro hlength receipt hin
    have hperm := hsubperm.perm_of_length_le hlength.ge
    exact mem_confirmed_iff.mp (hperm.mem_iff.mpr hin)
  · intro hall
    have hback : batch ⊆ confirmedBatchReceipts batch result :=
      fun receipt hin => mem_confirmed_iff.mpr (hall receipt hin)
    exact le_antisymm hsubperm.length_le (h.subperm hback).length_le

/-! ## Batches of ten -/

/-- The first batches hold the first receipts. -/
theorem flatten_batches (receipts : List JsString) (k : ℕ) :
    ((List.range k).map (fun i => (receipts.drop (10 * i)).take 10)).flatten =
      receipts.take (10 * k) := by
  induction k with
  | zero => simp
  | succ k ih =>
      rw [List.range_succ, List.map_append, List.flatten_append, ih, Nat.mul_succ, List.take_add]
      simp

/-- **Every receipt is in one batch.** -/
theorem flatten_batchesOf (receipts : List JsString) :
    (ReceiveLoop.batchesOf receipts).flatten = receipts := by
  unfold ReceiveLoop.batchesOf
  rw [flatten_batches, List.take_of_length_le (by omega)]

/-- A batch has a receipt at least and ten at most. -/
theorem length_of_mem_batchesOf {receipts batch : List JsString}
    (h : batch ∈ ReceiveLoop.batchesOf receipts) :
    1 ≤ batch.length ∧ batch.length ≤ 10 := by
  obtain ⟨i, hi, rfl⟩ := List.mem_map.mp h
  have hlt := List.mem_range.mp hi
  rw [List.length_take, List.length_drop]
  omega

/-! ## Deferring -/

/-- What the callback of a batch adds to the counter `tenant_turn`, and whether it is
rejected. -/
def deferBatch (batch : List JsString) : Option BatchResponse → ℕ × Bool
  | none => (0, true)
  | some result =>
      ((confirmedBatchReceipts batch result).length, result.hasFailures ||
        decide ((confirmedBatchReceipts batch result).length ≠ batch.length))

/-- What `deferExcessMessages` has done in the end: the requests it sent, what it counted, and
the batches whose errors it logged. -/
structure Deferral where
  sent : List (List BatchEntry)
  counted : ℕ
  logged : List ℕ

/-- `deferExcessMessages`, from the batches on; `none` is a request that failed. -/
def deferReceipts (receipts : List JsString) (response : ℕ → Option BatchResponse) : Deferral :=
  let results :=
    (ReceiveLoop.batchesOf receipts).mapIdx fun j batch => deferBatch batch (response j)
  { sent := (ReceiveLoop.batchesOf receipts).map batchEntries
    counted := (results.map Prod.fst).sum
    logged := (List.range results.length).filter fun j => (results[j]?).any Prod.snd }

/-- A receipt was confirmed by the response to its batch. -/
def ConfirmedBy (receipts : List JsString) (response : ℕ → Option BatchResponse)
    (receipt : JsString) : Prop :=
  ∃ j batch result, (ReceiveLoop.batchesOf receipts)[j]? = some batch ∧ response j = some result ∧
    Confirms batch result receipt

/-- The receipts that a response confirms. -/
def confirmedOf (batch : List JsString) : Option BatchResponse → List JsString
  | none => []
  | some result => confirmedBatchReceipts batch result

/-- What is counted, batch by batch. -/
theorem counted_eq (receipts : List JsString) (response : ℕ → Option BatchResponse) :
    (deferReceipts receipts response).counted =
      ((ReceiveLoop.batchesOf receipts).mapIdx fun j batch =>
        confirmedOf batch (response j)).flatten.length := by
  show (((ReceiveLoop.batchesOf receipts).mapIdx fun j batch =>
    deferBatch batch (response j)).map Prod.fst).sum = _
  rw [List.length_flatten]
  congr 1
  refine List.ext_getElem (by simp) ?_
  intro j _ _
  simp only [List.getElem_map, List.getElem_mapIdx]
  cases response j <;> rfl

/-- What is confirmed of the batches of a list is part of it. -/
theorem sublist_confirmed {batches : List (List JsString)} (h : ∀ batch ∈ batches, batch.Nodup)
    (response : ℕ → Option BatchResponse) :
    ((batches.mapIdx fun j batch => confirmedOf batch (response j)).flatten).Subperm
      batches.flatten := by
  induction batches generalizing response with
  | nil => exact List.Subperm.refl _
  | cons batch rest ih =>
      rw [List.mapIdx_cons, List.flatten_cons, List.flatten_cons]
      refine List.Subperm.append ?_ (ih (fun b hb => h b (List.mem_cons_of_mem _ hb)) _)
      cases response 0 with
      | none => exact List.nil_subperm
      | some result =>
          exact (nodup_confirmedBatchReceipts batch result).subperm
            fun receipt hin => (mem_confirmed_iff.mp hin).mem

/-- **Deferring is attributed to the right receipts.** -/
theorem deferral_attributed {receipts : List JsString} (h : receipts.Nodup)
    (response : ℕ → Option BatchResponse) :
    (((deferReceipts receipts response).sent.flatten).map BatchEntry.receiptHandle = receipts ∧
      ∀ request ∈ (deferReceipts receipts response).sent,
        1 ≤ request.length ∧ request.length ≤ 10) ∧
    (deferReceipts receipts response).counted =
      {receipt | ConfirmedBy receipts response receipt}.ncard ∧
    (deferReceipts receipts response).logged.Nodup ∧
    ∀ (j : ℕ) (batch : List JsString), (ReceiveLoop.batchesOf receipts)[j]? = some batch →
      (j ∈ (deferReceipts receipts response).logged ↔ response j = none ∨
        ∃ result, response j = some result ∧
          (result.hasFailures = true ∨ ∃ receipt ∈ batch, ¬ Confirms batch result receipt)) := by
  have hflatten := flatten_batchesOf receipts
  have hnodup : ∀ batch ∈ ReceiveLoop.batchesOf receipts, batch.Nodup := by
    intro batch hbatch
    exact h.sublist (hflatten ▸ List.sublist_flatten_of_mem hbatch)
  refine ⟨⟨?_, ?_⟩, ?_, List.nodup_range.filter _, ?_⟩
  -- the batches put together are the receipts, in order
  · show (((ReceiveLoop.batchesOf receipts).map batchEntries).flatten).map
      BatchEntry.receiptHandle = receipts
    rw [List.map_flatten, List.map_map]
    conv_rhs => rw [← hflatten]
    congr 1
    refine (List.map_congr_left ?_).trans (List.map_id _)
    intro batch _
    refine List.ext_getElem (by simp [batchEntries]) ?_
    intro i _ _
    simp [batchEntries]
  · intro request hrequest
    obtain ⟨batch, hbatch, rfl⟩ := List.mem_map.mp hrequest
    rw [batchEntries, List.length_mapIdx]
    exact length_of_mem_batchesOf hbatch
  -- no receipt is in two batches, so nothing is counted twice
  · rw [counted_eq]
    generalize hl : ((ReceiveLoop.batchesOf receipts).mapIdx fun j batch =>
      confirmedOf batch (response j)).flatten = l
    have hlnodup : l.Nodup := by
      have hsub := sublist_confirmed hnodup response
      rw [hl, hflatten] at hsub
      obtain ⟨l', hperm, hsublist⟩ := hsub
      exact hperm.nodup_iff.mp (h.sublist hsublist)
    have hset : {receipt | ConfirmedBy receipts response receipt} = ↑l.toFinset := by
      ext receipt
      rw [Finset.mem_coe, List.mem_toFinset, ← hl, List.mem_flatten]
      constructor
      · rintro ⟨j, batch, result, hj, hresult, hconfirms⟩
        obtain ⟨hlt, rfl⟩ := List.getElem?_eq_some_iff.mp hj
        refine ⟨_, List.mem_mapIdx.mpr ⟨j, hlt, rfl⟩, ?_⟩
        rw [hresult]
        exact mem_confirmed_iff.mpr hconfirms
      · rintro ⟨confirmed, hconfirmed, hin⟩
        obtain ⟨j, hlt, rfl⟩ := List.mem_mapIdx.mp hconfirmed
        cases hresult : response j with
        | none =>
            rw [hresult] at hin
            cases hin
        | some result =>
            rw [hresult] at hin
            exact ⟨j, _, result, List.getElem?_eq_getElem hlt, hresult, mem_confirmed_iff.mp hin⟩
    rw [hset, Set.ncard_coe_finset, List.toFinset_card_of_nodup hlnodup]
  -- a batch is logged if it failed, or confirmed fewer than it holds
  · intro j batch hj
    obtain ⟨hlt, hbatch⟩ := List.getElem?_eq_some_iff.mp hj
    have hin := hnodup batch (List.mem_of_getElem? hj)
    have hlogged : j ∈ (deferReceipts receipts response).logged ↔
        (deferBatch batch (response j)).2 = true := by
      unfold deferReceipts
      simp only [List.mem_filter, List.mem_range, List.length_mapIdx, hlt, true_and,
        List.getElem?_mapIdx, hj, Option.map_some, Option.any_some]
    rw [hlogged]
    cases hresult : response j with
    | none => simp [deferBatch]
    | some result =>
        have hall := length_confirmed_eq hin result
        rw [deferBatch]
        simp only [Bool.or_eq_true, decide_eq_true_eq, reduceCtorEq, false_or, Option.some.injEq,
          exists_eq_left', ne_eq, hall, not_forall, exists_prop]
