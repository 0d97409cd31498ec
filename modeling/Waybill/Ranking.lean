/-
# Ranks, and the first elements of a sorted list

A general library; nothing in it names this repository.

* The *rank* of an element is the number of elements with a smaller key.  Keys that differ
  give every rank below the size exactly once (`card_rank_lt`).
* `first n key l` are the `n` elements of `l` with the smallest keys, as `ORDER BY … LIMIT n`
  selects them: those of rank below `n` (`mem_first`), the one of the largest rank last
  (`rank_last_first`).
-/
import Mathlib.Tactic
import Mathlib.Data.Finset.Card
import Mathlib.Data.List.Sort

namespace Ranking

variable {α κ : Type*} [LinearOrder κ]

/-! ## Ranks in a finite set -/

section

variable {s t : Finset α} {key : α → κ} {x y : α}

/-- The number of elements with a smaller key. -/
def rank (s : Finset α) (key : α → κ) (x : α) : ℕ := (s.filter (fun y => key y < key x)).card

theorem rank_le_rank (h : key x ≤ key y) : rank s key x ≤ rank s key y := by
  refine Finset.card_le_card fun z hz => ?_
  rw [Finset.mem_filter] at hz ⊢
  exact ⟨hz.1, lt_of_lt_of_le hz.2 h⟩

theorem rank_lt_rank (hx : x ∈ s) (h : key x < key y) : rank s key x < rank s key y := by
  refine Finset.card_lt_card ⟨fun z hz => ?_, fun hsub => ?_⟩
  · rw [Finset.mem_filter] at hz ⊢
    exact ⟨hz.1, hz.2.trans h⟩
  · have hmem := hsub (Finset.mem_filter.mpr ⟨hx, h⟩)
    exact lt_irrefl _ (Finset.mem_filter.mp hmem).2

theorem key_lt_of_rank_lt (h : rank s key x < rank s key y) : key x < key y := by
  by_contra hle
  exact absurd (rank_le_rank (not_lt.mp hle)) (not_le.mpr h)

theorem rank_lt_card (hx : x ∈ s) : rank s key x < s.card := by
  refine Finset.card_lt_card ⟨Finset.filter_subset _ _, fun hsub => ?_⟩
  exact lt_irrefl _ (Finset.mem_filter.mp (hsub hx)).2

/-- Different keys have different ranks. -/
theorem rank_injOn (hkey : Set.InjOn key s) : Set.InjOn (rank s key) s := by
  intro x hx y hy hrank
  by_contra hne
  rcases lt_or_gt_of_ne (fun h => hne (hkey hx hy h)) with hlt | hlt
  · exact absurd hrank (ne_of_lt (rank_lt_rank hx hlt))
  · exact absurd hrank.symm (ne_of_lt (rank_lt_rank hy hlt))

/-- **Every rank below the size occurs once.** -/
theorem card_rank_lt [DecidableEq α] (hkey : Set.InjOn key s) (k : ℕ) :
    (s.filter (fun x => rank s key x < k)).card = min s.card k := by
  have hinj := rank_injOn hkey
  have himage : s.image (rank s key) = Finset.range s.card := by
    refine Finset.eq_of_subset_of_card_le (fun r hr => ?_) ?_
    · obtain ⟨x, hx, rfl⟩ := Finset.mem_image.mp hr
      exact Finset.mem_range.mpr (rank_lt_card hx)
    · rw [Finset.card_range, Finset.card_image_of_injOn hinj]
  have hfilter : (s.filter (fun x => rank s key x < k)).image (rank s key) =
      Finset.range (min s.card k) := by
    ext r
    simp only [Finset.mem_image, Finset.mem_filter, Finset.mem_range, lt_min_iff]
    constructor
    · rintro ⟨x, ⟨hx, hlt⟩, rfl⟩
      exact ⟨rank_lt_card hx, hlt⟩
    · rintro ⟨hcard, hlt⟩
      have hr : r ∈ s.image (rank s key) := himage ▸ Finset.mem_range.mpr hcard
      obtain ⟨x, hx, rfl⟩ := Finset.mem_image.mp hr
      exact ⟨x, ⟨hx, hlt⟩, rfl⟩
  rw [← Finset.card_range (min s.card k), ← hfilter, Finset.card_image_of_injOn]
  exact fun x hx y hy h => hinj (Finset.mem_filter.mp hx).1 (Finset.mem_filter.mp hy).1 h

/-- More elements leave as many of a low rank. -/
theorem card_rank_lt_mono [DecidableEq α] (hkey : Set.InjOn key s) (hts : t ⊆ s) (k : ℕ) :
    (t.filter (fun x => rank t key x < k)).card ≤ (s.filter (fun x => rank s key x < k)).card := by
  rw [card_rank_lt hkey, card_rank_lt (hkey.mono hts)]
  exact min_le_min_right k (Finset.card_le_card hts)

end

/-! ## Sorted lists -/

section

variable {l : List α} {key : α → κ} {n : ℕ}

/-- In a strictly sorted list the rank of an element is its index. -/
theorem length_filter_getElem (hl : l.Pairwise (fun a b => key a < key b)) {i : ℕ}
    (hi : i < l.length) : (l.filter (fun y => decide (key y < key l[i]))).length = i := by
  induction l generalizing i with
  | nil => simp at hi
  | cons a l ih =>
      obtain ⟨ha, hl⟩ := List.pairwise_cons.mp hl
      cases i with
      | zero =>
          have hnone : (a :: l).filter (fun y => decide (key y < key a)) = [] := by
            rw [List.filter_eq_nil_iff]
            intro y hy
            rcases List.mem_cons.mp hy with rfl | hy
            · simp
            · simpa using (ha y hy).le
          rw [List.getElem_cons_zero, hnone, List.length_nil]
      | succ i =>
          have hi' : i < l.length := Nat.lt_of_succ_lt_succ hi
          have hfirst : decide (key a < key l[i]) = true :=
            decide_eq_true (ha _ (List.getElem_mem hi'))
          have hcons : (a :: l).filter (fun y => decide (key y < key l[i])) =
              a :: l.filter (fun y => decide (key y < key l[i])) := List.filter_cons_of_pos hfirst
          rw [List.getElem_cons_succ, hcons, List.length_cons, ih hl hi']

/-- Counting in a list without duplicates is counting in its set. -/
theorem length_filter_eq_card [DecidableEq α] (hl : l.Nodup) (p : α → Prop) [DecidablePred p] :
    (l.filter (fun x => decide (p x))).length = (l.toFinset.filter p).card := by
  rw [← List.toFinset_card_of_nodup (hl.filter _), List.toFinset_filter]
  congr 1
  ext x
  simp

/-- Sorting by a key. -/
def sorted (key : α → κ) (l : List α) : List α :=
  l.mergeSort (fun a b => decide (key a ≤ key b))

/-- The elements with the smallest keys, in order. -/
def first (n : ℕ) (key : α → κ) (l : List α) : List α := (sorted key l).take n

theorem sorted_perm (key : α → κ) (l : List α) : (sorted key l).Perm l := List.mergeSort_perm l _

/-- Sorting by keys that differ. -/
theorem pairwise_sorted (hl : l.Nodup) (hkey : ∀ a ∈ l, ∀ b ∈ l, key a = key b → a = b) :
    (sorted key l).Pairwise (fun a b => key a < key b) := by
  have hle : (sorted key l).Pairwise (fun a b => decide (key a ≤ key b) = true) := by
    refine List.pairwise_mergeSort (fun a b c hab hbc => ?_) (fun a b => ?_) l
    · rw [decide_eq_true_eq] at hab hbc ⊢
      exact hab.trans hbc
    · simpa using le_total (key a) (key b)
  have hnodup : (sorted key l).Nodup := (sorted_perm key l).nodup_iff.mpr hl
  refine (hle.and hnodup).imp_of_mem fun {a b} ha hb hab => ?_
  refine lt_of_le_of_ne (by simpa using hab.1) fun h => hab.2 ?_
  exact hkey a ((sorted_perm key l).mem_iff.mp ha) b ((sorted_perm key l).mem_iff.mp hb) h

/-- The rank of an element is its index in the sorted list. -/
theorem rank_getElem_sorted [DecidableEq α] (hl : l.Nodup)
    (hkey : ∀ a ∈ l, ∀ b ∈ l, key a = key b → a = b) {i : ℕ} (hi : i < (sorted key l).length) :
    rank l.toFinset key (sorted key l)[i] = i := by
  have hindex := length_filter_getElem (pairwise_sorted hl hkey) hi
  rw [rank, ← length_filter_eq_card hl, ← ((sorted_perm key l).filter _).length_eq]
  exact hindex

/-- **The first `n` elements** are those of rank below `n`. -/
theorem mem_first [DecidableEq α] (hl : l.Nodup)
    (hkey : ∀ a ∈ l, ∀ b ∈ l, key a = key b → a = b) {x : α} :
    x ∈ first n key l ↔ x ∈ l ∧ rank l.toFinset key x < n := by
  rw [first, List.mem_take_iff_getElem, ← (sorted_perm key l).mem_iff, List.mem_iff_getElem]
  constructor
  · rintro ⟨i, hi, rfl⟩
    rw [lt_min_iff] at hi
    refine ⟨⟨i, hi.2, rfl⟩, ?_⟩
    rw [rank_getElem_sorted hl hkey hi.2]
    exact hi.1
  · rintro ⟨⟨i, hi, rfl⟩, hrank⟩
    rw [rank_getElem_sorted hl hkey hi] at hrank
    exact ⟨i, lt_min hrank hi, rfl⟩

/-- The last one has the largest rank. -/
theorem rank_last_first [DecidableEq α] (hl : l.Nodup)
    (hkey : ∀ a ∈ l, ∀ b ∈ l, key a = key b → a = b) {v : α}
    (hv : (first n key l).getLast? = some v) :
    v ∈ l ∧ rank l.toFinset key v + 1 = min n l.length := by
  have hlength : (first n key l).length = min n l.length := by
    rw [first, List.length_take, (sorted_perm key l).length_eq]
  rw [List.getLast?_eq_getElem?, List.getElem?_eq_some_iff] at hv
  obtain ⟨hi, rfl⟩ := hv
  refine ⟨((mem_first hl hkey).mp (List.getElem_mem hi)).1, ?_⟩
  have hi' : (first n key l).length - 1 < (sorted key l).length := by
    rw [(sorted_perm key l).length_eq]
    omega
  have hget : (first n key l)[(first n key l).length - 1] =
      (sorted key l)[(first n key l).length - 1] := List.getElem_take
  rw [hget, rank_getElem_sorted hl hkey hi']
  omega

end

end Ranking
