/-
# The selection is fair (`listUnpublished` of `worker/src/repositories/outbox.ts`)

What a leader selects, for any backlog, limit and cursor: as many rows as there are, up to the
limit; of every tenant its oldest rows; no tenant two rounds ahead of one that still has rows
left; round by round, the tenants of a round in rotation.  The second query only takes rows
out, those published since.
-/
import Waybill.Rotation

namespace Publisher

variable {τ ι : Type} [LinearOrder τ] [LinearOrder ι]

/-! ## The two queries -/

/-- The identifiers that the ranking query returns. -/
def selectedIds (b : Backlog τ ι) (limit : ℕ) (c : τ) : List ι :=
  (listUnpublished b limit c).map PendingRow.id

/-- The rows that the second query has found, in the order of the selection. -/
def inOrder (selected : List ι) (rows : List (PendingRow τ ι)) : List (PendingRow τ ι) :=
  selected.filterMap (fun id => rows.find? (fun row => decide (row.id = id)))

/-- What the second query finds, in any order: the selected rows that have not been published
since the first one. -/
def Found (b : Backlog τ ι) (selected : List ι) (published : PendingRow τ ι → Bool)
    (rows : List (PendingRow τ ι)) : Prop :=
  rows.Perm (b.rows.filter (fun row => !published row && decide (row.id ∈ selected)))

/-! ## Fairness -/

/-- The rows of a tenant, in a list. -/
def rowsOf (t : τ) (rows : List (PendingRow τ ι)) : List (PendingRow τ ι) :=
  rows.filter (fun row => decide (row.tenantId = t))

/-- **A fair selection.** -/
structure FairSelection (b : Backlog τ ι) (limit : ℕ) (c : τ) : Prop where
  length : (listUnpublished b limit c).length = min limit b.rows.length
  distinct : (selectedIds b limit c).Nodup
  pending : ∀ row ∈ listUnpublished b limit c, row ∈ b.rows
  /-- of a tenant the first rows by age, in that order -/
  oldest : ∀ t, rowsOf t (listUnpublished b limit c) <+:
    Ranking.sorted PendingRow.age (rowsOf t b.rows)
  /-- no tenant is two rows ahead of one that has rows left -/
  maxMin : ∀ t u, (∃ row ∈ b.rows, row.tenantId = t ∧ row ∉ listUnpublished b limit c) →
    (rowsOf u (listUnpublished b limit c)).length ≤
      (rowsOf t (listUnpublished b limit c)).length + 1
  /-- round by round, and in a round the tenants in rotation -/
  rounds : (listUnpublished b limit c).Pairwise (fun x y =>
    tenantPosition b.rows x < tenantPosition b.rows y ∨
      tenantPosition b.rows x = tenantPosition b.rows y ∧ Precedes c x.tenantId y.tenantId)
  published : ∀ published rows, Found b (selectedIds b limit c) published rows →
    inOrder (selectedIds b limit c) rows =
      (listUnpublished b limit c).filter (fun row => !published row)

section

variable {b : Backlog τ ι} {limit : ℕ} {c : τ}

theorem length_listUnpublished :
    (listUnpublished b limit c).length = min limit b.rows.length := by
  rw [listUnpublished, Ranking.first, List.length_take, (Ranking.sorted_perm _ _).length_eq]

theorem nodup_listUnpublished : (listUnpublished b limit c).Nodup :=
  ((Ranking.sorted_perm _ _).nodup_iff.mpr b.nodup).sublist (List.take_sublist _ _)

theorem nodup_selectedIds : (selectedIds b limit c).Nodup := by
  refine List.Nodup.sublist ((List.take_sublist _ _).map _) ?_
  exact ((Ranking.sorted_perm _ _).map _).nodup_iff.mpr b.distinct

/-! ## The order of the selection -/

/-- The whole backlog in the order of the selection. -/
theorem pairwise_ranked (b : Backlog τ ι) (c : τ) :
    (Ranking.sorted (selectionKey b.rows c) b.rows).Pairwise
      (fun x y => selectionKey b.rows c x < selectionKey b.rows c y) :=
  Ranking.pairwise_sorted b.nodup fun _ hx _ hy h => selectionKey_inj hx hy h

/-- A row is ranked by its round first, and then by the rotation. -/
theorem key_lt_cases {x y : PendingRow τ ι}
    (h : selectionKey b.rows c x < selectionKey b.rows c y) :
    tenantPosition b.rows x < tenantPosition b.rows y ∨
      tenantPosition b.rows x = tenantPosition b.rows y ∧ Precedes c x.tenantId y.tenantId := by
  rcases Nat.eq_or_lt_of_le (position_le_of_key_lt h) with heq | hlt
  · exact .inr ⟨heq, (key_lt_iff heq).mp h⟩
  · exact .inl hlt

/-- In its tenant, a row with a smaller position is older. -/
theorem age_le_of_position_le {x y : PendingRow τ ι} (hy : y ∈ b.rows)
    (htenant : x.tenantId = y.tenantId)
    (h : tenantPosition b.rows x ≤ tenantPosition b.rows y) : x.age ≤ y.age := by
  by_contra hlt
  have hold := length_older_lt hy htenant.symm (not_le.mp hlt)
  have h : (older b.rows x).length + 1 ≤ (older b.rows y).length + 1 := h
  omega

/-- **A tenant's rows are ranked by age.** -/
theorem rowsOf_ranked (b : Backlog τ ι) (c t : τ) :
    rowsOf t (Ranking.sorted (selectionKey b.rows c) b.rows) =
      Ranking.sorted PendingRow.age (rowsOf t b.rows) := by
  have hperm : (rowsOf t (Ranking.sorted (selectionKey b.rows c) b.rows)).Perm
      (Ranking.sorted PendingRow.age (rowsOf t b.rows)) :=
    ((Ranking.sorted_perm _ _).filter _).trans (Ranking.sorted_perm _ _).symm
  have hmem : ∀ x ∈ rowsOf t (Ranking.sorted (selectionKey b.rows c) b.rows),
      x ∈ b.rows ∧ x.tenantId = t := fun x hx => by
    obtain ⟨hx, ht⟩ := List.mem_filter.mp hx
    exact ⟨(Ranking.sorted_perm _ _).mem_iff.mp hx, of_decide_eq_true ht⟩
  have hranked : (rowsOf t (Ranking.sorted (selectionKey b.rows c) b.rows)).Pairwise
      (fun x y => x.age ≤ y.age) := by
    refine ((pairwise_ranked b c).filter _).imp_of_mem fun {x y} hx hy hkey => ?_
    have hxt := (hmem x hx).2
    obtain ⟨hy, hyt⟩ := hmem y hy
    exact age_le_of_position_le hy (hxt.trans hyt.symm) (position_le_of_key_lt hkey)
  have hsorted : (Ranking.sorted PendingRow.age (rowsOf t b.rows)).Pairwise
      (fun x y => x.age ≤ y.age) := by
    refine (Ranking.pairwise_sorted (b.nodup.filter _) fun x hx y hy h => ?_).imp le_of_lt
    exact b.age_inj (List.mem_of_mem_filter hx) (List.mem_of_mem_filter hy) h
  refine List.Perm.eq_of_pairwise ?_ hranked hsorted hperm
  intro x y hx hy hxy hyx
  exact b.age_inj (hmem x hx).1 (hmem y (hperm.mem_iff.mpr hy)).1 (le_antisymm hxy hyx)

/-- What is selected of a tenant are its oldest rows. -/
theorem rowsOf_selected_prefix (t : τ) : rowsOf t (listUnpublished b limit c) <+:
    Ranking.sorted PendingRow.age (rowsOf t b.rows) := by
  rw [← rowsOf_ranked b c t]
  refine ⟨rowsOf t ((Ranking.sorted (selectionKey b.rows c) b.rows).drop limit), ?_⟩
  rw [listUnpublished, Ranking.first, rowsOf, rowsOf, ← List.filter_append,
    List.take_append_drop]
  rfl

/-! ## No tenant is two rows ahead -/

/-- A row that is left over comes after every selected row. -/
theorem position_le_of_left {x y : PendingRow τ ι} (hx : x ∈ listUnpublished b limit c)
    (hy : y ∈ b.rows) (hleft : y ∉ listUnpublished b limit c) :
    tenantPosition b.rows x ≤ tenantPosition b.rows y := by
  have hxplace := (mem_listUnpublished.mp hx).2
  have hyplace : limit ≤ place b c y := by
    by_contra hlt
    exact hleft (mem_listUnpublished.mpr ⟨hy, not_le.mp hlt⟩)
  exact position_le_of_key_lt
    (Ranking.key_lt_of_rank_lt (s := b.rows.toFinset) (lt_of_lt_of_le hxplace hyplace))

/-- The oldest row of a tenant that is left over has only selected ones ahead. -/
theorem exists_left {t : τ}
    (h : ∃ row ∈ b.rows, row.tenantId = t ∧ row ∉ listUnpublished b limit c) :
    ∃ row ∈ b.rows, row ∉ listUnpublished b limit c ∧
      tenantPosition b.rows row ≤ (rowsOf t (listUnpublished b limit c)).length + 1 := by
  obtain ⟨x, hx, hxt, hxleft⟩ := h
  have hne : ((ofTenant b.rows t).filter (fun row => row ∉ listUnpublished b limit c)).Nonempty :=
    ⟨x, Finset.mem_filter.mpr ⟨mem_ofTenant.mpr ⟨hx, hxt⟩, hxleft⟩⟩
  obtain ⟨row, hrow, hleast⟩ := Finset.exists_min_image _ PendingRow.age hne
  obtain ⟨hrow, hleft⟩ := Finset.mem_filter.mp hrow
  obtain ⟨hmem, ht⟩ := mem_ofTenant.mp hrow
  refine ⟨row, hmem, hleft, Nat.succ_le_succ ?_⟩
  -- a row ahead of it that is left over would be older still
  have hsub : older b.rows row ⊆ rowsOf t (listUnpublished b limit c) := by
    intro y hy
    obtain ⟨hy, hahead⟩ := List.mem_filter.mp hy
    obtain ⟨htenant, hage⟩ := Bool.and_eq_true_iff.mp hahead
    have hyt : y.tenantId = t := (of_decide_eq_true htenant).trans ht
    refine List.mem_filter.mpr ⟨?_, decide_eq_true hyt⟩
    by_contra hyleft
    have hle := hleast y (Finset.mem_filter.mpr ⟨mem_ofTenant.mpr ⟨hy, hyt⟩, hyleft⟩)
    exact absurd (of_decide_eq_true hage) (not_lt.mpr hle)
  exact (List.subperm_of_subset (b.nodup.filter _) hsub).length_le

/-- **No tenant is two rows ahead** of one that has rows left over. -/
theorem length_rowsOf_le (t u : τ)
    (h : ∃ row ∈ b.rows, row.tenantId = t ∧ row ∉ listUnpublished b limit c) :
    (rowsOf u (listUnpublished b limit c)).length ≤
      (rowsOf t (listUnpublished b limit c)).length + 1 := by
  obtain ⟨row, hrow, hleft, hposition⟩ := exists_left h
  have hnodup : (rowsOf u (listUnpublished b limit c)).Nodup := nodup_listUnpublished.filter _
  have hmem : ∀ x ∈ rowsOf u (listUnpublished b limit c),
      x ∈ listUnpublished b limit c ∧ x.tenantId = u := fun x hx => by
    obtain ⟨hx, hxu⟩ := List.mem_filter.mp hx
    exact ⟨hx, of_decide_eq_true hxu⟩
  -- the selected rows of the other tenant have different positions, none beyond this one's
  have hcard : (rowsOf u (listUnpublished b limit c)).toFinset.card ≤
      (Finset.Icc 1 ((rowsOf t (listUnpublished b limit c)).length + 1)).card := by
    refine Finset.card_le_card_of_injOn (tenantPosition b.rows) (fun x hx => ?_)
      fun x hx y hy heq => ?_
    · obtain ⟨hx, -⟩ := hmem x (List.mem_toFinset.mp hx)
      have hle := position_le_of_left hx hrow hleft
      exact Finset.mem_coe.mpr
        (Finset.mem_Icc.mpr ⟨Nat.le_add_left _ _, hle.trans hposition⟩)
    · obtain ⟨hx, hxu⟩ := hmem x (List.mem_toFinset.mp hx)
      obtain ⟨hy, hyu⟩ := hmem y (List.mem_toFinset.mp hy)
      exact tenantPosition_inj (mem_listUnpublished.mp hx).1 (mem_listUnpublished.mp hy).1
        (hxu.trans hyu.symm) heq
  rw [List.toFinset_card_of_nodup hnodup, Nat.card_Icc] at hcard
  omega

/-! ## The second query -/

/-- A row is found by its identifier, unless it has been published. -/
theorem find_selected {published : PendingRow τ ι → Bool} {rows : List (PendingRow τ ι)}
    (hfound : Found b (selectedIds b limit c) published rows) {row : PendingRow τ ι}
    (hrow : row ∈ listUnpublished b limit c) :
    rows.find? (fun other => decide (other.id = row.id)) =
      if published row then none else some row := by
  have hmem : ∀ other ∈ rows, other ∈ b.rows ∧ published other = false := fun other hother => by
    obtain ⟨hother, hp⟩ := List.mem_filter.mp (hfound.mem_iff.mp hother)
    exact ⟨hother, by simpa using (Bool.and_eq_true_iff.mp hp).1⟩
  have hsame : ∀ other ∈ rows, other.id = row.id → other = row := fun other hother hid =>
    List.inj_on_of_nodup_map b.distinct (hmem other hother).1 (mem_listUnpublished.mp hrow).1 hid
  split_ifs with hpublished
  · refine List.find?_eq_none.mpr fun other hother hid => ?_
    have heq := hsame other hother (of_decide_eq_true hid)
    rw [← heq, (hmem other hother).2] at hpublished
    exact absurd hpublished Bool.false_ne_true
  · have hin : row ∈ rows := by
      refine hfound.mem_iff.mpr (List.mem_filter.mpr ⟨(mem_listUnpublished.mp hrow).1, ?_⟩)
      have hid : row.id ∈ selectedIds b limit c := List.mem_map_of_mem hrow
      simp [hpublished, hid]
    cases hfind : rows.find? (fun other => decide (other.id = row.id)) with
    | none => exact absurd (decide_eq_true rfl) (List.find?_eq_none.mp hfind row hin)
    | some other =>
        have hid : other.id = row.id := by simpa using List.find?_some hfind
        rw [hsame other (List.mem_of_find?_eq_some hfind) hid]

/-- The second query takes out what has been published since the first one. -/
theorem inOrder_selected {published : PendingRow τ ι → Bool} {rows : List (PendingRow τ ι)}
    (hfound : Found b (selectedIds b limit c) published rows) :
    inOrder (selectedIds b limit c) rows =
      (listUnpublished b limit c).filter (fun row => !published row) := by
  have hfilter : ∀ l : List (PendingRow τ ι), l.filter (fun row => !published row) =
      l.filterMap (fun row => if published row then none else some row) := by
    intro l
    induction l with
    | nil => rfl
    | cons row l ih => cases hp : published row <;> simp [hp, ih]
  rw [inOrder, selectedIds, List.filterMap_map, hfilter]
  exact List.filterMap_congr fun row hrow => find_selected hfound hrow

end

/-- **The selection is fair**, whatever the backlog, the limit and the cursor. -/
theorem selection_fair (b : Backlog τ ι) (limit : ℕ) (c : τ) : FairSelection b limit c where
  length := length_listUnpublished
  distinct := nodup_selectedIds
  pending _ hrow := (mem_listUnpublished.mp hrow).1
  oldest t := rowsOf_selected_prefix t
  maxMin t u h := length_rowsOf_le t u h
  rounds := ((pairwise_ranked b c).sublist (List.take_sublist _ _)).imp key_lt_cases
  published _ _ hfound := inOrder_selected hfound

end Publisher
