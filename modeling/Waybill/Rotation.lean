/-
# No tenant is starved

The cursor of a leader is the tenant of the last row it selected.  As long as the oldest row of
a tenant has to wait, every tick selects the first rows of as many other tenants as the limit
allows, all of them ahead of the tenant in the rotation, and leaves them behind the cursor.  So
the ticks that a tenant waits select rows of tenants that all differ (`disjoint_selected`), and
there cannot be more of them than the tenants fill.

Nothing is assumed about what becomes of the rows: publications fail as they like, and rows
arrive between the ticks.
-/
import Waybill.Backlog

namespace Publisher

variable {τ ι : Type} [LinearOrder τ] [LinearOrder ι]

/-! ## Runs of a leader -/

/-- The tenants that have a pending row. -/
def tenants (b : Backlog τ ι) : Finset τ := b.rows.toFinset.image PendingRow.tenantId

/-- The oldest pending row of a tenant. -/
structure IsOldest (b : Backlog τ ι) (t : τ) (row : PendingRow τ ι) : Prop where
  mem : row ∈ b.rows
  tenant : row.tenantId = t
  least : ∀ other ∈ b.rows, other.tenantId = t → row.age ≤ other.age

/-- Rows arrive. -/
structure Arrival (s s' : Poller τ ι) : Prop where
  cursor : s'.afterTenantId = s.afterTenantId
  kept : ∀ row ∈ s.backlog.rows, row ∈ s'.backlog.rows

/-- What a leader finds at consecutive ticks: each tick goes on from the cursor of the one
before, publications of it have failed or not, and rows have arrived. -/
def Rotates (limit : ℕ) (run : ℕ → Poller τ ι) (ticks : ℕ) : Prop :=
  ∀ i, i + 1 < ticks → ∃ fails, Arrival (tick fails limit (run i)) (run (i + 1))

/-- The tenants with a pending row at any of the ticks. -/
def tenantsDuring (run : ℕ → Poller τ ι) (ticks : ℕ) : Finset τ :=
  (Finset.range ticks).biUnion (fun i => tenants (run i).backlog)

/-- What a tick selects. -/
def selection (limit : ℕ) (s : Poller τ ι) : List (PendingRow τ ι) :=
  listUnpublished s.backlog limit s.afterTenantId

/-- The tenants of which a tick selects rows. -/
def selected (limit : ℕ) (s : Poller τ ι) : Finset τ :=
  (selection limit s).toFinset.image PendingRow.tenantId

theorem exists_oldest_of_mem {b : Backlog τ ι} {t : τ} (h : t ∈ tenants b) :
    ∃ row, IsOldest b t row := by
  obtain ⟨x, hx, hxt⟩ := Finset.mem_image.mp h
  have hmem : x ∈ ofTenant b.rows t := mem_ofTenant.mpr ⟨List.mem_toFinset.mp hx, hxt⟩
  obtain ⟨row, hrow, hleast⟩ := Finset.exists_min_image _ PendingRow.age ⟨x, hmem⟩
  obtain ⟨hrow, hrowt⟩ := mem_ofTenant.mp hrow
  exact ⟨row, hrow, hrowt, fun other hother ht => hleast other (mem_ofTenant.mpr ⟨hother, ht⟩)⟩

/-- The oldest row of a tenant is in the first round. -/
theorem IsOldest.position {b : Backlog τ ι} {t : τ} {row : PendingRow τ ι}
    (h : IsOldest b t row) : tenantPosition b.rows row = 1 := by
  have hnone : older b.rows row = [] := by
    refine List.filter_eq_nil_iff.mpr fun other hother hage => ?_
    obtain ⟨htenant, hage⟩ := Bool.and_eq_true_iff.mp hage
    have hle := h.least other hother ((of_decide_eq_true htenant).trans h.tenant)
    exact absurd (of_decide_eq_true hage) (not_lt.mpr hle)
  rw [tenantPosition, hnone]
  rfl

/-! ## The rotation -/

/-- The tenant `t` comes before `u` in the rotation after `c`. -/
def Precedes (c t u : τ) : Prop :=
  rotation c t < rotation c u ∨ rotation c t = rotation c u ∧ t < u

/-- Who has been reached by the cursor is not ahead any more. -/
theorem not_precedes_of_reached {c t u v : τ} (hv : Precedes c v u)
    (ht : t = v ∨ Precedes c t v) : ¬ Precedes v t u := by
  rcases ht with rfl | ht
  · exact rotation_self t u
  · unfold Precedes rotation at *
    split_ifs at * <;> simp_all <;> order

/-! ## A tenant that waits -/

section

variable {limit : ℕ} {s : Poller τ ι} {t : τ} {u : PendingRow τ ι}

/-- Whatever is selected before the oldest row of a tenant is in the first round, and its
tenant comes first. -/
theorem selected_first (hu : IsOldest s.backlog t u) (hwait : u ∉ selection limit s)
    {x : PendingRow τ ι} (hx : x ∈ selection limit s) :
    tenantPosition s.backlog.rows x = 1 ∧ Precedes s.afterTenantId x.tenantId t := by
  obtain ⟨hmem, hplace⟩ := mem_listUnpublished.mp hx
  have hu' : limit ≤ place s.backlog s.afterTenantId u := by
    by_contra hlt
    exact hwait (mem_listUnpublished.mpr ⟨hu.mem, not_le.mp hlt⟩)
  have hkey : selectionKey s.backlog.rows s.afterTenantId x <
      selectionKey s.backlog.rows s.afterTenantId u :=
    Ranking.key_lt_of_rank_lt (s := s.backlog.rows.toFinset) (lt_of_lt_of_le hplace hu')
  have hle := position_le_of_key_lt hkey
  have hposition : tenantPosition s.backlog.rows x = 1 := by
    rw [hu.position] at hle
    have : 1 ≤ tenantPosition s.backlog.rows x := Nat.le_add_left _ _
    omega
  refine ⟨hposition, ?_⟩
  have hbefore := (key_lt_iff (hposition.trans hu.position.symm)).mp hkey
  rw [hu.tenant] at hbefore
  exact hbefore

/-- A tick that leaves it out selects rows of as many tenants as the limit allows. -/
theorem card_selected (hu : IsOldest s.backlog t u) (hwait : u ∉ selection limit s) :
    (selected limit s).card = limit := by
  have hnodup : (selection limit s).Nodup :=
    ((Ranking.sorted_perm _ _).nodup_iff.mpr s.backlog.nodup).sublist (List.take_sublist _ _)
  have hinj : Set.InjOn PendingRow.tenantId
      ((selection limit s).toFinset : Set (PendingRow τ ι)) := by
    intro x hx y hy htenant
    have hx := List.mem_toFinset.mp hx
    have hy := List.mem_toFinset.mp hy
    exact tenantPosition_inj (mem_listUnpublished.mp hx).1 (mem_listUnpublished.mp hy).1 htenant
      ((selected_first hu hwait hx).1.trans (selected_first hu hwait hy).1.symm)
  rw [selected, Finset.card_image_of_injOn hinj, List.toFinset_card_of_nodup hnodup]
  have hlength : (selection limit s).length = min limit s.backlog.rows.length := by
    rw [selection, listUnpublished, Ranking.first, List.length_take,
      (Ranking.sorted_perm _ _).length_eq]
  have hplace : limit ≤ place s.backlog s.afterTenantId u := by
    by_contra hlt
    exact hwait (mem_listUnpublished.mpr ⟨hu.mem, not_le.mp hlt⟩)
  have hroom : place s.backlog s.afterTenantId u < s.backlog.rows.length := by
    rw [← List.toFinset_card_of_nodup s.backlog.nodup]
    exact Ranking.rank_lt_card (List.mem_toFinset.mpr hu.mem)
  omega

/-- The cursor moves to the last of these tenants. -/
theorem cursor_reaches (hlimit : 1 ≤ limit) (hu : IsOldest s.backlog t u)
    (hwait : u ∉ selection limit s) (fails : PendingRow τ ι → Bool) :
    (tick fails limit s).afterTenantId ∈ selected limit s ∧
      ∀ t' ∈ selected limit s, t' = (tick fails limit s).afterTenantId ∨
        Precedes s.afterTenantId t' (tick fails limit s).afterTenantId := by
  have hne : selection limit s ≠ [] := by
    intro hnil
    have hcard := card_selected hu hwait
    rw [selected, hnil] at hcard
    simp at hcard
    omega
  have hlast := List.getLast?_eq_getLast_of_ne_nil hne
  have hlastmem := List.getLast_mem hne
  generalize (selection limit s).getLast hne = v at hlast hlastmem
  have hcursor : (tick fails limit s).afterTenantId = v.tenantId := by
    show ((selection limit s).getLast?.map PendingRow.tenantId).getD _ = _
    rw [hlast]
    rfl
  rw [hcursor]
  refine ⟨Finset.mem_image_of_mem _ (List.mem_toFinset.mpr hlastmem), fun t' ht' => ?_⟩
  obtain ⟨x, hx, rfl⟩ := Finset.mem_image.mp ht'
  have hx := List.mem_toFinset.mp hx
  obtain ⟨hxmem, hxplace⟩ := mem_listUnpublished.mp hx
  obtain ⟨hvmem, hvrank⟩ := Ranking.rank_last_first s.backlog.nodup
    (fun _ hx _ hy h => selectionKey_inj hx hy h) hlast
  -- no selected row has a larger place than the last one
  have hle : place s.backlog s.afterTenantId x ≤ place s.backlog s.afterTenantId v := by
    have hroom : place s.backlog s.afterTenantId x < s.backlog.rows.length := by
      rw [← List.toFinset_card_of_nodup s.backlog.nodup]
      exact Ranking.rank_lt_card (List.mem_toFinset.mpr hxmem)
    have hvplace : place s.backlog s.afterTenantId v + 1 =
      min limit s.backlog.rows.length := hvrank
    omega
  rcases Nat.eq_or_lt_of_le hle with heq | hlt
  · have hsame := Ranking.rank_injOn (s := s.backlog.rows.toFinset)
      (fun _ hx _ hy h => selectionKey_inj (List.mem_toFinset.mp hx) (List.mem_toFinset.mp hy) h)
      (List.mem_toFinset.mpr hxmem) (List.mem_toFinset.mpr hvmem) heq
    exact .inl (congrArg _ hsame)
  · have hkey := Ranking.key_lt_of_rank_lt (s := s.backlog.rows.toFinset) hlt
    refine .inr ((key_lt_iff ?_).mp hkey)
    exact (selected_first hu hwait hx).1.trans (selected_first hu hwait hlastmem).1.symm

end

/-! ## Ticks in a row -/

section

variable {limit ticks : ℕ} {run : ℕ → Poller τ ι} {t : τ}

/-- The oldest row of the tenant waits at every tick. -/
def Waits (limit : ℕ) (run : ℕ → Poller τ ι) (ticks : ℕ) (t : τ) : Prop :=
  ∀ i < ticks, ∃ u, IsOldest (run i).backlog t u ∧ u ∉ selection limit (run i)

/-- The cursor after a tick, as the next tick finds it. -/
theorem cursor_next (hlimit : 1 ≤ limit) (hrun : Rotates limit run ticks)
    (hwait : Waits limit run ticks t) {i : ℕ} (hi : i + 1 < ticks) :
    (run (i + 1)).afterTenantId ∈ selected limit (run i) ∧
      ∀ t' ∈ selected limit (run i), t' = (run (i + 1)).afterTenantId ∨
        Precedes (run i).afterTenantId t' (run (i + 1)).afterTenantId := by
  obtain ⟨fails, harrival⟩ := hrun i hi
  obtain ⟨u, hu, hnot⟩ := hwait i (by omega)
  rw [harrival.cursor]
  exact cursor_reaches hlimit hu hnot fails

/-- Who is ahead of a waiting tenant was ahead of it at every tick before. -/
theorem precedes_earlier (hlimit : 1 ≤ limit) (hrun : Rotates limit run ticks)
    (hwait : Waits limit run ticks t) {i j : ℕ} (hij : i ≤ j) (hj : j < ticks) {t' : τ}
    (h : Precedes (run j).afterTenantId t' t) : Precedes (run i).afterTenantId t' t := by
  induction j, hij using Nat.le_induction with
  | base => exact h
  | succ j hij ih =>
      refine ih (by omega) ?_
      obtain ⟨u, hu, hnot⟩ := hwait j (by omega)
      have hcursor := (cursor_next hlimit hrun hwait hj).1
      obtain ⟨x, hx, hxt⟩ := Finset.mem_image.mp hcursor
      have hahead := (selected_first hu hnot (List.mem_toFinset.mp hx)).2
      rw [hxt] at hahead
      exact rotation_trans h hahead

/-- **While a tenant waits, no tick selects a tenant that another one has selected.** -/
theorem disjoint_selected (hlimit : 1 ≤ limit) (hrun : Rotates limit run ticks)
    (hwait : Waits limit run ticks t) {i j : ℕ} (hij : i < j) (hj : j < ticks) :
    Disjoint (selected limit (run i)) (selected limit (run j)) := by
  refine Finset.disjoint_left.mpr fun t' hi' hj' => ?_
  obtain ⟨u, hu, hnot⟩ := hwait i (by omega)
  obtain ⟨w, hw, hwnot⟩ := hwait j hj
  have hnext := cursor_next hlimit hrun hwait (i := i) (by omega)
  obtain ⟨x, hx, hxt⟩ := Finset.mem_image.mp hnext.1
  have hreached := (selected_first hu hnot (List.mem_toFinset.mp hx)).2
  rw [hxt] at hreached
  -- the later tick finds it ahead of the cursor, which has reached it
  obtain ⟨y, hy, rfl⟩ := Finset.mem_image.mp hj'
  have hahead := (selected_first hw hwnot (List.mem_toFinset.mp hy)).2
  have hahead := precedes_earlier hlimit hrun hwait hij hj hahead
  exact not_precedes_of_reached hreached (hnext.2 _ hi') hahead

/-- A tenant that waits is not among those selected. -/
theorem notMem_selected {s : Poller τ ι} {u : PendingRow τ ι} (hu : IsOldest s.backlog t u)
    (hnot : u ∉ selection limit s) : t ∉ selected limit s := by
  intro ht
  obtain ⟨x, hx, rfl⟩ := Finset.mem_image.mp ht
  obtain ⟨hposition, -⟩ := selected_first hu hnot (List.mem_toFinset.mp hx)
  have hmem := (mem_listUnpublished.mp (List.mem_toFinset.mp hx)).1
  have hsame := tenantPosition_inj hmem hu.mem hu.tenant.symm
    (hposition.trans hu.position.symm)
  subst hsame
  exact hnot (List.mem_toFinset.mp hx)

theorem selected_subset {s : Poller τ ι} : selected limit s ⊆ tenants s.backlog := by
  intro t' ht'
  obtain ⟨x, hx, rfl⟩ := Finset.mem_image.mp ht'
  have hmem := (mem_listUnpublished.mp (List.mem_toFinset.mp hx)).1
  exact Finset.mem_image_of_mem _ (List.mem_toFinset.mpr hmem)

/-- There are more tenants than the ticks select while one of them waits. -/
theorem card_tenantsDuring (hlimit : 1 ≤ limit) (hticks : 0 < ticks)
    (hrun : Rotates limit run ticks) (hwait : Waits limit run ticks t) :
    ticks * limit + 1 ≤ (tenantsDuring run ticks).card := by
  have hcard : ((Finset.range ticks).biUnion (fun i => selected limit (run i))).card =
      ticks * limit := by
    rw [Finset.card_biUnion]
    · rw [Finset.sum_congr rfl fun i hi => ?_, Finset.sum_const, Finset.card_range,
        smul_eq_mul]
      obtain ⟨u, hu, hnot⟩ := hwait i (Finset.mem_range.mp hi)
      exact card_selected hu hnot
    · intro i hi j hj hne
      have hi := Finset.mem_range.mp hi
      have hj := Finset.mem_range.mp hj
      rcases lt_or_gt_of_ne hne with hlt | hlt
      · exact disjoint_selected hlimit hrun hwait hlt hj
      · exact (disjoint_selected hlimit hrun hwait hlt hi).symm
  have hout : t ∉ (Finset.range ticks).biUnion (fun i => selected limit (run i)) := by
    intro hmem
    obtain ⟨i, hi, hmem⟩ := Finset.mem_biUnion.mp hmem
    obtain ⟨u, hu, hnot⟩ := hwait i (Finset.mem_range.mp hi)
    exact notMem_selected hu hnot hmem
  have hsub : insert t ((Finset.range ticks).biUnion (fun i => selected limit (run i))) ⊆
      tenantsDuring run ticks := by
    intro t' ht'
    rcases Finset.mem_insert.mp ht' with rfl | ht'
    · obtain ⟨u, hu, -⟩ := hwait 0 hticks
      refine Finset.mem_biUnion.mpr ⟨0, Finset.mem_range.mpr hticks, ?_⟩
      exact Finset.mem_image.mpr ⟨u, List.mem_toFinset.mpr hu.mem, hu.tenant⟩
    · obtain ⟨i, hi, hmem⟩ := Finset.mem_biUnion.mp ht'
      exact Finset.mem_biUnion.mpr ⟨i, hi, selected_subset hmem⟩
  have hle := Finset.card_le_card hsub
  rw [Finset.card_insert_of_notMem hout, hcard] at hle
  exact hle

/-- **No tenant is starved**: of as many consecutive ticks as the tenants take up, one selects
the oldest row of a tenant that has a pending row at each of them. -/
theorem no_tenant_starved (hlimit : 1 ≤ limit) (hticks : 0 < ticks)
    (hrun : Rotates limit run ticks)
    (hpending : ∀ i < ticks, t ∈ tenants (run i).backlog)
    (henough : ⌈((tenantsDuring run ticks).card : ℚ) / limit⌉₊ ≤ ticks) :
    ∃ i < ticks, ∃ row, IsOldest (run i).backlog t row ∧
      row ∈ listUnpublished (run i).backlog limit (run i).afterTenantId := by
  by_contra hnone
  -- while it waits, every tick serves `limit` tenants before it
  have hwait : Waits limit run ticks t := by
    intro i hi
    obtain ⟨u, hu⟩ := exists_oldest_of_mem (hpending i hi)
    exact ⟨u, hu, fun hmem => hnone ⟨i, hi, u, hu, hmem⟩⟩
  have hmany := card_tenantsDuring hlimit hticks hrun hwait
  have hfew : ((tenantsDuring run ticks).card : ℚ) ≤ ticks * limit := by
    have hpos : (0 : ℚ) < limit := by exact_mod_cast hlimit
    rw [← div_le_iff₀ hpos]
    exact (Nat.le_ceil _).trans (by exact_mod_cast henough)
  have hfew : (tenantsDuring run ticks).card ≤ ticks * limit := by exact_mod_cast hfew
  omega

end

namespace Sample

/-- Two tenants, of which the second one is next; every publication fails. -/
def secondNext : Poller ℕ ℕ where
  backlog := { rows := [⟨0, 7, 0⟩, ⟨1, 8, 0⟩], distinct := by decide }
  afterTenantId := 7

/-- Two ticks. -/
def twoTicks (i : ℕ) : Poller ℕ ℕ := (tick (fun _ => true) 1)^[i] secondNext

end Sample

/-- With a limit of one, the first of two tenants is reached at the second of two ticks. -/
theorem no_tenant_starved_second :
    ∃ i < 2, ∃ row, IsOldest (Sample.twoTicks i).backlog 7 row ∧
      row ∈ listUnpublished (Sample.twoTicks i).backlog 1 (Sample.twoTicks i).afterTenantId := by
  refine no_tenant_starved le_rfl (by decide) ?_ ?_ ?_
  · intro i hi
    obtain rfl : i = 0 := by omega
    exact ⟨fun _ => true, rfl, fun row hrow => hrow⟩
  · decide +kernel
  · have hcard : (tenantsDuring Sample.twoTicks 2).card = 2 := by decide +kernel
    rw [hcard]
    norm_num

end Publisher
