/-
# The backlog of the outbox (`worker/src/repositories/outbox.ts`, `tick` of `outbox-poller.ts`)

`listUnpublished` ranks each tenant's pending rows by age and takes the ranks in turn, the
tenants in rotation.  Rows whose send fails stay where they are, so they keep their slots.

* `published_iff`: a row is published, within as many ticks as the square of the backlog, if
  and only if fewer failing rows than the limit have fewer failing rows of their tenant ahead
  of them than the row has.
* `blocked_forever`: one failing row is enough to block its tenant where the limit is one.

Identifiers are of any linearly ordered types: how texts compare is up to the database.
-/
import Waybill.CodeUnits
import Waybill.Ranking
import Mathlib.Data.List.Lex

namespace Publisher

variable {τ ι : Type}

/-! ## The query and the tick -/

/-- A pending row, as far as the query looks at it. -/
structure PendingRow (τ ι : Type) where
  id : ι
  tenantId : τ
  createdAt : ℚ
  deriving DecidableEq

/-- `ORDER BY o.created_at, o.id`. -/
def PendingRow.age (row : PendingRow τ ι) : ℚ ×ₗ ι := toLex (row.createdAt, row.id)

/-- The rows with `published = false`; `id` is the primary key. -/
structure Backlog (τ ι : Type) where
  rows : List (PendingRow τ ι)
  distinct : (rows.map PendingRow.id).Nodup

theorem Backlog.nodup (b : Backlog τ ι) : b.rows.Nodup := List.Nodup.of_map _ b.distinct

/-- Rows are told apart by their identifiers, so by their ages. -/
theorem Backlog.age_inj (b : Backlog τ ι) {x y : PendingRow τ ι} (hx : x ∈ b.rows)
    (hy : y ∈ b.rows) (h : x.age = y.age) : x = y := by
  have hid : x.id = y.id := congrArg (fun p : ℚ ×ₗ ι => (ofLex p).2) h
  exact List.inj_on_of_nodup_map b.distinct hx hy hid

variable [LinearOrder τ] [LinearOrder ι]

/-- The rows of one tenant that are older than a row. -/
def older (rows : List (PendingRow τ ι)) (row : PendingRow τ ι) : List (PendingRow τ ι) :=
  rows.filter (fun other => decide (other.tenantId = row.tenantId) && decide (other.age < row.age))

/-- `ROW_NUMBER() OVER (PARTITION BY e.tenant_id ORDER BY o.created_at, o.id)`. -/
def tenantPosition (rows : List (PendingRow τ ι)) (row : PendingRow τ ι) : ℕ :=
  (older rows row).length + 1

/-- `CASE WHEN tenant_id > ${afterTenantId} THEN 0 ELSE 1 END`. -/
def rotation (afterTenantId tenantId : τ) : ℕ := if afterTenantId < tenantId then 0 else 1

/-- The `ORDER BY` of the selection. -/
def selectionKey (rows : List (PendingRow τ ι)) (afterTenantId : τ) (row : PendingRow τ ι) :
    ℕ ×ₗ ℕ ×ₗ τ :=
  toLex (tenantPosition rows row, toLex (rotation afterTenantId row.tenantId, row.tenantId))

/-- `listUnpublished`. -/
def listUnpublished (backlog : Backlog τ ι) (limit : ℕ) (afterTenantId : τ) :
    List (PendingRow τ ι) :=
  Ranking.first limit (selectionKey backlog.rows afterTenantId) backlog.rows

/-- The backlog, and the cursor of the leader. -/
structure Poller (τ ι : Type) where
  backlog : Backlog τ ι
  afterTenantId : τ

/-- `tick`: the selected rows are published, but those whose send fails; the cursor is the
tenant of the last selected row. -/
def tick (fails : PendingRow τ ι → Bool) (limit : ℕ) (s : Poller τ ι) : Poller τ ι :=
  let rows := listUnpublished s.backlog limit s.afterTenantId
  { backlog :=
      { rows := s.backlog.rows.filter (fun row => fails row || !rows.contains row)
        distinct := s.backlog.distinct.sublist (List.filter_sublist.map _) }
    afterTenantId := (rows.getLast?.map PendingRow.tenantId).getD s.afterTenantId }

/-! ## What decides about a row -/

/-- How many failing rows of its tenant are ahead of a row. -/
def failingAhead (fails : PendingRow τ ι → Bool) (rows : List (PendingRow τ ι))
    (row : PendingRow τ ι) : ℕ :=
  (older (rows.filter fails) row).length

/-- The failing rows that have fewer failing rows ahead of them than a row has. -/
def blockers (fails : PendingRow τ ι → Bool) (rows : List (PendingRow τ ι))
    (row : PendingRow τ ι) : List (PendingRow τ ι) :=
  (rows.filter fails).filter (fun other =>
    decide (failingAhead fails rows other < failingAhead fails rows row))

/-- A row that never fails is published, however the others do, within a number of ticks that
depends on the size of the backlog only. -/
def NeverBlocks (τ ι : Type) [LinearOrder τ] [LinearOrder ι] : Prop :=
  ∃ bound : ℕ → ℕ, ∀ (s : Poller τ ι) (fails : PendingRow τ ι → Bool) (limit : ℕ), 1 ≤ limit →
    ∀ row ∈ s.backlog.rows, fails row = false →
      ∃ j ≤ bound s.backlog.rows.length, row ∉ ((tick fails limit)^[j] s).backlog.rows

/-! ## Positions -/

section

variable {b : Backlog τ ι} {x y : PendingRow τ ι} {c : τ} {limit : ℕ}
  {fails : PendingRow τ ι → Bool} {s : Poller τ ι}

/-- The rows of a tenant, as a set. -/
def ofTenant (rows : List (PendingRow τ ι)) (t : τ) : Finset (PendingRow τ ι) :=
  rows.toFinset.filter (fun row => row.tenantId = t)

theorem mem_ofTenant {rows : List (PendingRow τ ι)} {t : τ} :
    x ∈ ofTenant rows t ↔ x ∈ rows ∧ x.tenantId = t := by
  simp [ofTenant]

/-- The rows ahead of a row are counted by its rank among the rows of its tenant. -/
theorem length_older {rows : List (PendingRow τ ι)} (hrows : rows.Nodup) (x : PendingRow τ ι) :
    (older rows x).length = Ranking.rank (ofTenant rows x.tenantId) PendingRow.age x := by
  rw [Ranking.rank, ofTenant, Finset.filter_filter, ← Ranking.length_filter_eq_card hrows, older]
  congr 1
  refine List.filter_congr fun y _ => ?_
  rw [Bool.decide_and]

theorem age_injOn (b : Backlog τ ι) (t : τ) :
    Set.InjOn PendingRow.age (ofTenant b.rows t : Set (PendingRow τ ι)) := fun _ hx _ hy h =>
  b.age_inj (mem_ofTenant.mp hx).1 (mem_ofTenant.mp hy).1 h

/-- A tenant's rows have different positions. -/
theorem tenantPosition_inj (hx : x ∈ b.rows) (hy : y ∈ b.rows) (htenant : x.tenantId = y.tenantId)
    (h : tenantPosition b.rows x = tenantPosition b.rows y) : x = y := by
  have hrank : (older b.rows x).length = (older b.rows y).length := Nat.succ.inj h
  rw [length_older b.nodup, length_older b.nodup, htenant] at hrank
  exact Ranking.rank_injOn (age_injOn b y.tenantId) (mem_ofTenant.mpr ⟨hx, htenant⟩)
    (mem_ofTenant.mpr ⟨hy, rfl⟩) hrank

theorem selectionKey_inj (hx : x ∈ b.rows) (hy : y ∈ b.rows)
    (h : selectionKey b.rows c x = selectionKey b.rows c y) : x = y := by
  have hposition : tenantPosition b.rows x = tenantPosition b.rows y :=
    congrArg (fun p : ℕ ×ₗ ℕ ×ₗ τ => (ofLex p).1) h
  have htenant : x.tenantId = y.tenantId :=
    congrArg (fun p : ℕ ×ₗ ℕ ×ₗ τ => (ofLex (ofLex p).2).2) h
  exact tenantPosition_inj hx hy htenant hposition

/-- How many rows come before a row in the selection. -/
def place (b : Backlog τ ι) (c : τ) (x : PendingRow τ ι) : ℕ :=
  Ranking.rank b.rows.toFinset (selectionKey b.rows c) x

/-- A row is selected if its place is within the limit. -/
theorem mem_listUnpublished : x ∈ listUnpublished b limit c ↔ x ∈ b.rows ∧ place b c x < limit :=
  Ranking.mem_first b.nodup fun _ hx _ hy h => selectionKey_inj hx hy h

/-! ## Failing rows keep their slots -/

/-- The rows with fewer than `k` rows of their tenant ahead. -/
def low (rows : List (PendingRow τ ι)) (k : ℕ) : Finset (PendingRow τ ι) :=
  rows.toFinset.filter (fun x => (older rows x).length < k)

/-- The low rows of one tenant are those of low rank. -/
theorem low_ofTenant {rows : List (PendingRow τ ι)} (hrows : rows.Nodup) (k : ℕ) (t : τ) :
    (low rows k).filter (fun x => x.tenantId = t) =
      (ofTenant rows t).filter (fun x => Ranking.rank (ofTenant rows t) PendingRow.age x < k) := by
  ext x
  simp only [low, Finset.mem_filter, List.mem_toFinset, mem_ofTenant]
  constructor
  · rintro ⟨⟨hx, hlow⟩, rfl⟩
    exact ⟨⟨hx, rfl⟩, length_older hrows x ▸ hlow⟩
  · rintro ⟨⟨hx, rfl⟩, hrank⟩
    exact ⟨⟨hx, (length_older hrows x).symm ▸ hrank⟩, rfl⟩

/-- Fewer rows have no more low rows. -/
theorem card_low_mono (b : Backlog τ ι) (fails : PendingRow τ ι → Bool) (k : ℕ) :
    (low (b.rows.filter fails) k).card ≤ (low b.rows k).card := by
  have htenants : ∀ (rows : List (PendingRow τ ι)), (∀ x ∈ rows, x ∈ b.rows) →
      ∀ x ∈ low rows k, x.tenantId ∈ b.rows.toFinset.image PendingRow.tenantId := by
    intro rows hrows x hx
    have hmem : x ∈ rows := by simpa using (Finset.mem_filter.mp hx).1
    exact Finset.mem_image_of_mem _ (List.mem_toFinset.mpr (hrows x hmem))
  rw [Finset.card_eq_sum_card_fiberwise (htenants _ fun x hx => List.mem_of_mem_filter hx),
    Finset.card_eq_sum_card_fiberwise (htenants b.rows fun x hx => hx)]
  refine Finset.sum_le_sum fun t _ => ?_
  rw [low_ofTenant (b.nodup.filter _), low_ofTenant b.nodup]
  refine Ranking.card_rank_lt_mono (age_injOn b t) (fun x hx => ?_) k
  obtain ⟨hx, ht⟩ := mem_ofTenant.mp hx
  exact mem_ofTenant.mpr ⟨List.mem_of_mem_filter hx, ht⟩

/-- The blockers of a row are low among the failing rows. -/
theorem length_blockers (b : Backlog τ ι) (fails : PendingRow τ ι → Bool) (x : PendingRow τ ι) :
    (blockers fails b.rows x).length =
      (low (b.rows.filter fails) (failingAhead fails b.rows x)).card :=
  Ranking.length_filter_eq_card (b.nodup.filter _) _

/-- Ahead of a row are all failing rows that are ahead of it. -/
theorem failingAhead_le (fails : PendingRow τ ι → Bool) (rows : List (PendingRow τ ι))
    (x : PendingRow τ ι) : failingAhead fails rows x ≤ (older rows x).length := by
  unfold failingAhead older
  rw [List.filter_filter, List.filter_congr (q := fun y => fails y &&
    (decide (y.tenantId = x.tenantId) && decide (y.age < x.age))) fun y _ => Bool.and_comm _ _,
    ← List.filter_filter]
  exact List.length_filter_le _ _

/-- **With as many blockers as the limit, a row is not selected**, whatever the cursor. -/
theorem not_selected (hblocked : limit ≤ (blockers fails b.rows x).length) :
    x ∉ listUnpublished b limit c := by
  intro hx
  obtain ⟨-, hplace⟩ := mem_listUnpublished.mp hx
  refine absurd hplace (not_lt.mpr ?_)
  calc limit ≤ (low (b.rows.filter fails) (failingAhead fails b.rows x)).card := by
        rw [← length_blockers]
        exact hblocked
    _ ≤ (low b.rows (failingAhead fails b.rows x)).card := card_low_mono b fails _
    _ ≤ place b c x := by
        unfold place Ranking.rank
        refine Finset.card_le_card fun y hy => ?_
        obtain ⟨hmem, hlow⟩ := Finset.mem_filter.mp hy
        refine Finset.mem_filter.mpr ⟨hmem, Prod.Lex.toLex_lt_toLex.mpr (.inl ?_)⟩
        exact Nat.succ_lt_succ (lt_of_lt_of_le hlow (failingAhead_le fails b.rows x))

/-! ## Other rows get theirs -/

/-- The rows of a position that come before one of them in the rotation. -/
def ahead (b : Backlog τ ι) (c : τ) (u : PendingRow τ ι) : Finset (PendingRow τ ι) :=
  b.rows.toFinset.filter (fun x => tenantPosition b.rows x = tenantPosition b.rows u ∧
    selectionKey b.rows c x < selectionKey b.rows c u)

/-- The first row, by position, that does not fail. -/
structure Next (fails : PendingRow τ ι → Bool) (limit : ℕ) (b : Backlog τ ι)
    (u : PendingRow τ ι) : Prop where
  mem : u ∈ b.rows
  sends : fails u = false
  least : ∀ x ∈ b.rows, fails x = false → tenantPosition b.rows u ≤ tenantPosition b.rows x
  room : (low b.rows (older b.rows u).length).card < limit

/-- A row that comes before another has no larger position. -/
theorem position_le_of_key_lt (h : selectionKey b.rows c x < selectionKey b.rows c y) :
    tenantPosition b.rows x ≤ tenantPosition b.rows y := by
  rcases Prod.Lex.toLex_lt_toLex.mp h with h | h
  · exact h.le
  · exact h.1.le

/-- If the next row has to wait, the cursor moves to a row ahead of it. -/
theorem cursor_ahead {u : PendingRow τ ι} (hnext : Next fails limit b u)
    (hwait : u ∉ listUnpublished b limit c) :
    ∃ v ∈ ahead b c u, (listUnpublished b limit c).getLast? = some v := by
  have hplace : limit ≤ place b c u := by
    by_contra hlt
    exact hwait (mem_listUnpublished.mpr ⟨hnext.mem, not_le.mp hlt⟩)
  have hlength : place b c u < b.rows.length := by
    rw [← List.toFinset_card_of_nodup b.nodup]
    exact Ranking.rank_lt_card (List.mem_toFinset.mpr hnext.mem)
  cases hlast : (listUnpublished b limit c).getLast? with
  | none =>
      -- something is selected, as the limit is positive
      exfalso
      have hnil := List.getLast?_eq_none_iff.mp hlast
      have hcount : (listUnpublished b limit c).length = min limit b.rows.length := by
        rw [listUnpublished, Ranking.first, List.length_take, (Ranking.sorted_perm _ _).length_eq]
      rw [hnil, List.length_nil] at hcount
      have hroom := hnext.room
      omega
  | some v =>
      obtain ⟨hv, hrank⟩ := Ranking.rank_last_first b.nodup
        (fun _ hx _ hy h => selectionKey_inj hx hy h) hlast
      have hvplace : place b c v + 1 = limit := by
        rw [place, hrank]
        omega
      have hbefore : selectionKey b.rows c v < selectionKey b.rows c u :=
        Ranking.key_lt_of_rank_lt (s := b.rows.toFinset) (show place b c v < place b c u by omega)
      refine ⟨v, Finset.mem_filter.mpr ⟨List.mem_toFinset.mpr hv, ?_, hbefore⟩, rfl⟩
      refine le_antisymm (position_le_of_key_lt hbefore) (not_lt.mp fun hlow => ?_)
      -- otherwise only low rows come before it, too few to fill the limit
      have hsub : insert v (b.rows.toFinset.filter
          (fun x => selectionKey b.rows c x < selectionKey b.rows c v)) ⊆
          low b.rows (older b.rows u).length := by
        intro x hx
        rcases Finset.mem_insert.mp hx with rfl | hx
        · exact Finset.mem_filter.mpr ⟨List.mem_toFinset.mpr hv, Nat.lt_of_succ_lt_succ hlow⟩
        · obtain ⟨hmem, hkey⟩ := Finset.mem_filter.mp hx
          exact Finset.mem_filter.mpr ⟨hmem, Nat.lt_of_succ_lt_succ
            (lt_of_le_of_lt (position_le_of_key_lt hkey) hlow)⟩
      have hcard := Finset.card_le_card hsub
      rw [Finset.card_insert_of_notMem (by simp)] at hcard
      have hroom := hnext.room
      have hplace' : (b.rows.toFinset.filter
          (fun x => selectionKey b.rows c x < selectionKey b.rows c v)).card = place b c v := rfl
      omega

/-- Tenants in rotation after a cursor. -/
theorem key_lt_iff (h : tenantPosition b.rows x = tenantPosition b.rows y) :
    selectionKey b.rows c x < selectionKey b.rows c y ↔
      rotation c x.tenantId < rotation c y.tenantId ∨
        rotation c x.tenantId = rotation c y.tenantId ∧ x.tenantId < y.tenantId := by
  unfold selectionKey
  rw [Prod.Lex.toLex_lt_toLex, Prod.Lex.toLex_lt_toLex, h]
  simp

/-- A tenant is not ahead of others when the cursor has reached it. -/
theorem rotation_self (t u : τ) :
    ¬ (rotation t t < rotation t u ∨ rotation t t = rotation t u ∧ t < u) := by
  unfold rotation
  by_cases h : t < u <;> simp [h]

/-- Who is ahead of `u` after `v`, and `v` after `c`, is ahead after `c`. -/
theorem rotation_trans {c t u v : τ}
    (ht : rotation v t < rotation v u ∨ rotation v t = rotation v u ∧ t < u)
    (hv : rotation c v < rotation c u ∨ rotation c v = rotation c u ∧ v < u) :
    rotation c t < rotation c u ∨ rotation c t = rotation c u ∧ t < u := by
  unfold rotation at *
  split_ifs at * <;> simp_all <;> order

/-- From the cursor's new place fewer rows are ahead. -/
theorem card_ahead_lt {u v : PendingRow τ ι} (hv : v ∈ ahead b c u) :
    (ahead b v.tenantId u).card < (ahead b c u).card := by
  obtain ⟨hvmem, hvpos, hvkey⟩ := Finset.mem_filter.mp hv
  refine Finset.card_lt_card ⟨fun x hx => ?_, fun hsub => ?_⟩
  · obtain ⟨hx, hpos, hkey⟩ := Finset.mem_filter.mp hx
    refine Finset.mem_filter.mpr ⟨hx, hpos, (key_lt_iff hpos).mpr ?_⟩
    exact rotation_trans ((key_lt_iff hpos).mp hkey) ((key_lt_iff hvpos).mp hvkey)
  · obtain ⟨-, -, hkey⟩ := Finset.mem_filter.mp (hsub hv)
    exact rotation_self _ _ ((key_lt_iff hvpos).mp hkey)

/-! ## Ticks -/

/-- What a tick leaves: failing rows, and rows that were not selected. -/
theorem mem_tick : x ∈ (tick fails limit s).backlog.rows ↔
    x ∈ s.backlog.rows ∧
      (fails x = true ∨ x ∉ listUnpublished s.backlog limit s.afterTenantId) := by
  simp [tick]

/-- Failing rows stay. -/
theorem failing_tick :
    (tick fails limit s).backlog.rows.filter fails = s.backlog.rows.filter fails := by
  simp only [tick]
  rw [List.filter_filter]
  refine List.filter_congr fun x _ => ?_
  cases fails x <;> rfl

theorem failing_iterate (j : ℕ) :
    ((tick fails limit)^[j] s).backlog.rows.filter fails = s.backlog.rows.filter fails := by
  induction j with
  | zero => rfl
  | succ j ih => rw [Function.iterate_succ_apply', failing_tick, ih]

/-- The blockers of a row stay the same. -/
theorem blockers_iterate (j : ℕ) : blockers fails ((tick fails limit)^[j] s).backlog.rows x =
    blockers fails s.backlog.rows x := by
  unfold blockers failingAhead
  rw [failing_iterate]

/-- A tick that publishes something makes the backlog smaller. -/
theorem length_tick_lt (hx : x ∈ listUnpublished s.backlog limit s.afterTenantId)
    (hsends : fails x = false) :
    (tick fails limit s).backlog.rows.length < s.backlog.rows.length := by
  refine List.length_filter_lt_length_iff_exists.mpr
    ⟨x, (mem_listUnpublished.mp hx).1, ?_⟩
  simp [hsends, hx]

/-- A tick that publishes nothing only moves the cursor. -/
theorem tick_stuck {v : PendingRow τ ι}
    (hstuck : ∀ x ∈ listUnpublished s.backlog limit s.afterTenantId, fails x = true)
    (hlast : (listUnpublished s.backlog limit s.afterTenantId).getLast? = some v) :
    tick fails limit s = { backlog := s.backlog, afterTenantId := v.tenantId } := by
  obtain ⟨⟨rows, hrows⟩, c⟩ := s
  simp only [tick, hlast, Option.map_some, Option.getD_some, Poller.mk.injEq, Backlog.mk.injEq,
    and_true]
  refine List.filter_eq_self.mpr fun x _ => ?_
  by_cases hx : x ∈ listUnpublished ⟨rows, hrows⟩ limit c
  · simp [hstuck x hx]
  · simp [hx]

/-- **Progress**: while a row can be next, something is published before the cursor has been
around once. -/
theorem progress {u : PendingRow τ ι} (hnext : Next fails limit b u) (c : τ) :
    ∃ j ≤ (ahead b c u).card + 1,
      ((tick fails limit)^[j] { backlog := b, afterTenantId := c }).backlog.rows.length <
        b.rows.length := by
  induction hcard : (ahead b c u).card using Nat.strong_induction_on generalizing c with
  | _ n ih =>
      by_cases hpub : ∃ x ∈ listUnpublished b limit c, fails x = false
      · obtain ⟨x, hx, hsends⟩ := hpub
        have hx' : x ∈ listUnpublished
            ({ backlog := b, afterTenantId := c } : Poller τ ι).backlog limit c := hx
        exact ⟨1, by omega, length_tick_lt hx' hsends⟩
      · push Not at hpub
        have hstuck : ∀ x ∈ listUnpublished b limit c, fails x = true := fun x hx =>
          eq_true_of_ne_false (hpub x hx)
        obtain ⟨v, hv, hlast⟩ := cursor_ahead hnext fun hu => hpub u hu hnext.sends
        have htick : tick fails limit { backlog := b, afterTenantId := c } =
            { backlog := b, afterTenantId := v.tenantId } := tick_stuck hstuck hlast
        have hless := card_ahead_lt hv
        obtain ⟨j, hj, hlength⟩ := ih _ (hcard ▸ hless) v.tenantId rfl
        refine ⟨j + 1, by omega, ?_⟩
        rw [Function.iterate_succ_apply, htick]
        exact hlength

/-! ## Who can be next -/

/-- Where everything ahead of a row fails, the failing rows ahead are all there are. -/
theorem failingAhead_eq {rows : List (PendingRow τ ι)}
    (h : ∀ y ∈ rows, y.tenantId = x.tenantId → y.age < x.age → fails y = true) :
    failingAhead fails rows x = (older rows x).length := by
  unfold failingAhead older
  rw [List.filter_filter]
  refine congrArg List.length (List.filter_congr fun y hy => ?_)
  by_cases htenant : y.tenantId = x.tenantId
  · by_cases hage : y.age < x.age
    · simp [htenant, hage, h y hy htenant hage]
    · simp [hage]
  · simp [htenant]

/-- An older row of the tenant has fewer rows ahead. -/
theorem length_older_lt (hy : y ∈ b.rows) (htenant : y.tenantId = x.tenantId)
    (hage : y.age < x.age) : (older b.rows y).length < (older b.rows x).length := by
  rw [length_older b.nodup, length_older b.nodup, htenant]
  exact Ranking.rank_lt_rank (mem_ofTenant.mpr ⟨hy, htenant⟩) hage

/-- The oldest row of a tenant that does not fail has only failing rows ahead. -/
theorem exists_oldest (hx : x ∈ b.rows) (hsends : fails x = false) :
    ∃ r ∈ b.rows, fails r = false ∧ (older b.rows r).length ≤ failingAhead fails b.rows x := by
  obtain ⟨r, hr, hmin⟩ := Finset.exists_min_image
    ((ofTenant b.rows x.tenantId).filter (fun y => fails y = false)) PendingRow.age
    ⟨x, Finset.mem_filter.mpr ⟨mem_ofTenant.mpr ⟨hx, rfl⟩, hsends⟩⟩
  obtain ⟨hr, hrsends⟩ := Finset.mem_filter.mp hr
  obtain ⟨hr, hrtenant⟩ := mem_ofTenant.mp hr
  have hfailing : ∀ y ∈ b.rows, y.tenantId = r.tenantId → y.age < r.age → fails y = true := by
    intro y hy htenant hage
    by_contra hne
    refine absurd hage (not_lt.mpr (hmin y (Finset.mem_filter.mpr ⟨mem_ofTenant.mpr ⟨hy, ?_⟩, ?_⟩)))
    · rw [htenant, hrtenant]
    · exact eq_false_of_ne_true hne
  refine ⟨r, hr, hrsends, ?_⟩
  rw [← failingAhead_eq hfailing]
  unfold failingAhead
  rw [length_older (b.nodup.filter _), length_older (b.nodup.filter _), hrtenant]
  exact Ranking.rank_le_rank (hmin x (Finset.mem_filter.mpr ⟨mem_ofTenant.mpr ⟨hx, rfl⟩, hsends⟩))

/-- With fewer blockers than the limit there is a row to be published next. -/
theorem exists_next (hx : x ∈ b.rows) (hsends : fails x = false)
    (hfree : (blockers fails b.rows x).length < limit) : ∃ u, Next fails limit b u := by
  obtain ⟨r, hr, hrsends, hrahead⟩ := exists_oldest hx hsends
  obtain ⟨u, hu, hmin⟩ := Finset.exists_min_image
    (b.rows.toFinset.filter (fun y => fails y = false)) (tenantPosition b.rows)
    ⟨x, Finset.mem_filter.mpr ⟨List.mem_toFinset.mpr hx, hsends⟩⟩
  obtain ⟨hu, husends⟩ := Finset.mem_filter.mp hu
  have hleast : ∀ y ∈ b.rows, fails y = false →
      tenantPosition b.rows u ≤ tenantPosition b.rows y := fun y hy hysends =>
    hmin y (Finset.mem_filter.mpr ⟨List.mem_toFinset.mpr hy, hysends⟩)
  refine ⟨u, List.mem_toFinset.mp hu, husends, hleast, ?_⟩
  have hlow : ∀ y ∈ b.rows, (older b.rows y).length < (older b.rows u).length →
      fails y = true := by
    intro y hy hlt
    by_contra hne
    exact absurd (hleast y hy (eq_false_of_ne_true hne)) (not_le.mpr (Nat.succ_lt_succ hlt))
  refine lt_of_le_of_lt ?_ hfree
  rw [length_blockers]
  refine Finset.card_le_card fun y hy => ?_
  obtain ⟨hy, hylow⟩ := Finset.mem_filter.mp hy
  have hy := List.mem_toFinset.mp hy
  refine Finset.mem_filter.mpr ⟨List.mem_toFinset.mpr (List.mem_filter.mpr ⟨hy, hlow y hy hylow⟩),
    ?_⟩
  -- everything ahead of `y` is low as well
  have hahead : failingAhead fails b.rows y = (older b.rows y).length :=
    failingAhead_eq fun z hz htenant hage =>
      hlow z hz ((length_older_lt hz htenant hage).trans hylow)
  have hle : tenantPosition b.rows u ≤ tenantPosition b.rows r := hleast r hr hrsends
  unfold tenantPosition at hle
  change failingAhead fails b.rows y < failingAhead fails b.rows x
  omega

/-- A row with fewer blockers than the limit is published in time. -/
theorem published_in_time (n : ℕ) (hn : s.backlog.rows.length ≤ n) (hx : x ∈ s.backlog.rows)
    (hsends : fails x = false) (hfree : (blockers fails s.backlog.rows x).length < limit) :
    ∃ j ≤ n * n, x ∉ ((tick fails limit)^[j] s).backlog.rows := by
  induction n generalizing s with
  | zero =>
      rw [List.length_eq_zero_iff.mp (Nat.le_zero.mp hn)] at hx
      cases hx
  | succ n ih =>
      obtain ⟨u, hnext⟩ := exists_next hx hsends hfree
      obtain ⟨j, hj, hlength⟩ := progress hnext s.afterTenantId
      have hahead : (ahead s.backlog s.afterTenantId u).card < s.backlog.rows.length := by
        rw [← List.toFinset_card_of_nodup s.backlog.nodup]
        refine Finset.card_lt_card ⟨Finset.filter_subset _ _, fun hsub => ?_⟩
        have hmem := hsub (List.mem_toFinset.mpr hnext.mem)
        exact lt_irrefl _ (Finset.mem_filter.mp hmem).2.2
      have hsquare : (n + 1) * (n + 1) = n * n + n + n + 1 := by ring
      by_cases hout : x ∈ ((tick fails limit)^[j] s).backlog.rows
      · have hshort : ((tick fails limit)^[j] s).backlog.rows.length ≤ n := by
          have hlength' : ((tick fails limit)^[j] s).backlog.rows.length <
            s.backlog.rows.length := hlength
          omega
        obtain ⟨i, hi, hpublished⟩ := ih hshort hout (by rw [blockers_iterate]; exact hfree)
        refine ⟨i + j, by omega, ?_⟩
        rw [Function.iterate_add_apply]
        exact hpublished
      · exact ⟨j, by omega, hout⟩

/-- A row with as many blockers as the limit stays. -/
theorem blocked_iterate (hx : x ∈ s.backlog.rows)
    (hblocked : limit ≤ (blockers fails s.backlog.rows x).length) (j : ℕ) :
    x ∈ ((tick fails limit)^[j] s).backlog.rows := by
  induction j with
  | zero => exact hx
  | succ j ih =>
      have hstill : limit ≤ (blockers fails ((tick fails limit)^[j] s).backlog.rows x).length := by
        rw [blockers_iterate]
        exact hblocked
      rw [Function.iterate_succ_apply']
      exact mem_tick.mpr ⟨ih, .inr (not_selected hstill)⟩

/-- **When a row is published**: within as many ticks as the square of the backlog, if fewer
failing rows than the limit have fewer failing rows of their tenant ahead of them than the row
has; otherwise never. -/
theorem published_iff (s : Poller τ ι) (fails : PendingRow τ ι → Bool) (limit : ℕ)
    (row : PendingRow τ ι) (hrow : row ∈ s.backlog.rows) (hsends : fails row = false) :
    ((blockers fails s.backlog.rows row).length < limit →
        ∃ j ≤ s.backlog.rows.length * s.backlog.rows.length,
          row ∉ ((tick fails limit)^[j] s).backlog.rows) ∧
      ((∃ j, row ∉ ((tick fails limit)^[j] s).backlog.rows) →
        (blockers fails s.backlog.rows row).length < limit) := by
  constructor
  · exact published_in_time _ le_rfl hrow hsends
  · rintro ⟨j, hj⟩
    -- as many failing rows as the limit stay in front of it for ever
    by_contra hblocked
    exact hj (blocked_iterate hrow (not_lt.mp hblocked) j)

end

/-! ## One tenant with two rows -/

namespace Sample

/-- Code units in their numeric order, so that texts compare unit by unit. -/
instance unitOrder : LinearOrder UInt16 :=
  LinearOrder.lift' UInt16.toNat fun _ _ h => UInt16.toNat_inj.mp h

/-- An old row and a new one. -/
def pair : Poller JsString JsString where
  backlog :=
    { rows := [⟨js "a", js "tenant", 1⟩, ⟨js "b", js "tenant", 2⟩]
      distinct := by decide }
  afterTenantId := []

/-- The old one fails. -/
def oldFails (row : PendingRow JsString JsString) : Bool := row.id == js "a"

end Sample

/-- With a limit of two the new row is published, although the old one fails. -/
theorem published_iff_pair : ∃ row ∈ Sample.pair.backlog.rows, Sample.oldFails row = false ∧
    ∃ j ≤ 4, row ∉ ((tick Sample.oldFails 2)^[j] Sample.pair).backlog.rows := by
  refine ⟨⟨js "b", js "tenant", 2⟩, by decide, by decide, ?_⟩
  exact (published_iff Sample.pair Sample.oldFails 2 ⟨js "b", js "tenant", 2⟩ (by decide)
    (by decide)).1 (by decide)

/-- With a limit of one the old row takes the only slot in every tick. -/
theorem blocked_forever : ¬ NeverBlocks JsString JsString := by
  rintro ⟨bound, h⟩
  obtain ⟨j, -, hj⟩ := h Sample.pair Sample.oldFails 1 le_rfl ⟨js "b", js "tenant", 2⟩
    (by decide) (by decide)
  refine hj (blocked_iterate ?_ ?_ j) <;> decide

end Publisher
