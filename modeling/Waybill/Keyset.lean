/-
# Keyset pagination

A general library; nothing in it names this repository.

A listing is read page by page.  Each row has a *place*, the places are ordered by a key, and a
request goes on after the place at which the page before it ended.  The table may be another
one at each request.

* `walk`: the pages that a reader gets, one from each state of the table.
* `pairwise_walk`: their rows are in strictly increasing order, so none comes twice.
* `nextCursor_eq_none_iff`: a page is the last one exactly if no row is left.
* `exists_mem_walk`: a row that is in every state of the table is in one of the pages of a walk
  that ended.
-/
import Waybill.Ranking

namespace Keyset

variable {ρ π ξ ζ τ ε κ : Type*}

/-! ## Pages -/

/-- A page, and where the next one starts. -/
structure Page (ρ ξ : Type*) where
  items : List ρ
  nextCursor : Option ξ

/-- Another way to write the cursors. -/
def Page.map (f : ξ → ζ) (page : Page ρ ξ) : Page ρ ζ :=
  { items := page.items
    nextCursor := page.nextCursor.map f }

/-- The rows of all pages. -/
def rowsOf (pages : List (Page ρ ξ)) : List ρ := pages.flatMap Page.items

/-- The last page has no cursor. -/
def Ended (pages : List (Page ρ ξ)) : Prop :=
  ∃ page, pages.getLast? = some page ∧ page.nextCursor = none

@[simp] theorem rowsOf_nil : rowsOf ([] : List (Page ρ ξ)) = [] := rfl

@[simp] theorem rowsOf_cons (page : Page ρ ξ) (pages : List (Page ρ ξ)) :
    rowsOf (page :: pages) = page.items ++ rowsOf pages := rfl

theorem rowsOf_map (f : ξ → ζ) (pages : List (Page ρ ξ)) :
    rowsOf (pages.map (Page.map f)) = rowsOf pages := by
  induction pages with
  | nil => rfl
  | cons page pages ih =>
      rw [List.map_cons, rowsOf_cons, rowsOf_cons, ih]
      rfl

theorem ended_map (f : ξ → ζ) {pages : List (Page ρ ξ)} (h : Ended (pages.map (Page.map f))) :
    Ended pages := by
  obtain ⟨page, hlast, hnone⟩ := h
  rw [List.getLast?_map, Option.map_eq_some_iff] at hlast
  obtain ⟨page, hlast, rfl⟩ := hlast
  exact ⟨page, hlast, Option.map_eq_none_iff.mp hnone⟩

/-- A page with a cursor is not the last one. -/
theorem ended_of_cons {page : Page ρ ξ} {pages : List (Page ρ ξ)} (h : Ended (page :: pages))
    (hnext : page.nextCursor ≠ none) : Ended pages := by
  obtain ⟨last, hlast, hnone⟩ := h
  cases pages with
  | nil =>
      obtain rfl := Option.some.inj hlast
      exact absurd hnone hnext
  | cons second pages =>
      rw [List.getLast?_cons_cons] at hlast
      exact ⟨last, hlast, hnone⟩

/-- **Following the cursors**: one request for each state of the table, until a page has no
cursor or a request is refused. -/
def follow (get : Option ξ → τ → Except ε (Page ρ ξ)) :
    Option ξ → List τ → Except ε (List (Page ρ ξ))
  | _, [] => .ok []
  | cursor, table :: later =>
      match get cursor table with
      | .error error => .error error
      | .ok page =>
          match page.nextCursor with
          | none => .ok [page]
          | some next => (follow get (some next) later).map (page :: ·)

variable [LinearOrder κ] (place : ρ → π) (key : π → κ) (n : ℕ)

/-- The rows after a place. -/
def remaining (position : Option π) (rows : List ρ) : List ρ :=
  rows.filter (fun r => position.all (fun p => decide (key p < key (place r))))

/-- The next `n` rows, and the place of the last of them if there are more. -/
def page (position : Option π) (rows : List ρ) : Page ρ π :=
  let items := Ranking.first n (fun r => key (place r)) (remaining place key position rows)
  { items := items
    nextCursor :=
      if n < (remaining place key position rows).length then items.getLast?.map place else none }

/-- **The pages of a reader** that starts after a place. -/
def walk : Option π → List (List ρ) → List (Page ρ π)
  | _, [] => []
  | position, rows :: later =>
      page place key n position rows ::
        match (page place key n position rows).nextCursor with
        | none => []
        | some next => walk (some next) later

/-- No two rows have the same key. -/
def Keyed (rows : List ρ) : Prop := (rows.map (fun r => key (place r))).Nodup

/-! ## One page -/

section

variable {place key n} {position : Option π} {rows : List ρ} {r s : ρ} {p : π}

theorem mem_remaining : r ∈ remaining place key position rows ↔
    r ∈ rows ∧ ∀ p ∈ position, key p < key (place r) := by
  unfold remaining
  cases position with
  | none => simp
  | some p => simp

theorem Keyed.remaining (h : Keyed place key rows) (position : Option π) :
    Keyed place key (remaining place key position rows) :=
  List.Nodup.sublist (List.Sublist.map _ List.filter_sublist) h

theorem Keyed.pairwise_sorted (h : Keyed place key rows) :
    (Ranking.sorted (fun r => key (place r)) rows).Pairwise
      (fun a b => key (place a) < key (place b)) := by
  apply Ranking.pairwise_sorted (List.Nodup.of_map _ h)
  intro a ha b hb hkey
  exact List.inj_on_of_nodup_map h ha hb hkey

theorem items_append (position : Option π) (rows : List ρ) :
    (page place key n position rows).items ++ (Ranking.sorted (fun r => key (place r))
      (remaining place key position rows)).drop n =
        Ranking.sorted (fun r => key (place r)) (remaining place key position rows) :=
  List.take_append_drop n _

theorem length_items (position : Option π) (rows : List ρ) :
    (page place key n position rows).items.length =
      min n (remaining place key position rows).length := by
  show (List.take n _).length = _
  rw [List.length_take, (Ranking.sorted_perm _ _).length_eq]

theorem mem_items (h : r ∈ (page place key n position rows).items) :
    r ∈ rows ∧ ∀ p ∈ position, key p < key (place r) := by
  apply mem_remaining.mp
  exact (Ranking.sorted_perm _ _).mem_iff.mp (List.mem_of_mem_take h)

theorem pairwise_items (position : Option π) (h : Keyed place key rows) :
    (page place key n position rows).items.Pairwise (fun a b => key (place a) < key (place b)) :=
  (h.remaining position).pairwise_sorted.sublist (List.take_sublist n _)

/-- A row that is left is on the page, or after all of the page. -/
theorem mem_items_or (h : Keyed place key rows) (hr : r ∈ remaining place key position rows) :
    r ∈ (page place key n position rows).items ∨
      ∀ s ∈ (page place key n position rows).items, key (place s) < key (place r) := by
  have hmem := (Ranking.sorted_perm (fun r => key (place r)) _).mem_iff.mpr hr
  have hsorted := (h.remaining position).pairwise_sorted
  rw [← items_append (n := n)] at hmem hsorted
  rcases List.mem_append.mp hmem with hpage | hlater
  · exact .inl hpage
  · exact .inr fun s hs => (List.pairwise_append.mp hsorted).2.2 s hs r hlater

/-- **Where the next page starts**: at the last row of this one. -/
theorem of_nextCursor (h : Keyed place key rows)
    (hnext : (page place key n position rows).nextCursor = some p) :
    (∃ r ∈ (page place key n position rows).items, place r = p) ∧
      ∀ r ∈ (page place key n position rows).items, key (place r) ≤ key p := by
  obtain ⟨-, hsome⟩ := Option.ite_none_right_eq_some.mp hnext
  obtain ⟨last, hlast, rfl⟩ := Option.map_eq_some_iff.mp hsome
  obtain ⟨front, hfront⟩ := List.getLast?_eq_some_iff.mp hlast
  change (page place key n position rows).items = front ++ [last] at hfront
  have hsorted := pairwise_items position h (n := n)
  rw [hfront] at hsorted ⊢
  refine ⟨⟨last, by simp, rfl⟩, fun r hr => ?_⟩
  rcases List.mem_append.mp hr with hr | hr
  · exact ((List.pairwise_append.mp hsorted).2.2 r hr last (by simp)).le
  · rw [List.mem_singleton.mp hr]

/-- **The last page**: it has no cursor exactly if no row comes after it. -/
theorem nextCursor_eq_none_iff (h : Keyed place key rows) (hn : 1 ≤ n) :
    (page place key n position rows).nextCursor = none ↔
      ¬ ∃ r ∈ rows, (∀ p ∈ position, key p < key (place r)) ∧
        ∀ s ∈ (page place key n position rows).items, key (place s) < key (place r) := by
  have hlength : (page place key n position rows).items.length =
      min n (remaining place key position rows).length := length_items position rows
  constructor
  · intro hnone ⟨r, hr, hafter, hlater⟩
    have hleft : r ∈ remaining place key position rows := mem_remaining.mpr ⟨hr, hafter⟩
    have hfew : (remaining place key position rows).length ≤ n := by
      by_contra hmore
      have hempty : (page place key n position rows).items.getLast?.map place = none := by
        rw [← hnone]
        exact (if_pos (not_le.mp hmore)).symm
      rw [Option.map_eq_none_iff, List.getLast?_eq_none_iff] at hempty
      rw [hempty, List.length_nil] at hlength
      omega
    have hall : r ∈ (page place key n position rows).items := by
      have hdrop : (Ranking.sorted (fun r => key (place r))
          (remaining place key position rows)).drop n = [] := by
        apply List.drop_eq_nil_of_le
        rw [(Ranking.sorted_perm _ _).length_eq]
        exact hfew
      have hmem := (Ranking.sorted_perm (fun r => key (place r)) _).mem_iff.mpr hleft
      rw [← items_append (n := n), hdrop, List.append_nil] at hmem
      exact hmem
    exact lt_irrefl _ (hlater r hall)
  · intro hnone
    apply if_neg
    intro hmore
    -- the first row that did not fit would come after the page
    have hlong : n < (Ranking.sorted (fun r => key (place r))
        (remaining place key position rows)).length := by
      rw [(Ranking.sorted_perm _ _).length_eq]
      exact hmore
    obtain ⟨r, later, hdrop⟩ := List.exists_cons_of_ne_nil
      (List.ne_nil_of_length_pos (by rw [List.length_drop]; omega :
        0 < ((Ranking.sorted (fun r => key (place r))
          (remaining place key position rows)).drop n).length))
    have hmem : r ∈ remaining place key position rows := by
      apply (Ranking.sorted_perm (fun r => key (place r)) _).mem_iff.mp
      apply List.mem_of_mem_drop (i := n)
      rw [hdrop]
      exact List.mem_cons_self
    obtain ⟨hr, hafter⟩ := mem_remaining.mp hmem
    have hsorted := (h.remaining position).pairwise_sorted
    rw [← items_append (n := n), hdrop] at hsorted
    refine hnone ⟨r, hr, hafter, fun s hs => ?_⟩
    exact (List.pairwise_append.mp hsorted).2.2 s hs r List.mem_cons_self

end

/-! ## The whole walk -/

section

variable {place key n} {position : Option π} {tables : List (List ρ)} {r : ρ}

/-- A walk is a page, and the walk from its cursor on. -/
theorem walk_cons (position : Option π) (rows : List ρ) (later : List (List ρ)) :
    walk place key n position (rows :: later) = page place key n position rows ::
      match (page place key n position rows).nextCursor with
      | none => []
      | some next => walk place key n (some next) later := rfl

/-- Every row is one of its table, and comes after the start. -/
theorem mem_walk (htables : ∀ rows ∈ tables, Keyed place key rows)
    (h : r ∈ rowsOf (walk place key n position tables)) :
    (∃ rows ∈ tables, r ∈ rows) ∧ ∀ p ∈ position, key p < key (place r) := by
  induction tables generalizing position with
  | nil => cases h
  | cons rows later ih =>
      have hrows := htables rows List.mem_cons_self
      rw [walk_cons, rowsOf_cons, List.mem_append] at h
      rcases h with h | h
      · obtain ⟨hr, hafter⟩ := mem_items h
        exact ⟨⟨rows, List.mem_cons_self, hr⟩, hafter⟩
      · cases hnext : (page place key n position rows).nextCursor with
        | none =>
            rw [hnext] at h
            cases h
        | some next =>
            rw [hnext] at h
            obtain ⟨⟨rows', hrows', hr⟩, hafter⟩ :=
              ih (fun t ht => htables t (List.mem_cons_of_mem _ ht)) h
            refine ⟨⟨rows', List.mem_cons_of_mem _ hrows', hr⟩, fun p hp => ?_⟩
            -- the next page starts at a row of this one
            obtain ⟨⟨last, hlast, rfl⟩, -⟩ := of_nextCursor hrows hnext
            exact ((mem_items hlast).2 p hp).trans (hafter _ rfl)

variable (n position)

/-- **The rows come in strictly increasing order.** -/
theorem pairwise_walk (htables : ∀ rows ∈ tables, Keyed place key rows) :
    (rowsOf (walk place key n position tables)).Pairwise
      (fun a b => key (place a) < key (place b)) := by
  induction tables generalizing position with
  | nil => exact List.Pairwise.nil
  | cons rows later ih =>
      have hrows := htables rows List.mem_cons_self
      have hlater : ∀ t ∈ later, Keyed place key t :=
        fun t ht => htables t (List.mem_cons_of_mem _ ht)
      rw [walk_cons, rowsOf_cons, List.pairwise_append]
      refine ⟨pairwise_items position hrows, ?_, ?_⟩
      · cases (page place key n position rows).nextCursor with
        | none => exact List.Pairwise.nil
        | some next => exact ih (some next) hlater
      · intro a ha b hb
        cases hnext : (page place key n position rows).nextCursor with
        | none =>
            rw [hnext] at hb
            cases hb
        | some next =>
            rw [hnext] at hb
            have hle := (of_nextCursor hrows hnext).2 a ha
            exact lt_of_le_of_lt hle ((mem_walk hlater hb).2 next rfl)

/-- **When a page is the last one**: its table has no row after those that were given so far. -/
theorem nextCursor_of_walk (htables : ∀ rows ∈ tables, Keyed place key rows) (hn : 1 ≤ n)
    {i : ℕ} {given : Page ρ π} {rows : List ρ}
    (hpage : (walk place key n position tables)[i]? = some given) (hrows : tables[i]? = some rows) :
    given.nextCursor = none ↔
      ¬ ∃ r ∈ rows, (∀ p ∈ position, key p < key (place r)) ∧
        ∀ s ∈ rowsOf ((walk place key n position tables).take (i + 1)),
          key (place s) < key (place r) := by
  induction tables generalizing position i with
  | nil => cases hrows
  | cons first later ih =>
      have hfirst := htables first List.mem_cons_self
      rw [walk_cons] at hpage ⊢
      cases i with
      | zero =>
          obtain rfl := Option.some.inj hpage
          obtain rfl := Option.some.inj hrows
          rw [List.take_succ_cons, List.take_zero, rowsOf_cons, rowsOf_nil, List.append_nil]
          exact nextCursor_eq_none_iff hfirst hn
      | succ i =>
          rw [List.getElem?_cons_succ] at hpage hrows
          cases hnext : (page place key n position first).nextCursor with
          | none =>
              rw [hnext] at hpage
              cases hpage
          | some next =>
              rw [hnext] at hpage
              rw [ih (some next) (fun t ht => htables t (List.mem_cons_of_mem _ ht)) hpage hrows,
                List.take_succ_cons, rowsOf_cons]
              obtain ⟨⟨last, hlast, rfl⟩, hmax⟩ := of_nextCursor hfirst hnext
              -- what comes after the first page is what comes after its last row
              have hsame : ∀ r, (∀ p ∈ some (place last), key p < key (place r)) ↔
                  (∀ p ∈ position, key p < key (place r)) ∧
                    ∀ s ∈ (page place key n position first).items,
                      key (place s) < key (place r) := by
                intro r
                constructor
                · intro h
                  have hlt := h (place last) rfl
                  exact ⟨fun p hp => ((mem_items hlast).2 p hp).trans hlt,
                    fun s hs => lt_of_le_of_lt (hmax s hs) hlt⟩
                · rintro ⟨-, h⟩ p hp
                  obtain rfl := Option.some.inj hp
                  exact h last hlast
              simp only [hsame, List.mem_append, or_imp, forall_and, and_assoc]

/-- **A walk is complete**: a row that was in every table it read is in one of its pages. -/
theorem exists_mem_walk (htables : ∀ rows ∈ tables, Keyed place key rows) (hn : 1 ≤ n)
    (hended : Ended (walk place key n position tables)) {k : κ}
    (hafter : ∀ p ∈ position, key p < k)
    (hthere : ∀ rows ∈ tables.take (walk place key n position tables).length,
      ∃ r ∈ rows, key (place r) = k) :
    ∃ r ∈ rowsOf (walk place key n position tables), key (place r) = k := by
  induction tables generalizing position with
  | nil =>
      obtain ⟨given, hlast, -⟩ := hended
      cases hlast
  | cons rows later ih =>
      have hrows := htables rows List.mem_cons_self
      rw [walk_cons] at hended hthere ⊢
      rw [List.length_cons, List.take_succ_cons] at hthere
      obtain ⟨r, hr, rfl⟩ := hthere rows List.mem_cons_self
      have hleft : r ∈ remaining place key position rows := mem_remaining.mpr ⟨hr, hafter⟩
      rcases mem_items_or hrows (n := n) hleft with hitem | hlater
      · exact ⟨r, List.mem_append_left _ hitem, rfl⟩
      · cases hnext : (page place key n position rows).nextCursor with
        | none =>
            exact absurd ⟨r, hr, hafter, hlater⟩ ((nextCursor_eq_none_iff hrows hn).mp hnext)
        | some next =>
            rw [hnext] at hended hthere
            obtain ⟨⟨last, hlast, rfl⟩, -⟩ := of_nextCursor hrows hnext
            have hrest : Ended (walk place key n (some (place last)) later) :=
              ended_of_cons hended (by rw [hnext]; exact Option.some_ne_none _)
            obtain ⟨found, hfound, hkey⟩ :=
              ih (some (place last)) (fun t ht => htables t (List.mem_cons_of_mem _ ht)) hrest
                (fun p hp => by
                  obtain rfl := Option.some.inj hp
                  exact hlater last hlast)
                (fun t ht => hthere t (List.mem_cons_of_mem _ ht))
            exact ⟨found, List.mem_append_right _ hfound, hkey⟩

end

end Keyset
