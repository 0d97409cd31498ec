/-
# Pages of a listing (`api/src/services/delivery-history.ts`, `dead-letters.ts`)

The delivery history and the dead letters are read from the newest record to the oldest one.
A page that is not the last one ends with a cursor, and the reader sends it back.

* `Listing`: what the two listings share; `getDeliveryHistory` and `getDeadLetters` are two of
  them.
* `Listing.Lawful.follow_eq`: following the cursors is a walk over the places of the rows.
* `listings_paged`: what a reader gets while the table changes.
-/
import Waybill.Cursors
import Waybill.Keyset
import Mathlib.Data.List.Lex

namespace Api

open Keyset (Page rowsOf Ended)

/-! ## Rows -/

/-- A row of `deliveries`, as `listDeliveryHistory` selects it. -/
structure DeliveryRow where
  id : Uuid
  eventId : JsString
  tenantId : JsString
  targetUrl : JsString
  status : DeliveryStatus
  attemptCount : ℕ
  createdAt : ℤ
  lastAttemptAt : Option ℤ
  nextAttemptAt : Option ℤ
  lastError : Option JsString
  eventType : JsString
  deriving DecidableEq

/-- The replay of a dead letter. -/
structure ReplayRow where
  id : JsString
  eventId : JsString
  createdAt : ℤ
  deriving DecidableEq

/-- A row of `dead_letters`, as `listDeadLetters` selects it. -/
structure DeadLetterRow where
  id : Uuid
  eventId : JsString
  deliveryId : JsString
  tenantId : JsString
  targetUrl : JsString
  lastError : Option JsString
  attemptCount : ℕ
  createdAt : ℤ
  eventType : JsString
  replay : Option ReplayRow
  deriving DecidableEq

/-! ## The order of the rows -/

section

variable {κ : Type} (collate : Uuid → κ)

/-- `orderBy: [{ createdAt: "desc" }, { id: "desc" }]`, by the collation of the database. -/
def order (row : RowCursor) : (ℤ ×ₗ κ)ᵒᵈ := OrderDual.toDual (toLex (row.createdAt, collate row.id))

variable {collate}

/-- Different rows have different places in the order. -/
theorem order_injective (hcollate : Function.Injective collate) :
    Function.Injective (order collate) := by
  intro a b h
  obtain ⟨hcreatedAt, hid⟩ := Prod.mk.inj (toLex.injective (OrderDual.toDual.injective h))
  cases a with
  | mk createdAt id =>
      cases b with
      | mk createdAt' id' =>
          obtain rfl : createdAt = createdAt' := hcreatedAt
          obtain rfl : id = id' := hcollate hid
          rfl

variable [LinearOrder κ] (collate)

/-- The row is listed after the other one: it is older, or as old with a smaller id. -/
def RowCursor.After (row cursor : RowCursor) : Prop :=
  row.createdAt < cursor.createdAt ∨
    (row.createdAt = cursor.createdAt ∧ collate row.id < collate cursor.id)

instance (row cursor : RowCursor) : Decidable (row.After collate cursor) :=
  inferInstanceAs (Decidable (_ ∨ _))

variable {collate}

theorem after_iff {row cursor : RowCursor} :
    row.After collate cursor ↔ order collate cursor < order collate row := by
  rw [order, order, OrderDual.toDual_lt_toDual, Prod.Lex.toLex_lt_toLex]
  rfl

end

/-! ## Listings -/

/-- What a listing is made of: its rows, its queries and its cursors. -/
structure Listing (ρ Q : Type) where
  /-- The columns that order the rows. -/
  place : ρ → RowCursor
  /-- The query of a request, from its tenant and its parameters. -/
  parse : Json → Json → Except JsError Q
  /-- The conditions on the other columns. -/
  selects : Q → ρ → Bool
  limit : Q → Limit
  cursor : Q → Option RowCursor
  /-- `result.cursor = …`. -/
  resume : Q → RowCursor → Q
  print : Q → RowCursor → JsString
  unavailable : JsString

namespace Listing

section

variable {ρ Q κ : Type} [LinearOrder κ] (L : Listing ρ Q) (collate : Uuid → κ)

/-- `findMany`: the selected rows after the cursor, one more than the page holds. -/
def list (q : Q) (rows : List ρ) : List ρ :=
  Ranking.first (L.limit q + 1) (fun r => order collate (L.place r))
    (rows.filter (fun r => L.selects q r &&
      (L.cursor q).all (fun cursor => decide ((L.place r).After collate cursor))))

/-- One request.  It reads the rows that the replica has, unless the replica cannot be read. -/
def get (tenantId query : Json) (replica : Option (List ρ)) : Except JsError (Page ρ JsString) :=
  match L.parse tenantId query with
  | .error error => .error error
  | .ok q =>
      match replica with
      | none => .error { message := L.unavailable }
      | some stored =>
          let rows := L.list collate q stored
          let items := rows.take (L.limit q)
          .ok { items := items
                nextCursor :=
                  if (L.limit q : ℕ) < rows.length then
                    items.getLast?.map (fun last => L.print q (L.place last))
                  else none }

end

end Listing

/-- The request for the next page: the same parameters, and the cursor. -/
def withCursor (query : Json) : Option JsString → Json
  | none => query
  | some text =>
      match query with
      | .obj members => .obj (members ++ [(js "cursor", .str text)])
      | query => query

/-! ## The two listings -/

/-- `listDeliveryHistory` and `getDeliveryHistory`. -/
def deliveryHistory : Listing DeliveryRow DeliveryHistoryQuery where
  place row := ⟨row.createdAt, row.id⟩
  parse := parseDeliveryHistoryQuery
  selects q row :=
    decide (row.tenantId = (q.tenantId : JsString)) &&
      q.status.all (fun status => decide (row.status = status))
  limit q := q.limit
  cursor q := q.cursor
  resume q row := { q with
    cursor := some row }
  print := deliveryHistoryCursor
  unavailable := js "Delivery history is temporarily unavailable"

/-- `listDeadLetters` and `getDeadLetters`. -/
def deadLetters : Listing DeadLetterRow DeadLetterQuery where
  place row := ⟨row.createdAt, row.id⟩
  parse := parseDeadLetterQuery
  selects q row := decide (row.tenantId = (q.tenantId : JsString))
  limit q := q.limit
  cursor q := q.cursor
  resume q row := { q with
    cursor := some row }
  print := deadLetterCursor
  unavailable := js "Dead-letter data is temporarily unavailable"

section

variable {κ : Type} [LinearOrder κ] (collate : Uuid → κ)

/-- `getDeliveryHistory`. -/
def getDeliveryHistory : Json → Json → Option (List DeliveryRow) →
    Except JsError (Page DeliveryRow JsString) := deliveryHistory.get collate

/-- `getDeadLetters`. -/
def getDeadLetters : Json → Json → Option (List DeadLetterRow) →
    Except JsError (Page DeadLetterRow JsString) := deadLetters.get collate

end

/-! ## Following the cursors -/

namespace Listing

section

variable {ρ Q κ : Type} (L : Listing ρ Q)

/-- A state of the table: no two rows have the same id, and their years have four digits. -/
structure Table where
  rows : List ρ
  unique : (rows.map (fun r => (L.place r).id)).Nodup
  dated : ∀ r ∈ rows, (L.place r).FourDigits

variable {L} in
/-- `createdAt` of a row never changes. -/
def Fixed (tables : List L.Table) : Prop :=
  ∀ t ∈ tables, ∀ t' ∈ tables, ∀ r ∈ t.rows, ∀ r' ∈ t'.rows,
    (L.place r).id = (L.place r').id → L.place r = L.place r'

variable {L} {collate : Uuid → κ}

/-- The rows of a table have different places. -/
theorem Table.keyed (hcollate : Function.Injective collate) (t : L.Table) (q : Q) :
    Keyset.Keyed L.place (order collate) (t.rows.filter (L.selects q)) := by
  have hplaces : (t.rows.map L.place).Nodup := by
    apply List.Nodup.of_map RowCursor.id
    rw [List.map_map]
    exact t.unique
  have hkeys : (t.rows.map (fun r => order collate (L.place r))).Nodup := by
    have hmapped := hplaces.map (order_injective hcollate)
    rwa [List.map_map] at hmapped
  exact List.Nodup.sublist (List.Sublist.map _ List.filter_sublist) hkeys

theorem keyed_of_mem (hcollate : Function.Injective collate) (tables : List L.Table) (q : Q) :
    ∀ rows ∈ tables.map (fun t => t.rows.filter (L.selects q)),
      Keyset.Keyed L.place (order collate) rows := by
  intro rows hrows
  obtain ⟨t, -, rfl⟩ := List.mem_map.mp hrows
  exact t.keyed hcollate q

end

section

variable {ρ Q κ : Type} [LinearOrder κ] (L : Listing ρ Q) (collate : Uuid → κ)

/-- A reader that follows the cursors from the first page, while the table changes. -/
def follow (tenantId query : Json) (tables : List L.Table) :
    Except JsError (List (Page ρ JsString)) :=
  Keyset.follow (fun cursor table => L.get collate tenantId (withCursor query cursor)
    (some table.rows)) none tables

/-- **What the cursors of a listing are for**: a request with one is the request without it,
from the place that it names. -/
structure Lawful : Prop where
  parse : ∀ {tenantId query q row}, L.parse tenantId query = .ok q →
    query.get? (js "cursor") = none → row.FourDigits →
    L.parse tenantId (withCursor query (some (L.print q row))) = .ok (L.resume q row)
  first : ∀ {tenantId query q}, L.parse tenantId query = .ok q →
    query.get? (js "cursor") = none → L.cursor q = none
  cursor : ∀ q row, L.cursor (L.resume q row) = some row
  limit : ∀ q row, L.limit (L.resume q row) = L.limit q
  selects : ∀ q row, L.selects (L.resume q row) = L.selects q
  print : ∀ q row, L.print (L.resume q row) = L.print q

/-- The places that a reader goes over. -/
def walk (q : Q) (position : Option RowCursor) (tables : List L.Table) : List (Page ρ RowCursor) :=
  Keyset.walk L.place (order collate) (L.limit q) position
    (tables.map (fun t => t.rows.filter (L.selects q)))

variable {L collate} {tenantId query : Json} {q : Q}

/-- The rows that are read are those of the next page, and one more if there are more. -/
theorem list_eq (L : Listing ρ Q) (collate : Uuid → κ) (q : Q) (rows : List ρ) :
    (L.list collate q rows).take (L.limit q) = (Keyset.page L.place (order collate) (L.limit q)
        (L.cursor q) (rows.filter (L.selects q))).items ∧
      ((L.limit q : ℕ) < (L.list collate q rows).length ↔ (L.limit q : ℕ) <
        (Keyset.remaining L.place (order collate) (L.cursor q)
          (rows.filter (L.selects q))).length) := by
  have hrows : rows.filter (fun r => L.selects q r &&
      (L.cursor q).all (fun cursor => decide ((L.place r).After collate cursor))) =
        Keyset.remaining L.place (order collate) (L.cursor q) (rows.filter (L.selects q)) := by
    rw [Keyset.remaining, List.filter_filter]
    congr 1
    funext r
    rw [Bool.and_comm]
    congr 2
    funext cursor
    rw [decide_eq_decide]
    exact after_iff
  unfold list
  rw [hrows]
  constructor
  · show List.take _ (List.take _ _) = List.take _ _
    rw [List.take_take, min_eq_left (Nat.le_succ _)]
  · show _ < (List.take _ _).length ↔ _
    rw [List.length_take, (Ranking.sorted_perm _ _).length_eq]
    omega

/-- An accepted request is answered by the page after its cursor. -/
theorem get_eq (hparse : L.parse tenantId query = .ok q) (rows : List ρ) :
    L.get collate tenantId query (some rows) = .ok ((Keyset.page L.place (order collate)
      (L.limit q) (L.cursor q) (rows.filter (L.selects q))).map (L.print q)) := by
  obtain ⟨hitems, hmore⟩ := L.list_eq collate q rows
  have hcursor : (if (L.limit q : ℕ) < (L.list collate q rows).length then
      ((L.list collate q rows).take (L.limit q)).getLast?.map (fun last => L.print q (L.place last))
      else none) = (Keyset.page L.place (order collate) (L.limit q) (L.cursor q)
        (rows.filter (L.selects q))).nextCursor.map (L.print q) := by
    show _ = (if _ then _ else none : Option RowCursor).map (L.print q)
    by_cases hlong : (L.limit q : ℕ) < (L.list collate q rows).length
    · rw [if_pos hlong, if_pos (hmore.mp hlong), hitems, Option.map_map]
      rfl
    · rw [if_neg hlong, if_neg (fun h => hlong (hmore.mpr h))]
      rfl
  unfold get
  rw [hparse]
  show Except.ok (Page.mk _ _) = Except.ok (Page.mk _ _)
  rw [hcursor, hitems]

/-- **A request of the reader**, from the first page or from a place. -/
theorem Lawful.get_withCursor (h : L.Lawful) (hparse : L.parse tenantId query = .ok q)
    (hquery : query.get? (js "cursor") = none) {position : Option RowCursor}
    (hposition : ∀ row ∈ position, row.FourDigits) (rows : List ρ) :
    L.get collate tenantId (withCursor query (position.map (L.print q))) (some rows) =
      .ok ((Keyset.page L.place (order collate) (L.limit q) position
        (rows.filter (L.selects q))).map (L.print q)) := by
  cases position with
  | none =>
      rw [Option.map_none, withCursor, get_eq hparse, h.first hparse hquery]
  | some row =>
      rw [Option.map_some, get_eq (h.parse hparse hquery (hposition row rfl)), h.limit, h.cursor,
        h.selects, h.print]

/-- **Following the cursors is a walk** over the places: no request is refused. -/
theorem Lawful.follow_eq (h : L.Lawful) (hcollate : Function.Injective collate)
    (hparse : L.parse tenantId query = .ok q) (hquery : query.get? (js "cursor") = none)
    (tables : List L.Table) : L.follow collate tenantId query tables =
      .ok ((L.walk collate q none tables).map (Page.map (L.print q))) := by
  have hwalk : ∀ (tables : List L.Table) (position : Option RowCursor),
      (∀ row ∈ position, row.FourDigits) →
      Keyset.follow (fun cursor table => L.get collate tenantId (withCursor query cursor)
        (some table.rows)) (position.map (L.print q)) tables =
          .ok ((L.walk collate q position tables).map (Page.map (L.print q))) := by
    intro tables
    induction tables with
    | nil => exact fun _ _ => rfl
    | cons t later ih =>
        intro position hposition
        rw [Keyset.follow, h.get_withCursor hparse hquery hposition, walk, List.map_cons,
          Keyset.walk_cons, List.map_cons]
        cases hnext : (Keyset.page L.place (order collate) (L.limit q) position
          (t.rows.filter (L.selects q))).nextCursor with
        | none =>
            simp only [Page.map, hnext, Option.map_none]
            rfl
        | some next =>
            -- the next page starts at a row of this one
            obtain ⟨⟨last, hlast, rfl⟩, -⟩ := Keyset.of_nextCursor (t.keyed hcollate q) hnext
            have hdated : ∀ row ∈ some (L.place last), row.FourDigits := by
              intro row hrow
              obtain rfl := Option.some.inj hrow
              exact t.dated last (List.mem_filter.mp (Keyset.mem_items hlast).1).1
            have hrest := ih (some (L.place last)) hdated
            rw [Option.map_some] at hrest
            simp only [Page.map, hnext, Option.map_some]
            rw [hrest]
            rfl
  exact hwalk tables none (fun _ hrow => by cases hrow)

/-- **What a reader gets** that follows the cursors while the table changes. -/
structure Paged (collate : Uuid → κ) (q : Q) (tables : List L.Table)
    (pages : List (Page ρ JsString)) : Prop where
  /-- The rows come in strictly decreasing order of `(createdAt, id)`. -/
  decreasing : (rowsOf pages).Pairwise (fun a b => (L.place b).After collate (L.place a))
  /-- No row comes twice. -/
  distinct : ((rowsOf pages).map (fun r => (L.place r).id)).Nodup
  /-- Every row is one of the query, from one of the tables. -/
  selected : ∀ r ∈ rowsOf pages, L.selects q r = true ∧ ∃ t ∈ tables, r ∈ t.rows
  /-- A page has no cursor exactly if its table had no further row of the query. -/
  ends : ∀ (i : ℕ) (page : Page ρ JsString) (t : L.Table), pages[i]? = some page →
    tables[i]? = some t → (page.nextCursor = none ↔ ¬ ∃ r ∈ t.rows, L.selects q r = true ∧
      ∀ s ∈ rowsOf (pages.take (i + 1)), (L.place r).After collate (L.place s))
  /-- If the last page was reached, a row that was there throughout came exactly once. -/
  complete : Ended pages → ∀ place : RowCursor,
    (∀ t ∈ tables.take pages.length, ∃ r ∈ t.rows, L.selects q r = true ∧ L.place r = place) →
      ((rowsOf pages).filter (fun r => decide (L.place r = place))).length = 1

theorem Lawful.paged (h : L.Lawful) (hcollate : Function.Injective collate)
    (hparse : L.parse tenantId query = .ok q) (hquery : query.get? (js "cursor") = none)
    {tables : List L.Table} (hfixed : Fixed tables) :
    ∃ pages, L.follow collate tenantId query tables = .ok pages ∧
      L.Paged collate q tables pages := by
  refine ⟨_, h.follow_eq hcollate hparse hquery tables, ?_⟩
  have hkeyed := keyed_of_mem hcollate tables q
  have hrows := Keyset.rowsOf_map (L.print q) (L.walk collate q none tables)
  have hpairwise := Keyset.pairwise_walk (L.limit q) none hkeyed
  have hmem : ∀ r ∈ rowsOf (L.walk collate q none tables),
      L.selects q r = true ∧ ∃ t ∈ tables, r ∈ t.rows := by
    intro r hr
    obtain ⟨⟨rows, hmem, hr⟩, -⟩ := Keyset.mem_walk hkeyed hr
    obtain ⟨t, ht, rfl⟩ := List.mem_map.mp hmem
    obtain ⟨hr, hselected⟩ := List.mem_filter.mp hr
    exact ⟨hselected, t, ht, hr⟩
  have hplaces : ((rowsOf (L.walk collate q none tables)).map L.place).Nodup := by
    rw [List.nodup_iff_pairwise_ne, List.pairwise_map]
    refine hpairwise.imp fun hlt heq => ?_
    rw [heq] at hlt
    exact lt_irrefl _ hlt
  -- order, no repetition, selection, the ends of the pages, completeness
  constructor
  · rw [hrows]
    exact hpairwise.imp fun hlt => after_iff.mpr hlt
  · rw [hrows, List.nodup_iff_pairwise_ne, List.pairwise_map]
    refine (List.pairwise_map.mp (List.nodup_iff_pairwise_ne.mp hplaces)).imp_of_mem
      fun {a b} ha hb hne hid => ?_
    obtain ⟨-, t, ht, hat⟩ := hmem a ha
    obtain ⟨-, t', ht', hbt⟩ := hmem b hb
    exact hne (hfixed t ht t' ht' a hat b hbt hid)
  · rw [hrows]
    exact hmem
  · intro i page t hpage ht
    rw [List.getElem?_map, Option.map_eq_some_iff] at hpage
    obtain ⟨page, hpage, rfl⟩ := hpage
    have hlast := Keyset.nextCursor_of_walk (L.limit q) none hkeyed
      (L.limit q).2.1 hpage (by rw [List.getElem?_map, ht, Option.map_some])
    rw [← List.map_take, Keyset.rowsOf_map]
    show page.nextCursor.map (L.print q) = none ↔ _
    rw [Option.map_eq_none_iff, hlast]
    apply not_congr
    constructor
    · rintro ⟨r, hr, -, hafter⟩
      obtain ⟨hr, hselected⟩ := List.mem_filter.mp hr
      exact ⟨r, hr, hselected, fun s hs => after_iff.mpr (hafter s hs)⟩
    · rintro ⟨r, hr, hselected, hafter⟩
      exact ⟨r, List.mem_filter.mpr ⟨hr, hselected⟩, (fun _ hp => by cases hp),
        fun s hs => after_iff.mp (hafter s hs)⟩
  -- a place that every table had is passed by some page
  · intro hended place hthere
    rw [hrows]
    obtain ⟨r, hr, hkey⟩ := Keyset.exists_mem_walk (L.limit q) none
      (k := order collate place) hkeyed (L.limit q).2.1 (Keyset.ended_map _ hended)
      (fun _ hp => by cases hp) (by
        intro rows hrows
        rw [← List.map_take] at hrows
        obtain ⟨t, ht, rfl⟩ := List.mem_map.mp hrows
        have hlength : (List.map (Page.map (L.print q)) (L.walk collate q none tables)).length =
          (L.walk collate q none tables).length := List.length_map _
        obtain ⟨r, hr, hselected, hplace⟩ := hthere t (by rw [hlength]; exact ht)
        exact ⟨r, List.mem_filter.mpr ⟨hr, hselected⟩, by rw [hplace]⟩)
    have hplace : L.place r = place := order_injective hcollate hkey
    have hcount := List.count_eq_one_of_mem hplaces (List.mem_map_of_mem hr)
    rw [hplace, List.count, List.countP_map, List.countP_eq_length_filter] at hcount
    rw [← hcount]
    rfl

end

end Listing

/-! ## The cursors of the two listings -/

/-- An accepted query has its members in an object. -/
theorem exists_members {names : List JsString} {query : Json} (h : hasOnly names query = true) :
    ∃ members, query = .obj members := by
  cases query with
  | obj members => exact ⟨members, rfl⟩
  | _ => cases h

theorem withCursor_spec {members : List (JsString × Json)}
    (h : (Json.obj members).get? (js "cursor") = none) (text : JsString) :
    (withCursor (.obj members) (some text)).get? (js "cursor") = some (.str text) ∧
      (withCursor (.obj members) (some text)).without (js "cursor") = .obj members := by
  have hnone : ∀ m ∈ members, m.1 ≠ js "cursor" := by
    intro m hm heq
    rw [Json.get?, Option.map_eq_none_iff, List.find?_eq_none] at h
    exact h m (List.mem_reverse.mpr hm) (by rw [heq, beq_self_eq_true])
  constructor
  · rw [withCursor, Json.get?, List.reverse_append, List.reverse_singleton, List.singleton_append,
      List.find?_cons_of_pos (by rw [beq_self_eq_true])]
    rfl
  · have hkeep : members.filter (fun m => m.1 != js "cursor") = members :=
      List.filter_eq_self.mpr fun m hm => bne_iff_ne.mpr (hnone m hm)
    rw [withCursor, Json.without, List.filter_append, hkeep, List.filter_cons_of_neg (by simp),
      List.filter_nil, List.append_nil]

/-- An accepted query without a cursor. -/
theorem historyInput_of_parse {tenantId query : Json} {q : DeliveryHistoryQuery}
    (h : parseDeliveryHistoryQuery tenantId query = .ok q)
    (hquery : query.get? (js "cursor") = none) :
    q.cursor = none ∧ ∃ members, query = .obj members := by
  unfold parseDeliveryHistoryQuery at h
  cases hinput : historyInput tenantId query with
  | none =>
      rw [hinput] at h
      cases h
  | some p =>
      have hp := hinput
      unfold historyInput at hp
      rw [hquery] at hp
      obtain ⟨honly, hp⟩ := Option.ite_none_right_eq_some.mp hp
      simp only [optional, Option.bind_eq_bind, Option.bind_eq_some_iff] at hp
      obtain ⟨tenant, -, status, -, limit, -, encoded, hencoded, hp⟩ := hp
      obtain rfl := Option.some.inj hencoded
      obtain rfl := Option.some.inj hp
      rw [hinput] at h
      obtain rfl := Except.ok.inj h
      exact ⟨rfl, exists_members honly⟩

theorem deadLetterInput_of_parse {tenantId query : Json} {d : DeadLetterQuery}
    (h : parseDeadLetterQuery tenantId query = .ok d)
    (hquery : query.get? (js "cursor") = none) :
    d.cursor = none ∧ ∃ members, query = .obj members := by
  unfold parseDeadLetterQuery at h
  cases hinput : deadLetterInput tenantId query with
  | none =>
      rw [hinput] at h
      cases h
  | some p =>
      have hp := hinput
      unfold deadLetterInput at hp
      rw [hquery] at hp
      obtain ⟨honly, hp⟩ := Option.ite_none_right_eq_some.mp hp
      simp only [optional, Option.bind_eq_bind, Option.bind_eq_some_iff] at hp
      obtain ⟨tenant, -, limit, -, encoded, hencoded, hp⟩ := hp
      obtain rfl := Option.some.inj hencoded
      obtain rfl := Option.some.inj hp
      rw [hinput] at h
      obtain rfl := Except.ok.inj h
      exact ⟨rfl, exists_members honly⟩

theorem deliveryHistory_lawful : deliveryHistory.Lawful where
  parse := by
    intro tenantId query q row hparse hquery hrow
    obtain ⟨-, members, rfl⟩ := historyInput_of_parse hparse hquery
    obtain ⟨hcursor, hwithout⟩ := withCursor_spec hquery (deliveryHistoryCursor q row)
    have htext := historyCursorJson_text q hrow
    apply (parseDeliveryHistoryQuery_cursor hcursor (encodeText_fits htext) _).mpr
    refine ⟨q, row, ?_, ?_, rfl⟩
    · rw [hwithout]
      exact hparse
    · rw [deliveryHistoryCursor, decodeText_encodeText _ htext.1, Option.bind_some,
        historyCursor?_json q hrow]
  first := fun hparse hquery => (historyInput_of_parse hparse hquery).1
  cursor _ _ := rfl
  limit _ _ := rfl
  selects _ _ := rfl
  print _ _ := rfl

theorem deadLetters_lawful : deadLetters.Lawful where
  parse := by
    intro tenantId query d row hparse hquery hrow
    obtain ⟨-, members, rfl⟩ := deadLetterInput_of_parse hparse hquery
    obtain ⟨hcursor, hwithout⟩ := withCursor_spec hquery (deadLetterCursor d row)
    have htext := deadLetterCursorJson_text d hrow
    apply (parseDeadLetterQuery_cursor hcursor (encodeText_fits htext) _).mpr
    refine ⟨d, row, ?_, ?_, rfl⟩
    · rw [hwithout]
      exact hparse
    · rw [deadLetterCursor, decodeText_encodeText _ htext.1, Option.bind_some,
        deadLetterCursor?_json d hrow]
  first := fun hparse hquery => (deadLetterInput_of_parse hparse hquery).1
  cursor _ _ := rfl
  limit _ _ := rfl
  selects _ _ := rfl
  print _ _ := rfl

/-! ## The result -/

/-- **Both listings are complete and without duplicates**, whatever happens to the table between
the requests: no request is refused, the rows come in strictly decreasing order, each once, a page
has no cursor exactly if no row of the query is left, and a row that was there throughout is
among those that a reader got who reached the last page. -/
theorem listings_paged {κ : Type} [LinearOrder κ] {collate : Uuid → κ}
    (hcollate : Function.Injective collate) :
    (∀ {tenantId query q}, parseDeliveryHistoryQuery tenantId query = .ok q →
      query.get? (js "cursor") = none → ∀ tables : List deliveryHistory.Table,
      Listing.Fixed tables → ∃ pages,
        Keyset.follow (fun cursor table => getDeliveryHistory collate tenantId
          (withCursor query cursor) (some table.rows)) none tables = .ok pages ∧
        deliveryHistory.Paged collate q tables pages) ∧
    (∀ {tenantId query d}, parseDeadLetterQuery tenantId query = .ok d →
      query.get? (js "cursor") = none → ∀ tables : List deadLetters.Table,
      Listing.Fixed tables → ∃ pages,
        Keyset.follow (fun cursor table => getDeadLetters collate tenantId
          (withCursor query cursor) (some table.rows)) none tables = .ok pages ∧
        deadLetters.Paged collate d tables pages) := by
  constructor
  · intro tenantId query q hparse hquery tables hfixed
    exact deliveryHistory_lawful.paged hcollate hparse hquery hfixed
  · intro tenantId query d hparse hquery tables hfixed
    exact deadLetters_lawful.paged hcollate hparse hquery hfixed

namespace Sample

/-- The order of the texts unit by unit. -/
def collateC (id : Uuid) : List ℕ := (id : JsString).map UInt16.toNat

theorem collateC_injective : Function.Injective collateC := by
  intro a b h
  exact Subtype.ext (List.map_injective_iff.mpr (fun _ _ => UInt16.toNat_inj.mp) h)

/-- A delivery of the tenant. -/
def deliveryOf (place : RowCursor) (status : DeliveryStatus) : DeliveryRow where
  id := place.id
  eventId := js "0d9b5f5e-3c31-4a08-b1f5-27c8a6d90e14"
  tenantId := viewer
  targetUrl := js "https://receiver.example/hook"
  status := status
  attemptCount := 1
  createdAt := place.createdAt
  lastAttemptAt := none
  nextAttemptAt := none
  lastError := none
  eventType := js "order.paid"

/-- A delivery that was created in the same millisecond as `lastRow`. -/
def tiedRow : RowCursor where
  createdAt := 1792886400000
  id := ⟨js "0b7d1c52-9f6e-4c0a-8d13-5e2f7a9b6c84", by decide +kernel⟩

/-- Two deliveries. -/
def before : deliveryHistory.Table where
  rows := [deliveryOf tiedRow .succeeded, deliveryOf lastRow .failed]
  unique := by decide +kernel
  dated := by
    unfold RowCursor.FourDigits
    decide +kernel

/-- One of them was deleted, the other one is tried again. -/
def later : deliveryHistory.Table where
  rows := [deliveryOf tiedRow .pending]
  unique := by decide +kernel
  dated := by
    unfold RowCursor.FourDigits
    decide +kernel

theorem fixed : Listing.Fixed [before, later] := by
  unfold Listing.Fixed
  decide +kernel

/-- Pages of one delivery. -/
def smallPages : Json := .obj [(js "limit", .str (js "1"))]

end Sample

/-- A traversal of the history of a tenant, over two states of the table. -/
theorem listings_paged_tied : ∃ q pages,
    parseDeliveryHistoryQuery (.str Sample.viewer) Sample.smallPages = .ok q ∧
      Keyset.follow (fun cursor table => getDeliveryHistory Sample.collateC (.str Sample.viewer)
        (withCursor Sample.smallPages cursor) (some table.rows)) none
          [Sample.before, Sample.later] = .ok pages ∧
      deliveryHistory.Paged Sample.collateC q [Sample.before, Sample.later] pages := by
  obtain ⟨pages, hfollow, hpaged⟩ := (listings_paged Sample.collateC_injective).1
    (show parseDeliveryHistoryQuery (.str Sample.viewer) Sample.smallPages =
      .ok { tenantId := Sample.viewer, status := none, limit := ⟨1, by decide⟩, cursor := none }
      from rfl) (by decide +kernel) [Sample.before, Sample.later] Sample.fixed
  exact ⟨_, pages, rfl, hfollow, hpaged⟩

end Api
