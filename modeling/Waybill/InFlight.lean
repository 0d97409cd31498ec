/-
# One delivery row for an event and a destination

Any number of concurrent calls of `upsertInFlight`, with any operation failing and any call cut
short.  A call looks for a row of its event and destination, and then updates the row it found or
creates one; the schema has no unique index on the two.

* `attempts_eq_commits`: the attempts on all rows of an event and a destination are the calls
  that were committed for them.
* `one_row_undisturbed`: there is one such row if no other call creates one between the look and
  the creation of a call; that a call creates a row only when it has found none is then enough.
* `two_rows`: two calls that both look before either of them creates its row create two.
-/
import Waybill.Calls

open Worker

/-! ## Sums over rows -/

/-- Changing what one row contributes changes the sum by as much. -/
theorem sum_map_of_key {α κ : Type} {key : α → κ} {f g : α → ℕ} {n : ℕ} {d : α} :
    ∀ {rows : List α}, (rows.map key).Nodup → d ∈ rows → g d = f d + n →
      (∀ x ∈ rows, key x ≠ key d → g x = f x) → (rows.map g).sum = (rows.map f).sum + n
  | x :: rows, hnodup, hd, hself, hothers => by
      rw [List.map_cons, List.nodup_cons] at hnodup
      rw [List.map_cons, List.map_cons, List.sum_cons, List.sum_cons]
      rcases List.mem_cons.mp hd with rfl | hd
      · -- the rows after it have other keys
        have hrest : rows.map g = rows.map f := by
          refine List.map_congr_left fun y hy => ?_
          refine hothers y (List.mem_cons_of_mem _ hy) fun hkey => ?_
          exact hnodup.1 (hkey ▸ List.mem_map_of_mem hy)
        rw [hrest, hself]
        omega
      · have hx : g x = f x := by
          refine hothers x List.mem_cons_self fun hkey => ?_
          exact hnodup.1 (hkey ▸ List.mem_map_of_mem hd)
        have hrows := sum_map_of_key hnodup.2 hd hself
          fun y hy => hothers y (List.mem_cons_of_mem _ hy)
        rw [hx, hrows]
        omega

/-! ## Calls -/

/-- The arguments of `upsertInFlight`. -/
structure UpsertCall where
  eventId : JsString
  tenantId : JsString
  targetUrl : JsString

/-- Calls of `upsertInFlight`. -/
def upsertCalls : Machine Services History Choice UpsertCall Delivery ℚ :=
  callsOf fun j => upsertInFlight j.eventId j.tenantId j.targetUrl

/-- The operation that looks for a row. -/
def Op.looksForDelivery : Op → Bool
  | .findDelivery _ _ => true
  | _ => false

/-- The operation that creates a row. -/
def Op.createsDelivery : Op → Bool
  | .createDelivery _ => true
  | _ => false

/-- The operation that creates or updates a row. -/
def Op.writesDelivery : Op → Bool
  | .createDelivery _ => true
  | .updateDelivery _ _ => true
  | _ => false

/-- A call was committed for an event and a destination; it writes one row, once. -/
def Deed.commits (eventId targetUrl : JsString) (x : Deed) : Bool :=
  x.op.writesDelivery && x.took && x.op.deliveryOf x.before == some (eventId, targetUrl)

/-- The calls that were committed for an event and a destination. -/
def commitCount (eventId targetUrl : JsString) (deeds : List Deed) : ℕ :=
  deeds.countP (Deed.commits eventId targetUrl)

/-- Before the first call: no rows. -/
structure UpsertsBegin (s : Calls UpsertCall Delivery) : Prop extends s.Start where
  deliveries : s.world.world.deliveries = []

/-- **One row**: the event and destination have at most one delivery row, and its attempts are
the calls that were committed. -/
def OneRow (s : Calls UpsertCall Delivery) (eventId targetUrl : JsString) : Prop :=
  (s.world.world.rowsFor eventId targetUrl).length ≤ 1 ∧
    ∀ row ∈ s.world.world.rowsFor eventId targetUrl,
      row.attemptCount = commitCount eventId targetUrl s.world.deeds

/-- A call created a row for an event and a destination. -/
def Deed.creates (eventId targetUrl : JsString) (x : Deed) : Bool :=
  x.op.createsDelivery && x.commits eventId targetUrl

/-- The operations of all calls since a call has looked for its row, the last one first. -/
def sinceLook (pid : ℕ) : List Deed → List Deed
  | [] => []
  | x :: deeds =>
      if x.pid == pid && x.op.looksForDelivery then [] else x :: sinceLook pid deeds

/-- Since a call has looked for its row, no other call has created one for the event and the
destination. -/
def NoneCreated (pid : ℕ) (eventId targetUrl : JsString) (deeds : List Deed) : Prop :=
  ∀ x ∈ sinceLook pid deeds, x.pid ≠ pid → x.creates eventId targetUrl = false

/-- No call creates a row for an event and a destination between the look of another call and
the creation of its row for them. -/
def Undivided (s : Calls UpsertCall Delivery) : PoolAction Choice UpsertCall ℚ → Prop
  | .step pid _ => ∀ j data k, s.tasks pid = some ⟨j, .call (.createDelivery data) k⟩ →
      NoneCreated pid data.eventId data.targetUrl s.world.deeds
  | _ => True

/-! ## The operations of a call -/

/-- What a call may do: it looks, asks for the time, and writes a row that is in flight. -/
inductive UpsertOp : Op → Prop
  | find (eventId targetUrl : JsString) : UpsertOp (.findDelivery eventId targetUrl)
  | time : UpsertOp .now
  | update (id : JsString) (t : ℚ) : UpsertOp (.updateDelivery id (inFlightData t))
  | create (eventId tenantId targetUrl : JsString) (t : ℚ) :
      UpsertOp (.createDelivery (inFlightDelivery eventId tenantId targetUrl t))

/-- Where a call stands. -/
inductive UpsertPhase where
  | start (j : UpsertCall)
  | looked (j : UpsertCall) (found : Option Delivery)
  | over

/-- The operations of a call in order: the row it has found is updated, and one is created only
if it has found none. -/
inductive UpsertAllows : UpsertPhase → Op → Prop
  | find {j : UpsertCall} : UpsertAllows (.start j) (.findDelivery j.eventId j.targetUrl)
  | time {j : UpsertCall} {found : Option Delivery} : UpsertAllows (.looked j found) .now
  | update {j : UpsertCall} {d : Delivery} {t : ℚ} :
      UpsertAllows (.looked j (some d)) (.updateDelivery d.id (inFlightData t))
  | create {j : UpsertCall} {t : ℚ} : UpsertAllows (.looked j none)
      (.createDelivery (inFlightDelivery j.eventId j.tenantId j.targetUrl t))

/-- Where an answer leads. -/
def UpsertPhase.next : UpsertPhase → (op : Op) → Except JsError op.Res → UpsertPhase
  | .start j, .findDelivery .., .ok found => .looked j found
  | .looked j found, .now, .ok _ => .looked j found
  | _, _, _ => .over

/-- The operations of `upsertInFlight`. -/
def upserting : Protocol Services where
  Phase := UpsertPhase
  Allows := UpsertAllows
  next := UpsertPhase.next

theorem UpsertAllows.op {φ : UpsertPhase} {op : Op} (h : UpsertAllows φ op) : UpsertOp op := by
  cases h with
  | find => exact .find _ _
  | time => exact .time
  | update => exact .update _ _
  | create => exact .create _ _ _ _

/-- `upsertInFlight` keeps to them. -/
theorem follows_upserting (j : UpsertCall) :
    upserting.Follows (upsertInFlight j.eventId j.tenantId j.targetUrl) (.start j)
      (fun _ _ => True) := by
  unfold upsertInFlight
  refine @Protocol.Follows.step Services upserting _ (.findDelivery j.eventId j.targetUrl) _ _
    (UpsertPhase.looked j) _ .find (fun _ => rfl) (fun _ => trivial) fun found => ?_
  refine @Protocol.Follows.step Services upserting _ .now _ _
    (fun _ => UpsertPhase.looked j found) _ .time (fun _ => rfl) (fun _ => trivial) fun t => ?_
  cases found with
  | none =>
      exact @Protocol.Follows.last Services upserting (.createDelivery _) _
        (fun _ => UpsertPhase.over) _ .create (fun _ => rfl) (fun _ => trivial) fun _ => trivial
  | some row =>
      exact @Protocol.Follows.last Services upserting (.updateDelivery _ _) _
        (fun _ => UpsertPhase.over) _ .update (fun _ => rfl) (fun _ => trivial) fun _ => trivial

/-! ## What the rows count -/

/-- The attempts on a row, if it is one of the event and the destination. -/
def attemptsOn (eventId targetUrl : JsString) (d : Delivery) : ℕ :=
  if d.eventId = eventId ∧ d.targetUrl = targetUrl then d.attemptCount else 0

/-- The attempts on the rows of an event and a destination. -/
def attemptsFor (w : World) (eventId targetUrl : JsString) : ℕ :=
  (w.deliveries.map (attemptsOn eventId targetUrl)).sum

/-- Rows have identifiers of their own, and their attempts are the calls committed. -/
structure UpsertInv (h : History) : Prop where
  distinct : (h.world.deliveries.map Delivery.id).Nodup
  counted : ∀ eventId targetUrl,
    attemptsFor h.world eventId targetUrl = commitCount eventId targetUrl h.deeds

section

variable {w w' : World} {h h' : History} {op : Op} {c : Choice} {r : Except JsError op.Res}
  {pid : ℕ} {eventId targetUrl : JsString}

/-- A new row adds its attempts to those of its event and destination. -/
theorem attempts_create (data : NewDelivery) (id : JsString)
    (hw : w'.deliveries = w.newDelivery data id :: w.deliveries) :
    attemptsFor w' eventId targetUrl = attemptsFor w eventId targetUrl +
      if data.eventId = eventId ∧ data.targetUrl = targetUrl then data.attemptCount else 0 := by
  unfold attemptsFor
  rw [hw, List.map_cons, List.sum_cons, Nat.add_comm]
  rfl

/-- An update adds one attempt to those of the row's event and destination. -/
theorem attempts_update {d : Delivery} {t : ℚ} (hd : d ∈ w.deliveries)
    (hnodup : (w.deliveries.map Delivery.id).Nodup)
    (hw : w'.deliveries =
      w.deliveries.map (fun x => if x.id = d.id then (inFlightData t).apply x else x)) :
    attemptsFor w' eventId targetUrl = attemptsFor w eventId targetUrl +
      if d.eventId = eventId ∧ d.targetUrl = targetUrl then 1 else 0 := by
  unfold attemptsFor
  rw [hw, List.map_map]
  refine sum_map_of_key hnodup hd ?_ ?_
  · rw [Function.comp_apply, if_pos rfl]
    show (if d.eventId = eventId ∧ d.targetUrl = targetUrl then d.attemptCount + 1 else 0) =
      (if d.eventId = eventId ∧ d.targetUrl = targetUrl then d.attemptCount else 0) + _
    split_ifs <;> rfl
  · intro x _ hne
    rw [Function.comp_apply, if_neg hne]

end

/-! ## One operation -/

section

variable {w w' : World} {h h' : History} {op : Op} {c : Choice} {r : Except JsError op.Res}
  {pid : ℕ} {eventId targetUrl : JsString}

/-- A deed that was not committed for an event and a destination is not counted. -/
theorem commitCount_cons (x : Deed) (deeds : List Deed) :
    commitCount eventId targetUrl (x :: deeds) = commitCount eventId targetUrl deeds +
      if x.commits eventId targetUrl = true then 1 else 0 := by
  unfold commitCount
  by_cases hx : x.commits eventId targetUrl = true
  · rw [List.countP_cons_of_pos hx, if_pos hx]
  · rw [List.countP_cons_of_neg hx, if_neg hx, Nat.add_zero]

/-- An operation that commits nothing and leaves the rows alone. -/
theorem UpsertInv.of_same (hinv : UpsertInv h) {x : Deed}
    (hrows : h'.world.deliveries = h.world.deliveries) (hdeeds : h'.deeds = x :: h.deeds)
    (hx : ∀ eventId targetUrl, x.commits eventId targetUrl = false) : UpsertInv h' := by
  constructor
  · rw [hrows]
    exact hinv.distinct
  · intro eventId targetUrl
    rw [hdeeds, commitCount_cons, hx, if_neg Bool.false_ne_true, Nat.add_zero,
      ← hinv.counted eventId targetUrl]
    unfold attemptsFor
    rw [hrows]

/-- `update` adds an attempt to its row and is committed for it, or does neither. -/
theorem update_step {id : JsString} {t : ℚ} {r : Except JsError Delivery} (hinv : UpsertInv h)
    (hexec : chronicle.exec pid (.updateDelivery id (inFlightData t)) c h = some (r, h')) :
    UpsertInv h' := by
  obtain ⟨hworld, hdeeds⟩ := chronicle_exec hexec
  have heffect := World.exec_effect hworld
  by_cases hfault : c.fault = .before
  · refine hinv.of_same ?_ hdeeds fun _ _ => ?_
    · rw [heffect, hfault]
      rfl
    · simp [Deed.commits, Deed.took, hfault, Op.isLocal]
  · have hw : h'.world = (h.world.updateDelivery id (inFlightData t)).2 := by
      rw [heffect, if_pos (by simp [hfault])]
      rfl
    -- the row is gone, or it is updated
    cases hfind : h.world.deliveryById id with
    | none =>
        refine hinv.of_same ?_ hdeeds fun _ _ => ?_
        · rw [hw, World.updateDelivery, hfind]
        · simp [Deed.commits, Op.deliveryOf, hfind]
    | some d =>
        have hd : d ∈ h.world.deliveries := List.mem_of_find?_eq_some hfind
        have hid : d.id = id := by simpa using List.find?_some hfind
        subst hid
        have hrows : h'.world.deliveries = h.world.deliveries.map
            (fun x => if x.id = d.id then (inFlightData t).apply x else x) := by
          rw [hw, World.updateDelivery, hfind]
        have hcommits : ∀ eventId targetUrl, Deed.commits eventId targetUrl
            ⟨pid, .updateDelivery d.id (inFlightData t), c, h.world⟩ = true ↔
              d.eventId = eventId ∧ d.targetUrl = targetUrl := by
          intro eventId targetUrl
          simp [Deed.commits, Deed.took, Op.writesDelivery, Op.deliveryOf, hfind, hfault,
            World.apply, World.updateDelivery, Except.isOk, Except.toBool]
        constructor
        · rw [hrows, List.map_map]
          refine (List.map_congr_left fun x _ => ?_).symm ▸ hinv.distinct
          rw [Function.comp_apply]
          split_ifs <;> rfl
        · intro eventId targetUrl
          rw [attempts_update hd hinv.distinct hrows, hdeeds, commitCount_cons,
            hinv.counted eventId targetUrl]
          simp only [hcommits]

/-- `create` inserts a row and is committed for it, or does neither. -/
theorem create_cases {data : NewDelivery} {r : Except JsError Delivery}
    (hexec : chronicle.exec pid (.createDelivery data) c h = some (r, h')) :
    (h'.world.deliveries = h.world.deliveries ∧ ∀ eventId targetUrl,
      Deed.commits eventId targetUrl ⟨pid, .createDelivery data, c, h.world⟩ = false) ∨
    (h'.world.deliveries = h.world.newDelivery data c.id :: h.world.deliveries ∧
      (∀ d ∈ h.world.deliveries, d.id ≠ c.id) ∧ ∀ eventId targetUrl,
        Deed.commits eventId targetUrl ⟨pid, .createDelivery data, c, h.world⟩ = true ↔
          data.eventId = eventId ∧ data.targetUrl = targetUrl) := by
  obtain ⟨hworld, -⟩ := chronicle_exec hexec
  have heffect := World.exec_effect hworld
  by_cases hfault : c.fault = .before
  · refine .inl ⟨?_, fun _ _ => ?_⟩
    · rw [heffect, hfault]
      rfl
    · simp [Deed.commits, Deed.took, hfault, Op.isLocal]
  · have hw : h'.world = (h.world.createDelivery data c.id).2 := by
      rw [heffect, if_pos (by simp [hfault])]
      rfl
    by_cases hkeys : (h.world.events.any (fun e => e.id == data.eventId) &&
        h.world.tenants.any (fun t => t.id == data.tenantId)) = true
    · refine .inr ⟨?_, ?_, fun eventId targetUrl => ?_⟩
      · rw [hw, World.createDelivery, if_pos hkeys]
        rfl
      · simpa [World.possible] using World.possible_of_exec hworld
      · simp [Deed.commits, Deed.took, Op.writesDelivery, Op.deliveryOf, hfault,
          World.apply, World.createDelivery, hkeys, Except.isOk, Except.toBool]
    · refine .inl ⟨?_, fun _ _ => ?_⟩
      · rw [hw, World.createDelivery, if_neg hkeys]
      · simp [Deed.commits, Deed.took, World.apply, World.createDelivery, hkeys, Except.isOk,
          Except.toBool]

/-- A row that `create` inserts has one attempt. -/
theorem create_step {data : NewDelivery} {r : Except JsError Delivery} (hinv : UpsertInv h)
    (hone : data.attemptCount = 1)
    (hexec : chronicle.exec pid (.createDelivery data) c h = some (r, h')) : UpsertInv h' := by
  obtain ⟨-, hdeeds⟩ := chronicle_exec hexec
  rcases create_cases hexec with ⟨hrows, hcommits⟩ | ⟨hrows, hfresh, hcommits⟩
  · exact hinv.of_same hrows hdeeds hcommits
  · constructor
    · rw [hrows, List.map_cons, List.nodup_cons]
      refine ⟨?_, hinv.distinct⟩
      rintro hmem
      obtain ⟨d, hd, hid⟩ := List.mem_map.mp hmem
      exact hfresh d hd hid
    · intro eventId targetUrl
      rw [attempts_create _ _ hrows, hdeeds, commitCount_cons, hinv.counted eventId targetUrl]
      simp only [hcommits, hone]

/-- **One operation of a call**: a committed call adds one attempt to the rows of its event and
destination, and nothing else changes them. -/
theorem upsert_step (hinv : UpsertInv h) (hop : UpsertOp op)
    (hexec : chronicle.exec pid op c h = some (r, h')) : UpsertInv h' := by
  obtain ⟨hworld, hdeeds⟩ := chronicle_exec hexec
  cases hop with
  | find eventId targetUrl =>
      exact hinv.of_same (by rw [(World.exec_findDelivery hworld).1]) hdeeds fun _ _ => rfl
  | time =>
      exact hinv.of_same (World.deliveries_of_exec hworld (by simp) (by simp)) hdeeds fun _ _ => rfl
  | update id t => exact update_step hinv hexec
  | create eventId tenantId targetUrl t => exact create_step hinv rfl hexec

end

/-- Any calls: the rows count the calls committed. -/
def upsertContract : Contract upsertCalls upserting where
  Inv := UpsertInv
  first j _ := .start j
  Facts _ _ _ _ := True
  End _ _ _ := True
  Apart _ _ := True
  Ok _ _ _ _ _ := True
  Fresh _ _ := True
  follows hb := by
    obtain rfl := Option.some.inj hb
    exact follows_upserting _
  begins _ _ _ := trivial
  surroundings hinv hs := by
    obtain rfl := History.passTime_eq_some hs
    exact ⟨⟨hinv.distinct, hinv.counted⟩, fun _ h => h, fun _ _ _ h => h⟩
  call hinv _ hallow _ hexec := ⟨upsert_step hinv hallow.op hexec, trivial⟩
  frame _ _ _ _ _ _ _ h := h
  goes_on _ _ ha := by
    obtain ⟨rfl, rfl⟩ := Prod.mk.inj (Option.some.inj ha)
    exact trivial
  after _ h _ := h
  apart_after _ h := h
  apart_symm h := h
  fresh_succ h := h
  fresh_call _ h _ := h

theorem good_of_upserts {ok : Calls UpsertCall Delivery → PoolAction Choice UpsertCall ℚ → Prop}
    {s : Calls UpsertCall Delivery} (h : Run UpsertsBegin upsertCalls.step ok s) :
    upsertContract.Good s := by
  refine upsertContract.invariant ?_ ?_ h
  · intro s hs
    refine .of_empty ⟨?_, ?_⟩ trivial hs.tasks
    · rw [hs.deliveries]
      exact List.nodup_nil
    · intro eventId targetUrl
      unfold attemptsFor
      rw [hs.deliveries, hs.deeds]
      rfl
  · intro s a _ _
    cases a with
    | spawn j => exact fun _ _ _ => trivial
    | step pid c => exact fun _ _ _ _ => trivial
    | _ => exact trivial

/-- The attempts of an event and a destination are those on its rows. -/
theorem attempts_eq_sum (w : World) (eventId targetUrl : JsString) :
    attemptsFor w eventId targetUrl =
      ((w.rowsFor eventId targetUrl).map Delivery.attemptCount).sum := by
  unfold attemptsFor World.rowsFor
  induction w.deliveries with
  | nil => rfl
  | cons d rows ih =>
      rw [List.map_cons, List.sum_cons, ih, List.filter_cons, attemptsOn]
      by_cases hd : d.eventId = eventId ∧ d.targetUrl = targetUrl
      · rw [if_pos hd, if_pos (by simpa using hd)]
        rfl
      · rw [if_neg hd, if_neg (by simpa using hd), Nat.zero_add]

/-- **Every committed call is counted** on some row, in every run. -/
theorem attempts_eq_commits {ok : Calls UpsertCall Delivery → PoolAction Choice UpsertCall ℚ → Prop}
    {s : Calls UpsertCall Delivery} (h : Run UpsertsBegin upsertCalls.step ok s)
    (eventId targetUrl : JsString) :
    attemptsFor s.world.world eventId targetUrl = commitCount eventId targetUrl s.world.deeds :=
  (good_of_upserts h).inv.counted eventId targetUrl

/-! ## One row -/

/-- There is at most one row for every event and destination. -/
def SingleRows (w : World) : Prop :=
  ∀ eventId targetUrl, (w.rowsFor eventId targetUrl).length ≤ 1

section

variable {w w' : World} {h h' : History} {op : Op} {c : Choice} {r : Except JsError op.Res}
  {pid : ℕ} {eventId targetUrl : JsString}

/-- An update leaves the rows with their events and destinations. -/
theorem SingleRows.update (hsingle : SingleRows w) {f : Delivery → Delivery}
    (hkey : ∀ d, (f d).eventId = d.eventId ∧ (f d).targetUrl = d.targetUrl)
    (hw : w'.deliveries = w.deliveries.map f) : SingleRows w' := by
  intro eventId targetUrl
  have hlen := hsingle eventId targetUrl
  unfold World.rowsFor at hlen ⊢
  rw [← List.countP_eq_length_filter] at hlen ⊢
  rw [hw, List.countP_map]
  refine (List.countP_congr fun d _ => ?_).trans_le hlen
  rw [Function.comp_apply, (hkey d).1, (hkey d).2]

/-- A row that is the first of its event and destination. -/
theorem SingleRows.create (hsingle : SingleRows w) {d : Delivery}
    (hfirst : w.rowsFor d.eventId d.targetUrl = []) (hw : w'.deliveries = d :: w.deliveries) :
    SingleRows w' := by
  intro eventId targetUrl
  unfold World.rowsFor
  rw [hw]
  by_cases hd : (d.eventId == eventId && d.targetUrl == targetUrl) = true
  · rw [List.filter_cons, if_pos hd]
    simp only [Bool.and_eq_true, beq_iff_eq] at hd
    obtain ⟨rfl, rfl⟩ := hd
    have hnone := congrArg List.length hfirst
    unfold World.rowsFor at hnone
    rw [List.length_cons, hnone]
    rfl
  · rw [List.filter_cons, if_neg hd]
    exact hsingle eventId targetUrl

/-- What is known of the rows when a call is about to create one. -/
def LookFacts (pid : ℕ) (h : History) : UpsertPhase → Prop
  | .looked j none => NoneCreated pid j.eventId j.targetUrl h.deeds →
      h.world.rowsFor j.eventId j.targetUrl = []
  | _ => True

/-- An operation that is not the look of a call is one more since then. -/
theorem sinceLook_cons {x : Deed} {deeds : List Deed}
    (hx : (x.pid == pid && x.op.looksForDelivery) = false) :
    sinceLook pid (x :: deeds) = x :: sinceLook pid deeds := by
  rw [sinceLook, hx, if_neg Bool.false_ne_true]

/-- With an operation more, there was none created before. -/
theorem NoneCreated.of_cons {x : Deed} {deeds : List Deed}
    (hx : (x.pid == pid && x.op.looksForDelivery) = false)
    (hnone : NoneCreated pid eventId targetUrl (x :: deeds)) :
    (x.pid ≠ pid → x.creates eventId targetUrl = false) ∧
      NoneCreated pid eventId targetUrl deeds := by
  unfold NoneCreated at hnone
  rw [sinceLook_cons hx] at hnone
  exact List.forall_mem_cons.mp hnone

/-- **Rows appear by being created**: an event and a destination without a row have none after
an operation that creates none for them. -/
theorem rows_stay_empty (hop : UpsertOp op) (hexec : chronicle.exec pid op c h = some (r, h'))
    (hcreates : Deed.creates eventId targetUrl ⟨pid, op, c, h.world⟩ = false)
    (hrows : h.world.rowsFor eventId targetUrl = []) :
    h'.world.rowsFor eventId targetUrl = [] := by
  obtain ⟨hworld, -⟩ := chronicle_exec hexec
  have hsame : h'.world.deliveries = h.world.deliveries →
      h'.world.rowsFor eventId targetUrl = [] := by
    intro hdeliveries
    rw [World.rowsFor, hdeliveries]
    exact hrows
  cases hop with
  | find eventId targetUrl => exact hsame (by rw [(World.exec_findDelivery hworld).1])
  | time =>
      exact hsame (World.deliveries_of_exec hworld (by simp) (by simp))
  | update id t =>
      rcases World.exec_updateDelivery hworld with ⟨hdeliveries, -⟩ | ⟨d, -, -, hdeliveries, -⟩
      · exact hsame hdeliveries
      · rw [World.rowsFor, List.filter_eq_nil_iff] at hrows ⊢
        intro x hx
        rw [hdeliveries] at hx
        obtain ⟨y, hy, rfl⟩ := List.mem_map.mp hx
        have hkept := hrows y hy
        split_ifs
        · exact hkept
        · exact hkept
  | create e t u time =>
      rcases create_cases hexec with ⟨hdeliveries, -⟩ | ⟨hdeliveries, -, hcommits⟩
      · exact hsame hdeliveries
      · -- the new row is one of another event or destination
        have hother : ¬ (e = eventId ∧ u = targetUrl) := by
          intro hpair
          have hcommit := (hcommits eventId targetUrl).mpr hpair
          rw [Deed.creates, hcommit] at hcreates
          cases hcreates
        rw [World.rowsFor, hdeliveries, List.filter_cons_of_neg]
        · exact hrows
        · simpa [World.newDelivery, inFlightDelivery] using hother

/-- **One operation of a call** keeps the rows single: a row that is created is the first one of
its event and destination, as the call has found none and none was created since. -/
theorem single_step {φ : UpsertPhase} (hsingle : SingleRows h.world) (hφ : LookFacts pid h φ)
    (hallow : UpsertAllows φ op)
    (hok : ∀ data, op = .createDelivery data →
      NoneCreated pid data.eventId data.targetUrl h.deeds)
    (hexec : chronicle.exec pid op c h = some (r, h')) :
    SingleRows h'.world ∧ LookFacts pid h' (φ.next op r) := by
  obtain ⟨hworld, hdeeds⟩ := chronicle_exec hexec
  have hsame : h'.world.deliveries = h.world.deliveries → SingleRows h'.world := by
    intro hrows eventId targetUrl
    unfold World.rowsFor
    rw [hrows]
    exact hsingle eventId targetUrl
  cases hallow with
  | @find j =>
      obtain ⟨hw, -, hnone⟩ := World.exec_findDelivery hworld
      refine ⟨hsame (by rw [hw]), ?_⟩
      cases r with
      | error e => exact trivial
      | ok found =>
          cases found with
          | some d => exact trivial
          -- there was no row when the call looked
          | none =>
              intro _
              rw [hw]
              exact hnone rfl
  | @time j found =>
      have hrows : h'.world.deliveries = h.world.deliveries :=
        World.deliveries_of_exec hworld (by simp) (by simp)
      refine ⟨hsame hrows, ?_⟩
      cases r with
      | error e => exact trivial
      | ok t =>
          cases found with
          | some d => exact trivial
          | none =>
              intro hcreated
              rw [hdeeds] at hcreated
              rw [World.rowsFor, hrows]
              exact hφ (hcreated.of_cons (by simp [Op.looksForDelivery])).2
  | update =>
      refine ⟨?_, by cases r <;> exact trivial⟩
      rcases World.exec_updateDelivery hworld with ⟨hrows, -⟩ | ⟨d, -, -, hrows, -⟩
      · exact hsame hrows
      · refine hsingle.update (fun d => ?_) hrows
        split_ifs <;> exact ⟨rfl, rfl⟩
  | create =>
      refine ⟨?_, by cases r <;> exact trivial⟩
      rcases World.exec_createDelivery hworld with ⟨hrows, -⟩ | ⟨hrows, -, -⟩
      · exact hsame hrows
      -- nobody else has created one since
      · exact hsingle.create (hφ (hok _ rfl)) hrows

/-- What a call has found stays true while others create no row for its event and destination. -/
theorem LookFacts.others {φ : UpsertPhase} {q : ℕ} (hne : q ≠ pid) (hop : UpsertOp op)
    (hexec : chronicle.exec pid op c h = some (r, h')) (hφ : LookFacts q h φ) :
    LookFacts q h' φ := by
  obtain ⟨-, hdeeds⟩ := chronicle_exec hexec
  cases φ with
  | looked j found =>
      cases found with
      | some d => exact trivial
      | none =>
          intro hcreated
          rw [hdeeds] at hcreated
          obtain ⟨hthis, hbefore⟩ := hcreated.of_cons (by simp [hne.symm])
          exact rows_stay_empty hop hexec (hthis hne.symm) (hφ hbefore)
  | _ => exact trivial

end

/-- Calls that are not disturbed between their look and the creation of their row. -/
def upsertContract.single : upsertContract.Extension where
  Inv h := SingleRows h.world
  Facts pid _ φ h := LookFacts pid h φ
  Apart _ _ := True
  -- what the condition is about: creates of others since the call's own look
  Ok pid _ op _ h := ∀ data, op = .createDelivery data →
    NoneCreated pid data.eventId data.targetUrl h.deeds
  Fresh _ _ := True
  begins _ _ _ _ := trivial
  surroundings hsingle hs := by
    obtain rfl := History.passTime_eq_some hs
    exact ⟨hsingle, fun _ h => h, fun _ _ _ h => h⟩
  call _ _ _ _ hsingle hφ hallow hok hexec := single_step hsingle hφ hallow hok hexec
  frame _ _ _ _ _ _ hne _ hallow _ hexec hψ := hψ.others hne hallow.op hexec
  after _ h _ := h
  apart_after _ h := h
  apart_symm h := h
  fresh_succ h := h
  fresh_call _ h _ := h

/-- The attempts are right wherever there is one row. -/
theorem oneRow_iff {ok : Calls UpsertCall Delivery → PoolAction Choice UpsertCall ℚ → Prop}
    {s : Calls UpsertCall Delivery} (h : Run UpsertsBegin upsertCalls.step ok s)
    (eventId targetUrl : JsString) :
    OneRow s eventId targetUrl ↔ (s.world.world.rowsFor eventId targetUrl).length ≤ 1 := by
  refine ⟨And.left, fun hlen => ⟨hlen, fun row hrow => ?_⟩⟩
  have honly : s.world.world.rowsFor eventId targetUrl = [row] := by
    obtain ⟨only, hone⟩ := List.length_eq_one_iff.mp
      (le_antisymm hlen (List.length_pos_of_mem hrow))
    rw [hone] at hrow ⊢
    rw [List.mem_singleton.mp hrow]
  rw [← attempts_eq_commits h eventId targetUrl, attempts_eq_sum, honly]
  rfl

/-- **One row for an event and a destination**, with an attempt for every call committed, if no
call creates a row for them between the look of another one and the creation of its row. -/
theorem one_row_undisturbed (s : Calls UpsertCall Delivery)
    (h : Run UpsertsBegin upsertCalls.step Undivided s) (eventId targetUrl : JsString) :
    OneRow s eventId targetUrl := by
  rw [oneRow_iff h]
  -- the condition is asked of a create; an update adds no row
  have hsingle : upsertContract.single.contract.Good s := by
    refine upsertContract.single.contract.invariant ?_ ?_ h
    · intro s hs
      have hgood := good_of_upserts
        (.init hs : Run UpsertsBegin upsertCalls.step (fun _ _ => True) s)
      refine .of_empty ⟨hgood.inv, ?_⟩ ⟨trivial, trivial⟩ hs.tasks
      intro eventId targetUrl
      unfold World.rowsFor
      rw [hs.deliveries]
      exact Nat.zero_le 1
    · intro s a _ ha
      cases a with
      | spawn j => exact fun _ _ _ => ⟨trivial, trivial⟩
      | step pid c =>
          intro j op k ht
          refine ⟨trivial, ?_⟩
          rintro data rfl
          exact ha j data k ht
      | _ => exact trivial
  exact hsingle.inv.2 eventId targetUrl

/-! ## Two calls -/

namespace Sample

/-- A call for the event of the small world. -/
def upsertCall : UpsertCall :=
  { eventId := firstId, tenantId := tenantId, targetUrl := js "http://receiver/hook" }

/-- A world with the event, and no calls yet. -/
def oneEvent : Calls UpsertCall Delivery :=
  { world :=
      { world := { start.world.world with
          events := [event firstId none] }
        deeds := [] }
    tasks := fun _ => none
    spawned := 0 }

theorem oneEvent_begin : UpsertsBegin oneEvent := ⟨⟨rfl, fun _ => rfl, rfl⟩, rfl⟩

/-- The second call starts when the first one has returned. -/
def inTurn : List (PoolAction Choice UpsertCall ℚ) :=
  .spawn upsertCall :: List.replicate 3 (.step 0 { id := firstId }) ++
    .spawn upsertCall :: List.replicate 3 (.step 1 { id := secondId })

/-- Both calls look before either of them creates its row. -/
def lookFirst : List (PoolAction Choice UpsertCall ℚ) :=
  [.spawn upsertCall, .spawn upsertCall, .step 0 {}, .step 1 {}, .step 0 {}, .step 1 {},
    .step 0 { id := firstId }, .step 1 { id := secondId }]

/-- Before a row is created, no other call has created one since the look. -/
def undisturbed (s : Calls UpsertCall Delivery) : PoolAction Choice UpsertCall ℚ → Bool
  | .step pid _ =>
      match s.tasks pid with
      | some ⟨_, .call (.createDelivery data) _⟩ => (sinceLook pid s.world.deeds).all (fun x =>
          x.pid == pid || !x.creates data.eventId data.targetUrl)
      | _ => true
  | _ => true

theorem undivided_of_check {s : Calls UpsertCall Delivery} {a : PoolAction Choice UpsertCall ℚ}
    (h : undisturbed s a = true) : Undivided s a := by
  cases a with
  | step pid c =>
      intro j data k ht x hx hne
      simp only [undisturbed, ht, List.all_eq_true, Bool.or_eq_true, beq_iff_eq,
        Bool.not_eq_true'] at h
      exact (h x hx).resolve_left hne
  | _ => exact trivial

end Sample

/-- Two calls, one after the other: one row with two attempts. -/
theorem one_row_in_turn : ∃ s : Calls UpsertCall Delivery,
    commitCount Sample.firstId (js "http://receiver/hook") s.world.deeds = 2 ∧
      OneRow s Sample.firstId (js "http://receiver/hook") := by
  have hplay : (Run.play upsertCalls.step Sample.undisturbed Sample.inTurn Sample.oneEvent).any
      (fun s : Calls UpsertCall Delivery =>
        decide (commitCount Sample.firstId (js "http://receiver/hook") s.world.deeds = 2)) =
      true := by decide +kernel
  obtain ⟨s, hs, htest⟩ := Run.exists_of_play (fun _ _ => Sample.undivided_of_check)
    Sample.oneEvent_begin hplay
  exact ⟨s, of_decide_eq_true htest, one_row_undisturbed s hs _ _⟩

/-- Two calls that both look first create two rows. -/
theorem two_rows : ¬ ∀ s : Calls UpsertCall Delivery,
    Run UpsertsBegin upsertCalls.step (fun _ _ => True) s →
      ∀ eventId targetUrl, OneRow s eventId targetUrl := by
  intro hclaim
  have hplay : (Run.play upsertCalls.step (fun _ _ => true) Sample.lookFirst Sample.oneEvent).any
      (fun s : Calls UpsertCall Delivery =>
        decide ((s.world.world.rowsFor Sample.firstId (js "http://receiver/hook")).length = 2)) =
      true := by decide +kernel
  obtain ⟨s, hs, htest⟩ := Run.exists_of_play (fun _ _ _ => trivial) Sample.oneEvent_begin hplay
  have htwo := of_decide_eq_true htest
  have hle := (hclaim s hs Sample.firstId (js "http://receiver/hook")).1
  omega
