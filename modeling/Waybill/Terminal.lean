/-
# Final statuses

A handler looks at the delivery row of its event, then counts an attempt, then, up to ten
seconds later, writes the outcome: four statements, each unconditional.  A row that is
`SUCCEEDED` or `DEAD_LETTERED` stays as it is in every run in which nobody interferes
between two statements of one handler (`Undisturbed`).  Two handlers that do interfere can
take a final status back.
-/
import Waybill.Effects
import Waybill.Safety

open Worker Publisher Api Records

/-! ## The condition -/

/-- Since process `pid` last looked at the delivery rows that `op` is about, nobody has added
one of them or given one a final status. -/
def Undisturbed (s : State) (pid : ℕ) (op : Op) : Prop :=
  ∀ key, op.deliveryOf s.world = some key → ∀ rows, s.seen pid = some rows →
    ∀ d ∈ s.world.rowsFor key.1 key.2, ∃ d₀ ∈ rows, d₀.id = d.id ∧
      (d.status.terminal = true → d₀.status.terminal = true)

/-- Every operation of a process meets the condition. -/
def UndisturbedStep (s : Sys) : PoolAction Choice Job ℚ → Prop
  | .step pid _ => ∀ j op k, s.tasks pid = some ⟨j, .call op k⟩ → Undisturbed s.world pid op
  | _ => True

/-! ## What a handler knows about its rows -/

/-- The rows a process has seen are all open. -/
def SawOpen (s : State) (pid : ℕ) : Prop :=
  ∃ rows, s.seen pid = some rows ∧ ∀ d ∈ rows, d.status.terminal = false

/-- There is a row with this identifier for the event, at the receiver. -/
def RowAt (env : Env) (w : Records) (q : QueueMessage) (id : JsString) : Prop :=
  ∃ d ∈ w.deliveries, d.id = id ∧ d.eventId = q.eventId ∧ d.targetUrl = env.receiverUrl

/-- The event has a row with a final status at the receiver. -/
def Settled (env : Env) (w : Records) (eventId : JsString) : Prop :=
  ∃ d ∈ w.deliveries, d.eventId = eventId ∧ d.targetUrl = env.receiverUrl ∧
    d.status.terminal = true

/-- The facts of each phase. -/
def TerminalFacts (env : Env) (s : State) (pid : ℕ) : Phase → Prop
  | .due _ _ _ _ => SawOpen s pid
  | .upserting _ q found => SawOpen s pid ∧
      match found with
      | none => s.seen pid = some []
      | some d => RowAt env s.world.toRecords q d.id
  | .trying _ q d _ _ _ => SawOpen s pid ∧ RowAt env s.world.toRecords q d.id
  | .buried _ q d => SawOpen s pid ∧ RowAt env s.world.toRecords q d.id
  | .accepted _ q d => SawOpen s pid ∧ RowAt env s.world.toRecords q d.id
  | .settled _ q _ => Settled env s.world.toRecords q.eventId
  | .complete _ q _ => Settled env s.world.toRecords q.eventId
  | _ => True

/-- An event has one delivery row for each destination, and a message is deleted only after
its row has a final status. -/
structure TerminalInv (env : Env) (w : Records) : Prop where
  rowsUnique : ∀ d ∈ w.deliveries, ∀ d' ∈ w.deliveries, d.eventId = d'.eventId →
    d.targetUrl = d'.targetUrl → d = d'
  deleted : ∀ m ∈ w.deleted, ∀ q, parseQueueMessage m.body = some q → Settled env w q.eventId

/-! ## One operation -/

section

variable {env : Env} {s s' : State} {pid : ℕ} {φ : Phase} {op : Op} {c : Choice}
  {r : Except JsError op.Res}

/-- Rows keep their identifiers, events and destinations, and a final status for good. -/
structure RowsKept (w w' : Records) : Prop where
  kept : ∀ d ∈ w.deliveries, ∃ d' ∈ w'.deliveries, d'.id = d.id ∧ d'.eventId = d.eventId ∧
    d'.targetUrl = d.targetUrl
  final : ∀ d ∈ w.deliveries, d.status.terminal = true → d ∈ w'.deliveries

theorem RowsKept.of_eq {w w' : Records} (h : w'.deliveries = w.deliveries) : RowsKept w w' := by
  constructor
  · exact fun d hd => ⟨d, h ▸ hd, rfl, rfl, rfl⟩
  · exact fun d hd _ => h ▸ hd

theorem RowAt.mono {w w' : Records} (h : RowsKept w w') {q : QueueMessage} {id : JsString}
    (hrow : RowAt env w q id) : RowAt env w' q id := by
  obtain ⟨d, hd, hid, hev, hurl⟩ := hrow
  obtain ⟨d', hd', hid', hev', hurl'⟩ := h.kept d hd
  exact ⟨d', hd', hid'.trans hid, hev'.trans hev, hurl'.trans hurl⟩

theorem Settled.mono {w w' : Records} (h : RowsKept w w') {id : JsString}
    (hs : Settled env w id) : Settled env w' id := by
  obtain ⟨d, hd, hev, hurl, hterm⟩ := hs
  exact ⟨d, h.final d hd hterm, hev, hurl, hterm⟩

/-- A handler that saw open rows, and was not disturbed, still finds them open. -/
theorem SawOpen.still (h : SawOpen s pid) (hok : Undisturbed s pid op) {key : JsString × JsString}
    (hkey : op.deliveryOf s.world = some key) :
    ∀ d ∈ s.world.rowsFor key.1 key.2, d.status.terminal = false := by
  obtain ⟨rows, hrows, hopen⟩ := h
  intro d hd
  obtain ⟨d₀, hd₀, -, hterm⟩ := hok key hkey rows hrows d hd
  by_contra hne
  rw [Bool.not_eq_false] at hne
  exact absurd (hterm hne) (by rw [hopen d₀ hd₀]; simp)

/-- An update of a row that was open leaves every final status alone. -/
theorem RowsKept.of_update {id : JsString} {data : DeliveryData} {w : World} {x : Records}
    (hx : x.deliveries = w.deliveries.map (fun d => if d.id = id then data.apply d else d))
    (hopen : ∀ d ∈ w.deliveries, d.id = id → d.status.terminal = false) :
    RowsKept w.toRecords x := by
  constructor
  · intro d hd
    refine ⟨if d.id = id then data.apply d else d, ?_, ?_⟩
    · rw [hx]
      exact List.mem_map_of_mem hd
    · split_ifs <;> exact ⟨rfl, rfl, rfl⟩
  · intro d hd hterm
    rw [hx]
    refine List.mem_map.mpr ⟨d, hd, if_neg fun hid => ?_⟩
    rw [hopen d hd hid] at hterm
    cases hterm

/-- The row of an identifier, and the only one. -/
theorem RowAt.unique {w : Records} (hs : Sound w) {q : QueueMessage} {id : JsString}
    (h : RowAt env w q id) : ∃ d ∈ w.deliveries, d.id = id ∧ d.eventId = q.eventId ∧
      d.targetUrl = env.receiverUrl ∧ ∀ x ∈ w.deliveries, x.id = id → x = d := by
  obtain ⟨d, hd, hid, hev, hurl⟩ := h
  exact ⟨d, hd, hid, hev, hurl,
    fun x hx hxid => hs.deliveriesUnique x hx d hd (hxid.trans hid.symm)⟩

/-- An update of a known row is about the event's rows at the receiver. -/
theorem RowAt.deliveryOf {w : World} (hs : Sound w.toRecords) {q : QueueMessage} {id : JsString}
    (h : RowAt env w.toRecords q id) (data : DeliveryData) :
    (Op.updateDelivery id data).deliveryOf w = some (q.eventId, env.receiverUrl) := by
  obtain ⟨d, hd, hid, hev, hurl, huniq⟩ := h.unique hs
  have hfind : w.deliveryById id = some d := by
    cases hx : w.deliveryById id with
    | none =>
        have := List.find?_eq_none.mp hx d hd
        simp [hid] at this
    | some x =>
        rw [huniq x (List.mem_of_find?_eq_some hx) (by simpa using List.find?_some hx)]
  simp only [Op.deliveryOf, hfind, Option.map_some, hev, hurl]

/-- A handler's own update finds its row open. -/
theorem RowAt.open (hs : Sound s.world.toRecords) {q : QueueMessage} {id : JsString}
    {data : DeliveryData} (h : RowAt env s.world.toRecords q id) (hsaw : SawOpen s pid)
    (hok : Undisturbed s pid (.updateDelivery id data)) :
    ∀ x ∈ s.world.deliveries, x.id = id → x.status.terminal = false := by
  obtain ⟨d, hd, hid, hev, hurl, huniq⟩ := h.unique hs
  intro x hx hxid
  rw [huniq x hx hxid]
  exact hsaw.still hok (h.deliveryOf hs data) d (World.mem_rowsFor.mpr ⟨hd, hev, hurl⟩)

/-- What a process has seen after it looked at its rows, or wrote one. -/
theorem SawOpen.after {key : JsString × JsString} (hkey : op.deliveryOf s.world = some key)
    (hseen : s'.seen = seenAfter s pid op s'.world)
    (hopen : ∀ d ∈ s'.world.rowsFor key.1 key.2, d.status.terminal = false) : SawOpen s' pid := by
  refine ⟨s'.world.rowsFor key.1 key.2, ?_, hopen⟩
  rw [hseen, seenAfter, hkey]
  exact Function.update_self ..

/-- Other operations change nothing about what it has seen. -/
theorem seen_keep (hkey : op.deliveryOf s.world = none)
    (hseen : s'.seen = seenAfter s pid op s'.world) : s'.seen = s.seen := by
  rw [hseen, seenAfter, hkey]

/-- What the others have seen stays the same. -/
theorem seen_others (hseen : s'.seen = seenAfter s pid op s'.world) {i : ℕ} (hi : i ≠ pid) :
    s'.seen i = s.seen i := by
  rw [hseen, seenAfter]
  cases op.deliveryOf s.world with
  | none => rfl
  | some key => exact Function.update_of_ne hi ..

/-- **Final statuses are kept** by every undisturbed operation. -/
theorem rowsKept_step (hs : Sound s.world.toRecords) (hφ : TerminalFacts env s pid φ)
    (hallow : Allows env φ op) (hok : Undisturbed s pid op)
    (hexec : s.world.exec op c = some (r, s'.world)) :
    RowsKept s.world.toRecords s'.world.toRecords := by
  have hupdate : ∀ {id : JsString} {data : DeliveryData} {r : Except JsError Delivery},
      (∀ x ∈ s.world.deliveries, x.id = id → x.status.terminal = false) →
      s.world.exec (.updateDelivery id data) c = some (r, s'.world) →
      RowsKept s.world.toRecords s'.world.toRecords := by
    intro id data r hopen hexec
    rcases World.exec_updateDelivery hexec with ⟨hsame, -⟩ | ⟨d, -, -, hmap, -⟩
    · exact .of_eq hsame
    · exact .of_update hmap hopen
  cases hallow with
  | upsertUpdate => exact hupdate (hφ.2.open hs hφ.1 hok) hexec
  | retry => exact hupdate (hφ.2.open hs hφ.1 hok) hexec
  | markDead => exact hupdate (hφ.2.open hs hφ.1 hok) hexec
  | markDone => exact hupdate (hφ.2.open hs hφ.1 hok) hexec
  | upsertCreate =>
      rcases World.exec_createDelivery hexec with ⟨hsame, -⟩ | ⟨hcons, -, -⟩
      · exact .of_eq hsame
      · have hmem : ∀ d ∈ s.world.deliveries, d ∈ s'.world.deliveries := fun d hd => by
          rw [hcons]
          exact List.mem_cons_of_mem _ hd
        exact ⟨fun d hd => ⟨d, hmem d hd, rfl, rfl, rfl⟩, fun d hd _ => hmem d hd⟩
  | _ => exact .of_eq (World.deliveries_of_exec hexec (by simp) (by simp))

/-- The facts of the others last. -/
theorem TerminalFacts.others (hkept : RowsKept s.world.toRecords s'.world.toRecords) {i : ℕ}
    (hseen : s'.seen i = s.seen i) {ψ : Phase} (hψ : TerminalFacts env s i ψ) :
    TerminalFacts env s' i ψ := by
  have hsaw : SawOpen s i → SawOpen s' i := by
    rintro ⟨rows, hrows, hopen⟩
    exact ⟨rows, hseen.trans hrows, hopen⟩
  cases ψ with
  | due m st q e => exact hsaw hψ
  | upserting m q found =>
      cases found with
      | none => exact ⟨hsaw hψ.1, hseen.trans hψ.2⟩
      | some d => exact ⟨hsaw hψ.1, RowAt.mono hkept hψ.2⟩
  | trying m q d p x a => exact ⟨hsaw hψ.1, hψ.2.mono hkept⟩
  | buried m q d => exact ⟨hsaw hψ.1, hψ.2.mono hkept⟩
  | accepted m q d => exact ⟨hsaw hψ.1, hψ.2.mono hkept⟩
  | settled m q d => exact Settled.mono hkept hψ
  | complete m q d => exact Settled.mono hkept hψ
  | _ => trivial

/-- Rows stay unique, and a message is deleted once its row is final. -/
theorem terminalInv_step (hs : Sound s.world.toRecords) (hP : s.world.PhaseFacts φ)
    (hinv : TerminalInv env s.world.toRecords) (hφ : TerminalFacts env s pid φ)
    (hallow : Allows env φ op) (hok : Undisturbed s pid op)
    (hexec : s.world.exec op c = some (r, s'.world)) :
    TerminalInv env s'.world.toRecords := by
  have hkept := rowsKept_step hs hφ hallow hok hexec
  have hdelete : ∀ {m : Message} {q : QueueMessage} {r : Except JsError Unit},
      s.world.Handling m q → Settled env s.world.toRecords q.eventId →
      s.world.exec (.deleteMessage m.id) c = some (r, s'.world) →
      ∀ x ∈ s'.world.deleted, ∀ q', parseQueueMessage x.body = some q' →
        Settled env s'.world.toRecords q'.eventId := by
    intro m q r hq hset hexec x hx q' hq'
    rcases World.exec_deleteMessage hexec x hx with hold | ⟨hqueue, hid⟩
    · exact (hinv.deleted x hold q' hq').mono hkept
    · rw [hq.1.2.1 x hqueue hid, hq.2] at hq'
      exact Option.some.inj hq' ▸ hset.mono hkept
  -- an operation that deletes no message
  have hdeleted : (∀ receipt, op ≠ .deleteMessage receipt) →
      ∀ x ∈ s'.world.deleted, ∀ q', parseQueueMessage x.body = some q' →
        Settled env s'.world.toRecords q'.eventId := by
    intro hop x hx q' hq'
    rw [World.deleted_of_exec hexec hop] at hx
    exact (hinv.deleted x hx q' hq').mono hkept
  have hsame : s'.world.deliveries = s.world.deliveries →
      ∀ d ∈ s'.world.deliveries, ∀ d' ∈ s'.world.deliveries, d.eventId = d'.eventId →
        d.targetUrl = d'.targetUrl → d = d' := by
    intro heq
    rw [heq]
    exact hinv.rowsUnique
  -- an update changes no event and no destination
  have hmap : ∀ {id : JsString} {data : DeliveryData} {r : Except JsError Delivery},
      s.world.exec (.updateDelivery id data) c = some (r, s'.world) →
      ∀ d ∈ s'.world.deliveries, ∀ d' ∈ s'.world.deliveries, d.eventId = d'.eventId →
        d.targetUrl = d'.targetUrl → d = d' := by
    intro id data r hexec
    rcases World.exec_updateDelivery hexec with ⟨heq, -⟩ | ⟨-, -, -, heq, -⟩
    · exact hsame heq
    · rw [heq]
      intro d hd d' hd' hev hurl
      obtain ⟨x, hx, rfl⟩ := List.mem_map.mp hd
      obtain ⟨y, hy, rfl⟩ := List.mem_map.mp hd'
      have hfields : ∀ z : Delivery, (if z.id = id then data.apply z else z).eventId = z.eventId ∧
          (if z.id = id then data.apply z else z).targetUrl = z.targetUrl := by
        intro z
        split_ifs <;> exact ⟨rfl, rfl⟩
      rw [(hfields x).1, (hfields y).1] at hev
      rw [(hfields x).2, (hfields y).2] at hurl
      rw [hinv.rowsUnique x hx y hy hev hurl]
  cases hallow with
  | poisonDelete => exact absurd hP not_false
  | settledDelete =>
      exact ⟨hsame (World.deliveries_of_exec hexec (by simp) (by simp)), hdelete hP.1 hφ hexec⟩
  | completeDelete =>
      exact ⟨hsame (World.deliveries_of_exec hexec (by simp) (by simp)), hdelete hP.1 hφ hexec⟩
  | upsertUpdate => exact ⟨hmap hexec, hdeleted (by simp)⟩
  | retry => exact ⟨hmap hexec, hdeleted (by simp)⟩
  | markDead => exact ⟨hmap hexec, hdeleted (by simp)⟩
  | markDone => exact ⟨hmap hexec, hdeleted (by simp)⟩
  | @upsertCreate m q t =>
      refine ⟨?_, hdeleted (by simp)⟩
      rcases World.exec_createDelivery hexec with ⟨heq, -⟩ | ⟨heq, -, -⟩
      · exact hsame heq
      · -- nobody has added a row since the query found none
        have hnone : ∀ d ∈ s.world.deliveries, d.eventId = q.eventId →
            d.targetUrl ≠ env.receiverUrl := by
          intro d hd hev hurl
          obtain ⟨d₀, hd₀, -⟩ := hok (q.eventId, env.receiverUrl) rfl [] hφ.2 d
            (World.mem_rowsFor.mpr ⟨hd, hev, hurl⟩)
          cases hd₀
        rw [heq]
        intro d hd d' hd' hev hurl
        rcases List.mem_cons.mp hd with rfl | hd
        · rcases List.mem_cons.mp hd' with rfl | hd'
          · rfl
          · exact absurd hurl.symm (hnone d' hd' hev.symm)
        · rcases List.mem_cons.mp hd' with rfl | hd'
          · exact absurd hurl (hnone d hd hev)
          · exact hinv.rowsUnique d hd d' hd' hev hurl
  | _ => exact ⟨hsame (World.deliveries_of_exec hexec (by simp) (by simp)), hdeleted (by simp)⟩

/-- After the first look at the delivery row. -/
theorem terminalFacts_afterCheck (hinv : TerminalInv env s.world.toRecords) {m : Message}
    {st : CircuitState} {q : QueueMessage} {existing : Option Delivery}
    (hseen : s'.seen = seenAfter s pid (.findDelivery q.eventId env.receiverUrl) s'.world)
    (hexec : s.world.exec (.findDelivery q.eventId env.receiverUrl) c =
      some (.ok existing, s'.world)) :
    TerminalFacts env s' pid (afterCheck m st q existing) := by
  obtain ⟨hw, hsome, hnone⟩ := World.exec_findDelivery hexec
  cases existing with
  | none =>
      refine @SawOpen.after _ _ _ _ (q.eventId, env.receiverUrl) rfl hseen ?_
      rw [hw, hnone rfl]
      exact fun d hd => nomatch hd
  | some d =>
      obtain ⟨hd, hev, hurl⟩ := World.mem_rowsFor.mp (hsome d rfl)
      unfold afterCheck
      by_cases hterm : d.status.terminal = true
      · simp only [hterm, if_true]
        exact ⟨d, hw ▸ hd, hev, hurl, hterm⟩
      · simp only [hterm]
        refine SawOpen.after rfl hseen fun x hx => ?_
        rw [hw] at hx
        obtain ⟨hx, hxev, hxurl⟩ := World.mem_rowsFor.mp hx
        rw [hinv.rowsUnique x hx d hd (hxev.trans hev.symm) (hxurl.trans hurl.symm)]
        exact eq_false_of_ne_true hterm

/-- After `upsertInFlight` looked at the rows. -/
theorem terminalFacts_afterLook {m : Message} {q : QueueMessage} {found : Option Delivery}
    (hsaw : SawOpen s pid) (hok : Undisturbed s pid (.findDelivery q.eventId env.receiverUrl))
    (hseen : s'.seen = seenAfter s pid (.findDelivery q.eventId env.receiverUrl) s'.world)
    (hexec : s.world.exec (.findDelivery q.eventId env.receiverUrl) c =
      some (.ok found, s'.world)) :
    TerminalFacts env s' pid (.upserting m q found) := by
  obtain ⟨hw, hsome, hnone⟩ := World.exec_findDelivery hexec
  have hopen := hsaw.still hok rfl
  refine ⟨SawOpen.after rfl hseen (by rw [hw]; exact hopen), ?_⟩
  cases found with
  | none =>
      have hrows := hnone rfl
      rw [hseen]
      simp only [seenAfter, Op.deliveryOf, hw, hrows]
      exact Function.update_self ..
  | some d =>
      obtain ⟨hd, hev, hurl⟩ := World.mem_rowsFor.mp (hsome d rfl)
      exact ⟨d, hw ▸ hd, rfl, hev, hurl⟩

/-- After an update that leaves the row open. -/
theorem terminalFacts_afterUpdate (hs : Sound s.world.toRecords) {q : QueueMessage}
    {id : JsString} {data : DeliveryData} {row : Delivery} (hrow : RowAt env s.world.toRecords q id)
    (hsaw : SawOpen s pid) (hok : Undisturbed s pid (.updateDelivery id data))
    (hdata : data.status.terminal = false)
    (hseen : s'.seen = seenAfter s pid (.updateDelivery id data) s'.world)
    (hexec : s.world.exec (.updateDelivery id data) c = some (.ok row, s'.world)) :
    SawOpen s' pid ∧ RowAt env s'.world.toRecords q row.id := by
  have hkey := hrow.deliveryOf hs data
  have hopen := hsaw.still hok hkey
  obtain ⟨d, hd, hid, hev, hurl, huniq⟩ := hrow.unique hs
  rcases World.exec_updateDelivery hexec with ⟨-, e, he⟩ | ⟨x, hx, hxid, hmap, hanswer⟩
  · cases he
  · obtain rfl := huniq x hx hxid
    refine ⟨SawOpen.after hkey hseen fun y hy => ?_, ?_⟩
    · obtain ⟨hy, hyev, hyurl⟩ := World.mem_rowsFor.mp hy
      rw [hmap] at hy
      obtain ⟨z, hz, rfl⟩ := List.mem_map.mp hy
      by_cases hzid : z.id = id
      · rw [if_pos hzid]
        exact hdata
      · rw [if_neg hzid] at hyev hyurl ⊢
        exact hopen z (World.mem_rowsFor.mpr ⟨hz, hyev, hyurl⟩)
    · rw [hanswer row rfl]
      refine ⟨data.apply x, ?_, rfl, hev, hurl⟩
      rw [hmap]
      exact List.mem_map.mpr ⟨x, hx, if_pos hid⟩

/-- After an update with a final status. -/
theorem settled_afterUpdate (hs : Sound s.world.toRecords) {q : QueueMessage} {id : JsString}
    {data : DeliveryData} {row : Delivery} (hrow : RowAt env s.world.toRecords q id)
    (hdata : data.status.terminal = true)
    (hexec : s.world.exec (.updateDelivery id data) c = some (.ok row, s'.world)) :
    Settled env s'.world.toRecords q.eventId := by
  obtain ⟨d, hd, hid, hev, hurl, huniq⟩ := hrow.unique hs
  rcases World.exec_updateDelivery hexec with ⟨-, e, he⟩ | ⟨x, hx, hxid, hmap, -⟩
  · cases he
  · obtain rfl := huniq x hx hxid
    refine ⟨data.apply x, ?_, hev, hurl, hdata⟩
    rw [hmap]
    exact List.mem_map.mpr ⟨x, hx, if_pos hid⟩

/-- After a row was created. -/
theorem terminalFacts_afterCreate {q : QueueMessage} {t : ℚ} {row : Delivery}
    (hsaw : SawOpen s pid)
    (hok : Undisturbed s pid
      (.createDelivery (inFlightDelivery q.eventId q.tenantId env.receiverUrl t)))
    (hseen : s'.seen = seenAfter s pid
      (.createDelivery (inFlightDelivery q.eventId q.tenantId env.receiverUrl t)) s'.world)
    (hexec : s.world.exec
      (.createDelivery (inFlightDelivery q.eventId q.tenantId env.receiverUrl t)) c =
        some (.ok row, s'.world)) :
    SawOpen s' pid ∧ RowAt env s'.world.toRecords q row.id := by
  have hopen := hsaw.still hok rfl
  rcases World.exec_createDelivery hexec with ⟨-, e, he⟩ | ⟨hcons, -, hanswer⟩
  · cases he
  · have hmem : row ∈ s'.world.deliveries := by
      rw [hanswer row rfl, hcons]
      exact List.mem_cons_self
    refine ⟨SawOpen.after rfl hseen fun y hy => ?_, row, hmem, rfl, ?_, ?_⟩
    · obtain ⟨hy, hyev, hyurl⟩ := World.mem_rowsFor.mp hy
      rw [hcons] at hy
      rcases List.mem_cons.mp hy with rfl | hy
      · rfl
      · exact hopen y (World.mem_rowsFor.mpr ⟨hy, hyev, hyurl⟩)
    · rw [hanswer row rfl]
      rfl
    · rw [hanswer row rfl]
      rfl

/-- **An answer establishes the facts of the next phase.** -/
theorem terminalFacts_step (hs : Sound s.world.toRecords)
    (hinv : TerminalInv env s.world.toRecords) (hφ : TerminalFacts env s pid φ)
    (hallow : Allows env φ op) (hok : Undisturbed s pid op)
    (hseen : s'.seen = seenAfter s pid op s'.world)
    (hexec : s.world.exec op c = some (r, s'.world)) :
    TerminalFacts env s' pid (φ.next op r) := by
  have hkept := rowsKept_step hs hφ hallow hok hexec
  -- a process that does not look keeps what it has seen
  have hstay : op.deliveryOf s.world = none → TerminalFacts env s' pid φ := fun hkey =>
    hφ.others hkept (congrFun (seen_keep hkey hseen) pid)
  cases hallow with
  | decide =>
      cases r with
      | error e => exact trivial
      | ok t =>
          rename_i m raw
          change TerminalFacts env s' pid (afterDecision m _)
          unfold afterDecision
          cases parseQueueMessage m.body <;> split_ifs <;> exact trivial
  | limit =>
      cases r with
      | error e => exact trivial
      | ok result =>
          change TerminalFacts env s' pid (if result.1 = 1 then _ else _)
          split_ifs <;> exact trivial
  | check =>
      cases r with
      | error e => exact trivial
      | ok existing => exact terminalFacts_afterCheck hinv hseen hexec
  | look =>
      cases r with
      | error e => exact trivial
      | ok found => exact terminalFacts_afterLook hφ hok hseen hexec
  | upsertUpdate =>
      cases r with
      | error e => exact trivial
      | ok row => exact terminalFacts_afterUpdate hs hφ.2 hφ.1 hok rfl hseen hexec
  | upsertCreate =>
      cases r with
      | error e => exact trivial
      | ok row => exact terminalFacts_afterCreate hφ.1 hok hseen hexec
  | fetch =>
      cases r with
      | error e => exact hstay rfl
      | ok status =>
          change TerminalFacts env s' pid (afterPost _ _ _ _ _ status)
          unfold afterPost
          split_ifs <;> exact hstay rfl
  | markDead =>
      cases r with
      | error e => exact trivial
      | ok row => exact settled_afterUpdate hs hφ.2 rfl hexec
  | markDone =>
      cases r with
      | error e => exact trivial
      | ok row => exact settled_afterUpdate hs hφ.2 rfl hexec
  | _ => cases r <;> first | exact trivial | exact hstay rfl

end

/-! ## Runs -/

/-- The contract of a run without interference. -/
def undisturbed (env : Env) : (custody env).Extension where
  Inv s := TerminalInv env s.world.toRecords
  Facts pid _ φ s := TerminalFacts env s pid φ
  Apart _ _ := True
  -- what others commit between a handler's look and its write
  Ok pid _ op _ s := Undisturbed s pid op
  Fresh _ _ := True
  begins {pid j s p} _ _ _ _ := by
    change TerminalFacts env s pid (firstPhase j s)
    obtain ⟨m, -, h⟩ | h | h | h | ⟨row, event, h⟩ := firstPhase_cases j s <;>
      (rw [h]; exact trivial)
  surroundings {dt s s'} hinv h := by
    obtain rfl := passTime_eq_some h
    exact ⟨hinv, fun _ hn => hn, fun _ _ _ hφ => hφ⟩
  call hs hP _ _ hinv hφ hallow hok hexec := by
    obtain ⟨hexec, hseen, -⟩ := device_exec hexec
    exact ⟨terminalInv_step hs hP.1 hinv hφ hallow hok hexec,
      terminalFacts_step hs hinv hφ hallow hok hseen hexec⟩
  frame hs _ _ _ _ _ hne hφ hallow hok hexec hψ := by
    obtain ⟨hexec, hseen, -⟩ := device_exec hexec
    exact hψ.others (rowsKept_step hs hφ hallow hok hexec) (seen_others hseen hne)
  after hend hφ ha := by
    obtain ⟨m, ack, rfl, rfl, rfl, rfl⟩ := after_eq_some ha
    obtain ⟨-, q, d, rfl⟩ := hend
    exact hφ
  apart_after _ _ := trivial
  apart_symm _ := trivial
  fresh_succ _ := trivial
  fresh_call _ _ _ := trivial

theorem undisturbed_of_reached {env : Env} {s : Sys} (h : Reached env UndisturbedStep s) :
    (undisturbed env).contract.Good s := by
  refine (undisturbed env).contract.invariant ?_ ?_ h
  · intro s hs
    refine .of_empty ⟨hs.sound, ?_⟩ ⟨trivial, trivial⟩ hs.tasks
    exact ⟨by simp [hs.deliveries], by simp [hs.deleted]⟩
  · intro s a _ ha
    cases a with
    | spawn j => exact fun _ _ _ => ⟨trivial, trivial⟩
    | step pid c => exact fun j op k ht => ⟨trivial, ha j op k ht⟩
    | _ => exact trivial

/-- In every run whose steps satisfy `ok`: no step changes a row with a final status, and
after a message has been deleted its event has a row at the receiver, with a final status. -/
def FinalStatusesAbsorbing (env : Env) (ok : Sys → PoolAction Choice Job ℚ → Prop) : Prop :=
  ∀ s, Reached env ok s →
    (∀ a s', ok s a → (system env).step s a = some s' →
      ∀ d ∈ s.world.world.deliveries, d.status.terminal = true →
        d ∈ s'.world.world.deliveries) ∧
    ∀ m ∈ s.world.world.deleted, ∀ q, parseQueueMessage m.body = some q →
      s.world.world.rowsFor q.eventId env.receiverUrl ≠ [] ∧
        ∀ d ∈ s.world.world.rowsFor q.eventId env.receiverUrl, d.status.terminal = true

/-- The next step, too, keeps the rows with a final status. -/
theorem final_kept {env : Env} {s s' : Sys} {a : PoolAction Choice Job ℚ}
    (hgood : (undisturbed env).contract.Good s) (ha : UndisturbedStep s a)
    (hstep : (system env).step s a = some s') :
    ∀ d ∈ s.world.world.deliveries, d.status.terminal = true → d ∈ s'.world.world.deliveries := by
  intro d hd hterm
  cases a with
  | surroundings dt =>
      obtain ⟨w, hw, rfl⟩ := Option.map_eq_some_iff.mp hstep
      obtain rfl := passTime_eq_some hw
      exact hd
  | spawn j =>
      obtain ⟨p, -, rfl⟩ := Option.map_eq_some_iff.mp hstep
      exact hd
  | step pid c =>
      obtain ⟨j, op, k, r, w', ht, hexec, rfl⟩ := Machine.step_call hstep
      obtain ⟨φ, ⟨hallow, -⟩, hP, hφ⟩ := hgood.stands pid _ ht
      obtain ⟨hexec, -, -⟩ := device_exec hexec
      exact (rowsKept_step hgood.inv.1 hφ hallow (ha j op k ht) hexec).final d hd hterm
  | finish pid =>
      obtain ⟨j, e, -, rfl⟩ | ⟨j, a, -, rfl⟩ := Machine.step_finish hstep
      · exact hd
      · exact hd
  | crash pid =>
      obtain ⟨t, -, rfl⟩ := Option.map_eq_some_iff.mp hstep
      exact hd

/-- **Final statuses are absorbing without interference**: in every run in which no call adds
a delivery row or commits a final status between two statements of another call on the same
rows. -/
theorem final_statuses_absorbing (env : Env) : FinalStatusesAbsorbing env UndisturbedStep := by
  intro s h
  have hgood := undisturbed_of_reached h
  refine ⟨fun a s' ha hstep => final_kept hgood ha hstep, fun m hm q hq => ?_⟩
  -- a message is deleted only when a row of its pair is final
  obtain ⟨d, hd, hev, hurl, hterm⟩ := hgood.inv.2.deleted m hm q hq
  refine ⟨List.ne_nil_of_mem (World.mem_rowsFor.mpr ⟨hd, hev, hurl⟩), fun x hx => ?_⟩
  obtain ⟨hx, hxev, hxurl⟩ := World.mem_rowsFor.mp hx
  -- and that row is the only one of the pair
  rw [hgood.inv.2.rowsUnique x hx d hd (hxev.trans hev.symm) (hxurl.trans hurl.symm)]
  exact hterm

/-- Two handlers of one message, up to the second one's update. -/
def Sample.raced : List (PoolAction Choice Job ℚ) :=
  ingested ++ published 1 firstId ++
    [.spawn (.deliver firstMessage), .spawn (.deliver firstMessage)] ++
    calls 2 8 (choice firstId 200) ++ calls 3 5 (choice firstId 200) ++
    calls 2 7 (choice firstId 200) ++ calls 3 2 (choice firstId 200)

/-- One message, received twice: the second handler finds the row open, the first one then
completes it, and the second counts an attempt on the `SUCCEEDED` row. -/
theorem final_status_taken_back :
    ¬ FinalStatusesAbsorbing (Sample.env none) (fun _ _ => True) := by
  intro hclaim
  obtain ⟨s, hs, htest⟩ := Sample.exists_reachable (Sample.env none) Sample.raced
    (fun s => ((system (Sample.env none)).step s
      (.step 3 (Sample.choice Sample.firstId 200))).any (fun s' : Sys =>
        decide (∃ d ∈ s.world.world.deliveries, d.status.terminal = true ∧
          d ∉ s'.world.world.deliveries))) (by decide +kernel)
  obtain ⟨s', hstep, hlost⟩ := (Option.any_eq_true _ _).mp htest
  obtain ⟨d, hd, hterm, hgone⟩ := of_decide_eq_true hlost
  exact hgone ((hclaim s hs).1 _ s' trivial hstep d hd hterm)
