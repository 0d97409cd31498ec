/-
# Dead letters agree with deliveries

A handler that gives up writes the archive, the dead letter and the final status in separate
statements.  In runs with one handler at a time, a closed delivery has a dead letter exactly
if it is `DEAD_LETTERED`, and the dead letter has its count and the key of its payload
(`dead_letters_agree`), unless the receiver accepts a webhook for a delivery that has a dead
letter already (`dead_letter_of_success`).
-/
import Waybill.Attempts

open Worker Publisher Api Records

/-! ## The condition -/

/-- The receiver does not accept a webhook for an event that has a dead letter already. -/
def NoLateSuccess (eventId : JsString) (w : World) (c : Choice) (op : Op) : Prop :=
  ∀ url body signature, op = .fetch url body signature → postedEvent body = some eventId →
    c.fault = .none → statusOk c.status = true → ∀ x ∈ w.deadLetters, x.eventId ≠ eventId

/-- A dead letter records the delivery's attempts, and the key of the event's payload. -/
def Matches (w : Records) (eventId : JsString) (d : Delivery) (x : DeadLetter) : Prop :=
  x.attemptCount = d.attemptCount ∧
    ∃ e ∈ w.events, e.id = eventId ∧ x.payloadS3Key = keyOf (queueMessage e)

/-- The dead letters of a row: there is one exactly if the row is `DEAD_LETTERED`. -/
def Agrees (w : Records) (eventId : JsString) (deadLetters : List DeadLetter) (d : Delivery) :
    Prop :=
  ((∃ x ∈ deadLetters, x.deliveryId = d.id) ↔ d.status = .deadLettered) ∧
    ∀ x ∈ deadLetters, x.deliveryId = d.id → Matches w eventId d x

/-- The dead letters of closed rows agree with them. -/
def DeadLetterInv (w : Records) (eventId : JsString) (a : Account) : Prop :=
  ∀ d ∈ a.rows, d.status.terminal = true → Agrees w eventId a.deadLetters d

/-- What a handler knows about the dead letters of its row. -/
def DeadLetterFacts (w : Records) (eventId : JsString) (deadLetters : List DeadLetter) :
    Phase → Prop
  | .buried _ q d => q.eventId = eventId →
      (∃ x ∈ deadLetters, x.deliveryId = d.id) ∧
        ∀ x ∈ deadLetters, x.deliveryId = d.id → Matches w eventId d x
  | .accepted _ q _ => q.eventId = eventId → deadLetters = []
  | _ => True

section

variable {env : Env} {eventId : JsString} {w w' : World} {φ : Phase} {op : Op} {c : Choice}
  {r : Except JsError op.Res}

theorem Matches.mono {x x' : Records} (h : Forward x x') {d : Delivery} {y : DeadLetter}
    (hm : Matches x eventId d y) : Matches x' eventId d y := by
  obtain ⟨hcount, e, he, hid, hkey⟩ := hm
  exact ⟨hcount, e, h.events e he, hid, hkey⟩

theorem DeadLetterInv.mono {x x' : Records} (h : Forward x x') {a : Account}
    (hinv : DeadLetterInv x eventId a) : DeadLetterInv x' eventId a := fun d hd hterm =>
  ⟨(hinv d hd hterm).1, fun y hy hid => ((hinv d hd hterm).2 y hy hid).mono h⟩

theorem DeadLetterFacts.mono {x x' : Records} (h : Forward x x') {l : List DeadLetter}
    {ψ : Phase} (hψ : DeadLetterFacts x eventId l ψ) : DeadLetterFacts x' eventId l ψ := by
  cases ψ with
  | buried m q d => exact fun hq => ⟨(hψ hq).1, fun y hy hid => ((hψ hq).2 y hy hid).mono h⟩
  | accepted m q d => exact hψ
  | _ => trivial

/-- The facts of an attempt that is not for the event. -/
theorem deadLetterFacts_of_not {x : Records} {l : List DeadLetter} {ψ : Phase}
    (h : ∀ q d, ψ.counted = some (q, d) → q.eventId ≠ eventId) :
    DeadLetterFacts x eventId l ψ := by
  cases ψ with
  | buried m q d => exact fun hq => absurd hq (h q d rfl)
  | accepted m q d => exact fun hq => absurd hq (h q d rfl)
  | _ => trivial

/-- Only a handler past its query has counted an attempt after its next operation. -/
theorem Phase.writes_of_counted_next {q : QueueMessage} {d : Delivery} (hallow : Allows env φ op)
    (h : (φ.next op r).counted = some (q, d)) : φ.writes = some q := by
  cases hallow with
  | decide =>
      cases r with
      | error e => cases h
      | ok t =>
          rename_i m raw
          change (afterDecision m _).counted = some (q, d) at h
          unfold afterDecision at h
          cases hp : parseQueueMessage m.body <;> rw [hp] at h <;> split_ifs at h <;> cases h
  | limit =>
      cases r with
      | error e => cases h
      | ok result =>
          change Phase.counted (if result.1 = 1 then _ else _) = some (q, d) at h
          split_ifs at h <;> cases h
  | check =>
      cases r with
      | error e => cases h
      | ok existing =>
          rename_i m st q'
          change (afterCheck m st q' existing).counted = some (q, d) at h
          cases existing with
          | none => cases h
          | some d =>
              unfold afterCheck at h
              simp only at h
              split_ifs at h <;> cases h
  | fetch =>
      cases r with
      | error e =>
          cases h
          rfl
      | ok status =>
          change (afterPost _ _ _ _ _ status).counted = some (q, d) at h
          unfold afterPost at h
          split_ifs at h <;> cases h <;> rfl
  | _ => cases r <;> cases h <;> rfl

/-- While the row is open there is nothing to agree with. -/
theorem deadLetterInv_of_open {x : Records} {a : Account}
    (h : ∀ d ∈ a.rows, d.status.terminal = false) : DeadLetterInv x eventId a := by
  intro d hd hterm
  rw [h d hd] at hterm
  cases hterm

/-- The dead letters stay when none is written. -/
theorem deadLetters_account (hexec : w.exec op c = some (r, w'))
    (hupsert : ∀ input, op ≠ .upsertDeadLetter input) :
    (account env eventId w').deadLetters = (account env eventId w).deadLetters := by
  unfold account
  rw [World.deadLetters_of_exec hexec hupsert]

/-- An update of an own row: open, or closed in agreement with its dead letters. -/
theorem deadLetterInv_update (hs : Sound w.toRecords) (hown : OwnInv env eventId w) {d : Delivery}
    {data : DeliveryData} {x : Records} {r : Except JsError Delivery}
    (hd : d ∈ w.rowsFor eventId env.receiverUrl) (hopen : d.status.terminal = false)
    (hdata : data.status.terminal = true →
      Agrees x eventId (account env eventId w).deadLetters (data.apply d))
    (hexec : w.exec (.updateDelivery d.id data) c = some (r, w')) :
    DeadLetterInv x eventId (account env eventId w') := by
  have hdead : (account env eventId w').deadLetters = (account env eventId w).deadLetters :=
    deadLetters_account hexec (by simp)
  intro y hy hterm
  rw [hdead]
  rcases own_update hs hown hd hexec with ⟨hrows, -⟩ | ⟨-, hall, -⟩
  · have hy' : y ∈ w.rowsFor eventId env.receiverUrl := hrows ▸ hy
    rw [hown.unique y hy' d hd, hopen] at hterm
    cases hterm
  · rw [hall y hy] at hterm ⊢
    exact hdata hterm

/-- The dead letters after one was recorded for a row. -/
theorem buried_agrees {q : QueueMessage} {d : Delivery} {url error : JsString} {x : Records}
    {dead : DeadLetter} (hev : d.eventId = q.eventId)
    (hevent : ∃ e ∈ x.events, e.id = q.eventId ∧ q = queueMessage e)
    (hsame : ∀ y ∈ w.deadLetters, y.deliveryId = d.id → y.eventId = q.eventId)
    (hexec : w.exec (.upsertDeadLetter (deadLetterOf d url error (keyOf q))) c =
      some (.ok dead, w')) :
    (∃ y ∈ (account env q.eventId w').deadLetters, y.deliveryId = d.id) ∧
      ∀ y ∈ (account env q.eventId w').deadLetters, y.deliveryId = d.id →
        Matches x q.eventId d y := by
  obtain ⟨e, he, hid, rfl⟩ := hevent
  have hmatch : ∀ y : DeadLetter, y.attemptCount = d.attemptCount →
      y.payloadS3Key = keyOf (queueMessage e) → Matches x (queueMessage e).eventId d y :=
    fun y hcount hkey => ⟨hcount, e, he, hid, hkey⟩
  rcases World.exec_upsertDeadLetter hexec with ⟨-, e', he'⟩ | ⟨hmap, y, hy, hdel⟩ | ⟨hcons, hne⟩
  · cases he'
  -- there was one, which is brought up to date with the row
  · have hdead : (account env (queueMessage e).eventId w').deadLetters =
        (w.deadLetters.map (fun y => if y.deliveryId = d.id then World.refreshDeadLetter
          (deadLetterOf d url error (keyOf (queueMessage e))) y else y)).filter
          (fun y => y.eventId == (queueMessage e).eventId) := by
      unfold account
      rw [hmap]
      rfl
    have hdel : y.deliveryId = d.id := hdel
    rw [hdead]
    refine ⟨⟨_, List.mem_filter.mpr ⟨List.mem_map_of_mem hy, ?_⟩, ?_⟩, fun z hz hzdel => ?_⟩
    · rw [if_pos hdel]
      exact beq_iff_eq.mpr (hsame y hy hdel)
    · rw [if_pos hdel]
      exact hdel
    · obtain ⟨z', -, rfl⟩ := List.mem_map.mp (List.mem_of_mem_filter hz)
      by_cases hz' : z'.deliveryId = d.id
      · rw [if_pos hz']
        exact hmatch _ rfl rfl
      · rw [if_neg hz'] at hzdel
        exact absurd hzdel hz'
  -- there was none
  · have hdead : (account env (queueMessage e).eventId w').deadLetters =
        w.newDeadLetter (deadLetterOf d url error (keyOf (queueMessage e))) c.id ::
          (account env (queueMessage e).eventId w).deadLetters := by
      unfold account
      simp only
      rw [hcons]
      refine List.filter_cons_of_pos ?_
      simpa [World.newDeadLetter, deadLetterOf] using hev
    rw [hdead]
    refine ⟨⟨_, List.mem_cons_self, rfl⟩, fun y hy hydel => ?_⟩
    rcases List.mem_cons.mp hy with rfl | hy
    · exact hmatch _ rfl rfl
    · exact absurd hydel (hne y (List.mem_of_mem_filter hy))

/-- No operation but a row's own writes disturbs the agreement of an open row. -/
theorem deadLetterInv_quiet {x : Records}
    (hopen : ∀ d ∈ w.rowsFor eventId env.receiverUrl, d.status.terminal = false)
    (hexec : w.exec op c = some (r, w')) (hcreate : ∀ data, op ≠ .createDelivery data)
    (hupdate : ∀ id data, op ≠ .updateDelivery id data) :
    DeadLetterInv x eventId (account env eventId w') := by
  refine deadLetterInv_of_open ?_
  rw [show (account env eventId w').rows = (account env eventId w).rows from
    rows_account hexec hcreate hupdate]
  exact hopen

/-- A new row is open. -/
theorem deadLetterInv_create {q : QueueMessage} {x : Records} {t : ℚ}
    {r : Except JsError Delivery} (hnone : w.rowsFor q.eventId env.receiverUrl = [])
    (hexec : w.exec (.createDelivery (inFlightDelivery q.eventId q.tenantId env.receiverUrl t)) c =
      some (r, w')) : DeadLetterInv x q.eventId (account env q.eventId w') := by
  refine deadLetterInv_of_open fun d hd => ?_
  rcases own_create hnone hexec with ⟨hrows, -⟩ | ⟨y, hrows, hstatus, -, -⟩
  · rw [show (account env q.eventId w').rows = [] from hrows] at hd
    cases hd
  · rw [show (account env q.eventId w').rows = [y] from hrows, List.mem_singleton] at hd
    rw [hd, hstatus]
    rfl

/-- **An operation of a handler of the event** keeps its closed row and the dead letters in
agreement: it leaves the row open, or closes it with what the handler knows. -/
theorem deadLetterInv_next {q : QueueMessage} (hs : Sound w.toRecords) (hP : w.PhaseFacts φ)
    (hown : OwnInv env eventId w) (hrow : RowFacts eventId (w.rowsFor eventId env.receiverUrl) φ)
    (hφ : DeadLetterFacts w.toRecords eventId (account env eventId w).deadLetters φ)
    (hwork : φ.writes = some q) (hev : q.eventId = eventId) (hallow : Allows env φ op)
    (hexec : w.exec op c = some (r, w')) :
    DeadLetterInv w'.toRecords eventId (account env eventId w') := by
  subst hev
  have hfwd := (step_sound hs hP hallow hexec).2
  -- a handler at work has an open row
  have hopen : ∀ d ∈ w.rowsFor q.eventId env.receiverUrl, d.status.terminal = false := by
    intro d hd
    by_contra hclosed
    exact not_closed_of_writes hown hrow hwork rfl ⟨d, hd, Bool.not_eq_false _ ▸ hclosed⟩
  cases hallow with
  | upsertUpdate =>
      cases hwork
      have hd := (hrow rfl).2.2 _ rfl
      exact deadLetterInv_update hs hown hd (hopen _ hd) (fun hfalse => by cases hfalse) hexec
  | upsertCreate =>
      cases hwork
      exact deadLetterInv_create ((hrow rfl).2.1 rfl) hexec
  | retry =>
      cases hwork
      obtain ⟨hd, -⟩ := hrow rfl
      exact deadLetterInv_update hs hown hd (hopen _ hd) (fun hfalse => by cases hfalse) hexec
  -- the dead letter was written before its status
  | markDead =>
      cases hwork
      obtain ⟨hd, -⟩ := hrow rfl
      obtain ⟨hexists, hall⟩ := hφ rfl
      refine deadLetterInv_update hs hown hd (hopen _ hd) (fun _ => ⟨?_, ?_⟩) hexec
      · exact ⟨fun _ => rfl, fun _ => hexists⟩
      · exact fun y hy hid => (hall y hy hid).mono hfwd
  -- where the call succeeded there is no dead letter
  | markDone =>
      cases hwork
      obtain ⟨hd, -⟩ := hrow rfl
      have hnone : (account env q.eventId w).deadLetters = [] := hφ rfl
      refine deadLetterInv_update hs hown hd (hopen _ hd) (fun _ => ?_) hexec
      rw [hnone]
      exact ⟨⟨fun ⟨_, hy, _⟩ => (nomatch hy), fun hdead => by cases hdead⟩,
        fun _ hy => (nomatch hy)⟩
  | _ => exact deadLetterInv_quiet hopen hexec (by simp) (by simp)

/-- The handler that records a dead letter knows it. -/
theorem deadLetterFacts_bury {m : Message} {q : QueueMessage} {d : Delivery} {error : JsString}
    {dead : DeadLetter} (hs : Sound w.toRecords) (hfwd : Forward w.toRecords w'.toRecords)
    (hwork : ∃ e ∈ w.events, q = queueMessage e) (hrow : w.RowOk q d)
    (hexec : w.exec (.upsertDeadLetter (deadLetterOf d env.receiverUrl error (keyOf q))) c =
      some (.ok dead, w')) :
    DeadLetterFacts w'.toRecords eventId (account env eventId w').deadLetters
      (.buried m q d) := by
  rintro rfl
  obtain ⟨e, he, hq⟩ := hwork
  obtain ⟨hdev, -, d₂, hd₂, hid₂, hev₂, -⟩ := hrow
  refine buried_agrees hdev ⟨e, hfwd.events e he, by rw [hq]; rfl, hq⟩ ?_ hexec
  -- the dead letter of the same delivery is for the same event
  intro y hy hdel
  obtain ⟨d₁, hd₁, hid₁, hev₁⟩ := hs.deadDelivery y hy
  rw [← hev₁, hs.deliveriesUnique d₁ hd₁ d₂ hd₂ (by rw [hid₁, hdel, hid₂]), hev₂, hdev]

/-- A webhook that the receiver accepted belongs to an event without a dead letter. -/
theorem deadLetterFacts_post {m : Message} {q : QueueMessage} {d : Delivery}
    {x : Option JsString} {a : Bool} {payload : Json} {g : JsString} {status : ℕ}
    (hok : NoLateSuccess eventId w c
      (.fetch env.receiverUrl (webhookBody q payload).stringify g))
    (hexec : w.exec (.fetch env.receiverUrl (webhookBody q payload).stringify g) c =
      some (.ok status, w')) :
    DeadLetterFacts w'.toRecords eventId (account env eventId w').deadLetters
      (afterPost m q d x a status) := by
  unfold afterPost
  split_ifs with hstatus
  · rintro rfl
    obtain ⟨hfault, hanswer⟩ := World.exec_fetch_ok hexec
    rw [deadLetters_account hexec (by simp)]
    refine List.filter_eq_nil_iff.mpr fun y hy => ?_
    have hne := hok _ _ _ rfl (postedEvent_webhookBody q payload) hfault (hanswer ▸ hstatus) y hy
    simpa using hne
  · exact trivial

/-- **What a handler of the event knows** about its dead letters after one more operation. -/
theorem deadLetterFacts_next {q : QueueMessage} (hs : Sound w.toRecords) (hP : w.PhaseFacts φ)
    (hφ : DeadLetterFacts w.toRecords eventId (account env eventId w).deadLetters φ)
    (hwork : φ.writes = some q) (hallow : Allows env φ op) (hok : NoLateSuccess eventId w c op)
    (hexec : w.exec op c = some (r, w')) :
    DeadLetterFacts w'.toRecords eventId (account env eventId w').deadLetters (φ.next op r) := by
  have hfwd := (step_sound hs hP hallow hexec).2
  have hkept : (∀ input, op ≠ .upsertDeadLetter input) →
      DeadLetterFacts w'.toRecords eventId (account env eventId w').deadLetters φ := by
    intro hupsert
    rw [deadLetters_account hexec hupsert]
    exact hφ.mono hfwd
  cases hallow with
  | bury hready =>
      cases r with
      | error e => exact trivial
      | ok dead => exact deadLetterFacts_bury hs hfwd hP.1.event hP.2.1 hexec
  | fetch hp =>
      cases r with
      | error e => exact trivial
      | ok status => exact deadLetterFacts_post hok hexec
  | _ => cases r <;> first | (cases hwork; done) | exact trivial | exact hkept (by simp)

/-- **One operation keeps dead letters and closed rows in agreement.** -/
theorem deadLetter_step (hs : Sound w.toRecords) (hP : w.PhaseFacts φ)
    (hown : OwnInv env eventId w) (hrow : RowFacts eventId (w.rowsFor eventId env.receiverUrl) φ)
    (h : DeadLetterInv w.toRecords eventId (account env eventId w))
    (hφ : DeadLetterFacts w.toRecords eventId (account env eventId w).deadLetters φ)
    (hallow : Allows env φ op) (hok : NoLateSuccess eventId w c op)
    (hexec : w.exec op c = some (r, w')) :
    DeadLetterInv w'.toRecords eventId (account env eventId w') ∧
      DeadLetterFacts w'.toRecords eventId (account env eventId w').deadLetters
        (φ.next op r) := by
  by_cases hother : ∀ q, φ.writes = some q → q.eventId ≠ eventId
  · have hsame := account_same hs hP hallow hexec hother
    rw [hsame]
    exact ⟨h.mono (step_sound hs hP hallow hexec).2, deadLetterFacts_of_not fun q _ hq =>
      hother q (Phase.writes_of_counted_next hallow hq)⟩
  · push Not at hother
    obtain ⟨q, hq, hev⟩ := hother
    exact ⟨deadLetterInv_next hs hP hown hrow hφ hq hev hallow hexec,
      deadLetterFacts_next hs hP hφ hq hallow hok hexec⟩

end

/-! ## Runs -/

/-- The receiver accepts no webhook for the event once it has a dead letter. -/
def NoLateSuccessStep (eventId : JsString) (s : Sys) : PoolAction Choice Job ℚ → Prop
  | .step pid c => ∀ j op k, s.tasks pid = some ⟨j, .call op k⟩ →
      NoLateSuccess eventId s.world.world c op
  | _ => True

/-- The contract of a run without a late success. -/
def agreement (env : Env) (eventId : JsString) : (exclusive env eventId).contract.Extension where
  Inv s := DeadLetterInv s.world.toRecords eventId (account env eventId s.world)
  Facts _ _ φ s := DeadLetterFacts s.world.toRecords eventId
    (account env eventId s.world).deadLetters φ
  Apart _ _ := True
  Ok _ _ op c s := NoLateSuccess eventId s.world c op
  Fresh _ _ := True
  begins {pid j s p} _ _ _ _ := by
    change DeadLetterFacts _ eventId _ (firstPhase j s)
    obtain ⟨m, -, h⟩ | h | h | h | ⟨row, event, h⟩ := firstPhase_cases j s <;>
      (rw [h]; exact trivial)
  surroundings {dt s s'} hinv h := by
    obtain rfl := passTime_eq_some h
    exact ⟨hinv, fun _ hn => hn, fun _ _ _ hφ => hφ⟩
  call hs hP _ _ hinv hφ hallow hok hexec := by
    obtain ⟨hexec, -, -⟩ := device_exec hexec
    exact deadLetter_step hs.1 hP.1.1 hs.2 hP.2 hinv hφ hallow hok hexec
  frame hs hP hPψ hinv hap _ _ _ hallow _ hexec hψ := by
    obtain ⟨hexec, -, -⟩ := device_exec hexec
    have hfwd := (step_sound hs.1 hP.1.1 hallow hexec).2
    rcases account_same_or_apart hs.1 hP.1.1 hP.1.2 hPψ.1.1 hPψ.1.2 hap.2 hallow hexec with
      hsame | hne
    · rw [hsame]
      exact hψ.mono hfwd
    · exact deadLetterFacts_of_not fun q _ hq =>
        hne q (Phase.owns_of_writes (Phase.writes_of_counted hq))
  after hend hφ ha := by
    obtain ⟨m, ack, rfl, rfl, rfl, rfl⟩ := after_eq_some ha
    obtain ⟨-, q, d, rfl⟩ := hend
    exact hφ
  apart_after _ _ := trivial
  apart_symm _ := trivial
  fresh_succ _ := trivial
  fresh_call _ _ _ := trivial

theorem agreement_of_reached {env : Env} {eventId : JsString} {s : Sys}
    (h : Reached env (fun s a => ExclusiveStep eventId s a ∧ NoLateSuccessStep eventId s a) s) :
    (agreement env eventId).contract.Good s := by
  refine (agreement env eventId).contract.invariant ?_ ?_ h
  · intro s hs
    refine .of_empty ⟨(exclusive_start hs).inv, ?_⟩ ⟨⟨trivial, trivial⟩, trivial⟩ hs.tasks
    exact deadLetterInv_of_open (by simp [account, World.rowsFor, hs.deliveries])
  · intro s a hgood ha
    cases a with
    | spawn j =>
        exact fun pid t ht => ⟨apart_of_exclusiveStep hgood.numbered ha.1 pid t ht, trivial⟩
    | step pid c => exact fun j op k ht => ⟨⟨trivial, trivial⟩, ha.2 j op k ht⟩
    | _ => exact trivial

/-- In every run whose steps satisfy `ok`: once a message of the event has been deleted, the
event has one delivery row, and it is closed; there is a dead letter for it exactly if it is
`DEAD_LETTERED`, and that dead letter has the row's count and names the event's payload. -/
def DeadLettersAgree (env : Env) (eventId : JsString) (ok : Sys → PoolAction Choice Job ℚ → Prop) :
    Prop :=
  ∀ s, Reached env ok s → ∀ m ∈ s.world.world.deleted, ∀ q, parseQueueMessage m.body = some q →
    q.eventId = eventId →
      ∃ d ∈ s.world.world.rowsFor eventId env.receiverUrl,
        (∀ d' ∈ s.world.world.rowsFor eventId env.receiverUrl, d' = d) ∧
        d.status.terminal = true ∧
        ((∃ x ∈ s.world.world.deadLetters, x.deliveryId = d.id) ↔ d.status = .deadLettered) ∧
        ∀ x ∈ s.world.world.deadLetters, x.deliveryId = d.id →
          x.attemptCount = d.attemptCount ∧
          ∃ e ∈ s.world.world.events, e.id = eventId ∧
            x.payloadS3Key = keyOf (queueMessage e) ∧
            ∃ p, s.world.world.Carries e p ∧
              s.world.world.objects x.payloadS3Key = some p.stringify

/-- **Dead letters agree with deliveries** while one handler at a time works for the event and
the receiver accepts no webhook for it once it has a dead letter. -/
theorem dead_letters_agree (env : Env) (eventId : JsString) :
    DeadLettersAgree env eventId
      (fun s a => ExclusiveStep eventId s a ∧ NoLateSuccessStep eventId s a) := by
  intro s h m hm q hq hev
  have hgood := agreement_of_reached h
  have hs : Sound s.world.world.toRecords := hgood.inv.1.1
  have hown : OwnInv env eventId s.world.world := hgood.inv.1.2
  obtain ⟨d, hd, hterm⟩ := hown.deleted m hm q hq hev
  obtain ⟨hiff, hall⟩ := hgood.inv.2 d hd hterm
  obtain ⟨hmem, hdev, -⟩ := World.mem_rowsFor.mp hd
  -- a dead letter of this delivery is one of this event
  have hdead : ∀ x ∈ s.world.world.deadLetters, x.deliveryId = d.id →
      x ∈ (account env eventId s.world.world).deadLetters := by
    intro x hx hid
    obtain ⟨d', hd', hid', hev'⟩ := hs.deadDelivery x hx
    refine List.mem_filter.mpr ⟨hx, ?_⟩
    rw [beq_iff_eq, ← hev', hs.deliveriesUnique d' hd' d hmem (hid'.trans hid), hdev]
  refine ⟨d, hd, fun d' hd' => hown.unique d' hd' d hd, hterm, ⟨?_, ?_⟩, fun x hx hid => ?_⟩
  · rintro ⟨x, hx, hid⟩
    exact hiff.mp ⟨x, hdead x hx hid, hid⟩
  · intro hstatus
    obtain ⟨x, hx, hid⟩ := hiff.mpr hstatus
    exact ⟨x, List.mem_of_mem_filter hx, hid⟩
  · obtain ⟨hcount, e, he, heid, hkey⟩ := hall x (hdead x hx hid) hid
    -- the dead letter's text is that of the event's own payload
    refine ⟨hcount, e, he, heid, hkey, ?_⟩
    obtain ⟨e', he', heid', -, -, p, hp, hobj⟩ := hs.archived x hx
    have hsame : e' = e := by
      refine hs.eventsUnique e' he' e he ?_
      rw [heid', heid]
      simpa using List.of_mem_filter (hdead x hx hid)
    exact ⟨p, hsame ▸ hp, hobj⟩

/-- The only attempt fails; the dead letter is recorded, but not the status; the message is
received again, the receiver accepts, and the message is deleted. -/
def Sample.revived : List (PoolAction Choice Job ℚ) :=
  ingested ++ published 1 firstId ++ [.spawn (.deliver firstMessage)] ++
    calls 2 16 (choice firstId 500) ++ [.step 2 { fault := .before }, .finish 2] ++
    [.spawn (.deliver firstMessage)] ++ calls 3 15 (choice firstId 200) ++ [.finish 3] ++
    calls 3 2 (choice firstId 200)

/-- A `SUCCEEDED` delivery keeps the dead letter of an earlier attempt. -/
theorem dead_letter_of_success : ¬ DeadLettersAgree (Sample.env (some (.finite 1)))
    Sample.firstId (ExclusiveStep Sample.firstId) := by
  intro hclaim
  obtain ⟨s, hs, htest⟩ := Sample.exists_reached (Sample.env (some (.finite 1)))
    (ExclusiveStep Sample.firstId) (fun s a => decide (ExclusiveStep Sample.firstId s a))
    Sample.revived
    (fun s => decide (Sample.firstMessage ∈ s.world.world.deleted ∧
      ∀ d ∈ s.world.world.rowsFor Sample.firstId (js "http://receiver/hook"),
        d.status ≠ .deadLettered ∧ ∃ x ∈ s.world.world.deadLetters, x.deliveryId = d.id))
    (fun _ _ h => of_decide_eq_true h) (by decide +kernel)
  obtain ⟨hdeleted, hrows⟩ := of_decide_eq_true htest
  obtain ⟨d, hd, -, -, hiff, -⟩ := hclaim s hs _ hdeleted _
    (parseQueueMessage_messageBody (Sample.event Sample.firstId none)) rfl
  obtain ⟨hstatus, hdead⟩ := hrows d hd
  exact hstatus (hiff.mp hdead)
