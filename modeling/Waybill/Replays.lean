/-
# Replays

Any number of concurrent calls of `requestReplay`, for any tenants, dead letters and idempotency
keys, with any operation failing, also after its effect, and any call cut short.

* `ReplayInv` is what the replays that are committed satisfy: one for a key and one for a dead
  letter, each with one event and one outbox row, and nothing else is written.
* A call is answered from a replay of its own key (`ReplayFacts`), and replays stay as they are.
* `replays_once`: so all answers to one key agree, and say nothing of another dead letter.
-/
import Waybill.Calls
import Waybill.Api

open Api

/-! ## Calls -/

/-- Calls of `requestReplay`. -/
def replayCalls (env : Env) : Machine Services History Choice ReplayInput ReplayResponse ℚ :=
  callsOf (requestReplay env)

/-- Before the first call: no replays, and every outbox row refers to an event. -/
structure ReplaysBegin (w₀ : World) (s : Calls ReplayInput ReplayResponse) : Prop
    extends s.Start where
  world : s.world.world = w₀
  replays : w₀.replays = []
  outbox : ∀ o ∈ w₀.outbox, ∃ e ∈ w₀.events, e.id = o.eventId

/-- **Replays are idempotent and single**, in every run from `w₀`: `s` is any state, and `s'` the
same or a later one. -/
structure ReplaysOnce (w₀ : World) (s s' : Calls ReplayInput ReplayResponse) : Prop where
  /-- All successful answers to a key carry the same identifiers. -/
  same : ∀ p q j i x y, s.Returned p j x → s'.Returned q i y → j.tenantId = i.tenantId →
    j.idempotencyKey = i.idempotencyKey →
      x.replayId = y.replayId ∧ x.eventId = y.eventId ∧ x.deadLetterId = y.deadLetterId
  /-- There is one replay for a dead letter. -/
  single : ∀ deadLetterId,
    (s'.world.world.replays.filter (fun r => r.sourceDeadLetterId == deadLetterId)).length ≤ 1
  /-- A replay has one event and one outbox row. -/
  event : ∀ r ∈ s'.world.world.replays,
    (s'.world.world.events.filter (fun e => e.id == r.eventId)).length = 1 ∧
      (s'.world.world.outbox.filter (fun o => o.eventId == r.eventId)).length = 1
  /-- There are no other new events and outbox rows. -/
  orphans : ∃ events outbox, s'.world.world.events = events ++ w₀.events ∧
    s'.world.world.outbox = outbox ++ w₀.outbox ∧
    events.map Event.id = s'.world.world.replays.map Replay.eventId ∧
    outbox.map Outbox.eventId = s'.world.world.replays.map Replay.eventId
  /-- A key that was used for a dead letter is not answered for another. -/
  bound : ∀ r ∈ s.world.world.replays, ∀ q i y, s'.Returned q i y → i.tenantId = r.tenantId →
    i.idempotencyKey = r.idempotencyKey →
      i.deadLetterId = r.sourceDeadLetterId ∧ y.deadLetterId = r.sourceDeadLetterId
  /-- The delivery rows and the dead letters are as they were. -/
  unchanged : s'.world.world.deliveries = w₀.deliveries ∧
    s'.world.world.deadLetters = w₀.deadLetters

/-! ## The operations of a call -/

/-- What a call may do: it looks for replays and dead letters, reads an archive, and inserts a
replay of its own key. -/
inductive ReplayOp (input : ReplayInput) : Op → Prop
  | key : ReplayOp input (.findReplayByKey input.tenantId input.idempotencyKey)
  | source : ReplayOp input (.findReplaySource input.tenantId input.deadLetterId)
  | archive (key : JsString) : ReplayOp input (.getObject key)
  | insert (source : ReplaySource) : ReplayOp input (.insertReplay (newReplay input source))

/-- The replay an operation returned, if it returns replays; the one known before, if not. -/
def replayAfter (known : Option ReplayRecord) :
    (op : Op) → Except JsError op.Res → Option ReplayRecord
  | .findReplayByKey _ _, .ok found => found
  | .findReplayByKey _ _, .error _ => none
  | .insertReplay _, .ok record => some record
  | .insertReplay _, .error _ => none
  | _, _ => known

/-- A call with the replay it was told of last. -/
def replaying : Protocol Services where
  Phase := ReplayInput × Option ReplayRecord
  Allows φ op := ReplayOp φ.1 op
  next φ op r := (φ.1, replayAfter φ.2 op r)

/-- A successful answer is that of the replay the call was told of last. -/
def Answers (input : ReplayInput) :
    Except JsError ReplayResponse → ReplayInput × Option ReplayRecord → Prop
  | .ok x, φ => ∃ record, φ = (input, some record) ∧ x.replayId = record.replay.id ∧
      x.eventId = record.replay.eventId ∧ x.deadLetterId = record.replay.sourceDeadLetterId ∧
      record.replay.sourceDeadLetterId = input.deadLetterId
  | .error _, φ => φ.1 = input

section

variable {input : ReplayInput} {known : Option ReplayRecord}

/-- The answer of a replay. -/
theorem answers_response (record : ReplayRecord) :
    replaying.Follows (response record input.deadLetterId) (input, some record)
      (Answers input) := by
  unfold response
  by_cases hne : record.replay.sourceDeadLetterId ≠ input.deadLetterId
  · rw [if_pos hne]
    exact rfl
  · rw [if_neg hne]
    exact ⟨record, rfl, rfl, rfl, rfl, not_not.mp hne⟩

/-- Reading an archive. -/
theorem follows_archive (key : JsString) :
    replaying.Follows (readArchivedPayload key) (input, known) (fun _ φ => φ = (input, known)) := by
  unfold readArchivedPayload
  refine Protocol.Follows.bind (M := fun _ φ => φ = (input, known)) ?_ ?_ (fun _ _ h => h)
  · refine (Protocol.follows_attempt _ _ _).mpr ⟨.archive key, fun r => ?_⟩
    cases r <;> exact rfl
  · rintro object φ rfl
    cases object with
    | error e =>
        show replaying.Follows (ite _ _ _) _ _
        split_ifs <;> exact rfl
    | ok text =>
        cases text with
        | none => exact rfl
        | some text =>
            show replaying.Follows (ite _ _ _) _ _
            split_ifs
            · exact rfl
            · cases Json.parse text <;> exact rfl

/-- The transaction, and what is made of it. -/
theorem answers_createReplay (archiveKey targetUrl : JsString) :
    replaying.Follows (createReplay input archiveKey targetUrl >>= replayResult input)
      (input, known) (Answers input) := by
  unfold createReplay
  simp only [bind_assoc]
  refine ⟨.key, fun existing => ?_⟩
  cases existing with
  | error e => exact rfl
  | ok existing =>
      cases existing with
      | some record => exact answers_response record
      | none =>
          refine ⟨.source, fun found => ?_⟩
          cases found with
          | error e => exact rfl
          | ok found =>
              cases found with
              | none => exact rfl
              | some source =>
                  show replaying.Follows (ite _ _ _ >>= _) _ _
                  split_ifs
                  · exact rfl
                  · refine ⟨.insert source, fun r => ?_⟩
                    cases r with
                    | error e => exact rfl
                    | ok record => exact answers_response record

/-- The commit, and the look at the winner. -/
theorem answers_commitReplay (archiveKey targetUrl : JsString) :
    replaying.Follows (commitReplay input archiveKey targetUrl) (input, known)
      (Answers input) := by
  unfold commitReplay
  refine Protocol.Follows.bind
    (M := fun r φ => ∃ result, r = .ok result ∧ Answers input result φ) ?_ ?_ ?_
  · refine (Protocol.follows_attempt _ _ _).mpr ?_
    exact (answers_createReplay archiveKey targetUrl).imp fun result _ h => ⟨result, rfl, h⟩
  · rintro result ⟨i, known'⟩ ⟨_, ⟨rfl⟩, hanswer⟩
    cases result with
    | ok x => exact hanswer
    | error e =>
        obtain rfl : i = input := hanswer
        show replaying.Follows (ite _ _ _) _ _
        split_ifs
        · refine ⟨.key, fun repeated => ?_⟩
          cases repeated with
          | error e => exact rfl
          | ok repeated =>
              cases repeated with
              | none => exact rfl
              | some record => exact answers_response record
        · exact rfl
  · rintro e φ ⟨_, h, -⟩
    cases h

/-- A key that was not used before. -/
theorem answers_replaySource (env : Env) :
    replaying.Follows (replaySource env input) (input, known) (Answers input) := by
  unfold replaySource
  refine ⟨.source, fun found => ?_⟩
  cases found with
  | error e => exact rfl
  | ok found =>
      cases found with
      | none => exact rfl
      | some source =>
          show replaying.Follows (ite _ _ _) _ _
          split_ifs
          · exact rfl
          · exact rfl
          · exact rfl
          · exact rfl
          · refine (follows_archive _).bind ?_ ?_
            · rintro _ φ rfl
              exact answers_commitReplay _ _
            · rintro e φ rfl
              exact rfl

/-- **`requestReplay`** answers from the replay it was told of last. -/
theorem answers_requestReplay (env : Env) (input : ReplayInput) :
    replaying.Follows (requestReplay env input) (input, none) (Answers input) := by
  unfold requestReplay
  refine Protocol.Follows.bind
    (M := fun r φ => ∃ result, r = .ok result ∧ Answers input result φ) ?_ ?_ ?_
  · refine (Protocol.follows_attempt _ _ _).mpr ⟨.key, fun existing => ?_⟩
    cases existing with
    | error e => exact ⟨_, rfl, rfl⟩
    | ok existing =>
        cases existing with
        | some record => exact (answers_response record).imp fun result _ h => ⟨result, rfl, h⟩
        | none => exact (answers_replaySource env).imp fun result _ h => ⟨result, rfl, h⟩
  · rintro result φ ⟨_, ⟨rfl⟩, hanswer⟩
    cases result with
    | ok x => exact hanswer
    | error e => exact hanswer
  · rintro e φ ⟨_, h, -⟩
    cases h

end

/-! ## What holds of the replays -/

/-- The key of a replay. -/
def Replay.key (r : Replay) : JsString × JsString := (r.tenantId, r.idempotencyKey)

/-- **The committed replays**: one for each key and each dead letter, with an event and an outbox
row of its own beside the rows of `w₀`; those of `kept` are among them. -/
structure ReplayInv (w₀ : World) (kept : List Replay) (w : World) : Prop where
  keys : (w.replays.map Replay.key).Nodup
  sources : (w.replays.map Replay.sourceDeadLetterId).Nodup
  distinct : (w.replays.map Replay.eventId).Nodup
  fresh : ∀ r ∈ w.replays, ∀ e ∈ w₀.events, e.id ≠ r.eventId
  events : ∃ events, w.events = events ++ w₀.events ∧
    events.map Event.id = w.replays.map Replay.eventId
  outbox : ∃ rows, w.outbox = rows ++ w₀.outbox ∧
    rows.map Outbox.eventId = w.replays.map Replay.eventId
  kept : ∀ r ∈ kept, r ∈ w.replays
  deliveries : w.deliveries = w₀.deliveries
  deadLetters : w.deadLetters = w₀.deadLetters

/-- The replay a call was told of is one of its key. -/
def ReplayFacts (input : ReplayInput) (φ : ReplayInput × Option ReplayRecord) (w : World) : Prop :=
  φ.1 = input ∧ ∀ record, φ.2 = some record → record.replay ∈ w.replays ∧
    record.replay.tenantId = input.tenantId ∧ record.replay.idempotencyKey = input.idempotencyKey

section

variable {w₀ w w' : World} {kept : List Replay} {h h' : History} {op : Op} {c : Choice}
  {r : Except JsError op.Res} {pid : ℕ} {input : ReplayInput}

/-- Operations that leave the tables alone. -/
theorem ReplayInv.of_same (hinv : ReplayInv w₀ kept w) (hevents : w'.events = w.events)
    (houtbox : w'.outbox = w.outbox) (hreplays : w'.replays = w.replays)
    (hdeliveries : w'.deliveries = w.deliveries) (hdead : w'.deadLetters = w.deadLetters) :
    ReplayInv w₀ kept w' := by
  obtain ⟨hkeys, hsources, hdistinct, hfresh, hev, hout, hkept, hdel, hdl⟩ := hinv
  rw [← hreplays] at hkeys hsources hdistinct hfresh hev hout hkept
  exact ⟨hkeys, hsources, hdistinct, hfresh, hevents ▸ hev, houtbox ▸ hout, hkept,
    hdeliveries ▸ hdel, hdead ▸ hdl⟩

/-- Reading operations leave all of them alone. -/
theorem ReplayInv.of_records (hinv : ReplayInv w₀ kept w) (hw : w'.toRecords = w.toRecords) :
    ReplayInv w₀ kept w' :=
  hinv.of_same (congrArg Records.events hw) (congrArg Records.outbox hw)
    (congrArg Records.replays hw) (congrArg Records.deliveries hw)
    (congrArg Records.deadLetters hw)

/-- A new replay, of a key and a dead letter that have none. -/
theorem ReplayInv.insert (hinv : ReplayInv w₀ kept w) {row : Replay} {event : Event}
    {outbox : Outbox} (hevents : w'.events = event :: w.events) (hevent : event.id = row.eventId)
    (houtbox : w'.outbox = outbox :: w.outbox) (hout : outbox.eventId = row.eventId)
    (hreplays : w'.replays = row :: w.replays) (hfresh : ∀ e ∈ w.events, e.id ≠ row.eventId)
    (hnew : ∀ x ∈ w.replays, x.sourceDeadLetterId ≠ row.sourceDeadLetterId ∧
      ¬ (x.tenantId = row.tenantId ∧ x.idempotencyKey = row.idempotencyKey))
    (hdeliveries : w'.deliveries = w.deliveries) (hdead : w'.deadLetters = w.deadLetters) :
    ReplayInv w₀ kept w' := by
  obtain ⟨events, hsplit, hids⟩ := hinv.events
  obtain ⟨rows, hrows, howners⟩ := hinv.outbox
  constructor
  · rw [hreplays, List.map_cons, List.nodup_cons]
    refine ⟨?_, hinv.keys⟩
    intro hmem
    obtain ⟨x, hx, hkey⟩ := List.mem_map.mp hmem
    obtain ⟨htenant, hidem⟩ := Prod.mk.inj hkey
    exact (hnew x hx).2 ⟨htenant, hidem⟩
  · rw [hreplays, List.map_cons, List.nodup_cons]
    refine ⟨?_, hinv.sources⟩
    intro hmem
    obtain ⟨x, hx, hsource⟩ := List.mem_map.mp hmem
    exact (hnew x hx).1 hsource
  · rw [hreplays, List.map_cons, List.nodup_cons]
    refine ⟨?_, hinv.distinct⟩
    intro hmem
    rw [← hids] at hmem
    obtain ⟨e, he, hid⟩ := List.mem_map.mp hmem
    exact hfresh e (hsplit ▸ List.mem_append_left _ he) hid
  -- every row's event is new
  · rw [hreplays]
    intro x hx e he
    rcases List.mem_cons.mp hx with rfl | hx
    · exact hfresh e (hsplit ▸ List.mem_append_right _ he)
    · exact hinv.fresh x hx e he
  · refine ⟨event :: events, ?_, ?_⟩
    · rw [hevents, hsplit, List.cons_append]
    · rw [hreplays, List.map_cons, List.map_cons, hids, hevent]
  · refine ⟨outbox :: rows, ?_, ?_⟩
    · rw [houtbox, hrows, List.cons_append]
    · rw [hreplays, List.map_cons, List.map_cons, howners, hout]
  · intro x hx
    rw [hreplays]
    exact List.mem_cons_of_mem _ (hinv.kept x hx)
  · rw [hdeliveries, hinv.deliveries]
  · rw [hdead, hinv.deadLetters]

/-- **One operation of a call**: replays are only added, and the call is told of replays of its
key. -/
theorem replay_step {φ : ReplayInput × Option ReplayRecord} (hinv : ReplayInv w₀ kept h.world)
    (hφ : ReplayFacts input φ h.world) (hallow : ReplayOp φ.1 op)
    (hexec : chronicle.exec pid op c h = some (r, h')) :
    ReplayInv w₀ kept h'.world ∧ (∀ x ∈ h.world.replays, x ∈ h'.world.replays) ∧
      ReplayFacts input (φ.1, replayAfter φ.2 op r) h'.world := by
  obtain ⟨hworld, -⟩ := chronicle_exec hexec
  obtain ⟨i, known⟩ := φ
  obtain ⟨rfl, hknown⟩ := hφ
  have hquiet : op.isSilent = true → h'.world.toRecords = h.world.toRecords :=
    fun hsilent => World.records_of_silent hsilent hworld
  cases hallow with
  -- a row that is found stays known
  | key =>
      have hrecords := hquiet rfl
      have hreplays : h'.world.replays = h.world.replays := congrArg Records.replays hrecords
      refine ⟨hinv.of_records hrecords, fun x hx => hreplays ▸ hx, rfl, ?_⟩
      rw [hreplays]
      cases r with
      | error e =>
          intro record hrecord
          cases hrecord
      | ok found =>
          rintro record rfl
          exact World.exec_findReplayByKey hworld
  | source =>
      have hrecords := hquiet rfl
      have hreplays : h'.world.replays = h.world.replays := congrArg Records.replays hrecords
      exact ⟨hinv.of_records hrecords, fun x hx => hreplays ▸ hx, rfl, hreplays ▸ hknown⟩
  | archive key =>
      have hrecords := hquiet rfl
      have hreplays : h'.world.replays = h.world.replays := congrArg Records.replays hrecords
      exact ⟨hinv.of_records hrecords, fun x hx => hreplays ▸ hx, rfl, hreplays ▸ hknown⟩
  -- the transaction commits, or a unique key was taken
  | insert source =>
      have hdeliveries := World.deliveries_of_exec hworld (fun _ h => nomatch h)
        (fun _ _ h => nomatch h)
      have hdead := World.deadLetters_of_exec hworld (fun _ h => nomatch h)
      rcases World.exec_insertReplay hworld with
        ⟨hevents, houtbox, hreplays, e, rfl⟩ |
        ⟨⟨event, hevents, hid⟩, houtbox, hreplays, hfresh, hnew, hrow⟩
      · refine ⟨hinv.of_same hevents houtbox hreplays hdeliveries hdead,
          fun x hx => hreplays ▸ hx, rfl, fun record hrecord => ?_⟩
        cases hrecord
      · refine ⟨hinv.insert hevents hid houtbox rfl hreplays hfresh hnew hdeliveries hdead, ?_,
          rfl, ?_⟩
        · intro x hx
          rw [hreplays]
          exact List.mem_cons_of_mem _ hx
        · cases r with
          | error e =>
              intro record hrecord
              cases hrecord
          | ok record =>
              rintro _ ⟨rfl⟩
              rw [hrow record rfl, hreplays]
              exact ⟨List.mem_cons_self, rfl, rfl⟩

end

/-- **Calls of `requestReplay`** from the tables of `w₀` on. -/
def replayContract (env : Env) (w₀ : World) (kept : List Replay) :
    Contract (replayCalls env) replaying where
  Inv h := ReplayInv w₀ kept h.world
  first j _ := (j, none)
  -- what a handler knows is the request it works on and the row it has seen
  Facts _ j φ h := ReplayFacts j φ h.world
  End := Answers
  Apart _ _ := True
  Ok _ _ _ _ _ := True
  Fresh _ _ := True
  follows hb := by
    obtain rfl := Option.some.inj hb
    exact answers_requestReplay env _
  begins _ _ _ := ⟨rfl, fun _ h => nomatch h⟩
  surroundings hinv hs := by
    obtain rfl := History.passTime_eq_some hs
    exact ⟨hinv.of_records rfl, fun _ h => h, fun _ _ _ h => h⟩
  call hinv hφ hallow _ hexec := by
    obtain ⟨hinv', -, hfacts⟩ := replay_step hinv hφ hallow hexec
    exact ⟨hinv', hfacts⟩
  frame hinv _ _ hφ hallow _ hexec hψ := by
    obtain ⟨-, hgrow, -⟩ := replay_step hinv hφ hallow hexec
    refine ⟨hψ.1, fun record hrecord => ?_⟩
    obtain ⟨hmem, hkey⟩ := hψ.2 record hrecord
    exact ⟨hgrow _ hmem, hkey⟩
  goes_on hend _ ha := by
    obtain ⟨rfl, rfl⟩ := Prod.mk.inj (Option.some.inj ha)
    exact hend
  after _ hφ ha := by
    obtain ⟨rfl, -⟩ := Prod.mk.inj (Option.some.inj ha)
    exact hφ
  apart_after _ h := h
  apart_symm h := h
  fresh_succ h := h
  fresh_call _ h _ := h

/-! ## Runs -/

section

variable {env : Env} {w₀ : World} {kept : List Replay}
  {s s' : Calls ReplayInput ReplayResponse}

theorem replays_permitted (a : PoolAction Choice ReplayInput ℚ) :
    (replayContract env w₀ kept).Permits s a := by
  cases a with
  | spawn j => exact fun _ _ _ => trivial
  | step pid c => exact fun _ _ _ _ => trivial
  | _ => exact trivial

/-- The tables of a run's state, and where its calls stand. -/
theorem good_of_replays
    (h : Run (ReplaysBegin w₀) (replayCalls env).step (fun _ _ => True) s) :
    (replayContract env w₀ []).Good s := by
  refine (replayContract env w₀ []).invariant ?_ (fun _ a _ _ => replays_permitted a) h
  intro s hs
  refine .of_empty ?_ trivial hs.tasks
  rw [show (replayContract env w₀ []).Inv s.world = ReplayInv w₀ [] s.world.world from rfl,
    hs.world]
  constructor
  all_goals try rw [hs.replays]
  · exact List.nodup_nil
  · exact List.nodup_nil
  · exact List.nodup_nil
  · intro r hr
    cases hr
  · exact ⟨[], rfl, rfl⟩
  · exact ⟨[], rfl, rfl⟩
  · intro r hr
    cases hr
  · rfl
  · rfl

/-- A later state still has the replays of an earlier one. -/
theorem good_of_later (hgood : (replayContract env w₀ []).Good s)
    (h : Run (fun x => x = s) (replayCalls env).step (fun _ _ => True) s') :
    (replayContract env w₀ s.world.world.replays).Good s' := by
  refine (replayContract env w₀ _).invariant ?_ (fun _ a _ _ => replays_permitted a) h
  intro x hx
  rw [hx]
  have hinv : ReplayInv w₀ [] s.world.world := hgood.inv
  exact ⟨{ hinv with kept := fun _ hr => hr }, hgood.fresh, hgood.numbered, hgood.stands,
    hgood.apart⟩

/-- **A successful answer** is that of a replay of the call's key and dead letter. -/
theorem replay_of_returned (hgood : (replayContract env w₀ kept).Good s) {pid : ℕ}
    {input : ReplayInput} {x : ReplayResponse} (h : s.Returned pid input x) :
    ∃ r ∈ s.world.world.replays, r.tenantId = input.tenantId ∧
      r.idempotencyKey = input.idempotencyKey ∧ r.sourceDeadLetterId = input.deadLetterId ∧
      x.replayId = r.id ∧ x.eventId = r.eventId ∧ x.deadLetterId = r.sourceDeadLetterId := by
  obtain ⟨φ, hend, hφ⟩ := hgood.stands pid _ h
  obtain ⟨record, rfl, hid, hevent, hdead, hsource⟩ := hend
  obtain ⟨hmem, htenant, hkey⟩ := hφ.2 record rfl
  exact ⟨record.replay, hmem, htenant, hkey, hsource, hid, hevent, hdead⟩

/-- Replays of one key are the same. -/
theorem ReplayInv.unique {w : World} (hinv : ReplayInv w₀ kept w) {r x : Replay}
    (hr : r ∈ w.replays) (hx : x ∈ w.replays) (htenant : r.tenantId = x.tenantId)
    (hkey : r.idempotencyKey = x.idempotencyKey) : r = x :=
  List.inj_on_of_nodup_map hinv.keys hr hx (Prod.ext htenant hkey)

/-- What is there once among new rows, and not among the old ones. -/
theorem length_filter_eq_one {α : Type} {key : α → JsString} {new old : List α} {k : JsString}
    (hnodup : (new.map key).Nodup) (hmem : k ∈ new.map key) (hold : ∀ x ∈ old, key x ≠ k) :
    ((new ++ old).filter (fun x => key x == k)).length = 1 := by
  have hnone : old.filter (fun x => key x == k) = [] := by
    rw [List.filter_eq_nil_iff]
    intro x hx
    simpa using hold x hx
  rw [List.filter_append, hnone, List.append_nil, ← List.countP_eq_length_filter]
  have hcount := List.count_eq_one_of_mem hnodup hmem
  rw [List.count, List.countP_map] at hcount
  exact hcount

end

/-- **Replays are idempotent and single**, whatever fails and in whatever order the calls are
performed. -/
theorem replays_once (env : Env) (w₀ : World) (s s' : Calls ReplayInput ReplayResponse)
    (h : Run (ReplaysBegin w₀) (replayCalls env).step (fun _ _ => True) s)
    (hlater : Run (fun x => x = s) (replayCalls env).step (fun _ _ => True) s') :
    ReplaysOnce w₀ s s' := by
  have hgood := good_of_replays h
  have hgood' := good_of_later hgood hlater
  have hinv : ReplayInv w₀ s.world.world.replays s'.world.world := hgood'.inv
  obtain ⟨s₀, hbegin⟩ := h.exists_start
  obtain ⟨events, hevents, hids⟩ := hinv.events
  obtain ⟨rows, hrows, howners⟩ := hinv.outbox
  constructor
  -- answers to the same tenant and key are read off the one stored row
  · intro p q j i x y hp hq htenant hkey
    obtain ⟨r, hr, hrt, hrk, -, hx, hxe, hxd⟩ := replay_of_returned hgood hp
    obtain ⟨r', hr', hrt', hrk', -, hy, hye, hyd⟩ := replay_of_returned hgood' hq
    obtain rfl : r = r' := hinv.unique (hinv.kept r hr) hr' (by rw [hrt, hrt', htenant])
      (by rw [hrk, hrk', hkey])
    exact ⟨by rw [hx, hy], by rw [hxe, hye], by rw [hxd, hyd]⟩
  -- a dead letter is the source of at most one row
  · intro deadLetterId
    have hle := List.nodup_iff_count_le_one.mp hinv.sources deadLetterId
    rw [List.count, List.countP_map, List.countP_eq_length_filter] at hle
    exact hle
  -- the event of a row is new, so no older event or outbox row has its identifier
  · intro r hr
    have hmem : r.eventId ∈ s'.world.world.replays.map Replay.eventId := List.mem_map_of_mem hr
    constructor
    · rw [hevents]
      refine length_filter_eq_one (hids ▸ hinv.distinct) (hids ▸ hmem) ?_
      exact hinv.fresh r hr
    · rw [hrows]
      refine length_filter_eq_one (howners ▸ hinv.distinct) (howners ▸ hmem) ?_
      intro o ho heq
      obtain ⟨e, he, hid⟩ := hbegin.outbox o ho
      exact hinv.fresh r hr e he (hid.trans heq)
  · exact ⟨events, rows, hevents, hrows, hids, howners⟩
  -- a request that comes later with the key of a row is answered by it
  · intro r hr q i y hq htenant hkey
    obtain ⟨r', hr', hrt', hrk', hsource, -, -, hyd⟩ := replay_of_returned hgood' hq
    obtain rfl : r = r' := hinv.unique (hinv.kept r hr) hr' (by rw [hrt', htenant])
      (by rw [hrk', hkey])
    exact ⟨hsource.symm, hyd⟩
  · exact ⟨hinv.deliveries, hinv.deadLetters⟩

/-! ## A repeated request -/

namespace Sample

/-- The event of the small world, which could not be delivered. -/
def exhausted : Delivery :=
  { id := secondId, eventId := firstId, tenantId := tenantId, targetUrl := js "http://receiver/hook"
    status := .deadLettered, attemptCount := 8, lastAttemptAt := some 900, nextAttemptAt := none
    lastError := none, createdAt := 800 }

def letter : DeadLetter :=
  { id := js "letter", eventId := firstId, deliveryId := secondId, tenantId := tenantId
    targetUrl := js "http://receiver/hook", lastError := none, attemptCount := 8
    payloadS3Key := js "archive", createdAt := 900 }

/-- A world with the dead letter and its archive. -/
def archived : World :=
  { start.world.world with
    events := [event firstId none]
    deliveries := [exhausted]
    deadLetters := [letter]
    objects := fun key => if key = js "archive" then some (js "null") else none }

/-- A request for a replay. -/
def replayInput : ReplayInput :=
  { tenantId := tenantId, deadLetterId := js "letter", idempotencyKey := js "once" }

/-- A call that replays the dead letter. -/
def replayedOnce : List (PoolAction Choice ReplayInput ℚ) :=
  .spawn replayInput :: List.replicate 6 (.step 0 (choice secondId 200))

/-- The same request once more. -/
def requestedAgain : List (PoolAction Choice ReplayInput ℚ) := [.spawn replayInput, .step 1 {}]

end Sample

/-- Both of two equal requests succeed. -/
theorem replays_once_repeated : ∃ s s' : Calls ReplayInput ReplayResponse,
    (∃ j x, s.Returned 0 j x) ∧ (∃ j x, s'.Returned 1 j x) ∧
      ReplaysOnce Sample.archived s s' := by
  have hplay : (Run.play (replayCalls (Sample.env none)).step (fun _ _ => true) Sample.replayedOnce
      { world := { world := Sample.archived, deeds := [] }, tasks := fun _ => none
        spawned := 0 }).any (fun s : Calls ReplayInput ReplayResponse =>
          Sample.hasReturned s 0 &&
            (Run.play (replayCalls (Sample.env none)).step (fun _ _ => true)
                Sample.requestedAgain s).any
              (fun s' : Calls ReplayInput ReplayResponse => Sample.hasReturned s' 1)) = true := by
    decide +kernel
  have hbegin : ReplaysBegin Sample.archived
      { world := { world := Sample.archived, deeds := [] }, tasks := fun _ => none
        spawned := 0 } :=
    ⟨⟨rfl, fun _ => rfl, rfl⟩, rfl, rfl, by decide +kernel⟩
  obtain ⟨s, hs, htest⟩ := Run.exists_of_play (fun _ _ _ => trivial) hbegin hplay
  rw [Bool.and_eq_true] at htest
  obtain ⟨s', hs', htest'⟩ := Run.exists_of_play_from (fun _ _ _ => trivial) htest.2
  exact ⟨s, s', Sample.returned_of_check htest.1, Sample.returned_of_check htest',
    replays_once (Sample.env none) Sample.archived s s' hs hs'⟩
