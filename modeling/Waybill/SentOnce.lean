/-
# No row is sent twice

In a run in which sends are confirmed, marks commit and no process dies within a tick, every
row sent so far is marked as published or in the hands of a call that is still under way, and
only the leader has such calls (`Accounted`).  The rows that the leader finds unpublished are
therefore in nobody's hands, and a tick sends each of them once.
-/
import Waybill.Effects
import Waybill.Leadership
import Waybill.System

namespace OutboxPoller

/-! ## Smooth runs -/

/-- The failures that are left to the operations of `publishOne`: a mark may only fail after it
has taken effect. -/
def Confirmed (c : Choice) : Op → Prop
  | .sendMessage .. => c.fault = .none
  | .markPublished .. => c.fault ≠ .before
  | _ => True

/-- Sends are confirmed, marks commit, and no process dies within a tick. -/
def Smooth (s : Cluster) : ClusterEvent → Prop
  | .publish pid i c => ∀ p x op k, s.processes pid = some p → p.sending[i]? = some x →
      x.call = .call op k → Confirmed c op
  | .crash pid => ∀ p, s.processes pid = some p → ¬ p.Ticking
  | _ => True

/-! ## The rows -/

/-- The row with this identifier is marked. -/
def Marked (w : World) (id : JsString) : Prop := ∀ o ∈ w.outbox, o.id = id → o.published = true

/-- There is a row with this identifier. -/
def Known (w : World) (id : JsString) : Prop := ∃ o ∈ w.outbox, o.id = id

/-- What `publishOne` does after the send. -/
def afterSend (row : Outbox) : Async Unit := do
  let _ ← Publisher.markPublished row.id
  return ()

/-- What it does after it has looked at the clock. -/
def afterClock (row : Outbox) (t : ℚ) : Async Unit := do
  let _ ← Services.updatePublished row.id t
  return ()

/-- How far a call of `publishOne` has come: nothing was sent, or the row is to be marked, or
it is marked and the call has ended. -/
def Stage (w : World) (sends : List JsString) (x : Sending) : Prop :=
  (x.call = Publisher.publishOne x.row x.event ∧ x.row.id ∉ sends) ∨
    x.call = afterSend x.row ∨ (∃ t, x.call = afterClock x.row t) ∨
    (x.settled = true ∧ Marked w x.row.id)

/-- What the leader relies on in a tick. -/
def TickFacts (w : World) (sends : List JsString) (sending : List Sending) : LeaderPhase → Prop
  | .standby => True
  | .holding => True
  | .selected ids => ids.Nodup
  | .found ids rows => ids.Nodup ∧ ∀ r ∈ rows, Known w r.row.id ∧ r.row.id ∉ sends
  | .publishing => (sending.map (fun x => x.row.id)).Nodup ∧
      ∀ x ∈ sending, Known w x.row.id ∧ Stage w sends x

/-- A process stands in a phase, and its tick is in order. -/
def StandsWell (s : Cluster) (pid : ℕ) (p : PublisherProcess) : Prop :=
  ∃ φ, leaderProtocol.Follows p.prog φ (fun _ ψ => ψ.idle) ∧ LeaderFacts s pid p φ ∧
    TickFacts s.world s.sends p.sending φ

/-- **Where the rows are that were sent**: each was sent once, and is marked or in the hands
of a call under way. -/
structure Accounted (s : Cluster) : Prop where
  distinct : (s.world.outbox.map Outbox.id).Nodup
  once : s.sends.Nodup
  known : ∀ id ∈ s.sends, Known s.world id
  placed : ∀ id ∈ s.sends, Marked s.world id ∨ ∃ pid p, s.processes pid = some p ∧
    ∃ x ∈ p.sending, x.row.id = id ∧ x.settled = false
  numbered : ∀ pid p, s.processes pid = some p → pid < s.spawned
  stands : ∀ pid p, s.processes pid = some p → StandsWell s pid p

theorem StandsWell.stands {s : Cluster} {pid : ℕ} {p : PublisherProcess}
    (h : StandsWell s pid p) : Stands s pid p := by
  obtain ⟨φ, hfollows, hfacts, -⟩ := h
  exact ⟨φ, hfollows, hfacts⟩

theorem Accounted.led {s : Cluster} (h : Accounted s) : Led s :=
  ⟨h.numbered, fun pid p hp => (h.stands pid p hp).stands⟩

/-! ## The tables -/

/-- New rows are unknown so far. -/
def OutboxGrows (w w' : World) : Prop :=
  w'.outbox = w.outbox ∨ ∃ o, w'.outbox = o :: w.outbox ∧ ∀ o' ∈ w.outbox, o'.id ≠ o.id

section

variable {w w' : World} {id : JsString} {sends : List JsString} {sending : List Sending}
  {φ : LeaderPhase}

theorem Known.grow (h : Known w id) (hgrow : OutboxGrows w w') : Known w' id := by
  obtain ⟨o, ho, hid⟩ := h
  rcases hgrow with hsame | ⟨o', hnew, -⟩
  · exact ⟨o, hsame ▸ ho, hid⟩
  · exact ⟨o, hnew ▸ List.mem_cons_of_mem _ ho, hid⟩

theorem Marked.grow (h : Marked w id) (hknown : Known w id) (hgrow : OutboxGrows w w') :
    Marked w' id := by
  intro o ho hid
  rcases hgrow with hsame | ⟨o', hnew, hfresh⟩
  · exact h o (hsame ▸ ho) hid
  · rw [hnew] at ho
    rcases List.mem_cons.mp ho with rfl | ho
    · obtain ⟨x, hx, hxid⟩ := hknown
      exact absurd (hxid.trans hid.symm) (hfresh x hx)
    · exact h o ho hid

theorem OutboxGrows.distinct (hgrow : OutboxGrows w w')
    (h : (w.outbox.map Outbox.id).Nodup) : (w'.outbox.map Outbox.id).Nodup := by
  rcases hgrow with hsame | ⟨o, hnew, hfresh⟩
  · rw [hsame]
    exact h
  · rw [hnew, List.map_cons, List.nodup_cons]
    refine ⟨fun hmem => ?_, h⟩
    obtain ⟨o', ho', hid⟩ := List.mem_map.mp hmem
    exact hfresh o' ho' hid

/-- A call stays at its stage while rows are added. -/
theorem Stage.grow {x : Sending} (h : Stage w sends x) (hknown : Known w x.row.id)
    (hgrow : OutboxGrows w w') : Stage w' sends x := by
  rcases h with hunsent | hsend | hclock | ⟨hsettled, hmarked⟩
  · exact .inl hunsent
  · exact .inr (.inl hsend)
  · exact .inr (.inr (.inl hclock))
  · exact .inr (.inr (.inr ⟨hsettled, hmarked.grow hknown hgrow⟩))

/-- A tick does not notice new rows. -/
theorem TickFacts.grow (h : TickFacts w sends sending φ) (hgrow : OutboxGrows w w') :
    TickFacts w' sends sending φ := by
  cases φ with
  | standby => exact h
  | holding => exact h
  | selected ids => exact h
  | found ids rows => exact ⟨h.1, fun r hr => ⟨(h.2 r hr).1.grow hgrow, (h.2 r hr).2⟩⟩
  | publishing =>
      exact ⟨h.1, fun x hx => ⟨(h.2 x hx).1.grow hgrow, (h.2 x hx).2.grow (h.2 x hx).1 hgrow⟩⟩

end

/-- The other services keep the account. -/
theorem Accounted.grow {s s' : Cluster} (h : Accounted s) (hprocesses : s'.processes = s.processes)
    (hspawned : s'.spawned = s.spawned) (hlock : s'.lock = s.lock) (hsends : s'.sends = s.sends)
    (hgrow : OutboxGrows s.world s'.world) : Accounted s' where
  distinct := hgrow.distinct h.distinct
  once := hsends ▸ h.once
  known := by
    rw [hsends]
    exact fun id hid => (h.known id hid).grow hgrow
  placed := by
    rw [hsends, hprocesses]
    intro id hid
    rcases h.placed id hid with hmarked | hheld
    · exact .inl (hmarked.grow (h.known id hid) hgrow)
    · exact .inr hheld
  numbered := by
    rw [hprocesses, hspawned]
    exact h.numbered
  stands := by
    rw [hprocesses]
    intro pid p hp
    obtain ⟨φ, hfollows, hfacts, htick⟩ := h.stands pid p hp
    refine ⟨φ, hfollows, ?_, ?_⟩
    · unfold LeaderFacts
      rw [hlock]
      exact hfacts
    · rw [hsends]
      exact htick.grow hgrow

/-! ## The queries -/

/-- Filtering keeps the keys in their order. -/
theorem map_filterMap_sublist {α β κ : Type} {f : α → Option β} {keyOf : α → κ}
    {keyOf' : β → κ} (h : ∀ a b, f a = some b → keyOf' b = keyOf a) (l : List α) :
    ((l.filterMap f).map keyOf').Sublist (l.map keyOf) := by
  induction l with
  | nil => exact List.Sublist.slnil
  | cons a rest ih =>
      rw [List.filterMap_cons, List.map_cons]
      cases hfa : f a with
      | none => exact ih.cons _
      | some b =>
          rw [List.map_cons, h a b hfa]
          exact ih.cons_cons _

/-- The ranking query selects no row twice. -/
theorem nodup_rankPending (collation : LinearOrder JsString) {w : World}
    (h : (w.outbox.map Outbox.id).Nodup) (limit : ℕ) (afterTenantId : JsString) :
    (rankPending collation w limit afterTenantId).Nodup := by
  have hrows : ((pendingRows w).map Publisher.PendingRow.id).Nodup := by
    refine h.sublist (map_filterMap_sublist (fun o row hrow => ?_) w.outbox)
    split_ifs at hrow
    obtain ⟨e, -, rfl⟩ := Option.map_eq_some_iff.mp hrow
    rfl
  let _ := collation
  have hperm := (Ranking.sorted_perm (Publisher.selectionKey (pendingRows w) afterTenantId)
    (pendingRows w)).map Publisher.PendingRow.id
  exact (hperm.nodup_iff.mpr hrows).sublist ((List.take_sublist limit _).map _)

/-- The rows found are unpublished rows of the outbox. -/
theorem mem_unpublishedAmong {w : World} {ids : List JsString} {r : UnpublishedOutbox}
    (h : r ∈ unpublishedAmong w ids) : r.row ∈ w.outbox ∧ r.row.published = false := by
  obtain ⟨o, ho, hr⟩ := List.mem_filterMap.mp h
  obtain ⟨e, -, rfl⟩ := Option.map_eq_some_iff.mp hr
  obtain ⟨hmem, hcond⟩ := List.mem_filter.mp ho
  rw [Bool.and_eq_true, Bool.not_eq_true'] at hcond
  exact ⟨hmem, hcond.1⟩

theorem mem_of_mem_arrange {ids : List JsString} {rows : List UnpublishedOutbox}
    {r : UnpublishedOutbox} (h : r ∈ arrange ids rows) : r ∈ rows := by
  obtain ⟨id, -, hfind⟩ := List.mem_filterMap.mp h
  exact List.mem_of_find?_eq_some hfind

/-- No row is arranged twice. -/
theorem nodup_arrange {ids : List JsString} (h : ids.Nodup) (rows : List UnpublishedOutbox) :
    ((arrange ids rows).map (fun r => r.row.id)).Nodup := by
  have hsub : ((arrange ids rows).map (fun r => r.row.id)).Sublist (ids.map id) :=
    map_filterMap_sublist (fun id r hr => by simpa using List.find?_some hr) ids
  rw [List.map_id] at hsub
  exact h.sublist hsub

/-! ## The main loop -/

/-- In an idle phase there is nothing to rely on. -/
theorem tickFacts_of_idle {φ : LeaderPhase} (hidle : φ.idle) (w : World) (sends : List JsString)
    (sending : List Sending) : TickFacts w sends sending φ := by
  cases φ <;> first | exact trivial | exact hidle.elim

/-- Who has the lock is the only one who relies on anything. -/
theorem StandsWell.of_other {s s' : Cluster} {pid q : ℕ} {p : PublisherProcess}
    (h : StandsWell s q p) (hne : q ≠ pid) (hlock : s.lock = some pid)
    (hlock' : s'.lock = s.lock) : StandsWell s' q p := by
  obtain ⟨φ, hfollows, hfacts, -⟩ := h
  have hstandby : φ = .standby := by
    by_contra hφ
    exact hne (Option.some.inj ((hfacts.1 hφ).symm.trans hlock))
  subst hstandby
  refine ⟨.standby, hfollows, ?_, trivial⟩
  unfold LeaderFacts
  rw [hlock']
  exact hfacts

section

variable {collation : LinearOrder JsString} {s : Cluster} {pid : ℕ} {p : PublisherProcess}
  {φ : LeaderPhase} {op : PollerOp}

/-- **What the leader finds unpublished is in nobody's hands.** -/
theorem Accounted.found_unsent (h : Accounted s) (hp : s.processes pid = some p)
    (hlock : s.lock = some pid) (hnone : p.sending = []) {ids : List JsString}
    {r : UnpublishedOutbox} (hr : r ∈ unpublishedAmong s.world ids) :
    Known s.world r.row.id ∧ r.row.id ∉ s.sends := by
  obtain ⟨hmem, hunpublished⟩ := mem_unpublishedAmong hr
  refine ⟨⟨r.row, hmem, rfl⟩, fun hsent => ?_⟩
  rcases h.placed r.row.id hsent with hmarked | ⟨q, y, hq, x, hx, -, hopen⟩
  · rw [hmarked r.row hmem rfl] at hunpublished
    exact nomatch hunpublished
  · -- a call under way belongs to the one who has the lock
    have hlock' := (h.led.stands q y hq).lock_of_ticking (.inr ⟨x, hx, hopen⟩)
    obtain rfl := Option.some.inj (hlock.symm.trans hlock')
    obtain rfl := Option.some.inj (hp.symm.trans hq)
    rw [hnone] at hx
    exact nomatch hx

/-- The calls a tick starts. -/
theorem tickFacts_started {w : World} {sends : List JsString} {rows : List UnpublishedOutbox}
    (hnodup : (rows.map (fun r => r.row.id)).Nodup)
    (hrows : ∀ r ∈ rows, Known w r.row.id ∧ r.row.id ∉ sends) (sending : List Sending) :
    TickFacts w sends (sendingAfter sending (.startPublishing rows)) .publishing := by
  constructor
  · show ((rows.map _).map _).Nodup
    rw [List.map_map]
    exact hnodup
  · intro x hx
    obtain ⟨r, hr, rfl⟩ := List.mem_map.mp hx
    exact ⟨(hrows r hr).1, .inl ⟨rfl, (hrows r hr).2⟩⟩

/-- What the next phase relies on, after an operation that had its effect. -/
theorem Accounted.tick_effect (h : Accounted s) (hp : s.processes pid = some p)
    (hfacts : LeaderFacts s pid p φ) (htick : TickFacts s.world s.sends p.sending φ)
    (hallow : LeaderAllows φ op) {told : Except JsError op.Res}
    (htold : Told collation s pid p op told) :
    TickFacts s.world s.sends (sendingAfter p.sending op) (φ.next op told) := by
  cases φ with
  | standby =>
      -- without the lock, or between ticks, nothing is sent
      refine tickFacts_of_idle ?_ _ _ _
      cases op with
      | tryAdvisoryLock =>
          cases told with
          | error e => exact trivial
          | ok locked => cases locked <;> exact trivial
      | selectPending => exact nomatch hallow.1
      | findUnpublished => exact nomatch hallow.1
      | startPublishing => exact nomatch hallow.1
      | allSettled => exact nomatch hallow.1
      | _ => exact trivial
  | holding =>
      cases op with
      | selectPending limit afterTenantId =>
          rcases htold with rfl | ⟨-, e, rfl⟩
          · exact nodup_rankPending collation h.distinct limit afterTenantId
          · exact trivial
      | findUnpublished => exact nomatch hallow.1
      | startPublishing => exact nomatch hallow.1
      | allSettled => exact nomatch hallow.1
      | _ => exact trivial
  | selected ids =>
      cases op with
      | findUnpublished ids' =>
          rcases htold with rfl | ⟨-, e, rfl⟩
          -- an unpublished row was sent by nobody, as all sent rows are marked or under way
          · exact ⟨htick, fun r hr => h.found_unsent hp (hfacts.1 nofun) (hfacts.2 nofun) hr⟩
          · exact trivial
      | startPublishing rows =>
          rcases htold with rfl | ⟨hlocal, -⟩
          · rw [hallow.2]
            have hnodup : (([] : List UnpublishedOutbox).map (fun r => r.row.id)).Nodup :=
              List.nodup_nil
            exact tickFacts_started hnodup (fun _ hr => nomatch hr) _
          · exact nomatch hlocal
      | _ => exact hallow.elim
  | found ids rows =>
      cases op with
      | startPublishing rows' =>
          rcases htold with rfl | ⟨hlocal, -⟩
          · rw [show rows' = _ from hallow]
            exact tickFacts_started (nodup_arrange htick.1 rows)
              (fun r hr => htick.2 r (mem_of_mem_arrange hr)) _
          · exact nomatch hlocal
      | _ => exact hallow.elim
  | publishing =>
      cases op with
      | allSettled => exact trivial
      | _ => exact hallow.elim

/-- The same after an operation that failed without an effect. -/
theorem tick_fail {w : World} {sends : List JsString} {sending : List Sending}
    (htick : TickFacts w sends sending φ) (hallow : LeaderAllows φ op)
    (hlocal : op.isLocal = false) (e : JsError) :
    TickFacts w sends sending (φ.next op (.error e)) := by
  cases φ with
  | standby =>
      refine tickFacts_of_idle ?_ _ _ _
      cases op <;> exact trivial
  | holding =>
      refine tickFacts_of_idle ?_ _ _ _
      cases op <;> exact trivial
  | selected ids =>
      cases op <;> first | exact htick | exact trivial
  | found ids rows =>
      cases op <;> first | exact htick | exact trivial
  | publishing =>
      cases op <;> first | exact htick | exact nomatch hlocal

end

/-! ## The steps -/

/-- A process is replaced or goes, with nothing of its own under way lost. -/
theorem Accounted.put {s s' : Cluster} (h : Accounted s) {pid : ℕ}
    {p' : Option PublisherProcess}
    (hprocesses : s'.processes = Function.update s.processes pid p') (hworld : s'.world = s.world)
    (hsends : s'.sends = s.sends) (hspawned : s.spawned ≤ s'.spawned)
    (hopen : ∀ p, s.processes pid = some p → ∀ x ∈ p.sending, x.settled = false →
      ∃ y, p' = some y ∧ x ∈ y.sending)
    (hnew : ∀ y, p' = some y → pid < s'.spawned ∧ StandsWell s' pid y)
    (hlock : ∀ q, q ≠ pid → s.lock = some q → s'.lock = some q) : Accounted s' := by
  -- the other processes are the same
  have hget : ∀ q y, s'.processes q = some y →
      (q = pid ∧ p' = some y) ∨ (q ≠ pid ∧ s.processes q = some y) := by
    intro q y hq
    rw [hprocesses] at hq
    by_cases hqp : q = pid
    · subst hqp
      rw [Function.update_self] at hq
      exact .inl ⟨rfl, hq⟩
    · rw [Function.update_of_ne hqp] at hq
      exact .inr ⟨hqp, hq⟩
  constructor
  · rw [hworld]
    exact h.distinct
  · rw [hsends]
    exact h.once
  · rw [hsends, hworld]
    exact h.known
  · rw [hsends, hworld, hprocesses]
    intro id hid
    rcases h.placed id hid with hmarked | ⟨q, y, hq, x, hx, hxid, hxopen⟩
    · exact .inl hmarked
    · by_cases hqp : q = pid
      · subst hqp
        obtain ⟨y', hy', hx'⟩ := hopen y hq x hx hxopen
        exact .inr ⟨q, y', by rw [Function.update_self, hy'], x, hx', hxid, hxopen⟩
      · exact .inr ⟨q, y, by rw [Function.update_of_ne hqp, hq], x, hx, hxid, hxopen⟩
  · intro q y hq
    rcases hget q y hq with ⟨rfl, hy⟩ | ⟨-, hq⟩
    · exact (hnew y hy).1
    · exact lt_of_lt_of_le (h.numbered q y hq) hspawned
  · intro q y hq
    rcases hget q y hq with ⟨rfl, hy⟩ | ⟨hqp, hq⟩
    · exact (hnew y hy).2
    · obtain ⟨φ, hfollows, hfacts, htick⟩ := h.stands q y hq
      refine ⟨φ, hfollows, ⟨fun hφ => hlock q hqp (hfacts.1 hφ), hfacts.2⟩, ?_⟩
      rw [hworld, hsends]
      exact htick

/-- A process whose calls have settled may end. -/
theorem Accounted.die {s : Cluster} (h : Accounted s) {pid : ℕ} {p : PublisherProcess}
    (hp : s.processes pid = some p) (hsettled : ∀ x ∈ p.sending, x.settled ≠ false) :
    Accounted (s.die pid) := by
  refine h.put rfl rfl rfl le_rfl ?_ (fun _ hy => nomatch hy)
    (fun _ hq hlock => freed_of_held hlock hq)
  intro p₁ hp₁ x hx hopen
  obtain rfl := Option.some.inj (hp.symm.trans hp₁)
  exact absurd hopen (hsettled x hx)

/-- An operation of a main loop. -/
theorem Accounted.perform {collation : LinearOrder JsString} {s : Cluster} (h : Accounted s)
    {pid : ℕ} {p : PublisherProcess} (hp : s.processes pid = some p) {op : PollerOp}
    {k : Except JsError op.Res → Polling Unit} (hprog : p.prog = .call op k)
    (hready : ready p op = true) (fault : Fault) (error : JsError) :
    Accounted (s.perform collation pid p op k fault error) := by
  obtain ⟨φ, hfollows, hfacts, htick⟩ := h.stands pid p hp
  rw [hprog] at hfollows
  obtain ⟨hallow, hk⟩ := hfollows
  have hpid := h.numbered pid p hp
  -- a call under way is kept: rows are sent only when the last calls are gone
  have hkept : ∀ x ∈ p.sending, x.settled = false → x ∈ sendingAfter p.sending op := by
    intro x hx hopen
    cases op with
    | startPublishing rows =>
        have hpublishing : φ ≠ .publishing := by
          rintro rfl
          exact hallow
        rw [hfacts.2 hpublishing] at hx
        exact nomatch hx
    | allSettled =>
        rw [List.all_eq_true.mp hready x hx] at hopen
        exact nomatch hopen
    | _ => exact hx
  obtain ⟨told, htold, heffect | ⟨⟨e, rfl⟩, hlocal, hnone⟩⟩ :=
    Cluster.perform_cases collation s pid p op k fault error
  · rw [heffect]
    refine h.put rfl rfl rfl le_rfl ?_ ?_ (fun q hq hlock => lockAfter_of_held hlock hq op)
    · intro p₁ hp₁ x hx hopen
      obtain rfl := Option.some.inj (hp.symm.trans hp₁)
      exact ⟨_, rfl, hkept x hx hopen⟩
    · rintro y ⟨rfl⟩
      exact ⟨hpid, _, hk told, hfacts.effect hallow htold rfl rfl,
        h.tick_effect hp hfacts htick hallow htold⟩
  · rw [hnone]
    refine h.put rfl rfl rfl le_rfl ?_ ?_ (fun _ _ hlock => hlock)
    · intro p₁ hp₁ x hx hopen
      obtain rfl := Option.some.inj (hp.symm.trans hp₁)
      exact ⟨_, rfl, hx⟩
    · rintro y ⟨rfl⟩
      exact ⟨hpid, _, hk (.error e), hfacts.fail hallow hlocal rfl rfl,
        tick_fail htick hallow hlocal e⟩

/-! ## The calls of a tick -/

theorem known_iff {w : World} {id : JsString} : Known w id ↔ id ∈ w.outbox.map Outbox.id :=
  List.mem_map.symm

/-- Marking a row marks it, and unmarks none. -/
theorem marked_markPublished (w : World) (id : JsString) (t : ℚ) :
    (w.markPublished id t).2.outbox.map Outbox.id = w.outbox.map Outbox.id ∧
      (∀ id', Marked w id' → Marked (w.markPublished id t).2 id') ∧
      Marked (w.markPublished id t).2 id := by
  refine ⟨?_, fun id' h o' ho' hid' => ?_, fun o' ho' hid' => ?_⟩
  · show (w.outbox.map _).map Outbox.id = _
    rw [List.map_map]
    refine List.map_congr_left (fun o _ => ?_)
    show (if o.id = id ∧ o.published = false then _ else o).id = o.id
    split <;> rfl
  · obtain ⟨o, ho, rfl⟩ := List.mem_map.mp ho'
    split_ifs at hid' ⊢
    · rfl
    · exact h o ho hid'
  · obtain ⟨o, ho, rfl⟩ := List.mem_map.mp ho'
    split_ifs at hid' ⊢ with hcond
    · rfl
    · by_contra hpublished
      exact hcond ⟨hid', Bool.eq_false_iff.mpr hpublished⟩

/-- **One operation of a call**: the row is sent, for the first time; or the call only looks
at the clock; or the row is marked, and the call has ended. -/
theorem Stage.call {w w' : World} {sends : List JsString} {x : Sending} {op : Op} {c : Choice}
    {k : Except JsError op.Res → Async Unit} {r : Except JsError op.Res}
    (hstage : Stage w sends x) (hcall : x.call = .call op k) (hok : Confirmed c op)
    (hexec : w.exec op c = some (r, w')) :
    w'.outbox.map Outbox.id = w.outbox.map Outbox.id ∧ (∀ id, Marked w id → Marked w' id) ∧
      ((Cluster.sentBy x.row c.fault op = [x.row.id] ∧ x.row.id ∉ sends ∧
          k r = afterSend x.row) ∨
        (Cluster.sentBy x.row c.fault op = [] ∧ ∃ t, k r = afterClock x.row t) ∨
        (Cluster.sentBy x.row c.fault op = [] ∧ Marked w' x.row.id ∧
          ({ x with call := k r } : Sending).settled = true)) := by
  obtain ⟨row, event, call⟩ := x
  dsimp only at hcall hstage
  subst hcall
  -- before its send, after it, after the clock, or over
  rcases hstage with ⟨hstart, hnew⟩ | hsent | ⟨t, hclock⟩ | ⟨hsettled, -⟩
  · have hstart : (Prog.call op k : Async Unit) = Publisher.publishOne row event := hstart
    cases hstart
    have happly := World.exec_of_healthy hok hexec
    obtain ⟨rfl, rfl⟩ := Prod.mk.inj happly
    refine ⟨rfl, fun _ h => h, .inl ⟨?_, hnew, rfl⟩⟩
    have hfault : c.fault = .none := hok
    unfold Cluster.sentBy
    rw [hfault]
    rfl
  · have hsent : (Prog.call op k : Async Unit) = afterSend row := hsent
    cases hsent
    have hnow : some ((.ok w.clock, w) : Except JsError ℚ × World) = some (r, w') := hexec
    obtain ⟨rfl, rfl⟩ := Prod.mk.inj (Option.some.inj hnow)
    exact ⟨rfl, fun _ h => h, .inr (.inl ⟨rfl, _, rfl⟩)⟩
  · have hclock : (Prog.call op k : Async Unit) = afterClock row t := hclock
    cases hclock
    have heffect := World.exec_effect hexec
    have hfault : c.fault ≠ .before := hok
    have hw : w' = (w.markPublished row.id t).2 := by
      rw [heffect, if_pos (by simpa [Op.isLocal] using hfault)]
      rfl
    obtain ⟨hids, hkeeps, hmarked⟩ := marked_markPublished w row.id t
    rw [hw]
    refine ⟨hids, hkeeps, .inr (.inr ⟨rfl, hmarked, ?_⟩)⟩
    cases r <;> rfl
  · exact nomatch hsettled

/-- Calls of one tick at different places are for different rows. -/
theorem row_ne {sending : List Sending} (h : (sending.map (fun x => x.row.id)).Nodup) {i j : ℕ}
    {x y : Sending} (hx : sending[i]? = some x) (hy : sending[j]? = some y) (hij : i ≠ j) :
    x.row.id ≠ y.row.id := by
  intro hid
  have hi : i < (sending.map (fun x => x.row.id)).length := by
    rw [List.length_map]
    exact (List.getElem?_eq_some_iff.mp hx).1
  refine hij ((List.getElem?_inj hi h).mp ?_)
  rw [List.getElem?_map, List.getElem?_map, hx, hy]
  exact congrArg some hid

/-- The rows of the calls stay the same while the calls go on. -/
theorem rows_set {sending : List Sending} {i : ℕ} {x x' : Sending} (hx : sending[i]? = some x)
    (hrow : x'.row = x.row) :
    (sending.set i x').map (fun y => y.row.id) = sending.map (fun y => y.row.id) := by
  have hlt : i < (sending.map (fun y => y.row.id)).length := by
    rw [List.length_map]
    exact (List.getElem?_eq_some_iff.mp hx).1
  have hid : x'.row.id = (sending.map (fun y => y.row.id))[i] := by
    rw [List.getElem_map, (List.getElem?_eq_some_iff.mp hx).2, hrow]
  rw [List.map_set, hid, List.set_getElem_self]

/-- What a call does to the account: no row is lost or unmarked, what is newly sent is its own
row, and it is still under way unless its row is marked. -/
structure CallMoves (w w' : World) (sends sends' : List JsString) (x x' : Sending) : Prop where
  row : x'.row = x.row
  ids : w'.outbox.map Outbox.id = w.outbox.map Outbox.id
  keeps : ∀ id, Marked w id → Marked w' id
  once : sends.Nodup → sends'.Nodup
  sends : ∀ id ∈ sends', id = x.row.id ∨ id ∈ sends
  stage : Stage w' sends' x'
  placed : x'.settled = false ∨ Marked w' x.row.id

/-- **What one operation of a call does** to its stage and to the rows sent. -/
theorem Stage.moves {w w' : World} {sends : List JsString} {x : Sending} {op : Op} {c : Choice}
    {k : Except JsError op.Res → Async Unit} {r : Except JsError op.Res}
    (hstage : Stage w sends x) (hcall : x.call = .call op k) (hok : Confirmed c op)
    (hexec : w.exec op c = some (r, w')) :
    CallMoves w w' sends (Cluster.sentBy x.row c.fault op ++ sends) x { x with call := k r } := by
  obtain ⟨hids, hkeeps, hcases⟩ := hstage.call hcall hok hexec
  rcases hcases with ⟨hsent, hfresh, hafter⟩ | ⟨hsent, t, hafter⟩ | ⟨hsent, hmarked, hsettled⟩
  · rw [hsent]
    exact
      { row := rfl
        ids := hids
        keeps := hkeeps
        once := fun h => List.nodup_cons.mpr ⟨hfresh, h⟩
        sends := fun _ hid => List.mem_cons.mp hid
        stage := .inr (.inl hafter)
        placed := .inl (by rw [hafter]; rfl) }
  · rw [hsent]
    exact
      { row := rfl
        ids := hids
        keeps := hkeeps
        once := fun h => h
        sends := fun _ hid => .inr hid
        stage := .inr (.inr (.inl ⟨t, hafter⟩))
        placed := .inl (by rw [hafter]; rfl) }
  · rw [hsent]
    exact
      { row := rfl
        ids := hids
        keeps := hkeeps
        once := fun h => h
        sends := fun _ hid => .inr hid
        stage := .inr (.inr (.inr ⟨hsettled, hmarked⟩))
        placed := .inr hmarked }

section

variable {w w' : World} {sends sends' : List JsString} {x x' : Sending}

theorem CallMoves.known (h : CallMoves w w' sends sends' x x') {id : JsString}
    (hid : Known w id) : Known w' id := by
  rw [known_iff, h.ids, ← known_iff]
  exact hid

/-- The tick stays in order while one of its calls goes on. -/
theorem CallMoves.tickFacts (h : CallMoves w w' sends sends' x x') {sending : List Sending}
    {i : ℕ} (hx : sending[i]? = some x) (htick : TickFacts w sends sending .publishing) :
    TickFacts w' sends' (sending.set i x') .publishing := by
  obtain ⟨hnodup, hstages⟩ := htick
  have hlt := (List.getElem?_eq_some_iff.mp hx).1
  constructor
  · rw [rows_set hx h.row]
    exact hnodup
  · intro z hz
    obtain ⟨j, hj⟩ := List.mem_iff_getElem?.mp hz
    by_cases hij : i = j
    · subst hij
      rw [List.getElem?_set_self hlt] at hj
      obtain rfl := Option.some.inj hj
      rw [h.row]
      exact ⟨h.known (hstages x (List.mem_of_getElem? hx)).1, h.stage⟩
    · rw [List.getElem?_set_ne hij] at hj
      obtain ⟨hknown, hstage⟩ := hstages z (List.mem_of_getElem? hj)
      refine ⟨h.known hknown, ?_⟩
      rcases hstage with ⟨hunsent, hfresh⟩ | hafter | hclock | ⟨hsettled, hmarked⟩
      · refine .inl ⟨hunsent, fun hsent => ?_⟩
        rcases h.sends _ hsent with hid | hold
        · exact row_ne hnodup hx hj hij hid.symm
        · exact hfresh hold
      · exact .inr (.inl hafter)
      · exact .inr (.inr (.inl hclock))
      · exact .inr (.inr (.inr ⟨hsettled, h.keeps _ hmarked⟩))

end

/-- **A call of the leader goes on**, and every row sent is still accounted for. -/
theorem Accounted.publish {s s' : Cluster} (h : Accounted s) {pid i : ℕ} {p : PublisherProcess}
    {x x' : Sending} (hp : s.processes pid = some p) (hx : p.sending[i]? = some x)
    (hmoves : Stage s.world s.sends x → CallMoves s.world s'.world s.sends s'.sends x x')
    (hprocesses : s'.processes =
      Function.update s.processes pid (some { p with sending := p.sending.set i x' }))
    (hspawned : s'.spawned = s.spawned) (hlock : s'.lock = s.lock) : Accounted s' := by
  obtain ⟨φ, hfollows, hfacts, htick⟩ := h.stands pid p hp
  have hphase : φ = .publishing := by
    by_contra hne
    rw [hfacts.2 hne] at hx
    exact nomatch hx
  subst hphase
  have hm := hmoves (htick.2 x (List.mem_of_getElem? hx)).2
  have hlt := (List.getElem?_eq_some_iff.mp hx).1
  have hself : s'.processes pid = some { p with sending := p.sending.set i x' } := by
    rw [hprocesses, Function.update_self]
  have hother : ∀ q, q ≠ pid → s'.processes q = s.processes q := fun q hq => by
    rw [hprocesses, Function.update_of_ne hq]
  -- the row of this call is marked, or still under way here
  have hmine : Marked s'.world x.row.id ∨ ∃ q y, s'.processes q = some y ∧
      ∃ z ∈ y.sending, z.row.id = x.row.id ∧ z.settled = false := by
    rcases hm.placed with hopen | hmarked
    · exact .inr ⟨pid, _, hself, x', List.mem_of_getElem? (List.getElem?_set_self hlt),
        by rw [hm.row], hopen⟩
    · exact .inl hmarked
  constructor
  · rw [hm.ids]
    exact h.distinct
  · exact hm.once h.once
  · intro id hid
    rcases hm.sends id hid with rfl | hold
    · exact hm.known (htick.2 x (List.mem_of_getElem? hx)).1
    · exact hm.known (h.known id hold)
  · intro id hid
    rcases hm.sends id hid with rfl | hold
    · exact hmine
    · rcases h.placed id hold with hmarked | ⟨q, y, hq, z, hz, rfl, hopen⟩
      · exact .inl (hm.keeps id hmarked)
      · by_cases hqp : q = pid
        · subst hqp
          obtain rfl := Option.some.inj (hp.symm.trans hq)
          obtain ⟨j, hj⟩ := List.mem_iff_getElem?.mp hz
          by_cases hij : i = j
          · subst hij
            obtain rfl := Option.some.inj (hx.symm.trans hj)
            exact hmine
          · rw [← List.getElem?_set_ne hij] at hj
            exact .inr ⟨q, _, hself, z, List.mem_of_getElem? hj, rfl, hopen⟩
        · exact .inr ⟨q, y, by rw [hother q hqp, hq], z, hz, rfl, hopen⟩
  · intro q y hq
    rw [hspawned]
    by_cases hqp : q = pid
    · subst hqp
      exact h.numbered q p hp
    · exact h.numbered q y (by rw [← hother q hqp, hq])
  · intro q y hq
    by_cases hqp : q = pid
    · subst hqp
      obtain rfl := Option.some.inj (hself.symm.trans hq)
      refine ⟨.publishing, hfollows, ⟨fun hne => ?_, fun hne => absurd rfl hne⟩,
        hm.tickFacts hx htick⟩
      rw [hlock]
      exact hfacts.1 hne
    · rw [hother q hqp] at hq
      exact (h.stands q y hq).of_other hqp (hfacts.1 nofun) hlock

/-! ## Leadership -/

/-- At the start nothing has been sent. -/
theorem Start.accounted {s : Cluster} (h : Start s) : Accounted s where
  distinct := h.distinct
  once := by
    rw [h.sends]
    exact List.nodup_nil
  known := by
    rw [h.sends]
    exact fun _ hid => nomatch hid
  placed := by
    rw [h.sends]
    exact fun _ hid => nomatch hid
  numbered := fun pid p hp => nomatch (h.processes pid).symm.trans hp
  stands := fun pid p hp => nomatch (h.processes pid).symm.trans hp

/-- **Every step of a smooth run keeps the account.** -/
theorem Accounted.step {collation : LinearOrder JsString} {s s' : Cluster} {e : ClusterEvent}
    (h : Accounted s) (hok : Smooth s e) (hstep : step collation s e = some s') :
    Accounted s' := by
  cases e with
  | start turns =>
      obtain rfl := Option.some.inj hstep
      refine h.put rfl rfl rfl (Nat.le_succ _) ?_ ?_ (fun _ _ hlock => hlock)
      · intro p hp
        exact absurd (h.numbered _ p hp) (lt_irrefl _)
      · rintro y ⟨rfl⟩
        exact ⟨Nat.lt_succ_self _, .standby, follows_main turns,
          ⟨fun hne => absurd rfl hne, fun _ => rfl⟩, trivial⟩
  | signal pid =>
      obtain ⟨p, hp, rfl⟩ := Option.map_eq_some_iff.mp hstep
      refine h.put rfl rfl rfl le_rfl ?_ ?_ (fun _ _ hlock => hlock)
      · intro p₁ hp₁ x hx hopen
        obtain rfl := Option.some.inj (hp.symm.trans hp₁)
        exact ⟨_, rfl, hx⟩
      · rintro y ⟨rfl⟩
        exact ⟨h.numbered pid p hp, h.stands pid p hp⟩
  | poll pid fault error =>
      obtain ⟨p, op, k, hp, hprog, hready, rfl⟩ := step_poll hstep
      exact h.perform hp hprog hready fault error
  | publish pid i c =>
      obtain ⟨p, x, op, k, r, w', hp, hx, hcall, hexec, rfl⟩ := step_publish hstep
      exact h.publish hp hx
        (fun hstage => hstage.moves hcall (hok p x op k hp hx hcall) hexec) rfl rfl rfl
  | exit pid =>
      obtain ⟨p, hp, hend, rfl⟩ := step_exit hstep
      refine h.die hp (fun x hx => ?_)
      -- at its end a main loop has no calls
      obtain ⟨φ, hfollows, hfacts, -⟩ := h.stands pid p hp
      have hidle : φ.idle := by
        cases hprog : p.prog with
        | ret a => rw [hprog] at hfollows; exact hfollows
        | throw e => rw [hprog] at hfollows; exact hfollows
        | call op k => exact absurd hprog (hend op k)
      rw [hfacts.2 (by rintro rfl; exact hidle)] at hx
      exact nomatch hx
  | crash pid =>
      obtain ⟨p, hp, rfl⟩ := Option.map_eq_some_iff.mp hstep
      exact h.die hp (fun x hx hopen => hok p hp (.inr ⟨x, hx, hopen⟩))
  | service op c =>
      obtain ⟨hop, r, w', hexec, rfl⟩ := step_service hstep
      refine h.grow rfl rfl rfl rfl (World.exec_outbox hexec ?_)
      rintro id t rfl
      exact nomatch hop
  | passTime dt =>
      obtain rfl := step_passTime hstep
      exact h.grow rfl rfl rfl rfl (.inl rfl)

/-- **Leadership is exclusive**: no two processes are in a tick at the same time; and in a
smooth run no row is sent twice. -/
theorem leadership_exclusive (collation : LinearOrder JsString) {s : Cluster}
    (h : Run Start (step collation) (fun _ _ => True) s) :
    Exclusive s ∧ (Run Start (step collation) Smooth s → s.sends.Nodup) := by
  have hled : Led s := h.invariant (I := Led) (fun _ h₀ => h₀.accounted.led)
    (fun _ _ _ hi _ hstep => hi.step hstep)
  -- exclusion needs no assumption on the run, the single sending does
  refine ⟨hled.exclusive, fun hsmooth => ?_⟩
  have haccount : Accounted s := hsmooth.invariant (I := Accounted) (fun _ h₀ => h₀.accounted)
    (fun _ _ _ hi hok hstep => hi.step hok hstep)
  exact haccount.once

/-! ## Two publishers and one row -/

end OutboxPoller

namespace Sample

open OutboxPoller

/-- One unpublished row, and no publisher yet. -/
def cluster : Cluster where
  world :=
    { start.world.world with
      events := [event firstId none]
      outbox := [⟨firstId, firstId, false, 1000, none⟩] }
  lock := none
  processes := fun _ => none
  spawned := 0
  sends := []

theorem cluster_start : OutboxPoller.Start cluster where
  processes _ := rfl
  lock := rfl
  sends := rfl
  distinct := List.nodup_singleton _

/-- Operations of a main loop, and of the first call of its tick. -/
def polls (pid n : ℕ) : List ClusterEvent := List.replicate n (.poll pid .none { message := [] })

/-- Operations of the first call of a process. -/
def publishes (pid n : ℕ) : List ClusterEvent := List.replicate n (.publish pid 0 {})

/-- The first publisher leads and publishes the row, while the second one is told that it
does not lead. -/
def twoPublishers : List ClusterEvent :=
  [.start 2, .start 2] ++ polls 0 3 ++ polls 1 3 ++ polls 0 2 ++ publishes 0 3

/-- Steps of which the account knows that they are smooth. -/
def smooth : ClusterEvent → Bool
  | .publish _ _ c => c.fault == .none
  | .crash _ => false
  | _ => true

theorem smooth_of_check {s : Cluster} {e : ClusterEvent} (h : smooth e = true) : Smooth s e := by
  cases e with
  | publish pid i c =>
      intro p x op k _ _ _
      have hfault : c.fault = .none := eq_of_beq h
      cases op with
      | sendMessage => exact hfault
      | markPublished =>
          show c.fault ≠ .before
          rw [hfault]
          exact nofun
      | _ => exact trivial
  | crash pid => exact nomatch h
  | _ => exact trivial

end Sample

namespace OutboxPoller

/-- A row that was sent once, with the leader still in its tick. -/
theorem leadership_exclusive_published :
    ∃ s : Cluster, s.sends = [Sample.firstId] ∧ Exclusive s ∧ s.sends.Nodup := by
  have hplay : (Run.play (step inferInstance) (fun _ e => Sample.smooth e) Sample.twoPublishers
      Sample.cluster).any (fun s => decide (s.sends = [Sample.firstId] ∧ s.lock = some 0)) =
        true := by
    decide +kernel
  obtain ⟨s, hs, htest⟩ :=
    Run.exists_of_play (fun _ _ h => Sample.smooth_of_check h) Sample.cluster_start hplay
  obtain ⟨hexclusive, honce⟩ :=
    leadership_exclusive inferInstance (hs.weaken fun _ _ _ => trivial)
  exact ⟨s, (of_decide_eq_true htest).1, hexclusive, honce hs⟩

end OutboxPoller
