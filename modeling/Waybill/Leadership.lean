/-
# Leadership is exclusive

Only the process whose session holds the advisory lock is ever between the selection of rows
and the settlement of the calls that send them.  The flag, the lock and the calls of a
publisher are tied together by the phase its main loop is in: `follows_main` shows that the loop
keeps to the phases on every path, `Stands` what a phase says about the lock and the calls.

* `Exclusive` is the statement about the processes.
* `Accounted` says where every row sent so far is: marked as published, or in the hands of
  the leader's calls.  A row found unpublished is therefore in nobody's hands.
-/
import Waybill.Poller

namespace OutboxPoller

/-! ## Phases of the main loop -/

/-- Where a main loop is: without the lock as far as it knows; with the lock; in a tick with
the selected rows, or with the rows found for them; or waiting for its calls. -/
inductive LeaderPhase where
  | standby
  | holding
  | selected (ids : List JsString)
  | found (ids : List JsString) (rows : List UnpublishedOutbox)
  | publishing

/-- Which operations a phase allows. -/
def LeaderAllows : LeaderPhase → PollerOp → Prop
  | .standby, op => op.ofTick = false ∧ op ≠ .advisoryUnlock
  | .holding, .selectPending .. => True
  | .holding, op => op.ofTick = false ∧ op ≠ .tryAdvisoryLock
  | .selected ids, .findUnpublished ids' => ids' = ids
  | .selected ids, .startPublishing rows => ids = [] ∧ rows = []
  | .found ids rows, .startPublishing rows' => rows' = arrange ids rows
  | .publishing, .allSettled => True
  | _, _ => False

/-- Where an answer leads. -/
def LeaderPhase.next : LeaderPhase → (op : PollerOp) → Except JsError op.Res → LeaderPhase
  | .standby, .tryAdvisoryLock, .ok true => .holding
  | .holding, .selectPending .., .ok ids => .selected ids
  | .holding, .disconnect, _ => .standby
  | .holding, .advisoryUnlock, _ => .standby
  | .selected ids, .findUnpublished _, .ok rows => .found ids rows
  | .selected _, .findUnpublished _, .error _ => .holding
  | _, .startPublishing _, .ok _ => .publishing
  | _, .startPublishing _, .error _ => .holding
  | .publishing, .allSettled, _ => .holding
  | φ, _, _ => φ

/-- The protocol of the main loops. -/
abbrev leaderProtocol : Protocol PollerServices where
  Phase := LeaderPhase
  Allows := LeaderAllows
  next := LeaderPhase.next

/-! ## The main loop keeps to its phases -/

/-- The phases in which no tick is under way. -/
def LeaderPhase.idle : LeaderPhase → Prop
  | .standby => True
  | .holding => True
  | _ => False

/-- Operations that have nothing to do with the lock or the tick. -/
def PollerOp.aside : PollerOp → Bool
  | .stopping => true
  | .sleep => true
  | .hang => true
  | .stopBacklogSampler => true
  | .disconnectBacklogReader => true
  | .stopMetricsServer => true
  | _ => false

/-- Nothing of a tick. -/
theorem PollerOp.ofTick_of_aside {op : PollerOp} (h : op.aside = true) : op.ofTick = false := by
  cases op <;> first | rfl | exact absurd h Bool.false_ne_true

theorem allows_aside {φ : LeaderPhase} (hidle : φ.idle) {op : PollerOp} (h : op.aside = true) :
    LeaderAllows φ op := by
  have htick := PollerOp.ofTick_of_aside h
  cases φ with
  | standby => exact ⟨htick, by rintro rfl; exact absurd h Bool.false_ne_true⟩
  | holding =>
      have hlock : op ≠ .tryAdvisoryLock := by rintro rfl; exact absurd h Bool.false_ne_true
      cases op <;> first | exact trivial | exact ⟨htick, hlock⟩
  | selected ids => exact hidle.elim
  | found ids rows => exact hidle.elim
  | publishing => exact hidle.elim

/-- They leave an idle phase as it is. -/
theorem next_aside {φ : LeaderPhase} (hidle : φ.idle) {op : PollerOp} (h : op.aside = true)
    (r : Except JsError op.Res) : φ.next op r = φ := by
  cases φ with
  | standby => cases op <;> first | rfl | exact absurd h Bool.false_ne_true
  | holding => cases op <;> first | rfl | exact absurd h Bool.false_ne_true
  | selected ids => exact hidle.elim
  | found ids rows => exact hidle.elim
  | publishing => exact hidle.elim

section

variable {α : Type}

/-- An operation of this kind, at the end of a program. -/
theorem follows_aside {φ : LeaderPhase} (hidle : φ.idle) {op : PollerOp} (h : op.aside = true)
    {Q : Except JsError op.Res → LeaderPhase → Prop} (hQ : ∀ r, Q r φ) :
    leaderProtocol.Follows (perform op) φ Q := by
  refine (Protocol.follows_perform (P := leaderProtocol) op φ Q).mpr
    ⟨allows_aside hidle h, fun r => ?_⟩
  rw [show leaderProtocol.next φ op r = φ from next_aside hidle h r]
  exact hQ r

/-- A rest between two ticks. -/
theorem follows_pause {φ : LeaderPhase} (hidle : φ.idle)
    {Q : Except JsError Unit → LeaderPhase → Prop} (hQ : ∀ r, Q r φ) :
    leaderProtocol.Follows pauseUnlessStopping φ Q := by
  refine Protocol.Follows.bind (M := fun _ ψ => ψ = φ)
    (follows_aside hidle rfl (fun _ => rfl)) (fun stopping ψ hψ => ?_) (fun e ψ hψ => ?_)
  · rw [hψ]
    cases stopping with
    | true => exact hQ (.ok ())
    | false => exact follows_aside hidle rfl hQ
  · rw [hψ]
    exact hQ (.error e)

/-- The rows that a phase of a tick sends. -/
def LeaderPhase.Offers (rows : List UnpublishedOutbox) : LeaderPhase → Prop
  | .selected ids => ids = [] ∧ rows = []
  | .found ids rows' => rows = arrange ids rows'
  | _ => False

/-- The selection of a tick. -/
theorem follows_listUnpublished (limit : ℕ) (afterTenantId : JsString) :
    leaderProtocol.Follows (listUnpublished limit afterTenantId) .holding
      (fun r φ => (∀ rows, r = .ok rows → φ.Offers rows) ∧ ∀ e, r = .error e → φ = .holding) := by
  refine ⟨trivial, fun r => ?_⟩
  cases r with
  | error e => exact ⟨fun _ h => (nomatch h), fun _ _ => rfl⟩
  | ok ids =>
      cases ids with
      | nil => exact ⟨fun rows h => ⟨rfl, (Except.ok.inj h).symm⟩, fun _ h => (nomatch h)⟩
      | cons id rest =>
          refine ⟨rfl, fun r => ?_⟩
          cases r with
          | error e => exact ⟨fun _ h => (nomatch h), fun _ _ => rfl⟩
          | ok rows => exact ⟨fun rows' h => (Except.ok.inj h).symm, fun _ h => (nomatch h)⟩

/-- A tick ends with its calls settled, whatever happens. -/
theorem follows_tick (afterTenantId : JsString) :
    leaderProtocol.Follows (tick afterTenantId) .holding (fun _ φ => φ = .holding) := by
  refine (follows_listUnpublished _ _).bind (fun rows φ hφ => ?_) (fun e φ hφ => hφ.2 e rfl)
  have hoffers := hφ.1 rows rfl
  have hallow : LeaderAllows φ (.startPublishing rows) := by
    cases φ <;> first | exact hoffers | exact hoffers.elim
  refine ⟨hallow, fun r => ?_⟩
  have hnext : φ.next (.startPublishing rows) r =
      LeaderPhase.next .publishing (.startPublishing rows) r := by
    cases r <;> cases φ <;> rfl
  show leaderProtocol.Follows _ (φ.next (.startPublishing rows) r) _
  rw [hnext]
  cases r with
  | error e => rfl
  | ok _ =>
      refine ⟨trivial, fun r => ?_⟩
      cases r with
      | error e => rfl
      | ok results => rfl

/-- The phase of a loop that believes this of its leadership. -/
def LeaderPhase.believed (isLeader : Bool) : LeaderPhase :=
  if isLeader then .holding else .standby

theorem LeaderPhase.believed_idle (isLeader : Bool) : (LeaderPhase.believed isLeader).idle := by
  cases isLeader <;> exact trivial

/-- How the `try` of the loop leaves the lock. -/
def TryEnds : Except JsError (Option TickResult) → LeaderPhase → Prop
  | .ok none, φ => φ = .standby
  | .ok (some _), φ => φ = .holding
  | .error _, φ => φ.idle

/-- A turn of a leader. -/
theorem follows_lead (afterTenantId : JsString) :
    leaderProtocol.Follows (do
      let result ← tick afterTenantId
      if !result.failed && result.count == 0 then
        pauseUnlessStopping
      return some result) .holding TryEnds := by
  refine (follows_tick afterTenantId).bind (fun result φ hφ => ?_) (fun e φ hφ => ?_)
  · rw [show φ = .holding from hφ]
    have hidle : LeaderPhase.idle .holding := trivial
    split_ifs
    · refine Protocol.Follows.bind (M := fun _ ψ => ψ = .holding)
        (follows_pause hidle (fun _ => rfl)) (fun _ ψ hψ => hψ) (fun e ψ hψ => ?_)
      rw [show ψ = .holding from hψ]
      exact trivial
    · exact rfl
  · rw [show φ = .holding from hφ]
    exact trivial

theorem follows_tryTick (isLeader : Bool) (afterTenantId : JsString) :
    leaderProtocol.Follows (tryTick isLeader afterTenantId) (.believed isLeader) TryEnds := by
  cases isLeader with
  | true => exact follows_lead afterTenantId
  | false =>
      refine ⟨⟨rfl, nofun⟩, fun r => ?_⟩
      cases r with
      | error e => exact trivial
      | ok leads =>
          cases leads with
          | true => exact follows_lead afterTenantId
          | false =>
              have hidle : LeaderPhase.idle .standby := trivial
              show leaderProtocol.Follows (sleep >>= fun _ => pure none) .standby TryEnds
              refine Protocol.Follows.bind (M := fun _ ψ => ψ = .standby)
                (follows_aside hidle rfl (fun _ => rfl)) (fun _ ψ hψ => hψ) (fun e ψ hψ => ?_)
              rw [show ψ = .standby from hψ]
              exact trivial

/-- Giving up the session, whatever one has. -/
theorem follows_disconnect {φ : LeaderPhase} (hidle : φ.idle)
    {Q : Except JsError Unit → LeaderPhase → Prop} (hQ : ∀ r, Q r .standby) :
    leaderProtocol.Follows disconnect φ Q := by
  refine (Protocol.follows_perform (P := leaderProtocol) .disconnect φ Q).mpr
    ⟨?_, fun r => ?_⟩
  · cases φ <;> first | exact ⟨rfl, nofun⟩ | exact hidle.elim
  · have hnext : φ.next .disconnect r = .standby := by
      cases φ <;> first | rfl | exact hidle.elim
    rw [show leaderProtocol.next φ .disconnect r = .standby from hnext]
    exact hQ r

/-- How the loop ends: as the leader only with the lock. -/
def LoopEnds (r : Except JsError Bool) (φ : LeaderPhase) : Prop :=
  φ.idle ∧ (r = .ok true → φ = .holding)

/-- The rest of the loop after a turn: as the leader with the lock, or from the start without
it. -/
theorem follows_turn {turns : ℕ} {outcome : Except JsError (Option TickResult)}
    {afterTenantId : JsString} {φ : LeaderPhase}
    (ih : ∀ isLeader afterTenantId,
      leaderProtocol.Follows (loop turns isLeader afterTenantId) (.believed isLeader) LoopEnds)
    (h : TryEnds outcome φ) :
    leaderProtocol.Follows (match turnOf afterTenantId outcome with
      | .goOn isLeader afterTenantId => loop turns isLeader afterTenantId
      | .failed afterTenantId => do
          disconnect
          pauseUnlessStopping
          loop turns false afterTenantId) φ LoopEnds := by
  -- after an error the client disconnects and stands by
  have hcatch : ∀ (φ : LeaderPhase) (after : JsString), φ.idle → leaderProtocol.Follows (do
      disconnect
      pauseUnlessStopping
      loop turns false after) φ LoopEnds := by
    intro φ after hidle
    have hstandby : LeaderPhase.idle .standby := trivial
    refine Protocol.Follows.bind (M := fun _ ψ => ψ = .standby)
      (follows_disconnect hidle (fun _ => rfl)) (fun _ ψ hψ => ?_) (fun e ψ hψ => ?_)
    · rw [show ψ = _ from hψ]
      refine Protocol.Follows.bind (M := fun _ ψ => ψ = .standby)
        (follows_pause hstandby (fun _ => rfl)) (fun _ ψ hψ => ?_) (fun e ψ hψ => ?_)
      · rw [show ψ = _ from hψ]
        exact ih false after
      · rw [show ψ = _ from hψ]
        exact ⟨trivial, fun h => nomatch h⟩
    · rw [show ψ = _ from hψ]
      exact ⟨trivial, fun h => nomatch h⟩
  cases outcome with
  | error e => exact hcatch φ _ h
  | ok result =>
      cases result with
      | none =>
          rw [show φ = .standby from h]
          exact ih false _
      | some result =>
          rw [show φ = .holding from h]
          have hidle : LeaderPhase.idle .holding := trivial
          -- a tick with failures gives the lock up
          cases hfailed : result.failed with
          | true =>
              simp only [turnOf, hfailed, if_true]
              exact hcatch .holding _ hidle
          | false =>
              simp only [turnOf, hfailed, Bool.false_eq_true, if_false]
              exact ih true _

/-- **The loop keeps to its phases**, for any number of turns. -/
theorem follows_loop (turns : ℕ) (isLeader : Bool) (afterTenantId : JsString) :
    leaderProtocol.Follows (loop turns isLeader afterTenantId) (.believed isLeader) LoopEnds := by
  have hreturn : ∀ {isLeader : Bool}, LoopEnds (.ok isLeader) (.believed isLeader) := by
    intro isLeader
    refine ⟨LeaderPhase.believed_idle isLeader, fun h => ?_⟩
    rw [Except.ok.inj h]
    rfl
  have hthrow : ∀ {φ : LeaderPhase} {e : JsError}, φ.idle → LoopEnds (.error e) φ :=
    fun hidle => ⟨hidle, fun h => nomatch h⟩
  have hidle := LeaderPhase.believed_idle
  induction turns generalizing isLeader afterTenantId with
  | zero =>
      refine Protocol.Follows.bind (M := fun _ ψ => ψ = .believed isLeader)
        (follows_aside (hidle isLeader) rfl (fun _ => rfl)) (fun _ ψ hψ => ?_) (fun e ψ hψ => ?_)
      · rw [show ψ = _ from hψ]
        exact hreturn
      · rw [show ψ = _ from hψ]
        exact hthrow (hidle isLeader)
  | succ turns ih =>
      refine Protocol.Follows.bind (M := fun _ ψ => ψ = .believed isLeader)
        (follows_aside (hidle isLeader) rfl (fun _ => rfl)) (fun stopping ψ hψ => ?_)
        (fun e ψ hψ => ?_)
      · rw [show ψ = _ from hψ]
        cases stopping with
        | true => exact hreturn
        | false =>
            refine Protocol.Follows.bind (M := fun r φ => ∃ r', r = .ok r' ∧ TryEnds r' φ)
              ((Protocol.follows_attempt _ _ _).mpr ((follows_tryTick isLeader afterTenantId).imp
                fun r φ h => ⟨r, rfl, h⟩)) (fun outcome φ hφ => ?_) (fun e φ hφ => ?_)
            · obtain ⟨r', hr', hends⟩ := hφ
              obtain rfl := Except.ok.inj hr'
              exact follows_turn ih hends
            · obtain ⟨_, h, -⟩ := hφ
              exact nomatch h
      · rw [show ψ = _ from hψ]
        exact hthrow (hidle isLeader)

/-- The `finally` of `main`. -/
theorem follows_shutDown {isLeader : Bool} {φ : LeaderPhase} (hidle : φ.idle)
    (hlock : isLeader = true → φ = .holding) :
    leaderProtocol.Follows (shutDown isLeader) φ (fun _ ψ => ψ.idle) := by
  refine Protocol.Follows.ensure (M := fun ψ => ψ = φ)
    (follows_aside hidle rfl (fun _ => rfl)) (fun ψ hψ => ?_)
  rw [show ψ = φ from hψ]
  refine Protocol.Follows.ensure (M := fun ψ => ψ = φ)
    (follows_aside hidle rfl (fun _ => rfl)) (fun ψ hψ => ?_)
  rw [show ψ = φ from hψ]
  refine Protocol.Follows.ensure (M := LeaderPhase.idle) ?_ (fun ψ hψ => ?_)
  · cases isLeader with
    | true =>
        rw [hlock rfl]
        refine (Protocol.follows_perform (P := leaderProtocol) .advisoryUnlock .holding _).mpr
          ⟨⟨rfl, nofun⟩, fun _ => trivial⟩
    | false => exact hidle
  · have hstandby : LeaderPhase.idle .standby := trivial
    refine Protocol.Follows.ensure (M := fun χ => χ = .standby)
      (follows_disconnect hψ (fun _ => rfl)) (fun χ hχ => ?_)
    rw [show χ = .standby from hχ]
    exact follows_aside hstandby rfl (fun _ _ _ _ _ => hstandby)

/-- **The main loop keeps to its phases.** -/
theorem follows_main (turns : ℕ) :
    leaderProtocol.Follows (main turns) .standby (fun _ φ => φ.idle) := by
  refine Protocol.Follows.bind (M := fun r φ => ∃ r', r = .ok r' ∧ LoopEnds r' φ)
    ((Protocol.follows_attempt _ _ _).mpr ((follows_loop turns false []).imp
      fun r φ h => ⟨r, rfl, h⟩)) (fun result φ hφ => ?_) (fun e φ hφ => ?_)
  · obtain ⟨r', hr', hidle, hlock⟩ := hφ
    obtain rfl := Except.ok.inj hr'
    refine (follows_shutDown hidle (fun hleader => hlock ?_)).bind (fun _ ψ hψ => ?_)
      (fun _ _ hψ => hψ)
    · cases result with
      | ok isLeader => exact congrArg Except.ok hleader
      | error e => exact nomatch hleader
    · cases result with
      | ok isLeader => exact hψ
      | error e => exact hψ
  · obtain ⟨_, h, -⟩ := hφ
    exact nomatch h

end

/-! ## What a phase says about the lock and the calls -/

/-- What a process relies on in a phase. -/
def LeaderFacts (s : Cluster) (pid : ℕ) (p : PublisherProcess) (φ : LeaderPhase) : Prop :=
  (φ ≠ .standby → s.lock = some pid) ∧ (φ ≠ .publishing → p.sending = [])

/-- The main loop of a process stands in a phase whose facts hold. -/
def Stands (s : Cluster) (pid : ℕ) (p : PublisherProcess) : Prop :=
  ∃ φ, leaderProtocol.Follows p.prog φ (fun _ ψ => ψ.idle) ∧ LeaderFacts s pid p φ

/-- Every publisher stands somewhere, and none has the number of one to come. -/
structure Led (s : Cluster) : Prop where
  numbered : ∀ pid p, s.processes pid = some p → pid < s.spawned
  stands : ∀ pid p, s.processes pid = some p → Stands s pid p

/-- A process between the selection of rows and the settlement of all its calls: the next
operation of its main loop is one of a tick, or one of its calls is under way. -/
def PublisherProcess.Ticking (p : PublisherProcess) : Prop :=
  (∃ op k, p.prog = .call op k ∧ op.ofTick = true) ∨ ∃ x ∈ p.sending, x.settled = false

/-- **A process in a tick has the lock.** -/
theorem Stands.lock_of_ticking {s : Cluster} {pid : ℕ} {p : PublisherProcess}
    (h : Stands s pid p) (htick : p.Ticking) : s.lock = some pid := by
  obtain ⟨φ, hfollows, hlock, hsending⟩ := h
  refine hlock ?_
  rintro rfl
  rcases htick with ⟨op, k, hprog, hop⟩ | ⟨x, hx, -⟩
  · rw [hprog] at hfollows
    have hstandby : op.ofTick = false ∧ op ≠ .advisoryUnlock := hfollows.1
    rw [hop] at hstandby
    exact nomatch hstandby.1
  · rw [hsending nofun] at hx
    exact nomatch hx

/-- No two processes are in a tick at the same time. -/
def Exclusive (s : Cluster) : Prop :=
  ∀ p q x y, s.processes p = some x → s.processes q = some y → x.Ticking → y.Ticking → p = q

theorem Led.exclusive {s : Cluster} (h : Led s) : Exclusive s := by
  intro p q x y hp hq hx hy
  have hlock := (h.stands p x hp).lock_of_ticking hx
  exact Option.some.inj (hlock.symm.trans ((h.stands q y hq).lock_of_ticking hy))

/-! ## The steps -/

/-- The lock stays with a process that has it, whatever another one does. -/
theorem lockAfter_of_held {lock : Option ℕ} {pid q : ℕ} (h : lock = some q) (hne : q ≠ pid)
    (op : PollerOp) : lockAfter lock pid op = some q := by
  subst h
  have hfreed : freed (some q) pid = some q :=
    if_neg (fun heq => hne (Option.some.inj heq))
  cases op <;> first | rfl | exact hfreed

theorem Stands.of_lock {s s' : Cluster} {pid : ℕ} {p : PublisherProcess} (h : Stands s pid p)
    (hlock : s.lock = some pid → s'.lock = some pid) : Stands s' pid p := by
  obtain ⟨φ, hfollows, hheld, hsending⟩ := h
  exact ⟨φ, hfollows, fun hne => hlock (hheld hne), hsending⟩

/-- One process changes, and the lock does not leave the others. -/
theorem Led.put {s s' : Cluster} (h : Led s) {pid : ℕ} {p : Option PublisherProcess}
    (hprocesses : s'.processes = Function.update s.processes pid p)
    (hspawned : s.spawned ≤ s'.spawned)
    (hnum : ∀ x, p = some x → pid < s'.spawned ∧ Stands s' pid x)
    (hlock : ∀ q, q ≠ pid → s.lock = some q → s'.lock = some q) : Led s' := by
  constructor
  · intro q x hq
    rw [hprocesses] at hq
    by_cases hqp : q = pid
    · subst hqp
      rw [Function.update_self] at hq
      exact (hnum x hq).1
    · rw [Function.update_of_ne hqp] at hq
      exact lt_of_lt_of_le (h.numbered q x hq) hspawned
  · intro q x hq
    rw [hprocesses] at hq
    by_cases hqp : q = pid
    · subst hqp
      rw [Function.update_self] at hq
      exact (hnum x hq).2
    · rw [Function.update_of_ne hqp] at hq
      exact (h.stands q x hq).of_lock (hlock q hqp)

/-- What an operation can tell a main loop: its answer, or an error unless it is local. -/
def Told (collation : LinearOrder JsString) (s : Cluster) (pid : ℕ) (p : PublisherProcess)
    (op : PollerOp) (told : Except JsError op.Res) : Prop :=
  told = .ok (answer collation s pid p op) ∨ op.isLocal = false ∧ ∃ e, told = .error e

/-- How an operation can end: with its effect, or with an error and without an effect. -/
theorem Cluster.perform_cases (collation : LinearOrder JsString) (s : Cluster) (pid : ℕ)
    (p : PublisherProcess) (op : PollerOp) (k : Except JsError op.Res → Polling Unit)
    (fault : Fault) (error : JsError) :
    ∃ told, Told collation s pid p op told ∧
      (s.perform collation pid p op k fault error =
          { s.put pid (some { p with prog := k told, sending := sendingAfter p.sending op }) with
            lock := lockAfter s.lock pid op } ∨
        (∃ e, told = .error e) ∧ op.isLocal = false ∧
          s.perform collation pid p op k fault error =
            s.put pid (some { p with prog := k told })) := by
  unfold Cluster.perform
  cases hlocal : op.isLocal with
  | true => exact ⟨_, .inl rfl, .inl rfl⟩
  | false =>
      cases fault with
      | none => exact ⟨_, .inl rfl, .inl rfl⟩
      | before => exact ⟨.error error, .inr ⟨hlocal, _, rfl⟩, .inr ⟨⟨_, rfl⟩, rfl, rfl⟩⟩
      | after => exact ⟨.error error, .inr ⟨hlocal, _, rfl⟩, .inl rfl⟩

section

variable {collation : LinearOrder JsString} {s s' : Cluster} {pid : ℕ} {p : PublisherProcess}
  {φ : LeaderPhase} {op : PollerOp}

/-- The facts of a phase after an operation that had its effect. -/
theorem LeaderFacts.effect (h : LeaderFacts s pid p φ) (hallow : LeaderAllows φ op)
    {told : Except JsError op.Res} (htold : Told collation s pid p op told)
    (hlock : s'.lock = lockAfter s.lock pid op) {p' : PublisherProcess}
    (hsending : p'.sending = sendingAfter p.sending op) :
    LeaderFacts s' pid p' (φ.next op told) := by
  obtain ⟨hheld, hnone⟩ := h
  unfold LeaderFacts
  rw [hlock, hsending]
  cases φ with
  | standby =>
      have hempty := hnone nofun
      cases op with
      | tryAdvisoryLock =>
          -- it leads only if the lock was free or its own
          refine ⟨fun hne => ?_, fun _ => hempty⟩
          rcases htold with rfl | ⟨-, e, rfl⟩
          · by_cases hfree : s.lock = none ∨ s.lock = some pid
            · rcases hfree with hfree | hmine
              · exact if_pos hfree
              · rw [hmine]
                rfl
            · refine absurd ?_ hne
              show LeaderPhase.next .standby .tryAdvisoryLock (.ok (decide _)) = _
              rw [decide_eq_false hfree]
              rfl
          · exact absurd rfl hne
      | advisoryUnlock => exact absurd rfl hallow.2
      | selectPending => exact nomatch hallow.1
      | findUnpublished => exact nomatch hallow.1
      | startPublishing => exact nomatch hallow.1
      | allSettled => exact nomatch hallow.1
      | _ => exact ⟨fun hne => absurd rfl hne, fun _ => hempty⟩
  -- the lock is kept until it is given back
  | holding =>
      have hempty := hnone nofun
      have hmine := hheld nofun
      cases op with
      | disconnect => exact ⟨fun hne => absurd rfl hne, fun _ => hempty⟩
      | advisoryUnlock => exact ⟨fun hne => absurd rfl hne, fun _ => hempty⟩
      | tryAdvisoryLock => exact absurd rfl hallow.2
      | findUnpublished => exact nomatch hallow.1
      | startPublishing => exact nomatch hallow.1
      | allSettled => exact nomatch hallow.1
      | _ => exact ⟨fun _ => hmine, fun _ => hempty⟩
  | selected ids =>
      have hempty := hnone nofun
      have hmine := hheld nofun
      cases op with
      | findUnpublished => exact ⟨fun _ => hmine, fun _ => hempty⟩
      | startPublishing =>
          rcases htold with rfl | ⟨hlocal, -⟩
          · exact ⟨fun _ => hmine, fun hne => absurd rfl hne⟩
          · exact nomatch hlocal
      | _ => exact hallow.elim
  | found ids rows =>
      have hmine := hheld nofun
      cases op with
      | startPublishing =>
          rcases htold with rfl | ⟨hlocal, -⟩
          · exact ⟨fun _ => hmine, fun hne => absurd rfl hne⟩
          · exact nomatch hlocal
      | _ => exact hallow.elim
  | publishing =>
      have hmine := hheld nofun
      cases op with
      | allSettled => exact ⟨fun _ => hmine, fun _ => rfl⟩
      | _ => exact hallow.elim

/-- The facts of a phase after an operation that failed without an effect. -/
theorem LeaderFacts.fail (h : LeaderFacts s pid p φ) (hallow : LeaderAllows φ op)
    (hlocal : op.isLocal = false) {e : JsError} (hlock : s'.lock = s.lock)
    {p' : PublisherProcess} (hsending : p'.sending = p.sending) :
    LeaderFacts s' pid p' (φ.next op (.error e)) := by
  obtain ⟨hheld, hnone⟩ := h
  unfold LeaderFacts
  rw [hlock, hsending]
  cases φ with
  | standby =>
      have hempty := hnone nofun
      have hnext : LeaderPhase.next .standby op (.error e) = .standby := by
        cases op <;> first | rfl | exact nomatch hallow.1
      rw [hnext]
      exact ⟨fun hne => absurd rfl hne, fun _ => hempty⟩
  | holding =>
      have hempty := hnone nofun
      exact ⟨fun _ => hheld nofun, fun _ => hempty⟩
  | selected ids =>
      have hempty := hnone nofun
      exact ⟨fun _ => hheld nofun, fun _ => hempty⟩
  | found ids rows =>
      have hempty := hnone nofun
      exact ⟨fun _ => hheld nofun, fun _ => hempty⟩
  | publishing =>
      -- the only operation here is local
      cases op with
      | allSettled => exact nomatch hlocal
      | _ => exact hallow.elim

/-- An operation of a main loop. -/
theorem Stands.perform {k : Except JsError op.Res → Polling Unit} (h : Stands s pid p)
    (hprog : p.prog = .call op k) (fault : Fault) (error : JsError) :
    ∃ p', (s.perform collation pid p op k fault error).processes =
        Function.update s.processes pid (some p') ∧
      (s.perform collation pid p op k fault error).spawned = s.spawned ∧
      Stands (s.perform collation pid p op k fault error) pid p' ∧
      ∀ q, q ≠ pid → s.lock = some q →
        (s.perform collation pid p op k fault error).lock = some q := by
  obtain ⟨φ, hfollows, hfacts⟩ := h
  rw [hprog] at hfollows
  obtain ⟨hallow, hk⟩ := hfollows
  obtain ⟨told, htold, heffect | ⟨⟨e, rfl⟩, hlocal, hnone⟩⟩ :=
    Cluster.perform_cases collation s pid p op k fault error
  · rw [heffect]
    exact ⟨_, rfl, rfl, ⟨_, hk told, hfacts.effect hallow htold rfl rfl⟩,
      fun q hq hlock => lockAfter_of_held hlock hq op⟩
  · rw [hnone]
    exact ⟨_, rfl, rfl, ⟨_, hk (.error e), hfacts.fail hallow hlocal rfl rfl⟩,
      fun q _ hlock => hlock⟩

end

theorem freed_of_held {lock : Option ℕ} {pid q : ℕ} (h : lock = some q) (hne : q ≠ pid) :
    freed lock pid = some q := by
  subst h
  exact if_neg (fun heq => hne (Option.some.inj heq))

/-- A process that is no more. -/
theorem Led.die {s : Cluster} (h : Led s) (pid : ℕ) : Led (s.die pid) :=
  h.put rfl le_rfl (fun _ hx => nomatch hx) (fun _ hq hlock => freed_of_held hlock hq)

/-- Only the sending calls of a process are replaced, each by what is left of it. -/
theorem Stands.sending {s : Cluster} {pid : ℕ} {p : PublisherProcess} (h : Stands s pid p)
    {i : ℕ} {x x' : Sending} (hx : p.sending[i]? = some x) :
    Stands s pid { p with sending := p.sending.set i x' } := by
  obtain ⟨φ, hfollows, hheld, hnone⟩ := h
  refine ⟨φ, hfollows, hheld, fun hne => ?_⟩
  rw [hnone hne] at hx
  exact nomatch hx

/-- What a step of a main loop is. -/
theorem step_poll {collation : LinearOrder JsString} {s s' : Cluster} {pid : ℕ} {fault : Fault}
    {error : JsError} (h : step collation s (.poll pid fault error) = some s') :
    ∃ p op k, s.processes pid = some p ∧ p.prog = .call op k ∧ ready p op = true ∧
      s' = s.perform collation pid p op k fault error := by
  obtain ⟨p, hp, h⟩ := Option.bind_eq_some_iff.mp h
  unfold stepPoll at h
  cases hprog : p.prog with
  | ret a => rw [hprog] at h; exact nomatch h
  | throw e => rw [hprog] at h; exact nomatch h
  | call op k =>
      rw [hprog] at h
      dsimp only at h
      split_ifs at h with hready
      exact ⟨p, op, k, hp, hprog, hready, (Option.some.inj h).symm⟩

/-- What a step of a call of `publishOne` is. -/
theorem step_publish {collation : LinearOrder JsString} {s s' : Cluster} {pid i : ℕ} {c : Choice}
    (h : step collation s (.publish pid i c) = some s') :
    ∃ p x op k r w', s.processes pid = some p ∧ p.sending[i]? = some x ∧ x.call = .call op k ∧
      s.world.exec op c = some (r, w') ∧
      s' = { s.put pid (some { p with sending := p.sending.set i { x with call := k r } }) with
        world := w'
        sends := Cluster.sentBy x.row c.fault op ++ s.sends } := by
  obtain ⟨p, hp, h⟩ := Option.bind_eq_some_iff.mp h
  obtain ⟨x, hx, h⟩ := Option.bind_eq_some_iff.mp h
  unfold stepPublish at h
  cases hcall : x.call with
  | ret a => rw [hcall] at h; exact nomatch h
  | throw e => rw [hcall] at h; exact nomatch h
  | call op k =>
      rw [hcall] at h
      obtain ⟨⟨r, w'⟩, hexec, heq⟩ := Option.map_eq_some_iff.mp h
      exact ⟨p, x, op, k, r, w', hp, hx, hcall, hexec, heq.symm⟩

/-- A process that exits has come to the end of its main loop. -/
theorem step_exit {collation : LinearOrder JsString} {s s' : Cluster} {pid : ℕ}
    (h : step collation s (.exit pid) = some s') :
    ∃ p, s.processes pid = some p ∧ (∀ op k, p.prog ≠ .call op k) ∧ s' = s.die pid := by
  obtain ⟨p, hp, h⟩ := Option.bind_eq_some_iff.mp h
  unfold stepExit at h
  cases hprog : p.prog with
  | ret a =>
      rw [hprog] at h
      exact ⟨p, hp, fun _ _ heq => (nomatch hprog.symm.trans heq), (Option.some.inj h).symm⟩
  | throw e =>
      rw [hprog] at h
      exact ⟨p, hp, fun _ _ heq => (nomatch hprog.symm.trans heq), (Option.some.inj h).symm⟩
  | call op k => rw [hprog] at h; exact nomatch h

/-- The other services change the world only. -/
theorem step_service {collation : LinearOrder JsString} {s s' : Cluster} {op : Op} {c : Choice}
    (h : step collation s (.service op c) = some s') :
    ofPublisher op = false ∧ ∃ r w', s.world.exec op c = some (r, w') ∧
      s' = { s with
        world := w' } := by
  dsimp only [step] at h
  split_ifs at h with hop
  obtain ⟨⟨r, w'⟩, hexec, heq⟩ := Option.map_eq_some_iff.mp h
  exact ⟨Bool.eq_false_iff.mpr hop, r, w', hexec, heq.symm⟩

theorem step_passTime {collation : LinearOrder JsString} {s s' : Cluster} {dt : ℚ}
    (h : step collation s (.passTime dt) = some s') :
    s' = { s with
      world := { s.world with clock := s.world.clock + dt } } := by
  dsimp only [step] at h
  split_ifs at h
  exact (Option.some.inj h).symm

/-- **Every step keeps the publishers in their phases.** -/
theorem Led.step {collation : LinearOrder JsString} {s s' : Cluster} {e : ClusterEvent}
    (h : Led s) (hstep : step collation s e = some s') : Led s' := by
  cases e with
  | start turns =>
      obtain rfl := Option.some.inj hstep
      refine h.put rfl (Nat.le_succ _) ?_ (fun _ _ hlock => hlock)
      rintro x ⟨rfl⟩
      exact ⟨Nat.lt_succ_self _, .standby, follows_main turns, fun hne => absurd rfl hne,
        fun _ => rfl⟩
  | signal pid =>
      obtain ⟨p, hp, rfl⟩ := Option.map_eq_some_iff.mp hstep
      refine h.put rfl le_rfl ?_ (fun _ _ hlock => hlock)
      rintro x ⟨rfl⟩
      exact ⟨h.numbered pid p hp, h.stands pid p hp⟩
  | poll pid fault error =>
      obtain ⟨p, op, k, hp, hprog, -, rfl⟩ := step_poll hstep
      obtain ⟨p', hprocesses, hspawned, hstands, hlock⟩ :=
        @Stands.perform collation s pid p op k (h.stands pid p hp) hprog fault error
      refine h.put hprocesses hspawned.ge ?_ hlock
      rintro x ⟨rfl⟩
      exact ⟨hspawned ▸ h.numbered pid p hp, hstands⟩
  | publish pid i c =>
      obtain ⟨p, x, op, k, r, w', hp, hx, -, -, rfl⟩ := step_publish hstep
      refine h.put rfl le_rfl ?_ (fun _ _ hlock => hlock)
      rintro y ⟨rfl⟩
      exact ⟨h.numbered pid p hp, (h.stands pid p hp).sending hx⟩
  | exit pid =>
      obtain ⟨p, -, -, rfl⟩ := step_exit hstep
      exact h.die pid
  | crash pid =>
      obtain ⟨p, -, rfl⟩ := Option.map_eq_some_iff.mp hstep
      exact h.die pid
  | service op c =>
      obtain ⟨-, r, w', -, rfl⟩ := step_service hstep
      exact ⟨h.numbered, h.stands⟩
  | passTime dt =>
      obtain rfl := step_passTime hstep
      exact ⟨h.numbered, h.stands⟩

end OutboxPoller
