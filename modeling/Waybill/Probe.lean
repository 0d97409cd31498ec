/-
# The recovery probe

When a circuit was opened at time `T`, the handlers that read it from `T + cooldownMs` on,
until the outcome of such a delivery is recorded, are the readers of its *window*.  Only one
of them is meant to reach the receiver.

* `windowReaders` reads the window off the operations performed so far.
* `single_probe`: one reader at most reaches the receiver, and the others hide their messages
  as `circuit_open`, if before each of the others' readings older deliveries have opened the
  circuit again.
* `two_probes`: otherwise several may, because nothing they write is looked at by the others.
-/
import Waybill.CircuitHistory
import Waybill.Safety

open Worker Publisher Api Records

/-! ## The window -/

/-- The operation reads the circuit. -/
def Op.readsCircuit (env : Env) : Op → Bool
  | .hgetall key => key == circuitKey env
  | _ => false

/-- An outcome is recorded. -/
def TraceEntry.records (env : Env) (x : TraceEntry) : Bool :=
  (x.op.storedCircuit env).isSome && x.result.isOk

/-- The processes that read the circuit in the window after it was opened at time `T`; a
handler's first reading counts, the ones for recording an outcome do not. -/
def windowReaders (env : Env) (T : ℚ) : List TraceEntry → List ℕ
  | [] => []
  | x :: earlier =>
      if x.op.readsCircuit env &&
          earlier.all (fun y => !(y.pid == x.pid && y.op.readsCircuit env)) &&
          decide (T + Circuit.defaultConfig.cooldownMs ≤ x.time) &&
          earlier.any (fun y => y.opens env T) &&
          !earlier.any (fun y => y.records env && (windowReaders env T earlier).contains y.pid)
      then x.pid :: windowReaders env T earlier
      else windowReaders env T earlier

/-- The process has read the circuit. -/
def HasRead (env : Env) (trace : List TraceEntry) (pid : ℕ) : Prop :=
  ∃ x ∈ trace, x.pid = pid ∧ x.op.readsCircuit env = true

/-- What was performed before a process's last operation. -/
def beforeLast (trace : List TraceEntry) (pid : ℕ) : List TraceEntry :=
  (trace.dropWhile (fun x => x.pid != pid)).tail

/-- The process has performed an operation. -/
def Performed (trace : List TraceEntry) (pid : ℕ) (op : Op) : Prop :=
  ∃ x ∈ trace, x.pid = pid ∧ x.op = op ∧ x.result.isOk = true

section

variable {env : Env} {T : ℚ} {x : TraceEntry} {trace : List TraceEntry} {pid : ℕ}

/-- A reader of the window has read. -/
theorem hasRead_of_reader : ∀ {trace : List TraceEntry}, pid ∈ windowReaders env T trace →
    HasRead env trace pid
  | [], h => by cases h
  | x :: earlier, h => by
      have hlater : HasRead env earlier pid → HasRead env (x :: earlier) pid := by
        rintro ⟨y, hy, hrest⟩
        exact ⟨y, List.mem_cons_of_mem _ hy, hrest⟩
      unfold windowReaders at h
      split_ifs at h with hx
      · rcases List.mem_cons.mp h with rfl | h
        · simp only [Bool.and_eq_true] at hx
          exact ⟨x, List.mem_cons_self, rfl, hx.1.1.1.1⟩
        · exact hlater (hasRead_of_reader h)
      · exact hlater (hasRead_of_reader h)

/-- Only a process's own first reading makes it a reader. -/
theorem reader_cons (hx : x.pid ≠ pid ∨ HasRead env trace x.pid ∨ x.op.readsCircuit env = false) :
    pid ∈ windowReaders env T (x :: trace) ↔ pid ∈ windowReaders env T trace := by
  conv_lhs => unfold windowReaders
  split_ifs with hcond
  · simp only [Bool.and_eq_true, List.all_eq_true, Bool.not_eq_true'] at hcond
    rcases hx with hne | ⟨y, hy, hpid, hread⟩ | hnot
    · simp [Ne.symm hne]
    · have := hcond.1.1.1.2 y hy
      simp [hpid, hread] at this
    · rw [hnot] at hcond
      cases hcond.1.1.1.1
  · exact Iff.rfl

theorem hasRead_cons (h : HasRead env trace pid) : HasRead env (x :: trace) pid := by
  obtain ⟨y, hy, hrest⟩ := h
  exact ⟨y, List.mem_cons_of_mem _ hy, hrest⟩

theorem hasRead_cons_other (hx : x.pid ≠ pid ∨ x.op.readsCircuit env = false) :
    HasRead env (x :: trace) pid ↔ HasRead env trace pid := by
  constructor
  · rintro ⟨y, hy, hpid, hread⟩
    rcases List.mem_cons.mp hy with rfl | hy
    · rcases hx with hne | hnot
      · exact absurd hpid hne
      · rw [hnot] at hread
        cases hread
    · exact ⟨y, hy, hpid, hread⟩
  · exact hasRead_cons

theorem beforeLast_cons_other (hx : x.pid ≠ pid) :
    beforeLast (x :: trace) pid = beforeLast trace pid := by
  unfold beforeLast
  rw [List.dropWhile_cons_of_pos (by simpa using hx)]

/-- Before its last operation a process saw the trace so far. -/
theorem beforeLast_cons_self : beforeLast (x :: trace) x.pid = trace := by
  unfold beforeLast
  rw [List.dropWhile_cons_of_neg (by simp), List.tail_cons]

theorem Performed.cons {op : Op} (h : Performed trace pid op) : Performed (x :: trace) pid op := by
  obtain ⟨y, hy, hrest⟩ := h
  exact ⟨y, List.mem_cons_of_mem _ hy, hrest⟩

end

/-! ## Kept out -/

/-- The operations of a handler that only reads the circuit and hides its message. -/
def Op.hides : Op → Bool
  | .hgetall _ => true
  | .now => true
  | .releaseLease _ => true
  | .changeVisibility .. => true
  | .recordDeferral reason => reason == .circuitOpen
  | _ => false

/-- The process has done nothing but hide its message. -/
def Hides (trace : List TraceEntry) (pid : ℕ) : Prop := ∀ x ∈ trace, x.pid = pid → x.op.hides = true

/-- The message has been hidden, and counted as `circuit_open`. -/
def HiddenAsOpen (trace : List TraceEntry) (pid : ℕ) (m : Message) : Prop :=
  (∃ seconds, Performed trace pid (.changeVisibility m.id seconds)) ∧
    Performed trace pid (.recordDeferral .circuitOpen)

/-- A handler that never reaches the receiver; when it returns, its message is hidden as
`circuit_open`. -/
def KeptOut (s : Sys) (pid : ℕ) : Prop :=
  (∀ x ∈ s.world.trace, x.pid = pid → ∀ url body signature, x.op ≠ .fetch url body signature) ∧
    ∀ m ack, s.tasks pid = some ⟨.deliver m, .ret ack⟩ → HiddenAsOpen s.world.trace pid m

/-- In every run whose steps satisfy `ok`, one handler at most of the window after time `T`
reaches the receiver, and the others hide their messages. -/
def SingleProbe (env : Env) (T : ℚ) (ok : Sys → PoolAction Choice Job ℚ → Prop) : Prop :=
  ∀ s, Reached env ok s → ∃ p, ∀ pid ∈ windowReaders env T s.world.trace, pid ≠ p → KeptOut s pid

/-- The operation, if it is a decision in the window of a process other than `p`, is made while
a circuit cools down that had been opened again before the process read it. -/
def OthersReopened (env : Env) (T : ℚ) (p pid : ℕ) (op : Op) (s : State) : Prop :=
  op = .now → pid ∈ windowReaders env T s.trace → pid ≠ p →
    ∃ t, reopened env t (beforeLast s.trace pid) = true ∧
      s.world.clock < t + Circuit.defaultConfig.cooldownMs

/-- Every reader of the window but `p` comes after the circuit was opened again. -/
def OthersReopenedStep (env : Env) (T : ℚ) (p : ℕ) (s : Sys) : PoolAction Choice Job ℚ → Prop
  | .step pid _ => ∀ j op k, s.tasks pid = some ⟨j, .call op k⟩ →
      OthersReopened env T p pid op s.world
  | _ => True

/-! ## What a process has done so far -/

/-- The circuit has admitted the delivery. -/
def Phase.past : Phase → Bool
  | .poison _ => true
  | .admitted .. => true
  | .checking .. => true
  | .due .. => true
  | .settled .. => true
  | .upserting .. => true
  | .trying .. => true
  | .buried .. => true
  | .deferring _ => true
  | .accepted .. => true
  | .complete .. => true
  | _ => false

/-- What is on the trace about a process in a phase; what it has read is the circuit that was
opened again before, as long as that one cools down. -/
def ProbeFacts (env : Env) (T : ℚ) (p pid : ℕ) (clock : ℚ) (trace : List TraceEntry) :
    Phase → Prop
  | .start _ => ∀ x ∈ trace, x.pid ≠ pid
  -- what was read shows every opening that was stored before the read
  | .read _ raw => HasRead env trace pid ∧ ∀ t, reopened env t (beforeLast trace pid) = true →
      clock < t + Circuit.defaultConfig.cooldownMs → Circuit.StoredOpen t raw
  | .denied _ => HasRead env trace pid
  | .hidden m => HasRead env trace pid ∧
      ∃ seconds, Performed trace pid (.changeVisibility m.id seconds)
  | .concealed m => HasRead env trace pid ∧ HiddenAsOpen trace pid m
  | .publishing .. => ¬ HasRead env trace pid
  | .sent .. => ¬ HasRead env trace pid
  | .validating => ¬ HasRead env trace pid
  | .drafted .. => ¬ HasRead env trace pid
  | .uploaded .. => ¬ HasRead env trace pid
  | .replaying _ => ¬ HasRead env trace pid
  | .over => True
  -- it goes on towards the receiver, so it is no reader of the window but `p`
  | _ => HasRead env trace pid ∧ (pid ∈ windowReaders env T trace → pid = p)

section

variable {env : Env} {T clock : ℚ} {p pid : ℕ} {x : TraceEntry} {trace : List TraceEntry}
  {φ : Phase} {op : Op} {r : Except JsError op.Res}

/-- What is known of a handler past its decision. -/
theorem probeFacts_of_past (h : φ.past = true) : ProbeFacts env T p pid clock trace φ ↔
    HasRead env trace pid ∧ (pid ∈ windowReaders env T trace → pid = p) := by
  cases φ <;> first | exact Iff.rfl | cases h

/-- A handler that was admitted stays admitted, until its message is acknowledged. -/
theorem Phase.past_next (h : φ.past = true) (hallow : Allows env φ op) :
    (φ.next op r).past = true ∨ φ.next op r = .over := by
  cases hallow with
  | limit =>
      cases r with
      | error e => exact .inr rfl
      | ok result =>
          refine .inl ?_
          change Phase.past (if result.1 = 1 then _ else _) = true
          split_ifs <;> rfl
  | check =>
      cases r with
      | error e => exact .inr rfl
      | ok existing =>
          rename_i m st q
          refine .inl ?_
          change (afterCheck m st q existing).past = true
          cases existing with
          | none => rfl
          | some d =>
              unfold afterCheck
              simp only
              split_ifs <;> rfl
  | fetch =>
      cases r with
      | error e => exact .inl rfl
      | ok status =>
          refine .inl ?_
          change (afterPost _ _ _ _ _ status).past = true
          unfold afterPost
          split_ifs <;> rfl
  | _ => cases r <;> first | exact .inl rfl | exact .inr rfl | cases h

/-- What others do leaves the facts about a process alone. -/
theorem ProbeFacts.others (h : ProbeFacts env T p pid clock trace φ) (hx : x.pid ≠ pid) :
    ProbeFacts env T p pid clock (x :: trace) φ := by
  have hread : HasRead env (x :: trace) pid ↔ HasRead env trace pid :=
    hasRead_cons_other (.inl hx)
  cases φ with
  | start m => exact List.forall_mem_cons.mpr ⟨hx, h⟩
  | read m raw =>
      obtain ⟨h, hraw⟩ := h
      refine ⟨hread.mpr h, ?_⟩
      rw [beforeLast_cons_other hx]
      exact hraw
  | denied m => exact hread.mpr h
  | hidden m =>
      obtain ⟨h, seconds, hhide⟩ := h
      exact ⟨hread.mpr h, seconds, hhide.cons⟩
  | concealed m =>
      obtain ⟨h, ⟨seconds, hhide⟩, hcount⟩ := h
      exact ⟨hread.mpr h, ⟨seconds, hhide.cons⟩, hcount.cons⟩
  | _ =>
      first
      | exact trivial
      | exact fun hnew => h (hread.mp hnew)
      | exact ⟨hread.mpr h.1, fun hreader => h.2 ((reader_cons (.inl hx)).mp hreader)⟩

/-- So does time. -/
theorem ProbeFacts.later {clock' : ℚ} (h : ProbeFacts env T p pid clock trace φ)
    (hle : clock ≤ clock') : ProbeFacts env T p pid clock' trace φ := by
  cases φ with
  | read m raw => exact ⟨h.1, fun t ht hlt => h.2 t ht (lt_of_le_of_lt hle hlt)⟩
  | _ => exact h

/-- Readers of the window other than `p` have done nothing but hide their messages. -/
def Watched (env : Env) (T : ℚ) (p : ℕ) (trace : List TraceEntry) : Prop :=
  ∀ q ∈ windowReaders env T trace, q ≠ p → Hides trace q

/-- A watched trace stays so with an operation of a reader that hides. -/
theorem Watched.cons (h : Watched env T p trace)
    (hx : x.pid ∈ windowReaders env T (x :: trace) → x.pid ≠ p →
      x.op.hides = true ∧ Hides trace x.pid) : Watched env T p (x :: trace) := by
  intro q hq hqp
  by_cases hxq : x.pid = q
  · subst hxq
    obtain ⟨hop, hold⟩ := hx hq hqp
    exact List.forall_mem_cons.mpr ⟨fun _ => hop, hold⟩
  · have hold := h q ((reader_cons (.inl hxq)).mp hq) hqp
    exact List.forall_mem_cons.mpr ⟨fun hpid => absurd hpid hxq, hold⟩

/-- An operation that hides, of a process that has read the circuit. -/
theorem Watched.hide (h : Watched env T p trace) (hread : HasRead env trace x.pid)
    (hop : x.op.hides = true) : Watched env T p (x :: trace) :=
  h.cons fun hreader hne => ⟨hop, h _ ((reader_cons (.inr (.inl hread))).mp hreader) hne⟩

/-- An operation of a handler that was admitted. -/
theorem Watched.past (h : Watched env T p trace)
    (hx : HasRead env trace x.pid ∧ (x.pid ∈ windowReaders env T trace → x.pid = p)) :
    Watched env T p (x :: trace) :=
  h.cons fun hreader hne =>
    absurd (hx.2 ((reader_cons (.inr (.inl hx.1))).mp hreader)) hne

/-- An operation of a process that has no business with the circuit. -/
theorem Watched.aside (h : Watched env T p trace) (hread : ¬ HasRead env trace x.pid)
    (hop : x.op.readsCircuit env = false) : Watched env T p (x :: trace) :=
  h.cons fun hreader _ =>
    absurd (hasRead_of_reader ((reader_cons (.inr (.inr hop))).mp hreader)) hread

/-- The circuit's decision about a reader other than `p`. -/
theorem probeFacts_afterDecision {m : Message} {raw : RedisHash} {now : ℚ}
    (hread : HasRead env trace pid)
    (hopened : pid ∈ windowReaders env T trace → pid ≠ p →
      ∃ t, Circuit.StoredOpen t raw ∧ now < t + Circuit.defaultConfig.cooldownMs) :
    ProbeFacts env T p pid clock trace
      (afterDecision m (Circuit.getCircuitDecision (Circuit.decode raw) now {})) := by
  have hpast : (Circuit.getCircuitDecision (Circuit.decode raw) now {}).allowed = true →
      HasRead env trace pid ∧ (pid ∈ windowReaders env T trace → pid = p) := by
    intro hallowed
    refine ⟨hread, fun hreader => ?_⟩
    by_contra hne
    obtain ⟨t, hopen, hcooling⟩ := hopened hreader hne
    rw [Circuit.denied_of_storedOpen hopen hcooling] at hallowed
    cases hallowed
  unfold afterDecision
  cases parseQueueMessage m.body <;> split_ifs with hallowed
  · exact hpast hallowed
  · exact hread
  · exact hpast hallowed
  · exact hread

/-- **One operation of a process**: readers of the window but `p` go on hiding. -/
theorem probe_step {s s' : State} {c : Choice} (h : Watched env T p s.trace)
    (hstore : Reflects env s) (hφ : ProbeFacts env T p pid s.world.clock s.trace φ)
    (hallow : Allows env φ op) (hok : OthersReopened env T p pid op s)
    (hexec : device.exec pid op c s = some (r, s')) :
    Watched env T p s'.trace ∧
      ProbeFacts env T p pid s'.world.clock s'.trace (φ.next op r) := by
  obtain ⟨hexec, -, htrace⟩ := device_exec hexec
  rw [htrace, World.clock_of_exec hexec]
  -- behind the decision, nothing more is asked of a process
  by_cases hpast : φ.past = true
  · have hfacts := (probeFacts_of_past hpast).mp hφ
    refine ⟨h.past hfacts, ?_⟩
    rcases Phase.past_next (r := r) hpast hallow with hnext | hnext
    · exact (probeFacts_of_past hnext).mpr ⟨hasRead_cons hfacts.1, fun hreader =>
        hfacts.2 ((reader_cons (.inr (.inl hfacts.1))).mp hreader)⟩
    · rw [hnext]
      exact trivial
  cases hallow with
  | readCircuit =>
      refine ⟨h.cons fun _ _ => ⟨rfl, fun y hy hpid => absurd hpid (hφ y hy)⟩, ?_⟩
      cases r with
      | error e => exact trivial
      | ok raw =>
          refine ⟨⟨_, List.mem_cons_self, rfl, beq_self_eq_true _⟩, ?_⟩
          -- the store still shows the opening when the hash is read
          intro t ht hlt
          rw [beforeLast_cons_self] at ht
          obtain rfl : s.world.redis.get (circuitKey env) s.world.clock = raw :=
            Except.ok.inj (congrArg Prod.fst (World.exec_ok hexec))
          exact storedOpen_of_reopened hstore ht hlt
  | @decide m raw =>
      refine ⟨h.hide hφ.1 rfl, ?_⟩
      obtain ⟨rfl, -⟩ := Prod.mk.inj (Option.some.inj hexec)
      refine probeFacts_afterDecision (hasRead_cons hφ.1) fun hreader hne => ?_
      obtain ⟨t, ht, hlt⟩ := hok rfl ((reader_cons (.inr (.inl hφ.1))).mp hreader) hne
      exact ⟨t, hφ.2 t ht hlt, hlt⟩
  | deniedRelease =>
      refine ⟨h.hide hφ rfl, ?_⟩
      cases r with
      | error e => exact trivial
      | ok a => exact hasRead_cons hφ
  | deniedHide =>
      refine ⟨h.hide hφ rfl, ?_⟩
      cases r with
      | error e => exact trivial
      | ok a => exact ⟨hasRead_cons hφ, _, _, List.mem_cons_self, rfl, rfl, rfl⟩
  | hiddenCount =>
      obtain ⟨hread, seconds, hhide⟩ := hφ
      refine ⟨h.hide hread rfl, ?_⟩
      cases r with
      | error e => exact trivial
      | ok a =>
          exact ⟨hasRead_cons hread, ⟨seconds, hhide.cons⟩, _, List.mem_cons_self, rfl, rfl, rfl⟩
  | _ =>
      first
      | exact absurd rfl hpast
      | refine ⟨h.aside hφ rfl, ?_⟩
        cases r <;> first
          | exact trivial
          | exact fun hnew => hφ ((hasRead_cons_other (.inr rfl)).mp hnew)

end

/-! ## Runs -/

/-- A process that has left nothing on the trace yet. -/
theorem probeFacts_firstPhase {env : Env} {T clock : ℚ} {p pid : ℕ} {trace : List TraceEntry}
    {j : Job} {s : State} (h : ∀ x ∈ trace, x.pid < pid) :
    ProbeFacts env T p pid clock trace (firstPhase j s) := by
  have hnone : ∀ x ∈ trace, x.pid ≠ pid := fun x hx => ne_of_lt (h x hx)
  have hread : ¬ HasRead env trace pid := fun ⟨x, hx, hpid, _⟩ => hnone x hx hpid
  obtain ⟨m, -, hφ⟩ | hφ | hφ | hφ | ⟨row, event, hφ⟩ := firstPhase_cases j s
  · rw [hφ]
    exact hnone
  · rw [hφ]
    exact trivial
  all_goals
    rw [hφ]
    exact hread

/-- The contract of a run in which all readers of the window but `p` come after the circuit was
opened again. -/
def probing (env : Env) (T : ℚ) (p : ℕ) : (custody env).Extension where
  Inv s := Watched env T p s.trace ∧ Reflects env s
  Facts pid _ φ s := ProbeFacts env T p pid s.world.clock s.trace φ
  Apart _ _ := True
  -- asked of the reads of the others, before they are made
  Ok pid _ op _ s := OthersReopened env T p pid op s
  Fresh n s := ∀ x ∈ s.trace, x.pid < n
  begins _ _ hfresh _ := probeFacts_firstPhase hfresh
  surroundings hinv h := by
    have hstore := reflects_later hinv.2 h
    have hle := clock_le_of_passTime h
    obtain rfl := passTime_eq_some h
    exact ⟨⟨hinv.1, hstore⟩, fun _ hn => hn, fun _ _ _ hφ => hφ.later hle⟩
  call _ _ _ _ hinv hφ hallow hok hexec := by
    obtain ⟨hwatched, hnext⟩ := probe_step hinv.1 hinv.2 hφ hallow hok hexec
    exact ⟨⟨hwatched, reflects_step hinv.2 hallow hexec⟩, hnext⟩
  frame _ _ _ _ _ _ hne _ _ _ hexec hψ := by
    obtain ⟨hexec, -, htrace⟩ := device_exec hexec
    rw [htrace, World.clock_of_exec hexec]
    exact hψ.others hne.symm
  after hend hφ ha := by
    obtain ⟨m, ack, rfl, rfl, rfl, rfl⟩ := after_eq_some ha
    obtain ⟨-, q, d, rfl⟩ := hend
    exact hφ
  apart_after _ _ := trivial
  apart_symm _ := trivial
  fresh_succ := trace_fresh_succ
  fresh_call := trace_fresh_call

/-- A handler that returned without reaching the receiver has hidden its message. -/
theorem hiddenAsOpen_of_returned {env : Env} {T clock : ℚ} {p pid : ℕ} {trace : List TraceEntry}
    {m : Message} {ack : Acknowledge} {φ : Phase} (hreader : pid ∈ windowReaders env T trace)
    (hne : pid ≠ p) (hφ : ProbeFacts env T p pid clock trace φ) (hwork : WorksFor (.deliver m) φ)
    (hend : Returns m (.ok ack) φ) : HiddenAsOpen trace pid m := by
  have hpast : φ.past ≠ true := fun hpast =>
    hne (((probeFacts_of_past hpast).mp hφ).2 hreader)
  cases ack with
  | some ack =>
      obtain ⟨-, q, d, rfl⟩ := hend
      exact absurd rfl hpast
  | none =>
      cases φ with
      | concealed m' =>
          rcases hwork m' rfl with hj | ⟨-, q, d, h⟩
          · obtain rfl : m = m' := Job.deliver.inj hj
            exact hφ.2
          · cases h
      | _ => first | exact absurd rfl hpast | cases hend

/-- **A single probe**, if before every other reading of the window the circuit was opened again
and has not cooled down since. -/
theorem single_probe (env : Env) (T : ℚ) (p : ℕ) :
    SingleProbe env T (OthersReopenedStep env T p) := by
  intro s h
  have hgood : (probing env T p).contract.Good s := by
    -- nobody has read the circuit when the run begins
    refine (probing env T p).contract.invariant ?_ ?_ h
    · intro s hs
      have hwatched : Watched env T p s.world.trace := by
        rw [hs.trace]
        exact fun q hq => nomatch hq
      have hfresh : ∀ x ∈ s.world.trace, x.pid < s.spawned := by
        rw [hs.trace]
        exact fun x hx => nomatch hx
      have hstore : Reflects env s.world := by
        constructor
        · intro t ht
          rw [hs.trace] at ht
          cases ht
        · intro t ht
          rw [hs.trace] at ht
          cases ht
      exact .of_empty ⟨hs.sound, hwatched, hstore⟩ ⟨trivial, hfresh⟩ hs.tasks
    · intro s a _ ha
      cases a with
      | spawn j => exact fun _ _ _ => ⟨trivial, trivial⟩
      | step pid c => exact fun j op k ht => ⟨trivial, ha j op k ht⟩
      | _ => exact trivial
  have hwatched : Watched env T p s.world.trace := hgood.inv.2.1
  -- the other readers of the window are watched: each only hides its message
  refine ⟨p, fun pid hreader hne => ⟨?_, ?_⟩⟩
  · intro x hx hpid url body signature hop
    have hhides := hwatched pid hreader hne x hx hpid
    rw [hop] at hhides
    cases hhides
  · intro m ack ht
    obtain ⟨φ, hend, hfacts, hφ⟩ := hgood.stands pid _ ht
    exact hiddenAsOpen_of_returned hreader hne hφ hfacts.2 hend

namespace Sample

/-- A call of the receiver. -/
def calling : Op → Bool
  | .fetch .. => true
  | _ => false

/-- Ten deliveries are on their way.  Five of them open the circuit at time 1000; the other five
fail at 31000, after process 12 has read the circuit, and open it again before process 13 does. -/
def reopening : List (PoolAction Choice Job ℚ) :=
  ingested ++ published 1 firstId ++ List.replicate 10 (.spawn (.deliver firstMessage)) ++
    [7, 8, 9, 10, 11].flatMap (fun pid => calls pid 10 (choice firstId 500)) ++
    [2, 3, 4, 5, 6].flatMap (fun pid => calls pid 14 (choice firstId 500)) ++
    [.surroundings 30000, .spawn (.deliver firstMessage)] ++ calls 12 10 (choice firstId 500) ++
    [7, 8, 9, 10, 11].flatMap (fun pid => calls pid 4 (choice firstId 500)) ++
    [.spawn (.deliver firstMessage)] ++ calls 13 5 (choice firstId 500)

/-- The decisions are those of process 12, or come after the circuit was opened again. -/
def reopenedStep (s : Sys) : PoolAction Choice Job ℚ → Bool
  | .step pid _ =>
      match s.tasks pid with
      | some ⟨_, .call .now _⟩ =>
          pid == 12 || !(windowReaders (env (some (.finite 20))) 1000 s.world.trace).contains pid ||
            (reopened (env (some (.finite 20))) 31000 (beforeLast s.world.trace pid) &&
              decide (s.world.world.clock < 61000))
      | _ => true
  | _ => true

theorem others_of_reopenedStep {s : Sys} {a : PoolAction Choice Job ℚ}
    (h : reopenedStep s a = true) :
    OthersReopenedStep (env (some (.finite 20))) 1000 12 s a := by
  cases a with
  | step pid c =>
      intro j op k ht hop hreader hne
      subst hop
      rw [reopenedStep, ht] at h
      simp only [Bool.or_eq_true, beq_iff_eq, Bool.not_eq_true', Bool.and_eq_true,
        decide_eq_true_eq] at h
      rcases h with (rfl | hnot) | ⟨hagain, hclock⟩
      · exact absurd rfl hne
      · rw [List.contains_iff_mem.mpr hreader] at hnot
        cases hnot
      · exact ⟨31000, hagain, lt_of_lt_of_eq hclock (by decide +kernel)⟩
  | _ => exact trivial

end Sample

/-- Of two readers of the window one calls the receiver, and the other one hides its message. -/
theorem single_probe_reopened : ∃ s : Sys,
    (∀ pid ∈ [12, 13], pid ∈ windowReaders (Sample.env (some (.finite 20))) 1000 s.world.trace) ∧
      (∃ x ∈ s.world.trace, x.pid = 12 ∧ Sample.calling x.op = true) ∧ KeptOut s 13 := by
  obtain ⟨s, hs, htest⟩ := Sample.exists_reached (Sample.env (some (.finite 20))) _
    Sample.reopenedStep Sample.reopening
    (fun s => [12, 13].all (fun pid =>
      (windowReaders (Sample.env (some (.finite 20))) 1000 s.world.trace).contains pid) &&
        s.world.trace.any (fun x => x.pid == 12 && Sample.calling x.op))
    (fun _ _ h => Sample.others_of_reopenedStep h) (by decide +kernel)
  rw [Bool.and_eq_true, List.all_eq_true, List.any_eq_true] at htest
  obtain ⟨hreaders, x, hx, hcalls⟩ := htest
  rw [Bool.and_eq_true, beq_iff_eq] at hcalls
  have hreader : ∀ pid ∈ [12, 13],
      pid ∈ windowReaders (Sample.env (some (.finite 20))) 1000 s.world.trace :=
    fun pid hpid => List.contains_iff_mem.mp (hreaders pid hpid)
  obtain ⟨p, hp⟩ := single_probe (Sample.env (some (.finite 20))) 1000 12 s hs
  have hprobe : 12 = p := by
    by_contra hne
    have hkept := (hp 12 (hreader 12 (by simp)) hne).1 x hx hcalls.1
    cases hop : x.op with
    | fetch url body signature => exact hkept url body signature hop
    | _ => simp [hop, Sample.calling] at hcalls
  refine ⟨s, hreader, ⟨x, hx, hcalls⟩, hp 13 (hreader 13 (by simp)) ?_⟩
  omega

/-- Five deliveries fail and open the circuit at time 1000.  Its key lives as long as it cools
down, so two handlers that read it afterwards find nothing, and both call the receiver. -/
def Sample.probed : List (PoolAction Choice Job ℚ) :=
  ingested ++ published 1 firstId ++ [.spawn (.deliver firstMessage)] ++
    calls 2 20 (choice firstId 500) ++
    [3, 4, 5, 6].flatMap (fun pid =>
      [.spawn (.deliver firstMessage)] ++ calls pid 21 (choice firstId 500)) ++
    [.surroundings 30000, .spawn (.deliver firstMessage), .spawn (.deliver firstMessage)] ++
    calls 7 11 (choice firstId 500) ++ calls 8 11 (choice firstId 500)

/-- Two probes reach the receiver. -/
theorem two_probes : ¬ SingleProbe (Sample.env (some (.finite 10))) 1000 (fun _ _ => True) := by
  intro hclaim
  obtain ⟨s, hs, htest⟩ := Sample.exists_reachable (Sample.env (some (.finite 10))) Sample.probed
    (fun s => [7, 8].all (fun pid =>
      (windowReaders (Sample.env (some (.finite 10))) 1000 s.world.trace).contains pid &&
        s.world.trace.any (fun x => x.pid == pid && Sample.calling x.op))) (by decide +kernel)
  obtain ⟨p, hp⟩ := hclaim s hs
  have hboth : ∀ pid ∈ [7, 8], pid = p := by
    intro pid hpid
    have htest := List.all_eq_true.mp htest pid hpid
    rw [Bool.and_eq_true, List.any_eq_true] at htest
    obtain ⟨hreader, x, hx, hfetch⟩ := htest
    by_contra hne
    have hkept := (hp pid (by simpa using hreader) hne).1 x hx
    rw [Bool.and_eq_true, beq_iff_eq] at hfetch
    cases hop : x.op with
    | fetch url body signature => exact hkept hfetch.1 url body signature hop
    | _ => simp [hop, Sample.calling] at hfetch
  have h7 := hboth 7 (by simp)
  have h8 := hboth 8 (by simp)
  omega
