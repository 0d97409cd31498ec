/-
# How a run of the guard goes on

* `history`: the operations of the host, with their answers remembered.
* `Stage`: how far a run has come; `guarding` is the protocol of the three modes.
* `Segment`: a part of the program that only asks and reads.
* `follows_program`: the program follows the protocol, so that a lease is only written by a run
  that was granted it.
-/
import Waybill.Guard

namespace Guard

/-! ## A granted lease -/

/-- A check that passes, and what follows it. -/
theorem bind_eq_ok {α β : Type} {x : Checked α} {f : α → Checked β} {b : β} :
    (x >>= f) = .ok b ↔ ∃ a, x = .ok a ∧ f a = .ok b := by
  cases x with
  | ok a =>
      constructor
      · intro h
        exact ⟨a, rfl, h⟩
      · rintro ⟨a', ha, h⟩
        obtain rfl := Except.ok.inj ha
        exact h
  | error e =>
      constructor
      · intro h
        cases h
      · rintro ⟨a, ha, -⟩
        cases ha

theorem object_eq_ok {value : Option Json} {raw : Json} (h : object value = .ok raw) :
    value = some raw := by
  unfold object at h
  split at h
  · rw [← Except.ok.inj h]
  · cases h

/-- A check passes if nothing is refused. -/
theorem ensureNot_eq_ok {refused : Bool} {message : String} {u : Unit} :
    ensureNot refused message = .ok u ↔ refused = false := by
  cases refused with
  | true => simp [ensureNot]
  | false => simp [ensureNot]

/-- What a permission says. -/
theorem permission_eq_ok {policy : Policy} {plan : Plan} {now : ℤ} {lease : Lease}
    (h : permission policy plan now = .ok lease) :
    policy.startsAt ≤ now ∧ now < lease.cutoff ∧ policy.minimumCreditsUsd < plan.credits ∧
      lease.issuedAt = now ∧ lease.validUntil = min (now + leaseLife) lease.cutoff ∧
      lease.cutoff ≤ policy.endsAt ∧ lease.cutoff ≤ policy.benefitsExpireAt - 3 * day ∧
      lease.cutoff ≤ plan.expiresAt - 3 * day := by
  obtain ⟨u, hchecked, h⟩ := bind_eq_ok.mp h
  obtain rfl := Except.ok.inj h
  rw [ensureNot_eq_ok] at hchecked
  simp only [Bool.or_eq_false_iff, decide_eq_false_iff_not, not_lt, not_le, ge_iff_le] at hchecked
  obtain ⟨⟨hstart, hcutoff⟩, hcredits⟩ := hchecked
  exact ⟨hstart, hcutoff, hcredits, rfl, rfl, (min_le_left _ _).trans (min_le_left _ _),
    (min_le_left _ _).trans (min_le_right _ _), min_le_right _ _⟩

/-! ## The history of the operations -/

/-- An operation with its answer. -/
structure Reply where
  op : Op
  answer : Except JsError op.Res

/-- The host, and what was performed, by whom, the last operation first. -/
structure History where
  files : Files
  log : List (ℕ × Reply)

/-- The operations of the host, remembered. -/
def history : Device Host History Choice where
  exec pid op c h := (h.files.exec op c).map (fun rw =>
    (rw.1, { files := rw.2
             log := (pid, ⟨op, rw.1⟩) :: h.log }))

/-- What one run has performed. -/
def repliesOf (log : List (ℕ × Reply)) (pid : ℕ) : List Reply :=
  (log.filter (fun e => e.1 == pid)).map Prod.snd

section

variable {log : List (ℕ × Reply)} {pid q : ℕ} {x : Reply}

theorem repliesOf_cons_self : repliesOf ((pid, x) :: log) pid = x :: repliesOf log pid := by
  simp [repliesOf]

theorem repliesOf_cons_ne (h : pid ≠ q) : repliesOf ((pid, x) :: log) q = repliesOf log q := by
  simp [repliesOf, h]

theorem mem_repliesOf : x ∈ repliesOf log pid ↔ (pid, x) ∈ log := by
  simp only [repliesOf, List.mem_map, List.mem_filter, beq_iff_eq]
  constructor
  · rintro ⟨⟨p, y⟩, ⟨hmem, rfl⟩, rfl⟩
    exact hmem
  · intro hmem
    exact ⟨(pid, x), ⟨hmem, rfl⟩, rfl⟩

theorem repliesOf_subset_cons (e : ℕ × Reply) : repliesOf log q ⊆ repliesOf (e :: log) q := by
  intro y hy
  rw [mem_repliesOf] at hy ⊢
  exact List.mem_cons_of_mem _ hy

end

/-- Runs of the program: each is started with a mode. -/
def runs (dateParse : JsString → Option ℤ) : Machine Host History Choice JsString Unit Empty where
  device := history
  surroundings e _ := e.elim
  body mode _ := some (program dateParse mode)
  after _ _ := none

/-! ## What a run knows -/

/-- What a query was answered. -/
def MetricIn (replies : List Reply) (q : Query) (x : ℚ) : Prop :=
  ∃ (a : Answer) (text : JsString) (value : Json), ⟨.query q, .ok a⟩ ∈ replies ∧ a.ok = true ∧
    a.body = some text ∧ Json.parse text = some value ∧ readMetric value true = .ok x

/-- What the run found in the health file. -/
def PreviousIn (replies : List Reply) (previous : Option ℚ) : Prop :=
  ⟨.existsSync .health, .ok false⟩ ∈ replies ∧ previous = none ∨
    ∃ (text : JsString) (value : Json), ⟨.readFileSync .health, .ok text⟩ ∈ replies ∧
      Json.parse text = some value ∧ readBadSince value = .ok previous

/-- What the run has read about the account and the usage. -/
structure Evidenced (dateParse : JsString → Option ℤ) (replies : List Reply) (policy : Policy)
    (plan : Plan) (sqs writes archives : ℚ) (i : Instant) : Prop where
  policyRead : ∃ (text : JsString) (value : Json), ⟨.readFileSync .policy, .ok text⟩ ∈ replies ∧
    Json.parse text = some value ∧ readPolicy dateParse value = .ok policy
  planRead : ∃ (text : JsString) (value : Json), ⟨.accountPlan, .ok text⟩ ∈ replies ∧
    Json.parse text = some value ∧ readPlan dateParse value policy = .ok plan
  sqsRead : MetricIn replies .sqs sqs
  writesRead : MetricIn replies .writes writes
  archivesRead : MetricIn replies .archives archives
  issued : ⟨.now .permission, .ok i⟩ ∈ replies

/-- The run may issue the lease. -/
def Granted (dateParse : JsString → Option ℤ) (replies : List Reply) (lease : Lease) : Prop :=
  ∃ policy plan sqs writes archives i,
    Evidenced dateParse replies policy plan sqs writes archives i ∧
      permission policy plan i.ms = .ok lease ∧ withinUsage policy sqs writes archives = true

section

variable {dateParse : JsString → Option ℤ} {replies later : List Reply}

/-- Evidence remains when more replies come in. -/
theorem MetricIn.mono {q : Query} {x : ℚ} (h : MetricIn replies q x) (hsub : replies ⊆ later) :
    MetricIn later q x := by
  obtain ⟨a, text, value, hmem, hrest⟩ := h
  exact ⟨a, text, value, hsub hmem, hrest⟩

theorem PreviousIn.mono {previous : Option ℚ} (h : PreviousIn replies previous)
    (hsub : replies ⊆ later) : PreviousIn later previous := by
  rcases h with ⟨hmem, hnone⟩ | ⟨text, value, hmem, hrest⟩
  · exact .inl ⟨hsub hmem, hnone⟩
  · exact .inr ⟨text, value, hsub hmem, hrest⟩

theorem Granted.mono {lease : Lease} (h : Granted dateParse replies lease)
    (hsub : replies ⊆ later) : Granted dateParse later lease := by
  obtain ⟨policy, plan, sqs, writes, archives, i, he, hrest⟩ := h
  obtain ⟨policyText, policyValue, hpolicy, hpolicy'⟩ := he.policyRead
  obtain ⟨planText, planValue, hplan, hplan'⟩ := he.planRead
  refine ⟨policy, plan, sqs, writes, archives, i, ?_, hrest⟩
  exact
    { policyRead := ⟨policyText, policyValue, hsub hpolicy, hpolicy'⟩
      planRead := ⟨planText, planValue, hsub hplan, hplan'⟩
      sqsRead := he.sqsRead.mono hsub
      writesRead := he.writesRead.mono hsub
      archivesRead := he.archivesRead.mono hsub
      issued := hsub he.issued }

end

/-! ## Stages -/

/-- How far a run has come: it has the time of its lease, has judged the health of the system,
has stored that, has its lease ready, or has read the time to check a lease at. -/
inductive Stage where
  | collecting
  | issued (i : Instant)
  | assessed (i : Instant) (healthy : Bool) (t : Instant)
  | stored (i t : Instant) (text : JsString)
  | prepared (text : JsString)
  | checked (t : Instant)
  | finished

/-- The stage after an operation. -/
def Stage.next : Stage → (op : Op) → Except JsError op.Res → Stage
  | .collecting, .now .permission, .ok i => .issued i
  | .collecting, .now .lease, .ok t => .checked t
  | .issued i, .now (.health healthy), .ok t => .assessed i healthy t
  | .assessed i _ t, .writeFileSync .health text, .ok _ => .stored i t text
  | .assessed _ _ _, .writeFileSync .health _, .error _ => .finished
  | .stored _ _ _, .writeFileSync .leaseTmp text, .ok _ => .prepared text
  | .stored _ _ _, .writeFileSync .leaseTmp _, .error _ => .finished
  | .prepared _, .renameSync _ _, _ => .finished
  | .checked t, _, _ => .checked t
  | _, .unlinkSync _, _ => .finished
  | stage, _, _ => stage

/-- Where a run is, with the replies that it has had. -/
structure Phase where
  mode : JsString
  stage : Stage
  replies : List Reply

/-- The operations that a stage depends on, or that change a file. -/
def Op.quiet : Op → Bool
  | .now .permission => false
  | .now .lease => false
  | .now (.health _) => false
  | .writeFileSync _ _ => false
  | .renameSync _ _ => false
  | .unlinkSync _ => false
  | _ => true

section

variable (dateParse : JsString → Option ℤ)

/-- What a run may do next.  Only `enforce` changes files. -/
def Allows (φ : Phase) : Op → Prop
  | .now .permission => φ.stage = .collecting
  | .now .lease => φ.stage = .collecting
  | .now (.health _) => ∃ i, φ.stage = .issued i
  | .writeFileSync .health text => φ.mode = js "enforce" ∧ ∃ i healthy t previous badSince,
      φ.stage = .assessed i healthy t ∧ PreviousIn φ.replies previous ∧
        healthPermission healthy previous t.ms = .ok badSince ∧ text = healthText badSince
  | .writeFileSync .leaseTmp text => φ.mode = js "enforce" ∧ ∃ i t stored lease,
      φ.stage = .stored i t stored ∧ lease.issuedAt = i.ms ∧ Granted dateParse φ.replies lease ∧
        text = leaseText lease
  | .renameSync source target => φ.mode = js "enforce" ∧ source = .leaseTmp ∧ target = .lease ∧
      ∃ text, φ.stage = .prepared text
  | .unlinkSync path => φ.mode = js "enforce" ∧ path = .lease
  | op => op.quiet = true

/-- The protocol of the program. -/
def guarding : Protocol Host where
  Phase := Phase
  Allows := Allows dateParse
  next φ op r :=
    { φ with
      stage := φ.stage.next op r
      replies := ⟨op, r⟩ :: φ.replies }

end

/-! ## Segments -/

/-- The run has only asked and read. -/
structure Phase.Grows (φ ψ : Phase) : Prop where
  mode : ψ.mode = φ.mode
  stage : ψ.stage = φ.stage
  replies : φ.replies ⊆ ψ.replies

theorem Phase.Grows.rfl {φ : Phase} : φ.Grows φ := ⟨Eq.refl _, Eq.refl _, List.Subset.refl _⟩

theorem Phase.Grows.trans {φ ψ χ : Phase} (h : φ.Grows ψ) (h' : ψ.Grows χ) : φ.Grows χ :=
  ⟨h'.mode.trans h.mode, h'.stage.trans h.stage, List.Subset.trans h.replies h'.replies⟩

section

variable {dateParse : JsString → Option ℤ} {α β : Type} {φ : Phase}

/-- The program only asks and reads, and `R` holds of what it returns and of the answers. -/
def Segment (dateParse : JsString → Option ℤ) (p : Prog Host α) (φ : Phase)
    (R : List Reply → α → Prop) : Prop :=
  (guarding dateParse).Follows p φ (fun r ψ => φ.Grows ψ ∧ ∀ a, r = .ok a → R ψ.replies a)

/-- **Two segments** one after the other. -/
theorem Segment.bind {p : Prog Host α} {f : α → Prog Host β} {R : List Reply → α → Prop}
    {R' : List Reply → β → Prop} (hp : Segment dateParse p φ R)
    (hf : ∀ a ψ, φ.Grows ψ → R ψ.replies a → Segment dateParse (f a) ψ R') :
    Segment dateParse (p >>= f) φ R' := by
  refine Protocol.Follows.bind hp ?_ ?_
  · intro a ψ ⟨hgrows, ha⟩
    refine (hf a ψ hgrows (ha a rfl)).imp ?_
    intro r χ ⟨hgrows', hr⟩
    exact ⟨hgrows.trans hgrows', hr⟩
  · intro e ψ ⟨hgrows, _⟩
    exact ⟨hgrows, fun _ h => (nomatch h)⟩

/-- A segment, and what follows it. -/
theorem Segment.follows {p : Prog Host α} {f : α → Prog Host β} {R : List Reply → α → Prop}
    {Q : Except JsError β → Phase → Prop} (hp : Segment dateParse p φ R)
    (herr : ∀ e ψ, φ.Grows ψ → Q (.error e) ψ)
    (hok : ∀ a ψ, φ.Grows ψ → R ψ.replies a → (guarding dateParse).Follows (f a) ψ Q) :
    (guarding dateParse).Follows (p >>= f) φ Q :=
  Protocol.Follows.bind hp (fun a ψ h => hok a ψ h.1 (h.2 a rfl)) (fun e ψ h => herr e ψ h.1)

theorem segment_ret {a : α} {R : List Reply → α → Prop} (h : R φ.replies a) :
    Segment dateParse (.ret a) φ R := by
  refine ⟨.rfl, ?_⟩
  rintro b ⟨⟩
  exact h

theorem segment_throw {e : JsError} {R : List Reply → α → Prop} :
    Segment dateParse (.throw e) φ R :=
  ⟨.rfl, fun _ h => (nomatch h)⟩

theorem segment_check {x : Checked α} :
    Segment dateParse (check x) φ (fun _ a => x = .ok a) := by
  cases x with
  | ok a => exact segment_ret rfl
  | error e => exact segment_throw

theorem stage_of_quiet {op : Op} (h : op.quiet = true) (stage : Stage)
    (r : Except JsError op.Res) : stage.next op r = stage := by
  cases op with
  | now site =>
      cases site with
      | behind => cases stage <;> rfl
      | ahead => cases stage <;> rfl
      | start => cases stage <;> rfl
      | _ => cases h
  | writeFileSync path text => cases h
  | renameSync source target => cases h
  | unlinkSync path => cases h
  | _ => cases stage <;> rfl

theorem allows_of_quiet {op : Op} (h : op.quiet = true) : Allows dateParse φ op := by
  cases op with
  | now site =>
      cases site with
      | behind => rfl
      | ahead => rfl
      | start => rfl
      | _ => cases h
  | writeFileSync path text => cases h
  | renameSync source target => cases h
  | unlinkSync path => cases h
  | _ => rfl

theorem grows_of_quiet {op : Op} (h : op.quiet = true) (r : Except JsError op.Res) :
    φ.Grows ((guarding dateParse).next φ op r) :=
  ⟨rfl, stage_of_quiet h φ.stage r, List.subset_cons_self _ _⟩

/-- A quiet operation is a segment. -/
theorem segment_perform {op : Op} (h : op.quiet = true) :
    Segment dateParse (Prog.perform (S := Host) op) φ (fun replies a => ⟨op, .ok a⟩ ∈ replies) := by
  refine (Protocol.follows_perform (P := guarding dateParse) op φ _).mpr ⟨allows_of_quiet h, ?_⟩
  intro r
  refine ⟨grows_of_quiet h r, ?_⟩
  rintro a rfl
  exact List.mem_cons_self

theorem segment_attempt {op : Op} (h : op.quiet = true) :
    Segment dateParse (Prog.perform (S := Host) op).attempt φ (fun _ _ => True) := by
  refine (Protocol.follows_attempt _ _ _).mpr ?_
  refine (Protocol.follows_perform (P := guarding dateParse) op φ _).mpr ⟨allows_of_quiet h, ?_⟩
  intro r
  exact ⟨grows_of_quiet h r, fun _ _ => trivial⟩

/-! ## What the program asks and reads -/

/-- What `JSON.parse` accepts. -/
theorem parseJson_eq_ok {text : JsString} {value : Json} :
    parseJson text = .ok value ↔ Json.parse text = some value := by
  unfold parseJson
  cases Json.parse text with
  | none => simp
  | some v => simp

/-- `secureRead` has read the text that it returns. -/
theorem segment_secureRead (path : Path) :
    Segment dateParse (secureRead path) φ
      (fun replies text => ⟨.readFileSync path, .ok text⟩ ∈ replies) := by
  refine (segment_perform rfl).bind fun stat ψ _ _ => ?_
  refine segment_check.bind fun _ χ _ _ => ?_
  exact segment_perform rfl

/-- `metric` has had the answer that it reads. -/
theorem segment_metric (q : Query) :
    Segment dateParse (metric q true) φ (fun replies x => MetricIn replies q x) := by
  refine (segment_perform rfl).bind fun response ψ _ hresponse => ?_
  refine segment_check.bind fun _ χ hχ hchecked => ?_
  rw [ensureNot_eq_ok, Bool.or_eq_false_iff, Bool.not_eq_false', Option.isNone_eq_false_iff]
    at hchecked
  obtain ⟨text, htext⟩ := Option.isSome_iff_exists.mp hchecked.2
  refine segment_check.bind fun value ω hω hvalue => ?_
  rw [htext, Option.getD_some, parseJson_eq_ok] at hvalue
  refine segment_check.imp ?_
  intro r ρ ⟨hρ, hr⟩
  refine ⟨hρ, ?_⟩
  intro x hx
  have hmem := hρ.replies (hω.replies (hχ.replies hresponse))
  exact ⟨response, text, value, hmem, hchecked.1, htext, hvalue, hr x hx⟩

/-- What is gathered. -/
structure Gathered (replies : List Reply) (e : Evidence) : Prop where
  planText : ⟨.accountPlan, .ok e.planText⟩ ∈ replies
  sqs : MetricIn replies .sqs e.sqs
  writes : MetricIn replies .writes e.writes
  archives : MetricIn replies .archives e.archives

/-- `gather` returns evidence of its replies. -/
theorem segment_gather : Segment dateParse gather φ Gathered := by
  refine (segment_perform rfl).bind fun planText φ₁ _ hplan => ?_
  refine (segment_attempt rfl).bind fun health φ₂ h₂ _ => ?_
  refine (segment_metric .up).bind fun up φ₃ h₃ _ => ?_
  refine (segment_metric .timestamp).bind fun timestamp φ₄ h₄ _ => ?_
  refine (segment_metric .sqs).bind fun sqs φ₅ h₅ hsqs => ?_
  refine (segment_metric .writes).bind fun writes φ₆ h₆ hwrites => ?_
  refine (segment_metric .archives).bind fun archives φ₇ h₇ harchives => ?_
  have h₅₇ := h₆.trans h₇
  have h₁₇ := h₂.trans (h₃.trans (h₄.trans (h₅.trans h₅₇)))
  refine segment_ret ⟨h₁₇.replies hplan, hsqs.mono h₅₇.replies, hwrites.mono h₇.replies, harchives⟩

/-- `previousBad` has read the time that it returns. -/
theorem segment_previousBad : Segment dateParse previousBad φ PreviousIn := by
  refine (segment_perform rfl).bind fun known ψ _ hknown => ?_
  cases known with
  | false => exact segment_ret (.inl ⟨hknown, rfl⟩)
  | true =>
      refine (segment_secureRead .health).bind fun text χ hχ htext => ?_
      refine segment_check.bind fun value ω hω hvalue => ?_
      refine segment_check.imp ?_
      intro r ρ ⟨hρ, hr⟩
      refine ⟨hρ, ?_⟩
      intro previous hprevious
      exact .inr ⟨text, value, hρ.replies (hω.replies htext), parseJson_eq_ok.mp hvalue,
        hr previous hprevious⟩

/-- `isHealthy` writes nothing. -/
theorem segment_isHealthy (e : Evidence) :
    Segment dateParse (isHealthy e) φ (fun _ _ => True) := by
  unfold isHealthy
  split_ifs
  · refine (segment_perform rfl).bind fun behind ψ _ _ => ?_
    split_ifs
    · refine (segment_perform rfl).bind fun ahead χ _ _ => ?_
      exact segment_ret trivial
    · exact segment_ret trivial
  · exact segment_ret trivial

/-! ## The program follows the protocol -/

/-- The writes of a run, each allowed by what was written before it. -/
theorem follows_renew {i t : Instant} {healthy : Bool} {previous badSince : Option ℚ}
    {lease : Lease} (hmode : φ.mode = js "enforce") (hstage : φ.stage = .assessed i healthy t)
    (hprevious : PreviousIn φ.replies previous)
    (hpermission : healthPermission healthy previous t.ms = .ok badSince)
    (hissued : lease.issuedAt = i.ms) (hgranted : Granted dateParse φ.replies lease) :
    (guarding dateParse).Follows (renew lease badSince) φ (fun _ ψ => ψ.mode = js "enforce") := by
  refine (segment_perform rfl).follows (fun e ψ h => h.mode.trans hmode) fun _ φ₁ h₁ _ => ?_
  refine (segment_perform rfl).follows (fun e ψ h => h.mode.trans (h₁.mode.trans hmode))
    fun _ φ₂ h₂ _ => ?_
  have hgrows := h₁.trans h₂
  have hmode₂ : φ₂.mode = js "enforce" := hgrows.mode.trans hmode
  have hstage₂ : φ₂.stage = .assessed i healthy t := hgrows.stage.trans hstage
  refine Protocol.Follows.step (P := guarding dateParse) (fun _ => Phase.mk φ₂.mode
    (.stored i t (healthText badSince))
    (⟨.writeFileSync .health (healthText badSince), .ok ()⟩ :: φ₂.replies)) ?_ ?_ ?_ fun _ => ?_
  · exact ⟨hmode₂, i, healthy, t, previous, badSince, hstage₂,
      hprevious.mono hgrows.replies, hpermission, rfl⟩
  · intro u
    show Phase.mk _ _ _ = _
    rw [hstage₂]
    rfl
  · intro e
    exact hmode₂
  · refine Protocol.Follows.step (P := guarding dateParse) (fun _ => Phase.mk φ₂.mode
      (.prepared (leaseText lease)) (⟨.writeFileSync .leaseTmp (leaseText lease), .ok ()⟩ ::
        ⟨.writeFileSync .health (healthText badSince), .ok ()⟩ :: φ₂.replies)) ?_ ?_ ?_ fun _ => ?_
    · refine ⟨hmode₂, i, t, _, lease, rfl, hissued, hgranted.mono ?_, rfl⟩
      exact List.Subset.trans hgrows.replies (List.subset_cons_self _ _)
    · intro u
      rfl
    · intro e
      exact hmode₂
    · refine (segment_perform rfl).follows (fun e ψ h => h.mode.trans hmode₂) fun _ φ₃ h₃ _ => ?_
      refine (Protocol.follows_perform (P := guarding dateParse) _ _ _).mpr ⟨?_, ?_⟩
      · exact ⟨h₃.mode.trans hmode₂, rfl, rfl, _, h₃.stage⟩
      · intro r
        exact h₃.mode.trans hmode₂

/-- From the first reading of the clock on. -/
theorem follows_decideLease {mode : JsString} (hmode : mode = js "check" ∨ mode = js "enforce")
    (hφ : φ.mode = mode) (hstage : φ.stage = .collecting) :
    (guarding dateParse).Follows (decideLease dateParse mode) φ (fun _ ψ => ψ.mode = mode) := by
  have herr : ∀ {ψ : Phase}, φ.Grows ψ → ∀ (e : JsError) (χ : Phase), ψ.Grows χ → χ.mode = mode :=
    fun hψ _ _ hχ => (hψ.trans hχ).mode.trans hφ
  refine (segment_perform rfl).follows (herr .rfl) fun now φ₁ h₁ _ => ?_
  refine (segment_secureRead .policy).follows (herr h₁) fun policyText φ₂ h₂ hpolicyText => ?_
  replace h₁ := h₁.trans h₂
  refine segment_check.follows (herr h₁) fun policyValue φ₃ h₃ hpolicyValue => ?_
  replace h₁ := h₁.trans h₃
  refine segment_check.follows (herr h₁) fun policy φ₄ h₄ hpolicy => ?_
  replace h₁ := h₁.trans h₄
  refine segment_check.follows (herr h₁) fun _ φ₅ h₅ _ => ?_
  replace h₁ := h₁.trans h₅
  refine (segment_secureRead .backup).follows (herr h₁) fun backupText φ₆ h₆ _ => ?_
  replace h₁ := h₁.trans h₆
  refine segment_check.follows (herr h₁) fun _ φ₇ h₇ _ => ?_
  replace h₁ := h₁.trans h₇
  have hread := (h₃.trans (h₄.trans (h₅.trans (h₆.trans h₇)))).replies hpolicyText
  refine segment_gather.follows (herr h₁) fun evidence φ₈ h₈ hgathered => ?_
  replace h₁ := h₁.trans h₈
  refine segment_check.follows (herr h₁) fun planValue φ₉ h₉ hplanValue => ?_
  replace h₁ := h₁.trans h₉
  refine segment_check.follows (herr h₁) fun plan ψ h₁₀ hplan => ?_
  replace h₁ := h₁.trans h₁₀
  have hgrows := h₉.trans h₁₀
  have hreadψ := (h₈.trans hgrows).replies hread
  clear hread h₂ h₃ h₄ h₅ h₆ h₇ h₈
  -- the time of the lease
  refine @Protocol.Follows.step Host (guarding dateParse) _ (.now .permission) _ _
    (fun issue : Instant => Phase.mk ψ.mode (.issued issue)
      (⟨.now .permission, .ok issue⟩ :: ψ.replies)) _ ?_ ?_ ?_ fun issue : Instant => ?_
  · exact h₁.stage.trans hstage
  · intro issue
    show Phase.mk _ _ _ = _
    rw [h₁.stage.trans hstage]
    rfl
  · intro e
    exact h₁.mode.trans hφ
  replace hφ := h₁.mode.trans hφ
  clear herr
  set χ : Phase := ⟨ψ.mode, .issued issue, ⟨.now .permission, .ok issue⟩ :: ψ.replies⟩ with hχ
  have herr : ∀ {ω : Phase}, χ.Grows ω → ∀ (e : JsError) (ρ : Phase), ω.Grows ρ → ρ.mode = mode :=
    fun hω _ _ hρ => (hω.trans hρ).mode.trans hφ
  refine segment_check.follows (herr .rfl) fun lease χ₁ k₁ hlease => ?_
  refine segment_check.follows (herr k₁) fun _ χ₂ k₂ husage => ?_
  replace k₁ := k₁.trans k₂
  refine segment_previousBad.follows (herr k₁) fun previous χ₃ k₃ hprevious => ?_
  replace k₁ := k₁.trans k₃
  refine (segment_isHealthy evidence).follows (herr k₁) fun healthy χ₄ k₄ _ => ?_
  replace k₁ := k₁.trans k₄
  have hstage₄ : χ₄.stage = .issued issue := k₁.stage
  -- the time at which its health counts
  refine @Protocol.Follows.step Host (guarding dateParse) _ (.now (.health healthy)) _ _
    (fun later : Instant => Phase.mk χ₄.mode (.assessed issue healthy later)
      (⟨.now (.health healthy), .ok later⟩ :: χ₄.replies)) _ ?_ ?_ ?_ fun later : Instant => ?_
  · exact ⟨issue, hstage₄⟩
  · intro later
    show Phase.mk _ _ _ = _
    rw [hstage₄]
    rfl
  · intro e
    exact k₁.mode.trans hφ
  have hmode₄ : χ₄.mode = mode := k₁.mode.trans hφ
  refine segment_check.follows (fun e ρ hρ => hρ.mode.trans hmode₄) fun badSince ω hω hbad => ?_
  have hmodeω : ω.mode = mode := hω.mode.trans hmode₄
  have hsub : ψ.replies ⊆ ω.replies := by
    refine List.Subset.trans ?_ hω.replies
    refine List.Subset.trans ?_ (List.subset_cons_self _ _)
    exact List.Subset.trans (List.subset_cons_self _ _) k₁.replies
  split_ifs with hcheck
  · refine segment_check.imp ?_
    intro r ρ hρ
    exact hρ.1.mode.trans hmodeω
  · have henforce : mode = js "enforce" := hmode.resolve_left hcheck
    rw [henforce] at hmodeω ⊢
    refine follows_renew hmodeω hω.stage ?_ hbad ?_ ?_
    · refine hprevious.mono (List.Subset.trans k₄.replies ?_)
      exact List.Subset.trans (List.subset_cons_self _ _) hω.replies
    · exact (permission_eq_ok hlease).2.2.2.1
    · refine ⟨policy, plan, evidence.sqs, evidence.writes, evidence.archives, issue, ?_, hlease, ?_⟩
      · exact
          { policyRead := ⟨policyText, policyValue, hsub hreadψ, parseJson_eq_ok.mp hpolicyValue,
              hpolicy⟩
            planRead := ⟨evidence.planText, planValue, hsub (hgrows.replies hgathered.planText),
              parseJson_eq_ok.mp hplanValue, hplan⟩
            sqsRead := (hgathered.sqs.mono hgrows.replies).mono hsub
            writesRead := (hgathered.writes.mono hgrows.replies).mono hsub
            archivesRead := (hgathered.archives.mono hgrows.replies).mono hsub
            issued := by
              refine hω.replies (List.mem_cons_of_mem _ (k₁.replies ?_))
              exact List.mem_cons_self }
      · simpa [ensureNot_eq_ok] using husage

/-- A lease check that returned has found a lease that is valid at the time it read. -/
def Accepted (φ : Phase) : Prop :=
  ∃ (text : JsString) (value : Json) (t : Instant), ⟨.readFileSync .lease, .ok text⟩ ∈ φ.replies ∧
    Json.parse text = some value ∧ validLease value t.ms = true ∧ φ.stage = .checked t

/-- **The script keeps to its stages**, whatever the mode. -/
theorem follows_main {mode : JsString} (hφ : φ.mode = mode) (hstage : φ.stage = .collecting) :
    (guarding dateParse).Follows (main dateParse mode) φ
      (fun r ψ => ψ.mode = mode ∧ (mode = js "lease" → r = .ok () → Accepted ψ)) := by
  unfold main
  split_ifs with hlease hmode
  -- the check of the lease
  · have herr : ∀ {ψ : Phase}, φ.Grows ψ → ∀ (e : JsError) (χ : Phase), ψ.Grows χ →
        χ.mode = mode ∧ (mode = js "lease" → Except.error e = .ok () → Accepted χ) :=
      fun hψ _ _ hχ => ⟨(hψ.trans hχ).mode.trans hφ, fun _ h => (nomatch h)⟩
    refine (segment_secureRead .lease).follows (herr .rfl) fun text φ₁ h₁ htext => ?_
    refine segment_check.follows (herr h₁) fun value ψ h₂ hvalue => ?_
    replace h₁ := h₁.trans h₂
    refine @Protocol.Follows.step Host (guarding dateParse) _ (.now .lease) _ _
      (fun t : Instant => Phase.mk ψ.mode (.checked t) (⟨.now .lease, .ok t⟩ :: ψ.replies)) _
      ?_ ?_ ?_ fun t : Instant => ?_
    · exact h₁.stage.trans hstage
    · intro t
      show Phase.mk _ _ _ = _
      rw [h₁.stage.trans hstage]
      rfl
    · intro e
      exact ⟨h₁.mode.trans hφ, fun _ h => (nomatch h)⟩
    refine segment_check.imp ?_
    intro r χ ⟨hχ, hr⟩
    refine ⟨hχ.mode.trans (h₁.mode.trans hφ), ?_⟩
    rintro - rfl
    have hvalid := ensureNot_eq_ok.mp (hr () rfl)
    exact ⟨text, value, t, hχ.replies (List.mem_cons_of_mem _ (h₂.replies htext)),
      parseJson_eq_ok.mp hvalue, by simpa using hvalid, hχ.stage⟩
  · exact ⟨hφ, fun h => absurd h hlease⟩
  -- the other modes decide about a new one
  · have hmode' : mode = js "check" ∨ mode = js "enforce" := by
      by_contra hnot
      rw [not_or] at hnot
      exact hmode hnot
    have hend : ∀ (r : Except JsError Unit) (ψ : Phase), ψ.mode = mode →
        ψ.mode = mode ∧ (mode = js "lease" → r = .ok () → Accepted ψ) :=
      fun _ _ h => ⟨h, fun h => absurd h hlease⟩
    refine (segment_perform rfl).follows (fun e ψ h => hend _ ψ (h.mode.trans hφ))
      fun uid φ₁ h₁ _ => ?_
    refine segment_check.follows (fun e ψ h => hend _ ψ ((h₁.trans h).mode.trans hφ))
      fun _ φ₂ h₂ _ => ?_
    replace h₁ := h₁.trans h₂
    refine (segment_perform rfl).follows (fun e ψ h => hend _ ψ ((h₁.trans h).mode.trans hφ))
      fun latched φ₃ h₃ _ => ?_
    replace h₁ := h₁.trans h₃
    split_ifs
    · refine segment_check.imp ?_
      intro r ψ hψ
      exact hend r ψ ((h₁.trans hψ.1).mode.trans hφ)
    · refine (follows_decideLease hmode' (h₁.mode.trans hφ) (h₁.stage.trans hstage)).imp ?_
      intro r ψ hψ
      exact hend r ψ hψ

/-- The end of a run: if a lease check succeeds, it has accepted a lease. -/
def Ends (mode : JsString) (r : Except JsError Unit) (φ : Phase) : Prop :=
  mode = js "lease" → r = .ok () → Accepted φ

/-- **The program follows the protocol.** -/
theorem follows_program (mode : JsString) :
    (guarding dateParse).Follows (program dateParse mode) ⟨mode, .collecting, []⟩ (Ends mode) := by
  have hmain : (guarding dateParse).Follows (main dateParse mode) ⟨mode, .collecting, []⟩
      (fun r ψ => ψ.mode = mode ∧ (mode = js "lease" → r = .ok () → Accepted ψ)) :=
    follows_main rfl rfl
  have htry : (guarding dateParse).Follows (main dateParse mode).attempt ⟨mode, .collecting, []⟩
      (fun r ψ => ∃ r', r = .ok r' ∧ ψ.mode = mode ∧
        (mode = js "lease" → r' = .ok () → Accepted ψ)) :=
    (Protocol.follows_attempt _ _ _).mpr (hmain.imp fun r ψ h => ⟨r, rfl, h⟩)
  refine htry.bind ?_ ?_
  · rintro r ψ ⟨r', hr, hψ⟩
    obtain rfl := Except.ok.inj hr
    cases r with
    | ok u => exact fun hlease _ => hψ.2 hlease rfl
    | error e =>
        show (guarding dateParse).Follows (if mode = js "enforce" then _ else _) ψ (Ends mode)
        split_ifs with henforce
        · have hunlink : (guarding dateParse).Follows
              (Prog.perform (S := Host) (.unlinkSync .lease)).attempt ψ (fun _ _ => True) := by
            refine (Protocol.follows_attempt _ _ _).mpr ?_
            refine (Protocol.follows_perform (P := guarding dateParse) _ _ _).mpr ⟨?_, ?_⟩
            · exact ⟨hψ.1.trans henforce, rfl⟩
            · intro _
              trivial
          refine hunlink.bind ?_ ?_
          · intro _ χ _ _ h
            cases h
          · intro _ χ _ _ h
            cases h
        · intro _ h
          cases h
  · rintro e ψ ⟨r', hr, -⟩
    cases hr

end

end Guard
