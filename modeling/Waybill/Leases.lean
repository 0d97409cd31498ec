/-
# Leases are bounded in time

Any runs of the guard, no two of `enforce` at once, together with any lease checks.

* `Streak b`: some run has stored that the system has been bad since `b`, and no run since has
  seen a healthy one.
* `Kept`, `Relies`: what holds of the host, and what a run may rely on.
* `leases_bounded`: a lease that is accepted was issued in the last three minutes by a run whose
  checks passed, and a streak ends all permission five minutes after its beginning.
-/
import Waybill.Calendar
import Waybill.GuardRuns

namespace Guard

/-! ## The texts of the files -/

/-- What a health file says. -/
def badSinceIn (text : JsString) : Option ℚ :=
  (Json.parse text).bind (fun v => (v.get? (js "badSince")).bind Json.number?)

/-- When a lease was issued. -/
def issuedIn (text : JsString) : Option ℚ :=
  (Json.parse text).bind (fun v => (v.get? (js "issuedAt")).bind Json.number?)

/-- What the guard stores: nothing, or a time it has read from the clock once. -/
def Storable (badSince : Option ℚ) : Prop :=
  ∀ b, badSince = some b → ∃ t : Instant, b = t.ms

theorem number?_instant (t : Instant) : (Json.ofNumber t.ms).number? = some (t.ms : ℚ) := by
  apply Json.number?_ofNumber
  have hlower := t.lower
  have hupper := t.upper
  rw [abs_lt]
  omega

/-- The file of the health is a JSON text, -/
theorem parse_healthText (badSince : Option ℚ) :
    Json.parse (healthText badSince) = some (.obj [(js "badSince", match badSince with
      | some t => Json.ofNumber t
      | none => .null)]) :=
  Json.parse_stringify _

/-- from which its time is read back. -/
theorem badSinceIn_healthText {badSince : Option ℚ} (h : Storable badSince) :
    badSinceIn (healthText badSince) = badSince := by
  unfold badSinceIn
  rw [parse_healthText]
  cases badSince with
  | none => rfl
  | some b =>
      obtain ⟨t, rfl⟩ := h b rfl
      exact number?_instant t

/-- The time of issue is read back from a lease. -/
theorem issuedIn_leaseText {lease : Lease} {i : Instant} (h : lease.issuedAt = i.ms) :
    issuedIn (leaseText lease) = some (i.ms : ℚ) := by
  unfold issuedIn leaseText
  rw [Json.parse_stringify, h]
  exact number?_instant i

theorem within_eq_ok {x : Option ℚ} {min max y : ℚ} (h : within x min max = .ok y) :
    x = some y ∧ min ≤ y ∧ y ≤ max := by
  cases x with
  | none => cases h
  | some x =>
      simp only [within] at h
      split_ifs at h with hout
      obtain rfl := Except.ok.inj h
      rw [not_or, not_lt, not_lt] at hout
      exact ⟨rfl, hout⟩

/-- What a run reads in a health file is what the file says. -/
theorem badSinceIn_of_read {text : JsString} {value : Json} {previous : Option ℚ}
    (hvalue : Json.parse text = some value) (hread : readBadSince value = .ok previous) :
    badSinceIn text = previous := by
  unfold badSinceIn
  rw [hvalue, Option.bind_some]
  obtain ⟨raw, hraw, hread⟩ := bind_eq_ok.mp hread
  obtain rfl := Option.some.inj (object_eq_ok hraw)
  split at hread
  · next hnull =>
      rw [hnull, ← Except.ok.inj hread]
      rfl
  · obtain ⟨since, hsince, hread⟩ := bind_eq_ok.mp hread
    rw [← Except.ok.inj hread]
    exact (within_eq_ok hsince).1

/-- A health file that is cut is not read. -/
theorem parse_cut_healthText (badSince : Option ℚ) {n : ℕ} (h : n < (healthText badSince).length) :
    Json.parse ((healthText badSince).take n) = none := by
  have hshort : ∀ m ≤ 12,
      Json.parse ((123 :: (Json.quote (js "badSince") ++ [58])).take m) = none := by
    decide +kernel
  have hlength : (123 :: (Json.quote (js "badSince") ++ [58])).length = 12 := by decide
  obtain ⟨t, htext, ht⟩ : ∃ t, healthText badSince =
      (123 :: (Json.quote (js "badSince") ++ [58])) ++ (t ++ [125]) ∧
        ((∀ u ∈ t, Json.isNumberUnit u = true) ∨ t = js "null") := by
    cases badSince with
    | none => exact ⟨js "null", rfl, .inr rfl⟩
    | some b =>
        rcases Json.ofNumber_cases b with ⟨x, hx, -⟩ | hx
        · exact ⟨x.text, by simp [healthText, hx, Json.stringify, Json.stringifyMembers],
            .inl x.all_isNumberUnit⟩
        · exact ⟨js "null", by simp [healthText, hx, Json.stringify, Json.stringifyMembers],
            .inr rfl⟩
  rw [htext] at h ⊢
  by_cases hn : n ≤ 12
  · rw [List.take_append_of_le_length (by omega)]
    exact hshort n hn
  · obtain ⟨m, rfl⟩ : ∃ m, n = 12 + m := ⟨n - 12, by omega⟩
    have hm : m ≤ t.length := by
      simp only [List.length_append, hlength, List.length_singleton] at h
      omega
    rw [List.take_append, hlength, List.take_of_length_le (by omega),
      show 12 + m - 12 = m by omega, List.take_append_of_le_length hm]
    rcases ht with ht | rfl
    · have hcut := Json.parse_cut (js "badSince")
        (fun u hu => ht u (List.mem_of_mem_take hu) : ∀ u ∈ t.take m, _)
      simpa using hcut
    · have hnull : ∀ m ≤ 4, Json.parse ((123 :: (Json.quote (js "badSince") ++ [58])) ++
          (js "null").take m) = none := by
        decide +kernel
      exact hnull m hm

/-! ## Streaks -/

/-- The operation that tells that a run sees a healthy system. -/
def Op.seesHealthy : Op → Bool
  | .now (.health healthy) => healthy
  | _ => false

/-- **A streak**: a run has stored that the system has been bad since `b`, and no run has seen a
healthy system since. -/
inductive Streak (b : ℚ) : List (ℕ × Reply) → Prop
  | stored {pid text log} : badSinceIn text = some b →
      Streak b ((pid, ⟨.writeFileSync .health text, .ok ()⟩) :: log)
  | later {pid x log} : Streak b log → x.op.seesHealthy = false → Streak b ((pid, x) :: log)

/-- A lease was written, whole or not, to be put in its place. -/
def Drafted (log : List (ℕ × Reply)) (text : JsString) : Prop :=
  ∃ pid r, (pid, ⟨.writeFileSync .leaseTmp text, r⟩) ∈ log

/-- No lease has been written that was issued at `bound` or later. -/
def DraftedBefore (log : List (ℕ × Reply)) (bound : ℚ) : Prop :=
  ∀ text x, Drafted log text → issuedIn text = some x → x < bound

/-- The text is a lease that a run was granted, and has written. -/
def Issued (dateParse : JsString → Option ℤ) (log : List (ℕ × Reply)) (text : JsString) : Prop :=
  ∃ pid lease r, text = leaseText lease ∧ (pid, ⟨.writeFileSync .leaseTmp text, r⟩) ∈ log ∧
    Granted dateParse (repliesOf log pid) lease

section

variable {dateParse : JsString → Option ℤ} {log : List (ℕ × Reply)} {e : ℕ × Reply}

theorem Drafted.cons {text : JsString} (h : Drafted log text) : Drafted (e :: log) text := by
  obtain ⟨pid, r, hmem⟩ := h
  exact ⟨pid, r, List.mem_cons_of_mem _ hmem⟩

theorem Issued.cons {text : JsString} (h : Issued dateParse log text) :
    Issued dateParse (e :: log) text := by
  obtain ⟨pid, lease, r, htext, hmem, hgranted⟩ := h
  exact ⟨pid, lease, r, htext, List.mem_cons_of_mem _ hmem,
    hgranted.mono (repliesOf_subset_cons e)⟩

/-- Only one operation drafts a lease. -/
theorem drafted_cons_iff {text : JsString} : Drafted (e :: log) text ↔
    Drafted log text ∨ e.2.op = .writeFileSync .leaseTmp text := by
  constructor
  · rintro ⟨pid, r, hmem⟩
    rcases List.mem_cons.mp hmem with rfl | hmem
    · exact .inr rfl
    · exact .inl ⟨pid, r, hmem⟩
  · rintro (h | h)
    · exact h.cons
    · obtain ⟨pid, op, r⟩ := e
      obtain rfl : op = .writeFileSync .leaseTmp text := h
      exact ⟨pid, r, List.mem_cons_self⟩

/-- A streak after an operation that stores nothing is one before. -/
theorem Streak.of_cons {b : ℚ} (h : Streak b (e :: log))
    (he : ∀ text, e.2.op = .writeFileSync .health text → badSinceIn text ≠ some b) :
    Streak b log := by
  cases h with
  | stored hb => exact absurd hb (he _ rfl)
  | later h _ => exact h

end

/-! ## What holds of the host -/

/-- The invariant of the host. -/
structure Kept (dateParse : JsString → Option ℤ) (h : History) : Prop where
  health : ∀ text, h.files.file .health = some text →
    Json.parse text = none ∨ ∃ badSince, Storable badSince ∧ text = healthText badSince
  lease : ∀ text, h.files.file .lease = some text → Issued dateParse h.log text
  drafted : ∀ text x, Drafted h.log text → issuedIn text = some x → x ≤ h.files.clock
  streak : ∀ b, Streak b h.log →
    (∃ text, h.files.file .health = some text ∧
      (Json.parse text = none ∨ badSinceIn text = some b)) ∧ DraftedBefore h.log (b + grace)

/-- What a run has read of the health file is what it holds. -/
structure Current (h : History) (replies : List Reply) : Prop where
  read : ∀ text : JsString, ⟨.readFileSync .health, .ok text⟩ ∈ replies →
    h.files.file .health = some text
  absent : ⟨.existsSync .health, .ok false⟩ ∈ replies → h.files.file .health = none

/-- What a run of `enforce` may rely on in a stage. -/
def Stage.Holds (dateParse : JsString → Option ℤ) (h : History) (replies : List Reply) :
    Stage → Prop
  | .collecting => Current h replies
  | .issued i => Current h replies ∧ i.ms ≤ h.files.clock
  | .assessed i healthy t => Current h replies ∧ i.ms ≤ t.ms ∧ t.ms ≤ h.files.clock ∧
      (∀ text x, Drafted h.log text → issuedIn text = some x → x ≤ t.ms) ∧
      (healthy = true → ∀ b, ¬ Streak b h.log)
  | .stored i t text => i.ms ≤ t.ms ∧ t.ms ≤ h.files.clock ∧ h.files.file .health = some text ∧
      ∃ badSince, Storable badSince ∧ text = healthText badSince ∧
        ∀ b, badSince = some b → t.ms - b < grace
  | .prepared text => h.files.file .leaseTmp = some text ∧ Issued dateParse h.log text
  | .checked _ => True
  | .finished => True

/-- What a run may rely on. -/
structure Relies (dateParse : JsString → Option ℤ) (pid : ℕ) (mode : JsString) (φ : Phase)
    (h : History) : Prop where
  same : φ.mode = mode
  replies : φ.replies = repliesOf h.log pid
  lease : ∀ text : JsString, ⟨.readFileSync .lease, .ok text⟩ ∈ φ.replies →
    Issued dateParse h.log text
  checked : ∀ t : Instant, ⟨.now .lease, .ok t⟩ ∈ φ.replies → φ.stage = .checked t
  stage : mode = js "enforce" → φ.stage.Holds dateParse h φ.replies

/-! ## What an operation does -/

/-- The operations that change files. -/
def Op.writes : Op → Bool
  | .writeFileSync _ _ => true
  | .renameSync _ _ => true
  | .unlinkSync _ => true
  | _ => false

/-- **The effects of an operation**: it fails, or does what it is for. -/
inductive Effect (w : Files) : (op : Op) → Except JsError op.Res → Files → Prop
  | failed {op e} : Effect w op (.error e) w
  | torn {path text e n} : n < text.length →
      Effect w (.writeFileSync path text) (.error e) (w.put path (some (text.take n)))
  | time {site} {t : Instant} : w.clock ≤ t.ms → Effect w (.now site) (.ok t) { w with
      clock := t.ms }
  | found {path} {b : Bool} : (path.own = true → b = (w.file path).isSome) →
      Effect w (.existsSync path) (.ok b) w
  | read {path} {text : JsString} : (path.own = true → w.file path = some text) →
      Effect w (.readFileSync path) (.ok text) w
  | other {op} {r : op.Res} : op.writes = false → (∀ site, op ≠ .now site) →
      (∀ path, op ≠ .existsSync path) → (∀ path, op ≠ .readFileSync path) → Effect w op (.ok r) w
  | wrote {path text} : Effect w (.writeFileSync path text) (.ok ()) (w.put path (some text))
  | renamed {source target content} : w.file source = some content →
      Effect w (.renameSync source target) (.ok ()) ((w.put source none).put target (some content))
  | removed {path} : Effect w (.unlinkSync path) (.ok ()) (w.put path none)

section

variable {w w' : Files} {h h' : History} {pid : ℕ} {op : Op} {c : Choice}

/-- An operation acts on the files, and is logged with its answer. -/
theorem history_exec {r : Except JsError op.Res} (hexec : history.exec pid op c h = some (r, h')) :
    h.files.exec op c = some (r, h'.files) ∧ h'.log = (pid, ⟨op, r⟩) :: h.log := by
  obtain ⟨⟨r', w'⟩, hw, heq⟩ := Option.map_eq_some_iff.mp hexec
  obtain ⟨rfl, rfl⟩ := Prod.mk.inj heq
  exact ⟨hw, rfl⟩

/-- **What an operation does to the files.** -/
theorem effect_of_exec {r : Except JsError op.Res} (hexec : w.exec op c = some (r, w')) :
    Effect w op r w' := by
  -- an operation that leaves files and clock alone
  have hplain : ∀ {op : Op} {a : op.Res} {r : Except JsError op.Res},
      some (Except.ok a, w) = some (r, w') → op.writes = false → (∀ site, op ≠ .now site) →
        (∀ path, op ≠ .existsSync path) → (∀ path, op ≠ .readFileSync path) →
          Effect w op r w' := by
    intro op a r heq hwrites hnow hexists hread
    obtain ⟨rfl, rfl⟩ := Prod.mk.inj (Option.some.inj heq)
    exact .other hwrites hnow hexists hread
  unfold Files.exec at hexec
  split at hexec
  · split_ifs at hexec with hn
    obtain ⟨rfl, rfl⟩ := Prod.mk.inj (Option.some.inj hexec)
    exact .torn hn
  · obtain ⟨rfl, rfl⟩ := Prod.mk.inj (Option.some.inj hexec)
    exact .failed
  · exact hplain hexec rfl (by simp) (by simp) (by simp)
  · split_ifs at hexec with hclock
    obtain ⟨rfl, rfl⟩ := Prod.mk.inj (Option.some.inj hexec)
    exact .time hclock
  · split_ifs at hexec with hown
    · obtain ⟨rfl, rfl⟩ := Prod.mk.inj (Option.some.inj hexec)
      exact .found fun _ => rfl
    · obtain ⟨rfl, rfl⟩ := Prod.mk.inj (Option.some.inj hexec)
      exact .found fun h => absurd h hown
  · exact hplain hexec rfl (by simp) (by simp) (by simp)
  · split_ifs at hexec with hown
    · split at hexec
      · next content hcontent =>
          obtain ⟨rfl, rfl⟩ := Prod.mk.inj (Option.some.inj hexec)
          exact .read fun _ => hcontent
      · obtain ⟨rfl, rfl⟩ := Prod.mk.inj (Option.some.inj hexec)
        exact .failed
    · obtain ⟨rfl, rfl⟩ := Prod.mk.inj (Option.some.inj hexec)
      exact .read fun h => absurd h hown
  · exact hplain hexec rfl (by simp) (by simp) (by simp)
  · exact hplain hexec rfl (by simp) (by simp) (by simp)
  · exact hplain hexec rfl (by simp) (by simp) (by simp)
  · exact hplain hexec rfl (by simp) (by simp) (by simp)
  · exact hplain hexec rfl (by simp) (by simp) (by simp)
  · obtain ⟨rfl, rfl⟩ := Prod.mk.inj (Option.some.inj hexec)
    exact .wrote
  · split at hexec
    · next content hcontent =>
        obtain ⟨rfl, rfl⟩ := Prod.mk.inj (Option.some.inj hexec)
        exact .renamed hcontent
    · obtain ⟨rfl, rfl⟩ := Prod.mk.inj (Option.some.inj hexec)
      exact .failed
  · split_ifs at hexec
    · obtain ⟨rfl, rfl⟩ := Prod.mk.inj (Option.some.inj hexec)
      exact .removed
    · obtain ⟨rfl, rfl⟩ := Prod.mk.inj (Option.some.inj hexec)
      exact .failed
  · cases hexec

/-- What does not write leaves the files as they are, and the clock goes on. -/
theorem Effect.frame {r : Except JsError op.Res} (heffect : Effect w op r w')
    (hop : op.writes = false) : w'.file = w.file ∧ w.clock ≤ w'.clock := by
  cases heffect with
  | time hclock => exact ⟨rfl, hclock⟩
  | torn _ => cases hop
  | wrote => cases hop
  | renamed _ => cases hop
  | removed => cases hop
  | _ => exact ⟨rfl, le_rfl⟩

/-- A file of the script is read as it is. -/
theorem Effect.read_eq {path : Path} {text : JsString}
    (heffect : Effect w (.readFileSync path) (.ok text) w') (hown : path.own = true) :
    w.file path = some text := by
  cases heffect with
  | read hread => exact hread hown
  | other _ _ _ hno => exact absurd rfl (hno path)

/-- A file of the script is found if it is there. -/
theorem Effect.found_eq {path : Path} {b : Bool} (heffect : Effect w (.existsSync path) (.ok b) w')
    (hown : path.own = true) : b = (w.file path).isSome := by
  cases heffect with
  | found hfound => exact hfound hown
  | other _ _ hno _ => exact absurd rfl (hno path)

/-- The clock does not go back. -/
theorem Effect.time_eq {site : Site} {t : Instant} (heffect : Effect w (.now site) (.ok t) w') :
    w.clock ≤ t.ms ∧ w'.clock = t.ms := by
  cases heffect with
  | time hclock => exact ⟨hclock, rfl⟩
  | other _ hno _ _ => exact absurd rfl (hno site)

end

/-! ## Steps that write nothing -/

section

variable {dateParse : JsString → Option ℤ} {h h' : History} {pid : ℕ} {op : Op}
  {r : Except JsError op.Res}

/-- An operation that writes no file keeps the files accounted for. -/
theorem Kept.frame (hkept : Kept dateParse h) (hop : op.writes = false)
    (heffect : Effect h.files op r h'.files) (hlog : h'.log = (pid, ⟨op, r⟩) :: h.log) :
    Kept dateParse h' := by
  obtain ⟨hfile, hclock⟩ := heffect.frame hop
  have hnot : ∀ path text, op ≠ .writeFileSync path text := by
    rintro path text rfl
    cases hop
  have hdrafted : ∀ {text}, Drafted h'.log text → Drafted h.log text := by
    intro text hd
    rw [hlog, drafted_cons_iff] at hd
    exact hd.resolve_right (hnot .leaseTmp text)
  constructor
  · rw [hfile]
    exact hkept.health
  · rw [hfile, hlog]
    intro text hlease
    exact (hkept.lease text hlease).cons
  · intro text x hd hx
    exact (hkept.drafted text x (hdrafted hd) hx).trans (by exact_mod_cast hclock)
  · intro b hstreak
    rw [hlog] at hstreak
    obtain ⟨hhealth, hbefore⟩ :=
      hkept.streak b (hstreak.of_cons fun text htext => absurd htext (hnot .health text))
    rw [hfile]
    exact ⟨hhealth, fun text x hd hx => hbefore text x (hdrafted hd) hx⟩

/-- What a stage relies on outlives the steps of the others that write nothing. -/
theorem Stage.Holds.frame {stage : Stage} {replies : List Reply}
    (hholds : stage.Holds dateParse h replies) (hop : op.writes = false)
    (heffect : Effect h.files op r h'.files) (hlog : h'.log = (pid, ⟨op, r⟩) :: h.log) :
    stage.Holds dateParse h' replies := by
  obtain ⟨hfile, hclock⟩ := heffect.frame hop
  have hnot : ∀ path text, op ≠ .writeFileSync path text := by
    rintro path text rfl
    cases hop
  have hcurrent : Current h replies → Current h' replies := by
    rintro ⟨hread, habsent⟩
    exact ⟨hfile ▸ hread, hfile ▸ habsent⟩
  cases stage with
  | collecting => exact hcurrent hholds
  | issued i => exact ⟨hcurrent hholds.1, hholds.2.trans hclock⟩
  | assessed i healthy t =>
      obtain ⟨hcur, hi, ht, hdrafted, hhealthy⟩ := hholds
      refine ⟨hcurrent hcur, hi, ht.trans hclock, ?_, ?_⟩
      · intro text x hd hx
        rw [hlog, drafted_cons_iff] at hd
        exact hdrafted text x (hd.resolve_right (hnot .leaseTmp text)) hx
      · intro hh b hstreak
        rw [hlog] at hstreak
        exact hhealthy hh b (hstreak.of_cons fun text htext => absurd htext (hnot .health text))
  | stored i t text =>
      obtain ⟨hi, ht, hhealth, hbad⟩ := hholds
      exact ⟨hi, ht.trans hclock, hfile ▸ hhealth, hbad⟩
  | prepared text => exact ⟨hfile ▸ hholds.1, hlog ▸ hholds.2.cons⟩
  | checked t => exact trivial
  | finished => exact trivial

/-- What is read of the health file is what it holds. -/
theorem Current.cons {replies : List Reply} (hcurrent : Current h replies)
    (hop : op.writes = false) (heffect : Effect h.files op r h'.files) :
    Current h' (⟨op, r⟩ :: replies) := by
  have hfile := (heffect.frame hop).1
  constructor
  · intro text hmem
    rw [hfile]
    rcases List.mem_cons.mp hmem with heq | hmem
    · cases heq
      exact heffect.read_eq rfl
    · exact hcurrent.read text hmem
  · intro hmem
    rw [hfile]
    rcases List.mem_cons.mp hmem with heq | hmem
    · cases heq
      have hsome := heffect.found_eq rfl
      exact Option.not_isSome_iff_eq_none.mp (by simp [← hsome])
    · exact hcurrent.absent hmem

end

/-! ## Steps that write -/

section

variable {w w' : Files}

@[simp] theorem put_file_self (path : Path) (content : Option JsString) :
    (w.put path content).file path = content := by
  simp [Files.put]

theorem put_file_ne {path other : Path} (content : Option JsString) (hne : other ≠ path) :
    (w.put path content).file other = w.file other := by
  simp [Files.put, hne]

@[simp] theorem put_clock (path : Path) (content : Option JsString) :
    (w.put path content).clock = w.clock := rfl

/-- A write puts the text, or fails before or after. -/
theorem Effect.write_cases {path : Path} {text : JsString} {r : Except JsError Unit}
    (heffect : Effect w (.writeFileSync path text) r w') :
    (r = .ok () ∧ w' = w.put path (some text)) ∨
      ∃ e, r = .error e ∧ (w' = w ∨ ∃ n < text.length, w' = w.put path (some (text.take n))) := by
  cases heffect with
  | failed => exact .inr ⟨_, rfl, .inl rfl⟩
  | torn hn => exact .inr ⟨_, rfl, .inr ⟨_, hn, rfl⟩⟩
  | wrote => exact .inl ⟨rfl, rfl⟩
  | other hwrites => cases hwrites

/-- A renaming moves the text, or does nothing. -/
theorem Effect.rename_cases {source target : Path} {r : Except JsError Unit}
    (heffect : Effect w (.renameSync source target) r w') :
    w' = w ∨ ∃ content, w.file source = some content ∧
      w' = (w.put source none).put target (some content) := by
  cases heffect with
  | failed => exact .inl rfl
  | renamed hcontent => exact .inr ⟨_, hcontent, rfl⟩
  | other hwrites => cases hwrites

/-- A deletion removes the file, or does nothing. -/
theorem Effect.unlink_cases {path : Path} {r : Except JsError Unit}
    (heffect : Effect w (.unlinkSync path) r w') : w' = w ∨ w' = w.put path none := by
  cases heffect with
  | failed => exact .inl rfl
  | removed => exact .inr rfl
  | other hwrites => cases hwrites

end

section

variable {dateParse : JsString → Option ℤ} {h h' : History} {pid : ℕ} {replies : List Reply}
  {i t : Instant} {healthy : Bool} {previous badSince : Option ℚ}

/-- When the health is no obstacle. -/
theorem healthPermission_cases {now : ℤ}
    (h : healthPermission healthy previous now = .ok badSince) :
    healthy = true ∧ badSince = none ∨
      healthy = false ∧ badSince = some (previous.getD now) ∧ now - previous.getD now < grace := by
  cases healthy with
  | true => exact .inl ⟨rfl, (Except.ok.inj h).symm⟩
  | false =>
      simp only [healthPermission, Bool.false_eq_true, if_false] at h
      split_ifs at h with hout
      rw [not_or, not_lt, not_le] at hout
      exact .inr ⟨rfl, (Except.ok.inj h).symm, hout.2⟩

/-- **What a run stores** is a time, it has not lasted for the grace period, and it goes on with
the streak there is. -/
theorem storable_of_permission (hkept : Kept dateParse h) (hcurrent : Current h replies)
    (hprevious : PreviousIn replies previous)
    (hpermission : healthPermission healthy previous t.ms = .ok badSince) :
    Storable badSince ∧ (∀ b, badSince = some b → t.ms - b < grace) ∧
      (healthy = false → ∀ b, Streak b h.log → badSince = some b) := by
  rcases healthPermission_cases hpermission with ⟨rfl, rfl⟩ | ⟨rfl, rfl, hgrace⟩
  · exact ⟨fun b hb => (nomatch hb), fun b hb => (nomatch hb), fun hfalse => (nomatch hfalse)⟩
  refine ⟨?_, ?_, ?_⟩
  · rintro b hb
    obtain rfl := Option.some.inj hb
    rcases hprevious with ⟨-, rfl⟩ | ⟨text, value, hread, hvalue, hbad⟩
    · exact ⟨t, rfl⟩
    · have hin := badSinceIn_of_read hvalue hbad
      rcases hkept.health text (hcurrent.read text hread) with hnone | ⟨stored, hstored, rfl⟩
      · rw [hnone] at hvalue
        cases hvalue
      · rw [badSinceIn_healthText hstored] at hin
        cases previous with
        | none => exact ⟨t, rfl⟩
        | some p => exact hstored p hin
  · rintro b hb
    obtain rfl := Option.some.inj hb
    exact hgrace
  · intro _ b hstreak
    obtain ⟨⟨text, hfile, htext⟩, -⟩ := hkept.streak b hstreak
    rcases hprevious with ⟨habsent, -⟩ | ⟨text', value, hread, hvalue, hbad⟩
    · rw [hcurrent.absent habsent] at hfile
      cases hfile
    · obtain rfl := Option.some.inj ((hcurrent.read text' hread).symm.trans hfile)
      rcases htext with hnone | hb
      · rw [hnone] at hvalue
        cases hvalue
      · rw [← badSinceIn_of_read hvalue hbad, hb]
        rfl

/-- The health file is written. -/
theorem Kept.store (hkept : Kept dateParse h)
    (hholds : (Stage.assessed i healthy t).Holds dateParse h replies)
    (hprevious : PreviousIn replies previous)
    (hpermission : healthPermission healthy previous t.ms = .ok badSince)
    {r : Except JsError Unit}
    (heffect : Effect h.files (.writeFileSync .health (healthText badSince)) r h'.files)
    (hlog : h'.log = (pid, ⟨.writeFileSync .health (healthText badSince), r⟩) :: h.log) :
    Kept dateParse h' ∧ ((Stage.assessed i healthy t).next
      (.writeFileSync .health (healthText badSince)) r).Holds dateParse h'
        (⟨.writeFileSync .health (healthText badSince), r⟩ :: replies) := by
  obtain ⟨hcurrent, hi, ht, hdrafted, hhealthy⟩ := hholds
  obtain ⟨hstorable, hgrace, hstreak⟩ :=
    storable_of_permission hkept hcurrent hprevious hpermission
  have hold : ∀ {text}, Drafted h'.log text → Drafted h.log text := by
    intro text hd
    rw [hlog, drafted_cons_iff] at hd
    exact hd.resolve_right (by simp)
  have hlease : ∀ text, h.files.file .lease = some text → Issued dateParse h'.log text := by
    intro text hfile
    rw [hlog]
    exact (hkept.lease text hfile).cons
  -- a streak before is one of a system that is still bad
  have hgoes : ∀ b, Streak b h.log → badSince = some b ∧ DraftedBefore h'.log (b + grace) := by
    intro b hb
    have hfalse : healthy = false := Bool.eq_false_iff.mpr fun htrue => hhealthy htrue b hb
    exact ⟨hstreak hfalse b hb, fun text x hd hx => (hkept.streak b hb).2 text x (hold hd) hx⟩
  have hin := badSinceIn_healthText hstorable
  rcases heffect.write_cases with ⟨rfl, hfiles⟩ | ⟨e, rfl, hfiles⟩
  · have hfile : h'.files.file .health = some (healthText badSince) := by
      rw [hfiles, put_file_self]
    have hclock : h'.files.clock = h.files.clock := by rw [hfiles, put_clock]
    refine ⟨⟨?_, ?_, ?_, ?_⟩, ?_⟩
    · intro text htext
      obtain rfl := Option.some.inj (hfile.symm.trans htext)
      exact .inr ⟨badSince, hstorable, rfl⟩
    · intro text htext
      rw [hfiles, put_file_ne _ (by decide)] at htext
      exact hlease text htext
    · intro text x hd hx
      rw [hclock]
      exact hkept.drafted text x (hold hd) hx
    · intro b hb
      have hstored : badSince = some b ∧ DraftedBefore h'.log (b + grace) := by
        rw [hlog] at hb
        cases hb with
        | stored hb =>
            rw [hin] at hb
            refine ⟨hb, ?_⟩
            intro text x hd hx
            have hx' := hdrafted text x (hold hd) hx
            have hlt := hgrace b hb
            linarith
        | later hb _ => exact hgoes b hb
      exact ⟨⟨_, hfile, .inr (hin.trans hstored.1)⟩, hstored.2⟩
    · exact ⟨hi, hclock ▸ ht, hfile, badSince, hstorable, rfl, hgrace⟩
  · have hother : ∀ path, path ≠ .health → h'.files.file path = h.files.file path := by
      intro path hne
      rcases hfiles with hfiles | ⟨n, -, hfiles⟩
      · rw [hfiles]
      · rw [hfiles, put_file_ne _ hne]
    have hclock : h'.files.clock = h.files.clock := by
      rcases hfiles with hfiles | ⟨n, -, hfiles⟩
      · rw [hfiles]
      · rw [hfiles, put_clock]
    -- the file is as it was, or cut
    have hcut : h'.files.file .health = h.files.file .health ∨
        ∃ text, h'.files.file .health = some text ∧ Json.parse text = none := by
      rcases hfiles with hfiles | ⟨n, hn, hfiles⟩
      · exact .inl (by rw [hfiles])
      · exact .inr ⟨_, by rw [hfiles, put_file_self], parse_cut_healthText badSince hn⟩
    refine ⟨⟨?_, ?_, ?_, ?_⟩, trivial⟩
    · intro text htext
      rcases hcut with hcut | ⟨text', hcut, hnone⟩
      · exact hkept.health text (hcut ▸ htext)
      · obtain rfl := Option.some.inj (hcut.symm.trans htext)
        exact .inl hnone
    · intro text htext
      rw [hother .lease (by decide)] at htext
      exact hlease text htext
    · intro text x hd hx
      rw [hclock]
      exact hkept.drafted text x (hold hd) hx
    · intro b hb
      have hb' : Streak b h.log := by
        rw [hlog] at hb
        cases hb with
        | later hb _ => exact hb
      refine ⟨?_, (hgoes b hb').2⟩
      rcases hcut with hcut | ⟨text', hcut, hnone⟩
      · rw [hcut]
        exact (hkept.streak b hb').1
      · exact ⟨text', hcut, .inl hnone⟩

/-- A lease is written beside its place. -/
theorem Kept.draft (hkept : Kept dateParse h) {stored : JsString} {lease : Lease}
    (hholds : (Stage.stored i t stored).Holds dateParse h replies) (hissued : lease.issuedAt = i.ms)
    (hreplies : replies = repliesOf h.log pid) (hgranted : Granted dateParse replies lease)
    {r : Except JsError Unit}
    (heffect : Effect h.files (.writeFileSync .leaseTmp (leaseText lease)) r h'.files)
    (hlog : h'.log = (pid, ⟨.writeFileSync .leaseTmp (leaseText lease), r⟩) :: h.log) :
    Kept dateParse h' ∧ ((Stage.stored i t stored).next
      (.writeFileSync .leaseTmp (leaseText lease)) r).Holds dateParse h'
        (⟨.writeFileSync .leaseTmp (leaseText lease), r⟩ :: replies) := by
  obtain ⟨hi, ht, hhealth, badSince, hstorable, rfl, hgrace⟩ := hholds
  -- only the draft of the lease is written, whole or in part
  have hother : ∀ path, path ≠ .leaseTmp → h'.files.file path = h.files.file path := by
    intro path hne
    rcases heffect.write_cases with ⟨-, hfiles⟩ | ⟨e, -, hfiles | ⟨n, -, hfiles⟩⟩
    · rw [hfiles, put_file_ne _ hne]
    · rw [hfiles]
    · rw [hfiles, put_file_ne _ hne]
  have hclock : h'.files.clock = h.files.clock := by
    rcases heffect.write_cases with ⟨-, hfiles⟩ | ⟨e, -, hfiles | ⟨n, -, hfiles⟩⟩
    · rw [hfiles, put_clock]
    · rw [hfiles]
    · rw [hfiles, put_clock]
  -- a draft is one of before, or this run's
  have hdraft : ∀ text x, Drafted h'.log text → issuedIn text = some x →
      Drafted h.log text ∨ x = i.ms := by
    intro text x hd hx
    rw [hlog, drafted_cons_iff] at hd
    refine hd.imp_right ?_
    intro hop
    obtain ⟨-, htext⟩ := Op.writeFileSync.inj hop
    rw [← htext, issuedIn_leaseText hissued] at hx
    exact (Option.some.inj hx).symm
  have hit : (i.ms : ℚ) ≤ t.ms := by exact_mod_cast hi
  constructor
  · constructor
    · intro text htext
      rw [hother .health (by decide)] at htext
      exact hkept.health text htext
    · intro text htext
      rw [hother .lease (by decide)] at htext
      rw [hlog]
      exact (hkept.lease text htext).cons
    · intro text x hd hx
      rw [hclock]
      rcases hdraft text x hd hx with hd | rfl
      · exact hkept.drafted text x hd hx
      · exact_mod_cast hi.trans ht
    · intro b hb
      rw [hlog] at hb
      obtain ⟨⟨text, hfile, htext⟩, hbefore⟩ := hkept.streak b (hb.of_cons fun text htext => by
        cases htext)
      rw [hother .health (by decide)]
      refine ⟨⟨text, hfile, htext⟩, ?_⟩
      intro draft x hd hx
      rcases hdraft draft x hd hx with hd | rfl
      · exact hbefore draft x hd hx
      · -- the run has stored the beginning of the streak itself
        obtain rfl := Option.some.inj (hhealth.symm.trans hfile)
        rcases htext with hnone | hb
        · rw [parse_healthText] at hnone
          cases hnone
        · rw [badSinceIn_healthText hstorable] at hb
          have hlt := hgrace b hb
          linarith
  · rcases heffect.write_cases with ⟨rfl, hfiles⟩ | ⟨e, rfl, -⟩
    · refine ⟨by rw [hfiles, put_file_self], pid, lease, .ok (), rfl, ?_, ?_⟩
      · rw [hlog]
        exact List.mem_cons_self
      · rw [hlog]
        exact (hreplies ▸ hgranted).mono (repliesOf_subset_cons _)
    · exact trivial

end

section

variable {dateParse : JsString → Option ℤ} {h h' : History} {pid : ℕ} {replies : List Reply}

/-- A step that only changes where the lease is. -/
theorem Kept.move (hkept : Kept dateParse h) {op : Op} {r : Except JsError op.Res}
    (hlog : h'.log = (pid, ⟨op, r⟩) :: h.log) (hnot : ∀ path text, op ≠ .writeFileSync path text)
    (hhealth : h'.files.file .health = h.files.file .health)
    (hclock : h'.files.clock = h.files.clock)
    (hlease : ∀ text, h'.files.file .lease = some text → Issued dateParse h.log text) :
    Kept dateParse h' := by
  have hold : ∀ {text}, Drafted h'.log text → Drafted h.log text := by
    intro text hd
    rw [hlog, drafted_cons_iff] at hd
    exact hd.resolve_right (hnot .leaseTmp text)
  constructor
  · rw [hhealth]
    exact hkept.health
  · intro text htext
    rw [hlog]
    exact (hlease text htext).cons
  · intro text x hd hx
    rw [hclock]
    exact hkept.drafted text x (hold hd) hx
  · intro b hb
    rw [hlog] at hb
    obtain ⟨hfile, hbefore⟩ :=
      hkept.streak b (hb.of_cons fun text htext => absurd htext (hnot .health text))
    rw [hhealth]
    exact ⟨hfile, fun text x hd hx => hbefore text x (hold hd) hx⟩

/-- The lease is put in its place. -/
theorem Kept.place (hkept : Kept dateParse h) {text : JsString}
    (hholds : (Stage.prepared text).Holds dateParse h replies) {r : Except JsError Unit}
    (heffect : Effect h.files (.renameSync .leaseTmp .lease) r h'.files)
    (hlog : h'.log = (pid, ⟨.renameSync .leaseTmp .lease, r⟩) :: h.log) : Kept dateParse h' := by
  refine hkept.move hlog (by simp) ?_ ?_ ?_
  · rcases heffect.rename_cases with hfiles | ⟨content, -, hfiles⟩
    · rw [hfiles]
    · rw [hfiles, put_file_ne _ (by decide), put_file_ne _ (by decide)]
  · rcases heffect.rename_cases with hfiles | ⟨content, -, hfiles⟩
    · rw [hfiles]
    · rw [hfiles, put_clock, put_clock]
  · intro text' htext
    rcases heffect.rename_cases with hfiles | ⟨content, hcontent, hfiles⟩
    · exact hkept.lease text' (hfiles ▸ htext)
    · rw [hfiles, put_file_self] at htext
      obtain rfl := Option.some.inj htext
      obtain rfl := Option.some.inj (hholds.1.symm.trans hcontent)
      exact hholds.2

/-- A failed run takes the lease away. -/
theorem Kept.withdraw (hkept : Kept dateParse h) {r : Except JsError Unit}
    (heffect : Effect h.files (.unlinkSync .lease) r h'.files)
    (hlog : h'.log = (pid, ⟨.unlinkSync .lease, r⟩) :: h.log) : Kept dateParse h' := by
  refine hkept.move hlog (by simp) ?_ ?_ ?_
  · rcases heffect.unlink_cases with hfiles | hfiles
    · rw [hfiles]
    · rw [hfiles, put_file_ne _ (by decide)]
  · rcases heffect.unlink_cases with hfiles | hfiles
    · rw [hfiles]
    · rw [hfiles, put_clock]
  · intro text htext
    rcases heffect.unlink_cases with hfiles | hfiles
    · exact hkept.lease text (hfiles ▸ htext)
    · rw [hfiles, put_file_self] at htext
      cases htext

end

/-! ## The contract -/

section

variable {dateParse : JsString → Option ℤ} {h h' : History} {pid : ℕ} {mode : JsString}
  {φ : Phase} {op : Op} {c : Choice} {r : Except JsError op.Res}

/-- Only `enforce` writes. -/
theorem mode_of_writes (hallow : Allows dateParse φ op) (hwrites : op.writes = true) :
    φ.mode = js "enforce" := by
  cases op with
  | writeFileSync path text =>
      cases path with
      | health => exact hallow.1
      | leaseTmp => exact hallow.1
      | _ => cases hallow
  | renameSync source target => exact hallow.1
  | unlinkSync path => exact hallow.1
  | _ => cases hwrites

/-- The stage after an operation, for a run of `enforce`. -/
theorem stage_step (hkept : Kept dateParse h) (hrelies : Relies dateParse pid mode φ h)
    (henforce : mode = js "enforce") (hallow : Allows dateParse φ op)
    (heffect : Effect h.files op r h'.files) (hlog : h'.log = (pid, ⟨op, r⟩) :: h.log) :
    Kept dateParse h' ∧ (φ.stage.next op r).Holds dateParse h' (⟨op, r⟩ :: φ.replies) := by
  obtain ⟨mode', stage, replies⟩ := φ
  have hholds : stage.Holds dateParse h replies := hrelies.stage henforce
  -- what is only asked or read
  have hquiet : op.writes = false → ∀ s, s = stage →
      s.Holds dateParse h' (⟨op, r⟩ :: replies) := by
    rintro hop s rfl
    have hframe := hholds.frame hop heffect hlog
    cases s with
    | collecting => exact hholds.cons hop heffect
    | issued i => exact ⟨hholds.1.cons hop heffect, hframe.2⟩
    | assessed i healthy t => exact ⟨hholds.1.cons hop heffect, hframe.2⟩
    | _ => exact hframe
  by_cases hop : op.quiet = true
  · have hwrites : op.writes = false := by
      cases op <;> first | rfl | cases hop
    refine ⟨hkept.frame hwrites heffect hlog, ?_⟩
    exact hquiet hwrites _ (stage_of_quiet hop stage r)
  cases op with
  | now site =>
      have hkept' : Kept dateParse h' := hkept.frame rfl heffect hlog
      cases site with
      | permission =>
          obtain rfl : stage = .collecting := hallow
          cases r with
          | error e => exact ⟨hkept', hquiet rfl _ rfl⟩
          | ok i => exact ⟨hkept', hholds.cons rfl heffect, heffect.time_eq.2.ge⟩
      | lease =>
          obtain rfl : stage = .collecting := hallow
          cases r with
          | error e => exact ⟨hkept', hquiet rfl _ rfl⟩
          | ok t => exact ⟨hkept', trivial⟩
      | health healthy =>
          obtain ⟨i, rfl⟩ : ∃ i, stage = .issued i := hallow
          cases r with
          | error e => exact ⟨hkept', hquiet rfl _ rfl⟩
          | ok t =>
              obtain ⟨hcurrent, hi⟩ := hholds
              obtain ⟨hclock, ht⟩ := heffect.time_eq
              refine ⟨hkept', hcurrent.cons rfl heffect, hi.trans hclock, ht.ge, ?_, ?_⟩
              · intro text x hd hx
                have hle := hkept'.drafted text x hd hx
                rwa [ht] at hle
              · rintro rfl b hb
                rw [hlog] at hb
                cases hb with
                | later _ hblind => cases hblind
      | _ => exact absurd rfl hop
  | writeFileSync path text =>
      cases path with
      | health =>
          obtain ⟨-, i, healthy, t, previous, badSince, hstage, hprevious, hpermission, rfl⟩ :=
            hallow
          obtain rfl : stage = .assessed i healthy t := hstage
          exact hkept.store hholds hprevious hpermission heffect hlog
      | leaseTmp =>
          obtain ⟨-, i, t, stored, lease, hstage, hissued, hgranted, rfl⟩ := hallow
          obtain rfl : stage = .stored i t stored := hstage
          exact hkept.draft hholds hissued hrelies.replies hgranted heffect hlog
      | _ => cases hallow
  | renameSync source target =>
      obtain ⟨-, rfl, rfl, text, hstage⟩ := hallow
      obtain rfl : stage = .prepared text := hstage
      exact ⟨hkept.place hholds heffect hlog, trivial⟩
  | unlinkSync path =>
      obtain ⟨-, rfl⟩ := hallow
      refine ⟨hkept.withdraw heffect hlog, ?_⟩
      cases stage <;> trivial
  | _ => exact absurd rfl hop

/-- **A run's own step.** -/
theorem relies_step (hkept : Kept dateParse h) (hrelies : Relies dateParse pid mode φ h)
    (hallow : Allows dateParse φ op) (heffect : Effect h.files op r h'.files)
    (hlog : h'.log = (pid, ⟨op, r⟩) :: h.log) :
    Kept dateParse h' ∧ Relies dateParse pid mode ((guarding dateParse).next φ op r) h' := by
  have hkept' : Kept dateParse h' := by
    by_cases hwrites : op.writes = true
    · have hmode : mode = js "enforce" := hrelies.same ▸ mode_of_writes hallow hwrites
      exact (stage_step hkept hrelies hmode hallow heffect hlog).1
    · exact hkept.frame (Bool.eq_false_iff.mpr hwrites) heffect hlog
  refine ⟨hkept', hrelies.same, ?_, ?_, ?_, ?_⟩
  · show ⟨op, r⟩ :: φ.replies = _
    rw [hlog, repliesOf_cons_self, hrelies.replies]
  · intro text hmem
    rw [hlog]
    rcases List.mem_cons.mp hmem with heq | hmem
    · cases heq
      exact (hkept.lease text (heffect.read_eq rfl)).cons
    · exact (hrelies.lease text hmem).cons
  · intro t hmem
    show φ.stage.next op r = .checked t
    rcases List.mem_cons.mp hmem with heq | hmem
    · cases heq
      have hstage : φ.stage = .collecting := hallow
      rw [hstage]
      rfl
    · rw [hrelies.checked t hmem]
      rfl
  · intro henforce
    exact (stage_step hkept hrelies henforce hallow heffect hlog).2

/-- **The steps of the others.** -/
theorem relies_frame {q : ℕ} {mode' : JsString} {ψ : Phase}
    (hapart : ¬ (mode = js "enforce" ∧ mode' = js "enforce")) (hne : q ≠ pid)
    (hrelies : Relies dateParse pid mode φ h) (hallow : Allows dateParse φ op)
    (heffect : Effect h.files op r h'.files) (hlog : h'.log = (pid, ⟨op, r⟩) :: h.log)
    (hother : Relies dateParse q mode' ψ h) : Relies dateParse q mode' ψ h' := by
  refine ⟨hother.same, ?_, ?_, hother.checked, ?_⟩
  · rw [hlog, repliesOf_cons_ne hne.symm]
    exact hother.replies
  · intro text hmem
    rw [hlog]
    exact (hother.lease text hmem).cons
  · intro henforce
    have hwrites : op.writes = false := by
      refine Bool.eq_false_iff.mpr fun hwrites => hapart ⟨?_, henforce⟩
      rw [← hrelies.same]
      exact mode_of_writes hallow hwrites
    exact (hother.stage henforce).frame hwrites heffect hlog

/-- **The contract of the guard.**  No two runs of `enforce` are under way at once. -/
def guardContract (dateParse : JsString → Option ℤ) :
    Contract (runs dateParse) (guarding dateParse) where
  Inv := Kept dateParse
  first mode _ := ⟨mode, .collecting, []⟩
  Facts := Relies dateParse
  End := Ends
  -- a check may overlap anything, two renewals may not overlap
  Apart mode mode' := ¬ (mode = js "enforce" ∧ mode' = js "enforce")
  Ok _ _ _ _ _ := True
  Fresh n h := ∀ e ∈ h.log, e.1 < n
  follows hb := by
    obtain rfl := Option.some.inj hb
    exact follows_program _
  begins {pid mode h p} _ hfresh _ := by
    have hnone : repliesOf h.log pid = [] := by
      rw [List.eq_nil_iff_forall_not_mem]
      intro x hx
      exact absurd (hfresh _ (mem_repliesOf.mp hx)) (lt_irrefl _)
    refine ⟨rfl, hnone.symm, fun _ h => (nomatch h), fun _ h => (nomatch h), fun _ => ?_⟩
    exact ⟨fun _ h => (nomatch h), fun h => (nomatch h)⟩
  surroundings {e} := e.elim
  call hkept hrelies hallow _ hexec := by
    obtain ⟨hfiles, hlog⟩ := history_exec hexec
    exact relies_step hkept hrelies hallow (effect_of_exec hfiles) hlog
  frame _ hapart hne hrelies hallow _ hexec hother := by
    obtain ⟨hfiles, hlog⟩ := history_exec hexec
    exact relies_frame hapart hne hrelies hallow (effect_of_exec hfiles) hlog hother
  goes_on _ _ ha := by cases ha
  after _ _ ha := by cases ha
  apart_after ha := by cases ha
  apart_symm h := fun ⟨hi, hj⟩ => h ⟨hj, hi⟩
  fresh_succ h := fun e he => Nat.lt_succ_of_lt (h e he)
  fresh_call hpid h hexec := by
    rw [(history_exec hexec).2]
    intro e he
    rcases List.mem_cons.mp he with rfl | he
    · exact hpid
    · exact h e he

/-! ## Lease checks -/

/-- What a valid lease says. -/
theorem times_of_validLease {lease : Lease} {i : Instant} {now : ℤ} {value : Json}
    (hissued : lease.issuedAt = i.ms) (huntil : |lease.validUntil| < 2 ^ 53)
    (hvalue : Json.parse (leaseText lease) = some value) (hvalid : validLease value now = true) :
    i.ms ≤ now + 5 * second ∧ now < lease.validUntil := by
  obtain rfl := Option.some.inj ((Json.parse_stringify _).symm.trans hvalue)
  unfold validLease at hvalid
  simp only at hvalid
  split at hvalid
  · next valid hchecked =>
      obtain ⟨raw, hraw, hchecked⟩ := bind_eq_ok.mp hchecked
      obtain rfl := Option.some.inj (object_eq_ok hraw)
      obtain ⟨issued, hi, hchecked⟩ := bind_eq_ok.mp hchecked
      obtain ⟨validUntil, hu, hchecked⟩ := bind_eq_ok.mp hchecked
      obtain ⟨cutoff, -, hchecked⟩ := bind_eq_ok.mp hchecked
      have hreadi : (Json.ofNumber lease.issuedAt).number? = some issued := (within_eq_ok hi).1
      have hreadu : (Json.ofNumber lease.validUntil).number? = some validUntil :=
        (within_eq_ok hu).1
      rw [hissued, number?_instant] at hreadi
      rw [Json.number?_ofNumber huntil] at hreadu
      obtain rfl := Option.some.inj hreadi
      obtain rfl := Option.some.inj hreadu
      have hall := Except.ok.inj hchecked
      rw [hvalid] at hall
      simp only [Bool.and_eq_true, decide_eq_true_eq] at hall
      obtain ⟨⟨⟨⟨hi5, -⟩, -⟩, hnow⟩, -⟩ := hall
      exact ⟨by exact_mod_cast hi5, by exact_mod_cast hnow⟩
  · cases hvalid

/-- The guard after a start of the host: no files, and nothing has run. -/
structure Boots (s : Pool Host History JsString Unit) : Prop where
  health : s.world.files.file .health = none
  lease : s.world.files.file .lease = none
  log : s.world.log = []
  tasks : ∀ pid, s.tasks pid = none

/-- A run of `enforce` is started when no other one is under way. -/
def OneAtATime (s : Pool Host History JsString Unit) :
    PoolAction Choice JsString Empty → Prop
  | .spawn mode => mode = js "enforce" →
      ∀ pid task, s.tasks pid = some task → task.job ≠ js "enforce"
  | _ => True

/-- The lease check `pid` has read the time `t` and has succeeded. -/
def Succeeded (s : Pool Host History JsString Unit) (pid : ℕ) (t : Instant) : Prop :=
  s.tasks pid = some ⟨js "lease", .ret ()⟩ ∧ (pid, ⟨.now .lease, .ok t⟩) ∈ s.world.log

/-- The contract holds in every run, one process at a time. -/
theorem good_of_runs {s : Pool Host History JsString Unit}
    (h : Run Boots (runs dateParse).step OneAtATime s) : (guardContract dateParse).Good s := by
  refine (guardContract dateParse).invariant ?_ ?_ h
  · intro s hs
    have hnone : ∀ text, ¬ Drafted s.world.log text := by
      rintro text ⟨pid, r, hmem⟩
      rw [hs.log] at hmem
      cases hmem
    refine .of_empty ⟨?_, ?_, ?_, ?_⟩ ?_ hs.tasks
    · intro text htext
      rw [hs.health] at htext
      cases htext
    · intro text htext
      rw [hs.lease] at htext
      cases htext
    · intro text x hd
      exact absurd hd (hnone text)
    · intro b hb
      rw [hs.log] at hb
      cases hb
    · intro e he
      rw [hs.log] at he
      cases he
  · intro s a _ ha
    cases a with
    | spawn mode =>
        rintro pid task htask ⟨hmode, hjob⟩
        exact ha hmode pid task htask hjob
    | step pid c => exact fun _ _ _ _ => trivial
    | _ => exact trivial

/-- **Leases are bounded in time.**  A lease check that succeeds at `t` has read a lease that was
issued less than three minutes before, within the window of the policy and of the plan, by a run
which has seen credits above the reserve and usage within the limits.  And in a streak that has
begun at `b` none succeeds from five minutes after `b` on. -/
theorem leases_bounded {s : Pool Host History JsString Unit}
    (h : Run Boots (runs dateParse).step OneAtATime s) :
    (∀ pid t, Succeeded s pid t → ∃ run lease r policy plan sqs writes archives i,
      (pid, ⟨.readFileSync .lease, .ok (leaseText lease)⟩) ∈ s.world.log ∧
      (run, ⟨.writeFileSync .leaseTmp (leaseText lease), r⟩) ∈ s.world.log ∧
      Evidenced dateParse (repliesOf s.world.log run) policy plan sqs writes archives i ∧
      permission policy plan i.ms = .ok lease ∧
      policy.startsAt ≤ i.ms ∧ i.ms ≤ t.ms + 5 * second ∧ t.ms < i.ms + 180 * second ∧
      t.ms < min (min policy.endsAt (policy.benefitsExpireAt - 3 * day))
        (plan.expiresAt - 3 * day) ∧
      policy.minimumCreditsUsd < plan.credits ∧ sqs + 120 ≤ policy.maxSqsPerHour ∧
      writes ≤ policy.maxWritesPerHour ∧ archives ≤ policy.maxArchiveReadsPerHour) ∧
    ∀ b, Streak b s.world.log → ∀ pid t, Succeeded s pid t → (t.ms : ℚ) < b + 300 * second := by
  have hgood := good_of_runs h
  -- the lease that was read, and the run that issued it
  have hread : ∀ pid t, Succeeded s pid t → ∃ run lease r policy plan sqs writes archives i,
      (pid, ⟨.readFileSync .lease, .ok (leaseText lease)⟩) ∈ s.world.log ∧
      (run, ⟨.writeFileSync .leaseTmp (leaseText lease), r⟩) ∈ s.world.log ∧
      Evidenced dateParse (repliesOf s.world.log run) policy plan sqs writes archives i ∧
      permission policy plan i.ms = .ok lease ∧ withinUsage policy sqs writes archives = true ∧
      i.ms ≤ t.ms + 5 * second ∧ t.ms < lease.validUntil := by
    rintro pid t ⟨htask, htime⟩
    obtain ⟨φ, hends, hrelies⟩ := hgood.stands pid _ htask
    obtain ⟨text, value, t', hmem, hvalue, hvalid, hstage⟩ := hends rfl rfl
    have hreplies := hrelies.replies
    have htime' : ⟨.now .lease, .ok t⟩ ∈ φ.replies := hreplies ▸ mem_repliesOf.mpr htime
    -- the time of the check is the last time the run was told
    obtain rfl := Stage.checked.inj (hstage.symm.trans (hrelies.checked t htime'))
    obtain ⟨run, lease, r, rfl, hwritten, policy, plan, sqs, writes, archives, i, hevidence,
      hpermission, husage⟩ := hrelies.lease text hmem
    obtain ⟨-, hcutoff, -, hissued, huntil, -⟩ := permission_eq_ok hpermission
    have hlower := i.lower
    have hupper := i.upper
    have hsmall : |lease.validUntil| < 2 ^ 53 := by
      unfold leaseLife second at huntil
      rw [abs_lt]
      omega
    exact ⟨run, lease, r, policy, plan, sqs, writes, archives, i,
      mem_repliesOf.mp (hreplies ▸ hmem), hwritten, hevidence, hpermission, husage,
      times_of_validLease hissued hsmall hvalue hvalid⟩
  constructor
  · intro pid t hs
    obtain ⟨run, lease, r, policy, plan, sqs, writes, archives, i, hmem, hwritten, hevidence,
      hpermission, husage, ht, hnow⟩ := hread pid t hs
    obtain ⟨hstart, -, hcredits, -, huntil, hend, hbenefits, hexpires⟩ :=
      permission_eq_ok hpermission
    simp only [withinUsage, Bool.and_eq_true, decide_eq_true_eq] at husage
    obtain ⟨⟨⟨-, hsqs⟩, hwrites⟩, harchives⟩ := husage
    have hlife : lease.validUntil ≤ i.ms + 180 * second := huntil ▸ min_le_left _ _
    have hcutoff : lease.validUntil ≤ lease.cutoff := by
      rw [huntil]
      exact min_le_right _ _
    refine ⟨run, lease, r, policy, plan, sqs, writes, archives, i, hmem, hwritten, hevidence,
      hpermission, hstart, ht, by omega, ?_, hcredits, hsqs, hwrites, harchives⟩
    rw [lt_min_iff, lt_min_iff]
    exact ⟨⟨by omega, by omega⟩, by omega⟩
  -- the lease was issued within the grace period of the streak
  · intro b hb pid t hs
    obtain ⟨run, lease, r, policy, plan, sqs, writes, archives, i, -, hwritten, -, hpermission, -,
      -, hnow⟩ := hread pid t hs
    obtain ⟨-, -, -, hissued, huntil, -⟩ := permission_eq_ok hpermission
    have hbefore := (hgood.inv.streak b hb).2 _ _ ⟨run, r, hwritten⟩ (issuedIn_leaseText hissued)
    have hlife : lease.validUntil ≤ i.ms + leaseLife := huntil ▸ min_le_left _ _
    have hlt : (t.ms : ℚ) < i.ms + leaseLife := by exact_mod_cast hnow.trans_le hlife
    have hsum : (grace : ℚ) + leaseLife = 300 * second := by
      unfold grace leaseLife second
      norm_num
    linarith

end

/-! ## A small run -/

namespace Sample

/-- `Date.parse`, of ISO 8601 texts with a `Z`. -/
def isoParse (text : JsString) : Option ℤ := (Calendar.datetime? text).map Calendar.Fields.time

/-- A policy. -/
def policyText : JsString :=
  Json.stringify (.obj [(js "accountId", .str (js "123456789012")),
    (js "startsAt", .str (js "2026-11-05T00:00:00Z")),
    (js "endsAt", .str (js "2027-01-04T00:00:00Z")),
    (js "benefitsExpireAt", .str (js "2027-02-01T00:00:00Z")),
    (js "minimumCreditsUsd", Json.ofNumber 5), (js "maxSqsPerHour", Json.ofNumber 25000),
    (js "maxWritesPerHour", Json.ofNumber 1000), (js "maxArchiveReadsPerHour", Json.ofNumber 1000),
    (js "coveredServicesVerified", .bool true)])

/-- A plan that was asked for. -/
def planText : JsString :=
  Json.stringify (.obj [(js "accountId", .str (js "123456789012")),
    (js "accountPlanType", .str (js "FREE")), (js "accountPlanStatus", .str (js "ACTIVE")),
    (js "accountPlanExpirationDate", .str (js "2027-02-01T00:00:00Z")),
    (js "accountPlanRemainingCredits", .obj [(js "amount", Json.ofNumber 100),
      (js "unit", .str (js "USD"))])])

/-- An answer of Prometheus. -/
def vector (result : List Json) : Choice :=
  .answer { ok := true
            body := some (Json.stringify (.obj [(js "status", .str (js "success")),
              (js "data", .obj [(js "resultType", .str (js "vector")),
                (js "result", .arr result)])])) }

/-- An answer of the monitoring with one value. -/
def sample (value : String) : Json := .obj [(js "value", .arr [.null, .str (js value)])]

/-- The opening of the window, and some seconds later. -/
def instant (seconds : ℕ) (h : seconds < 1000) : Instant :=
  { ms := 1793836800000 + 1000 * seconds
    lower := by omega
    upper := by omega }

/-- A file that others may not write. -/
def plain : Choice := .stat { uid := 0, mode := 0o644, size := 100, isFile := true }

/-- What a run of `enforce` meets that finds everything in order. -/
def goodRun : List Choice :=
  [.uid 0, .flag false, .time (instant 1 (by omega)), plain, .text policyText, plain,
    .text (js "1793836700"), .text planText, .done, vector [sample "3"],
    vector [sample "1793836795"], vector [], vector [], vector [],
    .time (instant 3 (by omega)), .flag false, .time (instant 4 (by omega)),
    .time (instant 4 (by omega)), .time (instant 5 (by omega)), .done, .done, .done, .done, .done,
    .done]

/-- The steps of a run of `enforce`, and a lease check a minute later. -/
def actions : List (PoolAction Choice JsString Empty) :=
  goodRun.map (PoolAction.step 0) ++
    [.finish 0, .spawn (js "lease"), .step 1 plain, .step 1 (.text []),
      .step 1 (.time (instant 65 (by omega)))]

def booted : Pool Host History JsString Unit :=
  { world := { files := { file := fun _ => none, clock := 0 }, log := [] }
    tasks := fun _ => none
    spawned := 0 }

theorem booted_boots : Boots booted where
  health := rfl
  lease := rfl
  log := rfl
  tasks _ := rfl

/-- No further run of `enforce`. -/
def noRun (_ : Pool Host History JsString Unit) : PoolAction Choice JsString Empty → Bool
  | .spawn mode => mode != js "enforce"
  | _ => true

theorem oneAtATime_of_check {s : Pool Host History JsString Unit}
    {a : PoolAction Choice JsString Empty} (h : noRun s a = true) : OneAtATime s a := by
  cases a with
  | spawn mode =>
      intro hmode
      simp [noRun, hmode] at h
  | _ => exact trivial

/-- The second process is a lease check that has succeeded. -/
def succeeds (s : Pool Host History JsString Unit) : Bool :=
  (match s.tasks 1 with
    | some ⟨mode, .ret ()⟩ => mode == js "lease"
    | _ => false) &&
  match s.world.log with
  | (1, ⟨.now .lease, .ok _⟩) :: _ => true
  | _ => false

theorem succeeded_of_check {s : Pool Host History JsString Unit} (h : succeeds s = true) :
    ∃ t, Succeeded s 1 t := by
  unfold succeeds at h
  rw [Bool.and_eq_true] at h
  obtain ⟨htask, hlog⟩ := h
  split at htask
  · next mode heq =>
      rw [beq_iff_eq] at htask
      split at hlog
      · next t log hcons =>
          refine ⟨t, htask ▸ heq, ?_⟩
          rw [hcons]
          exact List.mem_cons_self
      · cases hlog
  · cases htask

end Sample

/-- A run of `enforce` with everything in order, and a lease check that succeeds a minute later. -/
theorem leases_bounded_granted :
    ∃ s, Run Boots (runs Sample.isoParse).step OneAtATime s ∧
      ∃ t i : Instant, Succeeded s 1 t ∧ t.ms < i.ms + 180 * second := by
  obtain ⟨first, hfirst⟩ : ∃ s, (runs Sample.isoParse).step Sample.booted
      (.spawn (js "enforce")) = some s := ⟨_, rfl⟩
  have hspawn : OneAtATime Sample.booted (.spawn (js "enforce")) := by
    intro _ pid task htask
    cases htask
  have hrun : Run Boots (runs Sample.isoParse).step OneAtATime first :=
    .next (.init Sample.booted_boots) hspawn hfirst
  have hplay : (Run.play (runs Sample.isoParse).step Sample.noRun Sample.actions first).any
      Sample.succeeds = true := by
    obtain rfl := Option.some.inj hfirst
    decide +kernel
  obtain ⟨s, hs, htest⟩ := (Option.any_eq_true _ _).mp hplay
  have hreach := hrun.of_play (fun _ _ h => Sample.oneAtATime_of_check h) hs
  obtain ⟨t, ht⟩ := Sample.succeeded_of_check htest
  obtain ⟨-, -, -, -, -, -, -, -, i, -, -, -, -, -, -, hlt, -⟩ := (leases_bounded hreach).1 1 t ht
  exact ⟨s, hreach, t, i, ht, hlt⟩

end Guard
