/-
# Reading an archive (`api/src/services/archive-json.ts`)

`readArchiveJson` reads the body of an object chunk by chunk, while a signal may abort it.  A
read that settles and the code that then goes on are two steps, so that the signal may abort in
between.

* `Kept`: what holds in every run: no more than the limit is retained, and the stream is neither
  released nor cancelled before the function ends.
* `Ending`: how a step that ends the function leaves the stream.
* `Faithful`: without an abort or a failure the chunks are those of the stream.
* `archive_reading`: the result depends on the bytes only, an aborted read gives none, and the
  stream is released by a step from its end and cancelled by any other that ends the function.
-/
import Waybill.Api
import Waybill.FatalUtf8

namespace Api

/-! ## The function -/

/-- Where the function is: in the race of a read and the signal, past the race, or at its end. -/
inductive ReadTask where
  | reading
  | settled (chunk : Option (List UInt8))
  | rejected (e : JsError)
  | ended (result : Except JsError Json)

/-- The stream, the signal, and the variables of `readArchiveJson`. -/
structure ArchiveRead where
  left : List (List UInt8)
  aborted : Option JsError
  task : ReadTask
  chunks : List (List UInt8) := []
  size : ℕ := 0
  complete : Bool := false
  released : Bool := false
  cancelled : Bool := false

/-- What happens outside: a read settles with the next chunk or the end, the stream fails, the
signal aborts; and the function goes on. -/
inductive ReadEvent where
  | read
  | fail (e : JsError)
  | abort (reason : JsError)
  | resume

namespace ArchiveRead

/-- The error of too many bytes. -/
def tooLarge : JsError := invalidArchiveError "Archive exceeds the inspection size limit"

/-- The error of bytes that denote nothing. -/
def invalidText : JsError := invalidArchiveError "Archive is not valid UTF-8 JSON"

/-- `JSON.parse(new TextDecoder("utf-8", { fatal: true }).decode(bytes))`. -/
def parseBytes (bytes : List UInt8) : Except JsError Json :=
  match (Utf8.decodeFatal bytes).bind Json.parse with
  | some v => .ok v
  | none => .error invalidText

/-- `finally`: the reader is released at the end of the stream, and the stream cancelled
elsewhere. -/
def finish (s : ArchiveRead) (result : Except JsError Json) : ArchiveRead :=
  if s.complete then
    { s with
      task := .ended result
      released := true }
  else
    { s with
      task := .ended result
      cancelled := true }

/-- Up to the first read. -/
def start (chunks : List (List UInt8)) (contentLength : Option ℚ) (aborted : Option JsError) :
    ArchiveRead :=
  let s : ArchiveRead := { left := chunks, aborted := aborted, task := .reading }
  match aborted with
  | some reason => s.finish (.error reason)
  | none =>
      if contentLength.any (fun length => decide (length > (maxArchiveBytes : ℚ))) then
        s.finish (.error tooLarge)
      else s

/-- After a read that won the race. -/
def goOn (s : ArchiveRead) (chunk : Option (List UInt8)) : ArchiveRead :=
  match s.aborted, chunk with
  | some reason, _ => s.finish (.error reason)
  | none, none =>
      let s := { s with
        complete := true }
      s.finish (parseBytes s.chunks.flatten)
  | none, some chunk =>
      let s := { s with
        size := s.size + chunk.length }
      if s.size > maxArchiveBytes then s.finish (.error tooLarge)
      else
        { s with
          chunks := s.chunks ++ [chunk]
          task := .reading }

/-- One step. -/
def step (s : ArchiveRead) : ReadEvent → Option ArchiveRead
  | .read =>
      match s.task, s.left with
      | .reading, chunk :: left => some { s with
          left := left
          task := .settled (some chunk) }
      -- the end of the stream
      | .reading, [] => some { s with
          task := .settled none }
      | _, _ => none
  | .fail e =>
      match s.task with
      | .reading => some { s with
          task := .rejected e }
      | _ => none
  | .abort reason =>
      match s.aborted, s.task with
      -- a signal aborts once; a pending read is rejected by it
      | some _, _ => none
      | none, .reading => some { s with
          aborted := some reason
          task := .rejected { message := js "Archive read deadline exceeded" } }
      | none, _ => some { s with
          aborted := some reason }
  | .resume =>
      match s.task with
      | .settled chunk => some (s.goOn chunk)
      | .rejected e => some (s.finish (.error e))
      | _ => none

/-! ## What a step is -/

section

variable {s s' : ArchiveRead}

@[simp] theorem finish_task (r : Except JsError Json) : (s.finish r).task = .ended r := by
  unfold finish
  split_ifs
  · rfl
  · rfl

@[simp] theorem finish_aborted (r : Except JsError Json) : (s.finish r).aborted = s.aborted := by
  unfold finish
  split_ifs
  · rfl
  · rfl

/-- **The steps**, each with the task it needs. -/
inductive Steps (s : ArchiveRead) : ReadEvent → ArchiveRead → Prop
  | chunk {c left} : s.task = .reading → s.left = c :: left → Steps s .read { s with
      left := left
      task := .settled (some c) }
  | close : s.task = .reading → s.left = [] → Steps s .read { s with
      task := .settled none }
  | fail {e} : s.task = .reading → Steps s (.fail e) { s with
      task := .rejected e }
  | race {reason e} : s.aborted = none → s.task = .reading → Steps s (.abort reason) { s with
      aborted := some reason
      task := .rejected e }
  | late {reason} : s.aborted = none → s.task ≠ .reading → Steps s (.abort reason) { s with
      aborted := some reason }
  | goOn {chunk} : s.task = .settled chunk → Steps s .resume (s.goOn chunk)
  | reject {e} : s.task = .rejected e → Steps s .resume (s.finish (.error e))

/-- Every step is one of `Steps`. -/
theorem steps_of_step {a : ReadEvent} (h : s.step a = some s') : Steps s a s' := by
  obtain ⟨left, aborted, task, chunks, size, complete, released, cancelled⟩ := s
  cases a with
  | read =>
      cases task with
      | reading =>
          cases left with
          | nil =>
              obtain rfl := Option.some.inj h
              exact .close rfl rfl
          | cons c left =>
              obtain rfl := Option.some.inj h
              exact .chunk rfl rfl
      | _ => cases h
  | fail e =>
      cases task with
      | reading =>
          obtain rfl := Option.some.inj h
          exact .fail rfl
      | _ => cases h
  | abort reason =>
      cases aborted with
      | some r => cases h
      | none =>
          cases task with
          | reading =>
              obtain rfl := Option.some.inj h
              exact .race rfl rfl
          | settled c =>
              obtain rfl := Option.some.inj h
              exact .late rfl (by simp)
          | rejected e =>
              obtain rfl := Option.some.inj h
              exact .late rfl (by simp)
          | ended r =>
              obtain rfl := Option.some.inj h
              exact .late rfl (by simp)
  | resume =>
      cases task with
      | settled c =>
          obtain rfl := Option.some.inj h
          exact .goOn rfl
      | rejected e =>
          obtain rfl := Option.some.inj h
          exact .reject rfl
      | _ => cases h

end

/-! ## Every run -/

/-- What holds whatever happens. -/
structure Kept (s : ArchiveRead) : Prop where
  small : s.chunks.flatten.length ≤ maxArchiveBytes
  counted : s.task = .reading ∨ (∃ c, s.task = .settled c) → s.size = s.chunks.flatten.length
  opened : (∀ r, s.task ≠ .ended r) →
    s.complete = false ∧ s.released = false ∧ s.cancelled = false
  exhausted : s.task = .settled none → s.left = []
  deadline : s.aborted ≠ none → s.task ≠ .reading

section

variable {s s' : ArchiveRead}

/-- The function ends, before the stream does. -/
theorem kept_finish (hsmall : s.chunks.flatten.length ≤ maxArchiveBytes)
    (hcomplete : s.complete = false) (e : JsError) : (s.finish (.error e)).Kept := by
  rw [finish, hcomplete, if_neg Bool.false_ne_true]
  constructor
  · exact hsmall
  · rintro (h | ⟨c, h⟩)
    · cases h
    · cases h
  · intro h
    exact absurd rfl (h _)
  · intro h
    cases h
  · intro _ h
    cases h

/-- The function goes on after a read. -/
theorem Kept.goOn {chunk : Option (List UInt8)} (h : s.Kept) (htask : s.task = .settled chunk) :
    (s.goOn chunk).Kept := by
  have hopened := h.opened (by simp [htask])
  have hsize := h.counted (.inr ⟨chunk, htask⟩)
  unfold ArchiveRead.goOn
  -- an abort while the chunk was on its way ends the reading
  cases haborted : s.aborted with
  | some reason => exact kept_finish h.small hopened.1 reason
  | none =>
      cases chunk with
      | none =>
          simp only [finish, if_true]
          constructor
          · exact h.small
          · rintro (hr | ⟨c, hr⟩)
            · cases hr
            · cases hr
          · intro hr
            exact absurd rfl (hr _)
          · intro hr
            cases hr
          · intro _ hr
            cases hr
      | some chunk =>
          simp only
          -- more than an archive may have, or the next read
          split_ifs with hlarge
          · apply kept_finish
            · exact h.small
            · exact hopened.1
          · have hflatten : (s.chunks ++ [chunk]).flatten.length =
                s.chunks.flatten.length + chunk.length := by
              rw [List.flatten_append, List.length_append, List.flatten_singleton]
            constructor
            · show (s.chunks ++ [chunk]).flatten.length ≤ maxArchiveBytes
              omega
            · intro _
              show s.size + chunk.length = (s.chunks ++ [chunk]).flatten.length
              omega
            · intro _
              exact hopened
            · intro hr
              cases hr
            · intro hsome
              exact absurd rfl hsome

/-- What holds whatever happens is kept by a step. -/
theorem Kept.step {a : ReadEvent} (h : s.Kept) (hstep : s.step a = some s') : s'.Kept := by
  cases steps_of_step hstep with
  | chunk htask hleft =>
      have hopened := h.opened (by simp [htask])
      exact ⟨h.small, fun _ => h.counted (.inl htask), fun _ => hopened, fun hr => (nomatch hr),
        fun _ hr => (nomatch hr)⟩
  | close htask hleft =>
      have hopened := h.opened (by simp [htask])
      exact ⟨h.small, fun _ => h.counted (.inl htask), fun _ => hopened, fun _ => hleft,
        fun _ hr => (nomatch hr)⟩
  | fail htask =>
      have hopened := h.opened (by simp [htask])
      refine ⟨h.small, ?_, fun _ => hopened, fun hr => (nomatch hr), fun _ hr => (nomatch hr)⟩
      rintro (hr | ⟨c, hr⟩)
      · cases hr
      · cases hr
  | race haborted htask =>
      have hopened := h.opened (by simp [htask])
      refine ⟨h.small, ?_, fun _ => hopened, fun hr => (nomatch hr), fun _ hr => (nomatch hr)⟩
      rintro (hr | ⟨c, hr⟩)
      · cases hr
      · cases hr
  | late haborted htask => exact ⟨h.small, h.counted, h.opened, h.exhausted, fun _ => htask⟩
  | goOn htask => exact h.goOn htask
  | reject htask => exact kept_finish h.small (h.opened (by simp [htask])).1 _

/-- What holds whatever happens holds at the first read. -/
theorem kept_start (chunks : List (List UInt8)) (contentLength : Option ℚ)
    (aborted : Option JsError) : (start chunks contentLength aborted).Kept := by
  unfold start
  cases aborted with
  | some reason => exact kept_finish (Nat.zero_le _) rfl reason
  | none =>
      simp only
      split_ifs
      · exact kept_finish (Nat.zero_le _) rfl _
      · exact ⟨Nat.zero_le _, fun _ => rfl, fun _ => ⟨rfl, rfl, rfl⟩, fun hr => (nomatch hr),
          fun hr => absurd rfl hr⟩

end

/-! ## How the stream is left -/

/-- The function has returned or thrown. -/
def Ended (s : ArchiveRead) : Prop := ∃ r, s.task = .ended r

/-- A read has found the end of the stream, and the signal has not aborted since. -/
def AtEnd (s : ArchiveRead) : Prop := s.task = .settled none ∧ s.aborted = none

/-- A step to `s'` that ends the function: it is released at the end of the stream, and cancelled
anywhere else, where it has no value either. -/
def Ending (s s' : ArchiveRead) : Prop :=
  (s.AtEnd ∧ s'.released = true ∧ s'.cancelled = false) ∨
    (¬ s.AtEnd ∧ s'.released = false ∧ s'.cancelled = true ∧ ∀ v, s'.task ≠ .ended (.ok v))

section

variable {s s' : ArchiveRead}

/-- An error before the end of the stream cancels it. -/
theorem ending_finish {x : ArchiveRead} (hend : ¬ s.AtEnd)
    (hopened : x.complete = false ∧ x.released = false ∧ x.cancelled = false) (e : JsError) :
    Ending s (x.finish (.error e)) := by
  obtain ⟨hcomplete, hreleased, -⟩ := hopened
  rw [finish, hcomplete, if_neg Bool.false_ne_true]
  exact .inr ⟨hend, hreleased, rfl, fun v hv => (nomatch hv)⟩

/-- After a read the function goes on to the next one or ends. -/
theorem ending_goOn {chunk : Option (List UInt8)} (h : s.Kept) (htask : s.task = .settled chunk)
    (hended : (s.goOn chunk).Ended) : Ending s (s.goOn chunk) := by
  have hopened := h.opened (by simp [htask])
  unfold ArchiveRead.goOn at hended ⊢
  cases haborted : s.aborted with
  | some reason =>
      apply ending_finish _ hopened
      rintro ⟨-, hnone⟩
      rw [haborted] at hnone
      cases hnone
  | none =>
      cases chunk with
      | none =>
          simp only [finish, if_true]
          exact .inl ⟨⟨htask, haborted⟩, rfl, hopened.2.2⟩
      | some chunk =>
          rw [haborted] at hended
          simp only at hended ⊢
          split_ifs at hended ⊢ with hlarge
          · refine ending_finish ?_ ?_ tooLarge
            · rintro ⟨hsettled, -⟩
              rw [htask] at hsettled
              cases hsettled
            · exact hopened
          · obtain ⟨r, hr⟩ := hended
            cases hr

/-- **The end of the function**: it comes by a step of its own, and leaves the stream released
or cancelled by where it came from. -/
theorem ending_of_step {a : ReadEvent} (h : s.Kept) (hopen : ¬ s.Ended)
    (hstep : s.step a = some s') (hended : s'.Ended) : a = .resume ∧ Ending s s' := by
  cases steps_of_step hstep with
  | chunk htask =>
      obtain ⟨r, hr⟩ := hended
      cases hr
  | close htask =>
      obtain ⟨r, hr⟩ := hended
      cases hr
  | fail htask =>
      obtain ⟨r, hr⟩ := hended
      cases hr
  | race haborted htask =>
      obtain ⟨r, hr⟩ := hended
      cases hr
  | late haborted htask => exact absurd hended hopen
  | goOn htask => exact ⟨rfl, ending_goOn h htask hended⟩
  | @reject e htask =>
      refine ⟨rfl, ending_finish ?_ (h.opened (by simp [htask])) e⟩
      rintro ⟨hsettled, -⟩
      rw [htask] at hsettled
      cases hsettled

/-- Nothing but the signal moves once the function has ended. -/
theorem Ended.step {a : ReadEvent} (h : s.Ended) (hstep : s.step a = some s') :
    s'.task = s.task ∧ s'.released = s.released ∧ s'.cancelled = s.cancelled := by
  obtain ⟨r, hr⟩ := h
  cases steps_of_step hstep with
  | chunk htask => cases hr.symm.trans htask
  | close htask => cases hr.symm.trans htask
  | fail htask => cases hr.symm.trans htask
  | race haborted htask => cases hr.symm.trans htask
  | late haborted htask => exact ⟨rfl, rfl, rfl⟩
  | goOn htask => cases hr.symm.trans htask
  | reject htask => cases hr.symm.trans htask

/-- A function that ends before its first read has an error, and cancels the stream. -/
theorem start_ended (chunks : List (List UInt8)) (contentLength : Option ℚ)
    (aborted : Option JsError) :
    ((start chunks contentLength aborted).Ended →
      (start chunks contentLength aborted).released = false ∧
        (start chunks contentLength aborted).cancelled = true) ∧
      (aborted ≠ none → ∃ e, (start chunks contentLength aborted).task = .ended (.error e)) := by
  unfold start
  cases aborted with
  | some reason => exact ⟨fun _ => ⟨rfl, rfl⟩, fun _ => ⟨reason, rfl⟩⟩
  | none =>
      simp only
      split_ifs
      · exact ⟨fun _ => ⟨rfl, rfl⟩, fun h => absurd rfl h⟩
      · refine ⟨?_, fun h => absurd rfl h⟩
        rintro ⟨r, hr⟩
        cases hr

end

/-! ## Runs without an abort or a failure -/

/-- The result for the bytes of a stream. -/
def resultOf (bytes : List UInt8) (contentLength : Option ℚ) : Except JsError Json :=
  if contentLength.any (fun length => decide (length > (maxArchiveBytes : ℚ))) ∨
      maxArchiveBytes < bytes.length then .error tooLarge
  else parseBytes bytes

/-- The chunk that a settled read has brought. -/
def arrived : ReadTask → List UInt8
  | .settled (some chunk) => chunk
  | _ => []

/-- What is read is what the stream held, until the function ends with its result. -/
structure Faithful (bytes : List UInt8) (contentLength : Option ℚ) (s : ArchiveRead) : Prop where
  aborted : s.aborted = none
  unrejected : ∀ e, s.task ≠ .rejected e
  held : (∀ r, s.task ≠ .ended r) →
    s.chunks.flatten ++ arrived s.task ++ s.left.flatten = bytes ∧
      (s.task = .settled none → s.left = []) ∧
      contentLength.any (fun length => decide (length > (maxArchiveBytes : ℚ))) = false
  result : ∀ r, s.task = .ended r → r = resultOf bytes contentLength

/-- How many steps are left, at most. -/
def toGo (s : ArchiveRead) : ℕ :=
  match s.task with
  | .reading => 2 * s.left.length + 2
  | .settled (some _) => 2 * s.left.length + 3
  | .settled none => 1
  | .rejected _ => 1
  | .ended _ => 0

/-- A read settles, or the function goes on. -/
def Undisturbed (_ : ArchiveRead) (a : ReadEvent) : Prop := a = .read ∨ a = .resume

section

variable {bytes : List UInt8} {contentLength : Option ℚ} {s s' : ArchiveRead}

theorem faithful_start (chunks : List (List UInt8)) (contentLength : Option ℚ) :
    (start chunks contentLength none).Faithful chunks.flatten contentLength := by
  unfold start
  by_cases hlong : contentLength.any
      (fun length => decide (length > (maxArchiveBytes : ℚ))) = true
  · simp only [if_pos hlong, finish]
    refine ⟨rfl, fun e h => (nomatch h), fun h => absurd rfl (h _), ?_⟩
    intro r hr
    obtain rfl := ReadTask.ended.inj hr
    rw [resultOf, if_pos (.inl hlong)]
  · simp only [if_neg hlong]
    refine ⟨rfl, fun e h => (nomatch h), fun _ => ⟨rfl, fun h => (nomatch h), ?_⟩,
      fun r hr => (nomatch hr)⟩
    simpa using hlong

/-- The function goes on after a read of the stream. -/
theorem Faithful.goOn {chunk : Option (List UInt8)} (h : s.Faithful bytes contentLength)
    (hkept : s.Kept) (htask : s.task = .settled chunk) :
    (s.goOn chunk).Faithful bytes contentLength := by
  obtain ⟨hbytes, hclosed, hshort⟩ := h.held (by simp [htask])
  have hsize := hkept.counted (.inr ⟨chunk, htask⟩)
  have hcomplete := (hkept.opened (by simp [htask])).1
  unfold ArchiveRead.goOn
  rw [h.aborted]
  cases chunk with
  | none =>
      have hall : s.chunks.flatten = bytes := by
        rw [← hbytes, hclosed htask, htask]
        simp [arrived]
      simp only [finish, if_true]
      refine ⟨rfl, fun e hr => (nomatch hr), fun hr => absurd rfl (hr _), ?_⟩
      intro r hr
      obtain rfl := ReadTask.ended.inj hr
      have hsmall := hkept.small
      rw [hall] at hsmall ⊢
      rw [resultOf, hshort, if_neg]
      simp only [Bool.false_eq_true, false_or]
      omega
  | some chunk =>
      rw [htask] at hbytes
      simp only [arrived] at hbytes
      simp only
      split_ifs with hlarge
      · simp only [finish, hcomplete, Bool.false_eq_true, if_false]
        refine ⟨rfl, fun e hr => (nomatch hr), fun hr => absurd rfl (hr _), ?_⟩
        intro r hr
        obtain rfl := ReadTask.ended.inj hr
        rw [resultOf, if_pos]
        right
        rw [← hbytes, List.length_append, List.length_append]
        omega
      · refine ⟨rfl, fun e hr => (nomatch hr), fun _ => ⟨?_, fun hr => (nomatch hr), hshort⟩,
          fun r hr => (nomatch hr)⟩
        rw [← hbytes]
        simp [arrived]

/-- A step without an abort or a failure keeps to the stream. -/
theorem Faithful.step {a : ReadEvent} (h : s.Faithful bytes contentLength) (hkept : s.Kept)
    (ha : Undisturbed s a) (hstep : s.step a = some s') : s'.Faithful bytes contentLength := by
  cases steps_of_step hstep with
  | chunk htask hleft =>
      obtain ⟨hbytes, -, hshort⟩ := h.held (by simp [htask])
      refine ⟨h.aborted, fun e hr => (nomatch hr), fun _ => ⟨?_, fun hr => (nomatch hr), hshort⟩,
        fun r hr => (nomatch hr)⟩
      rw [← hbytes, htask, hleft]
      simp [arrived]
  | close htask hleft =>
      obtain ⟨hbytes, -, hshort⟩ := h.held (by simp [htask])
      refine ⟨h.aborted, fun e hr => (nomatch hr), fun _ => ⟨?_, fun _ => hleft, hshort⟩,
        fun r hr => (nomatch hr)⟩
      rw [← hbytes, htask]
      rfl
  | fail htask => rcases ha with ha | ha <;> cases ha
  | race haborted htask => rcases ha with ha | ha <;> cases ha
  | late haborted htask => rcases ha with ha | ha <;> cases ha
  | goOn htask => exact h.goOn hkept htask
  | reject htask => exact absurd htask (h.unrejected _)

/-- An undisturbed step brings the function nearer to its end. -/
theorem toGo_step {a : ReadEvent} (ha : Undisturbed s a)
    (hstep : s.step a = some s') : s'.toGo < s.toGo := by
  have hfinish : ∀ (x : ArchiveRead) (r : Except JsError Json), (x.finish r).toGo = 0 := by
    intro x r
    simp [toGo]
  cases steps_of_step hstep with
  | chunk htask hleft =>
      simp only [toGo, htask, hleft, List.length_cons]
      omega
  | close htask hleft =>
      simp only [toGo, htask, hleft, List.length_nil]
      omega
  -- the stream is undisturbed, so there is no error and no abort
  | fail htask => rcases ha with ha | ha <;> cases ha
  | race haborted htask => rcases ha with ha | ha <;> cases ha
  | late haborted htask => rcases ha with ha | ha <;> cases ha
  | reject htask =>
      rw [hfinish]
      simp [toGo, htask]
  | @goOn chunk htask =>
      have hpos : 0 < s.toGo := by
        unfold toGo
        rw [htask]
        cases chunk with
        | none => exact Nat.one_pos
        | some c => exact Nat.succ_pos _
      unfold ArchiveRead.goOn
      cases s.aborted with
      | some reason =>
          simp only [hfinish]
          exact hpos
      | none =>
          cases chunk with
          | none =>
              simp only [hfinish]
              exact hpos
          | some c =>
              simp only
              split_ifs
              · rw [hfinish]
                exact hpos
              · simp only [toGo, htask]
                omega

/-- There is an undisturbed step as long as the function has not ended. -/
theorem exists_step (hended : ∀ r, s.task ≠ .ended r) :
    ∃ a s', Undisturbed s a ∧ s.step a = some s' := by
  have hsome : ∃ a, Undisturbed s a ∧ (s.step a).isSome = true := by
    cases htask : s.task with
    | reading =>
        cases hleft : s.left with
        | nil => exact ⟨.read, .inl rfl, by simp [step, htask, hleft]⟩
        | cons c left => exact ⟨.read, .inl rfl, by simp [step, htask, hleft]⟩
    | settled chunk => exact ⟨.resume, .inr rfl, by simp [step, htask]⟩
    | rejected e => exact ⟨.resume, .inr rfl, by simp [step, htask]⟩
    | ended r => exact absurd htask (hended r)
  obtain ⟨a, ha, hstep⟩ := hsome
  obtain ⟨s', hs'⟩ := Option.isSome_iff_exists.mp hstep
  exact ⟨a, s', ha, hs'⟩

end

/-! ## After an abort -/

/-- A read that was aborted before it ended, or has ended without a value since. -/
def Doomed (s : ArchiveRead) : Prop :=
  s.aborted ≠ none ∧ s.task ≠ .reading ∧ ∀ v, s.task ≠ .ended (.ok v)

section

variable {s s' : ArchiveRead}

/-- An aborted read that fails gives no value. -/
theorem doomed_finish (haborted : s.aborted ≠ none) (e : JsError) :
    (s.finish (.error e)).Doomed := by
  unfold Doomed
  rw [finish_aborted, finish_task]
  exact ⟨haborted, fun h => (nomatch h), fun v h => (nomatch h)⟩

/-- After its `await`, an aborted read throws the reason of the abort. -/
theorem goOn_aborted (chunk : Option (List UInt8)) {reason : JsError}
    (hreason : s.aborted = some reason) : s.goOn chunk = s.finish (.error reason) := by
  unfold goOn
  rw [hreason]

/-- It stays without a value. -/
theorem Doomed.step {a : ReadEvent} (h : s.Doomed) (hstep : s.step a = some s') : s'.Doomed := by
  obtain ⟨haborted, htask, hresult⟩ := h
  cases steps_of_step hstep with
  | chunk hreading => exact absurd hreading htask
  | close hreading => exact absurd hreading htask
  | fail hreading => exact absurd hreading htask
  | race hnone => exact absurd hnone haborted
  | late hnone => exact absurd hnone haborted
  | reject => exact doomed_finish haborted _
  | @goOn chunk _ =>
      obtain ⟨reason, hreason⟩ := Option.ne_none_iff_exists'.mp haborted
      rw [goOn_aborted chunk hreason]
      exact doomed_finish haborted reason

/-- Its next step ends it. -/
theorem Doomed.ends (h : s.Doomed) (hopen : ¬ s.Ended) :
    ∃ s' e, s.step .resume = some s' ∧ s'.task = .ended (.error e) := by
  obtain ⟨haborted, htask, -⟩ := h
  obtain ⟨reason, hreason⟩ := Option.ne_none_iff_exists'.mp haborted
  cases hs : s.task with
  | reading => exact absurd hs htask
  | settled chunk =>
      refine ⟨s.goOn chunk, reason, by simp only [ArchiveRead.step, hs], ?_⟩
      rw [goOn_aborted chunk hreason]
      exact finish_task _
  | rejected e =>
      exact ⟨s.finish (.error e), e, by simp only [ArchiveRead.step, hs], finish_task _⟩
  | ended r => exact absurd ⟨r, hs⟩ hopen

end

/-! ## The result -/

/-- The values of the bytes of an archive: well-formed UTF-8, after an optional byte-order mark,
of a JSON text. -/
def Denotes (bytes : List UInt8) (v : Json) : Prop :=
  ∃ text, Json.WellFormed text ∧ Utf8.dropBom bytes = Utf8.encode text ∧ Json.parse text = some v

/-- What the bytes are parsed as. -/
theorem parseBytes_ok_iff {bytes : List UInt8} {v : Json} :
    parseBytes bytes = .ok v ↔ Denotes bytes v := by
  have hiff : (Utf8.decodeFatal bytes).bind Json.parse = some v ↔ Denotes bytes v := by
    rw [Option.bind_eq_some_iff]
    constructor
    · rintro ⟨text, hdecode, hparse⟩
      obtain ⟨hformed, hencode⟩ := Utf8.decodeStrict_eq_some_iff.mp hdecode
      exact ⟨text, hformed, hencode.symm, hparse⟩
    · rintro ⟨text, hformed, hencode, hparse⟩
      exact ⟨text, Utf8.decodeStrict_eq_some_iff.mpr ⟨hformed, hencode.symm⟩, hparse⟩
  rw [← hiff, parseBytes]
  cases (Utf8.decodeFatal bytes).bind Json.parse with
  | none => simp
  | some w => simp

/-- **The result of the bytes**: their value, or one of the two errors. -/
theorem resultOf_cases (bytes : List UInt8) (contentLength : Option ℚ) :
    (∀ v, resultOf bytes contentLength = .ok v ↔
      (∀ length, contentLength = some length → length ≤ maxArchiveBytes) ∧
        bytes.length ≤ maxArchiveBytes ∧ Denotes bytes v) ∧
      ∀ e, resultOf bytes contentLength = .error e → e.name = js "InvalidArchiveError" := by
  have hany : contentLength.any (fun length => decide (length > (maxArchiveBytes : ℚ))) = true ↔
      ¬ ∀ length, contentLength = some length → length ≤ maxArchiveBytes := by
    cases contentLength with
    | none => simp
    | some length => simp
  constructor
  · intro v
    rw [← parseBytes_ok_iff, resultOf]
    split_ifs with h
    · rw [hany] at h
      constructor
      · intro hr
        cases hr
      · rintro ⟨hshort, hsmall, -⟩
        rcases h with h | h
        · exact absurd hshort h
        · omega
    · rw [not_or, hany, not_not, not_lt] at h
      exact ⟨fun hr => ⟨h.1, h.2, hr⟩, fun hr => hr.2.2⟩
  · intro e he
    unfold resultOf at he
    split_ifs at he
    · obtain rfl := Except.error.inj he
      rfl
    · unfold parseBytes at he
      cases hv : (Utf8.decodeFatal bytes).bind Json.parse with
      | none =>
          rw [hv] at he
          obtain rfl := Except.error.inj he
          rfl
      | some v =>
          rw [hv] at he
          cases he

/-- **Reading an archive.**  Without an abort or a failure the function ends, after at most
`toGo` steps, and its result depends on the bytes and the declared length only: the value they
denote if they are not too long, and an `InvalidArchiveError` elsewhere.  In every run it retains
no more than the limit.  The step that ends it releases the stream if a read had found its end and
no abort had come, and cancels it elsewhere, which nothing undoes; before it, the stream is
neither.  An abort that comes before that step leaves no value, and the next step is the end. -/
theorem archive_reading (chunks : List (List UInt8)) (contentLength : Option ℚ) :
    (∀ s, Run (fun s => s = start chunks contentLength none) step Undisturbed s →
      (¬ s.Ended → ∃ a s', Undisturbed s a ∧ s.step a = some s') ∧
      (∀ a s', Undisturbed s a → s.step a = some s' → s'.toGo < s.toGo) ∧
      ∀ r, s.task = .ended r →
        (∀ v, r = .ok v ↔
          (∀ length, contentLength = some length → length ≤ maxArchiveBytes) ∧
            chunks.flatten.length ≤ maxArchiveBytes ∧ Denotes chunks.flatten v) ∧
        ∀ e, r = .error e → e.name = js "InvalidArchiveError") ∧
    ∀ aborted,
      (((start chunks contentLength aborted).Ended →
        (start chunks contentLength aborted).released = false ∧
          (start chunks contentLength aborted).cancelled = true) ∧
        (aborted ≠ none →
          ∃ e, (start chunks contentLength aborted).task = .ended (.error e))) ∧
      ∀ s, Run (fun s => s = start chunks contentLength aborted) step (fun _ _ => True) s →
        s.chunks.flatten.length ≤ maxArchiveBytes ∧
        (s.task = .settled none → s.left = []) ∧
        (¬ s.Ended → s.released = false ∧ s.cancelled = false) ∧
        (∀ a s', s.step a = some s' →
          (¬ s.Ended → s'.Ended → a = .resume ∧ Ending s s') ∧
          (s.Ended → s'.task = s.task ∧ s'.released = s.released ∧ s'.cancelled = s.cancelled)) ∧
        (s.aborted ≠ none → ¬ s.Ended →
          (∀ s', Run (fun x => x = s) step (fun _ _ => True) s' →
            ∀ v, s'.task ≠ .ended (.ok v)) ∧
          ∃ s' e, s.step .resume = some s' ∧ s'.task = .ended (.error e)) := by
  have hkept : ∀ aborted s, Run (fun s => s = start chunks contentLength aborted) step
      (fun _ _ => True) s → s.Kept := by
    intro aborted s h
    refine h.invariant ?_ ?_
    · rintro s rfl
      exact kept_start chunks contentLength aborted
    · intro s a s' hs _ hstep
      exact hs.step hstep
  constructor
  · intro s h
    -- without an abort, what is left of the stream and what was read make up the whole
    have hboth : s.Kept ∧ s.Faithful chunks.flatten contentLength := by
      refine h.invariant (I := fun s => s.Kept ∧ s.Faithful chunks.flatten contentLength) ?_ ?_
      · rintro s rfl
        exact ⟨kept_start chunks contentLength none, faithful_start chunks contentLength⟩
      · rintro s a s' ⟨hk, hf⟩ ha hstep
        exact ⟨hk.step hstep, hf.step hk ha hstep⟩
    refine ⟨fun hopen => exists_step (not_exists.mp hopen),
      fun a s' ha hstep => toGo_step ha hstep, ?_⟩
    intro r hr
    obtain rfl := hboth.2.result r hr
    exact resultOf_cases chunks.flatten contentLength
  · intro aborted
    refine ⟨start_ended chunks contentLength aborted, ?_⟩
    intro s h
    have hs := hkept aborted s h
    refine ⟨hs.small, hs.exhausted, fun hopen => (hs.opened (not_exists.mp hopen)).2, ?_, ?_⟩
    · intro a s' hstep
      exact ⟨fun hopen hended => ending_of_step hs hopen hstep hended,
        fun hended => hended.step hstep⟩
    -- after an abort no step settles with a value any more
    · intro haborted hopen
      have hdoomed : s.Doomed := by
        refine ⟨haborted, hs.deadline haborted, ?_⟩
        intro v hv
        exact hopen ⟨_, hv⟩
      refine ⟨?_, hdoomed.ends hopen⟩
      intro s' h'
      have hlater : s'.Doomed := by
        refine h'.invariant ?_ ?_
        · rintro x rfl
          exact hdoomed
        · intro x a x' hx _ hstep
          exact hx.step hstep
      exact hlater.2.2

namespace Sample

/-- The reads and the steps of the function. -/
def undisturbed (_ : ArchiveRead) : ReadEvent → Bool
  | .read => true
  | .resume => true
  | _ => false

theorem undisturbed_of_check {s : ArchiveRead} {a : ReadEvent} (h : undisturbed s a = true) :
    Undisturbed s a := by
  cases a with
  | read => exact .inl rfl
  | resume => exact .inr rfl
  | fail e => cases h
  | abort reason => cases h

/-- The read has ended with `null`. -/
def endsWithNull (s : ArchiveRead) : Bool :=
  match s.task with
  | .ended (.ok .null) => true
  | _ => false

theorem task_of_endsWithNull {s : ArchiveRead} (h : endsWithNull s = true) :
    s.task = .ended (.ok .null) := by
  unfold endsWithNull at h
  split at h
  · assumption
  · cases h

end Sample

/-- `null` in two chunks. -/
theorem archive_reading_null : Denotes [110, 117, 108, 108] .null := by
  have hplay : (Run.play step Sample.undisturbed [.read, .resume, .read, .resume, .read, .resume]
      (start [[110, 117], [108, 108]] none none)).any Sample.endsWithNull = true := by
    decide +kernel
  have hrun : ∃ s, Run (fun s => s = start [[110, 117], [108, 108]] none none) step Undisturbed s ∧
      Sample.endsWithNull s = true := by
    refine Run.exists_of_play (fun _ _ h => Sample.undisturbed_of_check h) ?_ hplay
    rfl
  obtain ⟨s, hs, htest⟩ := hrun
  obtain ⟨-, -, hresult⟩ := (archive_reading [[110, 117], [108, 108]] none).1 s hs
  exact (((hresult _ (Sample.task_of_endsWithNull htest)).1 .null).mp rfl).2.2

end ArchiveRead

end Api
