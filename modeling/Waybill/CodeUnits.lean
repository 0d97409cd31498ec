/-
# JavaScript strings as UTF-16 code units

A JavaScript string is a sequence of 16-bit code units, and `length`, zod's
`max(200)` and `JSON.stringify` all work on those units.  A string may contain a
lone surrogate, which no UTF-8 text can hold, so Lean's `String` would be too small
a type here.

* `js` reads a literal as a JavaScript string;
* `utf8Length` is `new TextEncoder().encode(s).byteLength`.

The one fact the size arguments use is `utf8Length_append`: UTF-8 lengths add up as
long as the cut does not fall inside a surrogate pair.
-/
import Mathlib.Tactic

/-- A JavaScript string: its UTF-16 code units. -/
abbrev JsString := List UInt16

namespace JsString

/-! ## Literals -/

/-- The code units of one Unicode character. -/
def utf16 (c : Char) : List UInt16 :=
  if c.toNat < 0x10000 then [UInt16.ofNat c.toNat]
  else
    [UInt16.ofNat (0xD800 + (c.toNat - 0x10000) / 0x400),
      UInt16.ofNat (0xDC00 + (c.toNat - 0x10000) % 0x400)]

end JsString

/-- The JavaScript string of a literal. -/
def js (s : String) : JsString := s.toList.flatMap JsString.utf16

namespace JsString

/-! ## Surrogates -/

/-- A high (leading) surrogate, `0xD800 … 0xDBFF`. -/
def isHigh (u : UInt16) : Bool := 0xD800 ≤ u.toNat && u.toNat < 0xDC00

/-- A low (trailing) surrogate, `0xDC00 … 0xDFFF`. -/
def isLow (u : UInt16) : Bool := 0xDC00 ≤ u.toNat && u.toNat < 0xE000

/-- An ASCII code unit is not a surrogate. -/
theorem isHigh_of_lt {u : UInt16} (h : u.toNat < 0x80) : isHigh u = false := by
  simp only [isHigh, Bool.and_eq_false_iff, decide_eq_false_iff_not]
  left
  omega

theorem isLow_of_lt {u : UInt16} (h : u.toNat < 0x80) : isLow u = false := by
  simp only [isLow, Bool.and_eq_false_iff, decide_eq_false_iff_not]
  left
  omega

/-- A surrogate is high or low, never both. -/
theorem isLow_of_isHigh {u : UInt16} (h : isHigh u = true) : isLow u = false := by
  simp only [isHigh, isLow, Bool.and_eq_true, decide_eq_true_eq, Bool.and_eq_false_iff,
    decide_eq_false_iff_not] at h ⊢
  left
  omega

/-! ## UTF-8 length -/

/-- UTF-8 bytes of a code unit standing alone; a lone surrogate is encoded as
`U+FFFD`, three bytes. -/
def unitLength (u : UInt16) : ℕ :=
  if u.toNat < 0x80 then 1 else if u.toNat < 0x800 then 2 else 3

/-- `new TextEncoder().encode(s).byteLength`. -/
def utf8Length : JsString → ℕ
  | [] => 0
  | [u] => unitLength u
  | u :: v :: s =>
      if isHigh u && isLow v then 4 + utf8Length s else unitLength u + utf8Length (v :: s)

/-- A string does not open with a trailing surrogate. -/
def NoLowHead (s : JsString) : Prop := ∀ u ∈ s.head?, isLow u = false

theorem noLowHead_nil : NoLowHead [] := by intro u hu; simp at hu

theorem noLowHead_cons {u : UInt16} {s : JsString} (h : u.toNat < 0x80) :
    NoLowHead (u :: s) := by
  intro v hv
  simp only [List.head?_cons, Option.mem_def, Option.some.injEq] at hv
  subst hv
  exact isLow_of_lt h

/-- An ASCII unit contributes its one byte. -/
theorem utf8Length_cons_ascii {u : UInt16} (s : JsString) (h : u.toNat < 0x80) :
    utf8Length (u :: s) = 1 + utf8Length s := by
  have hu : unitLength u = 1 := by simp [unitLength, h]
  cases s with
  | nil => simp [utf8Length, hu]
  | cons v t =>
      rw [utf8Length, isHigh_of_lt h, hu]
      simp

/-- **UTF-8 lengths add up** when the right part does not open with a trailing
surrogate. -/
theorem utf8Length_append (s t : JsString) (ht : NoLowHead t) :
    utf8Length (s ++ t) = utf8Length s + utf8Length t := by
  induction s using utf8Length.induct with
  | case1 => simp [utf8Length]
  | case2 u =>
      cases t with
      | nil => simp [utf8Length]
      | cons v t =>
          have hv : isLow v = false := ht v (by simp)
          rw [List.singleton_append]
          simp [utf8Length, hv]
  | case3 u v s hp ih =>
      rw [List.cons_append, List.cons_append, utf8Length, utf8Length, if_pos hp, if_pos hp, ih]
      omega
  | case4 u v s hp ih =>
      rw [List.cons_append, List.cons_append, utf8Length, utf8Length, if_neg hp, if_neg hp,
        ← List.cons_append, ih]
      omega

/-- All units of a string are ASCII, as a test to run. -/
def isAscii (s : JsString) : Bool := s.all (fun u => u.toNat < 0x80)

theorem lt_of_isAscii {s : JsString} (h : isAscii s = true) : ∀ u ∈ s, u.toNat < 0x80 := by
  intro u hu
  exact of_decide_eq_true (List.all_eq_true.mp h u hu)

theorem isAscii_cons (u : UInt16) (s : JsString) :
    isAscii (u :: s) = (decide (u.toNat < 0x80) && isAscii s) := rfl

theorem isAscii_append (s t : JsString) : isAscii (s ++ t) = (isAscii s && isAscii t) :=
  List.all_append

/-- A string of ASCII units has as many bytes as units. -/
theorem utf8Length_ascii (s : JsString) (h : ∀ u ∈ s, u.toNat < 0x80) :
    utf8Length s = s.length := by
  induction s with
  | nil => rfl
  | cons u s ih =>
      rw [utf8Length_cons_ascii s (h u (by simp)), ih (fun v hv => h v (by simp [hv])),
        List.length_cons]
      omega

end JsString

/-! ## Errors -/

/-- A thrown `Error`: its name, its message, and the `code` some libraries add. -/
structure JsError where
  name : JsString := js "Error"
  message : JsString
  code : Option JsString := none
  deriving DecidableEq
