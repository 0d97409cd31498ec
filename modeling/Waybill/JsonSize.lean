/-
# Sizes of JSON texts

The size of a text is its number of bytes in UTF-8.

* `size_arr`, `size_obj`: the sizes of the parts of a value add up.
* `size_of_parse`: printing what was parsed never takes more bytes than the text, when its
  numbers are printed as they were written.
* `evaluate` is the value of a parsed text: its numbers are rounded, and of the members of
  an object with one name the last one counts.  `size_evaluate` is what its text takes.
-/
import Waybill.JsonParse
import Waybill.Numerals

namespace Json

/-! ## Texts of values -/

/-- The size of a JSON text. -/
def size (v : Json) : ℕ := JsString.utf8Length v.stringify

/-- The rest of an object opens with an ASCII unit. -/
theorem noLowHead_stringifyMembers (members : List (JsString × Json)) :
    JsString.NoLowHead (stringifyMembers members) := by
  cases members with
  | nil => exact JsString.noLowHead_cons (by decide)
  | cons m members => exact JsString.noLowHead_cons (by decide)

/-- The size of a member: its quoted name, a colon and its value. -/
theorem utf8Length_member (k : JsString) (v : Json) (members : List (JsString × Json)) :
    JsString.utf8Length (quote k ++ 58 :: (stringify v ++ stringifyMembers members)) =
      JsString.utf8Length (quote k) + 1 + v.size +
        JsString.utf8Length (stringifyMembers members) := by
  rw [JsString.utf8Length_append _ _ (JsString.noLowHead_cons (by decide)),
    JsString.utf8Length_cons_ascii _ (by decide),
    JsString.utf8Length_append _ _ (noLowHead_stringifyMembers members)]
  simp only [size]
  omega

/-- Members add up, with a comma before each. -/
theorem utf8Length_stringifyMembers (k : JsString) (v : Json)
    (members : List (JsString × Json)) :
    JsString.utf8Length (stringifyMembers ((k, v) :: members)) =
      1 + (JsString.utf8Length (quote k) + 1 + v.size +
        JsString.utf8Length (stringifyMembers members)) := by
  rw [stringifyMembers, JsString.utf8Length_cons_ascii _ (by decide), utf8Length_member]

/-- The first member of an object follows its brace. -/
theorem size_obj (k : JsString) (v : Json) (members : List (JsString × Json)) :
    (obj ((k, v) :: members)).size =
      1 + (JsString.utf8Length (quote k) + 1 + v.size +
        JsString.utf8Length (stringifyMembers members)) := by
  rw [size, stringify, JsString.utf8Length_cons_ascii _ (by decide), utf8Length_member]

/-- Units that are quoted as they are. -/
def isPlain (u : UInt16) : Bool := 0x20 ≤ u.toNat && u.toNat < 0x80 && u != 34 && u != 92

theorem quoteUnit_of_isPlain {u : UInt16} (h : isPlain u = true) : quoteUnit u = [u] := by
  simp only [isPlain, Bool.and_eq_true, decide_eq_true_eq, bne_iff_ne, ne_eq] at h
  obtain ⟨⟨⟨hlow, -⟩, h34⟩, h92⟩ := h
  have hcontrol : ∀ v : UInt16, v.toNat < 0x20 → u ≠ v := by
    rintro v hv rfl
    omega
  unfold quoteUnit
  rw [if_neg h34, if_neg h92, if_neg (hcontrol 8 (by decide)), if_neg (hcontrol 9 (by decide)),
    if_neg (hcontrol 10 (by decide)), if_neg (hcontrol 12 (by decide)),
    if_neg (hcontrol 13 (by decide)), if_neg (by omega)]

theorem lt_of_isPlain {u : UInt16} (h : isPlain u = true) : u.toNat < 0x80 := by
  simp only [isPlain, Bool.and_eq_true, decide_eq_true_eq] at h
  exact h.1.1.2

theorem quoteUnits_of_plain {s : JsString} (h : ∀ u ∈ s, isPlain u = true) : quoteUnits s = s := by
  induction s with
  | nil => rfl
  | cons u s ih =>
      have hu := h u List.mem_cons_self
      have hs := ih fun v hv => h v (List.mem_cons_of_mem _ hv)
      have hhigh := JsString.isHigh_of_lt (lt_of_isPlain hu)
      have hlow := JsString.isLow_of_lt (lt_of_isPlain hu)
      cases s with
      | nil => simp [quoteUnits, hhigh, hlow, quoteUnit_of_isPlain hu]
      | cons v s => simp [quoteUnits, hhigh, hlow, quoteUnit_of_isPlain hu, hs]

/-- A text of such units is quoted as it is, and stays ASCII. -/
theorem isAscii_quote_of_plain {s : JsString} (h : ∀ u ∈ s, isPlain u = true) :
    JsString.isAscii (quote s) = true := by
  have hs : JsString.isAscii s = true :=
    List.all_eq_true.mpr fun u hu => decide_eq_true (lt_of_isPlain (h u hu))
  rw [quote, quoteUnits_of_plain h, JsString.isAscii_cons, JsString.isAscii_append, hs]
  rfl

theorem length_quote_of_plain {s : JsString} (h : ∀ u ∈ s, isPlain u = true) :
    (quote s).length = s.length + 2 := by
  rw [quote, quoteUnits_of_plain h]
  simp

/-- It takes one byte for each unit, and two quotes. -/
theorem size_str_of_plain {s : JsString} (h : ∀ u ∈ s, isPlain u = true) :
    (str s).size = s.length + 2 := by
  rw [size, stringify, JsString.utf8Length_ascii _ (JsString.lt_of_isAscii
    (isAscii_quote_of_plain h)), length_quote_of_plain h]

/-- The rest of an array opens with an ASCII unit. -/
theorem noLowHead_stringifyItems (items : List Json) :
    JsString.NoLowHead (stringifyItems items) := by
  cases items with
  | nil => exact JsString.noLowHead_cons (by decide)
  | cons v items => exact JsString.noLowHead_cons (by decide)

/-- What an item takes in an array, with a comma or the closing bracket. -/
def itemSize (v : Json) : ℕ := v.size + 1

/-- What a member takes in an object, with a comma or the closing brace. -/
def memberSize (m : JsString × Json) : ℕ := (str m.1).size + 1 + m.2.size + 1

theorem utf8Length_stringifyItems (items : List Json) :
    JsString.utf8Length (stringifyItems items) = (items.map itemSize).sum + 1 := by
  induction items with
  | nil => rfl
  | cons v items ih =>
      rw [stringifyItems, JsString.utf8Length_cons_ascii _ (by decide),
        JsString.utf8Length_append _ _ (noLowHead_stringifyItems items), ih, List.map_cons,
        List.sum_cons, itemSize, size]
      omega

theorem utf8Length_members (members : List (JsString × Json)) :
    JsString.utf8Length (stringifyMembers members) = (members.map memberSize).sum + 1 := by
  induction members with
  | nil => rfl
  | cons m members ih =>
      rw [utf8Length_stringifyMembers, ih, List.map_cons, List.sum_cons, memberSize]
      show 1 + ((str m.1).size + 1 + m.2.size + _) = _
      omega

/-- The size of an array that is not empty. -/
theorem size_arr {items : List Json} (h : items ≠ []) :
    (arr items).size = (items.map itemSize).sum + 1 := by
  obtain ⟨v, items, rfl⟩ := List.exists_cons_of_ne_nil h
  rw [size, stringify, JsString.utf8Length_cons_ascii _ (by decide),
    JsString.utf8Length_append _ _ (noLowHead_stringifyItems items), utf8Length_stringifyItems,
    List.map_cons, List.sum_cons, itemSize, size]
  omega

/-- The size of an object that is not empty. -/
theorem size_members {members : List (JsString × Json)} (h : members ≠ []) :
    (obj members).size = (members.map memberSize).sum + 1 := by
  obtain ⟨m, members, rfl⟩ := List.exists_cons_of_ne_nil h
  rw [size_obj, utf8Length_members, List.map_cons, List.sum_cons, memberSize]
  show 1 + ((str m.1).size + 1 + m.2.size + _) = _
  omega

/-- A number takes a byte for each of its units. -/
theorem size_num (t : Number) : (num t).size = t.text.length := by
  rw [size, stringify]
  exact JsString.utf8Length_ascii _ fun u hu => lt_of_isNumberUnit (t.all_isNumberUnit u hu)

/-! ## Texts without lone surrogates -/

/-- A text in which every surrogate is one of a pair, as in a decoded UTF-8 text. -/
def WellFormed : JsString → Prop
  | [] => True
  | [u] => JsString.isHigh u = false ∧ JsString.isLow u = false
  | u :: v :: s =>
      if JsString.isHigh u then JsString.isLow v = true ∧ WellFormed s
      else JsString.isLow u = false ∧ WellFormed (v :: s)

/-- A unit that is no surrogate. -/
theorem wellFormed_cons {u : UInt16} {s : JsString} (h : WellFormed (u :: s))
    (hu : JsString.isHigh u = false) : JsString.isLow u = false ∧ WellFormed s ∧
      JsString.utf8Length (u :: s) = JsString.unitLength u + JsString.utf8Length s := by
  cases s with
  | nil => exact ⟨h.2, trivial, rfl⟩
  | cons v s =>
      rw [WellFormed, hu] at h
      refine ⟨h.1, h.2, ?_⟩
      rw [JsString.utf8Length, hu]
      simp

/-- A leading surrogate, and its partner. -/
theorem wellFormed_pair {u : UInt16} {s : JsString} (h : WellFormed (u :: s))
    (hu : JsString.isHigh u = true) : ∃ v t, s = v :: t ∧ JsString.isLow v = true ∧
      WellFormed t ∧ JsString.utf8Length (u :: s) = 4 + JsString.utf8Length t := by
  cases s with
  | nil => exact absurd (hu.symm.trans h.1) (by decide)
  | cons v s =>
      rw [WellFormed, hu, if_pos rfl] at h
      refine ⟨v, s, rfl, h.1, h.2, ?_⟩
      rw [JsString.utf8Length, hu, h.1]
      simp

/-- An ASCII unit. -/
theorem wellFormed_ascii {u : UInt16} {s : JsString} (h : WellFormed (u :: s))
    (hu : u.toNat < 0x80) :
    WellFormed s ∧ JsString.utf8Length (u :: s) = 1 + JsString.utf8Length s :=
  ⟨(wellFormed_cons h (JsString.isHigh_of_lt hu)).2.1, JsString.utf8Length_cons_ascii s hu⟩

/-- ASCII units in front of a text. -/
theorem wellFormed_append {a s : JsString} (ha : ∀ u ∈ a, u.toNat < 0x80)
    (h : WellFormed (a ++ s)) :
    WellFormed s ∧ JsString.utf8Length (a ++ s) = a.length + JsString.utf8Length s := by
  induction a with
  | nil => exact ⟨h, (Nat.zero_add _).symm⟩
  | cons u a ih =>
      rw [List.cons_append] at h
      obtain ⟨htail, hlength⟩ := wellFormed_ascii h (ha u (by simp))
      obtain ⟨hs, hrest⟩ := ih (fun v hv => ha v (List.mem_cons_of_mem _ hv)) htail
      refine ⟨hs, ?_⟩
      rw [List.cons_append, hlength, hrest, List.length_cons]
      omega

theorem lt_of_isSpace {u : UInt16} (h : isSpace u = true) : u.toNat < 0x80 := by
  simp only [isSpace, Bool.or_eq_true, beq_iff_eq] at h
  rcases h with ((h | h) | h) | h <;> subst h <;> decide

/-- To skip white space makes a text no longer, and leaves it well formed. -/
theorem wellFormed_skipSpace {s : JsString} (h : WellFormed s) :
    WellFormed (skipSpace s) ∧
      JsString.utf8Length (skipSpace s) ≤ JsString.utf8Length s := by
  have hsplit := List.takeWhile_append_dropWhile (p := isSpace) (l := s)
  have hspace : ∀ u ∈ s.takeWhile isSpace, u.toNat < 0x80 :=
    fun u hu => lt_of_isSpace (List.all_eq_true.mp List.all_takeWhile u hu)
  rw [← hsplit] at h
  obtain ⟨hrest, hlength⟩ := wellFormed_append hspace h
  rw [hsplit] at hlength
  refine ⟨hrest, ?_⟩
  unfold skipSpace
  omega

/-! ## Strings do not grow -/

/-- The bytes of the inside of a quoted string. -/
def quotedLength (s : JsString) : ℕ := JsString.utf8Length (quoteUnits s)

theorem size_str (s : JsString) : (str s).size = quotedLength s + 2 := by
  rw [size, stringify, quote, JsString.utf8Length_cons_ascii _ (by decide),
    JsString.utf8Length_append _ _ (JsString.noLowHead_cons (by decide)), quotedLength]
  show 1 + (_ + 1) = _
  omega

/-- A unit in quotes that is not half of a pair. -/
def quoteOne (u : UInt16) : JsString :=
  if JsString.isHigh u || JsString.isLow u then unicodeEscape u else quoteUnit u

theorem quoteUnits_pair {u v : UInt16} (hu : JsString.isHigh u = true)
    (hv : JsString.isLow v = true) (s : JsString) :
    quoteUnits (u :: v :: s) = u :: v :: quoteUnits s := by
  rw [quoteUnits, if_pos hu, if_pos hv]

/-- Any other unit is quoted by itself. -/
theorem quoteUnits_cons {u : UInt16} {s : JsString}
    (h : JsString.isHigh u = true → JsString.NoLowHead s) :
    quoteUnits (u :: s) = quoteOne u ++ quoteUnits s := by
  cases s with
  | nil => simp [quoteUnits, quoteOne]
  | cons v s =>
      rw [quoteUnits, quoteOne]
      by_cases hu : JsString.isHigh u = true
      · have hv : JsString.isLow v = false := h hu v rfl
        simp [hu, hv]
      · by_cases hl : JsString.isLow u = true
        · simp [hu, hl]
        · simp [hu, hl]

/-- An escape is ASCII. -/
theorem unicodeEscape_ascii (u : UInt16) : ∀ v ∈ unicodeEscape u, v.toNat < 0x80 := by
  have hdigit : ∀ n < 16, (hexDigit n).toNat < 0x80 := by decide
  have hlt : u.toNat < 65536 := u.toNat_lt
  intro v hv
  simp only [unicodeEscape, List.mem_cons, List.not_mem_nil, or_false] at hv
  rcases hv with rfl | rfl | rfl | rfl | rfl | rfl
  · decide
  · decide
  · exact hdigit _ (by omega)
  · exact hdigit _ (by omega)
  · exact hdigit _ (by omega)
  · exact hdigit _ (by omega)

theorem utf8Length_unicodeEscape (u : UInt16) : JsString.utf8Length (unicodeEscape u) = 6 :=
  JsString.utf8Length_ascii _ (unicodeEscape_ascii u)

/-- A quoted unit takes six bytes at most. -/
theorem utf8Length_quoteOne_le (u : UInt16) : JsString.utf8Length (quoteOne u) ≤ 6 := by
  have hunit : JsString.unitLength u ≤ 3 := by
    unfold JsString.unitLength
    split_ifs <;> omega
  have hone : JsString.utf8Length [u] ≤ 6 := by
    show JsString.unitLength u ≤ 6
    omega
  have hescape := (utf8Length_unicodeEscape u).le
  unfold quoteOne quoteUnit
  split_ifs
  all_goals first | exact hescape | exact hone | decide

/-- A unit above the controls that is no surrogate is quoted in its own bytes, or in two. -/
theorem utf8Length_quoteOne_plain {u : UInt16} (hhigh : JsString.isHigh u = false)
    (hlow : JsString.isLow u = false) (h34 : u ≠ 34) (h92 : u ≠ 92) (hctl : ¬ u.toNat < 0x20) :
    JsString.utf8Length (quoteOne u) = JsString.unitLength u := by
  have hcontrol : ∀ v : UInt16, v.toNat < 0x20 → u ≠ v := by
    rintro v hv rfl
    exact hctl hv
  have hquote : quoteOne u = [u] := by
    rw [quoteOne, hhigh, hlow]
    simp [quoteUnit, h34, h92, hcontrol 8 (by decide), hcontrol 9 (by decide),
      hcontrol 10 (by decide), hcontrol 12 (by decide), hcontrol 13 (by decide), hctl]
  rw [hquote]
  rfl

/-- A quoted string does not open with a trailing surrogate. -/
theorem noLowHead_quoteUnits (s : JsString) : JsString.NoLowHead (quoteUnits s) := by
  cases s with
  | nil => exact JsString.noLowHead_nil
  | cons u s =>
      by_cases hpair : JsString.isHigh u = true ∧ ¬ JsString.NoLowHead s
      · obtain ⟨hu, hs⟩ := hpair
        cases s with
        | nil => exact absurd JsString.noLowHead_nil hs
        | cons v s =>
            have hv : JsString.isLow v = true := by
              by_contra hv
              apply hs
              intro w hw
              obtain rfl : v = w := by simpa using hw
              exact Bool.eq_false_iff.mpr hv
            rw [quoteUnits_pair hu hv]
            intro w hw
            obtain rfl : u = w := by simpa using hw
            exact JsString.isLow_of_isHigh hu
      · have hcons : JsString.isHigh u = true → JsString.NoLowHead s := by
          intro hu
          by_contra hs
          exact hpair ⟨hu, hs⟩
        rw [quoteUnits_cons hcons]
        unfold quoteOne quoteUnit
        split_ifs with hs
        case neg =>
          intro w hw
          obtain rfl : u = w := by simpa using hw
          simp only [Bool.or_eq_true, not_or, Bool.not_eq_true] at hs
          exact hs.2
        all_goals exact JsString.noLowHead_cons (by decide)

/-- The bytes of a quoted text, unit by unit. -/
theorem quotedLength_cons {u : UInt16} {s : JsString}
    (h : JsString.isHigh u = true → JsString.NoLowHead s) :
    quotedLength (u :: s) = JsString.utf8Length (quoteOne u) + quotedLength s := by
  rw [quotedLength, quoteUnits_cons h, JsString.utf8Length_append _ _ (noLowHead_quoteUnits s)]
  rfl

/-- A pair takes four bytes. -/
theorem quotedLength_pair {u v : UInt16} (hu : JsString.isHigh u = true)
    (hv : JsString.isLow v = true) (s : JsString) :
    quotedLength (u :: v :: s) = 4 + quotedLength s := by
  rw [quotedLength, quoteUnits_pair hu hv, JsString.utf8Length, hu, hv]
  rfl

/-- A unit more takes six bytes more at most, also when it completes a pair. -/
theorem quotedLength_cons_le (u : UInt16) (s : JsString) :
    quotedLength (u :: s) ≤ 6 + quotedLength s := by
  have hone := utf8Length_quoteOne_le u
  cases s with
  | nil =>
      rw [quotedLength_cons fun _ => JsString.noLowHead_nil]
      omega
  | cons v s =>
      by_cases hu : JsString.isHigh u = true
      · by_cases hv : JsString.isLow v = true
        · have hvhigh : JsString.isHigh v = true → JsString.NoLowHead s := by
            intro hv'
            rw [JsString.isLow_of_isHigh hv'] at hv
            exact absurd hv (by decide)
          rw [quotedLength_pair hu hv, quotedLength_cons hvhigh]
          omega
        · rw [quotedLength_cons]
          · omega
          · intro _ w hw
            obtain rfl : v = w := by simpa using hw
            exact Bool.eq_false_iff.mpr hv
      · rw [quotedLength_cons fun hu' => absurd hu' hu]
        omega

/-- The short escapes are quoted in two bytes again. -/
theorem utf8Length_quoteOne_unescape {e v : UInt16} (h : unescape e = some v) :
    JsString.utf8Length (quoteOne v) ≤ 2 ∧ JsString.isHigh v = false := by
  unfold unescape at h
  split_ifs at h
  all_goals
    obtain rfl := Option.some.inj h
    exact ⟨by decide, by decide⟩

theorem lt_of_hexValue {u : UInt16} {n : ℕ} (h : hexValue u = some n) : u.toNat < 0x80 := by
  unfold hexValue at h
  split_ifs at h with h₁ h₂ h₃
  · simp only [Bool.and_eq_true, decide_eq_true_eq] at h₁
    omega
  · simp only [Bool.and_eq_true, decide_eq_true_eq] at h₂
    omega
  · simp only [Bool.and_eq_true, decide_eq_true_eq] at h₃
    omega

theorem lt_of_hexUnit {a b c d v : UInt16} (h : hexUnit a b c d = some v) :
    ∀ u ∈ [a, b, c, d], u.toNat < 0x80 := by
  unfold hexUnit at h
  split at h
  · next ha hb hc hd =>
      intro u hu
      simp only [List.mem_cons, List.not_mem_nil, or_false] at hu
      rcases hu with rfl | rfl | rfl | rfl
      · exact lt_of_hexValue ha
      · exact lt_of_hexValue hb
      · exact lt_of_hexValue hc
      · exact lt_of_hexValue hd
  · cases h

theorem lt_of_unescape {e v : UInt16} (h : unescape e = some v) : e.toNat < 0x80 := by
  unfold unescape at h
  split_ifs at h <;> subst_vars <;> decide

/-- **A string does not grow**: its inside, quoted again, takes no more bytes than before. -/
theorem quotedLength_of_parseString : ∀ (n : ℕ) (s t r : JsString), s.length ≤ n →
    parseString s = some (t, r) → WellFormed s →
    WellFormed r ∧ quotedLength t + 1 + JsString.utf8Length r ≤ JsString.utf8Length s
  | 0, s, t, r, hn, h, _ => by
      rw [List.eq_nil_of_length_eq_zero (Nat.le_zero.mp hn), parseString] at h
      cases h
  | n + 1, [], t, r, _, h, _ => by
      rw [parseString] at h
      cases h
  | n + 1, u :: s, t, r, hn, h, hs => by
      have hlen : s.length ≤ n := by simpa using hn
      rw [parseString.eq_def] at h
      simp only at h
      split_ifs at h with h34 h92 hctl
      · -- the closing quote
        subst h34
        obtain ⟨rfl, rfl⟩ := Prod.mk.inj (Option.some.inj h)
        obtain ⟨hr, hlength⟩ := wellFormed_ascii hs (by decide)
        refine ⟨hr, ?_⟩
        rw [hlength]
        show 0 + 1 + _ ≤ _
        omega
      -- an escape
      · subst h92
        obtain ⟨hs', hlength⟩ := wellFormed_ascii hs (by decide)
        cases s with
        | nil => cases h
        | cons e s =>
            simp only at h
            split_ifs at h with h117
            · -- `\uXXXX`
              subst h117
              split at h
              · next a b c d s =>
                  split at h
                  · next v hv =>
                      obtain ⟨⟨t', r'⟩, hparse, heq⟩ := Option.map_eq_some_iff.mp h
                      obtain ⟨rfl, rfl⟩ := Prod.mk.inj heq
                      have hascii : ∀ w ∈ [117, a, b, c, d], w.toNat < 0x80 := by
                        intro w hw
                        rcases List.mem_cons.mp hw with rfl | hw
                        · decide
                        · exact lt_of_hexUnit hv w hw
                      obtain ⟨hs'', hlength'⟩ := wellFormed_append hascii hs'
                      have hshort : s.length ≤ n := by
                        simp only [List.length_cons] at hlen
                        omega
                      obtain ⟨hr, hle⟩ := quotedLength_of_parseString n s t' r' hshort hparse hs''
                      have hcons := quotedLength_cons_le v t'
                      simp only [List.cons_append, List.nil_append, List.length_cons,
                        List.length_nil] at hlength'
                      exact ⟨hr, by simp only; omega⟩
                  · cases h
              · cases h
            · -- a one-letter escape
              split at h
              · next v hv =>
                  obtain ⟨⟨t', r'⟩, hparse, heq⟩ := Option.map_eq_some_iff.mp h
                  obtain ⟨rfl, rfl⟩ := Prod.mk.inj heq
                  obtain ⟨hs'', hlength'⟩ := wellFormed_ascii hs' (lt_of_unescape hv)
                  have hshort : s.length ≤ n := by
                    simp only [List.length_cons] at hlen
                    omega
                  obtain ⟨hr, hle⟩ := quotedLength_of_parseString n s t' r' hshort hparse hs''
                  obtain ⟨htwo, hhigh⟩ := utf8Length_quoteOne_unescape hv
                  have hcons : quotedLength (v :: t') = _ :=
                    quotedLength_cons fun hv' => absurd (hv'.symm.trans hhigh) (by decide)
                  exact ⟨hr, by simp only; omega⟩
              · cases h
      · by_cases hu : JsString.isHigh u = true
        · -- a pair: its second half is read next
          obtain ⟨v, s, rfl, hv, hs', hlength⟩ := wellFormed_pair hs hu
          obtain ⟨⟨t', r'⟩, hparse, heq⟩ := Option.map_eq_some_iff.mp h
          obtain ⟨rfl, rfl⟩ := Prod.mk.inj heq
          have hv' : 0xD800 ≤ v.toNat := by
            simp only [JsString.isLow, Bool.and_eq_true, decide_eq_true_eq] at hv
            omega
          rw [parseString_surrogate hv'] at hparse
          obtain ⟨⟨t'', r''⟩, hparse', heq'⟩ := Option.map_eq_some_iff.mp hparse
          obtain ⟨rfl, rfl⟩ := Prod.mk.inj heq'
          have hshort : s.length ≤ n := by
            simp only [List.length_cons] at hlen
            omega
          obtain ⟨hr, hle⟩ := quotedLength_of_parseString n s t'' r'' hshort hparse' hs'
          have hpair := quotedLength_pair hu hv t''
          exact ⟨hr, by simp only; omega⟩
        -- any other unit is read as it stands
        · obtain ⟨hlow, hs', hlength⟩ := wellFormed_cons hs (Bool.eq_false_iff.mpr hu)
          obtain ⟨⟨t', r'⟩, hparse, heq⟩ := Option.map_eq_some_iff.mp h
          obtain ⟨rfl, rfl⟩ := Prod.mk.inj heq
          obtain ⟨hr, hle⟩ := quotedLength_of_parseString n s t' r' hlen hparse hs'
          refine ⟨hr, ?_⟩
          show quotedLength (u :: t') + 1 + JsString.utf8Length r' ≤ _
          rw [quotedLength_cons fun hu' => absurd hu' hu, hlength,
            utf8Length_quoteOne_plain (Bool.eq_false_iff.mpr hu) hlow h34 h92 hctl]
          omega

/-! ## Values do not grow -/

/-- With this fuel, a value takes no more bytes than what it was read from. -/
def ValueBound (n : ℕ) : Prop :=
  ∀ s v r, parseValue n s = some (v, r) → WellFormed s →
    WellFormed r ∧ v.size + JsString.utf8Length r ≤ JsString.utf8Length s

/-- So do the items of an array after the first, with the closing bracket. -/
def ItemsBound (n : ℕ) : Prop :=
  ∀ s items r, parseItems n s = some (items, r) → WellFormed s →
    WellFormed r ∧ (items.map itemSize).sum + 1 + JsString.utf8Length r ≤ JsString.utf8Length s

/-- So does a member. -/
def MemberBound (n : ℕ) : Prop :=
  ∀ s m r, parseMember n s = some (m, r) → WellFormed s →
    WellFormed r ∧ (str m.1).size + 1 + m.2.size + JsString.utf8Length r ≤ JsString.utf8Length s

/-- So do the members of an object after the first, with the closing brace. -/
def MembersBound (n : ℕ) : Prop :=
  ∀ s members r, parseMembers n s = some (members, r) → WellFormed s →
    WellFormed r ∧
      (members.map memberSize).sum + 1 + JsString.utf8Length r ≤ JsString.utf8Length s

/-- A number is as long as its literal. -/
theorem bound_parseNumber {s r : JsString} {v : Json} (h : parseNumber s = some (v, r))
    (hs : WellFormed s) :
    WellFormed r ∧ v.size + JsString.utf8Length r ≤ JsString.utf8Length s := by
  unfold parseNumber at h
  split_ifs at h with hnumber
  obtain ⟨rfl, rfl⟩ := Prod.mk.inj (Option.some.inj h)
  have hsplit := List.takeWhile_append_dropWhile (p := isNumberUnit) (l := s)
  have hascii : ∀ u ∈ s.takeWhile isNumberUnit, u.toNat < 0x80 :=
    fun u hu => lt_of_isNumberUnit (List.all_eq_true.mp List.all_takeWhile u hu)
  rw [← hsplit] at hs
  obtain ⟨hr, hlength⟩ := wellFormed_append hascii hs
  rw [hsplit] at hlength
  exact ⟨hr, by rw [size_num, hlength]⟩

/-- A keyword is as long as its value is printed. -/
theorem bound_parseKeyword {word s r : JsString} {v w : Json}
    (hword : ∀ u ∈ word, u.toNat < 0x80) (hsize : v.size = word.length)
    (h : parseKeyword word v s = some (w, r)) (hs : WellFormed s) :
    WellFormed r ∧ w.size + JsString.utf8Length r ≤ JsString.utf8Length s := by
  unfold parseKeyword at h
  split_ifs at h with hleading
  obtain ⟨rfl, rfl⟩ := Prod.mk.inj (Option.some.inj h)
  obtain ⟨t, rfl⟩ := List.isPrefixOf_iff_prefix.mp hleading
  obtain ⟨hr, hlength⟩ := wellFormed_append hword hs
  rw [List.drop_left]
  exact ⟨hr, by rw [hsize, hlength]⟩

/-- A text that goes on with an ASCII unit after white space. -/
theorem skipSpace_ascii {s t : JsString} {u : UInt16} (h : skipSpace s = u :: t)
    (hu : u.toNat < 0x80) (hs : WellFormed s) :
    WellFormed t ∧ 1 + JsString.utf8Length t ≤ JsString.utf8Length s := by
  obtain ⟨hskip, hle⟩ := wellFormed_skipSpace hs
  rw [h] at hskip hle
  obtain ⟨ht, hlength⟩ := wellFormed_ascii hskip hu
  exact ⟨ht, by omega⟩

/-- The same, for the unit that was looked at. -/
theorem skipSpace_head {s : JsString} {u : UInt16} (h : (skipSpace s).head? = some u)
    (hu : u.toNat < 0x80) (hs : WellFormed s) : WellFormed (skipSpace s).tail ∧
      1 + JsString.utf8Length (skipSpace s).tail ≤ JsString.utf8Length s := by
  obtain ⟨t, ht⟩ := List.head?_eq_some_iff.mp h
  rw [ht, List.tail_cons]
  exact skipSpace_ascii ht hu hs

/-- Items, if values and fewer items are bounded. -/
theorem bound_parseItems {n : ℕ} (hvalue : ValueBound n) (hitems : ItemsBound n) :
    ItemsBound (n + 1) := by
  intro s items r h hs
  rw [parseItems] at h
  split at h
  · cases h
  · next u t hskip =>
      split_ifs at h with h93 h44
      · subst h93
        obtain ⟨rfl, rfl⟩ := Prod.mk.inj (Option.some.inj h)
        obtain ⟨ht, hle⟩ := skipSpace_ascii hskip (by decide) hs
        exact ⟨ht, by simpa using hle⟩
      · subst h44
        obtain ⟨ht, hle⟩ := skipSpace_ascii hskip (by decide) hs
        split at h
        · next v r₁ hv =>
            obtain ⟨⟨items₂, r₂⟩, hrest, heq⟩ := Option.map_eq_some_iff.mp h
            obtain ⟨rfl, rfl⟩ := Prod.mk.inj heq
            obtain ⟨hr₁, hle₁⟩ := hvalue _ _ _ hv ht
            obtain ⟨hr₂, hle₂⟩ := hitems _ _ _ hrest hr₁
            refine ⟨hr₂, ?_⟩
            simp only [List.map_cons, List.sum_cons, itemSize]
            omega
        · cases h

/-- A member, if values are bounded. -/
theorem bound_parseMember {n : ℕ} (hvalue : ValueBound n) : MemberBound (n + 1) := by
  intro s m r h hs
  rw [parseMember] at h
  split at h
  · cases h
  · next u t hskip =>
      split_ifs at h with h34
      subst h34
      obtain ⟨ht, hle⟩ := skipSpace_ascii hskip (by decide) hs
      split at h
      · next k r₁ hk =>
          split_ifs at h with h58
          obtain ⟨⟨v, r₂⟩, hv, heq⟩ := Option.map_eq_some_iff.mp h
          obtain ⟨rfl, rfl⟩ := Prod.mk.inj heq
          obtain ⟨hr₁, hle₁⟩ := quotedLength_of_parseString _ _ _ _ le_rfl hk ht
          obtain ⟨hcolon, hle₂⟩ := skipSpace_head h58 (by decide) hr₁
          obtain ⟨hr₂, hle₃⟩ := hvalue _ _ _ hv hcolon
          refine ⟨hr₂, ?_⟩
          rw [size_str]
          show quotedLength k + 2 + 1 + v.size + JsString.utf8Length r₂ ≤ _
          omega
      · cases h

/-- Members, if one member and fewer members are bounded. -/
theorem bound_parseMembers {n : ℕ} (hmember : MemberBound n) (hmembers : MembersBound n) :
    MembersBound (n + 1) := by
  intro s members r h hs
  rw [parseMembers] at h
  split at h
  · cases h
  · next u t hskip =>
      split_ifs at h with h125 h44
      · subst h125
        obtain ⟨rfl, rfl⟩ := Prod.mk.inj (Option.some.inj h)
        obtain ⟨ht, hle⟩ := skipSpace_ascii hskip (by decide) hs
        exact ⟨ht, by simpa using hle⟩
      · subst h44
        obtain ⟨ht, hle⟩ := skipSpace_ascii hskip (by decide) hs
        split at h
        · next m r₁ hm =>
            obtain ⟨⟨members₂, r₂⟩, hrest, heq⟩ := Option.map_eq_some_iff.mp h
            obtain ⟨rfl, rfl⟩ := Prod.mk.inj heq
            obtain ⟨hr₁, hle₁⟩ := hmember _ _ _ hm ht
            obtain ⟨hr₂, hle₂⟩ := hmembers _ _ _ hrest hr₁
            refine ⟨hr₂, ?_⟩
            simp only [List.map_cons, List.sum_cons, memberSize]
            omega
        · cases h

/-- **A value, if everything inside it is bounded.** -/
theorem bound_parseValue {n : ℕ} (hvalue : ValueBound n) (hitems : ItemsBound n)
    (hmember : MemberBound n) (hmembers : MembersBound n) : ValueBound (n + 1) := by
  intro s v r h hs
  rw [parseValue] at h
  split at h
  · cases h
  · next u t hskip =>
      obtain ⟨hskipped, hless⟩ := wellFormed_skipSpace hs
      rw [hskip] at hskipped hless
      split_ifs at h with h34 h91 hempty h123 hempty h110 h116 h102
      · subst h34
        obtain ⟨ht, hle⟩ := skipSpace_ascii hskip (by decide) hs
        obtain ⟨⟨k, r₁⟩, hk, heq⟩ := Option.map_eq_some_iff.mp h
        obtain ⟨rfl, rfl⟩ := Prod.mk.inj heq
        obtain ⟨hr₁, hle₁⟩ := quotedLength_of_parseString _ _ _ _ le_rfl hk ht
        refine ⟨hr₁, ?_⟩
        rw [size_str]
        show quotedLength k + 2 + JsString.utf8Length r₁ ≤ _
        omega
      -- the empty array
      · subst h91
        obtain ⟨ht, hle⟩ := skipSpace_ascii hskip (by decide) hs
        obtain ⟨rfl, rfl⟩ := Prod.mk.inj (Option.some.inj h)
        obtain ⟨hr, hle₁⟩ := skipSpace_head hempty (by decide) ht
        refine ⟨hr, ?_⟩
        show 2 + _ ≤ _
        omega
      · subst h91
        obtain ⟨ht, hle⟩ := skipSpace_ascii hskip (by decide) hs
        split at h
        · next v₁ r₁ hv =>
            obtain ⟨⟨items, r₂⟩, hrest, heq⟩ := Option.map_eq_some_iff.mp h
            obtain ⟨rfl, rfl⟩ := Prod.mk.inj heq
            obtain ⟨hr₁, hle₁⟩ := hvalue _ _ _ hv ht
            obtain ⟨hr₂, hle₂⟩ := hitems _ _ _ hrest hr₁
            refine ⟨hr₂, ?_⟩
            rw [size_arr (List.cons_ne_nil _ _)]
            simp only [List.map_cons, List.sum_cons, itemSize]
            omega
        · cases h
      -- the empty object
      · subst h123
        obtain ⟨ht, hle⟩ := skipSpace_ascii hskip (by decide) hs
        obtain ⟨rfl, rfl⟩ := Prod.mk.inj (Option.some.inj h)
        obtain ⟨hr, hle₁⟩ := skipSpace_head hempty (by decide) ht
        refine ⟨hr, ?_⟩
        show 2 + _ ≤ _
        omega
      · subst h123
        obtain ⟨ht, hle⟩ := skipSpace_ascii hskip (by decide) hs
        split at h
        · next m r₁ hm =>
            obtain ⟨⟨members, r₂⟩, hrest, heq⟩ := Option.map_eq_some_iff.mp h
            obtain ⟨rfl, rfl⟩ := Prod.mk.inj heq
            obtain ⟨hr₁, hle₁⟩ := hmember _ _ _ hm ht
            obtain ⟨hr₂, hle₂⟩ := hmembers _ _ _ hrest hr₁
            refine ⟨hr₂, ?_⟩
            rw [size_members (List.cons_ne_nil _ _)]
            simp only [List.map_cons, List.sum_cons, memberSize]
            omega
        · cases h
      · obtain ⟨hr, hle⟩ := bound_parseKeyword (JsString.lt_of_isAscii rfl) rfl h hskipped
        exact ⟨hr, by omega⟩
      · obtain ⟨hr, hle⟩ := bound_parseKeyword (JsString.lt_of_isAscii rfl) rfl h hskipped
        exact ⟨hr, by omega⟩
      · obtain ⟨hr, hle⟩ := bound_parseKeyword (JsString.lt_of_isAscii rfl) rfl h hskipped
        exact ⟨hr, by omega⟩
      · obtain ⟨hr, hle⟩ := bound_parseNumber h hskipped
        exact ⟨hr, by omega⟩

/-- **What is parsed is no longer than its text**, at every depth. -/
theorem bound_parse (n : ℕ) :
    ValueBound n ∧ ItemsBound n ∧ MemberBound n ∧ MembersBound n := by
  induction n with
  | zero =>
      refine ⟨?_, ?_, ?_, ?_⟩
      · intro s v r h _
        cases h
      · intro s v r h _
        cases h
      · intro s v r h _
        cases h
      · intro s v r h _
        cases h
  | succ n ih =>
      obtain ⟨hvalue, hitems, hmember, hmembers⟩ := ih
      exact ⟨bound_parseValue hvalue hitems hmember hmembers, bound_parseItems hvalue hitems,
        bound_parseMember hvalue, bound_parseMembers hmember hmembers⟩

/-- **Printing what was parsed takes no more bytes**, with the numbers as they were written. -/
theorem size_of_parse {s : JsString} {v : Json} (h : parse s = some v) (hs : WellFormed s) :
    v.size ≤ JsString.utf8Length s := by
  unfold parse at h
  split at h
  · next v₁ r hv =>
      split_ifs at h with hend
      obtain rfl := Option.some.inj h
      have hle := ((bound_parse _).1 _ _ _ hv hs).2
      omega
  · cases h

/-! ## The value of a parsed text -/

/-- Assignment of a property: it keeps the place of an earlier one of its name. -/
def assign : List (JsString × Json) → JsString × Json → List (JsString × Json)
  | [], m => [m]
  | x :: ms, m => if x.1 = m.1 then m :: ms else x :: assign ms m

/-- The number a property name stands for, if it is the name of an array element. -/
def arrayIndex? (k : JsString) : Option ℕ :=
  if k ≠ [] ∧ k.all isDigit ∧ (k.head? = some 48 → k = [48]) ∧ digitsValue k < 2 ^ 32 - 1 then
    some (digitsValue k)
  else none

/-- Property order: array elements by their numbers, then the others as they were created. -/
def ownOrder (ms : List (JsString × Json)) : List (JsString × Json) :=
  (ms.filter (fun m => (arrayIndex? m.1).isSome)).mergeSort
      (fun a b => decide ((arrayIndex? a.1).getD 0 ≤ (arrayIndex? b.1).getD 0)) ++
    ms.filter (fun m => !(arrayIndex? m.1).isSome)

mutual

/-- The value of a parsed text; an infinite number is one that is printed `null`. -/
def evaluate : Json → Json
  | null => null
  | bool b => bool b
  | num t =>
      match t.evaluate with
      | some t => num t
      | none => null
  | str s => str s
  | arr items => arr (evaluateItems items)
  | obj members => obj (ownOrder ((evaluateMembers members).foldl assign []))

/-- Item by item. -/
def evaluateItems : List Json → List Json
  | [] => []
  | v :: items => evaluate v :: evaluateItems items

/-- Member by member. -/
def evaluateMembers : List (JsString × Json) → List (JsString × Json)
  | [] => []
  | (k, v) :: members => (k, evaluate v) :: evaluateMembers members

end

/-- The bytes a literal takes when its number is printed. -/
def Number.printedLength (t : Number) : ℕ :=
  match t.evaluate with
  | some t => t.text.length
  | none => 4

mutual

/-- The bytes a parsed text takes when its value is printed, counted on the text: every
number as long as it is printed, and of the members of one name the last one. -/
def printedSize : Json → ℕ
  | num t => t.printedLength
  | arr items => if items.isEmpty then 2 else printedItems items + 1
  | obj members => if members.isEmpty then 2 else printedMembers members + 1
  | null => 4
  | bool b => (bool b).size
  | str s => (str s).size

/-- The printed size of the items of an array. -/
def printedItems : List Json → ℕ
  | [] => 0
  | v :: items => printedSize v + 1 + printedItems items

/-- The printed size of the members of an object; of equal names the last one counts. -/
def printedMembers : List (JsString × Json) → ℕ
  | [] => 0
  | (k, v) :: members =>
      (if members.any (fun m => m.1 == k) then 0 else (str k).size + 1 + printedSize v + 1) +
        printedMembers members

end

/-- The members that count: of each name the last one. -/
def lastMembers : List (JsString × Json) → List (JsString × Json)
  | [] => []
  | m :: ms => if ms.any (fun x => x.1 == m.1) then lastMembers ms else m :: lastMembers ms

theorem ownOrder_perm (ms : List (JsString × Json)) : (ownOrder ms).Perm ms := by
  unfold ownOrder
  refine ((List.mergeSort_perm _ _).append_right _).trans ?_
  exact List.filter_append_perm _ ms

theorem assign_keys (ms : List (JsString × Json)) (m : JsString × Json) (k : JsString) :
    k ∈ (assign ms m).map Prod.fst ↔ k = m.1 ∨ k ∈ ms.map Prod.fst := by
  induction ms with
  | nil => simp [assign]
  | cons x ms ih =>
      rw [assign]
      split_ifs with hkey
      · simp [hkey]
      · rw [List.map_cons, List.mem_cons, ih, List.map_cons, List.mem_cons]
        tauto

/-- Names stay unique. -/
theorem assign_nodup {ms : List (JsString × Json)} (h : (ms.map Prod.fst).Nodup)
    (m : JsString × Json) : ((assign ms m).map Prod.fst).Nodup := by
  induction ms with
  | nil => simp [assign]
  | cons x ms ih =>
      rw [List.map_cons, List.nodup_cons] at h
      rw [assign]
      split_ifs with hkey
      · rw [List.map_cons, List.nodup_cons, ← hkey]
        exact h
      · rw [List.map_cons, List.nodup_cons, assign_keys]
        refine ⟨?_, ih h.2⟩
        rintro (hx | hx)
        · exact hkey hx
        · exact h.1 hx

/-- An assignment replaces the property of its name. -/
theorem assign_perm {ms : List (JsString × Json)} (h : (ms.map Prod.fst).Nodup)
    (m : JsString × Json) :
    (assign ms m).Perm (m :: ms.filter (fun x => x.1 != m.1)) := by
  induction ms with
  | nil => exact .refl _
  | cons x ms ih =>
      rw [List.map_cons, List.nodup_cons] at h
      rw [assign]
      split_ifs with hkey
      · have hothers : ms.filter (fun y => y.1 != m.1) = ms := by
          rw [List.filter_eq_self]
          intro y hy
          rw [bne_iff_ne, ← hkey]
          intro hyx
          exact h.1 (hyx ▸ List.mem_map_of_mem hy)
        rw [List.filter_cons_of_neg (by simp [hkey]), hothers]
      · rw [List.filter_cons_of_pos (by simpa using hkey)]
        exact ((ih h.2).cons x).trans (.swap _ _ _)

/-- **Assignments one after the other** leave the last one of each name. -/
theorem foldl_assign_perm (ms : List (JsString × Json)) :
    ∀ {acc : List (JsString × Json)}, (acc.map Prod.fst).Nodup →
      (ms.foldl assign acc).Perm
        (acc.filter (fun x => !ms.any (fun m => m.1 == x.1)) ++ lastMembers ms) := by
  induction ms with
  | nil =>
      intro acc _
      rw [List.foldl_nil, lastMembers, List.append_nil]
      simp
  | cons m ms ih =>
      intro acc hacc
      have hassign := (assign_perm hacc m).filter (fun x => !ms.any (fun m => m.1 == x.1))
      have hfilter : (acc.filter (fun x => x.1 != m.1)).filter
          (fun x => !ms.any (fun m => m.1 == x.1)) =
          acc.filter (fun x => !(m :: ms).any (fun m => m.1 == x.1)) := by
        rw [List.filter_filter]
        apply List.filter_congr
        intro x _
        rw [List.any_cons, Bool.not_or, Bool.and_comm]
        congr 1
        rw [bne, BEq.comm]
      rw [List.foldl_cons, lastMembers]
      refine (ih (assign_nodup hacc m)).trans ((hassign.append_right _).trans ?_)
      split_ifs with hlater
      · rw [List.filter_cons_of_neg (by simpa using hlater), hfilter]
      · rw [Bool.not_eq_true] at hlater
        rw [List.filter_cons_of_pos (by rw [hlater]; rfl), hfilter]
        exact List.perm_middle.symm

theorem evaluateMembers_any (members : List (JsString × Json)) (k : JsString) :
    (evaluateMembers members).any (fun m => m.1 == k) = members.any (fun m => m.1 == k) := by
  induction members with
  | nil => rfl
  | cons m members ih => rw [evaluateMembers, List.any_cons, List.any_cons, ih]

theorem evaluateMembers_eq_nil {members : List (JsString × Json)}
    (h : evaluateMembers members = []) : members = [] := by
  cases members with
  | nil => rfl
  | cons m members => cases h

/-- What is left of the members of an object. -/
theorem ownOrder_foldl_perm (ms : List (JsString × Json)) :
    (ownOrder (ms.foldl assign [])).Perm (lastMembers ms) := by
  have hfold : (ms.foldl assign []).Perm (lastMembers ms) :=
    foldl_assign_perm ms List.nodup_nil
  exact (ownOrder_perm _).trans hfold

theorem lastMembers_ne_nil {ms : List (JsString × Json)} (h : ms ≠ []) : lastMembers ms ≠ [] := by
  induction ms with
  | nil => exact absurd rfl h
  | cons m ms ih =>
      rw [lastMembers]
      split_ifs with hlater
      · apply ih
        rintro rfl
        simp at hlater
      · exact List.cons_ne_nil _ _

/-- The size of a number is that of its shortest text. -/
theorem size_evaluate_num (t : Number) : (evaluate (num t)).size = t.printedLength := by
  rw [evaluate, Number.printedLength]
  cases t.evaluate with
  | some t => exact size_num t
  | none => decide

mutual

/-- **What the value of a text takes**, when it is printed. -/
theorem size_evaluate : ∀ v : Json, (evaluate v).size = printedSize v
  | null => by rw [evaluate, printedSize]; decide
  | bool b => by rw [evaluate, printedSize]
  | num t => by rw [size_evaluate_num, printedSize]
  | str s => by rw [evaluate, printedSize]
  | arr [] => by rw [evaluate, evaluateItems, printedSize]; decide
  | arr (v :: items) => by
      have hitems := sum_evaluateItems (v :: items)
      rw [evaluate, printedSize, size_arr (by simp [evaluateItems]), hitems]
      rfl
  | obj [] => by
      have hnil : ownOrder [] = [] := (ownOrder_perm []).eq_nil
      rw [evaluate, evaluateMembers, List.foldl_nil, hnil, printedSize]
      decide
  | obj (m :: members) => by
      have hmembers := sum_evaluateMembers (m :: members)
      have hperm := ownOrder_foldl_perm (evaluateMembers (m :: members))
      have hne : ownOrder ((evaluateMembers (m :: members)).foldl assign []) ≠ [] := by
        intro hnil
        rw [hnil] at hperm
        refine lastMembers_ne_nil ?_ (List.nil_perm.mp hperm)
        intro hnone
        cases evaluateMembers_eq_nil hnone
      rw [evaluate, printedSize, size_members hne, (hperm.map memberSize).sum_eq, hmembers]
      rfl

/-- The sizes of evaluated items. -/
theorem sum_evaluateItems : ∀ items : List Json,
    ((evaluateItems items).map itemSize).sum = printedItems items
  | [] => rfl
  | v :: items => by
      rw [evaluateItems, printedItems, List.map_cons, List.sum_cons, sum_evaluateItems items,
        itemSize, size_evaluate v]

/-- The sizes of evaluated members. -/
theorem sum_evaluateMembers : ∀ members : List (JsString × Json),
    ((lastMembers (evaluateMembers members)).map memberSize).sum = printedMembers members
  | [] => rfl
  | (k, v) :: members => by
      have hrest := sum_evaluateMembers members
      rw [evaluateMembers, lastMembers, printedMembers, evaluateMembers_any]
      split_ifs with hlater
      · rw [hrest, Nat.zero_add]
      · rw [List.map_cons, List.sum_cons, hrest, memberSize]
        show (str k).size + 1 + (evaluate v).size + 1 + _ = _
        rw [size_evaluate v]

end

mutual

/-- Every number of a text is printed in no more bytes than it was written in. -/
def NumbersShrink : Json → Prop
  | num t => t.printedLength ≤ t.text.length
  | arr items => ItemsShrink items
  | obj members => MembersShrink members
  | _ => True

/-- All numbers of the items shrink. -/
def ItemsShrink : List Json → Prop
  | [] => True
  | v :: items => NumbersShrink v ∧ ItemsShrink items

/-- All numbers of the members shrink. -/
def MembersShrink : List (JsString × Json) → Prop
  | [] => True
  | m :: members => NumbersShrink m.2 ∧ MembersShrink members

end

mutual

/-- **Only numbers grow.** -/
theorem printedSize_le : ∀ v : Json, NumbersShrink v → printedSize v ≤ v.size
  | null, _ => by decide
  | bool b, _ => by rw [printedSize]
  | num t, h => by
      rw [NumbersShrink] at h
      rw [printedSize, size_num]
      exact h
  | str s, _ => by rw [printedSize]
  | arr [], _ => by decide
  | arr (v :: items), h => by
      rw [NumbersShrink] at h
      have hitems := printedItems_le (v :: items) h
      rw [printedSize, size_arr (List.cons_ne_nil _ _)]
      exact Nat.add_le_add_right hitems 1
  | obj [], _ => by decide
  | obj (m :: members), h => by
      rw [NumbersShrink] at h
      have hmembers := printedMembers_le (m :: members) h
      rw [printedSize, size_members (List.cons_ne_nil _ _)]
      exact Nat.add_le_add_right hmembers 1

theorem printedItems_le : ∀ items : List Json, ItemsShrink items →
    printedItems items ≤ (items.map itemSize).sum
  | [], _ => by decide
  | v :: items, h => by
      rw [ItemsShrink] at h
      have hv := printedSize_le v h.1
      have hitems := printedItems_le items h.2
      rw [printedItems, List.map_cons, List.sum_cons, itemSize]
      omega

theorem printedMembers_le : ∀ members : List (JsString × Json), MembersShrink members →
    printedMembers members ≤ (members.map memberSize).sum
  | [], _ => by decide
  | (k, v) :: members, h => by
      rw [MembersShrink] at h
      have hv := printedSize_le v h.1
      have hmembers := printedMembers_le members h.2
      rw [printedMembers, List.map_cons, List.sum_cons, memberSize]
      split_ifs
      · omega
      · show (str k).size + 1 + printedSize v + 1 + _ ≤ (str k).size + 1 + v.size + 1 + _
        omega

end

/-! ## Members of a value -/

/-- The members of one name of a parsed object: the last one counts. -/
theorem find?_reverse_lastMembers (ms : List (JsString × Json)) (k : JsString) :
    ms.reverse.find? (fun m => m.1 == k) = (lastMembers ms).find? (fun m => m.1 == k) := by
  induction ms with
  | nil => rfl
  | cons m ms ih =>
      rw [List.reverse_cons, List.find?_append, lastMembers]
      by_cases hlater : ms.any (fun x => x.1 == m.1) = true
      · rw [if_pos hlater, ← ih]
        cases hfind : ms.reverse.find? (fun x => x.1 == k) with
        | some x => rfl
        | none =>
            have hk : m.1 ≠ k := by
              rintro rfl
              rw [List.find?_eq_none] at hfind
              obtain ⟨x, hx, hkey⟩ := List.any_eq_true.mp hlater
              exact hfind x (List.mem_reverse.mpr hx) hkey
            simp [hk]
      · rw [if_neg hlater]
        by_cases hk : m.1 = k
        · have hnone : ms.reverse.find? (fun x => x.1 == k) = none := by
            rw [List.find?_eq_none]
            intro x hx hkey
            apply hlater
            rw [hk]
            exact List.any_eq_true.mpr ⟨x, List.mem_reverse.mp hx, hkey⟩
          rw [hnone, List.find?_cons_of_pos (by simpa using hk)]
          simp [hk]
        · have hnone : [m].find? (fun x => x.1 == k) = none := by simp [hk]
          rw [hnone, Option.or_none, ih]
          exact (List.find?_cons_of_neg (by simpa using hk)).symm

theorem lastMembers_sublist (ms : List (JsString × Json)) : (lastMembers ms).Sublist ms := by
  induction ms with
  | nil => exact .slnil
  | cons m ms ih =>
      rw [lastMembers]
      split_ifs
      · exact ih.cons m
      · exact ih.cons_cons m

theorem lastMembers_nodup (ms : List (JsString × Json)) :
    ((lastMembers ms).map Prod.fst).Nodup := by
  induction ms with
  | nil => exact List.nodup_nil
  | cons m ms ih =>
      rw [lastMembers]
      split_ifs with hlater
      · exact ih
      · rw [List.map_cons, List.nodup_cons]
        refine ⟨?_, ih⟩
        intro hmem
        obtain ⟨x, hx, hkey⟩ := List.mem_map.mp hmem
        apply hlater
        exact List.any_eq_true.mpr
          ⟨x, (lastMembers_sublist ms).subset hx, beq_iff_eq.mpr hkey⟩

/-- Where names are unique, the order of members does not matter. -/
theorem find?_perm {ms ms' : List (JsString × Json)} (h : ms.Perm ms')
    (hunique : (ms.map Prod.fst).Nodup) (k : JsString) :
    ms.find? (fun m => m.1 == k) = ms'.find? (fun m => m.1 == k) := by
  induction h with
  | nil => rfl
  | cons m _ ih =>
      rw [List.map_cons, List.nodup_cons] at hunique
      rw [List.find?_cons, List.find?_cons, ih hunique.2]
  | swap m m' ms =>
      simp only [List.map_cons, List.nodup_cons, List.mem_cons, not_or] at hunique
      have hne : m'.1 ≠ m.1 := hunique.1.1
      by_cases hm : m.1 = k
      · have hm' : m'.1 ≠ k := fun hk => hne (hk.trans hm.symm)
        rw [List.find?_cons_of_neg (by simpa using hm'), List.find?_cons_of_pos (by simpa using hm),
          List.find?_cons_of_pos (by simpa using hm)]
      · by_cases hm' : m'.1 = k
        · rw [List.find?_cons_of_pos (by simpa using hm'),
            List.find?_cons_of_neg (by simpa using hm), List.find?_cons_of_pos (by simpa using hm')]
        · rw [List.find?_cons_of_neg (by simpa using hm'),
            List.find?_cons_of_neg (by simpa using hm), List.find?_cons_of_neg (by simpa using hm),
            List.find?_cons_of_neg (by simpa using hm')]
  | trans h₁ _ ih₁ ih₂ =>
      rw [ih₁ hunique]
      exact ih₂ ((h₁.map Prod.fst).nodup_iff.mp hunique)

theorem evaluateMembers_eq (members : List (JsString × Json)) :
    evaluateMembers members = members.map (fun m => (m.1, evaluate m.2)) := by
  induction members with
  | nil => rfl
  | cons m members ih => rw [evaluateMembers, ih, List.map_cons]

/-- **Members of the value** are the values of the members. -/
theorem get?_evaluate (v : Json) (k : JsString) :
    v.evaluate.get? k = (v.get? k).map evaluate := by
  cases v with
  | obj members =>
      have hperm := ownOrder_foldl_perm (evaluateMembers members)
      have hunique := (hperm.map Prod.fst).nodup_iff.mpr (lastMembers_nodup _)
      have hreverse := (List.reverse_perm (ownOrder ((evaluateMembers members).foldl assign [])))
      have hunique' := (hreverse.map Prod.fst).nodup_iff.mpr hunique
      rw [evaluate, get?, get?, find?_perm (hreverse.trans hperm) hunique',
        ← find?_reverse_lastMembers, evaluateMembers_eq, ← List.map_reverse, List.find?_map]
      rw [Option.map_map, Option.map_map]
      rfl
  | num t =>
      rw [evaluate]
      cases t.evaluate <;> rfl
  | _ => rfl

/-- A member is smaller than its object. -/
theorem size_get? {v w : Json} {k : JsString} (h : v.get? k = some w) : w.size ≤ v.size := by
  cases v with
  | obj members =>
      obtain ⟨m, hm, rfl⟩ := Option.map_eq_some_iff.mp h
      have hmem : m ∈ members := List.mem_reverse.mp (List.mem_of_find?_eq_some hm)
      rw [size_members (List.ne_nil_of_mem hmem)]
      have hle : memberSize m ≤ (members.map memberSize).sum :=
        List.single_le_sum (fun _ _ => Nat.zero_le _) _ (List.mem_map_of_mem hmem)
      have hmember : memberSize m = (str m.1).size + 1 + m.2.size + 1 := rfl
      omega
  | _ => cases h

end Json
