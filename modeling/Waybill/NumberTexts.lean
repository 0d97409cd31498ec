/-
# Numbers as text

A general library; nothing in it names this repository.

`Number(s)` reads a string, `JSON.parse` a literal, and `JSON.stringify` prints a number.  A
number that is printed and read again is the same number.  For a whole number below `2 ^ 53`,
such as a time in milliseconds, this follows from two facts: it is a binary64 number, and the
shortest digits that are read as the number are printed with at most a point among them.

* `JsString.toNumber`: `Number(s)`.
* `toBinary64_intCast`: whole numbers are not rounded.
* `number?_ofNumber`: they are read as they were printed.
* `size_ofNumber_le`: how many bytes a number takes.
* `parse_cut`: an object that ends within a number is no JSON text.
-/
import Waybill.JsonParse
import Waybill.JsonSize
import Waybill.Numerals
import Mathlib.Tactic.FieldSimp

/-! ## `Number(s)` -/

namespace JsString

open Json

/-- White space and line terminators. -/
def isBlank (u : UInt16) : Bool :=
  [9, 10, 11, 12, 13, 32, 0xA0, 0x1680, 0x2028, 0x2029, 0x202F, 0x205F, 0x3000,
    0xFEFF].contains u || (0x2000 ≤ u.toNat && u.toNat ≤ 0x200A)

/-- `s.trim()`. -/
def trim (s : JsString) : JsString :=
  ((s.dropWhile isBlank).reverse.dropWhile isBlank).reverse

/-- The value of a digit up to `f`, in either case. -/
def digitValue (u : UInt16) : Option ℕ :=
  if isDigit u then some (u.toNat - 48)
  else if 97 ≤ u.toNat ∧ u.toNat ≤ 102 then some (u.toNat - 87)
  else if 65 ≤ u.toNat ∧ u.toNat ≤ 70 then some (u.toNat - 55)
  else none

/-- Digits of a radix, one at least. -/
def radixValue (radix : ℕ) (t : JsString) : Option ℚ :=
  if t = [] then none
  else (t.foldl (fun acc u => acc.bind (fun n => (digitValue u).bind (fun d =>
    if d < radix then some (radix * n + d) else none))) (some 0)).map (fun n : ℕ => (n : ℚ))

/-- The exponent of a decimal, possibly absent. -/
def decimalExponent : JsString → Option ℤ
  | [] => some 0
  | e :: t =>
      if e = 101 ∨ e = 69 then
        match t with
        | [] => none
        | d :: u =>
            let digits := if d = 43 ∨ d = 45 then u else d :: u
            if digits ≠ [] ∧ digits.all isDigit then
              some (if d = 45 then -(digitsValue digits : ℤ) else digitsValue digits)
            else none
      else none

/-- Digits with a point or an exponent, without a sign. -/
def unsignedDecimal (t : JsString) : Option ℚ :=
  let whole := t.takeWhile isDigit
  let fraction := splitFraction (t.dropWhile isDigit)
  if whole = [] ∧ fraction.1 = [] then none
  else (decimalExponent fraction.2).map (fun e =>
    (digitsValue (whole ++ fraction.1) : ℚ) * (10 : ℚ) ^ (e - (fraction.1.length : ℤ)))

/-- `Number(s)`; `none` is `NaN` or an infinity. -/
def toNumber (s : JsString) : Option ℚ :=
  match trim s with
  | [] => some 0
  | d :: t =>
      let literal : Option ℚ :=
        if d = 48 ∧ (t.head? = some 120 ∨ t.head? = some 88) then radixValue 16 t.tail
        else if d = 48 ∧ (t.head? = some 111 ∨ t.head? = some 79) then radixValue 8 t.tail
        else if d = 48 ∧ (t.head? = some 98 ∨ t.head? = some 66) then radixValue 2 t.tail
        else if d = 45 then (unsignedDecimal t).map Neg.neg
        else if d = 43 then unsignedDecimal t
        else unsignedDecimal (d :: t)
      literal.bind toBinary64

example : toNumber (js " -12.50e-1\n") = some (-5 / 4) := by decide +kernel

end JsString

namespace Json

/-! ## Numbers of a value -/

/-- The number `JSON.parse` has for a literal; `none` is an infinity. -/
def Number.value (t : Number) : Option ℚ := toBinary64 (literalValue t.text)

/-- A number as a value to be written; what cannot be printed is written as `null`. -/
def ofNumber (x : ℚ) : Json :=
  match h : printNumber x with
  | some t => num ⟨t, isNumber_printNumber h⟩
  | none => null

/-- `typeof v === "number" && Number.isFinite(v)`, with the number. -/
def number? : Json → Option ℚ
  | num n => n.value
  | _ => none

/-- What is written is a number if it is printed at all. -/
theorem ofNumber_cases (x : ℚ) :
    (∃ n : Number, ofNumber x = num n ∧ printNumber x = some n.text) ∨ ofNumber x = null := by
  unfold ofNumber
  split
  · next t h => exact .inl ⟨⟨t, _⟩, rfl, h⟩
  · exact .inr rfl

/-! ## Whole numbers are binary64 numbers -/

theorem roundEven_intCast (z : ℤ) : roundEven z = z := by
  rw [roundEven, Int.floor_intCast, sub_self, if_pos (by norm_num)]

theorem roundEven_neg (x : ℚ) : roundEven (-x) = -roundEven x := by
  by_cases hx : (⌊x⌋ : ℚ) = x
  · rw [← hx, ← Int.cast_neg, roundEven_intCast, roundEven_intCast]
  have hlow := Int.floor_le x
  have hhigh := Int.lt_floor_add_one x
  have hlt : (⌊x⌋ : ℚ) < x := lt_of_le_of_ne hlow hx
  have hfloor : ⌊-x⌋ = -⌊x⌋ - 1 := by
    rw [Int.floor_eq_iff]
    push_cast
    constructor
    · linarith
    · linarith
  unfold roundEven
  rw [hfloor]
  push_cast
  -- the part above the integer below is turned around
  split_ifs <;> first | omega | (exfalso; linarith)

theorem toBinary64_neg (x : ℚ) : toBinary64 (-x) = (toBinary64 x).map Neg.neg := by
  unfold toBinary64
  simp only [neg_eq_zero, abs_neg, neg_div, roundEven_neg, Int.cast_neg, neg_mul]
  split_ifs
  · simp
  · rfl
  · rfl

/-- Small whole numbers are binary64 numbers. -/
theorem toBinary64_intCast {z : ℤ} (h : |z| < 2 ^ 53) : toBinary64 z = some (z : ℚ) := by
  by_cases hz : z = 0
  · rw [hz]
    rfl
  have hcast : (z : ℚ) ≠ 0 := Int.cast_ne_zero.mpr hz
  have habs : (0 : ℚ) < |(z : ℚ)| := abs_pos.mpr hcast
  have hlt : |(z : ℚ)| < 2 ^ (53 : ℤ) := by
    rw [← Int.cast_abs]
    exact_mod_cast h
  have hlog : Int.log 2 |(z : ℚ)| < 53 := (Int.lt_zpow_iff_log_lt (by norm_num) habs).mp hlt
  obtain ⟨m, hm⟩ : ∃ m : ℕ, max (Int.log 2 |(z : ℚ)| - 52) (-1074) = -(m : ℤ) :=
    ⟨(max (Int.log 2 |(z : ℚ)| - 52) (-1074)).natAbs, by omega⟩
  have hscaled : (z : ℚ) / 2 ^ (-(m : ℤ)) = ((z * 2 ^ m : ℤ) : ℚ) := by
    rw [zpow_neg, div_inv_eq_mul, zpow_natCast]
    push_cast
    rfl
  have hback : ((z * 2 ^ m : ℤ) : ℚ) * 2 ^ (-(m : ℤ)) = z := by
    rw [zpow_neg, zpow_natCast]
    push_cast
    field_simp
  have hsmall : ¬ (2 : ℚ) ^ 1024 ≤ |(z : ℚ)| := by
    have hpow : (2 : ℚ) ^ (53 : ℤ) ≤ 2 ^ 1024 := by
      rw [show (53 : ℤ) = ((53 : ℕ) : ℤ) from rfl, zpow_natCast]
      exact pow_le_pow_right₀ (by norm_num) (by norm_num)
    exact not_le.mpr (hlt.trans_le hpow)
  unfold toBinary64
  simp only [if_neg hcast, hm, hscaled, roundEven_intCast, hback, if_neg hsmall]

/-! ## What is printed is read as it was -/

theorem digitsValue_append (a b : JsString) :
    digitsValue (a ++ b) = digitsValue a * 10 ^ b.length + digitsValue b := by
  have hfold : ∀ (t : JsString) (n : ℕ), t.foldl (fun acc u => 10 * acc + (u.toNat - 48)) n =
      n * 10 ^ t.length + digitsValue t := by
    intro t
    induction t with
    | nil => intro n; simp [digitsValue]
    | cons u t ih =>
        intro n
        have hu : digitsValue (u :: t) = (u.toNat - 48) * 10 ^ t.length + digitsValue t := by
          rw [digitsValue, List.foldl_cons, ih, Nat.mul_zero, Nat.zero_add]
        rw [List.foldl_cons, ih, hu, List.length_cons, pow_succ]
        ring
  rw [digitsValue, List.foldl_append, hfold b]
  rfl

theorem digitsValue_zeros (m : ℕ) : digitsValue (List.replicate m 48) = 0 := by
  induction m with
  | zero => rfl
  | succ m ih => rw [List.replicate_succ', digitsValue_append, ih]; rfl

theorem takeWhile_digits {d t : JsString} (hd : ∀ u ∈ d, isDigit u = true)
    (ht : NoDigitHead t) : (d ++ t).takeWhile isDigit = d := by
  rw [List.takeWhile_append_of_pos hd]
  cases t with
  | nil => simp
  | cons u t => rw [List.takeWhile_cons_of_neg, List.append_nil]; simp [ht u rfl]

theorem noDigitHead_nil : NoDigitHead [] := by
  intro u hu
  cases hu

theorem noDigitHead_point (t : JsString) : NoDigitHead (46 :: t) := by
  intro u hu
  obtain rfl : u = 46 := by simpa [eq_comm] using hu
  decide

/-- Digits alone. -/
theorem unsignedValue_digits {d : JsString} (hd : ∀ u ∈ d, isDigit u = true) :
    unsignedValue d = digitsValue d := by
  have htake := takeWhile_digits hd noDigitHead_nil
  have hdrop := dropWhile_digits hd noDigitHead_nil
  rw [List.append_nil] at htake hdrop
  simp [unsignedValue, htake, hdrop, splitFraction, exponentValue]

/-- Digits with a point among them. -/
theorem unsignedValue_point {d f : JsString} (hd : ∀ u ∈ d, isDigit u = true)
    (hf : ∀ u ∈ f, isDigit u = true) :
    unsignedValue (d ++ 46 :: f) = digitsValue (d ++ f) * (10 : ℚ) ^ (-(f.length : ℤ)) := by
  have htake := takeWhile_digits hf noDigitHead_nil
  have hdrop := dropWhile_digits hf noDigitHead_nil
  rw [List.append_nil] at htake hdrop
  simp [unsignedValue, takeWhile_digits hd (noDigitHead_point f),
    dropWhile_digits hd (noDigitHead_point f), splitFraction, htake, hdrop, exponentValue]

/-- The text of a decimal with its point not far from its digits denotes its value. -/
theorem unsignedValue_print {d : Decimal} (h : d.WellFormed) (hn : 0 < d.n ∧ d.n ≤ 21) :
    unsignedValue d.print = d.value := by
  have hdigits := fixedDigits_isDigit d.k d.s
  have hlength := length_fixedDigits d.k d.s
  have hvalue : digitsValue (fixedDigits d.k d.s) = d.s := digitsValue_fixedDigits h.2.2
  unfold Decimal.print
  by_cases hint : d.k ≤ d.n ∧ d.n ≤ 21
  · obtain ⟨m, hm⟩ : ∃ m : ℕ, d.n - d.k = m := ⟨(d.n - d.k).toNat, by omega⟩
    have hall : ∀ u ∈ fixedDigits d.k d.s ++ List.replicate m 48, isDigit u = true := by
      intro u hu
      rcases List.mem_append.mp hu with hu | hu
      · exact hdigits u hu
      · exact replicate_isDigit m u hu
    simp only [if_pos hint, hm, Int.toNat_natCast, Decimal.value]
    rw [unsignedValue_digits hall, digitsValue_append, digitsValue_zeros, hvalue,
      List.length_replicate, zpow_natCast]
    push_cast
    ring
  · obtain ⟨m, hm⟩ : ∃ m : ℕ, d.n = m := ⟨d.n.toNat, by omega⟩
    have htake : ∀ u ∈ (fixedDigits d.k d.s).take m, isDigit u = true :=
      fun u hu => hdigits u (List.mem_of_mem_take hu)
    have hdrop : ∀ u ∈ (fixedDigits d.k d.s).drop m, isDigit u = true :=
      fun u hu => hdigits u (List.mem_of_mem_drop hu)
    simp only [if_neg hint, if_pos hn]
    rw [hm, Int.toNat_natCast, unsignedValue_point htake hdrop, List.take_append_drop, hvalue,
      List.length_drop, hlength, Decimal.value, hm]
    congr 2
    omega

/-! ## Whole numbers -/

/-- Digits that are the number are found. -/
theorem shortest_natCast {s : ℕ} (hpos : 0 < s) (h : s < 2 ^ 53) :
    ∃ d, shortest s = some d ∧ d.WellFormed ∧ (0 < d.n ∧ d.n ≤ 21) ∧
      toBinary64 d.value = some (s : ℚ) := by
  have hexact : toBinary64 (s : ℚ) = some (s : ℚ) := by
    have habs : |(s : ℤ)| < 2 ^ 53 := by
      rw [Nat.abs_cast]
      exact_mod_cast h
    exact_mod_cast toBinary64_intCast habs
  have hlog : Int.log 10 (s : ℚ) = Nat.log 10 s := Int.log_natCast 10 s
  have hdigits : Nat.log 10 s < 16 := Nat.log_lt_of_lt_pow (by omega) (by omega)
  -- all its digits, without a point
  have hmem : (⟨s, Nat.log 10 s + 1, Nat.log 10 s + 1⟩ : Decimal) ∈
      around (s : ℚ) (Nat.log 10 s + 1) := by
    have hzero : Int.log 10 (s : ℚ) + 1 - ((Nat.log 10 s + 1 : ℕ) : ℤ) = 0 := by
      rw [hlog]
      push_cast
      omega
    unfold around
    simp only [hzero, zpow_zero, div_one, Int.floor_natCast, Int.toNat_natCast, sub_self]
    rw [if_pos (.inl (by norm_num)), hlog]
    exact List.mem_cons_self
  have hfits : (⟨s, Nat.log 10 s + 1, Nat.log 10 s + 1⟩ : Decimal).WellFormed := by
    refine ⟨Nat.succ_pos _, ?_, ?_⟩
    · exact Nat.pow_log_le_self 10 (Nat.ne_of_gt hpos)
    · exact Nat.lt_pow_succ_log_self (by omega) s
  have hvalue : (⟨s, Nat.log 10 s + 1, Nat.log 10 s + 1⟩ : Decimal).value = s := by
    simp [Decimal.value]
  have hsome : (shortest (s : ℚ)).isSome := by
    rw [shortest, List.find?_isSome]
    refine ⟨_, List.mem_flatMap.mpr ⟨Nat.log 10 s + 1, ?_, hmem⟩, ?_⟩
    · rw [List.mem_range'_1]
      omega
    · rw [decide_eq_true_eq, hvalue]
      exact ⟨hfits, hexact⟩
  obtain ⟨d, hd⟩ := Option.isSome_iff_exists.mp hsome
  have hread := List.find?_some hd
  rw [decide_eq_true_eq] at hread
  obtain ⟨k, -, hk⟩ := List.mem_flatMap.mp (List.mem_of_find?_eq_some hd)
  have hn : d.n = Int.log 10 (s : ℚ) + 1 ∨ d.n = Int.log 10 (s : ℚ) + 1 + 1 := by
    unfold around at hk
    simp only at hk
    split_ifs at hk
    all_goals
      rcases List.mem_pair.mp hk with rfl | rfl
      · simp
      · simp
  exact ⟨d, hd, hread.1, by omega, hread.2⟩

/-- A number that is printed is read from its text. -/
theorem number?_of_print {x : ℚ} {t : JsString} (h : printNumber x = some t) :
    (ofNumber x).number? = toBinary64 (literalValue t) := by
  unfold ofNumber
  split
  · next t' h' =>
      obtain rfl := Option.some.inj (h'.symm.trans h)
      rfl
  · next h' =>
      rw [h] at h'
      cases h'

/-- **Whole numbers are read as they were printed.** -/
theorem number?_ofNumber {z : ℤ} (h : |z| < 2 ^ 53) : (ofNumber z).number? = some (z : ℚ) := by
  have hexact := toBinary64_intCast h
  -- a positive number is printed exactly, and read back
  have hread : ∀ s : ℕ, 0 < s → s < 2 ^ 53 → ∃ u t, printPositive s = some (u :: t) ∧ u ≠ 45 ∧
      toBinary64 (unsignedValue (u :: t)) = some (s : ℚ) := by
    intro s hpos hs
    obtain ⟨d, hd, hformed, hn, hvalue⟩ := shortest_natCast hpos hs
    have hunsigned := Decimal.isUnsigned_print hformed
    have hprint : printPositive s = some d.print := by rw [printPositive, hd, Option.map_some]
    have htext := unsignedValue_print hformed hn
    cases ht : d.print with
    | nil =>
        rw [ht] at hunsigned
        cases hunsigned
    | cons u t =>
        refine ⟨u, t, ht ▸ hprint, ?_, ?_⟩
        · rintro rfl
          rw [ht] at hunsigned
          simp [isUnsigned, isDigit] at hunsigned
        · rw [← ht, htext, hvalue]
  -- the sign stands apart
  rcases lt_trichotomy z 0 with hneg | rfl | hpos
  · obtain ⟨s, hs⟩ : ∃ s : ℕ, z = -(s : ℤ) := ⟨z.natAbs, by omega⟩
    subst hs
    rw [abs_neg, Nat.abs_cast] at h
    obtain ⟨u, t, hprint, -, hvalue⟩ := hread s (by omega) (by exact_mod_cast h)
    have htext : printNumber ((-(s : ℤ) : ℤ) : ℚ) = some (45 :: u :: t) := by
      have hlt : -(s : ℚ) < 0 := by
        have hs : (0 : ℤ) < s := by omega
        have hcast : (0 : ℚ) < s := by exact_mod_cast hs
        linarith
      rw [Int.cast_neg, Int.cast_natCast, printNumber, if_neg hlt.ne, if_pos hlt, neg_neg, hprint]
      rfl
    rw [number?_of_print htext, literalValue, if_pos rfl, toBinary64_neg, hvalue]
    simp
  · rw [number?_of_print (t := [48]) rfl]
    decide +kernel
  · obtain ⟨s, rfl⟩ := Int.eq_ofNat_of_zero_le hpos.le
    rw [Nat.abs_cast] at h
    obtain ⟨u, t, hprint, hu, hvalue⟩ := hread s (by omega) (by exact_mod_cast h)
    have htext : printNumber ((s : ℤ) : ℚ) = some (u :: t) := by
      have hlt : (0 : ℚ) < s := by exact_mod_cast hpos
      rw [Int.cast_natCast, printNumber, if_neg hlt.ne', if_neg hlt.not_gt, hprint]
    rw [number?_of_print htext, literalValue, if_neg hu, hvalue, Int.cast_natCast]

/-! ## How long a number is -/

/-- Seventeen digits are enough. -/
theorem shortest_digits {x : ℚ} {d : Decimal} (h : shortest x = some d) : d.k ≤ 17 := by
  obtain ⟨k, hk, hd⟩ := List.mem_flatMap.mp (List.mem_of_find?_eq_some h)
  rw [List.mem_range'_1] at hk
  unfold around at hd
  simp only at hd
  split_ifs at hd
  all_goals
    rcases List.mem_pair.mp hd with rfl | rfl
    · simp only
      omega
    · simp only
      omega

theorem length_pointed_le (t : JsString) : (pointed t).length ≤ t.length + 1 := by
  match t with
  | [] => simp [pointed]
  | [d] => simp [pointed]
  | d :: e :: t => simp [pointed]

/-- The text of a decimal is short. -/
theorem length_print_le {d : Decimal} (h : d.k ≤ 17) : d.print.length ≤ 24 := by
  have hdigits := length_fixedDigits d.k d.s
  have hpointed := length_pointed_le (fixedDigits d.k d.s)
  unfold Decimal.print
  simp only
  split_ifs
  · rw [List.length_append, hdigits, List.length_replicate]
    omega
  · rw [List.length_append, List.length_cons, List.length_take, List.length_drop, hdigits]
    omega
  · rw [List.length_cons, List.length_cons, List.length_append, List.length_replicate, hdigits]
    omega
  · rw [List.length_append, printExponent, List.length_cons, List.length_cons, length_fixedDigits]
    split_ifs
    all_goals omega

theorem length_printPositive_le {x : ℚ} {t : JsString} (h : printPositive x = some t) :
    t.length ≤ 24 := by
  obtain ⟨d, hd, rfl⟩ := Option.map_eq_some_iff.mp h
  exact length_print_le (shortest_digits hd)

/-- **A number takes 25 bytes at most.** -/
theorem size_ofNumber_le (x : ℚ) : (ofNumber x).size ≤ 25 := by
  rcases ofNumber_cases x with ⟨n, hn, hprint⟩ | hnull
  · rw [hn, size_num]
    unfold printNumber at hprint
    split_ifs at hprint
    · rw [← Option.some.inj hprint]
      decide
    · obtain ⟨t, ht, htext⟩ := Option.map_eq_some_iff.mp hprint
      rw [← htext, List.length_cons]
      exact Nat.succ_le_succ (length_printPositive_le ht)
    · exact (length_printPositive_le hprint).trans (by omega)
  · rw [hnull]
    decide

/-! ## Texts that end too early -/

/-- **An object that ends within a number is no JSON text.** -/
theorem parse_cut (k : JsString) {t : JsString} (ht : ∀ u ∈ t, isNumberUnit u = true) :
    parse (123 :: (quote k ++ 58 :: t)) = none := by
  have h58 : isSpace 58 = false := by decide
  have hquote : quote k ++ 58 :: t = 34 :: (quoteUnits k ++ 34 :: 58 :: t) := by
    simp [quote]
  have hvalue : ∀ n, parseValue n t = none ∨ ∃ v, parseValue n t = some (v, []) := by
    intro n
    cases n with
    | zero => exact .inl rfl
    | succ n =>
        cases t with
        | nil => exact .inl rfl
        | cons u t =>
            obtain ⟨⟨hspace, -, -⟩, h34, h91, h123, h110, h116, h102⟩ :=
              opens_of_isNumberUnit (ht u List.mem_cons_self)
            have htake := takeWhile_append_delimited ht delimited_nil
            have hdrop := dropWhile_append_delimited ht delimited_nil
            rw [List.append_nil] at htake hdrop
            rw [parseValue, skipSpace_cons hspace]
            simp only [if_neg h34, if_neg h91, if_neg h123, if_neg h110, if_neg h116, if_neg h102,
              parseNumber, htake, hdrop]
            split_ifs
            · exact .inr ⟨_, rfl⟩
            · exact .inl rfl
  -- after the member neither a comma nor the brace follows
  have hmember : ∀ n, parseMember n (quote k ++ 58 :: t) = none ∨
      ∃ m, parseMember n (quote k ++ 58 :: t) = some (m, []) := by
    intro n
    cases n with
    | zero => exact .inl rfl
    | succ n =>
        rw [hquote, parseMember, skipSpace_cons (by decide)]
        simp only [if_true, parseString_quoteUnits, skipSpace_cons h58, List.head?_cons,
          List.tail_cons]
        rcases hvalue n with hv | ⟨v, hv⟩
        · exact .inl (by rw [hv]; rfl)
        · exact .inr ⟨_, by rw [hv]; rfl⟩
  have hmembers : ∀ n, parseMembers n [] = none := by
    intro n
    cases n with
    | zero => rfl
    | succ n => rfl
  have hobject : parseValue ((123 :: (quote k ++ 58 :: t)).length + 1)
      (123 :: (quote k ++ 58 :: t)) = none := by
    have hne : ¬ (skipSpace (quote k ++ 58 :: t)).head? = some 125 := by
      rw [hquote, skipSpace_cons (by decide), List.head?_cons]
      decide
    rw [parseValue, skipSpace_cons (by decide)]
    simp only [if_neg hne, if_neg (by decide : ¬ (123 : UInt16) = 34),
      if_neg (by decide : ¬ (123 : UInt16) = 91), if_true]
    rcases hmember (123 :: (quote k ++ 58 :: t)).length with hm | ⟨m, hm⟩
    · rw [hm]
    · rw [hm]
      simp only [hmembers, Option.map_none]
  rw [parse, hobject]

end Json
