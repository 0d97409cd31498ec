/-
# Numbers: from the literal to what is printed for it

`JSON.parse` reads a decimal literal as the nearest binary64 number, and `Number::toString`
prints that number with as few digits as tell it from its neighbours.  Both are computed
here on rationals.

* `literalValue`: the number a literal denotes.
* `toBinary64`: rounding to 53 binary digits, ties to even; `none` is `Infinity`.
* `shortest`: the digits `Number::toString` prints.
* `isNumber_printNumber`: what is printed is a literal again.
-/
import Waybill.Json
import Mathlib.Data.Int.Log
import Mathlib.Data.Rat.Floor

namespace Json

/-! ## The value of a literal -/

/-- A run of digits. -/
def digitsValue (t : JsString) : ℕ := t.foldl (fun acc u => 10 * acc + (u.toNat - 48)) 0

/-- The exponent of a literal, from the `e` on. -/
def exponentValue : JsString → ℤ
  | _ :: d :: t =>
      if d = 45 then -(digitsValue t : ℤ)
      else if d = 43 then digitsValue t
      else digitsValue (d :: t)
  | _ => 0

/-- The digits of the fraction, and what follows them. -/
def splitFraction : JsString → JsString × JsString
  | [] => ([], [])
  | p :: t => if p = 46 then (t.takeWhile isDigit, t.dropWhile isDigit) else ([], p :: t)

/-- A literal without its sign. -/
def unsignedValue (t : JsString) : ℚ :=
  let fraction := splitFraction (t.dropWhile isDigit)
  digitsValue (t.takeWhile isDigit ++ fraction.1) *
    (10 : ℚ) ^ (exponentValue fraction.2 - fraction.1.length)

/-- The number a literal denotes. -/
def literalValue : JsString → ℚ
  | [] => 0
  | d :: t => if d = 45 then -unsignedValue t else unsignedValue (d :: t)

/-! ## Rounding -/

/-- The nearest integer, the even one of two. -/
def roundEven (x : ℚ) : ℤ :=
  if x - ⌊x⌋ < 1 / 2 then ⌊x⌋
  else if 1 / 2 < x - ⌊x⌋ then ⌊x⌋ + 1
  else if ⌊x⌋ % 2 = 0 then ⌊x⌋ else ⌊x⌋ + 1

/-- The nearest binary64 number; `none` is an infinity. -/
def toBinary64 (x : ℚ) : Option ℚ :=
  if x = 0 then some 0
  else
    let e := max (Int.log 2 |x| - 52) (-1074)
    let y : ℚ := roundEven (x / 2 ^ e) * 2 ^ e
    if 2 ^ 1024 ≤ |y| then none else some y

/-! ## `Number::toString` -/

/-- A number `s · 10 ^ (n - k)`, in which `s` has `k` digits. -/
structure Decimal where
  s : ℕ
  k : ℕ
  n : ℤ
  deriving DecidableEq

namespace Decimal

/-- `10 ^ (k - 1) ≤ s < 10 ^ k`. -/
def WellFormed (d : Decimal) : Prop := 0 < d.k ∧ 10 ^ (d.k - 1) ≤ d.s ∧ d.s < 10 ^ d.k

instance (d : Decimal) : Decidable d.WellFormed := by
  unfold WellFormed
  infer_instance

/-- The value. -/
def value (d : Decimal) : ℚ := d.s * (10 : ℚ) ^ (d.n - d.k)

end Decimal

/-- The two numbers of `k` digits around a positive one, the nearer one first. -/
def around (x : ℚ) (k : ℕ) : List Decimal :=
  let n := Int.log 10 x + 1
  let y := x / (10 : ℚ) ^ (n - k)
  let s := ⌊y⌋.toNat
  let below : Decimal := { s := s, k := k, n := n }
  let above : Decimal :=
    if s + 1 = 10 ^ k then { s := 10 ^ (k - 1), k := k, n := n + 1 }
    else { s := s + 1, k := k, n := n }
  if y - s < 1 / 2 ∨ y - s = 1 / 2 ∧ s % 2 = 0 then [below, above] else [above, below]

/-- The fewest digits that are read back as the number, which 17 digits always are. -/
def shortest (x : ℚ) : Option Decimal :=
  ((List.range' 1 17).flatMap (around x)).find?
    (fun d => decide (d.WellFormed ∧ toBinary64 d.value = some x))

/-- A decimal digit. -/
def digit (d : ℕ) : UInt16 := UInt16.ofNat (48 + d % 10)

/-- The last `k` digits of a number. -/
def fixedDigits : ℕ → ℕ → JsString
  | 0, _ => []
  | k + 1, s => digit (s / 10 ^ k) :: fixedDigits k s

/-- `e+21`, `e-7`: the exponents of binary64 numbers have three digits at most. -/
def printExponent (e : ℤ) : JsString :=
  101 :: (if 0 ≤ e then 43 else 45) ::
    fixedDigits (if e.natAbs < 10 then 1 else if e.natAbs < 100 then 2 else 3) e.natAbs

/-- Digits with a point after the first one, if there are more. -/
def pointed : JsString → JsString
  | [] => []
  | [d] => [d]
  | d :: e :: t => d :: 46 :: e :: t

/-- The text of a positive number. -/
def Decimal.print (d : Decimal) : JsString :=
  let digits := fixedDigits d.k d.s
  if d.k ≤ d.n ∧ d.n ≤ 21 then digits ++ List.replicate (d.n - d.k).toNat 48
  else if 0 < d.n ∧ d.n ≤ 21 then digits.take d.n.toNat ++ 46 :: digits.drop d.n.toNat
  else if -6 < d.n ∧ d.n ≤ 0 then
    48 :: 46 :: (List.replicate (-d.n).toNat 48 ++ digits)
  else pointed digits ++ printExponent (d.n - 1)

/-- `Number::toString`, of a positive number. -/
def printPositive (x : ℚ) : Option JsString := (shortest x).map Decimal.print

/-- `Number::toString`: both zeros are `0`. -/
def printNumber (x : ℚ) : Option JsString :=
  if x = 0 then some [48]
  else if x < 0 then (printPositive (-x)).map (45 :: ·)
  else printPositive x

/-! ## What is printed is a literal -/

theorem isDigit_digit (d : ℕ) : isDigit (digit d) = true := by
  have hlt : d % 10 < 10 := Nat.mod_lt _ (by omega)
  have hsmall : ∀ r < 10, isDigit (UInt16.ofNat (48 + r)) = true := by decide
  exact hsmall _ hlt

theorem fixedDigits_isDigit (k s : ℕ) : ∀ u ∈ fixedDigits k s, isDigit u = true := by
  induction k with
  | zero => intro u hu; simp [fixedDigits] at hu
  | succ k ih =>
      intro u hu
      rcases List.mem_cons.mp hu with rfl | hu
      · exact isDigit_digit _
      · exact ih u hu

theorem length_fixedDigits (k s : ℕ) : (fixedDigits k s).length = k := by
  induction k with
  | zero => rfl
  | succ k ih => rw [fixedDigits, List.length_cons, ih]

theorem foldl_fixedDigits (k n a : ℕ) :
    (fixedDigits k n).foldl (fun acc u => 10 * acc + (u.toNat - 48)) a =
      a * 10 ^ k + n % 10 ^ k := by
  induction k generalizing a with
  | zero => simp [fixedDigits, Nat.mod_one]
  | succ k ih =>
      have hdigit : (digit (n / 10 ^ k)).toNat - 48 = n / 10 ^ k % 10 := by
        unfold digit
        rw [UInt16.toNat_ofNat', Nat.mod_eq_of_lt (by omega)]
        omega
      rw [fixedDigits, List.foldl_cons, ih, hdigit, Nat.mod_pow_succ, pow_succ]
      ring

/-- **Digits are read back.** -/
theorem digitsValue_fixedDigits {k n : ℕ} (h : n < 10 ^ k) :
    digitsValue (fixedDigits k n) = n := by
  rw [digitsValue, foldl_fixedDigits, Nat.mod_eq_of_lt h, Nat.zero_mul, Nat.zero_add]

/-- The first digit of a number of `k` digits is not zero. -/
theorem digit_ne_zero {k s : ℕ} (hlow : 10 ^ k ≤ s) (hhigh : s < 10 ^ (k + 1)) :
    digit (s / 10 ^ k) ≠ 48 := by
  have hpos : 0 < 10 ^ k := Nat.pow_pos (by omega)
  have hone : 1 ≤ s / 10 ^ k := (Nat.one_le_div_iff hpos).mpr hlow
  have hten : s / 10 ^ k < 10 := by
    rw [Nat.div_lt_iff_lt_mul hpos, ← pow_succ']
    exact hhigh
  have hsmall : ∀ r < 10, 1 ≤ r → UInt16.ofNat (48 + r % 10) ≠ 48 := by decide
  exact hsmall _ hten hone

theorem isNumberUnit_of_isDigit {u : UInt16} (h : isDigit u = true) : isNumberUnit u = true := by
  simp [isNumberUnit, h]

/-- What is not a digit ends a run of digits. -/
def NoDigitHead (t : JsString) : Prop := ∀ u ∈ t.head?, isDigit u = false

theorem dropWhile_digits {d t : JsString} (hd : ∀ u ∈ d, isDigit u = true)
    (ht : NoDigitHead t) : (d ++ t).dropWhile isDigit = t := by
  rw [List.dropWhile_append_of_pos hd]
  cases t with
  | nil => rfl
  | cons u t => rw [List.dropWhile_cons_of_neg]; simp [ht u rfl]

/-- Digits, and then a fraction or an exponent. -/
theorem isUnsigned_digits {u : UInt16} {d t : JsString} (hu : isDigit u = true) (h0 : u ≠ 48)
    (hd : ∀ v ∈ d, isDigit v = true) (ht : NoDigitHead t) (hfraction : isFraction t = true) :
    isUnsigned (u :: (d ++ t)) = true := by
  have hne : (u == 48) = false := beq_eq_false_iff_ne.mpr h0
  simp [isUnsigned, hne, hu, dropWhile_digits hd ht, hfraction]

/-- A point, digits, and then an exponent. -/
theorem isFraction_digits {d t : JsString} (hne : d ≠ []) (hd : ∀ v ∈ d, isDigit v = true)
    (ht : NoDigitHead t) (hexponent : isExponent t = true) :
    isFraction (46 :: (d ++ t)) = true := by
  obtain ⟨u, e, rfl⟩ := List.exists_cons_of_ne_nil hne
  have he : ∀ v ∈ e, isDigit v = true := fun v hv => hd v (List.mem_cons_of_mem _ hv)
  have hu : isDigit u = true := hd u (by simp)
  simp [isFraction, hu, dropWhile_digits he ht, hexponent]

theorem isExponent_printExponent (e : ℤ) : isExponent (printExponent e) = true := by
  have hdigits := fixedDigits_isDigit
    (if e.natAbs < 10 then 1 else if e.natAbs < 100 then 2 else 3) e.natAbs
  have hlength := length_fixedDigits
    (if e.natAbs < 10 then 1 else if e.natAbs < 100 then 2 else 3) e.natAbs
  have hne : fixedDigits (if e.natAbs < 10 then 1 else if e.natAbs < 100 then 2 else 3)
      e.natAbs ≠ [] := by
    intro hnil
    rw [hnil] at hlength
    split_ifs at hlength
  unfold printExponent isExponent
  by_cases he : 0 ≤ e
  · simpa [he, hne] using hdigits
  · simpa [he, hne] using hdigits

theorem noDigitHead_printExponent (e : ℤ) : NoDigitHead (printExponent e) := by
  intro u hu
  obtain rfl : u = 101 := by simpa [printExponent, eq_comm] using hu
  decide

theorem printExponent_isNumberUnit (e : ℤ) : ∀ u ∈ printExponent e, isNumberUnit u = true := by
  intro u hu
  simp only [printExponent, List.mem_cons] at hu
  rcases hu with rfl | rfl | hu
  · decide
  · split_ifs <;> decide
  · exact isNumberUnit_of_isDigit (fixedDigits_isDigit _ _ u hu)

theorem replicate_isDigit (m : ℕ) : ∀ u ∈ List.replicate m (48 : UInt16), isDigit u = true := by
  intro u hu
  rw [List.eq_of_mem_replicate hu]
  decide

/-- The digits of a decimal: the first is not zero. -/
theorem Decimal.WellFormed.digits {d : Decimal} (h : d.WellFormed) :
    ∃ u t, fixedDigits d.k d.s = u :: t ∧ isDigit u = true ∧ u ≠ 48 ∧
      (∀ v ∈ t, isDigit v = true) ∧ t.length + 1 = d.k := by
  obtain ⟨s, k, n⟩ := d
  obtain ⟨hk, hlow, hhigh⟩ := h
  obtain ⟨j, rfl⟩ := Nat.exists_eq_succ_of_ne_zero (Nat.ne_of_gt hk)
  exact ⟨_, _, rfl, isDigit_digit _, digit_ne_zero hlow hhigh, fixedDigits_isDigit j s, by
    rw [length_fixedDigits]⟩

/-- **A printed decimal is a literal without a sign.** -/
theorem Decimal.isUnsigned_print {d : Decimal} (h : d.WellFormed) : isUnsigned d.print = true := by
  obtain ⟨u, t, hdigits, hu, h0, ht, hlength⟩ := h.digits
  have hnil : NoDigitHead [] := by intro v hv; cases hv
  unfold Decimal.print
  simp only [hdigits]
  split_ifs with hint hpoint hsmall
  -- digits, with zeros up to the point
  · have hall : ∀ v ∈ t ++ List.replicate (d.n - d.k).toNat 48, isDigit v = true := by
      intro v hv
      rcases List.mem_append.mp hv with hv | hv
      · exact ht v hv
      · exact replicate_isDigit _ v hv
    have hliteral := isUnsigned_digits hu h0 hall hnil rfl
    rwa [List.append_nil] at hliteral
  · -- the point stands after the first `n` digits, and one digit at least follows
    obtain ⟨m, hm⟩ : ∃ m, d.n.toNat = m + 1 := ⟨d.n.toNat - 1, by omega⟩
    have hlt : m < t.length := by omega
    rw [hm, List.take_succ_cons, List.drop_succ_cons]
    have hrest : t.drop m ≠ [] := by
      rw [ne_eq, List.drop_eq_nil_iff]
      omega
    have hfraction := isFraction_digits hrest (fun v hv => ht v (List.mem_of_mem_drop hv)) hnil rfl
    rw [List.append_nil] at hfraction
    exact isUnsigned_digits hu h0 (fun v hv => ht v (List.mem_of_mem_take hv))
      (by intro v hv; obtain rfl : v = 46 := by simpa [eq_comm] using hv
          decide) hfraction
  -- `0.`, zeros, and the digits
  · have hall : ∀ v ∈ List.replicate (-d.n).toNat 48 ++ u :: t, isDigit v = true := by
      intro v hv
      rcases List.mem_append.mp hv with hv | hv
      · exact replicate_isDigit _ v hv
      · rcases List.mem_cons.mp hv with rfl | hv
        · exact hu
        · exact ht v hv
    have hfraction := isFraction_digits (by simp) hall hnil rfl
    rw [List.append_nil] at hfraction
    simpa [isUnsigned] using hfraction
  -- an exponent
  · have hexponent := isExponent_printExponent (d.n - 1)
    have hhead := noDigitHead_printExponent (d.n - 1)
    cases t with
    | nil =>
        refine isUnsigned_digits (d := []) hu h0 (by simp) hhead ?_
        simpa [isFraction, printExponent] using hexponent
    | cons v t =>
        have hfraction := isFraction_digits (by simp) ht hhead hexponent
        exact isUnsigned_digits (d := []) hu h0 (by simp)
          (by intro w hw; obtain rfl : w = 46 := by simpa [eq_comm] using hw
              decide) hfraction

theorem Decimal.print_isNumberUnit (d : Decimal) : ∀ u ∈ d.print, isNumberUnit u = true := by
  have hdigits : ∀ u ∈ fixedDigits d.k d.s, isNumberUnit u = true :=
    fun u hu => isNumberUnit_of_isDigit (fixedDigits_isDigit _ _ u hu)
  have hzeros : ∀ m, ∀ u ∈ List.replicate m (48 : UInt16), isNumberUnit u = true :=
    fun m u hu => isNumberUnit_of_isDigit (replicate_isDigit m u hu)
  intro u hu
  unfold Decimal.print at hu
  simp only at hu
  split_ifs at hu
  · rcases List.mem_append.mp hu with hu | hu
    · exact hdigits u hu
    · exact hzeros _ u hu
  · rcases List.mem_append.mp hu with hu | hu
    · exact hdigits u (List.mem_of_mem_take hu)
    · rcases List.mem_cons.mp hu with rfl | hu
      · decide
      · exact hdigits u (List.mem_of_mem_drop hu)
  · simp only [List.mem_cons, List.mem_append] at hu
    rcases hu with rfl | rfl | hu | hu
    · decide
    · decide
    · exact hzeros _ u hu
    · exact hdigits u hu
  · rcases List.mem_append.mp hu with hu | hu
    · have hmem : u = 46 ∨ u ∈ fixedDigits d.k d.s := by
        revert hu
        rcases fixedDigits d.k d.s with _ | ⟨a, _ | ⟨b, t⟩⟩ <;> simp [pointed] <;> tauto
      rcases hmem with rfl | hu
      · decide
      · exact hdigits u hu
    · exact printExponent_isNumberUnit _ u hu

theorem wellFormed_of_shortest {x : ℚ} {d : Decimal} (h : shortest x = some d) : d.WellFormed := by
  have hfits := List.find?_some h
  rw [decide_eq_true_eq] at hfits
  exact hfits.1

/-- The printed text of a positive number is an unsigned literal. -/
theorem isUnsigned_printPositive {x : ℚ} {t : JsString} (h : printPositive x = some t) :
    isUnsigned t = true ∧ ∀ u ∈ t, isNumberUnit u = true := by
  obtain ⟨d, hd, rfl⟩ := Option.map_eq_some_iff.mp h
  exact ⟨Decimal.isUnsigned_print (wellFormed_of_shortest hd), d.print_isNumberUnit⟩

/-- **What is printed is a literal.** -/
theorem isNumber_printNumber {x : ℚ} {t : JsString} (h : printNumber x = some t) :
    isNumber t = true := by
  unfold printNumber at h
  split_ifs at h with hzero hneg
  · rw [← Option.some.inj h]
    decide
  · obtain ⟨t, ht, rfl⟩ := Option.map_eq_some_iff.mp h
    obtain ⟨hunsigned, hunits⟩ := isUnsigned_printPositive ht
    simpa [isNumber, hunsigned] using ⟨by decide, hunits⟩
  · obtain ⟨hunsigned, hunits⟩ := isUnsigned_printPositive h
    cases t with
    | nil => exact absurd hunsigned (by decide)
    | cons d t =>
        have hsign : d ≠ 45 := by
          rintro rfl
          simp [isUnsigned, isDigit] at hunsigned
        have hne : (d == 45) = false := beq_eq_false_iff_ne.mpr hsign
        simpa [isNumber, hne, hunsigned] using hunits

/-! ## Numbers of a text and numbers of a value -/

/-- The value `JSON.parse` has for a literal, printed; `none` is an infinity. -/
def Number.evaluate (t : Number) : Option Number :=
  match h : (toBinary64 (literalValue t.text)).bind printNumber with
  | some text => some ⟨text, by
      obtain ⟨x, -, hx⟩ := Option.bind_eq_some_iff.mp h
      exact isNumber_printNumber hx⟩
  | none => none

example : (toBinary64 (literalValue (js "-12.50e-1"))).bind printNumber = some (js "-1.25") := by
  decide +kernel

end Json
