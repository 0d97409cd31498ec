/-
# Dates as ISO 8601 text

A general library; nothing in it names this repository.

The calendar is the proleptic Gregorian one of ECMAScript: a time value counts milliseconds, and
day 0 is 1 January 1970.  `toISOString` prints a time value, and `datetime?` reads the texts
`YYYY-MM-DDThh:mm[:ss[.s…]]Z` of the days there are.

* `time_fields`: the fields of a time value determine it.
* `datetime?_toISOString`: what is printed for a year of four digits is read back.
-/
import Waybill.Numerals

namespace Calendar

open Json

/-! ## Years -/

/-- `DayFromYear`. -/
def dayFromYear (y : ℤ) : ℤ :=
  365 * (y - 1970) + (y - 1969) / 4 - (y - 1901) / 100 + (y - 1601) / 400

def isLeap (y : ℤ) : Bool := y % 4 == 0 && (y % 100 != 0 || y % 400 == 0)

/-- How long a year is. -/
theorem dayFromYear_succ (y : ℤ) :
    dayFromYear (y + 1) = dayFromYear y + if isLeap y then 366 else 365 := by
  unfold dayFromYear isLeap
  simp only [Bool.and_eq_true, Bool.or_eq_true, beq_iff_eq, bne_iff_ne]
  split_ifs with hleap
  · omega
  · omega

/-- A year and its first day are in proportion, but for a day and a half. -/
theorem dayFromYear_bounds (y : ℤ) :
    146097 * (y - 1970) - 600 ≤ 400 * dayFromYear y ∧
      400 * dayFromYear y ≤ 146097 * (y - 1970) + 600 := by
  unfold dayFromYear
  omega

/-- `YearFromTime`, of a day. -/
def yearFromDay (d : ℤ) : ℤ :=
  let y := 1970 + 400 * d / 146097
  if d < dayFromYear y then y - 1
  else if dayFromYear (y + 1) ≤ d then y + 1
  else y

/-- **The year of a day** is the one the day is in. -/
theorem yearFromDay_spec (d : ℤ) :
    dayFromYear (yearFromDay d) ≤ d ∧ d < dayFromYear (yearFromDay d + 1) := by
  have hquot : 146097 * (400 * d / 146097) ≤ 400 * d ∧
      400 * d < 146097 * (400 * d / 146097) + 146097 := by omega
  unfold yearFromDay
  generalize 400 * d / 146097 = q at hquot
  have hbefore := dayFromYear_bounds (1970 + q - 1)
  have hafter := dayFromYear_bounds (1970 + q + 1 + 1)
  simp only
  split_ifs with hlow hhigh
  · refine ⟨by omega, ?_⟩
    rw [sub_add_cancel]
    exact hlow
  · exact ⟨hhigh, by omega⟩
  · omega

/-! ## Months -/

/-- The days of a year before a month. -/
def monthStart (leap : Bool) (m : ℕ) : ℕ :=
  [0, 0, 31, 59, 90, 120, 151, 181, 212, 243, 273, 304, 334].getD m 0 +
    if leap && decide (2 < m) then 1 else 0

def monthLength (leap : Bool) (m : ℕ) : ℕ :=
  if m = 2 then (if leap then 29 else 28)
  else if m = 4 ∨ m = 6 ∨ m = 9 ∨ m = 11 then 30
  else 31

/-- The month of a day of the year. -/
def monthOf (leap : Bool) (n : ℕ) : ℕ :=
  ((List.range' 1 12).filter (fun m => decide (monthStart leap m ≤ n))).length

theorem monthOf_spec : ∀ leap : Bool, ∀ n < if leap then 366 else 365,
    1 ≤ monthOf leap n ∧ monthOf leap n ≤ 12 ∧ monthStart leap (monthOf leap n) ≤ n ∧
      n < monthStart leap (monthOf leap n) + monthLength leap (monthOf leap n) := by
  decide +kernel

/-! ## Time values -/

/-- The fields of a time value. -/
structure Fields where
  year : ℤ
  month : ℕ
  day : ℕ
  hour : ℕ
  minute : ℕ
  second : ℕ
  millisecond : ℕ

/-- `YearFromTime`, `MonthFromTime` and so on; months count from 1. -/
def fields (t : ℤ) : Fields :=
  let y := yearFromDay (t / 86400000)
  let n := (t / 86400000 - dayFromYear y).toNat
  let r := (t % 86400000).toNat
  { year := y
    month := monthOf (isLeap y) n
    day := n - monthStart (isLeap y) (monthOf (isLeap y) n) + 1
    hour := r / 3600000
    minute := r / 60000 % 60
    second := r / 1000 % 60
    millisecond := r % 1000 }

/-- `MakeDate` of the day and the time of day. -/
def Fields.time (f : Fields) : ℤ :=
  (dayFromYear f.year + monthStart (isLeap f.year) f.month + f.day - 1) * 86400000 +
    f.hour * 3600000 + f.minute * 60000 + f.second * 1000 + f.millisecond

/-- What the fields of a time value are. -/
structure Fields.Valid (f : Fields) : Prop where
  month : 1 ≤ f.month ∧ f.month ≤ 12
  day : 1 ≤ f.day ∧ f.day ≤ monthLength (isLeap f.year) f.month
  hour : f.hour < 24
  minute : f.minute < 60
  second : f.second < 60
  millisecond : f.millisecond < 1000

/-- The day of the year of a day. -/
theorem dayOfYear_lt (d : ℤ) : 0 ≤ d - dayFromYear (yearFromDay d) ∧
    (d - dayFromYear (yearFromDay d)).toNat < if isLeap (yearFromDay d) then 366 else 365 := by
  obtain ⟨hlow, hhigh⟩ := yearFromDay_spec d
  rw [dayFromYear_succ] at hhigh
  split_ifs at hhigh ⊢ with hleap
  · omega
  · omega

theorem valid_fields (t : ℤ) : (fields t).Valid := by
  obtain ⟨hnonneg, hlt⟩ := dayOfYear_lt (t / 86400000)
  obtain ⟨hm1, hm12, hstart, hend⟩ := monthOf_spec _ _ hlt
  have hr : (t % 86400000).toNat < 86400000 := by omega
  refine ⟨⟨hm1, hm12⟩, ⟨Nat.le_add_left _ _, ?_⟩, ?_, ?_, ?_, ?_⟩
  · have hle : ∀ n s l : ℕ, s ≤ n → n < s + l → n - s + 1 ≤ l := by
      intro n s l hs hl
      omega
    exact hle _ _ _ hstart hend
  · show (t % 86400000).toNat / 3600000 < 24
    omega
  · exact Nat.mod_lt _ (by omega)
  · exact Nat.mod_lt _ (by omega)
  · exact Nat.mod_lt _ (by omega)

/-- **The fields of a time value determine it.** -/
theorem time_fields (t : ℤ) : (fields t).time = t := by
  obtain ⟨hnonneg, hlt⟩ := dayOfYear_lt (t / 86400000)
  obtain ⟨-, -, hstart, -⟩ := monthOf_spec _ _ hlt
  unfold Fields.time fields
  simp only
  generalize hy : yearFromDay (t / 86400000) = y at *
  generalize hn : (t / 86400000 - dayFromYear y).toNat = n at *
  generalize hs : monthStart (isLeap y) (monthOf (isLeap y) n) = s at *
  have hday : dayFromYear y + s + ((n - s + 1 : ℕ) : ℤ) - 1 = t / 86400000 := by omega
  rw [hday]
  omega

/-! ## Printing -/

/-- Four digits, or a sign and six. -/
def printYear (y : ℤ) : JsString :=
  if 0 ≤ y ∧ y ≤ 9999 then fixedDigits 4 y.toNat
  else (if y < 0 then 45 else 43) :: fixedDigits 6 y.natAbs

theorem printYear_of_four {y : ℤ} (h : 0 ≤ y ∧ y ≤ 9999) : printYear y = fixedDigits 4 y.toNat :=
  if_pos h

def Fields.print (f : Fields) : JsString :=
  printYear f.year ++ 45 :: (fixedDigits 2 f.month ++ 45 :: (fixedDigits 2 f.day ++ 84 ::
    (fixedDigits 2 f.hour ++ 58 :: (fixedDigits 2 f.minute ++ 58 :: (fixedDigits 2 f.second ++ 46 ::
      (fixedDigits 3 f.millisecond ++ [90]))))))

/-- `date.toISOString()`. -/
def toISOString (t : ℤ) : JsString := (fields t).print

/-! ## Reading -/

/-- A number of so many digits, and what follows it. -/
def takeDigits (k : ℕ) (s : JsString) : Option (ℕ × JsString) :=
  if (s.take k).length = k ∧ (s.take k).all isDigit then some (digitsValue (s.take k), s.drop k)
  else none

/-- A unit, and what follows it. -/
def expect (u : UInt16) : JsString → Option JsString
  | [] => none
  | v :: s => if v = u then some s else none

/-- The milliseconds of a fraction: its first three digits. -/
def fraction (digits : JsString) : ℕ := digitsValue ((digits ++ [48, 48, 48]).take 3)

/-- The seconds and milliseconds, if there are any. -/
def takeSeconds : JsString → Option (ℕ × ℕ × JsString)
  | [] => none
  | u :: s =>
      if u = 58 then
        match takeDigits 2 s with
        | none => none
        | some (second, []) => some (second, 0, [])
        | some (second, v :: s) =>
            if v = 46 then
              if (s.takeWhile isDigit).isEmpty then none
              else some (second, fraction (s.takeWhile isDigit), s.dropWhile isDigit)
            else some (second, 0, v :: s)
      else some (0, 0, u :: s)

/-- Two digits of a leap year that are not both zero: `[2468][048]|[13579][26]|0[48]`. -/
def leapDigits (a b : ℕ) : Bool :=
  (a % 2 == 0 && a != 0 && (b == 0 || b == 4 || b == 8)) || (a % 2 == 1 && (b == 2 || b == 6)) ||
    (a == 0 && (b == 4 || b == 8))

/-- The years that have a 29 February, by their digits:
`\d\d[2468][048]|\d\d[13579][26]|\d\d0[48]|[02468][048]00|[13579][26]00`. -/
def leapPattern (y : ℕ) : Bool :=
  leapDigits (y % 100 / 10) (y % 100 % 10) ||
    (y % 100 == 0 && (y / 100 == 0 || leapDigits (y / 100 / 10) (y / 100 % 10)))

/-- The dates there are. -/
def isDate (y m d : ℕ) : Bool :=
  (m == 2 && d == 29 && leapPattern y) ||
    ((m == 1 || m == 3 || m == 5 || m == 7 || m == 8 || m == 10 || m == 12) && 1 ≤ d && d ≤ 31) ||
    ((m == 4 || m == 6 || m == 9 || m == 11) && 1 ≤ d && d ≤ 30) ||
    (m == 2 && 1 ≤ d && d ≤ 28)

/-- A date and time in UTC; the text is read from left to right. -/
def datetime? (s : JsString) : Option Fields := do
  let (year, s) ← takeDigits 4 s
  let s ← expect 45 s
  let (month, s) ← takeDigits 2 s
  let s ← expect 45 s
  let (day, s) ← takeDigits 2 s
  let s ← expect 84 s
  let (hour, s) ← takeDigits 2 s
  let s ← expect 58 s
  let (minute, s) ← takeDigits 2 s
  let (second, millisecond, s) ← takeSeconds s
  if s = [90] ∧ isDate year month day = true ∧ hour ≤ 23 ∧ minute ≤ 59 ∧ second ≤ 59 then
    some { year := year, month := month, day := day, hour := hour, minute := minute
           second := second, millisecond := millisecond }
  else none

/-! ## Reading what was printed -/

theorem takeDigits_append {k n : ℕ} (h : n < 10 ^ k) (s : JsString) :
    takeDigits k (fixedDigits k n ++ s) = some (n, s) := by
  have htake : (fixedDigits k n ++ s).take k = fixedDigits k n :=
    List.take_left' (length_fixedDigits k n)
  have hdrop : (fixedDigits k n ++ s).drop k = s := List.drop_left' (length_fixedDigits k n)
  unfold takeDigits
  rw [htake, hdrop, if_pos ⟨length_fixedDigits k n, List.all_eq_true.mpr (fixedDigits_isDigit k n)⟩,
    digitsValue_fixedDigits h]

theorem expect_cons (u : UInt16) (s : JsString) : expect u (u :: s) = some s := if_pos rfl

theorem fraction_fixedDigits {n : ℕ} (h : n < 1000) : fraction (fixedDigits 3 n) = n := by
  unfold fraction
  rw [List.take_left' (length_fixedDigits 3 n), digitsValue_fixedDigits h]

theorem takeSeconds_print {second millisecond : ℕ} (hs : second < 60) (hms : millisecond < 1000) :
    takeSeconds (58 :: (fixedDigits 2 second ++ 46 :: (fixedDigits 3 millisecond ++ [90]))) =
      some (second, millisecond, [90]) := by
  have hdigits : ∀ u ∈ fixedDigits 3 millisecond, isDigit u = true := fixedDigits_isDigit 3 _
  have htake : (fixedDigits 3 millisecond ++ [90]).takeWhile isDigit =
      fixedDigits 3 millisecond := by
    rw [List.takeWhile_append_of_pos hdigits]
    simp +decide
  have hdrop : (fixedDigits 3 millisecond ++ [90]).dropWhile isDigit = [90] := by
    rw [List.dropWhile_append_of_pos hdigits]
    simp +decide
  have hne : (fixedDigits 3 millisecond).isEmpty = false := by
    rw [List.isEmpty_eq_false_iff, ← List.length_pos_iff, length_fixedDigits]
    omega
  rw [takeSeconds, if_pos rfl, takeDigits_append (by omega)]
  simp only [if_true, htake, hdrop, hne, fraction_fixedDigits hms]
  rfl

/-- The digits of a leap year. -/
theorem leapPattern_of_isLeap {y : ℕ} (hy : y ≤ 9999) (h : isLeap y = true) :
    leapPattern y = true := by
  have hlow : ∀ r < 100, r % 4 = 0 → r ≠ 0 → leapDigits (r / 10) (r % 10) = true := by decide
  unfold isLeap at h
  simp only [Bool.and_eq_true, Bool.or_eq_true, beq_iff_eq, bne_iff_ne] at h
  unfold leapPattern
  rw [Bool.or_eq_true]
  by_cases hzero : y % 100 = 0
  · refine .inr ?_
    rw [Bool.and_eq_true, Bool.or_eq_true]
    refine ⟨beq_iff_eq.mpr hzero, ?_⟩
    by_cases hfirst : y / 100 = 0
    · exact .inl (beq_iff_eq.mpr hfirst)
    · exact .inr (hlow (y / 100) (by omega) (by omega) hfirst)
  · exact .inl (hlow (y % 100) (Nat.mod_lt _ (by omega)) (by omega) hzero)

/-- The dates that are printed are dates. -/
theorem isDate_of_valid {f : Fields} (h : f.Valid) {y : ℕ} (hy : y ≤ 9999) (hyear : f.year = y) :
    isDate y f.month f.day = true := by
  obtain ⟨hm1, hm12⟩ := h.month
  obtain ⟨hd1, hd⟩ := h.day
  rw [hyear] at hd
  unfold isDate
  simp only [Bool.or_eq_true, Bool.and_eq_true, beq_iff_eq, decide_eq_true_eq]
  by_cases h29 : f.month = 2 ∧ f.day = 29
  · -- there is a 29 February in a leap year only
    have hleap : isLeap y = true := by
      by_contra hnot
      rw [monthLength, if_pos h29.1, if_neg hnot] at hd
      omega
    exact .inl (.inl (.inl ⟨h29, leapPattern_of_isLeap hy hleap⟩))
  · unfold monthLength at hd
    split_ifs at hd
    · omega
    · omega
    · omega
    · omega

/-- **What is printed for a year of four digits is read back.** -/
theorem datetime?_toISOString {t : ℤ} (h : 0 ≤ (fields t).year ∧ (fields t).year ≤ 9999) :
    datetime? (toISOString t) = some (fields t) := by
  have hvalid := valid_fields t
  obtain ⟨y, hy⟩ := Int.eq_ofNat_of_zero_le h.1
  have hy9999 : y ≤ 9999 := by omega
  have hyear : printYear (fields t).year = fixedDigits 4 y := by
    rw [printYear_of_four h, hy, Int.toNat_natCast]
  have hd31 : (fields t).day < 10 ^ 2 := by
    have hle := hvalid.day.2
    unfold monthLength at hle
    split_ifs at hle <;> omega
  obtain ⟨hm1, hm12⟩ := hvalid.month
  have hdate := isDate_of_valid hvalid hy9999 hy
  have hhour := hvalid.hour
  have hminute := hvalid.minute
  have hsecond := hvalid.second
  unfold datetime? toISOString Fields.print
  rw [hyear]
  simp only [Option.bind_eq_bind, Option.bind_some, expect_cons,
    takeDigits_append (show y < 10 ^ 4 by omega),
    takeDigits_append (show (fields t).month < 10 ^ 2 by omega), takeDigits_append hd31,
    takeDigits_append (show (fields t).hour < 10 ^ 2 by omega),
    takeDigits_append (show (fields t).minute < 10 ^ 2 by omega),
    takeSeconds_print hsecond hvalid.millisecond]
  rw [if_pos ⟨trivial, hdate, by omega, by omega, by omega⟩, ← hy]

end Calendar
