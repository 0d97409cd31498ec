/-
# JSON values and `JSON.stringify`

* `Json` is the value a JSON text denotes.  A finite number is carried as the text
  `Number::toString` prints for it, which determines the number, so that no
  floating-point arithmetic is needed to move payloads around.
* `stringify` is `JSON.stringify` on such values: no white space, well-formed string
  quoting (a lone surrogate is written as an escape).

The members of an object are kept in property order; `get?` reads the last member of a
name, as an object built by assignment does.
-/
import Waybill.CodeUnits

namespace Json

/-! ## Number tokens -/

/-- `0 … 9`. -/
def isDigit (u : UInt16) : Bool := 48 ≤ u.toNat && u.toNat ≤ 57

/-- A unit that can occur in a number: digits, `+ - . e E`. -/
def isNumberUnit (u : UInt16) : Bool :=
  isDigit u || u == 43 || u == 45 || u == 46 || u == 101 || u == 69

/-- The exponent part of a number, possibly absent. -/
def isExponent : JsString → Bool
  | [] => true
  | e :: s =>
      (e == 101 || e == 69) &&
        match s with
        | [] => false
        | d :: t =>
            if d == 43 || d == 45 then !t.isEmpty && t.all isDigit
            else isDigit d && t.all isDigit

/-- The fraction of a number, possibly absent, and what follows it. -/
def isFraction : JsString → Bool
  | [] => true
  | p :: s =>
      if p == 46 then
        match s with
        | [] => false
        | d :: t => isDigit d && isExponent (t.dropWhile isDigit)
      else isExponent (p :: s)

/-- The integer part of a number, without its sign, and what follows it. -/
def isUnsigned : JsString → Bool
  | [] => false
  | d :: s => if d == 48 then isFraction s else isDigit d && isFraction (s.dropWhile isDigit)

/-- The JSON grammar of numbers. -/
def isNumber (s : JsString) : Bool :=
  s.all isNumberUnit &&
    match s with
    | [] => false
    | d :: t => if d == 45 then isUnsigned t else isUnsigned (d :: t)

/-- A finite number, as the text printed for it. -/
structure Number where
  text : JsString
  valid : isNumber text = true
  deriving DecidableEq

theorem Number.all_isNumberUnit (n : Number) : ∀ u ∈ n.text, isNumberUnit u = true := by
  have h := n.valid
  unfold isNumber at h
  rw [Bool.and_eq_true] at h
  exact List.all_eq_true.mp h.1

theorem Number.text_ne_nil (n : Number) : n.text ≠ [] := by
  intro h
  have hv := n.valid
  rw [h] at hv
  simp [isNumber] at hv

/-- Number tokens are ASCII. -/
theorem lt_of_isNumberUnit {u : UInt16} (h : isNumberUnit u = true) : u.toNat < 0x80 := by
  simp only [isNumberUnit, isDigit, Bool.or_eq_true, Bool.and_eq_true, decide_eq_true_eq,
    beq_iff_eq] at h
  rcases h with ((((h | h) | h) | h) | h) | h
  · omega
  all_goals subst h; decide

end Json

/-! ## Values -/

/-- The values of JSON texts. -/
inductive Json where
  | null
  | bool (b : Bool)
  | num (n : Json.Number)
  | str (s : JsString)
  | arr (items : List Json)
  | obj (members : List (JsString × Json))

namespace Json

/-- Property access: the last member of that name, `none` for `undefined`. -/
def get? (v : Json) (name : JsString) : Option Json :=
  match v with
  | obj members => (members.reverse.find? (fun m => m.1 == name)).map Prod.snd
  | _ => none

/-- `typeof v === "string"`, with the string. -/
def str? : Json → Option JsString
  | str s => some s
  | _ => none

/-! ## Quoting -/

/-- The lower-case hexadecimal digit of `n < 16`. -/
def hexDigit (n : ℕ) : UInt16 := if n < 10 then UInt16.ofNat (48 + n) else UInt16.ofNat (87 + n)

/-- The `\uXXXX` form of a unit. -/
def unicodeEscape (u : UInt16) : JsString :=
  [92, 117, hexDigit (u.toNat / 4096), hexDigit (u.toNat / 256 % 16),
    hexDigit (u.toNat / 16 % 16), hexDigit (u.toNat % 16)]

/-- Quoting of a unit that is not a surrogate. -/
def quoteUnit (u : UInt16) : JsString :=
  if u = 34 then [92, 34]
  else if u = 92 then [92, 92]
  else if u = 8 then [92, 98]
  else if u = 9 then [92, 116]
  else if u = 10 then [92, 110]
  else if u = 12 then [92, 102]
  else if u = 13 then [92, 114]
  else if u.toNat < 0x20 then unicodeEscape u
  else [u]

/-- The inside of a quoted string: surrogate pairs stay, lone surrogates are escaped. -/
def quoteUnits : JsString → JsString
  | [] => []
  | [u] => if JsString.isHigh u || JsString.isLow u then unicodeEscape u else quoteUnit u
  | u :: v :: s =>
      if JsString.isHigh u then
        if JsString.isLow v then u :: v :: quoteUnits s
        else unicodeEscape u ++ quoteUnits (v :: s)
      else if JsString.isLow u then unicodeEscape u ++ quoteUnits (v :: s)
      else quoteUnit u ++ quoteUnits (v :: s)

/-- `QuoteJSONString`. -/
def quote (s : JsString) : JsString := 34 :: (quoteUnits s ++ [34])

/-! ## Stringification -/

mutual

/-- `JSON.stringify`. -/
def stringify : Json → JsString
  | null => js "null"
  | bool true => js "true"
  | bool false => js "false"
  | num n => n.text
  | str s => quote s
  | arr [] => [91, 93]
  | arr (v :: items) => 91 :: (stringify v ++ stringifyItems items)
  | obj [] => [123, 125]
  | obj ((k, v) :: members) =>
      123 :: (quote k ++ 58 :: (stringify v ++ stringifyMembers members))

/-- The rest of an array after an item: `,v … ]`. -/
def stringifyItems : List Json → JsString
  | [] => [93]
  | v :: items => 44 :: (stringify v ++ stringifyItems items)

/-- The rest of an object after a member: `,"k":v … }`. -/
def stringifyMembers : List (JsString × Json) → JsString
  | [] => [125]
  | (k, v) :: members => 44 :: (quote k ++ 58 :: (stringify v ++ stringifyMembers members))

end

/-! ## Texts open with an ASCII unit -/

theorem js_null : js "null" = [110, 117, 108, 108] := by decide
theorem js_true : js "true" = [116, 114, 117, 101] := by decide
theorem js_false : js "false" = [102, 97, 108, 115, 101] := by decide

/-- The first unit of a JSON text is ASCII. -/
theorem stringify_cons (v : Json) :
    ∃ u s, stringify v = u :: s ∧ u.toNat < 0x80 := by
  match v with
  | null => exact ⟨110, [117, 108, 108], by rw [stringify, js_null], by decide⟩
  | bool true => exact ⟨116, [114, 117, 101], by rw [stringify, js_true], by decide⟩
  | bool false => exact ⟨102, [97, 108, 115, 101], by rw [stringify, js_false], by decide⟩
  | num n =>
      obtain ⟨u, s, hs⟩ := List.exists_cons_of_ne_nil n.text_ne_nil
      have hu : isNumberUnit u = true := n.all_isNumberUnit u (by rw [hs]; simp)
      exact ⟨u, s, by rw [stringify, hs], lt_of_isNumberUnit hu⟩
  | str s => exact ⟨34, quoteUnits s ++ [34], by rw [stringify, quote], by decide⟩
  | arr [] => exact ⟨91, [93], by rw [stringify], by decide⟩
  | arr (v :: items) =>
      exact ⟨91, stringify v ++ stringifyItems items, by rw [stringify], by decide⟩
  | obj [] => exact ⟨123, [125], by rw [stringify], by decide⟩
  | obj ((k, v) :: members) => exact ⟨123, _, by rw [stringify], by decide⟩

/-- JSON texts are never empty. -/
theorem stringify_ne_nil (v : Json) : stringify v ≠ [] := by
  obtain ⟨u, t, ht, -⟩ := stringify_cons v
  rw [ht]
  exact List.cons_ne_nil u t

end Json
