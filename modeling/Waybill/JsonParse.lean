/-
# `JSON.parse`, and that it undoes `JSON.stringify`

`parse` is a recursive-descent parser on code units.  Its fuel is the length of the
text, which every nested value is shorter than, so running out of fuel never decides
anything: `parse_stringify` gives back every value from the text printed for it.

The round trip is proved from the inside out: string bodies (`parseString_quoteUnits`),
numbers (`parseNumber_append`), then values by recursion on the value.
-/
import Waybill.Json

namespace Json

/-! ## Scanning -/

/-- JSON white space. -/
def isSpace (u : UInt16) : Bool := u == 32 || u == 9 || u == 10 || u == 13

/-- White space is skipped. -/
def skipSpace (s : JsString) : JsString := s.dropWhile isSpace

/-- The value of a hexadecimal digit. -/
def hexValue (u : UInt16) : Option ℕ :=
  if 48 ≤ u.toNat && u.toNat ≤ 57 then some (u.toNat - 48)
  else if 97 ≤ u.toNat && u.toNat ≤ 102 then some (u.toNat - 87)
  else if 65 ≤ u.toNat && u.toNat ≤ 70 then some (u.toNat - 55)
  else none

/-- The unit a one-letter escape stands for. -/
def unescape (e : UInt16) : Option UInt16 :=
  if e = 34 then some 34
  else if e = 92 then some 92
  else if e = 47 then some 47
  else if e = 98 then some 8
  else if e = 102 then some 12
  else if e = 110 then some 10
  else if e = 114 then some 13
  else if e = 116 then some 9
  else none

/-- Four hexadecimal digits as a unit. -/
def hexUnit (a b c d : UInt16) : Option UInt16 :=
  match hexValue a, hexValue b, hexValue c, hexValue d with
  | some a, some b, some c, some d => some (UInt16.ofNat (4096 * a + 256 * b + 16 * c + d))
  | _, _, _, _ => none

/-- The body of a string, after its opening quote, and what follows the closing one. -/
def parseString : JsString → Option (JsString × JsString)
  | [] => none
  | u :: s =>
      if u = 34 then some ([], s)
      else if u = 92 then
        match s with
        | [] => none
        | e :: s =>
            -- `\uXXXX`
            if e = 117 then
              match s with
              | a :: b :: c :: d :: s =>
                  match hexUnit a b c d with
                  | some v => (parseString s).map (fun p => (v :: p.1, p.2))
                  | none => none
              | _ => none
            else
              match unescape e with
              | some v => (parseString s).map (fun p => (v :: p.1, p.2))
              | none => none
      -- a control character must be escaped
      else if u.toNat < 0x20 then none
      else (parseString s).map (fun p => (u :: p.1, p.2))

/-- A number is the longest run of number units, if that run is one. -/
def parseNumber (s : JsString) : Option (Json × JsString) :=
  if h : isNumber (s.takeWhile isNumberUnit) = true then
    some (num ⟨s.takeWhile isNumberUnit, h⟩, s.dropWhile isNumberUnit)
  else none

/-- A keyword, and what follows it. -/
def parseKeyword (word : JsString) (v : Json) (s : JsString) : Option (Json × JsString) :=
  if word.isPrefixOf s then some (v, s.drop word.length) else none

/-! ## Values -/

mutual

/-- A value and what follows it. -/
def parseValue : ℕ → JsString → Option (Json × JsString)
  | 0, _ => none
  | n + 1, s =>
      match skipSpace s with
      | [] => none
      | u :: t =>
          if u = 34 then (parseString t).map (fun p => (str p.1, p.2))
          else if u = 91 then
            -- the empty array, without a first item to read
            if (skipSpace t).head? = some 93 then some (arr [], (skipSpace t).tail)
            else
              match parseValue n t with
              | some (v, r) => (parseItems n r).map (fun p => (arr (v :: p.1), p.2))
              | none => none
          else if u = 123 then
            -- the empty object
            if (skipSpace t).head? = some 125 then some (obj [], (skipSpace t).tail)
            else
              match parseMember n t with
              | some (m, r) => (parseMembers n r).map (fun p => (obj (m :: p.1), p.2))
              | none => none
          else if u = 110 then parseKeyword (js "null") null (u :: t)
          else if u = 116 then parseKeyword (js "true") (bool true) (u :: t)
          else if u = 102 then parseKeyword (js "false") (bool false) (u :: t)
          else parseNumber (u :: t)

/-- The rest of an array after an item. -/
def parseItems : ℕ → JsString → Option (List Json × JsString)
  | 0, _ => none
  | n + 1, s =>
      match skipSpace s with
      | [] => none
      | u :: t =>
          if u = 93 then some ([], t)
          else if u = 44 then
            match parseValue n t with
            | some (v, r) => (parseItems n r).map (fun p => (v :: p.1, p.2))
            | none => none
          else none

/-- One member `"k": v` of an object. -/
def parseMember : ℕ → JsString → Option ((JsString × Json) × JsString)
  | 0, _ => none
  | n + 1, s =>
      match skipSpace s with
      | [] => none
      | u :: t =>
          if u = 34 then
            match parseString t with
            | some (k, r) =>
                if (skipSpace r).head? = some 58 then
                  (parseValue n (skipSpace r).tail).map (fun p => ((k, p.1), p.2))
                else none
            | none => none
          else none

/-- The rest of an object after a member. -/
def parseMembers : ℕ → JsString → Option (List (JsString × Json) × JsString)
  | 0, _ => none
  | n + 1, s =>
      match skipSpace s with
      | [] => none
      | u :: t =>
          if u = 125 then some ([], t)
          else if u = 44 then
            match parseMember n t with
            | some (m, r) => (parseMembers n r).map (fun p => (m :: p.1, p.2))
            | none => none
          else none

end

/-- `JSON.parse`; `none` is a `SyntaxError`. -/
def parse (s : JsString) : Option Json :=
  match parseValue (s.length + 1) s with
  | some (v, r) => if skipSpace r = [] then some v else none
  | none => none

/-! ## Round trip: strings -/

theorem hexValue_hexDigit : ∀ n < 16, hexValue (hexDigit n) = some n := by decide

/-- The escape of a unit reads back as that unit. -/
theorem parseString_unicodeEscape (u : UInt16) (s : JsString) :
    parseString (unicodeEscape u ++ s) =
      (parseString s).map (fun p => (u :: p.1, p.2)) := by
  have hlt : u.toNat < 65536 := u.toNat_lt
  have hu : hexUnit (hexDigit (u.toNat / 4096)) (hexDigit (u.toNat / 256 % 16))
      (hexDigit (u.toNat / 16 % 16)) (hexDigit (u.toNat % 16)) = some u := by
    rw [hexUnit, hexValue_hexDigit _ (by omega), hexValue_hexDigit _ (by omega),
      hexValue_hexDigit _ (by omega), hexValue_hexDigit _ (by omega)]
    have hsum : 4096 * (u.toNat / 4096) + 256 * (u.toNat / 256 % 16)
        + 16 * (u.toNat / 16 % 16) + u.toNat % 16 = u.toNat := by omega
    simp only [hsum, UInt16.ofNat_toNat]
  rw [unicodeEscape]
  simp only [List.cons_append, List.nil_append]
  rw [parseString.eq_def]
  simp +decide only [if_false, if_true, hu]

/-- The quoting of a unit reads back as that unit. -/
theorem parseString_quoteUnit (u : UInt16) (s : JsString) :
    parseString (quoteUnit u ++ s) = (parseString s).map (fun p => (u :: p.1, p.2)) := by
  unfold quoteUnit
  split
  · next h => subst h; simp +decide [parseString.eq_def (92 :: _), unescape]
  split
  · next h => subst h; simp +decide [parseString.eq_def (92 :: _), unescape]
  split
  · next h => subst h; simp +decide [parseString.eq_def (92 :: _), unescape]
  split
  · next h => subst h; simp +decide [parseString.eq_def (92 :: _), unescape]
  split
  · next h => subst h; simp +decide [parseString.eq_def (92 :: _), unescape]
  split
  · next h => subst h; simp +decide [parseString.eq_def (92 :: _), unescape]
  split
  · next h => subst h; simp +decide [parseString.eq_def (92 :: _), unescape]
  split
  · exact parseString_unicodeEscape u s
  · next h34 h92 _ _ _ _ _ hge =>
      rw [List.singleton_append, parseString.eq_def]
      simp only [if_neg h34, if_neg h92, if_neg hge]

theorem parseString_close (r : JsString) : parseString (34 :: r) = some ([], r) := by
  rw [parseString.eq_def]
  simp only [if_true]

/-- A surrogate is not a unit that ends or escapes a string. -/
theorem parseString_surrogate {u : UInt16} (hu : 0xD800 ≤ u.toNat) (s : JsString) :
    parseString (u :: s) = (parseString s).map (fun p => (u :: p.1, p.2)) := by
  have h34 : u ≠ 34 := by rintro rfl; exact absurd hu (by decide)
  have h92 : u ≠ 92 := by rintro rfl; exact absurd hu (by decide)
  rw [parseString.eq_def]
  simp only [if_neg h34, if_neg h92, if_neg (by omega : ¬ u.toNat < 0x20)]

/-- **String bodies round-trip.** -/
theorem parseString_quoteUnits (s r : JsString) :
    parseString (quoteUnits s ++ 34 :: r) = some (s, r) := by
  induction s using quoteUnits.induct with
  | case1 => exact parseString_close r
  | case2 u h =>
      rw [quoteUnits, if_pos h, parseString_unicodeEscape, parseString_close]
      rfl
  | case3 u h =>
      rw [quoteUnits, if_neg h, parseString_quoteUnit, parseString_close]
      rfl
  | case4 u v s hu hv ih =>
      have hu' : 0xD800 ≤ u.toNat := by
        simp only [JsString.isHigh, Bool.and_eq_true, decide_eq_true_eq] at hu
        exact hu.1
      have hv' : 0xD800 ≤ v.toNat := by
        simp only [JsString.isLow, Bool.and_eq_true, decide_eq_true_eq] at hv
        omega
      rw [quoteUnits, if_pos hu, if_pos hv, List.cons_append, List.cons_append,
        parseString_surrogate hu', parseString_surrogate hv', ih]
      rfl
  | case5 u v s hu hv ih =>
      rw [quoteUnits, if_pos hu, if_neg hv, List.append_assoc, parseString_unicodeEscape, ih]
      rfl
  | case6 u v s hu hl ih =>
      rw [quoteUnits, if_neg hu, if_pos hl, List.append_assoc, parseString_unicodeEscape, ih]
      rfl
  | case7 u v s hu hl ih =>
      rw [quoteUnits, if_neg hu, if_neg hl, List.append_assoc, parseString_quoteUnit, ih]
      rfl

/-! ## Round trip: numbers -/

/-- What follows a value: it does not continue a number. -/
def Delimited (r : JsString) : Prop := ∀ u ∈ r.head?, isNumberUnit u = false

theorem delimited_nil : Delimited [] := by intro u hu; simp at hu

theorem delimited_cons {u : UInt16} {r : JsString} (h : isNumberUnit u = false) :
    Delimited (u :: r) := by
  intro v hv
  simp only [List.head?_cons, Option.mem_def, Option.some.injEq] at hv
  exact hv ▸ h

theorem takeWhile_append_delimited {t r : JsString} (ht : ∀ u ∈ t, isNumberUnit u = true)
    (hr : Delimited r) : (t ++ r).takeWhile isNumberUnit = t := by
  rw [List.takeWhile_append_of_pos ht]
  cases r with
  | nil => simp
  | cons u r => simp [hr u (by simp)]

theorem dropWhile_append_delimited {t r : JsString} (ht : ∀ u ∈ t, isNumberUnit u = true)
    (hr : Delimited r) : (t ++ r).dropWhile isNumberUnit = r := by
  rw [List.dropWhile_append_of_pos ht]
  cases r with
  | nil => simp
  | cons u r => simp [hr u (by simp)]

/-- **Numbers round-trip** in front of a delimiter. -/
theorem parseNumber_append (n : Number) {r : JsString} (hr : Delimited r) :
    parseNumber (n.text ++ r) = some (num n, r) := by
  unfold parseNumber
  simp only [takeWhile_append_delimited n.all_isNumberUnit hr,
    dropWhile_append_delimited n.all_isNumberUnit hr]
  rw [dif_pos n.valid]

/-! ## Round trip: values -/

/-- A unit that can open a value is neither white space nor a closing bracket. -/
def Opens (u : UInt16) : Prop := isSpace u = false ∧ u ≠ 93 ∧ u ≠ 125

theorem skipSpace_cons {u : UInt16} (h : isSpace u = false) (s : JsString) :
    skipSpace (u :: s) = u :: s := by
  simp [skipSpace, h]

/-- What begins a number begins nothing else. -/
theorem opens_of_isNumberUnit {u : UInt16} (h : isNumberUnit u = true) :
    Opens u ∧ u ≠ 34 ∧ u ≠ 91 ∧ u ≠ 123 ∧ u ≠ 110 ∧ u ≠ 116 ∧ u ≠ 102 := by
  have key : ∀ v : UInt16, isNumberUnit v = false → u ≠ v := by
    rintro v hv rfl
    rw [h] at hv
    exact absurd hv (by simp)
  refine ⟨⟨?_, key 93 (by decide), key 125 (by decide)⟩, key 34 (by decide),
    key 91 (by decide), key 123 (by decide), key 110 (by decide), key 116 (by decide),
    key 102 (by decide)⟩
  simp only [isSpace, Bool.or_eq_false_iff, beq_eq_false_iff_ne]
  exact ⟨⟨⟨key 32 (by decide), key 9 (by decide)⟩, key 10 (by decide)⟩, key 13 (by decide)⟩

/-- The text of a value opens it. -/
theorem stringify_opens (v : Json) : ∃ u s, stringify v = u :: s ∧ Opens u := by
  match v with
  | null => exact ⟨110, [117, 108, 108], by rw [stringify, js_null], by unfold Opens; decide⟩
  | bool true =>
      exact ⟨116, [114, 117, 101], by rw [stringify, js_true], by unfold Opens; decide⟩
  | bool false =>
      exact ⟨102, [97, 108, 115, 101], by rw [stringify, js_false], by unfold Opens; decide⟩
  | num n =>
      obtain ⟨u, s, hs⟩ := List.exists_cons_of_ne_nil n.text_ne_nil
      have hu : isNumberUnit u = true := n.all_isNumberUnit u (by rw [hs]; simp)
      exact ⟨u, s, by rw [stringify, hs], (opens_of_isNumberUnit hu).1⟩
  | str s => exact ⟨34, _, by rw [stringify, quote], by unfold Opens; decide⟩
  | arr [] => exact ⟨91, _, by rw [stringify], by unfold Opens; decide⟩
  | arr (v :: items) => exact ⟨91, _, by rw [stringify], by unfold Opens; decide⟩
  | obj [] => exact ⟨123, _, by rw [stringify], by unfold Opens; decide⟩
  | obj ((k, v) :: members) => exact ⟨123, _, by rw [stringify], by unfold Opens; decide⟩

/-- An array text with an item does not look empty. -/
theorem skipSpace_stringify_head (v : Json) (s : JsString) :
    (skipSpace (stringify v ++ s)).head? ≠ some 93 := by
  obtain ⟨u, t, ht, hs, h93, -⟩ := stringify_opens v
  rw [ht, List.cons_append, skipSpace_cons hs]
  simpa using h93

theorem delimited_stringifyItems (items : List Json) (r : JsString) :
    Delimited (stringifyItems items ++ r) := by
  cases items <;> (rw [stringifyItems]; exact delimited_cons (by decide))

theorem delimited_stringifyMembers (members : List (JsString × Json)) (r : JsString) :
    Delimited (stringifyMembers members ++ r) := by
  match members with
  | [] => rw [stringifyMembers]; exact delimited_cons (by decide)
  | (k, v) :: members => rw [stringifyMembers]; exact delimited_cons (by decide)

/-- A keyword is read back. -/
theorem parseKeyword_append (word : JsString) (v : Json) (r : JsString) :
    parseKeyword word v (word ++ r) = some (v, r) := by
  have h : word.isPrefixOf (word ++ r) = true :=
    List.isPrefixOf_iff_prefix.mpr (List.prefix_append word r)
  simp [parseKeyword, h]

/-- A member reads back, once its value does. -/
theorem parseMember_append {n : ℕ} {k : JsString} {v : Json} {r : JsString}
    (hv : parseValue n (stringify v ++ r) = some (v, r)) :
    parseMember (n + 1) (quote k ++ 58 :: (stringify v ++ r)) = some ((k, v), r) := by
  have h58 : isSpace 58 = false := by decide
  have hk := parseString_quoteUnits k (58 :: (stringify v ++ r))
  rw [quote, List.cons_append, List.append_assoc, List.singleton_append]
  rw [parseMember, skipSpace_cons (by decide)]
  simp only [if_true, hk, skipSpace_cons h58, List.head?_cons, List.tail_cons, hv,
    Option.map_some]

mutual

/-- **Values round-trip**, with any fuel at least the length of their text. -/
theorem parseValue_stringify : ∀ (v : Json) (n : ℕ) (r : JsString),
    (stringify v).length ≤ n → Delimited r → parseValue n (stringify v ++ r) = some (v, r)
  -- no text is that short
  | v, 0, _, hn, _ => by
      obtain ⟨u, s, hs, -⟩ := stringify_opens v
      rw [hs] at hn
      simp at hn
  | null, n + 1, r, _, _ => by
      have hkey := parseKeyword_append (js "null") null r
      rw [js_null] at hkey
      rw [stringify, js_null, parseValue, List.cons_append, skipSpace_cons (by decide)]
      simpa [js_null] using hkey
  | bool true, n + 1, r, _, _ => by
      have hkey := parseKeyword_append (js "true") (bool true) r
      rw [js_true] at hkey
      rw [stringify, js_true, parseValue, List.cons_append, skipSpace_cons (by decide)]
      simpa [js_true] using hkey
  | bool false, n + 1, r, _, _ => by
      have hkey := parseKeyword_append (js "false") (bool false) r
      rw [js_false] at hkey
      rw [stringify, js_false, parseValue, List.cons_append, skipSpace_cons (by decide)]
      simpa [js_false] using hkey
  | num t, n + 1, r, _, hr => by
      obtain ⟨u, s, hs⟩ := List.exists_cons_of_ne_nil t.text_ne_nil
      have hu : isNumberUnit u = true := t.all_isNumberUnit u (by rw [hs]; simp)
      obtain ⟨⟨hsp, -, -⟩, h34, h91, h123, h110, h116, h102⟩ := opens_of_isNumberUnit hu
      have hnum := parseNumber_append t hr
      rw [stringify, parseValue, hs, List.cons_append, skipSpace_cons hsp]
      rw [hs, List.cons_append] at hnum
      simp only [if_neg h34, if_neg h91, if_neg h123, if_neg h110, if_neg h116, if_neg h102,
        hnum]
  | str s, n + 1, r, _, _ => by
      have hs := parseString_quoteUnits s r
      rw [stringify, quote, parseValue, List.cons_append, skipSpace_cons (by decide),
        List.append_assoc, List.singleton_append]
      simp only [if_true, hs, Option.map_some]
  -- an empty array closes at once
  | arr [], n + 1, r, _, _ => by
      have h93 : isSpace 93 = false := by decide
      rw [stringify, parseValue, List.cons_append, skipSpace_cons (by decide),
        List.singleton_append]
      simp [skipSpace_cons h93]
  | arr (v :: items), n + 1, r, hn, _ => by
      rw [stringify, List.length_cons, List.length_append] at hn
      have hv := parseValue_stringify v n (stringifyItems items ++ r) (by omega)
        (delimited_stringifyItems items r)
      have hitems := parseItems_stringifyItems items n r (by omega)
      rw [stringify, parseValue, List.cons_append, skipSpace_cons (by decide),
        List.append_assoc]
      simp +decide only [if_false, if_true, if_neg (skipSpace_stringify_head v _), hv,
        hitems, Option.map_some]
  | obj [], n + 1, r, _, _ => by
      have h125 : isSpace 125 = false := by decide
      rw [stringify, parseValue, List.cons_append, skipSpace_cons (by decide),
        List.singleton_append]
      simp [skipSpace_cons h125]
  | obj ((k, v) :: members), n + 1, r, hn, _ => by
      rw [stringify, List.length_cons, List.length_append, List.length_cons,
        List.length_append] at hn
      have hlen : 1 ≤ (quote k).length := by rw [quote, List.length_cons]; omega
      -- a key takes at least its quotes, so there is fuel for the value
      obtain ⟨m, rfl⟩ : ∃ m, n = m + 1 := ⟨n - 1, by omega⟩
      have hv := parseValue_stringify v m (stringifyMembers members ++ r) (by omega)
        (delimited_stringifyMembers members r)
      have hmember := parseMember_append (k := k) hv
      have hmembers := parseMembers_stringifyMembers members (m + 1) r (by omega)
      have hhead : ¬ (skipSpace (quote k ++ 58 :: (stringify v ++
          (stringifyMembers members ++ r)))).head? = some 125 := by
        rw [quote, List.cons_append, skipSpace_cons (by decide)]
        simp
      rw [stringify, parseValue, List.cons_append, skipSpace_cons (by decide)]
      simp +decide only [if_false, if_true, List.append_assoc, List.cons_append,
        if_neg hhead, hmember, hmembers, Option.map_some]

/-- The items of an array are read back. -/
theorem parseItems_stringifyItems : ∀ (items : List Json) (n : ℕ) (r : JsString),
    (stringifyItems items).length ≤ n →
      parseItems n (stringifyItems items ++ r) = some (items, r)
  | [], 0, _, hn => by simp [stringifyItems] at hn
  | [], n + 1, r, _ => by
      rw [stringifyItems, parseItems, List.singleton_append, skipSpace_cons (by decide)]
      simp
  | v :: items, 0, _, hn => by simp [stringifyItems] at hn
  | v :: items, n + 1, r, hn => by
      rw [stringifyItems, List.length_cons, List.length_append] at hn
      have hv := parseValue_stringify v n (stringifyItems items ++ r) (by omega)
        (delimited_stringifyItems items r)
      have hitems := parseItems_stringifyItems items n r (by omega)
      rw [stringifyItems, parseItems, List.cons_append, skipSpace_cons (by decide),
        List.append_assoc]
      simp +decide only [if_false, if_true, hv, hitems, Option.map_some]

/-- The members of an object are read back. -/
theorem parseMembers_stringifyMembers :
    ∀ (members : List (JsString × Json)) (n : ℕ) (r : JsString),
      (stringifyMembers members).length ≤ n →
        parseMembers n (stringifyMembers members ++ r) = some (members, r)
  | [], 0, _, hn => by simp [stringifyMembers] at hn
  | [], n + 1, r, _ => by
      rw [stringifyMembers, parseMembers, List.singleton_append, skipSpace_cons (by decide)]
      simp
  | (k, v) :: members, 0, _, hn => by simp [stringifyMembers] at hn
  | (k, v) :: members, n + 1, r, hn => by
      rw [stringifyMembers, List.length_cons, List.length_append, List.length_cons,
        List.length_append] at hn
      have hlen : 1 ≤ (quote k).length := by rw [quote, List.length_cons]; omega
      obtain ⟨m, rfl⟩ : ∃ m, n = m + 1 := ⟨n - 1, by omega⟩
      have hv := parseValue_stringify v m (stringifyMembers members ++ r) (by omega)
        (delimited_stringifyMembers members r)
      have hmember := parseMember_append (k := k) hv
      have hmembers := parseMembers_stringifyMembers members (m + 1) r (by omega)
      rw [stringifyMembers, parseMembers, List.cons_append, skipSpace_cons (by decide)]
      simp +decide only [if_false, if_true, List.append_assoc, List.cons_append,
        hmember, hmembers, Option.map_some]

end

/-- **`JSON.parse` undoes `JSON.stringify`.** -/
theorem parse_stringify (v : Json) : parse (stringify v) = some v := by
  have h := parseValue_stringify v ((stringify v).length + 1) [] (by omega) delimited_nil
  rw [List.append_nil] at h
  simp [parse, h, skipSpace]

/-- Different values have different texts. -/
theorem stringify_injective : Function.Injective stringify := by
  intro v w h
  have hv := parse_stringify v
  rw [h, parse_stringify] at hv
  exact (Option.some.inj hv).symm

end Json
