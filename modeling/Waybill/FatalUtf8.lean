/-
# Decoding UTF-8 without replacement

A general library; nothing in it names this repository.

`decodeFatal` is `new TextDecoder("utf-8", { fatal: true }).decode(bytes)`: the decoder of
`Utf8.lean`, which fails where that one replaces, after an optional byte-order mark.

* `decodeStrict_encode`: the bytes of a text without lone surrogates are decoded to it.
* `decodeStrict_eq_some_iff`: nothing else is accepted.
* `wellFormed_stringify`: JSON texts have no lone surrogates.
-/
import Waybill.JsonSize
import Waybill.Utf8

namespace Utf8

/-- The first byte of a sequence, if there is one that starts with it. -/
def start? (b : ℕ) : Option (JsString × Decoder) :=
  if b < 0x80 then some ([UInt16.ofNat b], idle)
  else if 0xC2 ≤ b ∧ b ≤ 0xDF then some ([], ⟨1, 0x80, 0xBF, b - 0xC0⟩)
  else if 0xE0 ≤ b ∧ b ≤ 0xEF then
    some ([], ⟨2, if b = 0xE0 then 0xA0 else 0x80, if b = 0xED then 0x9F else 0xBF, b - 0xE0⟩)
  else if 0xF0 ≤ b ∧ b ≤ 0xF4 then
    some ([], ⟨3, if b = 0xF0 then 0x90 else 0x80, if b = 0xF4 then 0x8F else 0xBF, b - 0xF0⟩)
  else none

/-- A byte, if it may come next. -/
def feed? (d : Decoder) (b : ℕ) : Option (JsString × Decoder) :=
  if d.needed = 0 then start? b
  else if d.lower ≤ b ∧ b ≤ d.upper then
    if d.needed = 1 then some (unitsOf (d.bits * 64 + b % 64), idle)
    else some ([], ⟨d.needed - 1, 0x80, 0xBF, d.bits * 64 + b % 64⟩)
  else none

/-- The decoder goes on from a state. -/
def decodeStrictFrom : Decoder → List UInt8 → Option JsString
  | d, [] => if d.needed = 0 then some [] else none
  | d, b :: rest =>
      (feed? d b.toNat).bind (fun p => (decodeStrictFrom p.2 rest).map (fun s => p.1 ++ s))

/-- The text of the bytes, if they are well-formed UTF-8. -/
def decodeStrict (bytes : List UInt8) : Option JsString := decodeStrictFrom idle bytes

/-- The bytes after an optional byte-order mark. -/
def dropBom : List UInt8 → List UInt8
  | 0xEF :: 0xBB :: 0xBF :: rest => rest
  | bytes => bytes

/-- `new TextDecoder("utf-8", { fatal: true }).decode(bytes)`. -/
def decodeFatal (bytes : List UInt8) : Option JsString := decodeStrict (dropBom bytes)

/-! ## Sequences of a code point -/

/-- A code point that is no surrogate. -/
def IsScalar (p : ℕ) : Prop := p < 0xD800 ∨ 0xE000 ≤ p ∧ p < 0x110000

theorem decodeStrict_nil : decodeStrict [] = some [] := rfl

/-- The first byte of a sequence. -/
theorem decodeStrict_cons (b : UInt8) (rest : List UInt8) :
    decodeStrict (b :: rest) =
      (start? b.toNat).bind (fun p => (decodeStrictFrom p.2 rest).map (fun s => p.1 ++ s)) := rfl

theorem decodeStrict_cons_some {b : UInt8} {d : Decoder} (h : start? b.toNat = some ([], d))
    (rest : List UInt8) : decodeStrict (b :: rest) = decodeStrictFrom d rest := by
  rw [decodeStrict_cons, h, Option.bind_some]
  exact Option.map_id'

/-- The last byte of a sequence. -/
theorem decodeStrictFrom_last (lower upper bits : ℕ) (c : UInt8) (rest : List UInt8) :
    decodeStrictFrom ⟨1, lower, upper, bits⟩ (c :: rest) =
      if lower ≤ c.toNat ∧ c.toNat ≤ upper then
        (decodeStrict rest).map (fun s => unitsOf (bits * 64 + c.toNat % 64) ++ s)
      else none := by
  rw [decodeStrictFrom, feed?, if_neg Nat.one_ne_zero]
  split_ifs with h hone
  · rfl
  · exact absurd rfl hone
  · rfl

/-- A byte in the middle of a sequence. -/
theorem decodeStrictFrom_more (n lower upper bits : ℕ) (c : UInt8) (rest : List UInt8) :
    decodeStrictFrom ⟨n + 2, lower, upper, bits⟩ (c :: rest) =
      if lower ≤ c.toNat ∧ c.toNat ≤ upper then
        decodeStrictFrom ⟨n + 1, 0x80, 0xBF, bits * 64 + c.toNat % 64⟩ rest
      else none := by
  rw [decodeStrictFrom, feed?, if_neg (Nat.succ_ne_zero _)]
  split_ifs with h hone
  · exact absurd hone (by simp)
  · simp
  · rfl

/-- A sequence that stops too early. -/
theorem decodeStrictFrom_nil (n lower upper bits : ℕ) :
    decodeStrictFrom ⟨n + 1, lower, upper, bits⟩ [] = none := by
  rw [decodeStrictFrom, if_neg (Nat.succ_ne_zero _)]

theorem toNat_byte {n : ℕ} (h : n < 256) : (UInt8.ofNat n).toNat = n := by
  rw [UInt8.toNat_ofNat', Nat.mod_eq_of_lt h]

/-- **The bytes of a code point** are decoded to its units. -/
theorem decodeStrict_ofPoint {p : ℕ} (hp : IsScalar p) (rest : List UInt8) :
    decodeStrict (ofPoint p ++ rest) = (decodeStrict rest).map (fun s => unitsOf p ++ s) := by
  have hmax : p < 0x110000 := by
    rcases hp with h | h
    · omega
    · exact h.2
  unfold ofPoint
  split_ifs with h1 h2 h3
  · rw [List.singleton_append, decodeStrict_cons, toNat_byte (by omega), start?, if_pos h1,
      unitsOf, if_pos (by omega)]
    rfl
  · have hstart : start? (UInt8.ofNat (0xC0 + p / 64)).toNat =
        some ([], ⟨1, 0x80, 0xBF, 0xC0 + p / 64 - 0xC0⟩) := by
      rw [toNat_byte (by omega), start?, if_neg (by omega), if_pos (by omega)]
    have hbits : (0xC0 + p / 64 - 0xC0) * 64 + (0x80 + p % 64) % 64 = p := by omega
    rw [List.cons_append, List.singleton_append, decodeStrict_cons_some hstart,
      decodeStrictFrom_last, toNat_byte (by omega), if_pos (by omega), hbits]
  · have hstart : start? (UInt8.ofNat (0xE0 + p / 4096)).toNat =
        some ([], ⟨2, if 0xE0 + p / 4096 = 0xE0 then 0xA0 else 0x80,
          if 0xE0 + p / 4096 = 0xED then 0x9F else 0xBF, 0xE0 + p / 4096 - 0xE0⟩) := by
      rw [toNat_byte (by omega), start?, if_neg (by omega), if_neg (by omega), if_pos (by omega)]
    have hbits : ((0xE0 + p / 4096 - 0xE0) * 64 + (0x80 + p / 64 % 64) % 64) * 64 +
        (0x80 + p % 64) % 64 = p := by omega
    -- no overlong form, and no surrogate
    have hnext : (if 0xE0 + p / 4096 = 0xE0 then 0xA0 else 0x80) ≤ 0x80 + p / 64 % 64 ∧
        0x80 + p / 64 % 64 ≤ if 0xE0 + p / 4096 = 0xED then 0x9F else 0xBF := by
      unfold IsScalar at hp
      constructor
      · split_ifs
        · omega
        · omega
      · split_ifs
        · omega
        · omega
    rw [List.cons_append, List.cons_append, List.singleton_append, decodeStrict_cons_some hstart,
      decodeStrictFrom_more, toNat_byte (by omega), if_pos hnext, decodeStrictFrom_last,
      toNat_byte (by omega), if_pos (by omega), hbits]
  · have hstart : start? (UInt8.ofNat (0xF0 + p / 262144)).toNat =
        some ([], ⟨3, if 0xF0 + p / 262144 = 0xF0 then 0x90 else 0x80,
          if 0xF0 + p / 262144 = 0xF4 then 0x8F else 0xBF, 0xF0 + p / 262144 - 0xF0⟩) := by
      rw [toNat_byte (by omega), start?, if_neg (by omega), if_neg (by omega), if_neg (by omega),
        if_pos (by omega)]
    have hbits : (((0xF0 + p / 262144 - 0xF0) * 64 + (0x80 + p / 4096 % 64) % 64) * 64 +
        (0x80 + p / 64 % 64) % 64) * 64 + (0x80 + p % 64) % 64 = p := by omega
    -- no overlong form, and nothing beyond the last code point
    have hnext : (if 0xF0 + p / 262144 = 0xF0 then 0x90 else 0x80) ≤ 0x80 + p / 4096 % 64 ∧
        0x80 + p / 4096 % 64 ≤ if 0xF0 + p / 262144 = 0xF4 then 0x8F else 0xBF := by
      constructor
      · split_ifs
        · omega
        · omega
      · split_ifs
        · omega
        · omega
    rw [List.cons_append, List.cons_append, List.cons_append, List.singleton_append,
      decodeStrict_cons_some hstart, decodeStrictFrom_more, toNat_byte (by omega), if_pos hnext,
      decodeStrictFrom_more, toNat_byte (by omega), if_pos (by omega), decodeStrictFrom_last,
      toNat_byte (by omega), if_pos (by omega), hbits]

/-! ## Texts without lone surrogates -/

/-- A unit that is no surrogate, as a code point. -/
theorem isScalar_of_unit {u : UInt16} (hhigh : JsString.isHigh u = false)
    (hlow : JsString.isLow u = false) : IsScalar u.toNat := by
  simp only [JsString.isHigh, JsString.isLow, Bool.and_eq_false_iff, decide_eq_false_iff_not]
    at hhigh hlow
  have hlt := u.toNat_lt
  unfold IsScalar
  omega

theorem unitsOf_unit (u : UInt16) : unitsOf u.toNat = [u] := by
  rw [unitsOf, if_pos u.toNat_lt, UInt16.ofNat_toNat]

/-- The code point of a pair of surrogates. -/
theorem unitsOf_pair {u v : UInt16} (hu : JsString.isHigh u = true) (hv : JsString.isLow v = true) :
    IsScalar (0x10000 + (u.toNat - 0xD800) * 1024 + (v.toNat - 0xDC00)) ∧
      unitsOf (0x10000 + (u.toNat - 0xD800) * 1024 + (v.toNat - 0xDC00)) = [u, v] := by
  simp only [JsString.isHigh, JsString.isLow, Bool.and_eq_true, decide_eq_true_eq] at hu hv
  refine ⟨by unfold IsScalar; omega, ?_⟩
  have hfirst : 0xD800 + (0x10000 + (u.toNat - 0xD800) * 1024 + (v.toNat - 0xDC00) - 0x10000) /
      1024 = u.toNat := by omega
  have hsecond : 0xDC00 + (0x10000 + (u.toNat - 0xD800) * 1024 + (v.toNat - 0xDC00) - 0x10000) %
      1024 = v.toNat := by omega
  rw [unitsOf, if_neg (by omega), hfirst, hsecond, UInt16.ofNat_toNat, UInt16.ofNat_toNat]

/-- **Texts without lone surrogates are decoded again.** -/
theorem decodeStrict_encode {s : JsString} (h : Json.WellFormed s) :
    decodeStrict (encode s) = some s := by
  induction s using encode.induct with
  | case1 => rfl
  | case2 u =>
      have hunit : ofUnit u = ofPoint u.toNat ++ [] := by
        rw [ofUnit, h.1, h.2, List.append_nil]
        rfl
      rw [encode, hunit, decodeStrict_ofPoint (isScalar_of_unit h.1 h.2), decodeStrict_nil,
        unitsOf_unit]
      rfl
  | case3 u v s hpair ih =>
      obtain ⟨hu, hv⟩ := Bool.and_eq_true_iff.mp hpair
      obtain ⟨hscalar, hunits⟩ := unitsOf_pair hu hv
      rw [Json.WellFormed, if_pos hu] at h
      rw [encode, if_pos hpair, decodeStrict_ofPoint hscalar, ih h.2, hunits]
      rfl
  | case4 u v s hpair ih =>
      have hu : JsString.isHigh u = false := by
        by_contra hhigh
        rw [Bool.not_eq_false] at hhigh
        rw [Json.WellFormed, if_pos hhigh] at h
        exact hpair (Bool.and_eq_true_iff.mpr ⟨hhigh, h.1⟩)
      obtain ⟨hlow, hrest, -⟩ := Json.wellFormed_cons h hu
      have hunit : ofUnit u = ofPoint u.toNat := by
        rw [ofUnit, hu, hlow]
        rfl
      rw [encode, if_neg hpair, hunit, decodeStrict_ofPoint (isScalar_of_unit hu hlow), ih hrest,
        unitsOf_unit]
      rfl

/-! ## Nothing else is accepted -/

/-- A continuation byte, by its low bits. -/
theorem byte_of_bits {c : UInt8} {n : ℕ} (h : n = c.toNat) : UInt8.ofNat n = c := by
  rw [h, UInt8.ofNat_toNat]

/-- The last byte of what was accepted. -/
theorem last_of_decode {lower upper bits : ℕ} {bytes : List UInt8} {s : JsString}
    (h : decodeStrictFrom ⟨1, lower, upper, bits⟩ bytes = some s) :
    ∃ c rest t, bytes = c :: rest ∧ (lower ≤ c.toNat ∧ c.toNat ≤ upper) ∧
      decodeStrict rest = some t ∧ s = unitsOf (bits * 64 + c.toNat % 64) ++ t := by
  cases bytes with
  | nil =>
      rw [decodeStrictFrom_nil] at h
      cases h
  | cons c rest =>
      rw [decodeStrictFrom_last] at h
      obtain ⟨hc, h⟩ := Option.ite_none_right_eq_some.mp h
      obtain ⟨t, ht, rfl⟩ := Option.map_eq_some_iff.mp h
      exact ⟨c, rest, t, rfl, hc, ht, rfl⟩

/-- A byte in the middle of what was accepted. -/
theorem more_of_decode {n lower upper bits : ℕ} {bytes : List UInt8} {s : JsString}
    (h : decodeStrictFrom ⟨n + 2, lower, upper, bits⟩ bytes = some s) :
    ∃ c rest, bytes = c :: rest ∧ (lower ≤ c.toNat ∧ c.toNat ≤ upper) ∧
      decodeStrictFrom ⟨n + 1, 0x80, 0xBF, bits * 64 + c.toNat % 64⟩ rest = some s := by
  cases bytes with
  | nil =>
      rw [decodeStrictFrom_nil] at h
      cases h
  | cons c rest =>
      rw [decodeStrictFrom_more] at h
      obtain ⟨hc, h⟩ := Option.ite_none_right_eq_some.mp h
      exact ⟨c, rest, rfl, hc, h⟩

/-- A first byte that was accepted, by the length of its sequence. -/
theorem start?_cases {b : ℕ} {out : JsString} {d : Decoder} (h : start? b = some (out, d)) :
    (b < 0x80 ∧ out = [UInt16.ofNat b] ∧ d = idle) ∨
      ((0xC2 ≤ b ∧ b ≤ 0xDF) ∧ out = [] ∧ d = ⟨1, 0x80, 0xBF, b - 0xC0⟩) ∨
      ((0xE0 ≤ b ∧ b ≤ 0xEF) ∧ out = [] ∧ d = ⟨2, if b = 0xE0 then 0xA0 else 0x80,
        if b = 0xED then 0x9F else 0xBF, b - 0xE0⟩) ∨
      ((0xF0 ≤ b ∧ b ≤ 0xF4) ∧ out = [] ∧ d = ⟨3, if b = 0xF0 then 0x90 else 0x80,
        if b = 0xF4 then 0x8F else 0xBF, b - 0xF0⟩) := by
  unfold start? at h
  by_cases h1 : b < 0x80
  · rw [if_pos h1] at h
    obtain ⟨rfl, rfl⟩ := Prod.mk.inj (Option.some.inj h)
    exact .inl ⟨h1, rfl, rfl⟩
  by_cases h2 : 0xC2 ≤ b ∧ b ≤ 0xDF
  · rw [if_neg h1, if_pos h2] at h
    obtain ⟨rfl, rfl⟩ := Prod.mk.inj (Option.some.inj h)
    exact .inr (.inl ⟨h2, rfl, rfl⟩)
  by_cases h3 : 0xE0 ≤ b ∧ b ≤ 0xEF
  · rw [if_neg h1, if_neg h2, if_pos h3] at h
    obtain ⟨rfl, rfl⟩ := Prod.mk.inj (Option.some.inj h)
    exact .inr (.inr (.inl ⟨h3, rfl, rfl⟩))
  by_cases h4 : 0xF0 ≤ b ∧ b ≤ 0xF4
  · rw [if_neg h1, if_neg h2, if_neg h3, if_pos h4] at h
    obtain ⟨rfl, rfl⟩ := Prod.mk.inj (Option.some.inj h)
    exact .inr (.inr (.inr ⟨h4, rfl, rfl⟩))
  · rw [if_neg h1, if_neg h2, if_neg h3, if_neg h4] at h
    cases h

/-- The second byte, where the first one narrows its range. -/
theorem bounds_of_narrowed {b c low high l h : ℕ} (hl : 0x80 ≤ l) (hh : h ≤ 0xBF)
    (hc : (if b = low then l else 0x80) ≤ c ∧ c ≤ if b = high then h else 0xBF) :
    (0x80 ≤ c ∧ c ≤ 0xBF) ∧ (b = low → l ≤ c) ∧ (b = high → c ≤ h) := by
  split_ifs at hc
  · omega
  · omega
  · omega
  · omega

/-- **What is accepted starts with a code point.** -/
theorem point_of_decode {b : UInt8} {rest : List UInt8} {s : JsString}
    (h : decodeStrict (b :: rest) = some s) :
    ∃ p rest' t, IsScalar p ∧ b :: rest = ofPoint p ++ rest' ∧ decodeStrict rest' = some t ∧
      s = unitsOf p ++ t := by
  rw [decodeStrict_cons] at h
  obtain ⟨⟨out, d⟩, hstart, h⟩ := Option.bind_eq_some_iff.mp h
  obtain ⟨s', hs', rfl⟩ := Option.map_eq_some_iff.mp h
  have hb := b.toNat_lt
  -- the sequence has one to four bytes
  rcases start?_cases hstart with ⟨h1, rfl, rfl⟩ | ⟨h2, rfl, rfl⟩ | ⟨h3, rfl, rfl⟩ | ⟨h4, rfl, rfl⟩
  · refine ⟨b.toNat, rest, s', .inl (by omega), ?_, hs', ?_⟩
    · rw [ofPoint, if_pos h1, UInt8.ofNat_toNat]
      rfl
    · rw [unitsOf, if_pos (by omega)]
  · obtain ⟨c, rest', t, rfl, hc, ht, rfl⟩ := last_of_decode hs'
    refine ⟨_, rest', t, .inl ?_, ?_, ht, rfl⟩
    · omega
    · rw [ofPoint, if_neg (by omega), if_pos (by omega), byte_of_bits (c := b) (by omega),
        byte_of_bits (c := c) (by omega)]
      rfl
  · obtain ⟨c, rest₁, rfl, hc, hs'⟩ := more_of_decode hs'
    obtain ⟨e, rest', t, rfl, he, ht, rfl⟩ := last_of_decode hs'
    -- the range of the second byte excludes surrogates and longer forms
    obtain ⟨hrange, hlow, hhigh⟩ := bounds_of_narrowed (by omega) (by omega) hc
    refine ⟨_, rest', t, ?_, ?_, ht, rfl⟩
    · unfold IsScalar
      omega
    · rw [ofPoint, if_neg (by omega), if_neg (by omega), if_pos (by omega),
        byte_of_bits (c := b) (by omega), byte_of_bits (c := c) (by omega),
        byte_of_bits (c := e) (by omega)]
      rfl
  · obtain ⟨c, rest₁, rfl, hc, hs'⟩ := more_of_decode hs'
    obtain ⟨e, rest₂, rfl, he, hs'⟩ := more_of_decode hs'
    obtain ⟨f, rest', t, rfl, hf, ht, rfl⟩ := last_of_decode hs'
    obtain ⟨hrange, hlow, hhigh⟩ := bounds_of_narrowed (by omega) (by omega) hc
    refine ⟨_, rest', t, ?_, ?_, ht, rfl⟩
    · unfold IsScalar
      omega
    · rw [ofPoint, if_neg (by omega), if_neg (by omega), if_neg (by omega),
        byte_of_bits (c := b) (by omega), byte_of_bits (c := c) (by omega),
        byte_of_bits (c := e) (by omega), byte_of_bits (c := f) (by omega)]
      rfl

/-- The units of a code point, in front of a text. -/
theorem encode_unitsOf {p : ℕ} (hp : IsScalar p) {s : JsString} (hs : Json.WellFormed s) :
    Json.WellFormed (unitsOf p ++ s) ∧ encode (unitsOf p ++ s) = ofPoint p ++ encode s := by
  have hmax : p < 0x110000 := by
    rcases hp with h | h
    · omega
    · exact h.2
  unfold unitsOf
  -- one unit, or a pair
  split_ifs with h
  · have hnat : (UInt16.ofNat p).toNat = p := by
      rw [UInt16.toNat_ofNat', Nat.mod_eq_of_lt h]
    have hhigh : JsString.isHigh (UInt16.ofNat p) = false := by
      simp only [JsString.isHigh, Bool.and_eq_false_iff, decide_eq_false_iff_not, hnat]
      unfold IsScalar at hp
      omega
    have hlow : JsString.isLow (UInt16.ofNat p) = false := by
      simp only [JsString.isLow, Bool.and_eq_false_iff, decide_eq_false_iff_not, hnat]
      unfold IsScalar at hp
      omega
    have hunit : ofUnit (UInt16.ofNat p) = ofPoint p := by
      rw [ofUnit, hhigh, hlow, hnat]
      rfl
    cases s with
    | nil =>
        refine ⟨⟨hhigh, hlow⟩, ?_⟩
        show ofUnit (UInt16.ofNat p) = ofPoint p ++ []
        rw [hunit, List.append_nil]
    | cons v s =>
        rw [List.singleton_append]
        refine ⟨?_, ?_⟩
        · rw [Json.WellFormed, hhigh]
          exact ⟨hlow, hs⟩
        · rw [encode, hhigh, Bool.false_and, if_neg Bool.false_ne_true, hunit]
  · have hfirst : (UInt16.ofNat (0xD800 + (p - 0x10000) / 1024)).toNat =
        0xD800 + (p - 0x10000) / 1024 := by
      rw [UInt16.toNat_ofNat', Nat.mod_eq_of_lt (by omega)]
    have hsecond : (UInt16.ofNat (0xDC00 + (p - 0x10000) % 1024)).toNat =
        0xDC00 + (p - 0x10000) % 1024 := by
      rw [UInt16.toNat_ofNat', Nat.mod_eq_of_lt (by omega)]
    have hhigh : JsString.isHigh (UInt16.ofNat (0xD800 + (p - 0x10000) / 1024)) = true := by
      simp only [JsString.isHigh, Bool.and_eq_true, decide_eq_true_eq, hfirst]
      omega
    have hlow : JsString.isLow (UInt16.ofNat (0xDC00 + (p - 0x10000) % 1024)) = true := by
      simp only [JsString.isLow, Bool.and_eq_true, decide_eq_true_eq, hsecond]
      omega
    have hpoint : 0x10000 + (0xD800 + (p - 0x10000) / 1024 - 0xD800) * 1024 +
        (0xDC00 + (p - 0x10000) % 1024 - 0xDC00) = p := by omega
    rw [List.cons_append, List.singleton_append]
    refine ⟨?_, ?_⟩
    · rw [Json.WellFormed, if_pos hhigh]
      exact ⟨hlow, hs⟩
    · rw [encode, hhigh, hlow, Bool.and_self, if_pos rfl, hfirst, hsecond, hpoint]

/-- **What is accepted** is what a text without lone surrogates is encoded as. -/
theorem encode_of_decodeStrict (bytes : List UInt8) (s : JsString)
    (h : decodeStrict bytes = some s) : Json.WellFormed s ∧ encode s = bytes := by
  induction hn : bytes.length using Nat.strong_induction_on generalizing bytes s with
  | _ n ih =>
      cases bytes with
      | nil =>
          obtain rfl := Option.some.inj h
          exact ⟨trivial, rfl⟩
      | cons b rest =>
          obtain ⟨p, rest', t, hp, hbytes, ht, rfl⟩ := point_of_decode h
          have hlength : 0 < (ofPoint p).length := by
            unfold ofPoint
            split_ifs
            · exact Nat.one_pos
            · exact Nat.two_pos
            · exact Nat.succ_pos 2
            · exact Nat.succ_pos 3
          rw [hbytes, List.length_append] at hn
          obtain ⟨hformed, hencode⟩ := ih rest'.length (by omega) rest' t ht rfl
          obtain ⟨hs, hall⟩ := encode_unitsOf hp hformed
          exact ⟨hs, by rw [hall, hencode, hbytes]⟩

/-- **Well-formed UTF-8** is the encoding of a text without lone surrogates. -/
theorem decodeStrict_eq_some_iff {bytes : List UInt8} {s : JsString} :
    decodeStrict bytes = some s ↔ Json.WellFormed s ∧ encode s = bytes := by
  constructor
  · exact encode_of_decodeStrict bytes s
  · rintro ⟨hs, rfl⟩
    exact decodeStrict_encode hs

end Utf8

/-! ## JSON texts -/

namespace Json

/-- Texts that follow each other. -/
theorem wellFormed_concat {a s : JsString} (ha : WellFormed a) (hs : WellFormed s) :
    WellFormed (a ++ s) := by
  induction a using WellFormed.induct with
  | case1 => exact hs
  | case2 u =>
      cases s with
      | nil => exact ha
      | cons v s =>
          rw [List.singleton_append, WellFormed, ha.1]
          exact ⟨ha.2, hs⟩
  | case3 u v a hu ih =>
      rw [WellFormed, if_pos hu] at ha
      rw [List.cons_append, List.cons_append, WellFormed, if_pos hu]
      exact ⟨ha.1, ih ha.2⟩
  | case4 u v a hu ih =>
      rw [WellFormed, if_neg hu] at ha
      rw [List.cons_append, List.cons_append, WellFormed, if_neg hu, ← List.cons_append]
      exact ⟨ha.1, ih ha.2⟩

theorem wellFormed_of_ascii {s : JsString} (h : ∀ u ∈ s, u.toNat < 0x80) : WellFormed s := by
  induction s with
  | nil => trivial
  | cons u s ih =>
      have hu := h u List.mem_cons_self
      have hs := ih fun v hv => h v (List.mem_cons_of_mem _ hv)
      have hone : WellFormed [u] := ⟨JsString.isHigh_of_lt hu, JsString.isLow_of_lt hu⟩
      exact wellFormed_concat hone hs

/-- An ASCII unit in front of a text. -/
theorem wellFormed_cons_ascii {u : UInt16} {s : JsString} (hu : u.toNat < 0x80)
    (hs : WellFormed s) : WellFormed (u :: s) :=
  wellFormed_concat (a := [u]) ⟨JsString.isHigh_of_lt hu, JsString.isLow_of_lt hu⟩ hs

theorem hexDigit_ascii (n : ℕ) (h : n < 16) : (hexDigit n).toNat < 0x80 := by
  unfold hexDigit
  split_ifs
  · rw [UInt16.toNat_ofNat', Nat.mod_eq_of_lt (by omega)]
    omega
  · rw [UInt16.toNat_ofNat', Nat.mod_eq_of_lt (by omega)]
    omega

theorem wellFormed_unicodeEscape (u : UInt16) : WellFormed (unicodeEscape u) := by
  have hu := u.toNat_lt
  apply wellFormed_of_ascii
  intro v hv
  simp only [unicodeEscape, List.mem_cons, List.not_mem_nil, or_false] at hv
  rcases hv with rfl | rfl | rfl | rfl | rfl | rfl
  · decide
  · decide
  · exact hexDigit_ascii _ (by omega)
  · exact hexDigit_ascii _ (by omega)
  · exact hexDigit_ascii _ (by omega)
  · exact hexDigit_ascii _ (by omega)

/-- A unit that is no surrogate is quoted without one. -/
theorem wellFormed_quoteUnit {u : UInt16} (hhigh : JsString.isHigh u = false)
    (hlow : JsString.isLow u = false) : WellFormed (quoteUnit u) := by
  have htwo : ∀ v : UInt16, v.toNat < 0x80 → WellFormed [92, v] := fun v hv =>
    wellFormed_cons_ascii (by decide) ⟨JsString.isHigh_of_lt hv, JsString.isLow_of_lt hv⟩
  unfold quoteUnit
  split_ifs
  · exact htwo _ (by decide)
  · exact htwo _ (by decide)
  · exact htwo _ (by decide)
  · exact htwo _ (by decide)
  · exact htwo _ (by decide)
  · exact htwo _ (by decide)
  · exact htwo _ (by decide)
  · exact wellFormed_unicodeEscape u
  · exact ⟨hhigh, hlow⟩

/-- **Lone surrogates are escaped.** -/
theorem wellFormed_quoteUnits (s : JsString) : WellFormed (quoteUnits s) := by
  induction s using quoteUnits.induct with
  | case1 => trivial
  | case2 u h =>
      rw [quoteUnits, if_pos h]
      exact wellFormed_unicodeEscape u
  | case3 u h =>
      rw [quoteUnits, if_neg h]
      rw [Bool.not_eq_true, Bool.or_eq_false_iff] at h
      exact wellFormed_quoteUnit h.1 h.2
  | case4 u v s hu hv ih =>
      rw [quoteUnits, if_pos hu, if_pos hv, WellFormed, if_pos hu]
      exact ⟨hv, ih⟩
  | case5 u v s hu hv ih =>
      rw [quoteUnits, if_pos hu, if_neg hv]
      exact wellFormed_concat (wellFormed_unicodeEscape u) ih
  | case6 u v s hu hlow ih =>
      rw [quoteUnits, if_neg hu, if_pos hlow]
      exact wellFormed_concat (wellFormed_unicodeEscape u) ih
  | case7 u v s hu hlow ih =>
      rw [quoteUnits, if_neg hu, if_neg hlow]
      rw [Bool.not_eq_true] at hu hlow
      exact wellFormed_concat (wellFormed_quoteUnit hu hlow) ih

/-- A quoted text is well formed. -/
theorem wellFormed_quote (s : JsString) : WellFormed (quote s) :=
  wellFormed_cons_ascii (by decide) (wellFormed_concat (wellFormed_quoteUnits s)
    (wellFormed_of_ascii (JsString.lt_of_isAscii rfl)))

mutual

/-- **JSON texts have no lone surrogates.** -/
theorem wellFormed_stringify : ∀ v : Json, WellFormed v.stringify
  | null => wellFormed_of_ascii (JsString.lt_of_isAscii rfl)
  | bool true => wellFormed_of_ascii (JsString.lt_of_isAscii rfl)
  | bool false => wellFormed_of_ascii (JsString.lt_of_isAscii rfl)
  | num n => wellFormed_of_ascii fun u hu => lt_of_isNumberUnit (n.all_isNumberUnit u hu)
  | str s => wellFormed_quote s
  | arr [] => wellFormed_of_ascii (JsString.lt_of_isAscii rfl)
  | arr (v :: items) => by
      rw [stringify]
      exact wellFormed_cons_ascii (by decide)
        (wellFormed_concat (wellFormed_stringify v) (wellFormed_stringifyItems items))
  | obj [] => wellFormed_of_ascii (JsString.lt_of_isAscii rfl)
  | obj ((k, v) :: members) => by
      rw [stringify]
      exact wellFormed_cons_ascii (by decide) (wellFormed_concat (wellFormed_quote k)
        (wellFormed_cons_ascii (by decide)
          (wellFormed_concat (wellFormed_stringify v) (wellFormed_stringifyMembers members))))

theorem wellFormed_stringifyItems : ∀ items : List Json, WellFormed (stringifyItems items)
  | [] => wellFormed_of_ascii (JsString.lt_of_isAscii rfl)
  | v :: items => by
      rw [stringifyItems]
      exact wellFormed_cons_ascii (by decide)
        (wellFormed_concat (wellFormed_stringify v) (wellFormed_stringifyItems items))

theorem wellFormed_stringifyMembers : ∀ members : List (JsString × Json),
    WellFormed (stringifyMembers members)
  | [] => wellFormed_of_ascii (JsString.lt_of_isAscii rfl)
  | (k, v) :: members => by
      rw [stringifyMembers]
      exact wellFormed_cons_ascii (by decide) (wellFormed_concat (wellFormed_quote k)
        (wellFormed_cons_ascii (by decide)
          (wellFormed_concat (wellFormed_stringify v) (wellFormed_stringifyMembers members))))

end

end Json

namespace Utf8

/-- An ASCII unit in front of a text is a byte in front of its bytes. -/
theorem encode_cons_ascii {u : UInt16} (s : JsString) (h : u.toNat < 0x80) :
    encode (u :: s) = UInt8.ofNat u.toNat :: encode s := by
  cases s with
  | nil => exact ofUnit_ascii h
  | cons v s =>
      rw [encode, JsString.isHigh_of_lt h, Bool.false_and, if_neg Bool.false_ne_true,
        ofUnit_ascii h]
      rfl

theorem dropBom_of_ne {b : UInt8} (rest : List UInt8) (h : b ≠ 0xEF) :
    dropBom (b :: rest) = b :: rest := by
  unfold dropBom
  split
  · rename_i heq
    exact absurd (List.cons.inj heq).1 h
  · rfl

/-- **JSON texts are decoded again**: they have no byte-order mark, and no lone surrogates. -/
theorem decodeFatal_stringify (v : Json) : decodeFatal (encode v.stringify) = some v.stringify := by
  obtain ⟨u, s, hs, hu⟩ := Json.stringify_cons v
  have hne : UInt8.ofNat u.toNat ≠ 0xEF := by
    intro heq
    have hnat : (UInt8.ofNat u.toNat).toNat = 0xEF := by
      rw [heq]
      rfl
    rw [toNat_byte (by omega)] at hnat
    omega
  have hdrop : dropBom (encode v.stringify) = encode v.stringify := by
    rw [hs, encode_cons_ascii s hu]
    exact dropBom_of_ne _ hne
  rw [decodeFatal, hdrop, decodeStrict_encode (Json.wellFormed_stringify v)]

end Utf8
