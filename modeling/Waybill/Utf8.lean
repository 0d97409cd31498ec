/-
# UTF-8

A general library; nothing in it names this repository.

`encode` gives the bytes of a string of UTF-16 code units, and `decode` reads bytes as the
Encoding Standard does: a byte sequence that is not well-formed is replaced, up to where it
goes wrong, by `U+FFFD`.
-/
import Waybill.CodeUnits

namespace Utf8

/-- The bytes of a code point. -/
def ofPoint (p : ℕ) : List UInt8 :=
  if p < 0x80 then [UInt8.ofNat p]
  else if p < 0x800 then [UInt8.ofNat (0xC0 + p / 64), UInt8.ofNat (0x80 + p % 64)]
  else if p < 0x10000 then
    [UInt8.ofNat (0xE0 + p / 4096), UInt8.ofNat (0x80 + p / 64 % 64), UInt8.ofNat (0x80 + p % 64)]
  else
    [UInt8.ofNat (0xF0 + p / 262144), UInt8.ofNat (0x80 + p / 4096 % 64),
      UInt8.ofNat (0x80 + p / 64 % 64), UInt8.ofNat (0x80 + p % 64)]

/-- The bytes of a unit by itself; a lone surrogate is replaced. -/
def ofUnit (u : UInt16) : List UInt8 :=
  if JsString.isHigh u || JsString.isLow u then ofPoint 0xFFFD else ofPoint u.toNat

/-- `Buffer.from(string)`. -/
def encode : JsString → List UInt8
  | [] => []
  | [u] => ofUnit u
  | u :: v :: s =>
      if JsString.isHigh u && JsString.isLow v then
        ofPoint (0x10000 + (u.toNat - 0xD800) * 1024 + (v.toNat - 0xDC00)) ++ encode s
      else ofUnit u ++ encode (v :: s)

/-- A decoder within a sequence: the bytes it still needs, the bounds of the next one, and the
bits it has. -/
structure Decoder where
  needed : ℕ
  lower : ℕ
  upper : ℕ
  bits : ℕ

/-- Between two sequences. -/
def idle : Decoder := ⟨0, 0x80, 0xBF, 0⟩

/-- The units of a code point. -/
def unitsOf (p : ℕ) : JsString :=
  if p < 0x10000 then [UInt16.ofNat p]
  else [UInt16.ofNat (0xD800 + (p - 0x10000) / 1024), UInt16.ofNat (0xDC00 + (p - 0x10000) % 1024)]

/-- The first byte of a sequence. -/
def start (b : ℕ) : JsString × Decoder :=
  if b < 0x80 then ([UInt16.ofNat b], idle)
  else if 0xC2 ≤ b ∧ b ≤ 0xDF then ([], ⟨1, 0x80, 0xBF, b - 0xC0⟩)
  else if 0xE0 ≤ b ∧ b ≤ 0xEF then
    ([], ⟨2, if b = 0xE0 then 0xA0 else 0x80, if b = 0xED then 0x9F else 0xBF, b - 0xE0⟩)
  else if 0xF0 ≤ b ∧ b ≤ 0xF4 then
    ([], ⟨3, if b = 0xF0 then 0x90 else 0x80, if b = 0xF4 then 0x8F else 0xBF, b - 0xF0⟩)
  else ([0xFFFD], idle)

/-- A byte. -/
def feed (d : Decoder) (b : ℕ) : JsString × Decoder :=
  if d.needed = 0 then start b
  else if d.lower ≤ b ∧ b ≤ d.upper then
    if d.needed = 1 then (unitsOf (d.bits * 64 + b % 64), idle)
    else ([], ⟨d.needed - 1, 0x80, 0xBF, d.bits * 64 + b % 64⟩)
  else (0xFFFD :: (start b).1, (start b).2)

def decodeFrom : Decoder → List UInt8 → JsString
  | d, [] => if d.needed = 0 then [] else [0xFFFD]
  | d, b :: rest => (feed d b.toNat).1 ++ decodeFrom (feed d b.toNat).2 rest

/-- `buffer.toString("utf8")`. -/
def decode (bytes : List UInt8) : JsString := decodeFrom idle bytes

/-! ## ASCII -/

theorem ofUnit_ascii {u : UInt16} (h : u.toNat < 0x80) : ofUnit u = [UInt8.ofNat u.toNat] := by
  unfold ofUnit
  rw [JsString.isHigh_of_lt h, JsString.isLow_of_lt h, Bool.false_or, if_neg Bool.false_ne_true,
    ofPoint, if_pos h]

/-- ASCII text is a byte a unit. -/
theorem encode_ascii {s : JsString} (h : ∀ u ∈ s, u.toNat < 0x80) :
    encode s = s.map (fun u => UInt8.ofNat u.toNat) := by
  induction s with
  | nil => rfl
  | cons u s ih =>
      have hu := h u List.mem_cons_self
      have hs := ih fun v hv => h v (List.mem_cons_of_mem _ hv)
      cases s with
      | nil =>
          rw [encode, ofUnit_ascii hu]
          rfl
      | cons v s =>
          rw [encode, JsString.isHigh_of_lt hu, Bool.false_and, if_neg Bool.false_ne_true, hs,
            ofUnit_ascii hu]
          rfl

theorem decodeFrom_ascii {s : JsString} (h : ∀ u ∈ s, u.toNat < 0x80) :
    decodeFrom idle (s.map (fun u => UInt8.ofNat u.toNat)) = s := by
  induction s with
  | nil => rfl
  | cons u s ih =>
      have hu := h u List.mem_cons_self
      have hbyte : (UInt8.ofNat u.toNat).toNat = u.toNat := by
        rw [UInt8.toNat_ofNat', Nat.mod_eq_of_lt (by omega)]
      have hfeed : feed idle (UInt8.ofNat u.toNat).toNat = ([u], idle) := by
        rw [hbyte, feed, if_pos (show idle.needed = 0 from rfl), start, if_pos hu,
          UInt16.ofNat_toNat]
      rw [List.map_cons, decodeFrom, hfeed, ih fun v hv => h v (List.mem_cons_of_mem _ hv)]
      rfl

/-- **ASCII text is read back.** -/
theorem decode_encode {s : JsString} (h : ∀ u ∈ s, u.toNat < 0x80) : decode (encode s) = s := by
  rw [encode_ascii h, decode, decodeFrom_ascii h]

theorem length_encode {s : JsString} (h : ∀ u ∈ s, u.toNat < 0x80) :
    (encode s).length = s.length := by
  rw [encode_ascii h, List.length_map]

end Utf8
