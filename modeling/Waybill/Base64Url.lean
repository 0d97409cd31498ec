/-
# Unpadded base64url

A general library; nothing in it names this repository.

`encode` is `buffer.toString("base64url")`, and `decode` is `Buffer.from(text, "base64url")` for
texts of letters.  Bits that do not fill a byte are dropped, so a text is canonical only if it
is what its bytes are encoded as.
-/
import Waybill.CodeUnits

namespace Base64Url

/-- The letter of a number below 64. -/
def letter (n : ℕ) : UInt16 :=
  if n < 26 then UInt16.ofNat (65 + n)
  else if n < 52 then UInt16.ofNat (71 + n)
  else if n < 62 then UInt16.ofNat (n - 4)
  else if n = 62 then 45
  else 95

/-- `[A-Za-z0-9_-]`. -/
def isLetter (u : UInt16) : Bool :=
  (65 ≤ u.toNat && u.toNat ≤ 90) || (97 ≤ u.toNat && u.toNat ≤ 122) ||
    (48 ≤ u.toNat && u.toNat ≤ 57) || u == 45 || u == 95

/-- The number of a letter. -/
def sextet (u : UInt16) : ℕ :=
  if u.toNat = 45 then 62
  else if u.toNat ≤ 57 then u.toNat + 4
  else if u.toNat ≤ 90 then u.toNat - 65
  else if u.toNat = 95 then 63
  else u.toNat - 71

/-- Three bytes are four letters; what is left over takes a letter more than it has bytes. -/
def encode : List UInt8 → JsString
  | [] => []
  | [a] => [letter (a.toNat / 4), letter (a.toNat % 4 * 16)]
  | [a, b] =>
      [letter (a.toNat / 4), letter (a.toNat % 4 * 16 + b.toNat / 16), letter (b.toNat % 16 * 4)]
  | a :: b :: c :: rest =>
      letter (a.toNat / 4) :: letter (a.toNat % 4 * 16 + b.toNat / 16) ::
        letter (b.toNat % 16 * 4 + c.toNat / 64) :: letter (c.toNat % 64) :: encode rest

/-- Four letters are three bytes; a letter that is left over alone is dropped. -/
def decode : JsString → List UInt8
  | [] => []
  | [_] => []
  | [p, q] => [UInt8.ofNat (sextet p * 4 + sextet q / 16)]
  | [p, q, r] =>
      [UInt8.ofNat (sextet p * 4 + sextet q / 16),
        UInt8.ofNat (sextet q % 16 * 16 + sextet r / 4)]
  | p :: q :: r :: s :: rest =>
      UInt8.ofNat (sextet p * 4 + sextet q / 16) ::
        UInt8.ofNat (sextet q % 16 * 16 + sextet r / 4) ::
          UInt8.ofNat (sextet r % 4 * 64 + sextet s) :: decode rest

theorem sextet_letter : ∀ n < 64, sextet (letter n) = n := by decide

theorem isLetter_letter : ∀ n < 64, isLetter (letter n) = true := by decide

theorem ofNat_toNat_eq {a : UInt8} {n : ℕ} (h : n = a.toNat) : UInt8.ofNat n = a := by
  rw [h, UInt8.ofNat_toNat]

/-- **Decoding undoes encoding.** -/
theorem decode_encode (bytes : List UInt8) : decode (encode bytes) = bytes := by
  induction bytes using encode.induct with
  | case1 => rfl
  | case2 a =>
      have ha := a.toNat_lt
      rw [encode, decode, sextet_letter _ (by omega), sextet_letter _ (by omega)]
      simp only [List.cons.injEq, and_true]
      apply ofNat_toNat_eq
      omega
  | case3 a b =>
      have ha := a.toNat_lt
      have hb := b.toNat_lt
      rw [encode, decode, sextet_letter _ (by omega), sextet_letter _ (by omega),
        sextet_letter _ (by omega)]
      simp only [List.cons.injEq, and_true]
      constructor
      · apply ofNat_toNat_eq
        omega
      · apply ofNat_toNat_eq
        omega
  | case4 a b c rest ih =>
      have ha := a.toNat_lt
      have hb := b.toNat_lt
      have hc := c.toNat_lt
      rw [encode, decode, sextet_letter _ (by omega), sextet_letter _ (by omega),
        sextet_letter _ (by omega), sextet_letter _ (by omega), ih]
      simp only [List.cons.injEq, and_true]
      refine ⟨?_, ?_, ?_⟩
      · apply ofNat_toNat_eq
        omega
      · apply ofNat_toNat_eq
        omega
      · apply ofNat_toNat_eq
        omega

/-- What is encoded are letters. -/
theorem isLetter_encode (bytes : List UInt8) : ∀ u ∈ encode bytes, isLetter u = true := by
  induction bytes using encode.induct with
  | case1 => exact nofun
  | case2 a =>
      have ha := a.toNat_lt
      intro u hu
      simp only [encode, List.mem_cons, List.not_mem_nil, or_false] at hu
      rcases hu with rfl | rfl
      · exact isLetter_letter _ (by omega)
      · exact isLetter_letter _ (by omega)
  | case3 a b =>
      have ha := a.toNat_lt
      have hb := b.toNat_lt
      intro u hu
      simp only [encode, List.mem_cons, List.not_mem_nil, or_false] at hu
      rcases hu with rfl | rfl | rfl
      · exact isLetter_letter _ (by omega)
      · exact isLetter_letter _ (by omega)
      · exact isLetter_letter _ (by omega)
  | case4 a b c rest ih =>
      have ha := a.toNat_lt
      have hb := b.toNat_lt
      have hc := c.toNat_lt
      intro u hu
      simp only [encode, List.mem_cons] at hu
      rcases hu with rfl | rfl | rfl | rfl | hu
      · exact isLetter_letter _ (by omega)
      · exact isLetter_letter _ (by omega)
      · exact isLetter_letter _ (by omega)
      · exact isLetter_letter _ (by omega)
      · exact ih u hu

/-- How long the text is. -/
theorem length_encode (bytes : List UInt8) :
    (encode bytes).length = (4 * bytes.length + 2) / 3 := by
  induction bytes using encode.induct with
  | case1 => rfl
  | case2 a => simp [encode]
  | case3 a b => simp [encode]
  | case4 a b c rest ih =>
      simp only [encode, List.length_cons, ih]
      omega

end Base64Url
