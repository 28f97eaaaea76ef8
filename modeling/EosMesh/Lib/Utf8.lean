import EosMesh.Lib.Codec

/-!
# UTF-8, as the encodings of scalar values

A `Char` is a Unicode scalar value, and `String.utf8EncodeChar` its encoding; a well-formed text is
a run of them.

* `utf8Encode` is that run, and `Replaced` reads any bytes as one.  `utf8EncodeChar_cases` writes
  the encoding of one scalar out, in the four lengths it has.
* `exists_char` builds a scalar from a number in range, so that a decoder which checks the range of
  what it has put together has a scalar.
-/

set_option autoImplicit false

namespace EosMesh
namespace Lib

/-- The characters of a text, encoded one after the other. -/
def utf8Encode (chars : List Char) : Bytes := chars.flatMap String.utf8EncodeChar

@[simp] theorem utf8Encode_nil : utf8Encode [] = [] := rfl

@[simp] theorem utf8Encode_cons (c : Char) (chars : List Char) :
    utf8Encode (c :: chars) = String.utf8EncodeChar c ++ utf8Encode chars := rfl

/-- A text that some run of scalar values encodes to. -/
def WellFormedUtf8 (text : Bytes) : Prop := ∃ chars, text = utf8Encode chars

/-- The characters of a text that need not be well formed: U+FFFD stands for each byte that begins
no encoding. -/
inductive Replaced : Bytes → List Char → Prop
  | nil : Replaced [] []
  | char (c : Char) {text : Bytes} {chars : List Char} (h : Replaced text chars) :
    Replaced (String.utf8EncodeChar c ++ text) (c :: chars)
  | invalid {b : UInt8} {text : Bytes} {chars : List Char}
    (hb : ∀ c rest, b :: text ≠ String.utf8EncodeChar c ++ rest) (h : Replaced text chars) :
    Replaced (b :: text) (Char.ofNat 0xFFFD :: chars)

theorem Replaced.of_encode (chars : List Char) : Replaced (utf8Encode chars) chars := by
  induction chars with
  | nil => exact .nil
  | cons c chars ih => exact .char c ih

theorem utf8Encode_append (chars chars' : List Char) :
    utf8Encode (chars ++ chars') = utf8Encode chars ++ utf8Encode chars' :=
  List.flatMap_append

theorem WellFormedUtf8.append {text text' : Bytes} (h : WellFormedUtf8 text)
    (h' : WellFormedUtf8 text') : WellFormedUtf8 (text ++ text') := by
  obtain ⟨chars, rfl⟩ := h
  obtain ⟨chars', rfl⟩ := h'
  exact ⟨chars ++ chars', (utf8Encode_append chars chars').symm⟩

theorem wellFormedUtf8_char (c : Char) : WellFormedUtf8 (String.utf8EncodeChar c) :=
  ⟨[c], (List.append_nil _).symm⟩

/-! ## One scalar value -/

/-- Surrogates and what lies past the last plane are not scalar values. -/
theorem toNat_scalar (c : Char) : c.toNat ≤ 0x10FFFF ∧ ¬ (0xD800 ≤ c.toNat ∧ c.toNat ≤ 0xDFFF) := by
  have h : c.toNat < 0xD800 ∨ 0xDFFF < c.toNat ∧ c.toNat < 0x110000 := c.valid
  omega

theorem exists_char {v : Nat} (hmax : v ≤ 0x10FFFF) (hsurrogate : ¬ (0xD800 ≤ v ∧ v ≤ 0xDFFF)) :
    ∃ c : Char, c.toNat = v := by
  have hv : v.isValidChar := by
    rcases Nat.lt_or_ge v 0xD800 with h | h
    · exact .inl h
    · exact .inr (by omega)
  exact ⟨Char.ofNatAux v hv, Char.toNat_ofNatAux hv⟩

/-- The four lengths of an encoding. -/
theorem utf8EncodeChar_cases (c : Char) :
    (c.toNat < 0x80 ∧ String.utf8EncodeChar c = [UInt8.ofNat c.toNat]) ∨
    (0x80 ≤ c.toNat ∧ c.toNat < 0x800 ∧ String.utf8EncodeChar c =
      [UInt8.ofNat (c.toNat / 64 + 0xC0), UInt8.ofNat (c.toNat % 64 + 0x80)]) ∨
    (0x800 ≤ c.toNat ∧ c.toNat < 0x10000 ∧ String.utf8EncodeChar c =
      [UInt8.ofNat (c.toNat / 4096 + 0xE0), UInt8.ofNat (c.toNat / 64 % 64 + 0x80),
        UInt8.ofNat (c.toNat % 64 + 0x80)]) ∨
    (0x10000 ≤ c.toNat ∧ String.utf8EncodeChar c =
      [UInt8.ofNat (c.toNat / 262144 + 0xF0), UInt8.ofNat (c.toNat / 4096 % 64 + 0x80),
        UInt8.ofNat (c.toNat / 64 % 64 + 0x80), UInt8.ofNat (c.toNat % 64 + 0x80)]) := by
  have hmax := (toNat_scalar c).1
  unfold String.utf8EncodeChar
  change (c.toNat < 0x80 ∧ (if c.toNat ≤ 0x7F then _ else _) = _) ∨
    (_ ∧ _ ∧ (if c.toNat ≤ 0x7F then _ else _) = _) ∨
    (_ ∧ _ ∧ (if c.toNat ≤ 0x7F then _ else _) = _) ∨
    (_ ∧ (if c.toNat ≤ 0x7F then _ else _) = _)
  by_cases h1 : c.toNat ≤ 0x7F
  · exact .inl ⟨by omega, if_pos h1⟩
  · refine .inr ?_
    by_cases h2 : c.toNat ≤ 0x7FF
    · refine .inl ⟨by omega, by omega, ?_⟩
      have hlead : c.toNat / 64 % 0x20 = c.toNat / 64 := by omega
      rw [if_neg h1]
      change (if c.toNat ≤ 0x7FF then _ else _) = _
      rw [if_pos h2]
      change [UInt8.ofNat (c.toNat / 64 % 0x20 + 0xC0), _] = _
      rw [hlead]
      rfl
    · refine .inr ?_
      by_cases h3 : c.toNat ≤ 0xFFFF
      · refine .inl ⟨by omega, by omega, ?_⟩
        have hlead : c.toNat / 4096 % 0x10 = c.toNat / 4096 := by omega
        rw [if_neg h1]
        change (if c.toNat ≤ 0x7FF then _ else _) = _
        rw [if_neg h2]
        change (if c.toNat ≤ 0xFFFF then _ else _) = _
        rw [if_pos h3]
        change [UInt8.ofNat (c.toNat / 4096 % 0x10 + 0xE0), _, _] = _
        rw [hlead]
        rfl
      · refine .inr ⟨by omega, ?_⟩
        have hlead : c.toNat / 262144 % 0x08 = c.toNat / 262144 := by omega
        rw [if_neg h1]
        change (if c.toNat ≤ 0x7FF then _ else _) = _
        rw [if_neg h2]
        change (if c.toNat ≤ 0xFFFF then _ else _) = _
        rw [if_neg h3]
        change [UInt8.ofNat (c.toNat / 262144 % 0x08 + 0xF0), _, _, _] = _
        rw [hlead]
        rfl

end Lib
end EosMesh
