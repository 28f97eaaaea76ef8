import EosMesh.Common.JsonText
import EosMesh.Core.ConfigStrings

/-!
# Strings through the writer and the reader

`write_string` escapes and validates on its own, and `parse_string` of the configuration reader
undoes it on its own.

* `sanitize` is what becomes of a string: its bytes, with U+FFFD for each that begins no UTF-8
  sequence; `sanitize_eq` holds it to `Replaced`.
* `writePiece_stringPiece`: what one round writes is a character of the reader's grammar for what
  the round stands for.
* `string_round_trip`: the reader takes what was written and gives it back.
-/

set_option autoImplicit false

namespace EosMesh

open Lib

/-! ## What a string becomes -/

/-- What the front of a text becomes, and how many bytes of it that is. -/
def sanitizePiece (c : UInt8) (rest : Bytes) : Bytes × Nat :=
  match utf8Length (c :: rest) with
  | some length => ((c :: rest).take length, length)
  | none => (replacement, 1)

/-- A bad byte is replaced, and the text goes on behind it. -/
def sanitizeLoop : (rounds : Nat) → Bytes → Bytes
  | _, [] => []
  | 0, _ => []
  | rounds + 1, c :: rest =>
    (sanitizePiece c rest).1 ++ sanitizeLoop rounds ((c :: rest).drop (sanitizePiece c rest).2)

/-- A string with U+FFFD for each byte that begins no UTF-8 sequence. -/
def sanitize (text : Bytes) : Bytes := sanitizeLoop text.length text

theorem replacement_eq : replacement = String.utf8EncodeChar (Char.ofNat 0xFFFD) := by decide

theorem sanitizePiece_char (c : Char) (more : Bytes) {b : UInt8} {rest : Bytes}
    (h : b :: rest = String.utf8EncodeChar c ++ more) :
    sanitizePiece b rest = (String.utf8EncodeChar c, (String.utf8EncodeChar c).length) := by
  rw [sanitizePiece, h, utf8Length_encoding]
  dsimp only
  rw [List.take_left]

theorem sanitizePiece_invalid {b : UInt8} {rest : Bytes}
    (h : ∀ c more, b :: rest ≠ String.utf8EncodeChar c ++ more) :
    sanitizePiece b rest = (replacement, 1) := by
  cases hlength : utf8Length (b :: rest) with
  | none => rw [sanitizePiece, hlength]
  | some length =>
    obtain ⟨c, more, htext, -⟩ := encoding_of_utf8Length hlength
    exact absurd htext (h c more)

theorem sanitizeLoop_eq {text : Bytes} {chars : List Char} (h : Replaced text chars) {rounds : Nat}
    (hrounds : text.length ≤ rounds) : sanitizeLoop rounds text = utf8Encode chars := by
  induction h generalizing rounds with
  | nil => cases rounds <;> rfl
  | @char c text chars _ ih =>
    obtain ⟨b, more, hbytes, -⟩ := utf8EncodeChar_first c
    rw [hbytes, List.cons_append, List.length_cons, List.length_append] at hrounds
    obtain _ | rounds := rounds
    · omega
    have htext : String.utf8EncodeChar c ++ text = b :: (more ++ text) := by
      rw [hbytes, List.cons_append]
    have hpiece := sanitizePiece_char c text htext.symm
    have hdrop : (b :: (more ++ text)).drop (String.utf8EncodeChar c).length = text := by
      rw [← List.cons_append, ← hbytes, List.drop_left]
    rw [htext, sanitizeLoop, hpiece, hdrop, ih (by omega), utf8Encode_cons]
  | @invalid b text chars hb _ ih =>
    rw [List.length_cons] at hrounds
    obtain _ | rounds := rounds
    · omega
    rw [sanitizeLoop, sanitizePiece_invalid hb, List.drop_succ_cons, List.drop_zero,
      ih (by omega), utf8Encode_cons, replacement_eq]

theorem exists_replaced (text : Bytes) : ∃ chars, Replaced text chars := by
  induction hn : text.length using Nat.strong_induction_on generalizing text with
  | _ n ih =>
    rcases text with _ | ⟨b, rest⟩
    · exact ⟨[], .nil⟩
    by_cases h : ∃ c more, b :: rest = String.utf8EncodeChar c ++ more
    · obtain ⟨c, more, hc⟩ := h
      have hlength := congrArg List.length hc
      have hpos := c.utf8Size_pos
      rw [List.length_append, String.length_utf8EncodeChar] at hlength
      obtain ⟨chars, hchars⟩ := ih more.length (by omega) more rfl
      exact ⟨c :: chars, hc ▸ .char c hchars⟩
    · have hb : ∀ c more, b :: rest ≠ String.utf8EncodeChar c ++ more :=
        fun c more hc ↦ h ⟨c, more, hc⟩
      rw [List.length_cons] at hn
      obtain ⟨chars, hchars⟩ := ih rest.length (by omega) rest rfl
      exact ⟨_ :: chars, .invalid hb hchars⟩

theorem sanitize_eq {text : Bytes} {chars : List Char} (h : Replaced text chars) :
    sanitize text = utf8Encode chars :=
  sanitizeLoop_eq h (le_refl _)

theorem sanitize_encode (chars : List Char) : sanitize (utf8Encode chars) = utf8Encode chars :=
  sanitize_eq (.of_encode chars)

theorem wellFormedUtf8_sanitize (text : Bytes) : WellFormedUtf8 (sanitize text) := by
  obtain ⟨chars, hchars⟩ := exists_replaced text
  exact ⟨chars, sanitize_eq hchars⟩

/-! ## One round -/

theorem hexDigitValue_hexDigitOf (n : Nat) : hexDigitValue (hexDigitOf n) = some (n % 16) := by
  have hmask : n &&& 0xF = n % 16 := Nat.and_two_pow_sub_one_eq_mod n 4
  have hdigits : ∀ d < 16, hexDigitValue ((['0', '1', '2', '3', '4', '5', '6', '7', '8', '9', 'a',
      'b', 'c', 'd', 'e', 'f'].map Char.toUInt8).getD d 0) = some d := by decide
  rw [hexDigitOf, hmask]
  exact hdigits _ (Nat.mod_lt _ (by decide))

/-- The escape of a character of the first plane. -/
theorem appendUEscape_hex4 {n : Nat} (h : n < 0x10000) :
    ∃ digits, appendUEscape n = backslashByte :: 'u'.toUInt8 :: digits ∧ Hex4Text digits n := by
  refine ⟨_, rfl, _, _, _, _, n >>> 12 % 16, n >>> 8 % 16, n >>> 4 % 16, n % 16, rfl,
    hexDigitValue_hexDigitOf _, hexDigitValue_hexDigitOf _, hexDigitValue_hexDigitOf _,
    hexDigitValue_hexDigitOf _, ?_⟩
  simp only [Nat.shiftRight_eq_div_pow]
  omega

/-- A byte of ASCII is a character. -/
theorem sanitizePiece_ascii {c : UInt8} (h : c.toNat < 0x80) (rest : Bytes) :
    sanitizePiece c rest = ([c], 1) := by
  obtain ⟨d, -, hbytes⟩ := ascii_char h
  rw [sanitizePiece_char d rest (by rw [hbytes, List.singleton_append]), hbytes]
  rfl

theorem escapeLetter_cases {c letter : UInt8} (h : escapeLetter c = some letter) :
    c.toNat < 0x80 ∧ shortEscape letter = some c := by
  rw [escapeLetter] at h
  split_ifs at h <;> cases h <;> subst c <;> decide

/-- A character by itself that the writer does not escape. -/
theorem stringPiece_plain {c : Char} (hcontrol : 0x20 ≤ c.toNat) (hquote : c.toNat ≠ 0x22)
    (hbackslash : c.toNat ≠ 0x5C) : StringPiece (String.utf8EncodeChar c)
    (String.utf8EncodeChar c) :=
  .plain c hcontrol (char_ne_of_toNat hquote) (char_ne_of_toNat hbackslash)

/-- **What a round writes stands for what it read.** -/
theorem writePiece_stringPiece (c : UInt8) (rest : Bytes) :
    StringPiece (writePiece c rest).1 (sanitizePiece c rest).1 ∧
      (writePiece c rest).2 = (sanitizePiece c rest).2 := by
  rw [writePiece]
  cases hletter : escapeLetter c with
  | some letter =>
    obtain ⟨hascii, hshort⟩ := escapeLetter_cases hletter
    rw [sanitizePiece_ascii hascii]
    exact ⟨.short hshort, rfl⟩
  | none =>
    have hquote : c.toNat ≠ 0x22 := fun h ↦ by
      rw [show c = quoteByte from UInt8.toNat_inj.1 h] at hletter
      exact absurd hletter (by decide)
    have hbackslash : c.toNat ≠ 0x5C := fun h ↦ by
      rw [show c = backslashByte from UInt8.toNat_inj.1 h] at hletter
      exact absurd hletter (by decide)
    dsimp only
    split_ifs with hcontrol hascii
    · rw [UInt8.lt_iff_toNat_lt] at hcontrol
      have h20 : ((0x20 : UInt8)).toNat = 32 := rfl
      obtain ⟨d, hd, hbytes⟩ := ascii_char (b := c) (by omega)
      obtain ⟨digits, hescape, hdigits⟩ := appendUEscape_hex4 (n := c.toNat) (by omega)
      rw [sanitizePiece_ascii (by omega), hescape, ← hbytes]
      exact ⟨.unicode d (hd ▸ hdigits), rfl⟩
    · rw [UInt8.lt_iff_toNat_lt] at hcontrol hascii
      obtain ⟨d, hd, hbytes⟩ := ascii_char (b := c) hascii
      rw [sanitizePiece_ascii hascii, ← hbytes]
      exact ⟨stringPiece_plain (hd ▸ not_lt.1 hcontrol) (hd ▸ hquote) (hd ▸ hbackslash), rfl⟩
    · rw [UInt8.lt_iff_toNat_lt] at hascii
      have h80 : ((0x80 : UInt8)).toNat = 128 := rfl
      rw [JsonWriter.decodeUtf8_eq, sanitizePiece]
      cases hlength : utf8Length (c :: rest) with
      | none =>
        refine ⟨?_, rfl⟩
        dsimp only
        rw [replacement_eq]
        exact stringPiece_plain (by decide) (by decide) (by decide)
      | some length =>
        refine ⟨?_, rfl⟩
        obtain ⟨d, more, htext, rfl⟩ := encoding_of_utf8Length hlength
        obtain ⟨b, bytes, hbytes, hfirst⟩ := utf8EncodeChar_first d
        have hb : c = b := by
          rw [hbytes] at htext
          exact (List.cons.inj htext).1
        have hhigh : 0x80 ≤ d.toNat := by
          rcases hfirst with ⟨-, heq, -⟩ | ⟨hhigh, -⟩
          · rw [← hb] at heq
            omega
          · exact hhigh
        dsimp only
        rw [htext, List.take_left]
        exact stringPiece_plain (by omega) (by omega) (by omega)

/-! ## A string -/

theorem stringContent_text {rounds : Nat} {value : Bytes} (hrounds : value.length ≤ rounds) :
    StringText (stringContent rounds value) (sanitizeLoop rounds value) := by
  induction rounds generalizing value with
  | zero =>
    obtain rfl := List.length_eq_zero_iff.1 (Nat.le_zero.1 hrounds)
    exact .nil
  | succ rounds ih =>
    rcases value with _ | ⟨c, rest⟩
    · exact .nil
    · obtain ⟨hpiece, hused⟩ := writePiece_stringPiece c rest
      have hpos := JsonWriter.writePiece_used_pos c rest
      rw [List.length_cons] at hrounds
      rw [stringContent, sanitizeLoop, ← hused]
      refine .cons hpiece (ih ?_)
      change ((c :: rest).drop (writePiece c rest).2).length ≤ rounds
      rw [List.length_drop, List.length_cons]
      omega

/-- A string as it is written, in the reader's grammar. -/
theorem quotedText_quoted {value : Bytes} (hlimit : (quoted value).length ≤ maxToken + 2) :
    QuotedText (quoted value) (sanitize value) := by
  refine ⟨stringContent value.length value, rfl, stringContent_text (le_refl _), ?_⟩
  rw [quoted, List.length_cons, List.length_append, List.length_singleton] at hlimit
  omega

theorem writeString_out (value : Bytes) :
    (({} : JsonWriter).writeString value).out = quoted value := by
  have hemits := JsonWriter.writeString_emits (w := {}) rfl value
  rw [hemits.fits (.inl rfl)]
  rfl

/-- What the writer made of a string is read back, whatever follows it: as the string, with U+FFFD
for each byte that begins no UTF-8 sequence, and so as itself if it is UTF-8. -/
theorem string_round_trip (value : Bytes)
    (hlimit : (({} : JsonWriter).writeString value).out.length ≤ maxToken + 2) :
    (∃ chars, Replaced value chars ∧ ∀ rest,
      parseString ((({} : JsonWriter).writeString value).out ++ rest) =
        .ok (utf8Encode chars, rest)) ∧
    (WellFormedUtf8 value → ∀ rest,
      parseString ((({} : JsonWriter).writeString value).out ++ rest) = .ok (value, rest)) := by
  rw [writeString_out] at hlimit ⊢
  have hread := parseString_complete (quotedText_quoted hlimit)
  constructor
  · obtain ⟨chars, hchars⟩ := exists_replaced value
    exact ⟨chars, hchars, fun rest ↦ sanitize_eq hchars ▸ hread rest⟩
  · rintro ⟨chars, rfl⟩ rest
    rw [hread, sanitize_encode]

/-- A quote, a control character, a stray continuation byte and a character past the first plane. -/
theorem string_round_trip_sample :
    ∃ chars, Replaced [0x22, 0x01, 0x80, 0xF0, 0x9F, 0x98, 0x80] chars ∧ ∀ rest,
      parseString ((({} : JsonWriter).writeString [0x22, 0x01, 0x80, 0xF0, 0x9F, 0x98, 0x80]).out ++
        rest) = .ok (utf8Encode chars, rest) :=
  (string_round_trip [0x22, 0x01, 0x80, 0xF0, 0x9F, 0x98, 0x80] (by decide +kernel)).1

end EosMesh
