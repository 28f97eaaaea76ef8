import EosMesh.Core.ConfigGrammar

/-!
# Strings in the configuration file

`parse_string` takes exactly the quoted strings of the grammar.  The grammar (`Core.ConfigGrammar`)
says what a string denotes piece by piece: a character that stands for itself, an escape of two
characters, or one by number, of which a pair of surrogates is one character.  The parser goes byte
by byte, and keeps what it has decoded in one buffer.

* `appendUtf8_toNat`: a scalar value is appended as its UTF-8.  The parser has the four cases of the
  encoding written out, in shifts and masks, and Lean's `String.utf8EncodeChar` is what they are
  compared to.
* `readHex4_reads`, `parseUnicode_sound`, `parseUnicode_unicode` and `parseUnicode_surrogates`: the
  escapes by number, with their surrogates.  A high one wants a low one behind it, and a low one
  alone is refused.
* `parsePiece_sound` and `parsePiece_complete`: one round of the loop takes one character.  That the
  character of the grammar is found whole relies on a first byte telling how long it is, and on no
  later byte looking like a quote or a backslash.
* `parseString_sound` and `parseString_complete`: the loop, with its cap on the token.  The cap is
  checked on the decoded text and on the text read alike, so the induction carries both lengths.
-/

set_option autoImplicit false

namespace EosMesh

open Lib

/-! ## Numbers in bits -/

/-- Bits above and bits below do not meet. -/
theorem high_or_low {k n x : Nat} (h : x < 2 ^ n) : (k * 2 ^ n) ||| x = x + k * 2 ^ n := by
  rw [← Nat.shiftLeft_eq, ← Nat.shiftLeft_add_eq_or_of_lt h, Nat.add_comm]

theorem continuation_bits (v : Nat) : 0x80 ||| (v &&& 0x3F) = v % 64 + 0x80 := by
  have hmod : v &&& 0x3F = v % 64 := Nat.and_two_pow_sub_one_eq_mod v 6
  rw [hmod]
  exact high_or_low (k := 2) (n := 6) (Nat.mod_lt _ (by decide))

theorem appendUtf8_toNat (c : Char) : appendUtf8 c.toNat = String.utf8EncodeChar c := by
  have hmax := (toNat_scalar c).1
  rw [appendUtf8]
  simp only [continuation_bits, Nat.shiftRight_eq_div_pow]
  rcases utf8EncodeChar_cases c with ⟨hv, hbytes⟩ | ⟨hv, hv', hbytes⟩ | ⟨hv, hv', hbytes⟩ |
    ⟨hv, hbytes⟩
  · rw [if_pos hv, hbytes]
  · have hlead : 0xC0 ||| (c.toNat / 2 ^ 6) = c.toNat / 64 + 0xC0 :=
      high_or_low (k := 6) (n := 5) (by omega)
    rw [if_neg (by omega), if_pos hv', hbytes, hlead]
  · have hlead : 0xE0 ||| (c.toNat / 2 ^ 12) = c.toNat / 4096 + 0xE0 :=
      high_or_low (k := 14) (n := 4) (by omega)
    rw [if_neg (by omega), if_neg (by omega), if_pos hv', hbytes, hlead]
  · have hlead : 0xF0 ||| (c.toNat / 2 ^ 18) = c.toNat / 262144 + 0xF0 :=
      high_or_low (k := 30) (n := 3) (by omega)
    rw [if_neg (by omega), if_neg (by omega), if_neg (by omega), hbytes, hlead]

/-! ## Hexadecimal escapes -/

theorem hexDigitValue_lt {c : UInt8} {value : Nat} (h : hexDigitValue c = some value) :
    value < 16 := by
  rw [hexDigitValue] at h
  split_ifs at h with hdigit hlower hupper
  · cases h
    simp only [isDigit, Bool.and_eq_true, decide_eq_true_eq, UInt8.le_iff_toNat_le] at hdigit
    have hsub := UInt8.toNat_sub_of_le c '0'.toUInt8 (UInt8.le_iff_toNat_le.2 hdigit.1)
    have h0 : ('0'.toUInt8).toNat = 48 := rfl
    have h9 : ('9'.toUInt8).toNat = 57 := rfl
    omega
  · cases h
    simp only [Bool.and_eq_true, decide_eq_true_eq, UInt8.le_iff_toNat_le] at hlower
    have hsub := UInt8.toNat_sub_of_le c 'a'.toUInt8 (UInt8.le_iff_toNat_le.2 hlower.1)
    have ha : ('a'.toUInt8).toNat = 97 := rfl
    have hf : ('f'.toUInt8).toNat = 102 := rfl
    omega
  · cases h
    simp only [Bool.and_eq_true, decide_eq_true_eq, UInt8.le_iff_toNat_le] at hupper
    have hsub := UInt8.toNat_sub_of_le c 'A'.toUInt8 (UInt8.le_iff_toNat_le.2 hupper.1)
    have ha : ('A'.toUInt8).toNat = 65 := rfl
    have hf : ('F'.toUInt8).toNat = 70 := rfl
    omega

theorem readHexDigits_cons {value digit : Nat} {c : UInt8} {rest : Bytes}
    (h : hexDigitValue c = some digit) :
    readHexDigits value (c :: rest) = readHexDigits (value * 16 + digit) rest := by
  have hbits : (value <<< 4) ||| digit = value * 16 + digit := by
    rw [← Nat.shiftLeft_add_eq_or_of_lt (hexDigitValue_lt h), Nat.shiftLeft_eq]
  rw [readHexDigits, h, ← hbits]

theorem readHexDigits_cons_eq_some {value result : Nat} {c : UInt8} {rest : Bytes}
    (h : readHexDigits value (c :: rest) = some result) :
    ∃ digit, hexDigitValue c = some digit ∧
      readHexDigits (value * 16 + digit) rest = some result := by
  cases hdigit : hexDigitValue c with
  | none => rw [readHexDigits, hdigit] at h; cases h
  | some digit => exact ⟨digit, rfl, readHexDigits_cons hdigit ▸ h⟩

theorem exists_four {text : Bytes} (h : ¬ text.length < 4) :
    ∃ a b c d rest, text = a :: b :: c :: d :: rest := by
  rcases text with _ | ⟨a, _ | ⟨b, _ | ⟨c, _ | ⟨d, rest⟩⟩⟩⟩
  · exact absurd (by decide) h
  · exact absurd (Nat.succ_lt_succ (by decide)) h
  · exact absurd (Nat.succ_lt_succ (Nat.succ_lt_succ (by decide))) h
  · exact absurd (Nat.succ_lt_succ (Nat.succ_lt_succ (Nat.succ_lt_succ (by decide)))) h
  · exact ⟨a, b, c, d, rest, rfl⟩

/-- Four hexadecimal digits are read, whatever follows. -/
theorem readHex4_reads : Reads readHex4 Hex4Text fun _ ↦ True where
  sound := by
    intro input value rest h
    rw [readHex4] at h
    split at h
    · cases h
    · rename_i hlength
      obtain ⟨a, b, c, d, more, rfl⟩ := exists_four hlength
      have htake : (a :: b :: c :: d :: more).take 4 = [a, b, c, d] := rfl
      rw [htake] at h
      cases hread : readHexDigits 0 [a, b, c, d] with
      | none =>
        rw [hread] at h
        cases h
      | some result =>
        rw [hread] at h
        cases h
        obtain ⟨wa, ha, hread⟩ := readHexDigits_cons_eq_some hread
        obtain ⟨wb, hb, hread⟩ := readHexDigits_cons_eq_some hread
        obtain ⟨wc, hc, hread⟩ := readHexDigits_cons_eq_some hread
        obtain ⟨wd, hd, hread⟩ := readHexDigits_cons_eq_some hread
        rw [readHexDigits, Option.some_inj] at hread
        exact ⟨[a, b, c, d], rfl, a, b, c, d, wa, wb, wc, wd, rfl, ha, hb, hc, hd, by omega⟩
  complete := by
    rintro _ value rest ⟨a, b, c, d, wa, wb, wc, wd, rfl, ha, hb, hc, hd, rfl⟩ -
    have hread : readHexDigits 0 [a, b, c, d] = some (wa * 4096 + wb * 256 + wc * 16 + wd) := by
      rw [readHexDigits_cons ha, readHexDigits_cons hb, readHexDigits_cons hc,
        readHexDigits_cons hd, readHexDigits, Option.some_inj]
      omega
    have hlength : ¬ ([a, b, c, d] ++ rest).length < 4 := by simp
    have htake : ([a, b, c, d] ++ rest).take 4 = [a, b, c, d] := rfl
    rw [readHex4, if_neg hlength, htake, hread]
    rfl

theorem Hex4Text.length {text : Bytes} {value : Nat} (h : Hex4Text text value) :
    text.length = 4 := by
  obtain ⟨a, b, c, d, wa, wb, wc, wd, rfl, -⟩ := h
  rfl

theorem Hex4Text.lt {text : Bytes} {value : Nat} (h : Hex4Text text value) : value < 0x10000 := by
  obtain ⟨a, b, c, d, wa, wb, wc, wd, rfl, ha, hb, hc, hd, rfl⟩ := h
  have := hexDigitValue_lt ha
  have := hexDigitValue_lt hb
  have := hexDigitValue_lt hc
  have := hexDigitValue_lt hd
  omega

/-! ## Escapes -/

/-- What `\\u` and the rest of an escape by number are read as. -/
theorem parseUnicode_sound {text value rest : Bytes} (h : parseUnicode text = .ok (value, rest)) :
    ∃ used, text = used ++ rest ∧
      StringPiece (backslashByte :: 'u'.toUInt8 :: used) value := by
  obtain ⟨⟨codepoint, left⟩, hread, hrun⟩ := bind_eq_ok h
  obtain ⟨digits, rfl, hdigits⟩ := readHex4_reads.sound hread
  dsimp only at hrun
  split_ifs at hrun with hhigh hlow
  · rw [parseLowSurrogate.eq_def] at hrun
    split at hrun
    · rename_i b u more
      split_ifs at hrun with hescape
      obtain ⟨⟨low, left⟩, hread', hpair⟩ := bind_eq_ok hrun
      obtain ⟨digits', rfl, hdigits'⟩ := readHex4_reads.sound hread'
      dsimp only at hpair
      split_ifs at hpair with hrange
      obtain ⟨hlow, hlow'⟩ := not_or.1 hrange
      obtain ⟨c, hc⟩ := exists_char
        (v := 0x10000 + (codepoint - 0xD800) * 0x400 + (low - 0xDC00)) (by omega) (by omega)
      rw [Nat.shiftLeft_eq, show 2 ^ 10 = 0x400 from rfl, ← hc, appendUtf8_toNat] at hpair
      cases hpair
      refine ⟨digits ++ backslashByte :: 'u'.toUInt8 :: digits', ?_, ?_⟩
      · rw [hescape.1, hescape.2]
        simp only [List.append_assoc, List.cons_append]
      · exact .surrogates c hdigits hdigits' hhigh ⟨by omega, by omega⟩ hc
    · cases hrun
  · have hmax := hdigits.lt
    obtain ⟨c, rfl⟩ := exists_char (v := codepoint) (by omega) (by omega)
    rw [appendUtf8_toNat] at hrun
    cases hrun
    exact ⟨digits, rfl, .unicode c hdigits⟩

theorem parseUnicode_unicode {digits : Bytes} {c : Char} (h : Hex4Text digits c.toNat)
    (rest : Bytes) : parseUnicode (digits ++ rest) = .ok (String.utf8EncodeChar c, rest) := by
  have hscalar := (toNat_scalar c).2
  have hread : readHex4 (digits ++ rest) = .ok (c.toNat, rest) := readHex4_reads.complete h trivial
  rw [parseUnicode, hread]
  change (if _ then _ else if _ then _ else Except.ok (appendUtf8 c.toNat, rest)) = _
  rw [if_neg (by omega), if_neg (by omega), appendUtf8_toNat]

theorem parseUnicode_surrogates {digits digits' : Bytes} {high low : Nat} {c : Char}
    (h : Hex4Text digits high) (h' : Hex4Text digits' low) (hhigh : 0xD800 ≤ high ∧ high ≤ 0xDBFF)
    (hlow : 0xDC00 ≤ low ∧ low ≤ 0xDFFF)
    (hc : c.toNat = 0x10000 + (high - 0xD800) * 0x400 + (low - 0xDC00)) (rest : Bytes) :
    parseUnicode (digits ++ backslashByte :: 'u'.toUInt8 :: (digits' ++ rest)) =
      .ok (String.utf8EncodeChar c, rest) := by
  have hread : readHex4 (digits ++ backslashByte :: 'u'.toUInt8 :: (digits' ++ rest)) =
      .ok (high, backslashByte :: 'u'.toUInt8 :: (digits' ++ rest)) :=
    readHex4_reads.complete h trivial
  have hread' : readHex4 (digits' ++ rest) = .ok (low, rest) := readHex4_reads.complete h' trivial
  rw [parseUnicode, hread]
  change (if high ≥ 0xD800 ∧ high ≤ 0xDBFF then _ else _) = _
  rw [if_pos hhigh, parseLowSurrogate.eq_def]
  dsimp only
  rw [if_pos ⟨rfl, rfl⟩, hread']
  change (if low < 0xDC00 ∨ low > 0xDFFF then _ else
    Except.ok (appendUtf8 (0x10000 + ((high - 0xD800) <<< 10) + (low - 0xDC00)), rest)) = _
  rw [if_neg (by omega), Nat.shiftLeft_eq, show 2 ^ 10 = 0x400 from rfl, ← hc, appendUtf8_toNat]

theorem parseEscape_sound {text value rest : Bytes} (h : parseEscape text = .ok (value, rest)) :
    ∃ used, text = used ++ rest ∧ StringPiece (backslashByte :: used) value := by
  cases text with
  | nil => cases h
  | cons letter more =>
    rw [parseEscape] at h
    split at h
    · rename_i hu
      obtain ⟨used, rfl, hpiece⟩ := parseUnicode_sound h
      exact ⟨letter :: used, rfl, hu ▸ hpiece⟩
    · cases hshort : shortEscape letter with
      | none => rw [hshort] at h; cases h
      | some byte =>
        rw [hshort] at h
        cases h
        exact ⟨[letter], rfl, .short hshort⟩

/-! ## One character -/

/-- A byte below the continuation bytes is a character by itself. -/
theorem ascii_char {b : UInt8} (h : b.toNat < 0x80) :
    ∃ c : Char, c.toNat = b.toNat ∧ String.utf8EncodeChar c = [b] := by
  obtain ⟨c, hc⟩ := exists_char (v := b.toNat) (by omega) (by omega)
  refine ⟨c, hc, ?_⟩
  obtain ⟨-, hbytes⟩ | ⟨hlow, -⟩ | ⟨hlow, -⟩ | ⟨hlow, -⟩ := utf8EncodeChar_cases c
  · rw [hbytes, hc, UInt8.ofNat_toNat]
  all_goals omega

/-- The first byte of a character is the character itself, or stands above all of ASCII. -/
theorem utf8EncodeChar_first (c : Char) : ∃ b more, String.utf8EncodeChar c = b :: more ∧
    (c.toNat < 0x80 ∧ b.toNat = c.toNat ∧ more = [] ∨ 0x80 ≤ c.toNat ∧ 0x80 ≤ b.toNat) := by
  have hmax := (toNat_scalar c).1
  rcases utf8EncodeChar_cases c with ⟨hv, hbytes⟩ | ⟨hv, hv', hbytes⟩ | ⟨hv, hv', hbytes⟩ |
    ⟨hv, hbytes⟩
  · exact ⟨_, _, hbytes, .inl ⟨hv, toNat_byte (by omega), rfl⟩⟩
  · exact ⟨_, _, hbytes, .inr ⟨hv, by rw [toNat_byte (by omega)]; omega⟩⟩
  · exact ⟨_, _, hbytes, .inr ⟨by omega, by rw [toNat_byte (by omega)]; omega⟩⟩
  · exact ⟨_, _, hbytes, .inr ⟨by omega, by rw [toNat_byte (by omega)]; omega⟩⟩

theorem char_ne_of_toNat {c d : Char} (h : c.toNat ≠ d.toNat) : c ≠ d :=
  fun heq ↦ h (congrArg Char.toNat heq)

theorem parsePiece_sound {b : UInt8} {rest value left : Bytes} (hquote : b ≠ quoteByte)
    (h : parsePiece b rest = .ok (value, left)) :
    ∃ piece, b :: rest = piece ++ left ∧ StringPiece piece value := by
  have hne : ∀ {d : UInt8}, b ≠ d → b.toNat ≠ d.toNat := fun hne heq ↦ hne (UInt8.toNat_inj.1 heq)
  rw [parsePiece] at h
  split_ifs at h with hcontrol hbackslash hascii
  · rw [UInt8.lt_iff_toNat_lt] at hcontrol hascii
    obtain ⟨c, hc, hbytes⟩ := ascii_char (b := b) hascii
    cases h
    refine ⟨[b], rfl, ?_⟩
    rw [← hbytes]
    refine .plain c ?_ (char_ne_of_toNat ?_) (char_ne_of_toNat ?_)
    · rw [hc]
      exact Nat.not_lt.1 hcontrol
    · rw [hc]
      exact hne hquote
    · rw [hc]
      exact hne hbackslash
  · rw [UInt8.lt_iff_toNat_lt] at hcontrol hascii
    cases hlength : utf8Length (b :: rest) with
    | none => rw [hlength] at h; cases h
    | some length =>
      rw [hlength] at h
      cases h
      obtain ⟨c, more, htext, rfl⟩ := encoding_of_utf8Length hlength
      obtain ⟨b', more', hbytes, hfirst⟩ := utf8EncodeChar_first c
      have hb : b' = b := by
        rw [hbytes] at htext
        exact (List.cons.inj htext).1.symm
      have h80 : ((0x80 : UInt8)).toNat = 128 := rfl
      have hhigh : 0x80 ≤ c.toNat := by
        rcases hfirst with ⟨-, heq, -⟩ | ⟨hhigh, -⟩
        · rw [hb] at heq
          omega
        · exact hhigh
      refine ⟨String.utf8EncodeChar c, ?_, ?_⟩
      · rw [htext, List.drop_left]
      · rw [htext, List.take_left]
        refine .plain c (by omega) (char_ne_of_toNat ?_) (char_ne_of_toNat ?_)
        · have : '"'.toNat = 34 := rfl
          omega
        · have : '\\'.toNat = 92 := rfl
          omega
  · obtain ⟨used, rfl, hpiece⟩ := parseEscape_sound h
    exact ⟨b :: used, rfl, by rw [not_not.1 hbackslash]; exact hpiece⟩

/-- A character of the grammar does not begin with a quote, and is taken whatever follows. -/
theorem parsePiece_complete {piece value : Bytes} (h : StringPiece piece value) :
    ∃ b more, piece = b :: more ∧ b ≠ quoteByte ∧
      ∀ rest, parsePiece b (more ++ rest) = .ok (value, rest) := by
  cases h with
  | plain c hcontrol hquote hbackslash =>
    obtain ⟨b, more, hbytes, hfirst⟩ := utf8EncodeChar_first c
    have hne : ∀ {d : Char} {e : UInt8}, e.toNat = d.toNat → e.toNat < 0x80 → c ≠ d → b ≠ e := by
      rintro d e hde he hcd rfl
      rcases hfirst with ⟨-, heq, -⟩ | ⟨-, hhigh⟩
      · exact hcd (Char.toNat_inj.1 (heq.symm.trans hde))
      · omega
    refine ⟨b, more, hbytes, hne (d := '"') rfl (by decide) hquote, fun rest ↦ ?_⟩
    have hb : b ≠ backslashByte := hne (d := '\\') rfl (by decide) hbackslash
    have h20 : ¬ b < 0x20 := by
      rw [UInt8.lt_iff_toNat_lt]
      have : ((0x20 : UInt8)).toNat = 32 := rfl
      omega
    rw [parsePiece, if_neg h20, if_pos hb, hbytes]
    rcases hfirst with ⟨hlow, heq, rfl⟩ | ⟨hhigh, hhigh'⟩
    · rw [if_pos (by rw [UInt8.lt_iff_toNat_lt, heq]; exact hlow)]
      rfl
    · have hlength : utf8Length (b :: (more ++ rest)) = some (String.utf8EncodeChar c).length := by
        rw [← List.cons_append, ← hbytes]
        exact utf8Length_encoding c rest
      rw [if_neg (by rw [UInt8.lt_iff_toNat_lt]; exact Nat.not_lt.2 hhigh'), hlength]
      dsimp only
      rw [← List.cons_append, ← hbytes, List.take_left, List.drop_left]
  | @short letter byte h =>
    refine ⟨backslashByte, [letter], rfl, by decide, fun rest ↦ ?_⟩
    have hu : letter ≠ 'u'.toUInt8 := by
      rintro rfl
      revert h
      rw [show shortEscape 'u'.toUInt8 = none by decide]
      exact nofun
    change parseEscape (letter :: rest) = _
    rw [parseEscape, if_neg hu, h]
  | @unicode digits c h =>
    refine ⟨backslashByte, 'u'.toUInt8 :: digits, rfl, by decide, fun rest ↦ ?_⟩
    change parseEscape ('u'.toUInt8 :: (digits ++ rest)) = _
    rw [parseEscape, if_pos rfl, parseUnicode_unicode h]
  | @surrogates digits digits' high low c h h' hhigh hlow hc =>
    refine ⟨backslashByte, 'u'.toUInt8 :: digits ++ backslashByte :: 'u'.toUInt8 :: digits', rfl,
      by decide, fun rest ↦ ?_⟩
    have htext : 'u'.toUInt8 :: digits ++ backslashByte :: 'u'.toUInt8 :: digits' ++ rest =
        'u'.toUInt8 :: (digits ++ backslashByte :: 'u'.toUInt8 :: (digits' ++ rest)) := by
      simp only [List.cons_append, List.append_assoc]
    have hescape : ∀ text, parsePiece backslashByte text = parseEscape text := fun _ ↦ rfl
    rw [htext, hescape, parseEscape, if_pos rfl, parseUnicode_surrogates h h' hhigh hlow hc]

/-- Nothing is decoded to more bytes than it is written with. -/
theorem StringPiece.length_le {piece value : Bytes} (h : StringPiece piece value) :
    value.length ≤ piece.length := by
  cases h with
  | plain => exact le_refl _
  | short => exact Nat.le_succ 1
  | @unicode digits c h =>
    have := c.utf8Size_le_four
    rw [String.length_utf8EncodeChar, List.length_cons, List.length_cons, h.length]
    omega
  | @surrogates digits digits' high low c h h' _ _ _ =>
    have := c.utf8Size_le_four
    rw [String.length_utf8EncodeChar, List.length_append, List.length_cons, List.length_cons,
      h.length]
    omega

/-! ## The loop -/

theorem parseStringLoop_sound {rounds span : Nat} {out text value left : Bytes}
    (h : parseStringLoop rounds out span text = .ok (value, left)) :
    ∃ content decoded, text = content ++ quoteByte :: left ∧ value = out ++ decoded ∧
      StringText content decoded ∧ (content = [] ∨ span + content.length ≤ maxToken) := by
  induction rounds generalizing out span text with
  | zero => cases text <;> cases h
  | succ rounds ih =>
    cases text with
    | nil => cases h
    | cons b rest =>
      rw [parseStringLoop] at h
      split_ifs at h with hquote
      · cases h
        exact ⟨[], [], by rw [hquote]; rfl, (List.append_nil _).symm, .nil, .inl rfl⟩
      · obtain ⟨⟨decoded, more⟩, hread, hrun⟩ := bind_eq_ok h
        obtain ⟨piece, htext, hpiece⟩ := parsePiece_sound hquote hread
        dsimp only at hrun
        split_ifs at hrun with hlong
        obtain ⟨content, decoded', rfl, rfl, hcontent, hspan⟩ := ih hrun
        have hlength := congrArg List.length htext
        rw [List.length_cons, List.length_append] at hlength
        refine ⟨piece ++ content, decoded ++ decoded', ?_, List.append_assoc ..,
          .cons hpiece hcontent,
          .inr ?_⟩
        · rw [htext, List.append_assoc]
        · have hfits := (not_or.1 hlong).2
          rw [List.length_append]
          rcases hspan with rfl | hspan
          · simp only [List.length_nil, Nat.add_zero]
            omega
          · omega

theorem parseStringLoop_complete {content decoded : Bytes} (h : StringText content decoded)
    {rounds span : Nat} {out : Bytes} (left : Bytes) (hspan : span + content.length ≤ maxToken)
    (hout : out.length ≤ span) (hrounds : content.length < rounds) :
    parseStringLoop rounds out span (content ++ quoteByte :: left) =
    .ok (out ++ decoded, left) := by
  induction h generalizing rounds span out with
  | nil =>
    obtain _ | rounds := rounds
    · exact absurd hrounds (Nat.not_lt_zero _)
    · rw [List.nil_append, parseStringLoop, if_pos rfl, List.append_nil]
  | @cons piece content decoded decoded' hpiece _ ih =>
    obtain ⟨b, more, rfl, hquote, hread⟩ := parsePiece_complete hpiece
    obtain _ | rounds := rounds
    · exact absurd hrounds (Nat.not_lt_zero _)
    have htext : b :: more ++ content ++ quoteByte :: left =
        b :: (more ++ (content ++ quoteByte :: left)) := by
      simp only [List.cons_append, List.append_assoc]
    have hle := hpiece.length_le
    rw [List.length_append, List.length_cons] at hspan hrounds
    rw [List.length_cons] at hle
    have hconsumed : (more ++ (content ++ quoteByte :: left)).length + 1 -
        (content ++ quoteByte :: left).length = more.length + 1 := by
      rw [List.length_append]
      omega
    rw [htext, parseStringLoop, if_neg hquote, hread]
    change (if (out ++ decoded).length > maxToken ∨
      span + ((more ++ (content ++ quoteByte :: left)).length
      + 1 - (content ++ quoteByte :: left).length) > maxToken then _ else
        parseStringLoop rounds (out ++ decoded) _ _) = _
    rw [hconsumed, if_neg (by rw [List.length_append]; omega),
      ih (by omega) (by rw [List.length_append]; omega) (by omega), List.append_assoc]

theorem parseString_sound {text value rest : Bytes} (hquote : text.head? = some quoteByte)
    (h : parseString text = .ok (value, rest)) :
    ∃ used, text = used ++ rest ∧ QuotedText used value := by
  obtain ⟨content, decoded, htext, rfl, hcontent, hspan⟩ := parseStringLoop_sound h
  refine ⟨quoteByte :: content ++ [quoteByte], ?_, content, rfl, hcontent, ?_⟩
  · cases text with
    | nil => cases hquote
    | cons b more =>
      cases hquote
      rw [List.tail_cons] at htext
      rw [htext]
      simp only [List.cons_append, List.append_assoc, List.nil_append]
  · rcases hspan with rfl | hspan
    · exact Nat.zero_le _
    · omega

theorem parseString_complete {text value : Bytes} (h : QuotedText text value) (rest : Bytes) :
    parseString (text ++ rest) = .ok (value, rest) := by
  obtain ⟨content, rfl, hcontent, hlength⟩ := h
  have htail : (quoteByte :: content ++ [quoteByte] ++ rest).tail = content ++
    quoteByte :: rest := by
    simp only [List.cons_append, List.append_assoc, List.nil_append, List.tail_cons]
  rw [parseString, htail]
  refine parseStringLoop_complete hcontent rest (by omega) (le_refl 0) ?_
  rw [List.length_append, List.length_cons]
  omega

end EosMesh
