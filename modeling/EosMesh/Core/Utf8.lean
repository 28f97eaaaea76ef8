import EosMesh.Lib.Utf8

/-!
# The UTF-8 of the configuration

`utf8_valid` and `utf8_truncate` of `core/config.cpp`.  The former's loop body stands a second time
in the string reader of `core/config_file.cpp`; it is `utf8Length` here, the length of the sequence
at the front of a text, or nothing when the bytes there are not one.

* `utf8Length_eq_some_iff`: it finds exactly the encodings of scalar values, so overlong forms,
  surrogates and values past the last plane are refused.
* `utf8Valid_iff`: a text is accepted exactly when it is a run of such encodings.
* `utf8Truncate_encode`: a cut through such a run falls between two of them, within both bounds,
  and no further character would have fitted; `utf8_truncate_maximal` says so of any text that is
  accepted.
-/

set_option autoImplicit false

namespace EosMesh

open Lib

/-! ## The sequence at the front -/

/-- What a lead byte announces: the length of its sequence and the payload it carries itself. -/
def utf8Lead (lead : UInt8) : Option (Nat × Nat) :=
  if lead.toNat < 0x80 then some (1, lead.toNat)
  else if lead.toNat >>> 5 = 0x6 then some (2, lead.toNat &&& 0x1F)
  else if lead.toNat >>> 4 = 0xE then some (3, lead.toNat &&& 0x0F)
  else if lead.toNat >>> 3 = 0x1E then some (4, lead.toNat &&& 0x07)
  else none

/-- The loop over the continuation bytes: `count` are still to come. -/
def utf8Continue : (count codepoint : Nat) → Bytes → Option Nat
  | 0, codepoint, _ => some codepoint
  | _ + 1, _, [] => none
  | count + 1, codepoint, cont :: rest =>
    if cont.toNat >>> 6 ≠ 0x2 then none
    else utf8Continue count ((codepoint <<< 6) ||| (cont.toNat &&& 0x3F)) rest

/-- Overlong encodings, surrogates, and anything past the Unicode maximum. -/
def utf8Refused (length codepoint : Nat) : Bool :=
  (length = 2 ∧ codepoint < 0x80) ∨ (length = 3 ∧ codepoint < 0x800) ∨
    (length = 4 ∧ codepoint < 0x10000) ∨ codepoint > 0x10FFFF ∨
    (codepoint ≥ 0xD800 ∧ codepoint ≤ 0xDFFF)

/-- How many bytes the first character takes, if one stands there. -/
def utf8Length : Bytes → Option Nat
  | [] => none
  | lead :: rest => do
    let (length, payload) ← utf8Lead lead
    if length > rest.length + 1 then none
    else
      let codepoint ← utf8Continue (length - 1) payload rest
      if utf8Refused length codepoint then none else some length

/-! ### The bits are arithmetic -/

theorem utf8Lead_eq (lead : UInt8) : utf8Lead lead =
    if lead.toNat < 0x80 then some (1, lead.toNat)
    else if lead.toNat / 32 = 0x6 then some (2, lead.toNat % 32)
    else if lead.toNat / 16 = 0xE then some (3, lead.toNat % 16)
    else if lead.toNat / 8 = 0x1E then some (4, lead.toNat % 8)
    else none := by
  simp only [utf8Lead, Nat.shiftRight_eq_div_pow]
  rw [show 0x1F = 2 ^ 5 - 1 from rfl, show 0x0F = 2 ^ 4 - 1 from rfl,
    show 0x07 = 2 ^ 3 - 1 from rfl]
  simp only [Nat.and_two_pow_sub_one_eq_mod]

theorem utf8Continue_cons (count codepoint : Nat) (cont : UInt8) (rest : Bytes) :
    utf8Continue (count + 1) codepoint (cont :: rest) =
      if cont.toNat / 64 ≠ 2 then none
      else utf8Continue count (codepoint * 64 + cont.toNat % 64) rest := by
  have hbits : (codepoint <<< 6) ||| (cont.toNat &&& 0x3F) = codepoint * 64 + cont.toNat % 64 := by
    rw [show 0x3F = 2 ^ 6 - 1 from rfl, Nat.and_two_pow_sub_one_eq_mod,
      ← Nat.shiftLeft_add_eq_or_of_lt (Nat.mod_lt _ (by decide)), Nat.shiftLeft_eq]
  rw [utf8Continue, hbits, Nat.shiftRight_eq_div_pow]

@[simp] theorem utf8Continue_zero (codepoint : Nat) (rest : Bytes) :
    utf8Continue 0 codepoint rest = some codepoint := by
  rw [utf8Continue]

@[simp] theorem utf8Continue_nil (count codepoint : Nat) :
    utf8Continue (count + 1) codepoint [] = none := rfl

theorem utf8Refused_eq_false_iff {length codepoint : Nat} :
    utf8Refused length codepoint = false ↔
      ¬ (length = 2 ∧ codepoint < 0x80) ∧ ¬ (length = 3 ∧ codepoint < 0x800) ∧
      ¬ (length = 4 ∧ codepoint < 0x10000) ∧ codepoint ≤ 0x10FFFF ∧
      ¬ (codepoint ≥ 0xD800 ∧ codepoint ≤ 0xDFFF) := by
  simp only [utf8Refused, decide_eq_false_iff_not, not_or, Nat.not_lt]

/-! ### What is found -/

theorem length_le_of_utf8Continue {count codepoint result : Nat} {rest : Bytes}
    (h : utf8Continue count codepoint rest = some result) : count ≤ rest.length := by
  induction count generalizing codepoint rest with
  | zero => exact Nat.zero_le _
  | succ count ih =>
    cases rest with
    | nil => cases h
    | cons cont rest =>
      rw [utf8Continue_cons] at h
      split at h
      · cases h
      · exact Nat.succ_le_succ (ih h)

theorem utf8Length_cons_eq_some_iff {lead : UInt8} {rest : Bytes} {n : Nat} :
    utf8Length (lead :: rest) = some n ↔ ∃ payload codepoint,
      utf8Lead lead = some (n, payload) ∧
      utf8Continue (n - 1) payload rest = some codepoint ∧ utf8Refused n codepoint = false := by
  constructor
  · intro h
    obtain ⟨⟨length, payload⟩, hlead, h⟩ := Option.bind_eq_some_iff.1 h
    dsimp only at h
    by_cases hshort : length > rest.length + 1
    · rw [if_pos hshort] at h
      cases h
    · rw [if_neg hshort] at h
      obtain ⟨codepoint, hcont, h⟩ := Option.bind_eq_some_iff.1 h
      split at h
      · cases h
      · rename_i hok
        cases h
        exact ⟨payload, codepoint, hlead, hcont, by simpa using hok⟩
  · rintro ⟨payload, codepoint, hlead, hcont, hok⟩
    have hlength := length_le_of_utf8Continue hcont
    refine Option.bind_eq_some_iff.2 ⟨_, hlead, ?_⟩
    simp only
    rw [if_neg (by omega)]
    refine Option.bind_eq_some_iff.2 ⟨_, hcont, ?_⟩
    rw [hok]
    rfl

/-- The four kinds of lead byte. -/
theorem utf8Lead_cases {lead : UInt8} {n payload : Nat} (h : utf8Lead lead = some (n, payload)) :
    (n = 1 ∧ lead.toNat < 0x80 ∧ payload = lead.toNat) ∨
    (n = 2 ∧ lead.toNat = 0xC0 + payload ∧ payload < 32) ∨
    (n = 3 ∧ lead.toNat = 0xE0 + payload ∧ payload < 16) ∨
    (n = 4 ∧ lead.toNat = 0xF0 + payload ∧ payload < 8) := by
  rw [utf8Lead_eq] at h
  split_ifs at h with h1 h2 h3 h4 <;> cases h <;> omega

/-- A continuation byte adds its six bits. -/
theorem utf8Continue_succ_eq_some {count codepoint result : Nat} {rest : Bytes}
    (h : utf8Continue (count + 1) codepoint rest = some result) : ∃ cont more,
      rest = cont :: more ∧ cont.toNat / 64 = 2 ∧
      utf8Continue count (codepoint * 64 + cont.toNat % 64) more = some result := by
  cases rest with
  | nil => cases h
  | cons cont more =>
    rw [utf8Continue_cons] at h
    split at h
    · cases h
    · rename_i hcont
      exact ⟨cont, more, rfl, not_not.1 hcont, h⟩

theorem byte_eq {x : Nat} {b : UInt8} (h : x = b.toNat) : UInt8.ofNat x = b := by
  rw [h, UInt8.ofNat_toNat]

theorem toNat_byte {x : Nat} (h : x < 256) : (UInt8.ofNat x).toNat = x :=
  UInt8.toNat_ofNat_of_lt h

/-- What the decoder finds is the encoding of a scalar value. -/
theorem encoding_of_utf8Length {text : Bytes} {n : Nat} (h : utf8Length text = some n) :
    ∃ (c : Char) (rest : Bytes),
      text = String.utf8EncodeChar c ++ rest ∧ n = (String.utf8EncodeChar c).length := by
  cases text with
  | nil => cases h
  | cons lead rest =>
  obtain ⟨payload, codepoint, hlead, hcont, hok⟩ := utf8Length_cons_eq_some_iff.1 h
  obtain ⟨hover2, hover3, hover4, hmax, hsurrogate⟩ := utf8Refused_eq_false_iff.1 hok
  obtain ⟨c, hc⟩ := exists_char hmax hsurrogate
  have hencode := utf8EncodeChar_cases c
  rw [hc] at hencode
  rcases utf8Lead_cases hlead with ⟨rfl, hl, hp⟩ | ⟨rfl, hl, hp⟩ | ⟨rfl, hl, hp⟩ | ⟨rfl, hl, hp⟩
  · rw [Nat.sub_self, utf8Continue_zero, Option.some_inj] at hcont
    obtain ⟨-, hbytes⟩ | ⟨hlow, -⟩ | ⟨hlow, -⟩ | ⟨hlow, -⟩ := hencode
    · refine ⟨c, rest, ?_, by rw [hbytes]; rfl⟩
      rw [hbytes, byte_eq (b := lead) (by omega)]
      rfl
    all_goals omega
  · obtain ⟨b, more, rfl, hb, hcont⟩ := utf8Continue_succ_eq_some hcont
    rw [utf8Continue_zero, Option.some_inj] at hcont
    obtain ⟨hhigh, -⟩ | ⟨-, -, hbytes⟩ | ⟨hlow, -⟩ | ⟨hlow, -⟩ := hencode
    · omega
    · refine ⟨c, more, ?_, by rw [hbytes]; rfl⟩
      rw [hbytes, byte_eq (b := lead) (by omega), byte_eq (b := b) (by omega)]
      rfl
    all_goals omega
  · obtain ⟨b, more, rfl, hb, hcont⟩ := utf8Continue_succ_eq_some hcont
    obtain ⟨b', more, rfl, hb', hcont⟩ := utf8Continue_succ_eq_some hcont
    rw [utf8Continue_zero, Option.some_inj] at hcont
    obtain ⟨hhigh, -⟩ | ⟨-, hhigh, -⟩ | ⟨-, -, hbytes⟩ | ⟨hlow, -⟩ := hencode
    · omega
    · omega
    · refine ⟨c, more, ?_, by rw [hbytes]; rfl⟩
      rw [hbytes, byte_eq (b := lead) (by omega), byte_eq (b := b) (by omega),
        byte_eq (b := b') (by omega)]
      rfl
    · omega
  · obtain ⟨b, more, rfl, hb, hcont⟩ := utf8Continue_succ_eq_some hcont
    obtain ⟨b', more, rfl, hb', hcont⟩ := utf8Continue_succ_eq_some hcont
    obtain ⟨b'', more, rfl, hb'', hcont⟩ := utf8Continue_succ_eq_some hcont
    rw [utf8Continue_zero, Option.some_inj] at hcont
    obtain ⟨hhigh, -⟩ | ⟨-, hhigh, -⟩ | ⟨-, hhigh, -⟩ | ⟨-, hbytes⟩ := hencode
    · omega
    · omega
    · omega
    · refine ⟨c, more, ?_, by rw [hbytes]; rfl⟩
      rw [hbytes, byte_eq (b := lead) (by omega), byte_eq (b := b) (by omega),
        byte_eq (b := b') (by omega), byte_eq (b := b'') (by omega)]
      rfl

/-- The encoding of a scalar value is found, whatever follows it. -/
theorem utf8Length_encoding (c : Char) (rest : Bytes) :
    utf8Length (String.utf8EncodeChar c ++ rest) = some (String.utf8EncodeChar c).length := by
  obtain ⟨hmax, hsurrogate⟩ := toNat_scalar c
  rcases utf8EncodeChar_cases c with ⟨hv, hbytes⟩ | ⟨hv, hv', hbytes⟩ | ⟨hv, hv', hbytes⟩ |
    ⟨hv, hbytes⟩
  · rw [hbytes]
    refine utf8Length_cons_eq_some_iff.2 ⟨c.toNat, c.toNat, ?_, rfl, ?_⟩
    · rw [utf8Lead_eq, toNat_byte (by omega), if_pos hv]
      rfl
    · exact utf8Refused_eq_false_iff.2 (by simp only [List.length]; omega)
  · rw [hbytes]
    refine utf8Length_cons_eq_some_iff.2 ⟨c.toNat / 64, c.toNat, ?_, ?_, ?_⟩
    · rw [utf8Lead_eq, toNat_byte (by omega), if_neg (by omega), if_pos (by omega)]
      have hpayload : (c.toNat / 64 + 0xC0) % 32 = c.toNat / 64 := by omega
      rw [hpayload]
      rfl
    · change utf8Continue 1 _ (_ :: rest) = _
      rw [utf8Continue_cons, toNat_byte (by omega), if_neg (by omega), utf8Continue_zero,
        Option.some_inj]
      omega
    · exact utf8Refused_eq_false_iff.2 (by simp only [List.length]; omega)
  · rw [hbytes]
    refine utf8Length_cons_eq_some_iff.2 ⟨c.toNat / 4096, c.toNat, ?_, ?_, ?_⟩
    · rw [utf8Lead_eq, toNat_byte (by omega), if_neg (by omega), if_neg (by omega),
        if_pos (by omega)]
      have hpayload : (c.toNat / 4096 + 0xE0) % 16 = c.toNat / 4096 := by omega
      rw [hpayload]
      rfl
    · change utf8Continue 2 _ (_ :: _ :: rest) = _
      rw [utf8Continue_cons, toNat_byte (by omega), if_neg (by omega), utf8Continue_cons,
        toNat_byte (by omega), if_neg (by omega), utf8Continue_zero, Option.some_inj]
      omega
    · exact utf8Refused_eq_false_iff.2 (by simp only [List.length]; omega)
  · rw [hbytes]
    refine utf8Length_cons_eq_some_iff.2 ⟨c.toNat / 262144, c.toNat, ?_, ?_, ?_⟩
    · rw [utf8Lead_eq, toNat_byte (by omega), if_neg (by omega), if_neg (by omega),
        if_neg (by omega), if_pos (by omega)]
      have hpayload : (c.toNat / 262144 + 0xF0) % 8 = c.toNat / 262144 := by omega
      rw [hpayload]
      rfl
    · change utf8Continue 3 _ (_ :: _ :: _ :: rest) = _
      rw [utf8Continue_cons, toNat_byte (by omega), if_neg (by omega), utf8Continue_cons,
        toNat_byte (by omega), if_neg (by omega), utf8Continue_cons, toNat_byte (by omega),
        if_neg (by omega), utf8Continue_zero, Option.some_inj]
      omega
    · exact utf8Refused_eq_false_iff.2 (by simp only [List.length]; omega)

theorem utf8Length_eq_some_iff {text : Bytes} {n : Nat} :
    utf8Length text = some n ↔ ∃ (c : Char) (rest : Bytes),
      text = String.utf8EncodeChar c ++ rest ∧ n = (String.utf8EncodeChar c).length := by
  refine ⟨encoding_of_utf8Length, ?_⟩
  rintro ⟨c, rest, rfl, rfl⟩
  exact utf8Length_encoding c rest

/-! ## Validation -/

/-- The loop of `utf8_valid`.  Each round takes a sequence off the front, so the length of the text
bounds the rounds. -/
def utf8ValidLoop : (rounds : Nat) → Bytes → Bool
  | _, [] => true
  | 0, _ => false
  | rounds + 1, text =>
    match utf8Length text with
    | none => false
    | some length => utf8ValidLoop rounds (text.drop length)

/-- The text is made of characters. -/
def utf8Valid (text : Bytes) : Bool := utf8ValidLoop text.length text

theorem utf8ValidLoop_iff {rounds : Nat} {text : Bytes} (hrounds : text.length ≤ rounds) :
    utf8ValidLoop rounds text = true ↔ WellFormedUtf8 text := by
  induction rounds generalizing text with
  | zero =>
    obtain rfl := List.length_eq_zero_iff.1 (Nat.le_zero.1 hrounds)
    exact ⟨fun _ ↦ ⟨[], rfl⟩, fun _ ↦ rfl⟩
  | succ rounds ih =>
    rcases text with _ | ⟨lead, rest⟩
    · exact ⟨fun _ ↦ ⟨[], rfl⟩, fun _ ↦ rfl⟩
    constructor
    · intro h
      rw [utf8ValidLoop] at h
      · cases hlength : utf8Length (lead :: rest) with
        | none => rw [hlength] at h; cases h
        | some length =>
          rw [hlength] at h
          obtain ⟨c, more, htext, rfl⟩ := encoding_of_utf8Length hlength
          rw [htext] at h hrounds ⊢
          dsimp only at h
          rw [List.drop_left] at h
          have hpos := c.utf8Size_pos
          rw [List.length_append, String.length_utf8EncodeChar] at hrounds
          obtain ⟨chars, rfl⟩ := (ih (by omega)).1 h
          exact ⟨c :: chars, rfl⟩
      · simp
    · rintro ⟨chars, htext⟩
      cases chars with
      | nil => cases htext
      | cons c chars =>
        rw [utf8Encode_cons] at htext
        rw [utf8ValidLoop]
        · rw [htext, utf8Length_encoding]
          rw [htext, List.length_append, String.length_utf8EncodeChar] at hrounds
          have hpos := c.utf8Size_pos
          simp only [List.drop_left]
          exact (ih (by omega)).2 ⟨chars, rfl⟩
        · simp

theorem utf8Valid_iff (text : Bytes) : utf8Valid text = true ↔ WellFormedUtf8 text :=
  utf8ValidLoop_iff (Nat.le_refl _)

/-! ## Truncation -/

/-- `utf8_truncate` goes by the lead byte alone. -/
def utf8LeadLength (lead : UInt8) : Nat :=
  if lead ≥ 0xF0 then 4 else if lead ≥ 0xE0 then 3 else if lead ≥ 0xC0 then 2 else 1

/-- The loop of `utf8_truncate`: `i` bytes are kept so far, and `chars` more characters may be. -/
def utf8CutLoop (maxBytes : Nat) : (chars i : Nat) → (rest : Bytes) → Nat
  | 0, i, _ => i
  | _ + 1, i, [] => i
  | chars + 1, i, lead :: rest =>
    let length := utf8LeadLength lead
    if i + length > maxBytes ∨ length > rest.length + 1 then i
    else utf8CutLoop maxBytes chars (i + length) ((lead :: rest).drop length)

/-- As much of a text as fits both bounds, and no part of a character. -/
def utf8Truncate (text : Bytes) (maxChars maxBytes : Nat) : Bytes :=
  text.take (utf8CutLoop maxBytes maxChars 0 text)

/-- The lead byte of an encoding tells its length. -/
theorem utf8LeadLength_encoding (c : Char) : ∃ lead more,
    String.utf8EncodeChar c = lead :: more ∧
      utf8LeadLength lead = (String.utf8EncodeChar c).length := by
  have hmax := (toNat_scalar c).1
  rcases utf8EncodeChar_cases c with ⟨hv, hbytes⟩ | ⟨hv, hv', hbytes⟩ | ⟨hv, hv', hbytes⟩ |
    ⟨hv, hbytes⟩ <;>
  · refine ⟨_, _, hbytes, ?_⟩
    rw [hbytes, utf8LeadLength]
    simp only [ge_iff_le, UInt8.le_iff_toNat_le, UInt8.reduceToNat, List.length]
    rw [toNat_byte (by omega)]
    split_ifs <;> omega

theorem utf8CutLoop_encode (maxBytes chars i : Nat) (text : List Char) :
    ∃ kept dropped, text = kept ++ dropped ∧
      utf8CutLoop maxBytes chars i (utf8Encode text) = i + (utf8Encode kept).length ∧
      kept.length ≤ chars ∧ (kept ≠ [] → i + (utf8Encode kept).length ≤ maxBytes) ∧
      (∀ next more, dropped = next :: more → kept.length < chars →
        maxBytes < i + (utf8Encode (kept ++ [next])).length) := by
  induction chars generalizing i text with
  | zero => exact ⟨[], text, rfl, rfl, Nat.le_refl _, (absurd rfl ·), by simp⟩
  | succ chars ih =>
    cases text with
    | nil => exact ⟨[], [], rfl, rfl, Nat.zero_le _, (absurd rfl ·), by simp⟩
    | cons c text =>
      obtain ⟨lead, more, hbytes, hlength⟩ := utf8LeadLength_encoding c
      have hcons : utf8Encode (c :: text) = lead :: (more ++ utf8Encode text) := by
        rw [utf8Encode_cons, hbytes, List.cons_append]
      have hfits : ¬ utf8LeadLength lead > (more ++ utf8Encode text).length + 1 := by
        rw [hlength, hbytes, List.length_append, List.length_cons]
        omega
      have hdrop : (lead :: (more ++ utf8Encode text)).drop (utf8LeadLength lead) =
          utf8Encode text := by
        rw [← hcons, hlength, utf8Encode_cons, List.drop_left]
      by_cases hover : i + utf8LeadLength lead > maxBytes
      · refine ⟨[], c :: text, rfl, ?_, Nat.zero_le _, (absurd rfl ·), ?_⟩
        · rw [hcons, utf8CutLoop]
          exact if_pos (.inl hover)
        · intro next rest heq _
          cases heq
          rw [hlength] at hover
          simpa [utf8Encode] using hover
      · obtain ⟨kept, dropped, rfl, hcut, hchars, hbound, hnext⟩ :=
          ih (i + utf8LeadLength lead) text
        have hlen : (utf8Encode (c :: kept)).length =
            utf8LeadLength lead + (utf8Encode kept).length := by
          rw [utf8Encode_cons, List.length_append, hlength]
        refine ⟨c :: kept, dropped, rfl, ?_, Nat.succ_le_succ hchars, fun _ ↦ ?_, ?_⟩
        · rw [hcons, utf8CutLoop]
          rw [if_neg (not_or.2 ⟨hover, hfits⟩), hdrop, hcut, hlen, Nat.add_assoc]
        · rw [hlen]
          cases kept with
          | nil => simpa using hover
          | cons k kept =>
            have := hbound (by simp)
            omega
        · intro next rest heq hlt
          have := hnext next rest heq (Nat.lt_of_succ_lt_succ hlt)
          rw [List.cons_append, utf8Encode_cons, List.length_append, ← hlength]
          omega

/-- The cut falls between two characters, keeps within both bounds, and leaves no character off
that would have fitted. -/
theorem utf8Truncate_encode (text : List Char) (maxChars maxBytes : Nat) :
    ∃ kept dropped, text = kept ++ dropped ∧
      utf8Truncate (utf8Encode text) maxChars maxBytes = utf8Encode kept ∧
      kept.length ≤ maxChars ∧ (utf8Encode kept).length ≤ maxBytes ∧
      (∀ next more, dropped = next :: more → kept.length < maxChars →
        maxBytes < (utf8Encode (kept ++ [next])).length) := by
  obtain ⟨kept, dropped, rfl, hcut, hchars, hbound, hnext⟩ :=
    utf8CutLoop_encode maxBytes maxChars 0 text
  rw [Nat.zero_add] at hcut hbound
  refine ⟨kept, dropped, rfl, ?_, hchars, ?_, ?_⟩
  · rw [utf8Truncate, hcut]
    exact (congrArg (List.take _) List.flatMap_append).trans List.take_left
  · by_cases hkept : kept = []
    · rw [hkept]
      exact Nat.zero_le _
    · exact hbound hkept
  · intro next more heq hlt
    have := hnext next more heq hlt
    rwa [Nat.zero_add] at this

/-- A prefix of a text that ends between two of its characters, within both bounds. -/
def CutWithin (maxChars maxBytes : Nat) (text cut : Bytes) : Prop :=
  ∃ kept dropped, text = utf8Encode (kept ++ dropped) ∧ cut = utf8Encode kept ∧
    kept.length ≤ maxChars ∧ cut.length ≤ maxBytes

theorem utf8Truncate_within (text : List Char) (maxChars maxBytes : Nat) :
    CutWithin maxChars maxBytes (utf8Encode text)
      (utf8Truncate (utf8Encode text) maxChars maxBytes) := by
  obtain ⟨kept, dropped, rfl, hcut, hchars, hbytes, -⟩ :=
    utf8Truncate_encode text maxChars maxBytes
  exact ⟨kept, dropped, rfl, hcut, hchars, by rwa [hcut]⟩

/-- Of two beginnings of a text, one does not go on beyond the other, or it has its next character.
-/
theorem longer_or_next {kept dropped kept' dropped' : List Char}
    (h : kept ++ dropped = kept' ++ dropped') :
    kept' <+: kept ∨ ∃ next more, dropped = next :: more ∧ kept ++ [next] <+: kept' := by
  rcases List.append_eq_append_iff.1 h with ⟨middle, rfl, hdropped⟩ | ⟨middle, rfl, -⟩
  · cases middle with
    | nil => exact .inl (by rw [List.append_nil])
    | cons next middle =>
      refine .inr ⟨next, middle ++ dropped', hdropped, middle, ?_⟩
      rw [List.append_assoc, List.singleton_append]
  · exact .inl (List.prefix_append _ _)

theorem utf8Encode_mono {chars chars' : List Char} (h : chars <+: chars') :
    utf8Encode chars <+: utf8Encode chars' := by
  obtain ⟨more, rfl⟩ := h
  rw [utf8Encode_append]
  exact List.prefix_append _ _

/-- A cut of the text is a cut of what `utf8_truncate` leaves: one character more would have been
over a bound. -/
theorem utf8Truncate_longest {maxChars maxBytes : Nat} {text cut : Bytes}
    (h : CutWithin maxChars maxBytes text cut) : cut <+: utf8Truncate text maxChars maxBytes := by
  obtain ⟨kept', dropped', rfl, rfl, hchars', hbytes'⟩ := h
  obtain ⟨kept, dropped, heq, hcut, -, -, hnext⟩ :=
    utf8Truncate_encode (kept' ++ dropped') maxChars maxBytes
  rw [hcut]
  rcases longer_or_next heq.symm with hfirst | ⟨next, more, hdropped, hlonger⟩
  · exact utf8Encode_mono hfirst
  · have hroom : kept.length < maxChars := by
      have hlength := hlonger.length_le
      rw [List.length_append, List.length_singleton] at hlength
      omega
    have hover := hnext next more hdropped hroom
    have hsize := (utf8Encode_mono hlonger).length_le
    omega

/-- **Truncation.**  The check accepts the runs of encodings of scalar values and nothing else; of a
text it accepts, the longest prefix is left that ends between two characters within both bounds; and
the check accepts what is left. -/
theorem utf8_truncate_maximal (text : Bytes) (maxChars maxBytes : Nat) :
    (utf8Valid text = true ↔ WellFormedUtf8 text) ∧
    (utf8Valid text = true →
      CutWithin maxChars maxBytes text (utf8Truncate text maxChars maxBytes) ∧
      (∀ cut, CutWithin maxChars maxBytes text cut → cut <+: utf8Truncate text maxChars maxBytes) ∧
      utf8Valid (utf8Truncate text maxChars maxBytes) = true) := by
  refine ⟨utf8Valid_iff text, fun hvalid ↦ ?_⟩
  obtain ⟨chars, rfl⟩ := (utf8Valid_iff text).1 hvalid
  refine ⟨utf8Truncate_within chars maxChars maxBytes, fun cut ↦ utf8Truncate_longest, ?_⟩
  obtain ⟨kept, -, -, hcut, -⟩ := utf8Truncate_within chars maxChars maxBytes
  rw [hcut]
  exact (utf8Valid_iff _).2 ⟨kept, rfl⟩

/-- An `é` does not fit into two bytes behind an `a`. -/
theorem utf8_truncate_maximal_accent :
    utf8Valid (utf8Truncate (utf8Encode ['a', 'é', 'b']) 3 2) = true ∧
      utf8Truncate (utf8Encode ['a', 'é', 'b']) 3 2 = utf8Encode ['a'] := by
  have hvalid : utf8Valid (utf8Encode ['a', 'é', 'b']) = true := by decide +kernel
  exact ⟨((utf8_truncate_maximal _ 3 2).2 hvalid).2.2, by decide +kernel⟩

end EosMesh
