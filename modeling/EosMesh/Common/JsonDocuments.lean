import EosMesh.Common.JsonCap
import EosMesh.Common.JsonStrings

/-!
# What the JSON writer puts out is JSON

`Denotes` is the grammar of JSON, between a text and the document it denotes; only numbers are
integers, since the writer has no others.  It shares the strings and the numerals of the
configuration reader's grammar, which has further limits.

* `numeral_intText`: `std::to_string` of an integer is a numeral of it, and begins with no zero but
  that of zero itself.
* A string is written in UTF-8 whatever it held: `sanitize` puts the replacement character for what
  is no encoding, and so the document that is denoted is the one with its strings and keys
  sanitized.
* `denotes_jsonText`: the text of a document denotes it, with each string as `sanitize` leaves it.
  The proof goes down the document, with elements and members as lists of their own in the grammar.
* `writer_ok_exact`: without a cap the writer is done exactly when the calls are a document, and
  then its output is that text.  That calls are a document is `TellsDocument`, in which the writer
  does not occur.
-/

set_option autoImplicit false

namespace EosMesh

open Lib

/-! ## The grammar -/

/-- The text of a scalar, by the grammar. -/
inductive ScalarDenotes : Bytes → JsonScalar → Prop
  | string {content value : Bytes} (h : StringText content value) :
    ScalarDenotes (quoteByte :: (content ++ [quoteByte])) (.string value)
  | int (n : Numeral) (hfraction : n.fraction = []) (hexponent : n.exponent = []) :
    ScalarDenotes n.text (.int n.value)
  | literalTrue : ScalarDenotes (ascii "true") (.bool true)
  | literalFalse : ScalarDenotes (ascii "false") (.bool false)
  | literalNull : ScalarDenotes (ascii "null") .null

mutual

/-- The text of a document. -/
inductive Denotes : Bytes → Json → Prop
  | scalar {text : Bytes} {value : JsonScalar} (h : ScalarDenotes text value) :
    Denotes text (.scalar value)
  | emptyArray {blank : Bytes} (h : Blank blank) :
    Denotes (arrayOpen :: (blank ++ [arrayClose])) (.array [])
  | array {inner : Bytes} {elements : List Json} (h : DenotesElements inner elements) :
    Denotes (arrayOpen :: inner) (.array elements)
  | emptyObject {blank : Bytes} (h : Blank blank) :
    Denotes (objectOpen :: (blank ++ [objectClose])) (.object [])
  | object {inner : Bytes} {members : List (Bytes × Json)} (h : DenotesMembers inner members) :
    Denotes (objectOpen :: inner) (.object members)

/-- Elements with commas between them, and the bracket. -/
inductive DenotesElements : Bytes → List Json → Prop
  | last {before text after : Bytes} {element : Json} (hbefore : Blank before)
    (h : Denotes text element) (hafter : Blank after) :
    DenotesElements (before ++ (text ++ (after ++ [arrayClose]))) [element]
  | more {before text after rest : Bytes} {element : Json} {elements : List Json}
    (hbefore : Blank before) (h : Denotes text element) (hafter : Blank after)
    (hrest : DenotesElements rest elements) :
    DenotesElements (before ++ (text ++ (after ++ commaByte :: rest))) (element :: elements)

/-- Members with commas between them, and the bracket. -/
inductive DenotesMembers : Bytes → List (Bytes × Json) → Prop
  | last {before content name between between' text after : Bytes} {value : Json}
    (hbefore : Blank before) (hname : StringText content name) (hbetween : Blank between)
    (hbetween' : Blank between') (h : Denotes text value) (hafter : Blank after) :
    DenotesMembers (before ++ (quoteByte :: (content ++ [quoteByte]) ++ (between ++ colonByte ::
      (between' ++ (text ++ (after ++ [objectClose])))))) [(name, value)]
  | more {before content name between between' text after rest : Bytes} {value : Json}
    {members : List (Bytes × Json)} (hbefore : Blank before) (hname : StringText content name)
    (hbetween : Blank between) (hbetween' : Blank between') (h : Denotes text value)
    (hafter : Blank after) (hrest : DenotesMembers rest members) :
    DenotesMembers (before ++ (quoteByte :: (content ++ [quoteByte]) ++ (between ++ colonByte ::
      (between' ++ (text ++ (after ++ commaByte :: rest)))))) ((name, value) :: members)

end

/-! ### Its texts are UTF-8 -/

theorem wellFormedUtf8_of_ascii {text : Bytes} (h : ∀ b ∈ text, b.toNat < 0x80) :
    WellFormedUtf8 text := by
  induction text with
  | nil => exact ⟨[], rfl⟩
  | cons b text ih =>
    obtain ⟨c, -, hbytes⟩ := ascii_char (h b List.mem_cons_self)
    have hrest := ih fun d hd ↦ h d (List.mem_cons_of_mem b hd)
    rw [← List.singleton_append, ← hbytes]
    exact (wellFormedUtf8_char c).append hrest

theorem wellFormedUtf8_byte {b : UInt8} (hb : b.toNat < 0x80) : WellFormedUtf8 [b] :=
  wellFormedUtf8_of_ascii (by simpa using hb)

theorem wellFormedUtf8_cons {b : UInt8} {text : Bytes} (hb : b.toNat < 0x80)
    (h : WellFormedUtf8 text) : WellFormedUtf8 (b :: text) :=
  (wellFormedUtf8_byte hb).append h

theorem isWs_ascii {b : UInt8} (h : isWs b = true) : b.toNat < 0x80 := by
  simp only [isWs, Bool.or_eq_true, beq_iff_eq] at h
  rcases h with ((rfl | rfl) | rfl) | rfl <;> decide

theorem wellFormedUtf8_blank {text : Bytes} (h : Blank text) : WellFormedUtf8 text :=
  wellFormedUtf8_of_ascii fun b hb ↦ isWs_ascii (h b hb)

theorem hexDigitValue_ascii {c : UInt8} {value : Nat} (h : hexDigitValue c = some value) :
    c.toNat < 0x80 := by
  rw [hexDigitValue] at h
  simp only [isDigit, Bool.and_eq_true, decide_eq_true_eq, UInt8.le_iff_toNat_le] at h
  have h9 : ('9'.toUInt8).toNat = 57 := rfl
  have hf : ('f'.toUInt8).toNat = 102 := rfl
  have hF : ('F'.toUInt8).toNat = 70 := rfl
  split_ifs at h <;> omega

theorem Hex4Text.ascii {text : Bytes} {value : Nat} (h : Hex4Text text value) :
    ∀ b ∈ text, b.toNat < 0x80 := by
  obtain ⟨a, b, c, d, wa, wb, wc, wd, rfl, ha, hb, hc, hd, -⟩ := h
  simp only [List.mem_cons, List.not_mem_nil, or_false, forall_eq_or_imp, forall_eq]
  exact ⟨hexDigitValue_ascii ha, hexDigitValue_ascii hb, hexDigitValue_ascii hc,
    hexDigitValue_ascii hd⟩

theorem shortEscape_ascii {letter byte : UInt8} (h : shortEscape letter = some byte) :
    letter.toNat < 0x80 := by
  rw [shortEscape] at h
  split_ifs at h <;> subst letter <;> decide

theorem StringPiece.wellFormed {piece value : Bytes} (h : StringPiece piece value) :
    WellFormedUtf8 piece := by
  have hescape : ∀ {digits : Bytes}, (∀ b ∈ digits, b.toNat < 0x80) →
      WellFormedUtf8 (backslashByte :: 'u'.toUInt8 :: digits) := fun hdigits ↦
    wellFormedUtf8_cons (by decide) (wellFormedUtf8_cons (by decide)
      (wellFormedUtf8_of_ascii hdigits))
  cases h with
  | plain c => exact wellFormedUtf8_char c
  | short h =>
    have hletter := shortEscape_ascii h
    exact wellFormedUtf8_cons (by decide) (wellFormedUtf8_byte hletter)
  | unicode c h => exact hescape h.ascii
  | surrogates c h h' => exact (hescape h.ascii).append (hescape h'.ascii)

theorem StringText.wellFormed {text value : Bytes} (h : StringText text value) :
    WellFormedUtf8 text := by
  induction h with
  | nil => exact ⟨[], rfl⟩
  | cons hpiece _ ih => exact hpiece.wellFormed.append ih

theorem wellFormedUtf8_quoted {content : Bytes} (h : WellFormedUtf8 content) :
    WellFormedUtf8 (quoteByte :: (content ++ [quoteByte])) :=
  wellFormedUtf8_cons (by decide) (h.append (wellFormedUtf8_byte (by decide)))

theorem isDigit_ascii {c : UInt8} (h : isDigit c = true) : c.toNat < 0x80 := by
  simp only [isDigit, Bool.and_eq_true, decide_eq_true_eq, UInt8.le_iff_toNat_le] at h
  have h9 : ('9'.toUInt8).toNat = 57 := rfl
  omega

theorem ScalarDenotes.wellFormed {text : Bytes} {value : JsonScalar}
    (h : ScalarDenotes text value) :
    WellFormedUtf8 text := by
  cases h with
  | string h =>
    exact wellFormedUtf8_quoted h.wellFormed
  | int n hfraction hexponent =>
    have hsign : WellFormedUtf8 n.sign := by
      rcases n.sign_eq with h | h <;> rw [h]
      · exact ⟨[], rfl⟩
      · exact wellFormedUtf8_byte (by decide)
    have hwhole : WellFormedUtf8 n.whole :=
      wellFormedUtf8_of_ascii fun c hc ↦ isDigit_ascii (n.digits_whole.2 c hc)
    rw [Numeral.text, hfraction, hexponent, List.append_nil, List.append_nil]
    exact hsign.append hwhole
  | literalTrue =>
    refine wellFormedUtf8_of_ascii fun b hb ↦ ?_
    simp only [literal_bytes.1, List.mem_cons, List.not_mem_nil, or_false] at hb
    rcases hb with rfl | rfl | rfl | rfl <;> decide
  | literalFalse =>
    refine wellFormedUtf8_of_ascii fun b hb ↦ ?_
    simp only [literal_bytes.2.1, List.mem_cons, List.not_mem_nil, or_false] at hb
    rcases hb with rfl | rfl | rfl | rfl | rfl <;> decide
  | literalNull =>
    refine wellFormedUtf8_of_ascii fun b hb ↦ ?_
    simp only [literal_bytes.2.2, List.mem_cons, List.not_mem_nil, or_false] at hb
    rcases hb with rfl | rfl | rfl | rfl <;> decide

mutual

theorem Denotes.wellFormed {text : Bytes} {doc : Json} : Denotes text doc → WellFormedUtf8 text
  | .scalar h => h.wellFormed
  | .emptyArray h => wellFormedUtf8_cons (by decide)
      ((wellFormedUtf8_blank h).append (wellFormedUtf8_byte (by decide)))
  | .array h => wellFormedUtf8_cons (by decide) h.wellFormed
  | .emptyObject h => wellFormedUtf8_cons (by decide)
      ((wellFormedUtf8_blank h).append (wellFormedUtf8_byte (by decide)))
  | .object h => wellFormedUtf8_cons (by decide) h.wellFormed

theorem DenotesElements.wellFormed {text : Bytes} {elements : List Json} :
    DenotesElements text elements → WellFormedUtf8 text
  | .last hbefore h hafter => (wellFormedUtf8_blank hbefore).append (h.wellFormed.append
      ((wellFormedUtf8_blank hafter).append (wellFormedUtf8_byte (by decide))))
  | .more hbefore h hafter hrest => (wellFormedUtf8_blank hbefore).append (h.wellFormed.append
      ((wellFormedUtf8_blank hafter).append (wellFormedUtf8_cons (by decide) hrest.wellFormed)))

theorem DenotesMembers.wellFormed {text : Bytes} {members : List (Bytes × Json)} :
    DenotesMembers text members → WellFormedUtf8 text
  | .last hbefore hname hbetween hbetween' h hafter =>
    (wellFormedUtf8_blank hbefore).append ((wellFormedUtf8_quoted hname.wellFormed).append
      ((wellFormedUtf8_blank hbetween).append
        (wellFormedUtf8_cons (by decide) ((wellFormedUtf8_blank hbetween').append
          (h.wellFormed.append ((wellFormedUtf8_blank hafter).append
            (wellFormedUtf8_byte (by decide))))))))
  | .more hbefore hname hbetween hbetween' h hafter hrest =>
    (wellFormedUtf8_blank hbefore).append ((wellFormedUtf8_quoted hname.wellFormed).append
      ((wellFormedUtf8_blank hbetween).append
        (wellFormedUtf8_cons (by decide) ((wellFormedUtf8_blank hbetween').append
          (h.wellFormed.append ((wellFormedUtf8_blank hafter).append
            (wellFormedUtf8_cons (by decide) hrest.wellFormed)))))))

end

/-! ## Integers -/

theorem digitsValue_concat (text : Bytes) (c : UInt8) :
    digitsValue (text ++ [c]) = digitsValue text * 10 + (c - '0'.toUInt8).toNat := by
  rw [digitsValue, List.foldl_append]
  rfl

theorem digitChar_value {n : Nat} (h : n < 10) :
    (n.digitChar.toUInt8 - '0'.toUInt8).toNat = n ∧
    (n.digitChar.toUInt8 = '0'.toUInt8 → n = 0) := by
  revert n
  decide

/-- The digits of a number are its value, and begin with no zero but that of zero itself. -/
theorem toDigits_value (n : Nat) :
    digitsValue ((Nat.toDigits 10 n).map Char.toUInt8) = n ∧
      (n ≠ 0 → ((Nat.toDigits 10 n).map Char.toUInt8).head? ≠ some '0'.toUInt8) := by
  induction n using Nat.strong_induction_on with
  | _ n ih =>
    rw [Nat.toDigits_eq_if (by decide)]
    by_cases hn : n < 10
    · rw [if_pos hn]
      refine ⟨?_, fun hne hhead ↦ hne ((digitChar_value hn).2 (Option.some_inj.1 hhead))⟩
      have hdigit := digitsValue_concat [] n.digitChar.toUInt8
      rw [(digitChar_value hn).1] at hdigit
      simpa [digitsValue] using hdigit
    · obtain ⟨hvalue, hhead⟩ := ih (n / 10) (by omega)
      rw [if_neg hn, List.map_append, List.map_singleton, digitsValue_concat, hvalue,
        (digitChar_value (Nat.mod_lt n (by decide))).1]
      refine ⟨by omega, fun _ ↦ ?_⟩
      rw [List.head?_append]
      cases h : ((Nat.toDigits 10 (n / 10)).map Char.toUInt8).head? with
      | none =>
        exact absurd (List.map_eq_nil_iff.1 (List.head?_eq_none_iff.1 h)) Nat.toDigits_ne_nil
      | some c => exact fun hc ↦ hhead (by omega) (h.trans hc)

/-- A numeral of an integer. -/
theorem numeral_intText (value : Int) : ∃ n : Numeral, n.text = intText value ∧ n.value = value ∧
    n.fraction = [] ∧ n.exponent = [] := by
  obtain ⟨hvalue, hhead⟩ := toDigits_value value.natAbs
  have hne : (Nat.toDigits 10 value.natAbs).map Char.toUInt8 ≠ [] :=
    fun h ↦ Nat.toDigits_ne_nil (List.map_eq_nil_iff.1 h)
  refine ⟨{
      sign := if value < 0 then [minusByte] else []
      whole := (Nat.toDigits 10 value.natAbs).map Char.toUInt8
      fraction := []
      exponent := []
      sign_eq := ?_
      digits_whole := ⟨hne, fun c hc ↦ isDigit_of_mem_toDigits hc⟩
      whole_eq := ?_
      fraction_eq := .inl rfl
      exponent_eq := .inl rfl }, ?_, ?_, rfl, rfl⟩
  · split
    · exact .inr rfl
    · exact .inl rfl
  · by_cases hzero : value.natAbs = 0
    · left
      rw [hzero]
      rfl
    · exact .inr (hhead hzero)
  · simp [Numeral.text, intText]
  · rw [Numeral.value]
    dsimp only
    rw [hvalue]
    split_ifs <;> first | omega | contradiction

/-! ## Documents -/

/-- A scalar, with its text made valid. -/
def JsonScalar.sanitized : JsonScalar → JsonScalar
  | .string value => .string (sanitize value)
  | value => value

/-- A document with its strings and keys as they are written. -/
def sanitized (doc : Json) : Json := doc.map sanitize JsonScalar.sanitized

theorem denotes_scalar (value : JsonScalar) : ScalarDenotes value.text value.sanitized := by
  cases value with
  | string value => exact .string (stringContent_text (le_refl _))
  | int value =>
    obtain ⟨n, htext, hvalue, hfraction, hexponent⟩ := numeral_intText value
    have hint : ScalarDenotes n.text (.int n.value) := .int n hfraction hexponent
    rw [htext, hvalue] at hint
    exact hint
  | bool value =>
    cases value with
    | true => exact .literalTrue
    | false => exact .literalFalse
  | null => exact .literalNull

/-- An item that is not the first has a comma in front. -/
theorem elementsText_later (element : Json) (elements : List Json) :
    elementsText false (element :: elements) =
    commaByte :: elementsText true (element :: elements) := by
  rw [elementsText, elementsText]
  rfl

theorem membersText_later (member : Bytes × Json) (members : List (Bytes × Json)) :
    membersText false (member :: members) = commaByte :: membersText true (member :: members) := by
  obtain ⟨name, value⟩ := member
  rw [membersText, membersText]
  rfl

mutual

theorem denotes_jsonText (doc : Json) : Denotes (jsonText doc) (sanitized doc) := by
  match doc with
  | .scalar value =>
    rw [jsonText]
    exact .scalar (denotes_scalar value)
  | .array [] => exact .emptyArray .nil
  | .array (element :: elements) =>
    rw [jsonText]
    exact .array (denotes_elementsText (element :: elements) (List.cons_ne_nil _ _))
  | .object [] => exact .emptyObject .nil
  | .object (member :: members) =>
    rw [jsonText]
    exact .object (denotes_membersText (member :: members) (List.cons_ne_nil _ _))

theorem denotes_elementsText (elements : List Json) (hne : elements ≠ []) :
    DenotesElements (elementsText true elements ++ [arrayClose])
      (mapElements sanitize JsonScalar.sanitized elements) := by
  match elements with
  | [] => exact absurd rfl hne
  | [element] =>
    rw [elementsText, elementsText, List.append_nil]
    exact .last .nil (denotes_jsonText element) .nil
  | element :: next :: elements =>
    rw [elementsText, elementsText_later]
    simp only [List.append_assoc, List.cons_append]
    exact .more .nil (denotes_jsonText element) .nil
      (denotes_elementsText (next :: elements) (List.cons_ne_nil _ _))

theorem denotes_membersText (members : List (Bytes × Json)) (hne : members ≠ []) :
    DenotesMembers (membersText true members ++ [objectClose])
      (mapMembers sanitize JsonScalar.sanitized members) := by
  match members with
  | [] => exact absurd rfl hne
  | [(name, value)] =>
    rw [membersText, membersText, List.append_nil]
    simp only [List.append_assoc, List.cons_append]
    exact .last .nil (stringContent_text (le_refl name.length)) .nil .nil
      (denotes_jsonText value) .nil
  | (name, value) :: next :: members =>
    rw [membersText, membersText_later]
    simp only [List.append_assoc, List.cons_append]
    exact .more .nil (stringContent_text (le_refl name.length)) .nil .nil
      (denotes_jsonText value) .nil
      (denotes_membersText (next :: members) (List.cons_ne_nil _ _))

end

/-- Without a cap the writer is done exactly when the calls are one complete document, and its
output is then a JSON text in UTF-8 of that document. -/
theorem writer_ok_exact (calls : List WriterCall) :
    ((JsonWriter.run 0 calls).ok = true ↔ ∃ doc, TellsDocument calls doc) ∧
    ∀ doc, TellsDocument calls doc → WellFormedUtf8 (JsonWriter.run 0 calls).out ∧
      Denotes (JsonWriter.run 0 calls).out (sanitized doc) := by
  have hok := ok_iff 0 calls
  constructor
  · rw [hok]
    exact ⟨fun ⟨doc, htells, _⟩ ↦ ⟨doc, htells⟩, fun ⟨doc, htells⟩ ↦ ⟨doc, htells, .inl rfl⟩⟩
  · intro doc htells
    have hdenotes := denotes_jsonText doc
    rw [out_of_ok htells (hok.2 ⟨doc, htells, .inl rfl⟩)]
    exact ⟨hdenotes.wellFormed, hdenotes⟩

end EosMesh
