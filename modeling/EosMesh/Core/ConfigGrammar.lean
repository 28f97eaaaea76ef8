import EosMesh.Core.ConfigFile

/-!
# The grammar of the configuration file

JSON, with the bounds the file is read under, as relations between a text and what it denotes.
Nothing here is read off the parser's control flow: a text is put together from its parts.

* `StringPiece` and `StringText`: characters as they stand and escapes, and the bytes they denote.
* `NumberText`: sign, digits, fraction and exponent; an integer literal denotes its value if an i64
  holds it.
* `ValueText left`: a value with `left` levels of nesting to spare.
* `Document`: one object, behind an optional byte order mark and with blanks around it.
-/

set_option autoImplicit false

namespace EosMesh

open Lib

/-- Whitespace. -/
abbrev Blank (text : Bytes) : Prop := AllBlank isWs text

/-! ## Strings -/

/-- Four hexadecimal digits and their value. -/
def Hex4Text (text : Bytes) (value : Nat) : Prop :=
  ∃ a b c d wa wb wc wd, text = [a, b, c, d] ∧ hexDigitValue a = some wa ∧
    hexDigitValue b = some wb ∧ hexDigitValue c = some wc ∧ hexDigitValue d = some wd ∧
    value = wa * 4096 + wb * 256 + wc * 16 + wd

/-- One character of a string, as it is written, and its UTF-8. -/
inductive StringPiece : Bytes → Bytes → Prop
  /-- A character that needs no escape. -/
  | plain (c : Char) (hcontrol : 0x20 ≤ c.toNat) (hquote : c ≠ '"') (hbackslash : c ≠ '\\') :
    StringPiece (String.utf8EncodeChar c) (String.utf8EncodeChar c)
  | short {letter byte : UInt8} (h : shortEscape letter = some byte) :
    StringPiece [backslashByte, letter] [byte]
  /-- A scalar value of the first plane, by its number. -/
  | unicode {digits : Bytes} (c : Char) (h : Hex4Text digits c.toNat) :
    StringPiece (backslashByte :: 'u'.toUInt8 :: digits) (String.utf8EncodeChar c)
  /-- A scalar value past the first plane, by its surrogates. -/
  | surrogates {digits digits' : Bytes} {high low : Nat} (c : Char) (h : Hex4Text digits high)
    (h' : Hex4Text digits' low) (hhigh : 0xD800 ≤ high ∧ high ≤ 0xDBFF)
    (hlow : 0xDC00 ≤ low ∧ low ≤ 0xDFFF)
    (hc : c.toNat = 0x10000 + (high - 0xD800) * 0x400 + (low - 0xDC00)) :
    StringPiece (backslashByte :: 'u'.toUInt8 :: digits ++ backslashByte :: 'u'.toUInt8 :: digits')
      (String.utf8EncodeChar c)

/-- The text between the quotes. -/
inductive StringText : Bytes → Bytes → Prop
  | nil : StringText [] []
  | cons {piece text value value' : Bytes} (h : StringPiece piece value)
    (h' : StringText text value') : StringText (piece ++ text) (value ++ value')

/-- A string in its quotes, within the token cap. -/
def QuotedText (text value : Bytes) : Prop :=
  ∃ content, text = quoteByte :: content ++ [quoteByte] ∧ StringText content value ∧
    content.length ≤ maxToken

/-! ## Numbers -/

/-- One digit or more. -/
def Digits (text : Bytes) : Prop := text ≠ [] ∧ ∀ c ∈ text, isDigit c = true

/-- The value of a run of digits. -/
def digitsValue (text : Bytes) : Nat :=
  text.foldl (fun value c ↦ value * 10 + (c - '0'.toUInt8).toNat) 0

/-- The parts of a numeral. -/
structure Numeral where
  sign : Bytes
  whole : Bytes
  fraction : Bytes
  exponent : Bytes
  sign_eq : sign = [] ∨ sign = [minusByte]
  digits_whole : Digits whole
  whole_eq : whole = ['0'.toUInt8] ∨ whole.head? ≠ some '0'.toUInt8
  fraction_eq : fraction = [] ∨ ∃ digits, Digits digits ∧ fraction = '.'.toUInt8 :: digits
  exponent_eq : exponent = [] ∨ ∃ e sign digits, (e = 'e'.toUInt8 ∨ e = 'E'.toUInt8) ∧
    (sign = [] ∨ sign = ['+'.toUInt8] ∨ sign = [minusByte]) ∧ Digits digits ∧
    exponent = e :: (sign ++ digits)

/-- A numeral as it is written. -/
def Numeral.text (n : Numeral) : Bytes := n.sign ++ n.whole ++ n.fraction ++ n.exponent

/-- What an integer literal denotes. -/
def Numeral.value (n : Numeral) : Int :=
  if n.sign = [] then digitsValue n.whole else -(digitsValue n.whole : Int)

/-- An integer literal that an i64 holds. -/
def Numeral.IsInt64 (n : Numeral) : Prop :=
  n.fraction = [] ∧ n.exponent = [] ∧ -(2 ^ 63 : Int) ≤ n.value ∧ n.value < (2 ^ 63 : Int)

/-- A numeral within the token cap. -/
def NumberText (text : Bytes) (node : ValueNode) : Prop :=
  ∃ n : Numeral, text = n.text ∧ text.length ≤ maxToken ∧
    (n.IsInt64 ∧ node = .int n.value ∨ ¬ n.IsInt64 ∧ node = .number)

/-! ## Values -/

/-- A value without anything nested in it. -/
inductive ScalarText : Bytes → ValueNode → Prop
  | string {text value : Bytes} (h : QuotedText text value) : ScalarText text (.string value)
  | number {text : Bytes} {node : ValueNode} (h : NumberText text node) : ScalarText text node
  | literalTrue : ScalarText (ascii "true") (.bool true)
  | literalFalse : ScalarText (ascii "false") (.bool false)
  | literalNull : ScalarText (ascii "null") .null

/-- The brackets around no item at all, or around items with commas between them. -/
def Bracketed {α : Type} (opening closing : UInt8) (G : Bytes → α → Prop) (text : Bytes)
    (items : List α) : Prop :=
  ∃ inner, text = opening :: inner ∧
    (items = [] ∧ (∃ blank, Blank blank ∧ inner = blank ++ [closing]) ∨
      Items isWs commaByte closing (Padded isWs G) inner items)

/-- The text of an array, by the grammar. -/
def ArrayText (V : Bytes → ValueNode → Prop) (text : Bytes) (elements : List ValueNode) : Prop :=
  Bracketed arrayOpen arrayClose V text elements ∧ elements.length ≤ maxArray

/-- A key, a colon and a value. -/
def MemberText (V : Bytes → ValueNode → Prop) (text : Bytes) (member : Bytes × ValueNode) : Prop :=
  ∃ key between value, text = key ++ between ++ colonByte :: value ∧ QuotedText key member.1 ∧
    Blank between ∧ Padded isWs V value member.2

/-- No key comes twice. -/
def ObjectText (V : Bytes → ValueNode → Prop) (text : Bytes) (members : List (Bytes × ValueNode)) :
    Prop :=
  Bracketed objectOpen objectClose (MemberText V) text members ∧ (members.map Prod.fst).Nodup

/-- A value that nests no deeper than `left` levels. -/
def ValueText : (left : Nat) → Bytes → ValueNode → Prop
  | 0, text, node => ScalarText text node
  | left + 1, text, node => ScalarText text node ∨
    (∃ elements, ArrayText (ValueText left) text elements ∧ node = .array elements) ∨
    (∃ members, ObjectText (ValueText left) text members ∧ node = .object)

/-! ## The file -/

/-- A configuration file and the members of its object. -/
structure Document (bytes : Bytes) (members : List (Bytes × ValueNode)) : Prop where
  size : bytes.length ≤ maxInput
  text : ∃ mark before object after, bytes = mark ++ before ++ object ++ after ∧
    (mark = [] ∨ mark = byteOrderMark) ∧ Blank before ∧ Blank after ∧
    ObjectText (ValueText (maxDepth - 1)) object members

/-- What the file stores for a member: strings, integers, booleans and arrays of integers by their
value. -/
def Stored (out : ConfigFile) (key : Bytes) (value : ValueNode) : Prop :=
  (∀ str, value = .string str → out.getString key = .ok str) ∧
  (∀ integer, value = .int integer → out.getInt key = .ok integer) ∧
  (∀ flag, value = .bool flag → out.getBool key = .ok flag) ∧
  (∀ ints : List Int, value = .array (ints.map .int) → out.nodes[key]? = some (.intArray ints))

end EosMesh
