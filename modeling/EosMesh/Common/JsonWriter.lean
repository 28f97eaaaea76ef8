import EosMesh.Core.ConfigFile
import EosMesh.Lib.Events

/-!
# The JSON writer

`common/json_writer.h` and `common/json_writer.cpp`: a streaming serializer that goes invalid, and
stays so, on misuse and when its output would pass a cap.  Its callers ask it nothing on the way:
they make their calls, and look at `ok` once.

What may come next is known from the innermost container, from whether something is in it already,
and from whether a key waits for its value; `preValue` and `key` read these, and write the comma
that is due.  A text goes through `writePiece`, a character at a time: the ones JSON escapes are
escaped, and a byte that begins no UTF-8 sequence becomes U+FFFD.

* An early return on a failed `reserve` leaves an invalid writer behind, so what follows it here is
  guarded by `valid`.
* `levels` has the innermost level first.
* The closing brackets are appended without a `reserve`; what follows from that for the cap is in
  `Common.JsonCap`.
* `JsonWriter.run` makes a sequence of calls on a fresh writer; `WriterCall.events` says what a call
  means for the document, and `Common.JsonDocuments` proves that the writer is `ok` exactly when
  these events are one document, and that its text then is that document's.
-/

set_option autoImplicit false

namespace EosMesh

open Lib

/-! ## Characters -/

/-- A lower-case hexadecimal digit. -/
def hexDigitOf (n : Nat) : UInt8 :=
  (['0', '1', '2', '3', '4', '5', '6', '7', '8', '9', 'a', 'b', 'c', 'd', 'e', 'f'].map
    Char.toUInt8).getD (n &&& 0xF) 0

/-- `\u` and four digits. -/
def appendUEscape (codepoint : Nat) : Bytes :=
  [backslashByte, 'u'.toUInt8, hexDigitOf (codepoint >>> 12), hexDigitOf (codepoint >>> 8),
    hexDigitOf (codepoint >>> 4), hexDigitOf codepoint]

/-- `decode_utf8`: the length of the sequence at the front of a text, if one begins there. -/
def decodeUtf8 : Bytes → Option Nat
  | [] => none
  | lead :: rest =>
    if lead.toNat < 0x80 then some 1
    else do
      let (length, payload) ← utf8Lead lead
      if length > rest.length + 1 then none
      else
        let codepoint ← utf8Continue (length - 1) payload rest
        if utf8Refused length codepoint then none else some length

/-- The letter that escapes a byte, if it has one. -/
def escapeLetter (c : UInt8) : Option UInt8 :=
  if c = quoteByte then some quoteByte
  else if c = backslashByte then some backslashByte
  else if c = 0x0A then some 'n'.toUInt8
  else if c = 0x0D then some 'r'.toUInt8
  else if c = 0x09 then some 't'.toUInt8
  else if c = 0x08 then some 'b'.toUInt8
  else if c = 0x0C then some 'f'.toUInt8
  else none

/-- U+FFFD. -/
def replacement : Bytes := [0xEF, 0xBF, 0xBD]

/-- One round of `write_string`: what is written for the front of the text, and how many bytes of it
that was. -/
def writePiece (c : UInt8) (rest : Bytes) : Bytes × Nat :=
  match escapeLetter c with
  | some letter => ([backslashByte, letter], 1)
  | none =>
    if c < 0x20 then (appendUEscape c.toNat, 1)
    else if c < 0x80 then ([c], 1)
    else
      match decodeUtf8 (c :: rest) with
      | some length => ((c :: rest).take length, length)
      | none => (replacement, 1)

/-- `std::to_string`. -/
def intText (value : Int) : Bytes :=
  (if value < 0 then [minusByte] else []) ++ (Nat.toDigits 10 value.natAbs).map Char.toUInt8

/-! ## The writer -/

/-- An object or an array that was begun and is not ended, and whether nothing is in it yet. -/
structure WriterLevel where
  isObject : Bool
  first : Bool
  deriving DecidableEq, Repr

/-- What is written so far, the containers that are open, and where the next call stands.  A
`maxBytes` of zero is no cap. -/
structure JsonWriter where
  out : Bytes := []
  levels : List WriterLevel := []
  maxBytes : Nat := 0
  afterKey : Bool := false
  valid : Bool := true
  rootDone : Bool := false
  deriving DecidableEq, Repr

namespace JsonWriter

/-- `ok`: nothing went wrong, and the document is whole. -/
def ok (w : JsonWriter) : Bool := w.valid && w.rootDone && w.levels.isEmpty

/-- Whatever else is called, the writer stays invalid. -/
def fail (w : JsonWriter) : JsonWriter := { w with valid := false }

/-- Whether `n` more bytes fit within the cap; a writer they do not fit into is failed. -/
def reserve (w : JsonWriter) (n : Nat) : Bool × JsonWriter :=
  if w.valid = false then (false, w)
  else if w.maxBytes ≠ 0 ∧ w.out.length + n > w.maxBytes then (false, w.fail)
  else (true, w)

/-- `reserve`, and the append it was for. -/
def put (w : JsonWriter) (text : Bytes) : JsonWriter :=
  match w.reserve text.length with
  | (true, w) => { w with out := w.out ++ text }
  | (false, w) => w

/-- `pre_value`: a value may stand here, and the comma in front of it is written. -/
def preValue (w : JsonWriter) : JsonWriter :=
  if w.valid = false then w
  else
    match w.levels with
    | [] =>
      -- A value at the top level is allowed only as the single whole document.
      if w.rootDone ∨ w.out ≠ [] then w.fail else w
    | current :: outer =>
      if current.isObject then
        -- A value inside an object must follow a key.
        if w.afterKey then { w with afterKey := false } else w.fail
      else
        let w := if current.first then w else w.put [commaByte]
        if w.valid then { w with levels := { current with first := false } :: outer } else w

/-- The loop of `write_string`, and the closing quote.  A round takes at least a byte. -/
def writeStringLoop : (rounds : Nat) → JsonWriter → Bytes → JsonWriter
  | _, w, [] => w.put [quoteByte]
  | 0, w, _ => w
  | rounds + 1, w, c :: rest =>
    let (text, used) := writePiece c rest
    let w := w.put text
    if w.valid then writeStringLoop rounds w ((c :: rest).drop used) else w

/-- `write_string`: a text between quotes, with the escapes it needs. -/
def writeString (w : JsonWriter) (value : Bytes) : JsonWriter :=
  let w := w.put [quoteByte]
  if w.valid then writeStringLoop value.length w value else w

/-- A value outside every container is the whole document. -/
def markRootIfTop (w : JsonWriter) : JsonWriter :=
  if w.levels.isEmpty then { w with rootDone := true } else w

/-- `begin_object` and `begin_array`. -/
def beginContainer (w : JsonWriter) (isObject : Bool) (bracket : UInt8) : JsonWriter :=
  let w := w.preValue
  if w.valid then
    let w := w.put [bracket]
    if w.valid then { w with levels := { isObject, first := true } :: w.levels } else w
  else w

/-- `begin_object`. -/
def beginObject (w : JsonWriter) : JsonWriter := w.beginContainer true objectOpen

/-- `begin_array`. -/
def beginArray (w : JsonWriter) : JsonWriter := w.beginContainer false arrayOpen

/-- What `end_object` and `end_array` do to the container they match.  The bracket is appended
without a `reserve`. -/
def close (w : JsonWriter) (bracket : UInt8) : JsonWriter :=
  let w := { w with out := w.out ++ [bracket], levels := w.levels.tail }
  if w.levels.isEmpty then { w with rootDone := true } else w

/-- `end_object`: it ends an object, and nothing else. -/
def endObject (w : JsonWriter) : JsonWriter :=
  if w.valid = false then w
  else
    match w.levels with
    | [] => w.fail
    | current :: _ =>
      -- Never with a key left dangling.
      if current.isObject = false ∨ w.afterKey then w.fail else w.close objectClose

/-- `end_array`: it ends an array, and nothing else. -/
def endArray (w : JsonWriter) : JsonWriter :=
  if w.valid = false then w
  else
    match w.levels with
    | [] => w.fail
    | current :: _ => if current.isObject then w.fail else w.close arrayClose

/-- `key`: the name of the next value, with the comma in front of it and the colon behind it. -/
def key (w : JsonWriter) (name : Bytes) : JsonWriter :=
  if w.valid = false then w
  else
    match w.levels with
    | [] => w.fail
    | current :: outer =>
      -- A key belongs only inside an object, and only where a key is expected.
      if current.isObject = false ∨ w.afterKey then w.fail
      else
        let w := if current.first then w else w.put [commaByte]
        if w.valid then
          let w := { w with levels := { current with first := false } :: outer }
          let w := w.writeString name
          let w := w.put [colonByte]
          if w.valid then { w with afterKey := true } else w
        else w

/-- `value_string`. -/
def valueString (w : JsonWriter) (value : Bytes) : JsonWriter :=
  let w := w.preValue
  if w.valid then (w.writeString value).markRootIfTop else w

/-- What the other four kinds of value share: the text is there before there is room for it. -/
def valueText (w : JsonWriter) (text : Bytes) : JsonWriter :=
  let w := w.preValue
  if w.valid then
    let w := w.put text
    if w.valid then w.markRootIfTop else w
  else w

/-- `value_int`. -/
def valueInt (w : JsonWriter) (value : Int64) : JsonWriter := w.valueText (intText value.toInt)

/-- `value_uint`. -/
def valueUint (w : JsonWriter) (value : UInt64) : JsonWriter := w.valueText (intText value.toNat)

/-- `value_bool`. -/
def valueBool (w : JsonWriter) (value : Bool) : JsonWriter :=
  w.valueText (ascii (if value then "true" else "false"))

/-- `value_null`. -/
def valueNull (w : JsonWriter) : JsonWriter := w.valueText (ascii "null")

/-- `field_string`: a key and its value, as all of its kind are. -/
def fieldString (w : JsonWriter) (name value : Bytes) : JsonWriter := (w.key name).valueString value

/-- `field_int`. -/
def fieldInt (w : JsonWriter) (name : Bytes) (value : Int64) : JsonWriter :=
  (w.key name).valueInt value

/-- `field_uint`. -/
def fieldUint (w : JsonWriter) (name : Bytes) (value : UInt64) : JsonWriter :=
  (w.key name).valueUint value

/-- `field_bool`. -/
def fieldBool (w : JsonWriter) (name : Bytes) (value : Bool) : JsonWriter :=
  (w.key name).valueBool value

/-- `field_null`. -/
def fieldNull (w : JsonWriter) (name : Bytes) : JsonWriter := (w.key name).valueNull

end JsonWriter

/-! ## Calls -/

/-- The public operations. -/
inductive WriterCall where
  | beginObject
  | endObject
  | beginArray
  | endArray
  | key (name : Bytes)
  | valueString (value : Bytes)
  | valueInt (value : Int64)
  | valueUint (value : UInt64)
  | valueBool (value : Bool)
  | valueNull
  | fieldString (name value : Bytes)
  | fieldInt (name : Bytes) (value : Int64)
  | fieldUint (name : Bytes) (value : UInt64)
  | fieldBool (name : Bytes) (value : Bool)
  | fieldNull (name : Bytes)

/-- A call by its name. -/
def JsonWriter.call (w : JsonWriter) : WriterCall → JsonWriter
  | .beginObject => w.beginObject
  | .endObject => w.endObject
  | .beginArray => w.beginArray
  | .endArray => w.endArray
  | .key name => w.key name
  | .valueString value => w.valueString value
  | .valueInt value => w.valueInt value
  | .valueUint value => w.valueUint value
  | .valueBool value => w.valueBool value
  | .valueNull => w.valueNull
  | .fieldString name value => w.fieldString name value
  | .fieldInt name value => w.fieldInt name value
  | .fieldUint name value => w.fieldUint name value
  | .fieldBool name value => w.fieldBool name value
  | .fieldNull name => w.fieldNull name

/-- Calls on a fresh writer; a cap of zero is none. -/
def JsonWriter.run (maxBytes : Nat) (calls : List WriterCall) : JsonWriter :=
  calls.foldl JsonWriter.call { maxBytes }

/-- A value without structure. -/
inductive JsonScalar where
  | string (value : Bytes)
  | int (value : Int)
  | bool (value : Bool)
  | null
  deriving DecidableEq

/-- A JSON document. -/
abbrev Json := Tree Bytes JsonScalar

/-- One piece of a document, in the order of its text. -/
abbrev JsonEvent := Event Bytes JsonScalar

/-- What a call tells of the document. -/
def WriterCall.events : WriterCall → List JsonEvent
  | .beginObject => [.beginObject]
  | .endObject => [.endObject]
  | .beginArray => [.beginArray]
  | .endArray => [.endArray]
  | .key name => [.key name]
  | .valueString value => [.scalar (.string value)]
  | .valueInt value => [.scalar (.int value.toInt)]
  | .valueUint value => [.scalar (.int value.toNat)]
  | .valueBool value => [.scalar (.bool value)]
  | .valueNull => [.scalar .null]
  | .fieldString name value => [.key name, .scalar (.string value)]
  | .fieldInt name value => [.key name, .scalar (.int value.toInt)]
  | .fieldUint name value => [.key name, .scalar (.int value.toNat)]
  | .fieldBool name value => [.key name, .scalar (.bool value)]
  | .fieldNull name => [.key name, .scalar .null]

end EosMesh
