import EosMesh.Core.Config
import EosMesh.Lib.Grammar
import EosMesh.Lib.Table

/-!
# The configuration file

`core/config_file.h` and `core/config_file.cpp`: the parsed file as the settings read it, and the
recursive-descent reader that builds it.  What the reader accepts is not quite JSON: there are caps
on the file, on its tokens and on its depth, and a key stands once in an object.

* `ConfigNode` is a top-level value, reduced to the shapes the settings read; objects and the
  elements of most arrays are validated and not kept.  `ConfigFile` looks them up by key.
* A parser here takes the bytes from the reader's position on and gives what is left behind it, so
  `pos_ >= s_.size()` is an empty rest; a failure is the message `fail` would set.
* `depth_` counts up to its cap in the source; here `parseValue` is given how many levels are left.
  The loops that stop at a byte are given as many rounds as there are bytes.
* The token caps bound the bytes a token occupies, counted as the rest shrinks.

`Core.ConfigGrammar` says what a configuration file is, without a parser in it, and
`Core.ConfigParsing` that this reader accepts these files and reads from them what they denote.
-/

set_option autoImplicit false

namespace EosMesh

open Lib
open Std (TreeMap)

/-! ## What the settings read -/

/-- A top-level value, reduced to the shapes the settings read. -/
inductive ConfigNode where
  | string (str : Bytes)
  | int (integer : Int)
  | intArray (ints : List Int)
  | bool (flag : Bool)
  | other
  deriving DecidableEq, Repr

/-- The parsed file: a value for each key. -/
structure ConfigFile where
  nodes : TreeMap Bytes ConfigNode := {}

/-- A text under a key; a value of another kind is told apart from none. -/
def ConfigFile.getString (file : ConfigFile) (key : Bytes) : Lookup Bytes :=
  match file.nodes[key]? with
  | none => .missing
  | some (.string str) => .ok str
  | some _ => .wrongType

/-- An integer under a key. -/
def ConfigFile.getInt (file : ConfigFile) (key : Bytes) : Lookup Int :=
  match file.nodes[key]? with
  | none => .missing
  | some (.int integer) => .ok integer
  | some _ => .wrongType

/-- A flag under a key. -/
def ConfigFile.getBool (file : ConfigFile) (key : Bytes) : Lookup Bool :=
  match file.nodes[key]? with
  | none => .missing
  | some (.bool flag) => .ok flag
  | some _ => .wrongType

/-- The five `set_` functions: whatever the key held before is gone. -/
def ConfigFile.set (file : ConfigFile) (key : Bytes) (node : ConfigNode) : ConfigFile :=
  { nodes := file.nodes.insert key node }

/-! ## Limits -/

/-- The caps of the reader: the bytes of a file, those of one token, the values of an array, and how
deep values may nest. -/
def maxInput : Nat := 65536
def maxToken : Nat := 4096
def maxArray : Nat := 64
def maxDepth : Nat := 8

/-! ## Values -/

/-- `value_node`: objects are validated, but their members are not kept. -/
inductive ValueNode where
  | string (str : Bytes)
  | int (integer : Int)
  | number
  | bool (flag : Bool)
  | null
  | array (elements : List ValueNode)
  | object

/-- A parser of the reader. -/
abbrev Read (α : Type) := Parse UInt8 String α

/-- The bytes JSON gives a meaning to. -/
def quoteByte : UInt8 := 0x22
def backslashByte : UInt8 := 0x5C
def commaByte : UInt8 := 0x2C
def colonByte : UInt8 := 0x3A
def minusByte : UInt8 := 0x2D
def arrayOpen : UInt8 := 0x5B
def arrayClose : UInt8 := 0x5D
def objectOpen : UInt8 := 0x7B
def objectClose : UInt8 := 0x7D

/-- The four bytes that JSON takes for white space. -/
def isWs (c : UInt8) : Bool := c == 0x20 || c == 0x09 || c == 0x0A || c == 0x0D

/-- `parser::skip_ws`. -/
def skipWs (text : Bytes) : Bytes := skipBlanks isWs text

/-- The three literals of JSON, byte by byte. -/
theorem literal_bytes :
    ascii "true" = ['t'.toUInt8, 'r'.toUInt8, 'u'.toUInt8, 'e'.toUInt8] ∧
      ascii "false" = ['f'.toUInt8, 'a'.toUInt8, 'l'.toUInt8, 's'.toUInt8, 'e'.toUInt8] ∧
      ascii "null" = ['n'.toUInt8, 'u'.toUInt8, 'l'.toUInt8, 'l'.toUInt8] := by
  decide +kernel

/-! ## Integers -/

/-- The loop of `token_to_i64`: the magnitude, up to a limit.  It is run on digits only. -/
def tokenDigits (limit : Nat) : (value : Nat) → Bytes → Option Nat
  | value, [] => some value
  | value, c :: rest =>
    let digit := (c - '0'.toUInt8).toNat
    if value > (limit - digit) / 10 then none
    else tokenDigits limit (value * 10 + digit) rest

/-- The magnitude of the least i64. -/
def int64MinMagnitude : Nat := 9223372036854775808

/-- A negative token may reach the least i64, a positive one only the greatest. -/
def tokenToI64 (text : Bytes) : Option Int :=
  if text.head? = some minusByte then
    (tokenDigits int64MinMagnitude 0 text.tail).map fun (value : Nat) ↦ -(value : Int)
  else (tokenDigits (int64MinMagnitude - 1) 0 text).map fun (value : Nat) ↦ (value : Int)

/-! ## Strings -/

/-- The UTF-8 of one code point, of up to four bytes. -/
def appendUtf8 (codepoint : Nat) : Bytes :=
  if codepoint < 0x80 then [UInt8.ofNat codepoint]
  else if codepoint < 0x800 then
    [UInt8.ofNat (0xC0 ||| (codepoint >>> 6)), UInt8.ofNat (0x80 ||| (codepoint &&& 0x3F))]
  else if codepoint < 0x10000 then
    [UInt8.ofNat (0xE0 ||| (codepoint >>> 12)), UInt8.ofNat (0x80 ||| ((codepoint >>> 6) &&& 0x3F)),
      UInt8.ofNat (0x80 ||| (codepoint &&& 0x3F))]
  else
    [UInt8.ofNat (0xF0 ||| (codepoint >>> 18)),
      UInt8.ofNat (0x80 ||| ((codepoint >>> 12) &&& 0x3F)),
      UInt8.ofNat (0x80 ||| ((codepoint >>> 6) &&& 0x3F)),
        UInt8.ofNat (0x80 ||| (codepoint &&& 0x3F))]

/-- The value of a hexadecimal digit, of either case. -/
def hexDigitValue (c : UInt8) : Option Nat :=
  if isDigit c then some (c - '0'.toUInt8).toNat
  else if 'a'.toUInt8 ≤ c && c ≤ 'f'.toUInt8 then some ((c - 'a'.toUInt8).toNat + 10)
  else if 'A'.toUInt8 ≤ c && c ≤ 'F'.toUInt8 then some ((c - 'A'.toUInt8).toNat + 10)
  else none

/-- Hexadecimal digits, the first one the most significant. -/
def readHexDigits : (value : Nat) → Bytes → Option Nat
  | value, [] => some value
  | value, c :: rest =>
    match hexDigitValue c with
    | none => none
    | some digit => readHexDigits ((value <<< 4) ||| digit) rest

/-- The four digits of an escape. -/
def readHex4 : Read Nat := fun text ↦
  if text.length < 4 then .error "truncated unicode escape"
  else
    match readHexDigits 0 (text.take 4) with
    | none => .error "bad unicode escape"
    | some value => .ok (value, text.drop 4)

/-- What a one-letter escape stands for. -/
def shortEscape (letter : UInt8) : Option UInt8 :=
  if letter = quoteByte then some quoteByte
  else if letter = backslashByte then some backslashByte
  else if letter = '/'.toUInt8 then some '/'.toUInt8
  else if letter = 'b'.toUInt8 then some 0x08
  else if letter = 'f'.toUInt8 then some 0x0C
  else if letter = 'n'.toUInt8 then some 0x0A
  else if letter = 'r'.toUInt8 then some 0x0D
  else if letter = 't'.toUInt8 then some 0x09
  else none

/-- The second half of a surrogate pair, after its first half. -/
def parseLowSurrogate (high : Nat) : Read Bytes := fun text ↦
  match text with
  | b :: u :: rest =>
    if b = backslashByte ∧ u = 'u'.toUInt8 then do
      let (low, rest) ← readHex4 rest
      if low < 0xDC00 ∨ low > 0xDFFF then .error "invalid low surrogate"
      else .ok (appendUtf8 (0x10000 + ((high - 0xD800) <<< 10) + (low - 0xDC00)), rest)
    else .error "lone high surrogate"
  | _ => .error "lone high surrogate"

/-- What follows `\\u`. -/
def parseUnicode : Read Bytes := fun text ↦ do
  let (codepoint, rest) ← readHex4 text
  if codepoint ≥ 0xD800 ∧ codepoint ≤ 0xDBFF then parseLowSurrogate codepoint rest
  else if codepoint ≥ 0xDC00 ∧ codepoint ≤ 0xDFFF then .error "lone low surrogate"
  else .ok (appendUtf8 codepoint, rest)

/-- What follows a backslash. -/
def parseEscape : Read Bytes
  | [] => .error "unterminated escape"
  | letter :: rest =>
    if letter = 'u'.toUInt8 then parseUnicode rest
    else
      match shortEscape letter with
      | some byte => .ok ([byte], rest)
      | none => .error "invalid escape"

/-- One round of `parse_string`: a character as it stands, or an escape. -/
def parsePiece (c : UInt8) (rest : Bytes) : Except String (Bytes × Bytes) :=
  if c < 0x20 then .error "unescaped control character in string"
  else if c ≠ backslashByte then
    if c < 0x80 then .ok ([c], rest)
    else
      match utf8Length (c :: rest) with
      | none => .error "invalid UTF-8 in string"
      | some length => .ok ((c :: rest).take length, (c :: rest).drop length)
  else parseEscape rest

/-- The loop of `parse_string`: `out` is decoded so far, from `span` bytes.  A round takes at least
a byte, so as many rounds as there are bytes are enough. -/
def parseStringLoop : (rounds : Nat) → (out : Bytes) → (span : Nat) → Read Bytes
  | _, _, _, [] => .error "unterminated string"
  | 0, _, _, _ => .error "unterminated string"
  | rounds + 1, out, span, c :: rest =>
    if c = quoteByte then .ok (out, rest)
    else do
      let (piece, left) ← parsePiece c rest
      let out := out ++ piece
      let span := span + (rest.length + 1 - left.length)
      if out.length > maxToken ∨ span > maxToken then .error "string too long"
      else parseStringLoop rounds out span left

/-- `parse_string`, from the opening quote on. -/
def parseString : Read Bytes := fun text ↦
  parseStringLoop text.tail.length [] 0 text.tail

/-! ## Numbers -/

/-- The digits before the point. -/
def parseWhole (text : Bytes) : Except String Bytes :=
  match text with
  | [] => .error "invalid number"
  | c :: rest =>
    if ¬ isDigit c then .error "invalid number"
    else if c = '0'.toUInt8 then
      if rest.head?.any isDigit then .error "leading zero in number" else .ok rest
    else .ok ((c :: rest).dropWhile isDigit)

/-- One digit at least, and all that follow. -/
def skipDigits (message : String) (text : Bytes) : Except String Bytes :=
  if text.head?.any isDigit then .ok (text.dropWhile isDigit) else .error message

/-- A fraction, if there is one. -/
def parseFraction (text : Bytes) : Except String (Bool × Bytes) :=
  if text.head? = some '.'.toUInt8 then
    (skipDigits "invalid fraction" text.tail).map fun rest ↦ (true, rest)
  else .ok (false, text)

/-- An exponent, if there is one. -/
def parseExponent (text : Bytes) : Except String (Bool × Bytes) :=
  if text.head? = some 'e'.toUInt8 ∨ text.head? = some 'E'.toUInt8 then
    let rest := text.tail
    let rest :=
      if rest.head? = some '+'.toUInt8 ∨ rest.head? = some minusByte then rest.tail else rest
    (skipDigits "invalid exponent" rest).map fun rest ↦ (true, rest)
  else .ok (false, text)

/-- A number.  It is an integer when it has neither fraction nor exponent and fits an `i64`. -/
def parseNumber : Read ValueNode := fun text ↦ do
  let rest := if text.head? = some minusByte then text.tail else text
  let rest ← parseWhole rest
  let (fractional, rest) ← parseFraction rest
  let (exponential, rest) ← parseExponent rest
  let token := text.take (text.length - rest.length)
  if token.length > maxToken then .error "number too long"
  else
    -- Too large for an i64 is a number, but not an integer.
    match if fractional || exponential then none else tokenToI64 token with
    | some value => .ok (.int value, rest)
    | none => .ok (.number, rest)

/-! ## Arrays and objects -/

/-- One of the three words, which has to stand there to its last letter. -/
def parseLiteral (literal : Bytes) (node : ValueNode) : Read ValueNode := fun text ↦
  if text.take literal.length = literal then .ok (node, text.drop literal.length)
  else .error "invalid literal"

/-- What `parse_array` and `parse_object` share, from the opening bracket on: the closing one at
once, or items up to it. -/
def parseBracketed {α : Type} (closing : UInt8) (item : List α → Read α)
    (unterminated expected : String) : Read (List α) := fun text ↦
  let rest := skipWs text.tail
  if rest.head? = some closing then .ok ([], rest.tail)
  else readItems isWs commaByte closing item unterminated expected (rest.length + 1) [] rest

/-- An element of an array: `value` reads a value one level deeper. -/
def parseElement (value : Read ValueNode) (elements : List ValueNode) : Read ValueNode := fun text ↦
  if elements.length ≥ maxArray then .error "too many array elements" else value text

/-- `parse_array`, inside its level. -/
def parseArray (value : Read ValueNode) : Read (List ValueNode) :=
  parseBracketed arrayClose (parseElement value) "unterminated array" "expected ',' or ']'"

/-- A member of an object; a key that was seen before is refused. -/
def parseMember (value : Read ValueNode) (members : List (Bytes × ValueNode)) :
    Read (Bytes × ValueNode) := fun text ↦
  let text := skipWs text
  if text.head? ≠ some quoteByte then .error "expected string key"
  else do
    let (key, rest) ← parseString text
    if key ∈ members.map Prod.fst then .error "duplicate key"
    else
      let rest := skipWs rest
      if rest.head? ≠ some colonByte then .error "expected ':'"
      else do
        let (node, rest) ← value rest.tail
        .ok ((key, node), rest)

/-- `parse_object`, inside its level. -/
def parseObject (value : Read ValueNode) : Read (List (Bytes × ValueNode)) :=
  parseBracketed objectClose (parseMember value) "unterminated object" "expected ',' or '\x7d'"

/-- `parse_value`: `deeper` reads a value one level down, or says that there is no such level. -/
def parseValueWith (deeper : Except String (Read ValueNode)) : Read ValueNode := fun text ↦
  match skipWs text with
  | [] => .error "unexpected end of input"
  | c :: rest =>
    let text := c :: rest
    if c = objectOpen then do
      let value ← deeper
      let (_, rest) ← parseObject value text
      .ok (.object, rest)
    else if c = arrayOpen then do
      let value ← deeper
      let (elements, rest) ← parseArray value text
      .ok (.array elements, rest)
    else if c = quoteByte then do
      let (str, rest) ← parseString text
      .ok (.string str, rest)
    else if c = minusByte ∨ isDigit c then parseNumber text
    else if c = 't'.toUInt8 then parseLiteral (ascii "true") (.bool true) text
    else if c = 'f'.toUInt8 then parseLiteral (ascii "false") (.bool false) text
    else if c = 'n'.toUInt8 then parseLiteral (ascii "null") .null text
    else .error "unexpected character"

/-- A value, with so many levels of nesting left. -/
def parseValue : (left : Nat) → Read ValueNode
  | 0 => parseValueWith (.error "nesting too deep")
  | left + 1 => parseValueWith (.ok (parseValue left))

/-! ## The file -/

/-- The integer of a node that is one. -/
def ValueNode.toInt? : ValueNode → Option Int
  | .int integer => some integer
  | _ => none

/-- The shape a top-level value is stored under. -/
def ValueNode.shape : ValueNode → ConfigNode
  | .string str => .string str
  | .int integer => .int integer
  | .bool flag => .bool flag
  | .array elements =>
    match elements.mapM ValueNode.toInt? with
    | some ints => .intArray ints
    | none => .other
  | _ => .other

/-- `store`. -/
def ConfigFile.store (out : ConfigFile) (key : Bytes) (value : ValueNode) : ConfigFile :=
  out.set key value.shape

/-- The UTF-8 byte order mark. -/
def byteOrderMark : Bytes := [0xEF, 0xBB, 0xBF]

/-- `parser::parse`.  No key comes twice, so the order the members are stored in is as good as the
order of the source's map. -/
def parse (text : Bytes) : Except String ConfigFile :=
  let rest := skipWs (if text.take 3 = byteOrderMark then text.drop 3 else text)
  if rest.head? ≠ some objectOpen then .error "top-level value must be an object"
  else do
    let (top, rest) ← parseObject (parseValue (maxDepth - 1)) rest
    if skipWs rest ≠ [] then .error "trailing content after top-level object"
    else .ok (top.foldl (fun out member ↦ out.store member.1 member.2) {})

/-- What `parse_config_file` leaves behind: its result, and the two arguments it writes. -/
structure ParseOutcome where
  accepted : Bool
  out : ConfigFile
  error : String

/-- Failure leaves `out` empty, whatever it held; success leaves `error` as it was. -/
def parseConfigFile (bytes : Bytes) (_out : ConfigFile) (error : String) : ParseOutcome :=
  if bytes.length > maxInput then { accepted := false, out := {}, error := "input too large" }
  else
    match parse bytes with
    | .error message => { accepted := false, out := {}, error := message }
    | .ok result => { accepted := true, out := result, error }

end EosMesh
