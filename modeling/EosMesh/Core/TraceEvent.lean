import EosMesh.Common.JsonDocuments

/-!
# Trace records

`trace_event.cpp`: a trace value has no free text.  Its text is a label, a fingerprint or the
name of an enumerator, checked when the value is made, and a field is a name from a fixed schema
with a value. So nothing that a game or a peer chose the text of can reach a trace, whatever a
caller hands in.

A record is one object on one line: the envelope, the kind, and a body of the kind's own.  Six
serializers write a record each, on a writer whose calls are listed here in their order; none of
them asks the writer anything before `finish`, and each gives the empty text when it refuses a
record or the writer is not `ok` in the end.

* `fieldInfo` and `fieldAllowed` are the schema: the key of a field, the kind its value has to have,
  and the bodies it may stand in.
* `writeFields` drops a field that is unknown, misplaced, mistyped, invalid or repeated, and writes
  the rest; a field never makes its record fail.
* `validIdent`, `validTraceLabel` and `validFingerprint` are the three forms of text.
* `returnValueOk` holds a returned value against the type it is declared as.
* `TraceRecord` collects the arguments of the six serializers, so that what holds of any record can
  be said once: `Core.TraceRecords`.
-/

set_option autoImplicit false

namespace EosMesh

/-- The cap of the writer. -/
def maxRecordBytes : Nat := 60000

/-- The loop over the fields of a body writes no more of them. -/
def maxBodyFields : Nat := 32

/-- The longest label, and the longest name of an enumerator. -/
def maxLabelBytes : Nat := 64

/-- The longest name of a function or an event. -/
def maxNameBytes : Nat := 128

/-- The record bodies. -/
inductive RecordKind where
  | rkMeta
  | rkCall
  | rkCallback
  | rkReturn
  | rkNotify
  | rkNet
  deriving DecidableEq

/-! ## Texts -/

/-- The digits of a fingerprint. -/
def isLowerHex (c : UInt8) : Bool := isDigit c || ('a'.toUInt8 ≤ c && c ≤ 'f'.toUInt8)

/-- What a name may begin with. -/
def isIdentStart (c : UInt8) : Bool :=
  ('a'.toUInt8 ≤ c && c ≤ 'z'.toUInt8) || ('A'.toUInt8 ≤ c && c ≤ 'Z'.toUInt8) || c == '_'.toUInt8

/-- What may follow in a name. -/
def isIdentChar (c : UInt8) : Bool := isIdentStart c || isDigit c

/-- An identifier of at most `cap` bytes. -/
def validIdent (text : Bytes) (cap : Nat) : Bool :=
  match text with
  | [] => false
  | c :: rest => decide (text.length ≤ cap) && isIdentStart c && rest.all isIdentChar

/-- What divides a label. -/
def hashByte : UInt8 := '#'.toUInt8

/-- What a label may begin with. -/
def isLowerLetter (c : UInt8) : Bool := 'a'.toUInt8 ≤ c && c ≤ 'z'.toUInt8

/-- The characters of a label in front of its `#`. -/
def isLabelChar (c : UInt8) : Bool := isLowerLetter c || isDigit c || c == '_'.toUInt8

/-- `valid_label`: a label such as `session#3`. -/
def validTraceLabel (text : Bytes) : Bool :=
  if text.isEmpty || text.length > maxLabelBytes then false
  else
    match text.findIdx? (· == hashByte) with
    | none => false
    | some hash =>
      if hash == 0 || hash + 1 ≥ text.length then false
      else if !(text.head?.any isLowerLetter) then false
      else (text.take hash).all isLabelChar && (text.drop (hash + 1)).all isDigit

/-- Sixteen lowercase hexadecimal digits. -/
def validFingerprint (text : Bytes) : Bool := text.length == 16 && text.all isLowerHex

/-! ## Values -/

/-- The kinds of value.  The last three are texts, of a form each. -/
inductive TraceKind where
  | vInt
  | vUint
  | vFlag
  | vLabel
  | vFingerprint
  | vEnum
  deriving DecidableEq

/-- A value with the verdict on its form.  The factories below are the only way to a valid one. -/
structure TraceValue where
  type : TraceKind := .vInt
  intValue : Int64 := 0
  uintValue : UInt64 := 0
  flagValue : Bool := false
  text : Bytes := []
  valid : Bool := false

/-- A number is always valid. -/
def tvInt (value : Int64) : TraceValue := { type := .vInt, intValue := value, valid := true }

/-- A number is always valid. -/
def tvUint (value : UInt64) : TraceValue := { type := .vUint, uintValue := value, valid := true }

/-- A flag is always valid. -/
def tvFlag (value : Bool) : TraceValue := { type := .vFlag, flagValue := value, valid := true }

/-- A label stands for an id that must not be in a trace: `LabelRegistry` gives it out. -/
def tvLabel (value : Bytes) : TraceValue :=
  { type := .vLabel, text := value, valid := validTraceLabel value }

/-- The digest of a peer's key, as far as a trace shows it. -/
def tvFingerprint (value : Bytes) : TraceValue :=
  { type := .vFingerprint, text := value, valid := validFingerprint value }

/-- The name of an enumerator, as the source spells it. -/
def tvEnum (value : Bytes) : TraceValue :=
  { type := .vEnum, text := value, valid := validIdent value maxLabelBytes }

/-! ## Fields -/

/-- The fields of the schema. An id can also be cast from a number that names none of them. -/
inductive FieldId where
  | invalid
  | peer
  | peerFp
  | bytes
  | channel
  | reliability
  | portFirst
  | portLast
  | reason
  | handle
  | «local»
  | target
  | puid
  | eaid
  | account
  | socket
  | lobby
  | session
  | credType
  | status
  | index
  | count
  | len
  | droppedFiles
  | droppedBytes
  | source
  | level
  | configField
  | action
  | port
  | cast (value : Int32)
  deriving DecidableEq

/-- A value under the name that the schema has for it. -/
structure TraceField where
  id : FieldId
  value : TraceValue

/-- `make_field`: it checks nothing, since the body it ends up in is not known yet. -/
def makeField (id : FieldId) (value : TraceValue) : TraceField := { id, value }

/-- The key of a field and the kind of its value. -/
def fieldInfo : FieldId → Option (Bytes × TraceKind)
  | .peer => some (ascii "peer", .vLabel)
  | .peerFp => some (ascii "peer_fp", .vFingerprint)
  | .bytes => some (ascii "bytes", .vUint)
  | .channel => some (ascii "channel", .vInt)
  | .reliability => some (ascii "reliability", .vEnum)
  | .portFirst => some (ascii "port_first", .vUint)
  | .portLast => some (ascii "port_last", .vUint)
  | .reason => some (ascii "reason", .vEnum)
  | .handle => some (ascii "handle", .vLabel)
  | .local => some (ascii "local", .vLabel)
  | .target => some (ascii "target", .vLabel)
  | .puid => some (ascii "puid", .vLabel)
  | .eaid => some (ascii "eaid", .vLabel)
  | .account => some (ascii "account", .vLabel)
  | .socket => some (ascii "socket", .vLabel)
  | .lobby => some (ascii "lobby", .vLabel)
  | .session => some (ascii "session", .vLabel)
  | .credType => some (ascii "cred_type", .vEnum)
  | .status => some (ascii "status", .vEnum)
  | .index => some (ascii "index", .vUint)
  | .count => some (ascii "count", .vUint)
  | .len => some (ascii "len", .vUint)
  | .droppedFiles => some (ascii "dropped_files", .vUint)
  | .droppedBytes => some (ascii "dropped_bytes", .vUint)
  | .source => some (ascii "source", .vEnum)
  | .level => some (ascii "level", .vEnum)
  | .configField => some (ascii "field", .vEnum)
  | .action => some (ascii "action", .vEnum)
  | .port => some (ascii "port", .vUint)
  | .invalid => none
  | .cast _ => none

/-- The fields each body may carry. -/
def fieldsAllowed : RecordKind → List FieldId
  | .rkMeta =>
    [.peerFp, .configField, .source, .reason, .action, .level, .droppedFiles, .droppedBytes]
  | .rkNet =>
    [.peer, .peerFp, .bytes, .channel, .reliability, .port, .portFirst, .portLast, .reason,
      .socket, .count]
  | .rkCall =>
    [.credType, .local, .target, .account, .socket, .channel, .reliability, .status, .index,
      .count, .len, .portFirst, .portLast]
  | .rkCallback =>
    [.puid, .eaid, .local, .target, .account, .handle, .status, .count, .session, .lobby]
  | .rkReturn => [.handle, .session, .lobby, .len, .count]
  | .rkNotify => [.target, .local, .status]

/-- `field_allowed`. -/
def fieldAllowed (body : RecordKind) (id : FieldId) : Bool := decide (id ∈ fieldsAllowed body)

/-- A value, by its kind; the texts need no other treatment than any string. -/
def writeValue (value : TraceValue) : WriterCall :=
  match value.type with
  | .vInt => .valueInt value.intValue
  | .vUint => .valueUint value.uintValue
  | .vFlag => .valueBool value.flagValue
  | .vLabel | .vFingerprint | .vEnum => .valueString value.text

/-- The loop over the fields, which remembers the ids it has written. -/
def writeFieldsFrom (body : RecordKind) : (seen : List FieldId) → List TraceField → List WriterCall
  | _, [] => []
  | seen, field :: fields =>
    if seen.length < maxBodyFields then
      match fieldInfo field.id with
      | none => writeFieldsFrom body seen fields
      | some (name, kind) =>
        if !fieldAllowed body field.id then writeFieldsFrom body seen fields
        else if field.value.type ≠ kind ∨ field.value.valid = false then
          writeFieldsFrom body seen fields
        else if field.id ∈ seen then writeFieldsFrom body seen fields
        else
          .key name :: writeValue field.value :: writeFieldsFrom body (seen ++ [field.id]) fields
    else []

/-- `write_fields`: the fields of a body that belong there, each once. -/
def writeFields (body : RecordKind) (fields : List TraceField) : List WriterCall :=
  writeFieldsFrom body [] fields

/-- Fields in an object of their own. -/
def writeGroup (name : Bytes) (body : RecordKind) (fields : List TraceField) : List WriterCall :=
  .key name :: .beginObject :: (writeFields body fields ++ [.endObject])

/-! ## Envelopes and returns -/

/-- What every record begins with: which version of the format, which record it is, when, and from
which process, instance and thread. -/
structure TraceEnvelope where
  schemaVersion : UInt32 := 1
  seq : UInt64 := 0
  tMonoNs : UInt64 := 0
  pid : UInt64 := 0
  inst : Bytes := []
  tid : Bytes := []

/-- `write_envelope`.  An instance that has no label yet is null, and no field is left out. -/
def writeEnvelope (env : TraceEnvelope) (kind : Bytes) : List WriterCall :=
  [.fieldUint (ascii "v") env.schemaVersion.toUInt64,
    .fieldUint (ascii "seq") env.seq,
    .fieldUint (ascii "t") env.tMonoNs,
    .fieldUint (ascii "pid") env.pid,
    if env.inst.isEmpty then .fieldNull (ascii "inst") else .fieldString (ascii "inst") env.inst,
    .fieldString (ascii "tid") env.tid,
    .fieldString (ascii "kind") kind]

/-- The line of a record: what the writer holds, if it has completed a document. -/
def finish (calls : List WriterCall) : Bytes :=
  let writer := JsonWriter.run maxRecordBytes calls
  if writer.ok then writer.out else []

/-- A result of the SDK, with its name. -/
structure TraceResultCode where
  code : Int32 := 0
  name : Bytes := []

/-- A call gives a result, or another value, or nothing. -/
inductive ReturnKind where
  | rResult
  | rValue
  | rVoid
  deriving DecidableEq

/-- What a call returned: its result or its value, by the kind, and what it wrote to its out
parameters. -/
structure TraceReturn where
  type : ReturnKind := .rVoid
  result : TraceResultCode := {}
  valueType : Bytes := []
  value : TraceValue := {}
  valueIsNull : Bool := false
  out : List TraceField := []

/-- The kind of value that goes with a declared type. -/
def returnValueOk (value : TraceReturn) : Bool :=
  let t := value.valueType
  let k := value.value.type
  if value.valueIsNull then
    !value.value.valid && (t == ascii "handle" || t == ascii "notification_id")
  else if !value.value.valid then false
  else if t == ascii "bool" then k == .vFlag
  else if t == ascii "count" || t == ascii "flags" || t == ascii "length" then k == .vUint
  else if t == ascii "handle" || t == ascii "notification_id" then k == .vLabel
  else if t == ascii "enum" then k == .vEnum
  else false

/-- `return_void`: what a scope returns until its call says otherwise. -/
def returnVoid : TraceReturn := { type := .rVoid }

/-! ## The serializers -/

/-- A record's calls: one object, with the envelope in front of the body. -/
def recordCalls (env : TraceEnvelope) (kind : Bytes) (body : List WriterCall) : List WriterCall :=
  .beginObject :: (writeEnvelope env kind ++ body ++ [.endObject])

/-- The correlation id, if there is one. -/
def writeCorr (corr : Bytes) : List WriterCall :=
  if corr.isEmpty then [] else [.fieldString (ascii "corr") corr]

/-- `serialize_meta`.  Like the other five it gives the empty text for a record it refuses. -/
def serializeMeta (env : TraceEnvelope) (event : Bytes) (fields : List TraceField) : Bytes :=
  if !validIdent event maxNameBytes then []
  else
    finish (recordCalls env (ascii "meta")
      (.fieldString (ascii "event") event :: writeFields .rkMeta fields))

/-- `serialize_call`. -/
def serializeCall (env : TraceEnvelope) (fn : Bytes) (apiVersion : Int32) (corr : Bytes)
    (args : List TraceField) : Bytes :=
  if !validIdent fn maxNameBytes || (!corr.isEmpty && !validTraceLabel corr) then []
  else
    finish (recordCalls env (ascii "call")
      (.fieldString (ascii "fn") fn :: .fieldInt (ascii "api") apiVersion.toInt64 ::
        (writeCorr corr ++ writeGroup (ascii "args") .rkCall args)))

/-- What a return produced. -/
def writeReturn (value : TraceReturn) : List WriterCall :=
  match value.type with
  | .rResult =>
    [.key (ascii "result"), .beginObject,
      .fieldInt (ascii "code") value.result.code.toInt64,
      .fieldString (ascii "name") value.result.name, .endObject]
  | .rValue =>
    [.key (ascii "value"), .beginObject,
      .fieldString (ascii "type") value.valueType, .key (ascii "v"),
      if value.valueIsNull then .valueNull else writeValue value.value, .endObject]
  | .rVoid => [.fieldBool (ascii "void") true]

/-- `serialize_return`: the value has to be of its declared type, and a result has to have a name.
-/
def serializeReturn (env : TraceEnvelope) (fn corr : Bytes) (value : TraceReturn) : Bytes :=
  if !validIdent fn maxNameBytes || (!corr.isEmpty && !validTraceLabel corr) then []
  else if value.type == .rValue && !returnValueOk value then []
  else if value.type == .rResult && !validIdent value.result.name maxNameBytes then []
  else
    finish (recordCalls env (ascii "return")
      (.fieldString (ascii "fn") fn :: (writeCorr corr ++ (writeReturn value ++
        if value.out.isEmpty then [] else writeGroup (ascii "out") .rkReturn value.out))))

/-- `serialize_callback`: a result without a name is written as null. -/
def serializeCallback (env : TraceEnvelope) (fn corr : Bytes) (result : TraceResultCode)
    (payload : List TraceField) : Bytes :=
  if !validIdent fn maxNameBytes || (!corr.isEmpty && !validTraceLabel corr) then []
  else if !result.name.isEmpty && !validIdent result.name maxNameBytes then []
  else
    finish (recordCalls env (ascii "callback")
      (.fieldString (ascii "fn") fn :: (writeCorr corr ++
        (.key (ascii "result") :: .beginObject ::
          .fieldInt (ascii "code") result.code.toInt64 ::
          (if result.name.isEmpty then .fieldNull (ascii "name")
            else .fieldString (ascii "name") result.name) ::
          .endObject :: writeGroup (ascii "payload") .rkCallback payload))))

/-- `serialize_notify`: a listener is registered, removed or fired, and has a label. -/
def serializeNotify (env : TraceEnvelope) (event action id : Bytes) (fields : List TraceField) :
    Bytes :=
  let actionOk := action == ascii "register" || action == ascii "remove" || action == ascii "fire"
  if !validIdent event maxNameBytes || !actionOk || !validTraceLabel id then []
  else
    finish (recordCalls env (ascii "notify")
      (.fieldString (ascii "event") event :: .fieldString (ascii "action") action ::
        .fieldString (ascii "id") id :: writeFields .rkNotify fields))

/-- `serialize_net`. -/
def serializeNet (env : TraceEnvelope) (event : Bytes) (fields : List TraceField) : Bytes :=
  if !validIdent event maxNameBytes then []
  else
    finish (recordCalls env (ascii "net")
      (.fieldString (ascii "event") event :: writeFields .rkNet fields))

/-- The arguments of a serializer, for each kind of record. -/
inductive TraceRecord where
  | ofMeta (event : Bytes) (fields : List TraceField)
  | ofCall (fn : Bytes) (apiVersion : Int32) (corr : Bytes) (args : List TraceField)
  | ofReturn (fn corr : Bytes) (value : TraceReturn)
  | ofCallback (fn corr : Bytes) (result : TraceResultCode) (payload : List TraceField)
  | ofNotify (event action id : Bytes) (fields : List TraceField)
  | ofNet (event : Bytes) (fields : List TraceField)

namespace TraceRecord

/-- The body that a record has. -/
def kind : TraceRecord → RecordKind
  | .ofMeta _ _ => .rkMeta
  | .ofCall _ _ _ _ => .rkCall
  | .ofReturn _ _ _ => .rkReturn
  | .ofCallback _ _ _ _ => .rkCallback
  | .ofNotify _ _ _ _ => .rkNotify
  | .ofNet _ _ => .rkNet

/-- The fields the caller gives. -/
def fields : TraceRecord → List TraceField
  | .ofMeta _ fields => fields
  | .ofCall _ _ _ args => args
  | .ofReturn _ _ value => value.out
  | .ofCallback _ _ _ payload => payload
  | .ofNotify _ _ _ fields => fields
  | .ofNet _ fields => fields

/-- The serializer of the record's kind. -/
def serialize (env : TraceEnvelope) : TraceRecord → Bytes
  | .ofMeta event fields => serializeMeta env event fields
  | .ofCall fn apiVersion corr args => serializeCall env fn apiVersion corr args
  | .ofReturn fn corr value => serializeReturn env fn corr value
  | .ofCallback fn corr result payload => serializeCallback env fn corr result payload
  | .ofNotify event action id fields => serializeNotify env event action id fields
  | .ofNet event fields => serializeNet env event fields

end TraceRecord

end EosMesh
