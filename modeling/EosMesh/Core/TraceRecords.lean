import EosMesh.Core.TraceEvent

/-!
# Trace records are well formed and carry no raw text

What a serializer puts out is nothing, or one object: the envelope, and a body of the shape its kind
has.  The envelope's own strings may hold anything and are written as `sanitize` leaves them; the
strings of a body are labels, fingerprints and identifiers only, whatever the caller gives.  A trace
is meant to be shown around, so this is what keeps a player's name out of it.

The shapes are stated with no word of the serializers, so that the one can be held against the
other.

* `IsLabel`, `IsFingerprint` and `IsIdent` are the texts a body may hold.  They are made of ASCII,
  so nothing has to be escaped in them (`PlainScalar`).
* `HasKind` has the values of a field by the kind that its key declares, `FieldsOf` the members that
  are fields of a body, each once at most, and `BodyOf` the body of each kind of record.  `LineOf`
  puts an envelope in front.
* `Spells` says that some calls of the writer tell some members of an object.
  `writeFieldsFrom_tells` is the loop over the fields, whose invariant is the set of keys seen;
  `writeReturn_tells` and `writeCorr_tells` are the two parts that check more.
* `BodyOf.plain`, `BodyOf.unique` and `BodyOf.keys_nodup` are what follows from the shape alone:
  plain text, and no key twice.

`records_well_formed` puts them together, for any record whose values are made by the constructors
of `Core.TraceEvent`; what the writer does with the calls comes from `Common.JsonDocuments`.
-/

set_option autoImplicit false

namespace EosMesh

open Lib

/-! ## Texts -/

/-- A lowercase letter and word characters, a `#`, and digits. -/
def IsLabel (text : Bytes) : Prop :=
  ∃ first word digits, text = first :: (word ++ hashByte :: digits) ∧ isLowerLetter first = true ∧
    (∀ c ∈ word, isLabelChar c = true) ∧ digits ≠ [] ∧ ∀ c ∈ digits, isDigit c = true

/-- Sixteen hexadecimal digits, in lower case. -/
def IsFingerprint (text : Bytes) : Prop := text.length = 16 ∧ ∀ c ∈ text, isLowerHex c = true

/-- A name as a programming language has them. -/
def IsIdent (text : Bytes) : Prop :=
  ∃ first rest, text = first :: rest ∧ isIdentStart first = true ∧ ∀ c ∈ rest, isIdentChar c = true

theorem isIdent_of_valid {text : Bytes} {cap : Nat} (h : validIdent text cap = true) :
    IsIdent text := by
  cases text with
  | nil => cases h
  | cons first rest =>
    rw [validIdent, Bool.and_eq_true, Bool.and_eq_true] at h
    exact ⟨first, rest, rfl, h.1.2, List.all_eq_true.1 h.2⟩

theorem isFingerprint_of_valid {text : Bytes} (h : validFingerprint text = true) :
    IsFingerprint text := by
  rw [validFingerprint, Bool.and_eq_true, beq_iff_eq] at h
  exact ⟨h.1, List.all_eq_true.1 h.2⟩

theorem isLabel_of_valid {text : Bytes} (h : validTraceLabel text = true) : IsLabel text := by
  rw [validTraceLabel] at h
  cases hfind : text.findIdx? (· == hashByte) with
  | none => simp [hfind] at h
  | some hash =>
    simp only [hfind] at h
    split_ifs at h with hsize hplace hfirst
    rw [Bool.and_eq_true, List.all_eq_true, List.all_eq_true] at h
    obtain ⟨hword, hdigits⟩ := h
    simp only [Bool.or_eq_true, beq_iff_eq, decide_eq_true_eq, not_or, not_le] at hplace
    obtain ⟨hzero, hroom⟩ := hplace
    obtain ⟨hlt, hbyte, -⟩ := List.findIdx?_eq_some_iff_getElem.1 hfind
    cases text with
    | nil => cases hlt
    | cons first rest =>
      have hlower : isLowerLetter first = true := by simpa using hfirst
      obtain ⟨k, rfl⟩ : ∃ k, hash = k + 1 := ⟨hash - 1, by omega⟩
      have hsplit : rest = rest.take k ++ hashByte :: rest.drop (k + 1) := by
        rw [List.getElem_cons_succ, beq_iff_eq] at hbyte
        have hk : k < rest.length := by simpa using hlt
        rw [← hbyte, ← List.drop_eq_getElem_cons hk, List.take_append_drop]
      refine ⟨first, rest.take k, rest.drop (k + 1), congrArg (first :: ·) hsplit, hlower,
        fun c hc ↦ hword c (List.mem_cons_of_mem first hc), ?_, hdigits⟩
      intro hnil
      have hlen := List.drop_eq_nil_iff.1 hnil
      rw [List.length_cons] at hroom
      omega

/-! ### They are ASCII -/

/-- A text of nothing but ASCII. -/
def AsciiText (text : Bytes) : Prop := ∀ c ∈ text, c.toNat < 0x80

instance (text : Bytes) : Decidable (AsciiText text) :=
  decidable_of_iff (text.all (fun c ↦ c.toNat.blt 0x80) = true) (by simp [AsciiText])

theorem sanitize_ascii {text : Bytes} (h : AsciiText text) : sanitize text = text := by
  obtain ⟨chars, rfl⟩ := wellFormedUtf8_of_ascii h
  exact sanitize_encode chars

theorem lt_of_le_byte {c top : UInt8} (h : decide (c ≤ top) = true) (htop : top.toNat < 0x80) :
    c.toNat < 0x80 :=
  (UInt8.le_iff_toNat_le.1 (of_decide_eq_true h)).trans_lt htop

theorem isLowerLetter_ascii {c : UInt8} (h : isLowerLetter c = true) : c.toNat < 0x80 :=
  lt_of_le_byte (Bool.and_eq_true_iff.1 h).2 (by decide)

theorem isLowerHex_ascii {c : UInt8} (h : isLowerHex c = true) : c.toNat < 0x80 := by
  rcases Bool.or_eq_true_iff.1 h with h | h
  · exact isDigit_ascii h
  · exact lt_of_le_byte (Bool.and_eq_true_iff.1 h).2 (by decide)

theorem underscore_ascii {c : UInt8} (h : (c == '_'.toUInt8) = true) : c.toNat < 0x80 := by
  rw [beq_iff_eq.1 h]
  decide

theorem isIdentStart_ascii {c : UInt8} (h : isIdentStart c = true) : c.toNat < 0x80 := by
  rw [isIdentStart, Bool.or_eq_true, Bool.or_eq_true, Bool.and_eq_true, Bool.and_eq_true] at h
  rcases h with (h | h) | h
  · exact lt_of_le_byte h.2 (by decide)
  · exact lt_of_le_byte h.2 (by decide)
  · exact underscore_ascii h

theorem isIdentChar_ascii {c : UInt8} (h : isIdentChar c = true) : c.toNat < 0x80 := by
  rcases Bool.or_eq_true_iff.1 h with h | h
  · exact isIdentStart_ascii h
  · exact isDigit_ascii h

theorem isLabelChar_ascii {c : UInt8} (h : isLabelChar c = true) : c.toNat < 0x80 := by
  rw [isLabelChar, Bool.or_eq_true, Bool.or_eq_true] at h
  rcases h with (h | h) | h
  · exact isLowerLetter_ascii h
  · exact isDigit_ascii h
  · exact underscore_ascii h

theorem IsIdent.ascii {text : Bytes} (h : IsIdent text) : AsciiText text := by
  obtain ⟨first, rest, rfl, hfirst, hrest⟩ := h
  exact List.forall_mem_cons.2 ⟨isIdentStart_ascii hfirst,
    fun c hc ↦ isIdentChar_ascii (hrest c hc)⟩

theorem IsFingerprint.ascii {text : Bytes} (h : IsFingerprint text) : AsciiText text :=
  fun c hc ↦ isLowerHex_ascii (h.2 c hc)

theorem IsLabel.ascii {text : Bytes} (h : IsLabel text) : AsciiText text := by
  obtain ⟨first, word, digits, rfl, hfirst, hword, -, hdigits⟩ := h
  refine List.forall_mem_cons.2 ⟨isLowerLetter_ascii hfirst, fun c hc ↦ ?_⟩
  rcases List.mem_append.1 hc with hc | hc
  · exact isLabelChar_ascii (hword c hc)
  · rcases List.mem_cons.1 hc with rfl | hc
    · decide
    · exact isDigit_ascii (hdigits c hc)

/-- A scalar without raw text. -/
def PlainScalar : JsonScalar → Prop
  | .string text => IsLabel text ∨ IsFingerprint text ∨ IsIdent text
  | _ => True

theorem PlainScalar.sanitized {value : JsonScalar} (h : PlainScalar value) :
    value.sanitized = value := by
  cases value with
  | string text =>
    have hascii : AsciiText text := by
      rcases h with h | h | h
      · exact h.ascii
      · exact h.ascii
      · exact h.ascii
    rw [JsonScalar.sanitized, sanitize_ascii hascii]
  | _ => rfl

/-! ## The shape of a record -/

/-- A string as a value. -/
def jsonString (text : Bytes) : Json := .scalar (.string text)

/-- An integer as a value. -/
def jsonInt (value : Int) : Json := .scalar (.int value)

/-- The values of each kind. -/
inductive HasKind : TraceKind → Json → Prop
  | int (value : Int64) : HasKind .vInt (jsonInt value.toInt)
  | uint (value : UInt64) : HasKind .vUint (jsonInt value.toNat)
  | flag (value : Bool) : HasKind .vFlag (.scalar (.bool value))
  | label {text : Bytes} (h : IsLabel text) : HasKind .vLabel (jsonString text)
  | fingerprint {text : Bytes} (h : IsFingerprint text) : HasKind .vFingerprint (jsonString text)
  | enum {text : Bytes} (h : IsIdent text) : HasKind .vEnum (jsonString text)

/-- A field under its key, with a value of its kind. -/
def FieldOf (id : FieldId) (member : Bytes × Json) : Prop :=
  ∃ kind, fieldInfo id = some (member.1, kind) ∧ HasKind kind member.2

/-- Members that are fields of a body, each of them once at most. -/
def FieldsOf (body : RecordKind) (members : List (Bytes × Json)) : Prop :=
  ∃ ids : List FieldId, ids.Nodup ∧ ids ⊆ fieldsAllowed body ∧ List.Forall₂ FieldOf ids members

/-- The correlation id is there or not. -/
def CorrOf (members : List (Bytes × Json)) : Prop :=
  members = [] ∨ ∃ corr, IsLabel corr ∧ members = [(ascii "corr", jsonString corr)]

/-- The types a return may declare, and the kind of value each stands for. -/
def returnTypes : List (Bytes × TraceKind) :=
  [(ascii "bool", .vFlag), (ascii "count", .vUint), (ascii "flags", .vUint),
    (ascii "length", .vUint), (ascii "handle", .vLabel), (ascii "notification_id", .vLabel),
    (ascii "enum", .vEnum)]

/-- The types whose value may be absent. -/
def nullableTypes : List Bytes := [ascii "handle", ascii "notification_id"]

/-- What a return produced. -/
inductive ReturnOf : Bytes × Json → Prop
  | result (code : Int32) {name : Bytes} (hname : IsIdent name) :
    ReturnOf (ascii "result",
      .object [(ascii "code", jsonInt code.toInt), (ascii "name", jsonString name)])
  | value {type : Bytes} {kind : TraceKind} {v : Json} (htype : (type, kind) ∈ returnTypes)
    (hv : HasKind kind v) :
    ReturnOf (ascii "value", .object [(ascii "type", jsonString type), (ascii "v", v)])
  | absent {type : Bytes} (htype : type ∈ nullableTypes) :
    ReturnOf (ascii "value",
      .object [(ascii "type", jsonString type), (ascii "v", .scalar .null)])
  | void : ReturnOf (ascii "void", .scalar (.bool true))

/-- The bodies of each kind of record. -/
inductive BodyOf : RecordKind → List (Bytes × Json) → Prop
  | ofMeta {event : Bytes} {fields : List (Bytes × Json)} (hevent : IsIdent event)
    (hfields : FieldsOf .rkMeta fields) :
    BodyOf .rkMeta ((ascii "event", jsonString event) :: fields)
  | ofCall {fn : Bytes} (api : Int32) {corr args : List (Bytes × Json)} (hfn : IsIdent fn)
    (hcorr : CorrOf corr) (hargs : FieldsOf .rkCall args) :
    BodyOf .rkCall ((ascii "fn", jsonString fn) :: (ascii "api", jsonInt api.toInt) ::
      (corr ++ [(ascii "args", .object args)]))
  | ofReturn {fn : Bytes} {corr out : List (Bytes × Json)} {produced : Bytes × Json}
    (hfn : IsIdent fn) (hcorr : CorrOf corr) (hproduced : ReturnOf produced)
    (hout : out = [] ∨ ∃ fields, FieldsOf .rkReturn fields ∧ out =
      [(ascii "out", .object fields)]) :
    BodyOf .rkReturn ((ascii "fn", jsonString fn) :: (corr ++ (produced :: out)))
  | ofCallback {fn : Bytes} (code : Int32) {corr payload : List (Bytes × Json)} {name : Json}
    (hfn : IsIdent fn) (hcorr : CorrOf corr)
    (hname : name = .scalar .null ∨ ∃ text, IsIdent text ∧ name = jsonString text)
    (hpayload : FieldsOf .rkCallback payload) :
    BodyOf .rkCallback ((ascii "fn", jsonString fn) :: (corr ++
      [(ascii "result", .object [(ascii "code", jsonInt code.toInt), (ascii "name", name)]),
        (ascii "payload", .object payload)]))
  | ofNotify {event action id : Bytes} {fields : List (Bytes × Json)} (hevent : IsIdent event)
    (haction : action ∈ [ascii "register", ascii "remove", ascii "fire"]) (hid : IsLabel id)
    (hfields : FieldsOf .rkNotify fields) :
    BodyOf .rkNotify ((ascii "event", jsonString event) :: (ascii "action", jsonString action) ::
      (ascii "id", jsonString id) :: fields)
  | ofNet {event : Bytes} {fields : List (Bytes × Json)} (hevent : IsIdent event)
    (hfields : FieldsOf .rkNet fields) :
    BodyOf .rkNet ((ascii "event", jsonString event) :: fields)

/-- The name a record gives its kind. -/
def RecordKind.name : RecordKind → Bytes
  | .rkMeta => ascii "meta"
  | .rkCall => ascii "call"
  | .rkCallback => ascii "callback"
  | .rkReturn => ascii "return"
  | .rkNotify => ascii "notify"
  | .rkNet => ascii "net"

/-- The members in front of a body, with the strings as `clean` leaves them. -/
def envelopeMembers (clean : Bytes → Bytes) (env : TraceEnvelope) (kind : Bytes) :
    List (Bytes × Json) :=
  [(ascii "v", jsonInt env.schemaVersion.toNat),
    (ascii "seq", jsonInt env.seq.toNat),
    (ascii "t", jsonInt env.tMonoNs.toNat),
    (ascii "pid", jsonInt env.pid.toNat),
    (ascii "inst", if env.inst.isEmpty then .scalar .null else jsonString (clean env.inst)),
    (ascii "tid", jsonString (clean env.tid)),
    (ascii "kind", jsonString kind)]

/-- The keys that every record has, in their order. -/
def envelopeKeys : List Bytes :=
  [ascii "v", ascii "seq", ascii "t", ascii "pid", ascii "inst", ascii "tid", ascii "kind"]

theorem envelopeMembers_keys (clean : Bytes → Bytes) (env : TraceEnvelope) (kind : Bytes) :
    (envelopeMembers clean env kind).map Prod.fst = envelopeKeys :=
  rfl

/-! ## What follows from the shape -/

/-- The keys and the strings of some members are plain. -/
abbrev PlainMembers (members : List (Bytes × Json)) : Prop :=
  holdsMembers AsciiText PlainScalar members

theorem PlainMembers.append {members members' : List (Bytes × Json)} (h : PlainMembers members)
    (h' : PlainMembers members') : PlainMembers (members ++ members') := by
  rw [PlainMembers, holdsMembers_iff] at h h' ⊢
  exact List.forall_mem_append.2 ⟨h, h'⟩

theorem HasKind.plain {kind : TraceKind} {value : Json} (h : HasKind kind value) :
    value.Holds AsciiText PlainScalar := by
  cases h with
  | int value => exact trivial
  | uint value => exact trivial
  | flag value => exact trivial
  | label h => exact .inl h
  | fingerprint h => exact .inr (.inl h)
  | enum h => exact .inr (.inr h)

theorem HasKind.unique {kind : TraceKind} {value : Json} (h : HasKind kind value) :
    value.UniqueKeys := by
  cases h <;> exact trivial

/-- The key of a field. -/
def FieldId.name (id : FieldId) : Bytes := ((fieldInfo id).map Prod.fst).getD []

theorem FieldOf.name {id : FieldId} {member : Bytes × Json} (h : FieldOf id member) :
    member.1 = id.name := by
  obtain ⟨kind, hinfo, -⟩ := h
  rw [FieldId.name, hinfo]
  rfl

/-! ### The fixed names and words -/

/-- The names of the members of a body. -/
def bodyNames : List Bytes :=
  [ascii "event", ascii "fn", ascii "api", ascii "args", ascii "out", ascii "action", ascii "id"]

/-- The names within the outcome of a callback. -/
def outcomeNames : List Bytes := [ascii "result", ascii "code", ascii "name", ascii "payload"]

/-- The names within what a return produced. -/
def returnNames : List Bytes :=
  [ascii "result", ascii "code", ascii "name", ascii "value", ascii "type", ascii "v", ascii "void"]

theorem fixedNames_ascii :
    (∀ body, ∀ id ∈ fieldsAllowed body, AsciiText id.name) ∧
      (∀ kind : RecordKind, AsciiText kind.name) ∧ (∀ name ∈ envelopeKeys, AsciiText name) ∧
      (∀ name ∈ bodyNames, AsciiText name) ∧ (∀ name ∈ outcomeNames, AsciiText name) ∧
      (∀ name ∈ returnNames, AsciiText name) ∧ AsciiText (ascii "corr") := by
  refine ⟨fun body ↦ ?_, fun kind ↦ ?_, ?_⟩
  · cases body <;> decide +kernel
  · cases kind <;> decide +kernel
  · decide +kernel

/-- The types a return declares and the verbs of a notification. -/
theorem fixedWords_ident :
    (∀ entry ∈ returnTypes, validIdent entry.1 maxNameBytes = true) ∧
      (∀ type ∈ nullableTypes, validIdent type maxNameBytes = true) ∧
      ∀ verb ∈ [ascii "register", ascii "remove", ascii "fire"],
        validIdent verb maxNameBytes = true := by
  decide +kernel

/-- The keys that each object of a record may have. -/
theorem fixedKeys_nodup :
    (∀ body, ((fieldsAllowed body).map FieldId.name).Nodup) ∧
      [ascii "code", ascii "name"].Nodup ∧ [ascii "type", ascii "v"].Nodup ∧
      ((envelopeKeys ++ [ascii "event"]) ++ (fieldsAllowed .rkMeta).map FieldId.name).Nodup ∧
      (envelopeKeys ++ (ascii "fn" :: ascii "api" :: ([ascii "corr"] ++ [ascii "args"]))).Nodup ∧
      (∀ key ∈ [ascii "result", ascii "value", ascii "void"],
        (envelopeKeys ++ (ascii "fn" :: ([ascii "corr"] ++ (key :: [ascii "out"])))).Nodup) ∧
      (envelopeKeys ++ (ascii "fn" ::
        ([ascii "corr"] ++ [ascii "result", ascii "payload"]))).Nodup ∧
      ((envelopeKeys ++ [ascii "event", ascii "action", ascii "id"]) ++
        (fieldsAllowed .rkNotify).map FieldId.name).Nodup ∧
      ((envelopeKeys ++ [ascii "event"]) ++ (fieldsAllowed .rkNet).map FieldId.name).Nodup := by
  refine ⟨fun body ↦ ?_, ?_⟩
  · cases body <;> decide +kernel
  · decide +kernel

section Fields

variable {body : RecordKind} {members : List (Bytes × Json)}

theorem FieldsOf.keys (h : FieldsOf body members) : ∃ ids : List FieldId, ids.Nodup ∧
    ids ⊆ fieldsAllowed body ∧ members.map Prod.fst = ids.map FieldId.name := by
  obtain ⟨ids, hnodup, hallowed, hfields⟩ := h
  refine ⟨ids, hnodup, hallowed, ?_⟩
  clear hnodup hallowed
  induction hfields with
  | nil => rfl
  | cons hfield _ ih => rw [List.map_cons, List.map_cons, hfield.name, ih]

theorem FieldsOf.mem (h : FieldsOf body members) {member : Bytes × Json} (hmem : member ∈ members) :
    ∃ id ∈ fieldsAllowed body, FieldOf id member := by
  obtain ⟨ids, -, hallowed, hfields⟩ := h
  induction hfields with
  | nil => cases hmem
  | cons hfield _ ih =>
    obtain ⟨hid, hids⟩ := List.cons_subset.1 hallowed
    rcases List.mem_cons.1 hmem with rfl | hmem
    · exact ⟨_, hid, hfield⟩
    · exact ih hmem hids

theorem FieldsOf.plain (h : FieldsOf body members) : PlainMembers members := by
  rw [PlainMembers, holdsMembers_iff]
  intro member hmem
  obtain ⟨id, hid, hfield⟩ := h.mem hmem
  rw [hfield.name]
  obtain ⟨kind, -, hkind⟩ := hfield
  exact ⟨fixedNames_ascii.1 body id hid, hkind.plain⟩

theorem FieldsOf.unique (h : FieldsOf body members) : uniqueMembers members := by
  rw [uniqueMembers_iff]
  intro member hmem
  obtain ⟨id, -, kind, -, hkind⟩ := h.mem hmem
  exact hkind.unique

/-- Behind keys that no allowed field has, the fields repeat no key. -/
theorem FieldsOf.keys_nodup (h : FieldsOf body members) {fixed : List Bytes}
    (hfixed : (fixed ++ (fieldsAllowed body).map FieldId.name).Nodup) :
    (fixed ++ members.map Prod.fst).Nodup := by
  obtain ⟨ids, hnodup, hallowed, hkeys⟩ := h.keys
  obtain ⟨hfirst, hnames, hapart⟩ := List.nodup_append.1 hfixed
  have hinj := List.inj_on_of_nodup_map hnames
  rw [hkeys]
  refine List.nodup_append.2 ⟨hfirst, ?_, fun a ha b hb ↦ ?_⟩
  · exact hnodup.map_on fun id hid id' hid' heq ↦ hinj (hallowed hid) (hallowed hid') heq
  · exact hapart a ha b (List.map_subset _ hallowed hb)

theorem FieldsOf.object_unique (h : FieldsOf body members) :
    (Tree.object members : Json).UniqueKeys := by
  have hnames : ([] ++ (fieldsAllowed body).map FieldId.name).Nodup := fixedKeys_nodup.1 body
  exact ⟨h.keys_nodup hnames, h.unique⟩

end Fields

theorem CorrOf.plain {members : List (Bytes × Json)} (h : CorrOf members) :
    PlainMembers members := by
  rcases h with rfl | ⟨corr, hcorr, rfl⟩
  · exact trivial
  · obtain ⟨-, -, -, -, -, -, hname⟩ := fixedNames_ascii
    exact ⟨hname, .inl hcorr, trivial⟩

theorem returnTypes_ident {type : Bytes} {kind : TraceKind} (h : (type, kind) ∈ returnTypes) :
    IsIdent type :=
  isIdent_of_valid (fixedWords_ident.1 _ h)

theorem nullableTypes_ident {type : Bytes} (h : type ∈ nullableTypes) : IsIdent type :=
  isIdent_of_valid (fixedWords_ident.2.1 _ h)

theorem ReturnOf.plain {member : Bytes × Json} (h : ReturnOf member) : PlainMembers [member] := by
  obtain ⟨-, -, -, -, -, hkeys, -⟩ := fixedNames_ascii
  simp only [returnNames, List.mem_cons, List.not_mem_nil, or_false, forall_eq_or_imp,
    forall_eq] at hkeys
  obtain ⟨hresult, hcode, hname, hvalue, htype, hv, hvoid⟩ := hkeys
  cases h with
  | result code hident =>
    exact ⟨hresult, ⟨hcode, trivial, hname, .inr (.inr hident), trivial⟩, trivial⟩
  | value hdeclared hkind =>
    exact ⟨hvalue, ⟨htype, .inr (.inr (returnTypes_ident hdeclared)), hv, hkind.plain, trivial⟩,
      trivial⟩
  | absent hdeclared =>
    exact ⟨hvalue, ⟨htype, .inr (.inr (nullableTypes_ident hdeclared)), hv, trivial, trivial⟩,
      trivial⟩
  | void => exact ⟨hvoid, trivial, trivial⟩

theorem ReturnOf.unique {member : Bytes × Json} (h : ReturnOf member) : member.2.UniqueKeys := by
  cases h with
  | result code hident =>
    exact ⟨fixedKeys_nodup.2.1, trivial, trivial, trivial⟩
  | value hdeclared hkind =>
    exact ⟨fixedKeys_nodup.2.2.1, trivial, hkind.unique, trivial⟩
  | absent hdeclared =>
    exact ⟨fixedKeys_nodup.2.2.1, trivial, trivial, trivial⟩
  | void => exact trivial

/-- An object behind a plain key. -/
theorem PlainMembers.object {name : Bytes} {members : List (Bytes × Json)} (hname : AsciiText name)
    (h : PlainMembers members) : PlainMembers [(name, .object members)] :=
  ⟨hname, h, trivial⟩

/-- The keys and strings of a body are plain. -/
theorem BodyOf.plain {kind : RecordKind} {body : List (Bytes × Json)} (h : BodyOf kind body) :
    PlainMembers body := by
  obtain ⟨-, -, -, hkeys, houtcome, -, -⟩ := fixedNames_ascii
  simp only [bodyNames, outcomeNames, List.mem_cons, List.not_mem_nil, or_false,
    forall_eq_or_imp, forall_eq] at hkeys houtcome
  obtain ⟨hevent, hfn, hapi, hargs, hout, haction, hid⟩ := hkeys
  obtain ⟨hresult, hcode, hname, hpayload⟩ := houtcome
  cases h with
  | ofMeta hident hfields => exact ⟨hevent, .inr (.inr hident), hfields.plain⟩
  | ofCall api hident hcorr hfields =>
    exact ⟨hfn, .inr (.inr hident), hapi, trivial,
      hcorr.plain.append (.object hargs hfields.plain)⟩
  | ofReturn hident hcorr hproduced hfields =>
    refine ⟨hfn, .inr (.inr hident), hcorr.plain.append (hproduced.plain.append ?_)⟩
    rcases hfields with rfl | ⟨fields, hfields, rfl⟩
    · exact trivial
    · exact .object hout hfields.plain
  | ofCallback code hident hcorr hsymbol hfields =>
    refine ⟨hfn, .inr (.inr hident), hcorr.plain.append
      ⟨hresult, ⟨hcode, trivial, hname, ?_, trivial⟩, hpayload, hfields.plain, trivial⟩⟩
    rcases hsymbol with rfl | ⟨text, htext, rfl⟩
    · exact trivial
    · exact .inr (.inr htext)
  | ofNotify hident hverb hlabel hfields =>
    have hverbs := isIdent_of_valid (fixedWords_ident.2.2 _ hverb)
    exact ⟨hevent, .inr (.inr hident), haction, .inr (.inr hverbs), hid, .inl hlabel,
      hfields.plain⟩
  | ofNet hident hfields => exact ⟨hevent, .inr (.inr hident), hfields.plain⟩

theorem uniqueMembers_append {members members' : List (Bytes × Json)} (h : uniqueMembers members)
    (h' : uniqueMembers members') : uniqueMembers (members ++ members') := by
  rw [uniqueMembers_iff] at h h' ⊢
  exact List.forall_mem_append.2 ⟨h, h'⟩

theorem CorrOf.unique {members : List (Bytes × Json)} (h : CorrOf members) :
    uniqueMembers members := by
  rcases h with rfl | ⟨corr, -, rfl⟩
  · exact trivial
  · exact ⟨trivial, trivial⟩

/-- No value of a body has an object with a key twice. -/
theorem BodyOf.unique {kind : RecordKind} {body : List (Bytes × Json)} (h : BodyOf kind body) :
    uniqueMembers body := by
  cases h with
  | ofMeta _ hfields => exact ⟨trivial, hfields.unique⟩
  | ofCall api _ hcorr hargs =>
    exact ⟨trivial, trivial, uniqueMembers_append hcorr.unique ⟨hargs.object_unique, trivial⟩⟩
  | ofReturn _ hcorr hproduced hout =>
    refine ⟨trivial, uniqueMembers_append hcorr.unique ⟨hproduced.unique, ?_⟩⟩
    rcases hout with rfl | ⟨fields, hfields, rfl⟩
    · exact trivial
    · exact ⟨hfields.object_unique, trivial⟩
  | ofCallback code _ hcorr hname hpayload =>
    refine ⟨trivial, uniqueMembers_append hcorr.unique
      ⟨⟨fixedKeys_nodup.2.1, trivial, ?_, trivial⟩, hpayload.object_unique, trivial⟩⟩
    rcases hname with rfl | ⟨text, -, rfl⟩
    · exact trivial
    · exact trivial
  | ofNotify _ _ _ hfields => exact ⟨trivial, trivial, trivial, hfields.unique⟩
  | ofNet _ hfields => exact ⟨trivial, hfields.unique⟩

theorem CorrOf.keys {members : List (Bytes × Json)} (h : CorrOf members) :
    (members.map Prod.fst).Sublist [ascii "corr"] := by
  rcases h with rfl | ⟨corr, -, rfl⟩
  · exact List.nil_sublist _
  · exact List.Sublist.refl _

theorem ReturnOf.key {member : Bytes × Json} (h : ReturnOf member) :
    member.1 ∈ [ascii "result", ascii "value", ascii "void"] := by
  cases h with
  | result code _ => exact List.mem_cons_self
  | value _ _ => exact List.mem_cons_of_mem _ List.mem_cons_self
  | absent _ => exact List.mem_cons_of_mem _ List.mem_cons_self
  | void => exact List.mem_cons_of_mem _ (List.mem_cons_of_mem _ List.mem_cons_self)

/-- Neither the body nor the envelope has a key that the other has, or one twice. -/
theorem BodyOf.keys_nodup {kind : RecordKind} {body : List (Bytes × Json)} (h : BodyOf kind body) :
    (envelopeKeys ++ body.map Prod.fst).Nodup := by
  obtain ⟨-, -, -, hmeta, hcall, hreturn, hcallback, hnotify, hnet⟩ := fixedKeys_nodup
  cases h with
  | ofMeta _ hfields =>
    have hkeys := hfields.keys_nodup hmeta
    rwa [List.append_assoc] at hkeys
  | ofCall api _ hcorr _ =>
    refine hcall.sublist ((List.append_sublist_append_left _).2 ?_)
    simp only [List.map_cons, List.map_append, List.map_nil]
    exact ((hcorr.keys.append (List.Sublist.refl _)).cons_cons _).cons_cons _
  | ofReturn _ hcorr hproduced hout =>
    refine (hreturn _ hproduced.key).sublist ((List.append_sublist_append_left _).2 ?_)
    simp only [List.map_cons, List.map_append]
    refine (hcorr.keys.append (List.Sublist.cons_cons _ ?_)).cons_cons _
    rcases hout with rfl | ⟨fields, -, rfl⟩
    · exact List.nil_sublist _
    · exact List.Sublist.refl _
  | ofCallback code _ hcorr _ _ =>
    refine hcallback.sublist ((List.append_sublist_append_left _).2 ?_)
    simp only [List.map_cons, List.map_append, List.map_nil]
    exact (hcorr.keys.append (List.Sublist.refl _)).cons_cons _
  | ofNotify _ _ _ hfields =>
    have hkeys := hfields.keys_nodup hnotify
    rwa [List.append_assoc] at hkeys
  | ofNet _ hfields =>
    have hkeys := hfields.keys_nodup hnet
    rwa [List.append_assoc] at hkeys

/-! ## What the serializers tell -/

/-- Calls that tell some members of an object. -/
def Spells (calls : List WriterCall) (members : List (Bytes × Json)) : Prop :=
  calls.flatMap WriterCall.events = memberEvents members

theorem Spells.nil : Spells [] [] := rfl

theorem Spells.append {calls calls' : List WriterCall} {members members' : List (Bytes × Json)}
    (h : Spells calls members) (h' : Spells calls' members') :
    Spells (calls ++ calls') (members ++ members') := by
  rw [Spells, List.flatMap_append, h, h', memberEvents_append]

/-- A call for a key with its value. -/
theorem Spells.field {call : WriterCall} {calls : List WriterCall} {name : Bytes}
    {value : JsonScalar} {members : List (Bytes × Json)}
    (hcall : call.events = [.key name, .scalar value]) (h : Spells calls members) :
    Spells (call :: calls) ((name, .scalar value) :: members) := by
  rw [Spells, List.flatMap_cons, hcall, h]
  rfl

/-- A key, and the call for its value. -/
theorem Spells.keyed {call : WriterCall} {calls : List WriterCall} {name : Bytes}
    {value : JsonScalar} {members : List (Bytes × Json)} (hcall : call.events = [.scalar value])
    (h : Spells calls members) :
    Spells (.key name :: call :: calls) ((name, .scalar value) :: members) := by
  rw [Spells, List.flatMap_cons, List.flatMap_cons, hcall, h]
  rfl

theorem Spells.object {calls calls' : List WriterCall} {name : Bytes}
    {inner members : List (Bytes × Json)} (hinner : Spells calls inner)
    (h : Spells calls' members) :
    Spells (.key name :: .beginObject :: (calls ++ .endObject :: calls'))
      ((name, .object inner) :: members) := by
  rw [Spells] at hinner h ⊢
  simp only [List.flatMap_cons, List.flatMap_append, hinner, h, WriterCall.events, memberEvents,
    Tree.events, List.cons_append, List.nil_append, List.append_assoc]

/-- A value as the constructors make it. -/
inductive TraceValue.Built : TraceValue → Prop
  | int (value : Int64) : Built (tvInt value)
  | uint (value : UInt64) : Built (tvUint value)
  | flag (value : Bool) : Built (tvFlag value)
  | label (value : Bytes) : Built (tvLabel value)
  | fingerprint (value : Bytes) : Built (tvFingerprint value)
  | enum (value : Bytes) : Built (tvEnum value)

/-- A valid value is written as one of its kind. -/
theorem TraceValue.Built.written {value : TraceValue} (h : value.Built)
    (hvalid : value.valid = true) :
    ∃ scalar, (writeValue value).events = [.scalar scalar] ∧
    HasKind value.type (.scalar scalar) := by
  cases h with
  | int value => exact ⟨_, rfl, .int value⟩
  | uint value => exact ⟨_, rfl, .uint value⟩
  | flag value => exact ⟨_, rfl, .flag value⟩
  | label value => exact ⟨_, rfl, .label (isLabel_of_valid hvalid)⟩
  | fingerprint value => exact ⟨_, rfl, .fingerprint (isFingerprint_of_valid hvalid)⟩
  | enum value => exact ⟨_, rfl, .enum (isIdent_of_valid hvalid)⟩

/-- What the loop writes are fields that the body allows, none of them seen before. -/
theorem writeFieldsFrom_tells (body : RecordKind) {fields : List TraceField}
    (hbuilt : ∀ field ∈ fields, field.value.Built) (seen : List FieldId) :
    ∃ (ids : List FieldId) (members : List (Bytes × Json)),
      Spells (writeFieldsFrom body seen fields) members ∧ ids.Nodup ∧ (∀ id ∈ ids, id ∉ seen) ∧
        ids ⊆ fieldsAllowed body ∧ List.Forall₂ FieldOf ids members := by
  have hnone : ∀ seen : List FieldId, ∃ (ids : List FieldId) (members : List (Bytes × Json)),
      Spells [] members ∧ ids.Nodup ∧ (∀ id ∈ ids, id ∉ seen) ∧ ids ⊆ fieldsAllowed body ∧
        List.Forall₂ FieldOf ids members := fun _ ↦
    ⟨[], [], .nil, List.nodup_nil, by simp, List.nil_subset _, .nil⟩
  induction fields generalizing seen with
  | nil => exact hnone seen
  | cons field fields ih =>
    obtain ⟨hfield, hfields⟩ := List.forall_mem_cons.1 hbuilt
    rw [writeFieldsFrom]
    by_cases hroom : seen.length < maxBodyFields
    · rw [if_pos hroom]
      cases hinfo : fieldInfo field.id with
      | none => exact ih hfields seen
      | some info =>
        obtain ⟨name, kind⟩ := info
        dsimp only
        split_ifs with hallowed hvalue hseen
        · exact ih hfields seen
        · exact ih hfields seen
        · exact ih hfields seen
        · -- The field is written, and is seen from here on.
          obtain ⟨ids, members, htells, hnodup, hfresh, hids, hpaired⟩ :=
            ih hfields (seen ++ [field.id])
          obtain ⟨htype, hvalid⟩ := not_or.1 hvalue
          obtain ⟨scalar, hevents, hkind⟩ := hfield.written (by simpa using hvalid)
          rw [not_not.1 htype] at hkind
          have hin : field.id ∈ fieldsAllowed body := by simpa [fieldAllowed] using hallowed
          refine ⟨field.id :: ids, (name, .scalar scalar) :: members, .keyed hevents htells, ?_, ?_,
            List.cons_subset.2 ⟨hin, hids⟩, .cons ⟨kind, hinfo, hkind⟩ hpaired⟩
          · exact List.nodup_cons.2 ⟨fun hmem ↦ hfresh _ hmem (by simp), hnodup⟩
          · exact List.forall_mem_cons.2
              ⟨hseen, fun id hid hmem ↦ hfresh id hid (List.mem_append_left _ hmem)⟩
    · rw [if_neg hroom]
      exact hnone seen

theorem writeFields_tells (body : RecordKind) {fields : List TraceField}
    (hbuilt : ∀ field ∈ fields, field.value.Built) :
    ∃ members, Spells (writeFields body fields) members ∧ FieldsOf body members := by
  obtain ⟨ids, members, htells, hnodup, -, hids, hpaired⟩ := writeFieldsFrom_tells body hbuilt []
  exact ⟨members, htells, ids, hnodup, hids, hpaired⟩

/-! ## Lines -/

theorem writeEnvelope_tells (env : TraceEnvelope) (kind : Bytes) :
    Spells (writeEnvelope env kind) (envelopeMembers id env kind) := by
  have hversion : (env.schemaVersion.toUInt64.toNat : Int) = env.schemaVersion.toNat := by simp
  rw [writeEnvelope, envelopeMembers]
  refine .field (by rw [WriterCall.events, hversion]) (.field rfl (.field rfl (.field rfl ?_)))
  split
  · exact .field rfl (.field rfl (.field rfl .nil))
  · exact .field rfl (.field rfl (.field rfl .nil))

/-- The envelope as it is written. -/
theorem mapMembers_envelope (env : TraceEnvelope) {kind : Bytes} (hkind : AsciiText kind) :
    mapMembers sanitize JsonScalar.sanitized (envelopeMembers id env kind) =
      envelopeMembers sanitize env kind := by
  have hkeys : ∀ name ∈ envelopeKeys, sanitize name = name := fun name hname ↦
    sanitize_ascii (fixedNames_ascii.2.2.1 name hname)
  simp only [envelopeKeys, List.mem_cons, List.not_mem_nil, or_false, forall_eq_or_imp,
    forall_eq] at hkeys
  obtain ⟨hv, hseq, ht, hpid, hinst, htid, hname⟩ := hkeys
  simp only [envelopeMembers, mapMembers, Lib.Tree.map, jsonInt, jsonString,
    JsonScalar.sanitized, hv,
    hseq, ht, hpid, hinst, htid, hname, sanitize_ascii hkind, id]
  split <;> rfl

/-- What a line of a kind may be: an object with the envelope in front of a body of that kind. -/
structure LineOf (line : Bytes) (env : TraceEnvelope) (kind : RecordKind)
    (body : List (Bytes × Json)) : Prop where
  denotes : Denotes line (.object (envelopeMembers sanitize env kind.name ++ body))
  shape : BodyOf kind body
  unique : (Tree.object (envelopeMembers sanitize env kind.name ++ body) : Json).UniqueKeys
  plain : PlainMembers body

/-- A record whose calls tell a body is nothing or a line with that body. -/
theorem finish_recordCalls (env : TraceEnvelope) {kind : RecordKind} {calls : List WriterCall}
    {body : List (Bytes × Json)} (htells : Spells calls body) (hbody : BodyOf kind body) :
    finish (recordCalls env kind.name calls) = [] ∨
      LineOf (finish (recordCalls env kind.name calls)) env kind body := by
  have hdoc : TellsDocument (recordCalls env kind.name calls)
      (.object (envelopeMembers id env kind.name ++ body)) := by
    have hmembers := (writeEnvelope_tells env kind.name).append htells
    rw [Spells] at hmembers
    rw [TellsDocument, recordCalls, List.flatMap_cons, List.flatMap_append, hmembers]
    rfl
  rw [finish]
  by_cases hok : (JsonWriter.run maxRecordBytes (recordCalls env kind.name calls)).ok = true
  · rw [if_pos hok, out_of_ok hdoc hok]
    right
    have hclean : sanitized (.object (envelopeMembers id env kind.name ++ body)) =
        .object (envelopeMembers sanitize env kind.name ++ body) := by
      rw [sanitized, Lib.Tree.map, mapMembers_append,
        mapMembers_envelope env (fixedNames_ascii.2.1 kind),
        mapMembers_of_holds (fun _ ↦ sanitize_ascii) (fun _ ↦ PlainScalar.sanitized) hbody.plain]
    have henvelope : uniqueMembers (envelopeMembers sanitize env kind.name) := by
      refine ⟨trivial, trivial, trivial, trivial, ?_, trivial, trivial, trivial⟩
      split <;> exact trivial
    refine ⟨?_, hbody, ⟨?_, uniqueMembers_append henvelope hbody.unique⟩, hbody.plain⟩
    · rw [← hclean]
      exact denotes_jsonText _
    · rw [List.map_append, envelopeMembers_keys]
      exact hbody.keys_nodup
  · rw [if_neg hok]
    exact .inl rfl

/-- The correlation id, checked. -/
theorem writeCorr_tells {corr : Bytes} (h : (!corr.isEmpty && !validTraceLabel corr) = false) :
    ∃ members, Spells (writeCorr corr) members ∧ CorrOf members := by
  rw [writeCorr]
  by_cases hempty : corr.isEmpty = true
  · rw [if_pos hempty]
    exact ⟨[], .nil, .inl rfl⟩
  · rw [if_neg hempty]
    have hvalid : validTraceLabel corr = true := by simpa [hempty] using h
    exact ⟨_, .field rfl .nil, .inr ⟨corr, isLabel_of_valid hvalid, rfl⟩⟩

theorem writeGroup_tells (name : Bytes) (body : RecordKind) {fields : List TraceField}
    (hbuilt : ∀ field ∈ fields, field.value.Built) :
    ∃ members, Spells (writeGroup name body fields) [(name, .object members)] ∧
      FieldsOf body members := by
  obtain ⟨members, htells, hfields⟩ := writeFields_tells body hbuilt
  exact ⟨members, .object htells .nil, hfields⟩

/-- A declared type goes with a value of the kind it stands for, or with none where there may be
none. -/
theorem declared_of_returnValueOk {value : TraceReturn} (h : returnValueOk value = true) :
    value.valueIsNull = true ∧ value.valueType ∈ nullableTypes ∨
      value.valueIsNull = false ∧ value.value.valid = true ∧
        (value.valueType, value.value.type) ∈ returnTypes := by
  rw [returnValueOk] at h
  split_ifs at h with hnull hvalid hbool hnumber hlabel henum
  · rw [Bool.and_eq_true, Bool.or_eq_true, beq_iff_eq, beq_iff_eq] at h
    exact .inl ⟨hnull, by rw [nullableTypes]; simpa using h.2⟩
  all_goals
    refine .inr ⟨by simpa using hnull, by simpa using hvalid, ?_⟩
    simp only [beq_iff_eq] at h hbool
    rw [h, returnTypes]
  · rw [hbool]
    exact List.mem_cons_self
  · simp only [Bool.or_eq_true, beq_iff_eq] at hnumber
    rcases hnumber with (hnumber | hnumber) | hnumber <;> rw [hnumber] <;> simp
  · simp only [Bool.or_eq_true, beq_iff_eq] at hlabel
    rcases hlabel with hlabel | hlabel <;> rw [hlabel] <;> simp
  · rw [beq_iff_eq.1 henum]
    simp

/-- What a return produced, checked. -/
theorem writeReturn_tells {value : TraceReturn}
    (hbuilt : value.value.valid = true → value.value.Built)
    (hvalue : (value.type == .rValue && !returnValueOk value) = false)
    (hresult : (value.type == .rResult && !validIdent value.result.name maxNameBytes) = false) :
    ∃ member, Spells (writeReturn value) [member] ∧ ReturnOf member := by
  rw [writeReturn]
  cases htype : value.type with
  | rResult =>
    rw [htype] at hresult
    have hident : validIdent value.result.name maxNameBytes = true := by simpa using hresult
    have hinner : Spells [.fieldInt (ascii "code") value.result.code.toInt64,
        .fieldString (ascii "name") value.result.name]
        [(ascii "code", jsonInt value.result.code.toInt),
          (ascii "name", jsonString value.result.name)] :=
      .field (by rw [WriterCall.events, Int32.toInt_toInt64]) (.field rfl .nil)
    exact ⟨_, hinner.object .nil, .result value.result.code (isIdent_of_valid hident)⟩
  | rValue =>
    rw [htype] at hvalue
    have hok : returnValueOk value = true := by simpa using hvalue
    rcases declared_of_returnValueOk hok with ⟨hnull, hdeclared⟩ | ⟨hnull, hvalid, hdeclared⟩
    · dsimp only
      rw [if_pos hnull]
      have hinner : Spells [.fieldString (ascii "type") value.valueType,
        .key (ascii "v"), .valueNull]
          [(ascii "type", jsonString value.valueType), (ascii "v", .scalar .null)] :=
        .field rfl (.keyed rfl .nil)
      exact ⟨_, hinner.object .nil, .absent hdeclared⟩
    · obtain ⟨scalar, hevents, hkind⟩ := (hbuilt hvalid).written hvalid
      dsimp only
      rw [if_neg (by simp [hnull])]
      have hinner : Spells [.fieldString (ascii "type") value.valueType, .key (ascii "v"),
          writeValue value.value]
          [(ascii "type", jsonString value.valueType), (ascii "v", .scalar scalar)] :=
        .field rfl (.keyed hevents .nil)
      exact ⟨_, hinner.object .nil, .value hdeclared hkind⟩
  | rVoid => exact ⟨_, .field rfl .nil, .void⟩

/-- A line is empty or one of its kind. -/
def IsLine (env : TraceEnvelope) (kind : RecordKind) (line : Bytes) : Prop :=
  line = [] ∨ ∃ body, LineOf line env kind body

theorem isLine_finish (env : TraceEnvelope) (kind : RecordKind) {calls : List WriterCall}
    {body : List (Bytes × Json)} (htells : Spells calls body) (hbody : BodyOf kind body) :
    IsLine env kind (finish (recordCalls env kind.name calls)) :=
  (finish_recordCalls env htells hbody).imp_right fun h ↦ ⟨body, h⟩

section Serializers

variable (env : TraceEnvelope)

theorem serializeMeta_isLine (event : Bytes) {fields : List TraceField}
    (hbuilt : ∀ field ∈ fields, field.value.Built) :
    IsLine env .rkMeta (serializeMeta env event fields) := by
  obtain ⟨members, htells, hof⟩ := writeFields_tells .rkMeta hbuilt
  rw [serializeMeta]
  split_ifs with hevent
  · exact .inl rfl
  · exact isLine_finish env .rkMeta (.field rfl htells)
      (.ofMeta (isIdent_of_valid (by simpa using hevent)) hof)

theorem serializeNet_isLine (event : Bytes) {fields : List TraceField}
    (hbuilt : ∀ field ∈ fields, field.value.Built) :
    IsLine env .rkNet (serializeNet env event fields) := by
  obtain ⟨members, htells, hof⟩ := writeFields_tells .rkNet hbuilt
  rw [serializeNet]
  split_ifs with hevent
  · exact .inl rfl
  · exact isLine_finish env .rkNet (.field rfl htells)
      (.ofNet (isIdent_of_valid (by simpa using hevent)) hof)

theorem serializeNotify_isLine (event action id : Bytes) {fields : List TraceField}
    (hbuilt : ∀ field ∈ fields, field.value.Built) :
    IsLine env .rkNotify (serializeNotify env event action id fields) := by
  obtain ⟨members, htells, hof⟩ := writeFields_tells .rkNotify hbuilt
  rw [serializeNotify]
  split_ifs with hrefused
  · exact .inl rfl
  · simp only [Bool.or_eq_true, Bool.not_eq_true', not_or, Bool.not_eq_false, beq_iff_eq]
      at hrefused
    obtain ⟨⟨hevent, haction⟩, hid⟩ := hrefused
    exact isLine_finish env .rkNotify (.field rfl (.field rfl (.field rfl htells)))
      (.ofNotify (isIdent_of_valid hevent) (by simpa [or_assoc] using haction)
        (isLabel_of_valid hid) hof)

/-- A function and a correlation id that were not refused. -/
theorem named_of_not_refused {fn corr : Bytes}
    (h : ¬ (!validIdent fn maxNameBytes || (!corr.isEmpty && !validTraceLabel corr)) = true) :
    IsIdent fn ∧ ∃ members, Spells (writeCorr corr) members ∧ CorrOf members := by
  obtain ⟨hfn, hcorr⟩ := Bool.or_eq_false_iff.1 (Bool.not_eq_true _ ▸ h)
  exact ⟨isIdent_of_valid (by simpa using hfn), writeCorr_tells hcorr⟩

theorem serializeCall_isLine (fn : Bytes) (apiVersion : Int32) (corr : Bytes)
    {args : List TraceField} (hbuilt : ∀ field ∈ args, field.value.Built) :
    IsLine env .rkCall (serializeCall env fn apiVersion corr args) := by
  obtain ⟨members, hargs, hof⟩ := writeGroup_tells (ascii "args") .rkCall hbuilt
  rw [serializeCall]
  split_ifs with hrefused
  · exact .inl rfl
  · obtain ⟨hfn, id, hid, hidof⟩ := named_of_not_refused hrefused
    have hapi : (WriterCall.fieldInt (ascii "api") apiVersion.toInt64).events =
        [.key (ascii "api"), .scalar (.int apiVersion.toInt)] := by
      rw [WriterCall.events, Int32.toInt_toInt64]
    exact isLine_finish env .rkCall (.field rfl (.field hapi (hid.append hargs)))
      (.ofCall apiVersion hfn hidof hof)

theorem serializeReturn_isLine (fn corr : Bytes) {value : TraceReturn}
    (hvalue : value.value.valid = true → value.value.Built)
    (hbuilt : ∀ field ∈ value.out, field.value.Built) :
    IsLine env .rkReturn (serializeReturn env fn corr value) := by
  have hout : ∃ out, Spells
      (if value.out.isEmpty then [] else writeGroup (ascii "out") .rkReturn value.out) out ∧
      (out = [] ∨
        ∃ fields, FieldsOf .rkReturn fields ∧ out = [(ascii "out", .object fields)]) := by
    split
    · exact ⟨[], .nil, .inl rfl⟩
    · obtain ⟨members, htells, hof⟩ := writeGroup_tells (ascii "out") .rkReturn hbuilt
      exact ⟨_, htells, .inr ⟨members, hof, rfl⟩⟩
  obtain ⟨out, htells, houtof⟩ := hout
  rw [serializeReturn]
  by_cases hrefused :
      (!validIdent fn maxNameBytes || (!corr.isEmpty && !validTraceLabel corr)) = true
  · rw [if_pos hrefused]
    exact .inl rfl
  rw [if_neg hrefused]
  by_cases hrejected : (value.type == .rValue && !returnValueOk value) = true
  · rw [if_pos hrejected]
    exact .inl rfl
  rw [if_neg hrejected]
  by_cases hunnamed :
      (value.type == .rResult && !validIdent value.result.name maxNameBytes) = true
  · rw [if_pos hunnamed]
    exact .inl rfl
  rw [if_neg hunnamed]
  obtain ⟨hfn, id, hid, hidof⟩ := named_of_not_refused hrefused
  obtain ⟨member, hmember, hreturn⟩ := writeReturn_tells hvalue
    (Bool.not_eq_true _ ▸ hrejected) (Bool.not_eq_true _ ▸ hunnamed)
  exact isLine_finish env .rkReturn (.field rfl (hid.append (hmember.append htells)))
    (.ofReturn hfn hidof hreturn houtof)

theorem serializeCallback_isLine (fn corr : Bytes) (result : TraceResultCode)
    {payload : List TraceField} (hbuilt : ∀ field ∈ payload, field.value.Built) :
    IsLine env .rkCallback (serializeCallback env fn corr result payload) := by
  obtain ⟨members, hpayload, hof⟩ := writeGroup_tells (ascii "payload") .rkCallback hbuilt
  have hcode : (WriterCall.fieldInt (ascii "code") result.code.toInt64).events =
      [.key (ascii "code"), .scalar (.int result.code.toInt)] := by
    rw [WriterCall.events, Int32.toInt_toInt64]
  rw [serializeCallback]
  by_cases hrefused :
      (!validIdent fn maxNameBytes || (!corr.isEmpty && !validTraceLabel corr)) = true
  · rw [if_pos hrefused]
    exact .inl rfl
  rw [if_neg hrefused]
  by_cases hunnamed : (!result.name.isEmpty && !validIdent result.name maxNameBytes) = true
  · rw [if_pos hunnamed]
    exact .inl rfl
  rw [if_neg hunnamed]
  obtain ⟨hfn, id, hid, hidof⟩ := named_of_not_refused hrefused
  by_cases hname : result.name.isEmpty = true
  · rw [if_pos hname]
    have hinner : Spells [.fieldInt (ascii "code") result.code.toInt64, .fieldNull (ascii "name")]
        [(ascii "code", jsonInt result.code.toInt), (ascii "name", .scalar .null)] :=
      .field hcode (.field rfl .nil)
    exact isLine_finish env .rkCallback (.field rfl (hid.append (hinner.object hpayload)))
      (.ofCallback result.code hfn hidof (.inl rfl) hof)
  · rw [if_neg hname]
    have hident : validIdent result.name maxNameBytes = true := by simpa [hname] using hunnamed
    have hinner : Spells [.fieldInt (ascii "code") result.code.toInt64,
        .fieldString (ascii "name") result.name]
        [(ascii "code", jsonInt result.code.toInt), (ascii "name", jsonString result.name)] :=
      .field hcode (.field rfl .nil)
    exact isLine_finish env .rkCallback (.field rfl (hid.append (hinner.object hpayload)))
      (.ofCallback result.code hfn hidof (.inr ⟨result.name, isIdent_of_valid hident, rfl⟩) hof)

end Serializers

/-- The values a record is given are made by the constructors; that of a return may be none. -/
structure TraceRecord.Built (record : TraceRecord) : Prop where
  fields : ∀ field ∈ record.fields, field.value.Built
  value : ∀ fn corr value, record = .ofReturn fn corr value →
    value.value.valid = true → value.value.Built

/-- **A record is no line, or a well-formed one without raw text in its body.** -/
theorem records_well_formed (env : TraceEnvelope) (record : TraceRecord) (hbuilt : record.Built) :
    record.serialize env = [] ∨ ∃ body, LineOf (record.serialize env) env record.kind body := by
  obtain ⟨hfields, hvalue⟩ := hbuilt
  cases record with
  | ofMeta event fields => exact serializeMeta_isLine env event hfields
  | ofCall fn apiVersion corr args => exact serializeCall_isLine env fn apiVersion corr hfields
  | ofReturn fn corr value =>
    exact serializeReturn_isLine env fn corr (hvalue fn corr value rfl) hfields
  | ofCallback fn corr result payload =>
    exact serializeCallback_isLine env fn corr result hfields
  | ofNotify event action id fields => exact serializeNotify_isLine env event action id hfields
  | ofNet event fields => exact serializeNet_isLine env event hfields

/-- An envelope with a quote in it, and a field that no net record has: there is a line all
the same. -/
theorem records_well_formed_net :
    let env : TraceEnvelope := { inst := [0x22, 0xFF] }
    let record : TraceRecord := .ofNet (ascii "session_up")
      [makeField .peer (tvLabel (ascii "peer#1")), makeField .puid (tvLabel (ascii "raw"))]
    ∃ body, LineOf (record.serialize env) env record.kind body := by
  intro env record
  have hline : record.serialize env ≠ [] := by decide +kernel
  refine (records_well_formed env record ⟨fun field hfield ↦ ?_, nofun⟩).resolve_left hline
  simp only [record, TraceRecord.fields, List.mem_cons, List.not_mem_nil, or_false] at hfield
  rcases hfield with rfl | rfl
  · exact .label _
  · exact .label _

end EosMesh
