import EosMesh.Net.Wire

/-!
# Attributes

What the session and lobby interfaces do alike with attributes: read one out of the options of a
call, replace one by its key, and compare one with what a searcher asks for.  The two differ in one
thing, what a comparison they do not know comes to, which is a parameter here.

* `AttributeData` is the union of the SDK as a game fills it in, and `readAttribute` what is taken
  of it: no key, one that is too long, or an unknown type is refused.
* `replaceAttribute` and `upsertAttribute` replace the first attribute of a key, or add one at the
  end.
* `compareAttribute` compares two of one type.  Integers and texts have an order; doubles are
  compared as numbers, by their bits, and with a NaN there is no order.
-/

set_option autoImplicit false

namespace EosMesh

/-- `EOS_TRUE`, `EOS_FALSE`: an `EOS_Bool` is an integer. -/
abbrev EosBool := Int32

/-- Only one value is true. -/
def EosBool.isTrue (b : EosBool) : Bool := b = (1 : Int32)

/-- `EOS_Sessions_AttributeData` and `EOS_Lobby_AttributeData`; the value is a union, and
`valueType` says which of its members it is. -/
structure AttributeData where
  key : Option Bytes
  valueType : Int32
  asBool : EosBool := 0
  asInt64 : Int64 := 0
  asDouble : UInt64 := 0
  asUtf8 : Option Bytes := none
  deriving DecidableEq, Repr

/-- `EOS_SESSIONMODIFICATION_MAX_SESSION_ATTRIBUTE_LENGTH`, and the lobbies' own. -/
def maxAttributeLength : Nat := 64

/-- `read_attribute`: the attribute in the shape we keep. -/
def readAttribute (data : Option AttributeData) : Option SessionAttribute :=
  match data with
  | none => none
  | some data =>
    match data.key with
    | none => none
    | some key =>
      if key = [] ∨ key.length > maxAttributeLength then none
      else if data.valueType = attributeBool then
        some { key, valueType := data.valueType, asBool := data.asBool.isTrue }
      else if data.valueType = attributeInt64 then
        some { key, valueType := data.valueType, asInt64 := data.asInt64 }
      else if data.valueType = attributeDouble then
        some { key, valueType := data.valueType, asDouble := data.asDouble }
      else if data.valueType = attributeString then
        data.asUtf8.map fun asString ↦ { key, valueType := data.valueType, asString }
      else none

/-- An attribute put in the place of the one with its key, or `none` when there is no such one. -/
def replaceAttribute (attr : SessionAttribute) : List SessionAttribute →
    Option (List SessionAttribute)
  | [] => none
  | first :: rest =>
    if first.key = attr.key then some (attr :: rest)
    else (replaceAttribute attr rest).map (first :: ·)

/-! ## Comparing -/

/-- Doubles that compare, by the number their bits are in the order of their values. -/
def doubleOrder (bits : UInt64) : Option Int :=
  let magnitude : Nat := bits.toNat % 2 ^ 63
  if magnitude > 0x7ff0000000000000 then none
  else some (if bits.toNat < 2 ^ 63 then (magnitude : Int) else -(magnitude : Int))

/-- Doubles are compared as numbers, from their bits. -/
def compareDoubles (mine theirs : UInt64) : Option Ordering :=
  match doubleOrder mine, doubleOrder theirs with
  | some a, some b => some (compare a b)
  | _, _ => none

/-- `compare_ordered`, by how the two compare; with a NaN they do not.  The operators are
`EOS_EComparisonOp`s, and `other` is what the ones we do not implement come to. -/
def compareOrdered (other : Bool) (order : Option Ordering) (op : Int32) : Bool :=
  if op = 0 then order = some .eq
  else if op = 1 then order ≠ some .eq
  else if op = 2 then order = some .gt
  else if op = 3 then order = some .gt ∨ order = some .eq
  else if op = 4 then order = some .lt
  else if op = 5 then order = some .lt ∨ order = some .eq
  else other

/-- `compare_attribute`: a type mismatch is a different question. -/
def compareAttribute (other : Bool) (mine theirs : SessionAttribute) (op : Int32) : Bool :=
  if mine.valueType ≠ theirs.valueType then false
  else
    let order : Option Ordering :=
      if mine.valueType = attributeBool then some (compare mine.asBool.toNat theirs.asBool.toNat)
      else if mine.valueType = attributeInt64 then
        some (compare mine.asInt64.toInt theirs.asInt64.toInt)
      else if mine.valueType = attributeDouble then compareDoubles mine.asDouble theirs.asDouble
      else some (compare mine.asString theirs.asString)
    compareOrdered other order op

/-- Minus zero is zero, and a NaN is not itself. -/
example : compareDoubles 0x8000000000000000 0 = some .eq ∧
    compareDoubles 0xbff0000000000000 0x3ff0000000000000 = some .lt ∧
    compareDoubles 0x7ff8000000000000 0x7ff8000000000000 = none := by decide +kernel

/-! ## What a key says -/

/-- The attribute a key names: the first one with it. -/
def attributeAt (attrs : List SessionAttribute) (key : Bytes) : Option SessionAttribute :=
  attrs.find? (·.key = key)

section

variable {attr : SessionAttribute} {attrs attrs' : List SessionAttribute} {key : Bytes}

/-- Replacing an attribute replaces what its own key names. -/
theorem attributeAt_replace (h : replaceAttribute attr attrs = some attrs') :
    attributeAt attrs' key = if attr.key = key then some attr else attributeAt attrs key := by
  induction attrs generalizing attrs' with
  | nil => cases h
  | cons first rest ih =>
    rw [replaceAttribute] at h
    split at h
    · rename_i hfirst
      obtain rfl := Option.some.inj h
      by_cases hkey : attr.key = key <;> simp [attributeAt, hfirst, hkey]
    · rename_i hfirst
      obtain ⟨tail, htail, rfl⟩ := Option.map_eq_some_iff.1 h
      have hrest := ih htail
      rw [attributeAt] at hrest ⊢
      by_cases hkey : first.key = key
      · have hne : attr.key ≠ key := fun heq ↦ hfirst (hkey.trans heq.symm)
        simp [attributeAt, hkey, hne]
      · simp [attributeAt, hkey, hrest]

theorem replaceAttribute_eq_none (h : replaceAttribute attr attrs = none) :
    ∀ a ∈ attrs, a.key ≠ attr.key := by
  induction attrs with
  | nil => simp
  | cons first rest ih =>
    rw [replaceAttribute] at h
    split at h
    · cases h
    · rename_i hfirst
      simpa [hfirst] using ih (Option.map_eq_none_iff.1 h)

theorem attributeAt_append_singleton (hne : attr.key ≠ key) :
    attributeAt (attrs ++ [attr]) key = attributeAt attrs key := by
  simp [attributeAt, hne]

theorem attributeAt_eraseP {removed : Bytes} (hne : removed ≠ key) :
    attributeAt (attrs.eraseP (·.key = removed)) key = attributeAt attrs key := by
  induction attrs with
  | nil => rfl
  | cons first rest ih =>
    rw [attributeAt] at ih ⊢
    rw [List.eraseP_cons]
    by_cases hremoved : first.key = removed
    · simp [attributeAt, hremoved, hne]
    · by_cases hkey : first.key = key
      · simp [hkey, Ne.symm hne, attributeAt]
      · simp [attributeAt, hremoved, hkey, ih]

theorem attributeAt_filter {removed : Bytes} :
    attributeAt (attrs.filter (·.key ≠ removed)) key =
      if removed = key then none else attributeAt attrs key := by
  rw [attributeAt, List.find?_filter]
  split
  · rename_i heq
    rw [List.find?_eq_none]
    intro a _
    simp [heq]
  · rename_i hne
    rw [attributeAt]
    congr 1
    funext a
    by_cases hkey : a.key = key <;> simp [hkey, Ne.symm hne]

theorem readAttribute_key {data : Option AttributeData} (h : readAttribute data = some attr) :
    data.bind (·.key) = some attr.key := by
  unfold readAttribute at h
  split at h
  · cases h
  · split at h
    · cases h
    · rename_i data key hkey
      rw [Option.bind_some, hkey]
      split at h
      · cases h
      · split at h
        · cases h
          rfl
        · split at h
          · cases h
            rfl
          · split at h
            · cases h
              rfl
            · split at h
              · obtain ⟨text, -, rfl⟩ := Option.map_eq_some_iff.1 h
                rfl
              · cases h

end

/-- What a field of a session or a lobby says. -/
inductive FieldValue
  | text (value : Bytes)
  | count (value : UInt32)
  | level (value : Int32)
  | flag (value : Bool)
  | attr (value : Option SessionAttribute)
  deriving DecidableEq, Repr

end EosMesh
