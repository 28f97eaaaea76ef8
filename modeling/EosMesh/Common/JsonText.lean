import EosMesh.Common.JsonWriter

/-!
# What the JSON writer has written

A valid writer is a function of the document as far as it has been told: `writerOf`.  Its output is
the text of the containers that are open and of everything complete inside them, its levels are
those containers, and its two flags say which place the document is at.  So the writer need not be
looked at along a run: a run of calls is a document under way, and the writer is what it comes to.

* `quoted` and `jsonText` are the texts of a string and of a document, `assemblyText` that of a
  document under way.  They are stated without the writer, over the documents of `Lib.Events`.
* `Emits` is what appending some text does under a cap; it composes.  A value is prepared by
  `preValue`, which puts the comma before it, and `preValue_cases` says that there is room for both
  or for neither.
* `tell_of_step` and `tell_of_no_step` are the one step: an event that has its place takes
  `writerOf` along, unless it has to reserve and there is no room, and any other event fails it.
  They are proved by the kind of event (`told_text`, `told_begin`, `close_writerOf`, `told_key`).
* `run_eq` carries them through a run.

A closing bracket is appended without a `reserve`, so a writer may go past its cap by the brackets
at its end and by nothing else.  `Kept` is what is within the cap all the same: the text up to
these.
-/

set_option autoImplicit false

namespace EosMesh

open Lib

/-! ## Texts -/

/-- What is written for the bytes of a string. -/
def stringContent : (rounds : Nat) → Bytes → Bytes
  | _, [] => []
  | 0, _ => []
  | rounds + 1, c :: rest =>
    let (text, used) := writePiece c rest
    text ++ stringContent rounds ((c :: rest).drop used)

/-- A string, as it is written. -/
def quoted (value : Bytes) : Bytes :=
  quoteByte :: (stringContent value.length value ++ [quoteByte])

/-- The text of a scalar. -/
def JsonScalar.text : JsonScalar → Bytes
  | .string value => quoted value
  | .int value => intText value
  | .bool value => ascii (if value then "true" else "false")
  | .null => ascii "null"

/-- What stands in front of an item. -/
def separator (first : Bool) : Bytes := if first then [] else [commaByte]

mutual

/-- The compact text of a document. -/
def jsonText : Json → Bytes
  | .scalar value => value.text
  | .array elements => arrayOpen :: (elementsText true elements ++ [arrayClose])
  | .object members => objectOpen :: (membersText true members ++ [objectClose])

/-- The elements, with a comma before each but the first. -/
def elementsText : Bool → List Json → Bytes
  | _, [] => []
  | first, element :: elements =>
    separator first ++ (jsonText element ++ elementsText false elements)

/-- The members, with a comma before each but the first. -/
def membersText : Bool → List (Bytes × Json) → Bytes
  | _, [] => []
  | first, (name, value) :: members =>
    separator first ++ (quoted name ++ colonByte :: (jsonText value ++ membersText false members))

end

theorem elementsText_concat (first : Bool) (elements : List Json) (element : Json) :
    elementsText first (elements ++ [element]) =
      elementsText first elements ++ (separator (first && elements.isEmpty) ++
        jsonText element) := by
  induction elements generalizing first with
  | nil => simp [elementsText]
  | cons head elements ih => simp [elementsText, ih, separator]

theorem membersText_concat (first : Bool) (members : List (Bytes × Json)) (name : Bytes)
    (value : Json) : membersText first (members ++ [(name, value)]) =
      membersText first members ++ (separator (first && members.isEmpty) ++
        (quoted name ++ colonByte :: jsonText value)) := by
  induction members generalizing first with
  | nil => simp [membersText]
  | cons head members ih => simp [membersText, ih, separator]

/-- The text up to the value a slot waits for. -/
def slotText : Slot Bytes JsonScalar → Bytes
  | .array elements => arrayOpen :: (elementsText true elements ++ separator elements.isEmpty)
  | .object members name =>
    objectOpen :: (membersText true members ++ (separator members.isEmpty ++
      (quoted name ++ [colonByte])))

/-- What is written of the open containers, the outermost first. -/
def slotsText : List (Slot Bytes JsonScalar) → Bytes
  | [] => []
  | slot :: outer => slotsText outer ++ slotText slot

/-- The text of a document under way. -/
def assemblyText : Assembly Bytes JsonScalar → Bytes
  | .empty => []
  | .inArray elements outer => slotsText outer ++ arrayOpen :: elementsText true elements
  | .inObject members outer => slotsText outer ++ objectOpen :: membersText true members
  | .atValue members name outer => slotsText (.object members name :: outer)
  | .complete tree => jsonText tree

theorem assemblyText_fill (slots : List (Slot Bytes JsonScalar)) (tree : Json) :
    assemblyText (Assembly.fill slots tree) = slotsText slots ++ jsonText tree := by
  rcases slots with _ | ⟨slot, outer⟩
  · rfl
  · cases slot with
    | array elements => simp [Assembly.fill, assemblyText, slotsText, slotText, elementsText_concat]
    | object members name =>
      simp [Assembly.fill, assemblyText, slotsText, slotText, membersText_concat]

/-! ## The writer at a place of the document -/

/-- The level of a container that waits for a value: it is not at its first item any more. -/
def slotLevel : Slot Bytes JsonScalar → WriterLevel
  | .array _ => { isObject := false, first := false }
  | .object _ _ => { isObject := true, first := false }

/-- The levels of a writer that has written so much. -/
def assemblyLevels : Assembly Bytes JsonScalar → List WriterLevel
  | .empty => []
  | .inArray elements outer =>
    { isObject := false, first := elements.isEmpty } :: outer.map slotLevel
  | .inObject members outer =>
    { isObject := true, first := members.isEmpty } :: outer.map slotLevel
  | .atValue members name outer => (Slot.object members name :: outer).map slotLevel
  | .complete _ => []

/-- The writer that was told this much. -/
def writerOf (maxBytes : Nat) (s : Assembly Bytes JsonScalar) : JsonWriter where
  out := assemblyText s
  levels := assemblyLevels s
  maxBytes := maxBytes
  afterKey := match s with
    | .atValue _ _ _ => true
    | _ => false
  valid := true
  rootDone := match s with
    | .complete _ => true
    | _ => false

/-- The writer once a value's place is prepared. -/
def awaiting (maxBytes : Nat) (slots : List (Slot Bytes JsonScalar)) : JsonWriter where
  out := slotsText slots
  levels := slots.map slotLevel
  maxBytes := maxBytes

theorem writerOf_fill (maxBytes : Nat) (slots : List (Slot Bytes JsonScalar)) (tree : Json) :
    writerOf maxBytes (Assembly.fill slots tree) =
      { awaiting maxBytes slots with
        out := slotsText slots ++ jsonText tree, rootDone := slots.isEmpty } := by
  rw [← assemblyText_fill]
  rcases slots with _ | ⟨slot, outer⟩
  · rfl
  · cases slot <;>
      simp [writerOf, awaiting, Assembly.fill, assemblyLevels, slotLevel]

/-! ## Appending under a cap -/

namespace JsonWriter

/-- `n` more bytes are within the cap. -/
def Fits (w : JsonWriter) (n : Nat) : Prop := w.maxBytes = 0 ∨ w.out.length + n ≤ w.maxBytes

/-- More text goes out. -/
def append (w : JsonWriter) (text : Bytes) : JsonWriter := { w with out := w.out ++ text }

/-- `w'` has written `text` onto `w`, or has failed because there was no room. -/
structure Emits (w w' : JsonWriter) (text : Bytes) : Prop where
  fits : w.Fits text.length → w' = w.append text
  full : ¬ w.Fits text.length → w'.valid = false

variable {w w' w'' : JsonWriter} {text text' : Bytes}

theorem fits_append : (w.append text).Fits text'.length ↔ w.Fits (text ++ text').length := by
  simp [Fits, append, Nat.add_assoc]

theorem Fits.mono {n n' : Nat} (h : w.Fits n) (hle : n' ≤ n) : w.Fits n' :=
  h.imp_right fun h ↦ by omega

theorem put_invalid (h : w.valid = false) (text : Bytes) : w.put text = w := by
  rw [put, reserve, if_pos h]

theorem put_emits (h : w.valid = true) (text : Bytes) : Emits w (w.put text) text := by
  have hvalid : ¬ w.valid = false := by simp [h]
  constructor
  · rintro (hcap | hroom) <;> rw [put, reserve, if_neg hvalid, if_neg (by omega)] <;> rfl
  · intro hover
    obtain ⟨hcap, hroom⟩ := not_or.1 hover
    rw [put, reserve, if_neg hvalid, if_pos ⟨hcap, not_le.1 hroom⟩]
    rfl

theorem Emits.trans (h : Emits w w' text) (h' : w.Fits text.length →
    Emits (w.append text) w'' text')
    (hfail : w'.valid = false → w''.valid = false) : Emits w w'' (text ++ text') := by
  constructor
  · intro hfits
    have hfirst : w.Fits text.length := hfits.mono (by simp)
    rw [(h' hfirst).fits (fits_append.2 hfits), append, append, append, List.append_assoc]
  · intro hover
    by_cases hfirst : w.Fits text.length
    · exact (h' hfirst).full (mt fits_append.1 hover)
    · exact hfail (h.full hfirst)

theorem Emits.put (h : Emits w w' text) (hvalid : w.valid = true) (text' : Bytes) :
    Emits w (w'.put text') (text ++ text') := by
  refine h.trans (fun hfits ↦ ?_) fun hfail ↦ by rw [put_invalid hfail]; exact hfail
  rw [h.fits hfits]
  exact put_emits (w := w.append text) hvalid text'

/-! ### Strings -/

theorem decodeUtf8_eq (text : Bytes) : decodeUtf8 text = utf8Length text := by
  cases text with
  | nil => rfl
  | cons lead rest =>
    rw [decodeUtf8]
    split
    · rename_i hascii
      have hlead : utf8Lead lead = some (1, lead.toNat) := by rw [utf8Lead, if_pos hascii]
      have hok : utf8Refused 1 lead.toNat = false :=
        utf8Refused_eq_false_iff.2 ⟨by omega, by omega, by omega, by omega, by omega⟩
      exact (utf8Length_cons_eq_some_iff.2 ⟨_, _, hlead, rfl, hok⟩).symm
    · rfl

/-- A round takes at least the byte it looked at. -/
theorem writePiece_used_pos (c : UInt8) (rest : Bytes) : 0 < (writePiece c rest).2 := by
  rw [writePiece]
  split
  · exact Nat.one_pos
  · split_ifs
    · exact Nat.one_pos
    · exact Nat.one_pos
    · split
      · rename_i length hlength
        rw [decodeUtf8_eq] at hlength
        obtain ⟨d, more, -, rfl⟩ := encoding_of_utf8Length hlength
        rw [String.length_utf8EncodeChar]
        exact d.utf8Size_pos
      · exact Nat.one_pos

theorem writeStringLoop_emits {rounds : Nat} {value : Bytes} (hvalid : w.valid = true)
    (hrounds : value.length ≤ rounds) :
    Emits w (writeStringLoop rounds w value) (stringContent rounds value ++ [quoteByte]) := by
  induction rounds generalizing w value with
  | zero =>
    obtain rfl := List.length_eq_zero_iff.1 (Nat.le_zero.1 hrounds)
    exact put_emits hvalid [quoteByte]
  | succ rounds ih =>
    rcases value with _ | ⟨c, rest⟩
    · exact put_emits hvalid [quoteByte]
    · have hused := writePiece_used_pos c rest
      have hrest : ((c :: rest).drop (writePiece c rest).2).length ≤ rounds := by
        rw [List.length_drop, List.length_cons] at *
        omega
      have hput := put_emits hvalid (writePiece c rest).1
      rw [writeStringLoop, stringContent]
      dsimp only
      rw [List.append_assoc]
      refine hput.trans (fun hfits ↦ ?_) fun hfail ↦ ?_
      · rw [hput.fits hfits, if_pos (by exact hvalid)]
        exact ih hvalid hrest
      · rw [if_neg (by simp [hfail])]
        exact hfail

theorem writeString_emits (hvalid : w.valid = true) (value : Bytes) :
    Emits w (w.writeString value) (quoted value) := by
  have hput := put_emits hvalid [quoteByte]
  rw [writeString]
  change Emits w _ ([quoteByte] ++ (stringContent value.length value ++ [quoteByte]))
  refine hput.trans (fun hfits ↦ ?_) fun hfail ↦ ?_
  · rw [hput.fits hfits, if_pos (by exact hvalid)]
    exact writeStringLoop_emits hvalid (le_refl _)
  · rw [if_neg (by simp [hfail])]
    exact hfail

end JsonWriter

/-! ## One event -/

/-- The writer is told an event. -/
def JsonWriter.tell (w : JsonWriter) : JsonEvent → JsonWriter
  | .scalar (.string value) => w.valueString value
  | .scalar (.int value) => w.valueText (intText value)
  | .scalar (.bool value) => w.valueBool value
  | .scalar .null => w.valueNull
  | .beginArray => w.beginArray
  | .endArray => w.endArray
  | .beginObject => w.beginObject
  | .endObject => w.endObject
  | .key name => w.key name

theorem JsonWriter.call_eq (w : JsonWriter) (c : WriterCall) :
    w.call c = c.events.foldl JsonWriter.tell w := by
  cases c <;> rfl

theorem JsonWriter.run_eq_foldl (maxBytes : Nat) (calls : List WriterCall) :
    run maxBytes calls = (calls.flatMap WriterCall.events).foldl tell { maxBytes } := by
  have hcall : ∀ w : JsonWriter, ∀ c ∈ calls, w.call c = c.events.foldl tell w :=
    fun w c _ ↦ w.call_eq c
  rw [run, List.foldl_flatMap]
  exact List.foldl_ext _ _ _ hcall

theorem JsonWriter.tell_invalid {w : JsonWriter} (h : w.valid = false) (event : JsonEvent) :
    w.tell event = w := by
  have hpre : w.preValue = w := by rw [preValue, if_pos h]
  have htext : ∀ text, w.valueText text = w := fun text ↦ by
    rw [valueText, hpre, if_neg (by simp [h])]
  have hbegin : ∀ isObject bracket, w.beginContainer isObject bracket = w := fun _ _ ↦ by
    rw [beginContainer, hpre, if_neg (by simp [h])]
  cases event with
  | scalar value =>
    cases value with
    | string value =>
      change w.valueString value = w
      rw [valueString, hpre, if_neg (by simp [h])]
    | _ => exact htext _
  | beginArray => exact hbegin _ _
  | beginObject => exact hbegin _ _
  | endArray => exact if_pos h
  | endObject => exact if_pos h
  | key name => exact if_pos h

/-- The events that append without a `reserve`. -/
def isClosing : JsonEvent → Bool
  | .endArray => true
  | .endObject => true
  | _ => false

section Step

open JsonWriter

variable {maxBytes : Nat} {s s' : Assembly Bytes JsonScalar}
  {slots : List (Slot Bytes JsonScalar)}

/-- So much text is within the cap. -/
def Capped (maxBytes : Nat) (text : Bytes) : Prop := maxBytes = 0 ∨ text.length ≤ maxBytes

instance (maxBytes : Nat) (text : Bytes) : Decidable (Capped maxBytes text) :=
  inferInstanceAs (Decidable (_ ∨ _))

theorem Capped.left {text text' : Bytes} (h : Capped maxBytes (text ++ text')) :
    Capped maxBytes text :=
  h.imp_right fun h ↦ le_trans (by simp) h

theorem fits_awaiting {text : Bytes} :
    (awaiting maxBytes slots).Fits text.length ↔ Capped maxBytes (slotsText slots ++ text) := by
  rw [Fits, Capped, List.length_append]
  rfl

/-- No value may come: the writer fails. -/
theorem preValue_of_no_slots (h : s.slots = none) :
    (writerOf maxBytes s).preValue.valid = false := by
  cases s with
  | inObject members outer => rfl
  | complete tree => rfl
  | _ => cases h

/-- A value may come: its place is prepared, unless there is no room for the comma. -/
theorem preValue_of_slots (h : s.slots = some slots) :
    (writerOf maxBytes s).preValue = awaiting maxBytes slots ∨
      (writerOf maxBytes s).preValue.valid = false ∧ ¬ Capped maxBytes (slotsText slots) := by
  cases s with
  | empty =>
    cases h
    exact .inl rfl
  | atValue members name outer =>
    cases h
    exact .inl rfl
  | inArray elements outer =>
    cases h
    cases elements with
    | nil =>
      left
      simp [writerOf, awaiting, preValue, assemblyText, assemblyLevels, slotsText,
        slotText, slotLevel,
        separator]
    | cons element elements =>
      have hput := put_emits (w := writerOf maxBytes (.inArray (element :: elements) outer)) rfl
        [commaByte]
      have hpre : (writerOf maxBytes (.inArray (element :: elements) outer)).preValue =
          if ((writerOf maxBytes (.inArray (element :: elements) outer)).put [commaByte]).valid then
            { (writerOf maxBytes (.inArray (element :: elements) outer)).put [commaByte] with
              levels := { isObject := false, first := false } :: outer.map slotLevel }
          else (writerOf maxBytes (.inArray (element :: elements) outer)).put [commaByte] := rfl
      have htext : slotsText (.array (element :: elements) :: outer) =
          assemblyText (.inArray (element :: elements) outer) ++ [commaByte] := by
        simp [slotsText, slotText, assemblyText, separator]
      rw [hpre]
      by_cases hfits : (writerOf maxBytes (.inArray (element :: elements) outer)).Fits
          [commaByte].length
      · left
        rw [hput.fits hfits, if_pos (by rfl), awaiting, htext]
        rfl
      · right
        have hfail := hput.full hfits
        rw [if_neg (by simp [hfail]), htext, Capped, List.length_append]
        exact ⟨hfail, hfits⟩
  | _ => cases h

/-- A value's place is prepared and there is room for its text, or there is no room for both. -/
theorem preValue_cases (h : s.slots = some slots) (text : Bytes) :
    Capped maxBytes (slotsText slots ++ text) ∧ (writerOf maxBytes s).preValue =
      awaiting maxBytes slots ∧ (awaiting maxBytes slots).Fits text.length ∨
    ¬ Capped maxBytes (slotsText slots ++ text) ∧
      ((writerOf maxBytes s).preValue.valid = false ∨ (writerOf maxBytes s).preValue =
        awaiting maxBytes slots ∧ ¬ (awaiting maxBytes slots).Fits text.length) := by
  rcases @preValue_of_slots maxBytes _ _ h with hpre | ⟨hfail, hcap⟩
  · by_cases hfits : (awaiting maxBytes slots).Fits text.length
    · exact .inl ⟨fits_awaiting.1 hfits, hpre, hfits⟩
    · exact .inr ⟨mt fits_awaiting.2 hfits, .inr ⟨hpre, hfits⟩⟩
  · exact .inr ⟨fun hcapped ↦ hcap hcapped.left, .inl hfail⟩

theorem writerOf_scalar (value : JsonScalar) :
    ((awaiting maxBytes slots).append value.text).markRootIfTop =
      writerOf maxBytes (Assembly.fill slots (.scalar value)) := by
  rw [writerOf_fill, jsonText, markRootIfTop]
  cases slots <;> rfl

/-- What an event that has its place does: it needs room for all that is written then, unless it
closes a container. -/
def Told (maxBytes : Nat) (w : JsonWriter) (event : JsonEvent) (s' : Assembly Bytes JsonScalar) :
    Prop :=
  if isClosing event = true ∨ Capped maxBytes (assemblyText s') then
    w.tell event = writerOf maxBytes s'
  else (w.tell event).valid = false

theorem Told.of_value {w : JsonWriter} {event : JsonEvent} {text : Bytes}
    (hclosing : isClosing event = false) (htext : assemblyText s' = slotsText slots ++ text)
    (hroom : Capped maxBytes (slotsText slots ++ text) → w.tell event = writerOf maxBytes s')
    (hfull : ¬ Capped maxBytes (slotsText slots ++ text) → (w.tell event).valid = false) :
    Told maxBytes w event s' := by
  rw [Told, hclosing, htext]
  split
  · rename_i hcap
    exact hroom (hcap.resolve_left (by simp))
  · rename_i hcap
    exact hfull fun h ↦ hcap (.inr h)

theorem markRootIfTop_valid (w : JsonWriter) : w.markRootIfTop.valid = w.valid := by
  rw [markRootIfTop]
  split <;> rfl

theorem told_string (h : s.slots = some slots) (value : Bytes) :
    Told maxBytes (writerOf maxBytes s) (.scalar (.string value))
      (Assembly.fill slots (.scalar (.string value))) := by
  have hemits := writeString_emits (w := awaiting maxBytes slots) rfl value
  have htell : (writerOf maxBytes s).tell (.scalar (.string value)) =
      if (writerOf maxBytes s).preValue.valid then
        ((writerOf maxBytes s).preValue.writeString value).markRootIfTop
      else (writerOf maxBytes s).preValue := rfl
  refine .of_value rfl (assemblyText_fill slots _) (fun hroom ↦ ?_) fun hfull ↦ ?_ <;> rw [htell]
  · obtain ⟨-, hpre, hfits⟩ := (preValue_cases h (quoted value)).resolve_right fun h ↦ h.1 hroom
    rw [hpre, if_pos (by rfl), hemits.fits hfits]
    exact writerOf_scalar (.string value)
  · rcases ((preValue_cases h (quoted value)).resolve_left fun h ↦ hfull h.1).2 with
      hfail | ⟨hpre, hover⟩
    · rw [if_neg (by simp [hfail])]
      exact hfail
    · rw [hpre, if_pos (by rfl), markRootIfTop_valid]
      exact hemits.full hover

/-- The other four kinds of value. -/
theorem told_text (h : s.slots = some slots) {value : JsonScalar}
    (htell : ∀ w : JsonWriter, w.tell (.scalar value) = w.valueText value.text) :
    Told maxBytes (writerOf maxBytes s) (.scalar value)
      (Assembly.fill slots (.scalar value)) := by
  have hemits := put_emits (w := awaiting maxBytes slots) rfl value.text
  refine .of_value rfl (assemblyText_fill slots _) (fun hroom ↦ ?_) fun hfull ↦ ?_ <;>
    rw [htell, valueText]
  · obtain ⟨-, hpre, hfits⟩ := (preValue_cases h value.text).resolve_right fun h ↦ h.1 hroom
    rw [hpre, if_pos (by rfl), hemits.fits hfits, if_pos (by rfl)]
    exact writerOf_scalar value
  · rcases ((preValue_cases h value.text).resolve_left fun h ↦ hfull h.1).2 with
      hfail | ⟨hpre, hover⟩
    · rw [if_neg (by simp [hfail])]
      exact hfail
    · have hfail := hemits.full hover
      rw [hpre, if_pos (by rfl), if_neg (by simp [hfail])]
      exact hfail

/-- A container begins. -/
theorem told_begin (h : s.slots = some slots) {event : JsonEvent} {isObject : Bool}
    {bracket : UInt8}
    (hclosing : isClosing event = false)
    (htell : ∀ w : JsonWriter, w.tell event = w.beginContainer isObject bracket)
    (htext : assemblyText s' = slotsText slots ++ [bracket])
    (hwriter : writerOf maxBytes s' = { (awaiting maxBytes slots).append [bracket] with
      levels := { isObject, first := true } :: slots.map slotLevel }) :
    Told maxBytes (writerOf maxBytes s) event s' := by
  have hemits := put_emits (w := awaiting maxBytes slots) rfl [bracket]
  refine .of_value hclosing htext (fun hroom ↦ ?_) fun hfull ↦ ?_ <;> rw [htell, beginContainer]
  · obtain ⟨-, hpre, hfits⟩ := (preValue_cases h [bracket]).resolve_right fun h ↦ h.1 hroom
    rw [hpre, if_pos (by rfl), hemits.fits hfits, if_pos (by rfl), hwriter]
    rfl
  · rcases ((preValue_cases h [bracket]).resolve_left fun h ↦ hfull h.1).2 with
      hfail | ⟨hpre, hover⟩
    · rw [if_neg (by simp [hfail])]
      exact hfail
    · have hfail := hemits.full hover
      rw [hpre, if_pos (by rfl), if_neg (by simp [hfail])]
      exact hfail

/-- A container ends. -/
theorem close_writerOf {outer : List (Slot Bytes JsonScalar)} {tree : Json} {bracket : UInt8}
    (htext : assemblyText s ++ [bracket] = slotsText outer ++ jsonText tree)
    (hlevels : (assemblyLevels s).tail = outer.map slotLevel)
    (hkey : (writerOf maxBytes s).afterKey = false)
    (hdone : (writerOf maxBytes s).rootDone = false) :
    (writerOf maxBytes s).close bracket = writerOf maxBytes (Assembly.fill outer tree) := by
  have hout : (writerOf maxBytes s).out ++ [bracket] = slotsText outer ++ jsonText tree := htext
  have htail : (writerOf maxBytes s).levels.tail = outer.map slotLevel := hlevels
  rw [writerOf_fill, close, hout, htail, hkey, hdone]
  cases outer <;> rfl

theorem told_endArray (elements : List Json) (outer : List (Slot Bytes JsonScalar)) :
    Told maxBytes (writerOf maxBytes (.inArray elements outer)) .endArray
      (Assembly.fill outer (.array elements)) := by
  rw [Told, if_pos (.inl rfl)]
  exact close_writerOf (by simp [assemblyText, jsonText]) rfl rfl rfl

theorem told_endObject (members : List (Bytes × Json)) (outer : List (Slot Bytes JsonScalar)) :
    Told maxBytes (writerOf maxBytes (.inObject members outer)) .endObject
      (Assembly.fill outer (.object members)) := by
  rw [Told, if_pos (.inl rfl)]
  exact close_writerOf (by simp [assemblyText, jsonText]) rfl rfl rfl

theorem separator_cases {w : JsonWriter} (hvalid : w.valid = true) (first : Bool) :
    (if first then w else w.put [commaByte]) = w.append (separator first) ∨
      (if first then w else w.put [commaByte]).valid = false ∧
        ¬ w.Fits (separator first).length := by
  cases first with
  | true =>
    left
    simp [separator, append]
  | false =>
    have hput := put_emits hvalid [commaByte]
    by_cases hfits : w.Fits [commaByte].length
    · exact .inl (hput.fits hfits)
    · exact .inr ⟨hput.full hfits, hfits⟩

/-- The writer in front of a key, behind the comma. -/
def atKey (maxBytes : Nat) (members : List (Bytes × Json)) (outer : List (Slot Bytes JsonScalar)) :
    JsonWriter where
  out := assemblyText (.inObject members outer) ++ separator members.isEmpty
  levels := { isObject := true, first := false } :: outer.map slotLevel
  maxBytes := maxBytes

/-- What `key` does behind the comma. -/
def JsonWriter.keyBody (w : JsonWriter) (name : Bytes) : JsonWriter :=
  let w := (w.writeString name).put [colonByte]
  if w.valid then { w with afterKey := true } else w

/-- `key` inside an object. -/
theorem key_eq (members : List (Bytes × Json)) (name : Bytes)
    (outer : List (Slot Bytes JsonScalar)) :
    (writerOf maxBytes (.inObject members outer)).key name =
    (atKey maxBytes members outer).keyBody name ∨
      ((writerOf maxBytes (.inObject members outer)).key name).valid = false ∧
        ¬ Capped maxBytes (assemblyText (.inObject members outer) ++
          separator members.isEmpty) := by
  have hkey : ∀ w : JsonWriter, (if members.isEmpty then
        writerOf maxBytes (.inObject members outer)
      else (writerOf maxBytes (.inObject members outer)).put [commaByte]) = w →
      (writerOf maxBytes (.inObject members outer)).key name =
        if w.valid then JsonWriter.keyBody
          { w with levels := { isObject := true, first := false } :: outer.map slotLevel } name
        else w := by
    rintro _ rfl
    rfl
  rcases separator_cases (w := writerOf maxBytes (.inObject members outer)) rfl members.isEmpty with
    hsep | ⟨hfail, hfull⟩
  · left
    rw [hkey _ hsep, if_pos (by rfl)]
    rfl
  · right
    rw [hkey _ rfl, if_neg (by rw [hfail]; decide), Capped, List.length_append]
    exact ⟨hfail, hfull⟩

/-- A key, behind a comma unless it is the first. -/
theorem told_key (members : List (Bytes × Json)) (name : Bytes)
    (outer : List (Slot Bytes JsonScalar)) :
    Told maxBytes (writerOf maxBytes (.inObject members outer)) (.key name)
      (.atValue members name outer) := by
  have hemits := (writeString_emits (w := atKey maxBytes members outer) rfl name).put
    rfl [colonByte]
  have htext : assemblyText (.atValue members name outer) =
      (atKey maxBytes members outer).out ++ (quoted name ++ [colonByte]) := by
    simp [assemblyText, slotsText, slotText, atKey]
  have hfits : (atKey maxBytes members outer).Fits (quoted name ++ [colonByte]).length ↔
      Capped maxBytes (assemblyText (.atValue members name outer)) := by
    simp only [Fits, Capped, htext, List.length_append]
    rfl
  have hnot : ¬ isClosing (.key name) = true := by simp [isClosing]
  rw [Told]
  change if _ then (writerOf maxBytes (.inObject members outer)).key name = _
    else ((writerOf maxBytes (.inObject members outer)).key name).valid = false
  rcases @key_eq maxBytes members name outer with heq | ⟨hfail, hfull⟩
  · rw [heq, JsonWriter.keyBody]
    split
    · rename_i hcap
      rw [hemits.fits (hfits.2 (hcap.resolve_left hnot)), if_pos (by rfl), writerOf, htext]
      rfl
    · rename_i hcap
      have hfail := hemits.full (mt hfits.1 fun h ↦ hcap (.inr h))
      rw [if_neg (by simp [hfail])]
      exact hfail
  · have hover : ¬ Capped maxBytes (assemblyText (.atValue members name outer)) :=
      fun hcap ↦ hfull (Capped.left (htext ▸ hcap))
    rw [if_neg (not_or.2 ⟨hnot, hover⟩)]
    exact hfail

/-- **An event that has its place.** -/
theorem tell_of_step {event : JsonEvent} (h : s.step event = some s') :
    Told maxBytes (writerOf maxBytes s) event s' := by
  cases event with
  | scalar value =>
    obtain ⟨slots, hslots, rfl⟩ := Option.map_eq_some_iff.1 h
    cases value with
    | string value => exact told_string hslots value
    | _ => exact told_text hslots fun _ ↦ rfl
  | beginArray =>
    obtain ⟨slots, hslots, rfl⟩ := Option.map_eq_some_iff.1 h
    exact told_begin hslots rfl (fun _ ↦ rfl) rfl rfl
  | beginObject =>
    obtain ⟨slots, hslots, rfl⟩ := Option.map_eq_some_iff.1 h
    exact told_begin hslots rfl (fun _ ↦ rfl) rfl rfl
  | endArray =>
    cases s with
    | inArray elements outer =>
      cases h
      exact told_endArray elements outer
    | _ => cases h
  | endObject =>
    cases s with
    | inObject members outer =>
      cases h
      exact told_endObject members outer
    | _ => cases h
  | key name =>
    cases s with
    | inObject members outer =>
      cases h
      exact told_key members name outer
    | _ => cases h

/-- **An event that has none fails the writer.** -/
theorem tell_of_no_step {event : JsonEvent} (h : s.step event = none) :
    ((writerOf maxBytes s).tell event).valid = false := by
  have hpre : s.slots = none → (writerOf maxBytes s).preValue.valid = false := preValue_of_no_slots
  cases event with
  | scalar value =>
    have hfail := hpre (Option.map_eq_none_iff.1 h)
    cases value <;> exact (congrArg JsonWriter.valid (if_neg (by simp [hfail]))).trans hfail
  | beginArray =>
    have hfail := hpre (Option.map_eq_none_iff.1 h)
    exact (congrArg JsonWriter.valid (if_neg (by simp [hfail]))).trans hfail
  | beginObject =>
    have hfail := hpre (Option.map_eq_none_iff.1 h)
    exact (congrArg JsonWriter.valid (if_neg (by simp [hfail]))).trans hfail
  | endArray => cases s <;> first | rfl | cases h
  | endObject => cases s <;> first | rfl | cases h
  | key name => cases s <;> first | rfl | cases h

end Step

/-! ## A run -/

/-- A bracket that closes a container. -/
def isClosingByte (c : UInt8) : Bool := c == arrayClose || c == objectClose

/-- A text without the closing brackets at its end. -/
def unclosed (text : Bytes) : Bytes := text.rdropWhile isClosingByte

theorem unclosed_length_le (text : Bytes) : (unclosed text).length ≤ text.length :=
  (List.rdropWhile_prefix isClosingByte text).length_le

theorem unclosed_concat {text : Bytes} {c : UInt8} (h : isClosingByte c = false) :
    unclosed (text ++ [c]) = text ++ [c] :=
  List.rdropWhile_concat_neg _ _ _ (by simp [h])

theorem unclosed_close {text : Bytes} {c : UInt8} (h : isClosingByte c = true) :
    unclosed (text ++ [c]) = unclosed text :=
  List.rdropWhile_concat_pos _ _ _ h

/-- Every digit of a number is one. -/
theorem isDigit_of_mem_toDigits {n : Nat} {b : UInt8}
    (h : b ∈ (Nat.toDigits 10 n).map Char.toUInt8) : isDigit b = true := by
  obtain ⟨c, hc, rfl⟩ := List.mem_map.1 h
  have hdigit := Nat.isDigit_of_mem_toDigits (by decide) (by decide) hc
  obtain ⟨hlow, hhigh⟩ : 48 ≤ c.toNat ∧ c.toNat ≤ 57 := by
    simpa [Char.isDigit, UInt32.le_iff_toNat_le] using hdigit
  have hsmall : c.val.toNat < 256 := Nat.lt_of_le_of_lt hhigh (by decide)
  have hbyte : c.toUInt8.toNat = c.toNat := toNat_byte hsmall
  have h0 : ('0'.toUInt8).toNat = 48 := rfl
  have h9 : ('9'.toUInt8).toNat = 57 := rfl
  simp only [isDigit, Bool.and_eq_true, decide_eq_true_eq, UInt8.le_iff_toNat_le]
  omega

/-- A text whose last byte is not a closing bracket. -/
def EndsOpen (text : Bytes) : Prop := ∃ front c, text = front ++ [c] ∧ isClosingByte c = false

theorem EndsOpen.unclosed {text : Bytes} (h : EndsOpen text) : unclosed text = text := by
  obtain ⟨front, c, rfl, hc⟩ := h
  exact unclosed_concat hc

theorem EndsOpen.prepend {text : Bytes} (h : EndsOpen text) (front : Bytes) :
    EndsOpen (front ++ text) := by
  obtain ⟨more, c, rfl, hc⟩ := h
  exact ⟨front ++ more, c, (List.append_assoc ..).symm, hc⟩

theorem endsOpen_quoted (value : Bytes) : EndsOpen (quoted value) :=
  ⟨quoteByte :: stringContent value.length value, quoteByte, rfl, rfl⟩

theorem endsOpen_intText (value : Int) : EndsOpen (intText value) := by
  refine EndsOpen.prepend ?_ _
  have hne : (Nat.toDigits 10 value.natAbs).map Char.toUInt8 ≠ [] :=
    fun h ↦ Nat.toDigits_ne_nil (List.map_eq_nil_iff.1 h)
  obtain hnil | ⟨front, c, h⟩ := List.eq_nil_or_concat
    ((Nat.toDigits 10 value.natAbs).map Char.toUInt8)
  · exact absurd hnil hne
  · rw [List.concat_eq_append] at h
    refine ⟨front, c, h, ?_⟩
    have hdigit : isDigit c = true := isDigit_of_mem_toDigits (n := value.natAbs) (by simp [h])
    by_contra hclosing
    have hbracket : c = arrayClose ∨ c = objectClose := by
      simpa only [isClosingByte, Bool.not_eq_false, Bool.or_eq_true, beq_iff_eq] using hclosing
    rcases hbracket with rfl | rfl <;> revert hdigit <;> decide

theorem endsOpen_scalar (value : JsonScalar) : EndsOpen value.text := by
  cases value with
  | string value => exact endsOpen_quoted value
  | int value => exact endsOpen_intText value
  | bool value =>
    cases value with
    | true => exact ⟨['t'.toUInt8, 'r'.toUInt8, 'u'.toUInt8], 'e'.toUInt8, literal_bytes.1, rfl⟩
    | false =>
      exact ⟨['f'.toUInt8, 'a'.toUInt8, 'l'.toUInt8, 's'.toUInt8], 'e'.toUInt8, literal_bytes.2.1,
        rfl⟩
  | null => exact ⟨['n'.toUInt8, 'u'.toUInt8, 'l'.toUInt8], 'l'.toUInt8, literal_bytes.2.2, rfl⟩

section Run

variable {maxBytes : Nat} {s s' : Assembly Bytes JsonScalar} {event : JsonEvent}

/-- An event adds to the text; what does not close a container leaves an end that stays. -/
theorem assemblyText_step (h : s.step event = some s') : ∃ text,
    assemblyText s' = assemblyText s ++ text ∧
      if isClosing event then ∃ c, text = [c] ∧ isClosingByte c = true else EndsOpen text := by
  have hslots : ∀ {slots}, s.slots = some slots → ∃ comma,
    slotsText slots = assemblyText s ++ comma := by
    intro slots h
    cases s with
    | empty => cases h; exact ⟨[], rfl⟩
    | inArray elements outer =>
      cases h
      exact ⟨separator elements.isEmpty, by simp [slotsText, slotText, assemblyText]⟩
    | atValue members name outer => cases h; exact ⟨[], (List.append_nil _).symm⟩
    | _ => cases h
  cases event with
  | scalar value =>
    obtain ⟨slots, hvalue, rfl⟩ := Option.map_eq_some_iff.1 h
    obtain ⟨comma, hcomma⟩ := hslots hvalue
    refine ⟨comma ++ value.text, ?_, (endsOpen_scalar value).prepend comma⟩
    rw [assemblyText_fill, hcomma, List.append_assoc, jsonText]
  | beginArray =>
    obtain ⟨slots, hvalue, rfl⟩ := Option.map_eq_some_iff.1 h
    obtain ⟨comma, hcomma⟩ := hslots hvalue
    refine ⟨comma ++ [arrayOpen], ?_, EndsOpen.prepend ⟨[], arrayOpen, rfl, rfl⟩ comma⟩
    rw [assemblyText, hcomma, List.append_assoc, elementsText]
  | beginObject =>
    obtain ⟨slots, hvalue, rfl⟩ := Option.map_eq_some_iff.1 h
    obtain ⟨comma, hcomma⟩ := hslots hvalue
    refine ⟨comma ++ [objectOpen], ?_, EndsOpen.prepend ⟨[], objectOpen, rfl, rfl⟩ comma⟩
    rw [assemblyText, hcomma, List.append_assoc, membersText]
  | endArray =>
    cases s with
    | inArray elements outer =>
      cases h
      exact ⟨[arrayClose], by rw [assemblyText_fill]; simp [jsonText, assemblyText],
        arrayClose, rfl, rfl⟩
    | _ => cases h
  | endObject =>
    cases s with
    | inObject members outer =>
      cases h
      exact ⟨[objectClose], by rw [assemblyText_fill]; simp [jsonText, assemblyText],
        objectClose, rfl,
        rfl⟩
    | _ => cases h
  | key name =>
    cases s with
    | inObject members outer =>
      cases h
      refine ⟨separator members.isEmpty ++ quoted name ++ [colonByte], ?_,
        EndsOpen.prepend ⟨[], colonByte, rfl, rfl⟩ _⟩
      simp [assemblyText, slotsText, slotText]
    | _ => cases h

/-- What is within the cap is the text up to the brackets at its end. -/
def Kept (maxBytes : Nat) (s : Assembly Bytes JsonScalar) : Prop :=
  Capped maxBytes (unclosed (assemblyText s))

/-- What is within the cap after an event was so before. -/
theorem kept_step (h : s.step event = some s') : Kept maxBytes s' ↔
    Kept maxBytes s ∧ (isClosing event = true ∨ Capped maxBytes (assemblyText s')) := by
  obtain ⟨text, htext, hend⟩ := assemblyText_step h
  rw [Kept, Kept, htext]
  split at hend
  · rename_i hclosing
    obtain ⟨c, rfl, hc⟩ := hend
    rw [unclosed_close hc]
    exact (and_iff_left (.inl hclosing)).symm
  · rename_i hopen
    rw [(hend.prepend _).unclosed]
    constructor
    · intro hcap
      exact ⟨hcap.left.imp_right (le_trans (unclosed_length_le _)), .inr hcap⟩
    · exact fun hcap ↦ hcap.2.resolve_left hopen

/-- A run is the writer of what was told, as long as every event had its place and its room. -/
theorem run_eq (maxBytes : Nat) (events : List JsonEvent) :
    (∃ s, assemble events = some s ∧ Kept maxBytes s ∧
      events.foldl JsonWriter.tell { maxBytes } = writerOf maxBytes s) ∨
    ((events.foldl JsonWriter.tell { maxBytes }).valid = false ∧
      ∀ s, assemble events = some s → ¬ Kept maxBytes s) := by
  induction events using List.reverseRecOn with
  | nil => exact .inl ⟨.empty, rfl, .inr (Nat.zero_le _), rfl⟩
  | append_singleton events event ih =>
    rw [List.foldl_append, List.foldl_cons, List.foldl_nil, assemble_concat]
    rcases ih with ⟨s, hs, hkept, hrun⟩ | ⟨hfail, hnot⟩
    · rw [hrun, hs, Option.bind_some]
      cases hstep : s.step event with
      | none => exact .inr ⟨tell_of_no_step hstep, nofun⟩
      | some s' =>
        have htold : Told maxBytes _ _ _ := tell_of_step hstep
        rw [Told] at htold
        split at htold
        · rename_i hroom
          exact .inl ⟨s', rfl, (kept_step hstep).2 ⟨hkept, hroom⟩, htold⟩
        · rename_i hfull
          refine .inr ⟨htold, fun t ht hkept ↦ hfull ?_⟩
          cases ht
          exact ((kept_step hstep).1 hkept).2
    · right
      rw [JsonWriter.tell_invalid hfail]
      refine ⟨hfail, fun t ht hkept ↦ ?_⟩
      obtain ⟨s, hs, hstep⟩ := Option.bind_eq_some_iff.1 ht
      exact hnot s hs ((kept_step hstep).1 hkept).1

end Run

end EosMesh
