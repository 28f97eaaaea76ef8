import EosMesh.Net.Codecs

/-!
# Wide integers in narrow fields

A 32-bit field travels as a varint, which denotes 64 bits, and a reader casts what it has read.  So
a message may be accepted with fields that are not what the wire said.

* `MessageKind.wireInts` reads the same formats as the readers of `net/wire.cpp` do, and keeps
  nothing but the integers these varints denote, before any cast.  It is a reader of its own:
  nothing in it is a reader of the model.
* `Message.varints` lists what the fields they go into hold, in the order in which they travel.
* `Holds` relates a reader to its `wireInts`: behind any bytes, the fields hold the integers, each
  cast to 32 bits.  `follows_part` is the rule by which it is put together, one part of a format
  after the other, and each format is then one line.
* `varints_of_deserialize`: each field holds its integer cast to 32 bits, in every message a reader
  accepts.
* `narrowing_exact`: so the fields say what the wire said exactly when every integer fits.
  `narrowing_wraps` is one that does not: a reason of 2^32 arrives as success.
-/

set_option autoImplicit false

namespace EosMesh

open Lib

/-! ## What the fields hold -/

/-- The integers of an attribute, in the order in which they are written. -/
def SessionAttribute.varints (msg : SessionAttribute) : List Int32 :=
  [msg.valueType, msg.advertisement]

/-- The integers of a member, and those of its attributes. -/
def LobbyMember.varints (msg : LobbyMember) : List Int32 :=
  msg.platform :: msg.attributes.flatMap SessionAttribute.varints

/-- The integers of a lobby, and those of what is in it. -/
def LobbyInfos.varints (msg : LobbyInfos) : List Int32 :=
  msg.permissionLevel :: (msg.attributes.flatMap SessionAttribute.varints ++
    msg.members.flatMap LobbyMember.varints)

/-- The integers of a session, and those of its attributes. -/
def SessionInfos.varints (msg : SessionInfos) : List Int32 :=
  msg.permissionLevel :: msg.state :: msg.attributes.flatMap SessionAttribute.varints

/-- The integers of a condition. -/
def SearchParameter.varints (msg : SearchParameter) : List Int32 :=
  msg.attr.varints ++ [msg.comparisonOp]

/-- The 32-bit fields that travel as varints, in the order they travel in. -/
def Message.varints : Message → List Int32
  | p2pData msg => [msg.channel]
  | sessionInfos msg => msg.varints
  | sessionSearch msg => msg.parameters.flatMap SearchParameter.varints
  | sessionSearchResponse msg => msg.sessions.flatMap SessionInfos.varints
  | sessionJoinResponse msg => [msg.reason]
  | presenceInfo msg => [msg.status]
  | lobbyInfos msg => msg.varints
  | lobbySearch msg => msg.parameters.flatMap SearchParameter.varints
  | lobbySearchResponse msg => msg.lobbies.flatMap LobbyInfos.varints
  | lobbyJoinRequest msg => msg.member.varints
  | lobbyJoinResponse msg => [msg.reason]
  | lobbyMemberUpdate msg => msg.member.varints
  | lobbyDestroy msg => [msg.reason]
  | envelope _ | netAdvertise _ | emuInfos _ | connectInfos _ | sessionJoinRequest _
  | sessionDestroy _ | sessionMembers _ | presenceRequest _ => []

/-! ## What the wire says -/

/-- Reads the integers some part of a message carries for 32-bit fields. -/
abbrev WireInts := ByteReader (List Int64)

namespace WireInts

/-- Something without any. -/
def skip {α : Type} (r : ByteReader α) : WireInts := do
  let _ ← r
  pure []

/-- One integer, as it stands in the bytes. -/
def one : WireInts := do
  let value ← getSvar
  pure [value]

/-- One part after the other. -/
def andThen (first second : WireInts) : WireInts := do
  let ints ← first
  let more ← second
  pure (ints ++ more)

/-- The integers of each element of a list. -/
def listOf (element : WireInts) : WireInts := do
  let count ← getVar
  let ints ← readMany element count.toNat
  pure ints.flatten

/-- The integers of parts that stand one after the other. -/
def inOrder : List WireInts → WireInts
  | [] => pure []
  | part :: parts => part.andThen (inOrder parts)

/-- The type of a value says what follows it. -/
def attr : WireInts := do
  let _ ← getBytes
  let valueType ← getSvar
  let advertisement ← getSvar
  let ints := [valueType, advertisement]
  if valueType = attributeBool.toInt64 then do
    let _ ← getBool
    pure ints
  else if valueType = attributeInt64.toInt64 then do
    let _ ← getSvar
    pure ints
  else if valueType = attributeDouble.toInt64 then do
    let _ ← getF64
    pure ints
  else do
    let _ ← getBytes
    pure ints

/-- Where the integers of a member are. -/
def member : WireInts := inOrder [skip getBytes, one, listOf attr]

/-- Where the integers of a lobby are. -/
def lobbyInfos : WireInts :=
  inOrder [skip getBytes, skip getBytes, skip getBytes, one, skip getU32, skip getU32, skip getBool,
    skip getBool, skip getBool, skip getBool, listOf attr, listOf member]

/-- Where the integers of a session are. -/
def sessionInfos : WireInts :=
  inOrder [skip getBytes, skip getBytes, skip getBytes, skip getBytes, skip getU32,
    skip getU32, one,
    one, skip getBool, skip getBool, skip getBool, listOf (skip getBytes), listOf attr]

/-- Where the integers of a condition are. -/
def parameter : WireInts := inOrder [attr, one]

/-- A search of either kind. -/
def search : WireInts :=
  inOrder [skip getBytes, skip getBytes, skip getBytes, skip getU32, listOf parameter]

/-- Where the integer of a presence is. -/
def presenceInfo : WireInts :=
  inOrder [skip getBytes, one, skip getBytes, skip getBytes, skip getBytes, skip getBytes,
    skip getBytes, skip getBytes, skip getBytes, listOf (inOrder [skip getBytes, skip getBytes])]

end WireInts

/-- The integers a message of each kind carries for its 32-bit fields. -/
def MessageKind.wireInts : MessageKind → WireInts
  | p2pData => .inOrder [.skip getBytes, .one, .skip getBytes]
  | sessionInfos => .sessionInfos
  | sessionSearch => .search
  | sessionSearchResponse => .inOrder [.skip getBytes, .listOf .sessionInfos]
  | sessionJoinResponse => .inOrder [.skip getBytes, .skip getBytes, .one]
  | presenceInfo => .presenceInfo
  | lobbyInfos => .lobbyInfos
  | lobbySearch => .search
  | lobbySearchResponse => .inOrder [.skip getBytes, .listOf .lobbyInfos]
  | lobbyJoinRequest => .inOrder [.skip getBytes, .skip getBool, .member]
  | lobbyJoinResponse => .inOrder [.skip getBytes, .skip getBytes, .one]
  | lobbyMemberUpdate => .inOrder [.skip getBytes, .member]
  | lobbyDestroy => .inOrder [.skip getBytes, .one]
  | envelope => .skip NetEnvelope.deserialize
  | netAdvertise => .skip NetAdvertise.deserialize
  | emuInfos => .skip EmuInfos.deserialize
  | connectInfos => .skip ConnectInfos.deserialize
  | sessionJoinRequest => .skip SessionJoinRequest.deserialize
  | sessionDestroy => .skip SessionDestroy.deserialize
  | sessionMembers => .skip SessionMembers.deserialize
  | presenceRequest => .skip PresenceRequest.deserialize

/-! ## Casts -/

/-- The integer is one a 32-bit field has. -/
def FitsInt32 (value : Int64) : Prop :=
  Int32.minValue.toInt64 ≤ value ∧ value ≤ Int32.maxValue.toInt64

instance (value : Int64) : Decidable (FitsInt32 value) := inferInstanceAs (Decidable (_ ∧ _))

/-- A cast keeps the integer exactly when it fits. -/
theorem toInt64_toInt32_eq_iff {value : Int64} :
    value.toInt32.toInt64 = value ↔ FitsInt32 value := by
  have hmin : Int32.minValue.toInt64.toInt = -2147483648 := rfl
  have hmax : Int32.maxValue.toInt64.toInt = 2147483647 := rfl
  rw [FitsInt32, Int64.le_iff_toInt_le, Int64.le_iff_toInt_le, hmin, hmax]
  constructor
  · intro heq
    have hlo := value.toInt32.minValue_le_toInt
    have hhi := value.toInt32.toInt_le
    rw [← heq, Int32.toInt_toInt64]
    exact ⟨hlo, hhi⟩
  · rintro ⟨hlo, hhi⟩
    rw [← Int64.toInt_inj, Int32.toInt_toInt64, Int64.toInt_toInt32]
    exact Int.bmod_eq_of_le (by norm_num; omega) (by norm_num; omega)

/-- The fields say what the wire said exactly when every integer of it fits. -/
theorem map_toInt64_toInt32_eq_iff {ints : List Int64} :
    (ints.map Int64.toInt32).map Int32.toInt64 = ints ↔ ∀ value ∈ ints, FitsInt32 value := by
  induction ints with
  | nil => simp
  | cons value ints ih =>
    rw [List.map_cons, List.map_cons, List.cons.injEq, ih, toInt64_toInt32_eq_iff,
      List.forall_mem_cons]

/-! ## Each field holds its integer, cast -/

/-- Behind `before`, the fields hold the integers, each cast to 32 bits. -/
def Holds {α : Type} (before : List Int32) (fields : α → List Int32) (value : α)
    (ints : List Int64) : Prop :=
  fields value = before ++ ints.map Int64.toInt32

namespace WireInts

variable {α β : Type} {r : ByteReader α} {part : WireInts} {parts : List WireInts}

theorem follows_skip (r : ByteReader α) : Follows r (skip r) (Holds [] fun _ ↦ []) := by
  intro input a rest hrun
  refine ⟨[], ?_, rfl⟩
  rw [skip, StateT.run_bind, hrun]
  rfl

theorem follows_one : Follows getSvar one (Holds [] fun value ↦ [value.toInt32]) := by
  intro input a rest hrun
  refine ⟨[a], ?_, rfl⟩
  rw [one, StateT.run_bind, hrun]
  rfl

/-- The rule of composition. -/
theorem follows_part {f : α → ByteReader β} {fields : α → List Int32} {all : β → List Int32}
    {before : List Int32} (h : Follows r part (Holds [] fields))
    (hf : ∀ a, Follows (f a) (inOrder parts) (Holds (before ++ fields a) all)) :
    Follows (r >>= f) (inOrder (part :: parts)) (Holds before all) := by
  rw [inOrder, andThen]
  refine h.bind fun a ints hints ↦ ?_
  intro input c rest hrun
  obtain ⟨more, hmore, hall⟩ := hf a input c rest hrun
  refine ⟨ints ++ more, ?_, ?_⟩
  · rw [StateT.run_bind, hmore]
    rfl
  · rw [Holds] at hints hall ⊢
    rw [hall, hints, List.map_append, List.nil_append, List.append_assoc]

theorem follows_end {value : β} {all : β → List Int32} {before : List Int32}
    (h : all value = before) : Follows (pure value) (inOrder []) (Holds before all) :=
  .pure (by rw [Holds, h, List.map_nil, List.append_nil])

theorem follows_listOf {fields : α → List Int32} (h : Follows r part (Holds [] fields))
    (cap : Nat) :
    Follows (getList r cap) (listOf part) (Holds [] fun xs ↦ xs.flatMap fields) := by
  have hflat {xs : List α} {intss : List (List Int64)}
      (hall : List.Forall₂ (Holds [] fields) xs intss) :
      xs.flatMap fields = intss.flatten.map Int64.toInt32 := by
    induction hall with
    | nil => rfl
    | cons hx _ ih => rw [List.flatMap_cons, ih, hx, List.flatten_cons, List.map_append]; rfl
  rw [getList, readListCount, listOf]
  simp only [bind_assoc, pure_bind]
  refine .same fun count ↦ .remaining fun left ↦ .check fun _ ↦ ?_
  intro input xs rest hrun
  obtain ⟨intss, hintss, hall⟩ := h.readMany count.toNat input xs rest hrun
  refine ⟨intss.flatten, ?_, hflat hall⟩
  rw [StateT.run_bind, hintss]
  rfl

/-- A type in range is the same type on 32 bits. -/
theorem toInt32_eq_iff {value : Int64} {type : Int32}
    (h : attributeBool.toInt64 ≤ value ∧ value ≤ attributeString.toInt64) :
    value.toInt32 = type ↔ value = type.toInt64 := by
  have hsame : value.toInt32.toInt64 = value := by
    refine toInt64_toInt32_eq_iff.2 ⟨Int64.le_trans ?_ h.1, Int64.le_trans h.2 ?_⟩
    · exact toInt64_le_toInt64 (by decide)
    · exact toInt64_le_toInt64 (by decide)
  constructor
  · rintro rfl
    exact hsame.symm
  · rintro rfl
    exact Int32.toInt32_toInt64 type

theorem follows_attr : Follows SessionAttribute.deserialize attr
    (Holds [] SessionAttribute.varints) := by
  rw [SessionAttribute.deserialize, attr]
  refine .same fun key ↦ .same fun valueType ↦ .same fun advertisement ↦ .check fun hknown ↦ ?_
  dsimp only
  simp only [toInt32_eq_iff hknown]
  split
  · exact .same fun _ ↦ .pure rfl
  · split
    · exact .same fun _ ↦ .pure rfl
    · split
      · exact .same fun _ ↦ .pure rfl
      · exact .same fun _ ↦ .pure rfl

theorem follows_member : Follows readMember member (Holds [] LobbyMember.varints) := by
  refine follows_part (follows_skip _) fun userId ↦ follows_part follows_one fun platform ↦ ?_
  refine follows_part (follows_listOf follows_attr _) fun attributes ↦ follows_end ?_
  rfl

theorem follows_lobbyInfos :
    Follows LobbyInfos.deserialize lobbyInfos (Holds [] LobbyInfos.varints) := by
  refine follows_part (follows_skip _) fun _ ↦ follows_part (follows_skip _) fun _ ↦ ?_
  refine follows_part (follows_skip _) fun _ ↦ follows_part follows_one fun _ ↦ ?_
  refine follows_part (follows_skip _) fun _ ↦ follows_part (follows_skip _) fun _ ↦ ?_
  refine follows_part (follows_skip _) fun _ ↦ follows_part (follows_skip _) fun _ ↦ ?_
  refine follows_part (follows_skip _) fun _ ↦ follows_part (follows_skip _) fun _ ↦ ?_
  refine follows_part (follows_listOf follows_attr _) fun _ ↦ ?_
  exact follows_part (follows_listOf follows_member _) fun _ ↦ follows_end rfl

theorem follows_sessionInfos :
    Follows SessionInfos.deserialize sessionInfos (Holds [] SessionInfos.varints) := by
  refine follows_part (follows_skip _) fun _ ↦ follows_part (follows_skip _) fun _ ↦ ?_
  refine follows_part (follows_skip _) fun _ ↦ follows_part (follows_skip _) fun _ ↦ ?_
  refine follows_part (follows_skip _) fun _ ↦ follows_part (follows_skip _) fun _ ↦ ?_
  refine follows_part follows_one fun _ ↦ follows_part follows_one fun _ ↦ ?_
  refine follows_part (follows_skip _) fun _ ↦ follows_part (follows_skip _) fun _ ↦ ?_
  refine follows_part (follows_skip _) fun _ ↦ ?_
  refine follows_part (follows_listOf (follows_skip getBytes) _) fun players ↦ ?_
  refine follows_part (follows_listOf follows_attr _) fun _ ↦ follows_end ?_
  simp [SessionInfos.varints]

theorem follows_parameter :
    Follows SearchParameter.deserialize parameter (Holds [] SearchParameter.varints) :=
  follows_part follows_attr fun _ ↦ follows_part follows_one fun _ ↦ follows_end rfl

theorem follows_p2pData : Follows P2pData.deserialize (inOrder [skip getBytes, one, skip getBytes])
    (Holds [] fun msg ↦ [msg.channel]) := by
  refine follows_part (follows_skip _) fun _ ↦ follows_part follows_one fun _ ↦ .check fun _ ↦ ?_
  exact follows_part (follows_skip _) fun _ ↦ follows_end rfl

theorem follows_presenceInfo :
    Follows PresenceInfo.deserialize presenceInfo (Holds [] fun msg ↦ [msg.status]) := by
  have hrecord : Follows PresenceDataRecord.deserialize (inOrder [skip getBytes, skip getBytes])
      (Holds [] fun _ ↦ []) :=
    follows_part (follows_skip _) fun _ ↦ follows_part (follows_skip _) fun _ ↦ follows_end rfl
  refine follows_part (follows_skip _) fun _ ↦ follows_part follows_one fun _ ↦ ?_
  refine follows_part (follows_skip _) fun _ ↦ follows_part (follows_skip _) fun _ ↦ ?_
  refine follows_part (follows_skip _) fun _ ↦ follows_part (follows_skip _) fun _ ↦ ?_
  refine follows_part (follows_skip _) fun _ ↦ follows_part (follows_skip _) fun _ ↦ ?_
  refine follows_part (follows_skip _) fun _ ↦ ?_
  refine follows_part (follows_listOf hrecord _) fun _ ↦ follows_end ?_
  simp

/-- A reader of one kind of message, as a reader of messages. -/
theorem follows_tag (tag : α → Message) (fields : α → List Int32)
    (h : Follows r part (Holds [] fields)) (hfields : ∀ a, (tag a).varints = fields a) :
    Follows (tag <$> r) part (Holds [] Message.varints) := by
  intro input msg rest hrun
  rw [StateT.run_map] at hrun
  obtain ⟨⟨a, left⟩, ha, hmsg⟩ := Option.map_eq_some_iff.1 hrun
  cases hmsg
  obtain ⟨ints, hints, hholds⟩ := h input a left ha
  exact ⟨ints, hints, (hfields a).trans hholds⟩

end WireInts

/-- **Each 32-bit field holds the integer of its varint, cast**: in every message a reader
accepts. -/
theorem varints_of_deserialize (kind : MessageKind) :
    Follows kind.deserialize kind.wireInts (Holds [] Message.varints) := by
  open WireInts in
  cases kind with
  | envelope => exact follows_tag .envelope _ (follows_skip _) fun _ ↦ rfl
  | netAdvertise => exact follows_tag .netAdvertise _ (follows_skip _) fun _ ↦ rfl
  | emuInfos => exact follows_tag .emuInfos _ (follows_skip _) fun _ ↦ rfl
  | connectInfos => exact follows_tag .connectInfos _ (follows_skip _) fun _ ↦ rfl
  | p2pData => exact follows_tag .p2pData _ follows_p2pData fun _ ↦ rfl
  | sessionInfos => exact follows_tag .sessionInfos _ follows_sessionInfos fun _ ↦ rfl
  | sessionSearch =>
    refine follows_tag .sessionSearch (fun msg ↦ msg.parameters.flatMap _) ?_ fun _ ↦ rfl
    refine follows_part (follows_skip _) fun _ ↦ follows_part (follows_skip _) fun _ ↦ ?_
    refine follows_part (follows_skip _) fun _ ↦ follows_part (follows_skip _) fun _ ↦ ?_
    exact follows_part (follows_listOf follows_parameter _) fun _ ↦ follows_end rfl
  | sessionSearchResponse =>
    refine follows_tag .sessionSearchResponse (fun msg ↦ msg.sessions.flatMap _) ?_
      fun _ ↦ rfl
    refine follows_part (follows_skip _) fun _ ↦ ?_
    exact follows_part (follows_listOf follows_sessionInfos _) fun _ ↦ follows_end rfl
  | sessionJoinRequest => exact follows_tag .sessionJoinRequest _ (follows_skip _) fun _ ↦ rfl
  | sessionJoinResponse =>
    refine follows_tag .sessionJoinResponse (fun msg ↦ [msg.reason]) ?_ fun _ ↦ rfl
    refine follows_part (follows_skip _) fun _ ↦ follows_part (follows_skip _) fun _ ↦ ?_
    exact follows_part follows_one fun _ ↦ follows_end rfl
  | sessionDestroy => exact follows_tag .sessionDestroy _ (follows_skip _) fun _ ↦ rfl
  | sessionMembers => exact follows_tag .sessionMembers _ (follows_skip _) fun _ ↦ rfl
  | presenceInfo => exact follows_tag .presenceInfo _ follows_presenceInfo fun _ ↦ rfl
  | presenceRequest => exact follows_tag .presenceRequest _ (follows_skip _) fun _ ↦ rfl
  | lobbyInfos => exact follows_tag .lobbyInfos _ follows_lobbyInfos fun _ ↦ rfl
  | lobbySearch =>
    refine follows_tag .lobbySearch (fun msg ↦ msg.parameters.flatMap _) ?_ fun _ ↦ rfl
    refine follows_part (follows_skip _) fun _ ↦ follows_part (follows_skip _) fun _ ↦ ?_
    refine follows_part (follows_skip _) fun _ ↦ follows_part (follows_skip _) fun _ ↦ ?_
    exact follows_part (follows_listOf follows_parameter _) fun _ ↦ follows_end rfl
  | lobbySearchResponse =>
    refine follows_tag .lobbySearchResponse (fun msg ↦ msg.lobbies.flatMap _) ?_
      fun _ ↦ rfl
    refine follows_part (follows_skip _) fun _ ↦ ?_
    exact follows_part (follows_listOf follows_lobbyInfos _) fun _ ↦ follows_end rfl
  | lobbyJoinRequest =>
    refine follows_tag .lobbyJoinRequest (fun msg ↦ msg.member.varints) ?_ fun _ ↦ rfl
    refine follows_part (follows_skip _) fun _ ↦ follows_part (follows_skip _) fun _ ↦ ?_
    exact follows_part follows_member fun _ ↦ follows_end rfl
  | lobbyJoinResponse =>
    refine follows_tag .lobbyJoinResponse (fun msg ↦ [msg.reason]) ?_ fun _ ↦ rfl
    refine follows_part (follows_skip _) fun _ ↦ follows_part (follows_skip _) fun _ ↦ ?_
    exact follows_part follows_one fun _ ↦ follows_end rfl
  | lobbyMemberUpdate =>
    refine follows_tag .lobbyMemberUpdate (fun msg ↦ msg.member.varints) ?_ fun _ ↦ rfl
    refine follows_part (follows_skip _) fun _ ↦ ?_
    exact follows_part follows_member fun _ ↦ follows_end rfl
  | lobbyDestroy =>
    refine follows_tag .lobbyDestroy (fun msg ↦ [msg.reason]) ?_ fun _ ↦ rfl
    refine follows_part (follows_skip _) fun _ ↦ ?_
    exact follows_part follows_one fun _ ↦ follows_end rfl

/-- **The fields of an accepted message say what the wire said exactly when every integer of it
fits.** -/
theorem narrowing_exact {kind : MessageKind} {bytes rest : Bytes} {msg : Message}
    (h : kind.deserialize.run bytes = some (msg, rest)) :
    ∃ ints, kind.wireInts.run bytes = some (ints, rest) ∧
      (msg.varints.map Int32.toInt64 = ints ↔ ∀ value ∈ ints, FitsInt32 value) := by
  obtain ⟨ints, hints, hholds⟩ := varints_of_deserialize kind bytes msg rest h
  refine ⟨ints, hints, ?_⟩
  rw [hholds, List.nil_append, map_toInt64_toInt32_eq_iff]

/-- The answer to a join, with any integer for its reason. -/
def answerWith (reason : Int64) : Bytes := putBytes [1] ++ putBytes [2] ++ putSvar reason

/-- A reason that fits arrives as it was sent. -/
theorem narrowing_exact_answer : ∃ ints,
    MessageKind.lobbyJoinResponse.wireInts.run (answerWith 7) = some (ints, []) ∧
      ([(7 : Int32)].map Int32.toInt64 = ints ↔ ∀ value ∈ ints, FitsInt32 value) :=
  @narrowing_exact .lobbyJoinResponse (answerWith 7) [] (.lobbyJoinResponse ⟨[1], [2], 7⟩)
    (by decide +kernel)

/-- The reason 2^32, no `EOS_EResult` at all, arrives as 0, which is success. -/
theorem narrowing_wraps :
    MessageKind.lobbyJoinResponse.wireInts.run (answerWith (2 ^ 32)) = some ([2 ^ 32], []) ∧
      MessageKind.lobbyJoinResponse.deserialize.run (answerWith (2 ^ 32)) =
        some (.lobbyJoinResponse ⟨[1], [2], 0⟩, []) := by
  decide +kernel

end EosMesh
