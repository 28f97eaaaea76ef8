import EosMesh.Net.Messages

/-!
# The wire format

`net/wire.cpp`: how each message is written and read back, the bounds a reader puts on the lists a
peer may claim, and the framing of a message on a stream.

A message's `serialize` is the bytes it appends and its `deserialize` a `ByteReader`.  Everything a
reader refuses is refused here too: an unknown version, an attribute type it does not know, a
channel that is not an `i32`, a list longer than its bound or than the bytes left.

The main results are the round trips: what `serialize` writes, `deserialize` reads back, whatever
follows it.  They need each list within its reader's bound (`LobbyInfos.WithinCaps` and its parts),
which is a real condition: the writers do not check it.  `LobbyInfos.decodesTo` says what is left of
a round trip without it.

* `decodes_getList` is the rule for lists: one within its bound comes back, if its elements do and
  none is written as nothing.  The last is needed since a reader refuses a count above the bytes
  that are left.
* An attribute carries one value, of the four its record has room for; the one its type names comes
  back, and the others are at their defaults then.  So only what has nothing else set comes back as
  it was.
* A 32-bit field is written as a varint of 64 bits, and read back by a cast.  What was written fits;
  what a peer writes need not (`Net.Narrowing`).
* `tryDeframe_frameMessage`: a framed body is what is taken off the front of a stream again, and
  nothing more.

The round trip of any message whatever, by its tag, is `Net.Codecs`.
-/

set_option autoImplicit false

namespace EosMesh

open Lib

/-! ## Bounds on inbound lists -/

/-- The longest lists of attributes and of members that a reader takes. -/
def maxAttributesInList : Nat := 64

def maxLobbyMembers : Nat := 64

/-- Read a list length that is safe to reserve: within the bound and within the bytes left. -/
def readListCount (cap : Nat) : ByteReader Nat := do
  let count ← getVar
  let left ← remaining
  check (count.toNat ≤ cap ∧ count.toNat ≤ left)
  pure count.toNat

/-- The count a list begins with. -/
def putListCount (count : Nat) : Bytes := putVar (UInt64.ofNat count)

/-- A counted list, in the shape every list of the format has. -/
def putList {α : Type} (put : α → Bytes) (xs : List α) : Bytes :=
  putListCount xs.length ++ xs.flatMap put

/-- A list behind its count, which is held against its cap before anything is read. -/
def getList {α : Type} (get : ByteReader α) (cap : Nat) : ByteReader (List α) := do
  let count ← readListCount cap
  readMany get count

/-- A list within its bound comes back, if its elements do and none is written as nothing. -/
theorem decodes_getList {α : Type} {get : ByteReader α} {put : α → Bytes} {cap : Nat}
    {xs : List α} (hget : ∀ x ∈ xs, Decodes get (put x) x) (hne : ∀ x, put x ≠ [])
    (hcap : xs.length ≤ cap) (hlen : xs.length < 2 ^ 64) :
    Decodes (getList get cap) (putList put xs) xs := by
  have hcount : (UInt64.ofNat xs.length).toNat = xs.length := by
    rw [UInt64.toNat_ofNat']
    exact Nat.mod_eq_of_lt hlen
  rw [getList, readListCount, bind_assoc, putList, putListCount]
  refine (decodes_getVar _).bind ?_
  rw [bind_assoc]
  refine Decodes.remaining_bind fun left hleft ↦ ?_
  have := length_le_length_flatMap hne xs
  rw [hcount, bind_assoc]
  exact Decodes.check_bind ⟨hcap, by omega⟩ (Decodes.readMany hget)

/-! ## The envelope and the advertisement -/

/-- The envelope of every message: the version of the format first, the payload last. -/
def NetEnvelope.serialize (msg : NetEnvelope) : Bytes :=
  putU8 wireProtocolVersion ++ putU16 msg.typeTag ++ putBytes msg.sourceId ++
    putBytes msg.destId ++ putBytes msg.gameId ++ putSvar msg.timestamp ++ putBytes msg.payload

/-- An envelope of another version is not read any further. -/
def NetEnvelope.deserialize : ByteReader NetEnvelope := do
  let version ← getU8
  check (version = wireProtocolVersion)
  let typeTag ← getU16
  let sourceId ← getBytes
  let destId ← getBytes
  let gameId ← getBytes
  let timestamp ← getSvar
  let payload ← getBytes
  pure { typeTag, sourceId, destId, gameId, timestamp, payload }

/-- What an instance announces on the local network: who it is, and its ports. -/
def NetAdvertise.serialize (msg : NetAdvertise) : Bytes :=
  putBytes msg.productUserId ++ putBytes msg.gameId ++ putU16 msg.tcpPort ++ putU16 msg.udpPort

/-- It is an announcement, not a proof: only a handshake shows who is there. -/
def NetAdvertise.deserialize : ByteReader NetAdvertise := do
  let productUserId ← getBytes
  let gameId ← getBytes
  let tcpPort ← getU16
  let udpPort ← getU16
  pure { productUserId, gameId, tcpPort, udpPort }

/-- Every field of an envelope fits what `std::string` and `std::vector` can hold. -/
structure NetEnvelope.Sized (msg : NetEnvelope) : Prop where
  sourceId : msg.sourceId.length < 2 ^ 64
  destId : msg.destId.length < 2 ^ 64
  gameId : msg.gameId.length < 2 ^ 64
  payload : msg.payload.length < 2 ^ 64

theorem NetEnvelope.decodes {msg : NetEnvelope} (h : msg.Sized) :
    Decodes NetEnvelope.deserialize msg.serialize msg := by
  rw [serialize]
  simp only [List.append_assoc]
  refine (decodes_getU8 _).bind (Decodes.check_bind rfl ?_)
  refine (decodes_getU16 _).bind ((decodes_getBytes h.sourceId).bind ?_)
  refine (decodes_getBytes h.destId).bind ((decodes_getBytes h.gameId).bind ?_)
  exact (decodes_getSvar _).bind (decodes_getBytes h.payload).map

/-! ## P2P data -/

/-- A packet of the game, under its socket and channel. -/
def P2pData.serialize (msg : P2pData) : Bytes :=
  putBytes msg.socketName ++ putSvar msg.channel.toInt64 ++ putBytes msg.data

/-- A channel that is not an `i32` is refused, though only 256 of them are used. -/
def P2pData.deserialize : ByteReader P2pData := do
  let socketName ← getBytes
  let channel ← getSvar
  check (Int32.minValue.toInt64 ≤ channel ∧ channel ≤ Int32.maxValue.toInt64)
  let data ← getBytes
  pure { socketName, channel := channel.toInt32, data }

theorem P2pData.decodes {msg : P2pData} (hname : msg.socketName.length < 2 ^ 64)
    (hdata : msg.data.length < 2 ^ 64) : Decodes P2pData.deserialize msg.serialize msg := by
  have hrange : Int32.minValue.toInt64 ≤ msg.channel.toInt64 ∧
      msg.channel.toInt64 ≤ Int32.maxValue.toInt64 := by
    rw [Int64.le_iff_toInt_le, Int64.le_iff_toInt_le, Int32.toInt_toInt64, Int32.toInt_toInt64,
      Int32.toInt_toInt64]
    exact ⟨Int32.minValue_le_toInt _, Int32.toInt_le _⟩
  rw [serialize, List.append_assoc]
  refine (decodes_getBytes hname).bind ((decodes_getSvar _).bind (Decodes.check_bind hrange ?_))
  have := (decodes_getBytes hdata).map (f := fun data ↦ P2pData.mk msg.socketName msg.channel data)
  simpa only [Int32.toInt32_toInt64] using this

/-! ## Attributes, members and lobbies -/

/-- `EOS_EAttributeType`, as it travels on the wire. -/
def attributeBool : Int32 := 0
/-- The types of an attribute's value. -/
def attributeInt64 : Int32 := 1
def attributeDouble : Int32 := 2
def attributeString : Int32 := 3

/-- Only the value the type names is on the wire. -/
def SessionAttribute.serialize (msg : SessionAttribute) : Bytes :=
  putBytes msg.key ++ putSvar msg.valueType.toInt64 ++ putSvar msg.advertisement.toInt64 ++
    (if msg.valueType = attributeBool then putBool msg.asBool
    else if msg.valueType = attributeInt64 then putSvar msg.asInt64
    else if msg.valueType = attributeDouble then putF64 msg.asDouble
    else putBytes msg.asString)

/-- A type that is not known is refused. -/
def SessionAttribute.deserialize : ByteReader SessionAttribute := do
  let key ← getBytes
  let valueType ← getSvar
  let advertisement ← getSvar
  -- A peer picks the type, so a type we do not know is malformed rather than something to guess.
  check (attributeBool.toInt64 ≤ valueType ∧ valueType ≤ attributeString.toInt64)
  let msg : SessionAttribute :=
    { key, valueType := valueType.toInt32, advertisement := advertisement.toInt32 }
  if msg.valueType = attributeBool then do
    let asBool ← getBool
    pure { msg with asBool }
  else if msg.valueType = attributeInt64 then do
    let asInt64 ← getSvar
    pure { msg with asInt64 }
  else if msg.valueType = attributeDouble then do
    let asDouble ← getF64
    pure { msg with asDouble }
  else do
    let asString ← getBytes
    pure { msg with asString }

/-- A member of a lobby, with its attributes. -/
def writeMember (member : LobbyMember) : Bytes :=
  putBytes member.userId ++ putSvar member.platform.toInt64 ++
    putList SessionAttribute.serialize member.attributes

/-- A member of a lobby; its platform is narrowed to the `i32` it was before. -/
def readMember : ByteReader LobbyMember := do
  let userId ← getBytes
  let platform ← getSvar
  let attributes ← getList SessionAttribute.deserialize maxAttributesInList
  pure { userId, platform := platform.toInt32, attributes }

/-- A lobby as it is told, with its attributes and its members. -/
def LobbyInfos.serialize (msg : LobbyInfos) : Bytes :=
  putBytes msg.lobbyId ++ putBytes msg.ownerId ++ putBytes msg.bucketId ++
    putSvar msg.permissionLevel.toInt64 ++ putU32 msg.maxMembers ++ putU32 msg.availableSlots ++
    putBool msg.allowInvites ++ putBool msg.allowHostMigration ++ putBool msg.allowJoinById ++
    putBool msg.rtcEnabled ++ putList SessionAttribute.serialize msg.attributes ++
    putList writeMember msg.members

/-- A lobby is read as a whole or not at all. -/
def LobbyInfos.deserialize : ByteReader LobbyInfos := do
  let lobbyId ← getBytes
  let ownerId ← getBytes
  let bucketId ← getBytes
  let permissionLevel ← getSvar
  let maxMembers ← getU32
  let availableSlots ← getU32
  let allowInvites ← getBool
  let allowHostMigration ← getBool
  let allowJoinById ← getBool
  let rtcEnabled ← getBool
  let attributes ← getList SessionAttribute.deserialize maxAttributesInList
  let members ← getList readMember maxLobbyMembers
  pure { lobbyId, ownerId, bucketId, permissionLevel := permissionLevel.toInt32, maxMembers,
         availableSlots, allowInvites, allowHostMigration, allowJoinById, rtcEnabled, attributes,
         members }

/-- Who asks comes as a member, with the attributes it brings. -/
def LobbyJoinRequest.serialize (msg : LobbyJoinRequest) : Bytes :=
  putBytes msg.lobbyId ++ putBool msg.byId ++ writeMember msg.member

/-- The member is the sender's word: that it is the sender itself is for the host to see. -/
def LobbyJoinRequest.deserialize : ByteReader LobbyJoinRequest := do
  let lobbyId ← getBytes
  let byId ← getBool
  let member ← readMember
  pure { lobbyId, byId, member }

/-- A verdict: the lobby, the player it is about and the reason. -/
def LobbyJoinResponse.serialize (msg : LobbyJoinResponse) : Bytes :=
  putBytes msg.lobbyId ++ putBytes msg.playerId ++ putSvar msg.reason.toInt64

/-- The reason is narrowed to the `i32` that it was before. -/
def LobbyJoinResponse.deserialize : ByteReader LobbyJoinResponse := do
  let lobbyId ← getBytes
  let playerId ← getBytes
  let reason ← getSvar
  pure { lobbyId, playerId, reason := reason.toInt32 }

/-- A member as it is now. -/
def LobbyMemberUpdate.serialize (msg : LobbyMemberUpdate) : Bytes :=
  putBytes msg.lobbyId ++ writeMember msg.member

/-- The lobby, and the member whole. -/
def LobbyMemberUpdate.deserialize : ByteReader LobbyMemberUpdate := do
  let lobbyId ← getBytes
  let member ← readMember
  pure { lobbyId, member }

/-- The lobby that is no more, and why. -/
def LobbyDestroy.serialize (msg : LobbyDestroy) : Bytes :=
  putBytes msg.lobbyId ++ putSvar msg.reason.toInt64

/-- The reason is narrowed to the `i32` that it was before. -/
def LobbyDestroy.deserialize : ByteReader LobbyDestroy := do
  let lobbyId ← getBytes
  let reason ← getSvar
  pure { lobbyId, reason := reason.toInt32 }

/-! ## What survives the trip

An attribute carries one value; the reader leaves the others at their defaults, so only an
attribute that has nothing else set comes back as it was. -/

/-- What is left of an attribute once it has been on the wire. -/
def SessionAttribute.onWire (msg : SessionAttribute) : SessionAttribute where
  key := msg.key
  valueType := msg.valueType
  advertisement := msg.advertisement
  asBool := if msg.valueType = attributeBool then msg.asBool else false
  asInt64 := if msg.valueType = attributeInt64 then msg.asInt64 else 0
  asDouble := if msg.valueType = attributeDouble then msg.asDouble else 0
  asString := if msg.valueType = attributeString then msg.asString else []

/-- An attribute of a known type with only the value its type names. -/
structure SessionAttribute.WellFormed (msg : SessionAttribute) : Prop where
  typeKnown : attributeBool ≤ msg.valueType ∧ msg.valueType ≤ attributeString
  onlyNamed : msg.onWire = msg
  key : msg.key.length < 2 ^ 64
  asString : msg.asString.length < 2 ^ 64

/-- A member whose attributes a reader will take. -/
structure LobbyMember.WithinCaps (msg : LobbyMember) : Prop where
  userId : msg.userId.length < 2 ^ 64
  count : msg.attributes.length ≤ maxAttributesInList
  attributes : ∀ a ∈ msg.attributes, a.WellFormed

/-- A lobby whose attributes and members a reader will take. -/
structure LobbyInfos.WithinCaps (msg : LobbyInfos) : Prop where
  lobbyId : msg.lobbyId.length < 2 ^ 64
  ownerId : msg.ownerId.length < 2 ^ 64
  bucketId : msg.bucketId.length < 2 ^ 64
  attributeCount : msg.attributes.length ≤ maxAttributesInList
  attributes : ∀ a ∈ msg.attributes, a.WellFormed
  memberCount : msg.members.length ≤ maxLobbyMembers
  members : ∀ member ∈ msg.members, member.WithinCaps

theorem int32_known_cases {x : Int32} (h : attributeBool ≤ x ∧ x ≤ attributeString) :
    x = attributeBool ∨ x = attributeInt64 ∨ x = attributeDouble ∨ x = attributeString := by
  obtain ⟨hlo, hhi⟩ := h
  simp only [attributeBool, attributeInt64, attributeDouble, attributeString,
    Int32.le_iff_toInt_le, ← Int32.toInt_inj] at hlo hhi ⊢
  simp at hlo hhi ⊢
  omega

theorem toInt64_le_toInt64 {x y : Int32} (h : x ≤ y) : x.toInt64 ≤ y.toInt64 := by
  rwa [Int64.le_iff_toInt_le, Int32.toInt_toInt64, Int32.toInt_toInt64, ← Int32.le_iff_toInt_le]

theorem SessionAttribute.decodes {msg : SessionAttribute} (h : msg.WellFormed) :
    Decodes SessionAttribute.deserialize msg.serialize msg := by
  have hrange : attributeBool.toInt64 ≤ msg.valueType.toInt64 ∧
      msg.valueType.toInt64 ≤ attributeString.toInt64 :=
    ⟨toInt64_le_toInt64 h.typeKnown.1, toInt64_le_toInt64 h.typeKnown.2⟩
  rw [serialize]
  simp only [List.append_assoc]
  refine (decodes_getBytes h.key).bind ((decodes_getSvar _).bind ((decodes_getSvar _).bind ?_))
  refine Decodes.check_bind hrange ?_
  rw [Int32.toInt32_toInt64, Int32.toInt32_toInt64]
  have hself := h.onlyNamed
  obtain ⟨key, valueType, asBool, asInt64, asDouble, asString, advertisement⟩ := msg
  simp only [onWire, mk.injEq, true_and, and_true] at hself
  obtain ⟨hb, hi, hd, hs⟩ := hself
  have hsize := h.asString
  dsimp only
  rcases int32_known_cases h.typeKnown with rfl | rfl | rfl | rfl
  · rw [if_pos rfl, if_pos rfl, ← hi, ← hd, ← hs]
    exact (decodes_getBool _).map
  · rw [if_neg (by decide), if_pos rfl, if_neg (by decide), if_pos rfl, ← hb, ← hd, ← hs]
    exact (decodes_getSvar _).map
  · rw [if_neg (by decide), if_neg (by decide), if_pos rfl, if_neg (by decide), if_neg (by decide),
      if_pos rfl, ← hb, ← hi, ← hs]
    exact (decodes_getU64 _).map
  · rw [if_neg (by decide), if_neg (by decide), if_neg (by decide), if_neg (by decide),
      if_neg (by decide), if_neg (by decide), ← hb, ← hi, ← hd]
    exact (decodes_getBytes hsize).map

theorem SessionAttribute.serialize_ne_nil (msg : SessionAttribute) : msg.serialize ≠ [] := by
  intro h
  simp only [serialize, List.append_eq_nil_iff] at h
  exact putBytes_ne_nil _ h.1.1.1

theorem writeMember_ne_nil (member : LobbyMember) : writeMember member ≠ [] := by
  intro h
  simp only [writeMember, List.append_eq_nil_iff] at h
  exact putBytes_ne_nil _ h.1.1

theorem decodes_readAttributes {attributes : List SessionAttribute}
    (hcount : attributes.length ≤ maxAttributesInList)
    (h : ∀ a ∈ attributes, a.WellFormed) :
    Decodes (getList SessionAttribute.deserialize maxAttributesInList)
      (putList SessionAttribute.serialize attributes) attributes :=
  decodes_getList (fun a ha ↦ SessionAttribute.decodes (h a ha))
    SessionAttribute.serialize_ne_nil hcount
    (by rw [maxAttributesInList] at hcount; omega)

theorem decodes_readMember {member : LobbyMember} (h : member.WithinCaps) :
    Decodes readMember (writeMember member) member := by
  rw [writeMember, List.append_assoc]
  refine (decodes_getBytes h.userId).bind ((decodes_getSvar _).bind ?_)
  rw [Int32.toInt32_toInt64]
  exact (decodes_readAttributes h.count h.attributes).map

theorem LobbyInfos.decodes {msg : LobbyInfos} (h : msg.WithinCaps) :
    Decodes LobbyInfos.deserialize msg.serialize msg := by
  have hmembers : Decodes (getList readMember maxLobbyMembers) (putList writeMember msg.members)
      msg.members :=
    decodes_getList (fun m hm ↦ decodes_readMember (h.members m hm)) writeMember_ne_nil
      h.memberCount (by have := h.memberCount; rw [maxLobbyMembers] at this; omega)
  rw [serialize]
  simp only [List.append_assoc]
  refine (decodes_getBytes h.lobbyId).bind ((decodes_getBytes h.ownerId).bind ?_)
  refine (decodes_getBytes h.bucketId).bind ((decodes_getSvar _).bind ?_)
  refine (decodes_getU32 _).bind ((decodes_getU32 _).bind ((decodes_getBool _).bind ?_))
  refine (decodes_getBool _).bind ((decodes_getBool _).bind ((decodes_getBool _).bind ?_))
  rw [Int32.toInt32_toInt64]
  exact (decodes_readAttributes h.attributeCount h.attributes).bind hmembers.map

theorem LobbyJoinRequest.decodes {msg : LobbyJoinRequest} (hid : msg.lobbyId.length < 2 ^ 64)
    (h : msg.member.WithinCaps) : Decodes LobbyJoinRequest.deserialize msg.serialize msg := by
  rw [serialize, List.append_assoc]
  exact (decodes_getBytes hid).bind ((decodes_getBool _).bind (decodes_readMember h).map)

theorem LobbyJoinResponse.decodes {msg : LobbyJoinResponse} (hid : msg.lobbyId.length < 2 ^ 64)
    (hplayer : msg.playerId.length < 2 ^ 64) :
    Decodes LobbyJoinResponse.deserialize msg.serialize msg := by
  rw [serialize, List.append_assoc]
  refine (decodes_getBytes hid).bind ((decodes_getBytes hplayer).bind ?_)
  have := (decodes_getSvar msg.reason.toInt64).map
    (f := fun reason ↦ LobbyJoinResponse.mk msg.lobbyId msg.playerId reason.toInt32)
  simpa only [Int32.toInt32_toInt64] using this

theorem LobbyMemberUpdate.decodes {msg : LobbyMemberUpdate} (hid : msg.lobbyId.length < 2 ^ 64)
    (h : msg.member.WithinCaps) : Decodes LobbyMemberUpdate.deserialize msg.serialize msg :=
  (decodes_getBytes hid).bind (decodes_readMember h).map

theorem LobbyDestroy.decodes {msg : LobbyDestroy} (hid : msg.lobbyId.length < 2 ^ 64) :
    Decodes LobbyDestroy.deserialize msg.serialize msg := by
  refine (decodes_getBytes hid).bind ?_
  have := (decodes_getSvar msg.reason.toInt64).map
    (f := fun reason ↦ LobbyDestroy.mk msg.lobbyId reason.toInt32)
  simpa only [Int32.toInt32_toInt64] using this

/-! ## What a reader may refuse

The writers do not check the bounds of the readers.  What is beyond them is refused; a lobby that is
read all the same is as it was, but for the values of an attribute that its type does not name. -/

theorem decodesTo_getList {α : Type} {get : ByteReader α} {put : α → Bytes} {cap : Nat}
    {R : α → α → Prop} {xs : List α} (hlen : (putList put xs).length < 2 ^ 64)
    (hne : ∀ x, put x ≠ [])
    (hget : ∀ x ∈ xs, (put x).length < 2 ^ 64 → DecodesTo get (put x) (R x)) :
    DecodesTo (getList get cap) (putList put xs) (List.Forall₂ R xs) := by
  rw [putList, List.length_append] at hlen
  have hcount : (UInt64.ofNat xs.length).toNat = xs.length := by
    have := length_le_length_flatMap hne xs
    rw [UInt64.toNat_ofNat']
    exact Nat.mod_eq_of_lt (by omega)
  have hshort (x : α) (hx : x ∈ xs) : (put x).length < 2 ^ 64 := by
    obtain ⟨before, after, rfl⟩ := List.append_of_mem hx
    simp only [List.flatMap_append, List.flatMap_cons, List.length_append] at hlen
    omega
  rw [getList, readListCount, bind_assoc, putList, putListCount]
  refine (decodes_getVar _).bind_to ?_
  rw [bind_assoc]
  refine DecodesTo.remaining_bind fun left ↦ ?_
  rw [hcount, bind_assoc]
  exact DecodesTo.check_bind fun _ ↦ DecodesTo.readMany fun x hx ↦ hget x hx (hshort x hx)

/-- The bytes of a field are no longer than the whole. -/
theorem length_lt_of_putBytes {data : Bytes} {bound : Nat} (h : (putBytes data).length < bound) :
    data.length < bound := by
  rw [putBytes, List.length_append] at h
  omega

theorem SessionAttribute.decodesTo {msg : SessionAttribute} (h : msg.serialize.length < 2 ^ 64) :
    DecodesTo SessionAttribute.deserialize msg.serialize fun _ ↦ True := by
  rw [serialize] at h ⊢
  simp only [List.append_assoc, List.length_append] at h ⊢
  refine (decodes_getBytes (length_lt_of_putBytes (by omega))).bind_to ?_
  refine (decodes_getSvar _).bind_to ((decodes_getSvar _).bind_to ?_)
  refine DecodesTo.check_bind fun _ ↦ ?_
  rw [Int32.toInt32_toInt64, Int32.toInt32_toInt64]
  dsimp only
  split
  · exact (decodes_getBool _).decodesTo.map fun _ _ ↦ trivial
  · split
    · exact (decodes_getSvar _).decodesTo.map fun _ _ ↦ trivial
    · split
      · exact (decodes_getU64 _).decodesTo.map fun _ _ ↦ trivial
      · rename_i hbool hint hdouble
        simp only [if_neg hbool, if_neg hint, if_neg hdouble] at h
        exact (decodes_getBytes (length_lt_of_putBytes (by omega))).decodesTo.map fun _ _ ↦ trivial

theorem decodesTo_readAttributes {attributes : List SessionAttribute}
    (h : (putList SessionAttribute.serialize attributes).length < 2 ^ 64) :
    DecodesTo (getList SessionAttribute.deserialize maxAttributesInList)
      (putList SessionAttribute.serialize attributes) fun _ ↦ True := by
  have hall : DecodesTo (getList SessionAttribute.deserialize maxAttributesInList)
      (putList SessionAttribute.serialize attributes) (List.Forall₂ (fun _ _ ↦ True) attributes) :=
    decodesTo_getList h SessionAttribute.serialize_ne_nil fun a _ ha ↦ SessionAttribute.decodesTo ha
  exact fun rest a left hrun ↦ ⟨trivial, (hall rest a left hrun).2⟩

theorem decodesTo_readMember {member : LobbyMember} (h : (writeMember member).length < 2 ^ 64) :
    DecodesTo readMember (writeMember member) (member.userId = ·.userId) := by
  rw [writeMember] at h ⊢
  simp only [List.append_assoc, List.length_append] at h ⊢
  refine (decodes_getBytes (length_lt_of_putBytes (by omega))).bind_to ?_
  refine (decodes_getSvar _).bind_to ?_
  exact (decodesTo_readAttributes (by omega)).map fun _ _ ↦ rfl

/-- What of a lobby is surely as it was once it is read. -/
structure LobbyInfos.Survives (msg read : LobbyInfos) : Prop where
  lobbyId : read.lobbyId = msg.lobbyId
  ownerId : read.ownerId = msg.ownerId
  maxMembers : read.maxMembers = msg.maxMembers
  availableSlots : read.availableSlots = msg.availableSlots
  members : read.members.map (·.userId) = msg.members.map (·.userId)

theorem LobbyInfos.decodesTo {msg : LobbyInfos} (h : msg.serialize.length < 2 ^ 64) :
    DecodesTo LobbyInfos.deserialize msg.serialize msg.Survives := by
  rw [serialize] at h ⊢
  simp only [List.append_assoc, List.length_append] at h ⊢
  have hmembers : DecodesTo (getList readMember maxLobbyMembers) (putList writeMember msg.members)
      (List.Forall₂ (fun member read ↦ member.userId = read.userId) msg.members) :=
    decodesTo_getList (by omega) writeMember_ne_nil fun m _ hm ↦ decodesTo_readMember hm
  refine (decodes_getBytes (length_lt_of_putBytes (by omega))).bind_to ?_
  refine (decodes_getBytes (length_lt_of_putBytes (by omega))).bind_to ?_
  refine (decodes_getBytes (length_lt_of_putBytes (by omega))).bind_to ?_
  refine (decodes_getSvar _).bind_to ((decodes_getU32 _).bind_to ((decodes_getU32 _).bind_to ?_))
  refine (decodes_getBool _).bind_to ((decodes_getBool _).bind_to ((decodes_getBool _).bind_to ?_))
  refine (decodes_getBool _).bind_to ((decodesTo_readAttributes (by omega)).bind fun _ _ ↦ ?_)
  refine hmembers.map fun members hall ↦ ⟨rfl, rfl, rfl, rfl, ?_⟩
  have hids := List.forall₂_map_left_iff.2 (List.forall₂_map_right_iff.2 hall)
  rw [List.forall₂_eq_eq_eq] at hids
  exact hids.symm

theorem LobbyJoinRequest.decodesTo {msg : LobbyJoinRequest} (h : msg.serialize.length < 2 ^ 64) :
    DecodesTo LobbyJoinRequest.deserialize msg.serialize (·.lobbyId = msg.lobbyId) := by
  rw [serialize] at h ⊢
  simp only [List.append_assoc, List.length_append] at h ⊢
  refine (decodes_getBytes (length_lt_of_putBytes (by omega))).bind_to ?_
  exact (decodes_getBool _).bind_to ((decodesTo_readMember (by omega)).map fun _ _ ↦ rfl)

/-! ## Framing

One message on a stream is its length, big-endian on four bytes, and its body. -/

/-- The length of a frame stands before it, in this many bytes. -/
def framePrefixLen : Nat := 4

/-- A message as it goes onto a stream, behind its length. -/
def frameMessage (body : Bytes) : Bytes := beBytes framePrefixLen body.length ++ body

/-- One framed message off the front: its body and how many bytes it took. -/
def tryDeframe (data : Bytes) : Option (Bytes × Nat) :=
  if data.length < framePrefixLen then none
  else
    let bodyLen := ofBeBytes (data.take framePrefixLen)
    if bodyLen > maxMessageSize then none
    else if data.length - framePrefixLen < bodyLen then none
    else some ((data.drop framePrefixLen).take bodyLen, framePrefixLen + bodyLen)

/-- A framed body is what is taken off the front again, and nothing more of the stream. -/
theorem tryDeframe_frameMessage {body : Bytes} (h : body.length ≤ maxMessageSize) (rest : Bytes) :
    tryDeframe (frameMessage body ++ rest) = some (body, (frameMessage body).length) := by
  have hlen : body.length < 256 ^ framePrefixLen := by
    rw [maxMessageSize] at h
    norm_num [framePrefixLen]
    omega
  have hpre : (beBytes framePrefixLen body.length).length = framePrefixLen := length_beBytes _ _
  have htake : (frameMessage body ++ rest).take framePrefixLen
      = beBytes framePrefixLen body.length := by
    rw [frameMessage, List.append_assoc, List.take_left' hpre]
  have hdrop : (frameMessage body ++ rest).drop framePrefixLen = body ++ rest := by
    rw [frameMessage, List.append_assoc, List.drop_left' hpre]
  have hsize : (frameMessage body ++ rest).length =
    framePrefixLen + (body.length + rest.length) := by
    rw [frameMessage, List.append_assoc, List.length_append, List.length_append, hpre]
  rw [tryDeframe, hsize, if_neg (by omega), htake, hdrop, ofBeBytes_beBytes hlen]
  dsimp only
  rw [if_neg (by omega), if_neg (by omega), List.take_left, frameMessage, List.length_append, hpre]

end EosMesh
