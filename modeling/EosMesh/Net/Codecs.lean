import EosMesh.Net.Wire

/-!
# The rest of the wire format

The readers and writers of `net/wire.cpp` for the messages of Connect, sessions, presence and lobby
searches, with their round trips; those of the envelope, of P2P and of the lobbies themselves are in
`Net.Wire`.

A writer puts the fields of a message one after the other, a text behind its length and a list
behind its count.  A reader takes them in the same order, and fails as a whole when one of them
fails: the bytes may end, a text may be longer than what is left, and a list may be longer than its
cap.  The caps are the SDK's own bounds, so a peer that keeps to these is always understood.

* For each message `serialize` is the writer and `deserialize` the reader; `Sized` or `WithinCaps`
  is what the writer has to keep to for the reader to take it, and `decodes` the round trip.
* Enumerations are written as signed integers of 64 bits and narrowed again when read
  (`Decodes.svar_map`).
* `Message` is any message of the mesh protocol, `MessageKind` what has to be known to read it, and
  `message_round_trip` is all the round trips at once.
-/

set_option autoImplicit false

namespace EosMesh

open Lib

/-! ## Bounds -/

/-- `EOS_SESSIONS_MAXREGISTEREDPLAYERS`. -/
def maxPlayersInList : Nat := 1000

/-- The conditions a search may have. -/
def maxSearchParameters : Nat := 64

/-- `EOS_SESSIONS_MAX_SEARCH_RESULTS`, and the lobbies' own. -/
def maxSearchResults : Nat := 200

/-- `EOS_PRESENCE_DATA_MAX_KEYS`. -/
def maxDataRecords : Nat := 32

/-- A length a `std::size_t` can hold. -/
def Short (data : Bytes) : Prop := data.length < 2 ^ 64

instance (data : Bytes) : Decidable (Short data) := inferInstanceAs (Decidable (_ < _))

/-! ## Advertisements and Connect -/

/-- Who an instance is: five texts, one after the other. -/
def EmuInfos.serialize (msg : EmuInfos) : Bytes :=
  putBytes msg.emulator ++ putBytes msg.appid ++ putBytes msg.country ++ putBytes msg.language ++
    putBytes msg.username

/-- The texts come back in the same order, whatever they are. -/
def EmuInfos.deserialize : ByteReader EmuInfos := do
  let emulator ← getBytes
  let appid ← getBytes
  let country ← getBytes
  let language ← getBytes
  let username ← getBytes
  pure { emulator, appid, country, language, username }

/-- The introduction of one player to another: an id and a name. -/
def ConnectInfos.serialize (msg : ConnectInfos) : Bytes :=
  putBytes msg.productUserId ++ putBytes msg.displayName

/-- It is the sender's word: that the id is its own is for Connect to see. -/
def ConnectInfos.deserialize : ByteReader ConnectInfos := do
  let productUserId ← getBytes
  let displayName ← getBytes
  pure { productUserId, displayName }

/-- Every text of it has a length that can be written. -/
structure EmuInfos.Sized (msg : EmuInfos) : Prop where
  emulator : Short msg.emulator
  appid : Short msg.appid
  country : Short msg.country
  language : Short msg.language
  username : Short msg.username

/-- Both texts have a length that can be written. -/
structure ConnectInfos.Sized (msg : ConnectInfos) : Prop where
  productUserId : Short msg.productUserId
  displayName : Short msg.displayName

theorem NetAdvertise.decodes {msg : NetAdvertise} (huser : Short msg.productUserId)
    (hgame : Short msg.gameId) : Decodes NetAdvertise.deserialize msg.serialize msg := by
  rw [serialize]
  simp only [List.append_assoc]
  refine (decodes_getBytes huser).bind ((decodes_getBytes hgame).bind ?_)
  exact (decodes_getU16 _).bind (decodes_getU16 _).map

theorem EmuInfos.decodes {msg : EmuInfos} (h : msg.Sized) :
    Decodes EmuInfos.deserialize msg.serialize msg := by
  rw [serialize]
  simp only [List.append_assoc]
  refine (decodes_getBytes h.emulator).bind ((decodes_getBytes h.appid).bind ?_)
  refine (decodes_getBytes h.country).bind ((decodes_getBytes h.language).bind ?_)
  exact (decodes_getBytes h.username).map

theorem ConnectInfos.decodes {msg : ConnectInfos} (h : msg.Sized) :
    Decodes ConnectInfos.deserialize msg.serialize msg :=
  (decodes_getBytes h.productUserId).bind (decodes_getBytes h.displayName).map

/-! ## Lists of byte strings -/

theorem decodes_getStrings {cap : Nat} {strings : List Bytes} (hcap : strings.length ≤ cap)
    (hsize : cap < 2 ^ 64) (h : ∀ s ∈ strings, Short s) :
    Decodes (getList getBytes cap) (putList putBytes strings) strings :=
  decodes_getList (fun s hs ↦ decodes_getBytes (h s hs)) putBytes_ne_nil hcap
    (lt_of_le_of_lt hcap hsize)

/-! ## Sessions -/

/-- A session as its owner tells it, with its players and its attributes.  The two enumerations
travel as wider integers. -/
def SessionInfos.serialize (msg : SessionInfos) : Bytes :=
  putBytes msg.sessionId ++ putBytes msg.ownerId ++ putBytes msg.bucketId ++
    putBytes msg.hostAddress ++ putU32 msg.maxPlayers ++ putU32 msg.openSlots ++
    putSvar msg.permissionLevel.toInt64 ++ putSvar msg.state.toInt64 ++
    putBool msg.allowJoinInProgress ++ putBool msg.invitesAllowed ++
    putBool msg.sanctionsEnabled ++ putList putBytes msg.registeredPlayers ++
    putList SessionAttribute.serialize msg.attributes

/-- What the wider integers lose on the way back is the subject of `Net.Narrowing`. -/
def SessionInfos.deserialize : ByteReader SessionInfos := do
  let sessionId ← getBytes
  let ownerId ← getBytes
  let bucketId ← getBytes
  let hostAddress ← getBytes
  let maxPlayers ← getU32
  let openSlots ← getU32
  let permissionLevel ← getSvar
  let state ← getSvar
  let allowJoinInProgress ← getBool
  let invitesAllowed ← getBool
  let sanctionsEnabled ← getBool
  let registeredPlayers ← getList getBytes maxPlayersInList
  let attributes ← getList SessionAttribute.deserialize maxAttributesInList
  pure { sessionId, ownerId, bucketId, hostAddress, maxPlayers, openSlots,
         permissionLevel := permissionLevel.toInt32, state := state.toInt32, allowJoinInProgress,
         invitesAllowed, sanctionsEnabled, registeredPlayers, attributes }

/-- A search condition, as both kinds of search write it. -/
def SearchParameter.serialize (msg : SearchParameter) : Bytes :=
  msg.attr.serialize ++ putSvar msg.comparisonOp.toInt64

/-- The comparison is narrowed, as every enumeration is. -/
def SearchParameter.deserialize : ByteReader SearchParameter := do
  let attr ← SessionAttribute.deserialize
  let comparisonOp ← getSvar
  pure { attr, comparisonOp := comparisonOp.toInt32 }

/-- A query, under the id that the answers to it name. -/
def SessionSearch.serialize (msg : SessionSearch) : Bytes :=
  putBytes msg.searchId ++ putBytes msg.sessionId ++ putBytes msg.targetUserId ++
    putU32 msg.maxResults ++ putList SearchParameter.serialize msg.parameters

/-- A query with too many conditions is not read at all. -/
def SessionSearch.deserialize : ByteReader SessionSearch := do
  let searchId ← getBytes
  let sessionId ← getBytes
  let targetUserId ← getBytes
  let maxResults ← getU32
  let parameters ← getList SearchParameter.deserialize maxSearchParameters
  pure { searchId, sessionId, targetUserId, maxResults, parameters }

/-- An answer: the sessions that fit, each whole. -/
def SessionSearchResponse.serialize (msg : SessionSearchResponse) : Bytes :=
  putBytes msg.searchId ++ putList SessionInfos.serialize msg.sessions

/-- An answer is read as a whole or not at all. -/
def SessionSearchResponse.deserialize : ByteReader SessionSearchResponse := do
  let searchId ← getBytes
  let sessions ← getList SessionInfos.deserialize maxSearchResults
  pure { searchId, sessions }

/-- Who asks is known from the envelope. -/
def SessionJoinRequest.serialize (msg : SessionJoinRequest) : Bytes := putBytes msg.sessionId

/-- The id of the session, and nothing else. -/
def SessionJoinRequest.deserialize : ByteReader SessionJoinRequest := do
  let sessionId ← getBytes
  pure { sessionId }

/-- A verdict: the session, the player it is about and the result. -/
def SessionJoinResponse.serialize (msg : SessionJoinResponse) : Bytes :=
  putBytes msg.sessionId ++ putBytes msg.playerId ++ putSvar msg.reason.toInt64

/-- The result is narrowed to the `i32` that it was before. -/
def SessionJoinResponse.deserialize : ByteReader SessionJoinResponse := do
  let sessionId ← getBytes
  let playerId ← getBytes
  let reason ← getSvar
  pure { sessionId, playerId, reason := reason.toInt32 }

/-- The session that is no more. -/
def SessionDestroy.serialize (msg : SessionDestroy) : Bytes := putBytes msg.sessionId

/-- The id of the session, and nothing else. -/
def SessionDestroy.deserialize : ByteReader SessionDestroy := do
  let sessionId ← getBytes
  pure { sessionId }

/-- The players that were registered with a session, or unregistered: the tag says which. -/
def SessionMembers.serialize (msg : SessionMembers) : Bytes :=
  putBytes msg.sessionId ++ putList putBytes msg.playerIds

/-- A list that is longer than a session may be is not read. -/
def SessionMembers.deserialize : ByteReader SessionMembers := do
  let sessionId ← getBytes
  let playerIds ← getList getBytes maxPlayersInList
  pure { sessionId, playerIds }

/-- A session whose players and attributes a reader will take. -/
structure SessionInfos.WithinCaps (msg : SessionInfos) : Prop where
  sessionId : Short msg.sessionId
  ownerId : Short msg.ownerId
  bucketId : Short msg.bucketId
  hostAddress : Short msg.hostAddress
  playerCount : msg.registeredPlayers.length ≤ maxPlayersInList
  players : ∀ player ∈ msg.registeredPlayers, Short player
  attributeCount : msg.attributes.length ≤ maxAttributesInList
  attributes : ∀ a ∈ msg.attributes, a.WellFormed

/-- A query that a reader will take. -/
structure SessionSearch.WithinCaps (msg : SessionSearch) : Prop where
  searchId : Short msg.searchId
  sessionId : Short msg.sessionId
  targetUserId : Short msg.targetUserId
  parameterCount : msg.parameters.length ≤ maxSearchParameters
  parameters : ∀ parameter ∈ msg.parameters, parameter.attr.WellFormed

/-- An answer that a reader will take. -/
structure SessionSearchResponse.WithinCaps (msg : SessionSearchResponse) : Prop where
  searchId : Short msg.searchId
  sessionCount : msg.sessions.length ≤ maxSearchResults
  sessions : ∀ session ∈ msg.sessions, session.WithinCaps

/-- A notice about players that a reader will take. -/
structure SessionMembers.WithinCaps (msg : SessionMembers) : Prop where
  sessionId : Short msg.sessionId
  playerCount : msg.playerIds.length ≤ maxPlayersInList
  players : ∀ player ∈ msg.playerIds, Short player

/-- A last field that travels as a wider integer. -/
theorem Decodes.svar_map {α : Type} (value : Int32) (f : Int32 → α) :
    Decodes (getSvar >>= fun wide ↦ (pure (f wide.toInt32) : ByteReader α))
      (putSvar value.toInt64) (f value) := by
  have h := (decodes_getSvar value.toInt64).map (f := fun wide ↦ f wide.toInt32)
  rwa [Int32.toInt32_toInt64] at h

theorem SessionInfos.decodes {msg : SessionInfos} (h : msg.WithinCaps) :
    Decodes SessionInfos.deserialize msg.serialize msg := by
  rw [serialize]
  simp only [List.append_assoc]
  refine (decodes_getBytes h.sessionId).bind ((decodes_getBytes h.ownerId).bind ?_)
  refine (decodes_getBytes h.bucketId).bind ((decodes_getBytes h.hostAddress).bind ?_)
  refine (decodes_getU32 _).bind ((decodes_getU32 _).bind ((decodes_getSvar _).bind ?_))
  refine (decodes_getSvar _).bind ((decodes_getBool _).bind ((decodes_getBool _).bind ?_))
  refine (decodes_getBool _).bind ?_
  rw [Int32.toInt32_toInt64, Int32.toInt32_toInt64]
  refine (decodes_getStrings h.playerCount (by decide) h.players).bind ?_
  exact (decodes_readAttributes h.attributeCount h.attributes).map

theorem SearchParameter.decodes {msg : SearchParameter} (h : msg.attr.WellFormed) :
    Decodes SearchParameter.deserialize msg.serialize msg :=
  (SessionAttribute.decodes h).bind
    (Decodes.svar_map msg.comparisonOp (SearchParameter.mk msg.attr))

theorem SearchParameter.serialize_ne_nil (msg : SearchParameter) : msg.serialize ≠ [] := by
  rw [serialize, ne_eq, List.append_eq_nil_iff]
  exact fun h ↦ SessionAttribute.serialize_ne_nil _ h.1

theorem decodes_searchParameters {parameters : List SearchParameter}
    (hcount : parameters.length ≤ maxSearchParameters)
    (h : ∀ parameter ∈ parameters, parameter.attr.WellFormed) :
    Decodes (getList SearchParameter.deserialize maxSearchParameters)
      (putList SearchParameter.serialize parameters) parameters :=
  decodes_getList (fun parameter hp ↦ SearchParameter.decodes (h parameter hp))
    SearchParameter.serialize_ne_nil hcount (lt_of_le_of_lt hcount (by decide))

theorem SessionSearch.decodes {msg : SessionSearch} (h : msg.WithinCaps) :
    Decodes SessionSearch.deserialize msg.serialize msg := by
  rw [serialize]
  simp only [List.append_assoc]
  refine (decodes_getBytes h.searchId).bind ((decodes_getBytes h.sessionId).bind ?_)
  refine (decodes_getBytes h.targetUserId).bind ((decodes_getU32 _).bind ?_)
  exact (decodes_searchParameters h.parameterCount h.parameters).map

theorem SessionInfos.serialize_ne_nil (msg : SessionInfos) : msg.serialize ≠ [] := by
  intro h
  simp only [serialize, List.append_eq_nil_iff] at h
  exact putBytes_ne_nil msg.sessionId (by tauto)

theorem SessionSearchResponse.decodes {msg : SessionSearchResponse} (h : msg.WithinCaps) :
    Decodes SessionSearchResponse.deserialize msg.serialize msg := by
  have hsessions := decodes_getList (fun session hs ↦ SessionInfos.decodes (h.sessions session hs))
    SessionInfos.serialize_ne_nil h.sessionCount (lt_of_le_of_lt h.sessionCount (by decide))
  exact (decodes_getBytes h.searchId).bind hsessions.map

theorem SessionJoinRequest.decodes {msg : SessionJoinRequest} (h : Short msg.sessionId) :
    Decodes SessionJoinRequest.deserialize msg.serialize msg := (decodes_getBytes h).map

theorem SessionJoinResponse.decodes {msg : SessionJoinResponse} (hid : Short msg.sessionId)
    (hplayer : Short msg.playerId) : Decodes SessionJoinResponse.deserialize msg.serialize msg := by
  rw [serialize, List.append_assoc]
  refine (decodes_getBytes hid).bind ((decodes_getBytes hplayer).bind ?_)
  exact Decodes.svar_map msg.reason (SessionJoinResponse.mk msg.sessionId msg.playerId)

theorem SessionDestroy.decodes {msg : SessionDestroy} (h : Short msg.sessionId) :
    Decodes SessionDestroy.deserialize msg.serialize msg := (decodes_getBytes h).map

theorem SessionMembers.decodes {msg : SessionMembers} (h : msg.WithinCaps) :
    Decodes SessionMembers.deserialize msg.serialize msg :=
  (decodes_getBytes h.sessionId).bind
    (decodes_getStrings h.playerCount (by decide) h.players).map

/-! ## Presence -/

/-- A key of the game's own, and its value. -/
def PresenceDataRecord.serialize (msg : PresenceDataRecord) : Bytes :=
  putBytes msg.key ++ putBytes msg.value

/-- Neither text is checked here. -/
def PresenceDataRecord.deserialize : ByteReader PresenceDataRecord := do
  let key ← getBytes
  let value ← getBytes
  pure { key, value }

/-- The presence of a player, whole: a change of one field sends all of them again. -/
def PresenceInfo.serialize (msg : PresenceInfo) : Bytes :=
  putBytes msg.epicId ++ putSvar msg.status.toInt64 ++ putBytes msg.productId ++
    putBytes msg.productVersion ++ putBytes msg.platform ++ putBytes msg.richText ++
    putBytes msg.productName ++ putBytes msg.integratedPlatform ++ putBytes msg.joinInfo ++
    putList PresenceDataRecord.serialize msg.records

/-- Of the records there may be no more than the SDK has keys for; the texts may be of any length.
-/
def PresenceInfo.deserialize : ByteReader PresenceInfo := do
  let epicId ← getBytes
  let status ← getSvar
  let productId ← getBytes
  let productVersion ← getBytes
  let platform ← getBytes
  let richText ← getBytes
  let productName ← getBytes
  let integratedPlatform ← getBytes
  let joinInfo ← getBytes
  let records ← getList PresenceDataRecord.deserialize maxDataRecords
  pure { epicId, status := status.toInt32, productId, productVersion, platform, richText,
         productName, integratedPlatform, joinInfo, records }

/-- The player whose presence is asked for. -/
def PresenceRequest.serialize (msg : PresenceRequest) : Bytes := putBytes msg.targetEpicId

/-- The account of that player. -/
def PresenceRequest.deserialize : ByteReader PresenceRequest := do
  let targetEpicId ← getBytes
  pure { targetEpicId }

/-- A presence that a reader will take. -/
structure PresenceInfo.WithinCaps (msg : PresenceInfo) : Prop where
  epicId : Short msg.epicId
  productId : Short msg.productId
  productVersion : Short msg.productVersion
  platform : Short msg.platform
  richText : Short msg.richText
  productName : Short msg.productName
  integratedPlatform : Short msg.integratedPlatform
  joinInfo : Short msg.joinInfo
  recordCount : msg.records.length ≤ maxDataRecords
  records : ∀ record ∈ msg.records, Short record.key ∧ Short record.value

theorem PresenceInfo.decodes {msg : PresenceInfo} (h : msg.WithinCaps) :
    Decodes PresenceInfo.deserialize msg.serialize msg := by
  have hne (record : PresenceDataRecord) : record.serialize ≠ [] := by
    rw [PresenceDataRecord.serialize, ne_eq, List.append_eq_nil_iff]
    exact fun h ↦ putBytes_ne_nil _ h.1
  have hrecords : Decodes (getList PresenceDataRecord.deserialize maxDataRecords)
      (putList PresenceDataRecord.serialize msg.records) msg.records :=
    decodes_getList (fun record hr ↦ (decodes_getBytes (h.records record hr).1).bind
      (decodes_getBytes (h.records record hr).2).map) hne h.recordCount
      (lt_of_le_of_lt h.recordCount (by decide))
  rw [serialize]
  simp only [List.append_assoc]
  refine (decodes_getBytes h.epicId).bind ((decodes_getSvar _).bind ?_)
  refine (decodes_getBytes h.productId).bind ((decodes_getBytes h.productVersion).bind ?_)
  refine (decodes_getBytes h.platform).bind ((decodes_getBytes h.richText).bind ?_)
  refine (decodes_getBytes h.productName).bind ((decodes_getBytes h.integratedPlatform).bind ?_)
  rw [Int32.toInt32_toInt64]
  exact (decodes_getBytes h.joinInfo).bind hrecords.map

theorem PresenceRequest.decodes {msg : PresenceRequest} (h : Short msg.targetEpicId) :
    Decodes PresenceRequest.deserialize msg.serialize msg := (decodes_getBytes h).map

/-! ## Lobby searches -/

/-- A query for lobbies, written like one for sessions. -/
def LobbySearch.serialize (msg : LobbySearch) : Bytes :=
  putBytes msg.searchId ++ putBytes msg.lobbyId ++ putBytes msg.targetUserId ++
    putU32 msg.maxResults ++ putList SearchParameter.serialize msg.parameters

/-- A query with too many conditions is not read at all. -/
def LobbySearch.deserialize : ByteReader LobbySearch := do
  let searchId ← getBytes
  let lobbyId ← getBytes
  let targetUserId ← getBytes
  let maxResults ← getU32
  let parameters ← getList SearchParameter.deserialize maxSearchParameters
  pure { searchId, lobbyId, targetUserId, maxResults, parameters }

/-- An answer: the lobbies that fit, each with its members. -/
def LobbySearchResponse.serialize (msg : LobbySearchResponse) : Bytes :=
  putBytes msg.searchId ++ putList LobbyInfos.serialize msg.lobbies

/-- An answer is read as a whole or not at all. -/
def LobbySearchResponse.deserialize : ByteReader LobbySearchResponse := do
  let searchId ← getBytes
  let lobbies ← getList LobbyInfos.deserialize maxSearchResults
  pure { searchId, lobbies }

/-- A query for lobbies that a reader will take. -/
structure LobbySearch.WithinCaps (msg : LobbySearch) : Prop where
  searchId : Short msg.searchId
  lobbyId : Short msg.lobbyId
  targetUserId : Short msg.targetUserId
  parameterCount : msg.parameters.length ≤ maxSearchParameters
  parameters : ∀ parameter ∈ msg.parameters, parameter.attr.WellFormed

/-- An answer about lobbies that a reader will take. -/
structure LobbySearchResponse.WithinCaps (msg : LobbySearchResponse) : Prop where
  searchId : Short msg.searchId
  lobbyCount : msg.lobbies.length ≤ maxSearchResults
  lobbies : ∀ lobby ∈ msg.lobbies, lobby.WithinCaps

theorem LobbySearch.decodes {msg : LobbySearch} (h : msg.WithinCaps) :
    Decodes LobbySearch.deserialize msg.serialize msg := by
  rw [serialize]
  simp only [List.append_assoc]
  refine (decodes_getBytes h.searchId).bind ((decodes_getBytes h.lobbyId).bind ?_)
  refine (decodes_getBytes h.targetUserId).bind ((decodes_getU32 _).bind ?_)
  exact (decodes_searchParameters h.parameterCount h.parameters).map

theorem LobbyInfos.serialize_ne_nil (msg : LobbyInfos) : msg.serialize ≠ [] := by
  intro h
  simp only [serialize, List.append_eq_nil_iff] at h
  exact putBytes_ne_nil msg.lobbyId (by tauto)

theorem LobbySearchResponse.decodes {msg : LobbySearchResponse} (h : msg.WithinCaps) :
    Decodes LobbySearchResponse.deserialize msg.serialize msg := by
  have hlobbies := decodes_getList (fun lobby hl ↦ LobbyInfos.decodes (h.lobbies lobby hl))
    LobbyInfos.serialize_ne_nil h.lobbyCount (lt_of_le_of_lt h.lobbyCount (by decide))
  exact (decodes_getBytes h.searchId).bind hlobbies.map

theorem LobbySearchResponse.decodesTo {msg : LobbySearchResponse}
    (h : msg.serialize.length < 2 ^ 64) :
    DecodesTo LobbySearchResponse.deserialize msg.serialize fun read ↦
      List.Forall₂ LobbyInfos.Survives msg.lobbies read.lobbies := by
  rw [serialize, List.length_append] at h
  refine (decodes_getBytes (length_lt_of_putBytes (by omega))).bind_to ?_
  exact (decodesTo_getList (by omega) LobbyInfos.serialize_ne_nil fun _ _ ↦
    LobbyInfos.decodesTo).map fun _ hall ↦ hall

/-! ## Any message -/

/-- A message of the mesh protocol, the envelope among them. -/
inductive Message
  | envelope (msg : NetEnvelope)
  | netAdvertise (msg : NetAdvertise)
  | emuInfos (msg : EmuInfos)
  | connectInfos (msg : ConnectInfos)
  | p2pData (msg : P2pData)
  | sessionInfos (msg : SessionInfos)
  | sessionSearch (msg : SessionSearch)
  | sessionSearchResponse (msg : SessionSearchResponse)
  | sessionJoinRequest (msg : SessionJoinRequest)
  | sessionJoinResponse (msg : SessionJoinResponse)
  | sessionDestroy (msg : SessionDestroy)
  | sessionMembers (msg : SessionMembers)
  | presenceInfo (msg : PresenceInfo)
  | presenceRequest (msg : PresenceRequest)
  | lobbyInfos (msg : LobbyInfos)
  | lobbySearch (msg : LobbySearch)
  | lobbySearchResponse (msg : LobbySearchResponse)
  | lobbyJoinRequest (msg : LobbyJoinRequest)
  | lobbyJoinResponse (msg : LobbyJoinResponse)
  | lobbyMemberUpdate (msg : LobbyMemberUpdate)
  | lobbyDestroy (msg : LobbyDestroy)
  deriving DecidableEq, Repr

/-- The kinds of message, which is all that a reader has to know beforehand. -/
inductive MessageKind
  | envelope | netAdvertise | emuInfos | connectInfos | p2pData
  | sessionInfos | sessionSearch | sessionSearchResponse | sessionJoinRequest | sessionJoinResponse
  | sessionDestroy | sessionMembers | presenceInfo | presenceRequest | lobbyInfos
  | lobbySearch | lobbySearchResponse | lobbyJoinRequest | lobbyJoinResponse | lobbyMemberUpdate
  | lobbyDestroy
  deriving DecidableEq, Repr

namespace Message

/-- The kind of a message; a tag gives it, and for the lifecycle of a session two tags give the
same. -/
def kind : Message → MessageKind
  | envelope _ => .envelope
  | netAdvertise _ => .netAdvertise
  | emuInfos _ => .emuInfos
  | connectInfos _ => .connectInfos
  | p2pData _ => .p2pData
  | sessionInfos _ => .sessionInfos
  | sessionSearch _ => .sessionSearch
  | sessionSearchResponse _ => .sessionSearchResponse
  | sessionJoinRequest _ => .sessionJoinRequest
  | sessionJoinResponse _ => .sessionJoinResponse
  | sessionDestroy _ => .sessionDestroy
  | sessionMembers _ => .sessionMembers
  | presenceInfo _ => .presenceInfo
  | presenceRequest _ => .presenceRequest
  | lobbyInfos _ => .lobbyInfos
  | lobbySearch _ => .lobbySearch
  | lobbySearchResponse _ => .lobbySearchResponse
  | lobbyJoinRequest _ => .lobbyJoinRequest
  | lobbyJoinResponse _ => .lobbyJoinResponse
  | lobbyMemberUpdate _ => .lobbyMemberUpdate
  | lobbyDestroy _ => .lobbyDestroy

/-- A message as it is written, by its kind. -/
def serialize : Message → Bytes
  | envelope msg => msg.serialize
  | netAdvertise msg => msg.serialize
  | emuInfos msg => msg.serialize
  | connectInfos msg => msg.serialize
  | p2pData msg => msg.serialize
  | sessionInfos msg => msg.serialize
  | sessionSearch msg => msg.serialize
  | sessionSearchResponse msg => msg.serialize
  | sessionJoinRequest msg => msg.serialize
  | sessionJoinResponse msg => msg.serialize
  | sessionDestroy msg => msg.serialize
  | sessionMembers msg => msg.serialize
  | presenceInfo msg => msg.serialize
  | presenceRequest msg => msg.serialize
  | lobbyInfos msg => msg.serialize
  | lobbySearch msg => msg.serialize
  | lobbySearchResponse msg => msg.serialize
  | lobbyJoinRequest msg => msg.serialize
  | lobbyJoinResponse msg => msg.serialize
  | lobbyMemberUpdate msg => msg.serialize
  | lobbyDestroy msg => msg.serialize

/-- What the readers will take, and give back as it was. -/
def WithinCaps : Message → Prop
  | envelope msg => msg.Sized
  | netAdvertise msg => Short msg.productUserId ∧ Short msg.gameId
  | emuInfos msg => msg.Sized
  | connectInfos msg => msg.Sized
  | p2pData msg => Short msg.socketName ∧ Short msg.data
  | sessionInfos msg => msg.WithinCaps
  | sessionSearch msg => msg.WithinCaps
  | sessionSearchResponse msg => msg.WithinCaps
  | sessionJoinRequest msg => Short msg.sessionId
  | sessionJoinResponse msg => Short msg.sessionId ∧ Short msg.playerId
  | sessionDestroy msg => Short msg.sessionId
  | sessionMembers msg => msg.WithinCaps
  | presenceInfo msg => msg.WithinCaps
  | presenceRequest msg => Short msg.targetEpicId
  | lobbyInfos msg => msg.WithinCaps
  | lobbySearch msg => msg.WithinCaps
  | lobbySearchResponse msg => msg.WithinCaps
  | lobbyJoinRequest msg => Short msg.lobbyId ∧ msg.member.WithinCaps
  | lobbyJoinResponse msg => Short msg.lobbyId ∧ Short msg.playerId
  | lobbyMemberUpdate msg => Short msg.lobbyId ∧ msg.member.WithinCaps
  | lobbyDestroy msg => Short msg.lobbyId

end Message

/-- The reader of each kind. -/
def MessageKind.deserialize : MessageKind → ByteReader Message
  | envelope => Message.envelope <$> NetEnvelope.deserialize
  | netAdvertise => Message.netAdvertise <$> NetAdvertise.deserialize
  | emuInfos => Message.emuInfos <$> EmuInfos.deserialize
  | connectInfos => Message.connectInfos <$> ConnectInfos.deserialize
  | p2pData => Message.p2pData <$> P2pData.deserialize
  | sessionInfos => Message.sessionInfos <$> SessionInfos.deserialize
  | sessionSearch => Message.sessionSearch <$> SessionSearch.deserialize
  | sessionSearchResponse => Message.sessionSearchResponse <$> SessionSearchResponse.deserialize
  | sessionJoinRequest => Message.sessionJoinRequest <$> SessionJoinRequest.deserialize
  | sessionJoinResponse => Message.sessionJoinResponse <$> SessionJoinResponse.deserialize
  | sessionDestroy => Message.sessionDestroy <$> SessionDestroy.deserialize
  | sessionMembers => Message.sessionMembers <$> SessionMembers.deserialize
  | presenceInfo => Message.presenceInfo <$> PresenceInfo.deserialize
  | presenceRequest => Message.presenceRequest <$> PresenceRequest.deserialize
  | lobbyInfos => Message.lobbyInfos <$> LobbyInfos.deserialize
  | lobbySearch => Message.lobbySearch <$> LobbySearch.deserialize
  | lobbySearchResponse => Message.lobbySearchResponse <$> LobbySearchResponse.deserialize
  | lobbyJoinRequest => Message.lobbyJoinRequest <$> LobbyJoinRequest.deserialize
  | lobbyJoinResponse => Message.lobbyJoinResponse <$> LobbyJoinResponse.deserialize
  | lobbyMemberUpdate => Message.lobbyMemberUpdate <$> LobbyMemberUpdate.deserialize
  | lobbyDestroy => Message.lobbyDestroy <$> LobbyDestroy.deserialize

/-- **What a message is written as is read back as that message**, with whatever follows left
unread, for every kind of message within the bounds of its reader. -/
theorem message_round_trip (msg : Message) (h : msg.WithinCaps) (rest : Bytes) :
    msg.kind.deserialize.run (msg.serialize ++ rest) = some (msg, rest) := by
  have htagged {α : Type} {reader : ByteReader α} {bytes : Bytes} {value : α} (tag : α → Message)
      (hdecodes : Decodes reader bytes value) : Decodes (tag <$> reader) bytes (tag value) := by
    rw [map_eq_pure_bind]
    exact hdecodes.map
  have hdecodes : Decodes msg.kind.deserialize msg.serialize msg := by
    cases msg with
    | envelope msg => exact htagged .envelope (NetEnvelope.decodes h)
    | netAdvertise msg => exact htagged .netAdvertise (NetAdvertise.decodes h.1 h.2)
    | emuInfos msg => exact htagged .emuInfos (EmuInfos.decodes h)
    | connectInfos msg => exact htagged .connectInfos (ConnectInfos.decodes h)
    | p2pData msg => exact htagged .p2pData (P2pData.decodes h.1 h.2)
    | sessionInfos msg => exact htagged .sessionInfos (SessionInfos.decodes h)
    | sessionSearch msg => exact htagged .sessionSearch (SessionSearch.decodes h)
    | sessionSearchResponse msg =>
      exact htagged .sessionSearchResponse (SessionSearchResponse.decodes h)
    | sessionJoinRequest msg => exact htagged .sessionJoinRequest (SessionJoinRequest.decodes h)
    | sessionJoinResponse msg =>
      exact htagged .sessionJoinResponse (SessionJoinResponse.decodes h.1 h.2)
    | sessionDestroy msg => exact htagged .sessionDestroy (SessionDestroy.decodes h)
    | sessionMembers msg => exact htagged .sessionMembers (SessionMembers.decodes h)
    | presenceInfo msg => exact htagged .presenceInfo (PresenceInfo.decodes h)
    | presenceRequest msg => exact htagged .presenceRequest (PresenceRequest.decodes h)
    | lobbyInfos msg => exact htagged .lobbyInfos (LobbyInfos.decodes h)
    | lobbySearch msg => exact htagged .lobbySearch (LobbySearch.decodes h)
    | lobbySearchResponse msg => exact htagged .lobbySearchResponse (LobbySearchResponse.decodes h)
    | lobbyJoinRequest msg => exact htagged .lobbyJoinRequest (LobbyJoinRequest.decodes h.1 h.2)
    | lobbyJoinResponse msg => exact htagged .lobbyJoinResponse (LobbyJoinResponse.decodes h.1 h.2)
    | lobbyMemberUpdate msg => exact htagged .lobbyMemberUpdate (LobbyMemberUpdate.decodes h.1 h.2)
    | lobbyDestroy msg => exact htagged .lobbyDestroy (LobbyDestroy.decodes h)
  exact hdecodes rest

/-- A search for sessions whose `map` is at least -3. -/
def searchSample : SessionSearch where
  searchId := ['s'.toUInt8]
  maxResults := 10
  parameters := [{
    attr :=
      { key := ['m'.toUInt8, 'a'.toUInt8, 'p'.toUInt8], valueType := attributeInt64, asInt64 := -3 }
    comparisonOp := 3 }]

theorem searchSample_withinCaps : searchSample.WithinCaps where
  searchId := by decide
  sessionId := by decide
  targetUserId := by decide
  parameterCount := by decide
  parameters := by
    intro parameter hparameter
    obtain rfl := List.mem_singleton.1 hparameter
    exact ⟨by decide, by decide, by decide, by decide⟩

/-- The search, with a byte of something else behind it. -/
theorem message_round_trip_search :
    MessageKind.sessionSearch.deserialize.run (searchSample.serialize ++ [7]) =
      some (.sessionSearch searchSample, [7]) :=
  message_round_trip (.sessionSearch searchSample) searchSample_withinCaps [7]

end EosMesh
