import EosMesh.Common.ByteBuffer

/-!
# The messages

`net/messages.h`: the envelope that carries one message between peers, and the messages the router
and the interfaces put into it.  Field order and defaults are the source's.

* `MessageType` are the kinds of message, with the number that each travels as.  Two of them, those
  of a peer that came or went, are made by the router itself and are not meant to be on the wire.
* `NetEnvelope` says whom a message is from and to, which game it is of, and which kind it is; what
  is in it are bytes, and it is the receiver's business to read them.
* The texts are bytes, as they are in the source, where a `std::string` may hold anything.  The
  enumerations of the SDK are numbers of 32 bits, of which a peer may send any.
* The messages of a lobby carry the lobby as a whole, with its members and their attributes, and
  those of a session the session with its players.
-/

set_option autoImplicit false

namespace EosMesh

/-- Pinned into the handshake transcript and checked on every envelope. -/
def wireProtocolVersion : UInt8 := 2

/-- Largest frame accepted from a peer. -/
def maxMessageSize : Nat := 4 * 1024 * 1024

/-- The kind of message an envelope carries. -/
inductive MessageType
  | none
  | emuInfosRequest | emuInfosResponse
  | connectRequest | connectResponse | connectInfos
  | p2pConnectRequest | p2pConnectResponse | p2pData | p2pDataAck | p2pConnectionClose
  | sessionInfos | sessionSearch | sessionSearchResponse | sessionJoinRequest
  | sessionJoinResponse | sessionDestroy | sessionRegister | sessionUnregister
  | netAdvertise | peerConnected | peerDisconnected
  | presenceRequest | presenceInfo
  | lobbySearch | lobbySearchResponse | lobbyJoinRequest | lobbyJoinResponse | lobbyInfos
  | lobbyLeave | lobbyMemberUpdate | lobbyDestroy
  deriving DecidableEq, Repr

/-- The number a type travels as. -/
def MessageType.tag : MessageType → UInt16
  | .none => 0
  | .emuInfosRequest => 1
  | .emuInfosResponse => 2
  | .connectRequest => 10
  | .connectResponse => 11
  | .connectInfos => 12
  | .p2pConnectRequest => 20
  | .p2pConnectResponse => 21
  | .p2pData => 22
  | .p2pDataAck => 23
  | .p2pConnectionClose => 24
  | .sessionInfos => 30
  | .sessionSearch => 31
  | .sessionSearchResponse => 32
  | .sessionJoinRequest => 33
  | .sessionJoinResponse => 34
  | .sessionDestroy => 35
  | .sessionRegister => 36
  | .sessionUnregister => 37
  | .netAdvertise => 40
  | .peerConnected => 41
  | .peerDisconnected => 42
  | .presenceRequest => 50
  | .presenceInfo => 51
  | .lobbySearch => 60
  | .lobbySearchResponse => 61
  | .lobbyJoinRequest => 62
  | .lobbyJoinResponse => 63
  | .lobbyInfos => 64
  | .lobbyLeave => 65
  | .lobbyMemberUpdate => 66
  | .lobbyDestroy => 67

/-- The top-level frame that carries one message.  An empty `destId` means broadcast; `timestamp`
is milliseconds since the Unix epoch. -/
structure NetEnvelope where
  typeTag : UInt16 := 0
  sourceId : Bytes := []
  destId : Bytes := []
  gameId : Bytes := []
  timestamp : Int64 := 0
  payload : Bytes := []
  deriving DecidableEq, Repr

/-- What an instance announces: who it is, which game it runs, and its mesh and datagram ports. -/
structure NetAdvertise where
  productUserId : Bytes := []
  gameId : Bytes := []
  tcpPort : UInt16 := 0
  udpPort : UInt16 := 0
  deriving DecidableEq, Repr

/-- What peers tell each other about the app they run. -/
structure EmuInfos where
  emulator : Bytes := []
  appid : Bytes := []
  country : Bytes := []
  language : Bytes := []
  username : Bytes := []
  deriving DecidableEq, Repr

/-- A peer's Connect identity. -/
structure ConnectInfos where
  productUserId : Bytes := []
  displayName : Bytes := []
  deriving DecidableEq, Repr

/-- A P2P packet; with empty data, a connect request, its answer or a close. -/
structure P2pData where
  socketName : Bytes := []
  channel : Int32 := 0
  data : Bytes := []
  deriving DecidableEq, Repr

/-- One advertised key and value.  `valueType` is an `EOS_EAttributeType`: 0 bool, 1 int64,
2 double, 3 string; a double is kept as its bit pattern. -/
structure SessionAttribute where
  key : Bytes := []
  valueType : Int32 := 0
  asBool : Bool := false
  asInt64 : Int64 := 0
  asDouble : UInt64 := 0
  asString : Bytes := []
  advertisement : Int32 := 0
  deriving DecidableEq, Repr

/-- A session a host advertises: what a searcher needs to want in, who is in it, and how to reach
it. -/
structure SessionInfos where
  sessionId : Bytes := []
  ownerId : Bytes := []
  bucketId : Bytes := []
  hostAddress : Bytes := []
  maxPlayers : UInt32 := 0
  openSlots : UInt32 := 0
  permissionLevel : Int32 := 0
  state : Int32 := 0
  allowJoinInProgress : Bool := false
  invitesAllowed : Bool := false
  sanctionsEnabled : Bool := false
  registeredPlayers : List Bytes := []
  attributes : List SessionAttribute := []
  deriving DecidableEq, Repr

/-- One condition a searcher puts on attributes; `comparisonOp` is an `EOS_EComparisonOp`. -/
structure SearchParameter where
  attr : SessionAttribute := {}
  comparisonOp : Int32 := 0
  deriving DecidableEq, Repr

/-- A searcher asking every peer for sessions it would want to join; an empty id or user is no
filter. -/
structure SessionSearch where
  searchId : Bytes := []
  sessionId : Bytes := []
  targetUserId : Bytes := []
  maxResults : UInt32 := 0
  parameters : List SearchParameter := []
  deriving DecidableEq, Repr

/-- A peer's whole answer to one search. -/
structure SessionSearchResponse where
  searchId : Bytes := []
  sessions : List SessionInfos := []
  deriving DecidableEq, Repr

/-- A player asks to join a session. -/
structure SessionJoinRequest where
  sessionId : Bytes := []
  deriving DecidableEq, Repr

/-- The host's verdict on a join; `reason` is an `EOS_EResult`. -/
structure SessionJoinResponse where
  sessionId : Bytes := []
  playerId : Bytes := []
  reason : Int32 := 0
  deriving DecidableEq, Repr

/-- A session is no more. -/
structure SessionDestroy where
  sessionId : Bytes := []
  deriving DecidableEq, Repr

/-- A member registering or unregistering players. -/
structure SessionMembers where
  sessionId : Bytes := []
  playerIds : List Bytes := []
  deriving DecidableEq, Repr

/-- A key of the game's own, with its value. -/
structure PresenceDataRecord where
  key : Bytes := []
  value : Bytes := []
  deriving DecidableEq, Repr

/-- A user's rich presence; `status` is an `EOS_Presence_EStatus`. -/
structure PresenceInfo where
  epicId : Bytes := []
  status : Int32 := 0
  productId : Bytes := []
  productVersion : Bytes := []
  platform : Bytes := []
  richText : Bytes := []
  productName : Bytes := []
  integratedPlatform : Bytes := []
  joinInfo : Bytes := []
  records : List PresenceDataRecord := []
  deriving DecidableEq, Repr

/-- A player asks for a presence. -/
structure PresenceRequest where
  targetEpicId : Bytes := []
  deriving DecidableEq, Repr

/-- One member of a lobby and the attributes it published about itself. -/
structure LobbyMember where
  userId : Bytes := []
  platform : Int32 := 0
  attributes : List SessionAttribute := []
  deriving DecidableEq, Repr

/-- A lobby as its owner broadcasts it. -/
structure LobbyInfos where
  lobbyId : Bytes := []
  ownerId : Bytes := []
  bucketId : Bytes := []
  permissionLevel : Int32 := 0
  maxMembers : UInt32 := 0
  availableSlots : UInt32 := 0
  allowInvites : Bool := true
  allowHostMigration : Bool := false
  allowJoinById : Bool := false
  rtcEnabled : Bool := false
  attributes : List SessionAttribute := []
  members : List LobbyMember := []
  deriving DecidableEq, Repr

/-- A searcher asking every peer for lobbies it would want to join. -/
structure LobbySearch where
  searchId : Bytes := []
  lobbyId : Bytes := []
  targetUserId : Bytes := []
  maxResults : UInt32 := 0
  parameters : List SearchParameter := []
  deriving DecidableEq, Repr

/-- A peer's whole answer to one lobby search. -/
structure LobbySearchResponse where
  searchId : Bytes := []
  lobbies : List LobbyInfos := []
  deriving DecidableEq, Repr

/-- A player asking a host to let it in; `byId` when it came from `JoinLobbyById`. -/
structure LobbyJoinRequest where
  lobbyId : Bytes := []
  byId : Bool := false
  member : LobbyMember := {}
  deriving DecidableEq, Repr

/-- The host's verdict on a join; `reason` is an `EOS_EResult`. -/
structure LobbyJoinResponse where
  lobbyId : Bytes := []
  playerId : Bytes := []
  reason : Int32 := 0
  deriving DecidableEq, Repr

/-- A member leaving, or updating its own attributes. -/
structure LobbyMemberUpdate where
  lobbyId : Bytes := []
  member : LobbyMember := {}
  deriving DecidableEq, Repr

/-- The host telling a member the lobby is gone for it; 3 is a kick, 5 the whole lobby closing. -/
structure LobbyDestroy where
  lobbyId : Bytes := []
  reason : Int32 := 3
  deriving DecidableEq, Repr

end EosMesh
