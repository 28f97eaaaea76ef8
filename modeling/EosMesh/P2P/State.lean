import EosMesh.Lib.Table
import EosMesh.Net.Wire

/-!
# What the P2P interface holds

The records of `interfaces/p2p.h` and the options of the calls a game makes.

Two things every connection and packet rests on are checked once, where a name or a packet enters: a
socket name is well formed, and a packet is no longer than the limit.  `SocketName` and `Packet`
carry these checks, and `Connection` carries that nothing waits on an open one, so that what is
built of them needs no second look.

* `P2p` is the state of one instance; `Outgoing` is what it hands to `send_p2p`.
* `ProductUserId`, a handle, is the id it stands for, and a null pointer is `none`.
-/

set_option autoImplicit false

namespace EosMesh

open Lib
open Std (TreeMap)

/-! ## Limits -/

/-- `EOS_P2P_MAX_PACKET_SIZE`. -/
def maxPacketSize : Nat := 1170

/-- `EOS_P2P_SOCKETID_SOCKETNAME_SIZE`, the terminator included. -/
def socketNameSize : Nat := 33

/-- `EOS_P2P_MAX_QUEUE_SIZE_UNLIMITED`. -/
def maxQueueSizeUnlimited : UInt64 := 0

/-- The widest channel the API can express. -/
def maxChannel : Int32 := 255

/-- `EOS_TRUE`; an `EOS_Bool` is an integer. -/
def eosTrue : Int32 := 1

/-- The versions of the options that we know, one for each call. -/
def socketIdApiLatest : Int32 := 1
def sendPacketApiLatest : Int32 := 3
def receivePacketApiLatest : Int32 := 2
def getNextReceivedPacketSizeApiLatest : Int32 := 2
def acceptConnectionApiLatest : Int32 := 1
def closeConnectionApiLatest : Int32 := 1
def closeConnectionsApiLatest : Int32 := 1
def setPacketQueueSizeApiLatest : Int32 := 1
def clearPacketQueueApiLatest : Int32 := 1

/-- The version each field came in with. -/
def sendPacketWithReliability : Int32 := 2
/-- The versions from which on a later field is there. -/
def sendPacketWithDisableAutoAccept : Int32 := 3
def receivePacketWithRequestedChannel : Int32 := 2
def packetSizeWithRequestedChannel : Int32 := 2

/-- Every version up to the one we know is served. -/
def versionIsSupported (version latest : Int32) : Bool := version > 0 ∧ version ≤ latest

/-! ## Socket names -/

/-- The alphabet of a socket name. -/
def socketCharIsAllowed (c : UInt8) : Bool :=
  ('A'.toUInt8 ≤ c ∧ c ≤ 'Z'.toUInt8) ∨ ('a'.toUInt8 ≤ c ∧ c ≤ 'z'.toUInt8) ∨
    ('0'.toUInt8 ≤ c ∧ c ≤ '9'.toUInt8) ∨
    c ∈ ['-', '_', ' ', '+', '=', '.'].map Char.toUInt8

/-- One to 32 characters of the alphabet. -/
def socketNameIsValid (name : Bytes) : Bool :=
  name ≠ [] ∧ name.length ≤ socketNameSize - 1 ∧ name.all socketCharIsAllowed

/-- A socket name that passed the check. -/
abbrev SocketName := { name : Bytes // socketNameIsValid name = true }

/-- The name `A` is valid. -/
theorem socketNameIsValid_letter : socketNameIsValid [65] = true := by decide

/-- A name off the wire, or out of an options struct. -/
def SocketName.of? (name : Bytes) : Option SocketName :=
  if h : socketNameIsValid name = true then some ⟨name, h⟩ else none

/-- `EOS_P2P_SocketId`: the buffer may be unterminated. -/
structure SocketId where
  apiVersion : Int32
  socketName : Bytes
  deriving DecidableEq, Repr

/-- `socket_name_of`: what is before the terminator, or the whole buffer. -/
def socketNameOf (socket : SocketId) : Bytes :=
  (socket.socketName.take socketNameSize).takeWhile (· ≠ 0)

/-- `socket_id_is_valid`, with the name it found valid. -/
def SocketId.valid? (socket : SocketId) : Option SocketName :=
  if socket.apiVersion = socketIdApiLatest then SocketName.of? (socketNameOf socket) else none

/-! ## Packets -/

/-- A packet within the limit. -/
abbrev Packet := { data : Bytes // data.length ≤ maxPacketSize }

/-- A packet of no bytes, which a game may send. -/
def Packet.empty : Packet := ⟨[], Nat.zero_le _⟩

/-- A packet that waits for its connection to open. -/
structure DelayedPacket where
  data : Packet
  channel : UInt8
  reliable : Bool
  deriving DecidableEq, Repr

/-- A packet that waits for the game to receive it. -/
structure ReceivedPacket where
  peer : Bytes
  socket : SocketName
  channel : UInt8
  data : Packet
  deriving DecidableEq, Repr

/-! ## Connections -/

/-- A connection is identified by the remote peer plus the socket name. -/
structure ConnectionKey where
  peer : Bytes
  socket : SocketName
  deriving DecidableEq, Repr

/-- By peer, then by socket. -/
instance : Ord ConnectionKey where
  compare := compareLex (compareOn ConnectionKey.peer) (compareOn fun key ↦ key.socket.1)

instance : Std.TransOrd ConnectionKey :=
  inferInstanceAs (Std.TransCmp (compareLex (compareOn ConnectionKey.peer)
    (compareOn fun key : ConnectionKey ↦ key.socket.1)))

instance : Std.LawfulEqOrd ConnectionKey where
  eq_of_compare {a b} h := by
    obtain ⟨hpeer, hsocket⟩ := compareLex_eq_eq.1 h
    cases a
    cases b
    congr
    · exact Std.LawfulEqCmp.eq_of_compare hpeer
    · exact Subtype.ext (Std.LawfulEqCmp.eq_of_compare hsocket)

/-- How far a connection has come.  A peer we have none with is not in the table. -/
inductive ConnectionState
  /-- The peer asked us; the game has not accepted yet. -/
  | connectionRequested
  /-- We asked the peer; waiting for it to agree. -/
  | connectionPending
  /-- Both sides agreed. -/
  | connectionOpen
  deriving DecidableEq, Repr

/-- Nothing is held, whatever the state. -/
theorem ConnectionState.settled (state : ConnectionState) :
    state = .connectionOpen → ([] : List DelayedPacket) = [] := fun _ ↦ rfl

/-- A connection, and the packets held until the peer agrees to it. -/
structure Connection where
  state : ConnectionState
  delayed : List DelayedPacket := []
  settled : state = .connectionOpen → delayed = [] := by
    first | exact ConnectionState.settled _ | simp
  deriving DecidableEq, Repr

/-! ## Notifications -/

/-- What a game may be told of: the four notifications of the interface. -/
inductive EventKind
  | request | established | interrupted | closed
  deriving DecidableEq, Repr

/-- The `EOS_EConnectionClosedReason`s the interface reports. -/
inductive ClosedReason
  | unknown | closedByLocalUser | closedByPeer
  deriving DecidableEq, Repr

/-- A connection notification to deliver on the next frame. -/
structure PendingEvent where
  type : EventKind
  peer : Bytes
  socket : SocketName
  reason : ClosedReason
  deriving DecidableEq, Repr

/-- A packet the incoming queue had no room for. -/
structure OverflowPacket where
  channel : UInt8
  sizeBytes : Nat
  queueSizeBytes : Nat
  queueMaxBytes : UInt64
  deriving DecidableEq, Repr

/-! ## The interface -/

/-- One instance: who it is by `settings_`, and its queues and tables. -/
structure P2p where
  productUserId : Bytes
  productId : Bytes
  receiveQueue : List ReceivedPacket := []
  connections : TreeMap ConnectionKey Connection := {}
  pendingEvents : List PendingEvent := []
  overflows : List OverflowPacket := []
  incomingQueueMaxBytes : UInt64 := maxQueueSizeUnlimited
  outgoingQueueMaxBytes : UInt64 := maxQueueSizeUnlimited

/-- The results of the calls. -/
inductive EResult
  | success | invalidParameters | invalidUser | limitExceeded | noConnection | notFound
  | incompatibleVersion
  deriving DecidableEq, Repr

/-- What a P2P message says to the other end. -/
inductive Signal
  | request | response | data | close
  deriving DecidableEq, Repr

/-- The tag a message travels under. -/
def Signal.type : Signal → MessageType
  | request => .p2pConnectRequest
  | response => .p2pConnectResponse
  | data => .p2pData
  | close => .p2pConnectionClose

/-- The arguments of one `send_p2p`. -/
structure Outgoing where
  signal : Signal
  peer : Bytes
  socket : SocketName
  channel : UInt8 := 0
  data : Packet := Packet.empty
  reliable : Bool := true
  deriving DecidableEq, Repr

/-! ## The options of the calls -/

/-- `EOS_EPacketReliability`. -/
inductive PacketReliability
  | unreliableUnordered | reliableUnordered | reliableOrdered
  deriving DecidableEq, Repr

/-- `EOS_P2P_SendPacketOptions`; a null pointer is `none`, here and below. -/
structure SendPacketOptions where
  apiVersion : Int32
  localUserId : Option Bytes
  remoteUserId : Option Bytes
  socketId : Option SocketId
  channel : UInt8
  dataLengthBytes : UInt32
  data : Option Bytes
  bAllowDelayedDelivery : Int32
  reliability : PacketReliability
  bDisableAutoAcceptConnection : Int32
  deriving DecidableEq, Repr

/-- The options to accept a connection with; those to close one are the same. -/
structure AcceptConnectionOptions where
  apiVersion : Int32
  localUserId : Option Bytes
  remoteUserId : Option Bytes
  socketId : Option SocketId
  deriving DecidableEq, Repr

/-- Without a socket, every one we share with the peer. -/
structure CloseConnectionOptions where
  apiVersion : Int32
  localUserId : Option Bytes
  remoteUserId : Option Bytes
  socketId : Option SocketId
  deriving DecidableEq, Repr

/-- The options to close a socket with, whoever is at its other ends. -/
structure CloseConnectionsOptions where
  apiVersion : Int32
  localUserId : Option Bytes
  socketId : Option SocketId
  deriving DecidableEq, Repr

/-- The options to receive a packet with; without a channel it is the oldest of any. -/
structure ReceivePacketOptions where
  apiVersion : Int32
  localUserId : Option Bytes
  maxDataSizeBytes : UInt32
  requestedChannel : Option UInt8
  deriving DecidableEq, Repr

/-- The limits in bytes; zero is no limit. -/
structure SetPacketQueueSizeOptions where
  apiVersion : Int32
  incomingPacketQueueMaxSizeBytes : UInt64
  outgoingPacketQueueMaxSizeBytes : UInt64
  deriving DecidableEq, Repr

/-- The options to clear a queue with; no peer, or no socket, is every one. -/
structure ClearPacketQueueOptions where
  apiVersion : Int32
  localUserId : Option Bytes
  remoteUserId : Option Bytes
  socketId : Option SocketId
  deriving DecidableEq, Repr

end EosMesh
