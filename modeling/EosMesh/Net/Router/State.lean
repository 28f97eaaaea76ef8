import EosMesh.Net.PeerChannel
import EosMesh.Net.Wire

/-!
# What the router holds, and what the sockets told it

The tables of `net/message_router.h`, and the outcomes the router's socket calls can have.

* `Peer`, `HandshakingPeer` and `DialingPeer` are the source's records; the three tables are kept
  apart exactly as there, and only `peers` is keyed by an authenticated id.
* `World` is everything outside that one step of the router consults: the clock, the bytes each
  socket delivers, how much each socket takes.  No result about the router assumes anything of it.
* `Config` is who we are: fixed by `set_identity` before the router starts.
-/

set_option autoImplicit false

namespace EosMesh

open Lib Std

/-! ## The outside -/

/-- A socket, by number. -/
abbrev Handle := Nat

/-- A listener, by number: the source holds a pointer. -/
abbrev Listener := Nat

/-- An address on the local network. -/
structure Endpoint where
  ip : UInt32
  port : UInt16
  deriving DecidableEq, Repr

/-- What one `send` on a socket did. -/
inductive SendResult
  | sent (count : Nat)
  | wouldBlock
  | error
  deriving DecidableEq, Repr

/-- What a read told us about the far end. -/
inductive StreamHealth
  | alive
  | closed
  deriving DecidableEq, Repr

/-- How a non-blocking connect reports itself when it is offered again. -/
inductive ConnectResult
  | connected
  | inProgress
  | error
  deriving DecidableEq, Repr

/-- The outside, as one step of the router sees it.  Times are milliseconds. -/
structure World where
  now : Int := 0
  /-- What `read_stream` appends before it would block or sees the end. -/
  recv : Handle → Bytes × StreamHealth := fun _ ↦ ([], .alive)
  /-- The results of successive `send` calls; a socket with none left would block. -/
  sends : Handle → List SendResult := fun _ ↦ []
  /-- Accepted connections, and whether each could be made non-blocking. -/
  accepts : List (Handle × Endpoint × Bool) := []
  connects : Handle → ConnectResult := fun _ ↦ .inProgress
  /-- The socket a dial gets, or `none` when it could not be opened or connected. -/
  dial : Option Handle := none
  /-- The next datagram on the discovery socket. -/
  datagram : Option (Bytes × Endpoint) := none
  udpTakes : Bool := true
  random : Handle → Option Bytes := fun _ ↦ none
  /-- How many bytes the loopback gives, and how many it takes. -/
  selfRecv : Nat := 0
  selfSend : Nat := 0

/-! ## The tables -/

/-- One authenticated peer. -/
structure Peer where
  connection : Handle
  buffer : Bytes
  outbox : Bytes
  channel : PeerChannel
  /-- The epic account id this peer's key derives. -/
  epicId : Bytes
  /-- Port zero until a sealed advertisement names one. -/
  datagramAddr : Endpoint
  lastSeen : Int
  deriving DecidableEq, Repr

/-- A connection whose far end has not proved who it is yet. -/
structure HandshakingPeer where
  connection : Handle
  buffer : Bytes := []
  outbox : Bytes := []
  channel : PeerChannel
  /-- For a connection we dialed, the id the advertisement promised; else empty. -/
  expectedId : Bytes := []
  remote : Endpoint
  startedAt : Int
  deriving DecidableEq, Repr

/-- A peer we are dialing. -/
structure DialingPeer where
  connection : Handle
  address : Endpoint
  startedAt : Int
  deriving DecidableEq, Repr

/-- Who we are on the mesh. -/
structure Config where
  productUserId : Bytes
  gameId : Bytes
  sandboxId : Bytes
  deploymentId : Bytes
  staticPriv : Bytes
  staticPub : Bytes
  haveProfile : Bool
  prologue : Bytes
  deriving DecidableEq, Repr

/-- The id a static key certifies, by the formula every peer applies to ours. -/
def Config.idOfKey (config : Config) (crypto : Crypto) (publicKey : Bytes) : Bytes :=
  deriveProductUserId crypto publicKey config.gameId config.sandboxId config.deploymentId

/-- `set_identity`: our own id is the one our key derives. -/
def Config.setIdentity (crypto : Crypto) (hasKey : Bool) (secret publicKey productId sandboxId
    deploymentId : Bytes) : Config :=
  if hasKey then
    { productUserId := deriveProductUserId crypto publicKey productId sandboxId deploymentId
      gameId := productId, sandboxId, deploymentId, staticPriv := secret, staticPub := publicKey
      haveProfile := true, prologue := meshPrologue productId sandboxId deploymentId }
  else
    { productUserId := [], gameId := productId, sandboxId, deploymentId
      staticPriv := zeros keyLen, staticPub := zeros keyLen, haveProfile := false, prologue := [] }

/-- What the router holds: the peers, the connections on their way to become peers, and who listens.
-/
structure Router where
  peers : TreeMap Bytes Peer := {}
  handshaking : List HandshakingPeer := []
  dialing : TreeMap Bytes DialingPeer := {}
  /-- The start of the clock until the first advertisement goes out. -/
  lastAdvertise : Int := 0
  /-- Registered listeners by type tag, in order of registration. -/
  listeners : TreeMap UInt16 (List Listener) := {}
  discoveryPort : UInt16 := 0
  meshPort : UInt16 := 0
  /-- Bytes in the loopback, written and not yet read. -/
  selfPipe : Bytes := []
  selfBuffer : Bytes := []
  datagramsSent : UInt64 := 0
  datagramsReceived : UInt64 := 0
  running : Bool := false

/-- Why the mesh lost a peer. -/
inductive DropReason
  | sendFailed
  | frameTooLarge
  | authenticationFailed
  | streamClosed
  | timeout
  | localShutdown
  deriving DecidableEq, Repr

/-! ## Intervals and limits, in milliseconds and bytes -/

/-- The intervals of the router in milliseconds, and the cap of an outbox in bytes. -/
def advertiseInterval : Int := 2000
def peerTimeout : Int := 10000
def dialTimeout : Int := 5000
def handshakeTimeout : Int := 5000
def maxOutboxBytes : Nat := 4 * 1024 * 1024

/-! ## Lookups -/

namespace Router

/-- The peers that are up. -/
def peerIds (r : Router) : List Bytes := r.peers.keys

/-- Empty when we have no such peer. -/
def peerEpicId (r : Router) (id : Bytes) : Bytes :=
  match r.peers[id]? with
  | some entry => entry.epicId
  | none => []

/-- Who hears of a message under a tag, in the order in which they registered. -/
def listenersOf (r : Router) (tag : UInt16) : List Listener := r.listeners.getD tag []

/-- A listener is registered once under a tag. -/
def registerListener (r : Router) (tag : UInt16) (listener : Listener) : Router :=
  if listener ∈ r.listenersOf tag then r
  else { r with listeners := r.listeners.insert tag (r.listenersOf tag ++ [listener]) }

/-- A listener is taken back; the others keep their order. -/
def unregisterListener (r : Router) (tag : UInt16) (listener : Listener) : Router :=
  match r.listeners[tag]? with
  | none => r
  | some bucket =>
    if listener ∈ bucket then
      let bucket := bucket.erase listener
      if bucket.isEmpty then { r with listeners := r.listeners.erase tag }
      else { r with listeners := r.listeners.insert tag bucket }
    else r

end Router
end EosMesh
