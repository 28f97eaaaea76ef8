import EosMesh.Net.Router.Stream

/-!
# The router's own operations

The parts of `net/message_router.cpp` that run without calling out: each takes the tables and the
outside, and gives the tables back together with what has to happen next.  Nothing here dispatches;
dispatching, and the re-entrant calls it leads to, are the business of the machine built on top.

* sending: `sendTo`, `broadcast`, `sendDatagram`, `sendToSelf`, `selfAdvertisement`;
* discovery and dialing: `handleAdvertise`, `acceptPeers`, `finishDialing`;
* the handshake: `shakeOne`, with the outcomes `ShakeOutcome`;
* adoption: `adopt`, which refuses what `adopt_peer` refuses;
* draining: `drainPeer` for one peer, `openDatagram`, `readSelf`;
* expiry and shutdown: `expireHandshaking`, `expiredPeers`, `stop` and `start`.

The outside is a `World`: what each socket takes and gives on this tick, the clock, the random
source, and the connections that come in.  So an operation is a function, and an adversary is a
choice of worlds.

An operation that finds a peer dead does not drop it: `send` gives back the peers to drop, and a
drain says of each peer why it is to go.  In the source the drop follows at once, with a dispatch in
the middle of the loop or behind it, and where it stands is kept by the machine.
-/

set_option autoImplicit false

namespace EosMesh

open Lib Std

namespace Router

variable (crypto : Crypto) (config : Config) (w : World)

/-! ## Sending -/

/-- The message that says who we are, where our mesh listens, and where our datagrams go. -/
def selfAdvertisement (r : Router) : NetEnvelope :=
  let infos : NetAdvertise :=
    { productUserId := config.productUserId, gameId := config.gameId, tcpPort := r.meshPort
      udpPort := r.discoveryPort }
  { typeTag := MessageType.netAdvertise.tag, sourceId := config.productUserId
    gameId := config.gameId, payload := infos.serialize }

/-- `send` with a destination: whether it was accepted, the tables, and whether the peer has to be
dropped for it. -/
def sendTo (r : Router) (msg : NetEnvelope) : Bool × Router × Option Bytes :=
  match r.peers[msg.destId]? with
  | none => (false, r, none)
  | some entry =>
    let (ok, entry) := sendFrame crypto w entry msg.serialize
    let r := { r with peers := r.peers.insert msg.destId entry }
    if ok then (true, r, none) else (false, r, some msg.destId)

/-- `send` without one: each peer gets its own sealed copy, and the dead ones are collected. -/
def broadcast (r : Router) (msg : NetEnvelope) : Router × List Bytes :=
  let plain := msg.serialize
  let dead := r.peers.toList.filterMap fun p ↦
    if (sendFrame crypto w p.2 plain).1 then none else some p.1
  ({ r with peers := r.peers.map fun _ entry ↦ (sendFrame crypto w entry plain).2 }, dead)

/-- `send`: the result, the tables, and the peers to drop. -/
def send (r : Router) (msg : NetEnvelope) : Bool × Router × List Bytes :=
  if ¬ r.running then (false, r, [])
  else if msg.destId = [] then
    let (r, dead) := broadcast crypto w r msg
    (true, r, dead)
  else
    let (ok, r, dead) := sendTo crypto w r msg
    (ok, r, dead.toList)

/-- A payload goes to a peer outside the stream, if the peer is up and its port is known. -/
def sendDatagram (r : Router) (peerId payload : Bytes) : Bool × Router :=
  if ¬ r.running then (false, r)
  else match r.peers[peerId]? with
    | none => (false, r)
    | some entry =>
      if entry.datagramAddr.port = 0 then (false, r)
      else match entry.channel.sealDatagram crypto config.productUserId peerId payload with
        | none => (false, r)
        | some (_, _, channel) =>
          let r := { r with peers := r.peers.insert peerId { entry with channel } }
          -- A datagram the socket will not take is a datagram that was lost.
          if ¬ w.udpTakes then (false, r)
          else (true, { r with datagramsSent := r.datagramsSent + 1 })

/-- `send_to_self`: the loopback takes the whole frame, or breaks after some of it. -/
def sendToSelf (r : Router) (msg : NetEnvelope) : Bool × Router :=
  let framed := frameMessage msg.serialize
  if w.selfSend ≥ framed.length then (true, { r with selfPipe := r.selfPipe ++ framed })
  else (false, { r with selfPipe := r.selfPipe ++ framed.take w.selfSend })

/-! ## Discovery and dialing -/

/-- A connection to this player is under way. -/
def isConnectingTo (r : Router) (id : Bytes) : Bool :=
  r.dialing.contains id || r.handshaking.any fun entry ↦ entry.expectedId == id

/-- An advertisement is a hint: all it can do is start a dial. -/
def handleAdvertise (r : Router) (msg : NetEnvelope) (source : Endpoint) : Router :=
  match NetAdvertise.deserialize.run msg.payload with
  | none => r
  | some (infos, _) =>
    if infos.productUserId = [] ∨ infos.productUserId = config.productUserId then r
    else if infos.gameId ≠ config.gameId ∨ infos.tcpPort = 0 then r
    else if r.peers.contains infos.productUserId then r
    -- The lower id dials and the higher id accepts.
    else if compare config.productUserId infos.productUserId = .gt then r
    else if r.isConnectingTo infos.productUserId then r
    else match w.dial with
      | none => r
      | some connection =>
        { r with
          dialing := r.dialing.insert infos.productUserId
            { connection, address := { ip := source.ip, port := infos.tcpPort }
              startedAt := w.now } }

/-- Every connection that came in begins a handshake, unless its socket will not do. -/
def acceptPeers (r : Router) : Router :=
  let incoming := w.accepts.filterMap fun (connection, source, nonblocking) ↦
    if nonblocking then
      some { connection, remote := source, startedAt := w.now
             channel := PeerChannel.init crypto false config.staticPriv config.staticPub
               config.prologue : HandshakingPeer }
    else none
  { r with handshaking := r.handshaking ++ incoming }

/-- What became of a dial on this tick. -/
inductive DialOutcome
  | done
  | failed
  | waiting
  deriving DecidableEq, Repr

/-- What has become of a dial; one that takes too long has failed. -/
def dialOutcome (entry : DialingPeer) : DialOutcome :=
  match w.connects entry.connection with
  | .connected => .done
  | .error => .failed
  | .inProgress => if w.now - entry.startedAt > dialTimeout then .failed else .waiting

/-- A connection that is up starts a handshake, and we speak first; `none` when there is no secure
randomness or the connection died before it was spoken to. -/
def startHandshake (id : Bytes) (entry : DialingPeer) : Option HandshakingPeer :=
  let channel := PeerChannel.init crypto true config.staticPriv config.staticPub config.prologue
  match channel.openHandshake crypto (w.random entry.connection) with
  | none => none
  | some (opening, channel) =>
    let (ok, outbox, _) := flushOutbox (w.sends entry.connection) (frameMessage opening)
    if ok then
      some { connection := entry.connection, outbox, channel, expectedId := id
             remote := entry.address, startedAt := w.now }
    else none

/-- Every dial that came through begins a handshake, and those that failed are forgotten. -/
def finishDialing (r : Router) : Router :=
  let started := r.dialing.toList.filterMap fun (id, entry) ↦
    if dialOutcome w entry = .done then startHandshake crypto config w id entry else none
  { r with
    dialing := r.dialing.filter fun _ entry ↦ dialOutcome w entry = .waiting
    handshaking := r.handshaking ++ started }

/-! ## The handshake -/

/-- Queue a reply for a connection that is still shaking hands, if there is one to queue. -/
def pushReply (sends : List SendResult) (entry : HandshakingPeer) (reply : Bytes) :
    Bool × HandshakingPeer × List SendResult :=
  if reply = [] then (true, entry, sends)
  else
    let (ok, outbox, sends) := flushOutbox sends (entry.outbox ++ frameMessage reply)
    (ok, { entry with outbox }, sends)

/-- The loop over the handshake messages in the buffer.  It stops the moment the handshake
completes; the id it proved is empty until then, and `none` is a connection to give up on. -/
def shakeLoop : Nat → List SendResult → HandshakingPeer → Bytes → Option (HandshakingPeer × Bytes)
  | 0, _, entry, proved => some (entry, proved)
  | fuel + 1, sends, entry, proved =>
    if entry.channel.established then some (entry, proved)
    else match takeFrame entry.buffer with
      | .refused => none
      | .none => some (entry, proved)
      | .ready message rest =>
        match entry.channel.readHandshake crypto (w.random entry.connection) message with
        | .stepFailed => none
        | .stepContinue reply channel =>
          match pushReply sends { entry with buffer := rest, channel } reply with
          | (true, entry, sends) => shakeLoop fuel sends entry proved
          | (false, _, _) => none
        | .stepDone reply channel =>
          match pushReply sends { entry with buffer := rest, channel } reply with
          | (true, entry, sends) =>
            shakeLoop fuel sends entry (config.idOfKey crypto channel.remoteStatic)
          | (false, _, _) => none

/-- What one pass over a handshaking connection came to. -/
inductive ShakeOutcome
  | lost
  | shaking (entry : HandshakingPeer)
  | proved (id : Bytes) (entry : HandshakingPeer)
  deriving DecidableEq, Repr

/-- One turn of a handshake: it sends what waits, and reads what came. -/
def shakeOne (entry : HandshakingPeer) : ShakeOutcome :=
  match flushOutbox (w.sends entry.connection) entry.outbox with
  | (false, _, _) => .lost
  | (true, outbox, sends) =>
    let (bytes, health) := w.recv entry.connection
    let buffer := entry.buffer ++ bytes
    match shakeLoop crypto config w buffer.length sends { entry with outbox, buffer } [] with
    | none => .lost
    | some (entry, proved) =>
      -- The advertisement said who would answer here.  The key says who actually did.
      if proved ≠ [] ∧ entry.expectedId ≠ [] ∧ entry.expectedId ≠ proved then .lost
      else if health = .closed then .lost
      else if proved = [] then .shaking entry
      else .proved proved entry

/-! ## Adoption -/

/-- Would `adopt_peer` take a connection under this id? -/
def adoptable (r : Router) (id : Bytes) : Bool :=
  id ≠ [] ∧ id ≠ config.productUserId ∧ ¬ r.peers.contains id

/-- The entry a proven connection becomes. -/
def adoptedPeer (entry : HandshakingPeer) : Peer where
  connection := entry.connection
  channel := entry.channel
  epicId := deriveEpicAccountId crypto entry.channel.remoteStatic
  buffer := entry.buffer
  outbox := entry.outbox
  datagramAddr := { ip := entry.remote.ip, port := 0 }
  lastSeen := w.now

/-- A handshake that is done makes a peer. -/
def adopt (r : Router) (id : Bytes) (entry : HandshakingPeer) : Router :=
  { r with peers := r.peers.insert id (adoptedPeer crypto w entry) }

/-! ## Draining -/

/-- Is an inbound frame from a meshed peer one we should deliver? -/
def acceptInbound (msg : NetEnvelope) : Bool :=
  (msg.gameId = [] ∨ msg.gameId = config.gameId) ∧
    (msg.destId = [] ∨ msg.destId = config.productUserId)

/-- A sealed advertisement names the port a peer's datagrams go to. -/
def learnDatagramPort (entry : Peer) (msg : NetEnvelope) : Peer :=
  match NetAdvertise.deserialize.run msg.payload with
  | none => entry
  | some (infos, _) =>
    if infos.udpPort = 0 then entry
    else { entry with datagramAddr := { entry.datagramAddr with port := infos.udpPort } }

/-- What one opened frame of peer `id` does to its entry, and the envelope to deliver for it. -/
def readPlain (id : Bytes) (entry : Peer) (plain : Bytes) : Peer × Option NetEnvelope :=
  match NetEnvelope.deserialize.run plain with
  | none => (entry, none)
  | some (msg, _) =>
    -- The key that opened this frame is who it is from, not the source its sender wrote.
    let msg := { msg with sourceId := id }
    let entry := { entry with lastSeen := w.now }
    if msg.typeTag = MessageType.netAdvertise.tag then (learnDatagramPort entry msg, none)
    else if acceptInbound config msg then (entry, some msg)
    else (entry, none)

/-- The opened frames of one peer, in order: each delivered envelope with the plaintext it was
in. -/
def readPlains (id : Bytes) : Peer → List Bytes → Peer × List (NetEnvelope × Bytes)
  | entry, [] => (entry, [])
  | entry, plain :: plains =>
    let (entry, msg) := readPlain config w id entry plain
    let (entry, msgs) := readPlains id entry plains
    (entry, (msg.map fun msg ↦ (msg, plain)).toList ++ msgs)

/-- What draining one peer came to. -/
structure Drained where
  entry : Peer
  plains : List Bytes
  messages : List (NetEnvelope × Bytes)
  dead : Option DropReason

/-- What opens of the bytes a peer's buffer holds once its socket is read. -/
def openArrived (entry : Peer) : Unsealed :=
  let buffer := entry.buffer ++ (w.recv entry.connection).1
  unsealFrames crypto buffer.length entry.channel buffer

/-- One peer's turn in `drain_peers`. -/
def drainPeer (id : Bytes) (entry : Peer) : Drained :=
  let health := (w.recv entry.connection).2
  let opened := openArrived crypto w entry
  let read := readPlains config w id
    { entry with buffer := opened.buffer, channel := opened.channel } opened.plains
  match opened.broken with
  | some reason =>
    { entry := read.1, plains := opened.plains, messages := read.2, dead := some reason }
  | none =>
    if health = .closed then
      { entry := read.1, plains := opened.plains, messages := read.2, dead := some .streamClosed }
    else
      let (ok, outbox, _) := flushOutbox (w.sends read.1.connection) read.1.outbox
      { entry := { read.1 with outbox }, plains := opened.plains, messages := read.2
        dead := if ok then none else some .sendFailed }

/-- The body a datagram carries once the peer it is tagged for is found and it opened: that peer,
its entry after it, and the plaintext. -/
def openDatagram (r : Router) (data : Bytes) : Option (Bytes × Peer × Bytes) :=
  -- `[kind][u32 tag][u64 sequence]`, then the sealed body with its tag.
  if data.length < 13 + aeadTagLen then none
  else
    let tag := UInt32.ofNat (ofBeBytes ((data.drop 1).take 4))
    let seq := UInt64.ofNat (ofBeBytes ((data.drop 5).take 8))
    match r.peers.toList.find? fun p ↦ p.2.channel.udpRecvTag = tag with
    | none => none
    | some (id, entry) =>
      match entry.channel.openDatagram crypto id config.productUserId seq (data.drop 13) with
      | none => none
      | some (plain, channel) => some (id, { entry with channel, lastSeen := w.now }, plain)

/-- The envelope an opened datagram is delivered as: from the key that opened it. -/
def datagramEnvelope (id plain : Bytes) : NetEnvelope where
  typeTag := MessageType.p2pData.tag
  sourceId := id
  destId := config.productUserId
  gameId := config.gameId
  payload := plain

/-- The frames of the loopback, which are in the clear; a refused one clears what is behind it. -/
def selfFrames : Nat → Bytes → List Bytes × Bytes
  | 0, buffer => ([], buffer)
  | fuel + 1, buffer =>
    match takeFrame buffer with
    | .refused => ([], [])
    | .none => ([], buffer)
    | .ready body rest =>
      let (bodies, buffer) := selfFrames fuel rest
      (body :: bodies, buffer)

/-- What the loopback has for us: the envelopes that decode, and the tables after reading. -/
def readSelf (r : Router) : Router × List NetEnvelope :=
  let buffer := r.selfBuffer ++ r.selfPipe.take w.selfRecv
  let (bodies, buffer) := selfFrames buffer.length buffer
  ({ r with selfPipe := r.selfPipe.drop w.selfRecv, selfBuffer := buffer },
    bodies.filterMap fun body ↦ (NetEnvelope.deserialize.run body).map Prod.fst)

/-! ## Expiry and shutdown -/

/-- A handshake that takes too long is given up. -/
def expireHandshaking (r : Router) : Router :=
  { r with handshaking := r.handshaking.filter fun entry ↦
      ¬ w.now - entry.startedAt > handshakeTimeout }

/-- The peers that were not heard from for too long. -/
def expiredPeers (r : Router) : List Bytes :=
  r.peers.toList.filterMap fun p ↦
    if w.now - p.2.lastSeen > peerTimeout then some p.1 else none

/-- `stop` drops every peer without telling anyone. -/
def stop (r : Router) : Router :=
  { r with
    peers := {}, handshaking := [], dialing := {}, selfPipe := [], selfBuffer := []
    meshPort := 0, discoveryPort := 0, running := false }

/-- `start`, with the ports the sockets got or `none` when one of them could not be had. -/
def start (r : Router) (ports : Option (UInt16 × UInt16)) : Bool × Router :=
  if r.running then (true, r)
  else if ¬ config.haveProfile then (false, r.stop)
  else match ports with
    | none => (false, r.stop)
    | some (discoveryPort, meshPort) =>
      (true, { r.stop with discoveryPort, meshPort, lastAdvertise := 0, running := true })

end Router
end EosMesh
