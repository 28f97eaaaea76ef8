import EosMesh.P2P.State

/-!
# The calls of the P2P interface

`interfaces/p2p.cpp`, call by call.  A call gives its result, the state after it and what it handed
to `send_p2p`, in order; what becomes of that is the mesh's business.  A null options pointer is
refused like an unsupported version, and has no other effect, so options are never null here.

A connection is one entry of a table, under the peer and the socket.  It opens when both sides
want it: the game asks by sending or by accepting, the peer by its request, or by a packet
that comes before we agreed.  Until then packets may be held for it (`sendOrHold`), and
`establish` lets them go.

* The game's side: `sendPacket`, `acceptConnection`, `closeConnection`, `closeConnections` and the
  calls on the queues, gathered in `Call` and `call`.  The checks of a call come first, in a
  definition of their own that gives the connection it is about or the result it fails with
  (`sendTarget`, `acceptTarget`, `closeTarget`, `closeConnectionsTarget`).
* The mesh's side: `onNetworkMessage`, and one handler for each kind of message.
* The queues: `flushPackets` drops what waits to be received, `discardDelayed` what waits to be
  sent, and `exceeds` is the one comparison with a limit.

`onNetworkMessage_envelope` ties the two sides: what one end sends is what the other end's handlers
see.  What a send that fails does to the call around it is in `P2P.Reentry`.
-/

set_option autoImplicit false

namespace EosMesh

open Lib
open Std (TreeMap)

namespace P2p

/-! ## Queues and notifications -/

/-- The local user a call names is ours: a null id is nobody's. -/
def isLocalUser (p : P2p) (user : Option Bytes) : Bool := user = some p.productUserId

/-- A notification for the game, which hears of it at the next frame. -/
def queueEvent (p : P2p) (type : EventKind) (key : ConnectionKey) (reason : ClosedReason) : P2p :=
  { p with
    pendingEvents := p.pendingEvents ++ [{ type, peer := key.peer, socket := key.socket, reason }] }

/-- An empty peer or socket means every one of them. -/
def flushPackets (p : P2p) (peer socket : Bytes) : P2p :=
  { p with
    receiveQueue := p.receiveQueue.filter fun packet ↦
      ¬ ((peer = [] ∨ packet.peer = peer) ∧ (socket = [] ∨ packet.socket.1 = socket)) }

/-- What is held to send is dropped, with the same reading of an empty peer or socket; the
connections stay as they are. -/
def discardDelayed (p : P2p) (peer socket : Bytes) : P2p :=
  { p with
    connections := p.connections.map fun key entry ↦
      if (peer = [] ∨ key.peer = peer) ∧ (socket = [] ∨ key.socket.1 = socket) then
        { state := entry.state, settled := fun _ ↦ rfl }
      else entry }

/-- What waits for the game to receive, in bytes: `get_packet_queue_info` reports it, and a limit is
held against it. -/
def incomingQueuedBytes (p : P2p) : Nat := (p.receiveQueue.map fun packet ↦
    packet.data.1.length).sum

/-- What is held for peers that have not agreed yet: the only outgoing queue we own. -/
def outgoingQueuedBytes (p : P2p) : Nat :=
  (p.connections.toList.map fun entry ↦
    (entry.2.delayed.map fun packet ↦ packet.data.1.length).sum).sum

/-- Would `arriving` more bytes on top of `held` pass the limit? -/
def exceeds (limit : UInt64) (held arriving : Nat) : Bool :=
  limit ≠ maxQueueSizeUnlimited ∧ held + arriving > limit.toNat

/-! ## Sending -/

/-- A struct older than the reliability field never asked us to drop anything. -/
def packetMustArrive (options : SendPacketOptions) : Bool :=
  options.apiVersion < sendPacketWithReliability ∨
    options.reliability ≠ .unreliableUnordered

/-- One of the three messages that only carry the socket. -/
def control (signal : Signal) (key : ConnectionKey) : Outgoing :=
  { signal, peer := key.peer, socket := key.socket }

/-- A packet as it goes to the peer of its connection. -/
def DelayedPacket.outgoing (packet : DelayedPacket) (key : ConnectionKey) : Outgoing where
  signal := .data
  peer := key.peer
  socket := key.socket
  channel := packet.channel
  data := packet.data
  reliable := packet.reliable

/-- What was held back goes out, in order. -/
def flushDelayed (key : ConnectionKey) (entry : Connection) : List Outgoing :=
  entry.delayed.map fun packet ↦ DelayedPacket.outgoing packet key

/-- The end of `send_packet`, once there is an entry: send, hold or drop the packet. -/
def sendOrHold (p : P2p) (key : ConnectionKey) (entry : Connection) (packet : DelayedPacket)
    (allowDelayed : Bool) : EResult × P2p × List Outgoing :=
  if h : entry.state = .connectionOpen then (.success, p, [DelayedPacket.outgoing packet key])
  else if ¬ allowDelayed then (.success, p, [])
  else if exceeds p.outgoingQueueMaxBytes p.outgoingQueuedBytes packet.data.1.length then
    (.limitExceeded, p, [])
  else
    let entry : Connection :=
      { state := entry.state, delayed := entry.delayed ++ [packet],
        settled := fun hopen ↦ (h hopen).elim }
    (.success, { p with connections := p.connections.insert key entry }, [])

/-- The game wants no connection opened for it; a struct older than the field never asked for that.
-/
def disablesAutoAccept (options : SendPacketOptions) : Bool :=
  options.apiVersion ≥ sendPacketWithDisableAutoAccept ∧
    options.bDisableAutoAcceptConnection = eosTrue

/-- The checks of `send_packet`: the connection it is about, and the packet. -/
def sendTarget (p : P2p) (options : SendPacketOptions) :
    Except EResult (ConnectionKey × DelayedPacket) :=
  match options.socketId.bind SocketId.valid? with
  | none => .error .invalidParameters
  | some socket =>
    if ¬ versionIsSupported options.apiVersion sendPacketApiLatest ∨
        (options.dataLengthBytes > 0 ∧ options.data = none) then .error .invalidParameters
    else match options.remoteUserId with
      | none => .error .invalidUser
      | some peer =>
        if ¬ p.isLocalUser options.localUserId then .error .invalidUser
        else if h : options.dataLengthBytes.toNat > maxPacketSize then .error .limitExceeded
        else
          let data := (options.data.getD []).take options.dataLengthBytes.toNat
          have hdata : data.length ≤ maxPacketSize :=
            (List.length_take_le _ _).trans (Nat.le_of_not_lt h)
          .ok ({ peer, socket }, {
            data := ⟨data, hdata⟩, channel := options.channel
            reliable := packetMustArrive options })

/-- `send_packet`: a packet to a peer we have no connection with opens one from our side, unless the
game said not to, and the request goes out before the packet that is waiting for its answer. -/
def sendPacket (p : P2p) (options : SendPacketOptions) : EResult × P2p × List Outgoing :=
  match p.sendTarget options with
  | .error result => (result, p, [])
  | .ok (key, packet) =>
    let allowDelayed : Bool := options.bAllowDelayedDelivery = eosTrue
    match p.connections[key]? with
    | some entry => p.sendOrHold key entry packet allowDelayed
    | none =>
      if disablesAutoAccept options then (.noConnection, p, [])
      else
        -- Auto-accept opens the connection from our side and asks the peer to agree.
        let entry : Connection := { state := .connectionPending }
        let p := { p with connections := p.connections.insert key entry }
        let (result, p, sends) := p.sendOrHold key entry packet allowDelayed
        (result, p, control .request key :: sends)

/-! ## Accepting and closing -/

/-- Both sides want the connection: it opens, and what waited for that goes out. -/
def establish (p : P2p) (key : ConnectionKey) (entry : Connection) : P2p × List Outgoing :=
  let opened : Connection := { state := .connectionOpen }
  ({ p with connections := p.connections.insert key opened }.queueEvent .established key .unknown,
    flushDelayed key entry)

/-- The checks of `accept_connection`, in their order: the connection it is about. -/
def acceptTarget (p : P2p) (options : AcceptConnectionOptions) : Except EResult ConnectionKey :=
  match options.socketId.bind SocketId.valid? with
  | none => .error .invalidParameters
  | some socket =>
    if ¬ versionIsSupported options.apiVersion acceptConnectionApiLatest then
      .error .invalidParameters
    else match options.remoteUserId with
      | none => .error .invalidUser
      | some peer =>
        if ¬ p.isLocalUser options.localUserId then .error .invalidUser else .ok { peer, socket }

/-- `accept_connection`: what the peer asked for opens at once, what we asked for is asked for
again, and without either it is a request of ours. -/
def acceptConnection (p : P2p) (options : AcceptConnectionOptions) :
    EResult × P2p × List Outgoing :=
  match p.acceptTarget options with
  | .error result => (result, p, [])
  | .ok key =>
    match p.connections[key]? with
    | none =>
      let entry : Connection := { state := .connectionPending }
      (.success, { p with connections := p.connections.insert key entry }, [control .request key])
    | some entry =>
      match entry.state with
      | .connectionOpen => (.success, p, [])
      | .connectionRequested =>
        let (p, sends) := p.establish key entry
        (.success, p, control .response key :: sends)
      | .connectionPending => (.success, p, [control .request key])

/-- The loop of both closing calls: every entry that `closes` goes, in order. -/
def closeAll (p : P2p) (closes : ConnectionKey → Bool) : P2p × List ConnectionKey :=
  let keys := p.connections.keys.filter closes
  let p := keys.foldl (fun p key ↦ p.queueEvent .closed key .closedByLocalUser) p
  ({ p with connections := p.connections.filter fun key _ ↦ ¬ closes key }, keys)

/-- The peer a `close_connection` is about, and the socket, or none for every socket we share. -/
def closeTarget (p : P2p) (options : CloseConnectionOptions) :
    Except EResult (Bytes × Option SocketName) :=
  let socket : Option (Option SocketName) :=
    match options.socketId with
    | none => some none
    | some socket => socket.valid?.map some
  match socket with
  | none => .error .invalidParameters
  | some socket =>
    if ¬ versionIsSupported options.apiVersion closeConnectionApiLatest then
      .error .invalidParameters
    else match options.remoteUserId with
      | none => .error .invalidUser
      | some peer =>
        if ¬ p.isLocalUser options.localUserId then .error .invalidUser else .ok (peer, socket)

/-- `close_connection`: the connections with one peer go, those of one socket or of all of them, and
each of them is closed towards the peer too. -/
def closeConnection (p : P2p) (options : CloseConnectionOptions) : EResult × P2p × List Outgoing :=
  match p.closeTarget options with
  | .error result => (result, p, [])
  | .ok (peer, socket) =>
    let (p, keys) := p.closeAll fun key ↦ key.peer = peer ∧ socket.all (key.socket = ·)
    -- Closing stops receiving, so anything already queued from the peer there is dropped.
    (.success, p.flushPackets peer ((socket.map Subtype.val).getD []), keys.map (control .close))

/-- The checks of `close_connections`, which names a socket and no peer. -/
def closeConnectionsTarget (p : P2p) (options : CloseConnectionsOptions) :
    Except EResult SocketName :=
  match options.socketId.bind SocketId.valid? with
  | none => .error .invalidParameters
  | some socket =>
    if ¬ versionIsSupported options.apiVersion closeConnectionsApiLatest then
      .error .invalidParameters
    else if ¬ p.isLocalUser options.localUserId then .error .invalidUser
    else .ok socket

/-- `close_connections`: every peer's connection on the socket goes. -/
def closeConnections (p : P2p) (options : CloseConnectionsOptions) :
    EResult × P2p × List Outgoing :=
  match p.closeConnectionsTarget options with
  | .error result => (result, p, [])
  | .ok socket =>
    let (p, keys) := p.closeAll fun key ↦ key.socket = socket
    (.success, keys.foldl (fun p key ↦ p.flushPackets key.peer socket.1) p,
      keys.map (control .close))

/-! ## The queues -/

/-- The first packet on the requested channel, and what is left without it. -/
def takePacket (requested : Option UInt8) :
    List ReceivedPacket → Option (ReceivedPacket × List ReceivedPacket)
  | [] => none
  | packet :: packets =>
    if requested.all (· = packet.channel) then some (packet, packets)
    else (takePacket requested packets).map fun (found, left) ↦ (found, packet :: left)

/-- `receive_packet`: the oldest packet of the requested channel, or of any, cut to the buffer of
the game.  It leaves the queue whole, whatever the game could take of it. -/
def receivePacket (p : P2p) (options : ReceivePacketOptions) :
    EResult × P2p × Option (ReceivedPacket × Bytes) :=
  if ¬ versionIsSupported options.apiVersion receivePacketApiLatest then
    (.invalidParameters, p, none)
  else if ¬ p.isLocalUser options.localUserId then (.invalidUser, p, none)
  else
    let requested :=
      if options.apiVersion ≥ receivePacketWithRequestedChannel then options.requestedChannel
      else none
    match takePacket requested p.receiveQueue with
    | none => (.notFound, p, none)
    | some (packet, left) =>
      (.success, { p with receiveQueue := left },
        some (packet, packet.data.1.take options.maxDataSizeBytes.toNat))

/-- `set_packet_queue_size`: the limits count from the next packet on, and drop nothing that is
queued. -/
def setPacketQueueSize (p : P2p) (options : SetPacketQueueSizeOptions) : EResult × P2p :=
  if ¬ versionIsSupported options.apiVersion setPacketQueueSizeApiLatest then
    (.invalidParameters, p)
  else
    (.success,
      { p with
        incomingQueueMaxBytes := options.incomingPacketQueueMaxSizeBytes
        outgoingQueueMaxBytes := options.outgoingPacketQueueMaxSizeBytes })

/-- Both queues go: the packets held for the game to receive, and the ones held to send. -/
def clearPacketQueue (p : P2p) (options : ClearPacketQueueOptions) : EResult × P2p :=
  if ¬ versionIsSupported options.apiVersion clearPacketQueueApiLatest then
    (.incompatibleVersion, p)
  else if ¬ p.isLocalUser options.localUserId then (.invalidUser, p)
  else
    let peer := options.remoteUserId.getD []
    let socket := (options.socketId.map socketNameOf).getD []
    (.success, (p.flushPackets peer socket).discardDelayed peer socket)

/-- `cb_run_frame`: the notifications fire, and what the game calls from inside them are calls of
their own. -/
def cbRunFrame (p : P2p) : P2p := { p with pendingEvents := [], overflows := [] }

/-- A call the game makes. -/
inductive Call
  | sendPacket (options : SendPacketOptions)
  | acceptConnection (options : AcceptConnectionOptions)
  | closeConnection (options : CloseConnectionOptions)
  | closeConnections (options : CloseConnectionsOptions)
  | receivePacket (options : ReceivePacketOptions)
  | setPacketQueueSize (options : SetPacketQueueSizeOptions)
  | clearPacketQueue (options : ClearPacketQueueOptions)
  | runFrame
  deriving DecidableEq, Repr

/-- The state after a call, and what it sent. -/
def call (p : P2p) : Call → P2p × List Outgoing
  | .sendPacket options => (p.sendPacket options).2
  | .acceptConnection options => (p.acceptConnection options).2
  | .closeConnection options => (p.closeConnection options).2
  | .closeConnections options => (p.closeConnections options).2
  | .receivePacket options => ((p.receivePacket options).2.1, [])
  | .setPacketQueueSize options => ((p.setPacketQueueSize options).2, [])
  | .clearPacketQueue options => ((p.clearPacketQueue options).2, [])
  | .runFrame => (p.cbRunFrame, [])

/-! ## What arrives -/

/-- A peer that went away takes its connections with it. -/
def onPeerDisconnected (p : P2p) (peer : Bytes) : P2p :=
  let keys := p.connections.keys.filter fun key ↦ key.peer = peer
  let p := keys.foldl (fun p key ↦ p.queueEvent .interrupted key .unknown) p
  ({ p with connections := p.connections.filter fun key _ ↦ key.peer ≠ peer }).flushPackets peer []

/-- The peer asks, in so many words or by sending before we agreed. -/
def onAsked (p : P2p) (key : ConnectionKey) : P2p :=
  let entry : Connection := { state := .connectionRequested }
  { p with connections := p.connections.insert key entry }.queueEvent .request key .unknown

/-- A packet of the peer.  Before there is a connection it counts as a request, on one that is not
open it is dropped, and past the limit it is dropped and the game is told. -/
def onData (p : P2p) (key : ConnectionKey) (channel : Int32) (data : Bytes) : P2p :=
  if channel < 0 ∨ channel > maxChannel then p
  else if h : data.length ≤ maxPacketSize then
    match p.connections[key]? with
    | none => p.onAsked key
    | some entry =>
      if entry.state ≠ .connectionOpen then p
      else if exceeds p.incomingQueueMaxBytes p.incomingQueuedBytes data.length then
        { p with
          overflows := p.overflows ++ [{
            channel := UInt8.ofNat channel.toInt.toNat, sizeBytes := data.length
            queueSizeBytes := p.incomingQueuedBytes, queueMaxBytes := p.incomingQueueMaxBytes }] }
      else
        { p with
          receiveQueue := p.receiveQueue ++ [{
            peer := key.peer, socket := key.socket, channel := UInt8.ofNat channel.toInt.toNat
            data := ⟨data, h⟩ }] }
  else p

/-- The peer asks for a connection.  One that we had asked for ourselves opens, and one that is open
is answered again, since the first answer may be lost. -/
def onConnectRequest (p : P2p) (key : ConnectionKey) : P2p × List Outgoing :=
  match p.connections[key]? with
  | none => (p.onAsked key, [])
  | some entry =>
    match entry.state with
    | .connectionRequested => (p, [])
    | .connectionPending =>
      let (p, sends) := p.establish key entry
      (p, control .response key :: sends)
    | .connectionOpen => (p, [control .response key])

/-- The peer agrees.  It only opens what we asked for. -/
def onConnectResponse (p : P2p) (key : ConnectionKey) : P2p × List Outgoing :=
  match p.connections[key]? with
  | none => (p, [])
  | some entry =>
    -- An unsolicited response opens nothing.
    if entry.state = .connectionPending then p.establish key entry else (p, [])

/-- The peer closes: the connection goes, with the packets of it that the game has not received. -/
def onConnectionClose (p : P2p) (key : ConnectionKey) : P2p :=
  match p.connections[key]? with
  | none => p
  | some _ =>
    (({ p with connections := p.connections.erase key }).flushPackets key.peer
      key.socket.1).queueEvent
      .closed key .closedByPeer

/-- A message of the mesh, as it comes.  One that was not addressed to us, that is not read, or
whose socket name is not valid does nothing. -/
def onNetworkMessage (p : P2p) (message : NetEnvelope) : P2p × List Outgoing :=
  if message.typeTag = MessageType.peerDisconnected.tag then
    (p.onPeerDisconnected message.sourceId, [])
  else if message.typeTag = MessageType.peerConnected.tag then (p, [])
  else if message.sourceId = [] ∨ message.sourceId = p.productUserId then (p, [])
  else if message.destId ≠ [] ∧ message.destId ≠ p.productUserId then (p, [])
  else match P2pData.deserialize.run message.payload with
    | none => (p, [])
    | some (payload, _) =>
      match SocketName.of? payload.socketName with
      | none => (p, [])
      | some socket =>
        let key : ConnectionKey := { peer := message.sourceId, socket }
        if message.typeTag = MessageType.p2pData.tag then
          (p.onData key payload.channel payload.data, [])
        else if message.typeTag = MessageType.p2pConnectRequest.tag then p.onConnectRequest key
        else if message.typeTag = MessageType.p2pConnectResponse.tag then p.onConnectResponse key
        else if message.typeTag = MessageType.p2pConnectionClose.tag then
          (p.onConnectionClose key, [])
        else (p, [])

/-! ## From one end to the other -/

/-- `send_p2p`: what a message travels as. -/
def payload (o : Outgoing) : P2pData where
  socketName := o.socket.1
  channel := Int32.ofNat o.channel.toNat
  data := o.data.1

/-- `send_p2p` again: whom a message goes to, and under which tag. -/
def envelope (p : P2p) (o : Outgoing) : NetEnvelope where
  typeTag := o.signal.type.tag
  sourceId := p.productUserId
  destId := o.peer
  gameId := p.productId
  payload := (payload o).serialize

/-- What the other end's handlers see of a message. -/
def onSignal (p : P2p) (key : ConnectionKey) (o : Outgoing) : P2p × List Outgoing :=
  match o.signal with
  | .data => (p.onData key (Int32.ofNat o.channel.toNat) o.data.1, [])
  | .request => p.onConnectRequest key
  | .response => p.onConnectResponse key
  | .close => (p.onConnectionClose key, [])

theorem socketName_length (socket : SocketName) : socket.1.length < 2 ^ 64 := by
  have hvalid := socket.2
  rw [socketNameIsValid, decide_eq_true_eq] at hvalid
  exact lt_of_le_of_lt hvalid.2.1 (by rw [socketNameSize]; omega)

/-- **A message between two instances reaches the handler of its kind**, with the socket, the
channel and the data it was sent with. -/
theorem onNetworkMessage_envelope {p q : P2p} {o : Outgoing} (hsome : p.productUserId ≠ [])
    (hother : p.productUserId ≠ q.productUserId) (hdest : o.peer = q.productUserId) :
    q.onNetworkMessage (p.envelope o) =
      q.onSignal { peer := p.productUserId, socket := o.socket } o := by
  have hrun : P2pData.deserialize.run (p.envelope o).payload = some (payload o, []) := by
    have hdata : (payload o).data.length < 2 ^ 64 :=
      lt_of_le_of_lt o.data.2 (by rw [maxPacketSize]; omega)
    have hdecodes : Decodes P2pData.deserialize (payload o).serialize (payload o) :=
      P2pData.decodes (socketName_length o.socket) hdata
    rw [← List.append_nil (p.envelope o).payload]
    exact hdecodes []
  have hname : SocketName.of? (payload o).socketName = some o.socket := by
    rw [SocketName.of?]
    exact dif_pos o.socket.2
  have hsource : ¬ ((p.envelope o).sourceId = [] ∨ (p.envelope o).sourceId = q.productUserId) :=
    fun h ↦ h.elim hsome hother
  have hdest' : ¬ ((p.envelope o).destId ≠ [] ∧ (p.envelope o).destId ≠ q.productUserId) :=
    fun h ↦ h.2 hdest
  rw [onNetworkMessage, if_neg, if_neg, if_neg hsource, if_neg hdest', hrun]
  · dsimp only
    rw [hname]
    dsimp only
    obtain ⟨signal, peer, socket, channel, data, reliable⟩ := o
    cases signal <;> rfl
  · obtain ⟨signal, peer, socket, channel, data, reliable⟩ := o
    cases signal <;> simp only [envelope, Signal.type] <;> decide
  · obtain ⟨signal, peer, socket, channel, data, reliable⟩ := o
    cases signal <;> simp only [envelope, Signal.type] <;> decide

end P2p
end EosMesh
