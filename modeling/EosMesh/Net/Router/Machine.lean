import EosMesh.Net.Router.Operations

/-!
# The router as a machine

Dispatching a message calls every listener of its type, a listener may send from inside its
callback, and a send that fails drops a peer and dispatches that too, before it returns.  So the
state of a run is more than the tables: it is the tables and what is still to be done, innermost
call first.

* `Call` is a call under way, `Phase` what remains of `cb_run_frame`, and `Machine` the tables with
  both and with the trace of what happened.
* `Input` is what may happen next: the game ticks, starts or stops the router, or registers a
  listener; the innermost call or phase goes on; a listener that is running calls the router, or
  returns.  What a listener does is not constrained, except that it does not tick, start or stop the
  router: that is the game's to do, between ticks.
* `step` executes one input, `none` when it cannot happen there.

The trace is newest first.  An `Origin` says where a dispatched envelope came from; no code reads
it.
-/

set_option autoImplicit false

namespace EosMesh

open Lib Std

/-! ## What is observed -/

/-- Where a dispatched envelope came from. -/
inductive Origin
  /-- Raised by `adopt_peer`, for a connection that proved `key`. -/
  | adoption (key : Bytes)
  /-- Raised by `drop_peer`. -/
  | removal
  /-- Decoded from `plain`, which the channel of a peer that proved `key` opened. -/
  | stream (key plain : Bytes)
  /-- The datagram whose body `plain` the channel of a peer that proved `key` opened. -/
  | datagram (key plain : Bytes)
  /-- Decoded from the loopback. -/
  | self
  deriving DecidableEq, Repr

/-- Raised by the router itself, rather than received. -/
def Origin.isRaised : Origin → Bool
  | adoption _ | removal => true
  | stream .. | datagram .. | self => false

/-- What a run has done, as far as a claim about it needs to know. -/
inductive Event
  /-- A connection became peer `id`: the key it proved, the id it was dialled for if any, and the
  key its frames will open under. -/
  | adopted (id key expectedId recvKey : Bytes)
  | removed (id : Bytes) (reason : DropReason)
  /-- A frame on the stream of peer `id`, which proved `key`, opened to `plain`. -/
  | opened (id key plain : Bytes)
  /-- A frame on the stream of peer `id` was refused. -/
  | failed (id : Bytes)
  | openedDatagram (id key plain : Bytes)
  | dispatched (msg : NetEnvelope) (origin : Origin)
  | delivered (listener : Listener) (msg : NetEnvelope) (origin : Origin)
  deriving DecidableEq, Repr

/-- The envelope an event is about, if it is about one. -/
def Event.envelopes : Event → List (NetEnvelope × Origin)
  | .dispatched msg origin => [(msg, origin)]
  | .delivered _ msg origin => [(msg, origin)]
  | _ => []

/-! ## What is under way -/

/-- A call that has not returned, or that is still to be made. -/
inductive Call
  | dropPeer (id : Bytes) (reason : DropReason)
  | announceTo (id : Bytes)
  /-- `dispatch_peer_event(peer_connected, id)`, for a connection that proved `key`. -/
  | raiseConnected (id key : Bytes)
  | raiseDisconnected (id : Bytes)
  /-- The rest of `dispatch`: the listeners of the snapshot that are still to be called. -/
  | deliver (msg : NetEnvelope) (origin : Origin) (listeners : List Listener)
  /-- A listener inside `on_network_message`. -/
  | listening (listener : Listener)
  /-- The rest of `drain_peers` once the dead are dropped: the loopback, then the queue. -/
  | drainSelf (messages : List (NetEnvelope × Origin))
  | dispatchAll (messages : List (NetEnvelope × Origin))
  deriving DecidableEq, Repr

/-- The envelopes a call still holds. -/
def Call.envelopes : Call → List (NetEnvelope × Origin)
  | .deliver msg origin _ => [(msg, origin)]
  | .drainSelf messages => messages
  | .dispatchAll messages => messages
  | _ => []

/-- The envelopes a call has still to hand to a listener. -/
def Call.waiting : Call → List (NetEnvelope × Origin)
  | .deliver _ _ [] => []
  | .deliver msg origin (_ :: _) => [(msg, origin)]
  | .drainSelf messages => messages
  | .dispatchAll messages => messages
  | _ => []

/-- A step of `cb_run_frame`. -/
inductive Phase
  | advertise
  | acceptPeers
  | finishDialing
  | drainDatagrams
  /-- `i` is the index the loop stands at. -/
  | drainHandshaking (i : Nat)
  | drainPeers
  | expireHandshaking
  | expirePeers
  deriving DecidableEq, Repr

/-- The phases of a frame, in their order. -/
def runFrame : List Phase :=
  [.advertise, .acceptPeers, .finishDialing, .drainDatagrams, .drainHandshaking 0, .drainPeers,
    .expireHandshaking, .expirePeers]

/-- The router with the calls under way, the innermost first, and what is left of the frame. -/
structure Machine where
  router : Router := {}
  calls : List Call := []
  phases : List Phase := []
  trace : List Event := []

/-- Between ticks. -/
def Machine.Idle (m : Machine) : Prop := m.calls = [] ∧ m.phases = []

instance (m : Machine) : Decidable m.Idle := inferInstanceAs (Decidable (_ ∧ _))

/-! ## What may happen -/

/-- A call into the router from outside it. -/
inductive Action
  | send (msg : NetEnvelope)
  | sendToSelf (msg : NetEnvelope)
  | sendDatagram (id payload : Bytes)
  | registerListener (tag : UInt16) (listener : Listener)
  | unregisterListener (tag : UInt16) (listener : Listener)
  deriving DecidableEq, Repr

/-- What may happen to the router, one thing at a time. -/
inductive Input
  | start (ports : Option (UInt16 × UInt16))
  | stop
  | tick
  /-- The innermost call, or else the next phase, goes on. -/
  | run (w : World)
  /-- Whoever has control calls the router: a running listener, or the game between ticks. -/
  | act (w : World) (action : Action)
  /-- The running listener returns. -/
  | ret

namespace Machine

variable (crypto : Crypto) (config : Config)

/-! ## Dispatching -/

/-- `dispatch`, from where it looks its listeners up. -/
def dispatch (m : Machine) (msg : NetEnvelope) (origin : Origin) : Machine :=
  { m with
    calls := .deliver msg origin (m.router.listenersOf msg.typeTag) :: m.calls
    trace := .dispatched msg origin :: m.trace }

/-- The envelope of a lifecycle event, carrying the epic account id of the peer if we have one. -/
def peerEvent (r : Router) (type : MessageType) (peerId : Bytes) : NetEnvelope where
  typeTag := type.tag
  sourceId := peerId
  gameId := config.gameId
  payload := r.peerEpicId peerId

/-- Make the calls that drop `ids`, innermost first. -/
def pushDrops (m : Machine) (ids : List Bytes) (reason : DropReason) : Machine :=
  { m with calls := ids.map (.dropPeer · reason) ++ m.calls }

/-- Send on behalf of whoever has control, dropping the peers the send could not reach. -/
def sendEnvelope (w : World) (m : Machine) (msg : NetEnvelope) : Machine :=
  let (_, router, dead) := m.router.send crypto w msg
  pushDrops { m with router } dead .sendFailed

/-! ## The innermost call -/

/-- One step of the call at the front, the others being `calls`. -/
def runCall (w : World) (m : Machine) (calls : List Call) : Call → Option Machine
  | .dropPeer id reason =>
    if m.router.peers.contains id then
      some { m with
        router := { m.router with peers := m.router.peers.erase id }
        calls := .raiseDisconnected id :: calls
        trace := .removed id reason :: m.trace }
    else some { m with calls }
  | .announceTo id =>
    some (sendEnvelope crypto w { m with calls }
      { m.router.selfAdvertisement config with destId := id })
  | .raiseConnected id key =>
    some (dispatch { m with calls } (peerEvent config m.router .peerConnected id) (.adoption key))
  | .raiseDisconnected id =>
    some (dispatch { m with calls } (peerEvent config m.router .peerDisconnected id) .removal)
  | .deliver _ _ [] => some { m with calls }
  | .deliver msg origin (listener :: listeners) =>
    some { m with
      calls := .listening listener :: .deliver msg origin listeners :: calls
      trace := .delivered listener msg origin :: m.trace }
  -- A listener goes on by calling the router or by returning.
  | .listening _ => none
  | .drainSelf messages =>
    let (router, own) := m.router.readSelf w
    some { m with router, calls := .dispatchAll (messages ++ own.map (·, .self)) :: calls }
  | .dispatchAll [] => some { m with calls }
  | .dispatchAll ((msg, origin) :: messages) =>
    some (dispatch { m with calls := .dispatchAll messages :: calls } msg origin)

/-! ## The next phase -/

/-- Our announcement, in the clear to every slot and sealed to every peer; the first of the two
changes nothing here. -/
def runAdvertise (w : World) (m : Machine) : Machine :=
  if w.now - m.router.lastAdvertise < advertiseInterval then m
  else
    let m := { m with router := { m.router with lastAdvertise := w.now } }
    sendEnvelope crypto w m (m.router.selfAdvertisement config)

/-- One datagram, if there is one: `phases` is what remains once there is none. -/
def runDatagrams (w : World) (m : Machine) (phases : List Phase) : Machine :=
  match w.datagram with
  | none => { m with phases }
  | some (data, source) =>
    match data with
    | [] => m
    | kind :: body =>
      if kind = 2 then
        match m.router.openDatagram crypto config w data with
        | none => m
        | some (id, entry, plain) =>
          let router := { m.router with
            peers := m.router.peers.insert id entry
            datagramsReceived := m.router.datagramsReceived + 1 }
          dispatch
            { m with
              router
              trace := .openedDatagram id entry.channel.remoteStatic plain :: m.trace }
            (Router.datagramEnvelope config id plain)
            (.datagram entry.channel.remoteStatic plain)
      else if kind = 1 then
        match NetEnvelope.deserialize.run body with
        | none => m
        | some (msg, _) =>
          if msg.typeTag = MessageType.netAdvertise.tag then
            { m with router := m.router.handleAdvertise config w msg source }
          else m
      else m

/-- One connection of `drain_handshaking`; the phase ends when the index runs off the list. -/
def runHandshaking (w : World) (m : Machine) (phases : List Phase) (i : Nat) : Machine :=
  match m.router.handshaking[i]? with
  | none => { m with phases }
  | some entry =>
    match Router.shakeOne crypto config w entry with
    | .lost =>
      { m with
        router := { m.router with handshaking := m.router.handshaking.eraseIdx i }
        phases := .drainHandshaking i :: phases }
    | .shaking entry =>
      { m with
        router := { m.router with handshaking := m.router.handshaking.set i entry }
        phases := .drainHandshaking (i + 1) :: phases }
    | .proved id entry =>
      let m := { m with
        router := { m.router with handshaking := m.router.handshaking.eraseIdx i }
        phases := .drainHandshaking i :: phases }
      if m.router.adoptable config id then
        { m with
          router := m.router.adopt crypto w id entry
          calls := .announceTo id :: .raiseConnected id entry.channel.remoteStatic :: m.calls
          trace := .adopted id entry.channel.remoteStatic entry.expectedId
            entry.channel.recv.key :: m.trace }
      else m

/-- Was it a frame of the peer's that ended the connection? -/
def DropReason.isFrame : DropReason → Bool
  | .frameTooLarge | .authenticationFailed => true
  | _ => false

/-- The trace of one peer's drain, newest first. -/
def drainEvents (id key : Bytes) (drained : Router.Drained) : List Event :=
  let opened := drained.plains.reverse.map (.opened id key ·)
  if drained.dead.any DropReason.isFrame then .failed id :: opened else opened

/-- The whole pass over the peers' streams: nothing is called until it is over. -/
def runDrainPeers (w : World) (m : Machine) : Machine :=
  let drained := m.router.peers.toList.map fun (id, entry) ↦
    (id, entry.channel.remoteStatic, Router.drainPeer crypto config w id entry)
  let dead := drained.filterMap fun (id, _, d) ↦ d.dead.map fun reason ↦ Call.dropPeer id reason
  let messages := drained.flatMap fun (_, key, d) ↦
    d.messages.map fun (msg, plain) ↦ (msg, Origin.stream key plain)
  { m with
    router := { m.router with
      peers := m.router.peers.map fun id entry ↦ (Router.drainPeer crypto config w id entry).entry }
    calls := dead ++ .drainSelf messages :: m.calls
    trace := (drained.map fun (id, key, d) ↦ drainEvents id key d).reverse.flatten ++ m.trace }

/-- One phase of the frame. -/
def runPhase (w : World) (m : Machine) (phases : List Phase) : Phase → Machine
  | .advertise => runAdvertise crypto config w { m with phases }
  | .acceptPeers => { m with router := m.router.acceptPeers crypto config w, phases }
  | .finishDialing => { m with router := m.router.finishDialing crypto config w, phases }
  | .drainDatagrams => runDatagrams crypto config w m phases
  | .drainHandshaking i => runHandshaking crypto config w m phases i
  | .drainPeers => runDrainPeers crypto config w { m with phases }
  | .expireHandshaking => { m with router := m.router.expireHandshaking w, phases }
  | .expirePeers => pushDrops { m with phases } (m.router.expiredPeers w) .timeout

/-! ## One input -/

/-- What a listener may do while it is being told. -/
def runAction (w : World) (m : Machine) : Action → Machine
  | .send msg => sendEnvelope crypto w m msg
  | .sendToSelf msg => { m with router := (m.router.sendToSelf w msg).2 }
  | .sendDatagram id payload =>
    { m with router := (m.router.sendDatagram crypto config w id payload).2 }
  | .registerListener tag listener =>
    { m with router := m.router.registerListener tag listener }
  | .unregisterListener tag listener =>
    { m with router := m.router.unregisterListener tag listener }

/-- Is control outside the router: with a running listener, or with the game? -/
def outside (m : Machine) : Bool :=
  match m.calls, m.phases with
  | .listening _ :: _, _ => true
  | [], [] => true
  | _, _ => false

/-- One thing that happens.  Between two of them the router is not looked at. -/
def step (m : Machine) : Input → Option Machine
  | .start ports =>
    if m.Idle then some { m with router := (m.router.start config ports).2 } else none
  | .stop =>
    if m.Idle then
      some { m with
        router := m.router.stop
        trace := (m.router.peerIds.map (.removed · .localShutdown)).reverse ++ m.trace }
    else none
  | .tick =>
    if m.Idle then some (if m.router.running then { m with phases := runFrame } else m) else none
  | .run w =>
    match m.calls, m.phases with
    | call :: calls, _ => runCall crypto config w m calls call
    | [], phase :: phases => some (runPhase crypto config w m phases phase)
    | [], [] => none
  | .act w action => if m.outside then some (runAction crypto config w m action) else none
  | .ret =>
    match m.calls with
    | .listening _ :: calls => some { m with calls }
    | _ => none

end Machine

/-! ## A peer to evaluate with

Another instance of the same title, over the stand-in primitives: it dials us, completes the
handshake and seals what it is given, all with the code above. -/

namespace Sample

/-- A router of the player with this key. -/
def config (key : Bytes) : Config :=
  Config.setIdentity checksumCrypto true key key (ascii "game") [] []

/-- The key of player `n`. -/
def key (n : UInt8) : Bytes := n :: zeros 31

/-- We are player one. -/
def us : Config := config (key 1)

/-- Our randomness, and the peers'. -/
def ephemeral : Bytes := List.replicate 32 7

/-- Both handshake messages of a peer that dials us, framed, and its channel once it is through. -/
def dial (key : Bytes) : Option (Bytes × PeerChannel) := do
  let them := config key
  let dialer := PeerChannel.init checksumCrypto true them.staticPriv them.staticPub them.prologue
  let accepter := PeerChannel.init checksumCrypto false us.staticPriv us.staticPub us.prologue
  let (hello, dialer) ← dialer.openHandshake checksumCrypto (some ephemeral)
  match accepter.readHandshake checksumCrypto (some ephemeral) hello with
  | .stepContinue reply _ =>
    match dialer.readHandshake checksumCrypto none reply with
    | .stepDone proof dialer => some (frameMessage hello ++ frameMessage proof, dialer)
    | _ => none
  | _ => none

/-- Envelopes sealed one after the other. -/
def sealAll : PeerChannel → List NetEnvelope → Bytes
  | _, [] => []
  | channel, msg :: msgs =>
    match sealFrame checksumCrypto channel msg.serialize with
    | none => []
    | some (framed, channel) => framed ++ sealAll channel msgs

/-- The sealed frames of a peer that dials us and then sends `msgs`. -/
def frames (key : Bytes) (msgs : List NetEnvelope) : Bytes :=
  match dial key with
  | none => []
  | some (_, channel) => sealAll channel msgs

/-- All the bytes of that peer. -/
def stream (key : Bytes) (msgs : List NetEnvelope) : Bytes :=
  match dial key with
  | none => []
  | some (handshake, _) => handshake ++ frames key msgs

/-- Nothing arrives. -/
def quiet : World := { random := fun _ ↦ some ephemeral }

/-- A connection arrives on socket one. -/
def accepting : World :=
  { quiet with accepts := [(1, { ip := 1, port := 1 }, true)] }

/-- Bytes arrive on socket one. -/
def receiving (bytes : Bytes) : World :=
  { quiet with recv := fun handle ↦ if handle = 1 then (bytes, .alive) else ([], .alive) }

/-- Socket one takes nothing any more. -/
def refusing : World :=
  { quiet with sends := fun handle ↦ if handle = 1 then [.error] else [] }

/-- The last bytes of socket one, and then its end. -/
def hangingUp (bytes : Bytes) : World :=
  { quiet with recv := fun handle ↦ if handle = 1 then (bytes, .closed) else ([], .alive) }

/-- A tick begins in which a connection arrives and its bytes are read; it stands where the
connection has been adopted, if it was. -/
def adopting (bytes : Bytes) : List Input :=
  [.tick, .run quiet, .run accepting, .run quiet, .run quiet, .run (receiving bytes)]

/-- The router starts, listener zero registers for `tags`, and then that tick. -/
def untilAdopted (tags : List UInt16) (bytes : Bytes) : List Input :=
  .start (some (55789, 40000)) :: tags.map (fun tag ↦ .act quiet (.registerListener tag 0)) ++
    adopting bytes

end Sample
end EosMesh
