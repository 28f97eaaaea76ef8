import EosMesh.Lib.Pipe
import EosMesh.Net.Handshake
import EosMesh.Net.Router.Outbox

/-!
# The two ends of a connection

One router dials another, and from then on each works its own end of the connection: it shakes
hands, is adopted as a peer, and then seals envelopes onto the stream and opens what arrives.  Here
the two ends are put together over the bytes between them.

* `Station` is one end: its entry in the router's tables, the bytes its socket took which nobody has
  read yet, the envelopes that went into its outbox and those that were handed on from the stream.
* `shakeTaken`, `drainTaken` and `sendTaken` are the bytes that a socket takes in a turn or in
  a send.
* `Link.step` lets either end take its turn, with any part of what is on the wire to read and with a
  socket that takes, blocks or fails as it likes; send; use the datagrams; or lose the connection.
-/

set_option autoImplicit false

namespace EosMesh

open Lib

/-! ## Two installations of one game -/

/-- The static keys of the end that dials and of the other, and the title they both run. -/
structure Parties where
  secret : Bool → Bytes
  productId : Bytes
  sandboxId : Bytes
  deploymentId : Bytes
  deriving DecidableEq

/-- What the router of an end is configured with. -/
def Parties.config (crypto : Crypto) (p : Parties) (x : Bool) : Config :=
  Config.setIdentity crypto true (p.secret x) (crypto.x25519PublicKey (p.secret x)) p.productId
    p.sandboxId p.deploymentId

/-- The outside, where every read finds the same bytes. -/
def World.reading (w : World) (bytes : Bytes) (health : StreamHealth) : World :=
  { w with recv := fun _ ↦ (bytes, health) }

/-! ## What a turn does to the bytes -/

namespace Router

/-- What an envelope of peer `id` is handed on as: under the id of the key that opened it, unless it
is an announcement, or meant for somebody else. -/
def delivery (config : Config) (id : Bytes) (msg : NetEnvelope) : Option NetEnvelope :=
  let msg := { msg with sourceId := id }
  if msg.typeTag = MessageType.netAdvertise.tag then none
  else if acceptInbound config msg then some msg
  else none

variable (crypto : Crypto) (w : World)

/-- The bytes that go out when a reply is queued (`pushReply`). -/
def replyTaken (sends : List SendResult) (outbox reply : Bytes) : Bytes :=
  if reply = [] then [] else flushTaken sends (outbox ++ frameMessage reply)

/-- The bytes of the opening message that go out at once (`startHandshake`). -/
def dialTaken (config : Config) (dialing : DialingPeer) : Bytes :=
  match (PeerChannel.init crypto true config.staticPriv config.staticPub
      config.prologue).openHandshake crypto (w.random dialing.connection) with
  | some (opening, _) => flushTaken (w.sends dialing.connection) (frameMessage opening)
  | none => []

/-- The bytes that go out while the messages in the buffer are answered (`shakeLoop`). -/
def shakeLoopTaken : Nat → List SendResult → HandshakingPeer → Bytes
  | 0, _, _ => []
  | fuel + 1, sends, entry =>
    if entry.channel.established then []
    else match takeFrame entry.buffer with
      | .refused => []
      | .none => []
      | .ready message rest =>
        match entry.channel.readHandshake crypto (w.random entry.connection) message with
        | .stepFailed => []
        | .stepContinue reply channel =>
          replyTaken sends entry.outbox reply ++
            match pushReply sends { entry with buffer := rest, channel } reply with
            | (true, entry, sends) => shakeLoopTaken fuel sends entry
            | (false, _, _) => []
        | .stepDone reply channel =>
          replyTaken sends entry.outbox reply ++
            match pushReply sends { entry with buffer := rest, channel } reply with
            | (true, entry, sends) => shakeLoopTaken fuel sends entry
            | (false, _, _) => []

/-- The bytes that go out in one pass over a handshaking connection (`shakeOne`). -/
def shakeTaken (entry : HandshakingPeer) : Bytes :=
  flushTaken (w.sends entry.connection) entry.outbox ++
    match flushOutbox (w.sends entry.connection) entry.outbox with
    | (false, _, _) => []
    | (true, outbox, sends) =>
      let buffer := entry.buffer ++ (w.recv entry.connection).1
      shakeLoopTaken crypto w buffer.length sends { entry with outbox, buffer }

/-- The bytes that go out in a peer's turn (`drainPeer`). -/
def drainTaken (entry : Peer) : Bytes :=
  if (openArrived crypto w entry).broken.isSome ∨ (w.recv entry.connection).2 = .closed then []
  else flushTaken (w.sends entry.connection) entry.outbox

/-- The frame that a send puts into the outbox (`sendFrame`), when it fits. -/
def sendFits (entry : Peer) (plain : Bytes) : Option Bytes :=
  match sealFrame crypto entry.channel plain with
  | none => none
  | some (framed, _) =>
    if entry.outbox.length + framed.length > maxOutboxBytes then none else some framed

/-- The bytes that go out in a send. -/
def sendTaken (entry : Peer) (plain : Bytes) : Bytes :=
  match sendFits crypto entry plain with
  | none => []
  | some framed => flushTaken (w.sends entry.connection) (entry.outbox ++ framed)

end Router

/-! ## One end -/

/-- Where a router keeps its end of the connection. -/
inductive LinkEnd
  | shaking (entry : HandshakingPeer)
  | peer (id : Bytes) (entry : Peer)
  | gone
  deriving DecidableEq, Repr

namespace LinkEnd

/-- What an end still has to send. -/
def outbox : LinkEnd → Bytes
  | shaking entry => entry.outbox
  | peer _ entry => entry.outbox
  | gone => []

/-- What an end has read and not taken up. -/
def buffer : LinkEnd → Bytes
  | shaking entry => entry.buffer
  | peer _ entry => entry.buffer
  | gone => []

/-- Where a pass over a handshaking connection leaves it.  The router's tables decide whether a
proven id can be adopted. -/
def ofShake (crypto : Crypto) (config : Config) (w : World) (r : Router) :
    Router.ShakeOutcome → LinkEnd
  | .lost => gone
  | .shaking entry => shaking entry
  | .proved id entry =>
    if r.adoptable config id then peer id (Router.adoptedPeer crypto w entry) else gone

end LinkEnd

/-- One end of a connection. -/
structure Station where
  state : LinkEnd
  /-- What the socket took and the other end has not read. -/
  wire : Bytes := []
  /-- The envelopes that were put into the outbox, and those handed on from the stream. -/
  queued : List NetEnvelope := []
  heard : List NetEnvelope := []
  deriving DecidableEq, Repr

namespace Station

variable (crypto : Crypto) (config : Config) (w : World) (st : Station)

/-- A turn in `drain_handshaking_peers`. -/
def shakes (r : Router) (entry : HandshakingPeer) : Station :=
  { st with
    wire := st.wire ++ Router.shakeTaken crypto w entry
    state := .ofShake crypto config w r (Router.shakeOne crypto config w entry) }

/-- A turn in `drain_peers`. -/
def drains (id : Bytes) (entry : Peer) : Station :=
  let drained := Router.drainPeer crypto config w id entry
  { st with
    wire := st.wire ++ Router.drainTaken crypto w entry
    state := if drained.dead.isSome then .gone else .peer id drained.entry
    heard := st.heard ++ drained.messages.map Prod.fst }

/-- An envelope is sent; a peer that cannot be sent to is dropped. -/
def sends (id : Bytes) (entry : Peer) (msg : NetEnvelope) : Station :=
  let sent := sendFrame crypto w entry msg.serialize
  { st with
    wire := st.wire ++ Router.sendTaken crypto w entry msg.serialize
    state := if sent.1 then .peer id sent.2 else .gone
    queued := st.queued ++
      if (Router.sendFits crypto entry msg.serialize).isSome then [msg] else [] }

end Station

/-! ## Both ends -/

/-- The end that dialed is `true`. -/
abbrev Link := Bool → Station

namespace Link

/-- What may happen to the link, one thing at a time. -/
inductive Input
  /-- An end's turn: it is given the first `n` bytes that are on the wire to it. -/
  | turn (x : Bool) (w : World) (r : Router) (n : Nat) (health : StreamHealth)
  | send (x : Bool) (w : World) (msg : NetEnvelope)
  | sealDatagram (x : Bool) (payload : Bytes)
  | openDatagram (x : Bool) (w : World) (seq : UInt64) (cipher : Bytes)
  /-- The connection is lost at one end: a timeout, a shutdown, a dispatch that dropped the peer. -/
  | drop (x : Bool)

variable (crypto : Crypto) (p : Parties)

/-- An end after its turn, and the wire that it read some of. -/
def turned (s : Link) (x : Bool) (n : Nat) (st : Station) : Link :=
  fun y ↦ if y = x then st else { s y with wire := (s y).wire.drop n }

/-- One thing that happens. -/
def step (s : Link) : Input → Option Link
  | .turn x w r n health =>
    let w := w.reading ((s !x).wire.take n) health
    match (s x).state with
    | .shaking entry => some (s.turned x n ((s x).shakes crypto (p.config crypto x) w r entry))
    | .peer id entry => some (s.turned x n ((s x).drains crypto (p.config crypto x) w id entry))
    | .gone => none
  | .send x w msg =>
    match (s x).state with
    | .peer id entry => some (Function.update s x ((s x).sends crypto w id entry msg))
    | _ => none
  | .sealDatagram x payload =>
    match (s x).state with
    | .peer id entry =>
      match entry.channel.sealDatagram crypto (p.config crypto x).productUserId id payload with
      | some (_, _, channel) =>
        some (Function.update s x { s x with state := .peer id { entry with channel } })
      | none => none
    | _ => none
  | .openDatagram x w seq cipher =>
    match (s x).state with
    | .peer id entry =>
      match entry.channel.openDatagram crypto id (p.config crypto x).productUserId seq cipher with
      | some (_, channel) =>
        some (Function.update s x
          { s x with state := .peer id { entry with channel, lastSeen := w.now } })
      | none => none
    | _ => none
  | .drop x => some (Function.update s x { s x with state := .gone })

/-- The two ends when the dial has come through: the one that dialed has spoken first, and the other
has accepted the connection. -/
def dialed (w : World) (dialing : DialingPeer) (w' : World) : Option Link :=
  match Router.startHandshake crypto (p.config crypto true) w (p.config crypto false).productUserId
      dialing, (Router.acceptPeers crypto (p.config crypto false) w' {}).handshaking with
  | some opener, [accepted] => some fun
    | true =>
      { state := .shaking opener
        wire := Router.dialTaken crypto w (p.config crypto true) dialing }
    | false => { state := .shaking accepted }
  | _, _ => none

end Link
end EosMesh
