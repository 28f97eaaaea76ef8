import EosMesh.Lib.Flow
import EosMesh.Net.Handshake
import EosMesh.Net.Lengths
import EosMesh.Net.Router.Effects

/-!
# What goes through an outbox

A frame for a peer goes to the end of its outbox, and its socket takes from the front what it likes:
when a frame is queued, when the streams are drained, and, before the peer is one, while it still
shakes hands.  Here the bytes are followed through.

* `Lib.Flow` is what an outbox began with, what was put into it and what was taken of it; it
  balances when these three and what is left agree.  `flushTaken` is what a socket takes over as
  many writes as it allows, and `flushTaken_append` that this is taken from the front.
* `Tapped` is the machine with a `Flow` beside it for every id, and `tap` its step.  `sending` says
  which envelope a step sends, `adopting` which connection it adopts, and `flowAfter` what either
  puts into the outbox of a peer and what the socket takes.  A peer that is adopted inherits the
  bytes that its handshake left, so a flow begins with these.
* `Small` is a connection that shakes hands: it has no more to send than it wrote messages for,
  which is far from the limit.
* `Touches` lists what a step can do to the outboxes, and `step_touches` proves that it can do
  nothing else.

`outbox_integrity` is the result, for every run: the flow of a peer balances with its outbox, the
outbox is within its limit, and a frame is queued whole or not at all.  A peer whose frame does not
fit is dropped, with all that waited for it.
-/

set_option autoImplicit false

namespace EosMesh

open Lib
open Std (TreeMap)

/-! ## What a socket takes -/

/-- The bytes a socket takes of an outbox, over as many writes as it allows. -/
def flushTaken : List SendResult → Bytes → Bytes
  | _, [] => []
  | .sent count :: results, outbox =>
    if count > 0 then outbox.take count ++ flushTaken results (outbox.drop count) else []
  | _, _ => []

/-- **A socket takes from the front, and what it leaves is the rest.** -/
theorem flushTaken_append (results : List SendResult) (outbox : Bytes) :
    flushTaken results outbox ++ (flushOutbox results outbox).2.1 = outbox := by
  fun_induction flushOutbox results outbox with
  | case1 => simp [flushTaken]
  | case2 => simp [flushTaken]
  | case3 => simp [flushTaken]
  | case4 => simp [flushTaken]
  | case5 count results outbox hnil hcount ih =>
    rw [flushTaken, if_pos hcount, List.append_assoc, ih, List.take_append_drop]
    exact hnil
  | case6 count results outbox hnil hcount =>
    rw [flushTaken, if_neg hcount, List.nil_append]
    exact hnil

theorem flushOutbox_length (results : List SendResult) (outbox : Bytes) :
    (flushOutbox results outbox).2.1.length ≤ outbox.length := by
  have := congrArg List.length (flushTaken_append results outbox)
  rw [List.length_append] at this
  omega

/-! ## The flow of a step -/

/-- Queueing a frame: it is put in whole, and then the socket takes what it likes. -/
def flowQueued (w : World) (entry : Peer) (framed : Bytes) (flow : Flow UInt8) : Flow UInt8 :=
  if entry.outbox.length + framed.length > maxOutboxBytes then flow
  else (flow.put framed).take (flushTaken (w.sends entry.connection) (entry.outbox ++ framed))

/-- Sending an envelope to one peer. -/
def flowSent (crypto : Crypto) (w : World) (entry : Peer) (plain : Bytes) (flow : Flow UInt8) :
    Flow UInt8 :=
  match sealFrame crypto entry.channel plain with
  | none => flow
  | some (framed, channel) => flowQueued w { entry with channel } framed flow

/-- Draining one peer: the socket is offered the outbox once its stream was read to no bad end. -/
def flowDrained (crypto : Crypto) (w : World) (entry : Peer) (flow : Flow UInt8) : Flow UInt8 :=
  if (Router.openArrived crypto w entry).broken.isSome ∨ (w.recv entry.connection).2 =
    .closed then flow
  else flow.take (flushTaken (w.sends entry.connection) entry.outbox)

namespace Machine

variable (crypto : Crypto) (config : Config)

/-- The envelope that a step sends, for whoever has control. -/
def sending (m : Machine) : Input → Option (World × NetEnvelope)
  | .act w (.send msg) => if m.outside then some (w, msg) else none
  | .run w =>
    match m.calls, m.phases with
    | .announceTo id :: _, _ => some (w, { m.router.selfAdvertisement config with destId := id })
    | [], .advertise :: _ =>
      if w.now - m.router.lastAdvertise < advertiseInterval then none
      else some (w, m.router.selfAdvertisement config)
    | _, _ => none
  | _ => none

/-- Does an envelope go to the peer? -/
def carries (r : Router) (msg : NetEnvelope) (id : Bytes) : Prop :=
  r.running = true ∧ (msg.destId = [] ∨ msg.destId = id)

instance (r : Router) (msg : NetEnvelope) (id : Bytes) : Decidable (carries r msg id) :=
  inferInstanceAs (Decidable (_ ∧ _))

/-- The connection that a step adopts as peer `id`. -/
def adopting (m : Machine) (id : Bytes) : Input → Option HandshakingPeer
  | .run w =>
    match m.calls, m.phases with
    | [], .drainHandshaking n :: _ =>
      match (m.router.handshaking[n]?).map (Router.shakeOne crypto config w) with
      | some (.proved proved entry) =>
        if proved = id ∧ m.router.adoptable config id then some entry else none
      | _ => none
    | _, _ => none
  | _ => none

/-- What a step does to the flow of peer `id`, whose entry it finds. -/
def flowAfter (m : Machine) (i : Input) (id : Bytes) (entry : Peer) (flow : Flow UInt8) :
    Flow UInt8 :=
  match m.sending config i with
  | some (w, msg) =>
    if carries m.router msg id then flowSent crypto w entry msg.serialize flow else flow
  | none =>
    match i, m.calls, m.phases with
    | .run w, [], .drainPeers :: _ => flowDrained crypto w entry flow
    | _, _, _ => flow

/-- The machine, and the flow of every peer's outbox. -/
structure Tapped where
  machine : Machine := {}
  flows : Bytes → Flow UInt8 := fun _ ↦ {}

/-- One step, and what it does to the flows: a peer that is adopted inherits the bytes that its
handshake left. -/
def tap (t : Tapped) (i : Input) : Option Tapped :=
  (step crypto config t.machine i).map fun m' ↦
    { machine := m'
      flows := fun id ↦
        match t.machine.adopting crypto config id i with
        | some entry => { inherited := entry.outbox }
        | none =>
          match t.machine.router.peers[id]? with
          | some entry => flowAfter crypto config t.machine i id entry (t.flows id)
          | none => t.flows id }

end Machine

/-! ## Each operation -/

/-- The flow of an outbox balances, and the outbox is within its limit. -/
structure Within (flow : Flow UInt8) (outbox : Bytes) : Prop where
  balances : flow.Balances outbox
  length : outbox.length ≤ maxOutboxBytes

variable {crypto : Crypto} {config : Config} {w : World} {flow : Flow UInt8} {entry : Peer}

theorem flowQueued_within (entry : Peer) (h : Within flow entry.outbox) (framed : Bytes) :
    Within (flowQueued w entry framed flow) (queueAndFlush w entry framed).2.outbox := by
  rw [flowQueued, queueAndFlush]
  split
  · exact h
  · rename_i hfits
    refine ⟨(h.balances.put framed).take (flushTaken_append _ _), ?_⟩
    have hleft := flushOutbox_length (w.sends entry.connection) (entry.outbox ++ framed)
    rw [List.length_append] at hleft
    exact hleft.trans (not_lt.1 hfits)

theorem flowSent_within (h : Within flow entry.outbox) (plain : Bytes) :
    Within (flowSent crypto w entry plain flow) (sendFrame crypto w entry plain).2.outbox := by
  rw [flowSent, sendFrame]
  cases sealFrame crypto entry.channel plain with
  | none => exact h
  | some sealed =>
    obtain ⟨framed, channel⟩ := sealed
    exact flowQueued_within { entry with channel } h framed

namespace Router

/-- Reading what arrived touches neither the socket nor what waits for it. -/
theorem readPlain_outbox (id : Bytes) (entry : Peer) (plain : Bytes) :
    (readPlain config w id entry plain).1.outbox = entry.outbox ∧
      (readPlain config w id entry plain).1.connection = entry.connection := by
  rw [readPlain]
  split
  · exact ⟨rfl, rfl⟩
  · dsimp only
    split
    · rw [learnDatagramPort]
      split
      · exact ⟨rfl, rfl⟩
      · split <;> exact ⟨rfl, rfl⟩
    · split <;> exact ⟨rfl, rfl⟩

theorem readPlains_outbox (id : Bytes) (entry : Peer) (plains : List Bytes) :
    (readPlains config w id entry plains).1.outbox = entry.outbox ∧
      (readPlains config w id entry plains).1.connection = entry.connection := by
  induction plains generalizing entry with
  | nil => exact ⟨rfl, rfl⟩
  | cons plain plains ih =>
    obtain ⟨houtbox, hconnection⟩ := @readPlain_outbox config w id entry plain
    obtain ⟨houtbox', hconnection'⟩ := ih (readPlain config w id entry plain).1
    exact ⟨houtbox'.trans houtbox, hconnection'.trans hconnection⟩

theorem drainPeer_within (id : Bytes) (h : Within flow entry.outbox) :
    Within (flowDrained crypto w entry flow) (drainPeer crypto config w id entry).entry.outbox := by
  rw [flowDrained, drainPeer]
  dsimp only
  obtain ⟨houtbox, hconnection⟩ := @readPlains_outbox config w id
    { entry with
      buffer := (openArrived crypto w entry).buffer,
        channel := (openArrived crypto w entry).channel }
    (openArrived crypto w entry).plains
  generalize readPlains config w id _ _ = read at houtbox hconnection ⊢
  cases hbroken : (openArrived crypto w entry).broken with
  | some reason =>
    rw [if_pos (.inl rfl)]
    exact houtbox ▸ h
  | none =>
    by_cases hclosed : (w.recv entry.connection).2 = .closed
    · rw [if_pos (.inr hclosed), if_pos hclosed]
      exact houtbox ▸ h
    · rw [if_neg (by simpa using hclosed), if_neg hclosed]
      dsimp only
      rw [houtbox, hconnection]
      exact ⟨h.balances.take (flushTaken_append _ _), (flushOutbox_length _ _).trans h.length⟩

/-- What a send makes of each peer. -/
theorem lookup_send (r : Router) (msg : NetEnvelope) (id : Bytes) :
    (r.send crypto w msg).2.1.peers[id]? = (r.peers[id]?).map fun entry ↦
      if Machine.carries r msg id then (sendFrame crypto w entry msg.serialize).2 else entry := by
  rw [send]
  by_cases hrunning : r.running = true
  · rw [if_neg (not_not_intro hrunning)]
    by_cases hall : msg.destId = []
    · rw [if_pos hall, broadcast]
      dsimp only
      rw [TreeMap.getElem?_map]
      simp [Machine.carries, hrunning, hall]
    · rw [if_neg hall, sendTo]
      cases hget : r.peers[msg.destId]? with
      | none =>
        dsimp only
        by_cases hid : msg.destId = id
        · rw [← hid, hget]
          rfl
        · simp [Machine.carries, hall, hid]
      | some entry =>
        dsimp only
        have hlookup : (r.peers.insert msg.destId
            (sendFrame crypto w entry msg.serialize).2)[id]? = (r.peers[id]?).map fun entry ↦
              if Machine.carries r msg id then (sendFrame crypto w entry msg.serialize).2
              else entry := by
          rw [lookup_insert]
          by_cases hid : msg.destId = id
          · rw [if_pos hid, ← hid, hget]
            simp [Machine.carries, hrunning]
          · rw [if_neg hid]
            simp [Machine.carries, hall, hid]
        split <;> exact hlookup
  · rw [if_pos hrunning]
    simp [Machine.carries, hrunning]

/-! ## Before a peer is one -/

/-- A connection that shakes hands has no more to send than it wrote messages for. -/
structure Small (entry : HandshakingPeer) : Prop where
  speaks : entry.channel.Speaks
  outbox : entry.outbox.length ≤
    (framePrefixLen + NoiseHandshake.maxHandshakeMessage) * entry.channel.messageIndex

/-- Three messages are far from the limit. -/
theorem Small.within {entry : HandshakingPeer} (h : Small entry) :
    Within { inherited := entry.outbox } entry.outbox := by
  refine ⟨Flow.balances_inherited _, ?_⟩
  have hindex : entry.channel.messageIndex ≤ 3 := h.speaks.index
  have houtbox := h.outbox
  rw [framePrefixLen, NoiseHandshake.maxHandshakeMessage] at houtbox
  rw [maxOutboxBytes]
  omega

theorem frameMessage_length (message : Bytes) :
    (frameMessage message).length = framePrefixLen + message.length := by
  rw [frameMessage, List.length_append, length_beBytes]

/-- A message counts for as many bytes as it may have. -/
theorem outbox_le_of_message (outbox : Bytes) {message : Bytes} {index index' : Nat}
    (houtbox : outbox.length ≤ (framePrefixLen + NoiseHandshake.maxHandshakeMessage) * index)
    (hmessage : message.length ≤ NoiseHandshake.maxHandshakeMessage) (hindex : index < index')
    (sends : List SendResult) :
    (flushOutbox sends (outbox ++ frameMessage message)).2.1.length ≤
      (framePrefixLen + NoiseHandshake.maxHandshakeMessage) * index' := by
  refine (flushOutbox_length _ _).trans ?_
  rw [List.length_append, frameMessage_length]
  have hstep := Nat.mul_le_mul_left (framePrefixLen + NoiseHandshake.maxHandshakeMessage)
    (Nat.succ_le_of_lt hindex)
  rw [Nat.mul_succ] at hstep
  omega

theorem pushReply_small {sends sends' : List SendResult} {entry' : HandshakingPeer}
    (entry : HandshakingPeer) {reply : Bytes} {index : Nat} {ok : Bool}
    (hspeaks : entry.channel.Speaks)
    (houtbox : entry.outbox.length ≤
      (framePrefixLen + NoiseHandshake.maxHandshakeMessage) * index)
    (hreply : reply.length ≤ NoiseHandshake.maxHandshakeMessage)
    (hindex : index < entry.channel.messageIndex)
    (h : pushReply sends entry reply = (ok, entry', sends')) : Small entry' := by
  rw [pushReply] at h
  split at h
  · cases h
    exact ⟨hspeaks, houtbox.trans (Nat.mul_le_mul_left _ hindex.le)⟩
  · cases h
    exact ⟨hspeaks, outbox_le_of_message _ houtbox hreply hindex sends⟩

theorem shakeLoop_small (hpublic : PublicKeysSized crypto) {fuel : Nat} {sends : List SendResult}
    {entry entry' : HandshakingPeer} {proved proved' : Bytes} (hsmall : Small entry)
    (h : shakeLoop crypto config w fuel sends entry proved = some (entry', proved')) :
    Small entry' := by
  induction fuel generalizing sends entry proved with
  | zero =>
    cases h
    exact hsmall
  | succ fuel ih =>
    rw [shakeLoop] at h
    split at h
    · cases h
      exact hsmall
    · split at h
      · cases h
      · cases h
        exact hsmall
      · rename_i message rest _
        split at h
        · cases h
        · rename_i reply channel hread
          obtain ⟨hlength, hspeaks, hindex⟩ :=
            PeerChannel.readHandshake_writes hpublic hsmall.speaks (.inl hread)
          split at h
          · rename_i hpush
            exact ih (pushReply_small { entry with buffer := rest, channel } hspeaks hsmall.outbox
              hlength hindex hpush) h
          · cases h
        · rename_i reply channel hread
          obtain ⟨hlength, hspeaks, hindex⟩ :=
            PeerChannel.readHandshake_writes hpublic hsmall.speaks (.inr hread)
          split at h
          · rename_i hpush
            exact ih (pushReply_small { entry with buffer := rest, channel } hspeaks hsmall.outbox
              hlength hindex hpush) h
          · cases h

/-- One pass over a connection leaves it small, whether it proved itself or not. -/
theorem shakeOne_small (hpublic : PublicKeysSized crypto) {entry entry' : HandshakingPeer}
    (hsmall : Small entry) (h : shakeOne crypto config w entry = .shaking entry' ∨
      ∃ id, shakeOne crypto config w entry = .proved id entry') : Small entry' := by
  have hleft := flushOutbox_length (w.sends entry.connection) entry.outbox
  rw [shakeOne] at h
  generalize flushOutbox (w.sends entry.connection) entry.outbox = flushed at h hleft
  obtain ⟨ok, outbox, sends⟩ := flushed
  have hstart : Small
      { entry with outbox, buffer := entry.buffer ++ (w.recv entry.connection).1 } :=
    ⟨hsmall.speaks, hleft.trans hsmall.outbox⟩
  cases ok with
  | false => obtain h | ⟨id, h⟩ := h <;> cases h
  | true =>
    dsimp only at h
    split at h
    · obtain h | ⟨id, h⟩ := h <;> cases h
    · rename_i hloop
      have hend := shakeLoop_small hpublic hstart hloop
      split at h
      · obtain h | ⟨id, h⟩ := h <;> cases h
      · split at h
        · obtain h | ⟨id, h⟩ := h <;> cases h
        · split at h
          · obtain h | ⟨id, h⟩ := h
            · cases h
              exact hend
            · cases h
          · obtain h | ⟨id, h⟩ := h
            · cases h
            · cases h
              exact hend

theorem startHandshake_small (hpublic : PublicKeysSized crypto)
    (hown : config.staticPub.length = dhLen) {id : Bytes} {dialing : DialingPeer}
    {entry : HandshakingPeer} (h : startHandshake crypto config w id dialing = some entry) :
    Small entry := by
  rw [startHandshake] at h
  dsimp only at h
  split at h
  · cases h
  · rename_i opening channel hopen
    obtain ⟨hlength, hspeaks, hindex⟩ :=
      PeerChannel.openHandshake_writes hpublic (PeerChannel.speaks_init true hown) hopen
    split at h
    · cases h
      exact ⟨hspeaks, outbox_le_of_message [] (Nat.zero_le _) hlength hindex _⟩
    · cases h

theorem send_handshaking (r : Router) (msg : NetEnvelope) :
    (r.send crypto w msg).2.1.handshaking = r.handshaking := by
  rw [send]
  split
  · rfl
  · split
    · rfl
    · rw [sendTo]
      cases r.peers[msg.destId]? with
      | none => rfl
      | some entry =>
        dsimp only
        split <;> rfl

/-- The outboxes are what they were, of the peers that are left. -/
def KeepsOutboxes (r r' : Router) : Prop :=
  ∀ (id : Bytes) (entry' : Peer), r'.peers[id]? = some entry' →
    ∃ entry, r.peers[id]? = some entry ∧ entry'.outbox = entry.outbox

theorem KeepsOutboxes.of_eq {r r' : Router} (h : r'.peers = r.peers) : KeepsOutboxes r r' :=
  fun _ entry' hget ↦ ⟨entry', h ▸ hget, rfl⟩

theorem KeepsOutboxes.insert {r r' : Router} {id : Bytes} {entry entry' : Peer}
    (hget : r.peers[id]? = some entry) (houtbox : entry'.outbox = entry.outbox)
    (hpeers : r'.peers = r.peers.insert id entry') : KeepsOutboxes r r' := by
  intro id' found hfound
  rw [hpeers, lookup_insert] at hfound
  split at hfound
  · rename_i heq
    cases hfound
    exact ⟨entry, heq ▸ hget, houtbox⟩
  · exact ⟨found, hfound, rfl⟩

theorem sendDatagram_keepsOutboxes (r : Router) (peerId payload : Bytes) :
    KeepsOutboxes r (r.sendDatagram crypto config w peerId payload).2 ∧
      (r.sendDatagram crypto config w peerId payload).2.handshaking = r.handshaking := by
  rw [sendDatagram]
  split
  · exact ⟨.of_eq rfl, rfl⟩
  · split
    · exact ⟨.of_eq rfl, rfl⟩
    · rename_i entry hget
      split
      · exact ⟨.of_eq rfl, rfl⟩
      · split
        · exact ⟨.of_eq rfl, rfl⟩
        · dsimp only
          split <;>
          · refine ⟨.insert hget ?_ rfl, rfl⟩
            rfl

theorem openDatagram_outbox {r : Router} {data id plain : Bytes} {entry' : Peer}
    (h : r.openDatagram crypto config w data = some (id, entry', plain)) :
    ∃ entry, r.peers[id]? = some entry ∧ entry'.outbox = entry.outbox := by
  rw [openDatagram] at h
  split at h
  · cases h
  · dsimp only at h
    split at h
    · cases h
    · rename_i hfind
      split at h
      · cases h
      · cases h
        exact ⟨_, (mem_toList_iff_lookup _ _ _).1 (List.mem_of_find?_eq_some hfind), rfl⟩

end Router

/-! ## Each step -/

namespace Machine

variable {m m' : Machine} {i : Input}

/-- Every connection that shakes hands is small. -/
def Shaking (r : Router) : Prop := ∀ entry ∈ r.handshaking, Router.Small entry

/-- What a step does to the outboxes. -/
inductive Touches (crypto : Crypto) (config : Config) (m : Machine) (i : Input)
    (m' : Machine) : Prop
  | sent (w : World) (msg : NetEnvelope) (hsends : m.sending config i = some (w, msg))
      (hadopts : ∀ id, m.adopting crypto config id i = none)
      (hlookup : ∀ id, m'.router.peers[id]? = (m.router.peers[id]?).map fun entry ↦
        if carries m.router msg id then (sendFrame crypto w entry msg.serialize).2 else entry)
      (hshaking : m'.router.handshaking = m.router.handshaking)
  | drained (w : World) (phases : List Phase) (hi : i = .run w) (hcalls : m.calls = [])
      (hphases : m.phases = .drainPeers :: phases)
      (hpeers : m'.router.peers = m.router.peers.map fun id entry ↦
        (Router.drainPeer crypto config w id entry).entry)
      (hshaking : m'.router.handshaking = m.router.handshaking)
  | adopted (id : Bytes) (entry : HandshakingPeer) (adopted : Peer)
      (hadopts : ∀ id', m.adopting crypto config id' i = if id = id' then some entry else none)
      (hsends : m.sending config i = none) (hundrained : ∀ phases, m.phases ≠ .drainPeers :: phases)
      (hpeers : m'.router.peers = m.router.peers.insert id adopted)
      (houtbox : adopted.outbox = entry.outbox)
      (hsmall : PublicKeysSized crypto → Shaking m.router → Router.Small entry ∧ Shaking m'.router)
  | quiet (hsends : m.sending config i = none)
      (hundrained : ∀ w phases, i = .run w → m.calls = [] → m.phases ≠ .drainPeers :: phases)
      (hadopts : ∀ id, m.adopting crypto config id i = none)
      (hkeeps : m.router.KeepsOutboxes m'.router)
      (hsmall : PublicKeysSized crypto → config.staticPub.length = dhLen → Shaking m.router →
        Shaking m'.router)

/-- Nothing but what is not about the peers. -/
theorem Touches.still (hsends : m.sending config i = none)
    (hundrained : ∀ w phases, i = .run w → m.calls = [] → m.phases ≠ .drainPeers :: phases)
    (hadopts : ∀ id, m.adopting crypto config id i = none)
    (hkeeps : m.router.KeepsOutboxes m'.router)
    (hshaking : m'.router.handshaking = m.router.handshaking) :
    Touches crypto config m i m' :=
  .quiet hsends hundrained hadopts hkeeps fun _ _ hsmall ↦ by
    rw [Shaking, hshaking]
    exact hsmall

theorem runCall_touches {call : Call} {calls : List Call} (hcalls : m.calls = call :: calls)
    (h : runCall crypto config w m calls call = some m') :
    Touches crypto config m (.run w) m' := by
  have hadopts (id : Bytes) : m.adopting crypto config id (.run w) = none := by
    simp [adopting, hcalls]
  have hbusy (w' : World) (phases : List Phase) (_ : Input.run w = .run w') (hnil : m.calls = []) :
      m.phases ≠ .drainPeers :: phases := by
    rw [hcalls] at hnil
    cases hnil
  have hquiet (hcall : ∀ id, call ≠ .announceTo id) : m.sending config (.run w) = none := by
    rw [sending]
    simp only [hcalls]
    cases call <;> simp_all
  cases call with
  | announceTo id =>
    cases h
    exact .sent w _ (by simp [sending, hcalls]) hadopts (fun id ↦ Router.lookup_send _ _ id)
      (Router.send_handshaking _ _)
  | dropPeer id reason =>
    rw [runCall] at h
    split at h
    · cases h
      refine .still (hquiet (by simp)) hbusy hadopts (fun id' entry' hget ↦ ?_) rfl
      dsimp only at hget
      rw [lookup_erase] at hget
      split at hget
      · cases hget
      · exact ⟨entry', hget, rfl⟩
    · cases h
      exact .still (hquiet (by simp)) hbusy hadopts (.of_eq rfl) rfl
  | raiseConnected id key =>
    cases h
    exact .still (hquiet (by simp)) hbusy hadopts (.of_eq rfl) rfl
  | raiseDisconnected id =>
    cases h
    exact .still (hquiet (by simp)) hbusy hadopts (.of_eq rfl) rfl
  | deliver msg origin listeners =>
    cases listeners <;>
    · cases h
      exact .still (hquiet (by simp)) hbusy hadopts (.of_eq rfl) rfl
  | listening listener => cases h
  | drainSelf messages =>
    cases h
    exact .still (hquiet (by simp)) hbusy hadopts (.of_eq rfl) rfl
  | dispatchAll messages =>
    rcases messages with _ | ⟨⟨msg, origin⟩, messages⟩ <;>
    · cases h
      exact .still (hquiet (by simp)) hbusy hadopts (.of_eq rfl) rfl

theorem runDatagrams_touches {phases : List Phase} (hcalls : m.calls = [])
    (hphases : m.phases = .drainDatagrams :: phases) :
    Touches crypto config m (.run w) (runDatagrams crypto config w m phases) := by
  have hstill {m' : Machine} (hkeeps : m.router.KeepsOutboxes m'.router)
      (hshaking : m'.router.handshaking = m.router.handshaking) :
      Touches crypto config m (.run w) m' :=
    .still (by simp [sending, hcalls, hphases]) (by simp [hphases])
      (by simp [adopting, hcalls, hphases]) hkeeps hshaking
  rw [runDatagrams]
  split
  · exact hstill (.of_eq rfl) rfl
  · split
    · exact hstill (.of_eq rfl) rfl
    · split
      · split
        · exact hstill (.of_eq rfl) rfl
        · rename_i hopen
          obtain ⟨entry, hget, houtbox⟩ := Router.openDatagram_outbox hopen
          exact hstill (.insert hget houtbox rfl) rfl
      · split
        · split
          · exact hstill (.of_eq rfl) rfl
          · split
            · refine hstill (.of_eq (Router.handleAdvertise_peers _ _ _)) ?_
              dsimp only
              rw [Router.handleAdvertise]
              repeat' split
              all_goals rfl
            · exact hstill (.of_eq rfl) rfl
        · exact hstill (.of_eq rfl) rfl

theorem runHandshaking_touches {phases : List Phase} {n : Nat} (hcalls : m.calls = [])
    (hphases : m.phases = .drainHandshaking n :: phases) :
    Touches crypto config m (.run w) (runHandshaking crypto config w m phases n) := by
  have hsends : m.sending config (.run w) = none := by simp [sending, hcalls, hphases]
  have hundrained (phases' : List Phase) : m.phases ≠ .drainPeers :: phases' := by simp [hphases]
  rw [runHandshaking]
  cases hget : m.router.handshaking[n]? with
  | none =>
    exact .still hsends (fun _ _ _ _ ↦ hundrained _) (by simp [adopting, hcalls, hphases, hget])
      (.of_eq rfl) rfl
  | some entry =>
    have hmem : entry ∈ m.router.handshaking := List.mem_of_getElem? hget
    have herased (hsmall : Shaking m.router) (left : HandshakingPeer)
        (hleft : left ∈ m.router.handshaking.eraseIdx n) : Router.Small left :=
      hsmall left ((List.eraseIdx_sublist _ _).subset hleft)
    dsimp only
    cases hshake : Router.shakeOne crypto config w entry with
    | lost =>
      exact .quiet hsends (fun _ _ _ _ ↦ hundrained _)
        (by simp [adopting, hcalls, hphases, hget, hshake]) (.of_eq rfl) fun _ _ ↦ herased
    | shaking entry' =>
      refine .quiet hsends (fun _ _ _ _ ↦ hundrained _)
        (by simp [adopting, hcalls, hphases, hget, hshake]) (.of_eq rfl) fun hpublic _ hsmall ↦ ?_
      intro left hleft
      rcases List.mem_or_eq_of_mem_set hleft with hleft | rfl
      · exact hsmall left hleft
      · exact Router.shakeOne_small hpublic (hsmall entry hmem) (.inl hshake)
    | proved id entry' =>
      dsimp only
      split
      · rename_i hadoptable
        have hadoptable' : m.router.adoptable config id = true := hadoptable
        refine .adopted id entry' (Router.adoptedPeer crypto w entry') (fun id' ↦ ?_) hsends
          hundrained rfl rfl fun hpublic hsmall ↦ ⟨?_, herased hsmall⟩
        · simp only [adopting, hcalls, hphases, hget, hshake, Option.map_some]
          by_cases hid : id = id'
          · subst hid
            rw [if_pos ⟨rfl, hadoptable'⟩, if_pos rfl]
          · rw [if_neg fun h ↦ hid h.1, if_neg hid]
        · exact Router.shakeOne_small hpublic (hsmall entry hmem) (.inr ⟨id, hshake⟩)
      · rename_i hrefused
        have hrefused' : ¬ m.router.adoptable config id = true := hrefused
        refine .quiet hsends (fun _ _ _ _ ↦ hundrained _) (fun id' ↦ ?_) (.of_eq rfl)
          fun _ _ ↦ herased
        simp only [adopting, hcalls, hphases, hget, hshake, Option.map_some]
        refine if_neg ?_
        rintro ⟨rfl, hadoptable⟩
        exact hrefused' hadoptable

theorem runPhase_touches {phase : Phase} {phases : List Phase} (hcalls : m.calls = [])
    (hphases : m.phases = phase :: phases) :
    Touches crypto config m (.run w) (runPhase crypto config w m phases phase) := by
  have hadopts (hphase : ∀ n, phase ≠ .drainHandshaking n) (id : Bytes) :
      m.adopting crypto config id (.run w) = none := by
    simp only [adopting, hcalls, hphases]
    split
    · rename_i heq
      cases heq
      exact absurd rfl (hphase _)
    · rfl
  cases phase with
  | advertise =>
    rw [runPhase, runAdvertise]
    split
    · rename_i hsoon
      have hsoon' : w.now - m.router.lastAdvertise < advertiseInterval := hsoon
      exact .still (by simp [sending, hcalls, hphases, hsoon']) (by simp [hphases])
        (hadopts (by simp)) (.of_eq rfl) rfl
    · rename_i hdue
      have hdue' : ¬ w.now - m.router.lastAdvertise < advertiseInterval := hdue
      refine .sent w (m.router.selfAdvertisement config) ?_ (hadopts (by simp))
        (fun id ↦ Router.lookup_send _ _ id) (Router.send_handshaking _ _)
      simp [sending, hcalls, hphases, hdue']
  | acceptPeers =>
    refine .quiet (by simp [sending, hcalls, hphases]) (by simp [hphases]) (hadopts (by simp))
      (.of_eq rfl) fun _ hown hsmall entry hentry ↦ ?_
    rcases List.mem_append.1 hentry with hentry | hentry
    · exact hsmall entry hentry
    · obtain ⟨⟨connection, source, nonblocking⟩, -, haccepted⟩ := List.mem_filterMap.1 hentry
      dsimp only at haccepted
      split at haccepted
      · cases haccepted
        exact ⟨PeerChannel.speaks_init false hown, Nat.zero_le _⟩
      · cases haccepted
  | finishDialing =>
    refine .quiet (by simp [sending, hcalls, hphases]) (by simp [hphases]) (hadopts (by simp))
      (.of_eq rfl) fun hpublic hown hsmall entry hentry ↦ ?_
    rcases List.mem_append.1 hentry with hentry | hentry
    · exact hsmall entry hentry
    · obtain ⟨⟨id, dialing⟩, -, hstarted⟩ := List.mem_filterMap.1 hentry
      dsimp only at hstarted
      split at hstarted
      · exact Router.startHandshake_small hpublic hown hstarted
      · cases hstarted
  | drainDatagrams => exact runDatagrams_touches hcalls hphases
  | drainHandshaking n => exact runHandshaking_touches hcalls hphases
  | drainPeers => exact .drained w phases rfl hcalls hphases rfl rfl
  | expireHandshaking =>
    exact .quiet (by simp [sending, hcalls, hphases]) (by simp [hphases]) (hadopts (by simp))
      (.of_eq rfl) fun _ _ hsmall entry hentry ↦ hsmall entry (List.mem_of_mem_filter hentry)
  | expirePeers =>
    exact .still (by simp [sending, hcalls, hphases]) (by simp [hphases]) (hadopts (by simp))
      (.of_eq rfl) rfl

/-- **A step touches the outboxes in no other way.** -/
theorem step_touches (h : step crypto config m i = some m') : Touches crypto config m i m' := by
  have hempty {r : Router} (hi : ∀ w, i ≠ .run w) (hsends : m.sending config i = none)
      (hpeers : r.peers = {}) (hshaking : r.handshaking = []) (trace : List Event) :
      Touches crypto config m i { m with router := r, trace } := by
    refine .quiet hsends (fun w _ heq ↦ absurd heq (hi w)) (fun id ↦ ?_)
      (fun id entry hget ↦ ?_) fun _ _ _ entry hentry ↦ ?_
    · cases i <;> first | rfl | exact absurd rfl (hi _)
    · dsimp only at hget
      rw [hpeers, TreeMap.getElem?_emptyc] at hget
      cases hget
    · dsimp only at hentry
      rw [hshaking] at hentry
      cases hentry
  cases i with
  | start ports =>
    rw [step] at h
    split at h
    · cases h
      unfold Router.start
      split
      · exact .still rfl (by simp) (fun _ ↦ rfl) (.of_eq rfl) rfl
      · split
        · exact hempty (by simp) rfl rfl rfl m.trace
        · split
          · exact hempty (by simp) rfl rfl rfl m.trace
          · exact hempty (by simp) rfl rfl rfl m.trace
    · cases h
  | stop =>
    rw [step] at h
    split at h
    · cases h
      exact hempty (by simp) rfl rfl rfl _
    · cases h
  | tick =>
    rw [step] at h
    split at h
    · cases h
      split <;> exact .still rfl (by simp) (fun _ ↦ rfl) (.of_eq rfl) rfl
    · cases h
  | run w =>
    rw [step] at h
    split at h
    · rename_i call calls hcalls
      exact runCall_touches hcalls h
    · rename_i phase phases hcalls hphases
      cases h
      exact runPhase_touches hcalls hphases
    · cases h
  | act w action =>
    rw [step] at h
    split at h
    · rename_i hout
      cases h
      cases action with
      | send msg =>
        exact .sent w msg (if_pos hout) (fun _ ↦ rfl) (fun id ↦ Router.lookup_send _ _ id)
          (Router.send_handshaking _ _)
      | sendToSelf msg =>
        rw [runAction, Router.sendToSelf]
        split <;> exact .still rfl (by simp) (fun _ ↦ rfl) (.of_eq rfl) rfl
      | sendDatagram id payload =>
        obtain ⟨hkeeps, hshaking⟩ := Router.sendDatagram_keepsOutboxes m.router id payload
        exact .still rfl (by simp) (fun _ ↦ rfl) hkeeps hshaking
      | registerListener tag listener =>
        rw [runAction, Router.registerListener]
        split <;> exact .still rfl (by simp) (fun _ ↦ rfl) (.of_eq rfl) rfl
      | unregisterListener tag listener =>
        refine .still rfl (by simp) (fun _ ↦ rfl) (.of_eq ?_) ?_
        all_goals
          rw [runAction, Router.unregisterListener]
          dsimp only
          repeat' split
          all_goals rfl
    · cases h
  | ret =>
    rw [step] at h
    split at h
    · cases h
      exact .still rfl (by simp) (fun _ ↦ rfl) (.of_eq rfl) rfl
    · cases h

/-- What a peer's outbox is after a step, and what became of its flow. -/
theorem flow_of_step {t t' : Tapped} (h : tap crypto config t i = some t')
    (hpublic : PublicKeysSized crypto) (hown : config.staticPub.length = dhLen)
    (hsmall : Shaking t.machine.router)
    (hwithin : ∀ (id : Bytes) (entry : Peer), t.machine.router.peers[id]? = some entry →
      Within (t.flows id) entry.outbox) :
    Shaking t'.machine.router ∧ ∀ (id : Bytes) (entry : Peer),
      t'.machine.router.peers[id]? = some entry → Within (t'.flows id) entry.outbox := by
  obtain ⟨m', hstep, rfl⟩ := Option.map_eq_some_iff.1 h
  cases step_touches hstep with
  | sent w msg hsends hadopts hlookup hshaking =>
    refine ⟨by rw [Shaking, hshaking]; exact hsmall, fun id entry' hget ↦ ?_⟩
    rw [hlookup, Option.map_eq_some_iff] at hget
    obtain ⟨entry, hget, rfl⟩ := hget
    simp only [hadopts, hget, flowAfter, hsends]
    split
    · exact flowSent_within (hwithin id entry hget) msg.serialize
    · exact hwithin id entry hget
  | drained w phases hi hcalls hphases hpeers hshaking =>
    refine ⟨by rw [Shaking, hshaking]; exact hsmall, fun id entry' hget ↦ ?_⟩
    rw [hpeers, TreeMap.getElem?_map, Option.map_eq_some_iff] at hget
    obtain ⟨entry, hget, rfl⟩ := hget
    subst hi
    simp only [adopting, hcalls, hphases, hget, flowAfter, sending]
    exact Router.drainPeer_within id (hwithin id entry hget)
  | adopted id entry adopted hadopts hsends hundrained hpeers houtbox hkeeps =>
    obtain ⟨hentry, hshaking⟩ := hkeeps hpublic hsmall
    refine ⟨hshaking, fun id' entry' hget ↦ ?_⟩
    rw [hpeers, lookup_insert] at hget
    simp only [hadopts]
    by_cases hid : id = id'
    · rw [if_pos hid] at hget ⊢
      cases hget
      rw [houtbox]
      exact hentry.within
    · rw [if_neg hid] at hget ⊢
      simp only [hget, flowAfter, hsends]
      split
      · rename_i hphases
        exact absurd hphases (hundrained _)
      · exact hwithin id' entry' hget
  | quiet hsends hundrained hadopts hkeeps hshaking =>
    refine ⟨hshaking hpublic hown hsmall, fun id entry' hget ↦ ?_⟩
    obtain ⟨entry, hget, houtbox⟩ := hkeeps id entry' hget
    simp only [hadopts, hget, flowAfter, hsends]
    rw [houtbox]
    exact hwithin id entry hget

/-- A frame that is sent is queued whole, or, where it does not fit, not at all. -/
def QueuedWhole (crypto : Crypto) (config : Config) (t : Tapped) : Prop :=
  ∀ (i : Input) (t' : Tapped) (w : World) (msg : NetEnvelope) (id : Bytes) (entry : Peer)
    (framed : Bytes) (channel : PeerChannel), tap crypto config t i = some t' →
    t.machine.sending config i = some (w, msg) → carries t.machine.router msg id →
    t.machine.router.peers[id]? = some entry →
    sealFrame crypto entry.channel msg.serialize = some (framed, channel) →
    if entry.outbox.length + framed.length > maxOutboxBytes then
      t'.flows id = t.flows id ∧
        ∃ entry', t'.machine.router.peers[id]? = some entry' ∧ entry'.outbox = entry.outbox
    else (t'.flows id).queued = (t.flows id).queued ++ [framed]

theorem queuedWhole (t : Tapped) : QueuedWhole crypto config t := by
  intro i t' w msg id entry framed channel h hsending hcarries hget hseal
  obtain ⟨m', hstep, rfl⟩ := Option.map_eq_some_iff.1 h
  cases step_touches hstep with
  | sent w' msg' hsends hadopts hlookup hshaking =>
    cases hsends.symm.trans hsending
    simp only [hadopts, hget, flowAfter, hsending, if_pos hcarries, flowSent, hseal, flowQueued,
      hlookup, Option.map_some]
    split
    · rename_i hfull
      refine ⟨rfl, _, rfl, ?_⟩
      rw [sendFrame, hseal]
      dsimp only
      rw [queueAndFlush, if_pos hfull]
    · rfl
  | drained w' phases hi hcalls hphases hpeers hshaking =>
    subst hi
    simp [sending, hcalls, hphases] at hsending
  | adopted id' entry' adopted hadopts hsends hundrained hpeers houtbox hkeeps =>
    rw [hsends] at hsending
    cases hsending
  | quiet hsends hundrained hadopts hkeeps hshaking =>
    rw [hsends] at hsending
    cases hsending

/-- **No byte of an outbox is lost, repeated or out of order.** -/
theorem outbox_integrity (hpublic : PublicKeysSized crypto) (hown : config.staticPub.length = dhLen)
    {t : Tapped} (h : Reaches (tap crypto config) always {} t) :
    (∀ (id : Bytes) (entry : Peer), t.machine.router.peers[id]? = some entry →
      (t.flows id).accepted ++ entry.outbox =
          (t.flows id).inherited ++ (t.flows id).queued.flatten ∧
        entry.outbox.length ≤ maxOutboxBytes) ∧
    QueuedWhole crypto config t := by
  have hinv : Shaking t.machine.router ∧ ∀ (id : Bytes) (entry : Peer),
      t.machine.router.peers[id]? = some entry → Within (t.flows id) entry.outbox := by
    refine h.invariant (I := fun t ↦ Shaking t.machine.router ∧ ∀ (id : Bytes) (entry : Peer),
      t.machine.router.peers[id]? = some entry → Within (t.flows id) entry.outbox)
      ⟨fun _ hentry ↦ absurd hentry List.not_mem_nil, fun id entry hget ↦ ?_⟩
      fun _ _ _ hinv _ hstep ↦ flow_of_step hstep hpublic hown hinv.1 hinv.2
    rw [TreeMap.getElem?_emptyc] at hget
    cases hget
  refine ⟨fun id entry hget ↦ ?_, queuedWhole t⟩
  obtain ⟨hbalances, hlength⟩ := hinv.2 id entry hget
  exact ⟨hbalances, hlength⟩

/-- A peer dials us over a socket that takes nothing yet; then it is announced to, and the socket
takes some of what waits. -/
def slowRun : List Input :=
  Sample.untilAdopted [] (Sample.stream (Sample.key 2) []) ++
    [.run { Sample.quiet with sends := fun _ ↦ [.sent 30, .wouldBlock] }]

/-- What waits is the rest of our part of the handshake, and the announcement behind it. -/
theorem outbox_integrity_slow : ∃ (t : Tapped) (id : Bytes) (entry : Peer),
    ((t.flows id).inherited.length, (t.flows id).queued.length, (t.flows id).accepted.length) =
      (100, 1, 30) ∧
    (t.flows id).accepted ++ entry.outbox =
      (t.flows id).inherited ++ (t.flows id).queued.flatten := by
  let id := Sample.us.idOfKey checksumCrypto (Sample.key 2)
  obtain ⟨t, h, hflow, hpeer⟩ := exists_reaches (tap PeerChannel.paddedCrypto Sample.us) always {}
    (fun t ↦ ((t.flows id).inherited.length, (t.flows id).queued.length,
        (t.flows id).accepted.length) = (100, 1, 30) ∧ (t.machine.router.peers[id]?).isSome = true)
    slowRun (by decide +kernel) (meets_always _ _)
  obtain ⟨entry, hget⟩ := Option.isSome_iff_exists.1 hpeer
  have hpublic : PublicKeysSized PeerChannel.paddedCrypto :=
    PeerChannel.paddedCrypto_sound.publicKeyLen
  exact ⟨t, id, entry, hflow, ((outbox_integrity hpublic (by decide) h).1 id entry hget).1⟩

end Machine
end EosMesh
