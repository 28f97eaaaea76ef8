import EosMesh.P2P.Agreement

/-!
# Nothing without consent

A connection is the game's to agree to: by sending on it, or by accepting it.  What a peer sends may
ask for one, settle one or end one, but opens none the game did not want, and no packet reaches the
game on any other.

A peer may send anything at any time: packets before a request, answers to nothing, requests in the
name of a connection that is open.  So the messages here are any bytes from any peer, and nothing is
asked of the other end.

* `Consenting` is an instance beside the connections its game has agreed to, and `Consenting.step`
  what may happen to it.  `consentOf` is the connection that an input makes the game agree to, and
  `parts` says which inputs end one; both are read off the input.
* `mem_call_receiveQueue` and `mem_onAddressed_receiveQueue` say what may be on the queue after a
  call or a message: it was there before, or came with this message on a connection that is open.
  Closing a connection takes off the queue what came on it.
* `onAddressed_standing` says that the connection a message is about reacts to a signal of its type
  or to none, and no other connection does.
* `Sound` is the invariant: what is queued came on an open connection, and what is wanted was agreed
  to.

`consent_required` is the result, for every run of one instance among any peers.
-/

set_option autoImplicit false

namespace EosMesh

open Lib

/-- The connection a packet came on. -/
def ReceivedPacket.key (packet : ReceivedPacket) : ConnectionKey where
  peer := packet.peer
  socket := packet.socket

/-- What happens to an instance. -/
inductive P2pInput
  | call (c : P2p.Call)
  | receive (message : NetEnvelope)
  deriving DecidableEq, Repr

/-- A connection the end wants: it asked for it, or it is open. -/
def Standing.Wanted (standing : Standing) : Prop :=
  standing = some .connectionPending ∨ standing = some .connectionOpen

theorem wanted_react {standing : Standing} {signal : Signal}
    (h : Standing.Wanted (react standing signal)) :
    Standing.Wanted standing ∧ signal ≠ .close := by
  cases standing with
  | none => cases signal <;> simp [react, Standing.Wanted] at h
  | some state => cases state <;> cases signal <;> simp_all [react, Standing.Wanted]

namespace P2p

variable {p : P2p} {key : ConnectionKey} {c : Call} {packet : ReceivedPacket}

/-! ## Agreeing and parting -/

/-- The connection an input makes the game agree to: one it sends on without declining to accept it,
or one it accepts. -/
def consentOf (p : P2p) : P2pInput → Option ConnectionKey
  | .call (.sendPacket options) =>
    match p.sendTarget options with
    | .error _ => none
    | .ok (target, _) => if disablesAutoAccept options then none else some target
  | .call (.acceptConnection options) =>
    match p.acceptTarget options with
    | .error _ => none
    | .ok target => some target
  | _ => none

/-- An input ends a connection: one end closes it, or its peer disconnects. -/
def parts (p : P2p) (key : ConnectionKey) : P2pInput → Bool
  | .call (.closeConnection options) =>
    match p.closeTarget options with
    | .error _ => false
    | .ok (peer, socket) => key.peer = peer ∧ socket.all (key.socket = ·)
  | .call (.closeConnections options) =>
    match p.closeConnectionsTarget options with
    | .error _ => false
    | .ok socket => key.socket = socket
  | .receive message =>
    if message.typeTag = MessageType.peerDisconnected.tag then message.sourceId = key.peer
    else message.typeTag = MessageType.p2pConnectionClose.tag ∧
      (p.addressed message).any fun found ↦ found.1 = key
  | _ => false

theorem consentOf_of_move (h : p.moveOf key c = .ask ∨ p.moveOf key c = .agree) :
    p.consentOf (.call c) = some key := by
  cases c with
  | sendPacket options =>
    rw [moveOf] at h
    rw [consentOf]
    cases htarget : p.sendTarget options with
    | error result => simp [htarget] at h
    | ok target =>
      by_cases hkey : target.1 = key
      · cases hstanding : p.standing key with
        | none =>
          by_cases hauto : disablesAutoAccept options = true <;>
            simp_all
        | some state => cases state <;> simp [htarget, hkey, hstanding] at h
      · simp [htarget, hkey] at h
  | acceptConnection options =>
    rw [moveOf] at h
    rw [consentOf]
    cases htarget : p.acceptTarget options with
    | error result => simp [htarget] at h
    | ok target =>
      by_cases hkey : target = key
      · simp [hkey]
      · simp [htarget, hkey] at h
  | closeConnection options =>
    rw [moveOf] at h
    cases htarget : p.closeTarget options with
    | error result => simp [htarget] at h
    | ok target =>
      rw [htarget] at h
      dsimp only at h
      split at h <;> simp at h
  | closeConnections options =>
    rw [moveOf] at h
    cases htarget : p.closeConnectionsTarget options with
    | error result => simp [htarget] at h
    | ok target =>
      rw [htarget] at h
      dsimp only at h
      split at h <;> simp at h
  | receivePacket options => simp [moveOf] at h
  | setPacketQueueSize options => simp [moveOf] at h
  | clearPacketQueue options => simp [moveOf] at h
  | runFrame => simp [moveOf] at h

theorem moveOf_of_parts (h : p.parts key (.call c) = true) (hstanding : p.standing key ≠ none) :
    p.moveOf key c = .close := by
  cases c with
  | closeConnection options =>
    rw [parts] at h
    rw [moveOf]
    cases htarget : p.closeTarget options with
    | error result => simp [htarget] at h
    | ok target =>
      rw [htarget, decide_eq_true_eq] at h
      exact if_pos ⟨h.1, h.2, hstanding⟩
  | closeConnections options =>
    rw [parts] at h
    rw [moveOf]
    cases htarget : p.closeConnectionsTarget options with
    | error result => simp [htarget] at h
    | ok socket =>
      rw [htarget, decide_eq_true_eq] at h
      exact if_pos ⟨h, hstanding⟩
  | sendPacket options => simp [parts] at h
  | acceptConnection options => simp [parts] at h
  | receivePacket options => simp [parts] at h
  | setPacketQueueSize options => simp [parts] at h
  | clearPacketQueue options => simp [parts] at h
  | runFrame => simp [parts] at h

/-! ## The queue -/

theorem foldl_queueEvent_receiveQueue (type : EventKind) (reason : ClosedReason)
    (keys : List ConnectionKey) (p : P2p) :
    (keys.foldl (fun p key ↦ p.queueEvent type key reason) p).receiveQueue = p.receiveQueue := by
  induction keys generalizing p with
  | nil => rfl
  | cons key keys ih => exact ih (p.queueEvent type key reason)

theorem mem_flushPackets {peer socket : Bytes} :
    packet ∈ (p.flushPackets peer socket).receiveQueue ↔
    packet ∈ p.receiveQueue ∧
      ¬ ((peer = [] ∨ packet.peer = peer) ∧ (socket = [] ∨ packet.socket.1 = socket)) := by
  simp only [flushPackets, List.mem_filter, decide_eq_true_eq]

theorem mem_foldl_flushPackets {socket : Bytes} {keys : List ConnectionKey}
    (h : packet ∈ (keys.foldl (fun p key ↦ p.flushPackets key.peer socket) p).receiveQueue) :
    packet ∈ p.receiveQueue ∧ ∀ key ∈ keys, packet.peer = key.peer → packet.socket.1 ≠ socket := by
  induction keys generalizing p with
  | nil => exact ⟨h, by simp⟩
  | cons first keys ih =>
    obtain ⟨hmem, hkeys⟩ := ih h
    rw [mem_flushPackets] at hmem
    refine ⟨hmem.1, fun key hkey hpeer hsocket ↦ ?_⟩
    rcases List.mem_cons.1 hkey with rfl | hkey
    · exact hmem.2 ⟨.inr hpeer, .inr hsocket⟩
    · exact hkeys key hkey hpeer hsocket

theorem sendOrHold_receiveQueue (p : P2p) (key : ConnectionKey) (entry : Connection)
    (packet : DelayedPacket) (allowDelayed : Bool) :
    (p.sendOrHold key entry packet allowDelayed).2.1.receiveQueue = p.receiveQueue := by
  rw [sendOrHold]
  split
  · rfl
  · split
    · rfl
    · split <;> rfl

theorem takePacket_sublist {requested : Option UInt8} {packets left : List ReceivedPacket}
    {found : ReceivedPacket} (h : takePacket requested packets = some (found, left)) :
    left.Sublist packets := by
  induction packets generalizing left with
  | nil => cases h
  | cons first packets ih =>
    rw [takePacket] at h
    split at h
    · cases h
      exact List.sublist_cons_self _ _
    · obtain ⟨⟨found', left'⟩, hrest, heq⟩ := Option.map_eq_some_iff.1 h
      cases heq
      exact (ih hrest).cons_cons _

theorem mem_closeConnection_receiveQueue {options : CloseConnectionOptions}
    (h : packet ∈ (p.call (.closeConnection options)).1.receiveQueue) :
    packet ∈ p.receiveQueue ∧ p.moveOf packet.key (.closeConnection options) ≠ .close := by
  cases htarget : p.closeTarget options with
  | error result =>
    simp only [call, closeConnection, htarget] at h
    exact ⟨h, by simp [moveOf, htarget]⟩
  | ok target =>
    obtain ⟨peer, socket⟩ := target
    simp only [call, closeConnection, htarget] at h
    obtain ⟨hmem, hkept⟩ := mem_flushPackets.1 h
    refine ⟨by rwa [closeAll, foldl_queueEvent_receiveQueue] at hmem, fun hmove ↦ hkept ?_⟩
    simp only [moveOf, htarget] at hmove
    split at hmove
    · rename_i hcloses
      refine ⟨.inr hcloses.1, ?_⟩
      cases socket with
      | none => exact .inl rfl
      | some socket =>
        have hsocket : packet.socket = socket := of_decide_eq_true hcloses.2.1
        exact .inr (by rw [hsocket]; rfl)
    · cases hmove

theorem mem_closeConnections_receiveQueue {options : CloseConnectionsOptions}
    (h : packet ∈ (p.call (.closeConnections options)).1.receiveQueue) :
    packet ∈ p.receiveQueue ∧ p.moveOf packet.key (.closeConnections options) ≠ .close := by
  cases htarget : p.closeConnectionsTarget options with
  | error result =>
    simp only [call, closeConnections, htarget] at h
    exact ⟨h, by simp [moveOf, htarget]⟩
  | ok socket =>
    simp only [call, closeConnections, htarget] at h
    obtain ⟨hmem, hkept⟩ := mem_foldl_flushPackets h
    refine ⟨by rwa [closeAll, foldl_queueEvent_receiveQueue] at hmem, fun hmove ↦ ?_⟩
    simp only [moveOf, htarget] at hmove
    split at hmove
    · rename_i hcloses
      obtain ⟨entry, hentry⟩ : ∃ entry, p.connections[packet.key]? = some entry := by
        rw [← Option.ne_none_iff_exists']
        exact fun hnone ↦ hcloses.2 (standing_of_no_entry hnone)
      refine hkept packet.key ?_ rfl (by rw [← hcloses.1]; rfl)
      rw [closeAll]
      exact List.mem_filter.2 ⟨(mem_keys_iff_lookup _ _).2
        ⟨entry, hentry⟩, by simpa using hcloses.1⟩
    · cases hmove

/-- **A call puts nothing on the queue, and closing a connection takes off what came on it.** -/
theorem mem_call_receiveQueue (h : packet ∈ (p.call c).1.receiveQueue) :
    packet ∈ p.receiveQueue ∧ p.moveOf packet.key c ≠ .close := by
  cases c with
  | sendPacket options =>
    refine ⟨?_, fun hmove ↦ ?_⟩
    · rw [call, sendPacket] at h
      split at h
      · exact h
      · dsimp only at h
        split at h
        · rwa [sendOrHold_receiveQueue] at h
        · split at h
          · exact h
          · rwa [sendOrHold_receiveQueue] at h
    · rw [moveOf] at hmove
      split at hmove
      · cases hmove
      · split at hmove
        · split at hmove
          · split at hmove <;> cases hmove
          · cases hmove
          · cases hmove
        · cases hmove
  | acceptConnection options =>
    refine ⟨?_, fun hmove ↦ ?_⟩
    · rw [call, acceptConnection] at h
      split at h
      · exact h
      · split at h
        · exact h
        · split at h <;> exact h
    · rw [moveOf] at hmove
      split at hmove
      · cases hmove
      · split at hmove
        · split at hmove <;> cases hmove
        · cases hmove
  | closeConnection options => exact mem_closeConnection_receiveQueue h
  | closeConnections options => exact mem_closeConnections_receiveQueue h
  | receivePacket options =>
    refine ⟨?_, by simp [moveOf]⟩
    rw [call, receivePacket] at h
    split at h
    · exact h
    · split at h
      · exact h
      · dsimp only at h
        split at h
        · exact h
        · rename_i htake
          exact (takePacket_sublist htake).subset h
  | setPacketQueueSize options =>
    refine ⟨?_, by simp [moveOf]⟩
    rw [call, setPacketQueueSize] at h
    split at h <;> exact h
  | clearPacketQueue options =>
    refine ⟨?_, by simp [moveOf]⟩
    rw [call, clearPacketQueue] at h
    split at h
    · exact h
    · split at h
      · exact h
      · exact (mem_flushPackets.1 h).1
  | runFrame => exact ⟨h, by simp [moveOf]⟩

/-! ## What arrives -/

/-- A packet on the queue after a message was there before, or came with it on an open connection;
and the message did not close its connection. -/
theorem mem_onAddressed_receiveQueue {typeTag : UInt16} {payload : P2pData}
    (h : packet ∈ (p.onAddressed typeTag key payload).1.receiveQueue) :
    (packet ∈ p.receiveQueue ∧ (typeTag = MessageType.p2pConnectionClose.tag → packet.key = key →
        p.standing key = none)) ∨
      (packet.key = key ∧ p.standing key = some .connectionOpen ∧
        typeTag = MessageType.p2pData.tag) := by
  have hkeeps (hmem : packet ∈ p.receiveQueue)
      (htag : typeTag ≠ MessageType.p2pConnectionClose.tag) :
      packet ∈ p.receiveQueue ∧ (typeTag = MessageType.p2pConnectionClose.tag → packet.key = key →
        p.standing key = none) :=
    ⟨hmem, fun hclose ↦ absurd hclose htag⟩
  rw [onAddressed] at h
  split at h
  · rename_i htag
    have hclose : typeTag ≠ MessageType.p2pConnectionClose.tag := by rw [htag]; decide
    rw [onData] at h
    split at h
    · exact .inl (hkeeps h hclose)
    · split at h
      · split at h
        · exact .inl (hkeeps h hclose)
        · rename_i entry hentry
          split at h
          · exact .inl (hkeeps h hclose)
          · rename_i hopen
            split at h
            · exact .inl (hkeeps h hclose)
            · rcases List.mem_append.1 h with h | h
              · exact .inl (hkeeps h hclose)
              · obtain rfl := List.mem_singleton.1 h
                refine .inr ⟨rfl, ?_, htag⟩
                rw [standing_of_lookup hentry, not_not.1 hopen]
      · exact .inl (hkeeps h hclose)
  · split at h
    · rename_i htag
      refine .inl (hkeeps ?_ (by rw [htag]; decide))
      rw [onConnectRequest] at h
      split at h
      · exact h
      · split at h <;> exact h
    · split at h
      · rename_i htag
        refine .inl (hkeeps ?_ (by rw [htag]; decide))
        rw [onConnectResponse] at h
        split at h
        · exact h
        · split at h <;> exact h
      · split at h
        · rw [onConnectionClose] at h
          split at h
          · rename_i hentry
            exact .inl ⟨h, fun _ _ ↦ standing_of_no_entry hentry⟩
          · obtain ⟨hmem, hkept⟩ := mem_flushPackets.1 h
            refine .inl ⟨hmem, fun _ hkey ↦ absurd ?_ hkept⟩
            rw [← hkey]
            exact ⟨.inr rfl, .inr rfl⟩
        · rename_i htag
          exact .inl (hkeeps h htag)

/-- The connection a message is about reacts to a signal of its type, or to none, and no other
connection does. -/
theorem onAddressed_standing (p : P2p) (typeTag : UInt16) (key : ConnectionKey)
    (payload : P2pData) :
    (∀ key', (p.onAddressed typeTag key payload).1.standing key' = p.standing key') ∧
        typeTag ≠ MessageType.p2pConnectionClose.tag ∨
      ∃ signal : Signal, signal.type.tag = typeTag ∧ ∀ key',
        (p.onAddressed typeTag key payload).1.standing key' =
          if key = key' then react (p.standing key') signal else p.standing key' := by
  rw [onAddressed]
  split
  · rename_i htag
    by_cases hvalid : (payload.channel < 0 ∨ payload.channel > maxChannel) ∨
        ¬ payload.data.length ≤ maxPacketSize
    · refine .inl ⟨fun key' ↦ ?_, by rw [htag]; decide⟩
      dsimp only
      rw [onData]
      rcases hvalid with hchannel | hdata
      · rw [if_pos hchannel]
      · rw [dif_neg hdata, ite_self]
    · rw [not_or, not_not] at hvalid
      exact .inr ⟨.data, htag.symm, fun key' ↦ (onData_spec p key hvalid.1 hvalid.2).next⟩
  · split
    · rename_i htag
      exact .inr ⟨.request, htag.symm, fun key' ↦ (onConnectRequest_spec p key).next⟩
    · split
      · rename_i htag
        exact .inr ⟨.response, htag.symm, fun key' ↦ (onConnectResponse_spec p key).next⟩
      · split
        · rename_i htag
          exact .inr ⟨.close, htag.symm, fun key' ↦ (onConnectionClose_spec p key).next⟩
        · rename_i htag
          exact .inl ⟨fun _ ↦ rfl, htag⟩

end P2p

/-! ## Runs -/

/-- An instance, and the connections its game has agreed to and that did not end since. -/
structure Consenting where
  p2p : P2p
  agreed : List ConnectionKey := []

namespace Consenting

open P2p

/-- An instance nothing has happened to. -/
def fresh (self product : Bytes) : Consenting where
  p2p := { productUserId := self, productId := product }

/-- One thing that happens. -/
def step (s : Consenting) (i : P2pInput) : Option Consenting :=
  some {
    p2p := match i with
      | .call c => (s.p2p.call c).1
      | .receive message => (s.p2p.onNetworkMessage message).1
    agreed := (s.agreed.filter fun key ↦ ¬ s.p2p.parts key i) ++ (s.p2p.consentOf i).toList }

/-- What is queued came on an open connection, and what is wanted was agreed to. -/
structure Sound (s : Consenting) : Prop where
  queued : ∀ packet ∈ s.p2p.receiveQueue, s.p2p.standing packet.key = some .connectionOpen
  agreed : ∀ key, Standing.Wanted (s.p2p.standing key) → key ∈ s.agreed

variable {s s' : Consenting} {i : P2pInput}

theorem fresh_sound (self product : Bytes) : (fresh self product).Sound where
  queued := by simp [fresh]
  agreed key h := by
    have hnone : (fresh self product).p2p.standing key = none :=
      standing_of_no_entry Std.TreeMap.getElem?_emptyc
    simp [Standing.Wanted, hnone] at h

theorem Sound.call (h : s.Sound) (c : P2p.Call) (hs : s.step (.call c) = some s') : s'.Sound := by
  cases hs
  refine ⟨fun packet hpacket ↦ ?_, fun key hwanted ↦ ?_⟩
  · obtain ⟨hmem, hclose⟩ := mem_call_receiveQueue hpacket
    obtain ⟨hallowed, hnext, -⟩ := call_spec s.p2p packet.key c
    have hopen := h.queued packet hmem
    dsimp only
    rw [hnext]
    cases hmove : s.p2p.moveOf packet.key c with
    | close => exact absurd hmove hclose
    | agree => rfl
    | ask => simp [hmove, Move.Allowed, hopen] at hallowed
    | idle => exact hopen
    | transmit => exact hopen
  · obtain ⟨-, hnext, -⟩ := call_spec s.p2p key c
    dsimp only at hwanted ⊢
    rw [hnext] at hwanted
    have hconsent (hmove : s.p2p.moveOf key c = .ask ∨ s.p2p.moveOf key c = .agree) :
        key ∈ (s.agreed.filter fun key ↦ ¬ s.p2p.parts key (.call c)) ++
          (s.p2p.consentOf (.call c)).toList := by
      simp [consentOf_of_move hmove]
    have hkept (hmove : s.p2p.moveOf key c ≠ .close)
        (hbefore : Standing.Wanted (s.p2p.standing key)) :
        key ∈ (s.agreed.filter fun key ↦ ¬ s.p2p.parts key (.call c)) ++
          (s.p2p.consentOf (.call c)).toList := by
      refine List.mem_append_left _ (List.mem_filter.2 ⟨h.agreed key hbefore, ?_⟩)
      by_contra hparts
      refine hmove (moveOf_of_parts (by simpa using hparts) fun hnone ↦ ?_)
      simp [Standing.Wanted, hnone] at hbefore
    cases hmove : s.p2p.moveOf key c with
    | close => simp [hmove, Move.next, Standing.Wanted] at hwanted
    | agree => exact hconsent (.inr hmove)
    | ask => exact hconsent (.inl hmove)
    | idle => exact hkept (by simp [hmove]) (by simpa [hmove, Move.next] using hwanted)
    | transmit => exact hkept (by simp [hmove]) (by simpa [hmove, Move.next] using hwanted)

/-- A message agrees to nothing, so what was agreed stays so unless the message parts the two. -/
theorem agreed_kept {message : NetEnvelope} {key : ConnectionKey} (hmem : key ∈ s.agreed)
    (hparts : s.p2p.parts key (.receive message) = false) :
    key ∈ (s.agreed.filter fun key ↦ ¬ s.p2p.parts key (.receive message)) ++
      (s.p2p.consentOf (.receive message)).toList :=
  List.mem_append_left _ (List.mem_filter.2 ⟨hmem, by simp [hparts]⟩)

/-- A peer is gone, with its connections and what it sent. -/
theorem Sound.lost (h : s.Sound) {message : NetEnvelope}
    (hdisconnected : message.typeTag = MessageType.peerDisconnected.tag)
    (hs : s.step (.receive message) = some s') : s'.Sound := by
  cases hs
  have hnext : (s.p2p.onNetworkMessage message).1 =
      s.p2p.onPeerDisconnected message.sourceId := by
    rw [onNetworkMessage_eq, if_pos hdisconnected]
  refine ⟨fun packet hpacket ↦ ?_, fun key hwanted ↦ ?_⟩
  · dsimp only at hpacket ⊢
    rw [hnext] at hpacket ⊢
    obtain ⟨hmem, hkept⟩ := mem_flushPackets.1 hpacket
    rw [foldl_queueEvent_receiveQueue] at hmem
    have hpeer : packet.key.peer ≠ message.sourceId :=
      fun hpeer ↦ hkept ⟨.inr hpeer, .inl rfl⟩
    rw [onPeerDisconnected_standing, if_neg hpeer]
    exact h.queued packet hmem
  · dsimp only at hwanted
    rw [hnext, onPeerDisconnected_standing] at hwanted
    split at hwanted
    · simp [Standing.Wanted] at hwanted
    · rename_i hpeer
      exact agreed_kept (h.agreed key hwanted)
        (by simp [parts, hdisconnected, Ne.symm hpeer])

/-- A message that is for no connection of ours changes nothing. -/
theorem Sound.unheard (h : s.Sound) {message : NetEnvelope}
    (hdisconnected : message.typeTag ≠ MessageType.peerDisconnected.tag)
    (hsame : (s.p2p.onNetworkMessage message).1 = s.p2p)
    (hclose : message.typeTag = MessageType.p2pConnectionClose.tag →
      s.p2p.addressed message = none)
    (hs : s.step (.receive message) = some s') : s'.Sound := by
  cases hs
  refine ⟨?_, fun key hwanted ↦ ?_⟩
  · dsimp only
    rw [hsame]
    exact h.queued
  · dsimp only at hwanted
    rw [hsame] at hwanted
    refine agreed_kept (h.agreed key hwanted) ?_
    rw [parts, if_neg hdisconnected, decide_eq_false_iff_not]
    exact fun hparts ↦ by simp [hclose hparts.1] at hparts

/-- A message for a connection: an open one stays open, but for a close, which takes its packets off
the queue; and a wanted one was wanted. -/
theorem Sound.addressed (h : s.Sound) {message : NetEnvelope} {origin : ConnectionKey}
    {payload : P2pData} (hdisconnected : message.typeTag ≠ MessageType.peerDisconnected.tag)
    (horigin : s.p2p.addressed message = some (origin, payload))
    (hnext : (s.p2p.onNetworkMessage message).1 =
      (s.p2p.onAddressed message.typeTag origin payload).1)
    (hs : s.step (.receive message) = some s') : s'.Sound := by
  cases hs
  have hstanding := onAddressed_standing s.p2p message.typeTag origin payload
  refine ⟨fun packet hpacket ↦ ?_, fun key hwanted ↦ ?_⟩
  · dsimp only at hpacket ⊢
    rw [hnext] at hpacket ⊢
    have hbefore : s.p2p.standing packet.key = some .connectionOpen := by
      rcases mem_onAddressed_receiveQueue hpacket with ⟨hmem, -⟩ | ⟨hkey, hopen, -⟩
      · exact h.queued packet hmem
      · rw [hkey, hopen]
    rcases hstanding with ⟨hsame, -⟩ | ⟨signal, htag, hreact⟩
    · rw [hsame, hbefore]
    · rw [hreact, hbefore]
      split
      · rename_i hkey
        refine react_open fun hclose ↦ ?_
        subst hclose
        -- A close takes the packets of its connection off the queue.
        rcases mem_onAddressed_receiveQueue hpacket with ⟨-, hgone⟩ | ⟨-, -, hdata⟩
        · have hnone := hgone htag.symm hkey.symm
          rw [hkey, hbefore] at hnone
          cases hnone
        · rw [← htag] at hdata
          exact absurd hdata (by decide)
      · rfl
  · dsimp only at hwanted
    rw [hnext] at hwanted
    have hparts (hopen : message.typeTag = MessageType.p2pConnectionClose.tag → origin ≠ key) :
        s.p2p.parts key (.receive message) = false := by
      rw [parts, if_neg hdisconnected, horigin, decide_eq_false_iff_not]
      exact fun hparts ↦ hopen hparts.1 (by simpa using hparts.2)
    rcases hstanding with ⟨hsame, htag⟩ | ⟨signal, htag, hreact⟩
    · rw [hsame] at hwanted
      exact agreed_kept (h.agreed key hwanted) (hparts fun hclose ↦ absurd hclose htag)
    · rw [hreact] at hwanted
      split at hwanted
      · rename_i hkey
        obtain ⟨hbefore, hsignal⟩ := wanted_react hwanted
        refine agreed_kept (h.agreed key hbefore) (hparts fun hclose ↦ ?_)
        rw [← htag] at hclose
        cases signal with
        | close => exact absurd rfl hsignal
        | _ => exact absurd hclose (by decide)
      · rename_i hkey
        exact agreed_kept (h.agreed key hwanted) (hparts fun _ ↦ hkey)

theorem Sound.receive (h : s.Sound) (message : NetEnvelope)
    (hs : s.step (.receive message) = some s') : s'.Sound := by
  by_cases hdisconnected : message.typeTag = MessageType.peerDisconnected.tag
  · exact h.lost hdisconnected hs
  have hnext := onNetworkMessage_eq s.p2p message
  rw [if_neg hdisconnected] at hnext
  split at hnext
  · rename_i htag
    refine h.unheard hdisconnected (by rw [hnext]) (fun hclose ↦ ?_) hs
    rw [htag] at hclose
    exact absurd hclose (by decide)
  · split at hnext
    · rename_i hnone
      exact h.unheard hdisconnected (by rw [hnext]) (fun _ ↦ hnone) hs
    · rename_i key payload hsome
      exact h.addressed hdisconnected hsome (by rw [hnext]) hs

/-- **Every packet queued is of a connection that is open, and every open connection is one the game
has agreed to since it last ended**, whatever its peers send, in any order: what they send alone
opens nothing and delivers nothing. -/
theorem consent_required {self product : Bytes} (h : Reaches step always (fresh self product) s) :
    (∀ packet ∈ s.p2p.receiveQueue, s.p2p.standing packet.key = some .connectionOpen) ∧
      (∀ key, s.p2p.standing key = some .connectionOpen → key ∈ s.agreed) ∧
      (s.agreed = [] → s.p2p.receiveQueue = []) := by
  have hsound : s.Sound := h.invariant (fresh_sound self product) fun s₁ i s₂ hs _ hstep ↦ by
    cases i with
    | call c => exact hs.call c hstep
    | receive message => exact hs.receive message hstep
  refine ⟨hsound.queued, fun key hopen ↦ hsound.agreed key (.inr hopen), fun hnone ↦ ?_⟩
  refine List.eq_nil_iff_forall_not_mem.2 fun packet hpacket ↦ ?_
  have hagreed := hsound.agreed packet.key (.inr (hsound.queued packet hpacket))
  simp [hnone] at hagreed

/-- `[2]` as its peer `[1]` hears it, on the socket `A`. -/
def fromTwo (signal : Signal) (data : Packet) : P2pInput :=
  .receive (P2p.envelope { productUserId := [2], productId := [9] }
    { signal, peer := [1], socket := ⟨[65], socketNameIsValid_letter⟩, data })

/-- `[1]` accepts what `[2]` asked for, and is sent a packet. -/
theorem consent_required_accepted : ∃ s, Reaches step always (fresh [1] [9]) s ∧
    s.p2p.receiveQueue.length = 1 ∧
    (∀ packet ∈ s.p2p.receiveQueue, s.p2p.standing packet.key = some .connectionOpen) ∧
      (∀ key, s.p2p.standing key = some .connectionOpen → key ∈ s.agreed) ∧
      (s.agreed = [] → s.p2p.receiveQueue = []) := by
  obtain ⟨s, h, hqueued⟩ := exists_reaches step always (fresh [1] [9])
    (fun s ↦ s.p2p.receiveQueue.length = 1)
    [fromTwo .request Packet.empty,
      .call (.acceptConnection
        { apiVersion := 1, localUserId := some [1], remoteUserId := some [2]
          socketId := some { apiVersion := 1, socketName := [65] } }),
      fromTwo .data ⟨[7], by decide⟩]
    (by decide +kernel) (meets_always _ _)
  exact ⟨s, h, hqueued, consent_required h⟩

end Consenting
end EosMesh
