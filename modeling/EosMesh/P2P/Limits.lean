import EosMesh.P2P.Packets
import EosMesh.P2P.Reentry

/-!
# The queues stay within their limits

The limits are on two totals, what is queued to be received and what is held on all connections
together, and packets leave both in many ways.  They enter in one way each, behind a comparison with
the limit.  A limit of zero is none.

* `Thins` is what every other step is: no more is queued, and no more is held on any connection.  It
  is a relation between states and composes, so the calls that close, receive, clear and disconnect
  each come down to it, however many packets they take.
* `Within` is the invariant, that each total is at most its limit.  `Within.thins` keeps it through
  all of these steps, and `sendOrHold_within` and `onData_within` through the two that add.
* `operate_within` puts the operations together.  Their sends may fail, and what a failing send does
  to us in the middle of an operation is one of the steps that thin (`Reentry`).
* `queues_within_limits` is the result, in the bytes of the packets themselves and not in the counts
  the code keeps of them.

The limits are those that were set at the start of the run: setting one lower afterwards takes
nothing off a queue, and so the totals may stand above it until packets leave.
-/

set_option autoImplicit false

namespace EosMesh

open Lib
open Std (TreeMap)

namespace P2p

/-! ## What holds less -/

/-- The bytes held on one connection. -/
def heldBytes (entry : Connection) : ℕ := (entry.delayed.map fun packet ↦ packet.data.1.length).sum

theorem outgoingQueuedBytes_eq (p : P2p) : p.outgoingQueuedBytes = total heldBytes p.connections :=
  rfl

/-- No more is queued or held in `p'`, and the limits are the same. -/
structure Thins (p p' : P2p) : Prop where
  incomingMax : p'.incomingQueueMaxBytes = p.incomingQueueMaxBytes
  outgoingMax : p'.outgoingQueueMaxBytes = p.outgoingQueueMaxBytes
  queue : p'.receiveQueue.Sublist p.receiveQueue
  held : ∀ key, weightAt heldBytes p'.connections key ≤ weightAt heldBytes p.connections key

variable {p p' p'' : P2p} {key : ConnectionKey} {entry : Connection}

theorem Thins.refl (p : P2p) : Thins p p := ⟨rfl, rfl, .refl _, fun _ ↦ le_refl _⟩

theorem Thins.trans (h : Thins p p') (h' : Thins p' p'') : Thins p p'' where
  incomingMax := h'.incomingMax.trans h.incomingMax
  outgoingMax := h'.outgoingMax.trans h.outgoingMax
  queue := h'.queue.trans h.queue
  held key := (h'.held key).trans (h.held key)

theorem Thins.foldl {ι : Type} {f : P2p → ι → P2p} (h : ∀ p i, Thins p (f p i)) (is : List ι)
    (p : P2p) : Thins p (is.foldl f p) := by
  induction is generalizing p with
  | nil => exact .refl p
  | cons i is ih => exact (h p i).trans (ih (f p i))

theorem queueEvent_thins (p : P2p) (type : EventKind) (key : ConnectionKey)
    (reason : ClosedReason) : Thins p (p.queueEvent type key reason) :=
  ⟨rfl, rfl, .refl _, fun _ ↦ le_refl _⟩

theorem flushPackets_thins (p : P2p) (peer socket : Bytes) :
    Thins p (p.flushPackets peer socket) :=
  ⟨rfl, rfl, flushPackets_sublist _ _ _, fun _ ↦ le_refl _⟩

theorem discardDelayed_thins (p : P2p) (peer socket : Bytes) :
    Thins p (p.discardDelayed peer socket) := by
  refine ⟨rfl, rfl, .refl _, fun key ↦ ?_⟩
  rw [weightAt, weightAt, discardDelayed]
  dsimp only
  rw [TreeMap.getElem?_map]
  cases p.connections[key]? with
  | none => exact le_refl _
  | some entry =>
    simp only [Option.map_some, Option.elim_some]
    split
    · exact Nat.zero_le _
    · exact le_refl _

/-- An entry that holds nothing. -/
theorem insert_thins (p : P2p) (key : ConnectionKey) (hempty : entry.delayed = []) :
    Thins p { p with connections := p.connections.insert key entry } := by
  refine ⟨rfl, rfl, .refl _, fun key' ↦ ?_⟩
  rw [weightAt, weightAt]
  dsimp only
  rw [lookup_insert]
  split
  · rw [Option.elim_some, heldBytes, hempty]
    exact Nat.zero_le _
  · exact le_refl _

theorem filter_thins (p : P2p) (keeps : ConnectionKey → Bool) :
    Thins p { p with connections := p.connections.filter fun key _ ↦ keeps key } := by
  refine ⟨rfl, rfl, .refl _, fun key ↦ ?_⟩
  rw [weightAt, weightAt]
  dsimp only
  rw [lookup_filter]
  split
  · exact le_refl _
  · exact Nat.zero_le _

theorem erase_thins (p : P2p) (key : ConnectionKey) :
    Thins p { p with connections := p.connections.erase key } := by
  refine ⟨rfl, rfl, .refl _, fun key' ↦ ?_⟩
  rw [weightAt, weightAt]
  dsimp only
  rw [lookup_erase]
  split
  · exact Nat.zero_le _
  · exact le_refl _

theorem onPeerDisconnected_thins (p : P2p) (peer : Bytes) :
    Thins p (p.onPeerDisconnected peer) := by
  rw [onPeerDisconnected]
  exact ((Thins.foldl (fun p key ↦ queueEvent_thins p .interrupted key .unknown) _ p).trans
    (filter_thins _ fun key ↦ key.peer ≠ peer)).trans (flushPackets_thins _ _ _)

theorem onConnectionClose_thins (p : P2p) (key : ConnectionKey) :
    Thins p (p.onConnectionClose key) := by
  rw [onConnectionClose]
  split
  · exact .refl p
  · exact ((erase_thins p key).trans (flushPackets_thins _ _ _)).trans (queueEvent_thins _ _ _ _)

theorem establish_thins (p : P2p) (key : ConnectionKey) (entry : Connection) :
    Thins p (p.establish key entry).1 :=
  (insert_thins p key rfl).trans (queueEvent_thins _ _ _ _)

theorem onAsked_thins (p : P2p) (key : ConnectionKey) : Thins p (p.onAsked key) :=
  (insert_thins p key rfl).trans (queueEvent_thins _ _ _ _)

theorem onConnectRequest_thins (p : P2p) (key : ConnectionKey) :
    Thins p (p.onConnectRequest key).1 := by
  rw [onConnectRequest]
  split
  · exact onAsked_thins p key
  · rename_i entry _
    split
    · exact .refl p
    · exact establish_thins p key entry
    · exact .refl p

theorem onConnectResponse_thins (p : P2p) (key : ConnectionKey) :
    Thins p (p.onConnectResponse key).1 := by
  rw [onConnectResponse]
  split
  · exact .refl p
  · rename_i entry _
    split
    · exact establish_thins p key entry
    · exact .refl p

/-- The calls that neither send nor set the limits. -/
theorem receivePacket_thins (p : P2p) (options : ReceivePacketOptions) :
    Thins p (p.receivePacket options).2.1 := by
  rw [receivePacket]
  split
  · exact .refl p
  · split
    · exact .refl p
    · dsimp only
      split
      · exact .refl p
      · rename_i htake
        exact ⟨rfl, rfl, takePacket_sublist htake, fun _ ↦ le_refl _⟩

theorem clearPacketQueue_thins (p : P2p) (options : ClearPacketQueueOptions) :
    Thins p (p.clearPacketQueue options).2 := by
  rw [clearPacketQueue]
  split
  · exact .refl p
  · split
    · exact .refl p
    · exact (flushPackets_thins _ _ _).trans (discardDelayed_thins _ _ _)

/-! ## The invariant -/

/-- The limits are these, and the lengths of what is queued, and of what is held on all connections
together, add up to no more. -/
structure Within (incoming outgoing : UInt64) (p : P2p) : Prop where
  incomingMax : p.incomingQueueMaxBytes = incoming
  outgoingMax : p.outgoingQueueMaxBytes = outgoing
  received : incoming ≠ maxQueueSizeUnlimited →
    (p.receiveQueue.map fun packet ↦ packet.data.1.length).sum ≤ incoming.toNat
  held : outgoing ≠ maxQueueSizeUnlimited →
    (p.connections.toList.map fun entry ↦
      (entry.2.delayed.map fun packet ↦ packet.data.1.length).sum).sum ≤ outgoing.toNat

variable {incoming outgoing : UInt64}

theorem Within.thins (h : Within incoming outgoing p) (hthins : Thins p p') :
    Within incoming outgoing p' where
  incomingMax := hthins.incomingMax.trans h.incomingMax
  outgoingMax := hthins.outgoingMax.trans h.outgoingMax
  received hlimit := by
    have hsum : p'.incomingQueuedBytes ≤ p.incomingQueuedBytes :=
      (hthins.queue.map fun packet : ReceivedPacket ↦ packet.data.1.length).sum_le_sum
        fun _ _ ↦ Nat.zero_le _
    exact hsum.trans (h.received hlimit)
  held hlimit := (total_le_total hthins.held).trans (h.held hlimit)

theorem le_of_not_exceeds {limit : UInt64} {held arriving : ℕ}
    (hlimit : limit ≠ maxQueueSizeUnlimited)
    (h : ¬ exceeds limit held arriving = true) : held + arriving ≤ limit.toNat := by
  rw [exceeds, decide_eq_true_eq, not_and, not_lt] at h
  exact h hlimit

/-- A packet is held only where there is room for it. -/
theorem sendOrHold_within (h : Within incoming outgoing p)
    (hentry : p.connections[key]? = some entry)
    (packet : DelayedPacket) (allowDelayed : Bool) :
    Within incoming outgoing (p.sendOrHold key entry packet allowDelayed).2.1 := by
  rw [sendOrHold]
  split
  · exact h
  split
  · exact h
  split
  · exact h
  rename_i hroom
  refine ⟨h.incomingMax, h.outgoingMax, h.received, fun hlimit ↦ ?_⟩
  rw [h.outgoingMax] at hroom
  refine le_trans (le_of_eq ?_) (le_of_not_exceeds hlimit hroom)
  rw [outgoingQueuedBytes_eq]
  refine @total_add _ _ _ _ _ _ heldBytes _ _ key _ ?_ fun other hother ↦ ?_
  · rw [weightAt, weightAt, lookup_insert, if_pos rfl, hentry, Option.elim_some, Option.elim_some,
      heldBytes, heldBytes, List.map_append, List.sum_append]
    rfl
  · rw [weightAt, weightAt, lookup_insert, if_neg hother]

/-- A packet is queued only where there is room for it. -/
theorem onData_within (h : Within incoming outgoing p) (key : ConnectionKey) (channel : Int32)
    (data : Bytes) : Within incoming outgoing (p.onData key channel data) := by
  rw [onData]
  split
  · exact h
  split
  swap
  · exact h
  split
  · exact h.thins (onAsked_thins p key)
  split
  · exact h
  split
  · exact h.thins ⟨rfl, rfl, .refl _, fun _ ↦ le_refl _⟩
  rename_i hroom
  refine ⟨h.incomingMax, h.outgoingMax, fun hlimit ↦ ?_, h.held⟩
  rw [h.incomingMax] at hroom
  refine le_trans (le_of_eq ?_) (le_of_not_exceeds hlimit hroom)
  rw [incomingQueuedBytes, List.map_append, List.sum_append]
  rfl

theorem onNetworkMessage_within (h : Within incoming outgoing p) (message : NetEnvelope) :
    Within incoming outgoing (p.onNetworkMessage message).1 := by
  rw [onNetworkMessage_eq]
  split
  · exact h.thins (onPeerDisconnected_thins p _)
  split
  · exact h
  split
  · exact h
  · rw [onAddressed]
    split
    · exact onData_within h _ _ _
    split
    · exact h.thins (onConnectRequest_thins p _)
    split
    · exact h.thins (onConnectResponse_thins p _)
    split
    · exact h.thins (onConnectionClose_thins p _)
    · exact h

end P2p

namespace Reentry

open P2p

variable {r : Reentry} {incoming outgoing : UInt64} {key : ConnectionKey} {entry : Connection}

/-! ## Operations whose sends may fail -/

theorem foldl_lose_within (h : P2p.Within incoming outgoing r.p2p) (lost : List Bytes) :
    P2p.Within incoming outgoing
      (lost.foldl (fun r peer ↦ r.become (r.p2p.onPeerDisconnected peer)) r).p2p := by
  induction lost generalizing r with
  | nil => exact h
  | cons peer lost ih => exact ih (h.thins (onPeerDisconnected_thins r.p2p peer))

theorem send_within (h : P2p.Within incoming outgoing r.p2p) (o : Outgoing) :
    P2p.Within incoming outgoing (r.send o).p2p := by
  rw [send]
  exact foldl_lose_within (r := { r with losses := r.losses.tail, sent := r.sent ++ [o] }) h _

theorem foldl_send_within (h : P2p.Within incoming outgoing r.p2p) (sends : List Outgoing) :
    P2p.Within incoming outgoing (sends.foldl send r).p2p := by
  induction sends generalizing r with
  | nil => exact h
  | cons o sends ih => exact ih (send_within h o)

theorem holding_within {next : Connection → Reentry} (h : P2p.Within incoming outgoing r.p2p)
    (hnext : ∀ entry, r.p2p.connections[key]? = some entry →
      P2p.Within incoming outgoing (next entry).p2p) :
    P2p.Within incoming outgoing (r.holding key next).p2p := by
  cases hlookup : r.p2p.connections[key]? with
  | none =>
    rw [holding_of_none hlookup]
    exact h
  | some entry =>
    rw [holding_of_some hlookup]
    exact hnext entry hlookup

theorem flushDelayed_within (h : P2p.Within incoming outgoing r.p2p)
    (packets : List DelayedPacket) :
    P2p.Within incoming outgoing (flushDelayed key packets r).p2p := by
  induction packets generalizing r with
  | nil => exact holding_within h fun _ _ ↦ h
  | cons packet packets ih => exact holding_within h fun _ _ ↦ ih (send_within h _)

theorem agree_within (h : P2p.Within incoming outgoing r.p2p) (key : ConnectionKey)
    (entry : Connection) : P2p.Within incoming outgoing (r.agree key entry).p2p := by
  have hset : P2p.Within incoming outgoing (r.setEntry key { state := .connectionOpen }).p2p :=
    h.thins (insert_thins r.p2p key rfl)
  exact flushDelayed_within ((send_within hset _).thins (queueEvent_thins _ _ _ _)) _

theorem settle_within (h : P2p.Within incoming outgoing r.p2p) (key : ConnectionKey)
    (entry : Connection) : P2p.Within incoming outgoing (r.settle key entry).p2p := by
  have hset : P2p.Within incoming outgoing (r.setEntry key { state := .connectionOpen }).p2p :=
    h.thins (insert_thins r.p2p key rfl)
  exact flushDelayed_within (hset.thins (queueEvent_thins _ _ _ _)) _

theorem sendOrHold_within (h : P2p.Within incoming outgoing r.p2p)
    (hentry : r.p2p.connections[key]? = some entry) (packet : DelayedPacket)
    (allowDelayed : Bool) :
    P2p.Within incoming outgoing (r.sendOrHold key entry packet allowDelayed).p2p :=
  foldl_send_within (r := r.become _) (P2p.sendOrHold_within h hentry packet allowDelayed) _

theorem sendPacket_within (h : P2p.Within incoming outgoing r.p2p) (options : SendPacketOptions) :
    P2p.Within incoming outgoing (r.sendPacket options).p2p := by
  rw [sendPacket]
  split
  · exact h
  · rename_i key packet _
    dsimp only
    split
    · rename_i entry hentry
      exact sendOrHold_within h hentry _ _
    · split
      · exact h
      · have hasked : P2p.Within incoming outgoing
            ((r.setEntry key { state := .connectionPending }).send (control .request key)).p2p :=
          send_within (h.thins (insert_thins r.p2p key rfl)) _
        exact holding_within hasked fun entry hentry ↦ sendOrHold_within hasked hentry _ _

theorem acceptConnection_within (h : P2p.Within incoming outgoing r.p2p)
    (options : AcceptConnectionOptions) :
    P2p.Within incoming outgoing (r.acceptConnection options).p2p := by
  rw [acceptConnection]
  split
  · exact h
  · rename_i key _
    split
    · exact send_within (h.thins (insert_thins r.p2p key rfl)) _
    · split
      · exact h
      · exact agree_within h _ _
      · exact send_within h _

theorem closeRound_within (h : P2p.Within incoming outgoing r.p2p) (key : ConnectionKey) :
    P2p.Within incoming outgoing (r.closeRound key).p2p := by
  rw [closeRound]
  split
  · exact h
  · have hsent := send_within h (control .close key)
    exact holding_within hsent fun _ _ ↦
      (hsent.thins (queueEvent_thins _ _ _ _)).thins (erase_thins _ key)

theorem closeSocketRound_within (h : P2p.Within incoming outgoing r.p2p) (key : ConnectionKey) :
    P2p.Within incoming outgoing (r.closeSocketRound key).p2p := by
  rw [closeSocketRound]
  split
  · exact h
  · have htold : P2p.Within incoming outgoing ((r.send (control .close key)).become
        ((r.send (control .close key)).p2p.queueEvent .closed key .closedByLocalUser)).p2p :=
      (send_within h (control .close key)).thins (queueEvent_thins _ _ _ _)
    exact holding_within htold fun _ _ ↦
      (htold.thins (erase_thins _ key)).thins (flushPackets_thins _ _ _)

theorem foldl_round_within {round : Reentry → ConnectionKey → Reentry}
    (hround : ∀ r key, P2p.Within incoming outgoing r.p2p →
      P2p.Within incoming outgoing (round r key).p2p)
    (h : P2p.Within incoming outgoing r.p2p) (keys : List ConnectionKey) :
    P2p.Within incoming outgoing (keys.foldl round r).p2p := by
  induction keys generalizing r with
  | nil => exact h
  | cons key keys ih => exact ih (hround r key h)

theorem closeConnection_within (h : P2p.Within incoming outgoing r.p2p)
    (options : CloseConnectionOptions) :
    P2p.Within incoming outgoing (r.closeConnection options).p2p := by
  rw [closeConnection]
  split
  · exact h
  · dsimp only
    have hclosed := foldl_round_within (fun r key h ↦ closeRound_within h key) h
    split
    · exact hclosed _
    · exact (hclosed _).thins (flushPackets_thins _ _ _)

theorem closeConnections_within (h : P2p.Within incoming outgoing r.p2p)
    (options : CloseConnectionsOptions) :
    P2p.Within incoming outgoing (r.closeConnections options).p2p := by
  rw [closeConnections]
  split
  · exact h
  · exact foldl_round_within (fun r key h ↦ closeSocketRound_within h key) h _

theorem onNetworkMessage_within (h : P2p.Within incoming outgoing r.p2p) (message : NetEnvelope) :
    P2p.Within incoming outgoing (r.onNetworkMessage message).p2p := by
  have hplain := P2p.onNetworkMessage_within h message
  rw [onNetworkMessage]
  split
  · exact hplain
  · rename_i key payload _
    split
    · rw [onConnectRequest]
      split
      · exact h.thins (onAsked_thins _ _)
      · split
        · exact h
        · exact agree_within h _ _
        · exact send_within h _
    · split
      · rw [onConnectResponse]
        split
        · exact h
        · split
          · exact settle_within h _ _
          · exact h
      · exact hplain

/-- One operation but for setting the limits. -/
theorem operate_within (h : P2p.Within incoming outgoing r.p2p) {i : P2pInput}
    (hlimits : ∀ options, i ≠ .call (.setPacketQueueSize options)) :
    P2p.Within incoming outgoing (r.operate i).p2p := by
  cases i with
  | receive message => exact onNetworkMessage_within h message
  | call c =>
    cases c with
    | sendPacket options => exact sendPacket_within h options
    | acceptConnection options => exact acceptConnection_within h options
    | closeConnection options => exact closeConnection_within h options
    | closeConnections options => exact closeConnections_within h options
    | receivePacket options => exact h.thins (receivePacket_thins r.p2p options)
    | setPacketQueueSize options => exact absurd rfl (hlimits options)
    | clearPacketQueue options => exact h.thins (clearPacketQueue_thins r.p2p options)
    | runFrame => exact h.thins ⟨rfl, rfl, .refl _, fun _ ↦ le_refl _⟩

end Reentry

/-! ## Runs -/

namespace P2p

/-- An instance whose game has set the limits and done nothing else. -/
def limited (self product : Bytes) (options : SetPacketQueueSizeOptions) : P2p :=
  (setPacketQueueSize { productUserId := self, productId := product } options).2

/-- An operation, with the peers that each of its sends loses. An operation that uses an entry that
is gone ends there, and the state it ends in counts as well. -/
def operation (p : P2p) (i : List (List Bytes) × P2pInput) : Option P2p :=
  some (({ p2p := p, losses := i.1 } : Reentry).operate i.2).p2p

/-- The limits are not set again. -/
def leavesLimits (_ : P2p) (i : List (List Bytes) × P2pInput) : Prop :=
  ∀ options, i.2 ≠ .call (.setPacketQueueSize options)

variable {self product : Bytes} {options : SetPacketQueueSizeOptions} {p : P2p}

theorem limited_empty : (limited self product options).receiveQueue = [] ∧
    (limited self product options).connections = {} := by
  rw [limited, setPacketQueueSize]
  split <;> exact ⟨rfl, rfl⟩

/-- **The queues keep to the limits that were set at the start**, whatever is sent, arrives, fails,
is received, closed or cleared. -/
theorem queues_within_limits (h : Reaches operation leavesLimits (limited self product options) p) :
    Within (limited self product options).incomingQueueMaxBytes
      (limited self product options).outgoingQueueMaxBytes p := by
  refine h.invariant ?_ fun p₁ i p₂ hwithin hleaves hstep ↦ ?_
  · obtain ⟨hqueue, hconnections⟩ := @limited_empty self product options
    refine ⟨rfl, rfl, fun _ ↦ ?_, fun _ ↦ ?_⟩
    · rw [hqueue]
      exact Nat.zero_le _
    · rw [hconnections]
      exact Nat.zero_le _
  · obtain rfl := Option.some_inj.1 hstep
    exact Reentry.operate_within (r := { p2p := p₁, losses := i.1 }) hwithin hleaves

instance (p : P2p) : (i : List (List Bytes) × P2pInput) → Decidable (leavesLimits p i)
  | (_, .call (.setPacketQueueSize options)) => isFalse fun h ↦ h options rfl
  | (_, .receive _) | (_, .call (.sendPacket _)) | (_, .call (.acceptConnection _))
  | (_, .call (.closeConnection _)) | (_, .call (.closeConnections _))
  | (_, .call (.receivePacket _)) | (_, .call (.clearPacketQueue _)) | (_, .call .runFrame) =>
    isTrue fun _ h ↦ by cases h

/-- What the peer `[2]` says to us on the socket `A`. -/
def fromPeer (signal : Signal) (data : Packet) : List (List Bytes) × P2pInput :=
  ([], .receive (envelope { productUserId := [2], productId := [9] }
    { signal, peer := [1], socket := ⟨[65], socketNameIsValid_letter⟩, data }))

/-- Limits of three bytes and of one.  The packet held goes out when the peer agrees, of its packets
the second does not fit, and another packet is held for another peer. -/
theorem queues_within_limits_held :
    let options : SetPacketQueueSizeOptions :=
      { apiVersion := 1, incomingPacketQueueMaxSizeBytes := 3,
        outgoingPacketQueueMaxSizeBytes := 1 }
    ∃ p, Reaches operation leavesLimits (limited [1] [9] options) p ∧
      p.receiveQueue.map (fun packet ↦ packet.data.1) = [[1, 2], [5]] ∧
      p.overflows.map (fun packet ↦ packet.sizeBytes) = [2] ∧ p.outgoingQueuedBytes = 1 ∧
      Within 3 1 p := by
  intro options
  obtain ⟨p, h, hqueue, hoverflow, hheld⟩ := exists_reaches operation leavesLimits
    (limited [1] [9] options)
    (fun p ↦ p.receiveQueue.map (fun packet ↦ packet.data.1) = [[1, 2], [5]] ∧
      p.overflows.map (fun packet ↦ packet.sizeBytes) = [2] ∧ p.outgoingQueuedBytes = 1)
    [([], Reentry.firstPacket [2]), ([], Reentry.firstPacket [3]),
      fromPeer .response Packet.empty, fromPeer .data ⟨[1, 2], by decide⟩,
      fromPeer .data ⟨[3, 4], by decide⟩, fromPeer .data ⟨[5], by decide⟩,
      ([], Reentry.firstPacket [3])]
    (by decide +kernel) (by decide +kernel)
  exact ⟨p, h, hqueue, hoverflow, hheld, queues_within_limits h⟩

end P2p
end EosMesh
