import EosMesh.P2P.Packets

/-!
# Each channel is received in order

One queue holds the packets of every channel, and a request may take a packet out of its middle.
The size query and the receiving call each scan the queue for themselves, so that they agree is not
for free: a game that sizes its buffer by the query would lose the end of a packet otherwise.

* `takePacket_eq_some`: the packet a request takes is the first one it fits, and the rest stays.  So
  those in front of it are of other channels (`onChannel_takePacket`).
* `nextSize_agrees`: the query finds the packet that the same request would receive.
* `onNetworkMessage_receiveQueue`: a data message puts the packet that is accepted at the end of the
  queue, and nothing else.  Which packets are accepted is said of the message, not of the handler.
* `Receiving` is the interface with what it has accepted and returned, and `Receiving.Conserved` the
  invariant: on each channel, what was returned and what is queued is what was accepted, in order.
* `received_in_order` is the result.  A packet longer than the buffer it is received into comes cut
  to it; it is taken off the queue all the same, and its end is gone.
-/

set_option autoImplicit false

namespace EosMesh

open Lib
open Std (TreeMap)

/-- `EOS_P2P_GetNextReceivedPacketSizeOptions`. -/
structure GetNextReceivedPacketSizeOptions where
  apiVersion : Int32
  localUserId : Option Bytes
  requestedChannel : Option UInt8
  deriving DecidableEq, Repr

namespace P2p

/-- A request for a channel, or for any. -/
def fits (requested : Option UInt8) (packet : ReceivedPacket) : Bool :=
  requested.all (· = packet.channel)

/-- `requested_channel_of`: a field that the caller's struct is too old for is not read. -/
def requestedChannelOf (version introduced : Int32) (field : Option UInt8) : Option UInt8 :=
  if version ≥ introduced then field else none

/-- `get_next_received_packet_size`: the packet that `receive_packet` would give stays where it is.
-/
def getNextReceivedPacketSize (p : P2p) (options : GetNextReceivedPacketSizeOptions) :
    EResult × Option UInt32 :=
  if ¬ versionIsSupported options.apiVersion getNextReceivedPacketSizeApiLatest then
    (.invalidParameters, none)
  else if ¬ p.isLocalUser options.localUserId then (.invalidUser, none)
  else
    let requested := requestedChannelOf options.apiVersion packetSizeWithRequestedChannel
      options.requestedChannel
    match p.receiveQueue.find? (fits requested) with
    | none => (.notFound, none)
    | some packet => (.success, some (UInt32.ofNat packet.data.1.length))

/-! ## The two scans -/

variable {requested : Option UInt8} {packets left : List ReceivedPacket} {packet : ReceivedPacket}

theorem takePacket_cons (requested : Option UInt8) (packet : ReceivedPacket)
    (packets : List ReceivedPacket) : takePacket requested (packet :: packets) =
      if fits requested packet then some (packet, packets)
      else (takePacket requested packets).map fun (found, left) ↦ (found, packet :: left) := rfl

/-- The first packet that the request fits, out of the middle of the queue. -/
theorem takePacket_eq_some : takePacket requested packets = some (packet, left) ↔
    ∃ before after, packets = before ++ packet :: after ∧ left = before ++ after ∧
      fits requested packet = true ∧ ∀ other ∈ before, fits requested other = false := by
  induction packets generalizing left with
  | nil =>
    refine iff_of_false nofun ?_
    rintro ⟨before, after, h, -⟩
    exact absurd h (by simp)
  | cons first packets ih =>
    rw [takePacket_cons]
    by_cases hfirst : fits requested first = true
    · rw [if_pos hfirst, Option.some_inj, Prod.mk.injEq]
      constructor
      · rintro ⟨rfl, rfl⟩
        exact ⟨[], packets, rfl, rfl, hfirst, by simp⟩
      · rintro ⟨before, after, hsplit, rfl, -, hbefore⟩
        cases before with
        | nil =>
          obtain ⟨rfl, rfl⟩ := List.cons.inj hsplit
          exact ⟨rfl, rfl⟩
        | cons other before =>
          obtain ⟨rfl, -⟩ := List.cons.inj hsplit
          rw [hbefore first List.mem_cons_self] at hfirst
          cases hfirst
    · rw [if_neg hfirst, Option.map_eq_some_iff]
      constructor
      · rintro ⟨⟨found, rest⟩, hrest, heq⟩
        obtain ⟨rfl, rfl⟩ := Prod.mk.inj heq
        obtain ⟨before, after, rfl, rfl, hfits, hbefore⟩ := ih.1 hrest
        exact ⟨first :: before, after, rfl, rfl, hfits,
          List.forall_mem_cons.2 ⟨Bool.eq_false_iff.2 hfirst, hbefore⟩⟩
      · rintro ⟨before, after, hsplit, rfl, hfits, hbefore⟩
        cases before with
        | nil =>
          obtain ⟨rfl, -⟩ := List.cons.inj hsplit
          exact absurd hfits hfirst
        | cons other before =>
          obtain ⟨rfl, rfl⟩ := List.cons.inj hsplit
          exact ⟨(packet, before ++ after), ih.2 ⟨before, after, rfl, rfl, hfits,
            (List.forall_mem_cons.1 hbefore).2⟩, rfl⟩

/-- The scan of the size query stops at the same packet. -/
theorem find?_fits (requested : Option UInt8) (packets : List ReceivedPacket) :
    packets.find? (fits requested) = (takePacket requested packets).map Prod.fst := by
  induction packets with
  | nil => rfl
  | cons first packets ih =>
    rw [takePacket_cons]
    by_cases hfirst : fits requested first = true
    · rw [if_pos hfirst, List.find?_cons_of_pos hfirst]
      rfl
    · rw [if_neg hfirst, List.find?_cons_of_neg hfirst, ih, Option.map_map]
      rfl

/-- The query finds the packet that the same request would receive, and says its full size. -/
theorem nextSize_agrees (p : P2p) {size : GetNextReceivedPacketSizeOptions}
    {receive : ReceivePacketOptions} (hversion : size.apiVersion = receive.apiVersion)
    (huser : size.localUserId = receive.localUserId)
    (hchannel : size.requestedChannel = receive.requestedChannel) :
    (p.getNextReceivedPacketSize size).1 = (p.receivePacket receive).1 ∧
      (p.getNextReceivedPacketSize size).2.map UInt32.toNat =
        (p.receivePacket receive).2.2.map fun returned ↦ returned.1.data.1.length := by
  have hrequested : requestedChannelOf size.apiVersion packetSizeWithRequestedChannel
      size.requestedChannel =
      if receive.apiVersion ≥ receivePacketWithRequestedChannel then receive.requestedChannel
      else none := by
    rw [requestedChannelOf, hversion, hchannel]
    rfl
  have hlatest : getNextReceivedPacketSizeApiLatest = receivePacketApiLatest := rfl
  rw [getNextReceivedPacketSize, receivePacket, hrequested, hversion, huser, hlatest]
  simp only [find?_fits]
  split
  · exact ⟨rfl, rfl⟩
  split
  · exact ⟨rfl, rfl⟩
  split
  · rename_i hnone
    rw [Option.map_eq_none_iff] at hnone
    rw [hnone]
    exact ⟨rfl, rfl⟩
  · rename_i packet hsome
    obtain ⟨⟨found, left⟩, htake, rfl⟩ := Option.map_eq_some_iff.1 hsome
    rw [htake]
    refine ⟨rfl, ?_⟩
    have hsize : found.data.1.length < 2 ^ 32 := lt_of_le_of_lt found.data.2 (by decide)
    rw [Option.map_some, Option.map_some, UInt32.toNat_ofNat', Nat.mod_eq_of_lt hsize]

/-! ## What is accepted -/

/-- The packet of a data message that is queued: its connection is open, the API can express its
channel, it is no longer than the limit and there is room for it. -/
def acceptedPacket (p : P2p) (message : NetEnvelope) : Option ReceivedPacket :=
  (p.addressed message).bind fun (key, payload) ↦
    if h : payload.data.length ≤ maxPacketSize then
      if p.standing key = some .connectionOpen ∧
          ¬ (payload.channel < 0 ∨ payload.channel > maxChannel) ∧
          exceeds p.incomingQueueMaxBytes p.incomingQueuedBytes payload.data.length = false then
        some {
          peer := key.peer, socket := key.socket
          channel := UInt8.ofNat payload.channel.toInt.toNat, data := ⟨payload.data, h⟩ }
      else none
    else none

theorem onData_receiveQueue (p : P2p) {message : NetEnvelope} {key : ConnectionKey}
    {payload : P2pData} (haddressed : p.addressed message = some (key, payload)) :
    (p.onData key payload.channel payload.data).receiveQueue =
      p.receiveQueue ++ (p.acceptedPacket message).toList := by
  rw [acceptedPacket, haddressed, Option.bind_some, onData]
  dsimp only
  by_cases hchannel : payload.channel < 0 ∨ payload.channel > maxChannel
  · rw [if_pos hchannel]
    split
    · rw [if_neg fun h ↦ h.2.1 hchannel]
      exact (List.append_nil _).symm
    · exact (List.append_nil _).symm
  rw [if_neg hchannel]
  split
  swap
  · exact (List.append_nil _).symm
  cases hentry : p.connections[key]? with
  | none =>
    dsimp only
    rw [standing_of_no_entry hentry, if_neg (by simp)]
    exact (List.append_nil _).symm
  | some entry =>
    dsimp only
    rw [standing_of_lookup hentry]
    by_cases hopen : entry.state = .connectionOpen
    · rw [if_neg (not_not.2 hopen)]
      by_cases hfull : exceeds p.incomingQueueMaxBytes p.incomingQueuedBytes
        payload.data.length = true
      · rw [if_pos hfull, if_neg fun h ↦ by rw [h.2.2] at hfull; cases hfull]
        exact (List.append_nil _).symm
      · rw [if_neg hfull, if_pos ⟨congrArg some hopen, hchannel, Bool.eq_false_iff.2 hfull⟩]
        rfl
    · rw [if_pos hopen, if_neg fun h ↦ hopen (Option.some_inj.1 h.1)]
      exact (List.append_nil _).symm

/-- A data message puts the packet that is accepted at the end of the queue, and nothing else. -/
theorem onNetworkMessage_receiveQueue (p : P2p) {message : NetEnvelope}
    (hdata : message.typeTag = MessageType.p2pData.tag) :
    (p.onNetworkMessage message).1.receiveQueue =
      p.receiveQueue ++ (p.acceptedPacket message).toList := by
  rw [onNetworkMessage_eq, hdata, if_neg (by decide), if_neg (by decide)]
  cases haddressed : p.addressed message with
  | none =>
    rw [acceptedPacket, haddressed]
    exact (List.append_nil _).symm
  | some origin =>
    obtain ⟨key, payload⟩ := origin
    dsimp only
    rw [onAddressed, if_pos rfl]
    exact onData_receiveQueue p haddressed

end P2p

/-! ## Runs -/

/-- What a receiving call gave to the game: a packet, the size of the buffer, and what was put
there. -/
structure Returned where
  packet : ReceivedPacket
  buffer : UInt32
  bytes : Bytes

/-- An instance, with the packets it has accepted and those it has returned. -/
structure Receiving where
  p2p : P2p
  accepted : List ReceivedPacket
  returned : List Returned := []

/-- A data message, and the two calls. -/
inductive ReceiveInput
  | arrive (message : NetEnvelope) (hdata : message.typeTag = MessageType.p2pData.tag)
  | nextSize (options : GetNextReceivedPacketSizeOptions)
  | receive (options : ReceivePacketOptions)

namespace Receiving

open P2p

/-- Any instance; what is queued already has been accepted. -/
def of (p : P2p) : Receiving where
  p2p := p
  accepted := p.receiveQueue

/-- One thing that happens. -/
def step (s : Receiving) : ReceiveInput → Option Receiving
  | .arrive message _ => some { s with
      p2p := (s.p2p.onNetworkMessage message).1
      accepted := s.accepted ++ (s.p2p.acceptedPacket message).toList }
  | .nextSize _ => some s
  | .receive options => some { s with
      p2p := (s.p2p.receivePacket options).2.1
      returned := s.returned ++ ((s.p2p.receivePacket options).2.2.map fun (packet, bytes) ↦
        { packet, buffer := options.maxDataSizeBytes, bytes }).toList }

/-- The packets of one channel. -/
def onChannel (channel : UInt8) (packets : List ReceivedPacket) : List ReceivedPacket :=
  packets.filter (·.channel = channel)

/-- On each channel, what was returned and then what is queued is what was accepted, and the buffers
hold as much of their packets as fits. -/
structure Conserved (s : Receiving) : Prop where
  inOrder : ∀ channel, onChannel channel (s.returned.map Returned.packet) ++
    onChannel channel s.p2p.receiveQueue = onChannel channel s.accepted
  filled : ∀ r ∈ s.returned, r.bytes = r.packet.data.1.take r.buffer.toNat

theorem onChannel_append (channel : UInt8) (packets packets' : List ReceivedPacket) :
    onChannel channel (packets ++ packets') = onChannel channel packets ++
    onChannel channel packets' :=
  List.filter_append _ _

/-- Taking the first packet that a request fits leaves each channel's packets in order: those in
front of it are of other channels. -/
theorem onChannel_takePacket {requested : Option UInt8} {packets left : List ReceivedPacket}
    {packet : ReceivedPacket} (h : takePacket requested packets = some (packet, left))
    (channel : UInt8) :
    onChannel channel [packet] ++ onChannel channel left = onChannel channel packets := by
  obtain ⟨before, after, rfl, rfl, hfits, hbefore⟩ := takePacket_eq_some.1 h
  have hsplit : onChannel channel (before ++ packet :: after) =
      onChannel channel before ++ (onChannel channel [packet] ++ onChannel channel after) :=
    (onChannel_append channel before ([packet] ++ after)).trans
      (congrArg _ (onChannel_append channel [packet] after))
  rw [hsplit, onChannel_append]
  by_cases hchannel : packet.channel = channel
  · have hnone : onChannel channel before = [] := by
      refine List.filter_eq_nil_iff.2 fun other hother heq ↦ ?_
      have hother' : fits requested other = true := by
        rw [fits] at hfits ⊢
        rw [of_decide_eq_true heq, ← hchannel]
        exact hfits
      rw [hbefore other hother] at hother'
      cases hother'
    rw [hnone]
    rfl
  · have hnone : onChannel channel [packet] = [] := by simp [onChannel, hchannel]
    rw [hnone]
    rfl

/-- What a receiving call takes off the queue it returns, with as much as the buffer holds. -/
theorem receivePacket_cases (p : P2p) (options : ReceivePacketOptions) :
    ((p.receivePacket options).2.2 = none ∧
      (p.receivePacket options).2.1.receiveQueue = p.receiveQueue) ∨
    ∃ packet requested, (p.receivePacket options).2.2 =
        some (packet, packet.data.1.take options.maxDataSizeBytes.toNat) ∧
      takePacket requested p.receiveQueue =
        some (packet, (p.receivePacket options).2.1.receiveQueue) := by
  rw [receivePacket]
  split
  · exact .inl ⟨rfl, rfl⟩
  split
  · exact .inl ⟨rfl, rfl⟩
  dsimp only
  split
  · exact .inl ⟨rfl, rfl⟩
  · rename_i packet left htake
    exact .inr ⟨packet, _, rfl, htake⟩

theorem of_conserved (p : P2p) : (of p).Conserved := ⟨fun _ ↦ rfl, by simp [of]⟩

theorem Conserved.step {s s' : Receiving} (h : s.Conserved) {i : ReceiveInput}
    (hs : s.step i = some s') : s'.Conserved := by
  cases i with
  | arrive message hdata =>
    obtain rfl := Option.some_inj.1 hs
    refine ⟨fun channel ↦ ?_, h.filled⟩
    dsimp only
    rw [onNetworkMessage_receiveQueue s.p2p hdata, onChannel_append, onChannel_append,
      ← List.append_assoc, h.inOrder]
  | nextSize options =>
    obtain rfl := Option.some_inj.1 hs
    exact h
  | receive options =>
    obtain rfl := Option.some_inj.1 hs
    rcases receivePacket_cases s.p2p options with ⟨hnone, hqueue⟩ | ⟨packet,
      requested, hsome, htake⟩
    · refine ⟨fun channel ↦ ?_, fun r hr ↦ h.filled r ?_⟩
      · dsimp only
        rw [hnone, hqueue, Option.map_none, Option.toList_none, List.append_nil]
        exact h.inOrder channel
      · simpa [hnone] using hr
    · refine ⟨fun channel ↦ ?_, fun r hr ↦ ?_⟩
      · dsimp only
        rw [hsome, Option.map_some, Option.toList_some, List.map_append, onChannel_append,
          List.append_assoc]
        have hmoved := onChannel_takePacket htake channel
        exact (congrArg _ hmoved).trans (h.inOrder channel)
      · simp only [hsome, Option.map_some, Option.toList_some, List.mem_append,
          List.mem_singleton] at hr
        rcases hr with hr | rfl
        · exact h.filled r hr
        · rfl

/-- **Each channel is received in order, and the size query says the size of the packet that the
same request receives next.** -/
theorem received_in_order {p : P2p} {s : Receiving} (h : Reaches step always (of p) s) :
    s.Conserved ∧ ∀ (size : GetNextReceivedPacketSizeOptions) (receive : ReceivePacketOptions),
      size.apiVersion = receive.apiVersion → size.localUserId = receive.localUserId →
      size.requestedChannel = receive.requestedChannel →
        (s.p2p.getNextReceivedPacketSize size).1 = (s.p2p.receivePacket receive).1 ∧
        (s.p2p.getNextReceivedPacketSize size).2.map UInt32.toNat =
          (s.p2p.receivePacket receive).2.2.map fun returned ↦ returned.1.data.1.length :=
  ⟨h.invariant (of_conserved p) fun _ _ _ hconserved _ hs ↦ hconserved.step hs,
    fun _ _ hversion huser hchannel ↦ nextSize_agrees s.p2p hversion huser hchannel⟩

/-- Two packets of two channels. -/
def twoChannels : P2p where
  productUserId := [1]
  productId := [9]
  receiveQueue := [
    { peer := [2], socket := ⟨[65], socketNameIsValid_letter⟩, channel := 4,
      data := ⟨[1], by decide⟩ },
    { peer := [2], socket := ⟨[65], socketNameIsValid_letter⟩, channel := 5,
      data := ⟨[2, 3], by decide⟩ }]

/-- The second of them is received first, into a buffer of one byte. -/
theorem received_in_order_second : ∃ s, Reaches step always (of twoChannels) s ∧
    s.returned.map (fun r ↦ (r.packet.channel, r.bytes)) = [(5, [2])] ∧ s.Conserved ∧
    ∀ (size : GetNextReceivedPacketSizeOptions) (receive : ReceivePacketOptions),
      size.apiVersion = receive.apiVersion → size.localUserId = receive.localUserId →
      size.requestedChannel = receive.requestedChannel →
        (s.p2p.getNextReceivedPacketSize size).1 = (s.p2p.receivePacket receive).1 ∧
        (s.p2p.getNextReceivedPacketSize size).2.map UInt32.toNat =
          (s.p2p.receivePacket receive).2.2.map fun returned ↦ returned.1.data.1.length := by
  have hrun : Reaches step always (of twoChannels) _ :=
    .tail (i := .receive { apiVersion := 2, localUserId := some [1], maxDataSizeBytes := 1
                           requestedChannel := some 5 }) .refl trivial rfl
  exact ⟨_, hrun, by decide +kernel, received_in_order hrun⟩

end Receiving
end EosMesh
