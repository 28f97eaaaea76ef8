import EosMesh.P2P.Consent

/-!
# The packets of one connection

What an operation does to the packets of one connection: those it holds back until the connection
opens, those it sends and those that arrive.

What a game sends is what it asks for in the options of its call, and what the code makes of that is
another matter.  So a packet is stated twice: once by the options, with nothing of the code in
between, and once as the code builds it; and it is proved that the second is the first.

* `Parcel` is a packet as the games know it: who sent it, on which socket and channel, and the
  bytes.  `taken` reads it off the options of a call that succeeds, and `ReceivedPacket.parcel` is
  what the other game takes off its queue.  `built` is the packet that the code makes, and
  `built_parcel` that it is the same.
* In the same way `Shuts` says by the options which calls close the connection, and
  `moveOf_eq_close_iff` that these are the ones that do.
* `held` and `packetsTo` are the packets one end holds and sends, and `Passes` says that an
  operation loses, repeats and reorders none of them: what waited goes first, and from the front.
  `call_passes` is every call that does not close the connection, and `onNetworkMessage_passes`
  every message from anybody but the peer.
* `queued` is what went onto the queue of the game, and `queued_onSignal` that a packet which
  arrives on an open connection with room is all that does.
-/

set_option autoImplicit false

namespace EosMesh

open Lib
open Std (TreeMap)

/-! ## Packets as the games know them -/

/-- What one game gives and another takes: who sent it, on which socket and channel, and the
bytes. -/
structure Parcel where
  peer : Bytes
  socket : Bytes
  channel : UInt8
  data : Bytes
  deriving DecidableEq, Repr

/-- A packet that was received, as the game sees it. -/
def ReceivedPacket.parcel (packet : ReceivedPacket) : Parcel where
  peer := packet.peer
  socket := packet.socket.1
  channel := packet.channel
  data := packet.data.1

namespace SendPacketOptions

/-- The packet is for this connection. -/
def Names (options : SendPacketOptions) (key : ConnectionKey) : Prop :=
  options.remoteUserId = some key.peer ∧ options.socketId.map socketNameOf = some key.socket.1

/-- As many bytes of the buffer as the options say. -/
def bytes (options : SendPacketOptions) : Bytes :=
  (options.data.getD []).take options.dataLengthBytes.toNat

/-- A packet, as the game sees it. -/
def parcel (options : SendPacketOptions) : Parcel where
  peer := options.localUserId.getD []
  socket := (options.socketId.map socketNameOf).getD []
  channel := options.channel
  data := options.bytes

/-- One of the two reliable kinds, or a struct without the field, which can ask for no other. -/
def MustArrive (options : SendPacketOptions) : Prop :=
  options.apiVersion < sendPacketWithReliability ∨ options.reliability = .reliableUnordered ∨
    options.reliability = .reliableOrdered

instance (options : SendPacketOptions) (key : ConnectionKey) : Decidable (options.Names key) :=
  inferInstanceAs (Decidable (_ ∧ _))

instance (options : SendPacketOptions) : Decidable options.MustArrive :=
  inferInstanceAs (Decidable (_ ∨ _))

theorem Names.unique {options : SendPacketOptions} {key target : ConnectionKey}
    (h : options.Names key) (h' : options.Names target) : target = key := by
  obtain ⟨hpeer, hsocket⟩ := h
  obtain ⟨hpeer', hsocket'⟩ := h'
  rw [hpeer] at hpeer'
  rw [hsocket] at hsocket'
  have hsame : target.socket = key.socket := Subtype.ext (Option.some.inj hsocket').symm
  cases target
  cases key
  exact congrArg₂ ConnectionKey.mk (Option.some.inj hpeer').symm hsame

end SendPacketOptions

namespace P2p

variable {p p' : P2p} {key target : ConnectionKey}

/-! ## The packets of one connection -/

/-- What waits for the connection to open. -/
def held (p : P2p) (key : ConnectionKey) : List DelayedPacket :=
  (p.connections[key]?).elim [] Connection.delayed

/-- What an outgoing message carries. -/
def Outgoing.packet (o : Outgoing) : DelayedPacket where
  data := o.data
  channel := o.channel
  reliable := o.reliable

/-- The packets among `sends` on one connection. -/
def packetsTo (key : ConnectionKey) (sends : List Outgoing) : List DelayedPacket :=
  (sends.filter fun o ↦ o.signal = .data ∧ o.peer = key.peer ∧ o.socket = key.socket).map
    Outgoing.packet

/-- The packets of the connection go on in order: what waited first, then `packets`, and from the
front of these as many as are sent. -/
def Passes (p : P2p) (key : ConnectionKey) (packets : List DelayedPacket)
    (after : P2p × List Outgoing) : Prop :=
  packetsTo key after.2 ++ after.1.held key = p.held key ++ packets

theorem held_of_lookup {entry : Connection} (h : p.connections[key]? = some entry) :
    p.held key = entry.delayed := by
  rw [held, h]
  rfl

theorem held_of_no_entry (h : p.connections[key]? = none) : p.held key = [] := by
  rw [held, h]
  rfl

theorem held_insert (p : P2p) (target key : ConnectionKey) (entry : Connection) :
    held { p with connections := p.connections.insert target entry } key =
      if target = key then entry.delayed else p.held key := by
  rw [held]
  dsimp only
  rw [lookup_insert]
  split <;> rfl

theorem packetsTo_append (key : ConnectionKey) (sends sends' : List Outgoing) :
    packetsTo key (sends ++ sends') = packetsTo key sends ++ packetsTo key sends' := by
  rw [packetsTo, List.filter_append, List.map_append]
  rfl

theorem packetsTo_cons_control {signal : Signal} (hsignal : signal ≠ .data) (target : ConnectionKey)
    (sends : List Outgoing) :
    packetsTo key (control signal target :: sends) = packetsTo key sends := by
  rw [packetsTo, List.filter_cons_of_neg]
  · rfl
  · simp [control, hsignal]

theorem packetsTo_controls {signal : Signal} (hsignal : signal ≠ .data)
    (targets : List ConnectionKey) : packetsTo key (targets.map (control signal)) = [] := by
  induction targets with
  | nil => rfl
  | cons target targets ih => rw [List.map_cons, packetsTo_cons_control hsignal, ih]

theorem packetsTo_outgoing (packets : List DelayedPacket) (target key : ConnectionKey) :
    packetsTo key (packets.map fun packet ↦ DelayedPacket.outgoing packet target) =
      if target = key then packets else [] := by
  rw [packetsTo, List.filter_map, List.map_map]
  split
  · rename_i hkey
    subst hkey
    rw [List.filter_eq_self.2]
    · exact List.map_id packets
    · exact fun packet _ ↦ decide_eq_true ⟨rfl, rfl, rfl⟩
  · rename_i hkey
    rw [List.filter_eq_nil_iff.2, List.map_nil]
    intro packet _ hmatch
    obtain ⟨-, hpeer, hsocket⟩ := of_decide_eq_true hmatch
    cases target
    cases key
    exact hkey (by congr)

theorem Passes.same (h : p'.held key = p.held key) : p.Passes key [] (p', []) := by
  rw [Passes, h, List.append_nil]
  rfl

/-! ## The calls -/

/-- How a packet arrives at the other end of its connection. -/
def DelayedPacket.arrived (key : ConnectionKey) (packet : DelayedPacket) : ReceivedPacket where
  peer := key.peer
  socket := key.socket
  channel := packet.channel
  data := packet.data

/-- The packet of a call that succeeds on the connection, as the code makes it. -/
def built (p : P2p) (key : ConnectionKey) : Call → List DelayedPacket
  | .sendPacket options =>
    match p.sendTarget options with
    | .error _ => []
    | .ok (target, packet) =>
      if target = key ∧ (p.sendPacket options).1 = .success then [packet] else []
  | _ => []

/-- What a call that succeeds gives the connection to carry, as its options have it. -/
def taken (p : P2p) (key : ConnectionKey) : Call → List Parcel
  | .sendPacket options =>
    if options.Names key ∧ (p.sendPacket options).1 = .success then [options.parcel] else []
  | _ => []

/-- A packet the connection is given must arrive, and may wait; what waits is not cleared. -/
def Dependable (p : P2p) (key : ConnectionKey) : Call → Prop
  | .sendPacket options => options.Names key → (p.sendPacket options).1 = .success →
    options.MustArrive ∧ options.bAllowDelayedDelivery = eosTrue
  | .clearPacketQueue _ => False
  | _ => True

instance (p : P2p) (key : ConnectionKey) (c : Call) : Decidable (p.Dependable key c) :=
  match c with
  | .sendPacket _ => inferInstanceAs (Decidable (_ → _ → _ ∧ _))
  | .clearPacketQueue _ => instDecidableFalse
  | .acceptConnection _ | .closeConnection _ | .closeConnections _ | .receivePacket _
  | .setPacketQueueSize _ | .runFrame => instDecidableTrue

theorem valid_name {id : SocketId} {socket : SocketName} (h : id.valid? = some socket) :
    socketNameOf id = socket.1 := by
  rw [SocketId.valid?] at h
  split at h
  · rw [SocketName.of?] at h
    split at h
    · cases h
      rfl
    · cases h
  · cases h

/-- What passes the checks of `send_packet` is what the options say. -/
theorem sendTarget_ok {options : SendPacketOptions} {packet : DelayedPacket}
    (h : p.sendTarget options = .ok (target, packet)) :
    options.Names target ∧ options.localUserId = some p.productUserId ∧
      packet.channel = options.channel ∧ packet.data.1 = options.bytes ∧
      (packet.reliable = true ↔ options.MustArrive) := by
  rw [sendTarget] at h
  split at h
  · cases h
  · rename_i socket hsocket
    obtain ⟨id, hid, hvalid⟩ := Option.bind_eq_some_iff.1 hsocket
    split at h
    · cases h
    · split at h
      · cases h
      · rename_i peer hpeer
        split at h
        · cases h
        · rename_i hlocal
          split at h
          · cases h
          · cases h
            have hname : socketNameOf id = socket.1 := valid_name hvalid
            refine ⟨⟨hpeer, ?_⟩, by simpa [isLocalUser] using hlocal, rfl, rfl, ?_⟩
            · rw [hid, Option.map_some, hname]
            · simp only [packetMustArrive, decide_eq_true_eq, SendPacketOptions.MustArrive]
              cases options.reliability <;> simp

theorem sendTarget_error {options : SendPacketOptions} {result : EResult}
    (h : p.sendTarget options = .error result) : result ≠ .success := by
  rintro rfl
  rw [sendTarget] at h
  split at h
  · cases h
  · split at h
    · cases h
    · split at h
      · cases h
      · split at h
        · cases h
        · split at h <;> cases h

/-- **The packet the code makes of a call is the one its options describe.** -/
theorem built_parcel (p : P2p) (key : ConnectionKey) (c : Call) :
    (p.built key c).map (fun packet ↦ (DelayedPacket.arrived
      { peer := p.productUserId, socket := key.socket } packet).parcel) = p.taken key c := by
  cases c with
  | sendPacket options =>
    rw [built, taken]
    cases htarget : p.sendTarget options with
    | error result =>
      have hresult : (p.sendPacket options).1 = result := by rw [sendPacket, htarget]
      rw [hresult, if_neg fun h ↦ sendTarget_error htarget h.2]
      rfl
    | ok target =>
      obtain ⟨target, packet⟩ := target
      obtain ⟨hnames, hlocal, hchannel, hdata, -⟩ := sendTarget_ok htarget
      dsimp only
      by_cases hkey : target = key ∧ (p.sendPacket options).1 = .success
      · obtain ⟨rfl, hsuccess⟩ := hkey
        rw [if_pos ⟨rfl, hsuccess⟩, if_pos ⟨hnames, hsuccess⟩]
        simp [ReceivedPacket.parcel, DelayedPacket.arrived, SendPacketOptions.parcel, hlocal,
          hchannel, hdata, hnames.2]
      · rw [if_neg hkey, if_neg fun h ↦ hkey ⟨h.1.unique hnames, h.2⟩]
        rfl
  | _ => rfl

/-- A call closes the connection: there is one, the call succeeds, and its options name the peer,
and this socket or none. -/
def Shuts (p : P2p) (key : ConnectionKey) : Call → Prop
  | .closeConnection options =>
    options.remoteUserId = some key.peer ∧
      (∀ id ∈ options.socketId, socketNameOf id = key.socket.1) ∧
      (p.closeConnection options).1 = .success ∧ p.standing key ≠ none
  | .closeConnections options =>
    options.socketId.map socketNameOf = some key.socket.1 ∧
      (p.closeConnections options).1 = .success ∧ p.standing key ≠ none
  | _ => False

instance (p : P2p) (key : ConnectionKey) (c : Call) : Decidable (p.Shuts key c) :=
  match c with
  | .closeConnection options =>
    inferInstanceAs (Decidable (options.remoteUserId = some key.peer ∧
      (∀ id ∈ options.socketId, socketNameOf id = key.socket.1) ∧
      (p.closeConnection options).1 = .success ∧ p.standing key ≠ none))
  | .closeConnections options =>
    inferInstanceAs (Decidable (options.socketId.map socketNameOf = some key.socket.1 ∧
      (p.closeConnections options).1 = .success ∧ p.standing key ≠ none))
  | .sendPacket .. | .acceptConnection .. | .receivePacket .. | .setPacketQueueSize ..
  | .clearPacketQueue .. | .runFrame => instDecidableFalse

theorem socket_eq_iff {id : SocketId} {socket : SocketName} (h : id.valid? = some socket) :
    key.socket = socket ↔ socketNameOf id = key.socket.1 := by
  rw [valid_name h]
  exact ⟨fun heq ↦ by rw [heq], fun heq ↦ Subtype.ext heq.symm⟩

/-- What passes the checks of `close_connection` is what the options say. -/
theorem closeTarget_ok {options : CloseConnectionOptions} {peer : Bytes}
    {socket : Option SocketName} (h : p.closeTarget options = .ok (peer, socket)) :
    options.remoteUserId = some peer ∧ (socket.all (key.socket = ·) = true ↔
      ∀ id ∈ options.socketId, socketNameOf id = key.socket.1) := by
  rw [closeTarget] at h
  split at h
  · cases h
  · rename_i named hnamed
    split at h
    · cases h
    · split at h
      · cases h
      · rename_i peer' hpeer
        split at h
        · cases h
        · cases h
          refine ⟨hpeer, ?_⟩
          split at hnamed
          · rename_i hid
            cases hnamed
            simp [hid]
          · rename_i id hid
            obtain ⟨socket', hvalid, rfl⟩ := Option.map_eq_some_iff.1 hnamed
            simp [hid, socket_eq_iff hvalid]

theorem closeConnectionsTarget_ok {options : CloseConnectionsOptions} {socket : SocketName}
    (h : p.closeConnectionsTarget options = .ok socket) :
    key.socket = socket ↔ options.socketId.map socketNameOf = some key.socket.1 := by
  rw [closeConnectionsTarget] at h
  split at h
  · cases h
  · rename_i socket' hsocket
    obtain ⟨id, hid, hvalid⟩ := Option.bind_eq_some_iff.1 hsocket
    split at h
    · cases h
    · split at h
      · cases h
      · cases h
        simp [hid, socket_eq_iff hvalid]

theorem closeTarget_error {options : CloseConnectionOptions} {result : EResult}
    (h : p.closeTarget options = .error result) : result ≠ .success := by
  rintro rfl
  rw [closeTarget] at h
  split at h
  · cases h
  · split at h
    · cases h
    · split at h
      · cases h
      · split at h <;> cases h

theorem closeConnectionsTarget_error {options : CloseConnectionsOptions} {result : EResult}
    (h : p.closeConnectionsTarget options = .error result) : result ≠ .success := by
  rintro rfl
  rw [closeConnectionsTarget] at h
  split at h
  · cases h
  · split at h
    · cases h
    · split at h <;> cases h

/-- The calls that close the connection are the ones whose options say so. -/
theorem moveOf_eq_close_iff {c : Call} : p.moveOf key c = .close ↔ p.Shuts key c := by
  have hmove {condition : Prop} [Decidable condition] :
      (if condition then Move.close else Move.idle) = .close ↔ condition := by
    split <;> simp_all
  cases c with
  | closeConnection options =>
    rw [moveOf, Shuts, closeConnection]
    cases htarget : p.closeTarget options with
    | error result =>
      have hresult : result ≠ .success := closeTarget_error htarget
      simp [hresult]
    | ok target =>
      obtain ⟨peer, socket⟩ := target
      obtain ⟨hpeer, hsocket⟩ := @closeTarget_ok p key _ _ _ htarget
      dsimp only
      rw [hmove, hsocket, hpeer]
      simp [eq_comm]
  | closeConnections options =>
    rw [moveOf, Shuts, closeConnections]
    cases htarget : p.closeConnectionsTarget options with
    | error result =>
      have hresult : result ≠ .success := closeConnectionsTarget_error htarget
      simp [hresult]
    | ok socket =>
      dsimp only
      rw [hmove, closeConnectionsTarget_ok htarget]
      simp
  | sendPacket options =>
    refine iff_of_false (fun h ↦ ?_) id
    rw [moveOf] at h
    repeat' split at h
    all_goals cases h
  | acceptConnection options =>
    refine iff_of_false (fun h ↦ ?_) id
    rw [moveOf] at h
    repeat' split at h
    all_goals cases h
  | _ => exact iff_of_false (fun h ↦ by cases h) id

theorem sendOrHold_passes {entry : Connection} (packet : DelayedPacket) {allowDelayed : Bool}
    (hentry : p.connections[target]? = some entry)
    (hdelayed : target = key → (p.sendOrHold target entry packet allowDelayed).1 = .success →
      allowDelayed = true) :
    p.Passes key (if target = key ∧ (p.sendOrHold target entry packet allowDelayed).1 =
    .success then
      [packet] else []) (p.sendOrHold target entry packet allowDelayed).2 := by
  by_cases hkey : target = key
  · subst hkey
    rw [Passes, sendOrHold, held_of_lookup hentry]
    split
    · rename_i hopen
      have hone := packetsTo_outgoing [packet] target target
      rw [List.map_singleton, if_pos rfl] at hone
      simp [hone, held_of_lookup hentry, entry.settled hopen]
    · rename_i hclosed
      have hallowed : allowDelayed = true := by
        by_contra hnot
        exact hnot (hdelayed rfl (by rw [sendOrHold, dif_neg hclosed, if_pos hnot]))
      rw [if_neg (by simp [hallowed])]
      split
      · simp [packetsTo, held_of_lookup hentry]
      · simp [packetsTo, held_insert]
  · rw [if_neg (fun h ↦ hkey h.1), sendOrHold]
    split
    · have hone := packetsTo_outgoing [packet] target key
      rw [List.map_singleton, if_neg hkey] at hone
      rw [Passes, hone, List.append_nil]
      rfl
    · split
      · exact .same rfl
      · split
        · exact .same rfl
        · exact .same ((held_insert _ _ _ _).trans (if_neg hkey))

theorem sendPacket_passes {options : SendPacketOptions}
    (hdependable : p.Dependable key (.sendPacket options)) :
    p.Passes key (p.built key (.sendPacket options)) (p.call (.sendPacket options)) := by
  rw [Dependable] at hdependable
  rw [built, call]
  cases htarget : p.sendTarget options with
  | error result =>
    have hsend : p.sendPacket options = (result, p, []) := by rw [sendPacket, htarget]
    rw [hsend]
    exact .same rfl
  | ok target =>
    obtain ⟨target, packet⟩ := target
    have hdelayed (heq : target = key) (hsuccess : (p.sendPacket options).1 = .success) :
        decide (options.bAllowDelayedDelivery = eosTrue) = true :=
      decide_eq_true (hdependable (heq ▸ (sendTarget_ok htarget).1) hsuccess).2
    dsimp only
    cases hentry : p.connections[target]? with
    | some entry =>
      have hsend : p.sendPacket options =
          p.sendOrHold target entry packet (decide (options.bAllowDelayedDelivery = eosTrue)) := by
        rw [sendPacket, htarget]
        dsimp only
        rw [hentry]
      rw [hsend] at hdelayed ⊢
      exact sendOrHold_passes packet hentry hdelayed
    | none =>
      by_cases hauto : disablesAutoAccept options = true
      · have hsend : p.sendPacket options = (.noConnection, p, []) := by
          rw [sendPacket, htarget]
          dsimp only
          rw [hentry]
          exact if_pos hauto
        rw [hsend, if_neg (fun h ↦ by cases h.2)]
        exact .same rfl
      · set asked : Connection := { state := .connectionPending } with hasked
        set q : P2p := { p with connections := p.connections.insert target asked } with hq
        have hsend : p.sendPacket options =
            ((q.sendOrHold target asked packet
              (decide (options.bAllowDelayedDelivery = eosTrue))).1,
              (q.sendOrHold target asked packet
                (decide (options.bAllowDelayedDelivery = eosTrue))).2.1,
              control .request target :: (q.sendOrHold target asked packet
                (decide (options.bAllowDelayedDelivery = eosTrue))).2.2) := by
          rw [sendPacket, htarget]
          dsimp only
          rw [hentry]
          exact if_neg hauto
        have hinserted : q.connections[target]? = some asked := by
          rw [hq]
          dsimp only
          rw [lookup_insert, if_pos rfl]
        rw [hsend] at hdelayed ⊢
        have hpasses := sendOrHold_passes packet hinserted hdelayed
        have hheld : q.held key = p.held key := by
          rw [hq, held_insert]
          split
          · rename_i hkey
            rw [← hkey, held_of_no_entry hentry]
          · rfl
        rw [Passes, hheld] at hpasses
        rw [Passes, packetsTo_cons_control (by decide)]
        exact hpasses

/-- The connection opens, and what waited goes out behind `signal`, if any. -/
theorem establish_passes {entry : Connection} (hentry : p.connections[target]? = some entry) :
    p.Passes key [] (p.establish target entry) := by
  have hheld : (p.establish target entry).1.held key = if target = key then [] else p.held key :=
    held_insert _ _ _ _
  rw [Passes, hheld, establish, flushDelayed, packetsTo_outgoing, List.append_nil]
  split
  · rename_i hkey
    subst hkey
    rw [List.append_nil, held_of_lookup hentry]
  · rfl

theorem Passes.behind {packets : List DelayedPacket} {sends : List Outgoing} {signal : Signal}
    (h : p.Passes key packets (p', sends)) (hsignal : signal ≠ .data) :
    p.Passes key packets (p', control signal target :: sends) := by
  rw [Passes, packetsTo_cons_control hsignal]
  exact h

theorem acceptConnection_passes (options : AcceptConnectionOptions) :
    p.Passes key [] (p.call (.acceptConnection options)) := by
  rw [call, acceptConnection]
  split
  · exact .same rfl
  · rename_i target htarget
    split
    · rename_i hnone
      refine .behind (.same ?_) (by decide)
      rw [held_insert]
      split
      · rename_i hkey
        rw [← hkey, held_of_no_entry hnone]
      · rfl
    · rename_i entry hentry
      split
      · exact .same rfl
      · exact (establish_passes hentry).behind (by decide)
      · exact .behind (.same rfl) (by decide)

/-- Closing other connections. -/
theorem closeAll_passes {closes : ConnectionKey → Bool} {q : P2p}
    (hq : q.connections = (p.closeAll closes).1.connections) (hkept : closes key = false) :
    p.Passes key [] (q, (p.closeAll closes).2.map (control .close)) := by
  rw [Passes, packetsTo_controls (by decide), List.append_nil, held, hq, closeAll]
  dsimp only
  rw [foldl_queueEvent_connections, lookup_filter p.connections (fun key ↦ ¬ closes key)]
  simp [hkept, held]

theorem foldl_flushPackets_connections (socket : Bytes) (keys : List ConnectionKey) (p : P2p) :
    (keys.foldl (fun p key ↦ p.flushPackets key.peer socket) p).connections = p.connections := by
  induction keys generalizing p with
  | nil => rfl
  | cons key keys ih => exact ih (p.flushPackets key.peer socket)

/-- **A call loses, repeats and reorders no packet of a connection that it does not close.** -/
theorem call_passes {c : Call} (hdependable : p.Dependable key c)
    (hclose : p.moveOf key c ≠ .close) :
    p.Passes key (p.built key c) (p.call c) := by
  have hclosed {closes : ConnectionKey → Bool} {q : P2p}
      (hq : q.connections = (p.closeAll closes).1.connections)
      (hkept : closes key = true → p.standing key = none) :
      p.Passes key [] (q, (p.closeAll closes).2.map (control .close)) := by
    by_cases hcloses : closes key = true
    · -- It closes no connection when there is none.
      have hnone : p.connections[key]? = none := Option.map_eq_none_iff.1 (hkept hcloses)
      rw [Passes, packetsTo_controls (by decide), List.append_nil, held_of_no_entry hnone, held, hq,
        closeAll]
      dsimp only
      rw [foldl_queueEvent_connections, lookup_filter p.connections (fun key ↦ ¬ closes key)]
      simp [hcloses]
    · exact closeAll_passes hq (by simpa using hcloses)
  cases c with
  | sendPacket options => exact sendPacket_passes hdependable
  | acceptConnection options => exact acceptConnection_passes options
  | closeConnection options =>
    rw [moveOf] at hclose
    rw [call, closeConnection]
    split
    · exact .same rfl
    · rename_i peer socket htarget
      rw [htarget] at hclose
      refine hclosed rfl fun hcloses ↦ ?_
      obtain ⟨hpeer, hsocket⟩ := of_decide_eq_true hcloses
      by_contra hstanding
      exact hclose (if_pos ⟨hpeer, hsocket, hstanding⟩)
  | closeConnections options =>
    rw [moveOf] at hclose
    rw [call, closeConnections]
    split
    · exact .same rfl
    · rename_i socket htarget
      rw [htarget] at hclose
      refine hclosed (foldl_flushPackets_connections _ _ _) fun hcloses ↦ ?_
      by_contra hstanding
      exact hclose (if_pos ⟨of_decide_eq_true hcloses, hstanding⟩)
  | receivePacket options =>
    refine .same ?_
    rw [receivePacket]
    split
    · rfl
    · split
      · rfl
      · dsimp only
        split <;> rfl
  | setPacketQueueSize options =>
    refine .same ?_
    rw [setPacketQueueSize]
    split <;> rfl
  | clearPacketQueue options => exact hdependable.elim
  | runFrame => exact .same rfl

theorem built_reliable {c : Call} (hdependable : p.Dependable key c) :
    ∀ packet ∈ p.built key c, packet.reliable = true := by
  intro packet hpacket
  cases c with
  | sendPacket options =>
    rw [built] at hpacket
    cases htarget : p.sendTarget options with
    | error result =>
      rw [htarget] at hpacket
      cases hpacket
    | ok target =>
      rw [htarget] at hpacket
      dsimp only at hpacket
      split at hpacket
      · rename_i hkey
        obtain rfl := List.mem_singleton.1 hpacket
        obtain ⟨hnames, -, -, -, hreliable⟩ := sendTarget_ok htarget
        exact hreliable.2 (hdependable (hkey.1 ▸ hnames) hkey.2).1
      · cases hpacket
  | _ => cases hpacket

/-! ## What arrives -/

theorem onAsked_held (hnone : p.connections[target]? = none) :
    (p.onAsked target).held key = p.held key := by
  refine (held_insert p target key { state := .connectionRequested }).trans ?_
  split
  · rename_i hkey
    rw [← hkey, held_of_no_entry hnone]
  · rfl

theorem onData_passes (channel : Int32) (data : Bytes) :
    p.Passes key [] (p.onData target channel data, []) := by
  refine .same ?_
  rw [onData]
  split
  · rfl
  · split
    · split
      · rename_i hnone
        exact onAsked_held hnone
      · split
        · rfl
        · split <;> rfl
    · rfl

theorem onConnectRequest_passes : p.Passes key [] (p.onConnectRequest target) := by
  rw [onConnectRequest]
  split
  · rename_i hnone
    exact .same (onAsked_held hnone)
  · rename_i entry hentry
    split
    · exact .same rfl
    · exact (establish_passes hentry).behind (by decide)
    · exact .behind (.same rfl) (by decide)

theorem onConnectResponse_passes : p.Passes key [] (p.onConnectResponse target) := by
  rw [onConnectResponse]
  split
  · exact .same rfl
  · rename_i entry hentry
    split
    · exact establish_passes hentry
    · exact .same rfl

/-- The close of another connection. -/
theorem onConnectionClose_passes (hother : target ≠ key) :
    p.Passes key [] (p.onConnectionClose target, []) := by
  refine .same ?_
  rw [onConnectionClose]
  split
  · rfl
  · show (Option.elim (p.connections.erase target)[key]? [] Connection.delayed) = _
    rw [lookup_erase, if_neg hother]
    rfl

theorem onSignal_passes {o : Outgoing} (hclose : o.signal = .close → target ≠ key) :
    p.Passes key [] (p.onSignal target o) := by
  rw [onSignal]
  cases hsignal : o.signal with
  | data => exact onData_passes _ _
  | request => exact onConnectRequest_passes
  | response => exact onConnectResponse_passes
  | close => exact onConnectionClose_passes (hclose hsignal)

theorem addressed_peer {message : NetEnvelope} {payload : P2pData}
    (h : p.addressed message = some (target, payload)) : target.peer = message.sourceId := by
  rw [addressed] at h
  split at h
  · cases h
  · obtain ⟨read, -, hread⟩ := Option.bind_eq_some_iff.1 h
    obtain ⟨socket, -, hsocket⟩ := Option.map_eq_some_iff.1 hread
    cases hsocket
    rfl

/-- A message from anybody but the peer. -/
theorem onNetworkMessage_passes {message : NetEnvelope} (hsource : message.sourceId ≠ key.peer) :
    p.Passes key [] (p.onNetworkMessage message) := by
  rw [onNetworkMessage_eq]
  split
  · refine .same ?_
    rw [held, onPeerDisconnected]
    show Option.elim (TreeMap.filter _ (List.foldl _ p _).connections)[key]? [] _ = _
    rw [foldl_queueEvent_connections, lookup_filter p.connections
      (fun key ↦ key.peer ≠ message.sourceId), if_pos (by simpa using Ne.symm hsource)]
    rfl
  · split
    · exact .same rfl
    · split
      · exact .same rfl
      · rename_i target payload haddressed
        have hother : target ≠ key := by
          rintro rfl
          exact hsource (addressed_peer haddressed).symm
        rw [onAddressed]
        split
        · exact onData_passes _ _
        · split
          · exact onConnectRequest_passes
          · split
            · exact onConnectResponse_passes
            · split
              · exact onConnectionClose_passes hother
              · exact .same rfl

/-! ## What is received -/

theorem exceeds_iff {arriving : Nat} :
    exceeds p.incomingQueueMaxBytes p.incomingQueuedBytes arriving = true ↔
      p.incomingQueueMaxBytes ≠ maxQueueSizeUnlimited ∧ p.incomingQueueMaxBytes.toNat <
        (p.receiveQueue.map fun packet ↦ packet.data.1.length).sum + arriving := by
  simp [exceeds, incomingQueuedBytes]

/-- What went onto the queue on the connection. -/
def queued (key : ConnectionKey) (p p' : P2p) : List ReceivedPacket :=
  (p'.receiveQueue.drop p.receiveQueue.length).filter fun packet ↦ packet.key = key

theorem queued_of_sublist {p' : P2p} (h : p'.receiveQueue.Sublist p.receiveQueue) :
    queued key p p' = [] := by
  rw [queued, List.drop_eq_nil_of_le h.length_le, List.filter_nil]

theorem queued_of_append {p' : P2p} {packet : ReceivedPacket}
    (h : p'.receiveQueue = p.receiveQueue ++ [packet]) (hkey : packet.key = key) :
    queued key p p' = [packet] := by
  rw [queued, h, List.drop_left]
  simp [hkey]

theorem queued_of_append_other {p' : P2p} {packet : ReceivedPacket}
    (h : p'.receiveQueue = p.receiveQueue ++ [packet]) (hother : packet.key ≠ key) :
    queued key p p' = [] := by
  rw [queued, h, List.drop_left]
  simp [hother]

theorem flushPackets_sublist (p : P2p) (peer socket : Bytes) :
    (p.flushPackets peer socket).receiveQueue.Sublist p.receiveQueue := List.filter_sublist

theorem call_sublist (p : P2p) (c : Call) : (p.call c).1.receiveQueue.Sublist p.receiveQueue := by
  cases c with
  | sendPacket options =>
    rw [call, sendPacket]
    split
    · exact .refl _
    · dsimp only
      split
      · rw [sendOrHold_receiveQueue]
      · split
        · exact .refl _
        · rw [sendOrHold_receiveQueue]
  | acceptConnection options =>
    rw [call, acceptConnection]
    split
    · exact .refl _
    · split
      · exact .refl _
      · split <;> exact .refl _
  | closeConnection options =>
    rw [call, closeConnection]
    split
    · exact .refl _
    · refine (flushPackets_sublist _ _ _).trans ?_
      rw [closeAll, foldl_queueEvent_receiveQueue]
  | closeConnections options =>
    have hall (socket : Bytes) (keys : List ConnectionKey) (p : P2p) :
        (keys.foldl (fun p key ↦ p.flushPackets key.peer socket) p).receiveQueue.Sublist
          p.receiveQueue := by
      induction keys generalizing p with
      | nil => exact .refl _
      | cons key keys ih => exact (ih _).trans (flushPackets_sublist _ _ _)
    rw [call, closeConnections]
    split
    · exact .refl _
    · refine (hall _ _ _).trans ?_
      rw [closeAll, foldl_queueEvent_receiveQueue]
  | receivePacket options =>
    rw [call, receivePacket]
    split
    · exact .refl _
    · split
      · exact .refl _
      · dsimp only
        split
        · exact .refl _
        · rename_i htake
          exact takePacket_sublist htake
  | setPacketQueueSize options =>
    rw [call, setPacketQueueSize]
    split <;> exact .refl _
  | clearPacketQueue options =>
    rw [call, clearPacketQueue]
    split
    · exact .refl _
    · split
      · exact .refl _
      · exact flushPackets_sublist _ _ _
  | runFrame => exact .refl _

theorem channel_eq (channel : UInt8) :
    ¬ (Int32.ofNat channel.toNat < 0 ∨ Int32.ofNat channel.toNat > maxChannel) ∧
      UInt8.ofNat (Int32.ofNat channel.toNat).toInt.toNat = channel := by
  revert channel
  decide +kernel

/-- A packet of another connection. -/
theorem queued_onData_other (hother : target ≠ key) (channel : Int32) (data : Bytes) :
    queued key p (p.onData target channel data) = [] := by
  rw [onData]
  split
  · exact queued_of_sublist (.refl _)
  · split
    · split
      · exact queued_of_sublist (.refl _)
      · split
        · exact queued_of_sublist (.refl _)
        · split
          · exact queued_of_sublist (.refl _)
          · exact queued_of_append_other rfl hother
    · exact queued_of_sublist (.refl _)

/-- A packet of this one, which is open and has room for it. -/
theorem queued_onData {o : Outgoing} (hstanding : p.standing key = some .connectionOpen)
    (hroom : exceeds p.incomingQueueMaxBytes p.incomingQueuedBytes o.data.1.length = false) :
    queued key p (p.onData key (Int32.ofNat o.channel.toNat) o.data.1) =
      [DelayedPacket.arrived key (Outgoing.packet o)] := by
  obtain ⟨hchannel, hsame⟩ := channel_eq o.channel
  obtain ⟨entry, hentry, hstate⟩ := Option.map_eq_some_iff.1 hstanding
  rw [onData, if_neg hchannel, dif_pos o.data.2, hentry]
  dsimp only
  rw [if_neg (fun h ↦ h hstate), if_neg (by simp [hroom]), hsame]
  exact queued_of_append rfl rfl

theorem queued_onConnectRequest : queued key p (p.onConnectRequest target).1 = [] := by
  refine queued_of_sublist ?_
  rw [onConnectRequest]
  split
  · exact .refl _
  · split <;> exact .refl _

theorem queued_onConnectResponse : queued key p (p.onConnectResponse target).1 = [] := by
  refine queued_of_sublist ?_
  rw [onConnectResponse]
  split
  · exact .refl _
  · split <;> exact .refl _

theorem queued_onConnectionClose : queued key p (p.onConnectionClose target) = [] := by
  refine queued_of_sublist ?_
  rw [onConnectionClose]
  split
  · exact .refl _
  · exact flushPackets_sublist _ _ _

/-- A packet of this connection goes onto the queue, and nothing else does. -/
theorem queued_onSignal {o : Outgoing}
    (hdata : o.signal = .data → target = key → p.standing key = some .connectionOpen ∧
      exceeds p.incomingQueueMaxBytes p.incomingQueuedBytes o.data.1.length = false) :
    queued key p (p.onSignal target o).1 =
      if o.signal = .data ∧ target = key then [DelayedPacket.arrived key (Outgoing.packet o)]
      else [] := by
  rw [onSignal]
  cases hsignal : o.signal with
  | data =>
    by_cases hkey : target = key
    · obtain ⟨hstanding, hroom⟩ := hdata hsignal hkey
      rw [if_pos ⟨rfl, hkey⟩, hkey]
      exact queued_onData hstanding hroom
    · rw [if_neg (fun h ↦ hkey h.2)]
      exact queued_onData_other hkey _ _
  | request => exact queued_onConnectRequest
  | response => exact queued_onConnectResponse
  | close => exact queued_onConnectionClose

theorem queued_foreign {message : NetEnvelope} (hsource : message.sourceId ≠ key.peer) :
    queued key p (p.onNetworkMessage message).1 = [] := by
  rw [onNetworkMessage_eq]
  split
  · refine queued_of_sublist ((flushPackets_sublist _ _ _).trans ?_)
    rw [foldl_queueEvent_receiveQueue]
  · split
    · exact queued_of_sublist (.refl _)
    · split
      · exact queued_of_sublist (.refl _)
      · rename_i target payload haddressed
        have hother : target ≠ key := by
          rintro rfl
          exact hsource (addressed_peer haddressed).symm
        rw [onAddressed]
        split
        · exact queued_onData_other hother _ _
        · split
          · exact queued_onConnectRequest
          · split
            · exact queued_onConnectResponse
            · split
              · exact queued_onConnectionClose
              · exact queued_of_sublist (.refl _)

end P2p
end EosMesh
