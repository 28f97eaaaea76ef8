import EosMesh.P2P.Operations

/-!
# One connection, as its state goes

What the P2P interface does, looked at through one connection: its standing, and the signals sent
about it.  A game's call moves it in one of five ways, and an arriving signal moves it by `react`;
the packets, limits and queues around it make no difference to either.

This is the place where the code of `P2P.Operations` is taken apart.  Everything about two nodes
rests on what is said here, and looks at the calls and the handlers no more.

* `standing` and `signalsTo` are the view; `Move` and `moveOf` what a call comes to in it: nothing,
  asking, agreeing, sending or closing.  `Move.next` is where that leads, and `Move.control` what is
  said of it to the other end.
* `react` and `reply` are the same for an arriving signal.
* `Tells` says what is sent beside these: packets only, behind the control messages, and only on a
  connection that is open by then.
* `call_spec` and `onSignal_spec` say that the calls and the handlers do just that.  They are proved
  call by call and signal by signal, from `CallSpec.idle`, `CallSpec.closes`, `SignalSpec.opens` and
  `SignalSpec.unanswered`, which are the few ways in which a connection can be touched.
* `addressed` is the connection that a message is about, and `onNetworkMessage_undisturbed` that a
  message from one peer is nothing to the connections with another.
-/

set_option autoImplicit false

namespace EosMesh

open Lib
open Std (TreeMap)

/-- Where a connection stands; `none` when there is no entry. -/
abbrev Standing := Option ConnectionState

/-! ## What a call comes to -/

/-- What a call does to one connection. -/
inductive Move
  | idle
  /-- Ask the peer, for the first time or again. -/
  | ask
  /-- Agree to what the peer asked. -/
  | agree
  /-- Send on an open connection. -/
  | transmit
  | close
  deriving DecidableEq, Repr

/-- Where a move can be made. -/
def Move.Allowed : Move → Standing → Prop
  | idle, _ => True
  | ask, standing => standing = none ∨ standing = some .connectionPending
  | agree, standing => standing = some .connectionRequested
  | transmit, standing => standing = some .connectionOpen
  | close, standing => standing ≠ none

/-- Where it leads. -/
def Move.next : Move → Standing → Standing
  | idle, standing => standing
  | ask, _ => some .connectionPending
  | agree, _ => some .connectionOpen
  | transmit, standing => standing
  | close, _ => none

/-- What it tells the other end, beside packets. -/
def Move.control : Move → List Signal
  | ask => [.request]
  | agree => [.response]
  | close => [.close]
  | idle | transmit => []

/-- Where an arriving signal leads. -/
def react : Standing → Signal → Standing
  | none, .request | none, .data => some .connectionRequested
  | some .connectionPending, .request | some .connectionPending, .response => some .connectionOpen
  | _, .close => none
  | standing, _ => standing

/-- What it is answered with, beside packets. -/
def reply : Standing → Signal → List Signal
  | some .connectionPending, .request | some .connectionOpen, .request => [.response]
  | _, _ => []

/-- `sent` is `control`, and packets only behind it, and only on a connection that is open by
then. -/
def Tells (next : Standing) (control sent : List Signal) : Prop :=
  ∃ packets, sent = control ++ List.replicate packets .data ∧
    (packets ≠ 0 → next = some .connectionOpen)

theorem Tells.nothing (next : Standing) (control : List Signal) : Tells next control control :=
  ⟨0, by simp, fun h ↦ absurd rfl h⟩

namespace P2p

/-- What the table has of a connection. -/
def standing (p : P2p) (key : ConnectionKey) : Standing := (p.connections[key]?).map (·.state)

/-- The signals among `sends` about one connection. -/
def signalsTo (key : ConnectionKey) (sends : List Outgoing) : List Signal :=
  (sends.filter fun o ↦ o.peer = key.peer ∧ o.socket = key.socket).map (·.signal)

/-- What a call comes to on connection `key`. -/
def moveOf (p : P2p) (key : ConnectionKey) : Call → Move
  | .sendPacket options =>
    match p.sendTarget options with
    | .error _ => .idle
    | .ok (target, _) =>
      if target = key then
        match p.standing key with
        | none => if disablesAutoAccept options then .idle else .ask
        | some .connectionOpen => .transmit
        | some _ => .idle
      else .idle
  | .acceptConnection options =>
    match p.acceptTarget options with
    | .error _ => .idle
    | .ok target =>
      if target = key then
        match p.standing key with
        | some .connectionOpen => .idle
        | some .connectionRequested => .agree
        | none | some .connectionPending => .ask
      else .idle
  | .closeConnection options =>
    match p.closeTarget options with
    | .error _ => .idle
    | .ok (peer, socket) =>
      if key.peer = peer ∧ socket.all (key.socket = ·) ∧
        p.standing key ≠ none then .close else .idle
  | .closeConnections options =>
    match p.closeConnectionsTarget options with
    | .error _ => .idle
    | .ok socket => if key.socket = socket ∧ p.standing key ≠ none then .close else .idle
  | .receivePacket _ => .idle
  | .setPacketQueueSize _ => .idle
  | .clearPacketQueue _ => .idle
  | .runFrame => .idle

variable {p : P2p} {key key' : ConnectionKey}

/-! ## The view, step by step -/

theorem standing_of_lookup {entry : Connection} (h : p.connections[key]? = some entry) :
    p.standing key = some entry.state := by
  rw [standing, h, Option.map_some]

theorem standing_of_no_entry (h : p.connections[key]? = none) : p.standing key = none := by
  rw [standing, h, Option.map_none]

theorem standing_insert (p : P2p) (key key' : ConnectionKey) (entry : Connection) :
    ({ p with connections := p.connections.insert key entry } : P2p).standing key' =
      if key = key' then some entry.state else p.standing key' := by
  rw [standing]
  dsimp only
  rw [lookup_insert]
  split <;> rfl

/-- An insertion that keeps the state of an entry keeps every standing. -/
theorem standing_insert_same {entry entry' : Connection} (h : p.connections[key]? = some entry)
    (hstate : entry'.state = entry.state) (key' : ConnectionKey) :
    ({ p with connections := p.connections.insert key entry' } : P2p).standing key' =
    p.standing key' := by
  rw [standing_insert]
  split
  · rename_i heq
    rw [← heq, standing_of_lookup h, hstate]
  · rfl

theorem standing_filter (p : P2p) (keeps : ConnectionKey → Bool) (key : ConnectionKey) :
    ({ p with connections := p.connections.filter fun key _ ↦ keeps key } : P2p).standing key =
      if keeps key = true then p.standing key else none := by
  rw [standing]
  dsimp only
  rw [lookup_filter]
  split <;> rfl

theorem standing_erase (p : P2p) (key key' : ConnectionKey) :
    ({ p with connections := p.connections.erase key } : P2p).standing key' =
      if key = key' then none else p.standing key' := by
  rw [standing]
  dsimp only
  rw [lookup_erase]
  split <;> rfl

theorem queueEvent_standing (p : P2p) (type : EventKind) (key key' : ConnectionKey)
    (reason : ClosedReason) : (p.queueEvent type key reason).standing key' = p.standing key' := rfl

theorem flushPackets_standing (p : P2p) (peer socket : Bytes) (key : ConnectionKey) :
    (p.flushPackets peer socket).standing key = p.standing key := rfl

theorem discardDelayed_standing (p : P2p) (peer socket : Bytes) (key : ConnectionKey) :
    (p.discardDelayed peer socket).standing key = p.standing key := by
  rw [standing, standing, discardDelayed]
  dsimp only
  rw [TreeMap.getElem?_map, Option.map_map]
  congr 1
  funext entry
  dsimp only [Function.comp_apply]
  split <;> rfl

theorem foldl_queueEvent_connections (type : EventKind) (reason : ClosedReason)
    (keys : List ConnectionKey) (p : P2p) :
    (keys.foldl (fun p key ↦ p.queueEvent type key reason) p).connections = p.connections := by
  induction keys generalizing p with
  | nil => rfl
  | cons key keys ih => exact ih (p.queueEvent type key reason)

theorem foldl_flushPackets_standing (socket : Bytes) (keys : List ConnectionKey) (p : P2p)
    (key : ConnectionKey) :
    (keys.foldl (fun p key ↦ p.flushPackets key.peer socket) p).standing key = p.standing key := by
  induction keys generalizing p with
  | nil => rfl
  | cons first keys ih => exact ih (p.flushPackets first.peer socket)

/-! ## The signals, step by step -/

theorem signalsTo_cons (o : Outgoing) (sends : List Outgoing) : signalsTo key (o :: sends) =
    (if o.peer = key.peer ∧ o.socket = key.socket then [o.signal] else []) ++
      signalsTo key sends := by
  rw [signalsTo, List.filter_cons]
  simp only [decide_eq_true_eq]
  split <;> rfl

theorem signalsTo_control (signal : Signal) (key key' : ConnectionKey) (sends : List Outgoing) :
    signalsTo key' (control signal key :: sends) =
      (if key = key' then [signal] else []) ++ signalsTo key' sends := by
  rw [signalsTo_cons]
  congr 1
  refine if_congr ?_ rfl rfl
  constructor
  · rintro ⟨hpeer, hsocket⟩
    cases key
    cases key'
    congr
  · rintro rfl
    exact ⟨rfl, rfl⟩

/-- What a connection held goes out as packets of its own. -/
theorem signalsTo_flushDelayed (key key' : ConnectionKey) (entry : Connection) :
    signalsTo key' (flushDelayed key entry) =
      if key = key' then List.replicate entry.delayed.length .data else [] := by
  rw [flushDelayed]
  induction entry.delayed with
  | nil => simp [signalsTo]
  | cons packet packets ih =>
    rw [List.map_cons, signalsTo_cons, ih]
    by_cases heq : key = key'
    · subst heq
      rw [if_pos ⟨rfl, rfl⟩, if_pos rfl, if_pos rfl]
      rfl
    · rw [if_neg heq, if_neg heq, if_neg]
      · rfl
      · rintro ⟨hpeer, hsocket⟩
        cases key
        cases key'
        exact heq (congrArg₂ ConnectionKey.mk hpeer hsocket)

theorem signalsTo_closes {keys : List ConnectionKey} (h : keys.Nodup) :
    signalsTo key (keys.map (control .close)) = if key ∈ keys then [.close] else [] := by
  induction keys with
  | nil => rfl
  | cons first keys ih =>
    obtain ⟨hfirst, hkeys⟩ := List.nodup_cons.1 h
    rw [List.map_cons, signalsTo_control, ih hkeys]
    by_cases heq : first = key
    · subst heq
      rw [if_pos rfl, if_neg hfirst, if_pos List.mem_cons_self]
      rfl
    · rw [if_neg heq, List.nil_append]
      refine if_congr ?_ rfl rfl
      rw [List.mem_cons]
      exact ⟨.inr, fun h ↦ h.resolve_left (Ne.symm heq)⟩

/-! ## Calls -/

theorem sendOrHold_standing {entry : Connection} {packet : DelayedPacket} {allowDelayed : Bool}
    (h : p.connections[key]? = some entry) (key' : ConnectionKey) :
    (p.sendOrHold key entry packet allowDelayed).2.1.standing key' = p.standing key' := by
  rw [sendOrHold]
  split
  · rfl
  · split
    · rfl
    · split
      · rfl
      · refine standing_insert_same h ?_ key'
        rfl

theorem sendOrHold_signals {entry : Connection} {packet : DelayedPacket} {allowDelayed : Bool}
    (key' : ConnectionKey) :
    signalsTo key' (p.sendOrHold key entry packet allowDelayed).2.2 =
      if key = key' ∧ entry.state = .connectionOpen then [.data] else [] := by
  rw [sendOrHold]
  split
  · rename_i hopen
    have hone := signalsTo_flushDelayed key key'
      { state := .connectionPending, delayed := [packet] }
    rw [flushDelayed, List.map_singleton] at hone
    dsimp only
    rw [hone]
    simp only [List.length_singleton, List.replicate_one, hopen, and_true]
  · rename_i hclosed
    have hnone : ¬ (key = key' ∧ entry.state = .connectionOpen) := fun hc ↦ hclosed hc.2
    rw [if_neg hnone]
    split
    · rfl
    · split <;> rfl

/-- What a call does to one connection is the move it comes to there. -/
structure CallSpec (p : P2p) (key : ConnectionKey) (c : Call) : Prop where
  allowed : (p.moveOf key c).Allowed (p.standing key)
  next : (p.call c).1.standing key = (p.moveOf key c).next (p.standing key)
  tells : Tells ((p.call c).1.standing key) (p.moveOf key c).control (signalsTo key (p.call c).2)

/-- A call that comes to nothing here. -/
theorem CallSpec.idle {c : Call} (hmove : p.moveOf key c = .idle)
    (hnext : (p.call c).1.standing key = p.standing key)
    (htells : signalsTo key (p.call c).2 = []) : CallSpec p key c := by
  refine ⟨?_, ?_, ?_⟩
  · rw [hmove]
    trivial
  · rw [hmove]
    exact hnext
  · rw [hmove, htells]
    exact .nothing _ _

/-- A packet for a connection there is goes out, or waits for it to open. -/
theorem sendPacket_known {options : SendPacketOptions} {target : ConnectionKey}
    {packet : DelayedPacket} {entry : Connection}
    (htarget : p.sendTarget options = .ok (target, packet))
    (hentry : p.connections[target]? = some entry) : CallSpec p key (.sendPacket options) := by
  have hcall : p.call (.sendPacket options) = (p.sendOrHold target entry packet
      (decide (options.bAllowDelayedDelivery = eosTrue))).2 := by
    rw [call, sendPacket, htarget]
    dsimp only
    rw [hentry]
  have hstanding := fun k ↦ @sendOrHold_standing p target entry packet
    (decide (options.bAllowDelayedDelivery = eosTrue)) hentry k
  have hsignals := fun k ↦ @sendOrHold_signals p target entry packet
    (decide (options.bAllowDelayedDelivery = eosTrue)) k
  by_cases hkey : target = key ∧ entry.state = .connectionOpen
  · obtain ⟨rfl, hopen⟩ := hkey
    have hmove : p.moveOf target (.sendPacket options) = .transmit := by
      rw [moveOf, htarget]
      dsimp only
      rw [if_pos rfl, standing_of_lookup hentry, hopen]
    refine ⟨?_, ?_, ?_⟩
    · rw [hmove, standing_of_lookup hentry, hopen]
      rfl
    · rw [hmove, hcall, hstanding]
      rfl
    · rw [hmove, hcall, hsignals, if_pos ⟨rfl, hopen⟩, hstanding, standing_of_lookup hentry,
        hopen]
      exact ⟨1, rfl, fun _ ↦ rfl⟩
  · refine .idle ?_ (by rw [hcall, hstanding]) (by rw [hcall, hsignals, if_neg hkey])
    rw [moveOf, htarget]
    dsimp only
    split
    · rename_i heq
      subst heq
      rw [standing_of_lookup hentry]
      cases hstate : entry.state with
      | connectionOpen => exact absurd ⟨rfl, hstate⟩ hkey
      | connectionRequested => rfl
      | connectionPending => rfl
    · rfl

/-- The first packet asks for a connection, unless the game does not want that. -/
theorem sendPacket_first {options : SendPacketOptions} {target : ConnectionKey}
    {packet : DelayedPacket} (htarget : p.sendTarget options = .ok (target, packet))
    (hentry : p.connections[target]? = none) : CallSpec p key (.sendPacket options) := by
  by_cases hauto : disablesAutoAccept options = true
  · have hcall : p.call (.sendPacket options) = (p, []) := by
      rw [call, sendPacket, htarget]
      dsimp only
      rw [hentry]
      dsimp only
      rw [if_pos hauto]
    refine .idle ?_ (by rw [hcall]) (by rw [hcall]; rfl)
    rw [moveOf, htarget]
    dsimp only
    split
    · rename_i heq
      subst heq
      rw [standing_of_no_entry hentry]
    · rfl
  · set asked : Connection := { state := .connectionPending } with hasked
    set p' : P2p := { p with connections := p.connections.insert target asked } with hp'
    have hentry' : p'.connections[target]? = some asked := by
      rw [hp']
      dsimp only
      rw [lookup_insert, if_pos rfl]
    have hcall : p.call (.sendPacket options) =
        ((p'.sendOrHold target asked packet
            (decide (options.bAllowDelayedDelivery = eosTrue))).2.1,
          control .request target :: (p'.sendOrHold target asked packet
            (decide (options.bAllowDelayedDelivery = eosTrue))).2.2) := by
      rw [call, sendPacket, htarget]
      dsimp only
      rw [hentry]
      dsimp only
      rw [if_neg hauto]
    have hstanding : (p.call (.sendPacket options)).1.standing key =
        if target = key then some .connectionPending else p.standing key := by
      rw [hcall]
      dsimp only
      rw [sendOrHold_standing hentry', hp', standing_insert]
    have hsignals : signalsTo key (p.call (.sendPacket options)).2 =
        if target = key then [.request] else [] := by
      rw [hcall]
      have hnone : ¬ (target = key ∧ asked.state = .connectionOpen) := fun hc ↦ by cases hc.2
      rw [signalsTo_control, sendOrHold_signals, if_neg hnone, List.append_nil]
    by_cases hkey : target = key
    · subst hkey
      have hmove : p.moveOf target (.sendPacket options) = .ask := by
        rw [moveOf, htarget]
        dsimp only
        rw [if_pos rfl, standing_of_no_entry hentry]
        exact if_neg hauto
      refine ⟨?_, ?_, ?_⟩
      · rw [hmove]
        exact .inl (standing_of_no_entry hentry)
      · rw [hmove, hstanding, if_pos rfl]
        rfl
      · rw [hmove, hsignals, if_pos rfl]
        exact .nothing _ _
    · refine .idle ?_ (by rw [hstanding, if_neg hkey]) (by rw [hsignals, if_neg hkey])
      rw [moveOf, htarget]
      exact if_neg hkey

theorem sendPacket_spec (p : P2p) (key : ConnectionKey) (options : SendPacketOptions) :
    CallSpec p key (.sendPacket options) := by
  cases htarget : p.sendTarget options with
  | error result =>
    refine .idle ?_ ?_ ?_
    · rw [moveOf, htarget]
    · rw [call, sendPacket, htarget]
    · rw [call, sendPacket, htarget]
      rfl
  | ok target =>
    cases hentry : p.connections[target.1]? with
    | some entry => exact sendPacket_known htarget hentry
    | none => exact sendPacket_first htarget hentry

theorem establish_standing (p : P2p) (key : ConnectionKey) (entry : Connection)
    (key' : ConnectionKey) : (p.establish key entry).1.standing key' =
      if key = key' then some .connectionOpen else p.standing key' := by
  rw [establish, queueEvent_standing, standing_insert]

/-- What a connection held goes out on it, behind `control`, once it opens. -/
theorem tells_flushDelayed (control : List Signal) (key : ConnectionKey) (entry : Connection) :
    Tells (some .connectionOpen) control (control ++ signalsTo key (flushDelayed key entry)) := by
  rw [signalsTo_flushDelayed, if_pos rfl]
  exact ⟨entry.delayed.length, rfl, fun _ ↦ rfl⟩

/-- Accepting a connection opens it when the peer has asked, and asks the peer when it has not. -/
theorem acceptConnection_here {options : AcceptConnectionOptions} {target : ConnectionKey}
    (htarget : p.acceptTarget options = .ok target) :
    CallSpec p target (.acceptConnection options) := by
  have hmove : p.moveOf target (.acceptConnection options) =
      match p.standing target with
      | some .connectionOpen => .idle
      | some .connectionRequested => .agree
      | none | some .connectionPending => .ask := by
    rw [moveOf, htarget]
    exact if_pos rfl
  cases hentry : p.connections[target]? with
  | none =>
    have hstanding := standing_of_no_entry hentry
    have hcall : p.call (.acceptConnection options) =
        ({ p with connections := p.connections.insert target { state := .connectionPending } },
          [control .request target]) := by
      rw [call, acceptConnection, htarget]
      dsimp only
      rw [hentry]
    rw [hstanding] at hmove
    refine ⟨?_, ?_, ?_⟩
    · rw [hmove]
      exact .inl hstanding
    · rw [hmove, hcall, standing_insert, if_pos rfl]
      rfl
    · rw [hmove, hcall, signalsTo_control, if_pos rfl]
      exact .nothing _ _
  | some entry =>
    have hstanding := standing_of_lookup hentry
    rw [hstanding] at hmove
    cases hstate : entry.state with
    | connectionOpen =>
      rw [hstate] at hmove
      have hcall : p.call (.acceptConnection options) = (p, []) := by
        rw [call, acceptConnection, htarget]
        dsimp only
        rw [hentry]
        dsimp only
        rw [hstate]
      exact .idle hmove (by rw [hcall]) (by rw [hcall]; rfl)
    | connectionRequested =>
      rw [hstate] at hmove hstanding
      have hcall : p.call (.acceptConnection options) =
          ((p.establish target entry).1,
            control .response target :: (p.establish target entry).2) := by
        rw [call, acceptConnection, htarget]
        dsimp only
        rw [hentry]
        dsimp only
        rw [hstate]
      refine ⟨?_, ?_, ?_⟩
      · rw [hmove]
        exact hstanding
      · rw [hmove, hcall, establish_standing, if_pos rfl]
        rfl
      · rw [hmove, hcall, establish_standing, if_pos rfl, signalsTo_control, if_pos rfl]
        exact tells_flushDelayed _ _ _
    | connectionPending =>
      rw [hstate] at hmove hstanding
      have hcall : p.call (.acceptConnection options) = (p, [control .request target]) := by
        rw [call, acceptConnection, htarget]
        dsimp only
        rw [hentry]
        dsimp only
        rw [hstate]
      refine ⟨?_, ?_, ?_⟩
      · rw [hmove]
        exact .inr hstanding
      · rw [hmove, hcall, hstanding]
        rfl
      · rw [hmove, hcall, signalsTo_control, if_pos rfl]
        exact .nothing _ _

/-- It concerns no other connection. -/
theorem acceptConnection_elsewhere {options : AcceptConnectionOptions} {target : ConnectionKey}
    (htarget : p.acceptTarget options = .ok target) (hkey : target ≠ key) :
    CallSpec p key (.acceptConnection options) := by
  refine .idle ?_ ?_ ?_
  · rw [moveOf, htarget]
    exact if_neg hkey
  · rw [call, acceptConnection, htarget]
    dsimp only
    cases hentry : p.connections[target]? with
    | none => exact (standing_insert _ _ _ _).trans (if_neg hkey)
    | some entry =>
      dsimp only
      cases entry.state with
      | connectionOpen => rfl
      | connectionRequested => exact (establish_standing p target entry key).trans (if_neg hkey)
      | connectionPending => rfl
  · rw [call, acceptConnection, htarget]
    dsimp only
    cases hentry : p.connections[target]? with
    | none => rw [signalsTo_control, if_neg hkey]; rfl
    | some entry =>
      dsimp only
      cases entry.state with
      | connectionOpen => rfl
      | connectionRequested =>
        dsimp only
        rw [signalsTo_control, if_neg hkey, List.nil_append]
        exact (signalsTo_flushDelayed _ _ _).trans (if_neg hkey)
      | connectionPending => rw [signalsTo_control, if_neg hkey]; rfl

theorem acceptConnection_spec (p : P2p) (key : ConnectionKey) (options : AcceptConnectionOptions) :
    CallSpec p key (.acceptConnection options) := by
  cases htarget : p.acceptTarget options with
  | error result =>
    refine .idle ?_ ?_ ?_
    · rw [moveOf, htarget]
    · rw [call, acceptConnection, htarget]
    · rw [call, acceptConnection, htarget]
      rfl
  | ok target =>
    by_cases hkey : target = key
    · subst hkey
      exact acceptConnection_here htarget
    · exact acceptConnection_elsewhere htarget hkey

/-- Every entry that closes goes, and no other. -/
theorem closeAll_standing (p : P2p) (closes : ConnectionKey → Bool) (key : ConnectionKey) :
    (p.closeAll closes).1.standing key = if closes key = true then none else p.standing key := by
  rw [closeAll]
  dsimp only
  rw [foldl_queueEvent_connections]
  refine (standing_filter _ (fun key ↦ ¬ closes key) key).trans ?_
  cases closes key <;> rfl

theorem closeAll_signals (p : P2p) (closes : ConnectionKey → Bool) (key : ConnectionKey) :
    signalsTo key ((p.closeAll closes).2.map (control .close)) =
      if closes key = true ∧ p.standing key ≠ none then [.close] else [] := by
  rw [closeAll]
  dsimp only
  rw [signalsTo_closes (TreeMap.nodup_keys.filter _)]
  refine if_congr ?_ rfl rfl
  rw [List.mem_filter, mem_keys_iff_lookup, and_comm, standing, ne_eq, Option.map_eq_none_iff,
    ← ne_eq, Option.ne_none_iff_exists']

/-- A closing call, which closes every entry that `closes`. -/
theorem CallSpec.closes {c : Call} {closes : ConnectionKey → Bool}
    (hmove : p.moveOf key c = if closes key = true ∧ p.standing key ≠ none then .close else .idle)
    (hnext : (p.call c).1.standing key = (p.closeAll closes).1.standing key)
    (hsends : (p.call c).2 = (p.closeAll closes).2.map (control .close)) : CallSpec p key c := by
  by_cases h : closes key = true ∧ p.standing key ≠ none
  · rw [if_pos h] at hmove
    refine ⟨?_, ?_, ?_⟩
    · rw [hmove]
      exact h.2
    · rw [hmove, hnext, closeAll_standing, if_pos h.1]
      rfl
    · rw [hmove, hsends, closeAll_signals, if_pos h]
      exact .nothing _ _
  · rw [if_neg h] at hmove
    refine .idle hmove ?_ ?_
    · rw [hnext, closeAll_standing]
      split
      · rename_i hcloses
        exact (not_not.1 fun hne ↦ h ⟨hcloses, hne⟩).symm
      · rfl
    · rw [hsends, closeAll_signals, if_neg h]

theorem closeConnection_spec (p : P2p) (key : ConnectionKey) (options : CloseConnectionOptions) :
    CallSpec p key (.closeConnection options) := by
  cases htarget : p.closeTarget options with
  | error result =>
    refine .idle ?_ ?_ ?_
    · rw [moveOf, htarget]
    · rw [call, closeConnection, htarget]
    · rw [call, closeConnection, htarget]
      rfl
  | ok target =>
    obtain ⟨peer, socket⟩ := target
    refine @CallSpec.closes p key _ (fun key ↦ key.peer = peer ∧
      socket.all (key.socket = ·)) ?_ ?_ ?_
    · rw [moveOf, htarget]
      simp only [decide_eq_true_eq, and_assoc]
    · rw [call, closeConnection, htarget]
      exact flushPackets_standing _ _ _ _
    · rw [call, closeConnection, htarget]

theorem closeConnections_spec (p : P2p) (key : ConnectionKey) (options : CloseConnectionsOptions) :
    CallSpec p key (.closeConnections options) := by
  cases htarget : p.closeConnectionsTarget options with
  | error result =>
    refine .idle ?_ ?_ ?_
    · rw [moveOf, htarget]
    · rw [call, closeConnections, htarget]
    · rw [call, closeConnections, htarget]
      rfl
  | ok socket =>
    refine @CallSpec.closes p key _ (fun key ↦ key.socket = socket) ?_ ?_ ?_
    · rw [moveOf, htarget]
      simp only [decide_eq_true_eq]
    · rw [call, closeConnections, htarget]
      exact foldl_flushPackets_standing _ _ _ _
    · rw [call, closeConnections, htarget]

/-- **A call moves each connection as `moveOf` has it**, and sends what goes with that move. -/
theorem call_spec (p : P2p) (key : ConnectionKey) (c : Call) : CallSpec p key c := by
  cases c with
  | sendPacket options => exact sendPacket_spec p key options
  | acceptConnection options => exact acceptConnection_spec p key options
  | closeConnection options => exact closeConnection_spec p key options
  | closeConnections options => exact closeConnections_spec p key options
  | receivePacket options =>
    refine .idle rfl ?_ rfl
    rw [call, receivePacket]
    split
    · rfl
    · split
      · rfl
      · dsimp only
        split <;> rfl
  | setPacketQueueSize options =>
    refine .idle rfl ?_ rfl
    rw [call, setPacketQueueSize]
    split <;> rfl
  | clearPacketQueue options =>
    refine .idle rfl ?_ rfl
    rw [call, clearPacketQueue]
    split
    · rfl
    · split
      · rfl
      · exact discardDelayed_standing _ _ _ _
  | runFrame => exact .idle rfl rfl rfl

/-! ## Arrivals -/

/-- What `signal` does when it arrives about connection `origin`, as seen from `key`: `after` is the
state and the answers. -/
structure SignalSpec (p : P2p) (origin : ConnectionKey) (signal : Signal)
    (after : P2p × List Outgoing) (key : ConnectionKey) : Prop where
  next : after.1.standing key =
    if origin = key then react (p.standing key) signal else p.standing key
  tells : Tells (after.1.standing key) (if origin = key then reply (p.standing key) signal else [])
    (signalsTo key after.2)

/-- A signal that is not answered. -/
theorem SignalSpec.unanswered {origin : ConnectionKey} {signal : Signal} {p' : P2p}
    (hreply : reply (p.standing origin) signal = [])
    (hnext : p'.standing key = if origin = key then react (p.standing key) signal
      else p.standing key) : SignalSpec p origin signal (p', []) key := by
  refine ⟨hnext, ?_⟩
  have hnone : (if origin = key then reply (p.standing key) signal else []) = [] := by
    split
    · rename_i heq
      rw [← heq, hreply]
    · rfl
  rw [hnone]
  exact .nothing _ _

/-- A signal that opens the connection, behind `answer`. -/
theorem SignalSpec.opens {origin : ConnectionKey} {signal : Signal} {entry : Connection}
    {answer : List Signal} {sends : List Outgoing}
    (hreact : react (p.standing origin) signal = some .connectionOpen)
    (hreply : reply (p.standing origin) signal = answer)
    (hsends : ∀ key, signalsTo key sends =
      (if origin = key then answer else []) ++ signalsTo key (flushDelayed origin entry)) :
    SignalSpec p origin signal ((p.establish origin entry).1, sends) key := by
  by_cases hkey : origin = key
  · subst hkey
    refine ⟨?_, ?_⟩
    · rw [establish_standing, if_pos rfl, if_pos rfl, hreact]
    · dsimp only
      rw [establish_standing, if_pos rfl, if_pos rfl, hreply, hsends, if_pos rfl]
      exact tells_flushDelayed _ _ _
  · refine ⟨?_, ?_⟩
    · rw [establish_standing, if_neg hkey, if_neg hkey]
    · dsimp only
      rw [if_neg hkey, hsends, if_neg hkey, signalsTo_flushDelayed, if_neg hkey]
      exact .nothing _ _

/-- The peer asked: there was no entry, and now there is one that waits for the game. -/
theorem onAsked_standing (p : P2p) (key key' : ConnectionKey) :
    (p.onAsked key).standing key' =
      if key = key' then some .connectionRequested else p.standing key' := by
  rw [onAsked, queueEvent_standing, standing_insert]

theorem onData_spec (p : P2p) (origin : ConnectionKey) {channel : Int32} {data : Bytes}
    (hchannel : ¬ (channel < 0 ∨ channel > maxChannel)) (hdata : data.length ≤ maxPacketSize) :
    SignalSpec p origin .data (p.onData origin channel data, []) key := by
  have hreply : reply (p.standing origin) .data = [] := by
    cases p.standing origin with
    | none => rfl
    | some state => cases state <;> rfl
  refine .unanswered hreply ?_
  rw [onData, if_neg hchannel, dif_pos hdata]
  cases hentry : p.connections[origin]? with
  | none =>
    dsimp only
    rw [onAsked_standing]
    refine ite_congr rfl (fun heq ↦ ?_) fun _ ↦ rfl
    rw [← heq, standing_of_no_entry hentry]
    rfl
  | some entry =>
    have hreact : react (p.standing origin) .data = p.standing origin := by
      rw [standing_of_lookup hentry]
      cases entry.state <;> rfl
    have hkeeps : (if origin = key then react (p.standing key) .data else p.standing key) =
        p.standing key := by
      split
      · rename_i heq
        rw [← heq, hreact]
      · rfl
    rw [hkeeps]
    dsimp only
    split
    · rfl
    · split <;> rfl

theorem onConnectRequest_spec (p : P2p) (origin : ConnectionKey) :
    SignalSpec p origin .request (p.onConnectRequest origin) key := by
  rw [onConnectRequest]
  cases hentry : p.connections[origin]? with
  | none =>
    have hstanding := standing_of_no_entry hentry
    refine .unanswered (by rw [hstanding]; rfl) ?_
    rw [onAsked_standing]
    refine ite_congr rfl (fun heq ↦ ?_) fun _ ↦ rfl
    rw [← heq, hstanding]
    rfl
  | some entry =>
    have hstanding := standing_of_lookup hentry
    dsimp only
    cases hstate : entry.state with
    | connectionRequested =>
      rw [hstate] at hstanding
      refine .unanswered (by rw [hstanding]; rfl) ?_
      split
      · rename_i heq
        rw [← heq, hstanding]
        rfl
      · rfl
    | connectionPending =>
      rw [hstate] at hstanding
      refine @SignalSpec.opens _ _ _ _ entry _ _ (by rw [hstanding]; rfl) rfl fun key ↦ ?_
      rw [hstanding, signalsTo_control]
      rfl
    | connectionOpen =>
      rw [hstate] at hstanding
      refine ⟨?_, ?_⟩
      · dsimp only
        split
        · rename_i heq
          rw [← heq, hstanding]
          rfl
        · rfl
      · dsimp only
        rw [signalsTo_control]
        split
        · rename_i heq
          rw [← heq, hstanding]
          exact .nothing _ _
        · exact .nothing _ _

theorem onConnectResponse_spec (p : P2p) (origin : ConnectionKey) :
    SignalSpec p origin .response (p.onConnectResponse origin) key := by
  have hreply : reply (p.standing origin) .response = [] := by
    cases p.standing origin with
    | none => rfl
    | some state => cases state <;> rfl
  rw [onConnectResponse]
  cases hentry : p.connections[origin]? with
  | none =>
    refine .unanswered hreply ?_
    split
    · rename_i heq
      rw [← heq, standing_of_no_entry hentry]
      rfl
    · rfl
  | some entry =>
    have hstanding := standing_of_lookup hentry
    dsimp only
    split
    · rename_i hpending
      rw [hpending] at hstanding
      refine @SignalSpec.opens _ _ _ _ entry _ _ (by rw [hstanding]; rfl) hreply fun key ↦ ?_
      rw [ite_self]
      rfl
    · rename_i hsettled
      refine .unanswered hreply ?_
      split
      · rename_i heq
        rw [← heq, hstanding]
        cases hstate : entry.state with
        | connectionPending => exact absurd hstate hsettled
        | connectionRequested => rfl
        | connectionOpen => rfl
      · rfl

theorem onConnectionClose_spec (p : P2p) (origin : ConnectionKey) :
    SignalSpec p origin .close (p.onConnectionClose origin, []) key := by
  have hreply : reply (p.standing origin) .close = [] := by
    cases p.standing origin with
    | none => rfl
    | some state => cases state <;> rfl
  have hreact (standing : Standing) : react standing .close = none := by
    cases standing with
    | none => rfl
    | some state => cases state <;> rfl
  refine .unanswered hreply ?_
  rw [hreact, onConnectionClose]
  cases hentry : p.connections[origin]? with
  | none =>
    dsimp only
    split
    · rename_i heq
      rw [← heq, standing_of_no_entry hentry]
    · rfl
  | some entry =>
    dsimp only
    rw [queueEvent_standing, flushPackets_standing, standing_erase]

/-- **A message moves the connection it is about as `react` has it**, and no other, and is answered
by `reply`, behind which goes what the connection held. -/
theorem onSignal_spec (p : P2p) (origin key : ConnectionKey) (o : Outgoing) :
    SignalSpec p origin o.signal (p.onSignal origin o) key := by
  have hchannel : ¬ (Int32.ofNat o.channel.toNat < 0 ∨
    Int32.ofNat o.channel.toNat > maxChannel) := by
    have hlt : o.channel.toNat < 256 := o.channel.toNat_lt
    have htoInt : (Int32.ofNat o.channel.toNat).toInt = o.channel.toNat :=
      Int32.toInt_ofNat_of_lt (by omega)
    rw [gt_iff_lt, Int32.lt_iff_toInt_lt, Int32.lt_iff_toInt_lt, htoInt]
    simp only [maxChannel, Int32.toInt_zero]
    have h255 : (255 : Int32).toInt = 255 := rfl
    omega
  rw [onSignal]
  cases hsignal : o.signal with
  | data => exact onData_spec p origin hchannel o.data.2
  | request => exact onConnectRequest_spec p origin
  | response => exact onConnectResponse_spec p origin
  | close => exact onConnectionClose_spec p origin

/-- Losing the peer takes every connection with it, and no other. -/
theorem onPeerDisconnected_standing (p : P2p) (peer : Bytes) (key : ConnectionKey) :
    (p.onPeerDisconnected peer).standing key = if key.peer =
    peer then none else p.standing key := by
  rw [onPeerDisconnected, flushPackets_standing, foldl_queueEvent_connections]
  refine (standing_filter _ (fun key ↦ key.peer ≠ peer) key).trans ?_
  simp only [ne_eq, decide_not, Bool.not_eq_true', decide_eq_false_iff_not, ite_not]

/-! ## What a message is about -/

/-- The connection a message of a peer is about, and what it says; `none` when it is dropped. -/
def addressed (p : P2p) (message : NetEnvelope) : Option (ConnectionKey × P2pData) :=
  if message.sourceId = [] ∨ message.sourceId = p.productUserId ∨
      (message.destId ≠ [] ∧ message.destId ≠ p.productUserId) then none
  else (P2pData.deserialize.run message.payload).bind fun (payload, _) ↦
    (SocketName.of? payload.socketName).map fun socket ↦
      ({ peer := message.sourceId, socket }, payload)

/-- What a message does about the connection it is about. -/
def onAddressed (p : P2p) (typeTag : UInt16) (key : ConnectionKey) (payload : P2pData) :
    P2p × List Outgoing :=
  if typeTag = MessageType.p2pData.tag then (p.onData key payload.channel payload.data, [])
  else if typeTag = MessageType.p2pConnectRequest.tag then p.onConnectRequest key
  else if typeTag = MessageType.p2pConnectResponse.tag then p.onConnectResponse key
  else if typeTag = MessageType.p2pConnectionClose.tag then (p.onConnectionClose key, [])
  else (p, [])

/-- A message is an event of the mesh, or dropped, or about one connection. -/
theorem onNetworkMessage_eq (p : P2p) (message : NetEnvelope) : p.onNetworkMessage message =
    if message.typeTag = MessageType.peerDisconnected.tag then
      (p.onPeerDisconnected message.sourceId, [])
    else if message.typeTag = MessageType.peerConnected.tag then (p, [])
    else match p.addressed message with
      | none => (p, [])
      | some (key, payload) => p.onAddressed message.typeTag key payload := by
  rw [onNetworkMessage, addressed]
  refine ite_congr rfl (fun _ ↦ rfl) fun _ ↦ ite_congr rfl (fun _ ↦ rfl) fun _ ↦ ?_
  by_cases hsource : message.sourceId = [] ∨ message.sourceId = p.productUserId
  · rw [if_pos hsource, if_pos (hsource.imp_right .inl)]
  · by_cases hdest : message.destId ≠ [] ∧ message.destId ≠ p.productUserId
    · rw [if_neg hsource, if_pos hdest, if_pos (.inr (.inr hdest))]
    · rw [if_neg hsource, if_neg hdest, if_neg (by tauto)]
      cases P2pData.deserialize.run message.payload with
      | none => rfl
      | some read =>
        simp only [Option.bind_some]
        cases SocketName.of? read.1.socketName <;> rfl

/-! ## What stays, and what is nobody else's business -/

theorem foldl_queueEvent_productUserId (type : EventKind) (reason : ClosedReason)
    (keys : List ConnectionKey) (p : P2p) :
    (keys.foldl (fun p key ↦ p.queueEvent type key reason) p).productUserId = p.productUserId := by
  induction keys generalizing p with
  | nil => rfl
  | cons key keys ih => exact ih (p.queueEvent type key reason)

theorem foldl_flushPackets_productUserId (socket : Bytes) (keys : List ConnectionKey) (p : P2p) :
    (keys.foldl (fun p key ↦ p.flushPackets key.peer socket) p).productUserId =
    p.productUserId := by
  induction keys generalizing p with
  | nil => rfl
  | cons key keys ih => exact ih (p.flushPackets key.peer socket)

theorem sendOrHold_productUserId (p : P2p) (key : ConnectionKey) (entry : Connection)
    (packet : DelayedPacket) (allowDelayed : Bool) :
    (p.sendOrHold key entry packet allowDelayed).2.1.productUserId = p.productUserId := by
  rw [sendOrHold]
  split
  · rfl
  · split
    · rfl
    · split <;> rfl

/-- A call leaves the instance who it is. -/
theorem call_productUserId (p : P2p) (c : Call) : (p.call c).1.productUserId = p.productUserId := by
  cases c with
  | sendPacket options =>
    rw [call, sendPacket]
    split
    · rfl
    · dsimp only
      split
      · exact sendOrHold_productUserId _ _ _ _ _
      · split
        · rfl
        · exact sendOrHold_productUserId _ _ _ _ _
  | acceptConnection options =>
    rw [call, acceptConnection]
    split
    · rfl
    · split
      · rfl
      · split <;> rfl
  | closeConnection options =>
    rw [call, closeConnection]
    split
    · rfl
    · exact foldl_queueEvent_productUserId _ _ _ _
  | closeConnections options =>
    rw [call, closeConnections]
    split
    · rfl
    · exact (foldl_flushPackets_productUserId _ _ _).trans (foldl_queueEvent_productUserId _ _ _ _)
  | receivePacket options =>
    rw [call, receivePacket]
    split
    · rfl
    · split
      · rfl
      · dsimp only
        split <;> rfl
  | setPacketQueueSize options =>
    rw [call, setPacketQueueSize]
    split <;> rfl
  | clearPacketQueue options =>
    rw [call, clearPacketQueue]
    split
    · rfl
    · split <;> rfl
  | runFrame => rfl

theorem onData_productUserId (p : P2p) (key : ConnectionKey) (channel : Int32) (data : Bytes) :
    (p.onData key channel data).productUserId = p.productUserId := by
  rw [onData]
  split
  · rfl
  · split
    · split
      · rfl
      · split
        · rfl
        · split <;> rfl
    · rfl

theorem onNetworkMessage_productUserId (p : P2p) (message : NetEnvelope) :
    (p.onNetworkMessage message).1.productUserId = p.productUserId := by
  have hrequest (key : ConnectionKey) :
      (p.onConnectRequest key).1.productUserId = p.productUserId := by
    rw [onConnectRequest]
    split
    · rfl
    · split <;> rfl
  have hresponse (key : ConnectionKey) :
      (p.onConnectResponse key).1.productUserId = p.productUserId := by
    rw [onConnectResponse]
    split
    · rfl
    · split <;> rfl
  have hclose (key : ConnectionKey) : (p.onConnectionClose key).productUserId =
    p.productUserId := by
    rw [onConnectionClose]
    split <;> rfl
  rw [onNetworkMessage]
  split
  · exact foldl_queueEvent_productUserId _ _ _ _
  · split
    · rfl
    · split
      · rfl
      · split
        · rfl
        · split
          · rfl
          · split
            · rfl
            · dsimp only
              split
              · exact onData_productUserId _ _ _ _
              · split
                · exact hrequest _
                · split
                  · exact hresponse _
                  · split
                    · exact hclose _
                    · rfl

/-- A connection no move was made on: it stands as before, and sends at most packets. -/
def Undisturbed (p : P2p) (after : P2p × List Outgoing) (key : ConnectionKey) : Prop :=
  after.1.standing key = p.standing key ∧ Tells (after.1.standing key) [] (signalsTo key after.2)

theorem Undisturbed.unchanged {after : P2p × List Outgoing}
    (hnext : after.1.standing key = p.standing key) (hsends : after.2 = []) :
    p.Undisturbed after key := by
  refine ⟨hnext, ?_⟩
  rw [hsends]
  exact .nothing _ _

theorem SignalSpec.undisturbed {origin : ConnectionKey} {signal : Signal}
    {after : P2p × List Outgoing} (h : SignalSpec p origin signal after key)
    (hkey : origin ≠ key) : p.Undisturbed after key := by
  obtain ⟨hnext, htells⟩ := h
  rw [if_neg hkey] at hnext htells
  exact ⟨hnext, htells⟩

/-- **A message from one peer is nothing to the connections with another.** -/
theorem onNetworkMessage_undisturbed (p : P2p) (key : ConnectionKey) {message : NetEnvelope}
    (hsource : message.sourceId ≠ key.peer) :
    p.Undisturbed (p.onNetworkMessage message) key := by
  have horigin (socket : SocketName) :
      ({ peer := message.sourceId, socket } : ConnectionKey) ≠ key :=
    fun h ↦ hsource (congrArg ConnectionKey.peer h)
  rw [onNetworkMessage]
  split
  · refine .unchanged ?_ rfl
    rw [onPeerDisconnected_standing, if_neg (Ne.symm hsource)]
  · split
    · exact .unchanged rfl rfl
    · split
      · exact .unchanged rfl rfl
      · split
        · exact .unchanged rfl rfl
        · split
          · exact .unchanged rfl rfl
          · split
            · exact .unchanged rfl rfl
            · rename_i socket _
              dsimp only
              split
              · refine .unchanged ?_ rfl
                dsimp only
                rw [onData]
                split
                · rfl
                · split
                  · split
                    · rw [onAsked_standing, if_neg (horigin socket)]
                    · split
                      · rfl
                      · split <;> rfl
                  · rfl
              · split
                · exact (onConnectRequest_spec p _).undisturbed (horigin socket)
                · split
                  · exact (onConnectResponse_spec p _).undisturbed (horigin socket)
                  · split
                    · exact (onConnectionClose_spec p _).undisturbed (horigin socket)
                    · exact .unchanged rfl rfl

end P2p
end EosMesh
