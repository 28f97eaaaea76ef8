import EosMesh.P2P.Consent

/-!
# Sends that re-enter

A send that fails drops its peer before it returns, and the interface hears of that at once: every
connection with the peer is gone, while the operation that sent still has one of them in its hand.
This file runs the operations send by send.

The models of `P2P.Operations` hand all they send to the router at their end, which is right as long
as no send loses anybody.  Here the same operations are taken apart at each send, and the two agree
where nothing is lost.

* `Reentry` is an operation under way, with the outcomes of the sends still to come.
* `Reentry.send` is one send, which loses the peers that the outcome says.
* `Reentry.holding` is a use of an entry that was found before, and `stale` says that such a use
  came after the entry was gone.  In the source that is a use of freed memory: what follows it has
  no meaning, and nothing does here.
* `Reentry.log` is every notification queued, with where the connection stood that it is about.
* The operations are in the order of the source, and each says which entry it uses again after a
  send: `flushDelayed` looks before every packet and after the last, a round of `close_connection`
  reads the socket off the entry, and a round of `close_connections` only erases it.
* `keepsInUse` is the condition on an operation, read off the state and the outcomes alone, and
  `IsRound` what the two closing loops have in common.

`stale_iff` says which outcomes of the sends are safe, for every state and every operation.
-/

set_option autoImplicit false

namespace EosMesh

open Lib
open Std (TreeMap)

/-- The connection a notification is about. -/
def PendingEvent.key (event : PendingEvent) : ConnectionKey where
  peer := event.peer
  socket := event.socket

/-- An operation under way. -/
structure Reentry where
  p2p : P2p
  /-- The peers each coming send loses, in the order they go; a send past the last loses none. -/
  losses : List (List Bytes) := []
  sent : List Outgoing := []
  log : List (PendingEvent × Standing) := []
  stale : Bool := false

namespace P2p

/-- The notifications queued on the way from `p` to `p'`, each with where its connection stood: one
that ends stood where it was, and any other stands where it is. -/
def announced (p p' : P2p) : List (PendingEvent × Standing) :=
  (p'.pendingEvents.drop p.pendingEvents.length).map fun event ↦
    match event.type with
    | .request | .established => (event, p'.standing event.key)
    | .interrupted | .closed => (event, p.standing event.key)

end P2p

namespace Reentry

open P2p

variable (r : Reentry)

/-- The state goes on to `p`. -/
def become (p : P2p) : Reentry := { r with p2p := p, log := r.log ++ r.p2p.announced p }

/-- `send_p2p`: each peer it loses is gone before it returns. -/
def send (o : Outgoing) : Reentry :=
  (r.losses.headD []).foldl (fun r peer ↦ r.become (r.p2p.onPeerDisconnected peer))
    { r with losses := r.losses.tail, sent := r.sent ++ [o] }

/-- A use of an entry that was found before. -/
def holding (key : ConnectionKey) (next : Connection → Reentry) : Reentry :=
  match r.p2p.connections[key]? with
  | none => { r with stale := true }
  | some entry => next entry

/-! ## The operations -/

/-- `flush_delayed`: the loop looks at its entry before every packet and after the last.  What it
holds is no longer in the table here; nothing that happens meanwhile looks for it there. -/
def flushDelayed (key : ConnectionKey) : List DelayedPacket → Reentry → Reentry
  | [], r => r.holding key fun _ ↦ r
  | packet :: packets, r =>
    r.holding key fun _ ↦ flushDelayed key packets (r.send (DelayedPacket.outgoing packet key))

/-- A connection, replaced. -/
def setEntry (key : ConnectionKey) (entry : Connection) : Reentry :=
  r.become { r.p2p with connections := r.p2p.connections.insert key entry }

/-- The connection opens, the peer is told, and then the game; what waited goes out. -/
def agree (key : ConnectionKey) (entry : Connection) : Reentry :=
  let r := (r.setEntry key { state := .connectionOpen }).send (control .response key)
  flushDelayed key entry.delayed (r.become (r.p2p.queueEvent .established key .unknown))

/-- The connection the peer agreed to opens. -/
def settle (key : ConnectionKey) (entry : Connection) : Reentry :=
  let r := r.setEntry key { state := .connectionOpen }
  flushDelayed key entry.delayed (r.become (r.p2p.queueEvent .established key .unknown))

/-- The end of `send_packet`. -/
def sendOrHold (key : ConnectionKey) (entry : Connection) (packet : DelayedPacket)
    (allowDelayed : Bool) : Reentry :=
  let (_, p, sends) := r.p2p.sendOrHold key entry packet allowDelayed
  sends.foldl send (r.become p)

/-- `sendPacket`, with what each send loses. -/
def sendPacket (options : SendPacketOptions) : Reentry :=
  match r.p2p.sendTarget options with
  | .error _ => r
  | .ok (key, packet) =>
    let allowDelayed : Bool := options.bAllowDelayedDelivery = eosTrue
    match r.p2p.connections[key]? with
    | some entry => r.sendOrHold key entry packet allowDelayed
    | none =>
      if disablesAutoAccept options then r
      else
        let r := (r.setEntry key { state := .connectionPending }).send (control .request key)
        r.holding key fun entry ↦ r.sendOrHold key entry packet allowDelayed

/-- `acceptConnection`, with what each send loses. -/
def acceptConnection (options : AcceptConnectionOptions) : Reentry :=
  match r.p2p.acceptTarget options with
  | .error _ => r
  | .ok key =>
    match r.p2p.connections[key]? with
    | none => (r.setEntry key { state := .connectionPending }).send (control .request key)
    | some entry =>
      match entry.state with
      | .connectionOpen => r
      | .connectionRequested => r.agree key entry
      | .connectionPending => r.send (control .request key)

/-- A connection goes. -/
def eraseEntry (key : ConnectionKey) : Reentry :=
  r.become { r.p2p with connections := r.p2p.connections.erase key }

/-- One round of `close_connection`: the socket that the game is told of is read off the entry. -/
def closeRound (key : ConnectionKey) : Reentry :=
  if r.stale ∨ (r.p2p.connections[key]?).isNone then r
  else
    let r := r.send (control .close key)
    r.holding key fun _ ↦ (r.become (r.p2p.queueEvent .closed key .closedByLocalUser)).eraseEntry
      key

/-- One round of `close_connections`: the entry is used again only to erase it. -/
def closeSocketRound (key : ConnectionKey) : Reentry :=
  if r.stale ∨ (r.p2p.connections[key]?).isNone then r
  else
    let r := r.send (control .close key)
    let r := r.become (r.p2p.queueEvent .closed key .closedByLocalUser)
    r.holding key fun _ ↦
      let r := r.eraseEntry key
      r.become (r.p2p.flushPackets key.peer key.socket.1)

/-- `closeConnection`, round by round. -/
def closeConnection (options : CloseConnectionOptions) : Reentry :=
  match r.p2p.closeTarget options with
  | .error _ => r
  | .ok (peer, socket) =>
    let keys := r.p2p.connections.keys.filter fun key ↦
      key.peer = peer ∧ socket.all (key.socket = ·)
    let r := keys.foldl closeRound r
    if r.stale then r else r.become (r.p2p.flushPackets peer ((socket.map Subtype.val).getD []))

/-- `closeConnections`, round by round. -/
def closeConnections (options : CloseConnectionsOptions) : Reentry :=
  match r.p2p.closeConnectionsTarget options with
  | .error _ => r
  | .ok socket =>
    (r.p2p.connections.keys.filter fun key ↦ key.socket = socket).foldl closeSocketRound r

/-- `onConnectRequest`, with what its answer loses. -/
def onConnectRequest (key : ConnectionKey) : Reentry :=
  match r.p2p.connections[key]? with
  | none => r.become (r.p2p.onAsked key)
  | some entry =>
    match entry.state with
    | .connectionRequested => r
    | .connectionPending => r.agree key entry
    | .connectionOpen => r.send (control .response key)

/-- `onConnectResponse`, with what the packets that were held lose. -/
def onConnectResponse (key : ConnectionKey) : Reentry :=
  match r.p2p.connections[key]? with
  | none => r
  | some entry => if entry.state = .connectionPending then r.settle key entry else r

/-- The two messages that are answered; the handlers of the others send nothing. -/
def onNetworkMessage (message : NetEnvelope) : Reentry :=
  match r.p2p.addressed message with
  | none => r.become (r.p2p.onNetworkMessage message).1
  | some (key, _) =>
    if message.typeTag = MessageType.p2pConnectRequest.tag then r.onConnectRequest key
    else if message.typeTag = MessageType.p2pConnectResponse.tag then r.onConnectResponse key
    else r.become (r.p2p.onNetworkMessage message).1

/-- An operation from its first step. -/
def operate : P2pInput → Reentry
  | .call (.sendPacket options) => r.sendPacket options
  | .call (.acceptConnection options) => r.acceptConnection options
  | .call (.closeConnection options) => r.closeConnection options
  | .call (.closeConnections options) => r.closeConnections options
  | .call c => r.become (r.p2p.call c).1
  | .receive message => r.onNetworkMessage message

/-! ## What a send leaves -/

variable {r} {key : ConnectionKey}

theorem lookup_onPeerDisconnected (p : P2p) (peer : Bytes) (key : ConnectionKey) :
    (p.onPeerDisconnected peer).connections[key]? =
      if key.peer = peer then none else p.connections[key]? := by
  rw [onPeerDisconnected]
  show (TreeMap.filter _ (List.foldl _ p _).connections)[key]? = _
  rw [foldl_queueEvent_connections, lookup_filter p.connections (fun key ↦ key.peer ≠ peer)]
  by_cases hpeer : key.peer = peer <;> simp [hpeer]

theorem send_lookup (r : Reentry) (o : Outgoing) (key : ConnectionKey) :
    (r.send o).p2p.connections[key]? =
      if key.peer ∈ r.losses.headD [] then none else r.p2p.connections[key]? := by
  have hall (lost : List Bytes) (r : Reentry) :
      (lost.foldl (fun r peer ↦ r.become (r.p2p.onPeerDisconnected peer)) r).p2p.connections[key]? =
        if key.peer ∈ lost then none else r.p2p.connections[key]? := by
    induction lost generalizing r with
    | nil => simp
    | cons peer lost ih =>
      rw [List.foldl_cons, ih]
      show (if _ then none else (r.p2p.onPeerDisconnected peer).connections[key]?) = _
      rw [lookup_onPeerDisconnected]
      by_cases hpeer : key.peer = peer <;> simp [hpeer]
  exact hall _ _

@[simp] theorem become_stale (p : P2p) : (r.become p).stale = r.stale := rfl

@[simp] theorem become_losses (p : P2p) : (r.become p).losses = r.losses := rfl

@[simp] theorem become_p2p (p : P2p) : (r.become p).p2p = p := rfl

/-- A peer or more is lost: nothing but the state and the log. -/
theorem foldl_lose_rest (lost : List Bytes) (r : Reentry) :
    (lost.foldl (fun r peer ↦ r.become (r.p2p.onPeerDisconnected peer)) r).stale = r.stale ∧
      (lost.foldl (fun r peer ↦ r.become (r.p2p.onPeerDisconnected peer)) r).losses = r.losses := by
  induction lost generalizing r with
  | nil => exact ⟨rfl, rfl⟩
  | cons peer lost ih => exact ih _

@[simp] theorem send_stale (o : Outgoing) : (r.send o).stale = r.stale := (foldl_lose_rest _ _).1

@[simp] theorem send_losses (o : Outgoing) : (r.send o).losses = r.losses.tail :=
  (foldl_lose_rest _ _).2

theorem holding_of_none {next : Connection → Reentry} (h : r.p2p.connections[key]? = none) :
    r.holding key next = { r with stale := true } := by
  rw [holding, h]

theorem holding_of_some {next : Connection → Reentry} {entry : Connection}
    (h : r.p2p.connections[key]? = some entry) : r.holding key next = next entry := by
  rw [holding, h]

theorem setEntry_lookup (r : Reentry) (key key' : ConnectionKey) (entry : Connection) :
    (r.setEntry key entry).p2p.connections[key']? =
      if key = key' then some entry else r.p2p.connections[key']? := lookup_insert _ _ _ _

theorem eraseEntry_lookup (r : Reentry) (key key' : ConnectionKey) :
    (r.eraseEntry key).p2p.connections[key']? =
      if key = key' then none else r.p2p.connections[key']? := lookup_erase _ _ _

/-! ## Which outcomes are safe -/

/-- None of the next `n` sends loses the peer. -/
def outlasts (peer : Bytes) : Nat → List (List Bytes) → Bool
  | 0, _ => true
  | n + 1, losses => peer ∉ losses.headD [] ∧ outlasts peer n losses.tail

/-- The closes to the connections `keys`, those with the peers `gone` left out, each keep the peer
they are sent to. -/
def closesKept : List Bytes → List ConnectionKey → List (List Bytes) → Bool
  | _, [], _ => true
  | gone, key :: keys, losses =>
    if key.peer ∈ gone then closesKept gone keys losses
    else key.peer ∉ losses.headD [] ∧ closesKept (gone ++ losses.headD []) keys losses.tail

/-- The condition on an operation: no send loses the peer of a connection that is used again. -/
def keepsInUse (p : P2p) (losses : List (List Bytes)) : P2pInput → Bool
  -- The request that a first packet sends ahead of itself.
  | .call (.sendPacket options) =>
    match p.sendTarget options with
    | .error _ => true
    | .ok (key, _) =>
      (p.connections[key]?).isSome ∨ disablesAutoAccept options ∨ outlasts key.peer 1 losses
  -- The response, and what waited.
  | .call (.acceptConnection options) =>
    match p.acceptTarget options with
    | .error _ => true
    | .ok key => (p.connections[key]?).all fun entry ↦
      entry.state ≠ .connectionRequested ∨ outlasts key.peer (entry.delayed.length + 1) losses
  | .call (.closeConnection options) =>
    match p.closeTarget options with
    | .error _ => true
    | .ok (peer, socket) =>
      closesKept [] (p.connections.keys.filter fun key ↦
        key.peer = peer ∧ socket.all (key.socket = ·)) losses
  | .call (.closeConnections options) =>
    match p.closeConnectionsTarget options with
    | .error _ => true
    | .ok socket => closesKept [] (p.connections.keys.filter fun key ↦ key.socket = socket) losses
  | .call _ => true
  | .receive message => (p.addressed message).all fun (key, _) ↦
    (p.connections[key]?).all fun entry ↦ entry.state ≠ .connectionPending ∨
      if message.typeTag = MessageType.p2pConnectRequest.tag then
        outlasts key.peer (entry.delayed.length + 1) losses
      else message.typeTag ≠ MessageType.p2pConnectResponse.tag ∨
        outlasts key.peer entry.delayed.length losses

/-! ## Stale uses -/

theorem flushDelayed_stale {packets : List DelayedPacket} {entry : Connection}
    (hentry : r.p2p.connections[key]? = some entry) (hstale : r.stale = false) :
    (flushDelayed key packets r).stale = false ↔
    outlasts key.peer packets.length r.losses = true := by
  induction packets generalizing r with
  | nil =>
    rw [flushDelayed, holding_of_some hentry]
    exact iff_of_true hstale rfl
  | cons packet packets ih =>
    rw [flushDelayed, holding_of_some hentry, List.length_cons, outlasts, decide_eq_true_eq]
    have hlookup := send_lookup r (DelayedPacket.outgoing packet key) key
    by_cases hlost : key.peer ∈ r.losses.headD []
    · rw [if_pos hlost] at hlookup
      refine iff_of_false ?_ fun h ↦ h.1 hlost
      cases packets <;> rw [flushDelayed, holding_of_none hlookup] <;> simp
    · rw [if_neg hlost, hentry] at hlookup
      rw [ih hlookup (by rw [send_stale, hstale]), send_losses]
      exact ⟨fun h ↦ ⟨hlost, h⟩, And.right⟩

theorem settle_stale (hstale : r.stale = false) (entry : Connection) :
    (r.settle key entry).stale = false ↔
      outlasts key.peer entry.delayed.length r.losses = true := by
  have hentry := setEntry_lookup r key key { state := .connectionOpen }
  rw [if_pos rfl] at hentry
  exact flushDelayed_stale (r := (r.setEntry key { state := .connectionOpen }).become
    _) hentry hstale

theorem agree_stale (hstale : r.stale = false) (entry : Connection) :
    (r.agree key entry).stale = false ↔
      outlasts key.peer (entry.delayed.length + 1) r.losses = true := by
  set r₁ := r.setEntry key { state := .connectionOpen } with hr₁
  have hentry := setEntry_lookup r key key { state := .connectionOpen }
  rw [if_pos rfl, ← hr₁] at hentry
  have hlookup := send_lookup r₁ (control .response key) key
  rw [agree, outlasts, decide_eq_true_eq]
  by_cases hlost : key.peer ∈ r.losses.headD []
  · have hnone : (r₁.send (control .response key)).p2p.connections[key]? = none :=
      hlookup.trans (if_pos hlost)
    refine iff_of_false ?_ fun h ↦ h.1 hlost
    have hnone' : ((r₁.send (control .response key)).become ((r₁.send
        (control .response key)).p2p.queueEvent .established key .unknown)).p2p.connections[key]? =
          none := hnone
    cases entry.delayed <;> rw [flushDelayed, holding_of_none hnone'] <;> simp
  · have hsome : (r₁.send (control .response key)).p2p.connections[key]? =
        some { state := .connectionOpen } := (hlookup.trans (if_neg hlost)).trans hentry
    have hflush : (flushDelayed key entry.delayed
      ((r₁.send (control .response key)).become ((r₁.send
        (control .response key)).p2p.queueEvent .established key .unknown))).stale = false ↔ _ :=
      flushDelayed_stale hsome (by simp [hr₁, setEntry, hstale])
    rw [become_losses, send_losses] at hflush
    exact hflush.trans ⟨fun h ↦ ⟨hlost, h⟩, And.right⟩

/-! ### Closing -/

/-- What a round of either loop comes to: nothing when its entry is gone; a stale use when the send
loses the peer; and else the entry is gone, and those of the peers that were lost. -/
structure IsRound (round : Reentry → ConnectionKey → Reentry) : Prop where
  stuck : ∀ r key, r.stale = true → round r key = r
  skip : ∀ r key, r.p2p.connections[key]? = none → round r key = r
  lost : ∀ r key entry, r.stale = false → r.p2p.connections[key]? = some entry →
    key.peer ∈ r.losses.headD [] → (round r key).stale = true
  closed : ∀ r key entry, r.stale = false → r.p2p.connections[key]? = some entry →
    key.peer ∉ r.losses.headD [] → (round r key).stale = false ∧
      (round r key).losses = r.losses.tail ∧ ∀ key' ≠ key, (round r key).p2p.connections[key']? =
        if key'.peer ∈ r.losses.headD [] then none else r.p2p.connections[key']?

theorem isRound_closeRound : IsRound closeRound where
  stuck r key h := if_pos (.inl h)
  skip r key h := if_pos (.inr (by simp [h]))
  lost r key entry hstale hentry hlost := by
    have hlookup := send_lookup r (control .close key) key
    rw [if_pos hlost] at hlookup
    rw [closeRound, if_neg (by simp [hstale, hentry])]
    dsimp only
    rw [holding_of_none hlookup]
  closed r key entry hstale hentry hkept := by
    have hlookup := send_lookup r (control .close key) key
    rw [if_neg hkept, hentry] at hlookup
    rw [closeRound, if_neg (by simp [hstale, hentry])]
    dsimp only
    rw [holding_of_some hlookup]
    refine ⟨by simp [eraseEntry, hstale], by simp [eraseEntry], fun key' hne ↦ ?_⟩
    rw [eraseEntry_lookup, if_neg (Ne.symm hne)]
    exact send_lookup r (control .close key) key'

theorem isRound_closeSocketRound : IsRound closeSocketRound where
  stuck r key h := if_pos (.inl h)
  skip r key h := if_pos (.inr (by simp [h]))
  lost r key entry hstale hentry hlost := by
    have hlookup := send_lookup r (control .close key) key
    rw [if_pos hlost] at hlookup
    rw [closeSocketRound, if_neg (by simp [hstale, hentry])]
    dsimp only
    rw [holding_of_none]
    exact hlookup
  closed r key entry hstale hentry hkept := by
    have hlookup := send_lookup r (control .close key) key
    rw [if_neg hkept, hentry] at hlookup
    rw [closeSocketRound, if_neg (by simp [hstale, hentry])]
    set r₁ := (r.send (control .close key)).become
      ((r.send (control .close key)).p2p.queueEvent .closed key .closedByLocalUser) with hr₁
    have hfound : r₁.p2p.connections[key]? = some entry := hlookup
    dsimp only
    rw [← hr₁, holding_of_some hfound]
    refine ⟨by simp [eraseEntry, hr₁, hstale], by simp [eraseEntry, hr₁], fun key' hne ↦ ?_⟩
    refine (eraseEntry_lookup _ key key').trans ?_
    rw [if_neg (Ne.symm hne)]
    exact send_lookup r (control .close key) key'

theorem IsRound.foldl_stuck {round : Reentry → ConnectionKey → Reentry} (hround : IsRound round)
    (keys : List ConnectionKey) (h : r.stale = true) : (keys.foldl round r).stale = true := by
  induction keys generalizing r with
  | nil => exact h
  | cons key keys ih => exact ih (by rw [hround.stuck r key h, h])

/-- The loop over the connections that close. -/
theorem IsRound.foldl_stale {round : Reentry → ConnectionKey → Reentry} (hround : IsRound round)
    {keys : List ConnectionKey} {gone : List Bytes} (hkeys : keys.Nodup) (hstale : r.stale = false)
    (hgone : ∀ key ∈ keys, r.p2p.connections[key]? = none ↔ key.peer ∈ gone) :
    (keys.foldl round r).stale = false ↔ closesKept gone keys r.losses = true := by
  induction keys generalizing r gone with
  | nil => exact iff_of_true hstale rfl
  | cons key keys ih =>
    obtain ⟨hnew, hkeys⟩ := List.nodup_cons.1 hkeys
    have hhere := hgone key List.mem_cons_self
    rw [List.foldl_cons, closesKept]
    by_cases hpeer : key.peer ∈ gone
    · rw [hround.skip r key (hhere.2 hpeer), if_pos hpeer]
      exact ih hkeys hstale fun key' hkey' ↦ hgone key' (List.mem_cons_of_mem _ hkey')
    · obtain ⟨entry, hentry⟩ := Option.ne_none_iff_exists'.1 fun hnone ↦ hpeer (hhere.1 hnone)
      rw [if_neg hpeer, decide_eq_true_eq]
      by_cases hlost : key.peer ∈ r.losses.headD []
      · refine iff_of_false ?_ fun h ↦ h.1 hlost
        simp [hround.foldl_stuck keys (hround.lost r key entry hstale hentry hlost)]
      · obtain ⟨hstale', hlosses, hlookup⟩ := hround.closed r key entry hstale hentry hlost
        have hgone' : ∀ key' ∈ keys, (round r key).p2p.connections[key']? = none ↔
            key'.peer ∈ gone ++ r.losses.headD [] := by
          intro key' hkey'
          rw [hlookup key' (fun heq ↦ hnew (heq ▸ hkey')), List.mem_append,
            ← hgone key' (List.mem_cons_of_mem _ hkey')]
          split
          · rename_i hlost'
            exact iff_of_true rfl (.inr hlost')
          · rename_i hlost'
            exact (or_iff_left hlost').symm
        rw [ih hkeys hstale' hgone', hlosses]
        exact ⟨fun h ↦ ⟨hlost, h⟩, And.right⟩

/-- Both closing calls begin with every connection in place. -/
theorem IsRound.foldl_keys_stale {round : Reentry → ConnectionKey → Reentry}
    (hround : IsRound round) (closes : ConnectionKey → Bool) (hstale : r.stale = false) :
    ((r.p2p.connections.keys.filter closes).foldl round r).stale = false ↔
      closesKept [] (r.p2p.connections.keys.filter closes) r.losses = true := by
  refine hround.foldl_stale (TreeMap.nodup_keys.filter _) hstale fun key hkey ↦ ?_
  obtain ⟨entry, hentry⟩ := (mem_keys_iff_lookup _ _).1 (List.mem_filter.1 hkey).1
  simp [hentry]

/-! ### All of them -/

theorem sendOrHold_stale (key : ConnectionKey) (entry : Connection) (packet : DelayedPacket)
    (allowDelayed : Bool) : (r.sendOrHold key entry packet allowDelayed).stale = r.stale := by
  have hall (sends : List Outgoing) (r : Reentry) : (sends.foldl send r).stale = r.stale := by
    induction sends generalizing r with
    | nil => rfl
    | cons o sends ih => rw [List.foldl_cons, ih, send_stale]
  exact hall _ _

theorem sendPacket_stale (hstale : r.stale = false) (options : SendPacketOptions) :
    (r.sendPacket options).stale = false ↔
      keepsInUse r.p2p r.losses (.call (.sendPacket options)) = true := by
  rw [sendPacket, keepsInUse]
  cases htarget : r.p2p.sendTarget options with
  | error result => simp [hstale]
  | ok target =>
    obtain ⟨key, packet⟩ := target
    dsimp only
    cases hentry : r.p2p.connections[key]? with
    | some entry => simp [sendOrHold_stale, hstale]
    | none =>
      by_cases hauto : disablesAutoAccept options = true
      · simp [hauto, hstale]
      · simp only [hauto, Bool.false_eq_true, if_false, Option.isSome_none, false_or,
          decide_eq_true_eq, outlasts, and_true]
        set r₁ := r.setEntry key { state := .connectionPending } with hr₁
        have hlookup := send_lookup r₁ (control .request key) key
        rw [hr₁, setEntry_lookup, if_pos rfl, ← hr₁] at hlookup
        by_cases hlost : key.peer ∈ r.losses.headD []
        · rw [holding_of_none (hlookup.trans (if_pos hlost))]
          simpa using hlost
        · rw [holding_of_some (hlookup.trans (if_neg hlost)), sendOrHold_stale]
          simpa [hr₁, setEntry, hstale] using hlost

theorem acceptConnection_stale (hstale : r.stale = false) (options : AcceptConnectionOptions) :
    (r.acceptConnection options).stale = false ↔
      keepsInUse r.p2p r.losses (.call (.acceptConnection options)) = true := by
  rw [acceptConnection, keepsInUse]
  cases htarget : r.p2p.acceptTarget options with
  | error result => simp [hstale]
  | ok key =>
    dsimp only
    cases hentry : r.p2p.connections[key]? with
    | none => simp [setEntry, hstale]
    | some entry =>
      cases hstate : entry.state with
      | connectionOpen => simp [hstate, hstale]
      | connectionRequested =>
        simp only [hstate, agree_stale hstale, Option.all_some]
        simp
      | connectionPending => simp [hstate, hstale]

theorem onNetworkMessage_stale (hstale : r.stale = false) (message : NetEnvelope) :
    (r.onNetworkMessage message).stale = false ↔
      keepsInUse r.p2p r.losses (.receive message) = true := by
  rw [onNetworkMessage, keepsInUse]
  cases haddressed : r.p2p.addressed message with
  | none => simp [hstale]
  | some found =>
    obtain ⟨key, payload⟩ := found
    dsimp only
    rw [Option.all_some]
    dsimp only
    split
    · rename_i htag
      rw [onConnectRequest]
      cases hentry : r.p2p.connections[key]? with
      | none => simp [hstale]
      | some entry =>
        cases hstate : entry.state with
        | connectionOpen => simp [hstate, hstale]
        | connectionRequested => simp [hstate, hstale]
        | connectionPending =>
          simp only [hstate, agree_stale hstale, Option.all_some]
          simp
    · rename_i htag
      split
      · rename_i htag'
        rw [onConnectResponse]
        cases hentry : r.p2p.connections[key]? with
        | none => simp [hstale]
        | some entry =>
          by_cases hpending : entry.state = .connectionPending
          · simp only [hpending, if_true, settle_stale hstale, Option.all_some]
            simp [htag']
          · simp [hpending, hstale]
      · rename_i htag'
        cases hentry : r.p2p.connections[key]? <;> simp [htag', hstale]

theorem operate_stale (hstale : r.stale = false) (i : P2pInput) :
    (r.operate i).stale = false ↔ keepsInUse r.p2p r.losses i = true := by
  cases i with
  | receive message => exact onNetworkMessage_stale hstale message
  | call c =>
    cases c with
    | sendPacket options => exact sendPacket_stale hstale options
    | acceptConnection options => exact acceptConnection_stale hstale options
    | closeConnection options =>
      rw [operate, closeConnection, keepsInUse]
      cases htarget : r.p2p.closeTarget options with
      | error result => simp [hstale]
      | ok target =>
        obtain ⟨peer, socket⟩ := target
        rw [← isRound_closeRound.foldl_keys_stale _ hstale]
        dsimp only
        split <;> simp_all
    | closeConnections options =>
      rw [operate, closeConnections, keepsInUse]
      cases htarget : r.p2p.closeConnectionsTarget options with
      | error result => simp [hstale]
      | ok socket => exact isRound_closeSocketRound.foldl_keys_stale _ hstale
    | receivePacket options => simp [operate, keepsInUse, hstale]
    | setPacketQueueSize options => simp [operate, keepsInUse, hstale]
    | clearPacketQueue options => simp [operate, keepsInUse, hstale]
    | runFrame => simp [operate, keepsInUse, hstale]

/-- **No operation uses an entry that is gone, exactly when no send in it loses the peer of a
connection that it uses again**, from any state of the interface and whatever its sends lose. -/
theorem stale_iff (p : P2p) (losses : List (List Bytes)) (i : P2pInput) :
    (({ p2p := p, losses } : Reentry).operate i).stale = false ↔ keepsInUse p losses i = true :=
  operate_stale rfl i

/-- A first packet whose request cannot be sent, after which its entry is looked at again. -/
def firstPacket (peer : Bytes) : P2pInput :=
  .call (.sendPacket
    { apiVersion := 3, localUserId := some [1], remoteUserId := some peer
      socketId := some { apiVersion := 1, socketName := [65] }, channel := 0, dataLengthBytes := 1
      data := some [7], bAllowDelayedDelivery := 1, reliability := .reliableOrdered
      bDisableAutoAcceptConnection := 0 })

/-- The send of the request loses the peer, and the packet is held at an entry that is gone. -/
theorem stale_firstPacket :
    ¬ ∀ (losses : List (List Bytes)) (i : P2pInput),
      (({ p2p := { productUserId := [1], productId := [9] }, losses } : Reentry).operate i).stale =
        false :=
  fun h ↦ absurd (h [[[2]]] (firstPacket [2])) (by decide +kernel)

end Reentry
end EosMesh
