import EosMesh.P2P.Reentry

/-!
# What the game is told of a connection

The notifications of one connection follow a grammar: it is established where it is open, once for
each time it opens, and each time it was open ends with one notification.  A game that goes by its
notifications then knows which connections are open.

* `hear` is the grammar, as what a listener makes of one notification after the other: it believes
  that the connection is open or that it is not, and a notification that should not have come leaves
  it with nothing to believe.
* `Told` ties what was said of a connection to how it stands.  An operation breaks the tie for as
  long as a connection is open and not yet announced (`Opening`); in between it sends, and a send
  that loses the peer closes what was just opened.  That is where the grammar can be left.
* `Told.send` is a send, whatever it loses; `Opening.send` is one at the wrong time, which must not
  lose its peer.  `Told.closed` and `Told.foldl_closeSocketRound` are the closing of one connection
  and of many.
* `Told.operate` puts them together: an operation that uses nothing stale keeps to the grammar.
  What is stale, and when, is the subject of `P2P.Reentry`.
* `Announcing` is an instance through any number of operations, and `KeepsInUse` the condition on
  each.

`announcements_grammatical` says it of every run that keeps the condition.  In
`not_grammatical_accept` the response to a request loses its peer: the connection is interrupted
first, and established after that.
-/

set_option autoImplicit false

namespace EosMesh

open Lib
open Std (TreeMap)

/-! ## The grammar -/

/-- What a notification about `key` makes of whether the connection is open, or `none` when it
should not have come.  One that ends a connection ends the one there is. -/
def hear (key : ConnectionKey) (isOpen : Bool) (told : PendingEvent × Standing) : Option Bool :=
  if told.1.key ≠ key then some isOpen
  else match told.1.type with
    | .request => if isOpen then none else some false
    | .established =>
      if ¬ isOpen ∧ told.2 = some .connectionOpen then some true else none
    | .interrupted | .closed =>
      if told.2 ≠ none ∧ (told.2 = some .connectionOpen ↔ isOpen) then some false else none

/-- All the notifications, one after the other. -/
def hearAll (key : ConnectionKey) (log : List (PendingEvent × Standing)) : Option Bool :=
  log.foldlM (hear key) false

/-- The connection is open in the table. -/
def isOpenAt (p : P2p) (key : ConnectionKey) : Bool := p.standing key = some .connectionOpen

variable {key : ConnectionKey} {isOpen : Bool}

theorem hear_other {told : PendingEvent × Standing} (h : told.1.key ≠ key) :
    hear key isOpen told = some isOpen := if_pos h

theorem foldlM_hear_other {log : List (PendingEvent × Standing)}
    (h : ∀ told ∈ log, told.1.key ≠ key) :
    log.foldlM (hear key) isOpen = some isOpen := by
  induction log with
  | nil => rfl
  | cons told log ih =>
    rw [List.foldlM_cons, hear_other (h told List.mem_cons_self), Option.bind_eq_bind,
      Option.bind_some]
    exact ih fun told htold ↦ h told (List.mem_cons_of_mem _ htold)

theorem hearAll_append (log log' : List (PendingEvent × Standing)) :
    hearAll key (log ++ log') = (hearAll key log).bind fun isOpen ↦ log'.foldlM (hear key) isOpen :=
  List.foldlM_append

namespace Reentry

open P2p

variable {r : Reentry}

/-- What was said of the connection is how it stands. -/
def Told (key : ConnectionKey) (r : Reentry) : Prop :=
  hearAll key r.log = some (isOpenAt r.p2p key)

/-! ## Steps that say nothing -/

theorem announced_quiet {p p' : P2p} (h : p'.pendingEvents = p.pendingEvents) :
    p.announced p' = [] := by
  rw [announced, h, List.drop_length, List.map_nil]

theorem become_log (p : P2p) : (r.become p).log = r.log ++ r.p2p.announced p := rfl

theorem become_log_quiet {p : P2p} (h : p.pendingEvents = r.p2p.pendingEvents) :
    (r.become p).log = r.log := by
  rw [become_log, announced_quiet h, List.append_nil]

/-- Nothing is said, and the connection stands as before. -/
theorem Told.become_quiet (h : Told key r) {p : P2p}
    (hevents : p.pendingEvents = r.p2p.pendingEvents)
    (hstanding : p.standing key = r.p2p.standing key) :
    Told key (r.become p) := by
  rw [Told, become_log_quiet hevents, become_p2p, isOpenAt, hstanding]
  exact h

/-- The notifications queued at once about several connections. -/
theorem announced_foldl_queueEvent {p p' : P2p} {type : EventKind} {reason : ClosedReason}
    {keys : List ConnectionKey} (htype : type = .interrupted ∨ type = .closed)
    (h : p'.pendingEvents =
      (keys.foldl (fun p key ↦ p.queueEvent type key reason) p).pendingEvents) :
    p.announced p' = keys.map fun key ↦
      ({ type, peer := key.peer, socket := key.socket, reason }, p.standing key) := by
  have hevents (keys : List ConnectionKey) (p : P2p) :
      (keys.foldl (fun p key ↦ p.queueEvent type key reason) p).pendingEvents =
      p.pendingEvents ++ keys.map fun key ↦
        { type, peer := key.peer, socket := key.socket, reason } := by
    induction keys generalizing p with
    | nil => simp
    | cons key keys ih =>
      rw [List.foldl_cons, ih]
      simp [queueEvent]
  rw [announced, h, hevents, List.drop_left, List.map_map]
  refine List.map_congr_left fun key _ ↦ ?_
  rcases htype with rfl | rfl <;> rfl

theorem isOpenAt_onPeerDisconnected (p : P2p) (peer : Bytes) (key : ConnectionKey) :
    isOpenAt (p.onPeerDisconnected peer) key = (!decide (key.peer = peer) && isOpenAt p key) := by
  rw [isOpenAt, isOpenAt, onPeerDisconnected_standing]
  by_cases hpeer : key.peer = peer <;> simp [hpeer]

theorem Told.lose (h : Told key r) (peer : Bytes) :
    Told key (r.become (r.p2p.onPeerDisconnected peer)) := by
  have hannounced : r.p2p.announced (r.p2p.onPeerDisconnected peer) =
      (r.p2p.connections.keys.filter fun key ↦ key.peer = peer).map fun key ↦
        ({ type := .interrupted, peer := key.peer, socket := key.socket, reason := .unknown },
          r.p2p.standing key) :=
    announced_foldl_queueEvent (.inl rfl) rfl
  rw [Told, become_log, hearAll_append, h, Option.bind_some, hannounced, become_p2p,
    isOpenAt_onPeerDisconnected]
  by_cases hkey : key ∈ r.p2p.connections.keys.filter fun key ↦ key.peer = peer
  · -- It is told of once, as it stood.
    obtain ⟨before, after, hsplit⟩ := List.append_of_mem hkey
    have hnodup : (before ++ key :: after).Nodup := hsplit ▸ TreeMap.nodup_keys.filter _
    obtain ⟨-, hafter, hbefore⟩ := List.nodup_append.1 hnodup
    obtain ⟨hmem, hpeer⟩ := List.mem_filter.1 hkey
    obtain ⟨entry, hentry⟩ := (mem_keys_iff_lookup _ _).1 hmem
    have hhear : hear key (isOpenAt r.p2p key)
        ({ type := .interrupted, peer := key.peer, socket := key.socket, reason := .unknown },
          r.p2p.standing key) = some false := by
      simp [hear, PendingEvent.key, isOpenAt, standing_of_lookup hentry]
    rw [hsplit, List.map_append, List.foldlM_append, foldlM_hear_other, List.map_cons]
    · show ((hear key _ _).bind _) = _
      rw [hhear, Option.bind_some, foldlM_hear_other]
      · simp [of_decide_eq_true hpeer]
      · simp only [List.mem_map, forall_exists_index, and_imp, forall_apply_eq_imp_iff₂]
        rintro key' hkey' rfl
        exact (List.nodup_cons.1 hafter).1 hkey'
    · simp only [List.mem_map, forall_exists_index, and_imp, forall_apply_eq_imp_iff₂]
      rintro key' hkey' rfl
      exact hbefore _ hkey' _ List.mem_cons_self rfl
  · rw [foldlM_hear_other]
    · by_cases hpeer : key.peer = peer
      · have hnone : r.p2p.standing key = none := by
          by_contra hsome
          obtain ⟨state, hstate⟩ := Option.ne_none_iff_exists'.1 hsome
          obtain ⟨entry, hentry, -⟩ := Option.map_eq_some_iff.1 hstate
          exact hkey (List.mem_filter.2
            ⟨(mem_keys_iff_lookup _ _).2 ⟨entry, hentry⟩, by simpa using hpeer⟩)
        simp [isOpenAt, hnone]
      · simp [hpeer]
    · simp only [List.mem_map, forall_exists_index, and_imp, forall_apply_eq_imp_iff₂]
      rintro key' hkey' rfl
      exact hkey hkey'

/-- Whatever a send loses. -/
theorem Told.send (h : Told key r) (o : Outgoing) : Told key (r.send o) := by
  have hall (lost : List Bytes) (r : Reentry) (h : Told key r) :
      Told key (lost.foldl (fun r peer ↦ r.become (r.p2p.onPeerDisconnected peer)) r) := by
    induction lost generalizing r with
    | nil => exact h
    | cons peer lost ih => exact ih _ (h.lose peer)
  exact hall _ _ h

/-! ## Opening -/

/-- A connection that is open, and not yet announced. -/
def Opening (key : ConnectionKey) (r : Reentry) : Prop :=
  hearAll key r.log = some false ∧ r.p2p.standing key = some .connectionOpen

theorem Opening.lose (h : Opening key r) {peer : Bytes} (hpeer : key.peer ≠ peer) :
    Opening key (r.become (r.p2p.onPeerDisconnected peer)) := by
  have hannounced : r.p2p.announced (r.p2p.onPeerDisconnected peer) =
      (r.p2p.connections.keys.filter fun key ↦ key.peer = peer).map fun key ↦
        ({ type := .interrupted, peer := key.peer, socket := key.socket, reason := .unknown },
          r.p2p.standing key) :=
    announced_foldl_queueEvent (.inl rfl) rfl
  refine ⟨?_, ?_⟩
  · rw [become_log, hearAll_append, h.1, Option.bind_some, hannounced, foldlM_hear_other]
    simp only [List.mem_map, List.mem_filter, forall_exists_index, and_imp, decide_eq_true_eq]
    rintro told lost - hlost rfl heq
    exact hpeer ((congrArg ConnectionKey.peer heq).symm.trans hlost)
  · rw [become_p2p, onPeerDisconnected_standing, if_neg hpeer]
    exact h.2

/-- As long as the send does not lose its peer. -/
theorem Opening.send (h : Opening key r) (hkept : key.peer ∉ r.losses.headD []) (o : Outgoing) :
    Opening key (r.send o) := by
  have hall (lost : List Bytes) (hkept : key.peer ∉ lost) (r : Reentry) (h : Opening key r) :
      Opening key (lost.foldl (fun r peer ↦ r.become (r.p2p.onPeerDisconnected peer)) r) := by
    induction lost generalizing r with
    | nil => exact h
    | cons peer lost ih =>
      rw [List.mem_cons, not_or] at hkept
      exact ih hkept.2 _ (h.lose hkept.1)
  exact hall _ hkept _ h

theorem announced_of_append {p p' : P2p} {event : PendingEvent}
    (h : p'.pendingEvents = p.pendingEvents ++ [event]) : p.announced p' =
      [match event.type with
      | .request | .established => (event, p'.standing event.key)
      | .interrupted | .closed => (event, p.standing event.key)] := by
  rw [announced, h, List.drop_left]
  rfl

theorem announced_queueEvent (p : P2p) (type : EventKind) (key : ConnectionKey)
    (reason : ClosedReason) : p.announced (p.queueEvent type key reason) =
      [({ type, peer := key.peer, socket := key.socket, reason }, p.standing key)] := by
  rw [announced, queueEvent, List.drop_left]
  cases type <;> rfl

/-- One notification: the listener of its connection follows, and the others do not hear of it. -/
theorem Told.queue (h : Told key r) {p : P2p} {event : PendingEvent}
    (hevents : p.pendingEvents = r.p2p.pendingEvents ++ [event])
    (hother : event.key ≠ key → p.standing key = r.p2p.standing key)
    (hhere : event.key = key → hear key (isOpenAt r.p2p key) (match event.type with
      | .request | .established => (event, p.standing key)
      | .interrupted | .closed => (event, r.p2p.standing key)) = some (isOpenAt p key)) :
    Told key (r.become p) := by
  rw [Told, become_log, hearAll_append, h, Option.bind_some, announced_of_append hevents,
    become_p2p, List.foldlM_cons]
  by_cases hkey : event.key = key
  · rw [hkey, hhere hkey]
    rfl
  · rw [hear_other, isOpenAt, isOpenAt, hother hkey]
    · rfl
    · cases htype : event.type <;> exact hkey

/-- A notification about another connection. -/
theorem Told.queueEvent_other (h : Told key r) {origin : ConnectionKey} (hne : origin ≠ key)
    (type : EventKind) (reason : ClosedReason) :
    Told key (r.become (r.p2p.queueEvent type origin reason)) :=
  h.queue rfl (fun _ ↦ rfl) fun heq ↦ absurd heq hne

theorem Opening.established (h : Opening key r) :
    Told key (r.become (r.p2p.queueEvent .established key .unknown)) := by
  rw [Told, become_log, hearAll_append, h.1, Option.bind_some, announced_queueEvent, become_p2p,
    isOpenAt, queueEvent_standing, h.2]
  simp [hear, PendingEvent.key]

theorem setEntry_log (r : Reentry) (key : ConnectionKey) (entry : Connection) :
    (r.setEntry key entry).log = r.log := become_log_quiet rfl

theorem eraseEntry_log (r : Reentry) (key : ConnectionKey) : (r.eraseEntry key).log = r.log :=
  become_log_quiet rfl

/-- An entry is written that opens nothing. -/
theorem Told.setEntry (h : Told key r) {origin : ConnectionKey} {entry : Connection}
    (hsame : origin = key → r.p2p.standing key ≠ some .connectionOpen ∧
      entry.state ≠ .connectionOpen) : Told key (r.setEntry origin entry) := by
  rw [Told, setEntry_log, h, isOpenAt, isOpenAt, Reentry.setEntry, become_p2p, standing_insert]
  by_cases hkey : origin = key
  · simp [hsame hkey, hkey]
  · rw [if_neg hkey]

theorem Told.opening (h : Told key r) (hclosed : r.p2p.standing key ≠ some .connectionOpen) :
    Opening key (r.setEntry key { state := .connectionOpen }) := by
  refine ⟨?_, ?_⟩
  · rw [setEntry_log, h, isOpenAt]
    simp [hclosed]
  · rw [Reentry.setEntry, become_p2p, standing_insert, if_pos rfl]

theorem Told.flushDelayed {origin : ConnectionKey} (packets : List DelayedPacket)
    (h : Told key r) : Told key (flushDelayed origin packets r) := by
  induction packets generalizing r with
  | nil =>
    rw [Reentry.flushDelayed, holding]
    split <;> exact h
  | cons packet packets ih =>
    rw [Reentry.flushDelayed, holding]
    split
    · exact h
    · exact ih (h.send _)

theorem Told.settle (h : Told key r) {origin : ConnectionKey} {entry : Connection}
    (hclosed : r.p2p.standing origin ≠ some .connectionOpen) :
    Told key (r.settle origin entry) := by
  refine Told.flushDelayed entry.delayed ?_
  by_cases hkey : origin = key
  · subst hkey
    exact (h.opening hclosed).established
  · exact (h.setEntry fun heq ↦ absurd heq hkey).queueEvent_other hkey _ _

theorem Told.agree (h : Told key r) {origin : ConnectionKey} {entry : Connection}
    (hclosed : r.p2p.standing origin ≠ some .connectionOpen)
    (hkept : origin.peer ∉ r.losses.headD []) : Told key (r.agree origin entry) := by
  refine Told.flushDelayed entry.delayed ?_
  by_cases hkey : origin = key
  · subst hkey
    exact ((h.opening hclosed).send hkept _).established
  · exact ((h.setEntry fun heq ↦ absurd heq hkey).send _).queueEvent_other hkey _ _

/-! ## Closing -/

/-- A connection there is closes. -/
theorem Told.closed (h : Told key r) {origin : ConnectionKey} {entry : Connection}
    (hentry : r.p2p.connections[origin]? = some entry) :
    Told key ((r.become (r.p2p.queueEvent .closed origin .closedByLocalUser)).eraseEntry
    origin) := by
  by_cases hkey : origin = key
  · subst hkey
    rw [Told, eraseEntry_log, become_log, hearAll_append, h, Option.bind_some, announced_queueEvent,
      isOpenAt, isOpenAt, eraseEntry, become_p2p, standing_erase, if_pos rfl,
      standing_of_lookup hentry]
    simp [hear, PendingEvent.key]
  · refine (h.queueEvent_other hkey _ _).become_quiet rfl ?_
    rw [standing_erase, if_neg hkey]

theorem Told.closeRound (h : Told key r) (origin : ConnectionKey) :
    Told key (r.closeRound origin) := by
  rw [Reentry.closeRound]
  split
  · exact h
  · dsimp only
    rw [holding]
    split
    · exact h.send _
    · rename_i hentry
      exact (h.send _).closed hentry

theorem Told.closeSocketRound (h : Told key r) {origin : ConnectionKey}
    (hsafe : (r.closeSocketRound origin).stale = false) : Told key (r.closeSocketRound origin) := by
  rw [Reentry.closeSocketRound] at hsafe ⊢
  by_cases hgone : r.stale = true ∨ (r.p2p.connections[origin]?).isNone = true
  · rwa [if_pos hgone]
  · rw [if_neg hgone] at hsafe ⊢
    cases hentry : (r.send (control .close origin)).p2p.connections[origin]? with
    | none =>
      rw [holding_of_none] at hsafe
      · cases hsafe
      · exact hentry
    | some entry =>
      rw [holding_of_some]
      · exact ((h.send _).closed hentry).become_quiet rfl rfl
      · exact hentry

/-- Stale uses stop the loop, so none came before a round. -/
theorem Told.foldl_closeSocketRound {keys : List ConnectionKey} (h : Told key r)
    (hsafe : (keys.foldl Reentry.closeSocketRound r).stale = false) :
    Told key (keys.foldl Reentry.closeSocketRound r) := by
  induction keys generalizing r with
  | nil => exact h
  | cons origin keys ih =>
    rw [List.foldl_cons] at hsafe ⊢
    refine ih (h.closeSocketRound ?_) hsafe
    by_contra hstale
    have hstuck := isRound_closeSocketRound.foldl_stuck keys (eq_true_of_ne_false hstale)
    rw [hstuck] at hsafe
    cases hsafe

theorem Told.foldl_closeRound (keys : List ConnectionKey) (h : Told key r) :
    Told key (keys.foldl Reentry.closeRound r) := by
  induction keys generalizing r with
  | nil => exact h
  | cons origin keys ih => exact ih (h.closeRound origin)

/-! ## The operations -/

theorem sendOrHold_pendingEvents (p : P2p) (key : ConnectionKey) (entry : Connection)
    (packet : DelayedPacket) (allowDelayed : Bool) :
    (p.sendOrHold key entry packet allowDelayed).2.1.pendingEvents = p.pendingEvents := by
  rw [P2p.sendOrHold]
  split
  · rfl
  · split
    · rfl
    · split <;> rfl

theorem Told.sendOrHold (h : Told key r) {origin : ConnectionKey} {entry : Connection}
    (hentry : r.p2p.connections[origin]? = some entry) (packet : DelayedPacket)
    (allowDelayed : Bool) : Told key (r.sendOrHold origin entry packet allowDelayed) := by
  have hall (sends : List Outgoing) (r : Reentry) (h : Told key r) :
      Told key (sends.foldl Reentry.send r) := by
    induction sends generalizing r with
    | nil => exact h
    | cons o sends ih => exact ih _ (h.send o)
  exact hall _ _ (h.become_quiet (sendOrHold_pendingEvents _ _ _ _ _)
    (sendOrHold_standing hentry key))

theorem Told.sendPacket (h : Told key r) (options : SendPacketOptions) :
    Told key (r.sendPacket options) := by
  rw [Reentry.sendPacket]
  split
  · exact h
  · rename_i origin packet htarget
    dsimp only
    split
    · rename_i entry hentry
      exact h.sendOrHold hentry _ _
    · rename_i hnone
      split
      · exact h
      · have hasked : Told key ((r.setEntry origin { state := .connectionPending }).send
            (control .request origin)) := by
          refine (h.setEntry fun heq ↦ ⟨?_, by simp⟩).send _
          rw [← heq, standing_of_no_entry hnone]
          simp
        rw [holding]
        split
        · exact hasked
        · rename_i entry hentry
          exact hasked.sendOrHold hentry _ _

theorem ne_open_of_lookup {p : P2p} {origin : ConnectionKey} {entry : Connection}
    (hentry : p.connections[origin]? = some entry) (hstate : entry.state ≠ .connectionOpen) :
    p.standing origin ≠ some .connectionOpen := by
  rw [standing_of_lookup hentry]
  simpa using hstate

theorem Told.agree_safe (h : Told key r) {origin : ConnectionKey} {entry : Connection}
    (hstale : r.stale = false) (hentry : r.p2p.connections[origin]? = some entry)
    (hstate : entry.state ≠ .connectionOpen) (hsafe : (r.agree origin entry).stale = false) :
    Told key (r.agree origin entry) := by
  have hkept := (agree_stale hstale entry).1 hsafe
  rw [outlasts, decide_eq_true_eq] at hkept
  exact h.agree (ne_open_of_lookup hentry hstate) hkept.1

theorem Told.acceptConnection (h : Told key r) (options : AcceptConnectionOptions)
    (hstale : r.stale = false) (hsafe : (r.acceptConnection options).stale = false) :
    Told key (r.acceptConnection options) := by
  rw [Reentry.acceptConnection] at hsafe ⊢
  cases htarget : r.p2p.acceptTarget options with
  | error result => exact h
  | ok origin =>
    rw [htarget] at hsafe
    dsimp only at hsafe ⊢
    cases hentry : r.p2p.connections[origin]? with
    | none =>
      refine (h.setEntry fun heq ↦ ⟨?_, by simp⟩).send _
      rw [← heq, standing_of_no_entry hentry]
      simp
    | some entry =>
      rw [hentry] at hsafe
      dsimp only at hsafe ⊢
      cases hstate : entry.state with
      | connectionOpen => exact h
      | connectionRequested =>
        rw [hstate] at hsafe
        exact h.agree_safe hstale hentry (by simp [hstate]) hsafe
      | connectionPending => exact h.send _

theorem Told.asked (h : Told key r) {origin : ConnectionKey}
    (hnone : r.p2p.connections[origin]? = none) : Told key (r.become (r.p2p.onAsked origin)) := by
  refine h.queue rfl (fun hne ↦ ?_) fun heq ↦ ?_
  · rw [onAsked_standing]
    exact if_neg hne
  · obtain rfl : origin = key := heq
    rw [isOpenAt, isOpenAt, onAsked_standing, if_pos rfl, standing_of_no_entry hnone]
    simp [hear, PendingEvent.key]

theorem Told.ended (h : Told key r) (origin : ConnectionKey) :
    Told key (r.become (r.p2p.onConnectionClose origin)) := by
  rw [onConnectionClose]
  cases hentry : r.p2p.connections[origin]? with
  | none => exact h.become_quiet rfl rfl
  | some entry =>
    refine h.queue rfl (fun hne ↦ ?_) fun heq ↦ ?_
    · rw [queueEvent_standing, flushPackets_standing, standing_erase]
      exact if_neg hne
    · obtain rfl : origin = key := heq
      rw [isOpenAt, isOpenAt, queueEvent_standing, flushPackets_standing, standing_erase,
        if_pos rfl, standing_of_lookup hentry]
      simp [hear, PendingEvent.key]

theorem Told.data (h : Told key r) (origin : ConnectionKey) (channel : Int32) (data : Bytes) :
    Told key (r.become (r.p2p.onData origin channel data)) := by
  rw [onData]
  split
  · exact h.become_quiet rfl rfl
  · split
    · split
      · rename_i hnone
        exact h.asked hnone
      · split
        · exact h.become_quiet rfl rfl
        · split <;> exact h.become_quiet rfl rfl
    · exact h.become_quiet rfl rfl

/-- A message that is not answered. -/
theorem Told.unanswered (h : Told key r) {message : NetEnvelope}
    (hother : ∀ found, r.p2p.addressed message = some found →
      message.typeTag ≠ MessageType.p2pConnectRequest.tag ∧
        message.typeTag ≠ MessageType.p2pConnectResponse.tag) :
    Told key (r.become (r.p2p.onNetworkMessage message).1) := by
  rw [onNetworkMessage_eq]
  split
  · exact h.lose _
  · split
    · exact h.become_quiet rfl rfl
    · split
      · exact h.become_quiet rfl rfl
      · rename_i origin payload haddressed
        obtain ⟨hrequest, hresponse⟩ := hother _ haddressed
        rw [onAddressed]
        split
        · exact h.data _ _ _
        · split
          · exact h.ended _
          · exact h.become_quiet rfl rfl

theorem Told.onNetworkMessage (h : Told key r) (message : NetEnvelope) (hstale : r.stale = false)
    (hsafe : (r.onNetworkMessage message).stale = false) :
    Told key (r.onNetworkMessage message) := by
  rw [Reentry.onNetworkMessage] at hsafe ⊢
  cases haddressed : r.p2p.addressed message with
  | none => exact h.unanswered fun found hfound ↦ by rw [haddressed] at hfound; cases hfound
  | some found =>
    obtain ⟨origin, payload⟩ := found
    rw [haddressed] at hsafe
    dsimp only at hsafe ⊢
    by_cases hrequest : message.typeTag = MessageType.p2pConnectRequest.tag
    · rw [if_pos hrequest, Reentry.onConnectRequest] at hsafe ⊢
      cases hentry : r.p2p.connections[origin]? with
      | none => exact h.asked hentry
      | some entry =>
        rw [hentry] at hsafe
        dsimp only at hsafe ⊢
        cases hstate : entry.state with
        | connectionOpen => exact h.send _
        | connectionRequested => exact h
        | connectionPending =>
          rw [hstate] at hsafe
          exact h.agree_safe hstale hentry (by simp [hstate]) hsafe
    · rw [if_neg hrequest] at hsafe ⊢
      by_cases hresponse : message.typeTag = MessageType.p2pConnectResponse.tag
      · rw [if_pos hresponse, Reentry.onConnectResponse]
        cases hentry : r.p2p.connections[origin]? with
        | none => exact h
        | some entry =>
          dsimp only
          split
          · rename_i hpending
            exact h.settle (ne_open_of_lookup hentry (by simp [hpending]))
          · exact h
      · rw [if_neg hresponse]
        exact h.unanswered fun _ _ ↦ ⟨hrequest, hresponse⟩

/-- **An operation that uses nothing stale keeps to the grammar.** -/
theorem Told.operate (h : Told key r) (hstale : r.stale = false) {i : P2pInput}
    (hsafe : (r.operate i).stale = false) : Told key (r.operate i) := by
  cases i with
  | receive message => exact h.onNetworkMessage message hstale hsafe
  | call c =>
    cases c with
    | sendPacket options => exact h.sendPacket options
    | acceptConnection options => exact h.acceptConnection options hstale hsafe
    | closeConnection options =>
      rw [Reentry.operate, Reentry.closeConnection]
      split
      · exact h
      · dsimp only
        split
        · exact h.foldl_closeRound _
        · exact (h.foldl_closeRound _).become_quiet rfl rfl
    | closeConnections options =>
      rw [Reentry.operate, Reentry.closeConnections] at hsafe ⊢
      cases htarget : r.p2p.closeConnectionsTarget options with
      | error result => exact h
      | ok socket =>
        rw [htarget] at hsafe
        exact h.foldl_closeSocketRound hsafe
    | receivePacket options =>
      show Told key (r.become (r.p2p.receivePacket options).2.1)
      rw [receivePacket]
      split
      · exact h.become_quiet rfl rfl
      · split
        · exact h.become_quiet rfl rfl
        · dsimp only
          split <;> exact h.become_quiet rfl rfl
    | setPacketQueueSize options =>
      show Told key (r.become (r.p2p.setPacketQueueSize options).2)
      rw [setPacketQueueSize]
      split <;> exact h.become_quiet rfl rfl
    | clearPacketQueue options =>
      show Told key (r.become (r.p2p.clearPacketQueue options).2)
      rw [clearPacketQueue]
      split
      · exact h.become_quiet rfl rfl
      · split
        · exact h.become_quiet rfl rfl
        · exact h.become_quiet rfl (by rw [discardDelayed_standing, flushPackets_standing])
    | runFrame =>
      -- The queue is emptied, and nothing joins it.
      have hannounced : r.p2p.announced r.p2p.cbRunFrame = [] := by
        rw [announced, cbRunFrame, List.drop_nil, List.map_nil]
      show Told key (r.become r.p2p.cbRunFrame)
      rw [Told, become_log, hannounced, List.append_nil]
      exact h

end Reentry

/-! ## Runs -/

/-- An instance, and every notification that it ever queued. -/
structure Announcing where
  p2p : P2p
  log : List (PendingEvent × Standing) := []

namespace Announcing

open Reentry

/-- An operation, and the peers its sends lose. -/
def step (s : Announcing) (i : P2pInput × List (List Bytes)) : Option Announcing :=
  let r := ({ p2p := s.p2p, losses := i.2, log := s.log } : Reentry).operate i.1
  some { p2p := r.p2p, log := r.log }

/-- No send in the operation loses the peer of a connection that the operation uses again. -/
def KeepsInUse (s : Announcing) (i : P2pInput × List (List Bytes)) : Prop :=
  keepsInUse s.p2p i.2 i.1 = true

instance (s : Announcing) (i : P2pInput × List (List Bytes)) : Decidable (KeepsInUse s i) :=
  inferInstanceAs (Decidable (_ = _))

/-- Every listener could follow, and believes what is so. -/
def Grammatical (s : Announcing) : Prop :=
  ∀ key, hearAll key s.log = some (isOpenAt s.p2p key)

variable {s s' : Announcing}

theorem grammatical_step (h : Grammatical s) {i : P2pInput × List (List Bytes)}
    (hkeeps : KeepsInUse s i) (hstep : s.step i = some s') : Grammatical s' := by
  cases hstep
  intro key
  have htold : Reentry.Told key { p2p := s.p2p, losses := i.2, log := s.log } := h key
  exact htold.operate rfl ((operate_stale rfl i.1).2 hkeeps)

/-- **In every run in which no send loses the peer of a connection that the operation it belongs to
uses again, the notifications of each connection keep to the grammar**, and what they add up to is
whether it is open. -/
theorem announcements_grammatical {productUserId productId : Bytes}
    (h : Reaches step KeepsInUse { p2p := { productUserId, productId } } s) : Grammatical s :=
  h.invariant (fun key ↦ by simp [hearAll, isOpenAt, P2p.standing])
    fun _ _ _ hs hkeeps hstep ↦ grammatical_step hs hkeeps hstep

/-- A connection of the first instance with the second is agreed to, and then lost. -/
theorem announcements_grammatical_lost : ∃ s,
    Reaches step KeepsInUse { p2p := { productUserId := [1], productId := [9] } } s ∧
      s.log.map (·.1.type) = [.established, .interrupted] ∧ Grammatical s := by
  obtain ⟨s, h, hlog⟩ := exists_reaches step KeepsInUse
    { p2p := { productUserId := [1], productId := [9] } }
    (fun s ↦ s.log.map (·.1.type) = [.established, .interrupted])
    [(firstPacket [2], []), (Consenting.fromTwo .response ⟨[], by decide⟩, []),
      (firstPacket [2], [[[2]]])] (by decide +kernel) (by decide +kernel)
  exact ⟨s, h, hlog, announcements_grammatical h⟩

/-- What `[2]` asked for is accepted. -/
def acceptTwo : P2pInput :=
  .call (.acceptConnection
    { apiVersion := 1, localUserId := some [1], remoteUserId := some [2]
      socketId := some { apiVersion := 1, socketName := [65] } })

/-- The response to `[2]` loses it, and then the game is told that the connection is established. -/
theorem not_grammatical_accept : ∃ s,
    Reaches step always { p2p := { productUserId := [1], productId := [9] } } s ∧
      (∃ told ∈ s.log, told.1.type = .established ∧ told.2 = none) ∧ ¬ Grammatical s := by
  obtain ⟨s, h, hlog, hheard⟩ := exists_reaches step always
    { p2p := { productUserId := [1], productId := [9] } }
    (fun s ↦ (∃ told ∈ s.log, told.1.type = .established ∧ told.2 = none) ∧
      hearAll { peer := [2], socket := ⟨[65], by decide⟩ } s.log = none)
    [(Consenting.fromTwo .request ⟨[], by decide⟩, []), (acceptTwo, [[[2]]])]
    (by decide +kernel) (meets_always _ _)
  refine ⟨s, h, hlog, fun hall ↦ ?_⟩
  have hfollowed := hall { peer := [2], socket := ⟨[65], by decide⟩ }
  rw [hheard] at hfollowed
  cases hfollowed

end Announcing
end EosMesh
