import EosMesh.Net.Router.Machine
import EosMesh.Lib.Run
import EosMesh.Lib.Table

/-!
# What one step of the router can do

The machine's step has some twenty branches; every invariant of the router only needs to know what
each of them does to the peer table, to the calls under way and to the trace.  That is said here
once.

* `Peer.SameLink` says that a peer's entry is still the same authenticated connection: its proven
  key, its epic id and its receiving cipher are untouched, whatever was queued or learnt meanwhile.
  `Router.SamePeers` lifts it to the table, and each operation of the router that only sends,
  listens or dials has its frame lemma.
* `DrainSpec` says what one peer's turn in a drain can do: which envelopes come of it, under whose
  id and key, and that nothing but the receiving cipher moves (`drainPeer_identity`).
* `shakeLoop_proves` and `ProvedBy` are about handshakes: a connection is adopted only under the id
  of the key that its handshake proved, which for one that we dialed is the id it was dialed for.
* `Effect` lists what a step can do, and `step_effect` proves that it can do nothing else: sends and
  registrations, which at most ask for drops; a stop; a call that has nothing left to do; a peer
  dropped or adopted; a lifecycle event raised; an envelope dispatched or delivered; a datagram; the
  loopback read; the peers drained.

An invariant of the router is then proved by cases on `Effect`, with one lemma for each case that it
does not get from the frame lemmas; and a change to one branch of the machine is felt here and in
these.
-/

set_option autoImplicit false

namespace EosMesh

open Lib
open Std (TreeMap)

/-! ## The same connection -/

/-- `entry'` is the connection `entry` was, as far as identity and reception go. -/
structure Peer.SameLink (entry entry' : Peer) : Prop where
  established : entry'.channel.established = entry.channel.established
  remoteStatic : entry'.channel.remoteStatic = entry.channel.remoteStatic
  recv : entry'.channel.recv = entry.channel.recv
  epicId : entry'.epicId = entry.epicId

namespace Peer.SameLink

theorem refl (entry : Peer) : entry.SameLink entry := ⟨rfl, rfl, rfl, rfl⟩

theorem trans {a b c : Peer} (h : a.SameLink b) (h' : b.SameLink c) : a.SameLink c where
  established := h'.established.trans h.established
  remoteStatic := h'.remoteStatic.trans h.remoteStatic
  recv := h'.recv.trans h.recv
  epicId := h'.epicId.trans h.epicId

end Peer.SameLink

namespace Router

/-- Both tables hold the same peers, over the same connections. -/
structure SamePeers (r r' : Router) : Prop where
  back : ∀ (id : Bytes) (entry' : Peer), r'.peers[id]? = some entry' →
    ∃ entry, r.peers[id]? = some entry ∧ entry.SameLink entry'
  forth : ∀ (id : Bytes) (entry : Peer), r.peers[id]? = some entry →
    ∃ entry', r'.peers[id]? = some entry' ∧ entry.SameLink entry'

variable {r r' r'' : Router} {crypto : Crypto} {config : Config} {w : World}

theorem SamePeers.of_eq (h : r'.peers = r.peers) : SamePeers r r' where
  back id entry' h' := ⟨entry', by rwa [← h], .refl _⟩
  forth id entry h' := ⟨entry, by rwa [h], .refl _⟩

theorem SamePeers.trans (h : SamePeers r r') (h' : SamePeers r' r'') : SamePeers r r'' where
  back id entry'' hget := by
    obtain ⟨entry', hget', hlink'⟩ := h'.back id entry'' hget
    obtain ⟨entry, hget, hlink⟩ := h.back id entry' hget'
    exact ⟨entry, hget, hlink.trans hlink'⟩
  forth id entry hget := by
    obtain ⟨entry', hget', hlink⟩ := h.forth id entry hget
    obtain ⟨entry'', hget'', hlink'⟩ := h'.forth id entry' hget'
    exact ⟨entry'', hget'', hlink.trans hlink'⟩

theorem SamePeers.contains (h : SamePeers r r') (id : Bytes) :
    r'.peers.contains id = r.peers.contains id := by
  rw [Bool.eq_iff_iff, contains_iff_lookup, contains_iff_lookup]
  constructor
  · rintro ⟨entry', hget⟩
    obtain ⟨entry, hget, -⟩ := h.back id entry' hget
    exact ⟨entry, hget⟩
  · rintro ⟨entry, hget⟩
    obtain ⟨entry', hget, -⟩ := h.forth id entry hget
    exact ⟨entry', hget⟩

/-- Replacing one peer's entry by the same connection. -/
theorem SamePeers.insert {id : Bytes} {entry entry' : Peer} (hget : r.peers[id]? = some entry)
    (hlink : entry.SameLink entry') (hp : r'.peers = r.peers.insert id entry') :
    SamePeers r r' := by
  have hlook : ∀ id', r'.peers[id']? = if id = id' then some entry' else r.peers[id']? := by
    intro id'
    rw [hp, lookup_insert]
  constructor
  · intro id' e' h'
    rw [hlook] at h'
    split at h'
    · rename_i heq
      subst heq
      cases h'
      exact ⟨entry, hget, hlink⟩
    · exact ⟨e', h', .refl _⟩
  · intro id' e h'
    rw [hlook]
    split
    · rename_i heq
      subst heq
      rw [hget] at h'
      cases h'
      exact ⟨entry', rfl, hlink⟩
    · exact ⟨e, h', .refl _⟩

/-- Replacing every entry by the same connection. -/
theorem SamePeers.map {f : Bytes → Peer → Peer}
    (hf : ∀ (id : Bytes) (entry : Peer), entry.SameLink (f id entry))
    (hp : r'.peers = r.peers.map f) : SamePeers r r' := by
  have hlook : ∀ id, r'.peers[id]? = r.peers[id]?.map (f id) := by
    intro id
    rw [hp, TreeMap.getElem?_map]
  constructor
  · intro id e' h'
    rw [hlook, Option.map_eq_some_iff] at h'
    obtain ⟨e, hget, rfl⟩ := h'
    exact ⟨e, hget, hf id e⟩
  · intro id e hget
    exact ⟨f id e, by rw [hlook, hget]; rfl, hf id e⟩

/-! ## Sending and learning keep every connection -/

theorem sendFrame_sameLink (entry : Peer) (plain : Bytes) :
    entry.SameLink (sendFrame crypto w entry plain).2 := by
  rw [sendFrame]
  cases hs : sealFrame crypto entry.channel plain with
  | none => exact .refl _
  | some sealed =>
    obtain ⟨framed, channel⟩ := sealed
    rw [sealFrame] at hs
    dsimp only at hs ⊢
    split at hs
    · cases hs
    · split at hs
      · cases hs
      · rename_i hseal
        cases hs
        obtain ⟨-, hch⟩ := PeerChannel.sealBytes_eq hseal
        have hlink : entry.SameLink { entry with channel } := by
          rw [hch]
          exact ⟨rfl, rfl, rfl, rfl⟩
        rw [queueAndFlush]
        split
        · exact hlink
        · exact hlink.trans ⟨rfl, rfl, rfl, rfl⟩

theorem send_samePeers (r : Router) (msg : NetEnvelope) :
    SamePeers r (r.send crypto w msg).2.1 := by
  rw [send]
  split
  · exact .of_eq rfl
  · split
    · exact .map (fun _ entry ↦ sendFrame_sameLink entry _) rfl
    · rw [sendTo]
      cases hget : r.peers[msg.destId]? with
      | none => exact .of_eq rfl
      | some entry =>
        dsimp only
        split
        all_goals exact .insert hget (sendFrame_sameLink entry _) rfl

theorem sendDatagram_samePeers (r : Router) (peerId payload : Bytes) :
    SamePeers r (r.sendDatagram crypto config w peerId payload).2 := by
  rw [sendDatagram]
  split
  · exact .of_eq rfl
  · cases hget : r.peers[peerId]? with
    | none => exact .of_eq rfl
    | some entry =>
      dsimp only
      split
      · exact .of_eq rfl
      · cases hseal : entry.channel.sealDatagram crypto config.productUserId peerId payload with
        | none => exact .of_eq rfl
        | some sealed =>
          obtain ⟨seq, cipher, channel⟩ := sealed
          obtain ⟨-, hch⟩ := PeerChannel.sealDatagram_eq hseal
          have hlink : entry.SameLink { entry with channel } := by
            rw [hch]
            exact ⟨rfl, rfl, rfl, rfl⟩
          dsimp only
          split
          all_goals exact .insert hget hlink rfl

theorem handleAdvertise_peers (r : Router) (msg : NetEnvelope) (source : Endpoint) :
    (r.handleAdvertise config w msg source).peers = r.peers := by
  rw [handleAdvertise]
  repeat' split
  all_goals rfl

/-- An opened datagram is from a peer in the table, whose connection it leaves as it was. -/
theorem openDatagram_eq {r : Router} {data id plain : Bytes} {entry' : Peer}
    (h : r.openDatagram crypto config w data = some (id, entry', plain)) :
    ∃ entry, r.peers[id]? = some entry ∧ entry.SameLink entry' := by
  rw [openDatagram] at h
  split at h
  · cases h
  · dsimp only at h
    split at h
    · cases h
    · rename_i hfind
      split at h
      · cases h
      · rename_i id' entry _ _ _ hopen
        cases h
        have hmem := List.mem_of_find?_eq_some hfind
        obtain ⟨-, hch⟩ := PeerChannel.openDatagram_eq hopen
        refine ⟨entry, (mem_toList_iff_lookup _ _ _).1 hmem, ?_⟩
        rw [hch]
        exact ⟨rfl, rfl, rfl, rfl⟩

theorem readPlain_fields (id : Bytes) (entry : Peer) (plain : Bytes) :
    (readPlain config w id entry plain).1.channel = entry.channel ∧
      (readPlain config w id entry plain).1.epicId = entry.epicId := by
  rw [readPlain]
  split
  · exact ⟨rfl, rfl⟩
  · dsimp only
    split
    · rw [learnDatagramPort]
      repeat' split
      all_goals exact ⟨rfl, rfl⟩
    · split
      all_goals exact ⟨rfl, rfl⟩

theorem readPlains_fields (id : Bytes) (entry : Peer) (plains : List Bytes) :
    (readPlains config w id entry plains).1.channel = entry.channel ∧
      (readPlains config w id entry plains).1.epicId = entry.epicId := by
  induction plains generalizing entry with
  | nil => exact ⟨rfl, rfl⟩
  | cons plain plains ih =>
    have hfirst : (readPlain config w id entry plain).1.channel = entry.channel ∧
        (readPlain config w id entry plain).1.epicId = entry.epicId :=
          readPlain_fields id entry plain
    obtain ⟨hch, hepic⟩ := ih (readPlain config w id entry plain).1
    exact ⟨hch.trans hfirst.1, hepic.trans hfirst.2⟩

/-! ## What a drain delivers -/

/-- `msg` is what an opened frame of peer `id` is delivered as: what it decodes to, under the id of
the key that opened it, and neither an announcement nor meant for somebody else. -/
structure DeliveredAs (config : Config) (id plain : Bytes) (msg : NetEnvelope) : Prop where
  decodes : ∃ decoded rest, NetEnvelope.deserialize.run plain = some (decoded, rest) ∧
    msg = { decoded with sourceId := id }
  notAdvertise : msg.typeTag ≠ MessageType.netAdvertise.tag
  accepted : acceptInbound config msg = true

theorem DeliveredAs.sourceId {id plain : Bytes} {msg : NetEnvelope}
    (h : DeliveredAs config id plain msg) : msg.sourceId = id := by
  obtain ⟨_, _, -, rfl⟩ := h.decodes
  rfl

theorem readPlain_delivers {id plain : Bytes} {entry : Peer} {msg : NetEnvelope}
    (h : (readPlain config w id entry plain).2 = some msg) : DeliveredAs config id plain msg := by
  rw [readPlain] at h
  split at h
  · cases h
  · rename_i decoded rest hrun
    dsimp only at h
    split at h
    · cases h
    · rename_i hadv
      split at h
      · rename_i hacc
        cases h
        exact ⟨⟨decoded, rest, hrun, rfl⟩, hadv, hacc⟩
      · cases h

theorem readPlains_delivers {id plain : Bytes} {entry : Peer} {plains : List Bytes}
    {msg : NetEnvelope} (h : (msg, plain) ∈ (readPlains config w id entry plains).2) :
    plain ∈ plains ∧ DeliveredAs config id plain msg := by
  induction plains generalizing entry with
  | nil => simp [readPlains] at h
  | cons head plains ih =>
    rw [readPlains] at h
    rcases List.mem_append.1 h with h | h
    · rw [Option.mem_toList, Option.map_eq_some_iff] at h
      obtain ⟨msg', hmsg, heq⟩ := h
      cases heq
      exact ⟨List.mem_cons_self, readPlain_delivers hmsg⟩
    · obtain ⟨hmem, hdel⟩ := ih h
      exact ⟨List.mem_cons_of_mem _ hmem, hdel⟩

/-- **What one peer's turn in the drain can do.** -/
structure DrainSpec (crypto : Crypto) (config : Config) (w : World) (id : Bytes) (entry : Peer)
    (drained : Drained) : Prop where
  plains : drained.plains = (openArrived crypto w entry).plains
  channel : drained.entry.channel = (openArrived crypto w entry).channel
  epicId : drained.entry.epicId = entry.epicId
  messages : ∀ msg plain, (msg, plain) ∈ drained.messages →
    plain ∈ drained.plains ∧ DeliveredAs config id plain msg

theorem drainPeer_spec (id : Bytes) (entry : Peer) :
    DrainSpec crypto config w id entry (drainPeer crypto config w id entry) := by
  set opened := openArrived crypto w entry with hopened
  have hfields : ∀ e : Peer, e.channel = opened.channel → e.epicId = entry.epicId →
      (readPlains config w id e opened.plains).1.channel = opened.channel ∧
        (readPlains config w id e opened.plains).1.epicId = entry.epicId := by
    intro e hch hepic
    obtain ⟨hch', hepic'⟩ := @readPlains_fields config w id e opened.plains
    exact ⟨hch'.trans hch, hepic'.trans hepic⟩
  obtain ⟨hch, hepic⟩ :=
    hfields { entry with buffer := opened.buffer, channel := opened.channel } rfl rfl
  rw [drainPeer]
  dsimp only
  rw [← hopened]
  split
  · exact ⟨rfl, hch, hepic, fun _ _ h ↦ readPlains_delivers h⟩
  · split
    · exact ⟨rfl, hch, hepic, fun _ _ h ↦ readPlains_delivers h⟩
    · exact ⟨rfl, hch, hepic, fun _ _ h ↦ readPlains_delivers h⟩

/-- A drain leaves the peer's identity alone and moves only its receiving cipher. -/
theorem drainPeer_identity (id : Bytes) (entry : Peer) :
    (drainPeer crypto config w id entry).entry.channel =
        { entry.channel with recv := (openArrived crypto w entry).channel.recv } ∧
      (drainPeer crypto config w id entry).entry.epicId = entry.epicId := by
  have hspec : DrainSpec crypto config w id entry (drainPeer crypto config w id entry) :=
    drainPeer_spec id entry
  refine ⟨?_, hspec.epicId⟩
  rw [hspec.channel]
  exact unsealFrames_channel _ _ _

/-! ## What a handshake proves -/

theorem pushReply_fields {sends sends' : List SendResult} {entry entry' : HandshakingPeer}
    {reply : Bytes} {ok : Bool} (h : pushReply sends entry reply = (ok, entry', sends')) :
    entry'.expectedId = entry.expectedId ∧ entry'.channel = entry.channel := by
  rw [pushReply] at h
  split at h
  · cases h
    exact ⟨rfl, rfl⟩
  · cases h
    exact ⟨rfl, rfl⟩

/-- A loop over handshake messages proves an id only with a channel that was just established, and
then it is the id of the key that channel proved. -/
theorem shakeLoop_proves {fuel : Nat} {sends : List SendResult} {entry entry' : HandshakingPeer}
    {proved proved' : Bytes}
    (h : shakeLoop crypto config w fuel sends entry proved = some (entry', proved'))
    (hstart : proved = [] ∨
      PeerChannel.Fresh entry.channel ∧ proved = config.idOfKey crypto entry.channel.remoteStatic) :
    entry'.expectedId = entry.expectedId ∧
      (proved' = [] ∨ PeerChannel.Fresh entry'.channel ∧
        proved' = config.idOfKey crypto entry'.channel.remoteStatic) := by
  induction fuel generalizing sends entry proved with
  | zero =>
    cases h
    exact ⟨rfl, hstart⟩
  | succ fuel ih =>
    rw [shakeLoop] at h
    split at h
    · cases h
      exact ⟨rfl, hstart⟩
    · rename_i hest
      have hnil : proved = [] := by
        rcases hstart with hnil | ⟨hfresh, -⟩
        · exact hnil
        · exact absurd hfresh.established hest
      split at h
      · cases h
      · cases h
        exact ⟨rfl, hstart⟩
      · split at h
        · cases h
        · split at h
          · rename_i hpush
            obtain ⟨hexp, hch⟩ := pushReply_fields hpush
            obtain ⟨hexp', hend⟩ := ih h (.inl hnil)
            exact ⟨hexp'.trans hexp, hend⟩
          · cases h
        · rename_i reply channel hread
          split at h
          · rename_i hpush
            obtain ⟨hexp, hch⟩ := pushReply_fields hpush
            have hfresh := PeerChannel.readHandshake_done hread
            obtain ⟨hexp', hend⟩ := ih h (.inr ⟨by rw [hch]; exact hfresh, by rw [hch]⟩)
            exact ⟨hexp'.trans hexp, hend⟩
          · cases h

/-- **A connection is adopted only under the id of the key its handshake proved**, which for a
connection we dialed is the id it was dialed for. -/
structure ProvedBy (crypto : Crypto) (config : Config) (id : Bytes) (entry : HandshakingPeer) :
    Prop where
  fresh : PeerChannel.Fresh entry.channel
  idOfKey : id = config.idOfKey crypto entry.channel.remoteStatic
  expected : entry.expectedId = [] ∨ entry.expectedId = id

theorem shakeOne_proves {entry entry' : HandshakingPeer} {id : Bytes}
    (h : shakeOne crypto config w entry = .proved id entry') :
    ProvedBy crypto config id entry' := by
  rw [shakeOne] at h
  split at h
  · cases h
  · dsimp only at h
    split at h
    · cases h
    · rename_i hloop
      obtain ⟨-, hend⟩ := shakeLoop_proves hloop (.inl rfl)
      split at h
      · cases h
      · rename_i hexp
        split at h
        · cases h
        · split at h
          · cases h
          · rename_i hne
            cases h
            rcases hend with hnil | ⟨hfresh, hid⟩
            · exact absurd hnil hne
            · refine ⟨hfresh, hid, ?_⟩
              by_contra hc
              rw [not_or] at hc
              exact hexp ⟨hne, hc⟩

end Router

/-! ## The effect of a step -/

namespace Machine

variable (crypto : Crypto) (config : Config)

/-- Only the queue of calls, the phases and tables other than the peers' may differ. -/
structure Quiet (m m' : Machine) : Prop where
  peers : m.router.SamePeers m'.router
  trace : m'.trace = m.trace

/-- What a step can do to the peers, the calls and the trace.  The call that was at the front is
named where it has one; phases run only when no call is under way. -/
inductive Effect (m : Machine) : Input → Machine → Prop
  /-- Nothing but sends, dials and registrations, by whoever has control or by an announcement; the
  sends that failed ask for drops. -/
  | quiet {i : Input} {m' : Machine} {rest : List Call} (drops : List (Bytes × DropReason))
      (hq : Quiet m m') (hcalls : m'.calls = drops.map (fun d ↦ .dropPeer d.1 d.2) ++ rest)
      (hrest : (m.calls = rest ∧ (rest = [] ∨ ∃ l calls, rest = .listening l :: calls)) ∨
        ∃ id, m.calls = .announceTo id :: rest) : Effect m i m'
  /-- The game stopped the router, or started it afresh. -/
  | cleared {i : Input} {m' : Machine} (hi : i = .stop ∨ ∃ ports, i = .start ports)
      (hcalls : m.calls = []) (hcalls' : m'.calls = [])
      (hpeers : ∀ id : Bytes, m'.router.peers[id]? = none)
      (htrace : ∃ ids : List Bytes,
        m'.trace = ids.map (Event.removed · .localShutdown) ++ m.trace) : Effect m i m'
  /-- A call that had nothing left to do returned. -/
  | returned {i : Input} {call : Call} (rest : List Call) (hcalls : m.calls = call :: rest)
      (hcall : (∃ id reason, call = .dropPeer id reason ∧ m.router.peers[id]? = none) ∨
        (∃ msg origin, call = .deliver msg origin []) ∨ (∃ l, call = .listening l) ∨
        call = .dispatchAll []) : Effect m i { m with calls := rest }
  | dropped {w : World} {id : Bytes} {reason : DropReason} {entry : Peer} (rest : List Call)
      (hcalls : m.calls = .dropPeer id reason :: rest) (hget : m.router.peers[id]? = some entry) :
      Effect m (.run w)
        { m with
          router := { m.router with peers := m.router.peers.erase id }
          calls := .raiseDisconnected id :: rest
          trace := .removed id reason :: m.trace }
  | raisedConnected {w : World} {id key : Bytes} (rest : List Call)
      (hcalls : m.calls = .raiseConnected id key :: rest) :
      Effect m (.run w)
        (dispatch { m with calls := rest } (peerEvent config m.router .peerConnected id)
          (.adoption key))
  | raisedDisconnected {w : World} {id : Bytes} (rest : List Call)
      (hcalls : m.calls = .raiseDisconnected id :: rest) :
      Effect m (.run w)
        (dispatch { m with calls := rest } (peerEvent config m.router
          .peerDisconnected id) .removal)
  | delivered {w : World} {msg : NetEnvelope} {origin : Origin} {listener : Listener}
      {listeners : List Listener} (rest : List Call)
      (hcalls : m.calls = .deliver msg origin (listener :: listeners) :: rest) :
      Effect m (.run w)
        { m with
          calls := .listening listener :: .deliver msg origin listeners :: rest
          trace := .delivered listener msg origin :: m.trace }
  | selfRead {w : World} {messages : List (NetEnvelope × Origin)} (rest : List Call)
      (hcalls : m.calls = .drainSelf messages :: rest) :
      Effect m (.run w)
        { m with
          router := (m.router.readSelf w).1
          calls := .dispatchAll (messages ++ (m.router.readSelf w).2.map (·, .self)) :: rest }
  | dispatchedNext {w : World} {msg : NetEnvelope} {origin : Origin}
      {messages : List (NetEnvelope × Origin)} (rest : List Call)
      (hcalls : m.calls = .dispatchAll ((msg, origin) :: messages) :: rest) :
      Effect m (.run w) (dispatch { m with calls := .dispatchAll messages :: rest } msg origin)
  /-- A datagram opened under the key of a peer in the table. -/
  | datagram {w : World} {m' : Machine} {id plain : Bytes} {entry : Peer} (hcalls : m.calls = [])
      (hget : m.router.peers[id]? = some entry) (hq : m.router.SamePeers m'.router)
      (hcalls' : m'.calls = [.deliver (Router.datagramEnvelope config id plain)
        (.datagram entry.channel.remoteStatic plain)
        (m.router.listenersOf (Router.datagramEnvelope config id plain).typeTag)])
      (htrace : m'.trace = .dispatched (Router.datagramEnvelope config id plain)
        (.datagram entry.channel.remoteStatic plain) :: .openedDatagram id
          entry.channel.remoteStatic plain ::
          m.trace) :
      Effect m (.run w) m'
  /-- A finished handshake became a peer. -/
  | adopted {w : World} {m' : Machine} {id : Bytes} {entry : HandshakingPeer}
      (hcalls : m.calls = []) (hproved : Router.ProvedBy crypto config id entry)
      (hown : id ≠ config.productUserId) (hfree : m.router.peers[id]? = none)
      (hpeers : m'.router.peers = m.router.peers.insert id (Router.adoptedPeer crypto w entry))
      (hcalls' : m'.calls = [.announceTo id, .raiseConnected id entry.channel.remoteStatic])
      (htrace : m'.trace = .adopted id entry.channel.remoteStatic entry.expectedId
        entry.channel.recv.key :: m.trace) : Effect m (.run w) m'
  /-- The peers' streams were drained. -/
  | drained {w : World} {phases : List Phase} (hcalls : m.calls = [])
      (hphases : m.phases = .drainPeers :: phases) :
      Effect m (.run w) (runDrainPeers crypto config w { m with phases })

variable {crypto} {config} {w : World} {m m' : Machine}

/-- A drain keeps the peers that there are. -/
theorem contains_runDrainPeers (phases : List Phase) (id : Bytes) :
    (runDrainPeers crypto config w { m with phases }).router.peers.contains id =
      m.router.peers.contains id := by
  rw [runDrainPeers, TreeMap.contains_map]

theorem sendEnvelope_effect {i : Input} {m₀ : Machine} {msg : NetEnvelope}
    (hrouter : m.router.SamePeers m₀.router) (htrace : m₀.trace = m.trace)
    (hrest : (m.calls = m₀.calls ∧ (m₀.calls = [] ∨ ∃ l calls, m₀.calls = .listening l :: calls)) ∨
      ∃ id, m.calls = .announceTo id :: m₀.calls) :
    Effect crypto config m i (sendEnvelope crypto w m₀ msg) := by
  refine .quiet ((m₀.router.send crypto w msg).2.2.map fun id ↦ (id, .sendFailed))
    ⟨hrouter.trans (Router.send_samePeers m₀.router msg), htrace⟩ ?_ hrest
  rw [sendEnvelope]
  simp only [pushDrops, List.map_map, Function.comp_def]

theorem runCall_effect {call : Call} {calls : List Call} (hcalls : m.calls = call :: calls)
    (h : runCall crypto config w m calls call = some m') : Effect crypto config m (.run w) m' := by
  cases call with
  | dropPeer id reason =>
    rw [runCall] at h
    split at h
    · rename_i hc
      obtain ⟨entry, hget⟩ := (contains_iff_lookup _ _).1 hc
      cases h
      exact .dropped calls hcalls hget
    · rename_i hc
      cases h
      refine .returned calls hcalls (.inl ⟨id, reason, rfl, ?_⟩)
      exact (not_contains_iff_lookup _ _).1 (Bool.not_eq_true _ ▸ hc)
  | announceTo id =>
    cases h
    exact sendEnvelope_effect (.of_eq rfl) rfl (.inr ⟨id, hcalls⟩)
  | raiseConnected id key =>
    cases h
    exact .raisedConnected calls hcalls
  | raiseDisconnected id =>
    cases h
    exact .raisedDisconnected calls hcalls
  | deliver msg origin listeners =>
    cases listeners with
    | nil =>
      cases h
      exact .returned calls hcalls (.inr (.inl ⟨msg, origin, rfl⟩))
    | cons listener listeners =>
      cases h
      exact .delivered calls hcalls
  | listening listener => cases h
  | drainSelf messages =>
    cases h
    exact .selfRead calls hcalls
  | dispatchAll messages =>
    cases messages with
    | nil =>
      cases h
      exact .returned calls hcalls (.inr (.inr (.inr rfl)))
    | cons head messages =>
      obtain ⟨msg, origin⟩ := head
      cases h
      exact .dispatchedNext calls hcalls

/-- Control is outside the router, or a phase is about to run. -/
def Free (m : Machine) : Prop := m.calls = [] ∨ ∃ l calls, m.calls = .listening l :: calls

/-- A step that changed nothing but the tables beside the peers'. -/
theorem Effect.silent {i : Input} (hfree : m.Free) (hcalls : m'.calls = m.calls)
    (hrouter : m.router.SamePeers m'.router) (htrace : m'.trace = m.trace) :
    Effect crypto config m i m' :=
  .quiet [] ⟨hrouter, htrace⟩ hcalls (.inl ⟨rfl, hfree⟩)

theorem runDatagrams_effect {phases : List Phase} (hcalls : m.calls = []) :
    Effect crypto config m (.run w) (runDatagrams crypto config w m phases) := by
  rw [runDatagrams]
  split
  · exact .silent (.inl hcalls) rfl (.of_eq rfl) rfl
  · split
    · exact .silent (.inl hcalls) rfl (.of_eq rfl) rfl
    · split
      · split
        · exact .silent (.inl hcalls) rfl (.of_eq rfl) rfl
        · rename_i id entry' plain hopen
          obtain ⟨entry, hget, hlink⟩ := Router.openDatagram_eq hopen
          refine @Effect.datagram crypto config m w _ id plain entry hcalls hget
            (.insert hget hlink rfl) ?_ ?_
          · rw [← hlink.remoteStatic, dispatch, hcalls]
            rfl
          · rw [← hlink.remoteStatic, dispatch]
      · split
        · split
          · exact .silent (.inl hcalls) rfl (.of_eq rfl) rfl
          · split
            · exact .silent (.inl hcalls) rfl (.of_eq (Router.handleAdvertise_peers _ _ _)) rfl
            · exact .silent (.inl hcalls) rfl (.of_eq rfl) rfl
        · exact .silent (.inl hcalls) rfl (.of_eq rfl) rfl

theorem runHandshaking_effect {phases : List Phase} {n : Nat} (hcalls : m.calls = []) :
    Effect crypto config m (.run w) (runHandshaking crypto config w m phases n) := by
  rw [runHandshaking]
  split
  · exact .silent (.inl hcalls) rfl (.of_eq rfl) rfl
  · split
    · exact .silent (.inl hcalls) rfl (.of_eq rfl) rfl
    · exact .silent (.inl hcalls) rfl (.of_eq rfl) rfl
    · rename_i hshake
      dsimp only
      split
      · rename_i hadopt
        simp only [Router.adoptable, decide_eq_true_eq, Bool.not_eq_true] at hadopt
        obtain ⟨-, hown, hfree⟩ := hadopt
        refine .adopted hcalls (Router.shakeOne_proves hshake) hown
          ((not_contains_iff_lookup _ _).1 hfree) rfl ?_ rfl
        rw [hcalls]
      · exact .silent (.inl hcalls) rfl (.of_eq rfl) rfl

theorem runPhase_effect {phase : Phase} {phases : List Phase} (hcalls : m.calls = [])
    (hphases : m.phases = phase :: phases) :
    Effect crypto config m (.run w) (runPhase crypto config w m phases phase) := by
  cases phase with
  | advertise =>
    rw [runPhase, runAdvertise]
    split
    · exact .silent (.inl hcalls) rfl (.of_eq rfl) rfl
    · exact sendEnvelope_effect (.of_eq rfl) rfl (.inl ⟨rfl, .inl hcalls⟩)
  | acceptPeers => exact .silent (.inl hcalls) rfl (.of_eq rfl) rfl
  | finishDialing => exact .silent (.inl hcalls) rfl (.of_eq rfl) rfl
  | drainDatagrams => exact runDatagrams_effect hcalls
  | drainHandshaking n => exact runHandshaking_effect hcalls
  | drainPeers => exact .drained hcalls hphases
  | expireHandshaking => exact .silent (.inl hcalls) rfl (.of_eq rfl) rfl
  | expirePeers =>
    refine .quiet ((m.router.expiredPeers w).map fun id ↦ (id, .timeout)) ⟨.of_eq rfl, rfl⟩ ?_
      (.inl ⟨rfl, .inl hcalls⟩)
    simp only [runPhase, pushDrops, List.map_map, Function.comp_def]

theorem free_of_outside (h : m.outside = true) : m.Free := by
  rw [outside] at h
  split at h
  · rename_i l calls hcalls
    exact .inr ⟨l, calls, hcalls⟩
  · rename_i hcalls _
    exact .inl hcalls
  · cases h

/-- **A step of the router does nothing but what `Effect` lists.** -/
theorem step_effect {i : Input} (h : step crypto config m i = some m') :
    Effect crypto config m i m' := by
  cases i with
  | start ports =>
    rw [step] at h
    split at h
    · rename_i hidle
      cases h
      have hcleared : ∀ r : Router, r.peers = {} → Effect crypto config m (.start ports)
          { m with router := r } := by
        intro r hr
        refine .cleared (.inr ⟨ports, rfl⟩) hidle.1 hidle.1 (fun id ↦ ?_) ⟨[], rfl⟩
        dsimp only
        rw [hr]
        exact TreeMap.getElem?_emptyc
      unfold Router.start
      split
      · exact .silent (.inl hidle.1) rfl (.of_eq rfl) rfl
      · split
        · exact hcleared _ rfl
        · split
          · exact hcleared _ rfl
          · exact hcleared _ rfl
    · cases h
  | stop =>
    rw [step] at h
    split at h
    · rename_i hidle
      cases h
      refine .cleared (.inl rfl) hidle.1 hidle.1 (fun id ↦ TreeMap.getElem?_emptyc) ?_
      exact ⟨m.router.peerIds.reverse, by rw [List.map_reverse]⟩
    · cases h
  | tick =>
    rw [step] at h
    split at h
    · rename_i hidle
      cases h
      split
      · exact .silent (.inl hidle.1) rfl (.of_eq rfl) rfl
      · exact .silent (.inl hidle.1) rfl (.of_eq rfl) rfl
    · cases h
  | run w =>
    rw [step] at h
    split at h
    · rename_i call calls hcalls
      exact runCall_effect hcalls h
    · rename_i phase phases hcalls hphases
      cases h
      exact runPhase_effect hcalls hphases
    · cases h
  | act w action =>
    rw [step] at h
    split at h
    · rename_i hout
      have hfree : m.Free := free_of_outside hout
      cases h
      cases action with
      | send msg => exact sendEnvelope_effect (.of_eq rfl) rfl (.inl ⟨rfl, hfree⟩)
      | sendToSelf msg =>
        refine .silent hfree rfl (.of_eq ?_) rfl
        rw [runAction, Router.sendToSelf]
        dsimp only
        split <;> rfl
      | sendDatagram id payload => exact .silent hfree rfl (Router.sendDatagram_samePeers _ _ _) rfl
      | registerListener tag listener =>
        refine .silent hfree rfl (.of_eq ?_) rfl
        rw [runAction, Router.registerListener]
        dsimp only
        split <;> rfl
      | unregisterListener tag listener =>
        refine .silent hfree rfl (.of_eq ?_) rfl
        rw [runAction, Router.unregisterListener]
        dsimp only
        repeat' split
        all_goals rfl
    · cases h
  | ret =>
    rw [step] at h
    split at h
    · rename_i listener calls hcalls
      cases h
      exact .returned calls hcalls (.inr (.inr (.inl ⟨listener, rfl⟩)))
    · cases h

end Machine
end EosMesh
