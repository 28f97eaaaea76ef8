import EosMesh.Net.Router.Identity

/-!
# Lifecycle events are the router's own

The interfaces learn who is there from `peer_connected` and `peer_disconnected`, and take a peer's
epic account id from the first.  The router raises these two itself, and says of them that they are
synthesized; but what `drain_peers` hands to `dispatch` is never checked for carrying one of their
tags, and an adoption whose announcement fails raises `peer_connected` for a peer that is gone, with
an empty account id.

* `AuthenticStep` is the condition under which neither happens, on the state before a step and on
  what arrives in it.
* `GenuineInv` is what it preserves: every envelope under way or dispatched that bears a lifecycle
  tag was raised by the router, and bears the account id of the proven key.
-/

set_option autoImplicit false

namespace EosMesh

open Lib
open Std (TreeMap)

/-- One of the two tags the router keeps for itself. -/
def IsLifecycle (tag : UInt16) : Prop :=
  tag = MessageType.peerConnected.tag ∨ tag = MessageType.peerDisconnected.tag

instance (tag : UInt16) : Decidable (IsLifecycle tag) := inferInstanceAs (Decidable (_ ∨ _))

namespace Machine

variable (crypto : Crypto) (config : Config)

/-- Nothing in this step goes wrong with the lifecycle events: no peer's frames hold an envelope
under one of their tags, the loopback brings none, and a peer whose `peer_connected` is about to be
raised has not been dropped since it was adopted. -/
def AuthenticStep (m : Machine) : Input → Prop
  | .run w =>
    match m.calls, m.phases with
    | .raiseConnected id _ :: _, _ => m.router.peers.contains id = true
    | .drainSelf _ :: _, _ => ∀ msg ∈ (m.router.readSelf w).2, ¬ IsLifecycle msg.typeTag
    | [], .drainPeers :: _ =>
      ∀ p ∈ m.router.peers.toList, ∀ plain ∈ (Router.openArrived crypto w p.2).plains,
        ∀ msg ∈ (NetEnvelope.deserialize.run plain).map Prod.fst,
          Router.acceptInbound config msg = true → ¬ IsLifecycle msg.typeTag
    | _, _ => True
  | _ => True

instance (m : Machine) (i : Input) : Decidable (AuthenticStep crypto config m i) := by
  unfold AuthenticStep
  repeat' split
  all_goals infer_instance

/-- An envelope under a lifecycle tag was raised by the router, and `peer_connected` carries the
epic account id of the key that was proven. -/
structure Genuine (msg : NetEnvelope) (origin : Origin) : Prop where
  raised : IsLifecycle msg.typeTag → origin.isRaised = true
  epicId : ∀ key, origin = .adoption key → msg.payload = deriveEpicAccountId crypto key

/-- What is to be told of a peer, or was, has a cause in what became of it. -/
structure GenuineInv (m : Machine) : Prop where
  /-- A peer whose connect event is still to be raised is the one that was adopted, or gone. -/
  raising : ∀ id key, Call.raiseConnected id key ∈ m.calls → ∀ entry : Peer,
    m.router.peers[id]? = some entry → entry.channel.remoteStatic = key
  calls : ∀ call ∈ m.calls, ∀ p ∈ call.envelopes, Genuine crypto p.1 p.2
  trace : ∀ event ∈ m.trace, ∀ p ∈ event.envelopes, Genuine crypto p.1 p.2

variable {crypto config} {m m' : Machine}

/-! ## The step lemma -/

theorem Genuine.of_not_lifecycle {msg : NetEnvelope} {origin : Origin}
    (htag : ¬ IsLifecycle msg.typeTag) (horigin : ∀ key, origin ≠ .adoption key) :
    Genuine crypto msg origin :=
  ⟨fun h ↦ absurd h htag, fun key h ↦ absurd h (horigin key)⟩

theorem genuine_datagram (id plain key : Bytes) :
    Genuine crypto (Router.datagramEnvelope config id plain) (.datagram key plain) := by
  have htag : ¬ IsLifecycle MessageType.p2pData.tag := by decide
  exact .of_not_lifecycle htag fun _ h ↦ by cases h

theorem GenuineInv.rest {call : Call} {rest : List Call} (h : GenuineInv crypto m)
    (hcalls : m.calls = call :: rest) : GenuineInv crypto { m with calls := rest } where
  raising id key hmem := h.raising id key (by rw [hcalls]; exact List.mem_cons_of_mem _ hmem)
  calls c hc := h.calls c (by rw [hcalls]; exact List.mem_cons_of_mem _ hc)
  trace := h.trace

theorem GenuineInv.head {call : Call} {rest : List Call} (h : GenuineInv crypto m)
    (hcalls : m.calls = call :: rest) : ∀ p ∈ call.envelopes, Genuine crypto p.1 p.2 :=
  h.calls call (by rw [hcalls]; exact List.mem_cons_self)

/-- A step that keeps the connections it keeps, raises no connect event, and adds only calls and
events about genuine envelopes. -/
theorem GenuineInv.grow (h : GenuineInv crypto m) (calls : List Call) (events : List Event)
    (hpeers : ∀ (id : Bytes) (entry' : Peer), m'.router.peers[id]? = some entry' →
      ∃ entry, m.router.peers[id]? = some entry ∧
        entry'.channel.remoteStatic = entry.channel.remoteStatic)
    (hcalls : m'.calls = calls ++ m.calls) (htrace : m'.trace = events ++ m.trace)
    (hraise : ∀ id key, Call.raiseConnected id key ∉ calls)
    (hnewCalls : ∀ call ∈ calls, ∀ p ∈ call.envelopes, Genuine crypto p.1 p.2)
    (hnewEvents : ∀ event ∈ events, ∀ p ∈ event.envelopes, Genuine crypto p.1 p.2) :
    GenuineInv crypto m' where
  raising id key hmem entry' hget := by
    rw [hcalls] at hmem
    obtain ⟨entry, hget, hkey⟩ := hpeers id entry' hget
    rw [hkey]
    exact h.raising id key ((List.mem_append.1 hmem).resolve_left (hraise id key)) entry hget
  calls c hc := by
    rw [hcalls] at hc
    rcases List.mem_append.1 hc with hnew | hold
    · exact hnewCalls c hnew
    · exact h.calls c hold
  trace e he := by
    rw [htrace] at he
    rcases List.mem_append.1 he with hnew | hold
    · exact hnewEvents e hnew
    · exact h.trace e hold

/-- Every entry is still the connection it was. -/
theorem keeps_of_samePeers (hs : m.router.SamePeers m'.router) (id : Bytes) (entry' : Peer)
    (hget : m'.router.peers[id]? = some entry') : ∃ entry, m.router.peers[id]? = some entry ∧
      entry'.channel.remoteStatic = entry.channel.remoteStatic := by
  obtain ⟨entry, hget, hlink⟩ := hs.back id entry' hget
  exact ⟨entry, hget, hlink.remoteStatic⟩

theorem GenuineInv.dispatch {msg : NetEnvelope} {origin : Origin} (h : GenuineInv crypto m)
    (hmsg : Genuine crypto msg origin) : GenuineInv crypto (m.dispatch msg origin) := by
  refine h.grow [.deliver msg origin (m.router.listenersOf msg.typeTag)]
    [.dispatched msg origin] (fun id entry hget ↦ ⟨entry, hget, rfl⟩) rfl rfl
    (fun id key hmem ↦ ?_) ?_ ?_
  · cases List.mem_singleton.1 hmem
  · intro c hc p hp
    rw [List.mem_singleton.1 hc, Call.envelopes, List.mem_singleton] at hp
    rw [hp]
    exact hmsg
  · intro e he p hp
    rw [List.mem_singleton.1 he, Event.envelopes, List.mem_singleton] at hp
    rw [hp]
    exact hmsg

theorem GenuineInv.drained {w : World} {phases : List Phase} (h : GenuineInv crypto m)
    (hframes : ∀ p ∈ m.router.peers.toList, ∀ plain ∈ (Router.openArrived crypto w p.2).plains,
      ∀ msg ∈ (NetEnvelope.deserialize.run plain).map Prod.fst,
        Router.acceptInbound config msg = true → ¬ IsLifecycle msg.typeTag) :
    GenuineInv crypto (runDrainPeers crypto config w { m with phases }) := by
  refine h.grow _ _ (fun id entry' hget ↦ ?_) (List.append_cons _ _ _) rfl ?_ ?_ ?_
  · rw [runDrainPeers] at hget
    dsimp only at hget
    rw [TreeMap.getElem?_map, Option.map_eq_some_iff] at hget
    obtain ⟨entry, hget, rfl⟩ := hget
    obtain ⟨hch, -⟩ := @Router.drainPeer_identity crypto config w id entry
    exact ⟨entry, hget, by rw [hch]⟩
  · intro id key hmem
    rcases List.mem_append.1 hmem with hdrop | hself
    · obtain ⟨_, -, hp⟩ := List.mem_filterMap.1 hdrop
      obtain ⟨_, -, heq⟩ := Option.map_eq_some_iff.1 hp
      cases heq
    · cases List.mem_singleton.1 hself
  · intro c hc
    rcases List.mem_append.1 hc with hdrop | hself
    · obtain ⟨_, -, hp⟩ := List.mem_filterMap.1 hdrop
      obtain ⟨_, -, rfl⟩ := Option.map_eq_some_iff.1 hp
      exact fun p hp ↦ absurd hp List.not_mem_nil
    · rw [List.mem_singleton.1 hself]
      rintro ⟨msg, origin⟩ hp
      simp only [Call.envelopes, List.mem_flatMap, List.mem_map, Prod.exists] at hp
      obtain ⟨id, key, d, ⟨_, entry, hin, heq⟩, msg', plain, hmsg, hpair⟩ := hp
      cases heq
      cases hpair
      have hspec : Router.DrainSpec crypto config w id entry
          (Router.drainPeer crypto config w id entry) := Router.drainPeer_spec id entry
      obtain ⟨hplain, hdel⟩ := hspec.messages _ _ hmsg
      obtain ⟨decoded, rest, hrun, hdecoded⟩ := hdel.decodes
      refine .of_not_lifecycle ?_ fun _ h ↦ by cases h
      have hacc := hdel.accepted
      rw [hspec.plains] at hplain
      rw [hdecoded] at hacc ⊢
      exact hframes (id, entry) hin plain hplain decoded (by rw [hrun]; rfl) hacc
  · intro e he p hp
    obtain ⟨events, hevents, he⟩ := List.mem_flatten.1 he
    obtain ⟨⟨id, key, d⟩, -, rfl⟩ := List.mem_map.1 (List.mem_reverse.1 hevents)
    rcases mem_drainEvents he with rfl | ⟨plain, -, rfl⟩
    · exact absurd hp List.not_mem_nil
    · exact absurd hp List.not_mem_nil

/-! ### Each kind of step -/

/-- Nothing but sends: those that failed ask for drops. -/
theorem GenuineInv.quiet {drops : List (Bytes × DropReason)} (h : GenuineInv crypto m)
    (hpeers : m.router.SamePeers m'.router)
    (hcalls : m'.calls = drops.map (fun d ↦ Call.dropPeer d.1 d.2) ++ m.calls)
    (htrace : m'.trace = m.trace) : GenuineInv crypto m' := by
  refine h.grow _ [] (keeps_of_samePeers hpeers) hcalls htrace ?_ ?_ ?_
  · intro id key hmem
    obtain ⟨_, -, heq⟩ := List.mem_map.1 hmem
    cases heq
  · intro c hc p hp
    obtain ⟨_, -, rfl⟩ := List.mem_map.1 hc
    exact absurd hp List.not_mem_nil
  · exact fun _ he ↦ absurd he List.not_mem_nil

/-- Every peer goes at once. -/
theorem GenuineInv.cleared {ids : List Bytes} (h : GenuineInv crypto m)
    (hpeers : ∀ id : Bytes, m'.router.peers[id]? = none) (hcalls : m'.calls = m.calls)
    (htrace : m'.trace = ids.map (Event.removed · .localShutdown) ++ m.trace) :
    GenuineInv crypto m' := by
  refine h.grow [] _ (fun id entry hget ↦ ?_) hcalls htrace
    (fun _ _ hmem ↦ absurd hmem List.not_mem_nil) (fun _ hc ↦ absurd hc List.not_mem_nil) ?_
  · rw [hpeers id] at hget
    cases hget
  · intro e he p hp
    obtain ⟨_, -, rfl⟩ := List.mem_map.1 he
    exact absurd hp List.not_mem_nil

/-- A peer goes, and its disconnect event is to be raised. -/
theorem GenuineInv.dropped {id : Bytes} {reason : DropReason} (h : GenuineInv crypto m)
    (hpeers : m'.router.peers = m.router.peers.erase id)
    (hcalls : m'.calls = [.raiseDisconnected id] ++ m.calls)
    (htrace : m'.trace = [.removed id reason] ++ m.trace) : GenuineInv crypto m' := by
  refine h.grow _ _ (fun id' entry' hget' ↦ ?_) hcalls htrace ?_ ?_ ?_
  · rw [hpeers, lookup_erase] at hget'
    split at hget'
    · cases hget'
    · exact ⟨entry', hget', rfl⟩
  · intro id' key hmem
    cases List.mem_singleton.1 hmem
  · intro c hc p hp
    rw [List.mem_singleton.1 hc] at hp
    exact absurd hp List.not_mem_nil
  · intro e he p hp
    rw [List.mem_singleton.1 he] at hp
    exact absurd hp List.not_mem_nil

/-- A listener is called, and the rest of them wait. -/
theorem GenuineInv.delivered {msg : NetEnvelope} {origin : Origin} {listener : Listener}
    {listeners : List Listener} (h : GenuineInv crypto m) (hmsg : Genuine crypto msg origin) :
    GenuineInv crypto { m with
      calls := .listening listener :: .deliver msg origin listeners :: m.calls
      trace := .delivered listener msg origin :: m.trace } := by
  refine h.grow [.listening listener, .deliver msg origin listeners]
    [.delivered listener msg origin] (fun id entry hget ↦ ⟨entry, hget, rfl⟩) rfl rfl ?_ ?_ ?_
  · intro id key hmem
    rcases List.mem_cons.1 hmem with heq | hmem
    · cases heq
    · cases List.mem_singleton.1 hmem
  · intro c hc p hp
    rcases List.mem_cons.1 hc with rfl | hc
    · exact absurd hp List.not_mem_nil
    · rw [List.mem_singleton.1 hc, Call.envelopes, List.mem_singleton] at hp
      rw [hp]
      exact hmsg
  · intro e he p hp
    rw [List.mem_singleton.1 he, Event.envelopes, List.mem_singleton] at hp
    rw [hp]
    exact hmsg

/-- Envelopes are left to be dispatched. -/
theorem GenuineInv.queued {messages : List (NetEnvelope × Origin)} (h : GenuineInv crypto m)
    (hmessages : ∀ p ∈ messages, Genuine crypto p.1 p.2)
    (hpeers : m'.router.peers = m.router.peers)
    (hcalls : m'.calls = [.dispatchAll messages] ++ m.calls) (htrace : m'.trace = m.trace) :
    GenuineInv crypto m' := by
  refine h.grow _ [] (fun id entry hget ↦ ⟨entry, hpeers ▸ hget, rfl⟩) hcalls htrace ?_ ?_
    fun _ he ↦ absurd he List.not_mem_nil
  · intro id key hmem
    cases List.mem_singleton.1 hmem
  · intro c hc p hp
    rw [List.mem_singleton.1 hc] at hp
    exact hmessages p hp

/-- A datagram is dispatched. -/
theorem GenuineInv.datagram {id plain key : Bytes} {listeners : List Listener}
    (h : GenuineInv crypto m) (hpeers : m.router.SamePeers m'.router)
    (hcalls : m'.calls =
      [.deliver (Router.datagramEnvelope config id plain)
        (.datagram key plain) listeners] ++ m.calls)
    (htrace : m'.trace = [.dispatched (Router.datagramEnvelope config id plain)
      (.datagram key plain), .openedDatagram id key plain] ++ m.trace) : GenuineInv crypto m' := by
  have hmsg : Genuine crypto (Router.datagramEnvelope config id plain) (.datagram key plain) :=
    genuine_datagram id plain key
  refine h.grow _ _ (keeps_of_samePeers hpeers) hcalls htrace ?_ ?_ ?_
  · intro id' key hmem
    cases List.mem_singleton.1 hmem
  · intro c hc p hp
    rw [List.mem_singleton.1 hc, Call.envelopes, List.mem_singleton] at hp
    rw [hp]
    exact hmsg
  · intro e he p hp
    rcases List.mem_cons.1 he with rfl | he
    · rw [Event.envelopes, List.mem_singleton] at hp
      rw [hp]
      exact hmsg
    · rw [List.mem_singleton.1 he] at hp
      exact absurd hp List.not_mem_nil

/-- A finished handshake becomes a peer: its connect event is to be raised under its own key. -/
theorem GenuineInv.adopted {id key : Bytes} {entry : Peer} {event : Event}
    (h : GenuineInv crypto m) (hkey : entry.channel.remoteStatic = key)
    (hpeers : m'.router.peers = m.router.peers.insert id entry)
    (hcalls : m'.calls = [.announceTo id, .raiseConnected id key])
    (htrace : m'.trace = event :: m.trace) (hevent : event.envelopes = []) :
    GenuineInv crypto m' := by
  constructor
  · intro id' key' hmem entry' hget
    rw [hcalls] at hmem
    rcases List.mem_cons.1 hmem with heq | hmem
    · cases heq
    · cases List.mem_singleton.1 hmem
      rw [hpeers, lookup_insert, if_pos rfl] at hget
      cases hget
      exact hkey
  · intro c hc p hp
    rw [hcalls] at hc
    rcases List.mem_cons.1 hc with rfl | hc
    · exact absurd hp List.not_mem_nil
    · rw [List.mem_singleton.1 hc] at hp
      exact absurd hp List.not_mem_nil
  · intro e he p hp
    rw [htrace] at he
    rcases List.mem_cons.1 he with rfl | he
    · rw [hevent] at hp
      exact absurd hp List.not_mem_nil
    · exact h.trace e he p hp

theorem GenuineInv.step {i : Input} (h : GenuineInv crypto m) (hid : IdentityInv crypto config m)
    (hguard : AuthenticStep crypto config m i)
    (hstep : Machine.step crypto config m i = some m') : GenuineInv crypto m' := by
  cases step_effect hstep with
  | @quiet _ _ rest drops hq hcalls hrest =>
    have hold : GenuineInv crypto { m with calls := rest } := by
      rcases hrest with ⟨heq, -⟩ | ⟨id, heq⟩
      · rw [← heq]
        exact h
      · exact h.rest heq
    exact hold.quiet hq.peers hcalls hq.trace
  | cleared _ hcalls hcalls' hpeers htrace =>
    obtain ⟨ids, htrace⟩ := htrace
    exact h.cleared hpeers (hcalls'.trans hcalls.symm) htrace
  | returned rest hcalls _ => exact h.rest hcalls
  | dropped rest hcalls hget => exact (h.rest hcalls).dropped rfl rfl rfl
  | @raisedConnected w id key rest hcalls =>
    rw [AuthenticStep, hcalls] at hguard
    obtain ⟨entry, hget⟩ := (contains_iff_lookup _ _).1 hguard
    have hkey := h.raising id key (by rw [hcalls]; exact List.mem_cons_self) entry hget
    refine (h.rest hcalls).dispatch ⟨fun _ ↦ rfl, fun key' heq ↦ ?_⟩
    cases heq
    rw [peerEvent, Router.peerEpicId, hget, ← hkey]
    exact (hid.peers id entry hget).1.epicId
  | raisedDisconnected rest hcalls =>
    exact (h.rest hcalls).dispatch ⟨fun _ ↦ rfl, fun _ heq ↦ by cases heq⟩
  | @delivered w msg origin listener listeners rest hcalls =>
    exact (h.rest hcalls).delivered (h.head hcalls (msg, origin) List.mem_cons_self)
  | @selfRead w messages rest hcalls =>
    rw [AuthenticStep, hcalls] at hguard
    refine (h.rest hcalls).queued (fun p hp ↦ ?_) rfl rfl rfl
    rcases List.mem_append.1 hp with hp | hp
    · exact h.head hcalls p hp
    · obtain ⟨msg, hmsg, rfl⟩ := List.mem_map.1 hp
      exact .of_not_lifecycle (hguard msg hmsg) fun _ h ↦ by cases h
  | @dispatchedNext w msg origin messages rest hcalls =>
    have hhead := h.head hcalls
    have hrest : GenuineInv crypto { m with calls := .dispatchAll messages :: rest } :=
      (h.rest hcalls).queued (fun p hp ↦ hhead p (List.mem_cons_of_mem _ hp)) rfl rfl rfl
    exact hrest.dispatch (hhead (msg, origin) List.mem_cons_self)
  | datagram hcalls hget hq hcalls' htrace =>
    exact h.datagram hq (by rw [hcalls]; exact hcalls') htrace
  | adopted hcalls hproved hown hfree hpeers hcalls' htrace =>
    exact h.adopted rfl hpeers hcalls' htrace rfl
  | drained hcalls hphases =>
    rw [AuthenticStep, hcalls, hphases] at hguard
    exact h.drained hguard

/-! ## Every run -/

theorem genuineInv_init : GenuineInv crypto {} where
  raising _ _ hmem := absurd hmem List.not_mem_nil
  calls _ hc := absurd hc List.not_mem_nil
  trace _ he := absurd he List.not_mem_nil

theorem genuineInv_of_reaches
    (h : Reaches (Machine.step crypto config) (AuthenticStep crypto config) {} m) :
    GenuineInv crypto m :=
  h.invariant_of (J := IdentityInv crypto config) identityInv_init
    (fun _ _ _ hinv _ hstep ↦ hinv.step hstep) genuineInv_init
    fun _ _ _ hinv hgen hguard hstep ↦ hgen.step hinv hguard hstep

/-- What the interfaces rely on when they take a lifecycle event at its word. -/
structure LifecycleAuthentic (crypto : Crypto) (config : Config) (m : Machine) : Prop where
  /-- A `peer_connected` that reached a listener was raised by the adoption of its source, and
  carries the epic account id of the key proven there. -/
  connected : ∀ newer older listener msg origin,
    m.trace = newer ++ .delivered listener msg origin :: older →
    msg.typeTag = MessageType.peerConnected.tag →
    ∃ key, origin = .adoption key ∧ msg.sourceId = config.idOfKey crypto key ∧
      AdoptedIn older msg.sourceId key ∧ msg.payload = deriveEpicAccountId crypto key
  /-- A `peer_disconnected` that reached a listener was raised by the removal of its source. -/
  disconnected : ∀ newer older listener msg origin,
    m.trace = newer ++ .delivered listener msg origin :: older →
    msg.typeTag = MessageType.peerDisconnected.tag →
    origin = .removal ∧ ∃ reason, Event.removed msg.sourceId reason ∈ older
  /-- What a peer's frame decoded to was never dispatched as either. -/
  frames : ∀ msg key plain, Event.dispatched msg (.stream key plain) ∈ m.trace →
    ¬ IsLifecycle msg.typeTag

/-- **Lifecycle events are the router's own** in every run in which no peer's frames and no loopback
message bear their tags and no peer is dropped between its adoption and its `peer_connected`. -/
theorem lifecycle_authentic
    (h : Reaches (Machine.step crypto config) (AuthenticStep crypto config) {} m) :
    LifecycleAuthentic crypto config m := by
  have hid := reachable_identityInv h
  have hgen := genuineInv_of_reaches h
  have hgenuine : ∀ newer older listener msg origin,
      m.trace = newer ++ .delivered listener msg origin :: older →
      Genuine crypto msg origin ∧ CameFrom crypto config older msg origin := by
    intro newer older listener msg origin htrace
    have hok : TraceOk crypto config (newer ++ .delivered listener msg origin :: older) :=
      htrace ▸ hid.trace
    refine ⟨hgen.trace (.delivered listener msg origin) ?_ (msg, origin) List.mem_cons_self,
      hok.justified⟩
    rw [htrace]
    exact List.mem_append_right _ List.mem_cons_self
  constructor
  · intro newer older listener msg origin htrace htag
    obtain ⟨hg, hfrom⟩ := hgenuine newer older listener msg origin htrace
    cases origin with
    | adoption key => exact ⟨key, rfl, hfrom.2.1, hfrom.2.2, hg.epicId key rfl⟩
    | removal => exact absurd (hfrom.1.symm.trans htag) (by decide)
    | stream key plain => cases hg.raised (.inl htag)
    | datagram key plain => cases hg.raised (.inl htag)
    | self => cases hg.raised (.inl htag)
  · intro newer older listener msg origin htrace htag
    obtain ⟨hg, hfrom⟩ := hgenuine newer older listener msg origin htrace
    cases origin with
    | adoption key => exact absurd (hfrom.1.symm.trans htag) (by decide)
    | removal => exact ⟨rfl, hfrom.2⟩
    | stream key plain => cases hg.raised (.inr htag)
    | datagram key plain => cases hg.raised (.inr htag)
    | self => cases hg.raised (.inr htag)
  · intro msg key plain hmem htag
    cases (hgen.trace _ hmem (msg, .stream key plain) List.mem_cons_self).raised htag

/-! ## Runs -/

/-- A listener hears of player two the moment it is adopted. -/
def connectedRun : List Input :=
  Sample.untilAdopted [MessageType.peerConnected.tag] (Sample.stream (Sample.key 2) []) ++
    [.run Sample.quiet, .run Sample.quiet, .run Sample.quiet]

/-- The event the listener is in. -/
def connectedEvent : NetEnvelope where
  typeTag := MessageType.peerConnected.tag
  sourceId := Sample.us.idOfKey checksumCrypto (Sample.key 2)
  gameId := ascii "game"
  payload := deriveEpicAccountId checksumCrypto (Sample.key 2)

theorem lifecycle_authentic_connected : ∃ m,
    (m.trace.head? = some (.delivered 0 connectedEvent (.adoption (Sample.key 2)))) ∧
      LifecycleAuthentic checksumCrypto Sample.us m := by
  obtain ⟨m, hr, hm⟩ := exists_reaches (Machine.step checksumCrypto Sample.us)
    (AuthenticStep checksumCrypto Sample.us) {}
    (fun m ↦ m.trace.head? = some (.delivered 0 connectedEvent (.adoption (Sample.key 2))))
    connectedRun (by decide +kernel) (by decide +kernel)
  exact ⟨m, hm, lifecycle_authentic hr⟩

/-- What player two seals for us: a `peer_connected` with an account id of its choosing. -/
def forgedEvent : NetEnvelope where
  typeTag := MessageType.peerConnected.tag
  gameId := ascii "game"
  payload := ascii "someone else"

/-- The same, and then the tick goes on to drain what player two sent. -/
def forgedRun : List Input :=
  Sample.untilAdopted [MessageType.peerConnected.tag]
      (Sample.stream (Sample.key 2) [forgedEvent]) ++
    [.run Sample.quiet, .run Sample.quiet, .run Sample.quiet, .ret] ++
    List.replicate 6 (.run Sample.quiet)

theorem lifecycle_forged : ¬ ∀ (crypto : Crypto) (config : Config) (m : Machine),
    Reaches (Machine.step crypto config) always {} m → LifecycleAuthentic crypto config m := by
  intro hall
  obtain ⟨m, hr, hm⟩ := exists_reaches (Machine.step checksumCrypto Sample.us) always {}
    (fun m ↦ Event.dispatched
      { forgedEvent with sourceId := Sample.us.idOfKey checksumCrypto (Sample.key 2) }
      (.stream (Sample.key 2) forgedEvent.serialize) ∈ m.trace)
    forgedRun (by decide +kernel) (meets_always _ _)
  exact (hall _ _ m hr).frames _ _ _ hm (.inl rfl)

end Machine
end EosMesh
