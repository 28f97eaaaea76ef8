import EosMesh.Net.Router.Effects

/-!
# Who a message is from

The identity boundary of the mesh: whatever bytes arrive, in whatever order connections are
accepted, dialled, proven, adopted and dropped, every peer in the table is the holder of the key its
id certifies, and every envelope that reaches a listener under a peer's id was opened by that peer's
channel.

* `PeerOk` is what the table says of an entry: its handshake is over, its id is the one its key
  derives, and so is its account.  `CameFrom` is what the trace says of an envelope: each origin is
  backed by an earlier event, an opened frame or datagram by the opening, and a lifecycle event by
  the adoption or the removal.
* `Justified` reads a trace event against the events before it; `TraceOk` is that of a whole trace.
  Nothing in either refers to the tables, so what is justified once stays so.
* `IdentityInv` ties the table, the calls under way and the trace together.  `IdentityInv.extend`
  says what a step has to show to keep it: that the past grew by what it justifies, that each peer
  was one before or is newly proved, and that each call was asked for before or has its reason in
  the past by now.
* `IdentityInv.step` is the case analysis over `Effect`, and `reachable_identityInv` the run lemma.

`router_identity` is the result.  It assumes nothing of the bytes that arrive, nor of the cipher:
that a frame which opens was sealed by the holder of the key is the business of the cipher
(`Net.Router.Integrity`), and which key a handshake proves that of `Net.FailClosed`.
-/

set_option autoImplicit false

namespace EosMesh

open Lib
open Std (TreeMap)

namespace Machine

variable (crypto : Crypto) (config : Config)

/-! ## The invariant -/

/-- A peer's entry belongs to the key its id certifies, and it is not us. -/
structure PeerOk (id : Bytes) (entry : Peer) : Prop where
  established : entry.channel.established = true
  idOfKey : id = config.idOfKey crypto entry.channel.remoteStatic
  notOwn : id ≠ config.productUserId
  epicId : entry.epicId = deriveEpicAccountId crypto entry.channel.remoteStatic

/-- A connection became peer `id` by proving `key`. -/
def AdoptedIn (older : List Event) (id key : Bytes) : Prop :=
  ∃ expectedId recvKey, Event.adopted id key expectedId recvKey ∈ older

/-- The events before it bear out where an envelope came from. -/
def CameFrom (older : List Event) (msg : NetEnvelope) : Origin → Prop
  | .adoption key =>
    msg.typeTag = MessageType.peerConnected.tag ∧
      msg.sourceId = config.idOfKey crypto key ∧ AdoptedIn older msg.sourceId key
  | .removal =>
    msg.typeTag = MessageType.peerDisconnected.tag ∧
      ∃ reason, Event.removed msg.sourceId reason ∈ older
  | .stream key plain =>
    msg.sourceId = config.idOfKey crypto key ∧ Event.opened msg.sourceId key plain ∈ older ∧
      Router.DeliveredAs config msg.sourceId plain msg
  | .datagram key plain =>
    msg.sourceId = config.idOfKey crypto key ∧
      Event.openedDatagram msg.sourceId key plain ∈ older ∧
      msg = Router.datagramEnvelope config msg.sourceId plain
  | .self => True

/-- What each event says, given the events before it. -/
def Justified (older : List Event) : Event → Prop
  | .adopted id key expectedId _ =>
    id = config.idOfKey crypto key ∧ id ≠ config.productUserId ∧
      (expectedId = [] ∨ expectedId = id)
  | .opened id key _ => id = config.idOfKey crypto key ∧ AdoptedIn older id key
  | .openedDatagram id key _ => id = config.idOfKey crypto key ∧ AdoptedIn older id key
  | .dispatched msg origin => CameFrom crypto config older msg origin
  | .delivered _ msg origin => CameFrom crypto config older msg origin
  | .removed _ _ => True
  | .failed _ => True

/-- Every event of a trace, newest first, is justified by those before it. -/
def TraceOk : List Event → Prop
  | [] => True
  | event :: older => Justified crypto config older event ∧ TraceOk older

/-- What a call under way carries. -/
def CallOk (trace : List Event) : Call → Prop
  | .raiseConnected id key => id = config.idOfKey crypto key ∧ AdoptedIn trace id key
  | .raiseDisconnected id => ∃ reason, Event.removed id reason ∈ trace
  | .deliver msg origin _ => CameFrom crypto config trace msg origin
  | .drainSelf messages =>
    ∀ p ∈ messages, p.2.isRaised = false ∧ CameFrom crypto config trace p.1 p.2
  | .dispatchAll messages =>
    ∀ p ∈ messages, p.2.isRaised = false ∧ CameFrom crypto config trace p.1 p.2
  | .dropPeer _ _ => True
  | .announceTo _ => True
  | .listening _ => True

/-- Every peer goes by the id of the key it proved, and so does all that came from it. -/
structure IdentityInv (m : Machine) : Prop where
  peers : ∀ (id : Bytes) (entry : Peer), m.router.peers[id]? = some entry →
    PeerOk crypto config id entry ∧ AdoptedIn m.trace id entry.channel.remoteStatic
  calls : ∀ call ∈ m.calls, CallOk crypto config m.trace call
  trace : TraceOk crypto config m.trace

variable {crypto config} {m m' : Machine} {older newer : List Event}

/-! ## The past stays past -/

theorem AdoptedIn.mono {id key : Bytes} (hsub : older ⊆ newer) (h : AdoptedIn older id key) :
    AdoptedIn newer id key := by
  obtain ⟨expectedId, recvKey, hmem⟩ := h
  exact ⟨expectedId, recvKey, hsub hmem⟩

theorem CameFrom.mono {msg : NetEnvelope} {origin : Origin} (hsub : older ⊆ newer)
    (h : CameFrom crypto config older msg origin) : CameFrom crypto config newer msg origin := by
  cases origin with
  | adoption key => exact ⟨h.1, h.2.1, h.2.2.mono hsub⟩
  | removal =>
    obtain ⟨htag, reason, hmem⟩ := h
    exact ⟨htag, reason, hsub hmem⟩
  | stream key plain => exact ⟨h.1, hsub h.2.1, h.2.2⟩
  | datagram key plain => exact ⟨h.1, hsub h.2.1, h.2.2⟩
  | self => trivial

theorem Justified.mono {event : Event} (hsub : older ⊆ newer)
    (h : Justified crypto config older event) : Justified crypto config newer event := by
  cases event with
  | adopted id key expectedId recvKey => exact h
  | removed id reason => trivial
  | failed id => trivial
  | opened id key plain => exact ⟨h.1, h.2.mono hsub⟩
  | openedDatagram id key plain => exact ⟨h.1, h.2.mono hsub⟩
  | dispatched msg origin => exact CameFrom.mono hsub h
  | delivered listener msg origin => exact CameFrom.mono hsub h

theorem CallOk.mono {call : Call} (hsub : older ⊆ newer) (h : CallOk crypto config older call) :
    CallOk crypto config newer call := by
  cases call with
  | raiseConnected id key => exact ⟨h.1, h.2.mono hsub⟩
  | raiseDisconnected id =>
    obtain ⟨reason, hmem⟩ := h
    exact ⟨reason, hsub hmem⟩
  | deliver msg origin listeners => exact CameFrom.mono hsub h
  | drainSelf messages => exact fun p hp ↦ ⟨(h p hp).1, (h p hp).2.mono hsub⟩
  | dispatchAll messages => exact fun p hp ↦ ⟨(h p hp).1, (h p hp).2.mono hsub⟩
  | dropPeer id reason => trivial
  | announceTo id => trivial
  | listening listener => trivial

/-- A batch of events, each justified by what was there before the batch. -/
theorem TraceOk.append {batch : List Event} (h : TraceOk crypto config older)
    (hbatch : ∀ event ∈ batch, Justified crypto config older event) :
    TraceOk crypto config (batch ++ older) := by
  induction batch with
  | nil => exact h
  | cons event batch ih =>
    have hrest := ih fun e he ↦ hbatch e (List.mem_cons_of_mem _ he)
    exact ⟨(hbatch event List.mem_cons_self).mono (List.subset_append_right _ _), hrest⟩

/-- Any event of a sound trace is justified by the events before it. -/
theorem TraceOk.justified {event : Event} (h : TraceOk crypto config (newer ++ event :: older)) :
    Justified crypto config older event := by
  induction newer with
  | nil => exact h.1
  | cons e newer ih => exact ih h.2

/-- We never adopt ourselves. -/
theorem TraceOk.adopted_ne_own {id key : Bytes} (h : TraceOk crypto config older)
    (hadopt : AdoptedIn older id key) : id ≠ config.productUserId := by
  obtain ⟨expectedId, recvKey, hmem⟩ := hadopt
  obtain ⟨later, earlier, rfl⟩ := List.append_of_mem hmem
  exact h.justified.2.1

/-! ## The step lemma -/

/-- What a step has to show: the past grew by what it justifies, each peer was one before or is
newly proved, and each call was asked for before or has its reason in the past by now. -/
theorem IdentityInv.extend (h : IdentityInv crypto config m) (hsub : m.trace ⊆ m'.trace)
    (htrace : TraceOk crypto config m'.trace)
    (hpeers : ∀ (id : Bytes) (entry' : Peer), m'.router.peers[id]? = some entry' →
      (∃ entry, m.router.peers[id]? = some entry ∧ entry.SameLink entry') ∨
        PeerOk crypto config id entry' ∧ AdoptedIn m'.trace id entry'.channel.remoteStatic)
    (hcalls : ∀ call ∈ m'.calls, call ∈ m.calls ∨ CallOk crypto config m'.trace call) :
    IdentityInv crypto config m' where
  peers id entry' hget := by
    rcases hpeers id entry' hget with ⟨entry, hget, hlink⟩ | hnew
    · obtain ⟨hok, hadopt⟩ := h.peers id entry hget
      rw [hlink.remoteStatic]
      refine ⟨⟨?_, ?_, hok.notOwn, ?_⟩, hadopt.mono hsub⟩
      · rw [hlink.established, hok.established]
      · rw [hlink.remoteStatic]
        exact hok.idOfKey
      · rw [hlink.epicId, hlink.remoteStatic, hok.epicId]
    · exact hnew
  calls call hcall := by
    rcases hcalls call hcall with hold | hnew
    · exact (h.calls call hold).mono hsub
    · exact hnew
  trace := htrace

/-- The machine after a dispatch: one call more, and one event. -/
theorem IdentityInv.dispatch {rest : List Call} {msg : NetEnvelope} {origin : Origin}
    (h : IdentityInv crypto config m) (hrest : ∀ call ∈ rest, CallOk crypto config m.trace call)
    (hfrom : CameFrom crypto config m.trace msg origin) :
    IdentityInv crypto config (Machine.dispatch { m with calls := rest } msg origin) where
  peers id entry hget := by
    obtain ⟨hok, hadopt⟩ := h.peers id entry hget
    exact ⟨hok, hadopt.mono (List.subset_cons_self _ _)⟩
  calls call hcall := by
    rcases List.mem_cons.1 hcall with rfl | hcall
    · exact CameFrom.mono (List.subset_cons_self _ _) hfrom
    · exact (hrest call hcall).mono (List.subset_cons_self _ _)
  trace := ⟨hfrom, h.trace⟩

theorem IdentityInv.rest {call : Call} {rest : List Call} (h : IdentityInv crypto config m)
    (hcalls : m.calls = call :: rest) : ∀ c ∈ rest, CallOk crypto config m.trace c :=
  fun c hc ↦ h.calls c (by rw [hcalls]; exact List.mem_cons_of_mem _ hc)

theorem IdentityInv.head {call : Call} {rest : List Call} (h : IdentityInv crypto config m)
    (hcalls : m.calls = call :: rest) : CallOk crypto config m.trace call :=
  h.calls call (by rw [hcalls]; exact List.mem_cons_self)

/-- The events one drain adds are frames of the peer it drains. -/
theorem mem_drainEvents {id key : Bytes} {drained : Router.Drained} {event : Event}
    (h : event ∈ drainEvents id key drained) :
    event = .failed id ∨ ∃ plain ∈ drained.plains, event = .opened id key plain := by
  rw [drainEvents] at h
  have hopened : ∀ e ∈ drained.plains.reverse.map (Event.opened id key ·),
      ∃ plain ∈ drained.plains, e = .opened id key plain := by
    intro e he
    obtain ⟨plain, hplain, rfl⟩ := List.mem_map.1 he
    exact ⟨plain, List.mem_reverse.1 hplain, rfl⟩
  split at h
  · rcases List.mem_cons.1 h with rfl | h
    · exact .inl rfl
    · exact .inr (hopened event h)
  · exact .inr (hopened event h)

/-- A plaintext a drain opened is in the trace after it. -/
theorem opened_mem_drainEvents {id key plain : Bytes} {drained : Router.Drained}
    (h : plain ∈ drained.plains) : Event.opened id key plain ∈ drainEvents id key drained := by
  have : Event.opened id key plain ∈ drained.plains.reverse.map (Event.opened id key ·) :=
    List.mem_map.2 ⟨plain, List.mem_reverse.2 h, rfl⟩
  rw [drainEvents]
  split
  · exact List.mem_cons_of_mem _ this
  · exact this

theorem IdentityInv.drained {w : World} {phases : List Phase} (h : IdentityInv crypto config m)
    (hcalls : m.calls = []) :
    IdentityInv crypto config (runDrainPeers crypto config w { m with phases }) := by
  set batch := (m.router.peers.toList.map fun p ↦
    drainEvents p.1 p.2.channel.remoteStatic
      (Router.drainPeer crypto config w p.1 p.2)).reverse.flatten with hbatch
  have htrace : (runDrainPeers crypto config w { m with phases }).trace = batch ++ m.trace := by
    simp only [runDrainPeers, hbatch, List.map_map, Function.comp_def]
  have hmem : ∀ event, event ∈ batch ↔ ∃ id entry, m.router.peers[id]? = some entry ∧
      event ∈ drainEvents id entry.channel.remoteStatic
        (Router.drainPeer crypto config w id entry) := by
    intro event
    simp only [hbatch, List.mem_flatten, List.mem_reverse, List.mem_map, Prod.exists]
    constructor
    · rintro ⟨_, ⟨id, entry, hin, rfl⟩, he⟩
      exact ⟨id, entry, (mem_toList_iff_lookup _ _ _).1 hin, he⟩
    · rintro ⟨id, entry, hget, he⟩
      exact ⟨_, ⟨id, entry, (mem_toList_iff_lookup _ _ _).2 hget, rfl⟩, he⟩
  have hsub : m.trace ⊆ batch ++ m.trace := List.subset_append_right _ _
  constructor
  · intro id entry' hget
    rw [runDrainPeers] at hget
    dsimp only at hget
    rw [TreeMap.getElem?_map, Option.map_eq_some_iff] at hget
    obtain ⟨entry, hget, rfl⟩ := hget
    obtain ⟨hok, hadopt⟩ := h.peers id entry hget
    obtain ⟨hch, hepic⟩ := @Router.drainPeer_identity crypto config w id entry
    rw [htrace, hch]
    refine ⟨⟨?_, ?_, hok.notOwn, ?_⟩, hadopt.mono hsub⟩
    · rw [hch]; exact hok.established
    · rw [hch]; exact hok.idOfKey
    · rw [hepic, hch]; exact hok.epicId
  · intro call hcall
    rw [htrace]
    simp only [runDrainPeers, List.mem_append, List.mem_cons] at hcall
    rcases hcall with hdrop | rfl | hold
    · obtain ⟨p, -, hp⟩ := List.mem_filterMap.1 hdrop
      obtain ⟨reason, -, rfl⟩ := Option.map_eq_some_iff.1 hp
      trivial
    · rintro ⟨msg, origin⟩ hp
      simp only [List.mem_flatMap, List.mem_map, Prod.exists] at hp
      obtain ⟨id, key, d, ⟨_, entry, hin, heq⟩, msg', plain, hmsg, hpair⟩ := hp
      cases heq
      cases hpair
      have hget := (mem_toList_iff_lookup _ _ _).1 hin
      obtain ⟨hok, -⟩ := h.peers _ entry hget
      obtain ⟨hplain, hdel⟩ :=
        (@Router.drainPeer_spec crypto config w id entry).messages _ _ hmsg
      have hsource := hdel.sourceId
      refine ⟨rfl, by rw [hsource]; exact hok.idOfKey, ?_, by rw [hsource]; exact hdel⟩
      rw [hsource]
      exact List.mem_append_left _
        ((hmem _).2 ⟨id, entry, hget, opened_mem_drainEvents hplain⟩)
    · rw [hcalls] at hold
      cases hold
  · rw [htrace]
    refine h.trace.append fun event he ↦ ?_
    obtain ⟨id, entry, hget, he⟩ := (hmem event).1 he
    obtain ⟨hok, hadopt⟩ := h.peers id entry hget
    rcases mem_drainEvents he with rfl | ⟨plain, -, rfl⟩
    · trivial
    · exact ⟨hok.idOfKey, hadopt⟩

theorem IdentityInv.step {i : Input} (h : IdentityInv crypto config m)
    (hstep : Machine.step crypto config m i = some m') : IdentityInv crypto config m' := by
  cases step_effect hstep with
  | @quiet _ _ rest drops hq hcalls hrest =>
    refine h.extend (by simp [hq.trace]) (by rw [hq.trace]; exact h.trace)
      (fun id entry' hget ↦ .inl (hq.peers.back id entry' hget)) fun call hcall ↦ ?_
    rw [hcalls] at hcall
    rcases List.mem_append.1 hcall with hdrop | hold
    · obtain ⟨_, -, rfl⟩ := List.mem_map.1 hdrop
      exact .inr trivial
    · left
      rcases hrest with ⟨heq, -⟩ | ⟨_, heq⟩
      · rw [heq]
        exact hold
      · rw [heq]
        exact List.mem_cons_of_mem _ hold
  | cleared _ _ hcalls' hpeers htrace =>
    obtain ⟨ids, htrace⟩ := htrace
    refine h.extend (by simp [htrace]) ?_ (fun id entry' hget ↦ ?_) (by simp [hcalls'])
    · rw [htrace]
      refine h.trace.append fun event he ↦ ?_
      obtain ⟨_, -, rfl⟩ := List.mem_map.1 he
      trivial
    · rw [hpeers id] at hget
      cases hget
  | returned rest hcalls _ => exact ⟨h.peers, h.rest hcalls, h.trace⟩
  | dropped rest hcalls _ =>
    refine h.extend (List.subset_cons_self _ _) ⟨trivial, h.trace⟩
      (fun id entry hget ↦ .inl ⟨entry, ?_, .refl _⟩) fun call hcall ↦ ?_
    · dsimp only at hget
      rw [lookup_erase] at hget
      split at hget
      · cases hget
      · exact hget
    · rcases List.mem_cons.1 hcall with rfl | hold
      · exact .inr ⟨_, List.mem_cons_self⟩
      · exact .inl (by rw [hcalls]; exact List.mem_cons_of_mem _ hold)
  | raisedConnected rest hcalls =>
    obtain ⟨hid, hadopt⟩ := h.head hcalls
    exact h.dispatch (h.rest hcalls) ⟨rfl, hid, hadopt⟩
  | raisedDisconnected rest hcalls => exact h.dispatch (h.rest hcalls) ⟨rfl, h.head hcalls⟩
  | delivered rest hcalls =>
    have hfrom := h.head hcalls
    refine h.extend (List.subset_cons_self _ _) ⟨hfrom, h.trace⟩
      (fun id entry hget ↦ .inl ⟨entry, hget, .refl _⟩) fun call hcall ↦ ?_
    simp only [List.mem_cons] at hcall
    rcases hcall with rfl | rfl | hold
    · exact .inr trivial
    · exact .inr (CameFrom.mono (List.subset_cons_self _ _) hfrom)
    · exact .inl (by rw [hcalls]; exact List.mem_cons_of_mem _ hold)
  | @selfRead w messages rest hcalls =>
    refine ⟨h.peers, fun call hcall ↦ ?_, h.trace⟩
    rcases List.mem_cons.1 hcall with rfl | hcall
    · intro p hp
      rcases List.mem_append.1 hp with hp | hp
      · exact h.head hcalls p hp
      · obtain ⟨msg, -, rfl⟩ := List.mem_map.1 hp
        exact ⟨rfl, trivial⟩
    · exact h.rest hcalls call hcall
  | dispatchedNext rest hcalls =>
    have hhead := h.head hcalls
    refine h.dispatch (fun call hcall ↦ ?_) (hhead _ List.mem_cons_self).2
    rcases List.mem_cons.1 hcall with rfl | hcall
    · exact fun p hp ↦ hhead p (List.mem_cons_of_mem _ hp)
    · exact h.rest hcalls call hcall
  | @datagram w _ id plain entry hcalls hget hq hcalls' htrace =>
    obtain ⟨hok, hadopt⟩ := h.peers _ _ hget
    have hfrom (trace : List Event)
        (hmem : Event.openedDatagram id entry.channel.remoteStatic plain ∈ trace) :
        CameFrom crypto config trace (Router.datagramEnvelope config id plain)
          (.datagram entry.channel.remoteStatic plain) := ⟨hok.idOfKey, hmem, rfl⟩
    refine h.extend ?_ ?_ (fun id entry' hget' ↦ .inl (hq.back id entry' hget'))
      fun call hcall ↦ .inr ?_
    · rw [htrace]
      exact fun _ he ↦ List.mem_cons_of_mem _ (List.mem_cons_of_mem _ he)
    · rw [htrace]
      exact ⟨hfrom _ List.mem_cons_self, ⟨hok.idOfKey, hadopt⟩, h.trace⟩
    · rw [hcalls', List.mem_singleton] at hcall
      rw [hcall, htrace]
      exact hfrom _ (List.mem_cons_of_mem _ List.mem_cons_self)
  | @adopted w _ id entry hcalls hproved hown hfree hpeers hcalls' htrace =>
    have hnew : AdoptedIn m'.trace id entry.channel.remoteStatic := by
      rw [htrace]
      exact ⟨_, _, List.mem_cons_self⟩
    refine h.extend (by simp [htrace]) ?_ (fun id' entry' hget ↦ ?_) fun call hcall ↦ .inr ?_
    · rw [htrace]
      exact ⟨⟨hproved.idOfKey, hown, hproved.expected⟩, h.trace⟩
    · rw [hpeers, lookup_insert] at hget
      split at hget
      · rename_i heq
        subst heq
        cases hget
        exact .inr ⟨⟨hproved.fresh.established, hproved.idOfKey, hown, rfl⟩, hnew⟩
      · exact .inl ⟨entry', hget, .refl _⟩
    · rw [hcalls', List.mem_cons, List.mem_singleton] at hcall
      rcases hcall with rfl | rfl
      · trivial
      · exact ⟨hproved.idOfKey, hnew⟩
  | drained hcalls _ => exact h.drained hcalls

/-! ## Every run -/

theorem identityInv_init : IdentityInv crypto config {} where
  peers id entry hget := by
    rw [show ({} : Machine).router.peers[id]? = none from TreeMap.getElem?_emptyc] at hget
    cases hget
  calls call hcall := absurd hcall List.not_mem_nil
  trace := trivial

theorem reachable_identityInv {guard : Machine → Input → Prop}
    (h : Reaches (Machine.step crypto config) guard {} m) : IdentityInv crypto config m :=
  h.invariant identityInv_init fun _ _ _ hinv _ hstep ↦ hinv.step hstep

/-- A step spent on the connections that are still shaking hands opens and dispatches nothing: all
it can add to the trace is an adoption. -/
theorem runHandshaking_trace {w : World} {phases : List Phase} {n : Nat} :
    (runHandshaking crypto config w m phases n).trace = m.trace ∨
      ∃ id key expectedId recvKey, (runHandshaking crypto config w m phases n).trace =
        .adopted id key expectedId recvKey :: m.trace := by
  rw [runHandshaking]
  split
  · exact .inl rfl
  · split
    · exact .inl rfl
    · exact .inl rfl
    · dsimp only
      split
      · exact .inr ⟨_, _, _, _, rfl⟩
      · exact .inl rfl

/-- What the identity boundary promises of a machine. -/
structure IdentityBoundary (crypto : Crypto) (config : Config) (m : Machine) : Prop where
  /-- Every peer's channel is established, its key certifies its id, which is not ours, and its epic
  id is the key's. -/
  peers : ∀ (id : Bytes) (entry : Peer), m.router.peers[id]? = some entry →
    PeerOk crypto config id entry
  /-- A mesh envelope carries the id of the key whose channel opened it, whatever source it named,
  and it was opened after that key's connection had been adopted. -/
  mesh : ∀ newer older listener msg key plain,
    m.trace = newer ++ .delivered listener msg (.stream key plain) :: older →
    msg.sourceId = config.idOfKey crypto key ∧
      (∃ decoded rest, NetEnvelope.deserialize.run plain = some (decoded, rest) ∧
        msg = { decoded with sourceId := config.idOfKey crypto key }) ∧
      ∃ later earlier, older = later ++ .opened msg.sourceId key plain :: earlier ∧
        AdoptedIn earlier msg.sourceId key
  /-- So does an envelope that came as a datagram. -/
  datagram : ∀ newer older listener msg key plain,
    m.trace = newer ++ .delivered listener msg (.datagram key plain) :: older →
    msg = Router.datagramEnvelope config (config.idOfKey crypto key) plain ∧
      ∃ later earlier, older = later ++ .openedDatagram msg.sourceId key plain :: earlier ∧
        AdoptedIn earlier msg.sourceId key
  /-- A dialled connection was adopted only under the id it was dialled for. -/
  dialled : ∀ id key expectedId recvKey, Event.adopted id key expectedId recvKey ∈ m.trace →
    expectedId ≠ [] → expectedId = id
  /-- What arrives on an unfinished handshake is neither opened nor dispatched. -/
  handshake : ∀ (w : World) (n : Nat) (phases : List Phase) (m' : Machine), m.calls = [] →
    m.phases = .drainHandshaking n :: phases → Machine.step crypto config m (.run w) = some m' →
    m'.trace = m.trace ∨ ∃ id key expectedId recvKey,
      m'.trace = .adopted id key expectedId recvKey :: m.trace

/-- **The identity boundary** holds after every run, on any bytes. -/
theorem router_identity (h : Reaches (Machine.step crypto config) always {} m) :
    IdentityBoundary crypto config m := by
  have hinv := reachable_identityInv h
  constructor
  · exact fun id entry hget ↦ (hinv.peers id entry hget).1
  · intro newer older listener msg key plain htrace
    have hok : TraceOk crypto config (newer ++
      .delivered listener msg (.stream key plain) :: older) :=
      htrace ▸ hinv.trace
    obtain ⟨hsource, hmem, hdel⟩ := hok.justified
    obtain ⟨later, earlier, heq⟩ := List.append_of_mem hmem
    rw [heq, ← List.singleton_append, ← List.append_assoc, ← List.append_assoc] at hok
    obtain ⟨-, hadopt⟩ := hok.justified
    refine ⟨hsource, ?_, later, earlier, heq, hadopt⟩
    rw [← hsource]
    exact hdel.decodes
  · intro newer older listener msg key plain htrace
    have hok : TraceOk crypto config
        (newer ++ .delivered listener msg (.datagram key plain) :: older) := htrace ▸ hinv.trace
    obtain ⟨hsource, hmem, hmsg⟩ := hok.justified
    obtain ⟨later, earlier, heq⟩ := List.append_of_mem hmem
    rw [heq, ← List.singleton_append, ← List.append_assoc, ← List.append_assoc] at hok
    obtain ⟨-, hadopt⟩ := hok.justified
    refine ⟨?_, later, earlier, heq, hadopt⟩
    rw [← hsource]
    exact hmsg
  · intro id key expectedId recvKey hmem hne
    obtain ⟨newer, older, heq⟩ := List.append_of_mem hmem
    have hok : TraceOk crypto config (newer ++ .adopted id key expectedId recvKey :: older) :=
      heq ▸ hinv.trace
    obtain ⟨-, -, hexp⟩ := hok.justified
    exact hexp.resolve_left hne
  · intro w n phases m' hcalls hphases hstep
    rw [Machine.step, hcalls, hphases] at hstep
    cases hstep
    exact runHandshaking_trace

/-- Player two dials us and sends one request under a name that is not its own; a listener
gets it. -/
def deliveredRun : List Input :=
  Sample.untilAdopted [MessageType.connectRequest.tag]
      (Sample.stream (Sample.key 2)
        [{ typeTag := MessageType.connectRequest.tag, sourceId := ascii "someone else" }]) ++
    List.replicate 8 (.run Sample.quiet)

theorem router_identity_delivered : ∃ m : Machine,
    (∃ event ∈ m.trace, ∃ p ∈ event.envelopes,
      p.1.sourceId = Sample.us.idOfKey checksumCrypto (Sample.key 2) ∧
        p.1.typeTag = MessageType.connectRequest.tag) ∧
      IdentityBoundary checksumCrypto Sample.us m := by
  obtain ⟨m, hr, hm⟩ := exists_reaches (Machine.step checksumCrypto Sample.us) always {}
    (fun m ↦ ∃ event ∈ m.trace, ∃ p ∈ event.envelopes,
      p.1.sourceId = Sample.us.idOfKey checksumCrypto (Sample.key 2) ∧
        p.1.typeTag = MessageType.connectRequest.tag)
    deliveredRun (by decide +kernel) (meets_always _ _)
  exact ⟨m, hm, router_identity hr⟩

end Machine
end EosMesh
