import EosMesh.Net.Router.Alternation
import EosMesh.Net.Router.Envelopes
import EosMesh.Net.Router.Lifecycle

/-!
# What a listener knows of who is there

A listener that goes by the account in `peer_connected` takes no notice of one without an account:
the router raises such a one for a peer that is gone already.  For it the router and the listener
can only part in one way, a peer that is dropped while its arrival is on the way to the listener.
Then it hears of the departure first, and of the arrival after it.

* `notice` is what an event tells such a listener of a peer, and `isHere` what it makes of all of
  them.
* `owing` is what a call under way has still to tell it.  `Known` says that either nothing is owed
  and the listener knows how things stand, or exactly that is owed; `NoticeInv` is this tie for one
  listener and one peer, over everything since the router was made.
* `NoticeInv.step` keeps the tie while the peer is not `Overtaken`.  Most of what the router does
  tells the listener nothing and owes it what it owed (`NoticeInv.keep`); the cases that do are a
  drop (`NoticeInv.dropped`), a delivery (`NoticeInv.delivered`) and an event that is raised
  (`NoticeInv.raised`).
* `Players` are the keys of those who play: no two of them come to one id or one account.
  `HonestFrames` says that nobody sends what only the router may raise.
* `Truthful` is what the lifecycle events say while all peers are players: who is there under its
  own account.

`notices_of_reaches` is the result between ticks, which `Interfaces.PeerViews` has for three
listeners.
-/

set_option autoImplicit false

namespace EosMesh

open Lib
open Std (TreeMap)

namespace Machine

/-! ## What is told -/

/-- An arrival that names no account. -/
def isHollow (msg : NetEnvelope) : Bool :=
  msg.typeTag = MessageType.peerConnected.tag ∧ msg.payload = []

/-- What an event of the trace tells `listener` of peer `id`: `true` that it came, `false` that it
went. -/
def notice (listener : Listener) (id : Bytes) : Event → Option Bool
  | .delivered l msg origin =>
    if l = listener ∧ origin.isRaised ∧ msg.sourceId = id ∧ ¬ isHollow msg then
      some (msg.typeTag = MessageType.peerConnected.tag)
    else none
  | _ => none

/-- Whether the listener takes the peer to be there. -/
def isHere (listener : Listener) (trace : List Event) (id : Bytes) : Bool :=
  (trace.filterMap (notice listener id)).headD false

/-- What a call under way has still to tell `listener` of peer `id`, which is `present` or not. -/
def owing (listener : Listener) (id : Bytes) (present : Bool) : Call → Option Bool
  | .raiseConnected peer _ => if peer = id ∧ present then some true else none
  | .raiseDisconnected peer => if peer = id then some false else none
  | .deliver msg origin listeners =>
    if origin.isRaised ∧ msg.sourceId = id ∧ listener ∈ listeners ∧ ¬ isHollow msg then
      some (msg.typeTag = MessageType.peerConnected.tag)
    else none
  | _ => none

/-- A call that is delivering the arrival of peer `id`, and has not come to `listener` yet. -/
def arriving (listener : Listener) (id : Bytes) : Call → Bool
  | .deliver msg _ listeners =>
    msg.typeTag = MessageType.peerConnected.tag ∧ msg.sourceId = id ∧ listener ∈ listeners
  | _ => false

/-- A peer is dropped while its arrival is on the way to the listener. -/
def Overtaken (listener : Listener) (m : Machine) : Input → Prop
  | .run _ =>
    match m.calls with
    | .dropPeer peer _ :: rest =>
      m.router.peers.contains peer = true ∧ rest.any (arriving listener peer) = true
    | _ => False
  | _ => False

instance (listener : Listener) (m : Machine) (i : Input) : Decidable (Overtaken listener m i) := by
  delta Overtaken
  exact match i with
  | .run _ =>
    match m.calls with
    | .dropPeer _ _ :: _ => inferInstanceAs (Decidable (_ ∧ _))
    | [] | .announceTo _ :: _ | .raiseConnected .. :: _ | .raiseDisconnected _ :: _
    | .deliver .. :: _ | .listening _ :: _ | .drainSelf _ :: _ | .dispatchAll _ :: _ =>
      instDecidableFalse
  | .start _ | .stop | .tick | .act _ _ | .ret => instDecidableFalse

/-- Either nothing is owed and the listener knows how things stand, or exactly that is owed. -/
def Known (pending : List Bool) (present last : Bool) : Prop :=
  (pending = [] ∧ last = present) ∨ pending = [present]

/-- The tie for one listener and one peer, since the router was made. -/
structure NoticeInv (listener : Listener) (id : Bytes) (m : Machine) : Prop where
  registered : listener ∈ m.router.listenersOf MessageType.peerConnected.tag ∧
    listener ∈ m.router.listenersOf MessageType.peerDisconnected.tag
  known : Known (m.calls.filterMap (owing listener id (m.router.peers.contains id)))
    (m.router.peers.contains id) (isHere listener m.trace id)

variable {crypto : Crypto} {config : Config} {listener : Listener} {id : Bytes} {m m' : Machine}

theorem isHere_append_of_none {events older : List Event}
    (h : events.filterMap (notice listener id) = []) :
    isHere listener (events ++ older) id = isHere listener older id := by
  rw [isHere, List.filterMap_append, h]
  rfl

/-- A step that tells the listener nothing of the peer, and owes it what it owed. -/
theorem NoticeInv.keep (h : NoticeInv listener id m) (events : List Event)
    (hregistered : listener ∈ m'.router.listenersOf MessageType.peerConnected.tag ∧
      listener ∈ m'.router.listenersOf MessageType.peerDisconnected.tag)
    (hpeers : m'.router.peers.contains id = m.router.peers.contains id)
    (hcalls : m'.calls.filterMap (owing listener id (m.router.peers.contains id)) =
      m.calls.filterMap (owing listener id (m.router.peers.contains id)))
    (htrace : m'.trace = events ++ m.trace)
    (hevents : events.filterMap (notice listener id) = []) : NoticeInv listener id m' := by
  refine ⟨hregistered, ?_⟩
  rw [hpeers, hcalls, htrace, isHere_append_of_none hevents]
  exact h.known

/-! ## The step lemma -/

/-- Dropping a peer whose arrival is not on the way. -/
theorem NoticeInv.dropped {peer : Bytes} {reason : DropReason} {rest : List Call}
    (h : NoticeInv listener id m) (hcalls : m.calls = .dropPeer peer reason :: rest)
    (hin : m.router.peers.contains peer = true)
    (hdrop : ∀ call ∈ rest, arriving listener peer call = false) :
    NoticeInv listener id { m with
      router := { m.router with peers := m.router.peers.erase peer }
      calls := .raiseDisconnected peer :: rest
      trace := .removed peer reason :: m.trace } := by
  have hpending (present : Bool) : m.calls.filterMap (owing listener id present) =
      rest.filterMap (owing listener id present) := by
    rw [hcalls]
    rfl
  by_cases heq : peer = id
  · subst heq
    have hgone : (m.router.peers.erase peer).contains peer = false := by
      rw [not_contains_iff_lookup, lookup_erase, if_pos rfl]
    have hknown := h.known
    rw [hin, hpending] at hknown
    -- What was owed was at most that it came, and that is not owed any more.
    have hnothing : rest.filterMap (owing listener peer false) = [] := by
      rw [List.filterMap_eq_nil_iff]
      intro call hmem
      by_contra hsome
      obtain ⟨came, howing⟩ := Option.ne_none_iff_exists'.1 hsome
      have hbefore : owing listener peer true call = some came ∧ (came = true →
          arriving listener peer call = true) := by
        cases call with
        | raiseConnected id key =>
          rw [owing, if_neg (by simp)] at howing
          cases howing
        | raiseDisconnected id =>
          refine ⟨howing, fun hcame ↦ ?_⟩
          rw [owing] at howing
          split at howing <;> cases howing
          cases hcame
        | deliver msg origin listeners =>
          refine ⟨howing, fun hcame ↦ ?_⟩
          rw [owing] at howing
          split at howing
          · rename_i hhit
            cases howing
            rw [arriving, decide_eq_true_eq]
            exact ⟨of_decide_eq_true hcame, hhit.2.1, hhit.2.2.1⟩
          · cases howing
        | _ => cases howing
      have hmem' : came ∈ rest.filterMap (owing listener peer true) :=
        List.mem_filterMap.2 ⟨call, hmem, hbefore.1⟩
      rcases hknown with ⟨hnil, -⟩ | hone
      · rw [hnil] at hmem'
        cases hmem'
      · rw [hone, List.mem_singleton] at hmem'
        exact absurd (hbefore.2 hmem') (by rw [hdrop call hmem]; exact Bool.false_ne_true)
    refine ⟨h.registered, .inr ?_⟩
    dsimp only
    rw [hgone, List.filterMap_cons, hnothing, owing, if_pos rfl]
  · have hsame : (m.router.peers.erase peer).contains id = m.router.peers.contains id := by
      rw [Bool.eq_iff_iff, contains_iff_lookup, contains_iff_lookup, lookup_erase, if_neg heq]
    refine h.keep [.removed peer reason] h.registered hsame ?_ rfl rfl
    rw [hpending, List.filterMap_cons, owing, if_neg heq]

/-- A listener is called: either this is what the listener was owed, or it learns nothing. -/
theorem NoticeInv.delivered {msg : NetEnvelope} {origin : Origin} {l : Listener}
    {listeners : List Listener} {rest : List Call} (h : NoticeInv listener id m)
    (hcalls : m.calls = .deliver msg origin (l :: listeners) :: rest)
    (hnodup : (l :: listeners).Nodup) :
    NoticeInv listener id { m with
      calls := .listening l :: .deliver msg origin listeners :: rest
      trace := .delivered l msg origin :: m.trace } := by
  by_cases hhit : l = listener ∧ origin.isRaised = true ∧ msg.sourceId = id ∧ ¬ isHollow msg
  · obtain ⟨rfl, hraised, hsource, hfull⟩ := hhit
    set came := decide (msg.typeTag = MessageType.peerConnected.tag) with hcame
    have hnotice : notice l id (.delivered l msg origin) = some came := by
      rw [notice, if_pos ⟨rfl, hraised, hsource, hfull⟩]
    have howing : m.calls.filterMap (owing l id (m.router.peers.contains id)) =
        came :: rest.filterMap (owing l id (m.router.peers.contains id)) := by
      rw [hcalls, List.filterMap_cons, owing,
        if_pos ⟨hraised, hsource, List.mem_cons_self, hfull⟩]
    have hknown := h.known
    rw [howing] at hknown
    rcases hknown with ⟨hnil, -⟩ | hone
    · cases hnil
    · obtain ⟨hpresent, hnone⟩ := List.cons_eq_cons.1 hone
      have hdone : owing l id (m.router.peers.contains id)
        (.deliver msg origin listeners) = none := by
        rw [owing, if_neg]
        exact fun hc ↦ (List.nodup_cons.1 hnodup).1 hc.2.2.1
      refine ⟨h.registered, .inl ⟨?_, ?_⟩⟩
      · rw [List.filterMap_cons_none rfl, List.filterMap_cons_none hdone]
        exact hnone
      · rw [isHere, List.filterMap_cons, hnotice]
        exact hpresent
  · have hnotice : notice listener id (.delivered l msg origin) = none := by
      rw [notice, if_neg hhit]
    refine h.keep [.delivered l msg origin] h.registered rfl ?_ rfl ?_
    · have hsame : (origin.isRaised = true ∧ msg.sourceId = id ∧ listener ∈ listeners ∧
            ¬ isHollow msg = true) ↔
          (origin.isRaised = true ∧ msg.sourceId = id ∧ listener ∈ l :: listeners ∧
            ¬ isHollow msg = true) := by
        rw [List.mem_cons]
        constructor
        · exact fun ⟨hr, hs, hm, hf⟩ ↦ ⟨hr, hs, .inr hm, hf⟩
        · rintro ⟨hr, hs, heq | hm, hf⟩
          · exact absurd ⟨heq.symm, hr, hs, hf⟩ hhit
          · exact ⟨hr, hs, hm, hf⟩
      rw [hcalls]
      simp only [List.filterMap_cons, owing, hsame]
    · rw [List.filterMap_cons, hnotice, List.filterMap_nil]

/-- What the listener is owed by an event that was just raised about a peer. -/
theorem NoticeInv.raised {call : Call} {rest : List Call} {msg : NetEnvelope} {origin : Origin}
    (h : NoticeInv listener id m) (hcalls : m.calls = call :: rest)
    (hsame : owing listener id (m.router.peers.contains id)
        (.deliver msg origin (m.router.listenersOf msg.typeTag)) =
      owing listener id (m.router.peers.contains id) call) :
    NoticeInv listener id (dispatch { m with calls := rest } msg origin) := by
  refine h.keep [.dispatched msg origin] h.registered rfl ?_ rfl rfl
  rw [hcalls, dispatch, List.filterMap_cons, List.filterMap_cons, hsame]

/-- The account the router names for a peer is none exactly when the peer is not there. -/
theorem peerEpicId_eq_nil_iff (hid : IdentityInv crypto config m)
    (haccount : ∀ key, deriveEpicAccountId crypto key ≠ []) (peer : Bytes) :
    m.router.peerEpicId peer = [] ↔ m.router.peers.contains peer = false := by
  rw [not_contains_iff_lookup, Router.peerEpicId]
  cases hget : m.router.peers[peer]? with
  | none => simp
  | some entry =>
    have hepic := (hid.peers peer entry hget).1.epicId
    simp [hepic, haccount]

theorem readsEvents_owing (present : Bool) : ReadsEvents (owing listener id present) where
  dropPeer _ _ := rfl
  announceTo _ := rfl
  delivered _ _ := if_neg fun h ↦ List.not_mem_nil h.2.2.1
  listening _ := rfl
  drainSelf _ := rfl
  dispatchAll _ := rfl

theorem NoticeInv.step {i : Input} (h : NoticeInv listener id m)
    (hid : IdentityInv crypto config m) (hlisteners : ListenersInv m)
    (haccount : ∀ key, deriveEpicAccountId crypto key ≠ [])
    (hspan : InSpan listener i) (hovertaken : ¬ Overtaken listener m i)
    (hstep : Machine.step crypto config m i = some m') : NoticeInv listener id m' := by
  have hreg := registered_step hspan hstep h.registered
  cases step_effect hstep with
  | @quiet _ _ rest drops hq hcalls hrest =>
    exact h.keep [] hreg (hq.peers.contains id)
      ((readsEvents_owing _).quiet hcalls (hrest.imp_left And.left)) hq.trace rfl
  | cleared hi _ _ _ _ =>
    rcases hi with rfl | ⟨ports, rfl⟩
    · exact hspan.elim
    · exact hspan.elim
  | @returned _ call rest hcalls hcall =>
    exact h.keep [] hreg rfl ((readsEvents_owing _).returned hcalls hcall) rfl rfl
  | @dropped w peer reason entry rest hcalls hget =>
    have hin : m.router.peers.contains peer = true := (contains_iff_lookup _ _).2 ⟨entry, hget⟩
    rw [Overtaken, hcalls, not_and, Bool.not_eq_true, List.any_eq_false] at hovertaken
    exact h.dropped hcalls hin fun call hmem ↦ Bool.eq_false_iff.2 (hovertaken hin call hmem)
  | @raisedConnected w peer key rest hcalls =>
    refine h.raised hcalls ?_
    have hhollow : isHollow (peerEvent config m.router .peerConnected peer) =
        !m.router.peers.contains peer := by
      rw [Bool.eq_iff_iff, Bool.not_eq_true', ← peerEpicId_eq_nil_iff hid haccount, isHollow,
        decide_eq_true_eq]
      exact and_iff_right rfl
    rw [owing, owing, hhollow]
    by_cases hpeer : peer = id
    · subst hpeer
      simp [Origin.isRaised, peerEvent, h.registered.1]
    · rw [if_neg fun hc ↦ hpeer hc.2.1, if_neg fun hc ↦ hpeer hc.1]
  | @raisedDisconnected w peer rest hcalls =>
    refine h.raised hcalls ?_
    have htag : MessageType.peerDisconnected.tag ≠ MessageType.peerConnected.tag := by decide
    rw [owing, owing]
    simp [Origin.isRaised, peerEvent, isHollow, h.registered.2, htag]
  | @delivered w msg origin l listeners rest hcalls =>
    refine h.delivered hcalls (hlisteners.snapshots msg origin _ ?_)
    rw [hcalls]
    exact List.mem_cons_self
  | selfRead rest hcalls =>
    refine h.keep [] hreg rfl ?_ rfl rfl
    rw [hcalls]
    rfl
  | @dispatchedNext w msg origin messages rest hcalls =>
    have hraised := (hid.head hcalls (msg, origin) List.mem_cons_self).1
    refine h.keep [_] hreg rfl ?_ rfl rfl
    rw [hcalls]
    simp only [Machine.dispatch, List.filterMap_cons, owing, hraised, Bool.false_eq_true, false_and,
      if_false]
  | datagram hcalls hget hq hcalls' htrace =>
    refine h.keep [_, _] hreg (hq.contains id) ?_ htrace rfl
    rw [hcalls', hcalls]
    simp only [List.filterMap_cons, owing, Origin.isRaised, Bool.false_eq_true, false_and, if_false]
  | @adopted w _ peer entry hcalls hproved hown hfree hpeers hcalls' htrace =>
    by_cases heq : peer = id
    · subst heq
      have hpresent : m'.router.peers.contains peer = true := by
        rw [contains_iff_lookup, hpeers, lookup_insert, if_pos rfl]
        exact ⟨_, rfl⟩
      refine ⟨hreg, .inr ?_⟩
      rw [hcalls', hpresent]
      simp only [List.filterMap_cons, owing, and_self, if_true, List.filterMap_nil]
    · refine h.keep [_] hreg (contains_adopted hpeers heq) ?_ htrace rfl
      rw [hcalls', hcalls]
      simp only [List.filterMap_cons, owing, heq, false_and, if_false, List.filterMap_nil]
  | drained hcalls _ =>
    obtain ⟨events, htrace, hevents⟩ := exists_events_runDrainPeers (g := notice listener id)
      (fun _ ↦ rfl) fun _ _ _ ↦ rfl
    exact h.keep events hreg (contains_runDrainPeers _ id) ((readsEvents_owing _).drained hcalls)
      htrace hevents

theorem peerDisconnected_tag_ne :
    MessageType.peerDisconnected.tag ≠ MessageType.peerConnected.tag := by decide

/-! ## Players -/

theorem idFrom_ne_nil {encoded : Bytes} (h : (crypto.sha256 encoded).length = 32) :
    idFrom crypto encoded ≠ [] := by
  intro hnil
  rw [idFrom, toHex, List.flatMap_eq_nil_iff] at hnil
  cases hdigest : crypto.sha256 encoded with
  | nil => simp [hdigest] at h
  | cons b rest =>
    rw [hdigest] at hnil
    exact absurd (hnil b List.mem_cons_self) (List.cons_ne_nil _ _)

/-- The keys of the players, ours among them: no two of them derive one product user id, or one
account. -/
structure Players (crypto : Crypto) (config : Config) (players : List Bytes) : Prop where
  ids : ∀ key ∈ players, ∀ key' ∈ players,
    config.idOfKey crypto key = config.idOfKey crypto key' → key = key'
  accounts : ∀ key ∈ players, ∀ key' ∈ players,
    deriveEpicAccountId crypto key = deriveEpicAccountId crypto key' → key = key'
  own : config.staticPub ∈ players
  ownId : config.productUserId = config.idOfKey crypto config.staticPub
  /-- A digest of SHA-256 is 32 bytes. -/
  digest : ∀ data, (crypto.sha256 data).length = 32

theorem Players.account_ne_nil {players : List Bytes} (h : Players crypto config players)
    (key : Bytes) : deriveEpicAccountId crypto key ≠ [] := idFrom_ne_nil (h.digest _)

theorem Players.id_ne_nil {players : List Bytes} (h : Players crypto config players) (key : Bytes) :
    config.idOfKey crypto key ≠ [] := idFrom_ne_nil (h.digest _)

/-- Nobody sends what only the router may raise, neither a peer nor we ourselves. -/
def HonestFrames (crypto : Crypto) (config : Config) (m : Machine) : Input → Prop
  | .run w =>
    match m.calls, m.phases with
    | .drainSelf _ :: _, _ => ∀ msg ∈ (m.router.readSelf w).2, ¬ IsLifecycle msg.typeTag
    | [], .drainPeers :: _ =>
      ∀ p ∈ m.router.peers.toList, ∀ plain ∈ (Router.openArrived crypto w p.2).plains,
        ∀ msg ∈ (NetEnvelope.deserialize.run plain).map Prod.fst,
          Router.acceptInbound config msg = true → ¬ IsLifecycle msg.typeTag
    | _, _ => True
  | _ => True

instance (m : Machine) (i : Input) : Decidable (HonestFrames crypto config m i) := by
  delta HonestFrames
  exact match i with
  | .run w =>
    match m.calls with
    | [] =>
      match m.phases with
      | .drainPeers :: _ => inferInstanceAs (Decidable (∀ _ ∈ _, _))
      | [] | .advertise :: _ | .acceptPeers :: _ | .finishDialing :: _ | .drainDatagrams :: _
      | .drainHandshaking _ :: _ | .expireHandshaking :: _ | .expirePeers :: _ => instDecidableTrue
    | .drainSelf _ :: _ => inferInstanceAs (Decidable (∀ _ ∈ _, _))
    | .dropPeer .. :: _ | .announceTo _ :: _ | .raiseConnected .. :: _ | .raiseDisconnected _ :: _
    | .deliver .. :: _ | .listening _ :: _ | .dispatchAll _ :: _ => instDecidableTrue
  | .start _ | .stop | .tick | .act _ _ | .ret => instDecidableTrue

/-- Every peer is a player. -/
def PeersPlay (players : List Bytes) (m : Machine) : Prop :=
  ∀ p ∈ m.router.peers.toList, p.2.channel.remoteStatic ∈ players

instance (players : List Bytes) (m : Machine) : Decidable (PeersPlay players m) :=
  inferInstanceAs (Decidable (∀ _ ∈ _, _))

/-- A step with nobody but players in it, all of whom are honest. -/
def HonestStep (crypto : Crypto) (config : Config) (players : List Bytes) (m : Machine)
    (i : Input) : Prop :=
  HonestFrames crypto config m i ∧
    match Machine.step crypto config m i with
    | none => True
    | some m' => PeersPlay players m'

instance (players : List Bytes) (m : Machine) (i : Input) :
    Decidable (HonestStep crypto config players m i) := by
  unfold HonestStep
  have : Decidable (match Machine.step crypto config m i with
      | none => True
      | some m' => PeersPlay players m') := by
    split <;> infer_instance
  infer_instance

/-- What the lifecycle events say among players. -/
structure Truthful (crypto : Crypto) (config : Config) (players : List Bytes) (msg : NetEnvelope)
    (origin : Origin) : Prop where
  raised : IsLifecycle msg.typeTag ↔ origin.isRaised = true
  /-- An arrival names the account of a player, if any; and that is not us. -/
  account : msg.typeTag = MessageType.peerConnected.tag → msg.payload = [] ∨ ∃ key ∈ players,
    msg.sourceId = config.idOfKey crypto key ∧ msg.sourceId ≠ config.productUserId ∧
      msg.payload = deriveEpicAccountId crypto key

variable {players : List Bytes}

theorem Truthful.of_not_lifecycle {msg : NetEnvelope} {origin : Origin}
    (htag : ¬ IsLifecycle msg.typeTag) (horigin : origin.isRaised = false) :
    Truthful crypto config players msg origin :=
  ⟨⟨fun h ↦ absurd h htag, fun h ↦ by rw [horigin] at h; cases h⟩,
    fun h ↦ absurd (.inl h) htag⟩

theorem brings_truthful {i : Input} (hid : IdentityInv crypto config m)
    (hplay : PeersPlay players m) (hhonest : HonestFrames crypto config m i) :
    Brings crypto config (Truthful crypto config players) m i where
  connected := fun id key rest _ ↦ by
    refine ⟨⟨fun _ ↦ rfl, fun _ ↦ .inl rfl⟩, fun _ ↦ ?_⟩
    rw [peerEvent, Router.peerEpicId]
    cases hget : m.router.peers[id]? with
    | none => exact .inl rfl
    | some entry =>
      have hok := (hid.peers id entry hget).1
      exact .inr ⟨entry.channel.remoteStatic, hplay _ ((mem_toList_iff_lookup _ _ _).2 hget),
        hok.idOfKey, hok.notOwn, hok.epicId⟩
  disconnected := fun id rest _ ↦
    ⟨⟨fun _ ↦ rfl, fun _ ↦ .inr rfl⟩, fun h ↦ absurd h (by exact peerDisconnected_tag_ne)⟩
  datagram := fun id plain key ↦ by
    have htag : ¬ IsLifecycle MessageType.p2pData.tag := by decide
    exact .of_not_lifecycle htag rfl
  frames := fun w phases hi hcalls hphases p hp plain hplain msg hdel ↦ by
    subst hi
    rw [HonestFrames, hcalls, hphases] at hhonest
    obtain ⟨decoded, rest, hrun, hdecoded⟩ := hdel.decodes
    have hacc := hdel.accepted
    refine .of_not_lifecycle ?_ rfl
    rw [hdecoded] at hacc ⊢
    exact hhonest p hp plain hplain decoded (by rw [hrun]; rfl) hacc
  loopback := fun w messages rest hi hcalls msg hmsg ↦ by
    subst hi
    rw [HonestFrames, hcalls] at hhonest
    exact .of_not_lifecycle (hhonest msg hmsg) rfl

/-! ## Every run -/

/-- A step in which everybody is honest, the listener stays, and no arrival is overtaken on
its way to it. -/
structure NoticeStep (crypto : Crypto) (config : Config) (players : List Bytes)
    (listener : Listener) (m : Machine) (i : Input) : Prop where
  span : InSpan listener i
  honest : HonestStep crypto config players m i
  notOvertaken : ¬ Overtaken listener m i

instance (m : Machine) (i : Input) : Decidable (NoticeStep crypto config players listener m i) :=
  decidable_of_iff (InSpan listener i ∧ HonestStep crypto config players m i ∧
    ¬ Overtaken listener m i) ⟨fun h ↦ ⟨h.1, h.2.1, h.2.2⟩, fun h ↦ ⟨h.1, h.2, h.3⟩⟩

/-- **What a listener knows between ticks**: from the making of a router on, in every run of honest
players in which no arrival is overtaken on its way to it, it takes just the peers in the table to
be there, and each arrival named the account of its key. -/
theorem notices_of_reaches {m₁ : Machine} (hplayers : Players crypto config players)
    (hpast : Reaches (Machine.step crypto config) always {} m₁) (hfresh : m₁.trace = [])
    (hidle₁ : m₁.Idle)
    (hregistered : listener ∈ m₁.router.listenersOf MessageType.peerConnected.tag ∧
      listener ∈ m₁.router.listenersOf MessageType.peerDisconnected.tag)
    (h : Reaches (Machine.step crypto config) (NoticeStep crypto config players listener) m₁ m) :
    IdentityInv crypto config m ∧ PeersPlay players m ∧
      Envelopes (Truthful crypto config players) m ∧
        (m.Idle → ∀ id, isHere listener m.trace id = m.router.peers.contains id) := by
  have hid₁ := reachable_identityInv hpast
  have hnobody (id : Bytes) : m₁.router.peers.contains id = false := by
    rw [not_contains_iff_lookup]
    cases hget : m₁.router.peers[id]? with
    | none => rfl
    | some entry =>
      obtain ⟨_, _, hmem⟩ := (hid₁.peers id entry hget).2
      rw [hfresh] at hmem
      cases hmem
  have hplay₁ : PeersPlay players m₁ := by
    rintro ⟨id, entry⟩ hp
    have hin := (contains_iff_lookup _ _).2 ⟨entry, (mem_toList_iff_lookup _ _ _).1 hp⟩
    rw [hnobody id] at hin
    cases hin
  have henvelopes₁ : Envelopes (Truthful crypto config players) m₁ := by
    constructor
    · rw [hidle₁.1]
      exact fun _ hc ↦ absurd hc List.not_mem_nil
    · rw [hfresh]
      exact fun _ he ↦ absurd he List.not_mem_nil
  have hnotice₁ (id : Bytes) : NoticeInv listener id m₁ := by
    refine ⟨hregistered, .inl ⟨?_, ?_⟩⟩
    · rw [hidle₁.1]
      rfl
    · rw [hfresh, hnobody]
      rfl
  obtain ⟨⟨hid, -⟩, ⟨hplay, henvelopes⟩, hnotice⟩ := h.invariant
    (I := fun m ↦ (IdentityInv crypto config m ∧ ListenersInv m) ∧
      (PeersPlay players m ∧ Envelopes (Truthful crypto config players) m) ∧
        ∀ id, NoticeInv listener id m)
    ⟨⟨hid₁, reachable_listenersInv hpast⟩, ⟨hplay₁, henvelopes₁⟩, hnotice₁⟩
    fun s i s' hinv hguard hstep ↦ by
      obtain ⟨⟨hid, hlisteners⟩, ⟨hplay, henvelopes⟩, hnotice⟩ := hinv
      have hnext : PeersPlay players s' := by
        have := hguard.honest.2
        rwa [hstep] at this
      exact ⟨⟨hid.step hstep, hlisteners.step hstep⟩,
        ⟨hnext, henvelopes.step (brings_truthful hid hplay hguard.honest.1) hstep⟩,
        fun id ↦ (hnotice id).step hid hlisteners hplayers.account_ne_nil hguard.span
          hguard.notOvertaken hstep⟩
  refine ⟨hid, hplay, henvelopes, fun hidle id ↦ ?_⟩
  have hknown := (hnotice id).known
  rw [hidle.1] at hknown
  rcases hknown with ⟨-, hlast⟩ | hnil
  · exact hlast
  · cases hnil

end Machine
end EosMesh
