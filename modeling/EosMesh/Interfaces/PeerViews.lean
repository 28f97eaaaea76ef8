import EosMesh.Interfaces.Presence.Operations
import EosMesh.Net.Router.Notices

/-!
# Three views of who is there

Presence keeps the account of each peer, UserInfo the peer of each account, and Friends a list of
the accounts with the one each peer came in under.  Each goes by the lifecycle events alone, in its
own handler, and none of them asks the router.  So what they hold is what the router told them, in
the order in which it told them; and the router may drop a peer while it is still telling of its
arrival.

* `UserInfo` and `Friends` are those tables of `interfaces/userinfo.cpp` and
  `interfaces/friends.cpp`; Presence is the whole interface, over a router of its own that reaches
  nobody, since what a handler sends is an input of the machine here.
* `viewOf` is what an interface makes of what was delivered to it, and `viewOf_invariant` its
  induction rule, with one case for each thing a listener can be told.
* `Holds` says that a peer is there with an account, by the events alone; an account has one peer
  and a peer one account, since both are derived from one key.  `PresenceSees`, `UserInfoSees` and
  `FriendsSees` are the three tables in terms of it.
* `Connected` is the router's own word, and `holds_iff_connected` that a listener which knows who is
  there knows what the router has.

`peer_views_agree`: between ticks the three agree with the router, as long as no peer is dropped
while its arrival is on the way to one of them.  `peer_views_part` is a run in which that happens: a
greeting fails, all three hear that the peer is gone, and then two of them hear that it came.
-/

set_option autoImplicit false

namespace EosMesh

open Lib
open Std (TreeMap)

/-! ## UserInfo -/

/-- Who it is by `settings_`, and which peer has which account. -/
structure UserInfo where
  epicAccountId : Bytes
  productUserId : Bytes
  epicToPeer : TreeMap Bytes Bytes := {}

namespace UserInfo

variable (s : UserInfo)

/-- A message of the mesh, as it comes: user info learns which peer an account is at. -/
def onNetworkMessage (message : NetEnvelope) : UserInfo :=
  if message.sourceId = [] ∨ message.sourceId = s.productUserId then s
  else if message.typeTag = MessageType.peerConnected.tag then
    if message.payload ≠ [] ∧ message.payload ≠ s.epicAccountId then
      { s with epicToPeer := s.epicToPeer.insert message.payload message.sourceId }
    else s
  else if message.typeTag = MessageType.peerDisconnected.tag then
    -- The event carries no account, so whatever points at the peer goes.
    { s with epicToPeer := s.epicToPeer.filter fun _ peer ↦ peer ≠ message.sourceId }
  else s

end UserInfo

/-! ## Friends -/

/-- The values of `EOS_EFriendsStatus` the interface uses. -/
inductive FriendsStatus
  | notFriends | friends
  deriving DecidableEq, Repr

/-- A change of the list we owe the registered notifications. -/
structure FriendsUpdate where
  targetEpic : Bytes
  previous : FriendsStatus
  current : FriendsStatus
  deriving DecidableEq, Repr

/-- Who it is by `settings_`, its friends in the order they joined, and the peer each came in on. -/
structure Friends where
  epicAccountId : Bytes
  productUserId : Bytes
  friends : List Bytes := []
  friendByPeer : TreeMap Bytes Bytes := {}
  pendingUpdates : List FriendsUpdate := []

namespace Friends

variable (s : Friends)

/-- The account is on the list. -/
def isFriend (epicId : Bytes) : Bool := epicId ∈ s.friends

/-- An account that is new to the list becomes a friend, by the peer that it came on. -/
def onPeerConnected (message : NetEnvelope) : Friends :=
  if message.payload = [] ∨ message.payload = s.epicAccountId ∨ s.isFriend message.payload then s
  else
    { s with
      friends := s.friends ++ [message.payload]
      friendByPeer := s.friendByPeer.insert message.sourceId message.payload
      pendingUpdates := s.pendingUpdates ++ [⟨message.payload, .notFriends, .friends⟩] }

/-- The event carries no account, so the one recorded under the peer goes. -/
def onPeerDisconnected (peer : Bytes) : Friends :=
  match s.friendByPeer[peer]? with
  | none => s
  | some epic =>
    { s with
      friendByPeer := s.friendByPeer.erase peer
      friends := s.friends.erase epic
      pendingUpdates := s.pendingUpdates ++ [⟨epic, .friends, .notFriends⟩] }

/-- A message of the mesh, as it comes. -/
def onNetworkMessage (message : NetEnvelope) : Friends :=
  if message.sourceId = [] ∨ message.sourceId = s.productUserId then s
  else if message.typeTag = MessageType.peerConnected.tag then s.onPeerConnected message
  else if message.typeTag = MessageType.peerDisconnected.tag then
    s.onPeerDisconnected message.sourceId
  else s

end Friends

/-! ## Views -/

namespace Machine

/-- The state of an interface once everything the trace delivered to its listener was handled. -/
def viewOf {σ : Type} (onMessage : σ → NetEnvelope → σ) (listener : Listener) (s : σ) :
    List Event → σ
  | .delivered l msg _ :: older =>
    if l = listener then onMessage (viewOf onMessage listener s older) msg
    else viewOf onMessage listener s older
  | _ :: older => viewOf onMessage listener s older
  | [] => s

variable {crypto : Crypto} {config : Config} {players : List Bytes}

/-- Peer `id` is there, with the account of its key. -/
def Holds (crypto : Crypto) (config : Config) (players : List Bytes) (here : Bytes → Bool)
    (id epic : Bytes) : Prop :=
  here id = true ∧ ∃ key ∈ players, id = config.idOfKey crypto key ∧ id ≠ config.productUserId ∧
    epic = deriveEpicAccountId crypto key

/-- **The induction rule of a view**: one case for each thing a listener can be told. -/
theorem viewOf_invariant {σ : Type} {onMessage : σ → NetEnvelope → σ} {listener : Listener}
    {Inv : σ → (Bytes → Bool) → Prop} {s₀ : σ} (hstart : Inv s₀ fun _ ↦ false)
    (hcame : ∀ s here msg key, Inv s here → msg.typeTag = MessageType.peerConnected.tag →
      key ∈ players → msg.sourceId = config.idOfKey crypto key →
      msg.sourceId ≠ config.productUserId → msg.payload = deriveEpicAccountId crypto key →
      msg.payload ≠ [] → Inv (onMessage s msg) (Function.update here msg.sourceId true))
    (hhollow : ∀ s here msg, Inv s here → msg.typeTag = MessageType.peerConnected.tag →
      msg.payload = [] → Inv (onMessage s msg) here)
    (hwent : ∀ s here msg, Inv s here → msg.typeTag = MessageType.peerDisconnected.tag →
      Inv (onMessage s msg) (Function.update here msg.sourceId false))
    (hother : ∀ s here msg, Inv s here → ¬ IsLifecycle msg.typeTag → Inv (onMessage s msg) here)
    {trace : List Event}
    (htruthful : ∀ event ∈ trace, ∀ p ∈ event.envelopes, Truthful crypto config players p.1 p.2) :
    Inv (viewOf onMessage listener s₀ trace) (isHere listener trace) := by
  induction trace with
  | nil => exact hstart
  | cons event older ih =>
    obtain ⟨hevent, holder⟩ := List.forall_mem_cons.1 htruthful
    have hold := ih holder
    have hskip (hnone : ∀ id, notice listener id event = none) :
        isHere listener (event :: older) = isHere listener older := by
      funext id
      rw [isHere, List.filterMap_cons, hnone]
      rfl
    have htold (id : Bytes) (came : Bool)
        (hsome : ∀ other, notice listener other event = if id = other then some came else none) :
        isHere listener (event :: older) = Function.update (isHere listener older) id came := by
      funext other
      rw [isHere, List.filterMap_cons, hsome, Function.update_apply]
      by_cases heq : id = other
      · rw [if_pos heq, if_pos heq.symm]
        rfl
      · rw [if_neg heq, if_neg (ne_comm.1 heq)]
        rfl
    cases event with
    | delivered l msg origin =>
      rw [viewOf]
      split
      · rename_i hl
        have htrue := hevent (msg, origin) List.mem_cons_self
        by_cases hlife : IsLifecycle msg.typeTag
        · have hraised := htrue.raised.1 hlife
          by_cases htag : msg.typeTag = MessageType.peerConnected.tag
          · by_cases hpayload : msg.payload = []
            · rw [hskip fun id ↦ by simp [notice, isHollow, htag, hpayload]]
              exact hhollow _ _ msg hold htag hpayload
            · obtain ⟨key, hkey, hsource, hown, haccount⟩ :=
                (htrue.account htag).resolve_left hpayload
              rw [htold msg.sourceId true
                fun other ↦ by simp [notice, isHollow, hl, hraised, htag, hpayload]]
              exact hcame _ _ msg key hold htag hkey hsource hown haccount hpayload
          · rw [htold msg.sourceId false
              fun other ↦ by simp [notice, isHollow, hl, hraised, htag]]
            exact hwent _ _ msg hold (hlife.resolve_left htag)
        · have hraised : origin.isRaised = false :=
            Bool.eq_false_iff.2 fun h ↦ hlife (htrue.raised.2 h)
          rw [hskip fun id ↦ by simp [notice, hraised]]
          exact hother _ _ msg hold hlife
      · rename_i hl
        rw [hskip fun id ↦ by simp [notice, hl]]
        exact hold
    | _ =>
      rw [hskip fun id ↦ rfl]
      exact hold

/-! ### Who is there, one event later -/

section Holds

variable {here : Bytes → Bool} {id epic : Bytes}

theorem holds_nobody : ¬ Holds crypto config players (fun _ ↦ false) id epic :=
  fun h ↦ Bool.false_ne_true h.1

theorem Holds.ne (hplayers : Players crypto config players)
    (h : Holds crypto config players here id epic) :
    id ≠ [] ∧ id ≠ config.productUserId ∧ epic ≠ [] ∧
      epic ≠ deriveEpicAccountId crypto config.staticPub := by
  obtain ⟨-, key, hkey, hid, hown, hepic⟩ := h
  refine ⟨hid ▸ hplayers.id_ne_nil key, hown, hepic ▸ hplayers.account_ne_nil key,
    fun heq ↦ hown ?_⟩
  have hsame := hplayers.accounts key hkey _ hplayers.own (hepic.symm.trans heq)
  rw [hid, hsame, hplayers.ownId]

/-- A peer has one account. -/
theorem Holds.account_unique (hplayers : Players crypto config players) {epic' : Bytes}
    (h : Holds crypto config players here id epic)
    (h' : Holds crypto config players here id epic') : epic = epic' := by
  obtain ⟨-, key, hkey, hid, -, hepic⟩ := h
  obtain ⟨-, key', hkey', hid', -, hepic'⟩ := h'
  rw [hepic, hepic', hplayers.ids key hkey key' hkey' (hid.symm.trans hid')]

/-- An account has one peer. -/
theorem Holds.peer_unique (hplayers : Players crypto config players) {id' : Bytes}
    (h : Holds crypto config players here id epic)
    (h' : Holds crypto config players here id' epic) : id = id' := by
  obtain ⟨-, key, hkey, hid, -, hepic⟩ := h
  obtain ⟨-, key', hkey', hid', -, hepic'⟩ := h'
  rw [hid, hid', hplayers.accounts key hkey key' hkey' (hepic.symm.trans hepic')]

theorem holds_came (hplayers : Players crypto config players) {key : Bytes} (hkey : key ∈ players)
    {peer account : Bytes} (hpeer : peer = config.idOfKey crypto key)
    (hown : peer ≠ config.productUserId) (haccount : account = deriveEpicAccountId crypto key) :
    Holds crypto config players (Function.update here peer true) id epic ↔
      if peer = id then account = epic else Holds crypto config players here id epic := by
  split
  · rename_i heq
    subst heq
    constructor
    · rintro ⟨-, key', hkey', hid, -, hepic⟩
      rw [haccount, hepic, hplayers.ids key hkey key' hkey' (hpeer.symm.trans hid)]
    · rintro rfl
      exact ⟨Function.update_self .., key, hkey, hpeer, hown, haccount⟩
  · rename_i hne
    rw [Holds, Function.update_of_ne (ne_comm.1 hne)]
    rfl

theorem holds_went {peer : Bytes} :
    Holds crypto config players (Function.update here peer false) id epic ↔
      if peer = id then False else Holds crypto config players here id epic := by
  split
  · rename_i heq
    subst heq
    exact iff_of_false (fun h ↦ by simpa using h.1) id
  · rename_i hne
    rw [Holds, Function.update_of_ne (ne_comm.1 hne)]
    rfl

/-- Nobody is there under no name, or under ours. -/
theorem not_holds_nobody (hplayers : Players crypto config players)
    (hid : id = [] ∨ id = config.productUserId) (epic : Bytes) :
    ¬ Holds crypto config players here id epic :=
  fun h ↦ hid.elim (h.ne hplayers).1 (h.ne hplayers).2.1

/-- A departure of somebody who is not there changes nothing. -/
theorem holds_went_absent {peer : Bytes}
    (habsent : ∀ epic, ¬ Holds crypto config players here peer epic) :
    Holds crypto config players (Function.update here peer false) id epic ↔
      Holds crypto config players here id epic := by
  rw [holds_went]
  split
  · rename_i heq
    subst heq
    exact iff_of_false not_false (habsent epic)
  · rfl

end Holds

/-! ### The three views -/

/-- Presence has the account of every peer that is there. -/
structure PresenceSees (crypto : Crypto) (config : Config) (players : List Bytes) (s : Presence)
    (here : Bytes → Bool) : Prop where
  user : s.productUserId = config.productUserId
  /-- The router of its own reaches nobody. -/
  alone : s.mesh.peers = []
  peerEpic : ∀ id epic, s.peerEpic[id]? = some epic ↔ Holds crypto config players here id epic

/-- What user info holds, when just these peers are here. -/
structure UserInfoSees (crypto : Crypto) (config : Config) (players : List Bytes) (s : UserInfo)
    (here : Bytes → Bool) : Prop where
  user : s.productUserId = config.productUserId
  account : s.epicAccountId = deriveEpicAccountId crypto config.staticPub
  epicToPeer : ∀ epic id, s.epicToPeer[epic]? = some id ↔ Holds crypto config players here id epic

/-- What friends holds, when just these peers are here. -/
structure FriendsSees (crypto : Crypto) (config : Config) (players : List Bytes) (s : Friends)
    (here : Bytes → Bool) : Prop where
  user : s.productUserId = config.productUserId
  account : s.epicAccountId = deriveEpicAccountId crypto config.staticPub
  friendByPeer : ∀ id epic, s.friendByPeer[id]? = some epic ↔
    Holds crypto config players here id epic
  friends : ∀ epic, epic ∈ s.friends ↔ ∃ id, Holds crypto config players here id epic
  nodup : s.friends.Nodup

variable {here : Bytes → Bool} {msg : NetEnvelope} {key : Bytes}

/-- A broadcast over a router that reaches nobody sends nothing. -/
theorem broadcastMyPresence_alone {s : Presence} (h : s.mesh.peers = []) (peer : Bytes) :
    s.broadcastMyPresence peer = s := by
  have hsend (peer : Bytes) (message : PresenceMessage) : s.sendTo peer message = s := by
    have hnobody : s.mesh.recipients peer = [] := by
      rw [Mesh.recipients, h]
      split <;> rfl
    rw [Presence.sendTo, Mesh.send, hnobody]
    rfl
  rw [Presence.broadcastMyPresence]
  split
  · rfl
  · split
    · exact hsend _ _
    · rw [h]
      rfl

theorem presenceSees_start (epic product : Bytes) : PresenceSees crypto config players
    (Presence.start epic config.productUserId product []) fun _ ↦ false := by
  rw [Presence.start, Presence.seedMyself]
  split
  · exact ⟨rfl, rfl, fun _ _ ↦ iff_of_false (by simp) holds_nobody⟩
  · exact ⟨rfl, rfl, fun _ _ ↦ iff_of_false (by simp) holds_nobody⟩

theorem PresenceSees.came (hplayers : Players crypto config players) {s : Presence}
    (h : PresenceSees crypto config players s here)
    (htag : msg.typeTag = MessageType.peerConnected.tag) (hkey : key ∈ players)
    (hsource : msg.sourceId = config.idOfKey crypto key)
    (hown : msg.sourceId ≠ config.productUserId)
    (haccount : msg.payload = deriveEpicAccountId crypto key) (hpayload : msg.payload ≠ []) :
    PresenceSees crypto config players (s.onNetworkMessage msg)
      (Function.update here msg.sourceId true) := by
  have hsource' : ¬ (msg.sourceId = [] ∨ msg.sourceId = s.productUserId) := by
    rw [h.user, not_or]
    exact ⟨hsource ▸ hplayers.id_ne_nil key, hown⟩
  have hresult : s.onNetworkMessage msg =
      { s with peerEpic := s.peerEpic.insert msg.sourceId msg.payload } := by
    rw [Presence.onNetworkMessage, if_neg hsource', if_pos htag, Presence.onPeerConnected,
      if_neg hpayload]
    dsimp only
    split
    · exact broadcastMyPresence_alone (by exact h.alone) _
    · rfl
  rw [hresult]
  refine ⟨h.user, h.alone, fun id epic ↦ ?_⟩
  rw [lookup_insert, holds_came hplayers hkey hsource hown haccount]
  split
  · rw [Option.some.injEq]
  · exact h.peerEpic id epic

/-- Whatever it is told, Presence keeps to its own tables. -/
theorem PresenceSees.keep {s s' : Presence} (h : PresenceSees crypto config players s here)
    (huser : s'.productUserId = s.productUserId) (halone : s'.mesh = s.mesh)
    (hbound : s'.peerEpic = s.peerEpic) : PresenceSees crypto config players s' here :=
  ⟨huser.trans h.user, halone ▸ h.alone, hbound ▸ h.peerEpic⟩

theorem PresenceSees.hollow {s : Presence} (h : PresenceSees crypto config players s here)
    (htag : msg.typeTag = MessageType.peerConnected.tag) (hpayload : msg.payload = []) :
    PresenceSees crypto config players (s.onNetworkMessage msg) here := by
  rw [Presence.onNetworkMessage]
  split
  · exact h
  · rw [Presence.onPeerConnected, if_pos hpayload]
    split
    · rw [broadcastMyPresence_alone h.alone]
      exact h
    · exact h

theorem PresenceSees.went (hplayers : Players crypto config players) {s : Presence}
    (h : PresenceSees crypto config players s here)
    (htag : msg.typeTag = MessageType.peerDisconnected.tag) :
    PresenceSees crypto config players (s.onNetworkMessage msg)
      (Function.update here msg.sourceId false) := by
  rw [Presence.onNetworkMessage]
  split
  · rename_i hsource
    refine ⟨h.user, h.alone, fun id epic ↦ ?_⟩
    rw [h.peerEpic, holds_went_absent (not_holds_nobody hplayers (h.user ▸ hsource))]
  · rw [if_neg (by rw [htag]; exact peerDisconnected_tag_ne)]
    refine ⟨h.user, h.alone, fun id epic ↦ ?_⟩
    rw [Presence.onPeerDisconnected, lookup_erase, holds_went]
    split
    · simp
    · exact h.peerEpic id epic

theorem PresenceSees.other {s : Presence} (h : PresenceSees crypto config players s here)
    (hlife : ¬ IsLifecycle msg.typeTag) :
    PresenceSees crypto config players (s.onNetworkMessage msg) here := by
  rw [IsLifecycle, not_or] at hlife
  rw [Presence.onNetworkMessage, if_neg hlife.1, if_neg hlife.2]
  split
  · exact h
  · split
    · exact h
    · split
      · rw [Presence.onRequest]
        split
        · exact h
        · split
          · rw [broadcastMyPresence_alone h.alone]
            exact h
          · exact h
      · split
        · rw [Presence.onInfo]
          repeat' split
          all_goals first | exact h | exact h.keep rfl rfl rfl
        · exact h

theorem UserInfoSees.came (hplayers : Players crypto config players) {s : UserInfo}
    (h : UserInfoSees crypto config players s here)
    (htag : msg.typeTag = MessageType.peerConnected.tag) (hkey : key ∈ players)
    (hsource : msg.sourceId = config.idOfKey crypto key)
    (hown : msg.sourceId ≠ config.productUserId)
    (haccount : msg.payload = deriveEpicAccountId crypto key) (hpayload : msg.payload ≠ []) :
    UserInfoSees crypto config players (s.onNetworkMessage msg)
      (Function.update here msg.sourceId true) := by
  have hcame {id epic : Bytes} := @holds_came crypto config players here id epic hplayers key hkey
    msg.sourceId msg.payload hsource hown haccount
  have hself : Holds crypto config players (Function.update here msg.sourceId true) msg.sourceId
      msg.payload := hcame.2 (by rw [if_pos rfl])
  have hne := hself.ne hplayers
  rw [UserInfo.onNetworkMessage, if_neg (by rw [h.user, not_or]; exact
    ⟨hne.1, hne.2.1⟩), if_pos htag,
    if_pos ⟨hpayload, by rw [h.account]; exact hne.2.2.2⟩]
  refine ⟨h.user, h.account, fun epic id ↦ ?_⟩
  rw [lookup_insert]
  split
  · rename_i heq
    subst heq
    rw [Option.some.injEq]
    constructor
    · rintro rfl
      exact hself
    · exact hself.peer_unique hplayers
  · rename_i hother
    rw [h.epicToPeer, hcame]
    split
    · rename_i heq
      subst heq
      refine iff_of_false (fun hholds ↦ hother ?_) hother
      exact (hself.account_unique hplayers
        ⟨Function.update_self .., hholds.2⟩)
    · rfl

theorem UserInfoSees.went (hplayers : Players crypto config players) {s : UserInfo}
    (h : UserInfoSees crypto config players s here)
    (htag : msg.typeTag = MessageType.peerDisconnected.tag) :
    UserInfoSees crypto config players (s.onNetworkMessage msg)
      (Function.update here msg.sourceId false) := by
  rw [UserInfo.onNetworkMessage]
  split
  · rename_i hsource
    refine ⟨h.user, h.account, fun epic id ↦ ?_⟩
    rw [h.epicToPeer, holds_went_absent (not_holds_nobody hplayers (h.user ▸ hsource))]
  · rw [if_neg (by rw [htag]; exact peerDisconnected_tag_ne)]
    refine ⟨h.user, h.account, fun epic id ↦ ?_⟩
    dsimp only
    rw [TreeMap.getElem?_filter', Option.filter_eq_some_iff, holds_went, ← h.epicToPeer,
      decide_eq_true_eq]
    split
    · rename_i heq
      exact iff_of_false (fun hkept ↦ hkept.2 heq.symm) not_false
    · rename_i hne
      exact and_iff_left (ne_comm.1 hne)

theorem UserInfoSees.other {s : UserInfo} (h : UserInfoSees crypto config players s here)
    (hlife : ¬ IsLifecycle msg.typeTag) :
    UserInfoSees crypto config players (s.onNetworkMessage msg) here := by
  rw [IsLifecycle, not_or] at hlife
  rw [UserInfo.onNetworkMessage, if_neg hlife.1, if_neg hlife.2]
  split <;> exact h

theorem UserInfoSees.hollow {s : UserInfo} (h : UserInfoSees crypto config players s here)
    (htag : msg.typeTag = MessageType.peerConnected.tag) (hpayload : msg.payload = []) :
    UserInfoSees crypto config players (s.onNetworkMessage msg) here := by
  rw [UserInfo.onNetworkMessage]
  split
  · exact h
  · rw [if_neg fun hc ↦ hc.1 hpayload]
    exact h

theorem FriendsSees.came (hplayers : Players crypto config players) {s : Friends}
    (h : FriendsSees crypto config players s here)
    (htag : msg.typeTag = MessageType.peerConnected.tag) (hkey : key ∈ players)
    (hsource : msg.sourceId = config.idOfKey crypto key)
    (hown : msg.sourceId ≠ config.productUserId)
    (haccount : msg.payload = deriveEpicAccountId crypto key) :
    FriendsSees crypto config players (s.onNetworkMessage msg)
      (Function.update here msg.sourceId true) := by
  have hcame {id epic : Bytes} := @holds_came crypto config players here id epic hplayers key hkey
    msg.sourceId msg.payload hsource hown haccount
  have hself : Holds crypto config players (Function.update here msg.sourceId true) msg.sourceId
      msg.payload := hcame.2 (by rw [if_pos rfl])
  have hne := hself.ne hplayers
  rw [Friends.onNetworkMessage, if_neg (by rw [h.user, not_or]; exact
    ⟨hne.1, hne.2.1⟩), if_pos htag,
    Friends.onPeerConnected]
  -- Whoever is there once it came was there before, or is the newcomer.
  have hsome (epic : Bytes) :
      (∃ id, Holds crypto config players (Function.update here msg.sourceId true) id epic) ↔
        (∃ id, Holds crypto config players here id epic) ∨ epic = msg.payload := by
    constructor
    · rintro ⟨id, hid⟩
      rw [hcame] at hid
      split at hid
      · exact .inr hid.symm
      · exact .inl ⟨id, hid⟩
    · rintro (⟨id, hid⟩ | rfl)
      · by_cases heq : msg.sourceId = id
        · subst heq
          refine ⟨msg.sourceId, ?_⟩
          exact ⟨Function.update_self .., hid.2⟩
        · exact ⟨id, hcame.2 (by rwa [if_neg heq])⟩
      · exact ⟨_, hself⟩
  by_cases hfriend : msg.payload ∈ s.friends
  · -- A peer that came before under the same account is the same peer.
    rw [if_pos (.inr (.inr (decide_eq_true hfriend)))]
    obtain ⟨id, hid⟩ := (h.friends _).1 hfriend
    have hsame : id = msg.sourceId := by
      have hid' : Holds crypto config players (Function.update here msg.sourceId true) id
          msg.payload := by
        rw [hcame]
        split
        · rfl
        · exact hid
      exact hid'.peer_unique hplayers hself
    subst hsame
    have hhere : Function.update here msg.sourceId true = here :=
      Function.update_eq_self_iff.2 hid.1.symm
    rw [hhere]
    exact h
  · rw [if_neg (by
      rw [h.account, not_or, not_or]
      exact ⟨hne.2.2.1, hne.2.2.2, by rw [Friends.isFriend, decide_eq_true_eq]; exact hfriend⟩)]
    refine ⟨h.user, h.account, fun id epic ↦ ?_, fun epic ↦ ?_, ?_⟩
    · rw [lookup_insert, hcame]
      split
      · rw [Option.some.injEq]
      · exact h.friendByPeer id epic
    · rw [List.mem_append, List.mem_singleton, h.friends, hsome]
    · exact List.nodup_append.2 ⟨h.nodup, List.nodup_singleton _, fun a ha b hb ↦ by
        rw [List.mem_singleton.1 hb]
        exact fun heq ↦ hfriend (heq ▸ ha)⟩

theorem FriendsSees.went (hplayers : Players crypto config players) {s : Friends}
    (h : FriendsSees crypto config players s here)
    (htag : msg.typeTag = MessageType.peerDisconnected.tag) :
    FriendsSees crypto config players (s.onNetworkMessage msg)
      (Function.update here msg.sourceId false) := by
  -- A departure of somebody who was not there changes nothing.
  have hkeep (habsent : ∀ epic, ¬ Holds crypto config players here msg.sourceId epic) :
      FriendsSees crypto config players s (Function.update here msg.sourceId false) := by
    refine ⟨h.user, h.account, fun id epic ↦ ?_, fun epic ↦ ?_, h.nodup⟩
    · rw [h.friendByPeer, holds_went_absent habsent]
    · simp only [h.friends, holds_went_absent habsent]
  rw [Friends.onNetworkMessage]
  split
  · rename_i hsource
    exact hkeep (not_holds_nobody hplayers (h.user ▸ hsource))
  · rw [if_neg (by rw [htag]; exact peerDisconnected_tag_ne), Friends.onPeerDisconnected]
    cases hlookup : s.friendByPeer[msg.sourceId]? with
    | none =>
      refine hkeep fun epic hholds ↦ ?_
      rw [(h.friendByPeer _ _).2 hholds] at hlookup
      cases hlookup
    | some account =>
      have hself := (h.friendByPeer _ _).1 hlookup
      refine ⟨h.user, h.account, fun id epic ↦ ?_, fun epic ↦ ?_, h.nodup.erase _⟩
      · rw [lookup_erase, holds_went]
        split
        · simp
        · exact h.friendByPeer id epic
      · rw [h.nodup.mem_erase_iff, h.friends]
        simp only [holds_went]
        constructor
        · rintro ⟨hne, id, hid⟩
          refine ⟨id, ?_⟩
          rw [if_neg]
          · exact hid
          · rintro rfl
            exact hne (hid.account_unique hplayers hself)
        · rintro ⟨id, hid⟩
          split at hid
          · exact hid.elim
          · rename_i hne
            refine ⟨fun heq ↦ hne ?_, id, hid⟩
            subst heq
            exact hself.peer_unique hplayers hid

theorem FriendsSees.other {s : Friends} (h : FriendsSees crypto config players s here)
    (hlife : ¬ IsLifecycle msg.typeTag) :
    FriendsSees crypto config players (s.onNetworkMessage msg) here := by
  rw [IsLifecycle, not_or] at hlife
  rw [Friends.onNetworkMessage, if_neg hlife.1, if_neg hlife.2]
  split <;> exact h

theorem FriendsSees.hollow {s : Friends} (h : FriendsSees crypto config players s here)
    (htag : msg.typeTag = MessageType.peerConnected.tag) (hpayload : msg.payload = []) :
    FriendsSees crypto config players (s.onNetworkMessage msg) here := by
  rw [Friends.onNetworkMessage]
  split
  · exact h
  · rw [Friends.onPeerConnected, if_pos (.inl hpayload)]
    exact h

/-! ## The result -/

/-- The router has peer `id`, and proved its account. -/
def Connected (m : Machine) (id epic : Bytes) : Prop :=
  ∃ entry, m.router.peers[id]? = some entry ∧ entry.epicId = epic

/-- The three views describe exactly the connected peers, with their proven accounts. -/
structure ViewsAgree (m : Machine) (presence : Presence) (userInfo : UserInfo) (friends : Friends) :
    Prop where
  peerEpic : ∀ id epic, presence.peerEpic[id]? = some epic ↔ Connected m id epic
  epicToPeer : ∀ epic id, userInfo.epicToPeer[epic]? = some id ↔ Connected m id epic
  friendByPeer : ∀ id epic, friends.friendByPeer[id]? = some epic ↔ Connected m id epic
  listed : ∀ epic, epic ∈ friends.friends ↔ ∃ id, Connected m id epic
  nodup : friends.friends.Nodup

/-- The interfaces as they are made, and their listeners. -/
structure Interfaces where
  presence : Listener
  userInfo : Listener
  friends : Listener

namespace Interfaces

variable (listeners : Interfaces) (crypto : Crypto) (config : Config)

/-- The listeners of the three. -/
def all : List Listener := [listeners.presence, listeners.userInfo, listeners.friends]

/-- What Presence has made of what it was told. -/
def presenceOf (m : Machine) : Presence :=
  viewOf Presence.onNetworkMessage listeners.presence
    (Presence.start (deriveEpicAccountId crypto config.staticPub) config.productUserId config.gameId
      []) m.trace

/-- What user info has made of a run of the router. -/
def userInfoOf (m : Machine) : UserInfo :=
  viewOf UserInfo.onNetworkMessage listeners.userInfo
    { epicAccountId := deriveEpicAccountId crypto config.staticPub
      productUserId := config.productUserId } m.trace

/-- What friends has made of a run of the router. -/
def friendsOf (m : Machine) : Friends :=
  viewOf Friends.onNetworkMessage listeners.friends
    { epicAccountId := deriveEpicAccountId crypto config.staticPub
      productUserId := config.productUserId } m.trace

/-- The three interfaces see the same peers. -/
def Agree (m : Machine) : Prop :=
  ViewsAgree m (listeners.presenceOf crypto config m) (listeners.userInfoOf crypto config m)
    (listeners.friendsOf crypto config m)

/-- All three are registered for both events. -/
def Registered (m : Machine) : Prop :=
  ∀ l ∈ listeners.all, l ∈ m.router.listenersOf MessageType.peerConnected.tag ∧
    l ∈ m.router.listenersOf MessageType.peerDisconnected.tag

instance (m : Machine) : Decidable (listeners.Registered m) :=
  inferInstanceAs (Decidable (∀ _ ∈ _, _ ∧ _))

/-- A step in which everybody is honest, the interfaces stay, and no arrival is overtaken on its way
to one of them. -/
def Step (players : List Bytes) (m : Machine) (i : Input) : Prop :=
  ∀ l ∈ listeners.all, NoticeStep crypto config players l m i

instance (players : List Bytes) (m : Machine) (i : Input) :
    Decidable (listeners.Step crypto config players m i) :=
  inferInstanceAs (Decidable (∀ _ ∈ _, _))

end Interfaces

/-- The same, whatever is dropped on the way. -/
def Interfaces.HonestSpan (listeners : Interfaces) (crypto : Crypto) (config : Config)
    (players : List Bytes) (m : Machine) (i : Input) : Prop :=
  (∀ l ∈ listeners.all, InSpan l i) ∧ HonestStep crypto config players m i

instance (listeners : Interfaces) (m : Machine) (i : Input) :
    Decidable (listeners.HonestSpan crypto config players m i) :=
  inferInstanceAs (Decidable (_ ∧ _))

variable {m m₁ : Machine} {listeners : Interfaces}

/-- What a listener that knows who is there holds is what the router has. -/
theorem holds_iff_connected (hid : IdentityInv crypto config m) (hplay : PeersPlay players m)
    (hplayers : Players crypto config players) (hhere : ∀ id, here id = m.router.peers.contains id)
    (id epic : Bytes) : Holds crypto config players here id epic ↔ Connected m id epic := by
  rw [Holds, hhere, contains_iff_lookup]
  constructor
  · rintro ⟨⟨entry, hentry⟩, key, hkey, hkeyId, -, hepic⟩
    have hok := (hid.peers id entry hentry).1
    have hin := hplay _ ((mem_toList_iff_lookup _ _ _).2 hentry)
    refine ⟨entry, hentry, ?_⟩
    rw [hok.epicId, hepic, hplayers.ids _ hin key hkey (hok.idOfKey.symm.trans hkeyId)]
  · rintro ⟨entry, hentry, hepic⟩
    have hok := (hid.peers id entry hentry).1
    exact ⟨⟨entry, hentry⟩, entry.channel.remoteStatic,
      hplay _ ((mem_toList_iff_lookup _ _ _).2 hentry), hok.idOfKey, hok.notOwn,
      hepic.symm.trans hok.epicId⟩

/-- **The three views agree with the router between ticks**: from the making of a router and its
interfaces on, in every run of honest players in which no arrival is overtaken on its way to one of
the three. -/
theorem peer_views_agree (hplayers : Players crypto config players)
    (hpast : Reaches (Machine.step crypto config) always {} m₁) (hfresh : m₁.trace = [])
    (hidle₁ : m₁.Idle) (hregistered : listeners.Registered m₁)
    (h : Reaches (Machine.step crypto config) (listeners.Step crypto config players) m₁ m)
    (hidle : m.Idle) : listeners.Agree crypto config m := by
  have hall (l : Listener) (hl : l ∈ listeners.all) :=
    notices_of_reaches hplayers hpast hfresh hidle₁
    (hregistered l hl) (h.mono fun _ _ hstep ↦ hstep l hl)
  have hmem : listeners.presence ∈ listeners.all ∧ listeners.userInfo ∈ listeners.all ∧
      listeners.friends ∈ listeners.all := by
    simp [Interfaces.all]
  obtain ⟨hid, hplay, henvelopes, hpresence⟩ := hall _ hmem.1
  obtain ⟨-, -, -, huserInfo⟩ := hall _ hmem.2.1
  obtain ⟨-, -, -, hfriends⟩ := hall _ hmem.2.2
  have hagree (l : Listener) (hl : ∀ id, isHere l m.trace id = m.router.peers.contains id) :=
    holds_iff_connected hid hplay hplayers hl
  have hsees₁ : PresenceSees crypto config players (listeners.presenceOf crypto config m)
      (isHere listeners.presence m.trace) := by
    refine viewOf_invariant ?_ (fun s here msg key h htag hkey hs ho ha hp ↦
      h.came hplayers htag hkey hs ho ha hp) (fun s here msg h htag hp ↦ h.hollow htag hp)
      (fun s here msg h htag ↦ h.went hplayers htag) (fun s here msg h hlife ↦ h.other hlife)
      henvelopes.trace
    exact presenceSees_start _ _
  have hsees₂ : UserInfoSees crypto config players (listeners.userInfoOf crypto config m)
      (isHere listeners.userInfo m.trace) := by
    refine viewOf_invariant ?_ (fun s here msg key h htag hkey hs ho ha hp ↦
      h.came hplayers htag hkey hs ho ha hp) (fun s here msg h htag hp ↦ h.hollow htag hp)
      (fun s here msg h htag ↦ h.went hplayers htag) (fun s here msg h hlife ↦ h.other hlife)
      henvelopes.trace
    exact ⟨rfl, rfl, fun _ _ ↦ iff_of_false (by simp) holds_nobody⟩
  have hsees₃ : FriendsSees crypto config players (listeners.friendsOf crypto config m)
      (isHere listeners.friends m.trace) := by
    refine viewOf_invariant ?_ (fun s here msg key h htag hkey hs ho ha _ ↦
      h.came hplayers htag hkey hs ho ha) (fun s here msg h htag hp ↦ h.hollow htag hp)
      (fun s here msg h htag ↦ h.went hplayers htag) (fun s here msg h hlife ↦ h.other hlife)
      henvelopes.trace
    exact ⟨rfl, rfl, fun _ _ ↦ iff_of_false (by simp) holds_nobody,
      fun _ ↦ iff_of_false (by simp) fun ⟨_, h⟩ ↦ holds_nobody h, List.nodup_nil⟩
  exact
    { peerEpic := fun id epic ↦ (hsees₁.peerEpic id epic).trans (hagree _ (hpresence hidle) id epic)
      epicToPeer := fun epic id ↦
        (hsees₂.epicToPeer epic id).trans (hagree _ (huserInfo hidle) id epic)
      friendByPeer := fun id epic ↦
        (hsees₃.friendByPeer id epic).trans (hagree _ (hfriends hidle) id epic)
      listed := fun epic ↦
        (hsees₃.friends epic).trans (exists_congr fun id ↦ hagree _ (hfriends hidle) id epic)
      nodup := hsees₃.nodup }

/-! ## Runs -/

/-- Presence, UserInfo and Friends are listeners zero, one and two. -/
def gathered : Interfaces := ⟨0, 1, 2⟩

/-- The router starts, and the three register. -/
def gathering : List Input :=
  .start (some (55789, 40000)) :: gathered.all.flatMap fun l ↦
    [.act Sample.quiet (.registerListener MessageType.peerConnected.tag l),
      .act Sample.quiet (.registerListener MessageType.peerDisconnected.tag l)]

/-- We and player two. -/
def twoPlayers : List Bytes := [Sample.key 1, Sample.key 2]

theorem twoPlayers_play : Players checksumCrypto Sample.us twoPlayers where
  ids := by decide +kernel
  accounts := by decide +kernel
  own := by decide +kernel
  ownId := by decide +kernel
  digest := fun data ↦ List.length_replicate

/-- A call to each of the three, none of which sends anything. -/
def toldAll : List Input :=
  [.run Sample.quiet, .ret, .run Sample.quiet, .ret, .run Sample.quiet, .ret, .run Sample.quiet]

/-- The rest of a tick in which nothing happens. -/
def restOfTick : List Input := List.replicate 6 (.run Sample.quiet)

/-- Player two comes, and all three hear of it. -/
def comingRun : List Input :=
  Sample.adopting (Sample.stream (Sample.key 2) []) ++ [.run Sample.quiet, .run Sample.quiet] ++
    toldAll ++ restOfTick

/-- Presence greets player two, and the send fails: all three hear that it is gone, and then Friends
and UserInfo that it came. -/
def overtakenRun : List Input :=
  Sample.adopting (Sample.stream (Sample.key 2) []) ++
    [.run Sample.quiet, .run Sample.quiet, .run Sample.quiet,
      .act Sample.refusing (.send
        { typeTag := MessageType.presenceInfo.tag
          destId := Sample.us.idOfKey checksumCrypto (Sample.key 2) }),
      .run Sample.quiet, .run Sample.quiet] ++ toldAll ++ [.ret] ++
    [.run Sample.quiet, .ret, .run Sample.quiet, .ret, .run Sample.quiet] ++ restOfTick

/-- The state the three are registered in. -/
theorem gathered_reached : ∃ m₁, runInputs (Machine.step checksumCrypto Sample.us) {} gathering =
    some m₁ ∧ m₁.trace = [] ∧ m₁.Idle ∧ gathered.Registered m₁ :=
  exists_runInputs (Machine.step checksumCrypto Sample.us) {}
    (fun m₁ ↦ m₁.trace = [] ∧ m₁.Idle ∧ gathered.Registered m₁) gathering (by decide +kernel)

theorem peer_views_agree_coming : ∃ m : Machine,
    (m.router.peers.toList.length = 1 ∧ m.Idle) ∧ gathered.Agree checksumCrypto Sample.us m := by
  obtain ⟨m₁, hrun₁, hfresh, hidle₁, hregistered⟩ := gathered_reached
  have hrun : ((runInputs (Machine.step checksumCrypto Sample.us) {} gathering).any fun m₁ ↦
      (runInputs (Machine.step checksumCrypto Sample.us) m₁ comingRun).any fun m ↦
        m.router.peers.toList.length = 1 ∧ m.Idle) = true ∧
      (runInputs (Machine.step checksumCrypto Sample.us) {} gathering).all (fun m₁ ↦
        decide (meets (Machine.step checksumCrypto Sample.us)
          (gathered.Step checksumCrypto Sample.us twoPlayers) m₁ comingRun)) = true := by
    decide +kernel
  rw [hrun₁, Option.any_some, Option.all_some] at hrun
  obtain ⟨m, hreach, hm⟩ := exists_reaches (Machine.step checksumCrypto Sample.us)
    (gathered.Step checksumCrypto Sample.us twoPlayers) m₁
    (fun m ↦ m.router.peers.toList.length = 1 ∧ m.Idle) comingRun hrun.1 (of_decide_eq_true hrun.2)
  exact ⟨m, hm, peer_views_agree twoPlayers_play (reaches_of_runInputs hrun₁ (meets_always _ _))
    hfresh hidle₁ hregistered hreach hm.2⟩

/-- Friends keeps an account that no connected peer has. -/
theorem peer_views_part : ¬ ∀ (crypto : Crypto) (config : Config) (players : List Bytes)
    (listeners : Interfaces) (m₁ m : Machine), Players crypto config players →
    Reaches (Machine.step crypto config) always {} m₁ → m₁.trace = [] → m₁.Idle →
    listeners.Registered m₁ →
    Reaches (Machine.step crypto config) (listeners.HonestSpan crypto config players) m₁ m →
    m.Idle → listeners.Agree crypto config m := by
  intro hall
  obtain ⟨m₁, hrun₁, hfresh, hidle₁, hregistered⟩ := gathered_reached
  have hrun : ((runInputs (Machine.step checksumCrypto Sample.us) {} gathering).any fun m₁ ↦
      (runInputs (Machine.step checksumCrypto Sample.us) m₁ overtakenRun).any fun m ↦
        m.Idle ∧ m.router.peers.toList = [] ∧
          (gathered.friendsOf checksumCrypto Sample.us m).friends ≠ []) = true ∧
      (runInputs (Machine.step checksumCrypto Sample.us) {} gathering).all (fun m₁ ↦
        decide (meets (Machine.step checksumCrypto Sample.us)
          (gathered.HonestSpan checksumCrypto Sample.us twoPlayers) m₁ overtakenRun)) = true := by
    decide +kernel
  rw [hrun₁, Option.any_some, Option.all_some] at hrun
  obtain ⟨m, hreach, hidle, hnobody, hfriends⟩ := exists_reaches
    (Machine.step checksumCrypto Sample.us)
    (gathered.HonestSpan checksumCrypto Sample.us twoPlayers) m₁
    (fun m ↦ m.Idle ∧ m.router.peers.toList = [] ∧
      (gathered.friendsOf checksumCrypto Sample.us m).friends ≠ [])
    overtakenRun hrun.1 (of_decide_eq_true hrun.2)
  have hagree := hall _ _ twoPlayers gathered m₁ m twoPlayers_play
    (reaches_of_runInputs hrun₁ (meets_always _ _)) hfresh hidle₁ hregistered hreach hidle
  obtain ⟨epic, hepic⟩ := List.exists_mem_of_ne_nil _ hfriends
  obtain ⟨id, entry, hentry, -⟩ := (hagree.listed epic).1 hepic
  have hmem := (mem_toList_iff_lookup _ _ _).2 hentry
  rw [hnobody] at hmem
  cases hmem

end Machine
end EosMesh
