import EosMesh.Interfaces.Lobby.SeatSteps

/-!
# What stands for a host

Hosting passes from peer to peer: a host that promotes or leaves stops hosting at once, and the one
it names hosts when it hears of it.  In between nobody hosts the lobby, and what was sent stands for
the host.  To show that there is one host at most, these messages have to be counted with the hosts.

* `Lobbies.handed` is what makes a message such a one: it tells a member of a lobby that names it as
  owner.
* A step sends through several functions, one after the other, and most of what it sends is no such
  message.  `Calm` is a state from which nobody is lost and in which nothing was handed on; `posted`
  is it with some messages handed to the router.  `Calm.broadcastLobby` says that an owner tells its
  members nothing that would make one of them the host, and `calm_tell` and `calm_tellAfter` are the
  two shapes of a call that edits an entry and tells the members.
* `Hands` is what a step sends for a host: nothing, or one message for a lobby it stops hosting.  It
  goes to whoever inherits, and to nobody else in that role (`countP_letters`); `hands_heir` is a
  host that names another owner.
* `Lobbies.hands_of_step` says that while nobody is lost, every step is of one of these two kinds.
* `Lobbies.hosted_of_step` says who hosts after a step: a host was one before, or created the lobby,
  or was sent it.
-/

set_option autoImplicit false

namespace EosMesh

open Lib
open Std (TreeMap)

namespace Lobbies

variable {s s' : Lobbies} {i : Input} {lobbyId : Bytes}

/-! ## Sends that lose nobody -/

/-- The state with `list` handed to the router. -/
def posted (s : Lobbies) (list : List (Bytes × LobbyMessage)) : Lobbies :=
  { s with mesh := { s.mesh with sent := s.mesh.sent ++ list } }

@[simp] theorem posted_nil : s.posted [] = s := by
  rw [posted, List.append_nil]

@[simp] theorem posted_posted (list list' : List (Bytes × LobbyMessage)) :
    (s.posted list).posted list' = s.posted (list ++ list') := by
  simp [posted]

/-- A message to one peer, as it goes out. -/
def letters (s : Lobbies) (message : LobbyMessage) (peer : Bytes) : List (Bytes × LobbyMessage) :=
  (s.mesh.recipients peer).map fun p ↦ (p, message)

theorem sendTo_quiet (h : s.mesh.losses = []) (peer : Bytes) (message : LobbyMessage) :
    s.sendTo peer message = s.posted (s.letters message peer) := by
  rw [sendTo, sendToWith, Mesh.send_of_noLosses _ h]
  rfl

theorem foldl_sendTo_quiet (h : s.mesh.losses = []) (message : LobbyMessage)
    (peers : List Bytes) : peers.foldl (fun s peer ↦ s.sendTo peer message) s =
      s.posted (peers.flatMap (s.letters message)) := by
  induction peers generalizing s with
  | nil => simp
  | cons peer peers ih =>
    rw [List.foldl_cons, sendTo_quiet h, ih (by exact h), List.flatMap_cons, posted_posted]
    rfl

/-- Whom a message to the members goes to. -/
def addressees (s : Lobbies) (lobbyId except : Bytes) : List Bytes :=
  (s.roster lobbyId).filter fun member ↦ member ≠ s.productUserId ∧ member ≠ except

theorem broadcastToMembers_quiet (h : s.mesh.losses = []) (lobbyId : Bytes)
    (message : LobbyMessage) (except : Bytes) : s.broadcastToMembers lobbyId message except =
      s.posted ((s.addressees lobbyId except).flatMap (s.letters message)) := by
  rw [broadcastToMembers, broadcastToMembersWith,
    fanOut_steady (I := fun s : Lobbies ↦ s.mesh.losses = []) ?_ ?_ h]
  · rw [← foldl_sendTo_quiet h]
    refine congrArg (List.foldl _ s) (List.filter_congr fun member _ ↦ ?_)
    simp
  · intro s member hs
    rw [← sendTo, sendTo_quiet hs]
    exact hs
  · intro s member hs
    rw [← sendTo, sendTo_quiet hs]
    rfl

theorem broadcastLobby_quiet (h : s.mesh.losses = []) {entry : Lobby}
    (hentry : s.lobbies[lobbyId]? = some entry) : s.broadcastLobby lobbyId =
      s.posted ((s.addressees lobbyId []).flatMap (s.letters (.infos entry.infos))) := by
  rw [broadcastLobby, broadcastLobbyWith, show s.findLobby lobbyId = some entry from hentry]
  exact broadcastToMembers_quiet h lobbyId _ _

/-! ## What a step sends -/

/-- The lobby a message hands to whom it is for. -/
def handed (dest : Bytes) : LobbyMessage → Option Bytes
  | .infos infos => if infos.ownerId = dest then some infos.lobbyId else none
  | _ => none

/-- Nobody is to be lost, or was, and nothing handed on. -/
structure Calm (peers : List Bytes) (s : Lobbies) : Prop where
  losses : s.mesh.losses = []
  peers : s.mesh.peers = peers
  idle : ∀ letter ∈ s.mesh.sent, handed letter.1 letter.2 = none

variable {peers : List Bytes}

theorem Calm.of_mesh (h : Calm peers s) (hmesh : s'.mesh = s.mesh) : Calm peers s' := by
  obtain ⟨hlosses, hpeers, hidle⟩ := h
  rw [← hmesh] at hlosses hpeers hidle
  exact ⟨hlosses, hpeers, hidle⟩

theorem Calm.of_core (h : Calm peers s) (hcore : s'.core = s.core) : Calm peers s' :=
  h.of_mesh (core_eq_iff.1 hcore).2.2.2.1

theorem Calm.posted (h : Calm peers s) {list : List (Bytes × LobbyMessage)}
    (hlist : ∀ letter ∈ list, handed letter.1 letter.2 = none) : Calm peers (s.posted list) :=
  ⟨h.losses, h.peers, fun letter hletter ↦ (List.mem_append.1 hletter).elim (h.idle letter)
    (hlist letter)⟩

theorem Calm.sendTo (h : Calm peers s) (peer : Bytes) {message : LobbyMessage}
    (hmessage : ∀ dest, handed dest message = none) : Calm peers (s.sendTo peer message) := by
  rw [sendTo_quiet h.losses]
  refine h.posted fun letter hletter ↦ ?_
  obtain ⟨p, -, rfl⟩ := List.mem_map.1 hletter
  exact hmessage p

theorem Calm.foldl_sendTo (h : Calm peers s) {message : LobbyMessage}
    (hmessage : ∀ dest, handed dest message = none) (dests : List Bytes) :
    Calm peers (dests.foldl (fun s peer ↦ s.sendTo peer message) s) := by
  induction dests generalizing s with
  | nil => exact h
  | cons peer dests ih => exact ih (h.sendTo peer hmessage)

/-- Whom a message to the members is addressed to, it goes to. -/
theorem mem_letters {message : LobbyMessage} {except : Bytes} (hnamed : [] ∉ s.roster lobbyId)
    {letter : Bytes × LobbyMessage}
    (h : letter ∈ (s.addressees lobbyId except).flatMap (s.letters message)) :
    letter.1 ∈ s.roster lobbyId ∧ letter.1 ≠ s.productUserId ∧ letter.2 = message := by
  obtain ⟨member, hmember, hletter⟩ := List.mem_flatMap.1 h
  obtain ⟨p, hp, rfl⟩ := List.mem_map.1 hletter
  obtain ⟨hin, hother⟩ := List.mem_filter.1 hmember
  rw [decide_eq_true_eq] at hother
  obtain rfl := mem_recipients (fun heq ↦ hnamed (heq ▸ hin)) hp
  exact ⟨hin, hother.1, rfl⟩

/-- An owner tells its members nothing that would make one of them the host. -/
theorem Calm.broadcastLobby (h : Calm peers s) {entry : Lobby}
    (hentry : s.lobbies[lobbyId]? = some entry) (hnamed : [] ∉ entry.infos.roster)
    (howner : entry.infos.ownerId = s.productUserId) : Calm peers (s.broadcastLobby lobbyId) := by
  rw [broadcastLobby_quiet h.losses hentry]
  refine h.posted fun letter hletter ↦ ?_
  obtain ⟨-, hother, hmessage⟩ := mem_letters
    (by rw [roster_of_lookup hentry]; exact hnamed) hletter
  rw [hmessage, handed, if_neg (howner ▸ hother.symm)]

/-- What a step sends for a host: nothing, or one message for a lobby it stops hosting. -/
inductive Hands (s s' : Lobbies) : Prop
  | none (h : Calm s.mesh.peers s')
  | passed (lobbyId heir : Bytes) (hlosses : s'.mesh.losses = [])
      (hpeers : s'.mesh.peers = s.mesh.peers)
      (hbefore : (s.hosted lobbyId).isSome = true) (hafter : s'.hosted lobbyId = none)
      (hletters : ∀ letter ∈ s'.mesh.sent, ∀ id, handed letter.1 letter.2 = some id →
        id = lobbyId ∧ letter.1 = heir)
      (honce : s'.mesh.sent.countP (fun letter ↦ (handed letter.1 letter.2).isSome) ≤ 1)

/-- The one message for whoever inherits. -/
theorem countP_letters {infos : LobbyInfos} (hpeers : s.mesh.peers.Nodup)
    (hroster : (s.roster lobbyId).Nodup) (hnamed : [] ∉ s.roster lobbyId) :
    ((s.addressees lobbyId []).flatMap (s.letters (.infos infos))).countP
      (fun letter ↦ (handed letter.1 letter.2).isSome) ≤ 1 := by
  have hnodup : ((s.addressees lobbyId []).flatMap (s.letters (.infos infos))).Nodup := by
    refine List.nodup_flatMap.2 ⟨fun member _ ↦ ?_, ?_⟩
    · refine List.Nodup.map (fun p q heq ↦ congrArg Prod.fst heq) ?_
      rw [Mesh.recipients]
      split
      · exact hpeers
      · exact hpeers.filter _
    · refine (hroster.filter _).imp_of_mem fun {member member'} hmember hmember' hne ↦ ?_
      have hname (m : Bytes) (hm : m ∈ s.addressees lobbyId []) : m ≠ [] :=
        fun heq ↦ hnamed (heq ▸ (List.mem_filter.1 hm).1)
      rw [Function.onFun, List.disjoint_left]
      intro letter hletter hletter'
      obtain ⟨p, hp, rfl⟩ := List.mem_map.1 hletter
      obtain ⟨q, hq, heq⟩ := List.mem_map.1 hletter'
      have hpq : q = p := congrArg Prod.fst heq
      exact hne ((mem_recipients (hname _ hmember) hp).symm.trans
        (hpq ▸ mem_recipients (hname _ hmember') hq))
  rw [List.countP_eq_length_filter]
  have hall : ∀ letter ∈ ((s.addressees lobbyId []).flatMap (s.letters (.infos infos))).filter
      (fun letter ↦ (handed letter.1 letter.2).isSome), letter = (infos.ownerId, .infos infos) := by
    intro letter hletter
    obtain ⟨hin, hhanded⟩ := List.mem_filter.1 hletter
    obtain ⟨-, -, hmessage⟩ := mem_letters hnamed hin
    rw [hmessage, handed] at hhanded
    split at hhanded
    · rename_i howner
      exact Prod.ext howner.symm hmessage
    · cases hhanded
  have hreplicate := List.eq_replicate_of_mem hall
  have honce := hnodup.filter fun letter ↦ (handed letter.1 letter.2).isSome
  rw [hreplicate] at honce
  exact List.nodup_replicate.1 honce

section Steps

variable {terms : SeatTerms} (h : Orderly terms s) (hlosses : s.mesh.losses = [])
  (hsent : s.mesh.sent = [])
include hlosses hsent

theorem calm_of_flushed : Calm s.mesh.peers s :=
  ⟨hlosses, rfl, fun letter hletter ↦ by rw [hsent] at hletter; cases hletter⟩

include h

/-- A host edits an entry and tells the members. -/
theorem calm_tell {entry edited : Lobby} (hentry : s.lobbies[lobbyId]? = some entry)
    (hhosting : entry.localState = .hosting) (hnamed : [] ∉ edited.infos.roster)
    (howner : edited.infos.ownerId = entry.infos.ownerId) :
    Calm s.mesh.peers ((s.setLobby lobbyId edited).broadcastLobby lobbyId) := by
  have hself := ((h.housed lobbyId entry hentry).host hhosting).1
  have hcalm : Calm s.mesh.peers (s.setLobby lobbyId edited) :=
    ⟨hlosses, rfl, (calm_of_flushed hlosses hsent).idle⟩
  refine hcalm.broadcastLobby ?_ hnamed (howner.trans hself)
  rw [setLobby, lookup_insert, if_pos rfl]

/-- The same, with something else said first. -/
theorem calm_tellAfter {entry edited : Lobby} (hentry : s.lobbies[lobbyId]? = some entry)
    (hhosting : entry.localState = .hosting) (hnamed : [] ∉ edited.infos.roster)
    (howner : edited.infos.ownerId = entry.infos.ownerId) (peer : Bytes) {message : LobbyMessage}
    (hmessage : ∀ dest, handed dest message = none) :
    Calm s.mesh.peers
      (((s.setLobby lobbyId edited).sendTo peer message).broadcastLobby lobbyId) := by
  have hself := ((h.housed lobbyId entry hentry).host hhosting).1
  have hcalm : Calm s.mesh.peers (s.setLobby lobbyId edited) :=
    ⟨hlosses, rfl, (calm_of_flushed hlosses hsent).idle⟩
  have hposted := sendTo_quiet (s := s.setLobby lobbyId edited) hlosses peer message
  have hset : ((s.setLobby lobbyId edited).sendTo peer message).lobbies[lobbyId]? =
      some edited := by
    rw [hposted]
    show (s.setLobby lobbyId edited).lobbies[lobbyId]? = some edited
    rw [setLobby, lookup_insert, if_pos rfl]
  refine (hcalm.sendTo peer hmessage).broadcastLobby hset hnamed ?_
  rw [hposted]
  exact howner.trans hself

/-- A host that names another owner sends one message for it. -/
theorem hands_heir (hpeers : s.mesh.peers.Nodup) {entry edited : Lobby}
    (hentry : s.lobbies[lobbyId]? = some entry) (hhosting : entry.localState = .hosting)
    (hroster : edited.infos.roster.Sublist entry.infos.roster)
    (hid : edited.infos.lobbyId = lobbyId)
    (hlost : s'.core = ((s.setLobby lobbyId edited).broadcastLobby lobbyId).core ∧
        edited.localState ≠ .hosting ∨
      s'.core = (((s.setLobby lobbyId edited).broadcastLobby lobbyId).eraseLobby lobbyId).core) :
    Hands s s' := by
  obtain ⟨hfits, -, -⟩ := h.decent.fits lobbyId entry hentry
  have hset : (s.setLobby lobbyId edited).lobbies[lobbyId]? = some edited := by
    rw [setLobby, lookup_insert, if_pos rfl]
  have hquiet := broadcastLobby_quiet (s := s.setLobby lobbyId edited) hlosses hset
  have hafter : (s.setLobby lobbyId edited).roster lobbyId = edited.infos.roster :=
    roster_of_lookup hset
  have hnamed : [] ∉ (s.setLobby lobbyId edited).roster lobbyId := by
    rw [hafter]
    exact fun hin ↦ hfits.named (hroster.subset hin)
  rw [hquiet] at hlost
  have hmesh : s'.mesh = ((s.setLobby lobbyId edited).posted
    (((s.setLobby lobbyId edited).addressees
      lobbyId []).flatMap ((s.setLobby lobbyId edited).letters (.infos edited.infos)))).mesh := by
    rcases hlost with ⟨hlost, -⟩ | hlost
    · exact (core_eq_iff.1 hlost).2.2.2.1
    · exact (core_eq_iff.1 hlost).2.2.2.1
  have hsent' : s'.mesh.sent = ((s.setLobby lobbyId edited).addressees lobbyId []).flatMap
      ((s.setLobby lobbyId edited).letters (.infos edited.infos)) := by
    rw [hmesh]
    show s.mesh.sent ++ _ = _
    rw [hsent, List.nil_append]
  refine .passed lobbyId edited.infos.ownerId ?_ ?_ ?_ ?_ (fun letter hletter id hhanded ↦ ?_) ?_
  · rw [hmesh]
    exact hlosses
  · rw [hmesh]
    rfl
  · rw [Option.isSome_iff_exists]
    exact ⟨entry, hosted_eq_some.2 ⟨hentry, hhosting⟩⟩
  · refine Option.eq_none_iff_forall_ne_some.2 fun other hother ↦ ?_
    obtain ⟨hother, hstill⟩ := hosted_eq_some.1 hother
    rcases hlost with ⟨hlost, hstate⟩ | hlost
    · rw [(core_eq_iff.1 hlost).2.2.2.2] at hother
      obtain rfl := Option.some.inj (hset.symm.trans hother)
      exact hstate hstill
    · rw [(core_eq_iff.1 hlost).2.2.2.2, eraseLobby, lookup_erase, if_pos rfl] at hother
      cases hother
  · rw [hsent'] at hletter
    obtain ⟨-, -, hmessage⟩ := mem_letters hnamed hletter
    rw [hmessage, handed] at hhanded
    split at hhanded
    · rename_i howner
      exact ⟨(Option.some.inj hhanded).symm.trans hid, howner.symm⟩
    · cases hhanded
  · rw [hsent']
    refine countP_letters hpeers ?_ hnamed
    rw [hafter]
    exact hfits.nodup.sublist hroster

theorem hands_depart (hpeers : s.mesh.peers.Nodup) (o : LobbyIdOptions) :
    Hands s (s.depart o).2 := by
  have hcalm := calm_of_flushed hlosses hsent
  rw [depart]
  split
  · rename_i lobbyId _ _ _
    split
    · exact .none hcalm
    · rename_i entry hentry
      replace hentry : s.lobbies[lobbyId]? = some entry := hentry
      dsimp only
      split
      · rename_i hhosting
        rw [closeHostedLobby]
        dsimp only
        split
        · have hnamed : [] ∉ s.roster lobbyId := by
            rw [roster_of_lookup hentry]
            exact (h.decent.fits lobbyId entry hentry).fits.named
          have htold : Calm s.mesh.peers (s.broadcastToMembers lobbyId
              (.destroy { lobbyId := entry.infos.lobbyId, reason := memberStatusClosed }) []) := by
            rw [broadcastToMembers_quiet hlosses]
            refine hcalm.posted fun letter hletter ↦ ?_
            rw [(mem_letters hnamed hletter).2.2]
            rfl
          exact .none ⟨htold.losses, htold.peers, htold.idle⟩
        · obtain ⟨-, hid, -⟩ := h.decent.fits lobbyId entry hentry
          refine hands_heir h hlosses hsent hpeers hentry hhosting ?_ ?_ (.inr rfl)
          · exact roster_dropMember entry.infos s.productUserId ▸ List.erase_sublist
          · exact hid
      · have hleft : Calm s.mesh.peers (s.sendTo entry.infos.ownerId
            (.leave { lobbyId, member := { userId := s.productUserId } })) :=
          hcalm.sendTo entry.infos.ownerId fun _ ↦ rfl
        exact .none ⟨hleft.losses, hleft.peers, hleft.idle⟩
  · exact .none hcalm

theorem hands_promoteMember (hpeers : s.mesh.peers.Nodup) (o : LobbyMemberOptions) :
    Hands s (s.promoteMember o).2 := by
  have hcalm := calm_of_flushed hlosses hsent
  rw [promoteMember]
  split
  · rename_i lobbyId _ target _ _ _
    split
    · exact .none hcalm
    · rename_i entry hentry
      split
      · exact .none hcalm
      · rename_i hhosting
        split
        · exact .none hcalm
        · obtain ⟨-, hid, -⟩ := h.decent.fits lobbyId entry hentry
          refine hands_heir h hlosses hsent hpeers hentry (by simpa using hhosting) ?_ ?_
            (.inl ⟨rfl, ?_⟩)
          · exact List.Sublist.refl _
          · exact hid
          · exact fun hstill ↦ by cases hstill
  · exact .none hcalm

omit h in
theorem calm_createLobby (o : CreateLobbyOptions) (random : Option Bytes) :
    Calm s.mesh.peers (s.createLobby o random).2 := by
  have hcalm := calm_of_flushed hlosses hsent
  rw [createLobby]
  split
  · exact hcalm
  · split
    · exact hcalm
    · dsimp only
      split
      · exact hcalm
      · split
        · exact hcalm
        · exact ⟨hcalm.losses, hcalm.peers, hcalm.idle⟩

theorem calm_updateLobby (o : UpdateLobbyOptions) : Calm s.mesh.peers (s.updateLobby o).2 := by
  have hcalm := calm_of_flushed hlosses hsent
  rw [updateLobby]
  split
  · exact hcalm
  · rename_i object hobject
    split
    · exact hcalm
    · split
      · exact hcalm
      · rename_i entry hentry
        obtain ⟨hfits, -, -⟩ := h.decent.fits object.lobbyId entry hentry
        have hroster := roster_modified entry s.productUserId object
        have hset : Calm s.mesh.peers
            (s.setLobby object.lobbyId (Lobby.modified entry s.productUserId object)) :=
          ⟨hcalm.losses, hcalm.peers, hcalm.idle⟩
        dsimp only
        split
        · rename_i howner
          refine hset.broadcastLobby (by rw [setLobby, lookup_insert, if_pos rfl])
            (hroster ▸ hfits.named) ?_
          rw [Lobby.modified, if_pos howner]
          exact howner
        · exact hset.sendTo _ fun _ ↦ rfl

theorem calm_kickMember (o : LobbyMemberOptions) : Calm s.mesh.peers (s.kickMember o).2 := by
  have hcalm := calm_of_flushed hlosses hsent
  rw [kickMember]
  split
  · rename_i lobbyId _ target _ _ _
    split
    · exact hcalm
    · rename_i entry hentry
      split
      · exact hcalm
      · rename_i hhosting
        split
        · exact hcalm
        · obtain ⟨hfits, -, -⟩ := h.decent.fits lobbyId entry hentry
          refine calm_tellAfter h hlosses hsent hentry (by simpa using hhosting) ?_ ?_ target ?_
          · exact not_mem_roster_dropMember hfits.named target
          · rfl
          · exact fun _ ↦ rfl
  · exact hcalm

omit h in
theorem calm_joinLobby (o : JoinLobbyOptions) (now : Nat) (address : ResultAddress) :
    Calm s.mesh.peers (s.joinLobby o now address).2 := by
  have hcalm := calm_of_flushed hlosses hsent
  rw [joinLobby]
  split
  · dsimp only
    split
    · exact hcalm
    · split
      · exact hcalm
      · refine Calm.sendTo ?_ _ fun _ ↦ rfl
        exact ⟨hcalm.losses, hcalm.peers, hcalm.idle⟩
  · exact hcalm

omit h in
theorem calm_joinLobbyById (o : LobbyIdOptions) (now : Nat) (address : ResultAddress) :
    Calm s.mesh.peers (s.joinLobbyById o now address).2 := by
  have hcalm := calm_of_flushed hlosses hsent
  rw [joinLobbyById]
  split
  · split
    · exact hcalm
    · refine Calm.foldl_sendTo ?_ (fun _ ↦ rfl) _
      exact ⟨hcalm.losses, hcalm.peers, hcalm.idle⟩
  · exact hcalm

omit h in
theorem calm_searchFind (handle : GameHandle) (localUserId : Option Bytes) (now : Nat)
    (address : ResultAddress) : Calm s.mesh.peers
    (s.searchFind handle localUserId now address).2 := by
  have hcalm := calm_of_flushed hlosses hsent
  unfold searchFind
  split
  · split
    · exact hcalm
    · split
      · exact hcalm
      · refine Calm.of_core (Calm.foldl_sendTo hcalm ?_ _) rfl
        exact fun _ ↦ rfl
  · exact hcalm

theorem hands_call (hpeers : s.mesh.peers.Nodup) (c : Call) : Hands s (s.call c) := by
  have hcalm := calm_of_flushed hlosses hsent
  cases c with
  | createLobby o random => exact .none (calm_createLobby hlosses hsent o random)
  | destroyLobby o => exact hands_depart h hlosses hsent hpeers o
  | leaveLobby o => exact hands_depart h hlosses hsent hpeers o
  | updateLobbyModification o => exact .none (hcalm.of_core (core_updateLobbyModification o))
  | updateLobby o => exact .none (calm_updateLobby h hlosses hsent o)
  | promoteMember o => exact hands_promoteMember h hlosses hsent hpeers o
  | kickMember o => exact .none (calm_kickMember h hlosses hsent o)
  | joinLobby o now address => exact .none (calm_joinLobby hlosses hsent o now address)
  | joinLobbyById o now address => exact .none (calm_joinLobbyById hlosses hsent o now address)
  | createLobbySearch o => exact .none (hcalm.of_core (core_createLobbySearch o))
  | searchSetLobbyId handle o => exact .none (hcalm.of_core (core_editSearch handle _ _ _))
  | searchSetTargetUser handle o => exact .none (hcalm.of_core (core_editSearch handle _ _ _))
  | searchSetParameter handle o => exact .none (hcalm.of_core (core_editSearch handle _ _ _))
  | searchRemoveParameter handle o => exact .none (hcalm.of_core (core_editSearch handle _ _ _))
  | searchSetMaxResults handle o => exact .none (hcalm.of_core (core_editSearch handle _ _ _))
  | searchFind handle localUserId now address =>
    exact .none (calm_searchFind hlosses hsent handle localUserId now address)
  | searchCopyResult handle lobbyIndex =>
    exact .none (hcalm.of_core (core_searchCopyResult handle lobbyIndex))
  | searchRelease handle => exact .none (hcalm.of_core rfl)
  | copyLobbyDetailsHandle lobbyId =>
    exact .none (hcalm.of_core (core_copyLobbyDetailsHandle lobbyId))
  | detailsRelease handle => exact .none (hcalm.of_core rfl)
  | modificationSetBucketId handle _ => exact .none (hcalm.of_core (core_modify handle _))
  | modificationSetPermissionLevel handle _ => exact .none (hcalm.of_core (core_modify handle _))
  | modificationSetMaxMembers handle _ => exact .none (hcalm.of_core (core_modify handle _))
  | modificationSetInvitesAllowed handle _ => exact .none (hcalm.of_core (core_modify handle _))
  | modificationSetAllowedPlatformIds handle => exact .none (hcalm.of_core (core_modify handle _))
  | modificationAddAttribute handle _ => exact .none (hcalm.of_core (core_modify handle _))
  | modificationRemoveAttribute handle _ => exact .none (hcalm.of_core (core_modify handle _))
  | modificationAddMemberAttribute handle _ => exact .none (hcalm.of_core (core_modify handle _))
  | modificationRemoveMemberAttribute handle _ => exact .none (hcalm.of_core (core_modify handle _))
  | modificationRelease handle => exact .none (hcalm.of_core rfl)

theorem calm_onJoinRequest {source : Bytes} (hne : source ≠ []) (request : LobbyJoinRequest) :
    Calm s.mesh.peers (s.onJoinRequest source request) := by
  have hcalm := calm_of_flushed hlosses hsent
  rw [onJoinRequest]
  split
  · exact hcalm
  · rename_i entry hentry
    split
    · exact hcalm
    · rename_i hhosting
      have hnamed := (h.decent.fits request.lobbyId entry hentry).fits.named
      dsimp only
      split
      · refine calm_tellAfter h hlosses hsent hentry (by simpa using hhosting) ?_ ?_ source ?_
        · rw [Lobby.letIn]
          split
          · exact hnamed
          · simpa [LobbyInfos.roster] using ⟨by simpa [LobbyInfos.roster] using hnamed, hne⟩
        · rw [Lobby.letIn]
          split <;> rfl
        · exact fun _ ↦ rfl
      · exact hcalm.sendTo source fun _ ↦ rfl

theorem calm_onLeave (source : Bytes) (notice : LobbyMemberUpdate) :
    Calm s.mesh.peers (s.onLeave source notice) := by
  have hcalm := calm_of_flushed hlosses hsent
  rw [onLeave]
  split
  · exact hcalm
  · rename_i entry hentry
    split
    · exact hcalm
    · rename_i hmay
      rw [not_or, not_not] at hmay
      have hnamed := (h.decent.fits notice.lobbyId entry hentry).fits.named
      exact calm_tell h hlosses hsent hentry hmay.1 (not_mem_roster_dropMember hnamed source) rfl

theorem calm_onMemberUpdate (source : Bytes) (notice : LobbyMemberUpdate) :
    Calm s.mesh.peers (s.onMemberUpdate source notice) := by
  have hcalm := calm_of_flushed hlosses hsent
  rw [onMemberUpdate]
  split
  · exact hcalm
  · rename_i entry hentry
    split
    · exact hcalm
    · rename_i hmay
      rw [not_or, not_not] at hmay
      have hnamed := (h.decent.fits notice.lobbyId entry hentry).fits.named
      have hroster : (entry.infos.editMember source fun member ↦
          { member with attributes := notice.member.attributes }).roster = entry.infos.roster :=
        LobbyInfos.roster_editMember entry.infos source fun _ ↦ rfl
      exact calm_tell h hlosses hsent hentry hmay.1 (hroster ▸ hnamed) rfl

theorem calm_receive {message : NetEnvelope}
    (htag : message.typeTag ≠ MessageType.peerDisconnected.tag) :
    Calm s.mesh.peers (s.onNetworkMessage message) := by
  have hcalm := calm_of_flushed hlosses hsent
  rw [onNetworkMessage]
  split
  · exact hcalm
  · rename_i hsource
    rw [not_or] at hsource
    split
    · exact hcalm
    · split
      · exact hcalm
      · rename_i msg _
        cases msg with
        | search query => exact hcalm.sendTo _ fun _ ↦ rfl
        | searchResponse answer => exact hcalm.of_core (core_onSearchResponse _ answer)
        | joinRequest request => exact calm_onJoinRequest h hlosses hsent hsource.1 request
        | joinResponse answer => exact hcalm.of_mesh (s.onJoinResponse_mesh message.sourceId answer)
        | infos infos =>
          have hmesh : (s.onInfos message.sourceId infos).mesh = s.mesh := by
            rw [onInfos]
            split
            · rfl
            · split <;> rfl
          exact hcalm.of_mesh hmesh
        | leave notice => exact calm_onLeave h hlosses hsent _ notice
        | memberUpdate notice => exact calm_onMemberUpdate h hlosses hsent _ notice
        | destroy notice =>
          have hmesh : (s.onDestroy message.sourceId notice).mesh = s.mesh := by
            rw [onDestroy]
            split
            · rfl
            · split <;> rfl
          exact hcalm.of_mesh hmesh

omit h in
theorem calm_collect (address : ResultAddress) (now : Nat) :
    Calm s.mesh.peers (s.collect address now) := by
  have hcalm := calm_of_flushed hlosses hsent
  have hfree (ready : Bool) (s' : Lobbies) (hs' : s'.mesh = s.mesh) :
      Calm s.mesh.peers (if ready then s'.freeCallback address else s') := by
    split
    · exact hcalm.of_mesh hs'
    · exact hcalm.of_mesh hs'
  rw [collect]
  split
  · exact hcalm.of_core rfl
  · dsimp only
    refine hfree _ _ ?_
    rw [runCallbacks]
    split
    · rw [settleFind]
      split
      · rfl
      · split <;> rfl
    · split
      · split
        · rfl
        · rw [settleJoin]
          split
          · split
            · rfl
            · split <;> rfl
          · rfl
      · rfl

/-- A step on which no peer is lost, and after which nobody is to be. -/
def Input.losesNobody : Input → Bool
  | .receive message => message.typeTag ≠ MessageType.peerDisconnected.tag
  | .around peers _ losses => peers.Nodup ∧ losses = []
  | _ => true

/-- **What a step sends for a host**, once peers have come and gone. -/
theorem hands_of_step (hpeers : s.mesh.peers.Nodup) (hkeeps : i.losesNobody = true)
    (hmoves : i.moves = false) (hstep : step s i = some s') : Hands s s' := by
  cases i with
  | call c =>
    rw [step] at hstep
    split at hstep
    · obtain rfl := Option.some.inj hstep
      exact hands_call h hlosses hsent hpeers c
    · cases hstep
  | receive message =>
    obtain rfl := Option.some.inj hstep
    exact .none (calm_receive h hlosses hsent (of_decide_eq_true hkeeps))
  | collect address now =>
    obtain rfl := Option.some.inj hstep
    exact .none (calm_collect hlosses hsent address now)
  | around => cases hmoves

end Steps

/-! ## Who hosts after a step -/

/-- The lobby a step creates. -/
def opens (s : Lobbies) : Input → Option Bytes
  | .call (.createLobby o random) =>
    if (s.createLobby o random).1.resultCode = .success then some (requestedId o random) else none
  | _ => none

theorem Hands.peers_eq (h : Hands s s') : s'.mesh.peers = s.mesh.peers := by
  cases h with
  | none h => exact h.peers
  | passed lobbyId heir hlosses hpeers => exact hpeers

theorem Hands.losses_eq (h : Hands s s') : s'.mesh.losses = [] := by
  cases h with
  | none h => exact h.losses
  | passed lobbyId heir hlosses => exact hlosses

theorem createLobby_failed {o : CreateLobbyOptions} {random : Option Bytes}
    (h : (s.createLobby o random).1.resultCode ≠ .success) : (s.createLobby o random).2 = s := by
  rw [createLobby] at h ⊢
  split
  · rfl
  · split
    · rfl
    · dsimp only
      split
      · rfl
      · split
        · rfl
        · simp_all

/-- A host was one before, or created the lobby, or was sent it. -/
theorem hosted_of_step (hkeeps : i.losesNobody = true) (hpeers : s'.mesh.peers = s.mesh.peers)
    (hstep : step s i = some s') (hhosts : (s'.hosted lobbyId).isSome = true) :
    (s.hosted lobbyId).isSome = true ∨ s.opens i = some lobbyId ∨
      ∃ message infos, i = .receive message ∧ Reads s message (.infos infos) ∧
        infos.lobbyId = lobbyId ∧ infos.ownerId = s.productUserId := by
  obtain ⟨entry', hentry'⟩ := Option.isSome_iff_exists.1 hhosts
  obtain ⟨hlookup', hhosting⟩ := hosted_eq_some.1 hentry'
  obtain ⟨edited, gone, hedit, hgone, hlookup⟩ := (tableStep_of_step hstep).entries lobbyId
  -- Nobody is lost.
  have hnobody : gone = [] := by
    refine List.eq_nil_iff_forall_not_mem.2 fun peer hpeer ↦ ?_
    rcases (hgone peer hpeer).1 with ⟨message, rfl, htag, -⟩ | ⟨hin, hout⟩
    · exact of_decide_eq_true hkeeps htag
    · exact hout (hpeers ▸ hin)
  rw [hnobody, Lobby.outliving_nil, hlookup'] at hlookup
  subst hlookup
  have hsame (entry : Lobby) (hentry : s.lobbies[lobbyId]? = some entry)
      (hwas : entry.localState = .hosting) : (s.hosted lobbyId).isSome = true := by
    rw [Option.isSome_iff_exists]
    exact ⟨entry, hosted_eq_some.2 ⟨hentry, hwas⟩⟩
  generalize hbefore : s.lobbies[lobbyId]? = before at hedit
  generalize hafter : some entry' = after at hedit
  cases hedit with
  | same => exact .inl (hsame entry' (hbefore.trans hafter.symm) hhosting)
  | @created o random localUser huser hmax hne =>
    refine .inr (.inl ?_)
    rw [opens, if_pos]
    by_contra hfailed
    rw [step] at hstep
    split at hstep
    · obtain rfl := Option.some.inj hstep
      rw [call, createLobby_failed hfailed, hbefore] at hlookup'
      cases hlookup'
    · cases hstep
  | departed => cases hafter
  | modified =>
    cases hafter
    exact .inl (hsame _ hbefore hhosting)
  | promoted =>
    cases hafter
    cases hhosting
  | kicked =>
    cases hafter
    exact .inl (hsame _ hbefore hhosting)
  | joining =>
    cases hafter
    cases hhosting
  | joiningById =>
    cases hafter
    cases hhosting
  | admitted hreads hwas =>
    exact .inl (hsame _ hbefore hwas)
  | accepted =>
    cases hafter
    cases hhosting
  | refused => cases hafter
  | @rewritten message infos entry hreads =>
    cases hafter
    refine .inr (.inr ⟨message, infos, rfl, hreads, rfl, ?_⟩)
    by_contra hother
    simp [hother] at hhosting
  | left hreads hwas => exact .inl (hsame _ hbefore hwas)
  | attributed hreads hwas => exact .inl (hsame _ hbefore hwas)
  | closed => cases hafter
  | expired => cases hafter

end Lobbies
end EosMesh
