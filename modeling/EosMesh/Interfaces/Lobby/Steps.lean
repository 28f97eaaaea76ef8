import EosMesh.Interfaces.Lobby.Losses
import EosMesh.Lib.Run

/-!
# What one step can do to a lobby

An instance takes calls of its game, messages of its peers and ticks; around it, peers come and go
and the next sends turn out one way or another.  `Lobbies.step` is that, for every input there is.

As in the sessions, the functions are gone through once, and `tableStep_of_step` says what a step
can make of each entry of the table: nothing, or one of the edits of `Lobbies.EntryStep`, and after
it what the peers that were lost on the way make of it.  Every invariant of the table is a case
analysis on `EntryStep`, and on `Lobby.bereaved`.

A lost peer is more to a lobby than to a session: its seat is free, and if it was the owner, the
lobby ends or is handed on, to one of the members that all the others elect as well.  And the ones
left are told, which may lose more peers.  So what is said of the peers that are lost is said in
`Interfaces.Lobby.Losses`, in any order, and used here.

* `Reads` is a message that the interface reads at all, and `Reads.onNetworkMessage` that it then
  goes to its handler.
* `EntryStep` has one case for each place of the source where an entry is written, with the guards
  that stand before it there.
* `wasLost` are the peers a step loses, and `Input.tellsGone` the one it hears is gone.
* `TableStep` puts these together; `TableStep.of_set`, `TableStep.of_waiting` and
  `TableStep.of_erase` are its shapes.
-/

set_option autoImplicit false

namespace EosMesh

open Lib
open Std (TreeMap)

namespace Lobbies

variable {s s' s'' : Lobbies}

/-! ## Steps -/

/-- Where the result of a call that stays open is allocated. -/
def Call.address? : Call → Option ResultAddress
  | .joinLobby _ _ address => some address
  | .joinLobbyById _ _ address => some address
  | .searchFind _ _ _ address => some address
  | _ => none

/-- Nothing else is at the address. -/
def freshAt (s : Lobbies) (address : ResultAddress) : Bool :=
  (s.pendingFinds[address]?).isNone ∧ (s.pendingJoins[address]?).isNone

/-- What happens to an instance. -/
inductive Input
  | call (c : Call)
  | receive (message : NetEnvelope)
  | collect (address : ResultAddress) (now : Nat)
  /-- Around it: whom it can reach, whom Connect has met, and how the next sends turn out. -/
  | around (peers known : List Bytes) (losses : List (List Bytes))
  deriving DecidableEq, Repr

/-- One thing that happens to an instance. -/
def step (s : Lobbies) : Input → Option Lobbies
  | .call c => if c.address?.all s.freshAt then some (s.call c) else none
  | .receive message => some (s.onNetworkMessage message)
  | .collect address now => some (s.collect address now)
  | .around peers known losses => some { s with known, mesh := { peers, losses, sent := [] } }

/-- A message of another peer that the interface reads as `msg`. -/
structure Reads (s : Lobbies) (message : NetEnvelope) (msg : LobbyMessage) : Prop where
  named : message.sourceId ≠ []
  other : message.sourceId ≠ s.productUserId
  game : message.gameId = s.productId
  read : LobbyMessage.read message.typeTag message.payload = some msg

/-- What a step can make of the entry called `lobbyId`, but for the peers it loses. -/
inductive EntryStep (s : Lobbies) : Input → Bytes → Option Lobby → Option Lobby → Prop
  | same {i : Input} {lobbyId : Bytes} {entry : Option Lobby} : EntryStep s i lobbyId entry entry
  | created {o : CreateLobbyOptions} {random : Option Bytes} {localUser : Bytes}
      (huser : o.localUserId = some localUser) (hmax : o.maxLobbyMembers ≠ 0)
      (hne : requestedId o random ≠ []) :
      EntryStep s (.call (.createLobby o random)) (requestedId o random) none
        (some (created o (requestedId o random) localUser))
  | departed {c : Call} {o : LobbyIdOptions} {lobbyId : Bytes} {entry : Lobby}
      (hcall : c = .destroyLobby o ∨ c = .leaveLobby o) (hid : o.lobbyId = some lobbyId) :
      EntryStep s (.call c) lobbyId (some entry) none
  | modified {o : UpdateLobbyOptions} {object : LobbyModificationObject} {entry : Lobby}
      (hobject : s.modifications.find o.lobbyModificationHandle = some object) :
      EntryStep s (.call (.updateLobby o)) object.lobbyId (some entry)
        (some (Lobby.modified entry s.productUserId object))
  | promoted {o : LobbyMemberOptions} {lobbyId target : Bytes} {entry : Lobby}
      (hid : o.lobbyId = some lobbyId) (htarget : o.targetUserId = some target)
      (hhosting : entry.localState = .hosting)
      (hmember : (entry.infos.findMember target).isSome = true) :
      EntryStep s (.call (.promoteMember o)) lobbyId (some entry)
        (some { entry with infos := { entry.infos with ownerId := target }, localState := .joined })
  | kicked {o : LobbyMemberOptions} {lobbyId target : Bytes} {entry : Lobby}
      (hid : o.lobbyId = some lobbyId) (htarget : o.targetUserId = some target)
      (hhosting : entry.localState = .hosting) (howner : target ≠ entry.infos.ownerId)
      (hmember : (entry.infos.findMember target).isSome = true) :
      EntryStep s (.call (.kickMember o)) lobbyId (some entry)
        (some { entry with infos := (entry.infos.dropMember target).counted })
  | joining {o : JoinLobbyOptions} {now : Nat} {address : ResultAddress} {localUser : Bytes}
      {found : LobbyInfos} (hfound : s.details.find o.lobbyDetailsHandle = some found)
      (huser : o.localUserId = some localUser) (hknown : found.ownerId ∈ s.known) :
      EntryStep s (.call (.joinLobby o now address)) found.lobbyId none
        (some { infos := found, localUser, localState := .joining })
  | joiningById {o : LobbyIdOptions} {now : Nat} {address : ResultAddress}
      {lobbyId localUser : Bytes} (hid : o.lobbyId = some lobbyId)
      (huser : o.localUserId = some localUser) :
      EntryStep s (.call (.joinLobbyById o now address)) lobbyId none
        (some { infos := { lobbyId }, localUser, localState := .joining })
  | admitted {message : NetEnvelope} {request : LobbyJoinRequest} {entry : Lobby}
      (hreads : Reads s message (.joinRequest request)) (hhosting : entry.localState = .hosting)
      (hknown : message.sourceId ∈ s.known)
      (hnew : entry.infos.findMember message.sourceId = none)
      (hroom : entry.infos.members.length < entry.infos.maxMembers.toNat) :
      EntryStep s (.receive message) request.lobbyId (some entry)
        (some { entry with infos := LobbyInfos.counted { entry.infos with
          members := entry.infos.members ++
            [{ request.member with userId := message.sourceId }] } })
  | accepted {message : NetEnvelope} {answer : LobbyJoinResponse} {entry : Lobby}
      (hreads : Reads s message (.joinResponse answer))
      (howner : entry.infos.ownerId = [] ∨ entry.infos.ownerId = message.sourceId)
      (hplayer : answer.playerId = s.productUserId)
      (hwaiting : (s.waitingFor answer.lobbyId).isSome = true)
      (hreason : answer.reason = ResultCode.success) :
      EntryStep s (.receive message) answer.lobbyId (some entry)
        (some { entry with
          infos := { entry.infos with ownerId := message.sourceId }, localState := .joined })
  | refused {message : NetEnvelope} {answer : LobbyJoinResponse} {entry : Lobby}
      (hreads : Reads s message (.joinResponse answer))
      (howner : entry.infos.ownerId = [] ∨ entry.infos.ownerId = message.sourceId)
      (hwaiting : (s.waitingFor answer.lobbyId).isSome = true)
      (hreason : answer.reason ≠ ResultCode.success) (hjoining : entry.localState = .joining)
      (hplayer : answer.playerId = s.productUserId) :
      EntryStep s (.receive message) answer.lobbyId (some entry) none
  | rewritten {message : NetEnvelope} {infos : LobbyInfos} {entry : Lobby}
      (hreads : Reads s message (.infos infos)) (hcopy : entry.localState ≠ .hosting)
      (howner : message.sourceId = entry.infos.ownerId) :
      EntryStep s (.receive message) infos.lobbyId (some entry)
        (some { entry with
          infos, localState := if infos.ownerId = s.productUserId then .hosting else .joined })
  | left {message : NetEnvelope} {notice : LobbyMemberUpdate} {entry : Lobby}
      (hreads : Reads s message (.leave notice)) (hhosting : entry.localState = .hosting)
      (hmember : (entry.infos.findMember message.sourceId).isSome = true) :
      EntryStep s (.receive message) notice.lobbyId (some entry)
        (some { entry with infos := (entry.infos.dropMember message.sourceId).counted })
  | attributed {message : NetEnvelope} {notice : LobbyMemberUpdate} {entry : Lobby}
      (hreads : Reads s message (.memberUpdate notice)) (hhosting : entry.localState = .hosting)
      (hmember : (entry.infos.findMember message.sourceId).isSome = true) :
      EntryStep s (.receive message) notice.lobbyId (some entry)
        (some { entry with infos := entry.infos.editMember message.sourceId fun member ↦
          { member with attributes := notice.member.attributes } })
  | closed {message : NetEnvelope} {notice : LobbyDestroy} {entry : Lobby}
      (hreads : Reads s message (.destroy notice)) (hcopy : entry.localState ≠ .hosting)
      (howner : entry.infos.ownerId = message.sourceId) :
      EntryStep s (.receive message) notice.lobbyId (some entry) none
  | expired {address : ResultAddress} {now : Nat} {waiting : PendingLobbyJoin} {entry : Lobby}
      (hwaiting : s.pendingJoins[address]? = some waiting) (hlate : now > waiting.deadline)
      (hjoining : entry.localState = .joining) :
      EntryStep s (.collect address now) waiting.lobbyId (some entry) none

/-! ## What each of them makes of the table -/

/-- The peer a step hears is gone. -/
def Input.tellsGone (i : Input) (peer : Bytes) : Prop := ∃ message, i = .receive message ∧
  message.typeTag = MessageType.peerDisconnected.tag ∧ message.sourceId = peer

/-- A message about a lobby does not tell that a peer is gone. -/
theorem Reads.not_tellsGone {message : NetEnvelope} {msg : LobbyMessage}
    (h : Reads s message msg) (peer : Bytes) : ¬ (Input.receive message).tellsGone peer := by
  rintro ⟨_, hmessage, htag, -⟩
  cases hmessage
  have hread := h.read
  rw [htag] at hread
  simp [LobbyMessage.read, MessageType.tag] at hread

/-- A message that is read goes to its handler. -/
theorem Reads.onNetworkMessage {message : NetEnvelope} {msg : LobbyMessage}
    (h : Reads s message msg) : s.onNetworkMessage message = s.onMessage message.sourceId msg := by
  have htag : message.typeTag ≠ MessageType.peerDisconnected.tag := fun htag ↦
    h.not_tellsGone message.sourceId ⟨message, rfl, htag, rfl⟩
  rw [Lobbies.onNetworkMessage, if_neg (by simp [h.named, h.other]), if_neg htag,
    if_neg (not_not.2 h.game), h.read]

/-- The peers a step loses: those its sends fail to reach, and the one it hears is gone. -/
def wasLost (s : Lobbies) (i : Input) (s' : Lobbies) (peer : Bytes) : Prop :=
  i.tellsGone peer ∨ peer ∈ s.mesh.peers ∧ peer ∉ s'.mesh.peers

theorem wasLost.of_mesh {i : Input} {peer : Bytes} (hmesh : s''.mesh = s'.mesh)
    (h : wasLost s i s' peer) : wasLost s i s'' peer := by
  rw [wasLost, hmesh]
  exact h

/-- The peers a step lets us reach. -/
def Input.brings : Input → List Bytes
  | .around peers _ _ => peers
  | _ => []

/-- Peers come and go around the instance. -/
def Input.moves : Input → Bool
  | .around _ _ _ => true
  | _ => false

/-- What a step makes of an instance: every entry of the table went through one of its edits, and
through the loss of some peers, among them all that its sends lost. -/
structure TableStep (s : Lobbies) (i : Input) (s' : Lobbies) : Prop where
  observes : ∀ lobbyId : Bytes, ∃ edited gone, EntryStep s i lobbyId s.lobbies[lobbyId]? edited ∧
    (∀ peer ∈ gone, wasLost s i s' peer ∧ peer ≠ [] ∧ peer ≠ s.productUserId) ∧
    (i.moves = false → ∀ peer ∈ s.mesh.peers, peer ∉ s'.mesh.peers → peer ≠ [] →
      peer ≠ s.productUserId → peer ∈ gone) ∧
    s'.lobbies[lobbyId]? = Lobby.outliving s.productUserId gone edited
  self : s'.productUserId = s.productUserId
  peers : ∀ peer ∈ s'.mesh.peers, peer ∈ s.mesh.peers ∨ peer ∈ i.brings

theorem TableStep.entries {i : Input} (h : TableStep s i s') (lobbyId : Bytes) :
    ∃ edited gone, EntryStep s i lobbyId s.lobbies[lobbyId]? edited ∧
      (∀ peer ∈ gone, wasLost s i s' peer ∧ peer ≠ [] ∧ peer ≠ s.productUserId) ∧
        s'.lobbies[lobbyId]? = Lobby.outliving s.productUserId gone edited := by
  obtain ⟨edited, gone, hedit, hgone, -, hlookup⟩ := h.observes lobbyId
  exact ⟨edited, gone, hedit, hgone, hlookup⟩

/-- The table, the mesh, and who we are. -/
def core (s : Lobbies) : Lobbies :=
  { productUserId := s.productUserId, productId := s.productId, known := s.known, mesh := s.mesh
    lobbies := s.lobbies }

theorem core_eq_iff : s'.core = s.core ↔ s'.productUserId = s.productUserId ∧
    s'.productId = s.productId ∧ s'.known = s.known ∧ s'.mesh = s.mesh ∧
    s'.lobbies = s.lobbies := by
  simp [core]

variable {i : Input} {lobbyId : Bytes}

theorem TableStep.of_lost (h : Lost i.tellsGone s s') (hs'' : s''.core = s'.core) :
    TableStep s i s'' := by
  obtain ⟨hself, -, -, hmesh, hlobbies⟩ := core_eq_iff.1 hs''
  refine ⟨fun lobbyId ↦ ?_, hself.trans h.self,
    fun peer hpeer ↦ .inl (h.peers.subset (hmesh ▸ hpeer))⟩
  obtain ⟨gone, hgone, hall, hlookup⟩ := h.observes lobbyId
  exact ⟨_, gone, .same, fun p hp ↦ (hgone p hp).imp_left (.of_mesh hmesh),
    fun _ p hin hout ↦ hall p (.inr ⟨hin, hmesh ▸ hout⟩), by rw [hlobbies, hlookup]⟩

theorem TableStep.of_core_eq (h : s'.core = s.core) : TableStep s i s' :=
  .of_lost (.refl s) h

/-- One entry is written, and then some peers are lost. -/
theorem TableStep.of_set {old : Option Lobby} {entry : Lobby} (hold : s.lobbies[lobbyId]? = old)
    (hentry : EntryStep s i lobbyId old (some entry))
    (h : Lost i.tellsGone (s.setLobby lobbyId entry) s') (hs'' : s''.core = s'.core) :
    TableStep s i s'' := by
  obtain ⟨hself, -, -, hmesh, hlobbies⟩ := core_eq_iff.1 hs''
  refine ⟨fun id ↦ ?_, hself.trans h.self, fun peer hpeer ↦ .inl (h.peers.subset (hmesh ▸ hpeer))⟩
  obtain ⟨gone, hgone, hall, hlookup⟩ := h.observes id
  replace hgone : ∀ p ∈ gone, wasLost s i s'' p ∧ p ≠ [] ∧ p ≠ s.productUserId := fun p hp ↦
    (hgone p hp).imp_left (.of_mesh hmesh)
  replace hall : i.moves = false → ∀ p ∈ s.mesh.peers, p ∉ s''.mesh.peers → p ≠ [] →
      p ≠ s.productUserId → p ∈ gone := fun _ p hin hout ↦ hall p (.inr ⟨hin, hmesh ▸ hout⟩)
  rw [setLobby, lookup_insert] at hlookup
  by_cases hid : lobbyId = id
  · subst hid
    rw [if_pos rfl] at hlookup
    exact ⟨_, gone, hold ▸ hentry, hgone, hall, by rw [hlobbies, hlookup]⟩
  · rw [if_neg hid] at hlookup
    exact ⟨_, gone, .same, hgone, hall, by rw [hlobbies, hlookup]⟩

/-- The same, with a join that waits besides. -/
theorem TableStep.of_waiting (now : Nat) (address : ResultAddress) {old : Option Lobby}
    {entry : Lobby} (hold : s.lobbies[lobbyId]? = old)
    (hentry : EntryStep s i lobbyId old (some entry))
    (h : Lost i.tellsGone (s.awaitVerdict lobbyId entry now address) s') : TableStep s i s' := by
  have hset : Lost i.tellsGone (s.setLobby lobbyId entry)
      { s' with pendingJoins := s.pendingJoins } := by
    refine ⟨h.observes, ?_, h.peers⟩
    rw [h.rest]
    rfl
  exact .of_set hold hentry hset rfl

/-- Some peers are lost while one entry is about to go, and then it goes. -/
theorem TableStep.of_erase {old : Option Lobby} (hold : s.lobbies[lobbyId]? = old)
    (hentry : EntryStep s i lobbyId old none) {lobbies : TreeMap Bytes Lobby}
    (hsame : ∀ id : Bytes, id ≠ lobbyId → lobbies[id]? = s.lobbies[id]?)
    (h : Lost i.tellsGone { s with lobbies } s') (hs'' : s''.core = (s'.eraseLobby lobbyId).core) :
    TableStep s i s'' := by
  obtain ⟨hself, -, -, hmesh, hlobbies⟩ := core_eq_iff.1 hs''
  refine ⟨fun id ↦ ?_, hself.trans h.self, fun peer hpeer ↦ .inl (h.peers.subset (hmesh ▸ hpeer))⟩
  obtain ⟨gone, hgone, hall, hlookup⟩ := h.observes id
  replace hgone : ∀ p ∈ gone, wasLost s i s'' p ∧ p ≠ [] ∧ p ≠ s.productUserId := fun p hp ↦
    (hgone p hp).imp_left (.of_mesh hmesh)
  replace hall : i.moves = false → ∀ p ∈ s.mesh.peers, p ∉ s''.mesh.peers → p ≠ [] →
      p ≠ s.productUserId → p ∈ gone := fun _ p hin hout ↦ hall p (.inr ⟨hin, hmesh ▸ hout⟩)
  by_cases hid : lobbyId = id
  · subst hid
    exact ⟨_, gone, hold ▸ hentry, hgone, hall,
      by rw [hlobbies, eraseLobby, lookup_erase, if_pos rfl, Lobby.outliving_none]⟩
  · rw [hsame id (Ne.symm hid)] at hlookup
    exact ⟨_, gone, .same, hgone, hall,
      by rw [hlobbies, eraseLobby, lookup_erase, if_neg hid, hlookup]⟩

/-! ### Calls -/

theorem core_updateLobbyModification (o : LobbyIdOptions) :
    (s.updateLobbyModification o).2.2.core = s.core := by
  rw [updateLobbyModification]
  split
  · split <;> rfl
  · rfl

theorem core_modify (handle : GameHandle)
    (edit : LobbyModificationObject → Except ResultCode LobbyModificationObject) :
    (s.modify handle edit).2.core = s.core := by
  rw [modify]
  split
  · rfl
  · split <;> rfl

theorem core_editSearch (handle : GameHandle) (version : Int32) (given : Bool)
    (edit : LobbySearchObject → Except ResultCode LobbySearchObject) :
    (s.editSearch handle version given edit).2.core = s.core := by
  rw [editSearch]
  split
  · rfl
  · split
    · rfl
    · split
      · rfl
      · split <;> rfl

theorem core_createLobbySearch (o : Setting UInt32) :
    (s.createLobbySearch o).2.2.core = s.core := by
  rw [createLobbySearch]
  split <;> rfl

theorem core_searchCopyResult (handle : GameHandle) (lobbyIndex : UInt32) :
    (s.searchCopyResult handle lobbyIndex).2.2.core = s.core := by
  rw [searchCopyResult]
  split
  · rfl
  · split
    · rfl
    · split <;> rfl

theorem core_copyLobbyDetailsHandle (id : Option Bytes) :
    (s.copyLobbyDetailsHandle id).2.2.core = s.core := by
  cases id with
  | none => rfl
  | some lobbyId =>
    rw [copyLobbyDetailsHandle]
    split <;> rfl

theorem tableStep_createLobby (o : CreateLobbyOptions) (random : Option Bytes) :
    TableStep s (.call (.createLobby o random)) (s.createLobby o random).2 := by
  rw [createLobby]
  split
  · exact .of_core_eq rfl
  · rename_i localUser huser
    split
    · exact .of_core_eq rfl
    · rename_i hvalid
      rw [not_or] at hvalid
      dsimp only
      split
      · exact .of_core_eq rfl
      · rename_i hne
        split
        · exact .of_core_eq rfl
        · rename_i hnone
          exact .of_set (by simpa [findLobby] using hnone)
            (.created huser hvalid.2 hne) (.refl _) rfl

theorem tableStep_depart {c : Call} {o : LobbyIdOptions}
    (hcall : c = .destroyLobby o ∨ c = .leaveLobby o) : TableStep s (.call c) (s.depart o).2 := by
  rw [depart]
  split
  · rename_i lobbyId _ hid _
    split
    · exact .of_core_eq rfl
    · rename_i entry hentry
      replace hentry : s.lobbies[lobbyId]? = some entry := hentry
      have hstep : EntryStep s (.call c) lobbyId (some entry) none := .departed hcall hid
      dsimp only
      split
      · rw [closeHostedLobby]
        dsimp only
        split
        · exact .of_erase hentry hstep (fun _ _ ↦ rfl) (lost_broadcastToMembers _ _ _ _) rfl
        · refine .of_erase hentry hstep (fun id hid' ↦ ?_)
            (lost_broadcastLobby (s.setLobby lobbyId _) lobbyId) rfl
          rw [lookup_insert, if_neg (Ne.symm hid')]
      · exact .of_erase hentry hstep (fun _ _ ↦ rfl) (lost_sendTo _ _ _) rfl
  · exact .of_core_eq rfl

theorem tableStep_updateLobby (o : UpdateLobbyOptions) :
    TableStep s (.call (.updateLobby o)) (s.updateLobby o).2 := by
  rw [updateLobby]
  split
  · exact .of_core_eq rfl
  · rename_i object hobject
    split
    · exact .of_core_eq rfl
    · split
      · exact .of_core_eq rfl
      · rename_i entry hentry
        have hstep : EntryStep s (.call (.updateLobby o)) object.lobbyId (some entry)
            (some (Lobby.modified entry s.productUserId object)) := .modified hobject
        dsimp only
        split
        · exact .of_set hentry hstep (lost_broadcastLobby _ _) rfl
        · exact .of_set hentry hstep (lost_sendTo _ _ _) rfl

theorem tableStep_promoteMember (o : LobbyMemberOptions) :
    TableStep s (.call (.promoteMember o)) (s.promoteMember o).2 := by
  rw [promoteMember]
  split
  · rename_i lobbyId _ target hid _ htarget
    split
    · exact .of_core_eq rfl
    · rename_i entry hentry
      split
      · exact .of_core_eq rfl
      · rename_i hhosting
        split
        · exact .of_core_eq rfl
        · rename_i hmember
          refine .of_set hentry
            (.promoted hid htarget (by simpa using hhosting)
              (by simpa [Option.isSome_iff_ne_none] using hmember)) ?_ rfl
          exact lost_broadcastLobby _ lobbyId
  · exact .of_core_eq rfl

theorem tableStep_kickMember (o : LobbyMemberOptions) :
    TableStep s (.call (.kickMember o)) (s.kickMember o).2 := by
  rw [kickMember]
  split
  · rename_i lobbyId _ target hid _ htarget
    split
    · exact .of_core_eq rfl
    · rename_i entry hentry
      split
      · exact .of_core_eq rfl
      · rename_i hhosting
        split
        · exact .of_core_eq rfl
        · rename_i hmember
          rw [not_or] at hmember
          refine .of_set hentry
            (.kicked hid htarget (by simpa using hhosting) hmember.1
              (by simpa [Option.isSome_iff_ne_none] using hmember.2)) ?_ rfl
          exact (lost_sendTo _ _ _).trans (lost_broadcastLobby _ lobbyId)
  · exact .of_core_eq rfl

/-- A message to some peers, one after the other. -/
theorem lost_foldl_sendTo {D : Bytes → Prop} (s : Lobbies) (message : LobbyMessage)
    (peers : List Bytes) :
    Lost D s (peers.foldl (fun s peer ↦ s.sendTo peer message) s) := by
  induction peers generalizing s with
  | nil => exact .refl s
  | cons peer peers ih => exact (lost_sendTo s peer message).trans (ih _)

theorem tableStep_joinLobby (o : JoinLobbyOptions) (now : Nat) (address : ResultAddress) :
    TableStep s (.call (.joinLobby o now address)) (s.joinLobby o now address).2 := by
  rw [joinLobby]
  split
  · rename_i found localUser hfound huser
    dsimp only
    split
    · exact .of_core_eq rfl
    · rename_i hnone
      split
      · exact .of_core_eq rfl
      · rename_i hknown
        refine .of_waiting now address (by simpa [findLobby] using hnone)
          (.joining hfound huser (by simpa using hknown)) ?_
        exact lost_sendTo _ _ _
  · exact .of_core_eq rfl

theorem tableStep_joinLobbyById (o : LobbyIdOptions) (now : Nat) (address : ResultAddress) :
    TableStep s (.call (.joinLobbyById o now address)) (s.joinLobbyById o now address).2 := by
  rw [joinLobbyById]
  split
  · rename_i lobbyId localUser hid huser
    split
    · exact .of_core_eq rfl
    · rename_i hnone
      refine .of_waiting now address (by simpa [findLobby] using hnone) (.joiningById hid huser) ?_
      exact lost_foldl_sendTo _ _ _
  · exact .of_core_eq rfl

theorem tableStep_searchFind (handle : GameHandle) (localUserId : Option Bytes) (now : Nat)
    (address : ResultAddress) : TableStep s i (s.searchFind handle localUserId now address).2 := by
  unfold searchFind
  split
  · split
    · exact .of_core_eq rfl
    · split
      · exact .of_core_eq rfl
      · exact .of_lost (lost_foldl_sendTo _ _ _) rfl
  · exact .of_core_eq rfl

theorem tableStep_call (c : Call) : TableStep s (.call c) (s.call c) := by
  cases c with
  | createLobby o random => exact tableStep_createLobby o random
  | destroyLobby o => exact tableStep_depart (.inl rfl)
  | leaveLobby o => exact tableStep_depart (.inr rfl)
  | updateLobbyModification o => exact .of_core_eq (core_updateLobbyModification o)
  | updateLobby o => exact tableStep_updateLobby o
  | promoteMember o => exact tableStep_promoteMember o
  | kickMember o => exact tableStep_kickMember o
  | joinLobby o now address => exact tableStep_joinLobby o now address
  | joinLobbyById o now address => exact tableStep_joinLobbyById o now address
  | createLobbySearch o => exact .of_core_eq (core_createLobbySearch o)
  | searchSetLobbyId h o => exact .of_core_eq (core_editSearch h _ _ _)
  | searchSetTargetUser h o => exact .of_core_eq (core_editSearch h _ _ _)
  | searchSetParameter h o => exact .of_core_eq (core_editSearch h _ _ _)
  | searchRemoveParameter h o => exact .of_core_eq (core_editSearch h _ _ _)
  | searchSetMaxResults h o => exact .of_core_eq (core_editSearch h _ _ _)
  | searchFind h localUserId now address => exact tableStep_searchFind h localUserId now address
  | searchCopyResult h lobbyIndex => exact .of_core_eq (core_searchCopyResult h lobbyIndex)
  | searchRelease h => exact .of_core_eq rfl
  | copyLobbyDetailsHandle id => exact .of_core_eq (core_copyLobbyDetailsHandle id)
  | detailsRelease h => exact .of_core_eq rfl
  | modificationSetBucketId h _ => exact .of_core_eq (core_modify h _)
  | modificationSetPermissionLevel h _ => exact .of_core_eq (core_modify h _)
  | modificationSetMaxMembers h _ => exact .of_core_eq (core_modify h _)
  | modificationSetInvitesAllowed h _ => exact .of_core_eq (core_modify h _)
  | modificationSetAllowedPlatformIds h => exact .of_core_eq (core_modify h _)
  | modificationAddAttribute h _ => exact .of_core_eq (core_modify h _)
  | modificationRemoveAttribute h _ => exact .of_core_eq (core_modify h _)
  | modificationAddMemberAttribute h _ => exact .of_core_eq (core_modify h _)
  | modificationRemoveMemberAttribute h _ => exact .of_core_eq (core_modify h _)
  | modificationRelease h => exact .of_core_eq rfl

/-! ### Messages -/

variable {message : NetEnvelope}

theorem core_takeAnswer (handle : GameHandle) (source : Bytes) (answer : LobbySearchResponse) :
    (s.takeAnswer handle source answer).core = s.core := by
  rw [takeAnswer]
  split
  · rfl
  · split <;> rfl

theorem core_onSearchResponse (source : Bytes) (answer : LobbySearchResponse) :
    (s.onSearchResponse source answer).core = s.core := by
  have hall (waiting : List (ResultAddress × GameHandle)) (s : Lobbies) :
      (waiting.foldl (fun s p ↦ s.takeAnswer p.2 source answer) s).core = s.core := by
    induction waiting generalizing s with
    | nil => rfl
    | cons p waiting ih => rw [List.foldl_cons, ih, core_takeAnswer]
  exact hall _ _

/-- Whom a host lets in. -/
theorem joinVerdict_success {source : Bytes} {byId : Bool} {entry : Lobby}
    (h : s.joinVerdict source byId entry = ResultCode.success) : source ∈ s.known ∧
      ((entry.infos.findMember source).isSome = true ∨
        entry.infos.members.length < entry.infos.maxMembers.toNat) := by
  rw [joinVerdict] at h
  split at h
  · simp [ResultCode.lobbyNotOwner, ResultCode.success] at h
  · rename_i hknown
    refine ⟨by simpa using hknown, ?_⟩
    split at h
    · simp [ResultCode.lobbyNotAllowed, ResultCode.success] at h
    · split at h
      · rename_i hin
        exact .inl hin
      · split at h
        · simp [ResultCode.lobbyTooManyPlayers, ResultCode.success] at h
        · exact .inr (by omega)

theorem tableStep_onJoinRequest {request : LobbyJoinRequest}
    (hreads : Reads s message (.joinRequest request)) :
    TableStep s (.receive message) (s.onJoinRequest message.sourceId request) := by
  rw [onJoinRequest]
  split
  · exact .of_core_eq rfl
  · rename_i entry hentry
    replace hentry : s.lobbies[request.lobbyId]? = some entry := hentry
    split
    · exact .of_core_eq rfl
    · rename_i hhosting
      dsimp only
      split
      · rename_i hverdict
        obtain ⟨hknown, hroom⟩ := joinVerdict_success hverdict
        refine .of_set hentry ?_ ((lost_sendTo _ _ _).trans (lost_broadcastLobby _ _)) rfl
        rw [Lobby.letIn]
        by_cases hmember : (entry.infos.findMember message.sourceId).isSome = true
        · rw [if_pos hmember]
          exact .same
        · rw [if_neg hmember]
          exact .admitted hreads (by simpa using hhosting) hknown (by simpa using hmember)
            (hroom.resolve_left hmember)
      · exact .of_lost (lost_sendTo _ _ _) rfl

theorem tableStep_onJoinResponse {answer : LobbyJoinResponse}
    (hreads : Reads s message (.joinResponse answer)) :
    TableStep s (.receive message) (s.onJoinResponse message.sourceId answer) := by
  rw [onJoinResponse]
  split
  · exact .of_core_eq rfl
  · rename_i entry hentry
    replace hentry : s.lobbies[answer.lobbyId]? = some entry := hentry
    split
    · exact .of_core_eq rfl
    · rename_i howner
      replace howner : entry.infos.ownerId = [] ∨ entry.infos.ownerId = message.sourceId := by
        simpa [or_iff_not_imp_left] using howner
      split
      · exact .of_core_eq rfl
      · rename_i hplayer
        split
        · exact .of_core_eq rfl
        · rename_i address waiting hwaiting
          have hsome : (s.waitingFor answer.lobbyId).isSome = true := by rw [hwaiting]; rfl
          dsimp only
          split
          · rename_i hreason
            exact .of_set hentry (.accepted hreads howner (by simpa using hplayer) hsome hreason)
              (.refl _) rfl
          · rename_i hreason
            split
            · rename_i hjoining
              exact .of_erase hentry
                (.refused hreads howner hsome hreason hjoining (by simpa using hplayer))
                (fun _ _ ↦ rfl) (.refl _) rfl
            · exact .of_core_eq rfl

theorem tableStep_onInfos {infos : LobbyInfos} (hreads : Reads s message (.infos infos)) :
    TableStep s (.receive message) (s.onInfos message.sourceId infos) := by
  rw [onInfos]
  split
  · exact .of_core_eq rfl
  · rename_i entry hentry
    split
    · exact .of_core_eq rfl
    · rename_i hmay
      rw [not_or, not_not] at hmay
      exact .of_set hentry (.rewritten hreads hmay.1 hmay.2) (.refl _) rfl

/-- What a host does about one member: an edit, and word of it to the rest. -/
theorem tableStep_onMember {entry edited : Lobby} (hentry : s.lobbies[lobbyId]? = some entry)
    (hedit : EntryStep s i lobbyId (some entry) (some edited)) :
    TableStep s i ((s.setLobby lobbyId edited).broadcastLobby lobbyId) :=
  .of_set hentry hedit (lost_broadcastLobby _ _) rfl

theorem tableStep_onLeave {notice : LobbyMemberUpdate} (hreads : Reads s message (.leave notice)) :
    TableStep s (.receive message) (s.onLeave message.sourceId notice) := by
  rw [onLeave]
  split
  · exact .of_core_eq rfl
  · rename_i entry hentry
    split
    · exact .of_core_eq rfl
    · rename_i hmay
      rw [not_or] at hmay
      exact tableStep_onMember hentry
        (.left hreads (by simpa using hmay.1) (by simpa [Option.isSome_iff_ne_none] using hmay.2))

theorem tableStep_onMemberUpdate {notice : LobbyMemberUpdate}
    (hreads : Reads s message (.memberUpdate notice)) :
    TableStep s (.receive message) (s.onMemberUpdate message.sourceId notice) := by
  rw [onMemberUpdate]
  split
  · exact .of_core_eq rfl
  · rename_i entry hentry
    split
    · exact .of_core_eq rfl
    · rename_i hmay
      rw [not_or] at hmay
      exact tableStep_onMember hentry
        (.attributed hreads (by simpa using hmay.1)
          (by simpa [Option.isSome_iff_ne_none] using hmay.2))

theorem tableStep_onDestroy {notice : LobbyDestroy} (hreads : Reads s message (.destroy notice)) :
    TableStep s (.receive message) (s.onDestroy message.sourceId notice) := by
  rw [onDestroy]
  split
  · exact .of_core_eq rfl
  · rename_i entry hentry
    split
    · exact .of_core_eq rfl
    · rename_i hmay
      rw [not_or, not_not] at hmay
      exact .of_erase hentry (.closed hreads hmay.1 hmay.2) (fun _ _ ↦ rfl) (.refl _) rfl

theorem tableStep_receive (message : NetEnvelope) :
    TableStep s (.receive message) (s.onNetworkMessage message) := by
  rw [onNetworkMessage]
  split
  · exact .of_core_eq rfl
  · rename_i hsource
    rw [not_or] at hsource
    split
    · rename_i htag
      exact .of_lost (lost_onPeerDisconnectedWith lost_lose ⟨message, rfl, htag, rfl⟩)
        rfl
    · split
      · exact .of_core_eq rfl
      · rename_i hgame
        split
        · exact .of_core_eq rfl
        · rename_i msg hread
          have hreads : Reads s message msg := ⟨hsource.1, hsource.2, by simpa using hgame, hread⟩
          cases msg with
          | search query => exact .of_lost (lost_sendTo _ _ _) rfl
          | searchResponse answer => exact .of_core_eq (core_onSearchResponse _ _)
          | joinRequest request => exact tableStep_onJoinRequest hreads
          | joinResponse answer => exact tableStep_onJoinResponse hreads
          | infos infos => exact tableStep_onInfos hreads
          | leave notice => exact tableStep_onLeave hreads
          | memberUpdate notice => exact tableStep_onMemberUpdate hreads
          | destroy notice => exact tableStep_onDestroy hreads

/-! ### Ticks -/

theorem tableStep_collect (address : ResultAddress) (now : Nat) :
    TableStep s (.collect address now) (s.collect address now) := by
  have hfree (ready : Bool) (s' : Lobbies) :
      (if ready then s'.freeCallback address else s').core = s'.core := by
    split <;> rfl
  rw [collect]
  split
  · exact .of_core_eq rfl
  · dsimp only
    rw [runCallbacks]
    split
    · rw [settleFind]
      split
      · exact .of_core_eq (hfree _ _)
      · split
        · exact .of_core_eq (hfree _ _)
        · exact .of_core_eq (hfree _ _)
    · split
      · rename_i waiting hwaiting
        split
        · exact .of_core_eq (hfree _ _)
        · rw [settleJoin]
          split
          · rename_i hlate
            split
            · exact .of_core_eq (hfree _ _)
            · rename_i entry hentry
              split
              · rename_i hjoining
                exact .of_erase hentry (.expired hwaiting hlate hjoining) (fun _ _ ↦ rfl) (.refl _)
                  (hfree _ _)
              · exact .of_core_eq (hfree _ _)
          · exact .of_core_eq (hfree _ _)
      · exact .of_core_eq (hfree _ _)

/-- **What one step makes of the table.** -/
theorem tableStep_of_step (h : step s i = some s') : TableStep s i s' := by
  cases i with
  | call c =>
    rw [step] at h
    split at h
    · cases h
      exact tableStep_call c
    · cases h
  | receive message =>
    cases h
    exact tableStep_receive message
  | collect address now =>
    cases h
    exact tableStep_collect address now
  | around peers known losses =>
    cases h
    exact ⟨fun lobbyId ↦ ⟨_, [], .same, by simp, nofun, rfl⟩, rfl, fun _ hpeer ↦ .inr hpeer⟩

end Lobbies
end EosMesh
