import EosMesh.Interfaces.Lobby.Operations

/-!
# What arrives at the lobby interface

`sdk_lobby::on_network_message`, one function for each kind of message, and what a tick does with
the results that wait.

* `Lobbies.onNetworkMessage` takes an envelope as the router hands it over: its source is the peer
  whose connection it came on.  Everything else in it is the peer's word.  A message of another
  game, or one that does not read, changes nothing.
* The host answers what asks for a place, and is the only one that changes the roster; the others
  take what their owner tells them.  Whether a message is the owner's is asked of the lobby we hold.
* `Lobbies.runCallbacks` is the tick at one result: a search is over when everyone has answered or
  its time is up, and a join when the host has answered or its time is up; a join that nobody
  answered is taken off the table.  `Lobbies.collect` hands the result over and frees it.
* `Lobbies.Call` lists the calls a game makes.  `Lobbies.call`, `Lobbies.collect` and
  `Lobbies.onNetworkMessage` are all that ever happens to an instance, apart from what the mesh does
  around it.
-/

set_option autoImplicit false

namespace EosMesh

open Lib
open Std (TreeMap)

namespace Lobbies

variable (s : Lobbies)

/-! ## Searches -/

/-- Every peer answers, and only with the lobbies it hosts. -/
def onSearch (source : Bytes) (query : LobbySearch) : Lobbies :=
  s.sendTo source (.searchResponse { searchId := query.searchId, lobbies := s.hostedMatches query })

/-- The answer as one search takes it: only a peer it asked can answer it, and only with lobbies of
its own. -/
def takeAnswer (handle : GameHandle) (source : Bytes) (answer : LobbySearchResponse) : Lobbies :=
  match s.searches.find handle with
  | none => s
  | some object =>
    if ¬ object.searching ∨ object.query.searchId ≠ answer.searchId ∨
      source ∉ object.awaiting then s
    else
      let room := object.maxResults.toNat - object.results.length
      let found := (answer.lobbies.filter fun infos ↦
        infos.ownerId = source ∧ lobbyMatches infos object.query).take room
      { s with
        searches := s.searches.put handle
          { object with
            awaiting := object.awaiting.filter (· ≠ source)
            results := object.results ++ found } }

/-- An answer, for whichever of our searches it is of. -/
def onSearchResponse (source : Bytes) (answer : LobbySearchResponse) : Lobbies :=
  s.pendingFinds.toList.foldl (fun s p ↦ s.takeAnswer p.2 source answer) s

/-! ## Joins -/

/-- The host's verdict on a join. -/
def joinVerdict (source : Bytes) (byId : Bool) (entry : Lobby) : ResultCode :=
  if source ∉ s.known then .lobbyNotOwner
  else if byId ∧ ¬ entry.infos.allowJoinById then .lobbyNotAllowed
  else if (entry.infos.findMember source).isSome then .success
  else if entry.infos.members.length ≥ entry.infos.maxMembers.toNat then .lobbyTooManyPlayers
  else .success

/-- The lobby once its host let a player in: the connection decides who it is, not the payload. -/
def Lobby.letIn (entry : Lobby) (source : Bytes) (member : LobbyMember) : Lobby :=
  if (entry.infos.findMember source).isSome then entry
  else { entry with infos :=
    LobbyInfos.counted { entry.infos with
      members := entry.infos.members ++ [{ member with userId := source }] } }

/-- Only a host answers. -/
def onJoinRequest (source : Bytes) (request : LobbyJoinRequest) : Lobbies :=
  match s.findLobby request.lobbyId with
  | none => s
  | some entry =>
    if entry.localState ≠ .hosting then s
    else
      let reason := s.joinVerdict source request.byId entry
      let verdict : LobbyMessage :=
        .joinResponse { lobbyId := request.lobbyId, playerId := source, reason }
      if reason = ResultCode.success then
        ((s.setLobby request.lobbyId (Lobby.letIn entry source request.member)).sendTo source
          verdict).broadcastLobby request.lobbyId
      else s.sendTo source verdict

/-- The first result that waits for a verdict on the lobby. -/
def waitingFor (lobbyId : Bytes) : Option (ResultAddress × PendingLobbyJoin) :=
  s.pendingJoins.toList.find? fun p ↦ p.2.lobbyId = lobbyId

/-- A join by id does not yet know who hosts it, so the first peer to answer is the owner we record;
a join from details already does, and only that owner may answer. -/
def onJoinResponse (source : Bytes) (answer : LobbyJoinResponse) : Lobbies :=
  match s.findLobby answer.lobbyId with
  | none => s
  | some entry =>
    if entry.infos.ownerId ≠ [] ∧ entry.infos.ownerId ≠ source then s
    else if answer.playerId ≠ s.productUserId then s
    else match s.waitingFor answer.lobbyId with
      | none => s
      | some (address, waiting) =>
        let s := { s with
          pendingJoins := s.pendingJoins.insert address
            { waiting with resultCode := answer.reason, done := true } }
        if answer.reason = ResultCode.success then
          s.setLobby answer.lobbyId
            { entry with infos := { entry.infos with ownerId := source }, localState := .joined }
        else if entry.localState = .joining then s.eraseLobby answer.lobbyId
        else s

@[simp] theorem onJoinResponse_mesh (source : Bytes) (answer : LobbyJoinResponse) :
    (s.onJoinResponse source answer).mesh = s.mesh := by
  rw [onJoinResponse]
  split
  · rfl
  · split
    · rfl
    · split
      · rfl
      · split
        · rfl
        · dsimp only
          split
          · rfl
          · split <;> rfl

/-! ## The lobby itself -/

/-- Only the owner we know speaks for a lobby, even when it names another; from then on we host what
it hands us. -/
def onInfos (source : Bytes) (infos : LobbyInfos) : Lobbies :=
  match s.findLobby infos.lobbyId with
  | none => s
  | some entry =>
    if entry.localState = .hosting ∨ source ≠ entry.infos.ownerId then s
    else s.setLobby infos.lobbyId
      { entry with
        infos
        localState := if infos.ownerId = s.productUserId then .hosting else .joined }

/-- A member may only take itself out. -/
def onLeave (source : Bytes) (notice : LobbyMemberUpdate) : Lobbies :=
  match s.findLobby notice.lobbyId with
  | none => s
  | some entry =>
    if entry.localState ≠ .hosting ∨ (entry.infos.findMember source).isNone then s
    else (s.setLobby notice.lobbyId
      { entry with infos := (entry.infos.dropMember source).counted }).broadcastLobby notice.lobbyId

/-- A member sets only its own attributes. -/
def onMemberUpdate (source : Bytes) (notice : LobbyMemberUpdate) : Lobbies :=
  match s.findLobby notice.lobbyId with
  | none => s
  | some entry =>
    if entry.localState ≠ .hosting ∨ (entry.infos.findMember source).isNone then s
    else (s.setLobby notice.lobbyId
      { entry with infos := entry.infos.editMember source fun member ↦
          { member with attributes := notice.member.attributes } }).broadcastLobby notice.lobbyId

/-- The owner of a lobby we are in ends it. -/
def onDestroy (source : Bytes) (notice : LobbyDestroy) : Lobbies :=
  match s.findLobby notice.lobbyId with
  | none => s
  | some entry =>
    if entry.localState = .hosting ∨ entry.infos.ownerId ≠ source then s
    else s.eraseLobby notice.lobbyId

/-! ## All of them -/

/-- A message of another peer, once it is read. -/
def onMessage (source : Bytes) : LobbyMessage → Lobbies
  | .search query => s.onSearch source query
  | .searchResponse answer => s.onSearchResponse source answer
  | .joinRequest request => s.onJoinRequest source request
  | .joinResponse answer => s.onJoinResponse source answer
  | .infos infos => s.onInfos source infos
  | .leave notice => s.onLeave source notice
  | .memberUpdate notice => s.onMemberUpdate source notice
  | .destroy notice => s.onDestroy source notice

/-- A message of the mesh, as it comes. -/
def onNetworkMessage (message : NetEnvelope) : Lobbies :=
  if message.sourceId = [] ∨ message.sourceId = s.productUserId then s
  else if message.typeTag = MessageType.peerDisconnected.tag then
    s.onPeerDisconnected message.sourceId
  -- Another game's lobbies are none of ours.
  else if message.gameId ≠ s.productId then s
  else match LobbyMessage.read message.typeTag message.payload with
    | none => s
    | some msg => s.onMessage message.sourceId msg

/-- What `send_to` makes of a message. -/
def envelope (peer : Bytes) (msg : LobbyMessage) : NetEnvelope where
  typeTag := msg.type.tag
  sourceId := s.productUserId
  destId := peer
  gameId := s.productId
  payload := msg.payload

/-! ## The tick -/

/-- Whether a search that waits is over. -/
def settleFind (handle : GameHandle) (now : Nat) : Bool × Lobbies :=
  match s.searches.find handle with
  | none => (true, s)
  | some object =>
    if object.awaiting = [] ∨ now > object.deadline then
      (true, { s with searches := s.searches.put handle { object with searching := false } })
    else (false, s)

/-- Whether a join that waits is over: a lobby is not ours when its host never answered. -/
def settleJoin (waiting : PendingLobbyJoin) (now : Nat) : Bool × Lobbies :=
  if now > waiting.deadline then
    match s.findLobby waiting.lobbyId with
    | none => (true, s)
    | some entry =>
      if entry.localState = .joining then (true, s.eraseLobby waiting.lobbyId) else (true, s)
  else (false, s)

/-- `run_callbacks`: whether a result is ready. -/
def runCallbacks (address : ResultAddress) (now : Nat) : Bool × Lobbies :=
  match s.pendingFinds[address]? with
  | some handle => s.settleFind handle now
  | none =>
    match s.pendingJoins[address]? with
    | some waiting => if waiting.done then (true, s) else s.settleJoin waiting now
    | none => (false, s)

/-- The result of a call was freed, and nothing waits for it any more. -/
def freeCallback (address : ResultAddress) : Lobbies :=
  { s with
    pendingFinds := s.pendingFinds.erase address
    pendingJoins := s.pendingJoins.erase address }

/-- A tick at a result: one that is done, or ready, is delivered and freed. -/
def collect (address : ResultAddress) (now : Nat) : Lobbies :=
  if (s.pendingJoins[address]?).any (·.done) then s.freeCallback address
  else
    let (ready, s) := s.runCallbacks address now
    if ready then s.freeCallback address else s

/-! ## Calls -/

/-- A call the game makes. -/
inductive Call
  | createLobby (o : CreateLobbyOptions) (random : Option Bytes)
  | destroyLobby (o : LobbyIdOptions)
  | leaveLobby (o : LobbyIdOptions)
  | updateLobbyModification (o : LobbyIdOptions)
  | updateLobby (o : UpdateLobbyOptions)
  | promoteMember (o : LobbyMemberOptions)
  | kickMember (o : LobbyMemberOptions)
  | joinLobby (o : JoinLobbyOptions) (now : Nat) (address : ResultAddress)
  | joinLobbyById (o : LobbyIdOptions) (now : Nat) (address : ResultAddress)
  | createLobbySearch (o : Setting UInt32)
  | searchSetLobbyId (handle : GameHandle) (o : Setting (Option Bytes))
  | searchSetTargetUser (handle : GameHandle) (o : Setting (Option Bytes))
  | searchSetParameter (handle : GameHandle) (o : SearchParameterOptions)
  | searchRemoveParameter (handle : GameHandle) (o : RemoveParameterOptions)
  | searchSetMaxResults (handle : GameHandle) (o : Setting UInt32)
  | searchFind (handle : GameHandle) (localUserId : Option Bytes) (now : Nat)
      (address : ResultAddress)
  | searchCopyResult (handle : GameHandle) (lobbyIndex : UInt32)
  | searchRelease (handle : GameHandle)
  | copyLobbyDetailsHandle (lobbyId : Option Bytes)
  | detailsRelease (handle : GameHandle)
  | modificationSetBucketId (handle : GameHandle) (bucketId : Option Bytes)
  | modificationSetPermissionLevel (handle : GameHandle) (permissionLevel : Int32)
  | modificationSetMaxMembers (handle : GameHandle) (maxMembers : UInt32)
  | modificationSetInvitesAllowed (handle : GameHandle) (bInvitesAllowed : EosBool)
  | modificationSetAllowedPlatformIds (handle : GameHandle)
  | modificationAddAttribute (handle : GameHandle) (o : LobbyAttributeOptions)
  | modificationRemoveAttribute (handle : GameHandle) (key : Option Bytes)
  | modificationAddMemberAttribute (handle : GameHandle) (o : LobbyAttributeOptions)
  | modificationRemoveMemberAttribute (handle : GameHandle) (key : Option Bytes)
  | modificationRelease (handle : GameHandle)
  deriving DecidableEq, Repr

/-- The state after a call. -/
def call : Call → Lobbies
  | .createLobby o random => (s.createLobby o random).2
  | .destroyLobby o => (s.destroyLobby o).2
  | .leaveLobby o => (s.leaveLobby o).2
  | .updateLobbyModification o => (s.updateLobbyModification o).2.2
  | .updateLobby o => (s.updateLobby o).2
  | .promoteMember o => (s.promoteMember o).2
  | .kickMember o => (s.kickMember o).2
  | .joinLobby o now address => (s.joinLobby o now address).2
  | .joinLobbyById o now address => (s.joinLobbyById o now address).2
  | .createLobbySearch o => (s.createLobbySearch o).2.2
  | .searchSetLobbyId h o => (s.searchSetLobbyId h o).2
  | .searchSetTargetUser h o => (s.searchSetTargetUser h o).2
  | .searchSetParameter h o => (s.searchSetParameter h o).2
  | .searchRemoveParameter h o => (s.searchRemoveParameter h o).2
  | .searchSetMaxResults h o => (s.searchSetMaxResults h o).2
  | .searchFind h localUserId now address => (s.searchFind h localUserId now address).2
  | .searchCopyResult h lobbyIndex => (s.searchCopyResult h lobbyIndex).2.2
  | .searchRelease h => s.searchRelease h
  | .copyLobbyDetailsHandle lobbyId => (s.copyLobbyDetailsHandle lobbyId).2.2
  | .detailsRelease h => s.detailsRelease h
  | .modificationSetBucketId h bucketId => (s.modificationSetBucketId h bucketId).2
  | .modificationSetPermissionLevel h level => (s.modificationSetPermissionLevel h level).2
  | .modificationSetMaxMembers h maxMembers => (s.modificationSetMaxMembers h maxMembers).2
  | .modificationSetInvitesAllowed h allowed => (s.modificationSetInvitesAllowed h allowed).2
  | .modificationSetAllowedPlatformIds h => (s.modificationSetAllowedPlatformIds h).2
  | .modificationAddAttribute h o => (s.modificationAddAttribute h o).2
  | .modificationRemoveAttribute h key => (s.modificationRemoveAttribute h key).2
  | .modificationAddMemberAttribute h o => (s.modificationAddMemberAttribute h o).2
  | .modificationRemoveMemberAttribute h key => (s.modificationRemoveMemberAttribute h key).2
  | .modificationRelease h => s.modificationRelease h

end Lobbies
end EosMesh
