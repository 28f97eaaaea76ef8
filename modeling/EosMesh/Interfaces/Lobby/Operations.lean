import EosMesh.Interfaces.Lobby.State
import EosMesh.Interfaces.Sessions.Operations

/-!
# The calls of the lobby interface

The functions of `interfaces/lobby.cpp` a game calls, as functions of the state of one instance.
Each takes the options as the game gives them, with a null text as `none`, and returns what the
completion or the call itself reports, and the state after it.

* A send may lose peers, and each of them is `peer_disconnected` before the send returns.  That
  drops a member, or hands a lobby on, and tells the members; so the sends nest, one deeper for each
  peer lost.  `Lobbies.loseWithin` bounds the depth, and `Lobbies.lose_eq` says that the bound is
  never met.
* So every function that sends is written twice: once over any way to lose a peer (`sendToWith`,
  `broadcastToMembersWith`), and then with `lose` for it, under the source's name.
* A loop over the members of a lobby that is closed under it ends there.  In the source a lobby that
  is closed while its members are told is used again after that in two places; the model goes on
  with what the lobby was, and says so there.
* `random` is what the random source gave, or nothing when it failed; `now` is the clock in
  milliseconds, and `address` where the result of the call was allocated.
* Notifications to the game are not modelled, nor calls the game makes from one.

The setters of a search and of a modification each look a handle up, check what they were given and
edit what is behind it; `editSearch` and `modify` are that, and a setter is one of them with its
edit.
-/

set_option autoImplicit false

namespace EosMesh

open Lib
open Std (TreeMap)

/-! ## Members -/

/-- `upsert_attribute`. -/
def upsertAttribute (attrs : List SessionAttribute) (attr : SessionAttribute) :
    List SessionAttribute :=
  (replaceAttribute attr attrs).getD (attrs ++ [attr])

/-- `remove_attribute`: every attribute with the key. -/
def removeAttribute (attrs : List SessionAttribute) (key : Bytes) : List SessionAttribute :=
  attrs.filter (·.key ≠ key)

/-- `elect_owner`: who inherits a lobby is the smallest remaining member, or nobody. -/
def electOwner (members : List LobbyMember) (leaving : Bytes) : Bytes :=
  members.foldl (fun chosen member ↦
    if member.userId = leaving then chosen
    else if chosen = [] ∨ compare member.userId chosen = .lt then member.userId
    else chosen) []

namespace LobbyInfos

variable (infos : LobbyInfos)

/-- `open_slots_of`. -/
def openSlotsOf : UInt32 :=
  if infos.maxMembers.toNat > infos.members.length then
    infos.maxMembers - UInt32.ofNat infos.members.length
  else 0

/-- The lobby with its available slots counted again. -/
def counted : LobbyInfos := { infos with availableSlots := infos.openSlotsOf }

/-- `find_member`. -/
def findMember (userId : Bytes) : Option LobbyMember := infos.members.find? (·.userId = userId)

/-- Who is in the lobby. -/
def roster : List Bytes := infos.members.map (·.userId)

/-- The lobby without the first member of the id. -/
def dropMember (userId : Bytes) : LobbyInfos :=
  { infos with members := infos.members.eraseP (·.userId = userId) }

/-- An edit of the first member of the id. -/
def editMember (userId : Bytes) (edit : LobbyMember → LobbyMember) : LobbyInfos :=
  { infos with members := infos.members.replaceF fun member ↦
      if member.userId = userId then some (edit member) else none }

/-- Everything of a lobby but who is in it and its available slots. -/
def frame : LobbyInfos := { infos with members := [], availableSlots := 0 }

@[simp] theorem counted_ownerId : infos.counted.ownerId = infos.ownerId := rfl

@[simp] theorem counted_members : infos.counted.members = infos.members := rfl

@[simp] theorem counted_maxMembers : infos.counted.maxMembers = infos.maxMembers := rfl

@[simp] theorem counted_roster : infos.counted.roster = infos.roster := rfl

@[simp] theorem counted_frame : infos.counted.frame = infos.frame := rfl

variable (userId : Bytes)

@[simp] theorem dropMember_ownerId : (infos.dropMember userId).ownerId = infos.ownerId := rfl

@[simp] theorem dropMember_maxMembers :
    (infos.dropMember userId).maxMembers = infos.maxMembers := rfl

@[simp] theorem dropMember_frame : (infos.dropMember userId).frame = infos.frame := rfl

variable (edit : LobbyMember → LobbyMember)

@[simp] theorem editMember_ownerId : (infos.editMember userId edit).ownerId = infos.ownerId := rfl

@[simp] theorem editMember_maxMembers :
    (infos.editMember userId edit).maxMembers = infos.maxMembers := rfl

@[simp] theorem editMember_frame : (infos.editMember userId edit).frame = infos.frame := rfl

/-- Who takes over once `leaving` is gone. -/
def heir (leaving : Bytes) : Bytes :=
  if infos.allowHostMigration then electOwner infos.members leaving else []

end LobbyInfos

namespace Lobbies

variable (s : Lobbies)

/-! ## The table -/

/-- The lobby of this id that we are in, host, or are joining. -/
def findLobby (lobbyId : Bytes) : Option Lobby := s.lobbies[lobbyId]?

/-- What we hold of a lobby, replaced. -/
def setLobby (lobbyId : Bytes) (entry : Lobby) : Lobbies :=
  { s with lobbies := s.lobbies.insert lobbyId entry }

/-- We hold the lobby no longer. -/
def eraseLobby (lobbyId : Bytes) : Lobbies := { s with lobbies := s.lobbies.erase lobbyId }

/-- Who is in a lobby. -/
def roster (lobbyId : Bytes) : List Bytes :=
  (s.lobbies[lobbyId]?.map fun entry ↦ entry.infos.roster).getD []

/-! ## Sending

What a peer that is lost under a send does to us is left open here; `lose` is what it is. -/

section Sending

variable (lose : Lobbies → Bytes → Lobbies)

/-- A message to one peer.  The peers the send loses are heard of before it returns, by `lose`. -/
def sendToWith (peer : Bytes) (message : LobbyMessage) : Lobbies :=
  let (mesh, lost) := s.mesh.send peer message
  lost.foldl lose { s with mesh }

/-- `broadcast_to_members`: everyone in the lobby is sent to but ourselves and `except`. -/
def broadcastToMembersWith (lobbyId : Bytes) (message : LobbyMessage) (except : Bytes) : Lobbies :=
  fanOut (fun s : Lobbies ↦ s.roster lobbyId)
    (fun member ↦ member = s.productUserId ∨ member = except)
    (fun s member ↦ s.sendToWith lose member message) s

/-- The lobby as we hold it now, to every other member. -/
def broadcastLobbyWith (lobbyId : Bytes) : Lobbies :=
  match s.findLobby lobbyId with
  | none => s
  | some entry => s.broadcastToMembersWith lose lobbyId (.infos entry.infos) []

/-- What a peer that left means for one lobby.  When it was the owner, every member elects the same
heir from the same roster; when it was a member of a lobby we host, we drop it and tell the rest. -/
def bereaveWith (peer : Bytes) (s : Lobbies) (lobbyId : Bytes) : Lobbies :=
  match s.findLobby lobbyId with
  | none => s
  | some entry =>
    let left := entry.infos.dropMember peer
    if entry.localState ≠ .hosting ∧ entry.infos.ownerId = peer then
      let heir := left.heir peer
      if heir = [] then s.eraseLobby lobbyId
      else
        let infos := { left with ownerId := heir }.counted
        if heir = s.productUserId then
          -- The new host solidifies the state.
          (s.setLobby lobbyId { entry with infos, localState := .hosting }).broadcastLobbyWith lose
            lobbyId
        else s.setLobby lobbyId { entry with infos, localState := .joined }
    else if entry.localState = .hosting ∧ (entry.infos.findMember peer).isSome then
      (s.setLobby lobbyId { entry with infos := left.counted }).broadcastLobbyWith lose lobbyId
    else s

/-- A peer that leaves takes its membership with it, in every lobby there was when it left. -/
def onPeerDisconnectedWith (peer : Bytes) : Lobbies :=
  if peer = [] ∨ peer = s.productUserId then s
  else s.lobbies.keys.foldl (bereaveWith lose peer) s

end Sending

/-- The router drops a peer, and at most `depth` peers one within the other. -/
def loseWithin : Nat → Lobbies → Bytes → Lobbies
  | 0, s, _ => s
  | depth + 1, s, peer =>
    if peer ∈ s.mesh.peers then
      { s with mesh := s.mesh.drop peer }.onPeerDisconnectedWith (loseWithin depth) peer
    else s

/-- The router drops a peer: it can do so no more often than it has peers. -/
def lose (peer : Bytes) : Lobbies := loseWithin s.mesh.peers.length s peer

/-- A message to one peer, with all that its losses bring about. -/
def sendTo (peer : Bytes) (message : LobbyMessage) : Lobbies := s.sendToWith lose peer message

/-- A message to the members of a lobby but one, with all that its losses bring about. -/
def broadcastToMembers (lobbyId : Bytes) (message : LobbyMessage) (except : Bytes) : Lobbies :=
  s.broadcastToMembersWith lose lobbyId message except

/-- The lobby to its members, with all that its losses bring about. -/
def broadcastLobby (lobbyId : Bytes) : Lobbies := s.broadcastLobbyWith lose lobbyId

/-- A peer is gone: it is in no lobby any more, and what waited for it waits no longer. -/
def onPeerDisconnected (peer : Bytes) : Lobbies := s.onPeerDisconnectedWith lose peer

/-! ## The life of a lobby -/

/-- What a new lobby is, by what its creator's version had to say. -/
def created (o : CreateLobbyOptions) (lobbyId localUser : Bytes) : Lobby where
  infos :=
    LobbyInfos.counted
      { lobbyId
        ownerId := localUser
        bucketId := if o.apiVersion ≥ createLobbyWithBucketId then o.bucketId.getD [] else []
        permissionLevel := o.permissionLevel
        maxMembers := o.maxLobbyMembers
        -- An older struct means what its own version of the interface did.
        allowInvites := o.apiVersion < createLobbyWithAllowInvites ∨ o.bAllowInvites.isTrue
        allowHostMigration :=
          o.apiVersion < createLobbyWithDisableHostMigration ∨ ¬ o.bDisableHostMigration.isTrue
        allowJoinById := o.apiVersion ≥ createLobbyWithJoinById ∧ o.bEnableJoinById.isTrue
        rtcEnabled := o.apiVersion ≥ createLobbyWithRtcRoom ∧ o.bEnableRTCRoom.isTrue
        -- The host is the first member.
        members := [{ userId := localUser }] }
  localUser
  localState := .hosting

/-- The id a game asks for, or `generate_lobby_id`, which is made like a session's. -/
def requestedId (o : CreateLobbyOptions) (random : Option Bytes) : Bytes :=
  (if o.apiVersion ≥ createLobbyWithLobbyId then o.lobbyId else none).getD
    (Sessions.generateSessionId random)

/-- `EOS_Lobby_CreateLobby`: a lobby with its creator as owner and only member, under the id that
was asked for or a random one. -/
def createLobby (o : CreateLobbyOptions) (random : Option Bytes) : LobbyCallbackInfo × Lobbies :=
  match o.localUserId with
  | none => ({ resultCode := .invalidParameters }, s)
  | some localUser =>
    if ¬ versionOk o.apiVersion createLobbyApiLatest ∨ o.maxLobbyMembers = 0 then
      ({ resultCode := .invalidParameters }, s)
    else
      let lobbyId := requestedId o random
      if lobbyId = [] then ({ resultCode := .unexpectedError }, s)
      else if (s.findLobby lobbyId).isSome then
        ({ resultCode := .lobbyPresenceLobbyExists, lobbyId }, s)
      else ({ resultCode := .success, lobbyId }, s.setLobby lobbyId (created o lobbyId localUser))

/-- `close_hosted_lobby`: it is handed to a surviving member, or closes for everyone. -/
def closeHostedLobby (lobbyId : Bytes) (entry : Lobby) : Lobbies :=
  let heir := entry.infos.heir s.productUserId
  if heir = [] then
    s.broadcastToMembers lobbyId
      (.destroy { lobbyId := entry.infos.lobbyId, reason := memberStatusClosed }) []
  else
    -- The members accept it because we are still the owner they know.
    let infos := { entry.infos.dropMember s.productUserId with ownerId := heir }.counted
    (s.setLobby lobbyId { entry with infos }).broadcastLobby lobbyId

/-- What `destroy_lobby` and `leave_lobby` both do: destroying a lobby we joined is us leaving. -/
def depart (o : LobbyIdOptions) : LobbyCallbackInfo × Lobbies :=
  match o.lobbyId, o.localUserId with
  | some lobbyId, some _ =>
    match s.findLobby lobbyId with
    | none => ({ resultCode := .notFound, lobbyId }, s)
    | some entry =>
      let told :=
        if entry.localState = .hosting then s.closeHostedLobby lobbyId entry
        else s.sendTo entry.infos.ownerId
          (.leave { lobbyId, member := { userId := s.productUserId } })
      ({ resultCode := .success, lobbyId }, told.eraseLobby lobbyId)
  | _, _ => ({ resultCode := .invalidParameters }, s)

/-- Destroying a lobby is leaving it: which of the two it is for the others is decided by who owns
it. -/
def destroyLobby (o : LobbyIdOptions) : LobbyCallbackInfo × Lobbies := s.depart o

/-- `EOS_Lobby_LeaveLobby`. -/
def leaveLobby (o : LobbyIdOptions) : LobbyCallbackInfo × Lobbies := s.depart o

/-- A handle to edit a lobby with.  Its edits are staged on a copy, for the owner and for a member
alike. -/
def updateLobbyModification (o : LobbyIdOptions) : ResultCode × Option GameHandle × Lobbies :=
  match o.lobbyId, o.localUserId with
  | some lobbyId, some localUser =>
    match s.findLobby lobbyId with
    | none => (.notFound, none, s)
    | some entry =>
      let object : LobbyModificationObject :=
        { lobbyId, localUser, creating := false, infos := entry.infos }
      (.success, some s.nextHandle,
        { s with
          nextHandle := s.nextHandle + 1
          modifications := s.modifications.put s.nextHandle object })
  | _, _ => (.invalidParameters, none, s)

/-- The local user's own edits, on what it had. -/
def applyMemberEdits (object : LobbyModificationObject) (member : LobbyMember) : LobbyMember :=
  { member with
    attributes := object.memberSet.foldl upsertAttribute
      (object.memberDeleted.foldl removeAttribute member.attributes) }

/-- A lobby with a modification of it applied: only the host changes the settings, and anyone its
own attributes. -/
def Lobby.modified (entry : Lobby) (self : Bytes) (object : LobbyModificationObject) : Lobby :=
  let infos :=
    if entry.infos.ownerId = self then
      { entry.infos with
        bucketId := object.infos.bucketId
        permissionLevel := object.infos.permissionLevel
        maxMembers := object.infos.maxMembers
        allowInvites := object.infos.allowInvites
        attributes := object.infos.attributes }
    else entry.infos
  { entry with infos := (infos.editMember self (applyMemberEdits object)).counted }

/-- A member's own change goes to the host, which is the source of truth and rebroadcasts.  The send
may lose the host and end the lobby with it; the source then takes the id it reports from the entry
that is gone, and here it is the id that was read before. -/
def updateLobby (o : UpdateLobbyOptions) : LobbyCallbackInfo × Lobbies :=
  match s.modifications.find o.lobbyModificationHandle with
  | none => ({ resultCode := .invalidParameters }, s)
  | some object =>
    if ¬ versionOk o.apiVersion lobbyApiLatest then ({ resultCode := .invalidParameters }, s)
    else match s.findLobby object.lobbyId with
      | none => ({ resultCode := .notFound, lobbyId := object.lobbyId }, s)
      | some entry =>
        let modified := Lobby.modified entry s.productUserId object
        let changed := s.setLobby object.lobbyId modified
        ({ resultCode := .success, lobbyId := entry.infos.lobbyId },
          if entry.infos.ownerId = s.productUserId then changed.broadcastLobby object.lobbyId
          else changed.sendTo entry.infos.ownerId
            (.memberUpdate
              { lobbyId := entry.infos.lobbyId
                member := (modified.infos.findMember s.productUserId).getD
                  { userId := s.productUserId } }))

/-- The former host stays a member; the lobby simply has a new owner.  A send may lose that owner
and end the lobby; the loop of the source then goes on over the members of an entry that is gone,
and here it ends there. -/
def promoteMember (o : LobbyMemberOptions) : LobbyCallbackInfo × Lobbies :=
  match o.lobbyId, o.localUserId, o.targetUserId with
  | some lobbyId, some _, some target =>
    match s.findLobby lobbyId with
    | none => ({ resultCode := .notFound, lobbyId }, s)
    | some entry =>
      if entry.localState ≠ .hosting then ({ resultCode := .lobbyNotOwner, lobbyId }, s)
      else if (entry.infos.findMember target).isNone then ({ resultCode := .notFound, lobbyId }, s)
      else
        ({ resultCode := .success, lobbyId },
          (s.setLobby lobbyId
            { entry with
              infos := { entry.infos with ownerId := target }
              localState := .joined }).broadcastLobby lobbyId)
  | _, _, _ => ({ resultCode := .invalidParameters }, s)

/-- `EOS_Lobby_KickMember`: only the host may, and never the owner. -/
def kickMember (o : LobbyMemberOptions) : LobbyCallbackInfo × Lobbies :=
  match o.lobbyId, o.localUserId, o.targetUserId with
  | some lobbyId, some _, some target =>
    match s.findLobby lobbyId with
    | none => ({ resultCode := .notFound, lobbyId }, s)
    | some entry =>
      if entry.localState ≠ .hosting then ({ resultCode := .lobbyNotOwner, lobbyId }, s)
      else if target = entry.infos.ownerId ∨ (entry.infos.findMember target).isNone then
        ({ resultCode := .invalidParameters, lobbyId }, s)
      else
        -- The kicked player is told it is out, and then the rest are brought up to date.
        ({ resultCode := .success, lobbyId },
          ((s.setLobby lobbyId
            { entry with infos := (entry.infos.dropMember target).counted }).sendTo target
              (.destroy { lobbyId })).broadcastLobby lobbyId)
  | _, _, _ => ({ resultCode := .invalidParameters }, s)

/-! ## Joining -/

/-- A join the host has yet to answer. -/
def awaitVerdict (lobbyId : Bytes) (entry : Lobby) (now : Nat) (address : ResultAddress) :
    Lobbies :=
  { s.setLobby lobbyId entry with
    pendingJoins := s.pendingJoins.insert address { lobbyId, deadline := now + joinTimeout } }

/-- What fails at once is reported at once; what does not stays open until the host answers. -/
def joinLobby (o : JoinLobbyOptions) (now : Nat) (address : ResultAddress) :
    Option LobbyCallbackInfo × Lobbies :=
  match s.details.find o.lobbyDetailsHandle, o.localUserId with
  | some found, some localUser =>
    let lobbyId := found.lobbyId
    if (s.findLobby lobbyId).isSome then
      (some { resultCode := .lobbyPresenceLobbyExists, lobbyId }, s)
    -- We only join a host we have actually met on the mesh.
    else if found.ownerId ∉ s.known then (some { resultCode := .lobbyNotOwner, lobbyId }, s)
    else
      (none,
        (s.awaitVerdict lobbyId { infos := found, localUser, localState := .joining } now
          address).sendTo found.ownerId (.joinRequest
            { lobbyId, member := { userId := localUser } }))
  | _, _ => (some { resultCode := .invalidParameters }, s)

/-- We do not know which peer hosts the id, so we ask them all; only its owner answers. -/
def joinLobbyById (o : LobbyIdOptions) (now : Nat) (address : ResultAddress) :
    Option LobbyCallbackInfo × Lobbies :=
  match o.lobbyId, o.localUserId with
  | some lobbyId, some localUser =>
    if (s.findLobby lobbyId).isSome then
      (some { resultCode := .lobbyPresenceLobbyExists, lobbyId }, s)
    else
      (none,
        s.mesh.peers.foldl (fun s peer ↦ s.sendTo peer
            (.joinRequest { lobbyId, byId := true, member := { userId := localUser } }))
          (s.awaitVerdict lobbyId { infos := { lobbyId }, localUser, localState := .joining } now
            address))
  | _, _ => (some { resultCode := .invalidParameters }, s)

/-! ## Searching -/

/-- What a condition on one of the keys that are no attribute asks about the lobby itself, or `none`
for any other key. -/
def matchesKnownKey (infos : LobbyInfos) (parameter : SearchParameter) : Option Bool :=
  let asked := parameter.attr
  -- An exact minimum means "at least".
  let least (count : Nat) : Bool :=
    asked.valueType = attributeInt64 ∧
      compareOrdered false (some (compare (count : Int) asked.asInt64.toInt))
        (if parameter.comparisonOp = 0 then 3 else parameter.comparisonOp)
  if asked.key = keyBucket then
    some (asked.valueType = attributeString ∧
      compareOrdered false (some (compare infos.bucketId asked.asString)) parameter.comparisonOp)
  else if asked.key = keyMinMembers then some (least infos.members.length)
  else if asked.key = keyMinSlots then some (least infos.openSlotsOf.toNat)
  else none

/-- One condition of a query: a key the interface knows, or an attribute the lobby has to have. -/
def matchesParameter (infos : LobbyInfos) (parameter : SearchParameter) : Bool :=
  (matchesKnownKey infos parameter).getD
    (match infos.attributes.find? (·.key = parameter.attr.key) with
    | none => false
    | some mine => compareAttribute false mine parameter.attr parameter.comparisonOp)

/-- A search for one lobby or one player is not gated by permission. -/
def lobbyMatches (infos : LobbyInfos) (query : LobbySearch) : Bool :=
  (query.lobbyId = [] ∨ infos.lobbyId = query.lobbyId) ∧
    (query.targetUserId = [] ∨ query.targetUserId ∈ infos.roster) ∧
    (query.lobbyId ≠ [] ∨ query.targetUserId ≠ [] ∨
      infos.permissionLevel = permissionPublicAdvertised) ∧
    query.parameters.all (matchesParameter infos)

/-- The lobbies we host that answer a query, in the order of the table. -/
def hostedMatches (query : LobbySearch) : List LobbyInfos :=
  (s.lobbies.toList.filter fun p ↦
    p.2.localState = .hosting ∧ lobbyMatches p.2.infos query).map fun p ↦ p.2.infos

/-- A handle for a search that asks nothing yet. -/
def createLobbySearch (o : Setting UInt32) : ResultCode × Option GameHandle × Lobbies :=
  if ¬ versionOk o.apiVersion lobbyApiLatest then (.invalidParameters, none, s)
  else
    (.success, some s.nextHandle,
      { s with
        nextHandle := s.nextHandle + 1
        searches := s.searches.put s.nextHandle
          { maxResults := if o.value > 0 then o.value else 1 } })

/-- What every call that sets up a search does; `given` is whether its pointers are there. -/
def editSearch (handle : GameHandle) (version : Int32) (given : Bool)
    (edit : LobbySearchObject → Except ResultCode LobbySearchObject) : ResultCode × Lobbies :=
  match s.searches.find handle with
  | none => (.invalidParameters, s)
  | some object =>
    if ¬ given then (.invalidParameters, s)
    else if ¬ versionOk version lobbyApiLatest then (.incompatibleVersion, s)
    else match edit object with
      | .error code => (code, s)
      | .ok object => (.success, { s with searches := s.searches.put handle object })

/-- An edit of the query only. -/
def editQuery (edit : LobbySearch → LobbySearch) (object : LobbySearchObject) :
    Except ResultCode LobbySearchObject := .ok { object with query := edit object.query }

/-- Ask for one lobby by its id. -/
def searchSetLobbyId (handle : GameHandle) (o : Setting (Option Bytes)) : ResultCode × Lobbies :=
  s.editSearch handle o.apiVersion o.value.isSome
    (editQuery fun query ↦ { query with lobbyId := o.value.getD [] })

/-- Ask for the lobbies a player is in. -/
def searchSetTargetUser (handle : GameHandle) (o : Setting (Option Bytes)) : ResultCode × Lobbies :=
  s.editSearch handle o.apiVersion o.value.isSome
    (editQuery fun query ↦ { query with targetUserId := o.value.getD [] })

/-- A condition is set once for each key and comparison. -/
def searchSetParameter (handle : GameHandle) (o : SearchParameterOptions) : ResultCode × Lobbies :=
  s.editSearch handle o.apiVersion o.parameter.isSome fun object ↦
    match readAttribute o.parameter with
    | none => .error .invalidParameters
    | some attr =>
      editQuery (fun query ↦ { query with
        parameters := Sessions.setParameter { attr, comparisonOp := o.comparisonOp }
          query.parameters }) object

/-- The condition under the key and the comparison goes. -/
def searchRemoveParameter (handle : GameHandle) (o : RemoveParameterOptions) :
    ResultCode × Lobbies :=
  s.editSearch handle o.apiVersion o.key.isSome fun object ↦
    let same := Sessions.sameCondition (o.key.getD []) o.comparisonOp
    if object.query.parameters.any same then
      editQuery (fun query ↦ { query with parameters := query.parameters.eraseP same }) object
    else .error .notFound

/-- How many results the search keeps. -/
def searchSetMaxResults (handle : GameHandle) (o : Setting UInt32) : ResultCode × Lobbies :=
  s.editSearch handle o.apiVersion true fun object ↦
    if ¬ Sessions.maxResultsOk o.value then .error .invalidParameters
    else .ok { object with maxResults := o.value }

/-- Exactly one search mode is set. -/
def hasOneMode (query : LobbySearch) : Bool :=
  (!query.lobbyId.isEmpty).toNat + (!query.targetUserId.isEmpty).toNat +
    (!query.parameters.isEmpty).toNat = 1

/-- `search_find` once it has its object: our own hosted lobbies, and a question to every peer. -/
def startSearch (handle : GameHandle) (object : LobbySearchObject) (now : Nat)
    (address : ResultAddress) : Lobbies :=
  let query := { object.query with
    searchId := Sessions.searchIdOf s.nextSearchId, maxResults := object.maxResults }
  let asked := s.mesh.peers.filter fun peer ↦ query.targetUserId = [] ∨ peer = query.targetUserId
  let object : LobbySearchObject :=
    { object with
      query, searching := true, awaiting := asked, deadline := now + searchTimeout
      results := (s.hostedMatches query).take object.maxResults.toNat }
  let s := asked.foldl (fun s peer ↦ s.sendTo peer (.search query)) s
  { s with
    nextSearchId := s.nextSearchId + 1
    searches := s.searches.put handle object
    pendingFinds := s.pendingFinds.insert address handle }

/-- The result of a search that does not begin is there at once. -/
def searchFind (handle : GameHandle) (localUserId : Option Bytes) (now : Nat)
    (address : ResultAddress) : ResultCode × Lobbies :=
  match s.searches.find handle, localUserId with
  | some object, some _ =>
    if ¬ hasOneMode object.query then (.invalidParameters, s)
    else if object.searching then (.alreadyPending, s)
    else (.success, s.startSearch handle object now address)
  | _, _ => (.invalidParameters, s)

/-- A copy of what a lobby is, for the game to look at, or to join it by. -/
def copyDetails (infos : LobbyInfos) : ResultCode × Option GameHandle × Lobbies :=
  (.success, some s.nextHandle,
    { s with
      nextHandle := s.nextHandle + 1
      details := s.details.put s.nextHandle infos })

/-- A handle on one result, once the search is over. -/
def searchCopyResult (handle : GameHandle) (lobbyIndex : UInt32) :
    ResultCode × Option GameHandle × Lobbies :=
  match s.searches.find handle with
  | none => (.invalidParameters, none, s)
  | some object =>
    if object.searching then (.invalidParameters, none, s)
    else match object.results[lobbyIndex.toNat]? with
      | none => (.invalidParameters, none, s)
      | some infos => s.copyDetails infos

/-- The handle of a search is let go. -/
def searchRelease (handle : GameHandle) : Lobbies :=
  { s with searches := s.searches.release handle }

/-- A handle on the lobby as we hold it now; later changes do not show in it. -/
def copyLobbyDetailsHandle (lobbyId : Option Bytes) : ResultCode × Option GameHandle × Lobbies :=
  match lobbyId with
  | none => (.invalidParameters, none, s)
  | some lobbyId =>
    match s.findLobby lobbyId with
    | none => (.notFound, none, s)
    | some entry => s.copyDetails entry.infos

/-- A details handle is let go. -/
def detailsRelease (handle : GameHandle) : Lobbies :=
  { s with details := s.details.release handle }

/-! ## Modifications -/

/-- What every setter does: it finds the object and edits what is staged. -/
def modify (handle : GameHandle)
    (edit : LobbyModificationObject → Except ResultCode LobbyModificationObject) :
    ResultCode × Lobbies :=
  match s.modifications.find handle with
  | none => (.invalidParameters, s)
  | some object =>
    match edit object with
    | .error code => (code, s)
    | .ok object => (.success, { s with modifications := s.modifications.put handle object })

/-- Stage another bucket. -/
def modificationSetBucketId (handle : GameHandle) (bucketId : Option Bytes) :
    ResultCode × Lobbies :=
  s.modify handle fun object ↦
    match bucketId with
    | none => .error .invalidParameters
    | some bucketId => .ok { object with infos := { object.infos with bucketId } }

/-- Stage another permission level, which nobody checks here. -/
def modificationSetPermissionLevel (handle : GameHandle) (permissionLevel : Int32) :
    ResultCode × Lobbies :=
  s.modify handle fun object ↦ .ok { object with infos := { object.infos with permissionLevel } }

/-- Stage another capacity, of at least one. -/
def modificationSetMaxMembers (handle : GameHandle) (maxMembers : UInt32) : ResultCode × Lobbies :=
  s.modify handle fun object ↦
    if maxMembers = 0 then .error .invalidParameters
    else .ok { object with infos := { object.infos with maxMembers } }

/-- Stage whether invites are allowed. -/
def modificationSetInvitesAllowed (handle : GameHandle) (bInvitesAllowed : EosBool) :
    ResultCode × Lobbies :=
  s.modify handle fun object ↦
    .ok { object with infos := { object.infos with allowInvites := bInvitesAllowed.isTrue } }

/-- Accepted and ignored. -/
def modificationSetAllowedPlatformIds (handle : GameHandle) : ResultCode × Lobbies :=
  s.modify handle .ok

/-- Stage an attribute of the lobby; a new one beyond what a lobby may have is refused. -/
def modificationAddAttribute (handle : GameHandle) (o : LobbyAttributeOptions) :
    ResultCode × Lobbies :=
  s.modify handle fun object ↦
    match readAttribute o.attr with
    | none => .error .invalidParameters
    | some attr =>
      if object.infos.attributes.length ≥ maxLobbyAttributes ∧
          ¬ object.infos.attributes.any (·.key = attr.key) then .error .limitExceeded
      else .ok { object with infos := { object.infos with
        attributes := upsertAttribute object.infos.attributes
          { attr with advertisement := o.visibility } } }

/-- Stage that an attribute of the lobby goes, whether or not there is one. -/
def modificationRemoveAttribute (handle : GameHandle) (key : Option Bytes) : ResultCode × Lobbies :=
  s.modify handle fun object ↦
    match key with
    | none => .error .invalidParameters
    | some key => .ok { object with infos := { object.infos with
        attributes := removeAttribute object.infos.attributes key } }

/-- Stage an attribute of our own member. -/
def modificationAddMemberAttribute (handle : GameHandle) (o : LobbyAttributeOptions) :
    ResultCode × Lobbies :=
  s.modify handle fun object ↦
    match readAttribute o.attr with
    | none => .error .invalidParameters
    | some attr => .ok { object with
        memberSet := upsertAttribute object.memberSet { attr with advertisement := o.visibility } }

/-- Stage that an attribute of our own member goes. -/
def modificationRemoveMemberAttribute (handle : GameHandle) (key : Option Bytes) :
    ResultCode × Lobbies :=
  s.modify handle fun object ↦
    match key with
    | none => .error .invalidParameters
    | some key => .ok { object with memberDeleted := object.memberDeleted ++ [key] }

/-- A modification handle is let go, with what was staged under it. -/
def modificationRelease (handle : GameHandle) : Lobbies :=
  { s with modifications := s.modifications.release handle }

end Lobbies
end EosMesh
