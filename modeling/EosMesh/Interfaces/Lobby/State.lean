import EosMesh.Interfaces.Sessions.State

/-!
# What the lobby interface holds

The records of `interfaces/lobby.h`, the options of the calls a game makes, and the messages that
pass between the interfaces of two nodes.  The interface is the sessions' with members in the place
of players, and with an owner that can change; what the two have in common is the sessions' own.

* `Lobbies` is the state of one instance.  Its table goes by lobby id.
* `LobbyMessage` is what one instance says to another; `LobbyMessage.read` reads one off the wire.
-/

set_option autoImplicit false

namespace EosMesh

open Lib
open Std (TreeMap)

/-! ## Constants -/

/-- `EOS_LPL_PUBLICADVERTISED`. -/
def permissionPublicAdvertised : Int32 := 0

/-- `EOS_LMS_CLOSED`, the reason a lobby is over for everyone. -/
def memberStatusClosed : Int32 := 5

/-- `EOS_LOBBYMODIFICATION_MAX_ATTRIBUTES`. -/
def maxLobbyAttributes : Nat := 64

/-- The version of the options that we know, and those from which on a later field is there. -/
def createLobbyApiLatest : Int32 := 10

/-- The latest version of every other call that looks at its own. -/
def lobbyApiLatest : Int32 := 1

/-- The version each of these fields came in with. -/
def createLobbyWithAllowInvites : Int32 := 3
def createLobbyWithBucketId : Int32 := 4
def createLobbyWithDisableHostMigration : Int32 := 5
def createLobbyWithRtcRoom : Int32 := 6
def createLobbyWithLobbyId : Int32 := 7
def createLobbyWithJoinById : Int32 := 8

/-- The keys that ask about the lobby itself, besides `bucket`: `mincurrentmembers` and
`minslotsavailable`, the sessions' own. -/
def keyMinMembers : Bytes :=
  ['m', 'i', 'n', 'c', 'u', 'r', 'r', 'e', 'n', 't', 'm', 'e', 'm', 'b', 'e', 'r', 's'].map
    Char.toUInt8

/-! ## Messages -/

/-- What one instance says to another. -/
inductive LobbyMessage
  | search (msg : LobbySearch)
  | searchResponse (msg : LobbySearchResponse)
  | joinRequest (msg : LobbyJoinRequest)
  | joinResponse (msg : LobbyJoinResponse)
  | infos (msg : LobbyInfos)
  | leave (msg : LobbyMemberUpdate)
  | memberUpdate (msg : LobbyMemberUpdate)
  | destroy (msg : LobbyDestroy)
  deriving DecidableEq, Repr

namespace LobbyMessage

/-- The tag a message travels under. -/
def type : LobbyMessage → MessageType
  | search _ => .lobbySearch
  | searchResponse _ => .lobbySearchResponse
  | joinRequest _ => .lobbyJoinRequest
  | joinResponse _ => .lobbyJoinResponse
  | infos _ => .lobbyInfos
  | leave _ => .lobbyLeave
  | memberUpdate _ => .lobbyMemberUpdate
  | destroy _ => .lobbyDestroy

/-- What stands in the envelope. -/
def payload : LobbyMessage → Bytes
  | search msg => msg.serialize
  | searchResponse msg => msg.serialize
  | joinRequest msg => msg.serialize
  | joinResponse msg => msg.serialize
  | infos msg => msg.serialize
  | leave msg => msg.serialize
  | memberUpdate msg => msg.serialize
  | destroy msg => msg.serialize

/-- The message of a payload of the type `tag`, or `none` when it is malformed or of no type the
interface listens for. -/
def read (tag : UInt16) (payload : Bytes) : Option LobbyMessage :=
  if tag = MessageType.lobbySearch.tag then
    (LobbySearch.deserialize.run payload).map fun r ↦ search r.1
  else if tag = MessageType.lobbySearchResponse.tag then
    (LobbySearchResponse.deserialize.run payload).map fun r ↦ searchResponse r.1
  else if tag = MessageType.lobbyJoinRequest.tag then
    (LobbyJoinRequest.deserialize.run payload).map fun r ↦ joinRequest r.1
  else if tag = MessageType.lobbyJoinResponse.tag then
    (LobbyJoinResponse.deserialize.run payload).map fun r ↦ joinResponse r.1
  else if tag = MessageType.lobbyInfos.tag then
    (LobbyInfos.deserialize.run payload).map fun r ↦ infos r.1
  else if tag = MessageType.lobbyLeave.tag then
    (LobbyMemberUpdate.deserialize.run payload).map fun r ↦ leave r.1
  else if tag = MessageType.lobbyMemberUpdate.tag then
    (LobbyMemberUpdate.deserialize.run payload).map fun r ↦ memberUpdate r.1
  else if tag = MessageType.lobbyDestroy.tag then
    (LobbyDestroy.deserialize.run payload).map fun r ↦ destroy r.1
  else none

/-- What a reader will take, and give back as it was. -/
def WithinCaps : LobbyMessage → Prop
  | search msg => msg.WithinCaps
  | searchResponse msg => msg.WithinCaps
  | joinRequest msg => Short msg.lobbyId ∧ msg.member.WithinCaps
  | joinResponse msg => Short msg.lobbyId ∧ Short msg.playerId
  | infos msg => msg.WithinCaps
  | leave msg => Short msg.lobbyId ∧ msg.member.WithinCaps
  | memberUpdate msg => Short msg.lobbyId ∧ msg.member.WithinCaps
  | destroy msg => Short msg.lobbyId

/-- **A message within the bounds of its reader is read as it was written.** -/
theorem read_payload {msg : LobbyMessage} (h : msg.WithinCaps) :
    read msg.type.tag msg.payload = some msg := by
  have hrun {α : Type} {reader : ByteReader α} {bytes : Bytes} {value : α}
      (hdecodes : Decodes reader bytes value) : reader.run bytes = some (value, []) := by
    rw [← List.append_nil bytes]
    exact hdecodes []
  cases msg with
  | search msg => simp [read, type, payload, hrun (LobbySearch.decodes h)]
  | searchResponse msg =>
    simp [read, type, payload, hrun (LobbySearchResponse.decodes h), MessageType.tag]
  | joinRequest msg =>
    simp [read, type, payload, hrun (LobbyJoinRequest.decodes h.1 h.2), MessageType.tag]
  | joinResponse msg =>
    simp [read, type, payload, hrun (LobbyJoinResponse.decodes h.1 h.2), MessageType.tag]
  | infos msg => simp [read, type, payload, hrun (LobbyInfos.decodes h), MessageType.tag]
  | leave msg =>
    simp [read, type, payload, hrun (LobbyMemberUpdate.decodes h.1 h.2), MessageType.tag]
  | memberUpdate msg =>
    simp [read, type, payload, hrun (LobbyMemberUpdate.decodes h.1 h.2), MessageType.tag]
  | destroy msg => simp [read, type, payload, hrun (LobbyDestroy.decodes h), MessageType.tag]

end LobbyMessage

/-! ## The interface -/

/-- A lobby we host or joined. -/
structure Lobby where
  infos : LobbyInfos
  localUser : Bytes
  localState : LocalState
  deriving DecidableEq, Repr

/-- What a game stages before `update_lobby`. -/
structure LobbyModificationObject where
  lobbyId : Bytes
  localUser : Bytes
  creating : Bool
  infos : LobbyInfos
  /-- The edits of the local user's own attributes. -/
  memberSet : List SessionAttribute := []
  memberDeleted : List Bytes := []
  deriving DecidableEq, Repr

/-- A search, from the first condition to the last answer. -/
structure LobbySearchObject where
  query : LobbySearch := {}
  results : List LobbyInfos := []
  maxResults : UInt32
  searching : Bool := false
  /-- The peers we asked and have not heard back from. -/
  awaiting : List Bytes := []
  deadline : Nat := 0
  deriving DecidableEq, Repr

/-- A join the host has yet to answer, and what its result says so far: nothing, until the host
answers or the time is up. -/
structure PendingLobbyJoin where
  lobbyId : Bytes
  deadline : Nat
  resultCode : ResultCode := ResultCode.success
  done : Bool := false
  deriving DecidableEq, Repr

/-- One instance: who it is by `settings_`, whom Connect has met, and its tables. -/
structure Lobbies where
  productUserId : Bytes
  productId : Bytes
  /-- `connect_.is_known_peer`. -/
  known : List Bytes := []
  mesh : Mesh LobbyMessage := {}
  lobbies : TreeMap Bytes Lobby := {}
  nextHandle : GameHandle := 1
  modifications : HandleStore LobbyModificationObject := {}
  searches : HandleStore LobbySearchObject := {}
  details : HandleStore LobbyInfos := {}
  pendingFinds : TreeMap ResultAddress GameHandle := {}
  pendingJoins : TreeMap ResultAddress PendingLobbyJoin := {}
  nextSearchId : UInt64 := 1

/-! ## The options of the calls -/

/-- `EOS_Lobby_CreateLobbyOptions`; a null pointer is `none`, here and below. -/
structure CreateLobbyOptions where
  apiVersion : Int32
  localUserId : Option Bytes
  maxLobbyMembers : UInt32
  permissionLevel : Int32
  bAllowInvites : EosBool
  bucketId : Option Bytes
  bDisableHostMigration : EosBool
  bEnableRTCRoom : EosBool
  lobbyId : Option Bytes
  bEnableJoinById : EosBool
  deriving DecidableEq, Repr

/-- The options of a call about one lobby. -/
structure LobbyIdOptions where
  lobbyId : Option Bytes
  localUserId : Option Bytes
  deriving DecidableEq, Repr

/-- The options of a call about one member of a lobby. -/
structure LobbyMemberOptions where
  lobbyId : Option Bytes
  localUserId : Option Bytes
  targetUserId : Option Bytes
  deriving DecidableEq, Repr

/-- The options to commit a modification with. -/
structure UpdateLobbyOptions where
  apiVersion : Int32
  lobbyModificationHandle : GameHandle
  deriving DecidableEq, Repr

/-- The options to join a lobby with, which a details handle names. -/
structure JoinLobbyOptions where
  lobbyDetailsHandle : GameHandle
  localUserId : Option Bytes
  deriving DecidableEq, Repr

/-- What the callbacks that name a lobby are given. -/
structure LobbyCallbackInfo where
  resultCode : ResultCode
  lobbyId : Bytes := []
  deriving DecidableEq, Repr

/-- The options to add an attribute with, to a lobby or to a member. -/
structure LobbyAttributeOptions where
  attr : Option AttributeData
  visibility : Int32
  deriving DecidableEq, Repr

end EosMesh
