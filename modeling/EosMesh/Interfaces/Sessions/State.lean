import EosMesh.Interfaces.Attributes
import EosMesh.Interfaces.Mesh

/-!
# What the sessions interface holds

The records of `interfaces/sessions.h`, the options of the calls a game makes, and the messages that
pass between the interfaces of two nodes.

* `Sessions` is the state of one instance.  Its table of sessions goes by the local name of a
  session, while the messages go by session id; nothing keeps two names from being of one session.
* `LocalState` is what we are to a session: its host, one that waits to be let in, or one that is
  in.
* The searches, the modifications and the details are behind handles, which are numbers here,
  counted up and never given out again.  The results that wait go by the address they were allocated
  at.
* `SessionMessage` is what one instance says to another; `SessionMessage.read` reads one off the
  wire, by the reader of its kind.  `read_payload` is that a message within the bounds of its reader
  is read as it was written.
* The options follow the structs of the SDK, with the version that says which fields are there.  A
  text that may be null is an option.
-/

set_option autoImplicit false

namespace EosMesh

open Lib
open Std (TreeMap)

/-! ## Constants -/

/-- `EOS_EOnlineSessionState`, the states the code uses. -/
def sessionPending : Int32 := 2
/-- The two states of a session, of those the SDK has, that the calls of a game lead to. -/
def sessionInProgress : Int32 := 4
def sessionEnded : Int32 := 6

/-- `EOS_OSPF_InviteOnly`. -/
def permissionInviteOnly : Int32 := 2

/-- `EOS_SESSIONMODIFICATION_MAX_SESSION_ATTRIBUTES`, and the bounds of a session id override. -/
def maxSessionAttributes : Nat := 64
/-- The bounds of an id that the game picks itself. -/
def minSessionIdOverrideLength : Nat := 16
def maxSessionIdOverrideLength : Nat := 64

/-- In milliseconds. -/
def searchTimeout : Nat := 5000
/-- How long a join waits for its answer, in milliseconds. -/
def joinTimeout : Nat := 5000

/-- The versions of the options that we know, one for each call that has its own. -/
def createSessionModificationApiLatest : Int32 := 5
def joinSessionApiLatest : Int32 := 2
def registerPlayersApiLatest : Int32 := 3
def unregisterPlayersApiLatest : Int32 := 2
def sessionAddAttributeApiLatest : Int32 := 2
def sessionSearchFindApiLatest : Int32 := 2

/-- The latest version of every other call. -/
def sessionsApiLatest : Int32 := 1

/-- The version each of these fields came in with. -/
def sessionSearchFindWithLocalUser : Int32 := 2
/-- The versions from which on the two later fields of these options are there. -/
def createSessionModWithSessionId : Int32 := 3
def createSessionModWithSanctions : Int32 := 4

/-- The keys that ask about the session itself: `bucket`, `emptyonly`, `nonemptyonly` and
`minslotsavailable`. -/
def keyBucket : Bytes := ['b', 'u', 'c', 'k', 'e', 't'].map Char.toUInt8
/-- The keys a condition may have that no attribute stands for. -/
def keyEmptyOnly : Bytes := ['e', 'm', 'p', 't', 'y', 'o', 'n', 'l', 'y'].map Char.toUInt8
def keyNonemptyOnly : Bytes :=
  ['n', 'o', 'n', 'e', 'm', 'p', 't', 'y', 'o', 'n', 'l', 'y'].map Char.toUInt8
def keyMinSlots : Bytes :=
  ['m', 'i', 'n', 's', 'l', 'o', 't', 's', 'a', 'v', 'a', 'i', 'l', 'a', 'b', 'l', 'e'].map
    Char.toUInt8

/-- Where a session is reached, until the game says otherwise. -/
def loopbackAddress : Bytes := ['1', '2', '7', '.', '0', '.', '0', '.', '1'].map Char.toUInt8

/-! ## Messages -/

/-- What one instance says to another. -/
inductive SessionMessage
  | search (msg : SessionSearch)
  | searchResponse (msg : SessionSearchResponse)
  | joinRequest (msg : SessionJoinRequest)
  | joinResponse (msg : SessionJoinResponse)
  | infos (msg : SessionInfos)
  | destroy (msg : SessionDestroy)
  | register (msg : SessionMembers)
  | unregister (msg : SessionMembers)
  deriving DecidableEq, Repr

namespace SessionMessage

/-- The tag a message travels under. -/
def type : SessionMessage → MessageType
  | search _ => .sessionSearch
  | searchResponse _ => .sessionSearchResponse
  | joinRequest _ => .sessionJoinRequest
  | joinResponse _ => .sessionJoinResponse
  | infos _ => .sessionInfos
  | destroy _ => .sessionDestroy
  | register _ => .sessionRegister
  | unregister _ => .sessionUnregister

/-- What stands in the envelope. -/
def payload : SessionMessage → Bytes
  | search msg => msg.serialize
  | searchResponse msg => msg.serialize
  | joinRequest msg => msg.serialize
  | joinResponse msg => msg.serialize
  | infos msg => msg.serialize
  | destroy msg => msg.serialize
  | register msg => msg.serialize
  | unregister msg => msg.serialize

/-- The message of a payload of the type `tag`, or `none` when it is malformed or of no type the
interface listens for. -/
def read (tag : UInt16) (payload : Bytes) : Option SessionMessage :=
  if tag = MessageType.sessionSearch.tag then
    (SessionSearch.deserialize.run payload).map fun r ↦ search r.1
  else if tag = MessageType.sessionSearchResponse.tag then
    (SessionSearchResponse.deserialize.run payload).map fun r ↦ searchResponse r.1
  else if tag = MessageType.sessionJoinRequest.tag then
    (SessionJoinRequest.deserialize.run payload).map fun r ↦ joinRequest r.1
  else if tag = MessageType.sessionJoinResponse.tag then
    (SessionJoinResponse.deserialize.run payload).map fun r ↦ joinResponse r.1
  else if tag = MessageType.sessionInfos.tag then
    (SessionInfos.deserialize.run payload).map fun r ↦ infos r.1
  else if tag = MessageType.sessionDestroy.tag then
    (SessionDestroy.deserialize.run payload).map fun r ↦ destroy r.1
  else if tag = MessageType.sessionRegister.tag then
    (SessionMembers.deserialize.run payload).map fun r ↦ register r.1
  else if tag = MessageType.sessionUnregister.tag then
    (SessionMembers.deserialize.run payload).map fun r ↦ unregister r.1
  else none

/-- What a reader will take, and give back as it was. -/
def WithinCaps : SessionMessage → Prop
  | search msg => msg.WithinCaps
  | searchResponse msg => msg.WithinCaps
  | joinRequest msg => Short msg.sessionId
  | joinResponse msg => Short msg.sessionId ∧ Short msg.playerId
  | infos msg => msg.WithinCaps
  | destroy msg => Short msg.sessionId
  | register msg => msg.WithinCaps
  | unregister msg => msg.WithinCaps

/-- **A message within the bounds of its reader is read as it was written.** -/
theorem read_payload {msg : SessionMessage} (h : msg.WithinCaps) :
    read msg.type.tag msg.payload = some msg := by
  have hrun {α : Type} {reader : ByteReader α} {bytes : Bytes} {value : α}
      (hdecodes : Decodes reader bytes value) : reader.run bytes = some (value, []) := by
    rw [← List.append_nil bytes]
    exact hdecodes []
  cases msg with
  | search msg => simp [read, type, payload, hrun (SessionSearch.decodes h)]
  | searchResponse msg =>
    simp [read, type, payload, hrun (SessionSearchResponse.decodes h), MessageType.tag]
  | joinRequest msg =>
    simp [read, type, payload, hrun (SessionJoinRequest.decodes h), MessageType.tag]
  | joinResponse msg =>
    simp [read, type, payload, hrun (SessionJoinResponse.decodes h.1 h.2), MessageType.tag]
  | infos msg => simp [read, type, payload, hrun (SessionInfos.decodes h), MessageType.tag]
  | destroy msg => simp [read, type, payload, hrun (SessionDestroy.decodes h), MessageType.tag]
  | register msg => simp [read, type, payload, hrun (SessionMembers.decodes h), MessageType.tag]
  | unregister msg => simp [read, type, payload, hrun (SessionMembers.decodes h), MessageType.tag]

end SessionMessage

/-! ## The interface -/

/-- What we are to a session: its host, one that waits to be let in, or one that is in. -/
inductive LocalState
  | hosting | joining | joined
  deriving DecidableEq, Repr

/-- A session we host or joined. -/
structure Session where
  infos : SessionInfos
  localUser : Bytes
  localState : LocalState
  deriving DecidableEq, Repr

/-- What a game stages before `update_session`. -/
structure SessionModificationObject where
  sessionName : Bytes
  localUser : Bytes
  creating : Bool
  infos : SessionInfos
  deriving DecidableEq, Repr

/-- A search, from the first condition to the last answer. -/
structure SessionSearchObject where
  query : SessionSearch := {}
  results : List SessionInfos := []
  maxResults : UInt32
  searching : Bool := false
  /-- The peers we asked and have not heard back from. -/
  awaiting : List Bytes := []
  deadline : Nat := 0
  deriving DecidableEq, Repr

/-- The address of a `frame_result`, by which the pending tables are ordered. -/
abbrev ResultAddress := Nat

/-- A join the host has yet to answer, and what its result says so far. -/
structure PendingSessionJoin where
  sessionId : Bytes
  deadline : Nat
  /-- Stands until the host says otherwise. -/
  resultCode : ResultCode := ResultCode.timedOut
  done : Bool := false
  deriving DecidableEq, Repr

/-- One instance: who it is by `settings_`, whom Connect has met, and its tables. -/
structure Sessions where
  productUserId : Bytes
  productId : Bytes
  /-- `connect_.is_known_peer`. -/
  known : List Bytes := []
  mesh : Mesh SessionMessage := {}
  sessions : TreeMap Bytes Session := {}
  nextHandle : GameHandle := 1
  modifications : HandleStore SessionModificationObject := {}
  searches : HandleStore SessionSearchObject := {}
  details : HandleStore SessionInfos := {}
  pendingFinds : TreeMap ResultAddress GameHandle := {}
  pendingJoins : TreeMap ResultAddress PendingSessionJoin := {}
  nextSearchId : UInt64 := 1

/-! ## The options of the calls -/

/-- `EOS_Sessions_CreateSessionModificationOptions`; a null pointer is `none`, here and below. -/
structure CreateSessionModificationOptions where
  apiVersion : Int32
  sessionName : Option Bytes
  bucketId : Option Bytes
  maxPlayers : UInt32
  localUserId : Option Bytes
  sessionId : Option Bytes
  bSanctionsEnabled : EosBool
  deriving DecidableEq, Repr

/-- The options of a call about one named session. -/
structure SessionNameOptions where
  apiVersion : Int32
  sessionName : Option Bytes
  deriving DecidableEq, Repr

/-- The options of a setter. -/
structure Setting (α : Type) where
  apiVersion : Int32
  value : α
  deriving DecidableEq, Repr

/-- The options to add an attribute with. -/
structure AddAttributeOptions where
  apiVersion : Int32
  sessionAttribute : Option AttributeData
  advertisementType : Int32
  deriving DecidableEq, Repr

/-- The options to commit a modification with. -/
structure UpdateSessionOptions where
  apiVersion : Int32
  sessionModificationHandle : GameHandle
  deriving DecidableEq, Repr

/-- The players are `none` when there is a count but no array; a null pointer among them is
`none`. -/
structure PlayersOptions where
  apiVersion : Int32
  sessionName : Option Bytes
  players : Option (List (Option Bytes))
  deriving DecidableEq, Repr

/-- The options to join a session with, which a details handle names. -/
structure JoinSessionOptions where
  apiVersion : Int32
  sessionName : Option Bytes
  sessionHandle : GameHandle
  localUserId : Option Bytes
  deriving DecidableEq, Repr

/-- The options to set a condition with. -/
structure SearchParameterOptions where
  apiVersion : Int32
  parameter : Option AttributeData
  comparisonOp : Int32
  deriving DecidableEq, Repr

/-- The options to take a condition back with. -/
structure RemoveParameterOptions where
  apiVersion : Int32
  key : Option Bytes
  comparisonOp : Int32
  deriving DecidableEq, Repr

/-- The local user is there from version 2 on. -/
structure SearchFindOptions where
  apiVersion : Int32
  localUserId : Option Bytes
  deriving DecidableEq, Repr

/-- What the callback of `update_session` is given. -/
structure UpdateSessionCallbackInfo where
  resultCode : ResultCode
  sessionName : Bytes := []
  sessionId : Bytes := []
  deriving DecidableEq, Repr

/-- What the callbacks of `register_players` and `unregister_players` are given. -/
structure PlayersCallbackInfo where
  resultCode : ResultCode
  players : List Bytes := []
  deriving DecidableEq, Repr

end EosMesh
