import EosMesh.Interfaces.Sessions.Operations

/-!
# What arrives at the sessions interface

`sdk_sessions::on_network_message`, one function for each kind of message, and what a tick does with
the results that wait.

* `Sessions.onNetworkMessage` takes an envelope as the router hands it over: its source is the peer
  whose connection it came on.  Everything else in it is the peer's word.  A message of another
  game, or one that does not read, changes nothing.
* A host answers what asks for a place, and sends its session to whoever it lets in; a session that
  arrives replaces the copy of whoever holds one, if it comes from the owner the copy names.  A
  notice about players is heard from the owner, and from a player who takes itself out.
* `Sessions.runCallbacks` is the tick at one result: a search is over when everyone has answered or
  its time is up, and a join when the host has answered or its time is up.
* `Sessions.Call` lists the calls a game makes.  `Sessions.call`, `Sessions.collect` and
  `Sessions.onNetworkMessage` are all that ever happens to an instance, apart from what the mesh
  does around it.
-/

set_option autoImplicit false

namespace EosMesh

open Lib
open Std (TreeMap)

namespace Sessions

variable (s : Sessions)

/-! ## Searches -/

/-- Every peer answers, even with nothing, and only with the sessions it hosts. -/
def onSearch (source gameId : Bytes) (query : SessionSearch) : Sessions :=
  let found := if gameId = s.productId then s.hostedMatches query else []
  s.sendTo source (.searchResponse { searchId := query.searchId, sessions := found })

/-- The answer as one search takes it: only a peer it asked can answer it, and what came is tested
again. -/
def takeAnswer (handle : GameHandle) (source : Bytes) (answer : SessionSearchResponse) : Sessions :=
  match s.searches.find handle with
  | none => s
  | some object =>
    if ¬ object.searching ∨ object.query.searchId ≠ answer.searchId ∨
      source ∉ object.awaiting then s
    else
      let room := object.maxResults.toNat - object.results.length
      let found := (answer.sessions.filter fun infos ↦ sessionMatches infos object.query).take room
      { s with
        searches := s.searches.put handle
          { object with
            awaiting := object.awaiting.filter (· ≠ source)
            results := object.results ++ found } }

/-- An answer, for whichever of our searches it is of. -/
def onSearchResponse (source gameId : Bytes) (answer : SessionSearchResponse) : Sessions :=
  if gameId ≠ s.productId then s
  else s.pendingFinds.toList.foldl (fun s p ↦ s.takeAnswer p.2 source answer) s

/-! ## Joins -/

/-- The host's verdict on a join. -/
def joinVerdict (source : Bytes) : Option (Bytes × Session) → ResultCode
  | none => .notFound
  | some (_, entry) =>
    if entry.localState ≠ .hosting then .notFound
    -- We will not seat a player we have never met.
    else if source ∉ s.known then .sessionsNotAllowed
    else if source ∈ entry.players then .success
    else if entry.players.length ≥ entry.infos.maxPlayers.toNat then .sessionsTooManyPlayers
    else .success

/-- The session once its host let `player` in. -/
def Session.letIn (entry : Session) (player : Bytes) : Session :=
  if player ∈ entry.players then entry else entry.seat (entry.players ++ [player])

/-- Everyone in the session hears the verdict, so they all learn who is in. -/
def onJoinRequest (source : Bytes) (request : SessionJoinRequest) : Sessions :=
  let found := s.findById request.sessionId
  let reason := s.joinVerdict source found
  let verdict : SessionMessage :=
    .joinResponse { sessionId := request.sessionId, playerId := source, reason }
  match found with
  | none => s.sendTo source verdict
  | some (name, entry) =>
    if reason = ResultCode.success then
      let s := s.setSession name (Session.letIn entry source)
      ((s.sendTo source verdict).sendToMembers name verdict source).broadcastSession name
    else s.sendTo source verdict

/-- The first result that waits for a verdict on the session. -/
def waitingFor (sessionId : Bytes) : Option (ResultAddress × PendingSessionJoin) :=
  s.pendingJoins.toList.find? fun p ↦ p.2.sessionId = sessionId

/-- Only the host of a session pronounces on who is in it. -/
def onJoinResponse (source : Bytes) (answer : SessionJoinResponse) : Sessions :=
  match s.findById answer.sessionId with
  | none => s
  | some (name, entry) =>
    if source ≠ entry.infos.ownerId then s
    else if answer.playerId ≠ s.productUserId then
      -- A verdict about someone else just updates our picture of who is in.
      if answer.reason = ResultCode.success ∧ answer.playerId ∉ entry.players then
        s.setSession name (entry.seat (entry.players ++ [answer.playerId]))
      else s
    else match s.waitingFor answer.sessionId with
      | none => s
      | some (address, waiting) =>
        let s := { s with
          pendingJoins := s.pendingJoins.insert address
            { waiting with resultCode := answer.reason, done := true } }
        if answer.reason = ResultCode.success then
          let roster :=
            if s.productUserId ∈ entry.players then entry.players
            else entry.players ++ [s.productUserId]
          s.setSession name { entry.seat roster with localState := .joined }
        else if entry.localState = .joining then s.eraseSession name
        else s

/-! ## The session itself -/

/-- Only the host it belongs to may rewrite a session, and never one we host ourselves. -/
def onInfos (source : Bytes) (infos : SessionInfos) : Sessions :=
  match s.findById infos.sessionId with
  | none => s
  | some (name, entry) =>
    if entry.localState ≠ .hosting ∧ entry.infos.ownerId = source then
      s.setSession name { entry with infos }
    else s

/-- The owner of a session we are in ends it. -/
def onDestroy (source : Bytes) (notice : SessionDestroy) : Sessions :=
  match s.sessions.toList.find? fun p ↦ p.2.infos.sessionId = notice.sessionId ∧
      p.2.localState ≠ .hosting ∧ p.2.infos.ownerId = source with
  | none => s
  | some (name, _) => s.eraseSession name

/-- One player of a notice, on the roster of a session we know. -/
def noticePlayer (adding : Bool) (infos : SessionInfos) (roster : List Bytes) (player : Bytes) :
    List Bytes :=
  if adding then
    if player ∉ roster ∧ roster.length < infos.maxPlayers.toNat then roster ++ [player] else roster
  -- The host keeps its seat; it leaves by destroying the session.
  else if player ≠ infos.ownerId then roster.erase player
  else roster

/-- The host manages the whole roster; anyone else may only take itself out. -/
def mayNotice (adding : Bool) (source : Bytes) (entry : Session) (notice : SessionMembers) : Bool :=
  source = entry.infos.ownerId ∨ (¬ adding ∧ ∀ player ∈ notice.playerIds, player = source)

/-- Players were registered or unregistered by one who may say so. -/
def onMembers (adding : Bool) (source : Bytes) (notice : SessionMembers) : Sessions :=
  match s.findById notice.sessionId with
  | none => s
  | some (name, entry) =>
    if mayNotice adding source entry notice then
      s.setSession name
        (entry.seat (notice.playerIds.foldl (noticePlayer adding entry.infos) entry.players))
    else s

/-! ## All of them -/

/-- A message of another peer, once it is read. -/
def onMessage (source gameId : Bytes) : SessionMessage → Sessions
  | .search query => s.onSearch source gameId query
  | .searchResponse answer => s.onSearchResponse source gameId answer
  | .joinRequest request => s.onJoinRequest source request
  | .joinResponse answer => s.onJoinResponse source answer
  | .infos infos => s.onInfos source infos
  | .destroy notice => s.onDestroy source notice
  | .register notice => s.onMembers true source notice
  | .unregister notice => s.onMembers false source notice

/-- A message of the mesh, as it comes. -/
def onNetworkMessage (message : NetEnvelope) : Sessions :=
  if message.sourceId = [] ∨ message.sourceId = s.productUserId then s
  else if message.typeTag = MessageType.peerDisconnected.tag then
    s.onPeerDisconnected message.sourceId
  else match SessionMessage.read message.typeTag message.payload with
    | none => s
    | some msg => s.onMessage message.sourceId message.gameId msg

/-- What `send_to` makes of a message. -/
def envelope (peer : Bytes) (msg : SessionMessage) : NetEnvelope where
  typeTag := msg.type.tag
  sourceId := s.productUserId
  destId := peer
  gameId := s.productId
  payload := msg.payload

/-! ## The tick -/

/-- Whether a search that waits is over. -/
def settleFind (handle : GameHandle) (now : Nat) : Bool × Sessions :=
  match s.searches.find handle with
  | none => (true, s)
  | some object =>
    if object.awaiting = [] ∨ now > object.deadline then
      (true, { s with searches := s.searches.put handle { object with searching := false } })
    else (false, s)

/-- Whether a join that waits is over: a session we optimistically recorded is not ours when its
host never answered. -/
def settleJoin (waiting : PendingSessionJoin) (now : Nat) : Bool × Sessions :=
  if now > waiting.deadline then
    match s.findById waiting.sessionId with
    | none => (true, s)
    | some (name, entry) =>
      if entry.localState = .joining then (true, s.eraseSession name) else (true, s)
  else (false, s)

/-- `run_callbacks`: whether a result is ready. -/
def runCallbacks (address : ResultAddress) (now : Nat) : Bool × Sessions :=
  match s.pendingFinds[address]? with
  | some handle => s.settleFind handle now
  | none =>
    match s.pendingJoins[address]? with
    | some waiting => s.settleJoin waiting now
    | none => (false, s)

/-- The result of a call was freed, and nothing waits for it any more. -/
def freeCallback (address : ResultAddress) : Sessions :=
  { s with
    pendingFinds := s.pendingFinds.erase address
    pendingJoins := s.pendingJoins.erase address }

/-- A tick at a result: one that is done, or ready, is delivered and freed. -/
def collect (address : ResultAddress) (now : Nat) : Sessions :=
  if (s.pendingJoins[address]?).any (·.done) then s.freeCallback address
  else
    let (ready, s) := s.runCallbacks address now
    if ready then s.freeCallback address else s

/-! ## Calls -/

/-- A call the game makes. -/
inductive Call
  | createSessionModification (options : CreateSessionModificationOptions)
  | updateSessionModification (options : SessionNameOptions)
  | modificationSetBucketId (handle : GameHandle) (o : Setting (Option Bytes))
  | modificationSetHostAddress (handle : GameHandle) (o : Setting (Option Bytes))
  | modificationSetPermissionLevel (handle : GameHandle) (o : Setting Int32)
  | modificationSetJoinInProgress (handle : GameHandle) (o : Setting EosBool)
  | modificationSetMaxPlayers (handle : GameHandle) (o : Setting UInt32)
  | modificationSetInvitesAllowed (handle : GameHandle) (o : Setting EosBool)
  | modificationSetAllowedPlatformIds (handle : GameHandle) (o : Setting Unit)
  | modificationAddAttribute (handle : GameHandle) (o : AddAttributeOptions)
  | modificationRemoveAttribute (handle : GameHandle) (o : Setting (Option Bytes))
  | modificationRelease (handle : GameHandle)
  | updateSession (options : UpdateSessionOptions) (random : Option Bytes)
  | destroySession (options : SessionNameOptions)
  | startSession (options : SessionNameOptions)
  | endSession (options : SessionNameOptions)
  | registerPlayers (options : PlayersOptions)
  | unregisterPlayers (options : PlayersOptions)
  | joinSession (options : JoinSessionOptions) (now : Nat) (address : ResultAddress)
  | createSessionSearch (o : Setting UInt32)
  | searchSetSessionId (handle : GameHandle) (o : Setting (Option Bytes))
  | searchSetTargetUser (handle : GameHandle) (o : Setting (Option Bytes))
  | searchSetParameter (handle : GameHandle) (o : SearchParameterOptions)
  | searchRemoveParameter (handle : GameHandle) (o : RemoveParameterOptions)
  | searchSetMaxResults (handle : GameHandle) (o : Setting UInt32)
  | searchFind (handle : GameHandle) (o : SearchFindOptions) (now : Nat) (address : ResultAddress)
  | searchCopyResult (handle : GameHandle) (o : Setting UInt32)
  | searchRelease (handle : GameHandle)
  | detailsRelease (handle : GameHandle)
  deriving DecidableEq, Repr

/-- What a call reports, and the state after it; the two releases report nothing. -/
def call : Call → ResultCode × Sessions
  | .createSessionModification o => let r := s.createSessionModification o; (r.1, r.2.2)
  | .updateSessionModification o => let r := s.updateSessionModification o; (r.1, r.2.2)
  | .modificationSetBucketId h o => s.modificationSetBucketId h o
  | .modificationSetHostAddress h o => s.modificationSetHostAddress h o
  | .modificationSetPermissionLevel h o => s.modificationSetPermissionLevel h o
  | .modificationSetJoinInProgress h o => s.modificationSetJoinInProgress h o
  | .modificationSetMaxPlayers h o => s.modificationSetMaxPlayers h o
  | .modificationSetInvitesAllowed h o => s.modificationSetInvitesAllowed h o
  | .modificationSetAllowedPlatformIds h o => s.modificationSetAllowedPlatformIds h o
  | .modificationAddAttribute h o => s.modificationAddAttribute h o
  | .modificationRemoveAttribute h o => s.modificationRemoveAttribute h o
  | .modificationRelease h => (.success, s.modificationRelease h)
  | .updateSession o random => let r := s.updateSession o random; (r.1.resultCode, r.2)
  | .destroySession o => s.destroySession o
  | .startSession o => s.startSession o
  | .endSession o => s.endSession o
  | .registerPlayers o => let r := s.registerPlayers o; (r.1.resultCode, r.2)
  | .unregisterPlayers o => let r := s.unregisterPlayers o; (r.1.resultCode, r.2)
  | .joinSession o now address => s.joinSession o now address
  | .createSessionSearch o => let r := s.createSessionSearch o; (r.1, r.2.2)
  | .searchSetSessionId h o => s.searchSetSessionId h o
  | .searchSetTargetUser h o => s.searchSetTargetUser h o
  | .searchSetParameter h o => s.searchSetParameter h o
  | .searchRemoveParameter h o => s.searchRemoveParameter h o
  | .searchSetMaxResults h o => s.searchSetMaxResults h o
  | .searchFind h o now address => s.searchFind h o now address
  | .searchCopyResult h o => let r := s.searchCopyResult h o; (r.1, r.2.2)
  | .searchRelease h => (.success, s.searchRelease h)
  | .detailsRelease h => (.success, s.detailsRelease h)

end Sessions
end EosMesh
