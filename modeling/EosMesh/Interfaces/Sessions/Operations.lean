import EosMesh.Interfaces.Sessions.State
import EosMesh.Lib.FanOut

/-!
# The calls of the sessions interface

The functions of `interfaces/sessions.cpp` a game calls, as functions of the state of one instance.
A call that sends does so through `Sessions.sendTo`, in which the router may lose peers; each of
them is off every roster before the send returns.

* `random` is what the random source gave, or nothing when it failed.
* `now` is the clock in milliseconds, and `address` where the result of the call was allocated.

The functions are in the order of the source.  A session is built or changed by way of a
modification handle: `createSessionModification` or `updateSessionModification` makes one, a setter
stages one edit on its copy (`modify` finds it, and checks the version), and `updateSession` commits
it (`commit`).  A search is built in the same way, one condition after the other (`editSearch`), and
`searchFind` begins it: what we host is listed at once, and each peer is asked.

A call about the players, `registerPlayers` or `unregisterPlayers`, edits the roster and tells the
members (`changePlayers`); the two loops over the list are definitions of their own, since they do
not stop at the same things.  Where the source checks something in one function and not in another,
so does the model.
-/

set_option autoImplicit false

namespace EosMesh

open Lib
open Std (TreeMap)

/-! ## Rosters -/

/-- `open_slots_of`: the capacity minus the players registered. -/
def openSlotsOf (infos : SessionInfos) : UInt32 :=
  if infos.registeredPlayers.length ≥ infos.maxPlayers.toNat then 0
  else infos.maxPlayers - UInt32.ofNat infos.registeredPlayers.length

namespace SessionInfos

/-- The session with its open slots counted again. -/
def counted (infos : SessionInfos) : SessionInfos := { infos with openSlots := openSlotsOf infos }

/-- The session with these players, counted. -/
def seat (infos : SessionInfos) (players : List Bytes) : SessionInfos :=
  { infos with registeredPlayers := players }.counted

end SessionInfos

namespace Session

/-- The players of a session, as we hold it. -/
def players (entry : Session) : List Bytes := entry.infos.registeredPlayers

/-- The session with another list of players. -/
def seat (entry : Session) (players : List Bytes) : Session :=
  { entry with infos := entry.infos.seat players }

end Session

namespace Sessions

variable (s : Sessions)

/-! ## The table -/

/-- The session under its local name. -/
def findByName (name : Bytes) : Option Session := s.sessions[name]?

/-- The first session with the id, and the name it goes by. -/
def findById (sessionId : Bytes) : Option (Bytes × Session) :=
  s.sessions.toList.find? fun p ↦ p.2.infos.sessionId = sessionId

/-- What we hold under a name, replaced. -/
def setSession (name : Bytes) (entry : Session) : Sessions :=
  { s with sessions := s.sessions.insert name entry }

/-- We hold nothing under the name any more. -/
def eraseSession (name : Bytes) : Sessions := { s with sessions := s.sessions.erase name }

/-- The roster of a session. -/
def players (name : Bytes) : List Bytes := (s.sessions[name]?.map Session.players).getD []

/-! ## Sending -/

/-- A peer that leaves takes its seat with it, in every session we know about. -/
def onPeerDisconnected (peer : Bytes) : Sessions :=
  { s with sessions := s.sessions.map fun _ entry ↦ entry.seat (entry.players.erase peer) }

/-- The router drops a peer. -/
def lose (peer : Bytes) : Sessions :=
  if peer ∈ s.mesh.peers then { s with mesh := s.mesh.drop peer }.onPeerDisconnected peer else s

/-- A message to one peer.  The peers the send loses are heard of before it returns. -/
def sendTo (peer : Bytes) (message : SessionMessage) : Sessions :=
  let (mesh, lost) := s.mesh.send peer message
  lost.foldl lose { s with mesh }

/-- Everyone on the roster is sent to but ourselves and `except`. -/
def sendToMembers (name : Bytes) (message : SessionMessage) (except : Bytes) : Sessions :=
  fanOut (fun s : Sessions ↦ s.players name) (fun player ↦ player = s.productUserId ∨
    player = except)
    (fun s player ↦ s.sendTo player message) s

/-- The session as we hold it now, to its members. -/
def broadcastSession (name : Bytes) : Sessions :=
  match s.findByName name with
  | none => s
  | some entry => s.sendToMembers name (.infos entry.infos) []

/-! ## Modifications -/

/-- A handle to build a new session with.  Nothing exists until it is committed. -/
def createSessionModification (options : CreateSessionModificationOptions) :
    ResultCode × Option GameHandle × Sessions :=
  match options.sessionName, options.bucketId, options.localUserId with
  | some sessionName, some bucketId, some localUserId =>
    if ¬ versionOk options.apiVersion createSessionModificationApiLatest ∨ sessionName = [] then
      (.invalidParameters, none, s)
    else
      let overrideId :=
        if options.apiVersion ≥ createSessionModWithSessionId then options.sessionId.getD [] else []
      if overrideId ≠ [] ∧ (overrideId.length < minSessionIdOverrideLength ∨
          overrideId.length > maxSessionIdOverrideLength) then
        (.invalidParameters, none, s)
      else
        let object : SessionModificationObject :=
          { sessionName, localUser := localUserId, creating := true
            infos :=
              { sessionId := overrideId, bucketId, maxPlayers := options.maxPlayers
                hostAddress := loopbackAddress
                sanctionsEnabled := options.apiVersion ≥ createSessionModWithSanctions ∧
                  options.bSanctionsEnabled.isTrue } }
        (.success, some s.nextHandle,
          { s with
            nextHandle := s.nextHandle + 1
            modifications := s.modifications.put s.nextHandle object })
  | _, _, _ => (.invalidParameters, none, s)

/-- Modifying starts from what the session already is. -/
def updateSessionModification (options : SessionNameOptions) :
    ResultCode × Option GameHandle × Sessions :=
  match options.sessionName with
  | none => (.invalidParameters, none, s)
  | some sessionName =>
    if ¬ versionOk options.apiVersion sessionsApiLatest ∨ sessionName = [] then
      (.invalidParameters, none, s)
    else match s.findByName sessionName with
      | none => (.notFound, none, s)
      | some entry =>
        let object : SessionModificationObject :=
          { sessionName, localUser := entry.localUser, creating := false, infos := entry.infos }
        (.success, some s.nextHandle,
          { s with
            nextHandle := s.nextHandle + 1
            modifications := s.modifications.put s.nextHandle object })

/-- What every setter does: it finds the object, checks the version and edits what is staged. -/
def modify (handle : GameHandle) (version latest : Int32)
    (edit : SessionInfos → Except ResultCode SessionInfos) : ResultCode × Sessions :=
  match s.modifications.find handle with
  | none => (.invalidParameters, s)
  | some object =>
    if ¬ versionOk version latest then (.invalidParameters, s)
    else match edit object.infos with
      | .error code => (code, s)
      | .ok infos =>
        (.success, { s with modifications := s.modifications.put handle { object with infos } })

/-- The edit of a setter given a string. -/
def setText (value : Option Bytes) (set : SessionInfos → Bytes → SessionInfos)
    (infos : SessionInfos) : Except ResultCode SessionInfos :=
  match value with
  | none => .error .invalidParameters
  | some text => .ok (set infos text)

/-- Stage another bucket. -/
def modificationSetBucketId (handle : GameHandle) (o : Setting (Option Bytes)) :
    ResultCode × Sessions :=
  s.modify handle o.apiVersion sessionsApiLatest
    (setText o.value fun infos bucketId ↦ { infos with bucketId })

/-- Stage another host address, a text of the game's own. -/
def modificationSetHostAddress (handle : GameHandle) (o : Setting (Option Bytes)) :
    ResultCode × Sessions :=
  s.modify handle o.apiVersion sessionsApiLatest
    (setText o.value fun infos hostAddress ↦ { infos with hostAddress })

/-- Stage another permission level, which nobody checks here. -/
def modificationSetPermissionLevel (handle : GameHandle) (o : Setting Int32) :
    ResultCode × Sessions :=
  s.modify handle o.apiVersion sessionsApiLatest
    fun infos ↦ .ok { infos with permissionLevel := o.value }

/-- Stage whether a match under way may be joined. -/
def modificationSetJoinInProgress (handle : GameHandle) (o : Setting EosBool) :
    ResultCode × Sessions :=
  s.modify handle o.apiVersion sessionsApiLatest
    fun infos ↦ .ok { infos with allowJoinInProgress := o.value.isTrue }

/-- Stage another capacity, of any size. -/
def modificationSetMaxPlayers (handle : GameHandle) (o : Setting UInt32) : ResultCode × Sessions :=
  s.modify handle o.apiVersion sessionsApiLatest fun infos ↦
    .ok { infos with maxPlayers := o.value }

/-- Stage whether invites are allowed. -/
def modificationSetInvitesAllowed (handle : GameHandle) (o : Setting EosBool) :
    ResultCode × Sessions :=
  s.modify handle o.apiVersion sessionsApiLatest
    fun infos ↦ .ok { infos with invitesAllowed := o.value.isTrue }

/-- Accepted and ignored. -/
def modificationSetAllowedPlatformIds (handle : GameHandle) (o : Setting Unit) :
    ResultCode × Sessions :=
  s.modify handle o.apiVersion sessionsApiLatest .ok

/-- Stage an attribute; a new one beyond what a session may have is refused. -/
def modificationAddAttribute (handle : GameHandle) (o : AddAttributeOptions) :
    ResultCode × Sessions :=
  s.modify handle o.apiVersion sessionAddAttributeApiLatest fun infos ↦
    match readAttribute o.sessionAttribute with
    | none => .error .invalidParameters
    | some attr =>
      let attr := { attr with advertisement := o.advertisementType }
      -- Replacing an attribute we already carry is not growth.
      match replaceAttribute attr infos.attributes with
      | some attributes => .ok { infos with attributes }
      | none =>
        if infos.attributes.length ≥ maxSessionAttributes then .error .limitExceeded
        else .ok { infos with attributes := infos.attributes ++ [attr] }

/-- Stage that an attribute goes, which has to be there. -/
def modificationRemoveAttribute (handle : GameHandle) (o : Setting (Option Bytes)) :
    ResultCode × Sessions :=
  s.modify handle o.apiVersion sessionsApiLatest fun infos ↦
    match o.value with
    | none => .error .invalidParameters
    | some key =>
      if infos.attributes.any (·.key = key) then
        .ok { infos with attributes := infos.attributes.eraseP (·.key = key) }
      else .error .notFound

/-- A modification handle is let go, with what was staged under it. -/
def modificationRelease (handle : GameHandle) : Sessions :=
  { s with modifications := s.modifications.release handle }

/-! ## The life of a session -/

/-- `generate_session_id`: 32 hexadecimal digits, or nothing when there was no randomness. -/
def generateSessionId (random : Option Bytes) : Bytes :=
  let digit (n : UInt8) : UInt8 := if n < 10 then '0'.toUInt8 + n else 'a'.toUInt8 + (n - 10)
  (random.getD []).flatMap fun (b : UInt8) ↦ [digit (b >>> 4), digit (b &&& 0xf)]

/-- The session a creating modification seats, under `newId`. -/
def SessionModificationObject.created (object : SessionModificationObject) (newId : Bytes) :
    Session where
  infos :=
    { object.infos with
      sessionId := newId
      ownerId := object.localUser
      state := sessionPending
      -- The host is in its own session, and registered.
      registeredPlayers := object.infos.registeredPlayers ++ [object.localUser] }.counted
  localUser := object.localUser
  localState := .hosting

/-- A session with a modification of it applied: the id, the state and the roster are the
session's own. -/
def Session.modified (entry : Session) (object : SessionModificationObject) : Session :=
  { entry with
    infos :=
      { object.infos with
        sessionId := entry.infos.sessionId
        state := entry.infos.state
        ownerId := if object.infos.ownerId = [] then entry.localUser else object.infos.ownerId
        registeredPlayers := entry.infos.registeredPlayers }.counted }

/-- `update_session` once it has its object: a result, and the table it leaves. -/
def commit (object : SessionModificationObject) (random : Option Bytes) : ResultCode × Sessions :=
  match object.creating, s.findByName object.sessionName with
  | true, some _ => (.sessionsSessionAlreadyExists, s)
  | true, none =>
    let newId :=
      if object.infos.sessionId = [] then generateSessionId random else object.infos.sessionId
    if newId = [] then (.unexpectedError, s)
    else (.success, s.setSession object.sessionName
      (SessionModificationObject.created object newId))
  | false, none => (.notFound, s)
  | false, some entry =>
    (.success, (s.setSession object.sessionName
      (Session.modified entry object)).broadcastSession object.sessionName)

/-- `EOS_Sessions_UpdateSession`: what was staged is committed, as a new session or over the one
there is. -/
def updateSession (options : UpdateSessionOptions) (random : Option Bytes) :
    UpdateSessionCallbackInfo × Sessions :=
  match s.modifications.find options.sessionModificationHandle with
  | none => ({ resultCode := .invalidParameters }, s)
  | some object =>
    if ¬ versionOk options.apiVersion sessionsApiLatest then
      ({ resultCode := .invalidParameters }, s)
    else
      let (resultCode, s) := s.commit object random
      ({ resultCode, sessionName := object.sessionName
         sessionId := ((s.findByName object.sessionName).map (·.infos.sessionId)).getD [] }, s)

/-- What the calls about one named session begin with. -/
def named (options : SessionNameOptions) : Except ResultCode (Bytes × Session) :=
  match options.sessionName with
  | none => .error .invalidParameters
  | some name =>
    if ¬ versionOk options.apiVersion sessionsApiLatest then .error .invalidParameters
    else match s.findByName name with
      | none => .error .notFound
      | some entry => .ok (name, entry)

/-- Destroying a session we host ends it for everyone; destroying one we merely joined is us
leaving, so we give the seat back instead. -/
def destroySession (options : SessionNameOptions) : ResultCode × Sessions :=
  match s.named options with
  | .error code => (code, s)
  | .ok (name, entry) =>
    let notice : SessionMessage :=
      if entry.localState = .hosting then .destroy { sessionId := entry.infos.sessionId }
      else .unregister { sessionId := entry.infos.sessionId, playerIds := [s.productUserId] }
    (.success, (s.sendToMembers name notice []).eraseSession name)

/-- The session in another state, broadcast. -/
def enter (name : Bytes) (entry : Session) (state : Int32) : Sessions :=
  (s.setSession name { entry with infos := { entry.infos with state } }).broadcastSession name

/-- The match begins, from a pending session or one that had ended. -/
def startSession (options : SessionNameOptions) : ResultCode × Sessions :=
  match s.named options with
  | .error code => (code, s)
  | .ok (name, entry) =>
    if entry.infos.state ≠ sessionPending ∧ entry.infos.state ≠ sessionEnded then
      (.invalidParameters, s)
    else (.success, s.enter name entry sessionInProgress)

/-- The match that is in progress ends. -/
def endSession (options : SessionNameOptions) : ResultCode × Sessions :=
  match s.named options with
  | .error code => (code, s)
  | .ok (name, entry) =>
    if entry.infos.state ≠ sessionInProgress then (.invalidParameters, s)
    else (.success, s.enter name entry sessionEnded)

/-! ## The players -/

/-- The loop of `register_players`: the roster, and the players that came onto it. -/
def registerEach (roster changed : List Bytes) : List (Option Bytes) → List Bytes × List Bytes
  | [] => (roster, changed)
  | none :: rest => registerEach roster changed rest
  | some player :: rest =>
    if player ∈ roster then registerEach roster changed rest
    else registerEach (roster ++ [player]) (changed ++ [player]) rest

/-- The loop of `unregister_players`: the roster, and the players that went off it. -/
def unregisterEach (roster changed : List Bytes) : List (Option Bytes) → List Bytes × List Bytes
  | [] => (roster, changed)
  | none :: rest => unregisterEach roster changed rest
  | some player :: rest =>
    if player ∈ roster then unregisterEach (roster.erase player) (changed ++ [player]) rest
    else unregisterEach roster changed rest

/-- What the two calls have in common: `each` is the loop, and `notice` tells the members. -/
def changePlayers (options : PlayersOptions) (latest : Int32)
    (each : List Bytes → List Bytes → List (Option Bytes) → List Bytes × List Bytes)
    (notice : SessionMembers → SessionMessage) : PlayersCallbackInfo × Sessions :=
  match options.sessionName, options.players with
  | some name, some players =>
    if ¬ versionOk options.apiVersion latest then ({ resultCode := .invalidParameters }, s)
    else match s.findByName name with
      | none => ({ resultCode := .notFound }, s)
      | some entry =>
        -- Only someone the session has registered may register anyone else.
        if s.productUserId ∉ entry.players then ({ resultCode := .sessionsNotAllowed }, s)
        else
          let (roster, changed) := each entry.players [] players
          let s := s.setSession name (entry.seat roster)
          if changed = [] then ({ resultCode := .noChange }, s)
          else
            ({ resultCode := .success, players := changed },
              s.sendToMembers name
                (notice { sessionId := entry.infos.sessionId, playerIds := changed }) [])
  | _, _ => ({ resultCode := .invalidParameters }, s)

/-- `EOS_Sessions_RegisterPlayers`: the players it names are seated. -/
def registerPlayers (options : PlayersOptions) : PlayersCallbackInfo × Sessions :=
  s.changePlayers options registerPlayersApiLatest registerEach .register

/-- `EOS_Sessions_UnregisterPlayers`: the players it names leave their seats. -/
def unregisterPlayers (options : PlayersOptions) : PlayersCallbackInfo × Sessions :=
  s.changePlayers options unregisterPlayersApiLatest unregisterEach .unregister

/-! ## Joining -/

/-- A match already under way is only joinable if the host said so. -/
def joinable (infos : SessionInfos) : Bool :=
  infos.state = sessionPending ∨ (infos.state = sessionInProgress ∧ infos.allowJoinInProgress)

/-- We do not decide whether we are in; the host does.  The result stays open until it answers. -/
def joinSession (options : JoinSessionOptions) (now : Nat) (address : ResultAddress) :
    ResultCode × Sessions :=
  match options.sessionName, s.details.find options.sessionHandle, options.localUserId with
  | some name, some found, some localUser =>
    if ¬ versionOk options.apiVersion joinSessionApiLatest ∨ name = [] then (.invalidParameters, s)
    else if (s.findByName name).isSome then (.sessionsSessionAlreadyExists, s)
    else if ¬ joinable found then (.sessionsNotAllowed, s)
    else
      let s := s.setSession name { infos := found, localUser, localState := .joining }
      let s := s.sendTo found.ownerId (.joinRequest { sessionId := found.sessionId })
      (.timedOut,
        { s with
          pendingJoins := s.pendingJoins.insert address
            { sessionId := found.sessionId, deadline := now + joinTimeout } })
  | _, _, _ => (.invalidParameters, s)

/-! ## Searching -/

/-- What a condition on one of the keys that are no attribute asks about the session itself, or
`none` for any other key. -/
def matchesKnownKey (infos : SessionInfos) (parameter : SearchParameter) : Option Bool :=
  let asked := parameter.attr
  let op := parameter.comparisonOp
  if asked.key = keyBucket then
    some (asked.valueType = attributeString ∧
      compareOrdered true (some (compare infos.bucketId asked.asString)) op)
  else if asked.key = keyEmptyOnly then some (infos.registeredPlayers.length ≤ 1)
  else if asked.key = keyNonemptyOnly then some (infos.registeredPlayers.length > 1)
  else if asked.key = keyMinSlots then
    -- An exact minimum means "at least".
    some (compareOrdered true (some (compare ((openSlotsOf infos).toNat : Int) asked.asInt64.toInt))
      (if op = 0 then 3 else op))
  else none

/-- One condition of a query: a key the interface knows, or an attribute the session has to have. -/
def matchesParameter (infos : SessionInfos) (parameter : SearchParameter) : Bool :=
  (matchesKnownKey infos parameter).getD
    (match infos.attributes.find? (·.key = parameter.attr.key) with
    | none => false
    | some mine => compareAttribute true mine parameter.attr parameter.comparisonOp)

/-- A session answers a query when it may be found at all and meets every condition. -/
def sessionMatches (infos : SessionInfos) (query : SessionSearch) : Bool :=
  infos.permissionLevel ≠ permissionInviteOnly ∧
    ¬ (infos.state = sessionInProgress ∧ ¬ infos.allowJoinInProgress) ∧
    (query.sessionId = [] ∨ infos.sessionId = query.sessionId) ∧
    (query.targetUserId = [] ∨ query.targetUserId ∈ infos.registeredPlayers) ∧
    query.parameters.all (matchesParameter infos)

/-- The sessions we host that answer a query, in the order of the table. -/
def hostedMatches (query : SessionSearch) : List SessionInfos :=
  (s.sessions.toList.filter fun p ↦
    p.2.localState = .hosting ∧ sessionMatches p.2.infos query).map fun p ↦ p.2.infos

/-- A search keeps at least one result, and no more than there may be. -/
def maxResultsOk (n : UInt32) : Bool := n ≠ 0 ∧ n.toNat ≤ maxSearchResults

/-- A handle for a search that asks nothing yet. -/
def createSessionSearch (o : Setting UInt32) : ResultCode × Option GameHandle × Sessions :=
  if ¬ versionOk o.apiVersion sessionsApiLatest ∨ ¬ maxResultsOk o.value then
    (.invalidParameters, none, s)
  else
    (.success, some s.nextHandle,
      { s with
        nextHandle := s.nextHandle + 1
        searches := s.searches.put s.nextHandle { maxResults := o.value } })

/-- What every call that sets up a search does. -/
def editSearch (handle : GameHandle) (version : Int32)
    (edit : SessionSearchObject → Except ResultCode SessionSearchObject) : ResultCode × Sessions :=
  match s.searches.find handle with
  | none => (.invalidParameters, s)
  | some object =>
    if ¬ versionOk version sessionsApiLatest then (.invalidParameters, s)
    else match edit object with
      | .error code => (code, s)
      | .ok object => (.success, { s with searches := s.searches.put handle object })

/-- An edit of the query only. -/
def editQuery (edit : SessionSearch → SessionSearch) (object : SessionSearchObject) :
    Except ResultCode SessionSearchObject := .ok { object with query := edit object.query }

/-- Ask for one session by its id. -/
def searchSetSessionId (handle : GameHandle) (o : Setting (Option Bytes)) : ResultCode × Sessions :=
  s.editSearch handle o.apiVersion fun object ↦
    match o.value with
    | none => .error .invalidParameters
    | some sessionId => editQuery (fun query ↦ { query with sessionId }) object

/-- Ask for the sessions a player is registered with. -/
def searchSetTargetUser (handle : GameHandle) (o : Setting (Option Bytes)) :
    ResultCode × Sessions :=
  s.editSearch handle o.apiVersion fun object ↦
    match o.value with
    | none => .error .invalidParameters
    | some targetUserId => editQuery (fun query ↦ { query with targetUserId }) object

/-- Two conditions on one key by one operator are one condition. -/
def sameCondition (key : Bytes) (op : Int32) (parameter : SearchParameter) : Bool :=
  parameter.attr.key = key ∧ parameter.comparisonOp = op

/-- The parameter in the place of the one for its key and operator, or at the end. -/
def setParameter (parameter : SearchParameter) : List SearchParameter → List SearchParameter
  | [] => [parameter]
  | first :: rest =>
    if sameCondition parameter.attr.key parameter.comparisonOp first then parameter :: rest
    else first :: setParameter parameter rest

/-- A condition is set once for each key and comparison. -/
def searchSetParameter (handle : GameHandle) (o : SearchParameterOptions) : ResultCode × Sessions :=
  s.editSearch handle o.apiVersion fun object ↦
    match readAttribute o.parameter with
    | none => .error .invalidParameters
    | some attr =>
      editQuery
        (fun query ↦ { query with
          parameters := setParameter { attr, comparisonOp := o.comparisonOp } query.parameters })
        object

/-- The condition under the key and the comparison goes; there has to be one. -/
def searchRemoveParameter (handle : GameHandle) (o : RemoveParameterOptions) :
    ResultCode × Sessions :=
  s.editSearch handle o.apiVersion fun object ↦
    match o.key with
    | none => .error .invalidParameters
    | some key =>
      if object.query.parameters.any (sameCondition key o.comparisonOp) then
        editQuery (fun query ↦ { query with
          parameters := query.parameters.eraseP (sameCondition key o.comparisonOp) }) object
      else .error .notFound

/-- How many results the search keeps. -/
def searchSetMaxResults (handle : GameHandle) (o : Setting UInt32) : ResultCode × Sessions :=
  s.editSearch handle o.apiVersion fun object ↦
    if ¬ maxResultsOk o.value then .error .invalidParameters
    else .ok { object with maxResults := o.value }

/-- A search asks something, and not two contradictory things at once. -/
def asksOneThing (query : SessionSearch) : Bool :=
  ¬ ((query.sessionId = [] ∧ query.targetUserId = [] ∧ query.parameters = []) ∨
    (query.sessionId ≠ [] ∧ query.targetUserId ≠ []))

/-- The number of a search, in decimal digits. -/
def searchIdOf (n : UInt64) : Bytes := (Nat.toDigits 10 n.toNat).map Char.toUInt8

/-- `find` once it has its object: our own hosted sessions, and a question to every peer. -/
def startSearch (handle : GameHandle) (object : SessionSearchObject) (now : Nat)
    (address : ResultAddress) : Sessions :=
  let query := { object.query with
    searchId := searchIdOf s.nextSearchId, maxResults := object.maxResults }
  let asked := s.mesh.peers.filter fun peer ↦ query.targetUserId = [] ∨ peer = query.targetUserId
  let object : SessionSearchObject :=
    { object with
      query, searching := true, awaiting := asked, deadline := now + searchTimeout
      results := (s.hostedMatches query).take object.maxResults.toNat }
  let s := asked.foldl (fun s peer ↦ s.sendTo peer (.search query)) s
  { s with
    nextSearchId := s.nextSearchId + 1
    searches := s.searches.put handle object
    pendingFinds := s.pendingFinds.insert address handle }

/-- `EOS_SessionSearch_Find`: the query goes to the peers, and the search waits for each that was
asked. -/
def searchFind (handle : GameHandle) (options : SearchFindOptions) (now : Nat)
    (address : ResultAddress) : ResultCode × Sessions :=
  match s.searches.find handle with
  | none => (.invalidParameters, s)
  | some object =>
    if ¬ versionOk options.apiVersion sessionSearchFindApiLatest ∨
        (options.apiVersion ≥ sessionSearchFindWithLocalUser ∧ options.localUserId = none) then
      (.invalidParameters, s)
    else if ¬ asksOneThing object.query then (.invalidParameters, s)
    else if object.searching then (.alreadyPending, s)
    else (.success, s.startSearch handle object now address)

/-- A handle on one result, once the search is over. -/
def searchCopyResult (handle : GameHandle) (o : Setting UInt32) :
    ResultCode × Option GameHandle × Sessions :=
  match s.searches.find handle with
  | none => (.invalidParameters, none, s)
  | some object =>
    if ¬ versionOk o.apiVersion sessionsApiLatest ∨ object.searching then
      (.invalidParameters, none, s)
    else match object.results[o.value.toNat]? with
      | none => (.invalidParameters, none, s)
      | some infos =>
        (.success, some s.nextHandle,
          { s with
            nextHandle := s.nextHandle + 1
            details := s.details.put s.nextHandle infos })

/-- A search still in flight has a result waiting on it. -/
def searchRelease (handle : GameHandle) : Sessions :=
  { s with
    pendingFinds := s.pendingFinds.filter fun _ waiting ↦ waiting ≠ handle
    searches := s.searches.release handle }

/-- A details handle is let go. -/
def detailsRelease (handle : GameHandle) : Sessions :=
  { s with details := s.details.release handle }

end Sessions
end EosMesh
