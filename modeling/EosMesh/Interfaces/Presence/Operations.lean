import EosMesh.Interfaces.Presence.State

/-!
# The presence interface

`interfaces/presence.cpp`: the calls a game makes, the messages of the other peers, and the tick.

* `Presence` holds the presence of each account, who speaks for an account (`epicOwner`), and the
  account that the key of each peer derives (`peerEpic`), which the router says when the peer
  connects.  A peer is heard on its own account and on no other.
* A game edits its presence behind a handle: what is staged is merged into the presence by a commit,
  and then told to everyone.  `PresenceModificationObject.merge` is the merge of the records.
* Every table is written before the first send of a handler or a call.  A send may lose peers, and
  the handler of a lost peer sends nothing; so the sends nest one deep, and `Presence.lose` is what
  a send does about a peer it lost.
* `Presence.onNetworkMessage` is the handler.  What it is told goes to `told` as well, which nothing
  in the interface reads: it is the record by which a run is compared with what arrived in it.
* `Presence.step` is the state machine: the router's word, the game's calls, and ticks.
-/

set_option autoImplicit false

namespace EosMesh

open Lib
open Std (TreeMap)

/-! ## Merging -/

/-- Adding a record, or overwriting the value of the first one with its key. -/
def setRecord (record : PresenceDataRecord) : List PresenceDataRecord → List PresenceDataRecord
  | [] => [record]
  | r :: records =>
    if r.key = record.key then { r with value := record.value } :: records
    else r :: setRecord record records

namespace PresenceModificationObject

variable (staged : PresenceModificationObject)

/-- The records a commit leaves: the removals come first. -/
def merge (records : List PresenceDataRecord) : List PresenceDataRecord :=
  staged.dataSet.foldl (fun records record ↦ setRecord record records)
    (staged.dataDeleted.foldl (fun records key ↦ records.filter (·.key ≠ key)) records)

/-- The status a commit leaves. -/
def statusOver (status : Int32) : Int32 := if staged.setStatus then staged.status else status

/-- What a commit makes of a presence, but for the check on the number of records. -/
def applyTo (self : PresenceInfo) : PresenceInfo :=
  { self with
    status := staged.statusOver self.status
    richText := if staged.setRichText then staged.richText else self.richText
    joinInfo := if staged.setJoinInfo then staged.joinInfo else self.joinInfo
    records := staged.merge self.records }

end PresenceModificationObject

namespace Presence

variable (s : Presence)

/-! ## Our own presence -/

/-- `"1.0"`, and the name of the platform the library is built for. -/
def productVersion : Bytes := ['1', '.', '0'].map Char.toUInt8
/-- What the platform is called here. -/
def platformName : Bytes := ['L', 'i', 'n', 'u', 'x'].map Char.toUInt8

/-- What our own presence starts as. -/
def seed : PresenceInfo where
  epicId := s.epicAccountId
  status := statusOnline
  productId := s.productId
  productName := s.productId
  productVersion := productVersion
  platform := platformName

/-- Our own presence is there from the start. -/
def seedMyself : Presence :=
  if s.epicAccountId = [] then s
  else { s with presences := s.presences.insert s.epicAccountId s.seed }

/-- The presence we hold of an account. -/
def findPresence (epicId : Bytes) : Option PresenceInfo := s.presences[epicId]?

/-! ## Sending -/

/-- The router's word on a peer. -/
def peerDisconnected (peer : Bytes) : NetEnvelope where
  typeTag := MessageType.peerDisconnected.tag
  sourceId := peer

/-- A peer that leaves takes its presence and its account bindings with it. -/
def onPeerDisconnected (peer : Bytes) : Presence :=
  { s with
    peerEpic := s.peerEpic.erase peer
    presences := s.presences.filter fun epic _ ↦ s.epicOwner[epic]? ≠ some peer
    epicOwner := s.epicOwner.filter fun _ owner ↦ owner ≠ peer }

/-- The router drops a peer, and says so. -/
def lose (peer : Bytes) : Presence :=
  if peer ∈ s.mesh.peers then
    { s with
      mesh := s.mesh.drop peer
      told := s.told ++ [peerDisconnected peer] }.onPeerDisconnected peer
  else s

/-- A message to one peer.  The peers the send loses are heard of before it returns. -/
def sendTo (peer : Bytes) (message : PresenceMessage) : Presence :=
  let (mesh, lost) := s.mesh.send peer message
  lost.foldl lose { s with mesh }

/-- To one peer, or to everyone when `toPeer` is empty. -/
def broadcastMyPresence (toPeer : Bytes) : Presence :=
  match s.findPresence s.epicAccountId with
  | none => s
  | some self =>
    (if toPeer ≠ [] then [toPeer] else s.mesh.peers).foldl
      (fun s peer ↦ s.sendTo peer (.info self)) s

/-! ## Calls -/

/-- `query_presence`: what it settles with, unless it has to wait for an answer. -/
def queryPresence (o : QueryPresenceOptions) (now : Nat) (address : ResultAddress) :
    Option ResultCode × Presence :=
  match o.localUserId, o.targetUserId with
  | some user, some target =>
    if ¬ versionOk o.apiVersion presenceApiLatest then (some .invalidParameters, s)
    else if user ≠ s.epicAccountId then (some .invalidUser, s)
    -- A query about someone whose presence we already hold settles at once.
    else if (s.findPresence target).isSome then (some .success, s)
    else
      let query := { localId := user, targetId := target, deadline := now + queryTimeout }
      let s := { s with pendingQueries := s.pendingQueries.insert address query }
      (none, s.mesh.peers.foldl (fun s peer ↦ s.sendTo peer (.request ⟨target⟩)) s)
  | _, _ => (some .invalidParameters, s)

/-- A handle to edit our own presence with. -/
def createPresenceModification (version : Int32) (localUserId : Option Bytes) :
    ResultCode × Option GameHandle × Presence :=
  match localUserId with
  | none => (.invalidParameters, none, s)
  | some user =>
    if ¬ versionOk version presenceApiLatest then (.invalidParameters, none, s)
    else if user ≠ s.epicAccountId then (.invalidUser, none, s)
    else
      (.success, some s.nextHandle,
        { s with
          nextHandle := s.nextHandle + 1
          modifications := s.modifications.put s.nextHandle {} })

/-- Our own presence may not be there yet. -/
def withSelf (user : Bytes) : Presence := if (s.findPresence user).isSome then s else s.seedMyself

/-- `EOS_Presence_SetPresence`: what was staged is committed, and told to everybody. -/
def setPresence (o : SetPresenceOptions) : ResultCode × Presence :=
  match o.localUserId with
  | none => (.invalidParameters, s)
  | some user =>
    if ¬ versionOk o.apiVersion presenceApiLatest then (.invalidParameters, s)
    else if user ≠ s.epicAccountId then (.invalidUser, s)
    else match s.modifications.find o.presenceModificationHandle with
      | none => (.invalidParameters, s)
      | some staged =>
        let s := s.withSelf user
        match s.findPresence user with
        | none => (.success, s)
        | some self =>
          -- Too many records are more than a peer can decode, so nothing is changed then.
          if (staged.merge self.records).length > maxDataKeys then (.limitExceeded, s)
          else
            (.success,
              { s with
                presences := s.presences.insert user (staged.applyTo self) }.broadcastMyPresence [])

/-! ### Setters -/

/-- What every setter does: it finds the object, checks the version and edits what is staged. -/
def modify (handle : GameHandle) (version : Int32)
    (edit : PresenceModificationObject → Except ResultCode PresenceModificationObject) :
    ResultCode × Presence :=
  match s.modifications.find handle with
  | none => (.invalidParameters, s)
  | some staged =>
    if ¬ versionOk version presenceApiLatest then (.invalidParameters, s)
    else match edit staged with
      | .error code => (code, s)
      | .ok staged => (.success, { s with modifications := s.modifications.put handle staged })

/-- Stage another status, which nobody checks. -/
def modificationSetStatus (handle : GameHandle) (o : Setting Int32) : ResultCode × Presence :=
  s.modify handle o.apiVersion fun staged ↦
    .ok { staged with setStatus := true, status := o.value }

/-- Stage another rich text, of bounded length. -/
def modificationSetRawRichText (handle : GameHandle) (o : Setting (Option Bytes)) :
    ResultCode × Presence :=
  s.modify handle o.apiVersion fun staged ↦
    match o.value with
    | none => .error .invalidParameters
    | some text =>
      if h : text.length > maxRichTextLength then .error .limitExceeded
      else .ok
        { staged with setRichText := true, richText := text, richTextFits := Nat.le_of_not_lt h }

/-- The records of `SetData`, each within the limits. -/
def readRecords : List DataRecordArg →
    Except ResultCode { records : List PresenceDataRecord //
      ∀ record ∈ records, recordWithinCaps record = true }
  | [] => .ok ⟨[], by simp⟩
  | { key := some key, value := some value } :: args =>
    if h : recordWithinCaps { key, value } = true then
      match readRecords args with
      | .error code => .error code
      | .ok ⟨records, hrecords⟩ =>
        .ok ⟨{ key, value } :: records, List.forall_mem_cons.2 ⟨h, hrecords⟩⟩
    else .error .limitExceeded
  | _ :: _ => .error .invalidParameters

/-- The checks `SetData` and `DeleteData` make on their array. -/
def checkArray {α : Type} (o : ArrayOptions α) : Except ResultCode (List α) :=
  if o.recordsCount > 0 ∧ o.records = none then .error .invalidParameters
  else if o.recordsCount < 0 ∨ o.recordsCount.toInt > maxDataKeys then .error .limitExceeded
  else .ok o.read

/-- Only touches the staged records once every input has passed. -/
def modificationSetData (handle : GameHandle) (o : ArrayOptions DataRecordArg) :
    ResultCode × Presence :=
  s.modify handle o.apiVersion fun staged ↦
    match checkArray o with
    | .error code => .error code
    | .ok args =>
      match readRecords args with
      | .error code => .error code
      | .ok ⟨records, hrecords⟩ =>
        .ok { staged with
          dataSet := staged.dataSet ++ records
          dataSetFits := List.forall_mem_append.2 ⟨staged.dataSetFits, hrecords⟩ }

/-- Stage that the records under some keys go. -/
def modificationDeleteData (handle : GameHandle) (o : ArrayOptions (Option Bytes)) :
    ResultCode × Presence :=
  s.modify handle o.apiVersion fun staged ↦
    match checkArray o with
    | .error code => .error code
    | .ok keys =>
      if none ∈ keys then .error .invalidParameters
      else .ok { staged with dataDeleted := staged.dataDeleted ++ keys.filterMap id }

/-- No text clears it: that is how a game says it is no longer joinable. -/
def modificationSetJoinInfo (handle : GameHandle) (o : Setting (Option Bytes)) :
    ResultCode × Presence :=
  s.modify handle o.apiVersion fun staged ↦
    let info := o.value.getD []
    if h : info.length > maxJoinInfoLength then .error .limitExceeded
    else .ok
      { staged with setJoinInfo := true, joinInfo := info, joinInfoFits := Nat.le_of_not_lt h }

/-- `SetTemplateId` and `SetTemplateData`: accepted, with nothing to store. -/
def modificationSetTemplate (handle : GameHandle) (o : Setting (Option Bytes)) :
    ResultCode × Presence :=
  s.modify handle o.apiVersion fun staged ↦
    match o.value with
    | none => .error .invalidParameters
    | some _ => .ok staged

/-- A modification handle is let go, with what was staged under it. -/
def modificationRelease (handle : GameHandle) : Presence :=
  { s with modifications := s.modifications.release handle }

/-! ## Messages -/

/-- A peer we just met has never heard our presence; tell it.  The account it may speak for is the
router's word, and not its own. -/
def onPeerConnected (message : NetEnvelope) : Presence :=
  let s :=
    if message.payload = [] then s
    else { s with peerEpic := s.peerEpic.insert message.sourceId message.payload }
  if message.gameId = [] ∨ message.gameId = s.productId then s.broadcastMyPresence message.sourceId
  else s

/-- Only the owner of the account answers for it. -/
def onRequest (source : Bytes) (payload : Bytes) : Presence :=
  match PresenceRequest.deserialize.run payload with
  | none => s
  | some (request, _) =>
    if request.targetEpicId = s.epicAccountId then s.broadcastMyPresence source else s

/-- `!presence_equal`, when there is something to compare with. -/
def isChange (incoming : PresenceInfo) : Bool :=
  (s.findPresence incoming.epicId).all fun existing ↦ ¬ existing = incoming

/-- Storing a presence that passed every check. -/
def store (source : Bytes) (incoming : PresenceInfo) : Presence :=
  { s with
    epicOwner := s.epicOwner.insert incoming.epicId source
    presences := s.presences.insert incoming.epicId incoming
    changed := if s.isChange incoming then s.changed ++ [incoming.epicId] else s.changed
    -- A query waiting on this account is settled, changed or not.
    pendingQueries := s.pendingQueries.map fun _ query ↦
      if query.targetId = incoming.epicId then { query with done := true } else query }

/-- A peer speaks only for its own account, and which account that is is not up to it. -/
def onInfo (source : Bytes) (payload : Bytes) : Presence :=
  match PresenceInfo.deserialize.run payload with
  | none => s
  | some (incoming, _) =>
    if incoming.epicId = [] ∨ incoming.epicId = s.epicAccountId then s
    else if ¬ presenceWithinCaps incoming then s
    else if s.peerEpic[source]? ≠ some incoming.epicId then s
    else s.store source incoming

/-- A message of the mesh, as it comes.  Our own, and one without a sender, do nothing. -/
def onNetworkMessage (message : NetEnvelope) : Presence :=
  if message.sourceId = [] ∨ message.sourceId = s.productUserId then s
  else if message.typeTag = MessageType.peerConnected.tag then s.onPeerConnected message
  else if message.typeTag = MessageType.peerDisconnected.tag then
    s.onPeerDisconnected message.sourceId
  -- A different game's presence is not ours to cache or answer.
  else if message.gameId ≠ s.productId then s
  else if message.typeTag = MessageType.presenceRequest.tag then
    s.onRequest message.sourceId message.payload
  else if message.typeTag = MessageType.presenceInfo.tag then
    s.onInfo message.sourceId message.payload
  else s

/-! ## The tick -/

/-- `run_callbacks` and `free_callback`: a query that is done, or timed out, is delivered. -/
def collect (address : ResultAddress) (now : Nat) : Presence :=
  match s.pendingQueries[address]? with
  | none => s
  | some query =>
    if query.done ∨ now > query.deadline then
      { s with pendingQueries := s.pendingQueries.erase address }
    else s

/-! ## The machine -/

/-- A call the game makes. -/
inductive Call
  | queryPresence (o : QueryPresenceOptions) (now : Nat) (address : ResultAddress)
  | createPresenceModification (version : Int32) (localUserId : Option Bytes)
  | setPresence (o : SetPresenceOptions)
  | modificationSetStatus (handle : GameHandle) (o : Setting Int32)
  | modificationSetRawRichText (handle : GameHandle) (o : Setting (Option Bytes))
  | modificationSetData (handle : GameHandle) (o : ArrayOptions DataRecordArg)
  | modificationDeleteData (handle : GameHandle) (o : ArrayOptions (Option Bytes))
  | modificationSetJoinInfo (handle : GameHandle) (o : Setting (Option Bytes))
  | modificationSetTemplate (handle : GameHandle) (o : Setting (Option Bytes))
  | modificationRelease (handle : GameHandle)
  deriving DecidableEq, Repr

/-- The state after a call. -/
def call : Call → Presence
  | .queryPresence o now address => (s.queryPresence o now address).2
  | .createPresenceModification version user => (s.createPresenceModification version user).2.2
  | .setPresence o => (s.setPresence o).2
  | .modificationSetStatus h o => (s.modificationSetStatus h o).2
  | .modificationSetRawRichText h o => (s.modificationSetRawRichText h o).2
  | .modificationSetData h o => (s.modificationSetData h o).2
  | .modificationDeleteData h o => (s.modificationDeleteData h o).2
  | .modificationSetJoinInfo h o => (s.modificationSetJoinInfo h o).2
  | .modificationSetTemplate h o => (s.modificationSetTemplate h o).2
  | .modificationRelease h => s.modificationRelease h

/-- The router's word that a peer is there, with the account its key derives and the game it
runs. -/
def peerConnected (peer epic gameId : Bytes) : NetEnvelope where
  typeTag := MessageType.peerConnected.tag
  sourceId := peer
  gameId := gameId
  payload := epic

/-- No other peer that is connected was announced with the account. -/
def epicFree (epic : Bytes) : Bool :=
  epic = [] ∨ s.mesh.peers.all fun peer ↦ ¬ s.peerEpic[peer]? = some epic

/-- Whether a message is the router's own word on who is there. -/
def isLifecycle (message : NetEnvelope) : Bool :=
  message.typeTag = MessageType.peerConnected.tag ∨
    message.typeTag = MessageType.peerDisconnected.tag

/-- What happens to an instance. -/
inductive Input
  /-- A peer joins, with the account its key derives and the game it runs. -/
  | connect (peer epic gameId : Bytes)
  /-- A peer leaves. -/
  | disconnect (peer : Bytes)
  /-- A peer sends something. -/
  | receive (message : NetEnvelope)
  | call (c : Call)
  | collect (address : ResultAddress) (now : Nat)
  deriving DecidableEq, Repr

/-- Whose doing an input is, unless it is the game's. -/
def Input.source : Input → Option Bytes
  | .connect peer _ _ => some peer
  | .disconnect peer => some peer
  | .receive message => some message.sourceId
  | .call _ | .collect _ _ => none

/-- The router tells the interface something. -/
def hear (message : NetEnvelope) : Presence :=
  { s with told := s.told ++ [message] }.onNetworkMessage message

/-- A peer joins only once, and not we ourselves; only one that is there leaves, and sends. -/
def step : Input → Option Presence
  | .connect peer epic gameId =>
    if peer = [] ∨ peer = s.productUserId ∨ peer ∈ s.mesh.peers ∨ ¬ s.epicFree epic then none
    else some ({ s with mesh := { s.mesh with peers := s.mesh.peers ++ [peer] } }.hear
      (peerConnected peer epic gameId))
  | .disconnect peer => if peer ∈ s.mesh.peers then some (s.lose peer) else none
  | .receive message =>
    if message.sourceId ∉ s.mesh.peers ∨ isLifecycle message then none else some (s.hear message)
  | .call c => some (s.call c)
  | .collect address now => some (s.collect address now)

/-- An instance at `emu_init`, over a router that will lose the peers of `losses`. -/
def start (epic user product : Bytes) (losses : List (List Bytes)) : Presence :=
  seedMyself
    { epicAccountId := epic, productUserId := user, productId := product
      mesh := { losses } }

end Presence
end EosMesh
