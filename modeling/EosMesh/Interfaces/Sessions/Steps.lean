import EosMesh.Interfaces.Sessions.Handlers
import EosMesh.Lib.Run

/-!
# What one step can do to a session

An instance takes calls of its game, messages of its peers and ticks; around it, peers come and go
and the next sends turn out one way or another.  `Sessions.step` is that, for every input there is,
and nothing outside the step changes an instance.

The functions of the interface nest: a send may lose peers, each of them is off every roster before
the send returns, and what the call does next it does to what is left.  It would be hopeless to go
through them once for every invariant.  So `tableStep_of_step` goes through them once, and says what
a step can make of each entry of the table: nothing, or one of the edits of `Sessions.EntryStep`,
and after it the peers that were lost on the way are off the roster.  Every invariant of the table
is a case analysis on `EntryStep`.

* `Reads` is a message that the interface reads at all.
* `EntryStep` has one case for each place of the source where an entry is written, with the guards
  that stand before it there.
* `without` is an entry once some peers are gone, `Lost` and `LostFrom` the same of an instance, and
  `wasLost` the peers of whom that is true in a step: those that were reached and are reached no
  more, and the one that the step hears is gone.
* `TableStep` puts these together; `TableStep.of_set` and `TableStep.of_erase` are its two shapes.
-/

set_option autoImplicit false

namespace EosMesh

open Lib
open Std (TreeMap)

/-! ## Losing peers -/

namespace Session

/-- The session once some peers are gone, one after the other. -/
def without (entry : Session) (gone : List Bytes) : Session :=
  gone.foldl (fun entry peer ↦ entry.seat (entry.players.erase peer)) entry

variable (entry : Session)

@[simp] theorem without_nil : entry.without [] = entry := rfl

theorem without_cons (peer : Bytes) (gone : List Bytes) :
    entry.without (peer :: gone) = (entry.seat (entry.players.erase peer)).without gone := rfl

theorem without_append (gone gone' : List Bytes) :
    entry.without (gone ++ gone') = (entry.without gone).without gone' := List.foldl_append

@[simp] theorem seat_players (players : List Bytes) : (entry.seat players).players = players := rfl

@[simp] theorem seat_localState (players : List Bytes) :
    (entry.seat players).localState = entry.localState := rfl

@[simp] theorem seat_localUser (players : List Bytes) :
    (entry.seat players).localUser = entry.localUser := rfl

/-- Everything of a session but its roster and its open slots. -/
def frame (entry : Session) : Session :=
  { entry with infos := { entry.infos with registeredPlayers := [], openSlots := 0 } }

@[simp] theorem frame_seat (players : List Bytes) : (entry.seat players).frame = entry.frame := rfl

@[simp] theorem frame_without (gone : List Bytes) : (entry.without gone).frame = entry.frame := by
  induction gone generalizing entry with
  | nil => rfl
  | cons peer gone ih => rw [without_cons, ih, frame_seat]

/-- What the frame of a session determines. -/
theorem eq_of_frame_eq {α : Type} (f : Session → α) (hf : ∀ e : Session, f e.frame = f e)
    {e e' : Session} (h : e.frame = e'.frame) : f e = f e' := by
  rw [← hf, h, hf]

variable (gone : List Bytes)

@[simp] theorem without_localState : (entry.without gone).localState = entry.localState :=
  eq_of_frame_eq Session.localState (fun _ ↦ rfl) (frame_without entry gone)

@[simp] theorem without_localUser : (entry.without gone).localUser = entry.localUser :=
  eq_of_frame_eq Session.localUser (fun _ ↦ rfl) (frame_without entry gone)

@[simp] theorem without_sessionId : (entry.without gone).infos.sessionId = entry.infos.sessionId :=
  eq_of_frame_eq (·.infos.sessionId) (fun _ ↦ rfl) (frame_without entry gone)

@[simp] theorem without_ownerId : (entry.without gone).infos.ownerId = entry.infos.ownerId :=
  eq_of_frame_eq (·.infos.ownerId) (fun _ ↦ rfl) (frame_without entry gone)

@[simp] theorem without_maxPlayers :
    (entry.without gone).infos.maxPlayers = entry.infos.maxPlayers :=
  eq_of_frame_eq (·.infos.maxPlayers) (fun _ ↦ rfl) (frame_without entry gone)

theorem without_players : (entry.without gone).players = gone.foldl List.erase entry.players := by
  induction gone generalizing entry with
  | nil => rfl
  | cons peer gone ih => rw [without_cons, ih, seat_players, List.foldl_cons]

end Session

namespace Sessions

variable {s s' s'' : Sessions}

/-- `s'` is `s` once the peers `gone` were lost, whatever was sent. -/
structure LostFrom (gone : List Bytes) (s s' : Sessions) : Prop where
  lookup : ∀ name : Bytes, s'.sessions[name]? = s.sessions[name]?.map (Session.without · gone)
  rest : s' = { s with sessions := s'.sessions, mesh := s'.mesh }
  peers : s'.mesh.peers ⊆ s.mesh.peers

/-- Some of the peers we could reach were lost. -/
def Lost (s s' : Sessions) : Prop := ∃ gone : List Bytes,
  (∀ peer ∈ gone, peer ∈ s.mesh.peers ∧ peer ∉ s'.mesh.peers) ∧ LostFrom gone s s'

theorem LostFrom.trans {gone gone' : List Bytes} (h : LostFrom gone s s')
    (h' : LostFrom gone' s' s'') : LostFrom (gone ++ gone') s s'' where
  lookup name := by
    rw [h'.lookup, h.lookup, Option.map_map]
    congr 1
    funext entry
    exact (Session.without_append entry gone gone').symm
  rest := by rw [h'.rest, h.rest]
  peers := List.Subset.trans h'.peers h.peers

theorem Lost.trans (h : Lost s s') (h' : Lost s' s'') : Lost s s'' := by
  obtain ⟨gone, hgone, h⟩ := h
  obtain ⟨gone', hgone', h'⟩ := h'
  refine ⟨_, fun peer hpeer ↦ ?_, h.trans h'⟩
  rcases List.mem_append.1 hpeer with hpeer | hpeer
  · exact ⟨(hgone peer hpeer).1, fun hin ↦ (hgone peer hpeer).2 (h'.peers hin)⟩
  · exact ⟨h.peers (hgone' peer hpeer).1, (hgone' peer hpeer).2⟩

/-- Nothing happened but on the mesh. -/
theorem lost_mesh {mesh : Mesh SessionMessage} (h : mesh.peers ⊆ s.mesh.peers) :
    Lost s { s with mesh } :=
  ⟨[], by simp, fun name ↦ by simp, rfl, h⟩

theorem Lost.refl (s : Sessions) : Lost s s := lost_mesh (List.Subset.refl _)

theorem lost_onPeerDisconnected (s : Sessions) (peer : Bytes) :
    LostFrom [peer] s (s.onPeerDisconnected peer) where
  lookup name := by
    rw [onPeerDisconnected]
    exact TreeMap.getElem?_map
  rest := rfl
  peers := List.Subset.refl _

theorem lost_lose (s : Sessions) (peer : Bytes) : Lost s (s.lose peer) := by
  rw [lose]
  split
  · rename_i hpeer
    have hdrop : LostFrom [] s { s with mesh := s.mesh.drop peer } :=
      ⟨fun name ↦ by simp, rfl, List.filter_subset_self _⟩
    refine ⟨_, fun p hp ↦ ?_, hdrop.trans (lost_onPeerDisconnected _ peer)⟩
    obtain rfl : p = peer := by simpa using hp
    exact ⟨hpeer, by simp [onPeerDisconnected, Mesh.drop]⟩
  · exact .refl s

theorem lost_sendTo (s : Sessions) (peer : Bytes) (message : SessionMessage) :
    Lost s (s.sendTo peer message) := by
  have hall (lost : List Bytes) (s : Sessions) : Lost s (lost.foldl lose s) := by
    induction lost generalizing s with
    | nil => exact .refl s
    | cons peer lost ih => exact (lost_lose s peer).trans (ih _)
  have hpeers : (s.mesh.send peer message).1.peers ⊆ s.mesh.peers := by
    rw [Mesh.send_peers]
    exact List.Subset.refl _
  exact (lost_mesh hpeers).trans (hall _ _)

theorem lost_sendToMembers (s : Sessions) (name : Bytes) (message : SessionMessage)
    (except : Bytes) : Lost s (s.sendToMembers name message except) :=
  fanOut_relates .refl (fun _ _ _ h ↦ h.trans (lost_sendTo _ _ _)) s

theorem lost_broadcastSession (s : Sessions) (name : Bytes) : Lost s (s.broadcastSession name) := by
  rw [broadcastSession]
  split
  · exact .refl s
  · exact lost_sendToMembers _ _ _ _

/-! ## Steps -/

/-- Where the result of a call that stays open is allocated. -/
def Call.address? : Call → Option ResultAddress
  | .joinSession _ _ address => some address
  | .searchFind _ _ _ address => some address
  | _ => none

/-- Nothing else is at the address. -/
def freshAt (s : Sessions) (address : ResultAddress) : Bool :=
  (s.pendingFinds[address]?).isNone ∧ (s.pendingJoins[address]?).isNone

/-- What happens to an instance. -/
inductive Input
  | call (c : Call)
  | receive (message : NetEnvelope)
  | collect (address : ResultAddress) (now : Nat)
  /-- Around it: whom it can reach, whom Connect has met, and how the next sends turn out. -/
  | around (peers known : List Bytes) (losses : List (List Bytes))
  deriving DecidableEq, Repr

/-- One thing that happens to an instance. -/
def step (s : Sessions) : Input → Option Sessions
  | .call c => if c.address?.all s.freshAt then some (s.call c).2 else none
  | .receive message => some (s.onNetworkMessage message)
  | .collect address now => some (s.collect address now)
  | .around peers known losses => some { s with known, mesh := { peers, losses, sent := [] } }

/-- A message of another peer that the interface reads as `msg`. -/
structure Reads (s : Sessions) (message : NetEnvelope) (msg : SessionMessage) : Prop where
  named : message.sourceId ≠ []
  other : message.sourceId ≠ s.productUserId
  read : SessionMessage.read message.typeTag message.payload = some msg

/-- What a step can make of the entry called `name`, but for the peers it loses. -/
inductive EntryStep (s : Sessions) : Input → Bytes → Option Session → Option Session → Prop
  | same {i : Input} {name : Bytes} {entry : Option Session} : EntryStep s i name entry entry
  | created {o : UpdateSessionOptions} {random : Option Bytes} {object : SessionModificationObject}
      {newId : Bytes} (hobject : s.modifications.find o.sessionModificationHandle = some object)
      (hversion : versionOk o.apiVersion sessionsApiLatest = true)
      (hcreating : object.creating = true)
      (hid : newId =
        if object.infos.sessionId = [] then generateSessionId random else object.infos.sessionId)
      (hne : newId ≠ []) :
      EntryStep s (.call (.updateSession o random)) object.sessionName none
        (some (SessionModificationObject.created object newId))
  | modified {o : UpdateSessionOptions} {random : Option Bytes} {object : SessionModificationObject}
      {entry : Session} (hobject : s.modifications.find o.sessionModificationHandle = some object)
      (hcreating : object.creating = false) :
      EntryStep s (.call (.updateSession o random)) object.sessionName (some entry)
        (some (Session.modified entry object))
  | destroyed {o : SessionNameOptions} {name : Bytes} {entry : Session}
      (hname : o.sessionName = some name) :
      EntryStep s (.call (.destroySession o)) name (some entry) none
  | started {o : SessionNameOptions} {name : Bytes} {entry : Session}
      (hname : o.sessionName = some name)
      (hstate : entry.infos.state = sessionPending ∨ entry.infos.state = sessionEnded) :
      EntryStep s (.call (.startSession o)) name (some entry)
        (some { entry with infos := { entry.infos with state := sessionInProgress } })
  | ended {o : SessionNameOptions} {name : Bytes} {entry : Session}
      (hname : o.sessionName = some name) (hstate : entry.infos.state = sessionInProgress) :
      EntryStep s (.call (.endSession o)) name (some entry)
        (some { entry with infos := { entry.infos with state := sessionEnded } })
  | registered {o : PlayersOptions} {name : Bytes} {entry : Session} {players : List (Option Bytes)}
      (hname : o.sessionName = some name) (hplayers : o.players = some players)
      (hself : s.productUserId ∈ entry.players) :
      EntryStep s (.call (.registerPlayers o)) name (some entry)
        (some (entry.seat (registerEach entry.players [] players).1))
  | unregistered {o : PlayersOptions} {name : Bytes} {entry : Session}
      {players : List (Option Bytes)} (hname : o.sessionName = some name)
      (hplayers : o.players = some players) (hself : s.productUserId ∈ entry.players) :
      EntryStep s (.call (.unregisterPlayers o)) name (some entry)
        (some (entry.seat (unregisterEach entry.players [] players).1))
  | joining {o : JoinSessionOptions} {now : Nat} {address : ResultAddress} {name localUser : Bytes}
      {found : SessionInfos} (hname : o.sessionName = some name)
      (hfound : s.details.find o.sessionHandle = some found)
      (huser : o.localUserId = some localUser)
      (hversion : versionOk o.apiVersion joinSessionApiLatest = true) (hne : name ≠ [])
      (hjoinable : joinable found = true) :
      EntryStep s (.call (.joinSession o now address)) name none
        (some { infos := found, localUser, localState := .joining })
  | admitted {message : NetEnvelope} {request : SessionJoinRequest} {name : Bytes} {entry : Session}
      (hreads : Reads s message (.joinRequest request))
      (hfound : s.findById request.sessionId = some (name, entry))
      (hhosting : entry.localState = .hosting) (hknown : message.sourceId ∈ s.known)
      (hnew : message.sourceId ∉ entry.players)
      (hroom : entry.players.length < entry.infos.maxPlayers.toNat) :
      EntryStep s (.receive message) name (some entry)
        (some (entry.seat (entry.players ++ [message.sourceId])))
  | told {message : NetEnvelope} {answer : SessionJoinResponse} {name : Bytes} {entry : Session}
      (hreads : Reads s message (.joinResponse answer))
      (hfound : s.findById answer.sessionId = some (name, entry))
      (howner : message.sourceId = entry.infos.ownerId)
      (hplayer : answer.playerId ≠ s.productUserId) (hnew : answer.playerId ∉ entry.players) :
      EntryStep s (.receive message) name (some entry)
        (some (entry.seat (entry.players ++ [answer.playerId])))
  | accepted {message : NetEnvelope} {answer : SessionJoinResponse} {name : Bytes} {entry : Session}
      (hreads : Reads s message (.joinResponse answer))
      (hfound : s.findById answer.sessionId = some (name, entry))
      (howner : message.sourceId = entry.infos.ownerId)
      (hplayer : answer.playerId = s.productUserId)
      (hwaiting : (s.waitingFor answer.sessionId).isSome = true) :
      EntryStep s (.receive message) name (some entry)
        (some { entry.seat (if s.productUserId ∈ entry.players then entry.players
          else entry.players ++ [s.productUserId]) with localState := .joined })
  | refused {message : NetEnvelope} {answer : SessionJoinResponse} {name : Bytes} {entry : Session}
      (hreads : Reads s message (.joinResponse answer))
      (hfound : s.findById answer.sessionId = some (name, entry))
      (howner : message.sourceId = entry.infos.ownerId) (hjoining : entry.localState = .joining) :
      EntryStep s (.receive message) name (some entry) none
  | rewritten {message : NetEnvelope} {infos : SessionInfos} {name : Bytes} {entry : Session}
      (hreads : Reads s message (.infos infos))
      (hfound : s.findById infos.sessionId = some (name, entry))
      (hcopy : entry.localState ≠ .hosting) (howner : entry.infos.ownerId = message.sourceId) :
      EntryStep s (.receive message) name (some entry) (some { entry with infos })
  | closed {message : NetEnvelope} {notice : SessionDestroy} {name : Bytes} {entry : Session}
      (hreads : Reads s message (.destroy notice))
      (hcopy : entry.localState ≠ .hosting) (howner : entry.infos.ownerId = message.sourceId) :
      EntryStep s (.receive message) name (some entry) none
  | noticed {message : NetEnvelope} {adding : Bool} {notice : SessionMembers} {name : Bytes}
      {entry : Session}
      (hreads : Reads s message (if adding then .register notice else .unregister notice))
      (hfound : s.findById notice.sessionId = some (name, entry))
      (hmay : mayNotice adding message.sourceId entry notice = true) :
      EntryStep s (.receive message) name (some entry)
        (some (entry.seat (notice.playerIds.foldl (noticePlayer adding entry.infos) entry.players)))
  | expired {address : ResultAddress} {now : Nat} {waiting : PendingSessionJoin} {name : Bytes}
      {entry : Session} (hwaiting : s.pendingJoins[address]? = some waiting)
      (hlate : now > waiting.deadline)
      (hfound : s.findById waiting.sessionId = some (name, entry))
      (hjoining : entry.localState = .joining) :
      EntryStep s (.collect address now) name (some entry) none

/-! ## What each of them makes of the table -/

/-- The peers a step loses: those that were reached and are reached no more, and the one it hears is
gone. -/
def wasLost (s : Sessions) (i : Input) (s' : Sessions) (peer : Bytes) : Prop :=
  (peer ∈ s.mesh.peers ∧ peer ∉ s'.mesh.peers) ∨ ∃ message, i = .receive message ∧
    message.typeTag = MessageType.peerDisconnected.tag ∧ message.sourceId = peer ∧
    peer ≠ [] ∧ peer ≠ s.productUserId

/-- The peers a step lets us reach. -/
def Input.brings : Input → List Bytes
  | .around peers _ _ => peers
  | _ => []

/-- What a step makes of an instance: every entry of the table went through one of its edits, and
some peers are gone. -/
structure TableStep (s : Sessions) (i : Input) (s' : Sessions) : Prop where
  entries : ∃ gone : List Bytes, (∀ peer ∈ gone, wasLost s i s' peer) ∧
    ∀ name : Bytes, ∃ edited, EntryStep s i name s.sessions[name]? edited ∧
      s'.sessions[name]? = edited.map (Session.without · gone)
  self : s'.productUserId = s.productUserId
  peers : ∀ peer ∈ s'.mesh.peers, peer ∈ s.mesh.peers ∨ peer ∈ i.brings

/-- The table, the mesh, and who we are. -/
def core (s : Sessions) : Sessions :=
  { productUserId := s.productUserId, productId := s.productId, known := s.known, mesh := s.mesh
    sessions := s.sessions }

theorem core_eq_iff : s'.core = s.core ↔ s'.productUserId = s.productUserId ∧
    s'.productId = s.productId ∧ s'.known = s.known ∧ s'.mesh = s.mesh ∧
    s'.sessions = s.sessions := by
  simp [core]

variable {i : Input} {name : Bytes}

theorem TableStep.of_lost (h : Lost s s') (hs'' : s''.core = s'.core) : TableStep s i s'' := by
  obtain ⟨gone, hgone, hlost⟩ := h
  obtain ⟨hself, -, -, hmesh, hsessions⟩ := core_eq_iff.1 hs''
  refine ⟨⟨gone, fun peer hpeer ↦ .inl (hmesh ▸ hgone peer hpeer), fun name ↦ ⟨_, .same, ?_⟩⟩, ?_,
    fun peer hpeer ↦ .inl (hlost.peers (hmesh ▸ hpeer))⟩
  · rw [hsessions, hlost.lookup]
  · rw [hself, hlost.rest]

theorem TableStep.of_core_eq (h : s'.core = s.core) : TableStep s i s' :=
  .of_lost (.refl s) h

/-- One entry is written, and then some peers are lost. -/
theorem TableStep.of_set {entry : Session}
    (hentry : EntryStep s i name s.sessions[name]? (some entry))
    (h : Lost (s.setSession name entry) s') (hs'' : s''.core = s'.core) : TableStep s i s'' := by
  obtain ⟨gone, hgone, hlost⟩ := h
  obtain ⟨hself, -, -, hmesh, hsessions⟩ := core_eq_iff.1 hs''
  refine ⟨⟨gone, fun peer hpeer ↦ .inl (hmesh ▸ hgone peer hpeer), fun name' ↦ ?_⟩, ?_,
    fun peer hpeer ↦ .inl (hlost.peers (hmesh ▸ hpeer))⟩
  · rw [hsessions, hlost.lookup, setSession, lookup_insert]
    by_cases hname : name = name'
    · subst hname
      exact ⟨_, hentry, by simp⟩
    · exact ⟨_, .same, by simp [hname]⟩
  · rw [hself, hlost.rest]
    rfl

/-- Some peers are lost, and then one entry is erased. -/
theorem TableStep.of_erase (hentry : EntryStep s i name s.sessions[name]? none) (h : Lost s s')
    (hs'' : s''.core = (s'.eraseSession name).core) : TableStep s i s'' := by
  obtain ⟨gone, hgone, hlost⟩ := h
  obtain ⟨hself, -, -, hmesh, hsessions⟩ := core_eq_iff.1 hs''
  refine ⟨⟨gone, fun peer hpeer ↦ .inl (hmesh ▸ hgone peer hpeer), fun name' ↦ ?_⟩, ?_,
    fun peer hpeer ↦ .inl (hlost.peers ?_)⟩
  · rw [hsessions, eraseSession, lookup_erase, hlost.lookup]
    by_cases hname : name = name'
    · subst hname
      exact ⟨_, hentry, by simp⟩
    · exact ⟨_, .same, by simp [hname]⟩
  · rw [hself, eraseSession, hlost.rest]
  · rw [hmesh] at hpeer
    exact hpeer

/-- What is found by its id is in the table. -/
theorem lookup_of_findById {sessionId : Bytes} {p : Bytes × Session}
    (h : s.findById sessionId = some p) :
    s.sessions[p.1]? = some p.2 ∧ p.2.infos.sessionId = sessionId := by
  rw [findById] at h
  exact ⟨(mem_toList_iff_lookup _ _ _).1 (List.mem_of_find?_eq_some h),
    by simpa using List.find?_some h⟩

/-! ### Calls -/

theorem core_createSessionModification (o : CreateSessionModificationOptions) :
    (s.createSessionModification o).2.2.core = s.core := by
  rw [createSessionModification]
  split
  · dsimp only
    split
    · rfl
    · split <;> split <;> rfl
  · rfl

theorem core_updateSessionModification (o : SessionNameOptions) :
    (s.updateSessionModification o).2.2.core = s.core := by
  rw [updateSessionModification]
  split
  · rfl
  · split
    · rfl
    · split <;> rfl

theorem core_modify (handle : GameHandle) (version latest : Int32)
    (edit : SessionInfos → Except ResultCode SessionInfos) :
    (s.modify handle version latest edit).2.core = s.core := by
  rw [modify]
  split
  · rfl
  · split
    · rfl
    · split <;> rfl

theorem core_editSearch (handle : GameHandle) (version : Int32)
    (edit : SessionSearchObject → Except ResultCode SessionSearchObject) :
    (s.editSearch handle version edit).2.core = s.core := by
  rw [editSearch]
  split
  · rfl
  · split
    · rfl
    · split <;> rfl

theorem core_createSessionSearch (o : Setting UInt32) :
    (s.createSessionSearch o).2.2.core = s.core := by
  rw [createSessionSearch]
  split <;> rfl

theorem core_searchCopyResult (handle : GameHandle) (o : Setting UInt32) :
    (s.searchCopyResult handle o).2.2.core = s.core := by
  rw [searchCopyResult]
  split
  · rfl
  · split
    · rfl
    · split <;> rfl

/-- What the calls about one named session found. -/
theorem named_eq_ok {o : SessionNameOptions} {entry : Session}
    (h : s.named o = .ok (name, entry)) :
    o.sessionName = some name ∧ s.sessions[name]? = some entry := by
  rw [named] at h
  split at h
  · cases h
  · rename_i name' hname
    split at h
    · cases h
    · split at h
      · cases h
      · rename_i found hfound
        cases h
        exact ⟨hname, hfound⟩

theorem tableStep_updateSession (o : UpdateSessionOptions) (random : Option Bytes) :
    TableStep s (.call (.updateSession o random)) (s.updateSession o random).2 := by
  rw [updateSession]
  split
  · exact .of_core_eq rfl
  · rename_i object hobject
    split
    · exact .of_core_eq rfl
    · rename_i hversion
      rw [not_not] at hversion
      dsimp only
      rw [commit]
      split
      · exact .of_core_eq rfl
      · rename_i hcreating hnone
        dsimp only
        generalize hid : (if object.infos.sessionId = [] then generateSessionId random
          else object.infos.sessionId) = newId
        split
        · exact .of_core_eq rfl
        · rename_i hne
          refine .of_set ?_ (.refl _) rfl
          rw [show s.sessions[object.sessionName]? = none from hnone]
          exact .created hobject hversion hcreating hid.symm hne
      · exact .of_core_eq rfl
      · rename_i entry hcreating hentry
        refine .of_set ?_ (lost_broadcastSession _ _) rfl
        rw [show s.sessions[object.sessionName]? = some entry from hentry]
        exact .modified hobject hcreating

theorem tableStep_destroySession (o : SessionNameOptions) :
    TableStep s (.call (.destroySession o)) (s.destroySession o).2 := by
  rw [destroySession]
  split
  · exact .of_core_eq rfl
  · rename_i name entry hnamed
    obtain ⟨hname, hentry⟩ := named_eq_ok hnamed
    refine .of_erase ?_ (lost_sendToMembers _ _ _ _) rfl
    rw [hentry]
    exact .destroyed hname

theorem tableStep_startSession (o : SessionNameOptions) :
    TableStep s (.call (.startSession o)) (s.startSession o).2 := by
  rw [startSession]
  split
  · exact .of_core_eq rfl
  · rename_i name entry hnamed
    obtain ⟨hname, hentry⟩ := named_eq_ok hnamed
    split
    · exact .of_core_eq rfl
    · rename_i hstate
      refine .of_set ?_ (lost_broadcastSession _ _) rfl
      rw [hentry]
      exact .started hname (by tauto)

theorem tableStep_endSession (o : SessionNameOptions) :
    TableStep s (.call (.endSession o)) (s.endSession o).2 := by
  rw [endSession]
  split
  · exact .of_core_eq rfl
  · rename_i name entry hnamed
    obtain ⟨hname, hentry⟩ := named_eq_ok hnamed
    split
    · exact .of_core_eq rfl
    · rename_i hstate
      refine .of_set ?_ (lost_broadcastSession _ _) rfl
      rw [hentry]
      exact .ended hname (by tauto)

/-- What the two calls that change a roster do to the table. -/
theorem tableStep_changePlayers {o : PlayersOptions} {latest : Int32}
    {each : List Bytes → List Bytes → List (Option Bytes) → List Bytes × List Bytes}
    {notice : SessionMembers → SessionMessage}
    (hedit : ∀ name entry players, o.sessionName = some name → o.players = some players →
      s.productUserId ∈ entry.players →
      EntryStep s i name (some entry) (some (entry.seat (each entry.players [] players).1))) :
    TableStep s i (s.changePlayers o latest each notice).2 := by
  rw [changePlayers]
  split
  · rename_i name players hname hplayers
    split
    · exact .of_core_eq rfl
    · split
      · exact .of_core_eq rfl
      · rename_i entry hentry
        split
        · exact .of_core_eq rfl
        · rename_i hself
          have hset : EntryStep s i name s.sessions[name]?
              (some (entry.seat (each entry.players [] players).1)) := by
            rw [show s.sessions[name]? = some entry from hentry]
            exact hedit name entry players hname hplayers (by simpa using hself)
          dsimp only
          split
          · exact .of_set hset (.refl _) rfl
          · exact .of_set hset (lost_sendToMembers _ _ _ _) rfl
  · exact .of_core_eq rfl

theorem tableStep_joinSession (o : JoinSessionOptions) (now : Nat) (address : ResultAddress) :
    TableStep s (.call (.joinSession o now address)) (s.joinSession o now address).2 := by
  rw [joinSession]
  split
  · rename_i name found localUser hname hfound huser
    split
    · exact .of_core_eq rfl
    · rename_i hvalid
      rw [not_or, not_not] at hvalid
      split
      · exact .of_core_eq rfl
      · rename_i hnone
        split
        · exact .of_core_eq rfl
        · rename_i hjoinable
          refine .of_set ?_ (lost_sendTo _ _ _) rfl
          rw [show s.sessions[name]? = none by simpa [findByName] using hnone]
          exact .joining hname hfound huser hvalid.1 hvalid.2 (by simpa using hjoinable)
  · exact .of_core_eq rfl

theorem tableStep_searchFind (handle : GameHandle) (o : SearchFindOptions) (now : Nat)
    (address : ResultAddress) : TableStep s i (s.searchFind handle o now address).2 := by
  have hsends (peers : List Bytes) (query : SessionSearch) (s : Sessions) :
      Lost s (peers.foldl (fun s peer ↦ s.sendTo peer (.search query)) s) := by
    induction peers generalizing s with
    | nil => exact .refl s
    | cons peer peers ih => exact (lost_sendTo _ _ _).trans (ih _)
  rw [searchFind]
  split
  · exact .of_core_eq rfl
  · split
    · exact .of_core_eq rfl
    · split
      · exact .of_core_eq rfl
      · split
        · exact .of_core_eq rfl
        · exact .of_lost (hsends _ _ _) rfl

theorem tableStep_call (c : Call) : TableStep s (.call c) (s.call c).2 := by
  cases c with
  | createSessionModification o => exact .of_core_eq (core_createSessionModification o)
  | updateSessionModification o => exact .of_core_eq (core_updateSessionModification o)
  | modificationSetBucketId h o => exact .of_core_eq (core_modify h _ _ _)
  | modificationSetHostAddress h o => exact .of_core_eq (core_modify h _ _ _)
  | modificationSetPermissionLevel h o => exact .of_core_eq (core_modify h _ _ _)
  | modificationSetJoinInProgress h o => exact .of_core_eq (core_modify h _ _ _)
  | modificationSetMaxPlayers h o => exact .of_core_eq (core_modify h _ _ _)
  | modificationSetInvitesAllowed h o => exact .of_core_eq (core_modify h _ _ _)
  | modificationSetAllowedPlatformIds h o => exact .of_core_eq (core_modify h _ _ _)
  | modificationAddAttribute h o => exact .of_core_eq (core_modify h _ _ _)
  | modificationRemoveAttribute h o => exact .of_core_eq (core_modify h _ _ _)
  | modificationRelease h => exact .of_core_eq rfl
  | updateSession o random => exact tableStep_updateSession o random
  | destroySession o => exact tableStep_destroySession o
  | startSession o => exact tableStep_startSession o
  | endSession o => exact tableStep_endSession o
  | registerPlayers o =>
    exact tableStep_changePlayers fun _ _ _ hname hplayers hself ↦ .registered hname hplayers hself
  | unregisterPlayers o =>
    exact tableStep_changePlayers fun _ _ _ hname hplayers hself ↦
      .unregistered hname hplayers hself
  | joinSession o now address => exact tableStep_joinSession o now address
  | createSessionSearch o => exact .of_core_eq (core_createSessionSearch o)
  | searchSetSessionId h o => exact .of_core_eq (core_editSearch h _ _)
  | searchSetTargetUser h o => exact .of_core_eq (core_editSearch h _ _)
  | searchSetParameter h o => exact .of_core_eq (core_editSearch h _ _)
  | searchRemoveParameter h o => exact .of_core_eq (core_editSearch h _ _)
  | searchSetMaxResults h o => exact .of_core_eq (core_editSearch h _ _)
  | searchFind h o now address => exact tableStep_searchFind h o now address
  | searchCopyResult h o => exact .of_core_eq (core_searchCopyResult h o)
  | searchRelease h => exact .of_core_eq rfl
  | detailsRelease h => exact .of_core_eq rfl

/-! ### Messages -/

variable {message : NetEnvelope}

theorem core_takeAnswer (handle : GameHandle) (source : Bytes) (answer : SessionSearchResponse) :
    (s.takeAnswer handle source answer).core = s.core := by
  rw [takeAnswer]
  split
  · rfl
  · split <;> rfl

theorem core_onSearchResponse (source gameId : Bytes) (answer : SessionSearchResponse) :
    (s.onSearchResponse source gameId answer).core = s.core := by
  have hall (waiting : List (ResultAddress × GameHandle)) (s : Sessions) :
      (waiting.foldl (fun s p ↦ s.takeAnswer p.2 source answer) s).core = s.core := by
    induction waiting generalizing s with
    | nil => rfl
    | cons p waiting ih => rw [List.foldl_cons, ih, core_takeAnswer]
  rw [onSearchResponse]
  split
  · rfl
  · exact hall _ _

/-- Whom a host lets in. -/
theorem joinVerdict_success {source : Bytes} {found : Option (Bytes × Session)}
    (h : s.joinVerdict source found = ResultCode.success) :
    ∃ name entry, found = some (name, entry) ∧ entry.localState = .hosting ∧ source ∈ s.known ∧
      (source ∈ entry.players ∨ entry.players.length < entry.infos.maxPlayers.toNat) := by
  rcases found with _ | ⟨name, entry⟩
  · simp [joinVerdict, ResultCode.notFound, ResultCode.success] at h
  · rw [joinVerdict] at h
    split at h
    · simp [ResultCode.notFound, ResultCode.success] at h
    · rename_i hhosting
      split at h
      · simp [ResultCode.sessionsNotAllowed, ResultCode.success] at h
      · rename_i hknown
        refine ⟨name, entry, rfl, by simpa using hhosting, by simpa using hknown, ?_⟩
        split at h
        · rename_i hin
          exact .inl hin
        · split at h
          · simp [ResultCode.sessionsTooManyPlayers, ResultCode.success] at h
          · exact .inr (by omega)

theorem tableStep_onJoinRequest {request : SessionJoinRequest}
    (hreads : Reads s message (.joinRequest request)) :
    TableStep s (.receive message) (s.onJoinRequest message.sourceId request) := by
  rw [onJoinRequest]
  dsimp only
  split
  · exact .of_lost (lost_sendTo _ _ _) rfl
  · rename_i name entry hfound
    obtain ⟨hentry, -⟩ := lookup_of_findById hfound
    split
    · rename_i hverdict
      obtain ⟨_, _, heq, hhosting, hknown, hroom⟩ := joinVerdict_success hverdict
      rw [hfound] at heq
      cases heq
      refine .of_set ?_
        (((lost_sendTo _ _ _).trans (lost_sendToMembers _ _ _ _)).trans
          (lost_broadcastSession _ _)) rfl
      rw [hentry, Session.letIn]
      by_cases hnew : message.sourceId ∈ entry.players
      · rw [if_pos hnew]
        exact .same
      · rw [if_neg hnew]
        exact .admitted hreads hfound hhosting hknown hnew (hroom.resolve_left hnew)
    · exact .of_lost (lost_sendTo _ _ _) rfl

theorem tableStep_onJoinResponse {answer : SessionJoinResponse}
    (hreads : Reads s message (.joinResponse answer)) :
    TableStep s (.receive message) (s.onJoinResponse message.sourceId answer) := by
  rw [onJoinResponse]
  split
  · exact .of_core_eq rfl
  · rename_i name entry hfound
    obtain ⟨hentry, -⟩ := lookup_of_findById hfound
    split
    · exact .of_core_eq rfl
    · rename_i howner
      replace howner : message.sourceId = entry.infos.ownerId := by simpa using howner
      split
      · rename_i hplayer
        split
        · rename_i htold
          refine .of_set ?_ (.refl _) rfl
          rw [hentry]
          exact .told hreads hfound howner hplayer htold.2
        · exact .of_core_eq rfl
      · rename_i hplayer
        split
        · exact .of_core_eq rfl
        · rename_i address waiting hwaiting
          dsimp only
          split
          · refine .of_set ?_ (.refl _) rfl
            rw [hentry]
            exact .accepted hreads hfound howner (by simpa using hplayer) (by rw [hwaiting]; rfl)
          · split
            · rename_i hjoining
              refine .of_erase ?_ (.refl _) rfl
              rw [hentry]
              exact .refused hreads hfound howner hjoining
            · exact .of_core_eq rfl

theorem tableStep_onInfos {infos : SessionInfos} (hreads : Reads s message (.infos infos)) :
    TableStep s (.receive message) (s.onInfos message.sourceId infos) := by
  rw [onInfos]
  split
  · exact .of_core_eq rfl
  · rename_i name entry hfound
    split
    · rename_i hmay
      refine .of_set ?_ (.refl _) rfl
      rw [(lookup_of_findById hfound).1]
      exact .rewritten hreads hfound hmay.1 hmay.2
    · exact .of_core_eq rfl

theorem tableStep_onDestroy {notice : SessionDestroy} (hreads : Reads s message (.destroy notice)) :
    TableStep s (.receive message) (s.onDestroy message.sourceId notice) := by
  rw [onDestroy]
  split
  · exact .of_core_eq rfl
  · rename_i name entry hfound
    have hentry := (mem_toList_iff_lookup _ _ _).1 (List.mem_of_find?_eq_some hfound)
    have hmay := List.find?_some hfound
    simp only [decide_eq_true_eq] at hmay
    refine .of_erase ?_ (.refl _) rfl
    rw [show s.sessions[name]? = some entry from hentry]
    exact .closed hreads hmay.2.1 hmay.2.2

theorem tableStep_onMembers (adding : Bool) {notice : SessionMembers}
    (hreads : Reads s message (if adding then .register notice else .unregister notice)) :
    TableStep s (.receive message) (s.onMembers adding message.sourceId notice) := by
  rw [onMembers]
  split
  · exact .of_core_eq rfl
  · rename_i name entry hfound
    split
    · rename_i hmay
      refine .of_set ?_ (.refl _) rfl
      rw [(lookup_of_findById hfound).1]
      exact .noticed hreads hfound hmay
    · exact .of_core_eq rfl

theorem tableStep_receive (message : NetEnvelope) :
    TableStep s (.receive message) (s.onNetworkMessage message) := by
  rw [onNetworkMessage]
  split
  · exact .of_core_eq rfl
  · rename_i hsource
    rw [not_or] at hsource
    split
    · rename_i htag
      refine ⟨⟨[message.sourceId], fun peer hpeer ↦ ?_, fun name ↦ ⟨_, .same, ?_⟩⟩, rfl,
        fun _ hpeer ↦ .inl hpeer⟩
      · obtain rfl := List.mem_singleton.1 hpeer
        exact .inr ⟨message, rfl, htag, rfl, hsource⟩
      · exact (lost_onPeerDisconnected s _).lookup name
    · split
      · exact .of_core_eq rfl
      · rename_i msg hread
        have hreads : Reads s message msg := ⟨hsource.1, hsource.2, hread⟩
        cases msg with
        | search query => exact .of_lost (lost_sendTo _ _ _) rfl
        | searchResponse answer => exact .of_core_eq (core_onSearchResponse _ _ _)
        | joinRequest request => exact tableStep_onJoinRequest hreads
        | joinResponse answer => exact tableStep_onJoinResponse hreads
        | infos infos => exact tableStep_onInfos hreads
        | destroy notice => exact tableStep_onDestroy hreads
        | register notice => exact tableStep_onMembers true hreads
        | unregister notice => exact tableStep_onMembers false hreads

/-! ### Ticks -/

theorem tableStep_collect (address : ResultAddress) (now : Nat) :
    TableStep s (.collect address now) (s.collect address now) := by
  have hfree (ready : Bool) (s' : Sessions) :
      (if ready then s'.freeCallback address else s').core = s'.core := by
    split <;> rfl
  rw [collect]
  split
  · exact .of_core_eq rfl
  · dsimp only
    rw [runCallbacks]
    split
    · rw [settleFind]
      split
      · exact .of_core_eq (hfree _ _)
      · split
        · exact .of_core_eq (hfree _ _)
        · exact .of_core_eq (hfree _ _)
    · split
      · rename_i waiting hwaiting
        rw [settleJoin]
        split
        · rename_i hlate
          split
          · exact .of_core_eq (hfree _ _)
          · rename_i name entry hfound
            split
            · rename_i hjoining
              refine .of_erase ?_ (.refl _) (hfree _ _)
              rw [(lookup_of_findById hfound).1]
              exact .expired hwaiting hlate hfound hjoining
            · exact .of_core_eq (hfree _ _)
        · exact .of_core_eq (hfree _ _)
      · exact .of_core_eq (hfree _ _)

/-- **What one step makes of the table.** -/
theorem tableStep_of_step (h : step s i = some s') : TableStep s i s' := by
  cases i with
  | call c =>
    rw [step] at h
    split at h
    · cases h
      exact tableStep_call c
    · cases h
  | receive message =>
    cases h
    exact tableStep_receive message
  | collect address now =>
    cases h
    exact tableStep_collect address now
  | around peers known losses =>
    cases h
    exact ⟨⟨[], by simp, fun name ↦ ⟨_, .same, by simp⟩⟩, rfl, fun _ hpeer ↦ .inr hpeer⟩

end Sessions
end EosMesh
