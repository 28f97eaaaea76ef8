import EosMesh.Interfaces.Sessions.Roster

/-!
# What waits for an answer

A search and a join wait for their peers: a search until all it asked have answered or its time is
up, a join until the host has.  Only the calls about searches, the joins, the answers and the ticks
have anything to do with what waits; the rest of the interface leaves it alone.

* `Sessions.SameWaiting` says that a step left it alone: the searches, and the results that wait for
  a search or a join, are what they were, and no handle is given out again.
* `sameWaiting_call` and `waits_receive` sort the calls and the messages by that.  What is left over
  is `Call.waits`, the calls about searches and the joins, and the two answers.
* `waits_joinSession` and `waits_onJoinResponse` are the two that touch the joins, and say what they
  do to the one they are about.

`Interfaces.Sessions.Completions` counts by it what completes and when, and `Interfaces.Searches`
whom a search still waits for.
-/

set_option autoImplicit false

namespace EosMesh

open Lib
open Std (TreeMap)

namespace Sessions

variable {s s' s'' : Sessions}

/-- What waits is as it was, and no handle is given out again. -/
structure SameWaiting (s s' : Sessions) : Prop where
  searches : s'.searches = s.searches
  finds : s'.pendingFinds = s.pendingFinds
  joins : s'.pendingJoins = s.pendingJoins
  handles : s.nextHandle ≤ s'.nextHandle

theorem SameWaiting.refl (s : Sessions) : SameWaiting s s := ⟨rfl, rfl, rfl, le_rfl⟩

theorem SameWaiting.trans (h : SameWaiting s s') (h' : SameWaiting s' s'') : SameWaiting s s'' :=
  ⟨h'.searches.trans h.searches, h'.finds.trans h.finds, h'.joins.trans h.joins,
    h.handles.trans h'.handles⟩

theorem Lost.sameWaiting (h : Lost s s') : SameWaiting s s' := by
  obtain ⟨gone, -, hlost⟩ := h
  rw [hlost.rest]
  exact ⟨rfl, rfl, rfl, le_rfl⟩

theorem sameWaiting_setSession (name : Bytes) (entry : Session) :
    SameWaiting s (s.setSession name entry) := ⟨rfl, rfl, rfl, le_rfl⟩

theorem sameWaiting_eraseSession (name : Bytes) : SameWaiting s (s.eraseSession name) :=
  ⟨rfl, rfl, rfl, le_rfl⟩

/-- A session is written, and what follows is sent. -/
theorem SameWaiting.of_set {name : Bytes} {entry : Session}
    (h : Lost (s.setSession name entry) s') :
    SameWaiting s s' := (sameWaiting_setSession name entry).trans h.sameWaiting

/-! ## Calls -/

theorem sameWaiting_createSessionModification (o : CreateSessionModificationOptions) :
    SameWaiting s (s.createSessionModification o).2.2 := by
  rw [createSessionModification]
  split
  · dsimp only
    split
    · exact .refl s
    · split
      · split
        · exact .refl s
        · exact ⟨rfl, rfl, rfl, Nat.le_succ _⟩
      · split
        · exact .refl s
        · exact ⟨rfl, rfl, rfl, Nat.le_succ _⟩
  · exact .refl s

theorem sameWaiting_updateSessionModification (o : SessionNameOptions) :
    SameWaiting s (s.updateSessionModification o).2.2 := by
  rw [updateSessionModification]
  split
  · exact .refl s
  · split
    · exact .refl s
    · split
      · exact .refl s
      · exact ⟨rfl, rfl, rfl, Nat.le_succ _⟩

theorem sameWaiting_modify (handle : GameHandle) (version latest : Int32)
    (edit : SessionInfos → Except ResultCode SessionInfos) :
    SameWaiting s (s.modify handle version latest edit).2 := by
  rw [modify]
  split
  · exact .refl s
  · split
    · exact .refl s
    · split
      · exact .refl s
      · exact ⟨rfl, rfl, rfl, le_rfl⟩

theorem sameWaiting_updateSession (o : UpdateSessionOptions) (random : Option Bytes) :
    SameWaiting s (s.updateSession o random).2 := by
  rw [updateSession]
  split
  · exact .refl s
  · rename_i object _
    split
    · exact .refl s
    · dsimp only
      rw [commit]
      split
      · exact .refl s
      · dsimp only
        generalize (if object.infos.sessionId = [] then generateSessionId random
          else object.infos.sessionId) = newId
        split
        · exact .refl s
        · exact sameWaiting_setSession _ _
      · exact .refl s
      · exact .of_set (lost_broadcastSession _ _)

theorem sameWaiting_destroySession (o : SessionNameOptions) :
    SameWaiting s (s.destroySession o).2 := by
  rw [destroySession]
  split
  · exact .refl s
  · exact (lost_sendToMembers _ _ _ _).sameWaiting.trans (sameWaiting_eraseSession _)

theorem sameWaiting_enter (name : Bytes) (entry : Session) (state : Int32) :
    SameWaiting s (s.enter name entry state) := .of_set (lost_broadcastSession _ _)

theorem sameWaiting_startSession (o : SessionNameOptions) : SameWaiting s (s.startSession o).2 := by
  rw [startSession]
  split
  · exact .refl s
  · split
    · exact .refl s
    · exact sameWaiting_enter _ _ _

theorem sameWaiting_endSession (o : SessionNameOptions) : SameWaiting s (s.endSession o).2 := by
  rw [endSession]
  split
  · exact .refl s
  · split
    · exact .refl s
    · exact sameWaiting_enter _ _ _

theorem sameWaiting_changePlayers (o : PlayersOptions) (latest : Int32)
    (each : List Bytes → List Bytes → List (Option Bytes) → List Bytes × List Bytes)
    (notice : SessionMembers → SessionMessage) :
    SameWaiting s (s.changePlayers o latest each notice).2 := by
  rw [changePlayers]
  split
  · split
    · exact .refl s
    · split
      · exact .refl s
      · split
        · exact .refl s
        · dsimp only
          split
          · exact sameWaiting_setSession _ _
          · exact .of_set (lost_sendToMembers _ _ _ _)
  · exact .refl s

theorem sameWaiting_searchCopyResult (handle : GameHandle) (o : Setting UInt32) :
    SameWaiting s (s.searchCopyResult handle o).2.2 := by
  rw [searchCopyResult]
  split
  · exact .refl s
  · split
    · exact .refl s
    · split
      · exact .refl s
      · exact ⟨rfl, rfl, rfl, Nat.le_succ _⟩

/-- A join leaves all alone, but that it waits now itself, if it stays open. -/
theorem waits_joinSession (o : JoinSessionOptions) (now : Nat) (address : ResultAddress) :
    SameWaiting s { (s.joinSession o now address).2 with pendingJoins := s.pendingJoins } ∧
      ((s.joinSession o now address).1 ≠ ResultCode.timedOut ∧
        (s.joinSession o now address).2.pendingJoins = s.pendingJoins ∨
      ∃ sessionId, (s.joinSession o now address).2.pendingJoins =
        s.pendingJoins.insert address { sessionId, deadline := now + joinTimeout }) := by
  have hinvalid : ResultCode.invalidParameters ≠ ResultCode.timedOut := by decide
  have hexists : ResultCode.sessionsSessionAlreadyExists ≠ ResultCode.timedOut := by decide
  have hallowed : ResultCode.sessionsNotAllowed ≠ ResultCode.timedOut := by decide
  rw [joinSession]
  split
  · split
    · exact ⟨.refl s, .inl ⟨hinvalid, rfl⟩⟩
    · split
      · exact ⟨.refl s, .inl ⟨hexists, rfl⟩⟩
      · split
        · exact ⟨.refl s, .inl ⟨hallowed, rfl⟩⟩
        · rename_i name found localUser _ _ _ _ _ _
          obtain ⟨hsearches, hfinds, hjoins, hhandles⟩ := SameWaiting.of_set (lost_sendTo
            (s.setSession name { infos := found, localUser, localState := .joining })
            found.ownerId (.joinRequest { sessionId := found.sessionId }))
          exact ⟨⟨hsearches, hfinds, rfl, hhandles⟩, .inr ⟨found.sessionId, by rw [← hjoins]⟩⟩
  · exact ⟨.refl s, .inl ⟨hinvalid, rfl⟩⟩

/-- The calls about what waits. -/
def Call.waits : Call → Bool
  | .joinSession _ _ _ => true
  | .createSessionSearch _ => true
  | .searchSetSessionId _ _ => true
  | .searchSetTargetUser _ _ => true
  | .searchSetParameter _ _ => true
  | .searchRemoveParameter _ _ => true
  | .searchSetMaxResults _ _ => true
  | .searchFind _ _ _ _ => true
  | .searchRelease _ => true
  | _ => false

theorem sameWaiting_call {c : Call} (h : c.waits = false) : SameWaiting s (s.call c).2 := by
  cases c with
  | createSessionModification o => exact sameWaiting_createSessionModification o
  | updateSessionModification o => exact sameWaiting_updateSessionModification o
  | modificationSetBucketId handle o => exact sameWaiting_modify handle _ _ _
  | modificationSetHostAddress handle o => exact sameWaiting_modify handle _ _ _
  | modificationSetPermissionLevel handle o => exact sameWaiting_modify handle _ _ _
  | modificationSetJoinInProgress handle o => exact sameWaiting_modify handle _ _ _
  | modificationSetMaxPlayers handle o => exact sameWaiting_modify handle _ _ _
  | modificationSetInvitesAllowed handle o => exact sameWaiting_modify handle _ _ _
  | modificationSetAllowedPlatformIds handle o => exact sameWaiting_modify handle _ _ _
  | modificationAddAttribute handle o => exact sameWaiting_modify handle _ _ _
  | modificationRemoveAttribute handle o => exact sameWaiting_modify handle _ _ _
  | modificationRelease handle => exact ⟨rfl, rfl, rfl, le_rfl⟩
  | updateSession o random => exact sameWaiting_updateSession o random
  | destroySession o => exact sameWaiting_destroySession o
  | startSession o => exact sameWaiting_startSession o
  | endSession o => exact sameWaiting_endSession o
  | registerPlayers o => exact sameWaiting_changePlayers o _ _ _
  | unregisterPlayers o => exact sameWaiting_changePlayers o _ _ _
  | searchCopyResult handle o => exact sameWaiting_searchCopyResult handle o
  | detailsRelease handle => exact ⟨rfl, rfl, rfl, le_rfl⟩
  | joinSession | createSessionSearch | searchSetSessionId | searchSetTargetUser
  | searchSetParameter | searchRemoveParameter | searchSetMaxResults | searchFind
  | searchRelease => cases h

/-! ## Messages -/

theorem sameWaiting_onSearch (source gameId : Bytes) (query : SessionSearch) :
    SameWaiting s (s.onSearch source gameId query) := (lost_sendTo _ _ _).sameWaiting

theorem sameWaiting_onJoinRequest (source : Bytes) (request : SessionJoinRequest) :
    SameWaiting s (s.onJoinRequest source request) := by
  rw [onJoinRequest]
  dsimp only
  split
  · exact (lost_sendTo _ _ _).sameWaiting
  · split
    · exact .of_set (((lost_sendTo _ _ _).trans (lost_sendToMembers _ _ _ _)).trans
        (lost_broadcastSession _ _))
    · exact (lost_sendTo _ _ _).sameWaiting

theorem sameWaiting_onInfos (source : Bytes) (infos : SessionInfos) :
    SameWaiting s (s.onInfos source infos) := by
  rw [onInfos]
  split
  · exact .refl s
  · split
    · exact sameWaiting_setSession _ _
    · exact .refl s

theorem sameWaiting_onDestroy (source : Bytes) (notice : SessionDestroy) :
    SameWaiting s (s.onDestroy source notice) := by
  rw [onDestroy]
  split
  · exact .refl s
  · exact sameWaiting_eraseSession _

theorem sameWaiting_onMembers (adding : Bool) (source : Bytes) (notice : SessionMembers) :
    SameWaiting s (s.onMembers adding source notice) := by
  rw [onMembers]
  split
  · exact .refl s
  · split
    · exact sameWaiting_setSession _ _
    · exact .refl s

/-- A verdict leaves all alone, but the join that waited for it has its result. -/
theorem waits_onJoinResponse (source : Bytes) (answer : SessionJoinResponse) :
    SameWaiting s { s.onJoinResponse source answer with pendingJoins := s.pendingJoins } ∧
      ((s.onJoinResponse source answer).pendingJoins = s.pendingJoins ∨ ∃ address waiting,
        s.pendingJoins[address]? = some waiting ∧
        (s.onJoinResponse source answer).pendingJoins = s.pendingJoins.insert address
          { waiting with resultCode := answer.reason, done := true }) := by
  rw [onJoinResponse]
  split
  · exact ⟨.refl s, .inl rfl⟩
  · split
    · exact ⟨.refl s, .inl rfl⟩
    · split
      · split
        · exact ⟨sameWaiting_setSession _ _, .inl rfl⟩
        · exact ⟨.refl s, .inl rfl⟩
      · split
        · exact ⟨.refl s, .inl rfl⟩
        · rename_i address waiting hwaiting
          have hlookup : s.pendingJoins[address]? = some waiting :=
            (mem_toList_iff_lookup _ _ _).1 (List.mem_of_find?_eq_some hwaiting)
          dsimp only
          split
          · exact ⟨⟨rfl, rfl, rfl, le_rfl⟩, .inr ⟨address, waiting, hlookup, rfl⟩⟩
          · split
            · exact ⟨⟨rfl, rfl, rfl, le_rfl⟩, .inr ⟨address, waiting, hlookup, rfl⟩⟩
            · exact ⟨⟨rfl, rfl, rfl, le_rfl⟩, .inr ⟨address, waiting, hlookup, rfl⟩⟩

/-- Only an answer has to do with what waits. -/
theorem waits_receive (message : NetEnvelope) :
    SameWaiting s (s.onNetworkMessage message) ∨
      (∃ answer, Reads s message (.searchResponse answer) ∧ s.onNetworkMessage message =
        s.onSearchResponse message.sourceId message.gameId answer) ∨
      ∃ answer, Reads s message (.joinResponse answer) ∧ s.onNetworkMessage message =
        s.onJoinResponse message.sourceId answer := by
  rw [onNetworkMessage]
  split
  · exact .inl (.refl s)
  · rename_i hsource
    rw [not_or] at hsource
    split
    · exact .inl ⟨rfl, rfl, rfl, le_rfl⟩
    · split
      · exact .inl (.refl s)
      · rename_i msg hread
        have hreads : Reads s message msg := ⟨hsource.1, hsource.2, hread⟩
        cases msg with
        | search query => exact .inl (sameWaiting_onSearch _ _ query)
        | searchResponse answer => exact .inr (.inl ⟨answer, hreads, rfl⟩)
        | joinRequest request => exact .inl (sameWaiting_onJoinRequest _ request)
        | joinResponse answer => exact .inr (.inr ⟨answer, hreads, rfl⟩)
        | infos infos => exact .inl (sameWaiting_onInfos _ infos)
        | destroy notice => exact .inl (sameWaiting_onDestroy _ notice)
        | register notice => exact .inl (sameWaiting_onMembers true _ notice)
        | unregister notice => exact .inl (sameWaiting_onMembers false _ notice)

end Sessions
end EosMesh
