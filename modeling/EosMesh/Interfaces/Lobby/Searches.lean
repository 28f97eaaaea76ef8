import EosMesh.Interfaces.Searches
import EosMesh.Interfaces.Lobby.Still

/-!
# The searches of the lobby interface

What a step makes of the searches: `Lobbies.deskStep_of_step` puts each step of the interface under
one of those of `Desk.Step`.  All that `Interfaces.Searches` says of searches is true of this
interface by it.

* `quest` reads a search of the interface as a `Quest`, and `desk` all of them.
* `Lobbies.SameSearches` is what all steps but those of a search do to them.  Losing a peer is one
  of these, though it may hand lobbies on and tell the members of it.
* An answer is held to its sender here, so nothing is asked of it.
* `asks` are the peers that a step asks, read off its input.  `searchFind_letters` says that these
  are the peers to whom the question is sent, but for those that are lost in the sending, and
  `letter_of_asks` says it of a step.  Among the letters of a send there may be others, of the
  lobbies that a lost peer leaves behind; `isSearch` tells them apart.
-/

set_option autoImplicit false

namespace EosMesh

open Lib
open Std (TreeMap)

/-- The message asks something. -/
def LobbyMessage.isSearch : LobbyMessage → Bool
  | .search _ => true
  | _ => false

namespace LobbySearchObject

variable (object : LobbySearchObject)

/-- A search as a quest. -/
def quest : Quest LobbySearch LobbyInfos where
  query := object.query
  results := object.results
  maxResults := object.maxResults.toNat
  searching := object.searching
  awaiting := object.awaiting

/-- A search takes an answer to it, of a peer it awaits. -/
def takes (source : Bytes) (answer : LobbySearchResponse) : Bool :=
  object.searching ∧ object.query.searchId = answer.searchId ∧ source ∈ object.awaiting

/-- What an answer has for a search: the sender's own that fit, as far as there is room. -/
def listable (source : Bytes) (answer : LobbySearchResponse) : List LobbyInfos :=
  (answer.lobbies.filter fun infos ↦
    infos.ownerId = source ∧ Lobbies.lobbyMatches infos object.query).take
      (object.maxResults.toNat - object.results.length)

/-- A search once it took an answer. -/
def answered (source : Bytes) (answer : LobbySearchResponse) : LobbySearchObject :=
  { object with
    awaiting := object.awaiting.filter (· ≠ source)
    results := object.results ++ object.listable source answer }

end LobbySearchObject

namespace Lobbies

variable {s s' s'' : Lobbies} {i : Input}

/-- The searches, and whom they may wait for. -/
def desk (s : Lobbies) : Desk LobbySearchObject where
  store := s.searches
  nextHandle := s.nextHandle
  peers := s.mesh.peers

/-- The lobbies hosted here. -/
def hostedInfos (s : Lobbies) : List LobbyInfos :=
  (s.lobbies.toList.filter fun p ↦ p.2.localState = .hosting).map fun p ↦ p.2.infos

/-- Whoever sent what the step takes in. -/
def Input.source : Input → Bytes
  | .receive message => message.sourceId
  | _ => []

/-- A call that starts a search, as it is checked. -/
def begins (localUserId : Option Bytes) (object : LobbySearchObject) : Bool :=
  localUserId.isSome ∧ hasOneMode object.query ∧ object.searching = false

/-- Whom a search asks: everyone, or the one player it is about. -/
def audience (s : Lobbies) (object : LobbySearchObject) : List Bytes :=
  s.mesh.peers.filter fun peer ↦
    object.query.targetUserId = [] ∨ peer = object.query.targetUserId

/-- The peers a step asks: those of the search it starts. -/
def asks (s : Lobbies) : Input → List Bytes
  | .call (.searchFind handle localUserId _ _) =>
    match s.searches.find handle with
    | none => []
    | some object => if begins localUserId object then s.audience object else []
  | _ => []

/-! ## Whom a search asks -/

section Letters

variable {counts : LobbyMessage → Bool} (hquiet : ∀ infos, counts (.infos infos) = false)
  {lose : Lobbies → Bytes → Lobbies}
  (hlose : ∀ (s : Lobbies) (peer : Bytes), s.mesh.Grew counts [] (lose s peer).mesh)

include hlose

theorem grew_sendToWith (s : Lobbies) (peer : Bytes) (message : LobbyMessage) :
    s.mesh.Grew counts
      (if counts message then (s.mesh.recipients peer).map fun p ↦ (p, message) else [])
      (s.sendToWith lose peer message).mesh := by
  have hall (lost : List Bytes) (s : Lobbies) :
      s.mesh.Grew counts [] (lost.foldl lose s).mesh := by
    induction lost generalizing s with
    | nil => exact .refl s.mesh
    | cons peer lost ih => exact (hlose s peer).trans (ih _)
  have hsend : s.mesh.Grew counts _ _ := Mesh.grew_send s.mesh peer message
  have hboth := hsend.trans
    (hall (s.mesh.send peer message).2 { s with mesh := (s.mesh.send peer message).1 })
  rwa [List.append_nil] at hboth

include hquiet

theorem grew_broadcastLobbyWith (s : Lobbies) (lobbyId : Bytes) :
    s.mesh.Grew counts [] (s.broadcastLobbyWith lose lobbyId).mesh := by
  rw [broadcastLobbyWith]
  split
  · exact .refl s.mesh
  · rename_i entry _
    refine fanOut_relates (R := fun s s' : Lobbies ↦ s.mesh.Grew counts [] s'.mesh)
      (fun s ↦ .refl s.mesh) (fun s₀ s member h ↦ ?_) s
    have hsend := grew_sendToWith hlose s member (.infos entry.infos)
    rw [if_neg (by simp [hquiet])] at hsend
    exact h.trans hsend

theorem grew_bereaveWith (peer : Bytes) (s : Lobbies) (lobbyId : Bytes) :
    s.mesh.Grew counts [] (bereaveWith lose peer s lobbyId).mesh := by
  have htell (entry : Lobby) : s.mesh.Grew counts []
      ((s.setLobby lobbyId entry).broadcastLobbyWith lose lobbyId).mesh :=
    grew_broadcastLobbyWith hquiet hlose (s.setLobby lobbyId entry) lobbyId
  rw [bereaveWith]
  split
  · exact .refl s.mesh
  · dsimp only
    split
    · split
      · exact .refl s.mesh
      · split
        · exact htell _
        · exact .refl s.mesh
    · split
      · exact htell _
      · exact .refl s.mesh

theorem grew_onPeerDisconnectedWith (s : Lobbies) (peer : Bytes) :
    s.mesh.Grew counts [] (s.onPeerDisconnectedWith lose peer).mesh := by
  have hall (ids : List Bytes) (s : Lobbies) :
      s.mesh.Grew counts [] (ids.foldl (bereaveWith lose peer) s).mesh := by
    induction ids generalizing s with
    | nil => exact .refl s.mesh
    | cons lobbyId ids ih => exact (grew_bereaveWith hquiet hlose peer s lobbyId).trans (ih _)
  rw [onPeerDisconnectedWith]
  split
  · exact .refl s.mesh
  · exact hall _ s

end Letters

/-- A loss tells members of lobbies, and asks nobody. -/
theorem grew_lose (s : Lobbies) (peer : Bytes) :
    s.mesh.Grew LobbyMessage.isSearch [] (s.lose peer).mesh := by
  have hwithin (depth : Nat) (s : Lobbies) (peer : Bytes) :
      s.mesh.Grew LobbyMessage.isSearch [] (loseWithin depth s peer).mesh := by
    induction depth generalizing s peer with
    | zero => exact .refl s.mesh
    | succ depth ih =>
      rw [loseWithin]
      split
      · exact ((Mesh.Grew.refl s.mesh).drop peer).trans
          (grew_onPeerDisconnectedWith (fun _ ↦ rfl) ih { s with mesh := s.mesh.drop peer } peer)
      · exact .refl s.mesh
  exact hwithin _ s peer

/-- What a search says to those it asks. -/
def question (s : Lobbies) (object : LobbySearchObject) : LobbyMessage :=
  .search { object.query with
    searchId := Sessions.searchIdOf s.nextSearchId, maxResults := object.maxResults }

/-- **Whom the call that starts a search asks**: its search messages are the query, to peers it asks
alone, and to each of those that is not lost in it. -/
theorem searchFind_letters {handle : GameHandle} {localUserId : Option Bytes} {now : Nat}
    {address : ResultAddress} {object : LobbySearchObject} (hnamed : [] ∉ s.mesh.peers)
    (hobject : s.searches.find handle = some object)
    (hbegins : begins localUserId object = true) :
    ∃ reached, s.mesh.Grew LobbyMessage.isSearch
        (reached.map fun peer ↦ (peer, s.question object))
        (s.searchFind handle localUserId now address).2.mesh ∧
      reached ⊆ s.asks (.call (.searchFind handle localUserId now address)) ∧
      ∀ peer ∈ s.asks (.call (.searchFind handle localUserId now address)),
        peer ∈ (s.searchFind handle localUserId now address).2.mesh.peers → peer ∈ reached := by
  have hasks : s.asks (.call (.searchFind handle localUserId now address)) = s.audience object := by
    rw [asks, hobject]
    exact if_pos hbegins
  have hstarts : (s.searchFind handle localUserId now address).2 =
      s.startSearch handle object now address := by
    rw [begins, decide_eq_true_eq] at hbegins
    obtain ⟨hlocal, hone, hidle⟩ := hbegins
    obtain ⟨user, rfl⟩ := Option.isSome_iff_exists.1 hlocal
    simp [searchFind, hobject, hone, hidle]
  rw [hasks, hstarts]
  exact @Mesh.grew_foldl _ LobbyMessage.isSearch _ Lobbies.mesh _ (s.question object)
    (fun s' peer ↦ grew_sendToWith grew_lose s' peer (s.question object))
    _ (fun hin ↦ hnamed (List.mem_of_mem_filter hin)) s

/-- Only the call that starts a search asks. -/
theorem begins_of_mem_asks {peer : Bytes} (h : peer ∈ s.asks i) :
    ∃ handle localUserId now address object, i =
    .call (.searchFind handle localUserId now address) ∧
      s.searches.find handle = some object ∧ begins localUserId object = true := by
  rw [asks.eq_def] at h
  split at h
  · rename_i handle localUserId now address
    split at h
    · cases h
    · rename_i object hobject
      split at h
      · exact ⟨handle, localUserId, now, address, object, rfl, hobject, ‹_›⟩
      · cases h
  · cases h

/-- A peer that a step asks, and does not lose, was sent the query in it. -/
theorem letter_of_asks (h : step s i = some s') (hnamed : [] ∉ s.mesh.peers) {peer : Bytes}
    (hasked : peer ∈ s.asks i) (hthere : peer ∈ s'.mesh.peers) :
    ∃ query, (peer, .search query) ∈ s'.mesh.sent.drop s.mesh.sent.length := by
  obtain ⟨handle, localUserId, now, address, object, rfl, hobject, hbegins⟩ :=
    begins_of_mem_asks hasked
  rw [step] at h
  split at h
  · obtain rfl := Option.some.inj h
    obtain ⟨reached, hgrew, -, hall⟩ := @searchFind_letters s handle _ now address _
      hnamed hobject hbegins
    exact ⟨_, hgrew.mem_drop (List.mem_map_of_mem (hall peer hasked hthere))⟩
  · cases h

/-! ## Steps that search nothing -/

/-- The searches are as they were, and no handle is given out again. -/
structure SameSearches (s s' : Lobbies) : Prop where
  searches : s'.searches = s.searches
  handles : s.nextHandle ≤ s'.nextHandle

theorem SameSearches.refl (s : Lobbies) : SameSearches s s := ⟨rfl, le_rfl⟩

/-- No step about a lobby searches. -/
theorem SameSearches.of_still (h : s'.still = s.still) : SameSearches s s' := by
  refine ⟨?_, le_of_eq ?_⟩
  · show s'.still.searches = s.still.searches
    rw [h]
  · show s.still.nextHandle = s'.still.nextHandle
    rw [h]

theorem sameSearches_updateLobbyModification (o : LobbyIdOptions) :
    SameSearches s (s.updateLobbyModification o).2.2 := by
  rw [updateLobbyModification]
  split
  · split
    · exact .refl s
    · exact ⟨rfl, Nat.le_succ _⟩
  · exact .refl s

theorem sameSearches_modify (handle : GameHandle)
    (edit : LobbyModificationObject → Except ResultCode LobbyModificationObject) :
    SameSearches s (s.modify handle edit).2 := by
  rw [modify]
  split
  · exact .refl s
  · split
    · exact .refl s
    · exact ⟨rfl, le_rfl⟩

theorem sameSearches_copyDetails (infos : LobbyInfos) : SameSearches s (s.copyDetails infos).2.2 :=
  ⟨rfl, Nat.le_succ _⟩

theorem sameSearches_searchCopyResult (handle : GameHandle) (lobbyIndex : UInt32) :
    SameSearches s (s.searchCopyResult handle lobbyIndex).2.2 := by
  rw [searchCopyResult]
  split
  · exact .refl s
  · split
    · exact .refl s
    · split
      · exact .refl s
      · exact sameSearches_copyDetails _

theorem sameSearches_copyLobbyDetailsHandle (lobbyId : Option Bytes) :
    SameSearches s (s.copyLobbyDetailsHandle lobbyId).2.2 := by
  cases lobbyId with
  | none => exact .refl s
  | some lobbyId =>
    rw [copyLobbyDetailsHandle]
    split
    · exact .refl s
    · exact sameSearches_copyDetails _

/-- The calls about searches. -/
def Call.searches : Call → Bool
  | .createLobbySearch _ => true
  | .searchSetLobbyId _ _ => true
  | .searchSetTargetUser _ _ => true
  | .searchSetParameter _ _ => true
  | .searchRemoveParameter _ _ => true
  | .searchSetMaxResults _ _ => true
  | .searchFind _ _ _ _ => true
  | .searchRelease _ => true
  | _ => false

theorem sameSearches_call {c : Call} (h : c.searches = false) : SameSearches s (s.call c) := by
  cases c with
  | updateLobbyModification o => exact sameSearches_updateLobbyModification o
  | searchCopyResult handle lobbyIndex => exact sameSearches_searchCopyResult handle lobbyIndex
  | copyLobbyDetailsHandle lobbyId => exact sameSearches_copyLobbyDetailsHandle lobbyId
  | detailsRelease handle => exact ⟨rfl, le_rfl⟩
  | modificationSetBucketId handle _ => exact sameSearches_modify handle _
  | modificationSetPermissionLevel handle _ => exact sameSearches_modify handle _
  | modificationSetMaxMembers handle _ => exact sameSearches_modify handle _
  | modificationSetInvitesAllowed handle _ => exact sameSearches_modify handle _
  | modificationSetAllowedPlatformIds handle => exact sameSearches_modify handle _
  | modificationAddAttribute handle _ => exact sameSearches_modify handle _
  | modificationRemoveAttribute handle _ => exact sameSearches_modify handle _
  | modificationAddMemberAttribute handle _ => exact sameSearches_modify handle _
  | modificationRemoveMemberAttribute handle _ => exact sameSearches_modify handle _
  | modificationRelease handle => exact ⟨rfl, le_rfl⟩
  | createLobbySearch | searchSetLobbyId | searchSetTargetUser | searchSetParameter
  | searchRemoveParameter | searchSetMaxResults | searchFind | searchRelease => cases h
  | _ => exact .of_still (still_call rfl)

/-! ## Answers -/

theorem takeAnswer_eq (handle : GameHandle) (source : Bytes) (answer : LobbySearchResponse) :
    s.takeAnswer handle source answer =
      match s.searches.find handle with
      | none => s
      | some object =>
        if object.takes source answer then
          { s with searches := s.searches.put handle (object.answered source answer) }
        else s := by
  rw [takeAnswer]
  cases s.searches.find handle with
  | none => rfl
  | some object =>
    dsimp only
    by_cases htakes : object.takes source answer = true
    · rw [if_pos htakes, if_neg]
      · rfl
      · simp only [LobbySearchObject.takes, decide_eq_true_eq] at htakes
        tauto
    · rw [if_neg htakes, if_pos]
      simp only [LobbySearchObject.takes, decide_eq_true_eq] at htakes
      tauto

/-- A search does not take a second answer of a peer. -/
theorem takes_answered (object : LobbySearchObject) (source : Bytes)
    (answer : LobbySearchResponse) :
    (object.answered source answer).takes source answer = false := by
  simp [LobbySearchObject.takes, LobbySearchObject.answered]

/-- What an answer makes of the searches it is shown to: nothing, or one of them took it, once. -/
theorem find_foldl_takeAnswer (source : Bytes) (answer : LobbySearchResponse)
    (waiting : List (ResultAddress × GameHandle)) (s : Lobbies) (handle : GameHandle) :
    let s' := waiting.foldl (fun s p ↦ s.takeAnswer p.2 source answer) s
    s'.searches.find handle = s.searches.find handle ∨ ∃ object,
      s.searches.find handle = some object ∧ object.takes source answer = true ∧
      s'.searches.find handle = some (object.answered source answer) := by
  induction waiting generalizing s with
  | nil => exact .inl rfl
  | cons p waiting ih =>
    intro s'
    rw [show s' = waiting.foldl _ (s.takeAnswer p.2 source answer) from rfl, takeAnswer_eq]
    cases hobject : s.searches.find p.2 with
    | none => exact ih s
    | some object =>
      dsimp only
      by_cases htakes : object.takes source answer = true
      · rw [if_pos htakes]
        by_cases hhandle : p.2 = handle
        · subst hhandle
          rcases ih { s with searches := s.searches.put p.2 (object.answered source answer) } with
            heq | ⟨other, hother, hagain, -⟩
          · rw [HandleStore.find_put, if_pos rfl] at heq
            exact .inr ⟨object, hobject, htakes, heq⟩
          · rw [HandleStore.find_put, if_pos rfl] at hother
            obtain rfl := Option.some.inj hother
            rw [takes_answered] at hagain
            cases hagain
        · have hput := ih { s with searches := s.searches.put p.2 (object.answered source answer) }
          rwa [HandleStore.find_put, if_neg hhandle] at hput
      · rw [if_neg htakes]
        exact ih s

/-! ## Each step -/

/-- What a step of the interface may be, as a step of its searches: an answer is of the lobbies
of its sender. -/
abbrev DeskStep (s : Lobbies) (i : Input) (s' : Lobbies) : Prop :=
  Desk.Step LobbySearchObject.quest lobbyMatches (fun source infos ↦ infos.ownerId = source)
    s.hostedInfos i.source (s.asks i) s.desk s'.desk

theorem SameSearches.deskStep (h : SameSearches s s') (hasks : s.asks i = []) : DeskStep s i s' :=
  .aside hasks h.searches h.handles

theorem deskStep_editSearch {handle : GameHandle} {version : Int32} {given : Bool}
    {edit : LobbySearchObject → Except ResultCode LobbySearchObject} (hasks : s.asks i = [])
    (hedit : ∀ object object', edit object = .ok object' → object'.results = object.results ∧
      object'.searching = object.searching ∧ object'.awaiting = object.awaiting) :
    DeskStep s i (s.editSearch handle version given edit).2 := by
  rw [editSearch]
  split
  · exact .aside hasks rfl le_rfl
  · rename_i object hobject
    split
    · exact .aside hasks rfl le_rfl
    · split
      · exact .aside hasks rfl le_rfl
      · split
        · exact .aside hasks rfl le_rfl
        · rename_i object' hobject'
          obtain ⟨hresults, hsearching, hawaiting⟩ := hedit object object' hobject'
          exact .edited hobject hresults hsearching hawaiting

theorem editQuery_ok {edit : LobbySearch → LobbySearch} {object object' : LobbySearchObject}
    (h : editQuery edit object = .ok object') : object'.results = object.results ∧
      object'.searching = object.searching ∧ object'.awaiting = object.awaiting := by
  cases h
  exact ⟨rfl, rfl, rfl⟩

theorem deskStep_createLobbySearch (o : Setting UInt32) :
    DeskStep s (.call (.createLobbySearch o)) (s.createLobbySearch o).2.2 := by
  rw [createLobbySearch]
  split
  · exact .aside rfl rfl le_rfl
  · exact .created rfl rfl

/-- What a search lists when it starts. -/
theorem mem_hostedMatches {query : LobbySearch} {infos : LobbyInfos}
    (h : infos ∈ s.hostedMatches query) : infos ∈ s.hostedInfos ∧
    lobbyMatches infos query = true := by
  obtain ⟨p, hp, rfl⟩ := List.mem_map.1 h
  obtain ⟨hin, hp⟩ := List.mem_filter.1 hp
  rw [decide_eq_true_eq] at hp
  exact ⟨List.mem_map.2 ⟨p, List.mem_filter.2 ⟨hin, by simpa using hp.1⟩, rfl⟩, hp.2⟩

theorem deskStep_startSearch {handle : GameHandle} {object : LobbySearchObject} {now : Nat}
    {address : ResultAddress} (hobject : s.searches.find handle = some object)
    (hidle : object.searching = false) (hasks : s.asks i = s.audience object) :
    DeskStep s i (s.startSearch handle object now address) := by
  rw [startSearch]
  dsimp only
  have haudience : (s.mesh.peers.filter fun peer ↦
      object.query.targetUserId = [] ∨ peer = object.query.targetUserId) = s.asks i := hasks.symm
  rw [haudience]
  have hlost := lost_foldl_sendTo (D := fun _ ↦ False) s (.search { object.query with
    searchId := Sessions.searchIdOf s.nextSearchId, maxResults := object.maxResults }) (s.asks i)
  generalize (s.asks i).foldl _ s = sent at hlost ⊢
  have hdesk : sent.searches = s.searches ∧ sent.nextHandle = s.nextHandle := by
    rw [hlost.rest]
    exact ⟨rfl, rfl⟩
  rw [DeskStep, desk, hdesk.1, hdesk.2]
  refine .started hobject hidle rfl rfl ?_ (fun infos hin ↦ ?_) (List.length_take_le _ _)
  · rw [hasks]
    exact List.filter_subset_self _
  · exact mem_hostedMatches (List.mem_of_mem_take hin)

theorem deskStep_searchFind (handle : GameHandle) (localUserId : Option Bytes) (now : Nat)
    (address : ResultAddress) :
    DeskStep s (.call (.searchFind handle localUserId now address))
      (s.searchFind handle localUserId now address).2 := by
  have hasks : s.asks (.call (.searchFind handle localUserId now address)) =
      match s.searches.find handle with
      | none => []
      | some object => if begins localUserId object then s.audience object else [] := rfl
  cases hobject : s.searches.find handle with
  | none =>
    rw [hobject] at hasks
    have hsame : (s.searchFind handle localUserId now address).2 = s := by
      simp [searchFind, hobject]
    rw [hsame]
    exact .aside hasks rfl le_rfl
  | some object =>
    rw [hobject] at hasks
    dsimp only at hasks
    -- A call that is refused starts nothing.
    have hrefused (hnot : ¬ begins localUserId object = true) :
        DeskStep s (.call (.searchFind handle localUserId now address)) s :=
      .aside (by rw [hasks, if_neg hnot]) rfl le_rfl
    cases localUserId with
    | none =>
      have hsame : (s.searchFind handle none now address).2 = s := by simp [searchFind, hobject]
      rw [hsame]
      exact hrefused (by simp [begins])
    | some user =>
      simp only [searchFind, hobject]
      split
      · rename_i hmode
        exact hrefused (by simp [begins, hmode])
      · rename_i hmode
        split
        · rename_i hsearching
          exact hrefused (by simp [begins, hsearching])
        · rename_i hidle
          rw [Bool.not_eq_true] at hidle
          refine deskStep_startSearch hobject hidle ?_
          rw [hasks, if_pos]
          simpa [begins, hidle] using hmode

theorem deskStep_call (c : Call) : DeskStep s (.call c) (s.call c) := by
  by_cases hsearches : c.searches = false
  · refine (sameSearches_call hsearches).deskStep ?_
    cases c <;> first | rfl | cases hsearches
  · cases c with
    | createLobbySearch o => exact deskStep_createLobbySearch o
    | searchSetLobbyId handle o => exact deskStep_editSearch rfl fun _ _ h ↦ editQuery_ok h
    | searchSetTargetUser handle o => exact deskStep_editSearch rfl fun _ _ h ↦ editQuery_ok h
    | searchSetParameter handle o =>
      refine deskStep_editSearch rfl fun object object' h ↦ ?_
      split at h
      · cases h
      · exact editQuery_ok h
    | searchRemoveParameter handle o =>
      refine deskStep_editSearch rfl fun object object' h ↦ ?_
      dsimp only at h
      split at h
      · exact editQuery_ok h
      · cases h
    | searchSetMaxResults handle o =>
      refine deskStep_editSearch rfl fun object object' h ↦ ?_
      split at h
      · cases h
      · cases h
        exact ⟨rfl, rfl, rfl⟩
    | searchFind handle localUserId now address => exact deskStep_searchFind handle _ now address
    | searchRelease handle => exact .released handle
    | _ => exact absurd rfl hsearches

theorem deskStep_onSearchResponse {message : NetEnvelope} (answer : LobbySearchResponse) :
    DeskStep s (.receive message) (s.onSearchResponse message.sourceId answer) := by
  have hfind := find_foldl_takeAnswer message.sourceId answer s.pendingFinds.toList s
  have hrest : ∀ (waiting : List (ResultAddress × GameHandle)) (s : Lobbies),
      let s' := waiting.foldl (fun s p ↦ s.takeAnswer p.2 message.sourceId answer) s
      s'.mesh = s.mesh ∧ s'.nextHandle = s.nextHandle := by
    intro waiting
    induction waiting with
    | nil => exact fun s ↦ ⟨rfl, rfl⟩
    | cons p waiting ih =>
      intro s s'
      have hfirst : (s.takeAnswer p.2 message.sourceId answer).mesh = s.mesh ∧
          (s.takeAnswer p.2 message.sourceId answer).nextHandle = s.nextHandle := by
        rw [takeAnswer]
        split
        · exact ⟨rfl, rfl⟩
        · split <;> exact ⟨rfl, rfl⟩
      exact ⟨(ih _).1.trans hfirst.1, (ih _).2.trans hfirst.2⟩
  have hrest := hrest s.pendingFinds.toList s
  rw [onSearchResponse]
  generalize s.pendingFinds.toList.foldl _ s = s' at hfind hrest ⊢
  rw [DeskStep, show s'.desk = { s.desk with store := s'.searches } by
    rw [desk, hrest.1, hrest.2]; rfl]
  refine .answered fun handle ↦ (hfind handle).imp_right ?_
  rintro ⟨object, hobject, htakes, hafter⟩
  simp only [LobbySearchObject.takes, decide_eq_true_eq] at htakes
  refine ⟨object, _, object.listable message.sourceId answer, hobject, hafter, htakes.1, htakes.2.2,
    fun infos hin ↦ ?_, List.length_take_le _ _, rfl⟩
  have hfits := (List.mem_filter.1 (List.mem_of_mem_take hin)).2
  exact of_decide_eq_true hfits

theorem deskStep_receive (message : NetEnvelope) :
    DeskStep s (.receive message) (s.onNetworkMessage message) := by
  rcases still_receive (s := s) message with hstill | ⟨answer, -, heq⟩
  · exact (SameSearches.of_still hstill).deskStep rfl
  · rw [heq]
    exact deskStep_onSearchResponse answer

theorem deskStep_collect (address : ResultAddress) (now : Nat) :
    DeskStep s (.collect address now) (s.collect address now) := by
  have hfree (ready : Bool) (s' : Lobbies) (h : DeskStep s (.collect address now) s') :
      DeskStep s (.collect address now) (if ready then s'.freeCallback address else s') := by
    split
    · exact h
    · exact h
  rw [collect]
  split
  · exact .aside rfl rfl le_rfl
  · dsimp only
    refine hfree _ _ ?_
    rw [runCallbacks]
    split
    · rw [settleFind]
      split
      · exact .aside rfl rfl le_rfl
      · rename_i object hobject
        split
        · exact .settled hobject rfl
        · exact .aside rfl rfl le_rfl
    · split
      · split
        · exact .aside rfl rfl le_rfl
        · rw [settleJoin]
          split
          · split
            · exact .aside rfl rfl le_rfl
            · split
              · exact .aside rfl rfl le_rfl
              · exact .aside rfl rfl le_rfl
          · exact .aside rfl rfl le_rfl
      · exact .aside rfl rfl le_rfl

/-- **What one step makes of the searches.** -/
theorem deskStep_of_step (h : step s i = some s') : DeskStep s i s' := by
  cases i with
  | call c =>
    rw [step] at h
    split at h
    · cases h
      exact deskStep_call c
    · cases h
  | receive message =>
    cases h
    exact deskStep_receive message
  | collect address now =>
    cases h
    exact deskStep_collect address now
  | around peers known losses =>
    cases h
    exact .aside rfl rfl le_rfl

end Lobbies
end EosMesh
