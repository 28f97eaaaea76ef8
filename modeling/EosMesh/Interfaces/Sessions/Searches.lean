import EosMesh.Interfaces.Searches
import EosMesh.Interfaces.Sessions.Staged
import EosMesh.Interfaces.Sessions.Waiting

/-!
# The searches of the sessions interface

What a step makes of the searches: `Sessions.deskStep_of_step` puts each step of the interface under
one of those of `Desk.Step`.  All that `Interfaces.Searches` says of searches is true of this
interface by it.

* `quest` reads a search of the interface as a `Quest`, and `desk` all of them.
* `Sessions.namesSender` is the one thing that is not tested of an answer: that the sessions in it
  are of the peer it comes from.
* `asks` are the peers that a step asks, read off its input: those that are known and reached when a
  find begins.  `searchFind_letters` says that these are the peers to whom the question is sent, one
  letter each, but for those that are lost in the sending; `letter_of_asks` says it of a step.

A find that starts sends its question to one peer after the other, and each send may lose peers.
What it awaits is counted as it goes along, so a peer that was lost before its turn is not awaited,
and one that is lost after it is.
-/

set_option autoImplicit false

namespace EosMesh

open Lib
open Std (TreeMap)

/-- The message asks something. -/
def SessionMessage.isSearch : SessionMessage → Bool
  | .search _ => true
  | _ => false

namespace SessionSearchObject

variable (object : SessionSearchObject)

/-- A search as a quest. -/
def quest : Quest SessionSearch SessionInfos where
  query := object.query
  results := object.results
  maxResults := object.maxResults.toNat
  searching := object.searching
  awaiting := object.awaiting

/-- A search takes an answer to it, of a peer it awaits. -/
def takes (source : Bytes) (answer : SessionSearchResponse) : Bool :=
  object.searching ∧ object.query.searchId = answer.searchId ∧ source ∈ object.awaiting

/-- What an answer has for a search: what fits, as far as there is room. -/
def listable (answer : SessionSearchResponse) : List SessionInfos :=
  (answer.sessions.filter fun infos ↦ Sessions.sessionMatches infos object.query).take
    (object.maxResults.toNat - object.results.length)

/-- A search once it took an answer. -/
def answered (source : Bytes) (answer : SessionSearchResponse) : SessionSearchObject :=
  { object with
    awaiting := object.awaiting.filter (· ≠ source)
    results := object.results ++ object.listable answer }

end SessionSearchObject

namespace Sessions

variable {s s' : Sessions} {i : Input}

/-- The searches, and whom they may wait for. -/
def desk (s : Sessions) : Desk SessionSearchObject where
  store := s.searches
  nextHandle := s.nextHandle
  peers := s.mesh.peers

/-- The sessions hosted here. -/
def hostedInfos (s : Sessions) : List SessionInfos :=
  (s.sessions.toList.filter fun p ↦ p.2.localState = .hosting).map fun p ↦ p.2.infos

/-- Whoever sent what the step takes in. -/
def Input.source : Input → Bytes
  | .receive message => message.sourceId
  | _ => []

/-- The answer in a message, if there is one that is for us. -/
def answerIn (s : Sessions) (message : NetEnvelope) : Option SessionSearchResponse :=
  if message.sourceId = [] ∨ message.sourceId = s.productUserId ∨ message.gameId ≠ s.productId then
    none
  else match SessionMessage.read message.typeTag message.payload with
    | some (.searchResponse answer) => some answer
    | _ => none

/-- The searches whose results are pending. -/
def pendingSearches (s : Sessions) : List SessionSearchObject :=
  s.pendingFinds.toList.filterMap fun p ↦ s.searches.find p.2

/-- The condition on a step: what an answer adds to a search names its sender as the owner. -/
def namesSender (s : Sessions) : Input → Bool
  | .receive message => (s.answerIn message).all fun answer ↦
    s.pendingSearches.all fun object ↦ ¬ object.takes message.sourceId answer ∨
      ∀ infos ∈ object.listable answer, infos.ownerId = message.sourceId
  | _ => true

/-- A call that starts a search, as it is checked. -/
def begins (options : SearchFindOptions) (object : SessionSearchObject) : Bool :=
  versionOk options.apiVersion sessionSearchFindApiLatest ∧
    ¬ (options.apiVersion ≥ sessionSearchFindWithLocalUser ∧ options.localUserId = none) ∧
    asksOneThing object.query ∧ object.searching = false

/-- Whom a search asks: everyone, or the one player it is about. -/
def audience (s : Sessions) (object : SessionSearchObject) : List Bytes :=
  s.mesh.peers.filter fun peer ↦
    object.query.targetUserId = [] ∨ peer = object.query.targetUserId

/-- The peers a step asks: those of the search it starts. -/
def asks (s : Sessions) : Input → List Bytes
  | .call (.searchFind handle options _ _) =>
    match s.searches.find handle with
    | none => []
    | some object => if begins options object then s.audience object else []
  | _ => []

/-! ## Whom a search asks -/

section Letters

variable {counts : SessionMessage → Bool}

/-- A loss sends nothing. -/
theorem grew_lose (s : Sessions) (peer : Bytes) : s.mesh.Grew counts [] (s.lose peer).mesh := by
  rw [lose]
  split
  · exact (Mesh.Grew.refl s.mesh).drop peer
  · exact .refl s.mesh

theorem grew_sendTo (s : Sessions) (peer : Bytes) {message : SessionMessage}
    (hcounts : counts message = true) :
    s.mesh.Grew counts ((s.mesh.recipients peer).map fun p ↦ (p, message))
      (s.sendTo peer message).mesh := by
  have hall (lost : List Bytes) (s : Sessions) :
      s.mesh.Grew counts [] (lost.foldl lose s).mesh := by
    induction lost generalizing s with
    | nil => exact .refl s.mesh
    | cons peer lost ih => exact (grew_lose s peer).trans (ih _)
  have hsend : s.mesh.Grew counts _ _ := Mesh.grew_send s.mesh peer message
  rw [if_pos hcounts] at hsend
  have hboth := hsend.trans
    (hall (s.mesh.send peer message).2 { s with mesh := (s.mesh.send peer message).1 })
  rwa [List.append_nil] at hboth

end Letters

/-- What a search says to those it asks. -/
def question (s : Sessions) (object : SessionSearchObject) : SessionMessage :=
  .search
    { object.query with
      searchId := searchIdOf s.nextSearchId
      maxResults := object.maxResults }

/-- **Whom the call that starts a search asks**: its search messages are the query, to peers it asks
alone, and to each of those that is not lost in it. -/
theorem searchFind_letters {handle : GameHandle} {options : SearchFindOptions} {now : Nat}
    {address : ResultAddress} {object : SessionSearchObject} (hnamed : [] ∉ s.mesh.peers)
    (hobject : s.searches.find handle = some object) (hbegins : begins options object = true) :
    ∃ reached, s.mesh.Grew SessionMessage.isSearch
        (reached.map fun peer ↦ (peer, s.question object))
        (s.searchFind handle options now address).2.mesh ∧
      reached ⊆ s.asks (.call (.searchFind handle options now address)) ∧
      ∀ peer ∈ s.asks (.call (.searchFind handle options now address)),
        peer ∈ (s.searchFind handle options now address).2.mesh.peers → peer ∈ reached := by
  have hasks : s.asks (.call (.searchFind handle options now address)) = s.audience object := by
    rw [asks, hobject]
    exact if_pos hbegins
  have hstarts : (s.searchFind handle options now address).2 =
      s.startSearch handle object now address := by
    rw [begins, decide_eq_true_eq] at hbegins
    obtain ⟨hversion, hnobody, hone, hidle⟩ := hbegins
    rw [searchFind, hobject]
    dsimp only
    rw [if_neg (by simp [hversion, hnobody]), if_neg (by simp [hone]), if_neg (by simp [hidle])]
  rw [hasks, hstarts]
  exact @Mesh.grew_foldl _ SessionMessage.isSearch _ Sessions.mesh _ (s.question object)
    (fun s' peer ↦ grew_sendTo s' peer rfl) _ (fun hin ↦ hnamed (List.mem_of_mem_filter hin)) s

/-- Only the call that starts a search asks. -/
theorem begins_of_mem_asks {peer : Bytes} (h : peer ∈ s.asks i) :
    ∃ handle options now address object, i = .call (.searchFind handle options now address) ∧
      s.searches.find handle = some object ∧ begins options object = true := by
  rw [asks.eq_def] at h
  split at h
  · rename_i handle options now address
    split at h
    · cases h
    · rename_i object hobject
      split at h
      · exact ⟨handle, options, now, address, object, rfl, hobject, ‹_›⟩
      · cases h
  · cases h

/-- A peer that a step asks, and does not lose, was sent the query in it. -/
theorem letter_of_asks (h : step s i = some s') (hnamed : [] ∉ s.mesh.peers) {peer : Bytes}
    (hasked : peer ∈ s.asks i) (hthere : peer ∈ s'.mesh.peers) :
    ∃ query, (peer, .search query) ∈ s'.mesh.sent.drop s.mesh.sent.length := by
  obtain ⟨handle, options, now, address, object, rfl, hobject, hbegins⟩ := begins_of_mem_asks hasked
  rw [step] at h
  split at h
  · obtain rfl := Option.some.inj h
    obtain ⟨reached, hgrew, -, hall⟩ := @searchFind_letters s handle _ now address _
      hnamed hobject hbegins
    exact ⟨_, hgrew.mem_drop (List.mem_map_of_mem (hall peer hasked hthere))⟩
  · cases h

/-! ## Answers -/

theorem takeAnswer_eq (handle : GameHandle) (source : Bytes) (answer : SessionSearchResponse) :
    s.takeAnswer handle source answer =
      match s.searches.find handle with
      | none => s
      | some object =>
        if object.takes source answer then
          { s with searches := s.searches.put handle (object.answered source answer) }
        else s := by
  rw [takeAnswer]
  cases s.searches.find handle with
  | none => rfl
  | some object =>
    dsimp only
    by_cases htakes : object.takes source answer = true
    · rw [if_pos htakes, if_neg]
      · rfl
      · simp only [SessionSearchObject.takes, decide_eq_true_eq] at htakes
        tauto
    · rw [if_neg htakes, if_pos]
      simp only [SessionSearchObject.takes, decide_eq_true_eq] at htakes
      tauto

/-- A search does not take a second answer of a peer. -/
theorem takes_answered (object : SessionSearchObject) (source : Bytes)
    (answer : SessionSearchResponse) :
    (object.answered source answer).takes source answer = false := by
  simp [SessionSearchObject.takes, SessionSearchObject.answered]

/-- What an answer makes of the searches it is shown to: nothing, or one of them took it, once. -/
theorem find_foldl_takeAnswer (source : Bytes) (answer : SessionSearchResponse)
    (waiting : List (ResultAddress × GameHandle)) (s : Sessions) (handle : GameHandle) :
    let s' := waiting.foldl (fun s p ↦ s.takeAnswer p.2 source answer) s
    s'.searches.find handle = s.searches.find handle ∨ ∃ object,
      s.searches.find handle = some object ∧ (∃ p ∈ waiting, p.2 = handle) ∧
      object.takes source answer = true ∧
      s'.searches.find handle = some (object.answered source answer) := by
  induction waiting generalizing s with
  | nil => exact .inl rfl
  | cons p waiting ih =>
    intro s'
    rw [show s' = waiting.foldl _ (s.takeAnswer p.2 source answer) from rfl, takeAnswer_eq]
    have hrest (s₁ : Sessions) (h : s₁.searches.find handle = s.searches.find handle) :
        (waiting.foldl (fun s p ↦ s.takeAnswer p.2 source answer) s₁).searches.find handle =
          s.searches.find handle ∨ ∃ object, s.searches.find handle = some object ∧
          (∃ p' ∈ p :: waiting, p'.2 = handle) ∧ object.takes source answer = true ∧
          (waiting.foldl (fun s p ↦ s.takeAnswer p.2 source answer) s₁).searches.find handle =
            some (object.answered source answer) := by
      rcases ih s₁ with heq | ⟨object, hobject, ⟨p', hp', hhandle⟩, htakes, hafter⟩
      · exact .inl (heq.trans h)
      · exact .inr ⟨object, h ▸ hobject, ⟨p', List.mem_cons_of_mem _ hp', hhandle⟩, htakes, hafter⟩
    cases hobject : s.searches.find p.2 with
    | none => exact hrest s rfl
    | some object =>
      dsimp only
      by_cases htakes : object.takes source answer = true
      · rw [if_pos htakes]
        by_cases hhandle : p.2 = handle
        · subst hhandle
          rcases ih { s with searches := s.searches.put p.2 (object.answered source answer) } with
            heq | ⟨other, hother, -, hagain, -⟩
          · rw [HandleStore.find_put, if_pos rfl] at heq
            exact .inr ⟨object, hobject, ⟨p, List.mem_cons_self, rfl⟩, htakes, heq⟩
          · rw [HandleStore.find_put, if_pos rfl] at hother
            obtain rfl := Option.some.inj hother
            rw [takes_answered] at hagain
            cases hagain
        · exact hrest _ (by rw [HandleStore.find_put, if_neg hhandle])
      · rw [if_neg htakes]
        exact hrest s rfl

/-! ## Each step -/

variable {From : Bytes → SessionInfos → Prop}

/-- What a step of the interface may be, as a step of its searches. -/
abbrev DeskStep (From : Bytes → SessionInfos → Prop) (s : Sessions) (i : Input) (s' : Sessions) :
    Prop :=
  Desk.Step SessionSearchObject.quest sessionMatches From s.hostedInfos i.source (s.asks i) s.desk
    s'.desk

/-- What an answer adds to a search may come from its sender. -/
def Fair (From : Bytes → SessionInfos → Prop) (s : Sessions) (i : Input) : Prop :=
  ∀ message answer, i = .receive message → s.answerIn message = some answer →
    ∀ object ∈ s.pendingSearches, object.takes message.sourceId answer = true →
      ∀ infos ∈ object.listable answer, From message.sourceId infos

theorem fair_of_namesSender (h : s.namesSender i = true) :
    Fair (fun source infos ↦ infos.ownerId = source) s i := by
  rintro message answer rfl hanswer object hobject htakes
  simp only [namesSender, hanswer, Option.all_some, List.all_eq_true, decide_eq_true_eq] at h
  exact (h object hobject).resolve_left (not_not.2 htakes)

theorem SameWaiting.deskStep (h : SameWaiting s s') (hasks : s.asks i = []) :
    DeskStep From s i s' :=
  .aside hasks h.searches h.handles

theorem deskStep_editSearch {handle : GameHandle} {version : Int32}
    {edit : SessionSearchObject → Except ResultCode SessionSearchObject} (hasks : s.asks i = [])
    (hedit : ∀ object object', edit object = .ok object' → object'.results = object.results ∧
      object'.searching = object.searching ∧ object'.awaiting = object.awaiting) :
    DeskStep From s i (s.editSearch handle version edit).2 := by
  rw [editSearch]
  split
  · exact .aside hasks rfl le_rfl
  · rename_i object hobject
    split
    · exact .aside hasks rfl le_rfl
    · split
      · exact .aside hasks rfl le_rfl
      · rename_i object' hobject'
        obtain ⟨hresults, hsearching, hawaiting⟩ := hedit object object' hobject'
        exact .edited hobject hresults hsearching hawaiting

theorem editQuery_ok {edit : SessionSearch → SessionSearch} {object object' : SessionSearchObject}
    (h : editQuery edit object = .ok object') : object'.results = object.results ∧
      object'.searching = object.searching ∧ object'.awaiting = object.awaiting := by
  cases h
  exact ⟨rfl, rfl, rfl⟩

theorem deskStep_createSessionSearch (o : Setting UInt32) :
    DeskStep From s (.call (.createSessionSearch o)) (s.createSessionSearch o).2.2 := by
  rw [createSessionSearch]
  split
  · exact .aside rfl rfl le_rfl
  · exact .created rfl rfl

/-- What a search lists when it starts. -/
theorem mem_hostedMatches {query : SessionSearch} {infos : SessionInfos}
    (h : infos ∈ s.hostedMatches query) : infos ∈ s.hostedInfos ∧
    sessionMatches infos query = true := by
  obtain ⟨p, hp, rfl⟩ := List.mem_map.1 h
  obtain ⟨hin, hp⟩ := List.mem_filter.1 hp
  rw [decide_eq_true_eq] at hp
  exact ⟨List.mem_map.2 ⟨p, List.mem_filter.2 ⟨hin, by simpa using hp.1⟩, rfl⟩, hp.2⟩

/-- The sends of a search keep what it needs. -/
theorem lost_ask (query : SessionSearch) (peers : List Bytes) (s : Sessions) :
    Lost s (peers.foldl (fun s peer ↦ s.sendTo peer (.search query)) s) := by
  induction peers generalizing s with
  | nil => exact .refl s
  | cons peer peers ih => exact (lost_sendTo _ _ _).trans (ih _)

theorem deskStep_startSearch {handle : GameHandle} {object : SessionSearchObject} {now : Nat}
    {address : ResultAddress} (hobject : s.searches.find handle = some object)
    (hidle : object.searching = false) (hasks : s.asks i = s.audience object) :
    DeskStep From s i (s.startSearch handle object now address) := by
  rw [startSearch]
  dsimp only
  have haudience : (s.mesh.peers.filter fun peer ↦
      object.query.targetUserId = [] ∨ peer = object.query.targetUserId) = s.asks i := hasks.symm
  rw [haudience]
  obtain ⟨gone, -, hlost⟩ := lost_ask { object.query with
    searchId := searchIdOf s.nextSearchId, maxResults := object.maxResults } (s.asks i) s
  generalize (s.asks i).foldl _ s = sent at hlost ⊢
  have hdesk : sent.searches = s.searches ∧ sent.nextHandle = s.nextHandle := by
    rw [hlost.rest]
    exact ⟨rfl, rfl⟩
  rw [DeskStep, desk, hdesk.1, hdesk.2]
  refine .started hobject hidle rfl rfl ?_ (fun infos hin ↦ ?_) (List.length_take_le _ _)
  · rw [hasks]
    exact List.filter_subset_self _
  · exact mem_hostedMatches (List.mem_of_mem_take hin)

theorem deskStep_searchFind (handle : GameHandle) (o : SearchFindOptions) (now : Nat)
    (address : ResultAddress) :
    DeskStep From s (.call (.searchFind handle o now address))
      (s.searchFind handle o now address).2 := by
  have hasks : s.asks (.call (.searchFind handle o now address)) =
      match s.searches.find handle with
      | none => []
      | some object => if begins o object then s.audience object else [] := rfl
  rw [searchFind]
  split
  · rename_i hnone
    exact .aside (by rw [hasks, hnone]) rfl le_rfl
  · rename_i object hobject
    rw [hobject] at hasks
    dsimp only at hasks
    -- A call that is refused starts nothing.
    have hrefused (hnot : ¬ begins o object = true) :
        DeskStep From s (.call (.searchFind handle o now address)) s :=
      .aside (by rw [hasks, if_neg hnot]) rfl le_rfl
    simp only [begins, decide_eq_true_eq] at hrefused
    split
    · exact hrefused (by tauto)
    · rename_i hversion
      split
      · exact hrefused (by simp_all)
      · rename_i hthing
        split
        · exact hrefused (by simp_all)
        · rename_i hidle
          rw [Bool.not_eq_true] at hidle
          refine deskStep_startSearch hobject hidle ?_
          rw [hasks, if_pos]
          simp only [begins, decide_eq_true_eq]
          tauto

theorem deskStep_call (c : Call) : DeskStep From s (.call c) (s.call c).2 := by
  by_cases hwaits : c.waits = false
  · refine (sameWaiting_call hwaits).deskStep ?_
    cases c <;> first | rfl | cases hwaits
  · cases c with
    | joinSession o now address => exact (waits_joinSession o now address).1.deskStep rfl
    | createSessionSearch o => exact deskStep_createSessionSearch o
    | searchSetSessionId handle o =>
      refine deskStep_editSearch rfl fun object object' h ↦ ?_
      split at h
      · cases h
      · exact editQuery_ok h
    | searchSetTargetUser handle o =>
      refine deskStep_editSearch rfl fun object object' h ↦ ?_
      split at h
      · cases h
      · exact editQuery_ok h
    | searchSetParameter handle o =>
      refine deskStep_editSearch rfl fun object object' h ↦ ?_
      split at h
      · cases h
      · exact editQuery_ok h
    | searchRemoveParameter handle o =>
      refine deskStep_editSearch rfl fun object object' h ↦ ?_
      split at h
      · cases h
      · split at h
        · exact editQuery_ok h
        · cases h
    | searchSetMaxResults handle o =>
      refine deskStep_editSearch rfl fun object object' h ↦ ?_
      split at h
      · cases h
      · cases h
        exact ⟨rfl, rfl, rfl⟩
    | searchFind handle o now address => exact deskStep_searchFind handle o now address
    | searchRelease handle => exact .released handle
    | _ => exact absurd rfl hwaits

theorem deskStep_onSearchResponse {message : NetEnvelope} {answer : SessionSearchResponse}
    (hreads : Reads s message (.searchResponse answer)) (hfair : Fair From s (.receive message)) :
    DeskStep From s (.receive message)
      (s.onSearchResponse message.sourceId message.gameId answer) := by
  rw [onSearchResponse]
  split
  · exact .aside rfl rfl le_rfl
  · rename_i hgame
    have hanswer : s.answerIn message = some answer := by
      rw [answerIn, if_neg (by simp [hreads.named, hreads.other, not_not.1 hgame]), hreads.read]
    have hcore := core_onSearchResponse (s := s) message.sourceId message.gameId answer
    have hstill := still_onMessage (s := s) message.sourceId message.gameId (.searchResponse answer)
    rw [onMessage] at hstill
    rw [onSearchResponse, if_neg hgame] at hcore hstill
    have hfind := find_foldl_takeAnswer message.sourceId answer s.pendingFinds.toList s
    generalize s.pendingFinds.toList.foldl _ s = s' at hcore hstill hfind ⊢
    have hmesh : s'.mesh = s.mesh := (core_eq_iff.1 hcore).2.2.2.1
    have hhandle : s'.still.nextHandle = s.still.nextHandle := by rw [hstill]
    rw [DeskStep, show s'.desk = { s.desk with store := s'.searches } by
      rw [desk, hmesh, show s'.nextHandle = s.nextHandle from hhandle]; rfl]
    refine .answered fun handle ↦ ?_
    rcases hfind handle with heq | ⟨object, hobject, ⟨p, hp, hhandle⟩, htakes, hafter⟩
    · exact .inl heq
    · have hpending : object ∈ s.pendingSearches :=
        List.mem_filterMap.2 ⟨p, hp, by rw [hhandle, hobject]⟩
      have hfrom := hfair message answer rfl hanswer object hpending htakes
      simp only [SessionSearchObject.takes, decide_eq_true_eq] at htakes
      refine .inr ⟨object, _, object.listable answer, hobject, hafter, htakes.1, htakes.2.2,
        fun infos hin ↦ ⟨hfrom infos hin, ?_⟩, List.length_take_le _ _, rfl⟩
      exact (List.mem_filter.1 (List.mem_of_mem_take hin)).2

theorem deskStep_receive {message : NetEnvelope} (hfair : Fair From s (.receive message)) :
    DeskStep From s (.receive message) (s.onNetworkMessage message) := by
  rcases waits_receive (s := s) message with hsame | ⟨answer, hreads, heq⟩ | ⟨answer, hreads, heq⟩
  · exact hsame.deskStep rfl
  · rw [heq]
    exact deskStep_onSearchResponse hreads hfair
  · rw [heq]
    exact (waits_onJoinResponse _ answer).1.deskStep rfl

theorem deskStep_collect (address : ResultAddress) (now : Nat) :
    DeskStep From s (.collect address now) (s.collect address now) := by
  have hfree (ready : Bool) (s' : Sessions) (h : DeskStep From s (.collect address now) s') :
      DeskStep From s (.collect address now) (if ready then s'.freeCallback address else s') := by
    split
    · exact h
    · exact h
  rw [collect]
  split
  · exact .aside rfl rfl le_rfl
  · dsimp only
    refine hfree _ _ ?_
    rw [runCallbacks]
    split
    · rw [settleFind]
      split
      · exact .aside rfl rfl le_rfl
      · rename_i object hobject
        split
        · exact .settled hobject rfl
        · exact .aside rfl rfl le_rfl
    · split
      · rw [settleJoin]
        split
        · split
          · exact .aside rfl rfl le_rfl
          · split
            · exact .aside rfl rfl le_rfl
            · exact .aside rfl rfl le_rfl
        · exact .aside rfl rfl le_rfl
      · exact .aside rfl rfl le_rfl

/-- **What one step makes of the searches.** -/
theorem deskStep_of_step (h : step s i = some s') (hfair : Fair From s i) :
    DeskStep From s i s' := by
  cases i with
  | call c =>
    rw [step] at h
    split at h
    · cases h
      exact deskStep_call c
    · cases h
  | receive message =>
    cases h
    exact deskStep_receive hfair
  | collect address now =>
    cases h
    exact deskStep_collect address now
  | around peers known losses =>
    cases h
    exact .aside rfl rfl le_rfl

end Sessions
end EosMesh
