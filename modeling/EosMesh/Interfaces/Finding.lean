import EosMesh.Interfaces.Lobby.Hosting
import EosMesh.Interfaces.Lobby.Searches
import EosMesh.Interfaces.Sessions.Copies
import EosMesh.Interfaces.Sessions.Searches

/-!
# What a search lists, and whom it waits for

The sessions and the lobbies search alike, but for one test: a lobby that a peer lists is that
peer's own, and of a session nobody asks.  And neither has anyone tell a search that a peer it
waits for is gone.

* `Sessions.asked_letters` and `Lobbies.asked_letters` tie whom the account of a search notes as
  asked to the search messages of the step that started it.
* `results_sound` says of the runs of both what their searches list.
* `searches_await_reachable` says when they wait only for peers that can answer.
-/

set_option autoImplicit false

namespace EosMesh

open Lib

/-! ## What is listed -/

/-- The sessions interface, with an account of every search. -/
def Sessions.watch : Watch Sessions SessionSearch SessionInfos → Sessions.Input →
    Option (Watch Sessions SessionSearch SessionInfos) :=
  Watch.next Sessions.step Sessions.desk SessionSearchObject.quest Sessions.hostedInfos
    Sessions.Input.source

/-- The lobby interface, with an account of every search. -/
def Lobbies.watch : Watch Lobbies LobbySearch LobbyInfos → Lobbies.Input →
    Option (Watch Lobbies LobbySearch LobbyInfos) :=
  Watch.next Lobbies.step Lobbies.desk LobbySearchObject.quest Lobbies.hostedInfos
    Lobbies.Input.source

/-- Every search of the sessions goes by its account, and lists a session only by its owner. -/
def Sessions.Sound (w : Watch Sessions SessionSearch SessionInfos) : Prop :=
  ∀ handle object, w.state.searches.find handle = some object →
    (w.account handle).Of sessionMatches (fun source infos ↦ infos.ownerId = source) object.quest

/-- Every search of the lobbies goes by its account, and lists a lobby only by its owner. -/
def Lobbies.Sound (w : Watch Lobbies LobbySearch LobbyInfos) : Prop :=
  ∀ handle object, w.state.searches.find handle = some object →
    (w.account handle).Of lobbyMatches (fun source infos ↦ infos.ownerId = source) object.quest

/-- The peers that the account of a search of the sessions notes as asked were sent the query, but
for those that were lost in that. -/
theorem Sessions.asked_letters {w w' : Watch Sessions SessionSearch SessionInfos}
    {i : Sessions.Input} (h : Sessions.watch w i = some w') (hnamed : [] ∉ w.state.mesh.peers)
    {handle : GameHandle} {object object' : SessionSearchObject}
    (hbefore : w.state.searches.find handle = some object)
    (hafter : w'.state.searches.find handle = some object') (hidle : object.searching = false)
    (hstarts : object'.searching = true) :
    ∀ peer ∈ (w'.account handle).asked, peer ∈ w'.state.mesh.peers →
      ∃ query, (peer, .search query) ∈ w'.state.mesh.sent.drop w.state.mesh.sent.length := by
  have hasked : (w'.account handle).asked = w.state.asks i :=
    Watch.asked_of_starts h
      (fun s' hs ↦ @Sessions.deskStep_of_step _ _ _ (fun _ _ ↦ True) hs
        fun _ _ _ _ _ _ _ _ _ ↦ trivial)
      (congrArg (Option.map _) hbefore) (congrArg (Option.map _) hafter) hidle hstarts
  obtain ⟨s', hs', rfl⟩ := Option.map_eq_some_iff.1 h
  intro peer hpeer hthere
  rw [hasked] at hpeer
  exact Sessions.letter_of_asks hs' hnamed hpeer hthere

/-- The same of a search of the lobbies. -/
theorem Lobbies.asked_letters {w w' : Watch Lobbies LobbySearch LobbyInfos}
    {i : Lobbies.Input} (h : Lobbies.watch w i = some w') (hnamed : [] ∉ w.state.mesh.peers)
    {handle : GameHandle} {object object' : LobbySearchObject}
    (hbefore : w.state.searches.find handle = some object)
    (hafter : w'.state.searches.find handle = some object') (hidle : object.searching = false)
    (hstarts : object'.searching = true) :
    ∀ peer ∈ (w'.account handle).asked, peer ∈ w'.state.mesh.peers →
      ∃ query, (peer, .search query) ∈ w'.state.mesh.sent.drop w.state.mesh.sent.length := by
  have hasked : (w'.account handle).asked = w.state.asks i :=
    Watch.asked_of_starts h (fun s' hs ↦ Lobbies.deskStep_of_step hs)
      (congrArg (Option.map _) hbefore) (congrArg (Option.map _) hafter) hidle hstarts
  obtain ⟨s', hs', rfl⟩ := Option.map_eq_some_iff.1 h
  intro peer hpeer hthere
  rw [hasked] at hpeer
  exact Lobbies.letter_of_asks hs' hnamed hpeer hthere

/-- **What searches list is sound**: along every run in which what an answer adds to a search for
sessions names its sender, and along every run of the lobbies. -/
theorem results_sound (self product : Bytes) :
    (∀ w, Reaches Sessions.watch (fun w i ↦ w.state.namesSender i = true)
      (Watch.start (Sessions.fresh self product)) w → Sessions.Sound w) ∧
    ∀ w, Reaches Lobbies.watch always (Watch.start (Lobbies.fresh self product)) w →
      Lobbies.Sound w := by
  refine ⟨fun w h handle object hobject ↦ ?_, fun w h handle object hobject ↦ ?_⟩
  · have hstart : (Sessions.fresh self product).desk.store = {} := rfl
    have hstep (s : Sessions) (i : Sessions.Input) (s' : Sessions) (hnames : s.namesSender i = true)
        (hs : Sessions.step s i = some s') : ∃ asked, Desk.Step SessionSearchObject.quest
          Sessions.sessionMatches (fun source infos ↦ infos.ownerId = source) s.hostedInfos i.source
          asked s.desk s'.desk :=
      ⟨_, Sessions.deskStep_of_step hs (Sessions.fair_of_namesSender hnames)⟩
    exact Watch.accounted hstart hstep h handle _ (congrArg (Option.map _) hobject)
  · have hstart : (Lobbies.fresh self product).desk.store = {} := rfl
    have hstep (s : Lobbies) (i : Lobbies.Input) (s' : Lobbies) (_ : True)
        (hs : Lobbies.step s i = some s') : ∃ asked, Desk.Step LobbySearchObject.quest
          Lobbies.lobbyMatches (fun source infos ↦ infos.ownerId = source) s.hostedInfos i.source
          asked s.desk s'.desk :=
      ⟨_, Lobbies.deskStep_of_step hs⟩
    exact Watch.accounted hstart hstep h handle _ (congrArg (Option.map _) hobject)

/-- `[1]` looks for the session of the id, which `[2]` and `[3]` may have. -/
def asking : List Sessions.Input :=
  [.around [[2], [3]] [[2], [3]] [],
    .call (.createSessionSearch { apiVersion := 1, value := 10 }),
    .call (.searchSetSessionId 1 { apiVersion := 1, value := some (List.replicate 16 3) }),
    .call (.searchFind 1 { apiVersion := 1, localUserId := none } 0 100)]

/-- What `[2]` answers. -/
def answerOfTwo (infos : SessionInfos) : Sessions.Input :=
  Sessions.fromTwo (.searchResponse { searchId := Sessions.searchIdOf 1, sessions := [infos] })

/-- A session that a search lists, of the peer that answered. -/
theorem results_sound_listed : ∃ w object, Reaches Sessions.watch
      (fun w i ↦ w.state.namesSender i = true) (Watch.start (Sessions.fresh [1] [9])) w ∧
    w.state.searches.find 1 = some object ∧ object.results = [Sessions.hostedByTwo] ∧
    Sessions.Sound w := by
  obtain ⟨w, h, hlisted⟩ := exists_reaches Sessions.watch (fun w i ↦ w.state.namesSender i = true)
    (Watch.start (Sessions.fresh [1] [9]))
    (fun w ↦ (w.state.searches.find 1).any fun object ↦ object.results = [Sessions.hostedByTwo])
    (asking ++ [answerOfTwo Sessions.hostedByTwo]) (by decide +kernel) (by decide +kernel)
  obtain ⟨object, hobject, hresults⟩ := (Option.any_eq_true _ _).1 hlisted
  exact ⟨w, object, h, hobject, of_decide_eq_true hresults, (results_sound [1] [9]).1 w h⟩

/-- `[2]` answers with a session it says is of `[3]`, and it is listed. -/
theorem result_forged : ∃ w, Reaches Sessions.watch always
    (Watch.start (Sessions.fresh [1] [9])) w ∧
    ¬ Sessions.Sound w := by
  obtain ⟨w, h, hforged⟩ := exists_reaches Sessions.watch always
    (Watch.start (Sessions.fresh [1] [9]))
    (fun w ↦ (w.state.searches.find 1).isSome ∧ (w.account 1).listings.any fun listing ↦
      listing.source = some [2] ∧ listing.found.any fun infos ↦ infos.ownerId = [3])
    (asking ++ [answerOfTwo { Sessions.hostedByTwo with ownerId := [3] }])
    (by decide +kernel) (meets_always _ _)
  refine ⟨w, h, fun hsound ↦ ?_⟩
  obtain ⟨hsome, hlisted⟩ := hforged
  obtain ⟨object, hobject⟩ := Option.isSome_iff_exists.1 hsome
  obtain ⟨listing, hlisting, hforged⟩ := List.any_eq_true.1 hlisted
  rw [decide_eq_true_eq] at hforged
  obtain ⟨infos, hinfos, howner⟩ := List.any_eq_true.1 hforged.2
  have htwo := ((hsound 1 object hobject).theirs listing hlisting [2] hforged.1).2 infos hinfos
  rw [decide_eq_true_eq, htwo] at howner
  cases howner

/-! ## Whom a search waits for -/

/-- The condition on a step: no peer is lost in it that a search awaits, or that the search it
starts asks. -/
def Sessions.SparesAwaited (s : Sessions) (i : Sessions.Input) : Prop :=
  ∀ s', Sessions.step s i = some s' → ∀ peer ∈ s.mesh.peers, peer ∉ s'.mesh.peers →
    ¬ s.desk.Awaited SessionSearchObject.quest peer ∧ peer ∉ s.asks i

/-- No peer that an unfinished search waits for is lost. -/
def Lobbies.SparesAwaited (s : Lobbies) (i : Lobbies.Input) : Prop :=
  ∀ s', Lobbies.step s i = some s' → ∀ peer ∈ s.mesh.peers, peer ∉ s'.mesh.peers →
    ¬ s.desk.Awaited LobbySearchObject.quest peer ∧ peer ∉ s.asks i

instance (s : Sessions) (i : Sessions.Input) : Decidable (s.SparesAwaited i) :=
  decidable_of_iff ((Sessions.step s i).all fun s' ↦ s.mesh.peers.all fun peer ↦
    peer ∈ s'.mesh.peers ∨
      (¬ s.desk.Awaited SessionSearchObject.quest peer ∧ peer ∉ s.asks i)) <| by
    simp only [Sessions.SparesAwaited, Option.all_eq_true, List.all_eq_true, decide_eq_true_eq,
      Classical.or_iff_not_imp_left]

/-- Every peer the search behind the handle asked has answered, or is gone. -/
def Watch.Over {σ κ α : Type} (w : Watch σ κ α) (peers : List Bytes) (handle : GameHandle) : Prop :=
  ∀ peer ∈ (w.account handle).asked, peer ∈ (w.account handle).answered ∨ peer ∉ peers

/-- A search that is over awaits nobody. -/
theorem Account.Of.awaiting_eq_nil {κ α : Type} {fits : α → κ → Bool} {From : Bytes → α → Prop}
    {account : Account κ α} {q : Quest κ α} (h : account.Of fits From q)
    (hsearching : q.searching = true)
    {peers : List Bytes} (hreach : q.awaiting ⊆ peers)
    (hover : ∀ peer ∈ account.asked, peer ∈ account.answered ∨ peer ∉ peers) : q.awaiting = [] := by
  refine List.eq_nil_iff_forall_not_mem.2 fun peer hin ↦ ?_
  have hasked := hin
  rw [h.waiting hsearching, List.mem_filter, decide_eq_true_eq] at hasked
  rcases hover peer hasked.1 with hanswered | hgone
  · exact hasked.2 hanswered
  · exact hgone (hreach hin)

/-- The searches of the sessions await peers that can be reached, and one that is over is ready at
the next tick, whenever that is. -/
def Sessions.Prompt (w : Watch Sessions SessionSearch SessionInfos) : Prop :=
  w.state.desk.Awaits SessionSearchObject.quest ∧ ∀ (address : ResultAddress) handle object,
    w.state.pendingFinds[address]? = some handle → w.state.searches.find handle = some object →
    object.searching = true → w.Over w.state.mesh.peers handle →
      ∀ now, (w.state.runCallbacks address now).1 = true

/-- The same of the searches of the lobbies. -/
def Lobbies.Prompt (w : Watch Lobbies LobbySearch LobbyInfos) : Prop :=
  w.state.desk.Awaits LobbySearchObject.quest ∧ ∀ (address : ResultAddress) handle object,
    w.state.pendingFinds[address]? = some handle → w.state.searches.find handle = some object →
    object.searching = true → w.Over w.state.mesh.peers handle →
      ∀ now, (w.state.runCallbacks address now).1 = true

theorem Sessions.prompt {self product : Bytes} {w : Watch Sessions SessionSearch SessionInfos}
    (h : Reaches Sessions.watch (fun w i ↦ w.state.SparesAwaited i)
      (Watch.start (Sessions.fresh self product)) w) : Sessions.Prompt w := by
  have hstart : (Sessions.fresh self product).desk.store = {} := rfl
  have hdesk (s : Sessions) (i : Sessions.Input) (s' : Sessions)
    (hs : Sessions.step s i = some s') :
      Sessions.DeskStep (fun _ _ ↦ True) s i s' :=
    Sessions.deskStep_of_step hs fun _ _ _ _ _ _ _ _ _ ↦ trivial
  have hawaits : w.state.desk.Awaits SessionSearchObject.quest :=
    Desk.awaits_of_reaches hstart hdesk (fun s i s' hspares hs ↦ hspares s' hs)
      (Watch.reaches_state h)
  have haccounted := Watch.accounted hstart
    (fun s i s' (_ : Sessions.SparesAwaited s i) hs ↦ ⟨_, hdesk s i s' hs⟩) h
  refine ⟨hawaits, fun address handle object hpending hobject hsearching hover now ↦ ?_⟩
  have hnil := (haccounted handle _ (congrArg (Option.map _) hobject)).awaiting_eq_nil hsearching
    (hawaits handle object hobject hsearching) hover
  rw [runCallbacks, hpending]
  dsimp only
  rw [settleFind, hobject]
  dsimp only
  rw [if_pos (.inl hnil)]

theorem Lobbies.prompt {self product : Bytes} {w : Watch Lobbies LobbySearch LobbyInfos}
    (h : Reaches Lobbies.watch (fun w i ↦ w.state.SparesAwaited i)
      (Watch.start (Lobbies.fresh self product)) w) : Lobbies.Prompt w := by
  have hstart : (Lobbies.fresh self product).desk.store = {} := rfl
  have hdesk (s : Lobbies) (i : Lobbies.Input) (s' : Lobbies) (hs : Lobbies.step s i = some s') :
      Lobbies.DeskStep s i s' := Lobbies.deskStep_of_step hs
  have hawaits : w.state.desk.Awaits LobbySearchObject.quest :=
    Desk.awaits_of_reaches hstart hdesk (fun s i s' hspares hs ↦ hspares s' hs)
      (Watch.reaches_state h)
  have haccounted := Watch.accounted hstart
    (fun s i s' (_ : Lobbies.SparesAwaited s i) hs ↦ ⟨_, hdesk s i s' hs⟩) h
  refine ⟨hawaits, fun address handle object hpending hobject hsearching hover now ↦ ?_⟩
  have hnil := (haccounted handle _ (congrArg (Option.map _) hobject)).awaiting_eq_nil hsearching
    (hawaits handle object hobject hsearching) hover
  rw [runCallbacks, hpending]
  dsimp only
  rw [settleFind, hobject]
  dsimp only
  rw [if_pos (.inl hnil)]

/-- **Searches wait only for peers that can answer exactly when** no step loses a peer they await,
or are about to: along such runs they do, and end as soon as everyone asked has answered or is gone;
and the first step that is not so ends that. -/
theorem searches_await_reachable (self product : Bytes) :
    ((∀ w, Reaches Sessions.watch (fun w i ↦ w.state.SparesAwaited i)
      (Watch.start (Sessions.fresh self product)) w → Sessions.Prompt w) ∧
    ∀ w, Reaches Lobbies.watch (fun w i ↦ w.state.SparesAwaited i)
      (Watch.start (Lobbies.fresh self product)) w → Lobbies.Prompt w) ∧
    (∀ (s : Sessions) i s', s.desk.Awaits SessionSearchObject.quest →
      Sessions.step s i = some s' →
      (s'.desk.Awaits SessionSearchObject.quest ↔ s.SparesAwaited i)) ∧
    ∀ (s : Lobbies) i s', s.desk.Awaits LobbySearchObject.quest → Lobbies.step s i = some s' →
      (s'.desk.Awaits LobbySearchObject.quest ↔ s.SparesAwaited i) := by
  refine ⟨⟨fun _ h ↦ Sessions.prompt h, fun _ h ↦ Lobbies.prompt h⟩, fun s i s' hs hstep ↦ ?_,
    fun s i s' hs hstep ↦ ?_⟩
  · have hdesk : Sessions.DeskStep (fun _ _ ↦ True) s i s' :=
      Sessions.deskStep_of_step hstep fun _ _ _ _ _ _ _ _ _ ↦ trivial
    rw [hdesk.awaits_iff hs]
    constructor
    · rintro hspares s'' hs''
      obtain rfl := Option.some.inj (hstep.symm.trans hs'')
      exact hspares
    · exact fun hspares ↦ hspares s' hstep
  · rw [(Lobbies.deskStep_of_step hstep).awaits_iff hs]
    constructor
    · rintro hspares s'' hs''
      obtain rfl := Option.some.inj (hstep.symm.trans hs'')
      exact hspares
    · exact fun hspares ↦ hspares s' hstep

/-- `[2]` answers and leaves, then `[3]` does, and the search is ready at the next tick. -/
theorem searches_await_reachable_answered : ∃ w, Reaches Sessions.watch
      (fun w i ↦ w.state.SparesAwaited i) (Watch.start (Sessions.fresh [1] [9])) w ∧
    (w.account 1).asked = [[2], [3]] ∧ (w.account 1).answered = [[2], [3]] ∧
    w.state.mesh.peers = [] ∧ ∀ now, (w.state.runCallbacks 100 now).1 = true := by
  obtain ⟨w, h, hfind, hsearching, hasked, hanswered, hpeers⟩ := exists_reaches Sessions.watch
    (fun w i ↦ w.state.SparesAwaited i) (Watch.start (Sessions.fresh [1] [9]))
    (fun w ↦ w.state.pendingFinds[(100 : ResultAddress)]? = some 1 ∧
      (w.state.searches.find 1).any (·.searching) ∧ (w.account 1).asked = [[2], [3]] ∧
      (w.account 1).answered = [[2], [3]] ∧ w.state.mesh.peers = [])
    (asking ++ [answerOfTwo Sessions.hostedByTwo, .around [[3]] [[2], [3]] [],
      .receive (Sessions.envelope (Sessions.fresh [3] [9]) [1]
        (.searchResponse { searchId := Sessions.searchIdOf 1, sessions := [] })),
      .around [] [[2], [3]] []])
    (by decide +kernel) (by decide +kernel)
  refine ⟨w, h, hasked, hanswered, hpeers, ?_⟩
  obtain ⟨object, hobject, hon⟩ := (Option.any_eq_true _ _).1 hsearching
  refine (((searches_await_reachable [1] [9]).1.1 w h).2 100 1 object hfind hobject hon) ?_
  intro peer hpeer
  rw [hasked] at hpeer
  exact .inl (hanswered ▸ hpeer)

/-- The send that asks `[2]` loses it, and the search awaits it all the same. -/
theorem search_awaits_lost : ∃ w, Reaches Sessions.watch always
      (Watch.start (Sessions.fresh [1] [9])) w ∧ ¬ Sessions.Prompt w := by
  obtain ⟨w, h, hlost⟩ := exists_reaches Sessions.watch always
    (Watch.start (Sessions.fresh [1] [9]))
    (fun w ↦ w.state.mesh.peers = [] ∧ (w.state.searches.find 1).any fun object ↦
      object.searching ∧ [2] ∈ object.awaiting)
    [.around [[2]] [[2]] [[[2]]],
      .call (.createSessionSearch { apiVersion := 1, value := 10 }),
      .call (.searchSetSessionId 1 { apiVersion := 1, value := some (List.replicate 16 3) }),
      .call (.searchFind 1 { apiVersion := 1, localUserId := none } 0 100)]
    (by decide +kernel) (meets_always _ _)
  obtain ⟨object, hobject, hawaiting⟩ := (Option.any_eq_true _ _).1 hlost.2
  rw [decide_eq_true_eq] at hawaiting
  refine ⟨w, h, fun hprompt ↦ ?_⟩
  have hin := hprompt.1 1 object hobject hawaiting.1 hawaiting.2
  rw [show w.state.desk.peers = [] from hlost.1] at hin
  cases hin

end EosMesh
