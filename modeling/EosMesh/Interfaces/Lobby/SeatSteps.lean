import EosMesh.Interfaces.Lobby.Seats

/-!
# What the steps keep of the rosters

Each call, message and tick of the lobby interface keeps `Lobbies.Decent`, and what a game holds to
join from fits as well.  A lobby is told from peer to peer as a whole, so a roster that does not fit
would spread; it has to be shown that none is ever told, at the same time as that none is made.

* `Lobbies.keepsRoom` is the condition on a step: the one call that can leave a lobby too small for
  its members is a commit of a lower maximum.
* `Lobbies.asksFor` is the lobby a step asks to be in, where it is not in it already.  Whoever is on
  a roster is so because it asked, by creating the lobby or by joining it.
* `Listed` is what a game holds: whatever it may join from fits.
* `Housed` is about one entry: a host is a member of its lobby and owns it, and every member has a
  name.  `Housed.entryStep` goes through what a step can make of an entry (`Lobbies.EntryStep`), and
  `Housed.bereaved` through what the loss of a peer makes of it: whoever inherits a lobby is a
  member.
* `fitting_letIn` is the one case in which a roster grows: whoever is let in asked to be, was not
  in, and there was room.
* `Lobbies.Orderly` is what all of it keeps of an instance, and `Lobbies.Orderly.step` the step
  lemma, for messages that `Lobbies.Fair` lets be said.

That the peers only say what is fair is shown in `Interfaces.Lobby.Network`, for all of them
together.
-/

set_option autoImplicit false

namespace EosMesh

open Lib
open Std (TreeMap)

namespace Lobbies

variable {terms : SeatTerms} {s s' : Lobbies} {lobbyId : Bytes}

/-! ## Calls -/

/-- The condition on a step: a lobby we own is given no lower a maximum than it has members. -/
def keepsRoom (s : Lobbies) : Input → Bool
  | .call (.updateLobby o) =>
    (s.modifications.find o.lobbyModificationHandle).all fun object ↦
      (s.findLobby object.lobbyId).all fun entry ↦
        entry.infos.ownerId ≠ s.productUserId ∨
          entry.infos.members.length ≤ object.infos.maxMembers.toNat
  | _ => true

/-- The lobby a step asks to be in, where it is not in it already. -/
def asksFor (s : Lobbies) (i : Input) : Option Bytes :=
  let asked := match i with
    | .call (.createLobby o random) => some (requestedId o random)
    | .call (.joinLobby o _ _) => (s.details.find o.lobbyDetailsHandle).map LobbyInfos.lobbyId
    | .call (.joinLobbyById o _ _) => o.lobbyId
    | _ => none
  asked.filter fun lobbyId ↦ (s.findLobby lobbyId).isNone

theorem fitting_created {o : CreateLobbyOptions} {localUser lobbyId : Bytes}
    (hmax : o.maxLobbyMembers ≠ 0) (hne : localUser ≠ []) (hasked : terms.Asked localUser lobbyId) :
    (created o lobbyId localUser).Fitting terms lobbyId := by
  refine ⟨⟨List.nodup_singleton _, ?_, fun _ ↦ ?_, fun member hin ↦ ?_⟩, rfl,
    fun _ ↦ LobbyInfos.counts_counted _⟩
  · simpa [created, LobbyInfos.roster] using hne.symm
  · have hpos : 0 < o.maxLobbyMembers.toNat :=
      Nat.pos_of_ne_zero fun hzero ↦ hmax (UInt32.toNat_inj.1 hzero)
    exact hpos
  · rw [List.mem_singleton.1 hin]
    exact hasked

theorem decent_createLobby (h : Decent terms s) (hne : s.productUserId ≠ [])
    {o : CreateLobbyOptions} (hown : ∀ localUser, o.localUserId = some localUser →
      localUser = s.productUserId) {random : Option Bytes}
    (hasked : ∀ lobbyId, s.asksFor (.call (.createLobby o random)) = some lobbyId →
      terms.Asked s.productUserId lobbyId) : Decent terms (s.createLobby o random).2 := by
  rw [createLobby]
  split
  · exact h
  · rename_i localUser huser
    split
    · exact h
    · rename_i hvalid
      rw [not_or] at hvalid
      dsimp only
      split
      · exact h
      · split
        · exact h
        · rename_i hnone
          have hin : terms.Asked s.productUserId (requestedId o random) :=
            hasked _ (by simpa [asksFor] using hnone)
          have hself := hown localUser huser
          exact h.setLobby (fitting_created hvalid.2 (hself ▸ hne) (hself ▸ hin))

theorem decent_depart (h : Decent terms s) (o : LobbyIdOptions) :
    Decent terms (s.depart o).2 := by
  rw [depart]
  split
  · rename_i lobbyId _ _ _
    split
    · exact h
    · rename_i entry hentry
      replace hentry : s.lobbies[lobbyId]? = some entry := hentry
      obtain ⟨hfits, hnamed, -⟩ := h.fits lobbyId entry hentry
      dsimp only
      refine Decent.eraseLobby ?_ lobbyId
      split
      · rw [closeHostedLobby]
        dsimp only
        split
        · refine decent_broadcastToMembersWith lost_lose decent_lose h ?_ fun _ _ ↦ trivial
          rw [roster_of_lookup hentry]
          exact hfits.named
        · exact h.tell ⟨(hfits.dropMember s.productUserId).owned _, hnamed,
            fun _ ↦ LobbyInfos.counts_counted _⟩ (LobbyInfos.counts_counted _)
      · exact h.sendTo fun _ ↦ trivial
  · exact h

/-- A modification of a lobby we do not own changes no setting of it. -/
theorem fits_modified {entry : Lobby} (hfits : entry.infos.Fits terms) {self : Bytes}
    {object : LobbyModificationObject} (hroom : terms.Roomy → entry.infos.ownerId ≠ self ∨
      entry.infos.members.length ≤ object.infos.maxMembers.toNat) :
    (Lobby.modified entry self object).infos.Fits terms := by
  have hroster := roster_modified entry self object
  have hid : (Lobby.modified entry self object).infos.lobbyId = entry.infos.lobbyId := by
    rw [Lobby.modified]
    by_cases howner : entry.infos.ownerId = self
    · rw [if_pos howner]
      rfl
    · rw [if_neg howner]
      rfl
  refine ⟨hroster ▸ hfits.nodup, hroster ▸ hfits.named, fun hroomy ↦ ?_, fun member hin ↦ ?_⟩
  · rw [← LobbyInfos.length_roster, hroster, LobbyInfos.length_roster, Lobby.modified]
    by_cases howner : entry.infos.ownerId = self
    · rw [if_pos howner]
      exact (hroom hroomy).resolve_left (not_not.2 howner)
    · rw [if_neg howner]
      exact hfits.room hroomy
  · rw [hid]
    exact hfits.asked member (hroster ▸ hin)

theorem decent_updateLobby (h : Decent terms s) {o : UpdateLobbyOptions}
    (hroom : terms.Roomy → s.keepsRoom (.call (.updateLobby o)) = true) :
    Decent terms (s.updateLobby o).2 := by
  rw [updateLobby]
  split
  · exact h
  · rename_i object hobject
    split
    · exact h
    · split
      · exact h
      · rename_i entry hentry
        obtain ⟨hfits, hnamed, -⟩ := h.fits object.lobbyId entry hentry
        simp only [keepsRoom, hobject, Option.all_some, hentry, decide_eq_true_eq] at hroom
        have hmodified : (Lobby.modified entry s.productUserId object).Fitting terms
            object.lobbyId := by
          refine ⟨fits_modified hfits hroom, ?_, fun _ ↦ LobbyInfos.counts_counted _⟩
          rw [← hnamed, Lobby.modified]
          by_cases howner : entry.infos.ownerId = s.productUserId
          · rw [if_pos howner]
            rfl
          · rw [if_neg howner]
            rfl
        dsimp only
        split
        · exact h.tell hmodified (LobbyInfos.counts_counted _)
        · exact (h.setLobby hmodified).sendTo fun _ ↦ trivial

theorem decent_promoteMember (h : Decent terms s) (o : LobbyMemberOptions) :
    Decent terms (s.promoteMember o).2 := by
  rw [promoteMember]
  split
  · rename_i lobbyId _ target _ _ _
    split
    · exact h
    · rename_i entry hentry
      split
      · exact h
      · rename_i hhosting
        split
        · exact h
        · obtain ⟨hfits, hnamed, hcounts⟩ := h.fits lobbyId entry hentry
          replace hcounts := hcounts (by simpa using hhosting)
          exact h.tell ⟨hfits.owned target, hnamed, fun _ ↦ hcounts⟩ hcounts
  · exact h

theorem decent_kickMember (h : Decent terms s) (o : LobbyMemberOptions) :
    Decent terms (s.kickMember o).2 := by
  rw [kickMember]
  split
  · rename_i lobbyId _ target _ _ _
    split
    · exact h
    · rename_i entry hentry
      split
      · exact h
      · split
        · exact h
        · obtain ⟨hfits, hnamed, -⟩ := h.fits lobbyId entry hentry
          have hleft : Lobby.Fitting terms lobbyId
              { entry with infos := (entry.infos.dropMember target).counted } :=
            ⟨hfits.dropMember target, hnamed, fun _ ↦ LobbyInfos.counts_counted _⟩
          exact h.tellAfter hleft (LobbyInfos.counts_counted _) fun _ ↦ trivial
  · exact h

/-- A lobby we are to join is no host's yet. -/
theorem Decent.awaitVerdict (h : Decent terms s) {infos : LobbyInfos} (hfits : infos.Fits terms)
    (localUser : Bytes) (now : Nat) (address : ResultAddress) : Decent terms
      (s.awaitVerdict infos.lobbyId { infos, localUser, localState := .joining } now address) := by
  have hentry : Lobby.Fitting terms infos.lobbyId { infos, localUser, localState := .joining } :=
    ⟨hfits, rfl, fun hhosting ↦ by cases hhosting⟩
  exact (h.setLobby hentry).of_core rfl

theorem decent_joinLobby (h : Decent terms s) (hcopied : s.details.All (LobbyInfos.Fits terms))
    {o : JoinLobbyOptions} {now : Nat} {address : ResultAddress}
    (hasked : ∀ lobbyId, s.asksFor (.call (.joinLobby o now address)) = some lobbyId →
      terms.Asked s.productUserId lobbyId) : Decent terms (s.joinLobby o now address).2 := by
  rw [joinLobby]
  split
  · rename_i found localUser hfound _
    dsimp only
    split
    · exact h
    · rename_i hnone
      split
      · exact h
      · have hin : terms.Asked s.productUserId found.lobbyId :=
          hasked _ (by simpa [asksFor, hfound] using hnone)
        exact (h.awaitVerdict (hcopied _ found hfound) localUser now address).sendTo fun _ ↦ hin
  · exact h

theorem decent_joinLobbyById (h : Decent terms s) {o : LobbyIdOptions} {now : Nat}
    {address : ResultAddress}
    (hasked : ∀ lobbyId, s.asksFor (.call (.joinLobbyById o now address)) = some lobbyId →
      terms.Asked s.productUserId lobbyId) : Decent terms (s.joinLobbyById o now address).2 := by
  rw [joinLobbyById]
  split
  · rename_i lobbyId localUser hid _
    split
    · exact h
    · rename_i hnone
      have hin : terms.Asked s.productUserId lobbyId :=
        hasked _ (by simpa [asksFor, hid] using hnone)
      have hfits : ({ lobbyId } : LobbyInfos).Fits terms :=
        ⟨List.nodup_nil, List.not_mem_nil, fun _ ↦ Nat.zero_le _,
          fun member hmember ↦ by cases hmember⟩
      refine (h.awaitVerdict hfits localUser now address).foldl_sendTo ?_ _
      exact fun _ ↦ hin
  · exact h

theorem decent_searchFind (h : Decent terms s) (handle : GameHandle) (localUserId : Option Bytes)
    (now : Nat) (address : ResultAddress) :
    Decent terms (s.searchFind handle localUserId now address).2 := by
  unfold searchFind
  split
  · split
    · exact h
    · split
      · exact h
      · refine (h.foldl_sendTo ?_ _).of_core rfl
        exact fun _ ↦ trivial
  · exact h

/-! ## Messages -/

theorem decent_onSearch (h : Decent terms s) (source : Bytes) (query : LobbySearch) :
    Decent terms (s.onSearch source query) := by
  refine h.sendTo fun _ infos hinfos ↦ ?_
  obtain ⟨p, hp, rfl⟩ := List.mem_map.1 hinfos
  have hlookup : s.lobbies[p.1]? = some p.2 :=
    TreeMap.mem_toList_iff_getElem?_eq_some.1 (List.mem_filter.1 hp).1
  exact (h.fits p.1 p.2 hlookup).fits

/-- Whoever is let in was not in, asked to be, and there was room. -/
theorem fitting_letIn {entry : Lobby} (hentry : entry.Fitting terms lobbyId)
    (hhosting : entry.localState = .hosting) {source : Bytes} (hne : source ≠ [])
    (hasked : terms.Asked source lobbyId) {byId : Bool}
    (hverdict : s.joinVerdict source byId entry = ResultCode.success) (member : LobbyMember) :
    (Lobby.letIn entry source member).Fitting terms lobbyId ∧
      (Lobby.letIn entry source member).infos.Counts := by
  rw [Lobby.letIn]
  split
  · exact ⟨hentry, hentry.counts hhosting⟩
  · rename_i hnew
    have hroom := (joinVerdict_success hverdict).2.resolve_left hnew
    rw [findMember_isSome] at hnew
    have hroster : (LobbyInfos.counted { entry.infos with
        members := entry.infos.members ++ [{ member with userId := source }] }).roster =
        entry.infos.roster ++ [source] := by simp [LobbyInfos.roster]
    refine ⟨⟨⟨?_, ?_, fun _ ↦ ?_, ?_⟩, hentry.named, fun _ ↦ LobbyInfos.counts_counted _⟩,
      LobbyInfos.counts_counted _⟩
    · show (LobbyInfos.counted _).roster.Nodup
      rw [hroster]
      exact List.nodup_append'.2 ⟨hentry.fits.nodup, List.nodup_singleton _,
        List.disjoint_singleton.2 hnew⟩
    · show [] ∉ (LobbyInfos.counted _).roster
      rw [hroster]
      simp [hentry.fits.named, hne.symm]
    · show (entry.infos.members ++ [_]).length ≤ _
      rw [List.length_append]
      exact hroom
    · intro other hother
      rw [hroster, List.mem_append, List.mem_singleton] at hother
      rcases hother with hold | rfl
      · exact hentry.fits.asked other hold
      · show terms.Asked other entry.infos.lobbyId
        rw [hentry.named]
        exact hasked

theorem decent_onJoinRequest (h : Decent terms s) {source : Bytes} (hne : source ≠ [])
    {request : LobbyJoinRequest} (hasked : terms.Asked source request.lobbyId) :
    Decent terms (s.onJoinRequest source request) := by
  rw [onJoinRequest]
  split
  · exact h
  · rename_i entry hentry
    split
    · exact h
    · rename_i hhosting
      dsimp only
      split
      · rename_i hverdict
        obtain ⟨hfitting, hcounts⟩ := fitting_letIn (h.fits request.lobbyId entry hentry)
          (by simpa using hhosting) hne hasked hverdict request.member
        exact h.tellAfter hfitting hcounts fun _ ↦ trivial
      · exact h.sendTo fun _ ↦ trivial

theorem decent_onJoinResponse (h : Decent terms s) (source : Bytes) (answer : LobbyJoinResponse) :
    Decent terms (s.onJoinResponse source answer) := by
  rw [onJoinResponse]
  split
  · exact h
  · rename_i entry hentry
    split
    · exact h
    · split
      · exact h
      · split
        · exact h
        · obtain ⟨hfits, hnamed, -⟩ := h.fits answer.lobbyId entry hentry
          have hjoined : Lobby.Fitting terms answer.lobbyId { entry with
              infos := { entry.infos with ownerId := source }, localState := .joined } :=
            ⟨hfits.owned source, hnamed, fun hhosting ↦ by cases hhosting⟩
          dsimp only
          split
          · exact (h.setLobby hjoined).of_core rfl
          · split
            · exact (h.eraseLobby answer.lobbyId).of_core rfl
            · exact h.of_core rfl

theorem decent_onInfos (h : Decent terms s) {source : Bytes} {infos : LobbyInfos}
    (hfair : Fair terms source s.productUserId (.infos infos)) :
    Decent terms (s.onInfos source infos) := by
  rw [onInfos]
  split
  · exact h
  · split
    · exact h
    · exact h.setLobby ⟨hfair.1, rfl, fun _ ↦ hfair.2.1⟩

theorem decent_onLeave (h : Decent terms s) (source : Bytes) (notice : LobbyMemberUpdate) :
    Decent terms (s.onLeave source notice) := by
  rw [onLeave]
  split
  · exact h
  · rename_i entry hentry
    split
    · exact h
    · obtain ⟨hfits, hnamed, -⟩ := h.fits notice.lobbyId entry hentry
      exact h.tell ⟨hfits.dropMember source, hnamed, fun _ ↦ LobbyInfos.counts_counted _⟩
        (LobbyInfos.counts_counted _)

theorem decent_onMemberUpdate (h : Decent terms s) (source : Bytes) (notice : LobbyMemberUpdate) :
    Decent terms (s.onMemberUpdate source notice) := by
  rw [onMemberUpdate]
  split
  · exact h
  · rename_i entry hentry
    split
    · exact h
    · rename_i hmay
      rw [not_or, not_not] at hmay
      obtain ⟨hfits, hnamed, hcounts⟩ := h.fits notice.lobbyId entry hentry
      have hroster : (entry.infos.editMember source fun member ↦
          { member with attributes := notice.member.attributes }).roster = entry.infos.roster :=
        LobbyInfos.roster_editMember entry.infos source fun _ ↦ rfl
      have hlength := congrArg List.length hroster
      rw [LobbyInfos.length_roster, LobbyInfos.length_roster] at hlength
      have hcounted : (entry.infos.editMember source fun member ↦
          { member with attributes := notice.member.attributes }).Counts := by
        replace hcounts := hcounts hmay.1
        rw [LobbyInfos.Counts, LobbyInfos.openSlotsOf] at hcounts ⊢
        rw [hlength]
        exact hcounts
      exact h.tell ⟨hfits.of_sublist (by rw [hroster]) rfl rfl, hnamed, fun _ ↦ hcounted⟩ hcounted

theorem decent_onDestroy (h : Decent terms s) (source : Bytes) (notice : LobbyDestroy) :
    Decent terms (s.onDestroy source notice) := by
  rw [onDestroy]
  split
  · exact h
  · split
    · exact h
    · exact h.eraseLobby notice.lobbyId

theorem decent_receive (h : Decent terms s) {message : NetEnvelope}
    (hfair : ∀ msg, Reads s message msg → Fair terms message.sourceId s.productUserId msg) :
    Decent terms (s.onNetworkMessage message) := by
  rw [onNetworkMessage]
  split
  · exact h
  · rename_i hsource
    rw [not_or] at hsource
    split
    · exact decent_onPeerDisconnectedWith lost_lose decent_lose h message.sourceId
    · split
      · exact h
      · rename_i hgame
        split
        · exact h
        · rename_i msg hread
          have hreads : Reads s message msg := ⟨hsource.1, hsource.2, by simpa using hgame, hread⟩
          cases msg with
          | search query => exact decent_onSearch h _ query
          | searchResponse answer => exact h.of_core (core_onSearchResponse _ answer)
          | joinRequest request => exact decent_onJoinRequest h hreads.named (hfair _ hreads)
          | joinResponse answer => exact decent_onJoinResponse h _ answer
          | infos infos => exact decent_onInfos h (hfair _ hreads)
          | leave notice => exact decent_onLeave h _ notice
          | memberUpdate notice => exact decent_onMemberUpdate h _ notice
          | destroy notice => exact decent_onDestroy h _ notice

theorem decent_collect (h : Decent terms s) (address : ResultAddress) (now : Nat) :
    Decent terms (s.collect address now) := by
  have hfree (ready : Bool) (s' : Lobbies) (hs' : Decent terms s') :
      Decent terms (if ready then s'.freeCallback address else s') := by
    split
    · exact hs'.of_core rfl
    · exact hs'
  rw [collect]
  split
  · exact h.of_core rfl
  · dsimp only
    refine hfree _ _ ?_
    rw [runCallbacks]
    split
    · rw [settleFind]
      split
      · exact h
      · split
        · exact h.of_core rfl
        · exact h
    · split
      · split
        · exact h
        · rw [settleJoin]
          split
          · split
            · exact h
            · split
              · exact h.eraseLobby _
              · exact h
          · exact h
      · exact h

/-! ## What a game holds -/

/-- Whatever a game may join from fits. -/
structure Listed (terms : SeatTerms) (s : Lobbies) : Prop where
  results : s.searches.All fun object ↦ ∀ infos ∈ object.results, infos.Fits terms
  details : s.details.All (LobbyInfos.Fits terms)

theorem Listed.of_still (h : Listed terms s) (hstill : s'.still = s.still) : Listed terms s' := by
  have hsearches : s'.still.searches = s.still.searches := by rw [hstill]
  have hdetails : s'.still.details = s.still.details := by rw [hstill]
  refine ⟨?_, ?_⟩
  · show s'.still.searches.All _
    rw [hsearches]
    exact h.results
  · show s'.still.details.All _
    rw [hdetails]
    exact h.details

theorem listed_createLobbySearch (h : Listed terms s) (o : Setting UInt32) :
    Listed terms (s.createLobbySearch o).2.2 := by
  rw [createLobbySearch]
  split
  · exact h
  · exact ⟨h.results.put (fun infos hinfos ↦ by cases hinfos) _, h.details⟩

theorem listed_editSearch (h : Listed terms s) {handle : GameHandle} {version : Int32}
    {given : Bool} {edit : LobbySearchObject → Except ResultCode LobbySearchObject}
    (hedit : ∀ object object', edit object = .ok object' → object'.results = object.results) :
    Listed terms (s.editSearch handle version given edit).2 := by
  rw [editSearch]
  split
  · exact h
  · rename_i object hobject
    split
    · exact h
    · split
      · exact h
      · split
        · exact h
        · rename_i object' hobject'
          exact ⟨h.results.put (hedit object object' hobject' ▸ h.results handle object hobject) _,
            h.details⟩

theorem listed_searchFind (h : Listed terms s) (hdecent : Decent terms s) (handle : GameHandle)
    (localUserId : Option Bytes) (now : Nat) (address : ResultAddress) :
    Listed terms (s.searchFind handle localUserId now address).2 := by
  unfold searchFind
  split
  · split
    · exact h
    · split
      · exact h
      · rw [startSearch]
        dsimp only
        have hsent (message : LobbyMessage) (peers : List Bytes) :=
          h.of_still (still_foldl_sendTo message peers)
        refine ⟨(hsent _ _).results.put (fun infos hinfos ↦ ?_) handle, (hsent _ _).details⟩
        obtain ⟨hhosted, -⟩ := mem_hostedMatches (List.mem_of_mem_take hinfos)
        obtain ⟨p, hp, rfl⟩ := List.mem_map.1 hhosted
        exact (hdecent.fits p.1 p.2
          (TreeMap.mem_toList_iff_getElem?_eq_some.1 (List.mem_filter.1 hp).1)).fits
  · exact h

theorem listed_copyDetails (h : Listed terms s) {infos : LobbyInfos} (hfits : infos.Fits terms) :
    Listed terms (s.copyDetails infos).2.2 := ⟨h.results, h.details.put hfits _⟩

theorem listed_searchCopyResult (h : Listed terms s) (handle : GameHandle) (lobbyIndex : UInt32) :
    Listed terms (s.searchCopyResult handle lobbyIndex).2.2 := by
  rw [searchCopyResult]
  split
  · exact h
  · rename_i object hobject
    split
    · exact h
    · split
      · exact h
      · rename_i infos hinfos
        exact listed_copyDetails h
          (h.results handle object hobject infos (List.mem_of_getElem? hinfos))

theorem listed_copyLobbyDetailsHandle (h : Listed terms s) (hdecent : Decent terms s)
    (lobbyId : Option Bytes) : Listed terms (s.copyLobbyDetailsHandle lobbyId).2.2 := by
  cases lobbyId with
  | none => exact h
  | some lobbyId =>
    rw [copyLobbyDetailsHandle]
    split
    · exact h
    · rename_i entry hentry
      exact listed_copyDetails h (hdecent.fits lobbyId entry hentry).fits

theorem listed_modify (h : Listed terms s) (handle : GameHandle)
    (edit : LobbyModificationObject → Except ResultCode LobbyModificationObject) :
    Listed terms (s.modify handle edit).2 := by
  rw [modify]
  split
  · exact h
  · split
    · exact h
    · exact ⟨h.results, h.details⟩

theorem listed_updateLobbyModification (h : Listed terms s) (o : LobbyIdOptions) :
    Listed terms (s.updateLobbyModification o).2.2 := by
  rw [updateLobbyModification]
  split
  · split
    · exact h
    · exact ⟨h.results, h.details⟩
  · exact h

theorem listed_call (h : Listed terms s) (hdecent : Decent terms s) (c : Call) :
    Listed terms (s.call c) := by
  have hquery (edit : LobbySearch → LobbySearch) (object object' : LobbySearchObject)
      (hobject : editQuery edit object = .ok object') : object'.results = object.results :=
    (editQuery_ok hobject).1
  cases c with
  | updateLobbyModification o => exact listed_updateLobbyModification h o
  | createLobbySearch o => exact listed_createLobbySearch h o
  | searchSetLobbyId _ o => exact listed_editSearch h (hquery _)
  | searchSetTargetUser _ o => exact listed_editSearch h (hquery _)
  | searchSetParameter _ o =>
    refine listed_editSearch h fun object object' hobject ↦ ?_
    split at hobject
    · cases hobject
    · exact hquery _ _ _ hobject
  | searchRemoveParameter _ o =>
    refine listed_editSearch h fun object object' hobject ↦ ?_
    dsimp only at hobject
    split at hobject
    · exact hquery _ _ _ hobject
    · cases hobject
  | searchSetMaxResults _ o =>
    refine listed_editSearch h fun object object' hobject ↦ ?_
    split at hobject
    · cases hobject
    · cases hobject
      rfl
  | searchFind handle localUserId now address =>
    exact listed_searchFind h hdecent handle localUserId now address
  | searchCopyResult handle lobbyIndex => exact listed_searchCopyResult h handle lobbyIndex
  | searchRelease handle => exact ⟨h.results.release handle, h.details⟩
  | copyLobbyDetailsHandle lobbyId => exact listed_copyLobbyDetailsHandle h hdecent lobbyId
  | detailsRelease handle => exact ⟨h.results, h.details.release handle⟩
  | modificationSetBucketId handle _ => exact listed_modify h handle _
  | modificationSetPermissionLevel handle _ => exact listed_modify h handle _
  | modificationSetMaxMembers handle _ => exact listed_modify h handle _
  | modificationSetInvitesAllowed handle _ => exact listed_modify h handle _
  | modificationSetAllowedPlatformIds handle => exact listed_modify h handle _
  | modificationAddAttribute handle _ => exact listed_modify h handle _
  | modificationRemoveAttribute handle _ => exact listed_modify h handle _
  | modificationAddMemberAttribute handle _ => exact listed_modify h handle _
  | modificationRemoveMemberAttribute handle _ => exact listed_modify h handle _
  | modificationRelease handle => exact ⟨h.results, h.details⟩
  | _ => exact h.of_still (still_call rfl)

theorem listed_receive (h : Listed terms s) {message : NetEnvelope}
    (hfair : ∀ msg, Reads s message msg →
      Fair terms message.sourceId s.productUserId msg) :
    Listed terms (s.onNetworkMessage message) := by
  rcases still_receive (s := s) message with hstill | ⟨answer, hreads, heq⟩
  · exact h.of_still hstill
  · rw [heq]
    have hall (waiting : List (ResultAddress × GameHandle)) (s₁ : Lobbies) (hs₁ : Listed terms s₁) :
        Listed terms (waiting.foldl (fun s p ↦ s.takeAnswer p.2 message.sourceId answer) s₁) := by
      induction waiting generalizing s₁ with
      | nil => exact hs₁
      | cons p waiting ih =>
        refine ih _ ?_
        dsimp only
        rw [takeAnswer_eq]
        split
        · exact hs₁
        · rename_i object hobject
          split
          · refine ⟨hs₁.results.put (fun infos hinfos ↦ ?_) p.2, hs₁.details⟩
            rcases List.mem_append.1 hinfos with hold | hnew
            · exact hs₁.results p.2 object hobject infos hold
            · exact hfair _ hreads infos (List.mem_filter.1 (List.mem_of_mem_take hnew)).1
          · exact hs₁
    exact hall _ s h

theorem listed_collect (h : Listed terms s) (address : ResultAddress) (now : Nat) :
    Listed terms (s.collect address now) := by
  have hfree (ready : Bool) (s' : Lobbies) (hs' : Listed terms s') :
      Listed terms (if ready then s'.freeCallback address else s') := by
    split
    · exact ⟨hs'.results, hs'.details⟩
    · exact hs'
  rw [collect]
  split
  · exact ⟨h.results, h.details⟩
  · dsimp only
    refine hfree _ _ ?_
    rw [runCallbacks]
    split
    · rw [settleFind]
      split
      · exact h
      · rename_i object hobject
        split
        · refine ⟨h.results.put ?_ _, h.details⟩
          exact h.results _ object hobject
        · exact h
    · split
      · split
        · exact h
        · rw [settleJoin]
          split
          · split
            · exact h
            · split
              · exact ⟨h.results, h.details⟩
              · exact h
          · exact h
      · exact h

/-! ## Steps -/

/-- A host is a member of its lobby, and owns it; and every member has a name. -/
structure Housed (userId : Bytes) (entry : Lobby) : Prop where
  named : [] ∉ entry.infos.roster
  host : entry.localState = .hosting → entry.infos.ownerId = userId ∧ userId ∈ entry.infos.roster

/-- What every step keeps of an instance. -/
structure Orderly (terms : SeatTerms) (s : Lobbies) : Prop where
  decent : Decent terms s
  listed : Listed terms s
  housed : ∀ (lobbyId : Bytes) entry, s.lobbies[lobbyId]? = some entry →
    Housed s.productUserId entry

theorem mem_roster_dropMember {infos : LobbyInfos} {member userId : Bytes}
    (h : member ∈ infos.roster) (hne : member ≠ userId) :
    member ∈ (infos.dropMember userId).roster := by
  rw [roster_dropMember]
  exact (List.mem_erase_of_ne hne).2 h

theorem not_mem_roster_dropMember {infos : LobbyInfos} {member : Bytes} (h : member ∉ infos.roster)
    (userId : Bytes) : member ∉ (infos.dropMember userId).roster := by
  rw [roster_dropMember]
  exact fun hin ↦ h (List.mem_of_mem_erase hin)

/-- Whoever inherits a lobby is a member, and a host does not lose itself. -/
theorem Housed.bereaved {self peer : Bytes} {entry entry' : Lobby} (hpeer : peer ≠ self)
    (h : Lobby.bereaved self peer entry = some entry') (hI : Housed self entry) :
    Housed self entry' := by
  have hleft := not_mem_roster_dropMember hI.named peer
  rw [Lobby.bereaved] at h
  dsimp only at h
  split at h
  · split at h
    · cases h
    · rename_i hheir
      obtain rfl := Option.some.inj h
      refine ⟨hleft, fun hhosting ↦ ?_⟩
      have hself : (entry.infos.dropMember peer).heir peer = self := by
        by_contra hother
        simp [hother] at hhosting
      exact ⟨hself, hself ▸ LobbyInfos.heir_mem hleft hheir⟩
  · split at h
    · obtain rfl := Option.some.inj h
      refine ⟨hleft, fun hhosting ↦ ?_⟩
      exact ⟨(hI.host hhosting).1, mem_roster_dropMember (hI.host hhosting).2 hpeer.symm⟩
    · obtain rfl := Option.some.inj h
      exact hI

/-- What a step makes of one entry, before it loses anyone. -/
theorem Housed.entryStep {i : Input} {before : Option Lobby} {entry' : Lobby}
    (hI : ∀ entry, before = some entry → Housed s.productUserId entry)
    (hne : s.productUserId ≠ []) (hcopied : s.details.All (LobbyInfos.Fits terms))
    (hown : i.usesOwnId s.productUserId = true)
    (hfair : ∀ message msg, i = .receive message → Reads s message msg →
      Fair terms message.sourceId s.productUserId msg)
    (h : EntryStep s i lobbyId before (some entry')) : Housed s.productUserId entry' := by
  generalize hafter : some entry' = after at h
  cases h with
  | same => exact hI _ hafter.symm
  | @created o random localUser huser hmax =>
    cases hafter
    have hself : localUser = s.productUserId := by
      simpa [Input.usesOwnId, Call.usesOwnId, huser] using hown
    exact ⟨by simpa [created, LobbyInfos.roster, hself] using hne.symm,
      fun _ ↦ ⟨hself, by simp [created, LobbyInfos.roster, hself]⟩⟩
  | departed => cases hafter
  | @modified o object entry hobject =>
    cases hafter
    have hentry := hI entry rfl
    have howner : (Lobby.modified entry s.productUserId object).infos.ownerId =
        entry.infos.ownerId := by
      rw [Lobby.modified]
      by_cases hmine : entry.infos.ownerId = s.productUserId <;> simp [hmine]
    have hroster := roster_modified entry s.productUserId object
    refine ⟨hroster ▸ hentry.named, fun hhosting ↦ ?_⟩
    rw [howner, hroster]
    exact hentry.host hhosting
  | @promoted o lobbyId target entry =>
    cases hafter
    exact ⟨(hI entry rfl).named, fun hhosting ↦ by cases hhosting⟩
  | @kicked o lobbyId target entry hid htarget hhosting howner hmember =>
    cases hafter
    have hentry := hI entry rfl
    obtain ⟨hself, hin⟩ := hentry.host hhosting
    exact ⟨not_mem_roster_dropMember hentry.named target,
      fun _ ↦ ⟨hself, mem_roster_dropMember hin fun heq ↦ howner (heq ▸ hself.symm)⟩⟩
  | @joining o now address localUser found hfound =>
    cases hafter
    exact ⟨(hcopied _ found hfound).named, fun hhosting ↦ by cases hhosting⟩
  | joiningById =>
    cases hafter
    exact ⟨List.not_mem_nil, fun hhosting ↦ by cases hhosting⟩
  | @admitted message request entry hreads hhosting =>
    cases hafter
    have hentry := hI entry rfl
    obtain ⟨hself, hin⟩ := hentry.host hhosting
    have hroster : (LobbyInfos.counted { entry.infos with members := entry.infos.members ++
        [{ request.member with userId := message.sourceId }] }).roster =
        entry.infos.roster ++ [message.sourceId] := by simp [LobbyInfos.roster]
    refine ⟨?_, fun _ ↦ ⟨hself, ?_⟩⟩
    · dsimp only
      rw [hroster]
      simpa using ⟨hentry.named, hreads.named⟩
    · dsimp only
      rw [hroster]
      exact List.mem_append_left _ hin
  | @accepted message answer entry =>
    cases hafter
    exact ⟨(hI entry rfl).named, fun hhosting ↦ by cases hhosting⟩
  | refused => cases hafter
  | @rewritten message infos entry hreads =>
    cases hafter
    obtain ⟨hfits, -, hin⟩ := hfair message _ rfl hreads
    refine ⟨hfits.named, fun hhosting ↦ ⟨?_, hin⟩⟩
    by_contra hother
    simp [hother] at hhosting
  | @left message notice entry hreads hhosting =>
    cases hafter
    have hentry := hI entry rfl
    obtain ⟨hself, hin⟩ := hentry.host hhosting
    exact ⟨not_mem_roster_dropMember hentry.named _,
      fun _ ↦ ⟨hself, mem_roster_dropMember hin hreads.other.symm⟩⟩
  | @attributed message notice entry hreads hhosting =>
    cases hafter
    have hentry := hI entry rfl
    have hroster : (entry.infos.editMember message.sourceId fun member ↦
        { member with attributes := notice.member.attributes }).roster = entry.infos.roster :=
      LobbyInfos.roster_editMember entry.infos message.sourceId fun _ ↦ rfl
    obtain ⟨hself, hin⟩ := hentry.host hhosting
    exact ⟨hroster ▸ hentry.named, fun _ ↦ ⟨hself, hroster ▸ hin⟩⟩
  | closed => cases hafter
  | expired => cases hafter

theorem decent_call (h : Decent terms s) (hlisted : Listed terms s) (hne : s.productUserId ≠ [])
    {c : Call} (hown : c.usesOwnId s.productUserId = true)
    (hroom : terms.Roomy → s.keepsRoom (.call c) = true)
    (hasked : ∀ lobbyId, s.asksFor (.call c) = some lobbyId → terms.Asked s.productUserId lobbyId) :
    Decent terms (s.call c) := by
  cases c with
  | createLobby o random =>
    refine decent_createLobby h hne (fun localUser huser ↦ ?_) hasked
    simpa [Call.usesOwnId, huser] using hown
  | destroyLobby o => exact decent_depart h o
  | leaveLobby o => exact decent_depart h o
  | updateLobbyModification o => exact h.of_core (core_updateLobbyModification o)
  | updateLobby o => exact decent_updateLobby h hroom
  | promoteMember o => exact decent_promoteMember h o
  | kickMember o => exact decent_kickMember h o
  | joinLobby o now address => exact decent_joinLobby h hlisted.details hasked
  | joinLobbyById o now address => exact decent_joinLobbyById h hasked
  | createLobbySearch o => exact h.of_core (core_createLobbySearch o)
  | searchSetLobbyId handle o => exact h.of_core (core_editSearch handle _ _ _)
  | searchSetTargetUser handle o => exact h.of_core (core_editSearch handle _ _ _)
  | searchSetParameter handle o => exact h.of_core (core_editSearch handle _ _ _)
  | searchRemoveParameter handle o => exact h.of_core (core_editSearch handle _ _ _)
  | searchSetMaxResults handle o => exact h.of_core (core_editSearch handle _ _ _)
  | searchFind handle localUserId now address => exact decent_searchFind h handle _ now address
  | searchCopyResult handle lobbyIndex => exact h.of_core (core_searchCopyResult handle lobbyIndex)
  | searchRelease handle => exact h.of_core rfl
  | copyLobbyDetailsHandle lobbyId => exact h.of_core (core_copyLobbyDetailsHandle lobbyId)
  | detailsRelease handle => exact h.of_core rfl
  | modificationSetBucketId handle _ => exact h.of_core (core_modify handle _)
  | modificationSetPermissionLevel handle _ => exact h.of_core (core_modify handle _)
  | modificationSetMaxMembers handle _ => exact h.of_core (core_modify handle _)
  | modificationSetInvitesAllowed handle _ => exact h.of_core (core_modify handle _)
  | modificationSetAllowedPlatformIds handle => exact h.of_core (core_modify handle _)
  | modificationAddAttribute handle _ => exact h.of_core (core_modify handle _)
  | modificationRemoveAttribute handle _ => exact h.of_core (core_modify handle _)
  | modificationAddMemberAttribute handle _ => exact h.of_core (core_modify handle _)
  | modificationRemoveMemberAttribute handle _ => exact h.of_core (core_modify handle _)
  | modificationRelease handle => exact h.of_core rfl

/-- **Every step that keeps room keeps order**, as long as what it reads is fair. -/
theorem Orderly.step {i : Input} (h : Orderly terms s) (hne : s.productUserId ≠ [])
    (hown : i.usesOwnId s.productUserId = true) (hroom : terms.Roomy → s.keepsRoom i = true)
    (hasked : ∀ lobbyId, s.asksFor i = some lobbyId → terms.Asked s.productUserId lobbyId)
    (hfair : ∀ message msg, i = .receive message → Reads s message msg →
      Fair terms message.sourceId s.productUserId msg)
    (hstep : step s i = some s') : Orderly terms s' := by
  have htable := tableStep_of_step hstep
  have hhoused (lobbyId : Bytes) (entry : Lobby) (hentry : s'.lobbies[lobbyId]? = some entry) :
      Housed s'.productUserId entry := by
    obtain ⟨edited, gone, hedit, hgone, hlookup⟩ := htable.entries lobbyId
    rw [htable.self]
    have hloses (peer : Bytes) (hpeer : peer ∈ gone) (e e' : Lobby)
        (hloss : Lobby.bereaved s.productUserId peer e = some e')
        (he : Housed s.productUserId e) : Housed s.productUserId e' :=
      he.bereaved (hgone peer hpeer).2.2 hloss
    refine Lobby.outliving_keeps hloses (hlookup.symm.trans hentry) fun e he ↦ ?_
    subst he
    exact .entryStep (fun e he ↦ h.housed lobbyId e he) hne h.listed.details hown hfair hedit
  cases i with
  | call c =>
    rw [Lobbies.step] at hstep
    split at hstep
    · obtain rfl := Option.some.inj hstep
      exact ⟨decent_call h.decent h.listed hne hown hroom hasked,
        listed_call h.listed h.decent c, hhoused⟩
    · cases hstep
  | receive message =>
    obtain rfl := Option.some.inj hstep
    exact ⟨decent_receive h.decent fun msg ↦ hfair message msg rfl,
      listed_receive h.listed fun msg ↦ hfair message msg rfl, hhoused⟩
  | collect address now =>
    obtain rfl := Option.some.inj hstep
    exact ⟨decent_collect h.decent address now, listed_collect h.listed address now, hhoused⟩
  | around peers known losses =>
    obtain rfl := Option.some.inj hstep
    exact ⟨⟨h.decent.fits, fun letter hletter ↦ by cases hletter⟩,
      ⟨h.listed.results, h.listed.details⟩, hhoused⟩

end Lobbies
end EosMesh
