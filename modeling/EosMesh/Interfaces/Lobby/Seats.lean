import EosMesh.Interfaces.Lobby.Election
import EosMesh.Interfaces.Lobby.Orphans
import EosMesh.Interfaces.Lobby.Searches

/-!
# Rosters that fit

Nobody is in a lobby twice, or without having asked to be, and no more members than there is room
for: what an instance keeps of that, for the lobbies in its table and for those it tells others of.

* `LobbyInfos.Fits` is that of one lobby, and `LobbyInfos.Seated` what its host should make of it.
* `Lobbies.Fair` is what may be said to a peer, and `Lobbies.Decent` a state whose lobbies fit, in
  which nothing else was said.  No loss disturbs it, however deep the sends nest: a loss only takes
  members away, so whoever is still sent a lobby was in it when the sending began.
-/

set_option autoImplicit false

namespace EosMesh

open Lib
open Std (TreeMap)

/-! ## One lobby -/

/-- What a lobby is held to: who asked to be in which, and whether there should be room for all. -/
structure SeatTerms where
  Asked : Bytes → Bytes → Prop
  Roomy : Prop

namespace LobbyInfos

variable {terms : SeatTerms} {infos infos' : LobbyInfos}

/-- A lobby as its host should keep it. -/
structure Seated (infos : LobbyInfos) : Prop where
  nodup : infos.roster.Nodup
  owner : infos.ownerId ∈ infos.roster
  room : infos.members.length ≤ infos.maxMembers.toNat
  slots : infos.availableSlots.toNat = infos.maxMembers.toNat - infos.members.length

/-- A lobby by those terms, whoever owns it. -/
structure Fits (terms : SeatTerms) (infos : LobbyInfos) : Prop where
  nodup : infos.roster.Nodup
  named : [] ∉ infos.roster
  room : terms.Roomy → infos.members.length ≤ infos.maxMembers.toNat
  asked : ∀ member ∈ infos.roster, terms.Asked member infos.lobbyId

/-- Its available slots are those left. -/
def Counts (infos : LobbyInfos) : Prop := infos.availableSlots = infos.openSlotsOf

theorem counts_counted (infos : LobbyInfos) : infos.counted.Counts := rfl

theorem toNat_openSlotsOf (infos : LobbyInfos) :
    infos.openSlotsOf.toNat = infos.maxMembers.toNat - infos.members.length := by
  rw [openSlotsOf]
  have hmax := infos.maxMembers.toNat_lt
  split
  · have hlen : (UInt32.ofNat infos.members.length).toNat = infos.members.length := by
      rw [UInt32.toNat_ofNat_of_lt']
      rw [UInt32.size]
      omega
    rw [UInt32.toNat_sub_of_le, hlen]
    rw [UInt32.le_iff_toNat_le, hlen]
    omega
  · simp only [UInt32.toNat_zero]
    omega

theorem length_roster (infos : LobbyInfos) : infos.roster.length = infos.members.length :=
  List.length_map _

/-- A lobby that fits does so with fewer members. -/
theorem Fits.of_sublist (h : infos.Fits terms) (hroster : infos'.roster.Sublist infos.roster)
    (hmax : infos'.maxMembers = infos.maxMembers) (hid : infos'.lobbyId = infos.lobbyId) :
    infos'.Fits terms where
  nodup := h.nodup.sublist hroster
  named := fun hin ↦ h.named (hroster.subset hin)
  room := fun hroomy ↦ by
    have hlen := hroster.length_le
    rw [length_roster, length_roster] at hlen
    rw [hmax]
    exact hlen.trans (h.room hroomy)
  asked := fun member hin ↦ hid ▸ h.asked member (hroster.subset hin)

theorem Fits.dropMember (h : infos.Fits terms) (userId : Bytes) :
    (infos.dropMember userId).counted.Fits terms :=
  h.of_sublist (Lobbies.roster_dropMember infos userId ▸ List.erase_sublist) rfl rfl

/-- Whoever owns it. -/
theorem Fits.owned (h : infos.Fits terms) (ownerId : Bytes) :
    ({ infos with ownerId } : LobbyInfos).Fits terms :=
  h.of_sublist (List.Sublist.refl _) rfl rfl

/-- Nobody but a member inherits. -/
theorem heir_mem {leaving : Bytes} (hnamed : [] ∉ infos.roster) (hheir : infos.heir leaving ≠ []) :
    infos.heir leaving ∈ infos.roster := by
  rw [heir] at hheir ⊢
  split at hheir
  · rename_i hmigrates
    rw [if_pos hmigrates]
    have hne (member : LobbyMember) (hin : member ∈ infos.members) : member.userId ≠ [] :=
      fun heq ↦ hnamed (List.mem_map.2 ⟨member, hin, heq⟩)
    rcases @electOwner_isLeastOf infos.members leaving hne with ⟨-, hnone⟩ | hleast
    · exact absurd hnone hheir
    · exact List.mem_of_mem_filter hleast.1
  · exact absurd rfl hheir

/-- Editing a member renames nobody. -/
theorem roster_editMember (infos : LobbyInfos) (userId : Bytes) {edit : LobbyMember → LobbyMember}
    (hedit : ∀ member, (edit member).userId = member.userId) :
    (infos.editMember userId edit).roster = infos.roster := by
  show (infos.members.replaceF _).map (·.userId) = infos.members.map (·.userId)
  induction infos.members with
  | nil => rfl
  | cons member members ih =>
    by_cases hmember : member.userId = userId
    · simp [hmember, hedit]
    · simpa [List.replaceF_cons, hmember] using ih

/-- What a host keeps, from the parts it is kept by. -/
theorem Fits.seated (h : infos.Fits terms) (hroomy : terms.Roomy)
    (howner : infos.ownerId ∈ infos.roster)
    (hcounts : infos.Counts) : infos.Seated :=
  ⟨h.nodup, howner, h.room hroomy, by rw [hcounts, toNat_openSlotsOf]⟩

end LobbyInfos

/-- An entry of the table that fits; a host has counted its slots. -/
structure Lobby.Fitting (terms : SeatTerms) (lobbyId : Bytes) (entry : Lobby) :
    Prop where
  fits : entry.infos.Fits terms
  named : entry.infos.lobbyId = lobbyId
  counts : entry.localState = .hosting → entry.infos.Counts

/-- A loss only takes members away. -/
theorem Lobby.bereaved_roster {self peer : Bytes} {entry entry' : Lobby}
    (h : Lobby.bereaved self peer entry = some entry') :
    entry'.infos.roster.Sublist entry.infos.roster := by
  have hdrop : (entry.infos.dropMember peer).roster.Sublist entry.infos.roster :=
    Lobbies.roster_dropMember _ _ ▸ List.erase_sublist
  rw [Lobby.bereaved] at h
  dsimp only at h
  split at h
  · split at h
    · cases h
    · obtain rfl := Option.some.inj h
      exact hdrop
  · split at h
    · obtain rfl := Option.some.inj h
      exact hdrop
    · obtain rfl := Option.some.inj h
      exact List.Sublist.refl _

namespace Lobbies

variable {terms : SeatTerms} {s s' : Lobbies} {lobbyId : Bytes}

/-! ## What is said -/

/-- What `source` may say to `dest`: a lobby that one is in, lobbies that fit, and a request of its
own. -/
def Fair (terms : SeatTerms) (source dest : Bytes) : LobbyMessage → Prop
  | .infos infos => infos.Fits terms ∧ infos.Counts ∧ dest ∈ infos.roster
  | .searchResponse answer => ∀ infos ∈ answer.lobbies, infos.Fits terms
  | .joinRequest request => terms.Asked source request.lobbyId
  | _ => True

/-- Every lobby fits, and nothing was said that is not fair. -/
structure Decent (terms : SeatTerms) (s : Lobbies) : Prop where
  fits : ∀ (lobbyId : Bytes) entry, s.lobbies[lobbyId]? = some entry → entry.Fitting terms lobbyId
  fair : ∀ letter ∈ s.mesh.sent, Fair terms s.productUserId letter.1 letter.2

theorem Decent.of_core (h : Decent terms s) (hcore : s'.core = s.core) : Decent terms s' := by
  obtain ⟨hself, -, -, hmesh, hlobbies⟩ := core_eq_iff.1 hcore
  refine ⟨fun lobbyId entry hentry ↦ h.fits lobbyId entry (hlobbies ▸ hentry), ?_⟩
  rw [hmesh, hself]
  exact h.fair

theorem Decent.setLobby (h : Decent terms s) {entry : Lobby}
    (hentry : entry.Fitting terms lobbyId) : Decent terms (s.setLobby lobbyId entry) where
  fits id other hother := by
    rw [Lobbies.setLobby, lookup_insert] at hother
    split at hother
    · rename_i hid
      obtain rfl := Option.some.inj hother
      exact hid ▸ hentry
    · exact h.fits id other hother
  fair := h.fair

theorem Decent.eraseLobby (h : Decent terms s) (lobbyId : Bytes) :
    Decent terms (s.eraseLobby lobbyId) where
  fits id other hother := by
    rw [Lobbies.eraseLobby, lookup_erase] at hother
    split at hother
    · cases hother
    · exact h.fits id other hother
  fair := h.fair

theorem Decent.drop (h : Decent terms s) (peer : Bytes) :
    Decent terms { s with mesh := s.mesh.drop peer } :=
  ⟨h.fits, h.fair⟩

/-- A message goes to the peer it is for; one for nobody goes to all. -/
theorem mem_recipients {peer dest : Bytes} (hpeer : peer ≠ []) (h : dest ∈ s.mesh.recipients peer) :
    dest = peer := by
  rw [Mesh.recipients, if_neg hpeer] at h
  exact of_decide_eq_true (List.mem_filter.1 h).2

theorem Decent.send (h : Decent terms s) {peer : Bytes} {message : LobbyMessage}
    (hfair : ∀ dest ∈ s.mesh.recipients peer, Fair terms s.productUserId dest message) :
    Decent terms { s with mesh := (s.mesh.send peer message).1 } := by
  refine ⟨h.fits, fun letter hletter ↦ ?_⟩
  dsimp only at hletter
  rw [Mesh.send] at hletter
  split at hletter
  · exact h.fair letter hletter
  · rcases List.mem_append.1 hletter with hold | hnew
    · exact h.fair letter hold
    · obtain ⟨dest, hdest, rfl⟩ := List.mem_map.1 hnew
      exact hfair dest hdest

/-! ## Sending -/

theorem roster_of_lookup {entry : Lobby} (h : s.lobbies[lobbyId]? = some entry) :
    s.roster lobbyId = entry.infos.roster := by
  rw [roster, h]
  rfl

/-- Losses only take members away. -/
theorem Lost.roster_subset {D : Bytes → Prop} (h : Lost D s s') (lobbyId : Bytes) :
    s'.roster lobbyId ⊆ s.roster lobbyId := by
  intro member hmember
  obtain ⟨gone, -, hlookup⟩ := h.lookup lobbyId
  rw [roster, hlookup] at hmember
  cases hafter : Lobby.outliving s.productUserId gone s.lobbies[lobbyId]? with
  | none =>
    rw [hafter] at hmember
    cases hmember
  | some entry' =>
    rw [hafter] at hmember
    have hkept : entry'.infos.roster ⊆ s.roster lobbyId := by
      refine Lobby.outliving_keeps (P := fun e ↦ e.infos.roster ⊆ s.roster lobbyId)
        (fun peer _ e e' hloss he ↦ ?_) hafter fun e he ↦ ?_
      · exact fun m hm ↦ he ((Lobby.bereaved_roster hloss).subset hm)
      · rw [roster_of_lookup he]
        exact List.Subset.refl _
    exact hkept hmember

/-- Whoever drops a member counts the slots again. -/
theorem Lost.counts {D : Bytes → Prop} (h : Lost D s s') {lobbyId : Bytes}
    (hcounts : ∀ entry, s.lobbies[lobbyId]? = some entry → entry.infos.Counts) {entry' : Lobby}
    (hentry' : s'.lobbies[lobbyId]? = some entry') : entry'.infos.Counts := by
  obtain ⟨gone, -, hlookup⟩ := h.lookup lobbyId
  refine Lobby.outliving_keeps (P := fun e ↦ e.infos.Counts) (fun peer _ e e' hloss he ↦ ?_)
    (hlookup.symm.trans hentry') hcounts
  rw [Lobby.bereaved] at hloss
  dsimp only at hloss
  split at hloss
  · split at hloss
    · cases hloss
    · obtain rfl := Option.some.inj hloss
      exact LobbyInfos.counts_counted _
  · split at hloss
    · obtain rfl := Option.some.inj hloss
      exact LobbyInfos.counts_counted _
    · obtain rfl := Option.some.inj hloss
      exact he

section Sending

variable {lose : Lobbies → Bytes → Lobbies}
  (hlost : ∀ (s : Lobbies) (peer : Bytes), Lost (fun _ ↦ True) s (lose s peer))
  (hdecent : ∀ (s : Lobbies) (peer : Bytes), Decent terms s → Decent terms (lose s peer))

include hdecent in
theorem decent_sendToWith (h : Decent terms s) {peer : Bytes} {message : LobbyMessage}
    (hfair : ∀ dest ∈ s.mesh.recipients peer, Fair terms s.productUserId dest message) :
    Decent terms (s.sendToWith lose peer message) := by
  have hall (lost : List Bytes) (s : Lobbies) (hs : Decent terms s) :
      Decent terms (lost.foldl lose s) := by
    induction lost generalizing s with
    | nil => exact hs
    | cons peer lost ih => exact ih _ (hdecent s peer hs)
  exact hall _ _ (h.send hfair)

include hlost hdecent

theorem decent_broadcastToMembersWith (h : Decent terms s) {message : LobbyMessage}
    {except : Bytes} (hnamed : [] ∉ s.roster lobbyId)
    (hfair : ∀ dest ∈ s.roster lobbyId, Fair terms s.productUserId dest message) :
    Decent terms (s.broadcastToMembersWith lose lobbyId message except) := by
  have hall : Decent terms (s.broadcastToMembersWith lose lobbyId message except) ∧
      Lost (fun _ ↦ True) s (s.broadcastToMembersWith lose lobbyId message except) := by
    refine fanOut_visits (I := fun s' : Lobbies ↦ Decent terms s' ∧ Lost (fun _ ↦ True) s s')
      (fun s' member hs' hmember _ ↦ ⟨?_, ?_⟩) ⟨h, .refl s⟩
    · have hin := hs'.2.roster_subset lobbyId hmember
      refine decent_sendToWith hdecent hs'.1 fun dest hdest ↦ ?_
      obtain rfl := mem_recipients (fun heq ↦ hnamed (heq ▸ hin)) hdest
      rw [hs'.2.self]
      exact hfair dest hin
    · exact hs'.2.trans (lost_sendToWith hlost member message)
  exact hall.1

theorem decent_broadcastLobbyWith (h : Decent terms s)
    (hcounts : ∀ entry, s.lobbies[lobbyId]? = some entry → entry.infos.Counts) :
    Decent terms (s.broadcastLobbyWith lose lobbyId) := by
  rw [broadcastLobbyWith]
  split
  · exact h
  · rename_i entry hentry
    replace hentry : s.lobbies[lobbyId]? = some entry := hentry
    have hfits := (h.fits lobbyId entry hentry).fits
    refine decent_broadcastToMembersWith hlost hdecent h ?_ fun dest hdest ↦ ?_
    · rw [roster_of_lookup hentry]
      exact hfits.named
    · rw [roster_of_lookup hentry] at hdest
      exact ⟨hfits, hcounts entry hentry, hdest⟩

/-- An entry is written, and the members are told of it. -/
theorem decent_tell (h : Decent terms s) {entry : Lobby} (hentry : entry.Fitting terms lobbyId)
    (hcounts : entry.infos.Counts) :
    Decent terms ((s.setLobby lobbyId entry).broadcastLobbyWith lose lobbyId) := by
  refine decent_broadcastLobbyWith hlost hdecent (h.setLobby hentry) fun other hother ↦ ?_
  rw [setLobby, lookup_insert, if_pos rfl] at hother
  obtain rfl := Option.some.inj hother
  exact hcounts

theorem decent_bereaveWith (h : Decent terms s) (peer lobbyId : Bytes) :
    Decent terms (bereaveWith lose peer s lobbyId) := by
  rw [bereaveWith]
  split
  · exact h
  · rename_i entry hentry
    obtain ⟨hfits, hnamed, -⟩ := h.fits lobbyId entry hentry
    have hleft := hfits.dropMember peer
    dsimp only
    split
    · split
      · exact h.eraseLobby lobbyId
      · have hheir := hleft.owned ((entry.infos.dropMember peer).heir peer)
        split
        · exact decent_tell hlost hdecent h ⟨hheir, hnamed, fun _ ↦ LobbyInfos.counts_counted _⟩
            (LobbyInfos.counts_counted _)
        · exact h.setLobby ⟨hheir, hnamed, fun _ ↦ LobbyInfos.counts_counted _⟩
    · split
      · exact decent_tell hlost hdecent h ⟨hleft, hnamed, fun _ ↦ LobbyInfos.counts_counted _⟩
          (LobbyInfos.counts_counted _)
      · exact h

theorem decent_onPeerDisconnectedWith (h : Decent terms s) (peer : Bytes) :
    Decent terms (s.onPeerDisconnectedWith lose peer) := by
  have hall (ids : List Bytes) (s : Lobbies) (hs : Decent terms s) :
      Decent terms (ids.foldl (bereaveWith lose peer) s) := by
    induction ids generalizing s with
    | nil => exact hs
    | cons lobbyId ids ih => exact ih _ (decent_bereaveWith hlost hdecent hs peer lobbyId)
  rw [onPeerDisconnectedWith]
  split
  · exact h
  · exact hall _ s h

end Sending

theorem decent_loseWithin (depth : Nat) (h : Decent terms s) (peer : Bytes) :
    Decent terms (loseWithin depth s peer) := by
  induction depth generalizing s peer with
  | zero => exact h
  | succ depth ih =>
    rw [loseWithin]
    split
    · exact decent_onPeerDisconnectedWith (lost_loseWithin depth) (fun s p hs ↦ ih hs p)
        (h.drop peer) peer
    · exact h

theorem decent_lose (s : Lobbies) (peer : Bytes) (h : Decent terms s) :
    Decent terms (s.lose peer) :=
  decent_loseWithin _ h peer

theorem Decent.sendTo (h : Decent terms s) {peer : Bytes} {message : LobbyMessage}
    (hfair : ∀ dest, Fair terms s.productUserId dest message) :
    Decent terms (s.sendTo peer message) :=
  decent_sendToWith decent_lose h fun dest _ ↦ hfair dest

theorem Decent.foldl_sendTo (h : Decent terms s) {message : LobbyMessage}
    (hfair : ∀ dest, Fair terms s.productUserId dest message) (peers : List Bytes) :
    Decent terms (peers.foldl (fun s peer ↦ s.sendTo peer message) s) := by
  induction peers generalizing s with
  | nil => exact h
  | cons peer peers ih =>
    have hself := (lost_sendTo (D := fun _ ↦ False) s peer message).self
    exact ih (h.sendTo hfair) fun dest ↦ hself ▸ hfair dest

theorem Decent.broadcastLobby (h : Decent terms s)
    (hcounts : ∀ entry, s.lobbies[lobbyId]? = some entry → entry.infos.Counts) :
    Decent terms (s.broadcastLobby lobbyId) :=
  decent_broadcastLobbyWith lost_lose decent_lose h hcounts

theorem Decent.tell (h : Decent terms s) {entry : Lobby} (hentry : entry.Fitting terms lobbyId)
    (hcounts : entry.infos.Counts) :
    Decent terms ((s.setLobby lobbyId entry).broadcastLobby lobbyId) :=
  decent_tell lost_lose decent_lose h hentry hcounts

/-- An entry is written, somebody is told something else first, and then the members of it. -/
theorem Decent.tellAfter (h : Decent terms s) {entry : Lobby} (hentry : entry.Fitting terms lobbyId)
    (hcounts : entry.infos.Counts) {peer : Bytes} {message : LobbyMessage}
    (hfair : ∀ dest, Fair terms s.productUserId dest message) :
    Decent terms (((s.setLobby lobbyId entry).sendTo peer message).broadcastLobby lobbyId) := by
  refine ((h.setLobby hentry).sendTo hfair).broadcastLobby fun other hother ↦ ?_
  refine (lost_sendTo (D := fun _ ↦ False) _ peer message).counts (fun first hfirst ↦ ?_) hother
  rw [Lobbies.setLobby, lookup_insert, if_pos rfl] at hfirst
  obtain rfl := Option.some.inj hfirst
  exact hcounts

end Lobbies
end EosMesh
