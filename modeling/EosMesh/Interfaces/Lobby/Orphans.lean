import EosMesh.Interfaces.Lobby.Hosting

/-!
# Lobbies whose owner is gone

When the owner of a lobby we joined leaves, the lobby goes to an heir: the least of the members that
are left, whether we reach it or not.  A lobby we joined keeps members that left it, until its owner
says otherwise, so the heir may have been gone before.

* `Lobbies.Owned` says that every lobby we joined has an owner we reach.  It is about the end of a
  turn: in the middle of one a loss may have taken the owner, and the hand-over comes after.
* `owner_of_outliving` is what some losses make of a lobby: it kept its owner, or the heir has it.
  `electOwner` depends on who the members are and not on their order, so the heir is the same
  whichever member was lost first (`electOwner_congr`).
* `EntryStep.notHosting` says what an edit can make of a lobby, and `observes_turn` that a turn is
  one edit and then the losses, none of which the lobby misses.
* `Lobbies.keepsOwners` is the condition on a turn, and `owned_turn` says that under it the property
  is kept, however many peers are lost within one another.

`Interfaces.Orphans` has the result, for this interface and the sessions alike.
-/

set_option autoImplicit false

namespace EosMesh

open Lib

namespace Lobbies

variable {s s' : Lobbies} {i : Input} {lobbyId : Bytes} {entry : Lobby}

/-- Peers come and go; those that go, the router drops. -/
def turn (s : Lobbies) : Turn Input → Option Lobbies
  | .input (.around peers known losses) =>
    if s.mesh.peers.all (· ∈ peers) then step s (.around peers known losses) else none
  | .input i => step s i
  | .drop peer => some (s.lose peer)

/-- Every lobby we joined has an owner we reach. -/
def Owned (s : Lobbies) : Prop :=
  ∀ (lobbyId : Bytes) (entry : Lobby), s.lobbies[lobbyId]? = some entry →
    entry.localState = .joined → entry.infos.ownerId ∈ s.mesh.peers

/-- The peers a turn loses: those we reach no more after it, and one that says it is gone. -/
def losesIn (s : Lobbies) (t : Turn Input) (s' : Lobbies) (peer : Bytes) : Prop :=
  (peer ∈ s.mesh.peers ∧ peer ∉ s'.mesh.peers) ∨ ∃ i, t = .input i ∧ i.tellsGone peer

/-- Who inherits a lobby from its owner: nobody, ourselves, or a peer that stays. -/
def WellInherited (s : Lobbies) (t : Turn Input) (s' : Lobbies) (entry : Lobby) : Prop :=
  let heir := (entry.infos.dropMember entry.infos.ownerId).heir entry.infos.ownerId
  entry.infos.ownerId ≠ [] ∧ entry.infos.ownerId ≠ s.productUserId ∧
    (heir = [] ∨ heir = s.productUserId ∨ heir ∈ s'.mesh.peers ∧ ¬ losesIn s t s' heir)

/-- The lobby a call puts in the table that we do not host: one we hand to another, or ask to
join. -/
def placed (s : Lobbies) : Input → Option Lobby
  | .call (.promoteMember o) =>
    (o.lobbyId.bind s.hosted).bind fun entry ↦ o.targetUserId.map fun target ↦
      { entry with infos := { entry.infos with ownerId := target }, localState := .joined }
  | .call (.joinLobby o _ _) =>
    (s.details.find o.lobbyDetailsHandle).bind fun found ↦ o.localUserId.map fun localUser ↦
      { infos := found, localUser, localState := .joining }
  | _ => none

/-- The owner a message gives a lobby we do not host. -/
def newOwner (s : Lobbies) : Input → Option Bytes
  | .receive message =>
    match LobbyMessage.read message.typeTag message.payload with
    | some (.joinResponse answer) =>
      (s.findLobby answer.lobbyId).bind fun entry ↦
        if (entry.infos.ownerId = [] ∨ entry.infos.ownerId = message.sourceId) ∧
            answer.playerId = s.productUserId ∧ answer.reason = ResultCode.success then
          some message.sourceId
        else none
    | some (.infos infos) =>
      (s.findLobby infos.lobbyId).bind fun entry ↦
        if entry.localState ≠ .hosting ∧ message.sourceId = entry.infos.ownerId ∧
            infos.ownerId ≠ s.productUserId then some infos.ownerId
        else none
    | _ => none
  | _ => none

/-- We are about to leave the lobby. -/
def leaves (lobbyId : Bytes) : Turn Input → Prop
  | .input (.call (.destroyLobby o)) => o.lobbyId = some lobbyId
  | .input (.call (.leaveLobby o)) => o.lobbyId = some lobbyId
  | _ => False

/-- The condition on a turn: a lobby that loses its owner in it is well inherited, unless we are
leaving it; and a lobby is given only an owner we reach. -/
def keepsOwners (s : Lobbies) (t : Turn Input) : Prop :=
  ∀ s', turn s t = some s' →
    (∀ (lobbyId : Bytes) (entry : Lobby), s.lobbies[lobbyId]? = some entry →
      entry.localState ≠ .hosting → ¬ leaves lobbyId t →
      losesIn s t s' entry.infos.ownerId → WellInherited s t s' entry) ∧
    ∀ i, t = .input i →
      (∀ entry, s.placed i = some entry →
        (entry.localState = .joined → entry.infos.ownerId ∈ s.mesh.peers) ∧
        (losesIn s t s' entry.infos.ownerId → WellInherited s t s' entry)) ∧
      ∀ owner, s.newOwner i = some owner → owner ∈ s'.mesh.peers

/-! ## Losing the owner -/

/-- Losing peers leaves a lobby we host hosted. -/
theorem hosting_of_outliving {self : Bytes} {gone : List Bytes} {entry entry' : Lobby}
    (hhosting : entry.localState = .hosting)
    (h : Lobby.outliving self gone (some entry) = some entry') : entry'.localState = .hosting := by
  refine Lobby.outliving_keeps (P := fun e ↦ e.localState = .hosting)
    (fun peer _ e e' hloss he ↦ ?_)
    h fun e he ↦ Option.some.inj he ▸ hhosting
  rw [Lobby.bereaved] at hloss
  dsimp only at hloss
  rw [if_neg (by simp [he])] at hloss
  split at hloss <;> exact Option.some.inj hloss ▸ he

/-- **A lobby we are in after some losses**: it kept its owner, or the heir has it. -/
theorem owner_of_outliving {self : Bytes} {gone : List Bytes} {entry entry' : Lobby}
    (hnot : entry.localState ≠ .hosting)
    (hheir : let heir := (entry.infos.dropMember entry.infos.ownerId).heir entry.infos.ownerId
      entry.infos.ownerId ∈ gone → heir = [] ∨ heir = self ∨ heir ∉ gone)
    (h : Lobby.outliving self gone (some entry) = some entry')
    (hjoined : entry'.localState = .joined) :
    (entry' = entry ∧ entry.infos.ownerId ∉ gone) ∨ entry.infos.ownerId ∈ gone ∧
      entry'.infos.ownerId =
        (entry.infos.dropMember entry.infos.ownerId).heir entry.infos.ownerId ∧
      entry'.infos.ownerId ≠ [] ∧ entry'.infos.ownerId ≠ self := by
  by_cases hin : entry.infos.ownerId ∈ gone
  · refine .inr ⟨hin, ?_⟩
    replace hheir := hheir hin
    obtain ⟨before, after, hsplit, hfirst⟩ := List.eq_append_cons_of_mem hin
    rw [hsplit, Lobby.outliving_append, outliving_of_owner hnot hfirst, Lobby.outliving_cons,
      Option.bind_some, Lobby.bereaved] at h
    dsimp only at h hheir ⊢
    rw [if_pos ⟨hnot, rfl⟩] at h
    generalize (entry.infos.dropMember entry.infos.ownerId).heir entry.infos.ownerId = heir at *
    split at h
    · rw [Lobby.outliving_none] at h
      cases h
    · rename_i hne
      by_cases hself : heir = self
      · rw [if_pos hself] at h
        have hhosting := hosting_of_outliving rfl h
        rw [hjoined] at hhosting
        cases hhosting
      · have hafter : heir ∉ after := fun hin' ↦
          ((hheir.resolve_left hne).resolve_left hself) (by simp [hsplit, hin'])
        rw [if_neg hself, outliving_of_owner (by simp) hafter] at h
        obtain rfl := Option.some.inj h
        exact ⟨rfl, hne, hself⟩
  · rw [outliving_of_owner hnot hin] at h
    exact .inl ⟨(Option.some.inj h).symm, hin⟩

/-! ## Heirs -/

/-- Who inherits depends on who the members are. -/
theorem electOwner_congr {members members' : List LobbyMember} (leaving : Bytes)
    (h : members.map (·.userId) = members'.map (·.userId)) :
    electOwner members leaving = electOwner members' leaving := by
  have hroster (members : List LobbyMember) : electOwner members leaving =
      (members.map (·.userId)).foldl (fun chosen userId ↦
        if userId = leaving then chosen
        else if chosen = [] ∨ compare userId chosen = .lt then userId
        else chosen) [] := by
    rw [List.foldl_map]
    rfl
  rw [hroster, hroster, h]

theorem roster_dropMember (infos : LobbyInfos) (userId : Bytes) :
    (infos.dropMember userId).roster = infos.roster.erase userId := by
  rw [LobbyInfos.roster, LobbyInfos.dropMember, LobbyInfos.roster]
  induction infos.members with
  | nil => rfl
  | cons member members ih =>
    by_cases hmember : member.userId = userId
    · simp [hmember]
    · simpa [List.erase_cons, hmember] using ih

theorem roster_modified (entry : Lobby) (self : Bytes) (object : LobbyModificationObject) :
    (Lobby.modified entry self object).infos.roster = entry.infos.roster := by
  have hedit (members : List LobbyMember) : (members.replaceF fun member ↦
      if member.userId = self then some (applyMemberEdits object member) else none).map (·.userId) =
        members.map (·.userId) := by
    induction members with
    | nil => rfl
    | cons member members ih =>
      by_cases hmember : member.userId = self
      · simp [hmember, applyMemberEdits]
      · simpa [List.replaceF_cons, hmember] using ih
  rw [Lobby.modified]
  split
  · exact hedit _
  · exact hedit _

/-- A commit changes neither the owner nor the heir. -/
theorem heir_modified (entry : Lobby) (self : Bytes) (object : LobbyModificationObject) :
    (Lobby.modified entry self object).infos.ownerId = entry.infos.ownerId ∧
      ∀ leaving, ((Lobby.modified entry self object).infos.dropMember leaving).heir leaving =
        (entry.infos.dropMember leaving).heir leaving := by
  have hframe : (Lobby.modified entry self object).infos.ownerId = entry.infos.ownerId ∧
      (Lobby.modified entry self object).infos.allowHostMigration =
        entry.infos.allowHostMigration := by
    rw [Lobby.modified]
    split <;> exact ⟨rfl, rfl⟩
  refine ⟨hframe.1, fun leaving ↦ ?_⟩
  have hmembers := roster_dropMember (Lobby.modified entry self object).infos leaving
  rw [roster_modified, ← roster_dropMember] at hmembers
  have hmigration : ((Lobby.modified entry self object).infos.dropMember
      leaving).allowHostMigration = (entry.infos.dropMember leaving).allowHostMigration := hframe.2
  simp only [LobbyInfos.heir, hmigration, electOwner_congr leaving hmembers]

/-! ## Each turn -/

/-- What a step can make of a lobby we are not to host: it was one before, with the same owner and
the same heir; or a call placed it; or a message gave it its owner. -/
theorem EntryStep.notHosting {edited : Lobby}
    (h : EntryStep s i lobbyId s.lobbies[lobbyId]? (some edited))
    (hnot : edited.localState ≠ .hosting) :
    (∃ entry, s.lobbies[lobbyId]? = some entry ∧ entry.localState = edited.localState ∧
      edited.infos.ownerId = entry.infos.ownerId ∧
      ∀ leaving, (edited.infos.dropMember leaving).heir leaving =
        (entry.infos.dropMember leaving).heir leaving) ∨
    s.placed i = some edited ∨ (edited.infos.ownerId = [] ∧ edited.localState = .joining) ∨
    (s.newOwner i = some edited.infos.ownerId ∧ ∀ peer, ¬ i.tellsGone peer) := by
  generalize hbefore : s.lobbies[lobbyId]? = before at h
  generalize hafter : some edited = after at h
  cases h with
  | same => exact .inl ⟨edited, hafter.symm, rfl, rfl, fun _ ↦ rfl⟩
  | created =>
    cases hafter
    exact absurd rfl hnot
  | departed => cases hafter
  | @modified o object entry hobject =>
    cases hafter
    obtain ⟨howner, hheir⟩ := heir_modified entry s.productUserId object
    exact .inl ⟨entry, rfl, rfl, howner, hheir⟩
  | @promoted o lobbyId target entry hid htarget hhosting hmember =>
    cases hafter
    exact .inr (.inl (by simp [placed, hid, htarget, hosted_eq_some.2 ⟨hbefore, hhosting⟩]))
  | kicked hid htarget hhosting =>
    cases hafter
    exact absurd hhosting hnot
  | joining hfound huser =>
    cases hafter
    exact .inr (.inl (by simp [placed, hfound, huser]))
  | joiningById =>
    cases hafter
    exact .inr (.inr (.inl ⟨rfl, rfl⟩))
  | admitted hreads hhosting =>
    cases hafter
    exact absurd hhosting hnot
  | @accepted message answer entry hreads howner hplayer hwaiting hreason =>
    cases hafter
    have hentry : s.findLobby answer.lobbyId = some entry := hbefore
    refine .inr (.inr (.inr ⟨?_, hreads.not_tellsGone⟩))
    simp only [newOwner, hreads.read, hentry, Option.bind_some]
    rw [if_pos ⟨howner, hplayer, hreason⟩]
  | refused => cases hafter
  | @rewritten message infos entry hreads hcopy howner =>
    cases hafter
    have hentry : s.findLobby infos.lobbyId = some entry := hbefore
    have hother : infos.ownerId ≠ s.productUserId := fun heq ↦ hnot (if_pos heq)
    refine .inr (.inr (.inr ⟨?_, hreads.not_tellsGone⟩))
    simp only [newOwner, hreads.read, hentry, Option.bind_some]
    rw [if_pos ⟨hcopy, howner, hother⟩]
  | left hreads hhosting =>
    cases hafter
    exact absurd hhosting hnot
  | attributed hreads hhosting =>
    cases hafter
    exact absurd hhosting hnot
  | closed => cases hafter
  | expired => cases hafter

/-- What a turn makes of each lobby: one edit, and then the losses, none of which it misses. -/
theorem observes_turn {t : Turn Input} (h : turn s t = some s') (lobbyId : Bytes) :
    ∃ edited gone, (edited = s.lobbies[lobbyId]? ∨ ∃ i, t = .input i ∧
        EntryStep s i lobbyId s.lobbies[lobbyId]? edited) ∧
      (∀ peer ∈ gone, losesIn s t s' peer ∧ peer ≠ []) ∧
      (∀ peer ∈ s.mesh.peers, peer ∉ s'.mesh.peers → peer ≠ [] → peer ≠ s.productUserId →
        peer ∈ gone) ∧
      s'.lobbies[lobbyId]? = Lobby.outliving s.productUserId gone edited := by
  cases t with
  | drop peer =>
    obtain rfl := Option.some.inj h
    obtain ⟨gone, hgone, hall, hlookup⟩ := (lost_lose (D := fun _ ↦ False) s peer).observes lobbyId
    exact ⟨_, gone, .inl rfl, fun p hp ↦ ⟨.inl ((hgone p hp).1.resolve_left id), (hgone p hp).2.1⟩,
      fun p hin hout ↦ hall p (.inr ⟨hin, hout⟩), hlookup⟩
  | input i =>
    have hstep : step s i = some s' ∧ (i.moves = true → s.mesh.peers ⊆ s'.mesh.peers) := by
      cases i with
      | around peers known losses =>
        rw [turn] at h
        split at h
        · rename_i hall
          refine ⟨h, fun _ ↦ ?_⟩
          obtain rfl := Option.some.inj h
          exact fun p hp ↦ by simpa using List.all_eq_true.1 hall p hp
        · cases h
      | _ => exact ⟨h, nofun⟩
    obtain ⟨edited, gone, hedit, hgone, hall, hlookup⟩ :=
      (tableStep_of_step hstep.1).observes lobbyId
    refine ⟨edited, gone, .inr ⟨i, rfl, hedit⟩, fun p hp ↦ ?_, fun p hin hout ↦ ?_, hlookup⟩
    · exact (hgone p hp).imp (Or.elim · (fun htold ↦ .inr ⟨i, rfl, htold⟩) .inl) And.left
    · by_cases hmoves : i.moves = true
      · exact absurd (hstep.2 hmoves hin) hout
      · exact hall (by simpa using hmoves) p hin hout

/-- A lobby we are to be in, with an owner we reach or one that is well inherited, has one we reach
once the peers are gone. -/
theorem owner_mem_of_outliving {t : Turn Input} {gone : List Bytes} {edited entry' : Lobby}
    (hgone : ∀ peer ∈ gone, losesIn s t s' peer)
    (hall : ∀ peer ∈ s.mesh.peers, peer ∉ s'.mesh.peers → peer ≠ [] → peer ≠ s.productUserId →
      peer ∈ gone)
    (hnot : edited.localState ≠ .hosting)
    (howned : edited.localState = .joined → edited.infos.ownerId ∈ s.mesh.peers)
    (hinherited : losesIn s t s' edited.infos.ownerId → WellInherited s t s' edited)
    (h : Lobby.outliving s.productUserId gone (some edited) = some entry')
    (hjoined : entry'.localState = .joined) : entry'.infos.ownerId ∈ s'.mesh.peers := by
  have hheir (hin : edited.infos.ownerId ∈ gone) := (hinherited (hgone _ hin)).2.2
  rcases owner_of_outliving hnot (fun hin ↦ (hheir hin).imp_right
    (Or.imp_right fun hstays hin' ↦ hstays.2 (hgone _ hin'))) h hjoined with
    ⟨rfl, hout⟩ | ⟨hin, howner, hne, hself⟩
  · by_contra hlost
    have hin := howned hjoined
    obtain ⟨hne, hself, -⟩ := hinherited (.inl ⟨hin, hlost⟩)
    exact hout (hall _ hin hlost hne hself)
  · rw [howner] at hne hself ⊢
    exact (((hheir hin).resolve_left hne).resolve_left hself).1

/-- A lobby we leave is in the table no more. -/
theorem lookup_depart {o : LobbyIdOptions} (hid : o.lobbyId = some lobbyId) :
    (s.depart o).2 = s ∨ (s.depart o).2.lobbies[lobbyId]? = none := by
  unfold depart
  split
  · rename_i found user hfound huser
    obtain rfl : found = lobbyId := Option.some.inj (hfound.symm.trans hid)
    split
    · exact .inl rfl
    · refine .inr ?_
      dsimp only
      rw [eraseLobby, lookup_erase, if_pos rfl]
  · exact .inl rfl

/-- **A turn that keeps the owners leaves no orphan.** -/
theorem owned_turn {t : Turn Input} (h : Owned s) (hkeeps : s.keepsOwners t)
    (hturn : turn s t = some s') : Owned s' := by
  obtain ⟨hkept, hnew⟩ := hkeeps s' hturn
  intro lobbyId entry' hentry' hjoined
  by_cases hleaves : leaves lobbyId t
  · -- Either nothing happened, or the lobby is gone.
    have hdepart : ∃ o : LobbyIdOptions, o.lobbyId = some lobbyId ∧ s' = (s.depart o).2 := by
      unfold leaves at hleaves
      split at hleaves
      · exact ⟨_, hleaves, (Option.some.inj hturn).symm⟩
      · exact ⟨_, hleaves, (Option.some.inj hturn).symm⟩
      · exact hleaves.elim
    obtain ⟨o, hid, rfl⟩ := hdepart
    rcases lookup_depart (s := s) hid with hsame | hnone
    · rw [hsame] at hentry' ⊢
      exact h lobbyId entry' hentry' hjoined
    · rw [hnone] at hentry'
      cases hentry'
  · obtain ⟨edited, gone, hedit, hgone, hall, hlookup⟩ := observes_turn hturn lobbyId
    rw [hentry'] at hlookup
    rcases edited with _ | edited
    · rw [Lobby.outliving_none] at hlookup
      cases hlookup
    by_cases hhosting : edited.localState = .hosting
    · rw [hosting_of_outliving hhosting hlookup.symm] at hjoined
      cases hjoined
    have hsame (entry : Lobby) (hentry : s.lobbies[lobbyId]? = some entry)
        (hstate : entry.localState = edited.localState)
        (howner : edited.infos.ownerId = entry.infos.ownerId)
        (hheir : ∀ leaving, (edited.infos.dropMember leaving).heir leaving =
          (entry.infos.dropMember leaving).heir leaving) :
        entry'.infos.ownerId ∈ s'.mesh.peers := by
      refine owner_mem_of_outliving (fun p hp ↦ (hgone p hp).1) hall hhosting (fun hin ↦ ?_)
        (fun hlost ↦ ?_)
        hlookup.symm hjoined
      · rw [howner]
        exact h lobbyId entry hentry (hstate.trans hin)
      · rw [howner] at hlost
        have hwell := hkept lobbyId entry hentry (hstate ▸ hhosting) hleaves hlost
        rw [WellInherited] at hwell ⊢
        rw [howner, hheir]
        exact hwell
    rcases hedit with hedit | ⟨i, rfl, hedit⟩
    · exact hsame edited hedit.symm rfl rfl fun _ ↦ rfl
    rcases hedit.notHosting hhosting with ⟨entry, hentry, hstate, howner, hheir⟩ | hplaced |
      ⟨hnil, hjoining⟩ | ⟨howner, htold⟩
    · exact hsame entry hentry hstate howner hheir
    · obtain ⟨howned, hinherited⟩ := (hnew i rfl).1 edited hplaced
      exact owner_mem_of_outliving (fun p hp ↦ (hgone p hp).1) hall hhosting howned hinherited
        hlookup.symm hjoined
    · -- A lobby whose owner we do not know yet loses nobody, and we are not in it.
      rw [outliving_of_owner hhosting fun hin ↦ (hgone _ hin).2 hnil] at hlookup
      obtain rfl := Option.some.inj hlookup
      rw [hjoined] at hjoining
      cases hjoining
    · -- Whom a message names, it loses nobody.
      have hstays := (hnew i rfl).2 _ howner
      have hout : edited.infos.ownerId ∉ gone := fun hin ↦ (hgone _ hin).1.elim
        (fun hlost ↦ hlost.2 hstays) (fun ⟨i', hi, htold'⟩ ↦ htold _ (by cases hi; exact htold'))
      rw [outliving_of_owner hhosting hout] at hlookup
      obtain rfl := Option.some.inj hlookup
      exact hstays

theorem owned_fresh (self product : Bytes) : Owned (fresh self product) :=
  fun lobbyId entry hentry ↦ by
    rw [lookup_fresh] at hentry
    cases hentry

theorem owned_of_reaches {self product : Bytes}
    (h : Reaches turn keepsOwners (fresh self product) s) : Owned s :=
  h.invariant (owned_fresh self product) fun _ _ _ hs hkeeps hturn ↦ owned_turn hs hkeeps hturn

end Lobbies
end EosMesh
