import EosMesh.Lib.Network
import EosMesh.Interfaces.Lobby.SeatSteps

/-!
# The lobbies of a whole mesh

Every peer runs the lobby interface, and what one sends another arrives in the order it was sent, if
the connection does not break before.  The calls of the games, the ticks, what the router loses and
when it hears what are left to the run.

* `Lobbies.program` is one peer: a message travels as the envelope it is put in, and is read back
  from its bytes, which a reader may refuse.
* `hosted_lobbies_seated`: each lobby is as its host should keep it, wherever it was handed on to.
* `members_asked`: nobody is in a lobby anywhere without having asked to be.
-/

set_option autoImplicit false

namespace EosMesh

open Lib

namespace LobbyInfos

variable {terms : SeatTerms} {infos infos' : LobbyInfos}

theorem Survives.roster (h : infos.Survives infos') : infos'.roster = infos.roster := h.members

/-- What a lobby is held to, it is held to where it arrives. -/
theorem Survives.fits (h : infos.Survives infos') (hfits : infos.Fits terms) : infos'.Fits terms :=
  hfits.of_sublist (by rw [h.roster]) h.maxMembers h.lobbyId

theorem Survives.counts (h : infos.Survives infos') (hcounts : infos.Counts) : infos'.Counts := by
  have hlength := congrArg List.length h.roster
  rw [length_roster, length_roster] at hlength
  rw [Counts, openSlotsOf] at hcounts ⊢
  rw [h.availableSlots, h.maxMembers, hlength, hcounts]

end LobbyInfos

namespace Lobbies

variable {terms : SeatTerms} {s s' : Lobbies} {lobbyId : Bytes}

/-! ## Reading -/

/-- A message that is read is as fair as it was when it was sent. -/
theorem Fair.read {source dest : Bytes} {msg msg' : LobbyMessage} (h : Fair terms source dest msg)
    (hshort : Short msg.payload) (hread : LobbyMessage.read msg.type.tag msg.payload = some msg') :
    Fair terms source dest msg' := by
  have hrun {α : Type} {reader : ByteReader α} {bytes : Bytes} {P : α → Prop}
      (hdecodes : DecodesTo reader bytes P) {r : α × Bytes} (hr : reader.run bytes = some r) :
      P r.1 :=
    (hdecodes [] r.1 r.2 (by rw [List.append_nil]; exact hr)).1
  cases msg with
  | infos infos =>
    obtain ⟨r, hr, rfl⟩ := Option.map_eq_some_iff.1 hread
    have hsurvives := hrun (LobbyInfos.decodesTo hshort) hr
    exact ⟨hsurvives.fits h.1, hsurvives.counts h.2.1, hsurvives.roster ▸ h.2.2⟩
  | searchResponse answer =>
    obtain ⟨r, hr, rfl⟩ := Option.map_eq_some_iff.1 hread
    have hall := hrun (LobbySearchResponse.decodesTo hshort) hr
    intro infos hinfos
    obtain ⟨i, hi, rfl⟩ := List.mem_iff_getElem.1 hinfos
    have hi' : i < answer.lobbies.length := hall.length_eq ▸ hi
    exact (hall.get hi' hi).fits (h _ (List.getElem_mem hi'))
  | joinRequest request =>
    obtain ⟨r, hr, rfl⟩ := Option.map_eq_some_iff.1 hread
    have hid := hrun (LobbyJoinRequest.decodesTo hshort) hr
    show terms.Asked source r.1.lobbyId
    rw [hid]
    exact h
  | search | joinResponse | leave | memberUpdate | destroy =>
    obtain ⟨r, hr, rfl⟩ := Option.map_eq_some_iff.1 hread
    trivial

/-! ## The network -/

/-- An input of the instance's own; the one message among them is the router's, of a peer gone. -/
def Input.isLocal : Input → Bool
  | .receive message => message.typeTag = MessageType.peerDisconnected.tag
  | _ => true

/-- One peer.  Nobody is without an id, and the router takes no message longer than its bound. -/
def program : Program Bytes Lobbies Input NetEnvelope where
  step s i := if s.productUserId ≠ [] ∧ i.isLocal then s.step i else none
  hear s _ message :=
    if s.productUserId ≠ [] ∧ message.payload.length ≤ maxMessageSize then s.step (.receive message)
    else none
  outbox s := s.mesh.sent.map fun p ↦ (p.1, s.envelope p.1 p.2)
  emptied s := { s with mesh := { s.mesh with sent := [] } }

/-- Every peer at its start, each of some game. -/
def meshOf (product : Bytes → Bytes) : Network Bytes Lobbies NetEnvelope where
  party name := fresh name (product name)
  link _ _ := []

/-- A node of the network does something. -/
abbrev meshStep : Network Bytes Lobbies NetEnvelope → Network.Event Bytes Input →
    Option (Network Bytes Lobbies NetEnvelope) := Network.step program

/-- The condition on a step of the mesh: a game calls for the user it runs for. -/
def callsOwn : Network.Event Bytes Input → Bool
  | .act name i => i.usesOwnId name
  | _ => true

/-- The condition on a step of the mesh: whoever owns a lobby keeps room in it. -/
def allKeepRoom (net : Network Bytes Lobbies NetEnvelope) : Network.Event Bytes Input → Bool
  | .act name i => (net.party name).keepsRoom i
  | _ => true

/-- The user asks to be in the lobby. -/
def isAsked (pair : Bytes × Bytes) (net : Network Bytes Lobbies NetEnvelope)
    (e : Network.Event Bytes Input) : Prop :=
  ∃ i, e = .act pair.1 i ∧ (net.party pair.1).asksFor i = some pair.2

/-- What a step of the mesh is held to. -/
structure Held (terms : SeatTerms) (net : Network Bytes Lobbies NetEnvelope)
    (e : Network.Event Bytes Input) : Prop where
  own : callsOwn e = true
  room : terms.Roomy → allKeepRoom net e = true
  asked : ∀ pair, isAsked pair net e → terms.Asked pair.1 pair.2

/-- Every peer is in order, under its own name. -/
structure InPlace (terms : SeatTerms) (name : Bytes) (s : Lobbies) : Prop where
  named : s.productUserId = name
  orderly : Orderly terms s

/-- An envelope of its source, with a fair message. -/
structure FairLetter (terms : SeatTerms) (source dest : Bytes) (message : NetEnvelope) : Prop where
  sender : message.sourceId = source
  said : ∃ msg : LobbyMessage, message.typeTag = msg.type.tag ∧ message.payload = msg.payload ∧
    Fair terms source dest msg

/-- Once what was sent is on its way. -/
theorem InPlace.posted {name : Bytes} (h : InPlace terms name s) :
    InPlace terms name (program.emptied s) ∧
      ∀ letter ∈ program.outbox s, FairLetter terms name letter.1 letter.2 := by
  obtain ⟨rfl, hdecent, hlisted, hhoused⟩ := h
  refine ⟨⟨rfl, ⟨hdecent.fits, fun letter hletter ↦ by cases hletter⟩,
    ⟨hlisted.results, hlisted.details⟩, hhoused⟩, fun letter hletter ↦ ?_⟩
  obtain ⟨p, hp, rfl⟩ := List.mem_map.1 hletter
  exact ⟨rfl, p.2, rfl, rfl, hdecent.fair p hp⟩

theorem inPlace_act {net : Network Bytes Lobbies NetEnvelope} {name : Bytes} {i : Input}
    (hheld : Held terms net (.act name i)) (h : InPlace terms name (net.party name))
    (hstep : program.step (net.party name) i = some s') : InPlace terms name s' := by
  obtain ⟨hname, horderly⟩ := h
  dsimp only [program] at hstep
  split at hstep
  · rename_i hmay
    refine ⟨(tableStep_of_step hstep).self.trans hname, horderly.step hmay.1 ?_ hheld.room
      (fun lobbyId hasks ↦ ?_) (fun message msg hi hreads ↦ ?_) hstep⟩
    · rw [hname]
      exact hheld.own
    · rw [hname]
      exact hheld.asked (name, lobbyId) ⟨i, rfl, hasks⟩
    · -- The router's own message is none of the interface's.
      subst hi
      have htag : message.typeTag = MessageType.peerDisconnected.tag :=
        of_decide_eq_true hmay.2
      have hnone : LobbyMessage.read MessageType.peerDisconnected.tag message.payload = none := by
        simp [LobbyMessage.read, MessageType.tag]
      rw [← htag, hreads.read] at hnone
      cases hnone
  · cases hstep

theorem inPlace_hear {name source : Bytes} {message : NetEnvelope} (h : InPlace terms name s)
    (hletter : FairLetter terms source name message)
    (hstep : program.hear s source message = some s') : InPlace terms name s' := by
  obtain ⟨hname, horderly⟩ := h
  dsimp only [program] at hstep
  split at hstep
  · rename_i hmay
    refine ⟨(tableStep_of_step hstep).self.trans hname, horderly.step hmay.1 rfl (fun _ ↦ rfl)
      (fun lobbyId hasks ↦ by cases hasks) (fun message' msg' hi hreads ↦ ?_) hstep⟩
    cases hi
    obtain ⟨hsource, msg, htag, hpayload, hfair⟩ := hletter
    rw [hsource, hname]
    refine hfair.read ?_ (htag ▸ hpayload ▸ hreads.read)
    rw [← hpayload]
    exact lt_of_le_of_lt hmay.2 (by decide)
  · cases hstep

theorem inPlace_fresh (name product : Bytes) : InPlace terms name (fresh name product) where
  named := rfl
  orderly := by
    refine ⟨⟨fun lobbyId entry hentry ↦ ?_, fun letter hletter ↦ by cases hletter⟩,
      ⟨.empty, .empty⟩, fun lobbyId entry hentry ↦ ?_⟩
    · rw [lookup_fresh] at hentry
      cases hentry
    · rw [lookup_fresh] at hentry
      cases hentry

/-- **Order holds in every run of the mesh.** -/
theorem sound_of_reaches {product : Bytes → Bytes} {net : Network Bytes Lobbies NetEnvelope}
    (h : Reaches meshStep (Held terms) (meshOf product) net) :
    net.Sound (InPlace terms) (FairLetter terms) := by
  have hact (net : Network Bytes Lobbies NetEnvelope) (name : Bytes) (i : Input) (s' : Lobbies)
      (hheld : Held terms net (.act name i)) (hI : InPlace terms name (net.party name))
      (hstep : program.step (net.party name) i = some s') := (inPlace_act hheld hI hstep).posted
  refine h.invariant ⟨fun name ↦ inPlace_fresh name _, fun _ _ letter hletter ↦ by cases hletter⟩
    fun _ _ _ hsound hheld hstep ↦ hsound.step hact (fun name s source letter s' ↦ ?_) hheld hstep
  exact fun hI hletter hhear ↦ (inPlace_hear hI hletter hhear).posted

/-- **A hosted lobby has its host in it, nobody twice, no more members than there is room for, and
as many slots left as it says**: in every run of the mesh in which the games call for their own
users and owners lower no maximum below the number of members, however the lobbies are handed on,
and whatever is lost, late or cut off. -/
theorem hosted_lobbies_seated {product : Bytes → Bytes}
    {net : Network Bytes Lobbies NetEnvelope}
    (h : Reaches meshStep (fun net e ↦ callsOwn e = true ∧ allKeepRoom net e = true)
      (meshOf product) net)
    {name lobbyId : Bytes} {entry : Lobby} (hentry : (net.party name).hosted lobbyId = some entry) :
    entry.infos.Seated := by
  have hheld : Reaches meshStep (Held ⟨fun _ _ ↦ True, True⟩) (meshOf product) net :=
    h.mono fun _ _ hguard ↦ ⟨hguard.1, fun _ ↦ hguard.2, fun _ _ ↦ trivial⟩
  obtain ⟨-, horderly⟩ := (sound_of_reaches hheld).party name
  obtain ⟨hlookup, hhosting⟩ := hosted_eq_some.1 hentry
  obtain ⟨hfits, -, hcounts⟩ := horderly.decent.fits lobbyId entry hlookup
  obtain ⟨howner, hin⟩ := (horderly.housed lobbyId entry hlookup).host hhosting
  exact hfits.seated trivial (howner ▸ hin) (hcounts hhosting)

/-- `[1]` opens a lobby, `[2]` joins it by its id, and `[1]` leaves. -/
def handedOn : List (Network.Event Bytes Input) :=
  [.act [1] (.around [[2]] [[2]] []), .act [2] (.around [[1]] [[1]] []),
    .act [1] (.call (openLobby [1] [5] 2)),
    .act [2] (.call (.joinLobbyById { lobbyId := some [5], localUserId := some [2] } 0 0)),
    .deliver [2] [1], .deliver [1] [2], .deliver [1] [2],
    .act [1] (.call (.leaveLobby { lobbyId := some [5], localUserId := some [1] })),
    .deliver [1] [2]]

/-- `[2]` hosts it then. -/
theorem hosted_lobbies_seated_handedOn : ∃ net entry,
    Reaches meshStep (fun net e ↦ callsOwn e = true ∧ allKeepRoom net e = true)
      (meshOf fun _ ↦ [9]) net ∧
    (net.party [2]).hosted [5] = some entry ∧ entry.infos.Seated := by
  obtain ⟨net, h, hhosted⟩ := exists_reaches meshStep
    (fun net e ↦ callsOwn e = true ∧ allKeepRoom net e = true) (meshOf fun _ ↦ [9])
    (fun net ↦ ((net.party [2]).hosted [5]).isSome = true) handedOn
    (by decide +kernel) (by decide +kernel)
  obtain ⟨entry, hentry⟩ := Option.isSome_iff_exists.1 hhosted
  exact ⟨net, entry, h, hentry, hosted_lobbies_seated h hentry⟩

/-- **Nobody is in a lobby who did not ask to be**: whoever is a member of a lobby anywhere created
one of that id, or asked to join it, at some step of the run. -/
theorem members_asked {product : Bytes → Bytes} {net : Network Bytes Lobbies NetEnvelope}
    {events : List (Network.Event Bytes Input)}
    (h : runInputs meshStep (meshOf product) events = some net)
    (hown : meets meshStep (fun _ e ↦ callsOwn e = true) (meshOf product) events)
    {name lobbyId member : Bytes} {entry : Lobby}
    (hentry : (net.party name).findLobby lobbyId = some entry)
    (hmember : member ∈ entry.infos.roster) :
    happens meshStep (isAsked (member, lobbyId)) (meshOf product) events := by
  have hheld : meets meshStep (Held
      ⟨fun user id ↦ happens meshStep (isAsked (user, id)) (meshOf product) events, False⟩)
      (meshOf product) events :=
    (hown.and (meets_of_happens fun _ ↦ id)).mono fun _ _ hboth ↦
      ⟨hboth.1, False.elim, fun pair hasked ↦ hboth.2 pair hasked⟩
  obtain ⟨-, horderly⟩ := (sound_of_reaches (reaches_of_runInputs h hheld)).party name
  obtain ⟨hfits, hnamed, -⟩ := horderly.decent.fits lobbyId entry hentry
  exact hnamed ▸ hfits.asked member hmember

/-- `[2]` is in the lobby it was handed, and asked to be. -/
theorem members_asked_handedOn : ∃ net entry,
    runInputs meshStep (meshOf fun _ ↦ [9]) handedOn = some net ∧
    (net.party [2]).findLobby [5] = some entry ∧ [2] ∈ entry.infos.roster ∧
    happens meshStep (isAsked ([2], [5])) (meshOf fun _ ↦ [9]) handedOn := by
  obtain ⟨net, h, hin⟩ := exists_runInputs meshStep (meshOf fun _ ↦ [9])
    (fun net ↦ ((net.party [2]).findLobby [5]).any (fun entry ↦ [2] ∈ entry.infos.roster) = true)
    handedOn (by decide +kernel)
  obtain ⟨entry, hentry, hmember⟩ := (Option.any_eq_true _ _).1 hin
  exact ⟨net, entry, h, hentry, of_decide_eq_true hmember,
    members_asked h (by decide +kernel) hentry (of_decide_eq_true hmember)⟩

end Lobbies
end EosMesh
