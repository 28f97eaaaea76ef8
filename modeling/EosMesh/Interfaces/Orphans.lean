import EosMesh.Interfaces.Lobby.Orphans
import EosMesh.Interfaces.Sessions.Copies
import EosMesh.Interfaces.Sessions.Orphans

/-!
# Sessions and lobbies without an owner

What we joined is of use while we reach its owner.  When the owner goes, a lobby is closed or handed
to an heir; a session is left as it is, but for a player less.

* `no_orphans` says along which runs nothing we joined is left without an owner.
* `orphans_left` is a run of each interface that leaves an orphan: a session whose owner goes, and a
  lobby whose heir went before its owner.
-/

set_option autoImplicit false

namespace EosMesh

open Lib

/-- **No session and no lobby is orphaned** along the runs in which every turn keeps the owners. -/
theorem no_orphans (self product : Bytes) :
    (∀ s, Reaches Sessions.turn Sessions.keepsOwners (Sessions.fresh self product) s → s.Owned) ∧
    ∀ s, Reaches Lobbies.turn Lobbies.keepsOwners (Lobbies.fresh self product) s → s.Owned :=
  ⟨fun _ ↦ Sessions.owned_of_reaches, fun _ ↦ Lobbies.owned_of_reaches⟩

namespace Sessions

/-- The condition, evaluated. -/
def staysReached (s : Sessions) (t : Turn Input) : Bool :=
  (turn s t).all fun s' ↦
    (s.sessions.toList.all fun p ↦
      p.2.localState ≠ .joined ∨ p.2.infos.ownerId ∈ s'.mesh.peers) &&
    match t with
    | .input i => (s.newOwner i).all (· ∈ s'.mesh.peers)
    | .drop _ => true

theorem keepsOwners_of_staysReached {s : Sessions} {t : Turn Input} (h : s.staysReached t = true) :
    s.keepsOwners t := by
  intro s' hturn
  rw [staysReached, hturn, Option.all_some, Bool.and_eq_true, List.all_eq_true] at h
  obtain ⟨hall, hnew⟩ := h
  refine ⟨fun name entry hentry hjoined _ ↦ ?_, fun i owner hi howner ↦ ?_⟩
  · have hreached := hall (name, entry) ((mem_toList_iff_lookup _ _ _).2 hentry)
    exact (of_decide_eq_true hreached).resolve_left fun hnot ↦ hnot hjoined
  · subst hi
    dsimp only at hnew
    rw [howner] at hnew
    exact of_decide_eq_true hnew

end Sessions

namespace Lobbies

/-- The condition, evaluated, for turns in which no lobby is placed and no peer says it is gone. -/
def staysReached (s : Lobbies) (t : Turn Input) : Bool :=
  (turn s t).all fun s' ↦
    (s.lobbies.toList.all fun p ↦
      let owner := p.2.infos.ownerId
      let heir := (p.2.infos.dropMember owner).heir owner
      p.2.localState = .hosting ∨ owner ∉ s.mesh.peers ∨ owner ∈ s'.mesh.peers ∨
        (owner ≠ [] ∧ owner ≠ s.productUserId ∧
          (heir = [] ∨ heir = s.productUserId ∨ heir ∈ s'.mesh.peers))) &&
    match t with
    | .input i => (s.placed i).isNone && (s.newOwner i).all (· ∈ s'.mesh.peers) &&
        match i with
        | .receive message => message.typeTag ≠ MessageType.peerDisconnected.tag
        | _ => true
    | .drop _ => true

theorem keepsOwners_of_staysReached {s : Lobbies} {t : Turn Input} (h : s.staysReached t = true) :
    s.keepsOwners t := by
  intro s' hturn
  rw [staysReached, hturn, Option.all_some, Bool.and_eq_true, List.all_eq_true] at h
  obtain ⟨hall, hinput⟩ := h
  have hnone (peer : Bytes) : ¬ ∃ i, t = .input i ∧ i.tellsGone peer := by
    rintro ⟨_, rfl, message, rfl, htag, -⟩
    simp [htag] at hinput
  -- So a turn loses only peers that were reached and are reached no more.
  have hlost (peer : Bytes) : losesIn s t s' peer ↔ peer ∈ s.mesh.peers ∧ peer ∉ s'.mesh.peers :=
    or_iff_left (hnone peer)
  refine ⟨fun lobbyId entry hentry hjoined _ hloses ↦ ?_, fun i hi ↦ ⟨fun entry hplaced ↦ ?_,
    fun owner howner ↦ ?_⟩⟩
  · have hkept := of_decide_eq_true (hall (lobbyId, entry) ((mem_toList_iff_lookup _ _ _).2 hentry))
    obtain ⟨hwas, hgone⟩ := (hlost _).1 hloses
    rcases hkept with hhosting | hnot | hthere | ⟨hne, hother, hheir⟩
    · exact absurd hhosting hjoined
    · exact absurd hwas hnot
    · exact absurd hthere hgone
    · refine ⟨hne, hother, hheir.imp_right (Or.imp_right fun hthere ↦ ⟨hthere, ?_⟩)⟩
      rw [hlost]
      exact fun hout ↦ hout.2 hthere
  · subst hi
    simp [hplaced] at hinput
  · subst hi
    simp only [howner, Option.all_some, Bool.and_eq_true, decide_eq_true_eq] at hinput
    exact hinput.1.2

/-- `[4]` joins the lobby of `[2]`, of which `[3]` is a member. -/
def joiningFour : List Input :=
  [.around [[2], [3]] [[2], [3]] [],
    .call (.joinLobbyById { lobbyId := some [7], localUserId := some [4] } 0 100),
    .receive (envelope { productUserId := [2], productId := [9] } [4]
      (.joinResponse { lobbyId := [7], playerId := [4], reason := 0 })),
    .receive (envelope { productUserId := [2], productId := [9] } [4]
      (.infos { lobbyId := [7], ownerId := [2], maxMembers := 4, allowHostMigration := true
                members := [{ userId := [2] }, { userId := [3] }, { userId := [4] }] }))]

end Lobbies

/-- `[1]` joins the session of `[2]`, and stays in it; and `[4]` the lobby of `[2]`, which `[3]`
inherits when `[2]` goes. -/
theorem no_orphans_inherited :
    (∃ s : Sessions, s.Owned ∧ (s.sessions.toList.map fun p ↦ p.2.localState) = [.joined]) ∧
      ∃ s : Lobbies, s.Owned ∧
        (s.lobbies.toList.map fun p ↦ (p.2.localState, p.2.infos.ownerId)) = [(.joined, [3])] := by
  constructor
  · obtain ⟨s, h, hjoined⟩ := exists_reaches Sessions.turn (fun s t ↦ s.staysReached t = true)
      (Sessions.fresh [1] [9])
      (fun s ↦ (s.sessions.toList.map fun p ↦ p.2.localState) = [.joined])
      (Sessions.joiningTwo.map .input) (by decide +kernel) (by decide +kernel)
    exact ⟨s, (no_orphans [1] [9]).1 s
      (h.mono fun _ _ ↦ Sessions.keepsOwners_of_staysReached), hjoined⟩
  · obtain ⟨s, h, hinherited⟩ := exists_reaches Lobbies.turn (fun s t ↦ s.staysReached t = true)
      (Lobbies.fresh [4] [9])
      (fun s ↦ (s.lobbies.toList.map fun p ↦ (p.2.localState, p.2.infos.ownerId)) =
        [(.joined, [3])])
      (Lobbies.joiningFour.map .input ++ [.drop [2]]) (by decide +kernel) (by decide +kernel)
    exact ⟨s, (no_orphans [4] [9]).2 s
      (h.mono fun _ _ ↦ Lobbies.keepsOwners_of_staysReached), hinherited⟩

/-- The owner of a session leaves; and of a lobby, an heir leaves, and then the owner. -/
theorem orphans_left :
    (∃ s, Reaches Sessions.turn always (Sessions.fresh [1] [9]) s ∧ ¬ s.Owned) ∧
      ∃ s, Reaches Lobbies.turn always (Lobbies.fresh [4] [9]) s ∧ ¬ s.Owned := by
  constructor
  · obtain ⟨s, h, horphan⟩ := exists_reaches Sessions.turn always (Sessions.fresh [1] [9])
      (fun s ↦ ((s.sessions[([5] : Bytes)]?).any fun entry : Session ↦
        entry.localState = .joined ∧ entry.infos.ownerId ∉ s.mesh.peers) = true)
      (Sessions.joiningTwo.map .input ++ [.drop [2]]) (by decide +kernel) (meets_always _ _)
    obtain ⟨entry, hentry, horphan⟩ := (Option.any_eq_true _ _).1 horphan
    obtain ⟨hjoined, howner⟩ := of_decide_eq_true horphan
    exact ⟨s, h, fun howned ↦ howner (howned [5] entry hentry hjoined)⟩
  · obtain ⟨s, h, horphan⟩ := exists_reaches Lobbies.turn always (Lobbies.fresh [4] [9])
      (fun s ↦ ((s.lobbies[([7] : Bytes)]?).any fun entry : Lobby ↦
        entry.localState = .joined ∧ entry.infos.ownerId ∉ s.mesh.peers) = true)
      (Lobbies.joiningFour.map .input ++ [.drop [3], .drop [2]]) (by decide +kernel)
      (meets_always _ _)
    obtain ⟨entry, hentry, horphan⟩ := (Option.any_eq_true _ _).1 horphan
    obtain ⟨hjoined, howner⟩ := of_decide_eq_true horphan
    exact ⟨s, h, fun howned ↦ howner (howned [7] entry hentry hjoined)⟩

end EosMesh
