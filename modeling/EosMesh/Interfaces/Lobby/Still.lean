import EosMesh.Interfaces.Lobby.Steps

/-!
# What the steps about lobbies leave alone

The calls about a lobby and the messages about one write the table and the joins that wait, and
send.  They have nothing to do with the searches, with what is staged, or with the handles given
out.

* `Lobbies.still` is what none of them changes: the state without the table, the mesh and the joins.
* A loss under a send touches the table and the mesh only, so a send is one of these steps as well,
  and a call or a handler is a write or two with sends in between.
* `still_receive` sorts the messages: only an answer to a search is no message about a lobby.

It is the frame lemma for what is said of handles and of searches, in `Interfaces.Lobby.Drafts` and
`Interfaces.Lobby.Searches`; what these steps do change is `Interfaces.Lobby.Steps`.
-/

set_option autoImplicit false

namespace EosMesh

open Lib
open Std (TreeMap)

namespace Lobbies

variable {s s' : Lobbies}

/-- What no step about a lobby changes. -/
def still (s : Lobbies) : Lobbies := { s with lobbies := {}, mesh := {}, pendingJoins := {} }

theorem Lost.still_eq {D : Bytes → Prop} (h : Lost D s s') : s'.still = s.still := by
  rw [h.rest]
  rfl

theorem modifications_of_still (h : s'.still = s.still) : s'.modifications = s.modifications := by
  show s'.still.modifications = s.still.modifications
  rw [h]

/-! ## Writing and sending -/

@[simp] theorem still_setLobby (lobbyId : Bytes) (entry : Lobby) :
    (s.setLobby lobbyId entry).still = s.still := rfl

@[simp] theorem still_eraseLobby (lobbyId : Bytes) : (s.eraseLobby lobbyId).still = s.still := rfl

@[simp] theorem still_awaitVerdict (lobbyId : Bytes) (entry : Lobby) (now : Nat)
    (address : ResultAddress) : (s.awaitVerdict lobbyId entry now address).still = s.still := rfl

@[simp] theorem still_sendTo (peer : Bytes) (message : LobbyMessage) :
    (s.sendTo peer message).still = s.still :=
  (lost_sendTo (D := fun _ ↦ False) s peer message).still_eq

@[simp] theorem still_broadcastLobby (lobbyId : Bytes) :
    (s.broadcastLobby lobbyId).still = s.still :=
  (lost_broadcastLobby (D := fun _ ↦ False) s lobbyId).still_eq

@[simp] theorem still_broadcastToMembers (lobbyId : Bytes) (message : LobbyMessage)
    (except : Bytes) : (s.broadcastToMembers lobbyId message except).still = s.still :=
  (lost_broadcastToMembers (D := fun _ ↦ False) s lobbyId message except).still_eq

@[simp] theorem still_foldl_sendTo (message : LobbyMessage) (peers : List Bytes) :
    (peers.foldl (fun s peer ↦ s.sendTo peer message) s).still = s.still :=
  (lost_foldl_sendTo (D := fun _ ↦ False) s message peers).still_eq

/-! ## Calls -/

theorem still_createLobby (o : CreateLobbyOptions) (random : Option Bytes) :
    (s.createLobby o random).2.still = s.still := by
  rw [createLobby]
  split
  · rfl
  · split
    · rfl
    · dsimp only
      split
      · rfl
      · split <;> rfl

theorem still_depart (o : LobbyIdOptions) : (s.depart o).2.still = s.still := by
  rw [depart]
  split
  · split
    · rfl
    · dsimp only
      split
      · rw [closeHostedLobby]
        dsimp only
        split <;> simp
      · simp
  · rfl

theorem still_updateLobby (o : UpdateLobbyOptions) : (s.updateLobby o).2.still = s.still := by
  rw [updateLobby]
  split
  · rfl
  · split
    · rfl
    · split
      · rfl
      · dsimp only
        split <;> simp

theorem still_promoteMember (o : LobbyMemberOptions) : (s.promoteMember o).2.still = s.still := by
  rw [promoteMember]
  split
  · split
    · rfl
    · split
      · rfl
      · split <;> simp
  · rfl

theorem still_kickMember (o : LobbyMemberOptions) : (s.kickMember o).2.still = s.still := by
  rw [kickMember]
  split
  · split
    · rfl
    · split
      · rfl
      · split <;> simp
  · rfl

theorem still_joinLobby (o : JoinLobbyOptions) (now : Nat) (address : ResultAddress) :
    (s.joinLobby o now address).2.still = s.still := by
  rw [joinLobby]
  split
  · dsimp only
    split
    · rfl
    · split <;> simp
  · rfl

theorem still_joinLobbyById (o : LobbyIdOptions) (now : Nat) (address : ResultAddress) :
    (s.joinLobbyById o now address).2.still = s.still := by
  rw [joinLobbyById]
  split
  · split <;> simp
  · rfl

/-- The calls about a lobby. -/
def Call.aboutLobby : Call → Bool
  | .createLobby _ _ => true
  | .destroyLobby _ => true
  | .leaveLobby _ => true
  | .updateLobby _ => true
  | .promoteMember _ => true
  | .kickMember _ => true
  | .joinLobby _ _ _ => true
  | .joinLobbyById _ _ _ => true
  | _ => false

theorem still_call {c : Call} (h : c.aboutLobby = true) : (s.call c).still = s.still := by
  cases c with
  | createLobby o random => exact still_createLobby o random
  | destroyLobby o => exact still_depart o
  | leaveLobby o => exact still_depart o
  | updateLobby o => exact still_updateLobby o
  | promoteMember o => exact still_promoteMember o
  | kickMember o => exact still_kickMember o
  | joinLobby o now address => exact still_joinLobby o now address
  | joinLobbyById o now address => exact still_joinLobbyById o now address
  | _ => cases h

/-! ## Messages -/

theorem still_onJoinRequest (source : Bytes) (request : LobbyJoinRequest) :
    (s.onJoinRequest source request).still = s.still := by
  rw [onJoinRequest]
  split
  · rfl
  · split
    · rfl
    · dsimp only
      split <;> simp

theorem still_onJoinResponse (source : Bytes) (answer : LobbyJoinResponse) :
    (s.onJoinResponse source answer).still = s.still := by
  rw [onJoinResponse]
  split
  · rfl
  · split
    · rfl
    · split
      · rfl
      · split
        · rfl
        · dsimp only
          split
          · rfl
          · split <;> rfl

theorem still_onInfos (source : Bytes) (infos : LobbyInfos) :
    (s.onInfos source infos).still = s.still := by
  rw [onInfos]
  split
  · rfl
  · split <;> rfl

theorem still_onLeave (source : Bytes) (notice : LobbyMemberUpdate) :
    (s.onLeave source notice).still = s.still := by
  rw [onLeave]
  split
  · rfl
  · split <;> simp

theorem still_onMemberUpdate (source : Bytes) (notice : LobbyMemberUpdate) :
    (s.onMemberUpdate source notice).still = s.still := by
  rw [onMemberUpdate]
  split
  · rfl
  · split <;> simp

theorem still_onDestroy (source : Bytes) (notice : LobbyDestroy) :
    (s.onDestroy source notice).still = s.still := by
  rw [onDestroy]
  split
  · rfl
  · split <;> rfl

/-- Only an answer to a search is no message about a lobby. -/
theorem still_receive (message : NetEnvelope) :
    (s.onNetworkMessage message).still = s.still ∨
      ∃ answer, Reads s message (.searchResponse answer) ∧
        s.onNetworkMessage message = s.onSearchResponse message.sourceId answer := by
  rw [onNetworkMessage]
  split
  · exact .inl rfl
  · rename_i hsource
    rw [not_or] at hsource
    split
    · exact .inl (lost_onPeerDisconnectedWith (D := fun _ ↦ True) lost_lose trivial).still_eq
    · split
      · exact .inl rfl
      · rename_i hgame
        split
        · exact .inl rfl
        · rename_i msg hread
          have hreads : Reads s message msg := ⟨hsource.1, hsource.2, by simpa using hgame, hread⟩
          cases msg with
          | search query => exact .inl (still_sendTo _ _)
          | searchResponse answer => exact .inr ⟨answer, hreads, rfl⟩
          | joinRequest request => exact .inl (still_onJoinRequest _ request)
          | joinResponse answer => exact .inl (still_onJoinResponse _ answer)
          | infos infos => exact .inl (still_onInfos _ infos)
          | leave notice => exact .inl (still_onLeave _ notice)
          | memberUpdate notice => exact .inl (still_onMemberUpdate _ notice)
          | destroy notice => exact .inl (still_onDestroy _ notice)

end Lobbies
end EosMesh
