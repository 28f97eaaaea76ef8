import EosMesh.Interfaces.Lobby.Steps

/-!
# Who hosts a lobby

Whether we host a lobby is kept beside the owner it records, and the two are changed separately: by
creating, promoting and joining, by what the owner sends, and by losing it.

* `hosting_iff_owned` says when they never come apart, whatever the peers send and in whatever order
  they are lost: as long as we do not promote ourselves.
-/

set_option autoImplicit false

namespace EosMesh

open Lib
open Std (TreeMap)

namespace Lobbies

variable {s s' : Lobbies} {i : Input} {lobbyId : Bytes}

/-! ## What a game may ask for -/

/-- The user a call is made for is ourselves. -/
def Call.usesOwnId (self : Bytes) : Call → Bool
  | .createLobby o _ => o.localUserId.all (· = self)
  | .destroyLobby o => o.localUserId.all (· = self)
  | .leaveLobby o => o.localUserId.all (· = self)
  | .updateLobbyModification o => o.localUserId.all (· = self)
  | .promoteMember o => o.localUserId.all (· = self)
  | .kickMember o => o.localUserId.all (· = self)
  | .joinLobby o _ _ => o.localUserId.all (· = self)
  | .joinLobbyById o _ _ => o.localUserId.all (· = self)
  | .searchFind _ localUserId _ _ => localUserId.all (· = self)
  | _ => true

/-- Whatever a game asks for in a step, it asks for as ourselves. -/
def Input.usesOwnId (self : Bytes) : Input → Bool
  | .call c => c.usesOwnId self
  | _ => true

/-- The lobby we host under an id. -/
def hosted (s : Lobbies) (lobbyId : Bytes) : Option Lobby :=
  (s.findLobby lobbyId).filter (·.localState = .hosting)

theorem hosted_eq_some {entry : Lobby} : s.hosted lobbyId = some entry ↔
    s.lobbies[lobbyId]? = some entry ∧ entry.localState = .hosting := by
  simp [hosted, findLobby]

/-- The condition on a step: a lobby we host is not promoted to ourselves. -/
def promotesAnother (s : Lobbies) : Input → Bool
  | .call (.promoteMember o) =>
    (o.lobbyId.bind s.hosted).all fun entry ↦
      o.targetUserId ≠ some s.productUserId ∨ s.productUserId ∉ entry.infos.roster
  | _ => true

theorem findMember_isSome {infos : LobbyInfos} {userId : Bytes} :
    (infos.findMember userId).isSome = true ↔ userId ∈ infos.roster := by
  simp [LobbyInfos.findMember, LobbyInfos.roster]

/-! ## The invariant -/

/-- A lobby that is not still joining is hosted exactly when we own it. -/
def Matched (self : Bytes) (entry : Lobby) : Prop :=
  entry.localState ≠ .joining → (entry.localState = .hosting ↔ entry.infos.ownerId = self)

/-- Losing a peer keeps it: who inherits a lobby hosts it. -/
theorem Matched.bereaved {self peer : Bytes} {entry entry' : Lobby}
    (h : Lobby.bereaved self peer entry = some entry') (hI : Matched self entry) :
    Matched self entry' := by
  rw [Lobby.bereaved] at h
  dsimp only at h
  split at h
  · split at h
    · cases h
    · obtain rfl := Option.some.inj h
      intro _
      by_cases hheir : (entry.infos.dropMember peer).heir peer = self <;> simp [hheir]
  · split at h
    · obtain rfl := Option.some.inj h
      exact hI
    · obtain rfl := Option.some.inj h
      exact hI

/-- What a step makes of one entry, before it loses anyone. -/
theorem Matched.entryStep {before : Option Lobby} {entry' : Lobby}
    (hI : ∀ entry, before = some entry → Matched s.productUserId entry)
    (hbefore : s.lobbies[lobbyId]? = before) (hown : i.usesOwnId s.productUserId = true)
    (hother : s.promotesAnother i = true) (h : EntryStep s i lobbyId before (some entry')) :
    Matched s.productUserId entry' := by
  generalize hafter : some entry' = after at h
  cases h with
  | same => exact hI _ hafter.symm
  | @created o random localUser huser hmax hne =>
    cases hafter
    have hself : localUser = s.productUserId := by
      simpa [Input.usesOwnId, Call.usesOwnId, huser] using hown
    exact fun _ ↦ by simp [created, hself]
  | departed => cases hafter
  | @modified o object entry hobject =>
    cases hafter
    have hentry := hI entry rfl
    have howner : (Lobby.modified entry s.productUserId object).infos.ownerId =
        entry.infos.ownerId := by
      rw [Lobby.modified]
      by_cases hmine : entry.infos.ownerId = s.productUserId <;> simp [hmine]
    rw [Matched, howner]
    exact hentry
  | @promoted o lobbyId target entry hid htarget hhosting hmember =>
    cases hafter
    -- Promoting ourselves would leave a lobby we own, and do not host.
    have hne : target ≠ s.productUserId := fun heq ↦ by
      subst heq
      simp only [promotesAnother, hid, Option.bind_some, hosted_eq_some.2 ⟨hbefore, hhosting⟩,
        Option.all_some, htarget] at hother
      simp [← findMember_isSome, hmember] at hother
    exact fun _ ↦ by simp [hne]
  | @kicked o lobbyId target entry =>
    cases hafter
    exact hI entry rfl
  | joining =>
    cases hafter
    exact fun hjoining ↦ absurd rfl hjoining
  | joiningById =>
    cases hafter
    exact fun hjoining ↦ absurd rfl hjoining
  | @admitted message request entry =>
    cases hafter
    exact hI entry rfl
  | accepted hreads =>
    cases hafter
    exact fun _ ↦ by simp [hreads.other]
  | refused => cases hafter
  | @rewritten message infos entry hreads hcopy howner =>
    cases hafter
    intro _
    by_cases hmine : infos.ownerId = s.productUserId <;> simp [hmine]
  | @left message notice entry =>
    cases hafter
    exact hI entry rfl
  | @attributed message notice entry =>
    cases hafter
    exact hI entry rfl
  | closed => cases hafter
  | expired => cases hafter

/-- Every lobby of an instance is. -/
def AllMatched (s : Lobbies) : Prop :=
  ∀ (lobbyId : Bytes) (entry : Lobby), s.lobbies[lobbyId]? = some entry →
    Matched s.productUserId entry

theorem AllMatched.step (hI : AllMatched s) (hown : i.usesOwnId s.productUserId = true)
    (hother : s.promotesAnother i = true) (h : step s i = some s') : AllMatched s' := by
  intro lobbyId entry hentry
  have htable := tableStep_of_step h
  obtain ⟨edited, gone, hedit, -, hlookup⟩ := htable.entries lobbyId
  rw [hlookup] at hentry
  rw [htable.self]
  refine Lobby.outliving_keeps (fun peer _ e e' hloss he ↦ he.bereaved hloss) hentry fun e he ↦ ?_
  subst he
  exact .entryStep (fun e he ↦ hI lobbyId e he) rfl hown hother hedit

/-- An instance nothing has happened to. -/
def fresh (self product : Bytes) : Lobbies := { productUserId := self, productId := product }

theorem lookup_fresh (self product lobbyId : Bytes) :
    (fresh self product).lobbies[lobbyId]? = none := TreeMap.getElem?_emptyc

/-- **A lobby is hosted exactly where it is owned**: in every run whose calls are made for
ourselves and promote no lobby we host to ourselves, whatever the peers send, and whichever of
them are lost. -/
theorem hosting_iff_owned {self product : Bytes}
    (h : Reaches Lobbies.step
      (fun s i ↦ i.usesOwnId s.productUserId = true ∧ s.promotesAnother i = true)
      (fresh self product) s) {entry : Lobby} (hentry : s.lobbies[lobbyId]? = some entry)
    (hjoined : entry.localState ≠ .joining) :
    entry.localState = .hosting ↔ entry.infos.ownerId = s.productUserId := by
  have hI : AllMatched s := h.invariant
    (fun lobbyId entry hentry ↦ by rw [lookup_fresh] at hentry; cases hentry)
    fun s₁ i s₂ hI hguard hstep ↦ hI.step hguard.1 hguard.2 hstep
  exact hI lobbyId entry hentry hjoined

/-- A lobby for `maxLobbyMembers` that anyone may join by its id. -/
def openLobby (self lobbyId : Bytes) (maxLobbyMembers : UInt32) : Call :=
  .createLobby
    { apiVersion := 10, localUserId := some self, maxLobbyMembers, permissionLevel := 0
      bAllowInvites := 1, bucketId := some [0], bDisableHostMigration := 0, bEnableRTCRoom := 0
      lobbyId := some lobbyId, bEnableJoinById := 1 } none

/-- What `[2]` says to `[1]`. -/
def fromTwo (msg : LobbyMessage) : Input :=
  .receive (envelope { productUserId := [2], productId := [9] } [1] msg)

/-- A lobby whose host promoted another member to its owner, and heard nothing since. -/
theorem hosting_iff_owned_promoted : ∃ s entry, Reaches Lobbies.step
      (fun s i ↦ i.usesOwnId s.productUserId = true ∧ s.promotesAnother i = true)
        (fresh [1] [9]) s ∧
    s.lobbies[([5] : Bytes)]? = some entry ∧ entry.infos.ownerId = [2] ∧
    (entry.localState = .hosting ↔ entry.infos.ownerId = s.productUserId) := by
  obtain ⟨s, h, hpromoted⟩ := exists_reaches Lobbies.step
    (fun s i ↦ i.usesOwnId s.productUserId = true ∧ s.promotesAnother i = true) (fresh [1] [9])
    (fun s ↦ (s.lobbies[([5] : Bytes)]?).any fun entry : Lobby ↦
      entry.infos.ownerId = [2] ∧ entry.localState = .joined)
    [.call (openLobby [1] [5] 4), .around [[2]] [[2]] [], fromTwo (.joinRequest { lobbyId := [5] }),
      .call (.promoteMember
        { lobbyId := some [5], localUserId := some [1], targetUserId := some [2] })]
    (by decide +kernel) (by decide +kernel)
  obtain ⟨entry, hentry, hpromoted⟩ := (Option.any_eq_true _ _).1 hpromoted
  obtain ⟨howner, hjoined⟩ := of_decide_eq_true hpromoted
  exact ⟨s, entry, h, hentry, howner,
    hosting_iff_owned h hentry (by rw [hjoined]; decide)⟩

/-- A host that promotes itself owns a lobby it does not host. -/
theorem owned_unhosted : ∃ s entry, Reaches Lobbies.step
      (fun s i ↦ i.usesOwnId s.productUserId = true) (fresh [1] [9]) s ∧
    s.lobbies[([5] : Bytes)]? = some entry ∧ entry.localState ≠ .joining ∧
    ¬ (entry.localState = .hosting ↔ entry.infos.ownerId = s.productUserId) := by
  obtain ⟨s, h, hpromoted⟩ := exists_reaches Lobbies.step
    (fun s i ↦ i.usesOwnId s.productUserId = true) (fresh [1] [9])
    (fun s ↦ (s.lobbies[([5] : Bytes)]?).any fun entry : Lobby ↦
      entry.localState = .joined ∧ entry.infos.ownerId = s.productUserId)
    [.call (openLobby [1] [5] 4), .call (.promoteMember
      { lobbyId := some [5], localUserId := some [1], targetUserId := some [1] })]
    (by decide +kernel) (by decide +kernel)
  obtain ⟨entry, hentry, hpromoted⟩ := (Option.any_eq_true _ _).1 hpromoted
  obtain ⟨hjoined, howner⟩ := of_decide_eq_true hpromoted
  exact ⟨s, entry, h, hentry, by simp [hjoined], by simp [hjoined, howner]⟩

end Lobbies
end EosMesh
