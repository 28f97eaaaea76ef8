import EosMesh.Interfaces.Sessions.Roster

/-!
# Sessions whose owner is gone

A session we joined can be updated, and ended, by its owner only, and it is found again only through
the owner's answers.  When the owner leaves, all that happens to the session is that a player goes
off its roster.

* `Sessions.Owned` says that every session we joined has an owner we reach.
* `Sessions.keepsOwners` is the condition on a turn, and `owned_turn` says that under it the
  property is kept.
-/

set_option autoImplicit false

namespace EosMesh

open Lib

namespace Sessions

variable {s s' : Sessions} {name : Bytes} {entry : Session}

/-- Peers come and go; those that go, the router drops. -/
def turn (s : Sessions) : Turn Input → Option Sessions
  | .input (.around peers known losses) =>
    if s.mesh.peers.all (· ∈ peers) then step s (.around peers known losses) else none
  | .input i => step s i
  | .drop peer => some (s.lose peer)

/-- Every session we joined has an owner we reach. -/
def Owned (s : Sessions) : Prop :=
  ∀ (name : Bytes) (entry : Session), s.sessions[name]? = some entry →
    entry.localState = .joined → entry.infos.ownerId ∈ s.mesh.peers

/-- The owner an input gives a session we joined, or are let into. -/
def newOwner (s : Sessions) : Input → Option Bytes
  | .call (.updateSession o _) =>
    (s.modifications.find o.sessionModificationHandle).bind fun object ↦
      (s.findByName object.sessionName).bind fun entry ↦
        if object.creating = false ∧ entry.localState = .joined then
          some (Session.modified entry object).infos.ownerId
        else none
  | .receive message =>
    match SessionMessage.read message.typeTag message.payload with
    | some (.joinResponse answer) =>
      (s.findById answer.sessionId).bind fun p ↦
        if p.2.infos.ownerId = message.sourceId ∧ answer.playerId = s.productUserId ∧
            (s.waitingFor answer.sessionId).isSome then some message.sourceId
        else none
    | some (.infos infos) =>
      (s.findById infos.sessionId).bind fun p ↦
        if p.2.localState = .joined ∧ p.2.infos.ownerId = message.sourceId then some infos.ownerId
        else none
    | _ => none
  | _ => none

/-- We are about to leave the session. -/
def leaves (name : Bytes) : Turn Input → Prop
  | .input (.call (.destroySession o)) => o.sessionName = some name
  | _ => False

/-- The condition on a turn: no peer that owns a session we joined is lost in it, unless we are
leaving the session, and it gives no such session an owner we do not reach. -/
def keepsOwners (s : Sessions) (t : Turn Input) : Prop :=
  ∀ s', turn s t = some s' →
    (∀ (name : Bytes) (entry : Session), s.sessions[name]? = some entry →
      entry.localState = .joined → ¬ leaves name t → entry.infos.ownerId ∈ s'.mesh.peers) ∧
    ∀ i owner, t = .input i → s.newOwner i = some owner → owner ∈ s'.mesh.peers

/-- A session we leave is in the table no more. -/
theorem lookup_destroySession {o : SessionNameOptions} (hname : o.sessionName = some name) :
    (s.destroySession o).2 = s ∨ (s.destroySession o).2.sessions[name]? = none := by
  rw [destroySession]
  split
  · exact .inl rfl
  · rename_i found entry hnamed
    obtain rfl : found = name := by
      rw [named, hname] at hnamed
      dsimp only at hnamed
      split at hnamed
      · cases hnamed
      · split at hnamed
        · cases hnamed
        · cases hnamed
          rfl
    refine .inr ?_
    dsimp only
    rw [eraseSession, lookup_erase, if_pos rfl]

theorem step_of_turn {i : Input} (h : turn s (.input i) = some s') : step s i = some s' := by
  cases i with
  | around peers known losses =>
    rw [turn] at h
    split at h
    · exact h
    · cases h
  | _ => exact h

/-- A session we are in after a step: it was one before, or the step gave it an owner. -/
theorem EntryStep.joined {i : Input} {edited : Session}
    (h : EntryStep s i name s.sessions[name]? (some edited))
    (hjoined : edited.localState = .joined) :
    (∃ entry, s.sessions[name]? = some entry ∧ entry.localState = .joined ∧
      entry.infos.ownerId = edited.infos.ownerId) ∨ s.newOwner i = some edited.infos.ownerId := by
  generalize hbefore : s.sessions[name]? = before at h
  generalize hafter : some edited = after at h
  cases h with
  | same => exact .inl ⟨edited, hafter.symm, hjoined, rfl⟩
  | created =>
    cases hafter
    cases hjoined
  | @modified o random object entry hobject hcreating =>
    cases hafter
    have hstate : entry.localState = .joined := hjoined
    have hentry : s.findByName object.sessionName = some entry := hbefore
    exact .inr (by simp [newOwner, hobject, hentry, hcreating, hstate])
  | destroyed => cases hafter
  | started =>
    cases hafter
    exact .inl ⟨_, rfl, hjoined, rfl⟩
  | ended =>
    cases hafter
    exact .inl ⟨_, rfl, hjoined, rfl⟩
  | registered =>
    cases hafter
    exact .inl ⟨_, rfl, hjoined, rfl⟩
  | unregistered =>
    cases hafter
    exact .inl ⟨_, rfl, hjoined, rfl⟩
  | joining =>
    cases hafter
    cases hjoined
  | admitted =>
    cases hafter
    exact .inl ⟨_, rfl, hjoined, rfl⟩
  | told =>
    cases hafter
    exact .inl ⟨_, rfl, hjoined, rfl⟩
  | @accepted message answer _ entry hreads hfound howner hplayer hwaiting =>
    cases hafter
    have howner' : entry.infos.ownerId = message.sourceId := howner.symm
    refine .inr ?_
    simp only [newOwner, hreads.read, hfound, Option.bind_some]
    rw [if_pos ⟨howner', hplayer, hwaiting⟩]
    exact congrArg some howner
  | refused => cases hafter
  | @rewritten message infos _ entry hreads hfound hcopy howner =>
    cases hafter
    have hstate : entry.localState = .joined := hjoined
    exact .inr (by simp [newOwner, hreads.read, hfound, hstate, howner])
  | closed => cases hafter
  | noticed =>
    cases hafter
    exact .inl ⟨_, rfl, hjoined, rfl⟩
  | expired => cases hafter

/-- **A turn that keeps the owners leaves no orphan.** -/
theorem owned_turn {t : Turn Input} (h : Owned s) (hkeeps : s.keepsOwners t)
    (hturn : turn s t = some s') : Owned s' := by
  obtain ⟨hkept, hnew⟩ := hkeeps s' hturn
  cases t with
  | drop peer =>
    obtain rfl := Option.some.inj hturn
    intro name entry' hentry' hjoined
    rw [lose] at hentry' hkept ⊢
    split at hentry'
    · rename_i hpeer
      rw [if_pos hpeer] at hkept ⊢
      change (s.sessions.map _)[name]? = some entry' at hentry'
      rw [Std.TreeMap.getElem?_map, Option.map_eq_some_iff] at hentry'
      obtain ⟨entry, hentry, rfl⟩ := hentry'
      exact hkept name entry hentry hjoined id
    · rename_i hpeer
      rw [if_neg hpeer]
      exact h name entry' hentry' hjoined
  | input i =>
    have hstep := step_of_turn hturn
    intro name entry' hentry' hjoined
    by_cases hleaves : leaves name (.input i)
    · -- Either nothing happened, or the session is gone.
      unfold leaves at hleaves
      split at hleaves
      · rename_i o heq
        cases heq
        obtain rfl := Option.some.inj hstep
        rcases lookup_destroySession (s := s) hleaves with hsame | hnone
        · change (s.destroySession o).2.sessions[name]? = _ at hentry'
          show _ ∈ (s.destroySession o).2.mesh.peers
          rw [hsame] at hentry' ⊢
          exact h name entry' hentry' hjoined
        · change (s.destroySession o).2.sessions[name]? = _ at hentry'
          rw [hnone] at hentry'
          cases hentry'
      · exact hleaves.elim
    · obtain ⟨gone, -, hentries⟩ := (tableStep_of_step hstep).entries
      obtain ⟨edited, hedit, hlookup⟩ := hentries name
      rw [hentry'] at hlookup
      obtain ⟨e, rfl, rfl⟩ := Option.map_eq_some_iff.1 hlookup.symm
      rw [Session.without_localState] at hjoined
      rw [Session.without_ownerId]
      rcases hedit.joined hjoined with ⟨entry, hentry, hstate, howner⟩ | howner
      · exact howner ▸ hkept name entry hentry hstate hleaves
      · exact hnew i _ rfl howner

theorem owned_fresh (self product : Bytes) : Owned (fresh self product) :=
    fun name entry hentry ↦ by
  rw [lookup_fresh] at hentry
  cases hentry

theorem owned_of_reaches {self product : Bytes}
    (h : Reaches turn keepsOwners (fresh self product) s) : Owned s :=
  h.invariant (owned_fresh self product) fun _ _ _ hs hkeeps hturn ↦ owned_turn hs hkeeps hturn

end Sessions
end EosMesh
