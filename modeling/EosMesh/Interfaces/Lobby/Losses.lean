import EosMesh.Interfaces.Lobby.Handlers

/-!
# What losing peers does to the lobbies

A peer that is lost leaves the lobbies it was in.  One it owned goes to an heir, or ends; and a host
that drops a member tells the rest, and may lose more peers in that.  Each of these is told of in
turn, in the middle of the loss before it, so one send may take any number of peers with it.

* `Lobby.bereaved` is what one loss makes of one lobby, and `Lobby.outliving` what some losses do,
  one after the other.  `outliving_keeps` is the rule for properties of a lobby: what one loss
  keeps, any number keep.
* `Observes` says what a lobby is told of some peers: it observed some of them in some order, and
  all of those that were reached and are reached no more.
* `Lobbies.Lost` says of a state that some peers were lost, each lobby having observed them.  It
  composes, and so the loops over the lobbies and over their members are folds of it
  (`Lost.of_drop`, `lost_of_bereaveWith`).
* `Lobbies.lose_eq` is the equation of `Lobbies.lose`, without the bound on its depth: a loss inside
  a loss is of one peer less, so as deep as there are peers is deep enough (`loseWithin_eq`).

Nothing here says which lobby survives; that is `Interfaces.Lobby.Orphans`, and who hosts it then
`Interfaces.Lobby.Hosting`.
-/

set_option autoImplicit false

namespace EosMesh

open Lib
open Std (TreeMap)

/-! ## One lobby -/

namespace Lobby

/-- What is left of a lobby once a peer is lost: one whose owner is gone goes to the heir, or
ends. -/
def bereaved (self peer : Bytes) (entry : Lobby) : Option Lobby :=
  let left := entry.infos.dropMember peer
  if entry.localState ≠ .hosting ∧ entry.infos.ownerId = peer then
    let heir := left.heir peer
    if heir = [] then none
    else some { entry with
      infos := { left with ownerId := heir }.counted
      localState := if heir = self then .hosting else .joined }
  else if entry.localState = .hosting ∧ (entry.infos.findMember peer).isSome then
    some { entry with infos := left.counted }
  else some entry

/-- What is left of a lobby once some peers are lost, one after the other. -/
def outliving (self : Bytes) (gone : List Bytes) (entry : Option Lobby) : Option Lobby :=
  gone.foldl (fun entry peer ↦ entry.bind (bereaved self peer)) entry

variable {self : Bytes}

@[simp] theorem outliving_nil (entry : Option Lobby) : outliving self [] entry = entry := rfl

theorem outliving_cons (peer : Bytes) (gone : List Bytes) (entry : Option Lobby) :
    outliving self (peer :: gone) entry =
      outliving self gone (entry.bind (bereaved self peer)) := rfl

theorem outliving_append (gone gone' : List Bytes) (entry : Option Lobby) :
    outliving self (gone ++ gone') entry = outliving self gone' (outliving self gone entry) :=
  List.foldl_append

theorem outliving_none (gone : List Bytes) : outliving self gone none = none := by
  induction gone with
  | nil => rfl
  | cons peer gone ih => exact ih

/-- **What a loss keeps of a lobby, any number of losses keep of it.** -/
theorem outliving_keeps {P : Lobby → Prop} {gone : List Bytes}
    (hstep : ∀ peer ∈ gone, ∀ entry entry', bereaved self peer entry = some entry' →
      P entry → P entry') {entry : Option Lobby} {entry' : Lobby}
    (h : outliving self gone entry = some entry') (hP : ∀ e, entry = some e → P e) : P entry' := by
  induction gone generalizing entry with
  | nil => exact hP _ h
  | cons peer gone ih =>
    rw [outliving_cons] at h
    refine ih (fun p hp ↦ hstep p (List.mem_cons_of_mem _ hp)) h fun e he ↦ ?_
    obtain ⟨e₀, he₀, he⟩ := Option.bind_eq_some_iff.1 he
    exact hstep peer List.mem_cons_self e₀ e he (hP e₀ he₀)

end Lobby

/-! ## The table -/

namespace Lobbies

variable {s s' s'' : Lobbies} {D : Bytes → Prop}

/-- Losing others than the owner is nothing to a lobby we do not host. -/
theorem outliving_of_owner {self : Bytes} {gone : List Bytes} {entry : Lobby}
    (hcopy : entry.localState ≠ .hosting) (howner : entry.infos.ownerId ∉ gone) :
    Lobby.outliving self gone (some entry) = some entry := by
  induction gone with
  | nil => rfl
  | cons peer gone ih =>
    rw [List.mem_cons, not_or] at howner
    rw [Lobby.outliving_cons, Option.bind_some, Lobby.bereaved]
    dsimp only
    rw [if_neg (by simp [howner.1]), if_neg (by simp [hcopy]), ih howner.2]

/-- What a lobby is told of the peers `D`, and of those that were reached and are reached no more:
it observed some of them in some order, among them all of the latter, and `must`. -/
def Observes (D must : Bytes → Prop) (s s' : Lobbies) (lobbyId : Bytes) : Prop :=
  ∃ gone : List Bytes,
    (∀ peer ∈ gone, (D peer ∨ peer ∈ s.mesh.peers ∧ peer ∉ s'.mesh.peers) ∧
      peer ≠ [] ∧ peer ≠ s.productUserId) ∧
    (∀ peer, (must peer ∨ peer ∈ s.mesh.peers ∧ peer ∉ s'.mesh.peers) → peer ≠ [] →
      peer ≠ s.productUserId → peer ∈ gone) ∧
    s'.lobbies[lobbyId]? = Lobby.outliving s.productUserId gone s.lobbies[lobbyId]?

/-- Some peers were lost, and whatever was sent: peers that were reached and are reached no more,
and the peers `D`. -/
structure Lost (D : Bytes → Prop) (s s' : Lobbies) : Prop where
  observes : ∀ lobbyId : Bytes, Observes D (fun _ ↦ False) s s' lobbyId
  rest : s' = { s with lobbies := s'.lobbies, mesh := s'.mesh }
  peers : s'.mesh.peers.Sublist s.mesh.peers

theorem Lost.lookup (h : Lost D s s') (lobbyId : Bytes) : ∃ gone : List Bytes,
    (∀ peer ∈ gone, (D peer ∨ peer ∈ s.mesh.peers ∧ peer ∉ s'.mesh.peers) ∧
      peer ≠ [] ∧ peer ≠ s.productUserId) ∧
      s'.lobbies[lobbyId]? = Lobby.outliving s.productUserId gone s.lobbies[lobbyId]? := by
  obtain ⟨gone, hgone, -, hlookup⟩ := h.observes lobbyId
  exact ⟨gone, hgone, hlookup⟩

theorem Lost.self (h : Lost D s s') : s'.productUserId = s.productUserId := by rw [h.rest]

theorem Observes.trans {must must' : Bytes → Prop} {lobbyId : Bytes}
    (h : Observes D must s s' lobbyId) (h' : Observes D must' s' s'' lobbyId)
    (hself : s'.productUserId = s.productUserId) (hpeers : s'.mesh.peers ⊆ s.mesh.peers)
    (hpeers' : s''.mesh.peers ⊆ s'.mesh.peers) :
    Observes D (fun p ↦ must p ∨ must' p) s s'' lobbyId := by
  obtain ⟨gone, hgone, hall, hlookup⟩ := h
  obtain ⟨gone', hgone', hall', hlookup'⟩ := h'
  rw [hself] at hgone' hall' hlookup'
  refine ⟨gone ++ gone', fun peer hpeer ↦ ?_, fun peer hpeer hne hother ↦ ?_, ?_⟩
  · rcases List.mem_append.1 hpeer with hpeer | hpeer
    · exact (hgone peer hpeer).imp_left
        (Or.imp_right fun hlost ↦ ⟨hlost.1, fun hin ↦ hlost.2 (hpeers' hin)⟩)
    · exact (hgone' peer hpeer).imp_left
        (Or.imp_right fun hlost ↦ ⟨hpeers hlost.1, hlost.2⟩)
  · rw [List.mem_append]
    rcases hpeer with (hmust | hmust) | ⟨hin, hout⟩
    · exact .inl (hall peer (.inl hmust) hne hother)
    · exact .inr (hall' peer (.inl hmust) hne hother)
    · by_cases hmiddle : peer ∈ s'.mesh.peers
      · exact .inr (hall' peer (.inr ⟨hmiddle, hout⟩) hne hother)
      · exact .inl (hall peer (.inr ⟨hin, hmiddle⟩) hne hother)
  · rw [hlookup', hlookup, Lobby.outliving_append]

theorem Observes.weaken {must must' : Bytes → Prop} {lobbyId : Bytes}
    (h : Observes D must s s' lobbyId) (hmust : ∀ peer, must' peer → must peer) :
    Observes D must' s s' lobbyId := by
  obtain ⟨gone, hgone, hall, hlookup⟩ := h
  exact ⟨gone, hgone, fun peer hpeer ↦ hall peer (hpeer.imp_left (hmust peer)), hlookup⟩

theorem Lost.trans (h : Lost D s s') (h' : Lost D s' s'') : Lost D s s'' where
  observes lobbyId := ((h.observes lobbyId).trans (h'.observes lobbyId) h.self h.peers.subset
    h'.peers.subset).weaken fun _ ↦ False.elim
  rest := by rw [h'.rest, h.rest]
  peers := h'.peers.trans h.peers

/-- Nothing happened but on the mesh, and nobody was lost. -/
theorem lost_mesh {mesh : Mesh LobbyMessage} (h : mesh.peers = s.mesh.peers) :
    Lost D s { s with mesh } := by
  refine ⟨fun lobbyId ↦ ⟨[], by simp, fun peer hpeer ↦ ?_, rfl⟩, rfl, h ▸ .refl _⟩
  rw [h] at hpeer
  tauto

theorem Lost.refl (s : Lobbies) : Lost D s s := lost_mesh rfl

/-- The router dropped a peer, every lobby observed it, and whoever else was lost. -/
theorem Lost.of_drop {peer : Bytes} (hpeer : peer ∈ s.mesh.peers)
    (h : Lost (fun p ↦ D p ∨ p = peer) { s with mesh := s.mesh.drop peer } s')
    (hseen : ∀ lobbyId, Observes (fun p ↦ D p ∨ p = peer) (· = peer)
      { s with mesh := s.mesh.drop peer } s' lobbyId) : Lost D s s' where
  observes lobbyId := by
    obtain ⟨gone, hgone, hall, hlookup⟩ := hseen lobbyId
    refine ⟨gone, fun p hp ↦ (hgone p hp).imp_left ?_, fun p hp hne hother ↦ ?_, hlookup⟩
    · rintro ((hD | rfl) | ⟨hin, hout⟩)
      · exact .inl hD
      · exact .inr ⟨hpeer, fun hin ↦ by simpa [Mesh.drop] using h.peers.subset hin⟩
      · exact .inr ⟨List.mem_of_mem_filter hin, hout⟩
    · obtain ⟨hin, hout⟩ := hp.resolve_left id
      by_cases heq : p = peer
      · exact hall p (.inl heq) hne hother
      · exact hall p (.inr ⟨by simp [Mesh.drop, hin, heq], hout⟩) hne hother
  rest := by rw [h.rest]
  peers := h.peers.trans List.filter_sublist

/-- The entry of `lobbyId` was bereaved of one peer. -/
theorem lost_bereaved (lobbyId : Bytes) {peer : Bytes} (hD : D peer) (hne : peer ≠ [])
    (hother : peer ≠ s.productUserId) {lobbies : TreeMap Bytes Lobby}
    (h : ∀ id : Bytes, lobbies[id]? =
      if id = lobbyId then s.lobbies[lobbyId]?.bind (Lobby.bereaved s.productUserId peer)
      else s.lobbies[id]?) : Lost D s { s with lobbies } where
  observes id := by
    by_cases hid : id = lobbyId
    · refine ⟨[peer], ?_, fun p hp ↦ absurd hp (by simp), ?_⟩
      · rintro p hp
        obtain rfl := List.mem_singleton.1 hp
        exact ⟨.inl hD, hne, hother⟩
      · rw [h, if_pos hid, hid]
        rfl
    · exact ⟨[], by simp, fun p hp ↦ absurd hp (by simp), by rw [h, if_neg hid]; rfl⟩
  rest := rfl
  peers := .refl _

section Sending

variable {lose : Lobbies → Bytes → Lobbies}
  (hlose : ∀ (s : Lobbies) (peer : Bytes), Lost D s (lose s peer))
include hlose

theorem lost_sendToWith (peer : Bytes) (message : LobbyMessage) :
    Lost D s (s.sendToWith lose peer message) := by
  have hall (lost : List Bytes) (s : Lobbies) : Lost D s (lost.foldl lose s) := by
    induction lost generalizing s with
    | nil => exact .refl s
    | cons peer lost ih => exact (hlose s peer).trans (ih _)
  have hmesh : Lost D s { s with mesh := (s.mesh.send peer message).1 } :=
    lost_mesh (Mesh.send_peers _ _ _)
  exact hmesh.trans (hall _ _)

theorem lost_broadcastToMembersWith (lobbyId : Bytes) (message : LobbyMessage) (except : Bytes) :
    Lost D s (s.broadcastToMembersWith lose lobbyId message except) :=
  fanOut_invariant (I := Lost D s)
    (fun _ _ h ↦ h.trans (lost_sendToWith hlose _ _)) (.refl s)

theorem lost_broadcastLobbyWith (lobbyId : Bytes) :
    Lost D s (s.broadcastLobbyWith lose lobbyId) := by
  rw [broadcastLobbyWith]
  split
  · exact .refl s
  · exact lost_broadcastToMembersWith hlose _ _ _

/-- A lobby is bereaved of a peer, and then its members may hear of it. -/
theorem lost_of_bereaveWith (peer lobbyId : Bytes) :
    ∃ lobbies : TreeMap Bytes Lobby, (∀ id : Bytes, lobbies[id]? =
      if id = lobbyId then s.lobbies[lobbyId]?.bind (Lobby.bereaved s.productUserId peer)
      else s.lobbies[id]?) ∧ Lost D { s with lobbies } (bereaveWith lose peer s lobbyId) := by
  -- What the table is before anything is sent.
  have hset (entry : Lobby)
      (hentry : s.lobbies[lobbyId]?.bind (Lobby.bereaved s.productUserId peer) = some entry)
      (id : Bytes) : (s.lobbies.insert lobbyId entry)[id]? =
        if id = lobbyId then s.lobbies[lobbyId]?.bind (Lobby.bereaved s.productUserId peer)
        else s.lobbies[id]? := by
    rw [lookup_insert, hentry]
    by_cases hid : lobbyId = id
    · rw [if_pos hid, if_pos hid.symm]
    · rw [if_neg hid, if_neg (Ne.symm hid)]
  have hkeep (hentry : s.lobbies[lobbyId]?.bind (Lobby.bereaved s.productUserId peer) =
      s.lobbies[lobbyId]?) (id : Bytes) : s.lobbies[id]? =
        if id = lobbyId then s.lobbies[lobbyId]?.bind (Lobby.bereaved s.productUserId peer)
        else s.lobbies[id]? := by
    split
    · rename_i hid
      rw [hid, hentry]
    · rfl
  rw [bereaveWith]
  split
  · rename_i hnone
    replace hnone : s.lobbies[lobbyId]? = none := hnone
    exact ⟨s.lobbies, hkeep (by rw [hnone]; rfl), .refl s⟩
  · rename_i entry hentry
    replace hentry : s.lobbies[lobbyId]? = some entry := hentry
    rw [hentry, Option.bind_some, Lobby.bereaved] at hset hkeep ⊢
    dsimp only
    split
    · rename_i howner
      rw [if_pos howner] at hset
      split
      · rename_i hheir
        refine ⟨s.lobbies.erase lobbyId, fun id ↦ ?_, .refl _⟩
        rw [lookup_erase]
        by_cases hid : lobbyId = id
        · rw [if_pos hid, if_pos hid.symm]
        · rw [if_neg hid, if_neg (Ne.symm hid)]
      · rename_i hheir
        rw [if_neg hheir] at hset
        have hset := hset _ rfl
        split
        · rename_i hself
          rw [if_pos hself] at hset
          exact ⟨_, hset, lost_broadcastLobbyWith hlose _⟩
        · rename_i hself
          rw [if_neg hself] at hset
          exact ⟨_, hset, .refl _⟩
    · rename_i howner
      rw [if_neg howner] at hset hkeep
      split
      · rename_i hmember
        rw [if_pos hmember] at hset
        exact ⟨_, hset _ rfl, lost_broadcastLobbyWith hlose _⟩
      · rename_i hmember
        rw [if_neg hmember] at hkeep
        exact ⟨s.lobbies, hkeep rfl, .refl s⟩

theorem lost_bereaveWith {peer : Bytes} (hpeer : D peer) (hne : peer ≠ [])
    (hother : peer ≠ s.productUserId) (lobbyId : Bytes) :
    Lost D s (bereaveWith lose peer s lobbyId) := by
  obtain ⟨lobbies, hlobbies, hlost⟩ := lost_of_bereaveWith (s := s) hlose peer lobbyId
  exact (lost_bereaved lobbyId hpeer hne hother hlobbies).trans hlost

/-- The lobby it is about observes the loss. -/
theorem observes_bereaveWith {peer : Bytes} (hpeer : D peer) (hne : peer ≠ [])
    (hother : peer ≠ s.productUserId) (lobbyId : Bytes) :
    Observes D (· = peer) s (bereaveWith lose peer s lobbyId) lobbyId := by
  obtain ⟨lobbies, hlobbies, hlost⟩ := lost_of_bereaveWith (s := s) hlose peer lobbyId
  have hfirst : Observes D (· = peer) s { s with lobbies } lobbyId := by
    refine ⟨[peer], fun p hp ↦ ?_, fun p hp _ _ ↦ ?_, ?_⟩
    · obtain rfl := List.mem_singleton.1 hp
      exact ⟨.inl hpeer, hne, hother⟩
    · exact List.mem_singleton.2 (hp.resolve_right (by simp))
    · rw [hlobbies, if_pos rfl]
      rfl
  exact (hfirst.trans (hlost.observes lobbyId) rfl (List.Subset.refl _)
    hlost.peers.subset).weaken fun _ ↦ .inl

theorem lost_foldl_bereaveWith {peer : Bytes} (hpeer : D peer) (hne : peer ≠ [])
    (hother : peer ≠ s.productUserId) (ids : List Bytes) :
    Lost D s (ids.foldl (bereaveWith lose peer) s) := by
  induction ids generalizing s with
  | nil => exact .refl s
  | cons lobbyId ids ih =>
    have hfirst := lost_bereaveWith (s := s) hlose hpeer hne hother lobbyId
    exact hfirst.trans (ih (hfirst.self ▸ hother))

theorem lost_onPeerDisconnectedWith {peer : Bytes} (hpeer : D peer) :
    Lost D s (s.onPeerDisconnectedWith lose peer) := by
  rw [onPeerDisconnectedWith]
  split
  · exact .refl s
  · rename_i hother
    rw [not_or] at hother
    exact lost_foldl_bereaveWith hlose hpeer hother.1 hother.2 _

/-- Every lobby there is observes that a peer left. -/
theorem observes_onPeerDisconnectedWith {peer : Bytes} (hpeer : D peer) (lobbyId : Bytes) :
    Observes D (· = peer) s (s.onPeerDisconnectedWith lose peer) lobbyId := by
  rw [onPeerDisconnectedWith]
  split
  · rename_i hself
    refine ⟨[], by simp, fun p hp hne hother ↦ ?_, rfl⟩
    rcases hp with rfl | hp
    · exact absurd hself (not_or.2 ⟨hne, hother⟩)
    · simp at hp
  · rename_i hother
    rw [not_or] at hother
    by_cases hin : lobbyId ∈ s.lobbies.keys
    · obtain ⟨before, after, hkeys⟩ := List.append_of_mem hin
      rw [hkeys, List.foldl_append, List.foldl_cons]
      have hbefore := lost_foldl_bereaveWith (s := s) hlose hpeer hother.1 hother.2 before
      generalize before.foldl (bereaveWith lose peer) s = s₁ at hbefore ⊢
      have hother' : peer ≠ s₁.productUserId := hbefore.self ▸ hother.2
      have hat := observes_bereaveWith (s := s₁) hlose hpeer hother.1 hother' lobbyId
      have hlost := lost_bereaveWith (s := s₁) hlose hpeer hother.1 hother' lobbyId
      have hafter := lost_foldl_bereaveWith hlose hpeer hother.1 (hlost.self ▸ hother') after
      have hboth := (hbefore.observes lobbyId).trans hat hbefore.self hbefore.peers.subset
        hlost.peers.subset
      have hall := hboth.trans (hafter.observes lobbyId) (hlost.self.trans hbefore.self)
        (hlost.peers.trans hbefore.peers).subset hafter.peers.subset
      exact hall.weaken fun p hp ↦ .inl (.inr hp)
    · have hnone : s.lobbies[lobbyId]? = none := by
        rw [mem_keys_iff_lookup, not_exists] at hin
        exact Option.eq_none_iff_forall_ne_some.2 hin
      obtain ⟨gone, hgone, hall, hlookup⟩ :=
        (lost_foldl_bereaveWith (s := s) hlose hpeer hother.1 hother.2
          s.lobbies.keys).observes lobbyId
      refine ⟨peer :: gone, fun p hp ↦ ?_, fun p hp hne hother ↦ ?_, ?_⟩
      · rcases List.mem_cons.1 hp with rfl | hp
        · exact ⟨.inl hpeer, hother⟩
        · exact hgone p hp
      · rcases hp with rfl | hp
        · exact List.mem_cons_self
        · exact List.mem_cons_of_mem _ (hall p (.inr hp) hne hother)
      · rw [hlookup, hnone, Lobby.outliving_none, Lobby.outliving_none]

end Sending

theorem lost_loseWithin (depth : Nat) (s : Lobbies) (peer : Bytes) :
    Lost D s (loseWithin depth s peer) := by
  induction depth generalizing s peer D with
  | zero => exact .refl s
  | succ depth ih =>
    rw [loseWithin]
    split
    · rename_i hpeer
      exact .of_drop hpeer (lost_onPeerDisconnectedWith (fun s p ↦ ih s p) (.inr rfl))
        (observes_onPeerDisconnectedWith (fun s p ↦ ih s p) (.inr rfl))
    · exact .refl s

/-! ## How deep it goes -/

section Depth

variable {lose lose' : Lobbies → Bytes → Lobbies} {k : Nat}
  (hlose : ∀ (s : Lobbies) (peer : Bytes), Lost (fun _ ↦ True) s (lose s peer))
  (hagree : ∀ (s : Lobbies) (peer : Bytes), s.mesh.peers.length ≤ k → lose s peer = lose' s peer)
include hlose hagree

theorem sendToWith_congr (h : s.mesh.peers.length ≤ k) (peer : Bytes) (message : LobbyMessage) :
    s.sendToWith lose peer message = s.sendToWith lose' peer message := by
  rw [← s.mesh.send_peers peer message] at h
  exact foldl_congr_of (I := fun s : Lobbies ↦ s.mesh.peers.length ≤ k)
    (fun s p hs ↦ ⟨hagree s p hs, (hlose s p).peers.length_le.trans hs⟩) h _

theorem broadcastLobbyWith_congr (h : s.mesh.peers.length ≤ k) (lobbyId : Bytes) :
    s.broadcastLobbyWith lose lobbyId = s.broadcastLobbyWith lose' lobbyId := by
  rw [broadcastLobbyWith, broadcastLobbyWith]
  split
  · rfl
  · refine fanOut_congr (I := fun s : Lobbies ↦ s.mesh.peers.length ≤ k) (fun s member hs ↦ ?_) h
    exact ⟨sendToWith_congr hlose hagree hs _ _,
      (lost_sendToWith hlose _ _).peers.length_le.trans hs⟩

theorem bereaveWith_congr (h : s.mesh.peers.length ≤ k) (peer lobbyId : Bytes) :
    bereaveWith lose peer s lobbyId = bereaveWith lose' peer s lobbyId := by
  have hset (entry : Lobby) : (s.setLobby lobbyId entry).broadcastLobbyWith lose lobbyId =
      (s.setLobby lobbyId entry).broadcastLobbyWith lose' lobbyId :=
    broadcastLobbyWith_congr (s := s.setLobby lobbyId entry) hlose hagree h lobbyId
  rw [bereaveWith, bereaveWith]
  simp only [hset]

theorem onPeerDisconnectedWith_congr (h : s.mesh.peers.length ≤ k) (peer : Bytes) :
    s.onPeerDisconnectedWith lose peer = s.onPeerDisconnectedWith lose' peer := by
  rw [onPeerDisconnectedWith, onPeerDisconnectedWith]
  split
  · rfl
  · rename_i hother
    rw [not_or] at hother
    refine foldl_congr_of
      (I := fun s₁ : Lobbies ↦ s₁.productUserId = s.productUserId ∧ s₁.mesh.peers.length ≤ k)
      (fun s₁ lobbyId hs ↦ ⟨bereaveWith_congr hlose hagree hs.2 _ _, ?_⟩) ⟨rfl, h⟩ _
    have hlost := lost_bereaveWith (s := s₁) hlose trivial hother.1 (hs.1 ▸ hother.2) lobbyId
    exact ⟨hlost.self.trans hs.1, hlost.peers.length_le.trans hs.2⟩

end Depth

/-- As deep as there are peers is deep enough. -/
theorem loseWithin_eq {depth depth' : Nat} {peer : Bytes} (h : s.mesh.peers.length ≤ depth)
    (h' : s.mesh.peers.length ≤ depth') : loseWithin depth s peer = loseWithin depth' s peer := by
  have hnone (n : Nat) (s : Lobbies) (peer : Bytes) (hn : s.mesh.peers.length ≤ 0) :
      loseWithin n s peer = s := by
    have hnil : s.mesh.peers = [] := List.eq_nil_of_length_eq_zero (by omega)
    cases n with
    | zero => rfl
    | succ n => rw [loseWithin, if_neg (by simp [hnil])]
  induction depth generalizing depth' s peer with
  | zero => rw [hnone _ _ _ h, hnone _ _ _ h]
  | succ depth ih =>
    cases depth' with
    | zero => rw [hnone _ _ _ h', hnone _ _ _ h']
    | succ depth' =>
      rw [loseWithin, loseWithin]
      split
      · rename_i hpeer
        have hdrop : (s.mesh.drop peer).peers.length < s.mesh.peers.length :=
          List.length_filter_lt_length_iff_exists.2 ⟨peer, hpeer, by simp⟩
        refine onPeerDisconnectedWith_congr (k := min depth depth')
          (fun s p ↦ lost_loseWithin _ s p) (fun s p hs ↦ ?_) ?_ peer
        · refine ih ?_ ?_ <;> omega
        · show (s.mesh.drop peer).peers.length ≤ _
          omega
      · rfl

/-- **Losing a peer is losing it, and whatever follows from that, however many are lost on the
way.** -/
theorem lose_eq (s : Lobbies) (peer : Bytes) : s.lose peer =
    if peer ∈ s.mesh.peers then { s with mesh := s.mesh.drop peer }.onPeerDisconnected
    peer else s := by
  rw [lose, loseWithin_eq le_rfl (Nat.le_succ _), loseWithin]
  split
  · refine onPeerDisconnectedWith_congr (k := s.mesh.peers.length)
      (fun s p ↦ lost_loseWithin _ s p) (fun s p hs ↦ ?_)
      (List.length_filter_le _ _) peer
    exact loseWithin_eq hs le_rfl
  · rfl

theorem lost_lose (s : Lobbies) (peer : Bytes) : Lost D s (s.lose peer) := lost_loseWithin _ s peer

theorem lost_sendTo (s : Lobbies) (peer : Bytes) (message : LobbyMessage) :
    Lost D s (s.sendTo peer message) := lost_sendToWith lost_lose peer message

theorem lost_broadcastToMembers (s : Lobbies) (lobbyId : Bytes) (message : LobbyMessage)
    (except : Bytes) : Lost D s (s.broadcastToMembers lobbyId message except) :=
  lost_broadcastToMembersWith lost_lose lobbyId message except

theorem lost_broadcastLobby (s : Lobbies) (lobbyId : Bytes) : Lost D s (s.broadcastLobby lobbyId) :=
  lost_broadcastLobbyWith lost_lose lobbyId

end Lobbies
end EosMesh
