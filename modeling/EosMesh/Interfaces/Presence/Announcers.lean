import EosMesh.Interfaces.Presence.Operations
import EosMesh.Lib.Run

/-!
# Presence belongs to its announcer

The presence table goes by an account that also stands in the message, while what a peer may speak
for is the router's word: the account it was connected with.  If the one were taken for the other, a
peer could speak for another's account, or for ours.

`told` is all the interface has ever been told, and a peer's `Link` is read off it: the account it
was connected with, and the last valid presence it announced since.  Nothing else is looked at: the
link of a peer does not depend on the tables.

* `Presence.Linked` is what the three tables hold, in terms of the links alone.
* Every table is written before the first send, so `Linked` holds at every send
  (`Linked.broadcast`), and each peer that a send loses only ends its own link (`Linked.lose`).
  `sendTo_invariant` is the rule that both follow from.
* `Presence.Later` is what a send leaves of everything else, and `Spares` what a peer leaves of
  everybody but itself.
* `Linked.step` is the step lemma, by what may happen: a peer joins (`joined`), a peer says
  something that announces nothing (`Linked.noted`) or something that does (`Linked.store`), a peer
  is lost, or the game makes a call.

`presence_authentic` is the result: an entry other than our own is what a connected peer announced
last, under the account it was connected with, and nobody else touches it.
-/

set_option autoImplicit false

namespace EosMesh

open Lib
open Std (TreeMap)

namespace Presence

/-! ## Links -/

/-- A peer that is connected: the account it was connected with, and what it announced last. -/
structure Link where
  epic : Bytes
  last : Option PresenceInfo := none
  deriving DecidableEq, Repr

/-- The presence a message announces, if it is a valid one about `epic`; `own` is our account. -/
def announced (own product epic : Bytes) (message : NetEnvelope) : Option PresenceInfo :=
  if message.gameId = product ∧ message.typeTag = MessageType.presenceInfo.tag then
    ((PresenceInfo.deserialize.run message.payload).map Prod.fst).filter fun info ↦
      presenceWithinCaps info ∧ info.epicId = epic ∧ epic ≠ [] ∧ epic ≠ own
  else none

/-- What a message is to the link of `peer`. -/
def follow (own product peer : Bytes) (link : Option Link) (message : NetEnvelope) : Option Link :=
  if message.sourceId ≠ peer then link
  else if message.typeTag = MessageType.peerConnected.tag then some { epic := message.payload }
  else if message.typeTag = MessageType.peerDisconnected.tag then none
  else link.map fun l ↦
    match announced own product l.epic message with
    | none => l
    | some info => { l with last := some info }

/-- The link of a peer, by what the interface was told. -/
def link (s : Presence) (peer : Bytes) : Option Link :=
  s.told.foldl (follow s.epicAccountId s.productId peer) none

variable {s s' : Presence}

theorem link_told {message : NetEnvelope} (htold : s'.told = s.told ++ [message])
    (hown : s'.epicAccountId = s.epicAccountId) (hproduct : s'.productId = s.productId)
    (peer : Bytes) :
    s'.link peer = follow s.epicAccountId s.productId peer (s.link peer) message := by
  rw [link, htold, List.foldl_append, hown, hproduct]
  rfl

theorem link_congr (htold : s'.told = s.told) (hown : s'.epicAccountId = s.epicAccountId)
    (hproduct : s'.productId = s.productId) (peer : Bytes) : s'.link peer = s.link peer := by
  rw [link, htold, hown, hproduct]
  rfl

theorem follow_other {own product peer : Bytes} {link : Option Link} {message : NetEnvelope}
    (h : message.sourceId ≠ peer) : follow own product peer link message = link := if_pos h

theorem peerConnected_ne_peerDisconnected :
    MessageType.peerDisconnected.tag ≠ MessageType.peerConnected.tag := by decide

theorem follow_peerDisconnected (own product peer : Bytes) (link : Option Link) :
    follow own product peer link (peerDisconnected peer) = none := by
  rw [follow, if_neg (not_not.2 (by rfl)), if_neg (by exact peerConnected_ne_peerDisconnected),
    if_pos (by rfl)]

theorem follow_peerConnected (own product peer epic gameId : Bytes) (link : Option Link) :
    follow own product peer link (peerConnected peer epic gameId) = some { epic } := by
  rw [follow, if_neg (not_not.2 (by rfl)), if_pos (by rfl)]
  rfl

/-- A message of the peer that announces nothing leaves its link. -/
theorem follow_of_announced_none {own product peer : Bytes} {l : Option Link}
    {message : NetEnvelope} (hlife : isLifecycle message = false)
    (h : ∀ link, l = some link → announced own product link.epic message = none) :
    follow own product peer l message = l := by
  have hnot : ¬ (message.typeTag = MessageType.peerConnected.tag ∨
      message.typeTag = MessageType.peerDisconnected.tag) := by simpa [isLifecycle] using hlife
  rw [not_or] at hnot
  rw [follow, if_neg hnot.1, if_neg hnot.2]
  split
  · rfl
  · cases l with
    | none => rfl
    | some link => rw [Option.map_some, h link rfl]

/-- One that announces something is the last the peer announced. -/
theorem follow_of_announced {own product peer : Bytes} {link : Link} {message : NetEnvelope}
    {info : PresenceInfo} (hlife : isLifecycle message = false) (hsource : message.sourceId = peer)
    (h : announced own product link.epic message = some info) :
    follow own product peer (some link) message = some { link with last := some info } := by
  have hnot : ¬ (message.typeTag = MessageType.peerConnected.tag ∨
      message.typeTag = MessageType.peerDisconnected.tag) := by simpa [isLifecycle] using hlife
  rw [not_or] at hnot
  rw [follow, if_neg (not_not.2 hsource), if_neg hnot.1, if_neg hnot.2, Option.map_some, h]

theorem announced_epicId {own product epic : Bytes} {message : NetEnvelope} {info : PresenceInfo}
    (h : announced own product epic message = some info) :
    info.epicId = epic ∧ epic ≠ [] ∧ epic ≠ own := by
  rw [announced] at h
  split at h
  · obtain ⟨-, hinfo⟩ := Option.filter_eq_some_iff.1 h
    have := of_decide_eq_true hinfo
    exact this.2
  · cases h

/-! ## What the tables hold -/

/-- The tables, by the links. -/
structure Linked (s : Presence) : Prop where
  /-- The router's connected peers are the ones with a link. -/
  connected : ∀ peer, peer ∈ s.mesh.peers ↔ ∃ l, s.link peer = some l
  /-- No two of them have an account in common. -/
  apart : ∀ peer peer' l l', s.link peer = some l → s.link peer' = some l' → l.epic = l'.epic →
    l.epic ≠ [] → peer = peer'
  named : ∀ peer ∈ s.mesh.peers, peer ≠ [] ∧ peer ≠ s.productUserId
  bound : ∀ peer epic, s.peerEpic[peer]? = some epic ↔
    epic ≠ [] ∧ ∃ l, s.link peer = some l ∧ l.epic = epic
  owned : ∀ epic peer, s.epicOwner[epic]? = some peer ↔
    ∃ l info, s.link peer = some l ∧ l.last = some info ∧ l.epic = epic
  held : ∀ epic info, epic ≠ s.epicAccountId → (s.presences[epic]? = some info ↔
    ∃ peer l, s.link peer = some l ∧ l.last = some info ∧ l.epic = epic)
  /-- What was announced is about the account it was announced under, and that is not ours. -/
  about : ∀ peer l info, s.link peer = some l → l.last = some info →
    info.epicId = l.epic ∧ l.epic ≠ [] ∧ l.epic ≠ s.epicAccountId

namespace Linked

/-- The links and the tables are all there is to it. -/
theorem congr (h : s.Linked) (hlink : ∀ peer, s'.link peer = s.link peer)
    (hown : s'.epicAccountId = s.epicAccountId) (huser : s'.productUserId = s.productUserId)
    (hpeers : s'.mesh.peers = s.mesh.peers) (hbound : s'.peerEpic = s.peerEpic)
    (howner : s'.epicOwner = s.epicOwner)
    (hheld : ∀ epic : Bytes, epic ≠ s.epicAccountId → s'.presences[epic]? = s.presences[epic]?) :
    s'.Linked := by
  refine ⟨?_, ?_, ?_, ?_, ?_, ?_, ?_⟩
  · simpa only [hpeers, hlink] using h.connected
  · simpa only [hlink] using h.apart
  · simpa only [hpeers, huser] using h.named
  · simpa only [hbound, hlink] using h.bound
  · simpa only [howner, hlink] using h.owned
  · intro epic info hepic
    rw [hown] at hepic
    simpa only [hheld epic hepic, hlink] using h.held epic info hepic
  · simpa only [hown, hlink] using h.about

/-- Nobody has announced our own account. -/
theorem own_unowned (h : s.Linked) : s.epicOwner[s.epicAccountId]? = none := by
  cases howner : s.epicOwner[s.epicAccountId]? with
  | none => rfl
  | some peer =>
    obtain ⟨l, info, hl, hlast, hepic⟩ := (h.owned _ _).1 howner
    exact absurd hepic (h.about peer l info hl hlast).2.2

end Linked

/-! ## A peer is lost -/

theorem lookup_onPeerDisconnected (s : Presence) (peer epic : Bytes) :
    (s.onPeerDisconnected peer).presences[epic]? =
      if s.epicOwner[epic]? = some peer then none else s.presences[epic]? := by
  rw [onPeerDisconnected, lookup_filter]
  by_cases h : s.epicOwner[epic]? = some peer <;> simp [h]

theorem owner_onPeerDisconnected (s : Presence) (peer epic : Bytes) :
    (s.onPeerDisconnected peer).epicOwner[epic]? =
      if s.epicOwner[epic]? = some peer then none else s.epicOwner[epic]? := by
  rw [onPeerDisconnected, TreeMap.getElem?_filter']
  cases h : s.epicOwner[epic]? with
  | none => rfl
  | some owner =>
    by_cases howner : owner = peer <;> simp [howner]

/-- What losing a peer that is connected comes to. -/
theorem lose_eq {peer : Bytes} (h : peer ∈ s.mesh.peers) : s.lose peer =
    { s with
      mesh := s.mesh.drop peer
      told := s.told ++ [peerDisconnected peer] }.onPeerDisconnected peer := if_pos h

theorem link_lose {peer : Bytes} (h : peer ∈ s.mesh.peers) (other : Bytes) :
    (s.lose peer).link other = if other = peer then none else s.link other := by
  have hlink := @link_told s (s.lose peer) (peerDisconnected peer)
    (by rw [lose_eq h]; rfl) (by rw [lose_eq h]; rfl) (by rw [lose_eq h]; rfl) other
  rw [hlink]
  split
  · rename_i heq
    rw [heq, follow_peerDisconnected]
  · rename_i hne
    exact follow_other fun heq ↦ hne heq.symm

theorem peers_lose {peer : Bytes} (h : peer ∈ s.mesh.peers) :
    (s.lose peer).mesh.peers = s.mesh.peers.filter (· ≠ peer) := by
  rw [lose_eq h]
  rfl

/-- A lost peer ends its own link. -/
theorem Linked.lose (h : s.Linked) (peer : Bytes) : (s.lose peer).Linked := by
  by_cases hpeer : peer ∈ s.mesh.peers
  swap
  · rw [Presence.lose, if_neg hpeer]
    exact h
  have hlink := link_lose hpeer
  have hown : (s.lose peer).epicAccountId = s.epicAccountId := by rw [lose_eq hpeer]; rfl
  have hsome (other : Bytes) (l : Link) :
      (s.lose peer).link other = some l ↔ other ≠ peer ∧ s.link other = some l := by
    rw [hlink]
    split <;> simp_all
  refine ⟨?_, ?_, ?_, ?_, ?_, ?_, ?_⟩
  · intro other
    rw [peers_lose hpeer, List.mem_filter, h.connected]
    simp only [hsome, exists_and_left, decide_eq_true_eq, and_comm]
  · intro p p' l l' hp hp'
    exact h.apart p p' l l' ((hsome p l).1 hp).2 ((hsome p' l').1 hp').2
  · intro other hother
    rw [peers_lose hpeer, List.mem_filter] at hother
    have huser : (s.lose peer).productUserId = s.productUserId := by rw [lose_eq hpeer]; rfl
    rw [huser]
    exact h.named other hother.1
  · intro other epic
    have hbound : (s.lose peer).peerEpic = s.peerEpic.erase peer := by rw [lose_eq hpeer]; rfl
    rw [hbound, lookup_erase]
    by_cases hother : peer = other
    · subst hother
      simp [hsome]
    · rw [if_neg hother, h.bound]
      simp only [hsome, ne_comm.1 hother, ne_eq, not_false_eq_true, true_and]
  · intro epic owner
    have howner := owner_onPeerDisconnected
      { s with mesh := s.mesh.drop peer, told := s.told ++ [peerDisconnected peer] } peer epic
    rw [lose_eq hpeer, howner, ← lose_eq hpeer]
    simp only [hsome]
    constructor
    · intro hlookup
      split at hlookup
      · cases hlookup
      · rename_i hne
        obtain ⟨l, info, hl, hlast, hepic⟩ := (h.owned epic owner).1 hlookup
        refine ⟨l, info, ⟨fun heq ↦ hne ?_, hl⟩, hlast, hepic⟩
        rw [← heq]
        exact hlookup
    · rintro ⟨l, info, ⟨hne, hl⟩, hlast, hepic⟩
      have hlookup := (h.owned epic owner).2 ⟨l, info, hl, hlast, hepic⟩
      rw [if_neg fun heq ↦ hne (Option.some.inj (hlookup.symm.trans heq))]
      exact hlookup
  · intro epic info hepic
    rw [hown] at hepic
    have hheld := lookup_onPeerDisconnected
      { s with mesh := s.mesh.drop peer, told := s.told ++ [peerDisconnected peer] } peer epic
    rw [lose_eq hpeer, hheld, ← lose_eq hpeer]
    simp only [hsome]
    constructor
    · intro hlookup
      split at hlookup
      · cases hlookup
      · rename_i hne
        obtain ⟨p, l, hl, hlast, heq⟩ := (h.held epic info hepic).1 hlookup
        refine ⟨p, l, ⟨fun hp ↦ hne ?_, hl⟩, hlast, heq⟩
        exact (h.owned epic peer).2 ⟨l, info, hp ▸ hl, hlast, heq⟩
    · rintro ⟨p, l, ⟨hne, hl⟩, hlast, heq⟩
      have howner := (h.owned epic p).2 ⟨l, info, hl, hlast, heq⟩
      rw [if_neg fun heq' ↦ hne (Option.some.inj (howner.symm.trans heq'))]
      exact (h.held epic info hepic).2 ⟨p, l, hl, hlast, heq⟩
  · intro p l info hl hlast
    rw [hown]
    exact h.about p l info ((hsome p l).1 hl).2 hlast

/-! ## Sends -/

/-- The state once the router took `list`. -/
def handed (s : Presence) (losses : List (List Bytes)) (list : List (Bytes × PresenceMessage)) :
    Presence :=
  { s with mesh := { s.mesh with losses, sent := s.mesh.sent ++ list } }

/-- **The rule of a send**: it hands over the message, and loses some peers. -/
theorem sendTo_invariant {I : Presence → Prop} {message : PresenceMessage}
    (hhanded : ∀ s losses list, (∀ p ∈ list, p.2 = message) → I s → I (s.handed losses list))
    (hlose : ∀ s peer, I s → I (s.lose peer)) (h : I s) (peer : Bytes) :
    I (s.sendTo peer message) := by
  have hfold (lost : List Bytes) (s : Presence) (h : I s) : I (lost.foldl lose s) := by
    induction lost generalizing s with
    | nil => exact h
    | cons p lost ih => exact ih _ (hlose s p h)
  rw [sendTo, Mesh.send]
  cases s.mesh.recipients peer with
  | nil => exact h
  | cons first rest =>
    exact hfold _ _ (hhanded s s.mesh.losses.tail ((first :: rest).map fun p ↦ (p, message))
      (by simp) h)

theorem foldl_sendTo_invariant {I : Presence → Prop} {message : PresenceMessage}
    (hhanded : ∀ s losses list, (∀ p ∈ list, p.2 = message) → I s → I (s.handed losses list))
    (hlose : ∀ s peer, I s → I (s.lose peer)) (h : I s) (peers : List Bytes) :
    I (peers.foldl (fun s peer ↦ s.sendTo peer message) s) := by
  induction peers generalizing s with
  | nil => exact h
  | cons peer peers ih => exact ih (sendTo_invariant hhanded hlose h peer)

/-- What a number of sends leave: the links of the peers that stay, our own presence, and what the
game staged. -/
structure Later (message : PresenceMessage) (s s' : Presence) : Prop where
  own : s'.epicAccountId = s.epicAccountId
  user : s'.productUserId = s.productUserId
  product : s'.productId = s.productId
  staying : ∀ peer ∈ s'.mesh.peers, peer ∈ s.mesh.peers ∧ s'.link peer = s.link peer
  ownEntry : s'.presences[s.epicAccountId]? = s.presences[s.epicAccountId]?
  modifications : s'.modifications = s.modifications
  posted : ∃ list : List (Bytes × PresenceMessage),
    s'.mesh.sent = s.mesh.sent ++ list ∧ ∀ p ∈ list, p.2 = message

theorem Later.refl (message : PresenceMessage) (s : Presence) : Later message s s :=
  ⟨rfl, rfl, rfl, fun _ h ↦ ⟨h, rfl⟩, rfl, rfl, [], by simp, by simp⟩

theorem Later.handed {message : PresenceMessage} (h : Later message s s')
    (losses : List (List Bytes)) {list : List (Bytes × PresenceMessage)}
    (hlist : ∀ p ∈ list, p.2 = message) : Later message s (s'.handed losses list) := by
  obtain ⟨before, hbefore, hsame⟩ := h.posted
  refine ⟨h.own, h.user, h.product, h.staying, h.ownEntry, h.modifications, before ++ list, ?_, ?_⟩
  · rw [Presence.handed, ← List.append_assoc, ← hbefore]
  · exact List.forall_mem_append.2 ⟨hsame, hlist⟩

theorem Later.lose {message : PresenceMessage} (h : Later message s s') (hlinked : s'.Linked)
    (peer : Bytes) : Later message s (s'.lose peer) := by
  by_cases hpeer : peer ∈ s'.mesh.peers
  swap
  · rw [Presence.lose, if_neg hpeer]
    exact h
  have hlink := link_lose hpeer
  have hpeers := peers_lose hpeer
  refine ⟨?_, ?_, ?_, ?_, ?_, ?_, ?_⟩
  · rw [lose_eq hpeer]; exact h.own
  · rw [lose_eq hpeer]; exact h.user
  · rw [lose_eq hpeer]; exact h.product
  · intro other hother
    rw [hpeers, List.mem_filter, decide_eq_true_eq] at hother
    obtain ⟨hmem, hsame⟩ := h.staying other hother.1
    exact ⟨hmem, by rw [hlink, if_neg hother.2, hsame]⟩
  · have hunowned : s'.epicOwner[s.epicAccountId]? = none := h.own ▸ hlinked.own_unowned
    rw [lose_eq hpeer, lookup_onPeerDisconnected, if_neg (by rw [hunowned]; simp)]
    exact h.ownEntry
  · rw [lose_eq hpeer]; exact h.modifications
  · rw [lose_eq hpeer]; exact h.posted

/-- Sends keep what the tables hold, and leave the rest. -/
theorem Linked.foldl_sendTo (h : s.Linked) (message : PresenceMessage) (peers : List Bytes) :
    (peers.foldl (fun s peer ↦ s.sendTo peer message) s).Linked ∧
      Later message s (peers.foldl (fun s peer ↦ s.sendTo peer message) s) :=
  foldl_sendTo_invariant (I := fun s' ↦ s'.Linked ∧ Later message s s')
    (fun _ losses _ hlist h ↦
      ⟨h.1.congr (fun _ ↦ rfl) rfl rfl rfl rfl rfl fun _ _ ↦ rfl, h.2.handed losses hlist⟩)
    (fun _ peer h ↦ ⟨h.1.lose peer, h.2.lose h.1 peer⟩) ⟨h, .refl message s⟩ peers

/-- A broadcast is of our own presence. -/
theorem broadcastMyPresence_of_some {self : PresenceInfo}
    (h : s.findPresence s.epicAccountId = some self) (toPeer : Bytes) :
    s.broadcastMyPresence toPeer = (if toPeer ≠ [] then [toPeer] else s.mesh.peers).foldl
      (fun s peer ↦ s.sendTo peer (.info self)) s := by
  rw [broadcastMyPresence, h]

theorem Linked.broadcast (h : s.Linked) (toPeer : Bytes) :
    (s.broadcastMyPresence toPeer).Linked ∧
      ∃ message, Later message s (s.broadcastMyPresence toPeer) := by
  cases hself : s.findPresence s.epicAccountId with
  | none =>
    rw [broadcastMyPresence, hself]
    exact ⟨h, .request {}, .refl _ s⟩
  | some self =>
    rw [broadcastMyPresence_of_some hself]
    obtain ⟨hlinked, hlater⟩ := h.foldl_sendTo (.info self) _
    exact ⟨hlinked, .info self, hlater⟩

/-! ## One peer at a time -/

/-- What `peer` leaves of everybody else: our own presence, and the links of those who stay. -/
structure Spares (peer : Bytes) (s s' : Presence) : Prop where
  own : s'.epicAccountId = s.epicAccountId
  ownEntry : s'.presences[s.epicAccountId]? = s.presences[s.epicAccountId]?
  staying : ∀ other ∈ s'.mesh.peers, other ≠ peer → s'.link other = s.link other

theorem Spares.later {peer : Bytes} {message : PresenceMessage} {s'' : Presence}
    (h : Spares peer s s') (hlater : Later message s' s'') : Spares peer s s'' where
  own := hlater.own.trans h.own
  ownEntry := by rw [← h.ownEntry, ← h.own, hlater.ownEntry]
  staying := fun other hother hne ↦ by
    obtain ⟨hmem, hsame⟩ := hlater.staying other hother
    rw [hsame, h.staying other hmem hne]

/-! ### A peer joins -/

/-- The tables once a peer joined, before it is sent anything. -/
def joined (s : Presence) (peer epic gameId : Bytes) : Presence :=
  { s with
    mesh := { s.mesh with peers := s.mesh.peers ++ [peer] }
    told := s.told ++ [peerConnected peer epic gameId]
    peerEpic := if epic = [] then s.peerEpic else s.peerEpic.insert peer epic }

theorem hear_peerConnected {peer : Bytes} (hname : peer ≠ [] ∧ peer ≠ s.productUserId)
    (epic gameId : Bytes) :
    { s with mesh := { s.mesh with peers := s.mesh.peers ++ [peer] } }.hear
      (peerConnected peer epic gameId) =
    if gameId = [] ∨ gameId = s.productId then
      (s.joined peer epic gameId).broadcastMyPresence peer
    else s.joined peer epic gameId := by
  have hsource : ¬ (peer = [] ∨ peer = s.productUserId) := not_or.2 hname
  rw [hear, onNetworkMessage, if_neg (by exact hsource), if_pos (by rfl), onPeerConnected, joined]
  by_cases hepic : epic = []
  · simp [peerConnected, hepic]
  · simp [peerConnected, hepic]

theorem link_joined (peer epic gameId other : Bytes) :
    (s.joined peer epic gameId).link other = if other =
    peer then some { epic } else s.link other := by
  rw [@link_told s (s.joined peer epic gameId) (peerConnected peer epic gameId) rfl rfl rfl]
  split
  · rename_i heq
    rw [heq, follow_peerConnected]
  · rename_i hne
    exact follow_other fun heq ↦ hne heq.symm

theorem Linked.joined (h : s.Linked) {peer epic : Bytes}
    (hname : peer ≠ [] ∧ peer ≠ s.productUserId) (hnew : peer ∉ s.mesh.peers)
    (hfree : s.epicFree epic = true) (gameId : Bytes) : (s.joined peer epic gameId).Linked := by
  have hlink := fun other ↦ link_joined (s := s) peer epic gameId other
  have hnolink (l : Link) : s.link peer ≠ some l := fun hl ↦ hnew ((h.connected peer).2 ⟨l, hl⟩)
  have hsome (other : Bytes) (l : Link) : (s.joined peer epic gameId).link other = some l ↔
      (other = peer ∧ l = { epic }) ∨ s.link other = some l := by
    rw [hlink]
    by_cases hother : other = peer
    · subst hother
      simp [hnolink, eq_comm]
    · simp [hother]
  -- What a new peer announced last is nothing.
  have hlast (other : Bytes) (l : Link) (info : PresenceInfo) (hl : l.last = some info) :
      (s.joined peer epic gameId).link other = some l ↔ s.link other = some l := by
    rw [hsome]
    refine or_iff_right fun ⟨_, heq⟩ ↦ ?_
    rw [heq] at hl
    cases hl
  have hfree' (other : Bytes) (l : Link) (hl : s.link other = some l) (hepic : epic ≠ []) :
      l.epic ≠ epic := by
    rw [epicFree, decide_eq_true_eq, List.all_eq_true] at hfree
    have hbound := hfree.resolve_left hepic other ((h.connected other).2 ⟨l, hl⟩)
    rw [decide_eq_true_eq, h.bound] at hbound
    exact fun heq ↦ hbound ⟨hepic, l, hl, heq⟩
  refine ⟨?_, ?_, ?_, ?_, ?_, ?_, ?_⟩
  · intro other
    have hmem : other ∈ (s.joined peer epic gameId).mesh.peers ↔
        other ∈ s.mesh.peers ∨ other = peer := by
      rw [Presence.joined, List.mem_append, List.mem_singleton]
    rw [hmem, h.connected]
    simp only [hsome, exists_or, exists_and_left, exists_eq, and_true, or_comm]
  · intro p p' l l' hp hp' heq hne
    rcases (hsome p l).1 hp with ⟨hpeer, hl⟩ | hold
    · rcases (hsome p' l').1 hp' with ⟨hpeer', -⟩ | hold'
      · rw [hpeer, hpeer']
      · rw [hl] at heq hne
        exact absurd heq.symm (hfree' p' l' hold' hne)
    · rcases (hsome p' l').1 hp' with ⟨-, hl'⟩ | hold'
      · rw [heq, hl'] at hne
        rw [hl'] at heq
        exact absurd heq (hfree' p l hold hne)
      · exact h.apart p p' l l' hold hold' heq hne
  · intro other hother
    rw [Presence.joined, List.mem_append, List.mem_singleton] at hother
    rcases hother with hother | rfl
    · exact h.named other hother
    · exact hname
  · intro other account
    have hnone (account : Bytes) : s.peerEpic[peer]? ≠ some account := fun hbound ↦ by
      obtain ⟨-, l, hl, -⟩ := (h.bound _ _).1 hbound
      exact hnolink l hl
    have hlookup : (s.joined peer epic gameId).peerEpic[other]? =
        if other = peer ∧ epic ≠ [] then some epic else s.peerEpic[other]? := by
      change (if epic = [] then s.peerEpic else s.peerEpic.insert peer epic)[other]? = _
      by_cases hepic : epic = []
      · simp [hepic]
      · rw [if_neg hepic, lookup_insert]
        simp only [ne_eq, hepic, not_false_eq_true, and_true, eq_comm]
    rw [hlookup]
    by_cases hother : other = peer
    · subst hother
      by_cases hepic : epic = []
      · subst hepic
        simp [hsome, hnone, hnolink]
      · simp only [ne_eq, hepic, not_false_eq_true, and_self, if_true, Option.some.injEq, hsome,
          hnolink, or_false, true_and, exists_eq_left]
        exact ⟨fun heq ↦ ⟨heq ▸ hepic, heq⟩, fun heq ↦ heq.2⟩
    · simp only [hother, false_and, if_false, h.bound, hsome, false_or]
  · intro account owner
    rw [show (s.joined peer epic gameId).epicOwner = s.epicOwner from rfl, h.owned]
    constructor
    · rintro ⟨l, info, hl, hinfo, heq⟩
      exact ⟨l, info, (hlast owner l info hinfo).2 hl, hinfo, heq⟩
    · rintro ⟨l, info, hl, hinfo, heq⟩
      exact ⟨l, info, (hlast owner l info hinfo).1 hl, hinfo, heq⟩
  · intro account info haccount
    rw [show (s.joined peer epic gameId).presences = s.presences from rfl,
      h.held account info haccount]
    constructor
    · rintro ⟨p, l, hl, hinfo, heq⟩
      exact ⟨p, l, (hlast p l info hinfo).2 hl, hinfo, heq⟩
    · rintro ⟨p, l, hl, hinfo, heq⟩
      exact ⟨p, l, (hlast p l info hinfo).1 hl, hinfo, heq⟩
  · intro p l info hl hinfo
    exact h.about p l info ((hlast p l info hinfo).1 hl) hinfo

theorem Spares.joined (peer epic gameId : Bytes) : Spares peer s (s.joined peer epic gameId) where
  own := rfl
  ownEntry := rfl
  staying := fun other _ hne ↦ by rw [link_joined, if_neg hne]

/-! ### A peer speaks -/

/-- The instance once it was told of `message`. -/
def noted (s : Presence) (message : NetEnvelope) : Presence :=
    { s with told := s.told ++ [message] }

theorem link_noted (message : NetEnvelope) (peer : Bytes) : (s.noted message).link peer =
    follow s.epicAccountId s.productId peer (s.link peer) message :=
  @link_told s (s.noted message) message rfl rfl rfl peer

theorem Spares.noted (message : NetEnvelope) : Spares message.sourceId s (s.noted message) where
  own := rfl
  ownEntry := rfl
  staying := fun other _ hne ↦ by rw [link_noted, follow_other (ne_comm.1 hne)]

/-- A message that announces nothing changes no link. -/
theorem Linked.noted (h : s.Linked) {message : NetEnvelope} (hlife : isLifecycle message = false)
    (hnone : ∀ l, s.link message.sourceId = some l →
      announced s.epicAccountId s.productId l.epic message = none) : (s.noted message).Linked := by
  have hlink (peer : Bytes) : (s.noted message).link peer = s.link peer := by
    rw [link_noted]
    by_cases hpeer : message.sourceId = peer
    · exact follow_of_announced_none hlife fun l hl ↦ hnone l (by rw [hpeer, hl])
    · exact follow_other hpeer
  exact h.congr hlink rfl rfl rfl rfl rfl fun _ _ ↦ rfl

theorem link_store {message : NetEnvelope} (hlife : isLifecycle message = false) {l : Link}
    (hl : s.link message.sourceId = some l) {info : PresenceInfo}
    (hinfo : announced s.epicAccountId s.productId l.epic message = some info) (peer : Bytes) :
    ((s.noted message).store message.sourceId info).link peer =
      if peer = message.sourceId then some { l with last := some info } else s.link peer := by
  have hstore : ((s.noted message).store message.sourceId info).link peer =
      (s.noted message).link peer := link_congr rfl rfl rfl peer
  rw [hstore, link_noted]
  split
  · rename_i heq
    rw [heq, hl, follow_of_announced hlife rfl hinfo]
  · rename_i hother
    exact follow_other (ne_comm.1 hother)

/-- Once a peer has announced, its account is spoken for by it alone and in what it said; of the
other accounts the same is said as before. -/
theorem Linked.says_iff (h : s.Linked) {peer : Bytes} {l : Link} (hl : s.link peer = some l)
    (hne : l.epic ≠ []) {info : PresenceInfo} (hlink : ∀ other, s'.link other =
      if other = peer then some { l with last := some info } else s.link other)
    {other account : Bytes} {info' : PresenceInfo} :
    (∃ k, s'.link other = some k ∧ k.last = some info' ∧ k.epic = account) ↔
      if l.epic = account then other = peer ∧ info' = info
      else ∃ k, s.link other = some k ∧ k.last = some info' ∧ k.epic = account := by
  rw [hlink]
  by_cases hother : other = peer
  · subst hother
    by_cases haccount : l.epic = account
    · simp [haccount, eq_comm]
    · simp [hl, haccount]
  · rw [if_neg hother]
    split
    · rename_i haccount
      constructor
      · rintro ⟨k, hk, -, hepic⟩
        -- Nobody else has the account of a peer.
        have hsame : k.epic = l.epic := hepic.trans haccount.symm
        exact absurd (h.apart other peer k l hk hl hsame (hsame ▸ hne)) hother
      · exact fun heq ↦ absurd heq.1 hother
    · rfl

/-- A message that announces something becomes what its peer announced last. -/
theorem Linked.store (h : s.Linked) {message : NetEnvelope} (hlife : isLifecycle message = false)
    {l : Link} (hl : s.link message.sourceId = some l) {info : PresenceInfo}
    (hinfo : announced s.epicAccountId s.productId l.epic message = some info) :
    ((s.noted message).store message.sourceId info).Linked := by
  obtain ⟨hepic, hne, hown⟩ := announced_epicId hinfo
  have hlink := link_store hlife hl hinfo
  have hepics (peer account : Bytes) :
      (∃ k, ((s.noted message).store message.sourceId info).link peer = some k ∧
        k.epic = account) ↔ ∃ k, s.link peer = some k ∧ k.epic = account := by
    rw [hlink]
    by_cases hpeer : peer = message.sourceId <;> simp [hpeer, hl]
  refine ⟨?_, ?_, h.named, ?_, ?_, ?_, ?_⟩
  · intro peer
    refine (h.connected peer).trans ?_
    rw [hlink]
    by_cases hpeer : peer = message.sourceId <;> simp [hpeer, hl]
  · intro p p' k k' hk hk' heq hne'
    obtain ⟨j, hj, hjepic⟩ := (hepics p k.epic).1 ⟨k, hk, rfl⟩
    obtain ⟨j', hj', hjepic'⟩ := (hepics p' k'.epic).1 ⟨k', hk', rfl⟩
    exact h.apart p p' j j' hj hj' (by rw [hjepic, hjepic', heq]) (hjepic ▸ hne')
  · intro peer account
    rw [hepics]
    exact h.bound peer account
  · intro account owner
    change (s.epicOwner.insert info.epicId message.sourceId)[account]? = _ ↔ _
    rw [lookup_insert, hepic, exists_comm]
    simp only [h.says_iff hl hne hlink]
    split
    · simp [eq_comm]
    · rw [h.owned, exists_comm]
  · intro account info' haccount
    change (s.presences.insert info.epicId info)[account]? = _ ↔ _
    rw [lookup_insert, hepic]
    simp only [h.says_iff hl hne hlink]
    split
    · simp [eq_comm]
    · exact h.held account info' haccount
  · intro peer k info' hk hlast
    have hsaid := (h.says_iff hl hne hlink).1 ⟨k, hk, hlast, rfl⟩
    split at hsaid
    · rename_i haccount
      rw [← haccount, hsaid.2]
      exact ⟨hepic, hne, hown⟩
    · obtain ⟨k', hk', hlast', hepic'⟩ := hsaid
      rw [← hepic']
      exact h.about peer k' info' hk' hlast'

/-- Storing an announcement leaves our own presence. -/
theorem Spares.store {peer : Bytes} (h : Spares peer s s') {info : PresenceInfo}
    (hown : info.epicId ≠ s.epicAccountId) : Spares peer s (s'.store peer info) where
  own := h.own
  ownEntry := by
    rw [← h.ownEntry]
    exact (lookup_insert _ _ _ _).trans (if_neg hown)
  staying := fun other hother hne ↦ by
    rw [← h.staying other hother hne]
    exact link_congr rfl rfl rfl other

/-- What a presence message does: it is stored if it is valid and about the account of its
sender. -/
theorem onInfo_eq (h : s.Linked) {message : NetEnvelope} {l : Link}
    (hl : s.link message.sourceId = some l) (hgame : message.gameId = s.productId)
    (htag : message.typeTag = MessageType.presenceInfo.tag) :
    (s.noted message).onInfo message.sourceId message.payload =
      match announced s.epicAccountId s.productId l.epic message with
      | none => s.noted message
      | some info => (s.noted message).store message.sourceId info := by
  rw [onInfo, announced, if_pos ⟨hgame, htag⟩]
  cases hread : PresenceInfo.deserialize.run message.payload with
  | none => rfl
  | some result =>
    obtain ⟨info, rest⟩ := result
    simp only [Option.map_some, Option.filter_some]
    have hproved : (s.noted message).peerEpic[message.sourceId]? = some info.epicId ↔
        info.epicId ≠ [] ∧ info.epicId = l.epic := by
      refine (h.bound _ _).trans (and_congr_right fun _ ↦ ?_)
      rw [hl]
      exact ⟨fun ⟨k, hk, heq⟩ ↦ by cases hk; exact heq.symm, fun heq ↦ ⟨l, rfl, heq.symm⟩⟩
    by_cases hepic : info.epicId = [] ∨ info.epicId = s.epicAccountId
    · have hinvalid : ¬ (presenceWithinCaps info = true ∧ info.epicId = l.epic ∧ l.epic ≠ [] ∧
          l.epic ≠ s.epicAccountId) := by
        rintro ⟨-, heq, hne, hown⟩
        rcases hepic with hepic | hepic
        · exact hne (heq ▸ hepic)
        · exact hown (heq ▸ hepic)
      rw [if_pos (by exact hepic), decide_eq_false hinvalid]
      rfl
    · rw [if_neg (by exact hepic)]
      rw [not_or] at hepic
      by_cases hvalid : presenceWithinCaps info = true ∧ info.epicId = l.epic
      · have hne : l.epic ≠ [] := hvalid.2 ▸ hepic.1
        have hown : l.epic ≠ s.epicAccountId := hvalid.2 ▸ hepic.2
        rw [if_neg (not_not.2 hvalid.1), if_neg (not_not.2 (hproved.2 ⟨hepic.1, hvalid.2⟩)),
          decide_eq_true ⟨hvalid.1, hvalid.2, hne, hown⟩]
        rfl
      · rw [decide_eq_false fun hall ↦ hvalid ⟨hall.1, hall.2.1⟩]
        split
        · rfl
        · rename_i hcaps
          rw [not_not] at hcaps
          rw [if_pos fun heq ↦ hvalid ⟨hcaps, (hproved.1 heq).2⟩]
          rfl

/-- A message of a connected peer keeps the tables, and spares everybody else. -/
theorem Linked.hear (h : s.Linked) {message : NetEnvelope}
    (hsource : message.sourceId ∈ s.mesh.peers) (hlife : isLifecycle message = false) :
    (s.hear message).Linked ∧ Spares message.sourceId s (s.hear message) := by
  obtain ⟨l, hl⟩ := (h.connected _).1 hsource
  have hnot : ¬ (message.typeTag = MessageType.peerConnected.tag ∨
      message.typeTag = MessageType.peerDisconnected.tag) := by simpa [isLifecycle] using hlife
  rw [not_or] at hnot
  -- A message that is no valid announcement leaves the links, whatever is sent about it.
  have hquiet (hnone : announced s.epicAccountId s.productId l.epic message = none) :
      (s.noted message).Linked := by
    refine h.noted hlife fun k hk ↦ ?_
    rw [hl] at hk
    cases hk
    exact hnone
  rw [Presence.hear, onNetworkMessage, if_neg (by exact not_or.2 (h.named _ hsource)),
    if_neg hnot.1, if_neg hnot.2]
  change Linked (if message.gameId ≠ s.productId then s.noted message else _) ∧
    Spares _ s (if message.gameId ≠ s.productId then s.noted message else _)
  by_cases hgame : message.gameId = s.productId
  swap
  · rw [if_pos hgame]
    exact ⟨hquiet (if_neg fun hboth ↦ hgame hboth.1), .noted message⟩
  rw [if_neg (not_not.2 hgame)]
  by_cases hrequest : message.typeTag = MessageType.presenceRequest.tag
  · have hlinked := hquiet (if_neg fun hboth ↦ by
      rw [hrequest] at hboth
      exact absurd hboth.2 (by decide))
    rw [if_pos hrequest]
    change Linked ((s.noted message).onRequest _ _) ∧ Spares _ s ((s.noted message).onRequest _ _)
    rw [onRequest]
    split
    · exact ⟨hlinked, .noted message⟩
    · split
      · obtain ⟨hkept, _, hlater⟩ := hlinked.broadcast message.sourceId
        exact ⟨hkept, (Spares.noted message).later hlater⟩
      · exact ⟨hlinked, .noted message⟩
  rw [if_neg hrequest]
  by_cases hinfo : message.typeTag = MessageType.presenceInfo.tag
  · rw [if_pos hinfo]
    change Linked ((s.noted message).onInfo _ _) ∧ Spares _ s ((s.noted message).onInfo _ _)
    rw [onInfo_eq h hl hgame hinfo]
    cases hann : announced s.epicAccountId s.productId l.epic message with
    | none => exact ⟨hquiet hann, .noted message⟩
    | some info =>
      obtain ⟨hepic, -, hown⟩ := announced_epicId hann
      exact ⟨h.store hlife hl hann, (Spares.noted message).store (hepic ▸ hown)⟩
  · rw [if_neg hinfo]
    exact ⟨hquiet (if_neg fun hboth ↦ hinfo hboth.2), .noted message⟩

/-! ## The game -/

/-- A call that changes no table keeps them. -/
theorem Linked.withModifications (h : s.Linked)
    (modifications : HandleStore PresenceModificationObject)
    (nextHandle : GameHandle) : { s with modifications, nextHandle }.Linked :=
  h.congr (fun _ ↦ rfl) rfl rfl rfl rfl rfl fun _ _ ↦ rfl

theorem Linked.withQueries (h : s.Linked)
    (pendingQueries : TreeMap ResultAddress PendingPresenceQuery) :
    { s with pendingQueries }.Linked :=
  h.congr (fun _ ↦ rfl) rfl rfl rfl rfl rfl fun _ _ ↦ rfl

/-- Our own presence is no part of it. -/
theorem Linked.withOwn (h : s.Linked) {user : Bytes} (huser : user = s.epicAccountId)
    (self : PresenceInfo) : { s with presences := s.presences.insert user self }.Linked :=
  h.congr (fun _ ↦ rfl) rfl rfl rfl rfl rfl fun epic hepic ↦ by
    rw [lookup_insert, if_neg (huser ▸ ne_comm.1 hepic)]

theorem Linked.modify (h : s.Linked) (handle : GameHandle) (version : Int32)
    (edit : PresenceModificationObject → Except ResultCode PresenceModificationObject) :
    (s.modify handle version edit).2.Linked := by
  rw [Presence.modify]
  split
  · exact h
  · split
    · exact h
    · split
      · exact h
      · exact h.withModifications _ _

theorem Linked.seedMyself (h : s.Linked) : s.seedMyself.Linked := by
  rw [Presence.seedMyself]
  split
  · exact h
  · exact h.withOwn rfl _

theorem Linked.withSelf (h : s.Linked) (user : Bytes) : (s.withSelf user).Linked := by
  rw [Presence.withSelf]
  split
  · exact h
  · exact h.seedMyself

@[simp] theorem withSelf_epicAccountId (s : Presence) (user : Bytes) :
    (s.withSelf user).epicAccountId = s.epicAccountId := by
  rw [withSelf, seedMyself]
  split
  · rfl
  · split <;> rfl

theorem Linked.setPresence (h : s.Linked) (o : SetPresenceOptions) :
    (s.setPresence o).2.Linked := by
  rw [Presence.setPresence]
  split
  · exact h
  rename_i user _
  split
  · exact h
  split
  · exact h
  rename_i huser
  have hself := h.withSelf user
  split
  · exact h
  dsimp only
  split
  · exact hself
  split
  · exact hself
  · have huser' : user = (s.withSelf user).epicAccountId := by
      rw [withSelf_epicAccountId]
      exact not_not.1 huser
    exact ((hself.withOwn huser' _).broadcast []).1

theorem Linked.call (h : s.Linked) (c : Call) : (s.call c).Linked := by
  cases c with
  | queryPresence o now address =>
    change (s.queryPresence o now address).2.Linked
    rw [Presence.queryPresence]
    split
    · split
      · exact h
      · split
        · exact h
        · split
          · exact h
          · exact ((h.withQueries _).foldl_sendTo _ _).1
    · exact h
  | createPresenceModification version user =>
    change (s.createPresenceModification version user).2.2.Linked
    unfold createPresenceModification
    split
    · exact h
    · split
      · exact h
      · split
        · exact h
        · exact h.withModifications _ _
  | setPresence o => exact h.setPresence o
  | modificationSetStatus handle o => exact h.modify _ _ _
  | modificationSetRawRichText handle o => exact h.modify _ _ _
  | modificationSetData handle o => exact h.modify _ _ _
  | modificationDeleteData handle o => exact h.modify _ _ _
  | modificationSetJoinInfo handle o => exact h.modify _ _ _
  | modificationSetTemplate handle o => exact h.modify _ _ _
  | modificationRelease handle => exact h.withModifications _ _

theorem Linked.collect (h : s.Linked) (address : ResultAddress) (now : Nat) :
    (s.collect address now).Linked := by
  rw [Presence.collect]
  split
  · exact h
  · split
    · exact h.withQueries _
    · exact h

/-! ## The machine -/

/-- **The step rule**: the tables are kept, and whoever spoke spares everybody else. -/
theorem Linked.step (h : s.Linked) {i : Input} (hstep : s.step i = some s') :
    s'.Linked ∧ ∀ peer, i.source = some peer → Spares peer s s' := by
  cases i with
  | connect peer epic gameId =>
    rw [Presence.step] at hstep
    split at hstep
    · cases hstep
    · rename_i hguard
      simp only [not_or, not_not] at hguard
      obtain ⟨hne, hown, hnew, hfree⟩ := hguard
      cases hstep
      rw [hear_peerConnected ⟨hne, hown⟩]
      have hjoined := h.joined ⟨hne, hown⟩ hnew hfree gameId
      have hspares : Spares peer s (s.joined peer epic gameId) := .joined peer epic gameId
      split
      · obtain ⟨hkept, _, hlater⟩ := hjoined.broadcast peer
        exact ⟨hkept, fun p hp ↦ by cases hp; exact hspares.later hlater⟩
      · exact ⟨hjoined, fun p hp ↦ by cases hp; exact hspares⟩
  | disconnect peer =>
    rw [Presence.step] at hstep
    split at hstep
    · rename_i hpeer
      cases hstep
      refine ⟨h.lose peer, fun p hp ↦ ?_⟩
      cases hp
      have hlater : Later (.request {}) s (s.lose peer) := (Later.refl _ s).lose h peer
      exact ⟨hlater.own, hlater.ownEntry, fun other hother _ ↦ (hlater.staying other hother).2⟩
    · cases hstep
  | receive message =>
    rw [Presence.step] at hstep
    split at hstep
    · cases hstep
    · rename_i hguard
      rw [not_or, not_not, Bool.not_eq_true] at hguard
      cases hstep
      obtain ⟨hkept, hspares⟩ := h.hear hguard.1 hguard.2
      exact ⟨hkept, fun p hp ↦ by cases hp; exact hspares⟩
  | call c =>
    cases hstep
    exact ⟨h.call c, fun _ hp ↦ by cases hp⟩
  | collect address now =>
    cases hstep
    exact ⟨h.collect address now, fun _ hp ↦ by cases hp⟩

theorem linked_start (epic user product : Bytes) (losses : List (List Bytes)) :
    (start epic user product losses).Linked := by
  refine Linked.seedMyself ⟨?_, ?_, ?_, ?_, ?_, ?_, ?_⟩
  all_goals simp [link]

theorem linked_of_reaches {guard : Presence → Input → Prop} (h : s.Linked)
    (hreach : Reaches Presence.step guard s s') : s'.Linked :=
  hreach.invariant h fun _ _ _ hlinked _ hstep ↦ (hlinked.step hstep).1

/-! ## The result -/

/-- Every entry but our own is of a peer that is connected, under the account it was connected with,
and is the last valid presence it announced since; and what it announced last is there. -/
structure Authentic (s : Presence) : Prop where
  entries : ∀ epic info, epic ≠ s.epicAccountId → s.presences[epic]? = some info →
    ∃ peer ∈ s.mesh.peers, s.link peer = some { epic, last := some info }
  kept : ∀ peer ∈ s.mesh.peers, ∀ epic info, s.link peer = some { epic, last := some info } →
    s.presences[epic]? = some info

/-- What `peer` does touches neither our own presence nor that of another peer that stays. -/
def Untouched (peer : Bytes) (s s' : Presence) : Prop :=
  s'.presences[s.epicAccountId]? = s.presences[s.epicAccountId]? ∧
    ∀ other ∈ s'.mesh.peers, other ≠ peer → ∃ l, s'.link other = some l ∧
      s'.presences[l.epic]? = s.presences[l.epic]?

theorem Linked.authentic (h : s.Linked) : s.Authentic where
  entries := fun epic info hepic hentry ↦ by
    obtain ⟨peer, l, hl, hlast, rfl⟩ := (h.held epic info hepic).1 hentry
    exact ⟨peer, (h.connected peer).2 ⟨l, hl⟩, by rw [hl, ← hlast]⟩
  kept := fun peer _ epic info hl ↦ by
    have hown := (h.about peer _ info hl rfl).2.2
    exact (h.held epic info hown).2 ⟨peer, _, hl, rfl, rfl⟩

/-- A peer whose link is the same is listed the same. -/
theorem Linked.untouched (h : s.Linked) (h' : s'.Linked) {peer : Bytes}
    (hspares : Spares peer s s') :
    Untouched peer s s' := by
  refine ⟨hspares.ownEntry, fun other hother hne ↦ ?_⟩
  obtain ⟨l, hl⟩ := (h'.connected other).1 hother
  have hold : s.link other = some l := hspares.staying other hother hne ▸ hl
  refine ⟨l, hl, ?_⟩
  by_cases hown : l.epic = s.epicAccountId
  · rw [hown]
    exact hspares.ownEntry
  have hlisted {t : Presence} (ht : t.Linked) (hsame : t.epicAccountId = s.epicAccountId)
      (hlink : t.link other = some l) : t.presences[l.epic]? = l.last := by
    have hiff (info : PresenceInfo) : t.presences[l.epic]? = some info ↔ l.last = some info := by
      rw [ht.held l.epic info (hsame ▸ hown)]
      refine ⟨fun ⟨p, k, hk, hlast, heq⟩ ↦ ?_, fun hlast ↦ ⟨other, l, hlink, hlast, rfl⟩⟩
      have hp := ht.apart p other k l hk hlink heq (ht.about p k info hk hlast).2.1
      rw [hp, hlink] at hk
      cases hk
      exact hlast
    exact Option.ext hiff
  rw [hlisted h' hspares.own hl, hlisted h rfl hold]

/-- **Presence belongs to its announcer.** -/
theorem presence_authentic {epic user product : Bytes} {losses : List (List Bytes)}
    (h : Reaches Presence.step always (start epic user product losses) s) :
    s.Authentic ∧ ∀ i s' peer, s.step i = some s' → i.source = some peer → Untouched peer s s' := by
  have hlinked := linked_of_reaches (linked_start epic user product losses) h
  refine ⟨hlinked.authentic, fun i s' peer hstep hsource ↦ ?_⟩
  obtain ⟨hkept, hspares⟩ := hlinked.step hstep
  exact hlinked.untouched hkept (hspares peer hsource)

/-- A presence message of `peer`, about whichever account. -/
def announcement (peer product : Bytes) (info : PresenceInfo) : NetEnvelope where
  typeTag := MessageType.presenceInfo.tag
  sourceId := peer
  gameId := product
  payload := info.serialize

/-- Two peers that join; the second speaks for the first, and for us. -/
def announcing : List Input :=
  [.connect [2] [102] [9], .connect [3] [103] [9],
    .receive (announcement [2] [9] { epicId := [102], status := statusOnline, richText := [7] }),
    .receive (announcement [3] [9] { epicId := [102], status := statusOffline }),
    .receive (announcement [3] [9] { epicId := [101], status := statusOffline })]

/-- One of them announces itself, and the word of the other about it is not heard. -/
theorem presence_authentic_announcing : ∃ s : Presence,
    (s.presences[([102] : Bytes)]?.map (·.richText) = some [7] ∧
      s.presences[([101] : Bytes)]?.map (·.status) = some statusOnline) ∧ s.Authentic := by
  obtain ⟨s, hreach, hentries⟩ := exists_reaches Presence.step always (start [101] [1] [9] [[], []])
    (fun s ↦ s.presences[([102] : Bytes)]?.map (·.richText) = some [7] ∧
      s.presences[([101] : Bytes)]?.map (·.status) = some statusOnline)
    announcing (by decide +kernel) (meets_always _ _)
  exact ⟨s, hentries, (presence_authentic hreach).1⟩

end Presence
end EosMesh
