import EosMesh.Interfaces.Presence.Limits

/-!
# What an instance says of itself

Every send of the presence interface is a question or our own presence.  A peer that connects is
told it, whoever asks is told it, and a commit tells everyone.  A send may lose the peer it goes to,
and with it what was said by that peer, so a broadcast is not simply a list of letters.

* `Reached` is what a broadcast comes to, whatever peers it loses: only this message was sent, and
  everyone of those it was for who stayed was sent it.
* `Stepped` is what an input does as far as the other peers can tell: who we are, what we hear from
  each of them, and what we say.  It is all that `Interfaces.Presence.Replicas` needs to know of the
  interface, which puts two instances on a wire.
* `Told` separates what the router tells with an input from what the interface does about it, since
  a peer that connects is first noted and then spoken to.
* `step_stepped` is the step lemma: each of the calls, the messages and the ticks is one of
  `Stepped.silent`, `Told.sends` and `Told.broadcasts`.
-/

set_option autoImplicit false

namespace EosMesh

open Lib
open Std (TreeMap)

namespace Presence

variable {s s' t : Presence} {message : PresenceMessage} {peer : Bytes} {i : Input}
  {list : List (Bytes × PresenceMessage)}

/-- Our own presence. -/
def ownInfo (s : Presence) : Option PresenceInfo := s.findPresence s.epicAccountId

/-! ## A broadcast -/

/-- Only `message` was sent, and everyone of `peers` that stayed was sent it. -/
structure Reached (message : PresenceMessage) (peers : List Bytes) (s s' : Presence)
    (list : List (Bytes × PresenceMessage)) : Prop where
  sent : s'.mesh.sent = s.mesh.sent ++ list
  said : ∀ p ∈ list, p.2 = message
  everyone : ∀ peer ∈ peers, peer ∈ s'.mesh.peers → (peer, message) ∈ list
  staying : s'.mesh.peers ⊆ s.mesh.peers

theorem lose_mesh (s : Presence) (peer : Bytes) :
    (s.lose peer).mesh.sent = s.mesh.sent ∧ (s.lose peer).mesh.peers ⊆ s.mesh.peers := by
  by_cases hpeer : peer ∈ s.mesh.peers
  · rw [peers_lose hpeer, lose_eq hpeer]
    exact ⟨rfl, List.filter_subset_self _⟩
  · rw [lose, if_neg hpeer]
    exact ⟨rfl, List.Subset.refl _⟩

theorem foldl_lose_mesh (s : Presence) (lost : List Bytes) :
    (lost.foldl lose s).mesh.sent = s.mesh.sent ∧
      (lost.foldl lose s).mesh.peers ⊆ s.mesh.peers := by
  induction lost generalizing s with
  | nil => exact ⟨rfl, List.Subset.refl _⟩
  | cons peer lost ih =>
    obtain ⟨hsent, hpeers⟩ := ih (s.lose peer)
    obtain ⟨hsent', hpeers'⟩ := s.lose_mesh peer
    exact ⟨hsent.trans hsent', List.Subset.trans hpeers hpeers'⟩

theorem sendTo_reached (s : Presence) (message : PresenceMessage) (hne : peer ≠ []) :
    ∃ list, Reached message [peer] s (s.sendTo peer message) list := by
  have hnone (peers : List Bytes) (hpeers : peers ⊆ s.mesh.peers)
      (hrecipients : s.mesh.recipients peer = []) : peer ∉ peers := by
    rw [Mesh.recipients, if_neg hne, List.filter_eq_nil_iff] at hrecipients
    exact fun hmem ↦ hrecipients peer (hpeers hmem) (by simp)
  rw [sendTo, Mesh.send]
  cases hrecipients : s.mesh.recipients peer with
  | nil =>
    refine ⟨[], (List.append_nil _).symm, by simp, fun p hp hmem ↦ ?_, List.Subset.refl _⟩
    rw [List.mem_singleton.1 hp] at hmem
    exact absurd hmem (hnone _ (List.Subset.refl _) hrecipients)
  | cons first rest =>
    obtain ⟨hsent, hpeers⟩ := foldl_lose_mesh
      (s.handed s.mesh.losses.tail ((first :: rest).map fun p ↦ (p, message)))
        (s.mesh.losses.headD [])
    refine ⟨_, hsent, by simp, fun p hp hmem ↦ ?_, hpeers⟩
    obtain rfl := List.mem_singleton.1 hp
    have hpeer : p ∈ s.mesh.recipients p := by
      rw [Mesh.recipients, if_neg hne]
      exact List.mem_filter.2 ⟨hpeers hmem, by simp⟩
    rw [hrecipients] at hpeer
    exact List.mem_map.2 ⟨p, hpeer, rfl⟩

theorem foldl_sendTo_reached (s : Presence) (message : PresenceMessage) (peers : List Bytes)
    (hne : ∀ peer ∈ peers, peer ≠ []) :
    ∃ list, Reached message peers s
      (peers.foldl (fun s peer ↦ s.sendTo peer message) s) list := by
  induction peers generalizing s with
  | nil => exact ⟨[], (List.append_nil _).symm, by simp, by simp, List.Subset.refl _⟩
  | cons peer peers ih =>
    obtain ⟨hfirst, hrest⟩ := List.forall_mem_cons.1 hne
    obtain ⟨before, hreached⟩ := s.sendTo_reached message hfirst
    obtain ⟨after, hreached'⟩ := ih (s.sendTo peer message) hrest
    refine ⟨before ++ after, ?_, ?_, ?_, List.Subset.trans hreached'.staying hreached.staying⟩
    · rw [List.foldl_cons, hreached'.sent, hreached.sent, List.append_assoc]
    · exact List.forall_mem_append.2 ⟨hreached.said, hreached'.said⟩
    · intro p hp hmem
      rcases List.mem_cons.1 hp with rfl | hp
      · exact List.mem_append_left _
          (hreached.everyone p List.mem_cons_self (hreached'.staying hmem))
      · exact List.mem_append_right _ (hreached'.everyone p hp hmem)

/-! ## What a step does -/

/-- What the router tells with an input. -/
def Input.telling : Input → Option NetEnvelope
  | .connect peer epic gameId => some (peerConnected peer epic gameId)
  | .receive message => some message
  | .disconnect _ | .call _ | .collect .. => none

/-- What an input comes to for the other peers, `list` being what was sent. -/
structure Stepped (s : Presence) (i : Input) (s' : Presence)
    (list : List (Bytes × PresenceMessage)) : Prop where
  own : s'.epicAccountId = s.epicAccountId
  user : s'.productUserId = s.productUserId
  product : s'.productId = s.productId
  /-- What we have heard from the peers that stay. -/
  links : ∀ peer ∈ s'.mesh.peers, s'.link peer =
    i.telling.elim (s.link peer) (follow s.epicAccountId s.productId peer (s.link peer))
  sent : s'.mesh.sent = s.mesh.sent ++ list
  /-- Nothing is said of ourselves but our presence. -/
  said : ∀ p ∈ list, ∀ info, p.2 = .info info → s'.ownInfo = some info
  /-- It changes by a commit only, and then everyone is told. -/
  news : s'.ownInfo = s.ownInfo ∨ ∃ o staged self, i = .call (.setPresence o) ∧
    s.committing o = some (staged, self) ∧ s'.ownInfo = some (staged.applyTo self) ∧
      ∀ peer ∈ s'.mesh.peers, (peer, .info (staged.applyTo self)) ∈ list
  /-- Whoever connects is told. -/
  greets : ∀ peer epic, i = .connect peer epic s.productId → peer ∈ s'.mesh.peers →
    ∀ info, s'.ownInfo = some info → (peer, .info info) ∈ list

/-- An input that sends nothing and leaves our presence. -/
theorem Stepped.silent (hown : s'.epicAccountId = s.epicAccountId)
    (huser : s'.productUserId = s.productUserId) (hproduct : s'.productId = s.productId)
    (hlinks : ∀ peer ∈ s'.mesh.peers, s'.link peer =
      i.telling.elim (s.link peer) (follow s.epicAccountId s.productId peer (s.link peer)))
    (hsent : s'.mesh.sent = s.mesh.sent)
    (hentry : s'.presences[s.epicAccountId]? = s.presences[s.epicAccountId]?)
    (hquiet : ∀ peer epic, i = .connect peer epic s.productId → s'.ownInfo = none) :
    Stepped s i s' [] where
  own := hown
  user := huser
  product := hproduct
  links := hlinks
  sent := by rw [hsent, List.append_nil]
  said p hp := by cases hp
  news := .inl (by rw [ownInfo, ownInfo, findPresence, findPresence, hown, hentry])
  greets peer epic hi _ info hinfo := by
    rw [hquiet peer epic hi] at hinfo
    cases hinfo

/-- A state that differs from `s` by what the router tells with the input. -/
structure Told (s : Presence) (i : Input) (t : Presence) : Prop where
  own : t.epicAccountId = s.epicAccountId
  user : t.productUserId = s.productUserId
  product : t.productId = s.productId
  links : ∀ peer, t.link peer =
    i.telling.elim (s.link peer) (follow s.epicAccountId s.productId peer (s.link peer))
  sent : t.mesh.sent = s.mesh.sent
  entry : t.presences[s.epicAccountId]? = s.presences[s.epicAccountId]?
  linked : t.Linked

theorem Told.silent (h : Told s i t)
    (hquiet : ∀ peer epic, i = .connect peer epic s.productId → t.ownInfo = none) :
    Stepped s i t [] :=
  .silent h.own h.user h.product (fun peer _ ↦ h.links peer) h.sent h.entry hquiet

theorem Told.ownInfo (h : Told s i t) : t.ownInfo = s.ownInfo := by
  rw [Presence.ownInfo, Presence.ownInfo, findPresence, findPresence, h.own, h.entry]

/-- Once it is told, the sends follow. -/
theorem Told.sends (h : Told s i t) {peers : List Bytes} (hne : ∀ peer ∈ peers, peer ≠ [])
    (hmessage : ∀ info, message = .info info → t.ownInfo = some info)
    (hgreets : ∀ peer epic, i = .connect peer epic s.productId →
      peer ∈ peers ∧ t.ownInfo.map PresenceMessage.info = some message) :
    ∃ list, Stepped s i (peers.foldl (fun s peer ↦ s.sendTo peer message) t) list := by
  obtain ⟨-, hlater⟩ := h.linked.foldl_sendTo message peers
  obtain ⟨list, hreached⟩ := t.foldl_sendTo_reached message peers hne
  have hinfo : (peers.foldl (fun s peer ↦ s.sendTo peer message) t).ownInfo = t.ownInfo := by
    rw [Presence.ownInfo, Presence.ownInfo, findPresence, findPresence, hlater.own, hlater.ownEntry]
  refine ⟨list, hlater.own.trans h.own, hlater.user.trans h.user, hlater.product.trans h.product,
    fun peer hpeer ↦ ?_, by rw [hreached.sent, h.sent], fun p hp info hp' ↦ ?_,
    .inl (hinfo.trans h.ownInfo), fun peer epic hi hpeer info hown ↦ ?_⟩
  · rw [(hlater.staying peer hpeer).2, h.links]
  · rw [hinfo]
    exact hmessage info ((hreached.said p hp).symm.trans hp')
  · obtain ⟨hmem, hgreeting⟩ := hgreets peer epic hi
    rw [hinfo] at hown
    rw [hown] at hgreeting
    have hsame : message = .info info := (Option.some.inj hgreeting).symm
    rw [← hsame]
    exact hreached.everyone peer hmem hpeer

/-- Our own presence, to one peer or to everyone. -/
theorem Told.broadcasts (h : Told s i t) {toPeer : Bytes}
    (hgreets : ∀ peer epic, i = .connect peer epic s.productId → peer = toPeer ∧ peer ≠ []) :
    ∃ list, Stepped s i (t.broadcastMyPresence toPeer) list := by
  cases hown : t.findPresence t.epicAccountId with
  | none =>
    rw [broadcastMyPresence, hown]
    exact ⟨[], h.silent fun _ _ _ ↦ hown⟩
  | some self =>
    rw [broadcastMyPresence_of_some hown]
    refine h.sends (fun peer hpeer ↦ ?_) (fun info hinfo ↦ ?_) fun peer epic hi ↦ ?_
    · split at hpeer
      · rename_i hne
        rw [List.mem_singleton.1 hpeer]
        exact hne
      · exact (h.linked.named peer hpeer).1
    · cases hinfo
      exact hown
    · obtain ⟨rfl, hne⟩ := hgreets peer epic hi
      rw [if_pos hne, Presence.ownInfo, hown]
      exact ⟨List.mem_singleton_self _, rfl⟩

theorem told_joined (h : s.Linked) {epic : Bytes} (hname : peer ≠ [] ∧ peer ≠ s.productUserId)
    (hnew : peer ∉ s.mesh.peers) (hfree : s.epicFree epic = true) (gameId : Bytes) :
    Told s (.connect peer epic gameId) (s.joined peer epic gameId) where
  own := rfl
  user := rfl
  product := rfl
  links := @link_told s (s.joined peer epic gameId) (peerConnected peer epic gameId) rfl rfl rfl
  sent := rfl
  entry := rfl
  linked := h.joined hname hnew hfree gameId

theorem told_noted (h : s.Linked) {message : NetEnvelope} (hlife : isLifecycle message = false)
    (hnone : ∀ l, s.link message.sourceId = some l →
      announced s.epicAccountId s.productId l.epic message = none) :
    Told s (.receive message) (s.noted message) where
  own := rfl
  user := rfl
  product := rfl
  links := link_noted message
  sent := rfl
  entry := rfl
  linked := h.noted hlife hnone

theorem told_stored (h : s.Linked) {message : NetEnvelope} (hlife : isLifecycle message = false)
    {l : Link} (hl : s.link message.sourceId = some l) {info : PresenceInfo}
    (hinfo : announced s.epicAccountId s.productId l.epic message = some info) :
    Told s (.receive message) ((s.noted message).store message.sourceId info) where
  own := rfl
  user := rfl
  product := rfl
  links other := @link_told s ((s.noted message).store message.sourceId info) message
    rfl rfl rfl other
  sent := rfl
  entry := by
    obtain ⟨hepic, -, hown⟩ := announced_epicId hinfo
    exact (lookup_insert _ _ _ _).trans (if_neg (hepic ▸ hown))
  linked := h.store hlife hl hinfo

theorem hear_stepped (h : s.Linked) {message : NetEnvelope}
    (hsource : message.sourceId ∈ s.mesh.peers) (hlife : isLifecycle message = false) :
    ∃ list, Stepped s (.receive message) (s.hear message) list := by
  obtain ⟨l, hl⟩ := (h.connected _).1 hsource
  have hnot : ¬ (message.typeTag = MessageType.peerConnected.tag ∨
      message.typeTag = MessageType.peerDisconnected.tag) := by simpa [isLifecycle] using hlife
  rw [not_or] at hnot
  have hnever (peer epic : Bytes) : Input.receive message ≠ .connect peer epic s.productId :=
    fun heq ↦ by cases heq
  have hquiet (hnone : announced s.epicAccountId s.productId l.epic message = none) :
      Told s (.receive message) (s.noted message) := by
    refine told_noted h hlife fun k hk ↦ ?_
    rw [hl] at hk
    cases hk
    exact hnone
  have hsilent (hnone : announced s.epicAccountId s.productId l.epic message = none) :
      ∃ list, Stepped s (.receive message) (s.noted message) list :=
    ⟨[], (hquiet hnone).silent fun peer epic hi ↦ absurd hi (hnever peer epic)⟩
  rw [hear, onNetworkMessage, if_neg (by exact not_or.2 (h.named _ hsource)), if_neg hnot.1,
    if_neg hnot.2]
  change ∃ list, Stepped _ _ (if message.gameId ≠ s.productId then s.noted message else _) list
  by_cases hgame : message.gameId = s.productId
  swap
  · rw [if_pos hgame]
    exact hsilent (if_neg fun hboth ↦ hgame hboth.1)
  rw [if_neg (not_not.2 hgame)]
  by_cases hrequest : message.typeTag = MessageType.presenceRequest.tag
  · have hnone : announced s.epicAccountId s.productId l.epic message = none :=
      if_neg fun hboth ↦ by
        rw [hrequest] at hboth
        exact absurd hboth.2 (by decide)
    rw [if_pos hrequest]
    change ∃ list, Stepped _ _ ((s.noted message).onRequest _ _) list
    rw [onRequest]
    split
    · exact hsilent hnone
    · split
      · exact (hquiet hnone).broadcasts fun peer epic hi ↦ absurd hi (hnever peer epic)
      · exact hsilent hnone
  rw [if_neg hrequest]
  by_cases hinfo : message.typeTag = MessageType.presenceInfo.tag
  · rw [if_pos hinfo]
    change ∃ list, Stepped _ _ ((s.noted message).onInfo _ _) list
    rw [onInfo_eq h hl hgame hinfo]
    cases hann : announced s.epicAccountId s.productId l.epic message with
    | none => exact hsilent hann
    | some info =>
      exact ⟨[], (told_stored h hlife hl hann).silent fun peer epic hi ↦
        absurd hi (hnever peer epic)⟩
  · rw [if_neg hinfo]
    exact hsilent (if_neg fun hboth ↦ hinfo hboth.2)

/-! ## The game -/

/-- A call or a tick that touches neither the router nor the tables. -/
theorem stepped_still (htelling : i.telling = none) (hown : s'.epicAccountId = s.epicAccountId)
    (huser : s'.productUserId = s.productUserId) (hproduct : s'.productId = s.productId)
    (htold : s'.told = s.told) (hmesh : s'.mesh = s.mesh)
    (hentry : s'.presences[s.epicAccountId]? = s.presences[s.epicAccountId]?) :
    ∃ list, Stepped s i s' list := by
  refine ⟨[], .silent hown huser hproduct (fun peer _ ↦ ?_) (by rw [hmesh]) hentry
    fun peer epic hi ↦ ?_⟩
  · rw [htelling]
    exact link_congr htold hown hproduct peer
  · rw [hi] at htelling
    cases htelling

theorem setPresence_stepped (h : s.Fitting) (o : SetPresenceOptions) :
    ∃ list, Stepped s (.call (.setPresence o)) (s.setPresence o).2 list := by
  cases hcommit : s.committing o with
  | none =>
    rw [(setPresence_of_none h hcommit).1]
    exact stepped_still rfl rfl rfl rfl rfl rfl rfl
  | some commit =>
    obtain ⟨staged, self⟩ := commit
    obtain ⟨-, hstorable, -, hlater⟩ := commit_spec h hcommit
    have hnamed : ∀ peer ∈ (s.committed (staged.applyTo self)).mesh.peers, peer ≠ [] :=
      fun peer hpeer ↦ (h.linked.named peer hpeer).1
    obtain ⟨list, hreached⟩ := foldl_sendTo_reached (s.committed (staged.applyTo self))
      (.info (staged.applyTo self)) _ hnamed
    have hown : (s.setPresence o).2.ownInfo = some (staged.applyTo self) := by
      rw [ownInfo, findPresence, hlater.own]
      exact hlater.ownEntry.trans (findPresence_committed _)
    have heq : (s.setPresence o).2 =
        (s.committed (staged.applyTo self)).mesh.peers.foldl
          (fun s peer ↦ s.sendTo peer (.info (staged.applyTo self)))
          (s.committed (staged.applyTo self)) := by
      rw [setPresence_of_some h hcommit]
      exact broadcastMyPresence_of_some (findPresence_committed _) []
    rw [← heq] at hreached
    refine ⟨list, hlater.own, hlater.user, hlater.product, fun peer hpeer ↦ ?_, hreached.sent,
      fun p hp info hinfo ↦ ?_, .inr ⟨o, staged, self, rfl, hcommit, hown, fun peer hpeer ↦ ?_⟩,
      fun peer epic hi ↦ by cases hi⟩
    · exact ((hlater.staying peer hpeer).2.trans (link_congr rfl rfl rfl peer))
    · rw [hreached.said p hp] at hinfo
      rw [hown]
      exact congrArg some (PresenceMessage.info.inj hinfo)
    · exact hreached.everyone peer (hreached.staying hpeer) hpeer

theorem call_stepped (h : s.Fitting) (c : Call) : ∃ list, Stepped s (.call c) (s.call c) list := by
  have hmodify (c : Call) (handle : GameHandle) (version : Int32)
      (edit : PresenceModificationObject → Except ResultCode PresenceModificationObject) :
      ∃ list, Stepped s (.call c) (s.modify handle version edit).2 list := by
    rw [modify]
    split
    · exact stepped_still rfl rfl rfl rfl rfl rfl rfl
    · split
      · exact stepped_still rfl rfl rfl rfl rfl rfl rfl
      · split <;> exact stepped_still rfl rfl rfl rfl rfl rfl rfl
  cases c with
  | queryPresence o now address =>
    change ∃ list, Stepped s _ (s.queryPresence o now address).2 list
    rw [queryPresence]
    split
    · split
      · exact stepped_still rfl rfl rfl rfl rfl rfl rfl
      · split
        · exact stepped_still rfl rfl rfl rfl rfl rfl rfl
        · split
          · exact stepped_still rfl rfl rfl rfl rfl rfl rfl
          · rename_i user target _ _ _ _ _
            let query : PendingPresenceQuery :=
              { localId := user, targetId := target, deadline := now + queryTimeout }
            have htold : Told s (.call (.queryPresence o now address))
                { s with pendingQueries := s.pendingQueries.insert address query } :=
              ⟨rfl, rfl, rfl, fun _ ↦ rfl, rfl, rfl, h.linked.withQueries _⟩
            exact htold.sends (fun peer hpeer ↦ (h.linked.named peer hpeer).1)
              (fun info hinfo ↦ by cases hinfo) fun peer epic hi ↦ by cases hi
    · exact stepped_still rfl rfl rfl rfl rfl rfl rfl
  | createPresenceModification version user =>
    change ∃ list, Stepped s _ (s.createPresenceModification version user).2.2 list
    unfold createPresenceModification
    split
    · exact stepped_still rfl rfl rfl rfl rfl rfl rfl
    · split
      · exact stepped_still rfl rfl rfl rfl rfl rfl rfl
      · split <;> exact stepped_still rfl rfl rfl rfl rfl rfl rfl
  | setPresence o => exact setPresence_stepped h o
  | modificationSetStatus handle o => exact hmodify _ _ _ _
  | modificationSetRawRichText handle o => exact hmodify _ _ _ _
  | modificationSetData handle o => exact hmodify _ _ _ _
  | modificationDeleteData handle o => exact hmodify _ _ _ _
  | modificationSetJoinInfo handle o => exact hmodify _ _ _ _
  | modificationSetTemplate handle o => exact hmodify _ _ _ _
  | modificationRelease handle => exact stepped_still rfl rfl rfl rfl rfl rfl rfl

/-- **The step lemma.** -/
theorem step_stepped (h : s.Fitting) (hstep : s.step i = some s') : ∃ list,
    Stepped s i s' list := by
  cases i with
  | connect peer epic gameId =>
    rw [Presence.step] at hstep
    split at hstep
    · cases hstep
    · rename_i hguard
      simp only [not_or, not_not] at hguard
      obtain ⟨hne, hown, hnew, hfree⟩ := hguard
      cases hstep
      rw [hear_peerConnected ⟨hne, hown⟩]
      have htold := told_joined h.linked ⟨hne, hown⟩ hnew hfree gameId
      split
      · refine htold.broadcasts fun other epic' hi ↦ ?_
        cases hi
        exact ⟨rfl, hne⟩
      · rename_i hgame
        refine ⟨[], htold.silent fun other epic' hi ↦ ?_⟩
        cases hi
        exact absurd (.inr rfl) hgame
  | disconnect peer =>
    rw [Presence.step] at hstep
    split at hstep
    · rename_i hpeer
      cases hstep
      have hlater : Later (.request {}) s (s.lose peer) :=
        (Later.refl _ s).lose h.linked peer
      exact ⟨[], .silent hlater.own hlater.user hlater.product
        (fun other hother ↦ (hlater.staying other hother).2) (s.lose_mesh peer).1 hlater.ownEntry
        fun other epic hi ↦ by cases hi⟩
    · cases hstep
  | receive message =>
    rw [Presence.step] at hstep
    split at hstep
    · cases hstep
    · rename_i hguard
      rw [not_or, not_not, Bool.not_eq_true] at hguard
      cases hstep
      exact hear_stepped h.linked hguard.1 hguard.2
  | call c =>
    cases hstep
    exact call_stepped h c
  | collect address now =>
    cases hstep
    rw [collect]
    split
    · exact stepped_still rfl rfl rfl rfl rfl rfl rfl
    · split <;> exact stepped_still rfl rfl rfl rfl rfl rfl rfl

end Presence
end EosMesh
