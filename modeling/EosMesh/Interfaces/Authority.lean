import EosMesh.Interfaces.Lobby.Hosting
import EosMesh.Interfaces.Sessions.Roster

/-!
# What a peer can do to what is not its own

A peer chooses every byte of what it sends but its own name.  Here a message of any content arrives
at the sessions and at the lobbies of a node, and the question is what it changes of a session or a
lobby that its sender does not own.  Peers may be lost while it is answered, and each of them
leaves; so they are told apart from what the message itself does (`Mesh.Kept`).

* `Sessions.OwnSeatOnly` and `Lobbies.OwnMemberOnly` say that nothing changes but the sender's own
  place, and the slots counted from it.  A peer may name another in what it sends; it does not help
  it.
* `own_seat_only` is a message at the sessions.  At the lobbies a message is one thing to a lobby we
  host (`own_member_only`) and another to one we joined (`copy_untouched`), of which only the owner
  tells us anything.
* `Lobbies.Settles` is what becomes of a lobby that has no owner on record: the answer to the join
  that waits for it names its owner, or ends it.  A lobby that is joined by its id is of this kind
  until the answer comes, so whoever answers it first is taken for the owner.  `ownerless_settled`
  says that nothing else touches it.
* `host_authority` puts these together: where a session or a lobby has an owner on record, nobody
  else touches it.

`disowned_lobby_taken` is a lobby that lost its owner's name, and went to whoever answered first.
-/

set_option autoImplicit false

namespace EosMesh

open Lib
open Std (TreeMap)

/-- The router did not lose the peer in between. -/
def Mesh.Kept {μ : Type} (before after : Mesh μ) (peer : Bytes) : Prop :=
  peer ∈ before.peers → peer ∈ after.peers

/-! ## Sessions -/

namespace Sessions

variable {s : Sessions} {message : NetEnvelope} {kept : Bytes → Prop} {source : Bytes}
  {entry entry' entry'' : Session}

/-- Nothing of a session changed but whether `source` is in it, the open slots that are counted from
the roster, and the players that were not kept; and a copy we only joined gained nobody. -/
structure OwnSeatOnly (source : Bytes) (kept : Bytes → Prop) (entry entry' : Session) : Prop where
  frame : entry'.frame = entry.frame
  slots : entry' = entry ∨ entry'.infos.openSlots = openSlotsOf entry'.infos
  others : ∀ player, player ≠ source → kept player →
    entry'.players.count player = entry.players.count player
  removal : entry.localState ≠ .hosting →
    entry'.players.count source ≤ entry.players.count source

theorem OwnSeatOnly.refl (entry : Session) : OwnSeatOnly source kept entry entry :=
  ⟨rfl, .inl rfl, fun _ _ _ ↦ rfl, fun _ ↦ le_rfl⟩

/-- A player takes a seat, or gives it up. -/
theorem OwnSeatOnly.seat {players : List Bytes}
    (hothers : ∀ player, player ≠ source → kept player →
      players.count player = entry.players.count player)
    (hremoval : entry.localState ≠ .hosting → players.count source ≤ entry.players.count source) :
    OwnSeatOnly source kept entry (entry.seat players) :=
  ⟨entry.frame_seat players, .inr rfl, hothers, hremoval⟩

theorem OwnSeatOnly.trans (h : OwnSeatOnly source kept entry entry')
    (h' : OwnSeatOnly source kept entry' entry'') : OwnSeatOnly source kept entry entry'' where
  frame := h'.frame.trans h.frame
  slots := by
    rcases h'.slots with rfl | hcounted
    · exact h.slots
    · exact .inr hcounted
  others player hne hkept := (h'.others player hne hkept).trans (h.others player hne hkept)
  removal hcopy := by
    have hstate : entry'.localState = entry.localState :=
      Session.eq_of_frame_eq Session.localState (fun _ ↦ rfl) h.frame
    exact (h'.removal (hstate ▸ hcopy)).trans (h.removal hcopy)

/-- Giving up a seat takes it from nobody else, as often as it is done. -/
theorem OwnSeatOnly.without (entry : Session) {gone : List Bytes}
    (hgone : ∀ peer ∈ gone, peer = source ∨ ¬ kept peer) :
    OwnSeatOnly source kept entry (entry.without gone) := by
  induction gone generalizing entry with
  | nil => exact .refl entry
  | cons peer gone ih =>
    rw [Session.without_cons]
    refine .trans (.seat (fun player hne hkept ↦ ?_) fun _ ↦ (List.erase_sublist).count_le _)
      (ih _ fun p hp ↦ hgone p (List.mem_cons_of_mem _ hp))
    refine List.count_erase_of_ne fun heq ↦ ?_
    subst heq
    exact (hgone player List.mem_cons_self).elim hne (absurd hkept)

/-- **What a message makes of a session of someone else than its sender.** -/
theorem own_seat_only {name : Bytes} (hentry : s.sessions[name]? = some entry)
    (howner : entry.infos.ownerId ≠ message.sourceId) :
    ∃ entry', (s.onNetworkMessage message).sessions[name]? = some entry' ∧
      OwnSeatOnly message.sourceId (s.mesh.Kept (s.onNetworkMessage message).mesh)
        entry entry' := by
  obtain ⟨gone, hgone, hentries⟩ := (tableStep_receive (s := s) message).entries
  obtain ⟨edited, hedit, hafter⟩ := hentries name
  have hlost (peer : Bytes) (hpeer : peer ∈ gone) : peer = message.sourceId ∨
      ¬ s.mesh.Kept (s.onNetworkMessage message).mesh peer := by
    rcases hgone peer hpeer with ⟨hin, hout⟩ | ⟨message', hmessage, -, hsource, -⟩
    · exact .inr fun hkept ↦ hout (hkept hin)
    · cases hmessage
      exact .inl hsource.symm
  rw [hentry] at hedit
  have hstep : ∃ entry', edited = some entry' ∧
      OwnSeatOnly message.sourceId (s.mesh.Kept (s.onNetworkMessage message).mesh)
        entry entry' := by
    generalize hbefore : some entry = before at hedit
    cases hedit with
    | same => exact ⟨entry, hbefore.symm, .refl entry⟩
    | admitted hreads hfound hhosting =>
      cases hbefore
      refine ⟨_, rfl, .seat (fun player hne _ ↦ ?_) fun hcopy ↦ absurd hhosting hcopy⟩
      rw [List.count_append, List.count_singleton, if_neg (by simpa using Ne.symm hne), add_zero]
    | told hreads hfound hsource =>
      cases hbefore
      exact absurd hsource.symm howner
    | accepted hreads hfound hsource =>
      cases hbefore
      exact absurd hsource.symm howner
    | refused hreads hfound hsource =>
      cases hbefore
      exact absurd hsource.symm howner
    | rewritten hreads hfound hcopy hsource =>
      cases hbefore
      exact absurd hsource howner
    | closed hreads hcopy hsource =>
      cases hbefore
      exact absurd hsource howner
    | @noticed _ adding notice _ entry hreads hfound hmay =>
      cases hbefore
      rw [mayNotice, decide_eq_true_eq] at hmay
      obtain ⟨hremoving, hself⟩ := hmay.resolve_left (Ne.symm howner)
      -- The sender may name nobody but itself.
      have hcount (players : List Bytes) (hplayers : ∀ player ∈ players, player = message.sourceId)
          (roster : List Bytes) :
          (∀ player, player ≠ message.sourceId →
            (players.foldl (noticePlayer adding entry.infos) roster).count player =
              roster.count player) ∧
          (players.foldl (noticePlayer adding entry.infos) roster).count message.sourceId ≤
            roster.count message.sourceId := by
        induction players generalizing roster with
        | nil => exact ⟨fun _ _ ↦ rfl, le_rfl⟩
        | cons player players ih =>
          obtain ⟨hothers, hown⟩ := ih (fun p hp ↦ hplayers p (List.mem_cons_of_mem _ hp))
            (noticePlayer adding entry.infos roster player)
          obtain rfl := hplayers player List.mem_cons_self
          rw [List.foldl_cons]
          have hfirst : noticePlayer adding entry.infos roster message.sourceId =
              roster.erase message.sourceId := by
            rw [noticePlayer, if_neg hremoving, if_pos (Ne.symm howner)]
          rw [hfirst] at hothers hown ⊢
          refine ⟨fun p hne ↦ (hothers p hne).trans (List.count_erase_of_ne hne), ?_⟩
          exact hown.trans (List.erase_sublist.count_le _)
      obtain ⟨hothers, hown⟩ := hcount notice.playerIds hself entry.players
      exact ⟨_, rfl, .seat (fun player hne _ ↦ hothers player hne) fun _ ↦ hown⟩
  obtain ⟨entry', rfl, honly⟩ := hstep
  exact ⟨entry'.without gone, by rw [hafter]; rfl, honly.trans (.without entry' hlost)⟩

end Sessions
/-! ## Lobbies -/

namespace Lobbies

variable {s : Lobbies} {message : NetEnvelope} {kept : Bytes → Prop} {source lobbyId : Bytes}
  {entry entry' entry'' : Lobby}

/-- The members of an id, and their attributes. -/
def membersOf (entry : Lobby) (userId : Bytes) : List LobbyMember :=
  entry.infos.members.filter (·.userId = userId)

/-- Nothing of a lobby changed but the member `source`, the available slots that are counted from
the roster, and the members that were not kept. -/
structure OwnMemberOnly (source : Bytes) (kept : Bytes → Prop) (entry entry' : Lobby) : Prop where
  state : entry'.localState = entry.localState
  user : entry'.localUser = entry.localUser
  frame : entry'.infos.frame = entry.infos.frame
  slots : entry'.infos.availableSlots = entry.infos.availableSlots ∧
      entry'.infos.members.length = entry.infos.members.length ∨
    entry'.infos.availableSlots = entry'.infos.openSlotsOf
  others : ∀ userId, userId ≠ source → kept userId → membersOf entry' userId =
    membersOf entry userId

theorem OwnMemberOnly.refl (entry : Lobby) : OwnMemberOnly source kept entry entry :=
  ⟨rfl, rfl, rfl, .inl ⟨rfl, rfl⟩, fun _ _ _ ↦ rfl⟩

theorem OwnMemberOnly.trans (h : OwnMemberOnly source kept entry entry')
    (h' : OwnMemberOnly source kept entry' entry'') : OwnMemberOnly source kept entry entry'' where
  state := h'.state.trans h.state
  user := h'.user.trans h.user
  frame := h'.frame.trans h.frame
  slots := by
    rcases h'.slots with ⟨hslots, hlength⟩ | hcounted
    · rcases h.slots with ⟨hslots', hlength'⟩ | hcounted
      · exact .inl ⟨hslots.trans hslots', hlength.trans hlength'⟩
      · -- As many members of the same maximum leave the same slots.
        have hmax : entry''.infos.maxMembers = entry'.infos.maxMembers := by
          show entry''.infos.frame.maxMembers = entry'.infos.frame.maxMembers
          rw [h'.frame]
        exact .inr (by rw [hslots, hcounted, LobbyInfos.openSlotsOf, LobbyInfos.openSlotsOf, hmax,
          hlength])
    · exact .inr hcounted
  others userId hne hkept := (h'.others userId hne hkept).trans (h.others userId hne hkept)

/-- Dropping a member leaves the others. -/
theorem filter_dropMember (infos : LobbyInfos) {peer userId : Bytes} (hne : userId ≠ peer) :
    (infos.dropMember peer).members.filter (·.userId = userId) =
      infos.members.filter (·.userId = userId) := by
  rw [LobbyInfos.dropMember]
  induction infos.members with
  | nil => rfl
  | cons member members ih =>
    by_cases hpeer : member.userId = peer
    · simp [hpeer, Ne.symm hne]
    · simp only [List.eraseP_cons, hpeer, decide_false, cond_false, List.filter_cons]
      rw [ih]

/-- Editing a member leaves the others, when the edit keeps its id. -/
theorem filter_editMember (infos : LobbyInfos) {peer userId : Bytes} (hne : userId ≠ peer)
    {edit : LobbyMember → LobbyMember} (hedit : ∀ member, (edit member).userId = member.userId) :
    (infos.editMember peer edit).members.filter (·.userId = userId) =
      infos.members.filter (·.userId = userId) := by
  rw [LobbyInfos.editMember]
  induction infos.members with
  | nil => rfl
  | cons member members ih =>
    by_cases hpeer : member.userId = peer
    · simp [hpeer, hedit, Ne.symm hne]
    · simp only [List.replaceF_cons, hpeer, if_false, List.filter_cons]
      rw [ih]

/-- The member `source`, or one that was not kept, leaves. -/
theorem OwnMemberOnly.dropped {peer : Bytes} (hpeer : peer = source ∨ ¬ kept peer) :
    OwnMemberOnly source kept entry
      { entry with infos := (entry.infos.dropMember peer).counted } where
  state := rfl
  user := rfl
  frame := rfl
  slots := .inr rfl
  others userId hne hkept := by
    refine filter_dropMember entry.infos fun heq ↦ ?_
    subst heq
    exact hpeer.elim hne (absurd hkept)

/-- A lobby we host outlives the loss of members. -/
theorem OwnMemberOnly.outliving {self : Bytes} {gone : List Bytes}
    (hhosting : entry.localState = .hosting) (hgone : ∀ peer ∈ gone, peer = source ∨ ¬ kept peer) :
    ∃ entry', Lobby.outliving self gone (some entry) = some entry' ∧
      OwnMemberOnly source kept entry entry' := by
  induction gone generalizing entry with
  | nil => exact ⟨entry, rfl, .refl entry⟩
  | cons peer gone ih =>
    have hfirst : ∃ entry', Lobby.bereaved self peer entry = some entry' ∧
        OwnMemberOnly source kept entry entry' := by
      rw [Lobby.bereaved]
      dsimp only
      rw [if_neg (by simp [hhosting])]
      split
      · exact ⟨_, rfl, .dropped (hgone peer List.mem_cons_self)⟩
      · exact ⟨entry, rfl, .refl entry⟩
    obtain ⟨entry', hbereaved, honly⟩ := hfirst
    obtain ⟨entry'', hrest, honly'⟩ := ih (honly.state.trans hhosting)
      fun p hp ↦ hgone p (List.mem_cons_of_mem _ hp)
    exact ⟨entry'', by rw [Lobby.outliving_cons, Option.bind_some, hbereaved, hrest],
      honly.trans honly'⟩

/-- Whom a message loses us. -/
theorem wasLost_receive {s' : Lobbies} {peer : Bytes} (h : wasLost s (.receive message) s' peer) :
    peer = message.sourceId ∨ ¬ s.mesh.Kept s'.mesh peer := by
  rcases h with ⟨message', hmessage, -, hsource⟩ | ⟨hin, hout⟩
  · cases hmessage
    exact .inl hsource.symm
  · exact .inr fun hkept ↦ hout (hkept hin)

/-- **What a message makes of a lobby we host.** -/
theorem own_member_only (hentry : s.lobbies[lobbyId]? = some entry)
    (hhosting : entry.localState = .hosting) (hrecorded : entry.infos.ownerId ≠ [])
    (howner : entry.infos.ownerId ≠ message.sourceId) :
    ∃ entry', (s.onNetworkMessage message).lobbies[lobbyId]? = some entry' ∧ OwnMemberOnly
      message.sourceId (s.mesh.Kept (s.onNetworkMessage message).mesh) entry entry' := by
  obtain ⟨edited, gone, hedit, hgone, hlookup⟩ :=
    (tableStep_receive (s := s) message).entries lobbyId
  rw [hentry] at hedit
  have hstep : ∃ entry', edited = some entry' ∧ OwnMemberOnly message.sourceId
      (s.mesh.Kept (s.onNetworkMessage message).mesh) entry entry' := by
    generalize hbefore : some entry = before at hedit
    cases hedit with
    | same => exact ⟨entry, hbefore.symm, .refl entry⟩
    | @admitted _ request _ hreads _ hknown hnew =>
      cases hbefore
      refine ⟨_, rfl, rfl, rfl, rfl, .inr rfl, fun userId hne _ ↦ ?_⟩
      simp [membersOf, List.filter_append, Ne.symm hne]
    | accepted hreads hsource =>
      cases hbefore
      exact absurd hsource (not_or.2 ⟨hrecorded, howner⟩)
    | refused hreads hsource =>
      cases hbefore
      exact absurd hsource (not_or.2 ⟨hrecorded, howner⟩)
    | rewritten hreads hcopy =>
      cases hbefore
      exact absurd hhosting hcopy
    | left =>
      cases hbefore
      exact ⟨_, rfl, .dropped (.inl rfl)⟩
    | attributed =>
      cases hbefore
      refine ⟨_, rfl, rfl, rfl, rfl, .inl ⟨rfl, ?_⟩, fun userId hne _ ↦ ?_⟩
      · simp [LobbyInfos.editMember]
      · exact filter_editMember _ hne fun _ ↦ rfl
    | closed hreads hcopy =>
      cases hbefore
      exact absurd hhosting hcopy
  obtain ⟨entry', rfl, honly⟩ := hstep
  obtain ⟨entry'', hrest, honly'⟩ := OwnMemberOnly.outliving (honly.state.trans hhosting)
    fun peer hpeer ↦ wasLost_receive (hgone peer hpeer).1
  exact ⟨entry'', hlookup.trans hrest, honly.trans honly'⟩

/-- **What a message makes of a lobby we joined.** -/
theorem copy_untouched (hentry : s.lobbies[lobbyId]? = some entry)
    (hcopy : entry.localState ≠ .hosting) (hrecorded : entry.infos.ownerId ≠ [])
    (howner : entry.infos.ownerId ≠ message.sourceId)
    (hkept : s.mesh.Kept (s.onNetworkMessage message).mesh entry.infos.ownerId) :
    (s.onNetworkMessage message).lobbies[lobbyId]? = some entry := by
  obtain ⟨edited, gone, hedit, hgone, hlookup⟩ :=
    (tableStep_receive (s := s) message).entries lobbyId
  have hout : entry.infos.ownerId ∉ gone := fun hin ↦
    (wasLost_receive (hgone _ hin).1).elim howner (absurd hkept)
  rw [hlookup]
  rw [hentry] at hedit
  generalize hbefore : some entry = before at hedit
  cases hedit with
  | same => rw [← hbefore, outliving_of_owner hcopy hout]
  | admitted hreads hhosting =>
    cases hbefore
    exact absurd hhosting hcopy
  | accepted hreads hsource =>
    cases hbefore
    exact absurd hsource (not_or.2 ⟨hrecorded, howner⟩)
  | refused hreads hsource =>
    cases hbefore
    exact absurd hsource (not_or.2 ⟨hrecorded, howner⟩)
  | rewritten hreads _ hsource =>
    cases hbefore
    exact absurd hsource.symm howner
  | left hreads hhosting =>
    cases hbefore
    exact absurd hhosting hcopy
  | attributed hreads hhosting =>
    cases hbefore
    exact absurd hhosting hcopy
  | closed hreads _ hsource =>
    cases hbefore
    exact absurd hsource howner

/-- A message answers the join that waits for a lobby: its sender is the owner from then on, or the
lobby is gone. -/
def Settles (s : Lobbies) (message : NetEnvelope) (lobbyId : Bytes) (entry : Lobby)
    (after : Option Lobby) : Prop :=
  ∃ answer, Reads s message (.joinResponse answer) ∧ answer.lobbyId = lobbyId ∧
    answer.playerId = s.productUserId ∧ (s.waitingFor lobbyId).isSome = true ∧
    (answer.reason = ResultCode.success ∧ after = some { entry with
        infos := { entry.infos with ownerId := message.sourceId }, localState := .joined } ∨
      answer.reason ≠ ResultCode.success ∧ entry.localState = .joining ∧ after = none)

/-- **What a message makes of a lobby that records no owner.** -/
theorem ownerless_settled (hentry : s.lobbies[lobbyId]? = some entry)
    (hcopy : entry.localState ≠ .hosting) (hownerless : entry.infos.ownerId = []) :
    (s.onNetworkMessage message).lobbies[lobbyId]? = some entry ∨
      s.Settles message lobbyId entry ((s.onNetworkMessage message).lobbies[lobbyId]?) := by
  obtain ⟨edited, gone, hedit, hgone, hlookup⟩ :=
    (tableStep_receive (s := s) message).entries lobbyId
  -- An answer sends nothing, so nobody is lost over it.
  have hnobody (answer : LobbyJoinResponse) (hreads : Reads s message (.joinResponse answer)) :
      gone = [] := List.eq_nil_iff_forall_not_mem.2 fun peer hpeer ↦ by
    have hmesh : (s.onNetworkMessage message).mesh = s.mesh := by
      rw [hreads.onNetworkMessage]
      exact s.onJoinResponse_mesh message.sourceId answer
    rcases (hgone peer hpeer).1 with htells | ⟨hin, hout⟩
    · exact hreads.not_tellsGone peer htells
    · exact hout (hmesh ▸ hin)
  rw [hlookup]
  rw [hentry] at hedit
  generalize hbefore : some entry = before at hedit
  cases hedit with
  | same =>
    have hout : entry.infos.ownerId ∉ gone := fun hin ↦ (hgone _ hin).2.1 hownerless
    exact .inl (by rw [← hbefore, outliving_of_owner hcopy hout])
  | @accepted _ answer _ hreads _ hplayer hwaiting hreason =>
    cases hbefore
    obtain rfl := hnobody answer hreads
    exact .inr ⟨answer, hreads, rfl, hplayer, hwaiting, .inl ⟨hreason, rfl⟩⟩
  | @refused _ answer _ hreads _ hwaiting hreason hjoining hplayer =>
    cases hbefore
    obtain rfl := hnobody answer hreads
    exact .inr ⟨answer, hreads, rfl, hplayer, hwaiting, .inr ⟨hreason, hjoining, rfl⟩⟩
  | admitted hreads hhosting =>
    cases hbefore
    exact absurd hhosting hcopy
  | rewritten hreads _ hsource =>
    cases hbefore
    exact absurd (hsource.trans hownerless) hreads.named
  | left hreads hhosting =>
    cases hbefore
    exact absurd hhosting hcopy
  | attributed hreads hhosting =>
    cases hbefore
    exact absurd hhosting hcopy
  | closed hreads _ hsource =>
    cases hbefore
    exact absurd (hsource.symm.trans hownerless) hreads.named

end Lobbies

/-! ## Both -/

/-- A message of ourselves is none. -/
theorem Lobbies.onNetworkMessage_self {s : Lobbies} {message : NetEnvelope}
    (h : message.sourceId = s.productUserId) : s.onNetworkMessage message = s :=
  if_pos (.inr h)

theorem Sessions.onNetworkMessage_self {s : Sessions} {message : NetEnvelope}
    (h : message.sourceId = s.productUserId) : s.onNetworkMessage message = s :=
  if_pos (.inr h)

/-- **Only its owner has a say in a session or a lobby**: where what we host is ours, a message of
any content changes of a session or lobby we host, or of a copy whose owner on record is another
peer, nothing but its sender's own place in it; and of a joined lobby nothing at all.  A joined
lobby that records no owner changes only when a join of it waits, and its sender answers that.  What
the router lost on the way is apart. -/
theorem host_authority (s : Sessions) (l : Lobbies) (message : NetEnvelope)
    (hsessions : ∀ (name : Bytes) (entry : Session), s.sessions[name]? = some entry →
      entry.localState = .hosting → entry.infos.ownerId = s.productUserId)
    (hlobbies : ∀ (lobbyId : Bytes) (entry : Lobby), l.lobbies[lobbyId]? = some entry →
      entry.localState = .hosting → entry.infos.ownerId = l.productUserId) :
    (∀ (name : Bytes) (entry : Session), s.sessions[name]? = some entry →
      entry.localState = .hosting ∨ entry.infos.ownerId ≠ message.sourceId →
      ∃ entry', (s.onNetworkMessage message).sessions[name]? = some entry' ∧
        Sessions.OwnSeatOnly message.sourceId
          (s.mesh.Kept (s.onNetworkMessage message).mesh) entry entry') ∧
    (∀ (lobbyId : Bytes) (entry : Lobby), l.lobbies[lobbyId]? = some entry →
      entry.infos.ownerId ≠ [] →
      (entry.localState = .hosting →
        ∃ entry', (l.onNetworkMessage message).lobbies[lobbyId]? = some entry' ∧
          Lobbies.OwnMemberOnly message.sourceId
            (l.mesh.Kept (l.onNetworkMessage message).mesh) entry entry') ∧
      (entry.localState ≠ .hosting → entry.infos.ownerId ≠ message.sourceId →
        l.mesh.Kept (l.onNetworkMessage message).mesh entry.infos.ownerId →
        (l.onNetworkMessage message).lobbies[lobbyId]? = some entry)) ∧
    ∀ (lobbyId : Bytes) (entry : Lobby), l.lobbies[lobbyId]? = some entry →
      entry.infos.ownerId = [] → entry.localState ≠ .hosting →
      (l.onNetworkMessage message).lobbies[lobbyId]? = some entry ∨
        l.Settles message lobbyId entry ((l.onNetworkMessage message).lobbies[lobbyId]?) := by
  refine ⟨fun name entry hentry hmine ↦ ?_, fun lobbyId entry hentry hrecorded ↦
    ⟨fun hhosting ↦ ?_, fun hcopy howner hkept ↦ ?_⟩,
      fun lobbyId entry hentry hownerless hcopy ↦ ?_⟩
  · by_cases howner : entry.infos.ownerId = message.sourceId
    · have hself := (hsessions name entry hentry (hmine.resolve_right (not_not.2 howner))).symm
      rw [Sessions.onNetworkMessage_self (howner.symm.trans hself.symm)]
      exact ⟨entry, hentry, .refl entry⟩
    · exact Sessions.own_seat_only hentry howner
  · by_cases howner : entry.infos.ownerId = message.sourceId
    · rw [Lobbies.onNetworkMessage_self (howner.symm.trans
        (hlobbies lobbyId entry hentry hhosting))]
      exact ⟨entry, hentry, .refl entry⟩
    · exact Lobbies.own_member_only hentry hhosting hrecorded howner
  · exact Lobbies.copy_untouched hentry hcopy hrecorded howner hkept
  · exact Lobbies.ownerless_settled hentry hcopy hownerless

namespace Authority

/-- A lobby of three, hosted by the first. -/
def lobbyOfThree : Lobby where
  infos :=
    { lobbyId := [5], ownerId := [1], maxMembers := 3
      members := [{ userId := [1] }, { userId := [2] }, { userId := [3] }] }
  localUser := [1]
  localState := .hosting

/-- Who hosts, to run the system on. -/
def host : Lobbies :=
  { productUserId := [1], productId := [9], known := [[2], [3]], mesh := { peers := [[2], [3]] }
    lobbies := ({} : TreeMap Bytes Lobby).insert [5] lobbyOfThree }

/-- The third leaves. -/
def leaving : NetEnvelope :=
  Lobbies.envelope { productUserId := [3], productId := [9] } [1]
    (.leave { lobbyId := [5], member := { userId := [2] } })

/-- It names another member in its notice, and still it is itself that leaves. -/
theorem host_authority_leave : ∃ entry', (host.onNetworkMessage leaving).lobbies[([5] : Bytes)]? =
    some entry' ∧ Lobbies.OwnMemberOnly [3] (host.mesh.Kept (host.onNetworkMessage leaving).mesh)
      lobbyOfThree entry' := by
  have hentry : host.lobbies[([5] : Bytes)]? = some lobbyOfThree := by
    rw [host, lookup_insert, if_pos rfl]
  have hmine (lobbyId : Bytes) (entry : Lobby) (h : host.lobbies[lobbyId]? = some entry)
      (_ : entry.localState = .hosting) : entry.infos.ownerId = host.productUserId := by
    rw [host, lookup_insert] at h
    split at h
    · cases h
      rfl
    · simp at h
  have hnone (name : Bytes) (entry : Session)
      (h : (Sessions.fresh [1] [9]).sessions[name]? = some entry)
        (_ : entry.localState = .hosting) :
      entry.infos.ownerId = (Sessions.fresh [1] [9]).productUserId := by
    rw [Sessions.lookup_fresh] at h
    cases h
  exact ((host_authority (Sessions.fresh [1] [9]) host leaving hnone hmine).2.1 [5] lobbyOfThree
    hentry (by decide)).1 rfl

/-- What `[3]` answers a join it was not asked about. -/
def claiming : NetEnvelope :=
  Lobbies.envelope { productUserId := [3], productId := [9] } [2]
    (.joinResponse { lobbyId := [7], playerId := [2], reason := 0 })

/-- What the host `[1]` says to `[2]`. -/
def fromHost (msg : LobbyMessage) : Lobbies.Input :=
  .receive (Lobbies.envelope { productUserId := [1], productId := [9] } [2] msg)

/-- A lobby that was joined by its id, whose host then gave it no owner.  The join still waits to be
collected, and its answer is taken from anyone. -/
theorem disowned_lobby_taken : ∃ s entry entry', Reaches Lobbies.step
      (fun s i ↦ i.usesOwnId s.productUserId = true) (Lobbies.fresh [2] [9]) s ∧
    (∀ (lobbyId : Bytes) (entry : Lobby), s.lobbies[lobbyId]? = some entry →
      entry.localState = .hosting → entry.infos.ownerId = s.productUserId) ∧
    s.lobbies[([7] : Bytes)]? = some entry ∧ entry.localState = .joined ∧
    entry.infos.ownerId ≠ claiming.sourceId ∧
    (s.onNetworkMessage claiming).lobbies[([7] : Bytes)]? = some entry' ∧
    entry'.infos.ownerId = claiming.sourceId := by
  obtain ⟨s, h, hall, hjoined, htaken⟩ := exists_reaches Lobbies.step
    (fun s i ↦ i.usesOwnId s.productUserId = true) (Lobbies.fresh [2] [9])
    (fun s ↦ (s.lobbies.toList.all fun p ↦ p.2.localState ≠ .hosting) = true ∧
      ((s.lobbies[([7] : Bytes)]?).any fun entry : Lobby ↦
        entry.localState = .joined ∧ entry.infos.ownerId ≠ claiming.sourceId) = true ∧
      ((s.onNetworkMessage claiming).lobbies[([7] : Bytes)]?).any fun entry : Lobby ↦
        entry.infos.ownerId = claiming.sourceId)
    [.around [[1], [3]] [[1], [3]] [],
      .call (.joinLobbyById { lobbyId := some [7], localUserId := some [2] } 0 100),
      fromHost (.joinResponse { lobbyId := [7], playerId := [2], reason := 0 }),
      fromHost (.infos { lobbyId := [7] })]
    (by decide +kernel) (by decide +kernel)
  obtain ⟨entry, hentry, hjoined⟩ := (Option.any_eq_true _ _).1 hjoined
  obtain ⟨entry', hentry', htaken⟩ := (Option.any_eq_true _ _).1 htaken
  obtain ⟨hstate, howner⟩ := of_decide_eq_true hjoined
  refine ⟨s, entry, entry', h, fun lobbyId entry hlookup hhosting ↦ ?_, hentry, hstate, howner,
    hentry', of_decide_eq_true htaken⟩
  have hnot := List.all_eq_true.1 hall _ ((mem_toList_iff_lookup _ _ _).2 hlookup)
  exact absurd hhosting (of_decide_eq_true hnot)

end Authority
end EosMesh
