import EosMesh.Interfaces.Sessions.Roster

/-!
# The copy of a session we joined

A node that joined a session holds a copy of it, and what the copy says should be its owner's word:
messages of other peers change nothing of it but who left.  The local calls do not keep to that.
`start_session`, `end_session` and `update_session` never ask who hosts, and the two calls about
players ask only whether we are registered.

* `Sessions.FollowsOwner` is the property of one step, over every copy in the table.
* `Sessions.sparesCopies` is the condition on the step, and `copies_follow_owner` says that it is
  exact, along every run.
-/

set_option autoImplicit false

namespace EosMesh

open Lib

namespace Sessions

variable {s s' : Sessions} {i : Input} {name : Bytes} {entry entry' : Session}

/-! ## Copies -/

/-- A session `self` joined and does not own. -/
def Session.isCopy (self : Bytes) (entry : Session) : Bool :=
  entry.localState = .joined ∧ entry.infos.ownerId ≠ self

/-- The copy that goes by a name. -/
def copyAt (s : Sessions) (name : Bytes) : Option Session :=
  (s.findByName name).filter (Session.isCopy s.productUserId)

theorem copyAt_eq_some : s.copyAt name = some entry ↔ s.sessions[name]? = some entry ∧
    entry.localState = .joined ∧ entry.infos.ownerId ≠ s.productUserId := by
  simp [copyAt, findByName, Option.filter_eq_some_iff, Session.isCopy]

/-- The session a call of the host is about: one of the five that are the host's to make. -/
def hostCallAbout (s : Sessions) : Call → Option Bytes
  | .startSession o => o.sessionName
  | .endSession o => o.sessionName
  | .updateSession o _ =>
    (s.modifications.find o.sessionModificationHandle).map (·.sessionName)
  | .registerPlayers o => o.sessionName
  | .unregisterPlayers o => o.sessionName
  | _ => none

/-- A result that says the call was not carried out. -/
def isError (code : ResultCode) : Bool := code ≠ .success ∧ code ≠ .noChange

/-- The input is a message of the owner of the copy. -/
def FromOwner (entry : Session) (i : Input) : Prop :=
  ∃ message, i = .receive message ∧ message.sourceId = entry.infos.ownerId

/-- The step tells that `player` left the session: the router lost it in this very step, or the
message is its own notice, about this session and naming it. -/
def Departs (s : Sessions) (i : Input) (s' : Sessions) (entry : Session) (player : Bytes) : Prop :=
  wasLost s i s' player ∨ ∃ message notice, i = .receive message ∧ message.sourceId = player ∧
    Reads s message (.unregister notice) ∧ notice.sessionId = entry.infos.sessionId ∧
    player ∈ notice.playerIds

/-- The copy is as it was, but for players who left. -/
def SameBut (s : Sessions) (i : Input) (s' : Sessions) (entry entry' : Session) : Prop :=
  entry'.frame = entry.frame ∧
    ∃ gone : List Bytes, (∀ player ∈ gone, Departs s i s' entry player) ∧
      entry'.players = gone.foldl List.erase entry.players

/-- The property of one step: a copy changes by its owner's messages only, players who leave aside,
and a call that is the host's to make is refused and changes nothing. -/
def FollowsOwner (s : Sessions) (i : Input) : Prop :=
  ∀ s' name entry, step s i = some s' → s.copyAt name = some entry →
    (∀ entry', s'.sessions[name]? = some entry' →
      FromOwner entry i ∨ SameBut s i s' entry entry') ∧
    ∀ c, i = .call c → s.hostCallAbout c = some name → isError (s.call c).1 = true ∧ s' = s

/-- What a call is about is no copy, or the copy makes the call fail. -/
def atCopy (s : Sessions) (name : Option Bytes) (fails : Session → Bool) : Bool :=
  (name.bind s.copyAt).all fails

/-- A call about players fails at a copy when its options are wrong, or we are not registered. -/
def playersFail (s : Sessions) (o : PlayersOptions) (latest : Int32) (entry : Session) : Bool :=
  ¬ versionOk o.apiVersion latest ∨ o.players = none ∨ s.productUserId ∉ entry.players

/-- The condition on a step: a call of the host about a copy fails for a reason of its own. -/
def sparesCopies (s : Sessions) : Input → Bool
  | .call (.startSession o) => s.atCopy o.sessionName fun entry ↦
    ¬ versionOk o.apiVersion sessionsApiLatest ∨
      (entry.infos.state ≠ sessionPending ∧ entry.infos.state ≠ sessionEnded)
  | .call (.endSession o) => s.atCopy o.sessionName fun entry ↦
    ¬ versionOk o.apiVersion sessionsApiLatest ∨ entry.infos.state ≠ sessionInProgress
  | .call (.updateSession o _) =>
    (s.modifications.find o.sessionModificationHandle).all fun object ↦
      s.atCopy object.sessionName fun _ ↦
        ¬ versionOk o.apiVersion sessionsApiLatest ∨ object.creating
  | .call (.registerPlayers o) => s.atCopy o.sessionName (s.playersFail o registerPlayersApiLatest)
  | .call (.unregisterPlayers o) =>
    s.atCopy o.sessionName (s.playersFail o unregisterPlayersApiLatest)
  | _ => true

theorem atCopy_of_copyAt (h : s.copyAt name = some entry) (fails : Session → Bool) :
    s.atCopy (some name) fails = fails entry := by
  simp [atCopy, h]

/-! ## The five calls at a copy -/

theorem named_copy (h : s.copyAt name = some entry) (version : Int32) :
    s.named { apiVersion := version, sessionName := some name } =
      if versionOk version sessionsApiLatest then .ok (name, entry)
      else .error .invalidParameters := by
  have hentry : s.findByName name = some entry := (copyAt_eq_some.1 h).1
  by_cases hversion : versionOk version sessionsApiLatest = true <;> simp [named, hversion, hentry]

/-- A call that is refused: it reports an error, and nothing changes. -/
def Refused (s : Sessions) (c : Call) : Prop := isError (s.call c).1 = true ∧ (s.call c).2 = s

theorem startSession_refused_iff (h : s.copyAt name = some entry) (version : Int32) :
    s.Refused (.startSession { apiVersion := version, sessionName := some name }) ↔
      ¬ versionOk version sessionsApiLatest ∨
        (entry.infos.state ≠ sessionPending ∧ entry.infos.state ≠ sessionEnded) := by
  rw [Refused, call, startSession, named_copy h]
  by_cases hversion : versionOk version sessionsApiLatest = true
  · rw [if_pos hversion]
    by_cases hstate : entry.infos.state ≠ sessionPending ∧ entry.infos.state ≠ sessionEnded
    · simp only [hstate, ne_eq, not_false_eq_true, and_self, if_true, or_true, iff_true, and_true]
      decide
    · simp [hstate, hversion, isError]
  · simp only [hversion, Bool.false_eq_true, if_false, not_false_eq_true, true_or,
      iff_true, and_true]
    decide

theorem endSession_refused_iff (h : s.copyAt name = some entry) (version : Int32) :
    s.Refused (.endSession { apiVersion := version, sessionName := some name }) ↔
      ¬ versionOk version sessionsApiLatest ∨ entry.infos.state ≠ sessionInProgress := by
  rw [Refused, call, endSession, named_copy h]
  by_cases hversion : versionOk version sessionsApiLatest = true
  · rw [if_pos hversion]
    by_cases hstate : entry.infos.state ≠ sessionInProgress
    · simp only [hstate, ne_eq, not_false_eq_true, if_true, or_true, iff_true, and_true]
      decide
    · simp [hstate, hversion, isError]
  · simp only [hversion, Bool.false_eq_true, if_false, not_false_eq_true, true_or,
      iff_true, and_true]
    decide

theorem updateSession_refused_iff {object : SessionModificationObject}
    (h : s.copyAt object.sessionName = some entry) {o : UpdateSessionOptions}
    (hobject : s.modifications.find o.sessionModificationHandle = some object)
    (random : Option Bytes) : s.Refused (.updateSession o random) ↔
      ¬ versionOk o.apiVersion sessionsApiLatest ∨ object.creating = true := by
  have hentry : s.findByName object.sessionName = some entry := (copyAt_eq_some.1 h).1
  rw [Refused, call, updateSession, hobject]
  by_cases hversion : versionOk o.apiVersion sessionsApiLatest = true
  · by_cases hcreating : object.creating = true
    · simp only [hversion, not_true_eq_false, if_false, commit, hcreating, hentry,
        or_true, iff_true,
        and_true]
      decide
    · simp [hversion, hcreating, commit, hentry, isError]
  · simp only [hversion, Bool.false_eq_true, not_false_eq_true, if_true, true_or,
      iff_true, and_true]
    decide

/-- What the two calls about players have in common. -/
theorem changePlayers_refused_iff (h : s.copyAt name = some entry) (o : PlayersOptions)
    (hname : o.sessionName = some name) (latest : Int32)
    (each : List Bytes → List Bytes → List (Option Bytes) → List Bytes × List Bytes)
    (notice : SessionMembers → SessionMessage) :
    (isError (s.changePlayers o latest each notice).1.resultCode = true ∧
        (s.changePlayers o latest each notice).2 = s) ↔
      s.playersFail o latest entry = true := by
  have hentry : s.findByName name = some entry := (copyAt_eq_some.1 h).1
  rw [changePlayers, hname, playersFail]
  rcases hplayers : o.players with _ | players
  · simp only [true_or, or_true, decide_true, iff_true, and_true]
    decide
  · by_cases hversion : versionOk o.apiVersion latest = true
    · by_cases hself : s.productUserId ∈ entry.players
      · simp only [hversion, not_true_eq_false, if_false, hentry, hself]
        generalize each entry.players [] players = result
        split <;> simp_all [isError]
      · simp only [hversion, not_true_eq_false, if_false, hentry, hself, not_false_eq_true, if_true,
          or_true, decide_true, iff_true, and_true]
        decide
    · simp only [hversion, Bool.false_eq_true, not_false_eq_true, if_true, true_or, decide_true,
        iff_true, and_true]
      decide

/-- **The five calls at copies**: the condition says exactly that each is refused there. -/
theorem sparesCopies_call_iff (c : Call) : s.sparesCopies (.call c) = true ↔
    ∀ name entry, s.copyAt name = some entry → s.hostCallAbout c = some name → s.Refused c := by
  have hat (about : Option Bytes) (fails : Session → Bool)
      (hrefused : ∀ name entry, s.copyAt name = some entry → about = some name →
        (s.Refused c ↔ fails entry = true)) :
      s.atCopy about fails = true ↔
        ∀ name entry, s.copyAt name = some entry → about = some name → s.Refused c := by
    rcases about with _ | name
    · simp [atCopy]
    · rcases hcopy : s.copyAt name with _ | entry
      · simp only [atCopy, Option.bind_some, hcopy, Option.all_none, true_iff]
        rintro name' entry' hcopy' ⟨⟩
        rw [hcopy] at hcopy'
        cases hcopy'
      · rw [atCopy_of_copyAt hcopy, ← hrefused name entry hcopy rfl]
        constructor
        · rintro hfails name' entry' - ⟨⟩
          exact hfails
        · exact fun hall ↦ hall name entry hcopy rfl
  cases c with
  | startSession o =>
    refine hat o.sessionName _ fun name entry hcopy hname ↦ ?_
    obtain ⟨version, sessionName⟩ := o
    obtain rfl : sessionName = some name := hname
    rw [startSession_refused_iff hcopy, decide_eq_true_eq]
  | endSession o =>
    refine hat o.sessionName _ fun name entry hcopy hname ↦ ?_
    obtain ⟨version, sessionName⟩ := o
    obtain rfl : sessionName = some name := hname
    rw [endSession_refused_iff hcopy, decide_eq_true_eq]
  | updateSession o random =>
    rcases hobject : s.modifications.find o.sessionModificationHandle with _ | object
    · simp [sparesCopies, hostCallAbout, hobject]
    · simp only [sparesCopies, hostCallAbout, hobject, Option.all_some, Option.map_some]
      refine hat (some object.sessionName) _ fun name entry hcopy hname ↦ ?_
      obtain rfl := Option.some.inj hname
      rw [updateSession_refused_iff hcopy hobject, decide_eq_true_eq]
  | registerPlayers o =>
    exact hat o.sessionName _ fun name entry hcopy hname ↦
      changePlayers_refused_iff hcopy o hname _ _ _
  | unregisterPlayers o =>
    exact hat o.sessionName _ fun name entry hcopy hname ↦
      changePlayers_refused_iff hcopy o hname _ _ _
  | _ => simp [sparesCopies, hostCallAbout]

/-! ## What else happens to a copy -/

theorem SameBut.refl (entry : Session) : SameBut s i s' entry entry := ⟨rfl, [], by simp, rfl⟩

theorem SameBut.without (h : SameBut s i s' entry entry') {gone : List Bytes}
    (hgone : ∀ peer ∈ gone, wasLost s i s' peer) :
    SameBut s i s' entry (entry'.without gone) := by
  obtain ⟨hframe, before, hbefore, hplayers⟩ := h
  refine ⟨(Session.frame_without _ _).trans hframe, before ++ gone, fun player hin ↦ ?_, ?_⟩
  · rcases List.mem_append.1 hin with hin | hin
    · exact hbefore player hin
    · exact .inl (hgone player hin)
  · rw [Session.without_players, hplayers, List.foldl_append]

/-- A notice that is not the owner's takes out only the peer it came from. -/
theorem sameBut_noticed {message : NetEnvelope} {adding : Bool} {notice : SessionMembers}
    (hreads : Reads s message (if adding then .register notice else .unregister notice))
    (hid : entry.infos.sessionId = notice.sessionId)
    (howner : message.sourceId ≠ entry.infos.ownerId)
    (hmay : mayNotice adding message.sourceId entry notice = true) :
    SameBut s (.receive message) s' entry
      (entry.seat (notice.playerIds.foldl (noticePlayer adding entry.infos) entry.players)) := by
  simp only [mayNotice, decide_eq_true_eq, howner, false_or] at hmay
  obtain ⟨hadding, hall⟩ := hmay
  rw [if_neg hadding] at hreads
  refine ⟨rfl, notice.playerIds, fun player hin ↦ ?_, ?_⟩
  · exact .inr ⟨message, notice, rfl, (hall player hin).symm, hreads, hid.symm, hin⟩
  · refine List.foldl_ext _ _ _ fun roster player hin ↦ ?_
    rw [noticePlayer, if_neg hadding, if_pos (hall player hin ▸ howner)]

/-- What an edit makes of a copy, unless a host's call made it. -/
theorem EntryStep.copy (h : EntryStep s i name (some entry) (some entry'))
    (hcopy : s.copyAt name = some entry)
    (hcall : ∀ c, i = .call c → s.hostCallAbout c ≠ some name) :
    FromOwner entry i ∨ SameBut s i s' entry entry' := by
  obtain ⟨hentry, hjoined, hother⟩ := copyAt_eq_some.1 hcopy
  cases h with
  | same => exact .inr (.refl entry)
  | @modified o random object _ hobject hcreating =>
    exact absurd (by simp [hostCallAbout, hobject]) (hcall _ rfl)
  | started hname hstate => exact absurd hname (hcall _ rfl)
  | ended hname hstate => exact absurd hname (hcall _ rfl)
  | registered hname hplayers hself => exact absurd hname (hcall _ rfl)
  | unregistered hname hplayers hself => exact absurd hname (hcall _ rfl)
  | admitted hreads hfound hhosting => rw [hjoined] at hhosting; cases hhosting
  | told hreads hfound howner => exact .inl ⟨_, rfl, howner⟩
  | accepted hreads hfound howner => exact .inl ⟨_, rfl, howner⟩
  | rewritten hreads hfound hnot howner => exact .inl ⟨_, rfl, howner.symm⟩
  | @noticed message adding notice _ _ hreads hfound hmay =>
    by_cases howner : message.sourceId = entry.infos.ownerId
    · exact .inl ⟨_, rfl, howner⟩
    · exact .inr (sameBut_noticed hreads (lookup_of_findById hfound).2 howner hmay)

theorem followsOwner_iff : FollowsOwner s i ↔ s.sparesCopies i = true := by
  constructor
  · intro hfollows
    cases i with
    | call c =>
      rw [sparesCopies_call_iff]
      intro name entry hcopy habout
      have hstep : step s (.call c) = some (s.call c).2 := by
        cases c <;> first | rfl | cases habout
      exact (hfollows _ name entry hstep hcopy).2 c rfl habout
    | _ => rfl
  · intro hspares s' name entry hstep hcopy
    obtain ⟨hentry, -, -⟩ := copyAt_eq_some.1 hcopy
    have hrefused (c : Call) (hc : i = .call c) (habout : s.hostCallAbout c = some name) :
        isError (s.call c).1 = true ∧ s' = s := by
      subst hc
      obtain ⟨herror, hsame⟩ := (sparesCopies_call_iff c).1 hspares name entry hcopy habout
      have hs' : s' = (s.call c).2 := by
        rw [step] at hstep
        split at hstep
        · exact (Option.some.inj hstep).symm
        · cases hstep
      exact ⟨herror, hs'.trans hsame⟩
    refine ⟨fun entry' hentry' ↦ ?_, hrefused⟩
    by_cases hcall : ∃ c, i = .call c ∧ s.hostCallAbout c = some name
    · obtain ⟨c, hc, habout⟩ := hcall
      obtain ⟨-, rfl⟩ := hrefused c hc habout
      rw [hentry] at hentry'
      cases hentry'
      exact .inr (.refl entry)
    · obtain ⟨gone, hgone, hentries⟩ := (tableStep_of_step hstep).entries
      obtain ⟨edited, hedit, hafter⟩ := hentries name
      rw [hafter, Option.map_eq_some_iff] at hentry'
      obtain ⟨edited, rfl, rfl⟩ := hentry'
      rw [hentry] at hedit
      have hnot (c : Call) (hc : i = .call c) : s.hostCallAbout c ≠ some name := fun habout ↦
        hcall ⟨c, hc, habout⟩
      exact (hedit.copy hcopy hnot).imp_right fun hsame ↦ hsame.without hgone

/-- **Copies follow their owners exactly** along the runs in which every call of a host about a copy
fails for a reason of its own. -/
theorem copies_follow_owner (s : Sessions) (inputs : List Input) :
    meets step FollowsOwner s inputs ↔ meets step (fun s i ↦ s.sparesCopies i = true) s inputs := by
  have heq : FollowsOwner = fun s i ↦ s.sparesCopies i = true := by
    funext s i
    exact propext followsOwner_iff
  rw [heq]

/-- What the peer `[2]` hosts, and what it sends to `[1]`. -/
def hostedByTwo : SessionInfos :=
  { sessionId := List.replicate 16 3, ownerId := [2], maxPlayers := 4, openSlots := 3
    state := sessionPending, registeredPlayers := [[2]] }

/-- A message of the second player. -/
def fromTwo (msg : SessionMessage) : Input := .receive (envelope (fresh [2] [9]) [1] msg)

/-- The node `[1]` finds the session of `[2]` and joins it, under the name `[5]`. -/
def joiningTwo : List Input :=
  [.around [[2]] [[2]] [],
    .call (.createSessionSearch { apiVersion := 1, value := 10 }),
    .call (.searchSetSessionId 1 { apiVersion := 1, value := some (List.replicate 16 3) }),
    .call (.searchFind 1 { apiVersion := 1, localUserId := none } 0 100),
    fromTwo (.searchResponse { searchId := searchIdOf 1, sessions := [hostedByTwo] }),
    .collect 100 1,
    .call (.searchCopyResult 1 { apiVersion := 1, value := 0 }),
    .call (.joinSession { apiVersion := 1, sessionName := some [5], sessionHandle := 2
                          localUserId := some [1] } 2 101),
    fromTwo (.joinResponse
      { sessionId := List.replicate 16 3, playerId := [1], reason := ResultCode.success })]

example : meets step (fun s i ↦ s.sparesCopies i = true) (fresh [1] [9]) joiningTwo := by
  decide +kernel

/-- A member that starts the session it joined starts it, for itself alone. -/
theorem copy_started : ∃ s, Reaches step always (fresh [1] [9]) s ∧
    ¬ FollowsOwner s (.call (.startSession { apiVersion := 1, sessionName := some [5] })) := by
  obtain ⟨s, h, hstart⟩ := exists_reaches step always (fresh [1] [9])
    (fun s ↦ s.sparesCopies
      (.call (.startSession { apiVersion := 1, sessionName := some [5] })) = false)
    joiningTwo (by decide +kernel) (meets_always _ _)
  refine ⟨s, h, fun hfollows ↦ ?_⟩
  rw [followsOwner_iff, hstart] at hfollows
  cases hfollows

end Sessions
end EosMesh
