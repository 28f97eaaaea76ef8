import EosMesh.Interfaces.Sessions.Steps

/-!
# What one step can do to what is staged

A game edits a session behind a handle: the setters change a copy that is staged there, and a commit
writes the copy back.  Messages and ticks leave what is staged alone, and so do the calls about a
session; a setter writes only what a setter may.

* `Sessions.still` is what no message, no tick and none of the calls about a session changes: the
  handles given out, what is staged behind them, and who we are.
* `fixedPart` is the part of a session that no setter touches, among it the id, the owner, the state
  and the roster.  `objectStep_modify` says of any setter that its edit leaves that part alone.
* `ObjectStep` lists what a call can make of the modification behind a handle: it is made, from a
  session there is or for a new one; it is edited; it is let go; or it stays as it was.
  `objectStep_call` is that every call does one of these.

Two developments rest on this.  `Interfaces.Sessions.Drafts` follows the edits of one handle to its
commit, and needs that nothing else gets in between; `Interfaces.Sessions.Roster` needs that a
commit brings back no roster of its own.
-/

set_option autoImplicit false

namespace EosMesh

open Lib
open Std (TreeMap)

namespace Sessions

variable {s s' : Sessions}

/-! ## What else a step changes -/

/-- What no message, no tick and none of the calls about a session changes. -/
def still (s : Sessions) : Sessions :=
  { s with
    sessions := {}, mesh := {}, searches := {}, pendingFinds := {}, pendingJoins := {} }

theorem still_of_lost (h : Lost s s') : s'.still = s.still := by
  obtain ⟨gone, -, hlost⟩ := h
  rw [hlost.rest]
  rfl

@[simp] theorem still_sendTo (peer : Bytes) (message : SessionMessage) :
    (s.sendTo peer message).still = s.still := still_of_lost (lost_sendTo _ _ _)

@[simp] theorem still_sendToMembers (name : Bytes) (message : SessionMessage) (except : Bytes) :
    (s.sendToMembers name message except).still = s.still :=
  still_of_lost (lost_sendToMembers _ _ _ _)

@[simp] theorem still_broadcastSession (name : Bytes) :
    (s.broadcastSession name).still = s.still := still_of_lost (lost_broadcastSession _ _)

@[simp] theorem still_setSession (name : Bytes) (entry : Session) :
    (s.setSession name entry).still = s.still := rfl

@[simp] theorem still_eraseSession (name : Bytes) : (s.eraseSession name).still = s.still := rfl

theorem still_onMessage (source gameId : Bytes) (msg : SessionMessage) :
    (s.onMessage source gameId msg).still = s.still := by
  cases msg with
  | search query => exact still_sendTo _ _
  | searchResponse answer =>
    have htake (handle : GameHandle) (s : Sessions) :
        (s.takeAnswer handle source answer).still = s.still := by
      rw [takeAnswer]
      split
      · rfl
      · split <;> rfl
    have hall (waiting : List (ResultAddress × GameHandle)) (s : Sessions) :
        (waiting.foldl (fun s p ↦ s.takeAnswer p.2 source answer) s).still = s.still := by
      induction waiting generalizing s with
      | nil => rfl
      | cons p waiting ih => rw [List.foldl_cons, ih, htake]
    show (s.onSearchResponse source gameId answer).still = s.still
    rw [onSearchResponse]
    split
    · rfl
    · exact hall _ _
  | joinRequest request =>
    show (s.onJoinRequest source request).still = s.still
    rw [onJoinRequest]
    dsimp only
    split
    · simp
    · split <;> simp
  | joinResponse answer =>
    show (s.onJoinResponse source answer).still = s.still
    rw [onJoinResponse]
    split
    · rfl
    · split
      · rfl
      · split
        · split <;> rfl
        · split
          · rfl
          · dsimp only
            split
            · rfl
            · split <;> rfl
  | infos infos =>
    show (s.onInfos source infos).still = s.still
    rw [onInfos]
    split
    · rfl
    · split <;> rfl
  | destroy notice =>
    show (s.onDestroy source notice).still = s.still
    rw [onDestroy]
    split <;> rfl
  | register notice =>
    show (s.onMembers true source notice).still = s.still
    rw [onMembers]
    split
    · rfl
    · split <;> rfl
  | unregister notice =>
    show (s.onMembers false source notice).still = s.still
    rw [onMembers]
    split
    · rfl
    · split <;> rfl

theorem still_onNetworkMessage (message : NetEnvelope) :
    (s.onNetworkMessage message).still = s.still := by
  rw [onNetworkMessage]
  split
  · rfl
  · split
    · rfl
    · split
      · rfl
      · exact still_onMessage _ _ _

theorem still_collect (address : ResultAddress) (now : Nat) :
    (s.collect address now).still = s.still := by
  have hready : (s.runCallbacks address now).2.still = s.still := by
    rw [runCallbacks]
    split
    · rw [settleFind]
      split
      · rfl
      · split <;> rfl
    · split
      · rw [settleJoin]
        split
        · split
          · rfl
          · split <;> rfl
        · rfl
      · rfl
  rw [collect]
  split
  · rfl
  · dsimp only
    split <;> exact hready

theorem still_updateSession (o : UpdateSessionOptions) (random : Option Bytes) :
    (s.updateSession o random).2.still = s.still := by
  rw [updateSession]
  split
  · rfl
  · split
    · rfl
    · dsimp only
      rw [commit]
      split
      · rfl
      · dsimp only
        generalize (if (_ : SessionModificationObject).infos.sessionId = [] then _ else _) = newId
        split <;> simp
      · rfl
      · simp

theorem still_destroySession (o : SessionNameOptions) :
    (s.destroySession o).2.still = s.still := by
  rw [destroySession]
  split <;> simp

theorem still_startSession (o : SessionNameOptions) : (s.startSession o).2.still = s.still := by
  rw [startSession]
  split
  · rfl
  · split <;> simp [enter]

theorem still_endSession (o : SessionNameOptions) : (s.endSession o).2.still = s.still := by
  rw [endSession]
  split
  · rfl
  · split <;> simp [enter]

theorem still_changePlayers (o : PlayersOptions) (latest : Int32)
    (each : List Bytes → List Bytes → List (Option Bytes) → List Bytes × List Bytes)
    (notice : SessionMembers → SessionMessage) :
    (s.changePlayers o latest each notice).2.still = s.still := by
  rw [changePlayers]
  split
  · split
    · rfl
    · split
      · rfl
      · split
        · rfl
        · dsimp only
          split <;> simp
  · rfl

theorem still_joinSession (o : JoinSessionOptions) (now : Nat) (address : ResultAddress) :
    (s.joinSession o now address).2.still = s.still := by
  have hpending (s : Sessions) (waiting : PendingSessionJoin) :
      still { s with pendingJoins := s.pendingJoins.insert address waiting } = s.still := rfl
  rw [joinSession]
  split
  · split
    · rfl
    · split
      · rfl
      · split
        · rfl
        · simp [hpending]
  · rfl

/-! ## What is staged -/

/-- What of a session no setter touches. -/
def fixedPart (infos : SessionInfos) : SessionInfos :=
  { infos with
    bucketId := [], hostAddress := [], maxPlayers := 0, permissionLevel := 0
    allowJoinInProgress := false, invitesAllowed := false, attributes := [] }

/-- What a call can make of the modification behind a handle. -/
inductive ObjectStep (s : Sessions) : Call → Option SessionModificationObject →
    Option SessionModificationObject → Prop
  | same {c : Call} {object : Option SessionModificationObject} : ObjectStep s c object object
  | released {c : Call} {object : Option SessionModificationObject} : ObjectStep s c object none
  | blank {o : CreateSessionModificationOptions} {before : Option SessionModificationObject}
      {object : SessionModificationObject} (huser : o.localUserId = some object.localUser)
      (hname : o.sessionName = some object.sessionName) (hcreating : object.creating = true)
      (hroster : object.infos.registeredPlayers = []) (howner : object.infos.ownerId = []) :
      ObjectStep s (.createSessionModification o) before (some object)
  | drawn {o : SessionNameOptions} {name : Bytes} {entry : Session}
      {before : Option SessionModificationObject} (hname : o.sessionName = some name)
      (hentry : s.sessions[name]? = some entry) :
      ObjectStep s (.updateSessionModification o) before
        (some { sessionName := name, localUser := entry.localUser, creating := false
                infos := entry.infos })
  | edited {c : Call} {object : SessionModificationObject} {infos : SessionInfos}
      (hfixed : fixedPart infos = fixedPart object.infos) :
      ObjectStep s c (some object) (some { object with infos })

variable {c : Call}

/-- What a setter does to what is staged, when its edit leaves the fixed part alone. -/
theorem objectStep_modify {handle : GameHandle} {version latest : Int32}
    {edit : SessionInfos → Except ResultCode SessionInfos}
    (hedit : ∀ infos infos', edit infos = .ok infos' → fixedPart infos' = fixedPart infos)
    (h : GameHandle) : ObjectStep s c (s.modifications.find h)
      ((s.modify handle version latest edit).2.modifications.find h) := by
  rw [modify]
  split
  · exact .same
  · rename_i object hobject
    split
    · exact .same
    · split
      · exact .same
      · rename_i infos hinfos
        rw [HandleStore.find_put]
        by_cases hh : handle = h
        · subst hh
          rw [if_pos rfl, hobject]
          exact .edited (hedit _ _ hinfos)
        · rw [if_neg hh]
          exact .same

theorem fixedPart_setText {value : Option Bytes} {set : SessionInfos → Bytes → SessionInfos}
    (hset : ∀ infos text, fixedPart (set infos text) = fixedPart infos)
    (infos infos' : SessionInfos)
    (h : setText value set infos = .ok infos') : fixedPart infos' = fixedPart infos := by
  rcases value with _ | text
  · cases h
  · cases h
    exact hset _ _

theorem objectStep_createSessionModification (o : CreateSessionModificationOptions)
    (h : GameHandle) :
    ObjectStep s (.createSessionModification o) (s.modifications.find h)
      ((s.createSessionModification o).2.2.modifications.find h) := by
  rw [createSessionModification]
  split
  · rename_i name bucket user hname hbucket huser
    dsimp only
    generalize (if o.apiVersion ≥ createSessionModWithSessionId then o.sessionId.getD []
      else []) = overrideId
    split
    · exact .same
    · split
      · exact .same
      · rw [HandleStore.find_put]
        split
        · exact .blank huser hname rfl rfl rfl
        · exact .same
  · exact .same

theorem objectStep_updateSessionModification (o : SessionNameOptions) (h : GameHandle) :
    ObjectStep s (.updateSessionModification o) (s.modifications.find h)
      ((s.updateSessionModification o).2.2.modifications.find h) := by
  rw [updateSessionModification]
  split
  · exact .same
  · rename_i name hname
    split
    · exact .same
    · split
      · exact .same
      · rename_i entry hentry
        dsimp only
        rw [HandleStore.find_put]
        split
        · exact .drawn hname hentry
        · exact .same

theorem objectStep_addAttribute (handle : GameHandle) (o : AddAttributeOptions) (h : GameHandle) :
    ObjectStep s c (s.modifications.find h)
      ((s.modificationAddAttribute handle o).2.modifications.find h) := by
  refine objectStep_modify (fun infos infos' hedit ↦ ?_) h
  dsimp only at hedit
  split at hedit
  · cases hedit
  · split at hedit
    · cases hedit
      rfl
    · split at hedit
      · cases hedit
      · cases hedit
        rfl

theorem objectStep_removeAttribute (handle : GameHandle) (o : Setting (Option Bytes))
    (h : GameHandle) : ObjectStep s c (s.modifications.find h)
      ((s.modificationRemoveAttribute handle o).2.modifications.find h) := by
  refine objectStep_modify (fun infos infos' hedit ↦ ?_) h
  split at hedit
  · cases hedit
  · split at hedit
    · cases hedit
      rfl
    · cases hedit

theorem modifications_of_still (h : s'.still = s.still) : s'.modifications = s.modifications := by
  show s'.still.modifications = s.still.modifications
  rw [h]

theorem ObjectStep.of_still (hstill : s'.still = s.still) (h : GameHandle) :
    ObjectStep s c (s.modifications.find h) (s'.modifications.find h) := by
  rw [modifications_of_still hstill]
  exact .same

theorem objectStep_editSearch {handle : GameHandle} {version : Int32}
    {edit : SessionSearchObject → Except ResultCode SessionSearchObject} (h : GameHandle) :
    ObjectStep s c (s.modifications.find h)
      ((s.editSearch handle version edit).2.modifications.find h) := by
  rw [editSearch]
  split
  · exact .same
  · split
    · exact .same
    · split <;> exact .same

theorem objectStep_searchFind {handle : GameHandle} {o : SearchFindOptions} {now : Nat}
    {address : ResultAddress} (h : GameHandle) : ObjectStep s c (s.modifications.find h)
      ((s.searchFind handle o now address).2.modifications.find h) := by
  have hsends (peers : List Bytes) (query : SessionSearch) (s : Sessions) :
      (peers.foldl (fun s peer ↦ s.sendTo peer (.search query)) s).modifications =
        s.modifications := by
    induction peers generalizing s with
    | nil => rfl
    | cons peer peers ih =>
      rw [List.foldl_cons, ih]
      exact modifications_of_still (still_sendTo peer _)
  rw [searchFind]
  split
  · exact .same
  · split
    · exact .same
    · split
      · exact .same
      · split
        · exact .same
        · rw [startSearch]
          dsimp only
          rw [hsends]
          exact .same

/-- **What one call makes of what is staged.** -/
theorem objectStep_call (c : Call) (h : GameHandle) :
    ObjectStep s c (s.modifications.find h) ((s.call c).2.modifications.find h) := by
  cases c with
  | createSessionModification o => exact objectStep_createSessionModification o h
  | updateSessionModification o => exact objectStep_updateSessionModification o h
  | modificationSetBucketId handle o =>
    refine objectStep_modify (fun infos infos' hedit ↦ ?_) h
    refine fixedPart_setText ?_ infos infos' hedit
    exact fun _ _ ↦ rfl
  | modificationSetHostAddress handle o =>
    refine objectStep_modify (fun infos infos' hedit ↦ ?_) h
    refine fixedPart_setText ?_ infos infos' hedit
    exact fun _ _ ↦ rfl
  | modificationSetPermissionLevel handle o =>
    refine objectStep_modify (fun infos infos' hedit ↦ ?_) h
    cases hedit
    rfl
  | modificationSetJoinInProgress handle o =>
    refine objectStep_modify (fun infos infos' hedit ↦ ?_) h
    cases hedit
    rfl
  | modificationSetMaxPlayers handle o =>
    refine objectStep_modify (fun infos infos' hedit ↦ ?_) h
    cases hedit
    rfl
  | modificationSetInvitesAllowed handle o =>
    refine objectStep_modify (fun infos infos' hedit ↦ ?_) h
    cases hedit
    rfl
  | modificationSetAllowedPlatformIds handle o =>
    refine objectStep_modify (fun infos infos' hedit ↦ ?_) h
    cases hedit
    rfl
  | modificationAddAttribute handle o => exact objectStep_addAttribute handle o h
  | modificationRemoveAttribute handle o => exact objectStep_removeAttribute handle o h
  | modificationRelease handle =>
    show ObjectStep s _ _ ((s.modifications.release handle).find h)
    rw [HandleStore.find_release]
    split
    · exact .released
    · exact .same
  | updateSession o random => exact .of_still (still_updateSession o random) h
  | destroySession o => exact .of_still (still_destroySession o) h
  | startSession o => exact .of_still (still_startSession o) h
  | endSession o => exact .of_still (still_endSession o) h
  | registerPlayers o => exact .of_still (still_changePlayers o _ _ _) h
  | unregisterPlayers o => exact .of_still (still_changePlayers o _ _ _) h
  | joinSession o now address => exact .of_still (still_joinSession o now address) h
  | createSessionSearch o =>
    rw [show (s.call (.createSessionSearch o)).2.modifications = s.modifications by
      show (s.createSessionSearch o).2.2.modifications = _
      rw [createSessionSearch]
      split <;> rfl]
    exact .same
  | searchSetSessionId handle o => exact objectStep_editSearch h
  | searchSetTargetUser handle o => exact objectStep_editSearch h
  | searchSetParameter handle o => exact objectStep_editSearch h
  | searchRemoveParameter handle o => exact objectStep_editSearch h
  | searchSetMaxResults handle o => exact objectStep_editSearch h
  | searchFind handle o now address => exact objectStep_searchFind h
  | searchCopyResult handle o =>
    rw [show (s.call (.searchCopyResult handle o)).2.modifications = s.modifications by
      show (s.searchCopyResult handle o).2.2.modifications = _
      rw [searchCopyResult]
      split
      · rfl
      · split
        · rfl
        · split <;> rfl]
    exact .same
  | searchRelease handle => exact .same
  | detailsRelease handle => exact .same

end Sessions
end EosMesh
