import EosMesh.Interfaces.Sessions.Roster
import EosMesh.Interfaces.Sessions.Staged
import EosMesh.Lib.Drafts

/-!
# Modification handles as drafts of a session

A modification handle holds a copy of the session it was drawn from.  The setters edit the copy, and
`update_session` writes all of it over what the session is by then, but for its id, its state and
its roster.  So two handles of one session, committed one after the other, do not add up: the second
takes back what the first one changed.

* `SessionField` takes a session apart into fields, of which `settable` have a setter and `written`
  are written by a commit.
* `Sessions.draftMark` says what an input is to the drafts: a handle is drawn, a setter touches a
  field, a handle is released, or nothing.  It is read off the input and its answer.
  `allows_draftMark` says that the step does to what is staged just that: a setter keeps to the
  fields it is said to touch, and one that fails touches nothing.
* `Drafters` is an instance with the drafts of its game (`Lib.Drafts`), each with the session it was
  drawn from and the fields its setters touched.
* `Sessions.MergesDraft` is what a commit should do: the fields that the draft touched are as it has
  them, and the others are what they were.
* `commitsUpToDate` is the condition: what the setters left alone is in the session what it was in
  the one that the draft was drawn from.

`mergesDraft_iff` says that a commit does what it should exactly under this condition, and
`meets_mergesDraft_iff` says so of runs.
-/

set_option autoImplicit false

namespace EosMesh

open Lib
open Std (TreeMap)

/-! ## The fields of a session -/

/-- What a session is, but for its players and the slots they leave. -/
inductive SessionField
  | sessionId | ownerId | bucketId | hostAddress | maxPlayers | permissionLevel | state
  | allowJoinInProgress | invitesAllowed | sanctionsEnabled
  | attr (key : Bytes)
  deriving DecidableEq, Repr

namespace SessionField

/-- The fields there is a setter for. -/
def settable : SessionField → Bool
  | sessionId | ownerId | state | sanctionsEnabled => false
  | _ => true

/-- The fields a commit writes: the id and the state are the session's own. -/
def written : SessionField → Bool
  | sessionId | state => false
  | _ => true

end SessionField

namespace SessionInfos

/-- What a session has in a field. -/
def field (infos : SessionInfos) : SessionField → FieldValue
  | .sessionId => .text infos.sessionId
  | .ownerId => .text infos.ownerId
  | .bucketId => .text infos.bucketId
  | .hostAddress => .text infos.hostAddress
  | .maxPlayers => .count infos.maxPlayers
  | .permissionLevel => .level infos.permissionLevel
  | .state => .level infos.state
  | .allowJoinInProgress => .flag infos.allowJoinInProgress
  | .invitesAllowed => .flag infos.invitesAllowed
  | .sanctionsEnabled => .flag infos.sanctionsEnabled
  | .attr key => .attr (attributeAt infos.attributes key)

/-- A session nobody owns is the local user's. -/
def ownedBy (infos : SessionInfos) (user : Bytes) : SessionInfos :=
  { infos with ownerId := if infos.ownerId = [] then user else infos.ownerId }

theorem field_ownedBy (infos : SessionInfos) (user : Bytes) {key : SessionField}
    (h : key ≠ .ownerId) : (infos.ownedBy user).field key = infos.field key := by
  cases key <;> first | rfl | exact absurd rfl h

theorem field_ownedBy_congr {infos infos' : SessionInfos} (user : Bytes) {key : SessionField}
    (h : infos.field key = infos'.field key) :
    (infos.ownedBy user).field key = (infos'.ownedBy user).field key := by
  by_cases hkey : key = .ownerId
  · subst hkey
    have heq : infos.ownerId = infos'.ownerId := FieldValue.text.inj h
    simp [field, ownedBy, heq]
  · rw [field_ownedBy _ _ hkey, field_ownedBy _ _ hkey, h]

end SessionInfos

namespace Sessions

variable {s s' : Sessions}

/-! ## Drawing and editing -/

/-- The draft of an object, whose notes are right. -/
structure Drawn (d : Draft SessionInfos SessionField) (staged : SessionInfos) : Prop where
  faithful : d.Of SessionInfos.field staged
  settable : ∀ key ∈ d.touched, key.settable = true

theorem Drawn.drawn (base : SessionInfos) : Drawn { base } base := ⟨.drawn base, by simp⟩

/-- The setters: whose handle, and the fields it may touch. -/
def Call.edits : Call → Option (GameHandle × List SessionField)
  | .modificationSetBucketId handle _ => some (handle, [.bucketId])
  | .modificationSetHostAddress handle _ => some (handle, [.hostAddress])
  | .modificationSetPermissionLevel handle _ => some (handle, [.permissionLevel])
  | .modificationSetJoinInProgress handle _ => some (handle, [.allowJoinInProgress])
  | .modificationSetMaxPlayers handle _ => some (handle, [.maxPlayers])
  | .modificationSetInvitesAllowed handle _ => some (handle, [.invitesAllowed])
  | .modificationSetAllowedPlatformIds handle _ => some (handle, [])
  | .modificationAddAttribute handle o =>
    some (handle, (o.sessionAttribute.bind (·.key)).toList.map .attr)
  | .modificationRemoveAttribute handle o => some (handle, o.value.toList.map .attr)
  | _ => none

/-- A call that drew a draft, when it did. -/
def drawMark (result : ResultCode × Option GameHandle × Sessions) :
    Mark GameHandle SessionInfos SessionField :=
  match result.2.1 with
  | none => .none
  | some handle =>
    match result.2.2.modifications.find handle with
    | none => .none
    | some object => .draws handle object.infos

/-- What an input is to the drafts: a setter that fails touches nothing. -/
def draftMark (s : Sessions) : Input → Mark GameHandle SessionInfos SessionField
  | .call (.createSessionModification o) => drawMark (s.createSessionModification o)
  | .call (.updateSessionModification o) => drawMark (s.updateSessionModification o)
  | .call c =>
    match c.edits with
    | none => .none
    | some (handle, keys) => if (s.call c).1 = .success then .touches handle keys else .none
  | _ => .none

/-- What a handle stages. -/
def staged (s : Sessions) (handle : GameHandle) : Option SessionInfos :=
  (s.modifications.find handle).map (·.infos)

/-- What a mark says of the step it is of. -/
abbrev AllowsMark (s s' : Sessions) (m : Mark GameHandle SessionInfos SessionField) : Prop :=
  m.Allows Drawn s.staged s'.staged

theorem allows_none (h : s'.modifications = s.modifications) : AllowsMark s s' .none :=
  fun handle infos hinfos ↦ by rwa [staged, h] at hinfos

/-- A setter does to what is staged what its mark says. -/
theorem allows_modify {handle : GameHandle} {version latest : Int32} {keys : List SessionField}
    {edit : SessionInfos → Except ResultCode SessionInfos}
    (hkeys : ∀ key ∈ keys, key.settable = true)
    (hedit : ∀ infos infos', edit infos = .ok infos' → ∀ key, key ∉ keys →
      infos'.field key = infos.field key) :
    AllowsMark s (s.modify handle version latest edit).2
      (if (s.modify handle version latest edit).1 = .success then .touches handle keys
        else .none) := by
  -- When nothing is staged anew, no note of it does harm.
  have hsame (p : Prop) [Decidable p] : AllowsMark s s
      (if p then .touches handle keys else .none) := by
    split
    · intro h infos hinfos
      split
      · refine ⟨infos, hinfos, fun d hd ↦ ⟨hd.faithful.touch fun _ _ ↦ rfl, fun key hkey ↦ ?_⟩⟩
        exact (List.mem_append.1 hkey).elim (hd.settable key) (hkeys key)
      · exact hinfos
    · exact allows_none rfl
  unfold modify
  split
  · exact hsame _
  · rename_i object hobject
    split
    · exact hsame _
    · split
      · exact hsame _
      · rename_i infos hinfos
        rw [if_pos rfl]
        intro h infos' hinfos'
        rw [staged, HandleStore.find_put] at hinfos'
        by_cases hh : h = handle
        · subst hh
          rw [if_pos rfl] at hinfos' ⊢
          obtain rfl : infos = infos' := Option.some.inj hinfos'
          refine ⟨object.infos, by rw [staged, hobject]; rfl, fun d hd ↦ ⟨hd.faithful.touch ?_,
            fun key hkey ↦ ?_⟩⟩
          · exact hedit _ _ hinfos
          · exact (List.mem_append.1 hkey).elim (hd.settable key) (hkeys key)
        · rw [if_neg (Ne.symm hh)] at hinfos'
          rw [if_neg hh]
          exact hinfos'

/-- Drawing a draft is all a call does that draws one. -/
theorem allows_draw {handle : GameHandle} {object : SessionModificationObject} {code : ResultCode}
    (h : s'.modifications = s.modifications.put handle object) :
    AllowsMark s s' (drawMark (code, some handle, s')) := by
  have hfind : s'.modifications.find handle = some object := by
    rw [h, HandleStore.find_put, if_pos rfl]
  simp only [drawMark, hfind]
  refine ⟨.drawn _, fun handle' infos hinfos ↦ ?_⟩
  rw [staged, h, HandleStore.find_put] at hinfos
  by_cases hh : handle' = handle
  · rw [if_pos hh.symm] at hinfos
    rw [if_pos hh]
    exact (Option.some.inj hinfos).symm
  · rw [if_neg (Ne.symm hh)] at hinfos
    rw [if_neg hh]
    exact hinfos

theorem allows_setText {handle : GameHandle} {version : Int32} {value : Option Bytes}
    {key : SessionField} {set : SessionInfos → Bytes → SessionInfos} (hkey : key.settable = true)
    (hset : ∀ infos text other, other ≠ key → (set infos text).field other = infos.field other) :
    AllowsMark s (s.modify handle version sessionsApiLatest (setText value set)).2
      (if (s.modify handle version sessionsApiLatest (setText value set)).1 = .success
        then .touches handle [key] else .none) := by
  refine allows_modify (by simpa using hkey) fun infos infos' hedit other hother ↦ ?_
  rcases value with _ | text
  · cases hedit
  · cases hedit
    exact hset infos text other (by simpa using hother)

theorem allows_addAttribute (handle : GameHandle) (o : AddAttributeOptions) :
    AllowsMark s (s.modificationAddAttribute handle o).2
      (draftMark s (.call (.modificationAddAttribute handle o))) := by
  refine allows_modify (by simp [SessionField.settable]) fun infos infos' hedit key hkey ↦ ?_
  dsimp only at hedit
  split at hedit
  · cases hedit
  · rename_i attr hattr
    rw [readAttribute_key hattr] at hkey
    have hother : key ≠ .attr attr.key := by simpa using hkey
    split at hedit
    · rename_i attributes hattributes
      cases hedit
      cases key with
      | attr other =>
        have hne : attr.key ≠ other := fun heq ↦ hother (heq ▸ rfl)
        rw [SessionInfos.field, SessionInfos.field, attributeAt_replace hattributes, if_neg hne]
      | _ => rfl
    · split at hedit
      · cases hedit
      · cases hedit
        cases key with
        | attr other =>
          have hne : attr.key ≠ other := fun heq ↦ hother (heq ▸ rfl)
          exact congrArg FieldValue.attr (attributeAt_append_singleton (by exact hne))
        | _ => rfl

theorem allows_removeAttribute (handle : GameHandle) (o : Setting (Option Bytes)) :
    AllowsMark s (s.modificationRemoveAttribute handle o).2
      (draftMark s (.call (.modificationRemoveAttribute handle o))) := by
  refine allows_modify (by simp [SessionField.settable]) fun infos infos' hedit key hkey ↦ ?_
  split at hedit
  · cases hedit
  · rename_i removed hremoved
    rw [hremoved] at hkey
    have hother : key ≠ .attr removed := by simpa using hkey
    split at hedit
    · cases hedit
      cases key with
      | attr other =>
        have hne : removed ≠ other := fun heq ↦ hother (heq ▸ rfl)
        rw [SessionInfos.field, SessionInfos.field, attributeAt_eraseP hne]
      | _ => rfl
    · cases hedit

theorem allows_createSessionModification (o : CreateSessionModificationOptions) :
    AllowsMark s (s.createSessionModification o).2.2
    (drawMark (s.createSessionModification o)) := by
  rw [createSessionModification]
  split
  · dsimp only
    generalize (if o.apiVersion ≥ createSessionModWithSessionId then o.sessionId.getD []
      else []) = overrideId
    split
    · exact allows_none rfl
    · split
      · exact allows_none rfl
      · exact allows_draw rfl
  · exact allows_none rfl

theorem allows_updateSessionModification (o : SessionNameOptions) :
    AllowsMark s (s.updateSessionModification o).2.2
    (drawMark (s.updateSessionModification o)) := by
  rw [updateSessionModification]
  split
  · exact allows_none rfl
  · split
    · exact allows_none rfl
    · split
      · exact allows_none rfl
      · exact allows_draw rfl

theorem allows_release (handle : GameHandle) :
    AllowsMark s (s.modificationRelease handle) .none := fun h infos hinfos ↦ by
  rw [staged, modificationRelease, HandleStore.find_release] at hinfos
  split at hinfos
  · cases hinfos
  · exact hinfos

theorem modifications_startSearch (handle : GameHandle) (object : SessionSearchObject) (now : Nat)
    (address : ResultAddress) :
    (s.startSearch handle object now address).modifications = s.modifications := by
  have hsends (peers : List Bytes) (query : SessionSearch) (s : Sessions) :
      (peers.foldl (fun s peer ↦ s.sendTo peer (.search query)) s).modifications =
        s.modifications := by
    induction peers generalizing s with
    | nil => rfl
    | cons peer peers ih =>
      rw [List.foldl_cons, ih]
      exact modifications_of_still (still_sendTo peer _)
  exact hsends _ _ _

theorem modifications_editSearch (handle : GameHandle) (version : Int32)
    (edit : SessionSearchObject → Except ResultCode SessionSearchObject) :
    (s.editSearch handle version edit).2.modifications = s.modifications := by
  rw [editSearch]
  split
  · rfl
  · split
    · rfl
    · split <;> rfl

/-- **A call does to the drafts what its mark says.** -/
theorem allows_call (c : Call) : AllowsMark s (s.call c).2 (draftMark s (.call c)) := by
  cases c with
  | createSessionModification o => exact allows_createSessionModification o
  | updateSessionModification o => exact allows_updateSessionModification o
  | modificationSetBucketId handle o =>
    refine allows_setText rfl fun infos text other hother ↦ ?_
    cases other <;> first | rfl | exact absurd rfl hother
  | modificationSetHostAddress handle o =>
    refine allows_setText rfl fun infos text other hother ↦ ?_
    cases other <;> first | rfl | exact absurd rfl hother
  | modificationSetPermissionLevel handle o =>
    refine allows_modify (by decide) fun infos infos' hedit other hother ↦ ?_
    cases hedit
    cases other <;> first | rfl | simp at hother
  | modificationSetJoinInProgress handle o =>
    refine allows_modify (by decide) fun infos infos' hedit other hother ↦ ?_
    cases hedit
    cases other <;> first | rfl | simp at hother
  | modificationSetMaxPlayers handle o =>
    refine allows_modify (by decide) fun infos infos' hedit other hother ↦ ?_
    cases hedit
    cases other <;> first | rfl | simp at hother
  | modificationSetInvitesAllowed handle o =>
    refine allows_modify (by decide) fun infos infos' hedit other hother ↦ ?_
    cases hedit
    cases other <;> first | rfl | simp at hother
  | modificationSetAllowedPlatformIds handle o =>
    refine allows_modify (by simp) fun infos infos' hedit other hother ↦ ?_
    cases hedit
    rfl
  | modificationAddAttribute handle o => exact allows_addAttribute handle o
  | modificationRemoveAttribute handle o => exact allows_removeAttribute handle o
  | modificationRelease handle => exact allows_release handle
  | updateSession o random =>
    exact allows_none (modifications_of_still (still_updateSession o random))
  | destroySession o => exact allows_none (modifications_of_still (still_destroySession o))
  | startSession o => exact allows_none (modifications_of_still (still_startSession o))
  | endSession o => exact allows_none (modifications_of_still (still_endSession o))
  | registerPlayers o => exact allows_none (modifications_of_still (still_changePlayers o _ _ _))
  | unregisterPlayers o => exact allows_none (modifications_of_still (still_changePlayers o _ _ _))
  | joinSession o now address =>
    exact allows_none (modifications_of_still (still_joinSession o now address))
  | createSessionSearch o =>
    refine allows_none ?_
    show (s.createSessionSearch o).2.2.modifications = _
    rw [createSessionSearch]
    split <;> rfl
  | searchSetSessionId handle o => exact allows_none (modifications_editSearch _ _ _)
  | searchSetTargetUser handle o => exact allows_none (modifications_editSearch _ _ _)
  | searchSetParameter handle o => exact allows_none (modifications_editSearch _ _ _)
  | searchRemoveParameter handle o => exact allows_none (modifications_editSearch _ _ _)
  | searchSetMaxResults handle o => exact allows_none (modifications_editSearch _ _ _)
  | searchFind handle o now address =>
    refine allows_none ?_
    show (s.searchFind handle o now address).2.modifications = _
    rw [searchFind]
    split
    · rfl
    · split
      · rfl
      · split
        · rfl
        · split
          · rfl
          · exact modifications_startSearch _ _ _ _
  | searchCopyResult handle o =>
    refine allows_none ?_
    show (s.searchCopyResult handle o).2.2.modifications = _
    rw [searchCopyResult]
    split
    · rfl
    · split
      · rfl
      · split <;> rfl
  | searchRelease handle => exact allows_none rfl
  | detailsRelease handle => exact allows_none rfl

theorem allows_draftMark {i : Input} (h : step s i = some s') :
    AllowsMark s s' (draftMark s i) := by
  cases i with
  | call c =>
    rw [step] at h
    split at h
    · cases h
      exact allows_call c
    · cases h
  | receive message =>
    cases h
    exact allows_none (modifications_of_still (still_onNetworkMessage message))
  | collect address now =>
    cases h
    exact allows_none (modifications_of_still (still_collect address now))
  | around peers known losses =>
    cases h
    exact allows_none rfl

/-! ## Committing -/

/-- A commit that is carried out: its handle, what that stages, and the session it is written
over. -/
def committing (s : Sessions) : Input → Option (GameHandle × SessionModificationObject × Session)
  | .call (.updateSession o _) =>
    match s.modifications.find o.sessionModificationHandle with
    | none => none
    | some object =>
      if versionOk o.apiVersion sessionsApiLatest ∧ ¬ object.creating then
        (s.findByName object.sessionName).map fun entry ↦
          (o.sessionModificationHandle, object, entry)
      else none
  | _ => none

/-- The sessions of an instance, and the drafts of its game. -/
abbrev Drafters := Drafting Sessions GameHandle SessionInfos SessionField

/-- A step, with the marks that it makes. -/
def Drafters.next : Drafters → Input → Option Drafters := Drafting.next step draftMark

/-- Before the first step nothing is staged by anybody. -/
def Drafters.start (s : Sessions) : Drafters := Drafting.start s

/-- What the commit of a draft should come to: the fields the draft's own setters touched are as it
has them, and nothing else has changed but by the peers lost on the way. -/
structure Merges (w : Drafters) (i : Input) (object : SessionModificationObject) (entry : Session)
    (d : Draft SessionInfos SessionField) (s' : Sessions) (gone : List Bytes) (entry' : Session) :
    Prop where
  lookup : s'.sessions[object.sessionName]? = some entry'
  fields : entry'.infos.field = d.merged (fun _ ↦ true) object.infos.field entry.infos.field
  players : entry'.players = gone.foldl List.erase entry.players
  openSlots : entry'.infos.openSlots = openSlotsOf entry'.infos
  user : entry'.localUser = entry.localUser
  localState : entry'.localState = entry.localState
  others : ∀ name : Bytes, name ≠ object.sessionName →
    s'.sessions[name]? = w.state.sessions[name]?.map (Session.without · gone)
  gone : ∀ peer ∈ gone, wasLost w.state i s' peer

/-- Every commit a step carries out merges its draft. -/
def MergesDraft (w : Drafters) (i : Input) : Prop :=
  ∀ handle object entry, committing w.state i = some (handle, object, entry) →
    ∃ d s' gone entry', w.drafts handle = some d ∧ step w.state i = some s' ∧
      Merges w i object entry d s' gone entry'

/-- The condition on a commit: the fields its setters left alone are in the session what they were
in the one it was drawn from. -/
def commitsUpToDate (w : Drafters) (i : Input) : Prop :=
  ∀ handle object entry d, committing w.state i = some (handle, object, entry) →
    w.drafts handle = some d →
    d.UpToDate SessionField.written (d.base.ownedBy entry.localUser).field entry.infos.field

/-- A commit writes back all it has. -/
theorem field_modified (entry : Session) (object : SessionModificationObject) :
    (Session.modified entry object).infos.field =
      Draft.writtenBack SessionField.written (object.infos.ownedBy entry.localUser).field
        entry.infos.field := by
  funext key
  cases key <;> rfl

theorem Session.field_without (entry : Session) (gone : List Bytes) :
    (entry.without gone).infos.field = entry.infos.field :=
  Session.eq_of_frame_eq (·.infos.field) (fun e ↦ by funext key; cases key <;> rfl)
    (Session.frame_without entry gone)

theorem Session.openSlots_without {entry : Session}
    (h : entry.infos.openSlots = openSlotsOf entry.infos) (gone : List Bytes) :
    (entry.without gone).infos.openSlots = openSlotsOf (entry.without gone).infos := by
  induction gone generalizing entry with
  | nil => exact h
  | cons peer gone ih => exact ih rfl

/-- What a commit that is carried out leaves. -/
theorem lookup_commit {i : Input} {handle : GameHandle} {object : SessionModificationObject}
    {entry : Session} (h : committing s i = some (handle, object, entry)) :
    s.sessions[object.sessionName]? = some entry ∧
      s.modifications.find handle = some object ∧
      ∃ s' gone, step s i = some s' ∧ (∀ peer ∈ gone, wasLost s i s' peer) ∧
        ∀ name : Bytes, s'.sessions[name]? =
          (if name = object.sessionName then some (Session.modified entry object)
            else s.sessions[name]?).map (Session.without · gone) := by
  unfold committing at h
  split at h
  · rename_i o random
    split at h
    · cases h
    · rename_i object' hobject
      split at h
      · rename_i hgo
        obtain ⟨entry', hentry, heq⟩ := Option.map_eq_some_iff.1 h
        cases heq
        obtain ⟨gone, hgone, hlost⟩ := lost_broadcastSession
          (s.setSession object.sessionName (Session.modified entry object)) object.sessionName
        refine ⟨hentry, hobject, (s.setSession object.sessionName
          (Session.modified entry object)).broadcastSession object.sessionName, gone, ?_,
            fun peer hpeer ↦ .inl (hgone peer hpeer), fun name ↦ ?_⟩
        · simp [step, Call.address?, call, updateSession, hobject, hgo, commit, hentry]
        · rw [hlost.lookup, setSession, lookup_insert]
          simp only [eq_comm]
      · cases h
  · cases h

/-- No setter touches the owner. -/
theorem merged_ownedBy {d : Draft SessionInfos SessionField} {infos : SessionInfos}
    (h : Drawn d infos) (may : SessionField → Bool) (user : Bytes)
    (now : SessionField → FieldValue) :
    d.merged may (infos.ownedBy user).field now = d.merged may infos.field now := by
  funext key
  rw [Draft.merged, Draft.merged]
  split
  · rename_i htouched
    refine SessionInfos.field_ownedBy _ _ fun hkey ↦ ?_
    have hsettable := h.settable key htouched.1
    rw [hkey] at hsettable
    cases hsettable
  · rfl

/-- **A commit merges its draft exactly when the draft is up to date.** -/
theorem mergesDraft_iff {w : Drafters} {i : Input} (h : w.Fitting Drawn staged) :
    MergesDraft w i ↔ commitsUpToDate w i := by
  have hexact {handle : GameHandle} {object : SessionModificationObject} {entry : Session}
      {d : Draft SessionInfos SessionField}
      (hcommit : committing w.state i = some (handle, object, entry))
      (hd : w.drafts handle = some d) :
      (Session.modified entry object).infos.field =
          d.merged (fun _ ↦ true) object.infos.field entry.infos.field ↔
        d.UpToDate SessionField.written (d.base.ownedBy entry.localUser).field
          entry.infos.field := by
    obtain ⟨-, hobject, -⟩ := lookup_commit hcommit
    obtain ⟨d', hd', hdrawn⟩ := h handle object.infos (by rw [staged, hobject]; rfl)
    obtain rfl : d = d' := Option.some.inj (hd.symm.trans hd')
    rw [field_modified, ← merged_ownedBy hdrawn _ entry.localUser]
    refine Draft.writtenBack_eq_merged_iff (fun key hkey ↦ ?_) fun key hkey ↦ ?_
    · exact SessionInfos.field_ownedBy_congr _ (hdrawn.faithful key hkey)
    · have hsettable := hdrawn.settable key hkey
      cases key <;> first | rfl | cases hsettable
  constructor
  · intro hmerges handle object entry d hcommit hd
    obtain ⟨d', s', gone, entry', hd', hstep, hmerged⟩ := hmerges handle object entry hcommit
    obtain rfl : d = d' := Option.some.inj (hd.symm.trans hd')
    obtain ⟨-, -, s'', gone', hstep', -, hlookup⟩ := lookup_commit hcommit
    obtain rfl : s' = s'' := Option.some.inj (hstep.symm.trans hstep')
    have hentry' := hmerged.lookup
    rw [hlookup, if_pos rfl] at hentry'
    obtain rfl := Option.some.inj hentry'
    rw [← hexact hcommit hd, ← hmerged.fields, Session.field_without]
  · intro huptodate handle object entry hcommit
    obtain ⟨hentry, hobject, s', gone, hstep, hgone, hlookup⟩ := lookup_commit hcommit
    obtain ⟨d, hd, -⟩ := h handle object.infos (by rw [staged, hobject]; rfl)
    refine ⟨d, s', gone, (Session.modified entry object).without gone, hd, hstep, ?_⟩
    exact
      { lookup := by rw [hlookup, if_pos rfl]; rfl
        fields := by
          rw [Session.field_without]
          exact (hexact hcommit hd).2 (huptodate handle object entry d hcommit hd)
        players := Session.without_players _ _
        openSlots := Session.openSlots_without rfl gone
        user := Session.without_localUser _ _
        localState := Session.without_localState _ _
        others := fun name hname ↦ by rw [hlookup, if_neg hname]
        gone := hgone }

/-- Along a run, the notes are right. -/
theorem fitting_next {w w' : Drafters} {i : Input} (h : w.Fitting Drawn staged)
    (hnext : w.next i = some w') : w'.Fitting Drawn staged :=
  h.next (fun _ hs' ↦ allows_draftMark hs') hnext

theorem fitting_start {s : Sessions} (h : s.modifications = {}) :
    (Drafters.start s).Fitting Drawn staged :=
  .start fun handle ↦ by rw [staged, h, HandleStore.find_empty]; rfl

/-- **Sessions lose no update exactly** along the runs in which every commit is up to date. -/
theorem meets_mergesDraft_iff (self product : Bytes) (inputs : List Input) :
    meets Drafters.next MergesDraft (Drafters.start (fresh self product)) inputs ↔
      meets Drafters.next commitsUpToDate (Drafters.start (fresh self product)) inputs :=
  meets_congr (fitting_start rfl) (fun _ _ _ h hnext ↦ fitting_next h hnext)
    (fun _ _ h ↦ mergesDraft_iff h) inputs

end Sessions
end EosMesh
