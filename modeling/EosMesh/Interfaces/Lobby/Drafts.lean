import EosMesh.Interfaces.Lobby.Hosting
import EosMesh.Interfaces.Lobby.Still
import EosMesh.Lib.Drafts

/-!
# Modification handles as drafts of a lobby

A modification handle of a lobby holds a copy of its settings, and apart from it the edits of the
local user's own attributes.  `update_lobby` writes all of the copy over the settings of a lobby the
user owns, and applies the edits to what its attributes are by then.  So a commit undoes what
somebody else committed in between, in the settings though not in the attributes of members.

* `LobbyField` takes a lobby apart into what a commit may change, one field at a time; the
  attributes of our own member are one field each.
* `Lobbies.draftMark` says what an input is to the drafts: a handle is drawn, a setter touches a
  field, a handle is released, or nothing.  It is read off the input and its answer.
  `allows_draftMark` says that the step does to what is staged just that; a setter that fails
  touches nothing.
* `Drafters` is an instance with the drafts of its game (`Lib.Drafts`), each with the lobby it was
  drawn from and the fields its setters touched.
* `Lobbies.MergesDraft` is what a commit should do: the fields the draft touched are as it has them,
  of those the user may change, and every other field is what it was.
* `commitsUpToDate` is the condition: what the setters left alone is in the lobby what it was in the
  one that the draft was drawn from.

`mergesDraft_iff` says that a commit does what it should exactly under this condition, and
`meets_mergesDraft_iff` says so of runs.
-/

set_option autoImplicit false

namespace EosMesh

open Lib
open Std (TreeMap)

/-! ## The fields of a lobby -/

/-- What a lobby is, but for its owner, and for its members besides the attributes of our own. -/
inductive LobbyField
  | lobbyId | bucketId | permissionLevel | maxMembers | allowInvites | allowHostMigration
  | allowJoinById | rtcEnabled
  | attr (key : Bytes)
  | memberAttr (key : Bytes)
  deriving DecidableEq, Repr

namespace LobbyField

/-- Only the host may change the settings; anyone may change its own attributes. -/
def mayChange (owner member : Bool) : LobbyField → Bool
  | bucketId | permissionLevel | maxMembers | allowInvites | attr _ => owner
  | memberAttr _ => member
  | _ => false

/-- The fields the commit of an owner writes whether its setters touched them or not. -/
def written (owner : Bool) : LobbyField → Bool
  | bucketId | permissionLevel | maxMembers | allowInvites | attr _ => owner
  | _ => false

end LobbyField

namespace LobbyInfos

/-- The attributes of a member. -/
def attributesOf (infos : LobbyInfos) (userId : Bytes) : List SessionAttribute :=
  ((infos.findMember userId).map (·.attributes)).getD []

/-- What the settings of a lobby say, and the attributes of one of its members. -/
def field (infos : LobbyInfos) (attributes : List SessionAttribute) : LobbyField → FieldValue
  | .lobbyId => .text infos.lobbyId
  | .bucketId => .text infos.bucketId
  | .permissionLevel => .level infos.permissionLevel
  | .maxMembers => .count infos.maxMembers
  | .allowInvites => .flag infos.allowInvites
  | .allowHostMigration => .flag infos.allowHostMigration
  | .allowJoinById => .flag infos.allowJoinById
  | .rtcEnabled => .flag infos.rtcEnabled
  | .attr key => .attr (attributeAt infos.attributes key)
  | .memberAttr key => .attr (attributeAt attributes key)

/-- What a lobby says to one of its members. -/
def fieldFor (infos : LobbyInfos) (userId : Bytes) : LobbyField → FieldValue :=
  infos.field (infos.attributesOf userId)

end LobbyInfos

/-- What a handle stages: an own attribute that is deleted is there no more. -/
def LobbyModificationObject.field (object : LobbyModificationObject) : LobbyField → FieldValue :=
  object.infos.field object.memberSet

/-! ## Attributes -/

theorem attributeAt_upsert (attrs : List SessionAttribute) (attr : SessionAttribute) (key : Bytes) :
    attributeAt (upsertAttribute attrs attr) key =
      if attr.key = key then some attr else attributeAt attrs key := by
  rw [upsertAttribute]
  cases hreplace : replaceAttribute attr attrs with
  | some attributes => exact attributeAt_replace hreplace
  | none =>
    by_cases hkey : attr.key = key
    · have hnone := replaceAttribute_eq_none hreplace
      rw [if_pos hkey]
      simp only [attributeAt, Option.getD_none, List.find?_append]
      rw [List.find?_eq_none.2 fun a ha ↦ by simpa [← hkey] using hnone a ha]
      simp [hkey]
    · rw [if_neg hkey]
      exact attributeAt_append_singleton hkey

theorem attributeAt_foldl_remove (keys : List Bytes) (attrs : List SessionAttribute) (key : Bytes) :
    attributeAt (keys.foldl removeAttribute attrs) key =
      if key ∈ keys then none else attributeAt attrs key := by
  induction keys generalizing attrs with
  | nil => rfl
  | cons removed keys ih =>
    rw [List.foldl_cons, ih, removeAttribute, attributeAt_filter]
    by_cases hkey : key ∈ keys
    · simp [hkey]
    · simp [hkey, eq_comm]

theorem attributeAt_foldl_upsert {edits : List SessionAttribute}
    (h : (edits.map (·.key)).Nodup) (attrs : List SessionAttribute) (key : Bytes) :
    attributeAt (edits.foldl upsertAttribute attrs) key =
      if key ∈ edits.map (·.key) then attributeAt edits key else attributeAt attrs key := by
  induction edits generalizing attrs with
  | nil => rfl
  | cons edit edits ih =>
    rw [List.map_cons, List.nodup_cons] at h
    rw [List.foldl_cons, ih h.2, attributeAt_upsert, List.map_cons]
    by_cases hkey : edit.key = key
    · subst hkey
      simp [h.1, attributeAt]
    · have hfind : attributeAt (edit :: edits) key = attributeAt edits key := by
        simp [attributeAt, hkey]
      rw [hfind, if_neg hkey]
      simp only [List.mem_cons, Ne.symm hkey, false_or]

/-- The keys of a list that gained an attribute, or had one replaced. -/
theorem keys_upsert (attrs : List SessionAttribute) (attr : SessionAttribute) :
    (upsertAttribute attrs attr).map (·.key) =
      if attr.key ∈ attrs.map (·.key) then attrs.map (·.key)
      else attrs.map (·.key) ++ [attr.key] := by
  rw [upsertAttribute]
  cases hreplace : replaceAttribute attr attrs with
  | none =>
    have hnone := replaceAttribute_eq_none hreplace
    rw [if_neg]
    · simp
    · intro hin
      obtain ⟨a, ha, hkey⟩ := List.mem_map.1 hin
      exact hnone a ha hkey
  | some attributes =>
    have hkeys : attributes.map (·.key) = attrs.map (·.key) ∧ attr.key ∈ attrs.map (·.key) := by
      induction attrs generalizing attributes with
      | nil => cases hreplace
      | cons first rest ih =>
        rw [replaceAttribute] at hreplace
        split at hreplace
        · obtain rfl := Option.some.inj hreplace
          simp [*]
        · obtain ⟨tail, htail, rfl⟩ := Option.map_eq_some_iff.1 hreplace
          obtain ⟨heq, hin⟩ := ih tail htail
          simp [heq, hin]
    rw [if_pos hkeys.2]
    exact hkeys.1

namespace Lobbies

variable {s s' : Lobbies}

/-! ## Drawing and editing -/

/-- The draft of an object, whose notes are right. -/
structure Drawn (d : Draft LobbyModificationObject LobbyField)
    (staged : LobbyModificationObject) : Prop where
  faithful : d.Of LobbyModificationObject.field staged
  distinct : (staged.memberSet.map (·.key)).Nodup
  members : ∀ key : Bytes, .memberAttr key ∈ d.touched ↔
    key ∈ staged.memberSet.map (·.key) ∨ key ∈ staged.memberDeleted

/-- An edit of what is staged, when it is of `keys`. -/
structure EditsKeys (keys : List LobbyField) (staged staged' : LobbyModificationObject) : Prop where
  other : ∀ key, key ∉ keys → staged'.field key = staged.field key
  distinct : (staged.memberSet.map (·.key)).Nodup → (staged'.memberSet.map (·.key)).Nodup
  members : ∀ key : Bytes,
    key ∈ staged'.memberSet.map (·.key) ∨ key ∈ staged'.memberDeleted ↔
      (key ∈ staged.memberSet.map (·.key) ∨ key ∈ staged.memberDeleted) ∨ .memberAttr key ∈ keys

theorem Drawn.touch {d : Draft LobbyModificationObject LobbyField} {keys : List LobbyField}
    {staged staged' : LobbyModificationObject} (h : Drawn d staged)
    (hedit : EditsKeys keys staged staged') : Drawn (d.touch keys) staged' where
  faithful := h.faithful.touch hedit.other
  distinct := hedit.distinct h.distinct
  members key := by
    rw [hedit.members, ← h.members]
    exact List.mem_append

/-- An edit of the copy of the settings. -/
theorem EditsKeys.settings {keys : List LobbyField} {staged : LobbyModificationObject}
    {infos : LobbyInfos} (hkeys : ∀ key ∈ keys, ∀ k, key ≠ .memberAttr k)
    (hother : ∀ key, key ∉ keys →
      infos.field staged.memberSet key = staged.infos.field staged.memberSet key) :
    EditsKeys keys staged { staged with infos } where
  other := hother
  distinct h := h
  members key := by
    refine (or_iff_left fun hin ↦ ?_).symm
    exact hkeys _ hin key rfl

/-- A setter that succeeded, or not. -/
def touchMark (code : ResultCode) (handle : GameHandle) (keys : List LobbyField) :
    Mark GameHandle LobbyModificationObject LobbyField :=
  if code = .success then .touches handle keys else .none

/-- The key an attribute is given under. -/
def givenKey (o : LobbyAttributeOptions) : List Bytes := (o.attr.bind (·.key)).toList

/-- A call that drew a draft, when it did. -/
def drawMark (result : ResultCode × Option GameHandle × Lobbies) :
    Mark GameHandle LobbyModificationObject LobbyField :=
  match result.2.1 with
  | none => .none
  | some handle =>
    match result.2.2.modifications.find handle with
    | none => .none
    | some object => .draws handle object

/-- What an input is to the drafts: a setter that fails touches nothing. -/
def draftMark (s : Lobbies) : Input → Mark GameHandle LobbyModificationObject LobbyField
  | .call (.updateLobbyModification o) => drawMark (s.updateLobbyModification o)
  | .call (.modificationSetBucketId handle bucketId) =>
    touchMark (s.modificationSetBucketId handle bucketId).1 handle [.bucketId]
  | .call (.modificationSetPermissionLevel handle level) =>
    touchMark (s.modificationSetPermissionLevel handle level).1 handle [.permissionLevel]
  | .call (.modificationSetMaxMembers handle maxMembers) =>
    touchMark (s.modificationSetMaxMembers handle maxMembers).1 handle [.maxMembers]
  | .call (.modificationSetInvitesAllowed handle allowed) =>
    touchMark (s.modificationSetInvitesAllowed handle allowed).1 handle [.allowInvites]
  | .call (.modificationAddAttribute handle o) =>
    touchMark (s.modificationAddAttribute handle o).1 handle ((givenKey o).map .attr)
  | .call (.modificationRemoveAttribute handle key) =>
    touchMark (s.modificationRemoveAttribute handle key).1 handle (key.toList.map .attr)
  | .call (.modificationAddMemberAttribute handle o) =>
    touchMark (s.modificationAddMemberAttribute handle o).1 handle ((givenKey o).map .memberAttr)
  | .call (.modificationRemoveMemberAttribute handle key) =>
    touchMark (s.modificationRemoveMemberAttribute handle key).1 handle
      (key.toList.map .memberAttr)
  | _ => .none

/-- What a mark says of the step it is of. -/
abbrev AllowsMark (s s' : Lobbies) (m : Mark GameHandle LobbyModificationObject LobbyField) :
    Prop :=
  m.Allows Drawn s.modifications.find s'.modifications.find

theorem allows_none (h : s'.modifications = s.modifications) : AllowsMark s s' .none :=
  fun handle object hobject ↦ by rwa [h] at hobject

/-- A setter does to what is staged what its mark says. -/
theorem allows_modify {handle : GameHandle} {keys : List LobbyField}
    {edit : LobbyModificationObject → Except ResultCode LobbyModificationObject}
    (hedit : ∀ object object', edit object = .ok object' → EditsKeys keys object object')
    (herror : ∀ object, edit object ≠ .error .success) :
    AllowsMark s (s.modify handle edit).2 (touchMark (s.modify handle edit).1 handle keys) := by
  unfold modify
  split
  · exact allows_none rfl
  · rename_i object hobject
    split
    · rename_i code hcode
      rw [touchMark, if_neg fun hsuccess : code = .success ↦ herror object (hsuccess ▸ hcode)]
      exact allows_none rfl
    · rename_i object' hobject'
      rw [touchMark, if_pos rfl]
      intro h staged hstaged
      rw [HandleStore.find_put] at hstaged
      by_cases hh : h = handle
      · subst hh
        rw [if_pos rfl] at hstaged ⊢
        obtain rfl := Option.some.inj hstaged
        exact ⟨object, hobject, fun d hd ↦ hd.touch (hedit object object' hobject')⟩
      · rw [if_neg (Ne.symm hh)] at hstaged
        rw [if_neg hh]
        exact hstaged

theorem allows_draw {handle : GameHandle} {object : LobbyModificationObject} {code : ResultCode}
    (hset : object.memberSet = []) (hdeleted : object.memberDeleted = [])
    (h : s'.modifications = s.modifications.put handle object) :
    AllowsMark s s' (drawMark (code, some handle, s')) := by
  have hfind : s'.modifications.find handle = some object := by
    rw [h, HandleStore.find_put, if_pos rfl]
  simp only [drawMark, hfind]
  refine ⟨⟨.drawn _, by simp [hset], by simp [hset, hdeleted]⟩,
    fun handle' staged hstaged ↦ ?_⟩
  rw [h, HandleStore.find_put] at hstaged
  by_cases hh : handle' = handle
  · rw [if_pos hh.symm] at hstaged
    rw [if_pos hh]
    exact (Option.some.inj hstaged).symm
  · rw [if_neg (Ne.symm hh)] at hstaged
    rw [if_neg hh]
    exact hstaged

theorem allows_addAttribute (handle : GameHandle) (o : LobbyAttributeOptions) :
    AllowsMark s (s.modificationAddAttribute handle o).2
      (draftMark s (.call (.modificationAddAttribute handle o))) := by
  refine allows_modify (fun object object' hedit ↦ ?_) fun object ↦ ?_
  · split at hedit
    · cases hedit
    · rename_i attr hattr
      split at hedit
      · cases hedit
      · cases hedit
        rw [givenKey, readAttribute_key hattr]
        refine .settings (by simp) fun key hkey ↦ ?_
        cases key with
        | attr other =>
          have hne : attr.key ≠ other := fun heq ↦ hkey (by simp [heq])
          exact congrArg FieldValue.attr ((attributeAt_upsert _ _ _).trans (if_neg hne))
        | _ => rfl
  · have hcodes : ResultCode.invalidParameters ≠ .success ∧
      ResultCode.limitExceeded ≠ .success := by
      decide
    split
    · simpa using hcodes.1
    · split <;> simp [hcodes.2]

theorem allows_removeAttribute (handle : GameHandle) (key : Option Bytes) :
    AllowsMark s (s.modificationRemoveAttribute handle key).2
      (draftMark s (.call (.modificationRemoveAttribute handle key))) := by
  have hcode : ResultCode.invalidParameters ≠ .success := by decide
  refine allows_modify (fun object object' hedit ↦ ?_) fun object ↦ ?_
  · rcases key with _ | removed
    · cases hedit
    · cases hedit
      refine .settings (by simp) fun key hkey ↦ ?_
      cases key with
      | attr other =>
        have hne : removed ≠ other := fun heq ↦ hkey (by simp [heq])
        exact congrArg FieldValue.attr (attributeAt_filter.trans (if_neg hne))
      | _ => rfl
  · rcases key with _ | removed <;> simp [hcode]

theorem allows_addMemberAttribute (handle : GameHandle) (o : LobbyAttributeOptions) :
    AllowsMark s (s.modificationAddMemberAttribute handle o).2
      (draftMark s (.call (.modificationAddMemberAttribute handle o))) := by
  have hcode : ResultCode.invalidParameters ≠ .success := by decide
  refine allows_modify (fun object object' hedit ↦ ?_) fun object ↦ ?_
  · split at hedit
    · cases hedit
    · rename_i attr hattr
      cases hedit
      rw [givenKey, readAttribute_key hattr]
      have hkeys := keys_upsert object.memberSet { attr with advertisement := o.visibility }
      refine ⟨fun key hkey ↦ ?_, fun hnodup ↦ ?_, fun key ↦ ?_⟩
      · cases key with
        | memberAttr other =>
          have hne : attr.key ≠ other := fun heq ↦ hkey (by simp [heq])
          exact congrArg FieldValue.attr ((attributeAt_upsert _ _ _).trans (if_neg hne))
        | _ => rfl
      · dsimp only at hkeys ⊢
        rw [hkeys]
        split
        · exact hnodup
        · rename_i hnew
          exact hnodup.append (List.nodup_singleton _) (by simpa using hnew)
      · dsimp only at hkeys ⊢
        rw [hkeys]
        split
        · rename_i hin
          simp only [Option.toList_some, List.map_cons, List.map_nil, List.mem_singleton,
            LobbyField.memberAttr.injEq]
          refine (or_iff_left_of_imp fun heq ↦ ?_).symm
          exact .inl (heq ▸ hin)
        · simp only [List.mem_append, List.mem_singleton, Option.toList_some, List.map_cons,
            List.map_nil, LobbyField.memberAttr.injEq]
          tauto
  · split <;> simp [hcode]

theorem allows_removeMemberAttribute (handle : GameHandle) (key : Option Bytes) :
    AllowsMark s (s.modificationRemoveMemberAttribute handle key).2
      (draftMark s (.call (.modificationRemoveMemberAttribute handle key))) := by
  have hcode : ResultCode.invalidParameters ≠ .success := by decide
  refine allows_modify (fun object object' hedit ↦ ?_) fun object ↦ ?_
  · rcases key with _ | removed
    · cases hedit
    · cases hedit
      refine ⟨fun key hkey ↦ by cases key <;> rfl, id, fun key ↦ ?_⟩
      simp [or_assoc]
  · rcases key with _ | removed <;> simp [hcode]

theorem allows_updateLobbyModification (o : LobbyIdOptions) :
    AllowsMark s (s.updateLobbyModification o).2.2 (drawMark (s.updateLobbyModification o)) := by
  rw [updateLobbyModification]
  split
  · split
    · exact allows_none rfl
    · exact allows_draw rfl rfl rfl
  · exact allows_none rfl

theorem allows_release (handle : GameHandle) :
    AllowsMark s (s.modificationRelease handle) .none := fun h object hobject ↦ by
  rw [modificationRelease, HandleStore.find_release] at hobject
  split at hobject
  · cases hobject
  · exact hobject

theorem modifications_editSearch (handle : GameHandle) (version : Int32) (given : Bool)
    (edit : LobbySearchObject → Except ResultCode LobbySearchObject) :
    (s.editSearch handle version given edit).2.modifications = s.modifications := by
  rw [editSearch]
  split
  · rfl
  · split
    · rfl
    · split
      · rfl
      · split <;> rfl

theorem modifications_searchFind (handle : GameHandle) (localUserId : Option Bytes) (now : Nat)
    (address : ResultAddress) :
    (s.searchFind handle localUserId now address).2.modifications = s.modifications := by
  have hsends (peers : List Bytes) (message : LobbyMessage) :
      (peers.foldl (fun s peer ↦ s.sendTo peer message) s).modifications = s.modifications :=
    modifications_of_still (still_foldl_sendTo message peers)
  unfold searchFind
  split
  · split
    · rfl
    · split
      · rfl
      · exact hsends _ _
  · rfl

theorem modifications_onSearchResponse (source : Bytes) (answer : LobbySearchResponse) :
    (s.onSearchResponse source answer).modifications = s.modifications := by
  have hall (waiting : List (ResultAddress × GameHandle)) (s : Lobbies) :
      (waiting.foldl (fun s p ↦ s.takeAnswer p.2 source answer) s).modifications =
        s.modifications := by
    induction waiting generalizing s with
    | nil => rfl
    | cons p waiting ih =>
      rw [List.foldl_cons, ih, takeAnswer]
      split
      · rfl
      · split <;> rfl
  exact hall _ _

theorem modifications_collect (address : ResultAddress) (now : Nat) :
    (s.collect address now).modifications = s.modifications := by
  have hready : (s.runCallbacks address now).2.modifications = s.modifications := by
    rw [runCallbacks]
    split
    · rw [settleFind]
      split
      · rfl
      · split <;> rfl
    · split
      · split
        · rfl
        · rw [settleJoin]
          split
          · split
            · rfl
            · split <;> rfl
          · rfl
      · rfl
  rw [collect]
  split
  · rfl
  · dsimp only
    split <;> exact hready

/-- **A call does to the drafts what its mark says.** -/
theorem allows_call (c : Call) : AllowsMark s (s.call c) (draftMark s (.call c)) := by
  have hcode : ResultCode.invalidParameters ≠ .success := by decide
  cases c with
  | updateLobbyModification o => exact allows_updateLobbyModification o
  | modificationSetBucketId handle bucketId =>
    refine allows_modify (fun object object' hedit ↦ ?_) fun object ↦ ?_
    · split at hedit
      · cases hedit
      · cases hedit
        refine .settings (by simp) fun key hkey ↦ ?_
        cases key <;> first | rfl | simp at hkey
    · split <;> simp [hcode]
  | modificationSetPermissionLevel handle level =>
    refine allows_modify (fun object object' hedit ↦ ?_) fun object ↦ by simp
    cases hedit
    refine .settings (by simp) fun key hkey ↦ ?_
    cases key <;> first | rfl | simp at hkey
  | modificationSetMaxMembers handle maxMembers =>
    refine allows_modify (fun object object' hedit ↦ ?_) fun object ↦ ?_
    · split at hedit
      · cases hedit
      · cases hedit
        refine .settings (by simp) fun key hkey ↦ ?_
        cases key <;> first | rfl | simp at hkey
    · split <;> simp [hcode]
  | modificationSetInvitesAllowed handle allowed =>
    refine allows_modify (fun object object' hedit ↦ ?_) fun object ↦ by simp
    cases hedit
    refine .settings (by simp) fun key hkey ↦ ?_
    cases key <;> first | rfl | simp at hkey
  | modificationSetAllowedPlatformIds handle =>
    intro h object hobject
    change (s.modify handle .ok).2.modifications.find h = _ at hobject
    rw [modify] at hobject
    split at hobject
    · exact hobject
    · rename_i object' hobject'
      rw [HandleStore.find_put] at hobject
      split at hobject
      · rename_i heq
        exact heq ▸ hobject'.trans hobject
      · exact hobject
  | modificationAddAttribute handle o => exact allows_addAttribute handle o
  | modificationRemoveAttribute handle key => exact allows_removeAttribute handle key
  | modificationAddMemberAttribute handle o => exact allows_addMemberAttribute handle o
  | modificationRemoveMemberAttribute handle key => exact allows_removeMemberAttribute handle key
  | modificationRelease handle => exact allows_release handle
  | createLobbySearch o =>
    refine allows_none ?_
    show (s.createLobbySearch o).2.2.modifications = _
    rw [createLobbySearch]
    split <;> rfl
  | searchSetLobbyId handle o => exact allows_none (modifications_editSearch _ _ _ _)
  | searchSetTargetUser handle o => exact allows_none (modifications_editSearch _ _ _ _)
  | searchSetParameter handle o => exact allows_none (modifications_editSearch _ _ _ _)
  | searchRemoveParameter handle o => exact allows_none (modifications_editSearch _ _ _ _)
  | searchSetMaxResults handle o => exact allows_none (modifications_editSearch _ _ _ _)
  | searchFind handle localUserId now address =>
    exact allows_none (modifications_searchFind _ _ _ _)
  | searchCopyResult handle lobbyIndex =>
    refine allows_none ?_
    show (s.searchCopyResult handle lobbyIndex).2.2.modifications = _
    rw [searchCopyResult]
    split
    · rfl
    · split
      · rfl
      · split <;> rfl
  | copyLobbyDetailsHandle lobbyId =>
    refine allows_none ?_
    show (s.copyLobbyDetailsHandle lobbyId).2.2.modifications = _
    rcases lobbyId with _ | lobbyId
    · rfl
    · rw [copyLobbyDetailsHandle]
      split <;> rfl
  | searchRelease handle => exact allows_none rfl
  | detailsRelease handle => exact allows_none rfl
  | _ => exact allows_none (modifications_of_still (still_call rfl))

theorem allows_draftMark {i : Input} (h : step s i = some s') :
    AllowsMark s s' (draftMark s i) := by
  cases i with
  | call c =>
    rw [step] at h
    split at h
    · cases h
      exact allows_call c
    · cases h
  | receive message =>
    cases h
    rcases still_receive (s := s) message with hstill | ⟨answer, -, heq⟩
    · exact allows_none (modifications_of_still hstill)
    · rw [heq]
      exact allows_none (modifications_onSearchResponse _ answer)
  | collect address now =>
    cases h
    exact allows_none (modifications_collect address now)
  | around peers known losses =>
    cases h
    exact allows_none rfl

/-! ## Committing -/

/-- A commit that is carried out: its handle, what that stages, and the lobby it is written over. -/
def committing (s : Lobbies) : Input → Option (GameHandle × LobbyModificationObject × Lobby)
  | .call (.updateLobby o) =>
    match s.modifications.find o.lobbyModificationHandle with
    | none => none
    | some object =>
      if versionOk o.apiVersion lobbyApiLatest then
        (s.findLobby object.lobbyId).map fun entry ↦ (o.lobbyModificationHandle, object, entry)
      else none
  | _ => none

/-- The lobbies of an instance, and the drafts of its game. -/
abbrev Drafters := Drafting Lobbies GameHandle LobbyModificationObject LobbyField

/-- A step, with the marks that it makes. -/
def Drafters.next : Drafters → Input → Option Drafters := Drafting.next step draftMark

/-- Before the first step nothing is staged by anybody. -/
def Drafters.start (s : Lobbies) : Drafters := Drafting.start s

end Lobbies

namespace Lobby

/-- Whether a user owns a lobby. -/
def ownedBy (entry : Lobby) (userId : Bytes) : Bool := entry.infos.ownerId = userId

/-- What a user may change of a lobby. -/
def mayChange (entry : Lobby) (userId : Bytes) : LobbyField → Bool :=
  LobbyField.mayChange (entry.ownedBy userId) (entry.infos.findMember userId).isSome

/-- All of a lobby but what a user may have changed of it, and its available slots. -/
def unset (entry : Lobby) (userId : Bytes) : Lobby :=
  { entry with
    infos := { entry.infos with
      bucketId := [], permissionLevel := 0, maxMembers := 0, allowInvites := false, attributes := []
      availableSlots := 0
      members := entry.infos.members.map fun member ↦
        if member.userId = userId then { member with attributes := [] } else member } }

end Lobby

namespace Lobbies

variable {s s' : Lobbies}

/-- What the commit of a draft should come to: the fields the draft's own setters touched are
as it has them, of those the user may change, and nothing else has changed but by the peers
lost on the way. -/
structure Merges (w : Drafters) (i : Input) (object : LobbyModificationObject) (entry : Lobby)
    (d : Draft LobbyModificationObject LobbyField) (s' : Lobbies) : Prop where
  fields : ∀ entry', s'.lobbies[object.lobbyId]? = some entry' →
    entry'.infos.fieldFor w.state.productUserId =
      d.merged (entry.mayChange w.state.productUserId) object.field
        (entry.infos.fieldFor w.state.productUserId)
  rest : ∀ lobbyId : Bytes, ∃ gone written, (∀ peer ∈ gone, wasLost w.state i s' peer) ∧
    s'.lobbies[lobbyId]? = Lobby.outliving w.state.productUserId gone written ∧
    written.map (·.unset w.state.productUserId) =
      w.state.lobbies[lobbyId]?.map (·.unset w.state.productUserId) ∧
    (lobbyId ≠ object.lobbyId → written = w.state.lobbies[lobbyId]?)

/-- Every commit a step carries out merges its draft. -/
def MergesDraft (w : Drafters) (i : Input) : Prop :=
  ∀ handle object entry, committing w.state i = some (handle, object, entry) →
    ∃ d s', w.drafts handle = some d ∧ step w.state i = some s' ∧ Merges w i object entry d s'

/-- The condition on a commit: the settings its setters left alone are in the lobby, when the user
owns it, what they were in the one it was drawn from. -/
def commitsUpToDate (w : Drafters) (i : Input) : Prop :=
  ∀ handle object entry d, committing w.state i = some (handle, object, entry) →
    w.drafts handle = some d →
    d.UpToDate (LobbyField.written (entry.ownedBy w.state.productUserId)) d.base.field
      (entry.infos.fieldFor w.state.productUserId)

/-! ### What a commit writes -/

theorem findMember_editMember (infos : LobbyInfos) (userId : Bytes)
    (edit : LobbyMember → LobbyMember)
    (hedit : ∀ member : LobbyMember, (edit member).userId = member.userId) :
    (infos.editMember userId edit).findMember userId = (infos.findMember userId).map edit := by
  obtain ⟨_, _, _, _, _, _, _, _, _, _, _, members⟩ := infos
  simp only [LobbyInfos.findMember, LobbyInfos.editMember]
  induction members with
  | nil => rfl
  | cons member members ih =>
    rw [List.replaceF]
    by_cases hmember : member.userId = userId
    · simp [hmember, hedit]
    · simpa [hmember] using ih

theorem findMember_dropMember (infos : LobbyInfos) {userId peer : Bytes} (h : userId ≠ peer) :
    (infos.dropMember peer).findMember userId = infos.findMember userId := by
  simp only [LobbyInfos.findMember, LobbyInfos.dropMember]
  induction infos.members with
  | nil => rfl
  | cons member members ih =>
    rw [List.eraseP_cons]
    by_cases hpeer : member.userId = peer
    · simp [hpeer, h.symm]
    · by_cases hmember : member.userId = userId
      · simp [hmember, h]
      · simpa [hpeer, hmember] using ih

/-- The fields a commit writes: the settings, and of the own attributes those that were edited. -/
def writes (entry : Lobby) (userId : Bytes) (d : Draft LobbyModificationObject LobbyField) :
    LobbyField → Bool
  | .memberAttr key => (entry.infos.findMember userId).isSome ∧ .memberAttr key ∈ d.touched
  | key => key.written (entry.ownedBy userId)

/-- A commit writes back all it has of a lobby that is the user's own. -/
theorem fieldFor_modified {d : Draft LobbyModificationObject LobbyField}
    {object : LobbyModificationObject} (h : Drawn d object) (entry : Lobby) (userId : Bytes) :
    (Lobby.modified entry userId object).infos.fieldFor userId =
      Draft.writtenBack (writes entry userId d) object.field (entry.infos.fieldFor userId) := by
  funext key
  cases key with
  | memberAttr key =>
    have hattributes : (Lobby.modified entry userId object).infos.attributesOf userId =
        ((entry.infos.findMember userId).map fun member ↦
          (applyMemberEdits object member).attributes).getD [] := by
      have hfind : (Lobby.modified entry userId object).infos.findMember userId =
          (entry.infos.findMember userId).map (applyMemberEdits object) := by
        rw [Lobby.modified]
        split
        · exact findMember_editMember _ _ _ fun _ ↦ rfl
        · exact findMember_editMember _ _ _ fun _ ↦ rfl
      rw [LobbyInfos.attributesOf, hfind, Option.map_map]
      rfl
    simp only [LobbyInfos.fieldFor, LobbyInfos.field, hattributes, Draft.writtenBack, writes,
      h.members, LobbyModificationObject.field]
    rcases hmember : entry.infos.findMember userId with _ | member
    · simp [LobbyInfos.attributesOf, hmember]
    · simp only [Option.map_some, Option.getD_some, applyMemberEdits, Option.isSome_some, true_and,
        LobbyInfos.attributesOf, hmember, decide_eq_true_eq]
      rw [attributeAt_foldl_upsert h.distinct, attributeAt_foldl_remove]
      by_cases hset : key ∈ object.memberSet.map (·.key)
      · simp [hset]
      · have hnone : attributeAt object.memberSet key = none := by
          rw [attributeAt, List.find?_eq_none]
          intro a ha
          simpa using fun heq ↦ hset (List.mem_map.2 ⟨a, ha, heq⟩)
        by_cases hdeleted : key ∈ object.memberDeleted <;> simp [hset, hdeleted, hnone]
  | _ =>
    by_cases howner : entry.infos.ownerId = userId <;>
      simp [LobbyInfos.fieldFor, LobbyInfos.field, Draft.writtenBack, writes, LobbyField.written,
        Lobby.ownedBy, howner, Lobby.modified, LobbyInfos.editMember, LobbyInfos.counted,
        LobbyModificationObject.field]

/-- Losing a peer changes no field. -/
theorem fieldFor_bereaved {userId peer : Bytes} {entry entry' : Lobby} (hne : peer ≠ userId)
    (h : Lobby.bereaved userId peer entry = some entry') :
    entry'.infos.fieldFor userId = entry.infos.fieldFor userId := by
  have hleft : (entry.infos.dropMember peer).attributesOf userId =
      entry.infos.attributesOf userId := by
    rw [LobbyInfos.attributesOf, findMember_dropMember _ (Ne.symm hne)]
    rfl
  have hfield (infos : LobbyInfos) (hattributes : infos.attributesOf userId =
      (entry.infos.dropMember peer).attributesOf userId)
      (hsame : ∀ attributes, infos.field attributes = entry.infos.field attributes) :
      infos.fieldFor userId = entry.infos.fieldFor userId := by
    rw [LobbyInfos.fieldFor, hattributes, hleft, hsame]
    rfl
  rw [Lobby.bereaved] at h
  dsimp only at h
  split at h
  · split at h
    · cases h
    · obtain rfl := Option.some.inj h
      exact hfield _ rfl fun attributes ↦ by funext key; cases key <;> rfl
  · split at h
    · obtain rfl := Option.some.inj h
      exact hfield _ rfl fun attributes ↦ by funext key; cases key <;> rfl
    · obtain rfl := Option.some.inj h
      rfl

/-- A lobby that is the user's own outlives every peer. -/
theorem outliving_isSome {userId : Bytes} {gone : List Bytes} {entry : Lobby}
    (hgone : ∀ peer ∈ gone, peer ≠ userId) (howner : entry.infos.ownerId = userId) :
    (Lobby.outliving userId gone (some entry)).isSome = true := by
  induction gone generalizing entry with
  | nil => rfl
  | cons peer gone ih =>
    have hne := hgone peer List.mem_cons_self
    rw [Lobby.outliving_cons, Option.bind_some, Lobby.bereaved]
    dsimp only
    rw [if_neg fun h ↦ hne (h.2.symm.trans howner)]
    split
    · exact ih (fun p hp ↦ hgone p (List.mem_cons_of_mem _ hp)) howner
    · exact ih (fun p hp ↦ hgone p (List.mem_cons_of_mem _ hp)) howner

theorem unset_modified (entry : Lobby) (userId : Bytes) (object : LobbyModificationObject) :
    (Lobby.modified entry userId object).unset userId = entry.unset userId := by
  have hblank (members : List LobbyMember) :
      (members.replaceF fun member ↦ if member.userId = userId then
          some (applyMemberEdits object member) else none).map (fun member ↦
        if member.userId = userId then { member with attributes := [] } else member) =
      members.map fun member ↦
        if member.userId = userId then { member with attributes := [] } else member := by
    induction members with
    | nil => rfl
    | cons member members ih =>
      by_cases hmember : member.userId = userId
      · simp [hmember, applyMemberEdits]
      · simpa [List.replaceF_cons, hmember] using ih
  rw [Lobby.modified]
  split
  · simp [Lobby.unset, LobbyInfos.counted, hblank, LobbyInfos.editMember]
  · simp [Lobby.unset, LobbyInfos.counted, hblank, LobbyInfos.editMember]

/-- What a commit that is carried out leaves. -/
theorem lookup_commit {i : Input} {handle : GameHandle} {object : LobbyModificationObject}
    {entry : Lobby} (h : committing s i = some (handle, object, entry)) :
    s.lobbies[object.lobbyId]? = some entry ∧ s.modifications.find handle = some object ∧
      ∃ s', step s i = some s' ∧ ∀ lobbyId : Bytes, ∃ gone : List Bytes,
        (∀ peer ∈ gone, wasLost s i s' peer ∧ peer ≠ s.productUserId) ∧
        s'.lobbies[lobbyId]? = Lobby.outliving s.productUserId gone
          (if lobbyId = object.lobbyId then some (Lobby.modified entry s.productUserId object)
            else s.lobbies[lobbyId]?) := by
  unfold committing at h
  split at h
  · rename_i o
    split at h
    · cases h
    · rename_i object' hobject
      split at h
      · rename_i hversion
        obtain ⟨entry', hentry, heq⟩ := Option.map_eq_some_iff.1 h
        cases heq
        refine ⟨hentry, hobject, (s.updateLobby o).2, rfl, ?_⟩
        have hlost : Lost (Input.tellsGone (.call (.updateLobby o)))
            (s.setLobby object.lobbyId (Lobby.modified entry s.productUserId object))
            (s.updateLobby o).2 := by
          simp only [updateLobby, hobject, hversion, not_true_eq_false, if_false, hentry]
          split
          · exact lost_broadcastLobby _ _
          · exact lost_sendTo _ _ _
        intro lobbyId
        obtain ⟨gone, hgone, hlookup⟩ := hlost.lookup lobbyId
        refine ⟨gone, fun peer hpeer ↦ ⟨(hgone peer hpeer).1, (hgone peer hpeer).2.2⟩, ?_⟩
        rw [hlookup, setLobby, lookup_insert]
        simp only [eq_comm]
      · cases h
  · cases h

/-- **A commit merges its draft exactly when the draft is up to date.** -/
theorem mergesDraft_iff {w : Drafters} {i : Input}
    (h : w.Fitting Drawn fun s ↦ s.modifications.find) :
    MergesDraft w i ↔ commitsUpToDate w i := by
  have hexact {d : Draft LobbyModificationObject LobbyField} {object : LobbyModificationObject}
      (hdrawn : Drawn d object) (entry : Lobby) (self : Bytes) :
      (Lobby.modified entry self object).infos.fieldFor self =
          d.merged (entry.mayChange self) object.field (entry.infos.fieldFor self) ↔
        d.UpToDate (LobbyField.written (entry.ownedBy self)) d.base.field
          (entry.infos.fieldFor self) := by
    rw [fieldFor_modified hdrawn, Draft.writtenBack_eq_merged_iff hdrawn.faithful fun key hkey ↦ ?_]
    · refine forall_congr' fun key ↦ forall_congr' fun hkey ↦ ?_
      cases key with
      | memberAttr key => simp [writes, LobbyField.written, hkey]
      | _ => rfl
    · cases key with
      | memberAttr key => simp [writes, Lobby.mayChange, LobbyField.mayChange, hkey]
      | _ => rfl
  constructor
  · intro hmerges handle object entry d hcommit hd
    obtain ⟨d', s', hd', hstep, hmerged⟩ := hmerges handle object entry hcommit
    obtain rfl : d = d' := Option.some.inj (hd.symm.trans hd')
    obtain ⟨-, hobject, s'', hstep', hlookup⟩ := lookup_commit hcommit
    obtain rfl : s' = s'' := Option.some.inj (hstep.symm.trans hstep')
    obtain ⟨d', hd', hdrawn⟩ := h handle object hobject
    obtain rfl : d = d' := Option.some.inj (hd.symm.trans hd')
    obtain ⟨gone, hgone, hafter⟩ := hlookup object.lobbyId
    rw [if_pos rfl] at hafter
    by_cases howner : entry.infos.ownerId = w.state.productUserId
    · have howner' : (Lobby.modified entry w.state.productUserId object).infos.ownerId =
          w.state.productUserId := by
        rw [Lobby.modified, if_pos howner]
        exact howner
      obtain ⟨entry', hentry'⟩ := Option.isSome_iff_exists.1
        (outliving_isSome (fun peer hpeer ↦ (hgone peer hpeer).2) howner')
      have hfields : entry'.infos.fieldFor w.state.productUserId =
          (Lobby.modified entry w.state.productUserId object).infos.fieldFor
            w.state.productUserId :=
        Lobby.outliving_keeps (P := fun e ↦ e.infos.fieldFor w.state.productUserId = _)
          (fun peer hpeer _ _ hlost he ↦
            (fieldFor_bereaved (hgone peer hpeer).2 hlost).trans he) hentry'
          (fun e he ↦ by obtain rfl := Option.some.inj he; rfl)
      rw [← hexact hdrawn, ← hfields]
      exact hmerged.fields entry' (hafter.trans hentry')
    · intro key _ hwritten
      cases key <;> simp [LobbyField.written, Lobby.ownedBy, howner] at hwritten
  · intro huptodate handle object entry hcommit
    obtain ⟨hentry, hobject, s', hstep, hlookup⟩ := lookup_commit hcommit
    obtain ⟨d, hd, hdrawn⟩ := h handle object hobject
    refine ⟨d, s', hd, hstep, fun entry' hentry' ↦ ?_, fun lobbyId ↦ ?_⟩
    · obtain ⟨gone, hgone, hafter⟩ := hlookup object.lobbyId
      rw [hafter, if_pos rfl] at hentry'
      rw [← (hexact hdrawn entry _).2 (huptodate handle object entry d hcommit hd)]
      exact Lobby.outliving_keeps (P := fun e ↦ e.infos.fieldFor w.state.productUserId = _)
        (fun peer hpeer _ _ hlost he ↦ (fieldFor_bereaved (hgone peer hpeer).2 hlost).trans he)
        hentry' (fun e he ↦ by obtain rfl := Option.some.inj he; rfl)
    · obtain ⟨gone, hgone, hafter⟩ := hlookup lobbyId
      refine ⟨gone, _, fun peer hpeer ↦ (hgone peer hpeer).1, hafter, ?_, fun hne ↦ if_neg hne⟩
      split
      · rename_i heq
        rw [heq, hentry, Option.map_some, Option.map_some, unset_modified]
      · rfl

/-- Along a run, the notes are right. -/
theorem fitting_next {w w' : Drafters} {i : Input}
    (h : w.Fitting Drawn fun s ↦ s.modifications.find) (hnext : w.next i = some w') :
    w'.Fitting Drawn fun s ↦ s.modifications.find :=
  h.next (fun _ hs' ↦ allows_draftMark hs') hnext

theorem fitting_start {s : Lobbies} (h : s.modifications = {}) :
    (Drafters.start s).Fitting Drawn fun s ↦ s.modifications.find :=
  .start fun handle ↦ by rw [h, HandleStore.find_empty]

/-- **Lobbies lose no update exactly** along the runs in which every commit is up to date. -/
theorem meets_mergesDraft_iff (self product : Bytes) (inputs : List Input) :
    meets Drafters.next MergesDraft (Drafters.start (fresh self product)) inputs ↔
      meets Drafters.next commitsUpToDate (Drafters.start (fresh self product)) inputs :=
  meets_congr (fitting_start rfl) (fun _ _ _ h hnext ↦ fitting_next h hnext)
    (fun _ _ h ↦ mergesDraft_iff h) inputs

end Lobbies
end EosMesh
