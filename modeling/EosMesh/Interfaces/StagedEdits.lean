import EosMesh.Interfaces.Lobby.Drafts
import EosMesh.Interfaces.Presence.Announcers
import EosMesh.Lib.Edits

/-!
# Edits of one modification handle

A handle of a lobby edits its own copy of the lobby's attributes, one call after the other.  It
collects the edits of the local user's own attributes in two lists, and so does a handle of a
presence with the data records: what is to be set, and what is to be removed.  A commit applies the
removals first, so what was set and then removed is set.

* `Lib.Edits` has the two ways to apply edits to a keyed store, in their order and apart, and when
  they come to the same: exactly when no key was put and then removed by the last edit of it.
* `attributeStore` and `recordStore` are the two stores.  An attribute is found by the first one of
  its key, as the source finds it.
* `Lobbies.AttributeCall` and `Presence.DataCall` are the calls, and `memberEdit` and `edits` what
  they ask for: a call that is refused asks for nothing.
* `find_stage` and `find_stageData` say what a run of calls leaves staged, and `commits_staged` and
  `commits_applied` what a commit makes of that.
* `SameAttributes` and `SameOutcome` say when two ways to commit come to the same, of a lobby and of
  a presence; a presence is checked for its size as a whole, so its answer may differ too.

`staged_edits_in_order` says when a commit comes to the calls in their order, for both interfaces,
and `set_then_deleted_stays` is a record and an attribute for which it does not.
-/

set_option autoImplicit false

namespace EosMesh

open Lib

/-! ## The stores -/

/-- Attributes by their keys. -/
def attributeStore : Keyed (List SessionAttribute) Bytes SessionAttribute where
  key := SessionAttribute.key
  lookup := attributeAt
  put := upsertAttribute
  remove := removeAttribute
  lookup_put := attributeAt_upsert
  lookup_remove _ _ _ := attributeAt_filter

/-- The record a key names: the first one with it. -/
def recordAt (records : List PresenceDataRecord) (key : Bytes) : Option PresenceDataRecord :=
  records.find? (·.key = key)

theorem recordAt_setRecord (records : List PresenceDataRecord) (record : PresenceDataRecord)
    (key : Bytes) :
    recordAt (setRecord record records) key =
      if record.key = key then some record else recordAt records key := by
  induction records with
  | nil => by_cases hkey : record.key = key <;> simp [setRecord, recordAt, hkey]
  | cons first records ih =>
    rw [setRecord]
    split
    · rename_i hfirst
      have hrecord : { first with value := record.value } = record := by
        cases first
        cases record
        cases hfirst
        rfl
      rw [hrecord]
      by_cases hkey : record.key = key
      · simp [recordAt, hkey]
      · simp [recordAt, hkey, hfirst]
    · rename_i hfirst
      rw [recordAt] at ih ⊢
      by_cases hkey : first.key = key
      · have hne : record.key ≠ key := fun heq ↦ hfirst (hkey.trans heq.symm)
        simp [recordAt, hkey, hne]
      · simp [recordAt, hkey, ih]

theorem recordAt_filter (records : List PresenceDataRecord) (removed key : Bytes) :
    recordAt (records.filter (·.key ≠ removed)) key =
      if removed = key then none else recordAt records key := by
  rw [recordAt, List.find?_filter]
  by_cases hkey : removed = key
  · rw [if_pos hkey, List.find?_eq_none]
    intro record _
    simp [hkey]
  · rw [if_neg hkey, recordAt]
    congr 1
    funext record
    by_cases hrecord : record.key = key
    · simp [hrecord, Ne.symm hkey]
    · simp [hrecord]

theorem count_setRecord (records : List PresenceDataRecord) (record : PresenceDataRecord)
    (key : Bytes) :
    ((setRecord record records).map PresenceDataRecord.key).count key =
      if record.key = key then max ((records.map PresenceDataRecord.key).count key) 1
      else (records.map PresenceDataRecord.key).count key := by
  induction records with
  | nil => by_cases hkey : record.key = key <;> simp [setRecord, hkey]
  | cons first records ih =>
    rw [setRecord]
    split
    · rename_i hfirst
      by_cases hkey : record.key = key <;> simp [hfirst, hkey]
    · rename_i hfirst
      rw [List.map_cons, List.count_cons, ih, List.map_cons, List.count_cons]
      by_cases hkey : record.key = key
      · have hne : first.key ≠ key := fun heq ↦ hfirst (heq.trans hkey.symm)
        simp [hkey, hne]
      · simp [hkey]

theorem count_filter (records : List PresenceDataRecord) (removed key : Bytes) :
    ((records.filter (·.key ≠ removed)).map PresenceDataRecord.key).count key =
      if removed = key then 0 else (records.map PresenceDataRecord.key).count key := by
  induction records with
  | nil => simp
  | cons first records ih =>
    by_cases hfirst : first.key = removed
    · rw [List.filter_cons_of_neg (by simp [hfirst]), ih, List.map_cons, List.count_cons]
      by_cases hkey : removed = key
      · rw [if_pos hkey, if_pos hkey]
      · simp [hkey, hfirst]
    · rw [List.filter_cons_of_pos (by simp [hfirst]), List.map_cons, List.count_cons, ih,
        List.map_cons, List.count_cons]
      by_cases hkey : removed = key
      · have hne : first.key ≠ key := fun heq ↦ hfirst (heq.trans hkey.symm)
        simp [hkey, hne]
      · simp [hkey]

/-- Data records by their keys. -/
def recordStore : KeyedList Bytes PresenceDataRecord where
  key := PresenceDataRecord.key
  lookup := recordAt
  put records record := setRecord record records
  remove records key := records.filter (·.key ≠ key)
  lookup_put := recordAt_setRecord
  lookup_remove := recordAt_filter
  count_put records record key := by
    rw [lawful_beq_subsingleton instBEqOfDecidableEq List.instBEq]
    exact count_setRecord records record key
  count_remove records removed key := by
    rw [lawful_beq_subsingleton instBEqOfDecidableEq List.instBEq]
    exact count_filter records removed key

/-! ## Lobbies -/

namespace Lobbies

/-- A call on a handle that edits attributes, of the lobby or of the local user. -/
inductive AttributeCall
  | add (o : LobbyAttributeOptions)
  | remove (key : Option Bytes)
  | addMember (o : LobbyAttributeOptions)
  | removeMember (key : Option Bytes)
  deriving DecidableEq, Repr

/-- A call, made on a handle. -/
def stage (handle : GameHandle) (s : Lobbies) : AttributeCall → Lobbies
  | .add o => (s.modificationAddAttribute handle o).2
  | .remove key => (s.modificationRemoveAttribute handle key).2
  | .addMember o => (s.modificationAddMemberAttribute handle o).2
  | .removeMember key => (s.modificationRemoveMemberAttribute handle key).2

namespace AttributeCall

/-- What a call makes of the attributes of a lobby. -/
def onLobby (attrs : List SessionAttribute) : AttributeCall → List SessionAttribute
  | .add o =>
    match readAttribute o.attr with
    | none => attrs
    | some attr =>
      if attrs.length ≥ maxLobbyAttributes ∧ ¬ attrs.any (·.key = attr.key) then attrs
      else upsertAttribute attrs { attr with advertisement := o.visibility }
  | .remove (some key) => removeAttribute attrs key
  | _ => attrs

/-- What a call asks for of the local user's own attributes. -/
def memberEdit : AttributeCall → Option (Edit Bytes SessionAttribute)
  | .addMember o =>
    (readAttribute o.attr).map fun attr ↦ .put { attr with advertisement := o.visibility }
  | .removeMember key => key.map .remove
  | _ => none

/-- A call, applied to a lobby at once.  Only the host changes the attributes of the lobby. -/
def atOnce (self : Bytes) (infos : LobbyInfos) (c : AttributeCall) : LobbyInfos :=
  ({ infos with
      attributes :=
        if infos.ownerId = self then c.onLobby infos.attributes else infos.attributes }).editMember
    self fun member ↦
      { member with attributes := attributeStore.inOrder member.attributes c.memberEdit.toList }

/-- What a call leaves staged. -/
def edited (object : LobbyModificationObject) (c : AttributeCall) : LobbyModificationObject :=
  { object with
    infos := { object.infos with attributes := c.onLobby object.infos.attributes }
    memberSet := (Edit.putsOf c.memberEdit.toList).foldl upsertAttribute object.memberSet
    memberDeleted := object.memberDeleted ++ Edit.removesOf c.memberEdit.toList }

/-- What the calls ask for of the local user's own attributes. -/
def memberEdits (calls : List AttributeCall) : List (Edit Bytes SessionAttribute) :=
  calls.flatMap fun c ↦ c.memberEdit.toList

end AttributeCall

variable {s : Lobbies} {handle : GameHandle}

theorem find_modify {edit : LobbyModificationObject → Except ResultCode LobbyModificationObject}
    {object object' : LobbyModificationObject} (h : s.modifications.find handle = some object)
    (hedit : (edit object).toOption.getD object = object') :
    (s.modify handle edit).2.modifications.find handle = some object' := by
  rw [modify, h]
  dsimp only
  cases hresult : edit object with
  | error code =>
    rw [hresult] at hedit
    exact h.trans (congrArg some hedit)
  | ok object'' =>
    rw [hresult] at hedit
    exact (HandleStore.find_put _ _ _ _).trans ((if_pos rfl).trans (congrArg some hedit))

theorem find_stage {object : LobbyModificationObject}
    (h : s.modifications.find handle = some object) (c : AttributeCall) :
    (stage handle s c).modifications.find handle = some (c.edited object) := by
  cases c with
  | add o =>
    refine find_modify h ?_
    dsimp only [AttributeCall.edited, AttributeCall.onLobby, AttributeCall.memberEdit]
    cases readAttribute o.attr with
    | none => simp [Except.toOption, Edit.putsOf, Edit.removesOf]
    | some attr =>
      dsimp only
      split <;> simp [Except.toOption, Edit.putsOf, Edit.removesOf]
  | remove key =>
    refine find_modify h ?_
    cases key <;>
      simp [Except.toOption, AttributeCall.edited, AttributeCall.onLobby, AttributeCall.memberEdit,
        Edit.putsOf, Edit.removesOf]
  | addMember o =>
    refine find_modify h ?_
    dsimp only [AttributeCall.edited, AttributeCall.onLobby, AttributeCall.memberEdit]
    cases readAttribute o.attr <;> simp [Except.toOption, Edit.putsOf, Edit.removesOf]
  | removeMember key =>
    refine find_modify h ?_
    cases key <;>
      simp [Except.toOption, AttributeCall.edited, AttributeCall.onLobby, AttributeCall.memberEdit,
        Edit.putsOf, Edit.removesOf]

theorem find_foldl_stage {object : LobbyModificationObject}
    (h : s.modifications.find handle = some object) (calls : List AttributeCall) :
    (calls.foldl (stage handle) s).modifications.find handle =
      some (calls.foldl AttributeCall.edited object) := by
  induction calls generalizing s object with
  | nil => exact h
  | cons c calls ih => exact ih (find_stage h c)

/-! ### What is staged, and what applying the calls at once leaves -/

/-- What a run of calls leaves staged. -/
structure Collected (object : LobbyModificationObject) (calls : List AttributeCall)
    (object' : LobbyModificationObject) : Prop where
  lobbyId : object'.lobbyId = object.lobbyId
  attributes : object'.infos.attributes =
    calls.foldl AttributeCall.onLobby object.infos.attributes
  memberSet : object'.memberSet =
    (Edit.putsOf (AttributeCall.memberEdits calls)).foldl upsertAttribute object.memberSet
  memberDeleted : object'.memberDeleted =
    object.memberDeleted ++ Edit.removesOf (AttributeCall.memberEdits calls)

theorem collected (object : LobbyModificationObject) (calls : List AttributeCall) :
    Collected object calls (calls.foldl AttributeCall.edited object) := by
  induction calls generalizing object with
  | nil => exact ⟨rfl, rfl, rfl, (List.append_nil _).symm⟩
  | cons c calls ih =>
    obtain ⟨hid, hattributes, hset, hdeleted⟩ := ih (c.edited object)
    refine ⟨hid, hattributes, hset.trans ?_, hdeleted.trans ?_⟩
    · simp only [AttributeCall.memberEdits, Edit.putsOf, List.flatMap_cons, List.filterMap_append,
        List.foldl_append, AttributeCall.edited]
    · simp only [AttributeCall.memberEdits, Edit.removesOf, List.flatMap_cons,
        List.filterMap_append, List.append_assoc, AttributeCall.edited]

theorem attributesOf_atOnce (self : Bytes) (infos : LobbyInfos) (calls : List AttributeCall) :
    (calls.foldl (AttributeCall.atOnce self) infos).attributesOf self =
      if (infos.findMember self).isSome then
        attributeStore.inOrder (infos.attributesOf self) (AttributeCall.memberEdits calls)
      else [] := by
  induction calls generalizing infos with
  | nil => cases hmember : infos.findMember self <;> simp [LobbyInfos.attributesOf, hmember]; rfl
  | cons c calls ih =>
    have hmember : (c.atOnce self infos).findMember self =
        (infos.findMember self).map fun member ↦
          { member with
            attributes := attributeStore.inOrder member.attributes c.memberEdit.toList } :=
      findMember_editMember _ _ _ fun _ ↦ rfl
    rw [List.foldl_cons, ih, hmember, Option.isSome_map, LobbyInfos.attributesOf, hmember]
    cases hself : infos.findMember self with
    | none => rfl
    | some member =>
      simp [LobbyInfos.attributesOf, hself, AttributeCall.memberEdits, Keyed.inOrder]

theorem attributes_atOnce (self : Bytes) (infos : LobbyInfos) (calls : List AttributeCall) :
    (calls.foldl (AttributeCall.atOnce self) infos).attributes =
      if infos.ownerId = self then calls.foldl AttributeCall.onLobby infos.attributes
      else infos.attributes := by
  induction calls generalizing infos with
  | nil => exact (ite_self _).symm
  | cons c calls ih =>
    rw [List.foldl_cons, ih]
    by_cases howner : infos.ownerId = self <;>
      simp [AttributeCall.atOnce, LobbyInfos.editMember, howner]

/-- Putting records one after the other is putting what they leave of an empty list. -/
theorem attributeAt_memberSet (puts attrs : List SessionAttribute) (key : Bytes) :
    attributeAt ((puts.foldl upsertAttribute []).foldl upsertAttribute attrs) key =
      attributeAt (puts.foldl upsertAttribute attrs) key := by
  have hdistinct : ((puts.foldl upsertAttribute []).map (·.key)).Nodup := by
    induction puts using List.reverseRecOn with
    | nil => exact List.nodup_nil
    | append_singleton puts attr ih =>
      rw [List.foldl_append, List.foldl_cons, List.foldl_nil, keys_upsert]
      split
      · exact ih
      · rename_i hnew
        exact List.nodup_append.2 ⟨ih, List.nodup_singleton _, fun a ha b hb heq ↦
          hnew (List.mem_singleton.1 hb ▸ heq ▸ ha)⟩
  have hput (s : List SessionAttribute) : attributeAt (puts.foldl upsertAttribute s) key =
      (attributeStore.lastPut puts key).or (attributeAt s key) :=
    attributeStore.lookup_foldl_put s puts key
  have hset : attributeAt (puts.foldl upsertAttribute []) key = attributeStore.lastPut puts key :=
    (hput []).trans Option.or_none
  rw [attributeAt_foldl_upsert hdistinct, hput attrs, hset]
  cases hlast : attributeStore.lastPut puts key with
  | none =>
    rw [if_neg, Option.none_or]
    rw [hlast, attributeAt, List.find?_eq_none] at hset
    exact fun hmem ↦ by
      obtain ⟨attr, hattr, hkey⟩ := List.mem_map.1 hmem
      exact hset attr hattr (decide_eq_true hkey)
  | some attr =>
    rw [if_pos, Option.some_or]
    rw [hlast] at hset
    exact List.mem_map.2 ⟨attr, List.mem_of_find?_eq_some hset,
      of_decide_eq_true (List.find?_eq_some_iff_append.1 hset).1⟩

/-! ### What a commit writes -/

/-- Two lobbies have the same attributes, and so has the local user in both. -/
def SameAttributes (self : Bytes) (infos infos' : LobbyInfos) : Prop :=
  infos.attributes = infos'.attributes ∧
    ∀ key, attributeAt (infos.attributesOf self) key = attributeAt (infos'.attributesOf self) key

theorem attributes_modified (entry : Lobby) (self : Bytes) (object : LobbyModificationObject) :
    (Lobby.modified entry self object).infos.attributes =
      if entry.infos.ownerId = self then object.infos.attributes else entry.infos.attributes := by
  rw [Lobby.modified]
  split <;> rfl

theorem attributesOf_modified (entry : Lobby) (self : Bytes) (object : LobbyModificationObject) :
    (Lobby.modified entry self object).infos.attributesOf self =
      ((entry.infos.findMember self).map fun member ↦
        (applyMemberEdits object member).attributes).getD [] := by
  have hfind : (Lobby.modified entry self object).infos.findMember self =
      (entry.infos.findMember self).map (applyMemberEdits object) := by
    rw [Lobby.modified]
    split
    · exact findMember_editMember _ _ _ fun _ ↦ rfl
    · exact findMember_editMember _ _ _ fun _ ↦ rfl
  rw [LobbyInfos.attributesOf, hfind, Option.map_map]
  rfl

/-- **A lobby's commit keeps the order of the calls exactly when** no attribute of the user's own
was added, and then removed by the last call on it. -/
theorem sameAttributes_iff (entry : Lobby) (self : Bytes) {object object' : LobbyModificationObject}
    {calls : List AttributeCall} (hinfos : object.infos = entry.infos)
    (hset : object.memberSet = [])
    (hdeleted : object.memberDeleted = []) (h : Collected object calls object') :
    SameAttributes self (Lobby.modified entry self object').infos
        (calls.foldl (AttributeCall.atOnce self) entry.infos) ↔
      ((entry.infos.findMember self).isSome → ∀ key,
        ¬ attributeStore.PutThenRemoved (AttributeCall.memberEdits calls) key) := by
  have hlobby : (Lobby.modified entry self object').infos.attributes =
      (calls.foldl (AttributeCall.atOnce self) entry.infos).attributes := by
    rw [attributes_modified, attributes_atOnce, h.attributes, hinfos]
  rw [SameAttributes, and_iff_right hlobby, attributesOf_modified, attributesOf_atOnce]
  cases hself : entry.infos.findMember self with
  | none => simp
  | some member =>
    have hmember : entry.infos.attributesOf self = member.attributes := by
      rw [LobbyInfos.attributesOf, hself]
      rfl
    simp only [Option.map_some, Option.getD_some, Option.isSome_some, if_true, forall_const]
    refine forall_congr' fun key ↦ ?_
    rw [← attributeStore.lookup_apart_eq_iff member.attributes, hmember, applyMemberEdits,
      h.memberSet, h.memberDeleted, hset, hdeleted, attributeAt_memberSet]
    rfl

/-- Drawing a handle of a lobby, making the calls on it and committing it leaves `written` in the
lobby's place, but for the peers that are lost while the commit is told. -/
def Commits (s : Lobbies) (o : LobbyIdOptions) (calls : List AttributeCall) (lobbyId : Bytes)
    (written : Lobby) : Prop :=
  ∃ handle s₁, s.updateLobbyModification o = (.success, some handle, s₁) ∧
    ∀ version, versionOk version lobbyApiLatest = true → ∃ s',
      step (calls.foldl (stage handle) s₁)
        (.call (.updateLobby { apiVersion := version, lobbyModificationHandle := handle })) =
          some s' ∧
      ∃ gone : List Bytes, (∀ peer ∈ gone, peer ∈ s.mesh.peers ∧ peer ∉ s'.mesh.peers) ∧
        s'.lobbies[lobbyId]? = Lobby.outliving s.productUserId gone (some written)

theorem same_modify (edit : LobbyModificationObject → Except ResultCode LobbyModificationObject) :
    (s.modify handle edit).2.lobbies = s.lobbies ∧ (s.modify handle edit).2.mesh = s.mesh ∧
      (s.modify handle edit).2.productUserId = s.productUserId := by
  rw [modify]
  split
  · exact ⟨rfl, rfl, rfl⟩
  · split <;> exact ⟨rfl, rfl, rfl⟩

/-- Calls on a handle change no lobby. -/
theorem same_foldl_stage (s : Lobbies) (handle : GameHandle) (calls : List AttributeCall) :
    (calls.foldl (stage handle) s).lobbies = s.lobbies ∧
      (calls.foldl (stage handle) s).mesh = s.mesh ∧
        (calls.foldl (stage handle) s).productUserId = s.productUserId := by
  induction calls generalizing s with
  | nil => exact ⟨rfl, rfl, rfl⟩
  | cons c calls ih =>
    obtain ⟨hlobbies, hmesh, huser⟩ := ih (stage handle s c)
    obtain ⟨hlobbies', hmesh', huser'⟩ : (stage handle s c).lobbies = s.lobbies ∧
        (stage handle s c).mesh = s.mesh ∧
          (stage handle s c).productUserId = s.productUserId := by
      cases c <;> exact same_modify _
    exact ⟨hlobbies.trans hlobbies', hmesh.trans hmesh', huser.trans huser'⟩

/-- What the commit of a handle writes. -/
theorem commits_staged {o : LobbyIdOptions} {lobbyId localUser : Bytes} {entry : Lobby}
    (hid : o.lobbyId = some lobbyId) (huser : o.localUserId = some localUser)
    (hentry : s.lobbies[lobbyId]? = some entry) (calls : List AttributeCall) :
    ∃ written : Lobby, Commits s o calls lobbyId written ∧
      (SameAttributes s.productUserId written.infos
          (calls.foldl (AttributeCall.atOnce s.productUserId) entry.infos) ↔
        ((entry.infos.findMember s.productUserId).isSome → ∀ key,
          ¬ attributeStore.PutThenRemoved (AttributeCall.memberEdits calls) key)) := by
  let object : LobbyModificationObject :=
    { lobbyId, localUser, creating := false, infos := entry.infos }
  let s₁ : Lobbies :=
    { s with
      nextHandle := s.nextHandle + 1, modifications := s.modifications.put s.nextHandle object }
  have hdraw : s.updateLobbyModification o = (.success, some s.nextHandle, s₁) := by
    rw [updateLobbyModification, hid, huser]
    dsimp only
    rw [findLobby, hentry]
  have hobject : s₁.modifications.find s.nextHandle = some object :=
    (HandleStore.find_put _ _ _ _).trans (if_pos rfl)
  have hstaged := find_foldl_stage hobject calls
  have hcollected := collected object calls
  obtain ⟨hlobbies, hmesh, hself⟩ := same_foldl_stage s₁ s.nextHandle calls
  refine ⟨Lobby.modified entry s.productUserId (calls.foldl AttributeCall.edited object),
    ⟨s.nextHandle, s₁, hdraw, fun version hversion ↦ ?_⟩,
    sameAttributes_iff entry _ rfl rfl rfl hcollected⟩
  have hcommit : committing (calls.foldl (stage s.nextHandle) s₁)
      (.call (.updateLobby { apiVersion := version, lobbyModificationHandle := s.nextHandle })) =
        some (s.nextHandle, calls.foldl AttributeCall.edited object, entry) := by
    simp only [committing, hstaged, hversion, if_true, findLobby, hlobbies, hcollected.lobbyId]
    exact congrArg (Option.map _) hentry
  obtain ⟨-, -, s', hstep, hlookup⟩ := lookup_commit hcommit
  obtain ⟨gone, hgone, hafter⟩ := hlookup lobbyId
  refine ⟨s', hstep, gone, fun peer hpeer ↦ ?_, ?_⟩
  · have hlost := (hgone peer hpeer).1
    rw [wasLost, hmesh] at hlost
    rcases hlost with ⟨_, hreceived, _⟩ | hlost
    · cases hreceived
    · exact hlost
  · rw [hafter, if_pos hcollected.lobbyId.symm, hself]

end Lobbies

/-! ## Presence -/

namespace Presence

/-- A call on a handle that edits data records. -/
inductive DataCall
  | setData (o : ArrayOptions DataRecordArg)
  | deleteData (o : ArrayOptions (Option Bytes))
  deriving DecidableEq, Repr

/-- A call, made on a handle. -/
def stageData (handle : GameHandle) (s : Presence) : DataCall → Presence
  | .setData o => (s.modificationSetData handle o).2
  | .deleteData o => (s.modificationDeleteData handle o).2

/-- What a call asks for, once every check has passed. -/
def DataCall.asked : DataCall → Except ResultCode (List (Edit Bytes PresenceDataRecord))
  | .setData o =>
    if ¬ versionOk o.apiVersion presenceApiLatest then .error .invalidParameters
    else match checkArray o with
      | .error code => .error code
      | .ok args =>
        match readRecords args with
        | .error code => .error code
        | .ok ⟨records, _⟩ => .ok (records.map .put)
  | .deleteData o =>
    if ¬ versionOk o.apiVersion presenceApiLatest then .error .invalidParameters
    else match checkArray o with
      | .error code => .error code
      | .ok keys =>
        if none ∈ keys then .error .invalidParameters else .ok ((keys.filterMap id).map .remove)

/-- What a call edits: nothing, when it is refused. -/
def DataCall.edits (c : DataCall) : List (Edit Bytes PresenceDataRecord) := c.asked.toOption.getD []

variable {s : Presence} {handle : GameHandle}

theorem lists_map_put (records : List PresenceDataRecord) :
    Edit.putsOf (records.map (@Edit.put Bytes _)) = records ∧
      Edit.removesOf (records.map (@Edit.put Bytes _)) = [] := by
  simp [Edit.putsOf, Edit.removesOf, List.filterMap_map]

theorem lists_map_remove (keys : List Bytes) :
    Edit.putsOf (keys.map (@Edit.remove _ PresenceDataRecord)) = [] ∧
      Edit.removesOf (keys.map (@Edit.remove _ PresenceDataRecord)) = keys := by
  simp [Edit.putsOf, Edit.removesOf, List.filterMap_map]

/-- A handle has collected some edits. -/
def Holds (s : Presence) (handle : GameHandle)
    (edits : List (Edit Bytes PresenceDataRecord)) : Prop :=
  ∃ staged, s.modifications.find handle = some staged ∧
    staged.dataSet = Edit.putsOf edits ∧ staged.dataDeleted = Edit.removesOf edits

theorem Holds.put {edits more : List (Edit Bytes PresenceDataRecord)}
    {staged staged' : PresenceModificationObject} (hset : staged.dataSet = Edit.putsOf edits)
    (hdeleted : staged.dataDeleted = Edit.removesOf edits)
    (hset' : staged'.dataSet = staged.dataSet ++ Edit.putsOf more)
    (hdeleted' : staged'.dataDeleted = staged.dataDeleted ++ Edit.removesOf more) :
    { s with modifications := s.modifications.put handle staged' }.Holds handle
    (edits ++ more) := by
  refine ⟨staged', (HandleStore.find_put _ _ _ _).trans (if_pos rfl), ?_, ?_⟩
  · rw [hset', hset, Edit.putsOf, Edit.putsOf, Edit.putsOf, List.filterMap_append]
  · rw [hdeleted', hdeleted, Edit.removesOf, Edit.removesOf, Edit.removesOf,
      List.filterMap_append]

theorem Holds.stage {edits : List (Edit Bytes PresenceDataRecord)} (h : s.Holds handle edits)
    (c : DataCall) : (stageData handle s c).Holds handle (edits ++ c.edits) := by
  have hsame : s.Holds handle (edits ++ []) := by
    rw [List.append_nil]
    exact h
  obtain ⟨staged, hstaged, hset, hdeleted⟩ := h
  cases c with
  | setData o =>
    rw [stageData, modificationSetData, modify, hstaged, DataCall.edits, DataCall.asked]
    dsimp only
    by_cases hversion : versionOk o.apiVersion presenceApiLatest = true
    swap
    · rw [if_pos hversion, if_pos hversion]
      exact hsame
    rw [if_neg (not_not.2 hversion), if_neg (not_not.2 hversion)]
    cases checkArray o with
    | error code => exact hsame
    | ok args =>
      dsimp only
      cases readRecords args with
      | error code => exact hsame
      | ok records =>
        obtain ⟨hputs, hremoves⟩ := lists_map_put records.1
        refine Holds.put hset hdeleted ?_ ?_
        · exact congrArg (staged.dataSet ++ ·) hputs.symm
        · exact ((congrArg (staged.dataDeleted ++ ·) hremoves).trans (List.append_nil _)).symm
  | deleteData o =>
    rw [stageData, modificationDeleteData, modify, hstaged, DataCall.edits, DataCall.asked]
    dsimp only
    by_cases hversion : versionOk o.apiVersion presenceApiLatest = true
    swap
    · rw [if_pos hversion, if_pos hversion]
      exact hsame
    rw [if_neg (not_not.2 hversion), if_neg (not_not.2 hversion)]
    cases checkArray o with
    | error code => exact hsame
    | ok keys =>
      dsimp only
      by_cases hnull : none ∈ keys
      · rw [if_pos hnull, if_pos hnull]
        exact hsame
      rw [if_neg hnull, if_neg hnull]
      obtain ⟨hputs, hremoves⟩ := lists_map_remove (keys.filterMap id)
      refine Holds.put hset hdeleted ?_ ?_
      · exact ((congrArg (staged.dataSet ++ ·) hputs).trans (List.append_nil _)).symm
      · exact congrArg (staged.dataDeleted ++ ·) hremoves.symm

/-- Calls on a handle collect what they edit. -/
theorem Holds.foldl {edits : List (Edit Bytes PresenceDataRecord)} (h : s.Holds handle edits)
    (calls : List DataCall) :
    (calls.foldl (stageData handle) s).Holds handle (edits ++ calls.flatMap DataCall.edits) := by
  induction calls generalizing s edits with
  | nil => simpa using h
  | cons c calls ih =>
    have hrest := ih (h.stage c)
    rwa [List.append_assoc, ← List.flatMap_cons] at hrest

/-- Two states differ in what is staged only. -/
structure SameTables (s s' : Presence) : Prop where
  linked : s.Linked → s'.Linked
  epicAccountId : s'.epicAccountId = s.epicAccountId
  productId : s'.productId = s.productId
  presences : s'.presences = s.presences

theorem SameTables.modify (s : Presence) (handle : GameHandle) (version : Int32)
    (edit : PresenceModificationObject → Except ResultCode PresenceModificationObject) :
    SameTables s (s.modify handle version edit).2 := by
  refine ⟨fun h ↦ h.modify handle version edit, ?_, ?_, ?_⟩
  all_goals
    rw [Presence.modify]
    split
    · rfl
    · split
      · rfl
      · split <;> rfl

theorem SameTables.foldl (s : Presence) (handle : GameHandle) (calls : List DataCall) :
    SameTables s (calls.foldl (stageData handle) s) := by
  induction calls generalizing s with
  | nil => exact ⟨id, rfl, rfl, rfl⟩
  | cons c calls ih =>
    have hrest := ih (stageData handle s c)
    have hfirst : SameTables s (stageData handle s c) := by
      cases c
      · exact .modify ..
      · exact .modify ..
    exact ⟨hrest.linked ∘ hfirst.linked, hrest.epicAccountId.trans hfirst.epicAccountId,
      hrest.productId.trans hfirst.productId, hrest.presences.trans hfirst.presences⟩

/-! ### What a commit stores -/

/-- What the calls come to in their order: the records as a whole have to stay within the cap. -/
def inOrder (self : PresenceInfo) (calls : List DataCall) : ResultCode × List PresenceDataRecord :=
  let records := recordStore.inOrder self.records (calls.flatMap DataCall.edits)
  if records.length > maxDataKeys then (.limitExceeded, self.records) else (.success, records)

/-- The same answer to the commit, and the same value at every key. -/
def SameOutcome (outcome outcome' : ResultCode × List PresenceDataRecord) : Prop :=
  outcome.1 = outcome'.1 ∧ ∀ key, recordAt outcome.2 key = recordAt outcome'.2 key

/-- Drawing a handle, making the calls on it and committing it answers with a code, and leaves some
records in our own presence. -/
def Commits (s : Presence) (calls : List DataCall)
    (outcome : ResultCode × List PresenceDataRecord) :
    Prop :=
  ∀ version, versionOk version presenceApiLatest = true → ∃ handle s₁,
    s.createPresenceModification version (some s.epicAccountId) = (.success, some handle, s₁) ∧
      ∀ version', versionOk version' presenceApiLatest = true → ∃ self' s',
        (calls.foldl (stageData handle) s₁).setPresence
            { apiVersion := version', localUserId := some s.epicAccountId
              presenceModificationHandle := handle } = (outcome.1, s') ∧
          s'.findPresence s.epicAccountId = some self' ∧ self'.records = outcome.2

/-- What is stored of the records staged. -/
def applied (self : PresenceInfo) (edits : List (Edit Bytes PresenceDataRecord)) :
    ResultCode × List PresenceDataRecord :=
  let records := recordStore.apart self.records (Edit.putsOf edits) (Edit.removesOf edits)
  if records.length > maxDataKeys then (.limitExceeded, self.records) else (.success, records)

theorem sameOutcome_iff (self : PresenceInfo) (calls : List DataCall) :
    SameOutcome (applied self (calls.flatMap DataCall.edits)) (inOrder self calls) ↔
      (∀ key, ¬ recordStore.PutThenRemoved (calls.flatMap DataCall.edits) key) ∨
        maxDataKeys < (recordStore.inOrder self.records (calls.flatMap DataCall.edits)).length := by
  have hle := recordStore.length_inOrder_le self.records (calls.flatMap DataCall.edits)
  have hlookup := fun key ↦
    recordStore.lookup_apart_eq_iff self.records (calls.flatMap DataCall.edits) key
  rw [applied, inOrder]
  by_cases hfull : maxDataKeys <
      (recordStore.inOrder self.records (calls.flatMap DataCall.edits)).length
  · rw [if_pos (hfull.trans_le hle), if_pos hfull]
    exact ⟨fun _ ↦ .inr hfull, fun _ ↦ ⟨rfl, fun _ ↦ rfl⟩⟩
  · rw [if_neg hfull, or_iff_left hfull]
    constructor
    · intro ⟨hcode, hrecords⟩ key
      split at hrecords
      · rename_i hover
        rw [if_pos hover] at hcode
        cases hcode
      · exact (hlookup key).1 (hrecords key)
    · intro hkeys
      rw [if_neg (recordStore.length_inOrder_eq self.records hkeys ▸ hfull)]
      exact ⟨rfl, fun key ↦ (hlookup key).2 (hkeys key)⟩

theorem SameTables.withSelf {s' : Presence} (h : SameTables s s') (user : Bytes) :
    (s'.withSelf user).presences = (s.withSelf user).presences := by
  have hseed : s'.seed = s.seed := by rw [seed, seed, h.epicAccountId, h.productId]
  rw [Presence.withSelf, Presence.withSelf, findPresence, findPresence, h.presences]
  split
  · exact h.presences
  · rw [seedMyself, seedMyself, h.epicAccountId]
    split
    · exact h.presences
    · change s'.presences.insert _ s'.seed = s.presences.insert _ s.seed
      rw [h.presences, hseed]

/-- What the commit of a handle stores. -/
theorem commits_applied (h : s.Linked) {self : PresenceInfo}
    (hself : (s.withSelf s.epicAccountId).findPresence s.epicAccountId = some self)
    (calls : List DataCall) : Commits s calls (applied self (calls.flatMap DataCall.edits)) := by
  intro version hversion
  let s₁ : Presence :=
    { s with
      nextHandle := s.nextHandle + 1, modifications := s.modifications.put s.nextHandle {} }
  have hdraw : s.createPresenceModification version (some s.epicAccountId) =
      (.success, some s.nextHandle, s₁) := by
    rw [createPresenceModification, if_neg (not_not.2 hversion), if_neg (not_not.2 rfl)]
  have hholds : s₁.Holds s.nextHandle [] :=
    ⟨{}, (HandleStore.find_put _ _ _ _).trans (if_pos rfl), rfl, rfl⟩
  obtain ⟨staged, hstaged, hset, hdeleted⟩ := hholds.foldl calls
  have htables : SameTables s (calls.foldl (stageData s.nextHandle) s₁) := by
    have hcalls := SameTables.foldl s₁ s.nextHandle calls
    exact ⟨fun h ↦ hcalls.linked (h.withModifications _ _), hcalls.epicAccountId,
      hcalls.productId, hcalls.presences⟩
  refine ⟨s.nextHandle, s₁, hdraw, fun version' hversion' ↦ ?_⟩
  generalize calls.foldl (stageData s.nextHandle) s₁ = s₂ at hstaged htables
  have hmerge : staged.merge self.records = recordStore.apart self.records
      (Edit.putsOf (calls.flatMap DataCall.edits))
      (Edit.removesOf (calls.flatMap DataCall.edits)) := by
    rw [PresenceModificationObject.merge, hset, hdeleted]
    rfl
  have hfound : (s₂.withSelf s.epicAccountId).findPresence s.epicAccountId = some self := by
    rw [findPresence, htables.withSelf]
    exact hself
  have hown : (s₂.withSelf s.epicAccountId).epicAccountId = s.epicAccountId := by
    rw [withSelf_epicAccountId, htables.epicAccountId]
  rw [setPresence]
  dsimp only
  rw [if_neg (not_not.2 hversion'), if_neg (not_not.2 htables.epicAccountId.symm), hstaged]
  dsimp only
  rw [hfound]
  dsimp only
  rw [hmerge, applied]
  split
  · exact ⟨self, _, rfl, hfound, rfl⟩
  · have hlinked := ((htables.linked h).withSelf s.epicAccountId).withOwn hown.symm
      (staged.applyTo self)
    obtain ⟨-, message, hlater⟩ := hlinked.broadcast []
    refine ⟨staged.applyTo self, _, rfl, ?_, hmerge⟩
    have hentry := hlater.ownEntry
    simp only [hown] at hentry ⊢
    exact hentry.trans ((lookup_insert _ _ _ _).trans (if_pos rfl))

end Presence

/-! ## The result -/

/-- **Staged edits take effect in the order of the calls exactly when** no key was set, and then
removed by the last call on it.  That is so of the local user's attributes and of the data records;
of these also when the calls in their order leave more than the cap, so that either way the commit
is refused.  The attributes of a lobby itself are always edited in order. -/
theorem staged_edits_in_order (lobbies : Lobbies) (epic user product : Bytes)
    (losses : List (List Bytes)) :
    (∀ (o : LobbyIdOptions) (lobbyId localUser : Bytes) (entry : Lobby),
      o.lobbyId = some lobbyId → o.localUserId = some localUser →
      lobbies.lobbies[lobbyId]? = some entry → ∀ calls, ∃ written : Lobby,
        Lobbies.Commits lobbies o calls lobbyId written ∧
          (Lobbies.SameAttributes lobbies.productUserId written.infos
              (calls.foldl (Lobbies.AttributeCall.atOnce lobbies.productUserId) entry.infos) ↔
            ((entry.infos.findMember lobbies.productUserId).isSome → ∀ key,
              ¬ attributeStore.PutThenRemoved (Lobbies.AttributeCall.memberEdits calls) key))) ∧
    ∀ (s : Presence) (self : PresenceInfo),
      Reaches Presence.step always (Presence.start epic user product losses) s →
      (s.withSelf s.epicAccountId).findPresence s.epicAccountId = some self →
      ∀ calls, ∃ outcome, Presence.Commits s calls outcome ∧
        (Presence.SameOutcome outcome (Presence.inOrder self calls) ↔
          (∀ key, ¬ recordStore.PutThenRemoved (calls.flatMap Presence.DataCall.edits) key) ∨
            maxDataKeys < (recordStore.inOrder self.records
              (calls.flatMap Presence.DataCall.edits)).length) := by
  constructor
  · intro o lobbyId localUser entry hid huser hentry calls
    exact Lobbies.commits_staged hid huser hentry calls
  · intro s self hreach hself calls
    have hlinked := Presence.linked_of_reaches
      (Presence.linked_start epic user product losses) hreach
    exact ⟨_, Presence.commits_applied hlinked hself calls, Presence.sameOutcome_iff self calls⟩

/-! ### A record and an attribute that stay -/

namespace Presence

/-- A record is set, and then deleted. -/
def setAndDeleted : List DataCall :=
  [.setData { apiVersion := 1, recordsCount := 1
              records := some [{ key := some [5], value := some [6] }] },
    .deleteData { apiVersion := 1, recordsCount := 1, records := some [some [5]] }]

/-- The records of our own presence, once a handle with some calls on it was committed. -/
def recordsAfter (s : Presence) (calls : List DataCall) : Option (List PresenceDataRecord) :=
  let (_, handle, drawn) := s.createPresenceModification 1 (some s.epicAccountId)
  let staged := calls.foldl (stageData (handle.getD 0)) drawn
  let (_, stored) := staged.setPresence
    { apiVersion := 1, localUserId := some s.epicAccountId
      presenceModificationHandle := handle.getD 0 }
  (stored.findPresence s.epicAccountId).map (·.records)

end Presence

namespace Lobbies

/-- An attribute of the local user's is added, and then removed. -/
def addedAndRemoved : List AttributeCall :=
  [.addMember
      { attr := some { key := some [7], valueType := attributeInt64, asInt64 := 8 },
        visibility := 0 },
    .removeMember (some [7])]

/-- The attributes of the local user, once a handle with some calls on it was committed. -/
def attributesAfter (s : Lobbies) (lobbyId : Bytes) (calls : List AttributeCall) :
    Option (List SessionAttribute) :=
  let (_, handle, drawn) :=
    s.updateLobbyModification { lobbyId := some lobbyId, localUserId := some s.productUserId }
  let staged := calls.foldl (stage (handle.getD 0)) drawn
  let (_, stored) :=
    staged.updateLobby { apiVersion := 1, lobbyModificationHandle := handle.getD 0 }
  stored.lobbies[lobbyId]?.map (·.infos.attributesOf s.productUserId)

/-- A lobby of one. -/
def hostedAlone : Option Lobbies :=
  step (fresh [1] [9]) (.call (.createLobby
    { apiVersion := 10, localUserId := some [1], maxLobbyMembers := 4
      permissionLevel := 0, bAllowInvites := 1, bucketId := some [6]
      bDisableHostMigration := 0, bEnableRTCRoom := 0, lobbyId := some [5]
      bEnableJoinById := 1 } none))

end Lobbies

/-- What is set and then deleted is there after the commit, and would not be if the calls were
applied in their order. -/
theorem set_then_deleted_stays :
    (Presence.start [101] [1] [9] []).recordsAfter Presence.setAndDeleted =
        some [{ key := [5], value := [6] }] ∧
      (Presence.inOrder {} Presence.setAndDeleted).2 = [] ∧
      (Lobbies.hostedAlone.bind fun s ↦ s.attributesAfter [5] Lobbies.addedAndRemoved).map
          (attributeAt · [7]) = 
            some (some { key := [7], valueType := attributeInt64, asInt64 := 8 }) ∧
      Lobbies.hostedAlone.map (fun s ↦ s.lobbies[([5] : Bytes)]?.map fun entry ↦
          attributeAt ((Lobbies.addedAndRemoved.foldl
            (Lobbies.AttributeCall.atOnce [1]) entry.infos).attributesOf [1]) [7]) =
        some (some none) := by
  decide +kernel

end EosMesh
