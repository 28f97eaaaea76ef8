import EosMesh.Interfaces.Sessions.State

/-!
# What the presence interface holds

The records of `interfaces/presence.h` and the options of the calls a game makes.  Presence goes by
Epic account id, not by product user id.

* `presenceWithinCaps` is the check on what a peer announces.
* `PresenceModificationObject` is a staged change.  Its setters check the length of each text, and
  the object carries these checks: what is too long cannot be staged.
* `Presence` is the state of one instance.
-/

set_option autoImplicit false

namespace EosMesh

open Lib
open Std (TreeMap)

/-! ## Limits -/

/-- `EOS_Presence_EStatus`, its first and last values and the one an instance starts with. -/
def statusOffline : Int32 := 0
/-- Two of the statuses, which stand in a range. -/
def statusOnline : Int32 := 1
def statusDoNotDisturb : Int32 := 4

/-- `EOS_PRESENCE_DATA_MAX_KEYS`. -/
def maxDataKeys : Nat := 32

/-- `EOS_PRESENCE_DATA_MAX_KEY_LENGTH`. -/
def maxKeyLength : Nat := 64

/-- `EOS_PRESENCE_DATA_MAX_VALUE_LENGTH`. -/
def maxValueLength : Nat := 255

/-- `EOS_PRESENCE_RICH_TEXT_MAX_VALUE_LENGTH`. -/
def maxRichTextLength : Nat := 255

/-- `EOS_PRESENCEMODIFICATION_JOININFO_MAX_LENGTH`. -/
def maxJoinInfoLength : Nat := maxValueLength

/-- In milliseconds. -/
def queryTimeout : Nat := 1000

/-- The latest version of every call modelled here. -/
def presenceApiLatest : Int32 := 1

/-- A status that the SDK has. -/
def statusInRange (status : Int32) : Bool :=
  ¬ (status < statusOffline ∨ status > statusDoNotDisturb)

/-- Neither the key nor the value of a record is too long. -/
def recordWithinCaps (record : PresenceDataRecord) : Bool :=
  ¬ (record.key.length > maxKeyLength ∨ record.value.length > maxValueLength)

/-- Rejects a presence a well-behaved peer could never have sent. -/
def presenceWithinCaps (info : PresenceInfo) : Bool :=
  if ¬ statusInRange info.status then false
  else if info.richText.length > maxRichTextLength ∨ info.joinInfo.length > maxJoinInfoLength then
    false
  else if info.records.length > maxDataKeys then false
  else info.records.all recordWithinCaps

theorem presenceWithinCaps_iff {info : PresenceInfo} :
    presenceWithinCaps info = true ↔
      statusInRange info.status = true ∧ info.richText.length ≤ maxRichTextLength ∧
        info.joinInfo.length ≤ maxJoinInfoLength ∧ info.records.length ≤ maxDataKeys ∧
          ∀ record ∈ info.records, recordWithinCaps record = true := by
  rw [presenceWithinCaps]
  split_ifs with hstatus htext hcount
  · refine ⟨fun h ↦ (by cases h), fun ⟨_, hrich, hjoin, _⟩ ↦ ?_⟩
    omega
  · refine ⟨fun h ↦ (by cases h), fun ⟨_, _, _, hrecords, _⟩ ↦ ?_⟩
    omega
  · rw [List.all_eq_true]
    exact ⟨fun h ↦ ⟨hstatus, by omega, by omega, by omega, h⟩, fun h ↦ h.2.2.2.2⟩
  · exact ⟨fun h ↦ (by cases h), fun h ↦ absurd h.1 hstatus⟩

/-! ## Staged changes -/

/-- `modification_object`: each field is only touched if the game asked for it. -/
structure PresenceModificationObject where
  setStatus : Bool := false
  status : Int32 := 0
  setRichText : Bool := false
  richText : Bytes := []
  setJoinInfo : Bool := false
  joinInfo : Bytes := []
  /-- Records to add or overwrite. -/
  dataSet : List PresenceDataRecord := []
  /-- Keys to remove. -/
  dataDeleted : List Bytes := []
  richTextFits : richText.length ≤ maxRichTextLength := by decide
  joinInfoFits : joinInfo.length ≤ maxJoinInfoLength := by decide
  dataSetFits : ∀ record ∈ dataSet, recordWithinCaps record = true := by simp
  deriving DecidableEq, Repr

/-- A record of `SetData`, as the game hands it over: either pointer may be null. -/
structure DataRecordArg where
  key : Option Bytes
  value : Option Bytes
  deriving DecidableEq, Repr

/-- An array of the game, and how many elements it says there are. -/
structure ArrayOptions (α : Type) where
  apiVersion : Int32
  recordsCount : Int32
  records : Option (List α)
  deriving DecidableEq, Repr

/-- What a loop over the array reads. -/
def ArrayOptions.read {α : Type} (o : ArrayOptions α) : List α :=
  (o.records.getD []).take o.recordsCount.toInt.toNat

/-- The options to commit a modification with; a null user is `none`. -/
structure SetPresenceOptions where
  apiVersion : Int32
  localUserId : Option Bytes
  presenceModificationHandle : GameHandle
  deriving DecidableEq, Repr

/-- The options to ask for a presence with. -/
structure QueryPresenceOptions where
  apiVersion : Int32
  localUserId : Option Bytes
  targetUserId : Option Bytes
  deriving DecidableEq, Repr

/-! ## The interface -/

/-- What one instance says to another. -/
inductive PresenceMessage
  | info (msg : PresenceInfo)
  | request (msg : PresenceRequest)
  deriving DecidableEq, Repr

/-- A query waiting on the owning peer's answer. -/
structure PendingPresenceQuery where
  localId : Bytes
  targetId : Bytes
  deadline : Nat
  done : Bool := false
  deriving DecidableEq, Repr

/-- One instance: who it is by `settings_`, its tables, and the router underneath. -/
structure Presence where
  epicAccountId : Bytes
  productUserId : Bytes
  productId : Bytes
  /-- Every account we know a presence for, our own included. -/
  presences : TreeMap Bytes PresenceInfo := {}
  /-- Which peer announced each account. -/
  epicOwner : TreeMap Bytes Bytes := {}
  /-- The account each peer's key derives. -/
  peerEpic : TreeMap Bytes Bytes := {}
  modifications : HandleStore PresenceModificationObject := {}
  nextHandle : GameHandle := 1
  pendingQueries : TreeMap ResultAddress PendingPresenceQuery := {}
  /-- The accounts `OnPresenceChanged` was fired for, the oldest first. -/
  changed : List Bytes := []
  mesh : Mesh PresenceMessage := {}
  /-- What the router told it, in the order it was told. -/
  told : List NetEnvelope := []

end EosMesh
