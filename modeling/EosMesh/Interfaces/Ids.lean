import EosMesh.Interfaces.Mesh
import EosMesh.Lib.Run
import EosMesh.Lib.TextOut

/-!
# Ids and their handles

A game names an account by a handle, the address of a record that `common/ids.h` keeps for every id
string it was ever asked about.  Handles come from a string, and the string is read back from them.

* `IdRegistry` is one of the two tables and the records its handles point to.
* `fromString`, `isValid` and `toString` are the calls of `flat/eos_common_flat.cpp`, which the two
  kinds of id have alike.
* `id_round_trip` is what they come to over a run of the process.
-/

set_option autoImplicit false

namespace EosMesh

open Lib
open Std (TreeMap)

/-- `EOS_EpicAccountIdDetails` and `EOS_ProductUserIdDetails`. -/
structure IdDetails where
  idStr : Bytes
  valid : Bool := false
  deriving DecidableEq, Repr

/-- A table of `id_registry`, and what its handles point to; the null handle is zero. -/
structure IdRegistry where
  table : TreeMap Bytes GameHandle := {}
  details : TreeMap GameHandle IdDetails := {}

namespace IdRegistry

variable (s : IdRegistry)

/-- `id_registry::intern`; `address` is where a new record would be. -/
def intern (idStr : Bytes) (address : GameHandle) : GameHandle × IdRegistry :=
  match s.table[idStr]? with
  | some handle => (handle, s)
  | none =>
    (address,
      { table := s.table.insert idStr address
        details := s.details.insert address { idStr, valid := true } })

/-- `EOS_EpicAccountId_FromString` and `EOS_ProductUserId_FromString`. -/
def fromString (idStr : Option Bytes) (address : GameHandle) : GameHandle × IdRegistry :=
  match idStr with
  | none => (0, s)
  | some idStr => s.intern idStr address

/-- `EOS_EpicAccountId_IsValid` and `EOS_ProductUserId_IsValid`, or `none` where the handle
points to nothing. -/
def isValid (handle : GameHandle) : Option Bool :=
  if handle = 0 then some false else s.details[handle]?.map (·.valid)

/-- What `id_to_string` copies, as many bytes as it says are needed. -/
def copiedId (idStr : Bytes) (needed : Int32) : Option Bytes :=
  if needed < 0 then none else some ((idStr ++ [0]).take needed.toInt.toNat)

/-- `id_to_string`, into a buffer and a length that are there. -/
def idToString (idStr : Bytes) (valid : Bool) (buffer : Bytes) (length : Int32) :
    Option (TextOut ResultCode) :=
  if ¬ valid then some ⟨.invalidUser, length, buffer⟩
  else textOut .success .limitExceeded (copiedId idStr) idStr buffer length

/-- `EOS_EpicAccountId_ToString` and `EOS_ProductUserId_ToString`. -/
def toString (handle : GameHandle) (buffer : Bytes) (length : Int32) :
    Option (TextOut ResultCode) :=
  if handle = 0 then idToString [] false buffer length
  else do
    let details ← s.details[handle]?
    idToString (if details.valid then details.idStr else []) details.valid buffer length

/-- A game asks for the handle of a string. -/
structure Input where
  idStr : Option Bytes
  address : GameHandle
  deriving DecidableEq, Repr

/-- A new record is nowhere that one already is, since none is ever freed. -/
def step (i : Input) : Option IdRegistry :=
  if i.address = 0 ∨ s.details.contains i.address = true then none
  else some (s.fromString i.idStr i.address).2

/-! ## The table and the records -/

variable {s : IdRegistry} {s' : IdRegistry} {idStr : Bytes} {handle : GameHandle}

/-- A handle points to the record of the string it was given for. -/
structure Kept (s : IdRegistry) : Prop where
  record : ∀ idStr handle, s.table[idStr]? = some handle →
    handle ≠ 0 ∧ s.details[handle]? = some { idStr, valid := true }

theorem kept_empty : Kept {} where
  record idStr handle h := by
    rw [TreeMap.getElem?_emptyc] at h
    cases h

/-- A string has the handle it was given, and the others keep theirs. -/
theorem table_intern (s : IdRegistry) (idStr other : Bytes) (address : GameHandle) :
    (s.intern idStr address).2.table[other]? =
      if idStr = other then some (s.intern idStr address).1 else s.table[other]? := by
  cases hfound : s.table[idStr]? with
  | some handle =>
    simp only [intern, hfound]
    split
    · rename_i heq
      rw [← heq, hfound]
    · rfl
  | none =>
    simp only [intern, hfound]
    exact lookup_insert _ _ _ _

theorem Kept.intern (h : Kept s) (idStr : Bytes) {address : GameHandle} (hnull : address ≠ 0)
    (hnew : s.details[address]? = none) : Kept (s.intern idStr address).2 := by
  cases hfound : s.table[idStr]? with
  | some handle =>
    simp only [IdRegistry.intern, hfound]
    exact h
  | none =>
    simp only [IdRegistry.intern, hfound]
    refine ⟨fun other handle hother ↦ ?_⟩
    rw [lookup_insert] at hother
    rw [lookup_insert]
    split at hother
    · rename_i heq
      cases hother
      rw [if_pos rfl, heq]
      exact ⟨hnull, rfl⟩
    · obtain ⟨hhandle, hrecord⟩ := h.record other handle hother
      have hapart : address ≠ handle := by
        rintro rfl
        rw [hnew] at hrecord
        cases hrecord
      rw [if_neg hapart]
      exact ⟨hhandle, hrecord⟩

theorem Kept.step (h : Kept s) {i : Input} (hstep : s.step i = some s') : Kept s' := by
  rw [IdRegistry.step] at hstep
  split at hstep
  · cases hstep
  · rename_i hfresh
    cases hstep
    obtain ⟨hnull, hnew⟩ := not_or.1 hfresh
    cases hid : i.idStr with
    | none => exact h
    | some idStr =>
      exact h.intern idStr hnull ((not_contains_iff_lookup _ _).1 (Bool.eq_false_iff.2 hnew))

/-- What a string is given is its handle from then on. -/
theorem table_fromString {address : GameHandle} (hstep : s.step ⟨some idStr, address⟩ = some s') :
    s'.table[idStr]? = some (s.fromString (some idStr) address).1 := by
  rw [IdRegistry.step] at hstep
  split at hstep
  · cases hstep
  · cases hstep
    change (s.intern idStr address).2.table[idStr]? = _
    rw [table_intern, if_pos rfl]
    rfl

/-- A string keeps its handle. -/
theorem table_step {i : Input} (htable : s.table[idStr]? = some handle)
    (hstep : s.step i = some s') : s'.table[idStr]? = some handle := by
  rw [IdRegistry.step] at hstep
  split at hstep
  · cases hstep
  · cases hstep
    cases hid : i.idStr with
    | none => exact htable
    | some other =>
      change (s.intern other i.address).2.table[idStr]? = some handle
      rw [table_intern]
      split
      · rename_i heq
        rw [heq, IdRegistry.intern, htable]
      · exact htable

theorem Kept.injective (h : Kept s) {other : Bytes} (htable : s.table[idStr]? = some handle)
    (hother : s.table[other]? = some handle) : other = idStr := by
  have hrecord := (h.record idStr handle htable).2
  rw [(h.record other handle hother).2] at hrecord
  cases hrecord
  rfl

/-! ## Reading a handle -/

/-- What is copied is the whole text, for a text of a length the caller can say. -/
theorem copiedId_room (hsize : idStr.length + 1 < 2 ^ 31) :
    copiedId idStr (room idStr) = some (idStr ++ [0]) := by
  have hroom := toInt_room hsize
  have hcount : (room idStr).toInt.toNat = (idStr ++ [0]).length := by
    rw [hroom, List.length_append, List.length_singleton]
    omega
  have hsign : ¬ room idStr < 0 := by
    rw [Int32.lt_iff_toInt_lt, hroom]
    simp
    omega
  rw [copiedId, if_neg hsign, hcount, List.take_length]

theorem Kept.answers (h : Kept s) (htable : s.table[idStr]? = some handle)
    (hsize : idStr.length + 1 < 2 ^ 31) :
    Answers .success .limitExceeded idStr (s.toString handle) := by
  obtain ⟨hnull, hrecord⟩ := h.record idStr handle htable
  have hcall : s.toString handle =
      textOut .success .limitExceeded (copiedId idStr) idStr := by
    funext buffer length
    rw [IdRegistry.toString, if_neg hnull, hrecord]
    rfl
  rw [hcall]
  exact answers_textOut hsize (copiedId_room hsize)

/-- **A handle stands for its string, for as long as the process runs**: it is valid, it is read
back as the string it was asked for, whatever buffer it is read into, and no other string has it. -/
theorem id_round_trip {s₀ s₁ : IdRegistry} {address : GameHandle}
    (h₀ : Reaches step always {} s₀) (hstep : s₀.step ⟨some idStr, address⟩ = some s₁)
    (h : Reaches step always s₁ s) (htext : (0 : UInt8) ∉ idStr)
    (hsize : idStr.length + 1 < 2 ^ 31) (hhandle :
    (s₀.fromString (some idStr) address).1 = handle) :
    s.isValid handle = some true ∧
      Answers .success .limitExceeded idStr (s.toString handle) ∧
      (∀ (buffer : Bytes) (length : Int32) out, length.toInt ≤ buffer.length →
        s.toString handle buffer length = some out → out.result = .success →
          cString out.buffer = idStr) ∧
      ∀ other address' s', s.step ⟨some other, address'⟩ = some s' →
        ((s.fromString (some other) address').1 = handle ↔ other = idStr) := by
  have hkept₁ : Kept s₁ := by
    have hkept₀ : Kept s₀ := h₀.invariant kept_empty fun _ _ _ hkept _ hstep ↦ hkept.step hstep
    exact hkept₀.step hstep
  have hkept : Kept s := h.invariant hkept₁ fun _ _ _ hkept _ hstep ↦ hkept.step hstep
  have htable : s.table[idStr]? = some handle := by
    refine h.invariant (I := fun s ↦ s.table[idStr]? = some handle) ?_
      fun _ _ _ htable _ hstep ↦ table_step htable hstep
    rw [table_fromString hstep, hhandle]
  obtain ⟨hnull, hrecord⟩ := hkept.record idStr handle htable
  have hanswers := hkept.answers htable hsize
  refine ⟨?_, hanswers, fun buffer length out hbuffer hcall hresult ↦ ?_,
    fun other address' s' hstep' ↦ ⟨fun heq ↦ ?_, fun heq ↦ ?_⟩⟩
  · rw [isValid, if_neg hnull, hrecord]
    rfl
  · exact hanswers.reads (by decide) htext hbuffer hcall hresult
  · have hother := table_fromString hstep'
    rw [heq] at hother
    exact (hkept.step hstep').injective (table_step htable hstep') hother
  · subst heq
    have hother := table_fromString hstep'
    rw [table_step htable hstep'] at hother
    exact (Option.some.inj hother).symm

/-- The id "ab", asked for after another one, and read back after a third. -/
theorem id_round_trip_ab : ∃ s : IdRegistry, s.isValid 8 = some true ∧
    s.toString 8 [1, 1, 1, 1] 4 = some ⟨.success, 3, [97, 98, 0, 1]⟩ := by
  obtain ⟨s₀, hreach, hnew⟩ := exists_reaches step always {}
    (fun s ↦ (s.step ⟨some [97, 98], 8⟩).any (fun s₁ ↦
      decide ((s.fromString (some [97, 98]) 8).1 = 8) && (s₁.step ⟨some [99], 9⟩).isSome) = true)
    [⟨some [97], 7⟩] (by decide +kernel) (meets_always _ _)
  obtain ⟨s₁, hstep, hboth⟩ := (Option.any_eq_true _ _).1 hnew
  obtain ⟨hhandle, hlater⟩ := (Bool.and_eq_true _ _).mp hboth
  obtain ⟨s, hs⟩ := Option.isSome_iff_exists.1 hlater
  obtain ⟨hvalid, hanswers, -, -⟩ := id_round_trip hreach hstep
    (Reaches.refl.tail trivial hs) (by decide) (by decide) (of_decide_eq_true hhandle)
  exact ⟨s, hvalid, hanswers.whole _ _ (by decide) (by decide)⟩

end IdRegistry
end EosMesh
