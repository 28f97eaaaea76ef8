import Mathlib

/-!
# Edits that are collected and applied apart

Records are put and removed by their keys.  An editor may collect the edits first, what is put in
one list and what is removed in another, and apply the one list after the other.  That loses the
order of the edits.

* `Keyed` is a store of records by their keys, by what its two operations do to a look-up.
* `inOrder` applies edits as they come, and `apart` the removals first.
* `lookup_apart_eq_iff`: at a key the two agree unless the key was put and its last edit removes it.
* `KeyedList` is a list that may have several records of a key; `count_inOrder_le` compares how many
  are left.
-/

set_option autoImplicit false

namespace EosMesh
namespace Lib

/-- A change to the records of a store. -/
inductive Edit (κ α : Type) where
  | put (record : α)
  | remove (key : κ)
  deriving DecidableEq

namespace Edit

variable {κ α : Type} {edits : List (Edit κ α)}

/-- What is put. -/
def putsOf (edits : List (Edit κ α)) : List α :=
  edits.filterMap fun
    | .put record => some record
    | .remove _ => none

/-- What is removed. -/
def removesOf (edits : List (Edit κ α)) : List κ :=
  edits.filterMap fun
    | .put _ => none
    | .remove key => some key

theorem putsOf_concat_put (record : α) :
    putsOf (edits ++ [.put record]) = putsOf edits ++ [record] := List.filterMap_append

theorem putsOf_concat_remove (key : κ) : putsOf (edits ++ [.remove key]) = putsOf edits := by
  simp [putsOf]

theorem removesOf_concat_put (record : α) :
    removesOf (edits ++ [.put record]) = removesOf edits := by simp [removesOf]

theorem removesOf_concat_remove (key : κ) :
    removesOf (edits ++ [.remove key]) = removesOf edits ++ [key] := List.filterMap_append

end Edit

/-- A store of records by their keys. -/
structure Keyed (σ κ α : Type) [DecidableEq κ] where
  key : α → κ
  lookup : σ → κ → Option α
  put : σ → α → σ
  remove : σ → κ → σ
  lookup_put : ∀ s record k,
    lookup (put s record) k = if key record = k then some record else lookup s k
  lookup_remove : ∀ s removed k,
    lookup (remove s removed) k = if removed = k then none else lookup s k

namespace Keyed

open Edit

variable {σ κ α : Type} [DecidableEq κ] (store : Keyed σ κ α)

/-- One edit. -/
def apply (s : σ) : Edit κ α → σ
  | .put record => store.put s record
  | .remove key => store.remove s key

/-- The edits, as they come. -/
def inOrder (s : σ) (edits : List (Edit κ α)) : σ := edits.foldl store.apply s

/-- The removals, and then what is put. -/
def apart (s : σ) (puts : List α) (removes : List κ) : σ :=
  puts.foldl store.put (removes.foldl store.remove s)

/-- The last record put at a key. -/
def lastPut (puts : List α) (k : κ) : Option α :=
  puts.foldl (fun last record ↦ if store.key record = k then some record else last) none

/-- The last edit of a key: a record, or its removal. -/
def lastEdit (edits : List (Edit κ α)) (k : κ) : Option (Option α) :=
  edits.foldl (fun last edit ↦
    match edit with
    | .put record => if store.key record = k then some (some record) else last
    | .remove key => if key = k then some none else last) none

/-- A key that was put, and whose last edit removes it. -/
def PutThenRemoved (edits : List (Edit κ α)) (k : κ) : Prop :=
  store.lastEdit edits k = some none ∧ (store.lastPut (putsOf edits) k).isSome = true

instance (edits : List (Edit κ α)) (k : κ) [DecidableEq α] :
    Decidable (store.PutThenRemoved edits k) := inferInstanceAs (Decidable (_ ∧ _))

variable {store} {s : σ} {edits : List (Edit κ α)} {k : κ}

theorem lastPut_concat (puts : List α) (record : α) (k : κ) :
    store.lastPut (puts ++ [record]) k =
      if store.key record = k then some record else store.lastPut puts k := by
  rw [lastPut, List.foldl_append]
  rfl

theorem lastEdit_concat_put (record : α) : store.lastEdit (edits ++ [.put record]) k =
    if store.key record = k then some (some record) else store.lastEdit edits k := by
  rw [lastEdit, List.foldl_append]
  rfl

theorem lastEdit_concat_remove (key : κ) : store.lastEdit (edits ++ [.remove key]) k =
    if key = k then some none else store.lastEdit edits k := by
  rw [lastEdit, List.foldl_append]
  rfl

/-- What the last edit of a key says of what is put and removed there. -/
theorem lastEdit_cases (store : Keyed σ κ α) (edits : List (Edit κ α)) (k : κ) :
    (store.lastEdit edits k = none ∧ store.lastPut (putsOf edits) k = none ∧
      k ∉ removesOf edits) ∨
    (∃ record, store.lastEdit edits k = some (some record) ∧
      store.lastPut (putsOf edits) k = some record) ∨
    (store.lastEdit edits k = some none ∧ k ∈ removesOf edits) := by
  induction edits using List.reverseRecOn with
  | nil => exact .inl ⟨rfl, rfl, List.not_mem_nil⟩
  | append_singleton edits edit ih =>
    cases edit with
    | put record =>
      rw [lastEdit_concat_put, putsOf_concat_put, lastPut_concat, removesOf_concat_put]
      by_cases hkey : store.key record = k
      · rw [if_pos hkey, if_pos hkey]
        exact .inr (.inl ⟨record, rfl, rfl⟩)
      · rw [if_neg hkey, if_neg hkey]
        exact ih
    | remove key =>
      rw [lastEdit_concat_remove, putsOf_concat_remove, removesOf_concat_remove, List.mem_append,
        List.mem_singleton]
      by_cases hkey : key = k
      · rw [if_pos hkey]
        exact .inr (.inr ⟨rfl, .inr hkey.symm⟩)
      · rw [if_neg hkey, or_iff_left (Ne.symm hkey)]
        exact ih

/-! ## Look-ups -/

theorem lookup_inOrder (s : σ) (edits : List (Edit κ α)) (k : κ) :
    store.lookup (store.inOrder s edits) k =
      (store.lastEdit edits k).getD (store.lookup s k) := by
  induction edits using List.reverseRecOn with
  | nil => rfl
  | append_singleton edits edit ih =>
    rw [inOrder, List.foldl_append]
    change store.lookup (store.apply (store.inOrder s edits) edit) k = _
    cases edit with
    | put record =>
      rw [apply, store.lookup_put, lastEdit_concat_put, ih]
      by_cases hkey : store.key record = k
      · rw [if_pos hkey, if_pos hkey, Option.getD_some]
      · rw [if_neg hkey, if_neg hkey]
    | remove key =>
      rw [apply, store.lookup_remove, lastEdit_concat_remove, ih]
      by_cases hkey : key = k
      · rw [if_pos hkey, if_pos hkey, Option.getD_some]
      · rw [if_neg hkey, if_neg hkey]

theorem lookup_foldl_put (s : σ) (puts : List α) (k : κ) :
    store.lookup (puts.foldl store.put s) k =
      (store.lastPut puts k).or (store.lookup s k) := by
  induction puts using List.reverseRecOn with
  | nil => rfl
  | append_singleton puts record ih =>
    rw [List.foldl_append, List.foldl_cons, List.foldl_nil, store.lookup_put, lastPut_concat, ih]
    by_cases hkey : store.key record = k
    · rw [if_pos hkey, if_pos hkey, Option.some_or]
    · rw [if_neg hkey, if_neg hkey]

theorem lookup_foldl_remove (s : σ) (removes : List κ) (k : κ) :
    store.lookup (removes.foldl store.remove s) k =
      if k ∈ removes then none else store.lookup s k := by
  induction removes generalizing s with
  | nil => rfl
  | cons key removes ih =>
    rw [List.foldl_cons, ih, store.lookup_remove]
    by_cases hmem : k ∈ removes
    · rw [if_pos hmem, if_pos (List.mem_cons_of_mem key hmem)]
    · by_cases hkey : key = k
      · rw [if_neg hmem, if_pos hkey, if_pos (hkey ▸ List.mem_cons_self)]
      · have hnot : k ∉ key :: removes :=
          fun h ↦ (List.mem_cons.1 h).elim (fun h ↦ hkey h.symm) hmem
        rw [if_neg hmem, if_neg hkey, if_neg hnot]

theorem lookup_apart (s : σ) (puts : List α) (removes : List κ) (k : κ) :
    store.lookup (store.apart s puts removes) k =
      (store.lastPut puts k).or (if k ∈ removes then none else store.lookup s k) := by
  rw [apart, lookup_foldl_put, lookup_foldl_remove]

/-- **Where the order of the edits is lost.** -/
theorem lookup_apart_eq_iff (s : σ) (edits : List (Edit κ α)) (k : κ) :
    store.lookup (store.apart s (putsOf edits) (removesOf edits)) k =
      store.lookup (store.inOrder s edits) k ↔ ¬ store.PutThenRemoved edits k := by
  rw [lookup_apart, lookup_inOrder, PutThenRemoved]
  rcases store.lastEdit_cases edits k with ⟨hlast, hput, hremoved⟩ |
    ⟨record, hlast, hput⟩ | ⟨hlast, hremoved⟩
  · rw [hlast, hput, if_neg hremoved]
    exact ⟨fun _ h ↦ (nomatch h.1), fun _ ↦ rfl⟩
  · rw [hlast, hput]
    exact ⟨fun _ h ↦ (nomatch h.1), fun _ ↦ rfl⟩
  · rw [hlast, if_pos hremoved, Option.or_none, Option.getD_some]
    cases hput : store.lastPut (putsOf edits) k with
    | none => exact ⟨fun _ h ↦ (nomatch h.2), fun _ ↦ rfl⟩
    | some record => exact ⟨fun h ↦ (nomatch h), fun h ↦ (h ⟨rfl, rfl⟩).elim⟩

end Keyed

/-! ## How many are left -/

/-- A list of records, where a key may have several: putting one leaves one at least, and removing a
key leaves none. -/
structure KeyedList (κ α : Type) [DecidableEq κ] extends Keyed (List α) κ α where
  count_put : ∀ s record k, ((put s record).map key).count k =
    if key record = k then max ((s.map key).count k) 1 else (s.map key).count k
  count_remove : ∀ s removed k, ((remove s removed).map key).count k =
    if removed = k then 0 else (s.map key).count k

namespace KeyedList

open Edit

variable {κ α : Type} [DecidableEq κ] {store : KeyedList κ α} {edits : List (Edit κ α)}

theorem count_inOrder (s : List α) (edits : List (Edit κ α)) (k : κ) :
    ((store.inOrder s edits).map store.key).count k =
      match store.lastEdit edits k with
      | none => (s.map store.key).count k
      | some none => 0
      | some (some _) => if k ∈ removesOf edits then 1 else max ((s.map store.key).count k) 1 := by
  induction edits using List.reverseRecOn with
  | nil => rfl
  | append_singleton edits edit ih =>
    rw [Keyed.inOrder, List.foldl_append]
    change ((store.apply (store.inOrder s edits) edit).map store.key).count k = _
    cases edit with
    | put record =>
      rw [Keyed.apply, store.count_put, Keyed.lastEdit_concat_put, removesOf_concat_put, ih]
      by_cases hkey : store.key record = k
      · rw [if_pos hkey, if_pos hkey]
        rcases store.lastEdit_cases edits k with ⟨hlast, -, hremoved⟩ |
          ⟨record, hlast, -⟩ | ⟨hlast, hremoved⟩ <;> rw [hlast]
        · simp [hremoved]
        · dsimp only
          split <;> simp
        · simp [hremoved]
      · rw [if_neg hkey, if_neg hkey]
    | remove key =>
      rw [Keyed.apply, store.count_remove, Keyed.lastEdit_concat_remove,
        removesOf_concat_remove, ih]
      by_cases hkey : key = k
      · rw [if_pos hkey, if_pos hkey]
      · have hsame : k ∈ removesOf edits ++ [key] ↔ k ∈ removesOf edits := by
          simp [Ne.symm hkey]
        simp only [if_neg hkey, hsame]

theorem count_foldl_put (s puts : List α) (k : κ) :
    ((puts.foldl store.put s).map store.key).count k =
      if (store.lastPut puts k).isSome then max ((s.map store.key).count k) 1
      else (s.map store.key).count k := by
  induction puts using List.reverseRecOn with
  | nil => rfl
  | append_singleton puts record ih =>
    rw [List.foldl_append, List.foldl_cons, List.foldl_nil, store.count_put,
      Keyed.lastPut_concat, ih]
    by_cases hkey : store.key record = k
    · rw [if_pos hkey, if_pos hkey]
      split <;> simp
    · rw [if_neg hkey, if_neg hkey]

theorem count_foldl_remove (s : List α) (removes : List κ) (k : κ) :
    ((removes.foldl store.remove s).map store.key).count k =
      if k ∈ removes then 0 else (s.map store.key).count k := by
  induction removes generalizing s with
  | nil => rfl
  | cons key removes ih =>
    rw [List.foldl_cons, ih, store.count_remove]
    by_cases hmem : k ∈ removes
    · rw [if_pos hmem, if_pos (List.mem_cons_of_mem key hmem)]
    · by_cases hkey : key = k
      · rw [if_neg hmem, if_pos hkey, if_pos (hkey ▸ List.mem_cons_self)]
      · have hnot : k ∉ key :: removes :=
          fun h ↦ (List.mem_cons.1 h).elim (fun h ↦ hkey h.symm) hmem
        rw [if_neg hmem, if_neg hkey, if_neg hnot]

/-- Apart there are as many records of a key left as in order, or more; more only at a key that was
put and then removed. -/
theorem count_inOrder_le (s : List α) (edits : List (Edit κ α)) (k : κ) :
    ((store.inOrder s edits).map store.key).count k ≤
        ((store.apart s (putsOf edits) (removesOf edits)).map store.key).count k ∧
      (¬ store.PutThenRemoved edits k → ((store.inOrder s edits).map store.key).count k =
        ((store.apart s (putsOf edits) (removesOf edits)).map store.key).count k) := by
  rw [count_inOrder, Keyed.apart, count_foldl_put, count_foldl_remove, Keyed.PutThenRemoved]
  rcases store.lastEdit_cases edits k with ⟨hlast, hput, hremoved⟩ |
    ⟨record, hlast, hput⟩ | ⟨hlast, hremoved⟩
  · simp [hlast, hput, hremoved]
  · rw [hlast, hput]
    by_cases hremoved : k ∈ removesOf edits <;> simp [hremoved]
  · rw [hlast]
    refine ⟨Nat.zero_le _, fun hnot ↦ ?_⟩
    rw [if_neg fun hput ↦ hnot ⟨rfl, hput⟩]
    exact (if_pos hremoved).symm

theorem length_inOrder_le (s : List α) (edits : List (Edit κ α)) :
    (store.inOrder s edits).length ≤
      (store.apart s (putsOf edits) (removesOf edits)).length := by
  have hsub : ((store.inOrder s edits).map store.key).Subperm
      ((store.apart s (putsOf edits) (removesOf edits)).map store.key) :=
    List.subperm_ext_iff.2 fun k _ ↦ (count_inOrder_le s edits k).1
  simpa using hsub.length_le

theorem length_inOrder_eq (s : List α) (h : ∀ k, ¬ store.PutThenRemoved edits k) :
    (store.inOrder s edits).length =
      (store.apart s (putsOf edits) (removesOf edits)).length := by
  have hperm : ((store.inOrder s edits).map store.key).Perm
      ((store.apart s (putsOf edits) (removesOf edits)).map store.key) :=
    List.perm_iff_count.2 fun k ↦ (count_inOrder_le s edits k).2 (h k)
  simpa using hperm.length_eq

end KeyedList

end Lib
end EosMesh
