import EosMesh.Interfaces.Mesh
import EosMesh.Lib.Run

/-!
# Handles over all the stores

What a game releases or passes back is a handle of `common/handle_store.h`.  Every store keeps its
own objects, and one counter of the process issues the handles of all of them.

* `Handles` is the counter and the stores, with what happened to them in `log`.
* `Alive` says of a log that an object was taken in under a handle, and that the store has neither
  released it nor been cleared since.
* `handles_told_apart` is the result: a store answers a handle with what is alive under it and
  nothing else, and no handle is issued twice, by whichever store.
-/

set_option autoImplicit false

namespace EosMesh

open Lib

variable {κ α : Type}

/-- What happens to a store. -/
inductive HandleEvent (κ α : Type)
  | issued (store : κ) (handle : GameHandle) (object : α)
  | released (store : κ) (handle : GameHandle)
  | cleared (store : κ)
  deriving DecidableEq, Repr

/-- The handle an event issues. -/
def HandleEvent.issue : HandleEvent κ α → Option GameHandle
  | .issued _ handle _ => some handle
  | .released .. | .cleared _ => none

/-- The stores of the process, under whatever tells them apart. -/
structure Handles (κ α : Type) where
  /-- What `next_handle_id` gives next. -/
  counter : UInt64 := 1
  stores : κ → HandleStore α := fun _ ↦ {}
  /-- What happened to them, the oldest first. -/
  log : List (HandleEvent κ α) := []

namespace Handles

variable [DecidableEq κ] (s : Handles κ α)

/-- `handle_store::add`, with the handle the game gets. -/
def add (store : κ) (object : α) : GameHandle × Handles κ α :=
  let handle := s.counter.toNat
  (handle,
    { counter := s.counter + 1
      stores := Function.update s.stores store ((s.stores store).put handle object)
      log := s.log ++ [.issued store handle object] })

/-- What a handle stands for in a store. -/
def find (store : κ) (handle : GameHandle) : Option α := (s.stores store).find handle

/-- A handle stands for nothing any more. -/
def release (store : κ) (handle : GameHandle) : Handles κ α :=
  { s with
    stores := Function.update s.stores store ((s.stores store).release handle)
    log := s.log ++ [.released store handle] }

/-- Every handle of a store stands for nothing any more. -/
def clear (store : κ) : Handles κ α :=
  { s with
    stores := Function.update s.stores store {}
    log := s.log ++ [.cleared store] }

/-- What may happen to the stores. -/
inductive Input (κ α : Type)
  | add (store : κ) (object : α)
  /-- With any handle: an old one, another store's or none that was ever issued. -/
  | release (store : κ) (handle : GameHandle)
  | clear (store : κ)
  deriving DecidableEq, Repr

/-- One thing that happens. -/
def step : Input κ α → Option (Handles κ α)
  | .add store object => some (s.add store object).2
  | .release store handle => some (s.release store handle)
  | .clear store => some (s.clear store)

end Handles

/-- The handles that were issued, the oldest first. -/
def issues (log : List (HandleEvent κ α)) : List GameHandle := log.filterMap HandleEvent.issue

/-- An object was taken in under a handle, and is still there. -/
def Alive (log : List (HandleEvent κ α)) (store : κ) (handle : GameHandle) (object : α) : Prop :=
  ∃ before after, log = before ++ .issued store handle object :: after ∧
    .released store handle ∉ after ∧ .cleared store ∉ after

variable {log : List (HandleEvent κ α)} {store : κ} {handle : GameHandle} {object : α}

theorem issues_concat (log : List (HandleEvent κ α)) (e : HandleEvent κ α) :
    issues (log ++ [e]) = issues log ++ e.issue.toList := by
  rw [issues, List.filterMap_append, issues]
  cases e <;> rfl

theorem Alive.mem_issues (h : Alive log store handle object) : handle ∈ issues log := by
  obtain ⟨before, after, rfl, -, -⟩ := h
  rw [issues, List.mem_filterMap]
  exact ⟨.issued store handle object, by simp, rfl⟩

/-- One more event brings an object to life, or leaves it alive. -/
theorem alive_concat {e : HandleEvent κ α} : Alive (log ++ [e]) store handle object ↔
    e = .issued store handle object ∨
      Alive log store handle object ∧ e ≠ .released store handle ∧ e ≠ .cleared store := by
  constructor
  · rintro ⟨before, after, hlog, hreleased, hcleared⟩
    rcases List.eq_nil_or_concat after with rfl | ⟨after, last, rfl⟩
    · exact .inl (List.singleton_inj.1 (List.append_inj' hlog rfl).2)
    · right
      have hsplit : log ++ [e] = (before ++ .issued store handle object :: after) ++ [last] := by
        simpa using hlog
      obtain ⟨hfirst, hlast⟩ := List.append_inj' hsplit rfl
      obtain rfl : e = last := by simpa using hlast
      rw [List.concat_eq_append, List.mem_append, not_or, List.mem_singleton] at hreleased hcleared
      exact ⟨⟨before, after, hfirst, hreleased.1, hcleared.1⟩, Ne.symm hreleased.2,
        Ne.symm hcleared.2⟩
  · rintro (rfl | ⟨⟨before, after, rfl, hreleased, hcleared⟩, hnot, hnot'⟩)
    · exact ⟨log, [], rfl, by simp, by simp⟩
    · refine ⟨before, after ++ [e], by simp, ?_, ?_⟩
      · simpa using ⟨hreleased, Ne.symm hnot⟩
      · simpa using ⟨hcleared, Ne.symm hnot'⟩

namespace Handles

variable {s s' : Handles κ α}

/-- How far the counter is, what it issued, and what the stores answer; the last two until it
wraps. -/
structure Kept (s : Handles κ α) : Prop where
  counter : s.counter = UInt64.ofNat ((issues s.log).length + 1)
  issued : (issues s.log).length < 2 ^ 64 →
    issues s.log = (List.range (issues s.log).length).map Nat.succ
  live : (issues s.log).length < 2 ^ 64 →
    ∀ store handle object, s.find store handle = some object ↔ Alive s.log store handle object

theorem kept_empty : Kept ({} : Handles κ α) where
  counter := rfl
  issued _ := rfl
  live _ store handle object := by
    rw [find, HandleStore.find_empty]
    constructor
    · intro h
      cases h
    · intro h
      cases h.mem_issues

variable [DecidableEq κ]

/-! ## What the operations change -/

theorem find_add (s : Handles κ α) (store other : κ) (object : α) (handle : GameHandle) :
    (s.add store object).2.find other handle =
      if other = store ∧ s.counter.toNat = handle then some object else s.find other handle := by
  simp only [add, find]
  by_cases hstore : other = store
  · subst hstore
    rw [Function.update_self, HandleStore.find_put]
    simp
  · rw [Function.update_of_ne hstore, if_neg fun heq ↦ hstore heq.1]

theorem find_release (s : Handles κ α) (store other : κ) (released handle : GameHandle) :
    (s.release store released).find other handle =
      if other = store ∧ released = handle then none else s.find other handle := by
  simp only [release, find]
  by_cases hstore : other = store
  · subst hstore
    rw [Function.update_self, HandleStore.find_release]
    simp
  · rw [Function.update_of_ne hstore, if_neg fun heq ↦ hstore heq.1]

theorem find_clear (s : Handles κ α) (store other : κ) (handle : GameHandle) :
    (s.clear store).find other handle = if other = store then none else s.find other handle := by
  simp only [clear, find]
  by_cases hstore : other = store
  · subst hstore
    rw [Function.update_self, HandleStore.find_empty, if_pos rfl]
  · rw [Function.update_of_ne hstore, if_neg hstore]

/-- The handle it issues is one it has not issued before. -/
theorem Kept.add (h : Kept s) (store : κ) (object : α) : Kept (s.add store object).2 := by
  have hissues : issues (s.add store object).2.log = issues s.log ++ [s.counter.toNat] :=
    issues_concat _ _
  have hlength : (issues (s.add store object).2.log).length = (issues s.log).length + 1 := by
    rw [hissues, List.length_append, List.length_singleton]
  have hhandle (hfew : (issues s.log).length + 1 < 2 ^ 64) :
      s.counter.toNat = (issues s.log).length + 1 := by
    rw [h.counter]
    exact UInt64.toNat_ofNat_of_lt' hfew
  refine ⟨?_, fun hfew ↦ ?_, fun hfew other handle found ↦ ?_⟩
  · rw [hlength, UInt64.ofNat_add _ 1, ← h.counter]
    rfl
  · rw [hlength] at hfew ⊢
    rw [hissues, h.issued (Nat.lt_of_succ_lt hfew), hhandle hfew, List.range_succ, List.map_append]
    simp
  · rw [hlength] at hfew
    have hold := h.live (Nat.lt_of_succ_lt hfew) other handle found
    have hnew : s.counter.toNat ∉ issues s.log := by
      rw [hhandle hfew, h.issued (Nat.lt_of_succ_lt hfew)]
      simp
    have halive : Alive (s.add store object).2.log other handle found ↔ _ := alive_concat
    rw [halive, find_add, ← hold]
    by_cases hthis : other = store ∧ s.counter.toNat = handle
    · obtain ⟨rfl, rfl⟩ := hthis
      have hdead : ¬ s.find other s.counter.toNat = some found := fun hfound ↦
        hnew (hold.1 hfound).mem_issues
      simp [hdead]
    · have hevent : HandleEvent.issued store s.counter.toNat object ≠
          .issued other handle found := by
        intro heq
        cases heq
        exact hthis ⟨rfl, rfl⟩
      rw [if_neg hthis]
      simp [hevent]

omit [DecidableEq κ] in
/-- An event that issues nothing, by what it changes in the stores. -/
theorem Kept.silent (h : Kept s) {e : HandleEvent κ α} (hcounter : s'.counter = s.counter)
    (hlog : s'.log = s.log ++ [e]) (he : e.issue = none)
    (hlive : ∀ store handle object, s'.find store handle = some object ↔
      e = .issued store handle object ∨ s.find store handle = some object ∧
        e ≠ .released store handle ∧ e ≠ .cleared store) : Kept s' := by
  have hissues : issues s'.log = issues s.log := by
    rw [hlog, issues_concat, he, Option.toList_none, List.append_nil]
  refine ⟨by rw [hissues, hcounter, h.counter], by rw [hissues]; exact h.issued,
    fun hfew store handle object ↦ ?_⟩
  rw [hissues] at hfew
  rw [hlog, alive_concat, ← h.live hfew store handle object]
  exact hlive store handle object

theorem Kept.release (h : Kept s) (store : κ) (handle : GameHandle) :
    Kept (s.release store handle) := by
  refine h.silent rfl rfl rfl fun other handle' found ↦ ?_
  rw [find_release]
  by_cases hthis : other = store ∧ handle = handle'
  · simp [hthis]
  · have hevent : HandleEvent.released store handle ≠
      (.released other handle' : HandleEvent κ α) := by
      intro heq
      cases heq
      exact hthis ⟨rfl, rfl⟩
    rw [if_neg hthis]
    simp [hevent]

theorem Kept.clear (h : Kept s) (store : κ) : Kept (s.clear store) := by
  refine h.silent rfl rfl rfl fun other handle found ↦ ?_
  rw [find_clear]
  by_cases hstore : other = store
  · simp [hstore]
  · rw [if_neg hstore]
    simp [Ne.symm hstore]

theorem Kept.step (h : Kept s) {i : Input κ α} (hstep : s.step i = some s') : Kept s' := by
  cases i with
  | add store object =>
    cases hstep
    exact h.add store object
  | release store handle =>
    cases hstep
    exact h.release store handle
  | clear store =>
    cases hstep
    exact h.clear store

/-- **No handle is mistaken for another**, before the counter wraps: a store answers a handle
with the object it took in under it, until that is released; and a handle is issued once, and
never null. -/
theorem handles_told_apart (h : Reaches step always ({} : Handles κ α) s)
    (hfew : (issues s.log).length < 2 ^ 64) :
    (∀ store handle object, s.find store handle = some object ↔ Alive s.log store handle object) ∧
      (issues s.log).Nodup ∧ 0 ∉ issues s.log := by
  have hkept : Kept s := h.invariant kept_empty fun _ _ _ hkept _ hstep ↦ hkept.step hstep
  refine ⟨hkept.live hfew, ?_, ?_⟩
  · rw [hkept.issued hfew]
    exact List.nodup_range.map Nat.succ_injective
  · rw [hkept.issued hfew]
    simp

/-- Two stores: a handle is released twice, and once by the store that did not issue it. -/
def twoStores : List (Input Bool Nat) :=
  [.add true 7, .add false 8, .release true 2, .release true 1, .release true 1, .add true 9]

/-- The other store keeps its object, and the new handle is none of the old ones. -/
theorem handles_told_apart_released : ∃ s : Handles Bool Nat,
    issues s.log = [1, 2, 3] ∧ (issues s.log).Nodup ∧ Alive s.log false 2 8 ∧
      Alive s.log true 3 9 ∧ ¬ Alive s.log true 1 7 := by
  obtain ⟨s, hreach, hissues, hkept, hnew, hgone⟩ := exists_reaches step always
    ({} : Handles Bool Nat)
    (fun s ↦ issues s.log = [1, 2, 3] ∧ s.find false 2 = some 8 ∧ s.find true 3 = some 9 ∧
      s.find true 1 = none)
    twoStores (by decide +kernel) (meets_always _ _)
  obtain ⟨hlive, hnodup, -⟩ := handles_told_apart hreach (by rw [hissues]; decide)
  refine ⟨s, hissues, hnodup, (hlive _ _ _).1 hkept, (hlive _ _ _).1 hnew, fun halive ↦ ?_⟩
  have hfound := (hlive _ _ _).2 halive
  rw [hgone] at hfound
  cases hfound

end Handles
end EosMesh
