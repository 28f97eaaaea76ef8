import Mathlib

/-!
# A log in segments, of which only the newest are kept

Entries go to the current segment until it is full.  It is closed then, a new one begins with a
header that says what was lost, and of the closed ones only the newest stay.

* `contents_roll`: closing a segment loses the oldest bytes of the log, and no others.
* `Bounded.add` and `contents_add`: an entry that fits in beside a header keeps every segment within
  its cap, and the log a suffix of everything that was ever added.
-/

set_option autoImplicit false

namespace EosMesh
namespace Lib

/-- The segments that are closed, newest first, and the current one. -/
structure RollingLog (α : Type) where
  closed : List (List α) := []
  current : List α := []

namespace RollingLog

variable {α : Type} (log : RollingLog α) (cap keep : Nat) (header entry : List α)

/-- What the log holds, from the oldest on. -/
def contents : List α := log.closed.reverse.flatten ++ log.current

/-- More goes into the file that is open. -/
def append : RollingLog α := { log with current := log.current ++ entry }

/-- What is lost when the current segment is closed. -/
def dropped : List (List α) := (log.current :: log.closed).drop keep

/-- The current segment is closed, and the next begins. -/
def roll : RollingLog α :=
  { closed := (log.current :: log.closed).take keep, current := header }

/-- An entry goes to the current segment, or to the next one, after the header. -/
def add : RollingLog α :=
  if log.current.length + entry.length ≤ cap then log.append entry
  else (log.roll keep header).append entry

/-- What is put in the log along with an entry. -/
def added : List α :=
  if log.current.length + entry.length ≤ cap then entry else header ++ entry

/-- No segment exceeds the cap, and not too many are closed. -/
structure Bounded : Prop where
  closed : ∀ segment ∈ log.closed, segment.length ≤ cap
  current : log.current.length ≤ cap
  count : log.closed.length ≤ keep

variable {log cap keep header entry}

theorem contents_append : (log.append entry).contents = log.contents ++ entry :=
  (List.append_assoc _ _ _).symm

/-- **What a roll loses is the oldest part of the log.** -/
theorem contents_roll :
    (log.dropped keep).reverse.flatten ++ (log.roll keep header).contents =
    log.contents ++ header := by
  have hsplit : ((log.current :: log.closed).drop keep).reverse.flatten ++
      ((log.current :: log.closed).take keep).reverse.flatten = log.contents := by
    rw [← List.flatten_append, ← List.reverse_append, List.take_append_drop, List.reverse_cons,
      List.flatten_append, List.flatten_singleton]
    rfl
  rw [← hsplit, List.append_assoc]
  rfl

theorem contents_roll_suffix {whole : List α} (h : log.contents <:+ whole) :
    (log.roll keep header).contents <:+ whole ++ header := by
  obtain ⟨lost, rfl⟩ := h
  rw [List.append_assoc, ← @contents_roll _ _ keep header, ← List.append_assoc]
  exact List.suffix_append _ _

/-- **The log stays a suffix** of everything added. -/
theorem contents_add {whole : List α} (h : log.contents <:+ whole) :
    (log.add cap keep header entry).contents <:+ whole ++ log.added cap header entry := by
  rw [add, added]
  split
  · rw [contents_append]
    obtain ⟨lost, rfl⟩ := h
    rw [List.append_assoc]
    exact List.suffix_append _ _
  · obtain ⟨lost, hlost⟩ := @contents_roll_suffix _ _ keep header _ h
    rw [contents_append, ← List.append_assoc, ← hlost, List.append_assoc]
    exact List.suffix_append _ _

/-- No more than a segment is lost at a time. -/
theorem Bounded.dropped_le (h : log.Bounded cap keep) :
    (log.dropped keep).flatten.length ≤ cap := by
  have hone : (log.dropped keep).length ≤ 1 := by
    have hcount := h.count
    rw [dropped, List.length_drop, List.length_cons]
    omega
  have hsegment (segment : List α) (hin : segment ∈ log.dropped keep) : segment.length ≤ cap := by
    rcases List.mem_cons.1 (List.mem_of_mem_drop hin) with rfl | hclosed
    · exact h.current
    · exact h.closed segment hclosed
  generalize log.dropped keep = lost at hone hsegment ⊢
  rcases lost with _ | ⟨segment, _ | ⟨second, rest⟩⟩
  · exact Nat.zero_le _
  · rw [List.flatten_singleton]
    exact hsegment segment List.mem_cons_self
  · simp at hone

theorem Bounded.append (h : log.Bounded cap keep)
    (hfits : log.current.length + entry.length ≤ cap) : (log.append entry).Bounded cap keep :=
  ⟨h.closed, List.length_append.trans_le hfits, h.count⟩

theorem Bounded.roll (h : log.Bounded cap keep) (hheader : header.length ≤ cap) :
    (log.roll keep header).Bounded cap keep := by
  refine ⟨fun segment hsegment ↦ ?_, hheader, List.length_take_le _ _⟩
  rcases List.mem_cons.1 (List.mem_of_mem_take hsegment) with rfl | hclosed
  · exact h.current
  · exact h.closed segment hclosed

/-- **No segment outgrows the cap** when every entry fits in after a header. -/
theorem Bounded.add (h : log.Bounded cap keep) (hfits : header.length + entry.length ≤ cap) :
    (log.add cap keep header entry).Bounded cap keep := by
  rw [RollingLog.add]
  split
  · rename_i hroom
    exact h.append hroom
  · exact (h.roll (by omega)).append hfits

end RollingLog

end Lib
end EosMesh
