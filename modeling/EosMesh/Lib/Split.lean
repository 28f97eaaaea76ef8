import Mathlib

/-!
# The last part of a separated list

A path is split at a separator, and some of its parts count for nothing: `lastPart` is the last one
that counts.

* `not_mem_of_mem_splitOn`: no part holds the separator.
* `lastPart_eq_some_iff` says which part is the last one that counts, and `intercalate_around` how
  the parts around it come together.
-/

set_option autoImplicit false

namespace EosMesh
namespace Lib

variable {α : Type} {sep : α}

/-- Parts before one, the one, and parts after it, put together. -/
theorem intercalate_around (before : List (List α)) (part : List α) (after : List (List α)) :
    [sep].intercalate (before ++ part :: after) =
      before.flatMap (· ++ [sep]) ++ (part ++ after.flatMap (sep :: ·)) := by
  induction before with
  | nil =>
    rw [List.nil_append, List.flatMap_nil, List.nil_append]
    induction after generalizing part with
    | nil => rw [List.intercalate_singleton, List.flatMap_nil, List.append_nil]
    | cons next after ih =>
      rw [List.intercalate_cons_cons, ih, List.flatMap_cons]
      simp
  | cons first before ih =>
    rw [List.cons_append, List.intercalate_cons_of_ne_nil (by simp), ih, List.flatMap_cons]
    simp

variable [DecidableEq α]

theorem not_mem_of_mem_splitOn {path part : List α} (h : part ∈ path.splitOn sep) :
    sep ∉ part := by
  induction path generalizing part with
  | nil =>
    rw [List.splitOn_nil, List.mem_singleton] at h
    rw [h]
    exact List.not_mem_nil
  | cons a path ih =>
    rw [List.splitOn_cons_eq_if_modifyHead] at h
    split at h
    · rcases List.mem_cons.1 h with rfl | h
      · exact List.not_mem_nil
      · exact ih h
    · rename_i hne
      obtain ⟨first, parts, hsplit⟩ := List.exists_cons_of_ne_nil (List.splitOn_ne_nil sep path)
      rw [hsplit, List.modifyHead_cons] at h
      rw [hsplit] at ih
      rcases List.mem_cons.1 h with rfl | h
      · rw [List.mem_cons, not_or]
        exact ⟨fun heq ↦ hne (beq_iff_eq.2 heq.symm), ih List.mem_cons_self⟩
      · exact ih (List.mem_cons_of_mem _ h)

variable (sep) (blank : List α → Bool)

/-- The last part that counts. -/
def lastPart (path : List α) : Option (List α) :=
  ((path.splitOn sep).filter fun part ↦ !blank part).getLast?

variable {sep blank}

/-- A part holds nothing but what the path holds. -/
theorem subset_of_mem_splitOn {path part : List α} (h : part ∈ path.splitOn sep) :
    part ⊆ path := by
  obtain ⟨before, after, hsplit⟩ := List.append_of_mem h
  have hpath : [sep].intercalate (path.splitOn sep) = path := List.intercalate_splitOn sep
  rw [← hpath, hsplit, intercalate_around]
  intro a ha
  exact List.mem_append_right _ (List.mem_append_left _ ha)

theorem mem_splitOn_of_lastPart {path part : List α} (h : lastPart sep blank path = some part) :
    part ∈ path.splitOn sep :=
  (List.mem_filter.1 (List.mem_of_getLast? h)).1

theorem lastPart_eq_some_iff {path part : List α} :
    lastPart sep blank path = some part ↔
      blank part = false ∧ ∃ before after, path.splitOn sep = before ++ part :: after ∧
        ∀ other ∈ after, blank other = true := by
  rw [lastPart, List.getLast?_filter, List.find?_eq_some_iff_append]
  constructor
  · rintro ⟨hpart, after, before, hsplit, hafter⟩
    refine ⟨by simpa using hpart, before.reverse, after.reverse, ?_, fun other hother ↦ ?_⟩
    · rw [← List.reverse_reverse (path.splitOn sep), hsplit]
      simp
    · simpa using hafter other (List.mem_reverse.1 hother)
  · rintro ⟨hpart, before, after, hsplit, hafter⟩
    refine ⟨by simpa using hpart, after.reverse, before.reverse, ?_, fun other hother ↦ ?_⟩
    · rw [hsplit]
      simp
    · simpa using hafter other (List.mem_reverse.1 hother)

end Lib
end EosMesh
