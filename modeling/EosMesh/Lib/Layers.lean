import Mathlib

/-!
# Settings in layers

A setting is looked up in several layers, highest first.  A layer holds nothing for it, or a value
that is refused for a reason, or a value.

* `highest` is the rule of precedence: the value of the first layer that holds one.
* `firstPresent` looks at one layer only, the first that holds anything at all.
* `firstPresent_elim_eq_iff` is where the two part: a refused value in front of a value that
  matters.
-/

set_option autoImplicit false

namespace EosMesh
namespace Lib

/-- What one layer holds for a setting. -/
abbrev Layer (ε α : Type) := Option (Except ε α)

variable {ε α : Type}

/-- The value a layer holds, if it holds one that was not refused. -/
def Layer.held : Layer ε α → Option α
  | some (.ok value) => some value
  | _ => none

/-- The layer holds something, and it was refused. -/
def Layer.Refused (layer : Layer ε α) : Prop := ∃ reason, layer = some (.error reason)

/-- The value of the highest layer that holds one. -/
def highest (layers : List (Layer ε α)) : Option α := layers.findSome? Layer.held

/-- The value of the first layer that holds anything. -/
def firstPresent : List (Layer ε α) → Option α
  | [] => none
  | none :: lower => firstPresent lower
  | layer :: _ => layer.held

/-- A refused value stands in front of a value, so that whoever looks at the first layer that holds
anything misses the value below. -/
def Hidden : List (Layer ε α) → Prop
  | [] => False
  | none :: lower => Hidden lower
  | layer :: lower => layer.Refused ∧ (highest lower).isSome

@[simp] theorem highest_nil : highest ([] : List (Layer ε α)) = none := rfl

theorem highest_cons (layer : Layer ε α) (lower : List (Layer ε α)) :
    highest (layer :: lower) = layer.held.or (highest lower) := by
  rw [highest, List.findSome?_cons]
  cases layer.held <;> rfl

@[simp] theorem highest_none (lower : List (Layer ε α)) :
    highest ((none : Layer ε α) :: lower) = highest lower := by
  rw [highest_cons]
  rfl

@[simp] theorem highest_ok (value : α) (lower : List (Layer ε α)) :
    highest (some (.ok value) :: lower) = some value := by
  rw [highest_cons]
  rfl

@[simp] theorem highest_error (reason : ε) (lower : List (Layer ε α)) :
    highest (some (.error reason) :: lower) = highest lower := by
  rw [highest_cons]
  rfl

theorem firstPresent_of_not_hidden {layers : List (Layer ε α)} (h : ¬ Hidden layers) :
    firstPresent layers = highest layers := by
  induction layers with
  | nil => rfl
  | cons layer lower ih =>
    rcases layer with _ | reason | value
    · rw [highest_none]
      exact ih h
    · rw [highest_error]
      have hnone : (highest lower).isSome = false := by
        rw [← Bool.not_eq_true]
        exact fun hsome ↦ h ⟨⟨reason, rfl⟩, hsome⟩
      rw [Option.isSome_eq_false_iff, Option.isNone_iff_eq_none] at hnone
      rw [hnone]
      rfl
    · rw [highest_ok]
      rfl

theorem firstPresent_of_hidden {layers : List (Layer ε α)} (h : Hidden layers) :
    firstPresent layers = none ∧ (highest layers).isSome := by
  induction layers with
  | nil => exact h.elim
  | cons layer lower ih =>
    rcases layer with _ | reason | value
    · rw [highest_none]
      exact ih h
    · rw [highest_error]
      exact ⟨rfl, h.2⟩
    · obtain ⟨⟨reason, hrefused⟩, -⟩ := h
      cases hrefused

/-- What is made of the value found, or a default where none is: the two rules give the same
result unless what is hidden would have made a difference. -/
theorem firstPresent_elim_eq_iff {β : Type} (layers : List (Layer ε α)) (default : β) (f : α → β) :
    (firstPresent layers).elim default f = (highest layers).elim default f ↔
      ¬ (Hidden layers ∧ ∃ value, highest layers = some value ∧ f value ≠ default) := by
  by_cases h : Hidden layers
  · obtain ⟨hfirst, hsome⟩ := firstPresent_of_hidden h
    obtain ⟨value, hvalue⟩ := Option.isSome_iff_exists.1 hsome
    rw [hfirst, hvalue]
    constructor
    · rintro heq ⟨-, _, hv, hne⟩
      cases hv
      exact hne heq.symm
    · intro hno
      by_contra hne
      exact hno ⟨h, value, rfl, fun heq ↦ hne heq.symm⟩
  · rw [firstPresent_of_not_hidden h]
    exact ⟨fun _ hh ↦ h hh.1, fun _ ↦ rfl⟩

end Lib
end EosMesh
