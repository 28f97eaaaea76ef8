import Mathlib

/-!
# The least of a list

A loop that keeps the smaller of what it holds and what comes next ends with the least element, and
which one that is depends on nothing but the elements.

* `IsLeastOf.keep`, `IsLeastOf.take`: one round of such a loop.
* `IsLeastOf.eq_of_same`: two lists with the same elements have the same least one.
-/

set_option autoImplicit false

namespace EosMesh
namespace Lib

variable {α : Type} [Ord α]

/-- `a` is in the list, and nothing in it comes before `a`. -/
def IsLeastOf (l : List α) (a : α) : Prop := a ∈ l ∧ ∀ b ∈ l, compare b a ≠ .lt

theorem isLeastOf_singleton [Std.ReflOrd α] (a : α) : IsLeastOf [a] a := by
  refine ⟨List.mem_cons_self, fun b hb ↦ ?_⟩
  rw [List.mem_singleton.1 hb, Std.ReflOrd.compare_self]
  exact nofun

variable {l l' : List α} {a b : α}

/-- The next element does not come before the one that is held. -/
theorem IsLeastOf.keep (h : IsLeastOf l a) (hnext : compare b a ≠ .lt) :
    IsLeastOf (l ++ [b]) a := by
  refine ⟨List.mem_append_left _ h.1, fun c hc ↦ ?_⟩
  rcases List.mem_append.1 hc with hc | hc
  · exact h.2 c hc
  · rwa [List.mem_singleton.1 hc]

/-- The next element comes before the one that is held. -/
theorem IsLeastOf.take [Std.TransOrd α] (h : IsLeastOf l a) (hnext : compare b a = .lt) :
    IsLeastOf (l ++ [b]) b := by
  refine ⟨List.mem_append_right _ List.mem_cons_self, fun c hc ↦ ?_⟩
  rcases List.mem_append.1 hc with hc | hc
  · exact fun hlt ↦ h.2 c hc (Std.TransCmp.lt_trans hlt hnext)
  · rw [List.mem_singleton.1 hc, Std.ReflOrd.compare_self]
    exact nofun

theorem IsLeastOf.eq_of_same [Std.OrientedOrd α] [Std.LawfulEqOrd α] (h : IsLeastOf l a)
    (h' : IsLeastOf l' b) (hsame : ∀ c, c ∈ l ↔ c ∈ l') : a = b := by
  have hab := h'.2 a ((hsame a).1 h.1)
  have hba := h.2 b ((hsame b).2 h'.1)
  rw [Std.OrientedOrd.eq_swap] at hba
  refine Std.LawfulEqOrd.eq_of_compare ?_
  cases hcompare : compare a b with
  | lt => exact absurd hcompare hab
  | eq => rfl
  | gt =>
    rw [hcompare] at hba
    exact absurd rfl hba

end Lib
end EosMesh
