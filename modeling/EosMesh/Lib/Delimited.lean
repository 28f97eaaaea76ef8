import Mathlib

/-!
# Encodings that mark their own end

An encoding is self-delimiting when what follows it cannot be taken for a part of it.  Such
encodings can be written one after the other without anything between them.

* `SelfDelimiting.of_width` and `SelfDelimiting.of_header` are the two ways to get one: a fixed
  width, or a header that tells the length of what it precedes.
* `SelfDelimiting.pair` puts two of them together, and `SelfDelimiting.flatMap_injective` any
  number.
-/

set_option autoImplicit false

namespace EosMesh
namespace Lib

variable {α β σ : Type}

/-- Two encodings with something behind them agree only when both parts do. -/
def SelfDelimiting (enc : α → List σ) : Prop :=
  ∀ ⦃a b : α⦄ ⦃rest rest' : List σ⦄, enc a ++ rest = enc b ++ rest' → a = b ∧ rest = rest'

namespace SelfDelimiting

variable {enc : α → List σ} {enc' : β → List σ}

theorem injective (h : SelfDelimiting enc) : Function.Injective enc := fun _ _ hab ↦
  (h (congrArg (· ++ []) hab)).1

theorem of_width {n : Nat} (hwidth : ∀ a, (enc a).length = n) (hinj : Function.Injective enc) :
    SelfDelimiting enc := by
  intro a b rest rest' h
  obtain ⟨henc, hrest⟩ := List.append_inj h (by rw [hwidth, hwidth])
  exact ⟨hinj henc, hrest⟩

/-- A header of a fixed width, which tells how long the body is. -/
theorem of_header {header body : α → List σ} {n : Nat} (hwidth : ∀ a, (header a).length = n)
    (hlength : ∀ a b, header a = header b → (body a).length = (body b).length)
    (hinj : Function.Injective body) : SelfDelimiting fun a ↦ header a ++ body a := by
  intro a b rest rest' h
  rw [List.append_assoc, List.append_assoc] at h
  obtain ⟨hheader, hbodies⟩ := List.append_inj h (by rw [hwidth, hwidth])
  obtain ⟨hbody, hrest⟩ := List.append_inj hbodies (hlength a b hheader)
  exact ⟨hinj hbody, hrest⟩

theorem pair (h : SelfDelimiting enc) (h' : SelfDelimiting enc') :
    SelfDelimiting fun p : α × β ↦ enc p.1 ++ enc' p.2 := by
  rintro ⟨a, a'⟩ ⟨b, b'⟩ rest rest' heq
  rw [List.append_assoc, List.append_assoc] at heq
  obtain ⟨rfl, heq⟩ := h heq
  obtain ⟨rfl, hrest⟩ := h' heq
  exact ⟨rfl, hrest⟩

/-- By induction on one list: an empty rest cannot start with an encoding. -/
theorem flatMap_injective (h : SelfDelimiting enc) (hne : ∀ a, enc a ≠ []) :
    Function.Injective fun as : List α ↦ as.flatMap enc := by
  have hnil (a : α) (as : List α) : (a :: as).flatMap enc ≠ [] := by
    rw [List.flatMap_cons]
    exact List.append_ne_nil_of_left_ne_nil (hne a) _
  intro as
  induction as with
  | nil =>
    intro bs hbs
    cases bs with
    | nil => rfl
    | cons b bs => exact absurd hbs.symm (hnil b bs)
  | cons a as ih =>
    intro bs hbs
    cases bs with
    | nil => exact absurd hbs (hnil a as)
    | cons b bs =>
      dsimp only at hbs
      rw [List.flatMap_cons, List.flatMap_cons] at hbs
      obtain ⟨rfl, hrest⟩ := h hbs
      rw [ih hrest]

end SelfDelimiting
end Lib
end EosMesh
