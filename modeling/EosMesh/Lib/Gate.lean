import Mathlib

/-!
# Gates

A gate takes some of what arrives and refuses the rest, and what it refuses does not change it.

* `through` runs what arrives through a gate; `through_filter` says that leaving out what is refused
  anyway leaves everything else as it was.
* `nodup_through` says that a gate which remembers what it took takes no key twice.
-/

set_option autoImplicit false

namespace EosMesh
namespace Lib

variable {σ ι ω κ : Type}

/-- What a gate comes to, and what it took, each with what it made of it. -/
def through (gate : σ → ι → Option (ω × σ)) : σ → List ι → σ × List (ι × ω)
  | s, [] => (s, [])
  | s, i :: arrivals =>
    match gate s i with
    | none => through gate s arrivals
    | some (out, s') =>
      let later := through gate s' arrivals
      (later.1, (i, out) :: later.2)

variable {gate : σ → ι → Option (ω × σ)} {I : σ → Prop}

/-- **Leaving out what is refused anyway leaves everything else as it was.** -/
theorem through_filter {p : ι → Bool} (hp : ∀ s i out s', I s → gate s i = some (out, s') →
    p i = true ∧ I s') {s : σ} (hI : I s) (arrivals : List ι) :
    through gate s (arrivals.filter p) = through gate s arrivals := by
  induction arrivals generalizing s with
  | nil => rfl
  | cons i arrivals ih =>
    rw [through]
    cases hg : gate s i with
    | none =>
      rw [List.filter_cons]
      split
      · rw [through, hg]
        exact ih hI
      · exact ih hI
    | some taken =>
      obtain ⟨out, s'⟩ := taken
      obtain ⟨hpi, hI'⟩ := hp s i out s' hI hg
      rw [List.filter_cons, if_pos hpi, through, hg]
      dsimp only
      rw [ih hI']

/-- The invariant rule. -/
theorem through_invariant (hkeeps : ∀ s i out s', I s → gate s i = some (out, s') → I s') {s : σ}
    (hI : I s) (arrivals : List ι) : I (through gate s arrivals).1 := by
  induction arrivals generalizing s with
  | nil => exact hI
  | cons i arrivals ih =>
    rw [through]
    cases hg : gate s i with
    | none => exact ih hI
    | some taken =>
      obtain ⟨out, s'⟩ := taken
      exact ih (hkeeps s i out s' hI hg)

/-- What is taken has whatever being taken implies. -/
theorem forall_mem_through {P : ι → ω → Prop} (hP : ∀ s i out s', I s →
    gate s i = some (out, s') → P i out ∧ I s') {s : σ} (hI : I s) (arrivals : List ι) :
    ∀ taken ∈ (through gate s arrivals).2, P taken.1 taken.2 := by
  induction arrivals generalizing s with
  | nil => exact fun _ h ↦ absurd h List.not_mem_nil
  | cons i arrivals ih =>
    rw [through]
    cases hg : gate s i with
    | none => exact ih hI
    | some taken =>
      obtain ⟨out, s'⟩ := taken
      obtain ⟨hout, hI'⟩ := hP s i out s' hI hg
      intro taken htaken
      rcases List.mem_cons.1 htaken with rfl | htaken
      · exact hout
      · exact ih hI' taken htaken

/-- A gate that remembers the keys it took: a key it remembers is refused, and it forgets none. -/
structure Remembering (gate : σ → ι → Option (ω × σ)) (key : ι → κ) (spent : σ → κ → Prop) :
    Prop where
  fresh : ∀ s i out s', gate s i = some (out, s') → ¬ spent s (key i)
  spends : ∀ s i out s', gate s i = some (out, s') → spent s' (key i)
  keeps : ∀ s i out s' k, gate s i = some (out, s') → spent s k → spent s' k

/-- **No key is taken twice.** -/
theorem nodup_through {key : ι → κ} {spent : σ → κ → Prop} (h : Remembering gate key spent) (s : σ)
    (arrivals : List ι) : ((through gate s arrivals).2.map fun taken ↦ key taken.1).Nodup := by
  have hboth (s : σ) : ((through gate s arrivals).2.map fun taken ↦ key taken.1).Nodup ∧
      ∀ taken ∈ (through gate s arrivals).2, ¬ spent s (key taken.1) := by
    induction arrivals generalizing s with
    | nil => exact ⟨List.nodup_nil, fun _ h ↦ absurd h List.not_mem_nil⟩
    | cons i arrivals ih =>
      rw [through]
      cases hg : gate s i with
      | none => exact ih s
      | some taken =>
        obtain ⟨out, s'⟩ := taken
        obtain ⟨hnodup, hfresh⟩ := ih s'
        have hspends := h.spends s i out s' hg
        refine ⟨List.nodup_cons.2 ⟨fun hmem ↦ ?_, hnodup⟩, fun taken htaken ↦ ?_⟩
        · obtain ⟨taken, htaken, hkey⟩ := List.mem_map.1 hmem
          exact hfresh taken htaken (hkey ▸ hspends)
        · rcases List.mem_cons.1 htaken with rfl | htaken
          · exact h.fresh s i out s' hg
          · exact fun hspent ↦ hfresh taken htaken (h.keeps s i out s' _ hg hspent)
  exact (hboth s).1

end Lib
end EosMesh
