import Mathlib

/-!
# Runs of an executable step function

A system here is a partial step function: `step s i` is the state the input `i` leads to, or `none`
when it cannot happen in `s`.  `Reaches step guard s` is the set of states a run from `s` can be in
when every one of its steps meets `guard`, a condition on the state before the step and the input;
with `Lib.always` it is plain reachability.

* `Reaches.invariant` is the induction rule: what holds at the start and is preserved by every
  guarded step holds in every state reached.  `Reaches.invariant_of` lets a later invariant use an
  earlier one.
* `runInputs` executes a run, and `reaches_of_runInputs` turns an evaluated run into a reached
  state; `meets` evaluates the guard along the way, and `happens` says that some step was of a kind.
-/

set_option autoImplicit false

namespace EosMesh
namespace Lib

variable {σ ι : Type}

/-- The states a run from `s` can be in, every step of which meets `guard`. -/
inductive Reaches (step : σ → ι → Option σ) (guard : σ → ι → Prop) (s : σ) : σ → Prop
  | refl : Reaches step guard s s
  | tail {s₁ s₂ : σ} {i : ι} (h : Reaches step guard s s₁) (hg : guard s₁ i)
      (hs : step s₁ i = some s₂) : Reaches step guard s s₂

/-- No condition on the steps. -/
def always : σ → ι → Prop := fun _ _ ↦ True

variable {step : σ → ι → Option σ} {guard guard' : σ → ι → Prop} {s s' s'' : σ}

namespace Reaches

theorem mono (hg : ∀ s i, guard s i → guard' s i) (h : Reaches step guard s s') :
    Reaches step guard' s s' := by
  induction h with
  | refl => exact refl
  | tail _ hguard hs ih => exact ih.tail (hg _ _ hguard) hs

theorem trans (h : Reaches step guard s s') (h' : Reaches step guard s' s'') :
    Reaches step guard s s'' := by
  induction h' with
  | refl => exact h
  | tail _ hguard hs ih => exact ih.tail hguard hs

/-- **The invariant rule.** -/
theorem invariant {I : σ → Prop} (h : Reaches step guard s s') (h0 : I s)
    (hstep : ∀ s₁ i s₂, I s₁ → guard s₁ i → step s₁ i = some s₂ → I s₂) : I s' := by
  induction h with
  | refl => exact h0
  | tail _ hguard hs ih => exact hstep _ _ _ ih hguard hs

/-- The invariant rule, resting on an invariant `J` already proved. -/
theorem invariant_of {I J : σ → Prop} (h : Reaches step guard s s') (hJ0 : J s)
    (hJ : ∀ s₁ i s₂, J s₁ → guard s₁ i → step s₁ i = some s₂ → J s₂) (h0 : I s)
    (hstep : ∀ s₁ i s₂, J s₁ → I s₁ → guard s₁ i → step s₁ i = some s₂ → I s₂) : I s' := by
  have hboth : J s' ∧ I s' := h.invariant (I := fun x ↦ J x ∧ I x) ⟨hJ0, h0⟩
    fun s₁ i s₂ hs hg hstep' ↦ ⟨hJ s₁ i s₂ hs.1 hg hstep', hstep s₁ i s₂ hs.1 hs.2 hg hstep'⟩
  exact hboth.2

end Reaches

/-! ## Executing a run -/

/-- The state after a list of inputs, or `none` when one of them could not happen. -/
def runInputs (step : σ → ι → Option σ) (s : σ) : List ι → Option σ
  | [] => some s
  | i :: inputs =>
    match step s i with
    | none => none
    | some s' => runInputs step s' inputs

/-- Every step of an executed run meets a decidable condition. -/
def meets (step : σ → ι → Option σ) (guard : σ → ι → Prop) (s : σ) : List ι → Prop
  | [] => True
  | i :: inputs =>
    guard s i ∧
      match step s i with
      | none => True
      | some s' => meets step guard s' inputs

instance meets.decidable [∀ s i, Decidable (guard s i)] :
    ∀ (s : σ) (inputs : List ι), Decidable (meets step guard s inputs)
  | _, [] => isTrue trivial
  | s, i :: inputs =>
    have : Decidable (match step s i with
        | none => True
        | some s' => meets step guard s' inputs) :=
      match step s i with
      | none => isTrue trivial
      | some s' => meets.decidable s' inputs
    inferInstanceAs (Decidable (_ ∧ _))

/-- A run that goes on. -/
theorem runInputs_append {inputs : List ι} (h : runInputs step s inputs = some s')
    (more : List ι) : runInputs step s (inputs ++ more) = runInputs step s' more := by
  induction inputs generalizing s with
  | nil =>
    cases h
    rfl
  | cons i inputs ih =>
    rw [runInputs] at h
    rw [List.cons_append, runInputs]
    cases hs : step s i with
    | none => rw [hs] at h; cases h
    | some s₁ =>
      rw [hs] at h
      exact ih h

theorem reaches_of_runInputs {inputs : List ι} (h : runInputs step s inputs = some s')
    (hg : meets step guard s inputs) : Reaches step guard s s' := by
  induction inputs generalizing s with
  | nil =>
    cases h
    exact Reaches.refl
  | cons i inputs ih =>
    rw [runInputs] at h
    obtain ⟨hguard, hrest⟩ := hg
    cases hs : step s i with
    | none => rw [hs] at h; cases h
    | some s₁ =>
      rw [hs] at h hrest
      exact (Reaches.refl.tail hguard hs).trans (ih h hrest)

theorem meets.mono (hg : ∀ s i, guard s i → guard' s i) {inputs : List ι}
    (h : meets step guard s inputs) : meets step guard' s inputs := by
  induction inputs generalizing s with
  | nil => trivial
  | cons i inputs ih =>
    obtain ⟨hfirst, hrest⟩ := h
    refine ⟨hg s i hfirst, ?_⟩
    cases hs : step s i with
    | none => trivial
    | some s₁ =>
      rw [hs] at hrest
      exact ih hrest

theorem meets.and {inputs : List ι} (h : meets step guard s inputs)
    (h' : meets step guard' s inputs) : meets step (fun s i ↦ guard s i ∧ guard' s i) s inputs := by
  induction inputs generalizing s with
  | nil => trivial
  | cons i inputs ih =>
    obtain ⟨hfirst, hrest⟩ := h
    obtain ⟨hfirst', hrest'⟩ := h'
    refine ⟨⟨hfirst, hfirst'⟩, ?_⟩
    cases hs : step s i with
    | none => trivial
    | some s₁ =>
      rw [hs] at hrest hrest'
      exact ih hrest hrest'

/-- Two conditions that are one in every state of an invariant are one along a run. -/
theorem meets_congr {I : σ → Prop} (hI : I s) (hstep : ∀ s i s', I s → step s i = some s' → I s')
    (hiff : ∀ s i, I s → (guard s i ↔ guard' s i)) (inputs : List ι) :
    meets step guard s inputs ↔ meets step guard' s inputs := by
  induction inputs generalizing s with
  | nil => rfl
  | cons i inputs ih =>
    rw [meets, meets, hiff s i hI]
    cases hs : step s i with
    | none => rfl
    | some s₁ => exact and_congr_right fun _ ↦ ih (hstep s i s₁ hI hs)

theorem meets_always (s : σ) (inputs : List ι) : meets step always s inputs := by
  induction inputs generalizing s with
  | nil => trivial
  | cons i inputs ih =>
    refine ⟨trivial, ?_⟩
    cases step s i with
    | none => trivial
    | some s₁ => exact ih s₁

/-- An evaluated run, as the state it ends in. -/
theorem exists_runInputs (step : σ → ι → Option σ) (s : σ) (P : σ → Prop) [DecidablePred P]
    (inputs : List ι) (h : (runInputs step s inputs).any (fun s' ↦ decide (P s')) = true) :
    ∃ s', runInputs step s inputs = some s' ∧ P s' := by
  obtain ⟨s', hs', hP⟩ := (Option.any_eq_true _ _).1 h
  exact ⟨s', hs', of_decide_eq_true hP⟩

/-- The same, as the reached state it is. -/
theorem exists_reaches (step : σ → ι → Option σ) (guard : σ → ι → Prop) (s : σ) (P : σ → Prop)
    [DecidablePred P] (inputs : List ι)
    (h : (runInputs step s inputs).any (fun s' ↦ decide (P s')) = true)
    (hg : meets step guard s inputs) : ∃ s', Reaches step guard s s' ∧ P s' := by
  obtain ⟨s', hs', hP⟩ := exists_runInputs step s P inputs h
  exact ⟨s', reaches_of_runInputs hs' hg, hP⟩

/-! ## What happened along a run -/

/-- Some step of an executed run is one of `P`. -/
def happens (step : σ → ι → Option σ) (P : σ → ι → Prop) (s : σ) : List ι → Prop
  | [] => False
  | i :: inputs =>
    P s i ∨
      match step s i with
      | none => False
      | some s' => happens step P s' inputs

instance happens.decidable {P : σ → ι → Prop} [∀ s i, Decidable (P s i)] :
    ∀ (s : σ) (inputs : List ι), Decidable (happens step P s inputs)
  | _, [] => isFalse id
  | s, i :: inputs =>
    have : Decidable (match step s i with
        | none => False
        | some s' => happens step P s' inputs) :=
      match step s i with
      | none => isFalse id
      | some s' => happens.decidable s' inputs
    inferInstanceAs (Decidable (_ ∨ _))

/-- What some step was, every step along the way may rely on. -/
theorem meets_of_happens {α : Type} {P : α → σ → ι → Prop} {Q : α → Prop} {inputs : List ι}
    (h : ∀ a, happens step (P a) s inputs → Q a) :
    meets step (fun s i ↦ ∀ a, P a s i → Q a) s inputs := by
  induction inputs generalizing s with
  | nil => trivial
  | cons i inputs ih =>
    refine ⟨fun a ha ↦ h a (.inl ha), ?_⟩
    cases hs : step s i with
    | none => trivial
    | some s₁ => exact ih fun a ha ↦ h a (.inr (by rw [hs]; exact ha))

/-- What a step brings about exactly when it is one of `P`, and no step takes away, holds after a
run exactly when it held before or one of `P` happened. -/
theorem holds_iff_happens {I Q : σ → Prop} {P : σ → ι → Prop}
    (hstep : ∀ s i s', I s → guard s i → step s i = some s' → I s' ∧ (Q s' ↔ Q s ∨ P s i))
    {inputs : List ι} (hI : I s) (h : runInputs step s inputs = some s')
    (hg : meets step guard s inputs) : Q s' ↔ Q s ∨ happens step P s inputs := by
  induction inputs generalizing s with
  | nil =>
    cases h
    exact (or_iff_left id).symm
  | cons i inputs ih =>
    rw [runInputs] at h
    rw [happens]
    obtain ⟨hguard, hrest⟩ := hg
    cases hs : step s i with
    | none => rw [hs] at h; cases h
    | some s₁ =>
      rw [hs] at h hrest
      obtain ⟨hI₁, hQ₁⟩ := hstep s i s₁ hI hguard hs
      rw [ih hI₁ h hrest, hQ₁, or_assoc]

end Lib
end EosMesh
