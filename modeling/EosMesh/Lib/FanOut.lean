import Mathlib

/-!
# A loop over a list that its own body edits

`for (i = 0; i < list.size(); i++) visit(list[i])`, where a visit may change the list: the index
goes up by one whatever became of the elements.  The list is read off a state, and a visit is a
step of that state.

* `fanOut` is the loop, for as many rounds as the list had elements: a list that no visit makes
  longer is run through by then.
* `fanOut_visits` is its induction rule, and `fanOut_invariant` its plain form.
* `fanOut_congr` replaces the visit by one that does the same to the states of an invariant, and
  `foldl_congr_of` does so in a plain loop.
* `fanOut_steady` is the case where no visit changes the list: a fold over the elements not skipped.
-/

set_option autoImplicit false

namespace EosMesh
namespace Lib

variable {σ α : Type}

/-- At most `rounds` rounds of the loop, from index `i` on. -/
def fanOutFrom (list : σ → List α) (skip : α → Bool) (visit : σ → α → σ) :
    Nat → Nat → σ → σ
  | 0, _, s => s
  | rounds + 1, i, s =>
    match (list s)[i]? with
    | none => s
    | some a => fanOutFrom list skip visit rounds (i + 1) (if skip a then s else visit s a)

/-- The loop over the whole list. -/
def fanOut (list : σ → List α) (skip : α → Bool) (visit : σ → α → σ) (s : σ) : σ :=
  fanOutFrom list skip visit (list s).length 0 s

variable {list : σ → List α} {skip : α → Bool} {visit : σ → α → σ}

/-- **The invariant rule of the loop**: a visit is to an element the list has at the time, and that
is not skipped. -/
theorem fanOutFrom_visits {I : σ → Prop}
    (hvisit : ∀ s a, I s → a ∈ list s → skip a = false → I (visit s a)) (rounds i : Nat) (s : σ)
    (h : I s) : I (fanOutFrom list skip visit rounds i s) := by
  induction rounds generalizing i s with
  | zero => exact h
  | succ rounds ih =>
    rw [fanOutFrom]
    cases hi : (list s)[i]? with
    | none => exact h
    | some a =>
      refine ih _ _ ?_
      by_cases hskip : skip a = true
      · rw [if_pos hskip]
        exact h
      · rw [if_neg hskip]
        exact hvisit s a h (List.mem_of_getElem? hi) (by simpa using hskip)

theorem fanOut_visits {I : σ → Prop}
    (hvisit : ∀ s a, I s → a ∈ list s → skip a = false → I (visit s a)) {s : σ} (h : I s) :
    I (fanOut list skip visit s) :=
  fanOutFrom_visits hvisit _ _ s h

/-- The rule for visits that keep the invariant wherever they go. -/
theorem fanOut_invariant {I : σ → Prop} (hvisit : ∀ s a, I s → I (visit s a)) {s : σ} (h : I s) :
    I (fanOut list skip visit s) :=
  fanOut_visits (fun s a hs _ _ ↦ hvisit s a hs) h

/-- What the loop keeps of the state it started in. -/
theorem fanOut_relates {R : σ → σ → Prop} (hrefl : ∀ s, R s s)
    (hvisit : ∀ s₀ s a, R s₀ s → R s₀ (visit s a)) (s : σ) : R s (fanOut list skip visit s) :=
  fanOut_invariant (I := R s) (fun s' a ↦ hvisit s s' a) (hrefl s)

/-! ## Two visits that agree -/

theorem foldl_congr_of {visit' : σ → α → σ} {I : σ → Prop}
    (hvisit : ∀ s a, I s → visit s a = visit' s a ∧ I (visit s a)) {s : σ} (h : I s)
    (l : List α) : l.foldl visit s = l.foldl visit' s := by
  induction l generalizing s with
  | nil => rfl
  | cons a l ih =>
    obtain ⟨hsame, hI⟩ := hvisit s a h
    rw [List.foldl_cons, List.foldl_cons, ih hI, hsame]

theorem fanOut_congr {visit' : σ → α → σ} {I : σ → Prop}
    (hvisit : ∀ s a, I s → visit s a = visit' s a ∧ I (visit s a)) {s : σ} (h : I s) :
    fanOut list skip visit s = fanOut list skip visit' s := by
  have hfrom (rounds i : Nat) (s : σ) (h : I s) :
      fanOutFrom list skip visit rounds i s = fanOutFrom list skip visit' rounds i s := by
    induction rounds generalizing i s with
    | zero => rfl
    | succ rounds ih =>
      rw [fanOutFrom, fanOutFrom]
      cases (list s)[i]? with
      | none => rfl
      | some a =>
        dsimp only
        split
        · exact ih _ _ h
        · obtain ⟨hsame, hI⟩ := hvisit s a h
          rw [← hsame]
          exact ih _ _ hI
  exact hfrom _ 0 s h

/-! ## A list that stays as it is -/

/-- When no visit changes the list, the loop goes once through what it does not skip; `I` is what
the visits rely on. -/
theorem fanOut_steady {I : σ → Prop} (hI : ∀ s a, I s → I (visit s a))
    (hvisit : ∀ s a, I s → list (visit s a) = list s) {s : σ} (h : I s) :
    fanOut list skip visit s = ((list s).filter fun a ↦ !skip a).foldl visit s := by
  have hfrom (rounds i : Nat) (s : σ) (h : I s) (hrounds : (list s).length ≤ rounds + i) :
      fanOutFrom list skip visit rounds i s =
        (((list s).drop i).filter fun a ↦ !skip a).foldl visit s := by
    induction rounds generalizing i s with
    | zero =>
      rw [List.drop_eq_nil_of_le (by omega)]
      rfl
    | succ rounds ih =>
      rw [fanOutFrom]
      cases hi : (list s)[i]? with
      | none =>
        rw [List.drop_eq_nil_of_le (List.getElem?_eq_none_iff.1 hi)]
        rfl
      | some a =>
        obtain ⟨hlt, hget⟩ := List.getElem?_eq_some_iff.1 hi
        rw [List.drop_eq_getElem_cons hlt, hget, List.filter_cons]
        dsimp only
        by_cases hskip : skip a = true
        · rw [if_pos hskip, ih _ _ h (by omega), if_neg (by simp [hskip])]
        · have hsame := hvisit s a h
          rw [if_neg hskip, ih _ _ (hI s a h) (by rw [hsame]; omega),
            if_pos (by simpa using hskip), hsame, List.foldl_cons]
  exact hfrom _ 0 s h (by omega)

end Lib
end EosMesh
