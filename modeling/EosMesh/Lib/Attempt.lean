import Mathlib

/-!
# Computations that may stop part of the way

An `Attempt` works on a state, notes what it does, and may fail.  A failed attempt stops where it
is: what it had done to the state stays done, and what it had noted stays noted.

* `Within R m` says that `m` relates the state it starts in, its notes and the state it ends in by
  `R`, failed or not.  For a relation that composes, it passes from the parts to the whole
  (`Within.bind`).
* `Ends m s Q` says how `m` ends from `s`, and `Ends.bind` composes it.
* `value` forgets what failed attempts leave behind.
-/

set_option autoImplicit false

namespace EosMesh
namespace Lib

/-- What an attempt comes to: a result or none, and in both cases a state and notes. -/
structure Outcome (ε σ α : Type) where
  result : Option α
  state : σ
  notes : List ε

/-- A computation on a state that may fail, with notes of what it did. -/
def Attempt (ε σ α : Type) : Type := σ → Outcome ε σ α

namespace Attempt

variable {ε σ α β : Type}

/-- Nothing but a result. -/
def done (a : α) : Attempt ε σ α := fun s ↦ ⟨some a, s, []⟩

/-- No result, with the state as it was. -/
def fail : Attempt ε σ α := fun s ↦ ⟨none, s, []⟩

/-- One attempt after another.  A failure ends it, and what was done by then stays done. -/
def andThen (m : Attempt ε σ α) (f : α → Attempt ε σ β) : Attempt ε σ β := fun s ↦
  match (m s).result with
  | none => ⟨none, (m s).state, (m s).notes⟩
  | some a => ⟨(f a (m s).state).result, (f a (m s).state).state,
      (m s).notes ++ (f a (m s).state).notes⟩

instance : Monad (Attempt ε σ) where
  pure := done
  bind := andThen

/-- The state as it is. -/
def read : Attempt ε σ σ := fun s ↦ ⟨some s, s, []⟩

/-- The state, changed. -/
def change (f : σ → σ) : Attempt ε σ Unit := fun s ↦ ⟨some (), f s, []⟩

/-- It goes on only if this holds. -/
def require (p : Prop) [Decidable p] : Attempt ε σ Unit := if p then done () else fail

/-! ## How the parts compose -/

variable {m : Attempt ε σ α} {f : α → Attempt ε σ β} {s : σ}

theorem bind_of_none (h : (m s).result = none) :
    (m >>= f) s = ⟨none, (m s).state, (m s).notes⟩ := by
  change andThen m f s = _
  rw [andThen, h]

theorem bind_of_some {a : α} (h : (m s).result = some a) :
    (m >>= f) s = ⟨(f a (m s).state).result, (f a (m s).state).state,
      (m s).notes ++ (f a (m s).state).notes⟩ := by
  change andThen m f s = _
  rw [andThen, h]

theorem read_bind (g : σ → Attempt ε σ β) : (read >>= g) s = g s s := rfl

theorem change_bind (g : σ → σ) (f : Unit → Attempt ε σ β) : (change g >>= f) s = f () (g s) := rfl

theorem require_bind {p : Prop} [Decidable p] (h : p) (f : Unit → Attempt ε σ β) :
    (require p >>= f) s = f () s := by
  rw [require, if_pos h]
  rfl

theorem require_bind_not {p : Prop} [Decidable p] (h : ¬ p) (f : Unit → Attempt ε σ β) :
    (require p >>= f) s = ⟨none, s, []⟩ := by
  rw [require, if_neg h]
  rfl

/-- A relation between a state, the notes made from it and the state they lead to, that composes. -/
structure Composes (R : σ → List ε → σ → Prop) : Prop where
  refl : ∀ s, R s [] s
  trans : ∀ {s s' s'' notes notes'}, R s notes s' → R s' notes' s'' → R s (notes ++ notes') s''

/-- What an attempt does, failed or not, stays within `R`. -/
def Within (R : σ → List ε → σ → Prop) (m : Attempt ε σ α) : Prop :=
  ∀ s, R s (m s).notes (m s).state

variable {R : σ → List ε → σ → Prop}

theorem Within.pure (hR : Composes R) (a : α) : Within R (done a : Attempt ε σ α) :=
  fun s ↦ hR.refl s

theorem Within.fail (hR : Composes R) : Within R (fail : Attempt ε σ α) := fun s ↦ hR.refl s

theorem Within.read (hR : Composes R) : Within R (read : Attempt ε σ σ) := fun s ↦ hR.refl s

theorem Within.change {g : σ → σ} (hg : ∀ s, R s [] (g s)) :
    Within R (change g : Attempt ε σ Unit) := hg

theorem Within.require (hR : Composes R) (p : Prop) [Decidable p] :
    Within R (require p : Attempt ε σ Unit) := by
  rw [Attempt.require]
  split
  · exact .pure hR ()
  · exact .fail hR

theorem Within.bind (hR : Composes R) (hm : Within R m) (hf : ∀ a, Within R (f a)) :
    Within R (m >>= f) := by
  intro s
  cases hresult : (m s).result with
  | none =>
    rw [bind_of_none hresult]
    exact hm s
  | some a =>
    rw [bind_of_some hresult]
    exact hR.trans (hm s) (hf a _)

/-- How an attempt from `s` ends: whether it succeeded, the state it leaves and its notes. -/
def Ends (m : Attempt ε σ α) (s : σ) (Q : Bool → σ → List ε → Prop) : Prop :=
  Q (m s).result.isSome (m s).state (m s).notes

variable {P Q : Bool → σ → List ε → Prop}

theorem Ends.of_eq {m' : Attempt ε σ α} (h : m s = m' s) (hm : Ends m' s Q) : Ends m s Q := by
  rw [Ends, h]
  exact hm

theorem Ends.mono (h : Ends m s P) (hPQ : ∀ r s' notes, P r s' notes → Q r s' notes) :
    Ends m s Q := hPQ _ _ _ h

theorem Within.ends {m : Attempt ε σ α} (h : Within R m) (s : σ) :
    Ends m s fun _ s' notes ↦ R s notes s' := h s

theorem Ends.and (h : Ends m s P) (h' : Ends m s Q) :
    Ends m s fun r s' notes ↦ P r s' notes ∧ Q r s' notes := ⟨h, h'⟩

theorem Ends.read {g : σ → Attempt ε σ β} (h : Ends (g s) s Q) : Ends (read >>= g) s Q := h

theorem Ends.change {g : σ → σ} {f : Unit → Attempt ε σ β} (h : Ends (f ()) (g s) Q) :
    Ends (change g >>= f) s Q := h

theorem Ends.require {p : Prop} [Decidable p] {f : Unit → Attempt ε σ β}
    (hfail : ¬ p → Q false s []) (hgo : p → Ends (f ()) s Q) : Ends (require p >>= f) s Q := by
  by_cases hp : p
  · exact of_eq (require_bind hp f) (hgo hp)
  · rw [Ends, require_bind_not hp]
    exact hfail hp

theorem Ends.pure {a : α} (h : Q true s []) : Ends (pure a : Attempt ε σ α) s Q := h

/-- A failed part fails the whole as it is; after one that succeeded the rest goes on from there. -/
theorem Ends.bind (hm : Ends m s P) (hfail : ∀ s' notes, P false s' notes → Q false s' notes)
    (hgo : ∀ a s' notes, P true s' notes →
      Ends (f a) s' fun r s'' notes' ↦ Q r s'' (notes ++ notes')) :
    Ends (m >>= f) s Q := by
  rw [Ends] at hm ⊢
  cases hresult : (m s).result with
  | none =>
    rw [bind_of_none hresult]
    rw [hresult] at hm
    exact hfail _ _ hm
  | some a =>
    rw [bind_of_some hresult]
    rw [hresult] at hm
    exact hgo a _ _ hm

theorem Ends.map {g : α → β} (h : Ends m s Q) : Ends (m >>= fun a ↦ Pure.pure (g a)) s Q := by
  refine h.bind (fun _ _ ↦ id) fun a s' notes hm ↦ ?_
  change Q true s' (notes ++ [])
  rw [List.append_nil]
  exact hm

/-- The same after a part whose outcome is known. -/
theorem Ends.bind_done {a : α} {s' : σ} {notes : List ε} (hm : m s = ⟨some a, s', notes⟩)
    (hgo : Ends (f a) s' fun r s'' notes' ↦ Q r s'' (notes ++ notes')) : Ends (m >>= f) s Q := by
  have hresult : (m s).result = some a := by rw [hm]
  rw [Ends, bind_of_some hresult, hm]
  exact hgo

/-! ## What is left when failed attempts leave nothing -/

/-- The result with its state, as long as there is one. -/
def value (m : Attempt ε σ α) (s : σ) : Option (α × σ) := (m s).result.map (·, (m s).state)

@[simp] theorem value_bind : (m >>= f).value s = (m.value s).bind fun p ↦ (f p.1).value p.2 := by
  cases hresult : (m s).result with
  | none => simp [value, bind_of_none hresult, hresult]
  | some a => simp [value, bind_of_some hresult, hresult]

@[simp] theorem value_pure (a : α) : (pure a : Attempt ε σ α).value s = some (a, s) := rfl

@[simp] theorem value_read : (read : Attempt ε σ σ).value s = some (s, s) := rfl

@[simp] theorem value_change (g : σ → σ) :
    (change g : Attempt ε σ Unit).value s = some ((), g s) := rfl

@[simp] theorem value_fail : (fail : Attempt ε σ α).value s = none := rfl

@[simp high] theorem value_require_bind (p : Prop) [Decidable p] (g : Unit → Attempt ε σ β) :
    (require p >>= g).value s = (guard p : Option Unit).bind fun _ ↦ (g ()).value s := by
  rw [value_bind, require, guard]
  split <;> rfl

end Attempt
end Lib
end EosMesh
