import Mathlib

/-!
# Programs that may be cut off at any operation

A program works on a state by operations.  Each of them is done, or raises, or is where the
run stops for good, and what is not done may have been done in part.  Raising can be handled;
a stop cannot.

* `Meets m s Q R C`: however the operations of `m` fare from `s`, it returns as `Q` says, raises in
  a state as in `R`, or stops in one as in `C`.  `Meets.bind`, `Meets.handle`, `meets_act` and
  `meets_look` are its rules.
* What a program does when everything is done is computed, by the equations at the end.
-/

set_option autoImplicit false

namespace EosMesh
namespace Lib

/-- How an operation fares.  What is not done was done up to `units` of its work. -/
inductive Fate
  | done
  | raises (units : Nat)
  | stops (units : Nat)
  deriving DecidableEq

/-- How a run ends: with a value, with an error, or in the middle. -/
inductive Ending (ε α : Type)
  | returned (value : α)
  | raised (error : ε)
  | stopped

/-- A program, given how its operations fare; past the end of the list they are done. -/
def Cuttable (σ ε α : Type) : Type := List Fate → σ → Ending ε α × σ × List Fate

namespace Cuttable

variable {σ ε α β : Type}

/-- Nothing but a value. -/
def done (a : α) : Cuttable σ ε α := fun fates s ↦ (.returned a, s, fates)

/-- Nothing but an error. -/
def raise (error : ε) : Cuttable σ ε α := fun fates s ↦ (.raised error, s, fates)

/-- One step after another.  An error or a stop ends it, and what was done by then stays done. -/
def andThen (m : Cuttable σ ε α) (f : α → Cuttable σ ε β) : Cuttable σ ε β := fun fates s ↦
  match m fates s with
  | (.returned a, s, fates) => f a fates s
  | (.raised error, s, fates) => (.raised error, s, fates)
  | (.stopped, s, fates) => (.stopped, s, fates)

instance : Monad (Cuttable σ ε) where
  pure := done
  bind := andThen

/-- What is done when the program raises; a stop is not handled. -/
def handle (m : Cuttable σ ε α) (handler : ε → Cuttable σ ε α) : Cuttable σ ε α := fun fates s ↦
  match m fates s with
  | (.returned a, s, fates) => (.returned a, s, fates)
  | (.raised error, s, fates) => handler error fates s
  | (.stopped, s, fates) => (.stopped, s, fates)

/-- An operation that changes the state, to `whole` when it is done. -/
def act (error : ε) (part : Nat → σ → σ) (whole : σ → σ) : Cuttable σ ε Unit
  | [], s => (.returned (), whole s, [])
  | .done :: fates, s => (.returned (), whole s, fates)
  | .raises units :: fates, s => (.raised error, part units s, fates)
  | .stops units :: fates, s => (.stopped, part units s, fates)

/-- An operation that is done or not. -/
def change (error : ε) (whole : σ → σ) : Cuttable σ ε Unit := act error (fun _ s ↦ s) whole

/-- An operation that looks at the state. -/
def look (error : ε) (f : σ → α) : Cuttable σ ε α
  | [], s => (.returned (f s), s, [])
  | .done :: fates, s => (.returned (f s), s, fates)
  | .raises _ :: fates, s => (.raised error, s, fates)
  | .stops _ :: fates, s => (.stopped, s, fates)

/-- Going on only if something is so. -/
def require (condition : Prop) [Decidable condition] (error : ε) : Cuttable σ ε Unit :=
  if condition then done () else raise error

/-! ## However the operations fare -/

/-- What holds when `m` returns, raises or stops, from `s`. -/
def Meets (m : Cuttable σ ε α) (s : σ) (Q : α → σ → Prop) (R C : σ → Prop) : Prop :=
  ∀ fates, match m fates s with
    | (.returned a, s', _) => Q a s'
    | (.raised _, s', _) => R s'
    | (.stopped, s', _) => C s'

variable {m : Cuttable σ ε α} {f : α → Cuttable σ ε β} {handler : ε → Cuttable σ ε α} {s : σ}
  {Q Q' : α → σ → Prop} {T : β → σ → Prop} {R R' C C' : σ → Prop}

theorem Meets.mono (h : Meets m s Q R C) (hQ : ∀ a s', Q a s' → Q' a s')
    (hR : ∀ s', R s' → R' s') (hC : ∀ s', C s' → C' s') : Meets m s Q' R' C' := by
  intro fates
  have hends := h fates
  split at hends
  · exact hQ _ _ hends
  · exact hR _ hends
  · exact hC _ hends

/-- What holds of every end holds of the state that is left. -/
theorem Meets.anyway {P : σ → Prop} (h : Meets m s (fun _ ↦ P) P P) (fates : List Fate) :
    P (m fates s).2.1 := by
  have hends := h fates
  split at hends <;> rename_i heq <;> rwa [heq]

theorem meets_pure {a : α} (h : Q a s) : Meets (pure a : Cuttable σ ε α) s Q R C := fun _ ↦ h

theorem meets_raise {error : ε} (h : R s) : Meets (raise error) s Q R C := fun _ ↦ h

theorem Meets.bind (h : Meets m s (fun a s' ↦ Meets (f a) s' T R C) R C) :
    Meets (m >>= f) s T R C := by
  intro fates
  have hends := h fates
  change match andThen m f fates s with
    | (.returned a, s', _) => T a s'
    | (.raised _, s', _) => R s'
    | (.stopped, s', _) => C s'
  rw [andThen]
  split at hends
  · exact hends _
  · exact hends
  · exact hends

theorem Meets.handle (h : Meets m s Q (fun s' ↦ ∀ error, Meets (handler error) s' Q R C) C) :
    Meets (handle m handler) s Q R C := by
  intro fates
  have hends := h fates
  rw [Cuttable.handle]
  split at hends
  · exact hends
  · exact hends _ _
  · exact hends

/-- Going on from whatever `m` returns. -/
theorem Meets.onward (h : Meets m s Q R C) (hnext : ∀ a s', Q a s' → Meets (f a) s' T R C) :
    Meets (m >>= f) s T R C :=
  .bind (h.mono hnext (fun _ hR ↦ hR) fun _ hC ↦ hC)

/-- Going on from whatever `m` raises. -/
theorem Meets.rescue (h : Meets m s Q R' C)
    (hhandler : ∀ s' error, R' s' → Meets (handler error) s' Q R C) :
    Meets (Cuttable.handle m handler) s Q R C :=
  .handle (h.mono (fun _ _ hQ ↦ hQ) (fun s' hR error ↦ hhandler s' error hR) fun _ hC ↦ hC)

theorem meets_act {error : ε} {part : Nat → σ → σ} {whole : σ → σ} {Q : Unit → σ → Prop}
    (hwhole : Q () (whole s)) (hraise : ∀ n, R (part n s)) (hstop : ∀ n, C (part n s)) :
    Meets (act error part whole) s Q R C
  | [] => hwhole
  | .done :: _ => hwhole
  | .raises n :: _ => hraise n
  | .stops n :: _ => hstop n

theorem meets_change {error : ε} {whole : σ → σ} {Q : Unit → σ → Prop} (hwhole : Q () (whole s))
    (hraise : R s) (hstop : C s) : Meets (change error whole) s Q R C :=
  meets_act hwhole (fun _ ↦ hraise) fun _ ↦ hstop

theorem meets_look {error : ε} {f : σ → α} (h : Q (f s) s) (hraise : R s) (hstop : C s) :
    Meets (look error f) s Q R C
  | [] => h
  | .done :: _ => h
  | .raises _ :: _ => hraise
  | .stops _ :: _ => hstop

theorem meets_require {condition : Prop} [Decidable condition] {error : ε} {Q : Unit → σ → Prop}
    (h : condition → Q () s) (hraise : ¬ condition → R s) :
    Meets (require condition error) s Q R C := by
  rw [require]
  split
  · rename_i hholds
    exact meets_pure (h hholds)
  · rename_i hfails
    exact meets_raise (hraise hfails)

/-! ## When everything is done -/

@[simp] theorem pure_nil (a : α) : (pure a : Cuttable σ ε α) [] s = (.returned a, s, []) := rfl

@[simp] theorem raise_nil (error : ε) :
    (raise error : Cuttable σ ε α) [] s = (.raised error, s, []) := rfl

@[simp] theorem look_nil (error : ε) (f : σ → α) :
    look error f [] s = (.returned (f s), s, []) := rfl

@[simp] theorem act_nil (error : ε) (part : Nat → σ → σ) (whole : σ → σ) :
    act error part whole [] s = (.returned (), whole s, []) := rfl

@[simp] theorem change_nil (error : ε) (whole : σ → σ) :
    change error whole [] s = (.returned (), whole s, []) := rfl

theorem bind_nil : (m >>= f) [] s = match m [] s with
    | (.returned a, s, fates) => f a fates s
    | (.raised error, s, fates) => (.raised error, s, fates)
    | (.stopped, s, fates) => (.stopped, s, fates) := rfl

theorem require_nil {condition : Prop} [Decidable condition] {error : ε} (h : condition) :
    (require condition error : Cuttable σ ε Unit) [] s = (.returned (), s, []) := by
  rw [require, if_pos h]
  rfl

theorem require_nil_not {condition : Prop} [Decidable condition] {error : ε} (h : ¬ condition) :
    (require condition error : Cuttable σ ε Unit) [] s = (.raised error, s, []) := by
  rw [require, if_neg h]
  rfl

end Cuttable

end Lib
end EosMesh
