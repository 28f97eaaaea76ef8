import Mathlib

/-!
# Arithmetic that must not overflow

A machine's integer type holds the integers between two bounds.  `IntType.arith` is the result of an
operation computed in such a type, or an overflow; a computation in which none happens is the one
without the checks.
-/

set_option autoImplicit false

namespace EosMesh
namespace Lib

/-- An integer type of a machine. -/
structure IntType where
  least : Int
  greatest : Int

/-- The two types of 64 bits. -/
def IntType.i64 : IntType := ⟨-2 ^ 63, 2 ^ 63 - 1⟩

def IntType.u64 : IntType := ⟨0, 2 ^ 64 - 1⟩

/-- The number is one of the type. -/
def IntType.Holds (t : IntType) (x : Int) : Prop := t.least ≤ x ∧ x ≤ t.greatest

instance (t : IntType) (x : Int) : Decidable (t.Holds x) := inferInstanceAs (Decidable (_ ∧ _))

/-- The one way to fail. -/
inductive Overflow
  | overflow
  deriving DecidableEq, Repr

/-- A computation that ends when something overflows. -/
abbrev Checked (α : Type) : Type := Except Overflow α

/-- A result, if the type holds it. -/
def IntType.arith (t : IntType) (x : Int) : Checked Int :=
  if t.Holds x then .ok x else .error .overflow

theorem IntType.i64_holds {x : Int} (h : -2 ^ 63 ≤ x) (h' : x ≤ 2 ^ 63 - 1) :
    IntType.i64.Holds x := ⟨h, h'⟩

theorem IntType.u64_holds {x : Int} (h : 0 ≤ x) (h' : x ≤ 2 ^ 64 - 1) : IntType.u64.Holds x :=
  ⟨h, h'⟩

variable {t : IntType} {x : Int} {α : Type}

theorem IntType.arith_eq (h : t.Holds x) : t.arith x = .ok x := if_pos h

theorem IntType.arith_bind (h : t.Holds x) (f : Int → Checked α) : (t.arith x >>= f) = f x := by
  rw [t.arith_eq h]
  rfl

end Lib
end EosMesh
