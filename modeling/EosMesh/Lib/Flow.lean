import Mathlib

/-!
# What goes through a buffer

A writer puts blocks into a buffer, and whoever drains it takes what it likes from the front.
A `Flow` keeps account of both: what the buffer held at first, the blocks put in since, and
what was taken out.

* `Flow.Balances` says that nothing got lost, repeated or out of order on the way: what was taken,
  and what is left, make up what was there and what was put in.
* `Balances.put` and `Balances.take` are the rules for the two things that can happen.
-/

set_option autoImplicit false

namespace EosMesh
namespace Lib

/-- What a buffer began with, what was put into it, and what was taken of it. -/
structure Flow (α : Type) where
  inherited : List α := []
  /-- The blocks put in, the oldest first. -/
  queued : List (List α) := []
  accepted : List α := []
  deriving DecidableEq, Repr

namespace Flow

variable {α : Type} {f : Flow α} {buffer rest taken : List α}

/-- A block is put in at the end. -/
def put (f : Flow α) (block : List α) : Flow α := { f with queued := f.queued ++ [block] }

/-- Some of the front is taken. -/
def take (f : Flow α) (taken : List α) : Flow α := { f with accepted := f.accepted ++ taken }

/-- What was taken, and then the buffer, are what was inherited, and then what was put in. -/
def Balances (f : Flow α) (buffer : List α) : Prop :=
  f.accepted ++ buffer = f.inherited ++ f.queued.flatten

theorem balances_inherited (buffer : List α) : Balances { inherited := buffer } buffer := by
  simp [Balances]

theorem Balances.put (h : f.Balances buffer) (block : List α) :
    (f.put block).Balances (buffer ++ block) := by
  rw [Balances] at h
  simp [Balances, Flow.put, ← List.append_assoc, h]

theorem Balances.take (h : f.Balances buffer) (hsplit : taken ++ rest = buffer) :
    (f.take taken).Balances rest := by
  rw [← hsplit, Balances, ← List.append_assoc] at h
  exact h

end Flow
end Lib
end EosMesh
