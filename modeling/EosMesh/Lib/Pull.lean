import Mathlib

/-!
# Pulling items off a stream that arrives in pieces

A receiver keeps a buffer.  Whatever arrives goes to its end, and then items are pulled off its
front until there is no whole one left, or until one is refused, which is the end of the stream.

* `Steady pull` says that a decision is not revised when more arrives: an item stays that item, and
  what was refused stays refused.
* `arrive_flatten` is the result: for a steady `pull`, how a stream is cut into pieces is
  immaterial.
-/

set_option autoImplicit false

namespace EosMesh
namespace Lib

variable {σ α : Type}

/-- What pulling at a buffer finds. -/
inductive Pull (σ α : Type)
  | more
  | item (a : α) (rest : List σ)
  | refuse

/-- What was pulled so far, and what waits for more to arrive. -/
structure Pulled (σ α : Type) where
  items : List α := []
  buffer : List σ := []
  refused : Bool := false
  deriving DecidableEq, Repr

/-- Pull until nothing more comes; what is refused is cleared.  The first argument bounds the number
of items, and a buffer's length is always enough (`pullAll_stable`). -/
def pullAll (pull : List σ → Pull σ α) : Nat → List σ → Pulled σ α
  | 0, buffer => { buffer }
  | fuel + 1, buffer =>
    match pull buffer with
    | .more => { buffer }
    | .refuse => { refused := true }
    | .item a rest =>
      let later := pullAll pull fuel rest
      { later with items := a :: later.items }

/-- A piece of the stream arrives. -/
def Pulled.arrive (pull : List σ → Pull σ α) (p : Pulled σ α) (piece : List σ) : Pulled σ α :=
  if p.refused then p
  else
    let later := pullAll pull (p.buffer ++ piece).length (p.buffer ++ piece)
    { later with items := p.items ++ later.items }

/-- An item takes something off the buffer, and what is decided of a buffer stays so when it
grows. -/
structure Steady (pull : List σ → Pull σ α) : Prop where
  nil : pull [] = .more
  shorter : ∀ {buffer rest a}, pull buffer = .item a rest → rest.length < buffer.length
  item : ∀ {buffer rest a}, pull buffer = .item a rest → ∀ more,
    pull (buffer ++ more) = .item a (rest ++ more)
  refuse : ∀ {buffer}, pull buffer = .refuse → ∀ more, pull (buffer ++ more) = .refuse

variable {pull : List σ → Pull σ α}

/-- More rounds than bytes change nothing. -/
theorem pullAll_stable (h : Steady pull) {fuel fuel' : Nat} {buffer : List σ}
    (hfuel : buffer.length ≤ fuel) (hfuel' : buffer.length ≤ fuel') :
    pullAll pull fuel buffer = pullAll pull fuel' buffer := by
  have hnil (fuel : Nat) : pullAll pull fuel [] = {} := by
    cases fuel with
    | zero => rfl
    | succ fuel => rw [pullAll, h.nil]
  induction fuel generalizing fuel' buffer with
  | zero =>
    obtain rfl : buffer = [] := List.length_eq_zero_iff.1 (by omega)
    rw [hnil, hnil]
  | succ fuel ih =>
    cases fuel' with
    | zero =>
      obtain rfl : buffer = [] := List.length_eq_zero_iff.1 (by omega)
      rw [hnil, hnil]
    | succ fuel' =>
      rw [pullAll, pullAll]
      cases hp : pull buffer with
      | more => rfl
      | refuse => rfl
      | item a rest =>
        have hshorter := h.shorter hp
        have hsame : pullAll pull fuel rest = pullAll pull fuel' rest := ih (by omega) (by omega)
        dsimp only
        rw [hsame]

/-- All that can be pulled off a buffer. -/
def pulled (pull : List σ → Pull σ α) (buffer : List σ) : Pulled σ α :=
  pullAll pull buffer.length buffer

theorem pulled_of_more {buffer : List σ} (h : Steady pull) (hp : pull buffer = .more) :
    pulled pull buffer = { buffer } := by
  rw [pulled, pullAll_stable h le_rfl (Nat.le_succ _), pullAll, hp]

theorem pulled_of_refuse {buffer : List σ} (h : Steady pull) (hp : pull buffer = .refuse) :
    pulled pull buffer = { refused := true } := by
  rw [pulled, pullAll_stable h le_rfl (Nat.le_succ _), pullAll, hp]

theorem pulled_of_item {buffer rest : List σ} {a : α} (h : Steady pull)
    (hp : pull buffer = .item a rest) :
    pulled pull buffer = { pulled pull rest with items := a :: (pulled pull rest).items } := by
  have hshorter := h.shorter hp
  rw [pulled, pullAll_stable h le_rfl (Nat.le_succ _), pullAll, hp]
  dsimp only
  rw [pullAll_stable h hshorter.le le_rfl]
  rfl

/-- Pulling first, and going on once more has arrived, comes to pulling once it has. -/
theorem pulled_append (h : Steady pull) (buffer more : List σ) :
    pulled pull (buffer ++ more) = (pulled pull buffer).arrive pull more := by
  induction hn : buffer.length using Nat.strong_induction_on generalizing buffer with
  | _ n ih =>
    subst hn
    cases hp : pull buffer with
    | more => rw [pulled_of_more h hp, Pulled.arrive, pulled]; rfl
    | refuse =>
      rw [pulled_of_refuse h hp, pulled_of_refuse h (h.refuse hp more), Pulled.arrive, if_pos rfl]
    | item a rest =>
      rw [pulled_of_item h hp, pulled_of_item h (h.item hp more),
        ih rest.length (h.shorter hp) rest rfl, Pulled.arrive, Pulled.arrive]
      dsimp only
      split <;> rfl

/-- **How a stream is cut into pieces is immaterial.** -/
theorem arrive_flatten (h : Steady pull) (pieces : List (List σ)) :
    pieces.foldl (Pulled.arrive pull) {} = pulled pull pieces.flatten := by
  induction pieces using List.reverseRecOn with
  | nil => rw [List.foldl_nil, List.flatten_nil, pulled_of_more h h.nil]
  | append_singleton pieces piece ih =>
    rw [List.foldl_append, ih, List.flatten_append, pulled_append h]
    simp

end Lib
end EosMesh
