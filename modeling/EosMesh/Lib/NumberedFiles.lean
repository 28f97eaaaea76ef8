import Mathlib

/-!
# A directory of numbered files

Files have numbers for names.  An operation reports whether it worked; `faults` says which of the
next ones do not.

* `shiftUp_of_faultless`: renaming a chain of files from its top moves each up by one, and no rename
  lands on a file that has yet to move.
-/

set_option autoImplicit false

namespace EosMesh
namespace Lib

/-- What the files hold, and whether each of the next operations fails; past the end of the
list they work. -/
structure NumberedFiles (α : Type) where
  file : Nat → Option (List α) := fun _ ↦ none
  faults : List Bool := []

namespace NumberedFiles

variable {α : Type} (d : NumberedFiles α)

/-- An operation that works, unless it is to fail or has nothing to work on. -/
def attempt (file : Option (Nat → Option (List α))) : Bool × NumberedFiles α :=
  match d.faults.head?, file with
  | some true, _ => (false, { d with faults := d.faults.tail })
  | _, none => (false, { d with faults := d.faults.tail })
  | _, some file => (true, { file, faults := d.faults.tail })

/-- A new file; one that exists is left alone. -/
def create (k : Nat) : Bool × NumberedFiles α :=
  d.attempt (if (d.file k).isSome then none else some (Function.update d.file k (some [])))

/-- More at the end of a file, which need not exist. -/
def append (k : Nat) (bytes : List α) : Bool × NumberedFiles α :=
  d.attempt (some (Function.update d.file k (some ((d.file k).getD [] ++ bytes))))

/-- A file is removed, if it exists. -/
def remove (k : Nat) : Bool × NumberedFiles α :=
  d.attempt (some (Function.update d.file k none))

/-- A file gets another number, and replaces what had it. -/
def rename (source target : Nat) : Bool × NumberedFiles α :=
  d.attempt ((d.file source).map fun content ↦
    Function.update (Function.update d.file source none) target (some content))

/-- The files `n`, …, `1` are renamed to the number above, in this order. -/
def shiftUp : Nat → NumberedFiles α → Bool × NumberedFiles α
  | 0, d => (true, d)
  | n + 1, d =>
    match d.rename (n + 1) (n + 2) with
    | (false, d) => (false, d)
    | (true, d) => shiftUp n d

variable {d}

theorem attempt_of_faultless (h : d.faults = []) (file : Nat → Option (List α)) :
    d.attempt (some file) = (true, { file }) := by
  simp only [attempt, h, List.head?_nil, List.tail_nil]

theorem of_create {d' : NumberedFiles α} {k : Nat} (h : d.faults = [])
    (hcreate : d.create k = (true, d')) :
    d'.faults = [] ∧ d'.file k = some [] ∧ ∀ j, j ≠ k → d'.file j = d.file j := by
  rw [create] at hcreate
  split at hcreate
  · simp [attempt, h] at hcreate
  · rw [attempt_of_faultless h] at hcreate
    cases hcreate
    exact ⟨rfl, Function.update_self k _ d.file, fun _ hj ↦ Function.update_of_ne hj _ _⟩

theorem append_of_faultless (h : d.faults = []) (k : Nat) (bytes : List α) :
    ∃ d', d.append k bytes = (true, d') ∧ d'.faults = [] ∧
      d'.file k = some ((d.file k).getD [] ++ bytes) ∧ ∀ j, j ≠ k → d'.file j = d.file j :=
  ⟨_, attempt_of_faultless h _, rfl, Function.update_self k _ d.file,
    fun _ hj ↦ Function.update_of_ne hj _ _⟩

theorem remove_of_faultless (h : d.faults = []) (k : Nat) :
    ∃ d', d.remove k = (true, d') ∧ d'.faults = [] ∧ d'.file k = none ∧
      ∀ j, j ≠ k → d'.file j = d.file j :=
  ⟨_, attempt_of_faultless h _, rfl, Function.update_self k _ d.file,
    fun _ hj ↦ Function.update_of_ne hj _ _⟩

theorem rename_of_faultless (h : d.faults = []) {source target : Nat} {content : List α}
    (hsource : d.file source = some content) (hne : source ≠ target) :
    ∃ d', d.rename source target = (true, d') ∧ d'.faults = [] ∧ d'.file source = none ∧
      d'.file target = some content ∧ ∀ j, j ≠ source → j ≠ target → d'.file j = d.file j := by
  rw [rename, hsource, Option.map_some]
  refine ⟨_, attempt_of_faultless h _, rfl, ?_, Function.update_self target _ _,
    fun j hj hj' ↦ ?_⟩
  · exact (Function.update_of_ne hne _ _).trans (Function.update_self source _ d.file)
  · exact (Function.update_of_ne hj' _ _).trans (Function.update_of_ne hj _ d.file)

/-- **A chain of files moves up** by one. -/
theorem shiftUp_of_faultless (n : Nat) {d : NumberedFiles α} (h : d.faults = [])
    (hchain : ∀ k < n, (d.file (k + 1)).isSome) :
    ∃ d', shiftUp n d = (true, d') ∧ d'.faults = [] ∧ d'.file 0 = d.file 0 ∧
      (∀ k < n, d'.file (k + 2) = d.file (k + 1)) ∧
      ∀ k, n < k → d'.file (k + 1) = d.file (k + 1) := by
  induction n generalizing d with
  | zero => exact ⟨d, rfl, h, rfl, fun k hk ↦ absurd hk (Nat.not_lt_zero k), fun _ _ ↦ rfl⟩
  | succ n ih =>
    obtain ⟨content, hcontent⟩ := Option.isSome_iff_exists.1 (hchain n (Nat.lt_succ_self n))
    obtain ⟨d₁, hrename, hfaults₁, -, htop, hsame⟩ :=
      rename_of_faultless h hcontent (Nat.succ_ne_self (n + 1)).symm
    obtain ⟨d', hshift, hfaults, hbase, hmoved, hrest⟩ := ih hfaults₁ fun k hk ↦ by
      rw [hsame (k + 1) (by omega) (by omega)]
      exact hchain k (by omega)
    refine ⟨d', ?_, hfaults, hbase.trans (hsame 0 (by omega) (by omega)), fun k hk ↦ ?_,
      fun k hk ↦ ?_⟩
    · rw [shiftUp, hrename]
      exact hshift
    · rcases Nat.lt_succ_iff_lt_or_eq.1 hk with hlt | rfl
      · rw [hmoved k hlt, hsame (k + 1) (by omega) (by omega)]
      · rw [hrest (k + 1) (Nat.lt_succ_self k), htop, hcontent]
    · rw [hrest k (by omega), hsame (k + 1) (by omega) (by omega)]

end NumberedFiles

end Lib
end EosMesh
