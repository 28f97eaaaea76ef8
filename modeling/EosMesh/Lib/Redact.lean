import Mathlib

/-!
# Redaction of nested documents

A document is an object whose members have keys, an array, or a leaf.  `redact drop f` leaves out
the members whose key is dropped, at every depth, and rewrites the leaves that remain.

* `keys` and `leaves` are what is left of a document, at any depth, once the members of some keys
  are left out; `keys_redact` and `leaves_redact` say what redaction makes of them.
* `redact_eq_self`: a document in which no key is dropped and every leaf stays is its own redaction.
-/

set_option autoImplicit false

namespace EosMesh
namespace Lib

/-- Lists and records of leaves, to any depth. -/
inductive Nested (κ α : Type)
  | leaf (a : α)
  | array (elements : List (Nested κ α))
  | object (members : List (κ × Nested κ α))

namespace Nested

variable {κ α : Type}

mutual

/-- Members under a dropped key go, and the leaves of what is left are seen to. -/
def redact (drop : κ → Bool) (f : α → α) : Nested κ α → Nested κ α
  | .leaf a => .leaf (f a)
  | .array elements => .array (redactElements drop f elements)
  | .object members => .object (redactMembers drop f members)

/-- Each element, redacted. -/
def redactElements (drop : κ → Bool) (f : α → α) : List (Nested κ α) → List (Nested κ α)
  | [] => []
  | element :: elements => redact drop f element :: redactElements drop f elements

/-- Each member that stays, its value redacted. -/
def redactMembers (drop : κ → Bool) (f : α → α) :
    List (κ × Nested κ α) → List (κ × Nested κ α)
  | [] => []
  | (key, value) :: members =>
    if drop key then redactMembers drop f members
    else (key, redact drop f value) :: redactMembers drop f members

end

mutual

/-- The keys at any depth, those that are dropped and all within them left out. -/
def keys (drop : κ → Bool) : Nested κ α → List κ
  | .leaf _ => []
  | .array elements => keysElements drop elements
  | .object members => keysMembers drop members

/-- The keys of the elements. -/
def keysElements (drop : κ → Bool) : List (Nested κ α) → List κ
  | [] => []
  | element :: elements => keys drop element ++ keysElements drop elements

/-- The keys of the members that stay, and of their values. -/
def keysMembers (drop : κ → Bool) : List (κ × Nested κ α) → List κ
  | [] => []
  | (key, value) :: members =>
    if drop key then keysMembers drop members
    else key :: keys drop value ++ keysMembers drop members

end

mutual

/-- The leaves at any depth, those under a key that is dropped left out. -/
def leaves (drop : κ → Bool) : Nested κ α → List α
  | .leaf a => [a]
  | .array elements => leavesElements drop elements
  | .object members => leavesMembers drop members

/-- The leaves of the elements. -/
def leavesElements (drop : κ → Bool) : List (Nested κ α) → List α
  | [] => []
  | element :: elements => leaves drop element ++ leavesElements drop elements

/-- The leaves of the members that stay. -/
def leavesMembers (drop : κ → Bool) : List (κ × Nested κ α) → List α
  | [] => []
  | (key, value) :: members =>
    if drop key then leavesMembers drop members
    else leaves drop value ++ leavesMembers drop members

end

/-- No key is dropped. -/
def keepAll : κ → Bool := fun _ ↦ false

theorem keysMembers_keepAll (key : κ) (value : Nested κ α) (members : List (κ × Nested κ α)) :
    keysMembers keepAll ((key, value) :: members) =
      key :: (keys keepAll value ++ keysMembers keepAll members) := rfl

theorem leavesMembers_keepAll (key : κ) (value : Nested κ α)
    (members : List (κ × Nested κ α)) :
    leavesMembers keepAll ((key, value) :: members) =
      leaves keepAll value ++ leavesMembers keepAll members := rfl

/-! ## What redaction leaves -/

variable (drop : κ → Bool) (f : α → α)

mutual

/-- **The keys that are left** are those that were not dropped. -/
theorem keys_redact : ∀ d : Nested κ α, (redact drop f d).keys keepAll = d.keys drop
  | .leaf _ => rfl
  | .array elements => keysElements_redact elements
  | .object members => keysMembers_redact members

theorem keysElements_redact : ∀ elements : List (Nested κ α),
    keysElements keepAll (redactElements drop f elements) = keysElements drop elements
  | [] => rfl
  | element :: elements => by
    rw [redactElements, keysElements, keysElements, keys_redact element,
      keysElements_redact elements]

theorem keysMembers_redact : ∀ members : List (κ × Nested κ α),
    keysMembers keepAll (redactMembers drop f members) = keysMembers drop members
  | [] => rfl
  | (key, value) :: members => by
    rw [redactMembers, keysMembers]
    split
    · exact keysMembers_redact members
    · rw [keysMembers_keepAll, keys_redact value, keysMembers_redact members, List.cons_append]

end

mutual

/-- **The leaves that are left** are rewritten, one by one. -/
theorem leaves_redact : ∀ d : Nested κ α,
    (redact drop f d).leaves keepAll = (d.leaves drop).map f
  | .leaf _ => rfl
  | .array elements => leavesElements_redact elements
  | .object members => leavesMembers_redact members

theorem leavesElements_redact : ∀ elements : List (Nested κ α),
    leavesElements keepAll (redactElements drop f elements) =
      (leavesElements drop elements).map f
  | [] => rfl
  | element :: elements => by
    rw [redactElements, leavesElements, leavesElements, List.map_append, leaves_redact element,
      leavesElements_redact elements]

theorem leavesMembers_redact : ∀ members : List (κ × Nested κ α),
    leavesMembers keepAll (redactMembers drop f members) = (leavesMembers drop members).map f
  | [] => rfl
  | (key, value) :: members => by
    rw [redactMembers, leavesMembers]
    split
    · exact leavesMembers_redact members
    · rw [leavesMembers_keepAll, List.map_append, leaves_redact value,
        leavesMembers_redact members]

end

variable {drop f}

mutual

/-- No key that is left is dropped. -/
theorem drop_of_mem_keys {key : κ} : ∀ d : Nested κ α, key ∈ d.keys drop → drop key = false
  | .leaf _, h => nomatch h
  | .array elements, h => drop_of_mem_keysElements elements h
  | .object members, h => drop_of_mem_keysMembers members h

theorem drop_of_mem_keysElements {key : κ} : ∀ elements : List (Nested κ α),
    key ∈ keysElements drop elements → drop key = false
  | [], h => nomatch h
  | element :: elements, h => by
    rw [keysElements, List.mem_append] at h
    exact h.elim (drop_of_mem_keys element) (drop_of_mem_keysElements elements)

theorem drop_of_mem_keysMembers {key : κ} : ∀ members : List (κ × Nested κ α),
    key ∈ keysMembers drop members → drop key = false
  | [], h => nomatch h
  | (name, value) :: members, h => by
    rw [keysMembers] at h
    split at h
    · exact drop_of_mem_keysMembers members h
    · rename_i hkept
      rw [List.cons_append, List.mem_cons, List.mem_append] at h
      rcases h with rfl | h | h
      · exact Bool.eq_false_of_not_eq_true hkept
      · exact drop_of_mem_keys value h
      · exact drop_of_mem_keysMembers members h

end

mutual

/-- **What redaction does not change.** -/
theorem redact_eq_self : ∀ d : Nested κ α, (∀ key ∈ d.keys keepAll, drop key = false) →
    (∀ a ∈ d.leaves keepAll, f a = a) → redact drop f d = d
  | .leaf a, _, hleaves => by rw [redact, hleaves a List.mem_cons_self]
  | .array elements, hkeys, hleaves => by
    rw [redact, redactElements_eq_self elements hkeys hleaves]
  | .object members, hkeys, hleaves => by
    rw [redact, redactMembers_eq_self members hkeys hleaves]

theorem redactElements_eq_self : ∀ elements : List (Nested κ α),
    (∀ key ∈ keysElements keepAll elements, drop key = false) →
    (∀ a ∈ leavesElements keepAll elements, f a = a) → redactElements drop f elements = elements
  | [], _, _ => rfl
  | element :: elements, hkeys, hleaves => by
    rw [keysElements, List.forall_mem_append] at hkeys
    rw [leavesElements, List.forall_mem_append] at hleaves
    rw [redactElements, redact_eq_self element hkeys.1 hleaves.1,
      redactElements_eq_self elements hkeys.2 hleaves.2]

theorem redactMembers_eq_self : ∀ members : List (κ × Nested κ α),
    (∀ key ∈ keysMembers keepAll members, drop key = false) →
    (∀ a ∈ leavesMembers keepAll members, f a = a) → redactMembers drop f members = members
  | [], _, _ => rfl
  | (key, value) :: members, hkeys, hleaves => by
    rw [keysMembers_keepAll, List.forall_mem_cons, List.forall_mem_append] at hkeys
    rw [leavesMembers_keepAll, List.forall_mem_append] at hleaves
    obtain ⟨hkey, hvalue, hmembers⟩ := hkeys
    rw [redactMembers, hkey, if_neg Bool.false_ne_true, redact_eq_self value hvalue hleaves.1,
      redactMembers_eq_self members hmembers hleaves.2]

end

end Nested
end Lib
end EosMesh
