import Mathlib

/-!
# Ordered tables, looked up by equality

`std::map` is an ordered table; `Std.TreeMap` is one too, and states its lookups by `compare`.  For
keys whose order is a lawful one these are the same lookups by equality, which is the form the
proofs of this development use.

* `lookup_insert` and `lookup_erase` are the two updates, each with one `if`.
* `contains_iff_lookup`, `mem_keys_iff_lookup` and `mem_toList_iff_lookup` say what is in a table by
  its lookups.
* `fst_toList_insert` and `filterMap_flatten_toList` are about the listing of a table: a loop over
  it that concerns one key only meets that key's entry, once.
* `find?_toList_eq_some_iff`: the first entry of a kind, in the order of the table, is the one with
  the least key.
* The last section adds up over a table: a total over the entries is one over any keys that include
  theirs, and so two tables are compared key by key.
-/

set_option autoImplicit false

namespace EosMesh
namespace Lib

open Std (TreeMap)

variable {κ α : Type} [Ord κ] [DecidableEq κ] [Std.TransOrd κ] [Std.LawfulEqOrd κ]

theorem lookup_insert (t : TreeMap κ α) (k k' : κ) (v : α) :
    (t.insert k v)[k']? = if k = k' then some v else t[k']? := by
  rw [TreeMap.getElem?_insert]
  simp only [Std.LawfulEqCmp.compare_eq_iff_eq]

theorem lookup_erase (t : TreeMap κ α) (k k' : κ) :
    (t.erase k)[k']? = if k = k' then none else t[k']? := by
  rw [TreeMap.getElem?_erase]
  simp only [Std.LawfulEqCmp.compare_eq_iff_eq]

omit [DecidableEq κ] [Std.LawfulEqOrd κ] in
theorem contains_iff_lookup (t : TreeMap κ α) (k : κ) :
    t.contains k = true ↔ ∃ v, t[k]? = some v := by
  rw [TreeMap.contains_eq_isSome_getElem?, Option.isSome_iff_exists]

omit [DecidableEq κ] [Std.LawfulEqOrd κ] in
theorem not_contains_iff_lookup (t : TreeMap κ α) (k : κ) :
    t.contains k = false ↔ t[k]? = none := by
  rw [TreeMap.contains_eq_isSome_getElem?, Option.isSome_eq_false_iff, Option.isNone_iff_eq_none]

omit [DecidableEq κ] in
theorem mem_toList_iff_lookup (t : TreeMap κ α) (k : κ) (v : α) :
    (k, v) ∈ t.toList ↔ t[k]? = some v :=
  TreeMap.mem_toList_iff_getElem?_eq_some

omit [DecidableEq κ] in
theorem lookup_filter (t : TreeMap κ α) (f : κ → Bool) (k : κ) :
    (t.filter fun k _ ↦ f k)[k]? = if f k = true then t[k]? else none := by
  rw [TreeMap.getElem?_filter']
  cases t[k]? with
  | none => simp
  | some v => rfl

omit [DecidableEq κ] in
theorem mem_keys_iff_lookup (t : TreeMap κ α) (k : κ) : k ∈ t.keys ↔ ∃ v, t[k]? = some v := by
  rw [TreeMap.mem_keys, TreeMap.mem_iff_isSome_getElem?, Option.isSome_iff_exists]

/-- A new key is one more key. -/
theorem fst_toList_insert (t : TreeMap κ α) {k : κ} (hnew : t[k]? = none) (v : α) :
    ((t.insert k v).toList.map Prod.fst).Perm (k :: t.toList.map Prod.fst) := by
  have hkept (p : κ × α) (hp : p ∈ t.toList) : (decide ¬ (k == p.1) = true) = true := by
    have hne : k ≠ p.1 := by
      rintro rfl
      rw [(mem_toList_iff_lookup t p.1 p.2).1 hp] at hnew
      cases hnew
    simpa using hne
  have hperm := (TreeMap.toList_insert_perm (t := t) (k := k) (v := v)).map Prod.fst
  rwa [List.filter_eq_self.2 hkept] at hperm

omit [DecidableEq κ] in
/-- Reading a listing of the table for what concerns one key finds that key's entry, once. -/
theorem filterMap_flatten_toList {γ δ : Type} (t : TreeMap κ α) (f : κ × α → List γ)
    (g : γ → Option δ) (k : κ) (hother : ∀ p : κ × α, p.1 ≠ k → ∀ x ∈ f p, g x = none) :
    ((t.toList.map f).reverse.flatten).filterMap g =
      (t[k]?).elim [] fun v ↦ (f (k, v)).filterMap g := by
  have hnil : ∀ l : List (κ × α), (∀ p ∈ l, p.1 ≠ k) →
      ((l.map f).reverse.flatten).filterMap g = [] := by
    intro l hl
    rw [List.filterMap_eq_nil_iff]
    intro x hx
    obtain ⟨xs, hxs, hx⟩ := List.mem_flatten.1 hx
    obtain ⟨p, hp, rfl⟩ := List.mem_map.1 (List.mem_reverse.1 hxs)
    exact hother p (hl p hp) x hx
  cases hget : t[k]? with
  | none =>
    refine hnil _ fun p hp heq ↦ ?_
    have hsome := (mem_toList_iff_lookup t p.1 p.2).1 hp
    rw [heq, hget] at hsome
    cases hsome
  | some v =>
    obtain ⟨before, after, hsplit⟩ :=
      List.append_of_mem ((mem_toList_iff_lookup t k v).2 hget)
    have hdistinct := t.distinct_keys_toList
    rw [hsplit] at hdistinct
    obtain ⟨-, hafter, hbefore⟩ := List.pairwise_append.1 hdistinct
    have hbefore' : ∀ p ∈ before, p.1 ≠ k := by
      intro p hp heq
      exact hbefore p hp (k, v) List.mem_cons_self (Std.LawfulEqCmp.compare_eq_iff_eq.2 heq)
    have hafter' : ∀ p ∈ after, p.1 ≠ k := by
      intro p hp heq
      exact (List.pairwise_cons.1 hafter).1 p hp (Std.LawfulEqCmp.compare_eq_iff_eq.2 heq.symm)
    rw [hsplit, List.map_append, List.map_cons, List.reverse_append, List.reverse_cons,
      List.flatten_append, List.flatten_append, List.filterMap_append, List.filterMap_append,
      hnil _ hbefore', hnil _ hafter', List.flatten_singleton, List.nil_append, List.append_nil,
      Option.elim_some]

omit [DecidableEq κ] in
/-- The first entry of a kind is the one with the least key. -/
theorem find?_toList_eq_some_iff (t : TreeMap κ α) (p : κ × α → Bool) (k : κ) (v : α) :
    t.toList.find? p = some (k, v) ↔ t[k]? = some v ∧ p (k, v) = true ∧
      ∀ k' v', t[k']? = some v' → p (k', v') = true → compare k' k ≠ .lt := by
  have hordered : t.toList.Pairwise fun a b ↦ compare a.1 b.1 = .lt := t.ordered_keys_toList
  constructor
  · intro h
    obtain ⟨hp, before, after, hsplit, hbefore⟩ := List.find?_eq_some_iff_append.1 h
    refine ⟨(mem_toList_iff_lookup t k v).1 (List.mem_of_find?_eq_some h), hp, ?_⟩
    intro k' v' hk' hp' hlt
    have hmem := (mem_toList_iff_lookup t k' v').2 hk'
    rw [hsplit] at hmem hordered
    rcases List.mem_append.1 hmem with hin | hin
    · simpa [hp'] using hbefore _ hin
    · rcases List.mem_cons.1 hin with heq | hin
      · rw [Prod.mk.injEq] at heq
        rw [heq.1, Std.ReflOrd.compare_self] at hlt
        cases hlt
      · have hgt := (List.pairwise_cons.1 (List.pairwise_append.1 hordered).2.1).1 _ hin
        rw [Std.OrientedOrd.eq_swap, hgt] at hlt
        cases hlt
  · rintro ⟨hk, hp, hleast⟩
    obtain ⟨before, after, hsplit⟩ := List.append_of_mem ((mem_toList_iff_lookup t k v).2 hk)
    refine List.find?_eq_some_iff_append.2 ⟨hp, before, after, hsplit, fun q hq ↦ ?_⟩
    rw [hsplit] at hordered
    have hlt := (List.pairwise_append.1 hordered).2.2 q hq (k, v) List.mem_cons_self
    have hlookup : t[q.1]? = some q.2 := by
      rw [← mem_toList_iff_lookup, hsplit]
      exact List.mem_append_left _ hq
    by_contra hpq
    exact hleast q.1 q.2 hlookup (by simpa using hpq) hlt

/-! ## Totals -/

section Total

variable (w : α → ℕ)

/-- The weight of the entry under a key, if there is one. -/
def weightAt (t : TreeMap κ α) (k : κ) : ℕ := (t[k]?).elim 0 w

/-- The weight of all entries. -/
def total (t : TreeMap κ α) : ℕ := (t.toList.map fun entry ↦ w entry.2).sum

variable {w}

/-- A total is a sum over any keys that include those of the table. -/
theorem total_eq_sum (t : TreeMap κ α) (S : Finset κ) (hS : ∀ k ∈ t.keys, k ∈ S) :
    total w t = ∑ k ∈ S, weightAt w t k := by
  have hkeys : t.keys.Nodup := by
    have hdistinct := t.distinct_keys
    exact hdistinct.imp fun h heq ↦ h (Std.LawfulEqCmp.compare_eq_iff_eq.2 heq)
  have hlist : total w t = (t.keys.map (weightAt w t)).sum := by
    rw [total, ← TreeMap.map_fst_toList_eq_keys, List.map_map]
    congr 1
    refine List.map_congr_left fun entry hentry ↦ ?_
    have hlookup := (mem_toList_iff_lookup t entry.1 entry.2).1 hentry
    rw [Function.comp_apply, weightAt, hlookup]
    rfl
  rw [hlist, ← List.sum_toFinset (weightAt w t) hkeys]
  refine Finset.sum_subset (fun k hk ↦ hS k (List.mem_toFinset.1 hk)) fun k _ hk ↦ ?_
  have hnone : t[k]? = none := by
    by_contra hsome
    obtain ⟨v, hv⟩ := Option.ne_none_iff_exists'.1 hsome
    exact hk (List.mem_toFinset.2 ((mem_keys_iff_lookup t k).2 ⟨v, hv⟩))
  rw [weightAt, hnone]
  rfl

variable {t t' : TreeMap κ α}

/-- Where every key weighs no more, the total is no more. -/
theorem total_le_total (h : ∀ k, weightAt w t' k ≤ weightAt w t k) : total w t' ≤ total w t := by
  rw [total_eq_sum t (t.keys.toFinset ∪ t'.keys.toFinset) (by simp +contextual),
    total_eq_sum t' (t.keys.toFinset ∪ t'.keys.toFinset) (by simp +contextual)]
  exact Finset.sum_le_sum fun k _ ↦ h k

/-- Where one key weighs more by `n` and every other the same, so does the total. -/
theorem total_add {k : κ} {n : ℕ} (hk : weightAt w t' k = weightAt w t k + n)
    (h : ∀ k', k ≠ k' → weightAt w t' k' = weightAt w t k') : total w t' = total w t + n := by
  have hkey : k ∈ insert k (t.keys.toFinset ∪ t'.keys.toFinset) := Finset.mem_insert_self _ _
  rw [total_eq_sum t (insert k (t.keys.toFinset ∪ t'.keys.toFinset)) (by simp +contextual),
    total_eq_sum t' (insert k (t.keys.toFinset ∪ t'.keys.toFinset)) (by simp +contextual),
    ← Finset.add_sum_erase _ _ hkey, ← Finset.add_sum_erase _ _ hkey, hk,
    Finset.sum_congr rfl fun k' hk' ↦ h k' (Finset.ne_of_mem_erase hk').symm]
  exact add_right_comm _ _ _

end Total

end Lib
end EosMesh
