import EosMesh.Interfaces.Lobby.Operations
import EosMesh.Lib.Least

/-!
# Who inherits a lobby

Every survivor runs `elect_owner` on a roster of its own, and the rosters may be ordered
differently. The loop ends with the least id but for the leaving one, so they agree.

* `heirs` is who may inherit.
* `electOwner_isLeastOf`: the loop, with what it has seen as the list the least is of.
* `electOwner_least` is the election as a whole.
-/

set_option autoImplicit false

namespace EosMesh

open Lib

/-- The ids a lobby may pass to when `leaving` goes. -/
def heirs (members : List LobbyMember) (leaving : Bytes) : List Bytes :=
  (members.map (·.userId)).filter (· ≠ leaving)

variable {members members' : List LobbyMember} {leaving : Bytes}

theorem heirs_eq_nil_iff : heirs members leaving = [] ↔ ∀ m ∈ members, m.userId = leaving := by
  simp [heirs, List.filter_eq_nil_iff]

/-- One more member is one more heir, or the leaving one. -/
theorem heirs_concat (members : List LobbyMember) (member : LobbyMember) (leaving : Bytes) :
    heirs (members ++ [member]) leaving =
      if member.userId = leaving then heirs members leaving
      else heirs members leaving ++ [member.userId] := by
  rw [heirs, List.map_append, List.filter_append, heirs]
  by_cases h : member.userId = leaving <;> simp [h]

/-- The loop holds nothing while nobody may inherit, and then the least heir so far. -/
theorem electOwner_isLeastOf (hne : ∀ m ∈ members, m.userId ≠ []) :
    heirs members leaving = [] ∧ electOwner members leaving = [] ∨
      IsLeastOf (heirs members leaving) (electOwner members leaving) := by
  induction members using List.reverseRecOn with
  | nil => exact .inl ⟨rfl, rfl⟩
  | append_singleton members member ih =>
    have hid : member.userId ≠ [] := hne member (by simp)
    have hbefore := ih fun m hm ↦ hne m (List.mem_append_left _ hm)
    have hround : electOwner (members ++ [member]) leaving =
        if member.userId = leaving then electOwner members leaving
        else if electOwner members leaving = [] ∨
          compare member.userId (electOwner members leaving) = .lt then member.userId
        else electOwner members leaving := by
      rw [electOwner, List.foldl_append]
      rfl
    rw [hround, heirs_concat]
    by_cases hleaving : member.userId = leaving
    · rw [if_pos hleaving, if_pos hleaving]
      exact hbefore
    · rw [if_neg hleaving, if_neg hleaving]
      right
      rcases hbefore with ⟨hnone, hempty⟩ | hleast
      · rw [if_pos (.inl hempty), hnone]
        exact isLeastOf_singleton _
      · have hheld : electOwner members leaving ≠ [] := by
          obtain ⟨m, hm, hmid⟩ := List.mem_map.1 (List.mem_of_mem_filter hleast.1)
          rw [← hmid]
          exact hne m (List.mem_append_left _ hm)
        by_cases hlt : compare member.userId (electOwner members leaving) = .lt
        · rw [if_pos (.inr hlt)]
          exact hleast.take hlt
        · rw [if_neg (not_or.2 ⟨hheld, hlt⟩)]
          exact hleast.keep hlt

/-- The heir depends on who the members are, not on their order or number. -/
theorem electOwner_eq_of_same (hne : ∀ m ∈ members, m.userId ≠ [])
    (hsame : ∀ id, id ∈ members'.map (·.userId) ↔ id ∈ members.map (·.userId)) :
    electOwner members' leaving = electOwner members leaving := by
  have hne' : ∀ m ∈ members', m.userId ≠ [] := by
    intro m hm hempty
    obtain ⟨m', hm', hid⟩ := List.mem_map.1 ((hsame m.userId).1 (List.mem_map_of_mem hm))
    exact hne m' hm' (hid.trans hempty)
  have hheirs : ∀ id, id ∈ heirs members' leaving ↔ id ∈ heirs members leaving := by
    intro id
    rw [heirs, heirs, List.mem_filter, List.mem_filter, hsame]
  rcases @electOwner_isLeastOf _ leaving hne with ⟨hnone, hempty⟩ | hleast
  · have hnone' : heirs members' leaving = [] := by
      refine List.eq_nil_iff_forall_not_mem.2 fun id hid ↦ ?_
      have hmem := (hheirs id).1 hid
      rw [hnone] at hmem
      cases hmem
    rcases @electOwner_isLeastOf _ leaving hne' with ⟨-, hempty'⟩ | hleast'
    · rw [hempty, hempty']
    · have hmem := hleast'.1
      rw [hnone'] at hmem
      cases hmem
  · rcases @electOwner_isLeastOf _ leaving hne' with ⟨hnone', -⟩ | hleast'
    · have hmem := (hheirs _).2 hleast.1
      rw [hnone'] at hmem
      cases hmem
    · exact hleast'.eq_of_same hleast hheirs

/-- **The election**: the least id but for the leaving one, nobody exactly when there is none, and
the same for the members in any order. -/
theorem electOwner_least (members : List LobbyMember) (leaving : Bytes)
    (hne : ∀ m ∈ members, m.userId ≠ []) :
    (heirs members leaving ≠ [] →
      IsLeastOf (heirs members leaving) (electOwner members leaving)) ∧
    (electOwner members leaving = [] ↔ ∀ m ∈ members, m.userId = leaving) ∧
    ∀ members' : List LobbyMember, members'.Perm members →
      electOwner members' leaving = electOwner members leaving := by
  refine ⟨fun hsome ↦ ?_, ?_, fun members' hperm ↦ ?_⟩
  · exact (electOwner_isLeastOf hne).resolve_left fun h ↦ hsome h.1
  · rw [← heirs_eq_nil_iff]
    rcases @electOwner_isLeastOf _ leaving hne with ⟨hnone, hempty⟩ | hleast
    · exact iff_of_true hempty hnone
    · refine iff_of_false (fun hempty ↦ ?_) (List.ne_nil_of_mem hleast.1)
      obtain ⟨m, hm, hid⟩ := List.mem_map.1 (List.mem_of_mem_filter hleast.1)
      exact hne m hm (hid.trans hempty)
  · exact electOwner_eq_of_same hne fun id ↦ (hperm.map _).mem_iff

/-- Three members, two of them the leaving one. -/
theorem electOwner_least_two :
    let members : List LobbyMember := [{ userId := [1] }, { userId := [3] }, { userId := [1] }]
    (heirs members [1] ≠ [] → IsLeastOf (heirs members [1]) (electOwner members [1])) ∧
    (electOwner members [1] = [] ↔ ∀ m ∈ members, m.userId = [1]) ∧
    ∀ members' : List LobbyMember, members'.Perm members →
      electOwner members' [1] = electOwner members [1] :=
  electOwner_least _ _ (by decide)

end EosMesh
