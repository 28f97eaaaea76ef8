import EosMesh.Interfaces.Sessions.Roster
import EosMesh.Interfaces.Sessions.Sends

/-!
# Session ids in one table

The table of an instance goes by the local names of its sessions, the messages by session id.  Two
calls put an entry into the table, and neither looks for its id there: creating takes the id the
game chose, joining the id of what a search found.

* `Sessions.inserts` is the id of the entry a call puts in.
* `ids_unique` says that ids stay unique, and lookups by id find the one entry, while no call puts
  in an id that is there.
-/

set_option autoImplicit false

namespace EosMesh

open Lib
open Std (TreeMap)

namespace Sessions

variable {s s' : Sessions} {i : Input}

/-- The name and the id of the session `update_session` creates, if it creates one. -/
def creates (s : Sessions) (o : UpdateSessionOptions) (random : Option Bytes) :
    Option (Bytes × Bytes) :=
  (s.modifications.find o.sessionModificationHandle).bind fun object ↦
    let newId :=
      if object.infos.sessionId = [] then generateSessionId random else object.infos.sessionId
    if versionOk o.apiVersion sessionsApiLatest ∧ object.creating ∧
        s.findByName object.sessionName = none ∧ newId ≠ [] then some (object.sessionName, newId)
    else none

/-- The name and the id of the session `join_session` joins, if it joins one. -/
def joins (s : Sessions) (o : JoinSessionOptions) : Option (Bytes × Bytes) :=
  match o.sessionName, s.details.find o.sessionHandle, o.localUserId with
  | some name, some found, some _ =>
    if versionOk o.apiVersion joinSessionApiLatest ∧ name ≠ [] ∧ s.findByName name = none ∧
        joinable found then some (name, found.sessionId)
    else none
  | _, _, _ => none

/-- The name and the id of the entry a step puts into the table. -/
def inserts (s : Sessions) : Input → Option (Bytes × Bytes)
  | .call (.updateSession o random) => s.creates o random
  | .call (.joinSession o _ _) => s.joins o
  | _ => none

/-- The condition on a step: it puts in no id that is there. -/
def insertsAnew (s : Sessions) (i : Input) : Bool :=
  (s.inserts i).all fun inserted ↦ (s.findById inserted.2).isNone

/-- No two entries have one id. -/
def IdsUnique (s : Sessions) : Prop :=
  ∀ (name name' : Bytes) (entry entry' : Session), s.sessions[name]? = some entry →
    s.sessions[name']? = some entry' → entry.infos.sessionId = entry'.infos.sessionId → name = name'

theorem findById_eq_none {sessionId : Bytes} (h : s.findById sessionId = none) {name : Bytes}
    {entry : Session} (hentry : s.sessions[name]? = some entry) :
    entry.infos.sessionId ≠ sessionId := by
  rw [findById, List.find?_eq_none] at h
  simpa using h (name, entry) ((mem_toList_iff_lookup _ _ _).2 hentry)

/-- The id of an entry after a step: the id it had, or one the step put in. -/
theorem EntryStep.id {name : Bytes} {before : Option Session} {entry' : Session}
    (h : EntryStep s i name before (some entry')) (hbefore : s.sessions[name]? = before) :
    (∃ entry, before = some entry ∧ entry'.infos.sessionId = entry.infos.sessionId) ∨
      s.inserts i = some (name, entry'.infos.sessionId) := by
  generalize hafter : some entry' = after at h
  cases h with
  | same => exact .inl ⟨entry', hafter.symm, rfl⟩
  | @created o random object newId hobject hversion hcreating hid hne =>
    cases hafter
    refine .inr ?_
    rw [inserts, creates, hobject, Option.bind_some]
    dsimp only
    rw [← hid, if_pos ⟨hversion, hcreating, hbefore, hne⟩]
    rfl
  | @joining o now address name localUser found hname hfound huser hversion hne hjoinable =>
    cases hafter
    refine .inr ?_
    simp only [inserts, joins, hname, hfound, huser]
    rw [if_pos ⟨hversion, hne, hbefore, hjoinable⟩]
  | rewritten hreads hfound hcopy howner =>
    cases hafter
    exact .inl ⟨_, rfl, (lookup_of_findById hfound).2.symm⟩
  | _ => cases hafter <;> exact .inl ⟨_, rfl, rfl⟩

/-- A step that puts in no id that is there keeps ids unique. -/
theorem IdsUnique.step (hI : IdsUnique s) (hanew : s.insertsAnew i = true)
    (h : step s i = some s') : IdsUnique s' := by
  obtain ⟨gone, -, hentries⟩ := (tableStep_of_step h).entries
  -- What an entry was before the step.
  have hbefore (name : Bytes) (entry : Session) (hentry : s'.sessions[name]? = some entry) :
      (∃ old, s.sessions[name]? = some old ∧ entry.infos.sessionId = old.infos.sessionId) ∨
        s.inserts i = some (name, entry.infos.sessionId) := by
    obtain ⟨edited, hstep, hafter⟩ := hentries name
    rw [hafter, Option.map_eq_some_iff] at hentry
    obtain ⟨entry, rfl, rfl⟩ := hentry
    rw [Session.without_sessionId]
    exact hstep.id rfl
  have hnew (name : Bytes) (old : Session) (hold : s.sessions[name]? = some old)
      (name' : Bytes) : s.inserts i ≠ some (name', old.infos.sessionId) := fun hinserts ↦ by
    rw [insertsAnew, hinserts, Option.all_some, Option.isNone_iff_eq_none] at hanew
    exact findById_eq_none hanew hold rfl
  intro name name' entry entry' hentry hentry' hid
  rcases hbefore name entry hentry with ⟨old, hold, heq⟩ | hinserts
  · rcases hbefore name' entry' hentry' with ⟨old', hold', heq'⟩ | hinserts'
    · exact hI name name' old old' hold hold' (heq.symm.trans (hid.trans heq'))
    · rw [← hid, heq] at hinserts'
      exact absurd hinserts' (hnew name old hold name')
  · rcases hbefore name' entry' hentry' with ⟨old', hold', heq'⟩ | hinserts'
    · rw [hid, heq'] at hinserts
      exact absurd hinserts (hnew name' old' hold' name)
    · rw [hinserts, Option.some.injEq, Prod.mk.injEq] at hinserts'
      exact hinserts'.1

/-- **Ids are unique in one table**: in every run in which no call puts in an id that is there, two
entries of one id have one name, and a lookup by the id of an entry finds that entry. -/
theorem ids_unique {self product : Bytes}
    (h : Reaches Sessions.step (fun s i ↦ s.insertsAnew i = true) (fresh self product) s) :
    IdsUnique s ∧ ∀ (name : Bytes) (entry : Session), s.sessions[name]? = some entry →
      s.findById entry.infos.sessionId = some (name, entry) := by
  have hI : IdsUnique s := h.invariant
    (fun name name' entry entry' hentry ↦ by rw [lookup_fresh] at hentry; cases hentry)
    fun s₁ i s₂ hI hguard hstep ↦ hI.step hguard hstep
  refine ⟨hI, fun name entry hentry ↦ findById_eq_some_iff.2 ⟨hentry, rfl, ?_⟩⟩
  intro name' entry' hentry' hid
  rw [hI name' name entry' entry hentry' hentry hid, Std.ReflOrd.compare_self]
  exact fun hlt ↦ by cases hlt

/-- Two sessions of two names, under two ids. -/
theorem ids_unique_two : ∃ s entry entry', Reaches Sessions.step
      (fun s i ↦ s.insertsAnew i = true) (fresh [1] [9]) s ∧
    s.sessions[([5] : Bytes)]? = some entry ∧ s.sessions[([6] : Bytes)]? = some entry' ∧
    s.findById entry.infos.sessionId = some ([5], entry) ∧
    s.findById entry'.infos.sessionId = some ([6], entry') := by
  obtain ⟨s, h, hboth⟩ := exists_reaches Sessions.step (fun s i ↦ s.insertsAnew i = true)
    (fresh [1] [9])
    (fun s ↦ (s.sessions[([5] : Bytes)]?).isSome ∧ (s.sessions[([6] : Bytes)]?).isSome)
    [.call (stage [1] [5] 2), .call (commitTo 1), .call (stage [1] [6] 2),
      .call (.updateSession { apiVersion := 1, sessionModificationHandle := 2 }
        (some (List.replicate 16 8)))]
    (by decide +kernel) (by decide +kernel)
  obtain ⟨entry, hentry⟩ := Option.isSome_iff_exists.1 hboth.1
  obtain ⟨entry', hentry'⟩ := Option.isSome_iff_exists.1 hboth.2
  exact ⟨s, entry, entry', h, hentry, hentry', (ids_unique h).2 _ _ hentry,
    (ids_unique h).2 _ _ hentry'⟩

/-- Staging a session under an id of the game's choice. -/
def stageAs (self name sessionId : Bytes) : Call :=
  .createSessionModification
    { apiVersion := 3, sessionName := some name, bucketId := some [0], maxPlayers := 2
      localUserId := some self, sessionId := some sessionId, bSanctionsEnabled := 0 }

/-- One id given to two sessions. -/
theorem ids_clash : ∃ s, Reaches Sessions.step always (fresh [1] [9]) s ∧ ¬ IdsUnique s := by
  obtain ⟨s, h, hclash⟩ := exists_reaches Sessions.step always (fresh [1] [9])
    (fun s ↦ (s.sessions[([5] : Bytes)]?.map fun entry : Session ↦ entry.infos.sessionId) =
        some (List.replicate 16 3) ∧
      (s.sessions[([6] : Bytes)]?.map fun entry : Session ↦ entry.infos.sessionId) =
        some (List.replicate 16 3))
    [.call (stageAs [1] [5] (List.replicate 16 3)), .call (commitTo 1),
      .call (stageAs [1] [6] (List.replicate 16 3)), .call (commitTo 2)]
    (by decide +kernel) (meets_always _ _)
  obtain ⟨entry, hentry, hid⟩ := Option.map_eq_some_iff.1 hclash.1
  obtain ⟨entry', hentry', hid'⟩ := Option.map_eq_some_iff.1 hclash.2
  refine ⟨s, h, fun hunique ↦ ?_⟩
  exact absurd (hunique [5] [6] entry entry' hentry hentry' (hid.trans hid'.symm)) (by decide)

end Sessions
end EosMesh
