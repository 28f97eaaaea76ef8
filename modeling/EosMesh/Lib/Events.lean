import Mathlib

/-!
# Documents as trees, and as events

A document is a tree of arrays and objects over some scalars; a streaming producer gives it as a
sequence of events.  An `Assembly` is a document as far as some events have told it: the containers
that are open, outermost last, each with what is complete inside it.

* `Slot` is an open container that waits for the value being told, so an assembly that has a value
  in a place where none belongs cannot be built.
* `step_events`: an assembly knows exactly the events that built it.
* `run_events`: the events of a tree fill the place the assembly is at with that tree.
* `assemble_eq_complete_iff`: events are a complete document exactly when they are its events.
-/

set_option autoImplicit false

namespace EosMesh
namespace Lib

/-- A document. -/
inductive Tree (κ σ : Type) where
  | scalar (value : σ)
  | array (elements : List (Tree κ σ))
  | object (members : List (κ × Tree κ σ))

/-- What a producer tells, one after the other. -/
inductive Event (κ σ : Type) where
  | scalar (value : σ)
  | beginArray
  | endArray
  | beginObject
  | endObject
  | key (name : κ)
  deriving DecidableEq

variable {κ σ : Type}

mutual

/-- The events that tell a document. -/
def Tree.events : Tree κ σ → List (Event κ σ)
  | .scalar value => [.scalar value]
  | .array elements => .beginArray :: (elementEvents elements ++ [.endArray])
  | .object members => .beginObject :: (memberEvents members ++ [.endObject])

/-- The events of the elements, one after the other. -/
def elementEvents : List (Tree κ σ) → List (Event κ σ)
  | [] => []
  | element :: elements => element.events ++ elementEvents elements

/-- Each member gives its key, and then its value. -/
def memberEvents : List (κ × Tree κ σ) → List (Event κ σ)
  | [] => []
  | (name, value) :: members => .key name :: (value.events ++ memberEvents members)

end

theorem elementEvents_concat (elements : List (Tree κ σ)) (element : Tree κ σ) :
    elementEvents (elements ++ [element]) = elementEvents elements ++ element.events := by
  induction elements with
  | nil => simp [elementEvents]
  | cons first elements ih =>
    rw [List.cons_append, elementEvents, ih, elementEvents, List.append_assoc]

theorem memberEvents_concat (members : List (κ × Tree κ σ)) (name : κ) (value : Tree κ σ) :
    memberEvents (members ++ [(name, value)]) =
      memberEvents members ++ .key name :: value.events := by
  induction members with
  | nil => simp [memberEvents]
  | cons first members ih =>
    obtain ⟨name', value'⟩ := first
    rw [List.cons_append, memberEvents, ih, memberEvents, List.cons_append, List.append_assoc]

theorem memberEvents_append (members members' : List (κ × Tree κ σ)) :
    memberEvents (members ++ members') = memberEvents members ++ memberEvents members' := by
  induction members with
  | nil => rfl
  | cons first members ih =>
    obtain ⟨name, value⟩ := first
    rw [List.cons_append, memberEvents, ih, memberEvents, List.cons_append, List.append_assoc]

/-! ## What a document holds -/

mutual

/-- No object has a key twice, at any level. -/
def Tree.UniqueKeys : Tree κ σ → Prop
  | .scalar _ => True
  | .array elements => uniqueElements elements
  | .object members => (members.map Prod.fst).Nodup ∧ uniqueMembers members

/-- In none of the elements does a key stand twice in one object. -/
def uniqueElements : List (Tree κ σ) → Prop
  | [] => True
  | element :: elements => element.UniqueKeys ∧ uniqueElements elements

/-- In none of the values does a key stand twice in one object. -/
def uniqueMembers : List (κ × Tree κ σ) → Prop
  | [] => True
  | (_, value) :: members => value.UniqueKeys ∧ uniqueMembers members

end

theorem uniqueMembers_iff {members : List (κ × Tree κ σ)} :
    uniqueMembers members ↔ ∀ member ∈ members, member.2.UniqueKeys := by
  induction members with
  | nil => simp [uniqueMembers]
  | cons first members ih =>
    obtain ⟨name, value⟩ := first
    rw [uniqueMembers, ih, List.forall_mem_cons]

mutual

/-- Every key and every scalar, at any level, is of some kind. -/
def Tree.Holds (K : κ → Prop) (S : σ → Prop) : Tree κ σ → Prop
  | .scalar value => S value
  | .array elements => holdsElements K S elements
  | .object members => holdsMembers K S members

/-- Every key and every scalar of the elements is as asked. -/
def holdsElements (K : κ → Prop) (S : σ → Prop) : List (Tree κ σ) → Prop
  | [] => True
  | element :: elements => element.Holds K S ∧ holdsElements K S elements

/-- Every key and every scalar of the members is as asked. -/
def holdsMembers (K : κ → Prop) (S : σ → Prop) : List (κ × Tree κ σ) → Prop
  | [] => True
  | (name, value) :: members => K name ∧ value.Holds K S ∧ holdsMembers K S members

end

theorem holdsMembers_iff {K : κ → Prop} {S : σ → Prop} {members : List (κ × Tree κ σ)} :
    holdsMembers K S members ↔ ∀ member ∈ members, K member.1 ∧ member.2.Holds K S := by
  induction members with
  | nil => simp [holdsMembers]
  | cons first members ih =>
    obtain ⟨name, value⟩ := first
    rw [holdsMembers, ih, List.forall_mem_cons, and_assoc]

section Map

variable {κ' σ' : Type} (f : κ → κ') (g : σ → σ')

mutual

/-- A document with other keys and scalars in the same places. -/
def Tree.map : Tree κ σ → Tree κ' σ'
  | .scalar value => .scalar (g value)
  | .array elements => .array (mapElements elements)
  | .object members => .object (mapMembers members)

/-- Each element, mapped. -/
def mapElements : List (Tree κ σ) → List (Tree κ' σ')
  | [] => []
  | element :: elements => element.map :: mapElements elements

/-- Each member, its key and its value mapped. -/
def mapMembers : List (κ × Tree κ σ) → List (κ' × Tree κ' σ')
  | [] => []
  | (name, value) :: members => (f name, value.map) :: mapMembers members

end

theorem mapMembers_append (members members' : List (κ × Tree κ σ)) :
    mapMembers f g (members ++ members') = mapMembers f g members ++ mapMembers f g members' := by
  induction members with
  | nil => rfl
  | cons first members ih =>
    obtain ⟨name, value⟩ := first
    rw [List.cons_append, mapMembers, ih, mapMembers, List.cons_append]

end Map

section Fixed

variable {f : κ → κ} {g : σ → σ} {K : κ → Prop} {S : σ → Prop}

mutual

/-- A document whose keys and scalars stay as they are stays as it is. -/
theorem Tree.map_of_holds (hkeys : ∀ name, K name → f name = name)
    (hscalars : ∀ value, S value → g value = value) {tree : Tree κ σ} (h : tree.Holds K S) :
    tree.map f g = tree := by
  match tree with
  | .scalar value => rw [Tree.map, hscalars value h]
  | .array elements => rw [Tree.map, mapElements_of_holds hkeys hscalars h]
  | .object members => rw [Tree.map, mapMembers_of_holds hkeys hscalars h]

theorem mapElements_of_holds (hkeys : ∀ name, K name → f name = name)
    (hscalars : ∀ value, S value → g value = value) {elements : List (Tree κ σ)}
    (h : holdsElements K S elements) : mapElements f g elements = elements := by
  match elements with
  | [] => rfl
  | element :: elements =>
    obtain ⟨helement, hrest⟩ := h
    rw [mapElements, Tree.map_of_holds hkeys hscalars helement,
      mapElements_of_holds hkeys hscalars hrest]

theorem mapMembers_of_holds (hkeys : ∀ name, K name → f name = name)
    (hscalars : ∀ value, S value → g value = value) {members : List (κ × Tree κ σ)}
    (h : holdsMembers K S members) : mapMembers f g members = members := by
  match members with
  | [] => rfl
  | (name, value) :: members =>
    obtain ⟨hname, hvalue, hrest⟩ := h
    rw [mapMembers, hkeys name hname, Tree.map_of_holds hkeys hscalars hvalue,
      mapMembers_of_holds hkeys hscalars hrest]

end

end Fixed

/-! ## Assemblies -/

/-- An open container, with what is complete inside it and the key of the value it waits for. -/
inductive Slot (κ σ : Type) where
  | array (elements : List (Tree κ σ))
  | object (members : List (κ × Tree κ σ)) (name : κ)

/-- A document as far as it has been told. -/
inductive Assembly (κ σ : Type) where
  /-- Nothing has been told. -/
  | empty
  /-- Inside an array: an element comes next, or its end. -/
  | inArray (elements : List (Tree κ σ)) (outer : List (Slot κ σ))
  /-- Inside an object: a key comes next, or its end. -/
  | inObject (members : List (κ × Tree κ σ)) (outer : List (Slot κ σ))
  /-- Behind a key: its value comes next. -/
  | atValue (members : List (κ × Tree κ σ)) (name : κ) (outer : List (Slot κ σ))
  /-- The document is complete. -/
  | complete (tree : Tree κ σ)

namespace Assembly

/-- Where a value would go, if one may come now. -/
def slots : Assembly κ σ → Option (List (Slot κ σ))
  | .empty => some []
  | .inArray elements outer => some (.array elements :: outer)
  | .inObject _ _ => none
  | .atValue members name outer => some (.object members name :: outer)
  | .complete _ => none

/-- A value is complete, in its place. -/
def fill : List (Slot κ σ) → Tree κ σ → Assembly κ σ
  | [], tree => .complete tree
  | .array elements :: outer, tree => .inArray (elements ++ [tree]) outer
  | .object members name :: outer, tree => .inObject (members ++ [(name, tree)]) outer

/-- One more event, if it may stand there. -/
def step (s : Assembly κ σ) : Event κ σ → Option (Assembly κ σ)
  | .scalar value => s.slots.map (fill · (.scalar value))
  | .beginArray => s.slots.map (.inArray [])
  | .beginObject => s.slots.map (.inObject [])
  | .endArray =>
    match s with
    | .inArray elements outer => some (fill outer (.array elements))
    | _ => none
  | .endObject =>
    match s with
    | .inObject members outer => some (fill outer (.object members))
    | _ => none
  | .key name =>
    match s with
    | .inObject members outer => some (.atValue members name outer)
    | _ => none

end Assembly

/-- What the events tell, if each of them has its place. -/
def assemble (events : List (Event κ σ)) : Option (Assembly κ σ) :=
  events.foldlM Assembly.step .empty

theorem assemble_concat (events : List (Event κ σ)) (event : Event κ σ) :
    assemble (events ++ [event]) = (assemble events).bind (·.step event) := by
  rw [assemble, List.foldlM_append]
  exact bind_congr fun s ↦ bind_pure (Assembly.step s event)

/-! ## An assembly knows its events -/

/-- The events up to the value a slot waits for. -/
def Slot.events : Slot κ σ → List (Event κ σ)
  | .array elements => .beginArray :: elementEvents elements
  | .object members name => .beginObject :: (memberEvents members ++ [.key name])

/-- The events up to the innermost slot's value. -/
def slotEvents : List (Slot κ σ) → List (Event κ σ)
  | [] => []
  | slot :: outer => slotEvents outer ++ slot.events

namespace Assembly

/-- The events told so far. -/
def events : Assembly κ σ → List (Event κ σ)
  | .empty => []
  | .inArray elements outer => slotEvents outer ++ .beginArray :: elementEvents elements
  | .inObject members outer => slotEvents outer ++ .beginObject :: memberEvents members
  | .atValue members name outer => slotEvents (.object members name :: outer)
  | .complete tree => tree.events

theorem events_of_slots {s : Assembly κ σ} {slots : List (Slot κ σ)} (h : s.slots = some slots) :
    s.events = slotEvents slots := by
  cases s <;> cases h <;> rfl

theorem events_fill (slots : List (Slot κ σ)) (tree : Tree κ σ) :
    (fill slots tree).events = slotEvents slots ++ tree.events := by
  rcases slots with _ | ⟨slot, outer⟩
  · rfl
  · cases slot with
    | array elements =>
      rw [fill, events, elementEvents_concat, slotEvents, Slot.events, List.append_assoc,
        List.cons_append]
    | object members name =>
      rw [fill, events, memberEvents_concat, slotEvents, Slot.events]
      simp only [List.append_assoc, List.cons_append, List.nil_append]

/-- A step adds the event it was for. -/
theorem step_events {s s' : Assembly κ σ} {event : Event κ σ} (h : s.step event = some s') :
    s'.events = s.events ++ [event] := by
  cases event with
  | scalar value =>
    obtain ⟨slots, hslots, rfl⟩ := Option.map_eq_some_iff.1 h
    rw [events_fill, events_of_slots hslots, Tree.events]
  | beginArray =>
    obtain ⟨slots, hslots, rfl⟩ := Option.map_eq_some_iff.1 h
    rw [events_of_slots hslots, events, elementEvents]
  | beginObject =>
    obtain ⟨slots, hslots, rfl⟩ := Option.map_eq_some_iff.1 h
    rw [events_of_slots hslots, events, memberEvents]
  | endArray =>
    cases s with
    | inArray elements outer =>
      cases h
      rw [events_fill, events, Tree.events, List.append_assoc, List.cons_append]
    | _ => cases h
  | endObject =>
    cases s with
    | inObject members outer =>
      cases h
      rw [events_fill, events, Tree.events, List.append_assoc, List.cons_append]
    | _ => cases h
  | key name =>
    cases s with
    | inObject members outer =>
      cases h
      rw [events, events, slotEvents, Slot.events, List.append_assoc, List.cons_append]
    | _ => cases h

end Assembly

theorem events_of_assemble {events : List (Event κ σ)} {s : Assembly κ σ}
    (h : assemble events = some s) : s.events = events := by
  induction events using List.reverseRecOn generalizing s with
  | nil =>
    cases h
    rfl
  | append_singleton events event ih =>
    rw [assemble_concat] at h
    obtain ⟨s', hs', hstep⟩ := Option.bind_eq_some_iff.1 h
    rw [Assembly.step_events hstep, ih hs']

/-! ## The events of a tree assemble it -/

mutual

theorem run_events (tree : Tree κ σ) {s : Assembly κ σ} {slots : List (Slot κ σ)}
    (h : s.slots = some slots) :
    tree.events.foldlM Assembly.step s = some (Assembly.fill slots tree) := by
  match tree with
  | .scalar value =>
    rw [Tree.events, List.foldlM_cons, Assembly.step, h]
    rfl
  | .array elements =>
    rw [Tree.events, List.foldlM_cons, Assembly.step, h]
    change (elementEvents elements ++ [Event.endArray]).foldlM Assembly.step (.inArray [] slots) = _
    rw [List.foldlM_append, run_elementEvents elements [] slots]
    rfl
  | .object members =>
    rw [Tree.events, List.foldlM_cons, Assembly.step, h]
    change (memberEvents members ++ [Event.endObject]).foldlM Assembly.step (.inObject [] slots) = _
    rw [List.foldlM_append, run_memberEvents members [] slots]
    rfl

theorem run_elementEvents (rest before : List (Tree κ σ)) (outer : List (Slot κ σ)) :
    (elementEvents rest).foldlM Assembly.step (.inArray before outer) =
      some (.inArray (before ++ rest) outer) := by
  match rest with
  | [] => rw [List.append_nil]; rfl
  | element :: rest =>
    have helement := run_events element
      (show (Assembly.inArray before outer).slots = some (.array before :: outer) from rfl)
    rw [elementEvents, List.foldlM_append, helement]
    change (elementEvents rest).foldlM Assembly.step (.inArray (before ++ [element]) outer) = _
    rw [run_elementEvents rest (before ++ [element]) outer, List.append_assoc,
      List.singleton_append]

theorem run_memberEvents (rest before : List (κ × Tree κ σ)) (outer : List (Slot κ σ)) :
    (memberEvents rest).foldlM Assembly.step (.inObject before outer) =
      some (.inObject (before ++ rest) outer) := by
  match rest with
  | [] => rw [List.append_nil]; rfl
  | (name, value) :: rest =>
    have hvalue := run_events value (show (Assembly.atValue before name outer).slots =
      some (.object before name :: outer) from rfl)
    rw [memberEvents, List.foldlM_cons]
    change (value.events ++ memberEvents rest).foldlM Assembly.step (.atValue before name outer) = _
    rw [List.foldlM_append, hvalue]
    change (memberEvents rest).foldlM Assembly.step
      (.inObject (before ++ [(name, value)]) outer) = _
    rw [run_memberEvents rest (before ++ [(name, value)]) outer, List.append_assoc,
      List.singleton_append]

end

/-- **A complete document is told by its events, and by no others.** -/
theorem assemble_eq_complete_iff {events : List (Event κ σ)} {tree : Tree κ σ} :
    assemble events = some (.complete tree) ↔ events = tree.events := by
  constructor
  · intro h
    exact (events_of_assemble h).symm
  · rintro rfl
    exact run_events tree (show Assembly.empty.slots = some [] from rfl)

end Lib
end EosMesh
