import Mathlib

/-!
# Deliveries in rounds

Items are added for their owners, and wait in line.  A round picks some of what waits and later
fires what it picked, one after the other; an owner that leaves drops its line.  Several rounds may
go on at once, also on the line of one owner: a round that begins while another has picked a part of
a line goes on with the rest of it.

* `Delivery` has the lines, and what each round has yet to fire; `log` is what happened.  The items
  are numbered as they are added, so the order of an owner's items is the order of their numbers.
* `Move` is what may happen.  A round picks the items of one owner in their order, and what it picks
  it fires in the order it picked it.
* What is claimed of the deliveries is claimed of the log alone: `addedItem`, `pickedItem` and
  `firedItem` read it, `picksOf` and `firesOf` by round and owner, and `Dropped` says that an owner
  left after an item was added for it.
* `Good` is what the moves keep, and `Good.move` that they do.

By `Good.fired_nodup` an item is fired once at most, by `Good.still_there` it is not lost unless its
owner leaves, and by `Good.fires_sorted` a round fires in order.  There is nothing of time in it:
when an item may be picked is for the one who uses this to say.
-/

set_option autoImplicit false

namespace EosMesh
namespace Lib

/-- What happened. -/
inductive DeliveryEvent (κ : Type) where
  | added (item : Nat) (owner : κ)
  | dropped (owner : κ)
  | picked (round : Nat) (owner : κ) (item : Nat)
  | fired (round : Nat) (owner : κ) (item : Nat)
  deriving DecidableEq, Repr

/-- Queues of items, those picked for the round under way, and all that happened to them. -/
@[ext] structure Delivery (κ : Type) where
  waiting : κ → List Nat
  ready : Nat → List (κ × Nat)
  next : Nat
  log : List (DeliveryEvent κ)

namespace Delivery

variable {κ : Type}

/-! ## Reading the log -/

/-- The item that an event adds. -/
def addedItem : DeliveryEvent κ → Option Nat
  | .added item _ => some item
  | _ => none

/-- The item that an event picks. -/
def pickedItem : DeliveryEvent κ → Option Nat
  | .picked _ _ item => some item
  | _ => none

/-- The item that an event fires. -/
def firedItem : DeliveryEvent κ → Option Nat
  | .fired _ _ item => some item
  | _ => none

/-- What a round picked. -/
def pickedIn (round : Nat) : DeliveryEvent κ → Option (κ × Nat)
  | .picked r owner item => if r = round then some (owner, item) else none
  | _ => none

/-- What a round fired. -/
def firedIn (round : Nat) : DeliveryEvent κ → Option (κ × Nat)
  | .fired r owner item => if r = round then some (owner, item) else none
  | _ => none

/-- The items of one owner. -/
def itemsOf [DecidableEq κ] (owner : κ) (list : List (κ × Nat)) : List Nat :=
  list.filterMap fun p ↦ if p.1 = owner then some p.2 else none

/-- What a round picked of an owner's items. -/
def picksOf [DecidableEq κ] (log : List (DeliveryEvent κ)) (round : Nat) (owner : κ) : List Nat :=
  itemsOf owner (log.filterMap (pickedIn round))

/-- What a round fired of an owner's items. -/
def firesOf [DecidableEq κ] (log : List (DeliveryEvent κ)) (round : Nat) (owner : κ) : List Nat :=
  itemsOf owner (log.filterMap (firedIn round))

/-- The owner left after an item was added for it. -/
def Dropped (log : List (DeliveryEvent κ)) (item : Nat) (owner : κ) : Prop :=
  ∃ before after, log = before ++ .added item owner :: after ∧ .dropped owner ∈ after

theorem Dropped.append {log : List (DeliveryEvent κ)} {item : Nat} {owner : κ}
    (h : Dropped log item owner) (more : List (DeliveryEvent κ)) :
    Dropped (log ++ more) item owner := by
  obtain ⟨before, after, rfl, hdropped⟩ := h
  exact ⟨before, after ++ more, by simp, List.mem_append_left _ hdropped⟩

theorem Dropped.of_mem {log more : List (DeliveryEvent κ)} {item : Nat} {owner : κ}
    (hadded : .added item owner ∈ log) (hdropped : .dropped owner ∈ more) :
    Dropped (log ++ more) item owner := by
  obtain ⟨before, after, rfl⟩ := List.append_of_mem hadded
  exact ⟨before, after ++ more, by simp, List.mem_append_right _ hdropped⟩

/-! ## Moves -/

variable [DecidableEq κ]

/-- What may happen. -/
inductive Move (m : Delivery κ) : Delivery κ → Prop
  | still : Move m m
  | add (owner : κ) : Move m
      { m with
        waiting := Function.update m.waiting owner (m.waiting owner ++ [m.next])
        next := m.next + 1
        log := m.log ++ [.added m.next owner] }
  | drop (owners : List κ) : Move m
      { m with
        waiting := fun owner ↦ if owner ∈ owners then [] else m.waiting owner
        log := m.log ++ owners.map .dropped }
  | pick (round : Nat) (owner : κ) (item : Nat) (before after : List Nat)
      (hitem : m.waiting owner = before ++ item :: after)
      (hpast : ∀ y ∈ picksOf m.log round owner, y < item) : Move m
      { m with
        waiting := Function.update m.waiting owner (before ++ after)
        ready := Function.update m.ready round (m.ready round ++ [(owner, item)])
        log := m.log ++ [.picked round owner item] }
  | fire (round : Nat) (owner : κ) (item : Nat) (rest : List (κ × Nat))
      (hready : m.ready round = (owner, item) :: rest) : Move m
      { m with
        ready := Function.update m.ready round rest
        log := m.log ++ [.fired round owner item] }

/-- What the moves keep. -/
structure Good (m : Delivery κ) : Prop where
  numbered : m.log.filterMap addedItem = List.range m.next
  sorted : ∀ owner, (m.waiting owner).Pairwise (· < ·)
  waits : ∀ owner, ∀ item ∈ m.waiting owner,
    .added item owner ∈ m.log ∧ item ∉ m.log.filterMap pickedItem
  picked_added : ∀ round owner item, .picked round owner item ∈ m.log → .added item owner ∈ m.log
  picked_nodup : (m.log.filterMap pickedItem).Nodup
  fired_nodup : (m.log.filterMap firedItem).Nodup
  picks_sorted : ∀ round owner, (picksOf m.log round owner).Pairwise (· < ·)
  split : ∀ round, m.log.filterMap (pickedIn round) =
    m.log.filterMap (firedIn round) ++ m.ready round
  kept : ∀ owner item, .added item owner ∈ m.log →
    item ∈ m.waiting owner ∨ (∃ round, .picked round owner item ∈ m.log) ∨
      Dropped m.log item owner

/-! ## What the moves keep -/

omit [DecidableEq κ] in
theorem mem_pickedIn {log : List (DeliveryEvent κ)} {round item : Nat} {owner : κ} :
    (owner, item) ∈ log.filterMap (pickedIn round) ↔ .picked round owner item ∈ log := by
  rw [List.mem_filterMap]
  constructor
  · rintro ⟨event, hevent, hpicked⟩
    cases event with
    | picked r o x =>
      rw [pickedIn] at hpicked
      split at hpicked
      · rename_i hround
        cases hpicked
        exact hround ▸ hevent
      · cases hpicked
    | _ => cases hpicked
  · exact fun h ↦ ⟨_, h, if_pos rfl⟩

omit [DecidableEq κ] in
theorem mem_firedIn {log : List (DeliveryEvent κ)} {round item : Nat} {owner : κ} :
    (owner, item) ∈ log.filterMap (firedIn round) ↔ .fired round owner item ∈ log := by
  rw [List.mem_filterMap]
  constructor
  · rintro ⟨event, hevent, hfired⟩
    cases event with
    | fired r o x =>
      rw [firedIn] at hfired
      split at hfired
      · rename_i hround
        cases hfired
        exact hround ▸ hevent
      · cases hfired
    | _ => cases hfired
  · exact fun h ↦ ⟨_, h, if_pos rfl⟩

theorem mem_picksOf {log : List (DeliveryEvent κ)} {round item : Nat} {owner : κ} :
    item ∈ picksOf log round owner ↔ .picked round owner item ∈ log := by
  rw [← mem_pickedIn, picksOf, itemsOf, List.mem_filterMap]
  constructor
  · rintro ⟨⟨o, x⟩, hpicked, hitem⟩
    dsimp only at hitem
    split at hitem
    · rename_i howner
      cases hitem
      exact howner ▸ hpicked
    · cases hitem
  · exact fun h ↦ ⟨_, h, if_pos rfl⟩

theorem picksOf_concat_picked (log : List (DeliveryEvent κ)) (round round' item : Nat)
    (owner owner' : κ) : picksOf (log ++ [.picked round owner item]) round' owner' =
      picksOf log round' owner' ++ if round = round' ∧ owner = owner' then [item] else [] := by
  by_cases hround : round = round' <;> by_cases howner : owner = owner' <;>
    simp [picksOf, itemsOf, pickedIn, hround, howner]

/-- What is in a list once is what it is mapped from. -/
theorem eq_of_filterMap_nodup {α β : Type} {f : α → Option β} {list : List α}
    (h : (list.filterMap f).Nodup) {a b : α} (ha : a ∈ list) (hb : b ∈ list) {x : β}
    (hax : f a = some x) (hbx : f b = some x) : a = b := by
  induction list with
  | nil => cases ha
  | cons first list ih =>
    rw [List.filterMap_cons] at h
    rcases List.mem_cons.1 ha with hfirst | hrest
    · rcases List.mem_cons.1 hb with hfirst' | hrest'
      · rw [hfirst, hfirst']
      · rw [← hfirst, hax] at h
        exact absurd (List.mem_filterMap.2 ⟨b, hrest', hbx⟩) (List.nodup_cons.1 h).1
    · rcases List.mem_cons.1 hb with hfirst' | hrest'
      · rw [← hfirst', hbx] at h
        exact absurd (List.mem_filterMap.2 ⟨a, hrest, hax⟩) (List.nodup_cons.1 h).1
      · cases hfirst : f first with
        | none =>
          rw [hfirst] at h
          exact ih h hrest hrest'
        | some y =>
          rw [hfirst] at h
          exact ih (List.nodup_cons.1 h).2 hrest hrest'

variable {m m' : Delivery κ}

namespace Good

theorem lt_next (h : m.Good) {item : Nat} {owner : κ} (hadded : .added item owner ∈ m.log) :
    item < m.next := by
  have hmem : item ∈ m.log.filterMap addedItem := List.mem_filterMap.2 ⟨_, hadded, rfl⟩
  rw [h.numbered] at hmem
  exact List.mem_range.1 hmem

/-- An item is added for one owner only. -/
theorem owner_unique (h : m.Good) {item : Nat} {owner owner' : κ}
    (hadded : .added item owner ∈ m.log) (hadded' : .added item owner' ∈ m.log) :
    owner = owner' := by
  have hnodup : (m.log.filterMap addedItem).Nodup := h.numbered ▸ List.nodup_range
  have heq := eq_of_filterMap_nodup hnodup hadded hadded' rfl rfl
  cases heq
  rfl

theorem waiting_lt (h : m.Good) {item : Nat} {owner : κ} (hitem : item ∈ m.waiting owner) :
    item < m.next :=
  h.lt_next (h.waits owner item hitem).1

theorem picked_lt (h : m.Good) {item : Nat} (hitem : item ∈ m.log.filterMap pickedItem) :
    item < m.next := by
  obtain ⟨event, hevent, hpicked⟩ := List.mem_filterMap.1 hitem
  cases event with
  | picked round owner x =>
    cases hpicked
    exact h.lt_next (h.picked_added round owner _ hevent)
  | _ => cases hpicked

omit [DecidableEq κ] in
/-- What is no pick leaves the picks as they are. -/
theorem picks_append (log : List (DeliveryEvent κ)) {more : List (DeliveryEvent κ)}
    (hmore : ∀ event ∈ more, ∀ round owner item, event ≠ .picked round owner item) :
    (log ++ more).filterMap pickedItem = log.filterMap pickedItem ∧
      (∀ round, (log ++ more).filterMap (pickedIn round) = log.filterMap (pickedIn round)) ∧
      ∀ round owner item, .picked round owner item ∈ log ++ more ↔
        .picked round owner item ∈ log := by
  have hnone {β : Type} {f : DeliveryEvent κ → Option β}
      (hf : ∀ event, (∀ round owner item, event ≠ .picked round owner item) → f event = none) :
      (log ++ more).filterMap f = log.filterMap f := by
    have hnil : more.filterMap f = [] :=
      List.filterMap_eq_nil_iff.2 fun event hevent ↦ hf event (hmore event hevent)
    rw [List.filterMap_append, hnil, List.append_nil]
  refine ⟨hnone fun event hevent ↦ ?_, fun round ↦ hnone fun event hevent ↦ ?_,
    fun round owner item ↦ ?_⟩
  · cases event with
    | picked round owner item => exact absurd rfl (hevent round owner item)
    | _ => rfl
  · cases event with
    | picked round owner item => exact absurd rfl (hevent round owner item)
    | _ => rfl
  · rw [List.mem_append, or_iff_left fun hin ↦ hmore _ hin round owner item rfl]

/-- A move that picks nothing keeps what is known of the picks. -/
theorem of_same_picks (h : m.Good) (more : List (DeliveryEvent κ)) (hlog : m'.log = m.log ++ more)
    (hmore : ∀ event ∈ more, ∀ round owner item, event ≠ .picked round owner item)
    (hnumbered : m'.log.filterMap addedItem = List.range m'.next)
    (hsorted : ∀ owner, (m'.waiting owner).Pairwise (· < ·))
    (hwaits : ∀ owner, ∀ item ∈ m'.waiting owner,
      .added item owner ∈ m'.log ∧ item ∉ m.log.filterMap pickedItem)
    (hsplit : ∀ round, m.log.filterMap (pickedIn round) =
      m'.log.filterMap (firedIn round) ++ m'.ready round)
    (hfired : (m'.log.filterMap firedItem).Nodup)
    (hkept : ∀ owner item, .added item owner ∈ m'.log →
      item ∈ m'.waiting owner ∨ (∃ round, .picked round owner item ∈ m.log) ∨
        Dropped m'.log item owner) : m'.Good := by
  obtain ⟨hitems, hrounds, hmem⟩ := picks_append m.log hmore
  rw [← hlog] at hitems hrounds hmem
  refine ⟨hnumbered, hsorted, fun owner item hitem ↦ ?_, fun round owner item hpicked ↦ ?_, ?_,
    hfired, fun round owner ↦ ?_, fun round ↦ ?_, fun owner item hadded ↦ ?_⟩
  · rw [hitems]
    exact hwaits owner item hitem
  · rw [hlog]
    exact List.mem_append_left _
      (h.picked_added round owner item ((hmem round owner item).1 hpicked))
  · rw [hitems]
    exact h.picked_nodup
  · rw [picksOf, hrounds]
    exact h.picks_sorted round owner
  · rw [hrounds]
    exact hsplit round
  · refine (hkept owner item hadded).imp_right fun hrest ↦ hrest.imp_left ?_
    exact fun ⟨round, hpicked⟩ ↦ ⟨round, (hmem round owner item).2 hpicked⟩

theorem added (h : m.Good) (owner : κ) : Good
    { m with
      waiting := Function.update m.waiting owner (m.waiting owner ++ [m.next])
      next := m.next + 1
      log := m.log ++ [.added m.next owner] } := by
  refine h.of_same_picks [.added m.next owner] rfl (by simp) ?_ (fun o ↦ ?_)
    (fun o item hitem ↦ ?_) (fun round ↦ ?_) ?_ fun o item hadded ↦ ?_
  · simp [h.numbered, addedItem, List.range_succ]
  · dsimp only
    by_cases ho : o = owner
    · subst ho
      rw [Function.update_self, List.pairwise_append]
      refine ⟨h.sorted o, List.pairwise_singleton _ _, fun y hy z hz ↦ ?_⟩
      rw [List.mem_singleton.1 hz]
      exact h.waiting_lt hy
    · rw [Function.update_of_ne ho]
      exact h.sorted o
  · have hold (hitem : item ∈ m.waiting o) : .added item o ∈ m.log ++ [.added m.next owner] ∧
        item ∉ m.log.filterMap pickedItem :=
      ⟨List.mem_append_left _ (h.waits o item hitem).1, (h.waits o item hitem).2⟩
    dsimp only at hitem
    by_cases ho : o = owner
    · subst ho
      rw [Function.update_self] at hitem
      rcases List.mem_append.1 hitem with hitem | hitem
      · exact hold hitem
      · rw [List.mem_singleton.1 hitem]
        exact ⟨List.mem_append_right _ (List.mem_singleton_self _),
          fun hpicked ↦ (h.picked_lt hpicked).false⟩
    · rw [Function.update_of_ne ho] at hitem
      exact hold hitem
  · simpa [firedIn, List.filterMap_cons] using h.split round
  · simpa [firedItem, List.filterMap_cons] using h.fired_nodup
  · rcases List.mem_append.1 hadded with hold | hnew
    · refine (h.kept o item hold).imp (fun hitem ↦ ?_) fun hrest ↦ hrest.imp_right (·.append _)
      dsimp only
      by_cases ho : o = owner
      · subst ho
        rw [Function.update_self]
        exact List.mem_append_left _ hitem
      · rw [Function.update_of_ne ho]
        exact hitem
    · cases List.mem_singleton.1 hnew
      left
      dsimp only
      rw [Function.update_self]
      exact List.mem_append_right _ (List.mem_singleton_self _)

theorem dropped (h : m.Good) (owners : List κ) : Good
    { m with
      waiting := fun owner ↦ if owner ∈ owners then [] else m.waiting owner
      log := m.log ++ owners.map .dropped } := by
  have hadded_iff (item : Nat) (o : κ) : .added item o ∈ m.log ++ owners.map .dropped ↔
      .added item o ∈ m.log := by simp
  refine h.of_same_picks (owners.map .dropped) rfl (by simp) ?_ (fun o ↦ ?_)
    (fun o item hitem ↦ ?_) (fun round ↦ ?_) ?_ fun o item hadded ↦ ?_
  · simp [h.numbered, addedItem, List.filterMap_map]
  · dsimp only
    split
    · exact List.Pairwise.nil
    · exact h.sorted o
  · dsimp only at hitem ⊢
    split at hitem
    · cases hitem
    · rw [hadded_iff]
      exact h.waits o item hitem
  · have hnone : (owners.map DeliveryEvent.dropped).filterMap (firedIn round) = [] := by
      simp [firedIn]
    simpa [hnone] using h.split round
  · have hnone : (owners.map DeliveryEvent.dropped).filterMap firedItem = [] := by
      simp [firedItem]
    simpa [hnone] using h.fired_nodup
  · rw [hadded_iff] at hadded
    by_cases ho : o ∈ owners
    · exact .inr (.inr (.of_mem hadded (List.mem_map_of_mem ho)))
    · refine (h.kept o item hadded).imp (fun hitem ↦ ?_) fun hrest ↦ hrest.imp_right (·.append _)
      simpa [ho] using hitem

omit [DecidableEq κ] in
theorem pickedIn_sublist (log : List (DeliveryEvent κ)) (round : Nat) :
    ((log.filterMap (pickedIn round)).map Prod.snd).Sublist (log.filterMap pickedItem) := by
  induction log with
  | nil => exact .slnil
  | cons event log ih =>
    cases event with
    | picked r o x =>
      by_cases hround : r = round
      · simpa [pickedIn, pickedItem, hround] using ih
      · simpa [pickedIn, pickedItem, hround] using ih.cons x
    | _ => simpa [pickedIn, pickedItem, List.filterMap_cons] using ih

/-- What a round fired it had picked. -/
theorem picked_of_fired (h : m.Good) {round item : Nat} {owner : κ}
    (hfired : .fired round owner item ∈ m.log) : .picked round owner item ∈ m.log := by
  rw [← mem_pickedIn, h.split round]
  exact List.mem_append_left _ (mem_firedIn.2 hfired)

/-- What is to be fired was not fired yet. -/
theorem not_fired (h : m.Good) {round item : Nat} {owner : κ} {rest : List (κ × Nat)}
    (hready : m.ready round = (owner, item) :: rest) : item ∉ m.log.filterMap firedItem := by
  intro hitem
  obtain ⟨event, hevent, hfired⟩ := List.mem_filterMap.1 hitem
  cases event with
  | fired r o x =>
    cases hfired
    have hpicked : .picked round owner item ∈ m.log := by
      rw [← mem_pickedIn, h.split round, hready]
      exact List.mem_append_right _ List.mem_cons_self
    have hsame := eq_of_filterMap_nodup h.picked_nodup hpicked (h.picked_of_fired hevent) rfl rfl
    cases hsame
    have hnodup := ((pickedIn_sublist m.log round).nodup h.picked_nodup).of_map Prod.snd
    rw [h.split round, hready] at hnodup
    exact (List.nodup_append.1 hnodup).2.2 _ (mem_firedIn.2 hevent) _ List.mem_cons_self rfl
  | _ => cases hfired

theorem fired (h : m.Good) {round : Nat} {owner : κ} {item : Nat} {rest : List (κ × Nat)}
    (hready : m.ready round = (owner, item) :: rest) : Good
    { m with
      ready := Function.update m.ready round rest
      log := m.log ++ [.fired round owner item] } := by
  refine h.of_same_picks [.fired round owner item] rfl (by simp) ?_ h.sorted
    (fun o x hx ↦ ⟨List.mem_append_left _ (h.waits o x hx).1, (h.waits o x hx).2⟩)
    (fun r ↦ ?_) ?_ fun o x hadded ↦ ?_
  · simpa [addedItem, List.filterMap_cons] using h.numbered
  · rw [h.split r]
    by_cases hround : round = r
    · subst hround
      simp [firedIn, hready]
    · simp [firedIn, hround, Function.update_of_ne (Ne.symm hround)]
  · rw [List.filterMap_append, List.nodup_append]
    refine ⟨h.fired_nodup, by simp [firedItem], fun x hx y hy heq ↦ h.not_fired hready ?_⟩
    have hy' : y = item := by simpa [firedItem] using hy
    exact hy' ▸ heq ▸ hx
  · have hold : .added x o ∈ m.log := by simpa using hadded
    exact (h.kept o x hold).imp_right fun hrest ↦ hrest.imp_right (·.append _)

theorem picked (h : m.Good) {round : Nat} {owner : κ} {item : Nat} {before after : List Nat}
    (hitem : m.waiting owner = before ++ item :: after)
    (hpast : ∀ y ∈ picksOf m.log round owner, y < item) : Good
    { m with
      waiting := Function.update m.waiting owner (before ++ after)
      ready := Function.update m.ready round (m.ready round ++ [(owner, item)])
      log := m.log ++ [.picked round owner item] } := by
  have hin : item ∈ m.waiting owner := by simp [hitem]
  obtain ⟨hadded, hunpicked⟩ := h.waits owner item hin
  have hsublist : (before ++ after).Sublist (m.waiting owner) := by
    rw [hitem]
    exact List.Sublist.append_left (List.sublist_cons_self item after) before
  have hgone : item ∉ before ++ after := by
    have hsorted := h.sorted owner
    rw [hitem, List.pairwise_append, List.pairwise_cons] at hsorted
    rw [List.mem_append]
    rintro (hmem | hmem)
    · exact (hsorted.2.2 item hmem item List.mem_cons_self).false
    · exact (hsorted.2.1.1 item hmem).false
  refine ⟨?_, fun o ↦ ?_, fun o x hx ↦ ?_, fun r o x hpicked ↦ ?_, ?_, ?_, fun r o ↦ ?_,
    fun r ↦ ?_, fun o x hx ↦ ?_⟩
  · simpa [addedItem, List.filterMap_cons] using h.numbered
  · by_cases ho : o = owner
    · subst ho
      dsimp only
      rw [Function.update_self]
      exact (h.sorted o).sublist hsublist
    · dsimp only
      rw [Function.update_of_ne ho]
      exact h.sorted o
  · have hold : x ∈ m.waiting o ∧ x ≠ item := by
      dsimp only at hx
      by_cases ho : o = owner
      · subst ho
        rw [Function.update_self] at hx
        exact ⟨hsublist.subset hx, fun heq ↦ hgone (heq ▸ hx)⟩
      · rw [Function.update_of_ne ho] at hx
        refine ⟨hx, fun heq ↦ ho ?_⟩
        subst heq
        exact h.owner_unique (h.waits o x hx).1 hadded
    obtain ⟨hadded', hunpicked'⟩ := h.waits o x hold.1
    refine ⟨List.mem_append_left _ hadded', ?_⟩
    rw [List.filterMap_append, List.mem_append]
    rintro (hmem | hmem)
    · exact hunpicked' hmem
    · exact hold.2 (by simpa [pickedItem] using hmem)
  · rcases List.mem_append.1 hpicked with hold | hnew
    · exact List.mem_append_left _ (h.picked_added r o x hold)
    · cases List.mem_singleton.1 hnew
      exact List.mem_append_left _ hadded
  · rw [List.filterMap_append, List.nodup_append]
    refine ⟨h.picked_nodup, by simp [pickedItem], fun x hx y hy heq ↦ hunpicked ?_⟩
    have hy' : y = item := by simpa [pickedItem] using hy
    exact hy' ▸ heq ▸ hx
  · simpa [firedItem, List.filterMap_cons] using h.fired_nodup
  · dsimp only
    rw [picksOf_concat_picked]
    split
    · rename_i hsame
      obtain ⟨rfl, rfl⟩ := hsame
      rw [List.pairwise_append]
      refine ⟨h.picks_sorted round owner, List.pairwise_singleton _ _, fun y hy z hz ↦ ?_⟩
      rw [List.mem_singleton.1 hz]
      exact hpast y hy
    · rw [List.append_nil]
      exact h.picks_sorted r o
  · dsimp only
    rw [List.filterMap_append, List.filterMap_append, h.split r]
    by_cases hround : round = r
    · subst hround
      simp [pickedIn, firedIn]
    · simp [pickedIn, firedIn, hround, Function.update_of_ne (Ne.symm hround)]
  · have hold : .added x o ∈ m.log := by simpa using hx
    rcases h.kept o x hold with hwaits | ⟨r, hpicked⟩ | hdropped
    · by_cases hsame : o = owner ∧ x = item
      · obtain ⟨rfl, rfl⟩ := hsame
        exact .inr (.inl ⟨round, List.mem_append_right _ (List.mem_singleton_self _)⟩)
      · left
        dsimp only
        by_cases ho : o = owner
        · subst ho
          have hne : x ≠ item := fun heq ↦ hsame ⟨rfl, heq⟩
          rw [Function.update_self]
          rw [hitem] at hwaits
          simpa [hne] using hwaits
        · rw [Function.update_of_ne ho]
          exact hwaits
    · exact .inr (.inl ⟨r, List.mem_append_left _ hpicked⟩)
    · exact .inr (.inr (hdropped.append _))

/-- **The moves keep what is good.** -/
theorem move (h : m.Good) (hmove : m.Move m') : m'.Good := by
  cases hmove with
  | still => exact h
  | add owner => exact h.added owner
  | drop owners => exact h.dropped owners
  | pick round owner item before after hitem hpast => exact h.picked hitem hpast
  | fire round owner item rest hready => exact h.fired hready

/-! ## What they come to -/

/-- What was added, and whose owner did not leave since, waits, is about to be fired, or was. -/
theorem still_there (h : m.Good) {item : Nat} {owner : κ} (hadded : .added item owner ∈ m.log)
    (hstays : ¬ Dropped m.log item owner) :
    item ∈ m.waiting owner ∨ (∃ round, (owner, item) ∈ m.ready round) ∨
      ∃ round, .fired round owner item ∈ m.log := by
  rcases h.kept owner item hadded with hwaits | ⟨round, hpicked⟩ | hdropped
  · exact .inl hwaits
  · rw [← mem_pickedIn, h.split round, List.mem_append, mem_firedIn] at hpicked
    exact .inr (hpicked.elim (fun hfired ↦ .inr ⟨round, hfired⟩) fun hready ↦ .inl ⟨round, hready⟩)
  · exact absurd hdropped hstays

/-- A round fires the items of an owner in their order. -/
theorem fires_sorted (h : m.Good) (round : Nat) (owner : κ) :
    (firesOf m.log round owner).Pairwise (· < ·) := by
  have hsorted := h.picks_sorted round owner
  rw [picksOf, h.split round] at hsorted
  exact hsorted.sublist ((List.sublist_append_left _ _).filterMap _)

end Good

end Delivery

end Lib
end EosMesh
