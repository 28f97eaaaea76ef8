import EosMesh.Core.Callbacks
import EosMesh.Lib.Scans

/-!
# Results are delivered once, in time and in order

A tick empties the queue of an owner and puts back what is not ready.  Meanwhile an owner that is
asked may add results and begin another tick, which goes through what is left of the same queue.  So
what is queued for an owner is spread over the ticks that hold the lock, and the order in which the
results were added is in none of the queues alone.

* `line` is what is queued for an owner, put together again: what the ticks have refused, what they
  still have in hand, and what the table holds.
* `view` reads the manager as deliveries in rounds, a tick being a round.  `Collecting` is what
  holds at all times, and `Collecting.step` says that a step of the manager is a move of these
  rounds.  The moves of the innermost tick are lemmas of their own (`pop`, `refuse`, `visit`,
  `putBack`, `between`, `pick`), gathered in `Turn`; what happens outside the ticks is `quiet`,
  `unmoved`, `drop`, `tick` and `fire`.
* `Timed` is about time alone: a result is found ready, or its owner is asked about it, only past
  its timeout, which is that the time since it was added reaches its `okTimeout`.
* `Delivers` says what every state comes to, and `DeliversStep` what a step may add to the log: a
  pick only past the timeout and with the word of the owner, a fire only of what was picked before.

`callbacks_delivered` puts these together for every run of the manager, with owners that come and go
and ticks within ticks; `Lib.Delivery` has the argument about rounds, and knows nothing of
callbacks.
-/

set_option autoImplicit false

namespace EosMesh

open Lib
open Lib.Delivery (picksOf firesOf)
open Std (TreeMap)

namespace CallbackManager

variable {s s' : CallbackManager}

/-! ## What a state comes to -/

/-- What a tick has of the queue of an owner. -/
def scanAt (log : List CallbackEvent) (owner : CallbackOwner) (a : Activation) :
    Option (Scan ResultId) :=
  match a.phase with
  | .draining current keep _ =>
    if current = owner then some ⟨keep, none, picksOf log a.tick owner⟩ else none
  | .asking result current keep _ =>
    if current = owner then some ⟨keep, some result, picksOf log a.tick owner⟩ else none
  | .frames _ | .owners _ => none

/-- What the ticks have of the queue of an owner. -/
def scansOf (s : CallbackManager) (owner : CallbackOwner) : List (Scan ResultId) :=
  s.ticking.filterMap (scanAt s.log owner)

/-- What is queued for an owner, with what the ticks have of it. -/
def line (s : CallbackManager) (owner : CallbackOwner) : List ResultId :=
  Scan.line (s.scansOf owner) (s.queueOf owner)

/-- What a tick has yet to fire. -/
def readyOf (s : CallbackManager) (tick : Nat) : List ReadyCallback := (s.ready[tick]?).getD []

/-- The manager, as deliveries in rounds. -/
def view (s : CallbackManager) : Delivery CallbackOwner where
  waiting := s.line
  ready tick := (s.readyOf tick).map fun c ↦ (c.owner, c.result)
  next := s.nextResult
  log := s.log

/-- The owners a tick may visit yet. -/
def mayVisit : TickPhase → CallbackOwner → Prop
  | .frames _, _ => True
  | .owners rest, owner | .draining _ _ rest, owner | .asking _ _ _ rest, owner => owner ∈ rest

/-- The owner a tick visits, and those to come. -/
def visits : TickPhase → List CallbackOwner
  | .frames _ => []
  | .owners rest => rest
  | .draining current _ rest | .asking _ current _ rest => current :: rest

/-- What holds of a tick that has the lock. -/
structure Ticks (s : CallbackManager) (a : Activation) : Prop where
  known : a.tick < s.nextTick
  fresh : ∀ owner, mayVisit a.phase owner → picksOf s.log a.tick owner = []
  visits : (visits a.phase).Nodup

/-- What holds at all times. -/
structure Collecting (s : CallbackManager) : Prop where
  good : s.view.Good
  sound : ∀ owner, Scan.Sound (s.scansOf owner) (s.queueOf owner)
  distinct : (s.ticking.map Activation.tick).Nodup
  ticks : ∀ a ∈ s.ticking, s.Ticks a
  picks_known : ∀ tick owner result, .picked tick owner result ∈ s.log → tick < s.nextTick

theorem queueOf_setQueue (s : CallbackManager) (owner o : CallbackOwner) (queue : List ResultId) :
    (s.setQueue owner queue).queueOf o = if owner = o then queue else s.queueOf o := by
  rw [queueOf, setQueue, lookup_insert]
  split <;> rfl

/-- The scans depend on the picks of the ticks that scan. -/
theorem filterMap_scanAt_congr {log log' : List CallbackEvent} {owner : CallbackOwner}
    {activations : List Activation}
    (h : ∀ a ∈ activations, picksOf log' a.tick owner = picksOf log a.tick owner) :
    activations.filterMap (scanAt log' owner) = activations.filterMap (scanAt log owner) := by
  refine List.filterMap_congr fun a ha ↦ ?_
  rw [scanAt, scanAt, h a ha]

theorem scansOf_eq {log : List CallbackEvent} {a : Activation} {outer : List Activation}
    (hticking : s.ticking = a :: outer) (hlog : s.log = log) (owner : CallbackOwner) :
    s.scansOf owner = (scanAt log owner a).toList ++ outer.filterMap (scanAt log owner) := by
  rw [scansOf, hticking, hlog, List.filterMap_cons]
  cases scanAt log owner a <;> rfl

/-- A step that leaves the lines and the log is none of the deliveries. -/
theorem view_eq (hlog : s'.log = s.log) (hready : s'.ready = s.ready)
    (hnext : s'.nextResult = s.nextResult) (hline : ∀ owner, s'.line owner = s.line owner) :
    s'.view = s.view := by
  have hline' : s'.line = s.line := funext hline
  rw [view, view, hlog, hnext, hline']
  simp only [readyOf, hready]

theorem Ticks.mono {a : Activation} (h : s.Ticks a)
    (hlog : ∀ owner, picksOf s'.log a.tick owner = picksOf s.log a.tick owner)
    (hnext : s.nextTick ≤ s'.nextTick) : s'.Ticks a where
  known := h.known.trans_le hnext
  fresh owner howner := (hlog owner).trans (h.fresh owner howner)
  visits := h.visits

namespace Collecting

/-! ## The innermost tick moves -/

section

variable {tick : Nat} {owner : CallbackOwner} {keep : List ResultId} {rest : List CallbackOwner}
  {result : ResultId} {outer : List Activation}

/-- The innermost tick goes to another phase, or ends. -/
theorem turn (h : s.Collecting) {a : Activation} (hticking : s.ticking = a :: outer)
    (phase : Option TickPhase)
    (hticking' : s'.ticking = (phase.map fun phase ↦ ⟨a.tick, phase⟩).toList ++ outer)
    (hlog : s'.log = s.log) (hready : s'.ready = s.ready) (hresult : s'.nextResult = s.nextResult)
    (hnext : s'.nextTick = s.nextTick) (hline : ∀ o, s'.line o = s.line o)
    (hsound : ∀ o, Scan.Sound (s'.scansOf o) (s'.queueOf o))
    (hvisit : ∀ p ∈ phase,
      (∀ o, mayVisit p o → mayVisit a.phase o) ∧ (CallbackManager.visits p).Nodup) :
    s'.Collecting where
  good := view_eq hlog hready hresult hline ▸ h.good
  sound := hsound
  distinct := by
    have hdistinct := h.distinct
    rw [hticking] at hdistinct
    rw [hticking']
    cases phase with
    | none => exact (List.nodup_cons.1 hdistinct).2
    | some phase => exact hdistinct
  ticks a' ha' := by
    have hkeeps {b : Activation} (hb : b ∈ s.ticking) : s'.Ticks b :=
      (h.ticks b hb).mono (fun o ↦ by rw [hlog]) hnext.ge
    rw [hticking', List.mem_append] at ha'
    rcases ha' with ha' | ha'
    · cases phase with
      | none => cases ha'
      | some phase =>
        obtain rfl := List.mem_singleton.1 ha'
        have ha := hkeeps (hticking ▸ List.mem_cons_self : a ∈ s.ticking)
        obtain ⟨hmay, hnodup⟩ := hvisit phase rfl
        exact ⟨ha.known, fun o ho ↦ ha.fresh o (hmay o ho), hnodup⟩
    · exact hkeeps (hticking ▸ List.mem_cons_of_mem a ha')
  picks_known := by
    rw [hlog, hnext]
    exact h.picks_known

/-- The innermost tick does something with the queue of one owner. -/
theorem turn_at (h : s.Collecting) {a : Activation} {phase : TickPhase} (owner : CallbackOwner)
    (hticking : s.ticking = a :: outer) (hticking' : s'.ticking = ⟨a.tick, phase⟩ :: outer)
    (hlog : s'.log = s.log) (hready : s'.ready = s.ready) (hresult : s'.nextResult = s.nextResult)
    (hnext : s'.nextTick = s.nextTick)
    (hother : ∀ o, o ≠ owner → s'.scansOf o = s.scansOf o ∧ s'.queueOf o = s.queueOf o)
    (hline : s'.line owner = s.line owner)
    (hsound : Scan.Sound (s'.scansOf owner) (s'.queueOf owner))
    (hvisit : (∀ o, mayVisit phase o → mayVisit a.phase o) ∧ (CallbackManager.visits phase).Nodup) :
    s'.Collecting := by
  refine h.turn hticking (some phase) hticking' hlog hready hresult hnext (fun o ↦ ?_)
    (fun o ↦ ?_) fun p hp ↦ by cases hp; exact hvisit
  · by_cases ho : o = owner
    · exact ho ▸ hline
    · rw [line, line, (hother o ho).1, (hother o ho).2]
  · by_cases ho : o = owner
    · exact ho ▸ hsound
    · rw [(hother o ho).1, (hother o ho).2]
      exact h.sound o

/-- The scan of the tick that empties the queue of `owner`. -/
theorem scansOf_draining (hticking : s.ticking = ⟨tick, .draining owner keep rest⟩ :: outer)
    (o : CallbackOwner) : s.scansOf o =
      (if owner = o then [⟨keep, none, picksOf s.log tick o⟩] else []) ++
        outer.filterMap (scanAt s.log o) := by
  rw [scansOf_eq hticking rfl, scanAt]
  dsimp only
  split <;> rfl

theorem scansOf_asking (hticking : s.ticking = ⟨tick, .asking result owner keep rest⟩ :: outer)
    (o : CallbackOwner) : s.scansOf o =
      (if owner = o then [⟨keep, some result, picksOf s.log tick o⟩] else []) ++
        outer.filterMap (scanAt s.log o) := by
  rw [scansOf_eq hticking rfl, scanAt]
  dsimp only
  split <;> rfl

/-- It takes the next result of the queue in hand. -/
theorem pop (h : s.Collecting) (hticking : s.ticking = ⟨tick, .draining owner keep rest⟩ :: outer)
    {queue : List ResultId} (hqueue : s.queueOf owner = result :: queue)
    (hticking' : s'.ticking = ⟨tick, .asking result owner keep rest⟩ :: outer)
    (hrest : s' = { s.setQueue owner queue with ticking := s'.ticking }) : s'.Collecting := by
  have hlog : s'.log = s.log := by rw [hrest]; rfl
  have hqueue' (o : CallbackOwner) : s'.queueOf o = if owner = o then queue else s.queueOf o := by
    rw [← queueOf_setQueue, hrest]
    rfl
  have hscans := scansOf_draining hticking owner
  have hscans' := scansOf_asking hticking' owner
  rw [if_pos rfl, hlog] at hscans'
  rw [if_pos rfl] at hscans
  have hsound := h.sound owner
  rw [hscans, hqueue] at hsound
  refine h.turn_at owner hticking hticking' hlog (by rw [hrest]; rfl) (by rw [hrest]; rfl)
    (by rw [hrest]; rfl) (fun o ho ↦ ⟨?_, ?_⟩) ?_ ?_ ⟨fun o ho ↦ ho, ?_⟩
  · rw [scansOf_asking hticking', scansOf_draining hticking, if_neg (Ne.symm ho),
      if_neg (Ne.symm ho), hlog]
  · rw [hqueue', if_neg (Ne.symm ho)]
  · rw [line, line, hscans, hscans', hqueue', if_pos rfl, hqueue]
    exact Scan.line_pop
  · rw [hscans', hqueue', if_pos rfl]
    exact hsound.pop
  · exact (h.ticks _ (hticking ▸ List.mem_cons_self)).visits

/-- It keeps the result in hand. -/
theorem refuse (h : s.Collecting)
    (hticking : s.ticking = ⟨tick, .asking result owner keep rest⟩ :: outer)
    (hticking' : s'.ticking = ⟨tick, .draining owner (keep ++ [result]) rest⟩ :: outer)
    (hrest : s' = { s with ticking := s'.ticking }) : s'.Collecting := by
  have hlog : s'.log = s.log := by rw [hrest]
  have hqueue' (o : CallbackOwner) : s'.queueOf o = s.queueOf o := by rw [hrest]; rfl
  have hscans := scansOf_asking hticking owner
  have hscans' := scansOf_draining hticking' owner
  rw [if_pos rfl, hlog] at hscans'
  rw [if_pos rfl] at hscans
  have hsound := h.sound owner
  rw [hscans] at hsound
  refine h.turn_at owner hticking hticking' hlog (by rw [hrest]) (by rw [hrest]) (by rw [hrest])
    (fun o ho ↦ ⟨?_, hqueue' o⟩) ?_ ?_ ⟨fun o ho ↦ ho, ?_⟩
  · rw [scansOf_draining hticking', scansOf_asking hticking, if_neg (Ne.symm ho),
      if_neg (Ne.symm ho), hlog]
  · rw [line, line, hscans, hscans', hqueue']
    exact Scan.line_keep
  · rw [hscans', hqueue']
    exact hsound.keep
  · exact (h.ticks _ (hticking ▸ List.mem_cons_self)).visits

/-- It begins with the queue of an owner. -/
theorem visit (h : s.Collecting) (hticking : s.ticking = ⟨tick, .owners (owner :: rest)⟩ :: outer)
    (hticking' : s'.ticking = ⟨tick, .draining owner [] rest⟩ :: outer)
    (hrest : s' = { s with ticking := s'.ticking }) : s'.Collecting := by
  have hlog : s'.log = s.log := by rw [hrest]
  have hqueue' (o : CallbackOwner) : s'.queueOf o = s.queueOf o := by rw [hrest]; rfl
  have hscans (o : CallbackOwner) : s.scansOf o = outer.filterMap (scanAt s.log o) :=
    scansOf_eq hticking rfl o
  have hticks := h.ticks _ (hticking ▸ List.mem_cons_self)
  have hscans' := scansOf_draining hticking' owner
  rw [if_pos rfl, hlog, hticks.fresh owner List.mem_cons_self] at hscans'
  have hsound := h.sound owner
  rw [hscans] at hsound
  refine h.turn_at owner hticking hticking' hlog (by rw [hrest]) (by rw [hrest]) (by rw [hrest])
    (fun o ho ↦ ⟨?_, hqueue' o⟩) ?_ ?_
    ⟨fun o ho ↦ List.mem_cons_of_mem owner ho, hticks.visits⟩
  · rw [scansOf_draining hticking', hscans, if_neg (Ne.symm ho), hlog]
    rfl
  · rw [line, line, hscans, hscans', hqueue']
    rfl
  · rw [hscans', hqueue']
    exact hsound.start

/-- It puts back what it kept. -/
theorem putBack (h : s.Collecting)
    (hticking : s.ticking = ⟨tick, .draining owner keep rest⟩ :: outer)
    (hqueue : s.queueOf owner = []) (hticking' : s'.ticking = ⟨tick, .owners rest⟩ :: outer)
    (hrest : s' = { s.setQueue owner keep with ticking := s'.ticking }) : s'.Collecting := by
  have hlog : s'.log = s.log := by rw [hrest]; rfl
  have hqueue' (o : CallbackOwner) : s'.queueOf o = if owner = o then keep else s.queueOf o := by
    rw [← queueOf_setQueue, hrest]
    rfl
  have hscans' (o : CallbackOwner) : s'.scansOf o = outer.filterMap (scanAt s.log o) :=
    scansOf_eq hticking' hlog o
  have hscans := scansOf_draining hticking owner
  rw [if_pos rfl] at hscans
  have hsound := h.sound owner
  rw [hscans, hqueue] at hsound
  have hticks := h.ticks _ (hticking ▸ List.mem_cons_self)
  refine h.turn_at owner hticking hticking' hlog (by rw [hrest]; rfl) (by rw [hrest]; rfl)
    (by rw [hrest]; rfl) (fun o ho ↦ ⟨?_, ?_⟩) ?_ ?_
    ⟨fun o ho ↦ ho, (List.nodup_cons.1 hticks.visits).2⟩
  · rw [scansOf_draining hticking, hscans', if_neg (Ne.symm ho)]
    rfl
  · rw [hqueue', if_neg (Ne.symm ho)]
  · rw [line, line, hscans, hscans', hqueue', if_pos rfl, hqueue]
    exact Scan.line_close
  · rw [hscans', hqueue', if_pos rfl]
    exact hsound.close

/-- It is between two owners, before and after. -/
theorem between (h : s.Collecting) {a : Activation} (hticking : s.ticking = a :: outer)
    (phase : Option TickPhase)
    (hs' : s' = { s with ticking := (phase.map fun phase ↦ ⟨a.tick, phase⟩).toList ++ outer })
    (hnone : a.phase.current = none) (hnone' : ∀ p ∈ phase, p.current = none)
    (hvisit : ∀ p ∈ phase,
      (∀ o, mayVisit p o → mayVisit a.phase o) ∧ (CallbackManager.visits p).Nodup) :
    s'.Collecting := by
  have hscan {b : Activation} (hb : b.phase.current = none) (o : CallbackOwner) :
      scanAt s.log o b = none := by
    rw [scanAt]
    split
    · rename_i hphase
      rw [hphase] at hb
      cases hb
    · rename_i hphase
      rw [hphase] at hb
      cases hb
    · rfl
    · rfl
  have hscans (o : CallbackOwner) : s'.scansOf o = s.scansOf o := by
    rw [scansOf_eq hticking rfl, hscan hnone, hs', scansOf]
    cases phase with
    | none => rfl
    | some p =>
      exact congrArg (·.toList ++ outer.filterMap (scanAt s.log o))
        (hscan (b := ⟨a.tick, p⟩) (hnone' p rfl) o) ▸ scansOf_eq rfl rfl o
  have hqueue (o : CallbackOwner) : s'.queueOf o = s.queueOf o := by rw [hs']; rfl
  refine h.turn hticking phase (by rw [hs']) (by rw [hs']) (by rw [hs']) (by rw [hs'])
    (by rw [hs']) (fun o ↦ ?_) (fun o ↦ ?_) hvisit
  · rw [line, line, hscans, hqueue]
  · rw [hscans, hqueue]
    exact h.sound o

/-- The result in hand is ready. -/
theorem pick (h : s.Collecting)
    (hticking : s.ticking = ⟨tick, .asking result owner keep rest⟩ :: outer) :
    (({ s with ticking := ⟨tick, .draining owner keep rest⟩ :: outer } : CallbackManager).pick tick
      owner result).Collecting := by
  generalize hs' : ({ s with ticking := ⟨tick, .draining owner keep rest⟩ :: outer } :
    CallbackManager).pick tick owner result = s'
  have hlog : s'.log = s.log ++ [.picked tick owner result] := by rw [← hs']; rfl
  have hticking' : s'.ticking = ⟨tick, .draining owner keep rest⟩ :: outer := by rw [← hs']; rfl
  have hqueue' (o : CallbackOwner) : s'.queueOf o = s.queueOf o := by rw [← hs']; rfl
  have hdistinct := h.distinct
  rw [hticking, List.map_cons, List.nodup_cons] at hdistinct
  have houter (o : CallbackOwner) :
      outer.filterMap (scanAt s'.log o) = outer.filterMap (scanAt s.log o) := by
    refine filterMap_scanAt_congr fun a ha ↦ ?_
    have hne : ¬ (tick = a.tick ∧ owner = o) := fun hsame ↦
      hdistinct.1 (List.mem_map.2 ⟨a, ha, hsame.1.symm⟩)
    rw [hlog, Delivery.picksOf_concat_picked, if_neg hne, List.append_nil]
  have hscans := scansOf_asking hticking
  have hscans' := scansOf_draining hticking'
  simp only [houter] at hscans'
  have hother (o : CallbackOwner) (ho : o ≠ owner) : s'.scansOf o = s.scansOf o := by
    rw [hscans, hscans', if_neg (Ne.symm ho), if_neg (Ne.symm ho)]
  have hpicks : picksOf s'.log tick owner = picksOf s.log tick owner ++ [result] := by
    rw [hlog, Delivery.picksOf_concat_picked, if_pos ⟨rfl, rfl⟩]
  have hhere := hscans owner
  have hhere' := hscans' owner
  rw [if_pos rfl] at hhere
  rw [if_pos rfl, hpicks] at hhere'
  have hsound := h.sound owner
  rw [hhere] at hsound
  have hline : s.line owner = (Scan.allHeld (outer.filterMap (scanAt s.log owner)) ++ keep) ++
      result :: s.queueOf owner := by
    rw [line, hhere]
    exact Scan.line_take
  have hline' : s'.line owner = (Scan.allHeld (outer.filterMap (scanAt s.log owner)) ++ keep) ++
      s.queueOf owner := by
    rw [line, hhere', hqueue']
    exact Scan.line_taken _
  have hview : s'.view =
      { s.view with
        waiting := Function.update s.view.waiting owner
          ((Scan.allHeld (outer.filterMap (scanAt s.log owner)) ++ keep) ++ s.queueOf owner)
        ready := Function.update s.view.ready tick (s.view.ready tick ++ [(owner, result)])
        log := s.view.log ++ [.picked tick owner result] } := by
    refine Delivery.ext (funext fun o ↦ ?_) (funext fun t ↦ ?_) (by rw [← hs']; rfl) hlog
    · dsimp only
      by_cases ho : o = owner
      · subst ho
        rw [Function.update_self]
        exact hline'
      · rw [Function.update_of_ne ho]
        change s'.line o = s.line o
        rw [line, line, hother o ho, hqueue']
    · have hready : s'.readyOf t =
          if tick = t then s.readyOf tick ++ [⟨owner, result⟩] else s.readyOf t := by
        rw [← hs', readyOf, CallbackManager.pick, lookup_insert]
        split <;> rfl
      change (s'.readyOf t).map _ = _
      dsimp only
      rw [hready]
      by_cases ht : tick = t
      · subst ht
        simp [view]
      · rw [if_neg ht, Function.update_of_ne (Ne.symm ht)]
        rfl
  have hmove : s.view.Move s'.view := by
    rw [hview]
    exact .pick tick owner result _ _ hline fun y hy ↦ hsound.passed_lt hy
  have hticks {a : Activation} (ha : s.Ticks a) (hkeeps : ∀ o, mayVisit a.phase o →
      ¬ (tick = a.tick ∧ owner = o)) : s'.Ticks a := by
    refine ⟨by rw [← hs']; exact ha.known, fun o ho ↦ ?_, ha.visits⟩
    rw [hlog, Delivery.picksOf_concat_picked, if_neg (hkeeps o ho), ha.fresh o ho]
    rfl
  refine ⟨h.good.move hmove, fun o ↦ ?_, ?_, fun a ha ↦ ?_, fun t o r hpicked ↦ ?_⟩
  · by_cases ho : o = owner
    · subst ho
      rw [hhere', hqueue']
      exact hsound.take
    · rw [hother o ho, hqueue']
      exact h.sound o
  · rw [hticking']
    exact List.nodup_cons.2 hdistinct
  · rw [hticking'] at ha
    rcases List.mem_cons.1 ha with rfl | ha
    · have hhand := h.ticks _ (hticking ▸ List.mem_cons_self)
      exact hticks (a := ⟨tick, .draining owner keep rest⟩) ⟨hhand.known, hhand.fresh, hhand.visits⟩
        fun o ho hsame ↦ (List.nodup_cons.1 hhand.visits).1 (hsame.2 ▸ ho)
    · refine hticks (h.ticks a (hticking ▸ List.mem_cons_of_mem _ ha)) fun o _ hsame ↦ ?_
      exact hdistinct.1 (List.mem_map.2 ⟨a, ha, hsame.1.symm⟩)
  · have hnext : s'.nextTick = s.nextTick := by rw [← hs']; rfl
    rw [hnext]
    rw [hlog] at hpicked
    rcases List.mem_append.1 hpicked with hold | hnew
    · exact h.picks_known t o r hold
    · cases List.mem_singleton.1 hnew
      exact (h.ticks _ (hticking ▸ List.mem_cons_self)).known

end

/-! ## The ticks stay where they are -/

theorem scansOf_same {more : List CallbackEvent} (hticking : s'.ticking = s.ticking)
    (hlog : s'.log = s.log ++ more)
    (hmore : ∀ event ∈ more, ∀ tick owner result, event ≠ .picked tick owner result) :
    (∀ tick owner, picksOf s'.log tick owner = picksOf s.log tick owner) ∧
      ∀ owner, s'.scansOf owner = s.scansOf owner := by
  have hpicks (tick : Nat) (owner : CallbackOwner) :
      picksOf s'.log tick owner = picksOf s.log tick owner := by
    rw [hlog, picksOf, (Delivery.Good.picks_append s.log hmore).2.1 tick]
    rfl
  refine ⟨hpicks, fun owner ↦ ?_⟩
  rw [scansOf, hticking]
  exact filterMap_scanAt_congr fun a _ ↦ hpicks a.tick owner

/-- Something happens outside the ticks. -/
theorem quiet (h : s.Collecting) (hmove : s.view.Move s'.view) (hticking : s'.ticking = s.ticking)
    {more : List CallbackEvent} (hlog : s'.log = s.log ++ more)
    (hmore : ∀ event ∈ more, ∀ tick owner result, event ≠ .picked tick owner result)
    (hnext : s'.nextTick = s.nextTick)
    (hsound : ∀ owner, Scan.Sound (s.scansOf owner) (s'.queueOf owner)) : s'.Collecting := by
  obtain ⟨hpicks, hscans⟩ := scansOf_same hticking hlog hmore
  refine ⟨h.good.move hmove, fun owner ↦ ?_, ?_, fun a ha ↦ ?_, fun tick owner result hpicked ↦ ?_⟩
  · rw [hscans]
    exact hsound owner
  · rw [hticking]
    exact h.distinct
  · rw [hticking] at ha
    exact (h.ticks a ha).mono (hpicks a.tick) hnext.ge
  · rw [hnext]
    rw [hlog] at hpicked
    exact h.picks_known tick owner result
      (((Delivery.Good.picks_append s.log hmore).2.2 tick owner result).1 hpicked)

/-- Nothing is queued, and nothing delivered. -/
theorem unmoved (h : s.Collecting) (hticking : s'.ticking = s.ticking) (hlog : s'.log = s.log)
    (hready : ∀ tick, s'.readyOf tick = s.readyOf tick) (hresult : s'.nextResult = s.nextResult)
    (hnext : s'.nextTick = s.nextTick) (hqueue : ∀ owner, s'.queueOf owner = s.queueOf owner) :
    s'.Collecting := by
  have hlog' : s'.log = s.log ++ [] := by rw [hlog, List.append_nil]
  have hscans := (scansOf_same hticking hlog' (by simp)).2
  have hview : s'.view = s.view := by
    refine Delivery.ext (funext fun owner ↦ ?_) (funext fun tick ↦ ?_) hresult hlog
    · change Scan.line _ _ = Scan.line _ _
      rw [hscans, hqueue]
    · change (s'.readyOf tick).map _ = (s.readyOf tick).map _
      rw [hready]
  refine h.quiet (hview ▸ .still) hticking hlog' (by simp) hnext fun owner ↦ ?_
  rw [hqueue]
  exact h.sound owner

theorem add (h : s.Collecting) (owner : CallbackOwner) (result : FrameResult) :
    (s.addCallback owner result).Collecting := by
  generalize hs' : s.addCallback owner result = s'
  have hlog : s'.log = s.log ++ [.added s.nextResult owner] := by rw [← hs']; rfl
  have hticking : s'.ticking = s.ticking := by rw [← hs']; rfl
  have hqueue (o : CallbackOwner) : s'.queueOf o =
      if owner = o then s.queueOf owner ++ [s.nextResult] else s.queueOf o := by
    rw [← queueOf_setQueue, ← hs']
    rfl
  have hmore : ∀ event ∈ [(.added s.nextResult owner : CallbackEvent)],
      ∀ tick o r, event ≠ .picked tick o r := by simp
  have hscans := (scansOf_same hticking hlog hmore).2
  have hview : s'.view =
      { s.view with
        waiting := Function.update s.view.waiting owner (s.view.waiting owner ++ [s.view.next])
        next := s.view.next + 1
        log := s.view.log ++ [.added s.view.next owner] } := by
    refine Delivery.ext (funext fun o ↦ ?_) (by rw [← hs']; rfl) (by rw [← hs']; rfl) hlog
    change Scan.line _ _ = _
    dsimp only
    rw [hscans, hqueue]
    by_cases ho : o = owner
    · subst ho
      rw [if_pos rfl, Function.update_self]
      exact Scan.line_append _ _ _
    · rw [if_neg (Ne.symm ho), Function.update_of_ne ho]
      rfl
  refine h.quiet (by rw [hview]; exact .add owner) hticking hlog hmore (by rw [← hs']; rfl)
    fun o ↦ ?_
  rw [hqueue]
  split
  · rename_i ho
    subst ho
    refine (h.sound owner).push (fun y hy ↦ h.good.waiting_lt hy) fun scan hscan y hy ↦ ?_
    obtain ⟨a, -, hat⟩ := List.mem_filterMap.1 hscan
    have hpassed : scan.passed = picksOf s.log a.tick owner := by
      rw [scanAt] at hat
      split at hat
      · split at hat
        · cases hat
          rfl
        · cases hat
      · split at hat
        · cases hat
          rfl
        · cases hat
      · cases hat
      · cases hat
    rw [hpassed, Delivery.mem_picksOf] at hy
    exact h.good.lt_next (h.good.picked_added _ _ _ hy)
  · exact h.sound o

/-- Owners no tick refers to leave, with what is queued for them. -/
theorem drop (h : s.Collecting) (owners : List CallbackOwner) (hticking : s'.ticking = s.ticking)
    (hlog : s'.log = s.log ++ owners.map .dropped) (hready : s'.ready = s.ready)
    (hresult : s'.nextResult = s.nextResult) (hnext : s'.nextTick = s.nextTick)
    (hqueue : ∀ o, s'.queueOf o = if o ∈ owners then [] else s.queueOf o)
    (hfree : ∀ o ∈ owners, s.scansOf o = []) : s'.Collecting := by
  have hmore : ∀ event ∈ owners.map (DeliveryEvent.dropped : _ → CallbackEvent),
      ∀ tick o r, event ≠ .picked tick o r := by simp
  have hscans := (scansOf_same hticking hlog hmore).2
  have hview : s'.view =
      { s.view with
        waiting := fun o ↦ if o ∈ owners then [] else s.view.waiting o
        log := s.view.log ++ owners.map .dropped } := by
    refine Delivery.ext (funext fun o ↦ ?_) (funext fun tick ↦ ?_) hresult hlog
    · change Scan.line _ _ = _
      rw [hscans, hqueue]
      dsimp only
      split
      · rename_i ho
        rw [hfree o ho]
        rfl
      · rfl
    · change (s'.readyOf tick).map _ = (s.readyOf tick).map _
      rw [readyOf, readyOf, hready]
  refine h.quiet (by rw [hview]; exact .drop owners) hticking hlog hmore hnext fun o ↦ ?_
  rw [hqueue]
  split
  · rename_i ho
    rw [hfree o ho]
    exact .nil
  · exact h.sound o

/-- No scan is of an owner no tick refers to. -/
theorem scansOf_eq_nil {owner : CallbackOwner}
    (h : ∀ a ∈ s.ticking, a.phase.current ≠ some owner) : s.scansOf owner = [] := by
  refine List.filterMap_eq_nil_iff.2 fun a ha ↦ ?_
  have hne := h a ha
  rw [scanAt]
  split
  · rename_i hphase
    rw [hphase] at hne
    exact if_neg fun heq ↦ hne (congrArg some heq)
  · rename_i hphase
    rw [hphase] at hne
    exact if_neg fun heq ↦ hne (congrArg some heq)
  · rfl
  · rfl

/-- A tick takes the lock. -/
theorem tick (h : s.Collecting) : s.tick.Collecting := by
  have hpicks (owner : CallbackOwner) : picksOf s.log s.nextTick owner = [] :=
    List.eq_nil_iff_forall_not_mem.2 fun result hmem ↦
      (h.picks_known _ _ _ (Delivery.mem_picksOf.1 hmem)).false
  have hready : s.view.ready s.nextTick = [] := by
    have hnone : s.log.filterMap (Delivery.pickedIn s.nextTick) = [] :=
      List.eq_nil_iff_forall_not_mem.2 fun p hmem ↦
        (h.picks_known _ p.1 p.2 (Delivery.mem_pickedIn.1 hmem)).false
    have hsplit := h.good.split s.nextTick
    exact (List.append_eq_nil_iff.1 (hsplit.symm.trans hnone)).2
  have hview : s.tick.view = s.view := by
    refine Delivery.ext rfl (funext fun t ↦ ?_) rfl rfl
    change (((s.ready.insert s.nextTick [])[t]?).getD []).map _ = _
    rw [lookup_insert]
    split
    · rename_i ht
      subst ht
      exact hready.symm
    · rfl
  refine ⟨hview ▸ h.good, h.sound, ?_, fun a ha ↦ ?_, fun tick owner result hpicked ↦ ?_⟩
  · refine List.nodup_cons.2 ⟨fun hmem ↦ ?_, h.distinct⟩
    obtain ⟨a, ha, heq⟩ := List.mem_map.1 hmem
    exact (heq ▸ (h.ticks a ha).known).false
  · rcases List.mem_cons.1 ha with rfl | ha
    · exact ⟨Nat.lt_succ_self _, fun owner _ ↦ hpicks owner, List.nodup_nil⟩
    · exact (h.ticks a ha).mono (fun _ ↦ rfl) (Nat.le_succ _)
  · exact (h.picks_known tick owner result hpicked).trans (Nat.lt_succ_self _)

/-- A tick fires what it collected. -/
theorem fire (h : s.Collecting) {tick : Nat} (hfire : s.fire tick = some s') : s'.Collecting := by
  rw [CallbackManager.fire] at hfire
  split at hfire
  · cases hfire
  · split at hfire
    · cases hfire
    · rename_i hready
      cases hfire
      refine h.unmoved rfl rfl (fun t ↦ ?_) rfl rfl fun _ ↦ rfl
      rw [readyOf, readyOf, lookup_erase]
      split
      · rename_i ht
        rw [← ht, hready]
        rfl
      · rfl
    · rename_i item ready hready
      have hs' := Option.some.inj hfire
      have hlog : s'.log = s.log ++ [.fired tick item.owner item.result] := by rw [← hs']
      have hticking : s'.ticking = s.ticking := by rw [← hs']
      have hqueue (o : CallbackOwner) : s'.queueOf o = s.queueOf o := by rw [← hs']; rfl
      have hmore : ∀ event ∈ [(.fired tick item.owner item.result : CallbackEvent)],
          ∀ t o r, event ≠ .picked t o r := by simp
      have hhead : s.view.ready tick = (item.owner, item.result) ::
          ready.map fun c ↦ (c.owner, c.result) := by
        change ((s.ready[tick]?).getD []).map _ = _
        rw [hready]
        rfl
      have hview : s'.view =
          { s.view with
            ready := Function.update s.view.ready tick (ready.map fun c ↦ (c.owner, c.result))
            log := s.view.log ++ [.fired tick item.owner item.result] } := by
        refine Delivery.ext (funext fun o ↦ ?_) (funext fun t ↦ ?_) (by rw [← hs']; rfl) hlog
        · change Scan.line _ _ = Scan.line _ _
          rw [(scansOf_same hticking hlog hmore).2, hqueue]
        · change ((s'.ready[t]?).getD []).map _ = _
          rw [← hs', lookup_insert]
          dsimp only
          by_cases ht : t = tick
          · subst ht
            rw [if_pos rfl, Function.update_self]
            rfl
          · rw [if_neg (Ne.symm ht), Function.update_of_ne ht]
            rfl
      refine h.quiet ?_ hticking hlog hmore (by rw [← hs']) fun o ↦ ?_
      · rw [hview]
        exact .fire tick item.owner item.result _ hhead
      · rw [hqueue]
        exact h.sound o

end Collecting

/-! ## What a step can do -/

/-- What the innermost tick can do next. -/
inductive Turn (s : CallbackManager) : CallbackManager → Prop
  | frame (tick : Nat) (owner : CallbackOwner) (rest : List CallbackOwner) (outer : List Activation)
      (h : s.ticking = ⟨tick, .frames (owner :: rest)⟩ :: outer) :
      Turn s { s with ticking := ⟨tick, .frames rest⟩ :: outer }
  | collect (tick : Nat) (outer : List Activation) (h : s.ticking = ⟨tick, .frames []⟩ :: outer) :
      Turn s { s with ticking := ⟨tick, .owners s.callbacksToRun.keys⟩ :: outer }
  | visit (tick : Nat) (owner : CallbackOwner) (rest : List CallbackOwner) (outer : List Activation)
      (h : s.ticking = ⟨tick, .owners (owner :: rest)⟩ :: outer) :
      Turn s { s with ticking := ⟨tick, .draining owner [] rest⟩ :: outer }
  | skip (tick : Nat) (owner : CallbackOwner) (rest : List CallbackOwner) (outer : List Activation)
      (h : s.ticking = ⟨tick, .owners (owner :: rest)⟩ :: outer) :
      Turn s { s with ticking := ⟨tick, .owners rest⟩ :: outer }
  | leave (tick : Nat) (outer : List Activation) (h : s.ticking = ⟨tick, .owners []⟩ :: outer) :
      Turn s { s with ticking := outer }
  | early (tick : Nat) (owner : CallbackOwner) (keep : List ResultId) (rest : List CallbackOwner)
      (outer : List Activation) (h : s.ticking = ⟨tick, .draining owner keep rest⟩ :: outer)
      (result : ResultId) (queue : List ResultId) (hqueue : s.queueOf owner = result :: queue) :
      Turn s { s.setQueue owner queue with
        ticking := ⟨tick, .draining owner (keep ++ [result]) rest⟩ :: outer }
  | done (tick : Nat) (owner : CallbackOwner) (keep : List ResultId) (rest : List CallbackOwner)
      (outer : List Activation) (h : s.ticking = ⟨tick, .draining owner keep rest⟩ :: outer)
      (result : ResultId) (queue : List ResultId) (hqueue : s.queueOf owner = result :: queue)
      (r : FrameResult) (hresult : s.results[result]? = some r)
      (htimeout : s.clock - r.createdTime ≥ r.okTimeout) (hdone : r.done = true) :
      Turn s (({ s.setQueue owner queue with
        ticking := ⟨tick, .draining owner keep rest⟩ :: outer } : CallbackManager).pick tick owner
          result)
  | ask (tick : Nat) (owner : CallbackOwner) (keep : List ResultId) (rest : List CallbackOwner)
      (outer : List Activation) (h : s.ticking = ⟨tick, .draining owner keep rest⟩ :: outer)
      (result : ResultId) (queue : List ResultId) (hqueue : s.queueOf owner = result :: queue)
      (r : FrameResult) (hresult : s.results[result]? = some r)
      (htimeout : s.clock - r.createdTime ≥ r.okTimeout) :
      Turn s { s.setQueue owner queue with
        ticking := ⟨tick, .asking result owner keep rest⟩ :: outer }
  | putBack (tick : Nat) (owner : CallbackOwner) (keep : List ResultId) (rest : List CallbackOwner)
      (outer : List Activation) (h : s.ticking = ⟨tick, .draining owner keep rest⟩ :: outer)
      (hqueue : s.queueOf owner = []) :
      Turn s { s.setQueue owner keep with ticking := ⟨tick, .owners rest⟩ :: outer }

theorem turn_of_advance (hallocated : ∀ owner, ∀ result ∈ s.queueOf owner,
    ∃ r, s.results[result]? = some r) (h : s.advance = some s') : Turn s s' := by
  rw [advance] at h
  split at h
  · cases h
  rename_i tick phase outer hticking
  split at h
  · rename_i owner rest
    cases h
    exact .frame tick owner rest outer hticking
  · cases h
    exact .collect tick outer hticking
  · rename_i owner rest
    split at h
    · cases h
      exact .visit tick owner rest outer hticking
    · cases h
      exact .skip tick owner rest outer hticking
  · cases h
    exact .leave tick outer hticking
  · rename_i owner keep rest
    split at h
    · rename_i result queue hqueue
      have hs' := Option.some.inj h
      obtain ⟨r, hr⟩ := hallocated owner result (hqueue ▸ List.mem_cons_self)
      have hr' : (s.setQueue owner queue).results[result]? = some r := hr
      rw [take] at hs'
      rw [hr'] at hs'
      dsimp only at hs'
      split at hs'
      · rw [← hs']
        exact .early tick owner keep rest outer hticking result queue hqueue
      rename_i htimeout
      have htimeout' : s.clock - r.createdTime ≥ r.okTimeout :=
        of_decide_eq_true (not_not.1 htimeout)
      split at hs'
      · rename_i hdone
        rw [← hs']
        exact .done tick owner keep rest outer hticking result queue hqueue r hr htimeout' hdone
      · rw [← hs']
        exact .ask tick owner keep rest outer hticking result queue hqueue r hr htimeout'
    · rename_i hqueue
      cases h
      exact .putBack tick owner keep rest outer hticking hqueue
  · cases h

/-- What an owner's word can do. -/
theorem answer_cases {isReady : Bool} (h : s.answer isReady = some s') :
    ∃ tick result owner keep rest outer,
      s.ticking = ⟨tick, .asking result owner keep rest⟩ :: outer ∧
      s' = if isReady = true then
        ({ s with ticking := ⟨tick, .draining owner keep rest⟩ :: outer } : CallbackManager).pick
          tick owner result
      else { s with ticking := ⟨tick, .draining owner (keep ++ [result]) rest⟩ :: outer } := by
  rw [answer] at h
  split at h
  · rename_i tick result owner keep rest outer hticking
    exact ⟨tick, result, owner, keep, rest, outer, hticking, (Option.some.inj h).symm⟩
  · cases h

theorem Collecting.turned (h : s.Collecting) (hturn : s.Turn s') : s'.Collecting := by
  have hhere {a : Activation} {outer : List Activation} (hticking : s.ticking = a :: outer) :
      s.Ticks a := h.ticks a (hticking ▸ List.mem_cons_self)
  cases hturn with
  | frame tick owner rest outer hticking =>
    exact h.between hticking (some (.frames rest)) rfl rfl (fun p hp ↦ by cases hp; rfl)
      fun p hp ↦ by cases hp; exact ⟨fun _ _ ↦ trivial, List.nodup_nil⟩
  | collect tick outer hticking =>
    exact h.between hticking (some (.owners s.callbacksToRun.keys)) rfl rfl
      (fun p hp ↦ by cases hp; rfl)
      fun p hp ↦ by cases hp; exact ⟨fun _ _ ↦ trivial, TreeMap.nodup_keys⟩
  | visit tick owner rest outer hticking => exact h.visit hticking rfl rfl
  | skip tick owner rest outer hticking =>
    exact h.between hticking (some (.owners rest)) rfl rfl (fun p hp ↦ by cases hp; rfl)
      fun p hp ↦ by
        cases hp
        exact ⟨fun _ ho ↦ List.mem_cons_of_mem owner ho,
          (List.nodup_cons.1 (hhere hticking).visits).2⟩
  | leave tick outer hticking =>
    exact h.between hticking none rfl rfl (fun p hp ↦ by cases hp) fun p hp ↦ by cases hp
  | early tick owner keep rest outer hticking result queue hqueue =>
    have hpopped : Collecting { s.setQueue owner queue with
        ticking := ⟨tick, .asking result owner keep rest⟩ :: outer } :=
      h.pop hticking hqueue rfl rfl
    exact hpopped.refuse rfl rfl rfl
  | done tick owner keep rest outer hticking result queue hqueue =>
    have hpopped : Collecting { s.setQueue owner queue with
        ticking := ⟨tick, .asking result owner keep rest⟩ :: outer } :=
      h.pop hticking hqueue rfl rfl
    exact hpopped.pick rfl
  | ask tick owner keep rest outer hticking result queue hqueue =>
    exact h.pop hticking hqueue rfl rfl
  | putBack tick owner keep rest outer hticking hqueue => exact h.putBack hticking hqueue rfl rfl

theorem Collecting.answered (h : s.Collecting) {isReady : Bool}
    (hanswer : s.answer isReady = some s') : s'.Collecting := by
  obtain ⟨tick, result, owner, keep, rest, outer, hticking, rfl⟩ := answer_cases hanswer
  split
  · exact h.pick hticking
  · exact h.refuse hticking rfl rfl

/-- What is queued was allocated. -/
def Allocated (s : CallbackManager) : Prop :=
  ∀ result, result < s.nextResult ↔ ∃ r, s.results[result]? = some r

theorem Collecting.queued_allocated (h : s.Collecting) (hallocated : s.Allocated)
    (owner : CallbackOwner) (result : ResultId) (hresult : result ∈ s.queueOf owner) :
    ∃ r, s.results[result]? = some r := by
  have hline : result ∈ s.view.waiting owner := Scan.mem_line.2 (.inr hresult)
  exact (hallocated result).1 (h.good.waiting_lt hline)

theorem Collecting.step (h : s.Collecting) (hallocated : s.Allocated) {i : Input}
    (hstep : s.step i = some s') : s'.Collecting := by
  cases i with
  | registerFrame owner =>
    cases hstep
    exact h.unmoved rfl rfl (fun _ ↦ rfl) rfl rfl fun _ ↦ rfl
  | unregisterFrame owner =>
    cases hstep
    exact h.unmoved rfl rfl (fun _ ↦ rfl) rfl rfl fun _ ↦ rfl
  | registerCallbacks owner =>
    cases hstep
    refine h.unmoved rfl rfl (fun _ ↦ rfl) rfl rfl fun o ↦ ?_
    rw [registerCallbacks, queueOf_setQueue]
    split
    · rename_i ho
      rw [ho]
    · rfl
  | unregisterCallbacks owner =>
    rw [CallbackManager.step] at hstep
    split at hstep
    · cases hstep
    rename_i hcurrent
    cases hstep
    refine h.drop [owner] rfl rfl rfl rfl rfl (fun o ↦ ?_) fun o ho ↦ ?_
    · rw [queueOf, unregisterCallbacks, lookup_erase]
      by_cases ho : owner = o
      · rw [if_pos ho, if_pos (List.mem_singleton.2 ho.symm)]
        rfl
      · rw [if_neg ho, if_neg fun hmem ↦ ho (List.mem_singleton.1 hmem).symm]
        rfl
    · refine scansOf_eq_nil fun a ha hphase ↦ hcurrent ?_
      rw [isCurrent, List.any_eq_true]
      exact ⟨a, ha, decide_eq_true (List.mem_singleton.1 ho ▸ hphase)⟩
  | addCallback owner result =>
    cases hstep
    exact h.add owner result
  | setDone result value =>
    cases hstep
    rw [setDone]
    split
    · exact h
    · exact h.unmoved rfl rfl (fun _ ↦ rfl) rfl rfl fun _ ↦ rfl
  | clear =>
    rw [CallbackManager.step] at hstep
    split at hstep
    · cases hstep
    rename_i hcurrent
    cases hstep
    refine h.drop s.callbacksToRun.keys rfl rfl rfl rfl rfl (fun o ↦ ?_) fun o _ ↦ ?_
    · have hempty : s.clear.queueOf o = [] := by simp [queueOf, clear]
      rw [hempty]
      split
      · rfl
      · rename_i ho
        rw [mem_keys_iff_lookup] at ho
        cases hlookup : s.callbacksToRun[o]? with
        | none => rw [queueOf, hlookup]; rfl
        | some queue => exact absurd ⟨queue, hlookup⟩ ho
    · refine scansOf_eq_nil fun a ha hphase ↦ hcurrent ?_
      rw [List.any_eq_true]
      exact ⟨a, ha, by rw [hphase]; rfl⟩
  | tick =>
    cases hstep
    exact h.tick
  | advance => exact h.turned (turn_of_advance (h.queued_allocated hallocated) hstep)
  | answer isReady => exact h.answered hstep
  | fire tick => exact h.fire hstep
  | wait now =>
    rw [CallbackManager.step] at hstep
    split at hstep
    · cases hstep
    · cases hstep
      exact h.unmoved rfl rfl (fun _ ↦ rfl) rfl rfl fun _ ↦ rfl

/-! ## Timeouts -/

/-- The timeout of a result has passed. -/
def Passed (s : CallbackManager) (result : ResultId) : Prop :=
  ∃ r, s.results[result]? = some r ∧ s.clock - r.createdTime ≥ r.okTimeout

/-- A result is found ready, or its owner asked, only past its timeout. -/
structure Timed (s : CallbackManager) : Prop where
  allocated : s.Allocated
  picked : ∀ tick owner result, .picked tick owner result ∈ s.log → s.Passed result
  asked : ∀ a ∈ s.ticking, ∀ result owner keep rest,
    a.phase = .asking result owner keep rest → s.Passed result

/-- The results stay where they are, and time goes on. -/
structure Ages (s s' : CallbackManager) : Prop where
  clock : s.clock ≤ s'.clock
  results : ∀ (result : ResultId) (r : FrameResult), s.results[result]? = some r →
    ∃ r' : FrameResult, s'.results[result]? = some r' ∧ r'.createdTime =
      r.createdTime ∧ r'.okTimeout = r.okTimeout
  allocated : s.Allocated → s'.Allocated

theorem Ages.of_eq (hclock : s'.clock = s.clock) (hresults : s'.results = s.results)
    (hnext : s'.nextResult = s.nextResult) : Ages s s' where
  clock := hclock.ge
  results result r hr := ⟨r, hresults ▸ hr, rfl, rfl⟩
  allocated h := by rwa [Allocated, hresults, hnext]

theorem Passed.ages {result : ResultId} (h : s.Passed result) (hages : Ages s s') :
    s'.Passed result := by
  obtain ⟨r, hr, htimeout⟩ := h
  obtain ⟨r', hr', hcreated, htime⟩ := hages.results result r hr
  refine ⟨r', hr', ?_⟩
  have hclock := hages.clock
  omega

theorem Timed.ages (h : s.Timed) (hages : Ages s s')
    (hlog : ∀ tick owner result, .picked tick owner result ∈ s'.log →
      .picked tick owner result ∈ s.log ∨ s'.Passed result)
    (hticking : ∀ a ∈ s'.ticking, a ∈ s.ticking ∨ ∀ result owner keep rest,
      a.phase = .asking result owner keep rest → s'.Passed result) : s'.Timed where
  allocated := hages.allocated h.allocated
  picked tick owner result hpicked := (hlog tick owner result hpicked).elim
    (fun hold ↦ (h.picked tick owner result hold).ages hages) id
  asked a ha result owner keep rest hphase := (hticking a ha).elim
    (fun hold ↦ (h.asked a hold result owner keep rest hphase).ages hages)
    fun hnew ↦ hnew result owner keep rest hphase

/-- The innermost tick asks of none but results past their timeout, and finds no other ready. -/
theorem Timed.turned (h : s.Timed) (hturn : s.Turn s') : s'.Timed := by
  have hkeep {a : Activation} {outer : List Activation} {phase : TickPhase}
      (hticking : s.ticking = a :: outer)
      (hphase : ∀ result owner keep rest, phase ≠ .asking result owner keep rest) :
      ∀ b ∈ (⟨a.tick, phase⟩ :: outer : List Activation), b ∈ s.ticking ∨
        ∀ result owner keep rest, b.phase = .asking result owner keep rest → s'.Passed result := by
    intro b hb
    rcases List.mem_cons.1 hb with rfl | hb
    · exact .inr fun result owner keep rest heq ↦ absurd heq (hphase result owner keep rest)
    · exact .inl (hticking ▸ List.mem_cons_of_mem a hb)
  cases hturn with
  | frame tick owner rest outer hticking =>
    exact h.ages (.of_eq rfl rfl rfl) (fun _ _ _ ↦ .inl) (hkeep hticking (by simp))
  | collect tick outer hticking =>
    exact h.ages (.of_eq rfl rfl rfl) (fun _ _ _ ↦ .inl) (hkeep hticking (by simp))
  | visit tick owner rest outer hticking =>
    exact h.ages (.of_eq rfl rfl rfl) (fun _ _ _ ↦ .inl) (hkeep hticking (by simp))
  | skip tick owner rest outer hticking =>
    exact h.ages (.of_eq rfl rfl rfl) (fun _ _ _ ↦ .inl) (hkeep hticking (by simp))
  | leave tick outer hticking =>
    exact h.ages (.of_eq rfl rfl rfl) (fun _ _ _ ↦ .inl)
      fun a ha ↦ .inl (hticking ▸ List.mem_cons_of_mem _ ha)
  | early tick owner keep rest outer hticking result queue hqueue =>
    exact h.ages (.of_eq rfl rfl rfl) (fun _ _ _ ↦ .inl) (hkeep hticking (by simp))
  | done tick owner keep rest outer hticking result queue hqueue r hresult htimeout hdone =>
    refine h.ages (.of_eq rfl rfl rfl) (fun t o x hpicked ↦ ?_) (hkeep hticking (by simp))
    refine (List.mem_append.1 hpicked).imp id fun hnew ↦ ?_
    cases List.mem_singleton.1 hnew
    exact ⟨r, hresult, htimeout⟩
  | ask tick owner keep rest outer hticking result queue hqueue r hresult htimeout =>
    refine h.ages (.of_eq rfl rfl rfl) (fun _ _ _ ↦ .inl) fun a ha ↦ ?_
    rcases List.mem_cons.1 ha with rfl | ha
    · refine .inr fun x o k l heq ↦ ?_
      cases heq
      exact ⟨r, hresult, htimeout⟩
    · exact .inl (hticking ▸ List.mem_cons_of_mem _ ha)
  | putBack tick owner keep rest outer hticking hqueue =>
    exact h.ages (.of_eq rfl rfl rfl) (fun _ _ _ ↦ .inl) (hkeep hticking (by simp))

theorem Timed.answered (h : s.Timed) {isReady : Bool} (hanswer : s.answer isReady = some s') :
    s'.Timed := by
  obtain ⟨tick, result, owner, keep, rest, outer, hticking, rfl⟩ := answer_cases hanswer
  have hpassed := h.asked _ (hticking ▸ List.mem_cons_self) result owner keep rest rfl
  have houter {a : Activation} (ha : a ∈ outer) : a ∈ s.ticking :=
    hticking ▸ List.mem_cons_of_mem _ ha
  split
  · refine h.ages (.of_eq rfl rfl rfl) (fun t o x hpicked ↦ ?_) fun a ha ↦ ?_
    · refine (List.mem_append.1 hpicked).imp id fun hnew ↦ ?_
      cases List.mem_singleton.1 hnew
      exact hpassed
    · rcases List.mem_cons.1 ha with rfl | ha
      · exact .inr fun _ _ _ _ heq ↦ (nomatch heq)
      · exact .inl (houter ha)
  · refine h.ages (.of_eq rfl rfl rfl) (fun _ _ _ ↦ .inl) fun a ha ↦ ?_
    rcases List.mem_cons.1 ha with rfl | ha
    · exact .inr fun _ _ _ _ heq ↦ (nomatch heq)
    · exact .inl (houter ha)

/-- A result is added at an address of its own. -/
theorem Ages.add (h : s.Allocated) (owner : CallbackOwner) (result : FrameResult) :
    Ages s (s.addCallback owner result) where
  clock := le_rfl
  results x r hr := by
    have hne : s.nextResult ≠ x := fun heq ↦ ((h x).2 ⟨r, hr⟩).ne heq.symm
    exact ⟨r, by rw [addCallback, lookup_insert, if_neg hne]; exact hr, rfl, rfl⟩
  allocated _ x := by
    rw [addCallback, lookup_insert]
    by_cases hx : s.nextResult = x
    · rw [if_pos hx]
      exact ⟨fun _ ↦ ⟨result, rfl⟩, fun _ ↦ hx ▸ Nat.lt_succ_self _⟩
    · rw [if_neg hx, ← h x]
      exact ⟨fun hlt ↦ lt_of_le_of_ne (Nat.le_of_lt_succ hlt) (Ne.symm hx),
        fun hlt ↦ hlt.trans (Nat.lt_succ_self _)⟩

theorem Ages.setDone (s : CallbackManager) (result : ResultId) (value : Bool) :
    Ages s (s.setDone result value) := by
  rw [CallbackManager.setDone]
  cases hresult : s.results[result]? with
  | none => exact .of_eq rfl rfl rfl
  | some r =>
    refine ⟨le_rfl, fun x r' hr' ↦ ?_, fun h x ↦ (h x).trans ?_⟩
    · dsimp only
      rw [lookup_insert]
      split
      · rename_i hx
        rw [← hx, hresult] at hr'
        cases hr'
        exact ⟨_, rfl, rfl, rfl⟩
      · exact ⟨r', hr', rfl, rfl⟩
    · dsimp only
      rw [lookup_insert]
      split
      · rename_i hx
        rw [← hx, hresult]
        exact ⟨fun _ ↦ ⟨_, rfl⟩, fun _ ↦ ⟨_, rfl⟩⟩
      · exact Iff.rfl

theorem Timed.step (h : s.Timed) {i : Input} (hc : s.Collecting) (hstep : s.step i = some s') :
    s'.Timed := by
  have hquiet (hages : Ages s s') {more : List CallbackEvent} (hlog : s'.log = s.log ++ more)
      (hmore : ∀ event ∈ more, ∀ tick owner result, event ≠ .picked tick owner result)
      (hticking : s'.ticking = s.ticking) : s'.Timed := by
    refine h.ages hages (fun tick owner result hpicked ↦ .inl ?_) fun a ha ↦ .inl (hticking ▸ ha)
    rw [hlog] at hpicked
    exact ((Delivery.Good.picks_append s.log hmore).2.2 tick owner result).1 hpicked
  have hnil : s.log = s.log ++ [] := (List.append_nil _).symm
  cases i with
  | registerFrame owner => cases hstep; exact hquiet (.of_eq rfl rfl rfl) hnil (by simp) rfl
  | unregisterFrame owner => cases hstep; exact hquiet (.of_eq rfl rfl rfl) hnil (by simp) rfl
  | registerCallbacks owner => cases hstep; exact hquiet (.of_eq rfl rfl rfl) hnil (by simp) rfl
  | unregisterCallbacks owner =>
    rw [CallbackManager.step] at hstep
    split at hstep
    · cases hstep
    · cases hstep
      exact hquiet (.of_eq rfl rfl rfl) rfl (by simp) rfl
  | addCallback owner result =>
    cases hstep
    exact hquiet (.add h.allocated owner result) rfl (by simp) rfl
  | setDone result value =>
    cases hstep
    have hsame : (s.setDone result value).log = s.log ∧
        (s.setDone result value).ticking = s.ticking := by
      rw [setDone]
      split <;> exact ⟨rfl, rfl⟩
    exact hquiet (.setDone s result value) (hsame.1.trans hnil) (by simp) hsame.2
  | clear =>
    rw [CallbackManager.step] at hstep
    split at hstep
    · cases hstep
    · cases hstep
      exact hquiet (.of_eq rfl rfl rfl) rfl (by simp) rfl
  | tick =>
    cases hstep
    refine h.ages (.of_eq rfl rfl rfl) (fun _ _ _ ↦ .inl) fun a ha ↦ ?_
    rcases List.mem_cons.1 ha with rfl | ha
    · exact .inr fun _ _ _ _ heq ↦ (nomatch heq)
    · exact .inl ha
  | advance => exact h.turned (turn_of_advance (hc.queued_allocated h.allocated) hstep)
  | answer isReady => exact h.answered hstep
  | fire tick =>
    change s.fire tick = some s' at hstep
    rw [fire] at hstep
    split at hstep
    · cases hstep
    · split at hstep
      · cases hstep
      · cases hstep
        exact hquiet (.of_eq rfl rfl rfl) hnil (by simp) rfl
      · cases hstep
        exact hquiet (.of_eq rfl rfl rfl) rfl (by simp) rfl
  | wait now =>
    rw [CallbackManager.step] at hstep
    split at hstep
    · cases hstep
    · rename_i hnow
      cases hstep
      exact hquiet ⟨not_lt.1 hnow, fun _ r hr ↦ ⟨r, hr, rfl, rfl⟩, id⟩ hnil (by simp) rfl

/-! ## The result -/

/-- Every result that was added is fired once at most, past its timeout and after it was found
ready; while its owner stays it is queued, or about to be fired, or was fired; and a tick fires
those of one owner in the order they were added. -/
structure Delivers (s : CallbackManager) : Prop where
  numbered : s.log.filterMap Delivery.addedItem = List.range s.nextResult
  once : (s.log.filterMap Delivery.firedItem).Nodup
  due : ∀ tick owner result, .fired tick owner result ∈ s.log →
    .picked tick owner result ∈ s.log ∧ s.Passed result
  kept : ∀ result owner, .added result owner ∈ s.log → ¬ Delivery.Dropped s.log result owner →
    result ∈ s.line owner ∨ (∃ tick, ⟨owner, result⟩ ∈ s.readyOf tick) ∨
      ∃ tick, .fired tick owner result ∈ s.log
  idle : s.ticking = [] → (∀ tick, s.readyOf tick = []) → ∀ result owner,
    .added result owner ∈ s.log → ¬ Delivery.Dropped s.log result owner →
      result ∈ s.queueOf owner ∨ ∃ tick, .fired tick owner result ∈ s.log
  inOrder : ∀ tick owner, (firesOf s.log tick owner).Pairwise (· < ·)

/-- The owner a tick waits for the word of, and the result it is asked about. -/
def asks (s : CallbackManager) (tick : Nat) (owner : CallbackOwner) (result : ResultId) : Prop :=
  ∃ keep rest outer, s.ticking = ⟨tick, .asking result owner keep rest⟩ :: outer

/-- A step finds a result ready only past its timeout, when it is done or its owner says so; and it
fires only what was found ready before. -/
structure DeliversStep (s : CallbackManager) (i : Input) (s' : CallbackManager) : Prop where
  picks : ∀ tick owner result, .picked tick owner result ∈ s'.log →
    .picked tick owner result ∉ s.log → ∃ r, s.results[result]? = some r ∧
      s.clock - r.createdTime ≥ r.okTimeout ∧
        (r.done = true ∨ i = .answer true ∧ s.asks tick owner result)
  fires : ∀ tick owner result, .fired tick owner result ∈ s'.log →
    .fired tick owner result ∉ s.log → .picked tick owner result ∈ s.log

theorem Collecting.delivers (h : s.Collecting) (htimed : s.Timed) : s.Delivers where
  numbered := h.good.numbered
  once := h.good.fired_nodup
  due tick owner result hfired :=
    have hpicked := h.good.picked_of_fired hfired
    ⟨hpicked, htimed.picked tick owner result hpicked⟩
  kept result owner hadded hstays := by
    refine (h.good.still_there hadded hstays).imp_right fun hrest ↦ hrest.imp_left ?_
    rintro ⟨tick, hready⟩
    obtain ⟨c, hc, heq⟩ := List.mem_map.1 hready
    cases heq
    exact ⟨tick, hc⟩
  idle hticking hready result owner hadded hstays := by
    rcases h.good.still_there hadded hstays with hwaits | ⟨tick, hin⟩ | hfired
    · have hline : s.line owner = s.queueOf owner := by
        rw [line, scansOf, hticking]
        rfl
      exact .inl (hline ▸ hwaits)
    · rw [show s.view.ready tick = (s.readyOf tick).map _ from rfl, hready] at hin
      cases hin
    · exact .inr hfired
  inOrder := h.good.fires_sorted

/-- What the log gains in a step, of picks and of fires. -/
theorem deliversStep (hc : s.Collecting) (ht : s.Timed) {i : Input} (hstep : s.step i = some s') :
    s.DeliversStep i s' := by
  have hquiet {more : List CallbackEvent} (hlog : s'.log = s.log ++ more)
      (hpicked : ∀ tick owner result, .picked tick owner result ∉ more)
      (hfired : ∀ tick owner result, .fired tick owner result ∉ more) : s.DeliversStep i s' := by
    refine ⟨fun t o r hnew hold ↦ ?_, fun t o r hnew hold ↦ ?_⟩
    · rw [hlog] at hnew
      exact absurd ((List.mem_append.1 hnew).resolve_left hold) (hpicked t o r)
    · rw [hlog] at hnew
      exact absurd ((List.mem_append.1 hnew).resolve_left hold) (hfired t o r)
  have hnil : s.log = s.log ++ [] := (List.append_nil _).symm
  have hpick {t : Nat} {o : CallbackOwner} {x : ResultId} {r : FrameResult}
      (hlog : s'.log = s.log ++ [.picked t o x]) (hr : s.results[x]? = some r)
      (htimeout : s.clock - r.createdTime ≥ r.okTimeout)
      (hwhy : r.done = true ∨ i = .answer true ∧ s.asks t o x) : s.DeliversStep i s' := by
    refine ⟨fun t' o' x' hnew hold ↦ ?_, fun t' o' x' hnew hold ↦ ?_⟩
    · rw [hlog] at hnew
      cases List.mem_singleton.1 ((List.mem_append.1 hnew).resolve_left hold)
      exact ⟨r, hr, htimeout, hwhy⟩
    · rw [hlog] at hnew
      cases List.mem_singleton.1 ((List.mem_append.1 hnew).resolve_left hold)
  cases i with
  | registerFrame owner => cases hstep; exact hquiet hnil (by simp) (by simp)
  | unregisterFrame owner => cases hstep; exact hquiet hnil (by simp) (by simp)
  | registerCallbacks owner => cases hstep; exact hquiet hnil (by simp) (by simp)
  | unregisterCallbacks owner =>
    rw [step] at hstep
    split at hstep
    · cases hstep
    · cases hstep
      exact hquiet rfl (by simp) (by simp)
  | addCallback owner result => cases hstep; exact hquiet rfl (by simp) (by simp)
  | setDone result value =>
    cases hstep
    have hlog : (s.setDone result value).log = s.log := by
      rw [setDone]
      split <;> rfl
    exact hquiet (hlog.trans hnil) (by simp) (by simp)
  | clear =>
    rw [step] at hstep
    split at hstep
    · cases hstep
    · cases hstep
      exact hquiet rfl (by simp) (by simp)
  | tick => cases hstep; exact hquiet hnil (by simp) (by simp)
  | advance =>
    cases turn_of_advance (hc.queued_allocated ht.allocated) hstep with
    | done tick owner keep rest outer hticking result queue hqueue r hresult htimeout hdone =>
      exact hpick rfl hresult htimeout (.inl hdone)
    | _ => exact hquiet hnil (by simp) (by simp)
  | answer isReady =>
    obtain ⟨tick, result, owner, keep, rest, outer, hticking, hs'⟩ := answer_cases hstep
    obtain ⟨r, hr, htimeout⟩ :=
      ht.asked _ (hticking ▸ List.mem_cons_self) result owner keep rest rfl
    cases isReady with
    | true =>
      exact hpick (by rw [hs']; rfl) hr htimeout (.inr ⟨rfl, keep, rest, outer, hticking⟩)
    | false => exact hquiet ((by rw [hs']; rfl : s'.log = s.log).trans hnil) (by simp) (by simp)
  | fire tick =>
    change s.fire tick = some s' at hstep
    rw [fire] at hstep
    split at hstep
    · cases hstep
    · split at hstep
      · cases hstep
      · cases hstep
        exact hquiet hnil (by simp) (by simp)
      · rename_i item ready hready
        cases hstep
        refine ⟨fun t o r hnew hold ↦ ?_, fun t o r hnew hold ↦ ?_⟩
        · cases List.mem_singleton.1 ((List.mem_append.1 hnew).resolve_left hold)
        · cases List.mem_singleton.1 ((List.mem_append.1 hnew).resolve_left hold)
          have hmem : (item.owner, item.result) ∈ s.view.ready tick := by
            rw [show s.view.ready tick = (s.readyOf tick).map _ from rfl, readyOf, hready]
            exact List.mem_cons_self
          have hall : (item.owner, item.result) ∈ s.log.filterMap (Delivery.pickedIn tick) := by
            rw [show s.log = s.view.log from rfl, hc.good.split tick]
            exact List.mem_append_right _ hmem
          exact Delivery.mem_pickedIn.1 hall
  | wait now =>
    rw [step] at hstep
    split at hstep
    · cases hstep
    · cases hstep
      exact hquiet hnil (by simp) (by simp)

theorem collecting_fresh : Collecting {} ∧ Timed {} := by
  have hqueue (owner : CallbackOwner) : queueOf {} owner = [] := by simp [queueOf]
  have hline (owner : CallbackOwner) : line {} owner = [] := hqueue owner
  have hready (tick : Nat) : readyOf {} tick = [] := by simp [readyOf]
  refine ⟨⟨⟨rfl, fun owner ↦ ?_, fun owner item hitem ↦ ?_, by simp [view], List.nodup_nil,
    List.nodup_nil, fun _ _ ↦ List.Pairwise.nil, fun tick ↦ ?_, by simp [view]⟩, fun owner ↦ ?_,
    List.nodup_nil, by simp, by simp⟩, ⟨fun result ↦ by simp, by simp, by simp⟩⟩
  · change (line {} owner).Pairwise _
    rw [hline]
    exact List.Pairwise.nil
  · change item ∈ line {} owner at hitem
    rw [hline] at hitem
    cases hitem
  · change [] = [] ++ (readyOf {} tick).map fun c ↦ (c.owner, c.result)
    rw [hready]
    rfl
  · rw [hqueue]
    exact .nil

/-- **Results are delivered once, in time and in order**, in every run of the manager. -/
theorem callbacks_delivered (h : Reaches step always {} s) :
    s.Delivers ∧ ∀ i s', s.step i = some s' → s.DeliversStep i s' := by
  have hboth : s.Collecting ∧ s.Timed :=
    h.invariant (I := fun s ↦ s.Collecting ∧ s.Timed) collecting_fresh
      fun _ _ _ hinv _ hstep ↦ ⟨hinv.1.step hinv.2.allocated hstep, hinv.2.step hinv.1 hstep⟩
  exact ⟨hboth.1.delivers hboth.2, fun i s' hstep ↦ deliversStep hboth.1 hboth.2 hstep⟩

/-- Two results of one owner.  The first is one millisecond early for the first tick; at the second
it waits for the owner, which adds the other, done, while it is asked about the first. -/
def delivering : List Input :=
  [.addCallback 1 { createdTime := 5, okTimeout := 10 }, .wait 14, .tick, .advance, .advance,
    .advance, .advance, .advance, .wait 15, .tick, .advance, .advance, .advance,
    .addCallback 1 { createdTime := 15, okTimeout := 0, done := true }, .answer true, .advance,
    .advance, .advance, .fire 1, .fire 1, .fire 1]

/-- The first tick fires neither, and the second both, in the order they were added. -/
theorem callbacks_delivered_twice : ∃ s : CallbackManager,
    firesOf s.log 0 1 = [] ∧ firesOf s.log 1 1 = [0, 1] ∧ s.Delivers := by
  obtain ⟨s, hreach, hnone, hfires⟩ := exists_reaches step always {}
    (fun s ↦ firesOf s.log 0 1 = [] ∧ firesOf s.log 1 1 = [0, 1])
    delivering (by decide +kernel) (meets_always _ _)
  exact ⟨s, hnone, hfires, (callbacks_delivered hreach).1⟩

end CallbackManager
end EosMesh
