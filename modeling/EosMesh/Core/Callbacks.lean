import EosMesh.Lib.Delivery
import EosMesh.Lib.Run
import EosMesh.Lib.Table

/-!
# The callback manager

`core/callback_manager.cpp`: results are queued for their owners, and a tick delivers those that are
ready.

* A `FrameResult` is one result, and lives where it was allocated: the queues hold `ResultId`s.  An
  interface that waits for something sets `done` by the pointer it keeps.
* `Activation` is a tick that holds the lock.  While an owner runs its frame or is asked whether a
  result is ready, it may add results, and begin a tick within this one; the innermost one moves.
* Once a tick has collected what is ready it fires that outside the lock.  Other ticks go on
  meanwhile, of a delegate that is fired or of another thread.
* `step` is the machine.  An owner that a tick is just collecting from stays: the tick refers to its
  queue.  Notifications are not modelled, nor the records of the tracer.
-/

set_option autoImplicit false

namespace EosMesh

open Lib
open Std (TreeMap)

/-- An `i_run_callback`, by its address. -/
abbrev CallbackOwner := Nat

/-- A `frame_result`, by where it was allocated: they are numbered as they are added. -/
abbrev ResultId := Nat

/-- `frame_result`, as far as its delivery depends on it.  Times are in milliseconds. -/
structure FrameResult where
  createdTime : Int
  okTimeout : Int
  done : Bool := false
  deriving DecidableEq, Repr

/-- `callback_ok_timeout`. -/
def FrameResult.callbackOkTimeout (result : FrameResult) (now : Int) : Bool :=
  now - result.createdTime ≥ result.okTimeout

/-- A result that is ready to deliver. -/
structure ReadyCallback where
  owner : CallbackOwner
  result : ResultId
  deriving DecidableEq, Repr

/-- Where a tick is that holds the lock, with the owners it has yet to visit. -/
inductive TickPhase
  /-- `run_frames`. -/
  | frames (rest : List CallbackOwner)
  /-- `collect_ready_callbacks`, between two owners. -/
  | owners (rest : List CallbackOwner)
  /-- Emptying the queue of an owner; `keep` has what is not ready. -/
  | draining (owner : CallbackOwner) (keep : List ResultId) (rest : List CallbackOwner)
  /-- Asking the owner whether a result is ready. -/
  | asking (result : ResultId) (owner : CallbackOwner) (keep : List ResultId)
      (rest : List CallbackOwner)
  deriving DecidableEq, Repr

/-- The owner a tick refers to the queue of. -/
def TickPhase.current : TickPhase → Option CallbackOwner
  | .frames _ | .owners _ => none
  | .draining owner _ _ | .asking _ owner _ _ => some owner

/-- A tick that holds the lock. -/
structure Activation where
  tick : Nat
  phase : TickPhase
  deriving DecidableEq, Repr

/-- What happened, for the record: an owner that is unregistered drops what is queued for it. -/
abbrev CallbackEvent := DeliveryEvent CallbackOwner

/-- Who runs a frame, and what waits to be told to the game, by its owner. -/
structure CallbackManager where
  framesToRun : TreeMap CallbackOwner Unit := {}
  callbacksToRun : TreeMap CallbackOwner (List ResultId) := {}
  /-- The results that were allocated. -/
  results : TreeMap ResultId FrameResult := {}
  nextResult : ResultId := 0
  /-- The ticks that hold the lock, the innermost first. -/
  ticking : List Activation := []
  /-- The `ready` of each tick that goes on. -/
  ready : TreeMap Nat (List ReadyCallback) := {}
  nextTick : Nat := 0
  /-- The steady clock, when it was last read. -/
  clock : Int := 0
  log : List CallbackEvent := []

namespace CallbackManager

variable (s : CallbackManager)

/-! ## Queues -/

/-- The owner is run on every frame. -/
def registerFrame (owner : CallbackOwner) : CallbackManager :=
  { s with framesToRun := s.framesToRun.insert owner () }

/-- The owner is run no more. -/
def unregisterFrame (owner : CallbackOwner) : CallbackManager :=
  { s with framesToRun := s.framesToRun.erase owner }

/-- What waits under an owner. -/
def queueOf (owner : CallbackOwner) : List ResultId := (s.callbacksToRun[owner]?).getD []

/-- What waits under an owner, replaced. -/
def setQueue (owner : CallbackOwner) (queue : List ResultId) : CallbackManager :=
  { s with callbacksToRun := s.callbacksToRun.insert owner queue }

/-- The owner has a queue, which keeps what it holds already. -/
def registerCallbacks (owner : CallbackOwner) : CallbackManager :=
  s.setQueue owner (s.queueOf owner)

/-- What is queued is released with its owner. -/
def unregisterCallbacks (owner : CallbackOwner) : CallbackManager :=
  { s with
    callbacksToRun := s.callbacksToRun.erase owner
    log := s.log ++ [.dropped owner] }

/-- A result waits to be told, behind those of the same owner. -/
def addCallback (owner : CallbackOwner) (result : FrameResult) : CallbackManager :=
  { s.setQueue owner (s.queueOf owner ++ [s.nextResult]) with
    results := s.results.insert s.nextResult result
    nextResult := s.nextResult + 1
    log := s.log ++ [.added s.nextResult owner] }

/-- By the pointer an interface keeps. -/
def setDone (result : ResultId) (value : Bool) : CallbackManager :=
  match s.results[result]? with
  | none => s
  | some r => { s with results := s.results.insert result { r with done := value } }

/-- Everything is dropped, and nobody is told. -/
def clear : CallbackManager :=
  { s with
    framesToRun := {}
    callbacksToRun := {}
    log := s.log ++ s.callbacksToRun.keys.map .dropped }

/-! ## Ticks -/

/-- `tick`: it takes the lock, and runs the frames that are registered by then. -/
def tick : CallbackManager :=
  { s with
    ticking := ⟨s.nextTick, .frames s.framesToRun.keys⟩ :: s.ticking
    ready := s.ready.insert s.nextTick []
    nextTick := s.nextTick + 1 }

/-- A result is found ready. -/
def pick (tick : Nat) (owner : CallbackOwner) (result : ResultId) : CallbackManager :=
  { s with
    ready := s.ready.insert tick ((s.ready[tick]?).getD [] ++ [⟨owner, result⟩])
    log := s.log ++ [.picked tick owner result] }

/-- A tick takes the result at the front of a queue: past its timeout it is delivered if it is done,
and else if its owner says so. -/
def take (tick : Nat) (owner : CallbackOwner) (keep : List ResultId) (rest : List CallbackOwner)
    (outer : List Activation) (result : ResultId) (queue : List ResultId) : CallbackManager :=
  let s := s.setQueue owner queue
  match s.results[result]? with
  | none => s
  | some r =>
    if ¬ r.callbackOkTimeout s.clock then
      { s with ticking := ⟨tick, .draining owner (keep ++ [result]) rest⟩ :: outer }
    else if r.done then
      { s with ticking := ⟨tick, .draining owner keep rest⟩ :: outer }.pick tick owner result
    else { s with ticking := ⟨tick, .asking result owner keep rest⟩ :: outer }

/-- The innermost tick goes on, unless it waits for an owner. -/
def advance : Option CallbackManager :=
  match s.ticking with
  | [] => none
  | ⟨tick, phase⟩ :: outer =>
    match phase with
    -- What the frame of a registered owner does is the inputs that follow.
    | .frames (_ :: rest) => some { s with ticking := ⟨tick, .frames rest⟩ :: outer }
    | .frames [] => some { s with ticking := ⟨tick, .owners s.callbacksToRun.keys⟩ :: outer }
    | .owners (owner :: rest) =>
      if s.callbacksToRun.contains owner then
        some { s with ticking := ⟨tick, .draining owner [] rest⟩ :: outer }
      else some { s with ticking := ⟨tick, .owners rest⟩ :: outer }
    -- It has left the lock.
    | .owners [] => some { s with ticking := outer }
    | .draining owner keep rest =>
      match s.queueOf owner with
      | result :: queue => some (s.take tick owner keep rest outer result queue)
      | [] => some { s.setQueue owner keep with ticking := ⟨tick, .owners rest⟩ :: outer }
    | .asking .. => none

/-- The owner says whether the result is ready. -/
def answer (isReady : Bool) : Option CallbackManager :=
  match s.ticking with
  | ⟨tick, .asking result owner keep rest⟩ :: outer =>
    some (if isReady then
      { s with ticking := ⟨tick, .draining owner keep rest⟩ :: outer }.pick tick owner result
    else { s with ticking := ⟨tick, .draining owner (keep ++ [result]) rest⟩ :: outer })
  | _ => none

/-- A tick that has left the lock fires the next of what it collected. -/
def fire (tick : Nat) : Option CallbackManager :=
  if tick ∈ s.ticking.map Activation.tick then none
  else match s.ready[tick]? with
    | none => none
    | some [] => some { s with ready := s.ready.erase tick }
    | some (item :: ready) =>
      some { s with
        ready := s.ready.insert tick ready
        log := s.log ++ [.fired tick item.owner item.result] }

/-! ## The machine -/

/-- What happens to the manager. -/
inductive Input
  | registerFrame (owner : CallbackOwner)
  | unregisterFrame (owner : CallbackOwner)
  | registerCallbacks (owner : CallbackOwner)
  | unregisterCallbacks (owner : CallbackOwner)
  | addCallback (owner : CallbackOwner) (result : FrameResult)
  | setDone (result : ResultId) (value : Bool)
  | clear
  | tick
  | advance
  | answer (isReady : Bool)
  | fire (tick : Nat)
  | wait (now : Int)
  deriving DecidableEq, Repr

/-- Some tick refers to the queue of an owner. -/
def isCurrent (owner : CallbackOwner) : Bool :=
  s.ticking.any fun activation ↦ activation.phase.current = some owner

/-- One thing that happens. -/
def step : Input → Option CallbackManager
  | .registerFrame owner => some (s.registerFrame owner)
  | .unregisterFrame owner => some (s.unregisterFrame owner)
  | .registerCallbacks owner => some (s.registerCallbacks owner)
  | .unregisterCallbacks owner =>
    if s.isCurrent owner then none else some (s.unregisterCallbacks owner)
  | .addCallback owner result => some (s.addCallback owner result)
  | .setDone result value => some (s.setDone result value)
  | .clear =>
    if s.ticking.any fun activation ↦ activation.phase.current.isSome then none else some s.clear
  | .tick => some s.tick
  | .advance => s.advance
  | .answer isReady => s.answer isReady
  | .fire tick => s.fire tick
  | .wait now => if now < s.clock then none else some { s with clock := now }

end CallbackManager
end EosMesh
