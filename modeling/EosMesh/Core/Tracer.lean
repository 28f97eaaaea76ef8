import EosMesh.Core.LabelRegistry
import EosMesh.Core.TraceSink

/-!
# The tracer

`core/tracer.cpp`: every exported call hands the sink a record when it begins and another when it
ends, and a call that completes later hands a third when its result reaches the game.  The records
of one call carry one correlation id.  A result takes it from the call that is under way on its
thread when it is queued, the innermost one if calls are nested.

* `Tracer` is the tracer of one run, without its sink: what is handed to it, with the level it is
  for.
* `Tracing` is a tracer with the scopes that are open on each thread and the results that wait.
* `calls_stitched`: whatever the threads do in whatever order, the records of a trace belong
  together as their correlation ids say.
-/

set_option autoImplicit false

namespace EosMesh

open Lib
open Std (TreeMap)

/-! ## The tracer -/

/-- A thread of the process. -/
abbrev ThreadId := Nat

/-- Only a call that completes through a callback has a completion to correlate with. -/
inductive CallMode
  | sync | async
  deriving DecidableEq, Repr

/-- The exported call in progress on one thread. -/
structure CallFrame where
  fn : Bytes
  corr : Bytes
  deriving DecidableEq, Repr

/-- What the sink is handed, and the level from which on it is kept. -/
structure TracedRecord where
  level : TraceLevel
  env : TraceEnvelope
  record : TraceRecord

/-- A thread without a call under way has no frames; `handed` is what the sink was handed so far. -/
structure Tracer where
  enabled : Bool
  pid : UInt64 := 0
  instanceLabel : Bytes := []
  seq : UInt64 := 0
  nextCorr : UInt64 := 0
  threadLabels : TreeMap ThreadId Bytes := {}
  nextThreadLabel : UInt32 := 0
  callFrames : ThreadId → List CallFrame := fun _ ↦ []
  labels : LabelRegistry
  handed : List TracedRecord := []

/-- `c#n`. -/
def corrText (n : Nat) : Bytes :=
  'c'.toUInt8 :: '#'.toUInt8 :: (Nat.toDigits 10 n).map Char.toUInt8

/-- `t#n`. -/
def threadText (n : Nat) : Bytes :=
  't'.toUInt8 :: '#'.toUInt8 :: (Nat.toDigits 10 n).map Char.toUInt8

namespace Tracer

variable (s : Tracer)

/-- The name a trace has for a thread, given out in the order in which they first speak. -/
def logicalThreadLabel (thread : ThreadId) : Bytes × Tracer :=
  match s.threadLabels[thread]? with
  | some label => (label, s)
  | none =>
    let label := threadText s.nextThreadLabel.toNat
    (label, { s with
      threadLabels := s.threadLabels.insert thread label
      nextThreadLabel := s.nextThreadLabel + 1 })

/-- The envelope of the next record: the sequence number goes up by one each time. -/
def nextEnvelope (thread : ThreadId) (now : UInt64) : TraceEnvelope × Tracer :=
  let (tid, s) := s.logicalThreadLabel thread
  ({ schemaVersion := 1, seq := s.seq, tMonoNs := now, pid := s.pid, inst := s.instanceLabel, tid },
    { s with seq := s.seq + 1 })

/-- A record goes to the sink, whatever the level the sink is at. -/
def hand (level : TraceLevel) (record : TraceRecord) (thread : ThreadId) (now : UInt64) : Tracer :=
  let (env, s) := s.nextEnvelope thread now
  { s with handed := s.handed ++ [⟨level, env, record⟩] }

/-- The label a trace has for a token, so that the token itself is never written. -/
def label (kind : LabelKind) (token : Bytes) : Bytes × Tracer :=
  let (text, labels) := s.labels.label kind token
  (text, { s with labels })

/-- A call is recorded at its entry. -/
def recordCall (thread : ThreadId) (now : UInt64) (fn : Bytes) (api : Int32) (corr : Bytes)
    (args : List TraceField) : Tracer :=
  if ¬ s.enabled then s
  else s.hand (if corr = [] then .full else .lifecycle) (.ofCall fn api corr args) thread now

/-- What a call returned; a failure is recorded at a lower level than a success. -/
def recordReturn (thread : ThreadId) (now : UInt64) (fn corr : Bytes) (value : TraceReturn) :
    Tracer :=
  if ¬ s.enabled then s
  else
    let level : TraceLevel :=
      if value.type = .rResult ∧ value.result.code ≠ 0 then .errors
      else if corr = [] then .full else .lifecycle
    s.hand level (.ofReturn fn corr value) thread now

/-- A callback to the game, with its result. -/
def recordCallback (thread : ThreadId) (now : UInt64) (fn corr : Bytes) (result : TraceResultCode)
    (payload : List TraceField) : Tracer :=
  if ¬ s.enabled then s
  else
    s.hand (if result.code ≠ 0 then .errors else .lifecycle) (.ofCallback fn corr result payload)
      thread now

/-- A notification is registered or removed. -/
def recordNotify (thread : ThreadId) (now : UInt64) (event action token : Bytes)
    (fields : List TraceField) : Tracer :=
  if ¬ s.enabled ∨ token = [] then s
  else
    let (id, s) := s.label .notif token
    s.hand .lifecycle (.ofNotify event action id fields) thread now

/-- Something that happened on the network. -/
def recordNet (thread : ThreadId) (now : UInt64) (event : Bytes) (fields : List TraceField)
    (failure : Bool) : Tracer :=
  if ¬ s.enabled then s
  else s.hand (if failure then .errors else .lifecycle) (.ofNet event fields) thread now

/-- What became of a search, and at which peer. -/
def recordSearch (thread : ThreadId) (now : UInt64) (reason peer : Bytes) (count : UInt64)
    (failure : Bool) : Tracer :=
  if ¬ s.enabled then s
  else
    let (about, s) : List TraceField × Tracer :=
      if peer = [] then ([], s)
      else
        let (text, s) := s.label .puid peer
        ([makeField .peer (tvLabel text)], s)
    s.recordNet thread now (ascii "search")
      (about ++ [makeField .count (tvUint count), makeField .reason (tvEnum reason)]) failure

/-- The open calls of a thread, replaced. -/
def setFrames (thread : ThreadId) (frames : List CallFrame) : Tracer :=
  { s with callFrames := Function.update s.callFrames thread frames }

/-- A call whose result comes later gets an id of its own, which its completion will bear. -/
def beginAsyncCall (thread : ThreadId) (now : UInt64) (fn : Bytes) (api : Int32)
    (args : List TraceField) : Bytes × Tracer :=
  if ¬ s.enabled then ([], s)
  else
    let corr := corrText s.nextCorr.toNat
    let s := { s with nextCorr := s.nextCorr + 1 }
    let s := s.setFrames thread (s.callFrames thread ++ [⟨fn, corr⟩])
    (corr, s.recordCall thread now fn api corr args)

/-- The loop from the newest frame on: the first of this call goes, and no other. -/
def dropFrame (corr : Bytes) (frames : List CallFrame) : List CallFrame :=
  (frames.reverse.eraseP (·.corr = corr)).reverse

/-- The call is over, and its frame is no longer open. -/
def endAsyncCall (thread : ThreadId) (now : UInt64) (fn corr : Bytes) (value : TraceReturn) :
    Tracer :=
  if corr = [] then s
  else
    (s.setFrames thread (dropFrame corr (s.callFrames thread))).recordReturn thread
      now fn corr value

/-- The innermost call in progress on a thread. -/
def pending (thread : ThreadId) : Option CallFrame := (s.callFrames thread).getLast?

/-- The name of the innermost open call of a thread. -/
def pendingFn (thread : ThreadId) : Bytes := ((s.pending thread).map (·.fn)).getD []

/-- The id of the innermost open call of a thread. -/
def pendingCorr (thread : ThreadId) : Bytes := ((s.pending thread).map (·.corr)).getD []

/-- What a sink at a level is to write of it: `Tracer.takes_written`. -/
def written (level : TraceLevel) : List TracedRecord :=
  s.handed.filter fun traced ↦ traced.level.rank ≤ level.rank

end Tracer

/-! ## Calls on many threads -/

/-- `trace_scope`: one exported call, until it returns by whatever path. -/
structure TraceScope where
  fn : Bytes
  corr : Bytes
  value : TraceReturn
  mode : CallMode
  /-- Tracing was on when the call began, and counts as on until it ends. -/
  active : Bool

/-- The scopes open on each thread, the innermost first, and what each waiting result was stamped
with by `callback_manager::add_callback`. -/
structure Tracing where
  tracer : Tracer
  scopes : ThreadId → List TraceScope := fun _ ↦ []
  queued : List CallFrame := []

namespace Tracing

variable (s : Tracing)

/-- A call begins, before anything of it is validated. -/
def enter (thread : ThreadId) (now : UInt64) (fn : Bytes) (api : Int32) (args : List TraceField)
    (mode : CallMode) : Tracing :=
  let opened (corr : Bytes) (tracer : Tracer) : Tracing :=
    { s with
      tracer := tracer
      scopes := Function.update s.scopes thread
        (⟨fn, corr, returnVoid, mode, s.tracer.enabled⟩ :: s.scopes thread) }
  if ¬ s.tracer.enabled then opened [] s.tracer
  else
    match mode with
    | .async =>
      let (corr, tracer) := s.tracer.beginAsyncCall thread now fn api args
      opened corr tracer
    | .sync => opened [] (s.tracer.recordCall thread now fn api [] args)

/-- What the innermost call of a thread is going to return. -/
def returns (thread : ThreadId) (value : TraceReturn) : Tracing :=
  match s.scopes thread with
  | [] => s
  | scope :: outer =>
    { s with scopes := Function.update s.scopes thread ({ scope with value := value } :: outer) }

/-- The innermost call of a thread ends. -/
def leave (thread : ThreadId) (now : UInt64) : Option Tracing :=
  match s.scopes thread with
  | [] => none
  | scope :: outer =>
    let tracer :=
      if ¬ scope.active then s.tracer
      else
        match scope.mode with
        | .async => s.tracer.endAsyncCall thread now scope.fn scope.corr scope.value
        | .sync => s.tracer.recordReturn thread now scope.fn [] scope.value
    some { s with tracer := tracer, scopes := Function.update s.scopes thread outer }

/-- A result is queued, by whatever runs on the thread. -/
def addCallback (thread : ThreadId) : Tracing :=
  let stamp : CallFrame :=
    if s.tracer.enabled then ⟨s.tracer.pendingFn thread, s.tracer.pendingCorr thread⟩ else ⟨[], []⟩
  { s with queued := s.queued ++ [stamp] }

/-- A result that waited is handed to the game: `callback_manager::record_callback_for`.  The
outcome is read off the head of the result, and one without data has none and is not recorded. -/
def complete (thread : ThreadId) (now : UInt64) (index : Nat) (result : Option TraceResultCode)
    (payload : List TraceField) : Option Tracing :=
  match s.queued[index]? with
  | none => none
  | some stamp =>
    let tracer :=
      match result with
      | none => s.tracer
      | some code =>
        if stamp.fn = [] then s.tracer
        else s.tracer.recordCallback thread now stamp.fn stamp.corr code payload
    some { s with tracer := tracer, queued := s.queued.eraseIdx index }

/-- What may happen on the threads of a process, one thing at a time. -/
inductive Input
  | enter (thread : ThreadId) (now : UInt64) (fn : Bytes) (api : Int32) (args : List TraceField)
      (mode : CallMode)
  | returns (thread : ThreadId) (value : TraceReturn)
  | leave (thread : ThreadId) (now : UInt64)
  | addCallback (thread : ThreadId)
  | complete (thread : ThreadId) (now : UInt64) (index : Nat) (result : Option TraceResultCode)
      (payload : List TraceField)
  | notify (thread : ThreadId) (now : UInt64) (event action token : Bytes)
    (fields : List TraceField)
  | net (thread : ThreadId) (now : UInt64) (event : Bytes) (fields : List TraceField)
      (failure : Bool)
  | search (thread : ThreadId) (now : UInt64) (reason peer : Bytes) (count : UInt64)
      (failure : Bool)
  /-- The sink takes an envelope for a record of its own. -/
  | ownRecord (thread : ThreadId) (now : UInt64)

/-- One thing that happens; a thread leaves only a call that it is in. -/
def step : Input → Option Tracing
  | .enter thread now fn api args mode => some (s.enter thread now fn api args mode)
  | .returns thread value => some (s.returns thread value)
  | .leave thread now => s.leave thread now
  | .addCallback thread => some (s.addCallback thread)
  | .complete thread now index result payload => s.complete thread now index result payload
  | .notify thread now event action token fields =>
    some { s with tracer := s.tracer.recordNotify thread now event action token fields }
  | .net thread now event fields failure =>
    some { s with tracer := s.tracer.recordNet thread now event fields failure }
  | .search thread now reason peer count failure =>
    some { s with tracer := s.tracer.recordSearch thread now reason peer count failure }
  | .ownRecord thread now => some { s with tracer := (s.tracer.nextEnvelope thread now).2 }

/-- The correlation counter is not at its end. -/
def countsOn (s : Tracing) (_ : Input) : Prop := s.tracer.nextCorr.toNat + 1 < 2 ^ 64

instance (s : Tracing) (i : Input) : Decidable (s.countsOn i) :=
  inferInstanceAs (Decidable (_ < _))

/-- A tracer that was just started, on or off. -/
def started (enabled : Bool) (pid : UInt64) (instanceLabel : Bytes)
    (maxPerKind : Nat) : Tracing where
  tracer := { enabled, pid, instanceLabel, labels := LabelRegistry.create maxPerKind }

end Tracing
end EosMesh
