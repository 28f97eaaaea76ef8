import EosMesh.Net.Router.Effects
import EosMesh.Net.Router.Framing

/-!
# What the router sends to itself

`send_to_self` puts a frame into the loopback, and a tick takes the frames out again and dispatches
them.  The way in takes an envelope of any size; the way out is `take_frame`, which refuses one that
is too large and clears what is behind it.

* `ownWaiting` and `ownTurns` say what is still to be done for our own envelopes, by the calls under
  way, and `ownDispatched` and `ownDelivered` what was done, read off the trace.  `Moves` says that
  a step leaves neither more nor less of it, in the same order; `step_own` is that for every step.
* `step_stream` says what a step does to the loopback: something is sent to it, it is read, or the
  router is stopped or started.  `readSelf_frames` says what is taken out of it, as long as what is
  in it is small enough (`Takeable`).
* `Loop` is the router with what it has accepted for itself, read off the inputs, and with whom it
  owes each envelope to, which are the listeners for its tag when it is dispatched.
* `Conserved` is what becomes of the envelopes accepted: each is dispatched, in the hands of a tick,
  or in the loopback, in order and once, and the listeners found have been called or are still to
  be.  `LoopInv.step` is its step lemma.

It holds along every run in which the envelopes are of a size that is taken out again
(`own_envelopes_conserved`), and not along every run: in `own_envelopes_lost` an envelope over the
limit is accepted with an empty one behind it, and neither is ever dispatched.
-/

set_option autoImplicit false

namespace EosMesh

open Lib

/-! ## Our own envelopes, on their way -/

/-- An envelope out of the loopback. -/
def ownOf : NetEnvelope × Origin → Option NetEnvelope
  | (msg, .self) => some msg
  | _ => none

/-- Those a call has still to dispatch. -/
def Call.ownWaiting : Call → List NetEnvelope
  | .drainSelf messages => messages.filterMap ownOf
  | .dispatchAll messages => messages.filterMap ownOf
  | _ => []

/-- The listeners a call has still to hand one of them to. -/
def Call.ownTurns : Call → List (Listener × NetEnvelope)
  | .deliver msg .self listeners => listeners.map (·, msg)
  | _ => []

/-- Is it the rest of `drain_peers`? -/
def Call.IsDrain : Call → Prop
  | .drainSelf _ | .dispatchAll _ => True
  | _ => False

/-- A drain under way is the outermost call: it is a tick that makes it. -/
def DrainsLast : List Call → Prop
  | [] => True
  | call :: rest => (call.IsDrain → rest = []) ∧ DrainsLast rest

/-- The envelope of our own that an event dispatches. -/
def Event.ownDispatched : Event → Option NetEnvelope
  | .dispatched msg .self => some msg
  | _ => none

/-- The envelope of our own that an event delivers, and to whom. -/
def Event.ownDelivered : Event → Option (Listener × NetEnvelope)
  | .delivered listener msg .self => some (listener, msg)
  | _ => none

namespace Machine

/-- Our own envelopes dispatched so far, in order. -/
def ownDispatched (m : Machine) : List NetEnvelope :=
    (m.trace.filterMap Event.ownDispatched).reverse

/-- The listeners that got one of them, in order. -/
def ownDelivered (m : Machine) : List (Listener × NetEnvelope) :=
  (m.trace.filterMap Event.ownDelivered).reverse

/-- What the listeners of an envelope of ours that is dispatched now are owed. -/
def dueBy (m : Machine) : Input → List (Listener × NetEnvelope)
  | .run _ =>
    match m.calls with
    | .dispatchAll ((msg, .self) :: _) :: _ => (m.router.listenersOf msg.typeTag).map (·, msg)
    | _ => []
  | _ => []

variable {crypto : Crypto} {config : Config} {m m' : Machine}

theorem DrainsLast.append {pre rest : List Call} (hpre : ∀ call ∈ pre, ¬ call.IsDrain)
    (h : DrainsLast rest) : DrainsLast (pre ++ rest) := by
  induction pre with
  | nil => exact h
  | cons call pre ih =>
    exact ⟨fun hdrain ↦ absurd hdrain (hpre call List.mem_cons_self),
      ih fun c hc ↦ hpre c (List.mem_cons_of_mem _ hc)⟩

/-- Nothing about our own envelopes among these calls. -/
structure Idles (pre : List Call) : Prop where
  drain : ∀ call ∈ pre, ¬ call.IsDrain
  waiting : pre.flatMap Call.ownWaiting = []
  turns : pre.flatMap Call.ownTurns = []

theorem idles_drops (drops : List (Bytes × DropReason)) :
    Idles (drops.map fun d ↦ Call.dropPeer d.1 d.2) where
  drain call h hdrain := by
    obtain ⟨d, -, rfl⟩ := List.mem_map.1 h
    exact hdrain
  waiting := List.flatMap_eq_nil_iff.2 fun call h ↦ by
    obtain ⟨d, -, rfl⟩ := List.mem_map.1 h
    rfl
  turns := List.flatMap_eq_nil_iff.2 fun call h ↦ by
    obtain ⟨d, -, rfl⟩ := List.mem_map.1 h
    rfl

/-- What a step leaves of our own envelopes: no more and no less, in the same order, but for those
just read and for the listeners just found. -/
structure Moves (m m' : Machine) (i : Input) : Prop where
  last : DrainsLast m'.calls
  delivered : m'.ownDelivered ++ m'.calls.flatMap Call.ownTurns =
    m.ownDelivered ++ m.calls.flatMap Call.ownTurns ++ m.dueBy i
  dispatched : m'.ownDispatched ++ m'.calls.flatMap Call.ownWaiting =
      m.ownDispatched ++ m.calls.flatMap Call.ownWaiting ∨
    ∃ w messages, i = .run w ∧ m.calls = [.drainSelf messages] ∧ m' =
      { m with
        router := (m.router.readSelf w).1
        calls := [.dispatchAll (messages ++ (m.router.readSelf w).2.map (·, .self))] }

/-- A step that pops calls of no concern, pushes others and notes events of no concern. -/
theorem Moves.of_idle {i : Input} (popped pushed : List Call) (events : List Event)
    {rest : List Call} (hlast : DrainsLast m.calls) (hcalls : m.calls = popped ++ rest)
    (hcalls' : m'.calls = pushed ++ rest) (hpopped : popped.flatMap Call.ownWaiting = [])
    (hturns : popped.flatMap Call.ownTurns = []) (hpushed : Idles pushed)
    (htrace : m'.trace = events ++ m.trace) (hdispatched :
    events.filterMap Event.ownDispatched = [])
    (hdelivered : events.filterMap Event.ownDelivered = []) (hdue : m.dueBy i = []) :
    Moves m m' i where
  last := by
    rw [hcalls'] 
    refine DrainsLast.append hpushed.drain ?_
    rw [hcalls] at hlast
    clear hcalls hpopped hturns
    induction popped with
    | nil => exact hlast
    | cons call popped ih => exact ih hlast.2
  delivered := by
    rw [ownDelivered, ownDelivered, htrace, hcalls, hcalls', hdue,
      List.filterMap_append, hdelivered,
      List.flatMap_append, List.flatMap_append, hpushed.turns, hturns, List.append_nil]
    rfl
  dispatched := by
    refine .inl ?_
    rw [ownDispatched, ownDispatched, htrace, hcalls, hcalls', List.filterMap_append, hdispatched,
      List.flatMap_append, List.flatMap_append, hpushed.waiting, hpopped]
    rfl

theorem dueBy_of_front {i : Input}
    (h : ∀ msg messages rest, m.calls ≠ .dispatchAll ((msg, .self) :: messages) :: rest) :
    m.dueBy i = [] := by
  cases i with
  | run w =>
    rw [dueBy]
    split
    · rename_i hcalls
      exact absurd hcalls (h _ _ _)
    · rfl
  | _ => rfl

theorem dueBy_of_cons {i : Input} {call : Call} {rest : List Call} (hcalls : m.calls = call :: rest)
    (h : ∀ messages, call ≠ .dispatchAll messages) : m.dueBy i = [] := by
  refine dueBy_of_front fun msg messages rest' heq ↦ h ((msg, .self) :: messages) ?_
  exact (List.cons.inj (hcalls.symm.trans heq)).1

theorem idles_nil : Idles [] := ⟨nofun, rfl, rfl⟩

/-- A call that has nothing to do with our own envelopes. -/
theorem idles_singleton {call : Call} (hdrain : ¬ call.IsDrain) (hwaiting : call.ownWaiting = [])
    (hturns : call.ownTurns = []) : Idles [call] where
  drain _ h := List.mem_singleton.1 h ▸ hdrain
  waiting := by rw [List.flatMap_singleton, hwaiting]
  turns := by rw [List.flatMap_singleton, hturns]

/-- A pass over the peers' streams brings nothing of our own. -/
theorem drained_moves {w : World} {phases : List Phase} (hcalls : m.calls = []) :
    Moves m (runDrainPeers crypto config w { m with phases }) (.run w) := by
  have hdue : m.dueBy (.run w) = [] := dueBy_of_front (by simp [hcalls])
  have hevents (id key : Bytes) (d : Router.Drained) (e : Event) (he : e ∈ drainEvents id key d) :
      e.ownDispatched = none ∧ e.ownDelivered = none := by
    have hopened (e : Event) (he : e ∈ d.plains.reverse.map (Event.opened id key ·)) :
        e.ownDispatched = none ∧ e.ownDelivered = none := by
      obtain ⟨plain, -, rfl⟩ := List.mem_map.1 he
      exact ⟨rfl, rfl⟩
    rw [drainEvents] at he
    split at he
    · rcases List.mem_cons.1 he with rfl | he
      · exact ⟨rfl, rfl⟩
      · exact hopened e he
    · exact hopened e he
  obtain ⟨drained, hdrained⟩ : ∃ drained : List (Bytes × Bytes × Router.Drained),
      drained = m.router.peers.toList.map fun p ↦
        (p.1, p.2.channel.remoteStatic, Router.drainPeer crypto config w p.1 p.2) := ⟨_, rfl⟩
  have htrace : (runDrainPeers crypto config w { m with phases }).trace =
      (drained.map fun p ↦ drainEvents p.1 p.2.1 p.2.2).reverse.flatten ++ m.trace := by
    rw [hdrained]
    rfl
  have hcalls' : (runDrainPeers crypto config w { m with phases }).calls =
      (drained.filterMap fun p ↦ p.2.2.dead.map fun reason ↦ Call.dropPeer p.1 reason) ++
        [.drainSelf (drained.flatMap fun p ↦
          p.2.2.messages.map fun q ↦ (q.1, Origin.stream p.2.1 q.2))] := by
    rw [hdrained, ← hcalls]
    rfl
  have hsilent (e : Event)
      (he : e ∈ (drained.map fun p ↦ drainEvents p.1 p.2.1 p.2.2).reverse.flatten) :
      e.ownDispatched = none ∧ e.ownDelivered = none := by
    obtain ⟨events, hin, he⟩ := List.mem_flatten.1 he
    obtain ⟨⟨id, key, d⟩, -, rfl⟩ := List.mem_map.1 (List.mem_reverse.1 hin)
    exact hevents id key d e he
  have hdrops (call : Call) (h : call ∈ drained.filterMap fun p ↦
      p.2.2.dead.map fun reason ↦ Call.dropPeer p.1 reason) : ∃ id reason,
        call = .dropPeer id reason := by
    obtain ⟨⟨id, key, d⟩, -, hdead⟩ := List.mem_filterMap.1 h
    obtain ⟨reason, -, rfl⟩ := Option.map_eq_some_iff.1 hdead
    exact ⟨id, reason, rfl⟩
  have hstreams : (drained.flatMap fun p ↦
      p.2.2.messages.map fun q ↦ (q.1, Origin.stream p.2.1 q.2)).filterMap ownOf = [] := by
    refine List.filterMap_eq_nil_iff.2 fun p hp ↦ ?_
    obtain ⟨⟨id, key, d⟩, -, hp⟩ := List.mem_flatMap.1 hp
    obtain ⟨⟨msg, plain⟩, -, rfl⟩ := List.mem_map.1 hp
    rfl
  refine ⟨?_, ?_, .inl ?_⟩
  · rw [hcalls']
    refine DrainsLast.append (fun call hin hdrain ↦ ?_) ⟨fun _ ↦ rfl, trivial⟩
    obtain ⟨id, reason, rfl⟩ := hdrops call hin
    exact hdrain
  · have hturns := List.flatMap_eq_nil_iff.2 fun call hin ↦ by
      obtain ⟨id, reason, rfl⟩ := hdrops call hin
      exact (rfl : Call.ownTurns (.dropPeer id reason) = [])
    rw [hdue, ownDelivered, ownDelivered, htrace, hcalls', hcalls, List.filterMap_append,
      List.filterMap_eq_nil_iff.2 fun e he ↦ (hsilent e he).2, List.flatMap_append, hturns]
    simp [Call.ownTurns]
  · have hwaiting := List.flatMap_eq_nil_iff.2 fun call hin ↦ by
      obtain ⟨id, reason, rfl⟩ := hdrops call hin
      exact (rfl : Call.ownWaiting (.dropPeer id reason) = [])
    rw [ownDispatched, ownDispatched, htrace, hcalls', hcalls, List.filterMap_append,
      List.filterMap_eq_nil_iff.2 fun e he ↦ (hsilent e he).1, List.flatMap_append, hwaiting]
    simp [Call.ownWaiting, hstreams]

/-- **One step.** -/
theorem step_own {i : Input} (h : step crypto config m i = some m') (hlast : DrainsLast m.calls) :
    Moves m m' i := by
  cases step_effect h with
  | @quiet _ _ rest drops hq hcalls' hrest =>
    rcases hrest with ⟨hcalls, hfront⟩ | ⟨id, hcalls⟩
    · have hdue : m.dueBy i = [] := by
        refine dueBy_of_front fun msg messages rest' heq ↦ ?_
        rw [hcalls] at heq
        rcases hfront with hnil | ⟨l, calls, hfront⟩
        · rw [hnil] at heq
          cases heq
        · rw [hfront] at heq
          cases heq
      exact Moves.of_idle [] _ [] hlast hcalls hcalls' rfl rfl
        (idles_drops drops) hq.trace rfl rfl hdue
    · exact Moves.of_idle [.announceTo id] _ [] hlast hcalls hcalls' rfl rfl
        (idles_drops drops) hq.trace rfl rfl (dueBy_of_cons hcalls nofun)
  | cleared _ hcalls hcalls' _ htrace =>
    obtain ⟨ids, htrace⟩ := htrace
    refine Moves.of_idle [] [] _ hlast (hcalls.trans rfl) hcalls' rfl rfl
      idles_nil htrace ?_ ?_ (dueBy_of_front fun _ _ _ heq ↦ ?_)
    · exact List.filterMap_eq_nil_iff.2 fun e he ↦ by
        obtain ⟨id, -, rfl⟩ := List.mem_map.1 he
        rfl
    · exact List.filterMap_eq_nil_iff.2 fun e he ↦ by
        obtain ⟨id, -, rfl⟩ := List.mem_map.1 he
        rfl
    · rw [hcalls] at heq
      cases heq
  | @returned _ call rest hcalls hcall =>
    have hidle : call.ownWaiting = [] ∧ call.ownTurns = [] ∧
        ∀ msg messages, call ≠ .dispatchAll ((msg, .self) :: messages) := by
      rcases hcall with ⟨id, reason, rfl, -⟩ | ⟨msg, origin, rfl⟩ | ⟨l, rfl⟩ | rfl
      · exact ⟨rfl, rfl, nofun⟩
      · cases origin <;> exact ⟨rfl, rfl, nofun⟩
      · exact ⟨rfl, rfl, nofun⟩
      · exact ⟨rfl, rfl, nofun⟩
    have hdue : m.dueBy i = [] := by
      refine dueBy_of_front fun msg messages rest' heq ↦ hidle.2.2 msg messages ?_
      exact (List.cons.inj (hcalls.symm.trans heq)).1
    exact Moves.of_idle [call] [] [] hlast hcalls rfl
      (by rw [List.flatMap_singleton, hidle.1]) (by rw [List.flatMap_singleton, hidle.2.1])
      idles_nil rfl rfl rfl hdue
  | @dropped w id reason entry rest hcalls _ =>
    exact Moves.of_idle [.dropPeer id reason] [.raiseDisconnected id] [.removed id reason] hlast
      hcalls rfl rfl rfl (idles_singleton (fun h ↦ h) rfl rfl) rfl rfl rfl
        (dueBy_of_cons hcalls nofun)
  | @raisedConnected w id key rest hcalls =>
    exact Moves.of_idle [.raiseConnected id key] [.deliver _ (.adoption key) _]
      [.dispatched _ (.adoption key)] hlast hcalls rfl rfl rfl
      (idles_singleton (fun h ↦ h) rfl rfl) rfl rfl rfl (dueBy_of_cons hcalls nofun)
  | @raisedDisconnected w id rest hcalls =>
    exact Moves.of_idle [.raiseDisconnected id] [.deliver _ .removal _] [.dispatched _ .removal]
      hlast hcalls rfl rfl rfl (idles_singleton (fun h ↦ h) rfl rfl) rfl rfl rfl
        (dueBy_of_cons hcalls nofun)
  | @delivered w msg origin listener listeners rest hcalls =>
    have hlast' : DrainsLast rest := by
      rw [hcalls] at hlast
      exact hlast.2
    have hdue : m.dueBy (.run w) = [] := dueBy_of_cons hcalls nofun
    refine ⟨⟨nofun, nofun, hlast'⟩, ?_, .inl ?_⟩
    · rw [hdue, List.append_nil]
      cases origin <;>
        simp [ownDelivered, Event.ownDelivered, Call.ownTurns, List.filterMap_cons, hcalls]
    · simp [ownDispatched, Event.ownDispatched, Call.ownWaiting, List.filterMap_cons, hcalls]
  | @selfRead w messages rest hcalls =>
    obtain rfl : rest = [] := by
      rw [hcalls] at hlast
      exact hlast.1 trivial
    refine ⟨⟨fun _ ↦ rfl, trivial⟩, ?_, .inr ⟨w, messages, rfl, hcalls, rfl⟩⟩
    rw [dueBy_of_cons hcalls nofun, hcalls, List.append_nil]
    rfl
  | @dispatchedNext w msg origin messages rest hcalls =>
    obtain rfl : rest = [] := by
      rw [hcalls] at hlast
      exact hlast.1 trivial
    refine ⟨⟨nofun, fun _ ↦ rfl, trivial⟩, ?_, .inl ?_⟩
    · cases origin <;>
        simp [dispatch, ownDelivered, Event.ownDelivered, Call.ownTurns, dueBy, List.filterMap_cons,
          hcalls]
    · cases origin <;>
        simp [dispatch, ownDispatched, Event.ownDispatched, Call.ownWaiting, ownOf,
          List.filterMap_cons, hcalls]
  | @datagram w _ id plain entry hcalls _ _ hcalls' htrace =>
    exact Moves.of_idle [] [.deliver _ (.datagram _ _) _]
      [.dispatched _ (.datagram _ _), .openedDatagram _ _ _] hlast hcalls hcalls' rfl rfl
      (idles_singleton (fun h ↦ h) rfl rfl) htrace rfl rfl
      (dueBy_of_front fun _ _ _ heq ↦ nomatch hcalls.symm.trans heq)
  | @adopted w _ id entry hcalls _ _ _ _ hcalls' htrace =>
    have hidle : Idles [.announceTo id, .raiseConnected id entry.channel.remoteStatic] :=
      ⟨by simp [Call.IsDrain], rfl, rfl⟩
    exact Moves.of_idle [] _ [.adopted _ _ _ _] hlast hcalls
      hcalls' rfl rfl hidle htrace rfl rfl
      (dueBy_of_front fun _ _ _ heq ↦ nomatch hcalls.symm.trans heq)
  | @drained w phases hcalls _ => exact drained_moves hcalls

/-! ## The loopback -/

/-- The envelope that `send_to_self` returns true for. -/
def acceptedBy (m : Machine) : Input → List NetEnvelope
  | .act w (.sendToSelf msg) => if (m.router.sendToSelf w msg).1 then [msg] else []
  | _ => []

/-- What is in the loopback, read or not. -/
def stream (r : Router) : Bytes := r.selfBuffer ++ r.selfPipe

theorem sendTo_stream {w : World} (r : Router) (msg : NetEnvelope) :
    stream (r.sendTo crypto w msg).2.1 = stream r := by
  rw [Router.sendTo]
  split
  · rfl
  · dsimp only
    split <;> rfl

theorem sendEnvelope_stream {w : World} (m : Machine) (msg : NetEnvelope) :
    stream (sendEnvelope crypto w m msg).router = stream m.router := by
  change stream (m.router.send crypto w msg).2.1 = stream m.router
  rw [Router.send]
  split
  · rfl
  · split
    · rfl
    · exact sendTo_stream _ _

theorem handleAdvertise_stream {w : World} (r : Router) (msg : NetEnvelope) (source : Endpoint) :
    stream (r.handleAdvertise config w msg source) = stream r := by
  rw [Router.handleAdvertise]
  repeat' split
  all_goals rfl

theorem runPhase_stream {w : World} {phase : Phase} {phases : List Phase} :
    stream (runPhase crypto config w m phases phase).router = stream m.router := by
  cases phase with
  | advertise =>
    rw [runPhase, runAdvertise]
    split
    · rfl
    · exact sendEnvelope_stream _ _
  | drainDatagrams =>
    rw [runPhase, runDatagrams]
    repeat' split
    all_goals first | rfl | exact handleAdvertise_stream _ _ _
  | drainHandshaking n =>
    rw [runPhase, runHandshaking]
    repeat' split
    all_goals first | rfl | (dsimp only; split <;> rfl)
  | _ => rfl

theorem runCall_stream {w : World} {call : Call} {calls : List Call}
    (h : runCall crypto config w m calls call = some m') :
    stream m'.router = stream m.router ∨ ∃ messages, call = .drainSelf messages := by
  cases call with
  | dropPeer id reason =>
    rw [runCall] at h
    split at h <;> cases h <;> exact .inl rfl
  | announceTo id =>
    cases h
    exact .inl (sendEnvelope_stream _ _)
  | deliver msg origin listeners =>
    cases listeners <;> cases h <;> exact .inl rfl
  | dispatchAll messages =>
    cases messages <;> cases h <;> exact .inl rfl
  | listening listener => cases h
  | drainSelf messages => exact .inr ⟨messages, rfl⟩
  | _ =>
    cases h
    exact .inl rfl

/-- The loopback changes where something is sent to it, where it is read, and where the router is
stopped or started. -/
theorem step_stream {i : Input} (h : step crypto config m i = some m') :
    stream m'.router = stream m.router ∧ m.acceptedBy i = [] ∨
      (∃ w msg, i = .act w (.sendToSelf msg) ∧ m'.router = (m.router.sendToSelf w msg).2) ∨
      (∃ w messages rest, i = .run w ∧ m.calls = .drainSelf messages :: rest) ∨
      ((i = .stop ∨ ∃ ports, i = .start ports) ∧ stream m'.router = []) := by
  cases i with
  | start ports =>
    rw [step] at h
    split at h
    · cases h
      unfold Router.start
      split
      · exact .inl ⟨rfl, rfl⟩
      · refine .inr (.inr (.inr ⟨.inr ⟨ports, rfl⟩, ?_⟩))
        repeat' split
        all_goals rfl
    · cases h
  | stop =>
    rw [step] at h
    split at h
    · cases h
      exact .inr (.inr (.inr ⟨.inl rfl, rfl⟩))
    · cases h
  | tick =>
    rw [step] at h
    split at h
    · cases h
      split <;> exact .inl ⟨rfl, rfl⟩
    · cases h
  | run w =>
    rw [step] at h
    split at h
    · rename_i call calls hcalls
      rcases runCall_stream h with hsame | ⟨messages, rfl⟩
      · exact .inl ⟨hsame, rfl⟩
      · exact .inr (.inr (.inl ⟨w, messages, calls, rfl, hcalls⟩))
    · cases h
      exact .inl ⟨runPhase_stream, rfl⟩
    · cases h
  | act w action =>
    rw [step] at h
    split at h
    · cases h
      cases action with
      | send msg => exact .inl ⟨sendEnvelope_stream _ _, rfl⟩
      | sendToSelf msg => exact .inr (.inl ⟨w, msg, rfl, rfl⟩)
      | sendDatagram id payload =>
        refine .inl ⟨?_, rfl⟩
        rw [runAction, Router.sendDatagram]
        repeat' split
        all_goals rfl
      | registerListener tag listener =>
        refine .inl ⟨?_, rfl⟩
        rw [runAction, Router.registerListener]
        dsimp only
        split <;> rfl
      | unregisterListener tag listener =>
        refine .inl ⟨?_, rfl⟩
        rw [runAction, Router.unregisterListener]
        dsimp only
        repeat' split
        all_goals rfl
    · cases h
  | ret =>
    rw [step] at h
    split at h
    · cases h
      exact .inl ⟨rfl, rfl⟩
    · cases h

/-! ### What is read out of it -/

/-- An envelope as it goes through the loopback. -/
def ownFrame (msg : NetEnvelope) : Bytes := frameMessage msg.serialize

/-- Small enough to be taken out again. -/
def Takeable (msg : NetEnvelope) : Prop := msg.serialize.length ≤ maxMessageSize

theorem Takeable.sized {msg : NetEnvelope} (h : Takeable msg) : msg.Sized := by
  rw [Takeable, NetEnvelope.serialize] at h
  simp only [List.length_append, maxMessageSize] at h
  exact ⟨length_lt_of_putBytes (by omega), length_lt_of_putBytes (by omega),
    length_lt_of_putBytes (by omega), length_lt_of_putBytes (by omega)⟩

theorem deserialize_takeable {msgs : List NetEnvelope} (h : ∀ msg ∈ msgs, Takeable msg) :
    (msgs.map NetEnvelope.serialize).filterMap (fun body ↦
      (NetEnvelope.deserialize.run body).map Prod.fst) = msgs := by
  induction msgs with
  | nil => rfl
  | cons msg msgs ih =>
    have hread := (NetEnvelope.decodes (h msg List.mem_cons_self).sized).run_eq
    rw [List.map_cons, List.filterMap_cons_some (by rw [hread]; rfl),
      ih fun m hm ↦ h m (List.mem_cons_of_mem _ hm)]

/-- **Reading.**  Some of the envelopes come out, in order, and the rest stay; all of them come out
once everything has arrived. -/
theorem readSelf_frames {w : World} {r : Router} {pending : List NetEnvelope}
    (hfits : ∀ msg ∈ pending, Takeable msg) (hstream : stream r = pending.flatMap ownFrame) :
    ∃ ready ahead, pending = ready ++ ahead ∧ (r.readSelf w).2 = ready ∧
      stream (r.readSelf w).1 = ahead.flatMap ownFrame ∧
      (r.selfPipe.length ≤ w.selfRecv → ahead = []) := by
  have hbodies : ∀ body ∈ pending.map NetEnvelope.serialize, body.length ≤ maxMessageSize := by
    intro body hbody
    obtain ⟨msg, hmsg, rfl⟩ := List.mem_map.1 hbody
    exact hfits msg hmsg
  have hframes (msgs : List NetEnvelope) :
      msgs.flatMap ownFrame = (msgs.map NetEnvelope.serialize).flatMap frameMessage := by
    rw [List.flatMap_map]
    rfl
  have hwhole : r.selfBuffer ++ r.selfPipe.take w.selfRecv ++ r.selfPipe.drop w.selfRecv =
      (pending.map NetEnvelope.serialize).flatMap frameMessage := by
    rw [List.append_assoc, List.take_append_drop, ← hframes]
    exact hstream
  obtain ⟨ready, ahead, tail, hsplit, hpulled⟩ := pulled_arrived hbodies ⟨_, hwhole⟩
  obtain ⟨first, later, rfl, rfl, rfl⟩ := List.map_eq_append_iff.1 hsplit.bodies
  have hread : r.readSelf w =
      ({ r with selfPipe := r.selfPipe.drop w.selfRecv, selfBuffer := tail }, first) := by
    rw [Router.readSelf]
    dsimp only
    rw [selfFrames_eq, show pullAll framePull _ _ = _ from hpulled]
    dsimp only
    rw [deserialize_takeable fun msg hmsg ↦ hfits msg (List.mem_append_left _ hmsg)]
  have hrest : tail ++ r.selfPipe.drop w.selfRecv = later.flatMap ownFrame := by
    rw [hsplit.arrived, List.map_append, List.flatMap_append, List.append_assoc] at hwhole
    rw [hframes]
    exact List.append_cancel_left hwhole
  rw [hread]
  refine ⟨first, later, rfl, rfl, hrest, fun hall ↦ ?_⟩
  rw [List.drop_of_length_le hall, List.append_nil] at hrest
  cases later with
  | nil => rfl
  | cons next later =>
    obtain ⟨-, hshort⟩ := hsplit.part next.serialize rfl
    rw [hrest, List.flatMap_cons, List.length_append, ownFrame] at hshort
    omega

/-! ## The envelopes accepted -/

/-- The router, with what it has accepted for itself and what the listeners found are owed. -/
structure Loop where
  machine : Machine := {}
  accepted : List NetEnvelope := []
  due : List (Listener × NetEnvelope) := []

/-- A step, with the envelopes of our own that it accepts and whom it owes them to. -/
def loopStep (crypto : Crypto) (config : Config) (s : Loop) (i : Input) : Option Loop :=
  (step crypto config s.machine i).map fun m ↦
    { machine := m
      accepted := s.accepted ++ acceptedBy s.machine i
      due := s.due ++ s.machine.dueBy i }

/-- **What becomes of them.**  Each is dispatched, in the hands of a tick, or in the loopback, and
the listeners found for those dispatched have been called, or are still to be. -/
structure Conserved (s : Loop) : Prop where
  dispatched : ∃ pending, stream s.machine.router = pending.flatMap ownFrame ∧
    s.accepted = s.machine.ownDispatched ++ s.machine.calls.flatMap Call.ownWaiting ++ pending
  delivered : s.machine.ownDelivered ++ s.machine.calls.flatMap Call.ownTurns = s.due

/-- What is sent is accepted, and the game neither stops the router nor starts it while something is
in the loopback. -/
structure Offered (s : Loop) (i : Input) : Prop where
  stays : (i = .stop ∨ ∃ ports, i = .start ports) → stream s.machine.router = []
  accepted : ∀ w msg, i = .act w (.sendToSelf msg) → (s.machine.router.sendToSelf w msg).1 = true

/-- The same, and what is sent is small enough to be taken out again. -/
structure Kept (s : Loop) (i : Input) : Prop extends Offered s i where
  takeable : ∀ w msg, i = .act w (.sendToSelf msg) → Takeable msg

/-- `Conserved`, with what it rests on. -/
structure LoopInv (s : Loop) : Prop where
  last : DrainsLast s.machine.calls
  dispatched : ∃ pending, (∀ msg ∈ pending, Takeable msg) ∧
    stream s.machine.router = pending.flatMap ownFrame ∧
    s.accepted = s.machine.ownDispatched ++ s.machine.calls.flatMap Call.ownWaiting ++ pending
  delivered : s.machine.ownDelivered ++ s.machine.calls.flatMap Call.ownTurns = s.due

theorem loopInv_start : LoopInv {} := ⟨trivial, ⟨[], nofun, rfl, rfl⟩, rfl⟩

/-- An accepted envelope is in the loopback whole. -/
theorem stream_sendToSelf {w : World} {r : Router} {msg : NetEnvelope}
    (h : (r.sendToSelf w msg).1 = true) :
    stream (r.sendToSelf w msg).2 = stream r ++ ownFrame msg := by
  rw [Router.sendToSelf] at h ⊢
  split at h
  · rename_i hroom
    rw [if_pos hroom]
    exact (List.append_assoc _ _ _).symm
  · cases h

theorem ownFrame_ne_nil (msg : NetEnvelope) : ownFrame msg ≠ [] := by
  refine List.ne_nil_of_length_pos ?_
  rw [ownFrame, length_frameMessage, framePrefixLen]
  omega

theorem eq_nil_of_frames {pending : List NetEnvelope} (h : pending.flatMap ownFrame = []) :
    pending = [] := by
  cases pending with
  | nil => rfl
  | cons msg pending =>
    rw [List.flatMap_cons] at h
    exact absurd h (List.append_ne_nil_of_left_ne_nil (ownFrame_ne_nil msg) _)

/-- A step that is not the reading of the loopback. -/
theorem LoopInv.dispatched_unread {s : Loop} {i : Input} {m' : Machine} (h : LoopInv s)
    (hkept : Kept s i) (hm : Machine.step crypto config s.machine i = some m')
    (hunread : ∀ w messages rest, i = .run w → s.machine.calls ≠ .drainSelf messages :: rest) :
    ∃ pending, (∀ msg ∈ pending, Takeable msg) ∧ stream m'.router = pending.flatMap ownFrame ∧
      s.accepted ++ s.machine.acceptedBy i =
        m'.ownDispatched ++ m'.calls.flatMap Call.ownWaiting ++ pending := by
  obtain ⟨pending, hfits, hstream, haccepted⟩ := h.dispatched
  have hsame : m'.ownDispatched ++ m'.calls.flatMap Call.ownWaiting =
      s.machine.ownDispatched ++ s.machine.calls.flatMap Call.ownWaiting := by
    rcases (step_own hm h.last).dispatched with hsame | ⟨w, messages, hi, hcalls, -⟩
    · exact hsame
    · exact absurd hcalls (hunread w messages [] hi)
  rw [hsame]
  rcases step_stream hm with ⟨hstill, hnone⟩ | ⟨w, msg, rfl, hrouter⟩ |
    ⟨w, messages, rest, hi, hcalls⟩ | ⟨hi, hnil⟩
  · refine ⟨pending, hfits, hstill.trans hstream, ?_⟩
    rw [hnone, List.append_nil, haccepted]
  · have hsent := hkept.accepted w msg rfl
    refine ⟨pending ++ [msg], ?_, ?_, ?_⟩
    · intro other hother
      rcases List.mem_append.1 hother with hin | hin
      · exact hfits other hin
      · rw [List.mem_singleton.1 hin]
        exact hkept.takeable w msg rfl
    · rw [hrouter, stream_sendToSelf hsent, hstream, List.flatMap_append, List.flatMap_singleton]
    · rw [haccepted, acceptedBy, if_pos hsent, List.append_assoc]
  · exact absurd hcalls (hunread w messages rest hi)
  · obtain rfl : pending = [] := eq_nil_of_frames (hstream.symm.trans (hkept.stays hi))
    refine ⟨[], nofun, hnil, ?_⟩
    rw [haccepted]
    rcases hi with rfl | ⟨ports, rfl⟩
    · exact List.append_nil _
    · exact List.append_nil _

/-- **One step of a run in which nothing is lost by the way out.** -/
theorem LoopInv.step {s s' : Loop} {i : Input} (h : LoopInv s) (hkept : Kept s i)
    (hstep : loopStep crypto config s i = some s') : LoopInv s' := by
  obtain ⟨m', hm, rfl⟩ := Option.map_eq_some_iff.1 hstep
  have hmoves := step_own hm h.last
  refine ⟨hmoves.last, ?_, by rw [hmoves.delivered, h.delivered]⟩
  by_cases hread : ∃ w messages rest, i = .run w ∧ s.machine.calls = .drainSelf messages :: rest
  · obtain ⟨w, messages, rest, rfl, hcalls⟩ := hread
    obtain rfl : rest = [] := by
      have hlast := h.last
      rw [hcalls] at hlast
      exact hlast.1 trivial
    obtain ⟨pending, hfits, hstream, haccepted⟩ := h.dispatched
    obtain ⟨ready, ahead, rfl, hready, hahead, -⟩ := readSelf_frames (w := w) hfits hstream
    obtain rfl : m' = { s.machine with
        router := (s.machine.router.readSelf w).1
        calls := [.dispatchAll (messages ++ (s.machine.router.readSelf w).2.map (·, .self))] } := by
      rw [Machine.step, hcalls] at hm
      exact (Option.some.inj hm).symm
    refine ⟨ahead, fun msg hmsg ↦ hfits msg (List.mem_append_right _ hmsg), hahead, ?_⟩
    have hown : (ready.map (·, Origin.self)).filterMap ownOf = ready := by
      rw [List.filterMap_map]
      exact List.filterMap_some
    rw [hready, haccepted, hcalls]
    simp [acceptedBy, Call.ownWaiting, ownDispatched, hown]
  · exact h.dispatched_unread hkept hm fun w messages rest hi hcalls ↦
      hread ⟨w, messages, rest, hi, hcalls⟩

/-- **Self-delivery loses nothing** of what is small enough: along every run, each envelope accepted
is dispatched once, in order, to the listeners found then, or on its way; a read of all there is
leaves nothing in the loopback, and a tick that is over nothing in hand. -/
theorem own_envelopes_conserved {s : Loop} (h : Reaches (loopStep crypto config) Kept {} s) :
    Conserved s ∧
    (s.machine.Idle → stream s.machine.router = [] →
      s.machine.ownDispatched = s.accepted ∧ s.machine.ownDelivered = s.due) ∧
    ∀ w : World, s.machine.router.selfPipe.length ≤ w.selfRecv →
      stream (s.machine.router.readSelf w).1 = [] := by
  have hinv : LoopInv s := h.invariant loopInv_start fun _ _ _ h hkept hstep ↦ h.step hkept hstep
  obtain ⟨pending, hfits, hstream, haccepted⟩ := hinv.dispatched
  refine ⟨⟨⟨pending, hstream, haccepted⟩, hinv.delivered⟩, fun hidle hempty ↦ ?_, fun w hall ↦ ?_⟩
  · have hdelivered := hinv.delivered
    have hnil := eq_nil_of_frames (hstream.symm.trans hempty)
    rw [hidle.1, List.flatMap_nil, List.append_nil] at haccepted hdelivered
    rw [hnil, List.append_nil] at haccepted
    exact ⟨haccepted.symm, hdelivered⟩
  · obtain ⟨ready, ahead, -, -, hahead, hnone⟩ := readSelf_frames (w := w) hfits hstream
    rw [hahead, hnone hall, List.flatMap_nil]

/-! ### Two envelopes to evaluate with -/

/-- A running router without peers, with `pipe` in its loopback. -/
def alone (pipe : Bytes) : Machine where
  router := { discoveryPort := 1, meshPort := 2, running := true, selfPipe := pipe }

/-- Whatever is sent is accepted, when there is room for it. -/
theorem reaches_alone (msgs : List NetEnvelope) :
    Reaches (loopStep crypto (Sample.config [1])) Offered {}
      { machine := alone (msgs.flatMap ownFrame), accepted := msgs } := by
  induction msgs using List.reverseRecOn with
  | nil =>
    refine Reaches.tail (i := .start (some (1, 2))) .refl ⟨fun _ ↦ rfl, nofun⟩ ?_
    rfl
  | append_singleton msgs msg ih =>
    have hsend : (alone (msgs.flatMap ownFrame)).router.sendToSelf
        { selfSend := (ownFrame msg).length } msg =
        (true, (alone (msgs.flatMap ownFrame ++ ownFrame msg)).router) :=
      if_pos (le_refl (ownFrame msg).length)
    refine ih.tail (i := .act { selfSend := (ownFrame msg).length } (.sendToSelf msg)) ?_ ?_
    · refine ⟨nofun, fun w msg' heq ↦ ?_⟩
      cases heq
      rw [hsend]
    · rw [loopStep, Machine.step, if_pos (by rfl), runAction, acceptedBy, hsend, if_pos rfl,
        List.flatMap_append, List.flatMap_singleton]
      rfl

/-- A tick, as far as the reading of the loopback. -/
def ticking (pipe : Bytes) : Machine :=
  { alone pipe with calls := [.drainSelf []], phases := [.expireHandshaking, .expirePeers] }

theorem reaches_ticking (pipe : Bytes) (accepted : List NetEnvelope) :
    Reaches (loopStep crypto config) Offered { machine := alone pipe, accepted }
      { machine := ticking pipe, accepted } := by
  have hquiet {m m' : Machine} {i : Input} (hi : i = .tick ∨ i = .run {})
      (h : Machine.step crypto config m i = some m') (hdue : m.dueBy i = []) :
      Reaches (loopStep crypto config) Offered { machine := m, accepted }
        { machine := m', accepted } := by
    have hnone : m.acceptedBy i = [] := by rcases hi with rfl | rfl <;> rfl
    refine Reaches.refl.tail (i := i) ?_ ?_
    · rcases hi with rfl | rfl
      · exact ⟨nofun, nofun⟩
      · exact ⟨nofun, nofun⟩
    · rw [loopStep, h, Option.map_some, hnone, hdue, List.append_nil, List.append_nil]
  have hphase (phase : Phase) (phases : List Phase)
      (h : Machine.step crypto config { alone pipe with phases := phase :: phases } (.run {}) =
        some { alone pipe with phases }) :
      Reaches (loopStep crypto config) Offered
        { machine := { alone pipe with phases := phase :: phases }, accepted }
        { machine := { alone pipe with phases }, accepted } := hquiet (.inr rfl) h rfl
  have htick : Reaches (loopStep crypto config) Offered { machine := alone pipe, accepted }
      { machine := { alone pipe with phases := runFrame }, accepted } := hquiet (.inl rfl) rfl rfl
  exact ((((((htick.trans (hphase .advertise _ rfl)).trans (hphase .acceptPeers _ rfl)).trans
    (hphase .finishDialing _ rfl)).trans (hphase .drainDatagrams _ rfl)).trans
      (hphase (.drainHandshaking 0) _ rfl)).trans (hquiet (.inr rfl) rfl rfl))

/-- The reading of a loopback that leaves nothing and gives nothing. -/
theorem reaches_read {pipe : Bytes} {w : World} (accepted : List NetEnvelope)
    (h : (alone pipe).router.readSelf w = ((alone []).router, [])) :
    Reaches (loopStep crypto config) Offered { machine := ticking pipe, accepted }
      { machine := { ticking [] with calls := [.dispatchAll []] }, accepted } := by
  have hstep : Machine.step crypto config (ticking pipe) (.run w) =
      some { ticking [] with calls := [.dispatchAll []] } := by
    change some { ticking pipe with
      router := ((alone pipe).router.readSelf w).1
      calls := [.dispatchAll (((alone pipe).router.readSelf w).2.map (·, .self))] } = _
    rw [h]
    rfl
  refine Reaches.refl.tail (i := .run w) ⟨nofun, nofun⟩ ?_
  rw [loopStep, hstep]
  exact congrArg (fun kept ↦ some (Loop.mk { ticking [] with calls := [.dispatchAll []] } kept []))
    (List.append_nil accepted)

/-- An envelope over the limit. -/
def oversized : NetEnvelope := { payload := List.replicate (maxMessageSize + 1) 0 }

theorem length_oversized : oversized.serialize.length = maxMessageSize + 12 := by
  have hdeclared : (putVar (UInt64.ofNat (maxMessageSize + 1))).length = 4 := by decide +kernel
  rw [NetEnvelope.serialize, oversized]
  simp only [List.length_append, putBytes, List.length_replicate, hdeclared]
  decide +kernel

/-- What stands behind a frame that is too large goes with it. -/
theorem readSelf_oversized {w : World} (rest : Bytes)
    (h : (ownFrame oversized ++ rest).length ≤ w.selfRecv) :
    (alone (ownFrame oversized ++ rest)).router.readSelf w = ((alone []).router, []) := by
  have hpulled : pulled framePull (ownFrame oversized ++ rest) = { refused := true } := by
    rw [ownFrame, frameMessage, List.append_assoc, length_oversized]
    exact (pulled_declared (by decide) (by decide)).1 _
  have hpipe : (alone (ownFrame oversized ++ rest)).router.selfBuffer ++
      (alone (ownFrame oversized ++ rest)).router.selfPipe.take w.selfRecv =
        ownFrame oversized ++ rest := List.take_of_length_le h
  have hdrop : (alone (ownFrame oversized ++ rest)).router.selfPipe.drop w.selfRecv = [] :=
    List.drop_of_length_le h
  rw [Router.readSelf, hpipe, hdrop, selfFrames_eq, show pullAll framePull _ _ = _ from hpulled]
  rfl

/-- An envelope over the limit and an empty one behind it, both accepted: the tick that reads them
dispatches neither, and the loopback is empty. -/
theorem own_envelopes_lost :
    ∃ s, Reaches (loopStep checksumCrypto (Sample.config [1])) Offered {} s ∧
      s.accepted = [oversized, {}] ∧ s.machine.ownDispatched = [] ∧
      s.machine.calls = [.dispatchAll []] ∧ stream s.machine.router = [] ∧ ¬ Conserved s := by
  have hsent := @reaches_alone checksumCrypto [oversized, {}]
  have hticking := hsent.trans (reaches_ticking _ _)
  have hself := @readSelf_oversized { selfRecv := (ownFrame oversized ++ ownFrame {}).length }
    (ownFrame {}) (le_refl _)
  have hread := @reaches_read checksumCrypto (Sample.config [1]) _ _ [oversized, {}] hself
  refine ⟨_, hticking.trans hread, rfl, rfl, rfl, rfl, fun h ↦ ?_⟩
  obtain ⟨pending, hstream, haccepted⟩ := h.dispatched
  rw [eq_nil_of_frames hstream.symm] at haccepted
  cases haccepted

/-- The guard, to be checked along a run. -/
def keeps (s : Loop) : Input → Bool
  | .stop | .start _ => stream s.machine.router = []
  | .act w (.sendToSelf msg) =>
    (s.machine.router.sendToSelf w msg).1 ∧ msg.serialize.length ≤ maxMessageSize
  | _ => true

theorem kept_of_keeps {s : Loop} {i : Input} (h : keeps s i = true) : Kept s i := by
  refine ⟨⟨fun hi ↦ ?_, fun w msg hi ↦ ?_⟩, fun w msg hi ↦ ?_⟩
  · rcases hi with rfl | ⟨ports, rfl⟩ <;> exact of_decide_eq_true h
  · subst hi
    exact (of_decide_eq_true h).1
  · subst hi
    exact (of_decide_eq_true h).2

/-- A tick takes two envelopes out of the loopback, and hands the first to the listener for
its tag. -/
theorem own_envelopes_conserved_two : ∃ s : Loop,
    s.accepted = [{ typeTag := 1, payload := [7] }, { typeTag := 2 }] ∧
    s.machine.ownDispatched = s.accepted ∧
    s.machine.ownDelivered = [(7, { typeTag := 1, payload := [7] })] := by
  obtain ⟨s, h, hidle, hempty, haccepted, hdue⟩ := exists_reaches
    (loopStep checksumCrypto (Sample.config [1])) (fun s i ↦ keeps s i = true) {}
    (fun s ↦ s.machine.Idle ∧ stream s.machine.router = [] ∧
      s.accepted = [{ typeTag := 1, payload := [7] }, { typeTag := 2 }] ∧
      s.due = [(7, { typeTag := 1, payload := [7] })])
    ([.start (some (1, 2)), .act {} (.registerListener 1 7),
      .act { selfSend := 100 } (.sendToSelf { typeTag := 1, payload := [7] }),
      .act { selfSend := 100 } (.sendToSelf { typeTag := 2 }), .tick] ++
      List.replicate 9 (.run { selfRecv := 100 }) ++ [.ret] ++ List.replicate 6 (.run {}))
    (by decide +kernel) (by decide +kernel)
  obtain ⟨-, hdispatched, -⟩ := own_envelopes_conserved (h.mono fun s i ↦ kept_of_keeps)
  obtain ⟨hdispatched, hdelivered⟩ := hdispatched hidle hempty
  exact ⟨s, haccepted, hdispatched, hdelivered.trans hdue⟩

end Machine
end EosMesh
