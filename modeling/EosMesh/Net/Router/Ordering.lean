import EosMesh.Net.Router.Lifecycle

/-!
# Traffic stays between a peer's arrival and its departure

`drain_peers` reads every peer, drops the dead ones and only then dispatches what it read.  So the
messages of a peer that the same pass drops come after its `peer_disconnected`; and so do those
still in the queue when a listener's failing send drops their sender.

* `departed` says whether the last thing the router raised about a peer was its departure, and
  `TrafficOrdered` that no message is dispatched or delivered while its source is departed.
  `departedByTag` and `TagOrdered` say the same by the tags of the envelopes alone, whoever made
  them; the two agree where only the router writes the lifecycle tags (`departedByTag_eq`).
* `OrderlyStep` is the condition under which it holds, on the state before a step and its input: a
  peer is dropped only when no message of its is waiting, and what comes over the loopback is from
  us.
* `OrderingInv` carries it: a waiting message's source is not departed, and neither is a peer in the
  table unless its own arrival is still to be raised.  A departure is raised at once, so it is never
  under another call.
* The step lemma goes by what `Effect` lists: a call that is done leaves (`OrderingInv.pop`), an
  envelope is dispatched (`OrderingInv.dispatch`), a lifecycle event is raised
  (`OrderingInv.raise`), the peers are drained (`OrderingInv.drained`), or a peer is adopted
  (`OrderingInv.adopted`).

`traffic_ordered` is the result.  In `lateRun` a greeting comes with the end of the stream, one
drain reads both, and the listener hears the greeting of a peer that it was told is gone.
-/

set_option autoImplicit false

namespace EosMesh

open Lib
open Std (TreeMap)

namespace Machine

/-! ## The property -/

/-- Was the last thing the router raised about `id` a `peer_disconnected`?  The trace is newest
first. -/
def departed (id : Bytes) : List Event → Bool
  | [] => false
  | .dispatched msg origin :: older =>
    if origin.isRaised ∧ msg.sourceId = id then
      msg.typeTag = MessageType.peerDisconnected.tag
    else departed id older
  | _ :: older => departed id older

/-- No message is dispatched or delivered while its source is departed. -/
def TrafficOrdered : List Event → Prop
  | [] => True
  | event :: older =>
    (∀ p ∈ event.envelopes, p.2.isRaised = false → departed p.1.sourceId older = false) ∧
      TrafficOrdered older

/-- The same read off the tags alone: was the last lifecycle event dispatched about `id` a
`peer_disconnected`, whoever made it? -/
def departedByTag (id : Bytes) : List Event → Bool
  | [] => false
  | .dispatched msg _ :: older =>
    if IsLifecycle msg.typeTag ∧ msg.sourceId = id then
      msg.typeTag = MessageType.peerDisconnected.tag
    else departedByTag id older
  | _ :: older => departedByTag id older

/-- No envelope but a lifecycle event is dispatched or delivered while its source is departed,
by the tags. -/
def TagOrdered : List Event → Prop
  | [] => True
  | event :: older =>
    (∀ p ∈ event.envelopes, ¬ IsLifecycle p.1.typeTag →
      departedByTag p.1.sourceId older = false) ∧ TagOrdered older

/-- The condition: a peer is dropped only when no message of its is waiting to be handed out, and
what comes over the loopback carries our own id. -/
def OrderlyStep (config : Config) (m : Machine) : Input → Prop
  | .run w =>
    match m.calls with
    | .dropPeer id _ :: rest => m.router.peers.contains id = true →
      ∀ call ∈ rest, ∀ p ∈ call.waiting, p.2.isRaised = false → p.1.sourceId ≠ id
    | .drainSelf _ :: _ => ∀ msg ∈ (m.router.readSelf w).2, msg.sourceId = config.productUserId
    | _ => True
  | _ => True

instance (config : Config) (m : Machine) (i : Input) : Decidable (OrderlyStep config m i) := by
  delta OrderlyStep
  exact match i with
  | .run w =>
    match m.calls with
    | .dropPeer id _ :: rest => inferInstanceAs (Decidable (m.router.peers.contains id = true →
        ∀ call ∈ rest, ∀ p ∈ call.waiting, p.2.isRaised = false → p.1.sourceId ≠ id))
    | .drainSelf _ :: _ => inferInstanceAs (Decidable (∀ _ ∈ _, _))
    | [] | .announceTo _ :: _ | .raiseConnected .. :: _ | .raiseDisconnected _ :: _
    | .deliver .. :: _ | .listening _ :: _ | .dispatchAll _ :: _ => instDecidableTrue
  | .start _ | .stop | .tick | .act _ _ | .ret => instDecidableTrue

instance TrafficOrdered.decidable : ∀ trace : List Event, Decidable (TrafficOrdered trace)
  | [] => isTrue trivial
  | _ :: older =>
    have := TrafficOrdered.decidable older
    inferInstanceAs (Decidable (_ ∧ _))

/-! ## The invariant -/

/-- What waits to be told of a peer comes between its events. -/
structure OrderingInv (config : Config) (m : Machine) : Prop where
  waiting : ∀ call ∈ m.calls, ∀ p ∈ call.waiting, p.2.isRaised = false →
    departed p.1.sourceId m.trace = false
  present : ∀ id : Bytes, m.router.peers.contains id = true →
    departed id m.trace = false ∨ ∃ key, Call.raiseConnected id key ∈ m.calls
  /-- A departure is raised at once: it is never under another call. -/
  atOnce : ∀ call ∈ m.calls.tail, ∀ id, call ≠ .raiseDisconnected id
  /-- When it is about to be raised, its peer is gone and nothing of its is waiting. -/
  raising : ∀ id rest, m.calls = .raiseDisconnected id :: rest →
    id ≠ config.productUserId ∧ m.router.peers.contains id = false ∧
      ∀ call ∈ rest, ∀ p ∈ call.waiting, p.2.isRaised = false → p.1.sourceId ≠ id
  own : departed config.productUserId m.trace = false
  ordered : TrafficOrdered m.trace

variable {config : Config} {crypto : Crypto} {m m' : Machine}

/-! ## What an event does to departures -/

/-- An event that raises nothing. -/
def RaisesNothing (event : Event) : Prop :=
  ∀ msg origin, event = .dispatched msg origin → origin.isRaised = false

theorem departed_cons {event : Event} (h : RaisesNothing event) (id : Bytes) (older : List Event) :
    departed id (event :: older) = departed id older := by
  cases event with
  | dispatched msg origin =>
    rw [departed, if_neg]
    rw [h msg origin rfl]
    simp
  | _ => rfl

theorem departed_append {batch : List Event} (h : ∀ event ∈ batch, RaisesNothing event) (id : Bytes)
    (older : List Event) : departed id (batch ++ older) = departed id older := by
  induction batch with
  | nil => rfl
  | cons event batch ih =>
    rw [List.cons_append, departed_cons (h event List.mem_cons_self)]
    exact ih fun e he ↦ h e (List.mem_cons_of_mem _ he)

theorem departed_raised_self {msg : NetEnvelope} {origin : Origin} (h : origin.isRaised = true)
    (older : List Event) : departed msg.sourceId (.dispatched msg origin :: older) =
      decide (msg.typeTag = MessageType.peerDisconnected.tag) := by
  rw [departed, if_pos ⟨h, rfl⟩]

theorem departed_raised_other {id : Bytes} {msg : NetEnvelope} {origin : Origin}
    (h : msg.sourceId ≠ id) (older : List Event) :
    departed id (.dispatched msg origin :: older) = departed id older := by
  rw [departed, if_neg (fun hc ↦ h hc.2)]

theorem TrafficOrdered.append {batch older : List Event} (h : TrafficOrdered older)
    (hbatch : ∀ event ∈ batch, event.envelopes = []) : TrafficOrdered (batch ++ older) := by
  induction batch with
  | nil => exact h
  | cons event batch ih =>
    refine ⟨fun p hp ↦ ?_, ih fun e he ↦ hbatch e (List.mem_cons_of_mem _ he)⟩
    rw [hbatch event List.mem_cons_self] at hp
    cases hp

theorem raisesNothing_of_envelopes_nil {event : Event} (h : event.envelopes = []) :
    RaisesNothing event := by
  rintro msg origin rfl
  cases h

theorem mem_envelopes_of_mem_waiting {call : Call} {p : NetEnvelope × Origin}
    (h : p ∈ call.waiting) :
    p ∈ call.envelopes := by
  cases call with
  | deliver msg origin listeners =>
    cases listeners with
    | nil => cases h
    | cons listener listeners => exact h
  | drainSelf messages => exact h
  | dispatchAll messages => exact h
  | _ => cases h

/-! ## The step lemma -/

/-- A step that keeps the same peers present, puts calls in front of `rest` that raise and hold
nothing, and adds events about no envelope. -/
theorem OrderingInv.grow {rest : List Call} (h : OrderingInv config m) (calls : List Call)
    (events : List Event) (hrest : m.calls = rest ∨ ∃ id, m.calls = .announceTo id :: rest)
    (hhead : ∀ id tail, rest ≠ .raiseDisconnected id :: tail)
    (hpeers : ∀ id : Bytes, m'.router.peers.contains id = m.router.peers.contains id)
    (hcalls : m'.calls = calls ++ rest) (htrace : m'.trace = events ++ m.trace)
    (hnew : ∀ call ∈ calls, ∃ id reason, call = .dropPeer id reason)
    (hevents : ∀ event ∈ events, event.envelopes = []) : OrderingInv config m' := by
  have hdep : ∀ id, departed id m'.trace = departed id m.trace := by
    intro id
    rw [htrace]
    exact departed_append (fun e he ↦ raisesNothing_of_envelopes_nil (hevents e he)) id _
  have hmem : ∀ call ∈ rest, call ∈ m.calls := by
    intro call hc
    rcases hrest with heq | ⟨id, heq⟩
    · rw [heq]; exact hc
    · rw [heq]; exact List.mem_cons_of_mem _ hc
  have hnone : ∀ call ∈ rest, ∀ id, call ≠ .raiseDisconnected id := by
    intro call hc id heq
    rcases hrest with hr | ⟨_, hr⟩
    · cases rest with
      | nil => cases hc
      | cons c tail =>
        rcases List.mem_cons.1 hc with rfl | hc
        · exact hhead id tail (by rw [heq])
        · exact h.atOnce call (by rw [hr]; exact hc) id heq
    · exact h.atOnce call (by rw [hr]; exact hc) id heq
  have hnoRaise : ∀ call ∈ m'.calls, ∀ id, call ≠ .raiseDisconnected id := by
    intro call hc id heq
    rw [hcalls] at hc
    rcases List.mem_append.1 hc with hc | hc
    · obtain ⟨_, _, hdrop⟩ := hnew call hc
      rw [hdrop] at heq
      cases heq
    · exact hnone call hc id heq
  constructor
  · intro call hc p hp hraised
    rw [hdep]
    rw [hcalls] at hc
    rcases List.mem_append.1 hc with hc | hc
    · obtain ⟨_, _, rfl⟩ := hnew call hc
      cases hp
    · exact h.waiting call (hmem call hc) p hp hraised
  · intro id hin
    rw [hpeers] at hin
    rw [hdep]
    rcases h.present id hin with hd | ⟨key, hkey⟩
    · exact .inl hd
    · refine .inr ⟨key, ?_⟩
      rw [hcalls]
      rcases hrest with heq | ⟨id', heq⟩
      · rw [heq] at hkey
        exact List.mem_append_right _ hkey
      · rw [heq] at hkey
        rcases List.mem_cons.1 hkey with heq | hkey
        · cases heq
        · exact List.mem_append_right _ hkey
  · exact fun call hc ↦ hnoRaise call (List.mem_of_mem_tail hc)
  · intro id tail heq
    exact absurd rfl (hnoRaise (.raiseDisconnected id) (by rw [heq]; exact List.mem_cons_self) id)
  · rw [hdep]
    exact h.own
  · rw [htrace]
    exact h.ordered.append hevents

/-- A call that has nothing left to hand out leaves the stack. -/
theorem OrderingInv.pop {call : Call} {rest : List Call} (h : OrderingInv config m)
    (hcalls : m.calls = call :: rest) (hcall : ∀ id key, call ≠ .raiseConnected id key) :
    OrderingInv config { m with calls := rest } where
  waiting c hc := h.waiting c (by rw [hcalls]; exact List.mem_cons_of_mem _ hc)
  present id hin := by
    rcases h.present id hin with hd | ⟨key, hkey⟩
    · exact .inl hd
    · rw [hcalls] at hkey
      rcases List.mem_cons.1 hkey with heq | hkey
      · exact absurd heq.symm (hcall id key)
      · exact .inr ⟨key, hkey⟩
  atOnce c hc := h.atOnce c (by rw [hcalls]; exact List.mem_of_mem_tail hc)
  raising id tail heq := by
    have hrest : rest = .raiseDisconnected id :: tail := heq
    have hin : Call.raiseDisconnected id ∈ m.calls.tail := by
      rw [hcalls, hrest]
      exact List.mem_cons_self
    exact absurd rfl (h.atOnce _ hin id)
  own := h.own
  ordered := h.ordered

/-- A received envelope whose source is not departed may be dispatched. -/
theorem OrderingInv.dispatch {msg : NetEnvelope} {origin : Origin} {listeners : List Listener}
    (h : OrderingInv config m) (horigin : origin.isRaised = false)
    (hsource : departed msg.sourceId m.trace = false)
    (hhead : ∀ id tail, m.calls ≠ .raiseDisconnected id :: tail)
    (hpeers : ∀ id : Bytes, m'.router.peers.contains id = m.router.peers.contains id)
    (hcalls : m'.calls = .deliver msg origin listeners :: m.calls)
    (htrace : m'.trace = .dispatched msg origin :: m.trace) : OrderingInv config m' := by
  have hdep : ∀ id, departed id m'.trace = departed id m.trace := by
    intro id
    rw [htrace]
    refine departed_cons ?_ id m.trace
    rintro _ _ heq
    cases heq
    exact horigin
  constructor
  · intro call hc p hp hraised
    rw [hdep]
    rw [hcalls] at hc
    rcases List.mem_cons.1 hc with rfl | hc
    · have := mem_envelopes_of_mem_waiting hp
      rw [Call.envelopes, List.mem_singleton] at this
      rw [this]
      exact hsource
    · exact h.waiting call hc p hp hraised
  · intro id hin
    rw [hpeers] at hin
    rw [hdep, hcalls]
    rcases h.present id hin with hd | ⟨key, hkey⟩
    · exact .inl hd
    · exact .inr ⟨key, List.mem_cons_of_mem _ hkey⟩
  · intro call hc id heq
    rw [hcalls, List.tail_cons] at hc
    cases hold : m.calls with
    | nil =>
      rw [hold] at hc
      cases hc
    | cons c tail =>
      rw [hold] at hc
      rcases List.mem_cons.1 hc with rfl | hc
      · exact hhead id tail (by rw [hold, heq])
      · exact h.atOnce call (by rw [hold]; exact hc) id heq
  · intro id tail heq
    rw [hcalls] at heq
    cases heq
  · rw [hdep]
    exact h.own
  · rw [htrace]
    refine ⟨fun p hp _ ↦ ?_, h.ordered⟩
    rw [Event.envelopes, List.mem_singleton] at hp
    rw [hp]
    exact hsource

/-- The queue in front may change to any received messages whose sources are not departed. -/
theorem OrderingInv.queue {call : Call} {rest : List Call} {r : Router}
    {messages : List (NetEnvelope × Origin)} (h : OrderingInv config m)
    (hcalls : m.calls = call :: rest) (hcall : ∀ id key, call ≠ .raiseConnected id key)
    (hpeers : ∀ id : Bytes, r.peers.contains id = m.router.peers.contains id)
    (hmessages : ∀ p ∈ messages, departed p.1.sourceId m.trace = false) :
    OrderingInv config { m with router := r, calls := .dispatchAll messages :: rest } where
  waiting c hc p hp hraised := by
    rcases List.mem_cons.1 hc with rfl | hc
    · exact hmessages p hp
    · exact (h.pop hcalls hcall).waiting c hc p hp hraised
  present id hin := by
    rw [hpeers] at hin
    rcases (h.pop hcalls hcall).present id hin with hd | ⟨key, hkey⟩
    · exact .inl hd
    · exact .inr ⟨key, List.mem_cons_of_mem _ hkey⟩
  atOnce c hc := h.atOnce c (by rw [hcalls]; exact hc)
  raising id tail heq := by cases heq
  own := h.own
  ordered := h.ordered

/-- What is under the front call raises no departure. -/
theorem OrderingInv.rest_ne {call : Call} {rest : List Call} (h : OrderingInv config m)
    (hcalls : m.calls = call :: rest) : ∀ c ∈ rest, ∀ id, c ≠ .raiseDisconnected id :=
  fun c hc ↦ h.atOnce c (by rw [hcalls]; exact hc)

/-- Raising a lifecycle event: only its own peer's standing changes, and it changes for the worse
only when nothing of that peer's is waiting. -/
theorem OrderingInv.raise {call : Call} {rest : List Call} {msg : NetEnvelope} {origin : Origin}
    (h : OrderingInv config m) (hcalls : m.calls = call :: rest) (horigin : origin.isRaised = true)
    (hown : msg.sourceId ≠ config.productUserId)
    (hwait : msg.typeTag = MessageType.peerDisconnected.tag →
      ∀ c ∈ rest, ∀ p ∈ c.waiting, p.2.isRaised = false → p.1.sourceId ≠ msg.sourceId)
    (hpresent : msg.typeTag = MessageType.peerDisconnected.tag →
      m.router.peers.contains msg.sourceId = false)
    (hcall : ∀ id key, call = .raiseConnected id key → msg.sourceId = id ∧
      msg.typeTag ≠ MessageType.peerDisconnected.tag) :
    OrderingInv config (Machine.dispatch { m with calls := rest } msg origin) := by
  have hother : ∀ id, msg.sourceId ≠ id → departed id (.dispatched msg origin :: m.trace)
      = departed id m.trace := fun id hne ↦ departed_raised_other hne m.trace
  have hself : msg.typeTag ≠ MessageType.peerDisconnected.tag →
      departed msg.sourceId (.dispatched msg origin :: m.trace) = false := by
    intro htag
    rw [departed_raised_self horigin, decide_eq_false htag]
  constructor
  · intro c hc p hp hraised
    rcases List.mem_cons.1 hc with rfl | hc
    · have := mem_envelopes_of_mem_waiting hp
      rw [Call.envelopes, List.mem_singleton] at this
      rw [this, horigin] at hraised
      cases hraised
    · have hold := h.waiting c (by rw [hcalls]; exact List.mem_cons_of_mem _ hc) p hp hraised
      by_cases heq : msg.sourceId = p.1.sourceId
      · by_cases htag : msg.typeTag = MessageType.peerDisconnected.tag
        · exact absurd heq.symm (hwait htag c hc p hp hraised)
        · rw [← heq]
          exact hself htag
      · exact (hother _ heq).trans hold
  · intro id hin
    by_cases heq : msg.sourceId = id
    · subst heq
      by_cases htag : msg.typeTag = MessageType.peerDisconnected.tag
      · have hin' : m.router.peers.contains msg.sourceId = true := hin
        rw [hpresent htag] at hin'
        cases hin'
      · exact .inl (hself htag)
    · rcases h.present id hin with hd | ⟨key, hkey⟩
      · exact .inl ((hother _ heq).trans hd)
      · rw [hcalls] at hkey
        rcases List.mem_cons.1 hkey with heq' | hkey
        · exact absurd (hcall id key heq'.symm).1 heq
        · exact .inr ⟨key, List.mem_cons_of_mem _ hkey⟩
  · exact fun c hc ↦ h.rest_ne hcalls c hc
  · intro id tail heq
    cases heq
  · exact (hother _ hown).trans h.own
  · refine ⟨fun p hp hraised ↦ ?_, h.ordered⟩
    rw [Event.envelopes, List.mem_singleton] at hp
    rw [hp, horigin] at hraised
    cases hraised

theorem OrderingInv.delivered {msg : NetEnvelope} {origin : Origin} {listener : Listener}
    {listeners : List Listener} {rest : List Call} (h : OrderingInv config m)
    (hcalls : m.calls = .deliver msg origin (listener :: listeners) :: rest) :
    OrderingInv config { m with
      calls := .listening listener :: .deliver msg origin listeners :: rest
      trace := .delivered listener msg origin :: m.trace } := by
  have hplain : RaisesNothing (.delivered listener msg origin) := by
    rintro _ _ heq
    cases heq
  have hdep : ∀ id, departed id (.delivered listener msg origin :: m.trace) = departed id m.trace :=
    fun id ↦ departed_cons hplain id m.trace
  have hfront : origin.isRaised = false → departed msg.sourceId m.trace = false :=
    h.waiting _ (by rw [hcalls]; exact List.mem_cons_self) (msg, origin) List.mem_cons_self
  constructor
  · intro c hc p hp hraised
    rw [hdep]
    rcases List.mem_cons.1 hc with rfl | hc
    · cases hp
    · rcases List.mem_cons.1 hc with rfl | hc
      · have := mem_envelopes_of_mem_waiting hp
        rw [Call.envelopes, List.mem_singleton] at this
        rw [this] at hraised ⊢
        exact hfront hraised
      · exact h.waiting c (by rw [hcalls]; exact List.mem_cons_of_mem _ hc) p hp hraised
  · intro id hin
    rw [hdep]
    rcases h.present id hin with hd | ⟨key, hkey⟩
    · exact .inl hd
    · rw [hcalls] at hkey
      rcases List.mem_cons.1 hkey with heq | hkey
      · cases heq
      · exact .inr ⟨key, List.mem_cons_of_mem _ (List.mem_cons_of_mem _ hkey)⟩
  · intro c hc id heq
    rcases List.mem_cons.1 hc with hc | hc
    · rw [hc] at heq
      cases heq
    · exact h.rest_ne hcalls c hc id heq
  · intro id tail heq
    cases heq
  · rw [hdep]
    exact h.own
  · refine ⟨fun p hp hraised ↦ ?_, h.ordered⟩
    rw [Event.envelopes, List.mem_singleton] at hp
    rw [hp] at hraised ⊢
    exact hfront hraised

theorem OrderingInv.dropped {id : Bytes} {reason : DropReason} {rest : List Call}
    (h : OrderingInv config m) (hcalls : m.calls = .dropPeer id reason :: rest)
    (hown : id ≠ config.productUserId)
    (hwait : ∀ c ∈ rest, ∀ p ∈ c.waiting, p.2.isRaised = false → p.1.sourceId ≠ id) :
    OrderingInv config { m with
      router := { m.router with peers := m.router.peers.erase id }
      calls := .raiseDisconnected id :: rest
      trace := .removed id reason :: m.trace } := by
  have hplain : RaisesNothing (.removed id reason) := by
    rintro _ _ heq
    cases heq
  have hdep : ∀ id', departed id' (.removed id reason :: m.trace) = departed id' m.trace :=
    fun id' ↦ departed_cons hplain id' m.trace
  have hrest : ∀ c ∈ rest, c ∈ m.calls := fun c hc ↦ by
    rw [hcalls]
    exact List.mem_cons_of_mem _ hc
  constructor
  · intro c hc p hp hraised
    rw [hdep]
    rcases List.mem_cons.1 hc with rfl | hc
    · cases hp
    · exact h.waiting c (hrest c hc) p hp hraised
  · intro id' hin
    rw [hdep]
    have hin' : m.router.peers.contains id' = true := by
      obtain ⟨e, he⟩ := (contains_iff_lookup _ _).1 hin
      rw [lookup_erase] at he
      split at he
      · cases he
      · exact (contains_iff_lookup _ _).2 ⟨e, he⟩
    rcases h.present id' hin' with hd | ⟨key, hkey⟩
    · exact .inl hd
    · rw [hcalls] at hkey
      rcases List.mem_cons.1 hkey with heq | hkey
      · cases heq
      · exact .inr ⟨key, List.mem_cons_of_mem _ hkey⟩
  · exact fun c hc ↦ h.rest_ne hcalls c hc
  · intro id' tail heq
    cases heq
    refine ⟨hown, ?_, hwait⟩
    rw [not_contains_iff_lookup, lookup_erase, if_pos rfl]
  · rw [hdep]
    exact h.own
  · exact ⟨fun p hp ↦ absurd hp List.not_mem_nil, h.ordered⟩

/-- A drain queues messages of peers in the table, none of which is departed. -/
theorem OrderingInv.drained {w : World} {phases : List Phase} (h : OrderingInv config m)
    (hcalls : m.calls = []) :
    OrderingInv config (runDrainPeers crypto config w { m with phases }) := by
  have hpresent : ∀ id : Bytes, m.router.peers.contains id = true →
      departed id m.trace = false := by
    intro id hin
    rcases h.present id hin with hd | ⟨key, hkey⟩
    · exact hd
    · rw [hcalls] at hkey
      cases hkey
  set m' := runDrainPeers crypto config w { m with phases } with hm'
  have hevents : ∀ event ∈ (m.router.peers.toList.map fun p ↦
      drainEvents p.1 p.2.channel.remoteStatic
        (Router.drainPeer crypto config w p.1 p.2)).reverse.flatten, event.envelopes = [] := by
    intro e he
    obtain ⟨events, hin, he⟩ := List.mem_flatten.1 he
    obtain ⟨p, -, rfl⟩ := List.mem_map.1 (List.mem_reverse.1 hin)
    rcases mem_drainEvents he with rfl | ⟨plain, -, rfl⟩ <;> rfl
  have htrace : m'.trace = (m.router.peers.toList.map fun p ↦
      drainEvents p.1 p.2.channel.remoteStatic
        (Router.drainPeer crypto config w p.1 p.2)).reverse.flatten ++ m.trace := by
    simp only [hm', runDrainPeers, List.map_map, Function.comp_def]
  have hdep : ∀ id, departed id m'.trace = departed id m.trace := by
    intro id
    rw [htrace]
    exact departed_append (fun e he ↦ raisesNothing_of_envelopes_nil (hevents e he)) id _
  have hcases : ∀ call ∈ m'.calls, (∃ id reason, call = .dropPeer id reason) ∨
      ∃ messages, call = .drainSelf messages ∧ ∀ p ∈ messages,
        m.router.peers.contains p.1.sourceId = true := by
    intro call hc
    simp only [hm', runDrainPeers, hcalls, List.mem_append, List.mem_cons, List.not_mem_nil,
      or_false] at hc
    rcases hc with hdrop | rfl
    · obtain ⟨_, -, hp⟩ := List.mem_filterMap.1 hdrop
      obtain ⟨reason, -, rfl⟩ := Option.map_eq_some_iff.1 hp
      exact .inl ⟨_, reason, rfl⟩
    · refine .inr ⟨_, rfl, ?_⟩
      rintro ⟨msg, origin⟩ hp
      simp only [List.mem_flatMap, List.mem_map, Prod.exists] at hp
      obtain ⟨id, key, d, ⟨_, entry, hin, heq⟩, msg', plain, hmsg, hpair⟩ := hp
      cases heq
      cases hpair
      have hspec : Router.DrainSpec crypto config w id entry
          (Router.drainPeer crypto config w id entry) := Router.drainPeer_spec id entry
      obtain ⟨-, hdel⟩ := hspec.messages _ _ hmsg
      rw [hdel.sourceId]
      exact (contains_iff_lookup _ _).2 ⟨entry, (mem_toList_iff_lookup _ _ _).1 hin⟩
  have hnoRaise : ∀ call ∈ m'.calls, ∀ id, call ≠ .raiseDisconnected id := by
    rintro call hc id rfl
    rcases hcases _ hc with ⟨_, _, heq⟩ | ⟨_, heq, -⟩ <;> cases heq
  constructor
  · intro call hc p hp hraised
    rw [hdep]
    rcases hcases call hc with ⟨_, _, rfl⟩ | ⟨messages, rfl, hmessages⟩
    · cases hp
    · exact hpresent _ (hmessages p hp)
  · intro id hin
    rw [hdep]
    refine .inl (hpresent id ?_)
    rw [hm', contains_runDrainPeers] at hin
    exact hin
  · exact fun call hc ↦ hnoRaise call (List.mem_of_mem_tail hc)
  · intro id tail heq
    exact absurd rfl (hnoRaise (.raiseDisconnected id) (by rw [heq]; exact List.mem_cons_self) id)
  · rw [hdep]
    exact h.own
  · rw [htrace]
    exact h.ordered.append hevents

/-- An adoption queues the arrival, and touches nobody else. -/
theorem OrderingInv.adopted {id key expectedId recvKey : Bytes} {entry : Peer}
    (h : OrderingInv config m) (hcalls : m.calls = [])
    (hpeers : m'.router.peers = m.router.peers.insert id entry)
    (hcalls' : m'.calls = [.announceTo id, .raiseConnected id key])
    (htrace : m'.trace = .adopted id key expectedId recvKey :: m.trace) :
    OrderingInv config m' := by
  have hplain : RaisesNothing (.adopted id key expectedId recvKey) := by
    rintro _ _ heq
    cases heq
  have hdep : ∀ id', departed id' m'.trace = departed id' m.trace := by
    intro id'
    rw [htrace]
    exact departed_cons hplain id' m.trace
  have hnew : ∀ call ∈ m'.calls, call = .announceTo id ∨ call = .raiseConnected id key := by
    intro call hc
    rw [hcalls'] at hc
    rcases List.mem_cons.1 hc with rfl | hc
    · exact .inl rfl
    · exact .inr (List.mem_singleton.1 hc)
  have hnoRaise : ∀ call ∈ m'.calls, ∀ id, call ≠ .raiseDisconnected id := by
    rintro call hc id' rfl
    rcases hnew _ hc with heq | heq <;> cases heq
  constructor
  · intro call hc p hp
    rcases hnew call hc with rfl | rfl <;> cases hp
  · intro id' hin
    rw [hdep, hcalls']
    obtain ⟨e, he⟩ := (contains_iff_lookup _ _).1 hin
    rw [hpeers, lookup_insert] at he
    split at he
    · rename_i heq
      subst heq
      exact .inr ⟨key, by simp⟩
    · rcases h.present id' ((contains_iff_lookup _ _).2 ⟨e, he⟩) with hd | ⟨key', hkey⟩
      · exact .inl hd
      · rw [hcalls] at hkey
        cases hkey
  · exact fun call hc ↦ hnoRaise call (List.mem_of_mem_tail hc)
  · intro id' tail heq
    exact absurd rfl (hnoRaise (.raiseDisconnected id') (by rw [heq]; exact List.mem_cons_self) id')
  · rw [hdep]
    exact h.own
  · rw [htrace]
    exact ⟨fun p hp ↦ absurd hp List.not_mem_nil, h.ordered⟩

/-- The game stopped the router or started it afresh: nothing is under way, and nobody is there. -/
theorem OrderingInv.cleared {ids : List Bytes} (h : OrderingInv config m) (hcalls : m'.calls = [])
    (hpeers : ∀ id : Bytes, m'.router.peers[id]? = none)
    (htrace : m'.trace = ids.map (Event.removed · .localShutdown) ++ m.trace) :
    OrderingInv config m' := by
  have hevents : ∀ event ∈ ids.map (Event.removed · .localShutdown), event.envelopes = [] := by
    intro event he
    obtain ⟨_, -, rfl⟩ := List.mem_map.1 he
    rfl
  constructor
  · simp [hcalls]
  · intro id hin
    obtain ⟨entry, hget⟩ := (contains_iff_lookup _ _).1 hin
    rw [hpeers id] at hget
    cases hget
  · simp [hcalls]
  · simp [hcalls]
  · rw [htrace, departed_append fun e he ↦ raisesNothing_of_envelopes_nil (hevents e he)]
    exact h.own
  · rw [htrace]
    exact h.ordered.append hevents

/-- A datagram is noted as opened and is dispatched; whoever it is from is there. -/
theorem OrderingInv.datagram {id plain : Bytes} {entry : Peer} (h : OrderingInv config m)
    (hcalls : m.calls = []) (hget : m.router.peers[id]? = some entry)
    (hq : m.router.SamePeers m'.router)
    (hcalls' : m'.calls = [.deliver (Router.datagramEnvelope config id plain)
      (.datagram entry.channel.remoteStatic plain)
      (m.router.listenersOf (Router.datagramEnvelope config id plain).typeTag)])
    (htrace : m'.trace = .dispatched (Router.datagramEnvelope config id plain)
      (.datagram entry.channel.remoteStatic plain) ::
        .openedDatagram id entry.channel.remoteStatic plain :: m.trace) :
    OrderingInv config m' := by
  have hopened : OrderingInv config { m with
      trace := .openedDatagram id entry.channel.remoteStatic plain :: m.trace } := by
    refine h.grow [] [_] (.inl rfl) (by simp [hcalls]) (fun _ ↦ rfl) rfl rfl (by simp) ?_
    intro e he
    rw [List.mem_singleton.1 he]
    rfl
  refine hopened.dispatch rfl ?_ (by simp [hcalls]) hq.contains
    (hcalls'.trans (congrArg (_ :: ·) hcalls.symm)) htrace
  rcases hopened.present id ((contains_iff_lookup _ _).2 ⟨entry, hget⟩) with hd | ⟨key, hkey⟩
  · exact hd
  · simp [hcalls] at hkey

theorem OrderingInv.step {i : Input} (h : OrderingInv config m)
    (hid : IdentityInv crypto config m) (hguard : OrderlyStep config m i)
    (hstep : Machine.step crypto config m i = some m') : OrderingInv config m' := by
  cases step_effect hstep with
  | @quiet _ _ rest drops hq hcalls hrest =>
    refine h.grow (drops.map fun d ↦ .dropPeer d.1 d.2) []
      (hrest.imp (fun hr ↦ hr.1) fun hr ↦ hr) ?_ hq.peers.contains hcalls hq.trace ?_ ?_
    · intro id tail heq
      rcases hrest with ⟨-, hnil | ⟨l, calls, hl⟩⟩ | ⟨id', hid'⟩
      · rw [hnil] at heq
        cases heq
      · rw [hl] at heq
        cases heq
      · exact h.rest_ne hid' (.raiseDisconnected id) (by rw [heq]; exact List.mem_cons_self) id rfl
    · intro call hc
      obtain ⟨d, -, rfl⟩ := List.mem_map.1 hc
      exact ⟨d.1, d.2, rfl⟩
    · exact fun _ he ↦ absurd he List.not_mem_nil
  | cleared _ _ hcalls' hpeers htrace =>
    obtain ⟨ids, htrace⟩ := htrace
    exact h.cleared hcalls' hpeers htrace
  | returned rest hcalls hcall =>
    refine h.pop hcalls ?_
    rintro id key rfl
    rcases hcall with ⟨_, _, heq, -⟩ | ⟨_, _, heq⟩ | ⟨_, heq⟩ | heq <;> cases heq
  | @dropped w id reason entry rest hcalls hget =>
    rw [OrderlyStep, hcalls] at hguard
    exact h.dropped hcalls (hid.peers id entry hget).1.notOwn
      (hguard ((contains_iff_lookup _ _).2 ⟨entry, hget⟩))
  | @raisedConnected w id key rest hcalls =>
    have htag : MessageType.peerConnected.tag ≠ MessageType.peerDisconnected.tag := by decide
    obtain ⟨-, hadopt⟩ := hid.head hcalls
    refine h.raise hcalls rfl (hid.trace.adopted_ne_own hadopt) (fun heq ↦ absurd heq htag)
      (fun heq ↦ absurd heq htag) ?_
    intro id' key' heq
    cases heq
    exact ⟨rfl, htag⟩
  | @raisedDisconnected w id rest hcalls =>
    obtain ⟨hown, habsent, hwait⟩ := h.raising id rest hcalls
    refine h.raise hcalls rfl hown (fun _ ↦ hwait) (fun _ ↦ habsent) ?_
    intro id' key' heq
    cases heq
  | delivered rest hcalls => exact h.delivered hcalls
  | @selfRead w messages rest hcalls =>
    rw [OrderlyStep, hcalls] at hguard
    have hin : Call.drainSelf messages ∈ m.calls := by rw [hcalls]; exact List.mem_cons_self
    refine h.queue hcalls (fun _ _ heq ↦ by cases heq) (fun _ ↦ rfl) ?_
    intro p hp
    rcases List.mem_append.1 hp with hp | hp
    · exact h.waiting _ hin p hp (hid.head hcalls p hp).1
    · obtain ⟨msg, hmsg, rfl⟩ := List.mem_map.1 hp
      rw [hguard msg hmsg]
      exact h.own
  | @dispatchedNext w msg origin messages rest hcalls =>
    have hin : Call.dispatchAll ((msg, origin) :: messages) ∈ m.calls := by
      rw [hcalls]
      exact List.mem_cons_self
    have hall : ∀ p ∈ (msg, origin) :: messages, departed p.1.sourceId m.trace = false :=
      fun p hp ↦ h.waiting _ hin p hp (hid.head hcalls p hp).1
    have hrest := h.queue hcalls (fun _ _ heq ↦ by cases heq) (fun _ ↦ rfl)
      fun p hp ↦ hall p (List.mem_cons_of_mem _ hp)
    have hraised := (hid.head hcalls (msg, origin) List.mem_cons_self).1
    have hsource := hall (msg, origin) List.mem_cons_self
    exact hrest.dispatch hraised hsource (fun _ _ heq ↦ by cases heq) (fun _ ↦ rfl) rfl rfl
  | datagram hcalls hget hq hcalls' htrace => exact h.datagram hcalls hget hq hcalls' htrace
  | adopted hcalls hproved hown hfree hpeers hcalls' htrace =>
    exact h.adopted hcalls hpeers hcalls' htrace
  | drained hcalls hphases => exact h.drained hcalls

/-! ## Every run -/

theorem orderingInv_init : OrderingInv config {} where
  waiting _ hc := absurd hc List.not_mem_nil
  present id hin := by
    obtain ⟨entry, hget⟩ := (contains_iff_lookup _ _).1 hin
    cases (TreeMap.getElem?_emptyc.symm.trans hget)
  atOnce _ hc := absurd hc List.not_mem_nil
  raising _ _ heq := by cases heq
  own := rfl
  ordered := trivial

/-- Where the router alone writes the lifecycle tags, a departure read off the tags is a
departure. -/
theorem departedByTag_eq {trace : List Event} (id : Bytes)
    (h : ∀ event ∈ trace, ∀ p ∈ event.envelopes,
      p.2.isRaised = true ↔ IsLifecycle p.1.typeTag) :
    departedByTag id trace = departed id trace := by
  induction trace with
  | nil => rfl
  | cons event older ih =>
    have ih' := ih fun e he ↦ h e (List.mem_cons_of_mem _ he)
    cases event with
    | dispatched msg origin =>
      have hiff := h _ List.mem_cons_self (msg, origin) List.mem_cons_self
      rw [departedByTag, departed, ih']
      simp only [hiff]
    | _ => exact ih'

theorem TrafficOrdered.byTag {trace : List Event} (hordered : TrafficOrdered trace)
    (h : ∀ event ∈ trace, ∀ p ∈ event.envelopes,
      p.2.isRaised = true ↔ IsLifecycle p.1.typeTag) : TagOrdered trace := by
  induction trace with
  | nil => trivial
  | cons event older ih =>
    have hold : ∀ e ∈ older, ∀ p ∈ e.envelopes, p.2.isRaised = true ↔ IsLifecycle p.1.typeTag :=
      fun e he ↦ h e (List.mem_cons_of_mem _ he)
    refine ⟨fun p hp htag ↦ ?_, ih hordered.2 hold⟩
    rw [departedByTag_eq _ hold]
    refine hordered.1 p hp ?_
    rw [← Bool.not_eq_true, h event List.mem_cons_self p hp]
    exact htag

/-- What the router raises bears a lifecycle tag. -/
theorem isLifecycle_of_raised {older : List Event} {msg : NetEnvelope} {origin : Origin}
    (h : CameFrom crypto config older msg origin) (hraised : origin.isRaised = true) :
    IsLifecycle msg.typeTag := by
  cases origin with
  | adoption key => exact .inl h.1
  | removal => exact .inr h.1
  | _ => cases hraised

theorem orderingInv_of_reaches (h : Reaches (Machine.step crypto config)
    (OrderlyStep config) {} m) :
    OrderingInv config m :=
  h.invariant_of (J := IdentityInv crypto config) identityInv_init
    (fun _ _ _ hinv _ hstep ↦ hinv.step hstep) orderingInv_init
    fun _ _ _ hinv hord hguard hstep ↦ hord.step hinv hguard hstep

/-- **No message follows its sender's departure**, in every run in which a peer is dropped only when
nothing of its is waiting to be handed out, and the loopback brings only what is ours.  Where
besides the router alone writes the lifecycle tags, the order can be read off the tags. -/
theorem traffic_ordered
    (h : Reaches (Machine.step crypto config) (OrderlyStep config) {} m) :
    TrafficOrdered m.trace ∧
      (Reaches (Machine.step crypto config) (AuthenticStep crypto config) {} m →
        TagOrdered m.trace) := by
  have hordered : TrafficOrdered m.trace := (orderingInv_of_reaches h).ordered
  refine ⟨hordered, fun hauth ↦ hordered.byTag ?_⟩
  have hgen := genuineInv_of_reaches hauth
  have htrace := (reachable_identityInv h).trace
  intro event hmem p hp
  refine ⟨fun hraised ↦ ?_, (hgen.trace event hmem p hp).raised⟩
  obtain ⟨newer, older, hsplit⟩ := List.append_of_mem hmem
  rw [hsplit] at htrace
  have hjust := htrace.justified
  cases event with
  | dispatched msg origin =>
    rw [List.mem_singleton.1 hp] at hraised ⊢
    exact isLifecycle_of_raised hjust hraised
  | delivered listener msg origin =>
    rw [List.mem_singleton.1 hp] at hraised ⊢
    exact isLifecycle_of_raised hjust hraised
  | _ => cases hp

/-! ## Runs -/

/-- What player two has to say. -/
def greeting : NetEnvelope where
  typeTag := MessageType.p2pData.tag
  gameId := ascii "game"
  payload := ascii "hello"

/-- The listener hears the greeting of player two. -/
def greetedRun : List Input :=
  Sample.untilAdopted [MessageType.p2pData.tag] (Sample.stream (Sample.key 2) [greeting]) ++
    List.replicate 8 (.run Sample.quiet)

/-- The greeting as the router hands it out. -/
def greetingReceived : NetEnvelope :=
  { greeting with sourceId := Sample.us.idOfKey checksumCrypto (Sample.key 2) }

theorem traffic_ordered_greeted : ∃ m : Machine,
    m.trace.head? = some (.delivered 0 greetingReceived
      (.stream (Sample.key 2) greeting.serialize)) ∧ TrafficOrdered m.trace := by
  obtain ⟨m, hr, hm⟩ := exists_reaches (Machine.step checksumCrypto Sample.us)
    (OrderlyStep Sample.us) {}
    (fun m ↦ m.trace.head? = some (.delivered 0 greetingReceived
      (.stream (Sample.key 2) greeting.serialize)))
    greetedRun (by decide +kernel) (by decide +kernel)
  exact ⟨m, hm, (traffic_ordered hr).1⟩

/-- The same, but the greeting comes with the end of the stream: one drain reads both. -/
def lateRun : List Input :=
  Sample.untilAdopted [MessageType.p2pData.tag] (Sample.stream (Sample.key 2) []) ++
    List.replicate 4 (.run Sample.quiet) ++
    [.run (Sample.hangingUp (Sample.frames (Sample.key 2) [greeting]))] ++
    List.replicate 5 (.run Sample.quiet)

theorem traffic_late : ¬ ∀ (crypto : Crypto) (config : Config) (m : Machine),
    Reaches (Machine.step crypto config) always {} m → TrafficOrdered m.trace := by
  intro hall
  obtain ⟨m, hr, hm⟩ := exists_reaches (Machine.step checksumCrypto Sample.us) always {}
    (fun m ↦ ¬ TrafficOrdered m.trace) lateRun (by decide +kernel) (meets_always _ _)
  exact hm (hall _ _ m hr)

end Machine
end EosMesh
