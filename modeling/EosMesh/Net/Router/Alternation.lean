import EosMesh.Net.Router.Identity
import EosMesh.Net.Router.Listeners

/-!
# Every listener sees a peer come and go by turns

A connection that is adopted is announced and raised; a peer that is dropped is raised as gone.
Both reach the listeners one after the other, and anything a listener sends on the way may fail and
drop a peer before the listeners behind it have heard that it came.

* `heard` is what a listener hears of a peer, and `Alternates` that it hears arrivals and departures
  by turns, an arrival first.  Both are read off the trace.
* `owed` is what a call under way has still to tell it; `Settled` ties that to the peer table and to
  what the listener heard last: nothing is owed and it heard last how things stand, or exactly that
  is owed and it heard the opposite last.
* `SettledDrop` is the condition under which the tie holds: the peer is not dropped while its
  arrival has still to reach the listener.  It is a condition on the state and on the input, and the
  removal it speaks of is the only step that can break the tie.
* `ReadsEvents` collects what `owed` does not read: drops that are only asked for, announcements,
  calls that return.  Any other reading of the calls that passes over these is kept by the same
  steps, and `Net.Router.Notices` has one.
* `AlternationInv.step` is the step lemma, and `lifecycle_alternates` the result: from any start of
  the router, in every span in which the listener stays registered, for every peer and every
  listener.
-/

set_option autoImplicit false

namespace EosMesh

open Lib
open Std (TreeMap)

namespace Machine

/-! ## The property -/

/-- What an event of the trace tells `listener` of peer `id`: `true` that it came, `false` that it
went. -/
def heard (listener : Listener) (id : Bytes) : Event → Option Bool
  | .delivered l msg origin =>
    if l = listener ∧ origin.isRaised ∧ msg.sourceId = id then
      some (msg.typeTag = MessageType.peerConnected.tag)
    else none
  | _ => none

/-- Arrivals and departures by turns, newest first, of which the first was an arrival. -/
def Alternates : List Bool → Prop
  | [] => True
  | came :: older => came = !older.headD false ∧ Alternates older

instance Alternates.decidable : ∀ events : List Bool, Decidable (Alternates events)
  | [] => isTrue trivial
  | _ :: older =>
    have := Alternates.decidable older
    inferInstanceAs (Decidable (_ ∧ _))

/-- Neither the end of the span nor of the registration: the router is not started or stopped, and
the listener stays registered for both events. -/
def InSpan (listener : Listener) : Input → Prop
  | .start _ => False
  | .stop => False
  | .act _ (.unregisterListener tag l) => l = listener →
      tag ≠ MessageType.peerConnected.tag ∧ tag ≠ MessageType.peerDisconnected.tag
  | _ => True

/-- What a call under way has still to tell `listener` of peer `id`. -/
def owed (listener : Listener) (id : Bytes) : Call → Option Bool
  | .raiseConnected peer _ => if peer = id then some true else none
  | .raiseDisconnected peer => if peer = id then some false else none
  | .deliver msg origin listeners =>
    if origin.isRaised ∧ msg.sourceId = id ∧ listener ∈ listeners then
      some (msg.typeTag = MessageType.peerConnected.tag)
    else none
  | _ => none

/-- The condition: peer `id` is dropped only when its arrival has reached the listener. -/
def SettledDrop (listener : Listener) (id : Bytes) (m : Machine) : Input → Prop
  | .run _ =>
    match m.calls with
    | .dropPeer peer _ :: rest =>
      peer = id → m.router.peers.contains id = true → ∀ call ∈ rest,
        owed listener id call ≠ some true
    | _ => True
  | _ => True

/-- A step of a span in which the condition holds. -/
def AlternationStep (listener : Listener) (id : Bytes) (m : Machine) (i : Input) : Prop :=
  InSpan listener i ∧ SettledDrop listener id m i

instance (listener : Listener) (i : Input) : Decidable (InSpan listener i) := by
  unfold InSpan
  repeat' split
  all_goals infer_instance

instance (listener : Listener) (id : Bytes) (m : Machine) (i : Input) :
    Decidable (SettledDrop listener id m i) := by
  delta SettledDrop
  exact match i with
  | .run _ =>
    match m.calls with
    | .dropPeer peer _ :: rest => inferInstanceAs (Decidable (peer = id →
        m.router.peers.contains id = true → ∀ call ∈ rest, owed listener id call ≠ some true))
    | [] | .announceTo _ :: _ | .raiseConnected .. :: _ | .raiseDisconnected _ :: _
    | .deliver .. :: _ | .listening _ :: _ | .drainSelf _ :: _ | .dispatchAll _ :: _ =>
      instDecidableTrue
  | .start _ | .stop | .tick | .act _ _ | .ret => instDecidableTrue

instance (listener : Listener) (id : Bytes) (m : Machine) (i : Input) :
    Decidable (AlternationStep listener id m i) :=
  inferInstanceAs (Decidable (_ ∧ _))

/-! ## The invariant -/

/-- Either nothing is owed and the listener heard last how things stand, or exactly that is owed and
it heard the opposite last. -/
def Settled (pending : List Bool) (present last : Bool) : Prop :=
  (pending = [] ∧ last = present) ∨ (pending = [present] ∧ last = !present)

/-- The tie for one listener and one peer, with the trace since `base`. -/
structure AlternationInv (listener : Listener) (id : Bytes) (base : List Event) (m : Machine) :
    Prop where
  registered : listener ∈ m.router.listenersOf MessageType.peerConnected.tag ∧
    listener ∈ m.router.listenersOf MessageType.peerDisconnected.tag
  span : ∃ span, m.trace = span ++ base ∧ Alternates (span.filterMap (heard listener id)) ∧
    Settled (m.calls.filterMap (owed listener id)) (m.router.peers.contains id)
      ((span.filterMap (heard listener id)).headD false)

variable {crypto : Crypto} {config : Config} {listener : Listener} {id : Bytes} {base : List Event}
  {m m' : Machine}

/-- A listener in the span stays registered. -/
theorem registered_step {i : Input} (hspan : InSpan listener i)
    (hstep : Machine.step crypto config m i = some m')
    (h : listener ∈ m.router.listenersOf MessageType.peerConnected.tag ∧
      listener ∈ m.router.listenersOf MessageType.peerDisconnected.tag) :
    listener ∈ m'.router.listenersOf MessageType.peerConnected.tag ∧
      listener ∈ m'.router.listenersOf MessageType.peerDisconnected.tag := by
  refine ⟨step_registered hstep ?_ h.1, step_registered hstep ?_ h.2⟩
  · rintro w rfl
    exact (hspan rfl).1 rfl
  · rintro w rfl
    exact (hspan rfl).2 rfl

/-- A step the listener hears nothing of, and that leaves it owed what it was, of the same peer. -/
theorem AlternationInv.keep (h : AlternationInv listener id base m) (events : List Event)
    (hregistered : listener ∈ m'.router.listenersOf MessageType.peerConnected.tag ∧
      listener ∈ m'.router.listenersOf MessageType.peerDisconnected.tag)
    (hpeers : m'.router.peers.contains id = m.router.peers.contains id)
    (hcalls : m'.calls.filterMap (owed listener id) = m.calls.filterMap (owed listener id))
    (htrace : m'.trace = events ++ m.trace)
    (hevents : events.filterMap (heard listener id) = []) : AlternationInv listener id base m' := by
  obtain ⟨span, hspan, halt, hsettled⟩ := h.span
  refine ⟨hregistered, events ++ span, ?_, ?_, ?_⟩
  · rw [htrace, hspan, List.append_assoc]
  · rw [List.filterMap_append, hevents]
    exact halt
  · rw [List.filterMap_append, hevents, hpeers, hcalls]
    exact hsettled

/-! ## Readings of the calls and of the trace -/

/-- A reading of the calls that concerns peer events alone: what is still to be raised, or to be
handed to a listener. -/
structure ReadsEvents {β : Type} (f : Call → Option β) : Prop where
  dropPeer : ∀ id reason, f (.dropPeer id reason) = none
  announceTo : ∀ id, f (.announceTo id) = none
  delivered : ∀ msg origin, f (.deliver msg origin []) = none
  listening : ∀ l, f (.listening l) = none
  drainSelf : ∀ messages, f (.drainSelf messages) = none
  dispatchAll : ∀ messages, f (.dispatchAll messages) = none

namespace ReadsEvents

variable {β : Type} {f : Call → Option β} {rest : List Call}

/-- The sends that fail ask for drops, which are no events yet. -/
theorem quiet (hf : ReadsEvents f) {drops : List (Bytes × DropReason)}
    (hcalls : m'.calls = drops.map (fun d ↦ .dropPeer d.1 d.2) ++ rest)
    (hrest : m.calls = rest ∨ ∃ id, m.calls = .announceTo id :: rest) :
    m'.calls.filterMap f = m.calls.filterMap f := by
  have hdrops : (drops.map fun d ↦ Call.dropPeer d.1 d.2).filterMap f = [] := by
    rw [List.filterMap_eq_nil_iff]
    intro call hc
    obtain ⟨d, -, rfl⟩ := List.mem_map.1 hc
    exact hf.dropPeer d.1 d.2
  rw [hcalls, List.filterMap_append, hdrops, List.nil_append]
  rcases hrest with heq | ⟨id, heq⟩
  · rw [heq]
  · rw [heq, List.filterMap_cons, hf.announceTo]

/-- A call that returns told all there was to tell. -/
theorem returned (hf : ReadsEvents f) {call : Call} (hcalls : m.calls = call :: rest)
    (hcall : (∃ id reason, call = .dropPeer id reason ∧ m.router.peers[id]? = none) ∨
      (∃ msg origin, call = .deliver msg origin []) ∨ (∃ l, call = .listening l) ∨
      call = .dispatchAll []) : rest.filterMap f = m.calls.filterMap f := by
  have hnone : f call = none := by
    rcases hcall with ⟨id, reason, rfl, -⟩ | ⟨msg, origin, rfl⟩ | ⟨l, rfl⟩ | rfl
    · exact hf.dropPeer id reason
    · exact hf.delivered msg origin
    · exact hf.listening l
    · exact hf.dispatchAll []
  rw [hcalls, List.filterMap_cons, hnone]

/-- A drain asks for drops, and hands on what it read. -/
theorem drained (hf : ReadsEvents f) {w : World} {phases : List Phase} (hcalls : m.calls = []) :
    (runDrainPeers crypto config w { m with phases }).calls.filterMap f =
      m.calls.filterMap f := by
  simp only [runDrainPeers, hcalls, List.filterMap_append, List.filterMap_cons, hf.drainSelf,
    List.filterMap_nil, List.append_nil, List.filterMap_eq_nil_iff]
  intro call hc
  obtain ⟨p, -, hdrop⟩ := List.mem_filterMap.1 hc
  obtain ⟨reason, -, rfl⟩ := Option.map_eq_some_iff.1 hdrop
  exact hf.dropPeer p.1 reason

end ReadsEvents

/-- What a drain notes is of frames, opened or failed. -/
theorem exists_events_runDrainPeers {β : Type} {g : Event → Option β} {w : World}
    {phases : List Phase} (hfailed : ∀ id, g (.failed id) = none)
    (hopened : ∀ id key plain, g (.opened id key plain) = none) :
    ∃ events, (runDrainPeers crypto config w { m with phases }).trace = events ++ m.trace ∧
      events.filterMap g = [] := by
  refine ⟨_, rfl, ?_⟩
  rw [List.filterMap_eq_nil_iff]
  intro event he
  obtain ⟨events, hin, he⟩ := List.mem_flatten.1 he
  obtain ⟨p, -, rfl⟩ := List.mem_map.1 (List.mem_reverse.1 hin)
  rcases mem_drainEvents he with rfl | ⟨plain, -, rfl⟩
  · exact hfailed _
  · exact hopened _ _ _

/-- Another peer that is adopted is one more peer. -/
theorem contains_adopted {peer : Bytes} {entry : Peer}
    (hpeers : m'.router.peers = m.router.peers.insert peer entry) (hother : peer ≠ id) :
    m'.router.peers.contains id = m.router.peers.contains id := by
  rw [Bool.eq_iff_iff, contains_iff_lookup, contains_iff_lookup, hpeers, lookup_insert,
    if_neg hother]

theorem readsEvents_owed : ReadsEvents (owed listener id) where
  dropPeer _ _ := rfl
  announceTo _ := rfl
  delivered _ _ := if_neg fun h ↦ List.not_mem_nil h.2.2
  listening _ := rfl
  drainSelf _ := rfl
  dispatchAll _ := rfl

/-! ## The step lemma -/

/-- Dropping a peer: the one step that can make the router owe the listener a departure. -/
theorem AlternationInv.dropped {peer : Bytes} {reason : DropReason} {rest : List Call}
    (h : AlternationInv listener id base m) (hcalls : m.calls = .dropPeer peer reason :: rest)
    (hin : m.router.peers.contains peer = true)
    (hdrop : peer = id → ∀ call ∈ rest, owed listener id call ≠ some true) :
    AlternationInv listener id base { m with
      router := { m.router with peers := m.router.peers.erase peer }
      calls := .raiseDisconnected peer :: rest
      trace := .removed peer reason :: m.trace } := by
  have hpending : m.calls.filterMap (owed listener id) = rest.filterMap (owed listener id) := by
    rw [hcalls]
    rfl
  by_cases heq : peer = id
  · subst heq
    obtain ⟨span, hspan, halt, hsettled⟩ := h.span
    rw [hpending, hin] at hsettled
    -- The condition excludes that an arrival is owed, and a departure is not while the peer is
    -- there.
    have hquiet : rest.filterMap (owed listener peer) = [] ∧
        (span.filterMap (heard listener peer)).headD false = true := by
      rcases hsettled with hnothing | ⟨hone, -⟩
      · exact hnothing
      · have htrue : true ∈ rest.filterMap (owed listener peer) := by
          rw [hone]
          exact List.mem_cons_self
        obtain ⟨call, hmem, howed⟩ := List.mem_filterMap.1 htrue
        exact absurd howed (hdrop rfl call hmem)
    have hgone : (m.router.peers.erase peer).contains peer = false := by
      rw [not_contains_iff_lookup, lookup_erase, if_pos rfl]
    refine ⟨h.registered, .removed peer reason :: span, by rw [hspan]; rfl, halt, .inr ⟨?_, ?_⟩⟩
    · rw [List.filterMap_cons, hquiet.1, owed, if_pos rfl, hgone]
    · rw [hgone]
      exact hquiet.2
  · refine h.keep [.removed peer reason] h.registered ?_ ?_ rfl rfl
    · rw [Bool.eq_iff_iff, contains_iff_lookup, contains_iff_lookup]
      dsimp only
      rw [lookup_erase, if_neg heq]
    · rw [hpending, List.filterMap_cons, owed, if_neg heq]

/-- A listener is called: either this is what the listener was owed, or it learns nothing. -/
theorem AlternationInv.delivered {msg : NetEnvelope} {origin : Origin} {l : Listener}
    {listeners : List Listener} {rest : List Call} (h : AlternationInv listener id base m)
    (hcalls : m.calls = .deliver msg origin (l :: listeners) :: rest)
    (hnodup : (l :: listeners).Nodup) :
    AlternationInv listener id base { m with
      calls := .listening l :: .deliver msg origin listeners :: rest
      trace := .delivered l msg origin :: m.trace } := by
  by_cases hhit : l = listener ∧ origin.isRaised = true ∧ msg.sourceId = id
  · obtain ⟨rfl, hraised, hsource⟩ := hhit
    set came := decide (msg.typeTag = MessageType.peerConnected.tag) with hcame
    have hheard : heard l id (.delivered l msg origin) = some came := by
      rw [heard, if_pos ⟨rfl, hraised, hsource⟩]
    have howed : m.calls.filterMap (owed l id) = came :: rest.filterMap (owed l id) := by
      rw [hcalls, List.filterMap_cons, owed, if_pos ⟨hraised, hsource, List.mem_cons_self⟩]
    have hafter : (Call.deliver msg origin listeners :: rest).filterMap (owed l id) =
        rest.filterMap (owed l id) := by
      rw [List.filterMap_cons, owed, if_neg]
      exact fun hc ↦ (List.nodup_cons.1 hnodup).1 hc.2.2
    obtain ⟨span, hspan, halt, hsettled⟩ := h.span
    rw [howed] at hsettled
    rcases hsettled with ⟨hnil, -⟩ | ⟨hone, hlast⟩
    · cases hnil
    · obtain ⟨hpresent, hnone⟩ := List.cons_eq_cons.1 hone
      refine ⟨h.registered, .delivered l msg origin :: span, by rw [hspan]; rfl, ?_, ?_⟩
      · rw [List.filterMap_cons, hheard]
        refine ⟨?_, halt⟩
        rw [hlast, hpresent, Bool.not_not]
      · refine .inl ⟨hafter.trans hnone, ?_⟩
        rw [List.filterMap_cons, hheard]
        exact hpresent
  · have hheard : heard listener id (.delivered l msg origin) = none := by
      rw [heard, if_neg hhit]
    refine h.keep [.delivered l msg origin] h.registered rfl ?_ rfl ?_
    · have hsame : (origin.isRaised = true ∧ msg.sourceId = id ∧ listener ∈ listeners) ↔
          (origin.isRaised = true ∧ msg.sourceId = id ∧ listener ∈ l :: listeners) := by
        rw [List.mem_cons]
        constructor
        · exact fun ⟨hr, hs, hm⟩ ↦ ⟨hr, hs, .inr hm⟩
        · rintro ⟨hr, hs, heq | hm⟩
          · exact absurd ⟨heq.symm, hr, hs⟩ hhit
          · exact ⟨hr, hs, hm⟩
      rw [hcalls]
      simp only [List.filterMap_cons, owed, hsame]
    · rw [List.filterMap_cons, hheard, List.filterMap_nil]

theorem AlternationInv.step {i : Input} (h : AlternationInv listener id base m)
    (hid : IdentityInv crypto config m) (hlisteners : ListenersInv m)
    (hguard : AlternationStep listener id m i)
    (hstep : Machine.step crypto config m i = some m') : AlternationInv listener id base m' := by
  obtain ⟨hspan, hsettled⟩ := hguard
  have hreg := registered_step hspan hstep h.registered
  cases step_effect hstep with
  | @quiet _ _ rest drops hq hcalls hrest =>
    exact h.keep [] hreg (hq.peers.contains id)
      (readsEvents_owed.quiet hcalls (hrest.imp_left And.left)) hq.trace rfl
  | cleared hi _ _ _ _ =>
    rcases hi with rfl | ⟨ports, rfl⟩
    · exact hspan.elim
    · exact hspan.elim
  | @returned _ call rest hcalls hcall =>
    exact h.keep [] hreg rfl (readsEvents_owed.returned hcalls hcall) rfl rfl
  | @dropped w peer reason entry rest hcalls hget =>
    have hin : m.router.peers.contains peer = true := (contains_iff_lookup _ _).2 ⟨entry, hget⟩
    rw [SettledDrop, hcalls] at hsettled
    exact h.dropped hcalls hin fun heq ↦ hsettled heq (heq ▸ hin)
  | @raisedConnected w peer key rest hcalls =>
    refine h.keep [_] hreg rfl ?_ rfl rfl
    rw [hcalls]
    simp only [Machine.dispatch, List.filterMap_cons, owed, peerEvent, Origin.isRaised,
      h.registered.1, true_and, and_true, decide_true]
  | @raisedDisconnected w peer rest hcalls =>
    refine h.keep [_] hreg rfl ?_ rfl rfl
    have htag : MessageType.peerDisconnected.tag ≠ MessageType.peerConnected.tag := by decide
    rw [hcalls]
    simp only [Machine.dispatch, List.filterMap_cons, owed, peerEvent, Origin.isRaised,
      h.registered.2, true_and, and_true, htag, decide_false]
  | @delivered w msg origin l listeners rest hcalls =>
    refine h.delivered hcalls (hlisteners.snapshots msg origin _ ?_)
    rw [hcalls]
    exact List.mem_cons_self
  | selfRead rest hcalls =>
    refine h.keep [] hreg rfl ?_ rfl rfl
    rw [hcalls]
    rfl
  | @dispatchedNext w msg origin messages rest hcalls =>
    have hraised := (hid.head hcalls (msg, origin) List.mem_cons_self).1
    refine h.keep [_] hreg rfl ?_ rfl rfl
    rw [hcalls]
    simp only [Machine.dispatch, List.filterMap_cons, owed, hraised, Bool.false_eq_true, false_and,
      if_false]
  | datagram hcalls hget hq hcalls' htrace =>
    refine h.keep [_, _] hreg (hq.contains id) ?_ htrace rfl
    rw [hcalls', hcalls]
    simp only [List.filterMap_cons, owed, Origin.isRaised, Bool.false_eq_true, false_and, if_false]
  | @adopted w _ peer entry hcalls hproved hown hfree hpeers hcalls' htrace =>
    obtain ⟨span, hspan', halt, hold⟩ := h.span
    by_cases heq : peer = id
    · subst heq
      have habsent : m.router.peers.contains peer = false := (not_contains_iff_lookup _ _).2 hfree
      have hpresent : m'.router.peers.contains peer = true := by
        rw [contains_iff_lookup, hpeers, lookup_insert, if_pos rfl]
        exact ⟨_, rfl⟩
      rw [hcalls, habsent] at hold
      refine ⟨hreg, .adopted peer entry.channel.remoteStatic entry.expectedId
        entry.channel.recv.key :: span, by rw [htrace, hspan']; rfl, halt, .inr ⟨?_, ?_⟩⟩
      · rw [hcalls', hpresent]
        simp only [List.filterMap_cons, owed, if_true, List.filterMap_nil]
      · rw [hpresent]
        rcases hold with ⟨-, hlast⟩ | ⟨hnil, -⟩
        · exact hlast
        · cases hnil
    · refine h.keep [_] hreg (contains_adopted hpeers heq) ?_ htrace rfl
      rw [hcalls', hcalls]
      simp only [List.filterMap_cons, owed, heq, if_false, List.filterMap_nil]
  | drained hcalls _ =>
    obtain ⟨events, htrace, hevents⟩ := exists_events_runDrainPeers (g := heard listener id)
      (fun _ ↦ rfl) fun _ _ _ ↦ rfl
    exact h.keep events hreg (contains_runDrainPeers _ id) (readsEvents_owed.drained hcalls) htrace
      hevents

/-! ## Every span -/

/-- **Arrivals and departures reach every listener by turns**, and between ticks the last of them
says whether the peer is in the table: from any start of the router, in every run of that span in
which the peer is not dropped while its arrival has still to reach the listener. -/
theorem lifecycle_alternates {m₀ m₁ : Machine} {ports : Option (UInt16 × UInt16)}
    (hpast : Reaches (Machine.step crypto config) always {} m₀)
    (hstopped : m₀.router.running = false)
    (hstart : Machine.step crypto config m₀ (.start ports) = some m₁)
    (hregistered : listener ∈ m₁.router.listenersOf MessageType.peerConnected.tag ∧
      listener ∈ m₁.router.listenersOf MessageType.peerDisconnected.tag)
    (h : Reaches (Machine.step crypto config) (AlternationStep listener id) m₁ m) :
    ∃ span, m.trace = span ++ m₁.trace ∧ Alternates (span.filterMap (heard listener id)) ∧
      (m.Idle → (span.filterMap (heard listener id)).headD false =
        m.router.peers.contains id) := by
  have hpast₁ := hpast.tail trivial hstart
  have hempty : m₁.calls = [] ∧ m₁.router.peers.contains id = false := by
    rw [Machine.step] at hstart
    split at hstart
    · rename_i hidle
      cases hstart
      refine ⟨hidle.1, (not_contains_iff_lookup _ _).2 ?_⟩
      dsimp only
      unfold Router.start
      rw [if_neg (by rw [hstopped]; exact Bool.false_ne_true)]
      repeat' split
      all_goals exact TreeMap.getElem?_emptyc
    · cases hstart
  have hinit : AlternationInv listener id m₁.trace m₁ := by
    refine ⟨hregistered, [], rfl, trivial, .inl ⟨?_, ?_⟩⟩
    · rw [hempty.1]
      rfl
    · rw [hempty.2]
      rfl
  have hboth : (IdentityInv crypto config m ∧ ListenersInv m) ∧
      AlternationInv listener id m₁.trace m := by
    have := h.invariant (I := fun m ↦ (IdentityInv crypto config m ∧ ListenersInv m) ∧
        AlternationInv listener id m₁.trace m)
      ⟨⟨reachable_identityInv hpast₁, reachable_listenersInv hpast₁⟩, hinit⟩
      fun _ _ _ hinv hguard hstep ↦ ⟨⟨hinv.1.1.step hstep, hinv.1.2.step hstep⟩,
        hinv.2.step hinv.1.1 hinv.1.2 hguard hstep⟩
    exact this
  obtain ⟨-, -, span, hspan, halt, hsettled⟩ := hboth
  refine ⟨span, hspan, halt, fun hidle ↦ ?_⟩
  rw [hidle.1] at hsettled
  rcases hsettled with ⟨-, hlast⟩ | ⟨hnil, -⟩
  · exact hlast
  · cases hnil

/-! ## Runs -/

/-- Listener zero is registered for both events, and the router has not been started. -/
def attentive : Machine where
  router := (Router.registerListener {} MessageType.peerConnected.tag 0).registerListener
    MessageType.peerDisconnected.tag 0

/-- The router has just been started. -/
def attentiveStarted : Machine :=
  { attentive with router := (attentive.router.start Sample.us (some (55789, 40000))).2 }

/-- The second player. -/
def playerTwo : Bytes := Sample.us.idOfKey checksumCrypto (Sample.key 2)

theorem attentive_reached : Reaches (Machine.step checksumCrypto Sample.us) always {}
    attentive := by
  have hruns : runInputs (Machine.step checksumCrypto Sample.us) {}
      [.act Sample.quiet (.registerListener MessageType.peerConnected.tag 0),
        .act Sample.quiet (.registerListener MessageType.peerDisconnected.tag 0)] =
      some attentive := rfl
  exact reaches_of_runInputs hruns (meets_always _ _)

theorem attentive_registered :
    0 ∈ attentiveStarted.router.listenersOf MessageType.peerConnected.tag ∧
      0 ∈ attentiveStarted.router.listenersOf MessageType.peerDisconnected.tag := by
  decide +kernel

/-- Player two comes, and then its connection ends. -/
def comeAndGoRun : List Input :=
  Sample.adopting (Sample.stream (Sample.key 2) []) ++
    [.run Sample.quiet, .run Sample.quiet, .run Sample.quiet, .ret, .run Sample.quiet,
      .run Sample.quiet, .run (Sample.hangingUp []), .run Sample.quiet, .run Sample.quiet,
      .run Sample.quiet, .ret] ++ List.replicate 5 (.run Sample.quiet)

theorem lifecycle_alternates_comeAndGo : ∃ m : Machine,
    (m.Idle ∧ m.trace.filterMap (heard 0 playerTwo) = [false, true]) ∧
      ∃ span, m.trace = span ++ attentiveStarted.trace ∧
        Alternates (span.filterMap (heard 0 playerTwo)) ∧
        (m.Idle → (span.filterMap (heard 0 playerTwo)).headD false =
          m.router.peers.contains playerTwo) := by
  obtain ⟨m, hr, hm⟩ := exists_reaches (Machine.step checksumCrypto Sample.us)
    (AlternationStep 0 playerTwo) attentiveStarted
    (fun m ↦ m.Idle ∧ m.trace.filterMap (heard 0 playerTwo) = [false, true])
    comeAndGoRun (by decide +kernel) (by decide +kernel)
  exact ⟨m, hm, lifecycle_alternates attentive_reached rfl rfl attentive_registered hr⟩

/-- Player two is adopted, but the announcement we owe it fails. -/
def goneBeforeComeRun : List Input :=
  Sample.adopting (Sample.stream (Sample.key 2) []) ++
    [.run Sample.refusing, .run Sample.quiet, .run Sample.quiet, .run Sample.quiet]

theorem lifecycle_gone_before_come : ¬ ∀ (crypto : Crypto) (config : Config) (listener : Listener)
    (id : Bytes) (m₀ m₁ m : Machine) (ports : Option (UInt16 × UInt16)),
    Reaches (Machine.step crypto config) always {} m₀ → m₀.router.running = false →
    Machine.step crypto config m₀ (.start ports) = some m₁ →
    listener ∈ m₁.router.listenersOf MessageType.peerConnected.tag ∧
      listener ∈ m₁.router.listenersOf MessageType.peerDisconnected.tag →
    Reaches (Machine.step crypto config) (fun _ i ↦ InSpan listener i) m₁ m →
    ∃ span, m.trace = span ++ m₁.trace ∧ Alternates (span.filterMap (heard listener id)) ∧
      (m.Idle → (span.filterMap (heard listener id)).headD false =
        m.router.peers.contains id) := by
  intro hall
  obtain ⟨m, hr, hm⟩ := exists_reaches (Machine.step checksumCrypto Sample.us)
    (fun _ i ↦ InSpan 0 i) attentiveStarted
    (fun m ↦ ¬ Alternates (m.trace.filterMap (heard 0 playerTwo)))
    goneBeforeComeRun (by decide +kernel) (by decide +kernel)
  obtain ⟨span, hspan, halt, -⟩ := hall _ _ 0 playerTwo _ attentiveStarted m (some (55789, 40000))
    attentive_reached rfl rfl attentive_registered hr
  have hnil : attentiveStarted.trace = [] := rfl
  rw [hnil, List.append_nil] at hspan
  rw [hspan] at hm
  exact hm halt

end Machine
end EosMesh
