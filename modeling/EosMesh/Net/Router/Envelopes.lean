import EosMesh.Net.Router.Identity

/-!
# What may be under way

A property of envelopes and where they came from holds of all of them, under way or dispatched, as
soon as it holds of every envelope that is new: a lifecycle event about to be raised, a datagram, a
frame that was opened, a message off the loopback.

* `Envelopes` says that it holds of all of them.
* `Brings` says that it holds of the new ones, and `Envelopes.step` that nothing else is needed.
-/

set_option autoImplicit false

namespace EosMesh

open Lib
open Std (TreeMap)

namespace Machine

variable (crypto : Crypto) (config : Config)

/-- Every envelope under way or dispatched is a `P`. -/
structure Envelopes (P : NetEnvelope → Origin → Prop) (m : Machine) : Prop where
  calls : ∀ call ∈ m.calls, ∀ p ∈ call.envelopes, P p.1 p.2
  trace : ∀ event ∈ m.trace, ∀ p ∈ event.envelopes, P p.1 p.2

/-- Every envelope the step can bring is a `P`. -/
structure Brings (P : NetEnvelope → Origin → Prop) (m : Machine) (i : Input) : Prop where
  connected : ∀ id key rest, m.calls = .raiseConnected id key :: rest →
    P (peerEvent config m.router .peerConnected id) (.adoption key)
  disconnected : ∀ id rest, m.calls = .raiseDisconnected id :: rest →
    P (peerEvent config m.router .peerDisconnected id) .removal
  datagram : ∀ id plain key, P (Router.datagramEnvelope config id plain) (.datagram key plain)
  frames : ∀ w phases, i = .run w → m.calls = [] → m.phases = .drainPeers :: phases →
    ∀ p ∈ m.router.peers.toList, ∀ plain ∈ (Router.openArrived crypto w p.2).plains, ∀ msg,
      Router.DeliveredAs config p.1 plain msg → P msg (.stream p.2.channel.remoteStatic plain)
  loopback : ∀ w messages rest, i = .run w → m.calls = .drainSelf messages :: rest →
    ∀ msg ∈ (m.router.readSelf w).2, P msg .self

variable {crypto config} {P : NetEnvelope → Origin → Prop} {m m' : Machine}

namespace Envelopes

theorem rest {call : Call} {rest : List Call} (h : Envelopes P m)
    (hcalls : m.calls = call :: rest) :
    Envelopes P { m with calls := rest } where
  calls c hc := h.calls c (by rw [hcalls]; exact List.mem_cons_of_mem _ hc)
  trace := h.trace

theorem head {call : Call} {rest : List Call} (h : Envelopes P m)
    (hcalls : m.calls = call :: rest) : ∀ p ∈ call.envelopes, P p.1 p.2 :=
  h.calls call (by rw [hcalls]; exact List.mem_cons_self)

theorem grow (h : Envelopes P m) (calls : List Call) (events : List Event)
    (hcalls : m'.calls = calls ++ m.calls) (htrace : m'.trace = events ++ m.trace)
    (hnewCalls : ∀ call ∈ calls, ∀ p ∈ call.envelopes, P p.1 p.2)
    (hnewEvents : ∀ event ∈ events, ∀ p ∈ event.envelopes, P p.1 p.2) : Envelopes P m' where
  calls c hc := by
    rw [hcalls] at hc
    rcases List.mem_append.1 hc with hnew | hold
    · exact hnewCalls c hnew
    · exact h.calls c hold
  trace e he := by
    rw [htrace] at he
    rcases List.mem_append.1 he with hnew | hold
    · exact hnewEvents e hnew
    · exact h.trace e hold

/-- Calls and events that hold no envelope add nothing to prove. -/
theorem grow_none (h : Envelopes P m) (calls : List Call) (events : List Event)
    (hcalls : m'.calls = calls ++ m.calls) (htrace : m'.trace = events ++ m.trace)
    (hnone : ∀ call ∈ calls, call.envelopes = [])
    (hnone' : ∀ event ∈ events, event.envelopes = []) :
    Envelopes P m' := by
  refine h.grow calls events hcalls htrace (fun c hc p hp ↦ ?_) fun e he p hp ↦ ?_
  · rw [hnone c hc] at hp
    cases hp
  · rw [hnone' e he] at hp
    cases hp

/-- Calls and events that hold one and the same envelope. -/
theorem grow_one (h : Envelopes P m) {msg : NetEnvelope} {origin : Origin} (hmsg : P msg origin)
    (calls : List Call) (events : List Event) (hcalls : m'.calls = calls ++ m.calls)
    (htrace : m'.trace = events ++ m.trace)
    (hone : ∀ call ∈ calls, ∀ p ∈ call.envelopes, p = (msg, origin))
    (hone' : ∀ event ∈ events, ∀ p ∈ event.envelopes, p = (msg, origin)) : Envelopes P m' := by
  refine h.grow calls events hcalls htrace (fun c hc p hp ↦ ?_) fun e he p hp ↦ ?_
  · rw [hone c hc p hp]
    exact hmsg
  · rw [hone' e he p hp]
    exact hmsg

theorem dispatch {msg : NetEnvelope} {origin : Origin} (h : Envelopes P m) (hmsg : P msg origin) :
    Envelopes P (m.dispatch msg origin) := by
  refine h.grow_one hmsg [.deliver msg origin (m.router.listenersOf msg.typeTag)]
    [.dispatched msg origin] rfl rfl ?_ ?_
  all_goals simp [Call.envelopes, Event.envelopes]

theorem drained {w : World} {phases : List Phase} (h : Envelopes P m)
    (hframes : ∀ p ∈ m.router.peers.toList, ∀ plain ∈ (Router.openArrived crypto w p.2).plains,
      ∀ msg, Router.DeliveredAs config p.1 plain msg →
        P msg (.stream p.2.channel.remoteStatic plain)) :
    Envelopes P (runDrainPeers crypto config w { m with phases }) := by
  refine h.grow _ _ (List.append_cons _ _ _) rfl ?_ ?_
  · intro c hc
    rcases List.mem_append.1 hc with hdrop | hself
    · obtain ⟨_, -, hp⟩ := List.mem_filterMap.1 hdrop
      obtain ⟨_, -, rfl⟩ := Option.map_eq_some_iff.1 hp
      exact fun p hp ↦ absurd hp List.not_mem_nil
    · rw [List.mem_singleton.1 hself]
      rintro ⟨msg, origin⟩ hp
      simp only [Call.envelopes, List.mem_flatMap, List.mem_map, Prod.exists] at hp
      obtain ⟨id, key, d, ⟨_, entry, hin, heq⟩, msg', plain, hmsg, hpair⟩ := hp
      cases heq
      cases hpair
      have hspec : Router.DrainSpec crypto config w id entry
          (Router.drainPeer crypto config w id entry) := Router.drainPeer_spec id entry
      obtain ⟨hplain, hdel⟩ := hspec.messages _ _ hmsg
      rw [hspec.plains] at hplain
      exact hframes (id, entry) hin plain hplain msg hdel
  · intro e he p hp
    obtain ⟨events, hevents, he⟩ := List.mem_flatten.1 he
    obtain ⟨⟨id, key, d⟩, -, rfl⟩ := List.mem_map.1 (List.mem_reverse.1 hevents)
    rcases mem_drainEvents he with rfl | ⟨plain, -, rfl⟩
    · exact absurd hp List.not_mem_nil
    · exact absurd hp List.not_mem_nil

/-- **The step rule**: the new envelopes are all there is to look at. -/
theorem step {i : Input} (h : Envelopes P m) (hbrings : Brings crypto config P m i)
    (hstep : Machine.step crypto config m i = some m') : Envelopes P m' := by
  cases step_effect hstep with
  | @quiet _ _ rest drops hq hcalls hrest =>
    have hold : Envelopes P { m with calls := rest } := by
      rcases hrest with ⟨heq, -⟩ | ⟨id, heq⟩
      · rw [← heq]; exact h
      · exact h.rest heq
    refine hold.grow_none _ [] hcalls hq.trace (fun c hc ↦ ?_) fun _ he ↦ absurd he List.not_mem_nil
    obtain ⟨_, -, rfl⟩ := List.mem_map.1 hc
    rfl
  | cleared _ hcalls hcalls' hpeers htrace =>
    obtain ⟨ids, htrace⟩ := htrace
    refine h.grow_none [] _ (by rw [hcalls', hcalls]; rfl) htrace
      (fun _ hc ↦ absurd hc List.not_mem_nil) fun e he ↦ ?_
    obtain ⟨_, -, rfl⟩ := List.mem_map.1 he
    rfl
  | returned rest hcalls _ => exact h.rest hcalls
  | @dropped w id reason entry rest hcalls hget =>
    refine (h.rest hcalls).grow_none [.raiseDisconnected id] [.removed id reason] rfl rfl ?_ ?_
    all_goals simp [Call.envelopes, Event.envelopes]
  | @raisedConnected w id key rest hcalls =>
    exact (h.rest hcalls).dispatch (hbrings.connected id key rest hcalls)
  | @raisedDisconnected w id rest hcalls =>
    exact (h.rest hcalls).dispatch (hbrings.disconnected id rest hcalls)
  | @delivered w msg origin listener listeners rest hcalls =>
    have hmsg := h.head hcalls (msg, origin) List.mem_cons_self
    refine (h.rest hcalls).grow_one hmsg [.listening listener, .deliver msg origin listeners]
      [.delivered listener msg origin] rfl rfl ?_ ?_
    all_goals simp [Call.envelopes, Event.envelopes]
  | @selfRead w messages rest hcalls =>
    refine (h.rest hcalls).grow
      [.dispatchAll (messages ++ (m.router.readSelf w).2.map (·, .self))] [] rfl rfl
      (fun c hc p hp ↦ ?_) fun _ he ↦ absurd he List.not_mem_nil
    rw [List.mem_singleton.1 hc, Call.envelopes] at hp
    rcases List.mem_append.1 hp with hp | hp
    · exact h.head hcalls p hp
    · obtain ⟨msg, hmsg, rfl⟩ := List.mem_map.1 hp
      exact hbrings.loopback w messages rest rfl hcalls msg hmsg
  | @dispatchedNext w msg origin messages rest hcalls =>
    have hhead := h.head hcalls
    have hrest : Envelopes P { m with calls := .dispatchAll messages :: rest } := by
      refine (h.rest hcalls).grow [.dispatchAll messages] [] rfl rfl (fun c hc p hp ↦ ?_)
        fun _ he ↦ absurd he List.not_mem_nil
      rw [List.mem_singleton.1 hc] at hp
      exact hhead p (List.mem_cons_of_mem _ hp)
    exact hrest.dispatch (hhead (msg, origin) List.mem_cons_self)
  | @datagram w _ id plain entry hcalls hget hq hcalls' htrace =>
    refine h.grow_one (hbrings.datagram id plain entry.channel.remoteStatic) [_] [_, _]
      (by rw [hcalls]; exact hcalls') htrace ?_ ?_
    all_goals simp [Call.envelopes, Event.envelopes]
  | @adopted w _ id entry hcalls hproved hown hfree hpeers hcalls' htrace =>
    refine h.grow_none [.announceTo id, .raiseConnected id entry.channel.remoteStatic] [_]
      (by rw [hcalls, hcalls']; rfl) htrace ?_ ?_
    all_goals simp [Call.envelopes, Event.envelopes]
  | @drained w phases hcalls hphases =>
    exact h.drained (hbrings.frames w phases rfl hcalls hphases)

end Envelopes
end Machine
end EosMesh
