import EosMesh.Net.Router.Effects

/-!
# Who is listening

The listener tables, and what the router does to them: only registering and unregistering change
them, and no table ever names a listener twice.  A dispatch works on a snapshot, so the same holds
of the listeners a dispatch under way has still to call.

* `step_listeners` is the frame lemma for a step of the machine: the table of each kind of message
  is what it was, unless the game, or the listener that has control, registered or unregistered
  there.
* `ListenersInv` is the invariant, about the tables and the snapshots under way, and
  `reachable_listenersInv` its run lemma.  `deliver_mem_step` is where the snapshots come from: a
  dispatch under way was under way before, or has just looked its listeners up.
* `step_registered` says that a listener nobody unregisters stays.

That a snapshot names nobody twice is what makes it possible to say who has been told: a listener
that was called is not among those still to be called (`Net.Router.Alternation`).
-/

set_option autoImplicit false

namespace EosMesh

open Lib
open Std (TreeMap)

/-! ## The listener tables -/

namespace Router

variable {r : Router}

theorem listenersOf_insert (tag tag' : UInt16) (bucket : List Listener) :
    ({ r with listeners := r.listeners.insert tag bucket } : Router).listenersOf tag' =
      if tag = tag' then bucket else r.listenersOf tag' := by
  simp only [listenersOf, TreeMap.getD_insert, Std.LawfulEqCmp.compare_eq_iff_eq]

theorem listenersOf_erase (tag tag' : UInt16) :
    ({ r with listeners := r.listeners.erase tag } : Router).listenersOf tag' =
      if tag = tag' then [] else r.listenersOf tag' := by
  simp only [listenersOf, TreeMap.getD_erase, Std.LawfulEqCmp.compare_eq_iff_eq]

theorem listenersOf_of_some {tag : UInt16} {bucket : List Listener}
    (h : r.listeners[tag]? = some bucket) : r.listenersOf tag = bucket := by
  rw [listenersOf, TreeMap.getD_eq_getD_getElem?, h, Option.getD_some]

theorem registerListener_listenersOf (tag tag' : UInt16) (listener : Listener) :
    (r.registerListener tag listener).listenersOf tag' =
      if tag = tag' ∧ listener ∉ r.listenersOf tag then r.listenersOf tag ++ [listener]
      else r.listenersOf tag' := by
  rw [registerListener]
  split
  · rename_i hin
    rw [if_neg (fun hc ↦ hc.2 hin)]
  · rename_i hin
    rw [listenersOf_insert]
    by_cases htag : tag = tag'
    · rw [if_pos htag, if_pos ⟨htag, hin⟩]
    · rw [if_neg htag, if_neg (fun hc ↦ htag hc.1)]

theorem unregisterListener_listenersOf (tag tag' : UInt16) (listener : Listener) :
    (r.unregisterListener tag listener).listenersOf tag' =
      if tag = tag' then (r.listenersOf tag).erase listener else r.listenersOf tag' := by
  rw [unregisterListener]
  split
  · rename_i hnone
    have hnil : r.listenersOf tag = [] := by
      rw [listenersOf, TreeMap.getD_eq_getD_getElem?, hnone, Option.getD_none]
    split
    · rename_i htag
      rw [← htag, hnil, List.erase_nil]
    · rfl
  · rename_i bucket hsome
    rw [listenersOf_of_some hsome]
    split
    · dsimp only
      split
      · rename_i hempty
        rw [listenersOf_erase, List.isEmpty_iff.1 hempty]
      · rw [listenersOf_insert]
    · rename_i hnot
      rw [List.erase_of_not_mem hnot]
      split
      · rename_i htag
        rw [← htag, listenersOf_of_some hsome]
      · rfl

theorem registerListener_nodup {tag tag' : UInt16} {listener : Listener}
    (h : ∀ t, (r.listenersOf t).Nodup) : ((r.registerListener tag listener).listenersOf
    tag').Nodup := by
  rw [registerListener_listenersOf]
  split
  · rename_i hnew
    refine List.nodup_append.2 ⟨h tag, List.nodup_singleton _, ?_⟩
    intro a ha b hb heq
    rw [List.mem_singleton.1 hb] at heq
    exact hnew.2 (heq ▸ ha)
  · exact h tag'

theorem unregisterListener_nodup {tag tag' : UInt16} {listener : Listener}
    (h : ∀ t, (r.listenersOf t).Nodup) :
    ((r.unregisterListener tag listener).listenersOf tag').Nodup := by
  rw [unregisterListener_listenersOf]
  split
  · exact (h tag).erase listener
  · exact h tag'

end Router

namespace Machine

variable {crypto : Crypto} {config : Config} {m m' : Machine}

/-! ## What a step does to them -/

theorem sendTo_listeners {w : World} (r : Router) (msg : NetEnvelope) :
    (r.sendTo crypto w msg).2.1.listeners = r.listeners := by
  rw [Router.sendTo]
  split
  · rfl
  · dsimp only
    split <;> rfl

theorem sendEnvelope_listeners {w : World} (m : Machine) (msg : NetEnvelope) :
    (sendEnvelope crypto w m msg).router.listeners = m.router.listeners := by
  change (m.router.send crypto w msg).2.1.listeners = m.router.listeners
  rw [Router.send]
  split
  · rfl
  · split
    · rfl
    · exact sendTo_listeners _ _

theorem runCall_listeners {w : World} {call : Call} {calls : List Call}
    (h : runCall crypto config w m calls call = some m') :
    m'.router.listeners = m.router.listeners := by
  cases call with
  | dropPeer id reason =>
    rw [runCall] at h
    split at h <;> cases h <;> rfl
  | announceTo id =>
    cases h
    exact sendEnvelope_listeners _ _
  | deliver msg origin listeners =>
    cases listeners <;> cases h <;> rfl
  | dispatchAll messages =>
    cases messages <;> cases h <;> rfl
  | listening listener => cases h
  | _ =>
    cases h
    rfl

theorem handleAdvertise_listeners {w : World} (r : Router) (msg : NetEnvelope) (source : Endpoint) :
    (r.handleAdvertise config w msg source).listeners = r.listeners := by
  rw [Router.handleAdvertise]
  repeat' split
  all_goals rfl

theorem runPhase_listeners {w : World} {phase : Phase} {phases : List Phase} :
    (runPhase crypto config w m phases phase).router.listeners = m.router.listeners := by
  cases phase with
  | advertise =>
    rw [runPhase, runAdvertise]
    split
    · rfl
    · exact sendEnvelope_listeners _ _
  | drainDatagrams =>
    rw [runPhase, runDatagrams]
    repeat' split
    all_goals first | rfl | exact handleAdvertise_listeners _ _ _
  | drainHandshaking n =>
    rw [runPhase, runHandshaking]
    repeat' split
    all_goals first | rfl | (dsimp only; split <;> rfl)
  | _ => rfl

/-- The listeners change only when one is registered or unregistered. -/
theorem step_listeners {i : Input} (h : step crypto config m i = some m') :
    m'.router.listeners = m.router.listeners ∨
      (∃ w tag listener, i = .act w (.registerListener tag listener) ∧
        m'.router = m.router.registerListener tag listener) ∨
      ∃ w tag listener, i = .act w (.unregisterListener tag listener) ∧
        m'.router = m.router.unregisterListener tag listener := by
  cases i with
  | start ports =>
    rw [step] at h
    split at h
    · cases h
      refine .inl ?_
      unfold Router.start
      repeat' split
      all_goals rfl
    · cases h
  | stop =>
    rw [step] at h
    split at h
    · cases h
      exact .inl rfl
    · cases h
  | tick =>
    rw [step] at h
    split at h
    · cases h
      split <;> exact .inl rfl
    · cases h
  | run w =>
    rw [step] at h
    split at h
    · exact .inl (runCall_listeners h)
    · cases h
      exact .inl runPhase_listeners
    · cases h
  | act w action =>
    rw [step] at h
    split at h
    · cases h
      cases action with
      | send msg => exact .inl (sendEnvelope_listeners _ _)
      | sendToSelf msg =>
        refine .inl ?_
        rw [runAction, Router.sendToSelf]
        dsimp only
        split <;> rfl
      | sendDatagram id payload =>
        refine .inl ?_
        rw [runAction, Router.sendDatagram]
        repeat' split
        all_goals rfl
      | registerListener tag listener => exact .inr (.inl ⟨w, tag, listener, rfl, rfl⟩)
      | unregisterListener tag listener => exact .inr (.inr ⟨w, tag, listener, rfl, rfl⟩)
    · cases h
  | ret =>
    rw [step] at h
    split at h
    · cases h
      exact .inl rfl
    · cases h

/-- A listener nobody unregisters stays. -/
theorem step_registered {i : Input} {tag : UInt16} {listener : Listener}
    (h : step crypto config m i = some m')
    (hkeep : ∀ w, i ≠ .act w (.unregisterListener tag listener))
    (hin : listener ∈ m.router.listenersOf tag) : listener ∈ m'.router.listenersOf tag := by
  rcases step_listeners h with heq | ⟨w, tag', listener', rfl, heq⟩ | ⟨w, tag', listener', rfl, heq⟩
  · rw [Router.listenersOf, heq]
    exact hin
  · rw [heq, Router.registerListener_listenersOf]
    split
    · rename_i hnew
      rw [hnew.1]
      exact List.mem_append_left _ hin
    · exact hin
  · rw [heq, Router.unregisterListener_listenersOf]
    split
    · rename_i htag
      subst htag
      refine (List.mem_erase_of_ne ?_).2 hin
      rintro rfl
      exact hkeep w rfl
    · exact hin

/-! ## The invariant -/

/-- No table names a listener twice, and neither does the rest of a snapshot. -/
structure ListenersInv (m : Machine) : Prop where
  tables : ∀ tag, (m.router.listenersOf tag).Nodup
  snapshots : ∀ msg origin listeners, Call.deliver msg origin listeners ∈ m.calls → listeners.Nodup

/-- A dispatch under way was under way before, with the same listeners or one more to call, or it
has just looked its listeners up. -/
theorem deliver_mem_step {i : Input} {msg : NetEnvelope} {origin : Origin}
    {listeners : List Listener} (h : step crypto config m i = some m')
    (hmem : Call.deliver msg origin listeners ∈ m'.calls) :
    (∃ skipped, Call.deliver msg origin (skipped ++ listeners) ∈ m.calls) ∨
      listeners = m.router.listenersOf msg.typeTag := by
  have hrest : ∀ {call : Call} {rest : List Call}, m.calls = call :: rest →
      Call.deliver msg origin listeners ∈ rest →
      ∃ skipped, Call.deliver msg origin (skipped ++ listeners) ∈ m.calls := by
    intro call rest hcalls hin
    rw [hcalls]
    exact ⟨[], List.mem_cons_of_mem _ hin⟩
  cases step_effect h with
  | @quiet _ _ rest drops hq hcalls hr =>
    rw [hcalls] at hmem
    rcases List.mem_append.1 hmem with hdrop | hin
    · obtain ⟨_, -, heq⟩ := List.mem_map.1 hdrop
      cases heq
    · rcases hr with ⟨heq, -⟩ | ⟨id, heq⟩
      · exact .inl ⟨[], by rw [heq]; exact hin⟩
      · exact .inl (hrest heq hin)
  | cleared _ hcalls hcalls' _ _ =>
    rw [hcalls'] at hmem
    cases hmem
  | returned rest hcalls _ => exact .inl (hrest hcalls hmem)
  | dropped rest hcalls _ =>
    rcases List.mem_cons.1 hmem with heq | hin
    · cases heq
    · exact .inl (hrest hcalls hin)
  | raisedConnected rest hcalls =>
    rcases List.mem_cons.1 hmem with heq | hin
    · cases heq
      exact .inr rfl
    · exact .inl (hrest hcalls hin)
  | raisedDisconnected rest hcalls =>
    rcases List.mem_cons.1 hmem with heq | hin
    · cases heq
      exact .inr rfl
    · exact .inl (hrest hcalls hin)
  | @delivered w msg' origin' listener listeners' rest hcalls =>
    rcases List.mem_cons.1 hmem with heq | hmem
    · cases heq
    · rcases List.mem_cons.1 hmem with heq | hin
      · cases heq
        exact .inl ⟨[listener], by rw [hcalls]; exact List.mem_cons_self⟩
      · exact .inl (hrest hcalls hin)
  | selfRead rest hcalls =>
    rcases List.mem_cons.1 hmem with heq | hin
    · cases heq
    · exact .inl (hrest hcalls hin)
  | dispatchedNext rest hcalls =>
    rcases List.mem_cons.1 hmem with heq | hmem
    · cases heq
      exact .inr rfl
    · rcases List.mem_cons.1 hmem with heq | hin
      · cases heq
      · exact .inl (hrest hcalls hin)
  | datagram hcalls _ _ hcalls' _ =>
    rw [hcalls', List.mem_singleton] at hmem
    cases hmem
    exact .inr rfl
  | adopted hcalls _ _ _ _ hcalls' _ =>
    rw [hcalls'] at hmem
    rcases List.mem_cons.1 hmem with heq | hmem
    · cases heq
    · cases List.mem_singleton.1 hmem
  | drained hcalls _ =>
    simp only [runDrainPeers, hcalls, List.mem_append, List.mem_cons, List.not_mem_nil, or_false,
      reduceCtorEq] at hmem
    obtain ⟨_, -, hdrop⟩ := List.mem_filterMap.1 hmem
    obtain ⟨_, -, heq⟩ := Option.map_eq_some_iff.1 hdrop
    cases heq

theorem ListenersInv.step {i : Input} (h : ListenersInv m)
    (hstep : Machine.step crypto config m i = some m') : ListenersInv m' where
  tables tag := by
    rcases step_listeners hstep with heq | ⟨_, tag', listener, -, heq⟩ | ⟨_, tag', listener, -, heq⟩
    · rw [Router.listenersOf, heq]
      exact h.tables tag
    · rw [heq]
      exact Router.registerListener_nodup h.tables
    · rw [heq]
      exact Router.unregisterListener_nodup h.tables
  snapshots msg origin listeners hmem := by
    rcases deliver_mem_step hstep hmem with ⟨skipped, hold⟩ | heq
    · exact (List.nodup_append.1 (h.snapshots msg origin _ hold)).2.1
    · rw [heq]
      exact h.tables _

theorem reachable_listenersInv {guard : Machine → Input → Prop}
    (h : Reaches (Machine.step crypto config) guard {} m) : ListenersInv m := by
  refine h.invariant ⟨fun tag ↦ ?_, fun _ _ _ hmem ↦ absurd hmem List.not_mem_nil⟩
    fun _ _ _ hinv _ hstep ↦ hinv.step hstep
  rw [Router.listenersOf, TreeMap.getD_emptyc]
  exact List.nodup_nil

end Machine
end EosMesh
