import EosMesh.Net.Router.Identity
import EosMesh.Net.Router.Outbox

/-!
# Who dials

Two peers hear each other's advertisements, and each could dial the other.  The router dials upward
only, and at most once at a time: the lower id dials and the higher id accepts.  If both dialed,
each would adopt the other's connection and drop its own, or keep both.

* `Router.attempts` are the ids we are on our way to.  An attempt is first an entry of the dials and
  then, once the socket is up, a handshake that expects this id; `expecting_started` is that the two
  never count one twice.
* `Machine.dialed` are those whose connection we dialed and adopted, read off the trace.
* `handleAdvertise_attempts` is the one place where an attempt begins: an advertisement starts at
  most one, for an id above ours that we are not on our way to.
* `Dials` is what a step can do to the attempts, and to what came of them; a step that is none of
  these leaves them alone (`Dials.still`).
* `Upward` is the invariant, and `dials_upward` the result for every run.  For two routers it says
  that at most one of them ever dials the other, whatever advertisements reach them and from whom.

An advertisement is not authenticated, so the id in it is only where we expect to get; whom we have
got to is what the handshake says (`Net.Router.Identity`).
-/

set_option autoImplicit false

namespace EosMesh

open Lib
open Std (TreeMap)

/-! ## The attempts -/

namespace Router

/-- Those of the connections in the handshake that we dialed. -/
def expecting (entries : List HandshakingPeer) : List Bytes :=
  (entries.map (·.expectedId)).filter (· ≠ [])

/-- The dials under way, and the handshakes they have led to. -/
def attempts (r : Router) : List Bytes := r.dialing.toList.map Prod.fst ++ expecting r.handshaking

theorem expecting_append (entries entries' : List HandshakingPeer) :
    expecting (entries ++ entries') = expecting entries ++ expecting entries' := by
  simp [expecting]

theorem expecting_sublist {entries entries' : List HandshakingPeer} (h : entries'.Sublist entries) :
    (expecting entries').Sublist (expecting entries) := (h.map _).filter _

/-- Fewer handshakes are fewer attempts. -/
theorem attempts_subperm {r r' : Router} (hdialing : r'.dialing = r.dialing)
    (hshaking : (expecting r'.handshaking).Sublist (expecting r.handshaking)) :
    r'.attempts.Subperm r.attempts := by
  rw [attempts, attempts, hdialing]
  exact (hshaking.append_left _).subperm

theorem mem_attempts {r : Router} {id : Bytes} (hne : id ≠ []) :
    id ∈ r.attempts ↔ r.isConnectingTo id = true := by
  have hdialing : id ∈ r.dialing.toList.map Prod.fst ↔ r.dialing.contains id = true := by
    simp only [contains_iff_lookup, ← mem_toList_iff_lookup, List.mem_map, Prod.exists,
      exists_and_right, exists_eq_right]
  have hshaking : id ∈ expecting r.handshaking ↔
      (r.handshaking.any fun entry ↦ entry.expectedId == id) = true := by
    simp only [expecting, List.mem_filter, List.mem_map, List.any_eq_true, beq_iff_eq,
      decide_eq_true_eq, and_iff_left hne]
  rw [attempts, List.mem_append, hdialing, hshaking, isConnectingTo, Bool.or_eq_true]

variable {crypto : Crypto} {config : Config} {w : World}

/-! ## What an operation does to them -/

/-- An advertisement starts at most one attempt, for an id that is above ours. -/
theorem handleAdvertise_attempts (r : Router) (msg : NetEnvelope) (source : Endpoint) :
    r.handleAdvertise config w msg source = r ∨
      ∃ id, id ≠ [] ∧ compare config.productUserId id = .lt ∧ id ∉ r.attempts ∧
        (r.handleAdvertise config w msg source).attempts.Perm (id :: r.attempts) := by
  generalize hresult : r.handleAdvertise config w msg source = r'
  rw [handleAdvertise] at hresult
  split at hresult
  · exact .inl hresult.symm
  · rename_i infos rest hread
    split at hresult
    · exact .inl hresult.symm
    · rename_i hself
      obtain ⟨hne, hother⟩ := not_or.1 hself
      split at hresult
      · exact .inl hresult.symm
      · split at hresult
        · exact .inl hresult.symm
        · split at hresult
          · exact .inl hresult.symm
          · rename_i hnotAbove
            split at hresult
            · exact .inl hresult.symm
            · rename_i hnew
              split at hresult
              · exact .inl hresult.symm
              · have hbelow : compare config.productUserId infos.productUserId = .lt := by
                  cases hcompare : compare config.productUserId infos.productUserId with
                  | lt => rfl
                  | eq => exact absurd (Std.LawfulEqCmp.eq_of_compare hcompare).symm hother
                  | gt => exact absurd hcompare hnotAbove
                have hfresh : infos.productUserId ∉ r.attempts := by
                  rw [mem_attempts hne]
                  exact hnew
                refine .inr ⟨infos.productUserId, hne, hbelow, hfresh, ?_⟩
                have hunknown : r.dialing[infos.productUserId]? = none := by
                  refine (not_contains_iff_lookup _ _).1
                    (Bool.eq_false_iff.2 fun hcontains ↦ hnew ?_)
                  rw [isConnectingTo, hcontains, Bool.true_or]
                rw [← hresult]
                exact (fst_toList_insert r.dialing hunknown _).append_right _

theorem acceptPeers_attempts (r : Router) : (r.acceptPeers crypto config w).attempts =
    r.attempts := by
  rw [acceptPeers, attempts, attempts]
  dsimp only
  rw [expecting_append]
  refine congrArg (r.dialing.toList.map Prod.fst ++ ·) (List.append_right_eq_self.2 ?_)
  rw [expecting, List.filter_eq_nil_iff]
  intro id hid
  obtain ⟨entry, hentry, rfl⟩ := List.mem_map.1 hid
  obtain ⟨⟨connection, source, nonblocking⟩, -, hmade⟩ := List.mem_filterMap.1 hentry
  dsimp only at hmade
  split at hmade
  · cases hmade
    simp
  · cases hmade

theorem startHandshake_expectedId {id : Bytes} {dialing : DialingPeer} {entry : HandshakingPeer}
    (h : startHandshake crypto config w id dialing = some entry) : entry.expectedId = id := by
  rw [startHandshake] at h
  dsimp only at h
  split at h
  · cases h
  · split at h
    · cases h
      rfl
    · cases h

/-- A handshake that starts is for the id that was dialed, once the dial is over. -/
theorem expecting_started (dials : List (Bytes × DialingPeer)) :
    (expecting (dials.filterMap fun (id, entry) ↦
      if dialOutcome w entry = .done then startHandshake crypto config w id entry else
        none)).Sublist
      ((dials.filter fun p ↦ ¬ dialOutcome w p.2 = .waiting).map Prod.fst) := by
  induction dials with
  | nil => exact .slnil
  | cons dial dials ih =>
    obtain ⟨id, entry⟩ := dial
    by_cases hdone : dialOutcome w entry = .done
    · cases hstart : startHandshake crypto config w id entry with
      | none => simpa [hdone, hstart] using ih.cons id
      | some started =>
        have hexpected := startHandshake_expectedId hstart
        by_cases hne : id = []
        · subst hne
          simpa [hdone, hstart, expecting, hexpected] using ih.cons []
        · simpa [hdone, hstart, expecting, hexpected, hne] using ih.cons_cons id
    · by_cases hwaiting : dialOutcome w entry = .waiting
      · simpa [hwaiting] using ih
      · simpa [hdone, hwaiting] using ih.cons id

theorem finishDialing_attempts (r : Router) :
    (r.finishDialing crypto config w).attempts.Subperm r.attempts := by
  have hsplit : ((r.dialing.toList.filter fun p ↦ dialOutcome w p.2 = .waiting).map Prod.fst ++
      (r.dialing.toList.filter fun p ↦ ¬ dialOutcome w p.2 = .waiting).map Prod.fst).Perm
        (r.dialing.toList.map Prod.fst) := by
    rw [← List.map_append]
    simpa using (List.filter_append_perm (fun p : Bytes × DialingPeer ↦
      decide (dialOutcome w p.2 = .waiting)) r.dialing.toList).map Prod.fst
  rw [finishDialing, attempts, attempts]
  dsimp only
  rw [expecting_append, TreeMap.toList_filter]
  refine .trans ?_ (hsplit.append_right _).subperm
  rw [List.append_assoc]
  refine (List.subperm_append_left _).2 ?_
  exact .trans ((expecting_started r.dialing.toList).append_left _).subperm
    List.perm_append_comm.subperm

theorem shakeOne_expectedId {entry entry' : HandshakingPeer}
    (h : shakeOne crypto config w entry = .shaking entry' ∨
      ∃ id, shakeOne crypto config w entry = .proved id entry') :
    entry'.expectedId = entry.expectedId := by
  rw [shakeOne] at h
  split at h
  · rcases h with h | ⟨id, h⟩ <;> cases h
  · dsimp only at h
    split at h
    · rcases h with h | ⟨id, h⟩ <;> cases h
    · rename_i hloop
      obtain ⟨hexpected, -⟩ := shakeLoop_proves hloop (.inl rfl)
      split at h
      · rcases h with h | ⟨id, h⟩ <;> cases h
      · split at h
        · rcases h with h | ⟨id, h⟩ <;> cases h
        · split at h <;>
          · rcases h with h | ⟨id, h⟩ <;> cases h
            exact hexpected

theorem send_dialing (r : Router) (msg : NetEnvelope) :
    (r.send crypto w msg).2.1.dialing = r.dialing := by
  rw [send]
  split
  · rfl
  · split
    · rfl
    · rw [sendTo]
      cases r.peers[msg.destId]? with
      | none => rfl
      | some entry =>
        dsimp only
        split <;> rfl

theorem sendDatagram_dialing (r : Router) (peerId payload : Bytes) :
    (r.sendDatagram crypto config w peerId payload).2.dialing = r.dialing := by
  rw [sendDatagram]
  repeat' split
  all_goals rfl

end Router

/-! ## What a step does to them -/

/-- The id a connection was dialed for, where the event is the adoption of one that we dialed. -/
def Event.dialedFor : Event → List Bytes
  | .adopted _ _ expectedId _ => if expectedId = [] then [] else [expectedId]
  | _ => []

namespace Machine

/-- The ids whose connection we dialed and adopted. -/
def dialed (m : Machine) : List Bytes := m.trace.flatMap Event.dialedFor

/-- What a step does to our attempts, and to what came of them. -/
inductive Dials (config : Config) (m m' : Machine) : Prop
  | fewer (hattempts : m'.router.attempts.Subperm m.router.attempts)
      (hdialed : ∀ id ∈ m'.dialed, id ∈ m.router.attempts ∨ id ∈ m.dialed)
  | began (id : Bytes) (hne : id ≠ []) (hbelow : compare config.productUserId id = .lt)
      (hfresh : id ∉ m.router.attempts) (hattempts :
        m'.router.attempts.Perm (id :: m.router.attempts))
      (htrace : m'.trace = m.trace)

variable {crypto : Crypto} {config : Config} {w : World} {m m' : Machine}

/-- A step that leaves the dials and the handshakes alone, and adopts nobody. -/
theorem Dials.still (hdialing : m'.router.dialing = m.router.dialing)
    (hshaking : m'.router.handshaking = m.router.handshaking) (hdialed : m'.dialed = m.dialed) :
    Dials config m m' := by
  refine .fewer ?_ fun id hid ↦ .inr (hdialed ▸ hid)
  exact Router.attempts_subperm hdialing (by rw [hshaking])

theorem dialed_eq {events : List Event} (htrace : m'.trace = events ++ m.trace)
    (hnone : ∀ event ∈ events, event.dialedFor = []) : m'.dialed = m.dialed := by
  rw [dialed, htrace, List.flatMap_append, List.flatMap_eq_nil_iff.2 hnone, List.nil_append, dialed]

theorem sendEnvelope_dials (w : World) (m : Machine) (msg : NetEnvelope) :
    Dials config m (sendEnvelope crypto w m msg) :=
  .still (Router.send_dialing _ _) (Router.send_handshaking _ _) rfl

theorem runCall_dials {call : Call} {calls : List Call}
    (h : runCall crypto config w m calls call = some m') : Dials config m m' := by
  cases call with
  | dropPeer id reason =>
    rw [runCall] at h
    split at h <;>
    · cases h
      exact .still rfl rfl rfl
  | announceTo id =>
    cases h
    exact .still (Router.send_dialing _ _) (Router.send_handshaking _ _) rfl
  | raiseConnected id key =>
    cases h
    exact .still rfl rfl rfl
  | raiseDisconnected id =>
    cases h
    exact .still rfl rfl rfl
  | deliver msg origin listeners =>
    cases listeners <;>
    · cases h
      exact .still rfl rfl rfl
  | listening listener => cases h
  | drainSelf messages =>
    cases h
    exact .still rfl rfl rfl
  | dispatchAll messages =>
    rcases messages with _ | ⟨⟨msg, origin⟩, messages⟩ <;>
    · cases h
      exact .still rfl rfl rfl

theorem runDatagrams_dials {phases : List Phase} :
    Dials config m (runDatagrams crypto config w m phases) := by
  rw [runDatagrams]
  split
  · exact .still rfl rfl rfl
  · split
    · exact .still rfl rfl rfl
    · split
      · split
        · exact .still rfl rfl rfl
        · exact .still rfl rfl rfl
      · split
        · split
          · exact .still rfl rfl rfl
          · split
            · rename_i msg rest hread htag
              rcases Router.handleAdvertise_attempts m.router msg _ with hsame | hbegan
              · rw [hsame]
                exact .still rfl rfl rfl
              · obtain ⟨id, hne, hbelow, hfresh, hattempts⟩ := hbegan
                exact .began id hne hbelow hfresh hattempts rfl
            · exact .still rfl rfl rfl
        · exact .still rfl rfl rfl

theorem runHandshaking_dials {phases : List Phase} {n : Nat} :
    Dials config m (runHandshaking crypto config w m phases n) := by
  rw [runHandshaking]
  split
  · exact .still rfl rfl rfl
  · rename_i entry hget
    have herased := Router.expecting_sublist (m.router.handshaking.eraseIdx_sublist n)
    split
    · exact .fewer (Router.attempts_subperm rfl herased) fun id hid ↦ .inr hid
    · rename_i entry' hshake
      have hexpected := Router.shakeOne_expectedId (.inl hshake)
      refine .fewer (Router.attempts_subperm rfl ?_) fun id hid ↦ .inr hid
      have hset : (m.router.handshaking.set n entry').map (·.expectedId) =
          m.router.handshaking.map (·.expectedId) := by
        obtain ⟨hlt, hentry⟩ := List.getElem?_eq_some_iff.1 hget
        rw [List.map_set, hexpected, ← hentry]
        exact List.ext_getElem (by simp) fun i h h' ↦ by grind
      rw [Router.expecting, hset, Router.expecting]
    · rename_i id entry' hshake
      have hexpected := Router.shakeOne_expectedId (.inr ⟨id, hshake⟩)
      dsimp only
      split
      · refine .fewer (Router.attempts_subperm rfl herased) fun dialedId hid ↦ ?_
        rw [dialed, List.flatMap_cons, List.mem_append] at hid
        refine hid.imp_left fun hadopted ↦ ?_
        rw [Event.dialedFor] at hadopted
        split at hadopted
        · cases hadopted
        · rename_i hne
          rw [List.mem_singleton.1 hadopted, hexpected]
          rw [hexpected] at hne
          refine List.mem_append_right _ (List.mem_filter.2 ⟨?_, by simpa using hne⟩)
          exact List.mem_map_of_mem (List.mem_of_getElem? hget)
      · exact .fewer (Router.attempts_subperm rfl herased) fun id hid ↦ .inr hid

theorem runPhase_dials {phase : Phase} {phases : List Phase} :
    Dials config m (runPhase crypto config w m phases phase) := by
  cases phase with
  | advertise =>
    rw [runPhase, runAdvertise]
    split
    · exact .still rfl rfl rfl
    · exact .still (Router.send_dialing _ _) (Router.send_handshaking _ _) rfl
  | acceptPeers =>
    refine .fewer ?_ fun id hid ↦ .inr hid
    rw [show (runPhase crypto config w m phases .acceptPeers).router =
      m.router.acceptPeers crypto config w from rfl, Router.acceptPeers_attempts]
  | finishDialing => exact .fewer (Router.finishDialing_attempts m.router) fun id hid ↦ .inr hid
  | drainDatagrams => exact runDatagrams_dials
  | drainHandshaking n => exact runHandshaking_dials
  | drainPeers =>
    refine .still rfl rfl (dialed_eq rfl fun event hevent ↦ ?_)
    obtain ⟨events, hevents, hmem⟩ := List.mem_flatten.1 hevent
    obtain ⟨⟨id, key, drained⟩, -, rfl⟩ := List.mem_map.1 (List.mem_reverse.1 hevents)
    rcases mem_drainEvents hmem with rfl | ⟨plain, -, rfl⟩ <;> rfl
  | expireHandshaking =>
    refine .fewer (Router.attempts_subperm rfl ?_) fun id hid ↦ .inr hid
    exact Router.expecting_sublist List.filter_sublist
  | expirePeers => exact .still rfl rfl rfl

theorem step_dials {i : Input} (h : step crypto config m i = some m') : Dials config m m' := by
  have hstopped (events : List Event) (hnone : ∀ event ∈ events, event.dialedFor = [])
      (r : Router) (hattempts : r.attempts = []) :
      Dials config m { m with router := r, trace := events ++ m.trace } := by
    have hdialed : ({ m with router := r, trace := events ++ m.trace } :
      Machine).dialed = m.dialed :=
      dialed_eq rfl hnone
    refine .fewer ?_ fun id hid ↦ .inr (hdialed ▸ hid)
    rw [hattempts]
    exact List.nil_subperm
  cases i with
  | start ports =>
    rw [step] at h
    split at h
    · cases h
      unfold Router.start
      split
      · exact .still rfl rfl rfl
      · split
        · exact hstopped [] (by simp) _ rfl
        · split <;> exact hstopped [] (by simp) _ rfl
    · cases h
  | stop =>
    rw [step] at h
    split at h
    · cases h
      refine hstopped _ (fun event hevent ↦ ?_) _ rfl
      obtain ⟨id, -, rfl⟩ := List.mem_map.1 (List.mem_reverse.1 hevent)
      rfl
    · cases h
  | tick =>
    rw [step] at h
    split at h
    · cases h
      split <;> exact .still rfl rfl rfl
    · cases h
  | run w =>
    rw [step] at h
    split at h
    · exact runCall_dials h
    · cases h
      exact runPhase_dials
    · cases h
  | act w action =>
    rw [step] at h
    split at h
    · cases h
      cases action with
      | send msg => exact sendEnvelope_dials w m msg
      | sendToSelf msg =>
        rw [runAction, Router.sendToSelf]
        split <;> exact .still rfl rfl rfl
      | sendDatagram id payload =>
        exact .still (Router.sendDatagram_dialing _ _ _)
          (Router.sendDatagram_keepsOutboxes _ _ _).2 rfl
      | registerListener tag listener =>
        rw [runAction, Router.registerListener]
        split <;> exact .still rfl rfl rfl
      | unregisterListener tag listener =>
        rw [runAction, Router.unregisterListener]
        dsimp only
        repeat' split
        all_goals exact .still rfl rfl rfl
    · cases h
  | ret =>
    rw [step] at h
    split at h
    · cases h
      exact .still rfl rfl rfl
    · cases h

/-! ## Every run -/

/-- We are on our way to no id twice, and have only ever dialed ids above ours. -/
structure Upward (config : Config) (m : Machine) : Prop where
  once : m.router.attempts.Nodup
  above : ∀ id, id ∈ m.router.attempts ∨ id ∈ m.dialed →
    id ≠ [] ∧ compare config.productUserId id = .lt

theorem Upward.step {i : Input} (h : Upward config m) (hstep : step crypto config m i = some m') :
    Upward config m' := by
  cases step_dials hstep with
  | fewer hattempts hdialed =>
    constructor
    · obtain ⟨attempts, hperm, hsublist⟩ := hattempts
      exact hperm.nodup_iff.1 (h.once.sublist hsublist)
    · rintro id (hattempt | hid)
      · exact h.above id (.inl (hattempts.subset hattempt))
      · exact h.above id (hdialed id hid)
  | began id hne hbelow hfresh hattempts htrace =>
    constructor
    · exact hattempts.nodup_iff.2 (List.nodup_cons.2 ⟨hfresh, h.once⟩)
    · rintro id' (hattempt | hid)
      · rcases List.mem_cons.1 (hattempts.subset hattempt) with rfl | hold
        · exact ⟨hne, hbelow⟩
        · exact h.above id' (.inl hold)
      · rw [dialed, htrace] at hid
        exact h.above id' (.inr hid)

theorem upward_of_reaches (h : Reaches (Machine.step crypto config) always {} m) :
    Upward config m :=
  h.invariant ⟨List.nodup_nil, by rintro id (h | h) <;> cases h⟩ fun _ _ _ hup _ hstep ↦
    hup.step hstep

/-- **The lower id dials and the higher id accepts**: a router is on its way to no id twice, it
dials only ids above its own, and so of two routers at most one has ever dialed the other. -/
theorem dials_upward (h : Reaches (Machine.step crypto config) always {} m) :
    Upward config m ∧ ∀ (crypto' : Crypto) (config' : Config) (m' : Machine),
      Reaches (Machine.step crypto' config') always {} m' →
      ¬ ((config'.productUserId ∈ m.router.attempts ∨ config'.productUserId ∈ m.dialed) ∧
        (config.productUserId ∈ m'.router.attempts ∨ config.productUserId ∈ m'.dialed)) := by
  refine ⟨upward_of_reaches h, fun crypto' config' m' h' hboth ↦ ?_⟩
  obtain ⟨-, hlt⟩ := (upward_of_reaches h).above _ hboth.1
  obtain ⟨-, hgt⟩ := (upward_of_reaches h').above _ hboth.2
  have hswap : compare config.productUserId config'.productUserId =
      (compare config'.productUserId config.productUserId).swap := Std.OrientedCmp.eq_swap
  rw [hswap, hgt] at hlt
  cases hlt

/-- An advertisement of an id above ours reaches us, and then one of an id below. -/
def advertisedRun : List Input :=
  let advertised (id : Bytes) : World :=
    { Sample.quiet with
      dial := some 1
      datagram := some (1 :: NetEnvelope.serialize
        { typeTag := MessageType.netAdvertise.tag
          payload := ({ productUserId := id, gameId := ascii "game", tcpPort := 1 } :
            NetAdvertise).serialize }, { ip := 1, port := 1 }) }
  [.start (some (55789, 40000)), .tick, .run Sample.quiet, .run Sample.quiet, .run Sample.quiet,
    .run (advertised [255]), .run (advertised [1])]

theorem dials_upward_advertised : ∃ m : Machine,
    m.router.attempts = [[255]] ∧ Upward Sample.us m := by
  obtain ⟨m, h, hattempts⟩ := exists_reaches (Machine.step checksumCrypto Sample.us) always {}
    (fun m ↦ m.router.attempts = [[255]]) advertisedRun (by decide +kernel) (meets_always _ _)
  exact ⟨m, hattempts, (dials_upward h).1⟩

end Machine
end EosMesh
