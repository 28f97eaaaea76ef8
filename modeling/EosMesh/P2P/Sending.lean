import EosMesh.P2P.Reentry

/-!
# What a failed send leaves behind

`send_packet` opens a connection and asks the peer to agree before it looks whether it may hold the
packet.  So a packet that is refused for want of room may have opened a connection and sent a
request on its way.

* `Reentry.sendResult` is what the call returns, send by send, and nothing where it uses an entry
  that is gone.
* `outgoingQueuedBytes_insert_empty`: the new entry holds nothing, so the limit is compared with
  what was held before the call, less what the request's losses took.
* `failed_send_iff`: a call that fails leaves everything as it was, but for that one refusal.
-/

set_option autoImplicit false

namespace EosMesh

open Lib
open Std (TreeMap)

/-! ## What is held -/

namespace P2p

variable {p q : P2p} {key : ConnectionKey} {entry : Connection}

/-- What is held depends on the entries alone. -/
theorem outgoingQueuedBytes_congr
    (h : ∀ key : ConnectionKey, p.connections[key]? = q.connections[key]?) :
    p.outgoingQueuedBytes = q.outgoingQueuedBytes := by
  have hequiv : p.connections.Equiv q.connections := TreeMap.Equiv.of_forall_constGet?_eq h
  rw [outgoingQueuedBytes, outgoingQueuedBytes, hequiv.toList_eq]

/-- A new entry that holds nothing adds nothing. -/
theorem outgoingQueuedBytes_insert_empty (hnew : p.connections[key]? = none)
    (hempty : entry.delayed = []) :
    { p with connections := p.connections.insert key entry }.outgoingQueuedBytes =
      p.outgoingQueuedBytes := by
  have hkept : p.connections.toList.filter (fun other ↦ ¬ key == other.1) =
    p.connections.toList := by
    refine List.filter_eq_self.2 fun other hother ↦ ?_
    have hlookup := (mem_toList_iff_lookup p.connections other.1 other.2).1 hother
    have hne : key ≠ other.1 := by
      rintro rfl
      rw [hnew] at hlookup
      cases hlookup
    simpa using hne
  have hperm := (TreeMap.toList_insert_perm (t := p.connections) (k := key) (v := entry)).map
    fun other ↦ (other.2.delayed.map fun packet ↦ packet.data.1.length).sum
  rw [outgoingQueuedBytes, hperm.sum_eq, hkept, List.map_cons, List.sum_cons, hempty]
  exact Nat.zero_add _

end P2p

namespace Reentry

open P2p

/-! ## The result -/

/-- What `send_packet` returns. -/
def sendResult (r : Reentry) (options : SendPacketOptions) : Option EResult :=
  match r.p2p.sendTarget options with
  | .error result => some result
  | .ok (key, packet) =>
    let allowDelayed : Bool := options.bAllowDelayedDelivery = eosTrue
    match r.p2p.connections[key]? with
    | some entry => some (r.p2p.sendOrHold key entry packet allowDelayed).1
    | none =>
      if disablesAutoAccept options then some .noConnection
      else
        let r := (r.setEntry key { state := .connectionPending }).send (control .request key)
        match r.p2p.connections[key]? with
        | none => none
        | some entry => some (r.p2p.sendOrHold key entry packet allowDelayed).1

/-- The state without the peers that the next send loses. -/
def bereft (r : Reentry) : P2p := (r.losses.headD []).foldl onPeerDisconnected r.p2p

/-- The packet opens a connection and is refused for want of room: it may be held, and what is held
for the peers that the request does not lose leaves no room for it. -/
def RefusedAfterAsking (r : Reentry) (options : SendPacketOptions) : Prop :=
  ∃ key packet, r.p2p.sendTarget options = .ok (key, packet) ∧ r.p2p.connections[key]? = none ∧
    disablesAutoAccept options = false ∧ options.bAllowDelayedDelivery = eosTrue ∧
    key.peer ∉ r.losses.headD [] ∧
    exceeds r.p2p.outgoingQueueMaxBytes r.bereft.outgoingQueuedBytes packet.data.1.length = true

variable {r : Reentry} {options : SendPacketOptions} {key : ConnectionKey} {packet : DelayedPacket}

theorem sendOrHold_fails {p : P2p} {entry : Connection} {allowDelayed : Bool}
    (h : (p.sendOrHold key entry packet allowDelayed).1 ≠ .success) :
    p.sendOrHold key entry packet allowDelayed = (.limitExceeded, p, []) := by
  rw [P2p.sendOrHold] at h ⊢
  split_ifs at h ⊢ <;> first | rfl | exact absurd rfl h

/-- A new entry: the packet is refused exactly when it may be held and there is no room. -/
theorem sendOrHold_pending {p : P2p} {allowDelayed : Bool} :
    (p.sendOrHold key { state := .connectionPending } packet allowDelayed).1 ≠ .success ↔
      allowDelayed = true ∧
        exceeds p.outgoingQueueMaxBytes p.outgoingQueuedBytes packet.data.1.length = true := by
  have hclosed : ¬ ConnectionState.connectionPending = .connectionOpen := by simp
  rw [P2p.sendOrHold, dif_neg hclosed]
  cases allowDelayed with
  | false => simp
  | true =>
    rw [if_neg (by simp)]
    split
    · rename_i hfull
      exact ⟨fun _ ↦ ⟨rfl, hfull⟩, by simp⟩
    · rename_i hroom
      exact ⟨fun h ↦ absurd rfl h, fun h ↦ absurd h.2 hroom⟩

/-- The state after the request, for a connection that had no entry. -/
def asked (r : Reentry) (key : ConnectionKey) : Reentry :=
  (r.setEntry key { state := .connectionPending }).send (control .request key)

theorem asked_lookup (r : Reentry) (key other : ConnectionKey) :
    (r.asked key).p2p.connections[other]? =
      if other.peer ∈ r.losses.headD [] then none
      else if key = other then some { state := .connectionPending }
      else r.p2p.connections[other]? := by
  rw [asked, send_lookup, setEntry_lookup]
  rfl

theorem bereft_lookup (r : Reentry) (key : ConnectionKey) :
    r.bereft.connections[key]? =
      if key.peer ∈ r.losses.headD [] then none else r.p2p.connections[key]? := by
  have hall (lost : List Bytes) (p : P2p) : (lost.foldl onPeerDisconnected p).connections[key]? =
      if key.peer ∈ lost then none else p.connections[key]? := by
    induction lost generalizing p with
    | nil => simp
    | cons peer lost ih =>
      rw [List.foldl_cons, ih, lookup_onPeerDisconnected]
      by_cases hpeer : key.peer = peer <;> simp [hpeer]
  exact hall _ _

theorem asked_sent (r : Reentry) (key : ConnectionKey) :
    (r.asked key).sent = r.sent ++ [control .request key] := by
  have hall (lost : List Bytes) (r : Reentry) :
      (lost.foldl (fun r peer ↦ r.become (r.p2p.onPeerDisconnected peer)) r).sent = r.sent := by
    induction lost generalizing r with
    | nil => rfl
    | cons peer lost ih => exact ih _
  exact hall _ _

theorem asked_limit (r : Reentry) (key : ConnectionKey) :
    (r.asked key).p2p.outgoingQueueMaxBytes = r.p2p.outgoingQueueMaxBytes := by
  have hqueue (keys : List ConnectionKey) (p : P2p) :
      (keys.foldl (fun p key ↦ p.queueEvent .interrupted key .unknown) p).outgoingQueueMaxBytes =
        p.outgoingQueueMaxBytes := by
    induction keys generalizing p with
    | nil => rfl
    | cons key keys ih => exact ih _
  have hall (lost : List Bytes) (r : Reentry) :
      (lost.foldl (fun r peer ↦
        r.become (r.p2p.onPeerDisconnected peer)) r).p2p.outgoingQueueMaxBytes =
          r.p2p.outgoingQueueMaxBytes := by
    induction lost generalizing r with
    | nil => rfl
    | cons peer lost ih => exact (ih _).trans (hqueue _ _)
  exact hall _ _

/-- What is held after the request is what was held, less what its losses took. -/
theorem asked_held {r : Reentry} (hnew : r.p2p.connections[key]? = none)
    (hkept : key.peer ∉ r.losses.headD []) :
    (r.asked key).p2p.outgoingQueuedBytes = r.bereft.outgoingQueuedBytes := by
  have hbereft : r.bereft.connections[key]? = none := by rw [bereft_lookup, if_neg hkept, hnew]
  have hsame : ∀ other : ConnectionKey, (r.asked key).p2p.connections[other]? =
      (r.bereft.connections.insert key { state := .connectionPending })[other]? := by
    intro other
    rw [asked_lookup, lookup_insert, bereft_lookup]
    by_cases hother : key = other
    · rw [if_pos hother, if_pos hother, if_neg (hother ▸ hkept)]
    · rw [if_neg hother, if_neg hother]
  exact (outgoingQueuedBytes_congr hsame).trans (outgoingQueuedBytes_insert_empty hbereft rfl)

/-! ## A call that fails -/

/-- Everything the call may touch, as it was. -/
def Untouched (r r' : Reentry) : Prop :=
  r'.p2p.connections = r.p2p.connections ∧ r'.sent = r.sent

theorem sendPacket_asks (htarget : r.p2p.sendTarget options = .ok (key, packet))
    (hnew : r.p2p.connections[key]? = none) (haccepts : disablesAutoAccept options = false) :
    r.sendPacket options = (r.asked key).holding key fun entry ↦
      (r.asked key).sendOrHold key entry packet (options.bAllowDelayedDelivery = eosTrue) := by
  rw [Reentry.sendPacket, htarget]
  dsimp only
  rw [hnew, haccepts]
  rfl

/-- The entry is gone before the packet is looked at. -/
theorem sendResult_stale (htarget : r.p2p.sendTarget options = .ok (key, packet))
    (hnew : r.p2p.connections[key]? = none) (haccepts : disablesAutoAccept options = false)
    (hlost : key.peer ∈ r.losses.headD []) : r.sendResult options = none := by
  have hlookup : (r.asked key).p2p.connections[key]? = none := by rw [asked_lookup, if_pos hlost]
  rw [asked] at hlookup
  rw [sendResult, htarget]
  dsimp only
  rw [hnew, haccepts]
  simp only [Bool.false_eq_true, if_false]
  rw [hlookup]

theorem sendResult_asks (htarget : r.p2p.sendTarget options = .ok (key, packet))
    (hnew : r.p2p.connections[key]? = none) (haccepts : disablesAutoAccept options = false)
    (hkept : key.peer ∉ r.losses.headD []) :
    r.sendResult options = some ((r.asked key).p2p.sendOrHold key { state := .connectionPending }
      packet (options.bAllowDelayedDelivery = eosTrue)).1 := by
  have hlookup : (r.asked key).p2p.connections[key]? = some { state := .connectionPending } := by
    rw [asked_lookup, if_neg hkept, if_pos rfl]
  rw [asked] at hlookup
  rw [sendResult, htarget]
  dsimp only
  rw [hnew, haccepts]
  simp only [Bool.false_eq_true, if_false]
  rw [hlookup]
  rfl

/-- Whatever comes after the request, the request has been sent. -/
theorem not_untouched_of_asked (htarget : r.p2p.sendTarget options = .ok (key, packet))
    (hnew : r.p2p.connections[key]? = none) (haccepts : disablesAutoAccept options = false)
    (hkept : key.peer ∉ r.losses.headD [])
    (hfails : ((r.asked key).p2p.sendOrHold key { state := .connectionPending } packet
      (options.bAllowDelayedDelivery = eosTrue)).1 ≠ .success) :
    ¬ r.Untouched (r.sendPacket options) := by
  have hlookup : (r.asked key).p2p.connections[key]? = some { state := .connectionPending } := by
    rw [asked_lookup, if_neg hkept, if_pos rfl]
  rintro ⟨-, hsent⟩
  rw [sendPacket_asks htarget hnew haccepts, holding_of_some hlookup, Reentry.sendOrHold,
    sendOrHold_fails hfails] at hsent
  have hasked : (r.asked key).sent = r.sent := hsent
  rw [asked_sent] at hasked
  exact List.cons_ne_nil _ _ (List.append_right_eq_self.1 hasked)

theorem untouched_become (r : Reentry) : r.Untouched (r.become r.p2p) := ⟨rfl, rfl⟩

theorem untouched_of_fails {entry : Connection} {allowDelayed : Bool}
    (hfails : (r.p2p.sendOrHold key entry packet allowDelayed).1 ≠ .success) :
    r.Untouched (r.sendOrHold key entry packet allowDelayed) := by
  rw [Reentry.sendOrHold, sendOrHold_fails hfails]
  exact r.untouched_become

end Reentry

/-- A send that fails has had no effect, unless the packet opens a connection and is then refused
for want of room. -/
theorem failed_send_iff (r : Reentry) (options : SendPacketOptions) :
    (∀ result, r.sendResult options = some result → result ≠ .success →
      r.Untouched (r.sendPacket options)) ↔ ¬ r.RefusedAfterAsking options := by
  constructor
  · rintro huntouched ⟨key, packet, htarget, hnew, haccepts, hallow, hkept, hfull⟩
    have hfails : ((r.asked key).p2p.sendOrHold key { state := .connectionPending } packet
        (options.bAllowDelayedDelivery = eosTrue)).1 ≠ .success := by
      rw [Reentry.sendOrHold_pending, Reentry.asked_limit, Reentry.asked_held hnew hkept]
      exact ⟨decide_eq_true hallow, hfull⟩
    have hresult := Reentry.sendResult_asks htarget hnew haccepts hkept
    exact Reentry.not_untouched_of_asked htarget hnew haccepts hkept hfails
      (huntouched _ hresult hfails)
  · intro hnot result hresult hfails
    cases htarget : r.p2p.sendTarget options with
    | error result =>
      rw [Reentry.sendPacket, htarget]
      exact ⟨rfl, rfl⟩
    | ok target =>
      obtain ⟨key, packet⟩ := target
      cases hlookup : r.p2p.connections[key]? with
      | some entry =>
        rw [Reentry.sendResult, htarget] at hresult
        rw [Reentry.sendPacket, htarget]
        dsimp only at hresult ⊢
        rw [hlookup] at hresult ⊢
        exact Reentry.untouched_of_fails (fun h ↦ hfails ((Option.some_inj.1 hresult).symm.trans h))
      | none =>
        cases haccepts : P2p.disablesAutoAccept options with
        | true =>
          rw [Reentry.sendPacket, htarget]
          dsimp only
          rw [hlookup, haccepts]
          exact ⟨rfl, rfl⟩
        | false =>
          by_cases hkept : key.peer ∈ r.losses.headD []
          · rw [Reentry.sendResult_stale htarget hlookup haccepts hkept] at hresult
            cases hresult
          · rw [Reentry.sendResult_asks htarget hlookup haccepts hkept] at hresult
            have hrefused := Reentry.sendOrHold_pending.1
              fun h ↦ hfails ((Option.some_inj.1 hresult).symm.trans h)
            rw [Reentry.asked_limit, Reentry.asked_held hlookup hkept] at hrefused
            exact absurd ⟨key, packet, htarget, hlookup, haccepts, of_decide_eq_true hrefused.1,
              hkept, hrefused.2⟩ hnot

/-- Two bytes for a peer without a connection, where one byte may be held. -/
def tightSend : Reentry × SendPacketOptions where
  fst := { p2p := { productUserId := [1], productId := [9], outgoingQueueMaxBytes := 1 } }
  snd := {
    apiVersion := 3
    localUserId := some [1]
    remoteUserId := some [2]
    socketId := some { apiVersion := 1, socketName := ['g'.toUInt8] }
    channel := 0
    dataLengthBytes := 2
    data := some [1, 2]
    bAllowDelayedDelivery := eosTrue
    reliability := .reliableOrdered
    bDisableAutoAcceptConnection := 0 }

/-- The call reports that the limit is exceeded, and the peer has been asked. -/
theorem failed_send_asks : ¬ ∀ (r : Reentry) (options : SendPacketOptions) (result : EResult),
    r.sendResult options = some result → result ≠ .success →
      r.Untouched (r.sendPacket options) := by
  intro h
  have hsent := (h tightSend.1 tightSend.2 .limitExceeded (by decide +kernel) nofun).2
  revert hsent
  decide +kernel

end EosMesh
