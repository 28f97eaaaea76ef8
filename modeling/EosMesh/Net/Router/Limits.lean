import EosMesh.Net.Router.Effects

/-!
# The sizes a frame may have

Three limits meet in `send`: the largest sealed body `seal_frame` makes a frame of, the length
prefix it puts before it, and the most an outbox holds.  They do not nest: the largest frames do not
fit into an empty outbox, and an envelope too large to be a frame is taken for a broken connection.

* `NetEnvelope.TooLarge` and `NetEnvelope.frameSize` are sizes of the envelope alone, and
  `ReachedBy` says to which peers it goes.
* A router is healthy when its peers are: established, with a counter that is not spent, nothing in
  the outbox, and a socket that reports no error and no end.  Whatever is lost then is lost for its
  size.
* `exists_sealFrame` and `queueAndFlush_empty_iff` are the two limits, each for itself: a healthy
  channel seals whatever is not too large, and an empty outbox takes a frame exactly when it is
  within the cap.
* `send_tooLarge_iff`: an envelope too large for a frame costs each peer it goes to, and a broadcast
  of it is reported sent.
* `oversized_harmless` says which envelopes a healthy mesh sends without losing anybody for their
  size.  `oversized_harmless_largest` is the largest of them, and `oversized_drops` one beyond.
-/

set_option autoImplicit false

namespace EosMesh

open Lib Std

/-- Too large for `seal_frame`. -/
def NetEnvelope.TooLarge (msg : NetEnvelope) : Prop :=
  msg.serialize.length + aeadTagLen > maxMessageSize

instance (msg : NetEnvelope) : Decidable msg.TooLarge := inferInstanceAs (Decidable (_ > _))

/-- The size of the envelope as a frame. -/
def NetEnvelope.frameSize (msg : NetEnvelope) : Nat :=
  framePrefixLen + (msg.serialize.length + aeadTagLen)

/-- A peer whose connection stands, whose counter has not run out, and who took all we sent. -/
structure Peer.Healthy (w : World) (entry : Peer) : Prop where
  established : entry.channel.established = true
  keyed : entry.channel.send.hasKey = true
  counter : nonceExhausted entry.channel.send.nonce = false
  socket : ∀ result ∈ w.sends entry.connection, result ≠ .error ∧ result ≠ .sent 0
  drained : entry.outbox = []

namespace Router

variable {crypto : Crypto} {w : World} {r : Router} {msg : NetEnvelope}

/-- A router that runs, and none of whose peers is about to be lost. -/
structure Healthy (w : World) (r : Router) : Prop where
  running : r.running = true
  peers : ∀ (id : Bytes) (entry : Peer), r.peers[id]? = some entry → entry.Healthy w

/-- A peer the envelope goes to. -/
def ReachedBy (r : Router) (msg : NetEnvelope) (id : Bytes) (entry : Peer) : Prop :=
  r.peers[id]? = some entry ∧ (msg.destId = [] ∨ msg.destId = id)

/-- Nobody is worse off for the size of the envelope: if it is too large it is refused and nobody is
dropped, and if it makes a frame, an empty outbox takes that whole. -/
structure Harmless (crypto : Crypto) (w : World) (r : Router) (msg : NetEnvelope) : Prop where
  refused : msg.TooLarge → (r.send crypto w msg).1 = false ∧ (r.send crypto w msg).2.2 = []
  queued : ∀ (id : Bytes) (entry : Peer) (framed : Bytes) (channel : PeerChannel),
    r.ReachedBy msg id entry → sealFrame crypto entry.channel msg.serialize =
      some (framed, channel) →
      (queueAndFlush w { entry with channel, outbox := [] } framed).1 = true

/-! ## What each step does with a size -/

theorem sealFrame_tooLarge (channel : PeerChannel) (h : msg.TooLarge) :
    sealFrame crypto channel msg.serialize = none := by
  rw [sealFrame]
  exact if_pos h

theorem sealFrame_length {channel channel' : PeerChannel} {plain framed : Bytes}
    (hkeyed : channel.send.hasKey = true)
    (h : sealFrame crypto channel plain = some (framed, channel')) :
    framed.length = framePrefixLen + (plain.length + aeadTagLen) := by
  rw [sealFrame] at h
  split at h
  · cases h
  · split at h
    · cases h
    · rename_i cipher channel'' hseal
      cases h
      rw [PeerChannel.sealBytes] at hseal
      split at hseal
      · cases hseal
      · split at hseal
        · cases hseal
        · rename_i hencrypt
          cases hseal
          rw [CipherState.encrypt, hkeyed] at hencrypt
          simp only [not_true_eq_false, if_false] at hencrypt
          split at hencrypt
          · cases hencrypt
          · cases hencrypt
            rw [List.length_append, List.length_append, crypto.length_cipher, crypto.length_mac,
              framePrefix, length_beBytes]

/-- A healthy peer's channel seals whatever is not too large. -/
theorem exists_sealFrame {entry : Peer} (h : entry.Healthy w) (hsize : ¬ msg.TooLarge) :
    ∃ framed channel, sealFrame crypto entry.channel msg.serialize = some (framed, channel) := by
  have hencrypt : ∃ cipher send, entry.channel.send.encrypt crypto
      (framePrefix (msg.serialize.length + aeadTagLen)) msg.serialize = some (cipher, send) := by
    rw [CipherState.encrypt, h.keyed, h.counter]
    simp only [not_true_eq_false, if_false, Bool.false_eq_true]
    exact ⟨_, _, rfl⟩
  obtain ⟨cipher, send, hsend⟩ := hencrypt
  refine ⟨framePrefix (msg.serialize.length + aeadTagLen) ++ cipher,
    { entry.channel with send }, ?_⟩
  have hsize' : ¬ msg.serialize.length + aeadTagLen > maxMessageSize := hsize
  rw [sealFrame]
  dsimp only
  rw [if_neg hsize', PeerChannel.sealBytes, h.established]
  simp only [not_true_eq_false, if_false, hsend]

/-- A socket that reports no error keeps its connection. -/
theorem flushOutbox_healthy {results : List SendResult}
    (h : ∀ result ∈ results, result ≠ .error ∧ result ≠ .sent 0) (outbox : Bytes) :
    (flushOutbox results outbox).1 = true := by
  induction results generalizing outbox with
  | nil => cases outbox <;> rfl
  | cons result results ih =>
    obtain ⟨hresult, hresults⟩ := List.forall_mem_cons.1 h
    cases outbox with
    | nil => rfl
    | cons byte outbox =>
      cases result with
      | error => exact absurd rfl hresult.1
      | wouldBlock => rfl
      | sent count =>
        have hcount : 0 < count := Nat.pos_of_ne_zero fun hzero ↦ hresult.2 (by rw [hzero])
        rw [flushOutbox, if_pos hcount]
        · exact ih hresults _
        · exact nofun

/-- An empty outbox takes a frame exactly when the frame is within the outbox limit. -/
theorem queueAndFlush_empty_iff {entry : Peer} (h : entry.Healthy w) (channel : PeerChannel)
    (framed : Bytes) : (queueAndFlush w { entry with channel, outbox := [] } framed).1 = true ↔
      framed.length ≤ maxOutboxBytes := by
  rw [queueAndFlush]
  dsimp only
  rw [List.length_nil, Nat.zero_add]
  split
  · rename_i hlarge
    exact ⟨fun hfalse ↦ absurd hfalse Bool.false_ne_true,
      fun hfits ↦ absurd hfits (Nat.not_le.2 hlarge)⟩
  · rename_i hfits
    exact ⟨fun _ ↦ Nat.le_of_not_lt hfits, fun _ ↦ flushOutbox_healthy h.socket _⟩

/-- An envelope too large for a frame costs each peer it goes to, and a broadcast is reported
sent. -/
theorem send_tooLarge_iff (hrunning : r.running = true) (h : msg.TooLarge) :
    ((r.send crypto w msg).1 = false ∧ (r.send crypto w msg).2.2 = []) ↔
      msg.destId ≠ [] ∧ r.peers[msg.destId]? = none := by
  have hframe (entry : Peer) : (sendFrame crypto w entry msg.serialize).1 = false := by
    rw [sendFrame, sealFrame_tooLarge _ h]
  rw [send, hrunning]
  simp only [not_true_eq_false, if_false]
  by_cases hdest : msg.destId = []
  · rw [if_pos hdest]
    exact ⟨fun hfalse ↦ absurd hfalse.1.symm Bool.false_ne_true, fun hne ↦ absurd hdest hne.1⟩
  · rw [if_neg hdest, sendTo]
    cases hpeer : r.peers[msg.destId]? with
    | none => exact ⟨fun _ ↦ ⟨hdest, rfl⟩, fun _ ↦ ⟨rfl, rfl⟩⟩
    | some entry =>
      dsimp only
      rw [hframe]
      exact ⟨fun hdead ↦ absurd hdead.2 (List.cons_ne_nil _ _),
        fun hnone ↦ absurd hnone.2 (by simp)⟩

/-- **A healthy mesh sends an envelope without harm exactly when it is small enough**: as a frame it
fits into an outbox, or there is no peer for it to reach, and a broadcast to nobody is at least no
larger than a frame may be. -/
theorem oversized_harmless (h : r.Healthy w) :
    r.Harmless crypto w msg ↔ msg.frameSize ≤ maxOutboxBytes ∨
      ((∀ id entry, ¬ r.ReachedBy msg id entry) ∧ (msg.destId ≠ [] ∨ ¬ msg.TooLarge)) := by
  have hnest (hfits : msg.frameSize ≤ maxOutboxBytes) : ¬ msg.TooLarge := by
    rw [NetEnvelope.frameSize, framePrefixLen] at hfits
    rw [NetEnvelope.TooLarge, maxMessageSize]
    rw [maxOutboxBytes] at hfits
    omega
  constructor
  · rintro ⟨hrefused, hqueued⟩
    by_cases hfits : msg.frameSize ≤ maxOutboxBytes
    · exact .inl hfits
    · refine .inr ⟨fun id entry hreached ↦ ?_, ?_⟩
      · by_cases hlarge : msg.TooLarge
        · obtain ⟨hdest, hnone⟩ := (send_tooLarge_iff h.running hlarge).1 (hrefused hlarge)
          obtain ⟨hentry, hempty | rfl⟩ := hreached
          · exact hdest hempty
          · rw [hnone] at hentry
            cases hentry
        · have hhealthy := h.peers id entry hreached.1
          obtain ⟨framed, channel, hseal⟩ := @exists_sealFrame crypto _ _ _ hhealthy hlarge
          have htaken := hqueued id entry framed channel hreached hseal
          rw [queueAndFlush_empty_iff hhealthy, sealFrame_length hhealthy.keyed hseal] at htaken
          exact hfits htaken
      · by_cases hlarge : msg.TooLarge
        · exact .inl ((send_tooLarge_iff h.running hlarge).1 (hrefused hlarge)).1
        · exact .inr hlarge
  · rintro (hfits | ⟨hnobody, hsmall⟩)
    · refine ⟨fun hlarge ↦ absurd hlarge (hnest hfits),
        fun id entry framed channel hreached hseal ↦ ?_⟩
      have hhealthy := h.peers id entry hreached.1
      rw [queueAndFlush_empty_iff hhealthy, sealFrame_length hhealthy.keyed hseal]
      exact hfits
    · refine ⟨fun hlarge ↦ ?_, fun id entry framed channel hreached ↦
        absurd hreached (hnobody id entry)⟩
      refine (send_tooLarge_iff h.running hlarge).2 ?_
      have hdest := hsmall.resolve_right (not_not_intro hlarge)
      refine ⟨hdest, ?_⟩
      cases hpeer : r.peers[msg.destId]? with
      | none => rfl
      | some entry => exact absurd ⟨hpeer, .inr rfl⟩ (hnobody msg.destId entry)

/-! ### A router with one healthy peer -/

/-- A peer to send to. -/
def peerSample : Peer where
  connection := 0
  buffer := []
  outbox := []
  channel := {
    handshake := none, send := CipherState.initKey (zeros 32),
      recv := CipherState.initKey (zeros 32)
    initiator := true, established := true }
  epicId := []
  datagramAddr := ⟨0, 0⟩
  lastSeen := 0

/-- A router with that peer. -/
def routerSample : Router where
  peers := ({} : TreeMap Bytes Peer).insert [5] peerSample
  running := true

theorem routerSample_lookup (id : Bytes) :
    routerSample.peers[id]? = if [5] = id then some peerSample else none := by
  rw [routerSample]
  dsimp only
  rw [lookup_insert, TreeMap.getElem?_emptyc]

theorem routerSample_healthy : routerSample.Healthy {} := by
  refine ⟨rfl, fun id entry hentry ↦ ?_⟩
  rw [routerSample_lookup] at hentry
  split at hentry
  · cases hentry
    exact ⟨rfl, rfl, by decide, fun _ hresult ↦ absurd hresult List.not_mem_nil, rfl⟩
  · cases hentry

/-- An envelope to that peer with `n` bytes in it. -/
def padded (n : Nat) : NetEnvelope := { destId := [5], payload := List.replicate n 0 }

theorem padded_tooLarge : (padded maxMessageSize).TooLarge := by
  have hlength : maxMessageSize ≤ (padded maxMessageSize).serialize.length := by
    simp only [NetEnvelope.serialize, padded, putBytes, List.length_append, List.length_replicate]
    omega
  rw [NetEnvelope.TooLarge, aeadTagLen]
  omega

/-- An envelope to everybody with `n` bytes in it. -/
def toAll (n : Nat) : NetEnvelope := { payload := List.replicate n 0 }

theorem frameSize_toAll (n : Nat) : (toAll n).frameSize =
    framePrefixLen + (7 + ((putVar (UInt64.ofNat n)).length + n) + aeadTagLen) := by
  have hhead : (putU8 wireProtocolVersion ++ putU16 0 ++ putBytes [] ++ putBytes [] ++
    putBytes [] ++
      putSvar 0).length = 7 := by decide
  have hpayload : (putBytes (List.replicate n 0)).length =
    (putVar (UInt64.ofNat n)).length + n := by
    simp [putBytes]
  rw [← hhead, ← hpayload, ← List.length_append]
  rfl

/-- The largest broadcast of all, as long as an outbox may be once it is a frame, does no harm. -/
theorem oversized_harmless_largest : (toAll 4194273).frameSize = maxOutboxBytes ∧
    routerSample.Harmless checksumCrypto {} (toAll 4194273) := by
  have hlength : (putVar (UInt64.ofNat 4194273)).length = 4 := by decide
  have hsize : (toAll 4194273).frameSize = maxOutboxBytes := by
    rw [frameSize_toAll, hlength, framePrefixLen, aeadTagLen, maxOutboxBytes]
  exact ⟨hsize, (oversized_harmless routerSample_healthy).2 (.inl hsize.le)⟩

theorem destId_padded (n : Nat) : (padded n).destId = [5] := rfl

/-- Whatever is too large for a frame costs us the peer it is for. -/
theorem send_routerSample {msg : NetEnvelope} (hdest : msg.destId = [5]) (h : msg.TooLarge) :
    (routerSample.send checksumCrypto {} msg).2.2 ≠ [] := by
  intro hnobody
  have hrunning : routerSample.running = true := rfl
  have hsome : msg.destId ≠ [] := by
    rw [hdest]
    exact List.cons_ne_nil _ _
  have hpeer : routerSample.peers[msg.destId]? = some peerSample := by
    rw [routerSample_lookup, hdest]
    exact if_pos rfl
  have hfalse : (routerSample.send checksumCrypto {} msg).1 = false := by
    simp only [send, hrunning, hsome, not_true_eq_false, if_false, sendTo, hpeer, sendFrame,
      sealFrame_tooLarge _ h, Bool.false_eq_true]
  have hnone := ((send_tooLarge_iff hrunning h).1 ⟨hfalse, hnobody⟩).2
  rw [hpeer] at hnone
  cases hnone

/-- Four megabytes do: the peer is to be dropped for them. -/
theorem oversized_drops : routerSample.Healthy {} ∧ (padded maxMessageSize).TooLarge ∧
    (routerSample.send checksumCrypto {} (padded maxMessageSize)).2.2 ≠ [] :=
  ⟨routerSample_healthy, padded_tooLarge, send_routerSample (destId_padded _) padded_tooLarge⟩

end Router
end EosMesh
