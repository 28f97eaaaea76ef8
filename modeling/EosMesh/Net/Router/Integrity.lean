import EosMesh.Net.Router.Identity

/-!
# What opens is what was sealed

The stream of a peer is a sequence of sealed frames, and neither side writes down which is which:
both count.  Over an ideal cipher that is enough.  Whatever an attacker does to the bytes, in
whatever pieces they arrive, the plaintexts a connection opens are a prefix of those its sender
sealed; and the first frame that does not open is the last that is looked at.

* `sealLog` is what the sender asked of the cipher, and `IdealAead` what an ideal cipher answers:
  under its key nothing opens but what was sealed, with the nonce and the associated data it was
  sealed with.
* `opened_in_order` is the argument about counters: the frame that opens at counter `n` is the one
  that was sealed there.  A frame that is repeated, moved or cut anew meets another counter or
  another length, and does not open.
* `connection` reads a connection's plaintexts off the trace, and `refused` whether a frame of it
  has failed; `StreamInv` ties both to the receiving ciphers in the peer table.  It says that the
  counter of a cipher is the number of frames the trace says it opened, and that a peer one of whose
  frames was refused is gone or about to be dropped.
* `drainBatch` is what a drain adds to the trace, over all the peers at once.  `drainEvents_failed`
  is where the claim about failures comes from: a refused frame is the newest of its peer's.
* `StreamInv.told`, `dropped`, `datagram`, `adopted` and `drained` are the kinds of step, and
  `stream_integrity` is the result for every run.

The plaintexts are compared with what the sender sealed, not with what it sent: that a frame which
was sealed is sent, and sent once, is `Net.Router.Lossless`.
-/

set_option autoImplicit false

namespace EosMesh

open Lib
open Std (TreeMap)

/-! ## The sender, and an ideal cipher -/

/-- What one sealing asks of the cipher. -/
structure SealCall where
  nonce : Bytes
  ad : Bytes
  plain : Bytes
  deriving DecidableEq, Repr

/-- Sealing `plains` one after the other; the first that cannot be sealed ends the connection. -/
def sealLog (crypto : Crypto) : PeerChannel → List Bytes → List SealCall
  | _, [] => []
  | channel, plain :: plains =>
    match sealFrame crypto channel plain with
    | none => []
    | some (_, channel') =>
      { nonce := buildNonce channel.send.nonce,
        ad := framePrefix (plain.length + aeadTagLen), plain }
        :: sealLog crypto channel' plains

/-- Under `key` nothing opens but what `calls` sealed, under the nonce and associated data it was
sealed with, and that opens to what was sealed. -/
structure IdealAead (crypto : Crypto) (key : Bytes) (calls : List SealCall) : Prop where
  authentic : ∀ nonce mac ad cipher plain,
    crypto.aeadDecrypt key nonce mac ad cipher = some plain → ∃ call ∈ calls,
      call.nonce = nonce ∧ call.ad = ad ∧ crypto.aeadEncrypt key nonce ad call.plain = (cipher, mac)
  correct : ∀ call ∈ calls, ∀ cipher mac,
    crypto.aeadEncrypt key call.nonce call.ad call.plain = (cipher, mac) →
      crypto.aeadDecrypt key call.nonce mac call.ad cipher = some call.plain

variable {crypto : Crypto} {config : Config}

/-- What sealing one frame does: the bytes it makes, and the counter moved by one. -/
theorem sealFrame_counts {channel channel' : PeerChannel} {plain framed key : Bytes} {n : Nat}
    (hcount : CountsTo channel.send key n)
    (h : sealFrame crypto channel plain = some (framed, channel')) :
    CountsTo channel'.send key (n + 1) ∧
      framed = framePrefix (plain.length + aeadTagLen) ++
        ((crypto.aeadEncrypt key (buildNonce channel.send.nonce)
            (framePrefix (plain.length + aeadTagLen)) plain).1 ++
          (crypto.aeadEncrypt key (buildNonce channel.send.nonce)
            (framePrefix (plain.length + aeadTagLen)) plain).2) := by
  rw [sealFrame] at h
  split at h
  · cases h
  · split at h
    · cases h
    · rename_i cipher ch hseal
      cases h
      rw [PeerChannel.sealBytes] at hseal
      split at hseal
      · cases hseal
      · split at hseal
        · cases hseal
        · rename_i cipher' send' henc
          cases hseal
          rw [CipherState.encrypt, if_neg (by rw [hcount.hasKey]; simp)] at henc
          split at henc
          · cases henc
          · rename_i hex
            cases henc
            refine ⟨⟨hcount.key, hcount.hasKey, ?_⟩, ?_⟩
            · rw [toNat_nonce_succ (Bool.not_eq_true _ ▸ hex), hcount.nonce]
            · rw [hcount.key]

/-- The `i`-th frame is sealed at counter `i`. -/
theorem sealLog_nonce {channel : PeerChannel} {key : Bytes} {n i : Nat} {plains : List Bytes}
    {call : SealCall} (hcount : CountsTo channel.send key n)
    (h : (sealLog crypto channel plains)[i]? = some call) :
    ∃ nonce : UInt64, nonce.toNat = n + i ∧ call.nonce = buildNonce nonce := by
  induction plains generalizing channel n i with
  | nil => cases h
  | cons plain plains ih =>
    rw [sealLog] at h
    split at h
    · cases h
    · rename_i framed channel' hseal
      cases i with
      | zero =>
        cases h
        exact ⟨_, hcount.nonce, rfl⟩
      | succ i =>
        obtain ⟨nonce, hnonce, hcall⟩ := ih (sealFrame_counts hcount hseal).1 h
        exact ⟨nonce, by rw [hnonce]; omega, hcall⟩

theorem OpensFrom.opensAt {key plain : Bytes} {n i : Nat} {plains : List Bytes}
    (h : OpensFrom crypto key n plains) (hi : plains[i]? = some plain) :
    OpensAt crypto key (n + i) plain := by
  induction plains generalizing n i with
  | nil => cases hi
  | cons first plains ih =>
    cases i with
    | zero =>
      cases hi
      exact h.1
    | succ i =>
      have := ih h.2 hi
      rwa [Nat.add_assoc, Nat.add_comm 1 i] at this

/-- **The frame that opens at a counter is the one that was sealed there.**  A nonce is the counter,
so the sealing that produced what opened is the one at the same place. -/
theorem opened_in_order {sender : PeerChannel} {key : Bytes} {payloads plains : List Bytes}
    (hsender : CountsTo sender.send key 0)
    (hideal : IdealAead crypto key (sealLog crypto sender payloads))
    (h : OpensFrom crypto key 0 plains) :
    plains <+: (sealLog crypto sender payloads).map SealCall.plain := by
  rw [List.prefix_iff_getElem?]
  intro i hi
  obtain ⟨nonce, hnonce, -, body, hopen⟩ := h.opensAt (List.getElem?_eq_getElem hi)
  obtain ⟨call, hmem, hcallNonce, hcallAd, hsealed⟩ := hideal.authentic _ _ _ _ _ hopen
  have hplain : call.plain = plains[i] := by
    rw [← hcallNonce, ← hcallAd] at hsealed hopen
    have hcorrect := hideal.correct call hmem _ _ hsealed
    rw [hopen] at hcorrect
    exact (Option.some.inj hcorrect).symm
  obtain ⟨j, hj⟩ := List.mem_iff_getElem?.1 hmem
  obtain ⟨nonce', hnonce', hcall⟩ := sealLog_nonce hsender hj
  have hsame : nonce' = nonce := buildNonce_inj (hcall.symm.trans hcallNonce)
  have hij : j = i := by
    rw [hsame, hnonce] at hnonce'
    omega
  rw [hij] at hj
  rw [List.getElem?_map, hj, Option.map_some, hplain]

namespace Machine

/-! ## A connection, read off the trace -/

/-- The connection that peer `id` was last adopted with: the key its frames open under, and the
plaintexts it has opened, oldest first. -/
def connection (id : Bytes) : List Event → Option (Bytes × List Bytes)
  | [] => none
  | .adopted peer _ _ recvKey :: older =>
    if peer = id then some (recvKey, []) else connection id older
  | .opened peer _ plain :: older =>
    if peer = id then (connection id older).map fun c ↦ (c.1, c.2 ++ [plain])
    else connection id older
  | _ :: older => connection id older

/-- Has a frame of that connection been refused? -/
def refused (id : Bytes) : List Event → Bool
  | [] => false
  | .adopted peer .. :: older => if peer = id then false else refused id older
  | .failed peer :: older => if peer = id then true else refused id older
  | _ :: older => refused id older

/-- The peer whose connection an event accepted something from. -/
def acceptedFrom : Event → Option Bytes
  | .opened id .. => some id
  | .openedDatagram id .. => some id
  | _ => none

/-- Nothing was accepted from a connection one of whose frames had been refused. -/
def SilentOnceRefused : List Event → Prop
  | [] => True
  | event :: older =>
    (∀ id, acceptedFrom event = some id → refused id older = false) ∧ SilentOnceRefused older

/-- An event about no connection's reception. -/
def Mute (event : Event) : Prop :=
  acceptedFrom event = none ∧ ∀ id older,
    connection id (event :: older) = connection id older ∧
      refused id (event :: older) = refused id older

/-- The plaintext a frame of peer `id` opened to. -/
def openedPlain (id : Bytes) : Event → Option Bytes
  | .opened peer _ plain => if peer = id then some plain else none
  | _ => none

/-- What the trace says of each connection, against the receiving ciphers and the calls under
way. -/
structure StreamInv (crypto : Crypto) (m : Machine) : Prop where
  /-- A peer's receiving cipher stands where its connection does. -/
  counts : ∀ (id : Bytes) (entry : Peer), m.router.peers[id]? = some entry →
    ∃ key plains, connection id m.trace = some (key, plains) ∧
      CountsTo entry.channel.recv key plains.length
  opens : ∀ id key plains, connection id m.trace = some (key, plains) →
    OpensFrom crypto key 0 plains
  /-- A peer one of whose frames was refused is gone, or about to go. -/
  dropping : ∀ id, refused id m.trace = true → m.router.peers.contains id = false ∨
    ∃ reason, Call.dropPeer id reason ∈ m.calls
  silent : SilentOnceRefused m.trace

variable {m m' : Machine}

/-! ## What events do to a connection -/

theorem mute_append {batch : List Event} (h : ∀ event ∈ batch, Mute event) (id : Bytes)
    (older : List Event) : connection id (batch ++ older) = connection id older ∧
      refused id (batch ++ older) = refused id older := by
  induction batch with
  | nil => exact ⟨rfl, rfl⟩
  | cons event batch ih =>
    obtain ⟨hc, hr⟩ := ih fun e he ↦ h e (List.mem_cons_of_mem _ he)
    obtain ⟨hc', hr'⟩ := (h event List.mem_cons_self).2 id (batch ++ older)
    exact ⟨hc'.trans hc, hr'.trans hr⟩

/-- Accepting from connections none of whose frames was refused keeps the trace silent. -/
theorem SilentOnceRefused.append {batch older : List Event} (h : SilentOnceRefused older)
    (hbatch : ∀ newer event earlier, batch = newer ++ event :: earlier → ∀ id,
      acceptedFrom event = some id → refused id (earlier ++ older) = false) :
    SilentOnceRefused (batch ++ older) := by
  induction batch with
  | nil => exact h
  | cons event batch ih =>
    refine ⟨fun id hid ↦ hbatch [] event batch rfl id hid, ih ?_⟩
    rintro newer event' earlier rfl
    exact hbatch (event :: newer) event' earlier rfl

theorem SilentOnceRefused.mute {batch older : List Event} (h : SilentOnceRefused older)
    (hbatch : ∀ event ∈ batch, Mute event) : SilentOnceRefused (batch ++ older) := by
  refine h.append ?_
  rintro newer event earlier rfl id hid
  rw [(hbatch event (List.mem_append_right _ List.mem_cons_self)).1] at hid
  cases hid

/-- Does a batch hold frames only, opened or refused? -/
def IsFrame : Event → Prop
  | .opened .. => True
  | .failed _ => True
  | _ => False

theorem connection_frames {batch : List Event} (h : ∀ event ∈ batch, IsFrame event) (id : Bytes)
    (older : List Event) : connection id (batch ++ older) = (connection id older).map fun c ↦
      (c.1, c.2 ++ (batch.filterMap (openedPlain id)).reverse) := by
  induction batch with
  | nil => simp
  | cons event batch ih =>
    have ih' := ih fun e he ↦ h e (List.mem_cons_of_mem _ he)
    have hevent := h event List.mem_cons_self
    cases event with
    | opened peer key plain =>
      rw [List.cons_append, connection, ih', List.filterMap_cons, openedPlain]
      by_cases heq : peer = id
      · rw [if_pos heq, if_pos heq, Option.map_map]
        congr 1
        funext c
        simp
      · rw [if_neg heq, if_neg heq]
    | failed peer => exact ih'
    | _ => exact hevent.elim

theorem refused_frames {batch : List Event} (h : ∀ event ∈ batch, IsFrame event) (id : Bytes)
    (older : List Event) : refused id (batch ++ older) = true ↔
      .failed id ∈ batch ∨ refused id older = true := by
  induction batch with
  | nil => simp
  | cons event batch ih =>
    have ih' := ih fun e he ↦ h e (List.mem_cons_of_mem _ he)
    have hevent := h event List.mem_cons_self
    rw [List.cons_append, List.mem_cons, or_assoc, ← ih']
    cases event with
    | opened peer key plain =>
      have hskip : refused id (.opened peer key plain :: (batch ++ older)) =
          refused id (batch ++ older) := rfl
      rw [hskip]
      simp
    | failed peer =>
      rw [refused]
      by_cases heq : peer = id
      · simp [heq]
      · rw [if_neg heq]
        simp [Ne.symm heq]
    | _ => exact hevent.elim

/-- The frames of peer `id`. -/
def framesOf (id : Bytes) : Event → Option Event
  | .opened peer key plain => if peer = id then some (.opened peer key plain) else none
  | .failed peer => if peer = id then some (.failed peer) else none
  | _ => none

/-! ## What a drain adds to the trace -/

theorem drainEvents_opened (id key : Bytes) (drained : Router.Drained) :
    (drainEvents id key drained).filterMap (openedPlain id) = drained.plains.reverse := by
  have hopened : (drained.plains.reverse.map (Event.opened id key ·)).filterMap (openedPlain id) =
      drained.plains.reverse := by
    simp [List.filterMap_map, Function.comp_def, openedPlain]
  rw [drainEvents]
  split
  · exact hopened
  · exact hopened

theorem drainEvents_frames (id key : Bytes) (drained : Router.Drained) :
    (drainEvents id key drained).filterMap (framesOf id) = drainEvents id key drained := by
  have hopened : (drained.plains.reverse.map (Event.opened id key ·)).filterMap (framesOf id) =
      drained.plains.reverse.map (Event.opened id key ·) := by
    rw [List.filterMap_map, ← List.filterMap_eq_map]
    congr 1
    funext plain
    simp [framesOf]
  rw [drainEvents]
  split
  · rw [List.filterMap_cons, framesOf, if_pos rfl, hopened]
  · exact hopened

/-- A refused frame is the last of its drain, and the peer is to be dropped for it. -/
theorem drainEvents_failed {id id' key : Bytes} {drained : Router.Drained}
    (h : .failed id' ∈ drainEvents id key drained) : ∃ reason, drained.dead = some reason := by
  rw [drainEvents] at h
  split at h
  · rename_i hany
    obtain ⟨reason, hdead, -⟩ := (Option.any_eq_true _ _).1 hany
    exact ⟨reason, hdead⟩
  · obtain ⟨_, -, heq⟩ := List.mem_map.1 h
    cases heq

theorem drainEvents_tail {id id' key : Bytes} {drained : Router.Drained} :
    .failed id' ∉ (drainEvents id key drained).tail := by
  have hopened : .failed id' ∉ drained.plains.reverse.map (Event.opened id key ·) := by
    intro h
    obtain ⟨_, -, heq⟩ := List.mem_map.1 h
    cases heq
  rw [drainEvents]
  split
  · exact hopened
  · exact fun h ↦ hopened (List.mem_of_mem_tail h)

/-! ## The step lemma -/

/-- A step that keeps every receiving cipher, calls no drop off, and is about no reception. -/
theorem StreamInv.keep (h : StreamInv crypto m) (events : List Event)
    (hpeers : ∀ (id : Bytes) (entry' : Peer), m'.router.peers[id]? = some entry' →
      ∃ entry, m.router.peers[id]? = some entry ∧ entry'.channel.recv = entry.channel.recv)
    (hcalls : ∀ id reason, Call.dropPeer id reason ∈ m.calls →
      Call.dropPeer id reason ∈ m'.calls ∨ m'.router.peers[id]? = none)
    (htrace : m'.trace = events ++ m.trace) (hevents : ∀ event ∈ events, Mute event) :
    StreamInv crypto m' := by
  have hsame : ∀ id, connection id m'.trace = connection id m.trace ∧
      refused id m'.trace = refused id m.trace := by
    intro id
    rw [htrace]
    exact mute_append hevents id m.trace
  constructor
  · intro id entry' hget'
    obtain ⟨entry, hget, hrecv⟩ := hpeers id entry' hget'
    obtain ⟨key, plains, hconn, hcount⟩ := h.counts id entry hget
    exact ⟨key, plains, (hsame id).1.trans hconn, by rw [hrecv]; exact hcount⟩
  · intro id key plains hconn
    rw [(hsame id).1] at hconn
    exact h.opens id key plains hconn
  · intro id href
    rw [(hsame id).2] at href
    rw [not_contains_iff_lookup]
    rcases h.dropping id href with hgone | ⟨reason, hdrop⟩
    · refine .inl (Option.eq_none_iff_forall_ne_some.2 fun entry' hget' ↦ ?_)
      obtain ⟨entry, hget, -⟩ := hpeers id entry' hget'
      rw [(not_contains_iff_lookup _ _).1 hgone] at hget
      cases hget
    · rcases hcalls id reason hdrop with hkept | hnone
      · exact .inr ⟨reason, hkept⟩
      · exact .inl hnone
  · rw [htrace]
    exact h.silent.mute hevents

/-- The calls under the front one keep every drop, if the front one is not one. -/
theorem dropPeer_rest {call : Call} {rest calls : List Call} (hcalls : m.calls = call :: rest)
    (hcall : ∀ id reason, call ≠ .dropPeer id reason) (hsub : rest ⊆ calls) (id : Bytes)
    (reason : DropReason) (hmem : Call.dropPeer id reason ∈ m.calls) :
    Call.dropPeer id reason ∈ calls := by
  rw [hcalls] at hmem
  rcases List.mem_cons.1 hmem with heq | hmem
  · exact absurd heq.symm (hcall id reason)
  · exact hsub hmem

theorem mute_dispatched (msg : NetEnvelope) (origin : Origin) : Mute (.dispatched msg origin) :=
  ⟨rfl, fun _ _ ↦ ⟨rfl, rfl⟩⟩

theorem mute_delivered (listener : Listener) (msg : NetEnvelope) (origin : Origin) :
    Mute (.delivered listener msg origin) :=
  ⟨rfl, fun _ _ ↦ ⟨rfl, rfl⟩⟩

theorem mute_removed (id : Bytes) (reason : DropReason) : Mute (.removed id reason) :=
  ⟨rfl, fun _ _ ↦ ⟨rfl, rfl⟩⟩

/-- When no call is under way, no peer in the table has had a frame refused. -/
theorem StreamInv.not_refused (h : StreamInv crypto m) (hcalls : m.calls = []) {id : Bytes}
    {entry : Peer} (hget : m.router.peers[id]? = some entry) : refused id m.trace = false := by
  by_contra hc
  rcases h.dropping id (Bool.not_eq_false _ ▸ hc) with hgone | ⟨reason, hdrop⟩
  · rw [(not_contains_iff_lookup _ _).1 hgone] at hget
    cases hget
  · rw [hcalls] at hdrop
    cases hdrop

/-! ### A drain -/

/-- The frames that a drain opens and refuses, over all the peers; the newest first. -/
def drainBatch (crypto : Crypto) (config : Config) (w : World) (m : Machine) : List Event :=
  (m.router.peers.toList.map fun p ↦ drainEvents p.1 p.2.channel.remoteStatic
    (Router.drainPeer crypto config w p.1 p.2)).reverse.flatten

variable {w : World} {phases : List Phase}

theorem runDrainPeers_trace :
    (runDrainPeers crypto config w { m with phases }).trace =
      drainBatch crypto config w m ++ m.trace := by
  simp only [runDrainPeers, drainBatch, List.map_map, Function.comp_def]

theorem mem_drainBatch {event : Event} (h : event ∈ drainBatch crypto config w m) :
    ∃ id entry, m.router.peers[id]? = some entry ∧
      event ∈ drainEvents id entry.channel.remoteStatic
        (Router.drainPeer crypto config w id entry) := by
  obtain ⟨events, hevents, he⟩ := List.mem_flatten.1 h
  obtain ⟨⟨id, entry⟩, hp, rfl⟩ := List.mem_map.1 (List.mem_reverse.1 hevents)
  exact ⟨id, entry, (mem_toList_iff_lookup _ _ _).1 hp, he⟩

theorem drainBatch_frames : ∀ event ∈ drainBatch crypto config w m, IsFrame event := by
  intro event h
  obtain ⟨id, entry, -, he⟩ := mem_drainBatch h
  rcases mem_drainEvents he with rfl | ⟨plain, -, rfl⟩
  · trivial
  · trivial

/-- The drain of one peer says nothing of another. -/
theorem drainEvents_other {id id' key : Bytes} {drained : Router.Drained} (hne : id' ≠ id)
    {event : Event} (he : event ∈ drainEvents id' key drained) :
    openedPlain id event = none ∧ framesOf id event = none := by
  rcases mem_drainEvents he with rfl | ⟨plain, -, rfl⟩
  · exact ⟨rfl, if_neg hne⟩
  · exact ⟨if_neg hne, if_neg hne⟩

theorem drainBatch_opened (id : Bytes) :
    (drainBatch crypto config w m).filterMap (openedPlain id) =
      (m.router.peers[id]?).elim [] fun entry ↦
        (Router.openArrived crypto w entry).plains.reverse := by
  rw [drainBatch, filterMap_flatten_toList m.router.peers _ _ id
    fun p hne event he ↦ (drainEvents_other hne he).1]
  cases hget : m.router.peers[id]? with
  | none => rfl
  | some entry =>
    have hplains : (Router.drainPeer crypto config w id entry).plains =
        (Router.openArrived crypto w entry).plains := (Router.drainPeer_spec id entry).plains
    rw [Option.elim_some, Option.elim_some, drainEvents_opened, hplains]

theorem drainBatch_framesOf {id : Bytes} {entry : Peer} (hget : m.router.peers[id]? = some entry) :
    (drainBatch crypto config w m).filterMap (framesOf id) =
      drainEvents id entry.channel.remoteStatic (Router.drainPeer crypto config w id entry) := by
  rw [drainBatch, filterMap_flatten_toList m.router.peers _ _ id
    fun p hne event he ↦ (drainEvents_other hne he).2, hget, Option.elim_some,
    drainEvents_frames]

theorem connection_drained (id : Bytes) :
    connection id (runDrainPeers crypto config w { m with phases }).trace =
      (connection id m.trace).map fun c ↦ (c.1, c.2 ++ (m.router.peers[id]?).elim [] fun entry ↦
        (Router.openArrived crypto w entry).plains) := by
  rw [runDrainPeers_trace, connection_frames drainBatch_frames, drainBatch_opened]
  congr 1
  funext c
  cases m.router.peers[id]? with
  | none => rfl
  | some entry => rw [Option.elim_some, Option.elim_some, List.reverse_reverse]

/-- What a drain does to the connection of one peer: the counter goes up by as many frames as it
opened. -/
theorem StreamInv.connection_peer (h : StreamInv crypto m) {id : Bytes} {entry : Peer}
    (hget : m.router.peers[id]? = some entry) :
    ∃ key plains,
      connection id (runDrainPeers crypto config w { m with phases }).trace = some (key, plains) ∧
        CountsTo (Router.openArrived crypto w entry).channel.recv key plains.length ∧
        OpensFrom crypto key 0 plains := by
  obtain ⟨key, plains, hold, hcount⟩ := h.counts id entry hget
  obtain ⟨hcount', hopens⟩ := @unsealFrames_counter crypto
    (entry.buffer ++ (w.recv entry.connection).1).length plains.length entry.channel
    (entry.buffer ++ (w.recv entry.connection).1) key hcount
  refine ⟨key, plains ++ (Router.openArrived crypto w entry).plains, ?_, ?_,
    (h.opens id key plains hold).append ?_⟩
  · rw [connection_drained, hold, hget]
    rfl
  · rw [List.length_append]
    exact hcount'
  · rw [Nat.zero_add]
    exact hopens

/-- A peer one of whose frames a drain refused is to be dropped. -/
theorem dropPeer_of_failed {id : Bytes} (h : .failed id ∈ drainBatch crypto config w m) :
    ∃ reason, Call.dropPeer id reason ∈
      (runDrainPeers crypto config w { m with phases }).calls := by
  obtain ⟨peer, entry, hget, he⟩ := mem_drainBatch h
  obtain ⟨reason, hdead⟩ := drainEvents_failed he
  obtain rfl : id = peer := by
    rcases mem_drainEvents he with heq | ⟨plain, -, heq⟩
    · cases heq
      rfl
    · cases heq
  refine ⟨reason, List.mem_append_left _ (List.mem_filterMap.2 ⟨(id,
    entry.channel.remoteStatic, Router.drainPeer crypto config w id entry), ?_, ?_⟩)⟩
  · exact List.mem_map.2 ⟨(id, entry), (mem_toList_iff_lookup _ _ _).2 hget, rfl⟩
  · exact Option.map_eq_some_iff.2 ⟨reason, hdead, rfl⟩

theorem lookup_drained_none {id : Bytes} (h : m.router.peers[id]? = none) :
    (runDrainPeers crypto config w { m with phases }).router.peers[id]? = none := by
  rw [runDrainPeers]
  dsimp only
  rw [TreeMap.getElem?_map, h, Option.map_none]

theorem mem_drainBatch_opened {id : Bytes} {event : Event}
    (h : event ∈ drainBatch crypto config w m) (hid : acceptedFrom event = some id) :
    ∃ entry plain, m.router.peers[id]? = some entry ∧
      event = .opened id entry.channel.remoteStatic plain := by
  obtain ⟨peer, entry, hget, he⟩ := mem_drainBatch h
  rcases mem_drainEvents he with rfl | ⟨plain, -, rfl⟩
  · cases hid
  · cases hid
    exact ⟨entry, plain, hget, rfl⟩

/-- A refused frame is the newest of its peer's, so it is not among those before one that opened. -/
theorem not_failed_before {id : Bytes} {entry : Peer} {plain : Bytes} {newer earlier : List Event}
    (hget : m.router.peers[id]? = some entry)
    (hsplit : drainBatch crypto config w m =
      newer ++ .opened id entry.channel.remoteStatic plain :: earlier) :
    .failed id ∉ earlier := by
  intro hin
  have hframes := @drainBatch_framesOf crypto config m w id entry hget
  rw [hsplit, List.filterMap_append, List.filterMap_cons] at hframes
  dsimp only [framesOf] at hframes
  rw [if_pos rfl] at hframes
  have hin' : .failed id ∈ earlier.filterMap (framesOf id) :=
    List.mem_filterMap.2 ⟨_, hin, if_pos rfl⟩
  refine @drainEvents_tail id id entry.channel.remoteStatic
    (Router.drainPeer crypto config w id entry) ?_
  rw [← hframes]
  cases newer.filterMap (framesOf id) with
  | nil => exact hin'
  | cons first newer => exact List.mem_append_right _ (List.mem_cons_of_mem _ hin')

theorem StreamInv.silent_drained (h : StreamInv crypto m) (hcalls : m.calls = []) :
    SilentOnceRefused (drainBatch crypto config w m ++ m.trace) := by
  refine h.silent.append ?_
  intro newer event earlier hsplit id hid
  have hmem : event ∈ drainBatch crypto config w m := by simp [hsplit]
  obtain ⟨entry, plain, hget, rfl⟩ := mem_drainBatch_opened hmem hid
  have hnot : .failed id ∉ earlier := not_failed_before hget hsplit
  have hearlier : ∀ e ∈ earlier, IsFrame e := fun e he ↦
    @drainBatch_frames crypto config m w e (by simp [hsplit, he])
  rw [← Bool.not_eq_true, refused_frames hearlier, h.not_refused hcalls hget]
  simpa using hnot

/-- A drain opens what each connection's counter allows, and asks for the drop of every peer one of
whose frames it refused. -/
theorem StreamInv.drained (h : StreamInv crypto m) (hcalls : m.calls = []) :
    StreamInv crypto (runDrainPeers crypto config w { m with phases }) := by
  constructor
  · intro id entry' hget'
    rw [runDrainPeers] at hget'
    dsimp only at hget'
    rw [TreeMap.getElem?_map, Option.map_eq_some_iff] at hget'
    obtain ⟨entry, hget, rfl⟩ := hget'
    obtain ⟨key, plains, hnew, hcount, -⟩ := h.connection_peer hget
    refine ⟨key, plains, hnew, ?_⟩
    have hch : (Router.drainPeer crypto config w id entry).entry.channel =
        (Router.openArrived crypto w entry).channel := (Router.drainPeer_spec id entry).channel
    rw [hch]
    exact hcount
  · intro id key plains hnew
    cases hget : m.router.peers[id]? with
    | some entry =>
      obtain ⟨key', plains', hnew', -, hopens⟩ := h.connection_peer hget
      rw [hnew'] at hnew
      cases hnew
      exact hopens
    | none =>
      rw [connection_drained, hget] at hnew
      exact h.opens id key plains (by simpa using hnew)
  · intro id href
    rw [runDrainPeers_trace, refused_frames drainBatch_frames] at href
    rcases href with hfailed | hold
    · exact .inr (dropPeer_of_failed hfailed)
    · rcases h.dropping id hold with hgone | ⟨reason, hdrop⟩
      · rw [not_contains_iff_lookup] at hgone ⊢
        exact .inl (lookup_drained_none hgone)
      · rw [hcalls] at hdrop
        cases hdrop
  · rw [runDrainPeers_trace]
    exact h.silent_drained hcalls

/-! ### Each other kind of step -/

theorem recv_of_samePeers {r r' : Router} (h : r.SamePeers r') (id : Bytes) (entry' : Peer)
    (hget' : r'.peers[id]? = some entry') :
    ∃ entry, r.peers[id]? = some entry ∧ entry'.channel.recv = entry.channel.recv := by
  obtain ⟨entry, hget, hlink⟩ := h.back id entry' hget'
  exact ⟨entry, hget, hlink.recv⟩

/-- The front call is taken up, and what comes of it touches no peer and receives nothing. -/
theorem StreamInv.told {call : Call} {rest : List Call} {events : List Event}
    (h : StreamInv crypto m) (hcalls : m.calls = call :: rest)
    (hcall : ∀ id reason, call ≠ .dropPeer id reason) (hrest : rest ⊆ m'.calls)
    (hpeers : m.router.SamePeers m'.router) (htrace : m'.trace = events ++ m.trace)
    (hevents : ∀ event ∈ events, Mute event) : StreamInv crypto m' := by
  refine h.keep events (recv_of_samePeers hpeers) (fun id reason hmem ↦ .inl ?_) htrace hevents
  exact dropPeer_rest hcalls hcall hrest id reason hmem

/-- A peer goes: it was asked for, and is asked for no more. -/
theorem StreamInv.dropped {peer : Bytes} {reason : DropReason} {rest : List Call}
    (h : StreamInv crypto m) (hcalls : m.calls = .dropPeer peer reason :: rest)
    (hpeers : m'.router.peers = m.router.peers.erase peer)
    (hcalls' : m'.calls = .raiseDisconnected peer :: rest)
    (htrace : m'.trace = [.removed peer reason] ++ m.trace) : StreamInv crypto m' := by
  refine h.keep _ (fun id entry' hget' ↦ ?_) (fun id reason' hmem ↦ ?_) htrace ?_
  · rw [hpeers, lookup_erase] at hget'
    split at hget'
    · cases hget'
    · exact ⟨entry', hget', rfl⟩
  · rw [hcalls] at hmem
    rcases List.mem_cons.1 hmem with heq | hmem
    · cases heq
      refine .inr ?_
      rw [hpeers, lookup_erase, if_pos rfl]
    · rw [hcalls']
      exact .inl (List.mem_cons_of_mem _ hmem)
  · intro event he
    rw [List.mem_singleton.1 he]
    exact mute_removed peer reason

/-- A datagram is accepted outside the stream, from a peer none of whose frames was refused. -/
theorem StreamInv.datagram {peer key plain : Bytes} {entry : Peer} {msg : NetEnvelope}
    {origin : Origin} (h : StreamInv crypto m) (hcalls : m.calls = [])
    (hget : m.router.peers[peer]? = some entry) (hpeers : m.router.SamePeers m'.router)
    (htrace : m'.trace = .dispatched msg origin :: .openedDatagram peer key plain :: m.trace) :
    StreamInv crypto m' := by
  have hsame : ∀ id, connection id m'.trace = connection id m.trace ∧
      refused id m'.trace = refused id m.trace := by
    intro id
    rw [htrace]
    exact ⟨rfl, rfl⟩
  constructor
  · intro id entry' hget'
    obtain ⟨entry, hget, hrecv⟩ := recv_of_samePeers hpeers id entry' hget'
    obtain ⟨key, plains, hconn, hcount⟩ := h.counts id entry hget
    exact ⟨key, plains, (hsame id).1.trans hconn, by rw [hrecv]; exact hcount⟩
  · intro id key plains hconn
    rw [(hsame id).1] at hconn
    exact h.opens id key plains hconn
  · intro id href
    rw [(hsame id).2] at href
    rw [hpeers.contains]
    rcases h.dropping id href with hgone | ⟨reason, hdrop⟩
    · exact .inl hgone
    · rw [hcalls] at hdrop
      cases hdrop
  · rw [htrace]
    refine ⟨fun id hid ↦ (by cases hid), fun id hid ↦ ?_, h.silent⟩
    cases hid
    exact h.not_refused hcalls hget

/-- A peer is adopted: its connection begins, with a cipher that has opened nothing. -/
theorem StreamInv.adopted {peer key : Bytes} {expectedId : Bytes} {entry : Peer}
    (h : StreamInv crypto m) (hcalls : m.calls = [])
    (hfresh : CountsTo entry.channel.recv entry.channel.recv.key 0)
    (hpeers : m'.router.peers = m.router.peers.insert peer entry)
    (htrace : m'.trace = .adopted peer key expectedId entry.channel.recv.key :: m.trace) :
    StreamInv crypto m' := by
  have hself : connection peer m'.trace = some (entry.channel.recv.key, []) ∧
      refused peer m'.trace = false := by
    rw [htrace, connection, refused, if_pos rfl, if_pos rfl]
    exact ⟨rfl, rfl⟩
  have hothers : ∀ id, peer ≠ id → connection id m'.trace = connection id m.trace ∧
      refused id m'.trace = refused id m.trace := by
    intro id hne
    rw [htrace, connection, refused, if_neg hne, if_neg hne]
    exact ⟨rfl, rfl⟩
  constructor
  · intro id entry' hget'
    rw [hpeers, lookup_insert] at hget'
    split at hget'
    · rename_i heq
      subst heq
      cases hget'
      exact ⟨_, [], hself.1, hfresh⟩
    · rename_i hne
      obtain ⟨key, plains, hconn, hcount⟩ := h.counts id entry' hget'
      exact ⟨key, plains, (hothers id hne).1.trans hconn, hcount⟩
  · intro id key plains hconn
    by_cases heq : peer = id
    · subst heq
      rw [hself.1] at hconn
      cases hconn
      trivial
    · rw [(hothers id heq).1] at hconn
      exact h.opens id key plains hconn
  · intro id href
    by_cases heq : peer = id
    · subst heq
      rw [hself.2] at href
      cases href
    · rw [(hothers id heq).2] at href
      rcases h.dropping id href with hgone | ⟨reason, hdrop⟩
      · refine .inl ?_
        rw [not_contains_iff_lookup] at hgone ⊢
        rw [hpeers, lookup_insert, if_neg heq, hgone]
      · rw [hcalls] at hdrop
        cases hdrop
  · rw [htrace]
    exact ⟨fun id hid ↦ (by cases hid), h.silent⟩

theorem StreamInv.step {i : Input} (h : StreamInv crypto m)
    (hstep : Machine.step crypto config m i = some m') : StreamInv crypto m' := by
  have hnone : ∀ event ∈ ([] : List Event), Mute event := fun _ he ↦ absurd he List.not_mem_nil
  have hone : ∀ {event : Event}, Mute event → ∀ event' ∈ [event], Mute event' := by
    intro event hmute event' he
    rw [List.mem_singleton.1 he]
    exact hmute
  cases step_effect hstep with
  | @quiet _ _ rest drops hq hcalls hrest =>
    refine h.keep [] (recv_of_samePeers hq.peers) (fun id reason hmem ↦ .inl ?_) hq.trace hnone
    rw [hcalls]
    refine List.mem_append_right _ ?_
    rcases hrest with ⟨heq, -⟩ | ⟨_, heq⟩
    · rwa [heq] at hmem
    · exact dropPeer_rest heq (fun _ _ heq ↦ by cases heq) (List.Subset.refl _) id reason hmem
  | cleared _ hcalls hcalls' hpeers htrace =>
    obtain ⟨ids, htrace⟩ := htrace
    refine h.keep _ (fun id entry' hget' ↦ ?_) (fun id _ _ ↦ .inr (hpeers id)) htrace ?_
    · rw [hpeers id] at hget'
      cases hget'
    · intro event he
      obtain ⟨id, -, rfl⟩ := List.mem_map.1 he
      exact mute_removed id .localShutdown
  | @returned _ call rest hcalls hcall =>
    rcases hcall with ⟨peer, reason', rfl, habsent⟩ | hother
    · refine h.keep [] (recv_of_samePeers (.of_eq rfl)) (fun id reason hmem ↦ ?_) rfl hnone
      rw [hcalls] at hmem
      rcases List.mem_cons.1 hmem with heq | hmem
      · cases heq
        exact .inr habsent
      · exact .inl hmem
    · refine h.told hcalls ?_ (List.Subset.refl _) (.of_eq rfl) rfl hnone
      rintro id reason rfl
      rcases hother with ⟨_, _, heq⟩ | ⟨_, heq⟩ | heq <;> cases heq
  | @dropped w peer reason entry rest hcalls hget => exact h.dropped hcalls rfl rfl rfl
  | @raisedConnected w peer key rest hcalls =>
    exact h.told hcalls (fun _ _ heq ↦ by cases heq) (List.subset_cons_self _ _) (.of_eq rfl) rfl
      (hone (mute_dispatched _ _))
  | @raisedDisconnected w peer rest hcalls =>
    exact h.told hcalls (fun _ _ heq ↦ by cases heq) (List.subset_cons_self _ _) (.of_eq rfl) rfl
      (hone (mute_dispatched _ _))
  | @delivered w msg origin listener listeners rest hcalls =>
    exact h.told hcalls (fun _ _ heq ↦ by cases heq)
      (fun _ hc ↦ List.mem_cons_of_mem _ (List.mem_cons_of_mem _ hc)) (.of_eq rfl) rfl
      (hone (mute_delivered _ _ _))
  | selfRead rest hcalls =>
    exact h.told hcalls (fun _ _ heq ↦ by cases heq) (List.subset_cons_self _ _) (.of_eq rfl) rfl
      hnone
  | @dispatchedNext w msg origin messages rest hcalls =>
    exact h.told hcalls (fun _ _ heq ↦ by cases heq)
      (fun _ hc ↦ List.mem_cons_of_mem _ (List.mem_cons_of_mem _ hc)) (.of_eq rfl) rfl
      (hone (mute_dispatched _ _))
  | @datagram w _ peer plain entry hcalls hget hq hcalls' htrace =>
    exact h.datagram hcalls hget hq htrace
  | @adopted w _ peer entry hcalls hproved hown hfree hpeers hcalls' htrace =>
    refine h.adopted hcalls ?_ hpeers htrace
    rw [Router.adoptedPeer]
    dsimp only
    rw [hproved.fresh.recvKeyed]
    exact ⟨rfl, rfl, rfl⟩
  | drained hcalls _ => exact h.drained hcalls

/-! ## Every run -/

theorem streamInv_init : StreamInv crypto {} where
  counts id entry hget := by
    cases TreeMap.getElem?_emptyc.symm.trans hget
  opens _ _ _ hconn := by cases hconn
  dropping _ href := by cases href
  silent := trivial

theorem reachable_streamInv {guard : Machine → Input → Prop}
    (h : Reaches (Machine.step crypto config) guard {} m) : StreamInv crypto m :=
  h.invariant streamInv_init fun _ _ _ hinv _ hstep ↦ hinv.step hstep

/-- A refused frame stays in the record until its peer is adopted again. -/
theorem refused_of_failed {newer older : List Event} {id : Bytes}
    (hnewer : ∀ key expectedId recvKey, .adopted id key expectedId recvKey ∉ newer) :
    refused id (newer ++ .failed id :: older) = true := by
  induction newer with
  | nil => rw [List.nil_append, refused, if_pos rfl]
  | cons event newer ih =>
    have ih' := ih fun key expectedId recvKey hmem ↦
      hnewer key expectedId recvKey (List.mem_cons_of_mem _ hmem)
    rw [List.cons_append]
    cases event with
    | adopted peer key expectedId recvKey =>
      rw [refused, if_neg]
      · exact ih'
      · rintro rfl
        exact hnewer _ _ _ List.mem_cons_self
    | failed peer =>
      rw [refused, ih', ite_self]
    | _ => exact ih'

theorem SilentOnceRefused.silent {newer older : List Event} {event : Event} {id : Bytes}
    (h : SilentOnceRefused (newer ++ event :: older)) (hid : acceptedFrom event = some id) :
    refused id older = false := by
  induction newer with
  | nil => exact h.1 id hid
  | cons _ newer ih => exact ih h.2

/-- **What a connection opens is a prefix of what its sender sealed**, whatever bytes arrived, and
nothing is accepted from a connection after the first frame of it that failed. -/
theorem stream_integrity (h : Reaches (Machine.step crypto config) always {} m) {id : Bytes}
    {key : Bytes} {plains : List Bytes} {sender : PeerChannel} {payloads : List Bytes}
    (hconn : connection id m.trace = some (key, plains))
    (hsender : sender.send = CipherState.initKey key)
    (hideal : IdealAead crypto key (sealLog crypto sender payloads)) :
    plains <+: (sealLog crypto sender payloads).map SealCall.plain ∧
      ∀ newest event newer older, m.trace = newest ++ event :: newer ++ .failed id :: older →
        (∀ key expectedId recvKey, .adopted id key expectedId recvKey ∉ newer) →
        acceptedFrom event ≠ some id := by
  have hinv := reachable_streamInv h
  have hcount : CountsTo sender.send key 0 := by
    rw [hsender]
    exact ⟨rfl, rfl, rfl⟩
  refine ⟨opened_in_order hcount hideal (hinv.opens id key plains hconn), ?_⟩
  intro newest event newer older htrace hnewer hid
  have hsilent := hinv.silent
  rw [htrace, List.append_assoc, List.cons_append] at hsilent
  have hfalse := hsilent.silent hid
  rw [refused_of_failed hnewer] at hfalse
  cases hfalse

/-! ## A run -/

/-- The stand-in cipher, made ideal under one key: there nothing opens but what `calls` sealed. -/
def strictCrypto (key : Bytes) (calls : List SealCall) : Crypto :=
  { checksumCrypto with
    aeadDecrypt := fun k nonce mac ad cipher ↦
      if k = key ∧ ∀ call ∈ calls, ¬ (call.nonce = nonce ∧ call.ad = ad ∧ call.plain = cipher) then
        none
      else checksumCrypto.aeadDecrypt k nonce mac ad cipher }

theorem strictCrypto_ideal (key : Bytes) (calls : List SealCall) :
    IdealAead (strictCrypto key calls) key calls where
  authentic nonce mac ad cipher plain hopen := by
    dsimp only [strictCrypto, checksumCrypto] at hopen ⊢
    split at hopen
    · cases hopen
    · rename_i hlogged
      have hex : ∃ call ∈ calls, call.nonce = nonce ∧ call.ad = ad ∧ call.plain = cipher := by
        by_contra hc
        exact hlogged ⟨rfl, fun call hmem hcall ↦ hc ⟨call, hmem, hcall⟩⟩
      obtain ⟨call, hmem, hnonce, had, hplain⟩ := hex
      split at hopen
      · rename_i hmac
        exact ⟨call, hmem, hnonce, had, by rw [hplain, hmac]⟩
      · cases hopen
  correct call hmem cipher mac hsealed := by
    dsimp only [strictCrypto, checksumCrypto] at hsealed ⊢
    cases hsealed
    rw [if_neg, if_pos rfl]
    exact fun hc ↦ hc.2 call hmem ⟨rfl, rfl, rfl⟩

/-- The channel player two seals with, once it has dialed us. -/
def playerTwoChannel : PeerChannel :=
  match Sample.dial (Sample.key 2) with
  | some (_, channel) => channel
  | none => PeerChannel.init checksumCrypto true [] [] []

/-- Two payloads it seals, and what that asks of the cipher. -/
def playerTwoPayloads : List Bytes := [ascii "first", ascii "second"]

/-- What the second player sealed. -/
def playerTwoLog : List SealCall := sealLog checksumCrypto playerTwoChannel playerTwoPayloads

/-- The bytes of one frame of player two's. -/
def playerTwoFrame : Bytes :=
  match sealFrame checksumCrypto playerTwoChannel (ascii "first") with
  | some (framed, _) => framed
  | none => []

/-- The first frame arrives, and then the same bytes again. -/
def replayRun : List Input :=
  Sample.untilAdopted [] (Sample.stream (Sample.key 2) [] ++ playerTwoFrame ++ playerTwoFrame) ++
    List.replicate 5 (.run Sample.quiet)

/-- A cipher that opens nothing else. -/
def replayCrypto : Crypto := strictCrypto playerTwoChannel.send.key playerTwoLog

/-- Who the second player is. -/
def playerTwoId : Bytes := Sample.us.idOfKey checksumCrypto (Sample.key 2)

theorem stream_integrity_replay : ∃ m : Machine,
    (connection playerTwoId m.trace = some (playerTwoChannel.send.key, [ascii "first"]) ∧
      .failed playerTwoId ∈ m.trace) ∧
    ([ascii "first"] <+:
        (sealLog replayCrypto playerTwoChannel playerTwoPayloads).map SealCall.plain ∧
      ∀ newest event newer older,
        m.trace = newest ++ event :: newer ++ .failed playerTwoId :: older →
        (∀ key expectedId recvKey, .adopted playerTwoId key expectedId recvKey ∉ newer) →
        acceptedFrom event ≠ some playerTwoId) := by
  obtain ⟨m, hr, hm⟩ := exists_reaches (Machine.step replayCrypto Sample.us) always {}
    (fun m ↦ connection playerTwoId m.trace =
        some (playerTwoChannel.send.key, [ascii "first"]) ∧ .failed playerTwoId ∈ m.trace)
    replayRun (by decide +kernel) (meets_always _ _)
  have hlog : sealLog replayCrypto playerTwoChannel playerTwoPayloads = playerTwoLog := by
    decide +kernel
  have hideal : IdealAead replayCrypto playerTwoChannel.send.key
      (sealLog replayCrypto playerTwoChannel playerTwoPayloads) := by
    rw [hlog]
    exact strictCrypto_ideal _ _
  exact ⟨m, hm, stream_integrity hr hm.1 (by decide +kernel) hideal⟩

end Machine
end EosMesh
