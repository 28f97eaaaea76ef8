import EosMesh.Net.Router.State

/-!
# Frames on a peer's stream

The byte-level half of the router: taking a frame off a stream, sealing one onto it, and pushing
an outbox into a socket (`take_frame`, `seal_frame`, `flush_outbox`, `queue_and_flush`).

`unsealFrames` is the loop of `drain_peers` over one peer's buffer, as far as its cipher goes: it
takes frames off and opens them until the buffer holds no whole frame or one of them is refused.
`unsealFrames_counter` says what such a pass can do: each plaintext was opened at the next counter
with its own length as associated data, the counter stands at the number of them, and a pass that
broke is the connection's last.
-/

set_option autoImplicit false

namespace EosMesh

open Lib

/-! ## Taking a frame -/

/-- What pulling one frame off a stream found. -/
inductive Frame
  /-- Not a whole frame yet. -/
  | none
  | ready (body rest : Bytes)
  /-- The peer declared a frame we will not buffer; the buffer is cleared. -/
  | refused
  deriving DecidableEq, Repr

/-- The first frame of the bytes, if it is there whole. -/
def takeFrame (buffer : Bytes) : Frame :=
  if buffer.length ≥ framePrefixLen ∧ ofBeBytes (buffer.take framePrefixLen) > maxMessageSize then
    .refused
  else match tryDeframe buffer with
    | none => .none
    | some (body, consumed) => .ready body (buffer.drop consumed)

/-- The length prefix a frame is sealed and opened under. -/
def framePrefix (sealedLen : Nat) : Bytes := beBytes framePrefixLen sealedLen

theorem takeFrame_ready {buffer body rest : Bytes} (h : takeFrame buffer = .ready body rest) :
    rest.length < buffer.length := by
  rw [takeFrame] at h
  split at h
  · cases h
  · split at h
    · cases h
    · rename_i body' consumed hd
      cases h
      rw [tryDeframe] at hd
      split at hd
      · cases hd
      · dsimp only at hd
        split at hd
        · cases hd
        · split at hd
          · cases hd
          · cases hd
            rw [List.length_drop, framePrefixLen] at *
            omega

/-! ## Sending -/

/-- Push out as much as the socket will take: whether the connection still stands, what is left,
and the results not used up. -/
def flushOutbox : List SendResult → Bytes → Bool × Bytes × List SendResult
  | results, [] => (true, [], results)
  | [], outbox => (true, outbox, [])
  | .wouldBlock :: results, outbox => (true, outbox, results)
  | .error :: results, outbox => (false, outbox, results)
  | .sent count :: results, outbox =>
    if count > 0 then flushOutbox results (outbox.drop count) else (false, outbox, results)

/-- Seal an envelope's bytes as one frame for this peer. -/
def sealFrame (crypto : Crypto) (channel : PeerChannel) (plain : Bytes) :
    Option (Bytes × PeerChannel) :=
  let sealedLen := plain.length + aeadTagLen
  if sealedLen > maxMessageSize then none
  else match channel.sealBytes crypto plain (framePrefix sealedLen) with
    | none => none
    | some (cipher, channel) => some (framePrefix sealedLen ++ cipher, channel)

/-- Queue `framed` for a peer and flush; false only when the connection is broken. -/
def queueAndFlush (w : World) (entry : Peer) (framed : Bytes) : Bool × Peer :=
  if entry.outbox.length + framed.length > maxOutboxBytes then (false, entry)
  else
    let (ok, outbox, _) := flushOutbox (w.sends entry.connection) (entry.outbox ++ framed)
    (ok, { entry with outbox })

/-- Seal and queue one envelope: what `send` does for each peer it reaches. -/
def sendFrame (crypto : Crypto) (w : World) (entry : Peer) (plain : Bytes) : Bool × Peer :=
  match sealFrame crypto entry.channel plain with
  | none => (false, entry)
  | some (framed, channel) => queueAndFlush w { entry with channel } framed

/-! ## Opening what arrived -/

/-- What one pass over a peer's buffer opened, and what it left. -/
structure Unsealed where
  plains : List Bytes
  channel : PeerChannel
  buffer : Bytes
  /-- Set when the connection has to end here. -/
  broken : Option DropReason
  deriving DecidableEq, Repr

/-- The first argument bounds the number of frames; a buffer's length is always enough
(`unsealFrames_stable`). -/
def unsealFrames (crypto : Crypto) : Nat → PeerChannel → Bytes → Unsealed
  | 0, channel, buffer => { plains := [], channel, buffer, broken := none }
  | fuel + 1, channel, buffer =>
    match takeFrame buffer with
    | .refused => { plains := [], channel, buffer := [], broken := some .frameTooLarge }
    | .none => { plains := [], channel, buffer, broken := none }
    | .ready body rest =>
      match channel.unsealBytes crypto body (framePrefix body.length) with
      -- There is no way to resynchronize a counter: the connection ends here.
      | none => { plains := [], channel, buffer := rest, broken := some .authenticationFailed }
      | some (plain, channel) =>
        let later := unsealFrames crypto fuel channel rest
        { later with plains := plain :: later.plains }

variable {crypto : Crypto}

/-- The loop always reaches its own exit: more rounds than bytes change nothing. -/
theorem unsealFrames_stable {fuel : Nat} {channel : PeerChannel} {buffer : Bytes}
    (h : buffer.length ≤ fuel) :
    unsealFrames crypto (fuel + 1) channel buffer = unsealFrames crypto fuel channel buffer := by
  induction fuel generalizing channel buffer with
  | zero =>
    obtain rfl : buffer = [] := List.length_eq_zero_iff.1 (by omega)
    rfl
  | succ fuel ih =>
    rw [unsealFrames, unsealFrames]
    cases hf : takeFrame buffer with
    | none => rfl
    | refused => rfl
    | ready body rest =>
      have hrest := takeFrame_ready hf
      dsimp only
      cases channel.unsealBytes crypto body (framePrefix body.length) with
      | none => rfl
      | some opened =>
        dsimp only
        rw [ih (by omega)]

/-- `plain` opens under `key` at counter `n`, with its own length as associated data. -/
def OpensAt (crypto : Crypto) (key : Bytes) (n : Nat) (plain : Bytes) : Prop :=
  ∃ nonce : UInt64, nonce.toNat = n ∧ nonceExhausted nonce = false ∧ ∃ body : Bytes,
    crypto.aeadDecrypt key (buildNonce nonce) (body.drop (body.length - aeadTagLen))
      (framePrefix body.length) (body.take (body.length - aeadTagLen)) = some plain

/-- `plains` open one after the other from counter `n` on. -/
def OpensFrom (crypto : Crypto) (key : Bytes) : Nat → List Bytes → Prop
  | _, [] => True
  | n, plain :: plains => OpensAt crypto key n plain ∧ OpensFrom crypto key (n + 1) plains

theorem OpensFrom.append {key : Bytes} {n : Nat} {xs ys : List Bytes}
    (hx : OpensFrom crypto key n xs) (hy : OpensFrom crypto key (n + xs.length) ys) :
    OpensFrom crypto key n (xs ++ ys) := by
  induction xs generalizing n with
  | nil => exact hy
  | cons x xs ih =>
    obtain ⟨hx, hxs⟩ := hx
    refine ⟨hx, ih hxs ?_⟩
    rwa [List.length_cons, ← Nat.add_assoc, Nat.add_right_comm] at hy

/-- A receiving cipher that opened `n` frames under `key`. -/
structure CountsTo (cs : CipherState) (key : Bytes) (n : Nat) : Prop where
  key : cs.key = key
  hasKey : cs.hasKey = true
  nonce : cs.nonce.toNat = n

/-- Opening one frame moves the counter by one; a frame that fails moves nothing. -/
theorem CountsTo.unseal {channel channel' : PeerChannel} {key body plain : Bytes} {n : Nat}
    (hcount : CountsTo channel.recv key n)
    (h : channel.unsealBytes crypto body (framePrefix body.length) = some (plain, channel')) :
    CountsTo channel'.recv key (n + 1) ∧ OpensAt crypto key n plain := by
  obtain ⟨-, hdec, -⟩ := PeerChannel.unsealBytes_eq h
  rw [CipherState.decrypt, if_neg (by rw [hcount.hasKey]; simp)] at hdec
  split at hdec
  · cases hdec
  · rename_i hex
    dsimp only at hdec
    split at hdec
    · cases hdec
    · rename_i hopen
      obtain ⟨rfl, hrecv⟩ : _ = plain ∧ _ = channel'.recv := by simpa using hdec
      have hexh : nonceExhausted channel.recv.nonce = false := by
        simpa using fun hc ↦ hex (Or.inl hc)
      rw [← hrecv]
      refine ⟨⟨hcount.key, hcount.hasKey, ?_⟩, channel.recv.nonce, hcount.nonce, hexh, body, ?_⟩
      · rw [toNat_nonce_succ hexh, hcount.nonce]
      · rw [← hcount.key]
        exact hopen

/-- **What a pass over the buffer can do.**  Induction on the rounds, following the frames. -/
theorem unsealFrames_counter {fuel n : Nat} {channel : PeerChannel} {buffer key : Bytes}
    (hcount : CountsTo channel.recv key n) :
    CountsTo (unsealFrames crypto fuel channel buffer).channel.recv key
        (n + (unsealFrames crypto fuel channel buffer).plains.length) ∧
      OpensFrom crypto key n (unsealFrames crypto fuel channel buffer).plains := by
  induction fuel generalizing channel buffer n with
  | zero => exact ⟨hcount, trivial⟩
  | succ fuel ih =>
    rw [unsealFrames]
    cases takeFrame buffer with
    | none => exact ⟨hcount, trivial⟩
    | refused => exact ⟨hcount, trivial⟩
    | ready body rest =>
      dsimp only
      cases hopen : channel.unsealBytes crypto body (framePrefix body.length) with
      | none => exact ⟨hcount, trivial⟩
      | some opened =>
        obtain ⟨plain, channel'⟩ := opened
        obtain ⟨hnext, hplain⟩ := hcount.unseal hopen
        obtain ⟨hend, hrest⟩ := @ih (n + 1) channel' rest hnext
        refine ⟨?_, hplain, hrest⟩
        dsimp only
        rwa [List.length_cons, ← Nat.add_assoc, Nat.add_right_comm]

/-- A pass over the buffer touches the receiving cipher and nothing else of the channel. -/
theorem unsealFrames_channel (fuel : Nat) (channel : PeerChannel) (buffer : Bytes) :
    (unsealFrames crypto fuel channel buffer).channel =
      { channel with recv := (unsealFrames crypto fuel channel buffer).channel.recv } := by
  induction fuel generalizing channel buffer with
  | zero => rfl
  | succ fuel ih =>
    rw [unsealFrames]
    cases takeFrame buffer with
    | none => rfl
    | refused => rfl
    | ready body rest =>
      dsimp only
      cases hopen : channel.unsealBytes crypto body (framePrefix body.length) with
      | none => rfl
      | some opened =>
        obtain ⟨plain, channel'⟩ := opened
        obtain ⟨-, -, hch⟩ := PeerChannel.unsealBytes_eq hopen
        have := ih channel' rest
        rw [hch] at this ⊢
        exact this

end EosMesh
