import EosMesh.Net.SecureChannel
import EosMesh.Net.Messages

/-!
# The authenticated channel to one peer

`net/peer_channel.cpp`: the handshake driven to its end, then the transport it keyed — sealed frames
in order, and sealed datagrams behind a replay window.

A channel is made for one of the two roles, reads and writes handshake messages in turn, and is
established with the third.  From then on it has four keys, one for each direction of the stream and
one for each direction of the datagrams, and a tag by which the other end's datagrams are told from
others.

* `Step` is what a handshake message comes to: it fails, it is answered, or it ends the handshake.
* Frames are opened under the next count, so one that is lost, repeated or out of order is not
  opened.
* A datagram carries its count with it.  The window refuses a count that it has seen or that is too
  old, and is moved only once the datagram has authenticated.

What the router rests on is proved here: a channel is established only by the last step of a
handshake, which leaves both transports keyed at counter zero (`readHandshake_done`), and a sealed
frame or datagram moves its own counter or window and nothing else (`sealBytes_eq` and its
siblings).
-/

set_option autoImplicit false

namespace EosMesh

open Lib

/-- What the prologue and the tag of a datagram are told apart by. -/
def prologueDomain : Bytes := ascii "eosr-noise-v1"
def udpTagDomain : Bytes := ascii "eosr-udp-tag-v1"

/-- The length of a public key. -/
def keyLen : Nat := 32

/-- How far out of order a datagram may arrive. -/
def replayWidth : Nat := 64

/-- What the handshake binds itself to: the protocol, the wire version and the title. -/
def meshPrologue (productId sandboxId deploymentId : Bytes) : Bytes :=
  canonicalField prologueDomain ++ [wireProtocolVersion] ++ canonicalField productId ++
    canonicalField sandboxId ++ canonicalField deploymentId

/-- Which peer a datagram is from: the first four bytes of a digest of the key it was sealed
with. -/
def tagOfKey (crypto : Crypto) (key : Bytes) : UInt32 :=
  UInt32.ofNat (ofBeBytes
    ((crypto.sha256 (canonicalField udpTagDomain ++ canonicalField key)).take 4))

/-- What a datagram is bound to: who sent it to whom, and its number. -/
def datagramAd (senderId destId : Bytes) (seq : UInt64) : Bytes :=
  canonicalField senderId ++ canonicalField destId ++ canonicalFieldU64 seq

/-- The messages of a handshake, of both ends together. -/
def handshakeMessageCount : Nat := 3

/-- The XX messages with empty payloads have exactly these sizes. -/
def handshakeMessageSize : Nat → Nat
  | 0 => 32
  | 1 => 96
  | _ => 64

/-! ## The replay window -/

/-- A bit per sequence at or below `highest`, bit zero being `highest` itself. -/
structure ReplayWindow where
  highest : UInt64 := 0
  seen : UInt64 := 0
  deriving DecidableEq, Repr

/-- The window with `seq` remembered, or `none` for a duplicate or one too old to place. -/
def ReplayWindow.accept (w : ReplayWindow) (seq : UInt64) : Option ReplayWindow :=
  if seq > w.highest then
    let shift := seq - w.highest
    let seen := if shift.toNat ≥ replayWidth then 0 else w.seen <<< shift
    some { highest := seq, seen := seen ||| 1 }
  else
    let age := w.highest - seq
    if age.toNat ≥ replayWidth then none
    else
      let bit := (1 : UInt64) <<< age
      if w.seen &&& bit ≠ 0 then none else some { w with seen := w.seen ||| bit }

/-! ## The channel -/

/-- One end of a channel to a peer: a handshake, and then the keys it has led to. -/
structure PeerChannel where
  handshake : Option NoiseHandshake
  send : CipherState := {}
  recv : CipherState := {}
  remoteStatic : Bytes := zeros keyLen
  udpSend : Bytes := zeros keyLen
  udpRecv : Bytes := zeros keyLen
  udpSendTag : UInt32 := 0
  udpRecvTag : UInt32 := 0
  udpSeq : UInt64 := 0
  udpReplay : ReplayWindow := {}
  initiator : Bool
  established : Bool := false
  messageIndex : Nat := 0
  deriving DecidableEq, Repr

namespace PeerChannel

variable (crypto : Crypto)

/-- A channel before its handshake. -/
def init (initiator : Bool) (staticPriv staticPub prologue : Bytes) : PeerChannel where
  handshake := some (NoiseHandshake.init crypto initiator staticPriv staticPub prologue)
  initiator := initiator

/-- The initiator's opening message. -/
def openHandshake (ch : PeerChannel) (random : Option Bytes) : Option (Bytes × PeerChannel) :=
  if ¬ ch.initiator ∨ ch.messageIndex ≠ 0 then none
  else match ch.handshake with
    | none => none
    | some hs =>
      match hs.writeMessage crypto random [] with
      | none => none
      | some (message, hs) =>
        some (message, { ch with handshake := some hs, messageIndex := ch.messageIndex + 1 })

/-- What a handshake message led to.  A failed step leaves no channel: the connection is dropped. -/
inductive Step
  | stepContinue (reply : Bytes) (ch : PeerChannel)
  | stepDone (reply : Bytes) (ch : PeerChannel)
  | stepFailed
  deriving DecidableEq, Repr

/-- The end of a step: the peer is authenticated once the handshake is done.  Its key is kept, both
transports are keyed, and the handshake is let go. -/
def finish (ch : PeerChannel) (hs : NoiseHandshake) (reply : Bytes) : Step :=
  if ¬ hs.done then .stepContinue reply { ch with handshake := some hs }
  else if ¬ hs.haveRs then .stepFailed
  else match hs.split crypto with
    | none => .stepFailed
    | some (keys, _) =>
      .stepDone reply
        { ch with
          remoteStatic := hs.remoteStatic
          send := keys.send
          recv := keys.recv
          udpSend := keys.udpSend
          udpRecv := keys.udpRecv
          udpSendTag := tagOfKey crypto keys.udpSend
          udpRecvTag := tagOfKey crypto keys.udpRecv
          handshake := none
          established := true }

/-- Consume one handshake message, and reply when it is our turn to speak. -/
def readHandshake (ch : PeerChannel) (random : Option Bytes) (message : Bytes) : Step :=
  if ch.established ∨ ch.messageIndex ≥ handshakeMessageCount then .stepFailed
  -- The peer spoke out of turn.
  else if NoiseHandshake.weWrite ch.initiator ch.messageIndex then .stepFailed
  else if message.length ≠ handshakeMessageSize ch.messageIndex then .stepFailed
  else match ch.handshake with
    | none => .stepFailed
    | some hs =>
      match hs.readMessage crypto message with
      | none => .stepFailed
      | some (_, hs) =>
        let ch := { ch with messageIndex := ch.messageIndex + 1 }
        if ch.messageIndex < handshakeMessageCount then
          match hs.writeMessage crypto random [] with
          | none => .stepFailed
          | some (reply, hs) =>
            finish crypto { ch with messageIndex := ch.messageIndex + 1 } hs reply
        else finish crypto ch hs []

/-- Seal an envelope for this peer; `ad` is the frame's length prefix. -/
def sealBytes (ch : PeerChannel) (plain ad : Bytes) : Option (Bytes × PeerChannel) :=
  if ¬ ch.established then none
  else match ch.send.encrypt crypto ad plain with
    | none => none
    | some (cipher, send) => some (cipher, { ch with send })

/-- A frame of the stream is opened; one that is too short to hold a tag is not. -/
def unsealBytes (ch : PeerChannel) (cipher ad : Bytes) : Option (Bytes × PeerChannel) :=
  if ¬ ch.established ∨ cipher.length < aeadTagLen then none
  else match ch.recv.decrypt crypto ad cipher with
    | none => none
    | some (plain, recv) => some (plain, { ch with recv })

/-- The sequence is ours and strictly increasing, and it is also the nonce. -/
def sealDatagram (ch : PeerChannel) (senderId destId plain : Bytes) :
    Option (UInt64 × Bytes × PeerChannel) :=
  if ¬ ch.established ∨ nonceExhausted ch.udpSeq then none
  else
    let seq := ch.udpSeq
    let sealed := crypto.aeadEncrypt ch.udpSend (buildNonce seq) (datagramAd senderId destId seq)
      plain
    some (seq, sealed.1 ++ sealed.2, { ch with udpSeq := seq + 1 })

/-- The window is only spent on a datagram that authenticated. -/
def openDatagram (ch : PeerChannel) (senderId destId : Bytes) (seq : UInt64) (cipher : Bytes) :
    Option (Bytes × PeerChannel) :=
  if ¬ ch.established ∨ cipher.length < aeadTagLen then none
  else
    let body := cipher.length - aeadTagLen
    match crypto.aeadDecrypt ch.udpRecv (buildNonce seq) (cipher.drop body)
        (datagramAd senderId destId seq) (cipher.take body) with
    | none => none
    | some plain =>
      match ch.udpReplay.accept seq with
      | none => none
      | some udpReplay => some (plain, { ch with udpReplay })

/-! ## What each operation can do -/

variable {crypto} {ch ch' : PeerChannel} {hs : NoiseHandshake}

/-- An established channel whose transports have carried nothing yet. -/
structure Fresh (ch : PeerChannel) : Prop where
  established : ch.established = true
  handshake : ch.handshake = none
  sendKeyed : ch.send = CipherState.initKey ch.send.key
  recvKeyed : ch.recv = CipherState.initKey ch.recv.key

/-- The keys a split hands out are at counter zero. -/
theorem split_keyed {keys : NoiseHandshake.Transport} {hs' : NoiseHandshake}
    (h : hs.split crypto = some (keys, hs')) :
    keys.send = CipherState.initKey keys.send.key ∧
      keys.recv = CipherState.initKey keys.recv.key := by
  rw [NoiseHandshake.split] at h
  split at h
  · cases h
  · split at h
    · cases h
      cases hs.initiator <;> exact ⟨rfl, rfl⟩
    · cases h

theorem finish_done {reply reply' : Bytes}
    (h : ch.finish crypto hs reply = .stepDone reply' ch') : Fresh ch' := by
  rw [finish] at h
  split at h
  · cases h
  · split at h
    · cases h
    · split at h
      · cases h
      · rename_i keys hs' hsplit
        cases h
        exact ⟨rfl, rfl, (split_keyed hsplit).1, (split_keyed hsplit).2⟩

/-- **Only the last step of a handshake establishes a channel**, with both transports keyed at
counter zero. -/
theorem readHandshake_done {random : Option Bytes} {message reply : Bytes}
    (h : ch.readHandshake crypto random message = .stepDone reply ch') : Fresh ch' := by
  rw [readHandshake] at h
  split at h
  · cases h
  · split at h
    · cases h
    · split at h
      · cases h
      · split at h
        · cases h
        · split at h
          · cases h
          · dsimp only at h
            split at h
            · split at h
              · cases h
              · exact finish_done h
            · exact finish_done h

theorem sealBytes_eq {plain ad cipher : Bytes}
    (h : ch.sealBytes crypto plain ad = some (cipher, ch')) :
    ch.established = true ∧ ch' = { ch with send := ch'.send } := by
  rw [sealBytes] at h
  by_cases he : ch.established = true
  · rw [if_neg (by simpa using he)] at h
    split at h
    · cases h
    · cases h; exact ⟨he, rfl⟩
  · rw [if_pos he] at h
    cases h

theorem unsealBytes_eq {plain ad cipher : Bytes}
    (h : ch.unsealBytes crypto cipher ad = some (plain, ch')) :
    ch.established = true ∧ ch.recv.decrypt crypto ad cipher = some (plain, ch'.recv) ∧
      ch' = { ch with recv := ch'.recv } := by
  rw [unsealBytes] at h
  split at h
  · cases h
  · rename_i hnot
    have he : ch.established = true := by
      by_contra hc
      exact hnot (Or.inl hc)
    split at h
    · cases h
    · rename_i hdec
      cases h
      exact ⟨he, hdec, rfl⟩

theorem sealDatagram_eq {senderId destId plain cipher : Bytes} {seq : UInt64}
    (h : ch.sealDatagram crypto senderId destId plain = some (seq, cipher, ch')) :
    ch.established = true ∧ ch' = { ch with udpSeq := ch'.udpSeq } := by
  rw [sealDatagram] at h
  split at h
  · cases h
  · rename_i hnot
    cases h
    exact ⟨by by_contra hc; exact hnot (Or.inl hc), rfl⟩

theorem openDatagram_eq {senderId destId plain cipher : Bytes} {seq : UInt64}
    (h : ch.openDatagram crypto senderId destId seq cipher = some (plain, ch')) :
    ch.established = true ∧ ch' = { ch with udpReplay := ch'.udpReplay } := by
  rw [openDatagram] at h
  split at h
  · cases h
  · rename_i hnot
    dsimp only at h
    split at h
    · cases h
    · split at h
      · cases h
      · cases h
        exact ⟨by by_contra hc; exact hnot (Or.inl hc), rfl⟩

end PeerChannel
end EosMesh
