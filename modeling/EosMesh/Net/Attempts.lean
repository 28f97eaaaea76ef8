import EosMesh.Lib.Attempt
import EosMesh.Net.Handshake

/-!
# The channel, failed calls included

`SecureChannel` and `PeerChannel` give what a call does when it succeeds.  A failed call leaves the
object it was made on half-way, and nothing keeps a caller from trying again.  Here the same
functions are attempts (`Lib.Attempt`): they keep the state that a failure leaves, and they note
each use of a primitive that the channel's security rests on.

Two things have to be right of this for what is proved with it to be about the code.

* They are the same functions where they succeed.  `value_tryWriteMessage` and its siblings say so,
  one for each function, down to the calls of a channel.
* The notes are the uses.  The noted uses stand beside the functions and not inside them, so this is
  proved from outside: take another cipher that answers as ours does at every use that was noted,
  and as it likes elsewhere (`AgreeAt`); then the function gives the same.  A use that was not
  noted, or one under another key or nonce than the noted one, would show.

The rest is how the steps of a handshake end.  One that fails leaves the state it failed in, so what
it noted and what it left are said together, with one case for each way it can end: a refused static
key has changed nothing, a refused shared secret comes before its derivation, and a message ends
with its payload (`ends_writeMessage`).  `Net.Nonces`, `Net.Exchange` and `Net.FailClosed` go on
from there.
-/

set_option autoImplicit false

namespace EosMesh

open Lib

/-- A use of a primitive: a transcript hashed, a key derivation, an encryption, and a decryption
whose tag verified. -/
inductive Use
  | hashed (input : Bytes)
  | derived (salt ikm : Bytes)
  | sealed (key nonce ad plain : Bytes)
  | opened (key nonce ad cipher : Bytes)
  deriving DecidableEq, Repr

variable (crypto : Crypto)

namespace CipherState

/-- What an encryption that succeeds uses. -/
def sealing (cs : CipherState) (ad plain : Bytes) : List Use :=
  if cs.hasKey then [.sealed cs.key (buildNonce cs.nonce) ad plain] else []

/-- What a decryption that succeeds uses. -/
def opening (cs : CipherState) (ad cipher : Bytes) : List Use :=
  if cs.hasKey then [.opened cs.key (buildNonce cs.nonce) ad cipher] else []

end CipherState

/-! ## The handshake -/

namespace NoiseHandshake

/-- `mixHash`, with a note of what was hashed. -/
def tryMixHash (data : Bytes) : Attempt Use NoiseHandshake Unit := fun hs ↦
  ⟨some (), mixHash crypto hs data, [.hashed (hs.h ++ data)]⟩

/-- `mixKey`, with a note of what the key was derived from. -/
def tryMixKey (ikm : Bytes) : Attempt Use NoiseHandshake Unit := fun hs ↦
  match mixKey crypto hs ikm with
  | none => ⟨none, hs, [.derived hs.ck ikm]⟩
  | some hs' => ⟨some (), hs', [.derived hs.ck ikm]⟩

/-- An encryption that fails has changed nothing. -/
def tryEncryptAndHash (plain : Bytes) : Attempt Use NoiseHandshake Bytes := fun hs ↦
  match hs.cs.encrypt crypto hs.h plain with
  | none => ⟨none, hs, []⟩
  | some (out, cs) =>
    ⟨some out, mixHash crypto { hs with cs } out,
      hs.cs.sealing hs.h plain ++ [.hashed (hs.h ++ out)]⟩

/-- `decryptAndHash`, with a note of what was opened. -/
def tryDecryptAndHash (cipher : Bytes) : Attempt Use NoiseHandshake Bytes := fun hs ↦
  if hs.cs.hasKey ∧ cipher.length < aeadTagLen then ⟨none, hs, []⟩
  else match hs.cs.decrypt crypto hs.h cipher with
    | none => ⟨none, hs, []⟩
    | some (out, cs) =>
      ⟨some out, mixHash crypto { hs with cs } cipher,
        hs.cs.opening hs.h cipher ++ [.hashed (hs.h ++ cipher)]⟩

/-- `ensureEphemeral`, which uses no secret. -/
def tryEnsureEphemeral (random : Option Bytes) : Attempt Use NoiseHandshake Unit := fun hs ↦
  match ensureEphemeral crypto hs random with
  | none => ⟨none, hs, []⟩
  | some hs' => ⟨some (), hs', []⟩

/-- A DH token.  A refused shared secret comes before the derivation. -/
def tryMixDh (token : Token) : Attempt Use NoiseHandshake Unit := fun hs ↦
  match secretOf crypto hs token with
  | none => ⟨none, hs, []⟩
  | some secret => tryMixKey crypto secret hs

/-- `writeToken`, step by step. -/
def tryWriteToken (random : Option Bytes) : Token → Attempt Use NoiseHandshake Bytes
  | .e => do
    tryEnsureEphemeral crypto random
    let hs ← Attempt.read
    tryMixHash crypto hs.ePub
    pure hs.ePub
  | .s => do
    let hs ← Attempt.read
    tryEncryptAndHash crypto hs.sPub
  | t => do
    tryMixDh crypto t
    pure []

/-- `writeTokens`, step by step. -/
def tryWriteTokens (random : Option Bytes) : List Token → Attempt Use NoiseHandshake Bytes
  | [] => pure []
  | t :: ts => do
    let out ← tryWriteToken crypto random t
    let rest ← tryWriteTokens random ts
    pure (out ++ rest)

/-- `writeMessage`, step by step: one that fails leaves what its steps before have done. -/
def tryWriteMessage (random : Option Bytes) (payload : Bytes) :
    Attempt Use NoiseHandshake Bytes := do
  let hs ← Attempt.read
  Attempt.require (¬ hs.done ∧ weWrite hs.initiator hs.messageIndex)
  let tokens := xxMessage hs.messageIndex
  Attempt.require (messageSize hs.cs.hasKey payload.length tokens ≤ maxNoiseMessage)
  let out ← tryWriteTokens crypto random tokens
  let encPayload ← tryEncryptAndHash crypto payload
  Attempt.change advance
  pure (out ++ encPayload)

/-- What is left of the message behind the token. -/
def tryReadToken (message : Bytes) : Token → Attempt Use NoiseHandshake Bytes
  | .e => do
    Attempt.require (dhLen ≤ message.length)
    Attempt.change fun hs ↦ { hs with re := message.take dhLen, haveRe := true }
    tryMixHash crypto (message.take dhLen)
    pure (message.drop dhLen)
  | .s => do
    let hs ← Attempt.read
    let slen := if hs.cs.hasKey then dhLen + aeadTagLen else dhLen
    Attempt.require (slen ≤ message.length)
    let rs ← tryDecryptAndHash crypto (message.take slen)
    Attempt.require (rs.length = dhLen)
    Attempt.change fun hs ↦ { hs with remoteStatic := rs, haveRs := true }
    pure (message.drop slen)
  | t => do
    tryMixDh crypto t
    pure message

/-- `readTokens`, step by step. -/
def tryReadTokens (message : Bytes) : List Token → Attempt Use NoiseHandshake Bytes
  | [] => pure message
  | t :: ts => do
    let rest ← tryReadToken crypto message t
    tryReadTokens rest ts

/-- `readMessage`, step by step. -/
def tryReadMessage (message : Bytes) : Attempt Use NoiseHandshake Bytes := do
  let hs ← Attempt.read
  Attempt.require
    (¬ hs.done ∧ ¬ weWrite hs.initiator hs.messageIndex ∧ message.length ≤ maxNoiseMessage)
  let rest ← tryReadTokens crypto message (xxMessage hs.messageIndex)
  let payload ← tryDecryptAndHash crypto rest
  Attempt.change advance
  pure payload

/-- Both derivations come before anything is handed out, and the datagram keys' comes first. -/
def trySplit : Attempt Use NoiseHandshake Transport := fun hs ↦
  if ¬ hs.done ∨ hs.splitDone then ⟨none, hs, []⟩
  else
    let udpUse := Use.derived hs.ck (canonicalField udpSubkeyDomain)
    if (crypto.hkdfSha256 hs.ck (canonicalField udpSubkeyDomain) 2).length ≠ 2 then
      ⟨none, hs, [udpUse]⟩
    else match split crypto hs with
      | none => ⟨none, hs, [udpUse, .derived hs.ck []]⟩
      | some (keys, hs') => ⟨some keys, hs', [udpUse, .derived hs.ck []]⟩

/-! ### The same functions where they succeed -/

variable {crypto}

@[simp] theorem value_tryMixHash (data : Bytes) (hs : NoiseHandshake) :
    (tryMixHash crypto data).value hs = some ((), mixHash crypto hs data) := rfl

@[simp] theorem value_tryMixKey (ikm : Bytes) (hs : NoiseHandshake) :
    (tryMixKey crypto ikm).value hs = (mixKey crypto hs ikm).map ((), ·) := by
  rw [Attempt.value, tryMixKey]
  cases mixKey crypto hs ikm <;> rfl

@[simp] theorem value_tryEncryptAndHash (plain : Bytes) (hs : NoiseHandshake) :
    (tryEncryptAndHash crypto plain).value hs = encryptAndHash crypto hs plain := by
  rw [Attempt.value, tryEncryptAndHash, encryptAndHash]
  cases hs.cs.encrypt crypto hs.h plain <;> rfl

@[simp] theorem value_tryDecryptAndHash (cipher : Bytes) (hs : NoiseHandshake) :
    (tryDecryptAndHash crypto cipher).value hs = decryptAndHash crypto hs cipher := by
  rw [Attempt.value, tryDecryptAndHash, decryptAndHash]
  by_cases hshort : hs.cs.hasKey = true ∧ cipher.length < aeadTagLen
  · simp [hshort]
  · rw [if_neg hshort]
    cases hs.cs.decrypt crypto hs.h cipher <;> simp [hshort]

@[simp] theorem value_tryEnsureEphemeral (random : Option Bytes) (hs : NoiseHandshake) :
    (tryEnsureEphemeral crypto random).value hs =
      (ensureEphemeral crypto hs random).map ((), ·) := by
  rw [Attempt.value, tryEnsureEphemeral]
  cases ensureEphemeral crypto hs random <;> rfl

theorem mixDh_eq {token : Token} (hdh : token ≠ .e ∧ token ≠ .s) (hs : NoiseHandshake) :
    hs.mixDh crypto token = (secretOf crypto hs token).bind (mixKey crypto hs) := by
  cases token with
  | e => exact absurd rfl hdh.1
  | s => exact absurd rfl hdh.2
  | ee => rfl
  | es => rfl
  | se => rfl

theorem value_tryMixDh {token : Token} (hdh : token ≠ .e ∧ token ≠ .s) (hs : NoiseHandshake) :
    (tryMixDh crypto token).value hs = (mixDh crypto hs token).map ((), ·) := by
  rw [mixDh_eq hdh, Attempt.value, tryMixDh]
  cases hsecret : secretOf crypto hs token with
  | none => rfl
  | some secret => exact value_tryMixKey secret hs

@[simp] theorem value_tryWriteToken (random : Option Bytes) (token : Token) (hs : NoiseHandshake) :
    (tryWriteToken crypto random token).value hs = writeToken crypto random hs token := by
  have hdh {t : Token} (h : t ≠ .e ∧ t ≠ .s) :
      (do tryMixDh crypto t; pure [] : Attempt Use NoiseHandshake Bytes).value hs =
        (do pure ([], ← mixDh crypto hs t)) := by
    simp only [Attempt.value_bind, value_tryMixDh h]
    cases mixDh crypto hs t <;> rfl
  cases token with
  | e =>
    simp only [tryWriteToken, writeToken, Attempt.value_bind, value_tryEnsureEphemeral]
    cases ensureEphemeral crypto hs random <;> rfl
  | s => simp [tryWriteToken, writeToken]
  | ee => exact hdh ⟨by simp, by simp⟩
  | es => exact hdh ⟨by simp, by simp⟩
  | se => exact hdh ⟨by simp, by simp⟩

@[simp] theorem value_tryWriteTokens (random : Option Bytes) (tokens : List Token)
    (hs : NoiseHandshake) :
    (tryWriteTokens crypto random tokens).value hs = writeTokens crypto random hs tokens := by
  induction tokens generalizing hs with
  | nil => rfl
  | cons token tokens ih => simp [tryWriteTokens, writeTokens, ih]

theorem value_tryWriteMessage (random : Option Bytes) (payload : Bytes) (hs : NoiseHandshake) :
    (tryWriteMessage crypto random payload).value hs = hs.writeMessage crypto random payload := by
  simp [tryWriteMessage, writeMessage]

@[simp] theorem value_tryReadToken (message : Bytes) (token : Token) (hs : NoiseHandshake) :
    (tryReadToken crypto message token).value hs = readToken crypto hs message token := by
  have hdh {t : Token} (h : t ≠ .e ∧ t ≠ .s) :
      (do tryMixDh crypto t; pure message : Attempt Use NoiseHandshake Bytes).value hs =
        (do pure (message, ← mixDh crypto hs t)) := by
    simp only [Attempt.value_bind, value_tryMixDh h]
    cases mixDh crypto hs t <;> rfl
  cases token with
  | e => simp [tryReadToken, readToken]
  | s => simp [tryReadToken, readToken]
  | ee => exact hdh ⟨by simp, by simp⟩
  | es => exact hdh ⟨by simp, by simp⟩
  | se => exact hdh ⟨by simp, by simp⟩

@[simp] theorem value_tryReadTokens (tokens : List Token) (message : Bytes) (hs : NoiseHandshake) :
    (tryReadTokens crypto message tokens).value hs = readTokens crypto hs message tokens := by
  induction tokens generalizing message hs with
  | nil => rfl
  | cons token tokens ih => simp [tryReadTokens, readTokens, ih]

theorem value_tryReadMessage (message : Bytes) (hs : NoiseHandshake) :
    (tryReadMessage crypto message).value hs = hs.readMessage crypto message := by
  simp [tryReadMessage, readMessage]

end NoiseHandshake

/-! ## The channel -/

namespace PeerChannel

variable {α : Type}

/-- A step of the handshake the channel holds; without one there is nothing to step. -/
def onHandshake (m : Attempt Use NoiseHandshake α) : Attempt Use PeerChannel α := fun ch ↦
  match ch.handshake with
  | none => ⟨none, ch, []⟩
  | some hs => ⟨(m hs).result, { ch with handshake := some (m hs).state }, (m hs).notes⟩

/-- `openHandshake`, step by step. -/
def tryOpenHandshake (random : Option Bytes) : Attempt Use PeerChannel Bytes := do
  let ch ← Attempt.read
  Attempt.require (ch.initiator ∧ ch.messageIndex = 0)
  let message ← onHandshake (NoiseHandshake.tryWriteMessage crypto random [])
  Attempt.change fun ch ↦ { ch with messageIndex := ch.messageIndex + 1 }
  pure message

/-- The end of a step, and whether it established the channel. -/
def tryFinish : Attempt Use PeerChannel Bool := do
  let hs ← onHandshake Attempt.read
  if ¬ hs.done then pure false
  else do
    Attempt.require hs.haveRs
    Attempt.change fun ch ↦ { ch with remoteStatic := hs.remoteStatic }
    let keys ← onHandshake (NoiseHandshake.trySplit crypto)
    Attempt.change fun ch ↦
      { ch with
        send := keys.send
        recv := keys.recv
        udpSend := keys.udpSend
        udpRecv := keys.udpRecv
        udpSendTag := tagOfKey crypto keys.udpSend
        udpRecvTag := tagOfKey crypto keys.udpRecv
        handshake := none
        established := true }
    pure true

/-- Our answer, while there is one to give. -/
def tryReply (random : Option Bytes) : Attempt Use PeerChannel Bytes := do
  let ch ← Attempt.read
  if ch.messageIndex < handshakeMessageCount then do
    let reply ← onHandshake (NoiseHandshake.tryWriteMessage crypto random [])
    Attempt.change fun ch ↦ { ch with messageIndex := ch.messageIndex + 1 }
    pure reply
  else pure []

/-- `read_handshake`: whether the channel is established now, and the reply. -/
def tryReadHandshake (random : Option Bytes) (message : Bytes) :
    Attempt Use PeerChannel (Bool × Bytes) := do
  let ch ← Attempt.read
  Attempt.require (¬ ch.established ∧ ch.messageIndex < handshakeMessageCount)
  Attempt.require (¬ NoiseHandshake.weWrite ch.initiator ch.messageIndex)
  Attempt.require (message.length = handshakeMessageSize ch.messageIndex)
  let _ ← onHandshake (NoiseHandshake.tryReadMessage crypto message)
  Attempt.change fun ch ↦ { ch with messageIndex := ch.messageIndex + 1 }
  let reply ← tryReply crypto random
  let done ← tryFinish crypto
  pure (done, reply)

/-- `sealBytes`, with a note of the key and the nonce it used. -/
def trySeal (plain ad : Bytes) : Attempt Use PeerChannel Bytes := fun ch ↦
  match ch.sealBytes crypto plain ad with
  | none => ⟨none, ch, []⟩
  | some (cipher, ch') => ⟨some cipher, ch', ch.send.sealing ad plain⟩

/-- `unsealBytes`, with a note of the key and the nonce it used. -/
def tryUnseal (cipher ad : Bytes) : Attempt Use PeerChannel Bytes := fun ch ↦
  match ch.unsealBytes crypto cipher ad with
  | none => ⟨none, ch, []⟩
  | some (plain, ch') => ⟨some plain, ch', ch.recv.opening ad cipher⟩

/-- `sealDatagram`, with a note of the key and the nonce it used. -/
def trySealDatagram (senderId destId plain : Bytes) : Attempt Use PeerChannel (UInt64 × Bytes) :=
  fun ch ↦
    match ch.sealDatagram crypto senderId destId plain with
    | none => ⟨none, ch, []⟩
    | some (seq, cipher, ch') =>
      ⟨some (seq, cipher), ch',
        [.sealed ch.udpSend (buildNonce seq) (datagramAd senderId destId seq) plain]⟩

/-- A datagram that authenticates and is then refused by the window was opened all the same. -/
def tryOpenDatagram (senderId destId : Bytes) (seq : UInt64) (cipher : Bytes) :
    Attempt Use PeerChannel Bytes := fun ch ↦
  let ad := datagramAd senderId destId seq
  let body := cipher.length - aeadTagLen
  let uses :=
    if ¬ ch.established ∨ cipher.length < aeadTagLen then []
    else if (crypto.aeadDecrypt ch.udpRecv (buildNonce seq) (cipher.drop body) ad
        (cipher.take body)).isNone then []
    else [Use.opened ch.udpRecv (buildNonce seq) ad cipher]
  match ch.openDatagram crypto senderId destId seq cipher with
  | none => ⟨none, ch, uses⟩
  | some (plain, ch') => ⟨some plain, ch', uses⟩

/-! ## Calls -/

/-- A call on a channel, with the randomness the platform has for it. -/
inductive Call
  | openHandshake (random : Option Bytes)
  | readHandshake (random : Option Bytes) (message : Bytes)
  | sealBytes (plain ad : Bytes)
  | unsealBytes (cipher ad : Bytes)
  | sealDatagram (senderId destId plain : Bytes)
  | openDatagram (senderId destId : Bytes) (seq : UInt64) (cipher : Bytes)
  deriving DecidableEq, Repr

/-- A call that uses the transport. -/
def Call.Transports : Call → Prop
  | .openHandshake _ | .readHandshake _ _ => False
  | .sealBytes _ _ | .unsealBytes _ _ | .sealDatagram _ _ _ | .openDatagram _ _ _ _ => True

/-- What a call hands back: bytes, or a datagram's with its sequence. -/
def call : Call → Attempt Use PeerChannel (Option UInt64 × Bytes)
  | .openHandshake random => do
    let message ← tryOpenHandshake crypto random
    pure (none, message)
  | .readHandshake random message => do
    let (_, reply) ← tryReadHandshake crypto random message
    pure (none, reply)
  | .sealBytes plain ad => do
    let cipher ← trySeal crypto plain ad
    pure (none, cipher)
  | .unsealBytes cipher ad => do
    let plain ← tryUnseal crypto cipher ad
    pure (none, plain)
  | .sealDatagram senderId destId plain => do
    let (seq, cipher) ← trySealDatagram crypto senderId destId plain
    pure (some seq, cipher)
  | .openDatagram senderId destId seq cipher => do
    let plain ← tryOpenDatagram crypto senderId destId seq cipher
    pure (none, plain)

/-! ### The same functions where they succeed -/

variable {crypto} {ch : PeerChannel}

@[simp] theorem value_onHandshake (m : Attempt Use NoiseHandshake α) :
    (onHandshake m).value ch = ch.handshake.bind fun hs ↦
      (m.value hs).map fun p ↦ (p.1, { ch with handshake := some p.2 }) := by
  rw [Attempt.value, onHandshake]
  cases ch.handshake with
  | none => rfl
  | some hs =>
    rw [Option.bind_some, Attempt.value, Option.map_map]
    rfl

theorem value_trySplit (hs : NoiseHandshake) :
    (NoiseHandshake.trySplit crypto).value hs = hs.split crypto := by
  rw [Attempt.value, NoiseHandshake.trySplit]
  split
  · rename_i hclosed
    rw [NoiseHandshake.split, if_pos hclosed]
    rfl
  · rename_i hopen
    dsimp only
    split
    · rename_i hlength
      rw [NoiseHandshake.split, if_neg hopen]
      split
      · rename_i hudp _
        rw [hudp] at hlength
        exact absurd rfl hlength
      · rfl
    · cases hs.split crypto <;> rfl

theorem value_tryOpenHandshake (random : Option Bytes) :
    (tryOpenHandshake crypto random).value ch = ch.openHandshake crypto random := by
  by_cases hturn : ch.initiator = true ∧ ch.messageIndex = 0
  · cases hhs : ch.handshake with
    | none => simp [tryOpenHandshake, openHandshake, hturn, hhs]
    | some hs =>
      cases hwrite : hs.writeMessage crypto random [] <;>
        simp [tryOpenHandshake, openHandshake, hturn, hhs, hwrite,
          NoiseHandshake.value_tryWriteMessage]
  · have hnot : ¬ ch.initiator = true ∨ ch.messageIndex ≠ 0 := by
      rw [← not_and_or]
      exact hturn
    rw [openHandshake, if_pos hnot]
    simp [tryOpenHandshake, hturn]

/-- A step of the handshake as an attempt's value. -/
def Step.value : Step → Option ((Bool × Bytes) × PeerChannel)
  | .stepContinue reply ch => some ((false, reply), ch)
  | .stepDone reply ch => some ((true, reply), ch)
  | .stepFailed => none

theorem value_tryFinish {hs : NoiseHandshake} (hhs : ch.handshake = some hs) (reply : Bytes) :
    ((tryFinish crypto).value ch).map (fun p ↦ ((p.1, reply), p.2)) =
      (ch.finish crypto hs reply).value := by
  cases hdone : hs.done with
  | false => simp [tryFinish, finish, hhs, hdone, Step.value]
  | true =>
    cases hrs : hs.haveRs with
    | false => simp [tryFinish, finish, hhs, hdone, hrs, Step.value]
    | true =>
      cases hsplit : hs.split crypto <;>
        simp [tryFinish, finish, hhs, hdone, hrs, hsplit, value_trySplit, Step.value]

/-- A step's end puts the handshake it was given in the place of the one the channel held. -/
theorem finish_handshake (other : Option NoiseHandshake) (hs : NoiseHandshake) (reply : Bytes) :
    finish crypto { ch with handshake := other } hs reply = ch.finish crypto hs reply := rfl

/-- The second half of a step, once the message is read. -/
theorem value_reply_finish (random : Option Bytes) (hs : NoiseHandshake) :
    (((tryReply crypto random).value { ch with handshake := some hs }).bind fun p ↦
        ((tryFinish crypto).value p.2).bind fun q ↦ some ((q.1, p.1), q.2)) =
      Step.value (if ch.messageIndex < handshakeMessageCount then
        match hs.writeMessage crypto random [] with
        | none => .stepFailed
        | some (reply, hs) => finish crypto { ch with messageIndex := ch.messageIndex + 1 } hs reply
      else finish crypto ch hs []) := by
  have hfinish (ch : PeerChannel) (hs : NoiseHandshake) (reply : Bytes) :
      (((tryFinish crypto).value { ch with handshake := some hs }).bind fun q ↦
        some ((q.1, reply), q.2)) = (ch.finish crypto hs reply).value := by
    rw [← finish_handshake (some hs), ← value_tryFinish rfl]
    cases (tryFinish crypto).value { ch with handshake := some hs } <;> rfl
  by_cases hmore : ch.messageIndex < handshakeMessageCount
  · rw [if_pos hmore]
    cases hwrite : hs.writeMessage crypto random [] with
    | none => simp [tryReply, hmore, hwrite, NoiseHandshake.value_tryWriteMessage, Step.value]
    | some p =>
      simp only [tryReply, Attempt.value_bind, Attempt.value_read, Option.bind_some, hmore, if_true,
        value_onHandshake, NoiseHandshake.value_tryWriteMessage, hwrite, Option.map_some,
        Attempt.value_change, Attempt.value_pure]
      exact hfinish { ch with messageIndex := ch.messageIndex + 1 } p.2 p.1
  · rw [if_neg hmore]
    simp only [tryReply, Attempt.value_bind, Attempt.value_read, Option.bind_some, hmore, if_false,
      Attempt.value_pure]
    exact hfinish ch hs []

theorem value_tryReadHandshake (random : Option Bytes) (message : Bytes) :
    (tryReadHandshake crypto random message).value ch =
      (ch.readHandshake crypto random message).value := by
  by_cases hopen : ch.established = false ∧ ch.messageIndex < handshakeMessageCount
  · have hgo : ¬ (ch.established = true ∨ ch.messageIndex ≥ handshakeMessageCount) := by
      simp [hopen.1, hopen.2]
    rw [readHandshake, if_neg hgo]
    cases hturn : NoiseHandshake.weWrite ch.initiator ch.messageIndex with
    | true => simp [tryReadHandshake, hopen, hturn, Step.value]
    | false =>
      by_cases hlength : message.length = handshakeMessageSize ch.messageIndex
      · cases hhs : ch.handshake with
        | none => simp [tryReadHandshake, hopen, hturn, hlength, hhs, Step.value]
        | some hs =>
          cases hread : hs.readMessage crypto message with
          | none =>
            simp [tryReadHandshake, hopen, hturn, hlength, hhs, hread, Step.value,
              NoiseHandshake.value_tryReadMessage]
          | some p =>
            have hrest := @value_reply_finish crypto { ch with
              handshake := some hs, established := false
              messageIndex := ch.messageIndex + 1 } random p.2
            simp [tryReadHandshake, hopen, hturn, hlength, hhs, hread,
              NoiseHandshake.value_tryReadMessage]
            exact hrest
      · simp [tryReadHandshake, hopen, hturn, hlength, Step.value]
  · have hnot : ch.established = true ∨ ch.messageIndex ≥ handshakeMessageCount := by
      rcases not_and_or.1 hopen with h | h
      · exact .inl (by simpa using h)
      · exact .inr (Nat.not_lt.1 h)
    rw [readHandshake, if_pos hnot]
    simp [tryReadHandshake, hopen, Step.value]

theorem value_trySeal (plain ad : Bytes) :
    (trySeal crypto plain ad).value ch = ch.sealBytes crypto plain ad := by
  rw [Attempt.value, trySeal]
  cases ch.sealBytes crypto plain ad <;> rfl

theorem value_tryUnseal (cipher ad : Bytes) :
    (tryUnseal crypto cipher ad).value ch = ch.unsealBytes crypto cipher ad := by
  rw [Attempt.value, tryUnseal]
  cases ch.unsealBytes crypto cipher ad <;> rfl

theorem value_trySealDatagram (senderId destId plain : Bytes) :
    (trySealDatagram crypto senderId destId plain).value ch =
      (ch.sealDatagram crypto senderId destId plain).map fun p ↦ ((p.1, p.2.1), p.2.2) := by
  rw [Attempt.value, trySealDatagram]
  cases ch.sealDatagram crypto senderId destId plain <;> rfl

theorem value_tryOpenDatagram (senderId destId : Bytes) (seq : UInt64) (cipher : Bytes) :
    (tryOpenDatagram crypto senderId destId seq cipher).value ch =
      ch.openDatagram crypto senderId destId seq cipher := by
  rw [Attempt.value, tryOpenDatagram]
  cases ch.openDatagram crypto senderId destId seq cipher <;> rfl

end PeerChannel

/-! ## What is noted is what was asked

The notes stand beside the functions that use the cipher, not inside them.  Take another cipher that
answers as ours does wherever a use was noted, and otherwise as it likes: the function gives the
same. So there was no use that was not noted, and none was noted under another key or nonce. -/

/-- The other primitives encrypt and decrypt as these do at every use that was noted. -/
structure AgreeAt (crypto crypto' : Crypto) (uses : List Use) : Prop where
  sealed : ∀ key nonce ad plain, .sealed key nonce ad plain ∈ uses →
    crypto'.aeadEncrypt key nonce ad plain = crypto.aeadEncrypt key nonce ad plain
  opened : ∀ key nonce ad cipher, .opened key nonce ad cipher ∈ uses →
    crypto'.aeadDecrypt key nonce (cipher.drop (cipher.length - aeadTagLen)) ad
        (cipher.take (cipher.length - aeadTagLen)) =
      crypto.aeadDecrypt key nonce (cipher.drop (cipher.length - aeadTagLen)) ad
        (cipher.take (cipher.length - aeadTagLen))

section AgreeAt

variable {crypto crypto' : Crypto} {cs : CipherState} {ch : PeerChannel}

theorem CipherState.encrypt_agree {ad plain : Bytes} {r : Bytes × CipherState}
    (h : cs.encrypt crypto ad plain = some r)
    (hagree : AgreeAt crypto crypto' (cs.sealing ad plain)) :
    cs.encrypt crypto' ad plain = some r := by
  rw [← h, encrypt, encrypt]
  by_cases hkey : cs.hasKey = true
  · rw [hagree.sealed _ _ _ _ (by simp [sealing, hkey])]
  · simp [hkey]

theorem CipherState.decrypt_agree {ad cipher : Bytes} {r : Bytes × CipherState}
    (h : cs.decrypt crypto ad cipher = some r)
    (hagree : AgreeAt crypto crypto' (cs.opening ad cipher)) :
    cs.decrypt crypto' ad cipher = some r := by
  rw [← h, decrypt, decrypt]
  by_cases hkey : cs.hasKey = true
  · dsimp only
    rw [hagree.opened _ _ _ _ (by simp [opening, hkey])]
  · simp [hkey]

theorem PeerChannel.sealBytes_agree {plain ad : Bytes} {r : Bytes × PeerChannel}
    (h : ch.sealBytes crypto plain ad = some r)
    (hagree : AgreeAt crypto crypto' (trySeal crypto plain ad ch).notes) :
    ch.sealBytes crypto' plain ad = some r := by
  rw [trySeal, h] at hagree
  rw [sealBytes] at h ⊢
  by_cases hestablished : ch.established = true
  · rw [if_neg (by simpa using hestablished)] at h ⊢
    cases hencrypt : ch.send.encrypt crypto ad plain with
    | none =>
      rw [hencrypt] at h
      cases h
    | some sealed =>
      rw [hencrypt] at h
      rw [CipherState.encrypt_agree hencrypt hagree]
      exact h
  · rw [if_pos hestablished] at h
    cases h

theorem PeerChannel.unsealBytes_agree {cipher ad : Bytes} {r : Bytes × PeerChannel}
    (h : ch.unsealBytes crypto cipher ad = some r)
    (hagree : AgreeAt crypto crypto' (tryUnseal crypto cipher ad ch).notes) :
    ch.unsealBytes crypto' cipher ad = some r := by
  rw [tryUnseal, h] at hagree
  obtain ⟨hestablished, hdecrypt, hafter⟩ := unsealBytes_eq h
  rw [unsealBytes] at h ⊢
  split at h
  · cases h
  · rename_i hlong
    rw [hdecrypt] at h
    rw [if_neg hlong, CipherState.decrypt_agree hdecrypt hagree]
    exact h

theorem PeerChannel.sealDatagram_agree {senderId destId plain : Bytes}
    {r : UInt64 × Bytes × PeerChannel} (h : ch.sealDatagram crypto senderId destId plain = some r)
    (hagree : AgreeAt crypto crypto' (trySealDatagram crypto senderId destId plain ch).notes) :
    ch.sealDatagram crypto' senderId destId plain = some r := by
  rw [trySealDatagram, h] at hagree
  rw [sealDatagram] at h ⊢
  split at h
  · cases h
  · rename_i hready
    cases h
    have hnoted := hagree.sealed _ _ _ _ List.mem_cons_self
    rw [if_neg hready]
    dsimp only
    rw [hnoted]

theorem PeerChannel.openDatagram_agree {senderId destId cipher : Bytes} {seq : UInt64}
    {r : Bytes × PeerChannel} (h : ch.openDatagram crypto senderId destId seq cipher = some r)
    (hagree : AgreeAt crypto crypto' (tryOpenDatagram crypto senderId destId seq cipher ch).notes) :
    ch.openDatagram crypto' senderId destId seq cipher = some r := by
  rw [tryOpenDatagram, h] at hagree
  rw [openDatagram] at h ⊢
  split at h
  · cases h
  · rename_i hready
    have hopened : (crypto.aeadDecrypt ch.udpRecv (buildNonce seq)
        (cipher.drop (cipher.length - aeadTagLen)) (datagramAd senderId destId seq)
        (cipher.take (cipher.length - aeadTagLen))).isNone = false := by
      dsimp only at h
      split at h
      · cases h
      · rename_i hdecrypt
        rw [hdecrypt]
        rfl
    have hnoted := hagree.opened ch.udpRecv (buildNonce seq) (datagramAd senderId destId seq) cipher
      (by rw [if_neg hready, hopened]; exact List.mem_cons_self)
    rw [if_neg hready]
    dsimp only at h ⊢
    rw [hnoted]
    exact h

end AgreeAt

/-! ## How the steps of a handshake end

A step that fails leaves the state it failed in, so what it noted and what it left are said
together, one case for each way it can end. -/

/-- The sizes the primitives' header documents. -/
structure Crypto.Sized (crypto : Crypto) : Prop where
  digest : ∀ input, (crypto.sha256 input).length = hashLen
  publicKey : ∀ secret, (crypto.x25519PublicKey secret).length = dhLen
  shared : ∀ secret peerPublic out, crypto.x25519Shared secret peerPublic = some out →
    out.length = dhLen

namespace NoiseHandshake

variable {crypto : Crypto} {hs : NoiseHandshake}

/-- The hash after `data` is mixed in. -/
def hashWith (crypto : Crypto) (h data : Bytes) : Bytes := crypto.sha256 (h ++ data)

theorem ends_encryptAndHash_unkeyed (hkey : hs.cs.hasKey = false) (plain : Bytes) :
    Attempt.Ends (tryEncryptAndHash crypto plain) hs fun r hs' notes ↦
      r = true ∧ hs' = mixHash crypto hs plain ∧ notes = [.hashed (hs.h ++ plain)] := by
  simp [Attempt.Ends, tryEncryptAndHash, CipherState.encrypt, CipherState.sealing, hkey]

theorem ends_encryptAndHash (hkey : hs.cs.hasKey = true)
    (hnonce : nonceExhausted hs.cs.nonce = false) (plain : Bytes) :
    Attempt.Ends (tryEncryptAndHash crypto plain) hs fun r hs' notes ↦
      ∃ out, r = true ∧ out.length = plain.length + aeadTagLen ∧
        hs' = mixHash crypto { hs with cs := { hs.cs with nonce := hs.cs.nonce + 1 } } out ∧
        notes = [.sealed hs.cs.key (buildNonce hs.cs.nonce) hs.h plain, .hashed (hs.h ++ out)] := by
  simp [Attempt.Ends, tryEncryptAndHash, CipherState.encrypt, CipherState.sealing, hkey, hnonce,
    crypto.length_cipher, crypto.length_mac]

theorem ends_decryptAndHash_unkeyed (hkey : hs.cs.hasKey = false) (cipher : Bytes) :
    Attempt.Ends (tryDecryptAndHash crypto cipher) hs fun r hs' notes ↦
      r = true ∧ hs' = mixHash crypto hs cipher ∧ notes = [.hashed (hs.h ++ cipher)] := by
  simp [Attempt.Ends, tryDecryptAndHash, CipherState.decrypt, CipherState.opening, hkey]

/-- A decryption that is refused has changed nothing. -/
theorem ends_decryptAndHash (hkey : hs.cs.hasKey = true) (cipher : Bytes) :
    Attempt.Ends (tryDecryptAndHash crypto cipher) hs fun r hs' notes ↦
      (r = false ∧ hs' = hs ∧ notes = []) ∨
      r = true ∧
        hs' = mixHash crypto { hs with cs := { hs.cs with nonce := hs.cs.nonce + 1 } } cipher ∧
        notes = [.opened hs.cs.key (buildNonce hs.cs.nonce) hs.h cipher,
          .hashed (hs.h ++ cipher)] := by
  rw [Attempt.Ends, tryDecryptAndHash]
  split
  · exact .inl ⟨rfl, rfl, rfl⟩
  · cases hdec : hs.cs.decrypt crypto hs.h cipher with
    | none => exact .inl ⟨rfl, rfl, rfl⟩
    | some p =>
      have hcs : p.2 = { hs.cs with nonce := hs.cs.nonce + 1 } := by
        rw [CipherState.decrypt, if_neg (not_not_intro hkey)] at hdec
        split at hdec
        · cases hdec
        · dsimp only at hdec
          split at hdec
          · cases hdec
          · cases hdec
            rfl
      refine .inr ⟨rfl, ?_, ?_⟩
      · rw [← hcs]
      · simp [CipherState.opening, hkey]

/-- A DH token either fails and leaves the state alone, or derives the next chaining key. -/
theorem ends_mixDh (hsized : crypto.Sized) {token : Token} (hdh : token ≠ .e ∧ token ≠ .s) :
    Attempt.Ends (tryMixDh crypto token) hs fun r hs' notes ↦
      (r = false ∧ hs' = hs ∧ (notes = [] ∨ ∃ ikm, notes = [.derived hs.ck ikm])) ∨
      ∃ ikm ck key, r = true ∧ hs' = { hs with ck, cs := CipherState.initKey key } ∧
        notes = [.derived hs.ck ikm] ∧ crypto.hkdfSha256 hs.ck ikm 2 = [ck, key] ∧
        ikm.length = dhLen := by
  rw [Attempt.Ends, tryMixDh]
  cases hsecret : secretOf crypto hs token with
  | none => exact .inl ⟨rfl, rfl, .inl rfl⟩
  | some ikm =>
    have hlength : ikm.length = dhLen := by
      cases token with
      | e => exact absurd rfl hdh.1
      | s => exact absurd rfl hdh.2
      | ee => exact hsized.shared _ _ _ hsecret
      | es => exact hsized.shared _ _ _ hsecret
      | se => exact hsized.shared _ _ _ hsecret
    dsimp only
    rw [tryMixKey]
    cases hmix : mixKey crypto hs ikm with
    | none => exact .inl ⟨rfl, rfl, .inr ⟨ikm, rfl⟩⟩
    | some hs' =>
      rw [mixKey] at hmix
      split at hmix
      · rename_i ck key houtputs
        cases hmix
        exact .inr ⟨ikm, ck, key, rfl, rfl, rfl, houtputs, hlength⟩
      · cases hmix

/-! ### The messages -/

/-- Writing a message, once it is our turn and fits. -/
theorem tryWriteMessage_eq (random : Option Bytes) (payload : Bytes)
    (hturn : ¬ hs.done = true ∧ weWrite hs.initiator hs.messageIndex = true)
    (hsize : messageSize hs.cs.hasKey payload.length (xxMessage hs.messageIndex) ≤
    maxNoiseMessage) :
    tryWriteMessage crypto random payload hs =
      (do
        let out ← tryWriteTokens crypto random (xxMessage hs.messageIndex)
        let encPayload ← tryEncryptAndHash crypto payload
        Attempt.change advance
        pure (out ++ encPayload) : Attempt Use NoiseHandshake Bytes) hs := by
  rw [tryWriteMessage, Attempt.read_bind, Attempt.require_bind hturn, Attempt.require_bind hsize]

theorem tryReadMessage_eq (message : Bytes)
    (hturn : ¬ hs.done = true ∧ ¬ weWrite hs.initiator hs.messageIndex = true ∧
      message.length ≤ maxNoiseMessage) :
    tryReadMessage crypto message hs =
      (do
        let rest ← tryReadTokens crypto message (xxMessage hs.messageIndex)
        let payload ← tryDecryptAndHash crypto rest
        Attempt.change advance
        pure payload : Attempt Use NoiseHandshake Bytes) hs := by
  rw [tryReadMessage, Attempt.read_bind, Attempt.require_bind hturn]

/-- The ephemeral key is read off the front, in the clear. -/
theorem tryReadToken_e {message : Bytes} (hlong : dhLen ≤ message.length) :
    tryReadToken crypto message .e hs =
      ⟨some (message.drop dhLen),
        mixHash crypto { hs with re := message.take dhLen, haveRe := true } (message.take dhLen),
        [.hashed (hs.h ++ message.take dhLen)]⟩ := by
  rw [tryReadToken, Attempt.require_bind hlong, Attempt.change_bind]
  rfl

theorem ends_readToken_e {message : Bytes} (hlong : dhLen ≤ message.length) :
    Attempt.Ends (tryReadToken crypto message .e) hs fun r hs' notes ↦
      r = true ∧ (message.take dhLen).length = dhLen ∧
        hs' = mixHash crypto { hs with re := message.take dhLen, haveRe := true }
          (message.take dhLen) ∧
        notes = [.hashed (hs.h ++ message.take dhLen)] := by
  have hlength : (message.take dhLen).length = dhLen := by
    rw [List.length_take]
    exact Nat.min_eq_left hlong
  rw [Attempt.Ends, tryReadToken_e hlong]
  exact ⟨rfl, hlength, rfl, rfl⟩

theorem tryWriteToken_e {random : Option Bytes} (hfresh : hs.haveE = false) :
    tryWriteToken crypto random .e hs =
      match random with
      | none => ⟨none, hs, []⟩
      | some ePriv =>
        ⟨some (crypto.x25519PublicKey ePriv),
          mixHash crypto { hs with ePriv, ePub := crypto.x25519PublicKey ePriv, haveE := true }
            (crypto.x25519PublicKey ePriv),
          [.hashed (hs.h ++ crypto.x25519PublicKey ePriv)]⟩ := by
  have hensure : ensureEphemeral crypto hs random = random.map fun ePriv ↦
      { hs with ePriv, ePub := crypto.x25519PublicKey ePriv, haveE := true } := by
    rw [ensureEphemeral, hfresh]
    rfl
  cases random with
  | none =>
    have hnone : tryEnsureEphemeral crypto none hs = ⟨none, hs, []⟩ := by
      simp [tryEnsureEphemeral, hensure]
    rw [tryWriteToken, Attempt.bind_of_none (by rw [hnone]), hnone]
  | some ePriv =>
    have hsome : tryEnsureEphemeral crypto (some ePriv) hs =
        ⟨some (), { hs with ePriv, ePub := crypto.x25519PublicKey ePriv, haveE := true }, []⟩ := by
      simp [tryEnsureEphemeral, hensure]
    rw [tryWriteToken, Attempt.bind_of_some (by rw [hsome]), hsome]
    rfl

/-- A DH token puts nothing on the wire. -/
theorem ends_writeToken_dh {random : Option Bytes} {token : Token}
    {Q : Bool → NoiseHandshake → List Use → Prop} (hdh : token ≠ .e ∧ token ≠ .s)
    (h : Attempt.Ends (tryMixDh crypto token) hs Q) :
    Attempt.Ends (tryWriteToken crypto random token) hs Q := by
  have hdo : Attempt.Ends (do tryMixDh crypto token; pure [] : Attempt Use NoiseHandshake Bytes)
      hs Q := by
    refine Attempt.Ends.bind h (fun _ _ ↦ id) fun _ hs' notes hmix ↦ ?_
    change Q true hs' (notes ++ [])
    rw [List.append_nil]
    exact hmix
  cases token with
  | e => exact absurd rfl hdh.1
  | s => exact absurd rfl hdh.2
  | ee => exact hdo
  | es => exact hdo
  | se => exact hdo

theorem ends_readToken_dh {message : Bytes} {token : Token}
    {Q : Bool → NoiseHandshake → List Use → Prop} (hdh : token ≠ .e ∧ token ≠ .s)
    (h : Attempt.Ends (tryMixDh crypto token) hs Q) :
    Attempt.Ends (tryReadToken crypto message token) hs Q := by
  have hdo : Attempt.Ends (do tryMixDh crypto token; pure message :
      Attempt Use NoiseHandshake Bytes) hs Q := by
    refine Attempt.Ends.bind h (fun _ _ ↦ id) fun _ hs' notes hmix ↦ ?_
    change Q true hs' (notes ++ [])
    rw [List.append_nil]
    exact hmix
  cases token with
  | e => exact absurd rfl hdh.1
  | s => exact absurd rfl hdh.2
  | ee => exact hdo
  | es => exact hdo
  | se => exact hdo

/-- Our static key goes out sealed. -/
theorem ends_writeToken_s {random : Option Bytes} (hkey : hs.cs.hasKey = true)
    (hnonce : nonceExhausted hs.cs.nonce = false) (hstatic : hs.sPub.length = dhLen) :
    Attempt.Ends (tryWriteToken crypto random .s) hs fun r hs' notes ↦
      ∃ out, r = true ∧ out.length = dhLen + aeadTagLen ∧
        hs' = mixHash crypto { hs with cs := { hs.cs with nonce := hs.cs.nonce + 1 } } out ∧
        notes = [.sealed hs.cs.key (buildNonce hs.cs.nonce) hs.h hs.sPub,
          .hashed (hs.h ++ out)] := by
  have h : Attempt.Ends (tryEncryptAndHash crypto hs.sPub) hs _ :=
    ends_encryptAndHash hkey hnonce hs.sPub
  rw [hstatic] at h
  exact h

/-- Theirs is kept only if it opened; a message too short for it is refused before that. -/
theorem ends_readToken_s {message : Bytes} (hkey : hs.cs.hasKey = true) :
    Attempt.Ends (tryReadToken crypto message .s) hs fun r hs' notes ↦
      (r = false ∧ hs' = hs ∧ notes = []) ∨
      ∃ cipher, cipher.length = dhLen + aeadTagLen ∧
        notes = [.opened hs.cs.key (buildNonce hs.cs.nonce) hs.h cipher, .hashed (hs.h ++ cipher)] ∧
        (hs'.h = hashWith crypto hs.h cipher ∧ hs'.ck = hs.ck ∧
          hs'.cs = { hs.cs with nonce := hs.cs.nonce + 1 } ∧ hs'.messageIndex =
            hs.messageIndex) := by
  refine .read (.require (fun _ ↦ .inl ⟨rfl, rfl, rfl⟩) fun hlong ↦ ?_)
  rw [hkey, if_pos rfl] at hlong
  rw [hkey, if_pos rfl]
  have hlength : (message.take (dhLen + aeadTagLen)).length = dhLen + aeadTagLen := by
    rw [List.length_take]
    exact Nat.min_eq_left hlong
  refine .bind (ends_decryptAndHash hkey _) ?_ ?_
  · rintro hs' notes (h | ⟨hr, -⟩)
    · exact .inl h
    · cases hr
  · rintro rs hs' notes (⟨hr, -⟩ | ⟨-, rfl, rfl⟩)
    · cases hr
    · refine .require (fun _ ↦ .inr ⟨_, hlength, rfl, rfl, rfl, rfl, rfl⟩) fun _ ↦ ?_
      exact .change (.pure (.inr ⟨_, hlength, rfl, rfl, rfl, rfl, rfl⟩))

/-- Without an ephemeral key nothing has happened. -/
theorem ends_writeToken_e (hsized : crypto.Sized) (random : Option Bytes)
    (hfresh : hs.haveE = false) :
    Attempt.Ends (tryWriteToken crypto random .e) hs fun r hs' notes ↦
      (r = false ∧ hs' = hs ∧ notes = []) ∨
      ∃ ePriv e, e.length = dhLen ∧ r = true ∧
        hs' = mixHash crypto { hs with ePriv, ePub := e, haveE := true } e ∧
        notes = [.hashed (hs.h ++ e)] := by
  rw [Attempt.Ends, tryWriteToken_e hfresh]
  cases random with
  | none => exact .inl ⟨rfl, rfl, rfl⟩
  | some ePriv => exact .inr ⟨ePriv, _, hsized.publicKey ePriv, rfl, rfl, rfl⟩

variable {P Q : Bool → NoiseHandshake → List Use → Prop}

theorem ends_writeTokens_cons {random : Option Bytes} {token : Token} {tokens : List Token}
    (h : Attempt.Ends (tryWriteToken crypto random token) hs P)
    (hfail : ∀ hs' notes, P false hs' notes → Q false hs' notes)
    (hgo : ∀ hs' notes, P true hs' notes →
      Attempt.Ends (tryWriteTokens crypto random tokens) hs' fun r hs'' notes' ↦
        Q r hs'' (notes ++ notes')) :
    Attempt.Ends (tryWriteTokens crypto random (token :: tokens)) hs Q := by
  rw [tryWriteTokens]
  refine Attempt.Ends.bind h hfail fun out hs' notes hout ↦ ?_
  refine Attempt.Ends.bind (hgo hs' notes hout) (fun _ _ ↦ id) fun rest hs'' notes' hrest ↦ ?_
  change Q true hs'' (notes ++ (notes' ++ []))
  rw [List.append_nil]
  exact hrest

theorem ends_writeTokens_last {random : Option Bytes} {token : Token}
    (h : Attempt.Ends (tryWriteToken crypto random token) hs Q) :
    Attempt.Ends (tryWriteTokens crypto random [token]) hs Q := by
  refine ends_writeTokens_cons h (fun _ _ ↦ id) fun hs' notes hout ↦ ?_
  change Q true hs' (notes ++ [])
  rw [List.append_nil]
  exact hout

theorem ends_readTokens_cons {message : Bytes} {token : Token} {tokens : List Token}
    (h : Attempt.Ends (tryReadToken crypto message token) hs P)
    (hfail : ∀ hs' notes, P false hs' notes → Q false hs' notes)
    (hgo : ∀ rest hs' notes, P true hs' notes →
      Attempt.Ends (tryReadTokens crypto rest tokens) hs' fun r hs'' notes' ↦
        Q r hs'' (notes ++ notes')) :
    Attempt.Ends (tryReadTokens crypto message (token :: tokens)) hs Q := by
  rw [tryReadTokens]
  exact Attempt.Ends.bind h hfail hgo

theorem ends_readTokens_last {message : Bytes} {token : Token}
    (h : Attempt.Ends (tryReadToken crypto message token) hs Q) :
    Attempt.Ends (tryReadTokens crypto message [token]) hs Q := by
  refine ends_readTokens_cons h (fun _ _ ↦ id) fun rest hs' notes hout ↦ ?_
  change Q true hs' (notes ++ [])
  rw [List.append_nil]
  exact hout

/-- A message ends with its payload. -/
theorem ends_writeMessage {random : Option Bytes} {payload : Bytes} {tokens : List Token}
    (htokens : xxMessage hs.messageIndex = tokens)
    (hturn : ¬ hs.done = true ∧ weWrite hs.initiator hs.messageIndex = true)
    (hsize : messageSize hs.cs.hasKey payload.length tokens ≤ maxNoiseMessage)
    (h : Attempt.Ends (tryWriteTokens crypto random tokens) hs P)
    (hfail : ∀ hs' notes, P false hs' notes → Q false hs' notes)
    (hgo : ∀ hs' notes, P true hs' notes →
      Attempt.Ends (tryEncryptAndHash crypto payload) hs' fun r hs'' notes' ↦
        Q r (if r then hs''.advance else hs'') (notes ++ notes')) :
    Attempt.Ends (tryWriteMessage crypto random payload) hs Q := by
  refine Attempt.Ends.of_eq (tryWriteMessage_eq random payload hturn (htokens ▸ hsize)) ?_
  rw [htokens]
  refine Attempt.Ends.bind h hfail fun out hs' notes hout ↦ ?_
  refine Attempt.Ends.bind (hgo hs' notes hout) (fun _ _ ↦ id) fun rest hs'' notes' hrest ↦ ?_
  change Q true hs''.advance (notes ++ (notes' ++ []))
  rw [List.append_nil]
  exact hrest

theorem ends_readMessage {message : Bytes} {tokens : List Token}
    (htokens : xxMessage hs.messageIndex = tokens)
    (hturn : ¬ hs.done = true ∧ ¬ weWrite hs.initiator hs.messageIndex = true ∧
      message.length ≤ maxNoiseMessage)
    (h : Attempt.Ends (tryReadTokens crypto message tokens) hs P)
    (hfail : ∀ hs' notes, P false hs' notes → Q false hs' notes)
    (hgo : ∀ rest hs' notes, P true hs' notes →
      Attempt.Ends (tryDecryptAndHash crypto rest) hs' fun r hs'' notes' ↦
        Q r (if r then hs''.advance else hs'') (notes ++ notes')) :
    Attempt.Ends (tryReadMessage crypto message) hs Q := by
  refine Attempt.Ends.of_eq (tryReadMessage_eq message hturn) ?_
  rw [htokens]
  refine Attempt.Ends.bind h hfail fun rest hs' notes hrest ↦ ?_
  refine Attempt.Ends.bind (hgo rest hs' notes hrest) (fun _ _ ↦ id)
    fun payload hs'' notes' hp ↦ ?_
  change Q true hs''.advance (notes ++ (notes' ++ []))
  rw [List.append_nil]
  exact hp

end NoiseHandshake
end EosMesh
