import EosMesh.Common.Crypto

/-!
# The Noise cipher state and handshake

`net/secure_channel.cpp`: `CipherState`, a key and a counter nonce, and `NoiseHandshake`, the XX
pattern of Noise_XX_25519_ChaChaPoly_SHA256 token by token.

Where a source function returns false, the model gives `none` and no state: every caller destroys
the object a failed call was made on, so what such a call leaves behind is never read.  Randomness
comes in as an argument, `none` when the platform has none.  What a failed call does leave behind,
for one who would go on with it, is in `Net.Attempts`.

* `CipherState.encrypt` and `CipherState.decrypt` use the counter and then count it up; a counter at
  its last value refuses.  Without a key they hand on what they are given.
* `Token` are the steps of the pattern, and `xxMessage` says which of them a message has.
* A handshake keeps a chaining key and a hash.  `mixKey` takes a shared secret into the first, and
  gives a fresh key to encrypt with; `mixHash` takes what was said into the second, to which all
  that is encrypted is bound.
* `writeMessage` and `readMessage` go through the tokens of a message and end with its payload.
  Each checks whose turn it is, and that the message is no longer than the protocol allows.
* `split` ends the handshake, with keys for the stream and for the datagrams.
-/

set_option autoImplicit false

namespace EosMesh

open Lib

/-- The sizes of the protocol, in bytes: of a hash, of a key, and of the longest message. -/
def hashLen : Nat := 32
def dhLen : Nat := 32
def maxNoiseMessage : Nat := 65535

/-- The name of the protocol, which is what the handshake hash starts from. -/
def protocolName : Bytes := ascii "Noise_XX_25519_ChaChaPoly_SHA256"
/-- What the key of the datagrams is derived under. -/
def udpSubkeyDomain : Bytes := ascii "eosr-udp-subkey-v1"

/-- A cleared buffer of `n` bytes. -/
def zeros (n : Nat) : Bytes := List.replicate n 0

/-! ## The cipher state -/

/-- A key and the number of messages it has carried.  Unkeyed, it passes data through. -/
structure CipherState where
  key : Bytes := zeros 32
  nonce : UInt64 := 0
  hasKey : Bool := false
  deriving DecidableEq, Repr

/-- Noise reserves nonce 2^64-1, so a counter that reached it carries nothing more. -/
def nonceExhausted (nonce : UInt64) : Bool := nonce = ~~~ 0

/-- Four zero bytes, then the counter, little-endian. -/
def buildNonce (nonce : UInt64) : Bytes := zeros 4 ++ leBytes 8 nonce.toNat

namespace CipherState

variable (crypto : Crypto)

/-- A key that has encrypted nothing. -/
def initKey (key : Bytes) : CipherState := { key, nonce := 0, hasKey := true }

/-- The ciphertext with its tag behind it, and the state with the counter moved on. -/
def encrypt (cs : CipherState) (ad plain : Bytes) : Option (Bytes × CipherState) :=
  if ¬ cs.hasKey then some (plain, cs)
  else if nonceExhausted cs.nonce then none
  else
    let sealed := crypto.aeadEncrypt cs.key (buildNonce cs.nonce) ad plain
    some (sealed.1 ++ sealed.2, { cs with nonce := cs.nonce + 1 })

/-- The counter moves on only when the tag verified. -/
def decrypt (cs : CipherState) (ad cipher : Bytes) : Option (Bytes × CipherState) :=
  if ¬ cs.hasKey then some (cipher, cs)
  else if nonceExhausted cs.nonce ∨ cipher.length < aeadTagLen then none
  else
    let body := cipher.length - aeadTagLen
    match crypto.aeadDecrypt cs.key (buildNonce cs.nonce) (cipher.drop body) ad
        (cipher.take body) with
    | none => none
    | some plain => some (plain, { cs with nonce := cs.nonce + 1 })

end CipherState

theorem buildNonce_inj {m n : UInt64} (h : buildNonce m = buildNonce n) : m = n := by
  have := List.append_cancel_left h
  exact UInt64.toNat_inj.1 (leBytes_inj m.toNat_lt n.toNat_lt this)

/-- Short of the reserved nonce, the counter does not wrap. -/
theorem toNat_nonce_succ {nonce : UInt64} (h : nonceExhausted nonce = false) :
    (nonce + 1).toNat = nonce.toNat + 1 := by
  have hne : nonce ≠ ~~~ 0 := by simpa [nonceExhausted] using h
  have hlt : nonce.toNat ≠ 2 ^ 64 - 1 := fun he ↦ hne (UInt64.toNat_inj.1 he)
  have := nonce.toNat_lt
  rw [UInt64.toNat_add, UInt64.toNat_one]
  exact Nat.mod_eq_of_lt (by omega)

/-! ## The handshake -/

/-- The tokens of the pattern: a key of either kind, or one of the three exchanges with the other
end's. -/
inductive Token
  | e | s | ee | es | se
  deriving DecidableEq, Repr

/-- The XX pattern: three messages, the initiator writing the first and the last. -/
def xxMessage : Nat → List Token
  | 0 => [.e]
  | 1 => [.e, .ee, .s, .es]
  | 2 => [.s, .se]
  | _ => []

/-- One end of a handshake: the chaining key, the hash of all that was said, the keys known so far,
and which message comes next. -/
structure NoiseHandshake where
  ck : Bytes
  h : Bytes
  cs : CipherState
  initiator : Bool
  sPriv : Bytes
  sPub : Bytes
  ePriv : Bytes := zeros dhLen
  ePub : Bytes := zeros dhLen
  haveE : Bool := false
  remoteStatic : Bytes := zeros dhLen
  haveRs : Bool := false
  re : Bytes := zeros dhLen
  haveRe : Bool := false
  messageIndex : Nat := 0
  done : Bool := false
  splitDone : Bool := false
  handshakeHash : Bytes := zeros hashLen
  deriving DecidableEq, Repr

namespace NoiseHandshake

variable (crypto : Crypto)

/-- Both ends take what was said into the hash. -/
def mixHash (hs : NoiseHandshake) (data : Bytes) : NoiseHandshake :=
  { hs with h := crypto.sha256 (hs.h ++ data) }

/-- A handshake before its first message.  The prologue is hashed in, so two ends that were set up
for different purposes fail. -/
def init (initiator : Bool) (staticPriv staticPub prologue : Bytes) : NoiseHandshake :=
  mixHash crypto
    { ck := protocolName, h := protocolName, cs := {}, initiator, sPriv := staticPriv,
      sPub := staticPub } prologue

/-- A shared secret goes into the chaining key, and gives a fresh key to encrypt with. -/
def mixKey (hs : NoiseHandshake) (ikm : Bytes) : Option NoiseHandshake :=
  match crypto.hkdfSha256 hs.ck ikm 2 with
  | [ck, key] => some { hs with ck, cs := CipherState.initKey key }
  | _ => none

/-- What is encrypted is bound to all that was said before it. -/
def encryptAndHash (hs : NoiseHandshake) (plain : Bytes) : Option (Bytes × NoiseHandshake) := do
  let (out, cs) ← hs.cs.encrypt crypto hs.h plain
  pure (out, mixHash crypto { hs with cs } out)

/-- The bytes that came are hashed, and not what was in them. -/
def decryptAndHash (hs : NoiseHandshake) (cipher : Bytes) : Option (Bytes × NoiseHandshake) := do
  guard (¬ (hs.cs.hasKey ∧ cipher.length < aeadTagLen))
  let (out, cs) ← hs.cs.decrypt crypto hs.h cipher
  pure (out, mixHash crypto { hs with cs } cipher)

/-- The ephemeral key is drawn once. -/
def ensureEphemeral (hs : NoiseHandshake) (random : Option Bytes) : Option NoiseHandshake :=
  if hs.haveE then some hs
  else random.map fun ePriv ↦
    { hs with ePriv, ePub := crypto.x25519PublicKey ePriv, haveE := true }

/-- Does this side write the message at `index`?  The initiator writes even, the responder odd. -/
def weWrite (initiator : Bool) (index : Nat) : Bool := decide (index % 2 = 0) == initiator

/-- A DH token: the shared secret of the two keys it names, mixed into the chaining key. -/
def mixDh (hs : NoiseHandshake) : Token → Option NoiseHandshake
  | .ee => do mixKey crypto hs (← crypto.x25519Shared hs.ePriv hs.re)
  | .es => do
    mixKey crypto hs (← crypto.x25519Shared (if hs.initiator then hs.ePriv else hs.sPriv)
      (if hs.initiator then hs.remoteStatic else hs.re))
  | .se => do
    mixKey crypto hs (← crypto.x25519Shared (if hs.initiator then hs.sPriv else hs.ePriv)
      (if hs.initiator then hs.re else hs.remoteStatic))
  | .e | .s => some hs

/-- One token, from the end whose turn it is. -/
def writeToken (random : Option Bytes) (hs : NoiseHandshake) :
    Token → Option (Bytes × NoiseHandshake)
  | .e => do
    let hs ← ensureEphemeral crypto hs random
    pure (hs.ePub, mixHash crypto hs hs.ePub)
  | .s => encryptAndHash crypto hs hs.sPub
  | t => do pure ([], ← mixDh crypto hs t)

/-- The tokens of a message, in the order of the pattern. -/
def writeTokens (random : Option Bytes) (hs : NoiseHandshake) :
    List Token → Option (Bytes × NoiseHandshake)
  | [] => some ([], hs)
  | t :: ts => do
    let (out, hs) ← writeToken crypto random hs t
    let (rest, hs) ← writeTokens random hs ts
    pure (out ++ rest, hs)

/-- The encoded size of a message, which has to fit Noise's limit before anything moves. -/
def messageSize (keyed : Bool) (payloadLen : Nat) : List Token → Nat
  | [] => payloadLen + (if keyed then aeadTagLen else 0)
  | .e :: ts => dhLen + messageSize keyed payloadLen ts
  | .s :: ts => dhLen + (if keyed then aeadTagLen else 0) + messageSize keyed payloadLen ts
  | _ :: ts => messageSize true payloadLen ts

/-- The end of a message: the third one completes the handshake. -/
def advance (hs : NoiseHandshake) : NoiseHandshake :=
  if hs.messageIndex = 2 then
    { hs with done := true, handshakeHash := hs.h, messageIndex := hs.messageIndex + 1 }
  else { hs with messageIndex := hs.messageIndex + 1 }

/-- The next message.  It has to be ours to write, and may not be longer than the protocol allows.
-/
def writeMessage (hs : NoiseHandshake) (random : Option Bytes) (payload : Bytes) :
    Option (Bytes × NoiseHandshake) := do
  guard (¬ hs.done ∧ weWrite hs.initiator hs.messageIndex)
  let tokens := xxMessage hs.messageIndex
  guard (messageSize hs.cs.hasKey payload.length tokens ≤ maxNoiseMessage)
  let (out, hs) ← writeTokens crypto random hs tokens
  let (encPayload, hs) ← encryptAndHash crypto hs payload
  pure (out ++ encPayload, advance hs)

/-- What a token takes off the front of the message. -/
def readToken (hs : NoiseHandshake) (message : Bytes) : Token → Option (Bytes × NoiseHandshake)
  | .e => do
    guard (dhLen ≤ message.length)
    let re := message.take dhLen
    pure (message.drop dhLen, mixHash crypto { hs with re, haveRe := true } re)
  | .s => do
    let slen := if hs.cs.hasKey then dhLen + aeadTagLen else dhLen
    guard (slen ≤ message.length)
    let (rs, hs) ← decryptAndHash crypto hs (message.take slen)
    guard (rs.length = dhLen)
    pure (message.drop slen, { hs with remoteStatic := rs, haveRs := true })
  | t => do pure (message, ← mixDh crypto hs t)

/-- The tokens of a message as the other end reads them, and what is left of it. -/
def readTokens (hs : NoiseHandshake) (message : Bytes) :
    List Token → Option (Bytes × NoiseHandshake)
  | [] => some (message, hs)
  | t :: ts => do
    let (message, hs) ← readToken crypto hs message t
    readTokens hs message ts

/-- The next message, which has to be the other end's. -/
def readMessage (hs : NoiseHandshake) (message : Bytes) : Option (Bytes × NoiseHandshake) := do
  guard (¬ hs.done ∧ ¬ weWrite hs.initiator hs.messageIndex ∧ message.length ≤ maxNoiseMessage)
  let (rest, hs) ← readTokens crypto hs message (xxMessage hs.messageIndex)
  let (payload, hs) ← decryptAndHash crypto hs rest
  pure (payload, advance hs)

/-- The keys a finished handshake hands out, oriented to this side. -/
structure Transport where
  send : CipherState
  recv : CipherState
  udpSend : Bytes
  udpRecv : Bytes
  deriving DecidableEq, Repr

/-- Only after the peer is authenticated, and only once. -/
def split (hs : NoiseHandshake) : Option (Transport × NoiseHandshake) :=
  if ¬ hs.done ∨ hs.splitDone then none
  else match crypto.hkdfSha256 hs.ck (canonicalField udpSubkeyDomain) 2,
      crypto.hkdfSha256 hs.ck [] 2 with
    | [udp₀, udp₁], [out₀, out₁] =>
      let transport : Transport :=
        if hs.initiator then
          { send := .initKey out₀, recv := .initKey out₁, udpSend := udp₀, udpRecv := udp₁ }
        else { send := .initKey out₁, recv := .initKey out₀, udpSend := udp₁, udpRecv := udp₀ }
      some (transport, { hs with splitDone := true })
    | _, _ => none

end NoiseHandshake
end EosMesh
