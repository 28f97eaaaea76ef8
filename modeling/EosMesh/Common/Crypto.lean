import EosMesh.Lib.Codec

/-!
# Crypto primitives, canonical encoding and the ids a key certifies

The primitives of `common/crypto.h` are parameters, gathered in `Crypto` with the sizes their header
documents; nothing else about them is assumed here.  What a result needs of them beyond that, that
two ends compute one secret or that an AEAD opens what it sealed, it names where it is stated.

Over them stand the canonical encoding that every hashed input is built with, and the two ids
`core/identity.cpp` derives from a public key.

* `canonicalField` puts a field behind its length, so that what is hashed can be taken apart again
  in one way only; `Net.CanonicalInputs` has that for every input there is.
* `deriveEpicAccountId` and `deriveProductUserId` are the two ids: the first of the key alone, the
  second of the key and the title.  Each begins with a domain of its own.
* `checksumCrypto` has functions of the right shapes, to run the model on.  They keep nothing
  secret, and no result rests on them.
-/

set_option autoImplicit false

namespace EosMesh

open Lib

/-- The characters of `text`, as the source's string constants hold them. -/
def ascii (text : String) : Bytes := text.toUTF8.toList

/-- How much longer than the plain text a sealed text is. -/
def aeadTagLen : Nat := 16

/-- The wrapped primitives.  Encryption gives the ciphertext and its tag; a shared secret is `none`
when it is the all-zero point, and a decryption `none` when the tag does not match. -/
structure Crypto where
  sha256 : Bytes → Bytes
  hkdfSha256 : (salt ikm : Bytes) → (numOutputs : Nat) → List Bytes
  x25519PublicKey : (secret : Bytes) → Bytes
  x25519Shared : (secret peerPublic : Bytes) → Option Bytes
  aeadEncrypt : (key nonce ad plain : Bytes) → Bytes × Bytes
  aeadDecrypt : (key nonce mac ad cipher : Bytes) → Option Bytes
  length_cipher : ∀ key nonce ad plain, (aeadEncrypt key nonce ad plain).1.length = plain.length
  length_mac : ∀ key nonce ad plain, (aeadEncrypt key nonce ad plain).2.length = aeadTagLen

/-! ## Canonical encoding -/

/-- `canonical_encoder::field`: the length as a big-endian u32, then the bytes. -/
def canonicalField (data : Bytes) : Bytes := beBytes 4 data.length ++ data

/-- `canonical_encoder::field_u64`: a fixed-width number is a field too. -/
def canonicalFieldU64 (value : UInt64) : Bytes := canonicalField (beBytes 8 value.toNat)

/-! ## Ids -/

/-- An id is this many bytes of a digest, rendered as hex. -/
def idBytes : Nat := 16

/-- What the three digests are told apart by. -/
def profileDomain : Bytes := ascii "eosr-profile-v1"
def eaidDomain : Bytes := ascii "eosr-eaid-v1"
def puidDomain : Bytes := ascii "eosr-puid-v1"

/-- A nibble, in lower case. -/
def hexDigit (nibble : Nat) : UInt8 := UInt8.ofNat
    (if nibble < 10 then 48 + nibble else 87 + nibble)

/-- Two digits to a byte. -/
def toHex (data : Bytes) : Bytes :=
  data.flatMap fun b ↦ [hexDigit (b.toNat / 16), hexDigit (b.toNat % 16)]

variable (crypto : Crypto)

/-- The one hash of the static key that both ids hang off. -/
def profileHash (publicKey : Bytes) : Bytes :=
  crypto.sha256 (canonicalField profileDomain ++ canonicalField publicKey)

/-- An id is the beginning of a digest, as text. -/
def idFrom (encoded : Bytes) : Bytes := toHex ((crypto.sha256 encoded).take idBytes)

/-- The account of a key, which is the same in every game. -/
def deriveEpicAccountId (publicKey : Bytes) : Bytes :=
  idFrom crypto (canonicalField eaidDomain ++ canonicalField (profileHash crypto publicKey))

/-- The player of a key in one game, sandbox and deployment. -/
def deriveProductUserId (publicKey productId sandboxId deploymentId : Bytes) : Bytes :=
  idFrom crypto (canonicalField puidDomain ++ canonicalField (profileHash crypto publicKey) ++
    canonicalField productId ++ canonicalField sandboxId ++ canonicalField deploymentId)

/-! ## A stand-in to evaluate with

Checksums in place of digests and tags, sums in place of keys: it protects nothing, but both ends
compute the same with it, a tag that does not match is refused, and a run can be evaluated. -/

/-- The sum of a byte string, as a digest of `n` bytes. -/
def checksum (n : Nat) (data : Bytes) : Bytes := List.replicate n (data.foldl (· + ·) 0)

/-- Functions of the right shapes, to run the model on.  They keep nothing secret. -/
def checksumCrypto : Crypto where
  sha256 := checksum 32
  hkdfSha256 salt ikm numOutputs :=
    (List.range numOutputs).map fun i ↦ checksum 32 (UInt8.ofNat i :: (salt ++ ikm))
  x25519PublicKey secret := secret
  x25519Shared secret peerPublic := some (List.zipWith (· + ·) secret peerPublic)
  aeadEncrypt key nonce ad plain := (plain, checksum aeadTagLen (key ++ nonce ++ ad ++ plain))
  aeadDecrypt key nonce mac ad cipher :=
    if mac = checksum aeadTagLen (key ++ nonce ++ ad ++ cipher) then some cipher else none
  length_cipher _ _ _ _ := rfl
  length_mac _ _ _ _ := List.length_replicate

end EosMesh
