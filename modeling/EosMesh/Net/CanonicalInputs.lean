import EosMesh.Lib.Delimited
import EosMesh.Net.FailClosed

/-!
# The inputs the canonical encoder builds

`canonical_encoder` puts a big-endian length before every field, so an encoding tells its fields
apart whatever is in them.  Four inputs go to the plain hash: the profile's, the two ids' and the
datagram tag's, each under a label of its own.  Two byte strings more are bound to something else
than a hash: the handshake's prologue and a datagram's associated data.

* `field_delimited` is the encoder; everything else here is composed of it.
* `HashInput` gathers what goes to the plain hash, and `encode_injective` keeps all of it apart.
* `canonical_encodings_injective` puts the three together.
-/

set_option autoImplicit false

namespace EosMesh

open Lib

/-- A field whose length its prefix can count. -/
abbrev Field := { data : Bytes // Countable data }

/-- `canonical_encoder::field`. -/
def Field.encode (f : Field) : Bytes := canonicalField f.1

/-- **A field marks its own end.** -/
theorem field_delimited : SelfDelimiting Field.encode := by
  refine SelfDelimiting.of_header (fun f : Field ↦ length_beBytes 4 f.1.length) ?_
    Subtype.val_injective
  intro f g h
  exact beBytes_inj f.2 g.2 h

theorem Field.encode_ne_nil (f : Field) : f.encode ≠ [] := by
  refine List.ne_nil_of_length_pos ?_
  rw [Field.encode, canonicalField, List.length_append, length_beBytes]
  omega

/-- A fixed-width number is a field too. -/
theorem fieldU64_delimited : SelfDelimiting canonicalFieldU64 := by
  have hcountable (n : UInt64) : Countable (beBytes 8 n.toNat) := by
    rw [Countable, length_beBytes]
    norm_num
  intro m n rest rest' h
  obtain ⟨hbytes, hrest⟩ := canonicalField_append_inj (hcountable m) (hcountable n) h
  exact ⟨UInt64.toNat_inj.1 (beBytes_inj m.toNat_lt n.toNat_lt hbytes), hrest⟩

/-! ## What goes to the plain hash -/

/-- What each plain hash is for. -/
inductive HashDomain
  | profile | epicAccountId | productUserId | datagramTag
  deriving DecidableEq, Repr

/-- What a domain is called in the bytes. -/
def HashDomain.label : HashDomain → Bytes
  | .profile => profileDomain
  | .epicAccountId => eaidDomain
  | .productUserId => puidDomain
  | .datagramTag => udpTagDomain

theorem HashDomain.label_countable (d : HashDomain) : Countable d.label := by
  have hshort : d.label.length < 32 := by cases d <;> decide +kernel
  exact hshort.trans (by norm_num)

/-- No label stands for two of them. -/
theorem HashDomain.label_injective : Function.Injective HashDomain.label := by
  intro d d' h
  cases d <;> cases d' <;> first | rfl | exact absurd h (by decide +kernel)

/-- The inputs of the plain hash, with the fields each of them has. -/
inductive HashInput
  | profile (publicKey : Field)
  | epicAccountId (hash : Field)
  | productUserId (hash productId sandboxId deploymentId : Field)
  | datagramTag (key : Field)

namespace HashInput

/-- The domain of an input. -/
def domain : HashInput → HashDomain
  | .profile _ => .profile
  | .epicAccountId _ => .epicAccountId
  | .productUserId .. => .productUserId
  | .datagramTag _ => .datagramTag

/-- The fields of an input, in order. -/
def fields : HashInput → List Field
  | .profile publicKey => [publicKey]
  | .epicAccountId hash => [hash]
  | .productUserId hash productId sandboxId deploymentId =>
    [hash, productId, sandboxId, deploymentId]
  | .datagramTag key => [key]

/-- The bytes hashed: the label, then the fields. -/
def encode (input : HashInput) : Bytes :=
  (⟨input.domain.label, input.domain.label_countable⟩ :: input.fields).flatMap Field.encode

theorem eq_of_domain_fields {a b : HashInput} (hdomain : a.domain = b.domain)
    (hfields : a.fields = b.fields) : a = b := by
  cases a <;> cases b <;> simp_all [domain, fields]

/-- **The label tells the inputs apart, and the prefixes their fields.** -/
theorem encode_injective : Function.Injective encode := by
  intro a b h
  have hlists := field_delimited.flatMap_injective Field.encode_ne_nil h
  injection hlists with hlabel hfields
  exact eq_of_domain_fields (HashDomain.label_injective (Subtype.mk.inj hlabel)) hfields

end HashInput

/-! ### The functions that hash them -/

variable (crypto : Crypto)

theorem profileHash_eq (publicKey : Field) :
    profileHash crypto publicKey.1 = crypto.sha256 (HashInput.profile publicKey).encode := by
  simp [profileHash, HashInput.encode, HashInput.fields, HashInput.domain, HashDomain.label,
    Field.encode]

theorem deriveEpicAccountId_eq (publicKey hash : Field)
    (h : hash.1 = profileHash crypto publicKey.1) :
    deriveEpicAccountId crypto publicKey.1 = idFrom crypto
    (HashInput.epicAccountId hash).encode := by
  simp [deriveEpicAccountId, ← h, HashInput.encode, HashInput.fields, HashInput.domain,
    HashDomain.label, Field.encode]

theorem deriveProductUserId_eq (publicKey hash productId sandboxId deploymentId : Field)
    (h : hash.1 = profileHash crypto publicKey.1) :
    deriveProductUserId crypto publicKey.1 productId.1 sandboxId.1 deploymentId.1 =
      idFrom crypto (HashInput.productUserId hash productId sandboxId deploymentId).encode := by
  simp [deriveProductUserId, ← h, HashInput.encode, HashInput.fields, HashInput.domain,
    HashDomain.label, Field.encode]

theorem tagOfKey_eq (key : Field) :
    tagOfKey crypto key.1 =
      UInt32.ofNat (ofBeBytes ((crypto.sha256 (HashInput.datagramTag key).encode).take 4)) := by
  simp [tagOfKey, HashInput.encode, HashInput.fields, HashInput.domain, HashDomain.label,
    Field.encode]

/-! ## What is bound to something else -/

/-- The prologue of a build that speaks `version`. -/
def prologueAt (version : UInt8) (productId sandboxId deploymentId : Field) : Bytes :=
  canonicalField prologueDomain ++ [version] ++ canonicalField productId.1 ++
    canonicalField sandboxId.1 ++ canonicalField deploymentId.1

/-- Ours, at the version of this build. -/
theorem meshPrologue_eq (productId sandboxId deploymentId : Field) :
    meshPrologue productId.1 sandboxId.1 deploymentId.1 =
      prologueAt wireProtocolVersion productId sandboxId deploymentId := rfl

/-- A bare byte has a fixed width. -/
theorem rawU8_delimited : SelfDelimiting fun b : UInt8 ↦ [b] :=
  SelfDelimiting.of_width (n := 1) (fun _ ↦ rfl) List.singleton_injective

theorem prologueAt_injective :
    Function.Injective fun p : UInt8 × Field × Field × Field ↦
      prologueAt p.1 p.2.1 p.2.2.1 p.2.2.2 := by
  have hfields := rawU8_delimited.pair
    (field_delimited.pair (field_delimited.pair field_delimited))
  intro p q h
  simp only [prologueAt, List.append_assoc] at h
  exact hfields.injective (List.append_cancel_left h)

theorem datagramAd_injective :
    Function.Injective fun p : Field × Field × UInt64 ↦ datagramAd p.1.1 p.2.1.1 p.2.2 := by
  have hfields := field_delimited.pair (field_delimited.pair fieldU64_delimited)
  intro p q h
  simp only [datagramAd, List.append_assoc] at h
  exact hfields.injective h

/-- **The canonical encodings tell their fields, and the plain hash's inputs apart.** -/
theorem canonical_encodings_injective :
    Function.Injective HashInput.encode ∧
    (Function.Injective fun p : Field × Field × Field ↦
      meshPrologue p.1.1 p.2.1.1 p.2.2.1) ∧
    (Function.Injective fun p : UInt8 × Field × Field × Field ↦
      prologueAt p.1 p.2.1 p.2.2.1 p.2.2.2) ∧
    Function.Injective fun p : Field × Field × UInt64 ↦ datagramAd p.1.1 p.2.1.1 p.2.2 := by
  refine ⟨HashInput.encode_injective, ?_, prologueAt_injective, datagramAd_injective⟩
  intro p q h
  have hboth : (wireProtocolVersion, p) = (wireProtocolVersion, q) := prologueAt_injective h
  exact (Prod.mk.inj hboth).2

end EosMesh
