import EosMesh.Common.Crypto
import EosMesh.Core.ConfigStrings
import EosMesh.Lib.Run

/-!
# The profile key and how it is carried

`core/identity.cpp`: a profile is one X25519 secret, and everything else an identity holds is
derived from it and from the title it is bound to.  The secret travels as 64 hex digits, alone or on
the `key` line of a profile file, which its owner may open, comment and copy from one machine to
another.

* `fromHex_toHex` is the round trip of the digits, into whatever buffer they are read.  The buffer
  is an argument of the source's function, so what it held before is one here, and a failed reading
  leaves a part of the key in it.
* `Touched` is what a copy of a profile may have been through: line ends and blanks put behind
  lines, and lines of comment put between them.  `readProfileLines_touched` says that the reader
  cannot tell, and `readProfile_touched` that a profile reads back from any copy of it.
* `Identity` is what an instance is on the mesh, and `Call` what can make it or change it.
  `Derived` is the invariant over these: a key that is held is a key, and the two ids follow from it
  and from the title.
* `importKey_failed`: an import that fails has not touched the identity.
* `identity_keys_carried` puts the three together, for an identity reached by any calls.

A key of zeros stands for none, and is not adopted; the loop that looks for a bit in it is shown to
do just that (`foldl_or_eq_zero_iff`).
-/

set_option autoImplicit false

namespace EosMesh

open Lib

/-- The length of a key in bytes, and how many profiles are tried. -/
def profileKeyLen : Nat := 32
def maxLocalProfiles : Nat := 10

/-- A cleared buffer for a secret. -/
def noSecret : Bytes := List.replicate profileKeyLen 0

/-- The bytes of one secret, as the arrays of the source hold them. -/
abbrev ProfileKey := { secret : Bytes // secret.length = profileKeyLen }

/-! ## Hexadecimal -/

/-- The loop of `from_hex`: a byte is in the buffer as soon as its two digits are read. -/
def fromHexFrom (text : Bytes) : (rounds i : Nat) → (out : Bytes) → Bool × Bytes
  | 0, _, out => (true, out)
  | rounds + 1, i, out =>
    match hexDigitValue (text.getD (i * 2) 0), hexDigitValue (text.getD (i * 2 + 1) 0) with
    | some high, some low =>
      fromHexFrom text rounds (i + 1) (out.set i (UInt8.ofNat ((high <<< 4) ||| low)))
    | _, _ => (false, out)

/-- `from_hex`: whether `text` is that many bytes, and the buffer after reading it. -/
def fromHex (text out : Bytes) (len : Nat) : Bool × Bytes :=
  if text.length ≠ len * 2 then (false, out) else fromHexFrom text len 0 out

theorem hexDigitValue_hexDigit {n : Nat} (h : n < 16) : hexDigitValue (hexDigit n) = some n := by
  have hdigits : ∀ d < 16, hexDigitValue (hexDigit d) = some d := by decide
  exact hdigits n h

theorem length_toHex (data : Bytes) : (toHex data).length = data.length * 2 := by
  induction data with
  | nil => rfl
  | cons b data ih =>
    change ((toHex data).length + 1) + 1 = (data.length + 1) * 2
    omega

/-- The two digits of a byte put together again. -/
theorem ofNat_halves (b : UInt8) :
    UInt8.ofNat (((b.toNat / 16) <<< 4) ||| (b.toNat % 16)) = b := by
  have hlow : b.toNat % 16 < 2 ^ 4 := Nat.mod_lt _ (by norm_num)
  rw [← Nat.shiftLeft_add_eq_or_of_lt hlow, Nat.shiftLeft_eq]
  have hwhole : b.toNat / 16 * 2 ^ 4 + b.toNat % 16 = b.toNat := by omega
  rw [hwhole, UInt8.ofNat_toNat]

/-- By induction on the bytes still to come: those before them are in the buffer. -/
theorem fromHexFrom_toHex (before after tail : Bytes) (h : tail.length = after.length) :
    fromHexFrom (toHex (before ++ after)) after.length before.length (before ++ tail) =
      (true, before ++ after) := by
  induction after generalizing before tail with
  | nil =>
    rw [List.length_eq_zero_iff.1 h]
    rfl
  | cons b after ih =>
    obtain ⟨t, tail, rfl⟩ := List.exists_cons_of_length_eq_add_one h
    have htext : toHex (before ++ b :: after) =
        toHex before ++ hexDigit (b.toNat / 16) :: hexDigit (b.toNat % 16) :: toHex after := by
      simp [toHex]
    have hhigh : (toHex (before ++ b :: after)).getD (before.length * 2) 0 =
        hexDigit (b.toNat / 16) := by
      rw [htext, ← length_toHex]
      simp
    have hlow : (toHex (before ++ b :: after)).getD (before.length * 2 + 1) 0 =
        hexDigit (b.toNat % 16) := by
      rw [htext, ← length_toHex]
      simp
    have hbyte := b.toNat_lt
    rw [List.length_cons, fromHexFrom, hhigh, hlow, hexDigitValue_hexDigit (by omega),
      hexDigitValue_hexDigit (by omega)]
    dsimp only
    rw [ofNat_halves]
    have hset : (before ++ t :: tail).set before.length b = (before ++ [b]) ++ tail := by
      simp
    have hlength : before.length + 1 = (before ++ [b]).length := by simp
    have hsplit : before ++ b :: after = (before ++ [b]) ++ after := by simp
    rw [hset, hlength, hsplit]
    exact ih (before ++ [b]) tail (Nat.succ.inj h)

/-- **The digits of a key read back as the key.** -/
theorem fromHex_toHex {key out : Bytes} (h : out.length = key.length) :
    fromHex (toHex key) out key.length = (true, key) := by
  rw [fromHex, if_neg (not_not.2 (length_toHex key))]
  exact fromHexFrom_toHex [] key out h

/-- The buffer keeps its length, read or not. -/
theorem length_fromHex (text out : Bytes) (len : Nat) :
    (fromHex text out len).2.length = out.length := by
  have hloop (rounds i : Nat) (out : Bytes) :
      (fromHexFrom text rounds i out).2.length = out.length := by
    induction rounds generalizing i out with
    | zero => rfl
    | succ rounds ih =>
      rw [fromHexFrom]
      split
      · rw [ih, List.length_set]
      · rfl
  rw [fromHex]
  split
  · rfl
  · exact hloop len 0 out

/-! ## The profile file -/

/-- The lines `std::getline` gives: an unfinished last one is a line, an empty rest is none. -/
def getLines : Bytes → List Bytes
  | [] => []
  | c :: rest =>
    if c = '\n'.toUInt8 then [] :: getLines rest
    else match getLines rest with
      | [] => [[c]]
      | line :: lines => (c :: line) :: lines

/-- What the reader takes off the end of a line. -/
def isLineEnd (c : UInt8) : Bool := c = '\r'.toUInt8 || c = ' '.toUInt8

/-- What the line with the key begins with. -/
def keyPrefix : Bytes := ascii "key "

/-- The loop of `read_profile`: the first line with a key on it decides. -/
def readProfileLines (secret : Bytes) : List Bytes → Bool × Bytes
  | [] => (false, secret)
  | line :: lines =>
    let line := line.rdropWhile isLineEnd
    if line = [] ∨ line.head? = some '#'.toUInt8 ∨ ¬ keyPrefix.isPrefixOf line then
      readProfileLines secret lines
    else fromHex (line.drop keyPrefix.length) secret profileKeyLen

/-- Whether the text of a profile holds a key, and the key. -/
def readProfile (text secret : Bytes) : Bool × Bytes := readProfileLines secret (getLines text)

/-- What a new profile says to the one who opens it. -/
def profileComment : Bytes :=
  ascii "# EOS Reimagined profile. This key is your identity: keep it secret, and back it up -- there\n" ++
    ascii "# is nobody who can reissue it. Copy this file to another machine to be the same player there."

/-- The text `write_profile` puts in the file. -/
def profileText (secret : Bytes) : Bytes :=
  profileComment ++ '\n'.toUInt8 :: keyPrefix ++ toHex secret ++ ['\n'.toUInt8]

/-- Lines as a file holds them. -/
def unlines (lines : List Bytes) : Bytes := lines.flatMap (· ++ ['\n'.toUInt8])

theorem getLines_append {line : Bytes} (h : '\n'.toUInt8 ∉ line) (rest : Bytes) :
    getLines (line ++ '\n'.toUInt8 :: rest) = line :: getLines rest := by
  induction line with
  | nil => rfl
  | cons c line ih =>
    rw [List.mem_cons, not_or] at h
    rw [List.cons_append, getLines, if_neg (Ne.symm h.1), ih h.2]

theorem getLines_unlines {lines : List Bytes} (h : ∀ line ∈ lines, '\n'.toUInt8 ∉ line) :
    getLines (unlines lines) = lines := by
  induction lines with
  | nil => rfl
  | cons line lines ih =>
    rw [unlines, List.flatMap_cons, List.append_assoc]
    refine (getLines_append (h line List.mem_cons_self) _).trans ?_
    exact congrArg (line :: ·) (ih fun l hl ↦ h l (List.mem_cons_of_mem _ hl))

/-! ### What a copy of it may have been through -/

/-- Line ends and blanks put behind lines, and comment lines put between them. -/
inductive Touched : List Bytes → List Bytes → Prop
  | nil : Touched [] []
  | line {lines lines' : List Bytes} (line trail : Bytes) (htrail : ∀ c ∈ trail, isLineEnd c = true)
      (h : Touched lines lines') : Touched (line :: lines) ((line ++ trail) :: lines')
  | comment {lines lines' : List Bytes} (comment : Bytes) (hline : '\n'.toUInt8 ∉ comment)
      (h : Touched lines lines') : Touched lines (('#'.toUInt8 :: comment) :: lines')

theorem Touched.refl (lines : List Bytes) : Touched lines lines := by
  induction lines with
  | nil => exact .nil
  | cons line lines ih =>
    have h := Touched.line line [] nofun ih
    rwa [List.append_nil] at h

theorem rdropWhile_trail {line trail : Bytes} (h : ∀ c ∈ trail, isLineEnd c = true) :
    (line ++ trail).rdropWhile isLineEnd = line.rdropWhile isLineEnd := by
  induction trail using List.reverseRecOn with
  | nil => rw [List.append_nil]
  | append_singleton trail c ih =>
    rw [← List.append_assoc, List.rdropWhile_concat_pos _ _ _ (h c (by simp))]
    exact ih fun d hd ↦ h d (List.mem_append_left _ hd)

/-- A comment is one whatever stands at its end. -/
theorem head?_rdropWhile_comment (comment : Bytes) :
    (('#'.toUInt8 :: comment).rdropWhile isLineEnd).head? = some '#'.toUInt8 := by
  induction comment using List.reverseRecOn with
  | nil => rfl
  | append_singleton comment c ih =>
    rw [← List.cons_append]
    by_cases h : isLineEnd c = true
    · rw [List.rdropWhile_concat_pos _ _ _ h]
      exact ih
    · rw [List.rdropWhile_concat_neg _ _ _ h]
      rfl

/-- **The reader cannot tell a touched copy.** -/
theorem readProfileLines_touched {lines lines' : List Bytes} (h : Touched lines lines')
    (secret : Bytes) : readProfileLines secret lines' = readProfileLines secret lines := by
  induction h with
  | nil => rfl
  | line line trail htrail _ ih =>
    rw [readProfileLines, readProfileLines, rdropWhile_trail htrail, ih]
  | comment comment _ _ ih =>
    rw [readProfileLines, if_pos (.inr (.inl (head?_rdropWhile_comment comment))), ih]

/-! ### What the writer puts in it -/

/-- The lines of a profile file: two of comment, then the key. -/
def profileLines (secret : Bytes) : List Bytes :=
  [ascii "# EOS Reimagined profile. This key is your identity: keep it secret, and back it up -- there",
    ascii "# is nobody who can reissue it. Copy this file to another machine to be the same player there.",
    keyPrefix ++ toHex secret]

theorem profileText_eq (secret : Bytes) : profileText secret = unlines (profileLines secret) := by
  have hcomment : profileComment ++ ['\n'.toUInt8] =
      unlines ((profileLines secret).take 2) := by
    rw [profileLines, List.take_succ_cons, List.take_succ_cons, List.take_zero]
    decide +kernel
  have hsplit : unlines (profileLines secret) = unlines ((profileLines secret).take 2) ++
      (keyPrefix ++ toHex secret ++ ['\n'.toUInt8]) := by
    simp [unlines, profileLines]
  rw [hsplit, ← hcomment, profileText]
  simp

/-- A digit is no character the reader looks for. -/
theorem hexDigit_plain (n : Nat) (h : n < 16) :
    hexDigit n ≠ '\n'.toUInt8 ∧ isLineEnd (hexDigit n) = false := by
  have hdigits : ∀ d < 16, hexDigit d ≠ '\n'.toUInt8 ∧ isLineEnd (hexDigit d) = false := by decide
  exact hdigits n h

theorem toHex_plain {data : Bytes} {c : UInt8} (h : c ∈ toHex data) :
    c ≠ '\n'.toUInt8 ∧ isLineEnd c = false := by
  obtain ⟨b, -, hc⟩ := List.mem_flatMap.1 h
  have hbyte := b.toNat_lt
  simp only [List.mem_cons, List.not_mem_nil, or_false] at hc
  rcases hc with rfl | rfl
  · exact hexDigit_plain _ (by omega)
  · exact hexDigit_plain _ (by omega)

theorem newline_not_mem_profileLines (secret : Bytes) :
    ∀ line ∈ profileLines secret, '\n'.toUInt8 ∉ line := by
  have hkey : '\n'.toUInt8 ∉ keyPrefix := by decide +kernel
  intro line hline
  simp only [profileLines, List.mem_cons, List.not_mem_nil, or_false] at hline
  rcases hline with rfl | rfl | rfl
  · decide +kernel
  · decide +kernel
  · rw [List.mem_append, not_or]
    exact ⟨hkey, fun h ↦ (toHex_plain h).1 rfl⟩

/-- The key line is read whole: it does not end in anything the reader takes off. -/
theorem readProfileLines_profileLines (key : ProfileKey) {secret : Bytes}
    (h : secret.length = profileKeyLen) :
    readProfileLines secret (profileLines key.1) = (true, key.1) := by
  have hcomment (text : Bytes) (lines : List Bytes) (hhead : text.head? = some '#'.toUInt8) :
      readProfileLines secret (text :: lines) = readProfileLines secret lines := by
    obtain ⟨comment, rfl⟩ : ∃ comment, text = '#'.toUInt8 :: comment := by
      cases text with
      | nil => cases hhead
      | cons c comment =>
        rw [List.head?_cons, Option.some.injEq] at hhead
        exact ⟨comment, by rw [hhead]⟩
    rw [readProfileLines, if_pos (.inr (.inl (head?_rdropWhile_comment comment)))]
  have hdigits : toHex key.1 ≠ [] := by
    refine List.ne_nil_of_length_pos ?_
    rw [length_toHex, key.2]
    decide
  have hwhole : (keyPrefix ++ toHex key.1).rdropWhile isLineEnd = keyPrefix ++ toHex key.1 := by
    rw [List.rdropWhile_eq_self_iff]
    intro hne
    rw [List.getLast_append_of_ne_nil _ hdigits, (toHex_plain (List.getLast_mem hdigits)).2]
    exact Bool.false_ne_true
  have hkept : ¬ (keyPrefix ++ toHex key.1 = [] ∨
      (keyPrefix ++ toHex key.1).head? = some '#'.toUInt8 ∨
      ¬ keyPrefix.isPrefixOf (keyPrefix ++ toHex key.1)) := by
    have hhead : (keyPrefix ++ toHex key.1).head? = some 'k'.toUInt8 := by
      rw [List.head?_append, show keyPrefix.head? = some 'k'.toUInt8 by decide +kernel]
      rfl
    rintro (h | h | h)
    · exact List.append_ne_nil_of_right_ne_nil _ hdigits h
    · rw [hhead] at h
      exact absurd h (by decide)
    · exact h (List.isPrefixOf_iff_prefix.2 (List.prefix_append _ _))
  rw [profileLines, hcomment _ _ (by decide +kernel), hcomment _ _ (by decide +kernel),
    readProfileLines, hwhole, if_neg hkept, List.drop_left]
  exact (congrArg (fromHex _ secret) key.2).symm.trans (fromHex_toHex (h.trans key.2.symm))

/-- **A profile reads back from any copy of it.** -/
theorem readProfile_touched (key : ProfileKey) {secret : Bytes} {lines : List Bytes}
    (h : Touched (profileLines key.1) lines) (hlength : secret.length = profileKeyLen) :
    readProfile (unlines lines) secret = (true, key.1) := by
  have hlines : ∀ line ∈ lines, '\n'.toUInt8 ∉ line := by
    have hown := newline_not_mem_profileLines key.1
    generalize profileLines key.1 = own at h hown
    induction h with
    | nil => exact nofun
    | line line trail htrail _ ih =>
      intro l hl
      rcases List.mem_cons.1 hl with rfl | hl
      · rw [List.mem_append, not_or]
        exact ⟨hown line List.mem_cons_self, fun hmem ↦ absurd (htrail _ hmem) (by decide)⟩
      · exact ih (fun l hl ↦ hown l (List.mem_cons_of_mem _ hl)) l hl
    | comment comment hline _ ih =>
      intro l hl
      rcases List.mem_cons.1 hl with rfl | hl
      · rw [List.mem_cons, not_or]
        exact ⟨by decide, hline⟩
      · exact ih hown l hl
  rw [readProfile, getLines_unlines hlines, readProfileLines_touched h]
  exact readProfileLines_profileLines key hlength

/-! ## The identity -/

/-- What an instance is on the mesh.  The slot it holds on disk is not among it. -/
structure Identity where
  secret : Bytes := noSecret
  publicKey : Bytes := noSecret
  hasKey : Bool := false
  persistent : Bool := false
  productId : Bytes := []
  sandboxId : Bytes := []
  deploymentId : Bytes := []
  epicAccountId : Bytes := []
  productUserId : Bytes := []
  deriving DecidableEq, Repr

/-- One profile slot as `load_or_create` finds it: whether another instance holds it, what its key
file holds, what the platform's randomness gives and whether the file can be written. -/
structure ProfileSlot where
  free : Bool
  file : Option Bytes
  random : Option ProfileKey
  writable : Bool

/-- What reading the key file of a slot gives. -/
def ProfileSlot.read (slot : ProfileSlot) : Bool × Bytes :=
  match slot.file with
  | none => (false, noSecret)
  | some text => readProfile text noSecret

namespace Identity

variable (crypto : Crypto)

/-- Both ids again, from the public key; without a key there are none. -/
def rederive (self : Identity) : Identity :=
  if ¬ self.hasKey then { self with epicAccountId := [], productUserId := [] }
  else
    { self with
      epicAccountId := deriveEpicAccountId crypto self.publicKey
      productUserId := deriveProductUserId crypto self.publicKey self.productId self.sandboxId
        self.deploymentId }

/-- A key of zeros is no key. -/
def adoptKey (self : Identity) (secret : Bytes) : Bool × Identity :=
  let bits := secret.foldl (· ||| ·) 0
  if bits = 0 then (false, self)
  else
    (true, rederive crypto
      { self with secret, publicKey := crypto.x25519PublicKey secret, hasKey := true })

/-- The game is known now, and the product user id depends on it. -/
def bindProduct (self : Identity) (productId sandboxId deploymentId : Bytes) : Identity :=
  rederive crypto { self with productId, sandboxId, deploymentId }

/-- A key of this run only. -/
def generateEphemeral (self : Identity) (random : Option ProfileKey) : Bool × Identity :=
  let (ok, self) := match random with
    | none => (false, self)
    | some secret => adoptKey crypto self secret.1
  (ok, { self with persistent := false })

/-- A key that was read, if it was. -/
def adoptRead (self : Identity) (read : Bool × Bytes) : Bool × Identity :=
  if read.1 then adoptKey crypto self read.2 else (false, self)

/-- The first free slot: its key if it holds one, else a new one. -/
def takeSlot (self : Identity) : List ProfileSlot → Bool × Identity
  | [] => (false, self)
  | slot :: slots =>
    if ¬ slot.free then takeSlot self slots
    else
      let loaded := adoptRead crypto self slot.read
      if loaded.1 then (true, { loaded.2 with persistent := true })
      else match slot.random with
        | none => (false, loaded.2)
        | some secret =>
          let minted := adoptKey crypto loaded.2 secret.1
          if minted.1 then (true, { minted.2 with persistent := slot.writable })
          else (false, minted.2)

/-- The first profile that is ours to take, up to a bound on how many are looked at. -/
def loadOrCreate (self : Identity) (directory : Bool) (slots : List ProfileSlot) :
    Bool × Identity :=
  if ¬ directory then (false, self) else takeSlot crypto self (slots.take maxLocalProfiles)

/-- The key as a text, which is all that the identity is. -/
def exportKey (self : Identity) : Bytes := if ¬ self.hasKey then [] else toHex self.secret

/-- The key is adopted in memory only, so that it no longer counts as persistent. -/
def importKey (self : Identity) (hex : Bytes) : Bool × Identity :=
  let adopted := adoptRead crypto self (fromHex hex noSecret profileKeyLen)
  (adopted.1, if adopted.1 then { adopted.2 with persistent := false } else adopted.2)

/-! ### What the key decides -/

/-- A key held is a key, and the rest follows from it and the title. -/
structure Derived (who : Identity) : Prop where
  length : who.hasKey = true → who.secret.length = profileKeyLen
  nonzero : who.hasKey = true → who.secret.foldl (· ||| ·) 0 ≠ 0
  publicKey : who.hasKey = true → who.publicKey = crypto.x25519PublicKey who.secret
  epicAccountId : who.hasKey = true →
    who.epicAccountId = deriveEpicAccountId crypto who.publicKey
  productUserId : who.hasKey = true →
    who.productUserId = deriveProductUserId crypto who.publicKey who.productId who.sandboxId
      who.deploymentId

variable {crypto} {self : Identity}

theorem derived_start : Derived crypto {} := ⟨nofun, nofun, nofun, nofun, nofun⟩

theorem Derived.persistent (h : Derived crypto self) (b : Bool) :
    Derived crypto { self with persistent := b } :=
  ⟨h.length, h.nonzero, h.publicKey, h.epicAccountId, h.productUserId⟩

/-- What a key that is adopted leaves: the key, the ids derived from it and nothing else changed. -/
theorem adoptKey_eq {secret : Bytes} (h : secret.foldl (· ||| ·) 0 ≠ 0) :
    adoptKey crypto self secret = (true,
      { self with
        secret
        publicKey := crypto.x25519PublicKey secret
        hasKey := true
        epicAccountId := deriveEpicAccountId crypto (crypto.x25519PublicKey secret)
        productUserId := deriveProductUserId crypto (crypto.x25519PublicKey secret) self.productId
          self.sandboxId self.deploymentId }) := by
  rw [adoptKey, if_neg h, rederive, if_neg (not_not.2 rfl)]

theorem adoptKey_cases (crypto : Crypto) (self : Identity) (secret : Bytes) :
    adoptKey crypto self secret = (false, self) ∨
      secret.foldl (· ||| ·) 0 ≠ 0 ∧ (adoptKey crypto self secret).1 = true := by
  by_cases h : secret.foldl (· ||| ·) 0 = 0
  · refine .inl ?_
    rw [adoptKey]
    exact if_pos h
  · exact .inr ⟨h, by rw [adoptKey_eq h]⟩

theorem Derived.adoptKey {secret : Bytes} (h : Derived crypto self)
    (hlength : secret.length = profileKeyLen) : Derived crypto (adoptKey crypto self secret).2 := by
  rcases adoptKey_cases crypto self secret with hno | ⟨hne, -⟩
  · rw [hno]
    exact h
  · rw [adoptKey_eq hne]
    exact ⟨fun _ ↦ hlength, fun _ ↦ hne, fun _ ↦ rfl, fun _ ↦ rfl, fun _ ↦ rfl⟩

theorem Derived.bindProduct (h : Derived crypto self) (productId sandboxId deploymentId : Bytes) :
    Derived crypto (bindProduct crypto self productId sandboxId deploymentId) := by
  rw [Identity.bindProduct, rederive]
  split
  · rename_i hnone
    exact ⟨fun hkey ↦ absurd hkey hnone, fun hkey ↦ absurd hkey hnone,
      fun hkey ↦ absurd hkey hnone, fun hkey ↦ absurd hkey hnone, fun hkey ↦ absurd hkey hnone⟩
  · exact ⟨h.length, h.nonzero, h.publicKey, fun _ ↦ rfl, fun _ ↦ rfl⟩

theorem Derived.generateEphemeral (h : Derived crypto self) (random : Option ProfileKey) :
    Derived crypto (generateEphemeral crypto self random).2 := by
  cases random with
  | none => exact h.persistent false
  | some secret => exact (h.adoptKey secret.2).persistent false

theorem length_readProfile (text secret : Bytes) :
    (readProfile text secret).2.length = secret.length := by
  have hlines (lines : List Bytes) : (readProfileLines secret lines).2.length = secret.length := by
    induction lines with
    | nil => rfl
    | cons line lines ih =>
      rw [readProfileLines]
      split
      · exact ih
      · exact length_fromHex _ _ _
  exact hlines _

theorem ProfileSlot.length_read (slot : ProfileSlot) : slot.read.2.length = profileKeyLen := by
  rw [ProfileSlot.read]
  cases slot.file with
  | none => exact List.length_replicate
  | some text => exact (length_readProfile text _).trans List.length_replicate

theorem Derived.adoptRead {read : Bool × Bytes} (h : Derived crypto self)
    (hlength : read.2.length = profileKeyLen) : Derived crypto (adoptRead crypto self read).2 := by
  rw [Identity.adoptRead]
  split
  · exact h.adoptKey hlength
  · exact h

theorem Derived.takeSlot (h : Derived crypto self) (slots : List ProfileSlot) :
    Derived crypto (takeSlot crypto self slots).2 := by
  induction slots with
  | nil => exact h
  | cons slot slots ih =>
    have hloaded := h.adoptRead (ProfileSlot.length_read slot)
    rw [Identity.takeSlot]
    split
    · exact ih
    · dsimp only
      split
      · exact hloaded.persistent true
      · cases slot.random with
        | none => exact hloaded
        | some secret =>
          have hminted := hloaded.adoptKey secret.2
          dsimp only
          split
          · exact hminted.persistent slot.writable
          · exact hminted

theorem Derived.importKey (h : Derived crypto self) (hex : Bytes) :
    Derived crypto (importKey crypto self hex).2 := by
  have hlength : (fromHex hex noSecret profileKeyLen).2.length = profileKeyLen :=
    (length_fromHex _ _ _).trans List.length_replicate
  have hadopted := h.adoptRead hlength
  rw [Identity.importKey]
  dsimp only
  split
  · exact hadopted.persistent false
  · exact hadopted

/-! ### An identity over its calls -/

/-- The calls that make an identity or change it. -/
inductive Call
  | adoptKey (secret : ProfileKey)
  | bindProduct (productId sandboxId deploymentId : Bytes)
  | generateEphemeral (random : Option ProfileKey)
  | loadOrCreate (directory : Bool) (slots : List ProfileSlot)
  | importKey (hex : Bytes)

/-- One call. -/
def call (crypto : Crypto) (self : Identity) : Call → Option Identity
  | .adoptKey secret => some (adoptKey crypto self secret.1).2
  | .bindProduct productId sandboxId deploymentId =>
    some (bindProduct crypto self productId sandboxId deploymentId)
  | .generateEphemeral random => some (generateEphemeral crypto self random).2
  | .loadOrCreate directory slots => some (loadOrCreate crypto self directory slots).2
  | .importKey hex => some (importKey crypto self hex).2

theorem Derived.call {c : Call} {self' : Identity} (h : Derived crypto self)
    (hstep : call crypto self c = some self') : Derived crypto self' := by
  cases c with
  | adoptKey secret => cases hstep; exact h.adoptKey secret.2
  | bindProduct productId sandboxId deploymentId => cases hstep; exact h.bindProduct _ _ _
  | generateEphemeral random => cases hstep; exact h.generateEphemeral random
  | loadOrCreate directory slots =>
    cases hstep
    rw [loadOrCreate]
    split
    · exact h
    · exact h.takeSlot _
  | importKey hex => cases hstep; exact h.importKey hex

theorem derived_of_reaches (h : Reaches (call crypto) always {} self) : Derived crypto self :=
  h.invariant derived_start fun _ _ _ h _ hstep ↦ h.call hstep

/-! ### Carrying the key -/

/-- Importing the digits of a key is adopting it, but for the persistence. -/
theorem importKey_toHex (key : ProfileKey) (h : key.1.foldl (· ||| ·) 0 ≠ 0) :
    importKey crypto self (toHex key.1) =
      (true, { (adoptKey crypto self key.1).2 with persistent := false }) := by
  have hread : fromHex (toHex key.1) (noSecret) profileKeyLen = (true, key.1) :=
    (congrArg (fromHex _ _) key.2).symm.trans
      (fromHex_toHex (List.length_replicate.trans key.2.symm))
  rw [importKey, hread, adoptRead, if_pos rfl, adoptKey_eq h]
  rfl

/-- An import that fails has not touched the identity. -/
theorem importKey_failed {hex : Bytes} (h : (importKey crypto self hex).1 = false) :
    (importKey crypto self hex).2 = self := by
  rw [importKey] at h ⊢
  dsimp only at h ⊢
  rw [h, if_neg Bool.false_ne_true]
  rw [adoptRead] at h ⊢
  split at h
  · rename_i hread
    rw [if_pos hread]
    rcases adoptKey_cases crypto self (fromHex hex noSecret profileKeyLen).2 with hno | ⟨-, hok⟩
    · rw [hno]
    · rw [hok] at h
      cases h
  · rename_i hunread
    rw [if_neg hunread]

/-- No bit set means no byte set. -/
theorem foldl_or_eq_zero_iff (data : Bytes) :
    data.foldl (· ||| ·) 0 = 0 ↔ data = List.replicate data.length 0 := by
  have hfold (data : Bytes) (bits : UInt8) :
      data.foldl (· ||| ·) bits = 0 ↔ bits = 0 ∧ data = List.replicate data.length 0 := by
    induction data generalizing bits with
    | nil => simp
    | cons b data ih =>
      rw [List.foldl_cons, ih, UInt8.or_eq_zero_iff, List.length_cons, List.replicate_succ,
        List.cons.injEq, and_assoc]
  rw [hfold]
  exact and_iff_right rfl

/-- **Identity keys round-trip, and an import that fails leaves no trace.** -/
theorem identity_keys_carried (crypto : Crypto) :
    (∀ (key : ProfileKey) (self : Identity), key.1 ≠ noSecret →
      (adoptKey crypto self key.1).1 = true ∧ (adoptKey crypto self key.1).2.hasKey = true ∧
        (adoptKey crypto self key.1).2.secret = key.1) ∧
    (∀ source target : Identity, Reaches (call crypto) always {} source →
      source.hasKey = true → (target.productId, target.sandboxId, target.deploymentId) =
        (source.productId, source.sandboxId, source.deploymentId) →
      ∃ carried, importKey crypto target (exportKey source) = (true, carried) ∧
        carried.hasKey = true ∧ carried.secret = source.secret ∧
        carried.publicKey = source.publicKey ∧ carried.epicAccountId = source.epicAccountId ∧
        carried.productUserId = source.productUserId) ∧
    (∀ (key : ProfileKey) (lines : List Bytes) (buffer : ProfileKey),
      Touched (profileLines key.1) lines → readProfile (unlines lines) buffer.1 = (true, key.1)) ∧
    (∀ (key : ProfileKey) (buffer : ProfileKey),
      readProfile (profileText key.1) buffer.1 = (true, key.1)) ∧
    ∀ (self : Identity) (hex : Bytes), (importKey crypto self hex).1 = false →
      (importKey crypto self hex).2 = self := by
  refine ⟨fun key self hkey ↦ ?_, fun source target hreaches hkey htitle ↦ ?_,
    fun key lines buffer h ↦ readProfile_touched key h buffer.2, fun key buffer ↦ ?_,
    fun self hex h ↦ importKey_failed h⟩
  · have hbits : key.1.foldl (· ||| ·) 0 ≠ 0 := by
      intro hzero
      exact hkey (((foldl_or_eq_zero_iff key.1).1 hzero).trans (by rw [key.2, noSecret]))
    rw [adoptKey_eq hbits]
    exact ⟨rfl, rfl, rfl⟩
  · have hderived := derived_of_reaches hreaches
    have hexport : exportKey source = toHex source.secret := if_neg (not_not.2 hkey)
    obtain ⟨hproduct, hsandbox, hdeployment⟩ :
        target.productId = source.productId ∧ target.sandboxId = source.sandboxId ∧
          target.deploymentId = source.deploymentId := by
      simpa using htitle
    have himport := @importKey_toHex crypto target ⟨_, hderived.length hkey⟩ (hderived.nonzero hkey)
    refine ⟨_, by rw [hexport]; exact himport, ?_⟩
    rw [adoptKey_eq (hderived.nonzero hkey)]
    refine ⟨rfl, rfl, (hderived.publicKey hkey).symm, ?_, ?_⟩
    · rw [hderived.epicAccountId hkey, hderived.publicKey hkey]
    · rw [hderived.productUserId hkey, hderived.publicKey hkey, ← hproduct, ← hsandbox,
        ← hdeployment]
  · rw [profileText_eq]
    exact readProfile_touched key (.refl _) buffer.2

/-- The key that is the one byte over and over. -/
def steadyKey (b : UInt8) : ProfileKey := ⟨List.replicate profileKeyLen b, List.length_replicate⟩

/-- A profile file that went through a Windows machine, with a line of comment before it. -/
def copiedLines (key : ProfileKey) : List Bytes :=
  ('#'.toUInt8 :: ascii " my other machine") :: (profileLines key.1).map (· ++ ['\r'.toUInt8])

theorem touched_copiedLines (key : ProfileKey) :
    Touched (profileLines key.1) (copiedLines key) := by
  refine .comment _ (by decide +kernel) ?_
  induction profileLines key.1 with
  | nil => exact .nil
  | cons line lines ih => exact .line line _ (by simp [isLineEnd]) ih

/-- One instance makes a key of its own, and takes over that of another of the same title. -/
theorem identity_keys_carried_exported : ∃ source target carried : Identity,
    Reaches (call checksumCrypto) always {} source ∧
      Reaches (call checksumCrypto) always {} target ∧ target.publicKey ≠ source.publicKey ∧
      importKey checksumCrypto target (exportKey source) = (true, carried) ∧
      carried.epicAccountId = source.epicAccountId ∧
      carried.productUserId = source.productUserId ∧
      readProfile (unlines (copiedLines (steadyKey 5))) noSecret = (true, source.secret) := by
  obtain ⟨source, hsource, hkey, hsecret, hpublic, htitle⟩ :=
    exists_reaches (call checksumCrypto) always {}
      (fun who ↦ who.hasKey = true ∧ who.secret = (steadyKey 5).1 ∧
        who.publicKey = (steadyKey 5).1 ∧
        (who.productId, who.sandboxId, who.deploymentId) = ([9], [8], [7]))
      [.bindProduct [9] [8] [7], .generateEphemeral (some (steadyKey 5))] (by decide +kernel)
      (meets_always _ _)
  obtain ⟨target, htarget, hpublic', htitle'⟩ :=
    exists_reaches (call checksumCrypto) always {}
      (fun who ↦ who.publicKey = (steadyKey 6).1 ∧
        (who.productId, who.sandboxId, who.deploymentId) = ([9], [8], [7]))
      [.adoptKey (steadyKey 6), .bindProduct [9] [8] [7]] (by decide +kernel)
      (meets_always _ _)
  obtain ⟨-, hcarried, hread, -⟩ := identity_keys_carried checksumCrypto
  obtain ⟨carried, himport, -, -, -, haccount, huser⟩ :=
    hcarried source target hsource hkey (htitle'.trans htitle.symm)
  refine ⟨source, target, carried, hsource, htarget, ?_, himport, haccount, huser, ?_⟩
  · rw [hpublic, hpublic']
    decide
  · rw [hsecret]
    exact hread (steadyKey 5) _ ⟨noSecret, rfl⟩ (touched_copiedLines (steadyKey 5))

end Identity
end EosMesh
