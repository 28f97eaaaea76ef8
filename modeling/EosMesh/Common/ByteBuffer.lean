import EosMesh.Lib.Codec

/-!
# The byte buffer

`common/byte_buffer.cpp`: the little-endian wire format every message is written in.  A
`byte_writer` is modelled by the bytes a `put` call appends, so a run of `put` calls is a
concatenation; a `byte_reader` getter is a `Reader` over bytes, which on success gives the value
and the bytes behind the cursor and on failure nothing (the source leaves its cursor untouched).

* `putU16`, `putU32`, `putU64` are fixed-width little-endian, `putVar` is unsigned LEB128 and
  `putSvar` zig-zags a signed value first.
* For each `put` there is one round-trip lemma, in the form `Decodes get (put a) a`.
-/

set_option autoImplicit false

namespace EosMesh

open Lib

/-- A getter of `byte_reader`. -/
abbrev ByteReader (α : Type) := Reader UInt8 α

/-! ## Fixed-width integers -/

/-- Whole numbers of a fixed width, the least significant byte first. -/
def putU8 (value : UInt8) : Bytes := [value]

def putU16 (value : UInt16) : Bytes := leBytes 2 value.toNat

def putU32 (value : UInt32) : Bytes := leBytes 4 value.toNat

def putU64 (value : UInt64) : Bytes := leBytes 8 value.toNat

/-- Each width is read by as many bytes as it has. -/
def getU8 : ByteReader UInt8 := readOne

def getU16 : ByteReader UInt16 := do
  let bytes ← readExactly 2
  pure (UInt16.ofNat (ofLeBytes bytes))

def getU32 : ByteReader UInt32 := do
  let bytes ← readExactly 4
  pure (UInt32.ofNat (ofLeBytes bytes))

def getU64 : ByteReader UInt64 := do
  let bytes ← readExactly 8
  pure (UInt64.ofNat (ofLeBytes bytes))

theorem decodes_getU8 (value : UInt8) : Decodes getU8 (putU8 value) value :=
  Decodes.readOne value

theorem decodes_getU16 (value : UInt16) : Decodes getU16 (putU16 value) value := by
  have h := Decodes.readExactly (putU16 value)
  rw [putU16, length_leBytes] at h
  have := h.map (f := fun bytes ↦ UInt16.ofNat (ofLeBytes bytes))
  rwa [ofLeBytes_leBytes value.toNat_lt, UInt16.ofNat_toNat] at this

theorem decodes_getU32 (value : UInt32) : Decodes getU32 (putU32 value) value := by
  have h := Decodes.readExactly (putU32 value)
  rw [putU32, length_leBytes] at h
  have := h.map (f := fun bytes ↦ UInt32.ofNat (ofLeBytes bytes))
  rwa [ofLeBytes_leBytes value.toNat_lt, UInt32.ofNat_toNat] at this

theorem decodes_getU64 (value : UInt64) : Decodes getU64 (putU64 value) value := by
  have h := Decodes.readExactly (putU64 value)
  rw [putU64, length_leBytes] at h
  have := h.map (f := fun bytes ↦ UInt64.ofNat (ofLeBytes bytes))
  rwa [ofLeBytes_leBytes value.toNat_lt, UInt64.ofNat_toNat] at this

/-! ## LEB128

Seven bits a byte, lowest group first, with the high bit set on every byte but the last.  The loops
are bounded by ten rounds: that is what `putVar` needs for a `u64` (`putVarLoop_stable`) and where
`getVar` gives up. -/

/-- The longest varint a `u64` needs. -/
def varintMaxBytes : Nat := 10

/-- Seven bits to a byte, and a bit that says whether more follow. -/
def putVarLoop : Nat → Nat → Bytes
  | 0, _ => []
  | fuel + 1, value =>
    if value ≥ 0x80 then UInt8.ofNat (value % 0x80 + 0x80) :: putVarLoop fuel (value >>> 7)
    else [UInt8.ofNat value]

/-- A number of 64 bits, in as few bytes as will hold it. -/
def putVar (value : UInt64) : Bytes := putVarLoop varintMaxBytes value.toNat

/-- `shift` counts up by seven from zero; `value` holds the groups read so far. -/
def getVarLoop : Nat → Nat → Nat → ByteReader UInt64
  | 0, _, _ => failure
  | fuel + 1, shift, value => do
    let byte ← getU8
    let group := byte.toNat % 0x80
    -- A u64 varint has only one payload bit available in its tenth byte.
    check (¬ (shift = 63 ∧ group > 1))
    let value := value + group <<< shift
    if byte.toNat < 0x80 then pure (UInt64.ofNat value) else getVarLoop fuel (shift + 7) value

/-- A number as `putVar` writes it, or any longer form that still fits. -/
def getVar : ByteReader UInt64 := getVarLoop varintMaxBytes 0 0

theorem putVarLoop_succ (fuel value : Nat) : putVarLoop (fuel + 1) value =
    if value ≥ 0x80 then UInt8.ofNat (value % 0x80 + 0x80) :: putVarLoop fuel (value >>> 7)
    else [UInt8.ofNat value] := rfl

/-- Rounds beyond what the value needs change nothing. -/
theorem putVarLoop_stable {fuel value : Nat} (hfuel : 0 < fuel) (h : value < 2 ^ (7 * fuel)) :
    putVarLoop (fuel + 1) value = putVarLoop fuel value := by
  induction fuel generalizing value with
  | zero => omega
  | succ fuel ih =>
    rw [putVarLoop_succ (fuel + 1) value, putVarLoop_succ fuel value]
    by_cases hbig : value ≥ 0x80
    · have hq : value >>> 7 < 2 ^ (7 * fuel) := by
        rw [Nat.shiftRight_eq_div_pow, Nat.div_lt_iff_lt_mul (by decide), ← pow_add]
        exact h
      have hpos : 0 < fuel := by
        rcases Nat.eq_zero_or_pos fuel with rfl | hpos
        · norm_num at h; omega
        · exact hpos
      rw [if_pos hbig, if_pos hbig, ih hpos hq]
    · rw [if_neg hbig, if_neg hbig]

/-- One round of the reader undoes one round of the writer, so the loops agree at every depth: with
`fuel` rounds left the reader stands at bit `70 - 7 * fuel`. -/
theorem decodes_getVarLoop {fuel value acc shift : Nat} (hfuel : 0 < fuel)
    (hshift : shift + 7 * fuel = 70) (h : value < 2 ^ (64 - shift)) :
    Decodes (getVarLoop fuel shift acc) (putVarLoop fuel value)
      (UInt64.ofNat (acc + value <<< shift)) := by
  induction fuel generalizing value acc shift with
  | zero => omega
  | succ fuel ih =>
    rw [getVarLoop, putVarLoop_succ]
    by_cases hbig : value ≥ 0x80
    · have hs : shift ≤ 56 := by
        by_contra hs
        have hp : 2 ^ (64 - shift) ≤ 2 ^ 7 := Nat.pow_le_pow_right (by omega) (by omega)
        omega
      have hq : value >>> 7 < 2 ^ (64 - (shift + 7)) := by
        rw [Nat.shiftRight_eq_div_pow, Nat.div_lt_iff_lt_mul (by decide), ← pow_add]
        rwa [show 64 - (shift + 7) + 7 = 64 - shift by omega]
      have hbyte : (UInt8.ofNat (value % 0x80 + 0x80)).toNat = value % 0x80 + 0x80 := by
        rw [UInt8.toNat_ofNat']; omega
      have hsum : acc + (value % 0x80) <<< shift + (value >>> 7) <<< (shift + 7)
          = acc + value <<< shift := by
        simp only [Nat.shiftLeft_eq, Nat.shiftRight_eq_div_pow, pow_add]
        have := Nat.mod_add_div value 128
        rw [add_assoc, show value / 2 ^ 7 * (2 ^ shift * 2 ^ 7) = 128 * (value / 128) * 2 ^ shift by
          norm_num; ring, ← add_mul]
        norm_num [this]
      rw [if_pos hbig, ← List.singleton_append]
      refine (decodes_getU8 _).bind ?_
      simp only [hbyte, Nat.add_mod_right, Nat.mod_mod, show ¬ value % 0x80 + 0x80 < 0x80 by omega,
        if_false]
      rw [← hsum]
      exact Decodes.check_bind (by omega) (ih (by omega) (by omega) hq)
    · have hbyte : (UInt8.ofNat value).toNat = value := by
        rw [UInt8.toNat_ofNat']; omega
      rw [if_neg hbig, ← List.append_nil [UInt8.ofNat value]]
      refine (decodes_getU8 _).bind ?_
      have hsmall : value % 0x80 = value := Nat.mod_eq_of_lt (by omega)
      simp only [hbyte, hsmall, show value < 0x80 by omega, if_true]
      refine Decodes.check_bind ?_ (Decodes.pure _)
      rintro ⟨rfl, hgt⟩
      norm_num at h
      omega

theorem decodes_getVar (value : UInt64) : Decodes getVar (putVar value) value := by
  have : Decodes getVar (putVar value) (UInt64.ofNat (0 + value.toNat <<< 0)) :=
    decodes_getVarLoop (by decide) (by decide) value.toNat_lt
  rwa [Nat.shiftLeft_zero, Nat.zero_add, UInt64.ofNat_toNat] at this

theorem putVar_ne_nil (value : UInt64) : putVar value ≠ [] := by
  rw [putVar, varintMaxBytes, putVarLoop_succ]
  split <;> simp

/-! ## Signed varints, booleans and doubles -/

/-- All ones when `negative`, else zero. -/
def signFill (negative : Bool) : UInt64 := if negative then ~~~ 0 else 0

/-- Zig-zag: small magnitudes of either sign become small codes. -/
def zigzag (value : Int64) : UInt64 :=
  (value.toUInt64 <<< 1) ^^^ signFill (decide (value < 0))

/-- Back from the zig-zag, by the bits as the source does it. -/
def unzigzag (zig : UInt64) : Int64 :=
  ((zig >>> 1) ^^^ (~~~ (zig &&& 1) + 1)).toInt64

/-- A signed number, small ones of either sign in few bytes. -/
def putSvar (value : Int64) : Bytes := putVar (zigzag value)

/-- A signed number. -/
def getSvar : ByteReader Int64 := do
  let zig ← getVar
  pure (unzigzag zig)

/-- A word whose bits are all `b`. -/
def fillBits (b : Bool) : BitVec 64 := if b then BitVec.allOnes 64 else 0

theorem getLsbD_fillBits (b : Bool) {i : Nat} (hi : i < 64) : (fillBits b).getLsbD i = b := by
  cases b with
  | false => simp [fillBits]
  | true => rw [fillBits, if_pos rfl, BitVec.getLsbD_allOnes, decide_eq_true hi]

/-- Bit zero of the zig-zag code says whether the value was negative, so the reader rebuilds the
same fill the writer used. -/
theorem zigzag_low_bit (v : BitVec 64) (b : Bool) :
    ~~~ (((v <<< 1) ^^^ fillBits b) &&& 1#64) + 1#64 = fillBits b := by
  have hlow : ((v <<< 1) ^^^ fillBits b) &&& 1#64 = if b then 1#64 else 0#64 := by
    apply BitVec.eq_of_getLsbD_eq
    intro i hi
    rw [BitVec.getLsbD_and, BitVec.getLsbD_xor, getLsbD_fillBits b hi]
    cases b <;> rcases i with _ | i <;> simp
  rw [hlow]
  cases b <;> decide

/-- Bit `i` of the value sits at bit `i + 1` of the code, and the sign bit is the fill itself. -/
theorem zigzag_high_bits (v : BitVec 64) :
    (((v <<< 1) ^^^ fillBits v.msb) >>> 1) ^^^ fillBits v.msb = v := by
  apply BitVec.eq_of_getLsbD_eq
  intro i hi
  rw [BitVec.getLsbD_xor, getLsbD_fillBits _ hi, BitVec.getLsbD_ushiftRight, BitVec.getLsbD_xor]
  by_cases h : i = 63
  · subst h
    rw [BitVec.getLsbD_of_ge _ _ (by decide), BitVec.getLsbD_of_ge _ _ (by decide),
      BitVec.msb_eq_getLsbD_last]
    simp
  · have h1 : 1 + i < 64 := by omega
    rw [getLsbD_fillBits _ h1]
    simp [h1, BitVec.getLsbD_eq_getElem hi]

theorem toBitVec_signFill (value : Int64) :
    (signFill (decide (value < 0))).toBitVec = fillBits value.toBitVec.msb := by
  have hneg : value < 0 ↔ value.toBitVec.msb = true := by
    rw [Int64.lt_iff_toInt_lt, BitVec.msb_eq_toInt]
    simp
  by_cases hv : value < 0
  · rw [decide_eq_true hv, hneg.1 hv]
    decide
  · rw [decide_eq_false hv, Bool.eq_false_iff.2 (hneg.not.1 hv)]
    decide

theorem unzigzag_zigzag (value : Int64) : unzigzag (zigzag value) = value := by
  have hhigh := zigzag_high_bits value.toBitVec
  have hlow := zigzag_low_bit value.toBitVec value.toBitVec.msb
  have hfill := toBitVec_signFill value
  rw [unzigzag, zigzag]
  generalize signFill (decide (value < 0)) = fill at hfill ⊢
  rw [← hfill] at hhigh hlow
  apply Int64.toBitVec_inj.1
  simpa using (congrArg₂ (· ^^^ ·) rfl hlow).trans hhigh

theorem decodes_getSvar (value : Int64) : Decodes getSvar (putSvar value) value := by
  have h := (decodes_getVar (zigzag value)).map (f := unzigzag)
  rwa [unzigzag_zigzag] at h

/-- A flag takes one byte. -/
def putBool (value : Bool) : Bytes := [if value then 1 else 0]

/-- Any byte but zero is true. -/
def getBool : ByteReader Bool := do
  let value ← getU8
  pure (value != 0)

theorem decodes_getBool (value : Bool) : Decodes getBool (putBool value) value := by
  have := (decodes_getU8 (if value then 1 else 0)).map (f := fun v ↦ v != 0)
  cases value <;> exact this

/-- Doubles travel as their IEEE-754 bit pattern, which is all this model keeps of one. -/
def putF64 (bits : UInt64) : Bytes := putU64 bits

/-- A double travels as its bits, which is how it is kept here. -/
def getF64 : ByteReader UInt64 := getU64

/-! ## Length-prefixed bytes -/

/-- `put_bytes` and `put_string`, which write the same thing. -/
def putBytes (data : Bytes) : Bytes := putVar (UInt64.ofNat data.length) ++ data

/-- A text behind its length, which may not exceed what is left. -/
def getBytes : ByteReader Bytes := do
  let len ← getVar
  let left ← remaining
  check (len.toNat ≤ left)
  readExactly len.toNat

/-- A byte string comes back whole.  The bound is the range of `std::size_t`. -/
theorem decodes_getBytes {data : Bytes} (h : data.length < 2 ^ 64) :
    Decodes getBytes (putBytes data) data := by
  have hlen : (UInt64.ofNat data.length).toNat = data.length := by
    rw [UInt64.toNat_ofNat']
    exact Nat.mod_eq_of_lt h
  refine (decodes_getVar _).bind (Decodes.remaining_bind fun left hleft ↦ ?_)
  rw [hlen]
  exact Decodes.check_bind hleft (Decodes.readExactly data)

theorem putBytes_ne_nil (data : Bytes) : putBytes data ≠ [] := by
  rw [putBytes, ne_eq, List.append_eq_nil_iff]
  exact fun h ↦ putVar_ne_nil _ h.1

end EosMesh
