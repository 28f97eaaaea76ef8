import EosMesh.Common.ByteBuffer

/-!
# The cursor of a byte reader

`byte_reader` as it is: a position that moves while a getter reads, an output that is written at the
end, and a position that is put back where a getter has read ahead and fails.  The models of the
messages read with `ByteReader` instead, which is a function from the bytes to a value and the rest;
this module is why they may.

* `ByteCursor` is the buffer with the position, and a `Getter` what a getter does to it: whether it
  succeeded, where the position is then, and what is in the output.
* `IsVarint` says which bytes encode which number, in groups of seven bits with the lowest first,
  and `getVar_run_iff` is what `getVar` accepts: at most ten bytes, with a value below 2^64.  The
  tenth byte has room for one bit, which is the case the induction ends in.
* `Refines` ties a getter to the `ByteReader` of its name: it reads what the reader reads, and where
  the reader gives nothing the position and the output are what they were.  `getVarLoop_refines` is
  the one that is not a line: the two loops go round together, and a failure goes back to where the
  first began.
* `GivesBack` and `Untouched` are what the decoders rely on, and `byte_reader_exact` collects it:
  what a writer has put comes back, whatever follows it, and a getter that fails changes nothing.
-/

set_option autoImplicit false

namespace EosMesh

open Lib

/-! ## Varints -/

/-- The bytes of a varint, and the number they encode. -/
inductive IsVarint : Bytes → Nat → Prop
  | last {b : UInt8} (h : b.toNat < 0x80) : IsVarint [b] b.toNat
  | more {b : UInt8} {enc : Bytes} {value : Nat} (h : 0x80 ≤ b.toNat) (hrest : IsVarint enc value) :
    IsVarint (b :: enc) (b.toNat % 0x80 + 0x80 * value)

theorem IsVarint.ne_nil {enc : Bytes} {value : Nat} (h : IsVarint enc value) : enc ≠ [] := by
  cases h <;> exact List.cons_ne_nil _ _

theorem getVarLoop_run_cons (fuel shift acc : Nat) (b : UInt8) (input : Bytes) :
    (getVarLoop (fuel + 1) shift acc).run (b :: input) =
      if shift = 63 ∧ b.toNat % 0x80 > 1 then none
      else if b.toNat < 0x80 then
        some (UInt64.ofNat (acc + (b.toNat % 0x80) <<< shift), input)
      else (getVarLoop fuel (shift + 7) (acc + (b.toNat % 0x80) <<< shift)).run input := by
  have hread : (getVarLoop (fuel + 1) shift acc).run (b :: input) =
      (check (¬ (shift = 63 ∧ b.toNat % 0x80 > 1)) >>= fun _ ↦
        if b.toNat < 0x80 then pure (UInt64.ofNat (acc + (b.toNat % 0x80) <<< shift))
        else getVarLoop fuel (shift + 7) (acc + (b.toNat % 0x80) <<< shift) : ByteReader UInt64).run
          input := rfl
  rw [hread, check]
  by_cases hcheck : shift = 63 ∧ b.toNat % 0x80 > 1
  · rw [if_neg (not_not.2 hcheck), if_pos hcheck]
    rfl
  · rw [if_pos hcheck, if_neg hcheck, pure_bind]
    by_cases hlast : b.toNat < 0x80
    · rw [if_pos hlast, if_pos hlast]
      rfl
    · rw [if_neg hlast, if_neg hlast]

/-- With `fuel` rounds left the loop stands at bit `70 - 7 * fuel`, and what it still accepts is a
varint of that many bytes that fits into the bits above. -/
theorem getVarLoop_run_iff {fuel shift : Nat} (hshift : shift + 7 * fuel = 70) (acc : Nat)
    (input : Bytes) (v : UInt64) (rest : Bytes) :
    (getVarLoop fuel shift acc).run input = some (v, rest) ↔
      ∃ enc value, input = enc ++ rest ∧ enc.length ≤ fuel ∧ IsVarint enc value ∧
        value < 2 ^ (64 - shift) ∧ v = UInt64.ofNat (acc + value <<< shift) := by
  induction fuel generalizing shift acc input with
  | zero =>
    refine iff_of_false nofun ?_
    rintro ⟨enc, value, -, hlength, hvarint, -⟩
    exact hvarint.ne_nil (List.length_eq_zero_iff.1 (Nat.le_zero.1 hlength))
  | succ fuel ih =>
    cases input with
    | nil =>
      refine iff_of_false nofun ?_
      rintro ⟨enc, value, hinput, -, hvarint, -⟩
      exact hvarint.ne_nil (List.append_eq_nil_iff.1 hinput.symm).1
    | cons b input =>
      have hgroup : b.toNat % 0x80 < 0x80 := Nat.mod_lt _ (by decide)
      rw [getVarLoop_run_cons]
      by_cases hcheck : shift = 63 ∧ b.toNat % 0x80 > 1
      · -- The tenth byte has one bit for the value.
        obtain ⟨rfl, hbig⟩ := hcheck
        rw [if_pos ⟨rfl, hbig⟩]
        refine iff_of_false nofun ?_
        rintro ⟨enc, value, hinput, hlength, hvarint, hvalue, -⟩
        cases hvarint with
        | last hlow =>
          obtain ⟨rfl, -⟩ := List.cons.inj hinput
          rw [Nat.mod_eq_of_lt hlow] at hbig
          norm_num at hvalue
          omega
        | more hhigh hmore =>
          have := List.length_pos_iff.2 hmore.ne_nil
          rw [List.length_cons] at hlength
          omega
      · rw [if_neg hcheck]
        have hroom : b.toNat % 0x80 < 2 ^ (64 - shift) := by
          by_cases hlast : shift = 63
          · rw [hlast]
            have : ¬ b.toNat % 0x80 > 1 := fun h ↦ hcheck ⟨hlast, h⟩
            norm_num
            omega
          · have hpow : 2 ^ 7 ≤ 2 ^ (64 - shift) := Nat.pow_le_pow_right (by decide) (by omega)
            omega
        by_cases hlow : b.toNat < 0x80
        · rw [if_pos hlow, Nat.mod_eq_of_lt hlow] at *
          constructor
          · intro h
            obtain ⟨rfl, rfl⟩ := Prod.mk.inj (Option.some_inj.1 h)
            exact ⟨[b], b.toNat, rfl, by simp, .last hlow, hroom, rfl⟩
          · rintro ⟨enc, value, hinput, -, hvarint, -, rfl⟩
            cases hvarint with
            | last _ =>
              obtain ⟨rfl, rfl⟩ := List.cons.inj hinput
              rfl
            | more hhigh _ =>
              obtain ⟨rfl, -⟩ := List.cons.inj hinput
              omega
        · rw [if_neg hlow, ih (by omega)]
          have hsum (value : Nat) : acc + (b.toNat % 0x80) <<< shift + value <<< (shift + 7) =
              acc + (b.toNat % 0x80 + 0x80 * value) <<< shift := by
            simp only [Nat.shiftLeft_eq, pow_add]
            ring
          constructor
          · rintro ⟨enc, value, rfl, hlength, hvarint, hvalue, rfl⟩
            refine ⟨b :: enc, _, rfl, by rw [List.length_cons]; omega,
              .more (not_lt.1 hlow) hvarint, ?_, by rw [hsum]⟩
            have hpos := List.length_pos_iff.2 hvarint.ne_nil
            have hsplit : 2 ^ (64 - shift) = 0x80 * 2 ^ (64 - (shift + 7)) := by
              rw [show 64 - shift = 7 + (64 - (shift + 7)) by omega, pow_add]
              norm_num
            omega
          · rintro ⟨enc, value, hinput, hlength, hvarint, hvalue, rfl⟩
            cases hvarint with
            | last hlow' =>
              obtain ⟨rfl, -⟩ := List.cons.inj hinput
              exact absurd hlow' hlow
            | @more b' enc value hhigh hmore =>
              obtain ⟨rfl, hbehind⟩ := List.cons.inj hinput
              have hpos := List.length_pos_iff.2 hmore.ne_nil
              rw [List.length_cons] at hlength
              have hsplit : 2 ^ (64 - shift) = 0x80 * 2 ^ (64 - (shift + 7)) := by
                rw [show 64 - shift = 7 + (64 - (shift + 7)) by omega, pow_add]
                norm_num
              exact ⟨enc, value, hbehind, by omega, hmore, by omega, by rw [hsum]⟩

/-- `getVar` accepts the varints of at most ten bytes whose value is a u64. -/
theorem getVar_run_iff (input : Bytes) (v : UInt64) (rest : Bytes) :
    getVar.run input = some (v, rest) ↔
      ∃ enc, input = enc ++ rest ∧ enc.length ≤ varintMaxBytes ∧ IsVarint enc v.toNat := by
  rw [getVar, getVarLoop_run_iff (by decide)]
  constructor
  · rintro ⟨enc, value, hinput, hlength, hvarint, hvalue, rfl⟩
    refine ⟨enc, hinput, hlength, ?_⟩
    rw [Nat.shiftLeft_zero, Nat.zero_add, UInt64.toNat_ofNat', Nat.mod_eq_of_lt hvalue]
    exact hvarint
  · rintro ⟨enc, hinput, hlength, hvarint⟩
    refine ⟨enc, v.toNat, hinput, hlength, hvarint, v.toNat_lt, ?_⟩
    rw [Nat.shiftLeft_zero, Nat.zero_add, UInt64.ofNat_toNat]

/-! ## Cursors -/

/-- A position in a buffer. -/
structure ByteCursor (data : Bytes) where
  pos : Nat
  inside : pos ≤ data.length

namespace ByteCursor

variable {data : Bytes}

/-- How many bytes are left. -/
def remaining (r : ByteCursor data) : Nat := data.length - r.pos

/-- What has not been read. -/
def rest (r : ByteCursor data) : Bytes := data.drop r.pos

/-- The cursor moves on, by no more than what is left. -/
def advance (r : ByteCursor data) (n : Nat) (h : n ≤ r.remaining) : ByteCursor data where
  pos := r.pos + n
  inside := by
    have hinside := r.inside
    rw [remaining] at h
    omega

/-- The next `n` bytes. -/
def ahead (r : ByteCursor data) (n : Nat) : Bytes := (data.drop r.pos).take n

/-- What a getter does: whether it succeeded, the position, and the output. -/
abbrev Getter (data : Bytes) (α : Type) := ByteCursor data → α → Bool × ByteCursor data × α

/-- The loop of the fixed-width getters: each byte at its place, the lowest first. -/
def gather (bytes : Bytes) : Nat :=
  (bytes.zipIdx).foldl (fun value byte ↦ value ||| byte.1.toNat <<< (byte.2 * 8)) 0

/-- A getter of a fixed number of bytes. -/
def getFixed {α : Type} (size : Nat) (convert : Nat → α) : Getter data α := fun r out ↦
  if h : size ≤ r.remaining then (true, r.advance size h, convert (gather (r.ahead size)))
  else (false, r, out)

/-- Each width is read by as many bytes as it has. -/
def getU8 : Getter data UInt8 := getFixed 1 UInt8.ofNat

def getU16 : Getter data UInt16 := getFixed 2 UInt16.ofNat

def getU32 : Getter data UInt32 := getFixed 4 UInt32.ofNat

def getU64 : Getter data UInt64 := getFixed 8 UInt64.ofNat

/-- The loop of `get_var`, which runs while `shift` is below 64: ten rounds at most. A failure goes
back to where it started. -/
def getVarLoop (start : ByteCursor data) (out : UInt64) :
    (rounds : Nat) → ByteCursor data → (value : UInt64) → (shift : Nat) →
      Bool × ByteCursor data × UInt64
  | 0, _, _, _ => (false, start, out)
  | rounds + 1, r, value, shift =>
    if h : r.pos < data.length then
      let byte := data[r.pos]
      let r := r.advance 1 (by rw [remaining]; omega)
      if shift = 63 ∧ byte &&& 0x7f > 1 then (false, start, out)
      else
        let value := value ||| ((byte &&& 0x7f).toUInt64 <<< UInt64.ofNat shift)
        if byte &&& 0x80 = 0 then (true, r, value)
        else getVarLoop start out rounds r value (shift + 7)
    else (false, start, out)

/-- A number of up to ten bytes.  The output stays as it was unless the number ends well. -/
def getVar : Getter data UInt64 := fun r out ↦ getVarLoop r out varintMaxBytes r 0 0

/-- A signed number, out of its zig-zag. -/
def getSvar : Getter data Int64 := fun r out ↦
  match r.getVar 0 with
  | (false, r, _) => (false, r, out)
  | (true, r, zig) => (true, r, unzigzag zig)

/-- Any byte but zero is true. -/
def getBool : Getter data Bool := fun r out ↦
  match r.getU8 0 with
  | (false, r, _) => (false, r, out)
  | (true, r, value) => (true, r, value != 0)

/-- The bit pattern of a double. -/
def getF64 : Getter data UInt64 := fun r out ↦
  match r.getU64 0 with
  | (false, r, _) => (false, r, out)
  | (true, r, bits) => (true, r, bits)

/-- `get_bytes` and `get_string`, which read the same thing. -/
def getBytes : Getter data Bytes := fun start out ↦
  match start.getVar 0 with
  | (false, r, _) => (false, r, out)
  | (true, r, len) =>
    if h : len.toNat ≤ r.remaining then (true, r.advance len.toNat h, r.ahead len.toNat)
    else (false, start, out)

/-! ## What a getter reads -/

/-- A getter reads what the reader reads, and where that gives nothing it leaves the position and
the output as they were. -/
def Refines {α : Type} (g : Getter data α) (reader : ByteReader α) : Prop :=
  ∀ r out, (reader.run r.rest = none ∧ g r out = (false, r, out)) ∨
    ∃ a r', reader.run r.rest = some (a, r'.rest) ∧ g r out = (true, r', a)

variable {r : ByteCursor data}

theorem rest_length (r : ByteCursor data) : r.rest.length = r.remaining := List.length_drop

theorem rest_advance {n : Nat} (h : n ≤ r.remaining) : (r.advance n h).rest = r.rest.drop n := by
  rw [rest, rest, advance, List.drop_drop]

theorem ahead_eq (r : ByteCursor data) (n : Nat) : r.ahead n = r.rest.take n := rfl

/-- The bytes do not overlap, so gathering them is adding them up. -/
theorem gather_eq (bytes : Bytes) : gather bytes = ofLeBytes bytes := by
  have hloop : ∀ (bytes : Bytes) (k acc : Nat), acc < 2 ^ (k * 8) →
      (bytes.zipIdx k).foldl (fun value byte ↦ value ||| byte.1.toNat <<< (byte.2 * 8)) acc =
        acc + ofLeBytes bytes * 2 ^ (k * 8) := by
    intro bytes
    induction bytes with
    | nil => intro k acc _; simp [ofLeBytes]
    | cons b bytes ih =>
      intro k acc hacc
      have hor : acc ||| b.toNat <<< (k * 8) = acc + b.toNat * 2 ^ (k * 8) := by
        rw [Nat.shiftLeft_eq, Nat.or_comm, mul_comm, ← Nat.two_pow_add_eq_or_of_lt hacc, add_comm]
      have hb := b.toNat_lt
      have hnext : acc + b.toNat * 2 ^ (k * 8) < 2 ^ ((k + 1) * 8) := by
        calc acc + b.toNat * 2 ^ (k * 8) < (b.toNat + 1) * 2 ^ (k * 8) := by
              rw [add_one_mul, add_comm]
              exact Nat.add_lt_add_left hacc _
          _ ≤ 2 ^ 8 * 2 ^ (k * 8) := Nat.mul_le_mul_right _ hb
          _ = 2 ^ ((k + 1) * 8) := by rw [← pow_add, add_mul, add_comm]
      rw [List.zipIdx_cons, List.foldl_cons, hor, ih (k + 1) _ hnext, ofLeBytes, add_mul k, pow_add]
      ring
  have h := hloop bytes 0 0 (by decide)
  simpa [gather] using h

theorem getFixed_refines {α : Type} (size : Nat) (convert : Nat → α) :
    Refines (getFixed size convert : Getter data α)
      (do let bytes ← readExactly size; pure (convert (ofLeBytes bytes))) := by
  intro r out
  have hrun : (do let bytes ← readExactly size; pure (convert (ofLeBytes bytes)) :
      ByteReader α).run r.rest = if size ≤ r.rest.length then
        some (convert (ofLeBytes (r.rest.take size)), r.rest.drop size) else none := by
    show (if size ≤ r.rest.length then some (r.rest.take size,
      r.rest.drop size) else none).bind _ = _
    split <;> rfl
  rw [hrun, rest_length, getFixed]
  by_cases hsize : size ≤ r.remaining
  · rw [if_pos hsize, dif_pos hsize]
    exact .inr ⟨_, _, by rw [rest_advance hsize], by rw [gather_eq, ahead_eq]⟩
  · rw [if_neg hsize, dif_neg hsize]
    exact .inl ⟨rfl, rfl⟩

/-- A group of seven bits goes above those that are there. -/
theorem or_group {value : UInt64} {byte : UInt8} {shift : Nat} (hvalue : value.toNat < 2 ^ shift)
    (hshift : shift ≤ 56 ∨ shift = 63 ∧ byte.toNat % 0x80 ≤ 1) :
    (value ||| ((byte &&& 0x7f).toUInt64 <<< UInt64.ofNat shift)).toNat =
      value.toNat + (byte.toNat % 0x80) <<< shift := by
  have hgroup : (byte &&& 0x7f).toNat = byte.toNat % 0x80 := by
    rw [UInt8.toNat_and]
    exact Nat.and_two_pow_sub_one_eq_mod byte.toNat 7
  have hsmall : (byte.toNat % 0x80) * 2 ^ shift < 2 ^ 64 := by
    rcases hshift with hshift | ⟨rfl, hone⟩
    · calc (byte.toNat % 0x80) * 2 ^ shift < 0x80 * 2 ^ shift :=
            Nat.mul_lt_mul_of_pos_right (Nat.mod_lt _ (by decide)) (Nat.two_pow_pos _)
        _ ≤ 0x80 * 2 ^ 56 := Nat.mul_le_mul_left _ (Nat.pow_le_pow_right (by decide) hshift)
        _ ≤ 2 ^ 64 := by norm_num
    · calc (byte.toNat % 0x80) * 2 ^ 63 ≤ 1 * 2 ^ 63 := Nat.mul_le_mul_right _ hone
        _ < 2 ^ 64 := by norm_num
  have hmod : (UInt64.ofNat shift).toNat % 64 = shift := by
    have hlt : shift < 64 := by omega
    rw [UInt64.toNat_ofNat', Nat.mod_eq_of_lt (hlt.trans (by decide)), Nat.mod_eq_of_lt hlt]
  rw [UInt64.toNat_or, UInt64.toNat_shiftLeft, UInt8.toNat_toUInt64, hgroup, hmod, Nat.shiftLeft_eq,
    Nat.mod_eq_of_lt hsmall, Nat.or_comm, mul_comm, ← Nat.two_pow_add_eq_or_of_lt hvalue, add_comm]

theorem group_gt_one (byte : UInt8) : byte &&& 0x7f > 1 ↔ byte.toNat % 0x80 > 1 := by
  have hgroup : (byte &&& 0x7f).toNat = byte.toNat % 0x80 := by
    rw [UInt8.toNat_and]
    exact Nat.and_two_pow_sub_one_eq_mod byte.toNat 7
  rw [gt_iff_lt, UInt8.lt_iff_toNat_lt, hgroup]
  rfl

theorem more_bit_clear (byte : UInt8) : byte &&& 0x80 = 0 ↔ byte.toNat < 0x80 := by
  revert byte
  decide +kernel

/-- The two loops go round together. -/
theorem getVarLoop_refines (start : ByteCursor data) (out : UInt64) {rounds shift : Nat}
    (hshift : shift + 7 * rounds = 70) (r : ByteCursor data) {value : UInt64}
    (hvalue : value.toNat < 2 ^ shift) :
    ((EosMesh.getVarLoop rounds shift value.toNat).run r.rest = none ∧
        getVarLoop start out rounds r value shift = (false, start, out)) ∨
      ∃ a r', (EosMesh.getVarLoop rounds shift value.toNat).run r.rest = some (a, r'.rest) ∧
        getVarLoop start out rounds r value shift = (true, r', a) := by
  induction rounds generalizing r value shift with
  | zero => exact .inl ⟨rfl, rfl⟩
  | succ rounds ih =>
    rw [getVarLoop]
    by_cases hmore : r.pos < data.length
    · rw [dif_pos hmore]
      dsimp only
      set byte := data[r.pos]
      have hone : 1 ≤ r.remaining := by rw [remaining]; omega
      have hrest : r.rest = byte :: (r.advance 1 hone).rest := by
        rw [rest_advance, rest, List.drop_eq_getElem_cons hmore]
        rfl
      rw [hrest, getVarLoop_run_cons]
      by_cases htenth : shift = 63 ∧ byte &&& 0x7f > 1
      · rw [if_pos htenth, if_pos ⟨htenth.1, (group_gt_one byte).1 htenth.2⟩]
        exact .inl ⟨rfl, rfl⟩
      · have hfits : ¬ (shift = 63 ∧ byte.toNat % 0x80 > 1) := fun h ↦
          htenth ⟨h.1, (group_gt_one byte).2 h.2⟩
        rw [if_neg htenth, if_neg hfits]
        have hsum := @or_group value byte shift hvalue (by omega)
        by_cases hlast : byte &&& 0x80 = 0
        · rw [if_pos hlast, if_pos ((more_bit_clear byte).1 hlast)]
          refine .inr ⟨_, _, rfl, ?_⟩
          rw [← hsum, UInt64.ofNat_toNat]
        · rw [if_neg hlast, if_neg fun h ↦ hlast ((more_bit_clear byte).2 h), ← hsum]
          refine ih (by omega) _ ?_
          rw [hsum, Nat.shiftLeft_eq, pow_add]
          have hgroup : byte.toNat % 0x80 < 0x80 := Nat.mod_lt _ (by decide)
          calc value.toNat + byte.toNat % 0x80 * 2 ^ shift
              < (byte.toNat % 0x80 + 1) * 2 ^ shift := by
                rw [add_one_mul, add_comm]
                exact Nat.add_lt_add_left hvalue _
            _ ≤ 2 ^ 7 * 2 ^ shift := Nat.mul_le_mul_right _ hgroup
            _ = 2 ^ shift * 2 ^ 7 := mul_comm _ _
    · rw [dif_neg hmore]
      have hrest : r.rest = [] := List.drop_eq_nil_of_le (not_lt.1 hmore)
      rw [hrest]
      exact .inl ⟨rfl, rfl⟩

theorem getVar_refines : Refines (getVar : Getter data UInt64) EosMesh.getVar := by
  intro r out
  exact @getVarLoop_refines _ r out _ _ (by decide) r 0 (by decide)

theorem getSvar_refines : Refines (getSvar : Getter data Int64) EosMesh.getSvar := by
  intro r out
  have hrun : EosMesh.getSvar.run r.rest =
      (EosMesh.getVar.run r.rest).bind fun read ↦ some (unzigzag read.1, read.2) := rfl
  rw [hrun, getSvar]
  rcases getVar_refines r 0 with ⟨hnone, hg⟩ | ⟨zig, r', hsome, hg⟩
  · rw [hnone, hg]
    exact .inl ⟨rfl, rfl⟩
  · rw [hsome, hg]
    exact .inr ⟨_, r', rfl, rfl⟩

theorem getU8_refines : Refines (getU8 : Getter data UInt8) EosMesh.getU8 := by
  intro r out
  have hsame : EosMesh.getU8.run r.rest =
      (do let bytes ← readExactly 1; pure (UInt8.ofNat (ofLeBytes bytes)) : ByteReader UInt8).run
        r.rest := by
    cases r.rest with
    | nil => rfl
    | cons b input =>
      show some (b, input) = some (UInt8.ofNat (b.toNat + 256 * 0), input)
      rw [mul_zero, add_zero, UInt8.ofNat_toNat]
  rw [hsame]
  exact getFixed_refines 1 UInt8.ofNat r out

theorem getU16_refines : Refines (getU16 : Getter data UInt16) EosMesh.getU16 :=
  getFixed_refines 2 UInt16.ofNat

theorem getU32_refines : Refines (getU32 : Getter data UInt32) EosMesh.getU32 :=
  getFixed_refines 4 UInt32.ofNat

theorem getU64_refines : Refines (getU64 : Getter data UInt64) EosMesh.getU64 :=
  getFixed_refines 8 UInt64.ofNat

theorem getBool_refines : Refines (getBool : Getter data Bool) EosMesh.getBool := by
  intro r out
  have hrun : EosMesh.getBool.run r.rest =
      (EosMesh.getU8.run r.rest).bind fun read ↦ some (read.1 != 0, read.2) := rfl
  rw [hrun, getBool]
  rcases getU8_refines r 0 with ⟨hnone, hg⟩ | ⟨value, r', hsome, hg⟩
  · rw [hnone, hg]
    exact .inl ⟨rfl, rfl⟩
  · rw [hsome, hg]
    exact .inr ⟨_, r', rfl, rfl⟩

theorem getF64_refines : Refines (getF64 : Getter data UInt64) EosMesh.getF64 := by
  intro r out
  rw [EosMesh.getF64, getF64]
  rcases getU64_refines r 0 with ⟨hnone, hg⟩ | ⟨bits, r', hsome, hg⟩
  · rw [hnone, hg]
    exact .inl ⟨rfl, rfl⟩
  · rw [hsome, hg]
    exact .inr ⟨_, r', rfl, rfl⟩

theorem getBytes_refines : Refines (getBytes : Getter data Bytes) EosMesh.getBytes := by
  intro r out
  have hrun : EosMesh.getBytes.run r.rest = (EosMesh.getVar.run r.rest).bind fun read ↦
      (check (read.1.toNat ≤ read.2.length) >>= fun _ ↦ readExactly read.1.toNat :
        ByteReader Bytes).run read.2 := rfl
  rw [hrun, getBytes]
  rcases getVar_refines r 0 with ⟨hnone, hg⟩ | ⟨len, r', hsome, hg⟩
  · rw [hnone, hg]
    exact .inl ⟨rfl, rfl⟩
  · rw [hsome, hg, Option.bind_some]
    dsimp only
    by_cases hlen : len.toNat ≤ r'.remaining
    · rw [dif_pos hlen, check, if_pos (by rw [rest_length]; exact hlen), pure_bind]
      refine .inr ⟨_, _, ?_, rfl⟩
      show (if len.toNat ≤ r'.rest.length then _ else none) = _
      rw [if_pos (by rw [rest_length]; exact hlen), rest_advance hlen]
      rfl
    · rw [dif_neg hlen, check, if_neg (by rw [rest_length]; exact hlen)]
      exact .inl ⟨rfl, rfl⟩

/-! ## What the decoders rely on -/

theorem rest_inj {r r' : ByteCursor data} (h : r.rest = r'.rest) : r = r' := by
  have hlength := congrArg List.length h
  rw [rest_length, rest_length, remaining, remaining] at hlength
  obtain ⟨pos, inside⟩ := r
  obtain ⟨pos', inside'⟩ := r'
  obtain rfl : pos = pos' := by
    dsimp only at hlength
    omega
  rfl

theorem pos_of_rest {r r' : ByteCursor data} {enc : Bytes} (h : r.rest = enc ++ r'.rest) :
    r'.pos = r.pos + enc.length := by
  have hlength := congrArg List.length h
  rw [List.length_append, rest_length, rest_length, remaining, remaining] at hlength
  have hinside := r.inside
  have hinside' := r'.inside
  omega

/-- A failure leaves the position and the output as they were. -/
def Untouched {α : Type} (g : Getter data α) : Prop :=
  ∀ r out, (g r out).1 = false → g r out = (false, r, out)

theorem Refines.untouched {α : Type} {g : Getter data α} {reader : ByteReader α}
    (h : Refines g reader) : Untouched g := by
  intro r out hfail
  rcases h r out with ⟨-, hg⟩ | ⟨a, r', -, hg⟩
  · exact hg
  · rw [hg] at hfail
    cases hfail

/-- What was put comes back, whatever follows it, and the position is behind it. -/
def GivesBack {α : Type} (g : Getter data α) (put : α → Bytes) : Prop :=
  ∀ (r : ByteCursor data) (a out : α) (after : Bytes), r.rest = put a ++ after →
    ∃ r', g r out = (true, r', a) ∧ r'.pos = r.pos + (put a).length

theorem Refines.givesBack {α : Type} {g : Getter data α} {reader : ByteReader α} {put : α → Bytes}
    (h : Refines g reader) (hdecodes : ∀ a, Decodes reader (put a) a) : GivesBack g put := by
  intro r a out after hrest
  have hrun := hdecodes a after
  rw [← hrest] at hrun
  rcases h r out with ⟨hnone, -⟩ | ⟨a', r', hsome, hg⟩
  · rw [hnone] at hrun
    cases hrun
  · rw [hsome] at hrun
    obtain ⟨rfl, rfl⟩ := Prod.mk.inj (Option.some_inj.1 hrun)
    exact ⟨r', hg, pos_of_rest hrest⟩

/-- **The getters are exact**: `get_var` accepts the varints of at most ten bytes with a value below
2^64 and gives that value, what `put_var` and `put_svar` wrote comes back, and no getter that fails
has moved the position or written its output. -/
theorem byte_reader_exact (data : Bytes) :
    (∀ (r r' : ByteCursor data) (out v : UInt64), r.getVar out = (true, r', v) ↔
      ∃ enc, r.rest = enc ++ r'.rest ∧ r'.pos = r.pos + enc.length ∧
        enc.length ≤ varintMaxBytes ∧ IsVarint enc v.toNat) ∧
    GivesBack (getVar : Getter data UInt64) putVar ∧
    GivesBack (getSvar : Getter data Int64) putSvar ∧
    Untouched (getU8 : Getter data UInt8) ∧ Untouched (getU16 : Getter data UInt16) ∧
    Untouched (getU32 : Getter data UInt32) ∧ Untouched (getU64 : Getter data UInt64) ∧
    Untouched (getVar : Getter data UInt64) ∧ Untouched (getSvar : Getter data Int64) ∧
    Untouched (getBool : Getter data Bool) ∧ Untouched (getF64 : Getter data UInt64) ∧
    Untouched (getBytes : Getter data Bytes) := by
  refine ⟨fun r r' out v ↦ ?_, getVar_refines.givesBack decodes_getVar,
    getSvar_refines.givesBack decodes_getSvar, getU8_refines.untouched, getU16_refines.untouched,
    getU32_refines.untouched, getU64_refines.untouched, getVar_refines.untouched,
    getSvar_refines.untouched, getBool_refines.untouched, getF64_refines.untouched,
    getBytes_refines.untouched⟩
  constructor
  · intro hgot
    rcases getVar_refines r out with ⟨-, hg⟩ | ⟨a, r'', hsome, hg⟩
    · rw [hg] at hgot
      cases hgot
    · rw [hg] at hgot
      obtain ⟨-, hcursor⟩ := Prod.mk.inj hgot
      obtain ⟨rfl, rfl⟩ := Prod.mk.inj hcursor
      obtain ⟨enc, hrest, hlength, hvarint⟩ := (getVar_run_iff _ _ _).1 hsome
      exact ⟨enc, hrest, pos_of_rest hrest, hlength, hvarint⟩
  · rintro ⟨enc, hrest, -, hlength, hvarint⟩
    have hrun := (getVar_run_iff r.rest v r'.rest).2 ⟨enc, hrest, hlength, hvarint⟩
    rcases getVar_refines r out with ⟨hnone, -⟩ | ⟨a, r'', hsome, hg⟩
    · rw [hnone] at hrun
      cases hrun
    · rw [hsome] at hrun
      obtain ⟨rfl, hbehind⟩ := Prod.mk.inj (Option.some_inj.1 hrun)
      rw [hg, rest_inj hbehind]

end ByteCursor

end EosMesh
