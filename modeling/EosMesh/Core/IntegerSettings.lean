import EosMesh.Core.ConfigNumbers
import EosMesh.Lib.Checked

/-!
# Integer settings in the environment and in the file

`parse_int` reads the integers of the environment and `token_to_i64` those of the configuration
file. On digits the two loops are one, with a limit each; but the first of them has the limit of the
positive integers for the negative ones too.

* `parseIntChecked` and `tokenToI64Checked` compute in the types of the source and end when a result
  overflows; `parseIntChecked_eq` and `tokenToI64Checked_eq` say that none does.
* `integer_read_alike` says of which texts the two mean the same, and `least_not_read_alike` is the
  one of which they do not.
-/

set_option autoImplicit false

namespace EosMesh

open Lib

/-! ## With the types of the source -/

/-- The value of a digit, `c - '0'`. -/
def digitOf (c : UInt8) : Int := (c.toNat : Int) - ('0'.toUInt8).toNat

/-- `parseIntDigits` with every operation checked. -/
def parseIntDigitsChecked : (value : Int) → Bytes → Checked (Option Int)
  | value, [] => pure (some value)
  | value, c :: rest =>
    if ¬ isDigit c then pure none
    else do
      let digit ← IntType.i64.arith (digitOf c)
      let room ← IntType.i64.arith (int64Max - digit)
      if value > room / 10 then pure none
      else
        let tens ← IntType.i64.arith (value * 10)
        let value ← IntType.i64.arith (tens + digit)
        parseIntDigitsChecked value rest

/-- `parse_int`, each result in an i64. -/
def parseIntChecked : Bytes → Checked (Option Int)
  | [] => pure none
  | c :: rest =>
    if c = '-'.toUInt8 then
      if rest = [] then pure none
      else do
        match ← parseIntDigitsChecked 0 rest with
        | none => pure none
        | some value => some <$> IntType.i64.arith (-value)
    else parseIntDigitsChecked 0 (c :: rest)

/-- `tokenDigits` with every operation checked. -/
def tokenDigitsChecked (limit : Int) : (value : Int) → Bytes → Checked (Option Int)
  | value, [] => pure (some value)
  | value, c :: rest => do
    let digit ← IntType.u64.arith (digitOf c)
    let room ← IntType.u64.arith (limit - digit)
    if value > room / 10 then pure none
    else
      let tens ← IntType.u64.arith (value * 10)
      let value ← IntType.u64.arith (tens + digit)
      tokenDigitsChecked limit value rest

/-- `token_to_i64`, the magnitude in a u64 and the outcome in an i64. -/
def tokenToI64Checked (text : Bytes) : Checked (Option Int) :=
  if text.head? = some minusByte then do
    match ← tokenDigitsChecked int64MinMagnitude 0 text.tail with
    | none => pure none
    | some value =>
      if value = int64MinMagnitude then pure (some IntType.i64.least)
      else
        let value ← IntType.i64.arith value
        some <$> IntType.i64.arith (-value)
  else do
    match ← tokenDigitsChecked (int64MinMagnitude - 1) 0 text with
    | none => pure none
    | some value => some <$> IntType.i64.arith value

/-! ## Nothing overflows -/

theorem digitOf_eq {c : UInt8} (h : isDigit c = true) :
    digitOf c = ((c - '0'.toUInt8).toNat : Int) ∧ 0 ≤ digitOf c ∧ digitOf c ≤ 9 := by
  have hle := digit_le h
  simp only [isDigit, Bool.and_eq_true, decide_eq_true_eq, UInt8.le_iff_toNat_le] at h
  have hsub := UInt8.toNat_sub_of_le c '0'.toUInt8 (UInt8.le_iff_toNat_le.2 h.1)
  rw [digitOf]
  omega

/-- The invariant is that the value is one that an i64 holds. -/
theorem parseIntDigitsChecked_eq {value : Int} {text : Bytes} (h0 : 0 ≤ value)
    (hmax : value ≤ int64Max) :
    parseIntDigitsChecked value text = .ok (parseIntDigits value text) := by
  have h64 : int64Max = 2 ^ 63 - 1 := rfl
  induction text generalizing value with
  | nil => rfl
  | cons c rest ih =>
    rw [parseIntDigitsChecked, parseIntDigits]
    by_cases hdigit : isDigit c = true
    · obtain ⟨heq, hlow, hhigh⟩ := digitOf_eq hdigit
      rw [if_neg (not_not.2 hdigit), if_neg (not_not.2 hdigit), ← heq,
        IntType.arith_bind (IntType.i64_holds (by omega) (by omega)),
        IntType.arith_bind (IntType.i64_holds (by omega) (by omega))]
      dsimp only
      by_cases hover : value > (int64Max - digitOf c) / 10
      · rw [if_pos hover, if_pos hover]
        rfl
      · rw [if_neg hover, if_neg hover,
          IntType.arith_bind (IntType.i64_holds (by omega) (by omega)),
          IntType.arith_bind (IntType.i64_holds (by omega) (by omega))]
        exact ih (by omega) (by omega)
    · rw [if_pos hdigit, if_pos hdigit]
      rfl

/-- What the loop of `parse_int` makes is no more than the greatest i64. -/
theorem parseIntDigits_le {value result : Int} {text : Bytes} (h0 : 0 ≤ value)
    (hmax : value ≤ int64Max) (h : parseIntDigits value text = some result) :
    0 ≤ result ∧ result ≤ int64Max := by
  induction text generalizing value with
  | nil =>
    cases h
    exact ⟨h0, hmax⟩
  | cons c rest ih =>
    rw [parseIntDigits] at h
    dsimp only at h
    split_ifs at h with hdigit hover
    obtain ⟨heq, hlow, hhigh⟩ := digitOf_eq hdigit
    rw [← heq] at h hover
    exact ih (by omega) (by omega) h

/-- **Nothing overflows in `parse_int`.** -/
theorem parseIntChecked_eq (text : Bytes) : parseIntChecked text = .ok (parseInt text) := by
  have hrun (digits : Bytes) :
      parseIntDigitsChecked 0 digits = .ok (parseIntDigits 0 digits) :=
    parseIntDigitsChecked_eq (le_refl 0) (by decide)
  cases text with
  | nil => rfl
  | cons c rest =>
    rw [parseIntChecked, parseInt]
    split
    · split
      · rfl
      · rw [hrun]
        cases hdigits : parseIntDigits 0 rest with
        | none => rfl
        | some value =>
          obtain ⟨hlow, hhigh⟩ := parseIntDigits_le (le_refl 0) (by decide) hdigits
          have h64 : int64Max = 2 ^ 63 - 1 := rfl
          change some <$> IntType.i64.arith (-value) = _
          rw [IntType.arith_eq (IntType.i64_holds (by omega) (by omega))]
          rfl
    · exact hrun _

/-- The invariant is that the value is within the limit. -/
theorem tokenDigitsChecked_eq {limit value : Nat} {text : Bytes} (hlimit : 9 ≤ limit)
    (hlimit' : limit ≤ 2 ^ 63) (hdigits : ∀ c ∈ text, isDigit c = true) (hvalue : value ≤ limit) :
    tokenDigitsChecked limit value text =
      .ok ((tokenDigits limit value text).map fun (value : Nat) ↦ (value : Int)) := by
  induction text generalizing value with
  | nil => rfl
  | cons c rest ih =>
    have hrest : ∀ d ∈ rest, isDigit d = true := fun d hd ↦ hdigits d (List.mem_cons_of_mem c hd)
    obtain ⟨heq, hlow, hhigh⟩ := digitOf_eq (hdigits c List.mem_cons_self)
    rw [tokenDigitsChecked, tokenDigits,
      IntType.arith_bind (IntType.u64_holds (by omega) (by omega)),
      IntType.arith_bind (IntType.u64_holds (by omega) (by omega))]
    by_cases hover : value > (limit - (c - '0'.toUInt8).toNat) / 10
    · rw [if_pos hover, if_pos (by omega)]
      rfl
    · rw [if_neg hover, if_neg (by omega),
        IntType.arith_bind (IntType.u64_holds (by omega) (by omega)),
        IntType.arith_bind (IntType.u64_holds (by omega) (by omega))]
      have hnext : (value : Int) * 10 + digitOf c =
          ((value * 10 + (c - '0'.toUInt8).toNat : Nat) : Int) := by omega
      rw [hnext]
      exact ih hrest (by omega)

theorem tokenDigits_le {limit value result : Nat} {text : Bytes} (hlimit : 9 ≤ limit)
    (hdigits : ∀ c ∈ text, isDigit c = true) (hvalue : value ≤ limit)
    (h : tokenDigits limit value text = some result) : result ≤ limit := by
  rw [tokenDigits_eq hlimit hdigits hvalue] at h
  split_ifs at h with hfits
  cases h
  exact hfits

/-- A sign is there or not, and the first digit is none. -/
theorem Numeral.sign_cases (n : Numeral) :
    (n.sign = [] ∧ (n.sign ++ n.whole).head? ≠ some minusByte) ∨
      n.sign = [minusByte] ∧ (n.sign ++ n.whole).head? = some minusByte := by
  rcases n.sign_eq with hsign | hsign
  · refine .inl ⟨hsign, fun hhead ↦ ?_⟩
    rw [hsign, List.nil_append] at hhead
    have hmem := List.mem_of_mem_head? (Option.mem_def.2 hhead)
    exact digit_ne_minus (n.digits_whole.2 _ hmem) rfl
  · refine .inr ⟨hsign, ?_⟩
    rw [hsign]
    rfl

/-- **Nothing overflows in `token_to_i64`**, on an integer of JSON. -/
theorem tokenToI64Checked_eq (n : Numeral) :
    tokenToI64Checked (n.sign ++ n.whole) = .ok (tokenToI64 (n.sign ++ n.whole)) := by
  have hdigits := n.digits_whole.2
  have hmagnitude : int64MinMagnitude = 2 ^ 63 := rfl
  rw [tokenToI64Checked, tokenToI64]
  rcases n.sign_cases with ⟨hsign, hhead⟩ | ⟨hsign, hhead⟩
  · have hrun := @tokenDigitsChecked_eq (int64MinMagnitude - 1) 0 n.whole (by decide) (by decide)
      hdigits (Nat.zero_le _)
    have hlimit : ((int64MinMagnitude - 1 : Nat) : Int) = int64MinMagnitude - 1 := rfl
    rw [hlimit, Nat.cast_zero] at hrun
    rw [if_neg hhead, if_neg hhead, hsign, List.nil_append, hrun]
    cases hvalue : tokenDigits (int64MinMagnitude - 1) 0 n.whole with
    | none => rfl
    | some value =>
      have hle := tokenDigits_le (by decide) hdigits (Nat.zero_le _) hvalue
      change some <$> IntType.i64.arith value = _
      rw [IntType.arith_eq (IntType.i64_holds (by omega) (by omega))]
      rfl
  · have hrun := @tokenDigitsChecked_eq int64MinMagnitude 0 n.whole (by decide) (by decide)
      hdigits (Nat.zero_le _)
    rw [Nat.cast_zero] at hrun
    rw [if_pos hhead, if_pos hhead, hsign, List.singleton_append, List.tail_cons, hrun]
    cases hvalue : tokenDigits int64MinMagnitude 0 n.whole with
    | none => rfl
    | some value =>
      have hle := tokenDigits_le (by decide) hdigits (Nat.zero_le _) hvalue
      change (if (value : Int) = int64MinMagnitude then pure (some IntType.i64.least)
        else IntType.i64.arith value >>= fun value ↦ some <$> IntType.i64.arith (-value)) = _
      by_cases hleast : (value : Int) = int64MinMagnitude
      · rw [if_pos hleast, Option.map_some, hleast]
        rfl
      · rw [if_neg hleast, IntType.arith_bind (IntType.i64_holds (by omega) (by omega)),
          IntType.arith_eq (IntType.i64_holds (by omega) (by omega))]
        rfl

/-! ## What the two make of an integer -/

/-- On digits the loops are one, with a limit each. -/
theorem parseIntDigits_eq_tokenDigits {value : Nat} {text : Bytes}
    (hdigits : ∀ c ∈ text, isDigit c = true) :
    parseIntDigits value text =
      (tokenDigits (int64MinMagnitude - 1) value text).map fun (value : Nat) ↦ (value : Int) := by
  have h64 : int64Max = 2 ^ 63 - 1 := rfl
  have hmagnitude : int64MinMagnitude = 2 ^ 63 := rfl
  induction text generalizing value with
  | nil => rfl
  | cons c rest ih =>
    have hc := hdigits c List.mem_cons_self
    have hdigit := digit_le hc
    have hrest : ∀ d ∈ rest, isDigit d = true := fun d hd ↦ hdigits d (List.mem_cons_of_mem c hd)
    rw [parseIntDigits, tokenDigits, if_neg (not_not.2 hc)]
    dsimp only
    by_cases hover : value > (int64MinMagnitude - 1 - (c - '0'.toUInt8).toNat) / 10
    · rw [if_pos hover, if_pos (by omega)]
      rfl
    · rw [if_neg hover, if_neg (by omega)]
      exact ih hrest

/-- `parse_int` takes an integer of JSON as its value, from the second least i64 on. -/
theorem parseInt_numeral (n : Numeral) : parseInt (n.sign ++ n.whole) =
    if -(2 ^ 63 : Int) < n.value ∧ n.value < (2 ^ 63 : Int) then some n.value else none := by
  obtain ⟨hne, hdigits⟩ := n.digits_whole
  have hmagnitude : int64MinMagnitude = 2 ^ 63 := rfl
  have hrun : parseIntDigits 0 n.whole =
      if digitsValue n.whole ≤ int64MinMagnitude - 1 then some (digitsValue n.whole : Int)
      else none := by
    have hloop := @parseIntDigits_eq_tokenDigits 0 n.whole hdigits
    rw [tokenDigits_eq (by decide) hdigits (Nat.zero_le _)] at hloop
    rw [← Nat.cast_zero, hloop]
    change Option.map _ (if digitsValue n.whole ≤ _ then some (digitsValue n.whole) else none) = _
    split <;> rfl
  rw [Numeral.value]
  rcases n.sign_cases with ⟨hsign, hhead⟩ | ⟨hsign, hhead⟩
  · rw [hsign, List.nil_append, if_pos rfl]
    obtain ⟨c, rest, hwhole⟩ := List.exists_cons_of_ne_nil hne
    have hminus : ¬ c = '-'.toUInt8 := digit_ne_minus (hdigits c (hwhole ▸ List.mem_cons_self))
    rw [hwhole, parseInt, if_neg hminus, ← hwhole, hrun]
    by_cases hfits : digitsValue n.whole ≤ int64MinMagnitude - 1
    · rw [if_pos hfits, if_pos (by omega)]
    · rw [if_neg hfits, if_neg (by omega)]
  · have hminus : minusByte = '-'.toUInt8 := rfl
    rw [hsign, List.singleton_append, if_neg (List.cons_ne_nil _ _), parseInt, if_pos hminus,
      if_neg hne, hrun]
    by_cases hfits : digitsValue n.whole ≤ int64MinMagnitude - 1
    · rw [if_pos hfits, if_pos (by omega), Option.map_some]
    · rw [if_neg hfits, if_neg (by omega), Option.map_none]

/-- The two sources take a text alike: as its value if an i64 holds it, and not at all if none does;
and nothing overflows on the way. -/
structure ReadAlike (n : Numeral) : Prop where
  agree : parseInt n.text = tokenToI64 n.text
  environment : parseInt n.text = if IntType.i64.Holds n.value then some n.value else none
  file : tokenToI64 n.text = if IntType.i64.Holds n.value then some n.value else none
  noOverflow : parseIntChecked n.text = .ok (parseInt n.text) ∧
    tokenToI64Checked n.text = .ok (tokenToI64 n.text)

/-- **Which integers are read alike**: all of JSON's but the least i64. -/
theorem integer_read_alike (n : Numeral) (hfraction : n.fraction = [])
    (hexponent : n.exponent = []) : ReadAlike n ↔ n.value ≠ -2 ^ 63 := by
  have htext : n.text = n.sign ++ n.whole := by
    rw [Numeral.text, hfraction, hexponent, List.append_nil, List.append_nil]
  have hholds : IntType.i64.Holds n.value ↔ -(2 ^ 63 : Int) ≤ n.value ∧ n.value < 2 ^ 63 := by
    change -2 ^ 63 ≤ n.value ∧ n.value ≤ 2 ^ 63 - 1 ↔ _
    omega
  have hfile : tokenToI64 n.text = if IntType.i64.Holds n.value then some n.value else none := by
    rw [htext, tokenToI64_numeral]
    exact if_congr hholds.symm rfl rfl
  have henvironment := parseInt_numeral n
  rw [← htext] at henvironment
  constructor
  · intro h hleast
    have hvalue := h.environment
    rw [henvironment, if_neg (by omega), if_pos (hholds.2 (by omega))] at hvalue
    cases hvalue
  · intro hne
    have hvalue : parseInt n.text = if IntType.i64.Holds n.value then some n.value else none := by
      rw [henvironment]
      refine if_congr ?_ rfl rfl
      rw [hholds]
      omega
    refine ⟨hvalue.trans hfile.symm, hvalue, hfile, parseIntChecked_eq _, ?_⟩
    rw [htext]
    exact tokenToI64Checked_eq n

/-- The least integer that both take. -/
def lowestNumeral : Numeral where
  sign := [minusByte]
  whole := (Nat.toDigits 10 (int64MinMagnitude - 1)).map Char.toUInt8
  fraction := []
  exponent := []
  sign_eq := .inr rfl
  digits_whole := ⟨by decide +kernel, by decide +kernel⟩
  whole_eq := .inr (by decide +kernel)
  fraction_eq := .inl rfl
  exponent_eq := .inl rfl

theorem integer_read_alike_lowest :
    lowestNumeral.text = ascii "-9223372036854775807" ∧ ReadAlike lowestNumeral ∧
      parseInt lowestNumeral.text = some (1 - 2 ^ 63) := by
  have hvalue : lowestNumeral.value = 1 - 2 ^ 63 := by decide +kernel
  have halike := (integer_read_alike lowestNumeral rfl rfl).2 (by omega)
  exact ⟨by decide +kernel, halike, by decide +kernel⟩

/-- The least i64: the environment's parser does not take it. -/
def leastNumeral : Numeral where
  sign := [minusByte]
  whole := (Nat.toDigits 10 int64MinMagnitude).map Char.toUInt8
  fraction := []
  exponent := []
  sign_eq := .inr rfl
  digits_whole := ⟨by decide +kernel, by decide +kernel⟩
  whole_eq := .inr (by decide +kernel)
  fraction_eq := .inl rfl
  exponent_eq := .inl rfl

theorem least_not_read_alike :
    leastNumeral.text = ascii "-9223372036854775808" ∧
      parseInt leastNumeral.text = none ∧ tokenToI64 leastNumeral.text = some (-2 ^ 63) ∧
      ¬ ReadAlike leastNumeral := by
  have htexts : leastNumeral.text = ascii "-9223372036854775808" ∧
      parseInt leastNumeral.text = none ∧ tokenToI64 leastNumeral.text = some (-2 ^ 63) := by
    decide +kernel
  obtain ⟨htext, henvironment, hfile⟩ := htexts
  refine ⟨htext, henvironment, hfile, fun h ↦ ?_⟩
  have hagree := h.agree
  rw [henvironment, hfile] at hagree
  cases hagree

end EosMesh
