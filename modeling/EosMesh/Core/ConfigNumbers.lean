import EosMesh.Core.ConfigGrammar

/-!
# Numbers in the configuration file

`parse_number` takes exactly the numerals of the grammar, as far as they go.  It does not compute as
it goes: it finds where the sign, the whole part, the fraction and the exponent end, and only then
looks at what the token is.  A numeral with neither fraction nor exponent whose value fits into 64
bits is an integer, and every other one a number that no setting takes.

* `tokenDigits_eq`: the accumulator of `token_to_i64` holds the value of the digits as long as the
  limit does, for runs of any length.  The check before each multiplication is what makes it fail
  exactly where the value would exceed the limit, and not where the machine would wrap.
* `tokenToI64_numeral`: an integer literal is an i64 exactly when one holds its value; the least
  integer is one more than the greatest is, and so it has a limit of its own.
* `parseWhole`, `parseFraction` and `parseExponent` each have a lemma for what they take and one for
  what they leave; `StopsNumber` is what may follow a numeral: the end, a blank, a comma or a
  closing bracket.  `dropWhile_split` is the fact about runs of digits behind all of them.
* `parseNumber_sound` and `parseNumber_complete` put them together.  No leading zero is taken, no
  empty fraction and no empty exponent, as in the grammar.
-/

set_option autoImplicit false

namespace EosMesh

open Lib

/-! ## Digits -/

/-- The value of a run of digits, onto the value read so far. -/
def digitsFrom (value : Nat) (text : Bytes) : Nat :=
  text.foldl (fun value c ↦ value * 10 + (c - '0'.toUInt8).toNat) value

theorem digitsFrom_cons (value : Nat) (c : UInt8) (rest : Bytes) :
    digitsFrom value (c :: rest) = digitsFrom (value * 10 + (c - '0'.toUInt8).toNat) rest := rfl

theorem le_digitsFrom (value : Nat) (text : Bytes) : value ≤ digitsFrom value text := by
  induction text generalizing value with
  | nil => exact le_refl _
  | cons c rest ih =>
    rw [digitsFrom_cons]
    exact le_trans (by omega) (ih _)

theorem digit_le {c : UInt8} (h : isDigit c = true) : (c - '0'.toUInt8).toNat ≤ 9 := by
  simp only [isDigit, Bool.and_eq_true, decide_eq_true_eq, UInt8.le_iff_toNat_le] at h
  have hsub := UInt8.toNat_sub_of_le c '0'.toUInt8 (UInt8.le_iff_toNat_le.2 h.1)
  have h0 : ('0'.toUInt8).toNat = 48 := rfl
  have h9 : ('9'.toUInt8).toNat = 57 := rfl
  omega

/-- No step of the accumulator exceeds the limit, and it fails exactly where the value would. -/
theorem tokenDigits_eq {limit value : Nat} {text : Bytes} (hlimit : 9 ≤ limit)
    (hdigits : ∀ c ∈ text, isDigit c = true) (hvalue : value ≤ limit) :
    tokenDigits limit value text =
      if digitsFrom value text ≤ limit then some (digitsFrom value text) else none := by
  induction text generalizing value with
  | nil => exact (if_pos hvalue).symm
  | cons c rest ih =>
    have hdigit := digit_le (hdigits c List.mem_cons_self)
    have hrest : ∀ d ∈ rest, isDigit d = true := fun d hd ↦ hdigits d (List.mem_cons_of_mem c hd)
    rw [tokenDigits, digitsFrom_cons]
    by_cases hover : value > (limit - (c - '0'.toUInt8).toNat) / 10
    · have hle := le_digitsFrom (value * 10 + (c - '0'.toUInt8).toNat) rest
      rw [if_pos hover, if_neg (by omega)]
    · rw [if_neg hover]
      exact ih hrest (by omega)

theorem digit_ne_minus {c : UInt8} (h : isDigit c = true) : c ≠ minusByte := by
  rintro rfl
  revert h
  decide

/-- An integer literal is an i64 exactly when one holds its value. -/
theorem tokenToI64_numeral (n : Numeral) : tokenToI64 (n.sign ++ n.whole) =
    if -(2 ^ 63 : Int) ≤ n.value ∧ n.value < (2 ^ 63 : Int) then some n.value else none := by
  obtain ⟨hne, hdigits⟩ := n.digits_whole
  have hfrom : digitsFrom 0 n.whole = digitsValue n.whole := rfl
  have hmagnitude : int64MinMagnitude = 2 ^ 63 := rfl
  rw [tokenToI64, Numeral.value]
  rcases n.sign_eq with hsign | hsign
  · have hhead : ¬ ([] ++ n.whole).head? = some minusByte := by
      intro h
      have hmem := List.mem_of_mem_head? (Option.mem_def.2 h)
      exact digit_ne_minus (hdigits _ hmem) rfl
    rw [hsign, if_neg hhead, if_pos rfl, List.nil_append,
      tokenDigits_eq (by decide) hdigits (Nat.zero_le _), hfrom]
    by_cases hfits : digitsValue n.whole ≤ int64MinMagnitude - 1
    · rw [if_pos hfits, if_pos (by omega), Option.map_some]
    · rw [if_neg hfits, if_neg (by omega), Option.map_none]
  · have hhead : ([minusByte] ++ n.whole).head? = some minusByte := rfl
    have hnil : ¬ [minusByte] = ([] : Bytes) := List.cons_ne_nil _ _
    rw [hsign, if_pos hhead, if_neg hnil]
    rw [show ([minusByte] ++ n.whole).tail = n.whole from rfl,
      tokenDigits_eq (by decide) hdigits (Nat.zero_le _), hfrom]
    by_cases hfits : digitsValue n.whole ≤ int64MinMagnitude
    · rw [if_pos hfits, if_pos (by omega), Option.map_some]
    · rw [if_neg hfits, if_neg (by omega), Option.map_none]

/-! ## Runs of digits -/

/-- What follows does not begin with a digit. -/
def NoDigit (rest : Bytes) : Prop := rest.head?.any isDigit = false

theorem dropWhile_digits {digits rest : Bytes} (h : ∀ c ∈ digits, isDigit c = true)
    (hrest : NoDigit rest) : (digits ++ rest).dropWhile isDigit = rest := by
  induction digits with
  | nil =>
    cases rest with
    | nil => rfl
    | cons c rest => exact List.dropWhile_cons_of_neg (by simpa [NoDigit] using hrest)
  | cons c digits ih =>
    rw [List.cons_append, List.dropWhile_cons_of_pos (h c List.mem_cons_self)]
    exact ih fun d hd ↦ h d (List.mem_cons_of_mem c hd)

/-- Digits are taken as far as they go. -/
theorem dropWhile_split {text : Bytes} (h : text.head?.any isDigit = true) :
    ∃ digits, Digits digits ∧ text = digits ++ text.dropWhile isDigit := by
  refine ⟨text.takeWhile isDigit, ⟨?_, fun c hc ↦ List.mem_takeWhile_imp hc⟩,
    List.takeWhile_append_dropWhile.symm⟩
  cases text with
  | nil => cases h
  | cons c rest =>
    have hc : isDigit c = true := h
    rw [List.takeWhile_cons_of_pos hc]
    exact List.cons_ne_nil _ _

theorem Digits.head {digits : Bytes} (h : Digits digits) (rest : Bytes) :
    (digits ++ rest).head?.any isDigit = true := by
  obtain ⟨hne, hall⟩ := h
  cases digits with
  | nil => exact absurd rfl hne
  | cons c digits => exact hall c List.mem_cons_self

theorem skipDigits_sound {message : String} {text rest : Bytes}
    (h : skipDigits message text = .ok rest) : ∃ digits, Digits digits ∧ text = digits ++ rest := by
  rw [skipDigits] at h
  split at h
  · rename_i hdigit
    cases h
    exact dropWhile_split hdigit
  · cases h

theorem skipDigits_complete (message : String) {digits rest : Bytes} (h : Digits digits)
    (hrest : NoDigit rest) : skipDigits message (digits ++ rest) = .ok rest := by
  rw [skipDigits, if_pos (h.head rest), dropWhile_digits h.2 hrest]

/-! ## The parts of a numeral -/

theorem parseWhole_sound {text rest : Bytes} (h : parseWhole text = .ok rest) :
    ∃ whole, text = whole ++ rest ∧ Digits whole ∧
      (whole = ['0'.toUInt8] ∨ whole.head? ≠ some '0'.toUInt8) := by
  cases text with
  | nil => cases h
  | cons c more =>
    rw [parseWhole] at h
    split_ifs at h with hdigit hzero hleading
    · cases h
      refine ⟨[c], rfl, ⟨List.cons_ne_nil _ _, fun d hd ↦ ?_⟩, .inl (by rw [hzero])⟩
      rw [List.mem_singleton.1 hd]
      exact hdigit
    · cases h
      obtain ⟨digits, hdigits, htext⟩ := dropWhile_split
        (show (c :: more).head?.any isDigit = true from hdigit)
      refine ⟨digits, htext, hdigits, .inr fun hhead ↦ hzero ?_⟩
      cases digits with
      | nil => cases hhead
      | cons d digits =>
        cases hhead
        exact (List.cons.inj htext).1

theorem parseWhole_complete {whole rest : Bytes} (h : Digits whole)
    (hshape : whole = ['0'.toUInt8] ∨ whole.head? ≠ some '0'.toUInt8) (hrest : NoDigit rest) :
    parseWhole (whole ++ rest) = .ok rest := by
  obtain ⟨hne, hall⟩ := h
  cases whole with
  | nil => exact absurd rfl hne
  | cons c digits =>
    have hc := hall c List.mem_cons_self
    rw [List.cons_append, parseWhole, if_neg (not_not.2 hc)]
    rcases hshape with hzero | hzero
    · cases hzero
      have hleading : ¬ ([] ++ rest).head?.any isDigit = true := by
        rw [List.nil_append, Bool.not_eq_true]
        exact hrest
      rw [if_pos rfl, if_neg hleading]
      rfl
    · have hne : c ≠ '0'.toUInt8 := fun heq ↦ hzero (congrArg some heq)
      rw [if_neg hne, ← List.cons_append, dropWhile_digits hall hrest]

theorem parseFraction_sound {text rest : Bytes} {fractional : Bool}
    (h : parseFraction text = .ok (fractional, rest)) :
    ∃ fraction, text = fraction ++ rest ∧ (fractional = false ↔ fraction = []) ∧
      (fraction = [] ∨ ∃ digits, Digits digits ∧ fraction = '.'.toUInt8 :: digits) := by
  rw [parseFraction] at h
  split at h
  · rename_i hdot
    cases text with
    | nil => cases hdot
    | cons c more =>
      cases hdot
      cases hskip : skipDigits "invalid fraction" more with
      | error message => rw [List.tail_cons, hskip] at h; cases h
      | ok left =>
        rw [List.tail_cons, hskip] at h
        cases h
        obtain ⟨digits, hdigits, rfl⟩ := skipDigits_sound hskip
        exact ⟨'.'.toUInt8 :: digits, rfl, by simp, .inr ⟨digits, hdigits, rfl⟩⟩
  · cases h
    exact ⟨[], rfl, by simp, .inl rfl⟩

theorem parseFraction_complete {fraction rest : Bytes} (hrest : NoDigit rest)
    (hdot : rest.head? ≠ some '.'.toUInt8)
    (h : fraction = [] ∨ ∃ digits, Digits digits ∧ fraction = '.'.toUInt8 :: digits) :
    parseFraction (fraction ++ rest) = .ok (!fraction.isEmpty, rest) := by
  rcases h with rfl | ⟨digits, hdigits, rfl⟩
  · rw [List.nil_append, parseFraction, if_neg hdot]
    rfl
  · have hhead : ('.'.toUInt8 :: (digits ++ rest)).head? = some '.'.toUInt8 := rfl
    rw [List.cons_append, parseFraction, if_pos hhead, List.tail_cons,
      skipDigits_complete _ hdigits hrest]
    rfl

theorem parseExponent_sound {text rest : Bytes} {exponential : Bool}
    (h : parseExponent text = .ok (exponential, rest)) :
    ∃ exponent, text = exponent ++ rest ∧ (exponential = false ↔ exponent = []) ∧
      (exponent = [] ∨ ∃ e sign digits, (e = 'e'.toUInt8 ∨ e = 'E'.toUInt8) ∧
        (sign = [] ∨ sign = ['+'.toUInt8] ∨ sign = [minusByte]) ∧ Digits digits ∧
        exponent = e :: (sign ++ digits)) := by
  rw [parseExponent] at h
  split at h
  · rename_i hmark
    cases text with
    | nil => rcases hmark with hmark | hmark <;> cases hmark
    | cons e more =>
      have he : e = 'e'.toUInt8 ∨ e = 'E'.toUInt8 := hmark.imp Option.some.inj Option.some.inj
      -- the sign, if there is one, and what stands behind it
      have hsign : ∃ sign, (sign = [] ∨ sign = ['+'.toUInt8] ∨ sign = [minusByte]) ∧ more = sign ++
          (if more.head? = some '+'.toUInt8 ∨ more.head? = some minusByte then more.tail
            else more) := by
        split
        · rename_i hsign
          cases more with
          | nil => rcases hsign with hsign | hsign <;> cases hsign
          | cons s more =>
            refine ⟨[s], .inr (hsign.imp ?_ ?_), rfl⟩ <;>
            · intro hs
              cases hs
              rfl
        · exact ⟨[], .inl rfl, rfl⟩
      obtain ⟨sign, hsign, hmore⟩ := hsign
      cases hskip : skipDigits "invalid exponent"
        (if more.head? = some '+'.toUInt8 ∨ more.head? = some minusByte then more.tail
          else more) with
      | error message =>
        change (skipDigits "invalid exponent" _).map _ = _ at h
        rw [List.tail_cons, hskip] at h
        cases h
      | ok left =>
        change (skipDigits "invalid exponent" _).map _ = _ at h
        rw [List.tail_cons, hskip] at h
        cases h
        obtain ⟨digits, hdigits, hrest⟩ := skipDigits_sound hskip
        refine ⟨e :: (sign ++ digits), ?_, by simp, .inr ⟨e, sign, digits, he, hsign, hdigits, rfl⟩⟩
        rw [hmore, hrest, List.cons_append, List.append_assoc]
  · cases h
    exact ⟨[], rfl, by simp, .inl rfl⟩

theorem parseExponent_complete {exponent rest : Bytes} (hrest : NoDigit rest)
    (hmark : ¬ (rest.head? = some 'e'.toUInt8 ∨ rest.head? = some 'E'.toUInt8))
    (h : exponent = [] ∨ ∃ e sign digits, (e = 'e'.toUInt8 ∨ e = 'E'.toUInt8) ∧
      (sign = [] ∨ sign = ['+'.toUInt8] ∨ sign = [minusByte]) ∧ Digits digits ∧
      exponent = e :: (sign ++ digits)) :
    parseExponent (exponent ++ rest) = .ok (!exponent.isEmpty, rest) := by
  rcases h with rfl | ⟨e, sign, digits, he, hsign, hdigits, rfl⟩
  · rw [List.nil_append, parseExponent, if_neg hmark]
    rfl
  · have hmarked : (e :: (sign ++ digits) ++ rest).head? = some 'e'.toUInt8 ∨
        (e :: (sign ++ digits) ++ rest).head? = some 'E'.toUInt8 :=
      he.imp (congrArg some) (congrArg some)
    have hunsigned : (if (sign ++ digits ++ rest).head? = some '+'.toUInt8 ∨
        (sign ++ digits ++ rest).head? = some minusByte then (sign ++ digits ++ rest).tail
          else sign ++ digits ++ rest) = digits ++ rest := by
      rcases hsign with rfl | rfl | rfl
      · refine if_neg fun hhead ↦ ?_
        have hdigit := hdigits.head rest
        rw [List.nil_append] at hhead
        rcases hhead with hhead | hhead <;> · rw [hhead] at hdigit; revert hdigit; decide
      · exact if_pos (.inl rfl)
      · exact if_pos (.inr rfl)
    rw [parseExponent, if_pos hmarked]
    change (skipDigits "invalid exponent" (if (sign ++ digits ++ rest).head? = some '+'.toUInt8 ∨
      (sign ++ digits ++ rest).head? = some minusByte then (sign ++ digits ++ rest).tail
        else sign ++ digits ++ rest)).map _ = _
    rw [hunsigned, skipDigits_complete _ hdigits hrest]
    rfl

/-! ## Numerals -/

/-- What may follow a value: the end, a blank, a comma or a closing bracket. -/
def StopsNumber (rest : Bytes) : Prop := ∀ c, rest.head? = some c →
  isWs c = true ∨ c = commaByte ∨ c = arrayClose ∨ c = objectClose

/-- None of these goes on with a numeral. -/
theorem StopsNumber.ne {rest : Bytes} (h : StopsNumber rest) {c : UInt8}
    (hc : (isWs c || c == commaByte || c == arrayClose || c == objectClose) = false) :
    rest.head? ≠ some c := by
  intro hhead
  simp only [Bool.or_eq_false_iff, beq_eq_false_iff_ne] at hc
  rcases h c hhead with hws | rfl | rfl | rfl
  · rw [hws] at hc
    cases hc.1.1.1
  · exact hc.1.1.2 rfl
  · exact hc.1.2 rfl
  · exact hc.2 rfl

theorem StopsNumber.noDigit {rest : Bytes} (h : StopsNumber rest) : NoDigit rest := by
  cases rest with
  | nil => rfl
  | cons c rest =>
    change isDigit c = false
    rcases h c rfl with hws | rfl | rfl | rfl
    · simp only [isWs, Bool.or_eq_true, beq_iff_eq] at hws
      rcases hws with ((rfl | rfl) | rfl) | rfl <;> decide
    · decide
    · decide
    · decide

/-- What a part of a numeral begins with is no digit. -/
theorem noDigit_append {part rest : Bytes} (hpart : part = [] ∨ ∃ c more, part = c :: more ∧
    isDigit c = false) (hrest : NoDigit rest) : NoDigit (part ++ rest) := by
  rcases hpart with rfl | ⟨c, more, rfl, hc⟩
  · exact hrest
  · exact hc

theorem Numeral.fraction_start (n : Numeral) :
    n.fraction = [] ∨ ∃ c more, n.fraction = c :: more ∧ isDigit c = false := by
  refine n.fraction_eq.imp_right fun ⟨digits, _, heq⟩ ↦ ⟨_, digits, heq, by decide⟩

theorem Numeral.exponent_start (n : Numeral) : n.exponent = [] ∨ ∃ c more, n.exponent = c :: more ∧
    isDigit c = false ∧ c ≠ '.'.toUInt8 := by
  refine n.exponent_eq.imp_right fun ⟨e, sign, digits, he, _, _, heq⟩ ↦
    ⟨e, sign ++ digits, heq, ?_⟩
  rcases he with rfl | rfl <;> decide

instance (n : Numeral) : Decidable n.IsInt64 :=
  inferInstanceAs (Decidable (_ ∧ _ ∧ _ ∧ _))

/-- What a numeral denotes. -/
def Numeral.node (n : Numeral) : ValueNode := if n.IsInt64 then .int n.value else .number

theorem numberText_iff {n : Numeral} {node : ValueNode} :
    (n.IsInt64 ∧ node = .int n.value ∨ ¬ n.IsInt64 ∧ node = .number) ↔ node = n.node := by
  rw [Numeral.node]
  split
  · rename_i h
    exact ⟨fun hor ↦ hor.elim And.right fun hno ↦ absurd h hno.1, fun heq ↦ .inl ⟨h, heq⟩⟩
  · rename_i h
    exact ⟨fun hor ↦ hor.elim (fun hyes ↦ absurd hyes.1 h) And.right, fun heq ↦ .inr ⟨h, heq⟩⟩

/-- The rest of `parse_number`, once the parts are found. -/
theorem parseNumber_token (n : Numeral) (rest : Bytes) :
    (if n.text.length > maxToken then (Except.error "number too long" : Except String _)
      else match if (!n.fraction.isEmpty) || (!n.exponent.isEmpty) then none
        else tokenToI64 n.text with
      | some value => Except.ok (ValueNode.int value, rest)
      | none => Except.ok (ValueNode.number, rest)) =
    if n.text.length > maxToken then .error "number too long" else .ok (n.node, rest) := by
  by_cases hlong : n.text.length > maxToken
  · rw [if_pos hlong, if_pos hlong]
  rw [if_neg hlong, if_neg hlong, Numeral.node]
  by_cases hparts : n.fraction = [] ∧ n.exponent = []
  · have htext : n.text = n.sign ++ n.whole := by
      rw [Numeral.text, hparts.1, hparts.2, List.append_nil, List.append_nil]
    have hflag : ((!n.fraction.isEmpty) || (!n.exponent.isEmpty)) = false := by
      rw [hparts.1, hparts.2]
      rfl
    rw [hflag, htext, tokenToI64_numeral]
    by_cases hfits : -(2 ^ 63 : Int) ≤ n.value ∧ n.value < (2 ^ 63 : Int)
    · rw [if_pos (show n.IsInt64 from ⟨hparts.1, hparts.2, hfits⟩), if_pos hfits]
      rfl
    · rw [if_neg (show ¬ n.IsInt64 from fun h ↦ hfits h.2.2), if_neg hfits]
      rfl
  · have hflag : ((!n.fraction.isEmpty) || (!n.exponent.isEmpty)) = true := by
      rw [Bool.or_eq_true, Bool.not_eq_true', Bool.not_eq_true', List.isEmpty_eq_false_iff,
        List.isEmpty_eq_false_iff]
      exact not_and_or.1 hparts
    rw [hflag, if_pos rfl, if_neg (show ¬ n.IsInt64 from fun h ↦ hparts ⟨h.1, h.2.1⟩)]

theorem parseNumber_sound {text rest : Bytes} {node : ValueNode}
    (h : parseNumber text = .ok (node, rest)) : ∃ used,
    text = used ++ rest ∧ NumberText used node := by
  have hsign : ∃ sign, (sign = [] ∨ sign = [minusByte]) ∧
      text = sign ++ (if text.head? = some minusByte then text.tail else text) := by
    split
    · rename_i hhead
      cases text with
      | nil => cases hhead
      | cons c more =>
        cases hhead
        exact ⟨[minusByte], .inr rfl, rfl⟩
    · exact ⟨[], .inl rfl, rfl⟩
  obtain ⟨sign, hsign, htext⟩ := hsign
  obtain ⟨afterWhole, hwhole, h1⟩ := bind_eq_ok h
  obtain ⟨⟨fractional, afterFraction⟩, hfraction, h2⟩ := bind_eq_ok h1
  obtain ⟨⟨exponential, left⟩, hexponent, h3⟩ := bind_eq_ok h2
  obtain ⟨whole, hrest, hdigits, hshape⟩ := parseWhole_sound hwhole
  obtain ⟨fraction, hleft, hfractional, hpoint⟩ := parseFraction_sound hfraction
  obtain ⟨exponent, hleft', hexponential, hmark⟩ := parseExponent_sound hexponent
  let n : Numeral := ⟨sign, whole, fraction, exponent, hsign, hdigits, hshape, hpoint, hmark⟩
  have hsplit : text = n.text ++ left := by
    rw [htext, hrest, hleft, hleft', Numeral.text]
    simp only [List.append_assoc]
    rfl
  have htoken : text.take (text.length - left.length) = n.text := by
    rw [hsplit, List.length_append, Nat.add_sub_cancel, List.take_left]
  have hflag : ∀ {flag : Bool} {part : Bytes}, (flag = false ↔ part = []) →
      flag = !part.isEmpty := by
    rintro (_ | _) (_ | ⟨c, part⟩) hiff
    · rfl
    · exact absurd (hiff.1 rfl) (List.cons_ne_nil _ _)
    · exact absurd (hiff.2 rfl) (by decide)
    · rfl
  dsimp only at h3
  rw [htoken, hflag hfractional, hflag hexponential] at h3
  have hrun := (parseNumber_token n left).symm.trans h3
  split_ifs at hrun with hlong
  rw [Except.ok.injEq, Prod.mk.injEq] at hrun
  obtain ⟨hnode, rfl⟩ := hrun
  exact ⟨n.text, hsplit, n, rfl, Nat.not_lt.1 hlong, numberText_iff.2 hnode.symm⟩

theorem parseNumber_complete {used rest : Bytes} {node : ValueNode} (h : NumberText used node)
    (hstop : StopsNumber rest) : parseNumber (used ++ rest) = .ok (node, rest) := by
  obtain ⟨n, rfl, hlength, hnode⟩ := h
  have hdigit := hstop.noDigit
  have hunsigned : (if (n.text ++ rest).head? = some minusByte then (n.text ++ rest).tail
      else n.text ++ rest) = n.whole ++ (n.fraction ++ (n.exponent ++ rest)) := by
    have htext : n.text ++ rest = n.sign ++ (n.whole ++ (n.fraction ++ (n.exponent ++ rest))) := by
      simp only [Numeral.text, List.append_assoc]
    rw [htext]
    rcases n.sign_eq with hsign | hsign
    · rw [hsign, List.nil_append]
      refine if_neg fun hhead ↦ ?_
      have hfirst := n.digits_whole.head (n.fraction ++ (n.exponent ++ rest))
      rw [hhead] at hfirst
      revert hfirst
      decide
    · rw [hsign]
      exact if_pos rfl
  have hexponent := parseExponent_complete hdigit
    (not_or.2 ⟨hstop.ne (by decide), hstop.ne (by decide)⟩) n.exponent_eq
  have hdot : (n.exponent ++ rest).head? ≠ some '.'.toUInt8 := by
    rcases n.exponent_start with hnil | ⟨c, more, heq, -, hc⟩
    · rw [hnil]
      exact hstop.ne (by decide)
    · rw [heq]
      exact fun hhead ↦ hc (Option.some.inj hhead)
  have hafter : NoDigit (n.exponent ++ rest) :=
    noDigit_append (n.exponent_start.imp_right fun ⟨c, more, heq, hc⟩ ↦ ⟨c, more, heq, hc.1⟩) hdigit
  have hfraction := parseFraction_complete hafter hdot n.fraction_eq
  have hwhole := parseWhole_complete n.digits_whole n.whole_eq
    (noDigit_append n.fraction_start hafter)
  have htoken : (n.text ++ rest).take ((n.text ++ rest).length - rest.length) = n.text := by
    rw [List.length_append, Nat.add_sub_cancel, List.take_left]
  rw [parseNumber]
  simp only [hunsigned, hwhole, bind, Except.bind, hfraction, hexponent, htoken]
  refine (parseNumber_token n rest).trans ?_
  rw [if_neg (Nat.not_lt.2 hlength), ← numberText_iff.1 hnode]

end EosMesh
