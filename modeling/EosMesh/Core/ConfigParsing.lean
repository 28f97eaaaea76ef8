import EosMesh.Core.ConfigStrings
import EosMesh.Core.ConfigNumbers

/-!
# The configuration parser accepts its grammar

`Core.ConfigFile` is the reader as the source has it, and `Core.ConfigGrammar` says what a
configuration file is, with no word of the reader.  Here the two are shown to agree: what is read is
of the grammar, and what is of the grammar is read, with the same values.

* `parseBracketed_sound` and `parseBracketed_complete` are the brackets of an array or an object,
  for any item that is read as its grammar says.  An item ends where a comma or a bracket stands, so
  what follows it must not be a part of it: a number that goes on would be another number
  (`stopsNumber_after`).
* `parseElement_reads` and `parseMember_reads` are the two kinds of item, with the limit on the
  elements and the keys that may not repeat.
* `parseValue_reads`: values, by induction on the levels of nesting left.  A value begins with a
  byte that says what kind it is (`startsClear_valueText`), so the first match decides.
* `parseConfigFile_of_document` and `storeAll` are the whole file and what is stored of it: with no
  key twice, every member is found under its key.

`parseConfigFile_correct` puts these together: a text within the size is accepted exactly when it is
a document, every member is stored as what it denotes, and nothing is stored of a text that is
refused.
-/

set_option autoImplicit false

namespace EosMesh

open Lib
open Std (TreeMap)

/-! ## Brackets -/

/-- Blanks, then a comma or a bracket. -/
theorem stopsNumber_after {after rest : Bytes} {c : UInt8} (hafter : Blank after)
    (hc : c = commaByte ∨ c = arrayClose ∨ c = objectClose) : StopsNumber (after ++ c :: rest) := by
  intro d hd
  cases after with
  | nil =>
    cases hd
    exact .inr hc
  | cons b after =>
    cases hd
    exact .inl (hafter _ List.mem_cons_self)

/-- No text of `G` begins with a blank or with `closing`. -/
def StartsClear {α : Type} (closing : UInt8) (G : Bytes → α → Prop) : Prop :=
  ∀ {text a}, G text a → ∃ c more, text = c :: more ∧ isWs c = false ∧ c ≠ closing

section Bracketed

variable {α : Type} {opening closing : UInt8} {item : List α → Read α}
  {unterminated expected : String} {OK : List α → α → Prop} {G : Bytes → α → Prop}

theorem parseBracketed_sound
    (hitem : ∀ acc, Reads (item acc) (fun text a ↦ OK acc a ∧ Padded isWs G text a) StopsNumber)
    {text rest : Bytes} {items : List α} (hopen : text.head? = some opening)
    (h : parseBracketed closing item unterminated expected text = .ok (items, rest)) :
    ∃ used, text = used ++ rest ∧ Bracketed opening closing G used items ∧
    Admitted OK [] items := by
  cases text with
  | nil => cases hopen
  | cons b inner =>
    cases hopen
    obtain ⟨before, hbefore, hinner⟩ := @skipBlanks_split _ isWs inner
    rw [parseBracketed, List.tail_cons, skipWs] at h
    split at h
    · rename_i hclose
      cases h
      refine ⟨opening :: (before ++ [closing]), ?_,
        ⟨_, rfl, .inl ⟨rfl, before, hbefore, rfl⟩⟩, trivial⟩
      have hskip := List.cons_head?_tail (Option.mem_def.2 hclose)
      rw [List.cons_append, List.append_assoc, List.singleton_append, hskip, ← hinner]
    · obtain ⟨used, as, hused, has, hitems, hadmitted⟩ := readItems_sound hitem h
      rw [List.nil_append] at has
      subst has
      refine ⟨opening :: (before ++ used), ?_, ⟨_, rfl, .inr (hitems.prepend hbefore)⟩, hadmitted⟩
      rw [hinner, hused, List.cons_append, List.append_assoc]

theorem parseBracketed_complete
    (hitem : ∀ acc, Reads (item acc) (fun text a ↦ OK acc a ∧ Padded isWs G text a) StopsNumber)
    (hstart : StartsClear closing G) (hclosing : closing = arrayClose ∨ closing = objectClose)
    {used : Bytes} {items : List α} (h : Bracketed opening closing G used items)
    (hadmitted : Admitted OK [] items) (rest : Bytes) :
    parseBracketed closing item unterminated expected (used ++ rest) = .ok (items, rest) := by
  have hclose : isWs closing = false := by rcases hclosing with rfl | rfl <;> decide
  have hcomma : closing ≠ commaByte := by rcases hclosing with rfl | rfl <;> decide
  obtain ⟨inner, rfl, ⟨rfl, blank, hblank, rfl⟩ | hitems⟩ := h
  · have hskip : skipBlanks isWs (blank ++ [closing] ++ rest) = closing :: rest := by
      rw [List.append_assoc, skipBlanks_append hblank, List.singleton_append,
        skipBlanks_cons_of_not hclose]
    rw [List.cons_append, parseBracketed, List.tail_cons, skipWs, hskip]
    exact if_pos rfl
  · obtain ⟨before, core, more, a, hbefore, rfl, hcore, hitems⟩ := hitems.strip
    obtain ⟨c, core, rfl, hws, hne⟩ := hstart hcore
    have hskip : skipBlanks isWs (before ++ (c :: core ++ more) ++ rest) = c :: core ++
      more ++ rest := by
      rw [List.append_assoc, skipBlanks_append hbefore]
      exact skipBlanks_cons_of_not hws _
    have hhead : ¬ (c :: core ++ more ++ rest).head? = some closing :=
      fun heq ↦ hne (Option.some.inj heq)
    rw [List.cons_append, parseBracketed, List.tail_cons, skipWs, hskip, if_neg hhead]
    refine readItems_complete hitem (by decide) hclose hcomma ?_ hitems hadmitted ?_
    · intro after d rest hafter hd
      refine stopsNumber_after hafter (hd.imp_right fun hd ↦ ?_)
      rw [hd]
      exact hclosing
    · have hlength : (c :: core ++ more ++ rest).length =
        (c :: core ++ more).length + rest.length :=
        List.length_append
      omega

end Bracketed

/-! ## Elements and members -/

variable {value : Read ValueNode} {V : Bytes → ValueNode → Prop}

theorem parseElement_reads (hvalue : Reads value (Padded isWs V) StopsNumber)
    (elements : List ValueNode) : Reads (parseElement value elements)
      (fun text node ↦ elements.length < maxArray ∧ Padded isWs V text node) StopsNumber where
  sound := by
    intro input node rest h
    rw [parseElement] at h
    split at h
    · cases h
    · rename_i hlength
      obtain ⟨used, htext, hV⟩ := hvalue.sound h
      exact ⟨used, htext, Nat.not_le.1 hlength, hV⟩
  complete := by
    rintro text node rest ⟨hlength, hV⟩ hstop
    rw [parseElement, if_neg (Nat.not_le.2 hlength)]
    exact hvalue.complete hV hstop

theorem parseMember_reads (hvalue : Reads value (Padded isWs V) StopsNumber)
    (members : List (Bytes × ValueNode)) : Reads (parseMember value members)
      (fun text member ↦ member.1 ∉ members.map Prod.fst ∧ Padded isWs (MemberText V) text member)
      StopsNumber where
  sound := by
    rintro input ⟨key, node⟩ rest h
    obtain ⟨before, hbefore, hinput⟩ := @skipBlanks_split _ isWs input
    rw [parseMember, skipWs] at h
    dsimp only at h
    split at h
    · cases h
    · rename_i hquote
      obtain ⟨⟨key', afterKey⟩, hkey, hrun⟩ := bind_eq_ok h
      obtain ⟨keyText, hkeyText, hquoted⟩ := parseString_sound (not_not.1 hquote) hkey
      obtain ⟨between, hbetween, hafterKey⟩ := @skipBlanks_split _ isWs afterKey
      dsimp only at hrun
      split at hrun
      · cases hrun
      · rename_i hnew
        split at hrun
        · cases hrun
        · rename_i hcolon
          obtain ⟨⟨node', left⟩, hnode, hok⟩ := bind_eq_ok hrun
          cases hok
          obtain ⟨valueText, hvalueText, hV⟩ := hvalue.sound hnode
          have hskip := List.cons_head?_tail (Option.mem_def.2 (not_not.1 hcolon))
          rw [hvalueText, skipWs] at hskip
          refine ⟨before ++ (keyText ++ between ++ colonByte :: valueText), ?_, hnew, before, _,
            hbefore, rfl, keyText, between, valueText, rfl, hquoted, hbetween, hV⟩
          rw [hinput, hkeyText, hafterKey, ← hskip]
          simp only [List.append_assoc, List.cons_append]
  complete := by
    rintro _ ⟨key, node⟩ rest ⟨hnew, before, _, hbefore, rfl, keyText, between,
      valueText, rfl, hquoted,
      hbetween, hV⟩ hstop
    obtain ⟨content, hcontent⟩ : ∃ content, keyText = quoteByte :: content := by
      obtain ⟨content, rfl, -⟩ := hquoted
      exact ⟨content ++ [quoteByte], rfl⟩
    have hinput : before ++ (keyText ++ between ++ colonByte :: valueText) ++ rest =
        before ++ (keyText ++ (between ++ colonByte :: (valueText ++ rest))) := by
      simp only [List.append_assoc, List.cons_append]
    have hskip : skipBlanks isWs (before ++ (keyText ++
      (between ++ colonByte :: (valueText ++ rest)))) =
        keyText ++ (between ++ colonByte :: (valueText ++ rest)) := by
      rw [skipBlanks_append hbefore, hcontent]
      exact skipBlanks_cons_of_not (by decide) _
    have hquote : ¬ (keyText ++ (between ++ colonByte :: (valueText ++ rest))).head? ≠ some
      quoteByte := by
      rw [hcontent]
      exact not_not.2 rfl
    have hcolon : skipBlanks isWs (between ++ colonByte :: (valueText ++ rest)) =
        colonByte :: (valueText ++ rest) := by
      rw [skipBlanks_append hbetween, skipBlanks_cons_of_not (by decide)]
    have hread : value (valueText ++ rest) = .ok (node, rest) := hvalue.complete hV hstop
    rw [hinput, parseMember, skipWs, hskip]
    dsimp only
    rw [if_neg hquote, parseString_complete hquoted]
    simp only [bind, Except.bind]
    rw [if_neg hnew, skipWs, hcolon]
    simp only [List.head?_cons, List.tail_cons, hread]
    rfl

theorem parseArray_sound (hvalue : Reads value (Padded isWs V) StopsNumber) {text rest : Bytes}
    {elements : List ValueNode} (hopen : text.head? = some arrayOpen)
    (h : parseArray value text = .ok (elements, rest)) :
    ∃ used, text = used ++ rest ∧ ArrayText V used elements := by
  obtain ⟨used, htext, hused, hadmitted⟩ :=
    parseBracketed_sound (parseElement_reads hvalue) hopen h
  have hlength := (admitted_length_iff (Nat.zero_le _)).1 hadmitted
  rw [List.length_nil, Nat.zero_add] at hlength
  exact ⟨used, htext, hused, hlength⟩

theorem parseArray_complete (hvalue : Reads value (Padded isWs V) StopsNumber)
    (hstart : StartsClear arrayClose V) {used : Bytes} {elements : List ValueNode}
    (h : ArrayText V used elements) (rest : Bytes) :
    parseArray value (used ++ rest) = .ok (elements, rest) := by
  refine parseBracketed_complete (parseElement_reads hvalue) hstart (.inl rfl) h.1 ?_ rest
  refine (admitted_length_iff (Nat.zero_le _)).2 ?_
  rw [List.length_nil, Nat.zero_add]
  exact h.2

/-- With nothing before them, the members are admitted when no key comes twice. -/
theorem admitted_members_iff (members : List (Bytes × ValueNode)) :
    Admitted (fun acc member ↦ member.1 ∉ acc.map Prod.fst) [] members ↔
      (members.map Prod.fst).Nodup :=
  @admitted_key_iff _ _ Prod.fst [] members List.nodup_nil

theorem startsClear_memberText (V : Bytes → ValueNode → Prop) :
    StartsClear objectClose (MemberText V) := by
  rintro _ member ⟨key, between, valueText, rfl, ⟨content, rfl, -⟩, -⟩
  exact ⟨quoteByte, _, rfl, by decide, by decide⟩

theorem parseObject_sound (hvalue : Reads value (Padded isWs V) StopsNumber) {text rest : Bytes}
    {members : List (Bytes × ValueNode)} (hopen : text.head? = some objectOpen)
    (h : parseObject value text = .ok (members, rest)) :
    ∃ used, text = used ++ rest ∧ ObjectText V used members := by
  obtain ⟨used, htext, hused, hadmitted⟩ :=
    parseBracketed_sound (parseMember_reads hvalue) hopen h
  exact ⟨used, htext, hused, (admitted_members_iff members).1 hadmitted⟩

theorem parseObject_complete (hvalue : Reads value (Padded isWs V) StopsNumber) {used : Bytes}
    {members : List (Bytes × ValueNode)} (h : ObjectText V used members) (rest : Bytes) :
    parseObject value (used ++ rest) = .ok (members, rest) :=
  parseBracketed_complete (parseMember_reads hvalue) (startsClear_memberText V) (.inr rfl) h.1
    ((admitted_members_iff members).2 h.2) rest

/-! ## Scalars -/

theorem parseLiteral_sound {literal text rest : Bytes} {node node' : ValueNode}
    (h : parseLiteral literal node text = .ok (node', rest)) :
    text = literal ++ rest ∧ node' = node := by
  rw [parseLiteral] at h
  split at h
  · rename_i hprefix
    cases h
    refine ⟨?_, rfl⟩
    conv_lhs => rw [← List.take_append_drop literal.length text, hprefix]
  · cases h

theorem parseLiteral_complete (literal rest : Bytes) (node : ValueNode) :
    parseLiteral literal node (literal ++ rest) = .ok (node, rest) := by
  rw [parseLiteral, List.take_left, if_pos rfl, List.drop_left]

/-- The bytes a scalar may begin with. -/
def startsScalar (c : UInt8) : Bool :=
  c == quoteByte || c == minusByte || isDigit c || c == 't'.toUInt8 || c == 'f'.toUInt8 ||
    c == 'n'.toUInt8

theorem ScalarText.start {text : Bytes} {node : ValueNode} (h : ScalarText text node) :
    ∃ c more, text = c :: more ∧ startsScalar c = true := by
  cases h with
  | string h =>
    obtain ⟨content, rfl, -⟩ := h
    exact ⟨quoteByte, _, rfl, by decide⟩
  | number h =>
    obtain ⟨n, rfl, -⟩ := h
    rcases n.sign_eq with hsign | hsign
    · obtain ⟨hne, hall⟩ := n.digits_whole
      obtain ⟨c, more, hwhole⟩ := List.exists_cons_of_ne_nil hne
      have hc : isDigit c = true := hall c (by rw [hwhole]; exact List.mem_cons_self)
      refine ⟨c, more ++ n.fraction ++ n.exponent, ?_, ?_⟩
      · rw [Numeral.text, hsign, hwhole]
        simp only [List.nil_append, List.cons_append]
      · simp only [startsScalar, hc, Bool.or_true, Bool.true_or]
    · refine ⟨minusByte, n.whole ++ n.fraction ++ n.exponent, ?_, by decide⟩
      rw [Numeral.text, hsign]
      simp only [List.nil_append, List.cons_append]
  | literalTrue => exact ⟨_, _, literal_bytes.1, by decide⟩
  | literalFalse => exact ⟨_, _, literal_bytes.2.1, by decide⟩
  | literalNull => exact ⟨_, _, literal_bytes.2.2, by decide⟩

/-- A byte that a scalar begins with is no blank and no bracket. -/
theorem startsScalar_clear {c : UInt8} (h : startsScalar c = true) :
    isWs c = false ∧ c ≠ objectOpen ∧ c ≠ arrayOpen ∧ c ≠ arrayClose := by
  have hall : ∀ n < 256, startsScalar (UInt8.ofNat n) = true → isWs (UInt8.ofNat n) = false ∧
      UInt8.ofNat n ≠ objectOpen ∧ UInt8.ofNat n ≠ arrayOpen ∧ UInt8.ofNat n ≠ arrayClose := by
    decide +kernel
  have hc := hall c.toNat c.toNat_lt
  rw [UInt8.ofNat_toNat] at hc
  exact hc h

/-! ## Values -/

variable {deeper : Except String (Read ValueNode)}

/-- A scalar behind its blanks is read at any depth. -/
theorem parseValueWith_scalar {before core rest : Bytes} {node : ValueNode} (hbefore : Blank before)
    (h : ScalarText core node) (hstop : StopsNumber rest) :
    parseValueWith deeper (before ++ core ++ rest) = .ok (node, rest) := by
  obtain ⟨c, more, hcore, hstart⟩ := h.start
  obtain ⟨hws, hobject, harray, -⟩ := startsScalar_clear hstart
  have hskip : skipWs (before ++ core ++ rest) = c :: (more ++ rest) := by
    rw [skipWs, List.append_assoc, skipBlanks_append hbefore, hcore]
    exact skipBlanks_cons_of_not hws _
  have htext : c :: (more ++ rest) = core ++ rest := by rw [hcore, List.cons_append]
  rw [parseValueWith, hskip]
  dsimp only
  rw [if_neg hobject, if_neg harray, htext]
  cases h with
  | string h =>
    obtain ⟨content, heq, -⟩ := id h
    rw [heq] at hcore
    have hc : c = quoteByte := (List.cons.inj hcore).1.symm
    rw [if_pos hc, parseString_complete h]
    rfl
  | number h =>
    obtain ⟨n, heq, -⟩ := id h
    have hc : c = minusByte ∨ isDigit c = true := by
      rw [heq, Numeral.text] at hcore
      rcases n.sign_eq with hsign | hsign
      · rw [hsign, List.nil_append, List.append_assoc] at hcore
        have hdigit := n.digits_whole.head (n.fraction ++ n.exponent)
        rw [hcore] at hdigit
        exact .inr hdigit
      · rw [hsign] at hcore
        exact .inl (List.cons.inj hcore).1.symm
    have hquote : c ≠ quoteByte := by
      rcases hc with rfl | hdigit
      · decide
      · rintro rfl
        revert hdigit
        decide
    rw [if_neg hquote, if_pos hc, parseNumber_complete h hstop]
  | literalTrue =>
    have hc : c = 't'.toUInt8 := by
      have hhead : (ascii "true").head? = some 't'.toUInt8 := by rw [literal_bytes.1]; rfl
      rw [hcore] at hhead
      exact Option.some.inj hhead
    rw [hc, if_neg (by decide), if_neg (by decide), if_pos rfl, parseLiteral_complete]
  | literalFalse =>
    have hc : c = 'f'.toUInt8 := by
      have hhead : (ascii "false").head? = some 'f'.toUInt8 := by rw [literal_bytes.2.1]; rfl
      rw [hcore] at hhead
      exact Option.some.inj hhead
    rw [hc, if_neg (by decide), if_neg (by decide), if_neg (by decide), if_pos rfl,
      parseLiteral_complete]
  | literalNull =>
    have hc : c = 'n'.toUInt8 := by
      have hhead : (ascii "null").head? = some 'n'.toUInt8 := by rw [literal_bytes.2.2]; rfl
      rw [hcore] at hhead
      exact Option.some.inj hhead
    rw [hc, if_neg (by decide), if_neg (by decide), if_neg (by decide), if_neg (by decide),
      if_pos rfl, parseLiteral_complete]

/-- What `parse_value` reads is a scalar, or what the level below reads in brackets. -/
theorem parseValueWith_sound {text rest : Bytes} {node : ValueNode}
    (h : parseValueWith deeper text = .ok (node, rest)) :
    ∃ before core, Blank before ∧ text = before ++ core ∧
      ((∃ used, core = used ++ rest ∧ ScalarText used node) ∨
        ∃ value, deeper = .ok value ∧
          ((core.head? = some arrayOpen ∧ ∃ elements, parseArray value core = .ok (elements, rest) ∧
              node = .array elements) ∨
            (core.head? = some objectOpen ∧ ∃ members,
              parseObject value core = .ok (members, rest) ∧
              node = .object))) := by
  obtain ⟨before, hbefore, htext⟩ := @skipBlanks_split _ isWs text
  refine ⟨before, skipWs text, hbefore, htext, ?_⟩
  rw [parseValueWith] at h
  cases hskip : skipWs text with
  | nil => rw [hskip] at h; cases h
  | cons c more =>
    rw [hskip] at h
    dsimp only at h
    split_ifs at h with hobject harray hquote hnumber htrue hfalse hnull
    · obtain ⟨value, hdeeper, hrun⟩ := bind_eq_ok h
      obtain ⟨⟨members, left⟩, hread, hok⟩ := bind_eq_ok hrun
      cases hok
      exact .inr ⟨value, hdeeper, .inr ⟨congrArg some hobject, members, hread, rfl⟩⟩
    · obtain ⟨value, hdeeper, hrun⟩ := bind_eq_ok h
      obtain ⟨⟨elements, left⟩, hread, hok⟩ := bind_eq_ok hrun
      cases hok
      exact .inr ⟨value, hdeeper, .inl ⟨congrArg some harray, elements, hread, rfl⟩⟩
    · obtain ⟨⟨str, left⟩, hread, hok⟩ := bind_eq_ok h
      cases hok
      have hopen : (c :: more).head? = some quoteByte := congrArg some hquote
      obtain ⟨used, hused, hstring⟩ := parseString_sound hopen hread
      exact .inl ⟨used, hused, .string hstring⟩
    · obtain ⟨used, hused, hnum⟩ := parseNumber_sound h
      exact .inl ⟨used, hused, .number hnum⟩
    · obtain ⟨hused, rfl⟩ := parseLiteral_sound h
      exact .inl ⟨_, hused, .literalTrue⟩
    · obtain ⟨hused, rfl⟩ := parseLiteral_sound h
      exact .inl ⟨_, hused, .literalFalse⟩
    · obtain ⟨hused, rfl⟩ := parseLiteral_sound h
      exact .inl ⟨_, hused, .literalNull⟩

/-- A value begins with a byte that is no blank and does not close an array. -/
theorem startsClear_valueText (left : Nat) : StartsClear arrayClose (ValueText left) := by
  intro text node h
  have hscalar : ScalarText text node →
      ∃ c more, text = c :: more ∧ isWs c = false ∧ c ≠ arrayClose := by
    intro h
    obtain ⟨c, more, htext, hstart⟩ := h.start
    obtain ⟨hws, -, -, hclose⟩ := startsScalar_clear hstart
    exact ⟨c, more, htext, hws, hclose⟩
  cases left with
  | zero => exact hscalar h
  | succ left =>
    rcases h with h | ⟨elements, ⟨⟨inner, rfl, -⟩, -⟩, -⟩ | ⟨members, ⟨⟨inner, rfl, -⟩, -⟩, -⟩
    · exact hscalar h
    · exact ⟨arrayOpen, inner, rfl, by decide, by decide⟩
    · exact ⟨objectOpen, inner, rfl, by decide, by decide⟩

/-- Values are read as the grammar has them, at every depth. -/
theorem parseValue_reads (left : Nat) :
    Reads (parseValue left) (Padded isWs (ValueText left)) StopsNumber := by
  induction left with
  | zero =>
    constructor
    · intro input node rest h
      obtain ⟨before, core, hbefore, rfl, ⟨used, rfl, hscalar⟩ | ⟨value, hdeeper, -⟩⟩ :=
        parseValueWith_sound h
      · exact ⟨before ++ used, (List.append_assoc ..).symm, before, used, hbefore, rfl, hscalar⟩
      · cases hdeeper
    · rintro _ node rest ⟨before, core, hbefore, rfl, hscalar⟩ hstop
      exact parseValueWith_scalar hbefore hscalar hstop
  | succ left ih =>
    constructor
    · intro input node rest h
      obtain ⟨before, core, hbefore, rfl, hcase⟩ := parseValueWith_sound h
      have hfound : ∃ used, core = used ++ rest ∧ ValueText (left + 1) used node := by
        obtain ⟨used, hused, hscalar⟩ | ⟨value, hdeeper, ⟨hopen, elements, hread, hnode⟩ |
          ⟨hopen, members, hread, hnode⟩⟩ := hcase
        · exact ⟨used, hused, .inl hscalar⟩
        · cases hdeeper
          obtain ⟨used, hused, harray⟩ := parseArray_sound ih hopen hread
          exact ⟨used, hused, .inr (.inl ⟨elements, harray, hnode⟩)⟩
        · cases hdeeper
          obtain ⟨used, hused, hobject⟩ := parseObject_sound ih hopen hread
          exact ⟨used, hused, .inr (.inr ⟨members, hobject, hnode⟩)⟩
      obtain ⟨used, rfl, hvalue⟩ := hfound
      exact ⟨before ++ used, (List.append_assoc ..).symm, before, used, hbefore, rfl, hvalue⟩
    · rintro _ node rest ⟨before, core, hbefore, rfl, hvalue⟩ hstop
      rcases hvalue with hscalar | ⟨elements, harray, rfl⟩ | ⟨members, hobject, rfl⟩
      · exact parseValueWith_scalar hbefore hscalar hstop
      · have hread := parseArray_complete ih (startsClear_valueText left) harray rest
        obtain ⟨⟨inner, rfl, -⟩, -⟩ := harray
        have hskip : skipWs (before ++ arrayOpen :: inner ++ rest) =
          arrayOpen :: inner ++ rest := by
          rw [skipWs, List.append_assoc, skipBlanks_append hbefore]
          exact skipBlanks_cons_of_not (by decide) _
        rw [parseValue, parseValueWith, hskip, List.cons_append]
        dsimp only
        rw [if_neg (by decide), if_pos rfl, ← List.cons_append]
        simp only [bind, Except.bind, hread]
      · have hread := parseObject_complete ih hobject rest
        obtain ⟨⟨inner, rfl, -⟩, -⟩ := hobject
        have hskip : skipWs (before ++ objectOpen :: inner ++ rest) =
            objectOpen :: inner ++ rest := by
          rw [skipWs, List.append_assoc, skipBlanks_append hbefore]
          exact skipBlanks_cons_of_not (by decide) _
        rw [parseValue, parseValueWith, hskip, List.cons_append]
        dsimp only
        rw [if_pos rfl, ← List.cons_append]
        simp only [bind, Except.bind, hread]

/-! ## The file -/

/-- The text of a file, before its size is looked at. -/
def DocumentText (bytes : Bytes) (members : List (Bytes × ValueNode)) : Prop :=
  ∃ mark before object after, bytes = mark ++ before ++ object ++ after ∧
    (mark = [] ∨ mark = byteOrderMark) ∧ Blank before ∧ Blank after ∧
    ObjectText (ValueText (maxDepth - 1)) object members

/-- What is stored once the members are read. -/
def storeAll (members : List (Bytes × ValueNode)) : ConfigFile :=
  members.foldl (fun out member ↦ out.store member.1 member.2) {}

theorem parse_sound {bytes : Bytes} {file : ConfigFile} (h : parse bytes = .ok file) :
    ∃ members, DocumentText bytes members ∧ file = storeAll members := by
  have hmark : ∃ mark body, (mark = [] ∨ mark = byteOrderMark) ∧ bytes = mark ++ body ∧
      (if bytes.take 3 = byteOrderMark then bytes.drop 3 else bytes) = body := by
    split
    · rename_i hbom
      refine ⟨byteOrderMark, bytes.drop 3, .inr rfl, ?_, rfl⟩
      conv_lhs => rw [← List.take_append_drop 3 bytes, hbom]
    · exact ⟨[], bytes, .inl rfl, rfl, rfl⟩
  obtain ⟨mark, body, hmark, hbytes, hstrip⟩ := hmark
  obtain ⟨before, hbefore, hbody⟩ := @skipBlanks_split _ isWs body
  rw [parse, hstrip, skipWs] at h
  dsimp only at h
  split at h
  · cases h
  · rename_i hopen
    obtain ⟨⟨members, left⟩, hread, hrun⟩ := bind_eq_ok h
    obtain ⟨object, hobject, htext⟩ :=
      parseObject_sound (parseValue_reads (maxDepth - 1)) (not_not.1 hopen) hread
    dsimp only at hrun
    split at hrun
    · cases hrun
    · rename_i htrailing
      cases hrun
      refine ⟨members, ⟨mark, before, object, left, ?_, hmark, hbefore,
        allBlank_of_skipBlanks (not_not.1 htrailing), htext⟩, rfl⟩
      rw [hobject] at hbody
      rw [hbytes, hbody]
      simp only [List.append_assoc]

theorem parse_complete {bytes : Bytes} {members : List (Bytes × ValueNode)}
    (h : DocumentText bytes members) : parse bytes = .ok (storeAll members) := by
  obtain ⟨mark, before, object, after, rfl, hmark, hbefore, hafter, hobject⟩ := h
  have hread := parseObject_complete (parseValue_reads (maxDepth - 1)) hobject after
  obtain ⟨⟨inner, rfl, -⟩, -⟩ := hobject
  have hbody : (if (mark ++ before ++ objectOpen :: inner ++ after).take 3 = byteOrderMark then
      (mark ++ before ++ objectOpen :: inner ++ after).drop 3
      else mark ++ before ++ objectOpen :: inner ++ after) =
      before ++ (objectOpen :: inner ++ after) := by
    rcases hmark with rfl | rfl
    · have hfirst : ∃ c more, before ++ (objectOpen :: inner ++ after) = c :: more ∧ c ≠ 0xEF := by
        cases before with
        | nil => exact ⟨objectOpen, inner ++ after, rfl, by decide⟩
        | cons c before =>
          refine ⟨c, _, rfl, ?_⟩
          rintro rfl
          have hblank := hbefore 0xEF List.mem_cons_self
          revert hblank
          decide
      obtain ⟨c, more, heq, hc⟩ := hfirst
      rw [List.nil_append, List.append_assoc, heq]
      exact if_neg fun hbom ↦ hc (List.cons.inj hbom).1
    · have hassoc : byteOrderMark ++ before ++ objectOpen :: inner ++ after =
          byteOrderMark ++ (before ++ (objectOpen :: inner ++ after)) := by
        simp only [List.append_assoc]
      rw [hassoc]
      exact if_pos rfl
  have hskip : skipWs (before ++ (objectOpen :: inner ++ after)) =
    objectOpen :: inner ++ after := by
    rw [skipWs, skipBlanks_append hbefore]
    exact skipBlanks_cons_of_not (by decide) _
  have hopen : ¬ (objectOpen :: inner ++ after).head? ≠ some objectOpen := not_not.2 rfl
  rw [parse, hbody, hskip]
  dsimp only
  rw [if_neg hopen, hread]
  have hrest : skipWs after = [] := skipBlanks_of_allBlank hafter
  change (if skipWs after ≠ [] then _ else _) = _
  rw [if_neg (not_not.2 hrest)]
  rfl

/-! ### What is stored -/

theorem mapM_toInt (ints : List Int) :
    (ints.map ValueNode.int).mapM ValueNode.toInt? = some ints := by
  induction ints with
  | nil => rfl
  | cons i ints ih =>
    rw [List.map_cons, List.mapM_cons, ih]
    rfl

theorem lookup_store (out : ConfigFile) (key key' : Bytes) (value : ValueNode) :
    (out.store key value).nodes[key']? =
      if key = key' then some value.shape else out.nodes[key']? :=
  lookup_insert out.nodes key key' value.shape

theorem lookup_storeAll_of_notMem {members : List (Bytes × ValueNode)} {key : Bytes}
    (h : key ∉ members.map Prod.fst) (out : ConfigFile) :
    (members.foldl (fun out member ↦ out.store member.1 member.2) out).nodes[key]? =
      out.nodes[key]? := by
  induction members generalizing out with
  | nil => rfl
  | cons member members ih =>
    rw [List.map_cons, List.mem_cons, not_or] at h
    rw [List.foldl_cons, ih h.2, lookup_store, if_neg (Ne.symm h.1)]

/-- With no key twice, every member is found under its key. -/
theorem lookup_storeAll_of_mem {members : List (Bytes × ValueNode)}
    (hnodup : (members.map Prod.fst).Nodup) {member : Bytes × ValueNode} (h : member ∈ members)
    (out : ConfigFile) :
    (members.foldl (fun out member ↦ out.store member.1 member.2) out).nodes[member.1]? =
      some member.2.shape := by
  induction members generalizing out with
  | nil => cases h
  | cons first members ih =>
    rw [List.map_cons, List.nodup_cons] at hnodup
    rw [List.foldl_cons]
    rcases List.mem_cons.1 h with rfl | h
    · rw [lookup_storeAll_of_notMem hnodup.1, lookup_store, if_pos rfl]
    · exact ih hnodup.2 h _

theorem stored_of_lookup {out : ConfigFile} {key : Bytes} {value : ValueNode}
    (h : out.nodes[key]? = some value.shape) : Stored out key value := by
  refine ⟨?_, ?_, ?_, ?_⟩
  · rintro str rfl
    rw [ConfigFile.getString, h]
    rfl
  · rintro integer rfl
    rw [ConfigFile.getInt, h]
    rfl
  · rintro flag rfl
    rw [ConfigFile.getBool, h]
    rfl
  · rintro ints rfl
    rw [h, ValueNode.shape, mapM_toInt]

/-! ### The parser and its grammar -/

/-- A text within the size is a document exactly when it is read, and then its members are what is
stored. -/
theorem parseConfigFile_of_document {bytes : Bytes} {members : List (Bytes × ValueNode)}
    (h : Document bytes members) (out : ConfigFile) (error : String) :
    parseConfigFile bytes out error =
      { accepted := true, out := storeAll members, error } := by
  rw [parseConfigFile, if_neg (Nat.not_lt.2 h.size), parse_complete h.text]

theorem document_of_accepted {bytes : Bytes} {out : ConfigFile} {error : String}
    (h : (parseConfigFile bytes out error).accepted = true) : ∃ members,
    Document bytes members := by
  rw [parseConfigFile] at h
  split at h
  · cases h
  · rename_i hsize
    cases hparse : parse bytes with
    | error message => rw [hparse] at h; cases h
    | ok file =>
      obtain ⟨members, htext, -⟩ := parse_sound hparse
      exact ⟨members, Nat.not_lt.1 hsize, htext⟩

theorem out_of_refused {bytes : Bytes} {out : ConfigFile} {error : String}
    (h : (parseConfigFile bytes out error).accepted = false) :
    (parseConfigFile bytes out error).out = {} := by
  rw [parseConfigFile] at h ⊢
  split
  · rfl
  · rename_i hsize
    rw [if_neg hsize] at h
    cases hparse : parse bytes with
    | error message => rfl
    | ok file => rw [hparse] at h; cases h

/-- The parser accepts exactly the documents of the grammar, stores what they denote, and leaves
nothing behind when it fails. -/
theorem parseConfigFile_correct (bytes : Bytes) (out : ConfigFile) (error : String) :
    ((parseConfigFile bytes out error).accepted = true ↔ ∃ members, Document bytes members) ∧
    (∀ members, Document bytes members →
      (∀ member ∈ members, Stored (parseConfigFile bytes out error).out member.1 member.2) ∧
      ∀ key, key ∉ members.map Prod.fst →
        (parseConfigFile bytes out error).out.nodes[key]? = none) ∧
    ((parseConfigFile bytes out error).accepted = false →
      (parseConfigFile bytes out error).out = {}) := by
  refine ⟨⟨document_of_accepted, fun ⟨members, h⟩ ↦ ?_⟩, fun members h ↦ ?_, out_of_refused⟩
  · rw [parseConfigFile_of_document h]
  · rw [parseConfigFile_of_document h]
    obtain ⟨mark, before, object, after, -, -, -, -, -, hnodup⟩ := h.text
    refine ⟨fun member hmember ↦ stored_of_lookup (lookup_storeAll_of_mem hnodup hmember {}), ?_⟩
    intro key hkey
    exact (lookup_storeAll_of_notMem hkey {}).trans TreeMap.getElem?_emptyc

/-- A file with a string, an array of integers and an object inside. -/
def sampleFile : Bytes :=
  ascii "\x7b\"locale\": \"fr\", \"discovery_ports\": [55789, 55790], \"x\": \x7b\x7d\x7d"

theorem parseConfigFile_sample : ∃ members, Document sampleFile members ∧
    ∀ member ∈ members, Stored (parseConfigFile sampleFile {} "").out member.1 member.2 := by
  obtain ⟨members, h⟩ := (parseConfigFile_correct sampleFile {} "").1.1 (by decide +kernel)
  exact ⟨members, h, ((parseConfigFile_correct sampleFile {} "").2.1 members h).1⟩

end EosMesh
