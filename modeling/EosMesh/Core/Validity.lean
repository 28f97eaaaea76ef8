import EosMesh.Core.Precedence

/-!
# What a resolved configuration promises

Every field of a resolved configuration is read by code that relies on it: the name goes onto the
wire and into fixed buffers, the ports are bound, the paths reach the C library.  The values come
from the environment, from a file, or are the defaults, and each passes a check on the way.

* `ResolvedConfig.Valid` is the documented validity, field by field, with nothing of the checks in
  it.
* The checks give what they promise of the raw value (`validPorts_sound`, `validLabel_sound`,
  `textRejectReason_eq_none`); a value that is selected has passed its check, of the environment
  (`checked_of_envLayer`) or of the file (`checked_of_fileLayer`, `checked_of_fileTextLayer`).
* A name is not refused for its length but cut, and `displayName_truncate` is that a name which is
  not empty is not cut to nothing.
* `LanguageTag` is where the check is weaker than its documentation: `validLocale` counts no
  separators and asks for no letter (`validLocale_iff`).
* `resolveConfig_valid_iff`: the configuration is valid exactly when the language tag that is looked
  at, if it passes the check, is one.  `resolveConfig_invalid` is a tag with two separators.
-/

set_option autoImplicit false

namespace EosMesh

open Lib

variable {α β : Type}

/-! ## Validity -/

/-- Non-empty, UTF-8, no NUL, and within both caps. -/
def DisplayName (name : Bytes) : Prop :=
  (∃ chars, name = utf8Encode chars ∧ 0 < chars.length ∧ chars.length ≤ maxDisplayChars) ∧
    name.length ≤ maxDisplayBytes ∧ 0 ∉ name

/-- Ports that exist, in order and not too many. -/
def DiscoveryRange.Valid (range : DiscoveryRange) : Prop :=
  0 < range.first.toNat ∧ range.first.toNat ≤ range.last.toNat ∧
    range.last.toNat - range.first.toNat + 1 ≤ 64

/-- A label that is safe as a path component. -/
def PathSafe (label : Bytes) : Prop :=
  0 < label.length ∧ label.length ≤ maxLabelChars ∧ label ≠ ascii "." ∧ label ≠ ascii ".." ∧
    ∀ c ∈ label, isLetter c ∨ isDigit c ∨ c = '.'.toUInt8 ∨ c = '_'.toUInt8 ∨ c = '-'.toUInt8

/-- Letters, sixteen at most, and at most one separator among them. -/
def LanguageTag (tag : Bytes) : Prop :=
  tag.length ≤ maxLocaleChars ∧ (∀ c ∈ tag, isLetter c ∨ isSeparator c) ∧
    1 ≤ tag.countP isLetter ∧ tag.countP isSeparator ≤ 1

/-- Every setting is within its bounds. -/
structure ResolvedConfig.Valid (config : ResolvedConfig) : Prop where
  displayName : DisplayName config.displayName
  discoveryPorts : config.discoveryPorts.Valid
  traceMaxBytes : minMaxBytes ≤ config.traceMaxBytes.toNat ∧
    config.traceMaxBytes.toNat ≤ maxMaxBytes
  traceMaxRotatedFiles : config.traceMaxRotatedFiles.toNat ≤ maxRotated
  instanceLabel : config.instanceLabel = [] ∨ PathSafe config.instanceLabel
  locale : LanguageTag config.locale
  dataDir : 0 ∉ config.dataDir
  runDir : 0 ∉ config.runDir
  traceDir : 0 ∉ config.traceDir

/-- What the callers hand to resolution: a directory out of the C environment and the built-in
ports. -/
structure ConfigDefaults.Valid (defaults : ConfigDefaults) : Prop where
  dataDir : 0 ∉ defaults.dataDir
  defaultPorts : defaults.defaultPorts.Valid

/-! ## What the checks give -/

theorem hasNul_eq_false_iff (text : Bytes) : hasNul text = false ↔ 0 ∉ text := by
  rw [hasNul, ← Bool.not_eq_true, List.contains_iff_mem]

theorem pathRejectReason_eq_none {text : Bytes} (h : pathRejectReason text = none) : 0 ∉ text := by
  rw [pathRejectReason] at h
  split at h
  · cases h
  · rename_i hnul
    exact (hasNul_eq_false_iff text).1 (by simpa using hnul)

theorem textRejectReason_eq_none {text : Bytes} (h : textRejectReason text = none) :
    0 ∉ text ∧ WellFormedUtf8 text := by
  rw [textRejectReason] at h
  split_ifs at h with hnul hutf8
  exact ⟨(hasNul_eq_false_iff text).1 (by simpa using hnul), (utf8Valid_iff text).1 hutf8⟩

theorem validLabel_sound {label : Bytes} (h : validLabel label = true) : PathSafe label := by
  rw [validLabel] at h
  split at h
  · cases h
  · rename_i hshape
    simp only [not_or, Nat.not_lt] at hshape
    obtain ⟨hempty, hlength, hdot, hdots⟩ := hshape
    refine ⟨List.length_pos_iff.2 hempty, hlength, hdot, hdots, fun c hc ↦ ?_⟩
    have hok := List.all_eq_true.1 h c hc
    simp only [Bool.or_eq_true, beq_iff_eq] at hok
    rw [isLetter, Bool.or_eq_true]
    tauto

theorem validPorts_sound {first last : Int} {range : DiscoveryRange}
    (h : validPorts first last = some range) : range.Valid := by
  rw [validPorts] at h
  split at h
  · cases h
  · rename_i hbounds
    cases h
    simp only [maxPort, maxPortSpan, not_or, not_le, not_lt] at hbounds
    obtain ⟨hfirst, hlast, hmax, hmax', hle, hspan⟩ := hbounds
    have hf : (UInt16.ofNat first.toNat).toNat = first.toNat :=
      UInt16.toNat_ofNat_of_lt (by simp only [UInt16.size]; omega)
    have hl : (UInt16.ofNat last.toNat).toNat = last.toNat :=
      UInt16.toNat_ofNat_of_lt (by simp only [UInt16.size]; omega)
    refine ⟨?_, ?_, ?_⟩ <;> simp only [hf, hl] <;> omega

/-- The check of a language tag, as the code has it. -/
theorem validLocale_iff (tag : Bytes) : validLocale tag = true ↔
    0 < tag.length ∧ tag.length ≤ maxLocaleChars ∧ ∀ c ∈ tag, isLetter c ∨ isSeparator c := by
  rw [validLocale]
  split
  · rename_i hshape
    refine ⟨fun h ↦ Bool.noConfusion h, fun ⟨hpos, hle, _⟩ ↦ ?_⟩
    rcases hshape with rfl | hlong
    · exact absurd hpos (lt_irrefl 0)
    · omega
  · rename_i hshape
    obtain ⟨hempty, hlength⟩ := not_or.1 hshape
    rw [List.all_eq_true]
    simp only [Bool.or_eq_true]
    exact ⟨fun h ↦ ⟨List.length_pos_iff.2 hempty, Nat.not_lt.1 hlength, h⟩, fun h ↦ h.2.2⟩

theorem clamped_mem {low high value : Int} (hlow : 0 ≤ low) (h : low ≤ high) :
    low ≤ clamped low high value ∧ clamped low high value ≤ high := by
  rw [clamped, Int.toNat_of_nonneg (le_trans hlow (le_max_left _ _))]
  exact ⟨le_max_left _ _, max_le h (min_le_right _ _)⟩

/-! ## What is selected has passed its check -/

theorem checked_of_envLayer {source : ConfigSource} {name : String}
    {check : Bytes → Except String α} {value : α}
    (h : (envLayer source name check).held = some value) :
    ∃ raw, raw ≠ [] ∧ check raw = .ok value := by
  rw [envLayer] at h
  cases hraw : envValue source name with
  | none => rw [hraw] at h; cases h
  | some raw =>
    have hne : raw ≠ [] := by
      obtain ⟨-, hkept⟩ := Option.filter_eq_some_iff.1 hraw
      rintro rfl
      cases hkept
    rw [hraw, Option.map_some] at h
    cases hcheck : check raw with
    | error reason => rw [hcheck] at h; cases h
    | ok v => rw [hcheck] at h; cases h; exact ⟨raw, hne, hcheck⟩

theorem checked_of_fileLayer {found : Lookup β} {check : β → Except String α} {value : α}
    (h : (fileLayer found check).held = some value) :
    ∃ raw, found = .ok raw ∧ check raw = .ok value := by
  rcases found with _ | raw | _
  · cases h
  · change Layer.held (some (check raw)) = some value at h
    cases hcheck : check raw with
    | error reason => rw [hcheck] at h; cases h
    | ok v => rw [hcheck] at h; cases h; exact ⟨raw, rfl, hcheck⟩
  · cases h

theorem checked_of_fileTextLayer {found : Lookup Bytes} {check : Bytes → Except String α}
    {value : α} (h : (fileTextLayer found check).held = some value) :
    ∃ raw, raw ≠ [] ∧ check raw = .ok value := by
  rcases found with _ | raw | _
  · cases h
  · cases raw with
    | nil => cases h
    | cons c rest =>
      obtain ⟨raw, hraw, hcheck⟩ := checked_of_fileLayer
        (show (fileLayer (Lookup.ok (c :: rest)) check).held = some value from h)
      cases hraw
      exact ⟨c :: rest, by simp, hcheck⟩
  · cases h

theorem held_of_highest {setting : ConfigSetting α} {value : α}
    (h : highest setting.layers = some value) :
    setting.environment.held = some value ∨ setting.file.held = some value := by
  rw [ConfigSetting.layers, highest_cons, highest_cons, highest_nil, Option.or_none] at h
  exact Option.or_eq_some_iff.1 h |>.imp_right And.right

theorem of_unlessRejected {reject : Bytes → Option String} {raw value : Bytes}
    (h : unlessRejected reject raw = .ok value) : value = raw ∧ reject raw = none := by
  rw [unlessRejected] at h
  cases hreject : reject raw with
  | none => rw [hreject] at h; cases h; exact ⟨rfl, rfl⟩
  | some reason => rw [hreject] at h; cases h

theorem of_orRefuse {valid : Bytes → Bool} {reason : String} {raw value : Bytes}
    (h : orRefuse valid reason raw = .ok value) : value = raw ∧ valid raw = true := by
  rw [orRefuse] at h
  split at h
  · rename_i hvalid
    cases h
    exact ⟨rfl, hvalid⟩
  · cases h

theorem of_orElseError {parse : β → Option α} {reason : String} {raw : β} {value : α}
    (h : orElseError parse reason raw = .ok value) : parse raw = some value := by
  rw [orElseError] at h
  cases hparse : parse raw with
  | none => rw [hparse] at h; cases h
  | some v => rw [hparse] at h; cases h; rfl

/-! ## The fields -/

theorem displayName_selected {source : ConfigSource} {name : Bytes}
    (h : highest (displayNameSetting source).layers = some name) :
    name ≠ [] ∧ 0 ∉ name ∧ WellFormedUtf8 name := by
  obtain ⟨raw, hne, hcheck⟩ := (held_of_highest h).elim checked_of_envLayer checked_of_fileTextLayer
  obtain ⟨rfl, hreject⟩ := of_unlessRejected hcheck
  exact ⟨hne, textRejectReason_eq_none hreject⟩

/-- A name that is not empty is not cut to nothing: the longest character is within the caps. -/
theorem displayName_truncate {name : Bytes} (hne : name ≠ []) (hnul : 0 ∉ name)
    (hutf8 : WellFormedUtf8 name) :
    DisplayName (utf8Truncate name maxDisplayChars maxDisplayBytes) := by
  obtain ⟨chars, rfl⟩ := hutf8
  obtain ⟨kept, dropped, rfl, hcut, hchars, hbytes, hnext⟩ :=
    utf8Truncate_encode chars maxDisplayChars maxDisplayBytes
  have hpos : 0 < kept.length := by
    cases kept with
    | cons _ _ => exact Nat.succ_pos _
    | nil =>
      cases dropped with
      | nil => exact absurd rfl hne
      | cons next more =>
        have hlong := hnext next more rfl (by decide)
        have hfour := next.utf8Size_le_four
        rw [List.nil_append, utf8Encode_cons, utf8Encode_nil, List.append_nil,
          String.length_utf8EncodeChar, maxDisplayBytes] at hlong
        omega
  refine ⟨⟨kept, hcut, hpos, hchars⟩, by rw [hcut]; exact hbytes, fun h ↦ hnul ?_⟩
  exact List.mem_of_mem_take h

theorem displayName_valid (source : ConfigSource) : DisplayName (resolveDisplayName source).1 := by
  have hvalue : (resolveDisplayName source).1 = _ := eachLayer_finish fun _ _ ↦ rfl
  rw [hvalue]
  cases h : highest (displayNameSetting source).layers with
  | none =>
    refine ⟨⟨"Player".toList, ?_, ?_, ?_⟩, ?_, ?_⟩ <;> decide +kernel
  | some name =>
    obtain ⟨hne, hnul, hutf8⟩ := displayName_selected h
    exact displayName_truncate hne hnul hutf8

theorem discoveryPorts_valid (source : ConfigSource) {default : DiscoveryRange}
    (hdefault : default.Valid) : (resolveDiscoveryPorts source default).1.Valid := by
  have hvalue : (resolveDiscoveryPorts source default).1 = _ :=
    eachLayer_finish (g := id) fun _ _ ↦ rfl
  rw [hvalue]
  cases h : highest (discoveryPortsSetting source).layers with
  | none => exact hdefault
  | some range =>
    rcases held_of_highest h with henv | hfile
    · obtain ⟨raw, -, hcheck⟩ := checked_of_envLayer henv
      obtain ⟨_, -, hports⟩ := Option.bind_eq_some_iff.1 (of_orElseError hcheck)
      exact validPorts_sound hports
    · obtain ⟨raw, -, hcheck⟩ := checked_of_fileLayer hfile
      exact validPorts_sound (of_orElseError hcheck)

theorem traceMaxBytes_valid (source : ConfigSource) :
    minMaxBytes ≤ (resolveTraceMaxBytes source).1.toNat ∧
      (resolveTraceMaxBytes source).1.toNat ≤ maxMaxBytes := by
  have hvalue : (resolveTraceMaxBytes source).1 = _ :=
    eachLayer_finish fun v layer ↦ clampBytes_eq v layer
  rw [hvalue]
  cases highest (traceMaxBytesSetting source).layers with
  | none => exact ⟨by decide, by decide⟩
  | some value =>
    have hmem : (minMaxBytes : Int) ≤ clamped minMaxBytes maxMaxBytes value ∧
        (clamped minMaxBytes maxMaxBytes value : Int) ≤ maxMaxBytes :=
      clamped_mem (by decide) (by decide)
    have hsize : maxMaxBytes < UInt64.size := by decide
    have hn : (UInt64.ofNat (clamped minMaxBytes maxMaxBytes value)).toNat =
        clamped minMaxBytes maxMaxBytes value := UInt64.toNat_ofNat_of_lt (by omega)
    rw [Option.elim_some, hn]
    omega

theorem traceMaxRotated_valid (source : ConfigSource) :
    (resolveTraceMaxRotated source).1.toNat ≤ maxRotated := by
  have hvalue : (resolveTraceMaxRotated source).1 = _ :=
    eachLayer_finish fun v layer ↦ clampRotated_eq v layer
  rw [hvalue]
  cases highest (traceMaxRotatedSetting source).layers with
  | none => decide
  | some value =>
    have hmem : (0 : Int) ≤ clamped 0 maxRotated value ∧
        (clamped 0 maxRotated value : Int) ≤ maxRotated := clamped_mem (by decide) (by decide)
    have hsize : maxRotated < UInt32.size := by decide
    have hn : (UInt32.ofNat (clamped 0 maxRotated value)).toNat = clamped 0 maxRotated value :=
      UInt32.toNat_ofNat_of_lt (by omega)
    rw [Option.elim_some, hn]
    omega

theorem instanceLabel_valid (source : ConfigSource) :
    (resolveInstanceLabel source).1 = [] ∨ PathSafe (resolveInstanceLabel source).1 := by
  have hvalue : (resolveInstanceLabel source).1 = _ := eachLayer_finish (g := id) fun _ _ ↦ rfl
  rw [hvalue]
  cases h : highest (instanceLabelSetting source).layers with
  | none => exact .inl rfl
  | some label =>
    obtain ⟨raw, -, hcheck⟩ :=
      (held_of_highest h).elim checked_of_envLayer checked_of_fileTextLayer
    obtain ⟨rfl, hvalid⟩ := of_orRefuse hcheck
    exact .inr (validLabel_sound hvalid)

theorem runDir_valid (source : ConfigSource) : 0 ∉ (resolveRunDir source).1 := by
  have hvalue : (resolveRunDir source).1 = _ := eachLayer_finish (g := id) fun _ _ ↦ rfl
  rw [hvalue]
  cases h : highest (runDirSetting source).layers with
  | none => exact List.not_mem_nil
  | some dir =>
    rcases held_of_highest h with henv | hfile
    · obtain ⟨raw, -, hcheck⟩ := checked_of_envLayer henv
      obtain ⟨rfl, hreject⟩ := of_unlessRejected hcheck
      exact pathRejectReason_eq_none hreject
    · cases hfile

theorem resolvePath_valid {platform : Platform} {dataDir dir : Bytes} (hdata : 0 ∉ dataDir)
    (hdir : 0 ∉ dir) : 0 ∉ resolvePath platform dataDir dir := by
  rw [resolvePath]
  split
  · exact hdir
  · have hslash : 0 ∉ ascii "/" := by decide +kernel
    simp only [List.mem_append, not_or]
    exact ⟨⟨hdata, hslash⟩, hdir⟩

/-- What the first layer that holds anything has, if it is not refused, is one of the two. -/
theorem held_of_firstPresent {setting : ConfigSetting α} {value : α}
    (h : firstPresent setting.layers = some value) :
    setting.environment.held = some value ∨ setting.file.held = some value := by
  obtain ⟨environment, file⟩ := setting
  rcases environment with _ | reason | held
  · rcases file with _ | reason' | held'
    · cases h
    · cases h
    · exact .inr h
  · cases h
  · exact .inl h

theorem traceDir_valid (platform : Platform) (source : ConfigSource) {dataDir : Bytes}
    (hdata : 0 ∉ dataDir) : 0 ∉ (resolveTraceDir platform source dataDir).1 := by
  have hvalue : (resolveTraceDir platform source dataDir).1 = _ :=
    firstLayer_finish fun _ _ ↦ rfl
  rw [hvalue]
  cases h : firstPresent (traceDirSetting source).layers with
  | none => exact resolvePath_valid hdata (by decide +kernel)
  | some dir =>
    obtain ⟨raw, -, hcheck⟩ :=
      (held_of_firstPresent h).elim checked_of_envLayer checked_of_fileTextLayer
    obtain ⟨rfl, hreject⟩ := of_unlessRejected hcheck
    exact resolvePath_valid hdata (pathRejectReason_eq_none hreject)

/-! ## The language tag -/

/-- The text that is looked at for the locale: the environment's, or else the file's. -/
def localeCandidate (source : ConfigSource) : Option Bytes :=
  match envValue source "EOSR_LOCALE", fileAlias source "locale" "language" with
  | some tag, _ => some tag
  | none, .ok [] => none
  | none, .ok tag => some tag
  | none, _ => none

theorem firstPresent_locale (source : ConfigSource) :
    firstPresent (localeSetting source).layers = (localeCandidate source).filter validLocale := by
  have hcheck : ∀ tag : Bytes,
      Layer.held (some (orRefuse validLocale "not a language tag" tag)) =
        (some tag).filter validLocale := by
    intro tag
    rw [orRefuse, Option.filter_some]
    split <;> rfl
  rw [ConfigSetting.layers, localeSetting, envLayer, localeCandidate]
  cases envValue source "EOSR_LOCALE" with
  | some tag => exact hcheck tag
  | none =>
    rcases fileAlias source "locale" "language" with _ | raw | _
    · rfl
    · cases raw with
      | nil => rfl
      | cons c rest => exact hcheck (c :: rest)
    · rfl

theorem locale_valid_iff (source : ConfigSource) : LanguageTag (resolveLocale source).1 ↔
    ∀ tag, localeCandidate source = some tag → validLocale tag = true →
      1 ≤ tag.countP isLetter ∧ tag.countP isSeparator ≤ 1 := by
  have hvalue : (resolveLocale source).1 = _ := firstLayer_finish (g := id) fun _ _ ↦ rfl
  have henglish : LanguageTag (ascii "en") := by
    refine ⟨?_, ?_, ?_, ?_⟩ <;> decide +kernel
  rw [hvalue, firstPresent_locale]
  cases localeCandidate source with
  | none => exact ⟨fun _ _ h ↦ (nomatch h), fun _ ↦ henglish⟩
  | some tag =>
    cases hvalid : validLocale tag with
    | false =>
      rw [Option.filter_some_neg (by simp [hvalid])]
      refine ⟨fun _ tag' h hok ↦ ?_, fun _ ↦ henglish⟩
      cases h
      rw [hvalid] at hok
      cases hok
    | true =>
      rw [Option.filter_some_pos hvalid]
      obtain ⟨-, hlength, hchars⟩ := (validLocale_iff tag).1 hvalid
      constructor
      · rintro ⟨-, -, hcounts⟩ tag' h -
        cases h
        exact hcounts
      · exact fun h ↦ ⟨hlength, hchars, h tag rfl hvalid⟩

/-! ## The whole configuration -/

variable (platform : Platform) (source : ConfigSource)

/-- Every field but one is valid whatever the environment and the file hold; the locale is when the
text looked at for it, if it passes the check, has a letter and no second separator. -/
theorem resolveConfig_valid_iff (defaults : ConfigDefaults) (hdefaults : defaults.Valid) :
    (resolveConfig platform source defaults).Valid ↔
      ∀ tag, localeCandidate source = some tag → validLocale tag = true →
        1 ≤ tag.countP isLetter ∧ tag.countP isSeparator ≤ 1 := by
  refine ⟨fun h ↦ (locale_valid_iff source).1 h.locale, fun h ↦ ?_⟩
  exact
    { displayName := displayName_valid source
      discoveryPorts := discoveryPorts_valid source hdefaults.defaultPorts
      traceMaxBytes := traceMaxBytes_valid source
      traceMaxRotatedFiles := traceMaxRotated_valid source
      instanceLabel := instanceLabel_valid source
      locale := (locale_valid_iff source).2 h
      dataDir := hdefaults.dataDir
      runDir := runDir_valid source
      traceDir := traceDir_valid platform source hdefaults.dataDir }

/-- An environment that only names a language, over an empty file. -/
def localeSource (tag : String) : ConfigSource where
  env name := if name = "EOSR_LOCALE" then some (ascii tag) else none
  fileString _ := .missing
  fileInt _ := .missing
  fileIntPair _ := .missing
  fileBool _ := .missing

/-- The built-in defaults of a Linux build. -/
def builtinDefaults : ConfigDefaults where
  dataDir := ascii "/home/player/.local/share/eosr"
  defaultPorts := { first := 55789, last := 55798 }

theorem builtinDefaults_valid : builtinDefaults.Valid where
  dataDir := by decide +kernel
  defaultPorts := ⟨by decide, by decide, by decide⟩

theorem resolveConfig_valid_region :
    (resolveConfig .linux (localeSource "pt-BR") builtinDefaults).Valid := by
  refine (resolveConfig_valid_iff .linux _ builtinDefaults builtinDefaults_valid).2
    fun tag htag _ ↦ ?_
  have hregion : localeCandidate (localeSource "pt-BR") = some (ascii "pt-BR") := by decide +kernel
  rw [hregion] at htag
  cases htag
  decide +kernel

/-- A tag with two separators is accepted as it stands. -/
theorem resolveConfig_invalid : ¬ ∀ (platform : Platform) (source : ConfigSource)
    (defaults : ConfigDefaults), defaults.Valid →
      (resolveConfig platform source defaults).Valid := by
  intro h
  have hvalid := h .linux (localeSource "pt-BR-x") builtinDefaults builtinDefaults_valid
  have hlocale := hvalid.locale.2.2.2
  revert hlocale
  decide +kernel

end EosMesh
