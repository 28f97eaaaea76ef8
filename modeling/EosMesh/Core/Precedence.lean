import EosMesh.Core.Config

/-!
# Which layer wins

The documented rule: for every setting the highest layer that holds a valid value decides, the
environment before the file before the default, and a value that is refused yields to the next
layer.

* `FollowsPrecedence` is that rule for a whole configuration, a field for each setting.
* `eachLayer_value` and `firstLayer_value` are what the two ways of resolving a setting select.
* `follows_precedence_iff` says when the whole configuration follows the rule:
  `trace_dir`, `locale` and `log_level` are decided by the first layer that holds anything.
-/

set_option autoImplicit false

namespace EosMesh

open Lib

variable {α β : Type}

/-! ## What a setting selects -/

theorem eachLayer_value (field : String) (setting : ConfigSetting α) :
    (eachLayer field setting).1.map Prod.fst = highest setting.layers := by
  obtain ⟨environment, file⟩ := setting
  rcases environment with _ | reason | value <;> rcases file with _ | reason' | value' <;> rfl

theorem firstLayer_value (field : String) (setting : ConfigSetting α) :
    (firstLayer field setting).1.map Prod.fst = firstPresent setting.layers := by
  obtain ⟨environment, file⟩ := setting
  rcases environment with _ | reason | value <;> rcases file with _ | reason' | value' <;> rfl

theorem finish_value {selection : Selection α} {default : β}
    {f : α → String → β × List ConfigDiagnostic} {g : α → β} (h : ∀ v layer, (f v layer).1 = g v) :
    (selection.finish default f).1 = (selection.1.map Prod.fst).elim default g := by
  obtain ⟨chosen, noted⟩ := selection
  rcases chosen with _ | ⟨value, layer⟩
  · rfl
  · exact h value layer

theorem eachLayer_finish {field : String} {setting : ConfigSetting α} {default : β}
    {f : α → String → β × List ConfigDiagnostic} {g : α → β} (h : ∀ v layer, (f v layer).1 = g v) :
    ((eachLayer field setting).finish default f).1 = (highest setting.layers).elim default g := by
  rw [finish_value h, eachLayer_value]

theorem firstLayer_finish {field : String} {setting : ConfigSetting α} {default : β}
    {f : α → String → β × List ConfigDiagnostic} {g : α → β} (h : ∀ v layer, (f v layer).1 = g v) :
    ((firstLayer field setting).finish default f).1 =
      (firstPresent setting.layers).elim default g := by
  rw [finish_value h, firstLayer_value]

/-! ## The numbers -/

/-- A value moved into a range. -/
def clamped (low high value : Int) : Nat := (max low (min value high)).toNat

theorem clampBytes_eq (value : Int) (source : String) :
    (clampBytes value source).1 = UInt64.ofNat (clamped minMaxBytes maxMaxBytes value) := by
  rw [clampBytes, clamped]
  split_ifs with hlow hhigh
  · rw [max_eq_left (le_trans (min_le_left _ _) hlow.le)]
    rfl
  · rw [min_eq_right (by omega), max_eq_right (by decide)]
    rfl
  · rw [min_eq_left (by omega), max_eq_right (by omega)]

theorem clampRotated_eq (value : Int) (source : String) :
    (clampRotated value source).1 = UInt32.ofNat (clamped 0 maxRotated value) := by
  rw [clampRotated, clamped]
  split_ifs with hlow hhigh
  · rw [max_eq_left (le_trans (min_le_left _ _) hlow.le)]
    rfl
  · rw [min_eq_right hhigh.le, max_eq_right (by decide)]
    rfl
  · rw [min_eq_left (by omega), max_eq_right (by omega)]

/-! ## The rule -/

/-- Every setting has the value of the highest layer that holds a valid one.  A value that is valid
may still be bounded: a name is cut to its caps and a number moved into its range. -/
structure FollowsPrecedence (platform : Platform) (source : ConfigSource)
    (defaults : ConfigDefaults) (config : ResolvedConfig) : Prop where
  displayName : config.displayName = (highest (displayNameSetting source).layers).elim
    (ascii "Player") fun name ↦ utf8Truncate name maxDisplayChars maxDisplayBytes
  level : config.level = (highest (traceLevelSetting source).layers).getD .off
  traceMaxBytes : config.traceMaxBytes = UInt64.ofNat
    ((highest (traceMaxBytesSetting source).layers).elim defaultMaxBytes
      (clamped minMaxBytes maxMaxBytes))
  traceMaxRotatedFiles : config.traceMaxRotatedFiles = UInt32.ofNat
    ((highest (traceMaxRotatedSetting source).layers).elim defaultRotated (clamped 0 maxRotated))
  discoveryPorts : config.discoveryPorts =
    (highest (discoveryPortsSetting source).layers).getD defaults.defaultPorts
  instanceLabel : config.instanceLabel = (highest (instanceLabelSetting source).layers).getD []
  traceDir : config.traceDir = resolvePath platform defaults.dataDir
    ((highest (traceDirSetting source).layers).getD (ascii "traces"))
  runDir : config.runDir = (highest (runDirSetting source).layers).getD []
  locale : config.locale = (highest (localeSetting source).layers).getD (ascii "en")
  logging : config.logging = (highest (logLevelSetting source).layers).getD .off
  enableLan : config.enableLan =
    (highest (flagSetting source "EOSR_ENABLE_LAN" "enable_lan").layers).getD true
  enableOverlay : config.enableOverlay =
    (highest (flagSetting source "EOSR_ENABLE_OVERLAY" "enable_overlay").layers).getD false
  unlockDlcs : config.unlockDlcs =
    (highest (flagSetting source "EOSR_UNLOCK_DLCS" "unlock_dlcs").layers).getD false

/-- A value in the environment is refused, and hides a valid one of the file that would have made
something else of the setting than the default. -/
def Loses (setting : ConfigSetting α) (default : β) (f : α → β) : Prop :=
  setting.environment.Refused ∧ ∃ value, setting.file = some (.ok value) ∧ f value ≠ default

theorem loses_iff (setting : ConfigSetting α) (default : β) (f : α → β) :
    Loses setting default f ↔ Hidden setting.layers ∧
      ∃ value, highest setting.layers = some value ∧ f value ≠ default := by
  obtain ⟨environment, file⟩ := setting
  constructor
  · rintro ⟨⟨reason, henv⟩, value, hfile, hne⟩
    dsimp only at henv hfile
    subst henv hfile
    exact ⟨⟨⟨reason, rfl⟩, rfl⟩, value, rfl, hne⟩
  · rintro ⟨hhidden, value, hvalue, hne⟩
    rcases environment with _ | reason | held
    · rcases file with _ | reason' | value'
      · exact hhidden.elim
      · cases hhidden.2
      · obtain ⟨⟨reason, h⟩, -⟩ := hhidden
        cases h
    · rcases file with _ | reason' | value'
      · cases hvalue
      · cases hvalue
      · cases hvalue
        exact ⟨⟨reason, rfl⟩, value, rfl, hne⟩
    · obtain ⟨⟨reason, h⟩, -⟩ := hhidden
      cases h

/-- A setting that is resolved by the first layer follows the rule unless it loses a value. -/
theorem firstLayer_follows_iff {field : String} {setting : ConfigSetting α} {default : β}
    {f : α → String → β × List ConfigDiagnostic} {g : α → β} (h : ∀ v layer, (f v layer).1 = g v) :
    ((firstLayer field setting).finish default f).1 = (highest setting.layers).elim default g ↔
      ¬ Loses setting default g := by
  rw [firstLayer_finish h, firstPresent_elim_eq_iff, loses_iff]

theorem resolvePath_getD (platform : Platform) (dataDir default : Bytes) (found : Option Bytes) :
    resolvePath platform dataDir (found.getD default) =
      found.elim (resolvePath platform dataDir default) (resolvePath platform dataDir) := by
  cases found <;> rfl

theorem elim_id (found : Option α) (default : α) : found.elim default id = found.getD default := by
  cases found <;> rfl

theorem elim_ofNat {γ : Type} (ofNat : Nat → γ) (found : Option α) (default : Nat) (f : α → Nat) :
    found.elim (ofNat default) (fun v ↦ ofNat (f v)) = ofNat (found.elim default f) := by
  cases found <;> rfl

variable (platform : Platform) (source : ConfigSource) (defaults : ConfigDefaults)

/-- The configuration follows the precedence exactly when none of the three settings that look at
one layer only loses a value by it. -/
theorem follows_precedence_iff :
    FollowsPrecedence platform source defaults (resolveConfig platform source defaults) ↔
      ¬ Loses (traceDirSetting source) (resolvePath platform defaults.dataDir (ascii "traces"))
          (resolvePath platform defaults.dataDir) ∧
      ¬ Loses (localeSetting source) (ascii "en") id ∧
      ¬ Loses (logLevelSetting source) LogLevel.off id := by
  have hdir : (resolveTraceDir platform source defaults.dataDir).1 = _ ↔ ¬ Loses _ _ _ :=
    firstLayer_follows_iff fun _ _ ↦ rfl
  have hlocale : (resolveLocale source).1 = _ ↔ ¬ Loses _ _ id :=
    firstLayer_follows_iff fun _ _ ↦ rfl
  have hlevel : (resolveLogLevel source).1 = _ ↔ ¬ Loses _ _ id :=
    firstLayer_follows_iff fun _ _ ↦ rfl
  rw [← resolvePath_getD] at hdir
  rw [elim_id] at hlocale hlevel
  constructor
  · exact fun h ↦ ⟨hdir.1 h.traceDir, hlocale.1 h.locale, hlevel.1 h.logging⟩
  · rintro ⟨hd, hl, hg⟩
    exact
      { displayName := eachLayer_finish fun _ _ ↦ rfl
        level := (eachLayer_finish (g := id) fun _ _ ↦ rfl).trans (elim_id _ _)
        traceMaxBytes := (eachLayer_finish fun v layer ↦ clampBytes_eq v layer).trans
          (elim_ofNat UInt64.ofNat _ _ _)
        traceMaxRotatedFiles := (eachLayer_finish fun v layer ↦ clampRotated_eq v layer).trans
          (elim_ofNat UInt32.ofNat _ _ _)
        discoveryPorts := (eachLayer_finish (g := id) fun _ _ ↦ rfl).trans (elim_id _ _)
        instanceLabel := (eachLayer_finish (g := id) fun _ _ ↦ rfl).trans (elim_id _ _)
        traceDir := hdir.2 hd
        runDir := (eachLayer_finish (g := id) fun _ _ ↦ rfl).trans (elim_id _ _)
        locale := hlocale.2 hl
        logging := hlevel.2 hg
        enableLan := congrArg (Option.getD · true) (eachLayer_value _ _)
        enableOverlay := congrArg (Option.getD · false) (eachLayer_value _ _)
        unlockDlcs := congrArg (Option.getD · false) (eachLayer_value _ _) }

/-- A file that names French, under an environment whose language tag is none. -/
def misspeltLocaleSource : ConfigSource where
  env name := if name = "EOSR_LOCALE" then some (ascii "123") else none
  fileString key := if key = "locale" then .ok (ascii "fr") else .missing
  fileInt _ := .missing
  fileIntPair _ := .missing
  fileBool _ := .missing

/-- There the file's valid value is hidden, and the default stands. -/
theorem precedence_broken :
    ¬ ∀ (platform : Platform) (source : ConfigSource) (defaults : ConfigDefaults),
      FollowsPrecedence platform source defaults (resolveConfig platform source defaults) := by
  intro h
  have hlocale := (h .linux misspeltLocaleSource
    { dataDir := ascii "/home/player/.local/share/eosr"
      defaultPorts := { first := 55789, last := 55798 } }).locale
  revert hlocale
  decide +kernel

end EosMesh
