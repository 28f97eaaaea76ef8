import EosMesh.Core.Utf8
import EosMesh.Common.Crypto
import EosMesh.Lib.Layers

/-!
# Resolving the configuration

`core/config.h` and `core/config.cpp`: one run's configuration, put together from the environment,
the parsed configuration file and the built-in defaults.  Where the first two come from is abstract,
as it is in the code.

* The checks come first, each under its own name: they take the raw value of one setting and
  accept it, or refuse it for a reason.
* `envLayer` and `fileLayer` are what the two places hold for a setting, with the check applied.
* Most settings try the environment and then the file, each with its own check (`eachLayer`).
  `trace_dir`, `locale` and `log_level` pick their candidate before they check it
  (`firstLayer`).
* Every value that is refused, clamped or truncated leaves a diagnostic.
-/

set_option autoImplicit false

namespace EosMesh

open Lib

/-! ## The configuration -/

/-- How much of a run is traced, from nothing to everything. -/
inductive TraceLevel where
  | off
  | errors
  | lifecycle
  | full
  deriving DecidableEq, Repr

/-- How much the log says: each level includes those before it. -/
inductive LogLevel where
  | off
  | fatal
  | error
  | warn
  | info
  | debug
  | trace
  deriving DecidableEq, Repr

/-- The inclusive port range an instance binds and advertises to. -/
structure DiscoveryRange where
  first : UInt16
  last : UInt16
  deriving DecidableEq, Repr

/-- The outcome of a typed file lookup. -/
inductive Lookup (α : Type) where
  | missing
  | ok (value : α)
  | wrongType
  deriving DecidableEq, Repr

/-- What a run says about a setting it did not take as it stood: which one, from where, why, and
what was done about it. -/
structure ConfigDiagnostic where
  field : String
  source : String
  reason : String
  action : String
  message : String := ""
  deriving DecidableEq, Repr

/-- One run's configuration, with every setting in place, and the diagnostics in the order in which
they came up. -/
structure ResolvedConfig where
  displayName : Bytes
  dataDir : Bytes
  runDir : Bytes
  traceDir : Bytes
  level : TraceLevel
  traceMaxBytes : UInt64
  traceMaxRotatedFiles : UInt32
  discoveryPorts : DiscoveryRange
  instanceLabel : Bytes
  locale : Bytes
  logging : LogLevel
  enableLan : Bool
  enableOverlay : Bool
  unlockDlcs : Bool
  diagnostics : List ConfigDiagnostic
  deriving DecidableEq, Repr

/-- `config_source`: the environment, and typed reads of the parsed file. -/
structure ConfigSource where
  env : String → Option Bytes
  fileString : String → Lookup Bytes
  fileInt : String → Lookup Int
  fileIntPair : String → Lookup (Int × Int)
  fileBool : String → Lookup Bool

/-- `config_defaults`. -/
structure ConfigDefaults where
  dataDir : Bytes
  defaultPorts : DiscoveryRange

/-- The two builds of `platform/paths.h`. -/
inductive Platform where
  | linux
  | win32
  deriving DecidableEq, Repr

/-- The defaults and the bounds of the numeric settings, and the longest texts that are kept. -/
def defaultMaxBytes : Nat := 67108864
def minMaxBytes : Nat := 65536
def maxMaxBytes : Nat := 1073741824
def defaultRotated : Nat := 8
def maxRotated : Nat := 64
def maxDisplayChars : Nat := 16
def maxDisplayBytes : Nat := 64
def maxLabelChars : Nat := 32
def maxPort : Int := 65535
def maxPortSpan : Int := 64
def maxLocaleChars : Nat := 16

/-- `std::numeric_limits<i64>::max()`. -/
def int64Max : Int := 9223372036854775807

/-! ## Characters -/

/-- An ASCII digit.  Bytes are compared as the source compares characters, so no locale has a say.
-/
def isDigit (c : UInt8) : Bool := '0'.toUInt8 ≤ c && c ≤ '9'.toUInt8

/-- An ASCII lower-case letter. -/
def isLower (c : UInt8) : Bool := 'a'.toUInt8 ≤ c && c ≤ 'z'.toUInt8

/-- An ASCII upper-case letter. -/
def isUpper (c : UInt8) : Bool := 'A'.toUInt8 ≤ c && c ≤ 'Z'.toUInt8

/-- An ASCII letter. -/
def isLetter (c : UInt8) : Bool := isLower c || isUpper c

/-- The separators of a language tag. -/
def isSeparator (c : UInt8) : Bool := c == '-'.toUInt8 || c == '_'.toUInt8

/-- The text with its ASCII letters in lower case. -/
def lowered (text : Bytes) : Bytes :=
  text.map fun c ↦ if isUpper c then c - 'A'.toUInt8 + 'a'.toUInt8 else c

/-! ## The checks -/

/-- The spellings of a flag in the environment, in any case; anything else is no flag. -/
def parseFlagText (text : Bytes) : Option Bool :=
  let value := lowered text
  if value = ascii "true" ∨ value = ascii "1" ∨ value = ascii "yes" ∨ value = ascii "on" then
    some true
  else if value = ascii "false" ∨ value = ascii "0" ∨ value = ascii "no" ∨ value = ascii "off" then
    some false
  else none

/-- The names of the log levels, in any case and with the short forms of two of them. -/
def parseLogLevel (text : Bytes) : Option LogLevel :=
  let value := lowered text
  if value = ascii "off" then some .off
  else if value = ascii "fatal" then some .fatal
  else if value = ascii "err" ∨ value = ascii "error" then some .error
  else if value = ascii "warn" ∨ value = ascii "warning" then some .warn
  else if value = ascii "info" then some .info
  else if value = ascii "debug" then some .debug
  else if value = ascii "trace" then some .trace
  else none

/-- The names of the trace levels, which are read as they stand. -/
def parseLevel (text : Bytes) : Option TraceLevel :=
  if text = ascii "off" then some .off
  else if text = ascii "errors" then some .errors
  else if text = ascii "lifecycle" then some .lifecycle
  else if text = ascii "full" then some .full
  else none

/-- A language tag: of bounded length, and of nothing but letters and separators. -/
def validLocale (text : Bytes) : Bool :=
  if text = [] ∨ text.length > maxLocaleChars then false
  else text.all fun c ↦ isLetter c || isSeparator c

/-- The digits of `parse_int`, onto the value read so far; what would overflow is refused. -/
def parseIntDigits : (value : Int) → Bytes → Option Int
  | value, [] => some value
  | value, c :: rest =>
    if ¬ isDigit c then none
    else
      let digit : Int := (c - '0'.toUInt8).toNat
      if value > (int64Max - digit) / 10 then none
      else parseIntDigits (value * 10 + digit) rest

/-- A base-10 integer with no leading or trailing slop. -/
def parseInt : Bytes → Option Int
  | [] => none
  | c :: rest =>
    if c = '-'.toUInt8 then
      if rest = [] then none else (parseIntDigits 0 rest).map fun value ↦ -value
    else parseIntDigits 0 (c :: rest)

/-- A NUL inside a text, which would cut it short wherever it is used as a C string. -/
def hasNul (text : Bytes) : Bool := text.contains 0

/-- Why a string is unfit for a C-string field, or nothing if it is fit. -/
def textRejectReason (text : Bytes) : Option String :=
  if hasNul text then some "embedded NUL"
  else if ¬ utf8Valid text then some "invalid UTF-8"
  else none

/-- A path may hold anything but a NUL. -/
def pathRejectReason (text : Bytes) : Option String :=
  if hasNul text then some "embedded NUL" else none

/-- An instance label becomes a part of a path, so it is a slug, and neither of the two names that a
directory has already. -/
def validLabel (label : Bytes) : Bool :=
  if label = [] ∨ label.length > maxLabelChars ∨ label = ascii "." ∨ label = ascii ".." then false
  else label.all fun c ↦ isUpper c || isLower c || isDigit c ||
    c == '.'.toUInt8 || c == '_'.toUInt8 || c == '-'.toUInt8

/-- The environment's form `first-last`, cut at the first dash. -/
def parsePortRange (text : Bytes) : Option (Int × Int) :=
  let dash := (text.takeWhile (· ≠ '-'.toUInt8)).length
  if dash = text.length ∨ dash = 0 ∨ dash + 1 ≥ text.length then none
  else do
    let first ← parseInt (text.take dash)
    let last ← parseInt (text.drop (dash + 1))
    pure (first, last)

/-- A range of ports that exist, in order and not too wide. -/
def validPorts (first last : Int) : Option DiscoveryRange :=
  if first ≤ 0 ∨ last ≤ 0 ∨ first > maxPort ∨ last > maxPort ∨ first > last ∨
      last - first + 1 > maxPortSpan then none
  else some { first := UInt16.ofNat first.toNat, last := UInt16.ofNat last.toNat }

/-- `platform::path_is_absolute`, in each build. -/
def pathIsAbsolute : Platform → Bytes → Bool
  | .linux, path => path.head? == some '/'.toUInt8
  | .win32, path =>
    let slash := fun c : Option UInt8 ↦ c == some '/'.toUInt8 || c == some '\\'.toUInt8
    slash path[0]? ||
      (path[1]? == some ':'.toUInt8 && slash path[2]? && (path[0]?.elim false isLetter))

/-! ## The layers -/

/-- A diagnostic without a message of its own. -/
def diagnostic (field source reason action : String) : ConfigDiagnostic :=
  { field, source, reason, action }

/-- Present and not empty: an environment variable set to the empty string is unset. -/
def envValue (source : ConfigSource) (name : String) : Option Bytes :=
  (source.env name).filter fun value ↦ !value.isEmpty

/-- What the environment holds for a setting. -/
def envLayer {α : Type} (source : ConfigSource) (name : String)
    (check : Bytes → Except String α) : Layer String α :=
  (envValue source name).map check

/-- What the file holds for a setting. -/
def fileLayer {α β : Type} (found : Lookup β) (check : β → Except String α) : Layer String α :=
  match found with
  | .missing => none
  | .wrongType => some (.error "wrong type")
  | .ok raw => some (check raw)

/-- The same where an empty string in the file is no value. -/
def fileTextLayer {α : Type} (found : Lookup Bytes) (check : Bytes → Except String α) :
    Layer String α :=
  match found with
  | .ok [] => none
  | found => fileLayer found check

/-- A key's second spelling is looked up where the first is missing. -/
def fileAlias (source : ConfigSource) (key second : String) : Lookup Bytes :=
  match source.fileString key with
  | .missing => source.fileString second
  | found => found

/-- A check by the reason to refuse, if there is one. -/
def unlessRejected (reject : Bytes → Option String) (raw : Bytes) : Except String Bytes :=
  match reject raw with
  | some reason => .error reason
  | none => .ok raw

/-- A check by a parser that may fail. -/
def orElseError {α β : Type} (parse : β → Option α) (reason : String) (raw : β) :
    Except String α :=
  match parse raw with
  | some value => .ok value
  | none => .error reason

/-- A check by a predicate. -/
def orRefuse (valid : Bytes → Bool) (reason : String) (raw : Bytes) : Except String Bytes :=
  if valid raw then .ok raw else .error reason

/-- What a setting is looked up in. -/
structure ConfigSetting (α : Type) where
  environment : Layer String α
  file : Layer String α

/-- Where a setting is looked for, the first place first. -/
def ConfigSetting.layers {α : Type} (setting : ConfigSetting α) : List (Layer String α) :=
  [setting.environment, setting.file]

/-- The diagnostic of a value a layer is refused. -/
def refusal {α : Type} (field source : String) : Layer String α → List ConfigDiagnostic
  | some (.error reason) => [diagnostic field source reason "ignored"]
  | _ => []

/-- The value selected and the layer it came from, with the refusals on the way. -/
abbrev Selection (α : Type) := Option (α × String) × List ConfigDiagnostic

/-- Environment, then file: a value that is refused yields to the next layer. -/
def eachLayer {α : Type} (field : String) (setting : ConfigSetting α) : Selection α :=
  match setting.environment, setting.file with
  | some (.ok value), _ => (some (value, "environment"), [])
  | environment, some (.ok value) =>
    (some (value, "file"), refusal field "environment" environment)
  | environment, file =>
    (none, refusal field "environment" environment ++ refusal field "file" file)

/-- The candidate is the environment's if that holds anything, else the file's; only then is it
checked. -/
def firstLayer {α : Type} (field : String) (setting : ConfigSetting α) : Selection α :=
  match setting.environment with
  | some (.ok value) => (some (value, "environment"), [])
  | some (.error reason) => (none, [diagnostic field "environment" reason "ignored"])
  | none =>
    match setting.file with
    | some (.ok value) => (some (value, "file"), [])
    | file => (none, refusal field "file" file)

/-! ## The settings -/

/-- The file may call the name `username`, as it did before. -/
def displayNameSetting (source : ConfigSource) : ConfigSetting Bytes where
  environment := envLayer source "EOSR_DISPLAY_NAME" (unlessRejected textRejectReason)
  file := fileTextLayer (fileAlias source "display_name" "username")
    (unlessRejected textRejectReason)

/-- One of the level names, in both places. -/
def traceLevelSetting (source : ConfigSource) : ConfigSetting TraceLevel where
  environment := envLayer source "EOSR_TRACE" (orElseError parseLevel "unrecognized value")
  file := fileLayer (source.fileString "trace_level") (orElseError parseLevel "unrecognized value")

/-- Any integer: it is clamped later. -/
def traceMaxBytesSetting (source : ConfigSource) : ConfigSetting Int where
  environment := envLayer source "EOSR_TRACE_MAX_BYTES" (orElseError parseInt "not an integer")
  file := fileLayer (source.fileInt "trace_max_bytes") .ok

/-- Any integer: it is clamped later. -/
def traceMaxRotatedSetting (source : ConfigSource) : ConfigSetting Int where
  environment := envLayer source "EOSR_TRACE_MAX_ROTATED" (orElseError parseInt "not an integer")
  file := fileLayer (source.fileInt "trace_max_rotated_files") .ok

/-- A text `first-last` in the environment, a pair of integers in the file. -/
def discoveryPortsSetting (source : ConfigSource) : ConfigSetting DiscoveryRange where
  environment := envLayer source "EOSR_DISCOVERY_PORTS"
    (orElseError (fun raw ↦ (parsePortRange raw).bind fun p ↦ validPorts p.1 p.2) "invalid range")
  file := fileLayer (source.fileIntPair "discovery_ports")
    (orElseError (fun p ↦ validPorts p.1 p.2) "invalid range")

/-- The same check in both places. -/
def instanceLabelSetting (source : ConfigSource) : ConfigSetting Bytes where
  environment := envLayer source "EOSR_INSTANCE_LABEL" (orRefuse validLabel "not a path-safe slug")
  file := fileTextLayer (source.fileString "instance_label")
    (orRefuse validLabel "not a path-safe slug")

/-- A path in both places, relative to the data directory or absolute. -/
def traceDirSetting (source : ConfigSource) : ConfigSetting Bytes where
  environment := envLayer source "EOSR_TRACE_DIR" (unlessRejected pathRejectReason)
  file := fileTextLayer (source.fileString "trace_dir") (unlessRejected pathRejectReason)

/-- `run_dir` has no key in the file. -/
def runDirSetting (source : ConfigSource) : ConfigSetting Bytes where
  environment := envLayer source "EOSR_RUN_DIR" (unlessRejected pathRejectReason)
  file := none

/-- The file may call it `language`, as it did before. -/
def localeSetting (source : ConfigSource) : ConfigSetting Bytes where
  environment := envLayer source "EOSR_LOCALE" (orRefuse validLocale "not a language tag")
  file := fileTextLayer (fileAlias source "locale" "language")
    (orRefuse validLocale "not a language tag")

/-- One of the level names, in both places. -/
def logLevelSetting (source : ConfigSource) : ConfigSetting LogLevel where
  environment := envLayer source "EOSR_LOG_LEVEL" (orElseError parseLogLevel "unrecognized value")
  file := fileTextLayer (source.fileString "log_level")
    (orElseError parseLogLevel "unrecognized value")

/-- The three flags are looked up alike. -/
def flagSetting (source : ConfigSource) (envName fileKey : String) : ConfigSetting Bool where
  environment := envLayer source envName (orElseError parseFlagText "not a boolean")
  file := fileLayer (source.fileBool fileKey) .ok

/-! ## Resolution -/

/-- The value of `trace_max_bytes` within its range. -/
def clampBytes (value : Int) (source : String) : UInt64 × List ConfigDiagnostic :=
  if value < minMaxBytes then
    (UInt64.ofNat minMaxBytes, [diagnostic "trace_max_bytes" source "below minimum" "clamped"])
  else if value.toNat > maxMaxBytes then
    (UInt64.ofNat maxMaxBytes, [diagnostic "trace_max_bytes" source "above maximum" "clamped"])
  else (UInt64.ofNat value.toNat, [])

/-- The value of `trace_max_rotated_files` within its range. -/
def clampRotated (value : Int) (source : String) : UInt32 × List ConfigDiagnostic :=
  if value < 0 then
    (0, [diagnostic "trace_max_rotated_files" source "negative" "clamped"])
  else if value > maxRotated then
    (UInt32.ofNat maxRotated,
      [diagnostic "trace_max_rotated_files" source "above maximum" "clamped"])
  else (UInt32.ofNat value.toNat, [])

/-- The display name, bounded to both caps. -/
def boundDisplayName (candidate : Bytes) (source : String) : Bytes × List ConfigDiagnostic :=
  let bounded := utf8Truncate candidate maxDisplayChars maxDisplayBytes
  (bounded, if bounded.length ≠ candidate.length then
    [diagnostic "display_name" source "exceeds length cap" "truncated"] else [])

/-- A relative path is taken from the data directory. -/
def resolvePath (platform : Platform) (dataDir dir : Bytes) : Bytes :=
  if pathIsAbsolute platform dir then dir else dataDir ++ ascii "/" ++ dir

/-- What becomes of the value selected; the default is taken as it is. -/
def Selection.finish {α β : Type} (selection : Selection α) (default : β)
    (f : α → String → β × List ConfigDiagnostic) : β × List ConfigDiagnostic :=
  match selection.1 with
  | none => (default, selection.2)
  | some (value, layer) =>
    let (result, noted) := f value layer
    (result, selection.2 ++ noted)

/-- The display name, cut to its bounds whatever place it came from. -/
def resolveDisplayName (source : ConfigSource) : Bytes × List ConfigDiagnostic :=
  (eachLayer "display_name" (displayNameSetting source)).finish (ascii "Player") boundDisplayName

/-- Without a valid level nothing is traced. -/
def resolveTraceLevel (source : ConfigSource) : TraceLevel × List ConfigDiagnostic :=
  (eachLayer "trace_level" (traceLevelSetting source)).finish .off fun level _ ↦ (level, [])

/-- The cap of a trace file, clamped to its bounds. -/
def resolveTraceMaxBytes (source : ConfigSource) : UInt64 × List ConfigDiagnostic :=
  (eachLayer "trace_max_bytes" (traceMaxBytesSetting source)).finish
    (UInt64.ofNat defaultMaxBytes) clampBytes

/-- How many trace files are kept, clamped to the most there may be. -/
def resolveTraceMaxRotated (source : ConfigSource) : UInt32 × List ConfigDiagnostic :=
  (eachLayer "trace_max_rotated_files" (traceMaxRotatedSetting source)).finish
    (UInt32.ofNat defaultRotated) clampRotated

/-- The ports that are tried for discovery; the default is the caller's. -/
def resolveDiscoveryPorts (source : ConfigSource) (default : DiscoveryRange) :
    DiscoveryRange × List ConfigDiagnostic :=
  (eachLayer "discovery_ports" (discoveryPortsSetting source)).finish default
    fun range _ ↦ (range, [])

/-- Without a label the instance has none. -/
def resolveInstanceLabel (source : ConfigSource) : Bytes × List ConfigDiagnostic :=
  (eachLayer "instance_label" (instanceLabelSetting source)).finish [] fun label _ ↦ (label, [])

/-- The directory of the traces, `traces` in the data directory unless another is named. -/
def resolveTraceDir (platform : Platform) (source : ConfigSource) (dataDir : Bytes) :
    Bytes × List ConfigDiagnostic :=
  (firstLayer "trace_dir" (traceDirSetting source)).finish
    (resolvePath platform dataDir (ascii "traces")) fun dir _ ↦
      (resolvePath platform dataDir dir, [])

/-- The directory of the run, which has no default. -/
def resolveRunDir (source : ConfigSource) : Bytes × List ConfigDiagnostic :=
  (eachLayer "run_dir" (runDirSetting source)).finish [] fun dir _ ↦ (dir, [])

/-- The locale: a candidate that is refused makes it `en`, and no other is looked at. -/
def resolveLocale (source : ConfigSource) : Bytes × List ConfigDiagnostic :=
  (firstLayer "locale" (localeSetting source)).finish (ascii "en") fun tag _ ↦ (tag, [])

/-- The log level: a candidate that is refused makes it `off`, and no other is looked at. -/
def resolveLogLevel (source : ConfigSource) : LogLevel × List ConfigDiagnostic :=
  (firstLayer "log_level" (logLevelSetting source)).finish .off fun level _ ↦ (level, [])

/-- `resolve_flag`, with the layer that selected the value. -/
def resolveFlag (source : ConfigSource) (envName fileKey : String) : Selection Bool :=
  eachLayer fileKey (flagSetting source envName fileKey)

/-- The flag's value, over the default. -/
def Selection.flag (selection : Selection Bool) (default : Bool) : Bool :=
  (selection.1.map Prod.fst).getD default

/-- A key of another emulator's that is accepted and cannot be honoured. -/
def rejectUnsupported (source : ConfigSource) (key reason : String) : List ConfigDiagnostic :=
  if source.fileString key ≠ .missing then [diagnostic key "file" reason "ignored"] else []

/-- A flag somebody turned on, and that has no effect. -/
def noteInert (selection : Selection Bool) (field reason : String) : List ConfigDiagnostic :=
  match selection.1 with
  | some (true, layer) => [diagnostic field layer reason "ignored"]
  | _ => []

/-- The whole configuration; the diagnostics stand in the order of the settings. -/
def resolveConfig (platform : Platform) (source : ConfigSource) (defaults : ConfigDefaults) :
    ResolvedConfig :=
  let name := resolveDisplayName source
  let level := resolveTraceLevel source
  let maxBytes := resolveTraceMaxBytes source
  let rotated := resolveTraceMaxRotated source
  let ports := resolveDiscoveryPorts source defaults.defaultPorts
  let label := resolveInstanceLabel source
  let traceDir := resolveTraceDir platform source defaults.dataDir
  let runDir := resolveRunDir source
  let locale := resolveLocale source
  let logging := resolveLogLevel source
  let lan := resolveFlag source "EOSR_ENABLE_LAN" "enable_lan"
  let overlay := resolveFlag source "EOSR_ENABLE_OVERLAY" "enable_overlay"
  let dlcs := resolveFlag source "EOSR_UNLOCK_DLCS" "unlock_dlcs"
  { displayName := name.1
    dataDir := defaults.dataDir
    runDir := runDir.1
    traceDir := traceDir.1
    level := level.1
    traceMaxBytes := maxBytes.1
    traceMaxRotatedFiles := rotated.1
    discoveryPorts := ports.1
    instanceLabel := label.1
    locale := locale.1
    logging := logging.1
    enableLan := lan.flag true
    enableOverlay := overlay.flag false
    unlockDlcs := dlcs.flag false
    diagnostics := name.2 ++ level.2 ++ maxBytes.2 ++ rotated.2 ++ ports.2 ++ label.2 ++
      traceDir.2 ++ runDir.2 ++ locale.2 ++ logging.2 ++ lan.2 ++ overlay.2 ++ dlcs.2 ++
      rejectUnsupported source "epicid" "identity is derived from the profile key" ++
      rejectUnsupported source "productuserid" "identity is derived from the profile key" ++
      noteInert overlay "enable_overlay" "no overlay to show" ++
      noteInert dlcs "unlock_dlcs" "no ecom interface yet" }

end EosMesh
