import EosMesh.Core.TraceEvent
import EosMesh.Lib.Cutoff
import EosMesh.Lib.Run

/-!
# Putting the emulator in the place of a game's SDK, and the SDK back

`stage_sdk` records what it is about to do, copies the SDK to a backup and replaces it;
`restore_sdk` undoes that, going by the record.  Either may be cut off at any file operation, by an
error or by a crash, and after a crash it is run again, by somebody who does not know how far it
came.

* `Folder` is the SDK with the files beside it.  A file that is being written may be torn, and
  `StateText` says what a reader makes of a torn one.
* `stageSdk` and `restoreSdk` are the programs on it, operation by operation (`Lib.Cutoff`).  What
  happens at each operation is an argument of the run, so a run stands for every way in which it may
  be cut off, and `unstage` runs only after an error, never after a crash.
* `Left` says what any number of runs, each cut off anywhere, can leave: the original is the SDK, or
  it is the backup.  `meets_stageSdk` and `meets_restoreSdk` are that neither program leaves these
  states, wherever it is cut off; they go by `meets_writeNewJson`, `meets_copyNew` and
  `meets_replaceFrom`, one for each file that is written.
* `restores_iff` says from which of these states restoring puts the SDK back: there is a record that
  can be read, and the backup is whole or not there.

`staging_crash_safe` says so of any number of runs.  The state file and the backup are written in
place, so a crash can leave a part of either; `torn_staging_not_restored` is that run, in which the
game's SDK was not touched yet.
-/

set_option autoImplicit false

namespace EosMesh

open Lib Cuttable

/-! ## Files -/

/-- The permission bits of a file, `stat.S_IMODE`. -/
abbrev FileMode := Fin 0o10000

/-- A regular file. -/
structure SdkFile where
  content : Bytes
  mode : FileMode
  deriving DecidableEq

/-- The record of a staging transaction. -/
structure StageState where
  schemaVersion : Nat
  sdk : Bytes
  originalSha256 : Bytes
  stagedSha256 : Bytes
  originalMode : Nat
  deriving DecidableEq

/-- What a file of JSON holds: the text of a record, with or without the newline at its end, or a
part of a text, which is no JSON. -/
inductive StateText
  | torn
  | whole (value : StageState)
  deriving DecidableEq

/-- The SDK, its backup, the staging state, and the temporary files, the newest first. -/
structure Folder where
  sdk : Option SdkFile
  backup : Option SdkFile
  state : Option StateText
  temps : List SdkFile
  deriving DecidableEq

/-- An error of the system, or a `runner_error` with the format of its text. -/
inductive StageError
  | os
  | runner (message : String)

/-- A step of the tool, which the machine may cut short at any point. -/
abbrev StageM := Cuttable Folder StageError

/-- The version of the state file, and the highest file mode. -/
def schemaVersion : Nat := 1

/-- The mode of a file opened for writing, before `chmod`. -/
def createdMode : FileMode := 0o644

def maxMode : Nat := 0o7777

/-- `^[0-9a-f]{64}$`, whose `$` also matches before a newline at the end. -/
def validHash (text : Bytes) : Bool :=
  (text.take 64).length = 64 && (text.take 64).all isLowerHex &&
    (text.drop 64 = [] || text.drop 64 = [10])

/-! ## The operations -/

/-- A file operation that is made for its errors, or whose effect nothing here reads. -/
def touch : StageM Unit := change .os fun s ↦ s

/-- `except OSError: pass`. -/
def ignoringOs (m : StageM Unit) : StageM Unit :=
  handle m fun
    | .os => pure ()
    | .runner message => raise (.runner message)

/-- `unlink`, of a file that must be there. -/
def unlink (isThere : Folder → Bool) (without : Folder → Folder) : StageM Unit := do
  let there ← look .os isThere
  require (there = true) .os
  change .os without

/-- The backup is deleted. -/
def unlinkBackup : StageM Unit := unlink (·.backup.isSome) ({ · with backup := none })

/-- The state file is deleted. -/
def unlinkState : StageM Unit := unlink (·.state.isSome) ({ · with state := none })

/-- The temporary file that was made last is deleted. -/
def unlinkTemp : StageM Unit :=
  unlink (fun s ↦ !s.temps.isEmpty) fun s ↦ { s with temps := s.temps.tail }

/-- The content of a file that must be there. -/
def readFile (file : Folder → Option SdkFile) : StageM Bytes := do
  let found ← look .os file
  require (found.isSome = true) .os
  pure (found.elim [] (·.content))

section

variable (sha256 : Bytes → Bytes) (jsonSize : StageState → Nat) (name : Bytes)

/-- The digest of a file, which has to be there. -/
def sha256File (file : Folder → Option SdkFile) : StageM Bytes := do
  let content ← readFile file
  pure (sha256 content)

/-- `_write_new_json`; `jsonSize` is how long the text is without its last newline. -/
def writeNewJson (value : StageState) : StageM Unit :=
  handle
    (do
      let there ← look .os (·.state.isSome)
      require (there = false) .os
      change .os ({ · with state := some .torn })
      act .os
        (fun n s ↦ { s with state := some (if n < jsonSize value then .torn else .whole value) })
        ({ · with state := some (.whole value) })
      touch
      touch)
    fun error ↦ do
      ignoringOs unlinkState
      raise error

/-- `_copy_new`, of the SDK to the backup. -/
def copyNew (mode : FileMode) : StageM Unit :=
  handle
    (do
      let content ← readFile (·.sdk)
      let there ← look .os (·.backup.isSome)
      require (there = false) .os
      change .os ({ · with backup := some { content := [], mode := createdMode } })
      act .os
        (fun n s ↦ { s with backup := some { content := content.take n, mode := createdMode } })
        ({ · with backup := some { content, mode := createdMode } })
      touch
      change .os fun s ↦ { s with backup := s.backup.map ({ · with mode }) })
    fun error ↦ do
      ignoringOs unlinkBackup
      raise error

/-- `_replace_from`, with the SDK for its target. -/
def replaceFrom (source : Folder → Option SdkFile) (mode : FileMode) : StageM Unit := do
  change .os fun s ↦ { s with temps := { content := [], mode := 0o600 } :: s.temps }
  handle
    (do
      let content ← readFile source
      act .os
        (fun n s ↦
          { s with temps := { content := content.take n, mode := 0o600 } :: s.temps.tail })
        fun s ↦ { s with temps := { content, mode := 0o600 } :: s.temps.tail }
      touch
      change .os fun s ↦ { s with temps := { content, mode } :: s.temps.tail }
      -- `os.replace` is atomic.
      change .os fun s ↦ { s with sdk := some { content, mode }, temps := s.temps.tail })
    fun error ↦ do
      ignoringOs unlinkTemp
      raise error

/-- What `stage_sdk` tidies up after an error, if the SDK is still the original. -/
def unstage (originalHash : Bytes) : StageM Unit :=
  ignoringOs do
    let there ← look .os (·.sdk.isSome)
    (if there then do
      let hash ← sha256File sha256 (·.sdk)
      (if hash = originalHash then do
        let backed ← look .os (·.backup.isSome)
        (if backed then unlinkBackup else pure ())
        let recorded ← look .os (·.state.isSome)
        (if recorded then unlinkState else pure ())
      else pure ())
    else pure ())

/-- The emulator takes the place of the game's SDK, which is kept beside it. -/
def stageSdk (artifact : SdkFile) : StageM StageState := do
  let there ← look .os (·.sdk.isSome)
  require (there = true)
    (.runner "both the game SDK and emulator artifact must be regular files")
  let left ← look .os fun s ↦ s.backup.isSome || s.state.isSome
  require (left = false)
    (.runner "an earlier staging transaction exists; restore it first with: %s restore --sdk %s")
  let originalHash ← sha256File sha256 (·.sdk)
  let stagedHash ← sha256File sha256 fun _ ↦ some artifact
  require (originalHash ≠ stagedHash) (.runner "the selected artifact is already installed")
  let original ← look .os (·.sdk)
  let originalMode := original.elim 0 (·.mode)
  let state : StageState :=
    { schemaVersion, sdk := name, originalSha256 := originalHash, stagedSha256 := stagedHash
      originalMode := originalMode.val }
  handle
    (do
      writeNewJson jsonSize state
      copyNew originalMode
      let backedHash ← sha256File sha256 (·.backup)
      require (backedHash = originalHash) (.runner "the SDK backup failed hash verification")
      replaceFrom (fun _ ↦ some artifact) originalMode
      let currentHash ← sha256File sha256 (·.sdk)
      require (currentHash = stagedHash) (.runner "the staged artifact failed hash verification"))
    fun error ↦ do
      unstage sha256 originalHash
      match error with
      | .os => raise (.runner "could not stage the emulator: %s")
      | .runner message => raise (.runner message)
  pure state

/-- `_read_json`, of a state file that is there. -/
def readState : StageM StageState := do
  let text ← look .os (·.state)
  match text with
  | some (.whole value) => pure value
  | some .torn => raise (.runner "cannot read %s: %s")
  | none => raise .os

/-- The last steps of `restore_sdk`. -/
def cleanUp (originalHash : Bytes) : StageM Unit :=
  handle
    (do
      let backed ← look .os (·.backup.isSome)
      (if backed then do
        let hash ← sha256File sha256 (·.backup)
        require (hash = originalHash) (.runner "the SDK backup changed before cleanup")
        unlinkBackup
      else pure ())
      unlinkState)
    fun
      | .os => raise (.runner "the SDK was restored, but staging cleanup failed: %s")
      | .runner message => raise (.runner message)

/-- The backup takes the place of the staged artifact. -/
def putBack (originalHash : Bytes) (originalMode : Nat) : StageM Unit := do
  let backed ← look .os (·.backup.isSome)
  require (backed = true)
    (.runner "the original SDK backup is missing or failed hash verification")
  let hash ← sha256File sha256 (·.backup)
  require (hash = originalHash)
    (.runner "the original SDK backup is missing or failed hash verification")
  handle (replaceFrom (·.backup) (Fin.ofNat _ originalMode)) fun _ ↦
    raise (.runner "could not restore the original SDK: %s")
  let restored ← sha256File sha256 (·.sdk)
  require (restored = originalHash) (.runner "the restored SDK failed hash verification")

/-- Without a state file there is nothing to restore. -/
def requireState : StageM Unit := do
  let recorded ← look .os (·.state.isSome)
  (if recorded then pure () else do
    let backed ← look .os (·.backup.isSome)
    require (backed = false)
      (.runner "an SDK backup exists without its verification state; refusing to overwrite")
    raise (.runner "no active staging transaction exists for %s"))

/-- What `restore_sdk` does by the record it has read. -/
def restoreBy (state : StageState) : StageM Bool := do
  require (state.schemaVersion = schemaVersion)
    (.runner "the staging state is incompatible or incomplete")
  require (state.sdk = name ∧ validHash state.originalSha256 = true ∧
      validHash state.stagedSha256 = true ∧ state.originalMode ≤ maxMode)
    (.runner "the staging state contains invalid verification data")
  let there ← look .os (·.sdk.isSome)
  require (there = true) (.runner "the staged SDK path no longer contains a regular file")
  let currentHash ← sha256File sha256 (·.sdk)
  require (currentHash = state.originalSha256 ∨ currentHash = state.stagedSha256)
    (.runner
      "the SDK changed after staging; refusing to overwrite it (restore manually after inspection)")
  (if currentHash = state.stagedSha256 then putBack sha256 state.originalSha256 state.originalMode
    else pure ())
  cleanUp sha256 state.originalSha256
  pure true

/-- The game's own SDK is put back, as the state file has it. -/
def restoreSdk : StageM Bool := do
  requireState
  let state ← readState
  restoreBy sha256 name state

end

/-! ## Runs -/

/-- A run of one of the two programs, and how its operations fare. -/
inductive StageInput
  | stage (artifact : SdkFile) (fates : List Fate)
  | restore (fates : List Fate)

/-- What a run leaves, however it ends. -/
def Folder.step (sha256 : Bytes → Bytes) (jsonSize : StageState → Nat) (name : Bytes)
    (s : Folder) : StageInput → Option Folder
  | .stage artifact fates => some (stageSdk sha256 jsonSize name artifact fates s).2.1
  | .restore fates => some (restoreSdk sha256 name fates s).2.1

/-- A game's own SDK, with nothing beside it. -/
def Folder.untouched (original : SdkFile) : Folder :=
  { sdk := some original, backup := none, state := none, temps := [] }

/-- The original bytes are the SDK's, or the backup's. -/
def Folder.Intact (original : SdkFile) (s : Folder) : Prop :=
  (∃ mode, s.sdk = some { content := original.content, mode }) ∨
    ∃ mode, s.backup = some { content := original.content, mode }

/-- Restoring completes, with the original in its place and nothing left over. -/
def Folder.Restores (sha256 : Bytes → Bytes) (name : Bytes) (original : SdkFile) (s : Folder) :
    Prop :=
  ∃ s', restoreSdk sha256 name [] s = (.returned true, s', []) ∧ s'.sdk = some original ∧
    s'.backup = none ∧ s'.state = none

/-- There is a state file to be read, and no part of a backup. -/
def Folder.Recoverable (original : SdkFile) (s : Folder) : Prop :=
  (∃ value, s.state = some (.whole value)) ∧
    ∀ backup, s.backup = some backup → backup.content = original.content

/-! ## What may be left -/

namespace Folder

variable {sha256 : Bytes → Bytes} {jsonSize : StageState → Nat} {name : Bytes}
  {original : SdkFile} {artifact : SdkFile} {s s' : Folder}

/-- The record of putting `artifact` in the place of `original`. -/
def recordOf (sha256 : Bytes → Bytes) (name : Bytes) (original artifact : SdkFile) : StageState :=
  { schemaVersion, sdk := name, originalSha256 := sha256 original.content
    stagedSha256 := sha256 artifact.content, originalMode := original.mode.val }

/-- The original is the SDK, and there is a record of a transaction with `artifact`, and no backup,
or a part of one. -/
structure Recorded (sha256 : Bytes → Bytes) (name : Bytes) (original artifact : SdkFile)
    (s : Folder) : Prop where
  differ : sha256 original.content ≠ sha256 artifact.content
  sdk : s.sdk = some original
  state : s.state = some (.whole (recordOf sha256 name original artifact))
  backup : s.backup = none ∨
    ∃ n mode, s.backup = some { content := original.content.take n, mode }

/-- The artifact is in the place of the original, and the backup is whole. -/
structure Staged (sha256 : Bytes → Bytes) (name : Bytes) (original artifact : SdkFile)
    (s : Folder) : Prop where
  differ : sha256 original.content ≠ sha256 artifact.content
  sdk : s.sdk = some { content := artifact.content, mode := original.mode }
  state : s.state = some (.whole (recordOf sha256 name original artifact))
  backup : ∃ mode, s.backup = some { content := original.content, mode }

/-- What runs leave, each cut off anywhere. -/
inductive Left (sha256 : Bytes → Bytes) (name : Bytes) (original : SdkFile) (s : Folder) : Prop
  | clear (hsdk : s.sdk = some original) (hbackup : s.backup = none)
      (hstate : s.state = none ∨ s.state = some .torn)
  | recorded (artifact : SdkFile) (h : Recorded sha256 name original artifact s)
  | staged (artifact : SdkFile) (h : Staged sha256 name original artifact s)

theorem Left.intact (h : Left sha256 name original s) : s.Intact original := by
  cases h with
  | clear hsdk => exact .inl ⟨original.mode, hsdk⟩
  | recorded artifact h => exact .inl ⟨original.mode, h.sdk⟩
  | staged artifact h => exact .inr h.backup

theorem Left.unrecorded (h : Left sha256 name original s) (hstate : s.state = none) :
    s.sdk = some original ∧ s.backup = none := by
  cases h with
  | clear hsdk hbackup => exact ⟨hsdk, hbackup⟩
  | recorded artifact h => cases hstate.symm.trans h.state
  | staged artifact h => cases hstate.symm.trans h.state

/-- The original is the SDK, there is no backup, and the state file may be under way. -/
structure Starting (sha256 : Bytes → Bytes) (name : Bytes) (original artifact : SdkFile)
    (s : Folder) : Prop where
  differ : sha256 original.content ≠ sha256 artifact.content
  sdk : s.sdk = some original
  backup : s.backup = none
  state : s.state = none ∨ s.state = some .torn ∨
    s.state = some (.whole (recordOf sha256 name original artifact))

theorem Starting.left (h : Starting sha256 name original artifact s) :
    Left sha256 name original s := by
  rcases h.state with hnone | htorn | hwhole
  · exact .clear h.sdk h.backup (.inl hnone)
  · exact .clear h.sdk h.backup (.inr htorn)
  · exact .recorded artifact ⟨h.differ, h.sdk, hwhole, .inl h.backup⟩

end Folder

/-! ## The operations, cut off anywhere -/

section

variable {sha256 : Bytes → Bytes} {jsonSize : StageState → Nat} {name : Bytes}
  {original artifact : SdkFile} {s : Folder} {R C : Folder → Prop}

theorem meets_readFile {file : Folder → Option SdkFile} {found : SdkFile}
    {Q : Bytes → Folder → Prop} (hfile : file s = some found) (h : Q found.content s)
    (hraise : R s) (hstop : C s) : Meets (readFile file) s Q R C := by
  refine .bind (meets_look ?_ hraise hstop)
  refine .bind (meets_require (fun _ ↦ ?_) fun _ ↦ hraise)
  rw [hfile]
  exact meets_pure h

theorem meets_sha256File {file : Folder → Option SdkFile} {found : SdkFile}
    {Q : Bytes → Folder → Prop} (hfile : file s = some found) (h : Q (sha256 found.content) s)
    (hraise : R s) (hstop : C s) : Meets (sha256File sha256 file) s Q R C :=
  .bind (meets_readFile hfile (meets_pure h) hraise hstop)

theorem meets_unlink {isThere : Folder → Bool} {without : Folder → Folder}
    {Q : Unit → Folder → Prop} (h : Q () (without s)) (hraise : R s) (hstop : C s) :
    Meets (unlink isThere without) s Q R C := by
  refine .bind (meets_look ?_ hraise hstop)
  exact .bind (meets_require (fun _ ↦ meets_change h hraise hstop) fun _ ↦ hraise)

theorem Lib.Cuttable.Meets.ignoringOs {m : StageM Unit} {Q : Unit → Folder → Prop}
    (h : Meets m s Q (fun s' ↦ Q () s' ∧ R s') C) : Meets (ignoringOs m) s Q R C := by
  refine h.rescue fun s' error hs' ↦ ?_
  cases error with
  | os => exact meets_pure hs'.1
  | runner message => exact meets_raise hs'.2

/-- What is raised again once a file is removed. -/
theorem meets_tidied {α : Type} {m : StageM Unit} {error : StageError} {Q : α → Folder → Prop}
    (h : Meets m s (fun _ ↦ R) R C) :
    Meets (do ignoringOs m; raise error) s Q R C := by
  refine .bind (Meets.ignoringOs (h.mono (fun _ s' hs' ↦ meets_raise hs')
    (fun s' hs' ↦ ⟨meets_raise hs', hs'⟩) fun _ hC ↦ hC))

open Folder

theorem Folder.Starting.write (h : Starting sha256 name original artifact s)
    {text : Option StateText} (htext : text = none ∨ text = some .torn ∨
      text = some (.whole (recordOf sha256 name original artifact))) :
    Starting sha256 name original artifact { s with state := text } :=
  ⟨h.differ, h.sdk, h.backup, htext⟩

/-- Writing the record leaves it unwritten, torn or whole. -/
theorem meets_writeNewJson (h : Starting sha256 name original artifact s) :
    Meets (writeNewJson jsonSize (recordOf sha256 name original artifact)) s
      (fun _ s' ↦ Starting sha256 name original artifact s' ∧
        s'.state = some (.whole (recordOf sha256 name original artifact)))
      (Starting sha256 name original artifact) (Starting sha256 name original artifact) := by
  refine Meets.rescue ?_ fun s' error (hs' : Starting sha256 name original artifact s') ↦
    meets_tidied (meets_unlink (hs'.write (.inl rfl)) hs' hs')
  refine .bind (meets_look ?_ h h)
  refine .bind (meets_require (fun _ ↦ ?_) fun _ ↦ h)
  have htorn := h.write (.inr (.inl rfl))
  refine .bind (meets_change ?_ h h)
  have hpart (n : Nat) : Starting sha256 name original artifact { s with
      state := some (if n < jsonSize (recordOf sha256 name original artifact) then .torn
        else .whole (recordOf sha256 name original artifact)) } := by
    split
    · exact htorn
    · exact h.write (.inr (.inr rfl))
  have hwhole := h.write (.inr (.inr rfl))
  refine .bind (meets_act ?_ hpart hpart)
  refine .bind (meets_change ?_ hwhole hwhole)
  exact meets_change ⟨hwhole, rfl⟩ hwhole hwhole

theorem Folder.Recorded.copy (h : Recorded sha256 name original artifact s)
    {backup : Option SdkFile}
    (hbackup : backup = none ∨
      ∃ n mode, backup = some { content := original.content.take n, mode }) :
    Recorded sha256 name original artifact { s with backup } :=
  ⟨h.differ, h.sdk, h.state, hbackup⟩

/-- Copying leaves a part of the backup at most. -/
theorem meets_copyNew (h : Recorded sha256 name original artifact s) :
    Meets (copyNew original.mode) s
      (fun _ s' ↦ Recorded sha256 name original artifact s' ∧ s'.backup = some original)
      (Recorded sha256 name original artifact) (Recorded sha256 name original artifact) := by
  refine Meets.rescue ?_ fun s' error (hs' : Recorded sha256 name original artifact s') ↦
    meets_tidied (meets_unlink (hs'.copy (.inl rfl)) hs' hs')
  refine .bind (meets_readFile h.sdk ?_ h h)
  refine .bind (meets_look ?_ h h)
  refine .bind (meets_require (fun _ ↦ ?_) fun _ ↦ h)
  have hpart (n : Nat) (mode : FileMode) : Recorded sha256 name original artifact
      { s with backup := some { content := original.content.take n, mode } } :=
    h.copy (.inr ⟨n, mode, rfl⟩)
  have hwhole (mode : FileMode) : Recorded sha256 name original artifact
      { s with backup := some { content := original.content, mode } } := by
    have hall := hpart original.content.length mode
    rwa [List.take_length] at hall
  refine .bind (meets_change ?_ h h)
  refine .bind (meets_act ?_ (hpart · _) (hpart · _))
  refine .bind (meets_change ?_ (hwhole _) (hwhole _))
  exact meets_change ⟨hwhole original.mode, rfl⟩ (hwhole _) (hwhole _)

/-- Replacing the SDK is all or nothing, temporary files apart. -/
theorem meets_replaceFrom {source : Folder → Option SdkFile} {found : SdkFile} {mode : FileMode}
    {Q : Unit → Folder → Prop} (hsource : ∀ temps, source { s with temps } = some found)
    (hdone : ∀ temps, Q () { s with sdk := some { content := found.content, mode }, temps })
    (hraise : ∀ temps, R { s with temps }) (hstop : ∀ temps, C { s with temps }) :
    Meets (replaceFrom source mode) s Q R C := by
  refine .bind (meets_change ?_ (hraise s.temps) (hstop s.temps))
  refine Meets.rescue ?_ fun s' error (hs' : ∃ temps, s' = { s with temps }) ↦ ?_
  · have hraised (temps : List SdkFile) :
        ∃ temps', ({ s with temps } : Folder) = { s with temps := temps' } := ⟨temps, rfl⟩
    refine .bind (meets_readFile (hsource _) ?_ (hraised _) (hstop _))
    refine .bind (meets_act ?_ (fun _ ↦ hraised _) fun _ ↦ hstop _)
    refine .bind (meets_change ?_ (hraised _) (hstop _))
    refine .bind (meets_change ?_ (hraised _) (hstop _))
    exact meets_change (hdone _) (hraised _) (hstop _)
  · obtain ⟨temps, rfl⟩ := hs'
    refine .bind (Meets.ignoringOs (Meets.mono (meets_unlink (R := R) (C := C)
      (Q := fun _ s' ↦ R s') (hraise _) (hraise _) (hstop _)) (fun _ _ hR ↦ meets_raise hR)
      (fun _ hR ↦ ⟨meets_raise hR, hR⟩) fun _ hC ↦ hC))

/-! ## Staging, cut off anywhere -/

theorem Folder.Left.withoutBackup (h : Left sha256 name original s) (hsdk : s.sdk = some original) :
    Left sha256 name original { s with backup := none } := by
  cases h with
  | clear _ _ hstate => exact .clear hsdk rfl hstate
  | recorded artifact h => exact .recorded artifact (h.copy (.inl rfl))
  | staged artifact h =>
    have hsame := Option.some.inj (hsdk.symm.trans h.sdk)
    exact absurd (congrArg (fun file : SdkFile ↦ sha256 file.content) hsame) h.differ

theorem meets_unstage (h : Left sha256 name original s) :
    Meets (unstage sha256 (sha256 original.content)) s (fun _ ↦ Left sha256 name original)
      (Left sha256 name original) (Left sha256 name original) := by
  refine .ignoringOs (Meets.mono (R := Left sha256 name original)
    (Q := fun _ ↦ Left sha256 name original) (C := Left sha256 name original) ?_
    (fun _ _ hQ ↦ hQ) (fun _ hR ↦ ⟨hR, hR⟩) fun _ hC ↦ hC)
  refine .bind (meets_look ?_ h h)
  split
  · cases hsdk : s.sdk with
    | none => cases h with
      | clear hsdk' => rw [hsdk] at hsdk'; cases hsdk'
      | recorded artifact h => have hsdk' := h.sdk; rw [hsdk] at hsdk'; cases hsdk'
      | staged artifact h => have hsdk' := h.sdk; rw [hsdk] at hsdk'; cases hsdk'
    | some file =>
      refine .bind (meets_sha256File hsdk ?_ h h)
      split
      · rename_i hhash
        have horiginal : s.sdk = some original := by
          cases h with
          | clear hsdk' => exact hsdk'
          | recorded artifact h => exact h.sdk
          | staged artifact h =>
            obtain rfl := Option.some.inj (hsdk.symm.trans h.sdk)
            exact absurd hhash.symm h.differ
        have hbare := h.withoutBackup horiginal
        refine .bind (meets_look ?_ h h)
        refine Meets.onward (Q := fun _ s' ↦ s' = { s with backup := none }) ?_ ?_
        · split
          · exact meets_unlink rfl h h
          · rename_i hnone
            have hnone' : s.backup = none := by simpa using hnone
            refine meets_pure ?_
            rw [← hnone']
        · rintro _ _ rfl
          refine .bind (meets_look ?_ hbare hbare)
          split
          · exact meets_unlink (.clear horiginal rfl (.inl rfl)) hbare hbare
          · exact meets_pure hbare
      · exact meets_pure h
  · exact meets_pure h

/-- **Staging leaves what can be left**, wherever it is cut off. -/
theorem meets_stageSdk (h : Left sha256 name original s) :
    Meets (stageSdk sha256 jsonSize name artifact) s (fun _ ↦ Left sha256 name original)
      (Left sha256 name original) (Left sha256 name original) := by
  refine .bind (meets_look ?_ h h)
  refine .bind (meets_require (fun _ ↦ ?_) fun _ ↦ h)
  refine .bind (meets_look ?_ h h)
  refine .bind (meets_require (fun hfree ↦ ?_) fun _ ↦ h)
  rw [Bool.or_eq_false_iff, Option.isSome_eq_false_iff, Option.isSome_eq_false_iff,
    Option.isNone_iff_eq_none, Option.isNone_iff_eq_none] at hfree
  have hsdk : s.sdk = some original := by
    cases h with
    | clear hsdk => exact hsdk
    | recorded artifact h => exact h.sdk
    | staged artifact h =>
      have hstate := h.state
      rw [hfree.2] at hstate
      cases hstate
  refine .bind (meets_sha256File hsdk ?_ h h)
  refine .bind (@meets_sha256File _ _ _ _ _ artifact _ rfl ?_ h h)
  refine .bind (meets_require (fun hdiffer ↦ ?_) fun _ ↦ h)
  refine .bind (meets_look ?_ h h)
  rw [hsdk]
  refine Meets.onward (Q := fun _ ↦ Left sha256 name original) ?_ fun _ _ hQ ↦ meets_pure hQ
  refine Meets.rescue ?_ fun s' error (hs' : Left sha256 name original s') ↦ ?_
  · have hstart : Starting sha256 name original artifact s :=
      ⟨hdiffer, hsdk, hfree.1, .inl hfree.2⟩
    refine .bind ((meets_writeNewJson hstart).mono (fun _ s₁ hs₁ ↦ ?_)
      (fun _ ↦ Starting.left) fun _ ↦ Starting.left)
    have hwritten : Recorded sha256 name original artifact s₁ :=
      ⟨hdiffer, hs₁.1.sdk, hs₁.2, .inl hs₁.1.backup⟩
    refine .bind ((meets_copyNew hwritten).mono (fun _ s₂ hs₂ ↦ ?_)
      (fun _ ↦ .recorded artifact) fun _ ↦ .recorded artifact)
    obtain ⟨hcopied, hbackup⟩ := hs₂
    have hleft : Left sha256 name original s₂ := .recorded artifact hcopied
    refine .bind (meets_sha256File hbackup ?_ hleft hleft)
    refine .bind (meets_require (fun _ ↦ ?_) fun _ ↦ hleft)
    have hplaced (temps : List SdkFile) : Left sha256 name original
        { s₂ with sdk := some { content := artifact.content, mode := original.mode }, temps } :=
      .staged artifact ⟨hdiffer, rfl, hcopied.state, original.mode, hbackup⟩
    have htemps (temps : List SdkFile) : Left sha256 name original { s₂ with temps } :=
      .recorded artifact ⟨hdiffer, hcopied.sdk, hcopied.state, hcopied.backup⟩
    refine .bind (meets_replaceFrom (fun _ ↦ rfl) (fun temps ↦ ?_) htemps htemps)
    refine .bind (@meets_sha256File _ _ _ _ _
      { content := artifact.content, mode := original.mode } _ rfl ?_ (hplaced temps)
      (hplaced temps))
    exact meets_require (fun _ ↦ hplaced temps) fun _ ↦ hplaced temps
  · refine (meets_unstage hs').onward fun _ s'' hs'' ↦ ?_
    cases error with
    | os => exact meets_raise hs''
    | runner message => exact meets_raise hs''

/-! ## Restoring, cut off anywhere -/

theorem meets_putBack (h : Staged sha256 name original artifact s) :
    Meets (putBack sha256 (sha256 original.content) original.mode.val) s
      (fun _ ↦ Recorded sha256 name original artifact) (Left sha256 name original)
      (Left sha256 name original) := by
  have hleft (temps : List SdkFile) : Left sha256 name original { s with temps } :=
    .staged artifact ⟨h.differ, h.sdk, h.state, h.backup⟩
  have hdone (temps : List SdkFile) :
      Recorded sha256 name original artifact { s with sdk := some original, temps } := by
    obtain ⟨mode, hbackup⟩ := h.backup
    refine ⟨h.differ, rfl, h.state, .inr ⟨original.content.length, mode, ?_⟩⟩
    rw [List.take_length]
    exact hbackup
  have hs : Left sha256 name original s := .staged artifact h
  obtain ⟨mode, hbackup⟩ := h.backup
  refine .bind (meets_look ?_ hs hs)
  refine .bind (meets_require (fun _ ↦ ?_) fun _ ↦ hs)
  refine .bind (meets_sha256File hbackup ?_ hs hs)
  refine .bind (meets_require (fun _ ↦ ?_) fun _ ↦ hs)
  rw [Fin.ofNat_val_eq_self]
  refine .bind (.handle (meets_replaceFrom (fun _ ↦ hbackup) (fun temps ↦ ?_)
    (fun temps error ↦ meets_raise (hleft temps)) hleft))
  have hrestored : Left sha256 name original { s with sdk := some original, temps } :=
    .recorded artifact (hdone temps)
  refine .bind (@meets_sha256File _ _ _ _ _ original _ rfl ?_ hrestored hrestored)
  exact meets_require (fun _ ↦ hdone temps) fun _ ↦ hrestored

theorem meets_cleanUp (h : Recorded sha256 name original artifact s) :
    Meets (cleanUp sha256 (sha256 original.content)) s (fun _ ↦ Left sha256 name original)
      (Left sha256 name original) (Left sha256 name original) := by
  have hs : Left sha256 name original s := .recorded artifact h
  have hbare : Left sha256 name original { s with backup := none } := hs.withoutBackup h.sdk
  refine Meets.rescue ?_ fun s' error (hs' : Left sha256 name original s') ↦ ?_
  · refine .bind (meets_look ?_ hs hs)
    refine Meets.onward (Q := fun _ s' ↦ s' = { s with backup := none }) ?_ ?_
    · rcases h.backup with hnone | ⟨n, mode, hbackup⟩
      · rw [hnone]
        refine meets_pure ?_
        rw [← hnone]
      · rw [hbackup]
        refine .bind (meets_sha256File hbackup ?_ hs hs)
        exact .bind (meets_require (fun _ ↦ meets_unlink rfl hs hs) fun _ ↦ hs)
    · rintro _ _ rfl
      exact meets_unlink (.clear h.sdk rfl (.inl rfl)) hbare hbare
  · cases error with
    | os => exact meets_raise hs'
    | runner message => exact meets_raise hs'

theorem meets_restoreBy {file : SdkFile} (h : Left sha256 name original s)
    (hsdk : s.sdk = some file)
    (hback : Meets (if sha256 file.content = sha256 artifact.content then
        putBack sha256 (sha256 original.content) original.mode.val else pure ()) s
      (fun _ ↦ Recorded sha256 name original artifact) (Left sha256 name original)
      (Left sha256 name original)) :
    Meets (restoreBy sha256 name (recordOf sha256 name original artifact)) s
      (fun _ ↦ Left sha256 name original) (Left sha256 name original)
      (Left sha256 name original) := by
  refine .bind (meets_require (fun _ ↦ ?_) fun _ ↦ h)
  refine .bind (meets_require (fun _ ↦ ?_) fun _ ↦ h)
  refine .bind (meets_look ?_ h h)
  refine .bind (meets_require (fun _ ↦ ?_) fun _ ↦ h)
  refine .bind (meets_sha256File hsdk ?_ h h)
  refine .bind (meets_require (fun _ ↦ ?_) fun _ ↦ h)
  refine hback.onward fun _ s' hs' ↦ ?_
  exact (meets_cleanUp hs').onward fun _ _ hQ ↦ meets_pure hQ

/-- **Restoring leaves what can be left**, wherever it is cut off. -/
theorem meets_restoreSdk (h : Left sha256 name original s) :
    Meets (restoreSdk sha256 name) s (fun _ ↦ Left sha256 name original)
      (Left sha256 name original) (Left sha256 name original) := by
  refine .bind (.bind (meets_look ?_ h h))
  by_cases hrecorded : s.state.isSome = true
  swap
  · rw [if_neg hrecorded]
    refine .bind (meets_look ?_ h h)
    exact .bind (meets_require (fun _ ↦ meets_raise h) fun _ ↦ h)
  rw [if_pos hrecorded]
  refine meets_pure (.bind (.bind (meets_look ?_ h h)))
  cases h with
  | clear hsdk hbackup hstate =>
    have hs : Left sha256 name original s := .clear hsdk hbackup hstate
    rcases hstate with hnone | htorn
    · rw [hnone] at hrecorded
      cases hrecorded
    · rw [htorn]
      exact meets_raise hs
  | recorded artifact h =>
    rw [h.state]
    refine meets_pure (meets_restoreBy (.recorded artifact h) h.sdk ?_)
    rw [if_neg h.differ]
    exact meets_pure h
  | staged artifact h =>
    rw [h.state]
    refine meets_pure (meets_restoreBy (.staged artifact h) h.sdk ?_)
    rw [if_pos rfl]
    exact meets_putBack h

/-! ## Restoring, with nothing to cut it off -/

theorem sha256File_nil {file : Folder → Option SdkFile} {found : SdkFile}
    (hfile : file s = some found) :
    sha256File sha256 file [] s = (.returned (sha256 found.content), s, []) := by
  simp [sha256File, readFile, bind_nil, hfile, require_nil]

theorem replaceFrom_nil {source : Folder → Option SdkFile} {found : SdkFile} (mode : FileMode)
    (hsource : ∀ temps, source { s with temps } = some found) :
    replaceFrom source mode [] s =
      (.returned (), { s with sdk := some { content := found.content, mode } }, []) := by
  simp [replaceFrom, handle, readFile, touch, bind_nil, hsource, require_nil]

/-- Cleaning up after a whole backup, or none. -/
theorem cleanUp_nil {hash : Bytes} (hstate : s.state.isSome = true)
    (hbackup : ∀ backup, s.backup = some backup → sha256 backup.content = hash) :
    cleanUp sha256 hash [] s = (.returned (), { s with backup := none, state := none }, []) := by
  cases hfound : s.backup with
  | none =>
    simp [cleanUp, handle, bind_nil, unlinkState, unlink, hfound, hstate, require_nil]
  | some backup =>
    simp [cleanUp, handle, bind_nil, unlinkState, unlinkBackup, unlink, hfound, hstate, require_nil,
      sha256File_nil hfound, hbackup backup hfound]

/-- A part of a backup is not cleaned up. -/
theorem cleanUp_nil_torn {hash : Bytes} {backup : SdkFile} (hbackup : s.backup = some backup)
    (hne : sha256 backup.content ≠ hash) :
    ∃ error, cleanUp sha256 hash [] s = (.raised error, s, []) := by
  refine ⟨.runner "the SDK backup changed before cleanup", ?_⟩
  simp [cleanUp, handle, bind_nil, hbackup, sha256File_nil hbackup, require_nil_not hne]

/-- Without a state file that can be read, restoring refuses. -/
theorem restoreSdk_nil_refuses (h : s.state = none ∨ s.state = some .torn) :
    ∃ error, restoreSdk sha256 name [] s = (.raised error, s, []) := by
  rcases h with hnone | htorn
  · cases hbackup : s.backup with
    | none =>
      exact ⟨.runner "no active staging transaction exists for %s", by
        simp [restoreSdk, requireState, bind_nil, hnone, hbackup, require_nil]⟩
    | some backup =>
      exact ⟨.runner
        "an SDK backup exists without its verification state; refusing to overwrite", by
        simp [restoreSdk, requireState, bind_nil, hnone, hbackup, require_nil_not]⟩
  · exact ⟨.runner "cannot read %s: %s", by
      simp [restoreSdk, requireState, readState, bind_nil, htorn]⟩

theorem restoreSdk_nil {value : StageState} (h : s.state = some (.whole value)) :
    restoreSdk sha256 name [] s = restoreBy sha256 name value [] s := by
  simp [restoreSdk, requireState, readState, bind_nil, h]

theorem putBack_nil (h : Staged sha256 name original artifact s) :
    putBack sha256 (sha256 original.content) original.mode.val [] s =
      (.returned (), { s with sdk := some original }, []) := by
  obtain ⟨mode, hbackup⟩ := h.backup
  have hreplace := @replaceFrom_nil s (·.backup) _ original.mode fun _ ↦ hbackup
  simp [putBack, handle, bind_nil, require_nil, hbackup, hreplace, sha256File, readFile]

/-- By its own record, what follows the checks is what counts. -/
theorem restoreBy_nil {file : SdkFile} {after : Folder}
    (hvalid : ∀ content, validHash (sha256 content) = true) (hsdk : s.sdk = some file)
    (hknown : sha256 file.content = sha256 original.content ∨
      sha256 file.content = sha256 artifact.content)
    (hback : (if sha256 file.content = sha256 artifact.content then
        putBack sha256 (sha256 original.content) original.mode.val else pure ()) [] s =
      (.returned (), after, [])) :
    restoreBy sha256 name (recordOf sha256 name original artifact) [] s =
      (cleanUp sha256 (sha256 original.content) >>= fun _ ↦ pure true) [] after := by
  have hmode : original.mode.val ≤ maxMode := Nat.le_of_lt_succ original.mode.isLt
  rw [restoreBy, recordOf]
  dsimp only
  simp only [bind_nil, require_nil, look_nil, hsdk, sha256File_nil hsdk, hvalid, hmode, hknown,
    Option.isSome_some, and_self, hback]

/-- **The SDK is restored exactly** from a readable record and a whole backup, or none. -/
theorem Folder.Left.restores_iff (hvalid : ∀ content, validHash (sha256 content) = true)
    (hparts : ∀ n, sha256 (original.content.take n) = sha256 original.content →
      original.content.take n = original.content)
    (h : Left sha256 name original s) :
    s.Restores sha256 name original ↔ s.Recoverable original := by
  cases h with
  | clear hsdk hbackup hstate =>
    obtain ⟨error, hrefuses⟩ := @restoreSdk_nil_refuses sha256 name s hstate
    refine ⟨fun hrestores ↦ ?_, fun hrecoverable ↦ ?_⟩
    · obtain ⟨s', hdone, -⟩ := hrestores
      rw [hrefuses] at hdone
      cases hdone
    · obtain ⟨⟨value, hvalue⟩, -⟩ := hrecoverable
      rcases hstate with hnone | htorn
      · rw [hnone] at hvalue
        cases hvalue
      · rw [htorn] at hvalue
        cases hvalue
  | recorded artifact h =>
    have hrestore : restoreSdk sha256 name [] s =
        (cleanUp sha256 (sha256 original.content) >>= fun _ ↦ pure true) [] s :=
      (restoreSdk_nil h.state).trans (restoreBy_nil hvalid h.sdk (.inl rfl)
        (by rw [if_neg h.differ]; rfl))
    refine ⟨fun hrestores ↦ ⟨⟨_, h.state⟩, fun backup hbackup ↦ ?_⟩, fun hrecoverable ↦ ?_⟩
    · by_contra hpart
      have hne : sha256 backup.content ≠ sha256 original.content := by
        rcases h.backup with hnone | ⟨n, mode, hsome⟩
        · rw [hnone] at hbackup
          cases hbackup
        · obtain rfl := Option.some.inj (hbackup.symm.trans hsome)
          exact fun heq ↦ hpart (hparts n heq)
      obtain ⟨error, hrefuses⟩ := cleanUp_nil_torn hbackup hne
      obtain ⟨s', hdone, -⟩ := hrestores
      rw [hrestore, bind_nil, hrefuses] at hdone
      cases hdone
    · refine ⟨{ s with backup := none, state := none }, ?_, h.sdk, rfl, rfl⟩
      rw [hrestore, bind_nil, cleanUp_nil (by rw [h.state]; rfl) fun backup hbackup ↦
        congrArg sha256 (hrecoverable.2 backup hbackup)]
      rfl
  | staged artifact h =>
    have hrestore : restoreSdk sha256 name [] s =
        (cleanUp sha256 (sha256 original.content) >>= fun _ ↦ pure true) []
          { s with sdk := some original } :=
      (restoreSdk_nil h.state).trans (restoreBy_nil hvalid h.sdk (.inr rfl)
        (by rw [if_pos rfl]; exact putBack_nil h))
    obtain ⟨mode, hbackup⟩ := h.backup
    refine iff_of_true ⟨{ s with sdk := some original, backup := none, state := none }, ?_, rfl,
      rfl, rfl⟩ ⟨⟨_, h.state⟩, fun backup hsome ↦ ?_⟩
    · rw [hrestore, bind_nil, cleanUp_nil]
      · rfl
      · exact congrArg Option.isSome h.state
      · intro backup hsome
        obtain rfl := Option.some.inj (hbackup.symm.trans hsome)
        rfl
    · obtain rfl := Option.some.inj (hbackup.symm.trans hsome)
      rfl

theorem Folder.Left.step (h : Left sha256 name original s) {i : StageInput} {s' : Folder}
    (hstep : Folder.step sha256 jsonSize name s i = some s') : Left sha256 name original s' := by
  cases i with
  | stage artifact fates =>
    cases hstep
    exact (meets_stageSdk h).anyway fates
  | restore fates =>
    cases hstep
    exact (meets_restoreSdk h).anyway fates

theorem Folder.left_of_reaches
    (h : Reaches (Folder.step sha256 jsonSize name) always (Folder.untouched original) s) :
    Left sha256 name original s :=
  h.invariant (.clear rfl rfl (.inl rfl)) fun _ _ _ hs _ hstep ↦ hs.step hstep

end

/-- **Staging is crash-safe exactly when** the cut leaves a record that can be read and no part of a
backup.  Whatever runs of the two programs came before, and wherever each was cut off, the original
bytes are the SDK's or the backup's.  Restoring then completes, and leaves the original in its place
with nothing beside it, if and only if there is a whole record, and the backup, if any, is whole;
where there is no record at all, it is in its place already.  Of SHA-256 this takes the shape of its
digests, and that no part of the original has the digest of the whole. -/
theorem staging_crash_safe {sha256 : Bytes → Bytes} {jsonSize : StageState → Nat} {name : Bytes}
    {original : SdkFile} {s : Folder} (hvalid : ∀ content, validHash (sha256 content) = true)
    (hparts : ∀ n, sha256 (original.content.take n) = sha256 original.content →
      original.content.take n = original.content)
    (h : Reaches (Folder.step sha256 jsonSize name) always (Folder.untouched original) s) :
    s.Intact original ∧ (s.Restores sha256 name original ↔ s.Recoverable original) ∧
      (s.state = none → s.sdk = some original ∧ s.backup = none) := by
  have hleft := Folder.left_of_reaches h
  exact ⟨hleft.intact, hleft.restores_iff hvalid hparts, hleft.unrecorded⟩

/-- The digests of the files of one byte, and of the empty file for every other. -/
def sampleSha256 (content : Bytes) : Bytes :=
  if content = [1] then
    ascii "4bf5122f344554c53bde2ebb8cd2b7e3d1600ad631c385a5d7cce23c7785459a"
  else if content = [2] then
    ascii "dbc1b4c900ffe48d575b5da5c638040125f65db0fe3e24494b76ea986457d986"
  else
    ascii "e3b0c44298fc1c149afbf4c8996fb92427ae41e4649b934ca495991b7852b855"

theorem validHash_sampleSha256 (content : Bytes) : validHash (sampleSha256 content) = true := by
  rw [sampleSha256]
  split
  · decide +kernel
  · split <;> decide +kernel

theorem sampleSha256_parts (n : Nat)
    (h : sampleSha256 (([1] : Bytes).take n) = sampleSha256 [1]) : ([1] : Bytes).take n = [1] := by
  cases n with
  | zero => exact absurd h (by decide +kernel)
  | succ n => exact congrArg (List.cons 1) List.take_nil

/-- A game's SDK, and what is to take its place. -/
def sampleSdk : SdkFile := { content := [1], mode := 0o755 }

/-- An emulator to stage. -/
def sampleArtifact : SdkFile := { content := [2], mode := 0o644 }

/-- A step of the programs on these, with a record of 250 bytes. -/
def sampleStep : Folder → StageInput → Option Folder :=
  Folder.step sampleSha256 (fun _ ↦ 250) [115]

/-- Staging is cut off by a crash once the SDK was replaced, and the SDK can be restored. -/
theorem staging_crash_safe_replaced : ∃ s,
    Reaches sampleStep always (Folder.untouched sampleSdk) s ∧
      s.sdk = some { content := [2], mode := 0o755 } ∧ s.Intact sampleSdk ∧
      (s.Restores sampleSha256 [115] sampleSdk ↔ s.Recoverable sampleSdk) ∧
      (s.state = none → s.sdk = some sampleSdk ∧ s.backup = none) := by
  obtain ⟨s, h, hsdk⟩ := exists_reaches sampleStep always (Folder.untouched sampleSdk)
    (fun s ↦ s.sdk = some { content := [2], mode := 0o755 })
    [.stage sampleArtifact (List.replicate 23 .done ++ [.stops 0])] (by decide +kernel)
    (meets_always _ _)
  exact ⟨s, h, hsdk, staging_crash_safe validHash_sampleSha256 sampleSha256_parts h⟩

/-- The crash comes while the record is written, or the backup: nothing was replaced, and restoring
refuses. -/
theorem torn_staging_not_restored :
    (∃ s, Reaches sampleStep always (Folder.untouched sampleSdk) s ∧
      s.state = some .torn ∧ ¬ s.Restores sampleSha256 [115] sampleSdk) ∧
    ∃ s, Reaches sampleStep always (Folder.untouched sampleSdk) s ∧
      s.backup = some { content := [], mode := createdMode } ∧
      ¬ s.Restores sampleSha256 [115] sampleSdk := by
  constructor
  · obtain ⟨s, h, hstate⟩ := exists_reaches sampleStep always (Folder.untouched sampleSdk)
      (fun s ↦ s.state = some .torn)
      [.stage sampleArtifact (List.replicate 7 .done ++ [.stops 0])] (by decide +kernel)
      (meets_always _ _)
    refine ⟨s, h, hstate, fun hrestores ↦ ?_⟩
    obtain ⟨⟨value, hvalue⟩, -⟩ := ((Folder.left_of_reaches h).restores_iff
      validHash_sampleSha256 sampleSha256_parts).1 hrestores
    rw [hstate] at hvalue
    cases hvalue
  · obtain ⟨s, h, hbackup⟩ := exists_reaches sampleStep always (Folder.untouched sampleSdk)
      (fun s ↦ s.backup = some { content := [], mode := createdMode })
      [.stage sampleArtifact (List.replicate 13 .done ++ [.stops 0])] (by decide +kernel)
      (meets_always _ _)
    refine ⟨s, h, hbackup, fun hrestores ↦ ?_⟩
    obtain ⟨-, hwhole⟩ := ((Folder.left_of_reaches h).restores_iff
      validHash_sampleSha256 sampleSha256_parts).1 hrestores
    cases hwhole _ hbackup

end EosMesh
