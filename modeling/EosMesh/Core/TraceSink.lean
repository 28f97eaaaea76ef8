import EosMesh.Core.Config
import EosMesh.Core.TraceEvent
import EosMesh.Lib.NumberedFiles
import EosMesh.Lib.RollingLog
import EosMesh.Lib.Run

/-!
# The trace sink keeps the newest part of the run, in files of bounded size

Whole lines are buffered, flushed to `trace.jsonl`, and when the next one does not fit, the file is
rotated: `trace.1.jsonl` is the newest of the older ones, and past the configured number the oldest
goes.  The record that heads the next file tells what was lost.

The lock is held over every operation here, so a run of the sink is a list of operations.  Each file
operation may fail, and a failure that leaves the files in doubt disables the sink: it goes on being
called, and writes nothing more.

* `TraceSink.Keeps` says which log the files, the buffer and the sizes that the sink keeps are.  The
  log is `Lib.RollingLog`, which knows nothing of files.
* `dropOldest_keeps`, `renameFiles_keeps` and `rotateFiles_keeps` follow the chain of renames, which
  goes from the highest number down.  What the run directory held before beyond the configured
  number stays there.
* `Kept` adds the bounds: the sink's log within its cap and its number of files, and a suffix of
  what was written.  `Kept.rotateLocked` closes a segment, and `Kept.writeLineLocked` adds a line.
* A rotation record finds its file empty, so that it causes no rotation itself
  (`writeLineWith_fresh`).
* `TraceSink.Takes` is what one step does to the log, and `Kept.step` the step lemma.

`rotation_bounded` is what a run leaves, as long as each line fits in a file beside a rotation
record (`Fits`); it covers the bytes of every file and the number of files.
-/

set_option autoImplicit false

namespace EosMesh

open Lib

/-! ## The sink -/

/-- How the run directory is owned. -/
inductive DirMode where
  | create
  | mustExist
  deriving DecidableEq

/-- The sink and its run directory: `trace.jsonl` is the file 0, `trace.k.jsonl` the file `k`.
`written` is what was ever put in the buffer, and `logged` what the logger was handed. -/
structure TraceSink where
  level : TraceLevel := .off
  maxBytes : UInt64 := 0
  maxRotatedFiles : UInt32 := 0
  buffer : Bytes := []
  currentBytes : UInt64 := 0
  rotatedSizes : List UInt64 := []
  pendingDiagnostic : Bytes := []
  active : Bool := false
  disabled : Bool := false
  closed : Bool := false
  directory : NumberedFiles UInt8 := {}
  written : Bytes := []
  logged : List Bytes := []

/-- The levels in their order. -/
def TraceLevel.rank : TraceLevel → Nat
  | .off => 0
  | .errors => 1
  | .lifecycle => 2
  | .full => 3

/-- What ends a line. -/
def newline : UInt8 := 10

namespace TraceSink

/-- Hand the diagnostic that waits to the logger. -/
def deliverPending (s : TraceSink) : TraceSink :=
  if s.pendingDiagnostic.isEmpty then s
  else { s with pendingDiagnostic := [], logged := s.logged ++ [s.pendingDiagnostic] }

/-- Nothing more is written.  The reason waits to be told, and what was buffered is lost. -/
def disableLocked (s : TraceSink) (reason : Bytes) : TraceSink :=
  { s with disabled := true, buffer := [], pendingDiagnostic := reason }

/-- The buffer goes to the live file; a failure disables the sink. -/
def flushLocked (s : TraceSink) : TraceSink :=
  if s.buffer.isEmpty then s
  else
    match s.directory.append 0 s.buffer with
    | (false, directory) =>
      { s with directory }.disableLocked (ascii "trace sink disabled after a write failure")
    | (true, directory) => { s with directory, buffer := [] }

/-- A line at the end of the buffer. -/
def push (s : TraceSink) (line : Bytes) (add : UInt64) : TraceSink :=
  { s with
    buffer := s.buffer ++ (line ++ [newline])
    currentBytes := s.currentBytes + add
    written := s.written ++ (line ++ [newline]) }

/-- `write_line_locked`, with the rotation that it may call for. -/
def writeLineWith (rotate : TraceSink → TraceSink) (line : Bytes) (s : TraceSink) : TraceSink :=
  let add : UInt64 := UInt64.ofNat line.length + 1
  if s.maxBytes < add then s
  else if s.maxBytes < s.currentBytes + add then
    let s := rotate s
    if s.disabled then s
    else if s.maxBytes < s.currentBytes + add then s
    else s.push line add
  else s.push line add

/-- `emit_meta_locked`, with the envelope that is next. -/
def emitMetaWith (rotate : TraceSink → TraceSink) (env : TraceEnvelope) (event : Bytes)
    (fields : List TraceField) (s : TraceSink) : TraceSink :=
  let line := serializeMeta env event fields
  if line.isEmpty then s else s.writeLineWith rotate line

/-- At capacity, the file with the highest number is dropped. -/
def dropOldest (s : TraceSink) : Option (UInt32 × UInt64) × TraceSink :=
  if s.maxRotatedFiles.toNat ≤ s.rotatedSizes.length then
    match s.directory.remove s.rotatedSizes.length with
    | (false, directory) =>
      (none, { s with directory }.disableLocked
        (ascii "trace sink disabled after a remove failure during rotation"))
    | (true, directory) =>
      (some (1, s.rotatedSizes.getLastD 0),
        { s with directory, rotatedSizes := s.rotatedSizes.dropLast })
  else (some (0, 0), s)

/-- The chain of renames, from the highest number down, and `trace.jsonl` last. -/
def renameFiles (s : TraceSink) : Bool × TraceSink :=
  let reason := ascii "trace sink disabled after a rename failure during rotation"
  match NumberedFiles.shiftUp s.rotatedSizes.length s.directory with
  | (false, directory) => (false, { s with directory }.disableLocked reason)
  | (true, directory) =>
    match directory.rename 0 1 with
    | (false, directory) => (false, { s with directory }.disableLocked reason)
    | (true, directory) =>
      (true, { s with directory, rotatedSizes := s.currentBytes :: s.rotatedSizes })

/-- The files of a rotation.  What is returned is how many files and bytes were dropped, or nothing
when the sink was disabled. -/
def rotateFiles (s : TraceSink) : Option (UInt32 × UInt64) × TraceSink :=
  if s.maxRotatedFiles = 0 then
    match s.directory.remove 0 with
    | (false, directory) =>
      (none, { s with directory }.disableLocked
        (ascii "trace sink disabled after a remove failure during rotation"))
    | (true, directory) => (some (1, s.currentBytes), { s with directory })
  else
    match s.dropOldest with
    | (none, s) => (none, s)
    | (some dropped, s) =>
      match s.renameFiles with
      | (false, s) => (none, s)
      | (true, s) => (some dropped, s)

/-- The fields of a rotate record. -/
def rotateFields (droppedFiles : UInt32) (droppedBytes : UInt64) : List TraceField :=
  [makeField .droppedFiles (tvUint droppedFiles.toUInt64),
    makeField .droppedBytes (tvUint droppedBytes)]

/-- `rotate_locked`, with the envelope for its record.  The record finds the file empty, so no
second rotation comes of it: `writeLineWith_fresh`. -/
def rotateLocked (env : TraceEnvelope) (s : TraceSink) : TraceSink :=
  let s := s.flushLocked
  if s.disabled then s
  else
    match s.rotateFiles with
    | (none, s) => s
    | (some (droppedFiles, droppedBytes), s) =>
      { s with currentBytes := 0, buffer := [] }.emitMetaWith (fun s ↦ s) env (ascii "rotate")
        (rotateFields droppedFiles droppedBytes)

/-- A line goes into the buffer, after a rotation if the file would grow too long. -/
def writeLineLocked (env : TraceEnvelope) (line : Bytes) (s : TraceSink) : TraceSink :=
  s.writeLineWith (rotateLocked env) line

/-- Write a record line, with the envelope for a rotation on the way. -/
def write (s : TraceSink) (recordLevel : TraceLevel) (line : Bytes) (env : TraceEnvelope) :
    TraceSink :=
  if !s.active || s.disabled || s.closed then s
  else if s.level.rank < recordLevel.rank then s
  else if line.isEmpty then s
  else
    let s := s.writeLineLocked env line
    let s := if recordLevel = .errors ∧ s.disabled = false then s.flushLocked else s
    s.deliverPending

/-- `flush`, while the sink is in use. -/
def flush (s : TraceSink) : TraceSink :=
  if !s.active || s.disabled || s.closed then s else s.flushLocked.deliverPending

/-- Close, with the envelope for the last record and the one for a rotation on the way. -/
def close (s : TraceSink) (env rotateEnv : TraceEnvelope) : TraceSink :=
  if s.closed || !s.active then { s with closed := true }
  else
    let s :=
      if s.disabled then s
      else (s.emitMetaWith (rotateLocked rotateEnv) env (ascii "shutdown") []).flushLocked
    { s with closed := true, active := false }.deliverPending

/-- The sink stays inactive, for a reason. -/
def refuse (s : TraceSink) (reason : String) : TraceSink :=
  { s with pendingDiagnostic := ascii reason }

/-- Open for a run.  `there` is whether the run directory could be made, or exists; `env` is the
envelope of the first record, if there is a source of them.  Its line finds the file empty. -/
def openLocked (directory : NumberedFiles UInt8) (level : TraceLevel) (maxBytes : UInt64)
    (maxRotatedFiles : UInt32) (env : Option TraceEnvelope) (mode : DirMode) (there : Bool) :
    TraceSink :=
  let s : TraceSink := { level, maxBytes, maxRotatedFiles, directory }
  if level = .off then s
  else
    match env with
    | none => s.refuse "trace sink not opened: no metadata source for the run stream"
    | some env =>
      if there = false then
        s.refuse (match mode with
          | .create => "trace sink not opened: could not create the run directory"
          | .mustExist => "trace sink not opened: the run directory does not exist")
      else
        match s.directory.create 0 with
        | (false, directory) =>
          { s with directory }.refuse
            "trace sink not opened: trace.jsonl already exists or is not writable"
        | (true, directory) =>
          { s with directory, active := true }.emitMetaWith (fun s ↦ s) env (ascii "run_start") []

/-! ## A run -/

/-- What may happen to the sink. -/
inductive Input where
  | write (recordLevel : TraceLevel) (line : Bytes) (env : TraceEnvelope)
  | flush
  | close (env rotateEnv : TraceEnvelope)

/-- One thing that happens. -/
def step (s : TraceSink) : Input → Option TraceSink
  | .write recordLevel line env => some (s.write recordLevel line env)
  | .flush => some s.flush
  | .close env rotateEnv => some (s.close env rotateEnv)

/-- The line that an input brings and the sink accepts, with the envelope for a rotation. -/
def accepts (s : TraceSink) : Input → Option (Bytes × TraceEnvelope)
  | .write recordLevel line env =>
    if !s.active || s.disabled || s.closed || s.level.rank < recordLevel.rank || line.isEmpty then
      none
    else some (line, env)
  | .flush => none
  | .close env rotateEnv =>
    let line := serializeMeta env (ascii "shutdown") []
    if s.closed || !s.active || s.disabled || line.isEmpty then none else some (line, rotateEnv)

/-! ## The level of a sink -/

@[simp] theorem flushLocked_level (s : TraceSink) : s.flushLocked.level = s.level := by
  rw [flushLocked]
  split
  · rfl
  · split <;> rfl

@[simp] theorem deliverPending_level (s : TraceSink) : s.deliverPending.level = s.level := by
  rw [deliverPending]
  split <;> rfl

theorem writeLineWith_level {rotate : TraceSink → TraceSink}
    (hrotate : ∀ s, (rotate s).level = s.level) (line : Bytes) (s : TraceSink) :
    (s.writeLineWith rotate line).level = s.level := by
  rw [writeLineWith]
  dsimp only
  split
  · rfl
  · split
    · split
      · exact hrotate s
      · split
        · exact hrotate s
        · exact hrotate s
    · rfl

theorem renameFiles_level (s : TraceSink) : s.renameFiles.2.level = s.level := by
  rw [renameFiles]
  split
  · rfl
  · split <;> rfl

theorem rotateFiles_level (s : TraceSink) : s.rotateFiles.2.level = s.level := by
  have holdest : s.dropOldest.2.level = s.level := by
    rw [dropOldest]
    split
    · split <;> rfl
    · rfl
  rw [rotateFiles]
  split
  · split <;> rfl
  · split
    · rename_i s₁ hdrop
      rw [hdrop] at holdest
      exact holdest
    · rename_i dropped s₁ hdrop
      rw [hdrop] at holdest
      have hrename := s₁.renameFiles_level
      split
      · rename_i s₂ hrenamed
        rw [hrenamed] at hrename
        exact hrename.trans holdest
      · rename_i s₂ hrenamed
        rw [hrenamed] at hrename
        exact hrename.trans holdest

@[simp] theorem rotateLocked_level (env : TraceEnvelope) (s : TraceSink) :
    (rotateLocked env s).level = s.level := by
  have hfiles := s.flushLocked.rotateFiles_level
  rw [rotateLocked]
  split
  · exact s.flushLocked_level
  · split
    · rename_i s₁ hrotated
      rw [hrotated] at hfiles
      exact hfiles.trans s.flushLocked_level
    · rename_i droppedFiles droppedBytes s₁ hrotated
      rw [hrotated] at hfiles
      rw [emitMetaWith]
      split
      · exact hfiles.trans s.flushLocked_level
      · rw [writeLineWith_level (fun _ ↦ rfl)]
        exact hfiles.trans s.flushLocked_level

/-- Whatever it is handed, a sink stays at its level. -/
theorem write_level (s : TraceSink) (recordLevel : TraceLevel) (line : Bytes)
    (env : TraceEnvelope) :
    (s.write recordLevel line env).level = s.level := by
  have hline : (s.writeLineLocked env line).level = s.level :=
    writeLineWith_level (rotateLocked_level env) line s
  rw [write]
  dsimp only
  split
  · rfl
  · split
    · rfl
    · split
      · rfl
      · split <;> simp [hline]

/-! ## The log that a sink keeps -/

/-- What `trace.jsonl` holds. -/
def live (s : TraceSink) : Bytes := (s.directory.file 0).getD []

/-- What `trace.1.jsonl`, `trace.2.jsonl`, … hold, as far as the sink rotated them. -/
def rotated (s : TraceSink) : List Bytes :=
  (List.range s.rotatedSizes.length).map fun k ↦ (s.directory.file (k + 1)).getD []

/-- The files and the buffer as one log. -/
def log (s : TraceSink) : RollingLog UInt8 :=
  { closed := s.rotated, current := s.live ++ s.buffer }

/-- A record as it stands in the file; one that could not be serialized does not. -/
def recordLine (record : Bytes) : Bytes := if record.isEmpty then [] else record ++ [newline]

/-- The rotate record if a rotation came now: it counts the files and the bytes that it drops. -/
def rotateLine (s : TraceSink) (env : TraceEnvelope) : Bytes :=
  let dropped := s.log.dropped s.maxRotatedFiles.toNat
  recordLine (serializeMeta env (ascii "rotate")
    (rotateFields (UInt32.ofNat dropped.length) (UInt64.ofNat dropped.flatten.length)))

/-- The line that comes fits in a file, after a rotate record. -/
def Fits (s : TraceSink) (i : Input) : Prop :=
  ∀ taken ∈ s.accepts i,
    (s.rotateLine taken.2).length + (taken.1.length + 1) ≤ s.maxBytes.toNat

instance (s : TraceSink) (i : Input) : Decidable (s.Fits i) :=
  inferInstanceAs (Decidable (∀ _ ∈ _, _))

/-- What a step does: a line that comes is added, and otherwise nothing changes. -/
def Takes (s s' : TraceSink) : Option (Bytes × TraceEnvelope) → Prop
  | none => s'.log = s.log ∧ s'.written = s.written
  | some (line, env) =>
    s'.log = s.log.add s.maxBytes.toNat s.maxRotatedFiles.toNat (s.rotateLine env)
        (line ++ [newline]) ∧
      s'.written = s.written ++
        s.log.added s.maxBytes.toNat (s.rotateLine env) (line ++ [newline])

/-! ## The files -/

variable {s s' : TraceSink} {before : Nat → Option Bytes} {older kept : List Bytes}
  {content line : Bytes} {env : TraceEnvelope} {cap : UInt64} {keep : UInt32}

/-- The sink's older files are `older`, the newest first, and it knows their sizes.  What the run
directory held `before` beyond them is still there. -/
structure Keeps (before : Nat → Option Bytes) (older : List Bytes) (s : TraceSink) : Prop where
  enabled : s.disabled = false
  faults : s.directory.faults = []
  files : ∀ k, s.directory.file (k + 1) = older[k]?.or (before (k + 1))
  sizes : s.rotatedSizes.map UInt64.toNat = older.map List.length

theorem Keeps.length_eq (h : s.Keeps before older) : s.rotatedSizes.length = older.length := by
  simpa using congrArg List.length h.sizes

theorem Keeps.rotated_eq (h : s.Keeps before older) : s.rotated = older := by
  refine List.ext_getElem (by simp [rotated, h.length_eq]) fun k hk hk' ↦ ?_
  simp [rotated, h.files, List.getElem?_eq_getElem hk']

/-- At capacity, what is dropped is the oldest file. -/
theorem dropOldest_keeps (h : s.Keeps before older) (hkeep : 0 < s.maxRotatedFiles.toNat)
    (hcount : older.length ≤ s.maxRotatedFiles.toNat) :
    ∃ files bytes directory sizes,
      s.dropOldest = (some (files, bytes), { s with directory, rotatedSizes := sizes }) ∧
      directory.faults = [] ∧ directory.file 0 = s.directory.file 0 ∧
      sizes.map UInt64.toNat = (older.take (s.maxRotatedFiles.toNat - 1)).map List.length ∧
      (∀ k, k ≠ (older.take (s.maxRotatedFiles.toNat - 1)).length →
        directory.file (k + 1) = s.directory.file (k + 1)) ∧
      files.toNat = (older.drop (s.maxRotatedFiles.toNat - 1)).length ∧
      bytes.toNat = (older.drop (s.maxRotatedFiles.toNat - 1)).flatten.length := by
  rw [dropOldest]
  split
  · rename_i hfull
    rw [h.length_eq] at hfull
    obtain rfl | ⟨init, last, rfl⟩ := older.eq_nil_or_concat'
    · exact absurd hfull (Nat.not_le.2 hkeep)
    have hsize : s.maxRotatedFiles.toNat - 1 = init.length := by
      rw [List.length_append, List.length_singleton] at hfull hcount
      omega
    obtain ⟨inits, lasts, hsizes⟩ : ∃ inits lasts, s.rotatedSizes = inits ++ [lasts] := by
      rcases s.rotatedSizes.eq_nil_or_concat' with hnil | hconcat
      · have hsizes := h.sizes
        simp [hnil] at hsizes
      · exact hconcat
    have hmap := h.sizes
    rw [hsizes, List.map_append, List.map_append] at hmap
    obtain ⟨hinit, hlast⟩ := List.append_inj' hmap rfl
    have hlength : inits.length = init.length := by simpa using congrArg List.length hinit
    obtain ⟨d, hremove, hfaults, -, hsame⟩ :=
      NumberedFiles.remove_of_faultless h.faults (inits.length + 1)
    rw [hsizes, List.length_append, List.length_singleton, hremove, hsize, List.take_left,
      List.drop_left, List.dropLast_concat, List.getLastD_concat]
    refine ⟨_, _, _, _, rfl, hfaults, hsame 0 (by omega), hinit, fun k hk ↦ ?_, rfl, ?_⟩
    · exact hsame (k + 1) (by omega)
    · simpa using hlast
  · rename_i hroom
    rw [h.length_eq] at hroom
    rw [List.take_of_length_le (by omega), List.drop_of_length_le (by omega)]
    exact ⟨_, _, _, _, rfl, h.faults, rfl, h.sizes, fun _ _ ↦ rfl, rfl, rfl⟩

/-- The renames make the current file the newest of the older ones. -/
theorem renameFiles_keeps (henabled : s.disabled = false) (hfaults : s.directory.faults = [])
    (hlive : s.directory.file 0 = some content)
    (hcurrent : s.currentBytes.toNat = content.length)
    (hsizes : s.rotatedSizes.map UInt64.toNat = kept.map List.length)
    (hkept : ∀ k < kept.length, s.directory.file (k + 1) = kept[k]?)
    (hrest : ∀ k, kept.length < k → s.directory.file (k + 1) = before (k + 1)) :
    ∃ directory, s.renameFiles = (true,
        { s with directory, rotatedSizes := s.currentBytes :: s.rotatedSizes }) ∧
      directory.file 0 = none ∧
      { s with directory, rotatedSizes := s.currentBytes :: s.rotatedSizes }.Keeps before
        (content :: kept) := by
  have hlength : s.rotatedSizes.length = kept.length := by
    simpa using congrArg List.length hsizes
  obtain ⟨d, hshift, hnofault, hbase, hmoved, hstays⟩ :=
    NumberedFiles.shiftUp_of_faultless s.rotatedSizes.length hfaults fun k hk ↦ by
      rw [hkept k (hlength ▸ hk), List.getElem?_eq_getElem (hlength ▸ hk)]
      rfl
  rw [renameFiles, hshift]
  dsimp only
  obtain ⟨d', hrename, hfaults', hgone, hfirst, hsame⟩ :=
    NumberedFiles.rename_of_faultless hnofault (hbase.trans hlive) Nat.zero_ne_one
  rw [hrename]
  refine ⟨d', rfl, hgone, henabled, hfaults', fun k ↦ ?_, ?_⟩
  · cases k with
    | zero => exact hfirst
    | succ k =>
      refine (hsame (k + 2) (by omega) (by omega)).trans ?_
      rw [List.getElem?_cons_succ]
      by_cases hk : k < kept.length
      · rw [hmoved k (hlength ▸ hk), hkept k hk, List.getElem?_eq_getElem hk]
        rfl
      · rw [hstays (k + 1) (by omega), hrest (k + 1) (by omega),
          List.getElem?_eq_none (Nat.not_lt.1 hk)]
        rfl
  · rw [List.map_cons, List.map_cons, hcurrent, hsizes]

/-- **The files of a rotation**: the current one is closed, and those too many are dropped. -/
theorem rotateFiles_keeps (h : s.Keeps before older) (hlive : s.directory.file 0 = some content)
    (hcurrent : s.currentBytes.toNat = content.length)
    (hcount : older.length ≤ s.maxRotatedFiles.toNat) :
    ∃ files bytes directory sizes,
      s.rotateFiles = (some (files, bytes), { s with directory, rotatedSizes := sizes }) ∧
      directory.file 0 = none ∧
      { s with directory, rotatedSizes := sizes }.Keeps before
        ((content :: older).take s.maxRotatedFiles.toNat) ∧
      files.toNat = ((content :: older).drop s.maxRotatedFiles.toNat).length ∧
      bytes.toNat = ((content :: older).drop s.maxRotatedFiles.toNat).flatten.length := by
  rw [rotateFiles]
  by_cases hnone : s.maxRotatedFiles = 0
  · rw [hnone] at hcount ⊢
    obtain rfl := List.eq_nil_of_length_eq_zero (Nat.le_zero.1 hcount)
    obtain ⟨d, hremove, hfaults, hgone, hsame⟩ := NumberedFiles.remove_of_faultless h.faults 0
    rw [if_pos rfl, hremove]
    refine ⟨_, _, d, _, rfl, hgone, ⟨h.enabled, hfaults, fun k ↦ ?_, h.sizes⟩, rfl, ?_⟩
    · exact (hsame (k + 1) (by omega)).trans (h.files k)
    · simpa using hcurrent
  · have hpos : 0 < s.maxRotatedFiles.toNat :=
      Nat.pos_of_ne_zero fun hzero ↦ hnone (UInt32.toNat_inj.1 hzero)
    obtain ⟨limit, hlimit⟩ := Nat.exists_eq_succ_of_ne_zero hpos.ne'
    obtain ⟨files, bytes, d, sizes, hdrop, hfaults, hbase, hsizes, hsame, hfiles, hbytes⟩ :=
      dropOldest_keeps h hpos hcount
    rw [hlimit] at hcount hsizes hsame hfiles hbytes
    rw [Nat.succ_sub_one] at hsizes hsame hfiles hbytes
    have htake : (older.take limit).length = min limit older.length := List.length_take
    obtain ⟨d', hrename, hgone, hkeeps⟩ := @renameFiles_keeps
      { s with directory := d, rotatedSizes := sizes } before (older.take limit) content h.enabled
      hfaults (hbase.trans hlive) hcurrent hsizes
      (fun k hk ↦ by
        rw [hsame k hk.ne, h.files, List.getElem?_take_of_lt (by omega),
          List.getElem?_eq_getElem (by omega)]
        rfl)
      (fun k hk ↦ by
        rw [hsame k hk.ne', h.files, List.getElem?_eq_none (by omega)]
        rfl)
    rw [if_neg hnone, hdrop]
    dsimp only
    rw [hrename, hlimit]
    exact ⟨_, _, _, _, rfl, hgone, hkeeps, hfiles, hbytes⟩

/-- A flush moves the buffer to the file. -/
theorem flushLocked_keeps (h : s.Keeps before older) :
    ∃ directory, s.flushLocked = { s with directory, buffer := [] } ∧
      (directory.file 0).getD [] = s.live ++ s.buffer ∧
      { s with directory, buffer := [] }.Keeps before older := by
  rw [flushLocked]
  by_cases hempty : s.buffer.isEmpty = true
  · have hnil : s.buffer = [] := List.isEmpty_iff.1 hempty
    rw [if_pos hempty]
    refine ⟨s.directory, ?_, ?_, h.enabled, h.faults, h.files, h.sizes⟩
    · rw [← hnil]
    · rw [hnil, List.append_nil]
      rfl
  · obtain ⟨d, happend, hfaults, hfile, hsame⟩ :=
      NumberedFiles.append_of_faultless h.faults 0 s.buffer
    rw [if_neg hempty, happend]
    refine ⟨d, rfl, ?_, h.enabled, hfaults, fun k ↦ ?_, h.sizes⟩
    · rw [hfile]
      rfl
    · exact (hsame (k + 1) (by omega)).trans (h.files k)

/-! ## Lines -/

theorem toNat_size (h : line.length + 1 ≤ cap.toNat) :
    (UInt64.ofNat line.length + 1).toNat = line.length + 1 := by
  have hcap := cap.toNat_lt
  rw [UInt64.toNat_add, UInt64.toNat_ofNat', UInt64.toNat_one]
  omega

/-- What goes to an empty file causes no rotation. -/
theorem writeLineWith_fresh (rotate : TraceSink → TraceSink) (hfresh : s.currentBytes = 0) :
    s.writeLineWith rotate line =
      if s.maxBytes < UInt64.ofNat line.length + 1 then s
      else s.push line (UInt64.ofNat line.length + 1) := by
  rw [writeLineWith, hfresh, zero_add]
  dsimp only
  split <;> rfl

/-- A record at the head of an empty file. -/
theorem emitMetaWith_fresh (rotate : TraceSink → TraceSink) {event : Bytes}
    {fields : List TraceField} (hfresh : s.currentBytes = 0)
    (hfits : (recordLine (serializeMeta env event fields)).length ≤ s.maxBytes.toNat) :
    s.emitMetaWith rotate env event fields =
      { s with
        buffer := s.buffer ++ recordLine (serializeMeta env event fields)
        currentBytes := UInt64.ofNat (recordLine (serializeMeta env event fields)).length
        written := s.written ++ recordLine (serializeMeta env event fields) } := by
  rw [emitMetaWith]
  generalize serializeMeta env event fields = record at hfits ⊢
  rw [recordLine] at hfits ⊢
  split
  · have hzero : UInt64.ofNat ([] : Bytes).length = s.currentBytes := hfresh.symm
    rw [List.append_nil, List.append_nil, hzero]
  · rename_i hsome
    rw [if_neg hsome, List.length_append, List.length_singleton] at hfits
    have hroom : ¬ s.maxBytes < UInt64.ofNat record.length + 1 := by
      rw [UInt64.lt_iff_toNat_lt, toNat_size hfits]
      omega
    rw [writeLineWith_fresh rotate hfresh, if_neg hroom, push, hfresh, zero_add,
      List.length_append, List.length_singleton, UInt64.ofNat_add]
    rfl

/-! ## What the sink keeps -/

/-- The sink, opened with `cap` and `keep`, keeps a log within these bounds, which is a suffix of
what was written. -/
structure Kept (cap : UInt64) (keep : UInt32) (before : Nat → Option Bytes) (s : TraceSink) :
    Prop where
  maxBytes : s.maxBytes = cap
  maxRotatedFiles : s.maxRotatedFiles = keep
  keeps : s.Keeps before s.log.closed
  current : s.currentBytes.toNat = s.log.current.length
  bounded : s.log.Bounded cap.toNat keep.toNat

/-- The fields that say nothing of the files. -/
theorem Kept.with (h : s.Kept cap keep before) (pendingDiagnostic : Bytes) (logged : List Bytes)
    (active closed : Bool) :
    { s with pendingDiagnostic, logged, active, closed }.Kept cap keep before :=
  ⟨h.maxBytes, h.maxRotatedFiles,
    ⟨h.keeps.enabled, h.keeps.faults, h.keeps.files, h.keeps.sizes⟩, h.current, h.bounded⟩

theorem Kept.deliverPending (h : s.Kept cap keep before) :
    s.deliverPending.Kept cap keep before ∧ s.deliverPending.log = s.log ∧
      s.deliverPending.written = s.written := by
  rw [TraceSink.deliverPending]
  split
  · exact ⟨h, rfl, rfl⟩
  · exact ⟨h.with _ _ _ _, rfl, rfl⟩

theorem Kept.flushLocked (h : s.Kept cap keep before) :
    s.flushLocked.Kept cap keep before ∧ s.flushLocked.log = s.log ∧
      s.flushLocked.written = s.written := by
  obtain ⟨d, hflush, hlive, hkeeps⟩ := flushLocked_keeps h.keeps
  have hlog : { s with directory := d, buffer := [] }.log = s.log := by
    rw [log, hkeeps.rotated_eq, live, List.append_nil, hlive]
    rfl
  rw [hflush]
  refine ⟨⟨h.maxBytes, h.maxRotatedFiles, ?_, ?_, ?_⟩, hlog, rfl⟩
  · rw [hlog]
    exact hkeeps
  · rw [hlog]
    exact h.current
  · rw [hlog]
    exact h.bounded

/-- **A rotation closes the current segment**, and its record counts what is dropped. -/
theorem Kept.rotateLocked (h : s.Kept cap keep before) (hcurrent : s.log.current ≠ [])
    (hfits : (s.rotateLine env).length ≤ cap.toNat) :
    (rotateLocked env s).Kept cap keep before ∧
      (TraceSink.rotateLocked env s).log = s.log.roll keep.toNat (s.rotateLine env) ∧
      (TraceSink.rotateLocked env s).written = s.written ++ s.rotateLine env := by
  obtain ⟨d, hflush, hlive, hkeeps⟩ := flushLocked_keeps h.keeps
  have hfile : d.file 0 = some s.log.current := by
    cases hfile : d.file 0 with
    | none =>
      rw [hfile] at hlive
      exact absurd hlive.symm hcurrent
    | some content =>
      rw [hfile] at hlive
      exact congrArg some hlive
  obtain ⟨files, bytes, d', sizes, hrotate, hgone, hkeeps', hfiles, hbytes⟩ :=
    rotateFiles_keeps hkeeps hfile h.current (h.maxRotatedFiles ▸ h.bounded.count)
  have hline : recordLine (serializeMeta env (ascii "rotate") (rotateFields files bytes)) =
      s.rotateLine env := by
    rw [rotateLine, RollingLog.dropped]
    dsimp only at hfiles hbytes ⊢
    rw [← hfiles, ← hbytes, UInt32.ofNat_toNat, UInt64.ofNat_toNat]
  have hrotated : TraceSink.rotateLocked env s =
      { s with
        directory := d', rotatedSizes := sizes, buffer := s.rotateLine env
        currentBytes := UInt64.ofNat (s.rotateLine env).length
        written := s.written ++ s.rotateLine env } := by
    rw [TraceSink.rotateLocked, hflush]
    dsimp only
    rw [if_neg (by rw [h.keeps.enabled]; exact Bool.false_ne_true), hrotate]
    dsimp only
    rw [emitMetaWith_fresh _ rfl (by rw [hline]; exact h.maxBytes ▸ hfits), hline]
    rfl
  have hkeeps' : (TraceSink.rotateLocked env s).Keeps before
      ((s.log.current :: s.log.closed).take keep.toNat) := by
    rw [hrotated, ← h.maxRotatedFiles]
    exact ⟨h.keeps.enabled, hkeeps'.faults, hkeeps'.files, hkeeps'.sizes⟩
  have hlog : (TraceSink.rotateLocked env s).log =
      s.log.roll keep.toNat (s.rotateLine env) := by
    rw [log, hkeeps'.rotated_eq, hrotated, live]
    dsimp only
    rw [hgone]
    rfl
  have hlength : (s.rotateLine env).length < 2 ^ 64 := hfits.trans_lt cap.toNat_lt
  refine ⟨⟨?_, ?_, hlog ▸ hkeeps', ?_, hlog ▸ h.bounded.roll hfits⟩, hlog, ?_⟩
  · rw [hrotated]
    exact h.maxBytes
  · rw [hrotated]
    exact h.maxRotatedFiles
  · rw [hlog, hrotated]
    exact UInt64.toNat_ofNat_of_lt' hlength
  · rw [hrotated]

/-- A line that fits in the current file. -/
theorem Kept.push (h : s.Kept cap keep before)
    (hroom : s.log.current.length + (line.length + 1) ≤ cap.toNat) :
    (s.push line (UInt64.ofNat line.length + 1)).Kept cap keep before ∧
      (s.push line (UInt64.ofNat line.length + 1)).log = s.log.append (line ++ [newline]) := by
  have hlog : (s.push line (UInt64.ofNat line.length + 1)).log =
      s.log.append (line ++ [newline]) := by
    rw [log, TraceSink.push, RollingLog.append]
    exact congrArg (RollingLog.mk _) (List.append_assoc _ _ _).symm
  have hentry : (line ++ [newline]).length = line.length + 1 := List.length_append
  refine ⟨⟨h.maxBytes, h.maxRotatedFiles, ?_, ?_, ?_⟩, hlog⟩
  · exact ⟨h.keeps.enabled, h.keeps.faults, h.keeps.files, h.keeps.sizes⟩
  · have hcap := cap.toNat_lt
    rw [hlog, RollingLog.append, List.length_append, hentry, TraceSink.push, UInt64.toNat_add,
      @toNat_size line cap (by omega), h.current]
    omega
  · rw [hlog]
    exact h.bounded.append (hentry.symm ▸ hroom)

/-- **A line is added to the log.** -/
theorem Kept.writeLineLocked (hcap : cap.toNat ≤ maxMaxBytes) (h : s.Kept cap keep before)
    (hfits : (s.rotateLine env).length + (line.length + 1) ≤ cap.toNat) :
    (s.writeLineLocked env line).Kept cap keep before ∧
      s.Takes (s.writeLineLocked env line) (some (line, env)) := by
  have hsize : (UInt64.ofNat line.length + 1).toNat = line.length + 1 :=
    @toNat_size line cap (by omega)
  have hentry : (line ++ [newline]).length = line.length + 1 := List.length_append
  have hlimit : maxMaxBytes = 1073741824 := rfl
  have hbound := h.bounded.current
  have hadd : (s.currentBytes + (UInt64.ofNat line.length + 1)).toNat =
      s.log.current.length + (line.length + 1) := by
    rw [UInt64.toNat_add, hsize, h.current]
    omega
  rw [TraceSink.writeLineLocked, writeLineWith, Takes]
  dsimp only
  rw [h.maxBytes, h.maxRotatedFiles, RollingLog.add, RollingLog.added, hentry,
    if_neg (by rw [UInt64.lt_iff_toNat_lt, hsize]; omega)]
  by_cases hover : cap < s.currentBytes + (UInt64.ofNat line.length + 1)
  · have hover' : ¬ s.log.current.length + (line.length + 1) ≤ cap.toNat := by
      rw [UInt64.lt_iff_toNat_lt, hadd] at hover
      omega
    have hsome : s.log.current ≠ [] := by
      intro hnil
      rw [hnil, List.length_nil] at hover'
      omega
    obtain ⟨hkept, hlog, hwritten⟩ := h.rotateLocked hsome ((Nat.le_add_right _ _).trans hfits)
    generalize TraceSink.rotateLocked env s = s₁ at hkept hlog hwritten ⊢
    have hroom : s₁.log.current.length + (line.length + 1) ≤ cap.toNat := by
      rw [hlog]
      exact hfits
    have hadd₁ : ¬ cap < s₁.currentBytes + (UInt64.ofNat line.length + 1) := by
      rw [UInt64.lt_iff_toNat_lt, UInt64.toNat_add, hsize, hkept.current]
      omega
    obtain ⟨hpushed, happended⟩ := hkept.push hroom
    rw [if_pos hover, if_neg (by rw [hkept.keeps.enabled]; exact Bool.false_ne_true),
      hkept.maxBytes,
      if_neg hadd₁, if_neg hover', if_neg hover']
    refine ⟨hpushed, happended.trans (by rw [hlog]), ?_⟩
    rw [TraceSink.push, hwritten, List.append_assoc]
  · have hroom : s.log.current.length + (line.length + 1) ≤ cap.toNat := by
      rw [UInt64.lt_iff_toNat_lt, hadd] at hover
      omega
    obtain ⟨hpushed, happended⟩ := h.push hroom
    rw [if_neg hover, if_pos hroom, if_pos hroom]
    exact ⟨hpushed, happended, rfl⟩

/-! ## A step -/

theorem Takes.of_same {s₁ s₂ : TraceSink} {taken : Option (Bytes × TraceEnvelope)}
    (h : s.Takes s₁ taken) (hlog : s₂.log = s₁.log) (hwritten : s₂.written = s₁.written) :
    s.Takes s₂ taken := by
  cases taken with
  | none => exact ⟨hlog.trans h.1, hwritten.trans h.2⟩
  | some => exact ⟨hlog.trans h.1, hwritten.trans h.2⟩

theorem Kept.write (hcap : cap.toNat ≤ maxMaxBytes) (h : s.Kept cap keep before)
    {recordLevel : TraceLevel} (hfits : s.Fits (.write recordLevel line env)) :
    (s.write recordLevel line env).Kept cap keep before ∧
      s.Takes (s.write recordLevel line env) (s.accepts (.write recordLevel line env)) := by
  rw [Fits, h.maxBytes, accepts] at hfits
  rw [accepts, TraceSink.write]
  by_cases hout : (!s.active || s.disabled || s.closed) = true
  · rw [if_pos hout, if_pos (by simp [hout])]
    exact ⟨h, rfl, rfl⟩
  by_cases hlevel : s.level.rank < recordLevel.rank
  · rw [if_neg hout, if_pos hlevel, if_pos (by simp [hlevel])]
    exact ⟨h, rfl, rfl⟩
  by_cases hempty : line.isEmpty = true
  · rw [if_neg hout, if_neg hlevel, if_pos hempty, if_pos (by simp [hempty])]
    exact ⟨h, rfl, rfl⟩
  have hnone : ¬ (!s.active || s.disabled || s.closed || s.level.rank < recordLevel.rank ||
      line.isEmpty) = true := by
    simp only [Bool.or_eq_true, decide_eq_true_eq] at hout ⊢
    tauto
  rw [if_neg hnone] at hfits ⊢
  rw [if_neg hout, if_neg hlevel, if_neg hempty]
  obtain ⟨hkept, htakes⟩ := h.writeLineLocked hcap (hfits _ rfl)
  dsimp only
  split
  · obtain ⟨hflushed, hlog, hwritten⟩ := hkept.flushLocked
    obtain ⟨hdelivered, hlog', hwritten'⟩ := hflushed.deliverPending
    exact ⟨hdelivered, htakes.of_same (hlog'.trans hlog) (hwritten'.trans hwritten)⟩
  · obtain ⟨hdelivered, hlog', hwritten'⟩ := hkept.deliverPending
    exact ⟨hdelivered, htakes.of_same hlog' hwritten'⟩

theorem Kept.flush (h : s.Kept cap keep before) :
    s.flush.Kept cap keep before ∧ s.Takes s.flush none := by
  rw [TraceSink.flush]
  split
  · exact ⟨h, rfl, rfl⟩
  · obtain ⟨hflushed, hlog, hwritten⟩ := h.flushLocked
    obtain ⟨hdelivered, hlog', hwritten'⟩ := hflushed.deliverPending
    exact ⟨hdelivered, hlog'.trans hlog, hwritten'.trans hwritten⟩

/-- The last record, if it could be serialized. -/
theorem Kept.emitLast (hcap : cap.toNat ≤ maxMaxBytes) (h : s.Kept cap keep before)
    {rotateEnv : TraceEnvelope} (hfits : s.Fits (.close env rotateEnv))
    (hopen : ¬ (s.closed || !s.active) = true) :
    (s.emitMetaWith (TraceSink.rotateLocked rotateEnv) env (ascii "shutdown") []).Kept cap keep
        before ∧
      s.Takes (s.emitMetaWith (TraceSink.rotateLocked rotateEnv) env (ascii "shutdown") [])
        (s.accepts (.close env rotateEnv)) := by
  rw [Fits, h.maxBytes, accepts] at hfits
  rw [accepts, emitMetaWith]
  generalize serializeMeta env (ascii "shutdown") [] = record at hfits ⊢
  by_cases hempty : record.isEmpty = true
  · rw [if_pos hempty, if_pos (by simp [hempty])]
    exact ⟨h, rfl, rfl⟩
  · have hnone : ¬ (s.closed || !s.active || s.disabled || record.isEmpty) = true := by
      simp only [Bool.or_eq_true] at hopen ⊢
      simp only [h.keeps.enabled, hempty, Bool.false_eq_true, or_false]
      exact hopen
    rw [if_neg hnone] at hfits ⊢
    rw [if_neg hempty]
    exact h.writeLineLocked hcap (hfits (record, rotateEnv) rfl)

theorem Kept.close (hcap : cap.toNat ≤ maxMaxBytes) (h : s.Kept cap keep before)
    {rotateEnv : TraceEnvelope} (hfits : s.Fits (.close env rotateEnv)) :
    (s.close env rotateEnv).Kept cap keep before ∧
      s.Takes (s.close env rotateEnv) (s.accepts (.close env rotateEnv)) := by
  rw [TraceSink.close]
  by_cases hdone : (s.closed || !s.active) = true
  · rw [if_pos hdone, accepts, if_pos (by simp [hdone])]
    exact ⟨h.with _ _ _ true, rfl, rfl⟩
  rw [if_neg hdone, if_neg (by rw [h.keeps.enabled]; exact Bool.false_ne_true)]
  obtain ⟨hkept, htakes⟩ := h.emitLast hcap hfits hdone
  obtain ⟨hflushed, hlog, hwritten⟩ := hkept.flushLocked
  generalize (s.emitMetaWith (TraceSink.rotateLocked rotateEnv) env
    (ascii "shutdown") []) = s₁ at hkept htakes hflushed hlog hwritten ⊢
  generalize s₁.flushLocked = s₂ at hflushed hlog hwritten ⊢
  obtain ⟨hdelivered, hlog', hwritten'⟩ :=
    (hflushed.with s₂.pendingDiagnostic s₂.logged false true).deliverPending
  exact ⟨hdelivered, htakes.of_same (hlog'.trans hlog) (hwritten'.trans hwritten)⟩

/-- What a step keeps, and what it does. -/
theorem Kept.step (hcap : cap.toNat ≤ maxMaxBytes) (h : s.Kept cap keep before) {i : Input}
    (hfits : s.Fits i) (hstep : step s i = some s') :
    s'.Kept cap keep before ∧ s.Takes s' (s.accepts i) := by
  cases i with
  | write recordLevel line env =>
    cases hstep
    exact h.write hcap hfits
  | flush =>
    cases hstep
    exact h.flush
  | close env rotateEnv =>
    cases hstep
    exact h.close hcap hfits

theorem Takes.suffix {taken : Option (Bytes × TraceEnvelope)} (h : s.Takes s' taken)
    (hsuffix : s.log.contents <:+ s.written) : s'.log.contents <:+ s'.written := by
  cases taken with
  | none =>
    rw [h.1, h.2]
    exact hsuffix
  | some taken =>
    rw [h.1, h.2]
    exact RollingLog.contents_add hsuffix

theorem openLocked_eq {directory : NumberedFiles UInt8} {level : TraceLevel} {mode : DirMode}
    {there : Bool} {env : Option TraceEnvelope}
    (hopen : (openLocked directory level cap keep env mode there).active = true) :
    ∃ first d, env = some first ∧ directory.create 0 = (true, d) ∧
      openLocked directory level cap keep env mode there =
        { level, maxBytes := cap, maxRotatedFiles := keep, directory := d, active := true :
          TraceSink }.emitMetaWith (fun s ↦ s) first (ascii "run_start") [] := by
  by_cases hlevel : level = .off
  · simp [openLocked, hlevel] at hopen
  cases env with
  | none => simp [openLocked, hlevel, refuse] at hopen
  | some first =>
    cases there with
    | false => simp [openLocked, hlevel, refuse] at hopen
    | true =>
      cases hcreate : directory.create 0 with
      | mk created d =>
        cases created with
        | false => simp [openLocked, hlevel, refuse, hcreate] at hopen
        | true => exact ⟨first, d, rfl, rfl, by simp [openLocked, hlevel, hcreate]⟩

/-- A sink that has just been opened. -/
theorem kept_openLocked {directory : NumberedFiles UInt8} {level : TraceLevel} {mode : DirMode}
    {there : Bool} {env : Option TraceEnvelope} (hfaults : directory.faults = [])
    (hfits : ∀ first ∈ env,
      (recordLine (serializeMeta first (ascii "run_start") [])).length ≤ cap.toNat)
    (hopen : (openLocked directory level cap keep env mode there).active = true) :
    (openLocked directory level cap keep env mode there).Kept cap keep directory.file ∧
      (openLocked directory level cap keep env mode there).log.contents <:+
        (openLocked directory level cap keep env mode there).written := by
  obtain ⟨first, d, rfl, hcreate, heq⟩ := openLocked_eq hopen
  obtain ⟨hnofault, hempty, hsame⟩ := NumberedFiles.of_create hfaults hcreate
  rw [emitMetaWith_fresh _ rfl (hfits first rfl)] at heq
  specialize hfits first rfl
  generalize recordLine (serializeMeta first (ascii "run_start") []) = record at hfits heq
  have hlog : (openLocked directory level cap keep (some first) mode there).log =
      { closed := [], current := record } := by
    rw [heq, log, live]
    dsimp only
    rw [hempty]
    rfl
  have hlength : record.length < 2 ^ 64 := hfits.trans_lt cap.toNat_lt
  refine ⟨⟨by rw [heq], by rw [heq], ?_, ?_, ?_⟩, ?_⟩
  · rw [hlog, heq]
    exact ⟨rfl, hnofault, fun k ↦ hsame (k + 1) (by omega), rfl⟩
  · rw [hlog, heq]
    exact UInt64.toNat_ofNat_of_lt' hlength
  · rw [hlog]
    exact ⟨fun _ hin ↦ absurd hin List.not_mem_nil, hfits, Nat.zero_le _⟩
  · rw [hlog, heq]
    exact List.suffix_refl _

end TraceSink

/-- **Rotation keeps the newest part of a run**, in files of bounded size.  Along every run of an
opened sink in which each line fits beside a rotate record and no file operation fails, neither the
current file with the buffer nor an older one exceeds the cap, and of the older ones there are at
most as many as configured; beyond these the run directory is as it was.  Put together they are a
suffix of all that was written.  A line that comes is added to this log: to the current file, or
else to the next, after a record that counts the files and bytes which are dropped with that; the
count is exact. -/
theorem rotation_bounded {directory : NumberedFiles UInt8} {level : TraceLevel} {maxBytes : UInt64}
    {maxRotatedFiles : UInt32} {env : Option TraceEnvelope} {mode : DirMode} {there : Bool}
    {s : TraceSink} (hmax : maxBytes.toNat ≤ maxMaxBytes) (hfaults : directory.faults = [])
    (hfits : ∀ first ∈ env,
      (TraceSink.recordLine (serializeMeta first (ascii "run_start") [])).length ≤ maxBytes.toNat)
    (hopen : (TraceSink.openLocked directory level maxBytes maxRotatedFiles env mode
      there).active = true)
    (h : Reaches TraceSink.step TraceSink.Fits
      (TraceSink.openLocked directory level maxBytes maxRotatedFiles env mode there) s) :
    s.log.Bounded maxBytes.toNat maxRotatedFiles.toNat ∧
      (∀ k, s.directory.file (k + 1) = s.log.closed[k]?.or (directory.file (k + 1))) ∧
      s.log.contents <:+ s.written ∧
      (∀ i s', s.Fits i → TraceSink.step s i = some s' → s.Takes s' (s.accepts i)) ∧
      (UInt64.ofNat (s.log.dropped maxRotatedFiles.toNat).flatten.length).toNat =
        (s.log.dropped maxRotatedFiles.toNat).flatten.length := by
  obtain ⟨hkept, hsuffix⟩ : s.Kept maxBytes maxRotatedFiles directory.file ∧
      s.log.contents <:+ s.written := by
    refine Reaches.invariant (I := fun s ↦ s.Kept maxBytes maxRotatedFiles directory.file ∧
      s.log.contents <:+ s.written) h (TraceSink.kept_openLocked hfaults hfits hopen) ?_
    rintro s₁ i s₂ ⟨hkept, hsuffix⟩ hfits hstep
    obtain ⟨hkept', htakes⟩ := hkept.step hmax hfits hstep
    exact ⟨hkept', htakes.suffix hsuffix⟩
  refine ⟨hkept.bounded, hkept.keeps.files, hsuffix,
    fun i s' hfits hstep ↦ (hkept.step hmax hfits hstep).2, ?_⟩
  exact UInt64.toNat_ofNat_of_lt' (hkept.bounded.dropped_le.trans_lt maxBytes.toNat_lt)

/-- Files of two hundred bytes, and one of them besides the current one. -/
def smallSink : TraceSink :=
  TraceSink.openLocked {} .full 200 1 (some {}) .create true

/-- The third line is the second that does not fit, and the first file goes. -/
theorem rotation_bounded_third : ∃ s, Reaches TraceSink.step TraceSink.Fits smallSink s ∧
    s.log.closed.length = 1 ∧ s.log.current.length = 191 ∧ s.written.length = 536 ∧
    s.log.Bounded 200 1 := by
  obtain ⟨s, h, hsizes⟩ := exists_reaches TraceSink.step TraceSink.Fits smallSink
    (fun s ↦ s.log.closed.length = 1 ∧ s.log.current.length = 191 ∧ s.written.length = 536)
    (List.replicate 3 (.write .full (List.replicate 70 120) {})) (by decide +kernel)
    (by decide +kernel)
  refine ⟨s, h, hsizes.1, hsizes.2.1, hsizes.2.2, ?_⟩
  exact (rotation_bounded (by decide) rfl (fun first hfirst ↦ by cases hfirst; decide +kernel)
    (by decide +kernel) h).1

end EosMesh
