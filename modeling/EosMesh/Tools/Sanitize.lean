import EosMesh.Lib.Redact
import EosMesh.Lib.Split

/-!
# The bundle that is shared

`tools/alpha_runner.py`: what a run's owned files hold goes into the bundle without the members that
may name a person, and with the base name in place of each absolute path.

* `Scalar` and `Lib.Redact` are the values: a document is an object, an array, or a leaf, and the
  members that are left out are told by their key.
* `Host` is the system that the tool runs on, which decides what `Path` is.  A POSIX path has one
  separator, and a Windows path has two, and a drive or a share in front.
* `Sanitised` is what all this is for: no member that may name a person, no key and no string that
  is an absolute path of either system, at any depth, and nothing left to do.
* `windowsName_relative`: no base name of Windows is an absolute path, since it has no separator.  A
  base name of POSIX may be one, for it may hold backslashes, and `mixed_iff` says of which paths it
  is.
* `sanitised_iff` says of which values the result is sanitised: the keys stay as they are, and a
  POSIX path may end in a name that Windows takes for an absolute path.
* `sanitize_leaves_paths`: one value of each kind of which it is not.
-/

set_option autoImplicit false

namespace EosMesh
namespace Bundle

open Lib Lib.Nested

/-! ## Strings -/

/-- A code point of a Python string; surrogates are among them. -/
abbrev CodePoint := Fin 0x110000

/-- A Python string, which may hold lone surrogates. -/
abbrev PyStr := List CodePoint

/-- A character of Lean, as Python counts it. -/
def codePoint (c : Char) : CodePoint := Fin.ofNat 0x110000 c.toNat

/-- A text of Lean as a Python string. -/
def py (s : String) : PyStr := s.toList.map codePoint

/-- The characters a path is taken apart at. -/
def slash : CodePoint := codePoint '/'
def backslash : CodePoint := codePoint '\\'
def colon : CodePoint := codePoint ':'
def dot : CodePoint := codePoint '.'

/-- The lower case of one code point, as far as it decides whether a key is dropped: other letters
than these have a lower case that no dropped key holds. -/
def lowerPoint (c : CodePoint) : PyStr :=
  if 65 ≤ c.val ∧ c.val ≤ 90 then [c + 32]
  else if c = 0x130 then [codePoint 'i', 0x307]
  else if c = 0x212A then [codePoint 'k']
  else [c]

/-- `str.lower`, as far as it matters beside ASCII: two letters beyond it have an ASCII letter in
their lower case, and the others, which have none, are left as they are. -/
def lower (s : PyStr) : PyStr := s.flatMap lowerPoint

/-! ## Paths -/

/-- A drive is named by one of these. -/
def isAsciiLetter (c : CodePoint) : Bool :=
  (65 ≤ c.val && c.val ≤ 90) || (97 ≤ c.val && c.val ≤ 122)

/-- `^[A-Za-z]:[\\/]`. -/
def drivePath : PyStr → Bool
  | letter :: mark :: sep :: _ =>
    isAsciiLetter letter && mark == colon && (sep == backslash || sep == slash)
  | _ => false

/-- A path of a Windows share, by its two first characters. -/
def uncPath (value : PyStr) : Bool := [backslash, backslash].isPrefixOf value

/-- What the tool takes for an absolute path, on whichever host it runs. -/
def absolutePath (value : PyStr) : Bool :=
  if value = [] then false
  else [slash].isPrefixOf value || uncPath value || drivePath value

/-- The part of a path that `pathlib` takes no notice of. -/
def blankPart (part : PyStr) : Bool := part == [] || part == [dot]

/-- `PurePosixPath(path).name`; the slashes of the root make parts that are empty. -/
def posixName (path : PyStr) : PyStr := (lastPart slash blankPart path).getD []

/-- Where the next backslash is, from an index on. -/
def findSep (path : PyStr) (start : Nat) : Option Nat :=
  ((path.drop start).idxOf? backslash).map (start + ·)

/-- The prefix of a share in its long form. -/
def uncPrefix : PyStr := py "\\\\?\\unc\\"

/-- What `ntpath.splitroot` leaves after the drive and the root of a path without slashes.  This is
the function of Python 3.12 and later: before, a host without a share behind it was no drive. -/
def ntRest (path : PyStr) : PyStr :=
  if path[0]? = some backslash then
    if path[1]? = some backslash then
      match findSep path (if lower (path.take 8) = uncPrefix then 8 else 2) with
      | none => []
      | some index =>
        match findSep path (index + 1) with
        | none => []
        | some index2 => path.drop (index2 + 1)
    else path.drop 1
  else if path[1]? = some colon then
    if path[2]? = some backslash then path.drop 3 else path.drop 2
  else path

/-- `PureWindowsPath(path).name`, as Python 3.12 and later have it, by `splitroot`. -/
def windowsName (path : PyStr) : PyStr :=
  (lastPart backslash blankPart
    (ntRest (path.map fun c ↦ if c = slash then backslash else c))).getD []

/-- The system that the tool runs on, which decides what `Path` is. -/
inductive Host
  | posix | windows
  deriving DecidableEq, Repr

/-- The last name in a path, read the way its look says, or else the way of the host. -/
def basename (host : Host) (value : PyStr) : PyStr :=
  if drivePath value || uncPath value then windowsName value
  else
    match host with
    | .posix => posixName value
    | .windows => windowsName value

/-! ## Sanitising -/

/-- A string, or one of the other values without members: a number, a boolean or `None`. -/
inductive Scalar (ν : Type)
  | string (s : PyStr)
  | other (value : ν)

/-- A JSON value as an owned file holds it. -/
abbrev Owned (ν : Type) := Nested PyStr (Scalar ν)

variable {ν : Type}

/-- The keys whose values may name a person. -/
def droppedKeys : List PyStr := [py "display_name", py "username", py "message", py "error"]

/-- A key is dropped in any case of its letters. -/
def dropped (key : PyStr) : Bool := droppedKeys.contains (lower key)

/-- A text is kept as it is unless it is an absolute path. -/
def sanitizeString (host : Host) (s : PyStr) : PyStr :=
  if absolutePath s then basename host s else s

/-- Numbers, flags and null stay. -/
def sanitizeScalar (host : Host) : Scalar ν → Scalar ν
  | .string s => .string (sanitizeString host s)
  | .other value => .other value

/-- A whole value: members are dropped, and the texts of what is left are seen to. -/
def sanitizeOwned (host : Host) : Owned ν → Owned ν := redact dropped (sanitizeScalar host)

/-! ### What it is for -/

/-- The text of a scalar that is one. -/
def Scalar.string? : Scalar ν → Option PyStr
  | .string s => some s
  | .other _ => none

/-- The strings at any depth, those under a key that is dropped left out. -/
def strings (drop : PyStr → Bool) (value : Owned ν) : List PyStr :=
  (value.leaves drop).filterMap Scalar.string?

/-- A value that may be shared: no key that is to be dropped and no absolute path at any depth, and
nothing left to do. -/
structure Sanitised (host : Host) (value : Owned ν) : Prop where
  named : ∀ key ∈ value.keys keepAll, dropped key = false
  keys : ∀ key ∈ value.keys keepAll, absolutePath key = false
  strings : ∀ s ∈ strings keepAll value, absolutePath s = false
  again : sanitizeOwned host value = value

/-- What may follow the last part of a POSIX path: slashes, and parts that are one dot. -/
inductive Trailing : PyStr → Prop
  | nil : Trailing []
  | slash {rest : PyStr} (h : Trailing rest) : Trailing (slash :: rest)
  | dot {rest : PyStr} (h : Trailing rest) : Trailing (slash :: dot :: rest)

/-- A POSIX path whose last part is a drive-letter or a UNC path. -/
def Mixed (path : PyStr) : Prop :=
  path.head? = some slash ∧ ∃ above name tail, path = above ++ slash :: (name ++ tail) ∧
    slash ∉ name ∧ (drivePath name || uncPath name) = true ∧ Trailing tail

/-- No key that is kept is an absolute path, and on a POSIX system no string that is kept is a mixed
one. -/
structure Shareable (host : Host) (value : Owned ν) : Prop where
  keys : ∀ key ∈ value.keys dropped, absolutePath key = false
  strings : host = .posix → ∀ s ∈ Bundle.strings dropped value, ¬ Mixed s

/-! ## Base names -/

theorem absolutePath_eq_true_iff {value : PyStr} :
    absolutePath value = true ↔
      value.head? = some slash ∨ (drivePath value || uncPath value) = true := by
  rw [absolutePath]
  cases value with
  | nil => exact iff_of_false Bool.false_ne_true (by rintro (h | h) <;> cases h)
  | cons c value =>
    rw [if_neg (List.cons_ne_nil c value), Bool.or_assoc, Bool.or_comm (uncPath _), Bool.or_eq_true,
      List.isPrefixOf_iff_prefix, List.cons_prefix_cons, List.head?_cons, Option.some.injEq]
    refine or_congr_left ⟨fun h ↦ h.1.symm, fun h ↦ ⟨h.symm, List.nil_prefix⟩⟩

/-- A path that is not absolute for its slash is so for a backslash, or for another slash. -/
theorem windowsAbsolute_cases {value : PyStr} (h : (drivePath value || uncPath value) = true) :
    value.head? ≠ some slash ∧ value ≠ [dot] ∧ (backslash ∈ value ∨ slash ∈ value) := by
  rw [Bool.or_eq_true] at h
  rcases h with h | h
  · rw [drivePath.eq_def] at h
    split at h
    · rename_i letter mark sep rest
      simp only [Bool.and_eq_true, Bool.or_eq_true, beq_iff_eq] at h
      obtain ⟨⟨hletter, -⟩, hsep⟩ := h
      refine ⟨fun hhead ↦ ?_, fun heq ↦ ?_, ?_⟩
      · rw [List.head?_cons, Option.some.injEq] at hhead
        subst hhead
        exact absurd hletter (by decide)
      · cases heq
      · rcases hsep with rfl | rfl <;> simp
    · cases h
  · rw [uncPath, List.isPrefixOf_iff_prefix] at h
    obtain ⟨rest, rfl⟩ := h
    refine ⟨fun hhead ↦ ?_, fun heq ↦ ?_, .inl List.mem_cons_self⟩
    · exact absurd (Option.some.inj hhead) (by decide)
    · exact absurd (congrArg List.length heq) (by simp)

theorem ntRest_subset (path : PyStr) : ntRest path ⊆ path := by
  rw [ntRest]
  split
  · split
    · split
      · exact List.nil_subset _
      · split
        · exact List.nil_subset _
        · exact List.drop_subset _ _
    · exact List.drop_subset _ _
  · split
    · split <;> exact List.drop_subset _ _
    · exact List.Subset.refl _

/-- **No base name of Windows is an absolute path**: it has no separator. -/
theorem windowsName_relative (path : PyStr) : absolutePath (windowsName path) = false := by
  rw [windowsName]
  cases hlast : lastPart backslash blankPart
      (ntRest (path.map fun c ↦ if c = slash then backslash else c)) with
  | none => rfl
  | some name =>
    have hpart := mem_splitOn_of_lastPart hlast
    have hback : backslash ∉ name := not_mem_of_mem_splitOn hpart
    have hslash : slash ∉ name := fun hin ↦ by
      obtain ⟨c, -, hc⟩ := List.mem_map.1 (ntRest_subset _ (subset_of_mem_splitOn hpart hin))
      split at hc
      · exact absurd hc (by decide)
      · rename_i hne
        exact hne hc
    refine Bool.eq_false_of_not_eq_true fun habs ↦ ?_
    rw [Option.getD_some, absolutePath_eq_true_iff] at habs
    rcases habs with hhead | habs
    · exact hslash (List.mem_of_head? hhead)
    · exact (windowsAbsolute_cases habs).2.2.elim hback hslash

/-- The parts of what may follow a name. -/
theorem splitOn_trailing {tail : PyStr} (h : Trailing tail) {name : PyStr} (hname : slash ∉ name) :
    ∃ blanks, (name ++ tail).splitOn slash = name :: blanks ∧
      ∀ part ∈ blanks, blankPart part = true := by
  induction h generalizing name with
  | nil =>
    rw [List.append_nil, List.splitOn_eq_singleton hname]
    exact ⟨[], rfl, nofun⟩
  | slash _ ih =>
    obtain ⟨blanks, hsplit, hblanks⟩ := @ih [] List.not_mem_nil
    refine ⟨[] :: blanks, ?_, List.forall_mem_cons.2 ⟨rfl, hblanks⟩⟩
    rw [List.splitOn_append_cons_self_of_not_mem hname, ← hsplit, List.nil_append]
  | dot _ ih =>
    obtain ⟨blanks, hsplit, hblanks⟩ := @ih [Bundle.dot] (by decide)
    refine ⟨[Bundle.dot] :: blanks, ?_, List.forall_mem_cons.2 ⟨rfl, hblanks⟩⟩
    rw [List.splitOn_append_cons_self_of_not_mem hname, ← hsplit, List.singleton_append]

/-- The same, read the other way. -/
theorem trailing_of_blanks {blanks : List PyStr}
    (h : ∀ part ∈ blanks, blankPart part = true) : Trailing (blanks.flatMap (slash :: ·)) := by
  induction blanks with
  | nil => exact .nil
  | cons part blanks ih =>
    obtain ⟨hpart, hblanks⟩ := List.forall_mem_cons.1 h
    rw [blankPart, Bool.or_eq_true, beq_iff_eq, beq_iff_eq] at hpart
    rw [List.flatMap_cons]
    rcases hpart with rfl | rfl
    · exact .slash (ih hblanks)
    · exact .dot (ih hblanks)

/-- **A POSIX base name is an absolute path exactly when the path is a mixed one.** -/
theorem mixed_iff {path : PyStr} (hhead : path.head? = some slash) :
    Mixed path ↔ absolutePath (posixName path) = true := by
  constructor
  · rintro ⟨-, above, name, tail, rfl, hname, habs, htail⟩
    obtain ⟨blanks, hsplit, hblanks⟩ := splitOn_trailing htail hname
    have hlast : lastPart slash blankPart (above ++ slash :: (name ++ tail)) = some name := by
      refine lastPart_eq_some_iff.2 ⟨?_, above.splitOn slash, blanks, ?_, hblanks⟩
      · have hne : name ≠ [] := fun heq ↦ by
          subst heq
          cases habs
        have hdot := (windowsAbsolute_cases habs).2.1
        rw [blankPart, Bool.or_eq_false_iff, beq_eq_false_iff_ne, beq_eq_false_iff_ne]
        exact ⟨hne, hdot⟩
      · rw [List.splitOn_append_cons_self, hsplit]
    rw [posixName, hlast, Option.getD_some, absolutePath_eq_true_iff]
    exact .inr habs
  · intro habs
    rw [posixName] at habs
    cases hlast : lastPart slash blankPart path with
    | none =>
      rw [hlast] at habs
      cases habs
    | some name =>
      rw [hlast, Option.getD_some, absolutePath_eq_true_iff] at habs
      have hname : slash ∉ name := not_mem_of_mem_splitOn (mem_splitOn_of_lastPart hlast)
      have habs := habs.resolve_left fun h ↦ hname (List.mem_of_head? h)
      obtain ⟨-, before, after, hsplit, hafter⟩ := lastPart_eq_some_iff.1 hlast
      have hpath : path = before.flatMap (· ++ [slash]) ++
        (name ++ after.flatMap (slash :: ·)) := by
        rw [← intercalate_around, ← hsplit, List.intercalate_splitOn]
      refine ⟨hhead, ?_⟩
      -- The path begins with a slash, so that a part comes before the name.
      rcases List.eq_nil_or_concat before with rfl | ⟨before, last, rfl⟩
      · rw [List.flatMap_nil, List.nil_append] at hpath
        have hne : name ≠ [] := fun heq ↦ by
          subst heq
          cases habs
        rw [hpath, List.head?_append_of_ne_nil _ hne] at hhead
        exact absurd (List.mem_of_head? hhead) hname
      · refine ⟨before.flatMap (· ++ [slash]) ++ last, name, after.flatMap (slash :: ·), ?_, hname,
          habs, trailing_of_blanks hafter⟩
        rw [hpath, List.concat_eq_append, List.flatMap_append]
        simp

/-! ## Sanitised values -/

/-- **What is left of a string** is an absolute path exactly when it was a mixed one, on POSIX. -/
theorem absolutePath_sanitizeString (host : Host) (s : PyStr) :
    absolutePath (sanitizeString host s) = true ↔ host = .posix ∧ Mixed s := by
  rw [sanitizeString]
  by_cases habs : absolutePath s = true
  · rw [if_pos habs, basename.eq_def]
    split
    · rename_i hwindows
      refine iff_of_false ?_ fun h ↦ (windowsAbsolute_cases hwindows).1 h.2.1
      rw [windowsName_relative]
      exact Bool.false_ne_true
    · rename_i hposix
      have hhead := (absolutePath_eq_true_iff.1 habs).resolve_right hposix
      cases host with
      | posix => exact (mixed_iff hhead).symm.trans (and_iff_right rfl).symm
      | windows =>
        refine iff_of_false ?_ fun h ↦ nomatch h.1
        rw [windowsName_relative]
        exact Bool.false_ne_true
  · rw [if_neg habs]
    exact iff_of_false habs fun h ↦ habs (absolutePath_eq_true_iff.2 (.inl h.2.1))

theorem strings_sanitizeOwned (host : Host) (value : Owned ν) :
    strings keepAll (sanitizeOwned host value) =
      (strings dropped value).map (sanitizeString host) := by
  have hstring : Scalar.string? ∘ sanitizeScalar host =
      fun scalar : Scalar ν ↦ scalar.string?.map (sanitizeString host) := by
    funext scalar
    cases scalar <;> rfl
  rw [strings, strings, sanitizeOwned, leaves_redact, List.filterMap_map, hstring,
    List.map_filterMap]

theorem again_of_strings {host : Host} {value : Owned ν}
    (hnamed : ∀ key ∈ value.keys keepAll, dropped key = false)
    (hstrings : ∀ s ∈ strings keepAll value, absolutePath s = false) :
    sanitizeOwned host value = value := by
  refine redact_eq_self value hnamed fun scalar hscalar ↦ ?_
  cases scalar with
  | other v => rfl
  | string s =>
    have hs := hstrings s (List.mem_filterMap.2 ⟨_, hscalar, rfl⟩)
    rw [sanitizeScalar, sanitizeString, hs, if_neg Bool.false_ne_true]

/-- **Which values are sanitised**: those without an absolute path for a key that is kept and, on a
POSIX system, without a mixed path for a string that is kept. -/
theorem sanitised_iff (host : Host) (value : Owned ν) :
    Sanitised host (sanitizeOwned host value) ↔ Shareable host value := by
  have hkeys : (sanitizeOwned host value).keys keepAll = value.keys dropped := keys_redact _ _ value
  constructor
  · intro h
    refine ⟨hkeys ▸ h.keys, fun hposix s hs hmixed ↦ ?_⟩
    have hclean : absolutePath (sanitizeString host s) = false := by
      refine h.strings _ ?_
      rw [strings_sanitizeOwned]
      exact List.mem_map_of_mem hs
    exact absurd ((absolutePath_sanitizeString host s).2 ⟨hposix, hmixed⟩) (by simp [hclean])
  · intro h
    have hnamed : ∀ key ∈ (sanitizeOwned host value).keys keepAll, dropped key = false := by
      rw [hkeys]
      exact fun key ↦ drop_of_mem_keys value
    have hstrings : ∀ s ∈ strings keepAll (sanitizeOwned host value), absolutePath s = false := by
      rw [strings_sanitizeOwned]
      intro clean hclean
      obtain ⟨s, hs, rfl⟩ := List.mem_map.1 hclean
      refine Bool.eq_false_of_not_eq_true fun habs ↦ ?_
      obtain ⟨hposix, hmixed⟩ := (absolutePath_sanitizeString host s).1 habs
      exact h.strings hposix s hs hmixed
    exact ⟨hnamed, hkeys ▸ h.keys, hstrings, again_of_strings hnamed hstrings⟩

/-- A path for a key is kept, and a path of Windows at the end of a POSIX one is what is left of
it. -/
theorem sanitize_leaves_paths :
    (¬ Sanitised .posix (sanitizeOwned .posix
      (.object [(py "/home/player/saves", .leaf (.other 1))] : Owned ℕ))) ∧
    ¬ Sanitised .posix (sanitizeOwned .posix
      (.object [(py "cwd", .leaf (.string (py "/mnt/C:\\Users\\player")))] : Owned ℕ)) := by
  constructor
  · intro h
    have hkey := h.keys (py "/home/player/saves") (by decide +kernel)
    exact absurd hkey (by decide +kernel)
  · intro h
    have hstring := h.strings (py "C:\\Users\\player") (by decide +kernel)
    exact absurd hstring (by decide +kernel)

end Bundle
end EosMesh
