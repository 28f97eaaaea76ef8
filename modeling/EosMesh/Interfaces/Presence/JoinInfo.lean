import EosMesh.Interfaces.Presence.Limits
import EosMesh.Lib.TextOut

/-!
# Reading a peer's join info

`GetJoinInfo` hands out the join info of any account that a presence is known for, our own or one
that a peer announced.

* `Joinable` is the invariant: whoever it is of, a join info that is held is within the limit.
* `join_info_answers` is what the call comes to in every state an instance can be in.
-/

set_option autoImplicit false

namespace EosMesh

open Lib

/-- The options to copy a join info with. -/
structure GetJoinInfoOptions where
  apiVersion : Int32
  localUserId : Option Bytes
  targetUserId : Option Bytes
  deriving DecidableEq, Repr

namespace Presence

variable {s : Presence} {info : PresenceInfo}

/-- `get_join_info`, into a buffer and a length that are there. -/
def getJoinInfo (s : Presence) (o : GetJoinInfoOptions) (buffer : Bytes) (length : Int32) :
    Option (TextOut ResultCode) :=
  if ¬ versionOk o.apiVersion presenceApiLatest ∨ o.localUserId = none then
    some ⟨.invalidParameters, length, buffer⟩
  else
    match o.targetUserId with
    | none => some ⟨.invalidParameters, length, buffer⟩
    | some target =>
      match s.findPresence target with
      | none => some ⟨.notFound, length, buffer⟩
      | some found =>
        if found.joinInfo = [] then some ⟨.notFound, length, buffer⟩
        else
          textOut .success .limitExceeded (fun _ ↦ some (found.joinInfo ++ [0])) found.joinInfo
            buffer length

/-- What the link of a peer has last was within the limits when it came. -/
theorem follow_within {own product peer : Bytes} {message : NetEnvelope} {link : Option Link}
    (h : ∀ l ∈ link, ∀ info ∈ l.last, presenceWithinCaps info = true) :
    ∀ l ∈ follow own product peer link message, ∀ info ∈ l.last,
    presenceWithinCaps info = true := by
  intro l hl info hinfo
  rw [follow] at hl
  split at hl
  · exact h l hl info hinfo
  split at hl
  · cases hl
    cases hinfo
  split at hl
  · cases hl
  · obtain ⟨before, hbefore, rfl⟩ := Option.map_eq_some_iff.1 hl
    split at hinfo
    · exact h before hbefore info hinfo
    · rename_i announcement hannounced
      cases hinfo
      rw [announced] at hannounced
      split at hannounced
      · exact (of_decide_eq_true (Option.filter_eq_some_iff.1 hannounced).2).1
      · cases hannounced

theorem link_within (s : Presence) {peer : Bytes} {l : Link} (hl : s.link peer = some l)
    (hinfo : l.last = some info) : presenceWithinCaps info = true := by
  have hall : ∀ (told : List NetEnvelope) (link : Option Link),
      (∀ l ∈ link, ∀ info ∈ l.last, presenceWithinCaps info = true) →
        ∀ l ∈ told.foldl (follow s.epicAccountId s.productId peer) link, ∀ info ∈ l.last,
          presenceWithinCaps info = true := by
    intro told
    induction told with
    | nil => exact fun link h ↦ h
    | cons message told ih => exact fun link h ↦ ih _ (follow_within h)
  exact hall s.told none (fun l hl ↦ by cases hl) l hl info hinfo

/-- Whoever a presence is of, its join info is within the limit. -/
theorem Fitting.joinInfo (h : s.Fitting) {epic : Bytes} (hfound : s.findPresence epic = some info) :
    info.joinInfo.length ≤ maxJoinInfoLength := by
  by_cases hown : epic = s.epicAccountId
  · subst hown
    exact (h.storable info hfound).joinInfo
  · obtain ⟨peer, l, hl, hlast, -⟩ := (h.linked.held epic info hown).1 hfound
    exact (presenceWithinCaps_iff.1 (s.link_within hl hlast)).2.2.1

/-- **Every join info an instance holds can be read**, in every state it can be in: in two calls, or
in one that brings a buffer long enough, and no call writes past the buffer it is given. -/
theorem join_info_answers {epic user product : Bytes} {losses : List (List Bytes)}
    (hepic : Short epic) (hproduct : Short product)
    (h : Reaches step always (start epic user product losses) s) {o : GetJoinInfoOptions}
    {target : Bytes} (hversion : versionOk o.apiVersion presenceApiLatest = true)
    (huser : o.localUserId ≠ none) (htarget : o.targetUserId = some target)
    (hfound : s.findPresence target = some info) (hsome : info.joinInfo ≠ []) :
    Answers .success .limitExceeded info.joinInfo (s.getJoinInfo o) ∧
      ∀ buffer, ∃ needed, s.getJoinInfo o buffer 0 = some ⟨.limitExceeded, needed, buffer⟩ ∧
        ∀ buffer' : Bytes, buffer'.length = needed.toInt →
          s.getJoinInfo o buffer' needed = some ⟨.success, needed, info.joinInfo ++ [0]⟩ := by
  have hfitting : s.Fitting := h.invariant (fitting_start hepic hproduct user losses)
    fun _ _ _ hfitting _ hstep ↦ hfitting.step hstep
  have hlimit := hfitting.joinInfo hfound
  have hsize : info.joinInfo.length + 1 < 2 ^ 31 := by
    have hmax : maxJoinInfoLength = 255 := rfl
    omega
  have hcall : s.getJoinInfo o = textOut .success .limitExceeded
      (fun _ ↦ some (info.joinInfo ++ [0])) info.joinInfo := by
    funext buffer length
    simp [getJoinInfo, hversion, huser, htarget, hfound, hsome]
  have hanswers : Answers .success .limitExceeded info.joinInfo (s.getJoinInfo o) := by
    rw [hcall]
    exact answers_textOut hsize rfl
  exact ⟨hanswers, hanswers.twice hsize⟩

/-- A join info of our own, set and committed. -/
def settingJoinInfo : List Input :=
  [.call (.createPresenceModification 1 (some [101])),
    .call (.modificationSetJoinInfo 1 ⟨1, some [65]⟩), .call (.setPresence ⟨1, some [101], 1⟩)]

/-- It is read into a buffer that has just the room, with what is behind it left alone. -/
theorem join_info_answers_own : ∃ s : Presence,
    s.getJoinInfo ⟨1, some [101], some [101]⟩ [7, 7, 7] 2 = some ⟨.success, 2, [65, 0, 7]⟩ := by
  obtain ⟨s, hreach, hset⟩ := exists_reaches step always (start [101] [1] [9] [])
    (fun s ↦ (s.findPresence [101]).map (·.joinInfo) = some [65]) settingJoinInfo
    (by decide +kernel) (meets_always _ _)
  obtain ⟨info, hfound, hjoin⟩ := Option.map_eq_some_iff.1 hset
  obtain ⟨hanswers, -⟩ := join_info_answers (by decide) (by decide) hreach
    (o := ⟨1, some [101], some [101]⟩) (by decide) (by decide) rfl hfound (by rw [hjoin]; decide)
  refine ⟨s, (hanswers.whole [7, 7, 7] 2 (by rw [hjoin]; decide) (by decide)).trans ?_⟩
  rw [hjoin]
  rfl

end Presence
end EosMesh
