import Mathlib

/-!
# A queue that nested scans go through

A scan takes the elements of a queue out one after the other, from the front.  It looks at each, and
keeps it or passes it on; when the queue is empty it puts back what it kept.  While it looks at an
element, more may join the queue, and another scan of the queue may begin and end.

* `Scan` is how far one got, and a list of them has the innermost first.
* `line` is what is still there, in order: the scans hold parts of it.
* `Sound`: the line is in order, and what a scan has passed on was ahead of all it has yet to look
  at.  The operations keep it.
-/

set_option autoImplicit false

namespace EosMesh
namespace Lib

/-- How far a scan got: what it kept, the element it looks at, and what it passed on. -/
structure Scan (α : Type) where
  kept : List α
  hand : Option α
  passed : List α

namespace Scan

variable {α : Type}

/-- What the scan holds of the line. -/
def held (scan : Scan α) : List α := scan.kept ++ scan.hand.toList

/-- What is still there, in order. -/
def line : List (Scan α) → List α → List α
  | [], queue => queue
  | scan :: outer, queue => line outer (scan.held ++ queue)

/-- What the scans hold. -/
def allHeld (scans : List (Scan α)) : List α := line scans []

theorem line_eq (scans : List (Scan α)) (queue : List α) :
    line scans queue = allHeld scans ++ queue := by
  induction scans generalizing queue with
  | nil => rfl
  | cons scan outer ih =>
    change line outer (scan.held ++ queue) = line outer (scan.held ++ []) ++ queue
    rw [ih, ih (scan.held ++ []), List.append_nil, List.append_assoc]

theorem line_append (scans : List (Scan α)) (queue more : List α) :
    line scans (queue ++ more) = line scans queue ++ more := by
  rw [line_eq, line_eq, List.append_assoc]

theorem mem_line {scans : List (Scan α)} {queue : List α} {x : α} :
    x ∈ line scans queue ↔ x ∈ allHeld scans ∨ x ∈ queue := by
  rw [line_eq, List.mem_append]

/-! ## The operations on the line -/

variable {outer : List (Scan α)} {queue kept passed : List α} {x : α}

theorem line_pop : line (⟨kept, some x, passed⟩ :: outer) queue =
    line (⟨kept, none, passed⟩ :: outer) (x :: queue) := by
  simp [line, held]

theorem line_keep : line (⟨kept ++ [x], none, passed⟩ :: outer) queue =
    line (⟨kept, some x, passed⟩ :: outer) queue := by
  simp [line, held]

theorem line_close : line outer kept = line (⟨kept, none, passed⟩ :: outer) [] := by
  simp [line, held]

theorem line_take : line (⟨kept, some x, passed⟩ :: outer) queue =
    allHeld outer ++ kept ++ x :: queue := by
  simp [line, held, line_eq]

theorem line_taken (passed' : List α) : line (⟨kept, none, passed'⟩ :: outer) queue =
    allHeld outer ++ kept ++ queue := by
  simp [line, held, line_eq]

/-! ## What stays in order -/

variable [LT α]

/-- What a scan has passed on is ahead of all it has yet to look at. -/
def Ahead : List (Scan α) → List α → Prop
  | [], _ => True
  | scan :: outer, queue =>
    (∀ y ∈ scan.passed, ∀ x ∈ scan.hand.toList ++ queue, y < x) ∧ Ahead outer (scan.held ++ queue)

/-- The line is in order, with what was passed on ahead. -/
structure Sound (scans : List (Scan α)) (queue : List α) : Prop where
  sorted : (line scans queue).Pairwise (· < ·)
  ahead : Ahead scans queue

theorem Ahead.mono {scans : List (Scan α)} {queue queue' : List α} (h : Ahead scans queue)
    (hmem : ∀ x ∈ queue', x ∈ queue ∨ ∀ scan ∈ scans, ∀ y ∈ scan.passed, y < x) :
    Ahead scans queue' := by
  induction scans generalizing queue queue' with
  | nil => trivial
  | cons scan outer ih =>
    refine ⟨fun y hy x hx ↦ ?_, ih h.2 fun x hx ↦ ?_⟩
    · rcases List.mem_append.1 hx with hx | hx
      · exact h.1 y hy x (List.mem_append_left _ hx)
      · rcases hmem x hx with hold | hnew
        · exact h.1 y hy x (List.mem_append_right _ hold)
        · exact hnew scan List.mem_cons_self y hy
    · rcases List.mem_append.1 hx with hx | hx
      · exact .inl (List.mem_append_left _ hx)
      · exact (hmem x hx).imp (List.mem_append_right _)
          fun hnew scan hscan ↦ hnew scan (List.mem_cons_of_mem _ hscan)

namespace Sound

/-- An element joins. -/
theorem push {scans : List (Scan α)} (h : Sound scans queue)
    (hline : ∀ y ∈ line scans queue, y < x)
    (hpassed : ∀ scan ∈ scans, ∀ y ∈ scan.passed, y < x) : Sound scans (queue ++ [x]) where
  sorted := by
    rw [line_append, List.pairwise_append]
    refine ⟨h.sorted, List.pairwise_singleton _ _, fun y hy z hz ↦ ?_⟩
    rw [List.mem_singleton.1 hz]
    exact hline y hy
  ahead := h.ahead.mono fun z hz ↦ (List.mem_append.1 hz).imp id fun hz ↦ by
    rw [List.mem_singleton.1 hz]
    exact hpassed

/-- A scan begins. -/
theorem start {scans : List (Scan α)} (h : Sound scans queue) :
    Sound (⟨[], none, []⟩ :: scans) queue := ⟨h.sorted, by simp, h.ahead⟩

/-- The scan looks at the next element. -/
theorem pop (h : Sound (⟨kept, none, passed⟩ :: outer) (x :: queue)) :
    Sound (⟨kept, some x, passed⟩ :: outer) queue where
  sorted := by
    rw [line_pop]
    exact h.sorted
  ahead := ⟨h.ahead.1, by simpa [held] using h.ahead.2⟩

/-- It keeps the element. -/
theorem keep (h : Sound (⟨kept, some x, passed⟩ :: outer) queue) :
    Sound (⟨kept ++ [x], none, passed⟩ :: outer) queue where
  sorted := by
    rw [line_keep]
    exact h.sorted
  ahead := ⟨fun y hy z hz ↦ h.ahead.1 y hy z (List.mem_append_right _ hz),
    by simpa [held] using h.ahead.2⟩

/-- It passes the element on. -/
theorem take (h : Sound (⟨kept, some x, passed⟩ :: outer) queue) :
    Sound (⟨kept, none, passed ++ [x]⟩ :: outer) queue where
  sorted := by
    have hsorted := h.sorted
    rw [line_take] at hsorted
    rw [line_taken]
    exact hsorted.sublist (List.Sublist.append_left (List.sublist_cons_self x queue) _)
  ahead := by
    have hsorted := h.sorted
    rw [line_take, List.pairwise_append] at hsorted
    refine ⟨fun y hy z hz ↦ ?_, h.ahead.2.mono fun z hz ↦ .inl ?_⟩
    · rcases List.mem_append.1 hy with hy | hy
      · exact h.ahead.1 y hy z (List.mem_append_right _ hz)
      · rw [List.mem_singleton.1 hy]
        exact (List.pairwise_cons.1 hsorted.2.1).1 z hz
    · simp only [held, Option.toList_none, Option.toList_some, List.append_nil] at hz ⊢
      exact (List.mem_append.1 hz).elim
        (fun hz ↦ List.mem_append_left _ (List.mem_append_left _ hz)) (List.mem_append_right _)

/-- It ends, and puts back what it kept. -/
theorem close (h : Sound (⟨kept, none, passed⟩ :: outer) []) : Sound outer kept where
  sorted := by
    rw [@line_close _ outer kept passed]
    exact h.sorted
  ahead := by simpa [held] using h.ahead.2

theorem nil : Sound ([] : List (Scan α)) [] := ⟨List.Pairwise.nil, trivial⟩

/-- What the scan has passed on is ahead of the element it looks at. -/
theorem passed_lt (h : Sound (⟨kept, some x, passed⟩ :: outer) queue) {y : α} (hy : y ∈ passed) :
    y < x :=
  h.ahead.1 y hy x (List.mem_append_left _ (List.mem_singleton_self x))

end Sound

end Scan

end Lib
end EosMesh
