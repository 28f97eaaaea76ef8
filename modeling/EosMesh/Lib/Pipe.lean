import Mathlib

/-!
# Pipes

A sender keeps an outbox, into which it puts items as they are encoded.  What its socket takes
of that is on the wire, from where a receiver reads pieces into a buffer, and takes items off
the front again.

* `Pipe` is the three stretches of the stream between the two.
* `Carries` says that they are the code of the items on their way, but for what a sender that is
  gone took with it.
* `Carries.pushed` is the rule for all that a sender does, `Carries.pulled` the one for a receiver.
-/

set_option autoImplicit false

namespace EosMesh
namespace Lib

/-- What is between two ends: still to be sent, on its way, and arrived. -/
structure Pipe (α : Type) where
  outbox : List α := []
  wire : List α := []
  buffer : List α := []

namespace Pipe

variable {α β : Type} {encode : β → List α} {p : Pipe α} {items items' : List β}
  {gone gone' : Prop} {taken rest lost : List α} {n : Nat}

/-- The whole stretch, what is read next coming first. -/
def content (p : Pipe α) : List α := p.buffer ++ (p.wire ++ p.outbox)

/-- The items are on their way; the end of their code may be lost once the sender is gone. -/
def Carries (encode : β → List α) (p : Pipe α) (items : List β) (gone : Prop) : Prop :=
  ∃ lost, p.content ++ lost = items.flatMap encode ∧ (¬ gone → lost = [])

/-- **What a sender does**: it puts items into its outbox, and the socket takes some of that; what
is left of it is lost if the sender does not go on. -/
theorem Carries.pushed (h : Carries encode p items gone) (hstands : ¬ gone)
    (hsplit : p.outbox ++ items'.flatMap encode = taken ++ (rest ++ lost))
    (hlost : ¬ gone' → lost = []) :
    Carries encode { p with wire := p.wire ++ taken, outbox := rest } (items ++ items') gone' := by
  obtain ⟨before, hcontent, hnone⟩ := h
  rw [hnone hstands, List.append_nil] at hcontent
  refine ⟨lost, ?_, hlost⟩
  calc p.buffer ++ (p.wire ++ taken ++ rest) ++ lost
      = p.buffer ++ (p.wire ++ (taken ++ (rest ++ lost))) := by simp
    _ = p.content ++ items'.flatMap encode := by rw [← hsplit, content]; simp
    _ = (items ++ items').flatMap encode := by rw [hcontent, List.flatMap_append]

/-- Reading moves nothing out of the stretch. -/
theorem content_read (p : Pipe α) (n : Nat) :
    p.content = p.buffer ++ p.wire.take n ++ (p.wire.drop n ++ p.outbox) := by
  rw [content, List.append_assoc p.buffer, ← List.append_assoc (p.wire.take n),
    List.take_append_drop]

/-- What is in the buffer after a read is the start of what is on its way. -/
theorem Carries.arrived (h : Carries encode p items gone) (n : Nat) :
    p.buffer ++ p.wire.take n <+: items.flatMap encode := by
  obtain ⟨lost, hcontent, -⟩ := h
  rw [← hcontent, content_read p n, List.append_assoc _ _ lost]
  exact List.prefix_append _ _

/-- **What a receiver does**: it reads some of the wire, and takes items off its buffer. -/
theorem Carries.pulled (h : Carries encode p (items ++ items') gone)
    (hread : p.buffer ++ p.wire.take n = items.flatMap encode ++ rest) :
    Carries encode { p with wire := p.wire.drop n, buffer := rest } items' gone := by
  obtain ⟨lost, hcontent, hnone⟩ := h
  refine ⟨lost, ?_, hnone⟩
  rw [content_read p n, hread, List.flatMap_append, List.append_assoc,
    List.append_assoc] at hcontent
  rw [content, List.append_assoc]
  exact List.append_cancel_left hcontent

/-- Where nothing is on the way and nothing was lost, no item is. -/
theorem Carries.finished (h : Carries encode p items gone) (hstands : ¬ gone)
    (hempty : p.content = []) (hcode : ∀ item, encode item ≠ []) : items = [] := by
  obtain ⟨lost, hcontent, hnone⟩ := h
  rw [hempty, hnone hstands, List.append_nil] at hcontent
  cases items with
  | nil => rfl
  | cons item items =>
    rw [List.flatMap_cons] at hcontent
    exact absurd (List.append_eq_nil_iff.1 hcontent.symm).1 (hcode item)

end Pipe
end Lib
end EosMesh
