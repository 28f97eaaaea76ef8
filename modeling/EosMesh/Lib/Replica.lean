import Mathlib

/-!
# Following a value over a queue

A value changes, and each time it is sent to a follower, who holds what it heard last.  What is on
the way and what is held settle, between them, what the follower is going to hold.

* `settled` is that value; hearing the next one does not change it, and sending another one replaces
  it.
-/

set_option autoImplicit false

namespace EosMesh
namespace Lib

variable {α : Type} {onWay sent : List α} {held : Option α} {value : α}

/-- What will be held once all that is on the way is heard, the oldest first. -/
def settled (onWay : List α) (held : Option α) : Option α := onWay.getLast?.or held

@[simp] theorem settled_nil (held : Option α) : settled [] held = held := rfl

/-- Hearing what is next settles nothing. -/
@[simp] theorem settled_cons (heard : α) (onWay : List α) (held : Option α) :
    settled (heard :: onWay) held = settled onWay (some heard) := by
  rw [settled, settled, List.getLast?_cons]
  cases onWay.getLast? <;> rfl

/-- What is sent is settled upon, once anything is sent. -/
theorem settled_sent (hsent : ∀ item ∈ sent, item = value) (hne : sent ≠ []) :
    settled (onWay ++ sent) held = some value := by
  have hlast : sent.getLast? = some value := by
    rw [List.getLast?_eq_some_getLast hne, hsent _ (List.getLast_mem hne)]
  rw [settled, List.getLast?_append, hlast]
  rfl

/-- Sending what is settled upon again changes nothing. -/
theorem settled_again (hsent : ∀ item ∈ sent, item = value) (h : settled onWay held = some value) :
    settled (onWay ++ sent) held = some value := by
  by_cases hne : sent = []
  · rw [hne, List.append_nil, h]
  · exact settled_sent hsent hne

end Lib
end EosMesh
