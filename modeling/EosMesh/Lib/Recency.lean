import Mathlib

/-!
# When a key was last used

A log of uses, newest first, numbers them from one on.  `lastUse log k` is the number of the last
use of `k`, zero when there was none: the order that a least-recently-used policy goes by.

* `lastUse_injective`: two keys that were used were not last used at one time.
-/

set_option autoImplicit false

namespace EosMesh
namespace Lib

variable {κ : Type} [DecidableEq κ]

/-- The number of the last use of `k`; zero when it was never used. -/
def lastUse : List κ → κ → Nat
  | [], _ => 0
  | used :: older, k => if used = k then older.length + 1 else lastUse older k

variable {log : List κ} {k k' : κ}

theorem lastUse_cons_self (log : List κ) (k : κ) : lastUse (k :: log) k = log.length + 1 :=
  if_pos rfl

theorem lastUse_cons_of_ne (log : List κ) (h : k' ≠ k) : lastUse (k' :: log) k = lastUse log k :=
  if_neg h

theorem lastUse_le (log : List κ) (k : κ) : lastUse log k ≤ log.length := by
  induction log with
  | nil => exact le_refl 0
  | cons used log ih =>
    rw [lastUse, List.length_cons]
    split <;> omega

theorem lastUse_ne_zero (h : k ∈ log) : lastUse log k ≠ 0 := by
  induction log with
  | nil => cases h
  | cons used log ih =>
    rw [lastUse]
    split
    · exact Nat.succ_ne_zero _
    · rename_i hne
      exact ih ((List.mem_cons.1 h).resolve_left fun heq ↦ hne heq.symm)

/-- **No two keys were last used at one time.** -/
theorem lastUse_injective (hused : lastUse log k ≠ 0) (h : lastUse log k = lastUse log k') :
    k = k' := by
  induction log with
  | nil => exact absurd rfl hused
  | cons used log ih =>
    have hle := lastUse_le log k
    have hle' := lastUse_le log k'
    rw [lastUse] at hused h
    rw [lastUse] at h
    split at h
    · rename_i hk
      split at h
      · rename_i hk'
        exact hk.symm.trans hk'
      · omega
    · rename_i hk
      rw [if_neg hk] at hused
      split at h
      · omega
      · exact ih hused h

end Lib
end EosMesh
