import EosMesh.Net.PeerChannel

/-!
# The replay window

`replay_window` of `net/peer_channel.cpp` keeps the newest sequence number and a bit for each of the
sixty-four up to it.  What it stands for is the set of all numbers it accepted.

* `Spent` says that a sequence number is refused, and no number taken is unspent again.
* `ReplaySet.Fresh` is the rule without the bits: a number that was not accepted, and that is less
  than the width of the window below the newest.
* `Tracks` relates a window to the set; `Tracks.step` carries it through a call, and
  `replayWindow_equals_set` through any number of them.
-/

set_option autoImplicit false

namespace EosMesh

/-! ## The window -/

namespace ReplayWindow

variable {w w' : ReplayWindow} {seq seq' : UInt64}

/-- A number the window would refuse. -/
def Spent (w : ReplayWindow) (seq : UInt64) : Prop := w.accept seq = none

theorem toNat_bit {age : UInt64} (h : age.toNat < replayWidth) :
    ((1 : UInt64) <<< age).toNat = 2 ^ age.toNat := by
  have hlt : 2 ^ age.toNat < 2 ^ 64 := Nat.pow_lt_pow_right (by decide) h
  have hmod : age.toNat % 64 = age.toNat := Nat.mod_eq_of_lt h
  rw [UInt64.toNat_shiftLeft, hmod, UInt64.toNat_one, Nat.one_shiftLeft,
    Nat.mod_eq_of_lt hlt]

theorem and_bit_ne_zero {age : UInt64} (h : age.toNat < replayWidth) (seen : UInt64) :
    seen &&& ((1 : UInt64) <<< age) ≠ 0 ↔ seen.toNat.testBit age.toNat = true := by
  rw [Ne, ← UInt64.toNat_inj, UInt64.toNat_and, toNat_bit h, Nat.and_two_pow, UInt64.toNat_zero]
  cases seen.toNat.testBit age.toNat <;> simp

/-- How far a number is behind the newest. -/
def age (w : ReplayWindow) (seq : UInt64) : Nat := w.highest.toNat - seq.toNat

/-- A number is spent that is too old to place, or whose bit is set. -/
theorem spent_iff : w.Spent seq ↔ seq ≤ w.highest ∧
    (replayWidth ≤ w.age seq ∨ w.seen.toNat.testBit (w.age seq) = true) := by
  rw [Spent, accept]
  split
  · rename_i hnew
    exact ⟨nofun, fun h ↦ absurd h.1 (by simpa using hnew)⟩
  · rename_i hold
    have hle : seq ≤ w.highest := by simpa using hold
    have hage : (w.highest - seq).toNat = w.age seq := UInt64.toNat_sub_of_le _ _ hle
    dsimp only
    rw [hage]
    split
    · rename_i hfar
      exact ⟨fun _ ↦ ⟨hle, .inl hfar⟩, fun _ ↦ rfl⟩
    · rename_i hnear
      have hbit := and_bit_ne_zero (hage ▸ not_le.1 hnear) w.seen
      rw [hage] at hbit
      split
      · rename_i hset
        exact ⟨fun _ ↦ ⟨hle, .inr (hbit.1 hset)⟩, fun _ ↦ rfl⟩
      · rename_i hunset
        exact ⟨nofun, fun h ↦ (h.2.resolve_left hnear |> hbit.2 |> hunset).elim⟩

/-- What taking a number does to the window: it is the newest, and the bits move along; or it is an
older one, and its bit is set. -/
theorem accept_eq_some (h : w.accept seq = some w') :
    (w.highest < seq ∧ w'.highest = seq ∧ w'.seen.toNat.testBit 0 = true ∧
      ∀ n < replayWidth, seq.toNat - w.highest.toNat ≤ n →
        w.seen.toNat.testBit (n - (seq.toNat - w.highest.toNat)) = true →
          w'.seen.toNat.testBit n = true) ∨
    (seq ≤ w.highest ∧ w'.highest = w.highest ∧ w'.seen.toNat.testBit (w.age seq) = true ∧
      ∀ n, w.seen.toNat.testBit n = true → w'.seen.toNat.testBit n = true) := by
  rw [accept] at h
  split at h
  · rename_i hnew
    have hlt : w.highest < seq := hnew
    have hshift : (seq - w.highest).toNat = seq.toNat - w.highest.toNat :=
      UInt64.toNat_sub_of_le _ _ (UInt64.le_of_lt hlt)
    cases h
    refine .inl ⟨hlt, rfl, by simp, fun n hn hmoved hset ↦ ?_⟩
    have hnear : ¬ (seq - w.highest).toNat ≥ replayWidth := by omega
    have hn' : n < 64 := hn
    have hmod : (seq.toNat - w.highest.toNat) % 64 = seq.toNat - w.highest.toNat :=
      Nat.mod_eq_of_lt (by omega)
    dsimp only
    rw [if_neg hnear, UInt64.toNat_or, Nat.testBit_or, UInt64.toNat_shiftLeft, hshift, hmod,
      Nat.testBit_mod_two_pow, Nat.testBit_shiftLeft, hset]
    simp [hmoved, hn']
  · rename_i hold
    have hle : seq ≤ w.highest := by simpa using hold
    have hage : (w.highest - seq).toNat = w.age seq := UInt64.toNat_sub_of_le _ _ hle
    dsimp only at h
    split at h
    · cases h
    · rename_i hnear
      split at h
      · cases h
      · cases h
        refine .inr ⟨hle, rfl, ?_, fun n hset ↦ ?_⟩
        · dsimp only
          rw [UInt64.toNat_or, Nat.testBit_or, toNat_bit (not_le.1 hnear), hage]
          simp
        · dsimp only
          rw [UInt64.toNat_or, Nat.testBit_or, hset, Bool.true_or]

/-- A number that was taken is spent. -/
theorem spent_of_accept (h : w.accept seq = some w') : w'.Spent seq := by
  rw [spent_iff, age]
  rcases accept_eq_some h with ⟨-, hhighest, hset, -⟩ | ⟨hle, hhighest, hset, -⟩
  · rw [hhighest, Nat.sub_self]
    exact ⟨UInt64.le_refl _, .inr hset⟩
  · rw [hhighest]
    exact ⟨hle, .inr hset⟩

/-- **What is spent stays spent.** -/
theorem Spent.accept (hspent : w.Spent seq) (h : w.accept seq' = some w') : w'.Spent seq := by
  rw [spent_iff, age] at hspent ⊢
  obtain ⟨hle, hspent⟩ := hspent
  rcases accept_eq_some h with ⟨hlt, hhighest, -, hmoved⟩ | ⟨-, hhighest, -, hkept⟩
  · rw [hhighest]
    have hle' : seq.toNat ≤ w.highest.toNat := UInt64.le_iff_toNat_le.1 hle
    have hlt' : w.highest.toNat < seq'.toNat := UInt64.lt_iff_toNat_lt.1 hlt
    refine ⟨UInt64.le_trans hle (UInt64.le_of_lt hlt), ?_⟩
    by_cases hfar : replayWidth ≤ seq'.toNat - seq.toNat
    · exact .inl hfar
    · have hset := hspent.resolve_left (by omega)
      refine .inr (hmoved _ (not_le.1 hfar) (by omega) ?_)
      rwa [show seq'.toNat - seq.toNat - (seq'.toNat - w.highest.toNat) =
        w.highest.toNat - seq.toNat by omega]
  · rw [hhighest]
    exact ⟨hle, hspent.imp_right (hkept _)⟩

end ReplayWindow

/-! ## The set it stands for -/

/-- The sequence numbers accepted so far. -/
abbrev ReplaySet := Finset UInt64

namespace ReplaySet

/-- The newest of them, or zero. -/
def highest (accepted : ReplaySet) : Nat := accepted.sup UInt64.toNat

theorem highest_insert_of_le {accepted : ReplaySet} {seq : UInt64}
    (h : accepted.highest ≤ seq.toNat) : highest (insert seq accepted) = seq.toNat := by
  rw [highest, Finset.sup_insert]
  exact sup_eq_left.2 h

theorem highest_insert_of_ge {accepted : ReplaySet} {seq : UInt64}
    (h : seq.toNat ≤ accepted.highest) : highest (insert seq accepted) = accepted.highest := by
  rw [highest, Finset.sup_insert]
  exact sup_eq_right.2 h

/-- Not accepted before, and not too far below the newest. -/
def Fresh (accepted : ReplaySet) (seq : UInt64) : Prop :=
  seq ∉ accepted ∧ accepted.highest < seq.toNat + replayWidth

instance (accepted : ReplaySet) (seq : UInt64) : Decidable (accepted.Fresh seq) :=
  inferInstanceAs (Decidable (_ ∧ _))

/-- A call: a fresh number is accepted. -/
def call (accepted : ReplaySet) (seq : UInt64) : ReplaySet :=
  if accepted.Fresh seq then insert seq accepted else accepted

/-- What the calls return. -/
def answers : ReplaySet → List UInt64 → List Bool
  | _, [] => []
  | accepted, seq :: calls => decide (accepted.Fresh seq) :: answers (accepted.call seq) calls

end ReplaySet

namespace ReplayWindow

/-- The window after a call; one that is refused leaves it as it was. -/
def call (w : ReplayWindow) (seq : UInt64) : ReplayWindow := (w.accept seq).getD w

/-- What the calls return. -/
def answers : ReplayWindow → List UInt64 → List Bool
  | _, [] => []
  | w, seq :: calls => (w.accept seq).isSome :: answers (w.call seq) calls

/-- The window has the newest number of the set, and a bit for each number within its width. -/
structure Tracks (w : ReplayWindow) (accepted : ReplaySet) : Prop where
  highest : w.highest.toNat = accepted.highest
  seen : ∀ n < replayWidth, w.seen.toNat.testBit n = true ↔
    ∃ seq ∈ accepted, seq.toNat + n = w.highest.toNat

theorem Tracks.initial : Tracks {} ∅ where
  highest := rfl
  seen n _ := by simp

variable {w w' : ReplayWindow} {accepted : ReplaySet} {seq : UInt64}

theorem Tracks.le (h : Tracks w accepted) (hmem : seq ∈ accepted) :
    seq.toNat ≤ w.highest.toNat := by
  rw [h.highest]
  exact Finset.le_sup (f := UInt64.toNat) hmem

/-- The window refuses what is not fresh. -/
theorem Tracks.spent_iff (h : Tracks w accepted) : w.Spent seq ↔ ¬ accepted.Fresh seq := by
  rw [ReplayWindow.spent_iff, ReplaySet.Fresh, ← h.highest, age, UInt64.le_iff_toNat_le]
  constructor
  · rintro ⟨hle, hfar | hset⟩ ⟨hnew, hnear⟩
    · omega
    · obtain ⟨seq', hmem, heq⟩ := (h.seen _ (by omega)).1 hset
      have hsame : seq' = seq := UInt64.toNat_inj.1 (by omega)
      exact hnew (hsame ▸ hmem)
  · intro hstale
    by_cases hmem : seq ∈ accepted
    · have hle := h.le hmem
      refine ⟨hle, or_iff_not_imp_left.2 fun hnear ↦ ?_⟩
      exact (h.seen _ (not_le.1 hnear)).2 ⟨seq, hmem, by omega⟩
    · have hfar : ¬ w.highest.toNat < seq.toNat + replayWidth := fun hnear ↦ hstale ⟨hmem, hnear⟩
      exact ⟨by omega, .inl (by omega)⟩

/-- The bits of a window that moved on to a newer number. -/
theorem testBit_moved (seen shift : UInt64) {n : Nat} (hn : n < replayWidth) :
    ((if shift.toNat ≥ replayWidth then 0 else seen <<< shift) ||| 1).toNat.testBit n = true ↔
      n = 0 ∨ shift.toNat ≤ n ∧ seen.toNat.testBit (n - shift.toNat) = true := by
  have hn' : n < 64 := hn
  have hone : Nat.testBit 1 n = true ↔ n = 0 := by
    rw [Nat.testBit_one_eq_true_iff_self_eq_zero]
  rw [UInt64.toNat_or, Nat.testBit_or, Bool.or_eq_true, UInt64.toNat_one, hone, or_comm]
  refine or_congr_right ?_
  split
  · rename_i hfar
    have hfar' : ¬ shift.toNat ≤ n := by omega
    simp [hfar']
  · rename_i hnear
    have hmod : shift.toNat % 64 = shift.toNat := Nat.mod_eq_of_lt (not_le.1 hnear)
    rw [UInt64.toNat_shiftLeft, hmod, Nat.testBit_mod_two_pow, Nat.testBit_shiftLeft]
    simp [hn']

/-- The bits of a window that took an older number. -/
theorem testBit_marked (seen : UInt64) {age : UInt64} (hage : age.toNat < replayWidth) (n : Nat) :
    (seen ||| ((1 : UInt64) <<< age)).toNat.testBit n = true ↔
      seen.toNat.testBit n = true ∨ n = age.toNat := by
  rw [UInt64.toNat_or, Nat.testBit_or, Bool.or_eq_true, toNat_bit hage, Nat.testBit_two_pow,
    decide_eq_true_eq]
  exact or_congr_right eq_comm

/-- Accepting a number is inserting it. -/
theorem Tracks.accept (h : Tracks w accepted) (haccept : w.accept seq = some w') :
    Tracks w' (insert seq accepted) := by
  rw [ReplayWindow.accept] at haccept
  split at haccept
  · rename_i hnew
    have hlt : w.highest.toNat < seq.toNat := UInt64.lt_iff_toNat_lt.1 hnew
    have hshift : (seq - w.highest).toNat = seq.toNat - w.highest.toNat :=
      UInt64.toNat_sub_of_le _ _ (UInt64.le_of_lt hnew)
    cases haccept
    refine ⟨?_, fun n hn ↦ ?_⟩
    · have hbelow : accepted.highest ≤ seq.toNat := h.highest ▸ hlt.le
      exact (ReplaySet.highest_insert_of_le hbelow).symm
    · dsimp only
      rw [testBit_moved _ _ hn, hshift]
      constructor
      · rintro (rfl | ⟨hle, hset⟩)
        · exact ⟨seq, Finset.mem_insert_self _ _, Nat.add_zero _⟩
        · obtain ⟨seq', hmem, heq⟩ := (h.seen _ (by omega)).1 hset
          exact ⟨seq', Finset.mem_insert_of_mem hmem, by omega⟩
      · rintro ⟨seq', hmem, heq⟩
        rcases Finset.mem_insert.1 hmem with rfl | hmem
        · exact .inl (by omega)
        · have hle := h.le hmem
          exact .inr ⟨by omega, (h.seen _ (by omega)).2 ⟨seq', hmem, by omega⟩⟩
  · rename_i hold
    have hle : seq.toNat ≤ w.highest.toNat := by
      rw [← UInt64.le_iff_toNat_le]
      simpa using hold
    have hage : (w.highest - seq).toNat = w.highest.toNat - seq.toNat :=
      UInt64.toNat_sub_of_le _ _ (UInt64.le_iff_toNat_le.2 hle)
    dsimp only at haccept
    split at haccept
    · cases haccept
    · rename_i hnear
      split at haccept
      · cases haccept
      · cases haccept
        refine ⟨?_, fun n hn ↦ ?_⟩
        · have habove : seq.toNat ≤ accepted.highest := h.highest ▸ hle
          exact h.highest.trans (ReplaySet.highest_insert_of_ge habove).symm
        · dsimp only
          rw [testBit_marked _ (not_le.1 hnear), h.seen n hn, hage]
          constructor
          · rintro (⟨seq', hmem, heq⟩ | rfl)
            · exact ⟨seq', Finset.mem_insert_of_mem hmem, heq⟩
            · exact ⟨seq, Finset.mem_insert_self _ _, by omega⟩
          · rintro ⟨seq', hmem, heq⟩
            rcases Finset.mem_insert.1 hmem with rfl | hmem
            · exact .inr (by omega)
            · exact .inl ⟨seq', hmem, heq⟩

/-- One call, of the window and of the set. -/
theorem Tracks.step (h : Tracks w accepted) (seq : UInt64) :
    (w.accept seq).isSome = decide (accepted.Fresh seq) ∧
      Tracks (w.call seq) (accepted.call seq) := by
  have hspent : w.Spent seq ↔ ¬ accepted.Fresh seq := h.spent_iff
  rw [call, ReplaySet.call]
  cases haccept : w.accept seq with
  | none =>
    have hstale : ¬ accepted.Fresh seq := hspent.1 haccept
    rw [decide_eq_false hstale, if_neg hstale]
    exact ⟨rfl, h⟩
  | some w' =>
    have hfresh : accepted.Fresh seq := by
      by_contra hstale
      have hnone : w.accept seq = none := hspent.2 hstale
      rw [haccept] at hnone
      cases hnone
    rw [decide_eq_true hfresh, if_pos hfresh]
    exact ⟨rfl, h.accept haccept⟩

theorem Tracks.answers (h : Tracks w accepted) (calls : List UInt64) :
    w.answers calls = accepted.answers calls := by
  induction calls generalizing w accepted with
  | nil => rfl
  | cons seq calls ih =>
    obtain ⟨hanswer, htracks⟩ := h.step seq
    rw [ReplayWindow.answers, ReplaySet.answers, hanswer, ih htracks]

theorem answers_append (w : ReplayWindow) (calls later : List UInt64) :
    w.answers (calls ++ later) = w.answers calls ++ (calls.foldl call w).answers later := by
  induction calls generalizing w with
  | nil => rfl
  | cons seq calls ih =>
    rw [List.cons_append, answers, answers, ih, List.foldl_cons, List.cons_append]

end ReplayWindow

/-- Over any calls the window answers as the set of what was accepted does, and what is said to the
calls after one that was refused is what would have been said without it. -/
theorem replayWindow_equals_set (calls : List UInt64) :
    ReplayWindow.answers {} calls = ReplaySet.answers ∅ calls ∧
      ∀ seq later, (calls.foldl ReplayWindow.call {}).accept seq = none →
        ReplayWindow.answers {} (calls ++ seq :: later) =
          ReplayWindow.answers {} calls ++ false ::
            (calls.foldl ReplayWindow.call {}).answers later ∧
        ReplayWindow.answers {} (calls ++ later) =
          ReplayWindow.answers {} calls ++ (calls.foldl ReplayWindow.call {}).answers later := by
  refine ⟨ReplayWindow.Tracks.initial.answers calls, fun seq later hrefused ↦ ⟨?_, ?_⟩⟩
  · rw [ReplayWindow.answers_append, ReplayWindow.answers, ReplayWindow.call, hrefused]
    rfl
  · exact ReplayWindow.answers_append {} calls later

end EosMesh
