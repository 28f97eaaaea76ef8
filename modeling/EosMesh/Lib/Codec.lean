import Mathlib

/-!
# Readers that undo a concatenation

A writer of a binary format appends the encodings of its fields one after the other; a reader
takes them off the front again.  This file is about that pair and about no format in particular:

* `Reader` is a parser over a list of symbols: it fails, or gives a value and the unread suffix.
* `Decodes r enc a` says that `r` reads the encoding `enc` off the front of *any* input, giving `a`
  and leaving exactly what followed.  `Decodes.bind` is the rule a record's round trip is built
  from, `Decodes.readMany` the one for a counted list.
* `DecodesTo r enc P` is the weaker statement of a reader that may also refuse what it is given; it
  has the same rules.
* `Follows r r' R` relates two readers of one format; `Follows.bind` and `Follows.readMany` are its
  rules.
* `leBytes` and `beBytes` write a natural number on a fixed number of bytes, and
  `ofLeBytes_leBytes` and `beBytes_inj` are what a fixed-width integer's round trip needs.
-/

set_option autoImplicit false

namespace EosMesh

/-- A string of bytes. -/
abbrev Bytes := List UInt8

instance : LawfulBEq Bytes := inferInstance

instance : LawfulBEq (Option Bytes) := inferInstance

namespace Lib

/-! ## Readers -/

/-- A reader over `σ`: `none` when the input is refused, else the value and what is left unread. -/
abbrev Reader (σ α : Type) := StateT (List σ) Option α

variable {σ α β : Type}

/-- `r` reads the encoding `enc` off the front of any input, yielding `a`. -/
def Decodes (r : Reader σ α) (enc : List σ) (a : α) : Prop :=
  ∀ rest, r.run (enc ++ rest) = some (a, rest)

theorem Decodes.pure (a : α) : Decodes (Pure.pure a : Reader σ α) [] a :=
  fun _ ↦ rfl

/-- The rule of composition: fields written one after the other are read one after the other. -/
theorem Decodes.bind {r : Reader σ α} {f : α → Reader σ β} {e₁ e₂ : List σ} {a : α} {b : β}
    (h₁ : Decodes r e₁ a) (h₂ : Decodes (f a) e₂ b) : Decodes (r >>= f) (e₁ ++ e₂) b := by
  intro rest
  rw [StateT.run_bind, List.append_assoc, h₁]
  exact h₂ rest

/-- A last field followed by a pure conversion of what was read. -/
theorem Decodes.map {r : Reader σ α} {f : α → β} {e : List σ} {a : α}
    (h : Decodes r e a) : Decodes (r >>= fun x ↦ Pure.pure (f x)) e (f a) := by
  have := h.bind (f := fun x ↦ Pure.pure (f x)) (Decodes.pure (f a))
  rwa [List.append_nil] at this

/-- Reading on from a whole input: what `Decodes` says when nothing follows. -/
theorem Decodes.run_eq {r : Reader σ α} {enc : List σ} {a : α} (h : Decodes r enc a) :
    r.run enc = some (a, []) := by
  have := h []
  rwa [List.append_nil] at this

/-- Refuse the input unless `p` holds; nothing is consumed. -/
def check (p : Prop) [Decidable p] : Reader σ Unit :=
  if p then Pure.pure () else failure

/-- A check that holds costs nothing. -/
theorem Decodes.check_bind {p : Prop} [Decidable p] {f : Unit → Reader σ β} {e : List σ} {b : β}
    (hp : p) (h : Decodes (f ()) e b) : Decodes (check p >>= f) e b := by
  rw [check, if_pos hp, pure_bind]
  exact h

/-- How many symbols are left. -/
def remaining : Reader σ Nat := fun input ↦ some (input.length, input)

/-- Whatever follows, at least the encoding still to be read is left. -/
theorem Decodes.remaining_bind {f : Nat → Reader σ β} {e : List σ} {b : β}
    (h : ∀ n, e.length ≤ n → Decodes (f n) e b) : Decodes (remaining >>= f) e b :=
  fun rest ↦ h (e ++ rest).length (by simp) rest

/-- Take one symbol off the front. -/
def readOne : Reader σ σ
  | [] => none
  | x :: rest => some (x, rest)

/-- Take exactly `n` symbols off the front. -/
def readExactly (n : Nat) : Reader σ (List σ) := fun input ↦
  if n ≤ input.length then some (input.take n, input.drop n) else none

theorem Decodes.readOne (x : σ) : Decodes (readOne : Reader σ σ) [x] x :=
  fun _ ↦ rfl

theorem Decodes.readExactly (xs : List σ) :
    Decodes (readExactly xs.length : Reader σ (List σ)) xs xs := by
  intro rest
  simp [StateT.run, Lib.readExactly]

/-- Read `n` values in turn. -/
def readMany (r : Reader σ α) : Nat → Reader σ (List α)
  | 0 => Pure.pure []
  | n + 1 => do
    let x ← r
    let xs ← readMany r n
    Pure.pure (x :: xs)

/-- A list written element by element is read back by as many reads. -/
theorem Decodes.readMany {r : Reader σ α} {enc : α → List σ} {xs : List α}
    (h : ∀ x ∈ xs, Decodes r (enc x) x) :
    Decodes (readMany r xs.length) (xs.flatMap enc) xs := by
  induction xs with
  | nil => exact Decodes.pure []
  | cons x xs ih =>
    have hx := h x (by simp)
    have hxs := ih fun y hy ↦ h y (by simp [hy])
    rw [List.flatMap_cons]
    exact hx.bind hxs.map

/-- A list of non-empty encodings is at least as long as the list itself. -/
theorem length_le_length_flatMap {enc : α → List σ} (h : ∀ x, enc x ≠ []) (xs : List α) :
    xs.length ≤ (xs.flatMap enc).length := by
  induction xs with
  | nil => simp
  | cons x xs ih =>
    have := List.length_pos_iff.2 (h x)
    simp only [List.flatMap_cons, List.length_cons, List.length_append]
    omega

/-! ## Encodings that may be refused -/

/-- Reading the encoding `enc` off the front of any input fails, or gives a `P` and leaves exactly
what followed. -/
def DecodesTo (r : Reader σ α) (enc : List σ) (P : α → Prop) : Prop :=
  ∀ rest a left, r.run (enc ++ rest) = some (a, left) → P a ∧ left = rest

theorem Decodes.decodesTo {r : Reader σ α} {enc : List σ} {a : α} (h : Decodes r enc a) :
    DecodesTo r enc (· = a) := by
  intro rest b left hrun
  rw [h] at hrun
  cases hrun
  exact ⟨rfl, rfl⟩

theorem DecodesTo.pure {P : α → Prop} {a : α} (h : P a) :
    DecodesTo (Pure.pure a : Reader σ α) [] P := by
  intro rest b left hrun
  cases hrun
  exact ⟨h, rfl⟩

theorem DecodesTo.bind {r : Reader σ α} {f : α → Reader σ β} {e₁ e₂ : List σ} {P : α → Prop}
    {Q : β → Prop} (h₁ : DecodesTo r e₁ P) (h₂ : ∀ a, P a → DecodesTo (f a) e₂ Q) :
    DecodesTo (r >>= f) (e₁ ++ e₂) Q := by
  intro rest b left hrun
  rw [StateT.run_bind, List.append_assoc] at hrun
  obtain ⟨⟨a, left₁⟩, hfirst, hsecond⟩ := Option.bind_eq_some_iff.1 hrun
  obtain ⟨hP, rfl⟩ := h₁ _ _ _ hfirst
  exact h₂ a hP rest b left hsecond

/-- A field that is surely read, and then the rest. -/
theorem Decodes.bind_to {r : Reader σ α} {f : α → Reader σ β} {e₁ e₂ : List σ} {a : α}
    {Q : β → Prop} (h₁ : Decodes r e₁ a) (h₂ : DecodesTo (f a) e₂ Q) :
    DecodesTo (r >>= f) (e₁ ++ e₂) Q :=
  h₁.decodesTo.bind fun _ hb ↦ hb ▸ h₂

/-- A last field followed by a pure conversion of what was read. -/
theorem DecodesTo.map {r : Reader σ α} {f : α → β} {e : List σ} {P : α → Prop} {Q : β → Prop}
    (h : DecodesTo r e P) (hf : ∀ a, P a → Q (f a)) :
    DecodesTo (r >>= fun x ↦ Pure.pure (f x)) e Q := by
  have := h.bind (f := fun x ↦ Pure.pure (f x)) fun a ha ↦ DecodesTo.pure (hf a ha)
  rwa [List.append_nil] at this

/-- A check holds wherever reading goes on. -/
theorem DecodesTo.check_bind {p : Prop} [Decidable p] {f : Unit → Reader σ β} {e : List σ}
    {Q : β → Prop} (h : p → DecodesTo (f ()) e Q) : DecodesTo (check p >>= f) e Q := by
  intro rest b left hrun
  by_cases hp : p
  · rw [Lib.check, if_pos hp, pure_bind] at hrun
    exact h hp rest b left hrun
  · rw [Lib.check, if_neg hp] at hrun
    cases hrun

theorem DecodesTo.remaining_bind {f : Nat → Reader σ β} {e : List σ} {Q : β → Prop}
    (h : ∀ n, DecodesTo (f n) e Q) : DecodesTo (remaining >>= f) e Q :=
  fun rest b left hrun ↦ h (e ++ rest).length rest b left hrun

/-- A list written element by element is read back element by element, or refused. -/
theorem DecodesTo.readMany {r : Reader σ α} {enc : β → List σ} {R : β → α → Prop} {xs : List β}
    (h : ∀ x ∈ xs, DecodesTo r (enc x) (R x)) :
    DecodesTo (readMany r xs.length) (xs.flatMap enc) (List.Forall₂ R xs) := by
  induction xs with
  | nil => exact DecodesTo.pure .nil
  | cons x xs ih =>
    have hxs := ih fun y hy ↦ h y (by simp [hy])
    rw [List.flatMap_cons]
    exact (h x (by simp)).bind fun y hy ↦ hxs.map fun ys hys ↦ .cons hy hys

/-! ## Two readers of one format -/

variable {γ δ : Type}

/-- Whatever `r` accepts, `r'` accepts too, reads as far, and gives something related by `R`. -/
def Follows (r : Reader σ α) (r' : Reader σ β) (R : α → β → Prop) : Prop :=
  ∀ input a rest, r.run input = some (a, rest) → ∃ b, r'.run input = some (b, rest) ∧ R a b

theorem Follows.pure {R : α → β → Prop} {a : α} {b : β} (h : R a b) :
    Follows (Pure.pure a : Reader σ α) (Pure.pure b) R := by
  intro input a' rest hrun
  cases hrun
  exact ⟨b, rfl, h⟩

theorem Follows.bind {r : Reader σ α} {r' : Reader σ β} {f : α → Reader σ γ} {f' : β → Reader σ δ}
    {R : α → β → Prop} {S : γ → δ → Prop} (h : Follows r r' R)
    (hf : ∀ a b, R a b → Follows (f a) (f' b) S) : Follows (r >>= f) (r' >>= f') S := by
  intro input c rest hrun
  rw [StateT.run_bind] at hrun ⊢
  obtain ⟨⟨a, left⟩, hfirst, hsecond⟩ := Option.bind_eq_some_iff.1 hrun
  obtain ⟨b, hb, hR⟩ := h input a left hfirst
  rw [hb]
  exact hf a b hR left c rest hsecond

/-- Both read the same thing next. -/
theorem Follows.same {r : Reader σ α} {f : α → Reader σ γ} {f' : α → Reader σ δ}
    {S : γ → δ → Prop} (hf : ∀ a, Follows (f a) (f' a) S) : Follows (r >>= f) (r >>= f') S :=
  Follows.bind (R := (· = ·)) (fun _ a _ hrun ↦ ⟨a, hrun, rfl⟩) fun a _ hab ↦ hab ▸ hf a

/-- A check only narrows what is accepted, and holds where the first reader went on. -/
theorem Follows.check {p : Prop} [Decidable p] {f : Unit → Reader σ γ} {r' : Reader σ δ}
    {S : γ → δ → Prop} (hf : p → Follows (f ()) r' S) : Follows (check p >>= f) r' S := by
  intro input c rest hrun
  by_cases hp : p
  · rw [Lib.check, if_pos hp, pure_bind] at hrun
    exact hf hp input c rest hrun
  · rw [Lib.check, if_neg hp] at hrun
    cases hrun

/-- How much is left is the first reader's own business. -/
theorem Follows.remaining {f : Nat → Reader σ γ} {r' : Reader σ δ} {S : γ → δ → Prop}
    (hf : ∀ n, Follows (f n) r' S) : Follows (remaining >>= f) r' S :=
  fun input c rest hrun ↦ hf input.length input c rest hrun

theorem Follows.readMany {r : Reader σ α} {r' : Reader σ β} {R : α → β → Prop}
    (h : Follows r r' R) (n : Nat) :
    Follows (readMany r n) (readMany r' n) (List.Forall₂ R) := by
  induction n with
  | zero => exact Follows.pure .nil
  | succ n ih =>
    refine h.bind fun a b hab ↦ ih.bind fun as bs habs ↦ ?_
    exact Follows.pure (.cons hab habs)

/-! ## Numbers on a fixed number of bytes -/

/-- The low `n` bytes of `x`, least significant first. -/
def leBytes : Nat → Nat → Bytes
  | 0, _ => []
  | n + 1, x => UInt8.ofNat x :: leBytes n (x / 256)

/-- The number a little-endian byte string spells. -/
def ofLeBytes : Bytes → Nat
  | [] => 0
  | b :: bs => b.toNat + 256 * ofLeBytes bs

/-- The low `n` bytes of `x`, most significant first. -/
def beBytes (n x : Nat) : Bytes := (leBytes n x).reverse

/-- The number a big-endian byte string spells. -/
def ofBeBytes (bs : Bytes) : Nat := ofLeBytes bs.reverse

@[simp] theorem length_leBytes (n x : Nat) : (leBytes n x).length = n := by
  induction n generalizing x with
  | zero => rfl
  | succ n ih => simp [leBytes, ih]

@[simp] theorem length_beBytes (n x : Nat) : (beBytes n x).length = n := by
  simp [beBytes]

theorem ofLeBytes_leBytes {n x : Nat} (h : x < 256 ^ n) : ofLeBytes (leBytes n x) = x := by
  induction n generalizing x with
  | zero => simp_all [leBytes, ofLeBytes]
  | succ n ih =>
    have hq : x / 256 < 256 ^ n := by
      rw [pow_succ] at h
      exact Nat.div_lt_of_lt_mul (by omega)
    rw [leBytes, ofLeBytes, ih hq, UInt8.toNat_ofNat']
    omega

theorem ofBeBytes_beBytes {n x : Nat} (h : x < 256 ^ n) : ofBeBytes (beBytes n x) = x := by
  rw [ofBeBytes, beBytes, List.reverse_reverse, ofLeBytes_leBytes h]

theorem beBytes_inj {n x y : Nat} (hx : x < 256 ^ n) (hy : y < 256 ^ n)
    (h : beBytes n x = beBytes n y) : x = y := by
  rw [← ofBeBytes_beBytes hx, ← ofBeBytes_beBytes hy, h]

theorem leBytes_inj {n x y : Nat} (hx : x < 256 ^ n) (hy : y < 256 ^ n)
    (h : leBytes n x = leBytes n y) : x = y := by
  rw [← ofLeBytes_leBytes hx, h, ofLeBytes_leBytes hy]

end Lib
end EosMesh
