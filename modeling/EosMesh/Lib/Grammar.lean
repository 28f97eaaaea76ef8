import Mathlib

/-!
# Parsers that accept exactly a grammar

A parser takes a value off the front of its input, and leaves the rest or fails with an error.  A
grammar relates texts to the values they denote.

* `Reads p G Stop` holds a parser to a grammar in both directions: what it took is a text of `G`
  (`sound`), and a text of `G` is taken whatever follows, as long as what follows is a `Stop`
  (`complete`): a number, say, does not end before another digit.
* `skipBlanks` steps over blanks; `Padded` is a text behind some.
* `readItems` is the loop over items between commas, up to a closing bracket.  An item may be
  refused for those read before it, which `Admitted` records; `readItems_sound` and
  `readItems_complete` are the two directions for `Items`.
* `admitted_length_iff` and `admitted_key_iff` are two such restrictions: a limit on their number,
  and keys that may not repeat.
-/

set_option autoImplicit false

namespace EosMesh
namespace Lib

/-- A parser: an error, or a value and what is left unread. -/
abbrev Parse (σ ε α : Type) := List σ → Except ε (α × List σ)

variable {σ ε α β : Type}

/-- `p` takes exactly the texts of `G` off the front of its input. -/
structure Reads (p : Parse σ ε α) (G : List σ → α → Prop) (Stop : List σ → Prop) : Prop where
  sound : ∀ {input a rest}, p input = .ok (a, rest) → ∃ text, input = text ++ rest ∧ G text a
  complete : ∀ {text a rest}, G text a → Stop rest → p (text ++ rest) = .ok (a, rest)

theorem bind_eq_ok {x : Except ε α} {f : α → Except ε β} {b : β} (h : x >>= f = .ok b) :
    ∃ a, x = .ok a ∧ f a = .ok b := by
  cases x with
  | error e => cases h
  | ok a => exact ⟨a, rfl, h⟩

/-! ## Blanks -/

/-- Step over blanks. -/
def skipBlanks (blank : σ → Bool) (input : List σ) : List σ := input.dropWhile blank

/-- Nothing but blanks. -/
def AllBlank (blank : σ → Bool) (text : List σ) : Prop := ∀ c ∈ text, blank c = true

section Blanks

variable {blank : σ → Bool}

theorem AllBlank.nil : AllBlank blank ([] : List σ) := fun _ h ↦ absurd h List.not_mem_nil

theorem AllBlank.append {a b : List σ} (ha : AllBlank blank a) (hb : AllBlank blank b) :
    AllBlank blank (a ++ b) := fun c hc ↦ (List.mem_append.1 hc).elim (ha c) (hb c)

theorem skipBlanks_split (input : List σ) :
    ∃ before, AllBlank blank before ∧ input = before ++ skipBlanks blank input := by
  refine ⟨input.takeWhile blank, fun c hc ↦ List.mem_takeWhile_imp hc, ?_⟩
  exact List.takeWhile_append_dropWhile.symm

theorem skipBlanks_cons_of_not {c : σ} (hc : blank c = false) (rest : List σ) :
    skipBlanks blank (c :: rest) = c :: rest :=
  List.dropWhile_cons_of_neg (by rw [hc]; decide)

theorem skipBlanks_append {before : List σ} (h : AllBlank blank before) (rest : List σ) :
    skipBlanks blank (before ++ rest) = skipBlanks blank rest := by
  induction before with
  | nil => rfl
  | cons c before ih =>
    have hc := h c List.mem_cons_self
    rw [skipBlanks, List.cons_append, List.dropWhile_cons_of_pos hc]
    exact ih fun d hd ↦ h d (List.mem_cons_of_mem c hd)

theorem skipBlanks_of_allBlank {text : List σ} (h : AllBlank blank text) :
    skipBlanks blank text = [] := by
  have := skipBlanks_append h []
  rwa [List.append_nil] at this

theorem allBlank_of_skipBlanks {text : List σ} (h : skipBlanks blank text = []) :
    AllBlank blank text := by
  obtain ⟨before, hbefore, heq⟩ := skipBlanks_split text
  rw [h, List.append_nil] at heq
  rwa [heq]

end Blanks

/-- A text of `G` behind some blanks. -/
def Padded (blank : σ → Bool) (G : List σ → α → Prop) (text : List σ) (a : α) : Prop :=
  ∃ before core, AllBlank blank before ∧ text = before ++ core ∧ G core a

theorem Padded.prepend {blank : σ → Bool} {G : List σ → α → Prop} {before text : List σ} {a : α}
    (hbefore : AllBlank blank before) (h : Padded blank G text a) :
    Padded blank G (before ++ text) a := by
  obtain ⟨inner, core, hinner, rfl, hcore⟩ := h
  exact ⟨before ++ inner, core, hbefore.append hinner, (List.append_assoc ..).symm, hcore⟩

/-! ## Items between commas -/

section Items

variable (blank : σ → Bool) (comma close : σ)

/-- One item or more, with a comma between two of them and the closing bracket behind the last. -/
inductive Items (G : List σ → α → Prop) : List σ → List α → Prop
  | last {text after : List σ} {a : α} (ha : G text a) (hafter : AllBlank blank after) :
    Items G (text ++ after ++ [close]) [a]
  | more {text after rest : List σ} {a : α} {as : List α} (ha : G text a)
    (hafter : AllBlank blank after) (has : Items G rest as) :
    Items G (text ++ after ++ comma :: rest) (a :: as)

/-- The loop: an item, then a comma and on, or the bracket.  Every round takes something off the
input, so `rounds` beyond its length are never used. -/
def readItems [DecidableEq σ] (item : List α → Parse σ ε α) (unterminated expected : ε) :
    (rounds : Nat) → List α → Parse σ ε (List α)
  | 0, _, _ => .error unterminated
  | rounds + 1, items, input => do
    let (a, rest) ← item items input
    match skipBlanks blank rest with
    | [] => .error unterminated
    | c :: rest =>
      if c = comma then readItems item unterminated expected rounds (items ++ [a]) rest
      else if c = close then .ok (items ++ [a], rest)
      else .error expected

/-- Each of `as` may come after those before it, which follow `acc`. -/
def Admitted (OK : List α → α → Prop) : (acc as : List α) → Prop
  | _, [] => True
  | acc, a :: as => OK acc a ∧ Admitted OK (acc ++ [a]) as

variable {blank comma close}

theorem Items.ne_nil {G : List σ → α → Prop} {text : List σ} {as : List α}
    (h : Items blank comma close G text as) : as ≠ [] := by
  cases h <;> exact List.cons_ne_nil _ _

/-- What stands in front of the first item. -/
theorem Items.prepend {G : List σ → α → Prop} {before text : List σ} {as : List α}
    (hbefore : AllBlank blank before) (h : Items blank comma close (Padded blank G) text as) :
    Items blank comma close (Padded blank G) (before ++ text) as := by
  cases h with
  | last ha hafter =>
    rw [← List.append_assoc, ← List.append_assoc]
    exact .last (ha.prepend hbefore) hafter
  | more ha hafter has =>
    rw [← List.append_assoc, ← List.append_assoc]
    exact .more (ha.prepend hbefore) hafter has

/-- The first item, without the blanks in front of it. -/
theorem Items.strip {G : List σ → α → Prop} {text : List σ} {as : List α}
    (h : Items blank comma close (Padded blank G) text as) :
    ∃ before core rest a, AllBlank blank before ∧ text = before ++ (core ++ rest) ∧ G core a ∧
      Items blank comma close (Padded blank G) (core ++ rest) as := by
  cases h with
  | @last text after a ha hafter =>
    obtain ⟨before, core, hbefore, rfl, hcore⟩ := ha
    refine ⟨before, core, after ++ [close], a, hbefore, ?_, hcore, ?_⟩
    · simp only [List.append_assoc]
    · rw [← List.append_assoc]
      exact .last ⟨[], core, .nil, rfl, hcore⟩ hafter
  | @more text after rest a as ha hafter has =>
    obtain ⟨before, core, hbefore, rfl, hcore⟩ := ha
    refine ⟨before, core, after ++ comma :: rest, a, hbefore, ?_, hcore, ?_⟩
    · simp only [List.append_assoc]
    · rw [← List.append_assoc]
      exact .more ⟨[], core, .nil, rfl, hcore⟩ hafter has

variable [DecidableEq σ] {item : List α → Parse σ ε α} {unterminated expected : ε}
  {G : List σ → α → Prop} {OK : List α → α → Prop} {Stop : List σ → Prop}

theorem readItems_sound
    (hitem : ∀ acc, Reads (item acc) (fun text a ↦ OK acc a ∧ G text a) Stop)
    {rounds : Nat} {acc items : List α} {input rest : List σ}
    (h : readItems blank comma close item unterminated expected rounds acc input =
      .ok (items, rest)) :
    ∃ text as, input = text ++ rest ∧ items = acc ++ as ∧ Items blank comma close G text as ∧
      Admitted OK acc as := by
  induction rounds generalizing acc input with
  | zero => cases h
  | succ rounds ih =>
    obtain ⟨⟨a, left⟩, ha, hrun⟩ := bind_eq_ok h
    obtain ⟨text, rfl, hok, hG⟩ := (hitem acc).sound ha
    obtain ⟨after, hafter, hleft⟩ := skipBlanks_split left
    dsimp only at hrun
    split at hrun
    · cases hrun
    · rename_i c more hmore
      rw [hmore] at hleft
      split_ifs at hrun with hcomma hclose
      · obtain ⟨text', as, rfl, rfl, hitems, hadmitted⟩ := ih hrun
        refine ⟨text ++ after ++ comma :: text', a :: as, ?_, ?_, .more hG hafter hitems, hok,
          hadmitted⟩
        · rw [hleft, hcomma]
          simp only [List.append_assoc, List.cons_append]
        · rw [List.append_assoc, List.singleton_append]
      · cases hrun
        refine ⟨text ++ after ++ [close], [a], ?_, rfl, .last hG hafter, hok, trivial⟩
        rw [hleft, hclose]
        simp only [List.append_assoc, List.cons_append, List.nil_append]

theorem readItems_complete
    (hitem : ∀ acc, Reads (item acc) (fun text a ↦ OK acc a ∧ G text a) Stop)
    (hcomma : blank comma = false) (hclose : blank close = false) (hne : close ≠ comma)
    (hstop : ∀ after c rest, AllBlank blank after → c = comma ∨ c = close →
    Stop (after ++ c :: rest))
    {rounds : Nat} {acc as : List α} {text rest : List σ}
    (hitems : Items blank comma close G text as) (hadmitted : Admitted OK acc as)
    (hrounds : text.length ≤ rounds) :
    readItems blank comma close item unterminated expected rounds acc (text ++ rest) =
      .ok (acc ++ as, rest) := by
  induction hitems generalizing acc rounds with
  | @last text after a ha hafter =>
    obtain _ | rounds := rounds
    · simp only [List.length_append, List.length_singleton] at hrounds
      omega
    have hread : item acc (text ++ (after ++ close :: rest)) = .ok (a, after ++ close :: rest) :=
      (hitem acc).complete ⟨hadmitted.1, ha⟩ (hstop after close rest hafter (.inr rfl))
    have hinput : text ++ after ++ [close] ++ rest = text ++ (after ++ close :: rest) := by
      simp only [List.append_assoc, List.cons_append, List.nil_append]
    rw [hinput, readItems, hread]
    change (match skipBlanks blank (after ++ close :: rest) with
      | [] => _
      | c :: rest => _) = _
    rw [skipBlanks_append hafter, skipBlanks_cons_of_not hclose]
    dsimp only
    rw [if_neg hne, if_pos rfl]
  | @more text after more a as ha hafter _ ih =>
    obtain _ | rounds := rounds
    · simp only [List.length_append, List.length_cons] at hrounds
      omega
    have hread : item acc (text ++ (after ++ comma :: (more ++ rest))) =
        .ok (a, after ++ comma :: (more ++ rest)) :=
      (hitem acc).complete ⟨hadmitted.1, ha⟩ (hstop after comma (more ++ rest) hafter (.inl rfl))
    have hinput : text ++ after ++ comma :: more ++ rest =
        text ++ (after ++ comma :: (more ++ rest)) := by
      simp only [List.append_assoc, List.cons_append]
    rw [hinput, readItems, hread]
    change (match skipBlanks blank (after ++ comma :: (more ++ rest)) with
      | [] => _
      | c :: rest => _) = _
    rw [skipBlanks_append hafter, skipBlanks_cons_of_not hcomma]
    dsimp only
    have hshorter : more.length ≤ rounds := by
      simp only [List.length_append, List.length_cons] at hrounds
      omega
    rw [if_pos rfl, ih hadmitted.2 hshorter, List.append_assoc, List.singleton_append]

end Items

/-! ## Restrictions on the items -/

theorem admitted_length_iff {n : Nat} {acc as : List α} (hacc : acc.length ≤ n) :
    Admitted (fun acc _ ↦ acc.length < n) acc as ↔ acc.length + as.length ≤ n := by
  induction as generalizing acc with
  | nil => exact ⟨fun _ ↦ hacc, fun _ ↦ trivial⟩
  | cons a as ih =>
    constructor
    · rintro ⟨hlt, hrest⟩
      have := (@ih (acc ++ [a]) (by simpa using hlt)).1 hrest
      simp only [List.length_append, List.length_cons, List.length_nil] at this ⊢
      omega
    · intro hle
      rw [List.length_cons] at hle
      refine ⟨by omega, (@ih (acc ++ [a]) (by simp; omega)).2 ?_⟩
      simp only [List.length_append, List.length_cons, List.length_nil]
      omega

theorem admitted_key_iff {κ : Type} {key : α → κ} {acc as : List α} (hacc : (acc.map key).Nodup) :
    Admitted (fun acc a ↦ key a ∉ acc.map key) acc as ↔ ((acc ++ as).map key).Nodup := by
  induction as generalizing acc with
  | nil =>
    rw [List.append_nil]
    exact ⟨fun _ ↦ hacc, fun _ ↦ trivial⟩
  | cons a as ih =>
    have hsplit : acc ++ a :: as = (acc ++ [a]) ++ as := by simp
    have hnodup : ((acc ++ [a]).map key).Nodup ↔ key a ∉ acc.map key := by
      rw [List.map_append, List.map_singleton, List.nodup_append_comm, List.singleton_append,
        List.nodup_cons]
      exact ⟨fun h ↦ h.1, fun h ↦ ⟨h, hacc⟩⟩
    constructor
    · rintro ⟨hnew, hrest⟩
      rw [hsplit]
      exact (ih (hnodup.2 hnew)).1 hrest
    · intro h
      rw [hsplit] at h
      have hfirst : ((acc ++ [a]).map key).Nodup := by
        rw [List.map_append] at h
        exact (List.nodup_append.1 h).1
      exact ⟨hnodup.1 hfirst, (ih hfirst).2 h⟩

end Lib
end EosMesh
