import EosMesh.Lib.Run

/-!
# Drafts of a record

A record is what it says at each of its keys.  A draft is a copy of a record that is edited apart,
and committed later, when the record may have become another one.  What a commit should come to is
the record as it is by then, with what the draft's own edits touched in its place: `Draft.merged`.
What a system does that writes the whole copy back is `Draft.writtenBack`.

* `Draft.writtenBack_eq_merged_iff` says when the two are the same: nothing else has happened to the
  record since the draft was drawn, where the commit writes and the edits did not touch.
* `Drafting` runs a system with a note of every draft beside it, and `Drafting.fits_of_reaches` is
  the invariant rule for what the notes say.
-/

set_option autoImplicit false

namespace EosMesh
namespace Lib

/-! ## One draft -/

/-- What a draft was drawn from, and the keys its own edits touched since. -/
structure Draft (ρ κ : Type) where
  base : ρ
  touched : List κ := []
  deriving DecidableEq, Repr

namespace Draft

variable {ρ κ ν : Type}

/-- The draft once an edit touched more keys. -/
def touch (d : Draft ρ κ) (keys : List κ) : Draft ρ κ := { d with touched := d.touched ++ keys }

/-- Where its edits did not touch it, a draft says what it was drawn from. -/
def Of (view : ρ → κ → ν) (d : Draft ρ κ) (staged : ρ) : Prop :=
  ∀ key, key ∉ d.touched → view staged key = view d.base key

variable {view : ρ → κ → ν} {d : Draft ρ κ} {staged staged' : ρ}

theorem Of.drawn (base : ρ) : Of view { base } base := fun _ _ ↦ rfl

/-- An edit keeps to the keys it is said to touch. -/
theorem Of.touch (h : d.Of view staged) {keys : List κ}
    (hedit : ∀ key, key ∉ keys → view staged' key = view staged key) :
    (d.touch keys).Of view staged' := fun key hkey ↦ by
  obtain ⟨hold, hnew⟩ := not_or.1 (mt List.mem_append.2 hkey)
  exact (hedit key hnew).trans (h key hold)

variable [DecidableEq κ]

/-- What a record that says `now` should say once a draft of it is committed by someone who may
change the keys of `may`. -/
def merged (d : Draft ρ κ) (may : κ → Bool) (given now : κ → ν) : κ → ν := fun key ↦
  if key ∈ d.touched ∧ may key then given key else now key

/-- What a record says once what a draft says is written over it, at the keys of `writes`. -/
def writtenBack (writes : κ → Bool) (given now : κ → ν) : κ → ν := fun key ↦
  if writes key then given key else now key

/-- Where a commit writes and the edits did not touch, the record still says what the draft
was drawn from. -/
def UpToDate (d : Draft ρ κ) (writes : κ → Bool) (base now : κ → ν) : Prop :=
  ∀ key, key ∉ d.touched → writes key = true → now key = base key

/-- **Writing a draft back loses nothing exactly when the draft is up to date.** -/
theorem writtenBack_eq_merged_iff {may writes : κ → Bool} {given base now : κ → ν}
    (hgiven : ∀ key, key ∉ d.touched → given key = base key)
    (hmay : ∀ key ∈ d.touched, writes key = may key) :
    writtenBack writes given now = d.merged may given now ↔ d.UpToDate writes base now := by
  constructor
  · intro heq key hkey hwrites
    have hat := congrFun heq key
    rw [writtenBack, if_pos hwrites, merged, if_neg fun h ↦ hkey h.1] at hat
    exact hat.symm.trans (hgiven key hkey)
  · intro huptodate
    funext key
    rw [writtenBack, merged]
    by_cases hkey : key ∈ d.touched
    · simp [hkey, hmay key hkey]
    · by_cases hwrites : writes key = true
      · simp [hkey, hwrites, hgiven key hkey, huptodate key hkey hwrites]
      · simp [hkey, hwrites]

end Draft

/-! ## A system of drafts -/

/-- What a step is to the drafts: nothing, the drawing of one, or an edit of one. -/
inductive Mark (η ρ κ : Type)
  | none
  | draws (handle : η) (base : ρ)
  | touches (handle : η) (keys : List κ)

namespace Mark

variable {η ρ κ : Type} [DecidableEq η]

/-- The notes after a step. -/
def note (drafts : η → Option (Draft ρ κ)) : Mark η ρ κ → η → Option (Draft ρ κ)
  | none => drafts
  | draws handle base => Function.update drafts handle (some { base })
  | touches handle keys => Function.update drafts handle ((drafts handle).map (·.touch keys))

/-- What a step may do to what the drafts say, by what it is to them; any draft may be gone
after it. -/
def Allows (Fits : Draft ρ κ → ρ → Prop) (store store' : η → Option ρ) : Mark η ρ κ → Prop
  | none => ∀ h staged', store' h = some staged' → store h = some staged'
  | draws handle base => Fits { base } base ∧
      ∀ h staged', store' h = some staged' → if h = handle then staged' = base
        else store h = some staged'
  | touches handle keys => ∀ h staged', store' h = some staged' →
      if h = handle then ∃ staged, store h = some staged ∧
        ∀ d : Draft ρ κ, Fits d staged → Fits (d.touch keys) staged'
      else store h = some staged'

end Mark

/-- A system, with a note of every draft. -/
structure Drafting (σ η ρ κ : Type) where
  state : σ
  drafts : η → Option (Draft ρ κ)

namespace Drafting

variable {σ ι η ρ κ : Type} [DecidableEq η] (step : σ → ι → Option σ) (mark : σ → ι → Mark η ρ κ)

/-- Nothing is drawn yet. -/
def start (s : σ) : Drafting σ η ρ κ where
  state := s
  drafts _ := none

/-- A step of the system, noted. -/
def next (w : Drafting σ η ρ κ) (i : ι) : Option (Drafting σ η ρ κ) :=
  (step w.state i).map fun state ↦ { state, drafts := (mark w.state i).note w.drafts }

/-- Every draft there is has a note that fits it. -/
def Fitting (Fits : Draft ρ κ → ρ → Prop) (store : σ → η → Option ρ)
    (w : Drafting σ η ρ κ) : Prop :=
  ∀ h staged, store w.state h = some staged → ∃ d, w.drafts h = some d ∧ Fits d staged

variable {step mark} {Fits : Draft ρ κ → ρ → Prop} {store : σ → η → Option ρ}
  {w w' : Drafting σ η ρ κ} {i : ι}

omit [DecidableEq η] in
theorem Fitting.start {s : σ} (h : ∀ handle, store s handle = none) :
    (start s : Drafting σ η ρ κ).Fitting Fits store := fun handle staged hstaged ↦ by
  rw [Drafting.start, h] at hstaged
  cases hstaged

/-- What a step does to a draft, its note says. -/
theorem Fitting.next (h : w.Fitting Fits store)
    (hallows : ∀ s', step w.state i = some s' →
      (mark w.state i).Allows Fits (store w.state) (store s'))
    (hnext : next step mark w i = some w') : w'.Fitting Fits store := by
  obtain ⟨s', hs', rfl⟩ := Option.map_eq_some_iff.1 hnext
  intro handle staged' hstaged'
  have hallow := hallows s' hs'
  dsimp only at hstaged' ⊢
  cases hmark : mark w.state i with
  | none =>
    rw [hmark] at hallow
    exact h handle staged' (hallow handle staged' hstaged')
  | draws drawn base =>
    rw [hmark] at hallow
    have hat := hallow.2 handle staged' hstaged'
    rw [Mark.note, Function.update_apply]
    split at hat
    · rw [if_pos ‹_›, hat]
      exact ⟨_, rfl, hallow.1⟩
    · rw [if_neg ‹_›]
      exact h handle staged' hat
  | touches edited keys =>
    rw [hmark] at hallow
    have hat := hallow handle staged' hstaged'
    rw [Mark.note, Function.update_apply]
    split at hat
    · rename_i heq
      obtain ⟨staged, hstaged, hedit⟩ := hat
      obtain ⟨d, hd, hfits⟩ := h handle staged hstaged
      rw [if_pos heq, ← heq, hd]
      exact ⟨_, rfl, hedit d hfits⟩
    · rw [if_neg ‹_›]
      exact h handle staged' hat

end Drafting

end Lib
end EosMesh
