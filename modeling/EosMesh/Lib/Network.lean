import EosMesh.Lib.Run

/-!
# Parties that write to one another

The same program runs in several places, each with a state of its own.  What a party writes to
another goes on a link, which keeps the order; a link may be cut, and then what was written last
does not arrive.  Everything else is left to the run: when each party acts, and when it hears what.

* `Program` is what runs, `Network` where all of it stands, and `Network.step` what can happen.
* `Network.Sound.step` is the rule: what every party keeps, as long as it hears nothing but what is
  fair, all of them keep, if they write nothing but what is fair.
-/

set_option autoImplicit false

namespace EosMesh
namespace Lib

variable {κ σ ι μ : Type} [DecidableEq κ]

/-- A program that runs in places `κ`: its states, the inputs it takes, and its letters. -/
structure Program (κ σ ι μ : Type) where
  step : σ → ι → Option σ
  /-- It takes in a letter of another party. -/
  hear : σ → κ → μ → Option σ
  /-- What it wrote, and to whom, the oldest first. -/
  outbox : σ → List (κ × μ)
  emptied : σ → σ

/-- Where all parties stand, and what is on its way from one to another, the oldest first. -/
structure Network (κ σ μ : Type) where
  party : κ → σ
  link : κ → κ → List μ

namespace Network

/-- What happens in a network. -/
inductive Event (κ ι : Type)
  | act (party : κ) (i : ι)
  | deliver (source dest : κ)
  /-- Of what is on its way, only the first `kept` will arrive. -/
  | cut (source dest : κ) (kept : Nat)
  deriving DecidableEq, Repr

variable (P : Program κ σ ι μ) (net : Network κ σ μ)

/-- A link, replaced. -/
def setLink (source dest : κ) (letters : List μ) : Network κ σ μ :=
  { net with link := fun source' dest' ↦
      if source' = source ∧ dest' = dest then letters else net.link source' dest' }

/-- A party moves on, and what it wrote is on its way. -/
def post (name : κ) (s : σ) : Network κ σ μ where
  party other := if other = name then P.emptied s else net.party other
  link source dest :=
    if source = name then net.link source dest ++ ((P.outbox s).filter (·.1 = dest)).map Prod.snd
    else net.link source dest

/-- A party acts, a message arrives or a link is cut. -/
def step : Event κ ι → Option (Network κ σ μ)
  | .act name i => (P.step (net.party name) i).map (net.post P name)
  | .deliver source dest =>
    match net.link source dest with
    | [] => none
    | letter :: letters =>
      (P.hear (net.party dest) source letter).map ((net.setLink source dest letters).post P dest)
  | .cut source dest kept => some (net.setLink source dest ((net.link source dest).take kept))

variable {P net} {I : κ → σ → Prop} {Fair : κ → κ → μ → Prop}

/-- Every party is as it should be, and nothing is on its way that is not fair. -/
structure Sound (I : κ → σ → Prop) (Fair : κ → κ → μ → Prop) (net : Network κ σ μ) : Prop where
  party : ∀ name, I name (net.party name)
  link : ∀ source dest, ∀ letter ∈ net.link source dest, Fair source dest letter

theorem Sound.setLink (h : net.Sound I Fair) {source dest : κ} {letters : List μ}
    (hletters : letters ⊆ net.link source dest) :
    (net.setLink source dest letters).Sound I Fair where
  party := h.party
  link source' dest' letter hletter := by
    refine h.link source' dest' letter ?_
    dsimp only [Network.setLink] at hletter
    split at hletter
    · rename_i hsame
      rw [hsame.1, hsame.2]
      exact hletters hletter
    · exact hletter

theorem Sound.post (h : net.Sound I Fair) {name : κ} {s : σ} (hs : I name (P.emptied s))
    (hfair : ∀ letter ∈ P.outbox s, Fair name letter.1 letter.2) :
    (net.post P name s).Sound I Fair where
  party other := by
    dsimp only [Network.post]
    split
    · rename_i hother
      exact hother ▸ hs
    · exact h.party other
  link source dest letter hletter := by
    dsimp only [Network.post] at hletter
    split at hletter
    · rename_i hsource
      rcases List.mem_append.1 hletter with hold | hnew
      · exact h.link source dest letter hold
      · obtain ⟨p, hp, rfl⟩ := List.mem_map.1 hnew
        obtain ⟨hin, hdest⟩ := List.mem_filter.1 hp
        rw [hsource, ← of_decide_eq_true hdest]
        exact hfair p hin
    · exact h.link source dest letter hletter

/-- **The rule of a network**: what a party keeps, whatever it does and whatever fair letter it
hears, when it writes nothing but fair ones. -/
theorem Sound.step {guard : Network κ σ μ → Event κ ι → Prop}
    (hact : ∀ net name i s', guard net (.act name i) → I name (net.party name) →
      P.step (net.party name) i = some s' →
        I name (P.emptied s') ∧ ∀ letter ∈ P.outbox s', Fair name letter.1 letter.2)
    (hhear : ∀ name s source letter s', I name s → Fair source name letter →
      P.hear s source letter = some s' →
        I name (P.emptied s') ∧ ∀ letter ∈ P.outbox s', Fair name letter.1 letter.2)
    {e : Event κ ι} {net' : Network κ σ μ} (h : net.Sound I Fair) (hguard : guard net e)
    (hstep : net.step P e = some net') : net'.Sound I Fair := by
  cases e with
  | act name i =>
    obtain ⟨s', hs', rfl⟩ := Option.map_eq_some_iff.1 hstep
    obtain ⟨hI, hfair⟩ := hact net name i s' hguard (h.party name) hs'
    exact h.post hI hfair
  | deliver source dest =>
    rw [Network.step] at hstep
    split at hstep
    · cases hstep
    · rename_i letter letters hletters
      obtain ⟨s', hs', rfl⟩ := Option.map_eq_some_iff.1 hstep
      have hletter := h.link source dest letter (hletters ▸ List.mem_cons_self)
      obtain ⟨hI, hfair⟩ := hhear dest _ source letter s' (h.party dest) hletter hs'
      exact (h.setLink (hletters ▸ List.subset_cons_self _ _)).post hI hfair
  | cut source dest kept =>
    obtain rfl := Option.some.inj hstep
    exact h.setLink (List.take_subset _ _)

end Network
end Lib
end EosMesh
