import EosMesh.Common.JsonDocuments
import EosMesh.Lib.Recency
import EosMesh.Lib.Run
import EosMesh.Lib.Table

/-!
# The labels of a trace

`core/label_registry.cpp`: the first time a token of a kind is seen it gets the next label of that
kind, and keeps it while the registry holds the token.  At the cap the token used least recently is
evicted, and gets another label if it is seen again.  The counter behind the labels has 32 bits and
the clock behind the recency 64.

Whoever reads a trace takes two labels for two tokens and one label for one token.  That is a
statement about all the answers there were, and not about the tokens that the registry still holds.

* `Answered` is a registry with the log of its answers, and `Bounded` what its users rely on: tokens
  held have labels of their own, a label never names a second token, there are no more tokens than
  the cap allows, and a token goes only for one that was used later.
* `coldest_least` is about the loop that picks the token to go, and `evict_lookup` what eviction
  leaves.
* `RegistryInv` ties the registry to the log: the entries are what the log makes of their tokens
  (`Logged`), and the counter is the number of labels minted.  `RegistryInv.step` is one call, by
  whether its token is held (`step_held`) or not (`step_minted`).
* `registry_one_to_one` is the result, for the runs in which no counter wraps (`WithinCounters`).

`label_reused` is a run in which one does.  It has more calls than can be evaluated, so what its
turns leave is an invariant of its own (`Turned`).
-/

set_option autoImplicit false

namespace EosMesh

open Lib
open Std (TreeMap)

/-! ## The registry -/

/-- The kinds of token that have labels. -/
inductive LabelKind
  | puid | eaid | account | session | lobby | socket | handle | notif
  deriving DecidableEq, Repr

/-- What the labels of a kind begin with. -/
def kindPrefix : LabelKind → Bytes
  | .puid => ascii "puid"
  | .eaid => ascii "eaid"
  | .account => ascii "account"
  | .session => ascii "session"
  | .lobby => ascii "lobby"
  | .socket => ascii "socket"
  | .handle => ascii "handle"
  | .notif => ascii "notif"

/-- `prefix#n`. -/
def labelText (kind : LabelKind) (n : Nat) : Bytes :=
  kindPrefix kind ++ '#'.toUInt8 :: (Nat.toDigits 10 n).map Char.toUInt8

/-- The label of a token, and when it was last asked for. -/
structure LabelEntry where
  text : Bytes
  /-- For eviction: the smallest is the coldest. -/
  lastSeen : UInt64
  deriving DecidableEq, Repr

/-- The tokens of one kind, and the number of the next label. -/
structure Bucket where
  tokens : TreeMap Bytes LabelEntry := {}
  nextIndex : UInt32 := 0

/-- A bucket is there from its first use on; before that it reads as an empty one. -/
structure LabelRegistry where
  maxPerKind : Nat
  buckets : LabelKind → Bucket := fun _ ↦ {}
  clock : UInt64 := 0

namespace LabelRegistry

/-- A registry with room for at least one token of each kind. -/
def create (maxPerKind : Nat) : LabelRegistry :=
  { maxPerKind := if maxPerKind > 0 then maxPerKind else 1 }

/-- The loop over the tokens: the first of those with the smallest stamp. -/
def coldest (tokens : TreeMap Bytes LabelEntry) : Option Bytes :=
  match tokens.toList with
  | [] => none
  | first :: rest =>
    some (rest.foldl (fun coldest i ↦
      if i.2.lastSeen < coldest.2.lastSeen then i else coldest) first).1

/-- Make room for one more token, at the cap. -/
def evict (maxPerKind : Nat) (tokens : TreeMap Bytes LabelEntry) : TreeMap Bytes LabelEntry :=
  if tokens.size ≥ maxPerKind then
    match coldest tokens with
    | none => tokens
    | some token => tokens.erase token
  else tokens

/-- The tokens of one kind, replaced, and the clock with them. -/
def setBucket (r : LabelRegistry) (kind : LabelKind) (b : Bucket) (clock : UInt64) :
    LabelRegistry :=
  { r with buckets := Function.update r.buckets kind b, clock }

/-- The label of a token, minted the first time; an empty token has none. -/
def label (r : LabelRegistry) (kind : LabelKind) (token : Bytes) : Bytes × LabelRegistry :=
  if token = [] then ([], r)
  else
    let b := r.buckets kind
    let clock := r.clock + 1
    match b.tokens[token]? with
    | some entry =>
      (entry.text,
        r.setBucket kind { b with tokens := b.tokens.insert token { entry with lastSeen := clock } }
          clock)
    | none =>
      let fresh : LabelEntry := { text := labelText kind b.nextIndex.toNat, lastSeen := clock }
      (fresh.text,
        r.setBucket kind
          { tokens := (evict r.maxPerKind b.tokens).insert token fresh
            nextIndex := b.nextIndex + 1 } clock)

theorem label_held {r : LabelRegistry} {kind : LabelKind} {token : Bytes} {entry : LabelEntry}
    (hne : token ≠ []) (h : (r.buckets kind).tokens[token]? = some entry) :
    r.label kind token = (entry.text, r.setBucket kind
      { r.buckets kind with
        tokens := (r.buckets kind).tokens.insert token { entry with lastSeen := r.clock + 1 } }
      (r.clock + 1)) := by
  rw [label, if_neg hne]
  dsimp only
  rw [h]

theorem label_minted {r : LabelRegistry} {kind : LabelKind} {token : Bytes} (hne : token ≠ [])
    (h : (r.buckets kind).tokens[token]? = none) :
    r.label kind token = (labelText kind (r.buckets kind).nextIndex.toNat, r.setBucket kind
      { tokens := (evict r.maxPerKind (r.buckets kind).tokens).insert token
          { text := labelText kind (r.buckets kind).nextIndex.toNat, lastSeen := r.clock + 1 }
        nextIndex := (r.buckets kind).nextIndex + 1 } (r.clock + 1)) := by
  rw [label, if_neg hne]
  dsimp only
  rw [h]

/-- Every token is forgotten; labels are given out anew. -/
def clear (r : LabelRegistry) : LabelRegistry := { r with buckets := fun _ ↦ {}, clock := 0 }

/-- How many tokens of a kind have a label. -/
def size (r : LabelRegistry) (kind : LabelKind) : Nat := (r.buckets kind).tokens.size

/-! ## Labels and eviction -/

theorem labelText_injective (kind : LabelKind) : Function.Injective (labelText kind) := by
  intro m n h
  have htail := List.append_cancel_left h
  injection htail with _ hdigits
  rw [← (toDigits_value m).1, hdigits, (toDigits_value n).1]

/-- By induction on what the loop has still to see: what it holds is the coldest seen. -/
theorem foldl_coldest (first : Bytes × LabelEntry) (rest : List (Bytes × LabelEntry)) :
    let found := rest.foldl (fun coldest i ↦
      if i.2.lastSeen < coldest.2.lastSeen then i else coldest) first
    found ∈ first :: rest ∧
      ∀ i ∈ first :: rest, found.2.lastSeen.toNat ≤ i.2.lastSeen.toNat := by
  induction rest generalizing first with
  | nil =>
    refine ⟨List.mem_cons_self, fun i hi ↦ ?_⟩
    rw [List.mem_singleton.1 hi]
    exact le_refl _
  | cons next rest ih =>
    dsimp only at ih ⊢
    rw [List.foldl_cons]
    by_cases hlt : next.2.lastSeen < first.2.lastSeen
    · rw [if_pos hlt]
      obtain ⟨hmem, hleast⟩ := ih next
      refine ⟨List.mem_cons_of_mem _ hmem, fun i hi ↦ ?_⟩
      rcases List.mem_cons.1 hi with rfl | hi
      · exact (hleast next List.mem_cons_self).trans (UInt64.lt_iff_toNat_lt.1 hlt).le
      · exact hleast i hi
    · rw [if_neg hlt]
      obtain ⟨hmem, hleast⟩ := ih first
      refine ⟨?_, fun i hi ↦ ?_⟩
      · rcases List.mem_cons.1 hmem with heq | hmem
        · rw [heq]
          exact List.mem_cons_self
        · exact List.mem_cons_of_mem _ (List.mem_cons_of_mem _ hmem)
      · rcases List.mem_cons.1 hi with rfl | hi
        · exact hleast i List.mem_cons_self
        · rcases List.mem_cons.1 hi with rfl | hi
          · have hfirst := hleast first List.mem_cons_self
            have hnot := UInt64.lt_iff_toNat_lt.not.1 hlt
            omega
          · exact hleast i (List.mem_cons_of_mem _ hi)

/-- **The loop finds a coldest token.** -/
theorem coldest_least {tokens : TreeMap Bytes LabelEntry} {token : Bytes}
    (h : coldest tokens = some token) :
    ∃ entry, tokens[token]? = some entry ∧
      ∀ (token' : Bytes) (entry' : LabelEntry), tokens[token']? = some entry' →
        entry.lastSeen.toNat ≤ entry'.lastSeen.toNat := by
  rw [coldest] at h
  split at h
  · cases h
  · rename_i first rest hlist
    cases h
    obtain ⟨hmem, hleast⟩ := foldl_coldest first rest
    rw [← hlist] at hmem hleast
    refine ⟨_, (mem_toList_iff_lookup tokens _ _).1 hmem, fun token' entry' hget ↦ ?_⟩
    exact hleast (token', entry') ((mem_toList_iff_lookup tokens _ _).2 hget)

theorem coldest_eq_none {tokens : TreeMap Bytes LabelEntry} (h : coldest tokens = none) :
    tokens.size = 0 := by
  rw [coldest] at h
  split at h
  · rename_i hlist
    rw [← TreeMap.length_toList, hlist, List.length_nil]
  · cases h

/-- What eviction leaves was there before, and what it takes is a coldest token, at the cap. -/
theorem evict_lookup (maxPerKind : Nat) (tokens : TreeMap Bytes LabelEntry) (token : Bytes) :
    (evict maxPerKind tokens)[token]? = tokens[token]? ∨
      (evict maxPerKind tokens)[token]? = none ∧ coldest tokens = some token := by
  rw [evict]
  split
  · split
    · exact .inl rfl
    · rename_i cold hcold
      rw [lookup_erase]
      by_cases heq : cold = token
      · subst heq
        exact .inr ⟨if_pos rfl, hcold⟩
      · rw [if_neg heq]
        exact .inl rfl
  · exact .inl rfl

theorem size_evict {maxPerKind : Nat} {tokens : TreeMap Bytes LabelEntry} (hcap : 0 < maxPerKind)
    (h : tokens.size ≤ maxPerKind) : (evict maxPerKind tokens).size < maxPerKind := by
  rw [evict]
  split
  · rename_i hfull
    split
    · rename_i hnone
      rw [coldest_eq_none hnone]
      exact hcap
    · rename_i cold hcold
      obtain ⟨entry, hget, -⟩ := coldest_least hcold
      have hmem : tokens.contains cold = true := (contains_iff_lookup _ _).2 ⟨entry, hget⟩
      rw [TreeMap.size_erase, if_pos hmem]
      omega
  · rename_i hroom
    omega

theorem size_insert_le (tokens : TreeMap Bytes LabelEntry) (token : Bytes) (entry : LabelEntry) :
    (tokens.insert token entry).size ≤ tokens.size + 1 := by
  rw [TreeMap.size_insert]
  split <;> omega

theorem buckets_setBucket (r : LabelRegistry) (kind kind' : LabelKind) (b : Bucket)
    (clock : UInt64) : (r.setBucket kind b clock).buckets kind' =
      if kind' = kind then b else r.buckets kind' := by
  rw [setBucket]
  by_cases h : kind' = kind
  · subst h
    rw [if_pos rfl]
    exact Function.update_self _ _ _
  · rw [if_neg h]
    exact Function.update_of_ne h _ _

end LabelRegistry

/-! ## The registry and its answers -/

/-- An answer: the kind, the token and its label. -/
abbrev Answer := LabelKind × Bytes × Bytes

/-- A registry, its answers since it was last cleared, newest first, and how many labels of each
kind it minted since then. -/
structure Answered where
  registry : LabelRegistry
  log : List Answer := []
  minted : LabelKind → Nat := fun _ ↦ 0

/-- The two calls of a registry. -/
inductive RegistryCall
  | label (kind : LabelKind) (token : Bytes)
  | clear
  deriving DecidableEq, Repr

namespace Answered

/-- The entry of a token that the registry holds. -/
def live (s : Answered) (kind : LabelKind) (token : Bytes) : Option LabelEntry :=
  (s.registry.buckets kind).tokens[token]?

/-- A call, with its answer in the log.  An empty token has no label. -/
def step (s : Answered) : RegistryCall → Option Answered
  | .label kind token =>
    if token = [] then some { s with registry := (s.registry.label kind token).2 }
    else
      some
        { registry := (s.registry.label kind token).2
          log := (kind, token, (s.registry.label kind token).1) :: s.log
          minted := match s.live kind token with
            | some _ => s.minted
            | none => Function.update s.minted kind (s.minted kind + 1) }
  | .clear => some { registry := s.registry.clear }

/-- The tokens as they were used, newest first. -/
def uses (log : List Answer) : List (LabelKind × Bytes) :=
  log.map fun answer ↦ (answer.1, answer.2.1)

/-- **A bounded one-to-one map.**  Two tokens held have two labels; a label answered never names a
second token; the bound holds; and a call leaves a token held its label, or takes the one of its
kind that was used least recently. -/
structure Bounded (s : Answered) : Prop where
  distinct : ∀ kind token token' entry entry', s.live kind token = some entry →
    s.live kind token' = some entry' → entry.text = entry'.text → token = token'
  named : ∀ kind token token' text, (kind, token, text) ∈ s.log → (kind, token', text) ∈ s.log →
    token = token'
  bounded : ∀ kind, s.registry.size kind ≤ s.registry.maxPerKind
  kept : ∀ kind token entry, s.live kind token = some entry →
    (kind, token, entry.text) ∈ s.log ∧ (s.registry.label kind token).1 = entry.text ∧
    ∀ kind' token' s', s.step (.label kind' token') = some s' →
      (∃ entry', s'.live kind token = some entry' ∧ entry'.text = entry.text) ∨
      s'.live kind token = none ∧ kind' = kind ∧
        ∀ other entry', s.live kind other = some entry' → other ≠ token →
          lastUse (uses s.log) (kind, token) < lastUse (uses s.log) (kind, other)

/-- No counter wraps: a label is minted while there is one left of its kind, and the clock has not
come to its end. -/
structure WithinCounters (s : Answered) (i : RegistryCall) : Prop where
  mints : ∀ kind token, i = .label kind token → token ≠ [] → s.live kind token = none →
    s.minted kind < 2 ^ 32
  calls : ∀ kind token, i = .label kind token → token ≠ [] → s.log.length + 1 < 2 ^ 64

/-! ### The invariant -/

/-- The entries of a bucket are what the log makes of their tokens. -/
def Logged (kind : LabelKind) (tokens : TreeMap Bytes LabelEntry) (log : List Answer) : Prop :=
  ∀ (token : Bytes) (entry : LabelEntry), tokens[token]? = some entry →
    (kind, token, entry.text) ∈ log ∧ entry.lastSeen.toNat = lastUse (uses log) (kind, token)

/-- What holds of every registry and the answers it has given. -/
structure RegistryInv (s : Answered) : Prop where
  clock : s.registry.clock.toNat = s.log.length
  index : ∀ kind, (s.registry.buckets kind).nextIndex = UInt32.ofNat (s.minted kind)
  given : ∀ kind token text, (kind, token, text) ∈ s.log →
    token ≠ [] ∧ ∃ n < s.minted kind, text = labelText kind n
  named : ∀ kind token token' text, (kind, token, text) ∈ s.log → (kind, token', text) ∈ s.log →
    token = token'
  logged : ∀ kind, Logged kind (s.registry.buckets kind).tokens s.log
  cap : 0 < s.registry.maxPerKind
  bounded : ∀ kind, (s.registry.buckets kind).tokens.size ≤ s.registry.maxPerKind

variable {s s' : Answered} {kind kind' : LabelKind} {token text : Bytes} {log : List Answer}
  {tokens tokens' : TreeMap Bytes LabelEntry}

/-- An answer about another token changes nothing for these. -/
theorem Logged.cons_of_ne (h : Logged kind tokens log) (hne : kind ≠ kind') :
    Logged kind tokens ((kind', token, text) :: log) := by
  intro token' entry hget
  obtain ⟨hmem, hseen⟩ := h token' entry hget
  refine ⟨List.mem_cons_of_mem _ hmem, hseen.trans ?_⟩
  exact (lastUse_cons_of_ne _ fun heq ↦ hne (Prod.mk.inj heq).1.symm).symm

/-- The token answered is stamped with the call; those beside it were there before. -/
theorem Logged.answer (h : Logged kind tokens log)
    (hothers : ∀ (other : Bytes) (entry : LabelEntry), other ≠ token →
      tokens'[other]? = some entry → tokens[other]? = some entry)
    (hown : ∀ entry : LabelEntry, tokens'[token]? = some entry →
      entry.text = text ∧ entry.lastSeen.toNat = log.length + 1) :
    Logged kind tokens' ((kind, token, text) :: log) := by
  intro other entry hget
  by_cases heq : other = token
  · subst heq
    obtain ⟨htext, hseen⟩ := hown entry hget
    refine ⟨by rw [htext]; exact List.mem_cons_self, hseen.trans ?_⟩
    rw [uses, List.map_cons, lastUse_cons_self, List.length_map]
  · obtain ⟨hmem, hseen⟩ := h other entry (hothers other entry heq hget)
    refine ⟨List.mem_cons_of_mem _ hmem, hseen.trans ?_⟩
    exact (lastUse_cons_of_ne _ fun hpair ↦ heq (Prod.mk.inj hpair).2.symm).symm

theorem registryInv_start (maxPerKind : Nat) :
    RegistryInv { registry := LabelRegistry.create maxPerKind } where
  clock := rfl
  index _ := rfl
  given _ _ _ h := nomatch h
  named _ _ _ _ h := nomatch h
  logged _ token entry h := by
    have hnone : ({} : TreeMap Bytes LabelEntry)[token]? = none := TreeMap.getElem?_emptyc
    exact nomatch hnone.symm.trans h
  cap := by
    rw [LabelRegistry.create]
    dsimp only
    split <;> omega
  bounded _ := Nat.zero_le _

/-- The state after a call for a token that is held. -/
theorem step_held {entry : LabelEntry} (hne : token ≠ []) (hlive : s.live kind token = some entry) :
    s.step (.label kind token) = some
      { registry := s.registry.setBucket kind
          { s.registry.buckets kind with
            tokens := (s.registry.buckets kind).tokens.insert token
              { entry with lastSeen := s.registry.clock + 1 } } (s.registry.clock + 1)
        log := (kind, token, entry.text) :: s.log
        minted := s.minted } := by
  rw [step, if_neg hne, LabelRegistry.label_held hne hlive, hlive]

/-- The state after a call for a token that is not. -/
theorem step_minted (hne : token ≠ []) (hlive : s.live kind token = none) :
    s.step (.label kind token) = some
      { registry := s.registry.setBucket kind
          { tokens := (LabelRegistry.evict s.registry.maxPerKind
              (s.registry.buckets kind).tokens).insert token
                { text := labelText kind (s.registry.buckets kind).nextIndex.toNat
                  lastSeen := s.registry.clock + 1 }
            nextIndex := (s.registry.buckets kind).nextIndex + 1 } (s.registry.clock + 1)
        log := (kind, token, labelText kind (s.registry.buckets kind).nextIndex.toNat) :: s.log
        minted := Function.update s.minted kind (s.minted kind + 1) } := by
  rw [step, if_neg hne, LabelRegistry.label_minted hne hlive, hlive]

theorem toNat_clock_succ {clock : UInt64} {n : Nat} (h : clock.toNat = n) (hlt : n + 1 < 2 ^ 64) :
    (clock + 1).toNat = n + 1 := by
  rw [UInt64.toNat_add, UInt64.toNat_one, h]
  exact Nat.mod_eq_of_lt hlt

theorem RegistryInv.held {entry : LabelEntry} (h : RegistryInv s) (hne : token ≠ [])
    (hlive : s.live kind token = some entry) (hcalls : s.log.length + 1 < 2 ^ 64)
    (hstep : s.step (.label kind token) = some s') : RegistryInv s' := by
  rw [step_held hne hlive] at hstep
  cases hstep
  have hmem := (h.logged kind token entry hlive).1
  have hclock := toNat_clock_succ h.clock hcalls
  refine ⟨hclock, fun k ↦ ?_, fun k t text hin ↦ ?_, fun k t t' text hin hin' ↦ ?_, fun k ↦ ?_,
    h.cap, fun k ↦ ?_⟩
  · rw [LabelRegistry.buckets_setBucket]
    split
    · rename_i heq
      subst heq
      exact h.index k
    · exact h.index k
  · rcases List.mem_cons.1 hin with heq | hin
    · cases heq
      exact h.given kind token entry.text hmem
    · exact h.given k t text hin
  · have hold {t : Bytes} (hin : (k, t, text) ∈ (kind, token, entry.text) :: s.log) :
        (k, t, text) ∈ s.log := by
      rcases List.mem_cons.1 hin with heq | hin
      · cases heq
        exact hmem
      · exact hin
    exact h.named k t t' text (hold hin) (hold hin')
  · rw [LabelRegistry.buckets_setBucket]
    split
    · rename_i heq
      subst heq
      refine (h.logged k).answer (fun other e hother hget ↦ ?_) fun e hget ↦ ?_
      · rwa [lookup_insert, if_neg hother.symm] at hget
      · rw [lookup_insert, if_pos rfl] at hget
        cases hget
        exact ⟨rfl, hclock⟩
    · rename_i hk
      exact (h.logged k).cons_of_ne hk
  · rw [LabelRegistry.buckets_setBucket]
    split
    · rename_i heq
      subst heq
      have hin : (s.registry.buckets k).tokens.contains token = true :=
        (contains_iff_lookup _ _).2 ⟨entry, hlive⟩
      rw [TreeMap.size_insert, if_pos hin]
      exact h.bounded k
    · exact h.bounded k

/-- The number of the next label, while there is one left. -/
theorem RegistryInv.toNat_nextIndex (h : RegistryInv s) (hmints : s.minted kind < 2 ^ 32) :
    (s.registry.buckets kind).nextIndex.toNat = s.minted kind := by
  rw [h.index kind, UInt32.toNat_ofNat']
  exact Nat.mod_eq_of_lt hmints

theorem RegistryInv.mint (h : RegistryInv s) (hne : token ≠ []) (hlive : s.live kind token = none)
    (hmints : s.minted kind < 2 ^ 32) (hcalls : s.log.length + 1 < 2 ^ 64)
    (hstep : s.step (.label kind token) = some s') : RegistryInv s' := by
  have hnext := h.toNat_nextIndex hmints
  rw [step_minted hne hlive, hnext] at hstep
  cases hstep
  have hclock := toNat_clock_succ h.clock hcalls
  -- A label that was answered has a smaller number than the new one.
  have hnew (t : Bytes) : (kind, t, labelText kind (s.minted kind)) ∉ s.log := fun hin ↦ by
    obtain ⟨-, n, hn, htext⟩ := h.given kind t _ hin
    exact absurd (LabelRegistry.labelText_injective kind htext) (by omega)
  refine ⟨hclock, fun k ↦ ?_, fun k t text hin ↦ ?_, fun k t t' text hin hin' ↦ ?_, fun k ↦ ?_,
    h.cap, fun k ↦ ?_⟩
  · rw [LabelRegistry.buckets_setBucket]
    dsimp only
    rw [Function.update_apply]
    split
    · rename_i heq
      subst heq
      dsimp only
      rw [h.index k]
      exact (UInt32.ofNat_add _ _).symm
    · exact h.index k
  · have hmore : s.minted k ≤ Function.update s.minted kind (s.minted kind + 1) k := by
      rw [Function.update_apply]
      split
      · rename_i heq
        rw [heq]
        exact Nat.le_succ _
      · exact le_refl _
    rcases List.mem_cons.1 hin with heq | hin
    · cases heq
      refine ⟨hne, s.minted kind, ?_, rfl⟩
      dsimp only
      rw [Function.update_self]
      exact Nat.lt_succ_self _
    · obtain ⟨hne', n, hn, htext⟩ := h.given k t text hin
      exact ⟨hne', n, hn.trans_le hmore, htext⟩
  · rcases List.mem_cons.1 hin with heq | hin
    · cases heq
      rcases List.mem_cons.1 hin' with heq | hin'
      · cases heq
        rfl
      · exact absurd hin' (hnew t')
    · rcases List.mem_cons.1 hin' with heq | hin'
      · cases heq
        exact absurd hin (hnew t)
      · exact h.named k t t' text hin hin'
  · rw [LabelRegistry.buckets_setBucket]
    split
    · rename_i heq
      subst heq
      refine (h.logged k).answer (fun other e hother hget ↦ ?_) fun e hget ↦ ?_
      · rw [lookup_insert, if_neg hother.symm] at hget
        rcases LabelRegistry.evict_lookup s.registry.maxPerKind
          (s.registry.buckets k).tokens other with hsame | ⟨hnone, -⟩
        · exact hsame.symm.trans hget
        · exact nomatch hnone.symm.trans hget
      · rw [lookup_insert, if_pos rfl] at hget
        cases hget
        exact ⟨rfl, hclock⟩
    · rename_i hk
      exact (h.logged k).cons_of_ne hk
  · rw [LabelRegistry.buckets_setBucket]
    split
    · rename_i heq
      subst heq
      have hroom := LabelRegistry.size_evict h.cap (h.bounded k)
      exact (LabelRegistry.size_insert_le _ _ _).trans hroom
    · exact h.bounded k

/-- **One call**, while no counter wraps. -/
theorem RegistryInv.step {i : RegistryCall} (h : RegistryInv s) (hwithin : WithinCounters s i)
    (hstep : s.step i = some s') : RegistryInv s' := by
  cases i with
  | clear =>
    cases hstep
    exact ⟨rfl, fun _ ↦ rfl, nofun, nofun, (registryInv_start 0).logged, h.cap,
      fun _ ↦ Nat.zero_le _⟩
  | label kind token =>
    by_cases hne : token = []
    · rw [Answered.step, if_pos hne, LabelRegistry.label, if_pos hne] at hstep
      cases hstep
      exact h
    · have hcalls := hwithin.calls kind token rfl hne
      cases hlive : s.live kind token with
      | none => exact h.mint hne hlive (hwithin.mints kind token rfl hne hlive) hcalls hstep
      | some entry => exact h.held hne hlive hcalls hstep

/-! ### What the invariant gives -/

/-- Two tokens that are held were not last used at one time. -/
theorem RegistryInv.seen_injective {token' : Bytes} {entry entry' : LabelEntry} (h : RegistryInv s)
    (hlive : s.live kind token = some entry) (hlive' : s.live kind token' = some entry')
    (hseen : entry.lastSeen.toNat = entry'.lastSeen.toNat) : token = token' := by
  obtain ⟨hmem, huse⟩ := h.logged kind token entry hlive
  obtain ⟨-, huse'⟩ := h.logged kind token' entry' hlive'
  have hused : lastUse (uses s.log) (kind, token) ≠ 0 :=
    lastUse_ne_zero (List.mem_map_of_mem (f := fun answer : Answer ↦ (answer.1, answer.2.1)) hmem)
  have hsame := lastUse_injective hused (huse.symm.trans (hseen.trans huse'))
  exact (Prod.mk.inj hsame).2

/-- The token that the loop picks was used before every other one. -/
theorem RegistryInv.coldest_used (h : RegistryInv s)
    (hcold : LabelRegistry.coldest (s.registry.buckets kind).tokens = some token) {other : Bytes}
    {entry' : LabelEntry} (hlive' : s.live kind other = some entry') (hne : other ≠ token) :
    lastUse (uses s.log) (kind, token) < lastUse (uses s.log) (kind, other) := by
  obtain ⟨entry, hlive, hleast⟩ := LabelRegistry.coldest_least hcold
  have hle := hleast other entry' hlive'
  rw [← (h.logged kind token entry hlive).2, ← (h.logged kind other entry' hlive').2]
  refine lt_of_le_of_ne hle fun hseen ↦ hne ?_
  exact (h.seen_injective hlive hlive' hseen).symm

/-- After a call for a token that was held, whatever was held still is, under its label. -/
theorem live_held {token' : Bytes} {entry entry' : LabelEntry} (hne : token' ≠ [])
    (hlive' : s.live kind' token' = some entry') (hstep : s.step (.label kind' token') = some s')
    (hlive : s.live kind token = some entry) :
    ∃ entry₁, s'.live kind token = some entry₁ ∧ entry₁.text = entry.text := by
  rw [step_held hne hlive'] at hstep
  cases hstep
  rw [live, LabelRegistry.buckets_setBucket]
  split
  · rename_i hk
    subst hk
    rw [lookup_insert]
    split
    · rename_i ht
      subst ht
      cases hlive.symm.trans hlive'
      exact ⟨_, rfl, rfl⟩
    · exact ⟨entry, hlive, rfl⟩
  · exact ⟨entry, hlive, rfl⟩

/-- After a call for a token that was not, all but the coldest of its kind are. -/
theorem live_minted {token' : Bytes} {entry : LabelEntry} (hne : token' ≠ [])
    (hlive' : s.live kind' token' = none) (hstep : s.step (.label kind' token') = some s')
    (hlive : s.live kind token = some entry) :
    s'.live kind token = some entry ∨ s'.live kind token = none ∧ kind' = kind ∧
      LabelRegistry.coldest (s.registry.buckets kind).tokens = some token := by
  rw [step_minted hne hlive'] at hstep
  cases hstep
  rw [live, LabelRegistry.buckets_setBucket]
  split
  · rename_i hk
    subst hk
    have hother : token' ≠ token := fun ht ↦ by
      subst ht
      cases hlive.symm.trans hlive'
    rw [lookup_insert, if_neg hother]
    rcases LabelRegistry.evict_lookup s.registry.maxPerKind (s.registry.buckets kind).tokens token
      with hsame | ⟨hnone, hcold⟩
    · exact .inl (hsame.trans hlive)
    · exact .inr ⟨hnone, rfl, hcold⟩
  · exact .inl hlive

theorem RegistryInv.to_bounded (h : RegistryInv s) : Bounded s where
  distinct kind token token' entry entry' hlive hlive' htext := by
    have hmem := (h.logged kind token entry hlive).1
    have hmem' := (h.logged kind token' entry' hlive').1
    rw [← htext] at hmem'
    exact h.named kind token token' entry.text hmem hmem'
  named := h.named
  bounded := h.bounded
  kept kind token entry hlive := by
    have hmem := (h.logged kind token entry hlive).1
    have hne : token ≠ [] := (h.given kind token entry.text hmem).1
    refine ⟨hmem, ?_, fun kind' token' s' hstep ↦ ?_⟩
    · rw [LabelRegistry.label_held hne hlive]
    · by_cases hempty : token' = []
      · rw [Answered.step, if_pos hempty, LabelRegistry.label, if_pos hempty] at hstep
        cases hstep
        exact .inl ⟨entry, hlive, rfl⟩
      · cases hlive' : s.live kind' token' with
        | some entry' => exact .inl (live_held hempty hlive' hstep hlive)
        | none =>
          rcases live_minted hempty hlive' hstep hlive with hsame | ⟨hnone, hk, hcold⟩
          · exact .inl ⟨entry, hsame, rfl⟩
          · refine .inr ⟨hnone, hk, fun other entry' hother hne' ↦ ?_⟩
            exact h.coldest_used hcold hother hne'

/-- **A bounded one-to-one map**, in every state of every run in which no counter wraps. -/
theorem registry_one_to_one (maxPerKind : Nat) (s : Answered)
    (h : Reaches step WithinCounters { registry := LabelRegistry.create maxPerKind } s) :
    Bounded s :=
  (h.invariant (registryInv_start maxPerKind) fun _ _ _ hinv hwithin hstep ↦
    hinv.step hwithin hstep).to_bounded

/-- At a cap of one, the second token takes the place of the first. -/
theorem registry_one_to_one_two : ∃ s : Answered, s.log.length = 2 ∧ Bounded s := by
  refine ⟨_, ?_, registry_one_to_one 1 _ ((Reaches.refl.tail (i := .label .puid [1]) ?_ rfl).tail
    (i := .label .puid [2]) ?_ rfl)⟩
  · rfl
  · exact ⟨fun _ _ _ _ _ ↦ Nat.two_pow_pos 32, fun _ _ _ _ ↦ by decide⟩
  · refine ⟨fun kind _ _ _ _ ↦ ?_, fun _ _ _ _ ↦ by decide⟩
    cases kind <;> decide

/-! ## A counter that wraps -/

/-- Three tokens in turn. -/
def turnToken (n : Nat) : Bytes := [UInt8.ofNat (n % 3)]

/-- A run of `n` calls that asks for the three tokens in turn. -/
def turns (n : Nat) : List RegistryCall :=
  (List.range n).map fun i ↦ .label .puid (turnToken i)

theorem turnToken_ne_succ (n : Nat) : turnToken n ≠ turnToken (n + 1) := by
  intro h
  have hbyte : (UInt8.ofNat (n % 3)).toNat = (UInt8.ofNat ((n + 1) % 3)).toNat :=
    congrArg UInt8.toNat (List.cons.inj h).1
  rw [UInt8.toNat_ofNat', UInt8.toNat_ofNat'] at hbyte
  omega

/-- Where `n` turns leave a registry with a cap of one: it holds the last token alone, and has
answered every one. -/
structure Turned (n : Nat) (s : Answered) : Prop where
  cap : s.registry.maxPerKind = 1
  bounded : (s.registry.buckets .puid).tokens.size ≤ 1
  last : ∀ token entry, s.live .puid token = some entry → ∃ i, i + 1 = n ∧ token = turnToken i
  index : (s.registry.buckets .puid).nextIndex = UInt32.ofNat n
  log : ∀ i < n, (.puid, turnToken i, labelText .puid (i % 2 ^ 32)) ∈ s.log

/-- Each turn mints a label, whatever was minted before. -/
theorem Turned.step {n : Nat} (h : Turned n s) :
    ∃ s', s.step (.label .puid (turnToken n)) = some s' ∧ Turned (n + 1) s' := by
  have hne : turnToken n ≠ [] := List.cons_ne_nil _ _
  have hlive : s.live .puid (turnToken n) = none := by
    cases hlive : s.live .puid (turnToken n) with
    | none => rfl
    | some entry =>
      obtain ⟨i, rfl, htoken⟩ := h.last _ entry hlive
      exact absurd htoken.symm (turnToken_ne_succ i)
  have hcap : 0 < s.registry.maxPerKind := h.cap ▸ Nat.one_pos
  have hroom := LabelRegistry.size_evict hcap (h.bounded.trans h.cap.ge)
  rw [h.cap] at hroom
  refine ⟨_, step_minted hne hlive, h.cap, ?_, fun token entry hget ↦ ?_, ?_, fun i hi ↦ ?_⟩
  · rw [LabelRegistry.buckets_setBucket, if_pos rfl, h.cap]
    exact (LabelRegistry.size_insert_le _ _ _).trans hroom
  · rw [live, LabelRegistry.buckets_setBucket, if_pos rfl, lookup_insert, h.cap] at hget
    split at hget
    · rename_i heq
      exact ⟨n, rfl, heq.symm⟩
    · have hin := (contains_iff_lookup _ _).2 ⟨entry, hget⟩
      have hempty : (LabelRegistry.evict 1 (s.registry.buckets .puid).tokens).isEmpty = true := by
        rw [TreeMap.isEmpty_eq_size_eq_zero]
        exact beq_iff_eq.2 (by omega)
      exact nomatch (TreeMap.contains_of_isEmpty hempty).symm.trans hin
  · rw [LabelRegistry.buckets_setBucket, if_pos rfl]
    dsimp only
    rw [h.index]
    exact (UInt32.ofNat_add _ _).symm
  · rcases Nat.lt_succ_iff_lt_or_eq.1 hi with hi | rfl
    · exact List.mem_cons_of_mem _ (h.log i hi)
    · dsimp only
      rw [h.index, UInt32.toNat_ofNat']
      exact List.mem_cons_self

theorem turned_run (n : Nat) :
    ∃ s, runInputs step { registry := LabelRegistry.create 1 } (turns n) = some s ∧
      Turned n s := by
  induction n with
  | zero =>
    refine ⟨_, rfl, rfl, Nat.zero_le _, fun token entry hget ↦ ?_, rfl, fun i hi ↦ ?_⟩
    · have hnone : ({} : TreeMap Bytes LabelEntry)[token]? = none := TreeMap.getElem?_emptyc
      exact nomatch hnone.symm.trans hget
    · exact absurd hi (Nat.not_lt_zero i)
  | succ n ih =>
    obtain ⟨s, hrun, hturned⟩ := ih
    obtain ⟨s', hstep, hturned'⟩ := hturned.step
    refine ⟨s', ?_, hturned'⟩
    rw [turns, List.range_succ, List.map_append, List.map_singleton]
    refine (runInputs_append hrun _).trans ?_
    rw [runInputs, hstep]
    rfl

/-- **A label is used again**: the call after the `2 ^ 32`nd mints the first label a second time,
for another token. -/
theorem label_reused :
    ∃ s, runInputs step { registry := LabelRegistry.create 1 } (turns (2 ^ 32 + 1)) = some s ∧
      ¬ Bounded s := by
  obtain ⟨s, hrun, hturned⟩ := turned_run (2 ^ 32 + 1)
  refine ⟨s, hrun, fun hbounded ↦ ?_⟩
  have hfirst := hturned.log 0 (Nat.succ_pos _)
  have hagain := hturned.log (2 ^ 32) (Nat.lt_succ_self _)
  rw [Nat.zero_mod] at hfirst
  rw [Nat.mod_self] at hagain
  have hsame := hbounded.named .puid _ _ _ hfirst hagain
  exact absurd hsame (by decide)

end Answered
end EosMesh
