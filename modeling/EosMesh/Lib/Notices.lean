import EosMesh.Lib.Run

/-!
# Changes told to listeners

Something changes now and then, and whoever listens is told on the next frame.  A frame takes what
is due and tells it one change after the other, each to those who listen by then; whoever is told
may act in between, so that more falls due, and listeners come and go, before the next one is told.

* `Leads` chains changes: each says what was there before it.
* `Notices` is what is due, who listens, and where a frame stands; `Notices.Move` is all that can
  happen to it.
* `Notices.keeps_up` is the result: what a listener heard and is still owed leads from the status
  when it began to listen to the one there is.  It needs frames that do not start inside one
  another: the inner one would tell what came later first.
-/

set_option autoImplicit false

namespace EosMesh
namespace Lib

/-! ## Chains of changes -/

/-- What was at a key, and what is there now. -/
structure Change (κ ν : Type) where
  key : κ
  previous : ν
  current : ν
  deriving DecidableEq, Repr

section Leads

variable {κ ν : Type} [DecidableEq κ] {status status' status'' : κ → ν}
  {changes changes' : List (Change κ ν)}

/-- The changes take one status to the other, and each of them is one. -/
def Leads (status : κ → ν) : List (Change κ ν) → (κ → ν) → Prop
  | [], status' => status = status'
  | change :: rest, status' => status change.key = change.previous ∧
      change.previous ≠ change.current ∧
      Leads (Function.update status change.key change.current) rest status'

theorem Leads.append (h : Leads status changes status') (h' : Leads status' changes' status'') :
    Leads status (changes ++ changes') status'' := by
  induction changes generalizing status with
  | nil =>
    cases h
    exact h'
  | cons change rest ih => exact ⟨h.1, h.2.1, ih h.2.2⟩

end Leads

/-! ## Listeners -/

/-- A change being told, who is still to hear it, and what comes after it. -/
structure Round (κ : Type) where
  telling : κ
  left : List Nat
  rest : List κ

/-- `rounds` are the frames under way, the innermost first; `heard` is what was told, and to
whom. -/
structure Notices (τ κ : Type) where
  pending : List κ := []
  listeners : List (Nat × τ) := []
  next : Nat := 1
  rounds : List (Round κ) := []
  heard : List (Nat × κ) := []

namespace Notices

variable {τ κ : Type} (reaches : τ → κ → Bool) (n : Notices τ κ)

/-- A change waits for the next frame. -/
def push (change : κ) : Notices τ κ := { n with pending := n.pending ++ [change] }

/-- Ids are handed out once. -/
def add (kind : τ) : Notices τ κ :=
  { n with listeners := n.listeners ++ [(n.next, kind)], next := n.next + 1 }

/-- A listener is taken back, also in the middle of a frame. -/
def remove (id : Nat) : Notices τ κ :=
  { n with listeners := n.listeners.filter (·.1 ≠ id) }

/-- An id goes to a listener of something else. -/
def skip : Notices τ κ := { n with next := n.next + 1 }

/-- Who listens to a change. -/
def audience (change : κ) : List Nat :=
  (n.listeners.filter fun listener ↦ reaches listener.2 change).map (·.1)

/-- A frame takes all that is due. -/
def frame : Notices τ κ :=
  match n.pending with
  | [] => n
  | change :: rest =>
    { n with pending := [], rounds := ⟨change, n.audience reaches change, rest⟩ :: n.rounds }

/-- The innermost frame goes on: it tells the next one who still listens, turns to the next change,
or ends. -/
def advance : Option (Notices τ κ) :=
  match n.rounds with
  | [] => none
  | ⟨telling, id :: left, rest⟩ :: outer =>
    if id ∈ n.listeners.map (·.1) then
      some { n with
        rounds := ⟨telling, left, rest⟩ :: outer
        heard := n.heard ++ [(id, telling)] }
    else some { n with rounds := ⟨telling, left, rest⟩ :: outer }
  | ⟨_, [], change :: rest⟩ :: outer =>
    some { n with rounds := ⟨change, n.audience reaches change, rest⟩ :: outer }
  | ⟨_, [], []⟩ :: outer => some { n with rounds := outer }

/-- Nothing is due, and nothing under way. -/
def Idle : Prop := n.rounds = [] ∧ n.pending = []

instance : Decidable n.Idle := inferInstanceAs (Decidable (_ ∧ _))

/-- What a listener was told, in order. -/
def heardBy (id : Nat) : List κ := (n.heard.filter (·.1 = id)).map (·.2)

/-- What a frame still has for a listener. -/
def Round.owes (id : Nat) (kind : τ) (round : Round κ) : List κ :=
  (if id ∈ round.left then [round.telling] else []) ++ round.rest.filter (reaches kind)

/-- What a listener is still to hear. -/
def owed (id : Nat) (kind : τ) : List κ :=
  n.rounds.flatMap (Round.owes reaches id kind) ++ n.pending.filter (reaches kind)

/-- All that can happen to the notices, with what falls due by it. -/
inductive Move : List κ → Notices τ κ → Prop
  | still : Move [] n
  | pushed (change : κ) : Move [change] (n.push change)
  | added (kind : τ) : Move [] (n.add kind)
  | removed (id : Nat) : Move [] (n.remove id)
  | skipped : Move [] n.skip
  | framed (h : n.rounds = []) : Move [] (n.frame reaches)
  | advanced {n' : Notices τ κ} (h : n.advance reaches = some n') : Move [] n'

/-- Ids are not given twice, and nobody is told a change twice. -/
structure Tidy : Prop where
  once : (n.listeners.map (·.1)).Nodup
  given : ∀ id ∈ n.listeners.map (·.1), id < n.next
  rounds : ∀ round ∈ n.rounds, round.left.Nodup ∧ ∀ id ∈ round.left, id < n.next
  heard : ∀ told ∈ n.heard, told.1 < n.next

variable {reaches n} {n' : Notices τ κ} {said : List κ} {id : Nat} {kind : τ}

theorem tidy_start : ({} : Notices τ κ).Tidy where
  once := List.nodup_nil
  given := by simp
  rounds := by simp
  heard := by simp

theorem audience_sublist (change : κ) :
    List.Sublist (n.audience reaches change) (n.listeners.map (·.1)) :=
  List.filter_sublist.map _

theorem Tidy.mem_audience (h : n.Tidy) (hlisted : (id, kind) ∈ n.listeners) (change : κ) :
    id ∈ n.audience reaches change ↔ reaches kind change = true := by
  rw [audience]
  constructor
  · intro hid
    obtain ⟨listener, hmem, hsame⟩ := List.mem_map.1 hid
    obtain ⟨hlistener, hreaches⟩ := List.mem_filter.1 hmem
    have hself : listener = (id, kind) := List.inj_on_of_nodup_map h.once hlistener hlisted hsame
    rwa [hself] at hreaches
  · intro hreaches
    exact List.mem_map_of_mem (f := Prod.fst) (List.mem_filter.2 ⟨hlisted, hreaches⟩)

/-- A round that is about to be told to its audience. -/
theorem Tidy.audience_given (h : n.Tidy) (change : κ) :
    (n.audience reaches change).Nodup ∧ ∀ id ∈ n.audience reaches change, id < n.next :=
  ⟨h.once.sublist (audience_sublist change),
    fun id hid ↦ h.given id ((audience_sublist change).subset hid)⟩

theorem Tidy.step (h : n.Tidy) (hmove : n.Move reaches said n') : n'.Tidy := by
  cases hmove with
  | still => exact h
  | pushed change => exact ⟨h.once, h.given, h.rounds, h.heard⟩
  | added kind =>
    have hlt {id : Nat} (hid : id < n.next) : id < n.next + 1 := Nat.lt_succ_of_lt hid
    refine ⟨?_, fun id hid ↦ ?_, fun round hround ↦ ?_, fun told htold ↦ hlt (h.heard told htold)⟩
    · simp only [add, List.map_append, List.map_cons, List.map_nil]
      refine List.nodup_append'.2 ⟨h.once, List.nodup_singleton _, fun id hid hnew ↦ ?_⟩
      rw [List.mem_singleton] at hnew
      exact absurd (h.given id hid) (by omega)
    · simp only [add, List.map_append, List.mem_append, List.map_cons, List.map_nil,
        List.mem_singleton] at hid
      rcases hid with hold | rfl
      · exact hlt (h.given id hold)
      · exact Nat.lt_succ_self _
    · exact ⟨(h.rounds round hround).1, fun id hid ↦ hlt ((h.rounds round hround).2 id hid)⟩
  | removed id =>
    have hsub : List.Sublist ((n.remove id).listeners.map (·.1)) (n.listeners.map (·.1)) :=
      List.filter_sublist.map _
    exact ⟨h.once.sublist hsub, fun id hid ↦ h.given id (hsub.subset hid), h.rounds, h.heard⟩
  | skipped =>
    have hlt {id : Nat} (hid : id < n.next) : id < n.next + 1 := Nat.lt_succ_of_lt hid
    exact ⟨h.once, fun id hid ↦ hlt (h.given id hid),
      fun round hround ↦ ⟨(h.rounds round hround).1,
        fun id hid ↦ hlt ((h.rounds round hround).2 id hid)⟩,
      fun told htold ↦ hlt (h.heard told htold)⟩
  | framed hnone =>
    rw [frame]
    split
    · exact h
    · refine ⟨h.once, h.given, fun round hround ↦ ?_, h.heard⟩
      rcases List.mem_cons.1 hround with rfl | houter
      · exact h.audience_given _
      · exact h.rounds round houter
  | advanced hadvance =>
    rw [advance] at hadvance
    split at hadvance
    · cases hadvance
    · rename_i telling id left rest outer hrounds
      have hround := h.rounds _ (hrounds ▸ List.mem_cons_self)
      have hleft : ∀ round ∈ ⟨telling, left, rest⟩ :: outer,
          round.left.Nodup ∧ ∀ id ∈ round.left, id < n.next := by
        intro round hmem
        rcases List.mem_cons.1 hmem with rfl | houter
        · exact ⟨(List.nodup_cons.1 hround.1).2,
            fun id hid ↦ hround.2 id (List.mem_cons_of_mem _ hid)⟩
        · exact h.rounds round (hrounds ▸ List.mem_cons_of_mem _ houter)
      split at hadvance
      · cases hadvance
        refine ⟨h.once, h.given, hleft, fun told htold ↦ ?_⟩
        rcases List.mem_append.1 htold with hold | hnew
        · exact h.heard told hold
        · rw [List.mem_singleton.1 hnew]
          exact hround.2 id List.mem_cons_self
      · cases hadvance
        exact ⟨h.once, h.given, hleft, h.heard⟩
    · rename_i telling change rest outer hrounds
      cases hadvance
      refine ⟨h.once, h.given, fun round hmem ↦ ?_, h.heard⟩
      rcases List.mem_cons.1 hmem with rfl | houter
      · exact h.audience_given _
      · exact h.rounds round (hrounds ▸ List.mem_cons_of_mem _ houter)
    · rename_i telling outer hrounds
      cases hadvance
      exact ⟨h.once, h.given,
        fun round hmem ↦ h.rounds round (hrounds ▸ List.mem_cons_of_mem _ hmem), h.heard⟩

/-! ## What a listener hears -/

/-- What a listener hears in a step, with what it is still owed, is what it was owed and what fell
due. -/
def Tells (reaches : τ → κ → Bool) (id : Nat) (kind : τ) (n : Notices τ κ) (said : List κ)
    (n' : Notices τ κ) : Prop :=
  ∃ new, n'.heardBy id = n.heardBy id ++ new ∧
    new ++ n'.owed reaches id kind = n.owed reaches id kind ++ said.filter (reaches kind)

theorem tells_of_eq (hheard : n'.heard = n.heard)
    (howed : n'.owed reaches id kind = n.owed reaches id kind ++ said.filter (reaches kind)) :
    Tells reaches id kind n said n' :=
  ⟨[], by rw [heardBy, heardBy, hheard, List.append_nil], howed⟩

/-- The one change a round turns to. -/
theorem Tidy.turned (h : n.Tidy) (hlisted : (id, kind) ∈ n.listeners) (change : κ) (rest : List κ) :
    Round.owes reaches id kind ⟨change, n.audience reaches change, rest⟩ =
      (change :: rest).filter (reaches kind) := by
  rw [Round.owes, List.filter_cons]
  by_cases hreaches : reaches kind change = true
  · rw [if_pos ((h.mem_audience hlisted change).2 hreaches), if_pos hreaches]
    rfl
  · rw [if_neg fun hmem ↦ hreaches ((h.mem_audience hlisted change).1 hmem), if_neg hreaches]
    rfl

theorem Tidy.tells_frame (h : n.Tidy) (hlisted : (id, kind) ∈ n.listeners) (hnone : n.rounds = []) :
    Tells reaches id kind n [] (n.frame reaches) := by
  rw [frame]
  split
  · exact tells_of_eq rfl (List.append_nil _).symm
  · rename_i change rest hpending
    refine tells_of_eq rfl ?_
    simp only [owed, hnone, hpending, List.flatMap_cons, List.flatMap_nil, List.filter_nil,
      List.append_nil, List.nil_append]
    exact h.turned hlisted change rest

theorem Tidy.tells_advance (h : n.Tidy) (hlisted : (id, kind) ∈ n.listeners)
    (hadvance : n.advance reaches = some n') : Tells reaches id kind n [] n' := by
  have hin : id ∈ n.listeners.map (·.1) := List.mem_map_of_mem (f := Prod.fst) hlisted
  rw [advance] at hadvance
  split at hadvance
  · cases hadvance
  · rename_i telling next left rest outer hrounds
    have hnodup := (h.rounds _ (hrounds ▸ List.mem_cons_self)).1
    split at hadvance
    · cases hadvance
      by_cases hself : next = id
      · -- It is told, and hears that change no more.
        subst hself
        refine ⟨[telling], by simp [heardBy], ?_⟩
        simp [owed, hrounds, Round.owes, (List.nodup_cons.1 hnodup).1]
      · refine ⟨[], by simp [heardBy, hself], ?_⟩
        simp [owed, hrounds, Round.owes, Ne.symm hself]
    · rename_i hgone
      cases hadvance
      have hself : next ≠ id := fun hsame ↦ hgone (hsame ▸ hin)
      refine tells_of_eq rfl ?_
      simp [owed, hrounds, Round.owes, Ne.symm hself]
  · rename_i telling change rest outer hrounds
    cases hadvance
    refine tells_of_eq rfl ?_
    simp only [owed, hrounds, List.flatMap_cons, List.filter_nil, List.append_nil]
    rw [h.turned hlisted change rest]
    simp [Round.owes]
  · rename_i telling outer hrounds
    cases hadvance
    refine tells_of_eq rfl ?_
    simp [owed, hrounds, Round.owes]

/-- **One step.** -/
theorem Tidy.tells (h : n.Tidy) (hlisted : (id, kind) ∈ n.listeners)
    (hmove : n.Move reaches said n') : Tells reaches id kind n said n' := by
  cases hmove with
  | still | added kind | removed id | skipped => exact tells_of_eq rfl (List.append_nil _).symm
  | pushed change => exact tells_of_eq rfl (by simp [owed, push])
  | framed hnone => exact h.tells_frame hlisted hnone
  | advanced hadvance => exact h.tells_advance hlisted hadvance

theorem Tells.trans {n'' : Notices τ κ} {said' : List κ} (h : Tells reaches id kind n said n')
    (h' : Tells reaches id kind n' said' n'') :
    Tells reaches id kind n (said ++ said') n'' := by
  obtain ⟨new, hheard, howed⟩ := h
  obtain ⟨new', hheard', howed'⟩ := h'
  refine ⟨new ++ new', by rw [hheard', hheard, List.append_assoc], ?_⟩
  rw [List.append_assoc, howed', ← List.append_assoc, howed, List.filter_append, List.append_assoc]

/-- Who listens after a step and has an id from before it listened before it. -/
theorem listed_before (hmove : n.Move reaches said n') :
    n.next ≤ n'.next ∧ ∀ listener ∈ n'.listeners, listener.1 < n.next → listener ∈ n.listeners := by
  cases hmove with
  | still | pushed change => exact ⟨Nat.le_refl _, fun _ hmem _ ↦ hmem⟩
  | added kind =>
    refine ⟨Nat.le_succ _, fun listener hmem hlt ↦ ?_⟩
    rcases List.mem_append.1 hmem with hold | hnew
    · exact hold
    · rw [List.mem_singleton.1 hnew] at hlt
      exact absurd hlt (Nat.lt_irrefl _)
  | removed id => exact ⟨Nat.le_refl _, fun _ hmem _ ↦ (List.mem_filter.1 hmem).1⟩
  | skipped => exact ⟨Nat.le_succ _, fun _ hmem _ ↦ hmem⟩
  | framed hnone =>
    rw [frame]
    split <;> exact ⟨Nat.le_refl _, fun _ hmem _ ↦ hmem⟩
  | advanced hadvance =>
    rw [advance] at hadvance
    split at hadvance
    · cases hadvance
    · split at hadvance <;> cases hadvance <;> exact ⟨Nat.le_refl _, fun _ hmem _ ↦ hmem⟩
    · cases hadvance
      exact ⟨Nat.le_refl _, fun _ hmem _ ↦ hmem⟩
    · cases hadvance
      exact ⟨Nat.le_refl _, fun _ hmem _ ↦ hmem⟩

/-! ## What is told at all -/

/-- Whatever is due, under way or told is a `P`. -/
structure All (P : κ → Prop) (n : Notices τ κ) : Prop where
  pending : ∀ change ∈ n.pending, P change
  rounds : ∀ round ∈ n.rounds, P round.telling ∧ ∀ change ∈ round.rest, P change
  heard : ∀ told ∈ n.heard, P told.2

theorem all_start (P : κ → Prop) : ({} : Notices τ κ).All P where
  pending := by simp
  rounds := by simp
  heard := by simp

theorem All.heardBy {P : κ → Prop} (h : n.All P) {change : κ} (hheard : change ∈ n.heardBy id) :
    P change := by
  obtain ⟨told, htold, rfl⟩ := List.mem_map.1 hheard
  exact h.heard told (List.mem_filter.1 htold).1

theorem All.step {P : κ → Prop} (h : n.All P) (hmove : n.Move reaches said n')
    (hsaid : ∀ change ∈ said, P change) : n'.All P := by
  cases hmove with
  | still => exact h
  | added | removed | skipped => exact ⟨h.pending, h.rounds, h.heard⟩
  | pushed change =>
    refine ⟨fun other hother ↦ ?_, h.rounds, h.heard⟩
    rcases List.mem_append.1 hother with hold | hnew
    · exact h.pending other hold
    · exact hsaid other hnew
  | framed hnone =>
    rw [frame]
    split
    · exact h
    · rename_i change rest hpending
      have hdue := h.pending
      rw [hpending] at hdue
      refine ⟨by simp, fun round hround ↦ ?_, h.heard⟩
      rcases List.mem_cons.1 hround with rfl | houter
      · exact ⟨hdue _ List.mem_cons_self, fun other hother ↦
          hdue other (List.mem_cons_of_mem _ hother)⟩
      · exact h.rounds round houter
  | advanced hadvance =>
    have hrounds := h.rounds
    rw [advance] at hadvance
    split at hadvance
    · cases hadvance
    · rename_i telling id left rest outer hnow
      rw [hnow] at hrounds
      have hround := hrounds _ List.mem_cons_self
      have hleft : ∀ round ∈ ⟨telling, left, rest⟩ :: outer,
          P round.telling ∧ ∀ change ∈ round.rest, P change := by
        intro round hmem
        rcases List.mem_cons.1 hmem with rfl | houter
        · exact hround
        · exact hrounds round (List.mem_cons_of_mem _ houter)
      split at hadvance
      · cases hadvance
        refine ⟨h.pending, hleft, fun told htold ↦ ?_⟩
        rcases List.mem_append.1 htold with hold | hnew
        · exact h.heard told hold
        · rw [List.mem_singleton.1 hnew]
          exact hround.1
      · cases hadvance
        exact ⟨h.pending, hleft, h.heard⟩
    · rename_i telling change rest outer hnow
      cases hadvance
      rw [hnow] at hrounds
      refine ⟨h.pending, fun round hmem ↦ ?_, h.heard⟩
      rcases List.mem_cons.1 hmem with rfl | houter
      · have hround := hrounds _ List.mem_cons_self
        exact ⟨hround.2 _ List.mem_cons_self,
          fun other hother ↦ hround.2 other (List.mem_cons_of_mem _ hother)⟩
      · exact hrounds round (List.mem_cons_of_mem _ houter)
    · rename_i telling outer hnow
      cases hadvance
      rw [hnow] at hrounds
      exact ⟨h.pending, fun round hmem ↦ hrounds round (List.mem_cons_of_mem _ hmem), h.heard⟩

/-! ## Whole runs -/

section Run

variable {σ ι ν : Type} [DecidableEq κ] {step : σ → ι → Option σ} {guard : σ → ι → Prop}
  {I : σ → Prop} {heed : τ → Change κ ν → Bool} {notices : σ → Notices τ (Change κ ν)}
  {status : σ → κ → ν}

/-- A system that keeps notices of a status: each step of it moves them, and what falls due by it is
what it changes. -/
structure Announces (step : σ → ι → Option σ) (guard : σ → ι → Prop) (I : σ → Prop)
    (heed : τ → Change κ ν → Bool) (notices : σ → Notices τ (Change κ ν)) (status : σ → κ → ν) :
    Prop where
  keeps : ∀ s i s', I s → guard s i → step s i = some s' → I s'
  tells : ∀ s i s', I s → guard s i → step s i = some s' →
    ∃ said, (notices s).Move heed said (notices s') ∧ Leads (status s) said (status s')

theorem Announces.reached (h : Announces step guard I heed notices status) {s s' : σ} (hI : I s)
    (htidy : (notices s).Tidy) (hrun : Reaches step guard s s') : I s' ∧ (notices s').Tidy :=
  hrun.invariant (I := fun s ↦ I s ∧ (notices s).Tidy) ⟨hI, htidy⟩ fun s i s' hboth hg hstep ↦ by
    obtain ⟨said, hmove, -⟩ := h.tells s i s' hboth.1 hg hstep
    exact ⟨h.keeps s i s' hboth.1 hg hstep, hboth.2.step hmove⟩

/-- **A listener keeps up**: from any moment at which nothing is owed, what it hears and what it is
still owed lead from the status then to the status now. -/
theorem Announces.keeps_up (h : Announces step guard I heed notices status) {s s' : σ} (hI : I s)
    (htidy : (notices s).Tidy) (hidle : (notices s).Idle)
    (hheeds : ∀ change, heed kind change = true)
    (hlisted : (id, kind) ∈ (notices s).listeners) (hrun : Reaches step guard s s')
    (hlisted' : (id, kind) ∈ (notices s').listeners) :
    ∃ new, (notices s').heardBy id = (notices s).heardBy id ++ new ∧
      Leads (status s) (new ++ (notices s').owed heed id kind) (status s') := by
  have hgiven : id < (notices s).next := htidy.given id
    (List.mem_map_of_mem (f := Prod.fst) hlisted)
  have htold : (notices s).next ≤ (notices s').next ∧ ((id, kind) ∈ (notices s').listeners →
      ∃ said, Tells heed id kind (notices s) said (notices s') ∧
        Leads (status s) said (status s')) := by
    refine hrun.invariant_of (J := fun s ↦ I s ∧ (notices s).Tidy) (I := fun s' ↦
        (notices s).next ≤ (notices s').next ∧ ((id, kind) ∈ (notices s').listeners →
          ∃ said, Tells heed id kind (notices s) said (notices s') ∧
            Leads (status s) said (status s'))) ⟨hI, htidy⟩ ?_ ?_ ?_
    · intro s₁ i s₂ hboth hg hstep
      obtain ⟨said, hmove, -⟩ := h.tells s₁ i s₂ hboth.1 hg hstep
      exact ⟨h.keeps s₁ i s₂ hboth.1 hg hstep, hboth.2.step hmove⟩
    · exact ⟨Nat.le_refl _, fun _ ↦ ⟨[], tells_of_eq rfl (List.append_nil _).symm, rfl⟩⟩
    · intro s₁ i s₂ hboth hsofar hg hstep
      obtain ⟨hle, hsofar⟩ := hsofar
      obtain ⟨said', hmove, hleads'⟩ := h.tells s₁ i s₂ hboth.1 hg hstep
      obtain ⟨hle', hbefore⟩ := listed_before hmove
      refine ⟨hle.trans hle', fun hthere ↦ ?_⟩
      have hlisted₁ := hbefore (id, kind) hthere (lt_of_lt_of_le hgiven hle)
      obtain ⟨said, htells, hleads⟩ := hsofar hlisted₁
      exact ⟨said ++ said', htells.trans (hboth.2.tells hlisted₁ hmove), hleads.append hleads'⟩
  obtain ⟨said, ⟨new, hheard, howed⟩, hleads⟩ := htold.2 hlisted'
  have hnothing : (notices s).owed heed id kind = [] := by
    rw [owed, hidle.1, hidle.2]
    rfl
  rw [hnothing, List.nil_append, List.filter_eq_self.2 fun change _ ↦ hheeds change] at howed
  exact ⟨new, hheard, howed ▸ hleads⟩

end Run

end Notices
end Lib
end EosMesh
