import EosMesh.P2P.Pair

/-!
# What two ends come to agree on

A signal names a connection and nothing more: not which attempt at it was meant.  So an answer may
reach an attempt it was not meant for, and the two ends may end up apart.  This module says when
they do not.

The system is `Pair`, two instances with a stream between them for each session and datagrams that
come in any order; the argument is about one socket name at a time, in the view of `P2P.Pair`.
There a step is a move of a game, a signal that arrives, a datagram from nowhere, or an end that
enters or leaves its session.

* `answerable_of_step`: a pending connection has a request on its way, or an end that can answer it,
  unless it was made before the link was up.
* `agreed_of_step`: an open connection is open at the other end, or is about to be, or about to
  close.  It is proved by who makes the step (`backed_mover`, `backed_across`, `backed_opened`,
  `backed_kept`, `backed_read`, `backed_stray`); what it needs is that every opening is `Timely`, so
  that it finds the other end still wanting the connection.
* `wants_of_step`: only asking and agreeing make an end want a connection.

The three results are `connection_symmetric`, `pending_answered` and `agreement_confluent`: once
everything has arrived the two ends agree, nobody waits for nobody, and the connection is open
exactly when both games have consented.  Each stands with a run that keeps its condition and with
one that shows what the condition is for: `connection_asymmetric`, `pending_orphaned`,
`agreement_missed`.
-/

set_option autoImplicit false

namespace EosMesh

open Lib
open Std (TreeMap)

namespace View

variable {v v' : View} {act : Act} {n : Side} {k : Nat}

@[simp] theorem set_standing (v : View) (n n' : Side) (standing : Standing) :
    (v.set n standing).standing n' = if n' = n then standing else v.standing n' :=
  Function.update_apply _ _ _ _

@[simp] theorem post_wire (v : View) (n n' : Side) (k : Nat) (sent : List Signal) :
    (v.post n sent).wire n' k =
      v.wire n' k ++ if n' = n ∧ v.session n = some k then sent else [] := rfl

@[simp] theorem take_wire (v : View) (n n' : Side) (k k' : Nat) (rest : List Signal) :
    (v.take n k rest).wire n' k' = if n' = n ∧ k' = k then rest else v.wire n' k' := rfl

@[simp] theorem set_wire (v : View) (n : Side) (standing : Standing) :
    (v.set n standing).wire = v.wire := rfl

@[simp] theorem set_session (v : View) (n : Side) (standing : Standing) :
    (v.set n standing).session = v.session := rfl

@[simp] theorem set_joined (v : View) (n : Side) (standing : Standing) :
    (v.set n standing).joined = v.joined := rfl

@[simp] theorem post_standing (v : View) (n : Side) (sent : List Signal) :
    (v.post n sent).standing = v.standing := rfl

@[simp] theorem post_session (v : View) (n : Side) (sent : List Signal) :
    (v.post n sent).session = v.session := rfl

@[simp] theorem post_joined (v : View) (n : Side) (sent : List Signal) :
    (v.post n sent).joined = v.joined := rfl

@[simp] theorem take_standing (v : View) (n : Side) (k : Nat) (rest : List Signal) :
    (v.take n k rest).standing = v.standing := rfl

@[simp] theorem take_session (v : View) (n : Side) (k : Nat) (rest : List Signal) :
    (v.take n k rest).session = v.session := rfl

@[simp] theorem take_joined (v : View) (n : Side) (k : Nat) (rest : List Signal) :
    (v.take n k rest).joined = v.joined := rfl

/-! ## Sessions -/

/-- An end has been in the session it is in. -/
def Known (v : View) : Prop := ∀ n k, v.session n = some k → k ∈ v.joined n

theorem known_of_step (h : v.Step act v') (hknown : v.Known) : v'.Known := by
  intro n k hsession
  cases h with
  | game => exact hknown n k hsession
  | receive => exact hknown n k hsession
  | stray => exact hknown n k hsession
  | @join n₀ k₀ hnone hnew =>
    dsimp only at hsession ⊢
    rw [Function.update_apply] at hsession ⊢
    split
    · rename_i hn
      rw [if_pos hn] at hsession
      cases hsession
      exact List.mem_cons_self
    · rename_i hn
      rw [if_neg hn] at hsession
      exact hknown n k hsession
  | @leave n₀ =>
    dsimp only at hsession
    rw [Function.update_apply] at hsession
    split at hsession
    · cases hsession
    · exact hknown n k hsession

/-! ## Requests on their way -/

/-- A request is on its way, and no close behind it. -/
def Asks (wire : List Signal) : Prop :=
  ∃ before after, wire = before ++ .request :: after ∧ .close ∉ after

theorem Asks.append {wire sent : List Signal} (h : Asks wire) (hsent : .close ∉ sent) :
    Asks (wire ++ sent) := by
  obtain ⟨before, after, rfl, hafter⟩ := h
  refine ⟨before, after ++ sent, by rw [List.append_assoc]; rfl, ?_⟩
  rw [List.mem_append]
  exact fun h ↦ h.elim hafter hsent

theorem Asks.request_mem {wire : List Signal} (h : Asks wire) : .request ∈ wire := by
  obtain ⟨before, after, rfl, -⟩ := h
  exact List.mem_append_right _ List.mem_cons_self

/-- When the first of them arrives, it was the request, or the request is still to come. -/
theorem Asks.tail {signal : Signal} {rest : List Signal} (h : Asks (signal :: rest)) :
    signal = .request ∧ .close ∉ rest ∨ Asks rest := by
  obtain ⟨before, after, hsplit, hafter⟩ := h
  cases before with
  | nil =>
    obtain ⟨rfl, rfl⟩ := List.cons.inj hsplit
    exact .inl ⟨rfl, hafter⟩
  | cons first before =>
    obtain ⟨rfl, rfl⟩ := List.cons.inj hsplit
    exact .inr ⟨before, after, rfl, hafter⟩

end View

theorem Tells.eq_control {next : Standing} {control sent : List Signal}
    (h : Tells next control sent) (hnext : next ≠ some .connectionOpen) : sent = control := by
  obtain ⟨packets, rfl, hopen⟩ := h
  have hzero : packets = 0 := not_not.1 fun hne ↦ hnext (hopen hne)
  rw [hzero, List.replicate_zero, List.append_nil]

theorem Tells.mem {next : Standing} {control sent : List Signal} (h : Tells next control sent)
    {signal : Signal} (hsignal : signal ≠ .data) : signal ∈ sent ↔ signal ∈ control := by
  obtain ⟨packets, rfl, -⟩ := h
  rw [List.mem_append]
  refine ⟨fun hmem ↦ hmem.elim id fun hdata ↦ ?_, .inl⟩
  exact absurd (List.eq_of_mem_replicate hdata) hsignal

theorem react_eq_pending {standing : Standing} {signal : Signal}
    (h : react standing signal = some .connectionPending) :
    standing = some .connectionPending ∧ signal = .data := by
  cases standing with
  | none => cases signal <;> cases h
  | some state => cases state <;> cases signal <;> first | exact ⟨rfl, rfl⟩ | cases h

theorem react_open {signal : Signal} (h : signal ≠ .close) :
    react (some .connectionOpen) signal = some .connectionOpen := by
  cases signal <;> first | rfl | exact absurd rfl h

theorem react_requested {signal : Signal} (h : signal ≠ .close) :
    react (some .connectionRequested) signal = some .connectionRequested := by
  cases signal <;> first | rfl | exact absurd rfl h

namespace View

variable {v v' : View} {act : Act} {n : Side} {k : Nat}

/-- The attempt at `n`, made in the session `k`, will be answered: the other end is out of the
session for good, or a request is on its way to it, or it will close, is asked, or has agreed. -/
def AnswerableAt (v : View) (n : Side) (k : Nat) : Prop :=
  (k ∈ v.joined n.other ∧ v.session n.other ≠ some k) ∨ Asks (v.wire n k) ∨
    (v.session n.other = some k ∧ .close ∉ v.wire n k ∧
      (.close ∈ v.wire n.other k ∨ v.standing n.other = some .connectionRequested ∨
        (v.standing n.other = some .connectionOpen ∧ .response ∈ v.wire n.other k)))

/-- Every pending connection of an end that is in a session will be answered. -/
def Answerable (v : View) : Prop :=
  ∀ n k, v.session n = some k → v.standing n = some .connectionPending → v.AnswerableAt n k

/-- What is only added to the stream from the other end takes nothing away. -/
theorem AnswerableAt.mono (h : v.AnswerableAt n k) (hsession : v'.session = v.session)
    (hjoined : v'.joined = v.joined) (hwire : v'.wire n k = v.wire n k)
    (hother : v'.standing n.other = v.standing n.other)
    (hmem : ∀ signal ∈ v.wire n.other k, signal ∈ v'.wire n.other k) : v'.AnswerableAt n k := by
  rw [AnswerableAt, hsession, hjoined, hwire, hother]
  rcases h with hgone | hasks | ⟨hin, hclose, hanswer⟩
  · exact .inl hgone
  · exact .inr (.inl hasks)
  · refine .inr (.inr ⟨hin, hclose, ?_⟩)
    rcases hanswer with hclosing | hasked | ⟨hopen, hresponse⟩
    · exact .inl (hmem _ hclosing)
    · exact .inr (.inl hasked)
    · exact .inr (.inr ⟨hopen, hmem _ hresponse⟩)

/-- The other end's game makes a move. -/
theorem AnswerableAt.game_other {move : Move} {sent : List Signal} (h : v.AnswerableAt n k)
    (hallowed : move.Allowed (v.standing n.other))
    (htells : Tells (move.next (v.standing n.other)) move.control sent) :
    ((v.set n.other (move.next (v.standing n.other))).post n.other sent).AnswerableAt n k := by
  rcases h with hgone | hasks | ⟨hin, hclose, hanswer⟩
  · exact .inl hgone
  · refine .inr (.inl ?_)
    simpa using hasks
  · refine .inr (.inr ⟨hin, by simpa using hclose, ?_⟩)
    simp only [post_wire, set_wire, set_session, hin, and_self, if_true, post_standing,
      set_standing, List.mem_append]
    have hmem {signal : Signal} (hsignal : signal ≠ .data) (hcontrol : signal ∈ move.control) :
        signal ∈ sent := (htells.mem hsignal).2 hcontrol
    rcases hanswer with hclosing | hasked | ⟨hopen, hresponse⟩
    · exact .inl (.inl hclosing)
    · rw [hasked] at hallowed
      cases move with
      | idle => exact .inr (.inl hasked)
      | ask => rcases hallowed with hne | hne <;> cases hne
      | agree => exact .inr (.inr ⟨rfl, .inr (hmem (by decide) (by decide))⟩)
      | transmit => cases hallowed
      | close => exact .inl (.inr (hmem (by decide) (by decide)))
    · rw [hopen] at hallowed
      cases move with
      | idle => exact .inr (.inr ⟨hopen, .inl hresponse⟩)
      | ask => rcases hallowed with hne | hne <;> cases hne
      | agree => cases hallowed
      | transmit => exact .inr (.inr ⟨hopen, .inl hresponse⟩)
      | close => exact .inl (.inr (hmem (by decide) (by decide)))

/-- The other end receives what `n` sent. -/
theorem AnswerableAt.receive_other {k' : Nat} {signal : Signal} {rest sent : List Signal}
    (h : v.AnswerableAt n k) (hsession : v.session n.other = some k')
    (hwire : v.wire n k' = signal :: rest)
    (htells : Tells (react (v.standing n.other) signal) (reply (v.standing n.other) signal) sent) :
    (((v.take n k' rest).set n.other (react (v.standing n.other) signal)).post n.other
      sent).AnswerableAt n k := by
  by_cases hk : k = k'
  · subst hk
    have hin : (((v.take n k rest).set n.other (react (v.standing n.other) signal)).post n.other
        sent).session n.other = some k := hsession
    rcases h with hgone | hasks | ⟨-, hclose, hanswer⟩
    · exact absurd hsession hgone.2
    · rw [hwire] at hasks
      rcases hasks.tail with ⟨rfl, hclose⟩ | hasks
      · refine .inr (.inr ⟨hin, by simpa using hclose, ?_⟩)
        simp only [post_wire, set_wire, take_wire, set_session, take_session, hsession,
          post_standing, set_standing, and_self, if_true, List.mem_append, Side.other_ne, false_and,
          if_false]
        have hmem (hreply : .response ∈ reply (v.standing n.other) .request) : .response ∈ sent :=
          (htells.mem (by decide)).2 hreply
        cases hstanding : v.standing n.other with
        | none => exact .inr (.inl rfl)
        | some state =>
          rw [hstanding] at hmem
          cases state with
          | connectionRequested => exact .inr (.inl rfl)
          | connectionPending => exact .inr (.inr ⟨rfl, .inr (hmem (by decide))⟩)
          | connectionOpen => exact .inr (.inr ⟨rfl, .inr (hmem (by decide))⟩)
      · exact .inr (.inl (by simpa using hasks))
    · rw [hwire, List.mem_cons, not_or] at hclose
      obtain ⟨hsignal, hclose⟩ := hclose
      refine .inr (.inr ⟨hin, by simpa using hclose, ?_⟩)
      simp only [post_wire, set_wire, take_wire, set_session, take_session, hsession,
        post_standing, set_standing, and_self, if_true, List.mem_append, Side.other_ne, false_and,
        if_false]
      rcases hanswer with hclosing | hasked | ⟨hopen, hresponse⟩
      · exact .inl (.inl hclosing)
      · rw [hasked]
        exact .inr (.inl (react_requested (Ne.symm hsignal)))
      · rw [hopen]
        exact .inr (.inr ⟨react_open (Ne.symm hsignal), .inl hresponse⟩)
  · rcases h with hgone | hasks | ⟨hin, -, -⟩
    · exact .inl hgone
    · refine .inr (.inl ?_)
      simpa [hk] using hasks
    · rw [hin] at hsession
      exact absurd (Option.some.inj hsession) hk

/-- The other end meets a packet of a session that is over. -/
theorem AnswerableAt.stray_other {sent : List Signal} (h : v.AnswerableAt n k) :
    ((v.set n.other (react (v.standing n.other) .data)).post n.other sent).AnswerableAt n k := by
  rcases h with hgone | hasks | ⟨hboth, hclose, hanswer⟩
  · exact .inl hgone
  · refine .inr (.inl ?_)
    simpa using hasks
  · refine .inr (.inr ⟨hboth, by simpa using hclose, ?_⟩)
    simp only [post_wire, set_wire, set_session, post_standing, set_standing, if_true,
      List.mem_append]
    rcases hanswer with hclosing | hasked | ⟨hopen, hresponse⟩
    · exact .inl (.inl hclosing)
    · rw [hasked]
      exact .inr (.inl rfl)
    · rw [hopen]
      exact .inr (.inr ⟨rfl, .inl hresponse⟩)

/-- The other end joins a session that is new to it. -/
theorem AnswerableAt.join_other {k' : Nat} (h : v.AnswerableAt n k)
    (hnone : v.session n.other = none) (hnew : k' ∉ v.joined n.other) :
    AnswerableAt { v with
      session := Function.update v.session n.other (some k')
      joined := Function.update v.joined n.other (k' :: v.joined n.other) } n k := by
  rcases h with ⟨hjoined, -⟩ | hasks | ⟨hboth, -, -⟩
  · refine .inl ⟨?_, ?_⟩
    · simp [hjoined]
    · simp only [Function.update_self, ne_eq, Option.some.injEq]
      rintro rfl
      exact hnew hjoined
  · exact .inr (.inl hasks)
  · rw [hnone] at hboth
    cases hboth

/-- The other end leaves its session. -/
theorem AnswerableAt.leave_other (h : v.AnswerableAt n k) (hknown : v.Known) :
    AnswerableAt { (v.set n.other none) with
      session := Function.update v.session n.other none } n k := by
  rcases h with ⟨hjoined, -⟩ | hasks | ⟨hboth, -, -⟩
  · exact .inl ⟨hjoined, by simp⟩
  · exact .inr (.inl hasks)
  · exact .inl ⟨hknown n.other k hboth, by simp⟩

/-- **A pending connection stays answerable**, if no end comes up with one from before. -/
theorem answerable_of_step (h : v.Step act v') (hknown : v.Known)
    (hclean : ∀ n k, act = .join n k → v.standing n ≠ some .connectionPending)
    (hanswerable : v.Answerable) : v'.Answerable := by
  intro n k hsession hpending
  cases h with
  | @game n₀ move sent hallowed htells =>
    rcases Side.eq_or_eq_other n n₀ with rfl | rfl
    · simp only [post_standing, set_standing, if_true] at hpending
      have hsent : sent = move.control := by
        refine htells.eq_control ?_
        rw [hpending]
        simp
      have hsame (hbefore : v.standing n₀ = some .connectionPending) (hnone : move.control = []) :
          ((v.set n₀ (move.next (v.standing n₀))).post n₀ sent).AnswerableAt n₀ k := by
        refine (hanswerable n₀ k hsession hbefore).mono rfl rfl ?_ ?_ ?_
        · simp [hsent, hnone]
        · simp
        · simp
      cases move with
      | idle => exact hsame hpending rfl
      | ask =>
        refine .inr (.inl ⟨v.wire n₀ k, [], ?_, List.not_mem_nil⟩)
        rw [post_wire, if_pos ⟨rfl, hsession⟩, hsent]
        rfl
      | agree => cases hpending
      | transmit => exact hsame hpending rfl
      | close => cases hpending
    · simp only [post_standing, set_standing, Side.ne_other, if_false] at hpending
      exact (hanswerable n k hsession hpending).game_other hallowed htells
  | @receive n₀ k₀ signal rest sent hin hwire htells =>
    rcases Side.eq_or_eq_other n n₀ with rfl | rfl
    · simp only [post_standing, set_standing, if_true] at hpending
      have hsent := htells.eq_control (by rw [hpending]; simp)
      obtain ⟨hbefore, rfl⟩ := react_eq_pending hpending
      rw [hbefore] at hsent
      have hk : k = k₀ := Option.some.inj (hsession.symm.trans hin)
      subst hk
      rcases hanswerable n₀ k hsession hbefore with hgone | hasks | ⟨hboth, hclose, hanswer⟩
      · exact .inl hgone
      · refine .inr (.inl ?_)
        simpa [hsent, reply] using hasks
      · refine .inr (.inr ⟨hboth, by simpa [hsent, reply] using hclose, ?_⟩)
        rw [hwire, List.mem_cons, List.mem_cons] at hanswer
        simpa using hanswer
    · simp only [post_standing, set_standing, Side.ne_other, if_false] at hpending
      rw [Side.other_other] at hwire ⊢
      exact (hanswerable n k hsession hpending).receive_other hin hwire htells
  | @stray n₀ sent htells =>
    rcases Side.eq_or_eq_other n n₀ with rfl | rfl
    · simp only [post_standing, set_standing, if_true] at hpending
      have hsent := htells.eq_control (by rw [hpending]; simp)
      obtain ⟨hbefore, -⟩ := react_eq_pending hpending
      refine (hanswerable n₀ k hsession hbefore).mono rfl rfl ?_ ?_ ?_
      · simp [hsent]
      · simp
      · simp
    · simp only [post_standing, set_standing, Side.ne_other, if_false] at hpending
      exact (hanswerable n k hsession hpending).stray_other
  | @join n₀ k₀ hnone hnew =>
    rcases Side.eq_or_eq_other n n₀ with rfl | rfl
    · exact absurd hpending (hclean n₀ k₀ rfl)
    · dsimp only at hsession hpending
      rw [Function.update_of_ne (Side.ne_other n)] at hsession
      exact (hanswerable n k hsession hpending).join_other hnone hnew
  | @leave n₀ =>
    rcases Side.eq_or_eq_other n n₀ with rfl | rfl
    · dsimp only at hsession
      rw [Function.update_self] at hsession
      cases hsession
    · dsimp only at hsession hpending
      rw [Function.update_of_ne (Side.ne_other n)] at hsession
      rw [set_standing, if_neg (Side.ne_other n)] at hpending
      exact (hanswerable n k hsession hpending).leave_other hknown

/-- When nothing is on its way within the session of both, whoever waits is waited for. -/
theorem Answerable.requested (h : v.Answerable) (hboth : ∀ n, v.session n = some k)
    (hempty : ∀ n, v.wire n k = []) (hpending : v.standing n = some .connectionPending) :
    v.standing n.other = some .connectionRequested := by
  rcases h n k (hboth n) hpending with hgone | hasks | ⟨-, -, hanswer⟩
  · exact absurd (hboth n.other) hgone.2
  · have hrequest := hasks.request_mem
    rw [hempty] at hrequest
    cases hrequest
  · rcases hanswer with hclosing | hasked | ⟨-, hresponse⟩
    · rw [hempty] at hclosing
      cases hclosing
    · exact hasked
    · rw [hempty] at hresponse
      cases hresponse

/-! ## Agreement -/

/-- The end `n` is about to find the connection open. -/
def Opens (v : View) : Act → Side → Prop
  | .game n move, n' => n = n' ∧ move = .agree
  | .receive n signal, n' =>
    n = n' ∧ v.standing n = some .connectionPending ∧ (signal = .request ∨ signal = .response)
  | _, _ => False

instance (v : View) (act : Act) (n : Side) : Decidable (v.Opens act n) := by
  cases act <;> unfold Opens <;> infer_instance

/-- An end that finds the connection open in the session `k` finds the other end wanting it too: it
still asks or has agreed, and has no close before it to take that back, or it has closed, and will
say so. -/
def Timely (v : View) (act : Act) (k : Nat) : Prop :=
  ∀ n, v.Opens act n → .close ∈ v.wire n.other k ∨
    ((v.standing n.other = some .connectionPending ∨ v.standing n.other = some .connectionOpen) ∧
      .close ∉ v.wire n k)

/-- Where the connection is open at `n`, the other end has it open, or is about to, or is about to
close it. -/
def Agreed (v : View) (k : Nat) : Prop :=
  ∀ n, v.standing n = some .connectionOpen → .close ∈ v.wire n.other k ∨
    (.close ∉ v.wire n k ∧ (v.standing n.other = some .connectionOpen ∨
      (v.standing n.other = some .connectionPending ∧
        (.response ∈ v.wire n k ∨ .request ∈ v.wire n k))))

theorem react_eq_open {standing : Standing} {signal : Signal}
    (h : react standing signal = some .connectionOpen) :
    (standing = some .connectionOpen ∧ signal ≠ .close) ∨
      (standing = some .connectionPending ∧ (signal = .request ∨ signal = .response)) := by
  cases standing with
  | none => cases signal <;> cases h
  | some state =>
    cases state <;> cases signal <;>
      first
        | exact .inl ⟨rfl, by decide⟩
        | exact .inr ⟨rfl, .inl rfl⟩
        | exact .inr ⟨rfl, .inr rfl⟩
        | cases h

theorem close_notMem_reply (standing : Standing) (signal : Signal) :
    .close ∉ reply standing signal := by
  cases standing with
  | none => exact List.not_mem_nil
  | some state => cases state <;> cases signal <;> decide

/-- What `Agreed` asks for at an end that has the connection open. -/
def Backed (v : View) (k : Nat) (n : Side) : Prop :=
  .close ∈ v.wire n.other k ∨
    (.close ∉ v.wire n k ∧ (v.standing n.other = some .connectionOpen ∨
      (v.standing n.other = some .connectionPending ∧
        (.response ∈ v.wire n k ∨ .request ∈ v.wire n k))))

/-- The game at `n` leaves the connection open there, or opens it in time. -/
theorem backed_mover {move : Move} {sent : List Signal} (hboth : ∀ n, v.session n = some k)
    (htells : Tells (move.next (v.standing n)) move.control sent)
    (htimely : v.Timely (.game n move) k) (hagreed : v.Agreed k)
    (hopen : move.next (v.standing n) = some .connectionOpen) :
    ((v.set n (move.next (v.standing n))).post n sent).Backed k n := by
  have hmem {signal : Signal} (hsignal : signal ≠ .data) : signal ∈ sent ↔ signal ∈ move.control :=
    htells.mem hsignal
  simp only [Backed, post_wire, set_wire, set_session, hboth, post_standing, set_standing,
    Side.other_ne, false_and, if_false, List.append_nil, and_self, if_true, List.mem_append,
    hmem (show Signal.close ≠ .data by decide), hmem (show Signal.response ≠ .data by decide),
    hmem (show Signal.request ≠ .data by decide)]
  cases move with
  | idle => simpa [Move.control] using hagreed n hopen
  | ask => cases hopen
  | agree =>
    rcases htimely n ⟨rfl, rfl⟩ with hclosing | ⟨hwants, hclose⟩
    · exact .inl hclosing
    · refine .inr ⟨fun h ↦ h.elim hclose (by decide), ?_⟩
      rcases hwants with hpending | hopen'
      · exact .inr ⟨hpending, .inl (.inr (by decide))⟩
      · exact .inl hopen'
  | transmit => simpa [Move.control] using hagreed n hopen
  | close => cases hopen

/-- The game at the other end asks for nothing that is open, and says so when it closes. -/
theorem backed_across {move : Move} {sent : List Signal} (hboth : ∀ n, v.session n = some k)
    (hallowed : move.Allowed (v.standing n.other))
    (htells : Tells (move.next (v.standing n.other)) move.control sent) (hagreed : v.Agreed k)
    (hopen : v.standing n = some .connectionOpen) :
    ((v.set n.other (move.next (v.standing n.other))).post n.other sent).Backed k n := by
  have hmem : .close ∈ sent ↔ .close ∈ move.control := htells.mem (by decide)
  simp only [Backed, post_wire, set_wire, set_session, hboth, post_standing, set_standing,
    Side.ne_other, false_and, if_false, List.append_nil, and_self, if_true, List.mem_append, hmem]
  rcases hagreed n hopen with hclosing | ⟨hclose, hother⟩
  · exact .inl (.inl hclosing)
  · cases move with
    | idle => exact .inr ⟨hclose, hother⟩
    | ask =>
      rcases hother with hopen' | ⟨hpending, hasks⟩
      · rw [hopen'] at hallowed
        rcases hallowed with hne | hne <;> cases hne
      · exact .inr ⟨hclose, .inr ⟨rfl, hasks⟩⟩
    | agree => exact .inr ⟨hclose, .inl rfl⟩
    | transmit => exact .inr ⟨hclose, hother⟩
    | close => exact .inl (.inr (by decide))

/-- What a message leaves of the other end's backing, where the connection was open before. -/
theorem backed_kept {signal : Signal} {rest sent : List Signal} (hboth : ∀ n, v.session n = some k)
    (hwire : v.wire n.other k = signal :: rest) (hnoclose : .close ∉ sent)
    (hsignal : signal ≠ .close) (hagreed : v.Agreed k)
    (hbefore : v.standing n = some .connectionOpen) :
    (((v.take n.other k rest).set n (react (v.standing n) signal)).post n sent).Backed k n := by
  simp only [Backed, post_wire, set_wire, set_session, take_wire, take_session, take_standing,
    hboth, post_standing, set_standing, Side.other_ne, Side.ne_other, false_and, if_false,
    List.append_nil, and_self, if_true, List.mem_append]
  rcases hagreed n hbefore with hclosing | ⟨hclose, hother⟩
  · rw [hwire, List.mem_cons] at hclosing
    exact .inl (hclosing.resolve_left (Ne.symm hsignal))
  · refine .inr ⟨fun h ↦ h.elim hclose hnoclose, hother.imp id fun h ↦ ⟨h.1, ?_⟩⟩
    exact h.2.imp .inl .inl

/-- A request or an answer opens the connection at `n`, in time. -/
theorem backed_opened {signal : Signal} {rest sent : List Signal}
    (hboth : ∀ n, v.session n = some k) (hwire : v.wire n.other k = signal :: rest)
    (htells : Tells (react (v.standing n) signal) (reply (v.standing n) signal) sent)
    (hnoclose : .close ∉ sent) (htimely : v.Timely (.receive n signal) k)
    (hanswerable : v.Answerable) (hbefore : v.standing n = some .connectionPending)
    (hsignal : signal = .request ∨ signal = .response) :
    (((v.take n.other k rest).set n (react (v.standing n) signal)).post n sent).Backed k n := by
  have hresponse : .response ∈ sent ↔ .response ∈ reply (v.standing n) signal :=
    htells.mem (by decide)
  simp only [Backed, post_wire, set_wire, set_session, take_wire, take_session, take_standing,
    hboth, post_standing, set_standing, Side.other_ne, Side.ne_other, false_and, if_false,
    List.append_nil, and_self, if_true, List.mem_append, hresponse]
  have hrest : .close ∈ v.wire n.other k → .close ∈ rest := by
    rw [hwire, List.mem_cons]
    rintro (rfl | h)
    · rcases hsignal with hne | hne <;> cases hne
    · exact h
  rcases htimely n ⟨rfl, hbefore, hsignal⟩ with hclosing | ⟨hpending | hopen', hclose⟩
  · exact .inl (hrest hclosing)
  · rcases hsignal with rfl | rfl
    · refine .inr ⟨fun h ↦ h.elim hclose hnoclose, .inr ⟨hpending, .inl (.inr ?_)⟩⟩
      rw [hbefore]
      decide
    · -- The answer finds the other end asking again: our own request must be on its way.
      rcases hanswerable n k (hboth n) hbefore with hgone | hasks | ⟨-, -, hanswer⟩
      · exact absurd (hboth n.other) hgone.2
      · exact .inr ⟨fun h ↦ h.elim hclose hnoclose,
          .inr ⟨hpending, .inr (.inl hasks.request_mem)⟩⟩
      · rcases hanswer with hclosing | hasked | ⟨hopen', -⟩
        · exact .inl (hrest hclosing)
        · rw [hpending] at hasked
          cases hasked
        · rw [hpending] at hopen'
          cases hopen'
  · exact .inr ⟨fun h ↦ h.elim hclose hnoclose, .inl hopen'⟩

/-- What was on its way from `n` is read at the other end: a request or an answer opens the
connection there, and there was no close. -/
theorem backed_read {signal : Signal} {rest sent : List Signal} (hboth : ∀ n, v.session n = some k)
    (hwire : v.wire n k = signal :: rest) (hagreed : v.Agreed k)
    (hopen : v.standing n = some .connectionOpen) :
    (((v.take n k rest).set n.other (react (v.standing n.other) signal)).post n.other sent).Backed
      k n := by
  simp only [Backed, post_wire, set_wire, set_session, take_wire, take_session, take_standing,
    hboth, post_standing, set_standing, Side.other_ne, Side.ne_other, false_and, if_false,
    List.append_nil, and_self, if_true, List.mem_append]
  rcases hagreed n hopen with hclosing | ⟨hclose, hother⟩
  · exact .inl (.inl hclosing)
  · rw [hwire, List.mem_cons, not_or] at hclose
    refine .inr ⟨hclose.2, ?_⟩
    rcases hother with hopen' | ⟨hpending, hasks⟩
    · rw [hopen']
      exact .inl (react_open (Ne.symm hclose.1))
    · rw [hpending]
      rw [hwire, List.mem_cons, List.mem_cons] at hasks
      cases signal with
      | request => exact .inl rfl
      | response => exact .inl rfl
      | data => exact .inr ⟨rfl, by simpa using hasks⟩
      | close => exact absurd rfl hclose.1

/-- A datagram from nowhere opens and closes nothing. -/
theorem backed_stray {sent : List Signal} {n₀ : Side} (hboth : ∀ n, v.session n = some k)
    (htells : Tells (react (v.standing n₀) .data) [] sent) (hagreed : v.Agreed k)
    (hopen : ((v.set n₀ (react (v.standing n₀) .data)).post n₀ sent).standing n =
      some .connectionOpen) :
    ((v.set n₀ (react (v.standing n₀) .data)).post n₀ sent).Backed k n := by
  have hnoclose : .close ∉ sent := fun h ↦ by
    have hnil := (htells.mem (show Signal.close ≠ .data by decide)).1 h
    cases hnil
  rcases Side.eq_or_eq_other n n₀ with rfl | rfl
  · simp only [post_standing, set_standing, if_true] at hopen
    simp only [Backed, post_wire, set_wire, set_session, hboth, post_standing, set_standing,
      Side.other_ne, false_and, if_false, List.append_nil, and_self, if_true, List.mem_append]
    rcases react_eq_open hopen with ⟨hbefore, -⟩ | ⟨-, hne | hne⟩
    · rcases hagreed n₀ hbefore with hclosing | ⟨hclose, hother⟩
      · exact .inl hclosing
      · exact .inr ⟨fun h ↦ h.elim hclose hnoclose,
          hother.imp id fun h ↦ ⟨h.1, h.2.imp .inl .inl⟩⟩
    · cases hne
    · cases hne
  · simp only [post_standing, set_standing, Side.ne_other, if_false] at hopen
    simp only [Backed, post_wire, set_wire, set_session, hboth, post_standing, set_standing,
      Side.ne_other, false_and, if_false, List.append_nil, and_self, if_true, List.mem_append]
    rcases hagreed n hopen with hclosing | ⟨hclose, hother⟩
    · exact .inl (.inl hclosing)
    · refine .inr ⟨hclose, ?_⟩
      rcases hother with hopen' | ⟨hpending, hasks⟩
      · rw [hopen']
        exact .inl rfl
      · rw [hpending]
        exact .inr ⟨rfl, hasks⟩

/-- **An open connection stays agreed on**, if every opening is timely. -/
theorem agreed_of_step (h : v.Step act v') (hboth : ∀ n, v.session n = some k)
    (hlink : ∀ n, act ≠ .leave n) (htimely : v.Timely act k) (hanswerable : v.Answerable)
    (hagreed : v.Agreed k) : v'.Agreed k := by
  intro n hopen
  show v'.Backed k n
  cases h with
  | @game n₀ move sent hallowed htells =>
    rcases Side.eq_or_eq_other n n₀ with rfl | rfl
    · simp only [post_standing, set_standing, if_true] at hopen
      exact backed_mover hboth htells htimely hagreed hopen
    · simp only [post_standing, set_standing, Side.ne_other, if_false] at hopen
      exact backed_across hboth hallowed htells hagreed hopen
  | @receive n₀ k₀ signal rest sent hin hwire htells =>
    have hk : k₀ = k := Option.some.inj (hin.symm.trans (hboth n₀))
    subst hk
    rcases Side.eq_or_eq_other n n₀ with rfl | rfl
    · simp only [post_standing, set_standing, if_true] at hopen
      have hnoclose : .close ∉ sent := fun h ↦
        close_notMem_reply _ _ ((htells.mem (by decide)).1 h)
      rcases react_eq_open hopen with ⟨hbefore, hsignal⟩ | ⟨hbefore, hsignal⟩
      · exact backed_kept hboth hwire hnoclose hsignal hagreed hbefore
      · exact backed_opened hboth hwire htells hnoclose htimely hanswerable hbefore hsignal
    · simp only [post_standing, set_standing, Side.ne_other, if_false, take_standing] at hopen
      rw [Side.other_other] at hwire ⊢
      exact backed_read hboth hwire hagreed hopen
  | @stray n₀ sent htells => exact backed_stray hboth htells hagreed hopen
  | @join n₀ k₀ hnone =>
    rw [hboth] at hnone
    cases hnone
  | @leave n₀ => exact absurd rfl (hlink n₀)

/-! ## Consent -/

/-- The end wants the connection: it has asked, or has agreed. -/
def Wants (v : View) (n : Side) : Prop :=
  v.standing n = some .connectionPending ∨ v.standing n = some .connectionOpen

theorem unclosed_of_step (h : v.Step act v') (hclose : ∀ n, act ≠ .game n .close)
    (hunclosed : ∀ n, .close ∉ v.wire n k) (n : Side) : .close ∉ v'.wire n k := by
  have hposted {v : View} {n₀ : Side} {sent : List Signal} (hbefore : .close ∉ v.wire n k)
      (hsent : .close ∉ sent) : .close ∉ (v.post n₀ sent).wire n k := by
    rw [post_wire, List.mem_append]
    refine fun h ↦ h.elim hbefore fun h ↦ ?_
    split at h
    · exact hsent h
    · cases h
  cases h with
  | @game n₀ move sent hallowed htells =>
    refine hposted (hunclosed n) fun h ↦ ?_
    have hcontrol := (htells.mem (by decide)).1 h
    cases move with
    | close => exact hclose n₀ rfl
    | idle => cases hcontrol
    | ask => exact absurd hcontrol (by decide)
    | agree => exact absurd hcontrol (by decide)
    | transmit => cases hcontrol
  | @receive n₀ k₀ signal rest sent hin hwire htells =>
    refine hposted ?_ fun h ↦ close_notMem_reply _ _ ((htells.mem (by decide)).1 h)
    rw [set_wire, take_wire]
    split
    · rename_i hn
      have hunclosed := hunclosed n₀.other
      rw [hn.2, hwire] at hunclosed
      exact fun h ↦ hunclosed (List.mem_cons_of_mem _ h)
    · exact hunclosed n
  | stray htells =>
    refine hposted (hunclosed n) fun h ↦ ?_
    have hnil := (htells.mem (show Signal.close ≠ .data by decide)).1 h
    cases hnil
  | join => exact hunclosed n
  | leave => exact hunclosed n

/-- Only asking and agreeing make an end want the connection; while nobody closes, it goes on
wanting it. -/
theorem wants_of_step (h : v.Step act v') (hclose : ∀ n, act ≠ .game n .close)
    (hlink : ∀ n, act ≠ .leave n) (hboth : ∀ n, v.session n = some k)
    (hunclosed : ∀ n, .close ∉ v.wire n k) (n : Side) :
    v'.Wants n ↔ v.Wants n ∨ act = .game n .ask ∨ act = .game n .agree := by
  have hreact {standing : Standing} {signal : Signal} (hsignal : signal ≠ .close) :
      (react standing signal = some .connectionPending ∨
        react standing signal = some .connectionOpen) ↔
      (standing = some .connectionPending ∨ standing = some .connectionOpen) := by
    cases standing with
    | none => cases signal <;> decide
    | some state => cases state <;> cases signal <;> first | exact absurd rfl hsignal | decide
  have hsame {v₀ : View} (hstanding : v₀.standing n = v.standing n)
      (hact : act ≠ .game n .ask ∧ act ≠ .game n .agree) :
      v₀.Wants n ↔ v.Wants n ∨ act = .game n .ask ∨ act = .game n .agree := by
    rw [Wants, Wants, hstanding]
    exact ⟨.inl, fun h ↦ h.elim id fun h ↦ h.elim (absurd · hact.1) (absurd · hact.2)⟩
  cases h with
  | @game n₀ move sent hallowed htells =>
    rcases Side.eq_or_eq_other n n₀ with rfl | rfl
    · simp only [Wants, post_standing, set_standing, if_true]
      cases move with
      | idle => simp [Move.next]
      | ask => simp [Move.next]
      | agree => simp [Move.next]
      | transmit => simp [Move.next]
      | close => exact absurd rfl (hclose n₀)
    · refine hsame ?_ ?_
      · rw [post_standing, set_standing, if_neg (Side.ne_other n)]
      · simp
  | @receive n₀ k₀ signal rest sent hin hwire htells =>
    have hk : k₀ = k := Option.some.inj (hin.symm.trans (hboth n₀))
    subst hk
    have hsignal : signal ≠ .close := by
      rintro rfl
      exact hunclosed n₀.other (hwire ▸ List.mem_cons_self)
    rcases Side.eq_or_eq_other n n₀ with rfl | rfl
    · simp only [Wants, post_standing, set_standing, if_true, hreact hsignal]
      simp
    · refine hsame ?_ ?_
      · rw [post_standing, set_standing, if_neg (Side.ne_other n)]
        rfl
      · simp
  | @stray n₀ sent htells =>
    rcases Side.eq_or_eq_other n n₀ with rfl | rfl
    · simp only [Wants, post_standing, set_standing, if_true,
        hreact (show Signal.data ≠ .close by decide)]
      simp
    · refine hsame ?_ ?_
      · rw [post_standing, set_standing, if_neg (Side.ne_other n)]
      · simp
  | @join n₀ k₀ hnone =>
    rw [hboth] at hnone
    cases hnone
  | @leave n₀ => exact absurd rfl (hlink n₀)

end View
/-! ## Two nodes -/

/-- An input that is no link event. -/
def PairInput.KeepsLink : PairInput → Prop
  | linkUp _ _ | linkDown _ => False
  | _ => True

instance (i : PairInput) : Decidable i.KeepsLink := by
  cases i <;> unfold PairInput.KeepsLink <;> infer_instance

/-- Both ends. -/
instance Side.decidableForall (P : Side → Prop) [DecidablePred P] : Decidable (∀ n, P n) :=
  decidable_of_iff (P .a ∧ P .b) ⟨fun h n ↦ by cases n; exacts [h.1, h.2], fun h ↦ ⟨h .a, h .b⟩⟩

instance (v : View) (act : View.Act) (k : Nat) : Decidable (v.Timely act k) :=
  inferInstanceAs (Decidable (∀ _, _))

theorem View.session_of_step {v v' : View} {act : View.Act} (h : v.Step act v')
    (hjoin : ∀ n k, act ≠ .join n k) (hleave : ∀ n, act ≠ .leave n) : v'.session = v.session := by
  cases h with
  | game => rfl
  | receive => rfl
  | stray => rfl
  | join => exact absurd rfl (hjoin _ _)
  | leave => exact absurd rfl (hleave _)

namespace Pair

variable {m m' : Pair} {i : PairInput} {k : Nat}

theorem act_of_keepsLink (h : i.KeepsLink) (socket : SocketName) :
    (∀ n k, m.act socket i ≠ .join n k) ∧ ∀ n, m.act socket i ≠ .leave n := by
  cases i with
  | call => exact ⟨by simp [act], by simp [act]⟩
  | deliver =>
    rw [act]
    split
    · exact ⟨by simp, by simp⟩
    · split <;> exact ⟨by simp, by simp⟩
  | deliverDatagram =>
    rw [act]
    split
    · exact ⟨by simp, by simp⟩
    · split <;> exact ⟨by simp, by simp⟩
  | loseDatagram => exact ⟨by simp [act], by simp [act]⟩
  | foreign => exact ⟨by simp [act], by simp [act]⟩
  | linkUp => exact h.elim
  | linkDown => exact h.elim

/-- What holds of two nodes whatever they do. -/
structure Ongoing (m : Pair) (socket : SocketName) : Prop where
  sound : m.Sound
  known : (m.view socket).Known
  answerable : (m.view socket).Answerable

theorem Fresh.ongoing (h : m.Fresh) (socket : SocketName) : m.Ongoing socket := by
  refine ⟨h.sound, h.known, fun n k _ hpending ↦ ?_⟩
  rw [view] at hpending
  dsimp only at hpending
  rw [h.unopened] at hpending
  cases hpending

/-- The link comes up at an end that already waits for the other. -/
def ComesUpPending (m : Pair) (socket : SocketName) : PairInput → Prop
  | .linkUp n _ => (m.node n).standing (m.key n socket) = some .connectionPending
  | _ => False

theorem Ongoing.step {socket : SocketName} (h : m.Ongoing socket)
    (hclean : ¬ m.ComesUpPending socket i) (hs : m.step i = some m') : m'.Ongoing socket := by
  obtain ⟨hsound, hview⟩ := step_view h.sound hs socket
  refine ⟨hsound, View.known_of_step hview h.known,
    View.answerable_of_step hview h.known (fun n k hact ↦ ?_) h.answerable⟩
  by_cases hkeeps : i.KeepsLink
  · exact absurd hact ((act_of_keepsLink hkeeps socket).1 n k)
  · cases i with
    | linkUp n' k' =>
      cases hact
      exact hclean
    | linkDown => cases hact
    | _ => exact absurd trivial hkeeps

theorem not_comesUpPending (h : i.KeepsLink) (socket : SocketName) :
    ¬ m.ComesUpPending socket i := by
  cases i with
  | linkUp => exact h.elim
  | _ => exact id

theorem Linked.step (h : m.Linked k) (socket : SocketName) (hsound : m.Sound)
    (hkeeps : i.KeepsLink) (hs : m.step i = some m') : m'.Linked k := by
  have hsession := View.session_of_step (step_view hsound hs socket).2
    (act_of_keepsLink hkeeps socket).1 (act_of_keepsLink hkeeps socket).2
  intro n
  exact (congrFun hsession n).trans (h n)

/-- Nothing is on its way about any socket name. -/
theorem Delivered.wire (h : m.Delivered) (hlinked : m.Linked k) (socket : SocketName) (n : Side) :
    (m.view socket).wire n k = [] := by
  have hinbox := h n.other
  rw [inbox, hlinked n.other, Side.other_other] at hinbox
  rw [view]
  dsimp only
  dsimp only at hinbox
  rw [hinbox]
  rfl

/-! ### Two nodes to try it on -/

/-- Two players and a socket, to run the system on. -/
def alice : Bytes := [0xa1]

def bob : Bytes := [0xb0]

def game : SocketName := ⟨['g'.toUInt8], by decide⟩

/-- Alice and Bob, with nothing between them, and linked or not. -/
def start (session : Option Nat) : Pair where
  node
    | .a => { productUserId := alice, productId := [] }
    | .b => { productUserId := bob, productId := [] }
  session _ := session
  joined _ := session.toList
  mesh _ _ := []
  datagrams _ _ := []

theorem start_fresh (session : Option Nat) : (start session).Fresh := by
  have hapart : alice ≠ bob := by decide
  have hnamed : alice ≠ [] ∧ bob ≠ [] := by decide
  refine ⟨fun n ↦ ?_, hapart.symm, fun n key ↦ ?_, fun _ _ ↦ ⟨rfl, rfl⟩, fun n k h ↦ ?_⟩
  · cases n
    · exact hnamed.1
    · exact hnamed.2
  · have hempty : ((start session).node n).connections = {} := by cases n <;> rfl
    rw [P2p.standing, hempty, TreeMap.getElem?_emptyc]
    rfl
  · have hsession : session = some k := h
    rw [start]
    dsimp only
    rw [hsession]
    exact List.mem_singleton_self k

theorem start_linked : (start (some 0)).Linked 0 := fun _ ↦ rfl

/-- The player at an end. -/
def nameOf : Side → Bytes
  | .a => alice
  | .b => bob

/-- The socket as the game names it. -/
def gameId : SocketId := { apiVersion := 1, socketName := game.1 }

/-- The game at an end accepts. -/
def accept (n : Side) : PairInput :=
  .call n (.acceptConnection {
    apiVersion := 1, localUserId := some (nameOf n), remoteUserId := some (nameOf n.other)
    socketId := some gameId }) []

/-- The game at an end closes. -/
def close (n : Side) : PairInput :=
  .call n (.closeConnection {
    apiVersion := 1, localUserId := some (nameOf n), remoteUserId := some (nameOf n.other)
    socketId := some gameId }) []

/-- A send with delayed delivery allowed and auto-accept left on. -/
def sendDelayed (n : Side) : PairInput :=
  .call n (.sendPacket {
    apiVersion := 3, localUserId := some (nameOf n), remoteUserId := some (nameOf n.other)
    socketId := some gameId, channel := 0, dataLengthBytes := 1, data := some [7]
    bAllowDelayedDelivery := eosTrue, reliability := .reliableOrdered
    bDisableAutoAcceptConnection := 0 }) []

instance (m : Pair) : Decidable m.Delivered := inferInstanceAs (Decidable (∀ _, _))

instance (m : Pair) (n : Side) (socket : SocketName) : Decidable (m.OpenAt n socket) :=
  inferInstanceAs (Decidable (_ = _))

instance (m : Pair) (socket : SocketName) (i : PairInput) :
    Decidable (m.ComesUpPending socket i) := by
  cases i <;> unfold ComesUpPending <;> infer_instance

/-! ### Symmetry -/

/-- **Two ends agree on whether a connection is open**, once everything has arrived, if every
opening was timely: it found the other end still wanting the connection, with no close on its
way to it. -/
theorem connection_symmetric (hfresh : m.Fresh) (hlinked : m.Linked k) (socket : SocketName)
    (h : Reaches step (fun m i ↦ i.KeepsLink ∧ (m.view socket).Timely (m.act socket i) k) m m')
    (hdelivered : m'.Delivered) : m'.OpenAt .a socket ↔ m'.OpenAt .b socket := by
  have hinvariant : m'.Linked k ∧ m'.Ongoing socket ∧ (m'.view socket).Agreed k := by
    refine h.invariant (I := fun m ↦ m.Linked k ∧ m.Ongoing socket ∧ (m.view socket).Agreed k)
      ⟨hlinked, hfresh.ongoing socket, fun n hopen ↦ ?_⟩ ?_
    · rw [view] at hopen
      dsimp only at hopen
      rw [hfresh.unopened] at hopen
      cases hopen
    · rintro m₁ i m₂ ⟨hlinked, hongoing, hagreed⟩ ⟨hkeeps, htimely⟩ hs
      exact ⟨hlinked.step socket hongoing.sound hkeeps hs,
        hongoing.step (not_comesUpPending hkeeps socket) hs,
        View.agreed_of_step (step_view hongoing.sound hs socket).2 hlinked
          (act_of_keepsLink hkeeps socket).2 htimely hongoing.answerable hagreed⟩
  obtain ⟨hlinked', -, hagreed⟩ := hinvariant
  have hwire := hdelivered.wire hlinked' socket
  have hother (n : Side) (hopen : m'.OpenAt n socket) : m'.OpenAt n.other socket := by
    rcases hagreed n hopen with hclosing | ⟨-, hopen' | ⟨-, hasks⟩⟩
    · rw [hwire] at hclosing
      cases hclosing
    · exact hopen'
    · rw [hwire] at hasks
      rcases hasks with hmem | hmem <;> cases hmem
  exact ⟨hother .a, hother .b⟩

/-- Alice asks, Bob accepts, and both hear of it. -/
theorem connection_symmetric_met : ∃ m',
    Reaches step (fun m i ↦ i.KeepsLink ∧ (m.view game).Timely (m.act game i) 0)
    (start (some 0)) m' ∧
      m'.OpenAt .b game := by
  obtain ⟨m', h, hdelivered, hopen⟩ := exists_reaches step
    (fun m i ↦ i.KeepsLink ∧ (m.view game).Timely (m.act game i) 0) (start (some 0))
    (fun m' ↦ m'.Delivered ∧ m'.OpenAt .a game)
    [accept .a, .deliver .b [], accept .b, .deliver .a []] (by decide +kernel) (by decide +kernel)
  exact ⟨m', h,
    (connection_symmetric (start_fresh _) start_linked game h hdelivered).1 hopen⟩

/-- Bob asks, closes and asks again, while Alice accepts the first request: her answer opens the
second attempt at his end, and his close has closed hers. -/
theorem connection_asymmetric : ∃ m', Reaches step (fun _ i ↦ i.KeepsLink) (start (some 0)) m' ∧
    m'.Delivered ∧ m'.OpenAt .b game ∧ ¬ m'.OpenAt .a game :=
  exists_reaches step (fun _ i ↦ i.KeepsLink) (start (some 0))
    (fun m' ↦ m'.Delivered ∧ m'.OpenAt .b game ∧ ¬ m'.OpenAt .a game)
    [accept .b, close .b, accept .b, .deliver .a [], accept .a, .deliver .a [], .deliver .a [],
      .deliver .b []] (by decide +kernel) (by decide +kernel)

/-! ### Pending connections -/

/-- **No connection is left waiting for nobody**: with the link up at both ends and everything
delivered, the end a pending connection waits for has it before its game, if no end waited already
when the link came up to it. -/
theorem pending_answered (hfresh : m.Fresh) (socket : SocketName)
    (h : Reaches step (fun m i ↦ ¬ m.ComesUpPending socket i) m m') (hlinked : m'.Linked k)
    (hdelivered : m'.Delivered) (n : Side)
    (hpending : (m'.node n).standing (m'.key n socket) = some .connectionPending) :
    (m'.node n.other).standing (m'.key n.other socket) = some .connectionRequested := by
  have hongoing : m'.Ongoing socket := h.invariant (I := fun m ↦ m.Ongoing socket)
    (hfresh.ongoing socket) fun m₁ i m₂ hongoing hclean hs ↦ hongoing.step hclean hs
  exact hongoing.answerable.requested hlinked (hdelivered.wire hlinked socket) hpending

/-- The link comes up at both ends, and then Alice asks. -/
theorem pending_answered_asked : ∃ m',
    Reaches step (fun m i ↦ ¬ m.ComesUpPending game i) (start none) m' ∧
      (m'.node .b).standing (m'.key .b game) = some .connectionRequested := by
  obtain ⟨m', h, hlinked, hdelivered, hpending⟩ := exists_reaches step
    (fun m i ↦ ¬ m.ComesUpPending game i) (start none)
    (fun m' ↦ (∀ n, m'.session n = some 0) ∧ m'.Delivered ∧
      (m'.node .a).standing (m'.key .a game) = some .connectionPending)
    [.linkUp .a 0, .linkUp .b 0, accept .a, .deliver .b []] (by decide +kernel) (by decide +kernel)
  exact ⟨m', h, pending_answered (start_fresh _) game h hlinked hdelivered .a hpending⟩

/-- Alice asks before the link is up, and her request goes nowhere. -/
theorem pending_orphaned : ∃ m', Reaches step always (start none) m' ∧
    (∀ n, m'.session n = some 0) ∧ m'.Delivered ∧
      (m'.node .a).standing (m'.key .a game) = some .connectionPending ∧
      (m'.node .b).standing (m'.key .b game) = none :=
  exists_reaches step always (start none)
    (fun m' ↦ (∀ n, m'.session n = some 0) ∧ m'.Delivered ∧
      (m'.node .a).standing (m'.key .a game) = some .connectionPending ∧
      (m'.node .b).standing (m'.key .b game) = none)
    [accept .a, .linkUp .a 0, .linkUp .b 0] (by decide +kernel) (meets_always _ _)

end Pair

/-! ## Consent at both ends -/

namespace P2p

/-- The connection a call asks for or accepts. -/
def callTarget (p : P2p) : Call → Option ConnectionKey
  | .sendPacket options => (p.sendTarget options).toOption.map Prod.fst
  | .acceptConnection options => (p.acceptTarget options).toOption
  | _ => none

/-- The game offers the connection: it accepts it, or it sends with delayed delivery allowed and
auto-accept not disabled. -/
def Offers (p : P2p) (key : ConnectionKey) (c : Call) : Prop :=
  p.callTarget c = some key ∧
    match c with
    | .sendPacket options =>
      options.bAllowDelayedDelivery = eosTrue ∧ ¬ disablesAutoAccept options = true
    | _ => True

/-- The call counts as consent: it accepts the connection, or it is a send with auto-accept not
disabled, on a connection that does not wait for the game already. -/
def Consents (p : P2p) (key : ConnectionKey) (c : Call) : Prop :=
  p.callTarget c = some key ∧
    match c with
    | .sendPacket options =>
      ¬ disablesAutoAccept options = true ∧ p.standing key ≠ some .connectionRequested
    | _ => True

instance (p : P2p) (key : ConnectionKey) (c : Call) : Decidable (p.Offers key c) := by
  cases c <;> unfold Offers <;> infer_instance

instance (p : P2p) (key : ConnectionKey) (c : Call) : Decidable (p.Consents key c) := by
  cases c <;> unfold Consents <;> infer_instance

variable {p : P2p} {key : ConnectionKey} {c : Call}

/-- A call that asks or agrees is one that consents. -/
theorem consents_of_move (h : p.moveOf key c = .ask ∨ p.moveOf key c = .agree) :
    p.Consents key c := by
  cases c with
  | sendPacket options =>
    rw [moveOf] at h
    rw [Consents, callTarget]
    cases htarget : p.sendTarget options with
    | error result =>
      rw [htarget] at h
      rcases h with h | h <;> cases h
    | ok target =>
      obtain ⟨target, packet⟩ := target
      rw [htarget] at h
      dsimp only at h
      split at h
      · rename_i htarget'
        subst htarget'
        refine ⟨rfl, ?_⟩
        cases hstanding : p.standing target with
        | none =>
          rw [hstanding] at h
          dsimp only at h
          split at h
          · rcases h with h | h <;> cases h
          · rename_i hauto
            exact ⟨hauto, by simp⟩
        | some state =>
          rw [hstanding] at h
          cases state <;> rcases h with h | h <;> cases h
      · rcases h with h | h <;> cases h
  | acceptConnection options =>
    rw [moveOf] at h
    refine ⟨?_, trivial⟩
    rw [callTarget]
    cases htarget : p.acceptTarget options with
    | error result =>
      rw [htarget] at h
      rcases h with h | h <;> cases h
    | ok target =>
      rw [htarget] at h
      dsimp only at h
      split at h
      · rename_i htarget'
        subst htarget'
        rfl
      · rcases h with h | h <;> cases h
  | closeConnection options =>
    rw [moveOf] at h
    split at h
    · rcases h with h | h <;> cases h
    · split at h <;> rcases h with h | h <;> cases h
  | closeConnections options =>
    rw [moveOf] at h
    split at h
    · rcases h with h | h <;> cases h
    · split at h <;> rcases h with h | h <;> cases h
  | _ => rcases h with h | h <;> cases h

/-- A call that consents asks or agrees, or the connection is wanted already. -/
theorem move_of_consents (h : p.Consents key c) :
    (p.standing key = some .connectionPending ∨ p.standing key = some .connectionOpen) ∨
      p.moveOf key c = .ask ∨ p.moveOf key c = .agree := by
  obtain ⟨htarget, hconsents⟩ := h
  cases c with
  | sendPacket options =>
    obtain ⟨hauto, hstanding⟩ := hconsents
    rw [callTarget] at htarget
    rw [moveOf]
    cases hsend : p.sendTarget options with
    | error result =>
      rw [hsend] at htarget
      cases htarget
    | ok target =>
      rw [hsend] at htarget
      cases htarget
      dsimp only
      rw [if_pos rfl]
      cases hstate : p.standing target.1 with
      | none => exact .inr (.inl (if_neg hauto))
      | some state =>
        cases state with
        | connectionRequested => exact absurd hstate hstanding
        | connectionPending => exact .inl (.inl rfl)
        | connectionOpen => exact .inl (.inr rfl)
  | acceptConnection options =>
    rw [callTarget] at htarget
    rw [moveOf]
    cases haccept : p.acceptTarget options with
    | error result =>
      rw [haccept] at htarget
      cases htarget
    | ok target =>
      rw [haccept] at htarget
      cases htarget
      dsimp only
      rw [if_pos rfl]
      cases hstate : p.standing key with
      | none => exact .inr (.inl rfl)
      | some state =>
        cases state with
        | connectionRequested => exact .inr (.inr rfl)
        | connectionPending => exact .inl (.inl rfl)
        | connectionOpen => exact .inl (.inr rfl)
  | _ => cases htarget

end P2p

namespace Pair

variable {m m' : Pair} {i : PairInput} {k : Nat} {socket : SocketName}

/-- The input is a call at `n` that offers the connection. -/
def OffersAt (m : Pair) (socket : SocketName) (n : Side) : PairInput → Prop
  | .call n' c _ => n' = n ∧ (m.node n').Offers (m.key n' socket) c
  | _ => False

/-- The input is a call at `n` that counts as consent. -/
def ConsentsAt (m : Pair) (socket : SocketName) (n : Side) : PairInput → Prop
  | .call n' c _ => n' = n ∧ (m.node n').Consents (m.key n' socket) c
  | _ => False

/-- The input is a call that closes the connection. -/
def Closes (m : Pair) (socket : SocketName) : PairInput → Prop
  | .call n c _ => (m.node n).moveOf (m.key n socket) c = .close
  | _ => False

/-- The connection is open at both ends, and nothing waits on it. -/
def Settled (m : Pair) (socket : SocketName) : Prop :=
  ∀ n, ∃ entry, (m.node n).connections[m.key n socket]? = some entry ∧
    entry.state = .connectionOpen ∧ entry.delayed = []

theorem settled_iff : m.Settled socket ↔ ∀ n, m.OpenAt n socket := by
  refine forall_congr' fun n ↦ ⟨?_, fun hopen ↦ ?_⟩
  · rintro ⟨entry, hentry, hopen, -⟩
    rw [OpenAt, P2p.standing_of_lookup hentry, hopen]
  · obtain ⟨entry, hentry, hstate⟩ := Option.map_eq_some_iff.1 hopen
    exact ⟨entry, hentry, hstate, entry.settled hstate⟩

theorem act_eq_close (hcloses : ¬ m.Closes socket i) (n : Side) :
    m.act socket i ≠ .game n .close := by
  intro hact
  cases i with
  | call n' c udp =>
    obtain ⟨rfl, hmove⟩ := View.Act.game.inj hact
    exact hcloses hmove
  | deliver n' udp =>
    rw [act] at hact
    split at hact
    · cases hact
    · split at hact <;> cases hact
  | deliverDatagram n' j =>
    rw [act] at hact
    split at hact
    · cases hact
    · split at hact <;> cases hact
  | _ => cases hact

/-- What asks or agrees at `n` is a call there that consents. -/
theorem consentsAt_of_act {n : Side}
    (hact : m.act socket i = .game n .ask ∨ m.act socket i = .game n .agree) :
    m.ConsentsAt socket n i := by
  cases i with
  | call n' c udp =>
    rw [act, View.Act.game.injEq, View.Act.game.injEq] at hact
    have hn : n' = n := hact.elim And.left And.left
    subst hn
    exact ⟨rfl, P2p.consents_of_move (hact.imp And.right And.right)⟩
  | deliver n' udp =>
    rw [act] at hact
    split at hact
    · rcases hact with h | h <;> cases h
    · split at hact <;> rcases hact with h | h <;> cases h
  | deliverDatagram n' j =>
    rw [act] at hact
    split at hact
    · rcases hact with h | h <;> cases h
    · split at hact <;> rcases hact with h | h <;> cases h
  | _ => rcases hact with h | h <;> cases h

theorem act_of_consentsAt {n : Side} (h : m.ConsentsAt socket n i) :
    (m.view socket).Wants n ∨ m.act socket i = .game n .ask ∨ m.act socket i = .game n .agree := by
  cases i with
  | call n' c udp =>
    obtain ⟨rfl, hconsents⟩ := h
    refine (P2p.move_of_consents hconsents).imp id fun h ↦ ?_
    rw [act]
    exact h.imp (fun h ↦ by rw [h]) (fun h ↦ by rw [h])
  | _ => exact h.elim

/-- **Both ends have the connection open with nothing waiting on it, once everything has arrived,
exactly when the game at each of them has consented**, by accepting it or by sending on it while it
was not waiting for the game. -/
theorem agreement_confluent {inputs : List PairInput} (hfresh : m.Fresh) (hlinked : m.Linked k)
    (socket : SocketName) (h : runInputs step m inputs = some m')
    (hcalls : meets step (fun m i ↦ i.KeepsLink ∧ ¬ m.Closes socket i) m inputs)
    (hdelivered : m'.Delivered) :
    m'.Settled socket ↔ ∀ n, happens step (fun m i ↦ m.ConsentsAt socket n i) m inputs := by
  let I : Pair → Prop := fun m ↦
    m.Linked k ∧ m.Ongoing socket ∧ ∀ n, .close ∉ (m.view socket).wire n k
  have hI : I m := by
    refine ⟨hlinked, hfresh.ongoing socket, fun n hclose ↦ ?_⟩
    rw [view] at hclose
    dsimp only at hclose
    rw [(hfresh.silent n k).1] at hclose
    cases hclose
  have hstep : ∀ m₁ i m₂, I m₁ → (i.KeepsLink ∧ ¬ m₁.Closes socket i) → m₁.step i = some m₂ →
      I m₂ ∧ ∀ n, (m₂.view socket).Wants n ↔ (m₁.view socket).Wants n ∨
        m₁.ConsentsAt socket n i := by
    rintro m₁ i m₂ ⟨hlinked, hongoing, hunclosed⟩ ⟨hkeeps, hcloses⟩ hs
    have hview := (step_view hongoing.sound hs socket).2
    refine ⟨⟨hlinked.step socket hongoing.sound hkeeps hs,
      hongoing.step (not_comesUpPending hkeeps socket) hs,
      View.unclosed_of_step hview (act_eq_close hcloses) hunclosed⟩, fun n ↦ ?_⟩
    rw [View.wants_of_step hview (act_eq_close hcloses) (act_of_keepsLink hkeeps socket).2 hlinked
      hunclosed n]
    refine ⟨fun h ↦ h.imp id consentsAt_of_act, fun h ↦ h.elim .inl fun h ↦ ?_⟩
    exact act_of_consentsAt h
  have hwants (n : Side) : (m'.view socket).Wants n ↔
      happens step (fun m i ↦ m.ConsentsAt socket n i) m inputs := by
    have hiff := holds_iff_happens (I := I) (Q := fun m ↦ (m.view socket).Wants n)
      (P := fun m i ↦ m.ConsentsAt socket n i)
      (fun m₁ i m₂ hI hg hs ↦ ⟨(hstep m₁ i m₂ hI hg hs).1,
        (hstep m₁ i m₂ hI hg hs).2 n⟩) hI h hcalls
    have hnone : ¬ (m.view socket).Wants n := by
      rw [View.Wants, view]
      dsimp only
      rw [hfresh.unopened]
      exact by simp
    rw [hiff, or_iff_right hnone]
  obtain ⟨hlinked', hongoing', -⟩ : I m' :=
    (reaches_of_runInputs h hcalls).invariant (I := I) hI fun m₁ i m₂ hI hg hs ↦
      (hstep m₁ i m₂ hI hg hs).1
  rw [settled_iff]
  rw [← forall_congr' hwants]
  refine ⟨fun hopen n ↦ .inr (hopen n), fun hwants n ↦ ?_⟩
  rcases hwants n with hpending | hopen
  · have hasked := hongoing'.answerable.requested hlinked'
      (hdelivered.wire hlinked' socket) hpending
    rcases hwants n.other with h | h <;> rw [hasked] at h <;> cases h
  · exact hopen

instance (m : Pair) (socket : SocketName) (n : Side) (i : PairInput) :
    Decidable (m.OffersAt socket n i) := by
  cases i <;> unfold OffersAt <;> infer_instance

instance (m : Pair) (socket : SocketName) (n : Side) (i : PairInput) :
    Decidable (m.ConsentsAt socket n i) := by
  cases i <;> unfold ConsentsAt <;> infer_instance

instance (m : Pair) (socket : SocketName) (i : PairInput) : Decidable (m.Closes socket i) := by
  cases i <;> unfold Closes <;> infer_instance

/-- Alice sends, Bob accepts, and what she sent goes out. -/
theorem agreement_confluent_met : ∃ m', runInputs step (start (some 0))
    [sendDelayed .a, .deliver .b [], accept .b, .deliver .a [], .deliver .b []] = some m' ∧
      m'.Settled game := by
  obtain ⟨m', h, hdelivered⟩ := exists_runInputs step (start (some 0)) Delivered
    [sendDelayed .a, .deliver .b [], accept .b, .deliver .a [], .deliver .b []] (by decide +kernel)
  exact ⟨m', h, (agreement_confluent (start_fresh _) start_linked game h (by decide +kernel)
    hdelivered).2 (by decide +kernel)⟩

/-- Alice sends, her request arrives, and then Bob sends: both have offered the connection, and
neither end opens it. -/
theorem agreement_missed : ∃ inputs m', runInputs step (start (some 0)) inputs = some m' ∧
    meets step (fun m i ↦ i.KeepsLink ∧ ¬ m.Closes game i) (start (some 0)) inputs ∧
      m'.Delivered ∧ (∀ n, happens step (fun m i ↦ m.OffersAt game n i) (start (some 0)) inputs) ∧
      ¬ m'.Settled game := by
  obtain ⟨m', h, hdelivered, hclosed⟩ := exists_runInputs step (start (some 0))
    (fun m' ↦ m'.Delivered ∧ ¬ m'.OpenAt .a game)
    [sendDelayed .a, .deliver .b [], sendDelayed .b] (by decide +kernel)
  exact ⟨_, m', h, by decide +kernel, hdelivered, by decide +kernel,
    fun hsettled ↦ hclosed (settled_iff.1 hsettled .a)⟩

end Pair
end EosMesh
