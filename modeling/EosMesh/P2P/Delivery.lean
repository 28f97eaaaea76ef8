import EosMesh.P2P.Packets

/-!
# What is sent arrives, in order

A packet that waits for its connection to open, and one that is sent at once, must not overtake each
other, nor the message that opens the connection at the other end.  And what was sent is what the
game asked for: the options of its call, not the packet that the code made of them.

* `View.Orderly` is what the other end can rely on: packets come behind what opens it, so one that
  is about to arrive finds the connection open (`Orderly.data_met`).  `orderly_of_step` keeps it,
  while the link is up and nobody closes.
* `underway` are the packets that have not arrived, those on the stream and then those that are
  held.  `Steady.step` says of one fair step that what arrives, with what is underway after it, is
  what was underway before it with what was sent in it: nothing is lost, repeated or reordered.
* `sentBy` is what a call that succeeds sends, read off its options alone (`P2P.Packets`), and
  `builtBy` the packet the code makes of it; `map_builtBy` is that the second describes the first.
* `Flow` is the system of two nodes with what the game of one end sent on the connection and what
  the other received, and `delivered_in_order` the result: each packet is received as its options
  describe it, once and in order, whenever everything has arrived.

`Fair` has the conditions on a step: the link stays up, nobody closes, the sender sends reliably and
lets its packets wait, it does not clear its queues, and the other end has room.  `Overflows` says
in terms of the queue when it has none.
-/

set_option autoImplicit false

namespace EosMesh

open Lib

/-! ## What opens the other end -/

namespace View

variable {v v' : View} {act : Act} {n : Side} {k : Nat}

/-- A message that opens a pending end is at the head. -/
def Led (wire : List Signal) : Prop :=
  ∃ signal rest, wire = signal :: rest ∧ (signal = .request ∨ signal = .response)

theorem Led.append {wire : List Signal} (h : Led wire) (sent : List Signal) :
    Led (wire ++ sent) := by
  obtain ⟨signal, rest, rfl, hsignal⟩ := h
  exact ⟨signal, rest ++ sent, rfl, hsignal⟩

/-- Within the session, and as long as nobody closes: what is on its way was sent by an end that
wants the connection, an end that was asked was asked by one that wants it, and an open end has the
other open, or a message that opens it ahead of everything else on its way there. -/
structure Orderly (v : View) (k : Nat) : Prop where
  unclosed : ∀ n, .close ∉ v.wire n k
  said : ∀ n, ∀ signal ∈ v.wire n k,
    v.Wants n ∧ (signal ≠ .request → v.standing n = some .connectionOpen)
  asked : ∀ n, v.standing n = some .connectionRequested → v.Wants n.other
  opened : ∀ n, v.standing n = some .connectionOpen → v.standing n.other = some .connectionOpen ∨
    (v.standing n.other = some .connectionPending ∧ Led (v.wire n k))

/-- A packet about to arrive finds the connection open. -/
theorem Orderly.data_met (h : v.Orderly k) {rest : List Signal}
    (hwire : v.wire n k = .data :: rest) :
    v.standing n.other = some .connectionOpen := by
  have hopen := (h.said n .data (hwire ▸ List.mem_cons_self)).2 (by decide)
  rcases h.opened n hopen with hother | ⟨-, signal, rest', hwire', hsignal⟩
  · exact hother
  · rw [hwire] at hwire'
    obtain ⟨rfl, -⟩ := List.cons.inj hwire'
    rcases hsignal with hne | hne <;> cases hne

theorem Orderly.wire_eq_nil (h : v.Orderly k) (hopen : v.standing n ≠ some .connectionOpen)
    (hpending : v.standing n ≠ some .connectionPending) : v.wire n k = [] := by
  refine List.eq_nil_iff_forall_not_mem.2 fun signal hsignal ↦ ?_
  rcases (h.said n signal hsignal).1 with hwant | hwant
  · exact hpending hwant
  · exact hopen hwant

/-- A pending end has nothing but requests on its way. -/
theorem Orderly.head_of_pending (h : v.Orderly k)
    (hpending : v.standing n = some .connectionPending)
    {signal : Signal} (sent : List Signal) (hsignal : signal = .request ∨ signal = .response) :
    ∃ signal' rest', v.wire n k ++ signal :: sent = signal' :: rest' ∧
      (signal' = .request ∨ signal' = .response) := by
  cases hwire : v.wire n k with
  | nil => exact ⟨signal, sent, rfl, hsignal⟩
  | cons first rest =>
    refine ⟨first, rest ++ signal :: sent, rfl, ?_⟩
    by_contra hfirst
    rw [not_or] at hfirst
    have hopen := (h.said n first (hwire ▸ List.mem_cons_self)).2 hfirst.1
    rw [hpending] at hopen
    cases hopen

/-- What is sent, and where its sender stands by then. -/
theorem said_of_tells {next : Standing} {control sent : List Signal}
    (htells : Tells next control sent)
    (hcontrol : ∀ signal ∈ control, Standing.Wanted next ∧
      (signal ≠ .request → next = some .connectionOpen)) :
    ∀ signal ∈ sent, Standing.Wanted next ∧ (signal ≠ .request → next = some .connectionOpen) := by
  obtain ⟨packets, rfl, hopen⟩ := htells
  intro signal hsignal
  rcases List.mem_append.1 hsignal with hmem | hmem
  · exact hcontrol signal hmem
  · have hnext := hopen (List.ne_nil_of_mem hmem |> fun h hzero ↦ h (by rw [hzero]; rfl))
    exact ⟨.inr hnext, fun _ ↦ hnext⟩

/-- The end `n` goes on to `next` and sends `sent`, and what it received is off its stream. -/
theorem Orderly.next (h : v.Orderly k) {next : Standing} {sent : List Signal}
    (hhere : v'.standing n = next) (hother : v'.standing n.other = v.standing n.other)
    (hsent : v'.wire n k = v.wire n k ++ sent) (hrest : v'.wire n.other k <:+ v.wire n.other k)
    (hwanted : v.Wants n → Standing.Wanted next)
    (hopen : v.standing n = some .connectionOpen → next = some .connectionOpen)
    (hclose : .close ∉ sent)
    (hsaid : ∀ signal ∈ sent, Standing.Wanted next ∧
      (signal ≠ .request → next = some .connectionOpen))
    (hasked : next = some .connectionRequested → v.Wants n.other)
    (hopened : next = some .connectionOpen → v.standing n.other = some .connectionOpen ∨
      (v.standing n.other = some .connectionPending ∧ Led (v.wire n k ++ sent)))
    (hmet : v.standing n.other = some .connectionOpen → next = some .connectionOpen ∨
      (next = some .connectionPending ∧ Led (v'.wire n.other k))) : v'.Orderly k := by
  have hsides (n' : Side) : n' = n ∨ n' = n.other := Side.eq_or_eq_other n n'
  refine ⟨fun n' ↦ ?_, fun n' ↦ ?_, fun n' ↦ ?_, fun n' ↦ ?_⟩
  · rcases hsides n' with rfl | rfl
    · rw [hsent, List.mem_append, not_or]
      exact ⟨h.unclosed n', hclose⟩
    · exact fun hmem ↦ h.unclosed n.other (hrest.subset hmem)
  · intro signal hsignal
    rcases hsides n' with rfl | rfl
    · rw [hsent, List.mem_append] at hsignal
      rw [Wants, hhere]
      rcases hsignal with hmem | hmem
      · obtain ⟨hwants, hstanding⟩ := h.said n' signal hmem
        exact ⟨hwanted hwants, fun hne ↦ hopen (hstanding hne)⟩
      · exact hsaid signal hmem
    · rw [Wants, hother]
      exact h.said n.other signal (hrest.subset hsignal)
  · intro hrequested
    rcases hsides n' with rfl | rfl
    · rw [Wants, hother]
      exact hasked (hhere.symm.trans hrequested)
    · rw [Wants, Side.other_other, hhere]
      have hwants := h.asked n.other (hother.symm.trans hrequested)
      rw [Side.other_other] at hwants
      exact hwanted hwants
  · intro hstanding
    rcases hsides n' with rfl | rfl
    · rw [hother, hsent]
      exact hopened (hhere.symm.trans hstanding)
    · rw [Side.other_other, hhere]
      exact hmet (hother.symm.trans hstanding)

theorem Orderly.game (h : v.Orderly k) (hin : v.session n = some k) {move : Move}
    {sent : List Signal} (hmove : move ≠ .close) (hallowed : move.Allowed (v.standing n))
    (htells : Tells (move.next (v.standing n)) move.control sent) :
    ((v.set n (move.next (v.standing n))).post n sent).Orderly k := by
  have hwire : ((v.set n (move.next (v.standing n))).post n sent).wire n k =
    v.wire n k ++ sent := by
    simp [hin]
  have hrest : ((v.set n (move.next (v.standing n))).post n sent).wire n.other k =
      v.wire n.other k := by simp
  have hclose : .close ∉ sent := by
    rw [htells.mem (by decide)]
    cases move with
    | close => exact absurd rfl hmove
    | _ => decide
  -- Where the connection stays as it is, so does all that is to be shown.
  have hstays (hnext : move.next (v.standing n) = v.standing n) (hcontrol : move.control = []) :
      ((v.set n (move.next (v.standing n))).post n sent).Orderly k := by
    rw [hcontrol] at htells
    refine h.next (by simp) (by simp) hwire (hrest ▸ List.suffix_refl _) ?_ ?_ hclose
      (said_of_tells htells fun signal hsignal ↦ absurd hsignal List.not_mem_nil) ?_ ?_ ?_
    · rw [hnext]
      exact id
    · rw [hnext]
      exact id
    · rw [hnext]
      exact h.asked n
    · rw [hnext]
      exact fun hopen ↦ (h.opened n hopen).imp id fun hpending ↦ ⟨hpending.1, .append hpending.2 _⟩
    · rw [hrest, hnext]
      have hopened := h.opened n.other
      rwa [Side.other_other] at hopened
  cases move with
  | idle => exact hstays rfl rfl
  | transmit => exact hstays rfl rfl
  | close => exact absurd rfl hmove
  | ask =>
    have hnotOpen : v.standing n ≠ some .connectionOpen := by
      rcases hallowed with hstanding | hstanding <;> rw [hstanding] <;> decide
    refine h.next (by simp [Move.next]) (by simp) hwire (hrest ▸ List.suffix_refl _)
      (fun _ ↦ .inl rfl) (fun hopen ↦ absurd hopen hnotOpen) hclose
        (said_of_tells htells fun signal hsignal ↦ ?_)
      (by simp) (by simp) fun hopen ↦ .inr ⟨rfl, ?_⟩
    · rw [Move.control, List.mem_singleton] at hsignal
      exact ⟨.inl rfl, fun hne ↦ absurd hsignal hne⟩
    · rw [hrest]
      have hopened := h.opened n.other hopen
      rw [Side.other_other] at hopened
      rcases hopened with hne | ⟨-, hled⟩
      · exact absurd hne hnotOpen
      · exact hled
  | agree =>
    obtain ⟨packets, rfl, -⟩ := htells
    have hempty : v.wire n k = [] :=
      h.wire_eq_nil (by rw [hallowed]; decide) (by rw [hallowed]; decide)
    refine h.next (by simp [Move.next]) (by simp) hwire (hrest ▸ List.suffix_refl _)
      (fun _ ↦ .inr rfl) (fun _ ↦ rfl) hclose (fun signal _ ↦ ⟨.inr rfl, fun _ ↦ rfl⟩) (by simp)
      (fun _ ↦ ?_) fun _ ↦ .inl rfl
    refine (h.asked n hallowed).symm.imp id fun hpending ↦ ⟨hpending, ?_⟩
    rw [hempty]
    exact ⟨.response, _, rfl, .inr rfl⟩

theorem Orderly.receive (h : v.Orderly k) (hin : v.session n = some k) {signal : Signal}
    {rest sent : List Signal} (hwire : v.wire n.other k = signal :: rest)
    (htells : Tells (react (v.standing n) signal) (reply (v.standing n) signal) sent) :
    (((v.take n.other k rest).set n (react (v.standing n) signal)).post n sent).Orderly k := by
  have hsignal : signal ≠ .close := by
    rintro rfl
    exact h.unclosed n.other (hwire ▸ List.mem_cons_self)
  obtain ⟨hother, hotherOpen⟩ := h.said n.other signal (hwire ▸ List.mem_cons_self)
  have hhere : (((v.take n.other k rest).set n (react (v.standing n) signal)).post n
      sent).standing n = react (v.standing n) signal := by simp
  have hsent : (((v.take n.other k rest).set n (react (v.standing n) signal)).post n
      sent).wire n k = v.wire n k ++ sent := by simp [hin]
  refine h.next hhere (by simp) hsent ?_ ?_ ?_ ?_ ?_ ?_ ?_ ?_
  · simp [hwire]
  · rintro (hstanding | hstanding) <;> rw [hstanding]
    · cases signal with
      | request => exact .inr rfl
      | response => exact .inr rfl
      | data => exact .inl rfl
      | close => exact absurd rfl hsignal
    · exact .inr (react_open hsignal)
  · intro hopen
    rw [hopen]
    exact react_open hsignal
  · rw [htells.mem (by decide)]
    exact close_notMem_reply _ _
  · refine said_of_tells htells fun answer hanswer ↦ ?_
    -- Only an end that is open by then answers.
    have hopen : react (v.standing n) signal = some .connectionOpen := by
      cases hstanding : v.standing n with
      | none => rw [hstanding] at hanswer; cases hanswer
      | some state =>
        rw [hstanding] at hanswer
        cases state <;> cases signal <;> first | rfl | cases hanswer
    exact ⟨.inr hopen, fun _ ↦ hopen⟩
  · exact fun _ ↦ hother
  · intro hopen
    rcases react_eq_open hopen with ⟨hbefore, -⟩ | ⟨hbefore, hopens⟩
    · exact (h.opened n hbefore).imp id fun hpending ↦ ⟨hpending.1, hpending.2.append _⟩
    · rcases hother with hpending | hopen'
      · -- Two requests that crossed: the answer follows our own request, or is the first we say.
        refine .inr ⟨hpending, ?_⟩
        rcases hopens with rfl | rfl
        · obtain ⟨packets, rfl, -⟩ := htells
          rw [hbefore]
          exact h.head_of_pending hbefore _ (.inr rfl)
        · have hopen' := hotherOpen (by decide)
          rw [hpending] at hopen'
          cases hopen'
      · exact .inl hopen'
  · intro hopen
    have hopened := h.opened n.other hopen
    rw [Side.other_other] at hopened
    rcases hopened with hstanding | ⟨hstanding, first, rest', hled, hfirst⟩
    · rw [hstanding]
      exact .inl (react_open hsignal)
    · rw [hwire] at hled
      obtain ⟨rfl, -⟩ := List.cons.inj hled
      rw [hstanding]
      rcases hfirst with rfl | rfl <;> exact .inl rfl

/-- A datagram arrives of an end that is open. -/
theorem Orderly.stray (h : v.Orderly k) (hin : v.session n = some k) {sent : List Signal}
    (hother : v.standing n.other = some .connectionOpen)
    (htells : Tells (react (v.standing n) .data) [] sent) :
    ((v.set n (react (v.standing n) .data)).post n sent).Orderly k := by
  have hclose : .close ∉ sent := by
    rw [htells.mem (by decide)]
    exact List.not_mem_nil
  have hrest : ((v.set n (react (v.standing n) .data)).post n sent).wire n.other k =
      v.wire n.other k := by simp
  have hhere : ((v.set n (react (v.standing n) .data)).post n sent).standing n =
      react (v.standing n) .data := by simp
  have hsent : ((v.set n (react (v.standing n) .data)).post n sent).wire n k =
      v.wire n k ++ sent := by simp [hin]
  refine h.next hhere (by simp) hsent (hrest ▸ List.suffix_refl _) ?_ ?_ hclose
    (said_of_tells htells fun signal hsignal ↦ absurd hsignal List.not_mem_nil)
    (fun _ ↦ .inr hother) (fun _ ↦ .inl hother) fun hopen ↦ ?_
  · rintro (hstanding | hstanding) <;> rw [hstanding]
    · exact .inl rfl
    · exact .inr rfl
  · intro hopen
    rw [hopen]
    rfl
  · have hopened := h.opened n.other hopen
    rw [Side.other_other] at hopened
    rw [hrest]
    rcases hopened with hstanding | ⟨hstanding, hled⟩ <;> rw [hstanding]
    · exact .inl rfl
    · exact .inr ⟨rfl, hled⟩

/-- An open end stays open. -/
theorem open_of_step (h : v.Step act v') (hclose : ∀ n, act ≠ .game n .close)
    (hlink : ∀ n, act ≠ .leave n) (hunclosed : ∀ n k,
    v.session n = some k → .close ∉ v.wire n.other k)
    (hopen : v.standing n = some .connectionOpen) : v'.standing n = some .connectionOpen := by
  have hset {n₀ : Side} {next : Standing} (hnext : n = n₀ → next = some .connectionOpen) :
      (v.set n₀ next).standing n = some .connectionOpen := by
    rw [set_standing]
    split
    · rename_i hn
      exact hnext hn
    · exact hopen
  cases h with
  | @game n₀ move sent hallowed htells =>
    refine hset fun hn ↦ ?_
    rw [← hn, hopen] at hallowed ⊢
    cases move with
    | idle => rfl
    | transmit => rfl
    | ask => rcases hallowed with hne | hne <;> cases hne
    | agree => rfl
    | close => exact absurd rfl (hclose n₀)
  | @receive n₀ k signal rest sent hin hwire htells =>
    refine hset fun hn ↦ ?_
    rw [← hn, hopen]
    refine react_open ?_
    rintro rfl
    exact hunclosed n₀ k hin (hwire ▸ List.mem_cons_self)
  | @stray n₀ sent htells =>
    refine hset fun hn ↦ ?_
    rw [← hn, hopen]
    rfl
  | join => exact hopen
  | @leave n₀ => exact absurd rfl (hlink n₀)

/-- **What is on its way stays in an order that the other end can rely on**, while the link is up,
nobody closes, and datagrams are only those of open ends. -/
theorem orderly_of_step (h : v.Step act v') (hboth : ∀ n, v.session n = some k)
    (hclose : ∀ n, act ≠ .game n .close) (hlink : ∀ n, act ≠ .leave n)
    (hstray : ∀ n, act = .stray n → v.standing n.other = some .connectionOpen)
    (horderly : v.Orderly k) : v'.Orderly k := by
  cases h with
  | @game n move sent hallowed htells =>
    exact horderly.game (hboth n) (fun hmove ↦ hclose n (by rw [hmove])) hallowed htells
  | @receive n k' signal rest sent hin hwire htells =>
    have hk : k' = k := Option.some.inj (hin.symm.trans (hboth n))
    subst hk
    exact horderly.receive hin hwire htells
  | @stray n sent htells => exact horderly.stray (hboth n) (hstray n rfl) htells
  | @join n k' hnone =>
    rw [hboth] at hnone
    cases hnone
  | @leave n => exact absurd rfl (hlink n)

end View

/-! ## What is on its way -/

theorem mem_route_datagrams {udp : List Bool} {sends : List Outgoing} {o : Outgoing}
    (h : o ∈ (route udp sends).2) : o.reliable = false := by
  induction sends generalizing udp with
  | nil => cases h
  | cons first sends ih =>
    rw [route] at h
    dsimp only at h
    split at h
    · rename_i hdata
      rcases List.mem_cons.1 h with rfl | h
      · simpa using hdata.2.1
      · exact ih h
    · exact ih h

/-- Packets that must arrive stay on the stream. -/
theorem packetsTo_route {key : ConnectionKey} (udp : List Bool) {sends : List Outgoing}
    (h : ∀ packet ∈ P2p.packetsTo key sends, packet.reliable = true) :
    P2p.packetsTo key (route udp (sends.filter fun o ↦ o.peer = key.peer)).1 =
      P2p.packetsTo key sends := by
  have hsame : P2p.packetsTo key (sends.filter fun o ↦ o.peer = key.peer) =
      P2p.packetsTo key sends := by
    rw [P2p.packetsTo, P2p.packetsTo, List.filter_filter]
    congr 2
    funext o
    rw [← Bool.decide_and, decide_eq_decide]
    exact ⟨fun h ↦ h.1, fun h ↦ ⟨h, h.2.1⟩⟩
  have hroute (sends : List Outgoing) (udp : List Bool)
      (h : ∀ packet ∈ P2p.packetsTo key sends, packet.reliable = true) :
      P2p.packetsTo key (route udp sends).1 = P2p.packetsTo key sends := by
    induction sends generalizing udp with
    | nil => rfl
    | cons first sends ih =>
      rw [← List.singleton_append, P2p.packetsTo_append] at h ⊢
      have hrest := ih udp.tail fun packet hpacket ↦ h packet (List.mem_append_right _ hpacket)
      rw [List.singleton_append, route]
      dsimp only
      split
      · rename_i hdata
        have hnone : P2p.packetsTo key [first] = [] := by
          by_contra hsome
          obtain ⟨packet, hpacket⟩ := List.exists_mem_of_ne_nil _ hsome
          have hreliable := h packet (List.mem_append_left _ hpacket)
          rw [P2p.packetsTo, List.mem_map] at hpacket
          obtain ⟨o, ho, rfl⟩ := hpacket
          obtain rfl := List.mem_singleton.1 (List.mem_filter.1 ho).1
          exact hdata.2.1 hreliable
        rw [hnone]
        exact hrest
      · dsimp only
        rw [← hrest, ← P2p.packetsTo_append]
        rfl
  rw [← hsame] at h ⊢
  exact hroute _ _ h

namespace Pair

variable {m m' : Pair} {i : PairInput} {n : Side} {socket : SocketName} {k : Nat}

/-- The packets of the end `n` that have not arrived: on the stream, and held. -/
def underway (m : Pair) (n : Side) (socket : SocketName) (k : Nat) : List DelayedPacket :=
  P2p.packetsTo (m.key n socket) (m.mesh n k) ++ (m.node n).held (m.key n socket)

/-- The packet that the code makes of a call at `n`. -/
def builtBy (m : Pair) (n : Side) (socket : SocketName) : PairInput → List DelayedPacket
  | .call n' c _ => if n' = n then (m.node n).built (m.key n socket) c else []
  | _ => []

/-- What the game at `n` sends with a call that succeeds, by the options of the call. -/
def sentBy (m : Pair) (n : Side) (socket : SocketName) : PairInput → List Parcel
  | .call n' c _ => if n' = n then (m.node n).taken (m.key n socket) c else []
  | _ => []

/-- The input is a call that closes the connection, by its options. -/
def Shuts (m : Pair) (socket : SocketName) : PairInput → Prop
  | .call n c _ => (m.node n).Shuts (m.key n socket) c
  | _ => False

/-- What `n` sends on the connection must arrive and may wait, and `n` does not clear its queues. -/
def SendsDependably (m : Pair) (n : Side) (socket : SocketName) : PairInput → Prop
  | .call n' c _ => n' = n → (m.node n).Dependable (m.key n socket) c
  | _ => True

/-- A packet on the connection arrives at `n`, and with it the queue would be longer than its
limit. -/
def Overflows (m : Pair) (n : Side) (socket : SocketName) : PairInput → Prop
  | .deliver n' _ => n' = n ∧ ∃ o ∈ (m.inbox n).head?, o.signal = .data ∧ o.socket = socket ∧
      (m.node n).incomingQueueMaxBytes ≠ maxQueueSizeUnlimited ∧
      (m.node n).incomingQueueMaxBytes.toNat <
        ((m.node n).receiveQueue.map fun packet ↦ packet.data.1.length).sum + o.data.1.length
  | _ => False

/-- The conditions on a step: the link stays up, nobody closes the connection, `n` sends dependably,
and the other end has room. -/
def Fair (m : Pair) (n : Side) (socket : SocketName) (i : PairInput) : Prop :=
  i.KeepsLink ∧ ¬ m.Shuts socket i ∧ m.SendsDependably n socket i ∧ ¬ m.Overflows n.other socket i

instance (m : Pair) (socket : SocketName) (i : PairInput) : Decidable (m.Shuts socket i) :=
  match i with
  | .call n c _ => inferInstanceAs (Decidable ((m.node n).Shuts (m.key n socket) c))
  | .deliver .. | .deliverDatagram .. | .loseDatagram .. | .foreign .. | .linkUp .. | .linkDown _ =>
    instDecidableFalse

instance (m : Pair) (n : Side) (socket : SocketName) (i : PairInput) :
    Decidable (m.SendsDependably n socket i) :=
  match i with
  | .call n' c _ => inferInstanceAs (Decidable (n' = n → (m.node n).Dependable (m.key n socket) c))
  | .deliver .. | .deliverDatagram .. | .loseDatagram .. | .foreign .. | .linkUp .. | .linkDown _ =>
    instDecidableTrue

instance (m : Pair) (n : Side) (socket : SocketName) (i : PairInput) :
    Decidable (m.Overflows n socket i) :=
  match i with
  | .deliver _ _ => inferInstanceAs (Decidable (_ ∧ _))
  | .call .. | .deliverDatagram .. | .loseDatagram .. | .foreign .. | .linkUp .. | .linkDown _ =>
    instDecidableFalse

instance (m : Pair) (n : Side) (socket : SocketName) (i : PairInput) :
    Decidable (m.Fair n socket i) := by
  unfold Fair
  infer_instance

/-- The end `n` goes on to `after`. -/
def proceed (m : Pair) (n : Side) (udp : List Bool) (after : P2p × List Outgoing) : Pair :=
  (m.setNode n after.1).post n udp after.2

section Proceed

variable {after : P2p × List Outgoing} {udp : List Bool}

theorem setNode_key {p : P2p} (hp : p.productUserId = (m.node n).productUserId) (n' : Side)
    (socket : SocketName) : (m.setNode n p).key n' socket = m.key n' socket := by
  rw [key, key, setNode_peer hp]

theorem proceed_key (hp : after.1.productUserId = (m.node n).productUserId) (n' : Side)
    (socket : SocketName) : (m.proceed n udp after).key n' socket = m.key n' socket :=
  setNode_key hp n' socket

theorem proceed_node_self : (m.proceed n udp after).node n = after.1 := Function.update_self ..

theorem proceed_node_other (m : Pair) (n : Side) (udp : List Bool) (after : P2p × List Outgoing) :
    (m.proceed n udp after).node n.other = m.node n.other :=
  Function.update_of_ne (Side.other_ne n) ..

theorem proceed_mesh_self (hin : m.session n = some k)
    (hp : after.1.productUserId = (m.node n).productUserId) :
    (m.proceed n udp after).mesh n k =
      m.mesh n k ++ (route udp (after.2.filter fun o ↦ o.peer = m.peer n)).1 := by
  show m.mesh n k ++ (if n = n ∧ m.session n = some k then _ else _) = _
  rw [if_pos ⟨rfl, hin⟩, setNode_peer hp]

theorem proceed_mesh_other (m : Pair) (n : Side) (udp : List Bool) (after : P2p × List Outgoing)
    (k : Nat) : (m.proceed n udp after).mesh n.other k = m.mesh n.other k := by
  show m.mesh n.other k ++ (if n.other = n ∧ m.session n = some k then _ else _) = _
  rw [if_neg (fun h ↦ Side.other_ne n h.1), List.append_nil]

/-- Where the end itself goes on, what it is given to send comes behind. -/
theorem proceed_underway (hin : m.session n = some k)
    (hp : after.1.productUserId = (m.node n).productUserId) {packets : List DelayedPacket}
    (hpasses : (m.node n).Passes (m.key n socket) packets after)
    (hreliable : ∀ packet ∈ (m.node n).held (m.key n socket) ++ packets, packet.reliable = true) :
    (m.proceed n udp after).underway n socket k = m.underway n socket k ++ packets := by
  have hsends : ∀ packet ∈ P2p.packetsTo (m.key n socket) after.2, packet.reliable = true := by
    intro packet hpacket
    refine hreliable packet ?_
    rw [← show _ = _ from hpasses]
    exact List.mem_append_left _ hpacket
  have hroute : P2p.packetsTo (m.key n socket)
      (route udp (after.2.filter fun o ↦ o.peer = m.peer n)).1 =
        P2p.packetsTo (m.key n socket) after.2 := packetsTo_route udp hsends
  rw [underway, underway, proceed_key hp, proceed_node_self, proceed_mesh_self hin hp,
    P2p.packetsTo_append, hroute, List.append_assoc, List.append_assoc]
  exact congrArg _ hpasses

/-- Where the other end does, nothing becomes of it. -/
theorem proceed_other_underway (hp : after.1.productUserId = (m.node n.other).productUserId) :
    (m.proceed n.other udp after).underway n socket k = m.underway n socket k := by
  have hnode := proceed_node_other m n.other udp after
  have hmesh := proceed_mesh_other m n.other udp after k
  rw [Side.other_other] at hnode hmesh
  rw [underway, underway, proceed_key hp, hnode, hmesh]

end Proceed

/-- Nobody changes names. -/
theorem step_key (hs : m.step i = some m') (n : Side) (socket : SocketName) :
    m'.key n socket = m.key n socket := by
  cases i with
  | call n₀ c udp =>
    cases hs
    exact proceed_key (P2p.call_productUserId _ _) n socket
  | deliver n₀ udp =>
    rw [step] at hs
    split at hs
    · cases hs
    · split at hs
      · cases hs
      · cases hs
        exact proceed_key (P2p.onNetworkMessage_productUserId _ _) n socket
  | deliverDatagram n₀ j =>
    rw [step] at hs
    split at hs
    · cases hs
    · split at hs
      · cases hs
      · cases hs
        exact proceed_key (P2p.onNetworkMessage_productUserId _ _) n socket
  | loseDatagram n₀ k j =>
    cases hs
    rfl
  | foreign n₀ message udp =>
    rw [step] at hs
    split at hs
    · cases hs
    · cases hs
      exact proceed_key (P2p.onNetworkMessage_productUserId _ _) n socket
  | linkUp n₀ k =>
    rw [step] at hs
    split at hs
    · cases hs
      rfl
    · cases hs
  | linkDown n₀ =>
    rw [step] at hs
    split at hs
    · cases hs
    · cases hs
      have hp : ((m.node n₀).onPeerDisconnected (m.peer n₀)).productUserId =
          (m.node n₀).productUserId := P2p.foldl_queueEvent_productUserId _ _ _ _
      exact setNode_key hp n socket

theorem shuts_of_closes (hcloses : m.Closes socket i) : m.Shuts socket i := by
  cases i with
  | call n₀ c udp => exact P2p.moveOf_eq_close_iff.1 hcloses
  | _ => exact hcloses.elim

/-- The packet that the code makes of a call arrives as the packet its options describe. -/
theorem map_builtBy (m : Pair) (n : Side) (socket : SocketName) (i : PairInput) :
    ((m.builtBy n socket i).map (P2p.DelayedPacket.arrived (m.key n.other socket))).map
      ReceivedPacket.parcel = m.sentBy n socket i := by
  cases i with
  | call n₀ c udp =>
    rw [builtBy, sentBy]
    split
    · have hkey : m.key n.other socket = { peer := (m.node n).productUserId, socket } := by
        rw [key, peer, Side.other_other]
      rw [hkey, List.map_map]
      exact P2p.built_parcel (m.node n) (m.key n socket) c
    · rfl
  | _ => rfl

/-! ## One step -/

/-- What holds of the two ends as long as every step is fair to the sender `n`. -/
structure Steady (m : Pair) (n : Side) (socket : SocketName) (k : Nat) : Prop where
  linked : m.Linked k
  sound : m.Sound
  orderly : (m.view socket).Orderly k
  /-- Datagrams are of the other end, and only while it has the connection open. -/
  datagrams : ∀ n', ∀ o ∈ m.datagrams n' k, o.socket = socket →
    n' = n.other ∧ m.OpenAt n.other socket
  dependable : ∀ packet ∈ (m.node n).held (m.key n socket), packet.reliable = true

theorem Fresh.steady (h : m.Fresh) (hlinked : m.Linked k) (n : Side) (socket : SocketName) :
    m.Steady n socket k := by
  have hwire (n : Side) : (m.view socket).wire n k = [] := by
    rw [view]
    dsimp only
    rw [(h.silent n k).1]
    rfl
  refine ⟨hlinked, h.sound, ⟨fun n ↦ ?_, fun n signal hsignal ↦ ?_, fun n hasked ↦ ?_,
    fun n hopen ↦ ?_⟩, fun n' o ho ↦ ?_, fun packet hpacket ↦ ?_⟩
  · rw [hwire]
    exact List.not_mem_nil
  · rw [hwire] at hsignal
    cases hsignal
  · have hnone := h.unopened n (m.key n socket)
    rw [show (m.node n).standing (m.key n socket) = _ from hasked] at hnone
    cases hnone
  · have hnone := h.unopened n (m.key n socket)
    rw [show (m.node n).standing (m.key n socket) = _ from hopen] at hnone
    cases hnone
  · rw [(h.silent n' k).2] at ho
    cases ho
  · have hnone := Option.map_eq_none_iff.1 (h.unopened n (m.key n socket))
    rw [P2p.held_of_no_entry hnone] at hpacket
    cases hpacket

/-- The link, the names, the order of what is said, and that what is open stays open. -/
theorem Steady.view_step (h : m.Steady n socket k) (hfair : m.Fair n socket i)
    (hs : m.step i = some m') : m'.Linked k ∧ m'.Sound ∧ (m'.view socket).Orderly k ∧
      (m.OpenAt n.other socket → m'.OpenAt n.other socket) := by
  obtain ⟨hkeeps, hshuts, -, -⟩ := hfair
  have hcloses : ¬ m.Closes socket i := fun hcloses ↦ hshuts (shuts_of_closes hcloses)
  obtain ⟨hsound, hview⟩ := step_view h.sound hs socket
  have hlink := (act_of_keepsLink (m := m) hkeeps socket).2
  have hclose := act_eq_close hcloses
  refine ⟨h.linked.step socket h.sound hkeeps hs, hsound,
    View.orderly_of_step hview h.linked hclose hlink (fun n' hact ↦ ?_) h.orderly,
    View.open_of_step hview hclose hlink fun n' k' hin ↦ ?_⟩
  · cases i with
    | deliverDatagram n₀ j =>
      rw [act, h.linked n₀, Option.bind_some] at hact
      split at hact
      · cases hact
      · rename_i o hget
        split at hact
        · rename_i hsocket
          cases hact
          obtain ⟨hother, hopen⟩ := h.datagrams n'.other o (List.mem_of_getElem? hget) hsocket
          rw [hother]
          exact hopen
        · cases hact
    | deliver n₀ udp =>
      rw [act] at hact
      split at hact
      · cases hact
      · split at hact <;> cases hact
    | _ => cases hact
  · obtain rfl : k = k' := Option.some.inj ((h.linked n').symm.trans hin)
    exact h.orderly.unclosed n'.other

/-- The end `n₀` goes on to `after`: a call, or something that arrived and is off its way. -/
theorem Steady.proceed (h : m.Steady n socket k) {m₁ : Pair} (hnode : m₁.node = m.node)
    (hsession : m₁.session = m.session)
    (hdatagrams : ∀ n', ∀ o ∈ m₁.datagrams n' k, o ∈ m.datagrams n' k) {n₀ : Side}
    {udp : List Bool} {after : P2p × List Outgoing} {packets : List DelayedPacket}
    {control : List Signal} (hp : after.1.productUserId = (m.node n₀).productUserId)
    (hview : (m₁.proceed n₀ udp after).Linked k ∧ (m₁.proceed n₀ udp after).Sound ∧
      ((m₁.proceed n₀ udp after).view socket).Orderly k ∧
      (m.OpenAt n.other socket → (m₁.proceed n₀ udp after).OpenAt n.other socket))
    (hpasses : n₀ = n → (m.node n).Passes (m.key n socket) packets after ∧
      ∀ packet ∈ packets, packet.reliable = true)
    (hcontrol : .data ∉ control) (htells : Tells (after.1.standing (m.key n₀ socket)) control
      (P2p.signalsTo (m.key n₀ socket) after.2)) :
    (m₁.proceed n₀ udp after).Steady n socket k ∧
      (m₁.proceed n₀ udp after).underway n socket k =
        m₁.underway n socket k ++ if n₀ = n then packets else [] := by
  have hkey (n : Side) : m₁.key n socket = m.key n socket := by rw [key, key, peer, peer, hnode]
  have hin : m₁.session n₀ = some k := by rw [hsession]; exact h.linked n₀
  rw [← hnode] at hp
  obtain ⟨hlinked, hsound, horderly, hopen⟩ := hview
  rcases Side.eq_or_eq_other n n₀ with rfl | rfl
  · obtain ⟨hpasses, hreliable⟩ := hpasses rfl
    have hall : ∀ packet ∈ (m.node n₀).held (m.key n₀ socket) ++ packets,
        packet.reliable = true := fun packet hpacket ↦
      (List.mem_append.1 hpacket).elim (h.dependable packet) (hreliable packet)
    have hsent : ∀ packet ∈ P2p.packetsTo (m.key n₀ socket) after.2 ++
        after.1.held (m.key n₀ socket), packet.reliable = true := by
      rw [show _ = _ from hpasses]
      exact hall
    refine ⟨⟨hlinked, hsound, horderly, fun n' o ho hsocket ↦ ?_, fun packet hpacket ↦ ?_⟩, ?_⟩
    · rcases List.mem_append.1 ho with ho | ho
      · exact (h.datagrams n' o (hdatagrams n' o ho) hsocket).imp id hopen
      · -- A datagram of the sender would be a packet that need not arrive.
        split at ho
        · have hunreliable := mem_route_datagrams ho
          obtain ⟨hmem, hdata⟩ := mem_route.2 ho
          obtain ⟨hmem, hpeer⟩ := List.mem_filter.1 hmem
          have hpeer' : o.peer = m.peer n₀ := by
            rw [setNode_peer hp, decide_eq_true_eq] at hpeer
            exact hpeer.trans (congrArg ConnectionKey.peer (hkey n₀))
          have hpacket : P2p.Outgoing.packet o ∈ P2p.packetsTo (m.key n₀ socket) after.2 :=
            List.mem_map_of_mem (List.mem_filter.2 ⟨hmem, decide_eq_true ⟨hdata, hpeer', hsocket⟩⟩)
          have hreliable : o.reliable = true := hsent _ (List.mem_append_left _ hpacket)
          rw [hunreliable] at hreliable
          cases hreliable
        · cases ho
    · rw [proceed_key hp, hkey, proceed_node_self] at hpacket
      exact hsent packet (List.mem_append_right _ hpacket)
    · rw [if_pos rfl]
      refine proceed_underway hin hp ?_ ?_
      · rw [hnode, hkey]
        exact hpasses
      · rw [hnode, hkey]
        exact hall
  · refine ⟨⟨hlinked, hsound, horderly, fun n' o ho hsocket ↦ ?_, fun packet hpacket ↦ ?_⟩, ?_⟩
    · rcases List.mem_append.1 ho with ho | ho
      · exact (h.datagrams n' o (hdatagrams n' o ho) hsocket).imp id hopen
      · split at ho
        · rename_i hn
          refine ⟨hn.1, ?_⟩
          obtain ⟨hmem, hdata⟩ := mem_route.2 ho
          obtain ⟨hmem, hpeer⟩ := List.mem_filter.1 hmem
          have hpeer' : o.peer = m.peer n.other := by
            rw [setNode_peer hp, decide_eq_true_eq] at hpeer
            exact hpeer.trans (congrArg ConnectionKey.peer (hkey n.other))
          -- Packets are only sent on an open connection.
          have hsignal : Signal.data ∈ P2p.signalsTo (m.key n.other socket) after.2 := by
            rw [← hdata]
            exact List.mem_map_of_mem (List.mem_filter.2 ⟨hmem, decide_eq_true ⟨hpeer', hsocket⟩⟩)
          obtain ⟨packets', hsignals, hstanding⟩ := htells
          rw [OpenAt, proceed_key hp, hkey, proceed_node_self]
          refine hstanding fun hzero ↦ hcontrol ?_
          rw [hsignals, hzero, List.replicate_zero, List.append_nil] at hsignal
          exact hsignal
        · cases ho
    · have hsame := proceed_node_other m₁ n.other udp after
      rw [Side.other_other] at hsame
      rw [proceed_key hp, hkey, hsame, hnode] at hpacket
      exact h.dependable packet hpacket
    · rw [if_neg (Side.other_ne n), List.append_nil]
      exact proceed_other_underway hp

/-- What went onto the queue of the other end, between two states. -/
def arrivals (m m' : Pair) (n : Side) (socket : SocketName) : List ReceivedPacket :=
  P2p.queued (m.key n.other socket) (m.node n.other) (m'.node n.other)

theorem arrivals_of_node (h : m'.node n.other = m.node n.other) : m.arrivals m' n socket = [] := by
  rw [arrivals, h]
  exact P2p.queued_of_sublist (.refl _)

/-- One step: what arrives, and what is then underway, was underway before or is sent. -/
def Flows (m m' : Pair) (n : Side) (socket : SocketName) (k : Nat) (i : PairInput) : Prop :=
  m.arrivals m' n socket ++
      (m'.underway n socket k).map (P2p.DelayedPacket.arrived (m.key n.other socket)) =
    (m.underway n socket k ++ m.builtBy n socket i).map
      (P2p.DelayedPacket.arrived (m.key n.other socket))

theorem Flows.quiet (harrivals : m.arrivals m' n socket = [])
    (hunderway : m'.underway n socket k = m.underway n socket k ++ m.builtBy n socket i) :
    m.Flows m' n socket k i := by
  rw [Flows, harrivals, hunderway, List.nil_append]

theorem Steady.call (h : m.Steady n socket k) {n₀ : Side} {c : P2p.Call} {udp : List Bool}
    (hfair : m.Fair n socket (.call n₀ c udp)) (hs : m.step (.call n₀ c udp) = some m') :
    m'.Steady n socket k ∧ m.Flows m' n socket k (.call n₀ c udp) := by
  have hview := h.view_step hfair hs
  obtain ⟨-, hshuts, hdependable, -⟩ := hfair
  have hcloses : ¬ m.Closes socket (.call n₀ c udp) := fun hcloses ↦
    hshuts (shuts_of_closes hcloses)
  cases hs
  have hp := P2p.call_productUserId (m.node n₀) c
  obtain ⟨-, -, htells⟩ := P2p.call_spec (m.node n₀) (m.key n₀ socket) c
  have hpasses (hn : n₀ = n) : (m.node n).Passes (m.key n socket)
      ((m.node n).built (m.key n socket) c) ((m.node n₀).call c) ∧
        ∀ packet ∈ (m.node n).built (m.key n socket) c, packet.reliable = true := by
    subst hn
    exact ⟨P2p.call_passes (hdependable rfl) hcloses, P2p.built_reliable (hdependable rfl)⟩
  obtain ⟨hsteady, hunderway⟩ := h.proceed rfl rfl (fun _ _ ho ↦ ho) hp hview hpasses
    (Move.data_notMem_control _) htells
  refine ⟨hsteady, .quiet ?_ hunderway⟩
  rcases Side.eq_or_eq_other n n₀ with rfl | rfl
  · exact arrivals_of_node (proceed_node_other m n₀ udp _)
  · rw [arrivals]
    refine P2p.queued_of_sublist ?_
    show ((m.proceed n.other udp _).node n.other).receiveQueue.Sublist _
    rw [proceed_node_self]
    exact P2p.call_sublist _ _

/-- Something of the one end arrives at the other, `n₀`. -/
theorem Steady.arrive (h : m.Steady n socket k) (m₁ : Pair) (hnode : m₁.node = m.node)
    (hsession : m₁.session = m.session)
    (hdatagrams : ∀ n', ∀ o ∈ m₁.datagrams n' k, o ∈ m.datagrams n' k) {n₀ : Side}
    {udp : List Bool} {o : Outgoing} (hpeer : o.peer = m.peer n₀.other)
    (hs : m.step i = some (m₁.proceed n₀ udp
      ((m.node n₀).onNetworkMessage ((m.node n₀.other).envelope o))))
    (hfair : m.Fair n socket i) (hclose : o.socket = socket → o.signal ≠ .close)
    (hdata : n₀ = n.other → o.signal = .data → o.socket = socket → m.OpenAt n.other socket ∧
      P2p.exceeds (m.node n.other).incomingQueueMaxBytes (m.node n.other).incomingQueuedBytes
        o.data.1.length = false)
    (hsent : m.builtBy n socket i = [])
    (hunderway : m.underway n socket k = (if n₀ = n.other ∧ o.signal = .data ∧
    o.socket = socket then
      [P2p.Outgoing.packet o] else []) ++ m₁.underway n socket k) :
    (m₁.proceed n₀ udp ((m.node n₀).onNetworkMessage ((m.node n₀.other).envelope o))).Steady
        n socket k ∧
      m.Flows (m₁.proceed n₀ udp ((m.node n₀).onNetworkMessage ((m.node n₀.other).envelope o)))
        n socket k i := by
  have hview := h.view_step hfair hs
  have hp := P2p.onNetworkMessage_productUserId (m.node n₀) ((m.node n₀.other).envelope o)
  rw [h.sound.receives n₀ hpeer] at hview hp ⊢
  obtain ⟨-, htells⟩ := P2p.onSignal_spec (m.node n₀) (m.key n₀ o.socket) (m.key n₀ socket) o
  have hsame : m.key n₀ o.socket = m.key n₀ socket ↔ o.socket = socket :=
    ⟨fun h ↦ congrArg ConnectionKey.socket h, fun h ↦ by rw [h]⟩
  have hcontrol : .data ∉ if m.key n₀ o.socket = m.key n₀ socket then
      reply ((m.node n₀).standing (m.key n₀ socket)) o.signal else [] := by
    split
    · exact data_notMem_reply _ _
    · exact List.not_mem_nil
  have hpasses (hn : n₀ = n) : (m.node n).Passes (m.key n socket) []
      ((m.node n₀).onSignal (m.key n₀ o.socket) o) ∧
        ∀ packet ∈ ([] : List DelayedPacket), packet.reliable = true := by
    subst hn
    refine ⟨P2p.onSignal_passes fun hsignal heq ↦ hclose (hsame.1 heq) hsignal,
      fun packet hpacket ↦ ?_⟩
    cases hpacket
  obtain ⟨hsteady, hafter⟩ := h.proceed hnode hsession hdatagrams hp hview hpasses hcontrol htells
  refine ⟨hsteady, ?_⟩
  rw [ite_self, List.append_nil] at hafter
  rw [Flows, hafter, hsent, List.append_nil, hunderway, List.map_append]
  congr 1
  rcases Side.eq_or_eq_other n n₀ with rfl | rfl
  · rw [if_neg (fun hc ↦ Side.ne_other n₀ hc.1)]
    refine arrivals_of_node ?_
    rw [proceed_node_other, hnode]
  · rw [arrivals, proceed_node_self, P2p.queued_onSignal fun hsignal heq ↦
      hdata rfl hsignal (hsame.1 heq)]
    by_cases hc : o.signal = .data ∧ o.socket = socket
    · rw [if_pos ⟨hc.1, hsame.2 hc.2⟩, if_pos ⟨rfl, hc⟩]
      rfl
    · rw [if_neg (fun h ↦ hc ⟨h.1, hsame.1 h.2⟩), if_neg (fun h ↦ hc h.2)]
      rfl

theorem Steady.deliver (h : m.Steady n socket k) {n₀ : Side} {udp : List Bool}
    (hfair : m.Fair n socket (.deliver n₀ udp)) (hs : m.step (.deliver n₀ udp) = some m') :
    m'.Steady n socket k ∧ m.Flows m' n socket k (.deliver n₀ udp) := by
  have hs' := hs
  rw [step, h.linked n₀] at hs'
  dsimp only at hs'
  split at hs'
  · cases hs'
  · rename_i o rest hmesh
    cases hs'
    have hpeer := h.sound.addressed n₀.other k o (hmesh ▸ List.mem_cons_self)
    -- It is the first of what its end said about the connection.
    have hwire : o.socket = socket → (m.view socket).wire n₀.other k =
        o.signal :: P2p.signalsTo (m.key n₀.other socket) rest := by
      intro hsocket
      rw [view]
      dsimp only
      rw [hmesh, P2p.signalsTo_cons, if_pos ⟨hpeer, hsocket⟩]
      rfl
    have hclose : o.socket = socket → o.signal ≠ .close := by
      intro hsocket hsignal
      refine h.orderly.unclosed n₀.other ?_
      rw [hwire hsocket, hsignal]
      exact List.mem_cons_self
    refine h.arrive
      { m with mesh := fun n' k' ↦ if n' = n₀.other ∧ k' = k then rest else m.mesh n' k' }
      rfl rfl (fun _ _ ho ↦ ho) hpeer hs hfair hclose ?_ rfl ?_
    · rintro rfl hsignal hsocket
      have hfirst := hwire hsocket
      rw [Side.other_other, hsignal] at hfirst
      refine ⟨h.orderly.data_met hfirst, ?_⟩
      by_contra hroom
      refine hfair.2.2.2 ⟨rfl, o, ?_, hsignal, hsocket,
        P2p.exceeds_iff.1 (eq_true_of_ne_false hroom)⟩
      rw [inbox, h.linked n.other]
      dsimp only
      rw [hmesh]
      rfl
    · rw [underway, underway, ← List.append_assoc]
      dsimp only
      congr 1
      rcases Side.eq_or_eq_other n n₀ with rfl | rfl
      · rw [if_neg (fun hc ↦ Side.ne_other n₀ hc.1), if_neg (fun hc ↦ Side.ne_other n₀ hc.1)]
        rfl
      · rw [Side.other_other] at hmesh hpeer ⊢
        have hrest : (if n = n ∧ k = k then rest else m.mesh n k) = rest := if_pos ⟨rfl, rfl⟩
        rw [hrest, hmesh, ← List.singleton_append, P2p.packetsTo_append]
        refine congrArg (· ++ P2p.packetsTo (m.key n socket) rest) ?_
        by_cases hc : o.signal = .data ∧ o.socket = socket
        · rw [if_pos ⟨rfl, hc⟩, P2p.packetsTo, List.filter_cons_of_pos]
          · rfl
          · exact decide_eq_true ⟨hc.1, hpeer, hc.2⟩
        · rw [if_neg (fun h ↦ hc h.2), P2p.packetsTo, List.filter_cons_of_neg]
          · rfl
          · exact fun hmem ↦ hc ⟨(of_decide_eq_true hmem).1, (of_decide_eq_true hmem).2.2⟩

theorem Steady.deliverDatagram (h : m.Steady n socket k) {n₀ : Side} {j : Nat}
    (hfair : m.Fair n socket (.deliverDatagram n₀ j))
    (hs : m.step (.deliverDatagram n₀ j) = some m') :
    m'.Steady n socket k ∧ m.Flows m' n socket k (.deliverDatagram n₀ j) := by
  have hs' := hs
  rw [step, h.linked n₀] at hs'
  dsimp only at hs'
  split at hs'
  · cases hs'
  · rename_i o hget
    cases hs'
    have hmem := List.mem_of_getElem? hget
    obtain ⟨hpeer, hdata⟩ := h.sound.unreliable n₀.other k o hmem
    -- The sender has no datagram on this connection.
    have hother (hn : n₀ = n.other) : o.socket ≠ socket := by
      intro hsocket
      have hn' := (h.datagrams n₀.other o hmem hsocket).1
      rw [hn, Side.other_other] at hn'
      exact Side.ne_other n hn'
    refine h.arrive
      { m with datagrams := fun n' k' ↦
          if n' = n₀.other ∧ k' = k then (m.datagrams n' k').eraseIdx j else m.datagrams n' k' }
      rfl rfl (fun n' o' ho' ↦ ?_) hpeer hs hfair
      (fun _ ↦ by rw [hdata]; decide) (fun hn _ hsocket ↦ absurd hsocket (hother hn)) rfl ?_
    · dsimp only at ho'
      split at ho'
      · exact List.mem_of_mem_eraseIdx ho'
      · exact ho'
    · rw [if_neg (fun hc ↦ hother hc.1 hc.2.2), List.nil_append]
      rfl

theorem Steady.foreign (h : m.Steady n socket k) {n₀ : Side} {message : NetEnvelope}
    {udp : List Bool} (hfair : m.Fair n socket (.foreign n₀ message udp))
    (hs : m.step (.foreign n₀ message udp) = some m') :
    m'.Steady n socket k ∧ m.Flows m' n socket k (.foreign n₀ message udp) := by
  have hview := h.view_step hfair hs
  rw [step] at hs
  dsimp only at hs
  split at hs
  · cases hs
  · rename_i hsource
    cases hs
    have hp := P2p.onNetworkMessage_productUserId (m.node n₀) message
    obtain ⟨-, htells⟩ := P2p.onNetworkMessage_undisturbed (m.node n₀) (m.key n₀ socket) hsource
    have hpasses (hn : n₀ = n) : (m.node n).Passes (m.key n socket) []
        ((m.node n₀).onNetworkMessage message) ∧
          ∀ packet ∈ ([] : List DelayedPacket), packet.reliable = true := by
      subst hn
      refine ⟨P2p.onNetworkMessage_passes hsource, fun packet hpacket ↦ ?_⟩
      cases hpacket
    obtain ⟨hsteady, hunderway⟩ := h.proceed rfl rfl (fun _ _ ho ↦ ho) hp hview hpasses
      List.not_mem_nil htells
    rw [ite_self] at hunderway
    refine ⟨hsteady, .quiet ?_ hunderway⟩
    rcases Side.eq_or_eq_other n n₀ with rfl | rfl
    · exact arrivals_of_node (proceed_node_other m n₀ udp _)
    · rw [arrivals]
      show P2p.queued _ _ ((m.proceed n.other udp _).node n.other) = _
      rw [proceed_node_self]
      exact P2p.queued_foreign hsource

/-- **A fair step loses, repeats and reorders none of the packets between the two ends.** -/
theorem Steady.step (h : m.Steady n socket k) (hfair : m.Fair n socket i)
    (hs : m.step i = some m') : m'.Steady n socket k ∧ m.Flows m' n socket k i := by
  cases i with
  | call n₀ c udp => exact h.call hfair hs
  | deliver n₀ udp => exact h.deliver hfair hs
  | deliverDatagram n₀ j => exact h.deliverDatagram hfair hs
  | foreign n₀ message udp => exact h.foreign hfair hs
  | loseDatagram n₀ k' j =>
    obtain ⟨hlinked, hsound, horderly, -⟩ := h.view_step hfair hs
    cases hs
    refine ⟨⟨hlinked, hsound, horderly, fun n' o ho ↦ h.datagrams n' o ?_, h.dependable⟩,
      .quiet (arrivals_of_node rfl) (List.append_nil _).symm⟩
    dsimp only at ho
    split at ho
    · exact List.mem_of_mem_eraseIdx ho
    · exact ho
  | linkUp => exact hfair.1.elim
  | linkDown => exact hfair.1.elim

end Pair

/-! ## Runs -/

/-- The two nodes, with what the game of one end sent on the connection, and what the other received
on it. -/
structure Flow where
  pair : Pair
  sent : List Parcel := []
  received : List ReceivedPacket := []

namespace Flow

variable {s s' : Flow} {n : Side} {socket : SocketName} {k : Nat}

/-- One thing that happens, with what was sent and received in it. -/
def step (n : Side) (socket : SocketName) (s : Flow) (i : PairInput) : Option Flow :=
  (s.pair.step i).map fun m ↦
    { pair := m
      sent := s.sent ++ s.pair.sentBy n socket i
      received := s.received ++ s.pair.arrivals m n socket }

/-- How the packets that have not arrived will. -/
def expected (s : Flow) (n : Side) (socket : SocketName) (k : Nat) : List ReceivedPacket :=
  (s.pair.underway n socket k).map (P2p.DelayedPacket.arrived (s.pair.key n.other socket))

/-- What was received, then what is underway, are what was sent. -/
def Conserved (s : Flow) (n : Side) (socket : SocketName) (k : Nat) : Prop :=
  s.pair.Steady n socket k ∧
    (s.received ++ s.expected n socket k).map ReceivedPacket.parcel = s.sent

theorem Conserved.step (h : s.Conserved n socket k) {i : PairInput}
    (hfair : s.pair.Fair n socket i) (hs : s.step n socket i = some s') :
    s'.Conserved n socket k := by
  obtain ⟨hsteady, hconserved⟩ := h
  obtain ⟨m', hm', rfl⟩ := Option.map_eq_some_iff.1 hs
  obtain ⟨hsteady', hflows⟩ := hsteady.step hfair hm'
  refine ⟨hsteady', ?_⟩
  have hkey : m'.key n.other socket = s.pair.key n.other socket :=
    Pair.step_key hm' n.other socket
  rw [expected] at hconserved ⊢
  dsimp only
  rw [hkey, List.append_assoc]
  calc (s.received ++ (s.pair.arrivals m' n socket ++ _)).map ReceivedPacket.parcel
      = (s.received ++ (s.pair.underway n socket k ++ s.pair.builtBy n socket i).map
          (P2p.DelayedPacket.arrived (s.pair.key n.other socket))).map ReceivedPacket.parcel :=
        congrArg (fun arrived ↦ (s.received ++ arrived).map ReceivedPacket.parcel) hflows
    _ = s.sent ++ s.pair.sentBy n socket i := by
        rw [List.map_append, List.map_append, List.map_append, ← List.append_assoc,
          ← List.map_append, hconserved, Pair.map_builtBy]

/-- **Packets sent reliably on a socket are received as the options of the calls described them**,
each once and in order, whenever everything has arrived and the connection is open, wherever among
them it opened: if the link stays up, nobody closes the connection, the sender lets them wait and
does not clear its queues, and the receiver has room. -/
theorem delivered_in_order {m : Pair} (hfresh : m.Fresh) (hlinked : m.Linked k)
    (h : Reaches (step n socket) (fun s i ↦ s.pair.Fair n socket i) { pair := m } s)
    (hdelivered : s.pair.Delivered) (hopen : s.pair.OpenAt n socket ∨
    s.pair.OpenAt n.other socket) :
    s.received.map ReceivedPacket.parcel = s.sent := by
  have hconserved : s.Conserved n socket k :=
    h.invariant (I := fun s ↦ s.Conserved n socket k) ⟨hfresh.steady hlinked n socket, by
      have hnone := Option.map_eq_none_iff.1 (hfresh.unopened n (m.key n socket))
      rw [expected, Pair.underway, (hfresh.silent n k).1, P2p.held_of_no_entry hnone]
      rfl⟩
      fun s₁ i s₂ hs hfair hstep ↦ hs.step hfair hstep
  obtain ⟨hsteady, hconserved⟩ := hconserved
  have hwire := hdelivered.wire hsteady.linked socket
  -- With nothing on its way, one end has the connection open only when both have.
  have hopen : s.pair.OpenAt n socket := by
    refine hopen.elim id fun hother ↦ ?_
    have hopened := hsteady.orderly.opened n.other hother
    rw [Side.other_other] at hopened
    rcases hopened with hopen | ⟨-, signal, rest, hled, -⟩
    · exact hopen
    · rw [hwire] at hled
      cases hled
  obtain ⟨entry, hentry, hstate⟩ := Option.map_eq_some_iff.1 hopen
  have hmesh : s.pair.mesh n k = [] := by
    have hinbox := hdelivered n.other
    rw [Pair.inbox, hsteady.linked n.other, Side.other_other] at hinbox
    exact hinbox
  have hnothing : s.pair.underway n socket k = [] := by
    rw [Pair.underway, hmesh, P2p.held_of_lookup hentry, entry.settled hstate]
    rfl
  rw [expected, hnothing, List.map_nil, List.append_nil] at hconserved
  exact hconserved

/-- A reliable packet of Alice's that may wait: the first `length` bytes of the buffer. -/
def aliceSends (channel : UInt8) (length : UInt32) (buffer : Bytes) : PairInput :=
  .call .a (.sendPacket {
    apiVersion := 3, localUserId := some Pair.alice, remoteUserId := some Pair.bob
    socketId := some Pair.gameId, channel, dataLengthBytes := length, data := some buffer
    bAllowDelayedDelivery := eosTrue, reliability := .reliableOrdered
    bDisableAutoAcceptConnection := 0 }) []

/-- A packet that comes from her. -/
def ofAlice (channel : UInt8) (data : Bytes) : Parcel :=
  { peer := Pair.alice, socket := Pair.game.1, channel, data }

/-- Alice sends twice before Bob accepts, and twice after. -/
theorem delivered_in_order_flushed : ∃ s,
    Reaches (step .a Pair.game) (fun s i ↦ s.pair.Fair .a Pair.game i)
      { pair := Pair.start (some 0) } s ∧
    s.sent = [ofAlice 3 [1, 2], ofAlice 0 [], ofAlice 255 [7], ofAlice 3 [1, 2]] ∧
    s.received.map ReceivedPacket.parcel = s.sent := by
  obtain ⟨s, h, hdelivered, hopen, hsent⟩ := exists_reaches (step .a Pair.game)
    (fun s i ↦ s.pair.Fair .a Pair.game i) { pair := Pair.start (some 0) }
    (fun s ↦ s.pair.Delivered ∧ s.pair.OpenAt .a Pair.game ∧
      s.sent = [ofAlice 3 [1, 2], ofAlice 0 [], ofAlice 255 [7], ofAlice 3 [1, 2]])
    [aliceSends 3 2 [1, 2, 9], aliceSends 0 0 [], .deliver .b [], Pair.accept .b, .deliver .a [],
      aliceSends 255 1 [7], .deliver .b [], aliceSends 3 2 [1, 2], .deliver .b [], .deliver .b [],
      .deliver .b []]
    (by decide +kernel) (by decide +kernel)
  exact ⟨s, h, hsent, delivered_in_order (Pair.start_fresh _) Pair.start_linked h hdelivered
    (.inl hopen)⟩

end Flow
end EosMesh
