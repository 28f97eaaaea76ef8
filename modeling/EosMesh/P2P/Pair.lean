import EosMesh.P2P.Connection
import EosMesh.Lib.Run

/-!
# Two nodes and what is on its way between them

Two instances, each with its own idea of the link to the other.  A link is a session: what one end
sends in a session arrives at the other, in order, as long as that end has joined the same session
and not left it yet; the two ends join and leave in their own time, and no end joins a session
twice.  Between two link events the stream loses nothing.  Unreliable data may go as datagrams,
which arrive in any order or not at all.  The other peers of either node may send it what they like.

* `Pair` and `Pair.step` are this system, executable.  An input is a call of either game, the next
  message of the stream, a datagram that arrives or is lost, a link event, or a message of somebody
  else.
* `View` is what it comes to for one socket name: where the connection stands at each end, the
  sessions, and the signals on their way.  `View.Step` is how that can go, in five ways; packets,
  limits and queues make no difference to it.
* `Sound` is what ties the two: the nodes keep their names, and what is on its way goes to the other
  end.
* `post_setNode_view` and `undisturbed_view` are what a node's own step looks like from a socket
  name, by `call_spec` and `onSignal_spec`.  `leaving` and `losing` take a message off the stream or
  a datagram off the air, and `leaving_view` says what that is to a socket name.
* `step_view` says that every step is a step of each socket name, and leaves the system sound; each
  input has a lemma of its own (`Sound.called`, `Sound.delivered`, `Sound.deliveredDatagram`,
  `Sound.unlinked`).
-/

set_option autoImplicit false

namespace EosMesh

open Lib

/-- The two ends. -/
inductive Side
  | a | b
  deriving DecidableEq, Repr

/-- The end across. -/
def Side.other : Side → Side
  | a => b
  | b => a

@[simp] theorem Side.other_other (n : Side) : n.other.other = n := by cases n <;> rfl

@[simp] theorem Side.other_ne (n : Side) : n.other ≠ n := by cases n <;> decide

@[simp] theorem Side.ne_other (n : Side) : n ≠ n.other := by cases n <;> decide

theorem Side.eq_or_eq_other (n n' : Side) : n' = n ∨ n' = n.other := by
  cases n <;> cases n' <;> decide

/-! ## The system -/

/-- Two ends, and what is on its way between them in each of their sessions. -/
structure Pair where
  node : Side → P2p
  /-- The session each end is in. -/
  session : Side → Option Nat
  /-- Every session each end was ever in. -/
  joined : Side → List Nat
  /-- What each end sent on the stream of a session, and has not arrived. -/
  mesh : Side → Nat → List Outgoing
  datagrams : Side → Nat → List Outgoing

/-- What may happen to the two ends, one thing at a time. -/
inductive PairInput
  /-- The game at `n` calls; `udp` says which sends find the datagram path open. -/
  | call (n : Side) (c : P2p.Call) (udp : List Bool)
  /-- The next message of the stream arrives at `n`. -/
  | deliver (n : Side) (udp : List Bool)
  | deliverDatagram (n : Side) (i : Nat)
  | loseDatagram (n : Side) (k i : Nat)
  /-- `n` is given a message from somebody else. -/
  | foreign (n : Side) (message : NetEnvelope) (udp : List Bool)
  | linkUp (n : Side) (k : Nat)
  | linkDown (n : Side)

/-- Unreliable data goes as a datagram where it can, and everything else on the stream. -/
def route : List Bool → List Outgoing → List Outgoing × List Outgoing
  | _, [] => ([], [])
  | udp, o :: sends =>
    let (mesh, datagrams) := route udp.tail sends
    if o.signal = .data ∧ ¬ o.reliable ∧ udp.headD false then (mesh, o :: datagrams)
    else (o :: mesh, datagrams)

namespace Pair

/-- The other end, as the end `n` knows it. -/
def peer (m : Pair) (n : Side) : Bytes := (m.node n.other).productUserId

/-- The connection at `n` with the other end. -/
def key (m : Pair) (n : Side) (socket : SocketName) : ConnectionKey where
  peer := m.peer n
  socket := socket

/-- What the end `n` sends to the other goes out in the session it is in, if any. -/
def post (m : Pair) (n : Side) (udp : List Bool) (sends : List Outgoing) : Pair :=
  let routed := route udp (sends.filter fun o ↦ o.peer = m.peer n)
  { m with
    mesh := fun n' k ↦ m.mesh n' k ++ if n' = n ∧ m.session n = some k then routed.1 else []
    datagrams := fun n' k ↦
      m.datagrams n' k ++ if n' = n ∧ m.session n = some k then routed.2 else [] }

/-- One end, replaced. -/
def setNode (m : Pair) (n : Side) (p : P2p) : Pair :=
  { m with node := Function.update m.node n p }

/-- What the stream has for `n` in the session it is in. -/
def inbox (m : Pair) (n : Side) : List Outgoing :=
  match m.session n with
  | none => []
  | some k => m.mesh n.other k

/-- One thing that happens. -/
def step (m : Pair) : PairInput → Option Pair
  | .call n c udp =>
    let after := (m.node n).call c
    some ((m.setNode n after.1).post n udp after.2)
  | .deliver n udp =>
    match m.session n with
    | none => none
    | some k =>
      match m.mesh n.other k with
      | [] => none
      | o :: rest =>
        let after := (m.node n).onNetworkMessage ((m.node n.other).envelope o)
        let m := { m with
          mesh := fun n' k' ↦ if n' = n.other ∧ k' = k then rest else m.mesh n' k' }
        some ((m.setNode n after.1).post n udp after.2)
  | .deliverDatagram n i =>
    match m.session n with
    | none => none
    | some k =>
      match (m.datagrams n.other k)[i]? with
      | none => none
      | some o =>
        let after := (m.node n).onNetworkMessage ((m.node n.other).envelope o)
        let m := { m with
          datagrams := fun n' k' ↦
            if n' = n.other ∧ k' = k then (m.datagrams n' k').eraseIdx i else m.datagrams n' k' }
        some ((m.setNode n after.1).post n [] after.2)
  | .loseDatagram n k i =>
    some { m with
      datagrams := fun n' k' ↦
        if n' = n ∧ k' = k then (m.datagrams n' k').eraseIdx i else m.datagrams n' k' }
  | .foreign n message udp =>
    if message.sourceId = m.peer n then none
    else
      let after := (m.node n).onNetworkMessage message
      some ((m.setNode n after.1).post n udp after.2)
  | .linkUp n k =>
    if m.session n = none ∧ k ∉ m.joined n then
      some { m with
        session := Function.update m.session n (some k)
        joined := Function.update m.joined n (k :: m.joined n) }
    else none
  | .linkDown n =>
    if m.session n = none then none
    else
      some { (m.setNode n ((m.node n).onPeerDisconnected (m.peer n))) with
        session := Function.update m.session n none }

/-- Two nodes that have not met: two names, nothing open and nothing on its way. -/
structure Fresh (m : Pair) : Prop where
  named : ∀ n, (m.node n).productUserId ≠ []
  apart : m.peer .a ≠ m.peer .b
  unopened : ∀ n key, (m.node n).standing key = none
  silent : ∀ n k, m.mesh n k = [] ∧ m.datagrams n k = []
  known : ∀ n k, m.session n = some k → k ∈ m.joined n

/-- Both ends are in the session `k`. -/
def Linked (m : Pair) (k : Nat) : Prop := ∀ n, m.session n = some k

/-- Everything sent on the stream has arrived. -/
def Delivered (m : Pair) : Prop := ∀ n, m.inbox n = []

/-- The end `n` has the connection open. -/
def OpenAt (m : Pair) (n : Side) (socket : SocketName) : Prop :=
  (m.node n).standing (m.key n socket) = some .connectionOpen

end Pair

/-! ## One socket name -/

/-- What the system comes to for one socket name. -/
@[ext] structure View where
  standing : Side → Standing
  session : Side → Option Nat
  joined : Side → List Nat
  wire : Side → Nat → List Signal

namespace View

/-- What one end makes of the connection, replaced. -/
def set (v : View) (n : Side) (standing : Standing) : View :=
  { v with standing := Function.update v.standing n standing }

/-- What an end sends goes onto the wire of the session it is in. -/
def post (v : View) (n : Side) (sent : List Signal) : View :=
  { v with
    wire := fun n' k ↦ v.wire n' k ++ if n' = n ∧ v.session n = some k then sent else [] }

/-- The wire without the message that was taken from it. -/
def take (v : View) (n : Side) (k : Nat) (rest : List Signal) : View :=
  { v with wire := fun n' k' ↦ if n' = n ∧ k' = k then rest else v.wire n' k' }

/-- What happens to one socket name. -/
inductive Act
  | game (n : Side) (move : Move)
  | receive (n : Side) (signal : Signal)
  /-- A datagram arrives. -/
  | stray (n : Side)
  | join (n : Side) (k : Nat)
  | leave (n : Side)
  deriving DecidableEq, Repr

/-- What can happen to one connection, as its two ends and the wire between them see it. -/
inductive Step (v : View) : Act → View → Prop
  | game {n : Side} {move : Move} {sent : List Signal} (hallowed : move.Allowed (v.standing n))
      (htells : Tells (move.next (v.standing n)) move.control sent) :
      Step v (.game n move) ((v.set n (move.next (v.standing n))).post n sent)
  | receive {n : Side} {k : Nat} {signal : Signal} {rest sent : List Signal}
      (hsession : v.session n = some k) (hwire : v.wire n.other k = signal :: rest)
      (htells : Tells (react (v.standing n) signal) (reply (v.standing n) signal) sent) :
      Step v (.receive n signal)
        (((v.take n.other k rest).set n (react (v.standing n) signal)).post n sent)
  | stray {n : Side} {sent : List Signal} (htells : Tells (react (v.standing n) .data) [] sent) :
      Step v (.stray n) ((v.set n (react (v.standing n) .data)).post n sent)
  | join {n : Side} {k : Nat} (hsession : v.session n = none) (hjoined : k ∉ v.joined n) :
      Step v (.join n k) { v with
        session := Function.update v.session n (some k)
        joined := Function.update v.joined n (k :: v.joined n) }
  | leave {n : Side} :
      Step v (.leave n) { (v.set n none) with session := Function.update v.session n none }

/-- Nothing happens. -/
theorem Step.idle (v : View) (n : Side) : Step v (.game n .idle) v := by
  have hset : v.set n (v.standing n) = v := by
    rw [set, Function.update_eq_self]
  have hpost : v.post n [] = v := by
    rw [post]
    simp only [ite_self, List.append_nil]
  have hstep := @Step.game v n .idle [] trivial (.nothing _ _)
  rw [Move.next, hset, hpost] at hstep
  exact hstep

end View

/-! ## From the system to one socket name -/

namespace Pair

/-- The system, as one socket name sees it. -/
def view (m : Pair) (socket : SocketName) : View where
  standing n := (m.node n).standing (m.key n socket)
  session := m.session
  joined := m.joined
  wire n k := P2p.signalsTo (m.key n socket) (m.mesh n k)

/-- What an input is to one socket name. -/
def act (m : Pair) (socket : SocketName) : PairInput → View.Act
  | .call n c _ => .game n ((m.node n).moveOf (m.key n socket) c)
  | .deliver n _ =>
    match m.inbox n with
    | [] => .game n .idle
    | o :: _ => if o.socket = socket then .receive n o.signal else .game n .idle
  | .deliverDatagram n i =>
    match (m.session n).bind fun k ↦ (m.datagrams n.other k)[i]? with
    | none => .game n .idle
    | some o => if o.socket = socket then .stray n else .game n .idle
  | .loseDatagram n _ _ => .game n .idle
  | .foreign n _ _ => .game n .idle
  | .linkUp n k => .join n k
  | .linkDown n => .leave n

/-- The nodes keep their names, and what is on its way goes to the other end. -/
structure Sound (m : Pair) : Prop where
  named : ∀ n, (m.node n).productUserId ≠ []
  apart : m.peer .a ≠ m.peer .b
  addressed : ∀ n k, ∀ o ∈ m.mesh n k, o.peer = m.peer n
  unreliable : ∀ n k, ∀ o ∈ m.datagrams n k, o.peer = m.peer n ∧ o.signal = .data

theorem Fresh.sound {m : Pair} (h : m.Fresh) : m.Sound := by
  refine ⟨h.named, h.apart, fun n k o ho ↦ ?_, fun n k o ho ↦ ?_⟩
  · rw [(h.silent n k).1] at ho
    cases ho
  · rw [(h.silent n k).2] at ho
    cases ho

end Pair

/-! ### What is routed -/

theorem mem_route {udp : List Bool} {sends : List Outgoing} {o : Outgoing} :
    (o ∈ (route udp sends).1 → o ∈ sends) ∧
      (o ∈ (route udp sends).2 → o ∈ sends ∧ o.signal = .data) := by
  induction sends generalizing udp with
  | nil => exact ⟨fun h ↦ (List.not_mem_nil h).elim, fun h ↦ (List.not_mem_nil h).elim⟩
  | cons first sends ih =>
    rw [route]
    dsimp only
    split
    · rename_i hdata
      refine ⟨fun h ↦ List.mem_cons_of_mem _ (ih.1 h), fun h ↦ ?_⟩
      rcases List.mem_cons.1 h with rfl | h
      · exact ⟨List.mem_cons_self, hdata.1⟩
      · exact ⟨List.mem_cons_of_mem _ (ih.2 h).1, (ih.2 h).2⟩
    · refine ⟨fun h ↦ ?_, fun h ↦ ⟨List.mem_cons_of_mem _ (ih.2 h).1, (ih.2 h).2⟩⟩
      rcases List.mem_cons.1 h with rfl | h
      · exact List.mem_cons_self
      · exact List.mem_cons_of_mem _ (ih.1 h)

/-- The stream carries what there is to say, with some packets gone another way. -/
theorem signalsTo_route {key : ConnectionKey} {udp : List Bool} {sends : List Outgoing}
    {control : List Signal} {packets : Nat} (hcontrol : .data ∉ control)
    (h : P2p.signalsTo key sends = control ++ List.replicate packets .data) :
    ∃ left ≤ packets,
      P2p.signalsTo key (route udp sends).1 = control ++ List.replicate left .data := by
  induction sends generalizing udp control packets with
  | nil => exact ⟨packets, le_rfl, h⟩
  | cons first sends ih =>
    rw [P2p.signalsTo_cons] at h
    rw [route]
    dsimp only
    by_cases hkey : first.peer = key.peer ∧ first.socket = key.socket
    · rw [if_pos hkey] at h
      cases control with
      | nil =>
        cases packets with
        | zero => cases h
        | succ packets =>
          rw [List.replicate_succ, List.nil_append, List.singleton_append] at h
          obtain ⟨hfirst, hrest⟩ := List.cons.inj h
          obtain ⟨left, hle, hleft⟩ := @ih udp.tail [] packets hcontrol hrest
          split
          · exact ⟨left, hle.trans (Nat.le_succ _), hleft⟩
          · refine ⟨left + 1, Nat.succ_le_succ hle, ?_⟩
            dsimp only
            rw [P2p.signalsTo_cons, if_pos hkey, hleft, hfirst]
            rfl
      | cons signal control =>
        obtain ⟨hfirst, hrest⟩ := List.cons.inj h
        obtain ⟨left, hle, hleft⟩ :=
          @ih udp.tail control packets (fun hc ↦ hcontrol (List.mem_cons_of_mem _ hc)) hrest
        have hsignal : ¬ (first.signal = .data ∧ ¬ first.reliable ∧ udp.headD false) := by
          rw [hfirst]
          exact fun hc ↦ hcontrol (hc.1 ▸ List.mem_cons_self)
        rw [if_neg hsignal]
        refine ⟨left, hle, ?_⟩
        dsimp only
        rw [P2p.signalsTo_cons, if_pos hkey, hleft, hfirst]
        rfl
    · rw [if_neg hkey, List.nil_append] at h
      obtain ⟨left, hle, hleft⟩ := @ih udp.tail control packets hcontrol h
      refine ⟨left, hle, ?_⟩
      split
      · exact hleft
      · dsimp only
        rw [P2p.signalsTo_cons, if_neg hkey, List.nil_append, hleft]

theorem Move.data_notMem_control (move : Move) : .data ∉ move.control := by
  cases move <;> decide

theorem data_notMem_reply (standing : Standing) (signal : Signal) :
    .data ∉ reply standing signal := by
  cases standing with
  | none => exact List.not_mem_nil
  | some state => cases state <;> cases signal <;> decide

theorem Tells.routed {next : Standing} {control : List Signal} {key : ConnectionKey}
    {udp : List Bool} {sends : List Outgoing} (hcontrol : .data ∉ control)
    (h : Tells next control (P2p.signalsTo key sends)) :
    Tells next control (P2p.signalsTo key
      (route udp (sends.filter fun o ↦ o.peer = key.peer)).1) := by
  obtain ⟨packets, hsent, hopen⟩ := h
  have hsame : P2p.signalsTo key (sends.filter fun o ↦ o.peer = key.peer) =
      P2p.signalsTo key sends := by
    rw [P2p.signalsTo, P2p.signalsTo, List.filter_filter]
    congr 2
    funext o
    rw [← Bool.decide_and, decide_eq_decide]
    exact ⟨fun h ↦ h.1, fun h ↦ ⟨h, h.1⟩⟩
  rw [← hsame] at hsent
  obtain ⟨left, hle, hleft⟩ := signalsTo_route hcontrol hsent
  exact ⟨left, hleft, fun hne ↦ hopen (by omega)⟩

/-! ### One step -/

namespace Pair

variable {m m' : Pair} {n : Side} {p : P2p} {udp : List Bool} {sends : List Outgoing}
  {socket : SocketName}

theorem setNode_peer (hp : p.productUserId = (m.node n).productUserId) :
    (m.setNode n p).peer = m.peer := by
  funext n'
  rw [peer, peer, setNode]
  dsimp only
  by_cases hn : n'.other = n
  · rw [hn, Function.update_self, hp]
  · rw [Function.update_of_ne hn]

theorem setNode_view (hp : p.productUserId = (m.node n).productUserId) (socket : SocketName) :
    (m.setNode n p).view socket = (m.view socket).set n (p.standing (m.key n socket)) := by
  have hkey (n' : Side) : (m.setNode n p).key n' socket = m.key n' socket := by
    rw [key, key, setNode_peer hp]
  refine View.ext ?_ rfl rfl ?_
  · funext n'
    rw [view, View.set]
    dsimp only
    rw [hkey, setNode]
    dsimp only
    rcases eq_or_ne n' n with rfl | hn
    · rw [Function.update_self, Function.update_self]
    · rw [Function.update_of_ne hn, Function.update_of_ne hn]
      rfl
  · funext n' k
    rw [view, View.set]
    dsimp only
    rw [hkey]
    rfl

theorem signalsTo_append (key : ConnectionKey) (sends sends' : List Outgoing) :
    P2p.signalsTo key (sends ++ sends') = P2p.signalsTo key sends ++ P2p.signalsTo key sends' := by
  rw [P2p.signalsTo, List.filter_append, List.map_append]
  rfl

theorem post_view (m : Pair) (n : Side) (udp : List Bool) (sends : List Outgoing)
    (socket : SocketName) :
    (m.post n udp sends).view socket = (m.view socket).post n (P2p.signalsTo (m.key n socket)
      (route udp (sends.filter fun o ↦ o.peer = m.peer n)).1) := by
  refine View.ext rfl rfl rfl ?_
  funext n' k
  rw [view, View.post, post]
  dsimp only
  rw [signalsTo_append, view]
  dsimp only
  congr 1
  split
  · rename_i hn
    rw [hn.1]
    rfl
  · rfl

theorem Sound.setNode (h : m.Sound) (hp : p.productUserId = (m.node n).productUserId) :
    (m.setNode n p).Sound := by
  refine ⟨fun n' ↦ ?_, ?_, ?_, ?_⟩
  · rw [Pair.setNode]
    dsimp only
    rcases eq_or_ne n' n with rfl | hn
    · rw [Function.update_self, hp]
      exact h.named n'
    · rw [Function.update_of_ne hn]
      exact h.named n'
  · rw [setNode_peer hp]
    exact h.apart
  · rw [setNode_peer hp]
    exact h.addressed
  · rw [setNode_peer hp]
    exact h.unreliable

theorem Sound.post (h : m.Sound) (n : Side) (udp : List Bool) (sends : List Outgoing) :
    (m.post n udp sends).Sound := by
  refine ⟨h.named, h.apart, fun n' k o ho ↦ ?_, fun n' k o ho ↦ ?_⟩
  · rcases List.mem_append.1 ho with ho | ho
    · exact h.addressed n' k o ho
    · split at ho
      · rename_i hn
        rw [hn.1]
        exact of_decide_eq_true (List.mem_filter.1 (mem_route.1 ho)).2
      · cases ho
  · rcases List.mem_append.1 ho with ho | ho
    · exact h.unreliable n' k o ho
    · split at ho
      · rename_i hn
        rw [hn.1]
        exact ⟨of_decide_eq_true (List.mem_filter.1 (mem_route.2 ho).1).2, (mem_route.2 ho).2⟩
      · cases ho

/-- A node goes on to `after`, as seen from one socket name. -/
theorem post_setNode_view {after : P2p × List Outgoing} {next : Standing} {control : List Signal}
    (hp : after.1.productUserId = (m.node n).productUserId)
    (hnext : after.1.standing (m.key n socket) = next) (hcontrol : .data ∉ control)
    (htells : Tells next control (P2p.signalsTo (m.key n socket) after.2)) :
    ∃ sent, Tells next control sent ∧
      ((m.setNode n after.1).post n udp after.2).view socket =
        ((m.view socket).set n next).post n sent := by
  refine ⟨_, @Tells.routed _ _ _ udp _ hcontrol htells, ?_⟩
  rw [post_view, setNode_view hp, hnext, setNode_peer hp, key, setNode_peer hp]
  rfl

/-- A step in which nothing happens to the socket name, unless packets are sent on it. -/
theorem undisturbed_view {after : P2p × List Outgoing}
    (hp : after.1.productUserId = (m.node n).productUserId)
    (h : (m.node n).Undisturbed after (m.key n socket)) :
    View.Step (m.view socket) (.game n .idle)
      (((m.setNode n after.1).post n udp after.2).view socket) := by
  obtain ⟨hnext, htells⟩ := h
  rw [hnext] at htells
  obtain ⟨sent, hsent, hview⟩ :=
    @post_setNode_view m n udp socket after _ _ hp hnext List.not_mem_nil htells
  rw [hview]
  exact .game trivial hsent

/-- What is on its way to `n` in the session it is in reaches the handler of its kind. -/
theorem Sound.receives (h : m.Sound) {o : Outgoing} (n : Side)
    (hpeer : o.peer = m.peer n.other) :
    (m.node n).onNetworkMessage ((m.node n.other).envelope o) =
      (m.node n).onSignal (m.key n o.socket) o := by
  have hother : (m.node n.other).productUserId ≠ (m.node n).productUserId := by
    have hapart := h.apart
    cases n with
    | a => exact hapart
    | b => exact hapart.symm
  rw [peer, Side.other_other] at hpeer
  exact P2p.onNetworkMessage_envelope (h.named n.other) hother hpeer

/-- A message of the stream, or a datagram, about this socket name or another. -/
theorem Sound.delivered_view (h : m.Sound) {o : Outgoing} (hpeer : o.peer = m.peer n.other)
    {m₁ : Pair} (hnode : m₁.node = m.node) :
    ∃ sent,
      ((m₁.setNode n ((m.node n).onNetworkMessage ((m.node n.other).envelope o)).1).post n udp
          ((m.node n).onNetworkMessage ((m.node n.other).envelope o)).2).view socket =
        ((m₁.view socket).set n (if o.socket = socket then
          react ((m.view socket).standing n) o.signal else
            (m.view socket).standing n)).post n sent ∧
      Tells (if o.socket = socket then react ((m.view socket).standing n) o.signal
          else (m.view socket).standing n)
        (if o.socket = socket then reply ((m.view socket).standing n) o.signal else []) sent := by
  have hkey : m₁.key n socket = m.key n socket := by rw [key, key, peer, peer, hnode]
  have hp := P2p.onNetworkMessage_productUserId (m.node n) ((m.node n.other).envelope o)
  rw [h.receives n hpeer] at hp ⊢
  obtain ⟨hnext, htells⟩ := P2p.onSignal_spec (m.node n) (m.key n o.socket) (m.key n socket) o
  have hsame : m.key n o.socket = m.key n socket ↔ o.socket = socket :=
    ⟨fun h ↦ congrArg ConnectionKey.socket h, fun h ↦ by rw [h]⟩
  have hcontrol : .data ∉ if m.key n o.socket = m.key n socket then
      reply ((m.node n).standing (m.key n socket)) o.signal else [] := by
    split
    · exact data_notMem_reply _ _
    · exact List.not_mem_nil
  rw [← hkey] at hnext htells hcontrol
  obtain ⟨sent, hsent, hview⟩ := @post_setNode_view m₁ n udp socket
    ((m.node n).onSignal (m.key n o.socket) o) _ _ (by rw [hnode]; exact hp) rfl hcontrol htells
  rw [hnext, hkey] at hview hsent
  simp only [hsame] at hview hsent
  exact ⟨sent, hview, hsent⟩

/-! ### What is taken off a link -/

/-- Of what is on its way from `n` in a session, the messages `rest` are left. -/
def leaving (m : Pair) (n : Side) (k : Nat) (rest : List Outgoing) : Pair :=
  { m with mesh := fun n' k' ↦ if n' = n ∧ k' = k then rest else m.mesh n' k' }

/-- One of the datagrams of `n` is gone. -/
def losing (m : Pair) (n : Side) (k i : Nat) : Pair :=
  { m with
    datagrams := fun n' k' ↦
      if n' = n ∧ k' = k then (m.datagrams n' k').eraseIdx i else m.datagrams n' k' }

theorem Sound.leaving (h : m.Sound) {k : Nat} {o : Outgoing} {rest : List Outgoing}
    (hmesh : m.mesh n k = o :: rest) : (m.leaving n k rest).Sound := by
  refine ⟨h.named, h.apart, fun n' k' o' ho' ↦ ?_, h.unreliable⟩
  rw [Pair.leaving] at ho'
  dsimp only at ho'
  split at ho'
  · rename_i hn
    rw [hn.1]
    exact h.addressed n k o' (hmesh ▸ List.mem_cons_of_mem _ ho')
  · exact h.addressed n' k' o' ho'

theorem Sound.losing (h : m.Sound) (n : Side) (k i : Nat) : (m.losing n k i).Sound := by
  refine ⟨h.named, h.apart, h.addressed, fun n' k' o' ho' ↦ ?_⟩
  rw [Pair.losing] at ho'
  dsimp only at ho'
  split at ho'
  · exact h.unreliable n' k' o' (List.mem_of_mem_eraseIdx ho')
  · exact h.unreliable n' k' o' ho'

theorem leaving_view (m : Pair) (n : Side) (k : Nat) (rest : List Outgoing) (socket : SocketName) :
    (m.leaving n k rest).view socket =
      (m.view socket).take n k (P2p.signalsTo (m.key n socket) rest) := by
  refine View.ext rfl rfl rfl ?_
  funext n' k'
  rw [view, View.take, leaving]
  dsimp only
  split
  · rename_i hn
    rw [hn.1]
    rfl
  · rfl

/-- The first message of the stream, as one socket name sees it. -/
theorem Sound.wire_cons (h : m.Sound) {k : Nat} {o : Outgoing} {rest : List Outgoing}
    (hmesh : m.mesh n k = o :: rest) (socket : SocketName) :
    (m.view socket).wire n k =
      (if o.socket = socket then [o.signal] else []) ++ P2p.signalsTo (m.key n socket) rest := by
  have hpeer : o.peer = m.peer n := h.addressed n k o (hmesh ▸ List.mem_cons_self)
  rw [view]
  dsimp only
  rw [hmesh, P2p.signalsTo_cons]
  congr 1
  refine if_congr ?_ rfl rfl
  exact ⟨fun h ↦ h.2, fun h ↦ ⟨hpeer, h⟩⟩

theorem View.take_self {v : View} {k : Nat} {rest : List Signal} (h : v.wire n k = rest) :
    v.take n k rest = v := by
  refine View.ext rfl rfl rfl ?_
  funext n' k'
  rw [View.take]
  dsimp only
  split
  · rename_i hn
    rw [hn.1, hn.2]
    exact h.symm
  · rfl

/-! ### Each input -/

theorem Sound.called (h : m.Sound) (c : P2p.Call) (hs : m.step (.call n c udp) = some m')
    (socket : SocketName) :
    m'.Sound ∧ View.Step (m.view socket) (m.act socket (.call n c udp)) (m'.view socket) := by
  cases hs
  have hp := P2p.call_productUserId (m.node n) c
  refine ⟨(h.setNode hp).post _ _ _, ?_⟩
  obtain ⟨hallowed, hnext, htells⟩ := P2p.call_spec (m.node n) (m.key n socket) c
  obtain ⟨sent, hsent, hview⟩ := @post_setNode_view m n udp socket _ _ _ hp rfl
    (Move.data_notMem_control _) htells
  rw [hnext] at hview hsent
  rw [hview]
  exact .game hallowed hsent

theorem Sound.delivered (h : m.Sound) (hs : m.step (.deliver n udp) = some m')
    (socket : SocketName) :
    m'.Sound ∧ View.Step (m.view socket) (m.act socket (.deliver n udp)) (m'.view socket) := by
  rw [step] at hs
  dsimp only at hs
  split at hs
  · cases hs
  · rename_i k hsession
    split at hs
    · cases hs
    · rename_i o rest hmesh
      cases hs
      have hpeer : o.peer = m.peer n.other :=
        h.addressed n.other k o (hmesh ▸ List.mem_cons_self)
      have hsound := h.leaving hmesh
      refine ⟨(hsound.setNode (P2p.onNetworkMessage_productUserId _ _)).post _ _ _, ?_⟩
      obtain ⟨sent, hview, htells⟩ :=
        @Sound.delivered_view m n udp socket h o hpeer (m.leaving n.other k rest) rfl
      have hwire := h.wire_cons hmesh socket
      have hact : m.act socket (.deliver n udp) =
          if o.socket = socket then .receive n o.signal else .game n .idle := by
        rw [act, inbox, hsession]
        dsimp only
        rw [hmesh]
      refine hview ▸ ?_
      rw [hact, leaving_view]
      by_cases hsocket : o.socket = socket
      · rw [if_pos hsocket] at hwire htells ⊢
        rw [if_pos hsocket] at htells ⊢
        exact .receive hsession hwire htells
      · rw [if_neg hsocket] at hwire htells ⊢
        rw [if_neg hsocket] at htells ⊢
        rw [List.nil_append] at hwire
        rw [View.take_self hwire]
        exact .game trivial htells

/-- A datagram that arrives says nothing back. -/
theorem reply_data (standing : Standing) : reply standing .data = [] := by
  cases standing with
  | none => rfl
  | some state => cases state <;> rfl

theorem Sound.deliveredDatagram (h : m.Sound) {i : Nat}
    (hs : m.step (.deliverDatagram n i) = some m') (socket : SocketName) :
    m'.Sound ∧ View.Step (m.view socket) (m.act socket (.deliverDatagram n i))
    (m'.view socket) := by
  rw [step] at hs
  dsimp only at hs
  split at hs
  · cases hs
  · rename_i k hsession
    split at hs
    · cases hs
    · rename_i o hget
      cases hs
      obtain ⟨hpeer, hdata⟩ := h.unreliable n.other k o (List.mem_of_getElem? hget)
      have hsound := h.losing n.other k i
      refine ⟨(hsound.setNode (P2p.onNetworkMessage_productUserId _ _)).post _ _ _, ?_⟩
      obtain ⟨sent, hview, htells⟩ :=
        @Sound.delivered_view m n [] socket h o hpeer (m.losing n.other k i) rfl
      have hact : m.act socket (.deliverDatagram n i) =
          if o.socket = socket then .stray n else .game n .idle := by
        rw [act, hsession, Option.bind_some, hget]
      refine hview ▸ ?_
      rw [hact]
      by_cases hsocket : o.socket = socket
      · rw [if_pos hsocket] at htells ⊢
        rw [if_pos hsocket, hdata] at htells
        rw [if_pos hsocket, hdata]
        rw [reply_data] at htells
        exact .stray htells
      · rw [if_neg hsocket] at htells ⊢
        rw [if_neg hsocket] at htells ⊢
        exact .game trivial htells

/-- A link that goes down closes what it carried. -/
theorem Sound.unlinked (h : m.Sound) (hs : m.step (.linkDown n) = some m') (socket : SocketName) :
    m'.Sound ∧ View.Step (m.view socket) (m.act socket (.linkDown n)) (m'.view socket) := by
  rw [step] at hs
  split at hs
  · cases hs
  · cases hs
    have hp : ((m.node n).onPeerDisconnected (m.peer n)).productUserId =
        (m.node n).productUserId := P2p.foldl_queueEvent_productUserId _ _ _ _
    have hsound := h.setNode hp
    refine ⟨⟨hsound.named, hsound.apart, hsound.addressed, hsound.unreliable⟩, ?_⟩
    have hview := setNode_view hp socket
    rw [P2p.onPeerDisconnected_standing, key, if_pos rfl] at hview
    have hleave := @View.Step.leave (m.view socket) n
    rw [← hview] at hleave
    exact hleave

/-- **Each step of the system is a step of each socket name**, and leaves it sound. -/
theorem step_view {i : PairInput} (h : m.Sound) (hs : m.step i = some m') (socket : SocketName) :
    m'.Sound ∧ View.Step (m.view socket) (m.act socket i) (m'.view socket) := by
  cases i with
  | call n c udp => exact h.called c hs socket
  | deliver n udp => exact h.delivered hs socket
  | deliverDatagram n i => exact h.deliveredDatagram hs socket
  | loseDatagram n k i =>
    cases hs
    exact ⟨h.losing n k i, View.Step.idle _ _⟩
  | foreign n message udp =>
    rw [step] at hs
    dsimp only at hs
    split at hs
    · cases hs
    · rename_i hsource
      cases hs
      have hp := P2p.onNetworkMessage_productUserId (m.node n) message
      exact ⟨(h.setNode hp).post _ _ _, undisturbed_view hp
        (P2p.onNetworkMessage_undisturbed (m.node n) (m.key n socket) hsource)⟩
  | linkUp n k =>
    rw [step] at hs
    split at hs
    · rename_i hlink
      cases hs
      exact ⟨⟨h.named, h.apart, h.addressed, h.unreliable⟩, .join hlink.1 hlink.2⟩
    · cases hs
  | linkDown n => exact h.unlinked hs socket

end Pair
end EosMesh
