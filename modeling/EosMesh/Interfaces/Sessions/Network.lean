import EosMesh.Interfaces.Sessions.Copies
import EosMesh.Interfaces.Sessions.Ids

/-!
# Nodes that host and join sessions

Any number of nodes, each running the sessions interface, in a full mesh of reliable links: a
message travels on the link of its pair, and each link delivers in the order of sending.  Every node
has met every other, and none is ever lost.

* `SessionNetwork` is the state of it all, and `SessionNetwork.step` what can happen: a node's game
  makes a call, a tick looks at a result, or the first message of a link is delivered.
* `late_joins_refused` says when no host lets a player into a match under way that does not
  allow it.
-/

set_option autoImplicit false

namespace EosMesh

open Lib

/-- The nodes, and what is on its way between them. -/
structure SessionNetwork where
  nodes : List Bytes
  node : Bytes → Sessions
  /-- What was sent and not yet delivered, the oldest first. -/
  link : Bytes → Bytes → List SessionMessage
  /-- Who left which session, and has not joined it again. -/
  left : List (Bytes × Bytes) := []

namespace SessionNetwork

/-! ## The network -/

/-- The nodes before anything happened: each reaches and knows all others. -/
def start (nodes : List Bytes) (product : Bytes) : SessionNetwork where
  nodes
  node n :=
    { productUserId := n, productId := product, known := nodes.filter (· ≠ n)
      mesh := { peers := nodes.filter (· ≠ n) } }
  link _ _ := []

/-- What the node `n` handed to its router goes out on its links. -/
def flush (net : SessionNetwork) (n : Bytes) (s : Sessions) : SessionNetwork :=
  { net with
    node := fun m ↦ if m = n then { s with mesh := { s.mesh with sent := [] } } else net.node m
    link := fun a b ↦
      if a = n then net.link a b ++ Sessions.heardFrom s.mesh.sent b else net.link a b }

/-- The id of the session a call leaves: one that was joined, and is destroyed. -/
def leaves (s : Sessions) : Sessions.Call → Option Bytes
  | .destroySession o =>
    match s.named o with
    | .error _ => none
    | .ok (_, entry) => if entry.localState = .joined then some entry.infos.sessionId else none
  | _ => none

/-- Who has left which session, once the node `n` made a call. -/
def leftAfter (net : SessionNetwork) (n : Bytes) : Sessions.Call → List (Bytes × Bytes)
  | .joinSession o _ _ =>
    match (net.node n).joins o with
    | none => net.left
    | some joined => net.left.filter (· ≠ (n, joined.2))
  | c =>
    match leaves (net.node n) c with
    | none => net.left
    | some sessionId => (n, sessionId) :: net.left

/-- What happens: a call, a delivery from one node to another, or a tick. -/
inductive Input
  | call (n : Bytes) (c : Sessions.Call)
  | deliver (src dst : Bytes)
  | collect (n : Bytes) (address : ResultAddress) (now : Nat)
  deriving DecidableEq, Repr

/-- A message as the router hands it over. -/
def arrival (net : SessionNetwork) (src dst : Bytes) (msg : SessionMessage) : NetEnvelope :=
  (net.node src).envelope dst msg

/-- A node acts, or is given a message. -/
def step (net : SessionNetwork) : Input → Option SessionNetwork
  | .call n c =>
    if n ∈ net.nodes ∧ c.address?.all (net.node n).freshAt then
      some (({ net with left := net.leftAfter n c }).flush n ((net.node n).call c).2)
    else none
  | .deliver src dst =>
    match net.link src dst with
    | [] => none
    | msg :: rest =>
      let net' := { net with
        link := fun a b ↦ if a = src ∧ b = dst then rest else net.link a b }
      some (net'.flush dst ((net.node dst).onNetworkMessage (net.arrival src dst msg)))
  | .collect n address now =>
    if n ∈ net.nodes then some (net.flush n ((net.node n).collect address now)) else none

/-! ## Joining late -/

/-- A message, read as a join request. -/
def joinRequestOf (message : NetEnvelope) : Option SessionJoinRequest :=
  match SessionMessage.read message.typeTag message.payload with
  | some (.joinRequest request) => some request
  | _ => none

/-- A session under way that nobody may join. -/
def forbidsJoining (entry : Session) : Bool :=
  entry.localState = .hosting ∧ entry.infos.state = sessionInProgress ∧
    entry.infos.allowJoinInProgress = false

/-- Taking in `message` lets its sender into a session under way that forbids it. -/
def LetsInLate (s : Sessions) (message : NetEnvelope) : Prop :=
  ∃ (name : Bytes) (entry entry' : Session), s.sessions[name]? = some entry ∧
    forbidsJoining entry = true ∧ (s.onNetworkMessage message).sessions[name]? = some entry' ∧
    message.sourceId ∉ entry.players ∧ message.sourceId ∈ entry'.players

/-- The property of a step: no join request that is delivered does. -/
def RefusesLate (net : SessionNetwork) : Input → Prop
  | .deliver src dst => ∀ msg, (net.link src dst).head? = some msg →
    (joinRequestOf (net.arrival src dst msg)).isSome = true →
      ¬ LetsInLate (net.node dst) (net.arrival src dst msg)
  | _ => True

/-- A join request is for a session that may be joined; or it is from a stranger, from a player
already in, or comes when there is no seat left. -/
def inTime (s : Sessions) (message : NetEnvelope) (request : SessionJoinRequest) : Bool :=
  (s.findById request.sessionId).all fun found ↦
    ¬ forbidsJoining found.2 ∨ message.sourceId ∉ s.known ∨
      message.sourceId ∈ found.2.players ∨
      found.2.players.length ≥ found.2.infos.maxPlayers.toNat

/-- The condition on a step: a join request that is delivered is in time. -/
def joinsInTime (net : SessionNetwork) : Input → Bool
  | .deliver src dst => (net.link src dst).head?.all fun msg ↦
    (joinRequestOf (net.arrival src dst msg)).all (inTime (net.node dst) (net.arrival src dst msg))
  | _ => true

/-- One delivery. -/
theorem not_letsInLate {s : Sessions} {message : NetEnvelope} {request : SessionJoinRequest}
    (hread : joinRequestOf message = some request) (htime : inTime s message request = true) :
    ¬ LetsInLate s message := by
  rintro ⟨name, entry, entry', hentry, hforbids, hentry', hout, hin⟩
  have hread' : SessionMessage.read message.typeTag message.payload =
      some (.joinRequest request) := by
    rw [joinRequestOf] at hread
    split at hread
    · rename_i heq
      rw [heq, Option.some.inj hread]
    · cases hread
  obtain ⟨gone, -, hentries⟩ := (Sessions.tableStep_receive (s := s) message).entries
  obtain ⟨edited, hedit, hafter⟩ := hentries name
  rw [hafter, Option.map_eq_some_iff] at hentry'
  obtain ⟨edited, rfl, rfl⟩ := hentry'
  -- Losing peers puts nobody on a roster.
  rw [Session.without_players] at hin
  replace hin := (Sessions.foldl_erase_sublist gone edited.players).subset hin
  rw [hentry] at hedit
  have hother {msg : SessionMessage} (hreads : Sessions.Reads s message msg) :
      msg = .joinRequest request := by
    have heq := hreads.read
    rw [hread'] at heq
    exact (Option.some.inj heq).symm
  cases hedit with
  | same => exact hout hin
  | admitted hreads hfound hhosting hknown hnew hroom =>
    cases hother hreads
    rw [inTime, hfound, Option.all_some, decide_eq_true_eq] at htime
    rcases htime with hmay | hstranger | hseated | hfull
    · exact hmay hforbids
    · exact hstranger hknown
    · exact hnew hseated
    · exact Nat.not_lt.2 hfull hroom
  | told hreads => cases hother hreads
  | accepted hreads => cases hother hreads
  | rewritten hreads => cases hother hreads
  | @noticed _ adding _ _ _ hreads =>
    cases adding with
    | true => cases hother hreads
    | false => cases hother hreads

/-- **No one is let in late** in the runs of any number of nodes in which every join request that is
delivered is in time, whatever the joiner knew of the session. -/
theorem late_joins_refused {nodes : List Bytes} {product : Bytes} {inputs : List Input}
    (h : meets step (fun net i ↦ net.joinsInTime i = true) (start nodes product) inputs) :
    meets step RefusesLate (start nodes product) inputs := by
  refine h.mono fun net i htime ↦ ?_
  cases i with
  | deliver src dst =>
    intro msg hmsg hrequest
    obtain ⟨request, hrequest⟩ := Option.isSome_iff_exists.1 hrequest
    rw [joinsInTime, hmsg, Option.all_some, hrequest, Option.all_some] at htime
    exact not_letsInLate hrequest htime
  | _ => trivial

/-- The node `[1]` hosts a session under the name `[5]`, and `[2]` finds it while it is pending. -/
def foundPending : List Input :=
  [.call [1] (Sessions.stage [1] [5] 4), .call [1] (Sessions.commitTo 1),
    .call [2] (.createSessionSearch { apiVersion := 1, value := 10 }),
    .call [2] (.searchSetSessionId 1
      { apiVersion := 1, value := some (Sessions.generateSessionId (some (List.replicate 16 7))) }),
    .call [2] (.searchFind 1 { apiVersion := 1, localUserId := none } 0 100),
    .deliver [2] [1], .deliver [1] [2], .collect [2] 100 1,
    .call [2] (.searchCopyResult 1 { apiVersion := 1, value := 0 })]

/-- `[2]` joins what it found. -/
def joinFound : Input :=
  .call [2] (.joinSession { apiVersion := 1, sessionName := some [5], sessionHandle := 2
                            localUserId := some [2] } 2 101)

/-- A session joined while it is pending, and started then. -/
theorem late_joins_refused_pending : meets step RefusesLate (start [[1], [2]] [9])
    (foundPending ++ [joinFound, .deliver [2] [1],
      .call [1] (.startSession { apiVersion := 1, sessionName := some [5] })]) :=
  late_joins_refused (by decide +kernel)

/-- The host starts the session before the request comes, and lets the player in all the same. -/
theorem late_join_admitted : ∃ net, Reaches step always (start [[1], [2]] [9]) net ∧
    ¬ RefusesLate net (.deliver [2] [1]) := by
  obtain ⟨net, h, hlate⟩ := exists_reaches step always (start [[1], [2]] [9])
    (fun net ↦ (net.link [2] [1]).head?.any fun msg ↦
      (joinRequestOf (net.arrival [2] [1] msg)).isSome ∧
        ((net.node [1]).sessions[([5] : Bytes)]?).any (fun entry ↦
          forbidsJoining entry ∧ (net.arrival [2] [1] msg).sourceId ∉ entry.players) ∧
        (((net.node [1]).onNetworkMessage (net.arrival [2] [1] msg)).sessions[([5] : Bytes)]?).any
          fun entry : Session ↦ (net.arrival [2] [1] msg).sourceId ∈ entry.players)
    (foundPending ++
      [.call [1] (.startSession { apiVersion := 1, sessionName := some [5] }), joinFound])
    (by decide +kernel) (meets_always _ _)
  obtain ⟨msg, hmsg, hlate⟩ := (Option.any_eq_true _ _).1 hlate
  rw [decide_eq_true_eq] at hlate
  obtain ⟨hrequest, hbefore, hafter⟩ := hlate
  obtain ⟨entry, hentry, hforbids⟩ := (Option.any_eq_true _ _).1 hbefore
  obtain ⟨entry', hentry', hin⟩ := (Option.any_eq_true _ _).1 hafter
  rw [decide_eq_true_eq] at hforbids hin
  refine ⟨net, h, fun hrefuses ↦ hrefuses msg hmsg hrequest ?_⟩
  exact ⟨[5], entry, entry', hentry, hforbids.1, hentry', hforbids.2, hin⟩

end SessionNetwork
end EosMesh
