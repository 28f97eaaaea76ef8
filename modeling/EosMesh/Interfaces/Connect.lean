import EosMesh.Interfaces.Mesh
import EosMesh.P2P.Pair

/-!
# The Connect interface

`interfaces/connect.cpp`: who is logged in here, and the roster of peers we have met.  An instance
tells a peer who it is when the link to it comes up, if it is logged in by then, and in answer to a
request; no code sends such a request.  A login tells nobody anything.  So an instance that is
linked first and logged in later is never introduced.

* `Connect` is one instance, with `Connect.login` and `Connect.onNetworkMessage`.  A peer is taken
  for whom the connection proved it to be, never for whom its payload says (`record`).
* `ConnectPair` is two of them: they log in, each end of the link comes up in its own time, and what
  was sent arrives in order.
* `Settled` says that both are logged in, both ends are up, and nothing is on its way; `Knows` that
  the roster of an end has the other, by its name.
* `Tidy` is the invariant: what is on the way are introductions of the one who sent them, and each
  end has introduced itself exactly if it was logged in when its end came up.  `Missed` is the other
  case, and from then on it stays so.
* `Tidy.knows_iff` reads off it who knows whom once all is settled.

`rosters_converge` says when the two end up knowing each other: exactly when neither end came up
before its instance was logged in.  `rosters_converge_early` and `rosters_apart` are a run of each
kind.
-/

set_option autoImplicit false

namespace EosMesh

open Lib
open Std (TreeMap)

/-! ## One instance -/

/-- The versions of the options that we know. -/
def connectLoginApiLatest : Int32 := 2
def connectCredentialsApiLatest : Int32 := 1

/-- `EOS_ECT_EPIC` and `EOS_ECT_VIVEPORT_USER_TOKEN`, the first and the last credential type. -/
def lowestCredentialType : Int32 := 0
/-- The last of the SDK's external credential types. -/
def highestCredentialType : Int32 := 19

/-- The credentials of a login; a null text is `none`. -/
structure ConnectCredentials where
  apiVersion : Int32
  token : Option Bytes
  type : Int32
  deriving DecidableEq, Repr

/-- The options to log in with. -/
structure ConnectLoginOptions where
  apiVersion : Int32
  credentials : Option ConnectCredentials
  deriving DecidableEq, Repr

/-- Who it is by `settings_`, who is logged in, and the display names of the peers it has met. -/
structure Connect where
  productUserId : Bytes
  productId : Bytes
  username : Bytes
  localUsers : List Bytes := []
  peers : TreeMap Bytes Bytes := {}
  /-- What was handed to the router, the oldest first. -/
  sent : List NetEnvelope := []

namespace Connect

variable (c : Connect)

/-- What has to be there of the options.  What the token says is not looked at. -/
def loginOptionsAreValid (options : ConnectLoginOptions) : Bool :=
  versionOk options.apiVersion connectLoginApiLatest ∧
    options.credentials.any fun credentials ↦
      versionOk credentials.apiVersion connectCredentialsApiLatest ∧
        credentials.token.any (· ≠ []) ∧
        lowestCredentialType ≤ credentials.type ∧ credentials.type ≤ highestCredentialType

/-- A user is logged in here. -/
def isLoggedIn : Bool := c.localUsers ≠ []

/-- Any credentials of a supported type map to the one local user. -/
def login (options : ConnectLoginOptions) : ResultCode × Connect :=
  if ¬ loginOptionsAreValid options then (.invalidParameters, c)
  else if c.isLoggedIn then (.success, c)
  else (.success, { c with localUsers := c.localUsers ++ [c.productUserId] })

/-- The peer has told us who it is. -/
def isKnownPeer (peer : Bytes) : Bool := c.peers.contains peer

/-- What the peer is called, or nothing as long as it has not said. -/
def peerDisplayName (peer : Bytes) : Bytes := c.peers[peer]?.getD []

/-- Who we are, for one peer. -/
def announcement (peer : Bytes) : NetEnvelope where
  typeTag := MessageType.connectResponse.tag
  sourceId := c.productUserId
  destId := peer
  gameId := c.productId
  payload :=
    ConnectInfos.serialize { productUserId := c.productUserId, displayName := c.username }

/-- We tell one peer who we are. -/
def announceTo (peer : Bytes) : Connect := { c with sent := c.sent ++ [c.announcement peer] }

/-- The peer is whoever the connection proved it to be, never whoever its payload says. -/
def record (message : NetEnvelope) : Connect :=
  match ConnectInfos.deserialize.run message.payload with
  | none => c
  | some (infos, _) =>
    if infos.productUserId = [] ∨ infos.productUserId = message.sourceId then
      { c with peers := c.peers.insert message.sourceId infos.displayName }
    else c

/-- A message of the mesh, as it comes: an introduction is taken down, and never answered. -/
def onNetworkMessage (message : NetEnvelope) : Connect :=
  if message.sourceId = c.productUserId then c
  else if message.typeTag = MessageType.peerConnected.tag then
    if c.isLoggedIn then c.announceTo message.sourceId else c
  else if message.typeTag = MessageType.peerDisconnected.tag then
    { c with peers := c.peers.erase message.sourceId }
  else if message.typeTag = MessageType.connectRequest.tag then
    let c := c.record message
    -- A peer asking who we are gets an answer; a peer answering us does not need another.
    if c.isLoggedIn then c.announceTo message.sourceId else c
  else if message.typeTag = MessageType.connectResponse.tag then c.record message
  else c

/-- The router's word that a peer is there. -/
def peerConnected (peer : Bytes) : NetEnvelope where
  typeTag := MessageType.peerConnected.tag
  sourceId := peer

/-! ### What each event does -/

theorem onNetworkMessage_peerConnected {peer : Bytes} (h : peer ≠ c.productUserId) :
    c.onNetworkMessage (peerConnected peer) =
      if c.isLoggedIn then c.announceTo peer else c := by
  rw [onNetworkMessage, if_neg (by exact h)]
  rfl

/-- An announcement puts whoever sent it on the roster. -/
theorem onNetworkMessage_announcement {peer : Connect} (h : peer.productUserId ≠ c.productUserId)
    (hid : Short peer.productUserId) (hname : Short peer.username) (dest : Bytes) :
    c.onNetworkMessage (peer.announcement dest) =
      { c with peers := c.peers.insert peer.productUserId peer.username } := by
  have hsized : ConnectInfos.Sized
      { productUserId := peer.productUserId, displayName := peer.username } := ⟨hid, hname⟩
  have hrun := (ConnectInfos.decodes hsized).run_eq
  have hrecord : c.record (peer.announcement dest) =
      { c with peers := c.peers.insert peer.productUserId peer.username } := by
    rw [record, announcement]
    simp only [hrun, or_true, if_true]
  rw [onNetworkMessage, if_neg (by exact h), ← hrecord]
  rfl

end Connect

/-! ## Two instances -/

/-- Two instances and the link between them: the end of each, and what each has sent that has not
arrived. -/
structure ConnectPair where
  node : Side → Connect
  up : Side → Bool
  link : Side → List NetEnvelope

namespace ConnectPair

/-- A pair of instances nothing has happened to. -/
def start (node : Side → Connect) : ConnectPair where
  node := node
  up _ := false
  link _ := []

/-- What the instance handed to its router goes out to the other. -/
def flush (m : ConnectPair) (n : Side) (c : Connect) : ConnectPair :=
  { m with
    node := Function.update m.node n { c with sent := [] }
    link := Function.update m.link n (m.link n ++
      c.sent.filter fun message ↦ message.destId = (m.node n.other).productUserId) }

/-- What may happen to the two instances, one thing at a time. -/
inductive Input
  | login (n : Side) (options : ConnectLoginOptions)
  /-- The end of `n` comes up. -/
  | linkUp (n : Side)
  /-- The next message of `n` arrives at the other end. -/
  | deliver (n : Side)
  deriving DecidableEq, Repr

/-- One thing that happens. -/
def step (m : ConnectPair) : Input → Option ConnectPair
  | .login n options => some (m.flush n ((m.node n).login options).2)
  | .linkUp n =>
    if m.up n then none
    else
      let peer := (m.node n.other).productUserId
      some (({ m with up := Function.update m.up n true }).flush n
        ((m.node n).onNetworkMessage (Connect.peerConnected peer)))
  -- Nothing arrives at an end that is not up yet.
  | .deliver n =>
    match m.up n.other, m.link n with
    | true, message :: rest =>
      some (({ m with link := Function.update m.link n rest }).flush n.other
        ((m.node n.other).onNetworkMessage message))
    | _, _ => none

/-- Both are logged in, both ends are up, and nothing is on its way. -/
def Settled (m : ConnectPair) : Prop :=
  ∀ n, (m.node n).isLoggedIn = true ∧ m.up n = true ∧ m.link n = []

/-- The roster of `n` has the other, by its name. -/
def Knows (m : ConnectPair) (n : Side) : Prop :=
  (m.node n).isKnownPeer (m.node n.other).productUserId = true ∧
    (m.node n).peerDisplayName (m.node n.other).productUserId = (m.node n.other).username

/-- The end of `n` comes up before `n` is logged in. -/
def linksEarly (n : Side) (m : ConnectPair) (i : Input) : Prop :=
  i = .linkUp n ∧ (m.node n).isLoggedIn = false

instance (n : Side) (m : ConnectPair) (i : Input) : Decidable (linksEarly n m i) :=
  inferInstanceAs (Decidable (_ ∧ _))

/-! ### What holds along a run -/

variable {s : Side → Connect} {m m' : ConnectPair} {i : Input}

/-- Who an instance is never changes. -/
structure SameUser (c c' : Connect) : Prop where
  id : c'.productUserId = c.productUserId
  product : c'.productId = c.productId
  name : c'.username = c.username

theorem SameUser.announcement {c c' : Connect} (h : SameUser c c') (peer : Bytes) :
    c'.announcement peer = c.announcement peer := by
  simp [Connect.announcement, h.id, h.product, h.name]

/-- What holds of the pair that started as `s`. -/
structure Tidy (s : Side → Connect) (m : ConnectPair) : Prop where
  same : ∀ n, SameUser (s n) (m.node n)
  clean : ∀ n, (m.node n).sent = []
  onTheWay : ∀ n, ∀ message ∈ m.link n,
    message = (s n).announcement (s n.other).productUserId
  down : ∀ n, m.up n = false →
    m.link n = [] ∧ (m.node n.other).peers[(s n).productUserId]? = none
  named : ∀ n name, (m.node n.other).peers[(s n).productUserId]? = some name →
    name = (s n).username

/-- The end of `n` is up, and the other will never hear of it. -/
def Missed (s : Side → Connect) (n : Side) (m : ConnectPair) : Prop :=
  m.up n = true ∧ m.link n = [] ∧ (m.node n.other).peers[(s n).productUserId]? = none

theorem tidy_start (hempty : ∀ n, (s n).sent = [] ∧ ∀ id : Bytes, (s n).peers[id]? = none) :
    Tidy s (start s) where
  same n := ⟨rfl, rfl, rfl⟩
  clean n := (hempty n).1
  onTheWay n message h := by cases h
  down n _ := ⟨rfl, (hempty n.other).2 _⟩
  named n name h := by
    rw [start, (hempty n.other).2] at h
    cases h

/-- An instance that changed its peers or its users, and sent nothing. -/
theorem flush_quiet {n : Side} {c : Connect} (h : c.sent = []) :
    m.flush n c = { m with node := Function.update m.node n c } := by
  obtain ⟨id, product, name, users, peers, sent⟩ := c
  obtain rfl : sent = [] := h
  rw [flush, List.filter_nil, List.append_nil, Function.update_eq_self]

/-- An instance that sent the other who it is, and nothing else. -/
theorem flush_announceTo {n : Side} (h : (m.node n).sent = []) :
    m.flush n ((m.node n).announceTo (m.node n.other).productUserId) =
      { m with
        link := Function.update m.link n
          (m.link n ++ [(m.node n).announcement (m.node n.other).productUserId]) } := by
  have hnode : Function.update m.node n { m.node n with sent := [] } = m.node := by
    rw [← h, Function.update_eq_self]
  have hsent : ((m.node n).announceTo (m.node n.other).productUserId).sent =
      [(m.node n).announcement (m.node n.other).productUserId] := by
    rw [Connect.announceTo, h, List.nil_append]
  rw [flush, hsent]
  show ({ m with node := Function.update m.node n { m.node n with sent := [] }, link := _ } :
    ConnectPair) = _
  rw [hnode]
  simp [Connect.announcement]

theorem login_spec (c : Connect) (options : ConnectLoginOptions) :
    ∃ localUsers, (c.login options).2 = { c with localUsers } := by
  rw [Connect.login]
  split
  · exact ⟨_, rfl⟩
  · split
    · exact ⟨_, rfl⟩
    · exact ⟨_, rfl⟩

/-- Everything but the users of one instance. -/
theorem Tidy.login (hI : Tidy s m) (k : Side) (localUsers : List Bytes) (n : Side) :
    let m' := { m with node := Function.update m.node k { m.node k with localUsers } }
    Tidy s m' ∧ (Missed s n m' ↔ Missed s n m) := by
  intro m'
  have hsame (n : Side) : SameUser (s n) (m'.node n) ∧ (m'.node n).sent = [] ∧
      (m'.node n).peers = (m.node n).peers := by
    obtain ⟨hid, hproduct, hname⟩ := hI.same n
    by_cases hn : n = k
    · subst hn
      rw [show m'.node n = { m.node n with localUsers } from Function.update_self _ _ _]
      exact ⟨⟨hid, hproduct, hname⟩, hI.clean n, rfl⟩
    · rw [show m'.node n = m.node n from Function.update_of_ne hn _ _]
      exact ⟨hI.same n, hI.clean n, rfl⟩
  refine ⟨⟨fun n ↦ (hsame n).1, fun n ↦ (hsame n).2.1, hI.onTheWay, fun n hdown ↦ ?_,
    fun n name hname ↦ ?_⟩, ?_⟩
  · rw [(hsame n.other).2.2]
    exact hI.down n hdown
  · rw [(hsame n.other).2.2] at hname
    exact hI.named n name hname
  · rw [Missed, Missed, (hsame n.other).2.2]

/-- The end of `k` comes up. -/
theorem Tidy.linkUp (hI : Tidy s m) {k : Side} (hdown : m.up k = false) (list : List NetEnvelope)
    (hlist : ∀ message ∈ list, message = (s k).announcement (s k.other).productUserId) (n : Side) :
    let m' := { m with up := Function.update m.up k true, link := Function.update m.link k list }
    Tidy s m' ∧ (Missed s n m' ↔ Missed s n m ∨ n = k ∧ list = []) := by
  intro m'
  refine ⟨⟨hI.same, hI.clean, fun n message hin ↦ ?_, fun n hdown' ↦ ?_, hI.named⟩, ?_⟩
  · by_cases hn : n = k
    · subst hn
      simp only [m', Function.update_self] at hin
      exact hlist message hin
    · simp only [m', Function.update_of_ne hn] at hin
      exact hI.onTheWay n message hin
  · by_cases hn : n = k
    · subst hn
      simp [m'] at hdown'
    · simp only [m', Function.update_of_ne hn] at hdown' ⊢
      exact hI.down n hdown'
  · by_cases hn : n = k
    · subst hn
      simp [Missed, m', hdown, (hI.down n hdown).2]
    · simp [Missed, m', hn]

/-- An announcement of `k` arrives. -/
theorem Tidy.deliver (hI : Tidy s m) {k : Side} {message : NetEnvelope} {rest : List NetEnvelope}
    (hlink : m.link k = message :: rest) (n : Side) :
    let m' := { m with
      link := Function.update m.link k rest
      node := Function.update m.node k.other { m.node k.other with
        peers := (m.node k.other).peers.insert (s k).productUserId (s k).username } }
    Tidy s m' ∧ (Missed s n m' ↔ Missed s n m) := by
  intro m'
  have hsame (n : Side) : SameUser (s n) (m'.node n) ∧ (m'.node n).sent = [] := by
    obtain ⟨hid, hproduct, hname⟩ := hI.same n
    by_cases hn : n = k.other
    · subst hn
      rw [show m'.node k.other = { m.node k.other with
        peers := (m.node k.other).peers.insert (s k).productUserId (s k).username } from
          Function.update_self _ _ _]
      exact ⟨⟨hid, hproduct, hname⟩, hI.clean _⟩
    · rw [show m'.node n = m.node n from Function.update_of_ne hn _ _]
      exact ⟨hI.same n, hI.clean n⟩
  have hpeers (n : Side) : (m'.node n.other).peers[(s n).productUserId]? =
      if n = k then some (s k).username else (m.node n.other).peers[(s n).productUserId]? := by
    rcases Side.eq_or_eq_other k n with rfl | rfl
    · simp only [m', Function.update_self, lookup_insert, if_true]
    · have hne : k ≠ k.other := Side.ne_other k
      simp only [m', Side.other_other, Function.update_of_ne hne, Side.other_ne, if_false]
  have hup : m.up k = true := by
    by_contra hdown
    rw [(hI.down k (by simpa using hdown)).1] at hlink
    cases hlink
  refine ⟨⟨fun n ↦ (hsame n).1, fun n ↦ (hsame n).2, fun n message' hin ↦ ?_, fun n hdown ↦ ?_,
    fun n name hname ↦ ?_⟩, ?_⟩
  · by_cases hn : n = k
    · subst hn
      simp only [m', Function.update_self] at hin
      exact hI.onTheWay n message' (hlink ▸ List.mem_cons_of_mem _ hin)
    · simp only [m', Function.update_of_ne hn] at hin
      exact hI.onTheWay n message' hin
  · have hn : n ≠ k := by
      rintro rfl
      rw [show m'.up n = m.up n from rfl, hup] at hdown
      cases hdown
    rw [hpeers, if_neg hn]
    simp only [m', Function.update_of_ne hn]
    exact hI.down n hdown
  · rw [hpeers] at hname
    split at hname
    · rename_i hn
      subst hn
      exact (Option.some.inj hname).symm
    · exact hI.named n name hname
  · by_cases hn : n = k
    · subst hn
      simp [Missed, hpeers, hlink]
    · simp [Missed, hpeers, hn, m']

/-- One step keeps the pair tidy, and `n` comes to be missed exactly by coming up before it is
logged in. -/
theorem Tidy.step (hI : Tidy s m) (hids : (s .a).productUserId ≠ (s .b).productUserId)
    (hsized : ∀ n, Short (s n).productUserId ∧ Short (s n).username) (n : Side)
    (h : step m i = some m') : Tidy s m' ∧ (Missed s n m' ↔ Missed s n m ∨ linksEarly n m i) := by
  have hother (k : Side) : (s k.other).productUserId ≠ (s k).productUserId := by
    cases k
    · exact hids.symm
    · exact hids
  cases i with
  | login k options =>
    obtain ⟨localUsers, hlogin⟩ := login_spec (m.node k) options
    rw [ConnectPair.step, hlogin] at h
    obtain rfl := Option.some.inj h
    have hclean : ({ m.node k with localUsers } : Connect).sent = [] := hI.clean k
    rw [flush_quiet hclean]
    simpa [linksEarly] using hI.login k localUsers n
  | linkUp k =>
    rw [ConnectPair.step] at h
    split at h
    · cases h
    · rename_i hdown
      replace hdown : m.up k = false := by simpa using hdown
      obtain rfl := Option.some.inj h
      have hpeer : (m.node k.other).productUserId ≠ (m.node k).productUserId := by
        rw [(hI.same _).id, (hI.same k).id]
        exact hother k
      rw [Connect.onNetworkMessage_peerConnected _ hpeer]
      have hclean := hI.clean k
      have hempty := (hI.down k hdown).1
      by_cases hlogged : (m.node k).isLoggedIn = true
      · have hup := hI.linkUp hdown [(s k).announcement (s k.other).productUserId] (by simp) n
        have hflush := @flush_announceTo { m with up := Function.update m.up k true } k hclean
        dsimp only at hflush
        rw [hempty, List.nil_append, (hI.same k).announcement, (hI.same k.other).id] at hflush
        rw [if_pos hlogged, (hI.same k.other).id, hflush]
        refine ⟨hup.1, hup.2.trans (or_congr_right ?_)⟩
        constructor
        · rintro ⟨-, ⟨⟩⟩
        · rintro ⟨⟨⟩, hnot⟩
          rw [hlogged] at hnot
          cases hnot
      · have hup := hI.linkUp hdown [] (by simp) n
        have hflush := @flush_quiet { m with up := Function.update m.up k true } k (m.node k) hclean
        have hlink : Function.update m.link k [] = m.link := by
          rw [← hempty, Function.update_eq_self]
        rw [hlink] at hup
        rw [if_neg hlogged, hflush, Function.update_eq_self]
        refine ⟨hup.1, hup.2.trans (or_congr_right ?_)⟩
        constructor
        · rintro ⟨rfl, -⟩
          exact ⟨rfl, by simpa using hlogged⟩
        · rintro ⟨⟨⟩, -⟩
          exact ⟨rfl, rfl⟩
  | deliver k =>
    rw [ConnectPair.step] at h
    split at h
    · rename_i message rest hup hlink
      obtain rfl := Option.some.inj h
      have hsent := hI.onTheWay k message (by rw [hlink]; exact List.mem_cons_self)
      have hpeer : (s k).productUserId ≠ (m.node k.other).productUserId := by
        rw [(hI.same k.other).id]
        exact (hother k).symm
      rw [hsent, Connect.onNetworkMessage_announcement _ hpeer (hsized k).1 (hsized k).2]
      have hclean : ({ m.node k.other with
        peers := (m.node k.other).peers.insert (s k).productUserId (s k).username } :
          Connect).sent =
          [] := hI.clean k.other
      rw [flush_quiet hclean]
      simpa [linksEarly] using hI.deliver hlink n
    · cases h

/-- Once all is settled, the other knows `n` unless it missed it. -/
theorem Tidy.knows_iff (hI : Tidy s m) (hsettled : Settled m) (n : Side) :
    Knows m n.other ↔ ¬ Missed s n m := by
  have hid := (hI.same n).id
  have hname := (hI.same n).name
  rw [Knows, Missed, Side.other_other, hid, hname, Connect.isKnownPeer, contains_iff_lookup,
    Connect.peerDisplayName]
  obtain ⟨-, hup, hlink⟩ := hsettled n
  constructor
  · rintro ⟨⟨name, hlookup⟩, -⟩ ⟨-, -, hnone⟩
    rw [hnone] at hlookup
    cases hlookup
  · intro hheard
    have hsome : (m.node n.other).peers[(s n).productUserId]? ≠ none := fun hnone ↦
      hheard ⟨hup, hlink, hnone⟩
    obtain ⟨name, hlookup⟩ := Option.ne_none_iff_exists'.1 hsome
    rw [hlookup, hI.named n name hlookup]
    exact ⟨⟨_, rfl⟩, rfl⟩

/-- **The two rosters converge exactly when** neither end of the link came up before its instance
was logged in: in every order of logins, link events and arrivals, once all is settled, each knows
the other by its name if and only if no such step happened. -/
theorem rosters_converge (hids : (s .a).productUserId ≠ (s .b).productUserId)
    (hsized : ∀ n, Short (s n).productUserId ∧ Short (s n).username)
    (hempty : ∀ n, (s n).sent = [] ∧ ∀ id : Bytes, (s n).peers[id]? = none) {inputs : List Input}
    (h : runInputs step (start s) inputs = some m) (hsettled : Settled m) :
    (Knows m .a ∧ Knows m .b) ↔
      ¬ happens step (linksEarly .a) (start s) inputs ∧
        ¬ happens step (linksEarly .b) (start s) inputs := by
  have hmissed (n : Side) : Missed s n m ↔ happens step (linksEarly n) (start s) inputs := by
    have hstart : ¬ Missed s n (start s) := fun h ↦ by cases h.1
    have hrun := holds_iff_happens (I := Tidy s) (Q := Missed s n) (P := linksEarly n)
      (fun m i m' hI _ hstep ↦ hI.step hids hsized n hstep) (tidy_start hempty) h
      (meets_always _ _)
    rwa [or_iff_right hstart] at hrun
  have hI : Tidy s m := (reaches_of_runInputs h (meets_always _ _)).invariant (tidy_start hempty)
    fun m i m' hI _ hstep ↦ (hI.step hids hsized .a hstep).1
  rw [← hmissed, ← hmissed]
  rw [show Knows m .a ↔ ¬ Missed s .b m from hI.knows_iff hsettled .b,
    show Knows m .b ↔ ¬ Missed s .a m from hI.knows_iff hsettled .a, and_comm]

/-- Two instances, `[1]` called `[65]` and `[2]` called `[66]`. -/
def twoUsers : Side → Connect
  | .a => { productUserId := [1], productId := [9], username := [65] }
  | .b => { productUserId := [2], productId := [9], username := [66] }

/-- A login that succeeds. -/
def anyLogin : ConnectLoginOptions :=
  { apiVersion := 1, credentials := some { apiVersion := 1, token := some [1], type := 0 } }

instance (m : ConnectPair) : Decidable (Settled m) :=
  decidable_of_iff (((m.node .a).isLoggedIn = true ∧ m.up .a = true ∧ m.link .a = []) ∧
      ((m.node .b).isLoggedIn = true ∧ m.up .b = true ∧ m.link .b = []))
    ⟨fun h n ↦ by cases n; exacts [h.1, h.2], fun h ↦ ⟨h .a, h .b⟩⟩

instance (m : ConnectPair) (n : Side) : Decidable (Knows m n) := inferInstanceAs (Decidable (_ ∧ _))

/-- Both log in, then the link comes up. -/
theorem rosters_converge_early : ∃ m, runInputs step (start twoUsers)
      [.login .a anyLogin, .login .b anyLogin, .linkUp .a, .linkUp .b, .deliver .a, .deliver .b] =
        some m ∧ Settled m ∧ Knows m .a ∧ Knows m .b := by
  obtain ⟨m, h, hsettled⟩ := exists_runInputs step (start twoUsers) Settled
    [.login .a anyLogin, .login .b anyLogin, .linkUp .a, .linkUp .b, .deliver .a, .deliver .b]
    (by decide +kernel)
  refine ⟨m, h, hsettled, (rosters_converge (by decide) (fun n ↦ ?_) (fun n ↦ ?_) h hsettled).2
    ⟨by decide +kernel, by decide +kernel⟩⟩
  · cases n <;> decide
  · cases n <;> exact ⟨rfl, fun id ↦ TreeMap.getElem?_emptyc⟩

/-- The link comes up before anyone logs in: neither ever hears of the other. -/
theorem rosters_apart : ∃ m, runInputs step (start twoUsers)
      [.linkUp .a, .linkUp .b, .login .a anyLogin, .login .b anyLogin] = some m ∧ Settled m ∧
    ¬ Knows m .a ∧ ¬ Knows m .b := by
  obtain ⟨m, h, hsettled, hknows⟩ := exists_runInputs step (start twoUsers)
    (fun m ↦ Settled m ∧ ¬ Knows m .a ∧ ¬ Knows m .b)
    [.linkUp .a, .linkUp .b, .login .a anyLogin, .login .b anyLogin] (by decide +kernel)
  exact ⟨m, h, hsettled, hknows⟩

end ConnectPair
end EosMesh
