import EosMesh.Net.Attempts
import EosMesh.Net.Router.LinkTurns

/-!
# How far the two ends are

Two honest ends that were dialed together come to one handshake, whatever randomness they draw, and
from then on count the same frames.  Neither knows when the other is through: the dialing end adopts
its peer as soon as it has written the closing message, and may send letters right behind it.

* `Transcript` is that handshake, from the answer on, and `Opening` its first message;
  `opening_of_openHandshake` is that there is no other.
* `Way` says what is on the way from an end to the other, as frames: those it still has in its
  outbox, those on the wire, and those the other has read and not taken up.  `Way.out` and
  `Way.into` are what an end does to the way out of it and to the way to it, and `Way.congr` a step
  that moves no bytes.  An end that is gone takes its outbox with it, so the way is stated for as
  long as both stand.
* `Told` says what has come of it: what was sent is what was handed on, and then the letters on the
  way, each sealed under the next count.
* `Meshed` is an end that has adopted the other, and counts what it sealed and what it opened.
* `Stage` puts them together: the opening is under way, or the answer, or the closing message and
  letters behind it; or both ends are through.
* `Stage.shakes` is a turn of the handshake, by the stage it is in.  `shook_completes` is the turn
  in which an end comes through, and `shook_waits` one in which no whole message has arrived.
-/

set_option autoImplicit false

namespace EosMesh

open Lib

/-! ## The handshake of two parties -/

/-- A secret is shared with whoever has a public key: none of them is of low order. -/
def Crypto.Shares (crypto : Crypto) : Prop :=
  ∀ a b, crypto.x25519Shared a (crypto.x25519PublicKey b) ≠ none

/-- The two ends go by different ids, which are not empty. -/
structure Parties.Apart (crypto : Crypto) (p : Parties) : Prop where
  named : ∀ x, (p.config crypto x).productUserId ≠ []
  differ : (p.config crypto true).productUserId ≠ (p.config crypto false).productUserId

/-- The channel an end starts with. -/
def Parties.channel (crypto : Crypto) (p : Parties) (x : Bool) : PeerChannel :=
  PeerChannel.init crypto x (p.config crypto x).staticPriv (p.config crypto x).staticPub
    (p.config crypto x).prologue

/-- A handshake from the answer on, and the channels that it leads to. -/
structure Transcript (crypto : Crypto) (p : Parties) (i₁ : PeerChannel) where
  answer : Bytes
  closing : Bytes
  r₁ : PeerChannel
  i₂ : PeerChannel
  r₂ : PeerChannel
  small : answer.length ≤ maxMessageSize ∧ closing.length ≤ maxMessageSize
  spoken : answer ≠ [] ∧ closing ≠ []
  waiting : i₁.established = false ∧ r₁.established = false
  closes : ∀ random, i₁.readHandshake crypto random answer = .stepDone closing i₂
  completes : ∀ random, r₁.readHandshake crypto random closing = .stepDone [] r₂
  fresh : i₂.Fresh ∧ r₂.Fresh
  stream : i₂.send = r₂.recv ∧ r₂.send = i₂.recv
  remote : i₂.remoteStatic = crypto.x25519PublicKey (p.secret false) ∧
    r₂.remoteStatic = crypto.x25519PublicKey (p.secret true)

/-- An opening message, which the responder answers if it has randomness. -/
structure Opening (crypto : Crypto) (p : Parties) (opening : Bytes) (i₁ : PeerChannel) : Prop where
  small : opening.length ≤ maxMessageSize
  waiting : i₁.established = false
  fails : (p.channel crypto false).readHandshake crypto none opening = .stepFailed
  answers : ∀ random, ∃ t : Transcript crypto p i₁,
    (p.channel crypto false).readHandshake crypto (some random) opening =
      .stepContinue t.answer t.r₁

/-- The closing message draws no randomness. -/
theorem NoiseHandshake.writeClosing_random {crypto : Crypto} {hs : NoiseHandshake}
    (hindex : hs.messageIndex = 2) (random random' : Option Bytes) :
    hs.writeMessage crypto random [] = hs.writeMessage crypto random' [] := by
  rw [writeMessage, writeMessage, hindex]
  rfl

section Handshake

variable {crypto : Crypto} (hsound : crypto.Sound) (hshares : crypto.Shares) (p : Parties)
include hsound hshares

/-- The dialing end once it has spoken. -/
def Parties.openedChannel (crypto : Crypto) (p : Parties) (eI h : Bytes) : PeerChannel :=
  { p.channel crypto true with
    handshake := some ((NoiseHandshake.opened crypto (p.secret true) eI).withSymmetric
      protocolName h {})
    messageIndex := 1 }

theorem exists_transcript (eI eR : Bytes) {opening h₀ : Bytes} (hlength₀ : opening.length = 32)
    (hgreets : (NoiseHandshake.init crypto false (p.secret false)
        (crypto.x25519PublicKey (p.secret false))
        (meshPrologue p.productId p.sandboxId p.deploymentId)).readMessage crypto opening =
      some ([], (NoiseHandshake.greeted crypto (p.secret false) eI).withSymmetric
        protocolName h₀ {})) :
    ∃ t : Transcript crypto p (p.openedChannel crypto eI h₀),
      (p.channel crypto false).readHandshake crypto (some eR) opening =
        .stepContinue t.answer t.r₁ := by
  let sI := p.secret true
  let sR := p.secret false
  obtain ⟨m₁, ck₁, h₁, cs₁, hlength₁, hkeyed, hready, hanswers, hcertifies⟩ :=
    NoiseHandshake.exchange_answer hsound sI sR eI eR h₀ (hshares eI eR) (hshares eI sR)
  obtain ⟨m₂, ck₂, h₂, cs₂, hlength₂, hcloses, hcompletes⟩ :=
    NoiseHandshake.exchange_closing hsound sI sR eI eR ck₁ h₁ hkeyed hready none (hshares sI eR)
  set hI := (NoiseHandshake.completed (NoiseHandshake.certified crypto sI eI sR eR)
    h₂).withSymmetric ck₂ h₂ cs₂ with hIeq
  set hR := (NoiseHandshake.completed { NoiseHandshake.answered crypto sR eR eI with
    remoteStatic := crypto.x25519PublicKey sI, haveRs := true } h₂).withSymmetric ck₂
      h₂ cs₂ with hReq
  obtain ⟨keys, ⟨_, hsplitI⟩, ⟨_, hsplitR⟩⟩ : ∃ keys, (∃ hs, hI.split crypto = some (keys, hs)) ∧
      ∃ hs, hR.split crypto = some (⟨keys.recv, keys.send, keys.udpRecv, keys.udpSend⟩, hs) :=
    NoiseHandshake.split_mirrored hsound ⟨rfl, rfl⟩ ⟨rfl, rfl⟩
  let i₁ := p.openedChannel crypto eI h₀
  let r₁ : PeerChannel := { p.channel crypto false with
    handshake := some ((NoiseHandshake.answered crypto sR eR eI).withSymmetric ck₁ h₁ cs₁)
    messageIndex := 2 }
  have hcount : 0 + 1 < handshakeMessageCount ∧ 1 + 1 < handshakeMessageCount := by decide
  have hturn : NoiseHandshake.weWrite false 2 = false := by decide
  have hanswered : (p.channel crypto false).readHandshake crypto (some eR) opening =
      .stepContinue m₁ r₁ :=
    PeerChannel.readHandshake_of_reply rfl rfl hcount.1 hlength₀ rfl hgreets hanswers
  have hdoneI : PeerChannel.finish crypto { i₁ with messageIndex := 3 } hI m₂ = .stepDone m₂ _ :=
    PeerChannel.finish_of_split rfl rfl hsplitI
  have hdoneR : PeerChannel.finish crypto { r₁ with messageIndex := 3 } hR [] = .stepDone [] _ :=
    PeerChannel.finish_of_split rfl rfl hsplitR
  have hcloses' (random : Option Bytes) :=
    (NoiseHandshake.writeClosing_random rfl random none).trans hcloses
  have hclosing (random : Option Bytes) :=
    (PeerChannel.readHandshake_of_reply rfl rfl hcount.2 hlength₁ rfl hcertifies (hcloses' random) :
      i₁.readHandshake crypto random m₁ = _).trans hdoneI
  have hcompleting (random : Option Bytes) :=
    (PeerChannel.readHandshake_of_last rfl hturn rfl hlength₂ rfl hcompletes :
      r₁.readHandshake crypto random m₂ = _).trans hdoneR
  have hsmall : m₁.length ≤ maxMessageSize ∧ m₂.length ≤ maxMessageSize := by
    rw [hlength₁, hlength₂]
    decide
  have hspoken : m₁ ≠ [] ∧ m₂ ≠ [] := by
    constructor
    · rintro rfl
      cases hlength₁
    · rintro rfl
      cases hlength₂
  exact ⟨⟨m₁, m₂, r₁, _, _, hsmall, hspoken, ⟨rfl, rfl⟩, hclosing, hcompleting,
    ⟨PeerChannel.readHandshake_done (hclosing none),
      PeerChannel.readHandshake_done (hcompleting none)⟩,
    ⟨rfl, rfl⟩, rfl, rfl⟩, hanswered⟩

theorem opening_of_openHandshake {random : Option Bytes} {opening : Bytes} {i₁ : PeerChannel}
    (h : (p.channel crypto true).openHandshake crypto random = some (opening, i₁)) :
    Opening crypto p opening i₁ := by
  cases random with
  | none => cases h
  | some eI =>
    obtain ⟨m₀, h₀, hlength₀, hopens, hgreets⟩ := NoiseHandshake.exchange_opening hsound
      (p.secret true) (p.secret false) eI (meshPrologue p.productId p.sandboxId p.deploymentId)
    have hopened : (p.channel crypto true).openHandshake crypto (some eI) =
        some (m₀, p.openedChannel crypto eI h₀) := by
      simp [PeerChannel.openHandshake, Parties.channel, Parties.openedChannel, PeerChannel.init,
        Parties.config, Config.setIdentity, hopens]
    obtain ⟨rfl, rfl⟩ : m₀ = opening ∧ p.openedChannel crypto eI h₀ = i₁ := by
      simpa using hopened.symm.trans h
    have hnone : ((NoiseHandshake.greeted crypto (p.secret false) eI).withSymmetric protocolName h₀
        {}).writeMessage crypto none [] = none := rfl
    refine ⟨by rw [hlength₀]; decide, rfl, ?_, fun eR ↦ exists_transcript hsound hshares p eI eR
      hlength₀ hgreets⟩
    simp [PeerChannel.readHandshake, Parties.channel, PeerChannel.init, Parties.config,
      Config.setIdentity, hlength₀, handshakeMessageCount, handshakeMessageSize,
      NoiseHandshake.weWrite, hgreets, hnone]

end Handshake

namespace Link

variable {crypto : Crypto} {p : Parties} {s s' : Link} {x y : Bool}

/-! ## What is on its way -/

/-- The stream from `x` to `y`. -/
def stretch (s : Link) (x y : Bool) : Pipe UInt8 where
  outbox := (s x).state.outbox
  wire := (s x).wire
  buffer := (s y).state.buffer

/-- As long as `y` stands to read them, the frames with these bodies are on their way to it. -/
structure Way (s : Link) (x y : Bool) (bodies : List Bytes) : Prop where
  small : ∀ body ∈ bodies, body.length ≤ maxMessageSize
  carries : (s y).state ≠ .gone →
    (s.stretch x y).Carries frameMessage bodies ((s x).state = .gone)

/-- What an end does to the way out of it. -/
theorem Way.out {bodies new : List Bytes} {taken lost : Bytes} (h : Way s x y bodies)
    (hstands : (s x).state ≠ .gone) (hother : (s' y).state = (s y).state)
    (hwire : (s' x).wire = (s x).wire ++ taken)
    (hsplit : (s x).state.outbox ++ new.flatMap frameMessage =
      taken ++ ((s' x).state.outbox ++ lost))
    (hlost : (s' x).state ≠ .gone → lost = [])
    (hsmall : ∀ body ∈ new, body.length ≤ maxMessageSize) : Way s' x y (bodies ++ new) where
  small body hbody := (List.mem_append.1 hbody).elim (h.small body) (hsmall body)
  carries hthere := by
    have hpushed := (h.carries (hother ▸ hthere)).pushed hstands hsplit hlost
    rwa [stretch, hwire, hother]

/-- What an end does to the way to it: it reads some of the wire, and takes frames off its
buffer. -/
theorem Way.into {ready later : List Bytes} {n : Nat} (h : Way s y x (ready ++ later))
    (hstands : (s x).state ≠ .gone) (hother : (s' y).state = (s y).state)
    (hwire : (s' y).wire = (s y).wire.drop n)
    (hread : (s' x).state ≠ .gone → (s x).state.buffer ++ (s y).wire.take n =
      ready.flatMap frameMessage ++ (s' x).state.buffer) : Way s' y x later where
  small body hbody := h.small body (List.mem_append_right _ hbody)
  carries hthere := by
    have hpulled := (h.carries hstands).pulled (hread hthere)
    rwa [stretch, hwire, hother]

/-- A step that moves no bytes. -/
theorem Way.congr {bodies : List Bytes} (h : Way s x y bodies)
    (hwire : (s' x).wire = (s x).wire) (houtbox : (s' x).state.outbox = (s x).state.outbox)
    (hbuffer : (s' y).state.buffer = (s y).state.buffer)
    (hgone : (s' x).state = .gone ↔ (s x).state = .gone)
    (hstays : (s y).state = .gone → (s' y).state = .gone) : Way s' x y bodies where
  small := h.small
  carries hthere := by
    have hcarries := h.carries fun hg ↦ hthere (hstays hg)
    rwa [stretch, hwire, houtbox, hbuffer, hgone]

/-- What was sent and what was handed on: `arrived` has been, and the letters are on their way. -/
structure Told (crypto : Crypto) (p : Parties) (s : Link) (x y : Bool) (key : Bytes)
    (arrived : List NetEnvelope) (letters : List Letter) : Prop where
  queued : (s x).queued = arrived ++ letters.map (·.msg)
  heard : (s y).heard =
    arrived.filterMap (Router.delivery (p.config crypto y) (p.config crypto x).productUserId)
  sealed : SealedFrom crypto key arrived.length letters

theorem Told.congr {key : Bytes} {arrived : List NetEnvelope} {letters : List Letter}
    (h : Told crypto p s x y key arrived letters) (hqueued : (s' x).queued = (s x).queued)
    (hheard : (s' y).heard = (s y).heard) : Told crypto p s' x y key arrived letters :=
  ⟨hqueued.trans h.queued, hheard.trans h.heard, h.sealed⟩

/-! ## One turn -/

@[simp] theorem turned_self (s : Link) (x : Bool) (n : Nat) (st : Station) :
    s.turned x n st x = st :=
  if_pos rfl

theorem turned_other (s : Link) (n : Nat) (st : Station) (hne : y ≠ x) :
    s.turned x n st y = { s y with wire := (s y).wire.drop n } := if_neg hne

/-- The outside does nothing to this end: its socket takes what it likes, the stream stays open,
there is randomness, and the other end's id is free. -/
structure Calm (crypto : Crypto) (p : Parties) (y : Bool) (w : World) (r : Router)
    (health : StreamHealth) : Prop where
  writable : ∀ connection, Writable (w.sends connection)
  alive : health = .alive
  random : ∀ connection, w.random connection ≠ none
  free : r.peers.contains (p.config crypto y).productUserId = false

/-- A turn of the handshake: what it puts on the way, what it takes off, and where it leads. -/
structure Shook (crypto : Crypto) (config : Config) (w : World) (r : Router) (s s' : Link)
    (x y : Bool) (bodies new later : List Bytes) (next : Bytes → Router.ShakeOutcome) : Prop where
  out : Way s' x y (bodies ++ new)
  into : Way s' y x later
  heard : (s' x).heard = (s x).heard
  state : (s' x).state = .gone ∨ ∃ outbox, (s' x).state = .ofShake crypto config w r (next outbox)

theorem shook {config : Config} {w : World} {r : Router} {n : Nat} {entry : HandshakingPeer}
    {bodies new ready later : List Bytes} {next : Bytes → Router.ShakeOutcome} (hne : y ≠ x)
    (hstate : (s x).state = .shaking entry) (hout : Way s x y bodies)
    (hinto : Way s y x (ready ++ later)) (hsmall : ∀ body ∈ new, body.length ≤ maxMessageSize)
    (hshaken : Router.Shaken crypto config w entry (new.flatMap frameMessage) next)
    (hnext : ∀ outbox, LinkEnd.ofShake crypto config w r (next outbox) = .gone ∨
      (LinkEnd.ofShake crypto config w r (next outbox)).outbox = outbox ∧
      entry.buffer ++ (s y).wire.take n = ready.flatMap frameMessage ++
        (LinkEnd.ofShake crypto config w r (next outbox)).buffer) :
    Shook crypto config w r s (s.turned x n ((s x).shakes crypto config w r entry)) x y bodies new
        later next ∧
      (Writable (w.sends entry.connection) → (w.recv entry.connection).2 = .alive →
        ∃ outbox, (s.turned x n ((s x).shakes crypto config w r entry) x).state =
          .ofShake crypto config w r (next outbox)) := by
  have hstands : (s x).state ≠ .gone := by
    rw [hstate]
    exact fun h ↦ by cases h
  have hthere : ((s.turned x n ((s x).shakes crypto config w r entry)) y).state = (s y).state := by
    rw [turned_other s n _ hne]
  have hread : ((s.turned x n ((s x).shakes crypto config w r entry)) y).wire =
      (s y).wire.drop n := by
    rw [turned_other s n _ hne]
  obtain ⟨outbox, lost, hsplit, hends, hcalm⟩ := hshaken
  have hwhere : Router.shakeOne crypto config w entry = .lost ∨
      lost = [] ∧ Router.shakeOne crypto config w entry = next outbox := hends
  -- What the socket left in the outbox goes with an end that does not go on.
  have hleft : ∃ lost, entry.outbox ++ new.flatMap frameMessage =
      Router.shakeTaken crypto w entry ++
        ((LinkEnd.ofShake crypto config w r (Router.shakeOne crypto config w entry)).outbox ++
          lost) ∧
      (LinkEnd.ofShake crypto config w r (Router.shakeOne crypto config w entry) ≠ .gone →
        lost = []) := by
    rcases hends with hlost | ⟨rfl, hgoes⟩
    · rw [hlost]
      exact ⟨outbox ++ lost, hsplit, fun h ↦ absurd rfl h⟩
    · rw [hgoes]
      rcases hnext outbox with hgone | ⟨houtbox, -⟩
      · rw [hgone]
        exact ⟨outbox, by simpa [LinkEnd.outbox] using hsplit, fun h ↦ absurd rfl h⟩
      · rw [houtbox]
        exact ⟨[], hsplit, fun _ ↦ rfl⟩
  obtain ⟨lost', hleft, hlost'⟩ := hleft
  have hself : s.turned x n ((s x).shakes crypto config w r entry) x =
      (s x).shakes crypto config w r entry := turned_self s x n _
  generalize s.turned x n ((s x).shakes crypto config w r entry) = s' at hthere hread hself ⊢
  have hwire : (s' x).wire = (s x).wire ++ Router.shakeTaken crypto w entry := by
    rw [hself]
    rfl
  have hat : (s' x).state =
      .ofShake crypto config w r (Router.shakeOne crypto config w entry) := by
    rw [hself]
    rfl
  rw [← hat] at hleft hlost'
  have hputs : (s x).state.outbox ++ new.flatMap frameMessage =
      Router.shakeTaken crypto w entry ++ ((s' x).state.outbox ++ lost') := by
    rw [hstate]
    exact hleft
  refine ⟨⟨hout.out hstands hthere hwire hputs hlost' hsmall,
    hinto.into hstands hthere hread fun hhere ↦ ?_, ?_, ?_⟩, fun hwritable halive ↦ ?_⟩
  · rcases hwhere with hlost | ⟨-, hgoes⟩
    · rw [hat, hlost] at hhere
      exact absurd rfl hhere
    · rw [hat, hgoes] at hhere
      rw [hat, hgoes, hstate]
      exact ((hnext outbox).resolve_left hhere).2
  · rw [hself]
    rfl
  · rcases hwhere with hlost | ⟨-, hgoes⟩
    · exact .inl (by rw [hat, hlost]; rfl)
    · exact .inr ⟨outbox, by rw [hat, hgoes]⟩
  · exact ⟨outbox, by rw [hat, hcalm hwritable halive]⟩

/-! ## How far the two ends are -/

/-- The end is shaking hands over this channel, or gone. -/
def Shaking (s : Link) (x : Bool) (channel : PeerChannel) (expected : Bytes) : Prop :=
  (s x).state = .gone ∨ ∃ entry, (s x).state = .shaking entry ∧ entry.channel = channel ∧
    (entry.expectedId = [] ∨ entry.expectedId = expected)

/-- The end has adopted the other, and counts what it sealed and what it opened; or it is gone. -/
def Meshed (s : Link) (x : Bool) (id sendKey recvKey : Bytes) (received : Nat) : Prop :=
  (s x).state = .gone ∨ ∃ entry, (s x).state = .peer id entry ∧ entry.channel.established = true ∧
    CountsTo entry.channel.send sendKey (s x).queued.length ∧
    CountsTo entry.channel.recv recvKey received

/-- **Where a link is.**  The handshake is under way from the one end, answered, or closed by it; or
both ends are through with it. -/
inductive Stage (crypto : Crypto) (p : Parties) (s : Link) : Prop
  | asked {opening : Bytes} {i₁ : PeerChannel} (hopening : Opening crypto p opening i₁)
      (hI : Shaking s true i₁ (p.config crypto false).productUserId)
      (hR : Shaking s false (p.channel crypto false) (p.config crypto true).productUserId)
      (hout : Way s true false [opening]) (hback : Way s false true [])
      (htold : Told crypto p s true false [] [] []) (htold' : Told crypto p s false true [] [] [])
  | answered {i₁ : PeerChannel} (t : Transcript crypto p i₁)
      (hI : Shaking s true i₁ (p.config crypto false).productUserId)
      (hR : Shaking s false t.r₁ (p.config crypto true).productUserId)
      (hout : Way s true false []) (hback : Way s false true [t.answer])
      (htold : Told crypto p s true false [] [] []) (htold' : Told crypto p s false true [] [] [])
  | closing {i₁ : PeerChannel} (t : Transcript crypto p i₁) {letters : List Letter}
      (hI : Meshed s true (p.config crypto false).productUserId t.i₂.send.key t.i₂.recv.key 0)
      (hR : Shaking s false t.r₁ (p.config crypto true).productUserId)
      (hout : Way s true false (t.closing :: letters.map (·.body))) (hback : Way s false true [])
      (htold : Told crypto p s true false t.i₂.send.key [] letters)
      (htold' : Told crypto p s false true [] [] [])
  | up {key key' : Bytes} {arrived arrived' : List NetEnvelope} {letters letters' : List Letter}
      (hI : Meshed s true (p.config crypto false).productUserId key key' arrived'.length)
      (hR : Meshed s false (p.config crypto true).productUserId key' key arrived.length)
      (hout : Way s true false (letters.map (·.body)))
      (hback : Way s false true (letters'.map (·.body)))
      (htold : Told crypto p s true false key arrived letters)
      (htold' : Told crypto p s false true key' arrived' letters')

/-! ## Turns of the handshake -/

section Shaking

variable {w : World} {r : Router} {n : Nat} {entry : HandshakingPeer} {channel : PeerChannel}
  {expected : Bytes} {bodies : List Bytes} {health : StreamHealth}

/-- What an end finds in its buffer after a read. -/
theorem Way.arrived (h : Way s y x bodies) (hstate : (s x).state = .shaking entry) (n : Nat) :
    entry.buffer ++ (s y).wire.take n <+: bodies.flatMap frameMessage := by
  have hcarries := h.carries (by rw [hstate]; exact fun h ↦ by cases h)
  have harrived := hcarries.arrived n
  rw [stretch, hstate] at harrived
  exact harrived

theorem Shaking.congr (h : Shaking s x channel expected) (hsame : (s' x).state = (s x).state) :
    Shaking s' x channel expected := by
  rw [Shaking, hsame]
  exact h

theorem Meshed.congr {id sendKey recvKey : Bytes} {received : Nat}
    (h : Meshed s x id sendKey recvKey received) (hsame : (s' x).state = (s x).state)
    (hqueued : (s' x).queued = (s x).queued) : Meshed s' x id sendKey recvKey received := by
  rw [Meshed, hsame, hqueued]
  exact h

theorem Shaking.of_state (h : Shaking s x channel expected)
    (hstate : (s x).state = .shaking entry) :
    entry.channel = channel ∧ (entry.expectedId = [] ∨ entry.expectedId = expected) := by
  rcases h with hgone | ⟨other, hother, hrest⟩
  · rw [hstate] at hgone
    cases hgone
  · rw [hstate] at hother
    cases hother
    exact hrest

theorem Meshed.not_shaking {id sendKey recvKey : Bytes} {received : Nat}
    (h : Meshed s x id sendKey recvKey received) : (s x).state ≠ .shaking entry := by
  intro hstate
  rcases h with hgone | ⟨other, hother, -⟩
  · rw [hstate] at hgone
    cases hgone
  · rw [hstate] at hother
    cases hother

/-- What a turn of the handshake does to the logs, and to the other end. -/
theorem shakes_keeps (s : Link) (hne : y ≠ x) (config : Config) (w : World) (r : Router) (n : Nat)
    (entry : HandshakingPeer) :
    (s.turned x n ((s x).shakes crypto config w r entry) y).state = (s y).state ∧
      ∀ z, (s.turned x n ((s x).shakes crypto config w r entry) z).queued = (s z).queued ∧
        (s.turned x n ((s x).shakes crypto config w r entry) z).heard = (s z).heard := by
  refine ⟨by rw [turned_other s n _ hne], fun z ↦ ?_⟩
  by_cases hz : z = x
  · subst hz
    rw [turned_self]
    exact ⟨rfl, rfl⟩
  · rw [turned_other s n _ hz]
    exact ⟨rfl, rfl⟩

theorem Told.shakes {key : Bytes} {arrived : List NetEnvelope} {letters : List Letter} {z z' : Bool}
    (h : Told crypto p s z z' key arrived letters) (hne : y ≠ x) (config : Config) (w : World)
    (r : Router) (n : Nat) (entry : HandshakingPeer) :
    Told crypto p (s.turned x n ((s x).shakes crypto config w r entry)) z z' key arrived letters :=
  h.congr ((shakes_keeps s hne config w r n entry).2 z).1
    ((shakes_keeps s hne config w r n entry).2 z').2

/-- A turn in which no whole message has arrived. -/
theorem shook_waits {config : Config} {ahead : List Bytes} (hne : y ≠ x)
    (hstate : (s x).state = .shaking entry) (hexpected : entry.expectedId = [] ∨
    entry.expectedId = expected)
    (hout : Way s x y bodies) (hinto : Way s y x ahead)
    (hnone : takeFrame (entry.buffer ++ (s y).wire.take n) = .none) :
    let s' := s.turned x n ((s x).shakes crypto config
    (w.reading ((s y).wire.take n) health) r entry)
    Way s' x y bodies ∧ Way s' y x ahead ∧ Shaking s' x entry.channel expected ∧
      (Calm crypto p y w r health → (s' x).state ≠ .gone) := by
  intro s'
  have hshaken : Router.Shaken crypto config (w.reading ((s y).wire.take n) health) entry
      (([] : List Bytes).flatMap frameMessage) _ := Router.shakeOne_waits hnone
  have hinto' : Way s y x ([] ++ ahead) := hinto
  obtain ⟨hshook, hcalm⟩ := @shook crypto s x y config _ r n entry bodies [] [] ahead _ hne hstate
    hout hinto' (fun body hbody ↦ by cases hbody) hshaken fun outbox ↦ .inr ⟨rfl, rfl⟩
  have hsame : bodies ++ [] = bodies := List.append_nil bodies
  refine ⟨hsame ▸ hshook.out, hshook.into, ?_, fun hcalm' hgone ↦ ?_⟩
  · rcases hshook.state with hgone | ⟨outbox, hat⟩
    · exact .inl hgone
    · exact .inr ⟨_, hat, rfl, hexpected⟩
  · obtain ⟨outbox, hat⟩ := hcalm (hcalm'.writable _) hcalm'.alive
    rw [hat] at hgone
    cases hgone

/-- The other end has the opening message before it. -/
theorem Stage.shakes_asked {opening : Bytes} {i₁ : PeerChannel}
    (hopening : Opening crypto p opening i₁)
    (hI : Shaking s true i₁ (p.config crypto false).productUserId)
    (hR : Shaking s false (p.channel crypto false) (p.config crypto true).productUserId)
    (hout : Way s true false [opening]) (hback : Way s false true [])
    (htold : Told crypto p s true false [] [] []) (htold' : Told crypto p s false true [] [] [])
    (hstate : (s false).state = .shaking entry) :
    let s' := s.turned false n ((s false).shakes crypto (p.config crypto false)
      (w.reading ((s true).wire.take n) health) r entry)
    Stage crypto p s' ∧ (Calm crypto p true w r health → (s' false).state ≠ .gone) := by
  intro s'
  have hne : true ≠ false := by decide
  obtain ⟨hchannel, hexpected⟩ := hR.of_state hstate
  have hopen : entry.channel.established = false := by
    rw [hchannel]
    rfl
  have hI' : Shaking s' true i₁ (p.config crypto false).productUserId :=
    hI.congr (shakes_keeps s hne _ _ r n entry).1
  have htold₁ : Told crypto p s' true false [] [] [] := htold.shakes hne _ _ r n entry
  have htold₂ : Told crypto p s' false true [] [] [] := htold'.shakes hne _ _ r n entry
  rcases arrived_cases hout.small (hout.arrived hstate n) with
    hnone | ⟨body, later, rest, hbodies, harrived, hready, hrest⟩
  · obtain ⟨hback', hout', hR', hcalm⟩ := shook_waits hne hstate hexpected hback hout hnone
    rw [hchannel] at hR'
    exact ⟨.asked hopening hI' hR' hout' hback' htold₁ htold₂, hcalm⟩
  · obtain ⟨rfl, rfl⟩ : opening = body ∧ [] = later := by simpa using hbodies
    obtain rfl : rest = [] := List.prefix_nil.1 hrest
    cases hrandom : w.random entry.connection with
    | none =>
      have hstep : entry.channel.readHandshake crypto (w.random entry.connection) opening =
          .stepFailed := by
        rw [hrandom, hchannel]
        exact hopening.fails
      have hshaken : Router.Shaken crypto (p.config crypto false)
          (w.reading ((s true).wire.take n) health) entry
            (([] : List Bytes).flatMap frameMessage) _ :=
        Router.shakeOne_fails hopen hready hstep
      have hinto : Way s true false ([] ++ [opening]) := hout
      obtain ⟨hshook, -⟩ := @shook crypto s false true _ _ r n entry [] [] [] [opening] _ hne hstate
        hback hinto (fun body hbody ↦ by cases hbody) hshaken fun outbox ↦ .inl rfl
      have hgone : (s' false).state = .gone := by
        rcases hshook.state with hgone | ⟨outbox, hat⟩
        · exact hgone
        · exact hat
      exact ⟨.asked hopening hI' (.inl hgone) hshook.into hshook.out htold₁ htold₂,
        fun hcalm ↦ absurd hrandom (hcalm.random _)⟩
    | some eR =>
      obtain ⟨t, hanswers⟩ := hopening.answers eR
      have hstep : entry.channel.readHandshake crypto (w.random entry.connection) opening =
          .stepContinue t.answer t.r₁ := by
        rw [hrandom, hchannel]
        exact hanswers
      have hframed : Router.replyFrame t.answer = [t.answer].flatMap frameMessage := by
        simp [Router.replyFrame, t.spoken.1]
      have hshaken : Router.Shaken crypto (p.config crypto false)
          (w.reading ((s true).wire.take n) health) entry (Router.replyFrame t.answer) _ :=
        Router.shakeOne_answers hopen hready rfl hstep
      rw [hframed] at hshaken
      have hinto : Way s true false ([opening] ++ []) := hout
      obtain ⟨hshook, hcalm⟩ := @shook crypto s false true _ _ r n entry [] [t.answer]
        [opening] [] _
        hne hstate hback hinto (fun body hbody ↦ List.mem_singleton.1 hbody ▸ t.small.1) hshaken
        fun outbox ↦ .inr ⟨rfl, by rw [List.flatMap_singleton]; exact harrived⟩
      refine ⟨.answered t hI' ?_ hshook.into hshook.out htold₁ htold₂, fun hcalm' hgone ↦ ?_⟩
      · rcases hshook.state with hgone | ⟨outbox, hat⟩
        · exact .inl hgone
        · exact .inr ⟨_, hat, rfl, hexpected⟩
      · obtain ⟨outbox, hat⟩ := hcalm (hcalm'.writable _) hcalm'.alive
        rw [hat] at hgone
        cases hgone

/-- The last message for an end has arrived: it adopts the other. -/
theorem shook_completes {reply message rest : Bytes} {new later : List Bytes}
    (hnamed : (p.config crypto y).productUserId ≠ []) (hne : y ≠ x)
    (hstate : (s x).state = .shaking entry) (hopen : entry.channel.established = false)
    (hexpected : entry.expectedId = [] ∨ entry.expectedId = (p.config crypto y).productUserId)
    (hout : Way s x y bodies) (hinto : Way s y x (message :: later))
    (harrived : entry.buffer ++ (s y).wire.take n = frameMessage message ++ rest)
    (hready : takeFrame (entry.buffer ++ (s y).wire.take n) = .ready message rest)
    (hstep : ∀ random, entry.channel.readHandshake crypto random message = .stepDone reply channel)
    (hfresh : channel.Fresh)
    (hremote : channel.remoteStatic = crypto.x25519PublicKey (p.secret y))
    (hreply : Router.replyFrame reply = new.flatMap frameMessage)
    (hsmall : ∀ body ∈ new, body.length ≤ maxMessageSize) (hquiet : (s x).queued = []) :
    let s' := s.turned x n ((s x).shakes crypto (p.config crypto x)
      (w.reading ((s y).wire.take n) health) r entry)
    Way s' x y (bodies ++ new) ∧ Way s' y x later ∧
      Meshed s' x (p.config crypto y).productUserId channel.send.key channel.recv.key 0 ∧
      (Calm crypto p y w r health →
        (p.config crypto y).productUserId ≠ (p.config crypto x).productUserId →
        (s' x).state ≠ .gone) := by
  intro s'
  have hid : (p.config crypto x).idOfKey crypto channel.remoteStatic =
      (p.config crypto y).productUserId := by
    rw [hremote]
    rfl
  have hshaken : Router.Shaken crypto (p.config crypto x)
    (w.reading ((s y).wire.take n) health) entry
      (Router.replyFrame reply) _ :=
    Router.shakeOne_completes hopen hready (hstep _) hfresh.established hid hnamed hexpected
  rw [hreply] at hshaken
  have hinto' : Way s y x ([message] ++ later) := hinto
  have hadopts (outbox : Bytes) : LinkEnd.ofShake crypto (p.config crypto x)
      (w.reading ((s y).wire.take n) health) r
      (.proved (p.config crypto y).productUserId { entry with outbox, buffer := rest, channel }) =
        if r.adoptable (p.config crypto x) (p.config crypto y).productUserId then
          .peer (p.config crypto y).productUserId (Router.adoptedPeer crypto
            (w.reading ((s y).wire.take n) health) { entry with outbox, buffer := rest, channel })
        else .gone := rfl
  obtain ⟨hshook, hcalm⟩ := @shook crypto s x y _ _ r n entry bodies new [message] later _
    hne hstate hout hinto' hsmall hshaken fun outbox ↦ by
      rw [hadopts]
      split
      · exact .inr ⟨rfl, by rw [List.flatMap_singleton]; exact harrived⟩
      · exact .inl rfl
  refine ⟨hshook.out, hshook.into, ?_, fun hcalm' hdiffer hgone ↦ ?_⟩
  · rcases hshook.state with hgone | ⟨outbox, hat⟩
    · exact .inl hgone
    · rw [hadopts] at hat
      split at hat
      · have hqueued : (s' x).queued = [] :=
          ((shakes_keeps s hne _ _ r n entry).2 x).1.trans hquiet
        refine .inr ⟨_, hat, hfresh.established, ?_, ?_⟩
        · rw [hqueued]
          exact ⟨rfl, congrArg CipherState.hasKey hfresh.sendKeyed,
            congrArg (·.nonce.toNat) hfresh.sendKeyed⟩
        · exact ⟨rfl, congrArg CipherState.hasKey hfresh.recvKeyed,
            congrArg (·.nonce.toNat) hfresh.recvKeyed⟩
      · exact .inl hat
  · obtain ⟨outbox, hat⟩ := hcalm (hcalm'.writable _) hcalm'.alive
    have hadoptable : r.adoptable (p.config crypto x) (p.config crypto y).productUserId = true := by
      simp [Router.adoptable, hnamed, hdiffer, hcalm'.free]
    rw [hadopts, if_pos hadoptable] at hat
    rw [hat] at hgone
    cases hgone

/-- The dialing end has the answer before it. -/
theorem Stage.shakes_answered {i₁ : PeerChannel} (hapart : p.Apart crypto)
    (t : Transcript crypto p i₁)
    (hI : Shaking s true i₁ (p.config crypto false).productUserId)
    (hR : Shaking s false t.r₁ (p.config crypto true).productUserId)
    (hout : Way s true false []) (hback : Way s false true [t.answer])
    (htold : Told crypto p s true false [] [] []) (htold' : Told crypto p s false true [] [] [])
    (hstate : (s true).state = .shaking entry) :
    let s' := s.turned true n ((s true).shakes crypto (p.config crypto true)
      (w.reading ((s false).wire.take n) health) r entry)
    Stage crypto p s' ∧ (Calm crypto p false w r health → (s' true).state ≠ .gone) := by
  intro s'
  have hne : false ≠ true := by decide
  obtain ⟨hchannel, hexpected⟩ := hI.of_state hstate
  have hR' : Shaking s' false t.r₁ (p.config crypto true).productUserId :=
    hR.congr (shakes_keeps s hne _ _ r n entry).1
  have htold₁ : Told crypto p s' true false [] [] [] := htold.shakes hne _ _ r n entry
  have htold₂ : Told crypto p s' false true [] [] [] := htold'.shakes hne _ _ r n entry
  rcases arrived_cases hback.small (hback.arrived hstate n) with
    hnone | ⟨body, later, rest, hbodies, harrived, hready, hrest⟩
  · obtain ⟨hout', hback', hI', hcalm⟩ := shook_waits hne hstate hexpected hout hback hnone
    rw [hchannel] at hI'
    exact ⟨.answered t hI' hR' hout' hback' htold₁ htold₂, hcalm⟩
  · obtain ⟨rfl, rfl⟩ : t.answer = body ∧ [] = later := by simpa using hbodies
    have hopen : entry.channel.established = false := by
      rw [hchannel]
      exact t.waiting.1
    have hstep (random : Option Bytes) : entry.channel.readHandshake crypto random t.answer =
        .stepDone t.closing t.i₂ := by
      rw [hchannel]
      exact t.closes random
    have hframed : Router.replyFrame t.closing = [t.closing].flatMap frameMessage := by
      simp [Router.replyFrame, t.spoken.2]
    obtain ⟨hout', hback', hI', hcalm⟩ := shook_completes (hapart.named false) hne hstate hopen
      hexpected hout hback harrived hready hstep t.fresh.1 t.remote.1 hframed
      (fun body hbody ↦ List.mem_singleton.1 hbody ▸ t.small.2) htold.queued
    have hclosed : Way s' true false (t.closing :: ([] : List Letter).map (·.body)) := hout'
    exact ⟨.closing t hI' hR' hclosed hback' ⟨htold₁.queued, htold₁.heard, trivial⟩ htold₂,
      fun hcalm' ↦ hcalm hcalm' hapart.differ.symm⟩

/-- The other end has the closing message before it, and letters may be behind it. -/
theorem Stage.shakes_closing {i₁ : PeerChannel} {letters : List Letter} (hapart : p.Apart crypto)
    (t : Transcript crypto p i₁)
    (hI : Meshed s true (p.config crypto false).productUserId t.i₂.send.key t.i₂.recv.key 0)
    (hR : Shaking s false t.r₁ (p.config crypto true).productUserId)
    (hout : Way s true false (t.closing :: letters.map (·.body))) (hback : Way s false true [])
    (htold : Told crypto p s true false t.i₂.send.key [] letters)
    (htold' : Told crypto p s false true [] [] []) (hstate : (s false).state = .shaking entry) :
    let s' := s.turned false n ((s false).shakes crypto (p.config crypto false)
      (w.reading ((s true).wire.take n) health) r entry)
    Stage crypto p s' ∧ (Calm crypto p true w r health → (s' false).state ≠ .gone) := by
  intro s'
  have hne : true ≠ false := by decide
  obtain ⟨hchannel, hexpected⟩ := hR.of_state hstate
  have hI' : Meshed s' true (p.config crypto false).productUserId t.i₂.send.key t.i₂.recv.key 0 :=
    hI.congr (shakes_keeps s hne _ _ r n entry).1 ((shakes_keeps s hne _ _ r n entry).2 true).1
  have htold₁ : Told crypto p s' true false t.i₂.send.key [] letters :=
    htold.shakes hne _ _ r n entry
  have htold₂ : Told crypto p s' false true [] [] [] := htold'.shakes hne _ _ r n entry
  rcases arrived_cases hout.small (hout.arrived hstate n) with
    hnone | ⟨body, later, rest, hbodies, harrived, hready, hrest⟩
  · obtain ⟨hback', hout', hR', hcalm⟩ := shook_waits hne hstate hexpected hback hout hnone
    rw [hchannel] at hR'
    exact ⟨.closing t hI' hR' hout' hback' htold₁ htold₂, hcalm⟩
  · obtain ⟨rfl, rfl⟩ : t.closing = body ∧ letters.map (·.body) = later := by simpa using hbodies
    have hopen : entry.channel.established = false := by
      rw [hchannel]
      exact t.waiting.2
    have hstep (random : Option Bytes) : entry.channel.readHandshake crypto random t.closing =
        .stepDone [] t.r₂ := by
      rw [hchannel]
      exact t.completes random
    have hsilent : Router.replyFrame [] = ([] : List Bytes).flatMap frameMessage := rfl
    have hnone : ∀ body ∈ ([] : List Bytes), body.length ≤ maxMessageSize := by simp
    obtain ⟨hback', hout', hR', hcalm⟩ := shook_completes (hapart.named true) hne hstate hopen
      hexpected hback hout harrived hready hstep t.fresh.2 t.remote.2 hsilent hnone htold'.queued
    have hkeys : t.r₂.send.key = t.i₂.recv.key ∧ t.r₂.recv.key = t.i₂.send.key :=
      ⟨congrArg CipherState.key t.stream.2, congrArg CipherState.key t.stream.1.symm⟩
    rw [hkeys.1, hkeys.2] at hR'
    have hquiet : Told crypto p s' false true t.i₂.recv.key [] [] :=
      ⟨htold₂.queued, htold₂.heard, trivial⟩
    have hempty : Way s' false true (([] : List Letter).map (·.body)) := hback'
    have hcount : Meshed s' true (p.config crypto false).productUserId t.i₂.send.key t.i₂.recv.key
        ([] : List NetEnvelope).length := hI'
    have hcount' : Meshed s' false (p.config crypto true).productUserId t.i₂.recv.key t.i₂.send.key
        ([] : List NetEnvelope).length := hR'
    exact ⟨.up hcount hcount' hout' hempty htold₁ hquiet, fun hcalm' ↦ hcalm hcalm' hapart.differ⟩

/-- **A turn of the handshake.** -/
theorem Stage.shakes (hapart : p.Apart crypto) (h : Stage crypto p s)
    (hstate : (s x).state = .shaking entry) :
    let s' := s.turned x n ((s x).shakes crypto (p.config crypto x)
      (w.reading ((s !x).wire.take n) health) r entry)
    Stage crypto p s' ∧ (Calm crypto p (!x) w r health → (s' x).state ≠ .gone) := by
  intro s'
  cases h with
  | asked hopening hI hR hout hback htold htold' =>
    cases x with
    | false => exact Stage.shakes_asked hopening hI hR hout hback htold htold' hstate
    | true =>
      have hne : false ≠ true := by decide
      obtain ⟨hchannel, hexpected⟩ := hI.of_state hstate
      have hnothing := hback.arrived hstate n
      rw [List.flatMap_nil, List.prefix_nil] at hnothing
      obtain ⟨hout', hback', hI', hcalm⟩ := shook_waits hne hstate hexpected hout hback
        (by rw [hnothing]; rfl)
      rw [hchannel] at hI'
      exact ⟨.asked hopening hI' (hR.congr (shakes_keeps s hne _ _ r n entry).1) hout' hback'
        (htold.shakes hne _ _ r n entry) (htold'.shakes hne _ _ r n entry), hcalm⟩
  | answered t hI hR hout hback htold htold' =>
    cases x with
    | true => exact Stage.shakes_answered hapart t hI hR hout hback htold htold' hstate
    | false =>
      have hne : true ≠ false := by decide
      obtain ⟨hchannel, hexpected⟩ := hR.of_state hstate
      have hnothing := hout.arrived hstate n
      rw [List.flatMap_nil, List.prefix_nil] at hnothing
      obtain ⟨hback', hout', hR', hcalm⟩ := shook_waits hne hstate hexpected hback hout
        (by rw [hnothing]; rfl)
      rw [hchannel] at hR'
      exact ⟨.answered t (hI.congr (shakes_keeps s hne _ _ r n entry).1) hR' hout' hback'
        (htold.shakes hne _ _ r n entry) (htold'.shakes hne _ _ r n entry), hcalm⟩
  | closing t hI hR hout hback htold htold' =>
    cases x with
    | true => exact absurd hstate hI.not_shaking
    | false => exact Stage.shakes_closing hapart t hI hR hout hback htold htold' hstate
  | up hI hR hout hback htold htold' =>
    cases x with
    | true => exact absurd hstate hI.not_shaking
    | false => exact absurd hstate hR.not_shaking

end Shaking

end Link
end EosMesh
