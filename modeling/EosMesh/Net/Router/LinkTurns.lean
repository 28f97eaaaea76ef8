import EosMesh.Net.Router.Framing
import EosMesh.Net.Router.Integrity
import EosMesh.Net.Router.Limits
import EosMesh.Net.Router.Link

/-!
# A turn at one end

What an honest end finds in its buffer is the start of what the other end put on the way, and so its
turn comes to one of few things.  The lemmas here are about one end of a link: what it makes of the
bytes that have arrived, and what its own operations put into its outbox.

* `Writable` is a socket that reports no error, however little it takes.
* `arrived_cases` says what a buffer can hold: no whole frame, or the next one that was sent.
* `Shaken` is what a pass over a handshaking connection comes to: nothing yet (`shakeOne_waits`), a
  message that is answered (`shakeOne_answers`), or the last one (`shakeOne_completes`); or it is
  refused (`shakeOne_fails`).  A pass reads all the messages that are there, so the loop is shown to
  stop at each of these (`shakeLoop_stops`, `shakeLoop_reads`).
* A letter is an envelope with the body of its frame; `SealedAt` says under which count it was
  sealed, and `SealedFrom` that a list of letters was sealed under the counts from one on.
  `sealFrame_letter` is a send: the letter is sealed under the count where the cipher stands, which
  goes up by one.
* `unsealFrames_sealed` opens letters frame by frame, in order, and `drainPeer_sealed` says what a
  drain makes of them: just those are handed on that have arrived whole, what is left in the buffer
  is the beginning of the next one, and the counter stands where they end.

`Net.Router.LinkStages` puts the two ends together, and `Net.Router.Lossless` has the whole runs.
-/

set_option autoImplicit false

namespace EosMesh

open Lib

variable {crypto : Crypto} {config : Config} {w : World}

/-! ## Sockets that do not fail -/

/-- The socket takes what it likes, and reports no error. -/
def Writable (results : List SendResult) : Prop :=
  ∀ result ∈ results, result ≠ .error ∧ result ≠ .sent 0

theorem flushOutbox_rest (results : List SendResult) (outbox : Bytes) :
    (flushOutbox results outbox).2.2 ⊆ results := by
  fun_induction flushOutbox results outbox with
  | case1 => simp
  | case2 => simp
  | case3 => simp
  | case4 => simp
  | case5 count results outbox hnil hcount ih => exact fun _ hmem ↦ List.mem_cons_of_mem _ (ih hmem)
  | case6 => simp

/-! ## What a buffer holds -/

theorem takeFrame_of_more {buffer : Bytes} (h : framePull buffer = .more) :
    takeFrame buffer = .none := by
  rw [framePull] at h
  split at h
  · assumption
  · cases h
  · cases h

theorem takeFrame_of_item {buffer body rest : Bytes} (h : framePull buffer = .item body rest) :
    takeFrame buffer = .ready body rest := by
  rw [framePull] at h
  split at h
  · cases h
  · rename_i hready
    cases h
    exact hready
  · cases h

/-- **What has arrived of frames that were sent** is no whole frame, or begins with the first. -/
theorem arrived_cases {bodies : List Bytes} (hsmall : ∀ body ∈ bodies, body.length ≤ maxMessageSize)
    {arrived : Bytes} (h : arrived <+: bodies.flatMap frameMessage) :
    takeFrame arrived = .none ∨ ∃ body later rest, bodies = body :: later ∧
      arrived = frameMessage body ++ rest ∧ takeFrame arrived = .ready body rest ∧
      rest <+: later.flatMap frameMessage := by
  cases bodies with
  | nil =>
    rw [List.flatMap_nil, List.prefix_nil] at h
    exact .inl (by rw [h]; rfl)
  | cons body later =>
    have hbody : body.length ≤ maxMessageSize := hsmall body List.mem_cons_self
    rw [List.flatMap_cons] at h
    by_cases hpart : arrived.length < (frameMessage body).length
    · have hstart : arrived <+: frameMessage body :=
        List.prefix_of_prefix_length_le h (List.prefix_append _ _) hpart.le
      exact .inl (takeFrame_of_more (framePull_part hbody hstart hpart))
    · have hwhole : frameMessage body <+: arrived :=
        List.prefix_of_prefix_length_le (List.prefix_append _ _) h (not_lt.1 hpart)
      obtain ⟨rest, rfl⟩ := hwhole
      exact .inr ⟨body, later, rest, rfl, rfl,
        takeFrame_of_item (framePull_frameMessage hbody rest),
        (List.prefix_append_right_inj _).1 h⟩

/-! ## A turn of the handshake -/

namespace Router

/-- What a reply adds to an outbox. -/
def replyFrame (reply : Bytes) : Bytes := if reply = [] then [] else frameMessage reply

theorem pushReply_splits (sends : List SendResult) (entry : HandshakingPeer) (reply : Bytes) :
    ∃ ok outbox sends', pushReply sends entry reply = (ok, { entry with outbox }, sends') ∧
      replyTaken sends entry.outbox reply ++ outbox = entry.outbox ++ replyFrame reply ∧
      (Writable sends → ok = true) := by
  rw [pushReply, replyTaken, replyFrame]
  by_cases hreply : reply = []
  · simp only [if_pos hreply]
    exact ⟨true, entry.outbox, sends, rfl, by simp, fun _ ↦ rfl⟩
  · simp only [if_neg hreply]
    exact ⟨_, _, _, rfl, flushTaken_append _ _, fun h ↦ flushOutbox_healthy h _⟩

/-- Where there is nothing more to read, the loop ends. -/
theorem shakeLoop_stops {entry : HandshakingPeer}
    (h : entry.channel.established = true ∨ takeFrame entry.buffer = .none) (fuel : Nat)
    (sends : List SendResult) (proved : Bytes) :
    shakeLoop crypto config w fuel sends entry proved = some (entry, proved) ∧
      shakeLoopTaken crypto w fuel sends entry = [] := by
  cases fuel with
  | zero => exact ⟨rfl, rfl⟩
  | succ fuel =>
    rw [shakeLoop, shakeLoopTaken]
    by_cases hest : entry.channel.established = true
    · rw [if_pos hest, if_pos hest]
      exact ⟨rfl, rfl⟩
    · rw [if_neg hest, if_neg hest, h.resolve_left hest]
      exact ⟨rfl, rfl⟩

/-- A pass over a handshaking connection that puts `framed` into the outbox, and comes to `next`
unless the connection is lost. -/
def Shaken (crypto : Crypto) (config : Config) (w : World) (entry : HandshakingPeer)
    (framed : Bytes)
    (next : Bytes → ShakeOutcome) : Prop :=
  ∃ outbox lost, entry.outbox ++ framed = shakeTaken crypto w entry ++ (outbox ++ lost) ∧
    (shakeOne crypto config w entry = .lost ∨
      lost = [] ∧ shakeOne crypto config w entry = next outbox) ∧
    (Writable (w.sends entry.connection) → (w.recv entry.connection).2 = .alive →
      shakeOne crypto config w entry = next outbox)

variable {entry : HandshakingPeer}

/-- A pass whose loop reads one message at most: what was flushed before it, and how it ends. -/
theorem shaken_of_loop {framed : Bytes} {next : Bytes → ShakeOutcome}
    (h : ∀ outbox sends, sends ⊆ w.sends entry.connection →
      let waiting : HandshakingPeer :=
        { entry with outbox, buffer := entry.buffer ++ (w.recv entry.connection).1 }
      ∃ (ok : Bool) (left : Bytes) (done : HandshakingPeer) (proved : Bytes),
        shakeLoop crypto config w waiting.buffer.length sends waiting [] =
          (if ok then some ({ done with outbox := left }, proved) else none) ∧
        shakeLoopTaken crypto w waiting.buffer.length sends waiting ++ left = outbox ++ framed ∧
        (Writable sends → ok = true) ∧
        ¬ (proved ≠ [] ∧ done.expectedId ≠ [] ∧ done.expectedId ≠ proved) ∧
        next left = if proved = [] then .shaking { done with outbox := left }
          else .proved proved { done with outbox := left }) :
    Shaken crypto config w entry framed next := by
  have hflush := flushTaken_append (w.sends entry.connection) entry.outbox
  have hrest := flushOutbox_rest (w.sends entry.connection) entry.outbox
  have hhealthy : Writable (w.sends entry.connection) →
      (flushOutbox (w.sends entry.connection) entry.outbox).1 = true := fun hh ↦
    flushOutbox_healthy hh _
  rw [Shaken, shakeOne, shakeTaken]
  generalize flushOutbox (w.sends entry.connection) entry.outbox =
    flushed at hflush hrest hhealthy ⊢
  obtain ⟨ok, outbox, sends⟩ := flushed
  cases ok with
  | false =>
    refine ⟨[], outbox ++ framed, ?_, .inl rfl, fun hh _ ↦ absurd (hhealthy hh) Bool.false_ne_true⟩
    simp only [List.append_nil, List.nil_append]
    rw [← List.append_assoc, hflush]
  | true =>
    obtain ⟨ok, left, done, proved, hloop, htaken, hok, hexpected, hnext⟩ := h outbox sends hrest
    dsimp only at hloop htaken ⊢
    have hsplit : entry.outbox ++ framed = flushTaken (w.sends entry.connection) entry.outbox ++
        shakeLoopTaken crypto w (entry.buffer ++ (w.recv entry.connection).1).length sends
          { entry with outbox, buffer := entry.buffer ++ (w.recv entry.connection).1 } ++ left := by
      rw [List.append_assoc, htaken, ← List.append_assoc, hflush]
    rw [hloop]
    cases ok with
    | false =>
      refine ⟨[], left, by simpa using hsplit, .inl rfl, fun hh _ ↦ ?_⟩
      exact absurd (hok fun result hmem ↦ hh result (hrest hmem)) Bool.false_ne_true
    | true =>
      rw [if_pos rfl]
      dsimp only
      rw [if_neg hexpected]
      refine ⟨left, [], by simpa using hsplit, ?_, fun _ halive ↦ ?_⟩
      · by_cases hclosed : (w.recv entry.connection).2 = .closed
        · exact .inl (if_pos hclosed)
        · rw [if_neg hclosed, hnext]
          exact .inr ⟨rfl, rfl⟩
      · rw [halive, hnext]
        rfl

/-- The loop reads a message, and finds no other. -/
theorem shakeLoop_reads {message rest reply proved : Bytes} {channel : PeerChannel} {fuel : Nat}
    (hready : takeFrame entry.buffer = .ready message rest)
    (hopen : entry.channel.established = false)
    (hfuel : entry.buffer.length ≤ fuel)
    (hstep : entry.channel.readHandshake crypto (w.random entry.connection) message =
        .stepContinue reply channel ∧ proved = [] ∨
      entry.channel.readHandshake crypto (w.random entry.connection) message =
        .stepDone reply channel ∧ proved = config.idOfKey crypto channel.remoteStatic)
    (hstop : channel.established = true ∨ takeFrame rest = .none) (sends : List SendResult) :
    ∃ (ok : Bool) (left : Bytes), shakeLoop crypto config w fuel sends entry [] =
        (if ok then some ({ entry with buffer := rest, channel, outbox := left },
          proved) else none) ∧
      shakeLoopTaken crypto w fuel sends entry ++ left = entry.outbox ++ replyFrame reply ∧
      (Writable sends → ok = true) := by
  obtain ⟨fuel, rfl⟩ : ∃ n, fuel = n + 1 := by
    have hshorter := takeFrame_ready hready
    exact ⟨fuel - 1, by omega⟩
  obtain ⟨ok, left, sends', hpush, htaken, hok⟩ :=
    pushReply_splits sends { entry with buffer := rest, channel } reply
  have hnext (proved : Bytes) := @shakeLoop_stops crypto config w
    { entry with buffer := rest, channel, outbox := left } hstop fuel sends' proved
  have hshut : ¬ entry.channel.established = true := by simp [hopen]
  refine ⟨ok, left, ?_, ?_, hok⟩
  · rw [shakeLoop, if_neg hshut, hready]
    dsimp only
    rcases hstep with ⟨hstep, rfl⟩ | ⟨hstep, rfl⟩ <;>
    · rw [hstep]
      dsimp only
      rw [hpush]
      cases ok with
      | false => rfl
      | true => exact (hnext _).1
  · rw [shakeLoopTaken, if_neg hshut, hready]
    dsimp only
    rw [← htaken]
    rcases hstep with ⟨hstep, -⟩ | ⟨hstep, -⟩ <;>
    · rw [hstep]
      dsimp only
      rw [hpush]
      cases ok with
      | false => rw [List.append_nil]
      | true =>
        dsimp only
        rw [(hnext []).2, List.append_nil]

section Pass

variable {message rest reply : Bytes} {channel : PeerChannel}

/-- No whole message has arrived. -/
theorem shakeOne_waits
    (hnone : takeFrame (entry.buffer ++ (w.recv entry.connection).1) = .none) :
    Shaken crypto config w entry [] fun outbox ↦
      .shaking { entry with outbox, buffer := entry.buffer ++ (w.recv entry.connection).1 } := by
  refine shaken_of_loop fun outbox sends _ ↦ ?_
  obtain ⟨hloop, htaken⟩ := @shakeLoop_stops crypto config w
    { entry with outbox, buffer := entry.buffer ++ (w.recv entry.connection).1 } (.inr hnone)
    (entry.buffer ++ (w.recv entry.connection).1).length sends []
  refine ⟨true, outbox, { entry with buffer := entry.buffer ++ (w.recv entry.connection).1 }, [],
    hloop, ?_, fun _ ↦ rfl, fun hne ↦ hne.1 rfl, rfl⟩
  rw [htaken, List.append_nil, List.nil_append]

/-- A message that fails is the end of the connection. -/
theorem shakeOne_fails (hopen : entry.channel.established = false)
    (hready : takeFrame (entry.buffer ++ (w.recv entry.connection).1) = .ready message rest)
    (hstep : entry.channel.readHandshake crypto (w.random entry.connection) message = .stepFailed) :
    Shaken crypto config w entry [] fun _ ↦ .lost := by
  have hflush := flushTaken_append (w.sends entry.connection) entry.outbox
  have hshut : ¬ entry.channel.established = true := by simp [hopen]
  have hshorter := takeFrame_ready hready
  obtain ⟨fuel, hfuel⟩ : ∃ n, (entry.buffer ++ (w.recv entry.connection).1).length = n + 1 :=
    ⟨(entry.buffer ++ (w.recv entry.connection).1).length - 1, by omega⟩
  have hlost : shakeOne crypto config w entry = .lost ∧
      ∃ lost, entry.outbox = shakeTaken crypto w entry ++ lost := by
    rw [shakeOne, shakeTaken]
    generalize flushOutbox (w.sends entry.connection) entry.outbox = flushed at hflush ⊢
    obtain ⟨ok, outbox, sends⟩ := flushed
    cases ok with
    | false => exact ⟨rfl, outbox, by rw [List.append_nil]; exact hflush.symm⟩
    | true =>
      dsimp only
      rw [hfuel, shakeLoop, shakeLoopTaken]
      dsimp only
      rw [if_neg hshut, if_neg hshut, hready]
      dsimp only
      rw [hstep]
      exact ⟨rfl, outbox, by rw [List.append_nil]; exact hflush.symm⟩
  obtain ⟨hgone, lost, hsplit⟩ := hlost
  exact ⟨[], lost, by rw [List.append_nil]; exact hsplit, .inl hgone, fun _ _ ↦ hgone⟩

/-- A message arrived, and is answered. -/
theorem shakeOne_answers (hopen : entry.channel.established = false)
    (hready : takeFrame (entry.buffer ++ (w.recv entry.connection).1) = .ready message rest)
    (hrest : takeFrame rest = .none)
    (hstep : entry.channel.readHandshake crypto (w.random entry.connection) message =
      .stepContinue reply channel) :
    Shaken crypto config w entry (replyFrame reply) fun outbox ↦
      .shaking { entry with outbox, buffer := rest, channel } := by
  refine shaken_of_loop fun outbox sends _ ↦ ?_
  obtain ⟨ok, left, hloop, htaken, hok⟩ := @shakeLoop_reads crypto config w
    { entry with outbox, buffer := entry.buffer ++ (w.recv entry.connection).1 }
      message rest reply []
    channel _ hready hopen (Nat.le_refl _) (.inl ⟨hstep, rfl⟩) (.inr hrest) sends
  exact ⟨ok, left, { entry with buffer := rest, channel }, [], hloop, htaken, hok,
    fun hne ↦ hne.1 rfl, rfl⟩

/-- The last message for this end arrived: it has proved who is there. -/
theorem shakeOne_completes (hopen : entry.channel.established = false)
    (hready : takeFrame (entry.buffer ++ (w.recv entry.connection).1) = .ready message rest)
    (hstep : entry.channel.readHandshake crypto (w.random entry.connection) message =
      .stepDone reply channel) (hdone : channel.established = true) {id : Bytes}
    (hid : config.idOfKey crypto channel.remoteStatic = id) (hne : id ≠ [])
    (hexpected : entry.expectedId = [] ∨ entry.expectedId = id) :
    Shaken crypto config w entry (replyFrame reply) fun outbox ↦
      .proved id { entry with outbox, buffer := rest, channel } := by
  refine shaken_of_loop fun outbox sends _ ↦ ?_
  obtain ⟨ok, left, hloop, htaken, hok⟩ := @shakeLoop_reads crypto config w
    { entry with outbox, buffer := entry.buffer ++ (w.recv entry.connection).1 }
      message rest reply id
    channel _ hready hopen (Nat.le_refl _) (.inr ⟨hstep, hid.symm⟩) (.inl hdone) sends
  refine ⟨ok, left, { entry with buffer := rest, channel }, id, hloop, htaken, hok, fun hbad ↦ ?_,
    (if_neg hne).symm⟩
  exact hexpected.elim hbad.2.1 hbad.2.2

end Pass

end Router

/-! ## Sealed envelopes -/

/-- An envelope on its way, and the body of the frame it is in. -/
structure Letter where
  msg : NetEnvelope
  body : Bytes

/-- The body is the envelope, sealed at counter `n`. -/
structure SealedAt (crypto : Crypto) (key : Bytes) (n : Nat) (letter : Letter) : Prop where
  sized : letter.msg.Sized
  small : letter.body.length ≤ maxMessageSize
  opens : ∀ channel : PeerChannel, channel.established = true → CountsTo channel.recv key n →
    ∃ channel', channel.unsealBytes crypto letter.body (framePrefix letter.body.length) =
      some (letter.msg.serialize, channel')

/-- The letters are sealed one after the other, from counter `n` on. -/
def SealedFrom (crypto : Crypto) (key : Bytes) : Nat → List Letter → Prop
  | _, [] => True
  | n, letter :: letters => SealedAt crypto key n letter ∧ SealedFrom crypto key (n + 1) letters

section Letters

variable {key : Bytes} {n : Nat} {letters later : List Letter} {letter : Letter}

theorem SealedFrom.concat (h : SealedFrom crypto key n letters)
    (hlast : SealedAt crypto key (n + letters.length) letter) :
    SealedFrom crypto key n (letters ++ [letter]) := by
  induction letters generalizing n with
  | nil => exact ⟨hlast, trivial⟩
  | cons first letters ih =>
    refine ⟨h.1, ih h.2 ?_⟩
    rwa [List.length_cons, ← Nat.add_assoc, Nat.add_right_comm] at hlast

theorem SealedFrom.drop (h : SealedFrom crypto key n (letters ++ later)) :
    SealedFrom crypto key (n + letters.length) later := by
  induction letters generalizing n with
  | nil => exact h
  | cons first letters ih =>
    have hrest := ih h.2
    rwa [Nat.add_assoc, Nat.add_comm 1] at hrest

theorem SealedFrom.sealedAt (h : SealedFrom crypto key n letters) (hmem : letter ∈ letters) :
    ∃ m, SealedAt crypto key m letter := by
  induction letters generalizing n with
  | nil => cases hmem
  | cons first letters ih =>
    rcases List.mem_cons.1 hmem with rfl | hmem
    · exact ⟨n, h.1⟩
    · exact ih h.2 hmem

theorem sized_of_serialize {msg : NetEnvelope} (h : msg.serialize.length < 2 ^ 64) : msg.Sized := by
  rw [NetEnvelope.serialize] at h
  simp only [List.length_append] at h
  constructor
  all_goals
    refine length_lt_of_putBytes ?_
    omega

/-- **What is sealed opens at the same counter.** -/
theorem sealFrame_letter (hsound : crypto.Sound) {channel channel' : PeerChannel}
    {msg : NetEnvelope}
    {framed : Bytes} (hcount : CountsTo channel.send key n)
    (h : sealFrame crypto channel msg.serialize = some (framed, channel')) :
    ∃ body, framed = frameMessage body ∧ SealedAt crypto key n ⟨msg, body⟩ ∧
      CountsTo channel'.send key (n + 1) ∧ channel' = { channel with send := channel'.send } := by
  obtain ⟨hcount', hframed⟩ := sealFrame_counts hcount h
  set sealed := crypto.aeadEncrypt key (buildNonce channel.send.nonce)
    (framePrefix (msg.serialize.length + aeadTagLen)) msg.serialize with hsealed
  have hlength : (sealed.1 ++ sealed.2).length = msg.serialize.length + aeadTagLen := by
    rw [List.length_append, hsealed, crypto.length_cipher, crypto.length_mac]
  have hsmall : ¬ msg.serialize.length + aeadTagLen > maxMessageSize := by
    intro hlarge
    rw [sealFrame, if_pos hlarge] at h
    cases h
  have hsized : msg.Sized := by
    rw [maxMessageSize] at hsmall
    exact sized_of_serialize (by omega)
  have hsend : channel' = { channel with send := channel'.send } := by
    rw [sealFrame, if_neg hsmall] at h
    split at h
    · cases h
    · rename_i cipher sealing hseal
      cases h
      exact (PeerChannel.sealBytes_eq hseal).2
  refine ⟨sealed.1 ++ sealed.2, ?_, ⟨hsized, ?_, fun receiver hest hreceiver ↦ ?_⟩, hcount', hsend⟩
  · rw [hframed, frameMessage, hlength, framePrefix]
  · rw [hlength]
    exact not_lt.1 hsmall
  · -- The receiving cipher stands at the same counter, which is not spent.
    have hnonce : receiver.recv.nonce = channel.send.nonce :=
      UInt64.toNat_inj.1 (hreceiver.nonce.trans hcount.nonce.symm)
    have hleft : nonceExhausted receiver.recv.nonce = false := by
      by_contra hspent
      have hend : channel.send.nonce.toNat = 2 ^ 64 - 1 := by
        have hmax : channel.send.nonce = ~~~ 0 := by
          simpa [nonceExhausted, hnonce] using hspent
        rw [hmax]
        rfl
      have hbound := channel'.send.nonce.toNat_lt
      have hnext := hcount'.nonce
      have hnow := hcount.nonce
      omega
    obtain ⟨out, hout, hencrypt, hdecrypt⟩ := NoiseHandshake.encrypt_decrypt hsound
      hreceiver.hasKey hleft (framePrefix (msg.serialize.length + aeadTagLen)) msg.serialize
    have hsame : out = sealed.1 ++ sealed.2 := by
      rw [CipherState.encrypt, hreceiver.hasKey, hleft, hreceiver.key, hnonce,
        ← hsealed] at hencrypt
      simpa using hencrypt.symm
    refine ⟨{ receiver with recv := { receiver.recv with nonce := receiver.recv.nonce + 1 } }, ?_⟩
    dsimp only
    rw [PeerChannel.unsealBytes, hest, ← hsame, hout]
    simp only [not_true_eq_false, false_or]
    rw [if_neg (by omega), hdecrypt]

/-- What part of the letters a buffer holds whole. -/
structure Arrived (letters ready later : List Letter) (arrived rest : Bytes) : Prop where
  letters : letters = ready ++ later
  arrived : arrived = (ready.map (·.body)).flatMap frameMessage ++ rest

/-- **The letters that have arrived whole are opened, and no frame is refused.** -/
theorem unsealFrames_sealed {channel : PeerChannel} {arrived : Bytes} {fuel : Nat}
    (hest : channel.established = true) (hcount : CountsTo channel.recv key n)
    (hsealed : SealedFrom crypto key n letters)
    (h : arrived <+: (letters.map (·.body)).flatMap frameMessage) (hfuel : arrived.length ≤ fuel) :
    ∃ ready later rest, Arrived letters ready later arrived rest ∧
      (unsealFrames crypto fuel channel arrived).plains = ready.map (·.msg.serialize) ∧
      (unsealFrames crypto fuel channel arrived).buffer = rest ∧
      (unsealFrames crypto fuel channel arrived).broken = none := by
  induction letters generalizing channel n arrived fuel with
  | nil =>
    rw [List.map_nil, List.flatMap_nil, List.prefix_nil] at h
    subst h
    refine ⟨[], [], [], ⟨rfl, rfl⟩, ?_⟩
    cases fuel <;> exact ⟨rfl, rfl, rfl⟩
  | cons letter letters ih =>
    have hsmall : ∀ body ∈ (letter :: letters).map (·.body), body.length ≤ maxMessageSize := by
      intro body hbody
      obtain ⟨other, hother, rfl⟩ := List.mem_map.1 hbody
      obtain ⟨m, hsealedAt⟩ := hsealed.sealedAt hother
      exact hsealedAt.small
    rcases arrived_cases hsmall h with hnone | ⟨body, bodies, rest, hbodies, harrived,
      hready, hrest⟩
    · refine ⟨[], letter :: letters, arrived, ⟨rfl, rfl⟩, ?_⟩
      cases fuel with
      | zero => exact ⟨rfl, rfl, rfl⟩
      | succ fuel =>
        rw [unsealFrames, hnone]
        exact ⟨rfl, rfl, rfl⟩
    · rw [List.map_cons, List.cons.injEq] at hbodies
      obtain ⟨rfl, rfl⟩ := hbodies
      have hshorter := takeFrame_ready hready
      obtain ⟨fuel, rfl⟩ : ∃ k, fuel = k + 1 := ⟨fuel - 1, by omega⟩
      obtain ⟨channel', hopen⟩ := hsealed.1.opens channel hest hcount
      have hest' : channel'.established = true := by
        rw [(PeerChannel.unsealBytes_eq hopen).2.2]
        exact hest
      obtain ⟨ready, later, rest', hsplit, hplains, hbuffer, hbroken⟩ :=
        ih hest' (hcount.unseal hopen).1 hsealed.2 hrest (by omega : rest.length ≤ fuel)
      refine ⟨letter :: ready, later, rest', ⟨?_, ?_⟩, ?_⟩
      · rw [hsplit.letters, List.cons_append]
      · rw [harrived, hsplit.arrived, List.map_cons, List.flatMap_cons, List.append_assoc]
      · rw [unsealFrames, hready]
        dsimp only
        rw [hopen]
        dsimp only
        rw [hplains, List.map_cons]
        exact ⟨rfl, hbuffer, hbroken⟩

end Letters

/-! ## A peer's turn -/

namespace Router

theorem readPlain_buffer (id : Bytes) (entry : Peer) (plain : Bytes) :
    (readPlain config w id entry plain).1.buffer = entry.buffer := by
  rw [readPlain]
  split
  · rfl
  · dsimp only
    split
    · rw [learnDatagramPort]
      repeat' split
      all_goals rfl
    · split <;> rfl

theorem readPlains_buffer (id : Bytes) (entry : Peer) (plains : List Bytes) :
    (readPlains config w id entry plains).1.buffer = entry.buffer := by
  induction plains generalizing entry with
  | nil => rfl
  | cons plain plains ih =>
    have hfirst : (readPlain config w id entry plain).1.buffer = entry.buffer :=
      readPlain_buffer id entry plain
    exact (ih (readPlain config w id entry plain).1).trans hfirst

theorem readPlain_serialize {msg : NetEnvelope} (h : msg.Sized) (id : Bytes) (entry : Peer) :
    (readPlain config w id entry msg.serialize).2 = delivery config id msg := by
  have hdecodes := NetEnvelope.decodes h []
  rw [List.append_nil] at hdecodes
  rw [readPlain, hdecodes, delivery]
  dsimp only
  split
  · rfl
  · split <;> rfl

/-- Envelopes that were sealed are handed on as they are. -/
theorem readPlains_serialize {letters : List Letter} (h : ∀ letter ∈ letters, letter.msg.Sized)
    (id : Bytes) (entry : Peer) :
    (readPlains config w id entry (letters.map (·.msg.serialize))).2.map Prod.fst =
      (letters.map (·.msg)).filterMap (delivery config id) := by
  induction letters generalizing entry with
  | nil => rfl
  | cons letter letters ih =>
    have hfirst := @readPlain_serialize config w letter.msg (h letter List.mem_cons_self) id entry
    have hrest := ih (fun other hother ↦ h other (List.mem_cons_of_mem _ hother))
      (readPlain config w id entry letter.msg.serialize).1
    rw [List.map_cons, readPlains, List.map_cons, List.filterMap_cons]
    dsimp only
    rw [List.map_append, hrest, hfirst]
    cases delivery config id letter.msg <;> rfl

/-- **What a peer's turn comes to**: what arrived whole is handed on, the socket takes some of what
waits, and the connection ends only with its socket. -/
theorem drainPeer_sealed {key : Bytes} {n : Nat} {letters : List Letter} {entry : Peer}
    (hest : entry.channel.established = true) (hcount : CountsTo entry.channel.recv key n)
    (hsealed : SealedFrom crypto key n letters)
    (h : entry.buffer ++ (w.recv entry.connection).1 <+:
      (letters.map (·.body)).flatMap frameMessage) (id : Bytes) :
    ∃ ready later rest, Arrived letters ready later
    (entry.buffer ++ (w.recv entry.connection).1) rest ∧
      (drainPeer crypto config w id entry).messages.map Prod.fst =
        (ready.map (·.msg)).filterMap (delivery config id) ∧
      (drainPeer crypto config w id entry).entry.buffer = rest ∧
      CountsTo (drainPeer crypto config w id entry).entry.channel.recv key (n + ready.length) ∧
      entry.outbox = drainTaken crypto w entry ++
        (drainPeer crypto config w id entry).entry.outbox ∧
      (Writable (w.sends entry.connection) → (w.recv entry.connection).2 = .alive →
        (drainPeer crypto config w id entry).dead = none) := by
  obtain ⟨ready, later, rest, hsplit, hplains, hbuffer, hbroken⟩ :=
    unsealFrames_sealed hest hcount hsealed h (Nat.le_refl _)
  have hsized : ∀ letter ∈ ready, letter.msg.Sized := fun letter hletter ↦ by
    obtain ⟨m, hsealedAt⟩ := hsealed.sealedAt (hsplit.letters ▸ List.mem_append_left _ hletter)
    exact hsealedAt.sized
  have hopened := @unsealFrames_counter crypto
    (entry.buffer ++ (w.recv entry.connection).1).length n entry.channel
    (entry.buffer ++ (w.recv entry.connection).1) key hcount
  rw [hplains, List.length_map] at hopened
  obtain ⟨hchannel, -⟩ := @drainPeer_identity crypto config w id entry
  have hcounted : CountsTo (drainPeer crypto config w id entry).entry.channel.recv key
      (n + ready.length) := by
    rw [hchannel]
    exact hopened.1
  refine ⟨ready, later, rest, hsplit, ?_, ?_, hcounted, ?_⟩
  all_goals
    have hbroken' : (openArrived crypto w entry).broken = none := hbroken
    have hplains' : (openArrived crypto w entry).plains = ready.map (·.msg.serialize) := hplains
    have hread := @readPlains_outbox config w id
      { entry with
        buffer := (openArrived crypto w entry).buffer,
          channel := (openArrived crypto w entry).channel }
      (openArrived crypto w entry).plains
    rw [drainPeer]
    dsimp only
    rw [hbroken']
    dsimp only
  · have hmessages := @readPlains_serialize config w ready hsized id
      { entry with
        buffer := (openArrived crypto w entry).buffer,
          channel := (openArrived crypto w entry).channel }
    rw [← hplains'] at hmessages
    split <;> exact hmessages
  · have hkept := @readPlains_buffer config w id
      { entry with
        buffer := (openArrived crypto w entry).buffer,
          channel := (openArrived crypto w entry).channel }
      (openArrived crypto w entry).plains
    have hrest : (openArrived crypto w entry).buffer = rest := hbuffer
    split <;> exact hkept.trans hrest
  · obtain ⟨houtbox, hconnection⟩ := hread
    rw [drainTaken, hbroken']
    by_cases hclosed : (w.recv entry.connection).2 = .closed
    · rw [if_pos hclosed, if_pos (.inr hclosed)]
      refine ⟨houtbox.symm, fun _ halive ↦ ?_⟩
      rw [halive] at hclosed
      cases hclosed
    · rw [if_neg hclosed, if_neg (by simpa using hclosed)]
      dsimp only
      rw [houtbox, hconnection]
      refine ⟨(flushTaken_append _ _).symm, fun hwritable _ ↦ ?_⟩
      rw [flushOutbox_healthy hwritable]
      rfl

end Router
end EosMesh
