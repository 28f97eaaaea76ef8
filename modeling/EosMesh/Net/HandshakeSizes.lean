import EosMesh.Lib.Run
import EosMesh.Net.Exchange

/-!
# The size of a handshake message

`noise_handshake::write_message` works out how long its message will be before it writes a token,
and refuses one over Noise's limit.  Were the size wrong, a message could be refused after its
tokens had moved the keys, and the handshake would be stuck; or one over the limit could go out.

* `messageSize_writeToken` is one token: the size foretold shrinks by the bytes it writes, under the
  cipher it leaves.  `messageSize_writeTokens` is the induction on the tokens that are left.
* What a token writes depends on whether there is a key by then: a tag is added from the first DH
  token on (`mixDh_keyed`), and so the count has to follow the tokens and not only the message.
* `Fits` is the invariant of a handshake, failed calls included: the keys it sends are of DH
  length.  `Drive` lists every call a handshake takes, and `Fits.drive` keeps it through them.
* `write_size_exact` is the result, after any calls: a message that is written is as long as was
  foretold, and within the limit; one that would be over it is refused, and a refusal, of a size or
  out of turn, leaves the handshake untouched.
-/

set_option autoImplicit false

namespace EosMesh

open Lib

namespace NoiseHandshake

/-! ## What a message comes to -/

/-- The two public keys a message may carry have their length. -/
structure Fits (hs : NoiseHandshake) : Prop where
  sPub : hs.sPub.length = dhLen
  ePub : hs.ePub.length = dhLen

variable {crypto : Crypto} {hs hs' : NoiseHandshake}

theorem ensureEphemeral_fits (hsized : crypto.Sized) {random : Option Bytes} (h : hs.Fits)
    (hensure : ensureEphemeral crypto hs random = some hs') :
    hs'.Fits ∧ hs'.cs = hs.cs := by
  rw [ensureEphemeral] at hensure
  split at hensure
  · cases hensure
    exact ⟨h, rfl⟩
  · obtain ⟨ePriv, -, rfl⟩ := Option.map_eq_some_iff.1 hensure
    exact ⟨⟨h.sPub, hsized.publicKey ePriv⟩, rfl⟩

/-- A ciphertext is its plaintext and, under a key, a tag. -/
theorem length_encryptAndHash {plain out : Bytes}
    (hencrypt : encryptAndHash crypto hs plain = some (out, hs')) :
    out.length = plain.length + (if hs.cs.hasKey then aeadTagLen else 0) ∧
      hs'.cs.hasKey = hs.cs.hasKey ∧ hs'.sPub = hs.sPub ∧ hs'.ePub = hs.ePub := by
  obtain ⟨⟨sent, cs⟩, hsent, hout⟩ := Option.bind_eq_some_iff.1 hencrypt
  cases hout
  rw [CipherState.encrypt] at hsent
  split at hsent
  · rename_i hplain
    cases hsent
    rw [if_neg hplain]
    exact ⟨rfl, rfl, rfl, rfl⟩
  · rename_i hkeyed
    split at hsent
    · cases hsent
    · cases hsent
      rw [if_pos (not_not.1 hkeyed), List.length_append, crypto.length_cipher, crypto.length_mac]
      exact ⟨rfl, rfl, rfl, rfl⟩

/-- From a DH token on, what is written is encrypted. -/
theorem mixDh_keyed {token : Token} (hdh : token ≠ .e ∧ token ≠ .s)
    (hmix : mixDh crypto hs token = some hs') :
    hs'.cs.hasKey = true ∧ hs'.sPub = hs.sPub ∧ hs'.ePub = hs.ePub := by
  rw [mixDh_eq hdh] at hmix
  obtain ⟨secret, -, hkey⟩ := Option.bind_eq_some_iff.1 hmix
  rw [mixKey] at hkey
  split at hkey
  · cases hkey
    exact ⟨rfl, rfl, rfl⟩
  · cases hkey

/-- **One token.**  What the size counted for it is what it writes. -/
theorem messageSize_writeToken (hsized : crypto.Sized) {random : Option Bytes} {token : Token}
    {out : Bytes} (h : hs.Fits) (hwrite : writeToken crypto random hs token = some (out, hs'))
    (n : Nat) (tokens : List Token) :
    hs'.Fits ∧ messageSize hs.cs.hasKey n (token :: tokens) =
      out.length + messageSize hs'.cs.hasKey n tokens := by
  have hdh {t : Token} (ht : t ≠ .e ∧ t ≠ .s)
      (hw : (do pure ([], ← mixDh crypto hs t) : Option (Bytes × NoiseHandshake)) =
        some (out, hs')) :
      hs'.Fits ∧ messageSize true n tokens = out.length + messageSize hs'.cs.hasKey n tokens := by
    obtain ⟨mixed, hmix, hout⟩ := Option.bind_eq_some_iff.1 hw
    cases hout
    obtain ⟨hkeyed, hsPub, hePub⟩ := mixDh_keyed ht hmix
    rw [hkeyed, List.length_nil, Nat.zero_add]
    exact ⟨⟨hsPub ▸ h.sPub, hePub ▸ h.ePub⟩, rfl⟩
  cases token with
  | e =>
    obtain ⟨ready, hready, hout⟩ := Option.bind_eq_some_iff.1 hwrite
    cases hout
    obtain ⟨hfits, hcs⟩ := ensureEphemeral_fits hsized h hready
    refine ⟨⟨hfits.sPub, hfits.ePub⟩, ?_⟩
    rw [messageSize, hfits.ePub, ← hcs]
    rfl
  | s =>
    obtain ⟨hlength, hkeyed, hsPub, hePub⟩ := length_encryptAndHash hwrite
    refine ⟨⟨hsPub ▸ h.sPub, hePub ▸ h.ePub⟩, ?_⟩
    rw [messageSize, hlength, h.sPub, hkeyed]
  | ee => exact hdh (t := .ee) ⟨nofun, nofun⟩ hwrite
  | es => exact hdh (t := .es) ⟨nofun, nofun⟩ hwrite
  | se => exact hdh (t := .se) ⟨nofun, nofun⟩ hwrite

/-- By induction on the tokens: what is left to write after them is the payload. -/
theorem messageSize_writeTokens (hsized : crypto.Sized) {random : Option Bytes}
    {tokens : List Token} {out : Bytes} (h : hs.Fits)
    (hwrite : writeTokens crypto random hs tokens = some (out, hs')) (n : Nat) :
    messageSize hs.cs.hasKey n tokens =
      out.length + (n + (if hs'.cs.hasKey then aeadTagLen else 0)) := by
  induction tokens generalizing hs out with
  | nil =>
    cases hwrite
    rw [messageSize, List.length_nil, Nat.zero_add]
  | cons token tokens ih =>
    obtain ⟨⟨first, mid⟩, hfirst, hrest⟩ := Option.bind_eq_some_iff.1 hwrite
    obtain ⟨⟨rest, last⟩, htail, hout⟩ := Option.bind_eq_some_iff.1 hrest
    cases hout
    obtain ⟨hfits, hsize⟩ := messageSize_writeToken hsized h hfirst n tokens
    rw [hsize, ih hfits htail, List.length_append, Nat.add_assoc]

/-- The message is as long as the check took it to be. -/
theorem length_writeMessage (hsized : crypto.Sized) {random : Option Bytes} {payload out : Bytes}
    (h : hs.Fits) (hwrite : writeMessage crypto hs random payload = some (out, hs')) :
    out.length = messageSize hs.cs.hasKey payload.length (xxMessage hs.messageIndex) ∧
      out.length ≤ maxNoiseMessage := by
  obtain ⟨_, -, hwrite⟩ := Option.bind_eq_some_iff.1 hwrite
  obtain ⟨_, hlimit, hwrite⟩ := Option.bind_eq_some_iff.1 hwrite
  obtain ⟨⟨first, mid⟩, htokens, hwrite⟩ := Option.bind_eq_some_iff.1 hwrite
  obtain ⟨⟨last, after⟩, hpayload, hout⟩ := Option.bind_eq_some_iff.1 hwrite
  cases hout
  have hsize := messageSize_writeTokens hsized h htokens payload.length
  have hexact : (first ++ last).length =
      messageSize hs.cs.hasKey payload.length (xxMessage hs.messageIndex) := by
    rw [hsize, List.length_append, (length_encryptAndHash hpayload).1]
  exact ⟨hexact, hexact ▸ (Option.guard_eq_some' ()).1 hlimit⟩

/-! ## A handshake over its calls -/

/-- Every call a handshake takes once it is built. -/
inductive Drive
  | write (random : Option Bytes) (payload : Bytes)
  | read (message : Bytes)
  | split
  deriving DecidableEq, Repr

/-- The handshake a call leaves, failed or not. -/
def drive (crypto : Crypto) (hs : NoiseHandshake) : Drive → Option NoiseHandshake
  | .write random payload => some (tryWriteMessage crypto random payload hs).state
  | .read message => some (tryReadMessage crypto message hs).state
  | .split => some (trySplit crypto hs).state

/-- Our own keys stay, but for an ephemeral one made on the way. -/
def KeepsFit (hs : NoiseHandshake) (_ : List Use) (hs' : NoiseHandshake) : Prop :=
  hs.Fits → hs'.Fits

theorem keepsFit_composes : Attempt.Composes KeepsFit where
  refl _ := id
  trans h h' hfits := h' (h hfits)

theorem keepsFit_mixHash (data : Bytes) : Attempt.Within KeepsFit (tryMixHash crypto data) :=
  fun _ h ↦ ⟨h.sPub, h.ePub⟩

theorem keepsFit_encryptAndHash (plain : Bytes) :
    Attempt.Within KeepsFit (tryEncryptAndHash crypto plain) := by
  intro hs h
  rw [tryEncryptAndHash]
  cases hs.cs.encrypt crypto hs.h plain with
  | none => exact h
  | some sent => exact ⟨h.sPub, h.ePub⟩

theorem keepsFit_decryptAndHash (cipher : Bytes) :
    Attempt.Within KeepsFit (tryDecryptAndHash crypto cipher) := by
  intro hs h
  rw [tryDecryptAndHash]
  split
  · exact h
  · cases hs.cs.decrypt crypto hs.h cipher with
    | none => exact h
    | some plain => exact ⟨h.sPub, h.ePub⟩

theorem keepsFit_mixDh (token : Token) : Attempt.Within KeepsFit (tryMixDh crypto token) := by
  intro hs h
  rw [tryMixDh]
  cases secretOf crypto hs token with
  | none => exact h
  | some secret =>
    dsimp only [tryMixKey]
    cases hkey : mixKey crypto hs secret with
    | none => exact h
    | some mixed =>
      rw [mixKey] at hkey
      split at hkey
      · cases hkey
        exact ⟨h.sPub, h.ePub⟩
      · cases hkey

theorem keepsFit_ensureEphemeral (hsized : crypto.Sized) (random : Option Bytes) :
    Attempt.Within KeepsFit (tryEnsureEphemeral crypto random) := by
  intro hs h
  rw [tryEnsureEphemeral]
  cases hensure : ensureEphemeral crypto hs random with
  | none => exact h
  | some ready => exact (ensureEphemeral_fits hsized h hensure).1

theorem keepsFit_writeTokens (hsized : crypto.Sized) (random : Option Bytes) (tokens : List Token) :
    Attempt.Within KeepsFit (tryWriteTokens crypto random tokens) := by
  have hR := keepsFit_composes
  have hdh (token : Token) : Attempt.Within KeepsFit
      (do tryMixDh crypto token; pure [] : Attempt Use NoiseHandshake Bytes) :=
    .bind hR (keepsFit_mixDh token) fun _ ↦ .pure hR _
  have htoken (token : Token) : Attempt.Within KeepsFit (tryWriteToken crypto random token) := by
    cases token with
    | e =>
      exact .bind hR (keepsFit_ensureEphemeral hsized random) fun _ ↦ .bind hR (.read hR) fun hs ↦
        .bind hR (keepsFit_mixHash _) fun _ ↦ .pure hR _
    | s => exact .bind hR (.read hR) fun hs ↦ keepsFit_encryptAndHash _
    | ee => exact hdh .ee
    | es => exact hdh .es
    | se => exact hdh .se
  induction tokens with
  | nil => exact .pure hR _
  | cons token tokens ih =>
    exact .bind hR (htoken token) fun _ ↦ .bind hR ih fun _ ↦ .pure hR _

theorem keepsFit_readTokens (message : Bytes) (tokens : List Token) :
    Attempt.Within KeepsFit (tryReadTokens crypto message tokens) := by
  have hR := keepsFit_composes
  have hdh (message : Bytes) (token : Token) : Attempt.Within KeepsFit
      (do tryMixDh crypto token; pure message : Attempt Use NoiseHandshake Bytes) :=
    .bind hR (keepsFit_mixDh token) fun _ ↦ .pure hR _
  have htoken (message : Bytes) (token : Token) :
      Attempt.Within KeepsFit (tryReadToken crypto message token) := by
    cases token with
    | e =>
      exact .bind hR (.require hR _) fun _ ↦
        .bind hR (.change fun _ h ↦ ⟨h.sPub, h.ePub⟩) fun _ ↦
          .bind hR (keepsFit_mixHash _) fun _ ↦ .pure hR _
    | s =>
      exact .bind hR (.read hR) fun hs ↦ .bind hR (.require hR _) fun _ ↦
        .bind hR (keepsFit_decryptAndHash _) fun _ ↦ .bind hR (.require hR _) fun _ ↦
          .bind hR (.change fun _ h ↦ ⟨h.sPub, h.ePub⟩) fun _ ↦ .pure hR _
    | ee => exact hdh message .ee
    | es => exact hdh message .es
    | se => exact hdh message .se
  induction tokens generalizing message with
  | nil => exact .pure hR _
  | cons token tokens ih => exact .bind hR (htoken message token) fun rest ↦ ih rest

theorem keepsFit_advance : Attempt.Within KeepsFit (Attempt.change advance) := by
  refine .change fun hs h ↦ ?_
  rw [advance]
  split <;> exact ⟨h.sPub, h.ePub⟩

/-- No call, failed or not, leaves a key of another length. -/
theorem Fits.drive (hsized : crypto.Sized) {i : Drive} (h : hs.Fits)
    (hstep : drive crypto hs i = some hs') : hs'.Fits := by
  have hR := keepsFit_composes
  cases i with
  | write random payload =>
    cases hstep
    have hwithin : Attempt.Within KeepsFit (tryWriteMessage crypto random payload) :=
      .bind hR (.read hR) fun _ ↦ .bind hR (.require hR _) fun _ ↦ .bind hR (.require hR _) fun _ ↦
        .bind hR (keepsFit_writeTokens hsized random _) fun _ ↦
          .bind hR (keepsFit_encryptAndHash payload) fun _ ↦ .bind hR keepsFit_advance fun _ ↦
            .pure hR _
    exact hwithin hs h
  | read message =>
    cases hstep
    have hwithin : Attempt.Within KeepsFit (tryReadMessage crypto message) :=
      .bind hR (.read hR) fun _ ↦ .bind hR (.require hR _) fun _ ↦
        .bind hR (keepsFit_readTokens message _) fun _ ↦
          .bind hR (keepsFit_decryptAndHash _) fun _ ↦ .bind hR keepsFit_advance fun _ ↦ .pure hR _
    exact hwithin hs h
  | split =>
    cases hstep
    rw [trySplit]
    split
    · exact h
    · dsimp only
      split
      · exact h
      · cases hsplit : split crypto hs with
        | none => exact h
        | some keys =>
          rw [NoiseHandshake.split] at hsplit
          split at hsplit
          · cases hsplit
          · split at hsplit
            · cases hsplit
              exact ⟨h.sPub, h.ePub⟩
            · cases hsplit

/-- A new handshake sends its static key, and has no ephemeral one yet. -/
theorem fits_init {initiator : Bool} {staticPriv staticPub prologue : Bytes}
    (hpub : staticPub.length = dhLen) :
    (init crypto initiator staticPriv staticPub prologue).Fits :=
  ⟨hpub, List.length_replicate⟩

/-- A write out of turn, or of a message over the limit, is refused before anything moves. -/
theorem tryWriteMessage_refused {random : Option Bytes} {payload : Bytes}
    (h : hs.done = true ∨ weWrite hs.initiator hs.messageIndex = false ∨
      maxNoiseMessage < messageSize hs.cs.hasKey payload.length (xxMessage hs.messageIndex)) :
    tryWriteMessage crypto random payload hs = ⟨none, hs, []⟩ := by
  rw [tryWriteMessage, Attempt.read_bind]
  by_cases hturn : ¬ hs.done = true ∧ weWrite hs.initiator hs.messageIndex = true
  · rw [Attempt.require_bind hturn]
    refine Attempt.require_bind_not ?_ _
    rcases h with hdone | hwrite | hlimit
    · exact absurd hdone hturn.1
    · exact absurd hturn.2 (Bool.eq_false_iff.1 hwrite)
    · exact Nat.not_le.2 hlimit
  · exact Attempt.require_bind_not hturn _

/-- A read out of turn, or of a message over the limit, likewise. -/
theorem tryReadMessage_refused {message : Bytes}
    (h : hs.done = true ∨ weWrite hs.initiator hs.messageIndex = true ∨
      maxNoiseMessage < message.length) :
    tryReadMessage crypto message hs = ⟨none, hs, []⟩ := by
  rw [tryReadMessage, Attempt.read_bind]
  refine Attempt.require_bind_not ?_ _
  rintro ⟨hdone, hwrite, hlimit⟩
  rcases h with h | h | h
  · exact hdone h
  · exact hwrite h
  · exact Nat.not_le.2 h hlimit

/-- **The size check is exact, and a refusal leaves no trace.**  Whatever calls led to the
handshake, failed ones included. -/
theorem write_size_exact (hsized : crypto.Sized) {initiator : Bool}
    {staticPriv staticPub prologue : Bytes} (hpub : staticPub.length = dhLen)
    {hs : NoiseHandshake}
    (h : Reaches (drive crypto) always (init crypto initiator staticPriv staticPub prologue) hs)
    (random : Option Bytes) (payload : Bytes) :
    (∀ out, (tryWriteMessage crypto random payload hs).result = some out →
      out.length = messageSize hs.cs.hasKey payload.length (xxMessage hs.messageIndex) ∧
        out.length ≤ maxNoiseMessage) ∧
    (hs.done = true ∨ weWrite hs.initiator hs.messageIndex = false ∨
        maxNoiseMessage < messageSize hs.cs.hasKey payload.length (xxMessage hs.messageIndex) →
      tryWriteMessage crypto random payload hs = ⟨none, hs, []⟩) ∧
    ∀ message : Bytes, hs.done = true ∨ weWrite hs.initiator hs.messageIndex = true ∨
        maxNoiseMessage < message.length →
      tryReadMessage crypto message hs = ⟨none, hs, []⟩ := by
  have hfits : hs.Fits := h.invariant (fits_init hpub) fun _ _ _ h _ hstep ↦ h.drive hsized hstep
  refine ⟨fun out hout ↦ ?_, tryWriteMessage_refused, fun message ↦ tryReadMessage_refused⟩
  have hvalue := @value_tryWriteMessage crypto random payload hs
  rw [Attempt.value, hout, Option.map_some] at hvalue
  exact length_writeMessage hsized hfits hvalue.symm

/-- The opening message of an initiator, and its handshake then. -/
def openedSample : Outcome Use NoiseHandshake Bytes :=
  tryWriteMessage rollingCrypto (some [3]) []
    (init rollingCrypto true (padKey [1]) (padKey [1]) [7])

/-- The handshake of a responder that has read it. -/
def answering : NoiseHandshake :=
  (tryReadMessage rollingCrypto (openedSample.result.getD [])
    (init rollingCrypto false (padKey [2]) (padKey [2]) [7])).state

/-- The responder answers in its turn, under two keys and with a payload, and the initiator is
refused out of turn. -/
theorem write_size_exact_turns :
    (∃ out, (tryWriteMessage rollingCrypto (some [4]) [1, 2] answering).result = some out ∧
      out.length = 98 ∧ out.length ≤ maxNoiseMessage) ∧
    tryWriteMessage rollingCrypto none [1, 2] openedSample.state =
    ⟨none, openedSample.state, []⟩ := by
  constructor
  · obtain ⟨out, hout⟩ := Option.isSome_iff_exists.1 (show
      (tryWriteMessage rollingCrypto (some [4]) [1, 2] answering).result.isSome = true by
        decide +kernel)
    have hsize : messageSize answering.cs.hasKey 2 (xxMessage answering.messageIndex) = 98 := by
      decide +kernel
    obtain ⟨hexact, hlimit⟩ := (write_size_exact rollingCrypto_sized rfl
      (.tail (i := .read (openedSample.result.getD [])) .refl trivial rfl) (some [4])
        [1, 2]).1 out hout
    exact ⟨out, hout, hexact.trans hsize, hlimit⟩
  · exact (write_size_exact rollingCrypto_sized rfl
      (.tail (i := .write (some [3]) []) .refl trivial rfl) none [1, 2]).2.1 (.inr (.inl rfl))

end NoiseHandshake
end EosMesh
