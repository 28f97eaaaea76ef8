import EosMesh.Net.PeerChannel

/-!
# Two ends of one handshake

What one side writes the other side reads, token by token, and both come out with the same chaining
key, the same hash and the same cipher.  So whatever the two agree on in their handshake, they have
heard the same.

* `Crypto.Sound` is what this rests on: both ends compute the same secret, what was sealed opens,
  and derivations and keys are of the sizes they have.  Everything else about the primitives is
  open, and so is all randomness.
* A token puts bytes on the wire or mixes a secret in, or both.  `Passes` says for one token that
  the reader takes just what the writer put there and that the two are alike after it (`passes_e`,
  `passes_s`, `passes_dh`), and `PassesAll` for a list of them.  `passes_message` is a whole
  message, with its empty payload.
* `opened`, `greeted`, `answered`, `certified` and `completed` are the states of the two ends
  between the messages, written out; `exchange_opening`, `exchange_answer` and `exchange_closing`
  lead from one to the next.
* `split_mirrored` is the end: the two roles take the outputs of the same derivations, each the
  other's way round, so that what one sends under the other receives under (`Mirrored`).

`handshake_agrees` puts them together for two channels that speak to each other, with the keys of
the stream and of the datagrams, the tag, and the static key that each end has of the other.
-/

set_option autoImplicit false

namespace EosMesh

open Lib

/-- What the handshake rests on: both ends compute the same secret, an AEAD opens what it sealed, a
derivation has as many outputs as were asked for, and a public key is 32 bytes. -/
structure Crypto.Sound (crypto : Crypto) : Prop where
  commutes : ∀ a b, crypto.x25519Shared a (crypto.x25519PublicKey b) =
    crypto.x25519Shared b (crypto.x25519PublicKey a)
  opens : ∀ key nonce ad plain, crypto.aeadDecrypt key nonce
    (crypto.aeadEncrypt key nonce ad plain).2
    ad (crypto.aeadEncrypt key nonce ad plain).1 = some plain
  outputs : ∀ salt ikm, ∃ first second, crypto.hkdfSha256 salt ikm 2 = [first, second]
  publicKeyLen : ∀ secret, (crypto.x25519PublicKey secret).length = dhLen

namespace NoiseHandshake

variable {crypto : Crypto}

/-- A state with its symmetric half replaced. -/
def withSymmetric (hs : NoiseHandshake) (ck h : Bytes) (cs : CipherState) : NoiseHandshake :=
  { hs with ck, h, cs }

/-! ## One token -/

/-- The writer puts `out` on the wire for a token, and the reader takes just that off it. -/
structure Passes (crypto : Crypto) (random : Option Bytes) (writer reader : NoiseHandshake)
    (token : Token) (out : Bytes) (writer' reader' : NoiseHandshake) : Prop where
  writes : writer.writeToken crypto random token = some (out, writer')
  reads : ∀ rest, reader.readToken crypto (out ++ rest) token = some (rest, reader')

/-- A keyed cipher that is not spent opens at one end what it sealed at the other. -/
theorem encrypt_decrypt (hsound : crypto.Sound) {cs : CipherState} (hkeyed : cs.hasKey = true)
    (hnonce : nonceExhausted cs.nonce = false) (ad plain : Bytes) :
    ∃ out, out.length = plain.length + aeadTagLen ∧
      cs.encrypt crypto ad plain = some (out, { cs with nonce := cs.nonce + 1 }) ∧
      cs.decrypt crypto ad out = some (plain, { cs with nonce := cs.nonce + 1 }) := by
  set sealed := crypto.aeadEncrypt cs.key (buildNonce cs.nonce) ad plain with hsealed
  have hcipher : sealed.1.length = plain.length := crypto.length_cipher _ _ _ _
  have hmac : sealed.2.length = aeadTagLen := crypto.length_mac _ _ _ _
  have hlength : (sealed.1 ++ sealed.2).length = plain.length + aeadTagLen := by
    rw [List.length_append, hcipher, hmac]
  refine ⟨sealed.1 ++ sealed.2, hlength, ?_, ?_⟩
  · rw [CipherState.encrypt, hkeyed, hnonce]
    simp only [not_true_eq_false, if_false, Bool.false_eq_true]
    rw [← hsealed]
  · have hbody : (sealed.1 ++ sealed.2).length - aeadTagLen = sealed.1.length := by
      rw [hlength, hcipher, Nat.add_sub_cancel]
    have hlong : ¬ (nonceExhausted cs.nonce = true ∨ (sealed.1 ++ sealed.2).length <
      aeadTagLen) := by
      rw [hnonce, hlength]
      simp
    rw [CipherState.decrypt, hkeyed]
    simp only [not_true_eq_false, if_false]
    rw [if_neg hlong, hbody, List.drop_left, List.take_left, hsealed, hsound.opens]

theorem encryptAndHash_decryptAndHash (hsound : crypto.Sound) (writer reader : NoiseHandshake)
    (ck h : Bytes) {cs : CipherState} (hkeyed : cs.hasKey = true)
    (hnonce : nonceExhausted cs.nonce = false) (plain : Bytes) :
    ∃ out h', out.length = plain.length + aeadTagLen ∧
      (writer.withSymmetric ck h cs).encryptAndHash crypto plain =
        some (out, writer.withSymmetric ck h' { cs with nonce := cs.nonce + 1 }) ∧
      (reader.withSymmetric ck h cs).decryptAndHash crypto out =
        some (plain, reader.withSymmetric ck h' { cs with nonce := cs.nonce + 1 }) := by
  obtain ⟨out, hlength, hencrypt, hdecrypt⟩ := encrypt_decrypt hsound hkeyed hnonce h plain
  refine ⟨out, crypto.sha256 (h ++ out), hlength, ?_, ?_⟩
  · rw [encryptAndHash, withSymmetric, hencrypt]
    rfl
  · have hlong : ¬ (cs.hasKey = true ∧ out.length < aeadTagLen) := by
      rw [hlength]
      omega
    rw [decryptAndHash, withSymmetric, hdecrypt]
    simp only [hlong, not_false_eq_true, guard_true]
    rfl

/-- The ephemeral key goes over in the clear. -/
theorem passes_e (hsound : crypto.Sound) (writer reader : NoiseHandshake) (ck h : Bytes)
    (cs : CipherState) (secret : Bytes) (hfresh : writer.haveE = false) :
    ∃ h', Passes crypto (some secret) (writer.withSymmetric ck h cs)
    (reader.withSymmetric ck h cs) .e
      (crypto.x25519PublicKey secret)
      (({ writer with ePriv := secret, ePub := crypto.x25519PublicKey secret, haveE := true } :
        NoiseHandshake).withSymmetric ck h' cs)
      (({ reader with re := crypto.x25519PublicKey secret, haveRe := true } :
        NoiseHandshake).withSymmetric ck h' cs) := by
  refine ⟨crypto.sha256 (h ++ crypto.x25519PublicKey secret), ?_, fun rest ↦ ?_⟩
  · rw [writeToken, ensureEphemeral, withSymmetric]
    dsimp only
    rw [hfresh]
    rfl
  · have hlength := hsound.publicKeyLen secret
    have hlong : dhLen ≤ (crypto.x25519PublicKey secret ++ rest).length := by
      rw [List.length_append, hlength]
      omega
    rw [readToken]
    simp only [hlong, guard_true]
    rw [← hlength, List.take_left, List.drop_left]
    rfl

/-- The static key goes over sealed. -/
theorem passes_s (hsound : crypto.Sound) (random : Option Bytes) (writer reader : NoiseHandshake)
    (ck h : Bytes) {cs : CipherState} (hkeyed : cs.hasKey = true)
    (hnonce : nonceExhausted cs.nonce = false) (hstatic : writer.sPub.length = dhLen) :
    ∃ out h', out.length = dhLen + aeadTagLen ∧
      Passes crypto random (writer.withSymmetric ck h cs) (reader.withSymmetric ck h cs) .s out
        (writer.withSymmetric ck h' { cs with nonce := cs.nonce + 1 })
        (({ reader with remoteStatic := writer.sPub, haveRs := true } :
          NoiseHandshake).withSymmetric ck h' { cs with nonce := cs.nonce + 1 }) := by
  obtain ⟨out, h', hlength, hencrypt, hdecrypt⟩ :=
    encryptAndHash_decryptAndHash hsound writer reader ck h hkeyed hnonce writer.sPub
  rw [hstatic] at hlength
  refine ⟨out, h', hlength, hencrypt, fun rest ↦ ?_⟩
  have hsize : (if (reader.withSymmetric ck h cs).cs.hasKey then dhLen + aeadTagLen else dhLen) =
      out.length := by
    rw [hlength]
    exact if_pos hkeyed
  have hlong : out.length ≤ (out ++ rest).length := by
    rw [List.length_append]
    omega
  rw [readToken]
  dsimp only
  rw [hsize, List.take_left, List.drop_left, hdecrypt]
  simp only [hlong, guard_true, Option.pure_def, Option.bind_eq_bind, Option.bind_some, hstatic]
  rfl

/-- The secret a DH token mixes in. -/
def secretOf (crypto : Crypto) (hs : NoiseHandshake) : Token → Option Bytes
  | .ee => crypto.x25519Shared hs.ePriv hs.re
  | .es =>
    crypto.x25519Shared (if hs.initiator then hs.ePriv else hs.sPriv)
      (if hs.initiator then hs.remoteStatic else hs.re)
  | .se =>
    crypto.x25519Shared (if hs.initiator then hs.sPriv else hs.ePriv)
      (if hs.initiator then hs.re else hs.remoteStatic)
  | .e | .s => none

theorem mixDh_of_secret {hs : NoiseHandshake} {token : Token} {secret : Bytes}
    (h : secretOf crypto hs token = some secret) : hs.mixDh crypto token =
    hs.mixKey crypto secret := by
  cases token with
  | e => cases h
  | s => cases h
  | ee => rw [mixDh, show crypto.x25519Shared hs.ePriv hs.re = some secret from h]; rfl
  | es =>
    rw [secretOf] at h
    rw [mixDh, h]
    rfl
  | se =>
    rw [secretOf] at h
    rw [mixDh, h]
    rfl

/-- Both ends mix in the same secret, and nothing goes over. -/
theorem passes_dh (hsound : crypto.Sound) (random : Option Bytes) (writer reader : NoiseHandshake)
    (ck h : Bytes) (cs : CipherState) {token : Token} {secret : Bytes}
    (hwriter : secretOf crypto writer token = some secret)
    (hreader : secretOf crypto reader token = some secret) :
    ∃ ck' key, Passes crypto random (writer.withSymmetric ck h cs) (reader.withSymmetric ck h cs)
      token [] (writer.withSymmetric ck' h (CipherState.initKey key))
      (reader.withSymmetric ck' h (CipherState.initKey key)) := by
  obtain ⟨ck', key, houtputs⟩ := hsound.outputs ck secret
  have hmix (hs : NoiseHandshake) (hsecret : secretOf crypto hs token = some secret) :
      (hs.withSymmetric ck h cs).mixDh crypto token =
        some (hs.withSymmetric ck' h (CipherState.initKey key)) := by
    have hsame : secretOf crypto (hs.withSymmetric ck h cs) token = some secret := by
      cases token <;> exact hsecret
    rw [mixDh_of_secret hsame, mixKey]
    dsimp only [withSymmetric]
    rw [houtputs]
  refine ⟨ck', key, ?_, fun rest ↦ ?_⟩
  · cases token with
    | e => cases hwriter
    | s => cases hwriter
    | ee => simp only [writeToken, hmix writer hwriter]; rfl
    | es => simp only [writeToken, hmix writer hwriter]; rfl
    | se => simp only [writeToken, hmix writer hwriter]; rfl
  · cases token with
    | e => cases hreader
    | s => cases hreader
    | ee => simp only [readToken, hmix reader hreader]; rfl
    | es => simp only [readToken, hmix reader hreader]; rfl
    | se => simp only [readToken, hmix reader hreader]; rfl

/-! ## One message -/

/-- The same for a list of tokens. -/
structure PassesAll (crypto : Crypto) (random : Option Bytes) (writer reader : NoiseHandshake)
    (tokens : List Token) (out : Bytes) (writer' reader' : NoiseHandshake) : Prop where
  writes : writer.writeTokens crypto random tokens = some (out, writer')
  reads : ∀ rest, reader.readTokens crypto (out ++ rest) tokens = some (rest, reader')

theorem PassesAll.nil (random : Option Bytes) (writer reader : NoiseHandshake) :
    PassesAll crypto random writer reader [] [] writer reader := ⟨rfl, fun _ ↦ rfl⟩

theorem Passes.cons {random : Option Bytes} {w r w' r' w'' r'' : NoiseHandshake} {token : Token}
    {tokens : List Token} {out rest : Bytes} (h : Passes crypto random w r token out w' r')
    (hrest : PassesAll crypto random w' r' tokens rest w'' r'') :
    PassesAll crypto random w r (token :: tokens) (out ++ rest) w'' r'' := by
  refine ⟨?_, fun after ↦ ?_⟩
  · rw [writeTokens, h.writes]
    simp only [Option.pure_def, Option.bind_eq_bind, Option.bind_some, hrest.writes]
  · rw [readTokens, List.append_assoc, h.reads]
    simp only [Option.bind_eq_bind, Option.bind_some, hrest.reads]

/-- A cipher that can carry one more message, or none yet. -/
def Ready (cs : CipherState) : Prop := nonceExhausted cs.nonce = false

/-- What the empty payload at the end of a message leaves of the cipher. -/
def afterPayload (cs : CipherState) : CipherState :=
  if cs.hasKey then { cs with nonce := cs.nonce + 1 } else cs

/-- A message whose tokens pass, passes, with the empty payload behind them. -/
theorem passes_message (hsound : crypto.Sound) {random : Option Bytes}
    {writer reader writer' reader' : NoiseHandshake} {ck h out : Bytes} {cs : CipherState}
    (htokens : PassesAll crypto random writer reader (xxMessage writer.messageIndex) out
      (writer'.withSymmetric ck h cs) (reader'.withSymmetric ck h cs))
    (hopen : writer.done = false ∧ reader.done = false)
    (hindex : reader.messageIndex = writer.messageIndex)
    (hturn : weWrite writer.initiator writer.messageIndex = true ∧
      weWrite reader.initiator writer.messageIndex = false)
    (hsize : messageSize writer.cs.hasKey 0 (xxMessage writer.messageIndex) ≤ maxNoiseMessage)
    (hout : out.length ≤ 1000) (hready : Ready cs) :
    ∃ payload h', payload.length = (if cs.hasKey then aeadTagLen else 0) ∧
      writer.writeMessage crypto random [] =
        some (out ++ payload, advance (writer'.withSymmetric ck h' (afterPayload cs))) ∧
      reader.readMessage crypto (out ++ payload) =
        some ([], advance (reader'.withSymmetric ck h' (afterPayload cs))) := by
  have hpayload : ∃ payload h', payload.length = (if cs.hasKey then aeadTagLen else 0) ∧
      (writer'.withSymmetric ck h cs).encryptAndHash crypto [] =
        some (payload, writer'.withSymmetric ck h' (afterPayload cs)) ∧
      (reader'.withSymmetric ck h cs).decryptAndHash crypto payload =
        some ([], reader'.withSymmetric ck h' (afterPayload cs)) := by
    by_cases hkeyed : cs.hasKey = true
    · obtain ⟨payload, h', hlength, hencrypt, hdecrypt⟩ :=
        encryptAndHash_decryptAndHash hsound writer' reader' ck h hkeyed hready []
      refine ⟨payload, h', ?_, ?_, ?_⟩
      · rw [if_pos hkeyed, hlength, List.length_nil, Nat.zero_add]
      · rw [afterPayload, if_pos hkeyed, hencrypt]
      · rw [afterPayload, if_pos hkeyed, hdecrypt]
    · refine ⟨[], crypto.sha256 (h ++ []), ?_, ?_, ?_⟩
      · rw [if_neg hkeyed, List.length_nil]
      · rw [encryptAndHash, withSymmetric, CipherState.encrypt, if_pos hkeyed, afterPayload,
          if_neg hkeyed]
        rfl
      · rw [decryptAndHash, withSymmetric, CipherState.decrypt, if_pos hkeyed, afterPayload,
          if_neg hkeyed]
        simp only [hkeyed]
        rfl
  obtain ⟨payload, h', hlength, hencrypt, hdecrypt⟩ := hpayload
  refine ⟨payload, h', hlength, ?_, ?_⟩
  · simp [writeMessage, hopen.1, hturn.1, hsize, htokens.writes, hencrypt]
  · have htotal : (out ++ payload).length ≤ maxNoiseMessage := by
      rw [List.length_append, hlength, aeadTagLen, maxNoiseMessage]
      split <;> omega
    rw [List.length_append] at htotal
    simp [readMessage, hopen.2, hindex, hturn.2, htotal, htokens.reads, hdecrypt]

/-! ## The three messages -/

/-- The handshake of one party before its prologue is mixed in, and with no cipher yet. -/
def party (crypto : Crypto) (initiator : Bool) (secret : Bytes) : NoiseHandshake where
  ck := protocolName
  h := protocolName
  cs := {}
  initiator
  sPriv := secret
  sPub := crypto.x25519PublicKey secret

/-- The initiator's state once it has sent its ephemeral key. -/
def opened (crypto : Crypto) (static ephemeral : Bytes) : NoiseHandshake :=
  { party crypto true static with
    ePriv := ephemeral, ePub := crypto.x25519PublicKey ephemeral, haveE := true, messageIndex := 1 }

/-- The responder's, once it has that key. -/
def greeted (crypto : Crypto) (static remoteEphemeral : Bytes) : NoiseHandshake :=
  { party crypto false static with
    re := crypto.x25519PublicKey remoteEphemeral, haveRe := true, messageIndex := 1 }

/-- The responder's once it has answered. -/
def answered (crypto : Crypto) (static ephemeral remoteEphemeral : Bytes) : NoiseHandshake :=
  { greeted crypto static remoteEphemeral with
    ePriv := ephemeral, ePub := crypto.x25519PublicKey ephemeral, haveE := true, messageIndex := 2 }

/-- The initiator's once it has the answer. -/
def certified (crypto : Crypto) (static ephemeral remoteStatic remoteEphemeral : Bytes) :
    NoiseHandshake :=
  { opened crypto static ephemeral with
    re := crypto.x25519PublicKey remoteEphemeral, haveRe := true
    remoteStatic := crypto.x25519PublicKey remoteStatic, haveRs := true, messageIndex := 2 }

/-- A party after the last message, whose hash is the handshake's. -/
def completed (hs : NoiseHandshake) (h : Bytes) : NoiseHandshake :=
  { hs with messageIndex := 3, done := true, handshakeHash := h }

section Exchange

variable (hsound : crypto.Sound) (sI sR eI eR prologue : Bytes)
include hsound

/-- The opening message carries the initiator's ephemeral key, in the clear. -/
theorem exchange_opening :
    ∃ message h, message.length = 32 ∧
      (init crypto true sI (crypto.x25519PublicKey sI) prologue).writeMessage crypto (some eI) [] =
        some (message, (opened crypto sI eI).withSymmetric protocolName h {}) ∧
      (init crypto false sR (crypto.x25519PublicKey sR) prologue).readMessage crypto message =
        some ([], (greeted crypto sR eI).withSymmetric protocolName h {}) := by
  obtain ⟨h₁, he⟩ := passes_e hsound (party crypto true sI) (party crypto false sR) protocolName
    (crypto.sha256 (protocolName ++ prologue)) {} eI rfl
  have hlength : (crypto.x25519PublicKey eI ++ []).length = 32 := by
    rw [List.append_nil, hsound.publicKeyLen, dhLen]
  have hsize : messageSize false 0 (xxMessage 0) ≤ maxNoiseMessage := by decide
  obtain ⟨payload, h₂, hpayload, hwrite, hread⟩ := passes_message hsound
    (he.cons (.nil _ _ _)) ⟨rfl, rfl⟩ rfl ⟨rfl, rfl⟩ hsize (by rw [hlength]; decide) rfl
  refine ⟨_, h₂, ?_, hwrite, hread⟩
  rw [List.length_append, hlength, hpayload]
  rfl

/-- The answer carries the responder's ephemeral key, and its static key sealed. -/
theorem exchange_answer (h : Bytes)
    (hee : crypto.x25519Shared eI (crypto.x25519PublicKey eR) ≠ none)
    (hes : crypto.x25519Shared eI (crypto.x25519PublicKey sR) ≠ none) :
    ∃ message ck h' cs, message.length = 96 ∧ cs.hasKey = true ∧ Ready cs ∧
      ((greeted crypto sR eI).withSymmetric protocolName h {}).writeMessage crypto (some eR) [] =
        some (message, (answered crypto sR eR eI).withSymmetric ck h' cs) ∧
      ((opened crypto sI eI).withSymmetric protocolName h {}).readMessage crypto message =
        some ([], (certified crypto sI eI sR eR).withSymmetric ck h' cs) := by
  obtain ⟨ee, hee⟩ := Option.ne_none_iff_exists'.1 hee
  obtain ⟨es, hes⟩ := Option.ne_none_iff_exists'.1 hes
  let writer := { answered crypto sR eR eI with messageIndex := 1 }
  let reader := { opened crypto sI eI with re := crypto.x25519PublicKey eR, haveRe := true }
  let reader' := { reader with remoteStatic := crypto.x25519PublicKey sR, haveRs := true }
  obtain ⟨h₁, he⟩ := passes_e hsound (greeted crypto sR eI) (opened crypto sI eI) protocolName h {}
    eR rfl
  have heeR : secretOf crypto writer .ee = some ee := (hsound.commutes eR eI).trans hee
  obtain ⟨ck₂, k₂, hee⟩ := passes_dh hsound (some eR) writer reader protocolName h₁ {} heeR hee
  obtain ⟨out, h₃, hout, hs⟩ := passes_s hsound (some eR) writer reader ck₂ h₁
    (show (CipherState.initKey k₂).hasKey = true from rfl) rfl (hsound.publicKeyLen sR)
  have hesR : secretOf crypto writer .es = some es := (hsound.commutes sR eI).trans hes
  obtain ⟨ck₄, k₄, hes⟩ := passes_dh hsound (some eR) writer reader' ck₂ h₃ _ hesR hes
  have htokens := he.cons (hee.cons (hs.cons (hes.cons (.nil _ _ _))))
  have hlength : (crypto.x25519PublicKey eR ++ ([] ++ (out ++ ([] ++ [])))).length = 80 := by
    simp [hsound.publicKeyLen, hout, dhLen, aeadTagLen]
  have hsize : messageSize false 0 (xxMessage 1) ≤ maxNoiseMessage := by decide
  obtain ⟨payload, h', hpayload, hwrite, hread⟩ := passes_message hsound htokens ⟨rfl, rfl⟩
    rfl ⟨rfl, rfl⟩ hsize (by rw [hlength]; decide) rfl
  refine ⟨_, ck₄, h', afterPayload (CipherState.initKey k₄), ?_, rfl, rfl, hwrite, hread⟩
  rw [List.length_append, hlength, hpayload]
  rfl

/-- The last message carries the initiator's static key, and both ends are done. -/
theorem exchange_closing (ck h : Bytes) {cs : CipherState} (hkeyed : cs.hasKey = true)
    (hready : Ready cs) (random : Option Bytes)
    (hse : crypto.x25519Shared sI (crypto.x25519PublicKey eR) ≠ none) :
    ∃ message ck' h' cs', message.length = 64 ∧
      ((certified crypto sI eI sR eR).withSymmetric ck h cs).writeMessage crypto random [] =
        some (message, (completed (certified crypto sI eI sR eR) h').withSymmetric ck' h' cs') ∧
      ((answered crypto sR eR eI).withSymmetric ck h cs).readMessage crypto message =
        some ([], (completed { answered crypto sR eR eI with
          remoteStatic := crypto.x25519PublicKey sI, haveRs := true } h').withSymmetric
            ck' h' cs') := by
  obtain ⟨se, hse⟩ := Option.ne_none_iff_exists'.1 hse
  let reader := { answered crypto sR eR eI with
    remoteStatic := crypto.x25519PublicKey sI, haveRs := true }
  obtain ⟨out, h₁, hout, hs⟩ := passes_s hsound random (certified crypto sI eI sR eR)
    (answered crypto sR eR eI) ck h hkeyed hready (hsound.publicKeyLen sI)
  have hseI : secretOf crypto (certified crypto sI eI sR eR) .se = some se := hse
  have hseR : secretOf crypto reader .se = some se := (hsound.commutes eR sI).trans hse
  obtain ⟨ck', k₂, hse⟩ := passes_dh hsound random (certified crypto sI eI sR eR) reader ck h₁
    { cs with nonce := cs.nonce + 1 } hseI hseR
  have hlength : (out ++ ([] ++ [])).length = 48 := by simp [hout, dhLen, aeadTagLen]
  have hturn : weWrite true 2 = true ∧ weWrite false 2 = false := by decide
  have hsize : messageSize cs.hasKey 0 (xxMessage 2) ≤ maxNoiseMessage := by
    rw [hkeyed]
    decide
  obtain ⟨payload, h', hpayload, hwrite, hread⟩ := passes_message hsound
    (hs.cons (hse.cons (.nil _ _ _))) ⟨rfl, rfl⟩ rfl hturn hsize (by rw [hlength]; decide) rfl
  refine ⟨_, ck', h', afterPayload (CipherState.initKey k₂), ?_, hwrite, hread⟩
  rw [List.length_append, hlength, hpayload]
  rfl

end Exchange

/-- The outputs of a split, mirrored for the two roles. -/
theorem split_mirrored (hsound : crypto.Sound) {initiator responder : NoiseHandshake}
    {ck h : Bytes} {cs : CipherState}
    (hroles : initiator.initiator = true ∧ responder.initiator = false)
    (hsplit : initiator.splitDone = false ∧ responder.splitDone = false) :
    ∃ keys,
      (∃ hs, ((completed initiator h).withSymmetric ck h cs).split crypto = some (keys, hs)) ∧
      ∃ hs, ((completed responder h).withSymmetric ck h cs).split crypto =
        some (⟨keys.recv, keys.send, keys.udpRecv, keys.udpSend⟩, hs) := by
  obtain ⟨udp₀, udp₁, hudp⟩ := hsound.outputs ck (canonicalField udpSubkeyDomain)
  obtain ⟨out₀, out₁, hout⟩ := hsound.outputs ck []
  refine ⟨⟨.initKey out₀, .initKey out₁, udp₀, udp₁⟩, ?_, ?_⟩
  · simp [split, completed, withSymmetric, hudp, hout, hroles.1, hsplit.1]
  · simp [split, completed, withSymmetric, hudp, hout, hroles.2, hsplit.2]

end NoiseHandshake

/-! ## The two channels -/

namespace PeerChannel

variable {crypto : Crypto}

/-- The handshake as a step leaves it, before a finished one is let go. -/
def handshakeAfter (crypto : Crypto) (ch : PeerChannel) (random : Option Bytes) (message : Bytes) :
    Option NoiseHandshake := do
  let hs ← ch.handshake
  let (_, hs) ← hs.readMessage crypto message
  if ch.messageIndex + 1 < handshakeMessageCount then (·.2) <$> hs.writeMessage crypto random []
  else some hs

/-- What the two ends of a finished handshake have in common. -/
structure Mirrored (crypto : Crypto) (initiator responder : PeerChannel)
    (sI sR : Bytes) : Prop where
  established : initiator.established = true ∧ responder.established = true
  stream : initiator.send = responder.recv ∧ responder.send = initiator.recv
  datagram : initiator.udpSend = responder.udpRecv ∧ responder.udpSend = initiator.udpRecv
  tag : initiator.udpSendTag = responder.udpRecvTag ∧ responder.udpSendTag = initiator.udpRecvTag
  remote : initiator.remoteStatic = crypto.x25519PublicKey sR ∧
    responder.remoteStatic = crypto.x25519PublicKey sI

theorem finish_of_split {ch : PeerChannel} {hs hs' : NoiseHandshake} {reply : Bytes}
    {keys : NoiseHandshake.Transport} (hdone : hs.done = true) (hrs : hs.haveRs = true)
    (hsplit : hs.split crypto = some (keys, hs')) :
    ch.finish crypto hs reply = .stepDone reply { ch with
      remoteStatic := hs.remoteStatic, send := keys.send, recv := keys.recv
      udpSend := keys.udpSend, udpRecv := keys.udpRecv
      udpSendTag := tagOfKey crypto keys.udpSend, udpRecvTag := tagOfKey crypto keys.udpRecv
      handshake := none, established := true } := by
  simp [finish, hdone, hrs, hsplit]

/-- A message that reads, and is answered. -/
theorem readHandshake_of_reply {ch : PeerChannel} {hs hs' hs'' : NoiseHandshake}
    {random : Option Bytes} {message payload reply : Bytes} (hest : ch.established = false)
    (hturn : NoiseHandshake.weWrite ch.initiator ch.messageIndex = false)
    (hindex : ch.messageIndex + 1 < handshakeMessageCount)
    (hlength : message.length = handshakeMessageSize ch.messageIndex)
    (hhs : ch.handshake = some hs) (hread : hs.readMessage crypto message = some (payload, hs'))
    (hwrite : hs'.writeMessage crypto random [] = some (reply, hs'')) :
    ch.readHandshake crypto random message =
      finish crypto { ch with messageIndex := ch.messageIndex + 2 } hs'' reply := by
  have hcount : ch.messageIndex < handshakeMessageCount := Nat.lt_of_succ_lt hindex
  simp [readHandshake, hest, hcount, hturn, hlength, hhs, hread, hindex, hwrite]

/-- The last message, which is not answered. -/
theorem readHandshake_of_last {ch : PeerChannel} {hs hs' : NoiseHandshake}
    {random : Option Bytes} {message payload : Bytes} (hest : ch.established = false)
    (hturn : NoiseHandshake.weWrite ch.initiator ch.messageIndex = false)
    (hindex : ch.messageIndex + 1 = handshakeMessageCount)
    (hlength : message.length = handshakeMessageSize ch.messageIndex)
    (hhs : ch.handshake = some hs) (hread : hs.readMessage crypto message = some (payload, hs')) :
    ch.readHandshake crypto random message =
      finish crypto { ch with messageIndex := ch.messageIndex + 1 } hs' [] := by
  have hcount : ch.messageIndex < handshakeMessageCount := by omega
  simp [readHandshake, hest, hcount, hturn, hlength, hhs, hread, hindex]

/-- **Handshake agreement.**  Whatever the keys, the three messages of 32, 96 and 64 bytes establish
both channels, with one handshake hash and with each end's keys, tags and remote key the other's. -/
theorem handshake_agrees (hsound : crypto.Sound) (sI sR eI eR prologue : Bytes)
    (random random' : Option Bytes)
    (hee : crypto.x25519Shared eI (crypto.x25519PublicKey eR) ≠ none)
    (hes : crypto.x25519Shared eI (crypto.x25519PublicKey sR) ≠ none)
    (hse : crypto.x25519Shared sI (crypto.x25519PublicKey eR) ≠ none) :
    ∃ m₀ m₁ m₂ i₁ r₁ i₂ r₂ hI hR,
      (m₀.length = 32 ∧ m₁.length = 96 ∧ m₂.length = 64) ∧
      (init crypto true sI (crypto.x25519PublicKey sI) prologue).openHandshake crypto (some eI) =
        some (m₀, i₁) ∧
      (init crypto false sR (crypto.x25519PublicKey sR) prologue).readHandshake crypto
        (some eR) m₀ =
        .stepContinue m₁ r₁ ∧
      i₁.readHandshake crypto random m₁ = .stepDone m₂ i₂ ∧
      r₁.readHandshake crypto random' m₂ = .stepDone [] r₂ ∧
      (i₁.handshakeAfter crypto random m₁ = some hI ∧
        r₁.handshakeAfter crypto random' m₂ = some hR ∧
        hI.done = true ∧ hR.done = true ∧ hI.handshakeHash = hR.handshakeHash) ∧
      Mirrored crypto i₂ r₂ sI sR := by
  obtain ⟨m₀, h₀, hlength₀, hopens, hgreets⟩ :=
    NoiseHandshake.exchange_opening hsound sI sR eI prologue
  obtain ⟨m₁, ck₁, h₁, cs₁, hlength₁, hkeyed, hready, hanswers, hcertifies⟩ :=
    NoiseHandshake.exchange_answer hsound sI sR eI eR h₀ hee hes
  obtain ⟨m₂, ck₂, h₂, cs₂, hlength₂, hcloses, hcompletes⟩ :=
    NoiseHandshake.exchange_closing hsound sI sR eI eR ck₁ h₁ hkeyed hready random hse
  set hI := (NoiseHandshake.completed (NoiseHandshake.certified crypto sI eI sR eR)
    h₂).withSymmetric
    ck₂ h₂ cs₂ with hIeq
  set hR := (NoiseHandshake.completed { NoiseHandshake.answered crypto sR eR eI with
    remoteStatic := crypto.x25519PublicKey sI, haveRs := true } h₂).withSymmetric ck₂
      h₂ cs₂ with hReq
  obtain ⟨keys, ⟨_, hsplitI⟩, ⟨_, hsplitR⟩⟩ : ∃ keys, (∃ hs, hI.split crypto = some (keys, hs)) ∧
      ∃ hs, hR.split crypto = some (⟨keys.recv, keys.send, keys.udpRecv, keys.udpSend⟩, hs) :=
    NoiseHandshake.split_mirrored hsound ⟨rfl, rfl⟩ ⟨rfl, rfl⟩
  let i₁ : PeerChannel := { init crypto true sI (crypto.x25519PublicKey sI) prologue with
    handshake := some ((NoiseHandshake.opened crypto sI eI).withSymmetric protocolName h₀ {})
    messageIndex := 1 }
  let r₁ : PeerChannel := { init crypto false sR (crypto.x25519PublicKey sR) prologue with
    handshake := some ((NoiseHandshake.answered crypto sR eR eI).withSymmetric ck₁ h₁ cs₁)
    messageIndex := 2 }
  have hcount : 0 + 1 < handshakeMessageCount ∧ 1 + 1 < handshakeMessageCount := by decide
  have hturn : NoiseHandshake.weWrite false 2 = false := by decide
  have hopening : (init crypto true sI (crypto.x25519PublicKey sI) prologue).openHandshake crypto
      (some eI) = some (m₀, i₁) := by simp [openHandshake, init, hopens, i₁]
  have hgreeting : (init crypto false sR (crypto.x25519PublicKey sR) prologue).readHandshake crypto
      (some eR) m₀ = .stepContinue m₁ r₁ :=
    readHandshake_of_reply rfl rfl hcount.1 hlength₀ rfl hgreets hanswers
  have hdoneI : finish crypto { i₁ with messageIndex := 3 } hI m₂ = .stepDone m₂ _ :=
    finish_of_split rfl rfl hsplitI
  have hdoneR : finish crypto { r₁ with messageIndex := 3 } hR [] = .stepDone [] _ :=
    finish_of_split rfl rfl hsplitR
  have hclosing := (readHandshake_of_reply rfl rfl hcount.2 hlength₁ rfl hcertifies hcloses :
    i₁.readHandshake crypto random m₁ = _).trans hdoneI
  have hcompleting := (readHandshake_of_last rfl hturn rfl hlength₂ rfl hcompletes :
    r₁.readHandshake crypto random' m₂ = _).trans hdoneR
  refine ⟨m₀, m₁, m₂, i₁, r₁, _, _, hI, hR, ⟨hlength₀, hlength₁, hlength₂⟩, hopening, hgreeting,
    hclosing, hcompleting, ⟨?_, ?_, rfl, rfl, rfl⟩, ⟨rfl, rfl⟩, ⟨rfl, rfl⟩, ⟨rfl, rfl⟩, ⟨rfl, rfl⟩,
    ⟨rfl, rfl⟩⟩
  · simp [handshakeAfter, i₁, hcertifies, hcloses, handshakeMessageCount]
  · simp [handshakeAfter, r₁, hcompletes, handshakeMessageCount]

/-- The stand-in with every key cut or padded to 32 bytes. -/
def paddedCrypto : Crypto :=
  { checksumCrypto with
    x25519PublicKey := fun secret ↦ (secret ++ zeros dhLen).take dhLen
    x25519Shared := fun secret peerPublic ↦
      some (List.zipWith (· + ·) ((secret ++ zeros dhLen).take dhLen) peerPublic) }

theorem paddedCrypto_sound : paddedCrypto.Sound where
  commutes _ _ := congrArg some (List.zipWith_comm_of_comm UInt8.add_comm)
  opens key nonce ad plain := by simp [paddedCrypto, checksumCrypto]
  outputs salt ikm := ⟨_, _, rfl⟩
  publicKeyLen secret := by simp [paddedCrypto, zeros]

theorem handshake_agrees_padded :
    ∃ m₀ m₁ m₂ i₁ r₁ i₂ r₂ hI hR,
      (m₀.length = 32 ∧ m₁.length = 96 ∧ m₂.length = 64) ∧
      (init paddedCrypto true [1] (paddedCrypto.x25519PublicKey [1]) [7]).openHandshake paddedCrypto
        (some [3]) = some (m₀, i₁) ∧
      (init paddedCrypto false [2] (paddedCrypto.x25519PublicKey [2])
        [7]).readHandshake paddedCrypto
        (some [4]) m₀ = .stepContinue m₁ r₁ ∧
      i₁.readHandshake paddedCrypto none m₁ = .stepDone m₂ i₂ ∧
      r₁.readHandshake paddedCrypto none m₂ = .stepDone [] r₂ ∧
      (i₁.handshakeAfter paddedCrypto none m₁ = some hI ∧
        r₁.handshakeAfter paddedCrypto none m₂ = some hR ∧
        hI.done = true ∧ hR.done = true ∧ hI.handshakeHash = hR.handshakeHash) ∧
      Mirrored paddedCrypto i₂ r₂ [1] [2] :=
  handshake_agrees paddedCrypto_sound [1] [2] [3] [4] [7] none none nofun nofun nofun

end PeerChannel
end EosMesh
