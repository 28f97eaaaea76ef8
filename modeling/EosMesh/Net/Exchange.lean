import EosMesh.Net.Attempts

/-!
# What each message of a handshake can do

Each of the three messages is written by one end and read by the other, and each can fail at any of
its tokens.  The lemmas here say, for each writer and each reader, what it can have noted and what
it can leave: which hash an encryption was bound to, under which key and nonce, and where that key
came from.  Nonces, transcripts and prologues are all read off these.

* The opening message hashes twice, and there is no key yet (`Opened`); nothing in it can be
  refused.
* The answer is `Answers` where it is written: nothing sealed, or an ephemeral key and a key
  derived, and then a static key sealed under it.  Where it is read it is `ReadsAnswer`: refused
  before anything is opened, or opened up to some token.  `Certifies` is a reader that has both
  ciphertexts open.
* From a static key on, the answer and the closing message are written alike (`SealsOn`): nothing
  sealed, the static key, or the payload too.
* The closing message opens nothing but the two ciphertexts, and one whose static key does not open
  is refused with nothing changed.

A token that fails leaves the state that it failed in, so each of these has a case for every place
at which the message may end; `within_writeTokens` carries a relation through a list of tokens.

`Channels` is the two ends of a connection, each with what it has used its primitives for, and
`Channels.step` one call at one of them, on whatever bytes the network brought.
-/

set_option autoImplicit false

namespace EosMesh

open Lib

/-- A use that neither encrypts nor decrypts. -/
def Use.Silent : Use → Prop
  | .hashed _ | .derived _ _ => True
  | .sealed _ _ _ _ | .opened _ _ _ _ => False

namespace NoiseHandshake

variable {crypto : Crypto} {hs : NoiseHandshake}

section Advance

variable (hs)

@[simp] theorem ck_advance : hs.advance.ck = hs.ck := by rw [advance]; split <;> rfl

@[simp] theorem h_advance : hs.advance.h = hs.h := by rw [advance]; split <;> rfl

@[simp] theorem cs_advance : hs.advance.cs = hs.cs := by rw [advance]; split <;> rfl

@[simp] theorem haveE_advance : hs.advance.haveE = hs.haveE := by rw [advance]; split <;> rfl

@[simp] theorem messageIndex_advance : hs.advance.messageIndex = hs.messageIndex + 1 := by
  rw [advance]
  split <;> rfl

end Advance

/-! ## The opening message -/

/-- The opening message moves the hash on twice, and no key comes into it. -/
def Opened (crypto : Crypto) (hs hs' : NoiseHandshake) (notes : List Use) : Prop :=
  ∃ e, e.length = dhLen ∧ notes = [.hashed (hs.h ++ e), .hashed (hashWith crypto hs.h e ++ [])] ∧
    hs'.h = hashWith crypto (hashWith crypto hs.h e) [] ∧ hs'.cs = hs.cs ∧ hs'.ck = hs.ck ∧
    hs'.messageIndex = 1

theorem ends_writeOpening (hsized : crypto.Sized) (random : Option Bytes)
    (hindex : hs.messageIndex = 0) (hdone : hs.done = false) (hrole : hs.initiator = true)
    (hkey : hs.cs.hasKey = false) (hfresh : hs.haveE = false) :
    Attempt.Ends (tryWriteMessage crypto random []) hs fun r hs' notes ↦
      (r = false ∧ hs' = hs ∧ notes = []) ∨ r = true ∧ Opened crypto hs hs' notes := by
  have htokens : xxMessage hs.messageIndex = [.e] := by rw [hindex]; rfl
  have hturn : ¬ hs.done = true ∧ weWrite hs.initiator hs.messageIndex = true := by
    rw [hdone, hrole, hindex]
    exact ⟨Bool.false_ne_true, rfl⟩
  have hsize : messageSize hs.cs.hasKey 0 [.e] ≤ maxNoiseMessage := by
    rw [hkey]
    decide
  refine ends_writeMessage htokens hturn hsize
    (ends_writeTokens_last (ends_writeToken_e hsized random hfresh)) ?_ ?_
  · rintro hs' notes (⟨-, h⟩ | ⟨_, _, -, hr, -⟩)
    · exact .inl ⟨rfl, h⟩
    · cases hr
  · rintro hs' notes (⟨hr, -⟩ | ⟨ePriv, e, hlength, -, rfl, rfl⟩)
    · cases hr
    · refine (ends_encryptAndHash_unkeyed (by exact hkey) []).mono ?_
      rintro r hs'' notes' ⟨rfl, rfl, rfl⟩
      refine .inr ⟨rfl, e, hlength, rfl, ?_⟩
      simp [mixHash, hashWith, hindex]

/-- Nothing in an opening message can be refused. -/
theorem ends_readOpening {message : Bytes} (hlength : message.length = dhLen)
    (hindex : hs.messageIndex = 0) (hdone : hs.done = false) (hrole : hs.initiator = false)
    (hkey : hs.cs.hasKey = false) :
    Attempt.Ends (tryReadMessage crypto message) hs fun r hs' notes ↦
      r = true ∧ Opened crypto hs hs' notes ∧ hs'.haveE = hs.haveE := by
  have htokens : xxMessage hs.messageIndex = [.e] := by rw [hindex]; rfl
  have hturn : ¬ hs.done = true ∧ ¬ weWrite hs.initiator hs.messageIndex = true ∧
      message.length ≤ maxNoiseMessage := by
    rw [hdone, hrole, hindex, hlength]
    decide
  have he : tryReadTokens crypto message [.e] hs =
      ⟨some [], mixHash crypto { hs with re := message, haveRe := true } message,
        [.hashed (hs.h ++ message)]⟩ := by
    have htoken : tryReadToken crypto message .e hs = _ := tryReadToken_e (ge_of_eq hlength)
    rw [← hlength, List.drop_length, List.take_length] at htoken
    rw [tryReadTokens, Attempt.bind_of_some (by rw [htoken]), htoken]
    rfl
  refine .of_eq (tryReadMessage_eq message hturn) ?_
  rw [htokens]
  refine .bind_done he (.bind (ends_decryptAndHash_unkeyed (by exact hkey) []) ?_ ?_)
  · rintro hs' notes ⟨hr, -⟩
    cases hr
  · rintro payload hs' notes ⟨-, rfl, rfl⟩
    refine .change (.pure ⟨rfl, ⟨message, hlength, rfl, ?_⟩, ?_⟩)
    · simp [mixHash, hashWith, hindex]
    · simp [mixHash]

/-! ## The answer -/

/-- A key pair derived from `ck` with a shared secret. -/
def DerivedFrom (crypto : Crypto) (ck secret ck' key : Bytes) : Prop :=
  crypto.hkdfSha256 ck secret 2 = [ck', key] ∧ secret.length = dhLen

/-- The end of a message after a static key: one more derivation, and the empty payload sealed under
its key with nonce zero. -/
def SealsPayload (crypto : Crypto) (ck h ck' key : Bytes) (notes : List Use) : Prop :=
  ∃ secret out, DerivedFrom crypto ck secret ck' key ∧
    notes = [.derived ck secret, .sealed key (buildNonce 0) h [], .hashed (h ++ out)]

/-- Our static key, sealed under the cipher as it is. -/
def SealsStatic (crypto : Crypto) (cs : CipherState) (h sPub h' : Bytes)
    (notes : List Use) : Prop :=
  ∃ out, out.length = dhLen + aeadTagLen ∧ h' = hashWith crypto h out ∧
    notes = [.sealed cs.key (buildNonce cs.nonce) h sPub, .hashed (h ++ out)]

/-- A message from a static key on, as far as it got: nothing sealed, the static key only, or the
payload too, which is all of it. -/
inductive SealsOn (crypto : Crypto) (cs : CipherState) (ck h sPub : Bytes) :
    Bool → NoiseHandshake → List Use → Prop
  | static {hs' : NoiseHandshake} {h' : Bytes} {notes rest : List Use}
    (hstatic : SealsStatic crypto cs h sPub h' notes) (hsilent : ∀ use ∈ rest, use.Silent) :
    SealsOn crypto cs ck h sPub false hs' (notes ++ rest)
  | all {hs' : NoiseHandshake} {h' ck' key : Bytes} {notes rest : List Use}
    (hstatic : SealsStatic crypto cs h sPub h' notes)
    (hpayload : SealsPayload crypto ck h' ck' key rest) (hck : hs'.ck = ck')
    (hcs : hs'.cs = { CipherState.initKey key with nonce := 1 }) :
    SealsOn crypto cs ck h sPub true hs' (notes ++ rest)

/-- The two ends of a message are the same for the responder's answer and the initiator's closing:
the static key, a DH token and the payload. -/
theorem ends_writeStatic (hsized : crypto.Sized) {random : Option Bytes} {token : Token}
    (hdh : token ≠ .e ∧ token ≠ .s) (hkey : hs.cs.hasKey = true)
    (hnonce : nonceExhausted hs.cs.nonce = false) (hstatic : hs.sPub.length = dhLen) :
    Attempt.Ends (tryWriteTokens crypto random [.s, token]) hs fun r hs' notes ↦
      ∃ h' first rest, SealsStatic crypto hs.cs hs.h hs.sPub h' first ∧ notes = first ++ rest ∧
        ((r = false ∧ ∀ use ∈ rest, use.Silent) ∨
          ∃ secret ck' key, r = true ∧ DerivedFrom crypto hs.ck secret ck' key ∧
            rest = [.derived hs.ck secret] ∧ hs'.h = h' ∧ hs'.ck = ck' ∧
            hs'.cs = CipherState.initKey key ∧ hs'.messageIndex = hs.messageIndex) := by
  refine ends_writeTokens_cons (ends_writeToken_s hkey hnonce hstatic) ?_ ?_
  · rintro hs' notes ⟨_, hr, -⟩
    cases hr
  · rintro hs' notes ⟨out, -, hlength, rfl, rfl⟩
    refine (ends_writeTokens_last (ends_writeToken_dh hdh (ends_mixDh hsized hdh))).mono ?_
    rintro r hs'' notes' (⟨rfl, -, hnotes⟩ | ⟨secret, ck', key, rfl, rfl, rfl, hout, hsecret⟩)
    · refine ⟨_, _, notes', ⟨out, hlength, rfl, rfl⟩, rfl, .inl ⟨rfl, ?_⟩⟩
      rcases hnotes with rfl | ⟨ikm, rfl⟩
      · exact List.forall_mem_nil _
      · simp [Use.Silent]
    · exact ⟨_, _, _, ⟨out, hlength, rfl, rfl⟩, rfl,
        .inr ⟨secret, ck', key, rfl, ⟨hout, hsecret⟩, rfl, rfl, rfl, rfl, rfl⟩⟩

/-- The empty payload, the first thing a fresh key carries. -/
theorem ends_payload {key : Bytes} (hcs : hs.cs = CipherState.initKey key) :
    Attempt.Ends (tryEncryptAndHash crypto []) hs fun r hs' notes ↦
      r = true ∧ (∃ out, notes = [.sealed key (buildNonce 0) hs.h [], .hashed (hs.h ++ out)]) ∧
        hs'.ck = hs.ck ∧ hs'.cs = { CipherState.initKey key with nonce := 1 } ∧
        hs'.messageIndex = hs.messageIndex := by
  have hkey : hs.cs.hasKey = true := by rw [hcs]; rfl
  have hnonce : nonceExhausted hs.cs.nonce = false := by rw [hcs]; rfl
  refine (ends_encryptAndHash hkey hnonce []).mono ?_
  rintro r hs' notes ⟨out, rfl, -, rfl, rfl⟩
  rw [hcs]
  exact ⟨rfl, ⟨out, rfl⟩, rfl, rfl, rfl⟩

/-- The closing message, under the cipher that opened the answer. -/
theorem ends_writeClosing (hsized : crypto.Sized) (random : Option Bytes)
    (hindex : hs.messageIndex = 2) (hdone : hs.done = false) (hrole : hs.initiator = true)
    (hkey : hs.cs.hasKey = true) (hnonce : nonceExhausted hs.cs.nonce = false)
    (hstatic : hs.sPub.length = dhLen) :
    Attempt.Ends (tryWriteMessage crypto random []) hs
      (SealsOn crypto hs.cs hs.ck hs.h hs.sPub) := by
  have htokens : xxMessage hs.messageIndex = [.s, .se] := by rw [hindex]; rfl
  have hturn : ¬ hs.done = true ∧ weWrite hs.initiator hs.messageIndex = true := by
    rw [hdone, hrole, hindex]
    exact ⟨Bool.false_ne_true, rfl⟩
  have hsize : messageSize hs.cs.hasKey 0 [.s, .se] ≤ maxNoiseMessage := by
    rw [hkey]
    decide
  refine ends_writeMessage htokens hturn hsize
    (ends_writeStatic hsized ⟨nofun, nofun⟩ hkey hnonce hstatic) ?_ ?_
  · rintro hs' notes ⟨h', first, rest, hfirst, rfl, ⟨-, hsilent⟩ | ⟨_, _, _, hr, -⟩⟩
    · exact .static hfirst hsilent
    · cases hr
  · rintro hs' notes ⟨h', first, rest, hfirst, rfl, ⟨hr, -⟩ |
      ⟨secret, ck', key, -, hderived, rfl, rfl, rfl, hcs, -⟩⟩
    · cases hr
    · refine (ends_payload hcs).mono ?_
      rintro r hs'' notes' ⟨rfl, ⟨out, rfl⟩, hck, hcs', -⟩
      rw [List.append_assoc]
      refine .all hfirst ⟨secret, out, hderived, rfl⟩ ?_ ?_
      · simpa using hck
      · simpa using hcs'

/-- The answer as far as it got: nothing sealed, or an ephemeral key and a key derived, and then a
static key under that. -/
inductive Answers (crypto : Crypto) (hs : NoiseHandshake) : Bool → NoiseHandshake → List Use → Prop
  | nothing {hs' : NoiseHandshake} {notes : List Use} (hsilent : ∀ use ∈ notes, use.Silent) :
    Answers crypto hs false hs' notes
  | keyed {r : Bool} {hs' : NoiseHandshake} {e secret ck key : Bytes} {notes : List Use}
    (he : e.length = dhLen) (hderived : DerivedFrom crypto hs.ck secret ck key)
    (hon : SealsOn crypto (CipherState.initKey key) ck (hashWith crypto hs.h e) hs.sPub r hs' notes)
    (hindex : r = true → hs'.messageIndex = 2) :
    Answers crypto hs r hs' (.hashed (hs.h ++ e) :: .derived hs.ck secret :: notes)

theorem ends_writeAnswer (hsized : crypto.Sized) (random : Option Bytes)
    (hindex : hs.messageIndex = 1) (hdone : hs.done = false) (hrole : hs.initiator = false)
    (hkey : hs.cs.hasKey = false) (hfresh : hs.haveE = false) (hstatic : hs.sPub.length = dhLen) :
    Attempt.Ends (tryWriteMessage crypto random []) hs (Answers crypto hs) := by
  have htokens : xxMessage hs.messageIndex = [.e, .ee, .s, .es] := by rw [hindex]; rfl
  have hturn : ¬ hs.done = true ∧ weWrite hs.initiator hs.messageIndex = true := by
    rw [hdone, hrole, hindex]
    exact ⟨Bool.false_ne_true, rfl⟩
  have hsize : messageSize hs.cs.hasKey 0 [.e, .ee, .s, .es] ≤ maxNoiseMessage := by
    rw [hkey]
    decide
  -- What the tokens leave for the payload: everything but the last encryption.
  have htokensEnd : Attempt.Ends (tryWriteTokens crypto random [.e, .ee, .s, .es]) hs
      fun r hs' notes ↦ (r = false ∧ Answers crypto hs false hs' notes) ∨
        ∃ e secret ck key h' first secret' ck' key', r = true ∧ e.length = dhLen ∧
          DerivedFrom crypto hs.ck secret ck key ∧
          SealsStatic crypto (CipherState.initKey key) (hashWith crypto hs.h e) hs.sPub h' first ∧
          DerivedFrom crypto ck secret' ck' key' ∧
          notes = .hashed (hs.h ++ e) :: .derived hs.ck secret :: (first ++ [.derived ck secret']) ∧
          hs'.h = h' ∧ hs'.ck = ck' ∧ hs'.cs = CipherState.initKey key' ∧ hs'.messageIndex = 1 := by
    refine ends_writeTokens_cons (ends_writeToken_e hsized random hfresh) ?_ ?_
    · rintro hs' notes (⟨-, -, rfl⟩ | ⟨_, _, -, hr, -⟩)
      · exact .inl ⟨rfl, .nothing (List.forall_mem_nil _)⟩
      · cases hr
    · rintro hs' notes (⟨hr, -⟩ | ⟨ePriv, e, he, -, rfl, rfl⟩)
      · cases hr
      · refine ends_writeTokens_cons
          (ends_writeToken_dh ⟨nofun, nofun⟩ (ends_mixDh hsized ⟨nofun, nofun⟩)) ?_ ?_
        · rintro hs' notes (⟨-, -, hnotes⟩ | ⟨_, _, _, hr, -⟩)
          · refine .inl ⟨rfl, .nothing ?_⟩
            rcases hnotes with rfl | ⟨ikm, rfl⟩ <;> simp [Use.Silent]
          · cases hr
        · rintro hs' notes (⟨hr, -⟩ | ⟨secret, ck, key, -, rfl, rfl, hout, hsecret⟩)
          · cases hr
          · refine Attempt.Ends.mono
              (ends_writeStatic hsized ⟨nofun, nofun⟩ rfl rfl (by exact hstatic)) ?_
            rintro r hs'' notes' ⟨h', first, rest, hstatic', rfl, hrest⟩
            have hfirst : SealsStatic crypto (CipherState.initKey key) (hashWith crypto hs.h e)
                hs.sPub h' first := hstatic'
            rcases hrest with ⟨rfl, hsilent⟩ |
              ⟨secret', ck', key', rfl, hderived, rfl, hh, hck, hcs, hsame⟩
            · have hon : SealsOn crypto (CipherState.initKey key) ck
                (hashWith crypto hs.h e) hs.sPub
                  false hs'' (first ++ rest) := .static hfirst hsilent
              exact .inl ⟨rfl, .keyed he ⟨hout, hsecret⟩ hon nofun⟩
            · exact .inr ⟨e, secret, ck, key, h', first, secret', ck', key', rfl, he,
                ⟨hout, hsecret⟩, hfirst, hderived, rfl, hh, hck, hcs, hsame.trans hindex⟩
  refine ends_writeMessage htokens hturn hsize htokensEnd ?_ ?_
  · rintro hs' notes (⟨-, h⟩ | ⟨_, _, _, _, _, _, _, _, _, hr, -⟩)
    · exact h
    · cases hr
  · rintro hs' notes (⟨hr, -⟩ | ⟨e, secret, ck, key, h', first, secret', ck', key', -, he, hderived,
      hfirst, hderived', rfl, rfl, rfl, hcs, hone⟩)
    · cases hr
    · refine (ends_payload hcs).mono ?_
      rintro r hs'' notes' ⟨rfl, ⟨out, rfl⟩, hck, hcs', hsame⟩
      have hlast : SealsPayload crypto ck hs'.h hs'.ck key' (.derived ck secret' ::
          [.sealed key' (buildNonce 0) hs'.h [], .hashed (hs'.h ++ out)]) :=
        ⟨secret', out, hderived', rfl⟩
      have hon : SealsOn crypto _ _ _ _ true hs''.advance _ :=
        .all hfirst hlast (by simpa using hck) (by simpa using hcs')
      have hwhole := Answers.keyed he hderived hon fun _ ↦ by simp [hsame, hone]
      simpa using hwhole

/-- The reader of an answer, once both its derivations are made and both its ciphertexts opened. -/
def Certifies (crypto : Crypto) (hs hs' : NoiseHandshake) (notes : List Use) : Prop :=
  ∃ secret ck key secret', DerivedFrom crypto hs.ck secret ck key ∧ .derived hs.ck secret ∈ notes ∧
    DerivedFrom crypto ck secret' hs'.ck hs'.cs.key ∧ .derived ck secret' ∈ notes ∧
    hs'.cs = { CipherState.initKey hs'.cs.key with nonce := 1 } ∧ hs'.messageIndex = 2

/-- What reading an answer comes to: it mixes in an ephemeral key, and then it is refused before it
opens anything, or it opens the static key under the hash it had by then. -/
inductive ReadsAnswer (crypto : Crypto) (hs : NoiseHandshake) :
    Bool → NoiseHandshake → List Use → Prop
  | refused {hs' : NoiseHandshake} {e : Bytes} {notes : List Use} (he : e.length = dhLen)
    (hhash : hs'.h = hashWith crypto hs.h e) (hsilent : ∀ use ∈ notes, use.Silent) :
    ReadsAnswer crypto hs false hs' (.hashed (hs.h ++ e) :: notes)
  | opened {r : Bool} {hs' : NoiseHandshake} {e key nonce cipher : Bytes} {before after : List Use}
    (he : e.length = dhLen) (hsilent : ∀ use ∈ before, use.Silent)
    (hcertifies : r = true → Certifies crypto hs hs' (before ++ after)) :
    ReadsAnswer crypto hs r hs' (.hashed (hs.h ++ e) :: (before ++
      .opened key nonce (hashWith crypto hs.h e) cipher :: after))

theorem ends_readAnswer (hsized : crypto.Sized) {message : Bytes} (hlength : message.length = 96)
    (hindex : hs.messageIndex = 1) (hdone : hs.done = false) (hrole : hs.initiator = true) :
    Attempt.Ends (tryReadMessage crypto message) hs (ReadsAnswer crypto hs) := by
  have htokens : xxMessage hs.messageIndex = [.e, .ee, .s, .es] := by rw [hindex]; rfl
  have hturn : ¬ hs.done = true ∧ ¬ weWrite hs.initiator hs.messageIndex = true ∧
      message.length ≤ maxNoiseMessage := by
    rw [hdone, hrole, hindex, hlength]
    decide
  have hlong : dhLen ≤ message.length := by rw [hlength, dhLen]; omega
  have hopens {r : Bool} {hs' : NoiseHandshake} {e key nonce cipher : Bytes} {use : Use}
      {after : List Use} (he : e.length = dhLen) (hsilent : use.Silent)
      (hcertifies : r = true → Certifies crypto hs hs' (use :: after)) :
      ReadsAnswer crypto hs r hs' (.hashed (hs.h ++ e) :: use ::
        .opened key nonce (hashWith crypto hs.h e) cipher :: after) :=
    @ReadsAnswer.opened crypto hs r hs' e key nonce cipher [use] after he (by simpa using hsilent)
      hcertifies
  -- What the tokens leave for the payload: all but the last decryption.
  have htokensEnd : Attempt.Ends (tryReadTokens crypto message [.e, .ee, .s, .es]) hs
      fun r hs' notes ↦ (r = false ∧ ReadsAnswer crypto hs false hs' notes) ∨
        ∃ e secret ck key cipher secret' key', r = true ∧ e.length = dhLen ∧
          DerivedFrom crypto hs.ck secret ck key ∧ DerivedFrom crypto ck secret' hs'.ck key' ∧
          notes = [.hashed (hs.h ++ e), .derived hs.ck secret,
            .opened key (buildNonce 0) (hashWith crypto hs.h e) cipher,
            .hashed (hashWith crypto hs.h e ++ cipher), .derived ck secret'] ∧
          hs'.cs = CipherState.initKey key' ∧ hs'.messageIndex = 1 := by
    refine ends_readTokens_cons (ends_readToken_e hlong) (fun _ _ h ↦ absurd h.1 (by simp)) ?_
    rintro rest hs₁ notes ⟨-, he, rfl, rfl⟩
    refine ends_readTokens_cons
      (ends_readToken_dh ⟨by simp, by simp⟩ (ends_mixDh hsized ⟨by simp, by simp⟩)) ?_ ?_
    · rintro hs₂ notes (⟨-, rfl, hnotes⟩ | ⟨_, _, _, hr, -⟩)
      · refine .inl ⟨rfl, .refused he rfl ?_⟩
        rcases hnotes with rfl | ⟨ikm, rfl⟩ <;> simp [Use.Silent]
      · cases hr
    · rintro rest hs₂ notes (⟨hr, -⟩ | ⟨secret, ck, key, -, rfl, rfl, hout, hsecret⟩)
      · cases hr
      · refine ends_readTokens_cons (ends_readToken_s (by exact rfl)) ?_ ?_
        · rintro hs₃ notes (⟨-, rfl, rfl⟩ | ⟨cipher, -, rfl, -⟩)
          · exact .inl ⟨rfl, .refused he rfl (by simp [Use.Silent])⟩
          · exact .inl ⟨rfl, hopens he trivial (by simp)⟩
        · rintro rest hs₃ notes (⟨hr, -⟩ | ⟨cipher, -, rfl, hh, hck, hcs, hsame⟩)
          · cases hr
          · refine Attempt.Ends.mono (ends_readTokens_last
              (ends_readToken_dh ⟨by simp, by simp⟩ (ends_mixDh hsized ⟨by simp, by simp⟩))) ?_
            rintro r hs₄ notes (⟨rfl, rfl, -⟩ | ⟨secret', ck', key', rfl, rfl, rfl,
              hout', hsecret'⟩)
            · exact .inl ⟨rfl, hopens he trivial (by simp)⟩
            · rw [hck] at hout'
              exact .inr ⟨_, secret, ck, key, cipher, secret', key', rfl, he, ⟨hout, hsecret⟩,
                ⟨hout', hsecret'⟩, by rw [hck]; rfl, rfl, hsame.trans hindex⟩
  refine ends_readMessage htokens hturn htokensEnd ?_ ?_
  · rintro hs' notes (⟨-, h⟩ | ⟨_, _, _, _, _, _, _, hr, -⟩)
    · exact h
    · cases hr
  · rintro rest hs' notes (⟨hr, -⟩ | ⟨e, secret, ck, key, cipher, secret', key', -, he, hderived,
      hderived', rfl, hcs, hone⟩)
    · cases hr
    · have hkey : hs'.cs.hasKey = true := by rw [hcs]; rfl
      refine (ends_decryptAndHash hkey rest).mono ?_
      rintro r hs'' notes' (⟨rfl, -⟩ | ⟨rfl, rfl, rfl⟩)
      · exact hopens he trivial (by simp)
      · refine hopens he trivial fun _ ↦ ⟨secret, ck, key, secret', hderived, ?_, ?_, ?_, ?_, ?_⟩
        · exact List.mem_cons_self
        · simpa [mixHash, hcs, CipherState.initKey] using hderived'
        · simp
        · simp [mixHash, hcs, CipherState.initKey]
        · simp [mixHash, hone]

/-! ## The closing message -/

/-- A closing message whose static key does not open is refused with nothing changed. -/
theorem ends_readClosing (hsized : crypto.Sized) {message : Bytes} (hlength : message.length = 64)
    (hindex : hs.messageIndex = 2) (hdone : hs.done = false) (hrole : hs.initiator = false)
    (hkey : hs.cs.hasKey = true) :
    Attempt.Ends (tryReadMessage crypto message) hs fun r hs' notes ↦
      (r = false ∧ hs' = hs ∧ notes = []) ∨
      ∃ cipher after,
        notes = .opened hs.cs.key (buildNonce hs.cs.nonce) hs.h cipher :: after := by
  have htokens : xxMessage hs.messageIndex = [.s, .se] := by rw [hindex]; rfl
  have hturn : ¬ hs.done = true ∧ ¬ weWrite hs.initiator hs.messageIndex = true ∧
      message.length ≤ maxNoiseMessage := by
    rw [hdone, hrole, hindex, hlength]
    decide
  refine ends_readMessage (P := fun r hs' notes ↦ (r = false ∧ hs' = hs ∧ notes = []) ∨
    ∃ cipher after, notes = .opened hs.cs.key (buildNonce hs.cs.nonce) hs.h cipher :: after)
    htokens hturn ?_ (fun _ _ ↦ id) ?_
  · refine ends_readTokens_cons (ends_readToken_s hkey) ?_ ?_
    · rintro hs' notes (h | ⟨cipher, -, rfl, -⟩)
      · exact .inl h
      · exact .inr ⟨cipher, _, rfl⟩
    · rintro rest hs' notes (⟨hr, -⟩ | ⟨cipher, -, rfl, -⟩)
      · cases hr
      · refine Attempt.Ends.mono (ends_readTokens_last
          (ends_readToken_dh ⟨nofun, nofun⟩ (ends_mixDh hsized ⟨nofun, nofun⟩))) ?_
        exact fun _ _ notes' _ ↦ .inr ⟨cipher, _, rfl⟩
  · rintro rest hs' notes (⟨hr, -⟩ | ⟨cipher, after, rfl⟩)
    · cases hr
    · exact .inr ⟨cipher, _, rfl⟩

/-! ## What no message changes -/

/-- The same party at the same point of the handshake. -/
structure SameParty (hs hs' : NoiseHandshake) : Prop where
  initiator : hs'.initiator = hs.initiator
  sPub : hs'.sPub = hs.sPub
  messageIndex : hs'.messageIndex = hs.messageIndex
  done : hs'.done = hs.done

theorem SameParty.refl (hs : NoiseHandshake) : SameParty hs hs := ⟨rfl, rfl, rfl, rfl⟩

theorem SameParty.trans {hs₁ hs₂ : NoiseHandshake} (h : SameParty hs hs₁) (h' : SameParty hs₁ hs₂) :
    SameParty hs hs₂ :=
  ⟨h'.initiator.trans h.initiator, h'.sPub.trans h.sPub, h'.messageIndex.trans h.messageIndex,
    h'.done.trans h.done⟩

theorem SameParty.composes : Attempt.Composes fun hs (_ : List Use) hs' ↦ SameParty hs hs' :=
  ⟨SameParty.refl, SameParty.trans⟩

theorem sameParty_mixDh (token : Token) :
    Attempt.Within (fun hs _ hs' ↦ SameParty hs hs') (tryMixDh crypto token) := by
  intro hs
  rw [tryMixDh]
  cases secretOf crypto hs token with
  | none => exact .refl hs
  | some secret =>
    dsimp only
    rw [tryMixKey, mixKey]
    split
    · exact .refl hs
    · rename_i hmix
      split at hmix
      · cases hmix
        exact ⟨rfl, rfl, rfl, rfl⟩
      · cases hmix

theorem sameParty_encryptAndHash (plain : Bytes) :
    Attempt.Within (fun hs _ hs' ↦ SameParty hs hs') (tryEncryptAndHash crypto plain) := by
  intro hs
  rw [tryEncryptAndHash]
  cases hs.cs.encrypt crypto hs.h plain <;> exact ⟨rfl, rfl, rfl, rfl⟩

theorem sameParty_decryptAndHash (cipher : Bytes) :
    Attempt.Within (fun hs _ hs' ↦ SameParty hs hs') (tryDecryptAndHash crypto cipher) := by
  intro hs
  rw [tryDecryptAndHash]
  split
  · exact .refl hs
  · cases hs.cs.decrypt crypto hs.h cipher <;> exact ⟨rfl, rfl, rfl, rfl⟩

/-- A relation every token keeps within is kept within by a list of them. -/
theorem within_writeTokens {R : NoiseHandshake → List Use → NoiseHandshake → Prop}
    (hR : Attempt.Composes R) {random : Option Bytes}
    (htoken : ∀ token, Attempt.Within R (tryWriteToken crypto random token)) (tokens : List Token) :
    Attempt.Within R (tryWriteTokens crypto random tokens) := by
  induction tokens with
  | nil => exact .pure hR []
  | cons token tokens ih =>
    exact .bind hR (htoken token) fun _ ↦ .bind hR ih fun _ ↦ .pure hR _

theorem within_readTokens {R : NoiseHandshake → List Use → NoiseHandshake → Prop}
    (hR : Attempt.Composes R)
    (htoken : ∀ message token, Attempt.Within R (tryReadToken crypto message token))
    (tokens : List Token) (message : Bytes) :
    Attempt.Within R (tryReadTokens crypto message tokens) := by
  induction tokens generalizing message with
  | nil => exact .pure hR message
  | cons token tokens ih => exact .bind hR (htoken message token) ih

theorem within_readToken {R : NoiseHandshake → List Use → NoiseHandshake → Prop}
    (hR : Attempt.Composes R) (hre : ∀ hs re, R hs [] { hs with re, haveRe := true })
    (hrs : ∀ hs remoteStatic, R hs [] { hs with remoteStatic, haveRs := true })
    (hhash : ∀ data, Attempt.Within R (tryMixHash crypto data))
    (hdecrypt : ∀ cipher, Attempt.Within R (tryDecryptAndHash crypto cipher))
    (hdh : ∀ token, Attempt.Within R (tryMixDh crypto token)) (message : Bytes) (token : Token) :
    Attempt.Within R (tryReadToken crypto message token) := by
  cases token with
  | e =>
    exact .bind hR (.require hR _) fun _ ↦ .bind hR (.change fun hs ↦ hre hs _) fun _ ↦
      .bind hR (hhash _) fun _ ↦ .pure hR _
  | s =>
    exact .bind hR (.read hR) fun _ ↦ .bind hR (.require hR _) fun _ ↦ .bind hR (hdecrypt _) fun _ ↦
      .bind hR (.require hR _) fun _ ↦ .bind hR (.change fun hs ↦ hrs hs _) fun _ ↦ .pure hR _
  | ee => exact .bind hR (hdh .ee) fun _ ↦ .pure hR _
  | es => exact .bind hR (hdh .es) fun _ ↦ .pure hR _
  | se => exact .bind hR (hdh .se) fun _ ↦ .pure hR _

theorem sameParty_mixHash (data : Bytes) :
    Attempt.Within (fun hs _ hs' ↦ SameParty hs hs') (tryMixHash crypto data) :=
  fun _ ↦ ⟨rfl, rfl, rfl, rfl⟩

theorem sameParty_writeToken (random : Option Bytes) (token : Token) :
    Attempt.Within (fun hs _ hs' ↦ SameParty hs hs') (tryWriteToken crypto random token) := by
  have hR := SameParty.composes
  cases token with
  | e =>
    have hensure : Attempt.Within (fun hs _ hs' ↦ SameParty hs hs')
        (tryEnsureEphemeral crypto random) := by
      intro hs
      rw [tryEnsureEphemeral, ensureEphemeral]
      by_cases hhave : hs.haveE = true
      · simp [hhave, SameParty.refl]
      · cases random with
        | none => simp [hhave, SameParty.refl]
        | some ePriv => simp [hhave]; exact ⟨rfl, rfl, rfl, rfl⟩
    exact .bind hR hensure fun _ ↦ .bind hR (.read hR) fun _ ↦
      .bind hR (sameParty_mixHash _) fun _ ↦
      .pure hR _
  | s => exact .bind hR (.read hR) fun _ ↦ sameParty_encryptAndHash _
  | ee => exact .bind hR (sameParty_mixDh .ee) fun _ ↦ .pure hR _
  | es => exact .bind hR (sameParty_mixDh .es) fun _ ↦ .pure hR _
  | se => exact .bind hR (sameParty_mixDh .se) fun _ ↦ .pure hR _

/-- A message that fails leaves the party where it was, and one that goes through moves it on. -/
def Party (hs : NoiseHandshake) (r : Bool) (hs' : NoiseHandshake) : Prop :=
  if r then ∃ hs₁, SameParty hs hs₁ ∧ hs' = hs₁.advance else SameParty hs hs'

section Party

variable {hs' : NoiseHandshake} {r : Bool} (h : Party hs r hs')
include h

theorem Party.initiator : hs'.initiator = hs.initiator := by
  cases r with
  | false => exact SameParty.initiator h
  | true =>
    obtain ⟨hs₁, hsame, rfl⟩ := h
    rw [← hsame.initiator, advance]
    split <;> rfl

theorem Party.sPub : hs'.sPub = hs.sPub := by
  cases r with
  | false => exact SameParty.sPub h
  | true =>
    obtain ⟨hs₁, hsame, rfl⟩ := h
    rw [← hsame.sPub, advance]
    split <;> rfl

theorem Party.messageIndex : hs'.messageIndex =
    if r then hs.messageIndex + 1 else hs.messageIndex := by
  cases r with
  | false => exact SameParty.messageIndex h
  | true =>
    obtain ⟨hs₁, hsame, rfl⟩ := h
    rw [messageIndex_advance, hsame.messageIndex]
    rfl

/-- Only the third message completes the handshake. -/
theorem Party.done (hindex : hs.messageIndex ≠ 2) : hs'.done = hs.done := by
  cases r with
  | false => exact SameParty.done h
  | true =>
    obtain ⟨hs₁, hsame, rfl⟩ := h
    rw [← hsame.done, advance, if_neg (by rw [hsame.messageIndex]; exact hindex)]

end Party

theorem ends_party {m : Attempt Use NoiseHandshake Bytes}
    {n : Bytes → Attempt Use NoiseHandshake Bytes} {g : Bytes → Bytes → Bytes}
    (hm : Attempt.Within (fun hs _ hs' ↦ SameParty hs hs') m)
    (hn : ∀ a, Attempt.Within (fun hs _ hs' ↦ SameParty hs hs') (n a)) :
    Attempt.Ends (do let a ← m; let b ← n a; Attempt.change advance; pure (g a b)) hs
      fun r hs' _ ↦ Party hs r hs' := by
  refine .bind (hm.ends hs) (fun _ _ h ↦ h) fun a hs₁ notes h ↦ ?_
  have hnext : Attempt.Ends (n a) hs₁ fun _ hs₂ _ ↦ SameParty hs hs₂ :=
    ((hn a).ends hs₁).mono fun _ _ _ ↦ h.trans
  exact .bind hnext (fun _ _ h ↦ h) fun b hs₂ _ h ↦ .change (.pure ⟨hs₂, h, rfl⟩)

theorem party_writeMessage (random : Option Bytes) (payload : Bytes) :
    Attempt.Ends (tryWriteMessage crypto random payload) hs fun r hs' _ ↦ Party hs r hs' :=
  .read (.require (fun _ ↦ .refl hs) fun _ ↦ .require (fun _ ↦ .refl hs) fun _ ↦
    ends_party (within_writeTokens SameParty.composes (sameParty_writeToken random) _)
      fun _ ↦ sameParty_encryptAndHash payload)

theorem party_readMessage (message : Bytes) :
    Attempt.Ends (tryReadMessage crypto message) hs fun r hs' _ ↦ Party hs r hs' := by
  have htokens := within_readTokens SameParty.composes
    (@within_readToken crypto _ SameParty.composes (fun _ _ ↦ ⟨rfl, rfl, rfl, rfl⟩)
      (fun _ _ ↦ ⟨rfl, rfl, rfl, rfl⟩) sameParty_mixHash sameParty_decryptAndHash sameParty_mixDh)
  exact .read (.require (fun _ ↦ .refl hs) fun _ ↦
    ends_party (htokens _ message) sameParty_decryptAndHash)

end NoiseHandshake

/-! ## Calls on a channel -/

namespace PeerChannel

variable {crypto : Crypto} {ch : PeerChannel} {α : Type}

theorem ends_onHandshake {m : Attempt Use NoiseHandshake α} {hs : NoiseHandshake}
    {P : Bool → NoiseHandshake → List Use → Prop} (hhs : ch.handshake = some hs)
    (h : Attempt.Ends m hs P) :
    Attempt.Ends (onHandshake m) ch fun r ch' notes ↦
      ∃ hs', ch' = { ch with handshake := some hs' } ∧ P r hs' notes := by
  rw [Attempt.Ends, onHandshake, hhs]
  exact ⟨_, rfl, h⟩

/-- A call that was refused before it did anything. -/
def Unmoved (ch : PeerChannel) (r : Bool) (ch' : PeerChannel) (notes : List Use) : Prop :=
  r = false ∧ ch' = ch ∧ notes = []

theorem ends_openHandshake_refused (random : Option Bytes)
    (h : ¬ (ch.initiator = true ∧ ch.messageIndex = 0)) :
    Attempt.Ends (tryOpenHandshake crypto random) ch (Unmoved ch) :=
  .read (.require (fun _ ↦ ⟨rfl, rfl, rfl⟩) fun hturn ↦ absurd hturn h)

/-- The opening message, when it is ours to write. -/
theorem ends_openHandshake {hs : NoiseHandshake} {random : Option Bytes}
    {P : Bool → NoiseHandshake → List Use → Prop} (hhs : ch.handshake = some hs)
    (hturn : ch.initiator = true ∧ ch.messageIndex = 0)
    (h : Attempt.Ends (NoiseHandshake.tryWriteMessage crypto random []) hs P) :
    Attempt.Ends (tryOpenHandshake crypto random) ch fun r ch' notes ↦ ∃ hs', P r hs' notes ∧
      ch' = { ch with handshake := some hs', messageIndex := if r then 1 else 0 } := by
  refine .read (.require (fun hnot ↦ absurd hturn hnot) fun _ ↦
    .bind (ends_onHandshake hhs h) ?_ ?_)
  · rintro ch' notes ⟨hs', rfl, hP⟩
    refine ⟨hs', hP, ?_⟩
    rw [← hturn.2]
    rfl
  · rintro message ch' notes ⟨hs', rfl, hP⟩
    refine .change (.pure ⟨hs', by simpa using hP, ?_⟩)
    rw [hturn.2]
    rfl

/-- A handshake message is refused out of turn, at the wrong size, and once the channel is
established or its three messages are over. -/
theorem ends_readHandshake_refused (random : Option Bytes) (message : Bytes)
    (h : ¬ (ch.established = false ∧ ch.messageIndex < handshakeMessageCount ∧
      NoiseHandshake.weWrite ch.initiator ch.messageIndex = false ∧
      message.length = handshakeMessageSize ch.messageIndex)) :
    Attempt.Ends (tryReadHandshake crypto random message) ch (Unmoved ch) := by
  refine .read (.require (fun _ ↦ ⟨rfl, rfl, rfl⟩) fun hopen ↦ .require (fun _ ↦ ⟨rfl, rfl, rfl⟩)
    fun hturn ↦ .require (fun _ ↦ ⟨rfl, rfl, rfl⟩) fun hlength ↦ absurd ?_ h)
  exact ⟨by simpa using hopen.1, hopen.2, by simpa using hturn, hlength⟩

/-- Reading a handshake message: the message, our answer and the end of the step, one after the
other, and what failed leaves its handshake in the channel. -/
theorem ends_readHandshake {hs : NoiseHandshake} {random : Option Bytes} {message : Bytes}
    {P : Bool → NoiseHandshake → List Use → Prop} {Q : Bool → PeerChannel → List Use → Prop}
    (hhs : ch.handshake = some hs)
    (hopen : ch.established = false ∧ ch.messageIndex < handshakeMessageCount)
    (hturn : NoiseHandshake.weWrite ch.initiator ch.messageIndex = false)
    (hlength : message.length = handshakeMessageSize ch.messageIndex)
    (h : Attempt.Ends (NoiseHandshake.tryReadMessage crypto message) hs P)
    (hfail : ∀ hs' notes, P false hs' notes → Q false { ch with handshake := some hs' } notes)
    (hgo : ∀ hs' notes, P true hs' notes →
      Attempt.Ends (do let reply ← tryReply crypto random; let done ← tryFinish crypto
                       pure (done, reply) : Attempt Use PeerChannel (Bool × Bytes))
        { ch with handshake := some hs', messageIndex := ch.messageIndex + 1 }
        fun r ch' notes' ↦ Q r ch' (notes ++ notes')) :
    Attempt.Ends (tryReadHandshake crypto random message) ch Q := by
  refine .read (.require (fun hnot ↦ absurd ?_ hnot) fun _ ↦ .require (fun hnot ↦ absurd ?_ hnot)
    fun _ ↦ .require (fun hnot ↦ absurd hlength hnot) fun _ ↦
      .bind (ends_onHandshake hhs h) ?_ ?_)
  · exact ⟨by simp [hopen.1], hopen.2⟩
  · simp [hturn]
  · rintro ch' notes ⟨hs', rfl, hP⟩
    exact hfail hs' notes hP
  · rintro payload ch' notes ⟨hs', rfl, hP⟩
    exact .change (hgo hs' notes hP)

/-- A handshake that goes on leaves the channel as it is. -/
theorem tryFinish_open {hs : NoiseHandshake} (hhs : ch.handshake = some hs)
    (hopen : hs.done = false) :
    tryFinish crypto ch = ⟨some false, ch, []⟩ := by
  have hread : onHandshake Attempt.read ch = ⟨some hs, ch, []⟩ := by
    rw [onHandshake, hhs]
    dsimp only [Attempt.read]
    rw [← hhs]
  have hnot : ¬ hs.done = true := by simp [hopen]
  rw [tryFinish, Attempt.bind_of_some (by rw [hread]), hread, if_pos hnot]
  rfl

/-- An answer that does not end the handshake. -/
theorem ends_answer {hs : NoiseHandshake} {random : Option Bytes}
    {P : Bool → NoiseHandshake → List Use → Prop} (hhs : ch.handshake = some hs)
    (hmore : ch.messageIndex < handshakeMessageCount)
    (h : Attempt.Ends (NoiseHandshake.tryWriteMessage crypto random []) hs P)
    (hopen : ∀ hs' notes, P true hs' notes → hs'.done = false) :
    Attempt.Ends (do let reply ← tryReply crypto random; let done ← tryFinish crypto
                     pure (done, reply) : Attempt Use PeerChannel (Bool × Bytes)) ch
      fun r ch' notes ↦ ∃ hs', P r hs' notes ∧ ch' = { ch with
        handshake := some hs', messageIndex := if r then ch.messageIndex + 1 else ch.messageIndex }
      := by
  have hreply : Attempt.Ends (tryReply crypto random) ch fun r ch' notes ↦ ∃ hs', P r hs' notes ∧
      ch' = { ch with
        handshake := some hs', messageIndex :=
          if r then ch.messageIndex + 1 else ch.messageIndex } := by
    refine .read ?_
    rw [if_pos hmore]
    refine .bind (ends_onHandshake hhs h) ?_ ?_
    · rintro ch' notes ⟨hs', rfl, hP⟩
      exact ⟨hs', hP, rfl⟩
    · rintro reply ch' notes ⟨hs', rfl, hP⟩
      exact .change (.pure ⟨hs', by simpa using hP, rfl⟩)
  refine .bind hreply (fun _ _ h ↦ h) ?_
  rintro reply ch' notes ⟨hs', hP, rfl⟩
  have hfinish : tryFinish crypto { ch with
      handshake := some hs'
      messageIndex := if true then ch.messageIndex + 1 else ch.messageIndex } = _ :=
    tryFinish_open rfl (hopen hs' notes hP)
  exact .bind_done hfinish (.pure ⟨hs', by simpa using hP, rfl⟩)

/-- A channel that is not established has no transport. -/
theorem ends_transport (hnot : ch.established = false) {c : Call} (hc : c.Transports) :
    Attempt.Ends (call crypto c) ch (Unmoved ch) := by
  cases c with
  | openHandshake _ => exact hc.elim
  | readHandshake _ _ => exact hc.elim
  | sealBytes plain ad =>
    refine .bind (P := Unmoved ch) ?_ (fun _ _ h ↦ h) fun _ _ _ h ↦ absurd h.1 nofun
    simp [Attempt.Ends, trySeal, sealBytes, hnot, Unmoved]
  | unsealBytes cipher ad =>
    refine .bind (P := Unmoved ch) ?_ (fun _ _ h ↦ h) fun _ _ _ h ↦ absurd h.1 nofun
    simp [Attempt.Ends, tryUnseal, unsealBytes, hnot, Unmoved]
  | sealDatagram senderId destId plain =>
    refine .bind (P := Unmoved ch) ?_ (fun _ _ h ↦ h) fun _ _ _ h ↦ absurd h.1 nofun
    simp [Attempt.Ends, trySealDatagram, sealDatagram, hnot, Unmoved]
  | openDatagram senderId destId seq cipher =>
    refine .bind (P := Unmoved ch) ?_ (fun _ _ h ↦ h) fun _ _ _ h ↦ absurd h.1 nofun
    simp [Attempt.Ends, tryOpenDatagram, openDatagram, hnot, Unmoved]

end PeerChannel

/-! ## The two ends of a connection -/

/-- An initiating channel (`true`) and a responding one, and what each has used its primitives
for, in order. -/
structure Channels where
  channel : Bool → PeerChannel
  log : List (Bool × Use)

namespace Channels

variable (crypto : Crypto)

/-- Two channels, each with its static key pair and its prologue, which is the first thing
hashed. -/
def start (keys : Bool → Bytes × Bytes) (prologue : Bool → Bytes) : Channels where
  channel side := PeerChannel.init crypto side (keys side).1 (keys side).2 (prologue side)
  log := [true, false].map fun side ↦ (side, .hashed (protocolName ++ prologue side))

/-- One call at one end.  Whatever bytes it is given are what the network brought. -/
def step (s : Channels) (i : Bool × PeerChannel.Call) : Option Channels :=
  let outcome := PeerChannel.call crypto i.2 (s.channel i.1)
  some
    { channel := Function.update s.channel i.1 outcome.state
      log := s.log ++ outcome.notes.map (i.1, ·) }

/-- What was asked of the primitives, by either end. -/
def uses (s : Channels) : List Use := s.log.map Prod.snd

end Channels
/-! ## A stand-in that keeps the transcript apart

`paddedCrypto` with a rolling digest in the place of its checksum: it forgets nothing of a
hash it goes on from, so that a run can be evaluated in which different transcripts have
different hashes. -/

/-- A digest to run the model on, which mixes every byte in. -/
def rollDigest (data : Bytes) : Bytes :=
  data.foldl (fun state b ↦ state.drop 1 ++ [3 * state.headD 0 + b]) (List.replicate hashLen 1)

/-- Any bytes as a key. -/
def padKey (key : Bytes) : Bytes := (key ++ zeros dhLen).take dhLen

/-- Functions of the right shapes, to run a handshake on. -/
def rollingCrypto : Crypto :=
  { PeerChannel.paddedCrypto with
    sha256 := rollDigest
    hkdfSha256 := fun salt ikm numOutputs ↦
      (List.range numOutputs).map fun i ↦ rollDigest (salt ++ ikm ++ [UInt8.ofNat i])
    x25519Shared := fun secret peerPublic ↦
      some (List.zipWith (· + ·) (padKey secret) (padKey peerPublic)) }

theorem length_rollDigest (data : Bytes) : (rollDigest data).length = hashLen := by
  have hroll (data state : Bytes) (h : state.length = hashLen) :
      (data.foldl (fun state b ↦ state.drop 1 ++ [3 * state.headD 0 + b]) state).length =
        hashLen := by
    induction data generalizing state with
    | nil => exact h
    | cons b data ih =>
      refine ih _ ?_
      rw [List.length_append, List.length_drop, h]
      rfl
  exact hroll data _ List.length_replicate

theorem rollingCrypto_sized : rollingCrypto.Sized where
  digest := length_rollDigest
  publicKey := PeerChannel.paddedCrypto_sound.publicKeyLen
  shared secret peerPublic out h := by
    cases h
    simp [padKey, zeros]

end EosMesh
