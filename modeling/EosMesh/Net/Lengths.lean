import EosMesh.Net.PeerChannel

/-!
# How long handshake messages are

A connection that shakes hands has few bytes to send: three messages at most, of both sides
together, and each of them as long as the keys it carries.  So a peer that is nobody yet cannot make
us keep more for it than that, whatever it sends and however slowly it reads.

* `NoiseHandshake.OwnKeys` says that our own keys have their size, and every step keeps it.
* A message is written by the tokens of its pattern, and each token writes a key, or a key with its
  tag.
* `PeerChannel.readHandshake_writes` bounds the reply to a message, and `Speaks` counts the
  messages: one that is read, and one that is answered, are two of the three.

`Net.Router.Outbox` bounds the buffers of a connection in the handshake by it.
-/

set_option autoImplicit false

namespace EosMesh

open Lib

/-- A public key is as long as its header says. -/
def PublicKeysSized (crypto : Crypto) : Prop :=
  ∀ secret, (crypto.x25519PublicKey secret).length = dhLen

namespace NoiseHandshake

variable {crypto : Crypto} {hs hs' : NoiseHandshake} {random : Option Bytes} {out : Bytes}

/-- Our own keys are as long as keys are. -/
structure OwnKeys (hs : NoiseHandshake) : Prop where
  sPub : hs.sPub.length = dhLen
  ePub : hs.ePub.length = dhLen

/-- Nothing happened to the handshake that concerns our own keys. -/
theorem OwnKeys.of_eq (h : hs.OwnKeys) (hs_ : hs'.sPub = hs.sPub) (he : hs'.ePub = hs.ePub) :
    hs'.OwnKeys := ⟨hs_ ▸ h.sPub, he ▸ h.ePub⟩

theorem encrypt_length {cs cs' : CipherState} {ad plain : Bytes}
    (h : cs.encrypt crypto ad plain = some (out, cs')) :
    out.length ≤ plain.length + aeadTagLen := by
  rw [CipherState.encrypt] at h
  split at h
  · cases h
    omega
  · split at h
    · cases h
    · cases h
      rw [List.length_append, crypto.length_cipher, crypto.length_mac]

theorem encryptAndHash_writes {plain : Bytes}
    (h : encryptAndHash crypto hs plain = some (out, hs')) :
    out.length ≤ plain.length + aeadTagLen ∧ hs'.sPub = hs.sPub ∧ hs'.ePub = hs.ePub := by
  rw [encryptAndHash, Option.bind_eq_bind, Option.bind_eq_some_iff] at h
  obtain ⟨⟨out', cs⟩, hencrypt, heq⟩ := h
  cases heq
  exact ⟨encrypt_length hencrypt, rfl, rfl⟩

theorem decryptAndHash_ownKeys {cipher : Bytes}
    (h : decryptAndHash crypto hs cipher = some (out, hs')) :
    hs'.sPub = hs.sPub ∧ hs'.ePub = hs.ePub := by
  simp only [decryptAndHash, Option.bind_eq_bind, Option.bind_eq_some_iff] at h
  obtain ⟨-, -, ⟨out', cs⟩, -, heq⟩ := h
  cases heq
  exact ⟨rfl, rfl⟩

theorem mixDh_ownKeys {token : Token} (h : mixDh crypto hs token = some hs') :
    hs'.sPub = hs.sPub ∧ hs'.ePub = hs.ePub := by
  have hmix (ikm : Bytes) (h : mixKey crypto hs ikm = some hs') :
      hs'.sPub = hs.sPub ∧ hs'.ePub = hs.ePub := by
    rw [mixKey] at h
    split at h
    · cases h
      exact ⟨rfl, rfl⟩
    · cases h
  cases token with
  | e => cases h; exact ⟨rfl, rfl⟩
  | s => cases h; exact ⟨rfl, rfl⟩
  | ee =>
    obtain ⟨ikm, -, h⟩ := Option.bind_eq_some_iff.1 h
    exact hmix ikm h
  | es =>
    obtain ⟨ikm, -, h⟩ := Option.bind_eq_some_iff.1 h
    exact hmix ikm h
  | se =>
    obtain ⟨ikm, -, h⟩ := Option.bind_eq_some_iff.1 h
    exact hmix ikm h

/-- The most a token puts on the wire. -/
def tokenSize : Token → Nat
  | .e => dhLen
  | .s => dhLen + aeadTagLen
  | _ => 0

theorem writeToken_writes (hpublic : PublicKeysSized crypto) {token : Token} (hkeys : hs.OwnKeys)
    (h : writeToken crypto random hs token = some (out, hs')) :
    out.length ≤ tokenSize token ∧ hs'.OwnKeys := by
  have hdh (h : (do pure ([], ← mixDh crypto hs token) : Option (Bytes × NoiseHandshake)) =
      some (out, hs')) : out.length ≤ 0 ∧ hs'.OwnKeys := by
    simp only [Option.bind_eq_bind, Option.bind_eq_some_iff] at h
    obtain ⟨hs₁, hmix, heq⟩ := h
    cases heq
    obtain ⟨hs_, he⟩ := mixDh_ownKeys hmix
    exact ⟨le_rfl, hkeys.of_eq hs_ he⟩
  cases token with
  | e =>
    simp only [writeToken, Option.bind_eq_bind, Option.bind_eq_some_iff] at h
    obtain ⟨hs₁, hensure, heq⟩ := h
    cases heq
    rw [ensureEphemeral] at hensure
    split at hensure
    · cases hensure
      exact ⟨hkeys.ePub.le, hkeys.of_eq rfl rfl⟩
    · obtain ⟨ePriv, -, rfl⟩ := Option.map_eq_some_iff.1 hensure
      exact ⟨(hpublic ePriv).le, hkeys.sPub, hpublic ePriv⟩
  | s =>
    obtain ⟨hlength, hs_, he⟩ := encryptAndHash_writes h
    rw [hkeys.sPub] at hlength
    exact ⟨hlength, hkeys.of_eq hs_ he⟩
  | ee => exact hdh h
  | es => exact hdh h
  | se => exact hdh h

theorem writeTokens_writes (hpublic : PublicKeysSized crypto) {tokens : List Token}
    (hkeys : hs.OwnKeys)
    (h : writeTokens crypto random hs tokens = some (out, hs')) :
    out.length ≤ (tokens.map tokenSize).sum ∧ hs'.OwnKeys := by
  induction tokens generalizing hs out with
  | nil =>
    cases h
    exact ⟨le_rfl, hkeys⟩
  | cons token tokens ih =>
    simp only [writeTokens, Option.bind_eq_bind, Option.bind_eq_some_iff] at h
    obtain ⟨⟨first, hs₁⟩, hfirst, ⟨rest, hs₂⟩, hrest, heq⟩ := h
    cases heq
    obtain ⟨hlength₁, hkeys₁⟩ := writeToken_writes hpublic hkeys hfirst
    obtain ⟨hlength₂, hkeys₂⟩ := ih hkeys₁ hrest
    refine ⟨?_, hkeys₂⟩
    change (first ++ rest).length ≤ _
    rw [List.length_append, List.map_cons, List.sum_cons]
    omega

/-- The most a handshake message comes to. -/
def maxHandshakeMessage : Nat := 96

theorem writeMessage_writes (hpublic : PublicKeysSized crypto) (hkeys : hs.OwnKeys)
    (h : writeMessage crypto hs random [] = some (out, hs')) :
    out.length ≤ maxHandshakeMessage ∧ hs'.OwnKeys := by
  simp only [writeMessage, Option.bind_eq_bind, Option.bind_eq_some_iff] at h
  obtain ⟨-, -, -, -, ⟨written, hs₁⟩, hwritten, ⟨encPayload, hs₂⟩, hpayload, heq⟩ := h
  cases heq
  obtain ⟨hlength₁, hkeys₁⟩ := writeTokens_writes hpublic hkeys hwritten
  obtain ⟨hlength₂, hs_, he⟩ := encryptAndHash_writes hpayload
  have hpattern (n : Nat) : ((xxMessage n).map tokenSize).sum ≤ 80 := by
    rw [xxMessage.eq_def]
    split <;> decide
  refine ⟨?_, ?_⟩
  · have := hpattern hs.messageIndex
    change (written ++ encPayload).length ≤ _
    rw [List.length_append, maxHandshakeMessage]
    rw [List.length_nil, aeadTagLen] at hlength₂
    omega
  · have hkeys₂ : hs₂.OwnKeys := hkeys₁.of_eq hs_ he
    rw [advance]
    split
    · exact hkeys₂.of_eq rfl rfl
    · exact hkeys₂.of_eq rfl rfl

theorem readToken_ownKeys {token : Token} {message rest : Bytes}
    (h : readToken crypto hs message token = some (rest, hs')) :
    hs'.sPub = hs.sPub ∧ hs'.ePub = hs.ePub := by
  have hdh (h : (do pure (message, ← mixDh crypto hs token) : Option (Bytes × NoiseHandshake)) =
      some (rest, hs')) : hs'.sPub = hs.sPub ∧ hs'.ePub = hs.ePub := by
    simp only [Option.bind_eq_bind, Option.bind_eq_some_iff] at h
    obtain ⟨hs₁, hmix, heq⟩ := h
    cases heq
    exact mixDh_ownKeys hmix
  cases token with
  | e =>
    simp only [readToken, Option.bind_eq_bind, Option.bind_eq_some_iff] at h
    obtain ⟨-, -, heq⟩ := h
    cases heq
    exact ⟨rfl, rfl⟩
  | s =>
    simp only [readToken, Option.bind_eq_bind, Option.bind_eq_some_iff] at h
    obtain ⟨-, -, ⟨rs, hs₁⟩, hdecrypt, -, -, heq⟩ := h
    cases heq
    obtain ⟨hs_, he⟩ := decryptAndHash_ownKeys hdecrypt
    exact ⟨hs_, he⟩
  | ee => exact hdh h
  | es => exact hdh h
  | se => exact hdh h

theorem readTokens_ownKeys {tokens : List Token} {message rest : Bytes} (hkeys : hs.OwnKeys)
    (h : readTokens crypto hs message tokens = some (rest, hs')) : hs'.OwnKeys := by
  induction tokens generalizing hs message with
  | nil =>
    cases h
    exact hkeys
  | cons token tokens ih =>
    simp only [readTokens, Option.bind_eq_bind, Option.bind_eq_some_iff] at h
    obtain ⟨⟨message', hs₁⟩, hfirst, hrest⟩ := h
    obtain ⟨hs_, he⟩ := readToken_ownKeys hfirst
    exact ih (hkeys.of_eq hs_ he) hrest

theorem readMessage_ownKeys {message payload : Bytes} (hkeys : hs.OwnKeys)
    (h : readMessage crypto hs message = some (payload, hs')) : hs'.OwnKeys := by
  simp only [readMessage, Option.bind_eq_bind, Option.bind_eq_some_iff] at h
  obtain ⟨-, -, ⟨rest, hs₁⟩, htokens, ⟨payload', hs₂⟩, hpayload, heq⟩ := h
  cases heq
  obtain ⟨hs_, he⟩ := decryptAndHash_ownKeys hpayload
  have hkeys₂ : hs₂.OwnKeys := (readTokens_ownKeys hkeys htokens).of_eq hs_ he
  rw [advance]
  split
  · exact hkeys₂.of_eq rfl rfl
  · exact hkeys₂.of_eq rfl rfl

end NoiseHandshake

namespace PeerChannel

open NoiseHandshake (OwnKeys maxHandshakeMessage writeMessage_writes readMessage_ownKeys)

variable {crypto : Crypto} {ch ch' : PeerChannel} {hs : NoiseHandshake} {random : Option Bytes}
  {out message reply reply' : Bytes}

/-- A channel that has counted its messages, and holds our own keys while it shakes hands. -/
structure Speaks (ch : PeerChannel) : Prop where
  index : ch.messageIndex ≤ handshakeMessageCount
  keys : ∀ hs, ch.handshake = some hs → hs.OwnKeys

theorem speaks_init (initiator : Bool) {staticPriv staticPub prologue : Bytes}
    (hown : staticPub.length = dhLen) :
    (init crypto initiator staticPriv staticPub prologue).Speaks where
  index := Nat.zero_le _
  keys hs hhs := by
    cases hhs
    exact ⟨hown, List.length_replicate⟩

theorem openHandshake_writes (hpublic : PublicKeysSized crypto) (h : ch.Speaks)
    (hopen : ch.openHandshake crypto random = some (out, ch')) :
    out.length ≤ maxHandshakeMessage ∧ ch'.Speaks ∧ ch.messageIndex < ch'.messageIndex := by
  rw [openHandshake] at hopen
  split at hopen
  · cases hopen
  · rename_i hfirst
    obtain ⟨-, hindex⟩ := not_or.1 hfirst
    split at hopen
    · cases hopen
    · rename_i hs hhs
      split at hopen
      · cases hopen
      · rename_i message hs' hwrite
        cases hopen
        obtain ⟨hlength, hkeys⟩ := writeMessage_writes hpublic (h.keys hs hhs) hwrite
        refine ⟨hlength, ⟨?_, fun hs'' heq ↦ ?_⟩, Nat.lt_succ_self _⟩
        · change ch.messageIndex + 1 ≤ handshakeMessageCount
          rw [not_not.1 hindex]
          decide
        · cases heq
          exact hkeys

theorem finish_writes (hindex : ch.messageIndex ≤ handshakeMessageCount) (hkeys : hs.OwnKeys)
    (h : ch.finish crypto hs reply = .stepContinue reply' ch' ∨
      ch.finish crypto hs reply = .stepDone reply' ch') :
    reply' = reply ∧ ch'.Speaks ∧ ch'.messageIndex = ch.messageIndex := by
  rw [finish] at h
  split at h
  · obtain h | h := h
    · cases h
      exact ⟨rfl, ⟨hindex, fun hs' heq ↦ by cases heq; exact hkeys⟩, rfl⟩
    · cases h
  · split at h
    · obtain h | h := h <;> cases h
    · split at h
      · obtain h | h := h <;> cases h
      · obtain h | h := h
        · cases h
        · cases h
          exact ⟨rfl, ⟨hindex, by simp⟩, rfl⟩

/-- **A reply is as long as a message is**, and the message counts. -/
theorem readHandshake_writes (hpublic : PublicKeysSized crypto) (h : ch.Speaks)
    (hread : ch.readHandshake crypto random message = .stepContinue reply ch' ∨
      ch.readHandshake crypto random message = .stepDone reply ch') :
    reply.length ≤ maxHandshakeMessage ∧ ch'.Speaks ∧ ch.messageIndex < ch'.messageIndex := by
  rw [readHandshake] at hread
  split at hread
  · obtain hread | hread := hread <;> cases hread
  · rename_i hunder
    have hindex : ch.messageIndex < handshakeMessageCount := not_le.1 (not_or.1 hunder).2
    split at hread
    · obtain hread | hread := hread <;> cases hread
    · split at hread
      · obtain hread | hread := hread <;> cases hread
      · split at hread
        · obtain hread | hread := hread <;> cases hread
        · rename_i hs hhs
          split at hread
          · obtain hread | hread := hread <;> cases hread
          · rename_i payload hs₁ hmessage
            have hkeys₁ := readMessage_ownKeys (h.keys hs hhs) hmessage
            dsimp only at hread
            split at hread
            · rename_i hmore
              split at hread
              · obtain hread | hread := hread <;> cases hread
              · rename_i reply₁ hs₂ hwrite
                obtain ⟨hlength, hkeys₂⟩ := writeMessage_writes hpublic hkeys₁ hwrite
                obtain ⟨rfl, hspeaks, hcount⟩ := finish_writes (by exact hmore) hkeys₂ hread
                refine ⟨hlength, hspeaks, ?_⟩
                rw [hcount]
                change ch.messageIndex < ch.messageIndex + 1 + 1
                omega
            · obtain ⟨rfl, hspeaks, hcount⟩ := finish_writes (by exact hindex) hkeys₁ hread
              refine ⟨Nat.zero_le _, hspeaks, ?_⟩
              rw [hcount]
              exact Nat.lt_succ_self _

end PeerChannel

end EosMesh
