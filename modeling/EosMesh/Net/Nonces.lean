import EosMesh.Net.FailClosed

/-!
# No nonce is used twice

Both ends of a connection come by the same keys, and the handshake, the stream and the datagrams
each count their own nonces.  So it is not enough that a counter goes up: the two ends must never
seal under one key with one count, and a key that is set anew must be another key, or its counter
would start over on it.

A key of the handshake is told from another by how many derivations lie behind it.  `Chain` counts
those behind a chaining key and `KeyAt` those behind a cipher key; that different derivations give
different keys (`DistinctKeys`) makes both counts unique.  A transport key is told from these by the
derivation that ended the handshake, which has no shared secret in it where every other has one.

* `HandshakeSlot` says under which counts and nonces each role seals in its handshake, and `MaySeal`
  adds the transports; `DistinctKeys.maySeal_apart` is that no two roles share one.
* Reading a message seals nothing, however far it gets (`unsealing_readMessage`).  Writing one seals
  within the slots of its role (`answer_seals`, `closing_seals`), also when it fails half-way.
* `PeerChannel.Disciplined` is the invariant of one end, by the phase it is in: a handshake that
  goes on, one that is over, or the transport.  `keeps_call` says that every call keeps it, and
  `Transporting.forward` that the counters of the transport never go back, while `RefusesLast` is
  what happens at their last value.
* `nonce_discipline` is what this comes to for both ends, in any interleaving of their calls.

The uses come from `Net.Attempts`, where a call that fails keeps what it did until then.
-/

set_option autoImplicit false

namespace EosMesh

open Lib NoiseHandshake

/-! ## Where keys come from -/

/-- A derivation with this input gives this key as output `i`. -/
def Derives (crypto : Crypto) (salt ikm : Bytes) (i : Nat) (key : Bytes) : Prop :=
  (crypto.hkdfSha256 salt ikm 2)[i]? = some key

/-- The keys derived are pairwise distinct: two that are equal are the same output of the same
derivation, and none is the protocol name, the first chaining key. -/
structure DistinctKeys (crypto : Crypto) (uses : List Use) : Prop where
  apart : ∀ salt ikm i salt' ikm' i' key, .derived salt ikm ∈ uses → .derived salt' ikm' ∈ uses →
    Derives crypto salt ikm i key → Derives crypto salt' ikm' i' key →
    salt = salt' ∧ ikm = ikm' ∧ i = i'
  fresh : ∀ salt ikm i, .derived salt ikm ∈ uses → ¬ Derives crypto salt ikm i protocolName

variable {crypto : Crypto} {uses : List Use}

/-- A chaining key with `n` derivations behind it. -/
inductive Chain (crypto : Crypto) (uses : List Use) : Nat → Bytes → Prop
  | start : Chain crypto uses 0 protocolName
  | next {n : Nat} {ck secret ck' key : Bytes} (h : Chain crypto uses n ck)
    (hin : .derived ck secret ∈ uses) (hderived : DerivedFrom crypto ck secret ck' key) :
    Chain crypto uses (n + 1) ck'

/-- A cipher key derived from a chaining key with `n` derivations behind it. -/
def KeyAt (crypto : Crypto) (uses : List Use) (n : Nat) (key : Bytes) : Prop :=
  ∃ ck secret ck', Chain crypto uses n ck ∧ .derived ck secret ∈ uses ∧
    DerivedFrom crypto ck secret ck' key

/-- A key of the transports: output `i` of a derivation with input `ikm`. -/
def TransportKey (crypto : Crypto) (uses : List Use) (ikm : Bytes) (i : Nat) (key : Bytes) : Prop :=
  ∃ ck, .derived ck ikm ∈ uses ∧ Derives crypto ck ikm i key

theorem NoiseHandshake.DerivedFrom.chaining {ck secret ck' key : Bytes}
    (h : DerivedFrom crypto ck secret ck' key) : Derives crypto ck secret 0 ck' := by
  rw [Derives, h.1]
  rfl

theorem NoiseHandshake.DerivedFrom.cipher {ck secret ck' key : Bytes}
    (h : DerivedFrom crypto ck secret ck' key) : Derives crypto ck secret 1 key := by
  rw [Derives, h.1]
  rfl

namespace DistinctKeys

variable (hkeys : DistinctKeys crypto uses)
include hkeys

theorem chain_unique {n m : Nat} {ck : Bytes} (h : Chain crypto uses n ck)
    (h' : Chain crypto uses m ck) : n = m := by
  induction h generalizing m with
  | start =>
    cases h' with
    | start => rfl
    | next _ hin hderived => exact (hkeys.fresh _ _ _ hin hderived.chaining).elim
  | next _ hin hderived ih =>
    cases h' with
    | start => exact (hkeys.fresh _ _ _ hin hderived.chaining).elim
    | next h' hin' hderived' =>
      obtain ⟨rfl, -, -⟩ := hkeys.apart _ _ _ _ _ _ _ hin hin' hderived.chaining hderived'.chaining
      rw [ih h']

theorem keyAt_unique {n m : Nat} {key : Bytes} (h : KeyAt crypto uses n key)
    (h' : KeyAt crypto uses m key) : n = m := by
  obtain ⟨ck, secret, ck', hchain, hin, hderived⟩ := h
  obtain ⟨_, _, _, hchain', hin', hderived'⟩ := h'
  obtain ⟨rfl, -, -⟩ := hkeys.apart _ _ _ _ _ _ _ hin hin' hderived.cipher hderived'.cipher
  exact hkeys.chain_unique hchain hchain'

theorem transportKey_unique {ikm ikm' : Bytes} {i i' : Nat} {key : Bytes}
    (h : TransportKey crypto uses ikm i key) (h' : TransportKey crypto uses ikm' i' key) :
    ikm = ikm' ∧ i = i' := by
  obtain ⟨_, hin, hderived⟩ := h
  obtain ⟨_, hin', hderived'⟩ := h'
  exact (hkeys.apart _ _ _ _ _ _ _ hin hin' hderived hderived').2

/-- A transport is keyed with no shared secret, a handshake never without one. -/
theorem keyAt_ne_transportKey {n i : Nat} {ikm key : Bytes} (hikm : ikm.length ≠ dhLen)
    (h : KeyAt crypto uses n key) (h' : TransportKey crypto uses ikm i key) : False := by
  obtain ⟨_, _, _, -, hin, hderived⟩ := h
  obtain ⟨_, hin', hderived'⟩ := h'
  obtain ⟨-, rfl, -⟩ := hkeys.apart _ _ _ _ _ _ _ hin hin' hderived.cipher hderived'
  exact hikm hderived.2

end DistinctKeys

/-! ## What is sealed -/

/-- The key and nonce of an encryption. -/
def Use.sealing : Use → Option (Bytes × Bytes)
  | .sealed key nonce _ _ => some (key, nonce)
  | .hashed _ | .derived _ _ | .opened _ _ _ _ => none

/-- The sealings among what was asked. -/
def sealings (uses : List Use) : List (Bytes × Bytes) := uses.filterMap Use.sealing

@[simp] theorem sealings_append (uses notes : List Use) :
    sealings (uses ++ notes) = sealings uses ++ sealings notes := List.filterMap_append

theorem sealings_of_silent {notes : List Use} (h : ∀ use ∈ notes, use.Silent) :
    sealings notes = [] := by
  refine List.filterMap_eq_nil_iff.2 fun use huse ↦ ?_
  have hquiet := h use huse
  cases use with
  | hashed _ => rfl
  | derived _ _ => rfl
  | sealed _ _ _ _ => exact hquiet.elim
  | opened _ _ _ _ => rfl

/-- The derivation counts and nonces that a role's handshake seals under: the responder's answer is
the first use of the first two keys, and the initiator's closing the second use of a later key and
the first of the one after. -/
def HandshakeSlot (initiator : Bool) (n : Nat) (nonce : Bytes) : Prop :=
  if initiator then (1 ≤ n ∧ nonce = buildNonce 1) ∨ (2 ≤ n ∧ nonce = buildNonce 0)
  else n ≤ 1 ∧ nonce = buildNonce 0

theorem handshakeSlot_apart {n : Nat} {nonce : Bytes} (h : HandshakeSlot true n nonce)
    (h' : HandshakeSlot false n nonce) : False := by
  obtain ⟨hle, rfl⟩ := h'
  rcases h with ⟨-, hnonce⟩ | ⟨htwo, -⟩
  · exact absurd (buildNonce_inj hnonce) nofun
  · omega

/-- What a split derives from. -/
def SplitInput (ikm : Bytes) : Prop := ikm = [] ∨ ikm = canonicalField udpSubkeyDomain

theorem SplitInput.length_ne {ikm : Bytes} (h : SplitInput ikm) : ikm.length ≠ dhLen := by
  rcases h with rfl | rfl
  · nofun
  · rw [canonicalField, List.length_append, length_beBytes]
    decide +kernel

/-- The output of a split that a role sends under. -/
def sendOutput (initiator : Bool) : Nat := if initiator then 0 else 1

/-- A key and nonce that a role may have sealed under. -/
def MaySeal (crypto : Crypto) (uses : List Use) (initiator : Bool) (p : Bytes × Bytes) : Prop :=
  (∃ n, KeyAt crypto uses n p.1 ∧ HandshakeSlot initiator n p.2) ∨
    ∃ ikm, SplitInput ikm ∧ TransportKey crypto uses ikm (sendOutput initiator) p.1

/-- **No key and nonce belongs to both roles.** -/
theorem DistinctKeys.maySeal_apart (hkeys : DistinctKeys crypto uses) {p : Bytes × Bytes}
    (h : MaySeal crypto uses true p) (h' : MaySeal crypto uses false p) : False := by
  rcases h with ⟨n, hkey, hslot⟩ | ⟨ikm, hinput, hkey⟩
  · rcases h' with ⟨m, hkey', hslot'⟩ | ⟨ikm', hinput', hkey'⟩
    · rw [← hkeys.keyAt_unique hkey hkey'] at hslot'
      exact handshakeSlot_apart hslot hslot'
    · exact hkeys.keyAt_ne_transportKey hinput'.length_ne hkey hkey'
  · rcases h' with ⟨m, hkey', hslot'⟩ | ⟨ikm', hinput', hkey'⟩
    · exact hkeys.keyAt_ne_transportKey hinput.length_ne hkey' hkey
    · cases (hkeys.transportKey_unique hkey hkey').2

/-! ## More uses -/

section Monotone

variable {notes : List Use}

theorem DistinctKeys.of_append (h : DistinctKeys crypto (uses ++ notes)) :
    DistinctKeys crypto uses where
  apart _ _ _ _ _ _ _ hin hin' :=
    h.apart _ _ _ _ _ _ _ (List.mem_append_left _ hin) (List.mem_append_left _ hin')
  fresh _ _ _ hin := h.fresh _ _ _ (List.mem_append_left _ hin)

theorem Chain.mono {n : Nat} {ck : Bytes} (h : Chain crypto uses n ck) :
    Chain crypto (uses ++ notes) n ck := by
  induction h with
  | start => exact .start
  | next _ hin hderived ih => exact ih.next (List.mem_append_left _ hin) hderived

theorem KeyAt.mono {n : Nat} {key : Bytes} (h : KeyAt crypto uses n key) :
    KeyAt crypto (uses ++ notes) n key := by
  obtain ⟨ck, secret, ck', hchain, hin, hderived⟩ := h
  exact ⟨ck, secret, ck', hchain.mono, List.mem_append_left _ hin, hderived⟩

theorem TransportKey.mono {ikm key : Bytes} {i : Nat} (h : TransportKey crypto uses ikm i key) :
    TransportKey crypto (uses ++ notes) ikm i key := by
  obtain ⟨ck, hin, hderives⟩ := h
  exact ⟨ck, List.mem_append_left _ hin, hderives⟩

end Monotone

/-- A key and nonce that a role's handshake may have sealed under. -/
def InHandshake (crypto : Crypto) (uses : List Use) (initiator : Bool) (p : Bytes × Bytes) : Prop :=
  ∃ n, KeyAt crypto uses n p.1 ∧ HandshakeSlot initiator n p.2

theorem InHandshake.mono {initiator : Bool} {p : Bytes × Bytes} {notes : List Use}
    (h : InHandshake crypto uses initiator p) : InHandshake crypto (uses ++ notes) initiator p := by
  obtain ⟨n, hkey, hslot⟩ := h
  exact ⟨n, hkey.mono, hslot⟩

/-! ## Reading -/

/-- A chaining key that derivations lead to. -/
def Chained (crypto : Crypto) (uses : List Use) (ck : Bytes) : Prop := ∃ n, Chain crypto uses n ck

/-- Nothing is sealed, and the chaining key stays one that derivations lead to. -/
def Unsealing (crypto : Crypto) (hs : NoiseHandshake) (notes : List Use) (hs' : NoiseHandshake) :
    Prop :=
  sealings notes = [] ∧ ∀ uses, Chained crypto uses hs.ck → Chained crypto (uses ++ notes) hs'.ck

theorem unsealing_composes : Attempt.Composes (Unsealing crypto) where
  refl hs := ⟨rfl, fun uses h ↦ by rwa [List.append_nil]⟩
  trans h h' := by
    refine ⟨by rw [sealings_append, h.1, h'.1, List.append_nil], fun uses hck ↦ ?_⟩
    rw [← List.append_assoc]
    exact h'.2 _ (h.2 uses hck)

/-- What leaves the chaining key alone and seals nothing. -/
theorem unsealing_of_silent {hs hs' : NoiseHandshake} {notes : List Use} (hck : hs'.ck = hs.ck)
    (hnone : sealings notes = []) : Unsealing crypto hs notes hs' := by
  refine ⟨hnone, fun uses h ↦ ?_⟩
  obtain ⟨n, hchain⟩ := h
  rw [hck]
  exact ⟨n, hchain.mono⟩

theorem unsealing_mixDh (hsized : crypto.Sized) (token : Token) :
    Attempt.Within (Unsealing crypto) (tryMixDh crypto token) := by
  intro hs
  by_cases hdh : token ≠ .e ∧ token ≠ .s
  · have h : Attempt.Ends (tryMixDh crypto token) hs _ := ends_mixDh hsized hdh
    rcases h with ⟨-, hstate, hnotes⟩ | ⟨ikm, ck, key, -, hstate, hnotes, hout, hlength⟩
    · refine unsealing_of_silent (by rw [hstate]) ?_
      rcases hnotes with hnotes | ⟨ikm, hnotes⟩
      · rw [hnotes]
        rfl
      · rw [hnotes]
        rfl
    · rw [hstate, hnotes]
      refine ⟨rfl, fun uses hck ↦ ?_⟩
      obtain ⟨n, hchain⟩ := hck
      exact ⟨n + 1, hchain.mono.next (List.mem_append_right _ List.mem_cons_self) ⟨hout, hlength⟩⟩
  · have hnone : secretOf crypto hs token = none := by
      cases token with
      | e => rfl
      | s => rfl
      | ee => exact absurd ⟨by simp, by simp⟩ hdh
      | es => exact absurd ⟨by simp, by simp⟩ hdh
      | se => exact absurd ⟨by simp, by simp⟩ hdh
    rw [tryMixDh, hnone]
    exact unsealing_composes.refl hs

theorem unsealing_decryptAndHash (cipher : Bytes) :
    Attempt.Within (Unsealing crypto) (tryDecryptAndHash crypto cipher) := by
  intro hs
  rw [tryDecryptAndHash]
  split
  · exact unsealing_composes.refl hs
  · cases hs.cs.decrypt crypto hs.h cipher with
    | none => exact unsealing_composes.refl hs
    | some p =>
      refine unsealing_of_silent rfl ?_
      dsimp only
      rw [CipherState.opening]
      split <;> rfl

/-- **Reading a message seals nothing**, however far it gets. -/
theorem unsealing_readMessage (hsized : crypto.Sized) (message : Bytes) :
    Attempt.Within (Unsealing crypto) (tryReadMessage crypto message) := by
  have hR := @unsealing_composes crypto
  have htoken := @within_readToken crypto (Unsealing crypto) hR
    (fun _ _ ↦ unsealing_of_silent rfl rfl) (fun _ _ ↦ unsealing_of_silent rfl rfl)
    (fun _ _ ↦ unsealing_of_silent rfl rfl) unsealing_decryptAndHash (unsealing_mixDh hsized)
  exact .bind hR (.read hR) fun _ ↦ .bind hR (.require hR _) fun _ ↦
    .bind hR (within_readTokens hR htoken _ message) fun _ ↦
      .bind hR (unsealing_decryptAndHash _) fun _ ↦
        .bind hR (.change fun _ ↦ unsealing_of_silent (by simp) rfl) fun _ ↦ .pure hR _

/-! ## Writing -/

/-- From the static key on, a message seals that, and then the payload under the next key. -/
theorem sealings_sealsOn {cs : CipherState} {ck h sPub : Bytes} {r : Bool} {hs' : NoiseHandshake}
    {notes : List Use} (hon : SealsOn crypto cs ck h sPub r hs' notes) :
    (r = false ∧ sealings notes = [(cs.key, buildNonce cs.nonce)]) ∨
      r = true ∧ ∃ secret key, .derived ck secret ∈ notes ∧
        DerivedFrom crypto ck secret hs'.ck key ∧
        sealings notes = [(cs.key, buildNonce cs.nonce), (key, buildNonce 0)] := by
  cases hon with
  | static hstatic hsilent =>
    obtain ⟨out, -, -, rfl⟩ := hstatic
    refine .inl ⟨rfl, ?_⟩
    rw [sealings_append, sealings_of_silent hsilent]
    rfl
  | all hstatic hpayload hck =>
    obtain ⟨out, -, -, rfl⟩ := hstatic
    obtain ⟨secret, out', hderived, rfl⟩ := hpayload
    rw [← hck] at hderived
    exact .inr ⟨rfl, secret, _, by simp, hderived, rfl⟩

/-- A closing message seals within the initiator's slots. -/
theorem closing_seals {hs hs' : NoiseHandshake} {n : Nat} {r : Bool} {notes : List Use}
    (hchain : Chain crypto uses (n + 2) hs.ck) (hkey : KeyAt crypto uses (n + 1) hs.cs.key)
    (hnonce : hs.cs.nonce = 1)
    (hon : SealsOn crypto hs.cs hs.ck hs.h hs.sPub r hs' notes) :
    (∀ p ∈ sealings notes, InHandshake crypto (uses ++ notes) true p) ∧
      (sealings notes).Nodup ∧ (r = true → Chained crypto (uses ++ notes) hs'.ck) := by
  have hfirst : InHandshake crypto (uses ++ notes) true (hs.cs.key, buildNonce hs.cs.nonce) := by
    refine ⟨n + 1, hkey.mono, ?_⟩
    rw [HandshakeSlot, if_pos rfl, hnonce]
    exact .inl ⟨by omega, rfl⟩
  rcases sealings_sealsOn hon with ⟨rfl, hsealed⟩ | ⟨rfl, secret, key, hin, hderived, hsealed⟩
  · rw [hsealed]
    refine ⟨fun p hp ↦ ?_, List.nodup_singleton _, fun hr ↦ absurd hr Bool.false_ne_true⟩
    rw [List.mem_singleton] at hp
    rw [hp]
    exact hfirst
  · rw [hsealed]
    have hnext : Chain crypto (uses ++ notes) (n + 3) hs'.ck :=
      hchain.mono.next (List.mem_append_right _ hin) hderived
    refine ⟨fun p hp ↦ ?_, ?_, fun _ ↦ ⟨_, hnext⟩⟩
    · rcases List.mem_pair.1 hp with rfl | rfl
      · exact hfirst
      · refine ⟨n + 2, ⟨_, _, _, hchain.mono, List.mem_append_right _ hin, hderived⟩, ?_⟩
        rw [HandshakeSlot, if_pos rfl]
        exact .inr ⟨by omega, rfl⟩
    · rw [List.nodup_cons, List.mem_singleton, hnonce]
      refine ⟨fun hsame ↦ ?_, List.nodup_singleton _⟩
      have hone := buildNonce_inj (Prod.mk.inj hsame).2
      exact absurd hone (by decide)

/-- An answer seals within the responder's slots. -/
theorem answer_seals {hs hs' : NoiseHandshake} {r : Bool} {notes : List Use}
    (hck : hs.ck = protocolName) (h : Answers crypto hs r hs' notes) :
    (∀ p ∈ sealings notes, InHandshake crypto (uses ++ notes) false p) ∧
      (DistinctKeys crypto (uses ++ notes) → (sealings notes).Nodup) ∧
      (r = true → Chained crypto (uses ++ notes) hs'.ck) := by
  cases h with
  | nothing hsilent =>
    rw [sealings_of_silent hsilent]
    exact ⟨List.forall_mem_nil _, fun _ ↦ List.nodup_nil, fun hr ↦ absurd hr Bool.false_ne_true⟩
  | @keyed _ _ e secret ck key on he hderived hon =>
    rw [hck] at hderived ⊢
    have hsealed : sealings (.hashed (hs.h ++ e) :: .derived protocolName secret :: on) =
        sealings on := rfl
    rw [hsealed]
    have hin : Use.derived protocolName secret ∈
        uses ++ .hashed (hs.h ++ e) :: .derived protocolName secret :: on := by simp
    have hkey : KeyAt crypto (uses ++ .hashed (hs.h ++ e) :: .derived protocolName secret :: on) 0
        key := ⟨_, _, _, .start, hin, hderived⟩
    have hchain : Chain crypto
        (uses ++ .hashed (hs.h ++ e) :: .derived protocolName secret :: on) 1 ck :=
      .next .start hin hderived
    have hslot (n : Nat) (hn : n ≤ 1) : HandshakeSlot false n (buildNonce 0) := by
      rw [HandshakeSlot, if_neg Bool.false_ne_true]
      exact ⟨hn, rfl⟩
    rcases sealings_sealsOn hon with
      ⟨rfl, hstatic⟩ | ⟨rfl, secret', key', hin', hderived', hboth⟩
    · rw [hstatic]
      refine ⟨fun p hp ↦ ?_, fun _ ↦ List.nodup_singleton _,
        fun hr ↦ absurd hr Bool.false_ne_true⟩
      rw [List.mem_singleton] at hp
      rw [hp]
      exact ⟨0, hkey, hslot 0 (by omega)⟩
    · rw [hboth]
      have hnext : Use.derived ck secret' ∈
          uses ++ .hashed (hs.h ++ e) :: .derived protocolName secret :: on := by simp [hin']
      have hkey' : KeyAt crypto
          (uses ++ .hashed (hs.h ++ e) :: .derived protocolName secret :: on) 1 key' :=
        ⟨_, _, _, hchain, hnext, hderived'⟩
      refine ⟨fun p hp ↦ ?_, fun hkeys ↦ ?_, fun _ ↦ ⟨2, hchain.next hnext hderived'⟩⟩
      · rcases List.mem_pair.1 hp with rfl | rfl
        · exact ⟨0, hkey, hslot 0 (by omega)⟩
        · exact ⟨1, hkey', hslot 1 (by omega)⟩
      · rw [List.nodup_cons, List.mem_singleton]
        refine ⟨fun hsame ↦ ?_, List.nodup_singleton _⟩
        have hkeySame : key = key' := (Prod.mk.inj hsame).1
        rw [← hkeySame] at hkey'
        exact absurd (hkeys.keyAt_unique hkey hkey') (by omega)

/-! ## The end of a handshake -/

/-- The third message ends a handshake. -/
theorem NoiseHandshake.Party.completes {hs hs' : NoiseHandshake} (h : Party hs true hs')
    (htwo : hs.messageIndex = 2) : hs'.done = true := by
  obtain ⟨hs₁, hsame, rfl⟩ := h
  rw [advance, if_pos (hsame.messageIndex.trans htwo)]

namespace PeerChannel

variable {ch : PeerChannel}

/-- No turn of the handshake is left to the channel. -/
def Over (ch : PeerChannel) : Prop :=
  ¬ (ch.initiator = true ∧ ch.messageIndex = 0) ∧
    ¬ (ch.messageIndex < handshakeMessageCount ∧ weWrite ch.initiator ch.messageIndex = false)

theorem over_responder (hrole : ch.initiator = false) (hone : ch.messageIndex = 1) : ch.Over := by
  rw [Over, hrole, hone]
  decide

theorem over_initiator (hrole : ch.initiator = true) (htwo : ch.messageIndex = 2) : ch.Over := by
  rw [Over, hrole, htwo]
  decide

theorem over_last (hthree : ch.messageIndex = 3) : ch.Over := by
  rw [Over, hthree]
  exact ⟨fun hboth ↦ absurd hboth.2 (by decide), fun hboth ↦ absurd hboth.1 (by decide)⟩

/-- An established end, and what it has sealed: in its handshake, or under a transport key with a
counter it has gone past. -/
structure Transporting (crypto : Crypto) (uses : List Use) (ch : PeerChannel)
    (own : List (Bytes × Bytes)) : Prop where
  established : ch.established = true
  spent : ch.Over
  keyed : ch.send.hasKey = true
  stream : TransportKey crypto uses [] (sendOutput ch.initiator) ch.send.key
  datagram : TransportKey crypto uses (canonicalField udpSubkeyDomain) (sendOutput ch.initiator)
    ch.udpSend
  own : ∀ p ∈ own, InHandshake crypto uses ch.initiator p ∨
    (∃ m, m < ch.send.nonce ∧ p = (ch.send.key, buildNonce m)) ∨
      ∃ m, m < ch.udpSeq ∧ p = (ch.udpSend, buildNonce m)

/-- A split hands out keys of its two derivations. -/
theorem split_derives {hs hs' : NoiseHandshake} {keys : Transport}
    (h : hs.split crypto = some (keys, hs')) :
    keys.send.hasKey = true ∧ Derives crypto hs.ck [] (sendOutput hs.initiator) keys.send.key ∧
      Derives crypto hs.ck (canonicalField udpSubkeyDomain) (sendOutput hs.initiator)
        keys.udpSend := by
  rw [split] at h
  split at h
  · cases h
  · split at h
    · rename_i hudp hout
      cases h
      rw [Derives, Derives, hudp, hout]
      cases hs.initiator <;> exact ⟨rfl, rfl, rfl⟩
    · cases h

theorem trySplit_some {hs : NoiseHandshake} {keys : Transport}
    (h : (trySplit crypto hs).result = some keys) :
    (trySplit crypto hs).notes =
        [.derived hs.ck (canonicalField udpSubkeyDomain), .derived hs.ck []] ∧
      ∃ hs', hs.split crypto = some (keys, hs') := by
  rw [trySplit] at h ⊢
  split at h
  · cases h
  · rename_i hopen
    rw [if_neg hopen]
    dsimp only at h ⊢
    split at h
    · cases h
    · rename_i hlength
      rw [if_neg hlength]
      cases hsplit : hs.split crypto with
      | none =>
        rw [hsplit] at h
        cases h
      | some p =>
        rw [hsplit] at h
        cases h
        exact ⟨rfl, p.2, rfl⟩

theorem sealings_trySplit (hs : NoiseHandshake) : sealings (trySplit crypto hs).notes = [] := by
  rw [trySplit]
  split
  · rfl
  · dsimp only
    split
    · rfl
    · cases split crypto hs <;> rfl

/-- **The end of a handshake** leaves the channel established under transport keys, or with no turn
left. -/
theorem ends_finish {hs : NoiseHandshake} {own : List (Bytes × Bytes)}
    (hhs : ch.handshake = some hs) (hdone : hs.done = true) (hinit : hs.initiator = ch.initiator)
    (hover : ch.Over) (hopen : ch.established = false)
    (hown : ∀ p ∈ own, InHandshake crypto uses ch.initiator p) :
    Attempt.Ends (tryFinish crypto) ch fun _ ch' notes ↦ sealings notes = [] ∧
      ch'.initiator = ch.initiator ∧
      (ch'.established = false ∧ ch'.Over ∨ Transporting crypto (uses ++ notes) ch' own) := by
  have hread : onHandshake Attempt.read ch = ⟨some hs, ch, []⟩ := by
    rw [onHandshake, hhs]
    dsimp only [Attempt.read]
    rw [← hhs]
  refine .bind_done hread ?_
  rw [if_neg (not_not_intro hdone)]
  refine .require (fun _ ↦ ⟨rfl, rfl, .inl ⟨hopen, hover⟩⟩) fun _ ↦ .change ?_
  have hsplit : onHandshake (trySplit crypto) { ch with remoteStatic := hs.remoteStatic } =
      ⟨(trySplit crypto hs).result,
        { ch with remoteStatic := hs.remoteStatic, handshake := some (trySplit crypto hs).state },
        (trySplit crypto hs).notes⟩ := by
    rw [onHandshake, hhs]
  cases hkeys : (trySplit crypto hs).result with
  | none =>
    rw [hkeys] at hsplit
    rw [Attempt.Ends, Attempt.bind_of_none (by rw [hsplit]), hsplit]
    exact ⟨sealings_trySplit hs, rfl, .inl ⟨hopen, hover⟩⟩
  | some keys =>
    rw [hkeys] at hsplit
    obtain ⟨hnotes, hs', hsome⟩ := trySplit_some hkeys
    obtain ⟨hkeyed, hstream, hdatagram⟩ := split_derives hsome
    rw [hinit] at hstream hdatagram
    refine .bind_done hsplit (.change (.pure ?_))
    rw [List.append_nil]
    refine ⟨sealings_trySplit hs, rfl, .inr ⟨rfl, hover, hkeyed, ?_, ?_, fun p hp ↦ ?_⟩⟩
    · exact ⟨hs.ck, by simp [hnotes], hstream⟩
    · exact ⟨hs.ck, by simp [hnotes], hdatagram⟩
    · exact .inl (hown p hp).mono

/-! ## One end -/

/-- A handshake that its channel goes on with. -/
structure Handshaking (crypto : Crypto) (uses : List Use) (ch : PeerChannel) (hs : NoiseHandshake) :
    Prop where
  established : ch.established = false
  handshake : ch.handshake = some hs
  initiator : hs.initiator = ch.initiator
  done : hs.done = false
  index : hs.messageIndex = ch.messageIndex
  static : hs.sPub.length = dhLen
  chained : Chained crypto uses hs.ck

/-- How far an end has come, and what it has sealed by then. -/
inductive Phase (crypto : Crypto) (uses : List Use) (ch : PeerChannel)
  (own : List (Bytes × Bytes)) :
    Prop
  /-- It has yet to open, or to answer. -/
  | starting (hs : NoiseHandshake) (h : Handshaking crypto uses ch hs) (hnone : own = [])
      (hzero : ch.messageIndex = 0) (hunkeyed : hs.cs.hasKey = false ∧ hs.haveE = false)
      (hck : hs.ck = protocolName)
  /-- The initiator waits for the answer. -/
  | waiting (hs : NoiseHandshake) (h : Handshaking crypto uses ch hs) (hnone : own = [])
      (hrole : ch.initiator = true) (hone : ch.messageIndex = 1)
  /-- The responder has answered. -/
  | answered (hs : NoiseHandshake) (h : Handshaking crypto uses ch hs)
      (hown : ∀ p ∈ own, InHandshake crypto uses ch.initiator p)
      (hrole : ch.initiator = false) (htwo : ch.messageIndex = 2)
  | stuck (hopen : ch.established = false) (hover : ch.Over)
      (hown : ∀ p ∈ own, InHandshake crypto uses ch.initiator p)
  | transporting (h : Transporting crypto uses ch own)

/-- One end of a connection, and what it has sealed: no key and nonce twice, unless keys clash. -/
structure Disciplined (crypto : Crypto) (uses : List Use) (initiator : Bool) (ch : PeerChannel)
    (own : List (Bytes × Bytes)) : Prop where
  role : ch.initiator = initiator
  phase : Phase crypto uses ch own
  apart : DistinctKeys crypto uses → own.Nodup

section Monotone

variable {notes : List Use} {own : List (Bytes × Bytes)} {hs : NoiseHandshake}

theorem Handshaking.mono (h : Handshaking crypto uses ch hs) :
    Handshaking crypto (uses ++ notes) ch hs := by
  obtain ⟨n, hchain⟩ := h.chained
  exact { h with chained := ⟨n, hchain.mono⟩ }

theorem Transporting.mono (h : Transporting crypto uses ch own) :
    Transporting crypto (uses ++ notes) ch own where
  established := h.established
  spent := h.spent
  keyed := h.keyed
  stream := h.stream.mono
  datagram := h.datagram.mono
  own p hp := (h.own p hp).imp_left InHandshake.mono

theorem Phase.mono (h : Phase crypto uses ch own) : Phase crypto (uses ++ notes) ch own := by
  cases h with
  | starting hs h hnone hzero hunkeyed hck => exact .starting hs h.mono hnone hzero hunkeyed hck
  | waiting hs h hnone hrole hone => exact .waiting hs h.mono hnone hrole hone
  | answered hs h hown hrole htwo =>
    exact .answered hs h.mono (fun p hp ↦ (hown p hp).mono) hrole htwo
  | stuck hopen hover hown => exact .stuck hopen hover fun p hp ↦ (hown p hp).mono
  | transporting h => exact .transporting h.mono

theorem Disciplined.mono {initiator : Bool} (h : Disciplined crypto uses initiator ch own) :
    Disciplined crypto (uses ++ notes) initiator ch own :=
  ⟨h.role, h.phase.mono, fun hkeys ↦ h.apart hkeys.of_append⟩

end Monotone

variable {own : List (Bytes × Bytes)} {initiator : Bool}

theorem Phase.maySeal (h : Phase crypto uses ch own) {p : Bytes × Bytes} (hp : p ∈ own) :
    MaySeal crypto uses ch.initiator p := by
  cases h with
  | starting _ _ hnone => rw [hnone] at hp; cases hp
  | waiting _ _ hnone => rw [hnone] at hp; cases hp
  | answered _ _ hown => exact .inl (hown p hp)
  | stuck _ _ hown => exact .inl (hown p hp)
  | transporting h =>
    rcases h.own p hp with hin | ⟨m, -, rfl⟩ | ⟨m, -, rfl⟩
    · exact .inl hin
    · exact .inr ⟨_, .inl rfl, h.stream⟩
    · exact .inr ⟨_, .inr rfl, h.datagram⟩

theorem Phase.transporting_of (h : Phase crypto uses ch own) (hest : ch.established = true) :
    Transporting crypto uses ch own := by
  have hnot {b : Bool} (hb : ch.established = b) : b = true := hb.symm.trans hest
  cases h with
  | starting _ h => exact absurd (hnot h.established) Bool.false_ne_true
  | waiting _ h => exact absurd (hnot h.established) Bool.false_ne_true
  | answered _ h => exact absurd (hnot h.established) Bool.false_ne_true
  | stuck hopen => exact absurd (hnot hopen) Bool.false_ne_true
  | transporting h => exact h

/-- What a call makes of one end. -/
def Keeps (crypto : Crypto) (uses : List Use) (initiator : Bool) (own : List (Bytes × Bytes))
    (ch : PeerChannel) (notes : List Use) : Prop :=
  Disciplined crypto (uses ++ notes) initiator ch (own ++ sealings notes)

/-- What seals nothing only has to say where it leaves the end. -/
theorem Disciplined.moves (h : Disciplined crypto uses initiator ch own) {ch' : PeerChannel}
    {notes : List Use} (hnone : sealings notes = []) (hrole : ch'.initiator = ch.initiator)
    (hphase : Phase crypto (uses ++ notes) ch' own) :
    Keeps crypto uses initiator own ch' notes := by
  rw [Keeps, hnone, List.append_nil]
  exact ⟨hrole.trans h.role, hphase, fun hkeys ↦ h.apart hkeys.of_append⟩

theorem Disciplined.unsealed (h : Disciplined crypto uses initiator ch own) {notes : List Use}
    (hnone : sealings notes = []) : Keeps crypto uses initiator own ch notes :=
  h.moves hnone rfl h.phase.mono

theorem keeps_unmoved (h : Disciplined crypto uses initiator ch own) {r : Bool} {ch' : PeerChannel}
    {notes : List Use} (hunmoved : Unmoved ch r ch' notes) :
    Keeps crypto uses initiator own ch' notes := by
  obtain ⟨-, rfl, rfl⟩ := hunmoved
  exact h.unsealed rfl

/-! ### The transport -/

/-- Of what an end has sealed, nothing is under the stream key with the counter as it is. -/
theorem Transporting.stream_fresh (h : Transporting crypto uses ch own)
    (hkeys : DistinctKeys crypto uses) : (ch.send.key, buildNonce ch.send.nonce) ∉ own := by
  intro hin
  rcases h.own _ hin with ⟨n, hkey, -⟩ | ⟨m, hm, hsame⟩ | ⟨m, -, hsame⟩
  · exact hkeys.keyAt_ne_transportKey (SplitInput.length_ne (.inl rfl)) hkey h.stream
  · rw [← buildNonce_inj (Prod.mk.inj hsame).2] at hm
    exact absurd hm (UInt64.lt_irrefl _)
  · have hkey : ch.send.key = ch.udpSend := (Prod.mk.inj hsame).1
    have hstream := h.stream
    rw [hkey] at hstream
    exact absurd (hkeys.transportKey_unique hstream h.datagram).1 (by decide)

theorem Transporting.datagram_fresh (h : Transporting crypto uses ch own)
    (hkeys : DistinctKeys crypto uses) : (ch.udpSend, buildNonce ch.udpSeq) ∉ own := by
  intro hin
  rcases h.own _ hin with ⟨n, hkey, -⟩ | ⟨m, -, hsame⟩ | ⟨m, hm, hsame⟩
  · exact hkeys.keyAt_ne_transportKey (SplitInput.length_ne (.inr rfl)) hkey h.datagram
  · have hkey : ch.udpSend = ch.send.key := (Prod.mk.inj hsame).1
    have hstream := h.stream
    rw [← hkey] at hstream
    exact absurd (hkeys.transportKey_unique hstream h.datagram).1 (by decide)
  · rw [← buildNonce_inj (Prod.mk.inj hsame).2] at hm
    exact absurd hm (UInt64.lt_irrefl _)

theorem lt_nonce_succ {m nonce : UInt64} (h : nonceExhausted nonce = false) (hm : m ≤ nonce) :
    m < nonce + 1 := by
  rw [UInt64.lt_iff_toNat_lt, toNat_nonce_succ h]
  exact Nat.lt_succ_of_le (UInt64.le_iff_toNat_le.1 hm)

theorem nodup_concat {p : Bytes × Bytes} (h : own.Nodup) (hp : p ∉ own) : (own ++ [p]).Nodup :=
  List.nodup_append_comm.1 (List.nodup_cons.2 ⟨hp, h⟩)

theorem keeps_seal (h : Disciplined crypto uses initiator ch own) (plain ad : Bytes) :
    Attempt.Ends (trySeal crypto plain ad) ch fun _ ch' notes ↦
      Keeps crypto uses initiator own ch' notes := by
  rw [Attempt.Ends, trySeal]
  cases hseal : ch.sealBytes crypto plain ad with
  | none => exact keeps_unmoved h ⟨rfl, rfl, rfl⟩
  | some p =>
    have hest : ch.established = true := (sealBytes_eq hseal).1
    have ht := h.phase.transporting_of hest
    rw [sealBytes, if_neg (not_not_intro hest), CipherState.encrypt,
      if_neg (not_not_intro ht.keyed)] at hseal
    by_cases hlast : nonceExhausted ch.send.nonce = true
    · rw [if_pos hlast] at hseal
      cases hseal
    · rw [if_neg hlast] at hseal
      cases hseal
      have hcount : nonceExhausted ch.send.nonce = false := by simpa using hlast
      have hsealed : ch.send.sealing ad plain =
          [.sealed ch.send.key (buildNonce ch.send.nonce) ad plain] := by
        rw [CipherState.sealing, if_pos ht.keyed]
      dsimp only
      rw [hsealed]
      refine ⟨h.role, .transporting ?_, fun hkeys ↦
        nodup_concat (h.apart hkeys.of_append) (ht.stream_fresh hkeys.of_append)⟩
      refine ⟨hest, ht.spent, ht.keyed, ht.stream.mono, ht.datagram.mono, fun q hq ↦ ?_⟩
      rcases List.mem_append.1 hq with hold | hnew
      · rcases ht.own q hold with hin | ⟨m, hm, rfl⟩ | hdatagram
        · exact .inl hin.mono
        · exact .inr (.inl ⟨m, lt_nonce_succ hcount (UInt64.le_of_lt hm), rfl⟩)
        · exact .inr (.inr hdatagram)
      · rw [List.mem_singleton.1 hnew]
        exact .inr (.inl ⟨_, lt_nonce_succ hcount (UInt64.le_refl _), rfl⟩)

theorem keeps_sealDatagram (h : Disciplined crypto uses initiator ch own)
    (senderId destId plain : Bytes) :
    Attempt.Ends (trySealDatagram crypto senderId destId plain) ch fun _ ch' notes ↦
      Keeps crypto uses initiator own ch' notes := by
  rw [Attempt.Ends, trySealDatagram]
  cases hseal : ch.sealDatagram crypto senderId destId plain with
  | none => exact keeps_unmoved h ⟨rfl, rfl, rfl⟩
  | some p =>
    have hest : ch.established = true := (sealDatagram_eq hseal).1
    have ht := h.phase.transporting_of hest
    rw [sealDatagram] at hseal
    split at hseal
    · cases hseal
    · rename_i hgo
      cases hseal
      have hcount : nonceExhausted ch.udpSeq = false := by
        by_contra hlast
        exact hgo (.inr (by simpa using hlast))
      refine ⟨h.role, .transporting ?_, fun hkeys ↦
        nodup_concat (h.apart hkeys.of_append) (ht.datagram_fresh hkeys.of_append)⟩
      refine ⟨hest, ht.spent, ht.keyed, ht.stream.mono, ht.datagram.mono, fun q hq ↦ ?_⟩
      rcases List.mem_append.1 hq with hold | hnew
      · rcases ht.own q hold with hin | hstream | ⟨m, hm, rfl⟩
        · exact .inl hin.mono
        · exact .inr (.inl hstream)
        · exact .inr (.inr ⟨m, lt_nonce_succ hcount (UInt64.le_of_lt hm), rfl⟩)
      · rw [List.mem_singleton.1 hnew]
        exact .inr (.inr ⟨_, lt_nonce_succ hcount (UInt64.le_refl _), rfl⟩)

/-- A change of what is received leaves what was sealed as it is. -/
theorem keeps_received (h : Disciplined crypto uses initiator ch own) (recv : CipherState)
    (udpReplay : ReplayWindow) {notes : List Use} (hest : ch.established = true)
    (hnone : sealings notes = []) :
    Keeps crypto uses initiator own { ch with recv, udpReplay } notes := by
  have ht := h.phase.transporting_of hest
  refine h.moves hnone rfl (.transporting ?_)
  exact ⟨hest, ht.spent, ht.keyed, ht.stream.mono, ht.datagram.mono, ht.mono.own⟩

theorem keeps_unseal (h : Disciplined crypto uses initiator ch own) (cipher ad : Bytes) :
    Attempt.Ends (tryUnseal crypto cipher ad) ch fun _ ch' notes ↦
      Keeps crypto uses initiator own ch' notes := by
  rw [Attempt.Ends, tryUnseal]
  cases hunseal : ch.unsealBytes crypto cipher ad with
  | none => exact keeps_unmoved h ⟨rfl, rfl, rfl⟩
  | some p =>
    obtain ⟨hest, -, hstate⟩ := unsealBytes_eq hunseal
    dsimp only
    rw [hstate]
    refine keeps_received h _ ch.udpReplay hest ?_
    rw [CipherState.opening]
    split <;> rfl

theorem sealings_openDatagram (senderId destId : Bytes) (seq : UInt64) (cipher : Bytes) :
    sealings (tryOpenDatagram crypto senderId destId seq cipher ch).notes = [] := by
  have huses {p q : Prop} [Decidable p] [Decidable q] {key nonce ad : Bytes} :
      sealings (if p then [] else if q then [] else [.opened key nonce ad cipher]) = [] := by
    split
    · rfl
    · split <;> rfl
  rw [tryOpenDatagram]
  cases ch.openDatagram crypto senderId destId seq cipher with
  | none => exact huses
  | some p => exact huses

theorem keeps_openDatagram (h : Disciplined crypto uses initiator ch own)
    (senderId destId : Bytes) (seq : UInt64) (cipher : Bytes) :
    Attempt.Ends (tryOpenDatagram crypto senderId destId seq cipher) ch fun _ ch' notes ↦
      Keeps crypto uses initiator own ch' notes := by
  have hnone := @sealings_openDatagram crypto ch senderId destId seq cipher
  rw [Attempt.Ends, tryOpenDatagram] at *
  cases hopen : ch.openDatagram crypto senderId destId seq cipher with
  | none =>
    rw [hopen] at hnone
    exact h.unsealed hnone
  | some p =>
    rw [hopen] at hnone
    obtain ⟨hest, hstate⟩ := openDatagram_eq hopen
    dsimp only at hnone ⊢
    rw [hstate]
    exact keeps_received h ch.recv _ hest hnone

/-! ### The handshake -/

theorem keeps_openHandshake (hsized : crypto.Sized)
    (h : Disciplined crypto uses initiator ch own) (random : Option Bytes) :
    Attempt.Ends (tryOpenHandshake crypto random) ch fun _ ch' notes ↦
      Keeps crypto uses initiator own ch' notes := by
  by_cases hturn : ch.initiator = true ∧ ch.messageIndex = 0
  swap
  · exact (ends_openHandshake_refused random hturn).mono fun _ _ _ ↦ keeps_unmoved h
  cases h.phase with
  | waiting _ _ _ _ hone => rw [hturn.2] at hone; cases hone
  | answered _ _ _ _ htwo => rw [hturn.2] at htwo; cases htwo
  | stuck _ hover => exact absurd hturn hover.1
  | transporting ht => exact absurd hturn ht.spent.1
  | starting hs hh hnone hzero hunkeyed hck =>
    refine (ends_openHandshake hh.handshake hturn
      ((ends_writeOpening hsized random (hh.index.trans hzero) hh.done
        (hh.initiator.trans hturn.1) hunkeyed.1 hunkeyed.2).and
          (party_writeMessage random []))).mono ?_
    rintro r ch' notes ⟨hs', ⟨⟨rfl, rfl, rfl⟩ | ⟨rfl, e, he, rfl, hhash, hcs, hck', hone⟩, hparty⟩,
      rfl⟩
    · have hsame : ch = { ch with handshake := some hs', messageIndex := 0 } := by
        rw [← hh.handshake, ← hzero]
      have hunsealed : Keeps crypto uses initiator own ch [] := h.unsealed rfl
      rw [hsame] at hunsealed
      exact hunsealed
    · obtain ⟨n, hchain⟩ := hh.chained
      refine h.moves rfl rfl (.waiting hs' ⟨hh.established, rfl,
        hparty.initiator.trans hh.initiator, ?_, hone, hparty.sPub ▸ hh.static, n, ?_⟩ hnone
        hturn.1 rfl)
      · exact (hparty.done (by rw [hh.index, hzero]; decide)).trans hh.done
      · rw [hck']
        exact hchain.mono

/-- A responder that reads the opening message answers it. -/
theorem keeps_readOpening (hsized : crypto.Sized) (h : Disciplined crypto uses initiator ch own)
    {hs : NoiseHandshake} (hh : Handshaking crypto uses ch hs) (hnone : own = [])
    (hzero : ch.messageIndex = 0) (hunkeyed : hs.cs.hasKey = false ∧ hs.haveE = false)
    (hck : hs.ck = protocolName) (random : Option Bytes) {message : Bytes}
    (hturn : weWrite ch.initiator ch.messageIndex = false)
    (hlength : message.length = handshakeMessageSize ch.messageIndex) :
    Attempt.Ends (tryReadHandshake crypto random message) ch fun _ ch' notes ↦
      Keeps crypto uses initiator own ch' notes := by
  have hrole : ch.initiator = false := by
    rw [hzero] at hturn
    cases hinit : ch.initiator with
    | false => rfl
    | true => rw [hinit] at hturn; cases hturn
  have hsize : message.length = dhLen := by rw [hlength, hzero]; rfl
  have hidx : hs.messageIndex = 0 := hh.index.trans hzero
  have hinit : hs.initiator = false := hh.initiator.trans hrole
  have hcount : ch.messageIndex < handshakeMessageCount := by rw [hzero]; decide
  refine ends_readHandshake hh.handshake ⟨hh.established, hcount⟩ hturn hlength
    ((ends_readOpening hsize hidx hh.done hinit hunkeyed.1).and (party_readMessage message))
    (fun _ _ hread ↦ absurd hread.1.1 Bool.false_ne_true) ?_
  rintro hs₁ notes ⟨⟨-, ⟨e, he, rfl, hhash, hcs, hck₁, hidx₁⟩, hfresh₁⟩, hparty⟩
  have hdone₁ : hs₁.done = false := (hparty.done (by rw [hidx]; decide)).trans hh.done
  have hmore : ch.messageIndex + 1 < handshakeMessageCount := by rw [hzero]; decide
  refine (ends_answer rfl hmore
    ((ends_writeAnswer hsized random hidx₁ hdone₁ (hparty.initiator.trans hinit)
      (by rw [hcs]; exact hunkeyed.1) (hfresh₁.trans hunkeyed.2)
      (by rw [hparty.sPub]; exact hh.static)).and (party_writeMessage random []))
    fun hs₂ _ hwrite ↦ (hwrite.2.done (by rw [hidx₁]; decide)).trans hdone₁).mono ?_
  rintro r ch' answer ⟨hs₂, ⟨hanswer, hparty₂⟩, rfl⟩
  obtain ⟨hslots, hnodup, hchained⟩ := @answer_seals crypto
    (uses ++ [.hashed (hs.h ++ e), .hashed (hashWith crypto hs.h e ++ [])]) hs₁ hs₂ r answer
    (hck₁.trans hck) hanswer
  rw [List.append_assoc] at hslots hnodup hchained
  have hsealed : own ++ sealings ([.hashed (hs.h ++ e), .hashed (hashWith crypto hs.h e ++ [])] ++
      answer) = sealings answer := by
    rw [hnone, sealings_append]
    rfl
  rw [Keeps, hsealed]
  refine ⟨h.role, ?_, hnodup⟩
  cases r with
  | false =>
    refine .stuck hh.established (over_responder hrole (by rw [hzero]; rfl)) ?_
    · rw [hrole]
      exact hslots
  | true =>
    refine .answered hs₂ ⟨hh.established, rfl, ?_, ?_, ?_, ?_, hchained rfl⟩ ?_ hrole ?_
    · exact hparty₂.initiator.trans (hparty.initiator.trans hh.initiator)
    · exact (hparty₂.done (by rw [hidx₁]; decide)).trans hdone₁
    · rw [hparty₂.messageIndex, hidx₁, hzero]
    · rw [hparty₂.sPub, hparty.sPub]
      exact hh.static
    · rw [hrole]
      exact hslots
    · rw [hzero]
      rfl

/-- A message read in vain leaves its reader where it was. -/
theorem Handshaking.read_failed {hs hs' : NoiseHandshake} {notes : List Use}
    (hh : Handshaking crypto uses ch hs) (hread : Unsealing crypto hs notes hs')
    (hparty : Party hs false hs') :
    Handshaking crypto (uses ++ notes) { ch with handshake := some hs' } hs' where
  established := hh.established
  handshake := rfl
  initiator := hparty.initiator.trans hh.initiator
  done := (SameParty.done hparty).trans hh.done
  index := hparty.messageIndex.trans hh.index
  static := by
    rw [hparty.sPub]
    exact hh.static
  chained := hread.2 uses hh.chained

/-- A responder that reads the closing message has nothing more to write. -/
theorem keeps_readClosing (hsized : crypto.Sized) (h : Disciplined crypto uses initiator ch own)
    {hs : NoiseHandshake} (hh : Handshaking crypto uses ch hs)
    (hown : ∀ p ∈ own, InHandshake crypto uses ch.initiator p) (hrole : ch.initiator = false)
    (htwo : ch.messageIndex = 2) (random : Option Bytes) {message : Bytes}
    (hturn : weWrite ch.initiator ch.messageIndex = false)
    (hlength : message.length = handshakeMessageSize ch.messageIndex) :
    Attempt.Ends (tryReadHandshake crypto random message) ch fun _ ch' notes ↦
      Keeps crypto uses initiator own ch' notes := by
  have hcount : ch.messageIndex < handshakeMessageCount := by rw [htwo]; decide
  refine ends_readHandshake hh.handshake ⟨hh.established, hcount⟩ hturn hlength
    (((unsealing_readMessage hsized message).ends hs).and (party_readMessage message)) ?_ ?_
  · rintro hs' notes ⟨hread, hparty⟩
    refine h.moves hread.1 rfl (.answered hs' (hh.read_failed hread hparty) ?_ hrole htwo)
    exact fun p hp ↦ (hown p hp).mono
  · rintro hs₁ notes ⟨hread, hparty⟩
    have hreply : tryReply crypto random { ch with
        handshake := some hs₁, messageIndex := ch.messageIndex + 1 } =
        ⟨some [], { ch with handshake := some hs₁, messageIndex := ch.messageIndex + 1 }, []⟩ := by
      have hlast : ¬ ch.messageIndex + 1 < handshakeMessageCount := by rw [htwo]; decide
      rw [tryReply, Attempt.read_bind, if_neg hlast]
      rfl
    refine .bind_done hreply (Attempt.Ends.map ?_)
    refine (@ends_finish crypto (uses ++ notes)
      { ch with handshake := some hs₁, messageIndex := ch.messageIndex + 1 } hs₁ own rfl
      (hparty.completes (hh.index.trans htwo)) (hparty.initiator.trans hh.initiator)
      (over_last (congrArg (· + 1) htwo)) hh.established fun p hp ↦ (hown p hp).mono).mono ?_
    rintro _ ch' notes' ⟨hnone, hinit, hphase⟩
    refine h.moves ?_ hinit ?_
    · rw [List.nil_append, sealings_append, hread.1, hnone]
      rfl
    · rw [List.nil_append, ← List.append_assoc]
      rcases hphase with ⟨hopen, hover⟩ | ht
      · refine .stuck hopen hover fun p hp ↦ ?_
        rw [hinit]
        exact (hown p hp).mono.mono
      · exact .transporting ht

/-- The answer that an initiator accepts leaves it two derivations further on. -/
theorem chain_of_answer {hs hs' : NoiseHandshake} {notes : List Use}
    (hread : ReadsAnswer crypto hs true hs' notes) (hchained : Chained crypto uses hs.ck) :
    ∃ n, Chain crypto (uses ++ notes) (n + 2) hs'.ck ∧
      KeyAt crypto (uses ++ notes) (n + 1) hs'.cs.key ∧
      hs'.cs = { CipherState.initKey hs'.cs.key with nonce := 1 } ∧ hs'.messageIndex = 2 := by
  obtain ⟨n, hchain⟩ := hchained
  cases hread with
  | @opened _ _ e key nonce cipher before after he hsilent hcertifies =>
    obtain ⟨secret, ck, key₁, secret', hfirst, hin, hsecond, hin', hcs, htwo⟩ := hcertifies rfl
    have hmem {use : Use} (huse : use ∈ before ++ after) : use ∈ uses ++
        .hashed (hs.h ++ e) :: (before ++ .opened key nonce (hashWith crypto hs.h e) cipher ::
          after) := by
      rcases List.mem_append.1 huse with hbefore | hafter
      · simp [hbefore]
      · simp [hafter]
    have hnext := hchain.mono.next (hmem hin) hfirst
    exact ⟨n, hnext.next (hmem hin') hsecond, ⟨_, _, _, hnext, hmem hin', hsecond⟩, hcs, htwo⟩

/-- The closing message, and the end of the handshake. -/
theorem ends_closing (hsized : crypto.Sized) {hs : NoiseHandshake} {n : Nat}
    (hh : Handshaking crypto uses ch hs) (hrole : ch.initiator = true) (htwo : ch.messageIndex = 2)
    (hchain : Chain crypto uses (n + 2) hs.ck) (hkey : KeyAt crypto uses (n + 1) hs.cs.key)
    (hcs : hs.cs = { CipherState.initKey hs.cs.key with nonce := 1 }) (random : Option Bytes) :
    Attempt.Ends (do let reply ← tryReply crypto random; let done ← tryFinish crypto
                     pure (done, reply) : Attempt Use PeerChannel (Bool × Bytes)) ch
      fun _ ch' notes ↦ ch'.initiator = ch.initiator ∧ (sealings notes).Nodup ∧
        Phase crypto (uses ++ notes) ch' (sealings notes) := by
  have hidx : hs.messageIndex = 2 := hh.index.trans htwo
  have hkeyed : hs.cs.hasKey = true := by rw [hcs]; rfl
  have hcount : nonceExhausted hs.cs.nonce = false := by rw [hcs]; rfl
  have hnonce : hs.cs.nonce = 1 := by rw [hcs]
  have hwrite := (ends_writeClosing hsized random hidx hh.done (hh.initiator.trans hrole) hkeyed
    hcount hh.static).and (party_writeMessage random [])
  have hreply : Attempt.Ends (tryReply crypto random) ch fun r ch' notes ↦
      ∃ hs', SealsOn crypto hs.cs hs.ck hs.h hs.sPub r hs' notes ∧ Party hs r hs' ∧
        ch' = { ch with handshake := some hs', messageIndex := if r then 3 else 2 } := by
    refine .read ?_
    rw [if_pos (by rw [htwo]; decide)]
    refine .bind (ends_onHandshake hh.handshake hwrite) ?_ ?_
    · rintro ch' notes ⟨hs', rfl, hon, hparty⟩
      exact ⟨hs', hon, hparty, by rw [← htwo]; rfl⟩
    · rintro reply ch' notes ⟨hs', rfl, hon, hparty⟩
      refine .change (.pure ⟨hs', ?_, hparty, ?_⟩)
      · rw [List.append_nil]
        exact hon
      · rw [htwo]
        rfl
  refine .bind hreply ?_ ?_
  · rintro ch' notes ⟨hs', hon, hparty, rfl⟩
    obtain ⟨hslots, hnodup, -⟩ := closing_seals hchain hkey hnonce hon
    refine ⟨rfl, hnodup, .stuck hh.established (over_initiator hrole rfl) ?_⟩
    rw [hrole]
    exact hslots
  · rintro reply ch' notes ⟨hs', hon, hparty, rfl⟩
    obtain ⟨hslots, hnodup, -⟩ := closing_seals hchain hkey hnonce hon
    rw [← hrole] at hslots
    refine Attempt.Ends.map ((@ends_finish crypto (uses ++ notes)
      { ch with handshake := some hs', messageIndex := 3 } hs' (sealings notes) rfl
      (hparty.completes hidx) (hparty.initiator.trans hh.initiator) (over_last rfl)
      hh.established hslots).mono ?_)
    rintro _ ch'' notes' ⟨hnone, hinit, hphase⟩
    rw [sealings_append, hnone, List.append_nil, ← List.append_assoc]
    refine ⟨hinit, hnodup, ?_⟩
    rcases hphase with ⟨hopen, hover⟩ | ht
    · refine .stuck hopen hover fun p hp ↦ ?_
      rw [hinit]
      exact (hslots p hp).mono
    · exact .transporting ht

/-- An initiator that accepts the answer closes the handshake. -/
theorem keeps_readAnswer (hsized : crypto.Sized) (h : Disciplined crypto uses initiator ch own)
    {hs : NoiseHandshake} (hh : Handshaking crypto uses ch hs) (hnone : own = [])
    (hrole : ch.initiator = true) (hone : ch.messageIndex = 1) (random : Option Bytes)
    {message : Bytes} (hturn : weWrite ch.initiator ch.messageIndex = false)
    (hlength : message.length = handshakeMessageSize ch.messageIndex) :
    Attempt.Ends (tryReadHandshake crypto random message) ch fun _ ch' notes ↦
      Keeps crypto uses initiator own ch' notes := by
  have hcount : ch.messageIndex < handshakeMessageCount := by rw [hone]; decide
  have hidx : hs.messageIndex = 1 := hh.index.trans hone
  have hsize : message.length = 96 := by rw [hlength, hone]; rfl
  refine ends_readHandshake hh.handshake ⟨hh.established, hcount⟩ hturn hlength
    ((ends_readAnswer hsized hsize hidx hh.done (hh.initiator.trans hrole)).and
      (((unsealing_readMessage hsized message).ends hs).and (party_readMessage message))) ?_ ?_
  · rintro hs' notes ⟨-, hread, hparty⟩
    exact h.moves hread.1 rfl (.waiting hs' (hh.read_failed hread hparty) hnone hrole hone)
  · rintro hs₁ notes ⟨hanswer, hread, hparty⟩
    obtain ⟨n, hchain, hkey, hcs, htwo⟩ := chain_of_answer hanswer hh.chained
    have hh₁ : Handshaking crypto (uses ++ notes)
        { ch with handshake := some hs₁, messageIndex := ch.messageIndex + 1 } hs₁ := by
      refine ⟨hh.established, rfl, hparty.initiator.trans hh.initiator, ?_, ?_, ?_, _, hchain⟩
      · exact (hparty.done (by rw [hidx]; decide)).trans hh.done
      · rw [htwo, hone]
      · rw [hparty.sPub]
        exact hh.static
    refine (ends_closing hsized hh₁ hrole (congrArg (· + 1) hone) hchain hkey hcs random).mono ?_
    rintro _ ch' notes' ⟨hinit, hnodup, hphase⟩
    have hsealed : own ++ sealings (notes ++ notes') = sealings notes' := by
      rw [hnone, sealings_append, hread.1]
      rfl
    rw [Keeps, hsealed]
    rw [List.append_assoc] at hphase
    exact ⟨hinit.trans h.role, hphase, fun _ ↦ hnodup⟩

/-- **No call at an end seals twice under one key and nonce**, whether it fails or not. -/
theorem keeps_call (hsized : crypto.Sized) (h : Disciplined crypto uses initiator ch own)
    (c : Call) :
    Attempt.Ends (call crypto c) ch fun _ ch' notes ↦
    Keeps crypto uses initiator own ch' notes := by
  cases c with
  | openHandshake random => exact .map (keeps_openHandshake hsized h random)
  | sealBytes plain ad => exact .map (keeps_seal h plain ad)
  | unsealBytes cipher ad => exact .map (keeps_unseal h cipher ad)
  | sealDatagram senderId destId plain => exact .map (keeps_sealDatagram h senderId destId plain)
  | openDatagram senderId destId seq cipher =>
    exact .map (keeps_openDatagram h senderId destId seq cipher)
  | readHandshake random message =>
    refine .map ?_
    by_cases hturn : ch.established = false ∧ ch.messageIndex < handshakeMessageCount ∧
        weWrite ch.initiator ch.messageIndex = false ∧
        message.length = handshakeMessageSize ch.messageIndex
    swap
    · exact (ends_readHandshake_refused random message hturn).mono fun _ _ _ ↦ keeps_unmoved h
    obtain ⟨-, hcount, hours, hlength⟩ := hturn
    cases h.phase with
    | starting hs hh hnone hzero hunkeyed hck =>
      exact keeps_readOpening hsized h hh hnone hzero hunkeyed hck random hours hlength
    | waiting hs hh hnone hrole hone =>
      exact keeps_readAnswer hsized h hh hnone hrole hone random hours hlength
    | answered hs hh hown hrole htwo =>
      exact keeps_readClosing hsized h hh hown hrole htwo random hours hlength
    | stuck _ hover => exact absurd ⟨hcount, hours⟩ hover.2
    | transporting ht => exact absurd ⟨hcount, hours⟩ ht.spent.2

/-! ### At the last value -/

/-- At its last value a counter refuses what it counts, and nothing is used or changed; short of it,
the counters of a transport never go back. -/
structure RefusesLast (crypto : Crypto) (ch : PeerChannel) : Prop where
  stream : nonceExhausted ch.send.nonce = true →
    ∀ plain ad, call crypto (.sealBytes plain ad) ch = ⟨none, ch, []⟩
  datagram : nonceExhausted ch.udpSeq = true →
    ∀ senderId destId plain, call crypto (.sealDatagram senderId destId plain) ch = ⟨none, ch, []⟩
  handshake : ∀ hs, ch.handshake = some hs → hs.cs.hasKey = true →
    nonceExhausted hs.cs.nonce = true → ∀ plain, tryEncryptAndHash crypto plain hs = ⟨none, hs, []⟩
  forward : ch.established = true → ∀ c, ch.send.nonce ≤ (call crypto c ch).state.send.nonce ∧
    ch.udpSeq ≤ (call crypto c ch).state.udpSeq

theorem encrypt_forward {cs cs' : CipherState} {ad plain out : Bytes}
    (h : cs.encrypt crypto ad plain = some (out, cs')) : cs.nonce ≤ cs'.nonce := by
  rw [CipherState.encrypt] at h
  split at h
  · cases h
    exact UInt64.le_refl _
  · split at h
    · cases h
    · rename_i hcount
      cases h
      exact UInt64.le_of_lt (lt_nonce_succ (by simpa using hcount) (UInt64.le_refl _))

/-- The counters of a transport never go back. -/
theorem Transporting.forward (ht : Transporting crypto uses ch own) (c : Call) :
    Attempt.Ends (call crypto c) ch fun _ ch' _ ↦
      ch.send.nonce ≤ ch'.send.nonce ∧ ch.udpSeq ≤ ch'.udpSeq := by
  have hsame : ch.send.nonce ≤ ch.send.nonce ∧ ch.udpSeq ≤ ch.udpSeq :=
    ⟨UInt64.le_refl _, UInt64.le_refl _⟩
  have hunmoved (r : Bool) (ch' : PeerChannel) (notes : List Use) (h : Unmoved ch r ch' notes) :
      ch.send.nonce ≤ ch'.send.nonce ∧ ch.udpSeq ≤ ch'.udpSeq := by
    rw [h.2.1]
    exact hsame
  cases c with
  | openHandshake random =>
    exact .map ((ends_openHandshake_refused random ht.spent.1).mono hunmoved)
  | readHandshake random message =>
    refine .map ((ends_readHandshake_refused random message fun hturn ↦ ?_).mono hunmoved)
    exact ht.spent.2 ⟨hturn.2.1, hturn.2.2.1⟩
  | sealBytes plain ad =>
    refine .map ?_
    rw [Attempt.Ends, trySeal]
    cases hseal : ch.sealBytes crypto plain ad with
    | none => exact hsame
    | some p =>
      rw [sealBytes, if_neg (not_not_intro ht.established)] at hseal
      split at hseal
      · cases hseal
      · rename_i hencrypt
        cases hseal
        exact ⟨encrypt_forward hencrypt, UInt64.le_refl _⟩
  | unsealBytes cipher ad =>
    refine .map ?_
    rw [Attempt.Ends, tryUnseal]
    cases hunseal : ch.unsealBytes crypto cipher ad with
    | none => exact hsame
    | some p =>
      dsimp only
      rw [(unsealBytes_eq hunseal).2.2]
      exact hsame
  | sealDatagram senderId destId plain =>
    refine .map ?_
    rw [Attempt.Ends, trySealDatagram]
    cases hseal : ch.sealDatagram crypto senderId destId plain with
    | none => exact hsame
    | some p =>
      rw [sealDatagram] at hseal
      split at hseal
      · cases hseal
      · rename_i hgo
        cases hseal
        have hcount : nonceExhausted ch.udpSeq = false := by
          by_contra hlast
          exact hgo (.inr (by simpa using hlast))
        exact ⟨UInt64.le_refl _, UInt64.le_of_lt (lt_nonce_succ hcount (UInt64.le_refl _))⟩
  | openDatagram senderId destId seq cipher =>
    refine .map ?_
    rw [Attempt.Ends, tryOpenDatagram]
    cases hopen : ch.openDatagram crypto senderId destId seq cipher with
    | none => exact hsame
    | some p =>
      dsimp only
      rw [(openDatagram_eq hopen).2]
      exact hsame

theorem Disciplined.refusesLast (h : Disciplined crypto uses initiator ch own) :
    RefusesLast crypto ch where
  stream hlast plain ad := by
    have hnone : ch.sealBytes crypto plain ad = none := by
      rw [sealBytes]
      cases hest : ch.established with
      | false => exact if_pos Bool.false_ne_true
      | true =>
        have ht := h.phase.transporting_of hest
        rw [if_neg (not_not_intro rfl), CipherState.encrypt, if_neg (not_not_intro ht.keyed),
          if_pos hlast]
    have htry : trySeal crypto plain ad ch = ⟨none, ch, []⟩ := by rw [trySeal, hnone]
    rw [call, Attempt.bind_of_none (by rw [htry]), htry]
  datagram hlast senderId destId plain := by
    have hnone : ch.sealDatagram crypto senderId destId plain = none := by
      rw [sealDatagram, if_pos (.inr hlast)]
    have htry : trySealDatagram crypto senderId destId plain ch = ⟨none, ch, []⟩ := by
      rw [trySealDatagram, hnone]
    rw [call, Attempt.bind_of_none (by rw [htry]), htry]
  handshake hs _ hkey hlast plain := by
    rw [tryEncryptAndHash, CipherState.encrypt, if_neg (not_not_intro hkey), if_pos hlast]
  forward hest c := (h.phase.transporting_of hest).forward c

end PeerChannel

/-! ## Both ends -/

namespace Channels

variable {s s' : Channels}

/-- What one end has sealed under. -/
def sealedBy (log : List (Bool × Use)) (side : Bool) : List (Bytes × Bytes) :=
  log.filterMap fun entry ↦ if entry.1 = side then entry.2.sealing else none

theorem sealedBy_append (log : List (Bool × Use)) (caller side : Bool) (notes : List Use) :
    sealedBy (log ++ notes.map (caller, ·)) side =
      sealedBy log side ++ if caller = side then sealings notes else [] := by
  rw [sealedBy, List.filterMap_append, List.filterMap_map]
  congr 1
  by_cases hside : caller = side
  · rw [if_pos hside, sealings]
    exact List.filterMap_congr fun use _ ↦ if_pos hside
  · rw [if_neg hside]
    exact List.filterMap_eq_nil_iff.2 fun use _ ↦ if_neg hside

/-- Everything that was sealed was sealed by one end or the other. -/
theorem sealings_perm (log : List (Bool × Use)) :
    (sealings (log.map Prod.snd)).Perm (sealedBy log true ++ sealedBy log false) := by
  induction log with
  | nil => exact .nil
  | cons entry log ih =>
    obtain ⟨side, use⟩ := entry
    have hcons (side' : Bool) : sealedBy ((side, use) :: log) side' =
        (if side = side' then use.sealing.toList else []) ++ sealedBy log side' := by
      rw [sealedBy, List.filterMap_cons]
      by_cases hside : side = side'
      · rw [if_pos hside, if_pos hside]
        cases use.sealing <;> rfl
      · rw [if_neg hside, if_neg hside]
        rfl
    have hall : sealings (((side, use) :: log).map Prod.snd) =
        use.sealing.toList ++ sealings (log.map Prod.snd) := by
      rw [List.map_cons, sealings, List.filterMap_cons]
      cases use.sealing <;> rfl
    rw [hall, hcons, hcons]
    cases side with
    | true =>
      rw [if_pos rfl, if_neg Bool.noConfusion, List.nil_append, List.append_assoc]
      exact ih.append_left _
    | false =>
      rw [if_neg Bool.noConfusion, if_pos rfl, List.nil_append]
      exact (ih.append_left _).trans (List.perm_append_comm_assoc _ _ _)

/-- Each end keeps the discipline. -/
def Kept (crypto : Crypto) (s : Channels) : Prop :=
  ∀ side, PeerChannel.Disciplined crypto s.uses side (s.channel side) (sealedBy s.log side)

theorem kept_start (keys : Bool → Bytes × Bytes) (prologue : Bool → Bytes)
    (hkeys : ∀ side, (keys side).2.length = dhLen) : Kept crypto (.start crypto keys prologue) := by
  intro side
  refine ⟨rfl, .starting _ ⟨rfl, rfl, rfl, rfl, rfl, hkeys side, 0, .start⟩ ?_ rfl ⟨rfl, rfl⟩ rfl,
    fun _ ↦ ?_⟩
  · cases side <;> rfl
  · cases side <;> exact List.nodup_nil

theorem kept_step (hsized : crypto.Sized) (h : Kept crypto s) {i : Bool × PeerChannel.Call}
    (hstep : s.step crypto i = some s') : Kept crypto s' := by
  obtain ⟨caller, c⟩ := i
  have huses := uses_step hstep
  cases hstep
  intro side
  rw [huses]
  dsimp only
  rw [sealedBy_append]
  by_cases hside : caller = side
  · subst hside
    rw [if_pos rfl, Function.update_self]
    exact PeerChannel.keeps_call hsized (h caller) c
  · rw [if_neg hside, List.append_nil, Function.update_of_ne (Ne.symm hside)]
    exact (h side).mono

theorem Kept.nodup (h : Kept crypto s) (hkeys : DistinctKeys crypto s.uses) :
    (sealings s.uses).Nodup := by
  refine (sealings_perm s.log).nodup_iff.2 (List.nodup_append.2
    ⟨(h true).apart hkeys, (h false).apart hkeys, ?_⟩)
  rintro p hp q hq rfl
  have hinitiator := (h true).phase.maySeal hp
  have hresponder := (h false).phase.maySeal hq
  rw [(h true).role] at hinitiator
  rw [(h false).role] at hresponder
  exact hkeys.maySeal_apart hinitiator hresponder

end Channels

/-- **No nonce is used twice.**  Whatever is asked of the two ends of a connection, in whatever
order, and whichever calls fail half-way: as long as different derivations give different keys, no
two encryptions were made under one key and nonce, and at either end a counter that has come to its
last value refuses to encrypt, and none goes back. -/
theorem nonce_discipline (hsized : crypto.Sized) {keys : Bool → Bytes × Bytes}
    {prologue : Bool → Bytes} {s : Channels} (hkeys : ∀ side, (keys side).2.length = dhLen)
    (h : Reaches (Channels.step crypto) always (.start crypto keys prologue) s)
    (hdistinct : DistinctKeys crypto s.uses) :
    (sealings s.uses).Nodup ∧ ∀ side, (s.channel side).RefusesLast crypto := by
  have hkept : s.Kept crypto := h.invariant (Channels.kept_start keys prologue hkeys)
    fun _ _ _ hs _ hstep ↦ Channels.kept_step hsized hs hstep
  exact ⟨hkept.nodup hdistinct, fun side ↦ (hkept side).refusesLast⟩

/-! ### A conversation -/

/-- The keys that come of the derivations, each with where it came from. -/
def outputs (crypto : Crypto) (uses : List Use) : List ((Bytes × Bytes × Nat) × Bytes) :=
  uses.flatMap fun
    | .derived salt ikm =>
      (crypto.hkdfSha256 salt ikm 2).zipIdx.map fun output ↦ ((salt, ikm, output.2), output.1)
    | .hashed _ | .sealed _ _ _ _ | .opened _ _ _ _ => []

theorem mem_outputs {salt ikm key : Bytes} {i : Nat} (hin : .derived salt ikm ∈ uses)
    (h : Derives crypto salt ikm i key) : ((salt, ikm, i), key) ∈ outputs crypto uses :=
  List.mem_flatMap.2 ⟨_, hin, List.mem_map.2 ⟨(key, i), List.mem_zipIdx_iff_getElem?.2 h, rfl⟩⟩

theorem distinctKeys_of_outputs
    (h : ∀ a ∈ outputs crypto uses, a.2 ≠ protocolName ∧
      ∀ b ∈ outputs crypto uses, a.2 = b.2 → a.1 = b.1) : DistinctKeys crypto uses where
  apart salt ikm i salt' ikm' i' key hin hin' hderives hderives' := by
    have hsame := (h _ (mem_outputs hin hderives)).2 _ (mem_outputs hin' hderives') rfl
    simpa using hsame
  fresh salt ikm i hin hderives := (h _ (mem_outputs hin hderives)).1 rfl

/-- Two ends with one prologue shake hands, the initiator sealing too early at first, and then they
talk. -/
def conversation : List (Bool × PeerChannel.Call) :=
  let after (s : Channels) (i : Bool × PeerChannel.Call) : Channels :=
    (s.step rollingCrypto i).getD s
  let reply (s : Channels) (i : Bool × PeerChannel.Call) : Bytes :=
    (PeerChannel.call rollingCrypto i.2 (s.channel i.1)).result.elim [] (·.2)
  let s₀ := Channels.start rollingCrypto strangerKeys fun _ ↦ strangerPrologue true
  let opening := (true, .openHandshake (some [3]))
  let s₁ := after s₀ opening
  let answering := (false, .readHandshake (some [4]) (reply s₀ opening))
  let s₂ := after s₁ answering
  let closing := (true, .readHandshake none (reply s₁ answering))
  let finishing := (false, .readHandshake none (reply s₂ closing))
  [opening, answering, (true, .sealBytes [5] []), closing, finishing, (true, .sealBytes [5] []),
    (true, .sealBytes [6] []), (false, .sealBytes [7] []), (true, .sealDatagram [1] [2] [8]),
    (false, .sealDatagram [2] [1] [9])]

/-- Four encryptions in the handshake and five after it, under nine keys and nonces. -/
theorem nonce_discipline_conversation : ∃ s,
    Reaches (Channels.step rollingCrypto) always
        (.start rollingCrypto strangerKeys fun _ ↦ strangerPrologue true) s ∧
      (sealings s.uses).length = 9 ∧ (sealings s.uses).Nodup ∧
      ∀ side, (s.channel side).RefusesLast rollingCrypto := by
  obtain ⟨s, h, houtputs, hlength⟩ := exists_reaches (Channels.step rollingCrypto) always
    (.start rollingCrypto strangerKeys fun _ ↦ strangerPrologue true)
    (fun s ↦ (∀ a ∈ outputs rollingCrypto s.uses, a.2 ≠ protocolName ∧
        ∀ b ∈ outputs rollingCrypto s.uses, a.2 = b.2 → a.1 = b.1) ∧
      (sealings s.uses).length = 9) conversation (by decide +kernel) (meets_always _ _)
  exact ⟨s, h, hlength,
    nonce_discipline rollingCrypto_sized (by decide) h (distinctKeys_of_outputs houtputs)⟩

end EosMesh
