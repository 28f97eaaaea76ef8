import EosMesh.Lib.Run
import EosMesh.Net.Exchange

/-!
# Channels fail closed

The prologue, which names the wire version and the title, is the first thing either end hashes, and
every encryption is bound to the hash at that point.  So two ends with different prologues never
open anything of each other's, and neither is ever established; and a channel that is not
established carries nothing.

The hash and the cipher are taken for what they are meant to be, in a run: no two inputs that were
hashed in it have one digest (`CollisionFree`), and what is opened in it was sealed in it before,
under the same key, nonce and associated data (`Ideal`).  Both are about what was noted in the run.

* `meshPrologue_inj` says that prologues differ when any of the three ids does: each is written
  behind its length.
* `WaitingHash` and `AnswerHash` say what an initiator expects an answer to be bound to, and what a
  responder binds one to.  `prologue_of_answerHash` is the point: they meet only if the prologues
  agree.
* `Waiting` is an initiator, and `Answering` a responder, that has opened nothing.  `waiting_call`
  and `answering_call` go through whatever may be asked of either; a call that fails leaves more
  than it found, so what failed calls have hashed is in the invariant too.
* `Mismatched` is the invariant of two channels with different prologues, whatever reaches them.
* `KeepsKeys` and `StaysEstablished` are about one channel: keys change only where it becomes
  established, and then it stays so.

`channels_fail_closed` puts it together.
-/

set_option autoImplicit false

namespace EosMesh

open Lib NoiseHandshake

/-! ## The prologue -/

/-- An id that its length field can count. -/
def Countable (id : Bytes) : Prop := id.length < 2 ^ 32

theorem canonicalField_append_inj {a b rest rest' : Bytes} (ha : Countable a) (hb : Countable b)
    (h : canonicalField a ++ rest = canonicalField b ++ rest') : a = b ∧ rest = rest' := by
  rw [canonicalField, canonicalField, List.append_assoc, List.append_assoc] at h
  obtain ⟨hlength, hrest⟩ := List.append_inj h (by rw [length_beBytes, length_beBytes])
  have hsame : a.length = b.length := beBytes_inj ha hb hlength
  exact List.append_inj hrest hsame

/-- **The prologue is injective in the three ids.** -/
theorem meshPrologue_inj
    {productId sandboxId deploymentId productId' sandboxId' deploymentId' : Bytes}
    (hproduct : Countable productId ∧ Countable productId')
    (hsandbox : Countable sandboxId ∧ Countable sandboxId')
    (hdeployment : Countable deploymentId ∧ Countable deploymentId')
    (h : meshPrologue productId sandboxId deploymentId =
      meshPrologue productId' sandboxId' deploymentId') :
    productId = productId' ∧ sandboxId = sandboxId' ∧ deploymentId = deploymentId' := by
  simp only [meshPrologue, List.append_assoc] at h
  have hids := List.append_cancel_left (List.append_cancel_left h)
  obtain ⟨hp, hrest⟩ := canonicalField_append_inj hproduct.1 hproduct.2 hids
  obtain ⟨hs, hrest⟩ := canonicalField_append_inj hsandbox.1 hsandbox.2 hrest
  have hlast := congrArg (· ++ ([] : Bytes)) hrest
  obtain ⟨hd, -⟩ := canonicalField_append_inj hdeployment.1 hdeployment.2 hlast
  exact ⟨hp, hs, hd⟩

/-! ## The idealized primitives -/

/-- No two of the inputs hashed have one digest. -/
def CollisionFree (crypto : Crypto) (uses : List Use) : Prop :=
  ∀ x y, .hashed x ∈ uses → .hashed y ∈ uses → crypto.sha256 x = crypto.sha256 y → x = y

/-- A decryption only accepts what was encrypted before, under the same key, nonce and associated
data. -/
def Ideal (uses : List Use) : Prop :=
  ∀ before key nonce ad cipher after, uses = before ++ .opened key nonce ad cipher :: after →
    ∃ plain, .sealed key nonce ad plain ∈ before

variable {crypto : Crypto} {uses notes : List Use}

theorem CollisionFree.of_append (h : CollisionFree crypto (uses ++ notes)) :
    CollisionFree crypto uses :=
  fun x y hx hy ↦ h x y (List.mem_append_left _ hx) (List.mem_append_left _ hy)

theorem Ideal.of_append (h : Ideal (uses ++ notes)) : Ideal uses := by
  rintro before key nonce ad cipher after rfl
  exact h before key nonce ad cipher (after ++ notes) (by simp)

theorem CollisionFree.hashWith_inj (h : CollisionFree crypto uses)
    {g g' e e' : Bytes} (hg : g.length = g'.length) (hge : .hashed (g ++ e) ∈ uses)
    (hge' : .hashed (g' ++ e') ∈ uses) (heq : hashWith crypto g e = hashWith crypto g' e') :
    g = g' ∧ e = e' :=
  List.append_inj (h _ _ hge hge' heq) hg

/-- What is opened after nothing but silent uses was sealed before them. -/
theorem Ideal.sealed_before {key nonce ad cipher : Bytes} {rest : List Use}
    (h : Ideal (uses ++ (notes ++ .opened key nonce ad cipher :: rest)))
    (hsilent : ∀ use ∈ notes, use.Silent) :
    ∃ plain, .sealed key nonce ad plain ∈ uses := by
  obtain ⟨plain, hplain⟩ := h (uses ++ notes) key nonce ad cipher rest (by simp)
  rcases List.mem_append.1 hplain with hbefore | hnote
  · exact ⟨plain, hbefore⟩
  · exact (hsilent _ hnote).elim

/-! ## Two channels with different prologues -/

/-- The hash of a handshake that has mixed in its prologue only. -/
def prologueHash (crypto : Crypto) (prologue : Bytes) : Bytes :=
  hashWith crypto protocolName prologue

/-- The hash after the opening message. -/
def openingHash (crypto : Crypto) (prologue e : Bytes) : Bytes :=
  hashWith crypto (hashWith crypto (prologueHash crypto prologue) e) []

/-- A handshake with this prologue hashed the opening message with this ephemeral key. -/
structure HashedOpening (crypto : Crypto) (uses : List Use) (prologue e : Bytes) : Prop where
  key : .hashed (prologueHash crypto prologue ++ e) ∈ uses
  payload : .hashed (hashWith crypto (prologueHash crypto prologue) e ++ []) ∈ uses

/-- The hash of an initiator that waits for its answer: it has hashed its opening message, and maybe
the ephemeral keys of answers it then refused. -/
def WaitingHash (crypto : Crypto) (uses : List Use) (prologue h : Bytes) : Prop :=
  (∃ e, HashedOpening crypto uses prologue e ∧ h = openingHash crypto prologue e) ∨
    ∃ g e, g.length = hashLen ∧ e.length = dhLen ∧ .hashed (g ++ e) ∈ uses ∧ h = hashWith crypto g e

/-- What an answer's encryptions are bound to: the hash of the opening message and an ephemeral key,
or a hash that a static key went into. -/
def AnswerHash (crypto : Crypto) (uses : List Use) (prologue ad : Bytes) : Prop :=
  (∃ e e', HashedOpening crypto uses prologue e ∧
    .hashed (openingHash crypto prologue e ++ e') ∈ uses ∧
    ad = hashWith crypto (openingHash crypto prologue e) e') ∨
  ∃ x, x.length = hashLen + (dhLen + aeadTagLen) ∧ .hashed x ∈ uses ∧ ad = crypto.sha256 x

theorem length_hashWith (hsized : crypto.Sized) (h data : Bytes) :
    (hashWith crypto h data).length = hashLen := hsized.digest _

/-- **Nothing an answer is bound to is what the initiator expects**, unless the prologues agree. -/
theorem prologue_of_answerHash (hsized : crypto.Sized) (hfree : CollisionFree crypto uses)
    {prologue prologue' h e : Bytes} (hprologue : .hashed (protocolName ++ prologue) ∈ uses)
    (hprologue' : .hashed (protocolName ++ prologue') ∈ uses)
    (hlength : h.length = hashLen) (he : e.length = dhLen) (hmixed : .hashed (h ++ e) ∈ uses)
    (hwaiting : WaitingHash crypto uses prologue h)
    (hanswer : AnswerHash crypto uses prologue' (hashWith crypto h e)) : prologue = prologue' := by
  have hlen := length_hashWith hsized
  rcases hanswer with ⟨e₁, e₂, hopening, hin, had⟩ | ⟨x, hx, hin, had⟩
  · obtain ⟨rfl, rfl⟩ := hfree.hashWith_inj (hlength.trans (hlen _ _).symm) hmixed hin had
    rcases hwaiting with ⟨e₀, hown, hsame⟩ | ⟨g, e₀, hg, he₀, hown, hsame⟩
    · obtain ⟨hsame, -⟩ := hfree.hashWith_inj ((hlen _ _).trans (hlen _ _).symm)
        hopening.payload hown.payload hsame
      obtain ⟨hsame, -⟩ := hfree.hashWith_inj ((hlen _ _).trans (hlen _ _).symm)
        hopening.key hown.key hsame
      exact (hfree.hashWith_inj rfl hprologue' hprologue hsame).2.symm
    · obtain ⟨-, hempty⟩ := hfree.hashWith_inj ((hlen _ _).trans hg.symm) hopening.payload
        hown hsame
      rw [← hempty] at he₀
      cases he₀
  · have hinput := hfree _ _ hmixed hin had
    rw [← hinput, List.length_append, hlength, he] at hx
    cases hx

/-- An initiator with this prologue before it has opened anything. -/
structure Waiting (crypto : Crypto) (uses : List Use) (prologue : Bytes) (ch : PeerChannel) :
    Prop where
  established : ch.established = false
  role : ch.initiator = true
  state : ∃ hs, ch.handshake = some hs ∧ hs.initiator = true ∧ hs.done = false ∧
    hs.messageIndex = ch.messageIndex ∧ hs.h.length = hashLen ∧
    ((ch.messageIndex = 0 ∧ hs.cs.hasKey = false ∧ hs.haveE = false ∧
        hs.h = prologueHash crypto prologue) ∨
      (ch.messageIndex = 1 ∧ WaitingHash crypto uses prologue hs.h))

/-- A responder with this prologue before it has opened anything.  One that failed to answer has
spoken out of turn for good. -/
structure Answering (crypto : Crypto) (prologue : Bytes) (ch : PeerChannel) : Prop where
  established : ch.established = false
  role : ch.initiator = false
  state : ch.messageIndex = 1 ∨ ∃ hs, ch.handshake = some hs ∧ hs.initiator = false ∧
    hs.done = false ∧ hs.messageIndex = ch.messageIndex ∧
    ((ch.messageIndex = 0 ∧ hs.cs.hasKey = false ∧ hs.haveE = false ∧ hs.sPub.length = dhLen ∧
        hs.h = prologueHash crypto prologue) ∨
      (ch.messageIndex = 2 ∧ hs.cs.hasKey = true ∧ hs.cs.nonce = 1))

/-- Nothing was opened, and nothing sealed but a responder's answer. -/
def OnlyAnswers (crypto : Crypto) (prologue : Bytes) (uses : List Use) : Prop :=
  ∀ use ∈ uses, match use with
    | .hashed _ | .derived _ _ => True
    | .sealed _ nonce ad _ => nonce = buildNonce 0 ∧ AnswerHash crypto uses prologue ad
    | .opened _ _ _ _ => False

/-- Two channels with the prologues `prologue true` and `prologue false`, neither of which has
opened anything. -/
structure Mismatched (crypto : Crypto) (prologue : Bool → Bytes) (s : Channels) : Prop where
  hashed : ∀ side, .hashed (protocolName ++ prologue side) ∈ s.uses
  initiator : Waiting crypto s.uses (prologue true) (s.channel true)
  responder : Answering crypto (prologue false) (s.channel false)
  sealed : OnlyAnswers crypto (prologue false) s.uses

section Monotone

variable {prologue h ad e : Bytes}

theorem HashedOpening.mono (hopening : HashedOpening crypto uses prologue e) :
    HashedOpening crypto (uses ++ notes) prologue e :=
  ⟨List.mem_append_left _ hopening.key, List.mem_append_left _ hopening.payload⟩

theorem WaitingHash.mono (hwaiting : WaitingHash crypto uses prologue h) :
    WaitingHash crypto (uses ++ notes) prologue h := by
  rcases hwaiting with ⟨e, hopening, hsame⟩ | ⟨g, e, hg, he, hin, hsame⟩
  · exact .inl ⟨e, hopening.mono, hsame⟩
  · exact .inr ⟨g, e, hg, he, List.mem_append_left _ hin, hsame⟩

theorem AnswerHash.mono (hanswer : AnswerHash crypto uses prologue ad) :
    AnswerHash crypto (uses ++ notes) prologue ad := by
  rcases hanswer with ⟨e, e', hopening, hin, hsame⟩ | ⟨x, hx, hin, hsame⟩
  · exact .inl ⟨e, e', hopening.mono, List.mem_append_left _ hin, hsame⟩
  · exact .inr ⟨x, hx, List.mem_append_left _ hin, hsame⟩

theorem Waiting.mono {ch : PeerChannel} (hwaiting : Waiting crypto uses prologue ch) :
    Waiting crypto (uses ++ notes) prologue ch := by
  obtain ⟨hest, hrole, hs, hhs, hinit, hdone, hindex, hlength, hstate⟩ := hwaiting
  refine ⟨hest, hrole, hs, hhs, hinit, hdone, hindex, hlength, ?_⟩
  exact hstate.imp_right fun h ↦ ⟨h.1, h.2.mono⟩

/-- Uses that seal nothing new keep the rest as it was. -/
theorem OnlyAnswers.append (h : OnlyAnswers crypto prologue uses)
    (hnotes : ∀ use ∈ notes, match use with
      | .hashed _ | .derived _ _ => True
      | .sealed _ nonce ad _ => nonce = buildNonce 0 ∧ AnswerHash crypto (uses ++ notes) prologue ad
      | .opened _ _ _ _ => False) : OnlyAnswers crypto prologue (uses ++ notes) := by
  intro use huse
  rcases List.mem_append.1 huse with hold | hnew
  · have hwas := h use hold
    cases use with
    | hashed _ => trivial
    | derived _ _ => trivial
    | sealed key nonce ad plain => exact ⟨hwas.1, hwas.2.mono⟩
    | opened _ _ _ _ => exact hwas
  · exact hnotes use hnew

theorem OnlyAnswers.append_silent (h : OnlyAnswers crypto prologue uses)
    (hsilent : ∀ use ∈ notes, use.Silent) : OnlyAnswers crypto prologue (uses ++ notes) := by
  refine h.append fun use huse ↦ ?_
  have hquiet := hsilent use huse
  cases use with
  | hashed _ => trivial
  | derived _ _ => trivial
  | sealed _ _ _ _ => exact hquiet.elim
  | opened _ _ _ _ => exact hquiet.elim

end Monotone

/-! ### One call -/

section Steps

variable {ch : PeerChannel} {own other : Bytes}

/-- What an initiator may do when it is given anything but what it could open. -/
def StaysWaiting (crypto : Crypto) (uses : List Use) (own : Bytes) (ch : PeerChannel)
    (notes : List Use) : Prop :=
  Ideal (uses ++ notes) → CollisionFree crypto (uses ++ notes) →
    Waiting crypto (uses ++ notes) own ch ∧ ∀ use ∈ notes, use.Silent

theorem staysWaiting_unmoved (h : Waiting crypto uses own ch) {r : Bool} {ch' : PeerChannel}
    (hunmoved : PeerChannel.Unmoved ch r ch' notes) : StaysWaiting crypto uses own ch' notes := by
  obtain ⟨-, rfl, rfl⟩ := hunmoved
  exact fun _ _ ↦ ⟨h.mono, List.forall_mem_nil _⟩

/-- The initiator's opening message. -/
theorem waiting_open (hsized : crypto.Sized) (h : Waiting crypto uses own ch)
    (random : Option Bytes) :
    Attempt.Ends (PeerChannel.tryOpenHandshake crypto random) ch fun _ ch' notes ↦
      StaysWaiting crypto uses own ch' notes := by
  by_cases hzero : ch.messageIndex = 0
  · obtain ⟨hs, hhs, hinit, hdone, hindex, hlength, ⟨-, hkey, hfresh, hhash⟩ | ⟨hone, -⟩⟩ := h.state
    · refine (PeerChannel.ends_openHandshake hhs ⟨h.role, hzero⟩
        ((ends_writeOpening hsized random (hindex.trans hzero) hdone hinit hkey hfresh).and
          (party_writeMessage random []))).mono ?_
      rintro r ch' notes ⟨hs', ⟨⟨rfl, rfl, rfl⟩ | ⟨rfl, e, he, rfl, hh, hcs, hck, hidx⟩, hparty⟩,
        rfl⟩
      · intro _ _
        refine ⟨⟨h.established, h.role, hs', rfl, hinit, hdone, hindex.trans hzero, hlength,
          .inl ⟨rfl, hkey, hfresh, hhash⟩⟩, List.forall_mem_nil _⟩
      · intro _ _
        have hopening : HashedOpening crypto (uses ++ [.hashed (hs.h ++ e),
            .hashed (hashWith crypto hs.h e ++ [])]) own e := by
          rw [hhash]
          exact ⟨by simp, by simp⟩
        have hnew : hs'.h = openingHash crypto own e := by rw [hh, hhash]; rfl
        have hdone' : hs'.done = false :=
          (hparty.done (by rw [hindex, hzero]; nofun)).trans hdone
        refine ⟨⟨h.established, h.role, hs', rfl, hparty.initiator.trans hinit, hdone', hidx, ?_,
          .inr ⟨rfl, .inl ⟨e, hopening, hnew⟩⟩⟩, by simp [Use.Silent]⟩
        rw [hh]
        exact length_hashWith hsized _ _
    · rw [hzero] at hone
      cases hone
  · refine (PeerChannel.ends_openHandshake_refused random fun hturn ↦ hzero hturn.2).mono ?_
    exact fun _ _ _ ↦ staysWaiting_unmoved h

/-- **A waiting initiator opens nothing** that a responder with another prologue has sealed. -/
theorem waiting_read (hsized : crypto.Sized) (hne : own ≠ other)
    (hown : .hashed (protocolName ++ own) ∈ uses) (hother : .hashed (protocolName ++ other) ∈ uses)
    (hanswers : OnlyAnswers crypto other uses) (h : Waiting crypto uses own ch)
    (random : Option Bytes) (message : Bytes) :
    Attempt.Ends (PeerChannel.tryReadHandshake crypto random message) ch fun _ ch' notes ↦
      StaysWaiting crypto uses own ch' notes := by
  by_cases hturn : ch.established = false ∧ ch.messageIndex < handshakeMessageCount ∧
      weWrite ch.initiator ch.messageIndex = false ∧
      message.length = handshakeMessageSize ch.messageIndex
  · obtain ⟨hs, hhs, hinit, hdone, hindex, hlength, ⟨hzero, -⟩ | ⟨hone, hwaiting⟩⟩ := h.state
    · have hours := hturn.2.2.1
      rw [hzero, h.role] at hours
      cases hours
    · have hsize : message.length = 96 := by rw [hturn.2.2.2, hone]; rfl
      -- Whatever is opened was sealed before, by an answer to another prologue.
      have hopened {e key nonce cipher : Bytes} {before after : List Use} (he : e.length = dhLen)
          (hsilent : ∀ use ∈ before, use.Silent) (hideal : Ideal (uses ++ (.hashed (hs.h ++ e) ::
            (before ++ .opened key nonce (hashWith crypto hs.h e) cipher :: after))))
          (hfree : CollisionFree crypto (uses ++ (.hashed (hs.h ++ e) ::
            (before ++ .opened key nonce (hashWith crypto hs.h e) cipher :: after)))) : False := by
        have hquiet : ∀ use ∈ Use.hashed (hs.h ++ e) :: before, use.Silent := by
          simpa [Use.Silent] using hsilent
        obtain ⟨plain, hsealed⟩ := Ideal.sealed_before (by simpa using hideal) hquiet
        have hanswer := (hanswers _ hsealed).2
        exact hne (prologue_of_answerHash hsized hfree (List.mem_append_left _ hown)
          (List.mem_append_left _ hother) hlength he (by simp) hwaiting.mono hanswer.mono)
      refine PeerChannel.ends_readHandshake hhs ⟨hturn.1, hturn.2.1⟩ hturn.2.2.1 hturn.2.2.2
        ((ends_readAnswer hsized hsize (hindex.trans hone) hdone hinit).and
          (party_readMessage message)) ?_ ?_
      · rintro hs' notes ⟨hread, hparty⟩ hideal hfree
        cases hread with
        | @refused _ e notes he hhash hsilent =>
          refine ⟨⟨h.established, h.role, hs', rfl, hparty.initiator.trans hinit, ?_,
            hparty.messageIndex.trans hindex, ?_, .inr ⟨hone, .inr ⟨hs.h, e, hlength, he, ?_,
              hhash⟩⟩⟩, ?_⟩
          · exact (hparty.done (by rw [hindex, hone]; simp)).trans hdone
          · rw [hhash]
            exact length_hashWith hsized _ _
          · simp
          · simpa [Use.Silent] using hsilent
        | opened he hsilent => exact (hopened he hsilent hideal hfree).elim
      · rintro hs' notes ⟨hread, -⟩ hideal hfree
        cases hread with
        | opened he hsilent =>
          rw [← List.append_assoc] at hideal hfree
          exact (hopened he hsilent hideal.of_append hfree.of_append).elim
  · exact (PeerChannel.ends_readHandshake_refused random message hturn).mono fun _ _ _ ↦
      staysWaiting_unmoved h

/-- The initiator, whatever is asked of it. -/
theorem waiting_call (hsized : crypto.Sized) (hne : own ≠ other)
    (hown : .hashed (protocolName ++ own) ∈ uses) (hother : .hashed (protocolName ++ other) ∈ uses)
    (hanswers : OnlyAnswers crypto other uses) (h : Waiting crypto uses own ch)
    (c : PeerChannel.Call) :
    Attempt.Ends (PeerChannel.call crypto c) ch fun _ ch' notes ↦
      StaysWaiting crypto uses own ch' notes := by
  cases c with
  | openHandshake random => exact .map (waiting_open hsized h random)
  | readHandshake random message =>
    exact .map (waiting_read hsized hne hown hother hanswers h random message)
  | _ =>
    exact Attempt.Ends.mono (PeerChannel.ends_transport h.established trivial) fun _ _ _ ↦
      staysWaiting_unmoved h

/-- What a responder may do: answer, and open nothing. -/
def StaysAnswering (crypto : Crypto) (uses : List Use) (own : Bytes) (ch : PeerChannel)
    (notes : List Use) : Prop :=
  Ideal (uses ++ notes) → Answering crypto own ch ∧ OnlyAnswers crypto own (uses ++ notes)

theorem staysAnswering_unmoved (h : Answering crypto own ch)
    (hanswers : OnlyAnswers crypto own uses)
    {r : Bool} {ch' : PeerChannel} (hunmoved : PeerChannel.Unmoved ch r ch' notes) :
    StaysAnswering crypto uses own ch' notes := by
  obtain ⟨-, rfl, rfl⟩ := hunmoved
  exact fun _ ↦ ⟨h, hanswers.append_silent (List.forall_mem_nil _)⟩

/-- From the static key on, a message seals under nonce zero, bound to the hash it started with or
to one the static key went into. -/
theorem sealsOn_uses {key ck h sPub : Bytes} {hs' : NoiseHandshake} {r : Bool}
    (hh : h.length = hashLen) (hon : SealsOn crypto
    (CipherState.initKey key) ck h sPub r hs' notes) :
    ∀ use ∈ notes, use.Silent ∨ ∃ key ad plain, use = .sealed key (buildNonce 0) ad plain ∧
      (ad = h ∨ ∃ x, x.length = hashLen + (dhLen + aeadTagLen) ∧ .hashed x ∈ notes ∧
        ad = crypto.sha256 x) := by
  have hstatic {h' : Bytes} {first rest : List Use}
      (hfirst : SealsStatic crypto (CipherState.initKey key) h sPub h' first) :
      ∀ use ∈ first, use.Silent ∨ ∃ key ad plain, use = .sealed key (buildNonce 0) ad plain ∧
        (ad = h ∨ ∃ x, x.length = hashLen + (dhLen + aeadTagLen) ∧ .hashed x ∈ first ++ rest ∧
          ad = crypto.sha256 x) := by
    obtain ⟨out, -, -, rfl⟩ := hfirst
    intro use huse
    rcases List.mem_pair.1 huse with rfl | rfl
    · exact .inr ⟨_, _, _, rfl, .inl rfl⟩
    · exact .inl trivial
  intro use huse
  cases hon with
  | static hfirst hsilent =>
    rcases List.mem_append.1 huse with hin | hin
    · exact hstatic hfirst use hin
    · exact .inl (hsilent use hin)
  | all hfirst hpayload =>
    rcases List.mem_append.1 huse with hin | hin
    · exact hstatic hfirst use hin
    · obtain ⟨out, hout, rfl, rfl⟩ := hfirst
      obtain ⟨secret, out', -, rfl⟩ := hpayload
      rcases List.mem_cons.1 hin with rfl | hin
      · exact .inl trivial
      · rcases List.mem_pair.1 hin with rfl | rfl
        · refine .inr ⟨_, _, _, rfl, .inr ⟨h ++ out, ?_, by simp, rfl⟩⟩
          rw [List.length_append, hh, hout]
        · exact .inl trivial

/-- What an answer seals is bound to the prologue it was made under. -/
theorem onlyAnswers_answers (hsized : crypto.Sized) {hs hs' : NoiseHandshake} {r : Bool} {e : Bytes}
    {answer : List Use} (hanswers : OnlyAnswers crypto own uses)
    (hhash : hs.h = openingHash crypto own e) (hopening : HashedOpening crypto uses own e)
    (h : Answers crypto hs r hs' answer) : OnlyAnswers crypto own (uses ++ answer) := by
  cases h with
  | nothing hsilent => exact hanswers.append_silent hsilent
  | @keyed _ _ e' secret ck key on he hderived hon =>
    refine hanswers.append fun use huse ↦ ?_
    have hcases : use.Silent ∨ ∃ key ad plain, use = .sealed key (buildNonce 0) ad plain ∧
        (ad = hashWith crypto hs.h e' ∨ ∃ x, x.length = hashLen + (dhLen + aeadTagLen) ∧
          .hashed x ∈ on ∧ ad = crypto.sha256 x) := by
      simp only [List.mem_cons] at huse
      rcases huse with rfl | rfl | huse
      · exact .inl trivial
      · exact .inl trivial
      · exact sealsOn_uses (length_hashWith hsized _ _) hon use huse
    rcases hcases with hsilent | ⟨key, ad, plain, rfl, rfl | ⟨x, hx, hin, rfl⟩⟩
    · cases use with
      | hashed _ => trivial
      | derived _ _ => trivial
      | sealed _ _ _ _ => exact hsilent.elim
      | opened _ _ _ _ => exact hsilent.elim
    · refine ⟨rfl, .inl ⟨e, e', hopening.mono, ?_, ?_⟩⟩
      · rw [← hhash]
        simp
      · rw [hhash]
    · exact ⟨rfl, .inr ⟨x, hx, by simp [hin], rfl⟩⟩

/-- **An answering responder opens nothing**: what it would accept has to be sealed under nonce one,
and only answers were sealed. -/
theorem answering_read (hsized : crypto.Sized) (hanswers : OnlyAnswers crypto own uses)
    (h : Answering crypto own ch) (random : Option Bytes) (message : Bytes) :
    Attempt.Ends (PeerChannel.tryReadHandshake crypto random message) ch fun _ ch' notes ↦
      StaysAnswering crypto uses own ch' notes := by
  by_cases hturn : ch.established = false ∧ ch.messageIndex < handshakeMessageCount ∧
      weWrite ch.initiator ch.messageIndex = false ∧
      message.length = handshakeMessageSize ch.messageIndex
  · rcases h.state with hone | ⟨hs, hhs, hinit, hdone, hindex,
      ⟨hzero, hkey, hfresh, hstatic, hhash⟩ | ⟨htwo, hkey, hnonce⟩⟩
    · have hours := hturn.2.2.1
      rw [hone, h.role] at hours
      cases hours
    · have hsize : message.length = dhLen := by rw [hturn.2.2.2, hzero]; rfl
      have hidx : hs.messageIndex = 0 := hindex.trans hzero
      refine PeerChannel.ends_readHandshake hhs ⟨hturn.1, hturn.2.1⟩ hturn.2.2.1 hturn.2.2.2
        ((ends_readOpening hsize hidx hdone hinit hkey).and (party_readMessage message))
        (fun _ _ hread ↦ absurd hread.1.1 nofun) ?_
      rintro hs₁ notes ⟨⟨-, ⟨e, he, rfl, hh, hcs, hck, hidx₁⟩, hfresh₁⟩, hparty⟩
      have hdone₁ : hs₁.done = false := (hparty.done (by rw [hidx]; nofun)).trans hdone
      have hmore : ch.messageIndex + 1 < handshakeMessageCount := by rw [hzero]; decide
      refine (PeerChannel.ends_answer rfl hmore
        ((ends_writeAnswer hsized random hidx₁ hdone₁ (hparty.initiator.trans hinit)
          (by rw [hcs]; exact hkey) (hfresh₁.trans hfresh) (by rw [hparty.sPub]; exact hstatic)).and
            (party_writeMessage random []))
        fun hs₂ _ hwrite ↦ (hwrite.2.done (by rw [hidx₁]; nofun)).trans hdone₁).mono ?_
      rintro r ch' notes ⟨hs₂, ⟨hanswer, hparty₂⟩, rfl⟩ -
      have hopening : HashedOpening crypto (uses ++ [.hashed (hs.h ++ e),
          .hashed (hashWith crypto hs.h e ++ [])]) own e := by
        rw [hhash]
        exact ⟨by simp, by simp⟩
      have hquiet : OnlyAnswers crypto own (uses ++ [.hashed (hs.h ++ e),
          .hashed (hashWith crypto hs.h e ++ [])]) :=
        hanswers.append_silent (by simp [Use.Silent])
      have hall := onlyAnswers_answers hsized hquiet (by rw [hh, hhash]; rfl) hopening hanswer
      rw [List.append_assoc] at hall
      refine ⟨⟨h.established, h.role, ?_⟩, hall⟩
      cases r with
      | false => exact .inl (by rw [hzero]; rfl)
      | true =>
        refine .inr ⟨hs₂, rfl, hparty₂.initiator.trans (hparty.initiator.trans hinit),
          (hparty₂.done (by rw [hidx₁]; nofun)).trans hdone₁, ?_, .inr ⟨by rw [hzero]; rfl, ?_⟩⟩
        · rw [hparty₂.messageIndex, hidx₁, hzero]
        · cases hanswer with
          | keyed he₂ hderived hon =>
            cases hon with
            | all _ _ _ hcs₂ =>
              rw [hcs₂]
              exact ⟨rfl, rfl⟩
    · have hsize : message.length = 64 := by rw [hturn.2.2.2, htwo]; rfl
      -- A closing static key is sealed under nonce one, and no answer is.
      have hopened {cipher : Bytes} {after : List Use} (hideal : Ideal (uses ++
          ([] ++ .opened hs.cs.key (buildNonce hs.cs.nonce) hs.h cipher :: after))) : False := by
        obtain ⟨plain, hsealed⟩ := hideal.sealed_before (List.forall_mem_nil _)
        have hnone := buildNonce_inj (hanswers _ hsealed).1
        rw [hnonce] at hnone
        cases hnone
      refine PeerChannel.ends_readHandshake hhs ⟨hturn.1, hturn.2.1⟩ hturn.2.2.1 hturn.2.2.2
        (ends_readClosing hsized hsize (hindex.trans htwo) hdone hinit hkey) ?_ ?_
      · rintro hs' notes (⟨-, rfl, rfl⟩ | ⟨cipher, after, rfl⟩) hideal
        · exact ⟨⟨h.established, h.role, .inr ⟨hs', rfl, hinit, hdone, hindex,
            .inr ⟨htwo, hkey, hnonce⟩⟩⟩, hanswers.append_silent (List.forall_mem_nil _)⟩
        · exact (hopened hideal).elim
      · rintro hs' notes (⟨hr, -⟩ | ⟨cipher, after, rfl⟩)
        · cases hr
        · exact fun hideal ↦ (hopened hideal).elim
  · exact (PeerChannel.ends_readHandshake_refused random message hturn).mono fun _ _ _ ↦
      staysAnswering_unmoved h hanswers

/-- The responder, whatever is asked of it. -/
theorem answering_call (hsized : crypto.Sized) (hanswers : OnlyAnswers crypto own uses)
    (h : Answering crypto own ch) (c : PeerChannel.Call) :
    Attempt.Ends (PeerChannel.call crypto c) ch fun _ ch' notes ↦
      StaysAnswering crypto uses own ch' notes := by
  cases c with
  | openHandshake random =>
    have hturn : ¬ (ch.initiator = true ∧ ch.messageIndex = 0) := by simp [h.role]
    exact .map ((PeerChannel.ends_openHandshake_refused random hturn).mono fun _ _ _ ↦
      staysAnswering_unmoved h hanswers)
  | readHandshake random message => exact .map (answering_read hsized hanswers h random message)
  | _ =>
    exact Attempt.Ends.mono (PeerChannel.ends_transport h.established trivial) fun _ _ _ ↦
      staysAnswering_unmoved h hanswers

end Steps

/-! ### A run -/

theorem Channels.uses_step {s s' : Channels} {i : Bool × PeerChannel.Call}
    (h : s.step crypto i = some s') :
    s'.uses = s.uses ++ (PeerChannel.call crypto i.2 (s.channel i.1)).notes := by
  cases h
  simp [Channels.uses]

variable {prologue : Bool → Bytes}

theorem mismatched_start (hsized : crypto.Sized) (keys : Bool → Bytes × Bytes)
    (hkeys : ∀ side, (keys side).2.length = dhLen) :
    Mismatched crypto prologue (.start crypto keys prologue) where
  hashed side := by cases side <;> simp [Channels.uses, Channels.start]
  initiator := ⟨rfl, rfl, _, rfl, rfl, rfl, rfl, length_hashWith hsized _ _,
    .inl ⟨rfl, rfl, rfl, rfl⟩⟩
  responder := ⟨rfl, rfl, .inr ⟨_, rfl, rfl, rfl, rfl, .inl ⟨rfl, rfl, rfl, hkeys false, rfl⟩⟩⟩
  sealed use huse := by
    simp only [Channels.uses, Channels.start, List.map_cons, List.map_nil, List.mem_cons,
      List.not_mem_nil, or_false] at huse
    rcases huse with rfl | rfl <;> trivial

theorem mismatched_step (hsized : crypto.Sized) (hne : prologue true ≠ prologue false)
    {s s' : Channels} {i : Bool × PeerChannel.Call} (h : Mismatched crypto prologue s)
    (hstep : s.step crypto i = some s') (hideal : Ideal s'.uses)
    (hfree : CollisionFree crypto s'.uses) : Mismatched crypto prologue s' := by
  obtain ⟨side, c⟩ := i
  have huses := Channels.uses_step hstep
  cases hstep
  rw [huses] at hideal hfree
  cases side with
  | true =>
    obtain ⟨hwaiting, hsilent⟩ := waiting_call hsized hne (h.hashed true) (h.hashed false) h.sealed
      h.initiator c hideal hfree
    refine ⟨fun side ↦ ?_, ?_, ?_, ?_⟩
    · rw [huses]
      exact List.mem_append_left _ (h.hashed side)
    · rw [huses]
      simpa using hwaiting
    · simpa using h.responder
    · rw [huses]
      exact h.sealed.append_silent hsilent
  | false =>
    obtain ⟨hanswering, hanswers⟩ := answering_call hsized h.sealed h.responder c hideal
    refine ⟨fun side ↦ ?_, ?_, ?_, ?_⟩
    · rw [huses]
      exact List.mem_append_left _ (h.hashed side)
    · rw [huses]
      simpa using h.initiator.mono
    · simpa using hanswering
    · rw [huses]
      exact hanswers

/-- Two channels with different prologues stay strangers, in every run in which the hash and the
AEAD are what they are taken for. -/
theorem mismatched_of_reaches (hsized : crypto.Sized) (hne : prologue true ≠ prologue false)
    (keys : Bool → Bytes × Bytes) (hkeys : ∀ side, (keys side).2.length = dhLen) {s : Channels}
    (h : Reaches (Channels.step crypto) always (.start crypto keys prologue) s)
    (hideal : Ideal s.uses) (hfree : CollisionFree crypto s.uses) :
    Mismatched crypto prologue s := by
  induction h with
  | refl => exact mismatched_start hsized keys hkeys
  | tail _ _ hstep ih =>
    have huses := Channels.uses_step hstep
    have hideal' := hideal
    have hfree' := hfree
    rw [huses] at hideal' hfree'
    exact mismatched_step hsized hne (ih hideal'.of_append hfree'.of_append) hstep hideal hfree

/-! ## The transport keys of one channel -/

/-- What a channel seals and opens with, and whether it may. -/
structure TransportKeys where
  send : Bytes
  sendKeyed : Bool
  recv : Bytes
  recvKeyed : Bool
  udpSend : Bytes
  udpRecv : Bytes
  deriving DecidableEq, Repr

namespace PeerChannel

variable {ch : PeerChannel}

/-- The keys of a channel. -/
def keys (ch : PeerChannel) : TransportKeys where
  send := ch.send.key
  sendKeyed := ch.send.hasKey
  recv := ch.recv.key
  recvKeyed := ch.recv.hasKey
  udpSend := ch.udpSend
  udpRecv := ch.udpRecv

/-- The keys of a channel before its handshake ends: none. -/
def noKeys : TransportKeys where
  send := zeros 32
  sendKeyed := false
  recv := zeros 32
  recvKeyed := false
  udpSend := zeros keyLen
  udpRecv := zeros keyLen

/-- Keys change only where a channel becomes established. -/
def KeepsKeys (ch : PeerChannel) (_ : List Use) (ch' : PeerChannel) : Prop :=
  ch'.established = false → ch.established = false ∧ ch'.keys = ch.keys

theorem keepsKeys_composes : Attempt.Composes KeepsKeys where
  refl _ h := ⟨h, rfl⟩
  trans h h' hnot := ⟨(h (h' hnot).1).1, (h' hnot).2.trans (h (h' hnot).1).2⟩

theorem keepsKeys_onHandshake {α : Type} (m : Attempt Use NoiseHandshake α) :
    Attempt.Within KeepsKeys (onHandshake m) := by
  intro ch hnot
  rw [onHandshake] at hnot ⊢
  cases hhs : ch.handshake with
  | none => rw [hhs] at hnot; exact ⟨hnot, rfl⟩
  | some hs => rw [hhs] at hnot; exact ⟨hnot, rfl⟩

theorem keepsKeys_index (g : PeerChannel → Nat) :
    Attempt.Within KeepsKeys (Attempt.change fun ch ↦ { ch with messageIndex := g ch }) :=
  .change fun _ hnot ↦ ⟨hnot, rfl⟩

theorem keepsKeys_openHandshake (random : Option Bytes) :
    Attempt.Within KeepsKeys (tryOpenHandshake crypto random) := by
  have hR := keepsKeys_composes
  exact .bind hR (.read hR) fun _ ↦ .bind hR (.require hR _) fun _ ↦
    .bind hR (keepsKeys_onHandshake _) fun _ ↦ .bind hR (keepsKeys_index _) fun _ ↦ .pure hR _

theorem keepsKeys_finish : Attempt.Within KeepsKeys (tryFinish crypto) := by
  have hR := keepsKeys_composes
  refine .bind hR (keepsKeys_onHandshake _) fun hs ↦ ?_
  split
  · exact .pure hR _
  · exact .bind hR (.require hR _) fun _ ↦ .bind hR (.change fun _ hnot ↦ ⟨hnot, rfl⟩) fun _ ↦
      .bind hR (keepsKeys_onHandshake _) fun _ ↦
        .bind hR (.change fun _ hnot ↦ absurd hnot (by simp)) fun _ ↦ .pure hR _

theorem keepsKeys_readHandshake (random : Option Bytes) (message : Bytes) :
    Attempt.Within KeepsKeys (tryReadHandshake crypto random message) := by
  have hR := keepsKeys_composes
  have hreply : Attempt.Within KeepsKeys (tryReply crypto random) := by
    refine .bind hR (.read hR) fun ch ↦ ?_
    split
    · exact .bind hR (keepsKeys_onHandshake _) fun _ ↦ .bind hR (keepsKeys_index _) fun _ ↦
        .pure hR _
    · exact .pure hR _
  exact .bind hR (.read hR) fun _ ↦ .bind hR (.require hR _) fun _ ↦
    .bind hR (.require hR _) fun _ ↦
    .bind hR (.require hR _) fun _ ↦ .bind hR (keepsKeys_onHandshake _) fun _ ↦
      .bind hR (keepsKeys_index _) fun _ ↦ .bind hR hreply fun _ ↦ .bind hR keepsKeys_finish fun _ ↦
        .pure hR _

/-- An established channel stays as it is, but for its counters. -/
def StaysEstablished (ch ch' : PeerChannel) : Prop :=
  ch'.established = true ∧ ch'.keys = ch.keys

theorem encrypt_key {cs cs' : CipherState} {ad plain out : Bytes}
    (h : cs.encrypt crypto ad plain = some (out, cs')) : cs'.key = cs.key ∧ cs'.hasKey =
    cs.hasKey := by
  rw [CipherState.encrypt] at h
  split at h
  · cases h; exact ⟨rfl, rfl⟩
  · split at h
    · cases h
    · cases h; exact ⟨rfl, rfl⟩

theorem decrypt_key {cs cs' : CipherState} {ad cipher out : Bytes}
    (h : cs.decrypt crypto ad cipher = some (out, cs')) : cs'.key = cs.key ∧ cs'.hasKey =
    cs.hasKey := by
  rw [CipherState.decrypt] at h
  split at h
  · cases h; exact ⟨rfl, rfl⟩
  · split at h
    · cases h
    · dsimp only at h
      split at h
      · cases h
      · cases h; exact ⟨rfl, rfl⟩

theorem call_established (h : ch.established = true) (c : Call) :
    Attempt.Ends (call crypto c) ch fun _ ch' _ ↦ StaysEstablished ch ch' := by
  have hsame : StaysEstablished ch ch := ⟨h, rfl⟩
  cases c with
  | openHandshake random =>
    refine .map ?_
    by_cases hturn : ch.initiator = true ∧ ch.messageIndex = 0
    · cases hhs : ch.handshake with
      | none =>
        refine .read (.require (fun hnot ↦ absurd hturn hnot) fun _ ↦ ?_)
        have hnone : onHandshake (NoiseHandshake.tryWriteMessage crypto random []) ch =
            ⟨none, ch, []⟩ := by rw [onHandshake, hhs]
        rw [Attempt.Ends, Attempt.bind_of_none (by rw [hnone]), hnone]
        exact hsame
      | some hs =>
        refine (ends_openHandshake hhs hturn
          (NoiseHandshake.party_writeMessage random [])).mono ?_
        rintro _ _ _ ⟨hs', -, rfl⟩
        exact hsame
    · refine (ends_openHandshake_refused random hturn).mono ?_
      rintro _ _ _ ⟨-, rfl, -⟩
      exact hsame
  | readHandshake random message =>
    refine .map ((ends_readHandshake_refused random message fun hopen ↦ ?_).mono ?_)
    · rw [h] at hopen
      cases hopen.1
    · rintro _ _ _ ⟨-, rfl, -⟩
      exact hsame
  | sealBytes plain ad =>
    refine .map ?_
    rw [Attempt.Ends, trySeal]
    cases hseal : ch.sealBytes crypto plain ad with
    | none => exact hsame
    | some p =>
      rw [sealBytes, if_neg (not_not_intro h)] at hseal
      split at hseal
      · cases hseal
      · rename_i hencrypt
        cases hseal
        exact ⟨h, by simp [keys, encrypt_key hencrypt]⟩
  | unsealBytes cipher ad =>
    refine .map ?_
    rw [Attempt.Ends, tryUnseal]
    cases hunseal : ch.unsealBytes crypto cipher ad with
    | none => exact hsame
    | some p =>
      obtain ⟨-, hdecrypt, hstate⟩ := unsealBytes_eq hunseal
      dsimp only
      rw [hstate]
      exact ⟨h, by simp [keys, decrypt_key hdecrypt]⟩
  | sealDatagram senderId destId plain =>
    refine .map ?_
    rw [Attempt.Ends, trySealDatagram]
    cases hseal : ch.sealDatagram crypto senderId destId plain with
    | none => exact hsame
    | some p =>
      dsimp only
      rw [(sealDatagram_eq hseal).2]
      exact ⟨h, rfl⟩
  | openDatagram senderId destId seq cipher =>
    refine .map ?_
    rw [Attempt.Ends, tryOpenDatagram]
    cases hopen : ch.openDatagram crypto senderId destId seq cipher with
    | none => exact hsame
    | some p =>
      dsimp only
      rw [(openDatagram_eq hopen).2]
      exact ⟨h, rfl⟩

theorem call_unestablished (h : ch.established = false) (c : Call) :
    Attempt.Ends (call crypto c) ch fun _ ch' _ ↦ KeepsKeys ch [] ch' := by
  cases c with
  | openHandshake random => exact .map ((keepsKeys_openHandshake random).ends ch)
  | readHandshake random message => exact .map ((keepsKeys_readHandshake random message).ends ch)
  | _ =>
    refine Attempt.Ends.mono (ends_transport h trivial) ?_
    rintro _ _ _ ⟨-, rfl, -⟩
    exact fun hnot ↦ ⟨hnot, rfl⟩

/-- One call after the other on one channel. -/
def callStep (crypto : Crypto) (ch : PeerChannel) (c : Call) : Option PeerChannel :=
  some (call crypto c ch).state

theorem keys_of_reaches {initiator : Bool} {staticPriv staticPub prologue : Bytes}
    (h : Reaches (callStep crypto) always
      (init crypto initiator staticPriv staticPub prologue) ch) :
    ch.established = false → ch.keys = noKeys := by
  induction h with
  | refl => exact fun _ ↦ rfl
  | @tail ch₁ ch₂ c _ _ hstep ih =>
    cases hstep
    intro hnot
    cases hest : ch₁.established with
    | true =>
      rw [(call_established hest c).1] at hnot
      cases hnot
    | false =>
      obtain ⟨-, hsame⟩ := call_unestablished hest c hnot
      exact hsame.trans (ih hest)

theorem established_of_reaches {ch' : PeerChannel} (h : Reaches (callStep crypto) always ch ch')
    (hest : ch.established = true) : StaysEstablished ch ch' :=
  h.invariant (I := StaysEstablished ch) ⟨hest, rfl⟩ fun ch₁ c ch₂ hI _ hstep ↦ by
    cases hstep
    have hcall : Attempt.Ends (call crypto c) _ _ := call_established hI.1 c
    exact ⟨hcall.1, hcall.2.trans hI.2⟩

end PeerChannel

/-! ## Failing closed -/

/-- **Channels fail closed.**  Ids that differ give prologues that differ.  Two channels whose
prologues differ are never established, whatever either is asked and whatever it is given.  A
channel that is not established refuses its transport and has no keys, and one that is stays
established under the keys it has. -/
theorem channels_fail_closed (hsized : crypto.Sized) :
    (∀ productId sandboxId deploymentId productId' sandboxId' deploymentId',
      Countable productId ∧ Countable productId' → Countable sandboxId ∧ Countable sandboxId' →
      Countable deploymentId ∧ Countable deploymentId' →
      (productId, sandboxId, deploymentId) ≠ (productId', sandboxId', deploymentId') →
      meshPrologue productId sandboxId deploymentId ≠
        meshPrologue productId' sandboxId' deploymentId') ∧
    (∀ (keys : Bool → Bytes × Bytes) (prologue : Bool → Bytes) (s : Channels),
      (∀ side, (keys side).2.length = dhLen) → prologue true ≠ prologue false →
      Reaches (Channels.step crypto) always (.start crypto keys prologue) s →
      CollisionFree crypto s.uses → Ideal s.uses → ∀ side, (s.channel side).established = false) ∧
    ∀ (initiator : Bool) (staticPriv staticPub prologue : Bytes) (ch : PeerChannel),
      Reaches (PeerChannel.callStep crypto) always
        (PeerChannel.init crypto initiator staticPriv staticPub prologue) ch →
      (ch.established = false → ch.keys = PeerChannel.noKeys ∧
        ∀ c : PeerChannel.Call, c.Transports → (PeerChannel.call crypto c ch).result = none ∧
          (PeerChannel.call crypto c ch).state = ch) ∧
      (ch.established = true → ∀ ch', Reaches (PeerChannel.callStep crypto) always ch ch' →
        ch'.established = true ∧ ch'.keys = ch.keys) := by
  refine ⟨?_, ?_, ?_⟩
  · intro p s d p' s' d' hp hs hd hne hsame
    obtain ⟨rfl, rfl, rfl⟩ := meshPrologue_inj hp hs hd hsame
    exact hne rfl
  · intro keys prologue s hkeys hne h hfree hideal side
    have hapart := mismatched_of_reaches hsized hne keys hkeys h hideal hfree
    cases side with
    | true => exact hapart.initiator.established
    | false => exact hapart.responder.established
  · intro initiator staticPriv staticPub prologue ch h
    refine ⟨fun hnot ↦ ⟨PeerChannel.keys_of_reaches h hnot, fun c hc ↦ ?_⟩,
      fun hest ch' h' ↦ PeerChannel.established_of_reaches h' hest⟩
    have hends : Attempt.Ends (PeerChannel.call crypto c) _ _ := PeerChannel.ends_transport hnot hc
    obtain ⟨hfailed, hstate, -⟩ := hends
    exact ⟨by simpa using hfailed, hstate⟩

/-! ### Two titles -/

/-- Keys of two who have nothing in common. -/
def strangerKeys (side : Bool) : Bytes × Bytes :=
  let secret := if side then [1] else [2]
  (secret, rollingCrypto.x25519PublicKey secret)

/-- What each of the two takes the game to be. -/
def strangerPrologue (side : Bool) : Bytes := meshPrologue (if side then [1] else [2]) [] []

/-- The initiator opens, the responder answers, and its answer arrives twice. -/
def strangerCalls : List (Bool × PeerChannel.Call) :=
  let s := Channels.start rollingCrypto strangerKeys strangerPrologue
  let bytesOf (side : Bool) (c : PeerChannel.Call) : Bytes :=
    (PeerChannel.call rollingCrypto c (s.channel side)).result.elim [] (·.2)
  let opening : PeerChannel.Call := .openHandshake (some [3])
  let answering : PeerChannel.Call := .readHandshake (some [4]) (bytesOf true opening)
  let closing : PeerChannel.Call := .readHandshake none (bytesOf false answering)
  [(true, opening), (false, answering), (true, closing), (true, closing)]

/-- The digests of what was hashed are pairwise different, and nothing was opened. -/
def Use.Plain (crypto : Crypto) (uses : List Use) : Prop :=
  ∀ use ∈ uses, match use with
    | .opened _ _ _ _ => False
    | .hashed x => ∀ use' ∈ uses, match use' with
      | .hashed y => crypto.sha256 x = crypto.sha256 y → x = y
      | _ => True
    | _ => True

instance (crypto : Crypto) (uses : List Use) : Decidable (Use.Plain crypto uses) :=
  have (x : Bytes) : DecidablePred fun use' : Use ↦ match use' with
      | .hashed y => crypto.sha256 x = crypto.sha256 y → x = y
      | _ => True := fun use' ↦
    match use' with
    | .hashed y => inferInstanceAs (Decidable (crypto.sha256 x = crypto.sha256 y → x = y))
    | .derived _ _ | .sealed _ _ _ _ | .opened _ _ _ _ => isTrue trivial
  have : DecidablePred fun use : Use ↦ match use with
      | .opened _ _ _ _ => False
      | .hashed x => ∀ use' ∈ uses, match use' with
        | .hashed y => crypto.sha256 x = crypto.sha256 y → x = y
        | _ => True
      | _ => True := fun use ↦
    match use with
    | .opened _ _ _ _ => isFalse id
    | .hashed x => inferInstanceAs (Decidable (∀ use' ∈ uses, match use' with
      | .hashed y => crypto.sha256 x = crypto.sha256 y → x = y
      | _ => True))
    | .derived _ _ | .sealed _ _ _ _ => isTrue trivial
  inferInstanceAs (Decidable (∀ use ∈ uses, _))

theorem collisionFree_of_plain (h : Use.Plain crypto uses) : CollisionFree crypto uses :=
  fun _ _ hx hy ↦ h _ hx _ hy

theorem ideal_of_plain (h : Use.Plain crypto uses) : Ideal uses := by
  rintro before key nonce ad cipher after rfl
  exact (h (.opened key nonce ad cipher) (by simp)).elim

/-- The answer to another title's opening message arrives twice, and is refused twice. -/
theorem channels_fail_closed_strangers : ∃ s, Reaches (Channels.step rollingCrypto) always
      (.start rollingCrypto strangerKeys strangerPrologue) s ∧ s.log.length = 17 ∧
    ∀ side, (s.channel side).established = false := by
  obtain ⟨s, h, hplain, hlength⟩ := exists_reaches (Channels.step rollingCrypto) always
    (.start rollingCrypto strangerKeys strangerPrologue)
    (fun s ↦ Use.Plain rollingCrypto s.uses ∧ s.log.length = 17) strangerCalls (by decide +kernel)
    (meets_always _ _)
  exact ⟨s, h, hlength, (channels_fail_closed rollingCrypto_sized).2.1 strangerKeys
    strangerPrologue s
    (by decide) (by decide +kernel) h (collisionFree_of_plain hplain) (ideal_of_plain hplain)⟩

end EosMesh
