import EosMesh.Lib.Gate
import EosMesh.Net.ReplayWindow
import EosMesh.Net.Router.Integrity

/-!
# Datagrams of one channel

Anyone can send us datagrams, in any order and as often as they like.  Of these a channel opens the
ones its peer sealed, each of them once.

* `datagramLog` is what a peer sealed for a channel: the sequence numbers, the bodies, and between
  whom.
* `openGate` is the channel as a gate of `Lib.Gate`: it takes what it can open and has not taken
  yet.  The window is the memory of the gate, and `ReplayWindow.Spent` says that a sequence number
  is refused.
* `sealed_of_openGate`: over an ideal cipher, what opens is a datagram that was sealed, and opens to
  what was sealed.  So the gate never opens for anything else.
* `forgeries_invisible` is the result: what the peer did not seal might as well not have arrived.
  Leaving it out changes neither what the channel comes to nor what it delivers.

The second half is about whose a datagram is.  All of them arrive on one socket, and what says which
channel to open them with is a tag of 32 bits in the header, made from the key.

* `openDatagram_datagramBytes` is what the router makes of one: the first peer with its tag, in the
  order of the ids, is the one it is for, and no other is tried.
* `datagram_demultiplexed_iff`: so a datagram reaches us as its sender's exactly when no lesser peer
  has its tag.  `datagram_misfiled` is one of a peer that shares its tag with a lesser one.
-/

set_option autoImplicit false

namespace EosMesh

open Lib
open Std (TreeMap)

/-! ## What the peer sealed -/

/-- A datagram on its way: the number in its header, and the sealed body. -/
@[ext]
structure Datagram where
  seq : UInt64
  cipher : Bytes
  deriving DecidableEq, Repr

/-- A datagram that was sealed: between whom, and of what. -/
structure SealedDatagram where
  senderId : Bytes
  destId : Bytes
  plain : Bytes
  datagram : Datagram
  deriving DecidableEq, Repr

/-- What sealing it asked of the cipher. -/
def SealedDatagram.call (d : SealedDatagram) : SealCall where
  nonce := buildNonce d.datagram.seq
  ad := datagramAd d.senderId d.destId d.datagram.seq
  plain := d.plain

/-- Sealing payloads one after the other, each with who sends it to whom. -/
def datagramLog (crypto : Crypto) : PeerChannel → List (Bytes × Bytes × Bytes) → List SealedDatagram
  | _, [] => []
  | channel, (senderId, destId, plain) :: payloads =>
    match channel.sealDatagram crypto senderId destId plain with
    | none => datagramLog crypto channel payloads
    | some (seq, cipher, channel') =>
      { senderId, destId, plain, datagram := { seq, cipher } } ::
        datagramLog crypto channel' payloads

variable {crypto : Crypto}

theorem cipher_of_mem_datagramLog {channel : PeerChannel} {payloads : List (Bytes × Bytes × Bytes)}
    {d : SealedDatagram} (h : d ∈ datagramLog crypto channel payloads) :
    d.datagram.cipher =
      (crypto.aeadEncrypt channel.udpSend d.call.nonce d.call.ad d.plain).1 ++
        (crypto.aeadEncrypt channel.udpSend d.call.nonce d.call.ad d.plain).2 := by
  induction payloads generalizing channel with
  | nil => cases h
  | cons payload payloads ih =>
    obtain ⟨senderId, destId, plain⟩ := payload
    rw [datagramLog] at h
    split at h
    · exact ih h
    · rename_i seq cipher channel' hseal
      rw [PeerChannel.sealDatagram] at hseal
      split at hseal
      · cases hseal
      · cases hseal
        rcases List.mem_cons.1 h with rfl | h
        · rfl
        · have hlater := ih h
          exact hlater

/-! ## Opening -/

/-- A channel as a gate for what arrives from `senderId`. -/
def openGate (crypto : Crypto) (senderId destId : Bytes) (channel : PeerChannel) (d : Datagram) :
    Option (Bytes × PeerChannel) :=
  channel.openDatagram crypto senderId destId d.seq d.cipher

variable {senderId destId plain : Bytes} {channel channel' : PeerChannel} {d : Datagram}

theorem openGate_eq_some (h : openGate crypto senderId destId channel d = some (plain, channel')) :
    crypto.aeadDecrypt channel.udpRecv (buildNonce d.seq)
        (d.cipher.drop (d.cipher.length - aeadTagLen)) (datagramAd senderId destId d.seq)
        (d.cipher.take (d.cipher.length - aeadTagLen)) = some plain ∧
      channel.udpReplay.accept d.seq = some channel'.udpReplay ∧
      channel'.udpRecv = channel.udpRecv := by
  rw [openGate, PeerChannel.openDatagram] at h
  split at h
  · cases h
  · dsimp only at h
    split at h
    · cases h
    · rename_i hdecrypt
      split at h
      · cases h
      · rename_i haccept
        cases h
        exact ⟨hdecrypt, haccept, rfl⟩

/-- Over an ideal cipher, what opens is a datagram that was sealed, and opens to what was sealed. -/
theorem sealed_of_openGate {sealed : List SealedDatagram}
    (hsealed : ∀ s ∈ sealed, s.datagram.cipher =
      (crypto.aeadEncrypt channel.udpRecv s.call.nonce s.call.ad s.plain).1 ++
        (crypto.aeadEncrypt channel.udpRecv s.call.nonce s.call.ad s.plain).2)
    (hideal : IdealAead crypto channel.udpRecv (sealed.map SealedDatagram.call))
    (h : openGate crypto senderId destId channel d = some (plain, channel')) :
    ∃ s ∈ sealed, s.datagram = d ∧ s.plain = plain := by
  obtain ⟨hdecrypt, -, -⟩ := openGate_eq_some h
  obtain ⟨call, hcall, hnonce, had, hencrypt⟩ := hideal.authentic _ _ _ _ _ hdecrypt
  obtain ⟨s, hs, rfl⟩ := List.mem_map.1 hcall
  have hseq : s.datagram.seq = d.seq := buildNonce_inj hnonce
  rw [← hnonce, ← had] at hencrypt hdecrypt
  have hcipher : s.datagram.cipher = d.cipher := by
    rw [hsealed s hs, show s.plain = s.call.plain from rfl, hencrypt, List.take_append_drop]
  have hcorrect := hideal.correct s.call hcall _ _ hencrypt
  rw [hdecrypt] at hcorrect
  exact ⟨s, hs, Datagram.ext hseq hcipher, (Option.some.inj hcorrect).symm⟩

/-- The window is the memory of the gate. -/
theorem remembering_openGate :
    Remembering (openGate crypto senderId destId) Datagram.seq fun channel seq ↦
      channel.udpReplay.Spent seq where
  fresh channel d plain channel' h hspent := by
    obtain ⟨-, haccept, -⟩ := openGate_eq_some h
    rw [ReplayWindow.Spent, haccept] at hspent
    cases hspent
  spends channel d plain channel' h := ReplayWindow.spent_of_accept (openGate_eq_some h).2.1
  keeps channel d plain channel' seq h hspent := hspent.accept (openGate_eq_some h).2.1

/-- **Forged datagrams are invisible.**  Leaving out what the peer did not seal for this channel
changes nothing: not what the channel comes to, and not what it delivers.  What it delivers is what
was sealed, and of every number once. -/
theorem forgeries_invisible {sender receiver : PeerChannel}
    {payloads : List (Bytes × Bytes × Bytes)} (hkey : sender.udpSend = receiver.udpRecv)
    (hideal : IdealAead crypto receiver.udpRecv
      ((datagramLog crypto sender payloads).map SealedDatagram.call))
    (senderId destId : Bytes) (arrivals : List Datagram) :
    let sealed := datagramLog crypto sender payloads
    let delivered := through (openGate crypto senderId destId) receiver arrivals
    through (openGate crypto senderId destId) receiver
        (arrivals.filter fun d ↦ d ∈ sealed.map SealedDatagram.datagram) = delivered ∧
      (∀ d ∉ sealed.map SealedDatagram.datagram,
        openGate crypto senderId destId delivered.1 d = none) ∧
      (∀ taken ∈ delivered.2, ∃ s ∈ sealed, s.datagram = taken.1 ∧ s.plain = taken.2) ∧
      (delivered.2.map fun taken ↦ taken.1.seq).Nodup := by
  intro sealed delivered
  have hopens (channel : PeerChannel) (d : Datagram) (plain : Bytes) (channel' : PeerChannel)
      (hI : channel.udpRecv = receiver.udpRecv)
      (h : openGate crypto senderId destId channel d = some (plain, channel')) :
      (∃ s ∈ sealed, s.datagram = d ∧ s.plain = plain) ∧ channel'.udpRecv = receiver.udpRecv := by
    refine ⟨sealed_of_openGate (fun s hs ↦ ?_) (hI ▸ hideal) h, (openGate_eq_some h).2.2.trans hI⟩
    rw [hI, ← hkey]
    exact cipher_of_mem_datagramLog hs
  have hmem {d : Datagram} {plain : Bytes} (h : ∃ s ∈ sealed, s.datagram = d ∧ s.plain = plain) :
      d ∈ sealed.map SealedDatagram.datagram := by
    obtain ⟨s, hs, hd, -⟩ := h
    exact List.mem_map.2 ⟨s, hs, hd⟩
  have hrecv : delivered.1.udpRecv = receiver.udpRecv :=
    through_invariant (I := fun channel ↦ channel.udpRecv = receiver.udpRecv)
      (fun channel d plain channel' hI h ↦ (hopens channel d plain channel' hI h).2) rfl arrivals
  refine ⟨through_filter (I := fun channel ↦ channel.udpRecv = receiver.udpRecv)
    (fun channel d plain channel' hI h ↦ ?_) rfl arrivals, fun d hd ↦ ?_,
    forall_mem_through hopens rfl arrivals, nodup_through remembering_openGate receiver arrivals⟩
  · obtain ⟨hs, hI'⟩ := hopens channel d plain channel' hI h
    exact ⟨decide_eq_true (hmem hs), hI'⟩
  · cases h : openGate crypto senderId destId delivered.1 d with
    | none => rfl
    | some taken => exact (hd (hmem (hopens _ _ _ _ hrecv h).1)).elim

/-! ## A run -/

/-- Both ends of a channel that carries datagrams under one key. -/
def datagramSender : PeerChannel :=
  { handshake := none, initiator := true, established := true, udpSend := [7] }

/-- The channel at the other end. -/
def datagramReceiver : PeerChannel :=
  { handshake := none, initiator := false, established := true, udpRecv := [7] }

/-- Two datagrams from one sender to one receiver. -/
def datagramPayloads : List (Bytes × Bytes × Bytes) := [([2], [1], [10]), ([2], [1], [11])]

/-- The two datagrams as they go out. -/
def datagramsSealed : List SealedDatagram := datagramLog checksumCrypto datagramSender
    datagramPayloads

/-- The stand-in cipher, under which nothing opens but these two. -/
def datagramCrypto : Crypto := Machine.strictCrypto [7] (datagramsSealed.map SealedDatagram.call)

/-- A forged one arrives, the second, the first, and the second once more. -/
def datagramArrivals : List Datagram :=
  { seq := 5, cipher := zeros 20 } ::
    (datagramsSealed.reverse ++ datagramsSealed.drop 1).map SealedDatagram.datagram

theorem forgeries_invisible_reordered :
    (through (openGate datagramCrypto [2] [1]) datagramReceiver datagramArrivals).2.map Prod.snd =
      [[11], [10]] ∧
    ((through (openGate datagramCrypto [2] [1]) datagramReceiver datagramArrivals).2.map
      fun taken ↦ taken.1.seq).Nodup := by
  have hlog : datagramLog datagramCrypto datagramSender datagramPayloads = datagramsSealed := by
    decide +kernel
  have hideal : IdealAead datagramCrypto datagramReceiver.udpRecv
      ((datagramLog datagramCrypto datagramSender datagramPayloads).map SealedDatagram.call) := by
    rw [hlog]
    exact Machine.strictCrypto_ideal _ _
  have hinvisible := forgeries_invisible (by decide) hideal [2] [1] datagramArrivals
  exact ⟨by decide +kernel, hinvisible.2.2.2⟩

/-! ## Whose datagram it is -/

/-- A datagram as it travels: what kind it is, the tag of the key it is sealed with, its number, and
the sealed body. -/
def datagramBytes (tag : UInt32) (seq : UInt64) (cipher : Bytes) : Bytes :=
  2 :: (beBytes 4 tag.toNat ++ (beBytes 8 seq.toNat ++ cipher))

/-- A datagram that peer `id` sealed for us with the key of its channel, and that is fresh. -/
structure SentBy (crypto : Crypto) (config : Config) (r : Router) (id : Bytes) (entry : Peer)
    (plain data : Bytes) : Prop where
  peer : r.peers[id]? = some entry
  established : entry.channel.established = true
  sealed : ∃ (them them' : PeerChannel) (seq : UInt64) (cipher : Bytes),
    them.udpSend = entry.channel.udpRecv ∧ them.udpSendTag = entry.channel.udpRecvTag ∧
      them.sealDatagram crypto id config.productUserId plain = some (seq, cipher, them') ∧
      ¬ entry.channel.udpReplay.Spent seq ∧ data = datagramBytes them.udpSendTag seq cipher

/-- What was sealed under a key opens under it. -/
def Crypto.OpensSealed (crypto : Crypto) : Prop := ∀ key nonce ad plain,
  crypto.aeadDecrypt key nonce (crypto.aeadEncrypt key nonce ad plain).2 ad
    (crypto.aeadEncrypt key nonce ad plain).1 = some plain

variable {config : Config} {w : World} {r : Router} {id data : Bytes} {entry : Peer}

/-- The channel of the peer that sealed a datagram opens it. -/
theorem SentBy.opens (hopens : crypto.OpensSealed)
    (h : SentBy crypto config r id entry plain data) :
    ∃ seq cipher channel, data = datagramBytes entry.channel.udpRecvTag seq cipher ∧
      aeadTagLen ≤ cipher.length ∧
      entry.channel.openDatagram crypto id config.productUserId seq cipher =
        some (plain, channel) := by
  obtain ⟨them, them', seq, cipher, hkey, htag, hseal, hfresh, rfl⟩ := h.sealed
  rw [PeerChannel.sealDatagram] at hseal
  split at hseal
  · cases hseal
  · cases hseal
    rw [hkey, htag]
    set nonce := buildNonce them.udpSeq
    set ad := datagramAd id config.productUserId them.udpSeq
    have hmac := crypto.length_mac entry.channel.udpRecv nonce ad plain
    obtain ⟨channel, hopen⟩ := Option.ne_none_iff_exists'.1 hfresh
    refine ⟨_, _, { entry.channel with udpReplay := channel }, rfl, by simp [hmac], ?_⟩
    rw [PeerChannel.openDatagram, if_neg (by simp [h.established, hmac])]
    dsimp only
    rw [List.length_append, hmac, Nat.add_sub_cancel, List.drop_left, List.take_left, hopens, hopen]

/-- What the router makes of a datagram: the first peer with its tag is the one it is for. -/
theorem openDatagram_datagramBytes {tag : UInt32} {seq : UInt64} {cipher : Bytes}
    (hlong : aeadTagLen ≤ cipher.length) :
    r.openDatagram crypto config w (datagramBytes tag seq cipher) =
      (r.peers.toList.find? fun p ↦ p.2.channel.udpRecvTag = tag).bind fun p ↦
        (p.2.channel.openDatagram crypto p.1 config.productUserId seq cipher).map fun opened ↦
          (p.1, { p.2 with channel := opened.2, lastSeen := w.now }, opened.1) := by
  have hlength : ¬ (datagramBytes tag seq cipher).length < 13 + aeadTagLen := by
    simp [datagramBytes]
    omega
  have htag : ((datagramBytes tag seq cipher).drop 1).take 4 = beBytes 4 tag.toNat :=
    List.take_left' (length_beBytes _ _)
  have hseq : ((datagramBytes tag seq cipher).drop 5).take 8 = beBytes 8 seq.toNat := by
    rw [datagramBytes, List.drop_succ_cons, List.drop_left' (length_beBytes _ _),
      List.take_left' (length_beBytes _ _)]
  have hbody : (datagramBytes tag seq cipher).drop 13 = cipher := by
    rw [datagramBytes, List.drop_succ_cons, ← List.append_assoc, List.drop_left']
    rw [List.length_append, length_beBytes, length_beBytes]
  rw [Router.openDatagram, if_neg hlength, htag, hseq, hbody, ofBeBytes_beBytes tag.toNat_lt,
    ofBeBytes_beBytes seq.toNat_lt, UInt32.ofNat_toNat, UInt64.ofNat_toNat]
  dsimp only
  cases r.peers.toList.find? fun p ↦ p.2.channel.udpRecvTag = tag with
  | none => rfl
  | some p =>
    obtain ⟨id, entry⟩ := p
    dsimp only [Option.bind_some]
    cases entry.channel.openDatagram crypto id config.productUserId seq cipher with
    | none => rfl
    | some opened => rfl

namespace Machine

variable {m : Machine} {phases : List Phase} {source : Endpoint}

/-- What a sealed datagram leaves in the trace: who it was opened as, if anyone. -/
theorem runDatagrams_trace {body : Bytes} (hw : w.datagram = some (2 :: body, source)) :
    (runDatagrams crypto config w m phases).trace =
      match m.router.openDatagram crypto config w (2 :: body) with
      | none => m.trace
      | some (id, entry, plain) =>
        .dispatched (Router.datagramEnvelope config id plain)
          (.datagram entry.channel.remoteStatic plain) ::
        .openedDatagram id entry.channel.remoteStatic plain :: m.trace := by
  rw [runDatagrams, hw]
  dsimp only
  rw [if_pos rfl]
  cases m.router.openDatagram crypto config w (2 :: body) <;> rfl

/-- **A datagram reaches us as its sender's exactly when no lesser peer has its tag.** -/
theorem datagram_demultiplexed_iff (hopens : crypto.OpensSealed)
    (h : SentBy crypto config m.router id entry plain data)
    (hw : w.datagram = some (data, source)) :
    (runDatagrams crypto config w m phases).trace =
        .dispatched (Router.datagramEnvelope config id plain)
          (.datagram entry.channel.remoteStatic plain) ::
        .openedDatagram id entry.channel.remoteStatic plain :: m.trace ↔
      ∀ (id' : Bytes) (entry' : Peer), m.router.peers[id']? = some entry' →
        entry'.channel.udpRecvTag = entry.channel.udpRecvTag → compare id' id ≠ .lt := by
  obtain ⟨seq, cipher, channel, rfl, hlong, hopen⟩ := h.opens hopens
  rw [runDatagrams_trace hw, ← datagramBytes, openDatagram_datagramBytes hlong]
  have hlonger (first second : Event) : m.trace ≠ first :: second :: m.trace := fun hsame ↦ by
    have hlength := congrArg List.length hsame
    simp only [List.length_cons] at hlength
    omega
  constructor
  · intro htrace
    cases hfind : m.router.peers.toList.find? fun p ↦
        p.2.channel.udpRecvTag = entry.channel.udpRecvTag with
    | none =>
      rw [hfind] at htrace
      exact absurd htrace (hlonger _ _)
    | some first =>
      obtain ⟨first, firstEntry⟩ := first
      rw [hfind, Option.bind_some] at htrace
      dsimp only at htrace
      cases hfirst : firstEntry.channel.openDatagram crypto first config.productUserId
        seq cipher with
      | none =>
        rw [hfirst] at htrace
        exact absurd htrace (hlonger _ _)
      | some opened =>
        rw [hfirst] at htrace
        -- It was opened as what the first peer sent, which has to be its sender.
        have hid : first = id := by
          simp only [Option.map_some, List.cons.injEq, Event.openedDatagram.injEq] at htrace
          exact htrace.2.1.1
        obtain ⟨-, -, hleast⟩ := (find?_toList_eq_some_iff _ _ _ _).1 hfind
        exact fun id' entry' hget htag ↦ hid ▸ hleast id' entry' hget (decide_eq_true htag)
  · intro hleast
    have hfind : (m.router.peers.toList.find? fun p ↦
        p.2.channel.udpRecvTag = entry.channel.udpRecvTag) = some (id, entry) :=
      (find?_toList_eq_some_iff _ _ _ _).2 ⟨h.peer, decide_eq_true rfl,
        fun id' entry' hget htag ↦ hleast id' entry' hget (of_decide_eq_true htag)⟩
    rw [hfind, Option.bind_some]
    dsimp only
    rw [hopen, Option.map_some]
    dsimp only
    obtain ⟨-, hchannel⟩ := PeerChannel.openDatagram_eq hopen
    rw [hchannel]

/-! ## Two peers of one tag -/

/-- The peers `[1]` and `[2]`, whose channels have the same tag. -/
def sharingTag (key : Bytes) : Peer where
  connection := 0
  buffer := []
  outbox := []
  epicId := []
  datagramAddr := { ip := 0, port := 0 }
  lastSeen := 0
  channel :=
    { handshake := none, initiator := false, established := true, udpRecv := key, udpRecvTag := 9 }

/-- A router with two peers of the same tag. -/
def sharingMachine : Machine where
  router :=
    { peers := (({} : TreeMap Bytes Peer).insert [1] (sharingTag [7])).insert [2] (sharingTag [8])
      running := true }

/-- The channel of such a peer towards us. -/
def sharingSender (key : Bytes) : PeerChannel :=
  { (sharingTag key).channel with udpSend := key, udpSendTag := 9 }

/-- What such a peer seals for us. -/
def sharedDatagram (id key : Bytes) : Bytes :=
  let body := checksumCrypto.aeadEncrypt key (buildNonce 0)
    (datagramAd id Sample.us.productUserId 0) [42]
  datagramBytes 9 0 (body.1 ++ body.2)

theorem sentBy_sharedDatagram {id key : Bytes}
    (hpeer : sharingMachine.router.peers[id]? = some (sharingTag key)) :
    SentBy checksumCrypto Sample.us sharingMachine.router id (sharingTag key) [42]
      (sharedDatagram id key) where
  peer := hpeer
  established := rfl
  sealed := by
    have hfresh : ¬ (sharingTag key).channel.udpReplay.Spent 0 := by
      have hwindow : (sharingTag key).channel.udpReplay = {} := rfl
      rw [hwindow, ReplayWindow.Spent]
      decide
    exact ⟨sharingSender key, { sharingSender key with udpSeq := 1 }, 0, _, rfl, rfl,
      rfl, hfresh, rfl⟩

theorem lookup_sharingMachine (id : Bytes) : sharingMachine.router.peers[id]? =
    if ([2] : Bytes) = id then some (sharingTag [8])
    else if ([1] : Bytes) = id then some (sharingTag [7]) else none := by
  rw [sharingMachine, lookup_insert, lookup_insert, TreeMap.getElem?_emptyc]

theorem opensSealed_checksumCrypto : checksumCrypto.OpensSealed := fun key nonce ad plain ↦ by
  simp [checksumCrypto]

/-- The lesser of the two gets through. -/
theorem datagram_demultiplexed_lesser :
    (runDatagrams checksumCrypto Sample.us
      { datagram := some (sharedDatagram [1] [7], { ip := 0, port := 0 }) }
        sharingMachine []).trace =
      [.dispatched (Router.datagramEnvelope Sample.us [1] [42])
          (.datagram (sharingTag [7]).channel.remoteStatic [42]),
        .openedDatagram [1] (sharingTag [7]).channel.remoteStatic [42]] := by
  have hpeer : sharingMachine.router.peers[([1] : Bytes)]? = some (sharingTag [7]) := by
    rw [lookup_sharingMachine]
    rfl
  refine (datagram_demultiplexed_iff opensSealed_checksumCrypto (sentBy_sharedDatagram hpeer)
    rfl).2 fun id' entry' hget _ ↦ ?_
  rw [lookup_sharingMachine] at hget
  split at hget
  · rename_i hid
    exact hid ▸ by decide
  · split at hget
    · rename_i hid
      exact hid ▸ by decide
    · cases hget

/-- What the other one sealed is lost. -/
theorem datagram_misfiled :
    SentBy checksumCrypto Sample.us sharingMachine.router [2] (sharingTag [8]) [42]
        (sharedDatagram [2] [8]) ∧
      (runDatagrams checksumCrypto Sample.us
        { datagram := some (sharedDatagram [2] [8], { ip := 0, port := 0 }) } sharingMachine
        []).trace = [] := by
  have hpeer : sharingMachine.router.peers[([2] : Bytes)]? = some (sharingTag [8]) := by
    rw [lookup_sharingMachine, if_pos rfl]
  exact ⟨sentBy_sharedDatagram hpeer, by decide +kernel⟩

end Machine

end EosMesh
