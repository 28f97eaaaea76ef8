import EosMesh.Interfaces.Lobby.Hosts
import EosMesh.Interfaces.Lobby.Network

/-!
# One host

A lobby is hosted by one peer at a time: whoever hosts it answers the joins, and two hosts would
each answer by a roster of their own.  Hosting passes from peer to peer in a message, so the hosts
cannot be counted without the messages that stand for one (`Interfaces.Lobby.Hosts`).

* `Lobbies.weight` counts the hosts of a lobby and the messages that stand for one, by where they
  are: at a peer, on a link of the mesh, or about to go onto one.  `Lobbies.Lone` says that there is
  one at most.
* `Ledger` is the mesh of `Lib.Network` with the lobbies that were created in it.  A lobby that is
  created a second time, under an id that is in use, has two hosts from then on; so the condition is
  that none is (`opensAnother`), and that no peer is lost (`losesNobodyIn`), since a lobby is handed
  on differently then.
* `Ready` is what each peer is between two steps, and `Lonely` what the mesh is.
* A step that makes nobody a host leaves at most one, and none where there was none (`lone_post`);
  one that creates a lobby creates it where there was none (`lone_created`).

`one_host` is the result: along every run of the mesh under these conditions, in which the games
call for their own users, each lobby has one host at most, with any number of peers and any order of
messages.
-/

set_option autoImplicit false

namespace EosMesh

open Lib

namespace Lobbies

variable {s s' : Lobbies} {i : Input} {lobbyId : Bytes}

/-! ## Where the host is -/

/-- The lobby an envelope hands to whom it is for, as it is read there. -/
def handedIn (dest : Bytes) (message : NetEnvelope) : Option Bytes :=
  if message.payload.length ≤ maxMessageSize then
    (LobbyMessage.read message.typeTag message.payload).bind (handed dest)
  else none

/-- Nothing is handed that was not when it was sent. -/
theorem handed_of_handedIn {peer dest : Bytes} {msg : LobbyMessage}
    (h : handedIn dest (s.envelope peer msg) = some lobbyId) : handed dest msg = some lobbyId := by
  rw [handedIn] at h
  split at h
  · rename_i hshort
    replace hshort : Short msg.payload := lt_of_le_of_lt hshort (by decide)
    obtain ⟨msg', hread, hhanded⟩ := Option.bind_eq_some_iff.1 h
    cases msg with
    | infos infos =>
      obtain ⟨r, hr, rfl⟩ := Option.map_eq_some_iff.1 hread
      obtain ⟨hsurvives, -⟩ := LobbyInfos.decodesTo hshort [] r.1 r.2
        (by rw [List.append_nil]; exact hr)
      rwa [handed, hsurvives.ownerId, hsurvives.lobbyId] at hhanded
    | search | searchResponse | joinRequest | joinResponse | leave | memberUpdate | destroy =>
      obtain ⟨r, -, rfl⟩ := Option.map_eq_some_iff.1 hread
      cases hhanded
  · cases h

/-- Where a host may be: at a peer, or on its way to one. -/
inductive Place
  | peer (name : Bytes)
  | link (source dest : Bytes)
  deriving DecidableEq

/-- Whether a peer is one. -/
def hosts (lobbyId : Bytes) (s : Lobbies) : Nat := if (s.hosted lobbyId).isSome then 1 else 0

/-- The hosts of a lobby at a place. -/
def weight (lobbyId : Bytes) (net : Network Bytes Lobbies NetEnvelope) : Place → Nat
  | .peer name => hosts lobbyId (net.party name)
  | .link source dest =>
    (net.link source dest).countP fun message ↦ handedIn dest message = some lobbyId

/-- There is one host at most, and it is in one place. -/
def Lone (lobbyId : Bytes) (net : Network Bytes Lobbies NetEnvelope) : Prop :=
  ∃ place, ∀ other, weight lobbyId net other ≤ if other = place then 1 else 0

variable {net net' : Network Bytes Lobbies NetEnvelope}

theorem Lone.of_le (h : Lone lobbyId net)
    (hle : ∀ place, weight lobbyId net' place ≤ weight lobbyId net place) : Lone lobbyId net' := by
  obtain ⟨place, hplace⟩ := h
  exact ⟨place, fun other ↦ (hle other).trans (hplace other)⟩

/-- Where there is a host, there is the only one. -/
theorem Lone.at_place (h : Lone lobbyId net) {place : Place} (hpos : 0 < weight lobbyId net place) :
    ∀ other, weight lobbyId net other ≤ if other = place then 1 else 0 := by
  obtain ⟨found, hfound⟩ := h
  have hhere := hfound place
  by_cases heq : place = found
  · exact heq ▸ hfound
  · rw [if_neg heq] at hhere
    omega

/-- What a party sent one peer for a host. -/
def handedTo (lobbyId dest : Bytes) (s : Lobbies) : Nat :=
  s.mesh.sent.countP fun letter ↦ letter.1 = dest ∧ handed letter.1 letter.2 = some lobbyId

theorem weight_post_link (name source dest : Bytes) :
    weight lobbyId (net.post program name s') (.link source dest) ≤
      weight lobbyId net (.link source dest) +
        if source = name then handedTo lobbyId dest s' else 0 := by
  dsimp only [weight, Network.post]
  split
  · rw [List.countP_append]
    refine Nat.add_le_add_left ?_ _
    dsimp only [program]
    rw [List.countP_map, List.countP_filter, List.countP_map, handedTo]
    refine List.countP_mono_left fun letter _ hletter ↦ ?_
    simp only [Function.comp_apply, Bool.and_eq_true, decide_eq_true_eq] at hletter ⊢
    obtain ⟨hhanded, rfl⟩ := hletter
    exact ⟨rfl, handed_of_handedIn hhanded⟩
  · exact Nat.le_refl _

theorem weight_post_peer (name other : Bytes) :
    weight lobbyId (net.post program name s') (.peer other) =
      if other = name then hosts lobbyId s' else weight lobbyId net (.peer other) := by
  show hosts lobbyId (if other = name then program.emptied s' else net.party other) = _
  split <;> rfl

theorem handedTo_of_calm {peers : List Bytes} (h : Calm peers s') (dest : Bytes) :
    handedTo lobbyId dest s' = 0 := by
  refine List.countP_eq_zero.2 fun letter hletter ↦ ?_
  simp [h.idle letter hletter]

/-- What the heir is sent is all there is. -/
theorem handedTo_passed {passedId heir dest : Bytes}
    (hletters : ∀ letter ∈ s'.mesh.sent, ∀ id, handed letter.1 letter.2 = some id →
      id = passedId ∧ letter.1 = heir)
    (honce : s'.mesh.sent.countP (fun letter ↦ (handed letter.1 letter.2).isSome) ≤ 1) :
    handedTo lobbyId dest s' ≤ if lobbyId = passedId ∧ dest = heir then 1 else 0 := by
  split
  · refine le_trans (List.countP_mono_left fun letter _ hletter ↦ ?_) honce
    simp only [decide_eq_true_eq] at hletter
    rw [hletter.2]
    rfl
  · rename_i hother
    refine le_of_eq (List.countP_eq_zero.2 fun letter hletter hhanded ↦ hother ?_)
    simp only [decide_eq_true_eq] at hhanded
    obtain ⟨hid, hheir⟩ := hletters letter hletter lobbyId hhanded.2
    exact ⟨hid, hhanded.1.symm.trans hheir⟩

theorem hosts_le_one (lobbyId : Bytes) (s : Lobbies) : hosts lobbyId s ≤ 1 := by
  rw [hosts]
  split <;> omega

theorem hosts_pos : 0 < hosts lobbyId s ↔ (s.hosted lobbyId).isSome = true := by
  rw [hosts]
  split <;> simp_all

/-! ## The mesh -/

/-- A mesh, and the lobbies that were created in it. -/
structure Ledger where
  mesh : Network Bytes Lobbies NetEnvelope
  opened : List Bytes

/-- The lobby a step of the mesh creates. -/
def opensIn (net : Network Bytes Lobbies NetEnvelope) : Network.Event Bytes Input → Option Bytes
  | .act name i => (net.party name).opens i
  | _ => none

/-- A step of the network, with who has opened which lobby. -/
def Ledger.step (l : Ledger) (e : Network.Event Bytes Input) : Option Ledger :=
  (meshStep l.mesh e).map fun mesh ↦ { mesh, opened := (opensIn l.mesh e).toList ++ l.opened }

/-- The condition on a step of the mesh: nobody is lost. -/
def losesNobodyIn : Network.Event Bytes Input → Bool
  | .act _ i => i.losesNobody
  | _ => true

/-- The condition on a step of the mesh: no lobby is created again. -/
def opensAnother (l : Ledger) (e : Network.Event Bytes Input) : Bool :=
  (opensIn l.mesh e).all fun lobbyId ↦ lobbyId ∉ l.opened

/-- What each peer is between two steps, while none are lost. -/
structure Ready (name : Bytes) (s : Lobbies) : Prop where
  inPlace : InPlace ⟨fun _ _ ↦ True, False⟩ name s
  sent : s.mesh.sent = []
  losses : s.mesh.losses = []
  links : s.mesh.peers.Nodup

/-- What a mesh is, while no peer is lost and no lobby created again. -/
structure Ledger.Lonely (l : Ledger) : Prop where
  sound : l.mesh.Sound Ready (FairLetter ⟨fun _ _ ↦ True, False⟩)
  fresh : ∀ lobbyId ∉ l.opened, ∀ place, weight lobbyId l.mesh place = 0
  lone : ∀ lobbyId, Lone lobbyId l.mesh

/-- Between two steps, whatever was sent is on its way. -/
theorem InPlace.ready {name : Bytes} (h : InPlace ⟨fun _ _ ↦ True, False⟩ name s)
    (hlosses : s.mesh.losses = []) (hlinks : s.mesh.peers.Nodup) :
    Ready name (program.emptied s) ∧
      ∀ letter ∈ program.outbox s, FairLetter ⟨fun _ _ ↦ True, False⟩ name letter.1 letter.2 :=
  ⟨⟨h.posted.1, rfl, hlosses, hlinks⟩, h.posted.2⟩

/-- A step that makes nobody a host leaves at most one, and none where there was none. -/
theorem lone_post {name : Bytes} (hhands : Hands (net.party name) s')
    (hhosts : hosts lobbyId s' ≤ hosts lobbyId (net.party name)) :
    (Lone lobbyId net → Lone lobbyId (net.post program name s')) ∧
      ((∀ place, weight lobbyId net place = 0) →
        ∀ place, weight lobbyId (net.post program name s') place = 0) := by
  have hpeer (other : Bytes) : weight lobbyId (net.post program name s') (.peer other) ≤
      weight lobbyId net (.peer other) := by
    rw [weight_post_peer]
    split
    · rename_i hother
      exact hother ▸ hhosts
    · exact Nat.le_refl _
  have hlink (source dest : Bytes) : weight lobbyId (net.post program name s') (.link source dest) ≤
      weight lobbyId net (.link source dest) +
        if source = name then handedTo lobbyId dest s' else 0 := weight_post_link name source dest
  -- While nothing is handed on, no place gains anything.
  have hkept (hnothing : ∀ dest, handedTo lobbyId dest s' = 0) (place : Place) :
      weight lobbyId (net.post program name s') place ≤ weight lobbyId net place := by
    cases place with
    | peer other => exact hpeer other
    | link source dest =>
      refine (hlink source dest).trans (le_of_eq ?_)
      rw [hnothing, ite_self]
      rfl
  have hboth (hle : ∀ place, weight lobbyId (net.post program name s') place ≤
      weight lobbyId net place) : (Lone lobbyId net → Lone lobbyId (net.post program name s')) ∧
        ((∀ place, weight lobbyId net place = 0) →
          ∀ place, weight lobbyId (net.post program name s') place = 0) :=
    ⟨fun hlone ↦ hlone.of_le hle, fun hzero place ↦ Nat.le_zero.1 (hzero place ▸ hle place)⟩
  cases hhands with
  | none hcalm => exact hboth (hkept (handedTo_of_calm hcalm))
  | passed passedId heir hlosses hpeers hbefore hafter hletters honce =>
    have hhanded (dest : Bytes) : handedTo lobbyId dest s' ≤
        if lobbyId = passedId ∧ dest = heir then 1 else 0 := handedTo_passed hletters honce
    by_cases hid : lobbyId = passedId
    · subst hid
      have hpos : 0 < weight lobbyId net (.peer name) := hosts_pos.2 hbefore
      refine ⟨fun hlone ↦ ⟨.link name heir, fun other ↦ ?_⟩, fun hzero ↦ ?_⟩
      · have hplace := hlone.at_place hpos other
        cases other with
        | peer other =>
          rw [if_neg (by simp), weight_post_peer]
          split
          · rw [hosts, hafter]
            exact Nat.le_refl _
          · rename_i hother
            rwa [if_neg (by simpa using hother)] at hplace
        | link source dest =>
          rw [if_neg (by simp)] at hplace
          refine (hlink source dest).trans ?_
          rw [Nat.le_zero.1 hplace, Nat.zero_add]
          split
          · rename_i hsource
            refine (hhanded dest).trans ?_
            by_cases hdest : dest = heir <;> simp [hdest, hsource]
          · exact Nat.zero_le _
      · rw [hzero] at hpos
        exact absurd hpos (Nat.lt_irrefl _)
    · refine hboth (hkept fun dest ↦ Nat.le_zero.1 ((hhanded dest).trans (le_of_eq ?_)))
      rw [if_neg fun hboth ↦ hid hboth.1]

/-- A lobby is created where there was none. -/
theorem lone_created {name : Bytes} (hhands : Hands (net.party name) s')
    (hzero : ∀ place, weight lobbyId net place = 0) : Lone lobbyId (net.post program name s') := by
  refine ⟨.peer name, fun other ↦ ?_⟩
  cases other with
  | peer other =>
    rw [weight_post_peer]
    split
    · rename_i hother
      rw [if_pos (by rw [hother])]
      exact hosts_le_one lobbyId s'
    · rw [hzero]
      exact Nat.zero_le _
  | link source dest =>
    rw [if_neg (by simp)]
    refine (weight_post_link name source dest).trans ?_
    rw [hzero, Nat.zero_add]
    split
    · cases hhands with
      | none hcalm => exact le_of_eq (handedTo_of_calm hcalm dest)
      | passed passedId heir hlosses hpeers hbefore hafter hletters honce =>
        refine (handedTo_passed hletters honce).trans (le_of_eq (if_neg fun hboth ↦ ?_))
        have hpos : 0 < weight lobbyId net (.peer name) := hosts_pos.2 (hboth.1 ▸ hbefore)
        rw [hzero] at hpos
        exact Nat.lt_irrefl _ hpos
    · exact Nat.zero_le _

namespace Ledger

variable {l l' : Ledger}

theorem Lonely.act (h : l.Lonely) {name : Bytes}
    (hown : callsOwn (.act name i) = true) (hkeeps : i.losesNobody = true)
    (hopens : opensAnother l (.act name i) = true)
    (hstep : program.step (l.mesh.party name) i = some s') : Lonely
      { mesh := l.mesh.post program name s'
        opened := ((l.mesh.party name).opens i).toList ++ l.opened } := by
  obtain ⟨hplace, hsent, hlosses, hlinks⟩ := h.sound.party name
  have hplace' : InPlace ⟨fun _ _ ↦ True, False⟩ name s' :=
    inPlace_act ⟨hown, False.elim, fun _ _ ↦ trivial⟩ hplace hstep
  have hmay : (l.mesh.party name).productUserId ≠ [] ∧ i.isLocal = true := by
    by_contra hnot
    dsimp only [program] at hstep
    rw [if_neg hnot] at hstep
    cases hstep
  replace hstep : Lobbies.step (l.mesh.party name) i = some s' := by
    dsimp only [program] at hstep
    rwa [if_pos hmay] at hstep
  cases hmoves : i.moves with
  | true =>
    -- Peers come and go, and nothing else happens.
    cases i with
    | around peers known losses =>
      obtain ⟨hnodup, hnone⟩ := of_decide_eq_true hkeeps
      obtain rfl := Option.some.inj hstep
      obtain ⟨hready, hfair⟩ := hplace'.ready hnone hnodup
      have hweight (lobbyId : Bytes) (place : Place) : weight lobbyId (l.mesh.post program name
          { l.mesh.party name with known, mesh := { peers, losses, sent := [] } }) place ≤
          weight lobbyId l.mesh place := by
        cases place with
        | peer other =>
          rw [weight_post_peer]
          split
          · rename_i hother
            exact hother ▸ Nat.le_refl _
          · exact Nat.le_refl _
        | link source dest =>
          refine (weight_post_link name source dest).trans (le_of_eq ?_)
          split <;> rfl
      exact ⟨h.sound.post hready hfair,
        fun lobbyId hout place ↦ Nat.le_zero.1 (h.fresh lobbyId hout place ▸ hweight lobbyId place),
        fun lobbyId ↦ (h.lone lobbyId).of_le (hweight lobbyId)⟩
    | call | receive | collect => cases hmoves
  | false =>
    have hhands := hands_of_step hplace.orderly hlosses hsent hlinks hkeeps hmoves hstep
    obtain ⟨hready, hfair⟩ := hplace'.ready hhands.losses_eq (hhands.peers_eq ▸ hlinks)
    -- Whoever hosts now did, unless it created the lobby.
    have hhosts (lobbyId : Bytes) (hother : (l.mesh.party name).opens i ≠ some lobbyId) :
        hosts lobbyId s' ≤ hosts lobbyId (l.mesh.party name) := by
      by_cases hnow : (s'.hosted lobbyId).isSome = true
      · rcases hosted_of_step hkeeps hhands.peers_eq hstep hnow with hbefore | hopened |
          ⟨message, infos, rfl, -⟩
        · exact (hosts_le_one _ _).trans (hosts_pos.2 hbefore)
        · exact absurd hopened hother
        · exact absurd (of_decide_eq_true hmay.2) (of_decide_eq_true hkeeps)
      · rw [hosts, if_neg hnow]
        exact Nat.zero_le _
    refine ⟨h.sound.post hready hfair, fun lobbyId hout place ↦ ?_, fun lobbyId ↦ ?_⟩
    · rw [List.mem_append, not_or, Option.mem_toList] at hout
      exact (lone_post hhands (hhosts lobbyId hout.1)).2 (h.fresh lobbyId hout.2) place
    · by_cases hopened : (l.mesh.party name).opens i = some lobbyId
      · refine lone_created hhands (h.fresh lobbyId ?_)
        simpa [opensAnother, opensIn, hopened] using hopens
      · exact (lone_post hhands (hhosts lobbyId hopened)).1 (h.lone lobbyId)

theorem weight_setLink (net : Network Bytes Lobbies NetEnvelope) {source dest : Bytes}
    {letters : List NetEnvelope} (h : letters.Sublist (net.link source dest)) (place : Place) :
    weight lobbyId (net.setLink source dest letters) place ≤ weight lobbyId net place := by
  cases place with
  | peer name => exact Nat.le_refl _
  | link source' dest' =>
    dsimp only [weight, Network.setLink]
    split
    · rename_i hsame
      rw [hsame.1, hsame.2]
      exact h.countP_le
    · exact Nat.le_refl _

theorem Lonely.deliver (h : l.Lonely) {source dest : Bytes} {message : NetEnvelope}
    {letters : List NetEnvelope} (hlink : l.mesh.link source dest = message :: letters)
    (hstep : program.hear (l.mesh.party dest) source message = some s') : Lonely
      { mesh := (l.mesh.setLink source dest letters).post program dest s'
        opened := l.opened } := by
  obtain ⟨hplace, hsent, hlosses, hlinks⟩ := h.sound.party dest
  have hletter := h.sound.link source dest message (hlink ▸ List.mem_cons_self)
  have hplace' := inPlace_hear hplace hletter hstep
  have hmay : (l.mesh.party dest).productUserId ≠ [] ∧
      message.payload.length ≤ maxMessageSize := by
    by_contra hnot
    dsimp only [program] at hstep
    rw [if_neg hnot] at hstep
    cases hstep
  replace hstep : Lobbies.step (l.mesh.party dest) (.receive message) = some s' := by
    dsimp only [program] at hstep
    rwa [if_pos hmay] at hstep
  have htag : message.typeTag ≠ MessageType.peerDisconnected.tag := by
    obtain ⟨-, msg, htag, -⟩ := hletter
    rw [htag]
    cases msg <;> simp [LobbyMessage.type, MessageType.tag]
  have hkeeps : (Input.receive message).losesNobody = true := decide_eq_true htag
  have hcalm : Calm (l.mesh.party dest).mesh.peers s' := by
    obtain rfl := Option.some.inj hstep
    exact calm_receive hplace.orderly hlosses hsent htag
  obtain ⟨hready, hfair⟩ := hplace'.ready hcalm.losses (hcalm.peers ▸ hlinks)
  have hsublist : letters.Sublist (l.mesh.link source dest) := hlink ▸ List.sublist_cons_self _ _
  have hweight (lobbyId : Bytes) (place : Place) :
      weight lobbyId (l.mesh.setLink source dest letters) place ≤ weight lobbyId l.mesh place :=
    weight_setLink l.mesh hsublist place
  -- Whoever hosts now did, or was just handed the lobby.
  have hhosts (lobbyId : Bytes) (hother : handedIn dest message ≠ some lobbyId) :
      hosts lobbyId s' ≤ hosts lobbyId (l.mesh.party dest) := by
    by_cases hnow : (s'.hosted lobbyId).isSome = true
    · rcases hosted_of_step hkeeps hcalm.peers hstep hnow with hbefore | hopened |
        ⟨message', infos, hmessage, hreads, hid, howner⟩
      · exact (hosts_le_one _ _).trans (hosts_pos.2 hbefore)
      · cases hopened
      · cases hmessage
        refine absurd ?_ hother
        rw [handedIn, if_pos hmay.2, hreads.read, Option.bind_some, handed,
          if_pos (howner.trans hplace.named), hid]
    · rw [hosts, if_neg hnow]
      exact Nat.zero_le _
  have hhands : Hands ((l.mesh.setLink source dest letters).party dest) s' := .none hcalm
  have hstays (lobbyId : Bytes) (hother : handedIn dest message ≠ some lobbyId) :=
    lone_post hhands (hhosts lobbyId hother)
  have hpos (lobbyId : Bytes) (hhanded : handedIn dest message = some lobbyId) :
      0 < weight lobbyId l.mesh (.link source dest) := by
    dsimp only [weight]
    rw [hlink, List.countP_cons_of_pos (by simpa using hhanded)]
    exact Nat.succ_pos _
  refine ⟨(h.sound.setLink hsublist.subset).post hready hfair, fun lobbyId hout ↦ ?_,
    fun lobbyId ↦ ?_⟩
  · have hzero := h.fresh lobbyId hout
    refine (hstays lobbyId fun hhanded ↦ ?_).2 fun place ↦
      Nat.le_zero.1 (hzero place ▸ hweight lobbyId place)
    have hcount := hpos lobbyId hhanded
    rw [hzero] at hcount
    exact Nat.lt_irrefl _ hcount
  · by_cases hhanded : handedIn dest message = some lobbyId
    · -- What stood for the host is the host now, at most.
      have hplace := (h.lone lobbyId).at_place (hpos lobbyId hhanded)
      refine ⟨.peer dest, fun other ↦ ?_⟩
      cases other with
      | peer other =>
        rw [weight_post_peer]
        split
        · rename_i hother
          rw [if_pos (by rw [hother])]
          exact hosts_le_one lobbyId s'
        · have hbefore := hplace (.peer other)
          rw [if_neg (by simp)] at hbefore
          exact hbefore.trans (Nat.zero_le _)
      | link source' dest' =>
        rw [if_neg (by simp)]
        refine (weight_post_link dest source' dest').trans ?_
        rw [handedTo_of_calm hcalm, ite_self, Nat.add_zero]
        have hbefore := hplace (.link source' dest')
        by_cases hsame : source' = source ∧ dest' = dest
        · obtain ⟨rfl, rfl⟩ := hsame
          rw [if_pos rfl] at hbefore
          dsimp only [weight, Network.setLink] at hbefore ⊢
          rw [hlink, List.countP_cons_of_pos (by simpa using hhanded)] at hbefore
          rw [if_pos ⟨rfl, rfl⟩]
          omega
        · rw [if_neg fun heq ↦ hsame (by simpa using heq)] at hbefore
          exact (hweight lobbyId _).trans hbefore
    · exact (hstays lobbyId hhanded).1 ((h.lone lobbyId).of_le (hweight lobbyId))

/-- **A step of the mesh leaves at most one host.** -/
theorem Lonely.step {e : Network.Event Bytes Input} (h : l.Lonely) (hown : callsOwn e = true)
    (hkeeps : losesNobodyIn e = true) (hopens : opensAnother l e = true)
    (hstep : l.step e = some l') : l'.Lonely := by
  obtain ⟨mesh, hmesh, rfl⟩ := Option.map_eq_some_iff.1 hstep
  cases e with
  | act name i =>
    obtain ⟨s', hs', rfl⟩ := Option.map_eq_some_iff.1 hmesh
    exact h.act hown hkeeps hopens hs'
  | deliver source dest =>
    rw [meshStep, Network.step] at hmesh
    split at hmesh
    · cases hmesh
    · rename_i message letters hlink
      obtain ⟨s', hs', rfl⟩ := Option.map_eq_some_iff.1 hmesh
      exact h.deliver hlink hs'
  | cut source dest kept =>
    obtain rfl := Option.some.inj hmesh
    have hsublist := List.take_sublist kept (l.mesh.link source dest)
    refine ⟨h.sound.setLink hsublist.subset, fun lobbyId hout place ↦ ?_, fun lobbyId ↦ ?_⟩
    · exact Nat.le_zero.1 (h.fresh lobbyId hout place ▸ weight_setLink l.mesh hsublist place)
    · exact (h.lone lobbyId).of_le (weight_setLink l.mesh hsublist)

end Ledger

/-- The mesh at its start. -/
def ledgerOf (product : Bytes → Bytes) : Ledger where
  mesh := meshOf product
  opened := []

theorem lonely_ledgerOf (product : Bytes → Bytes) : (ledgerOf product).Lonely := by
  have hzero (lobbyId : Bytes) (place : Place) : weight lobbyId (meshOf product) place = 0 := by
    cases place with
    | peer name =>
      show hosts lobbyId (fresh name (product name)) = 0
      rw [hosts, hosted, findLobby, lookup_fresh]
      rfl
    | link source dest => rfl
  refine ⟨⟨fun name ↦ ⟨inPlace_fresh name _, rfl, rfl, List.nodup_nil⟩,
    fun _ _ letter hletter ↦ by cases hletter⟩, fun lobbyId _ ↦ hzero lobbyId, fun lobbyId ↦ ?_⟩
  exact ⟨.peer [], fun place ↦ (hzero lobbyId place).trans_le (Nat.zero_le _)⟩

/-- **A lobby has one host at most**: in every run of the mesh in which the games call for their own
users, no peer is lost and no lobby is created a second time, however it was handed on, and whatever
of it is late or cut off. -/
theorem one_host {product : Bytes → Bytes} {l : Ledger}
    (h : Reaches Ledger.step
      (fun l e ↦ callsOwn e = true ∧ losesNobodyIn e = true ∧ opensAnother l e = true)
      (ledgerOf product) l)
    {name name' lobbyId : Bytes} (hhost : ((l.mesh.party name).hosted lobbyId).isSome = true)
    (hhost' : ((l.mesh.party name').hosted lobbyId).isSome = true) : name = name' := by
  have hlonely : l.Lonely := h.invariant (lonely_ledgerOf product)
    fun _ _ _ hl hguard hstep ↦ hl.step hguard.1 hguard.2.1 hguard.2.2 hstep
  have hpos : 0 < weight lobbyId l.mesh (.peer name) := hosts_pos.2 hhost
  have hother := (hlonely.lone lobbyId).at_place hpos (.peer name')
  have hpos : 0 < weight lobbyId l.mesh (.peer name') := hosts_pos.2 hhost'
  by_contra hne
  rw [if_neg (by simpa using Ne.symm hne)] at hother
  omega

/-- `[2]` hosts what `[1]` handed on, and nobody else does. -/
theorem one_host_handedOn : ∃ l, Reaches Ledger.step
      (fun l e ↦ callsOwn e = true ∧ losesNobodyIn e = true ∧ opensAnother l e = true)
      (ledgerOf fun _ ↦ [9]) l ∧
    ((l.mesh.party [2]).hosted [5]).isSome = true ∧
    ∀ name, ((l.mesh.party name).hosted [5]).isSome = true → name = [2] := by
  obtain ⟨l, h, hhost⟩ := exists_reaches Ledger.step
    (fun l e ↦ callsOwn e = true ∧ losesNobodyIn e = true ∧ opensAnother l e = true)
    (ledgerOf fun _ ↦ [9]) (fun l ↦ ((l.mesh.party [2]).hosted [5]).isSome = true) handedOn
    (by decide +kernel) (by decide +kernel)
  exact ⟨l, h, hhost, fun name hname ↦ one_host h hname hhost⟩

end Lobbies
end EosMesh
