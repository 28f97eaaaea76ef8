import EosMesh.Interfaces.Presence.Speaking
import EosMesh.Lib.Replica

/-!
# What a peer holds of our presence

Two installations of one title connect, each in the middle of whatever it does with its other
peers.  As long as the connection stands, what one of them says reaches the other in the order it
was said.  What one holds of the other is then as old as the oldest message that it has not heard.

* `Pairing` is who the two are, and `Meeting` where they stand, with what is on the way between
  them.
* `Meeting.step` lets either do anything with anybody else, connect to the other once, hear what
  comes next from it, or drop it.  `Begins` are two instances that have not met, each after a run of
  its own.
* `Lib.Replica` has the argument: a copy that takes down each announcement settles on the last of
  them, and `settled` is what it will hold once all that is on the way was heard.
* `Placed` is an end in its place: who it is, with a presence of its own that the other can
  receive.  A status outside the enumeration could not be received, so the condition on a step is
  that a commit leaves one of those (`setsStatus`).
* `telling_of_act` says that what an end does with others leaves what it heard from the other end.
* `Follows` is the invariant.  `Follows.sent` is the reason for it: an end says nothing but its
  presence, and says it whenever it changes; `Follows.act`, `Follows.meet` and `Follows.hear` are
  the steps.

`presence_replicated` is the result: what one holds of the other, once all that is on the way is
heard, is what the other's presence is.
-/

set_option autoImplicit false

namespace EosMesh

open Lib

/-- Who the two ends are by id and by account, and the title they both run. -/
structure Pairing where
  user : Bool → Bytes
  epic : Bool → Bytes
  product : Bytes
  epicShort : ∀ x, Short (epic x)
  productShort : Short product
  named : ∀ x, epic x ≠ []
  apart : epic true ≠ epic false

theorem Pairing.epic_ne (p : Pairing) {x y : Bool} (hne : x ≠ y) : p.epic x ≠ p.epic y := by
  obtain rfl := Bool.eq_not_of_ne hne
  cases y
  · exact p.apart
  · exact p.apart.symm

/-- What a message is sent as. -/
def PresenceMessage.envelope (user product dest : Bytes) : PresenceMessage → NetEnvelope
  | .info msg =>
    { typeTag := MessageType.presenceInfo.tag, sourceId := user, destId := dest, gameId := product
      payload := msg.serialize }
  | .request msg =>
    { typeTag := MessageType.presenceRequest.tag, sourceId := user, destId := dest,
      gameId := product
      payload := msg.serialize }

theorem PresenceMessage.envelope_sourceId (user product dest : Bytes) (said : PresenceMessage) :
    (said.envelope user product dest).sourceId = user := by
  cases said <;> rfl

/-- The presence a message announces. -/
def PresenceMessage.news : PresenceMessage → Option PresenceInfo
  | .info msg => some msg
  | .request _ => none

/-- Where the two ends stand, whether each has ever connected to the other, and what is on the way
from each to the other, the oldest first. -/
structure Meeting where
  party : Bool → Presence
  met : Bool → Bool
  wire : Bool → List PresenceMessage

namespace Meeting

/-- What may happen to the two, one thing at a time. -/
inductive Input
  /-- An end does something with anybody else, or drops the other. -/
  | act (x : Bool) (i : Presence.Input)
  /-- The router tells an end that the other is there. -/
  | meet (x : Bool)
  /-- An end hears what comes next from the other. -/
  | hear (x : Bool)
  deriving DecidableEq, Repr

variable (p : Pairing)

/-- What a step handed to the router for `dest`. -/
def posted (dest : Bytes) (s s' : Presence) : List PresenceMessage :=
  ((s'.mesh.sent.drop s.mesh.sent.length).filter (·.1 = dest)).map Prod.snd

/-- One end moves, and what it sends to the other is on its way. -/
def moved (m : Meeting) (x : Bool) (i : Presence.Input) : Option Meeting :=
  ((m.party x).step i).map fun s' ↦
    { m with
      party := Function.update m.party x s'
      wire := Function.update m.wire x (m.wire x ++ posted (p.user !x) (m.party x) s') }

/-- One thing that happens. -/
def step (m : Meeting) : Input → Option Meeting
  | .act x i =>
    if i.source = some (p.user !x) ∧ i ≠ .disconnect (p.user !x) then none else m.moved p x i
  | .meet x =>
    if m.met x then none
    else (m.moved p x (.connect (p.user !x) (p.epic !x) p.product)).map fun m ↦
      { m with met := Function.update m.met x true }
  | .hear x =>
    match m.wire !x with
    | [] => none
    | said :: rest =>
      { m with wire := Function.update m.wire (!x) rest }.moved p x
        (.receive (said.envelope (p.user !x) p.product (p.user x)))

/-- The condition on a step: a commit leaves a status of the enumeration. -/
def setsStatus (m : Meeting) : Input → Prop
  | .act x i => Presence.onSetPresence Presence.StatusFits (m.party x) i
  | _ => True

instance (m : Meeting) : ∀ e, Decidable (m.setsStatus e)
  | .act x i => inferInstanceAs (Decidable (Presence.onSetPresence _ (m.party x) i))
  | .meet _ | .hear _ => isTrue trivial

/-- Two instances that have not met, each after a run of its own. -/
structure Begins (m : Meeting) : Prop where
  party : ∀ x, ∃ losses, Reaches Presence.step (Presence.onSetPresence Presence.StatusFits)
    (Presence.start (p.epic x) (p.user x) p.product losses) (m.party x)
  strangers : ∀ x, p.user (!x) ∉ (m.party x).mesh.peers
  silent : ∀ x, m.wire x = []

end Meeting

/-! ## One end -/

namespace Presence

variable {p : Pairing} {x y : Bool} {s s' : Presence} {i : Input} {peer : Bytes}
  {list : List (Bytes × PresenceMessage)}

/-- What was heard last from a peer that is there. -/
def heardFrom (s : Presence) (peer : Bytes) : Option PresenceInfo := (s.link peer).bind (·.last)

theorem Linked.heardFrom_stranger (h : s.Linked) (hpeer : peer ∉ s.mesh.peers) :
    s.heardFrom peer = none := by
  have hlink : s.link peer = none := by
    by_contra hsome
    obtain ⟨l, hl⟩ := Option.ne_none_iff_exists'.1 hsome
    exact hpeer ((h.connected peer).2 ⟨l, hl⟩)
  rw [heardFrom, hlink, Option.bind_none]

/-- What was heard last from a peer is what is held under its account. -/
theorem Linked.held_eq (h : s.Linked) {l : Link} (hl : s.link peer = some l)
    (hown : l.epic ≠ s.epicAccountId) : s.findPresence l.epic = s.heardFrom peer := by
  rw [heardFrom, hl, Option.bind_some, findPresence]
  ext info
  rw [h.held l.epic info hown]
  constructor
  · rintro ⟨other, k, hk, hlast, heq⟩
    have hsame := h.apart other peer k l hk hl heq (h.about other k info hk hlast).2.1
    rw [hsame, hl] at hk
    cases hk
    exact hlast
  · exact fun hlast ↦ ⟨peer, l, hl, hlast, rfl⟩

/-- An end in its place: who it is, and a presence of its own that can be received. -/
structure Placed (p : Pairing) (x : Bool) (s : Presence) : Prop where
  fitting : s.Fitting
  own : s.epicAccountId = p.epic x
  user : s.productUserId = p.user x
  product : s.productId = p.product
  valid : ∀ info, s.ownInfo = some info →
    info.epicId = p.epic x ∧ statusInRange info.status = true

theorem Placed.ownInfo (h : Placed p x s) : ∃ info, s.ownInfo = some info := by
  have hthere := h.fitting.there (h.own ▸ p.named x)
  exact Option.isSome_iff_exists.1 hthere

theorem Placed.receivable (h : Placed p x s) {info : PresenceInfo} (hinfo : s.ownInfo = some info) :
    Receivable info ∧ info.epicId = p.epic x := by
  obtain ⟨habout, hstatus⟩ := h.valid info hinfo
  exact ⟨(receivable_iff (h.fitting.storable info hinfo)).2 hstatus, habout⟩

theorem committing_ownInfo {o : SetPresenceOptions} {staged : PresenceModificationObject}
    {self : PresenceInfo} (h : s.committing o = some (staged, self)) : s.ownInfo = some self := by
  rw [committing] at h
  split at h
  · split at h
    · rename_i hself
      split at h
      · cases h
      · cases h
        exact hself
    · cases h
  · cases h

theorem Placed.step (h : Placed p x s) (hstep : s.step i = some s')
    (hguard : onSetPresence StatusFits s i) (hstepped : Stepped s i s' list) : Placed p x s' where
  fitting := h.fitting.step hstep
  own := hstepped.own.trans h.own
  user := hstepped.user.trans h.user
  product := hstepped.product.trans h.product
  valid info hinfo := by
    rcases hstepped.news with hsame | ⟨o, staged, self, rfl, hcommit, hown, -⟩
    · exact h.valid info (hsame ▸ hinfo)
    · have hfits : s.StatusFits o := hguard
      rw [StatusFits, hcommit, Option.all_some] at hfits
      rw [hown] at hinfo
      cases hinfo
      exact ⟨(h.valid self (committing_ownInfo hcommit)).1, hfits⟩

theorem placed_start (p : Pairing) (x : Bool) (losses : List (List Bytes)) :
    Placed p x (start (p.epic x) (p.user x) p.product losses) := by
  have hseeded : start (p.epic x) (p.user x) p.product losses =
      { epicAccountId := p.epic x, productUserId := p.user x, productId := p.product
        mesh := { losses }
        presences := ({} : Std.TreeMap Bytes PresenceInfo).insert (p.epic x)
          { epicId := p.epic x, status := statusOnline, productId := p.product
            productName := p.product, productVersion, platform := platformName } } :=
    if_neg (p.named x)
  refine ⟨fitting_start (p.epicShort x) p.productShort _ _, ?_, ?_, ?_, fun info hinfo ↦ ?_⟩
  · rw [hseeded]
  · rw [hseeded]
  · rw [hseeded]
  · rw [hseeded, ownInfo, findPresence, lookup_insert, if_pos rfl] at hinfo
    cases hinfo
    exact ⟨rfl, rfl⟩

theorem placed_of_reaches {losses : List (List Bytes)}
    (h : Reaches step (onSetPresence StatusFits) (start (p.epic x) (p.user x) p.product losses) s) :
    Placed p x s :=
  h.invariant (placed_start p x losses) fun _ _ _ hplaced hguard hstep ↦ by
    obtain ⟨list, hstepped⟩ := step_stepped hplaced.fitting hstep
    exact hplaced.step hstep hguard hstepped

/-- What an end does with others leaves what it heard from the other end. -/
theorem telling_of_act (h : ¬ (i.source = some peer ∧ i ≠ .disconnect peer)) (own product : Bytes)
    (link : Option Link) : i.telling.elim link (follow own product peer link) = link := by
  cases i with
  | connect other epic gameId =>
    refine follow_other fun heq ↦ h ⟨congrArg some heq, fun hi ↦ ?_⟩
    cases hi
  | receive message =>
    refine follow_other fun heq ↦ h ⟨congrArg some heq, fun hi ↦ ?_⟩
    cases hi
  | disconnect other => rfl
  | call c => rfl
  | collect address now => rfl

end Presence

/-! ## Both ends -/

namespace Meeting

variable {p : Pairing} {m m' : Meeting} {x y : Bool} {s s' : Presence} {i : Presence.Input}
  {list : List (Bytes × PresenceMessage)}

/-- The presences on the way. -/
def announcements (wire : List PresenceMessage) : List PresenceInfo :=
  wire.filterMap PresenceMessage.news

theorem mem_announcements {wire : List PresenceMessage} {info : PresenceInfo} :
    info ∈ announcements wire ↔ .info info ∈ wire := by
  rw [announcements, List.mem_filterMap]
  constructor
  · rintro ⟨said, hsaid, hnews⟩
    cases said with
    | info info' =>
      cases hnews
      exact hsaid
    | request request => cases hnews
  · exact fun h ↦ ⟨_, h, rfl⟩

theorem mem_posted {dest : Bytes} (hsent : s'.mesh.sent = s.mesh.sent ++ list)
    {said : PresenceMessage} : said ∈ posted dest s s' ↔ (dest, said) ∈ list := by
  rw [posted, hsent, List.drop_left, List.mem_map]
  constructor
  · rintro ⟨⟨dest', said'⟩, hmem, rfl⟩
    obtain ⟨hlist, hdest⟩ := List.mem_filter.1 hmem
    rwa [← of_decide_eq_true hdest]
  · exact fun h ↦ ⟨_, List.mem_filter.2 ⟨h, by simp⟩, rfl⟩

/-- Both ends are in their place; each knows the other by its account; and what one will hold of the
other, as long as neither has dropped it, is what the other's presence is. -/
structure Follows (p : Pairing) (m : Meeting) : Prop where
  placed : ∀ x, (m.party x).Placed p x
  strangers : ∀ x y, x ≠ y → m.met x = false → p.user y ∉ (m.party x).mesh.peers
  bound : ∀ x y l, x ≠ y → (m.party x).link (p.user y) = some l → l.epic = p.epic y
  letters : ∀ x, ∀ info ∈ announcements (m.wire x),
    Presence.Receivable info ∧ info.epicId = p.epic x
  latest : ∀ x y, x ≠ y → p.user y ∈ (m.party x).mesh.peers →
    (p.user x ∈ (m.party y).mesh.peers ∨ m.met y = false) →
      settled (announcements (m.wire x)) ((m.party y).heardFrom (p.user x)) = (m.party x).ownInfo

/-- **What an end says settles what the other will hold of it**: it says nothing but its presence,
and it says it when it changes and when the two meet. -/
theorem Follows.sent (h : Follows p m) (hne : x ≠ y) (hstepped : (m.party x).Stepped i s' list)
    (hplaced : s'.Placed p x) (hpeer : p.user y ∈ s'.mesh.peers)
    (hbefore : i = .connect (p.user y) (p.epic y) p.product ∨ p.user y ∈ (m.party x).mesh.peers)
    (hstand : p.user x ∈ (m.party y).mesh.peers ∨ m.met y = false) :
    settled (announcements (m.wire x ++ posted (p.user y) (m.party x) s'))
      ((m.party y).heardFrom (p.user x)) = s'.ownInfo := by
  obtain ⟨info, hinfo⟩ := hplaced.ownInfo
  have hmem {item : PresenceInfo} :
      item ∈ announcements (posted (p.user y) (m.party x) s') ↔ (p.user y, .info item) ∈ list :=
    mem_announcements.trans (mem_posted hstepped.sent)
  have hnews : ∀ item ∈ announcements (posted (p.user y) (m.party x) s'), item = info := by
    intro item hitem
    have hown := hstepped.said _ (hmem.1 hitem) item rfl
    rw [hinfo] at hown
    exact (Option.some.inj hown).symm
  have hsplit : announcements (m.wire x ++ posted (p.user y) (m.party x) s') =
      announcements (m.wire x) ++ announcements (posted (p.user y) (m.party x) s') :=
    List.filterMap_append
  rw [hsplit, hinfo]
  rcases hbefore with hconnect | hpresent
  · rw [← (h.placed x).product] at hconnect
    exact settled_sent hnews
      (List.ne_nil_of_mem (hmem.2 (hstepped.greets _ _ hconnect hpeer info hinfo)))
  · rcases hstepped.news with hsame | ⟨o, staged, self, -, -, hown, htold⟩
    · exact settled_again hnews ((h.latest x y hne hpresent hstand).trans (hsame.symm.trans hinfo))
    · rw [hown] at hinfo
      cases hinfo
      exact settled_sent hnews (List.ne_nil_of_mem (hmem.2 (htold _ hpeer)))

/-- One end moves, and the other stays. -/
theorem Follows.moved (h : Follows p m) (hne : x ≠ y) (hstepped : (m.party x).Stepped i s' list)
    (hplaced : s'.Placed p x) (hx : m'.party x = s') (hy : m'.party y = m.party y)
    (hmet : m'.met y = m.met y)
    (hwire : m'.wire x = m.wire x ++ posted (p.user y) (m.party x) s')
    (hheard : m'.wire y ⊆ m.wire y)
    (hbefore : p.user y ∈ s'.mesh.peers →
      i = .connect (p.user y) (p.epic y) p.product ∨ p.user y ∈ (m.party x).mesh.peers)
    (hstranger : m'.met x = false → p.user y ∉ s'.mesh.peers)
    (hbound : ∀ l, s'.link (p.user y) = some l → l.epic = p.epic y)
    (hlatest : p.user x ∈ (m.party y).mesh.peers →
      (p.user y ∈ s'.mesh.peers ∨ m'.met x = false) →
        settled (announcements (m'.wire y)) (s'.heardFrom (p.user y)) = (m.party y).ownInfo) :
    Follows p m' := by
  have htwo (z : Bool) : z = x ∨ z = y := by
    rw [Bool.eq_not_of_ne hne.symm]
    exact (eq_or_ne z x).imp_right Bool.eq_not_of_ne
  refine ⟨fun z ↦ ?_, fun a b hab hmet' ↦ ?_, fun a b l hab hl ↦ ?_, fun z info hinfo ↦ ?_,
    fun a b hab hpeer hstand ↦ ?_⟩
  · rcases htwo z with rfl | rfl
    · rw [hx]
      exact hplaced
    · rw [hy]
      exact h.placed z
  · rcases htwo a with rfl | rfl
    · obtain rfl := (htwo b).resolve_left hab.symm
      rw [hx]
      exact hstranger hmet'
    · rw [hmet] at hmet'
      rw [hy]
      exact h.strangers a b hab hmet'
  · rcases htwo a with rfl | rfl
    · obtain rfl := (htwo b).resolve_left hab.symm
      rw [hx] at hl
      exact hbound l hl
    · rw [hy] at hl
      exact h.bound a b l hab hl
  · rcases htwo z with rfl | rfl
    · rw [hwire, mem_announcements, List.mem_append] at hinfo
      rcases hinfo with hold | hnew
      · exact h.letters z info (mem_announcements.2 hold)
      · exact hplaced.receivable
          (hstepped.said _ ((mem_posted hstepped.sent).1 hnew) info rfl)
    · exact h.letters z info (mem_announcements.2 (hheard (mem_announcements.1 hinfo)))
  · rcases htwo a with rfl | rfl
    · obtain rfl := (htwo b).resolve_left hab.symm
      rw [hx] at hpeer ⊢
      rw [hy, hmet] at hstand
      rw [hy, hwire]
      exact h.sent hne hstepped hplaced hpeer (hbefore hpeer) hstand
    · obtain rfl := (htwo b).resolve_right hab.symm
      rw [hy] at hpeer ⊢
      rw [hx] at hstand ⊢
      exact hlatest hpeer hstand

/-! ## The steps -/

/-- An end does something with others, or drops the other end. -/
theorem Follows.act (h : Follows p m) (hne : x ≠ y) (hstep : (m.party x).step i = some s')
    (hguard : Presence.onSetPresence Presence.StatusFits (m.party x) i)
    (hothers : ¬ (i.source = some (p.user y) ∧ i ≠ .disconnect (p.user y)))
    (hx : m'.party x = s') (hy : m'.party y = m.party y) (hmet : m'.met = m.met)
    (hwire : m'.wire x = m.wire x ++ posted (p.user y) (m.party x) s')
    (hheard : m'.wire y = m.wire y) : Follows p m' := by
  obtain ⟨list, hstepped⟩ := Presence.step_stepped (h.placed x).fitting hstep
  have hplaced := (h.placed x).step hstep hguard hstepped
  have hlink (hpeer : p.user y ∈ s'.mesh.peers) :
      s'.link (p.user y) = (m.party x).link (p.user y) :=
    (hstepped.links _ hpeer).trans (Presence.telling_of_act hothers _ _ _)
  have hstayed (hpeer : p.user y ∈ s'.mesh.peers) : p.user y ∈ (m.party x).mesh.peers := by
    obtain ⟨l, hl⟩ := (hplaced.fitting.linked.connected _).1 hpeer
    exact ((h.placed x).fitting.linked.connected _).2 ⟨l, hlink hpeer ▸ hl⟩
  have hstranger (hnot : m'.met x = false) : p.user y ∉ s'.mesh.peers := fun hpeer ↦
    h.strangers x y hne (hmet ▸ hnot) (hstayed hpeer)
  refine h.moved hne hstepped hplaced hx hy (by rw [hmet]) hwire (by rw [hheard]; simp)
    (fun hpeer ↦ .inr (hstayed hpeer)) hstranger (fun l hl ↦ ?_) fun hback hstand ↦ ?_
  · have hpeer := (hplaced.fitting.linked.connected _).2 ⟨l, hl⟩
    exact h.bound x y l hne (hlink hpeer ▸ hl)
  · have hsame : s'.heardFrom (p.user y) = (m.party x).heardFrom (p.user y) := by
      rcases hstand with hpeer | hnot
      · rw [Presence.heardFrom, hlink hpeer, Presence.heardFrom]
      · rw [hplaced.fitting.linked.heardFrom_stranger (hstranger hnot),
          (h.placed x).fitting.linked.heardFrom_stranger (h.strangers x y hne (hmet ▸ hnot))]
    rw [hheard, hsame]
    exact h.latest y x hne.symm hback (hstand.imp hstayed fun hnot ↦ hmet ▸ hnot)

/-- An end is told that the other is there. -/
theorem Follows.meet (h : Follows p m) (hne : x ≠ y) (hnew : m.met x = false)
    (hstep : (m.party x).step (.connect (p.user y) (p.epic y) p.product) = some s')
    (hx : m'.party x = s') (hy : m'.party y = m.party y) (hmet : m'.met x = true)
    (hmet' : m'.met y = m.met y)
    (hwire : m'.wire x = m.wire x ++ posted (p.user y) (m.party x) s')
    (hheard : m'.wire y = m.wire y) : Follows p m' := by
  obtain ⟨list, hstepped⟩ := Presence.step_stepped (h.placed x).fitting hstep
  have hplaced := (h.placed x).step hstep trivial hstepped
  have hlink (hpeer : p.user y ∈ s'.mesh.peers) :
      s'.link (p.user y) = some { epic := p.epic y } :=
    (hstepped.links _ hpeer).trans (Presence.follow_peerConnected _ _ _ _ _ _)
  have hmetx (hnot : m'.met x = false) : False := by
    rw [hmet] at hnot
    cases hnot
  refine h.moved hne hstepped hplaced hx hy hmet' hwire (by rw [hheard]; simp)
    (fun _ ↦ .inl rfl) (fun hnot ↦ (hmetx hnot).elim) (fun l hl ↦ ?_) fun hback hstand ↦ ?_
  · have hpeer := (hplaced.fitting.linked.connected _).2 ⟨l, hl⟩
    rw [hlink hpeer] at hl
    cases hl
    rfl
  · have hpeer := hstand.resolve_right hmetx
    have hnone := (h.placed x).fitting.linked.heardFrom_stranger (h.strangers x y hne hnew)
    have hlatest := h.latest y x hne.symm hback (.inr hnew)
    rw [hnone] at hlatest
    rw [hheard, Presence.heardFrom, hlink hpeer]
    exact hlatest

/-- What an announcement of the other end does to what is heard from it. -/
theorem announced_envelope {own product user dest epic : Bytes} {info : PresenceInfo}
    (hreceivable : Presence.Receivable info) (habout : info.epicId = epic) (hne : epic ≠ [])
    (hother : epic ≠ own) :
    Presence.announced own product epic
      ((PresenceMessage.info info).envelope user product dest) = some info := by
  rw [Presence.announced, if_pos ⟨rfl, rfl⟩]
  simp only [PresenceMessage.envelope]
  rw [hreceivable.1, Option.map_some, Option.filter_some, if_pos]
  exact decide_eq_true ⟨hreceivable.2, habout, hne, hother⟩

/-- An end hears what comes next from the other. -/
theorem Follows.hear (h : Follows p m) (hne : x ≠ y) {said : PresenceMessage}
    {rest : List PresenceMessage} (hnext : m.wire y = said :: rest)
    (hstep : (m.party x).step (.receive (said.envelope (p.user y) p.product (p.user x))) = some s')
    (hx : m'.party x = s') (hy : m'.party y = m.party y) (hmet : m'.met = m.met)
    (hwire : m'.wire x = m.wire x ++ posted (p.user y) (m.party x) s')
    (hheard : m'.wire y = rest) : Follows p m' := by
  obtain ⟨list, hstepped⟩ := Presence.step_stepped (h.placed x).fitting hstep
  have hplaced := (h.placed x).step hstep trivial hstepped
  have hpresent : p.user y ∈ (m.party x).mesh.peers := by
    rw [Presence.step] at hstep
    split at hstep
    · cases hstep
    · rename_i hguard
      rw [not_or, not_not, PresenceMessage.envelope_sourceId] at hguard
      exact hguard.1
  obtain ⟨l, hl⟩ := ((h.placed x).fitting.linked.connected _).1 hpresent
  have habout := h.bound x y l hne hl
  have hmetx : m.met x ≠ false := fun hnot ↦ h.strangers x y hne hnot hpresent
  have hlink (hpeer : p.user y ∈ s'.mesh.peers) : s'.link (p.user y) =
      some { l with last := said.news.or l.last } := by
    refine (hstepped.links _ hpeer).trans ?_
    rw [Presence.Input.telling, Option.elim_some, hl, (h.placed x).product]
    cases said with
    | request request =>
      have htag : MessageType.presenceRequest.tag ≠ MessageType.presenceInfo.tag := by decide
      refine (Presence.follow_of_announced_none rfl fun k hk ↦ ?_).trans rfl
      exact if_neg fun hboth ↦ htag hboth.2
    | info info =>
      obtain ⟨hreceivable, hepic⟩ := h.letters y info (by
        rw [hnext, mem_announcements]
        exact List.mem_cons_self)
      refine (Presence.follow_of_announced rfl rfl
        (announced_envelope hreceivable ?_ ?_ ?_)).trans rfl
      · rw [hepic, habout]
      · rw [habout]
        exact p.named y
      · rw [habout, (h.placed x).own]
        exact p.epic_ne hne.symm
  refine h.moved hne hstepped hplaced hx hy (by rw [hmet]) hwire ?_ (fun _ ↦ .inr hpresent)
    (fun hnot ↦ absurd (hmet ▸ hnot) hmetx) (fun k hk ↦ ?_) fun hback hstand ↦ ?_
  · rw [hheard, hnext]
    exact List.subset_cons_self _ _
  · have hpeer := (hplaced.fitting.linked.connected _).2 ⟨k, hk⟩
    rw [hlink hpeer] at hk
    cases hk
    exact habout
  · have hpeer := hstand.resolve_right fun hnot ↦ hmetx (hmet ▸ hnot)
    have hlatest := h.latest y x hne.symm hback (.inl hpresent)
    rw [hnext, Presence.heardFrom, hl] at hlatest
    rw [hheard, Presence.heardFrom, hlink hpeer]
    cases said with
    | request request => exact hlatest
    | info info =>
      have hsettled : settled (info :: announcements rest) l.last = (m.party y).ownInfo := hlatest
      rw [settled_cons] at hsettled
      exact hsettled

theorem Follows.step (h : Follows p m) {e : Input} (hguard : m.setsStatus e)
    (hstep : m.step p e = some m') : Follows p m' := by
  cases e with
  | act x i =>
    rw [Meeting.step] at hstep
    split at hstep
    · cases hstep
    · rename_i hothers
      obtain ⟨s', hs', rfl⟩ := Option.map_eq_some_iff.1 hstep
      exact h.act (Bool.self_ne_not x) hs' hguard hothers (by simp) (by simp) rfl
        (by simp) (by simp)
  | meet x =>
    rw [Meeting.step] at hstep
    split at hstep
    · cases hstep
    · rename_i hnew
      obtain ⟨m₁, hmoved, rfl⟩ := Option.map_eq_some_iff.1 hstep
      obtain ⟨s', hs', rfl⟩ := Option.map_eq_some_iff.1 hmoved
      exact h.meet (Bool.self_ne_not x) (Bool.eq_false_iff.2 hnew) hs' (by simp) (by simp) (by simp)
        (by simp) (by simp) (by simp)
  | hear x =>
    rw [Meeting.step] at hstep
    split at hstep
    · cases hstep
    · rename_i said rest hnext
      obtain ⟨s', hs', rfl⟩ := Option.map_eq_some_iff.1 hstep
      exact h.hear (Bool.self_ne_not x) hnext hs' (by simp) (by simp) rfl (by simp) (by simp)

theorem follows_of_begins (h : Begins p m) : Follows p m := by
  have hplaced (x : Bool) : (m.party x).Placed p x := by
    obtain ⟨losses, hreach⟩ := h.party x
    exact Presence.placed_of_reaches hreach
  have hstranger {x y : Bool} (hne : x ≠ y) : p.user y ∉ (m.party x).mesh.peers := by
    rw [Bool.eq_not_of_ne hne.symm]
    exact h.strangers x
  refine ⟨hplaced, fun x y hne _ ↦ hstranger hne, fun x y l hne hl ↦ ?_, fun x info hinfo ↦ ?_,
    fun x y hne hpeer _ ↦ absurd hpeer (hstranger hne)⟩
  · have hpeer := ((hplaced x).fitting.linked.connected _).2 ⟨l, hl⟩
    exact absurd hpeer (hstranger hne)
  · rw [h.silent x] at hinfo
    cases hinfo

/-- **What a peer holds of our presence, once all that is on the way is heard, is our presence**, as
long as the two have each other: whatever else either does, and whomever it loses. -/
theorem presence_replicated {m₀ : Meeting} (hbegins : Begins p m₀)
    (h : Reaches (Meeting.step p) setsStatus m₀ m) (x : Bool)
    (hthere : p.user (!x) ∈ (m.party x).mesh.peers)
    (hback : p.user x ∈ (m.party !x).mesh.peers) :
    ∃ info, (m.party x).findPresence (p.epic x) = some info ∧
      settled (announcements (m.wire x)) ((m.party !x).findPresence (p.epic x)) = some info := by
  have hfollows : Follows p m := h.invariant (follows_of_begins hbegins)
    fun _ _ _ hfollows hguard hstep ↦ hfollows.step hguard hstep
  have hne : x ≠ !x := Bool.self_ne_not x
  obtain ⟨info, hinfo⟩ := (hfollows.placed x).ownInfo
  obtain ⟨l, hl⟩ := ((hfollows.placed !x).fitting.linked.connected _).1 hback
  have habout := hfollows.bound (!x) x l hne.symm hl
  have hheld : (m.party !x).findPresence (p.epic x) = (m.party !x).heardFrom (p.user x) := by
    rw [← habout]
    refine (hfollows.placed !x).fitting.linked.held_eq hl ?_
    rw [habout, (hfollows.placed !x).own]
    exact p.epic_ne hne
  have hown : (m.party x).findPresence (p.epic x) = some info := by
    rw [← (hfollows.placed x).own]
    exact hinfo
  refine ⟨info, hown, ?_⟩
  rw [hheld, hfollows.latest x (!x) hne hthere (.inl hback), hinfo]

/-- Two installations of one title. -/
def couple : Pairing where
  user x := [if x then 1 else 2]
  epic x := [100, if x then 1 else 2]
  product := [9]
  epicShort := by decide
  productShort := by decide
  named := by decide
  apart := by decide

/-- The two, just started. -/
def apart : Meeting where
  party x := .start (couple.epic x) (couple.user x) couple.product []
  met _ := false
  wire _ := []

/-- They meet and hear each other's greeting; then the first changes its status, which is heard. -/
def statusChanged : List Input :=
  [.meet true, .meet false, .hear true, .hear false,
    .act true (.call (.createPresenceModification 1 (some [100, 1]))),
    .act true (.call (.modificationSetStatus 1 ⟨1, statusDoNotDisturb⟩)),
    .act true (.call (.setPresence ⟨1, some [100, 1], 1⟩)), .hear false]

/-- The second holds the status the first has set. -/
theorem presence_replicated_status : ∃ (m : Meeting) (info : PresenceInfo),
    m.wire true = [] ∧ info.status = statusDoNotDisturb ∧
      (m.party true).findPresence [100, 1] = some info ∧
      (m.party false).findPresence [100, 1] = some info := by
  obtain ⟨m, hreach, ⟨hstatus, hheard⟩, hthere, hback⟩ := exists_reaches (Meeting.step couple)
    setsStatus apart
    (fun m ↦ (((m.party true).findPresence [100, 1]).map (·.status) = some statusDoNotDisturb ∧
      m.wire true = []) ∧ [2] ∈ (m.party true).mesh.peers ∧ [1] ∈ (m.party false).mesh.peers)
    statusChanged (by decide +kernel) (by decide +kernel)
  have hbegins : Begins couple apart := ⟨fun x ↦ ⟨[], .refl⟩, by decide, fun _ ↦ rfl⟩
  obtain ⟨info, hown, hheld⟩ := presence_replicated hbegins hreach true hthere hback
  rw [hheard, announcements, List.filterMap_nil, settled_nil] at hheld
  refine ⟨m, info, hheard, ?_, hown, hheld⟩
  have hsame : (m.party true).findPresence [100, 1] = some info := hown
  rw [hsame] at hstatus
  exact Option.some.inj hstatus

end Meeting
end EosMesh
