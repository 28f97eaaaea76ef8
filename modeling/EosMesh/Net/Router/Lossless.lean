import EosMesh.Net.Router.LinkStages

/-!
# A link loses nothing

From the moment a dial comes through, whatever the two ends do and however their sockets behave,
what an end hands on from the stream is what the other put into its outbox, in order and up to what
is still on the way; and nothing but a socket ends the connection.

A link is two machines and the bytes between them (`Net.Router.Link`).  Before either end has
adopted the other, the bytes are those of the handshake, and afterwards sealed frames; what
`Net.Router.LinkStages` calls a stage says which of the two, and what is on the way in each
direction.  Here every step of either end is shown to lead from a stage to a stage.

* `drained` is a peer's turn: what has arrived whole is opened and handed on, and the rest stays in
  the buffer.  It is the one step that takes from the wire.
* `sent` is a send.  A frame that is not queued (`sent_refused`) drops the peer, with all that
  waited for it; one that is queued (`sent_queued`) is the last letter on the way, whatever part of
  the outbox the socket takes.
* `Stage.still` is all that moves no bytes: registrations, datagrams, the loopback, dials to others.
* `Stage.step` puts the three together, and `stage_dialed` is where the stages begin.
* `link_lossless` is the result for what arrives, read off the sends of one end and the deliveries
  of the other (`Delivered`), and `link_stands` the one for the connection: an end that stands comes
  through its turn, whatever part of what is on the wire it is given.

Both results are about sockets that cut the stream where they like and take as little as they like;
a socket that fails ends the link, and what had been handed on by then is still a prefix of what was
sent.
-/

set_option autoImplicit false

namespace EosMesh

open Lib

namespace Link

variable {crypto : Crypto} {p : Parties} {s s' : Link} {x y : Bool}

/-! ## What a peer does -/

section Peer

variable {w : World} {r : Router} {n received : Nat} {entry : Peer} {id key key' : Bytes}
  {bodies ahead : List Bytes} {letters : List Letter} {arrived : List NetEnvelope}
  {health : StreamHealth} {msg : NetEnvelope}

/-- A peer's turn hands on what has arrived whole. -/
theorem drained (hne : y ≠ x)
    (hstate : (s x).state = .peer (p.config crypto y).productUserId entry)
    (hest : entry.channel.established = true)
    (hsend : CountsTo entry.channel.send key' (s x).queued.length)
    (hrecv : CountsTo entry.channel.recv key arrived.length)
    (hout : Way s x y bodies) (hinto : Way s y x (letters.map (·.body)))
    (htold : Told crypto p s y x key arrived letters) :
    let s' := s.turned x n ((s x).drains crypto (p.config crypto x)
      (w.reading ((s y).wire.take n) health) (p.config crypto y).productUserId entry)
    (∃ arrived' letters', Told crypto p s' y x key arrived' letters' ∧
        Way s' y x (letters'.map (·.body)) ∧
        Meshed s' x (p.config crypto y).productUserId key' key arrived'.length) ∧
      Way s' x y bodies ∧ (Calm crypto p y w r health → (s' x).state ≠ .gone) := by
  intro s'
  have hstands : (s x).state ≠ .gone := by
    rw [hstate]
    exact fun h ↦ by cases h
  have hself : s' x = (s x).drains crypto (p.config crypto x)
      (w.reading ((s y).wire.take n) health) (p.config crypto y).productUserId entry :=
    turned_self s x n _
  have hother : s' y = { s y with wire := (s y).wire.drop n } := turned_other s n _ hne
  have harrived := (hinto.carries hstands).arrived n
  rw [stretch, hstate] at harrived
  obtain ⟨ready, later, rest, hsplit, hmessages, hbuffer, hcount, houtbox, hcalm⟩ :=
    @Router.drainPeer_sealed crypto (p.config crypto x) (w.reading ((s y).wire.take n) health) key
      arrived.length letters entry hest hrecv htold.sealed harrived
        (p.config crypto y).productUserId
  obtain ⟨hchannel, -⟩ := @Router.drainPeer_identity crypto (p.config crypto x)
    (w.reading ((s y).wire.take n) health) (p.config crypto y).productUserId entry
  have hstate' : (s' x).state =
      if (Router.drainPeer crypto (p.config crypto x) (w.reading ((s y).wire.take n) health)
        (p.config crypto y).productUserId entry).dead.isSome then .gone
      else .peer (p.config crypto y).productUserId (Router.drainPeer crypto (p.config crypto x)
        (w.reading ((s y).wire.take n) health) (p.config crypto y).productUserId entry).entry := by
    rw [hself]
    rfl
  have hwire : (s' x).wire = (s x).wire ++
      Router.drainTaken crypto (w.reading ((s y).wire.take n) health) entry := by
    rw [hself]
    rfl
  have hheard : (s' x).heard = (s x).heard ++
      (Router.drainPeer crypto (p.config crypto x) (w.reading ((s y).wire.take n) health)
        (p.config crypto y).productUserId entry).messages.map Prod.fst := by
    rw [hself]
    rfl
  generalize Router.drainPeer crypto (p.config crypto x) (w.reading ((s y).wire.take n) health)
    (p.config crypto y).productUserId entry = drained
      at hmessages hbuffer hcount houtbox hcalm hchannel hstate' hheard
  have hqueued : (s' x).queued = (s x).queued := by
    rw [hself]
    rfl
  have hthere : (s' y).state = (s y).state := by rw [hother]
  have hletters : letters.map (·.body) = ready.map (·.body) ++ later.map (·.body) := by
    rw [hsplit.letters, List.map_append]
  have hlength : (arrived ++ ready.map (·.msg)).length = arrived.length + ready.length := by
    rw [List.length_append, List.length_map]
  have hsealed := htold.sealed
  rw [hsplit.letters] at hsealed
  have hin : (s' x).state ≠ .gone → (s x).state.buffer ++ (s y).wire.take n =
      (ready.map (·.body)).flatMap frameMessage ++ (s' x).state.buffer := by
    intro hhere
    rw [hstate'] at hhere ⊢
    rw [hstate]
    split at hhere
    · exact absurd rfl hhere
    · rename_i hdead
      rw [if_neg hdead, LinkEnd.buffer, LinkEnd.buffer, hbuffer]
      exact hsplit.arrived
  have hputs : ∃ lost, (s x).state.outbox ++ ([] : List Bytes).flatMap frameMessage =
      Router.drainTaken crypto (w.reading ((s y).wire.take n) health) entry ++
        ((s' x).state.outbox ++ lost) ∧ ((s' x).state ≠ .gone → lost = []) := by
    rw [hstate, hstate', List.flatMap_nil, List.append_nil]
    by_cases hdead : drained.dead.isSome = true
    · rw [if_pos hdead]
      exact ⟨drained.entry.outbox, houtbox, fun h ↦ absurd rfl h⟩
    · rw [if_neg hdead]
      exact ⟨[], by rw [List.append_nil]; exact houtbox, fun _ ↦ rfl⟩
  obtain ⟨lost, hputs, hlost⟩ := hputs
  have hout' := hout.out hstands hthere hwire hputs hlost (by simp)
  rw [List.append_nil] at hout'
  refine ⟨⟨arrived ++ ready.map (·.msg), later, ⟨?_, ?_, ?_⟩, ?_, ?_⟩, hout', fun hcalm' ↦ ?_⟩
  · rw [hother, htold.queued, hsplit.letters, List.map_append, List.append_assoc]
  · rw [hheard, hmessages, htold.heard, List.filterMap_append]
  · rw [hlength]
    exact hsealed.drop
  · rw [hletters] at hinto
    exact hinto.into hstands hthere (by rw [hother]) hin
  · rw [Meshed, hstate', hqueued, hlength]
    split
    · exact .inl rfl
    · refine .inr ⟨drained.entry, rfl, ?_, ?_, hcount⟩
      · rw [hchannel]
        exact hest
      · rw [hchannel]
        exact hsend
  · rw [hstate', hcalm (hcalm'.writable _) hcalm'.alive]
    exact fun h ↦ by cases h

/-- A step at one end that reads nothing, and leaves its buffer alone if it stands. -/
theorem Way.unread (h : Way s y x bodies) (hne : y ≠ x) (hstands : (s x).state ≠ .gone)
    (st : Station)
    (hbuffer : st.state ≠ .gone → st.state.buffer = (s x).state.buffer) :
    Way (Function.update s x st) y x bodies := by
  have hthere : Function.update s x st y = s y := Function.update_of_ne hne _ _
  have hsame : Way s y x ([] ++ bodies) := h
  have hnothing : (s y).wire.drop 0 = (s y).wire := List.drop_zero
  refine hsame.into hstands (by rw [hthere]) (n := 0) (by rw [hthere, hnothing]) fun hhere ↦ ?_
  rw [Function.update_self] at hhere ⊢
  rw [hbuffer hhere, List.take_zero, List.append_nil]
  rfl

/-- A frame that is not queued fails its send. -/
theorem sendFrame_refused {plain : Bytes} (h : Router.sendFits crypto entry plain = none) :
    (sendFrame crypto w entry plain).1 = false := by
  rw [Router.sendFits] at h
  rw [sendFrame]
  cases hseal : sealFrame crypto entry.channel plain with
  | none => rfl
  | some sealing =>
    rw [hseal] at h
    dsimp only at h ⊢
    split at h
    · rename_i hlong
      rw [queueAndFlush, if_pos hlong]
    · cases h

/-- One that is queued goes out with the outbox, as far as the socket takes it. -/
theorem sendFrame_queued {plain framed : Bytes}
    (h : Router.sendFits crypto entry plain = some framed) :
    ∃ channel, sealFrame crypto entry.channel plain = some (framed, channel) ∧
      sendFrame crypto w entry plain =
        ((flushOutbox (w.sends entry.connection) (entry.outbox ++ framed)).1,
          { entry with
            channel
            outbox := (flushOutbox (w.sends entry.connection) (entry.outbox ++ framed)).2.1 }) := by
  rw [Router.sendFits] at h
  cases hseal : sealFrame crypto entry.channel plain with
  | none =>
    rw [hseal] at h
    cases h
  | some sealing =>
    rw [hseal] at h
    dsimp only at h
    split at h
    · cases h
    · rename_i hfits
      obtain rfl := Option.some.inj h
      refine ⟨sealing.2, rfl, ?_⟩
      rw [sendFrame, hseal]
      dsimp only
      rw [queueAndFlush, if_neg hfits]

/-- A send reads nothing, so what is on the way to the sender stays. -/
theorem Way.sent (h : Way s y x bodies) (hne : y ≠ x) (hstate : (s x).state = .peer id entry) :
    Way (Function.update s x ((s x).sends crypto w id entry msg)) y x bodies := by
  refine h.unread hne ?_ _ fun hhere ↦ ?_
  · rw [hstate]
    exact fun h ↦ by cases h
  · rw [Station.sends] at hhere ⊢
    dsimp only at hhere ⊢
    split at hhere
    · rename_i hok
      have hbuffer : (sendFrame crypto w entry msg.serialize).2.buffer = entry.buffer := by
        cases hfits : Router.sendFits crypto entry msg.serialize with
        | none =>
          rw [sendFrame_refused hfits] at hok
          cases hok
        | some framed =>
          obtain ⟨channel, -, hframe⟩ := @sendFrame_queued crypto w entry _ _ hfits
          rw [hframe]
      rw [if_pos hok, hstate]
      exact hbuffer
    · exact absurd rfl hhere

/-- A peer whose envelope is not queued is dropped, with all that waited for it. -/
theorem sent_refused (hne : y ≠ x) (hstate : (s x).state = .peer id entry)
    (hout : Way s x y (ahead ++ letters.map (·.body)))
    (htold : Told crypto p s x y key arrived letters)
    (hrefused : Router.sendFits crypto entry msg.serialize = none) :
    let s' := Function.update s x ((s x).sends crypto w id entry msg)
    Told crypto p s' x y key arrived letters ∧ Way s' x y (ahead ++ letters.map (·.body)) ∧
      (s' x).state = .gone := by
  intro s'
  have hself : s' x = (s x).sends crypto w id entry msg := Function.update_self _ _ _
  have hother : s' y = s y := Function.update_of_ne hne _ _
  have hstands : (s x).state ≠ .gone := by
    rw [hstate]
    exact fun h ↦ by cases h
  have hgone : (s' x).state = .gone := by
    rw [hself, Station.sends]
    dsimp only
    rw [sendFrame_refused hrefused]
    rfl
  have hqueued : (s' x).queued = (s x).queued := by
    rw [hself, Station.sends]
    dsimp only
    rw [hrefused]
    exact List.append_nil _
  have hwire : (s' x).wire = (s x).wire ++ [] := by
    rw [hself, Station.sends]
    dsimp only
    rw [Router.sendTaken, hrefused]
  have hputs : (s x).state.outbox ++ ([] : List Bytes).flatMap frameMessage =
      [] ++ ((s' x).state.outbox ++ (s x).state.outbox) := by
    rw [hgone]
    exact List.append_nil _
  have hout' := hout.out hstands (by rw [hother]) hwire hputs (fun hhere ↦ absurd hgone hhere)
    (by simp)
  rw [List.append_nil] at hout'
  exact ⟨htold.congr hqueued (by rw [hother]), hout', hgone⟩

/-- An envelope that is queued is the last letter on the way. -/
theorem sent_queued (hsound : crypto.Sound) (hne : y ≠ x) {framed : Bytes}
    (hstate : (s x).state = .peer id entry) (hest : entry.channel.established = true)
    (hsend : CountsTo entry.channel.send key (s x).queued.length)
    (hrecv : CountsTo entry.channel.recv key' received)
    (hout : Way s x y (ahead ++ letters.map (·.body)))
    (htold : Told crypto p s x y key arrived letters)
    (hfits : Router.sendFits crypto entry msg.serialize = some framed) :
    let s' := Function.update s x ((s x).sends crypto w id entry msg)
    (∃ letters', Told crypto p s' x y key arrived letters' ∧
        Way s' x y (ahead ++ letters'.map (·.body))) ∧
      Meshed s' x id key key' received := by
  intro s'
  obtain ⟨channel', hseal, hframe⟩ := @sendFrame_queued crypto w entry _ _ hfits
  obtain ⟨body, rfl, hsealed, hcount, hchannel⟩ := sealFrame_letter hsound hsend hseal
  have hself : s' x = (s x).sends crypto w id entry msg := Function.update_self _ _ _
  have hother : s' y = s y := Function.update_of_ne hne _ _
  have hstands : (s x).state ≠ .gone := by
    rw [hstate]
    exact fun h ↦ by cases h
  have hqueued : (s' x).queued = (s x).queued ++ [msg] := by
    rw [hself, Station.sends]
    dsimp only
    rw [hfits]
    rfl
  have hwire : (s' x).wire = (s x).wire ++
      flushTaken (w.sends entry.connection) (entry.outbox ++ frameMessage body) := by
    rw [hself, Station.sends]
    dsimp only
    rw [Router.sendTaken, hfits]
  have hstate' : (s' x).state = if (sendFrame crypto w entry msg.serialize).1 then
      .peer id (sendFrame crypto w entry msg.serialize).2 else .gone := by
    rw [hself]
    rfl
  rw [hframe] at hstate'
  have hflush := flushTaken_append (w.sends entry.connection) (entry.outbox ++ frameMessage body)
  generalize flushOutbox (w.sends entry.connection) (entry.outbox ++ frameMessage body) = flushed
    at hstate' hflush
  have hputs : ∃ lost, (s x).state.outbox ++ [body].flatMap frameMessage =
      flushTaken (w.sends entry.connection) (entry.outbox ++ frameMessage body) ++
        ((s' x).state.outbox ++ lost) ∧ ((s' x).state ≠ .gone → lost = []) := by
    rw [hstate, hstate', List.flatMap_singleton]
    split
    · exact ⟨[], by rw [List.append_nil]; exact hflush.symm, fun _ ↦ rfl⟩
    · exact ⟨flushed.2.1, hflush.symm, fun h ↦ absurd rfl h⟩
  obtain ⟨lost, hputs, hlost⟩ := hputs
  have hout' := hout.out hstands (by rw [hother]) hwire hputs hlost fun other hmem ↦ by
    rw [List.mem_singleton.1 hmem]
    exact hsealed.small
  have hlength : (s x).queued.length = arrived.length + letters.length := by
    rw [htold.queued, List.length_append, List.length_map]
  refine ⟨⟨letters ++ [⟨msg, body⟩], ⟨?_, ?_, ?_⟩, ?_⟩, ?_⟩
  · rw [hqueued, htold.queued, List.map_append, List.append_assoc]
    rfl
  · rw [hother, htold.heard]
  · rw [hlength] at hsealed
    exact htold.sealed.concat hsealed
  · rw [List.map_append, ← List.append_assoc]
    exact hout'
  · rw [Meshed, hstate']
    split
    · refine .inr ⟨_, rfl, ?_, ?_, ?_⟩
      · dsimp only
        rw [hchannel]
        exact hest
      · rw [hqueued, List.length_append]
        exact hcount
      · dsimp only
        rw [hchannel]
        exact hrecv
    · exact .inl rfl

/-- A peer sends: the envelope is the last letter on the way, or the peer is dropped. -/
theorem sent (hsound : crypto.Sound) (hne : y ≠ x)
    (hstate : (s x).state = .peer id entry) (hest : entry.channel.established = true)
    (hsend : CountsTo entry.channel.send key (s x).queued.length)
    (hrecv : CountsTo entry.channel.recv key' received)
    (hout : Way s x y (ahead ++ letters.map (·.body))) (hinto : Way s y x bodies)
    (htold : Told crypto p s x y key arrived letters) :
    let s' := Function.update s x ((s x).sends crypto w id entry msg)
    (∃ letters', Told crypto p s' x y key arrived letters' ∧
        Way s' x y (ahead ++ letters'.map (·.body))) ∧
      Way s' y x bodies ∧ Meshed s' x id key key' received := by
  intro s'
  have hinto' : Way s' y x bodies := hinto.sent hne hstate
  cases hfits : Router.sendFits crypto entry msg.serialize with
  | none =>
    obtain ⟨htold', hout', hgone⟩ := sent_refused hne hstate hout htold hfits
    exact ⟨⟨letters, htold', hout'⟩, hinto', .inl hgone⟩
  | some framed =>
    obtain ⟨hway, hmeshed⟩ := sent_queued hsound hne hstate hest hsend hrecv hout htold hfits
    exact ⟨hway, hinto', hmeshed⟩

end Peer

/-! ## Every step -/

/-- An end that is gone, or the same peer as far as the stream goes. -/
def Same (before after : LinkEnd) : Prop :=
  after = .gone ∨ ∃ id entry entry', before = .peer id entry ∧ after = .peer id entry' ∧
    entry'.outbox = entry.outbox ∧ entry'.buffer = entry.buffer ∧
    entry'.channel.established = entry.channel.established ∧
    entry'.channel.send = entry.channel.send ∧ entry'.channel.recv = entry.channel.recv

/-- A step of one end that moves nothing on the stream. -/
theorem Stage.still (h : Stage crypto p s) (hstands : (s x).state ≠ .gone) {after : LinkEnd}
    (hsame : Same (s x).state after) :
    Stage crypto p (Function.update s x { s x with state := after }) := by
  set s' : Link := Function.update s x { s x with state := after } with hs'
  have hself : s' x = { s x with state := after } := Function.update_self _ _ _
  have hother {z : Bool} (hne : z ≠ x) : s' z = s z := Function.update_of_ne hne _ _
  have hlogs (z : Bool) : (s' z).queued = (s z).queued ∧ (s' z).heard = (s z).heard := by
    by_cases hz : z = x
    · rw [hz, hself]
      exact ⟨rfl, rfl⟩
    · rw [hother hz]
      exact ⟨rfl, rfl⟩
  have hshaking {z : Bool} {channel : PeerChannel} {expected : Bytes}
      (hz : Shaking s z channel expected) : Shaking s' z channel expected := by
    by_cases hzx : z = x
    · subst hzx
      rcases hsame with hgone | ⟨id, entry, entry', hbefore, -⟩
      · exact .inl (by rw [hself]; exact hgone)
      · rcases hz with hgone | ⟨other, hat, -⟩
        · exact absurd hgone hstands
        · rw [hat] at hbefore
          cases hbefore
    · exact hz.congr (by rw [hother hzx])
  have hmeshed {z : Bool} {id sendKey recvKey : Bytes} {received : Nat}
      (hz : Meshed s z id sendKey recvKey received) : Meshed s' z id sendKey recvKey received := by
    by_cases hzx : z = x
    · subst hzx
      rcases hsame with hgone | ⟨id', entry, entry', hbefore, hafter, -, -, hest, hsend, hrecv⟩
      · exact .inl (by rw [hself]; exact hgone)
      · rcases hz with hgone | ⟨other, hat, hest', hsend', hrecv'⟩
        · exact absurd hgone hstands
        · rw [hat] at hbefore
          cases hbefore
          refine .inr ⟨entry', by rw [hself]; exact hafter, hest.trans hest', ?_, ?_⟩
          · rw [(hlogs z).1, hsend]
            exact hsend'
          · rw [hrecv]
            exact hrecv'
    · exact hz.congr (by rw [hother hzx]) (hlogs z).1
  have hway {a b : Bool} {bodies : List Bytes} (hab : a ≠ b) (hw : Way s a b bodies) :
      Way s' a b bodies := by
    by_cases hax : a = x
    · subst hax
      have hwire : (s' a).wire = (s a).wire ++ [] := by
        rw [hself]
        exact (List.append_nil _).symm
      have hputs : ∃ lost, (s a).state.outbox ++ ([] : List Bytes).flatMap frameMessage =
          [] ++ ((s' a).state.outbox ++ lost) ∧ ((s' a).state ≠ .gone → lost = []) := by
        rw [hself]
        dsimp only
        rcases hsame with rfl | ⟨id, entry, entry', hbefore, rfl, houtbox, -⟩
        · exact ⟨(s a).state.outbox, List.append_nil _, fun hhere ↦ absurd rfl hhere⟩
        · refine ⟨[], ?_, fun _ ↦ rfl⟩
          rw [hbefore, LinkEnd.outbox, LinkEnd.outbox, houtbox]
          simp
      obtain ⟨lost, hputs, hlost⟩ := hputs
      have hout := hw.out hstands (by rw [hother hab.symm]) hwire hputs hlost (by simp)
      rwa [List.append_nil] at hout
    · obtain rfl : b = x := by
        cases a <;> cases b <;> cases x <;> simp_all
      refine hw.unread hab hstands _ fun hhere ↦ ?_
      rcases hsame with hgone | ⟨id, entry, entry', hbefore, hafter, -, hbuffer, -⟩
      · exact absurd hgone hhere
      · dsimp only
        rw [hbefore, hafter, LinkEnd.buffer, LinkEnd.buffer, hbuffer]
  have htold {a b : Bool} {key : Bytes} {arrived : List NetEnvelope} {letters : List Letter}
      (ht : Told crypto p s a b key arrived letters) : Told crypto p s' a b key arrived letters :=
    ht.congr (hlogs a).1 (hlogs b).2
  have htf : true ≠ false := by decide
  cases h with
  | asked hopening hI hR hout hback htold₁ htold₂ =>
    exact .asked hopening (hshaking hI) (hshaking hR) (hway htf hout) (hway htf.symm hback)
      (htold htold₁) (htold htold₂)
  | answered t hI hR hout hback htold₁ htold₂ =>
    exact .answered t (hshaking hI) (hshaking hR) (hway htf hout) (hway htf.symm hback)
      (htold htold₁) (htold htold₂)
  | closing t hI hR hout hback htold₁ htold₂ =>
    exact .closing t (hmeshed hI) (hshaking hR) (hway htf hout) (hway htf.symm hback)
      (htold htold₁) (htold htold₂)
  | up hI hR hout hback htold₁ htold₂ =>
    exact .up (hmeshed hI) (hmeshed hR) (hway htf hout) (hway htf.symm hback)
      (htold htold₁) (htold htold₂)

theorem Meshed.of_state {id id' sendKey recvKey : Bytes} {received : Nat} {entry : Peer}
    (h : Meshed s x id sendKey recvKey received) (hstate : (s x).state = .peer id' entry) :
    id' = id ∧ entry.channel.established = true ∧
      CountsTo entry.channel.send sendKey (s x).queued.length ∧
      CountsTo entry.channel.recv recvKey received := by
  rcases h with hgone | ⟨other, hother, hrest⟩
  · rw [hstate] at hgone
    cases hgone
  · rw [hstate] at hother
    cases hother
    exact ⟨rfl, hrest⟩

theorem Shaking.not_peer {channel : PeerChannel} {expected id : Bytes} {entry : Peer}
    (h : Shaking s x channel expected) : (s x).state ≠ .peer id entry := by
  intro hstate
  rcases h with hgone | ⟨other, hother, -⟩
  · rw [hstate] at hgone
    cases hgone
  · rw [hstate] at hother
    cases hother

section Steps

variable {w : World} {r : Router} {n : Nat} {entry : Peer} {id : Bytes} {health : StreamHealth}
  {msg : NetEnvelope}

/-- What a peer's turn does to the logs, and to the other end. -/
theorem drains_keeps (s : Link) (hne : y ≠ x) (config : Config) (w : World) (n : Nat) (id : Bytes)
    (entry : Peer) :
    (s.turned x n ((s x).drains crypto config w id entry) y).state = (s y).state ∧
      (s.turned x n ((s x).drains crypto config w id entry) y).heard = (s y).heard ∧
      ∀ z, (s.turned x n ((s x).drains crypto config w id entry) z).queued = (s z).queued := by
  refine ⟨by rw [turned_other s n _ hne], by rw [turned_other s n _ hne], fun z ↦ ?_⟩
  by_cases hz : z = x
  · subst hz
    rw [turned_self]
    rfl
  · rw [turned_other s n _ hz]

/-- **A peer's turn.** -/
theorem Stage.drains (h : Stage crypto p s) (hstate : (s x).state = .peer id entry) :
    let s' := s.turned x n ((s x).drains crypto (p.config crypto x)
      (w.reading ((s !x).wire.take n) health) id entry)
    Stage crypto p s' ∧ (Calm crypto p (!x) w r health → (s' x).state ≠ .gone) := by
  intro s'
  cases h with
  | asked hopening hI hR =>
    cases x with
    | true => exact absurd hstate hI.not_peer
    | false => exact absurd hstate hR.not_peer
  | answered t hI hR =>
    cases x with
    | true => exact absurd hstate hI.not_peer
    | false => exact absurd hstate hR.not_peer
  | closing t hI hR hout hback htold htold' =>
    cases x with
    | false => exact absurd hstate hR.not_peer
    | true =>
      obtain ⟨rfl, hest, hsend, hrecv⟩ := hI.of_state hstate
      have hne : false ≠ true := by decide
      have hinto : Way s false true (([] : List Letter).map (·.body)) := hback
      have hquiet : Told crypto p s false true t.i₂.recv.key [] [] :=
        ⟨htold'.queued, htold'.heard, trivial⟩
      have hcount : CountsTo entry.channel.recv t.i₂.recv.key
        ([] : List NetEnvelope).length := hrecv
      obtain ⟨⟨arrived', letters', htold₂, hback', hI'⟩, hout', hcalm⟩ :=
        drained hne hstate hest hsend hcount hout hinto hquiet
      obtain ⟨hthere, hheard, hqueued⟩ := @drains_keeps crypto true false s hne _ _ n _ entry
      -- The other end has sent nothing yet.
      have hnothing := htold₂.queued
      rw [hqueued false, htold'.queued] at hnothing
      obtain ⟨rfl, hletters⟩ := List.append_eq_nil_iff.1 hnothing.symm
      obtain rfl := List.map_eq_nil_iff.1 hletters
      exact ⟨.closing t hI' (hR.congr hthere) hout' hback' (htold.congr (hqueued true) hheard)
        ⟨htold₂.queued, htold₂.heard, trivial⟩, hcalm⟩
  | up hI hR hout hback htold htold' =>
    cases x with
    | true =>
      obtain ⟨rfl, hest, hsend, hrecv⟩ := hI.of_state hstate
      have hne : false ≠ true := by decide
      obtain ⟨⟨arrived', letters', htold₂, hback', hI'⟩, hout', hcalm⟩ :=
        drained hne hstate hest hsend hrecv hout hback htold'
      obtain ⟨hthere, hheard, hqueued⟩ := @drains_keeps crypto true false s hne _ _ n _ entry
      exact ⟨.up hI' (hR.congr hthere (hqueued false)) hout' hback'
        (htold.congr (hqueued true) hheard) htold₂, hcalm⟩
    | false =>
      obtain ⟨rfl, hest, hsend, hrecv⟩ := hR.of_state hstate
      have hne : true ≠ false := by decide
      obtain ⟨⟨arrived', letters', htold₁, hout', hR'⟩, hback', hcalm⟩ :=
        drained hne hstate hest hsend hrecv hback hout htold
      obtain ⟨hthere, hheard, hqueued⟩ := @drains_keeps crypto false true s hne _ _ n _ entry
      exact ⟨.up (hI.congr hthere (hqueued true)) hR' hout' hback' htold₁
        (htold'.congr (hqueued false) hheard), hcalm⟩

/-- **A send.** -/
theorem Stage.sends (hsound : crypto.Sound) (h : Stage crypto p s)
    (hstate : (s x).state = .peer id entry) :
    Stage crypto p (Function.update s x ((s x).sends crypto w id entry msg)) := by
  have hkeeps {y : Bool} (hne : y ≠ x) :
      Function.update s x ((s x).sends crypto w id entry msg) y = s y :=
    Function.update_of_ne hne _ _
  have hheard (z : Bool) :
      (Function.update s x ((s x).sends crypto w id entry msg) z).heard = (s z).heard := by
    by_cases hz : z = x
    · subst hz
      rw [Function.update_self]
      rfl
    · rw [hkeeps hz]
  cases h with
  | asked hopening hI hR =>
    cases x with
    | true => exact absurd hstate hI.not_peer
    | false => exact absurd hstate hR.not_peer
  | answered t hI hR =>
    cases x with
    | true => exact absurd hstate hI.not_peer
    | false => exact absurd hstate hR.not_peer
  | closing t hI hR hout hback htold htold' =>
    cases x with
    | false => exact absurd hstate hR.not_peer
    | true =>
      obtain ⟨-, hest, hsend, hrecv⟩ := hI.of_state hstate
      have hne : false ≠ true := by decide
      have hahead : Way s true false ([t.closing] ++ _) := hout
      obtain ⟨⟨letters', htold₁, hout'⟩, hback', hI'⟩ :=
        sent hsound hne hstate hest hsend hrecv hahead hback htold
      obtain rfl : id = (p.config crypto false).productUserId := (hI.of_state hstate).1
      refine .closing t hI' (hR.congr ?_) hout' hback' htold₁ (htold'.congr ?_ (hheard true))
      · exact congrArg Station.state (hkeeps hne)
      · exact congrArg Station.queued (hkeeps hne)
  | up hI hR hout hback htold htold' =>
    cases x with
    | true =>
      obtain ⟨rfl, hest, hsend, hrecv⟩ := hI.of_state hstate
      have hne : false ≠ true := by decide
      have hahead : Way s true false ([] ++ _) := hout
      obtain ⟨⟨letters', htold₁, hout'⟩, hback', hI'⟩ :=
        sent hsound hne hstate hest hsend hrecv hahead hback htold
      refine .up hI' (hR.congr ?_ ?_) hout' hback' htold₁ (htold'.congr ?_ (hheard true))
      · exact congrArg Station.state (hkeeps hne)
      · exact congrArg Station.queued (hkeeps hne)
      · exact congrArg Station.queued (hkeeps hne)
    | false =>
      obtain ⟨rfl, hest, hsend, hrecv⟩ := hR.of_state hstate
      have hne : true ≠ false := by decide
      have hahead : Way s false true ([] ++ _) := hback
      obtain ⟨⟨letters', htold₂, hback'⟩, hout', hR'⟩ :=
        sent hsound hne hstate hest hsend hrecv hahead hout htold'
      refine .up (hI.congr ?_ ?_) hR' hout' hback' (htold.congr ?_ (hheard false)) htold₂
      · exact congrArg Station.state (hkeeps hne)
      · exact congrArg Station.queued (hkeeps hne)
      · exact congrArg Station.queued (hkeeps hne)

/-- **One step.** -/
theorem Stage.step (hsound : crypto.Sound) (hapart : p.Apart crypto) {i : Input}
    (h : Stage crypto p s) (hstep : Link.step crypto p s i = some s') : Stage crypto p s' := by
  cases i with
  | turn x w r n health =>
    rw [Link.step] at hstep
    split at hstep
    · rename_i entry hstate
      cases hstep
      exact (h.shakes hapart hstate).1
    · rename_i id entry hstate
      cases hstep
      exact (@Stage.drains crypto p s x w r n entry id health h hstate).1
    · cases hstep
  | send x w msg =>
    rw [Link.step] at hstep
    split at hstep
    · rename_i id entry hstate
      cases hstep
      exact h.sends hsound hstate
    · cases hstep
  | sealDatagram x payload =>
    rw [Link.step] at hstep
    split at hstep
    · rename_i id entry hstate
      split at hstep
      · rename_i seq cipher channel hseal
        cases hstep
        obtain ⟨-, hchannel⟩ := PeerChannel.sealDatagram_eq hseal
        refine h.still (by rw [hstate]; exact fun h ↦ by cases h)
          (.inr ⟨id, entry, _, hstate, rfl, rfl, rfl, ?_⟩)
        rw [hchannel]
        exact ⟨rfl, rfl, rfl⟩
      · cases hstep
    · cases hstep
  | openDatagram x w seq cipher =>
    rw [Link.step] at hstep
    split at hstep
    · rename_i id entry hstate
      split at hstep
      · rename_i plain channel hopen
        cases hstep
        obtain ⟨-, hchannel⟩ := PeerChannel.openDatagram_eq hopen
        refine h.still (by rw [hstate]; exact fun h ↦ by cases h)
          (.inr ⟨id, entry, _, hstate, rfl, rfl, rfl, ?_⟩)
        rw [hchannel]
        exact ⟨rfl, rfl, rfl⟩
      · cases hstep
    · cases hstep
  | drop x =>
    cases hstep
    by_cases hgone : (s x).state = .gone
    · have hsame : ({ s x with state := .gone } : Station) = s x := by rw [← hgone]
      rw [hsame, Function.update_eq_self]
      exact h
    · exact h.still hgone (.inl rfl)

end Steps

/-- **The two ends after a dial.** -/
theorem stage_dialed (hsound : crypto.Sound) (hshares : crypto.Shares) {w w' : World}
    {dialing : DialingPeer} (h : dialed crypto p w dialing w' = some s) : Stage crypto p s := by
  rw [dialed] at h
  split at h
  · rename_i opener accepted hopener haccepted
    cases h
    have hchannel : accepted.channel = p.channel crypto false ∧ accepted.expectedId = [] ∧
        accepted.outbox = [] ∧ accepted.buffer = [] := by
      have hmem : accepted ∈ (Router.acceptPeers crypto
        (p.config crypto false) w' {}).handshaking := by
        rw [haccepted]
        exact List.mem_cons_self
      obtain ⟨⟨connection, source, nonblocking⟩, -, hmade⟩ := List.mem_filterMap.1 hmem
      dsimp only at hmade
      split at hmade
      · cases hmade
        exact ⟨rfl, rfl, rfl, rfl⟩
      · cases hmade
    obtain ⟨hchannel, hexpected, houtbox, hbuffer⟩ := hchannel
    have hstarted := hopener
    rw [Router.startHandshake] at hstarted
    dsimp only at hstarted
    split at hstarted
    · cases hstarted
    · rename_i opening channel hopen
      split at hstarted
      · cases hstarted
        have hopening : Opening crypto p opening channel :=
          opening_of_openHandshake hsound hshares p hopen
        have htaken : Router.dialTaken crypto w (p.config crypto true) dialing =
            flushTaken (w.sends dialing.connection) (frameMessage opening) := by
          rw [Router.dialTaken, hopen]
        have hflush := flushTaken_append (w.sends dialing.connection) (frameMessage opening)
        refine .asked hopening (.inr ⟨_, rfl, rfl, .inr rfl⟩)
          (.inr ⟨_, rfl, hchannel, .inl hexpected⟩) ⟨?_, fun _ ↦ ⟨[], ?_, fun _ ↦ rfl⟩⟩
          ⟨by simp, fun _ ↦ ⟨[], ?_, fun _ ↦ rfl⟩⟩ ⟨rfl, rfl, trivial⟩ ⟨rfl, rfl, trivial⟩
        · intro body hbody
          rw [List.mem_singleton.1 hbody]
          exact hopening.small
        · simp only [stretch, Pipe.content, LinkEnd.outbox, LinkEnd.buffer, hbuffer, htaken,
            List.nil_append, List.append_nil, List.flatMap_singleton]
          exact hflush
        · simp only [stretch, Pipe.content, LinkEnd.outbox, LinkEnd.buffer, houtbox,
            List.append_nil, List.flatMap_nil]
      · cases hstarted
  · cases h

theorem frameMessage_ne_nil (body : Bytes) : frameMessage body ≠ [] := by
  intro h
  have hlength := congrArg List.length h
  rw [length_frameMessage, framePrefixLen, List.length_nil] at hlength
  omega

/-- What has come of the envelopes that `x` sent: some were handed on at the other end, and the rest
is on the way. -/
def Delivered (crypto : Crypto) (p : Parties) (s : Link) (x y : Bool) : Prop :=
  ∃ arrived waiting, (s x).queued = arrived ++ waiting ∧
    (s y).heard =
      arrived.filterMap (Router.delivery (p.config crypto y) (p.config crypto x).productUserId) ∧
    ((∀ z, (s z).state ≠ .gone) → (s.stretch x y).content = [] → waiting = [])

theorem Told.delivered {key : Bytes} {arrived : List NetEnvelope} {letters : List Letter}
    {ahead : List Bytes} (h : Told crypto p s x y key arrived letters)
    (hway : Way s x y (ahead ++ letters.map (·.body))) : Delivered crypto p s x y := by
  refine ⟨arrived, letters.map (·.msg), h.queued, h.heard, fun hstand hempty ↦ ?_⟩
  have hnone := (hway.carries (hstand y)).finished (hstand x) hempty frameMessage_ne_nil
  obtain ⟨-, hletters⟩ := List.append_eq_nil_iff.1 hnone
  rw [List.map_eq_nil_iff.1 hletters, List.map_nil]

theorem Told.delivered_nil {key : Bytes} (h : Told crypto p s x y key [] []) :
    Delivered crypto p s x y := ⟨[], [], h.queued, h.heard, fun _ _ ↦ rfl⟩

theorem Stage.delivered (h : Stage crypto p s) (x : Bool) : Delivered crypto p s x !x := by
  cases h with
  | asked hopening hI hR hout hback htold htold' =>
    cases x with
    | true => exact htold.delivered_nil
    | false => exact htold'.delivered_nil
  | answered t hI hR hout hback htold htold' =>
    cases x with
    | true => exact htold.delivered_nil
    | false => exact htold'.delivered_nil
  | closing t hI hR hout hback htold htold' =>
    cases x with
    | true =>
      have hahead : Way s true false ([t.closing] ++ _) := hout
      exact htold.delivered hahead
    | false => exact htold'.delivered_nil
  | up hI hR hout hback htold htold' =>
    cases x with
    | true =>
      have hahead : Way s true false ([] ++ _) := hout
      exact htold.delivered hahead
    | false =>
      have hahead : Way s false true ([] ++ _) := hback
      exact htold'.delivered hahead

theorem Stage.names (h : Stage crypto p s) {id : Bytes} {entry : Peer}
    (hstate : (s x).state = .peer id entry) : id = (p.config crypto !x).productUserId := by
  cases h with
  | asked hopening hI hR =>
    cases x with
    | true => exact absurd hstate hI.not_peer
    | false => exact absurd hstate hR.not_peer
  | answered t hI hR =>
    cases x with
    | true => exact absurd hstate hI.not_peer
    | false => exact absurd hstate hR.not_peer
  | closing t hI hR =>
    cases x with
    | true => exact (hI.of_state hstate).1
    | false => exact absurd hstate hR.not_peer
  | up hI hR =>
    cases x with
    | true => exact (hI.of_state hstate).1
    | false => exact (hR.of_state hstate).1

/-- **What an end hands on is what the other put into its outbox**, each envelope once, in
order, and under the id of its key; what is not handed on is still on the way, as long as both
ends stand. -/
theorem link_lossless (hsound : crypto.Sound) (hshares : crypto.Shares) (hapart : p.Apart crypto)
    {w w' : World} {dialing : DialingPeer} {s₀ : Link}
    (hdial : dialed crypto p w dialing w' = some s₀)
    (h : Reaches (Link.step crypto p) always s₀ s) (x : Bool) :
    Delivered crypto p s x (!x) ∧
      ∀ id entry, (s x).state = .peer id entry → id = (p.config crypto !x).productUserId := by
  have hstage : Stage crypto p s := h.invariant (stage_dialed hsound hshares hdial)
    fun _ _ _ hstage _ hstep ↦ hstage.step hsound hapart hstep
  exact ⟨hstage.delivered x, fun _ _ hstate ↦ hstage.names hstate⟩

namespace Sample

/-- Two players of one game, to run the link on. -/
def pair : Parties :=
  { secret := fun x ↦ if x then [1] else [2]
    productId := [7], sandboxId := [8], deploymentId := [9] }

theorem pair_apart : pair.Apart PeerChannel.paddedCrypto where
  named := by decide
  differ := by decide +kernel

theorem paddedCrypto_shares : PeerChannel.paddedCrypto.Shares := fun _ _ h ↦ by cases h

/-- A socket that takes everything. -/
def opener : World := { sends := fun _ ↦ [.sent 1000], random := fun _ ↦ some [3] }

/-- A dial that has begun. -/
def dialing : DialingPeer := { connection := 0, address := ⟨0, 0⟩, startedAt := 0 }

/-- A connection that comes in. -/
def accepting : World := { accepts := [(0, ⟨0, 0⟩, true)] }

/-- A first envelope. -/
def greeting : NetEnvelope :=
  { typeTag := 32, gameId := [7], payload := [5]
    sourceId := (pair.config PeerChannel.paddedCrypto true).productUserId }

/-- The handshake, and a greeting as soon as it is over at the end that dialed. -/
def greetingRun : List Input :=
  [.turn false opener {} 1000 .alive, .turn true opener {} 1000 .alive, .send true opener greeting]

end Sample

/-- The other end is adopted in one turn, and hands the greeting on in the next. -/
theorem link_lossless_greeting : ∃ s₀ s,
    dialed PeerChannel.paddedCrypto Sample.pair Sample.opener Sample.dialing Sample.accepting =
      some s₀ ∧
    Reaches (Link.step PeerChannel.paddedCrypto Sample.pair) always s₀ s ∧
    (s false).heard = [Sample.greeting] ∧
    Delivered PeerChannel.paddedCrypto Sample.pair s true false := by
  have hrun : (dialed PeerChannel.paddedCrypto Sample.pair Sample.opener Sample.dialing
      Sample.accepting).any (fun s₀ ↦ (runInputs (Link.step PeerChannel.paddedCrypto Sample.pair) s₀
        (Sample.greetingRun ++ [.turn false Sample.opener {} 1000 .alive,
          .turn false Sample.opener {} 0 .alive])).any
        fun s ↦ decide ((s false).heard = [Sample.greeting])) = true := by decide +kernel
  obtain ⟨s₀, hdial, hrest⟩ := (Option.any_eq_true _ _).1 hrun
  obtain ⟨s, hs, hheard⟩ := exists_runInputs _ _ _ _ hrest
  have h := reaches_of_runInputs hs (meets_always _ _)
  exact ⟨s₀, s, hdial, h, hheard, (link_lossless PeerChannel.paddedCrypto_sound
    Sample.paddedCrypto_shares Sample.pair_apart hdial h true).1⟩

/-- **Nothing but a socket ends a link**: an end that stands comes through its turn, whatever part
of what is on the wire it is given. -/
theorem link_stands (hsound : crypto.Sound) (hshares : crypto.Shares) (hapart : p.Apart crypto)
    {w w' : World} {dialing : DialingPeer} {s₀ : Link}
    (hdial : dialed crypto p w dialing w' = some s₀)
    (h : Reaches (Link.step crypto p) always s₀ s) {w'' : World} {r : Router}
    {health : StreamHealth}
    (hcalm : Calm crypto p (!x) w'' r health) {n : Nat}
    (hstep : Link.step crypto p s (.turn x w'' r n health) = some s') : (s' x).state ≠ .gone := by
  have hstage : Stage crypto p s := h.invariant (stage_dialed hsound hshares hdial)
    fun _ _ _ hstage _ hstep ↦ hstage.step hsound hapart hstep
  rw [Link.step] at hstep
  split at hstep
  · rename_i entry hstate
    cases hstep
    exact (hstage.shakes hapart hstate).2 hcalm
  · rename_i id entry hstate
    cases hstep
    exact (hstage.drains hstate).2 hcalm
  · cases hstep

/-- The end that answers takes the last message of the handshake, and the greeting right
behind it. -/
theorem link_stands_greeting : ∃ s₀ s s',
    dialed PeerChannel.paddedCrypto Sample.pair Sample.opener Sample.dialing Sample.accepting =
      some s₀ ∧
    Reaches (Link.step PeerChannel.paddedCrypto Sample.pair) always s₀ s ∧
    Link.step PeerChannel.paddedCrypto Sample.pair s (.turn false Sample.opener {} 1000 .alive) =
      some s' ∧
    (s' false).state ≠ .gone := by
  have hrun : (dialed PeerChannel.paddedCrypto Sample.pair Sample.opener Sample.dialing
      Sample.accepting).any (fun s₀ ↦ (runInputs (Link.step PeerChannel.paddedCrypto Sample.pair) s₀
        Sample.greetingRun).any fun s ↦ decide ((Link.step PeerChannel.paddedCrypto Sample.pair s
          (.turn false Sample.opener {} 1000 .alive)).isSome = true)) = true := by decide +kernel
  obtain ⟨s₀, hdial, hrest⟩ := (Option.any_eq_true _ _).1 hrun
  obtain ⟨s, hs, hsome⟩ := exists_runInputs _ _ _ _ hrest
  obtain ⟨s', hstep⟩ := Option.isSome_iff_exists.1 hsome
  have h := reaches_of_runInputs hs (meets_always _ _)
  have hcalm : Calm PeerChannel.paddedCrypto Sample.pair true Sample.opener {} .alive :=
    ⟨fun _ ↦ by simp [Writable, Sample.opener], rfl, fun _ ↦ by simp [Sample.opener], rfl⟩
  exact ⟨s₀, s, s', hdial, h, hstep, link_stands PeerChannel.paddedCrypto_sound
    Sample.paddedCrypto_shares Sample.pair_apart hdial h hcalm hstep⟩

end Link
end EosMesh
