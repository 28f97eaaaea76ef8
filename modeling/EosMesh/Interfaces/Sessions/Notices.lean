import EosMesh.Interfaces.Sessions.Roster
import EosMesh.Interfaces.Sessions.Sends

/-!
# What the members make of a host's notice

`register_players` and `unregister_players` edit the roster at the host, and the notice they send is
handled by other code, with other rules: the host checks no capacity, a member does; a member keeps
the owner's seat, the host does not; and the notice goes to the roster as it is after the edit, so
whoever was taken off it does not hear of it.

* `Twins` are a host and a member with equal copies of a session; the host reaches everyone on its
  roster.
* `heard` is what a peer gets of what was sent in the call, and `hears` the member once it took
  that.  A roster may name a player more than once, and then the notice goes to it as often:
  `hears_notice` is the copy after some number of notices.
* `newcomers` and `leavers` are the players of a list for whom the call does something.
* `registersAlike` and `unregistersAlike` say when the two copies stay equal and everyone taken off
  the roster hears of it.  They are conditions on the session and the list alone.
* `Twins.refused` is a call that fails, `Twins.not_sameRoster` a notice that is too long to be read,
  and `iterate_notice_eq_append_iff` a notice that comes several times.

`players_agree` says that these conditions are exact: it is an equivalence, for every roster and
every list.  `players_disagree` shows a player beyond the capacity, who is on the host's roster
only, and a player taken out who does not hear of it.
-/

set_option autoImplicit false

namespace EosMesh

open Lib
open Std (TreeMap)

/-! ## A notice on the wire -/

/-- A list beyond its bound is refused. -/
theorem SessionMembers.refused {msg : SessionMembers} (hid : Short msg.sessionId)
    (hmany : maxPlayersInList < msg.playerIds.length) (hsize : msg.playerIds.length < 2 ^ 64) :
    SessionMembers.deserialize.run msg.serialize = none := by
  have hcount : (UInt64.ofNat msg.playerIds.length).toNat = msg.playerIds.length := by
    rw [UInt64.toNat_ofNat']
    exact Nat.mod_eq_of_lt hsize
  have hlist : (getList getBytes maxPlayersInList).run (putList putBytes msg.playerIds) = none := by
    rw [getList, readListCount, bind_assoc, putList, putListCount, StateT.run_bind, decodes_getVar]
    simp only [Option.bind_eq_bind, Option.bind_some, bind_assoc, check, hcount,
      Nat.not_le.2 hmany, false_and, if_false]
    rfl
  rw [SessionMembers.serialize, SessionMembers.deserialize, StateT.run_bind, decodes_getBytes hid,
    Option.bind_eq_bind, Option.bind_some, StateT.run_bind, hlist]
  rfl

namespace Sessions

/-- The notice of the call: `adding` tells the two apart. -/
def noticeOf (adding : Bool) (notice : SessionMembers) : SessionMessage :=
  if adding then .register notice else .unregister notice

theorem read_noticeOf (adding : Bool) {notice : SessionMembers} (h : notice.WithinCaps) :
    SessionMessage.read (noticeOf adding notice).type.tag (noticeOf adding notice).payload =
      some (noticeOf adding notice) := by
  refine SessionMessage.read_payload ?_
  cases adding <;> exact h

theorem read_noticeOf_refused (adding : Bool) {notice : SessionMembers}
    (hid : Short notice.sessionId) (hmany : maxPlayersInList < notice.playerIds.length)
    (hsize : notice.playerIds.length < 2 ^ 64) :
    SessionMessage.read (noticeOf adding notice).type.tag
    (noticeOf adding notice).payload = none := by
  have hrun := SessionMembers.refused hid hmany hsize
  cases adding <;>
    simp [noticeOf, SessionMessage.read, SessionMessage.type, SessionMessage.payload,
      MessageType.tag, hrun]

/-! ## A host and a member -/

/-- What a peer gets of what was sent between two states. -/
def heard (before after : Sessions) (peer : Bytes) : List SessionMessage :=
  heardFrom (after.mesh.sent.drop before.mesh.sent.length) peer

/-- A node once it took what the host sent it. -/
def hears (member host : Sessions) (messages : List SessionMessage) : Sessions :=
  messages.foldl (fun s msg ↦ s.onNetworkMessage (host.envelope s.productUserId msg)) member

/-- The two copies of the session have one roster and as many open slots. -/
def SameRoster (host member : Sessions) (hostName memberName : Bytes) : Prop :=
  ∃ mine theirs, host.findByName hostName = some mine ∧ member.findByName memberName = some theirs ∧
    mine.players = theirs.players ∧ mine.infos.openSlots = theirs.infos.openSlots

/-- A host and a member with equal copies of a session; the host reaches everyone on its roster. -/
structure Twins (host member : Sessions) (hostName memberName : Bytes) (infos : SessionInfos) :
    Prop where
  hosted : ∃ localUser,
    host.findByName hostName = some { infos, localUser, localState := .hosting }
  copy : ∃ localUser, member.findById infos.sessionId =
    some (memberName, { infos, localUser, localState := .joined })
  owner : infos.ownerId = host.productUserId
  named : host.productUserId ≠ []
  apart : member.productUserId ≠ host.productUserId
  memberNamed : member.productUserId ≠ []
  seated : member.productUserId ∈ infos.registeredPlayers
  reach : ∀ player ∈ infos.registeredPlayers, player ≠ host.productUserId → player ≠ [] →
    player ∈ host.mesh.peers
  steady : host.mesh.losses = []
  links : host.mesh.peers.Nodup
  sized : Short infos.sessionId ∧ ∀ player ∈ infos.registeredPlayers, Short player

variable {host member : Sessions} {hostName memberName : Bytes} {infos : SessionInfos}

/-- What the two calls have in common, once the host is on its own roster. -/
theorem Twins.changePlayers (h : Twins host member hostName memberName infos)
    (hself : host.productUserId ∈ infos.registeredPlayers) {version latest : Int32}
    (hversion : versionOk version latest = true) {players : List (Option Bytes)}
    {each : List Bytes → List Bytes → List (Option Bytes) → List Bytes × List Bytes}
    (notice : SessionMembers → SessionMessage) {roster changed : List Bytes}
    (heach : each infos.registeredPlayers [] players = (roster, changed)) :
    ∃ localUser,
      let s := host.setSession hostName
        { infos := infos.seat roster, localUser, localState := .hosting }
      host.changePlayers
          { apiVersion := version, sessionName := some hostName, players := some players } latest
          each notice =
        if changed = [] then ({ resultCode := .noChange }, s)
        else ({ resultCode := .success, players := changed },
          s.posted ((s.addressees hostName []).flatMap
            (s.letters (notice { sessionId := infos.sessionId, playerIds := changed })))) := by
  obtain ⟨localUser, hentry⟩ := h.hosted
  refine ⟨localUser, ?_⟩
  dsimp only
  rw [Sessions.changePlayers]
  simp only [hversion, not_true_eq_false, if_false, hentry, Session.players, hself, heach]
  split
  · rfl
  · have hquiet := @sendToMembers_quiet
      (host.setSession hostName { infos := infos.seat roster, localUser, localState := .hosting })
      h.steady hostName (notice { sessionId := infos.sessionId, playerIds := changed }) []
    exact congrArg (Prod.mk _) hquiet

/-- Whom the notice goes to: everyone on the roster but the host, once for each seat. -/
theorem Twins.heard (h : Twins host member hostName memberName infos) {localUser : Bytes}
    {roster : List Bytes} (message : SessionMessage) {peer : Bytes}
    (hreach : peer ∈ roster → peer ∈ infos.registeredPlayers) :
    let s := host.setSession hostName
      { infos := infos.seat roster, localUser, localState := .hosting }
    Sessions.heard host (s.posted ((s.addressees hostName []).flatMap (s.letters message))) peer =
      List.replicate (if peer = host.productUserId ∨ peer = [] then 0 else roster.count peer)
        message := by
  intro s
  have hplayers : s.players hostName = roster := by
    simp [players, s, setSession, Session.players, SessionInfos.seat,
      SessionInfos.counted]
  have haddressees : s.addressees hostName [] =
      roster.filter fun player ↦ player ≠ host.productUserId ∧ player ≠ [] := by
    rw [addressees, hplayers]
    rfl
  have hlinks : s.mesh.peers.Nodup := h.links
  rw [Sessions.heard, posted_sent, show s.mesh.sent = host.mesh.sent from rfl, List.drop_left,
    heardFrom_flatMap_letters hlinks (by simp [haddressees]), haddressees]
  congr 1
  by_cases hpeer : peer = host.productUserId ∨ peer = []
  · rw [if_pos hpeer, List.count_eq_zero.2 fun hin ↦ ?_, ite_self]
    obtain ⟨-, hne⟩ := List.mem_filter.1 hin
    rcases hpeer with rfl | rfl <;> simp at hne
  · rw [if_neg hpeer, List.count_filter (by simpa [not_or] using hpeer)]
    split
    · rfl
    · rename_i hnot
      rw [not_or] at hpeer
      refine (List.count_eq_zero.2 fun hin ↦ hnot ?_).symm
      exact h.reach peer (hreach hin) hpeer.1 hpeer.2

/-- A notice of the host, at a node with a copy. -/
theorem onNetworkMessage_notice {entry : Session} {adding : Bool} {notice : SessionMembers}
    (hfound : member.findById notice.sessionId = some (memberName, entry))
    (howner : entry.infos.ownerId = host.productUserId) (hnamed : host.productUserId ≠ [])
    (hapart : member.productUserId ≠ host.productUserId) (hcaps : notice.WithinCaps) :
    member.onNetworkMessage (host.envelope member.productUserId (noticeOf adding notice)) =
      member.setSession memberName
        (entry.seat (notice.playerIds.foldl (noticePlayer adding entry.infos) entry.players)) := by
  have htag := (noticeOf adding notice).tag_ne_peerDisconnected
  have hread := read_noticeOf adding hcaps
  rw [onNetworkMessage]
  simp only [envelope, hnamed, hapart.symm, false_or, if_false, htag, hread]
  have hmembers : member.onMembers adding host.productUserId notice = member.setSession memberName
      (entry.seat (notice.playerIds.foldl (noticePlayer adding entry.infos) entry.players)) := by
    rw [onMembers, hfound]
    simp [mayNotice, howner]
  cases adding <;> exact hmembers

/-- The copy after the notice came some times over. -/
theorem hears_notice {entry : Session} (adding : Bool) {notice : SessionMembers}
    (hfound : member.findById notice.sessionId = some (memberName, entry))
    (howner : entry.infos.ownerId = host.productUserId) (hnamed : host.productUserId ≠ [])
    (hapart : member.productUserId ≠ host.productUserId) (hcaps : notice.WithinCaps) (times : Nat) :
    (member.hears host (List.replicate (times + 1) (noticeOf adding notice))).findById
        notice.sessionId = some (memberName, entry.seat
      ((fun roster ↦ notice.playerIds.foldl (noticePlayer adding entry.infos) roster)^[times + 1]
        entry.players)) := by
  induction times generalizing member entry with
  | zero =>
    rw [hears]
    show (member.onNetworkMessage _).findById _ = _
    rw [onNetworkMessage_notice hfound howner hnamed hapart hcaps]
    exact findById_setSession hfound (findById_eq_some_iff.1 hfound).2.1
  | succ times ih =>
    rw [List.replicate_succ, hears, List.foldl_cons, Function.iterate_succ_apply,
      onNetworkMessage_notice hfound howner hnamed hapart hcaps]
    have hnext := @findById_setSession member _ _ _
      (entry.seat (notice.playerIds.foldl (noticePlayer adding entry.infos) entry.players)) hfound
      (findById_eq_some_iff.1 hfound).2.1
    exact ih hnext howner hapart

/-- A notice that is refused changes nothing. -/
theorem hears_refused {message : SessionMessage}
    (hread : SessionMessage.read message.type.tag message.payload = none) (times : Nat) :
    member.hears host (List.replicate times message) = member := by
  have hsame : member.onNetworkMessage (host.envelope member.productUserId message) = member := by
    rw [onNetworkMessage]
    simp only [envelope, message.tag_ne_peerDisconnected, if_false, hread]
    split <;> rfl
  induction times with
  | zero => rfl
  | succ times ih =>
    rw [List.replicate_succ, hears, List.foldl_cons, hsame]
    exact ih

/-! ## When the copies stay equal -/

/-- The players a list names who have no seat. -/
def newcomers (infos : SessionInfos) (players : List (Option Bytes)) : Finset Bytes :=
  (listed players).toFinset \ infos.registeredPlayers.toFinset

/-- The players a list names who have one, each as often as it is named. -/
def leavers (infos : SessionInfos) (players : List (Option Bytes)) : List Bytes :=
  (listed players).filter (· ∈ infos.registeredPlayers)

/-- When registering leaves a host and its members alike: it is refused; or it adds nobody and there
is nothing to count anew; or there are seats for everyone it adds, and few enough for one notice. -/
def registersAlike (host : Bytes) (infos : SessionInfos) (players : List (Option Bytes)) : Prop :=
  host ∉ infos.registeredPlayers ∨
    newcomers infos players = ∅ ∧ infos.openSlots = openSlotsOf infos ∨
    newcomers infos players ≠ ∅ ∧ (newcomers infos players).card ≤ maxPlayersInList ∧
      infos.registeredPlayers.length + (newcomers infos players).card ≤ infos.maxPlayers.toNat

/-- When unregistering does, and tells everyone it takes out: it is refused; or it takes nobody out
and there is nothing to count anew; or everyone it takes out, the host not among them, keeps another
seat, and the member has one seat left to hear of it. -/
def unregistersAlike (host member : Bytes) (infos : SessionInfos) (players : List (Option Bytes)) :
    Prop :=
  host ∉ infos.registeredPlayers ∨
    leavers infos players = [] ∧ infos.openSlots = openSlotsOf infos ∨
    leavers infos players ≠ [] ∧ (leavers infos players).length ≤ maxPlayersInList ∧
      (∀ player ∈ leavers infos players, player ≠ [] ∧ player ≠ host ∧
        (listed players).count player < infos.registeredPlayers.count player) ∧
      infos.registeredPlayers.count member = (listed players).count member + 1

instance (host : Bytes) (infos : SessionInfos) (players : List (Option Bytes)) :
    Decidable (registersAlike host infos players) := inferInstanceAs (Decidable (_ ∨ _))

instance (host member : Bytes) (infos : SessionInfos) (players : List (Option Bytes)) :
    Decidable (unregistersAlike host member infos players) := inferInstanceAs (Decidable (_ ∨ _))

theorem SameRoster.of_seats {localUser localUser' : Bytes} {roster roster' : List Bytes}
    (hmine : host.findByName hostName =
      some { infos := infos.seat roster, localUser, localState := .hosting })
    (htheirs : member.findByName memberName =
      some { infos := infos.seat roster', localUser := localUser', localState := .joined }) :
    SameRoster host member hostName memberName ↔ roster = roster' := by
  constructor
  · rintro ⟨mine, theirs, hmine', htheirs', hplayers, -⟩
    rw [hmine] at hmine'
    rw [htheirs] at htheirs'
    cases hmine'
    cases htheirs'
    exact hplayers
  · rintro rfl
    exact ⟨_, _, hmine, htheirs, rfl, rfl⟩

/-- Nothing was added or taken out: the copies differ only where the host counted its slots anew. -/
theorem Twins.sameRoster_counted (h : Twins host member hostName memberName infos)
    {localUser : Bytes} : SameRoster (host.setSession hostName
        { infos := infos.seat infos.registeredPlayers, localUser, localState := .hosting })
      member hostName memberName ↔ infos.openSlots = openSlotsOf infos := by
  obtain ⟨localUser', hcopy⟩ := h.copy
  have htheirs : member.findByName memberName =
      some { infos, localUser := localUser', localState := .joined } :=
    (findById_eq_some_iff.1 hcopy).1
  have hmine : (host.setSession hostName
      { infos := infos.seat infos.registeredPlayers, localUser, localState := .hosting }).findByName
        hostName = some
      { infos := infos.seat infos.registeredPlayers, localUser, localState := .hosting } := by
    rw [findByName, setSession, lookup_insert, if_pos rfl]
  constructor
  · rintro ⟨mine, theirs, hmine', htheirs', -, hslots⟩
    rw [hmine] at hmine'
    rw [htheirs] at htheirs'
    cases hmine'
    cases htheirs'
    exact hslots.symm
  · intro hslots
    exact ⟨_, _, hmine, htheirs, rfl, hslots.symm⟩

/-! ### Registering -/

/-- A member's roster never goes beyond the capacity, unless it was there. -/
theorem length_foldl_notice_le (infos : SessionInfos) (players roster : List Bytes) :
    (players.foldl (noticePlayer true infos) roster).length ≤
      max roster.length infos.maxPlayers.toNat := by
  induction players generalizing roster with
  | nil => exact le_max_left _ _
  | cons player players ih =>
    refine (ih _).trans ?_
    rw [noticePlayer, if_pos rfl]
    split
    · rename_i hroom
      rw [List.length_append, List.length_singleton]
      omega
    · exact le_refl _

/-- With seats for everyone, the members add whom the host added. -/
theorem foldl_notice_eq_append (infos : SessionInfos) {extra roster : List Bytes}
    (hnodup : extra.Nodup) (hnew : ∀ player ∈ extra, player ∉ roster)
    (hroom : roster.length + extra.length ≤ infos.maxPlayers.toNat) :
    extra.foldl (noticePlayer true infos) roster = roster ++ extra := by
  induction extra generalizing roster with
  | nil => simp
  | cons player extra ih =>
    obtain ⟨hplayer, hextra⟩ := List.nodup_cons.1 hnodup
    rw [List.length_cons] at hroom
    rw [List.foldl_cons, noticePlayer, if_pos rfl,
      if_pos ⟨hnew player List.mem_cons_self, by omega⟩, ih hextra ?_ ?_, List.append_assoc]
    · rfl
    · intro p hp hin
      rcases List.mem_append.1 hin with hin | hin
      · exact hnew p (List.mem_cons_of_mem _ hp) hin
      · rw [List.mem_singleton] at hin
        exact hplayer (hin ▸ hp)
    · rw [List.length_append, List.length_singleton]
      omega

/-- A notice of players who all have a seat adds nobody. -/
theorem foldl_notice_eq_self (infos : SessionInfos) {players roster : List Bytes}
    (h : ∀ player ∈ players, player ∈ roster) :
    players.foldl (noticePlayer true infos) roster = roster := by
  induction players with
  | nil => rfl
  | cons player players ih =>
    rw [List.foldl_cons, noticePlayer, if_pos rfl,
      if_neg fun hnot ↦ hnot.1 (h player List.mem_cons_self)]
    exact ih fun p hp ↦ h p (List.mem_cons_of_mem _ hp)

/-- However often the notice comes, the members end with the host's roster exactly when there are
seats for everyone. -/
theorem iterate_notice_eq_append_iff (infos : SessionInfos) {extra roster : List Bytes}
    (hnodup : extra.Nodup) (hnew : ∀ player ∈ extra, player ∉ roster) (hextra : extra ≠ [])
    (times : Nat) :
    roster ++ extra = (fun r ↦ extra.foldl (noticePlayer true infos) r)^[times + 1] roster ↔
      roster.length + extra.length ≤ infos.maxPlayers.toNat := by
  constructor
  · intro heq
    have hbound (n : Nat) (r : List Bytes) :
        ((fun r ↦ extra.foldl (noticePlayer true infos) r)^[n] r).length ≤
          max r.length infos.maxPlayers.toNat := by
      induction n generalizing r with
      | zero => exact le_max_left _ _
      | succ n ih =>
        rw [Function.iterate_succ_apply]
        have hone := length_foldl_notice_le infos extra r
        have hrest := ih (extra.foldl (noticePlayer true infos) r)
        omega
    have hlength := congrArg List.length heq
    have hmost := hbound (times + 1) roster
    have hpos := List.length_pos_iff.2 hextra
    rw [List.length_append] at hlength
    omega
  · intro hroom
    have hfixed : extra.foldl (noticePlayer true infos) (roster ++ extra) = roster ++ extra :=
      foldl_notice_eq_self infos fun player hin ↦ List.mem_append_right _ hin
    rw [Function.iterate_succ_apply, foldl_notice_eq_append infos hnodup hnew hroom]
    exact (Function.iterate_fixed hfixed times).symm

/-- A refused call leaves the copies as they were, and sends nothing. -/
theorem Twins.refused (h : Twins host member hostName memberName infos)
    (hself : host.productUserId ∉ infos.registeredPlayers) {version latest : Int32}
    (hversion : versionOk version latest = true) {players : List (Option Bytes)}
    {each : List Bytes → List Bytes → List (Option Bytes) → List Bytes × List Bytes}
    {notice : SessionMembers → SessionMessage} :
    host.changePlayers
        { apiVersion := version, sessionName := some hostName, players := some players } latest
        each notice = ({ resultCode := .sessionsNotAllowed }, host) := by
  obtain ⟨localUser, hentry⟩ := h.hosted
  simp [Sessions.changePlayers, hversion, hentry, Session.players, hself]

theorem heard_self (s : Sessions) (peer : Bytes) : heard s s peer = [] := by
  rw [heard, List.drop_length]
  rfl

theorem Twins.sameRoster (h : Twins host member hostName memberName infos) :
    SameRoster host member hostName memberName := by
  obtain ⟨localUser, hmine⟩ := h.hosted
  obtain ⟨localUser', htheirs⟩ := h.copy
  exact ⟨_, _, hmine, (findById_eq_some_iff.1 htheirs).1, rfl, rfl⟩

/-- The host's copy after a call, and the member's after some notices of it. -/
theorem Twins.sameRoster_iff (h : Twins host member hostName memberName infos) {localUser : Bytes}
    {roster changed : List Bytes} {list : List (Bytes × SessionMessage)} {adding : Bool}
    (hcaps : (⟨infos.sessionId, changed⟩ : SessionMembers).WithinCaps) (times : Nat) :
    SameRoster ((host.setSession hostName
          { infos := infos.seat roster, localUser, localState := .hosting }).posted list)
        (member.hears host (List.replicate (times + 1)
          (noticeOf adding ⟨infos.sessionId, changed⟩)))
        hostName memberName ↔
      roster = (fun roster ↦ changed.foldl (noticePlayer adding infos) roster)^[times + 1]
        infos.registeredPlayers := by
  obtain ⟨localUser', hcopy⟩ := h.copy
  have hheard := @hears_notice host member memberName _ adding ⟨infos.sessionId, changed⟩
    hcopy h.owner h.named h.apart hcaps times
  have hmine : (host.setSession hostName
      { infos := infos.seat roster, localUser, localState := .hosting }).sessions[hostName]? =
        some { infos := infos.seat roster, localUser, localState := .hosting } := by
    rw [setSession, lookup_insert, if_pos rfl]
  exact SameRoster.of_seats hmine (findById_eq_some_iff.1 hheard).1

/-- A member that heard nothing has the roster of before. -/
theorem Twins.roster_eq_of_sameRoster (h : Twins host member hostName memberName infos)
    {localUser : Bytes} {roster : List Bytes} {list : List (Bytes × SessionMessage)}
    (hsame : SameRoster ((host.setSession hostName
          { infos := infos.seat roster, localUser, localState := .hosting }).posted list)
        member hostName memberName) : roster = infos.registeredPlayers := by
  obtain ⟨mine, theirs, hmine, htheirs, hplayers, -⟩ := hsame
  obtain ⟨localUser', hcopy⟩ := h.copy
  have htheirs' : member.findByName memberName = _ := (findById_eq_some_iff.1 hcopy).1
  have hmine' : (host.setSession hostName _).sessions[hostName]? = some mine := hmine
  rw [setSession, lookup_insert, if_pos rfl] at hmine'
  rw [htheirs'] at htheirs
  cases hmine'
  cases htheirs
  exact hplayers

/-- A notice beyond its bound leaves the member as it was. -/
theorem Twins.not_sameRoster (h : Twins host member hostName memberName infos) {localUser : Bytes}
    {roster changed : List Bytes} {list : List (Bytes × SessionMessage)} {adding : Bool}
    (hmany : maxPlayersInList < changed.length) (hsize : changed.length < 2 ^ 64)
    (hroster : roster ≠ infos.registeredPlayers) (times : Nat) :
    ¬ SameRoster ((host.setSession hostName
          { infos := infos.seat roster, localUser, localState := .hosting }).posted list)
        (member.hears host (List.replicate times (noticeOf adding ⟨infos.sessionId, changed⟩)))
        hostName memberName := by
  have hrefused := @read_noticeOf_refused adding ⟨infos.sessionId, changed⟩ h.sized.1 hmany hsize
  rw [hears_refused hrefused]
  exact fun hsame ↦ hroster (h.roster_eq_of_sameRoster hsame)

/-- The players of a call, and how many there can be of them. -/
structure SizedPlayers (players : List (Option Bytes)) : Prop where
  ids : ∀ player ∈ listed players, Short player
  count : players.length < 2 ^ 64

theorem length_listed_le (players : List (Option Bytes)) :
    (listed players).length ≤ players.length := List.reduceOption_length_le players

/-- The call that registers (`adding`) or unregisters players of the hosted session. -/
def callPlayers (adding : Bool) (host : Sessions) (version : Int32) (hostName : Bytes)
    (players : List (Option Bytes)) : PlayersCallbackInfo × Sessions :=
  let o : PlayersOptions := { apiVersion := version, sessionName := some hostName
                              players := some players }
  if adding then host.registerPlayers o else host.unregisterPlayers o

/-- The member after the call, once it took what it was sent. -/
def callHeard (adding : Bool) (host member : Sessions) (version : Int32) (hostName : Bytes)
    (players : List (Option Bytes)) : Sessions :=
  member.hears host
    (heard host (callPlayers adding host version hostName players).2 member.productUserId)

theorem registers_agree (h : Twins host member hostName memberName infos) {version : Int32}
    (hversion : versionOk version registerPlayersApiLatest = true)
    {players : List (Option Bytes)} (hplayers : SizedPlayers players) :
    SameRoster (callPlayers true host version hostName players).2
        (callHeard true host member version hostName players) hostName memberName ↔
      registersAlike host.productUserId infos players := by
  rw [callHeard, callPlayers, if_pos rfl, registerPlayers]
  by_cases hself : host.productUserId ∈ infos.registeredPlayers
  swap
  · rw [h.refused hself hversion, heard_self]
    exact iff_of_true h.sameRoster (.inl hself)
  obtain ⟨extra, heq, hnodup, hmem⟩ := registerEach_spec infos.registeredPlayers [] players
  rw [List.nil_append] at heq
  have hnewcomers : newcomers infos players = extra.toFinset := by
    ext player
    simp [newcomers, hmem]
  have hcard : (newcomers infos players).card = extra.length := by
    rw [hnewcomers, List.toFinset_card_of_nodup hnodup]
  obtain ⟨localUser, hcall⟩ := h.changePlayers hself hversion (noticeOf true) heq
  dsimp only at hcall
  have hempty : newcomers infos players = ∅ ↔ extra = [] := by
    rw [hnewcomers]
    exact List.toFinset_eq_empty_iff extra
  rw [show SessionMessage.register = noticeOf true from rfl, hcall, registersAlike, hcard]
  simp only [hself, not_true_eq_false, false_or, hempty, ne_eq]
  by_cases hextra : extra = []
  · subst hextra
    have hnothing : heard host (host.setSession hostName
        { infos := infos.seat infos.registeredPlayers, localUser, localState := .hosting })
          member.productUserId = [] := heard_self host _
    simp only [if_true, List.append_nil, hnothing, not_true_eq_false, false_and, or_false, true_and]
    exact h.sameRoster_counted
  · -- The member is on the roster, so the notice comes at least once.
    have hcount : 0 < (infos.registeredPlayers ++ extra).count member.productUserId :=
      List.count_pos_iff.2 (List.mem_append_left _ h.seated)
    obtain ⟨times, htimes⟩ := Nat.exists_eq_succ_of_ne_zero (Nat.ne_of_gt hcount)
    have hheard := @Twins.heard host member hostName memberName infos h localUser
      (infos.registeredPlayers ++ extra) (noticeOf true ⟨infos.sessionId, extra⟩)
      member.productUserId fun _ ↦ h.seated
    dsimp only at hheard
    rw [if_neg (not_or.2 ⟨h.apart, h.memberNamed⟩), htimes] at hheard
    simp only [hextra, if_false, false_and, false_or, not_false_eq_true, true_and]
    rw [hheard]
    have hlength : extra.length ≤ players.length := by
      have hsub : extra ⊆ listed players := fun player hin ↦ ((hmem player).1 hin).1
      exact ((hnodup.subperm hsub).length_le).trans (length_listed_le players)
    by_cases hcap : extra.length ≤ maxPlayersInList
    · have hcaps : (⟨infos.sessionId, extra⟩ : SessionMembers).WithinCaps :=
        ⟨h.sized.1, hcap, fun player hin ↦ hplayers.ids player ((hmem player).1 hin).1⟩
      rw [h.sameRoster_iff hcaps times]
      simp only [hcap, true_and]
      exact iterate_notice_eq_append_iff infos hnodup (fun p hp ↦ ((hmem p).1 hp).2) hextra times
    · refine iff_of_false (h.not_sameRoster (Nat.not_le.1 hcap)
        (hlength.trans_lt hplayers.count) ?_ (times + 1)) fun hall ↦ hcap hall.1
      simpa using hextra

/-! ### Unregistering -/

theorem foldl_notice_eq_erase (infos : SessionInfos) {gone : List Bytes}
    (howner : infos.ownerId ∉ gone) (roster : List Bytes) :
    gone.foldl (noticePlayer false infos) roster = gone.foldl List.erase roster := by
  induction gone generalizing roster with
  | nil => rfl
  | cons player gone ih =>
    rw [List.mem_cons, not_or] at howner
    rw [List.foldl_cons, List.foldl_cons, ← ih howner.2, noticePlayer, if_neg Bool.false_ne_true,
      if_pos (Ne.symm howner.1)]

/-- A notice that comes several times takes a seat several times. -/
theorem count_iterate_erase (gone roster : List Bytes) (player : Bytes) (times : Nat) :
    ((fun r ↦ gone.foldl List.erase r)^[times] roster).count player =
      roster.count player - times * gone.count player := by
  induction times generalizing roster with
  | zero => simp
  | succ times ih =>
    rw [Function.iterate_succ_apply, ih, count_foldl_erase, Nat.succ_mul]
    omega

/-- What went off a roster, told by the list. -/
theorem mem_leavers {players : List (Option Bytes)} {gone : List Bytes}
    (hcount : ∀ player, gone.count player =
      min ((listed players).count player) (infos.registeredPlayers.count player)) {player : Bytes} :
    player ∈ leavers infos players ↔ player ∈ gone := by
  rw [← List.count_pos_iff (l := gone), hcount, leavers, List.mem_filter, decide_eq_true_eq,
    ← List.count_pos_iff, ← List.count_pos_iff]
  omega

theorem perm_leavers {players : List (Option Bytes)} {gone : List Bytes}
    (hcount : ∀ player, gone.count player =
      min ((listed players).count player) (infos.registeredPlayers.count player))
    (hfew : ∀ player ∈ gone,
      (listed players).count player < infos.registeredPlayers.count player) :
    (leavers infos players).Perm gone := by
  rw [List.perm_iff_count]
  intro player
  by_cases hin : player ∈ gone
  · have hseat := ((mem_leavers hcount).2 hin)
    have hroster := (List.mem_filter.1 hseat).2
    rw [leavers, List.count_filter (by simpa using hroster), hcount]
    have := hfew player hin
    omega
  · rw [List.count_eq_zero.2 hin, List.count_eq_zero.2 (fun h ↦ hin ((mem_leavers hcount).1 h))]

theorem foldl_erase_ne {gone roster : List Bytes} (hgone : gone ≠ [])
    (hseats : ∀ player, gone.count player ≤ roster.count player) :
    gone.foldl List.erase roster ≠ roster := by
  obtain ⟨player, hin⟩ := List.exists_mem_of_ne_nil gone hgone
  intro heq
  have hcount := count_foldl_erase gone roster player
  have hpos : 0 < gone.count player := List.count_pos_iff.2 hin
  have hseat := hseats player
  rw [heq] at hcount
  omega

section Leaving

variable {players : List (Option Bytes)} {gone : List Bytes} {localUser : Bytes}
  {list : List (Bytes × SessionMessage)}

/-- The notice can be read, and takes nothing of the owner's, when everyone who goes keeps a
seat. -/
theorem Twins.leaving_fits (h : Twins host member hostName memberName infos)
    (hplayers : SizedPlayers players)
    (hcount : ∀ player, gone.count player =
      min ((listed players).count player) (infos.registeredPlayers.count player))
    (hfew : ∀ player ∈ gone, player ≠ host.productUserId ∧
      (listed players).count player < infos.registeredPlayers.count player)
    (hcap : (leavers infos players).length ≤ maxPlayersInList) :
    (⟨infos.sessionId, gone⟩ : SessionMembers).WithinCaps ∧ infos.ownerId ∉ gone := by
  have hperm := perm_leavers hcount fun player hin ↦ (hfew player hin).2
  refine ⟨⟨h.sized.1, hperm.length_eq ▸ hcap, fun player hin ↦ hplayers.ids player ?_⟩, ?_⟩
  · exact List.mem_of_mem_filter (hperm.mem_iff.2 hin)
  · exact fun hin ↦ (hfew _ hin).1 h.owner

/-- A member that came to the host's roster could read the notice, so it was not too long. -/
theorem Twins.leaving_capped (h : Twins host member hostName memberName infos)
    (hplayers : SizedPlayers players)
    (hcount : ∀ player, gone.count player =
      min ((listed players).count player) (infos.registeredPlayers.count player))
    (hfew : ∀ player ∈ gone, (listed players).count player <
      infos.registeredPlayers.count player)
    (hchanged : gone.foldl List.erase infos.registeredPlayers ≠ infos.registeredPlayers)
    {times : Nat} (hsame : SameRoster ((host.setSession hostName
        { infos := infos.seat (gone.foldl List.erase infos.registeredPlayers), localUser,
          localState := .hosting }).posted list)
      (member.hears host (List.replicate times (noticeOf false ⟨infos.sessionId, gone⟩)))
      hostName memberName) : (leavers infos players).length ≤ maxPlayersInList := by
  have hlength := (perm_leavers hcount hfew).length_eq
  have hlisted : (leavers infos players).length < 2 ^ 64 :=
    ((List.length_filter_le _ _).trans (length_listed_le players)).trans_lt hplayers.count
  by_contra hmany
  rw [hlength] at hmany hlisted
  exact h.not_sameRoster (Nat.not_le.1 hmany) hlisted hchanged _ hsame

/-- The notice came once: more often, and it would have taken more seats at the member. -/
theorem Twins.told_once (h : Twins host member hostName memberName infos)
    (hcaps : (⟨infos.sessionId, gone⟩ : SessionMembers).WithinCaps) (howner : infos.ownerId ∉ gone)
    {player : Bytes} (hin : player ∈ gone)
    (hseat : gone.count player < infos.registeredPlayers.count player)
    (hchanged : gone.foldl List.erase infos.registeredPlayers ≠ infos.registeredPlayers)
    {times : Nat} (hsame : SameRoster ((host.setSession hostName
        { infos := infos.seat (gone.foldl List.erase infos.registeredPlayers), localUser,
          localState := .hosting }).posted list)
      (member.hears host (List.replicate times (noticeOf false ⟨infos.sessionId, gone⟩)))
      hostName memberName) : times = 1 := by
  cases times with
  | zero => exact absurd (h.roster_eq_of_sameRoster hsame) hchanged
  | succ times =>
    rw [h.sameRoster_iff hcaps] at hsame
    simp only [foldl_notice_eq_erase infos howner] at hsame
    have hplayer := congrArg (List.count player) hsame
    rw [count_foldl_erase, count_iterate_erase, Nat.succ_mul] at hplayer
    by_contra hmore
    have hpos : 0 < gone.count player := List.count_pos_iff.2 hin
    have := Nat.mul_pos (show 0 < times by omega) hpos
    omega

end Leaving

theorem unregisters_agree (h : Twins host member hostName memberName infos) {version : Int32}
    (hversion : versionOk version unregisterPlayersApiLatest = true)
    {players : List (Option Bytes)} (hplayers : SizedPlayers players) :
    (SameRoster (callPlayers false host version hostName players).2
        (callHeard false host member version hostName players) hostName memberName ∧
      ∀ player ∈ (callPlayers false host version hostName players).1.players,
        .unregister ⟨infos.sessionId, (callPlayers false host version hostName players).1.players⟩ ∈
          heard host (callPlayers false host version hostName players).2 player) ↔
      unregistersAlike host.productUserId member.productUserId infos players := by
  rw [callHeard, callPlayers, if_neg Bool.false_ne_true, unregisterPlayers]
  by_cases hself : host.productUserId ∈ infos.registeredPlayers
  swap
  · rw [h.refused hself hversion, heard_self]
    exact iff_of_true ⟨h.sameRoster, by simp⟩ (.inl hself)
  obtain ⟨gone, heq, hcount⟩ := unregisterEach_spec infos.registeredPlayers [] players
  rw [List.nil_append] at heq
  obtain ⟨localUser, hcall⟩ := h.changePlayers hself hversion (noticeOf false) heq
  dsimp only at hcall
  have hempty : leavers infos players = [] ↔ gone = [] := by
    rw [List.eq_nil_iff_forall_not_mem, List.eq_nil_iff_forall_not_mem]
    exact forall_congr' fun player ↦ not_congr (mem_leavers hcount)
  rw [show SessionMessage.unregister = noticeOf false from rfl, hcall, unregistersAlike]
  simp only [hself, not_true_eq_false, false_or, hempty, ne_eq]
  by_cases hgone : gone = []
  · subst hgone
    have hnothing : heard host (host.setSession hostName
        { infos := infos.seat infos.registeredPlayers, localUser, localState := .hosting })
          member.productUserId = [] := heard_self host _
    simp only [if_true, List.foldl_nil, hnothing, not_true_eq_false, false_and, or_false, true_and,
      List.not_mem_nil, false_imp_iff, implies_true, and_true]
    exact h.sameRoster_counted
  have hsub := foldl_erase_sublist gone infos.registeredPlayers
  have hheard (peer : Bytes) := @Twins.heard host member hostName memberName infos h localUser
    (gone.foldl List.erase infos.registeredPlayers) (noticeOf false ⟨infos.sessionId, gone⟩) peer
    fun hin ↦ hsub.subset hin
  dsimp only at hheard
  have hafter := count_foldl_erase gone infos.registeredPlayers
  have hchanged := foldl_erase_ne hgone fun player ↦ (hcount player).trans_le (Nat.min_le_right _ _)
  simp only [hgone, if_false, false_and, false_or, not_false_eq_true, true_and, hheard,
    not_or.2 ⟨h.apart, h.memberNamed⟩]
  constructor
  · rintro ⟨hsame, hhears⟩
    -- Everyone taken out still has a seat, or would not have heard of it.
    have hleft (player : Bytes) (hin : player ∈ gone) : player ≠ [] ∧
        player ≠ host.productUserId ∧
        gone.count player < infos.registeredPlayers.count player := by
      have hmem := hhears player hin
      rw [List.mem_replicate] at hmem
      have hafter' := hafter player
      split at hmem
      · exact absurd rfl hmem.1
      · rename_i hother
        rw [not_or] at hother
        exact ⟨hother.2, hother.1, by omega⟩
    have hfew (player : Bytes) (hin : player ∈ gone) : player ≠ host.productUserId ∧
        (listed players).count player < infos.registeredPlayers.count player := by
      have hmin := hcount player
      obtain ⟨-, hhost, hseat⟩ := hleft player hin
      exact ⟨hhost, by omega⟩
    have hcap := h.leaving_capped hplayers hcount (fun player hin ↦ (hfew player hin).2) hchanged
      hsame
    obtain ⟨hcaps, howner⟩ := h.leaving_fits hplayers hcount hfew hcap
    obtain ⟨player, hin⟩ := List.exists_mem_of_ne_nil gone hgone
    have honce := h.told_once hcaps howner hin (hleft player hin).2.2 hchanged hsame
    refine ⟨hcap, fun player hin ↦ ?_, ?_⟩
    · rw [mem_leavers hcount] at hin
      exact ⟨(hleft player hin).1, hfew player hin⟩
    · have hmin := hcount member.productUserId
      rw [hafter] at honce
      omega
  · rintro ⟨hcap, hall, hseat⟩
    have hleft (player : Bytes) (hin : player ∈ gone) := hall player ((mem_leavers hcount).2 hin)
    obtain ⟨hcaps, howner⟩ := h.leaving_fits hplayers hcount (fun p hin ↦ (hleft p hin).2) hcap
    have honce : (gone.foldl List.erase infos.registeredPlayers).count
        member.productUserId = 0 + 1 := by
      have hmin := hcount member.productUserId
      have := hafter member.productUserId
      omega
    constructor
    · rw [honce, h.sameRoster_iff hcaps]
      simp only [foldl_notice_eq_erase infos howner]
      rfl
    · intro player hin
      obtain ⟨hne, hhost, hfew⟩ := hleft player hin
      rw [if_neg (not_or.2 ⟨hhost, hne⟩), List.mem_replicate]
      have := hafter player
      have := hcount player
      exact ⟨by omega, rfl⟩

/-- **The host and its members agree exactly when** the call is one of those of `registersAlike` and
`unregistersAlike`: then, and only then, a host's call and a member's handling of its notice leave
equal rosters and open slots, and every player taken out gets the notice too. -/
theorem players_agree (h : Twins host member hostName memberName infos) {version : Int32}
    {players : List (Option Bytes)} (hplayers : SizedPlayers players) :
    (versionOk version registerPlayersApiLatest = true →
      (SameRoster (callPlayers true host version hostName players).2
          (callHeard true host member version hostName players) hostName memberName ↔
        registersAlike host.productUserId infos players)) ∧
    (versionOk version unregisterPlayersApiLatest = true →
      ((SameRoster (callPlayers false host version hostName players).2
          (callHeard false host member version hostName players) hostName memberName ∧
        ∀ player ∈ (callPlayers false host version hostName players).1.players,
          .unregister
              ⟨infos.sessionId, (callPlayers false host version hostName players).1.players⟩ ∈
            heard host (callPlayers false host version hostName players).2 player) ↔
        unregistersAlike host.productUserId member.productUserId infos players)) :=
  ⟨fun hversion ↦ registers_agree h hversion hplayers,
    fun hversion ↦ unregisters_agree h hversion hplayers⟩

/-- A session for `maxPlayers` players with the players `[1]`, its host, `[2]` and `[3]`. -/
def threeSeated (maxPlayers : UInt32) : SessionInfos :=
  { sessionId := [7], ownerId := [1], maxPlayers, openSlots := maxPlayers - 3
    registeredPlayers := [[1], [2], [3]] }

/-- Its host, or with `LocalState.joined` the member `[2]`. -/
def seatedNode (self : Bytes) (localState : LocalState) (maxPlayers : UInt32) : Sessions :=
  setSession { productUserId := self, productId := [9], mesh := { peers := [[2], [3]] } } [5]
    { infos := threeSeated maxPlayers, localUser := self, localState }

theorem twins_seatedNode (maxPlayers : UInt32) :
    Twins (seatedNode [1] .hosting maxPlayers) (seatedNode [2] .joined maxPlayers) [5] [5]
      (threeSeated maxPlayers) where
  hosted := ⟨[1], by rw [findByName, seatedNode, setSession, lookup_insert, if_pos rfl]⟩
  copy := by
    refine ⟨[2], findById_eq_some_iff.2 ⟨?_, rfl, fun name entry hentry _ ↦ ?_⟩⟩
    · rw [seatedNode, setSession, lookup_insert, if_pos rfl]
    · rw [seatedNode, setSession, lookup_insert] at hentry
      split at hentry
      · rename_i hname
        rw [← hname]
        decide
      · simp at hentry
  owner := rfl
  named := (by decide : ([1] : Bytes) ≠ [])
  apart := (by decide : ([2] : Bytes) ≠ [1])
  memberNamed := (by decide : ([2] : Bytes) ≠ [])
  seated := (by decide : ([2] : Bytes) ∈ ([[1], [2], [3]] : List Bytes))
  reach := (by decide : ∀ player ∈ ([[1], [2], [3]] : List Bytes), player ≠ [1] → player ≠ [] →
    player ∈ ([[2], [3]] : List Bytes))
  steady := rfl
  links := (by decide : ([[2], [3]] : List Bytes).Nodup)
  sized := ⟨(by decide : Short [7]), (by decide : ∀ player ∈ ([[1], [2], [3]] : List Bytes),
    Short player)⟩

/-- A fourth player, with a seat for it. -/
theorem players_agree_room :
    SameRoster (callPlayers true (seatedNode [1] .hosting 4) 1 [5] [some [4]]).2
      (callHeard true (seatedNode [1] .hosting 4) (seatedNode [2] .joined 4) 1 [5] [some [4]])
      [5] [5] :=
  ((players_agree (twins_seatedNode 4) ⟨by decide, by decide⟩).1 (by decide)).2
    (.inr (.inr (by decide)))

/-- A fourth player beyond the capacity is on the host's roster only; and a player taken out does
not hear of it. -/
theorem players_disagree :
    ¬ SameRoster (callPlayers true (seatedNode [1] .hosting 3) 1 [5] [some [4]]).2
        (callHeard true (seatedNode [1] .hosting 3) (seatedNode [2] .joined 3) 1 [5] [some [4]])
        [5] [5] ∧
      (callPlayers false (seatedNode [1] .hosting 3) 1 [5] [some [3]]).1.players = [[3]] ∧
      heard (seatedNode [1] .hosting 3)
        (callPlayers false (seatedNode [1] .hosting 3) 1 [5] [some [3]]).2 [3] = [] := by
  refine ⟨fun hsame ↦ ?_, by decide +kernel, by decide +kernel⟩
  have hplayers : SizedPlayers [some [4]] := ⟨by decide, by decide⟩
  have halike := (registers_agree (twins_seatedNode 3) (by decide) hplayers).1 hsame
  revert halike
  decide

end Sessions
end EosMesh
