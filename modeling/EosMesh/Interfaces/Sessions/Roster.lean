import EosMesh.Interfaces.Sessions.Staged

/-!
# The roster of a hosted session

A session we host seats each player once, its owner among them, and counts its open slots as the
seats left.  Joins and notices of peers keep it so, whatever they carry; a call need not: the local
calls check neither the capacity nor the owner's seat.

* `registerEach_spec` and `unregisterEach_spec` say what the loops of `register_players` and
  `unregister_players` make of a roster: the first puts on it whoever was not on it, once, and the
  second takes players off it one by one.
* `SessionInfos.Seated` is what a hosted session should be, and `seated_seat` that seating a roster
  in order leaves the session in order.
* `Sessions.fits` is the condition on a step, read off its input and the state before it: no call
  takes a hosted session beyond its capacity (`fitsPlayers`, `fitsObject`), or its owner off its
  roster.
* `Rostered` is what holds of an instance as long as its calls fit.  What is staged has to be ours
  too, since a commit makes it a session (`Rostered.staged_step`).  `Rostered.entryStep` goes
  through what a step can make of an entry, and a lost peer gives up its seat, which leaves a roster
  in order.

`hosted_seated` says that every session we host stays in order, over every run whose calls are made
for ourselves and fit.  In `hosted_overfull` a host registers one player more than there is room
for.
-/

set_option autoImplicit false

namespace EosMesh

open Lib
open Std (TreeMap)

namespace Sessions

/-! ## The two loops -/

/-- The players a list names, null pointers aside. -/
def listed (players : List (Option Bytes)) : List Bytes := players.reduceOption

theorem mem_listed {players : List (Option Bytes)} {player : Bytes} :
    player ∈ listed players ↔ some player ∈ players :=
  List.reduceOption_mem_iff

/-- Registering puts every player listed on the roster who was not on it, once. -/
theorem registerEach_spec (roster changed : List Bytes) (players : List (Option Bytes)) :
    ∃ extra : List Bytes,
      registerEach roster changed players = (roster ++ extra, changed ++ extra) ∧ extra.Nodup ∧
        ∀ player, player ∈ extra ↔ player ∈ listed players ∧ player ∉ roster := by
  induction players generalizing roster changed with
  | nil => exact ⟨[], by simp [registerEach, listed]⟩
  | cons first players ih =>
    rcases first with _ | first
    · exact ih roster changed
    · rw [registerEach]
      by_cases hin : first ∈ roster
      · rw [if_pos hin]
        obtain ⟨extra, heq, hnodup, hmem⟩ := ih roster changed
        refine ⟨extra, heq, hnodup, fun player ↦ ?_⟩
        rw [hmem, mem_listed, mem_listed, List.mem_cons, Option.some.injEq]
        constructor
        · exact fun h ↦ ⟨.inr h.1, h.2⟩
        · rintro ⟨rfl | h, hnot⟩
          · exact absurd hin hnot
          · exact ⟨h, hnot⟩
      · rw [if_neg hin]
        obtain ⟨extra, heq, hnodup, hmem⟩ := ih (roster ++ [first]) (changed ++ [first])
        refine ⟨first :: extra, by simpa using heq, ?_, fun player ↦ ?_⟩
        · refine List.nodup_cons.2 ⟨fun h ↦ ?_, hnodup⟩
          simpa using ((hmem first).1 h).2
        · rw [List.mem_cons, hmem, mem_listed, mem_listed, List.mem_cons, Option.some.injEq,
            List.mem_append, List.mem_singleton]
          by_cases hplayer : player = first
          · simp [hplayer, hin]
          · simp [hplayer]

/-- Unregistering takes the players that came off the roster off it one by one. -/
theorem unregisterEach_spec (roster changed : List Bytes) (players : List (Option Bytes)) :
    ∃ gone : List Bytes,
      unregisterEach roster changed players = (gone.foldl List.erase roster, changed ++ gone) ∧
        ∀ player, gone.count player = min ((listed players).count player)
          (roster.count player) := by
  induction players generalizing roster changed with
  | nil => exact ⟨[], by simp [unregisterEach, listed]⟩
  | cons first players ih =>
    rcases first with _ | first
    · exact ih roster changed
    · rw [unregisterEach]
      have hlisted : listed (some first :: players) = first :: listed players := rfl
      by_cases hin : first ∈ roster
      · rw [if_pos hin]
        obtain ⟨gone, heq, hcount⟩ := ih (roster.erase first) (changed ++ [first])
        refine ⟨first :: gone, by simpa using heq, fun player ↦ ?_⟩
        rw [hlisted, List.count_cons, hcount, List.count_cons]
        by_cases hplayer : first = player
        · subst hplayer
          have hpos := List.count_pos_iff.2 hin
          rw [List.count_erase_self]
          simp only [beq_self_eq_true, if_true]
          omega
        · rw [List.count_erase_of_ne (Ne.symm hplayer)]
          simp [hplayer]
      · rw [if_neg hin]
        obtain ⟨gone, heq, hcount⟩ := ih roster changed
        refine ⟨gone, heq, fun player ↦ ?_⟩
        rw [hlisted, hcount, List.count_cons]
        by_cases hplayer : first = player
        · subst hplayer
          rw [List.count_eq_zero.2 hin]
          omega
        · simp [hplayer]

/-- Erasing players one by one. -/
theorem count_foldl_erase (gone roster : List Bytes) (player : Bytes) :
    (gone.foldl List.erase roster).count player = roster.count player - gone.count player := by
  induction gone generalizing roster with
  | nil => rfl
  | cons first gone ih =>
    rw [List.foldl_cons, ih, List.count_cons]
    by_cases hplayer : first = player
    · subst hplayer
      rw [List.count_erase_self]
      simp only [beq_self_eq_true, if_true]
      omega
    · rw [List.count_erase_of_ne (Ne.symm hplayer)]
      simp [hplayer]

theorem foldl_erase_sublist (gone roster : List Bytes) :
    (gone.foldl List.erase roster).Sublist roster := by
  induction gone generalizing roster with
  | nil => exact List.Sublist.refl _
  | cons first gone ih => exact (ih _).trans List.erase_sublist

end Sessions

/-! ## What a hosted session should be -/

/-- The roster of a session as its host should keep it. -/
structure SessionInfos.Seated (infos : SessionInfos) : Prop where
  nodup : infos.registeredPlayers.Nodup
  owner : infos.ownerId ∈ infos.registeredPlayers
  room : infos.registeredPlayers.length ≤ infos.maxPlayers.toNat
  slots : infos.openSlots.toNat = infos.maxPlayers.toNat - infos.registeredPlayers.length

theorem toNat_openSlotsOf (infos : SessionInfos) :
    (openSlotsOf infos).toNat = infos.maxPlayers.toNat - infos.registeredPlayers.length := by
  rw [openSlotsOf]
  split
  · rename_i hfull
    simp only [UInt32.toNat_zero]
    omega
  · rename_i hroom
    have hmax := infos.maxPlayers.toNat_lt
    rw [UInt32.toNat_sub_of_le, UInt32.toNat_ofNat_of_lt']
    · rw [UInt32.size]
      omega
    · rw [UInt32.le_iff_toNat_le, UInt32.toNat_ofNat_of_lt']
      · omega
      · rw [UInt32.size]
        omega

/-- Seating a roster that is in order leaves the session in order. -/
theorem SessionInfos.seated_seat {infos : SessionInfos} {players : List Bytes}
    (hnodup : players.Nodup) (howner : infos.ownerId ∈ players)
    (hroom : players.length ≤ infos.maxPlayers.toNat) : (infos.seat players).Seated :=
  ⟨hnodup, howner, hroom, toNat_openSlotsOf _⟩

theorem Session.seated_without {entry : Session} (h : entry.infos.Seated) {gone : List Bytes}
    (howner : entry.infos.ownerId ∉ gone) : (entry.without gone).infos.Seated := by
  induction gone generalizing entry with
  | nil => exact h
  | cons peer gone ih =>
    rw [List.mem_cons, not_or] at howner
    rw [Session.without_cons]
    refine ih (SessionInfos.seated_seat (h.nodup.erase peer) ?_ ?_) howner.2
    · exact (List.mem_erase_of_ne howner.1).2 h.owner
    · exact List.length_erase_le.trans h.room

namespace Sessions

variable {s s' : Sessions} {i : Input}

/-- The user a call is made for is ourselves. -/
def Call.usesOwnId (self : Bytes) : Call → Bool
  | .createSessionModification o => o.localUserId.all (· = self)
  | .joinSession o _ _ => o.localUserId.all (· = self)
  | .searchFind _ o _ _ => o.localUserId.all (· = self)
  | _ => true

/-- Calls are made for ourselves, and the router never connects us to ourselves. -/
def Input.usesOwnId (self : Bytes) : Input → Bool
  | .call c => c.usesOwnId self
  | .around peers _ _ => self ∉ peers
  | _ => true

/-- The session we host under a name. -/
def hosted (s : Sessions) (name : Bytes) : Option Session :=
  (s.findByName name).filter (·.localState = .hosting)

/-- The players a list names, and those on the roster. -/
def together (entry : Session) (players : List (Option Bytes)) : Finset Bytes :=
  entry.players.toFinset ∪ (listed players).toFinset

/-- A call about the players fits the session we host under its name. -/
def fitsPlayers (s : Sessions) (o : PlayersOptions)
    (ok : Session → List (Option Bytes) → Bool) : Bool :=
  ((o.sessionName.bind s.hosted).all fun entry ↦ ok entry (o.players.getD []))

/-- What a modification is committed to has room for it, and keeps its owner. -/
def fitsObject (s : Sessions) (object : SessionModificationObject) : Bool :=
  if object.creating then 0 < object.infos.maxPlayers
  else (s.hosted object.sessionName).all fun entry ↦
    entry.players.length ≤ object.infos.maxPlayers.toNat ∧
      (object.infos.ownerId = [] ∨ object.infos.ownerId = entry.infos.ownerId)

/-- The condition on a step: no call takes a hosted session beyond its capacity, or its owner
off its roster. -/
def fits (s : Sessions) : Input → Bool
  | .call (.updateSession o _) =>
    (s.modifications.find o.sessionModificationHandle).all s.fitsObject
  | .call (.registerPlayers o) =>
    s.fitsPlayers o fun entry players ↦
      (together entry players).card ≤ entry.infos.maxPlayers.toNat
  | .call (.unregisterPlayers o) =>
    s.fitsPlayers o fun entry players ↦ entry.infos.ownerId ∉ listed players
  | _ => true

/-! ## It stays so -/

/-- What holds of an instance while its calls fit. -/
structure Rostered (s : Sessions) : Prop where
  user : ∀ (name : Bytes) entry, s.sessions[name]? = some entry → entry.localUser = s.productUserId
  host : ∀ (name : Bytes) entry, s.sessions[name]? = some entry → entry.localState = .hosting →
    entry.infos.ownerId = s.productUserId ∧ entry.infos.Seated
  staged : s.modifications.All fun object ↦ object.localUser = s.productUserId ∧
    (object.creating = true → object.infos.registeredPlayers = [])
  apart : s.productUserId ∉ s.mesh.peers

/-- The roster of a hosted session after a call that fits. -/
theorem hosted_eq_some {name : Bytes} {entry : Session} :
    s.hosted name = some entry ↔ s.sessions[name]? = some entry ∧ entry.localState = .hosting := by
  simp [hosted, findByName, Option.filter_eq_some_iff]

theorem seated_created {object : SessionModificationObject} {newId : Bytes}
    (hroster : object.infos.registeredPlayers = []) (hroom : 0 < object.infos.maxPlayers) :
    (SessionModificationObject.created object newId).infos.Seated := by
  have hroom' : 0 < object.infos.maxPlayers.toNat := UInt32.lt_iff_toNat_lt.1 hroom
  exact @SessionInfos.seated_seat
    { object.infos with
      sessionId := newId, ownerId := object.localUser, state := sessionPending }
    (object.infos.registeredPlayers ++ [object.localUser])
    (by simp [hroster]) (by simp) (by simp [hroster]; omega)

theorem seated_modified {object : SessionModificationObject} {entry : Session}
    (h : entry.infos.Seated) (hroom : entry.players.length ≤ object.infos.maxPlayers.toNat)
    (howner : (Session.modified entry object).infos.ownerId = entry.infos.ownerId) :
    (Session.modified entry object).infos.Seated := by
  refine ⟨h.nodup, ?_, hroom, toNat_openSlotsOf _⟩
  rw [howner]
  exact h.owner

theorem seated_registered {entry : Session} {players : List (Option Bytes)}
    (h : entry.infos.Seated)
    (hroom : (together entry players).card ≤ entry.infos.maxPlayers.toNat) :
    (entry.infos.seat (registerEach entry.players [] players).1).Seated := by
  obtain ⟨extra, heq, hnodup, hmem⟩ := registerEach_spec entry.players [] players
  have hall : (entry.players ++ extra).Nodup :=
    h.nodup.append hnodup fun player hin hextra ↦ ((hmem player).1 hextra).2 hin
  rw [heq]
  refine SessionInfos.seated_seat hall (List.mem_append_left _ h.owner) ?_
  have hset : (entry.players ++ extra).toFinset = together entry players := by
    ext player
    rw [together, List.mem_toFinset, List.mem_append, hmem, Finset.mem_union, List.mem_toFinset,
      List.mem_toFinset]
    by_cases hin : player ∈ entry.players <;> simp [hin]
  rw [← List.toFinset_card_of_nodup hall, hset]
  exact hroom

theorem seated_unregistered {entry : Session} {players : List (Option Bytes)}
    (h : entry.infos.Seated) (howner : entry.infos.ownerId ∉ listed players) :
    (entry.infos.seat (unregisterEach entry.players [] players).1).Seated := by
  obtain ⟨gone, heq, hcount⟩ := unregisterEach_spec entry.players [] players
  rw [heq]
  have hsub := foldl_erase_sublist gone entry.players
  refine SessionInfos.seated_seat (h.nodup.sublist hsub) ?_ (hsub.length_le.trans h.room)
  have hpos := List.count_pos_iff.2 h.owner
  rw [← List.count_pos_iff, count_foldl_erase, hcount, List.count_eq_zero.2 howner]
  rwa [Nat.zero_min, Nat.sub_zero]

/-- A notice of a peer that may only take itself out leaves a session of ours in order. -/
theorem seated_noticed {entry : Session} {adding : Bool} {source : Bytes}
    {notice : SessionMembers} (h : entry.infos.Seated) (howner : source ≠ entry.infos.ownerId)
    (hmay : mayNotice adding source entry notice = true) :
    (entry.infos.seat
      (notice.playerIds.foldl (noticePlayer adding entry.infos) entry.players)).Seated := by
  simp only [mayNotice, decide_eq_true_eq, howner, false_or] at hmay
  obtain ⟨hadding, hall⟩ := hmay
  have hI (players : List Bytes) (roster : List Bytes) (hplayers : ∀ p ∈ players, p = source)
      (hroster : (entry.infos.seat roster).Seated) :
      (entry.infos.seat (players.foldl (noticePlayer adding entry.infos) roster)).Seated := by
    induction players generalizing roster with
    | nil => exact hroster
    | cons player players ih =>
      refine ih _ (fun p hp ↦ hplayers p (List.mem_cons_of_mem _ hp)) ?_
      obtain rfl := hplayers player List.mem_cons_self
      rw [noticePlayer, if_neg (by simpa using hadding), if_pos howner]
      refine SessionInfos.seated_seat (hroster.nodup.erase player) ?_
        (List.length_erase_le.trans hroster.room)
      exact (List.mem_erase_of_ne howner.symm).2 hroster.owner
  exact hI _ _ hall (SessionInfos.seated_seat h.nodup h.owner h.room)

/-- What a step that fits makes of one entry, before it loses anyone. -/
theorem Rostered.entryStep (hI : Rostered s) {name : Bytes} {entry' : Session}
    (hown : i.usesOwnId s.productUserId = true) (hfits : s.fits i = true)
    (h : EntryStep s i name s.sessions[name]? (some entry')) :
    entry'.localUser = s.productUserId ∧ (entry'.localState = .hosting →
      entry'.infos.ownerId = s.productUserId ∧ entry'.infos.Seated) := by
  generalize hbefore : s.sessions[name]? = before at h
  generalize hafter : some entry' = after at h
  cases h with
  | same =>
    exact ⟨hI.user name _ (hbefore.trans hafter.symm), hI.host name _ (hbefore.trans hafter.symm)⟩
  | @created o random object newId hobject hversion hcreating hid hne =>
    cases hafter
    obtain ⟨huser, hroster⟩ := hI.staged _ _ hobject
    refine ⟨huser, fun _ ↦ ⟨huser, seated_created (hroster hcreating) ?_⟩⟩
    simpa [fits, hobject, fitsObject, hcreating] using hfits
  | @modified o random object entry hobject hcreating =>
    cases hafter
    have huser := hI.user _ _ hbefore
    refine ⟨huser, fun hhosting ↦ ?_⟩
    obtain ⟨howner, hseated⟩ := hI.host _ _ hbefore hhosting
    simp only [fits, hobject, fitsObject, hcreating, hosted_eq_some.2 ⟨hbefore, hhosting⟩,
      Option.all_some, Bool.false_eq_true, if_false, decide_eq_true_eq] at hfits
    have hkeeps : (Session.modified entry object).infos.ownerId = entry.infos.ownerId := by
      show (if object.infos.ownerId = [] then entry.localUser else object.infos.ownerId) = _
      split
      · rw [huser, howner]
      · exact hfits.2.resolve_left ‹_›
    exact ⟨hkeeps.trans howner, seated_modified hseated hfits.1 hkeeps⟩
  | destroyed => cases hafter
  | started hname hstate =>
    cases hafter
    have huser := hI.user _ _ hbefore
    refine ⟨huser, fun hhosting ↦ ?_⟩
    obtain ⟨howner, hseated⟩ := hI.host _ _ hbefore hhosting
    exact ⟨howner, ⟨hseated.nodup, hseated.owner, hseated.room, hseated.slots⟩⟩
  | ended hname hstate =>
    cases hafter
    have huser := hI.user _ _ hbefore
    refine ⟨huser, fun hhosting ↦ ?_⟩
    obtain ⟨howner, hseated⟩ := hI.host _ _ hbefore hhosting
    exact ⟨howner, ⟨hseated.nodup, hseated.owner, hseated.room, hseated.slots⟩⟩
  | @registered o _ entry players hname hplayers hself =>
    cases hafter
    have huser := hI.user _ _ hbefore
    refine ⟨huser, fun hhosting ↦ ?_⟩
    obtain ⟨howner, hseated⟩ := hI.host _ _ hbefore hhosting
    simp only [fits, fitsPlayers, hname, hplayers, Option.bind_some,
      hosted_eq_some.2 ⟨hbefore, hhosting⟩, Option.all_some, Option.getD_some,
      decide_eq_true_eq] at hfits
    exact ⟨howner, seated_registered hseated hfits⟩
  | @unregistered o _ entry players hname hplayers hself =>
    cases hafter
    have huser := hI.user _ _ hbefore
    refine ⟨huser, fun hhosting ↦ ?_⟩
    obtain ⟨howner, hseated⟩ := hI.host _ _ hbefore hhosting
    simp only [fits, fitsPlayers, hname, hplayers, Option.bind_some,
      hosted_eq_some.2 ⟨hbefore, hhosting⟩, Option.all_some, Option.getD_some,
      decide_eq_true_eq] at hfits
    exact ⟨howner, seated_unregistered hseated hfits⟩
  | @joining o _ _ _ localUser _ hname hfound huser hversion hne hjoinable =>
    cases hafter
    refine ⟨?_, fun hhosting ↦ by cases hhosting⟩
    simpa [Input.usesOwnId, Call.usesOwnId, huser] using hown
  | admitted hreads hfound hhosting hknown hnew hroom =>
    cases hafter
    have huser := hI.user _ _ hbefore
    refine ⟨huser, fun _ ↦ ?_⟩
    obtain ⟨howner, hseated⟩ := hI.host _ _ hbefore hhosting
    refine ⟨howner, SessionInfos.seated_seat ?_ (List.mem_append_left _ hseated.owner) ?_⟩
    · exact hseated.nodup.append (List.nodup_singleton _) (by simpa [Session.players] using hnew)
    · simpa using hroom
  | told hreads hfound howner hplayer hnew =>
    cases hafter
    have huser := hI.user _ _ hbefore
    refine ⟨huser, fun hhosting ↦ ?_⟩
    exact absurd (howner.trans (hI.host _ _ hbefore hhosting).1) hreads.other
  | accepted hreads hfound howner hplayer hwaiting =>
    cases hafter
    have huser := hI.user _ _ hbefore
    exact ⟨huser, fun hhosting ↦ by cases hhosting⟩
  | refused => cases hafter
  | rewritten hreads hfound hcopy howner =>
    cases hafter
    have huser := hI.user _ _ hbefore
    exact ⟨huser, fun hhosting ↦ absurd hhosting hcopy⟩
  | closed => cases hafter
  | noticed hreads hfound hmay =>
    cases hafter
    have huser := hI.user _ _ hbefore
    refine ⟨huser, fun hhosting ↦ ?_⟩
    obtain ⟨howner, hseated⟩ := hI.host _ _ hbefore hhosting
    exact ⟨howner, seated_noticed hseated (howner ▸ hreads.other) hmay⟩
  | expired => cases hafter

/-- What is staged stays ours. -/
theorem Rostered.staged_step (hI : Rostered s) (hown : i.usesOwnId s.productUserId = true)
    (h : step s i = some s') : s'.modifications.All fun object ↦
      object.localUser = s.productUserId ∧
        (object.creating = true → object.infos.registeredPlayers = []) := by
  intro handle object hobject
  cases i with
  | call c =>
    rw [step] at h
    split at h
    · cases h
      have hstep := objectStep_call (s := s) c handle
      generalize hbefore : s.modifications.find handle = before at hstep
      generalize hafter : (s.call c).2.modifications.find handle = after at hstep
      have heq : some object = after := hobject.symm.trans hafter
      cases hstep with
      | same => exact hI.staged _ _ (hbefore.trans heq.symm)
      | released => cases heq
      | blank huser hname hcreating hroster howner =>
        cases heq
        simp only [Input.usesOwnId, Call.usesOwnId, huser, Option.all_some,
          decide_eq_true_eq] at hown
        exact ⟨hown, fun _ ↦ hroster⟩
      | drawn hname hentry =>
        cases heq
        have huser := hI.user _ _ hentry
        exact ⟨huser, fun hcreating ↦ by cases hcreating⟩
      | @edited _ object infos hfixed =>
        cases heq
        obtain ⟨huser, hroster⟩ := hI.staged _ _ hbefore
        refine ⟨huser, fun hcreating ↦ ?_⟩
        have hsame : (fixedPart infos).registeredPlayers =
          (fixedPart object.infos).registeredPlayers :=
          by rw [hfixed]
        exact Eq.trans hsame (hroster hcreating)
    · cases h
  | receive message =>
    cases h
    rw [modifications_of_still (still_onNetworkMessage message)] at hobject
    exact hI.staged _ _ hobject
  | collect address now =>
    cases h
    rw [modifications_of_still (still_collect address now)] at hobject
    exact hI.staged _ _ hobject
  | around peers known losses =>
    cases h
    exact hI.staged _ _ hobject

/-- One step that fits keeps everything in order. -/
theorem Rostered.step (hI : Rostered s) (hown : i.usesOwnId s.productUserId = true)
    (hfits : s.fits i = true) (h : step s i = some s') : Rostered s' := by
  have htable := tableStep_of_step h
  obtain ⟨gone, hgone, hentries⟩ := htable.entries
  -- We are never among the peers a step loses.
  have hself : s.productUserId ∉ gone := fun hin ↦ by
    rcases hgone _ hin with ⟨hpeer, -⟩ | ⟨message, -, -, -, -, hother⟩
    · exact hI.apart hpeer
    · exact hother rfl
  have hall (name : Bytes) (entry' : Session) (hentry : s'.sessions[name]? = some entry') :
      entry'.localUser = s.productUserId ∧ (entry'.localState = .hosting →
        entry'.infos.ownerId = s.productUserId ∧ entry'.infos.Seated) := by
    obtain ⟨edited, hstep, hafter⟩ := hentries name
    rw [hafter, Option.map_eq_some_iff] at hentry
    obtain ⟨entry, rfl, rfl⟩ := hentry
    obtain ⟨huser, hhost⟩ := hI.entryStep hown hfits hstep
    rw [Session.without_localUser, Session.without_localState, Session.without_ownerId]
    refine ⟨huser, fun hhosting ↦ ?_⟩
    obtain ⟨howner, hseated⟩ := hhost hhosting
    exact ⟨howner, Session.seated_without hseated (howner ▸ hself)⟩
  refine ⟨fun name entry hentry ↦ ?_, fun name entry hentry ↦ ?_, ?_, fun hpeer ↦ ?_⟩
  · rw [htable.self]
    exact (hall name entry hentry).1
  · rw [htable.self]
    exact (hall name entry hentry).2
  · rw [htable.self]
    exact hI.staged_step hown h
  · rw [htable.self] at hpeer
    rcases htable.peers _ hpeer with hpeer | hpeer
    · exact hI.apart hpeer
    · cases i with
      | around peers known losses => simp [Input.usesOwnId] at hown; exact hown hpeer
      | _ => simp [Input.brings] at hpeer

/-- An instance nothing has happened to. -/
def fresh (self product : Bytes) : Sessions := { productUserId := self, productId := product }

theorem lookup_fresh (self product name : Bytes) : (fresh self product).sessions[name]? = none :=
  TreeMap.getElem?_emptyc

theorem rostered_fresh (self product : Bytes) : Rostered (fresh self product) where
  user name entry h := by rw [lookup_fresh] at h; cases h
  host name entry h := by rw [lookup_fresh] at h; cases h
  staged := .empty
  apart := List.not_mem_nil

/-- **A session we host stays in order**: in every run whose calls are made for ourselves and fit,
whatever the peers send, each hosted session seats distinct players, its owner among them and no
more than its maximum, and its open slots are the seats left. -/
theorem hosted_seated {self product : Bytes}
    (h : Reaches Sessions.step (fun s i ↦ i.usesOwnId s.productUserId = true ∧ s.fits i = true)
      (fresh self product) s) {name : Bytes} {entry : Session}
        (hentry : s.hosted name = some entry) :
    entry.infos.Seated := by
  have hI : Rostered s := h.invariant (rostered_fresh self product)
    fun s₁ i s₂ hI hguard hstep ↦ hI.step hguard.1 hguard.2 hstep
  obtain ⟨hlookup, hhosting⟩ := hosted_eq_some.1 hentry
  exact (hI.host name entry hlookup hhosting).2

/-- Staging a session called `name` for `maxPlayers` players. -/
def stage (self name : Bytes) (maxPlayers : UInt32) : Call :=
  .createSessionModification
    { apiVersion := 1, sessionName := some name, bucketId := some [0], maxPlayers
      localUserId := some self, sessionId := none, bSanctionsEnabled := 0 }

/-- Committing what is staged under a handle. -/
def commitTo (handle : GameHandle) : Call :=
  .updateSession { apiVersion := 1, sessionModificationHandle := handle }
    (some (List.replicate 16 7))

/-- A session for two, in which a known peer takes the second seat. -/
theorem hosted_seated_full : ∃ s entry, Reaches Sessions.step
      (fun s i ↦ i.usesOwnId s.productUserId = true ∧ s.fits i = true) (fresh [1] [9]) s ∧
    s.hosted [5] = some entry ∧ entry.players = [[1], [2]] ∧ entry.infos.Seated := by
  obtain ⟨s, h, hfull⟩ := exists_reaches Sessions.step
    (fun s i ↦ i.usesOwnId s.productUserId = true ∧ s.fits i = true) (fresh [1] [9])
    (fun s ↦ (s.hosted [5]).map Session.players = some [[1], [2]])
    [.call (stage [1] [5] 2), .call (commitTo 1), .around [[2]] [[2]] [],
      .receive
        (envelope { productUserId := [2], productId := [9] } [1]
          (.joinRequest { sessionId := generateSessionId (some (List.replicate 16 7)) }))]
    (by decide +kernel) (by decide +kernel)
  obtain ⟨entry, hentry, hplayers⟩ := Option.map_eq_some_iff.1 hfull
  exact ⟨s, entry, h, hentry, hplayers, hosted_seated h hentry⟩

/-- A host that registers one player more than there is room for. -/
theorem hosted_overfull : ∃ s entry, Reaches Sessions.step
      (fun s i ↦ i.usesOwnId s.productUserId = true) (fresh [1] [9]) s ∧
    s.hosted [5] = some entry ∧ ¬ entry.infos.Seated := by
  obtain ⟨s, h, hfull⟩ := exists_reaches Sessions.step
    (fun s i ↦ i.usesOwnId s.productUserId = true)
    (fresh [1] [9])
    (fun s ↦ (s.hosted [5]).any fun entry ↦ entry.infos.maxPlayers.toNat < entry.players.length)
    [.call (stage [1] [5] 1), .call (commitTo 1),
      .call (.registerPlayers
        { apiVersion := 1, sessionName := some [5], players := some [some [2]] })]
    (by decide +kernel) (by decide +kernel)
  obtain ⟨entry, hentry, hfull⟩ := (Option.any_eq_true _ _).1 hfull
  refine ⟨s, entry, h, hentry, fun hseated ↦ ?_⟩
  exact absurd hseated.room (Nat.not_le.2 (of_decide_eq_true hfull))

end Sessions
end EosMesh
