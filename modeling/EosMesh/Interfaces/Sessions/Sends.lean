import EosMesh.Interfaces.Sessions.Steps

/-!
# What an instance sends while nothing is lost

On links that lose nobody, a call and a message do no more to the mesh than post messages: `posted`
is the state with some more of them handed over, and `heard` is what one peer gets of them.

* `sendTo_quiet` and `sendToMembers_quiet` say what is posted.
* `findById_setSession` is what a lookup by id finds once an entry was written under its own id.
-/

set_option autoImplicit false

namespace EosMesh

open Lib
open Std (TreeMap)

/-- No message of the interface goes by the router's own word for a peer that left. -/
theorem SessionMessage.tag_ne_peerDisconnected (msg : SessionMessage) :
    msg.type.tag ≠ MessageType.peerDisconnected.tag := by
  cases msg <;> simp [SessionMessage.type, MessageType.tag]

namespace Sessions

variable {s : Sessions}

/-- The state with `list` handed to the router. -/
def posted (s : Sessions) (list : List (Bytes × SessionMessage)) : Sessions :=
  { s with mesh := { s.mesh with sent := s.mesh.sent ++ list } }

@[simp] theorem posted_nil : s.posted [] = s := by
  rw [posted, List.append_nil]

@[simp] theorem posted_posted (list list' : List (Bytes × SessionMessage)) :
    (s.posted list).posted list' = s.posted (list ++ list') := by
  simp [posted]

@[simp] theorem posted_sessions (list : List (Bytes × SessionMessage)) :
    (s.posted list).sessions = s.sessions := rfl

@[simp] theorem posted_losses (list : List (Bytes × SessionMessage)) :
    (s.posted list).mesh.losses = s.mesh.losses := rfl

@[simp] theorem posted_peers (list : List (Bytes × SessionMessage)) :
    (s.posted list).mesh.peers = s.mesh.peers := rfl

@[simp] theorem posted_productUserId (list : List (Bytes × SessionMessage)) :
    (s.posted list).productUserId = s.productUserId := rfl

@[simp] theorem posted_sent (list : List (Bytes × SessionMessage)) :
    (s.posted list).mesh.sent = s.mesh.sent ++ list := rfl

/-- A message to one peer, as it goes out. -/
def letters (s : Sessions) (message : SessionMessage) (peer : Bytes) :
    List (Bytes × SessionMessage) :=
  (s.mesh.recipients peer).map fun p ↦ (p, message)

theorem sendTo_quiet (h : s.mesh.losses = []) (peer : Bytes) (message : SessionMessage) :
    s.sendTo peer message = s.posted (s.letters message peer) := by
  rw [sendTo, Mesh.send_of_noLosses _ h]
  rfl

/-- Whom a message to the members goes to. -/
def addressees (s : Sessions) (name except : Bytes) : List Bytes :=
  (s.players name).filter fun player ↦ player ≠ s.productUserId ∧ player ≠ except

theorem foldl_sendTo_quiet (h : s.mesh.losses = []) (message : SessionMessage)
    (peers : List Bytes) : peers.foldl (fun s peer ↦ s.sendTo peer message) s =
      s.posted (peers.flatMap (s.letters message)) := by
  induction peers generalizing s with
  | nil => simp
  | cons peer peers ih =>
    rw [List.foldl_cons, sendTo_quiet h, ih (by simpa using h), List.flatMap_cons, posted_posted]
    rfl

theorem sendToMembers_quiet (h : s.mesh.losses = []) (name : Bytes) (message : SessionMessage)
    (except : Bytes) : s.sendToMembers name message except =
      s.posted ((s.addressees name except).flatMap (s.letters message)) := by
  rw [sendToMembers, fanOut_steady (I := fun s : Sessions ↦ s.mesh.losses = []) ?_ ?_ h,
    foldl_sendTo_quiet h]
  · congr 2
    refine List.filter_congr fun player _ ↦ ?_
    simp
  · intro s player hs
    rw [sendTo_quiet hs]
    exact hs
  · intro s player hs
    rw [sendTo_quiet hs]
    rfl

/-! ## What one peer gets -/

/-- The messages among `list` for one peer. -/
def heardFrom (list : List (Bytes × SessionMessage)) (peer : Bytes) : List SessionMessage :=
  (list.filter fun letter ↦ letter.1 = peer).map Prod.snd

@[simp] theorem heardFrom_nil (peer : Bytes) : heardFrom [] peer = [] := rfl

@[simp] theorem heardFrom_append (list list' : List (Bytes × SessionMessage)) (peer : Bytes) :
    heardFrom (list ++ list') peer = heardFrom list peer ++ heardFrom list' peer := by
  simp [heardFrom]

/-- A peer that is reached gets what is addressed to it, and nothing else. -/
theorem heardFrom_letters (hpeers : s.mesh.peers.Nodup) {dest peer : Bytes}
    (hdest : dest ≠ []) (message : SessionMessage) : heardFrom (s.letters message dest) peer =
      if dest = peer ∧ peer ∈ s.mesh.peers then [message] else [] := by
  have hrecipients : s.mesh.recipients dest = if dest ∈ s.mesh.peers then [dest] else [] := by
    rw [Mesh.recipients, if_neg hdest, List.filter_eq]
    by_cases hin : dest ∈ s.mesh.peers
    · rw [List.count_eq_one_of_mem hpeers hin, if_pos hin]
      rfl
    · rw [List.count_eq_zero.2 hin, if_neg hin]
      rfl
  rw [letters, hrecipients]
  by_cases hin : dest ∈ s.mesh.peers
  · by_cases heq : dest = peer
    · subst heq
      simp [heardFrom, hin]
    · simp [heardFrom, hin, heq]
  · have hnot : ¬ (dest = peer ∧ peer ∈ s.mesh.peers) := fun h ↦ hin (h.1 ▸ h.2)
    rw [if_neg hin, if_neg hnot]
    rfl

/-- A peer that is reached gets a message to some players once for each time it is among them. -/
theorem heardFrom_flatMap_letters (hpeers : s.mesh.peers.Nodup) {players : List Bytes}
    (hne : [] ∉ players) (peer : Bytes) (message : SessionMessage) :
    heardFrom (players.flatMap (s.letters message)) peer =
      List.replicate (if peer ∈ s.mesh.peers then players.count peer else 0) message := by
  induction players with
  | nil => simp
  | cons player players ih =>
    rw [List.mem_cons, not_or] at hne
    rw [List.flatMap_cons, heardFrom_append, heardFrom_letters hpeers (Ne.symm hne.1), ih hne.2,
      List.count_cons]
    by_cases hreach : peer ∈ s.mesh.peers
    · by_cases hplayer : player = peer
      · simp [hplayer, hreach, List.replicate_succ]
      · simp [hplayer, hreach]
    · simp [hreach]

/-! ## Lookups by id -/

/-- What is found by id is the first entry, by name, that has the id. -/
theorem findById_eq_some_iff {sessionId name : Bytes} {entry : Session} :
    s.findById sessionId = some (name, entry) ↔ s.sessions[name]? = some entry ∧
      entry.infos.sessionId = sessionId ∧ ∀ (name' : Bytes) entry',
        s.sessions[name']? = some entry' → entry'.infos.sessionId = sessionId →
          compare name' name ≠ .lt := by
  rw [findById, find?_toList_eq_some_iff]
  simp

/-- An entry that was found is found again once it was written, under the same id. -/
theorem findById_setSession {sessionId name : Bytes} {entry entry' : Session}
    (h : s.findById sessionId = some (name, entry)) (hid : entry'.infos.sessionId = sessionId) :
    (s.setSession name entry').findById sessionId = some (name, entry') := by
  obtain ⟨-, -, hleast⟩ := findById_eq_some_iff.1 h
  refine findById_eq_some_iff.2 ⟨by rw [setSession, lookup_insert, if_pos rfl], hid, ?_⟩
  intro name' other hother hother'
  rw [setSession, lookup_insert] at hother
  split at hother
  · rename_i heq
    rw [heq, Std.ReflOrd.compare_self]
    exact fun h ↦ by cases h
  · exact hleast name' other hother hother'

end Sessions
end EosMesh
