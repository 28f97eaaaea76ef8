import EosMesh.Lib.Table
import EosMesh.Net.Codecs

/-!
# What an interface stands on

The session and lobby interfaces rest on the same few things: the results a call reports, the
handles it gives out, and the router underneath.

* `Mesh` is the router as an interface sees it: the peers it can reach, and what it was handed for
  each of them.  A send may fail, and then the router drops the peer before the send returns; so a
  send comes with the peers it lost, and the interface that sent hears of each of them at once.
* `HandleStore` is `common/handle_store.h`.
* A null `options` is refused like one of a version out of range, and is not modelled apart; a call
  without a delegate does nothing, and neither is that.
-/

set_option autoImplicit false

namespace EosMesh

open Lib
open Std (TreeMap)

/-! ## Results -/

/-- An `EOS_EResult`; a verdict travels as its number. -/
abbrev ResultCode := Int32

namespace ResultCode

/-- The results a call reports, under the SDK's numbers. -/
def success : ResultCode := 0
def invalidUser : ResultCode := 3
def alreadyPending : ResultCode := 9
def invalidParameters : ResultCode := 10
def incompatibleVersion : ResultCode := 13
def notFound : ResultCode := 18
def noChange : ResultCode := 20
def limitExceeded : ResultCode := 22
def timedOut : ResultCode := 27
def sessionsTooManyPlayers : ResultCode := 5001
def sessionsSessionAlreadyExists : ResultCode := 5003
def sessionsNotAllowed : ResultCode := 5018
def lobbyNotOwner : ResultCode := 9000
def lobbyTooManyPlayers : ResultCode := 9004
def lobbyNotAllowed : ResultCode := 9016
def lobbyPresenceLobbyExists : ResultCode := 9018
def unexpectedError : ResultCode := 0x7fffffff

end ResultCode

/-- A version between the first and the one we know. -/
def versionOk (version latest : Int32) : Bool := version > 0 ∧ version ≤ latest

/-! ## Handles -/

/-- A handle as the game holds it. -/
abbrev GameHandle := Nat

/-- The objects a game holds handles to.  Every store of the process draws its handles from one
counter, so a handle is never given out twice. -/
structure HandleStore (α : Type) where
  objects : TreeMap GameHandle α := {}

namespace HandleStore

variable {α : Type}

/-- What a handle stands for, if it is one of ours. -/
def find (store : HandleStore α) (handle : GameHandle) : Option α := store.objects[handle]?

/-- Taking in an object under a handle, a new one or the one it was found under. -/
def put (store : HandleStore α) (handle : GameHandle) (object : α) : HandleStore α :=
  { objects := store.objects.insert handle object }

/-- The handle stands for nothing any more. -/
def release (store : HandleStore α) (handle : GameHandle) : HandleStore α :=
  { objects := store.objects.erase handle }

theorem find_empty (handle : GameHandle) : ({} : HandleStore α).find handle = none :=
  TreeMap.getElem?_emptyc

theorem find_put (store : HandleStore α) (object : α) (h handle : GameHandle) :
    (store.put h object).find handle = if h = handle then some object else store.find handle :=
  lookup_insert _ _ _ _

theorem find_release (store : HandleStore α) (h handle : GameHandle) :
    (store.release h).find handle = if h = handle then none else store.find handle :=
  lookup_erase _ _ _

/-- Every object a game can reach is a `P`. -/
def All (P : α → Prop) (store : HandleStore α) : Prop :=
  ∀ handle object, store.find handle = some object → P object

variable {P : α → Prop} {store : HandleStore α}

theorem All.empty : All P ({} : HandleStore α) := fun handle object h ↦ by
  rw [find_empty] at h
  cases h

theorem All.put (h : All P store) {object : α} (hobject : P object) (handle : GameHandle) :
    All P (store.put handle object) := fun handle' found hfound ↦ by
  rw [find_put] at hfound
  split at hfound
  · cases hfound
    exact hobject
  · exact h handle' found hfound

theorem All.release (h : All P store) (handle : GameHandle) : All P (store.release handle) :=
  fun handle' found hfound ↦ by
    rw [find_release] at hfound
    split at hfound
    · cases hfound
    · exact h handle' found hfound

theorem All.mono {Q : α → Prop} (h : All P store) (hPQ : ∀ object, P object → Q object) :
    All Q store := fun handle object hfound ↦ hPQ object (h handle object hfound)

end HandleStore

/-! ## The router -/

/-- The router as an interface sees it, `μ` being the messages of the interface. -/
structure Mesh (μ : Type) where
  /-- `peer_ids`. -/
  peers : List Bytes := []
  /-- The peers each coming send loses, in the order they go; a send past the last loses none. -/
  losses : List (List Bytes) := []
  /-- Whom each message was handed to, the oldest first. -/
  sent : List (Bytes × μ) := []

namespace Mesh

variable {μ : Type} (m : Mesh μ)

/-- Whom an envelope to `peer` goes to: one addressed to nobody goes to everyone. -/
def recipients (peer : Bytes) : List Bytes :=
  if peer = [] then m.peers else m.peers.filter (· = peer)

/-- `message_router::send`, with the peers it lost. -/
def send (peer : Bytes) (message : μ) : Mesh μ × List Bytes :=
  match m.recipients peer with
  | [] => (m, [])
  | reached =>
    ({ m with losses := m.losses.tail, sent := m.sent ++ reached.map fun p ↦ (p, message) },
      m.losses.headD [])

/-- The peer is out of reach from now on. -/
def drop (peer : Bytes) : Mesh μ := { m with peers := m.peers.filter (· ≠ peer) }

@[simp] theorem drop_sent (peer : Bytes) : (m.drop peer).sent = m.sent := rfl

@[simp] theorem drop_losses (peer : Bytes) : (m.drop peer).losses = m.losses := rfl

@[simp] theorem send_peers (peer : Bytes) (message : μ) :
    (m.send peer message).1.peers = m.peers := by
  rw [send]
  split <;> rfl

/-- While nothing is lost, a send only adds to what was handed over. -/
theorem send_of_noLosses (h : m.losses = []) (peer : Bytes) (message : μ) :
    m.send peer message =
      ({ m with sent := m.sent ++ (m.recipients peer).map fun p ↦ (p, message) }, []) := by
  obtain ⟨peers, losses, sent⟩ := m
  obtain rfl : losses = [] := h
  rw [send]
  split
  · rename_i hnone
    simp [hnone]
  · rfl

/-- More was handed over since, `letters` being what counts of it, and peers may be gone. -/
structure Grew (counts : μ → Bool) (letters : List (Bytes × μ)) (m m' : Mesh μ) : Prop where
  peers : m'.peers ⊆ m.peers
  sent : ∃ more, m'.sent = m.sent ++ more ∧ more.filter (fun letter ↦ counts letter.2) = letters

variable {counts : μ → Bool} {letters letters' : List (Bytes × μ)} {m m' m'' : Mesh μ}

theorem Grew.refl (m : Mesh μ) : Grew counts [] m m :=
  ⟨List.Subset.refl _, [], (List.append_nil _).symm, rfl⟩

theorem Grew.trans (h : Grew counts letters m m') (h' : Grew counts letters' m' m'') :
    Grew counts (letters ++ letters') m m'' := by
  obtain ⟨more, hmore, hcounts⟩ := h.sent
  obtain ⟨more', hmore', hcounts'⟩ := h'.sent
  refine ⟨List.Subset.trans h'.peers h.peers, more ++ more', ?_, ?_⟩
  · rw [hmore', hmore, List.append_assoc]
  · rw [List.filter_append, hcounts, hcounts']

theorem Grew.drop (h : Grew counts letters m m') (peer : Bytes) :
    Grew counts letters m (m'.drop peer) :=
  ⟨List.Subset.trans (List.filter_subset_self _) h.peers, h.sent⟩

/-- What counts was handed over since. -/
theorem Grew.mem_drop (h : Grew counts letters m m') {letter : Bytes × μ}
    (hletter : letter ∈ letters) :
    letter ∈ m'.sent.drop m.sent.length := by
  obtain ⟨more, hmore, rfl⟩ := h.sent
  rw [hmore, List.drop_left]
  exact List.mem_of_mem_filter hletter

/-- A send hands over one letter to each recipient, and all of them count, or none. -/
theorem grew_send (m : Mesh μ) (peer : Bytes) (message : μ) :
    Grew counts (if counts message then (m.recipients peer).map fun p ↦ (p, message) else []) m
      (m.send peer message).1 := by
  refine ⟨(m.send_peers peer message).symm ▸ List.Subset.refl _,
    (m.recipients peer).map fun p ↦ (p, message), ?_, ?_⟩
  · rw [send]
    split
    · rename_i hnone
      simp [hnone]
    · rfl
  · rw [List.filter_map]
    split
    · rename_i hcounts
      simp [Function.comp_def, hcounts]
    · rename_i hcounts
      simp [Function.comp_def, hcounts]

/-- **Whom a loop of sends asks**: only those it is to, and each of them that is there to the
end. -/
theorem grew_foldl {σ : Type} {mesh : σ → Mesh μ} {ask : σ → Bytes → σ} {message : μ}
    (hask : ∀ s peer, Grew counts (((mesh s).recipients peer).map fun p ↦ (p, message)) (mesh s)
      (mesh (ask s peer))) {asked : List Bytes} (hnamed : [] ∉ asked) (s : σ) :
    ∃ reached, Grew counts (reached.map fun p ↦ (p, message)) (mesh s)
        (mesh (asked.foldl ask s)) ∧ reached ⊆ asked ∧
      ∀ peer ∈ asked, peer ∈ (mesh (asked.foldl ask s)).peers → peer ∈ reached := by
  induction asked generalizing s with
  | nil => exact ⟨[], .refl _, List.Subset.refl _, by simp⟩
  | cons first asked ih =>
    rw [List.mem_cons, not_or] at hnamed
    obtain ⟨reached, hgrew, hsubset, hall⟩ := ih hnamed.2 (ask s first)
    have hrecipients : (mesh s).recipients first = (mesh s).peers.filter (· = first) :=
      if_neg (Ne.symm hnamed.1)
    refine ⟨(mesh s).recipients first ++ reached, ?_, ?_, fun peer hpeer hlast ↦ ?_⟩
    · rw [List.map_append]
      exact (hask s first).trans hgrew
    · rw [hrecipients]
      refine List.append_subset.2 ⟨fun peer hpeer ↦ ?_,
        List.Subset.trans hsubset (List.subset_cons_self _ _)⟩
      rw [List.mem_filter, decide_eq_true_eq] at hpeer
      exact hpeer.2 ▸ List.mem_cons_self
    · rw [List.mem_append]
      rcases List.mem_cons.1 hpeer with rfl | hpeer
      · have hthere := ((hask s peer).trans hgrew).peers hlast
        exact .inl (by rw [hrecipients]; simp [hthere])
      · exact .inr (hall peer hpeer hlast)

end Mesh

/-- What happens to an instance from one tick to the next: an input, or the router drops a peer and
tells it so. -/
inductive Turn (ι : Type)
  | input (i : ι)
  | drop (peer : Bytes)
  deriving DecidableEq, Repr

end EosMesh
