import EosMesh.Interfaces.Sessions.Searches

/-!
# Every find and every join is completed

The result of a find or a join that stays open is queued with the callback manager, and completed by
way of the pending tables of the interface, which are all that leads from one to the other.  So the
question is whether every result in the queue is still a key of a table: one that is not would stay
in the queue for good.

* `Completions` is the interface with its queue in `core/callback_manager.cpp`.  A tick drains the
  queue of what is ready, and then fires each of those and frees it; in between the game may do what
  it likes, another tick included.  Where a result is allocated is not fixed: an address may be used
  again once it is free (`freshAt`).
* `Linked` says that the tables lead to a result, and to a search or a join that is due when the
  result is.  `Apart` keeps two results from waiting for one search.
* `Holds` is what a step has to leave of this; `holds_call` is about the calls that queue nothing,
  `searchFind_spec` and `startSearch_spec` about a find, and `Drained` about a tick.
* `Inv.step` is the step lemma.
* `SparesFinds` is the condition: no search is released while its find is in the queue.  A release
  takes the entry out of the table and leaves the result where it is, which `completion_lost` runs
  into.

`completions_kept` says of the runs that keep the condition that nothing is lost (`Kept`), nothing
is late (`Punctual`) and nothing fires twice (`Once`).
-/

set_option autoImplicit false

namespace EosMesh

open Lib
open Std (TreeMap)

/-- A `frame_result` of a find or a join; the serial tells it from all others. -/
structure Completion where
  serial : Nat
  address : ResultAddress
  /-- When it is due. -/
  deadline : Nat
  /-- It failed at once, and was queued as done. -/
  done : Bool
  deriving DecidableEq, Repr

/-- The interface, its results in the queue, those a tick took out and those it fired and has yet to
free. -/
structure Completions where
  s : Sessions
  queue : List Completion := []
  ready : List Completion := []
  firing : List Completion := []
  /-- The serials of what fired, the oldest first. -/
  fired : List Nat := []
  started : Nat := 0

namespace Completions

open Sessions (Call)

/-! ## The callback manager -/

/-- `frame_result::done`: a join is marked done by the verdict. -/
def done (s : Sessions) (r : Completion) : Bool :=
  r.done || (s.pendingJoins[r.address]?).any (·.done)

/-- Whether a result is deliverable: a result of a find or a join has no minimum age. -/
def deliver (now : Nat) (r : Completion) (s : Sessions) : Bool × Sessions :=
  if done s r then (true, s) else s.runCallbacks r.address now

/-- `collect_ready_callbacks`: what stays in the queue, what is ready, and the interface after
it. -/
def drain (now : Nat) : List Completion → Sessions → List Completion × List Completion × Sessions
  | [], s => ([], [], s)
  | r :: rest, s =>
    let (ready, s) := deliver now r s
    let (keep, taken, s) := drain now rest s
    if ready then (keep, r :: taken, s) else (r :: keep, taken, s)

/-- When the result of a call is due. -/
def due : Call → Nat
  | .searchFind _ _ now _ => now + searchTimeout
  | .joinSession _ now _ => now + joinTimeout
  | _ => 0

/-- A find or a join that stays open. -/
def opens (s : Sessions) (c : Call) : Bool :=
  match c with
  | .searchFind _ _ _ _ => (s.call c).1 = ResultCode.success
  | .joinSession _ _ _ => (s.call c).1 = ResultCode.timedOut
  | _ => false

variable (m : Completions)

/-- What has not been freed. -/
def live : List Completion := m.queue ++ m.ready ++ m.firing

/-- Where something is allocated. -/
def used : List ResultAddress := m.live.map (·.address)

/-- Nothing is allocated where something is. -/
def freshAt (address : ResultAddress) : Bool := address ∉ m.used

/-- The queue once a call was made: a find or a join adds its result. -/
def queued (c : Call) : List Completion :=
  match c.address? with
  | none => m.queue
  | some address =>
    m.queue ++ [{ serial := m.started, address, deadline := due c, done := ¬ opens m.s c }]

/-- What may happen, to the interface or to its callbacks. -/
inductive Input
  | call (c : Call)
  | receive (message : NetEnvelope)
  | around (peers known : List Bytes) (losses : List (List Bytes))
  | collect (now : Nat)
  | fire (r : Completion)
  | free (r : Completion)
  deriving DecidableEq, Repr

/-- One thing that happens. -/
def step : Input → Option Completions
  | .call c =>
    if c.address?.all m.freshAt then
      some { m with
        s := (m.s.call c).2, queue := m.queued c
        started := m.started + c.address?.toList.length }
    else none
  | .receive message => some { m with s := m.s.onNetworkMessage message }
  | .around peers known losses =>
    some { m with s := { m.s with known, mesh := { peers, losses, sent := [] } } }
  | .collect now =>
    let (keep, taken, s) := drain now m.queue m.s
    some { m with s, queue := keep, ready := m.ready ++ taken }
  | .fire r =>
    if r ∈ m.ready then
      some { m with
        ready := m.ready.erase r, firing := m.firing ++ [r], fired := m.fired ++ [r.serial] }
    else none
  | .free r =>
    if r ∈ m.firing then
      some { m with s := m.s.freeCallback r.address, firing := m.firing.erase r }
    else none

/-- An instance nothing has happened to. -/
def start (self product : Bytes) : Completions where
  s := Sessions.fresh self product

/-- The condition on a step: no search is released while its find is in the queue. -/
def sparesFinds : Input → Bool
  | .call (.searchRelease handle) => ∀ r ∈ m.queue, m.s.pendingFinds[r.address]? ≠ some handle
  | _ => true

/-- The condition on the steps of a run. -/
abbrev SparesFinds (m : Completions) (i : Input) : Prop := m.sparesFinds i = true

/-! ## What leads to a result -/

variable {m} {s s' : Sessions} {r r' : Completion} {now : Nat}

/-- The pending tables lead to the result, and the search or the join they lead it from is due when
the result is. -/
def Linked (s : Sessions) (r : Completion) : Prop :=
  (∃ handle object, s.pendingFinds[r.address]? = some handle ∧
    s.searches.find handle = some object ∧ object.searching = true ∧
      object.deadline = r.deadline) ∨
  s.pendingFinds[r.address]? = none ∧ ∃ waiting, s.pendingJoins[r.address]? = some waiting ∧
    waiting.deadline = r.deadline

/-- Two results wait for two searches. -/
def Apart (s : Sessions) (r r' : Completion) : Prop :=
  ∀ handle, s.pendingFinds[r.address]? = some handle → s.pendingFinds[r'.address]? ≠ some handle

/-- Looking at a result leaves the tables alone, and every search but the one it waits for. -/
structure Looked (s : Sessions) (r : Completion) (s' : Sessions) : Prop where
  finds : s'.pendingFinds = s.pendingFinds
  joins : s'.pendingJoins = s.pendingJoins
  handles : s'.nextHandle = s.nextHandle
  others : ∀ handle, s.pendingFinds[r.address]? ≠ some handle →
    s'.searches.find handle = s.searches.find handle
  handled : s.desk.Handled → s'.desk.Handled

theorem looked_eraseSession (name : Bytes) : Looked s r (s.eraseSession name) :=
  ⟨rfl, rfl, rfl, fun _ _ ↦ rfl, id⟩

theorem Looked.refl (s : Sessions) (r : Completion) : Looked s r s :=
  ⟨rfl, rfl, rfl, fun _ _ ↦ rfl, id⟩

theorem looked_deliver (s : Sessions) (r : Completion) (now : Nat) :
    Looked s r (deliver now r s).2 := by
  rw [deliver]
  split
  · exact .refl s r
  · rw [Sessions.runCallbacks]
    split
    · rename_i handle hfind
      rw [Sessions.settleFind]
      split
      · exact .refl s r
      · rename_i object hobject
        split
        · refine ⟨rfl, rfl, rfl, fun handle' hne ↦ ?_, fun h ↦ ?_⟩
          · have hother : handle ≠ handle' := fun heq ↦ hne (heq ▸ hfind)
            rw [HandleStore.find_put, if_neg hother]
          · exact Desk.Handled.put h hobject _ _
        · exact .refl s r
    · split
      · rw [Sessions.settleJoin]
        split
        · split
          · exact .refl s r
          · split
            · exact looked_eraseSession _
            · exact .refl s r
        · exact .refl s r
      · exact .refl s r

/-- A result that is due is ready. -/
theorem deliver_due (h : r.done = true ∨ Linked s r) (hdue : r.deadline < now) :
    (deliver now r s).1 = true := by
  rw [deliver]
  split
  · rfl
  · rename_i hdone
    rcases h with hr | ⟨handle, object, hfind, hobject, -, hdeadline⟩ | ⟨hnone, waiting,
      hjoin, hdeadline⟩
    · exact absurd (by rw [done, hr]; rfl) hdone
    · rw [Sessions.runCallbacks, hfind]
      dsimp only
      rw [Sessions.settleFind, hobject]
      dsimp only
      rw [if_pos (.inr (hdeadline ▸ hdue))]
    · rw [Sessions.runCallbacks, hnone, hjoin]
      dsimp only
      rw [Sessions.settleJoin, if_pos (hdeadline ▸ hdue)]
      split
      · rfl
      · split <;> rfl

/-- What is not ready is left as it was. -/
theorem deliver_waiting (h : (deliver now r s).1 = false) : (deliver now r s).2 = s := by
  revert h
  rw [deliver]
  split
  · exact fun h ↦ by cases h
  · rw [Sessions.runCallbacks]
    split
    · rw [Sessions.settleFind]
      split
      · exact fun h ↦ by cases h
      · split
        · exact fun h ↦ by cases h
        · exact fun _ ↦ rfl
    · split
      · rw [Sessions.settleJoin]
        split
        · split
          · exact fun h ↦ by cases h
          · split <;> exact fun h ↦ by cases h
        · exact fun _ ↦ rfl
      · exact fun _ ↦ rfl

theorem Linked.looked (h : Linked s r') (hlooked : Looked s r s') (hapart : Apart s r r') :
    Linked s' r' := by
  rw [Linked, hlooked.finds, hlooked.joins]
  rcases h with ⟨handle, object, hfind, hobject, hsearching, hdeadline⟩ | hjoin
  · refine .inl ⟨handle, object, hfind, ?_, hsearching, hdeadline⟩
    rw [hlooked.others _ fun hr ↦ hapart handle hr hfind, hobject]
  · exact .inr hjoin

theorem Apart.congr (h : Apart s r r') (hfinds : s'.pendingFinds = s.pendingFinds) :
    Apart s' r r' := by
  rw [Apart, hfinds]
  exact h

/-! ## A drain -/

/-- What a drain of a queue makes of it. -/
structure Drained (s : Sessions) (queue keep taken : List Completion) (now : Nat) (s' : Sessions) :
    Prop where
  finds : s'.pendingFinds = s.pendingFinds
  joins : s'.pendingJoins = s.pendingJoins
  handles : s'.nextHandle = s.nextHandle
  handled : s.desk.Handled → s'.desk.Handled
  order : keep.Sublist queue
  all : (keep ++ taken).Perm queue
  /-- A result that waits for no search of the queue goes on waiting as it was. -/
  others : ∀ r, (∀ r' ∈ queue, Apart s r' r) → Linked s r → Linked s' r
  linked : queue.Pairwise (Apart s) → (∀ r ∈ queue, r.done = true ∨ Linked s r) →
    ∀ r ∈ keep, r.done = true ∨ Linked s' r
  punctual : queue.Pairwise (Apart s) → (∀ r ∈ queue, r.done = true ∨ Linked s r) →
    ∀ r ∈ queue, r.deadline < now → r ∈ taken

theorem drained (now : Nat) (queue : List Completion) (s : Sessions) :
    Drained s queue (drain now queue s).1 (drain now queue s).2.1 now (drain now queue s).2.2 := by
  induction queue generalizing s with
  | nil =>
    exact ⟨rfl, rfl, rfl, id, .refl _, .refl _, fun _ _ h ↦ h, by simp [drain], by simp⟩
  | cons r rest ih =>
    have hlooked := looked_deliver s r now
    have hih := ih (deliver now r s).2
    have hrest (hlinked : ∀ r' ∈ r :: rest, r'.done = true ∨ Linked s r')
        (hapart : ∀ r' ∈ rest, Apart s r r') :
        ∀ r' ∈ rest, r'.done = true ∨ Linked (deliver now r s).2 r' := fun r' hr' ↦
      (hlinked r' (List.mem_cons_of_mem _ hr')).imp_right (·.looked hlooked (hapart r' hr'))
    have hpairs (hpairs : rest.Pairwise (Apart s)) : rest.Pairwise (Apart (deliver now r s).2) :=
      hpairs.imp (·.congr hlooked.finds)
    have hothers (r'' : Completion) (hapart : ∀ r' ∈ r :: rest, Apart s r' r'')
        (hlinked : Linked s r'') : Linked (drain now rest (deliver now r s).2).2.2 r'' :=
      hih.others r''
        (fun r' hr' ↦ (hapart r' (List.mem_cons_of_mem _ hr')).congr hlooked.finds)
        (hlinked.looked hlooked (hapart r List.mem_cons_self))
    rw [drain]
    dsimp only
    by_cases hready : (deliver now r s).1 = true
    · rw [if_pos hready]
      refine ⟨hih.finds.trans hlooked.finds, hih.joins.trans hlooked.joins,
        hih.handles.trans hlooked.handles, fun h ↦ hih.handled (hlooked.handled h),
        hih.order.cons r, (List.perm_middle).trans (hih.all.cons r), hothers,
        fun hapart hlinked ↦ ?_, fun hapart hlinked r' hr' hdue ↦ ?_⟩
      · obtain ⟨hfirst, hpairwise⟩ := List.pairwise_cons.1 hapart
        exact hih.linked (hpairs hpairwise) (hrest hlinked hfirst)
      · obtain ⟨hfirst, hpairwise⟩ := List.pairwise_cons.1 hapart
        rcases List.mem_cons.1 hr' with rfl | hr'
        · exact List.mem_cons_self
        · exact List.mem_cons_of_mem _
            (hih.punctual (hpairs hpairwise) (hrest hlinked hfirst) r' hr' hdue)
    · rw [if_neg hready]
      have hsame := deliver_waiting (Bool.eq_false_iff.2 hready)
      refine ⟨hih.finds.trans hlooked.finds, hih.joins.trans hlooked.joins,
        hih.handles.trans hlooked.handles, fun h ↦ hih.handled (hlooked.handled h),
        hih.order.cons_cons r, hih.all.cons r, hothers,
        fun hapart hlinked r' hr' ↦ ?_, fun hapart hlinked r' hr' hdue ↦ ?_⟩
      · obtain ⟨hfirst, hpairwise⟩ := List.pairwise_cons.1 hapart
        rcases List.mem_cons.1 hr' with rfl | hr'
        · refine (hlinked r' List.mem_cons_self).imp_right fun h ↦ ?_
          rw [hsame]
          refine (ih s).others r' (fun r'' hr'' handle hfind hfind' ↦ ?_) h
          exact hfirst r'' hr'' handle hfind' hfind
        · exact hih.linked (hpairs hpairwise) (hrest hlinked hfirst) r' hr'
      · obtain ⟨hfirst, hpairwise⟩ := List.pairwise_cons.1 hapart
        rcases List.mem_cons.1 hr' with rfl | hr'
        · exact absurd (deliver_due (hlinked r' List.mem_cons_self) hdue) hready
        · exact hih.punctual (hpairs hpairwise) (hrest hlinked hfirst) r' hr' hdue

/-! ## What the calls do to what waits -/

/-- What leads to a result goes on leading to it. -/
structure Holds (s s' : Sessions) : Prop where
  handled : s'.desk.Handled
  finds : s'.pendingFinds = s.pendingFinds
  joins : ∀ address : ResultAddress,
    (s'.pendingJoins[address]?).map (·.deadline) = (s.pendingJoins[address]?).map (·.deadline)
  searches : ∀ handle object, s.searches.find handle = some object → object.searching = true →
    ∃ object', s'.searches.find handle = some object' ∧ object'.searching = true ∧
      object'.deadline = object.deadline

theorem holds_of_searches (hs : s.desk.Handled) (hsearches : s'.searches = s.searches)
    (hhandles : s.nextHandle ≤ s'.nextHandle) (hfinds : s'.pendingFinds = s.pendingFinds)
    (hjoins : ∀ address : ResultAddress, (s'.pendingJoins[address]?).map (·.deadline) =
      (s.pendingJoins[address]?).map (·.deadline)) : Holds s s' where
  handled handle object hobject := by
    rw [Sessions.desk, hsearches] at hobject
    exact (hs handle object hobject).trans_le hhandles
  finds := hfinds
  joins := hjoins
  searches handle object hobject hsearching :=
    ⟨object, by rw [hsearches, hobject], hsearching, rfl⟩

theorem holds_of_same (h : s.SameWaiting s') (hs : s.desk.Handled) :
    Holds s s' :=
  holds_of_searches hs h.searches h.handles h.finds fun _ ↦ by rw [h.joins]

/-- A search under way was put where one was. -/
theorem find_put_of {handle : GameHandle} {object object' : SessionSearchObject}
    (hobject : s.searches.find handle = some object)
    (hsearching : object.searching = true → object'.searching = true ∧
      object'.deadline = object.deadline) (h : GameHandle) (other : SessionSearchObject)
    (hother : s.searches.find h = some other) (hs : other.searching = true) :
    ∃ other', (s.searches.put handle object').find h = some other' ∧ other'.searching = true ∧
      other'.deadline = other.deadline := by
  rw [HandleStore.find_put]
  split
  · rename_i heq
    subst heq
    obtain rfl := Option.some.inj (hobject.symm.trans hother)
    exact ⟨object', rfl, hsearching hs⟩
  · exact ⟨other, hother, hs, rfl⟩

theorem holds_editSearch (hs : s.desk.Handled) {handle : GameHandle} {version : Int32}
    {edit : SessionSearchObject → Except ResultCode SessionSearchObject}
    (hedit : ∀ object object', edit object = .ok object' →
      object'.searching = object.searching ∧ object'.deadline = object.deadline) :
    Holds s (s.editSearch handle version edit).2 := by
  have hsame : Holds s s := holds_of_same (.refl s) hs
  rw [Sessions.editSearch]
  split
  · exact hsame
  · rename_i object hobject
    split
    · exact hsame
    · split
      · exact hsame
      · rename_i object' hobject'
        obtain ⟨hsearching, hdeadline⟩ := hedit object object' hobject'
        exact ⟨Desk.Handled.put hs hobject _ _, rfl, fun _ ↦ rfl,
          find_put_of hobject fun h ↦ ⟨hsearching.trans h, hdeadline⟩⟩

theorem holds_createSessionSearch (hs : s.desk.Handled) (o : Setting UInt32) :
    Holds s (s.createSessionSearch o).2.2 := by
  have hstep : Sessions.DeskStep (fun _ _ ↦ True) s _ (s.createSessionSearch o).2.2 :=
    Sessions.deskStep_createSessionSearch o
  have hdesk := hstep.handled hs
  rw [Sessions.createSessionSearch] at hdesk ⊢
  split
  · exact holds_of_same (.refl s) hs
  · rename_i hvalid
    rw [if_neg hvalid] at hdesk
    refine ⟨hdesk, rfl, fun _ ↦ rfl, fun handle object hobject hsearching ↦ ?_⟩
    have hne : s.nextHandle ≠ handle := fun heq ↦
      absurd (hs handle object hobject) (heq ▸ lt_irrefl _)
    exact ⟨object, by rw [HandleStore.find_put, if_neg hne, hobject], hsearching, rfl⟩

theorem editQuery_ok {edit : SessionSearch → SessionSearch} {object object' : SessionSearchObject}
    (h : Sessions.editQuery edit object = .ok object') :
    object'.searching = object.searching ∧ object'.deadline = object.deadline := by
  cases h
  exact ⟨rfl, rfl⟩

/-- A call that queues no result and releases no search. -/
theorem holds_call (hs : s.desk.Handled) {c : Call} (hc : c.address? = none)
    (hrelease : ∀ handle, c ≠ .searchRelease handle) : Holds s (s.call c).2 := by
  by_cases hwaits : c.waits = false
  · exact holds_of_same (Sessions.sameWaiting_call hwaits) hs
  · cases c with
    | createSessionSearch o => exact holds_createSessionSearch hs o
    | searchSetSessionId handle o =>
      refine holds_editSearch hs fun object object' h ↦ ?_
      split at h
      · cases h
      · exact editQuery_ok h
    | searchSetTargetUser handle o =>
      refine holds_editSearch hs fun object object' h ↦ ?_
      split at h
      · cases h
      · exact editQuery_ok h
    | searchSetParameter handle o =>
      refine holds_editSearch hs fun object object' h ↦ ?_
      split at h
      · cases h
      · exact editQuery_ok h
    | searchRemoveParameter handle o =>
      refine holds_editSearch hs fun object object' h ↦ ?_
      split at h
      · cases h
      · split at h
        · exact editQuery_ok h
        · cases h
    | searchSetMaxResults handle o =>
      refine holds_editSearch hs fun object object' h ↦ ?_
      split at h
      · cases h
      · cases h
        exact ⟨rfl, rfl⟩
    | searchRelease handle => exact absurd rfl (hrelease handle)
    | joinSession | searchFind => cases hc
    | _ => exact absurd rfl hwaits

theorem holds_onSearchResponse (hs : s.desk.Handled) {message : NetEnvelope}
    {answer : SessionSearchResponse} (hreads : s.Reads message (.searchResponse answer)) :
    Holds s (s.onSearchResponse message.sourceId message.gameId answer) := by
  have hstep : Sessions.DeskStep (fun _ _ ↦ True) s (.receive message)
      (s.onSearchResponse message.sourceId message.gameId answer) :=
    Sessions.deskStep_onSearchResponse hreads fun _ _ _ _ _ _ _ _ _ ↦ trivial
  have hdesk := hstep.handled hs
  have htables (waiting : List (ResultAddress × GameHandle)) (s : Sessions) :
      let s' := waiting.foldl (fun s p ↦ s.takeAnswer p.2 message.sourceId answer) s
      s'.pendingFinds = s.pendingFinds ∧ s'.pendingJoins = s.pendingJoins := by
    induction waiting generalizing s with
    | nil => exact ⟨rfl, rfl⟩
    | cons p waiting ih =>
      have hfirst : (s.takeAnswer p.2 message.sourceId answer).pendingFinds = s.pendingFinds ∧
          (s.takeAnswer p.2 message.sourceId answer).pendingJoins = s.pendingJoins := by
        rw [Sessions.takeAnswer]
        split
        · exact ⟨rfl, rfl⟩
        · split <;> exact ⟨rfl, rfl⟩
      exact ⟨(ih _).1.trans hfirst.1, (ih _).2.trans hfirst.2⟩
  have htables := htables s.pendingFinds.toList s
  have hfind := Sessions.find_foldl_takeAnswer message.sourceId answer s.pendingFinds.toList s
  rw [Sessions.onSearchResponse] at hdesk ⊢
  split
  · exact holds_of_same (.refl s) hs
  · rename_i hgame
    rw [if_neg hgame] at hdesk
    refine ⟨hdesk, htables.1, fun _ ↦ by rw [htables.2], fun handle object hobject hsearching ↦ ?_⟩
    rcases hfind handle with heq | ⟨object', hobject', -, -, hafter⟩
    · exact ⟨object, heq.trans hobject, hsearching, rfl⟩
    · obtain rfl := Option.some.inj (hobject'.symm.trans hobject)
      exact ⟨_, hafter, hsearching, rfl⟩

theorem holds_receive (hs : s.desk.Handled) (message : NetEnvelope) :
    Holds s (s.onNetworkMessage message) := by
  rcases Sessions.waits_receive (s := s) message with
    hsame | ⟨answer, hreads, heq⟩ | ⟨answer, hreads, heq⟩
  · exact holds_of_same hsame hs
  · rw [heq]
    exact holds_onSearchResponse hs hreads
  · rw [heq]
    obtain ⟨hsame, hjoins⟩ := Sessions.waits_onJoinResponse (s := s) message.sourceId answer
    refine holds_of_searches hs hsame.searches hsame.handles hsame.finds fun address' ↦ ?_
    rcases hjoins with heq | ⟨address, waiting, hwaiting, heq⟩
    · rw [heq]
    · rw [heq, lookup_insert]
      split
      · rename_i heq
        rw [← heq, hwaiting]
        rfl
      · rfl

/-- A find that stays open, and one that does not. -/
theorem searchFind_spec (s : Sessions) (handle : GameHandle) (o : SearchFindOptions) (now : Nat)
    (address : ResultAddress) :
    ((s.searchFind handle o now address).1 ≠ ResultCode.success ∧
      (s.searchFind handle o now address).2 = s) ∨
    (s.searchFind handle o now address).1 = ResultCode.success ∧
      ∃ object, s.searches.find handle = some object ∧ object.searching = false ∧
        (s.searchFind handle o now address).2 = s.startSearch handle object now address := by
  have hinvalid : ResultCode.invalidParameters ≠ ResultCode.success := by decide
  have hpending : ResultCode.alreadyPending ≠ ResultCode.success := by decide
  rw [Sessions.searchFind]
  split
  · exact .inl ⟨hinvalid, rfl⟩
  · rename_i object hobject
    split
    · exact .inl ⟨hinvalid, rfl⟩
    · split
      · exact .inl ⟨hinvalid, rfl⟩
      · split
        · exact .inl ⟨hpending, rfl⟩
        · rename_i hidle
          exact .inr ⟨rfl, object, hobject, by simpa using hidle, rfl⟩

/-- What a search that starts adds to the tables. -/
theorem startSearch_spec (s : Sessions) (handle : GameHandle) (object : SessionSearchObject)
    (now : Nat) (address : ResultAddress) :
    let s' := s.startSearch handle object now address
    s'.nextHandle = s.nextHandle ∧ s'.pendingJoins = s.pendingJoins ∧
      s'.pendingFinds = s.pendingFinds.insert address handle ∧
      ∃ object', s'.searches = s.searches.put handle object' ∧ object'.searching = true ∧
        object'.deadline = now + searchTimeout := by
  rw [Sessions.startSearch]
  dsimp only
  obtain ⟨gone, -, hlost⟩ := Sessions.lost_ask { object.query with
    searchId := Sessions.searchIdOf s.nextSearchId, maxResults := object.maxResults }
    (s.audience object) s
  have hrest := hlost.rest
  rw [Sessions.audience] at hrest
  rw [hrest]
  exact ⟨rfl, rfl, rfl, _, rfl, rfl, rfl⟩

/-! ## What holds along a run -/

/-- What holds of an instance with its queue. -/
structure Inv (m : Completions) : Prop where
  handled : m.s.desk.Handled
  fresh : m.used.Nodup
  finds : ∀ (address : ResultAddress) handle, m.s.pendingFinds[address]? = some handle →
    address ∈ m.used
  joins : ∀ (address : ResultAddress) waiting, m.s.pendingJoins[address]? = some waiting →
    address ∈ m.used
  linked : ∀ r ∈ m.queue, r.done = true ∨ Linked m.s r
  loose : ∀ r ∈ m.queue, r.done = true → m.s.pendingFinds[r.address]? = none
  apart : m.queue.Pairwise (Apart m.s)
  serials : ((m.queue ++ m.ready).map (·.serial) ++ m.fired).Perm (List.range m.started)

variable {m m' : Completions}

theorem Linked.holds (h : Linked s r) (hholds : Holds s s') : Linked s' r := by
  rw [Linked, hholds.finds]
  rcases h with ⟨handle, object, hfind, hobject, hsearching, hdeadline⟩ | ⟨hnone,
    waiting, hjoin, hdue⟩
  · obtain ⟨object', hobject', hsearching', hdeadline'⟩ := hholds.searches _ _ hobject hsearching
    exact .inl ⟨handle, object', hfind, hobject', hsearching', hdeadline'.trans hdeadline⟩
  · have hjoins := hholds.joins r.address
    rw [hjoin, Option.map_some, Option.map_eq_some_iff] at hjoins
    obtain ⟨waiting', hwaiting', heq⟩ := hjoins
    exact .inr ⟨hnone, waiting', hwaiting', heq.trans hdue⟩

/-- A step that goes on leading to every result. -/
theorem Inv.holds (hm : Inv m) (h : Holds m.s s') : Inv { m with s := s' } where
  handled := h.handled
  fresh := hm.fresh
  finds address handle hfind := hm.finds address handle (h.finds ▸ hfind)
  joins address waiting hjoin := by
    have hjoins := h.joins address
    rw [show s'.pendingJoins[address]? = some waiting from hjoin, Option.map_some, eq_comm,
      Option.map_eq_some_iff] at hjoins
    obtain ⟨waiting', hwaiting', -⟩ := hjoins
    exact hm.joins address waiting' hwaiting'
  linked r hr := (hm.linked r hr).imp_right (·.holds h)
  loose r hr hdone := h.finds ▸ hm.loose r hr hdone
  apart := hm.apart.imp (·.congr h.finds)
  serials := hm.serials

/-- A new result is queued, at an address where nothing is. -/
theorem Inv.queue (hm : Inv m) (hfresh : m.freshAt r.address = true)
    (hserial : r.serial = m.started)
    (hhandled : s'.desk.Handled)
    (hfinds : ∀ address : ResultAddress, address ≠ r.address →
      s'.pendingFinds[address]? = m.s.pendingFinds[address]?)
    (hjoins : ∀ address : ResultAddress, address ≠ r.address →
      s'.pendingJoins[address]? = m.s.pendingJoins[address]?)
    (hold : ∀ r' ∈ m.queue, Linked m.s r' → Linked s' r')
    (hnew : r.done = true ∨ Linked s' r)
    (hloose : r.done = true → s'.pendingFinds[r.address]? = none)
    (hapart : ∀ r' ∈ m.queue, Apart s' r' r) :
    Inv { m with s := s', queue := m.queue ++ [r], started := m.started + 1 } := by
  rw [freshAt, decide_eq_true_eq] at hfresh
  have hused : ({ m with s := s', queue := m.queue ++ [r], started := m.started + 1 } :
      Completions).used.Perm (r.address :: m.used) := by
    simp only [used, live, List.map_append, List.map_cons, List.append_assoc,
      List.singleton_append]
    exact List.perm_middle
  have hmem (address : ResultAddress) (h : address ≠ r.address → address ∈ m.used) : address ∈
      ({ m with s := s', queue := m.queue ++ [r], started := m.started + 1 } :
        Completions).used := by
    rw [hused.mem_iff, List.mem_cons]
    by_cases heq : address = r.address
    · exact .inl heq
    · exact .inr (h heq)
  have hqueued (r' : Completion) (hr' : r' ∈ m.queue) : r'.address ≠ r.address := fun heq ↦ by
    refine hfresh (heq ▸ List.mem_map_of_mem ?_)
    simp [live, hr']
  refine ⟨hhandled, hused.nodup_iff.2 (List.nodup_cons.2 ⟨hfresh, hm.fresh⟩),
    fun address handle hfind ↦ hmem address fun hne ↦
      hm.finds address handle (hfinds _ hne ▸ hfind),
    fun address waiting hjoin ↦ hmem address fun hne ↦
      hm.joins address waiting (hjoins _ hne ▸ hjoin),
    fun r' hr' ↦ ?_, fun r' hr' hdone ↦ ?_, ?_, ?_⟩
  · rcases List.mem_append.1 hr' with hr' | hr'
    · exact (hm.linked r' hr').imp_right (hold r' hr')
    · obtain rfl := List.mem_singleton.1 hr'
      exact hnew
  · rcases List.mem_append.1 hr' with hr' | hr'
    · rw [hfinds _ (hqueued _ hr')]
      exact hm.loose r' hr' hdone
    · obtain rfl := List.mem_singleton.1 hr'
      exact hloose hdone
  · refine List.pairwise_append.2 ⟨?_, List.pairwise_singleton _ _, fun r' hr' r'' hr'' ↦ ?_⟩
    · refine hm.apart.imp_of_mem fun hr₁ hr₂ h ↦ ?_
      rw [Apart, hfinds _ (hqueued _ hr₁), hfinds _ (hqueued _ hr₂)]
      exact h
    · obtain rfl := List.mem_singleton.1 hr''
      exact hapart r' hr'
  · rw [List.range_succ]
    refine List.Perm.trans ?_ (hm.serials.append_right [m.started])
    simp only [List.map_append, List.map_cons, List.map_nil, hserial, List.append_assoc]
    refine List.Perm.append_left _ ?_
    rw [← List.append_assoc (m.ready.map _)]
    exact (List.perm_append_singleton _ _).symm

theorem Inv.find_fresh (hm : Inv m) {address : ResultAddress} (hfresh : m.freshAt address = true) :
    m.s.pendingFinds[address]? = none := by
  rw [freshAt, decide_eq_true_eq] at hfresh
  exact Option.eq_none_iff_forall_ne_some.2 fun handle hfind ↦
    hfresh (hm.finds address handle hfind)

theorem Inv.searchFind (hm : Inv m) (handle : GameHandle) (o : SearchFindOptions) (now : Nat)
    {address : ResultAddress} (hfresh : m.freshAt address = true) :
    Inv { m with
      s := (m.s.searchFind handle o now address).2
      queue := m.queue ++ [{ serial := m.started, address, deadline := now + searchTimeout
                             done := ¬ opens m.s (.searchFind handle o now address) }]
      started := m.started + 1 } := by
  have hnone := hm.find_fresh hfresh
  rcases searchFind_spec m.s handle o now address with ⟨hcode, hsame⟩ |
    ⟨hcode, object, hobject, hidle, hstart⟩
  · have hdone : decide (¬ opens m.s (.searchFind handle o now address)) = true := by
      rw [opens, Sessions.call, decide_eq_true_eq, decide_eq_true_eq]
      exact hcode
    rw [hsame]
    refine hm.queue hfresh rfl hm.handled (fun _ _ ↦ rfl) (fun _ _ ↦ rfl)
      (fun _ _ h ↦ h) (.inl hdone)
      (fun _ ↦ hnone) fun r' _ h _ ↦ ?_
    rw [hnone]
    exact fun h ↦ by cases h
  · rw [hstart]
    obtain ⟨hhandles, hjoins, hfinds, object', hsearches, hsearching, hdeadline⟩ :=
      startSearch_spec m.s handle object now address
    generalize m.s.startSearch handle object now address = s' at hhandles hjoins hfinds hsearches ⊢
    have hother (address' : ResultAddress) (hne : address' ≠ address) :
        s'.pendingFinds[address']? = m.s.pendingFinds[address']? := by
      rw [hfinds, lookup_insert, if_neg hne.symm]
    have hnew : s'.pendingFinds[address]? = some handle := by
      rw [hfinds, lookup_insert, if_pos rfl]
    -- A search that begins was idle, so no result in the queue waits for it.
    have hapart (r' : Completion) (hr' : r' ∈ m.queue) :
        m.s.pendingFinds[r'.address]? ≠ some handle := fun hfind ↦ by
      rcases hm.linked r' hr' with hdone | ⟨_, other, hfind', hother, hs, -⟩ | ⟨hfind', -⟩
      · rw [hm.loose r' hr' hdone] at hfind
        cases hfind
      · obtain rfl := Option.some.inj (hfind.symm.trans hfind')
        obtain rfl := Option.some.inj (hobject.symm.trans hother)
        rw [hidle] at hs
        cases hs
      · rw [hfind'] at hfind
        cases hfind
    have hqueued (r' : Completion) (hr' : r' ∈ m.queue) : r'.address ≠ address := fun heq ↦ by
      rw [freshAt, decide_eq_true_eq] at hfresh
      refine hfresh (heq ▸ List.mem_map_of_mem ?_)
      simp [live, hr']
    refine hm.queue hfresh rfl ?_ hother (fun _ _ ↦ by rw [hjoins]) (fun r' hr' hlinked ↦ ?_)
      (.inr (.inl ⟨handle, object', hnew, ?_, hsearching, hdeadline⟩)) ?_ (fun r' hr' h hfind ↦ ?_)
    · have hput : s'.desk.Handled ↔ ({ m.s.desk with
          store := m.s.searches.put handle object', peers := s'.mesh.peers } : Desk _).Handled := by
        rw [Sessions.desk, hsearches, hhandles]
        rfl
      exact hput.2 (Desk.Handled.put hm.handled hobject _ _)
    · rw [Linked, hother _ (hqueued r' hr'), hjoins]
      rcases hlinked with ⟨h, other, hfind, hother', hs, hdue⟩ | hjoin
      · have hne : handle ≠ h := fun heq ↦ hapart r' hr' (heq ▸ hfind)
        refine .inl ⟨h, other, hfind, ?_, hs, hdue⟩
        rw [hsearches, HandleStore.find_put, if_neg hne, hother']
      · exact .inr hjoin
    · rw [hsearches, HandleStore.find_put, if_pos rfl]
    · intro hdone
      rw [opens, Sessions.call, hcode] at hdone
      cases hdone
    · rw [hnew]
      rintro ⟨⟩
      exact hapart r' hr' (hother _ (hqueued r' hr') ▸ hfind)

theorem Inv.joinSession (hm : Inv m) (o : JoinSessionOptions) (now : Nat) {address : ResultAddress}
    (hfresh : m.freshAt address = true) :
    Inv { m with
      s := (m.s.joinSession o now address).2
      queue := m.queue ++ [{ serial := m.started, address, deadline := now + joinTimeout
                             done := ¬ opens m.s (.joinSession o now address) }]
      started := m.started + 1 } := by
  have hnone := hm.find_fresh hfresh
  obtain ⟨hsame, hjoins⟩ := Sessions.waits_joinSession (s := m.s) o now address
  have hopens : opens m.s (.joinSession o now address) =
      decide ((m.s.joinSession o now address).1 = ResultCode.timedOut) := rfl
  generalize (m.s.joinSession o now address).1 = code at hjoins hopens
  generalize (m.s.joinSession o now address).2 = s' at hsame hjoins ⊢
  have hfinds : s'.pendingFinds = m.s.pendingFinds := hsame.finds
  have hsearches : s'.searches = m.s.searches := hsame.searches
  have hhandled : s'.desk.Handled := fun handle object hobject ↦ by
    rw [Sessions.desk, hsearches] at hobject
    exact (hm.handled handle object hobject).trans_le hsame.handles
  have hqueued (r' : Completion) (hr' : r' ∈ m.queue) : r'.address ≠ address := fun heq ↦ by
    rw [freshAt, decide_eq_true_eq] at hfresh
    refine hfresh (heq ▸ List.mem_map_of_mem ?_)
    simp [live, hr']
  have hother (address' : ResultAddress) (hne : address' ≠ address) :
      s'.pendingJoins[address']? = m.s.pendingJoins[address']? := by
    rcases hjoins with ⟨-, heq⟩ | ⟨sessionId, heq⟩
    · rw [heq]
    · rw [heq, lookup_insert, if_neg hne.symm]
  refine hm.queue hfresh rfl hhandled (fun _ _ ↦ by rw [hfinds]) hother (fun r' hr' hlinked ↦ ?_) ?_
    (fun _ ↦ by rw [hfinds, hnone]) fun r' hr' h hfind ↦ ?_
  · rw [Linked, hfinds, hother _ (hqueued r' hr'), hsearches]
    exact hlinked
  · rcases hjoins with ⟨hcode, -⟩ | ⟨sessionId, heq⟩
    · refine .inl ?_
      rw [hopens, decide_eq_true_eq, decide_eq_true_eq]
      exact hcode
    · exact .inr (.inr ⟨by rw [hfinds, hnone], _, by rw [heq, lookup_insert, if_pos rfl], rfl⟩)
  · rw [hfinds, hnone]
    rintro ⟨⟩

theorem Inv.release (hm : Inv m) {handle : GameHandle}
    (hspares : ∀ r ∈ m.queue, m.s.pendingFinds[r.address]? ≠ some handle) :
    Inv { m with s := m.s.searchRelease handle } := by
  have hfind (address : ResultAddress) : (m.s.searchRelease handle).pendingFinds[address]? =
      if m.s.pendingFinds[address]? = some handle then none else m.s.pendingFinds[address]? := by
    rw [Sessions.searchRelease, TreeMap.getElem?_filter']
    cases hlookup : m.s.pendingFinds[address]? with
    | none => rfl
    | some other => by_cases heq : other = handle <;> simp [Option.filter, heq]
  have hqueued (r : Completion) (hr : r ∈ m.queue) :
      (m.s.searchRelease handle).pendingFinds[r.address]? = m.s.pendingFinds[r.address]? := by
    rw [hfind, if_neg (hspares r hr)]
  refine ⟨?_, hm.fresh, fun address other hother ↦ ?_, hm.joins, fun r hr ↦ ?_, fun r hr hdone ↦ ?_,
    ?_, hm.serials⟩
  · intro other object hobject
    rw [Sessions.desk, Sessions.searchRelease, HandleStore.find_release] at hobject
    split at hobject
    · cases hobject
    · exact hm.handled other object hobject
  · rw [hfind] at hother
    split at hother
    · cases hother
    · exact hm.finds address other hother
  · refine (hm.linked r hr).imp_right fun hlinked ↦ ?_
    rw [Linked, hqueued r hr]
    rcases hlinked with ⟨other, object, hother, hobject, hs, hdue⟩ | hjoin
    · refine .inl ⟨other, object, hother, ?_, hs, hdue⟩
      have hne : handle ≠ other := fun heq ↦ hspares r hr (heq ▸ hother)
      rw [Sessions.searchRelease, HandleStore.find_release, if_neg hne, hobject]
    · exact .inr hjoin
  · rw [hqueued r hr]
    exact hm.loose r hr hdone
  · refine hm.apart.imp_of_mem fun hr₁ hr₂ h ↦ ?_
    rw [Apart, hqueued _ hr₁, hqueued _ hr₂]
    exact h

theorem Inv.collect (hm : Inv m) {keep taken : List Completion}
    (h : Drained m.s m.queue keep taken now s') :
    Inv { m with s := s', queue := keep, ready := m.ready ++ taken } := by
  have hqueue (rest : List Completion) :
      (keep ++ (m.ready ++ taken) ++ rest).Perm (m.queue ++ m.ready ++ rest) := by
    refine List.Perm.append_right _ ?_
    rw [← List.append_assoc]
    refine List.Perm.trans ?_ (h.all.append_right m.ready)
    rw [List.append_assoc, List.append_assoc]
    exact List.Perm.append_left _ List.perm_append_comm
  have hused : ({ m with s := s', queue := keep, ready := m.ready ++ taken } :
    Completions).used.Perm
      m.used := (hqueue m.firing).map _
  refine ⟨h.handled hm.handled, hused.nodup_iff.2 hm.fresh,
    fun address handle hfind ↦ hused.mem_iff.2 (hm.finds address handle (h.finds ▸ hfind)),
    fun address waiting hjoin ↦ hused.mem_iff.2 (hm.joins address waiting (h.joins ▸ hjoin)),
    h.linked hm.apart hm.linked, fun r hr hdone ↦ ?_, ?_, ?_⟩
  · rw [h.finds]
    exact hm.loose r (h.order.subset hr) hdone
  · exact (hm.apart.sublist h.order).imp (·.congr h.finds)
  · refine List.Perm.trans (List.Perm.append_right _ ?_) hm.serials
    simpa using (hqueue []).map (·.serial)

theorem Inv.fire (hm : Inv m) (hr : r ∈ m.ready) :
    Inv { m with
      ready := m.ready.erase r, firing := m.firing ++ [r], fired := m.fired ++ [r.serial] } := by
  have hready : (m.ready.erase r ++ [r]).Perm m.ready :=
    (List.perm_append_singleton _ _).trans (List.perm_cons_erase hr).symm
  have hused : ({ m with ready := m.ready.erase r, firing := m.firing ++ [r]
                         fired := m.fired ++ [r.serial] } : Completions).used.Perm m.used := by
    refine List.Perm.map _ ?_
    simp only [live, List.append_assoc]
    refine List.Perm.append_left _ ?_
    refine List.Perm.trans ?_ (hready.append_right m.firing)
    rw [List.append_assoc]
    exact List.Perm.append_left _ List.perm_append_comm
  refine ⟨hm.handled, hused.nodup_iff.2 hm.fresh,
    fun address handle hfind ↦ hused.mem_iff.2 (hm.finds address handle hfind),
    fun address waiting hjoin ↦ hused.mem_iff.2 (hm.joins address waiting hjoin),
    hm.linked, hm.loose, hm.apart, List.Perm.trans ?_ hm.serials⟩
  simp only [List.map_append, List.append_assoc]
  refine List.Perm.append_left _ ?_
  have hserials := (hready.map (·.serial)).append_right m.fired
  refine List.Perm.trans ?_ hserials
  simp only [List.map_append, List.map_cons, List.map_nil, List.append_assoc]
  exact List.Perm.append_left _ List.perm_append_comm

theorem Inv.free (hm : Inv m) (hr : r ∈ m.firing) :
    Inv { m with s := m.s.freeCallback r.address, firing := m.firing.erase r } := by
  have hused : m.used.Perm (r.address :: ({ m with
      s := m.s.freeCallback r.address, firing := m.firing.erase r } : Completions).used) := by
    have hfiring := (List.perm_cons_erase hr).append_left (m.queue ++ m.ready)
    exact (hfiring.trans List.perm_middle).map (·.address)
  obtain ⟨hout, hfresh⟩ := List.nodup_cons.1 (hused.nodup_iff.1 hm.fresh)
  have hqueued (r' : Completion) (hr' : r' ∈ m.queue) : r.address ≠ r'.address := fun heq ↦ by
    refine hout (heq ▸ List.mem_map_of_mem ?_)
    simp [live, hr']
  have hmem (address : ResultAddress) (hne : r.address ≠ address) (hin : address ∈ m.used) :
      address ∈ ({ m with s := m.s.freeCallback r.address, firing := m.firing.erase r } :
        Completions).used :=
    (List.mem_cons.1 (hused.mem_iff.1 hin)).resolve_left hne.symm
  refine ⟨hm.handled, hfresh, fun address handle hfind ↦ ?_, fun address waiting hjoin ↦ ?_,
    fun r' hr' ↦ ?_, fun r' hr' hdone ↦ ?_, ?_, hm.serials⟩
  · rw [Sessions.freeCallback, lookup_erase] at hfind
    split at hfind
    · cases hfind
    · rename_i hne
      exact hmem address hne (hm.finds address handle hfind)
  · rw [Sessions.freeCallback, lookup_erase] at hjoin
    split at hjoin
    · cases hjoin
    · rename_i hne
      exact hmem address hne (hm.joins address waiting hjoin)
  · refine (hm.linked r' hr').imp_right fun hlinked ↦ ?_
    rw [Linked, Sessions.freeCallback, lookup_erase, lookup_erase, if_neg (hqueued r' hr'),
      if_neg (hqueued r' hr')]
    exact hlinked
  · rw [Sessions.freeCallback, lookup_erase, if_neg (hqueued r' hr')]
    exact hm.loose r' hr' hdone
  · refine hm.apart.imp_of_mem fun hr₁ hr₂ h ↦ ?_
    rw [Apart, Sessions.freeCallback, lookup_erase, lookup_erase, if_neg (hqueued _ hr₁),
      if_neg (hqueued _ hr₂)]
    exact h

/-- **One step keeps the instance and its queue together.** -/
theorem Inv.step {i : Input} (hm : Inv m) (hspares : m.SparesFinds i) (h : m.step i = some m') :
    Inv m' := by
  cases i with
  | call c =>
    rw [Completions.step] at h
    split at h
    · rename_i hfresh
      obtain rfl := Option.some.inj h
      cases c with
      | searchFind handle o now address =>
        exact hm.searchFind handle o now (by simpa [Call.address?] using hfresh)
      | joinSession o now address =>
        exact hm.joinSession o now (by simpa [Call.address?] using hfresh)
      | searchRelease handle => exact hm.release (of_decide_eq_true hspares)
      | _ => exact hm.holds (holds_call hm.handled rfl fun _ ↦ by simp)
    · cases h
  | receive message =>
    obtain rfl := Option.some.inj h
    exact hm.holds (holds_receive hm.handled message)
  | around peers known losses =>
    obtain rfl := Option.some.inj h
    exact hm.holds (holds_of_same ⟨rfl, rfl, rfl, le_rfl⟩ hm.handled)
  | collect now =>
    obtain rfl := Option.some.inj h
    exact hm.collect (drained now m.queue m.s)
  | fire r =>
    rw [Completions.step] at h
    split at h
    · rename_i hr
      obtain rfl := Option.some.inj h
      exact hm.fire hr
    · cases h
  | free r =>
    rw [Completions.step] at h
    split at h
    · rename_i hr
      obtain rfl := Option.some.inj h
      exact hm.free hr
    · cases h

theorem inv_start (self product : Bytes) : Inv (start self product) where
  handled handle object hobject := by
    rw [start, Sessions.desk, Sessions.fresh, HandleStore.find_empty] at hobject
    cases hobject
  fresh := List.nodup_nil
  finds address handle hfind := by
    rw [start, Sessions.fresh, TreeMap.getElem?_emptyc] at hfind
    cases hfind
  joins address waiting hjoin := by
    rw [start, Sessions.fresh, TreeMap.getElem?_emptyc] at hjoin
    cases hjoin
  linked := by simp [start]
  loose := by simp [start]
  apart := List.Pairwise.nil
  serials := .refl _

/-- What left the queue never comes back to it: it is ready, or it fired. -/
theorem left_queue {i : Input} (h : m.step i = some m') {serial : Nat}
    (hin : serial ∈ m.ready.map (·.serial) ++ m.fired) :
    serial ∈ m'.ready.map (·.serial) ++ m'.fired := by
  cases i with
  | call c =>
    rw [Completions.step] at h
    split at h
    · obtain rfl := Option.some.inj h
      exact hin
    · cases h
  | receive message =>
    obtain rfl := Option.some.inj h
    exact hin
  | around peers known losses =>
    obtain rfl := Option.some.inj h
    exact hin
  | collect now =>
    obtain rfl := Option.some.inj h
    simp only [List.map_append, List.mem_append] at hin ⊢
    tauto
  | fire r =>
    rw [Completions.step] at h
    split at h
    · obtain rfl := Option.some.inj h
      simp only [List.mem_append, List.mem_map, List.mem_singleton] at hin ⊢
      rcases hin with ⟨r', hr', rfl⟩ | hfired
      · by_cases heq : r' = r
        · exact .inr (.inr (heq ▸ rfl))
        · exact .inl ⟨r', (List.mem_erase_of_ne heq).2 hr', rfl⟩
      · exact .inr (.inl hfired)
    · cases h
  | free r =>
    rw [Completions.step] at h
    split at h
    · obtain rfl := Option.some.inj h
      exact hin
    · cases h

/-! ## The result -/

/-- Everything handed to the callback manager that is not marked done is a key of a pending
table. -/
def Kept (m : Completions) : Prop := ∀ r ∈ m.queue, done m.s r = false →
  (m.s.pendingFinds[r.address]?).isSome = true ∨ (m.s.pendingJoins[r.address]?).isSome = true

/-- A tick takes out what is past its deadline. -/
def Punctual (m : Completions) : Prop := ∀ now m', m.step (.collect now) = some m' →
  ∀ r ∈ m.queue, r.deadline < now → r ∈ m'.ready

/-- Everything started waits in the queue, is about to fire, or has fired, and only one of these,
and once; and what is about to fire may fire. -/
def Once (m : Completions) : Prop :=
  (∀ serial < m.started,
    ((m.queue ++ m.ready).map (·.serial) ++ m.fired).count serial = 1) ∧
    ∀ r ∈ m.ready, ∃ m', m.step (.fire r) = some m' ∧ m'.fired = m.fired ++ [r.serial]

theorem Inv.kept (hm : Inv m) : m.Kept := fun r hr hdone ↦ by
  rcases hm.linked r hr with h | ⟨handle, object, hfind, -⟩ | ⟨-, waiting, hjoin, -⟩
  · rw [done, h] at hdone
    cases hdone
  · exact .inl (by rw [hfind]; rfl)
  · exact .inr (by rw [hjoin]; rfl)

theorem Inv.punctual (hm : Inv m) : m.Punctual := fun now m' h r hr hdue ↦ by
  obtain rfl := Option.some.inj h
  exact List.mem_append_right _ ((drained now m.queue m.s).punctual hm.apart hm.linked r hr hdue)

theorem Inv.once (hm : Inv m) : m.Once := by
  refine ⟨fun serial hserial ↦ ?_, fun r hr ↦ ⟨_, if_pos hr, rfl⟩⟩
  rw [hm.serials.count_eq]
  exact List.count_eq_one_of_mem List.nodup_range (List.mem_range.2 hserial)

/-- **No completion is lost** along a run that releases no search whose find is in the queue: every
result that is not done is a key of the pending tables, every tick takes out what is past its
deadline, and everything started fires once; so what was in the queue at such a tick has fired
exactly once when the tick is over, whatever the game did in between. -/
theorem completions_kept {self product : Bytes} {m : Completions}
    (h : Reaches step SparesFinds (start self product) m) : m.Kept ∧ m.Punctual ∧ m.Once ∧
    ∀ now m₁ m₂, m.step (.collect now) = some m₁ → Reaches step SparesFinds m₁ m₂ → m₂.ready = [] →
      ∀ r ∈ m.queue, r.deadline < now → m₂.fired.count r.serial = 1 := by
  have hkeeps (m₁ : Completions) (i : Input) (m₂ : Completions) (hm₁ : Inv m₁)
      (hspares : m₁.SparesFinds i) (hstep : m₁.step i = some m₂) : Inv m₂ := hm₁.step hspares hstep
  have hm : Inv m := h.invariant (inv_start self product) hkeeps
  refine ⟨hm.kept, hm.punctual, hm.once, fun now m₁ m₂ hcollect h₂ hready r hr hdue ↦ ?_⟩
  have hm₁ : Inv m₁ := hm.step (show m.SparesFinds (.collect now) from rfl) hcollect
  have hm₂ : Inv m₂ := h₂.invariant hm₁ hkeeps
  have hleft : r.serial ∈ m₂.ready.map (·.serial) ++ m₂.fired :=
    h₂.invariant (I := fun m ↦ r.serial ∈ m.ready.map (·.serial) ++ m.fired)
      (List.mem_append_left _ (List.mem_map_of_mem (hm.punctual now m₁ hcollect r hr hdue)))
      fun _ _ _ hin _ hstep ↦ left_queue hstep hin
  rw [hready, List.map_nil, List.nil_append] at hleft
  have hnodup : ((m₂.queue ++ m₂.ready).map (·.serial) ++ m₂.fired).Nodup :=
    hm₂.serials.nodup_iff.2 List.nodup_range
  exact List.count_eq_one_of_mem (List.nodup_append.1 hnodup).2.1 hleft

/-- `[1]` looks for a session by its id, and asks `[2]`. -/
def asking : List Input :=
  [.around [[2]] [[2]] [],
    .call (.createSessionSearch { apiVersion := 1, value := 10 }),
    .call (.searchSetSessionId 1 { apiVersion := 1, value := some (List.replicate 16 3) }),
    .call (.searchFind 1 { apiVersion := 1, localUserId := none } 0 100)]

/-- The result of that. -/
def askingResult : Completion := { serial := 0, address := 100, deadline := 5000, done := false }

/-- A find that nobody answers is over in time, once. -/
theorem completions_kept_timeout : ∃ m m₁ m₂, Reaches step SparesFinds (start [1] [9]) m ∧
    m.step (.collect 5001) = some m₁ ∧ Reaches step SparesFinds m₁ m₂ ∧
    askingResult ∈ m.queue ∧ m₂.fired.count 0 = 1 := by
  obtain ⟨m, hrun, hqueue⟩ := exists_runInputs step (start [1] [9])
    (fun m ↦ askingResult ∈ m.queue ∧ (m.step (.collect 5001)).any fun m₁ ↦
      (m₁.step (.fire askingResult)).any fun m₂ ↦ m₂.ready = []) asking (by decide +kernel)
  have h : Reaches step SparesFinds (start [1] [9]) m :=
    reaches_of_runInputs hrun (by decide +kernel)
  obtain ⟨m₁, hcollect, hfire⟩ := (Option.any_eq_true _ _).1 hqueue.2
  obtain ⟨m₂, hfire, hready⟩ := (Option.any_eq_true _ _).1 hfire
  have h₂ : Reaches step SparesFinds m₁ m₂ := Reaches.refl.tail (i := .fire askingResult) rfl hfire
  exact ⟨m, m₁, m₂, h, hcollect, h₂, hqueue.1,
    (completions_kept h).2.2.2 5001 m₁ m₂ hcollect h₂
      (of_decide_eq_true hready) askingResult hqueue.1
      (by decide)⟩

/-- The search is released while its find is in the queue: nothing leads to the result any more. -/
theorem completion_lost : ∃ m, Reaches step always (start [1] [9]) m ∧ ¬ m.Kept := by
  obtain ⟨m, h, hlost⟩ := exists_reaches step always (start [1] [9])
    (fun m ↦ askingResult ∈ m.queue ∧ done m.s askingResult = false ∧
      (m.s.pendingFinds[askingResult.address]?).isSome = false ∧
      (m.s.pendingJoins[askingResult.address]?).isSome = false)
    (asking ++ [.call (.searchRelease 1)]) (by decide +kernel) (meets_always _ _)
  refine ⟨m, h, fun hkept ↦ ?_⟩
  obtain ⟨hqueue, hdone, hfind, hjoin⟩ := hlost
  rcases hkept askingResult hqueue hdone with hsome | hsome
  · rw [hfind] at hsome
    cases hsome
  · rw [hjoin] at hsome
    cases hsome

end Completions
end EosMesh
