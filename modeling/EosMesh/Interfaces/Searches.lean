import EosMesh.Interfaces.Mesh
import EosMesh.Lib.Run

/-!
# Searches, and an account of where their results came from

The two interfaces search alike: a search lists what is hosted here, asks the peers, and lists what
they answer until all of them have or the time is up.  What they keep of a search is the results and
the peers it still awaits; who was asked, and who listed what, is not kept anywhere.

* `Quest` is a search as both have it, and `Quest.Step` what one step can make of the search behind
  a handle: it is edited, it starts, it takes in an answer, it ends, or it stays.
* `Account` is kept beside a search, by looking on: whom it asked, and what was listed, by whom and
  under which query.  `Account.Of` is what should be true of the two: what is listed was hosted here
  or came from a peer that was asked and may list it, each of whom answered at most once.
* `Desk` is all the searches of an interface with the peers it can reach, and `Desk.Step` what one
  step can make of them; each interface proves once that its step is one (`deskStep_of_step`).
* `Watch` is an interface with the account of every search, and `accounted` the rule for its runs.
* `Awaits` says that every search under way awaits peers that can be reached.  `Step.awaits_iff` is
  when a step keeps it: exactly when no peer that is lost in it was awaited, or is asked in it.

Whom a search asked is the set of peers that it awaits when it starts.  That these are the ones to
whom the question was sent is proved for either interface from its own sends (`Interfaces.Finding`),
by what the mesh was handed in the step.
-/

set_option autoImplicit false

namespace EosMesh

open Lib

variable {κ α : Type}

/-- A search by queries `κ` for results `α`. -/
structure Quest (κ α : Type) where
  query : κ
  results : List α
  maxResults : Nat
  searching : Bool
  awaiting : List Bytes

/-- What was listed at one time: by a peer, or by ourselves when it started. -/
structure Listing (κ α : Type) where
  source : Option Bytes
  query : κ
  maxResults : Nat
  found : List α

/-- What was seen of a search since it was last started. -/
structure Account (κ α : Type) where
  asked : List Bytes := []
  /-- What was hosted here when it started. -/
  hosted : List α := []
  /-- The oldest first. -/
  listings : List (Listing κ α) := []
  /-- It was given another query, or another number of results, since. -/
  edited : Bool := false

namespace Account

variable (account : Account κ α)

/-- Everything listed. -/
def results : List α := account.listings.flatMap (·.found)

/-- The peers that answered. -/
def answered : List Bytes := account.listings.filterMap (·.source)

/-- One more listing. -/
def list (listing : Listing κ α) : Account κ α :=
  { account with listings := account.listings ++ [listing] }

@[simp] theorem results_list (listing : Listing κ α) :
    (account.list listing).results = account.results ++ listing.found := by
  simp [results, list]

@[simp] theorem answered_list (listing : Listing κ α) :
    (account.list listing).answered = account.answered ++ listing.source.toList := by
  rw [answered, list, List.filterMap_append, answered]
  cases hsource : listing.source <;> simp [hsource]

theorem mem_list {listing other : Listing κ α} :
    other ∈ (account.list listing).listings ↔ other ∈ account.listings ∨ other = listing := by
  simp [list]

/-- What a step adds to the account, `source` being whoever sent what the step took in. -/
def next [DecidableEq κ] (source : Bytes) (hosted : List α) :
    Option (Quest κ α) → Option (Quest κ α) → Account κ α
  | some before, some after =>
    if before.searching = false ∧ after.searching = true then
      { asked := after.awaiting
        hosted
        listings := [{ source := none, query := after.query, maxResults := after.maxResults
                       found := after.results }] }
    else if after.awaiting ≠ before.awaiting then
      account.list
        { source := some source, query := after.query, maxResults := after.maxResults
          found := after.results.drop before.results.length }
    else
      { account with
        edited :=
          account.edited || after.query ≠ before.query || after.maxResults ≠ before.maxResults }
  | _, _ => {}

/-- A search by its account: what is listed was hosted here or came from a peer that was asked and
may list it, each of whom answered at most once; it answers the query of its time, within the number
of its time, and the query there is now unless that was edited. -/
structure Of (fits : α → κ → Bool) (From : Bytes → α → Prop) (q : Quest κ α) : Prop where
  listed : q.results = account.results
  ours : ∀ listing ∈ account.listings, listing.source = none →
    ∀ result ∈ listing.found, result ∈ account.hosted
  theirs : ∀ listing ∈ account.listings, ∀ peer, listing.source = some peer →
    peer ∈ account.asked ∧ ∀ result ∈ listing.found, From peer result
  once : account.answered.Nodup
  fit : ∀ listing ∈ account.listings, ∀ result ∈ listing.found, fits result listing.query = true
  roomy : ∀ before listing after, account.listings = before ++ listing :: after →
    listing.found = [] ∨
      (before.flatMap (·.found)).length + listing.found.length ≤ listing.maxResults
  waiting : q.searching = true →
    q.awaiting = account.asked.filter fun peer ↦ peer ∉ account.answered
  unedited : account.edited = false →
    q.results.length ≤ q.maxResults ∧ ∀ result ∈ q.results, fits result q.query = true

end Account

/-- What a step can make of the search behind a handle; `peers` can be reached, and `hosted` is
hosted here. -/
inductive Quest.Step (fits : α → κ → Bool) (From : Bytes → α → Prop) (peers : List Bytes)
    (hosted : List α) (source : Bytes) : Option (Quest κ α) → Option (Quest κ α) → Prop
  | same {q : Option (Quest κ α)} : Step fits From peers hosted source q q
  | created {q : Quest κ α} (hidle : q.searching = false) (hempty : q.results = []) :
      Step fits From peers hosted source none (some q)
  | edited {q q' : Quest κ α} (hresults : q'.results = q.results)
      (hsearching : q'.searching = q.searching) (hawaiting : q'.awaiting = q.awaiting) :
      Step fits From peers hosted source (some q) (some q')
  | started {q q' : Quest κ α} (hidle : q.searching = false) (hsearching : q'.searching = true)
      (hasked : q'.awaiting ⊆ peers)
      (hmine : ∀ result ∈ q'.results, result ∈ hosted ∧ fits result q'.query = true)
      (hroom : q'.results.length ≤ q'.maxResults) :
      Step fits From peers hosted source (some q) (some q')
  | answered {q : Quest κ α} {found : List α} (hsearching : q.searching = true)
      (hsource : source ∈ q.awaiting)
      (hfound : ∀ result ∈ found, From source result ∧ fits result q.query = true)
      (hroom : found.length ≤ q.maxResults - q.results.length) :
      Step fits From peers hosted source (some q)
        (some { q with
          awaiting := q.awaiting.filter (· ≠ source), results := q.results ++ found })
  | settled {q : Quest κ α} :
      Step fits From peers hosted source (some q) (some { q with searching := false })
  | released {q : Quest κ α} : Step fits From peers hosted source (some q) none

namespace Account

variable {fits : α → κ → Bool} {From : Bytes → α → Prop} {account : Account κ α} {q q' : Quest κ α}

/-- Nothing was seen of a search that lists nothing. -/
theorem of_empty (hempty : q.results = []) (hidle : q.searching = false) :
    ({} : Account κ α).Of fits From q where
  listed := hempty
  ours := by simp
  theirs := by simp
  once := List.nodup_nil
  fit := by simp
  roomy := by simp
  waiting h := by rw [hidle] at h; cases h
  unedited _ := by simp [hempty]

/-- A search that has just started. -/
theorem of_started {hosted : List α} (hmine : ∀ result ∈ q.results, result ∈ hosted ∧
      fits result q.query = true) (hroom : q.results.length ≤ q.maxResults) :
    ({ asked := q.awaiting, hosted
       listings := [{ source := none, query := q.query, maxResults := q.maxResults
                      found := q.results }] } : Account κ α).Of fits From q where
  listed := by simp [results]
  ours := by
    simp only [List.mem_singleton, forall_eq]
    exact fun _ result hin ↦ (hmine result hin).1
  theirs := by simp
  once := List.nodup_nil
  fit := by
    simp only [List.mem_singleton, forall_eq]
    exact fun result hin ↦ (hmine result hin).2
  roomy before listing after h := by
    obtain rfl : before = [] := by
      cases before with
      | nil => rfl
      | cons first before =>
        have hlength := congrArg List.length h
        simp only [List.length_cons, List.length_append, List.length_nil] at hlength
        omega
    obtain ⟨rfl, -⟩ := List.cons.inj h
    exact .inr (by simpa using hroom)
  waiting _ := by simp [answered]
  unedited _ := ⟨hroom, fun result hin ↦ (hmine result hin).2⟩

/-- A search that takes in an answer. -/
theorem Of.answered (h : account.Of fits From q) {source : Bytes} {found : List α}
    (hsearching : q.searching = true) (hsource : source ∈ q.awaiting)
    (hfound : ∀ result ∈ found, From source result ∧ fits result q.query = true)
    (hroom : found.length ≤ q.maxResults - q.results.length) :
    (account.list { source := some source, query := q.query, maxResults := q.maxResults, found }).Of
      fits From
      { q with awaiting := q.awaiting.filter (· ≠ source), results := q.results ++ found } := by
  have hasked := hsource
  rw [h.waiting hsearching, List.mem_filter, decide_eq_true_eq] at hasked
  refine ⟨?_, fun listing hin ↦ ?_, fun listing hin ↦ ?_, ?_, fun listing hin ↦ ?_,
    fun before listing after heq ↦ ?_, fun _ ↦ ?_, fun hedited ↦ ?_⟩
  · rw [results_list, h.listed]
  · rcases account.mem_list.1 hin with hin | rfl
    · exact h.ours listing hin
    · rintro ⟨⟩
  · rcases account.mem_list.1 hin with hin | rfl
    · exact h.theirs listing hin
    · rintro peer ⟨⟩
      exact ⟨hasked.1, fun result hresult ↦ (hfound result hresult).1⟩
  · rw [answered_list, Option.toList_some]
    exact List.nodup_append.2 ⟨h.once, List.nodup_singleton _, fun peer hpeer other hother heq ↦
      hasked.2 (List.mem_singleton.1 hother ▸ heq ▸ hpeer)⟩
  · rcases account.mem_list.1 hin with hin | rfl
    · exact h.fit listing hin
    · exact fun result hresult ↦ (hfound result hresult).2
  · -- The listing is the new one, or the new one is among those after it.
    rw [list] at heq
    rcases List.eq_nil_or_concat after with rfl | ⟨rest, last, rfl⟩
    · obtain ⟨rfl, hlast⟩ := List.append_inj' heq rfl
      obtain ⟨rfl, -⟩ := List.cons.inj hlast
      by_cases hnone : found = []
      · exact .inl hnone
      · have hpos := List.length_pos_iff.2 hnone
        rw [show account.listings.flatMap (·.found) = q.results from h.listed.symm]
        exact .inr (by dsimp only; omega)
    · rw [List.concat_eq_append, ← List.cons_append, ← List.append_assoc] at heq
      exact h.roomy before listing rest (List.append_inj' heq rfl).1
  · show q.awaiting.filter _ = account.asked.filter _
    rw [h.waiting hsearching, List.filter_filter, answered_list]
    refine List.filter_congr fun peer _ ↦ ?_
    simp [and_comm]
  · obtain ⟨hlength, hall⟩ := h.unedited hedited
    refine ⟨?_, fun result hin ↦ ?_⟩
    · simp only [List.length_append]
      omega
    · rcases List.mem_append.1 hin with hin | hin
      · exact hall result hin
      · exact (hfound result hin).2

/-- A search that lists what it listed, whatever its query has become. -/
theorem Of.edited (h : account.Of fits From q) (hresults : q'.results = q.results)
    (hwaiting : q'.searching = true → q.searching = true ∧ q'.awaiting = q.awaiting)
    {edited : Bool} (hedited : edited = false →
      account.edited = false ∧ q'.query = q.query ∧ q'.maxResults = q.maxResults) :
    ({ account with edited } : Account κ α).Of fits From q' where
  listed := hresults.trans h.listed
  ours := h.ours
  theirs := h.theirs
  once := h.once
  fit := h.fit
  roomy := h.roomy
  waiting hsearching := by
    obtain ⟨hsearching, hawaiting⟩ := hwaiting hsearching
    rw [hawaiting, h.waiting hsearching]
    rfl
  unedited hnot := by
    obtain ⟨hunedited, hquery, hmax⟩ := hedited hnot
    rw [hresults, hquery, hmax]
    exact h.unedited hunedited

/-- **One step keeps the account true.** -/
theorem of_step [DecidableEq κ] {peers : List Bytes} {hosted : List α} {source : Bytes}
    {before after : Option (Quest κ α)}
    (hstep : Quest.Step fits From peers hosted source before after)
    (h : ∀ q, before = some q → account.Of fits From q) :
    ∀ q, after = some q → (account.next source hosted before after).Of fits From q := by
  rintro q rfl
  cases hstep with
  | same =>
    have hq := h q rfl
    rw [next, if_neg (by simp), if_neg (by simp)]
    exact hq.edited rfl (fun hsearching ↦ ⟨hsearching, rfl⟩) (by simp)
  | created hidle hempty => exact of_empty hempty hidle
  | @edited q₀ _ hresults hsearching hawaiting =>
    rw [next, if_neg (by simp [hsearching]), if_neg (by simp [hawaiting])]
    exact (h q₀ rfl).edited hresults (fun hs ↦ ⟨hsearching ▸ hs, hawaiting⟩)
      (by simp; tauto)
  | started hidle hsearching hasked hmine hroom =>
    rw [next, if_pos ⟨hidle, hsearching⟩]
    exact of_started hmine hroom
  | @answered q₀ found hsearching hsource hfound hroom =>
    have hchanged : q₀.awaiting.filter (· ≠ source) ≠ q₀.awaiting := fun heq ↦ by
      rw [← heq] at hsource
      simp at hsource
    rw [next, if_neg (by simp [hsearching]), if_pos hchanged, List.drop_left]
    exact (h q₀ rfl).answered hsearching hsource hfound hroom
  | @settled q₀ =>
    rw [next, if_neg (by simp), if_neg (by simp)]
    refine (h q₀ rfl).edited ?_ ?_ ?_
    · rfl
    · exact fun hs ↦ absurd hs Bool.false_ne_true
    · simp

end Account

/-! ## All the searches of an interface -/

/-- The searches of an interface, by their handles, and the peers it can reach; `ω` is what it keeps
of a search. -/
structure Desk (ω : Type) where
  store : HandleStore ω
  nextHandle : GameHandle
  peers : List Bytes

namespace Desk

variable {ω : Type} (quest : ω → Quest κ α)

/-- The quest under a handle. -/
def questAt (d : Desk ω) (handle : GameHandle) : Option (Quest κ α) :=
  (d.store.find handle).map quest

/-- What one step can make of the searches; `asked` are the peers a search that it starts asks. -/
inductive Step (fits : α → κ → Bool) (From : Bytes → α → Prop) (hosted : List α) (source : Bytes)
    (asked : List Bytes) : Desk ω → Desk ω → Prop
  | aside {d d' : Desk ω} (hasked : asked = []) (hstore : d'.store = d.store)
      (hhandles : d.nextHandle ≤ d'.nextHandle) : Step fits From hosted source asked d d'
  | created {d : Desk ω} {object : ω} (hidle : (quest object).searching = false)
      (hempty : (quest object).results = []) :
      Step fits From hosted source asked d
        { d with store := d.store.put d.nextHandle object, nextHandle := d.nextHandle + 1 }
  | edited {d : Desk ω} {handle : GameHandle} {object object' : ω}
      (hobject : d.store.find handle = some object)
      (hresults : (quest object').results = (quest object).results)
      (hsearching : (quest object').searching = (quest object).searching)
      (hawaiting : (quest object').awaiting = (quest object).awaiting) :
      Step fits From hosted source asked d { d with store := d.store.put handle object' }
  | started {d : Desk ω} {handle : GameHandle} {object object' : ω} {peers : List Bytes}
      (hobject : d.store.find handle = some object) (hidle : (quest object).searching = false)
      (hsearching : (quest object').searching = true) (hasked : (quest object').awaiting = asked)
      (hpeers : asked ⊆ d.peers)
      (hmine : ∀ result ∈ (quest object').results,
        result ∈ hosted ∧ fits result (quest object').query = true)
      (hroom : (quest object').results.length ≤ (quest object').maxResults) :
      Step fits From hosted source asked d { d with store := d.store.put handle object', peers }
  | answered {d : Desk ω} {store : HandleStore ω}
      (heach : ∀ handle, store.find handle = d.store.find handle ∨
        ∃ object object' found, d.store.find handle = some object ∧
          store.find handle = some object' ∧ (quest object).searching = true ∧
          source ∈ (quest object).awaiting ∧
          (∀ result ∈ found, From source result ∧ fits result (quest object).query = true) ∧
          found.length ≤ (quest object).maxResults - (quest object).results.length ∧
          quest object' = { quest object with
            awaiting := (quest object).awaiting.filter (· ≠ source)
            results := (quest object).results ++ found }) :
      Step fits From hosted source asked d { d with store }
  | settled {d : Desk ω} {handle : GameHandle} {object object' : ω}
      (hobject : d.store.find handle = some object)
      (hsettled : quest object' = { quest object with searching := false }) :
      Step fits From hosted source asked d { d with store := d.store.put handle object' }
  | released {d : Desk ω} (handle : GameHandle) :
      Step fits From hosted source asked d { d with store := d.store.release handle }

/-- Every handle of a search was given out. -/
def Handled (d : Desk ω) : Prop :=
  ∀ handle object, d.store.find handle = some object → handle < d.nextHandle

/-- Every search under way awaits peers that can be reached. -/
def Awaits (d : Desk ω) : Prop :=
  ∀ handle object, d.store.find handle = some object → (quest object).searching = true →
    (quest object).awaiting ⊆ d.peers

/-- The peers a search under way awaits. -/
def Awaited (d : Desk ω) (peer : Bytes) : Prop :=
  ∃ handle object, d.store.find handle = some object ∧ (quest object).searching = true ∧
    peer ∈ (quest object).awaiting

/-- The peers that searches under way await, one search after the other. -/
def awaitedPeers (d : Desk ω) : List Bytes :=
  (d.store.objects.toList.filter fun p ↦ (quest p.2).searching).flatMap fun p ↦ (quest p.2).awaiting

theorem mem_awaitedPeers {d : Desk ω} {peer : Bytes} :
    peer ∈ d.awaitedPeers quest ↔ d.Awaited quest peer := by
  simp only [awaitedPeers, List.mem_flatMap, List.mem_filter, Prod.exists,
    Std.TreeMap.mem_toList_iff_getElem?_eq_some]
  constructor
  · rintro ⟨handle, object, ⟨hobject, hsearching⟩, hin⟩
    exact ⟨handle, object, hobject, hsearching, hin⟩
  · rintro ⟨handle, object, hobject, hsearching, hin⟩
    exact ⟨handle, object, ⟨hobject, hsearching⟩, hin⟩

instance (d : Desk ω) (peer : Bytes) : Decidable (d.Awaited quest peer) :=
  decidable_of_iff _ (mem_awaitedPeers quest)

variable {quest} {fits : α → κ → Bool} {From : Bytes → α → Prop} {hosted : List α} {source : Bytes}
  {asked : List Bytes} {d d' : Desk ω}

/-- An object was put where there was one. -/
theorem Handled.put (h : Handled d) {handle : GameHandle} {object : ω}
    (hobject : d.store.find handle = some object) (object' : ω) (peers : List Bytes) :
    Handled { d with store := d.store.put handle object', peers } := fun h' other hother ↦ by
  rw [HandleStore.find_put] at hother
  split at hother
  · rename_i heq
    exact heq ▸ h _ _ hobject
  · exact h _ _ hother

theorem Step.handled (h : Step quest fits From hosted source asked d d') (hd : Handled d) :
    Handled d' := by
  cases h with
  | aside _ hstore hhandles =>
    intro handle object hobject
    rw [hstore] at hobject
    exact (hd _ _ hobject).trans_le hhandles
  | created hidle hempty =>
    intro handle object hobject
    rw [HandleStore.find_put] at hobject
    split at hobject
    · rename_i heq
      exact heq ▸ Nat.lt_succ_self _
    · exact (hd _ _ hobject).trans (Nat.lt_succ_self _)
  | edited hobject => exact hd.put hobject _ _
  | started hobject => exact hd.put hobject _ _
  | answered heach =>
    intro handle object hobject
    rcases heach handle with heq | ⟨object', _, _, hobject', _⟩
    · exact hd _ _ (heq.symm.trans hobject)
    · exact hd _ _ hobject'
  | settled hobject => exact hd.put hobject _ _
  | released handle =>
    intro handle' object hobject
    rw [HandleStore.find_release] at hobject
    split at hobject
    · cases hobject
    · exact hd _ _ hobject

/-- **What a step makes of the search behind one handle.** -/
theorem Step.questStep (h : Step quest fits From hosted source asked d d') (hd : Handled d)
    (handle : GameHandle) :
    Quest.Step fits From d.peers hosted source (d.questAt quest handle)
    (d'.questAt quest handle) := by
  have hput (handle' : GameHandle) (object object' : ω) (peers : List Bytes)
      (hobject : d.store.find handle' = some object)
      (hstep : Quest.Step fits From d.peers hosted source (some (quest object))
        (some (quest object'))) :
      Quest.Step fits From d.peers hosted source (d.questAt quest handle)
        (questAt quest { d with store := d.store.put handle' object', peers } handle) := by
    rw [questAt, questAt, HandleStore.find_put]
    split
    · rename_i heq
      rw [← heq, hobject]
      exact hstep
    · exact .same
  cases h with
  | aside _ hstore _ =>
    rw [questAt, questAt, hstore]
    exact .same
  | @created object hidle hempty =>
    rw [questAt, questAt, HandleStore.find_put]
    split
    · rename_i heq
      have hnone : d.store.find handle = none := by
        by_contra hsome
        obtain ⟨other, hother⟩ := Option.ne_none_iff_exists'.1 hsome
        exact absurd (hd _ _ hother) (heq ▸ lt_irrefl _)
      rw [hnone]
      exact .created hidle hempty
    · exact .same
  | edited hobject hresults hsearching hawaiting =>
    exact hput _ _ _ _ hobject (.edited hresults hsearching hawaiting)
  | started hobject hidle hsearching hasked hpeers hmine hroom =>
    exact hput _ _ _ _ hobject (.started hidle hsearching (hasked ▸ hpeers) hmine hroom)
  | answered heach =>
    rcases heach handle with heq | ⟨object, object', found, hobject, hobject', hsearching, hsource,
      hfound, hroom, hquest⟩
    · rw [questAt, questAt, heq]
      exact .same
    · rw [questAt, questAt, hobject, hobject', Option.map_some, Option.map_some, hquest]
      exact .answered hsearching hsource hfound hroom
  | settled hobject hsettled =>
    refine hput _ _ _ _ hobject ?_
    rw [hsettled]
    exact .settled
  | released handle' =>
    rw [questAt, questAt, HandleStore.find_release]
    split
    · cases d.store.find handle with
      | none => exact .same
      | some object => exact .released
    · exact .same

/-- A search that starts awaits whom it asks. -/
theorem Step.awaiting_of_starts (h : Step quest fits From hosted source asked d d')
    {handle : GameHandle} {q q' : Quest κ α} (hbefore : d.questAt quest handle = some q)
    (hafter : d'.questAt quest handle = some q') (hidle : q.searching = false)
    (hstarts : q'.searching = true) : q'.awaiting = asked := by
  have hsame (heq : d'.store.find handle = d.store.find handle) : q'.awaiting = asked := by
    rw [questAt, heq] at hafter
    obtain rfl := Option.some.inj (hbefore.symm.trans hafter)
    rw [hidle] at hstarts
    cases hstarts
  have hput (handle' : GameHandle) (object object' : ω) (peers : List Bytes)
      (hd' : d' = { d with store := d.store.put handle' object', peers })
      (hobject : d.store.find handle' = some object)
      (hawaiting : (quest object).searching = false → (quest object').searching = true →
        (quest object').awaiting = asked) : q'.awaiting = asked := by
    subst hd'
    by_cases heq : handle' = handle
    · subst heq
      rw [questAt, hobject] at hbefore
      rw [questAt, HandleStore.find_put, if_pos rfl] at hafter
      obtain rfl := Option.some.inj hbefore
      obtain rfl := Option.some.inj hafter
      exact hawaiting hidle hstarts
    · exact hsame (by rw [HandleStore.find_put, if_neg heq])
  cases h with
  | aside _ hstore _ => exact hsame (by rw [hstore])
  | @created object hnew hempty =>
    rw [questAt, HandleStore.find_put] at hafter
    split at hafter
    · obtain rfl := Option.some.inj hafter
      rw [hnew] at hstarts
      cases hstarts
    · exact hsame (by rw [HandleStore.find_put, if_neg ‹_›])
  | edited hobject hresults hsearching hawaiting =>
    refine hput _ _ _ _ rfl hobject fun hwas his ↦ ?_
    rw [hsearching, hwas] at his
    cases his
  | started hobject _ _ hasked => exact hput _ _ _ _ rfl hobject fun _ _ ↦ hasked
  | answered heach =>
    rcases heach handle with heq | ⟨object, object', found, hobject, hobject', hsearching, -⟩
    · exact hsame heq
    · rw [questAt, hobject] at hbefore
      obtain rfl := Option.some.inj hbefore
      rw [hsearching] at hidle
      cases hidle
  | settled hobject hsettled =>
    refine hput _ _ _ _ rfl hobject fun hwas his ↦ ?_
    rw [hsettled] at his
    cases his
  | released handle' =>
    rw [questAt, HandleStore.find_release] at hafter
    split at hafter
    · cases hafter
    · exact hsame (by rw [HandleStore.find_release, if_neg ‹_›])

/-- Nothing is lost, and what is awaited was awaited. -/
theorem Awaits.of_peers_eq (hd : d.Awaits quest) (hpeers : d'.peers = d.peers)
    (heach : ∀ handle object', d'.store.find handle = some object' →
      (quest object').searching = true → ∃ object, d.store.find handle = some object ∧
        (quest object).searching = true ∧ (quest object').awaiting ⊆ (quest object).awaiting) :
    d'.Awaits quest ↔ ∀ peer ∈ d.peers, peer ∉ d'.peers → ¬ d.Awaited quest peer ∧
    peer ∉ asked := by
  refine ⟨fun _ peer hin hout ↦ absurd hin (hpeers ▸ hout), fun _ handle object' hobject' hs ↦ ?_⟩
  obtain ⟨object, hobject, hsearching, hsubset⟩ := heach handle object' hobject' hs
  rw [hpeers]
  exact List.Subset.trans hsubset (hd handle object hobject hsearching)

/-- **Searches go on awaiting peers that can be reached exactly when** no peer that is lost in the
step was awaited, or is asked in it. -/
theorem Step.awaits_iff (h : Step quest fits From hosted source asked d d') (hd : d.Awaits quest) :
    d'.Awaits quest ↔ ∀ peer ∈ d.peers, peer ∉ d'.peers → ¬ d.Awaited quest peer ∧
    peer ∉ asked := by
  cases h with
  | aside hasked hstore _ =>
    subst hasked
    constructor
    · rintro hd' peer - hout
      refine ⟨?_, List.not_mem_nil⟩
      rintro ⟨handle, object, hobject, hsearching, hin⟩
      exact hout (hd' handle object (hstore ▸ hobject) hsearching hin)
    · intro hspares handle object hobject hsearching peer hin
      rw [hstore] at hobject
      by_contra hout
      exact (hspares peer (hd handle object hobject hsearching hin) hout).1
        ⟨handle, object, hobject, hsearching, hin⟩
  | created hidle hempty =>
    refine hd.of_peers_eq rfl fun handle object' hobject' hs ↦ ?_
    rw [HandleStore.find_put] at hobject'
    split at hobject'
    · cases hobject'
      rw [hidle] at hs
      cases hs
    · exact ⟨object', hobject', hs, List.Subset.refl _⟩
  | edited hobject hresults hsearching hawaiting =>
    refine hd.of_peers_eq rfl fun handle object' hobject' hs ↦ ?_
    rw [HandleStore.find_put] at hobject'
    split at hobject'
    · rename_i heq
      cases hobject'
      exact ⟨_, heq ▸ hobject, hsearching ▸ hs, hawaiting ▸ List.Subset.refl _⟩
    · exact ⟨object', hobject', hs, List.Subset.refl _⟩
  | @started handle object object' peers hobject hidle hsearching hasked hpeers =>
    constructor
    · rintro hd' peer - hout
      have hnew := hd' handle object' (by rw [HandleStore.find_put, if_pos rfl]) hsearching
      refine ⟨?_, fun hin ↦ hout (hnew (hasked ▸ hin))⟩
      rintro ⟨handle₁, object₁, hobject₁, hsearching₁, hin⟩
      have hne : handle ≠ handle₁ := by
        rintro rfl
        rw [hobject] at hobject₁
        cases hobject₁
        rw [hidle] at hsearching₁
        cases hsearching₁
      exact hout (hd' handle₁ object₁ (by rw [HandleStore.find_put, if_neg hne, hobject₁])
        hsearching₁ hin)
    · intro hspares handle₁ object₁ hobject₁ hsearching₁ peer hin
      by_contra hout
      rw [HandleStore.find_put] at hobject₁
      split at hobject₁
      · cases hobject₁
        have hin := hasked ▸ hin
        exact (hspares peer (hpeers hin) hout).2 hin
      · exact (hspares peer (hd handle₁ object₁ hobject₁ hsearching₁ hin) hout).1
          ⟨handle₁, object₁, hobject₁, hsearching₁, hin⟩
  | answered heach =>
    refine hd.of_peers_eq rfl fun handle object' hobject' hs ↦ ?_
    rcases heach handle with heq | ⟨object, other, found, hobject, hother, hsearching,
      -, -, -, hquest⟩
    · exact ⟨object', heq.symm.trans hobject', hs, List.Subset.refl _⟩
    · obtain rfl := Option.some.inj (hother.symm.trans hobject')
      refine ⟨object, hobject, hsearching, ?_⟩
      rw [hquest]
      exact List.filter_subset_self _
  | settled hobject hsettled =>
    refine hd.of_peers_eq rfl fun handle object' hobject' hs ↦ ?_
    rw [HandleStore.find_put] at hobject'
    split at hobject'
    · cases hobject'
      rw [hsettled] at hs
      cases hs
    · exact ⟨object', hobject', hs, List.Subset.refl _⟩
  | released handle =>
    refine hd.of_peers_eq rfl fun handle' object' hobject' hs ↦ ?_
    rw [HandleStore.find_release] at hobject'
    split at hobject'
    · cases hobject'
    · exact ⟨object', hobject', hs, List.Subset.refl _⟩

end Desk

/-! ## Runs -/

/-- An interface, with the account of the search behind every handle. -/
structure Watch (σ κ α : Type) where
  state : σ
  account : GameHandle → Account κ α

namespace Watch

variable {σ ι ω : Type} [DecidableEq κ] (step : σ → ι → Option σ) (desk : σ → Desk ω)
  (quest : ω → Quest κ α) (hosted : σ → List α) (source : ι → Bytes)

/-- Before the first step nobody was asked. -/
def start (s : σ) : Watch σ κ α where
  state := s
  account _ := {}

/-- A step of the interface, with everyone looking on. -/
def next (w : Watch σ κ α) (i : ι) : Option (Watch σ κ α) :=
  (step w.state i).map fun s ↦
    { state := s
      account := fun handle ↦ (w.account handle).next (source i) (hosted w.state)
        ((desk w.state).questAt quest handle) ((desk s).questAt quest handle) }

/-- Every search goes by its account. -/
def Accounted (fits : α → κ → Bool) (From : Bytes → α → Prop) (w : Watch σ κ α) : Prop :=
  ∀ handle q, (desk w.state).questAt quest handle = some q → (w.account handle).Of fits From q

variable {step desk quest hosted source} {fits : α → κ → Bool} {From : Bytes → α → Prop}
  {guard : σ → ι → Prop} {w : Watch σ κ α} {s : σ}

/-- **What each step makes of the searches, every run accounts for.** -/
theorem accounted (hstart : (desk s).store = {})
    (hstep : ∀ s₁ i s₂, guard s₁ i → step s₁ i = some s₂ → ∃ asked,
      Desk.Step quest fits From (hosted s₁) (source i) asked (desk s₁) (desk s₂))
    (h : Reaches (next step desk quest hosted source) (fun w i ↦ guard w.state i) (start s) w) :
    w.Accounted desk quest fits From := by
  refine (h.invariant (I := fun w ↦ (desk w.state).Handled ∧ w.Accounted desk quest fits From)
    ⟨fun handle object hobject ↦ ?_, fun handle q hq ↦ ?_⟩ fun w₁ i w₂ hw hguard hnext ↦ ?_).2
  · rw [start, hstart, HandleStore.find_empty] at hobject
    cases hobject
  · rw [start, Desk.questAt, hstart, HandleStore.find_empty] at hq
    cases hq
  · obtain ⟨s₂, hs₂, rfl⟩ := Option.map_eq_some_iff.1 hnext
    obtain ⟨asked, hdesk⟩ := hstep _ _ _ hguard hs₂
    refine ⟨hdesk.handled hw.1, fun handle q hq ↦ ?_⟩
    exact Account.of_step (hdesk.questStep hw.1 handle) (hw.2 handle) q hq

/-- What is noted of a search that starts is whom the step asks. -/
theorem asked_of_starts {w' : Watch σ κ α} {i : ι} {asked : List Bytes}
    (h : next step desk quest hosted source w i = some w')
    (hdesk : ∀ s', step w.state i = some s' → Desk.Step quest fits From (hosted w.state) (source i)
      asked (desk w.state) (desk s')) {handle : GameHandle} {q q' : Quest κ α}
    (hbefore : (desk w.state).questAt quest handle = some q)
    (hafter : (desk w'.state).questAt quest handle = some q') (hidle : q.searching = false)
    (hstarts : q'.searching = true) : (w'.account handle).asked = asked := by
  obtain ⟨s', hs', rfl⟩ := Option.map_eq_some_iff.1 h
  dsimp only at hafter ⊢
  rw [hbefore, hafter, Account.next, if_pos ⟨hidle, hstarts⟩]
  exact (hdesk s' hs').awaiting_of_starts hbefore hafter hidle hstarts

/-- The run of an interface, with everyone looking on. -/
theorem reaches_state
    (h : Reaches (next step desk quest hosted source) (fun w i ↦ guard w.state i) (start s) w) :
    Reaches step guard s w.state := by
  refine h.invariant (I := fun w ↦ Reaches step guard s w.state) .refl fun w₁ i w₂ hw
    hguard hnext ↦ ?_
  obtain ⟨s₂, hs₂, rfl⟩ := Option.map_eq_some_iff.1 hnext
  exact hw.tail hguard hs₂

end Watch

/-- **Searches that lose nobody they await** await peers that can be reached. -/
theorem Desk.awaits_of_reaches {σ ι ω : Type} {step : σ → ι → Option σ} {desk : σ → Desk ω}
    {quest : ω → Quest κ α} {fits : α → κ → Bool} {From : Bytes → α → Prop} {hosted : σ → List α}
    {source : ι → Bytes} {asked : σ → ι → List Bytes} {guard : σ → ι → Prop} {s s' : σ}
    (hstart : (desk s).store = {})
    (hstep : ∀ s₁ i s₂, step s₁ i = some s₂ →
      Desk.Step quest fits From (hosted s₁) (source i) (asked s₁ i) (desk s₁) (desk s₂))
    (hspares : ∀ s₁ i s₂, guard s₁ i → step s₁ i = some s₂ → ∀ peer ∈ (desk s₁).peers,
      peer ∉ (desk s₂).peers → ¬ (desk s₁).Awaited quest peer ∧ peer ∉ asked s₁ i)
    (h : Reaches step guard s s') : (desk s').Awaits quest :=
  h.invariant (I := fun s ↦ (desk s).Awaits quest)
    (fun handle object hobject ↦ by rw [hstart, HandleStore.find_empty] at hobject; cases hobject)
    fun s₁ i s₂ hI hguard hs ↦ ((hstep s₁ i s₂ hs).awaits_iff hI).2 (hspares s₁ i s₂ hguard hs)

end EosMesh
