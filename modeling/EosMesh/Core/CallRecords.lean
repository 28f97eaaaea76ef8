import EosMesh.Core.Tracer

/-!
# The records of a call

A trace is read by its correlation ids: the record of a call opens one, the record of its return
closes it, and the result, which may come much later and from another thread, is announced under the
same one.  So the ids have to hold across threads, nested calls and results that arrive when the
call is long over.

* `Stitched` says it of a list of records: an id stands for one call, opened once and closed once at
  most, by the same function and from the same thread, and no result is announced under an id that
  was not opened before.  `Stitched.concat` adds a record, and `Stitched.filter` is the trace of a
  sink that keeps fewer, as long as it keeps the calls.
* `Correlated` is the invariant of the tracer: ids are given in turn, and whoever has a frame has
  its call on record and is still to return.  A call begins by `Correlated.begun` and returns by
  `Correlated.returns`; everything else is a record that says nothing of correlations (`Murmurs`).
* `Tracing.Woven` adds the threads with their scopes and the results that wait: each thread's frames
  are its open calls.  `Woven.step` is the step lemma.
* `Tracer.takes_written` ties the trace at a level to the sink that writes it: of what the sink is
  handed, only what is for its level makes a difference.

`calls_stitched` is the result for every run, at every level that keeps calls.  Ids are given out by
a counter of 64 bits, and a run is taken to be short enough for it.
-/

set_option autoImplicit false

namespace EosMesh

open Lib

/-! ## Records that belong together -/

namespace TracedRecord

/-- The id a call opens. -/
def callCorr (traced : TracedRecord) : Option Bytes :=
  match traced.record with
  | .ofCall _ _ corr _ => if corr = [] then none else some corr
  | _ => none

/-- The id a return closes. -/
def returnCorr (traced : TracedRecord) : Option Bytes :=
  match traced.record with
  | .ofReturn _ corr _ => if corr = [] then none else some corr
  | _ => none

/-- The record of a call of its own correlation. -/
def Opens (fn corr : Bytes) (traced : TracedRecord) : Prop :=
  corr ≠ [] ∧ ∃ api args, traced.record = .ofCall fn api corr args

theorem Opens.callCorr {fn corr : Bytes} {traced : TracedRecord} (h : traced.Opens fn corr) :
    traced.callCorr = some corr := by
  obtain ⟨hne, api, args, hrecord⟩ := h
  simp [TracedRecord.callCorr, hrecord, hne]

theorem returnCorr_eq_some {corr : Bytes} {traced : TracedRecord} :
    traced.returnCorr = some corr ↔
      corr ≠ [] ∧ ∃ fn value, traced.record = .ofReturn fn corr value := by
  rw [returnCorr]
  split
  · rename_i fn corr' value hrecord
    rw [hrecord]
    by_cases hempty : corr' = [] <;> simp [hempty, eq_comm]
    rintro rfl
    exact hempty
  · rename_i hother
    constructor
    · intro h
      cases h
    · rintro ⟨-, fn, value, hrecord⟩
      exact absurd hrecord (hother fn corr value)

end TracedRecord

/-- An id stands for one call: it is opened once and closed once at most, by the same function and
from the same thread, and no result is announced under it before. -/
structure Stitched (records : List TracedRecord) : Prop where
  once : (records.filterMap TracedRecord.callCorr).Nodup
  returnedOnce : (records.filterMap TracedRecord.returnCorr).Nodup
  returned : ∀ {before after : List TracedRecord} {traced : TracedRecord} {fn corr : Bytes}
    {value : TraceReturn}, records = before ++ traced :: after →
    traced.record = .ofReturn fn corr value → corr ≠ [] →
    ∃ call ∈ before, call.Opens fn corr ∧ call.env.tid = traced.env.tid
  completed : ∀ {before after : List TracedRecord} {traced : TracedRecord} {fn corr : Bytes}
    {result : TraceResultCode} {payload : List TraceField}, records = before ++ traced :: after →
    traced.record = .ofCallback fn corr result payload → ∃ call ∈ before, call.Opens fn corr

namespace Stitched

variable {records : List TracedRecord} {traced : TracedRecord}

theorem nil : Stitched [] where
  once := List.nodup_nil
  returnedOnce := List.nodup_nil
  returned h := by simp at h
  completed h := by simp at h

/-- A record in a longer trace is the new one, or was there before. -/
theorem split_concat {before after : List TracedRecord} {found : TracedRecord}
    (h : records ++ [traced] = before ++ found :: after) :
    before = records ∧ found = traced ∨ ∃ after', records = before ++ found :: after' := by
  rcases List.eq_nil_or_concat after with rfl | ⟨after', last, rfl⟩
  · obtain ⟨hbefore, hfound⟩ := List.append_inj' h rfl
    exact .inl ⟨hbefore.symm, (List.cons.inj hfound).1.symm⟩
  · refine .inr ⟨after', ?_⟩
    rw [List.concat_eq_append, ← List.cons_append, ← List.append_assoc] at h
    exact (List.append_inj' h rfl).1

theorem concat (h : Stitched records)
    (honce : ∀ corr, traced.callCorr = some corr → corr ∉ records.filterMap TracedRecord.callCorr)
    (hreturnedOnce : ∀ corr, traced.returnCorr = some corr →
      corr ∉ records.filterMap TracedRecord.returnCorr)
    (hreturned : ∀ fn corr value, traced.record = .ofReturn fn corr value → corr ≠ [] →
      ∃ call ∈ records, call.Opens fn corr ∧ call.env.tid = traced.env.tid)
    (hcompleted : ∀ fn corr result payload, traced.record = .ofCallback fn corr result payload →
      ∃ call ∈ records, call.Opens fn corr) : Stitched (records ++ [traced]) where
  once := by
    rw [List.filterMap_append, List.nodup_append']
    refine ⟨h.once, ?_, fun corr hold hnew ↦ ?_⟩
    · rw [List.filterMap_cons]
      split <;> simp
    · simp only [List.filterMap_cons, List.filterMap_nil] at hnew
      split at hnew
      · cases hnew
      · rename_i corr' hcorr
        rw [List.mem_singleton.1 hnew] at hold
        exact honce corr' hcorr hold
  returnedOnce := by
    rw [List.filterMap_append, List.nodup_append']
    refine ⟨h.returnedOnce, ?_, fun corr hold hnew ↦ ?_⟩
    · rw [List.filterMap_cons]
      split <;> simp
    · simp only [List.filterMap_cons, List.filterMap_nil] at hnew
      split at hnew
      · cases hnew
      · rename_i corr' hcorr
        rw [List.mem_singleton.1 hnew] at hold
        exact hreturnedOnce corr' hcorr hold
  returned heq hrecord hne := by
    rcases split_concat heq with ⟨rfl, rfl⟩ | ⟨after, hold⟩
    · exact hreturned _ _ _ hrecord hne
    · exact h.returned hold hrecord hne
  completed heq hrecord := by
    rcases split_concat heq with ⟨rfl, rfl⟩ | ⟨after, hold⟩
    · exact hcompleted _ _ _ _ hrecord
    · exact h.completed hold hrecord

/-- A trace that keeps every call of its own correlation keeps what the others refer to. -/
theorem filter (h : Stitched records) {keep : TracedRecord → Bool}
    (hkeep : ∀ call ∈ records, ∀ fn corr, call.Opens fn corr → keep call = true) :
    Stitched (records.filter keep) := by
  have hbefore {before after : List TracedRecord} {found : TracedRecord}
      (heq : records.filter keep = before ++ found :: after) :
      ∃ whole rest, records = whole ++ found :: rest ∧
        ∀ call ∈ whole, ∀ fn corr, call.Opens fn corr → call ∈ before := by
    obtain ⟨first, second, rfl, hfirst, hsecond⟩ := List.filter_eq_append_iff.1 heq
    obtain ⟨between, rest, rfl, hdropped, -, -⟩ := List.filter_eq_cons_iff.1 hsecond
    refine ⟨first ++ between, rest, (List.append_assoc ..).symm, fun call hcall fn corr hopens ↦ ?_⟩
    have hkept := hkeep call (by
      rw [← List.append_assoc]
      exact List.mem_append_left _ hcall) fn corr hopens
    rcases List.mem_append.1 hcall with hmem | hmem
    · exact hfirst ▸ List.mem_filter.2 ⟨hmem, hkept⟩
    · exact absurd hkept (hdropped call hmem)
  refine ⟨h.once.sublist (List.filter_sublist.filterMap _),
    h.returnedOnce.sublist (List.filter_sublist.filterMap _), fun heq hrecord hne ↦ ?_,
    fun heq hrecord ↦ ?_⟩
  · obtain ⟨whole, rest, hwhole, hmem⟩ := hbefore heq
    obtain ⟨call, hcall, hopens, htid⟩ := h.returned hwhole hrecord hne
    exact ⟨call, hmem call hcall _ _ hopens, hopens, htid⟩
  · obtain ⟨whole, rest, hwhole, hmem⟩ := hbefore heq
    obtain ⟨call, hcall, hopens⟩ := h.completed hwhole hrecord
    exact ⟨call, hmem call hcall _ _ hopens, hopens⟩

end Stitched

/-! ## The tracer -/

namespace Tracer

variable {s s' : Tracer} {more : List TracedRecord} {thread : ThreadId} {now : UInt64}

/-- Nothing changes but what was handed over, the labels and the envelope's counter. -/
structure Grows (s s' : Tracer) (more : List TracedRecord) : Prop where
  enabled : s'.enabled = s.enabled
  nextCorr : s'.nextCorr = s.nextCorr
  callFrames : s'.callFrames = s.callFrames
  handed : s'.handed = s.handed ++ more
  labelled : ∀ (thread : ThreadId) (label : Bytes), s.threadLabels[thread]? = some label →
    s'.threadLabels[thread]? = some label

theorem grows_envelope (s : Tracer) (thread : ThreadId) (now : UInt64) :
    Grows s (s.nextEnvelope thread now).2 [] ∧
      (s.nextEnvelope thread now).2.threadLabels[thread]? =
        some (s.nextEnvelope thread now).1.tid := by
  dsimp only [nextEnvelope]
  rw [logicalThreadLabel]
  split
  · rename_i label hlabel
    exact ⟨⟨rfl, rfl, rfl, (List.append_nil _).symm, fun _ _ h ↦ h⟩, hlabel⟩
  · rename_i hnone
    refine ⟨⟨rfl, rfl, rfl, (List.append_nil _).symm, fun other label h ↦ ?_⟩, ?_⟩
    · dsimp only
      rw [lookup_insert, if_neg]
      · exact h
      · rintro rfl
        rw [hnone] at h
        cases h
    · dsimp only
      rw [lookup_insert, if_pos rfl]

/-- A record is handed over, from the thread it names. -/
theorem grows_hand (s : Tracer) (level : TraceLevel) (record : TraceRecord) (thread : ThreadId)
    (now : UInt64) : ∃ env, Grows s (s.hand level record thread now) [⟨level, env, record⟩] ∧
      (s.hand level record thread now).threadLabels[thread]? = some env.tid := by
  obtain ⟨h, hlabel⟩ := grows_envelope s thread now
  refine ⟨(s.nextEnvelope thread now).1,
    ⟨h.enabled, h.nextCorr, h.callFrames, ?_, h.labelled⟩, hlabel⟩
  have hhanded := h.handed
  rw [List.append_nil] at hhanded
  show (s.nextEnvelope thread now).2.handed ++ [⟨level, (s.nextEnvelope thread now).1, record⟩] = _
  rw [hhanded]

theorem Grows.refl (s : Tracer) : Grows s s [] :=
  ⟨rfl, rfl, rfl, (List.append_nil _).symm, fun _ _ h ↦ h⟩

theorem grows_label (s : Tracer) (kind : LabelKind) (token : Bytes) :
    Grows s (s.label kind token).2 [] := ⟨rfl, rfl, rfl, (List.append_nil _).symm, fun _ _ h ↦ h⟩

theorem Grows.after {s'' : Tracer} (h : Grows s s' []) (h' : Grows s' s'' more) :
    Grows s s'' more where
  enabled := h'.enabled.trans h.enabled
  nextCorr := h'.nextCorr.trans h.nextCorr
  callFrames := h'.callFrames.trans h.callFrames
  handed := by rw [h'.handed, h.handed, List.append_nil]
  labelled thread label hlabel := h'.labelled thread label (h.labelled thread label hlabel)

/-- A record that neither opens nor closes an id, and announces no result. -/
def Quiet (traced : TracedRecord) : Prop :=
  traced.callCorr = none ∧ traced.returnCorr = none ∧
    ∀ fn corr result payload, traced.record ≠ .ofCallback fn corr result payload

/-- What a step may hand over without a word on correlations. -/
def Murmurs (s s' : Tracer) : Prop := ∃ more, Grows s s' more ∧ ∀ traced ∈ more, Quiet traced

theorem Grows.murmurs (h : Grows s s' []) : Murmurs s s' := ⟨[], h, by simp⟩

theorem murmurs_hand (s : Tracer) (level : TraceLevel) {record : TraceRecord}
    (hquiet : ∀ env, Quiet ⟨level, env, record⟩) (thread : ThreadId) (now : UInt64) :
    Murmurs s (s.hand level record thread now) := by
  obtain ⟨env, hgrows, -⟩ := grows_hand s level record thread now
  exact ⟨_, hgrows, by simpa using hquiet env⟩

theorem Grows.murmurs_after {s'' : Tracer} (h : Grows s s' []) (h' : Murmurs s' s'') :
    Murmurs s s'' := by
  obtain ⟨more, hgrows, hquiet⟩ := h'
  exact ⟨more, h.after hgrows, hquiet⟩

theorem murmurs_net (s : Tracer) (thread : ThreadId) (now : UInt64) (event : Bytes)
    (fields : List TraceField) (failure : Bool) :
    Murmurs s (s.recordNet thread now event fields failure) := by
  rw [recordNet]
  split
  · exact (Grows.refl s).murmurs
  · exact murmurs_hand s _ (fun env ↦ ⟨rfl, rfl, by simp⟩) thread now

theorem murmurs_notify (s : Tracer) (thread : ThreadId) (now : UInt64)
    (event action token : Bytes) (fields : List TraceField) :
    Murmurs s (s.recordNotify thread now event action token fields) := by
  rw [recordNotify]
  split
  · exact (Grows.refl s).murmurs
  · exact (grows_label s .notif token).murmurs_after
      (murmurs_hand _ _ (fun env ↦ ⟨rfl, rfl, by simp⟩) thread now)

theorem murmurs_search (s : Tracer) (thread : ThreadId) (now : UInt64) (reason peer : Bytes)
    (count : UInt64) (failure : Bool) :
    Murmurs s (s.recordSearch thread now reason peer count failure) := by
  rw [recordSearch]
  split
  · exact (Grows.refl s).murmurs
  · split
    rename_i about labelled heq
    have hgrows : Grows s labelled [] := by
      split at heq
      · cases heq
        exact Grows.refl s
      · cases heq
        exact grows_label s .puid peer
    exact hgrows.murmurs_after (murmurs_net _ thread now _ _ failure)

theorem murmurs_call (s : Tracer) (thread : ThreadId) (now : UInt64) (fn : Bytes) (api : Int32)
    (args : List TraceField) : Murmurs s (s.recordCall thread now fn api [] args) := by
  rw [recordCall]
  split
  · exact (Grows.refl s).murmurs
  · exact murmurs_hand s _ (fun env ↦ ⟨rfl, rfl, by simp⟩) thread now

theorem murmurs_return (s : Tracer) (thread : ThreadId) (now : UInt64) (fn : Bytes)
    (value : TraceReturn) : Murmurs s (s.recordReturn thread now fn [] value) := by
  rw [recordReturn]
  split
  · exact (Grows.refl s).murmurs
  · exact murmurs_hand s _ (fun env ↦ ⟨rfl, rfl, by simp⟩) thread now

/-- The invariant of the tracer: ids are given in turn, and whoever has a frame has its call on
record and is still to return. -/
structure Correlated (s : Tracer) : Prop where
  stitched : Stitched s.handed
  kept : ∀ call ∈ s.handed, ∀ fn corr, call.Opens fn corr → call.level = .lifecycle
  numbered : ∀ corr ∈ s.handed.filterMap TracedRecord.callCorr,
    ∃ n < s.nextCorr.toNat, corr = corrText n
  opened : ∀ (thread : ThreadId), ∀ frame ∈ s.callFrames thread, ∃ call ∈ s.handed,
    call.Opens frame.fn frame.corr ∧ s.threadLabels[thread]? = some call.env.tid
  waiting : ∀ thread, ∀ frame ∈ s.callFrames thread,
    frame.corr ∉ s.handed.filterMap TracedRecord.returnCorr
  apart : ∀ thread, ((s.callFrames thread).map (·.corr)).Nodup
  own : ∀ thread thread' frame frame', frame ∈ s.callFrames thread →
    frame' ∈ s.callFrames thread' → frame.corr = frame'.corr → thread = thread'

theorem corrText_injective : Function.Injective corrText := by
  intro m n h
  injection h with _ htail
  injection htail with _ hdigits
  rw [← (toDigits_value m).1, hdigits, (toDigits_value n).1]

theorem corrText_ne_nil (n : Nat) : corrText n ≠ [] := List.cons_ne_nil _ _

theorem mem_callCorr {records : List TracedRecord} {fn corr : Bytes} {call : TracedRecord}
    (hcall : call ∈ records) (hopens : call.Opens fn corr) :
    corr ∈ records.filterMap TracedRecord.callCorr :=
  List.mem_filterMap.2 ⟨call, hcall, hopens.callCorr⟩

/-- An id that was returned was opened. -/
theorem Correlated.opened_of_returned (h : s.Correlated) {corr : Bytes}
    (hreturned : corr ∈ s.handed.filterMap TracedRecord.returnCorr) :
    corr ∈ s.handed.filterMap TracedRecord.callCorr := by
  obtain ⟨traced, htraced, hcorr⟩ := List.mem_filterMap.1 hreturned
  obtain ⟨hne, fn, value, hrecord⟩ := TracedRecord.returnCorr_eq_some.1 hcorr
  obtain ⟨before, after, hsplit⟩ := List.append_of_mem htraced
  obtain ⟨call, hcall, hopens, -⟩ := h.stitched.returned hsplit hrecord hne
  exact mem_callCorr (hsplit ▸ List.mem_append_left _ hcall) hopens

/-- The next id is new. -/
theorem Correlated.fresh (h : s.Correlated) :
    corrText s.nextCorr.toNat ∉ s.handed.filterMap TracedRecord.callCorr := by
  intro hmem
  obtain ⟨n, hlt, heq⟩ := h.numbered _ hmem
  exact absurd (corrText_injective heq) (by omega)

/-- What a record more or less leaves as it was, whatever the record is. -/
theorem Correlated.grows_with (h : s.Correlated) (hgrows : Grows s s' more)
    (hstitched : Stitched s'.handed)
    (hcalls : more.filterMap TracedRecord.callCorr = [])
    (hreturns : ∀ thread, ∀ frame ∈ s.callFrames thread,
      frame.corr ∉ more.filterMap TracedRecord.returnCorr) : s'.Correlated where
  stitched := hstitched
  kept call hcall fn corr hopens := by
    rw [hgrows.handed] at hcall
    rcases List.mem_append.1 hcall with hold | hnew
    · exact h.kept call hold fn corr hopens
    · exact absurd (mem_callCorr hnew hopens) (by rw [hcalls]; exact List.not_mem_nil)
  numbered corr hcorr := by
    rw [hgrows.handed, List.filterMap_append, hcalls, List.append_nil] at hcorr
    rw [hgrows.nextCorr]
    exact h.numbered corr hcorr
  opened thread frame hframe := by
    rw [hgrows.callFrames] at hframe
    obtain ⟨call, hcall, hopens, hlabel⟩ := h.opened thread frame hframe
    refine ⟨call, ?_, hopens, hgrows.labelled thread _ hlabel⟩
    rw [hgrows.handed]
    exact List.mem_append_left _ hcall
  waiting thread frame hframe := by
    rw [hgrows.callFrames] at hframe
    rw [hgrows.handed, List.filterMap_append, List.mem_append, not_or]
    exact ⟨h.waiting thread frame hframe, hreturns thread frame hframe⟩
  apart thread := by
    rw [hgrows.callFrames]
    exact h.apart thread
  own thread thread' frame frame' hframe hframe' := by
    rw [hgrows.callFrames] at hframe hframe'
    exact h.own thread thread' frame frame' hframe hframe'

theorem Stitched.quiet {records : List TracedRecord} (h : Stitched records)
    (hquiet : ∀ traced ∈ more, Quiet traced) : Stitched (records ++ more) := by
  induction more generalizing records with
  | nil => simpa using h
  | cons traced rest ih =>
    obtain ⟨hcall, hreturn, hcallback⟩ := hquiet traced List.mem_cons_self
    have hone : Stitched (records ++ [traced]) := by
      refine h.concat (by simp [hcall]) (by simp [hreturn]) (fun fn corr value hrecord hne ↦ ?_)
        fun fn corr result payload hrecord ↦ absurd hrecord (hcallback fn corr result payload)
      exact absurd (TracedRecord.returnCorr_eq_some.2 ⟨hne, fn, value, hrecord⟩) (by simp [hreturn])
    have hall := ih hone fun other hother ↦ hquiet other (List.mem_cons_of_mem _ hother)
    rwa [List.append_assoc] at hall

theorem Correlated.murmurs (h : s.Correlated) (hmurmurs : Murmurs s s') : s'.Correlated := by
  obtain ⟨more, hgrows, hquiet⟩ := hmurmurs
  refine h.grows_with hgrows ?_ ?_ fun thread frame _ hmem ↦ ?_
  · rw [hgrows.handed]
    exact Stitched.quiet h.stitched hquiet
  · exact List.filterMap_eq_nil_iff.2 fun traced htraced ↦ (hquiet traced htraced).1
  · obtain ⟨traced, htraced, hcorr⟩ := List.mem_filterMap.1 hmem
    rw [(hquiet traced htraced).2.1] at hcorr
    cases hcorr

/-- A result is announced under an id that is on record. -/
theorem Correlated.callback (h : s.Correlated) {fn corr : Bytes}
    (hopened : ∃ call ∈ s.handed, call.Opens fn corr) (result : TraceResultCode)
    (payload : List TraceField) :
    (s.recordCallback thread now fn corr result payload).Correlated ∧
      ∃ more, Grows s (s.recordCallback thread now fn corr result payload) more := by
  rw [recordCallback]
  split
  · exact ⟨h, [], Grows.refl s⟩
  · obtain ⟨env, hgrows, -⟩ := grows_hand s (if result.code ≠ 0 then .errors else .lifecycle)
      (.ofCallback fn corr result payload) thread now
    refine ⟨h.grows_with hgrows ?_ rfl fun _ _ _ ↦ List.not_mem_nil, _, hgrows⟩
    rw [hgrows.handed]
    refine h.stitched.concat (fun corr hcorr ↦ by cases hcorr) (fun corr hcorr ↦ by cases hcorr)
      (fun fn corr value hrecord ↦ by cases hrecord) fun fn' corr' result' payload' hrecord ↦ ?_
    cases hrecord
    exact hopened

/-- What a call of its own correlation does as it begins. -/
structure Begins (s : Tracer) (thread : ThreadId) (fn : Bytes) (s' : Tracer) : Prop where
  enabled : s'.enabled = s.enabled
  nextCorr : s'.nextCorr = s.nextCorr + 1
  callFrames : s'.callFrames = Function.update s.callFrames thread
    (s.callFrames thread ++ [⟨fn, corrText s.nextCorr.toNat⟩])
  labelled : ∀ (thread : ThreadId) (label : Bytes), s.threadLabels[thread]? = some label →
    s'.threadLabels[thread]? = some label
  handed : ∃ call : TracedRecord, s'.handed = s.handed ++ [call] ∧ call.level = .lifecycle ∧
    call.Opens fn (corrText s.nextCorr.toNat) ∧ s'.threadLabels[thread]? = some call.env.tid

theorem begins (henabled : s.enabled = true) (fn : Bytes) (api : Int32) (args : List TraceField) :
    (s.beginAsyncCall thread now fn api args).1 = corrText s.nextCorr.toNat ∧
      Begins s thread fn (s.beginAsyncCall thread now fn api args).2 := by
  have hne := corrText_ne_nil s.nextCorr.toNat
  have hbegun : s.beginAsyncCall thread now fn api args = (corrText s.nextCorr.toNat,
      (({ s with nextCorr := s.nextCorr + 1 } : Tracer).setFrames thread
        (s.callFrames thread ++ [⟨fn, corrText s.nextCorr.toNat⟩])).hand .lifecycle
          (.ofCall fn api (corrText s.nextCorr.toNat) args) thread now) := by
    simp only [beginAsyncCall, recordCall, henabled, not_true, if_false, setFrames, if_neg hne]
  rw [hbegun]
  obtain ⟨env, hgrows, hlabel⟩ := grows_hand (({ s with
    nextCorr := s.nextCorr + 1 } : Tracer).setFrames thread
      (s.callFrames thread ++ [⟨fn, corrText s.nextCorr.toNat⟩])) .lifecycle
      (.ofCall fn api (corrText s.nextCorr.toNat) args) thread now
  exact ⟨rfl, hgrows.enabled, hgrows.nextCorr, hgrows.callFrames, hgrows.labelled,
    _, hgrows.handed, rfl, ⟨hne, api, args, rfl⟩, hlabel⟩

/-- Every frame is an old one, or that of the new call on its thread. -/
theorem Begins.frame_cases {fn : Bytes} (hbegins : Begins s thread fn s') {other : ThreadId}
    {frame : CallFrame} (hframe : frame ∈ s'.callFrames other) : frame ∈ s.callFrames other ∨
      other = thread ∧ frame = ⟨fn, corrText s.nextCorr.toNat⟩ := by
  rw [hbegins.callFrames, Function.update_apply] at hframe
  split at hframe
  · rename_i hother
    subst hother
    rcases List.mem_append.1 hframe with hold | hnew
    · exact .inl hold
    · exact .inr ⟨rfl, List.mem_singleton.1 hnew⟩
  · exact .inl hframe

/-- No frame has the next id. -/
theorem Correlated.frame_ne (h : s.Correlated) {other : ThreadId} {frame : CallFrame}
    (hframe : frame ∈ s.callFrames other) : frame.corr ≠ corrText s.nextCorr.toNat := by
  intro hsame
  obtain ⟨call, hcall, hopens, -⟩ := h.opened other frame hframe
  exact h.fresh (hsame ▸ mem_callCorr hcall hopens)

/-- **A call begins.** -/
theorem Correlated.begun (h : s.Correlated) (hcount : s.nextCorr.toNat + 1 < 2 ^ 64) {fn : Bytes}
    (hbegins : Begins s thread fn s') : s'.Correlated := by
  obtain ⟨call, hhanded, hlevel, hopens, hlabel⟩ := hbegins.handed
  have hnext : s'.nextCorr.toNat = s.nextCorr.toNat + 1 := by
    rw [hbegins.nextCorr]
    exact Answered.toNat_clock_succ rfl hcount
  have hcall : call.returnCorr = none := by
    obtain ⟨-, api, args, hrecord⟩ := hopens
    simp [TracedRecord.returnCorr, hrecord]
  refine ⟨?_, fun other hother fn' corr' hother' ↦ ?_, fun corr hcorr ↦ ?_,
    fun other frame hframe ↦ ?_, fun other frame hframe ↦ ?_, fun other ↦ ?_,
    fun other other' frame frame' hframe hframe' hsame ↦ ?_⟩
  · obtain ⟨-, api, args, hrecord⟩ := id hopens
    rw [hhanded]
    refine h.stitched.concat (fun corr hcorr ↦ ?_) (by simp [hcall])
      (by simp [hrecord]) (by simp [hrecord])
    rw [hopens.callCorr] at hcorr
    cases hcorr
    exact h.fresh
  · rw [hhanded] at hother
    rcases List.mem_append.1 hother with hold | hnew
    · exact h.kept other hold fn' corr' hother'
    · rw [List.mem_singleton.1 hnew]
      exact hlevel
  · rw [hhanded, List.filterMap_append, List.mem_append] at hcorr
    rw [hnext]
    rcases hcorr with hold | hnew
    · obtain ⟨n, hlt, hn⟩ := h.numbered corr hold
      exact ⟨n, by omega, hn⟩
    · rw [List.filterMap_cons, hopens.callCorr] at hnew
      exact ⟨s.nextCorr.toNat, by omega, List.mem_singleton.1 hnew⟩
  · rcases hbegins.frame_cases hframe with hold | ⟨rfl, rfl⟩
    · obtain ⟨found, hfound, hframeOpens, htid⟩ := h.opened other frame hold
      exact ⟨found, hhanded ▸ List.mem_append_left _ hfound, hframeOpens,
        hbegins.labelled other _ htid⟩
    · exact ⟨call, hhanded ▸ List.mem_append_right _ List.mem_cons_self, hopens, hlabel⟩
  · rw [hhanded, List.filterMap_append, List.mem_append, not_or]
    refine ⟨?_, by simp [hcall]⟩
    rcases hbegins.frame_cases hframe with hold | ⟨rfl, rfl⟩
    · exact h.waiting other frame hold
    · exact fun hreturned ↦ h.fresh (h.opened_of_returned hreturned)
  · rw [hbegins.callFrames, Function.update_apply]
    split
    · rw [List.map_append, List.nodup_append']
      refine ⟨h.apart thread, List.nodup_singleton _, fun corr hold hnew ↦ ?_⟩
      obtain ⟨frame, hframe, rfl⟩ := List.mem_map.1 hold
      exact h.frame_ne hframe (List.mem_singleton.1 hnew)
    · exact h.apart other
  · rcases hbegins.frame_cases hframe with hold | ⟨rfl, rfl⟩ <;>
      rcases hbegins.frame_cases hframe' with hold' | ⟨rfl, rfl⟩
    · exact h.own other other' frame frame' hold hold' hsame
    · exact absurd hsame (h.frame_ne hold)
    · exact absurd hsame.symm (h.frame_ne hold')
    · rfl

/-- The newest frame is dropped, when it is its own. -/
theorem dropFrame_concat (frames : List CallFrame) (frame : CallFrame) :
    dropFrame frame.corr (frames ++ [frame]) = frames := by
  rw [dropFrame, List.reverse_append, List.reverse_singleton, List.singleton_append,
    List.eraseP_cons_of_pos (by simp), List.reverse_reverse]

/-- **A call returns**, the innermost of its thread. -/
theorem Correlated.returns (h : s.Correlated) (henabled : s.enabled = true) {frame : CallFrame}
    {frames : List CallFrame} (hframes : s.callFrames thread = frames ++ [frame])
    (value : TraceReturn) :
    (s.endAsyncCall thread now frame.fn frame.corr value).Correlated ∧
      (s.endAsyncCall thread now frame.fn frame.corr value).enabled = true ∧
      (s.endAsyncCall thread now frame.fn frame.corr value).callFrames =
        Function.update s.callFrames thread frames ∧
      ∀ call ∈ s.handed, call ∈ (s.endAsyncCall thread now frame.fn frame.corr value).handed := by
  have hmem : frame ∈ s.callFrames thread := hframes ▸ List.mem_append_right _ List.mem_cons_self
  obtain ⟨call, hcall, hopens, hlabel⟩ := h.opened thread frame hmem
  rw [endAsyncCall, if_neg hopens.1, hframes, dropFrame_concat, recordReturn,
    if_neg (by simp [setFrames, henabled])]
  dsimp only
  -- The frame goes first, then the record is handed over.
  have hfewer : ∀ other, List.Sublist (Function.update s.callFrames thread frames other)
      (s.callFrames other) := by
    intro other
    rw [Function.update_apply]
    split
    · rename_i hother
      rw [hother, hframes]
      exact List.sublist_append_left frames [frame]
    · exact List.Sublist.refl _
  have hleft : (s.setFrames thread frames).Correlated :=
    ⟨h.stitched, h.kept, h.numbered, fun other found hfound ↦ h.opened other found
        ((hfewer other).subset hfound),
      fun other found hfound ↦ h.waiting other found ((hfewer other).subset hfound),
      fun other ↦ (h.apart other).sublist ((hfewer other).map _),
      fun other other' found found' hfound hfound' ↦ h.own other other' found found'
        ((hfewer other).subset hfound) ((hfewer other').subset hfound')⟩
  obtain ⟨env, hgrows, htid⟩ := grows_hand (s.setFrames thread frames)
    (if value.type = .rResult ∧ value.result.code ≠ 0 then .errors
      else if frame.corr = [] then .full else .lifecycle)
    (.ofReturn frame.fn frame.corr value) thread now
  refine ⟨hleft.grows_with hgrows ?_ rfl fun other found hfound hclosed ↦ ?_,
    hgrows.enabled.trans henabled, hgrows.callFrames,
    fun other hother ↦ hgrows.handed ▸ List.mem_append_left _ hother⟩
  · rw [hgrows.handed]
    refine hleft.stitched.concat (fun corr hcorr ↦ by cases hcorr) (fun corr hcorr ↦ ?_)
      (fun fn corr value' hrecord _ ↦ ?_) (by simp)
    · obtain ⟨-, fn, value', hrecord⟩ := TracedRecord.returnCorr_eq_some.1 hcorr
      cases hrecord
      exact h.waiting thread frame hmem
    · cases hrecord
      refine ⟨call, hcall, hopens, ?_⟩
      have hsame := hgrows.labelled thread _ hlabel
      rw [htid] at hsame
      exact (Option.some.inj hsame).symm
  · -- Nobody else waits under the id that was closed.
    have hcorr : found.corr = frame.corr := by
      obtain ⟨traced, htraced, hclosed⟩ := List.mem_filterMap.1 hclosed
      rw [List.mem_singleton.1 htraced] at hclosed
      obtain ⟨-, fn, value', hrecord⟩ := TracedRecord.returnCorr_eq_some.1 hclosed
      injection hrecord with _ hsame _
      exact hsame.symm
    have hthread : other = thread :=
      h.own other thread found frame ((hfewer other).subset hfound) hmem hcorr
    subst hthread
    have hapart := h.apart other
    rw [hframes, List.map_append, List.nodup_append'] at hapart
    have hfound' : found ∈ frames := by
      simpa [setFrames] using hfound
    exact hapart.2.2 (List.mem_map_of_mem hfound') (hcorr ▸ List.mem_cons_self)

theorem correlated_started (enabled : Bool) (pid : UInt64) (instanceLabel : Bytes)
    (labels : LabelRegistry) :
    ({ enabled, pid, instanceLabel, labels } : Tracer).Correlated where
  stitched := .nil
  kept call hcall := by cases hcall
  numbered corr hcorr := by cases hcorr
  opened thread frame hframe := by cases hframe
  waiting thread frame hframe := by cases hframe
  apart thread := List.nodup_nil
  own thread thread' frame frame' hframe := by cases hframe

end Tracer

/-! ## Whole runs -/

namespace Tracing

variable {s s' : Tracing}

/-- The frame that a call leaves on its thread. -/
def frameOf (scope : TraceScope) : CallFrame := ⟨scope.fn, scope.corr⟩

/-- The calls under way that complete later, the outermost first. -/
def openCalls (scopes : List TraceScope) : List CallFrame :=
  ((scopes.filter fun scope ↦ scope.active && scope.mode = .async).map frameOf).reverse

/-- Each thread's frames are its open calls, and each result that waits belongs to a call. -/
structure Woven (s : Tracing) : Prop where
  correlated : s.tracer.Correlated
  frames : ∀ thread, s.tracer.callFrames thread = openCalls (s.scopes thread)
  active : ∀ thread, ∀ scope ∈ s.scopes thread, scope.active = s.tracer.enabled
  queued : ∀ stamp ∈ s.queued, stamp.fn ≠ [] →
    ∃ call ∈ s.tracer.handed, call.Opens stamp.fn stamp.corr

theorem openCalls_cons (scope : TraceScope) (outer : List TraceScope) :
    openCalls (scope :: outer) = openCalls outer ++
      if scope.active && scope.mode = .async then [frameOf scope] else [] := by
  rw [openCalls, List.filter_cons]
  split
  · rw [List.map_cons, List.reverse_cons]
    rfl
  · rw [List.append_nil]
    rfl

/-- The tracer took something down that changes no call. -/
theorem Woven.murmurs (h : s.Woven) {tracer : Tracer} (hmurmurs : s.tracer.Murmurs tracer) :
    ({ s with tracer := tracer } : Tracing).Woven := by
  obtain ⟨more, hgrows, -⟩ := id hmurmurs
  refine ⟨h.correlated.murmurs hmurmurs, fun thread ↦ ?_, fun thread scope hscope ↦ ?_,
    fun stamp hstamp hfn ↦ ?_⟩
  · rw [← h.frames thread]
    exact congrFun hgrows.callFrames thread
  · exact (h.active thread scope hscope).trans hgrows.enabled.symm
  · obtain ⟨call, hcall, hopens⟩ := h.queued stamp hstamp hfn
    exact ⟨call, hgrows.handed ▸ List.mem_append_left _ hcall, hopens⟩

/-- A scope that has no frame is put on a thread, or taken off it. -/
theorem Woven.rescoped (h : s.Woven) {thread : ThreadId} {scopes : List TraceScope}
    (hopen : openCalls scopes = openCalls (s.scopes thread))
    (hactive : ∀ scope ∈ scopes, scope.active = s.tracer.enabled) :
    ({ s with scopes := Function.update s.scopes thread scopes } : Tracing).Woven := by
  refine ⟨h.correlated, fun other ↦ ?_, fun other scope hscope ↦ ?_, h.queued⟩
  · dsimp only
    rw [h.frames other, Function.update_apply]
    split
    · rename_i hother
      rw [hopen, hother]
    · rfl
  · dsimp only at hscope
    rw [Function.update_apply] at hscope
    split at hscope
    · exact hactive scope hscope
    · exact h.active other scope hscope

/-- A call begins. -/
theorem Woven.enter (h : s.Woven) (hcount : s.tracer.nextCorr.toNat + 1 < 2 ^ 64)
    (thread : ThreadId) (now : UInt64) (fn : Bytes) (api : Int32) (args : List TraceField)
    (mode : CallMode) : (s.enter thread now fn api args mode).Woven := by
  have hscope (corr : Bytes) : ∀ scope ∈ (⟨fn, corr, returnVoid, mode, s.tracer.enabled⟩ ::
      s.scopes thread : List TraceScope), scope.active = s.tracer.enabled := by
    intro scope hmem
    rcases List.mem_cons.1 hmem with rfl | hold
    · rfl
    · exact h.active thread scope hold
  rw [Tracing.enter.eq_def]
  dsimp only
  split
  · rename_i hoff
    refine h.rescoped ?_ (hscope [])
    rw [openCalls_cons, if_neg (by simpa using fun hon ↦ absurd hon hoff), List.append_nil]
  · rename_i hon
    have henabled : s.tracer.enabled = true := by simpa using hon
    cases mode with
    | sync =>
      have hcall := Tracer.murmurs_call s.tracer thread now fn api args
      obtain ⟨more, hgrows, -⟩ := id hcall
      refine (h.murmurs hcall).rescoped ?_ fun scope hmem ↦
        (hscope [] scope hmem).trans hgrows.enabled.symm
      rw [openCalls_cons, if_neg (by simp), List.append_nil]
    | async =>
      have hbegun : _ ∧ Tracer.Begins s.tracer thread fn
          (s.tracer.beginAsyncCall thread now fn api args).2 := Tracer.begins henabled fn api args
      obtain ⟨hcorr, hbegins⟩ := hbegun
      obtain ⟨call, hhanded, -⟩ := hbegins.handed
      refine ⟨h.correlated.begun hcount hbegins, fun other ↦ ?_, fun other scope hmem ↦ ?_,
        fun stamp hstamp hfn ↦ ?_⟩
      · dsimp only
        rw [hbegins.callFrames, Function.update_apply, Function.update_apply]
        split
        · rw [openCalls_cons, if_pos (by simpa using henabled), h.frames thread, hcorr]
          rfl
        · exact h.frames other
      · dsimp only at hmem ⊢
        rw [hbegins.enabled]
        rw [Function.update_apply] at hmem
        split at hmem
        · exact hscope _ scope hmem
        · exact h.active other scope hmem
      · obtain ⟨opener, hopener, hopens⟩ := h.queued stamp hstamp hfn
        exact ⟨opener, hhanded ▸ List.mem_append_left _ hopener, hopens⟩

/-- The innermost call of a thread ends. -/
theorem Woven.leave (h : s.Woven) {thread : ThreadId} {now : UInt64}
    (hleave : s.leave thread now = some s') : s'.Woven := by
  rw [Tracing.leave] at hleave
  split at hleave
  · cases hleave
  · rename_i scope outer hscopes
    cases hleave
    have houter : ∀ other ∈ outer, other.active = s.tracer.enabled := fun other hother ↦
      h.active thread other (hscopes ▸ List.mem_cons_of_mem _ hother)
    have hsame (hclosed : ¬ (scope.active && scope.mode = .async) = true) :
        openCalls outer = openCalls (s.scopes thread) := by
      rw [hscopes, openCalls_cons, if_neg hclosed, List.append_nil]
    by_cases hactive : scope.active = true
    · rw [if_neg (not_not.2 hactive)]
      have henabled : s.tracer.enabled = true :=
        (h.active thread scope (hscopes ▸ List.mem_cons_self)).symm.trans hactive
      cases hmode : scope.mode with
      | sync =>
        have hreturn := Tracer.murmurs_return s.tracer thread now scope.fn scope.value
        obtain ⟨more, hgrows, -⟩ := id hreturn
        exact (h.murmurs hreturn).rescoped (hsame (by simp [hmode])) fun other hother ↦
          (houter other hother).trans hgrows.enabled.symm
      | async =>
        have hframes : s.tracer.callFrames thread = openCalls outer ++ [frameOf scope] := by
          rw [h.frames thread, hscopes, openCalls_cons, if_pos (by simp [hactive, hmode])]
        have hreturned : (s.tracer.endAsyncCall thread now scope.fn scope.corr
          scope.value).Correlated ∧ _ :=
          h.correlated.returns henabled hframes scope.value
        obtain ⟨hcorrelated, hstill, hleft, hhanded⟩ := hreturned
        refine ⟨hcorrelated, fun other ↦ ?_, fun other found hfound ↦ ?_,
          fun stamp hstamp hfn ↦ ?_⟩
        · refine (congrFun hleft other).trans ?_
          dsimp only
          rw [Function.update_apply, Function.update_apply]
          split
          · rfl
          · exact h.frames other
        · dsimp only at hfound
          refine Eq.trans ?_ (henabled.trans hstill.symm)
          rw [Function.update_apply] at hfound
          split at hfound
          · exact houter found hfound
          · exact h.active other found hfound
        · obtain ⟨call, hcall, hopens⟩ := h.queued stamp hstamp hfn
          exact ⟨call, hhanded call hcall, hopens⟩
    · rw [if_pos hactive]
      exact h.rescoped (hsame (by simp [hactive])) houter

/-- **One step**, on whatever thread. -/
theorem Woven.step (h : s.Woven) {i : Input} (hcount : s.countsOn i) (hstep : s.step i = some s') :
    s'.Woven := by
  cases i with
  | enter thread now fn api args mode =>
    cases hstep
    exact h.enter hcount thread now fn api args mode
  | returns thread value =>
    cases hstep
    rw [Tracing.returns]
    split
    · exact h
    · rename_i scope outer hscopes
      refine h.rescoped ?_ fun other hother ↦ ?_
      · rw [hscopes, openCalls_cons, openCalls_cons]
        rfl
      · rcases List.mem_cons.1 hother with rfl | hold
        · exact h.active thread scope (hscopes ▸ List.mem_cons_self)
        · exact h.active thread other (hscopes ▸ List.mem_cons_of_mem _ hold)
  | leave thread now => exact h.leave hstep
  | addCallback thread =>
    cases hstep
    refine ⟨h.correlated, h.frames, h.active, fun stamp hstamp hfn ↦ ?_⟩
    rcases List.mem_append.1 hstamp with hold | hnew
    · exact h.queued stamp hold hfn
    · obtain rfl := List.mem_singleton.1 hnew
      split at hfn
      · rename_i hon
        rw [if_pos hon]
        dsimp only [Tracer.pendingFn, Tracer.pendingCorr] at hfn ⊢
        cases hpending : s.tracer.pending thread with
        | none => simp [hpending] at hfn
        | some frame =>
          obtain ⟨call, hcall, hopens, -⟩ :=
            h.correlated.opened thread frame (List.mem_of_getLast? hpending)
          exact ⟨call, hcall, hopens⟩
      · exact absurd rfl hfn
  | complete thread now index result payload =>
    rw [Tracing.step, Tracing.complete] at hstep
    split at hstep
    · cases hstep
    · rename_i stamp hstamp
      cases hstep
      have hmem := List.mem_of_getElem? hstamp
      have hrest : ∀ other ∈ s.queued.eraseIdx index, other ∈ s.queued := fun other hother ↦
        List.mem_of_mem_eraseIdx hother
      -- No record, and a result fewer.
      have hsilent : ({ s with queued := s.queued.eraseIdx index } : Tracing).Woven :=
        ⟨h.correlated, h.frames, h.active, fun other hother ↦ h.queued other (hrest other hother)⟩
      cases result with
      | none => exact hsilent
      | some code =>
        by_cases hfn : stamp.fn = []
        · dsimp only
          rw [if_pos hfn]
          exact hsilent
        · dsimp only
          rw [if_neg hfn]
          have hannounced : (s.tracer.recordCallback thread now stamp.fn stamp.corr code
              payload).Correlated ∧ _ := h.correlated.callback
                (h.queued stamp hmem hfn) code payload
          obtain ⟨hcorrelated, more, hgrows⟩ := hannounced
          refine ⟨hcorrelated, fun other ↦ ?_, fun other scope hscope ↦ ?_,
            fun other hother hfn' ↦ ?_⟩
          · exact (congrFun hgrows.callFrames other).trans (h.frames other)
          · exact (h.active other scope hscope).trans hgrows.enabled.symm
          · obtain ⟨call, hcall, hopens⟩ := h.queued other (hrest other hother) hfn'
            exact ⟨call, hgrows.handed ▸ List.mem_append_left _ hcall, hopens⟩
  | notify thread now event action token fields =>
    cases hstep
    exact h.murmurs (Tracer.murmurs_notify s.tracer thread now event action token fields)
  | net thread now event fields failure =>
    cases hstep
    exact h.murmurs (Tracer.murmurs_net s.tracer thread now event fields failure)
  | search thread now reason peer count failure =>
    cases hstep
    exact h.murmurs (Tracer.murmurs_search s.tracer thread now reason peer count failure)
  | ownRecord thread now =>
    cases hstep
    exact h.murmurs (Tracer.grows_envelope s.tracer thread now).1.murmurs

theorem woven_started (enabled : Bool) (pid : UInt64) (instanceLabel : Bytes) (maxPerKind : Nat) :
    (started enabled pid instanceLabel maxPerKind).Woven where
  correlated := Tracer.correlated_started enabled pid instanceLabel _
  frames thread := rfl
  active thread scope hscope := by cases hscope
  queued stamp hstamp := by cases hstamp

end Tracing

/-! ## What becomes of them in the sink -/

/-- A sink is handed records, each with the envelope of a rotation on the way. -/
def TraceSink.takeAll (sink : TraceSink) (records : List (TracedRecord × TraceEnvelope)) :
    TraceSink :=
  records.foldl (fun sink p ↦ sink.write p.1.level (p.1.record.serialize p.1.env) p.2) sink

theorem TraceSink.takeAll_filter (sink : TraceSink)
    (records : List (TracedRecord × TraceEnvelope)) :
    sink.takeAll records =
      sink.takeAll (records.filter fun p ↦ p.1.level.rank ≤ sink.level.rank) := by
  induction records generalizing sink with
  | nil => rfl
  | cons p records ih =>
    rw [takeAll, List.foldl_cons]
    refine (ih _).trans ?_
    rw [sink.write_level]
    by_cases hkept : p.1.level.rank ≤ sink.level.rank
    · rw [List.filter_cons, if_pos (decide_eq_true hkept)]
      rfl
    · have hsame : sink.write p.1.level (p.1.record.serialize p.1.env) p.2 = sink := by
        rw [write, if_pos (Nat.lt_of_not_le hkept)]
        split <;> rfl
      rw [hsame, List.filter_cons, if_neg (by simpa using hkept)]

/-- **A sink writes of what it is handed what is for its level**: the rest makes no difference to
it. Of these a line is not in the files when its serializer refused it, when it is longer than a
file, or when the sink has stopped; what else becomes of it says `rotation_bounded`. -/
theorem Tracer.takes_written (s : Tracer) (sink : TraceSink)
    {records : List (TracedRecord × TraceEnvelope)} (hrecords : records.map Prod.fst = s.handed) :
    ∃ kept, kept.Sublist records ∧ kept.map Prod.fst = s.written sink.level ∧
      sink.takeAll records = sink.takeAll kept := by
  refine ⟨_, List.filter_sublist, ?_, sink.takeAll_filter records⟩
  rw [Tracer.written, ← hrecords, List.filter_map]
  rfl

namespace Tracing

variable {s : Tracing}

/-- **The records of a call belong together**: at every level that keeps calls, whatever the threads
do in whatever order and however late the results come, an id is opened by one call and closed by
its return, on the same thread, and every result is announced under the id of a call before it.
What is queued on a thread belongs to the innermost call that is open there. -/
theorem calls_stitched {enabled : Bool} {pid : UInt64} {instanceLabel : Bytes} {maxPerKind : Nat}
    (h : Reaches step countsOn (started enabled pid instanceLabel maxPerKind) s)
    {level : TraceLevel}
    (hlevel : TraceLevel.lifecycle.rank ≤ level.rank) :
    Stitched (s.tracer.written level) ∧ ∀ thread, s.tracer.pending thread =
      ((s.scopes thread).find? fun scope ↦ scope.active && scope.mode = .async).map frameOf := by
  have hwoven : s.Woven := h.invariant (woven_started enabled pid instanceLabel maxPerKind)
    fun _ _ _ hwoven hcount hstep ↦ hwoven.step hcount hstep
  refine ⟨hwoven.correlated.stitched.filter fun call hcall fn corr hopens ↦ ?_, fun thread ↦ ?_⟩
  · rw [hwoven.correlated.kept call hcall fn corr hopens]
    exact decide_eq_true hlevel
  · rw [Tracer.pending, hwoven.frames thread, openCalls, List.getLast?_reverse, List.head?_map,
      List.head?_filter]

/-- A call inside another, on one of two threads. -/
def nested : List Input :=
  [.enter 0 1 [65] 1 [] .async, .enter 1 2 [67] 1 [] .async, .enter 0 3 [66] 1 [] .async,
    .addCallback 0, .leave 0 4, .addCallback 0, .leave 1 5,
      .complete 1 6 0 (some {}) [], .leave 0 7]

/-- The result of the inner call has been announced, that of the outer one still waits. -/
theorem calls_stitched_nested : ∃ s : Tracing,
    Reaches step countsOn (started true 1 [] 8) s ∧ s.queued = [⟨[65], corrText 0⟩] ∧
    Stitched (s.tracer.written .lifecycle) := by
  obtain ⟨s, h, hqueued⟩ := exists_reaches step countsOn (started true 1 [] 8)
    (fun s ↦ s.queued = [⟨[65], corrText 0⟩]) nested (by decide +kernel) (by decide +kernel)
  exact ⟨s, h, hqueued, (calls_stitched h (Nat.le_refl _)).1⟩

end Tracing
end EosMesh
