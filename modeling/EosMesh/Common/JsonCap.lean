import EosMesh.Common.JsonText

/-!
# The cap of the JSON writer

`max_bytes` is checked before everything that is written, except before the brackets that close a
container.  So a document passes the cap unnoticed exactly when it ends at it: when its text is
longer, but only by brackets at its end.

* `ok_iff`: with or without a cap, the writer is done exactly with the complete documents whose text
  is within the cap up to the brackets at its end.
* `ok_within_cap_iff`: what has to be true of the calls for the cap to be kept.
-/

set_option autoImplicit false

namespace EosMesh

open Lib

/-- The calls are one complete document. -/
def TellsDocument (calls : List WriterCall) (doc : Json) : Prop :=
  calls.flatMap WriterCall.events = doc.events

theorem ok_writerOf_iff {maxBytes : Nat} {s : Assembly Bytes JsonScalar} :
    (writerOf maxBytes s).ok = true ↔ ∃ doc, s = .complete doc := by
  cases s with
  | complete doc => exact ⟨fun _ ↦ ⟨doc, rfl⟩, fun _ ↦ rfl⟩
  | _ => exact ⟨nofun, nofun⟩

/-- **When the writer is done.** -/
theorem ok_iff (maxBytes : Nat) (calls : List WriterCall) :
    (JsonWriter.run maxBytes calls).ok = true ↔
      ∃ doc, TellsDocument calls doc ∧ Capped maxBytes (unclosed (jsonText doc)) := by
  rw [JsonWriter.run_eq_foldl]
  rcases run_eq maxBytes (calls.flatMap WriterCall.events) with ⟨s, hs, hkept, hrun⟩ | ⟨hfail, hnot⟩
  · rw [hrun, ok_writerOf_iff]
    constructor
    · rintro ⟨doc, rfl⟩
      exact ⟨doc, assemble_eq_complete_iff.1 hs, hkept⟩
    · rintro ⟨doc, htells, -⟩
      exact ⟨doc, Option.some_inj.1 (hs.symm.trans (assemble_eq_complete_iff.2 htells))⟩
  · constructor
    · intro hok
      rw [JsonWriter.ok, hfail] at hok
      cases hok
    · rintro ⟨doc, htells, hcap⟩
      exact absurd hcap (hnot _ (assemble_eq_complete_iff.2 htells))

/-- What it has put out then is the text of the document. -/
theorem out_of_ok {maxBytes : Nat} {calls : List WriterCall} {doc : Json}
    (htells : TellsDocument calls doc) (hok : (JsonWriter.run maxBytes calls).ok = true) :
    (JsonWriter.run maxBytes calls).out = jsonText doc := by
  rw [JsonWriter.run_eq_foldl] at hok ⊢
  rcases run_eq maxBytes (calls.flatMap WriterCall.events) with ⟨s, hs, -, hrun⟩ | ⟨hfail, -⟩
  · cases hs.symm.trans (assemble_eq_complete_iff.2 htells)
    rw [hrun]
    rfl
  · rw [JsonWriter.ok, hfail] at hok
    cases hok

/-- The cap is kept unless the calls are a document whose text passes it by nothing but brackets at
its end. -/
theorem ok_within_cap_iff (maxBytes : Nat) (hcap : 0 < maxBytes) (calls : List WriterCall) :
    ((JsonWriter.run maxBytes calls).ok = true →
      (JsonWriter.run maxBytes calls).out.length ≤ maxBytes) ↔
    ¬ ∃ doc, TellsDocument calls doc ∧ maxBytes < (jsonText doc).length ∧
      (unclosed (jsonText doc)).length ≤ maxBytes := by
  constructor
  · rintro hkept ⟨doc, htells, hlong, hshort⟩
    have hok := (ok_iff maxBytes calls).2 ⟨doc, htells, .inr hshort⟩
    have hout := hkept hok
    rw [out_of_ok htells hok] at hout
    omega
  · intro hnot hok
    obtain ⟨doc, htells, hshort⟩ := (ok_iff maxBytes calls).1 hok
    rw [out_of_ok htells hok]
    by_contra hlong
    exact hnot ⟨doc, htells, not_le.1 hlong, hshort.resolve_left (by omega)⟩

/-- An empty object, with room for both of its brackets, is finished and within the cap. -/
theorem ok_within_cap_object : (JsonWriter.run 2 [.beginObject, .endObject]).ok = true ∧
    (JsonWriter.run 2 [.beginObject, .endObject]).out.length ≤ 2 := by
  have hok : (JsonWriter.run 2 [.beginObject, .endObject]).ok = true := by decide
  refine ⟨hok, (ok_within_cap_iff 2 (by decide) _).2 ?_ hok⟩
  rintro ⟨doc, htells, hlong, -⟩
  obtain rfl : (.object [] : Json) = doc := by
    cases assemble_eq_complete_iff.2 htells
    rfl
  revert hlong
  decide

/-- With room for one of them, the writer is done with two. -/
theorem ok_past_cap : ¬ ∀ maxBytes, 0 < maxBytes → ∀ calls,
    (JsonWriter.run maxBytes calls).ok = true →
      (JsonWriter.run maxBytes calls).out.length ≤ maxBytes := by
  intro h
  have hpast := h 1 (by decide) [.beginObject, .endObject] (by decide)
  revert hpast
  decide

end EosMesh
