import Mathlib.Data.List.TakeWhile
import EosMesh.Lib.Codec

/-!
# Handing a text out

A C interface hands a text out by copying it, with a zero behind it, into a buffer of its caller.
The caller says how long its buffer is and is told how long it has to be.

* `textOut` is such a call, as it computes with the caller's 32-bit length.
* `Answers` is the contract: with too little room the call says how much it takes and writes
  nothing, and with enough it writes the whole text and leaves what is behind it.  `answers_textOut`
  says when the contract is kept, `Answers.reads` that the text is what is read back, and
  `Answers.twice` that asking for the length and then for the text works.
-/

set_option autoImplicit false

namespace EosMesh
namespace Lib

variable {ρ : Type}

/-- `memcpy` to the front of a buffer, or `none` past its end. -/
def overwrite (buffer data : Bytes) : Option Bytes :=
  if data.length ≤ buffer.length then some (data ++ buffer.drop data.length) else none

/-- The text a buffer holds, up to its first zero. -/
def cString (buffer : Bytes) : Bytes := buffer.takeWhile (· ≠ 0)

theorem cString_text {text : Bytes} (htext : (0 : UInt8) ∉ text) (rest : Bytes) :
    cString (text ++ 0 :: rest) = text := by
  have hall : ∀ byte ∈ text, decide (byte ≠ 0) = true := by
    intro byte hbyte
    exact decide_eq_true fun hzero ↦ htext (hzero ▸ hbyte)
  rw [cString, List.takeWhile_append_of_pos hall]
  simp

/-- What a call answers, and what it leaves in its caller's length and buffer. -/
structure TextOut (ρ : Type) where
  result : ρ
  length : Int32
  buffer : Bytes
  deriving DecidableEq, Repr

/-- `static_cast<int32_t>(size) + 1`, or `none` where that overflows. -/
def lengthNeeded (size : Nat) : Option Int32 :=
  if Int32.ofNat size = Int32.maxValue then none else some (Int32.ofNat size + 1)

/-- A call that hands `text` out; `copied` is what it copies, by the length it takes. -/
def textOut (fits tooShort : ρ) (copied : Int32 → Option Bytes) (text buffer : Bytes)
    (length : Int32) : Option (TextOut ρ) := do
  let needed ← lengthNeeded text.length
  if length < needed then return ⟨tooShort, needed, buffer⟩
  let written ← overwrite buffer (← copied needed)
  return ⟨fits, needed, written⟩

/-- The length a text takes, with its zero. -/
def room (text : Bytes) : Int32 := Int32.ofNat (text.length + 1)

/-- A call hands `text` out as its caller expects, if it does not say that the buffer is
longer than it is. -/
structure Answers (fits tooShort : ρ) (text : Bytes)
    (call : Bytes → Int32 → Option (TextOut ρ)) : Prop where
  short : ∀ (buffer : Bytes) (length : Int32), length.toInt ≤ text.length →
    call buffer length = some ⟨tooShort, room text, buffer⟩
  whole : ∀ (buffer : Bytes) (length : Int32), text.length < length.toInt →
    length.toInt ≤ buffer.length →
      call buffer length = some ⟨fits, room text, text ++ 0 :: buffer.drop (text.length + 1)⟩

variable {fits tooShort : ρ} {text : Bytes} {call : Bytes → Int32 → Option (TextOut ρ)}

theorem toInt_room (hsize : text.length + 1 < 2 ^ 31) : (room text).toInt = text.length + 1 :=
  Int32.toInt_ofNat_of_lt hsize

theorem lengthNeeded_eq (hsize : text.length + 1 < 2 ^ 31) :
    lengthNeeded text.length = some (room text) := by
  have hbelow : (Int32.ofNat text.length).toInt = text.length :=
    Int32.toInt_ofNat_of_lt (Nat.lt_of_succ_lt hsize)
  have hmax : Int32.maxValue.toInt = 2 ^ 31 - 1 := by decide
  rw [lengthNeeded, if_neg, room, Int32.ofNat_add]
  · rfl
  · intro heq
    rw [heq, hmax] at hbelow
    omega

/-- The contract is kept for every text whose length with its zero is one of the caller's
lengths. -/
theorem answers_textOut {copied : Int32 → Option Bytes} (hsize : text.length + 1 < 2 ^ 31)
    (hcopied : copied (room text) = some (text ++ [0])) :
    Answers fits tooShort text (textOut fits tooShort copied text) := by
  have hroom := toInt_room hsize
  refine ⟨fun buffer length hlength ↦ ?_, fun buffer length hlength hbuffer ↦ ?_⟩
  · have hshort : length < room text := by
      rw [Int32.lt_iff_toInt_lt]
      omega
    simp [textOut, lengthNeeded_eq hsize, hshort]
  · have henough : ¬ length < room text := by
      rw [Int32.lt_iff_toInt_lt]
      omega
    have hwritten : overwrite buffer (text ++ [0]) =
        some (text ++ 0 :: buffer.drop (text.length + 1)) := by
      rw [overwrite, List.length_append, List.length_singleton, if_pos (by omega),
        List.append_assoc, List.singleton_append]
    simp [textOut, lengthNeeded_eq hsize, henough, hcopied, hwritten]

/-- What is read from the buffer after a success is the text. -/
theorem Answers.reads (h : Answers fits tooShort text call) (hne : tooShort ≠ fits)
    (htext : (0 : UInt8) ∉ text) {buffer : Bytes} {length : Int32} {out : TextOut ρ}
    (hbuffer : length.toInt ≤ buffer.length) (hcall : call buffer length = some out)
    (hresult : out.result = fits) : cString out.buffer = text := by
  rcases le_or_gt length.toInt text.length with hshort | hlong
  · rw [h.short buffer length hshort] at hcall
    cases hcall
    exact absurd hresult hne
  · rw [h.whole buffer length hlong hbuffer] at hcall
    cases hcall
    exact cString_text htext _

/-- Asked for the length first, it hands the text out into a buffer of that length. -/
theorem Answers.twice (h : Answers fits tooShort text call) (hsize : text.length + 1 < 2 ^ 31)
    (buffer : Bytes) : ∃ needed, call buffer 0 = some ⟨tooShort, needed, buffer⟩ ∧
      ∀ buffer' : Bytes, buffer'.length = needed.toInt →
        call buffer' needed = some ⟨fits, needed, text ++ [0]⟩ := by
  have hroom := toInt_room hsize
  refine ⟨room text, h.short buffer 0 (by simp), fun buffer' hbuffer ↦ ?_⟩
  rw [h.whole buffer' (room text) (by omega) (by omega), List.drop_of_length_le (by omega)]

end Lib
end EosMesh
