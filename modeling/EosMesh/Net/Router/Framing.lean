import EosMesh.Lib.Pull
import EosMesh.Net.Router.Operations

/-!
# Frames off a stream that arrives in pieces

A stream is read as it comes: a piece may end within a length prefix or within a body, and may hold
several frames.  After each piece the router takes off what frames are whole (`take_frame`), and
keeps the rest for the next.

* `steady_framePull` says that `takeFrame` never revises a decision, so that the pieces are
  immaterial.
* `selfFrames_eq` and `unsealFrames_plains` say that this is what the router's own loops do.
* `framing_round_trip` is the result.
-/

set_option autoImplicit false

namespace EosMesh

open Lib

/-! ## Taking frames -/

/-- `takeFrame`, as what pulling at the buffer finds. -/
def framePull (buffer : Bytes) : Pull UInt8 Bytes :=
  match takeFrame buffer with
  | .none => .more
  | .ready body rest => .item body rest
  | .refused => .refuse

/-- The length that a buffer declares. -/
def declaredLen (buffer : Bytes) : Nat := ofBeBytes (buffer.take framePrefixLen)

variable {buffer : Bytes}

theorem framePull_eq (buffer : Bytes) : framePull buffer =
    if buffer.length < framePrefixLen then .more
    else if maxMessageSize < declaredLen buffer then .refuse
    else if buffer.length < framePrefixLen + declaredLen buffer then .more
    else .item ((buffer.drop framePrefixLen).take (declaredLen buffer))
      (buffer.drop (framePrefixLen + declaredLen buffer)) := by
  simp only [framePull, takeFrame, tryDeframe, declaredLen]
  by_cases hshort : buffer.length < framePrefixLen
  · simp [hshort, not_le.2 hshort]
  · by_cases hlarge : maxMessageSize < ofBeBytes (buffer.take framePrefixLen)
    · simp [hlarge, not_lt.1 hshort, hshort]
    · by_cases hpart : buffer.length < framePrefixLen + ofBeBytes (buffer.take framePrefixLen)
      · have hwaits : buffer.length - framePrefixLen < ofBeBytes (buffer.take framePrefixLen) := by
          omega
        simp [hshort, hlarge, hpart, hwaits]
      · have hwhole : ¬ buffer.length - framePrefixLen <
          ofBeBytes (buffer.take framePrefixLen) := by
          omega
        simp [hshort, hlarge, hpart, hwhole]

/-- **What is decided of a buffer stays so as more arrives.** -/
theorem steady_framePull : Steady framePull where
  nil := rfl
  shorter {buffer rest body} h := by
    rw [framePull_eq] at h
    split at h
    · cases h
    · split at h
      · cases h
      · split at h
        · cases h
        · rename_i hlong _ _
          cases h
          rw [List.length_drop]
          rw [framePrefixLen] at *
          omega
  item {buffer rest body} h more := by
    rw [framePull_eq] at h
    split at h
    · cases h
    · rename_i hlong
      split at h
      · cases h
      · rename_i hsmall
        split at h
        · cases h
        · rename_i hwhole
          cases h
          have hdeclared : declaredLen (buffer ++ more) = declaredLen buffer := by
            rw [declaredLen, List.take_append_of_le_length (not_lt.1 hlong), declaredLen]
          rw [framePull_eq, hdeclared, List.length_append, if_neg (by omega), if_neg hsmall,
            if_neg (by omega), List.drop_append_of_le_length (not_lt.1 hlong),
            List.take_append_of_le_length (by rw [List.length_drop]; omega),
            List.drop_append_of_le_length (not_lt.1 hwhole)]
  refuse {buffer} h more := by
    rw [framePull_eq] at h
    split at h
    · cases h
    · rename_i hlong
      split at h
      · rename_i hlarge
        have hdeclared : declaredLen (buffer ++ more) = declaredLen buffer := by
          rw [declaredLen, List.take_append_of_le_length (not_lt.1 hlong), declaredLen]
        rw [framePull_eq, hdeclared, List.length_append, if_neg (by omega), if_pos hlarge]
      · split at h <;> cases h

/-! ## The router's loops -/

/-- The loop over the loopback. -/
theorem selfFrames_eq (fuel : Nat) (buffer : Bytes) : Router.selfFrames fuel buffer =
    ((pullAll framePull fuel buffer).items, (pullAll framePull fuel buffer).buffer) := by
  induction fuel generalizing buffer with
  | zero => rfl
  | succ fuel ih =>
    rw [Router.selfFrames, pullAll, framePull]
    cases takeFrame buffer with
    | none => rfl
    | refused => rfl
    | ready body rest =>
      dsimp only
      rw [ih]

/-- Frames opened one after the other, as far as they open. -/
def openBodies (crypto : Crypto) : PeerChannel → List Bytes → List Bytes
  | _, [] => []
  | channel, body :: bodies =>
    match channel.unsealBytes crypto body (framePrefix body.length) with
    | none => []
    | some (plain, channel) => plain :: openBodies crypto channel bodies

/-- The loop over a peer's stream: it opens the frames that are pulled. -/
theorem unsealFrames_plains (crypto : Crypto) (fuel : Nat) (channel : PeerChannel)
    (buffer : Bytes) : (unsealFrames crypto fuel channel buffer).plains =
      openBodies crypto channel (pullAll framePull fuel buffer).items := by
  induction fuel generalizing channel buffer with
  | zero => rfl
  | succ fuel ih =>
    rw [unsealFrames, pullAll, framePull]
    cases takeFrame buffer with
    | none => rfl
    | refused => rfl
    | ready body rest =>
      dsimp only
      rw [openBodies]
      cases channel.unsealBytes crypto body (framePrefix body.length) with
      | none => rfl
      | some opened =>
        dsimp only
        rw [ih]

/-! ## The round trip -/

variable {body rest : Bytes}

theorem length_frameMessage (body : Bytes) :
    (frameMessage body).length = framePrefixLen + body.length := by
  rw [frameMessage, List.length_append, length_beBytes]

theorem declaredLen_append {n : Nat} (h : n < 256 ^ framePrefixLen) (rest : Bytes) :
    declaredLen (beBytes framePrefixLen n ++ rest) = n := by
  rw [declaredLen, List.take_left' (length_beBytes _ _), ofBeBytes_beBytes h]

theorem declaredLen_frameMessage (h : body.length ≤ maxMessageSize) (rest : Bytes) :
    declaredLen (frameMessage body ++ rest) = body.length := by
  rw [frameMessage, List.append_assoc]
  refine declaredLen_append (h.trans_lt ?_) _
  decide

/-- A whole frame is taken off. -/
theorem framePull_frameMessage (h : body.length ≤ maxMessageSize) (rest : Bytes) :
    framePull (frameMessage body ++ rest) = .item body rest := by
  have htry := tryDeframe_frameMessage h rest
  rw [framePull_eq, declaredLen_frameMessage h, List.length_append, length_frameMessage,
    if_neg (by omega), if_neg (not_lt.2 h), if_neg (by omega), ← length_frameMessage,
    List.drop_left, frameMessage, List.append_assoc, List.drop_left' (length_beBytes _ _),
    List.take_left]

/-- Part of a frame waits. -/
theorem framePull_part (h : body.length ≤ maxMessageSize) (hpart : buffer <+: frameMessage body)
    (hlength : buffer.length < (frameMessage body).length) : framePull buffer = .more := by
  obtain ⟨rest, hrest⟩ := hpart
  rw [framePull_eq]
  split
  · rfl
  · rename_i hlong
    have hdeclared : declaredLen buffer = body.length := by
      rw [← declaredLen_frameMessage h [], List.append_nil, ← hrest, declaredLen, declaredLen,
        List.take_append_of_le_length (not_lt.1 hlong)]
    rw [length_frameMessage] at hlength
    rw [hdeclared, if_neg (not_lt.2 h), if_pos hlength]

/-- Whole frames come off in order, and what is behind them is next. -/
theorem pulled_frames {bodies : List Bytes} (h : ∀ body ∈ bodies, body.length ≤ maxMessageSize)
    (rest : Bytes) : pulled framePull (bodies.flatMap frameMessage ++ rest) =
      { pulled framePull rest with items := bodies ++ (pulled framePull rest).items } := by
  induction bodies with
  | nil => rfl
  | cons body bodies ih =>
    rw [List.flatMap_cons, List.append_assoc, pulled_of_item steady_framePull
      (framePull_frameMessage (h body List.mem_cons_self) _),
      ih fun body hbody ↦ h body (List.mem_cons_of_mem _ hbody)]
    rfl

/-- The start of a sequence of frames: some whole ones, and part of the next. -/
structure FrameSplit (bodies : List Bytes) (arrived : Bytes) (ready ahead : List Bytes)
    (tail : Bytes) : Prop where
  bodies : bodies = ready ++ ahead
  arrived : arrived = ready.flatMap frameMessage ++ tail
  part : ∀ next ∈ ahead.head?, tail <+: frameMessage next ∧ tail.length < (frameMessage next).length
  whole : ahead = [] → tail = []

theorem exists_split {bodies : List Bytes} {arrived : Bytes}
    (h : arrived <+: bodies.flatMap frameMessage) :
    ∃ ready ahead tail, FrameSplit bodies arrived ready ahead tail := by
  induction bodies generalizing arrived with
  | nil => exact ⟨[], [], [], rfl, List.prefix_nil.1 h, nofun, fun _ ↦ rfl⟩
  | cons body bodies ih =>
    rw [List.flatMap_cons] at h
    by_cases hpart : arrived.length < (frameMessage body).length
    · refine ⟨[], body :: bodies, arrived, rfl, rfl, fun next hnext ↦ ?_, nofun⟩
      obtain rfl : body = next := by simpa using hnext
      exact ⟨List.prefix_of_prefix_length_le h (List.prefix_append _ _) hpart.le, hpart⟩
    · have hfirst : frameMessage body <+: arrived :=
        List.prefix_of_prefix_length_le (List.prefix_append _ _) h (not_lt.1 hpart)
      obtain ⟨later, rfl⟩ := hfirst
      obtain ⟨ready, ahead, tail, hsplit⟩ := ih ((List.prefix_append_right_inj _).1 h)
      refine ⟨body :: ready, ahead, tail, ?_, ?_, hsplit.part, hsplit.whole⟩
      · rw [hsplit.bodies, List.cons_append]
      · rw [hsplit.arrived, List.flatMap_cons, List.append_assoc]

/-- A length prefix that is not complete waits, and one that is complete and too large is
refused. -/
theorem pulled_declared {declared : Nat} (hlarge : maxMessageSize < declared)
    (hfits : declared < 256 ^ framePrefixLen) :
    (∀ rest, pulled framePull (beBytes framePrefixLen declared ++ rest) = { refused := true }) ∧
      ∀ n < framePrefixLen, pulled framePull ((beBytes framePrefixLen declared).take n) =
        { buffer := (beBytes framePrefixLen declared).take n } := by
  constructor
  · intro rest
    refine pulled_of_refuse steady_framePull ?_
    rw [framePull_eq, declaredLen_append hfits, List.length_append, length_beBytes,
      if_neg (by omega), if_pos hlarge]
  · intro n hn
    refine pulled_of_more steady_framePull ?_
    rw [framePull_eq, List.length_take, length_beBytes, if_pos (by omega)]

/-- What is pulled off the start of a sequence of frames: those that are whole. -/
theorem pulled_arrived {bodies : List Bytes} {arrived : Bytes}
    (h : ∀ body ∈ bodies, body.length ≤ maxMessageSize)
    (harrived : arrived <+: bodies.flatMap frameMessage) :
    ∃ ready ahead tail, FrameSplit bodies arrived ready ahead tail ∧
      pulled framePull arrived = { items := ready, buffer := tail } := by
  obtain ⟨ready, ahead, tail, hsplit⟩ := exists_split harrived
  have hready : ∀ body ∈ ready, body.length ≤ maxMessageSize := fun body hbody ↦
    h body (hsplit.bodies ▸ List.mem_append_left _ hbody)
  have htail : framePull tail = .more := by
    cases ahead with
    | nil =>
      rw [hsplit.whole rfl]
      rfl
    | cons next ahead =>
      obtain ⟨hpart, hlength⟩ := hsplit.part next rfl
      exact framePull_part (h next (hsplit.bodies ▸ by simp)) hpart hlength
  refine ⟨ready, ahead, tail, hsplit, ?_⟩
  rw [hsplit.arrived, pulled_frames hready, pulled_of_more steady_framePull htail,
    List.append_nil]

/-- **Frames come through whatever the pieces they arrive in.**  All of them, once all have arrived;
before that, those that are whole, with the rest kept; and a length that is too large is refused
once its prefix is complete, and not before. -/
theorem framing_round_trip {bodies : List Bytes}
    (h : ∀ body ∈ bodies, body.length ≤ maxMessageSize) (pieces : List Bytes) :
    (pieces.flatten = bodies.flatMap frameMessage →
      pieces.foldl (Pulled.arrive framePull) {} = { items := bodies }) ∧
    (pieces.flatten <+: bodies.flatMap frameMessage → ∃ ready ahead tail,
      FrameSplit bodies pieces.flatten ready ahead tail ∧
        pieces.foldl (Pulled.arrive framePull) {} = { items := ready, buffer := tail }) ∧
    ∀ declared, maxMessageSize < declared → declared < 256 ^ framePrefixLen →
      (∀ rest, pieces.flatten =
          bodies.flatMap frameMessage ++ (beBytes framePrefixLen declared ++ rest) →
        pieces.foldl (Pulled.arrive framePull) {} = { items := bodies, refused := true }) ∧
      ∀ n < framePrefixLen, pieces.flatten =
          bodies.flatMap frameMessage ++ (beBytes framePrefixLen declared).take n →
        pieces.foldl (Pulled.arrive framePull) {} =
          { items := bodies, buffer := (beBytes framePrefixLen declared).take n } := by
  rw [arrive_flatten steady_framePull]
  refine ⟨fun hall ↦ ?_, pulled_arrived h, fun declared hlarge hfits ↦ ?_⟩
  · rw [hall, ← List.append_nil (bodies.flatMap frameMessage), pulled_frames h,
      pulled_of_more steady_framePull steady_framePull.nil, List.append_nil]
  · obtain ⟨hrefused, hwaits⟩ := pulled_declared hlarge hfits
    refine ⟨fun rest hpieces ↦ ?_, fun n hn hpieces ↦ ?_⟩
    · rw [hpieces, pulled_frames h, hrefused, List.append_nil]
    · rw [hpieces, pulled_frames h, hwaits n hn, List.append_nil]

/-- Two frames, cut within the first length and within the second body. -/
theorem framing_round_trip_cut :
    [[0, 0], [0, 1, 7, 0, 0, 0, 2, 8], [9]].foldl (Pulled.arrive framePull) {} =
      { items := [[7], [8, 9]] } :=
  (@framing_round_trip [[7], [8, 9]] (by decide)
    [[0, 0], [0, 1, 7, 0, 0, 0, 2, 8], [9]]).1 (by decide)

end EosMesh
