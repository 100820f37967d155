import Gput.Library.ByteString

/-!
# Streams of delimited frames

A stream is cut after each occurrence of a delimiter: the frame ends with the
first occurrence, and the rest is cut the same way.  What a prefix of a stream
already shows of its first frame does not change when more of the stream
arrives, which is what a reader with a buffer relies on.
-/

namespace Delimited

open ByteString

variable {α : Type} [BEq α]

/-- Length of the first frame: up to the end of the first delimiter. -/
def frameLen (delimiter stream : List α) : Option Nat :=
  (windowPosition delimiter stream).map (· + delimiter.length)

section Frames

variable [LawfulBEq α] {delimiter stream : List α}

theorem windowPosition_append {i : Nat} (h : windowPosition delimiter stream = some i)
    (more : List α) : windowPosition delimiter (stream ++ more) = some i := by
  obtain ⟨hi, hextends, hbefore⟩ := windowPosition_eq_some.mp h
  have hlen := hextends.length_le
  rw [List.length_drop] at hlen
  refine windowPosition_eq_some.mpr ⟨?_, ?_, ?_⟩
  · rw [List.length_append]
    omega
  · rw [List.drop_append_of_le_length hi]
    exact hextends.trans (List.prefix_append _ _)
  · -- an earlier occurrence would already lie inside the stream
    intro j hj hearlier
    rw [List.drop_append_of_le_length (by omega)] at hearlier
    refine hbefore j hj (List.prefix_of_prefix_length_le hearlier (List.prefix_append _ _) ?_)
    rw [List.length_drop]
    omega

/-- A complete frame stays the first frame of every longer stream. -/
theorem frameLen_append {n : Nat} (h : frameLen delimiter stream = some n) (more : List α) :
    frameLen delimiter (stream ++ more) = some n := by
  obtain ⟨i, hi, rfl⟩ := Option.map_eq_some_iff.mp h
  rw [frameLen, windowPosition_append hi]
  rfl

theorem frameLen_le {n : Nat} (h : frameLen delimiter stream = some n) :
    delimiter.length ≤ n ∧ n ≤ stream.length := by
  obtain ⟨i, hi, rfl⟩ := Option.map_eq_some_iff.mp h
  obtain ⟨hle, hextends, -⟩ := windowPosition_eq_some.mp hi
  have hlen := hextends.length_le
  rw [List.length_drop] at hlen
  omega

/-- The first frame alone is a complete frame. -/
theorem frameLen_take {n : Nat} (h : frameLen delimiter stream = some n) :
    frameLen delimiter (stream.take n) = some n := by
  obtain ⟨i, hi, rfl⟩ := Option.map_eq_some_iff.mp h
  obtain ⟨hle, hextends, hbefore⟩ := windowPosition_eq_some.mp hi
  have hlen := hextends.length_le
  rw [List.length_drop] at hlen
  have htake : windowPosition delimiter (stream.take (i + delimiter.length)) = some i := by
    refine windowPosition_eq_some.mpr ⟨?_, ?_, ?_⟩
    · rw [List.length_take]
      omega
    · rw [List.drop_take, Nat.add_sub_cancel_left]
      exact List.prefix_take_iff.mpr ⟨hextends, le_refl _⟩
    · intro j hj hearlier
      rw [List.drop_take] at hearlier
      exact hbefore j hj (hearlier.trans (List.take_prefix _ _))
  rw [frameLen, htake]
  rfl

/-- A frame that is still incomplete is longer than what has arrived of it. -/
theorem lt_of_incomplete {n : Nat} {more : List α} (hnone : frameLen delimiter stream = none)
    (h : frameLen delimiter (stream ++ more) = some n) : stream.length < n := by
  by_contra hle
  rw [Nat.not_lt] at hle
  have htake := frameLen_take h
  rw [List.take_append_of_le_length hle] at htake
  have hstream := frameLen_append htake (stream.drop n)
  rw [List.take_append_drop, hnone] at hstream
  cases hstream

end Frames

/-- The complete frames of a stream, and what stands behind the last of them.
An empty delimiter would end no frame; it leaves the stream whole. -/
def cut (delimiter stream : List α) : List (List α) × List α :=
  match frameLen delimiter stream with
  | none => ([], stream)
  | some n =>
      if 0 < n ∧ 0 < stream.length then
        let later := cut delimiter (stream.drop n)
        (stream.take n :: later.1, later.2)
      else ([], stream)
termination_by stream.length
decreasing_by
  rw [List.length_drop]
  omega

section Cut

variable {delimiter stream : List α}

theorem cut_of_none (h : frameLen delimiter stream = none) :
    cut delimiter stream = ([], stream) := by
  rw [cut, h]

variable [LawfulBEq α]

theorem cut_of_some (hdelimiter : delimiter ≠ []) {n : Nat}
    (h : frameLen delimiter stream = some n) :
    cut delimiter stream =
      (stream.take n :: (cut delimiter (stream.drop n)).1, (cut delimiter (stream.drop n)).2) := by
  have hpos := List.length_pos_of_ne_nil hdelimiter
  have hle := frameLen_le h
  rw [cut, h]
  simp only
  rw [if_pos (by omega)]

/-- What the cutting of a stream promises: the frames and the rest are the whole
stream, every frame ends with its first delimiter, and the rest has none. -/
structure IsCut (delimiter stream : List α) (frames : List (List α)) (rest : List α) : Prop where
  whole : frames.flatten ++ rest = stream
  complete : ∀ frame ∈ frames, frameLen delimiter frame = some frame.length
  incomplete : frameLen delimiter rest = none

theorem isCut_cut (hdelimiter : delimiter ≠ []) (stream : List α) :
    IsCut delimiter stream (cut delimiter stream).1 (cut delimiter stream).2 := by
  induction hlen : stream.length using Nat.strong_induction_on generalizing stream with
  | _ length ih =>
      cases hframe : frameLen delimiter stream with
      | none =>
          rw [cut_of_none hframe]
          exact ⟨rfl, fun frame hmem => absurd hmem List.not_mem_nil, hframe⟩
      | some n =>
          have hpos := List.length_pos_of_ne_nil hdelimiter
          have hle := frameLen_le hframe
          have later := ih (stream.drop n).length (by rw [List.length_drop]; omega)
            (stream.drop n) rfl
          rw [cut_of_some hdelimiter hframe]
          refine ⟨?_, ?_, later.incomplete⟩
          · rw [List.flatten_cons, List.append_assoc, later.whole, List.take_append_drop]
          · intro frame hmem
            rcases List.mem_cons.mp hmem with rfl | hmem
            · rw [frameLen_take hframe, List.length_take, Nat.min_eq_left hle.2]
            · exact later.complete frame hmem

end Cut

end Delimited
