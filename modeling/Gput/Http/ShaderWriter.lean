import Gput.Http.Shader

/-!
# The writer of the HTTP shader

`Wrote` says what a writer has left in its slot and in its pending word, and
`Overflowed` that its slot was too small.  Every push of the shader `Pushes` a
byte string: the writer keeps track of all it was asked to push, whether it fits
or not, and `Appends` it as long as it fits; `writer_finish` then leaves the
whole string in the slot.  A writer that has failed stays failed.
-/

namespace Gput
namespace Http
namespace Shader

open LittleEndian WordMemory Decimal

section Slots

variable (params : Params) (requestIndex : UInt32)

/-- The first word of a slot. -/
def slotBase : UInt32 :=
  requestIndex * params.responseStrideWords

/-- The words of a slot. -/
def InSlot (i : UInt32) : Prop :=
  ∃ k, k < params.responseStrideWords.toNat ∧ i = slotBase params requestIndex + UInt32.ofNat k

/-- A writer that has put the bytes into its slot, over the words before it. -/
structure Wrote (before : UInt32 → UInt32) (bytes : List UInt8) (output : Output) : Prop where
  index : output.writer.requestIndex = requestIndex
  flags : output.writer.flags = 0
  cursor : output.writer.cursor.toNat = bytes.length
  pending : output.writer.pending = firstWord (bytes.drop (4 * (bytes.length / 4)))
  written : ∀ k, k < bytes.length / 4 →
    output.words (slotBase params requestIndex + UInt32.ofNat k) = firstWord (bytes.drop (4 * k))
  others : ∀ i, ¬ InSlot params requestIndex i → output.words i = before i

/-- A step that appends a byte string while it fits the slot. -/
def Appends (step : Output → Output) (bytes : List UInt8) : Prop :=
  ∀ (before : UInt32 → UInt32) (done : List UInt8) (output : Output),
    Wrote params requestIndex before done output →
    (done ++ bytes).length ≤ 4 * params.responseStrideWords.toNat →
    Wrote params requestIndex before (done ++ bytes) (step output)

/-- A writer that was asked to push more than its slot has room for. -/
structure Overflowed (before : UInt32 → UInt32) (output : Output) : Prop where
  index : output.writer.requestIndex = requestIndex
  flags : output.writer.flags = responseFlagOutputOverflow
  others : ∀ i, ¬ InSlot params requestIndex i → output.words i = before i

/-- A writer that was asked to push the bytes: they stand in its slot, or they do
not fit it. -/
def Tracks (before : UInt32 → UInt32) (bytes : List UInt8) (output : Output) : Prop :=
  if bytes.length ≤ 4 * params.responseStrideWords.toNat then
    Wrote params requestIndex before bytes output
  else Overflowed params requestIndex before output

/-- A step that pushes a byte string, whether it fits or not. -/
def Pushes (step : Output → Output) (bytes : List UInt8) : Prop :=
  ∀ (before : UInt32 → UInt32) (done : List UInt8) (output : Output),
    Tracks params requestIndex before done output →
    Tracks params requestIndex before (done ++ bytes) (step output)

theorem Appends.nil : Appends params requestIndex id [] := by
  intro before done output h _
  rwa [List.append_nil]

variable {params requestIndex}

theorem Pushes.nil : Pushes params requestIndex id [] := by
  intro before done output h
  rwa [List.append_nil]

theorem Pushes.comp {first second : Output → Output} {left right : List UInt8}
    (hfirst : Pushes params requestIndex first left)
    (hsecond : Pushes params requestIndex second right) :
    Pushes params requestIndex (fun output => second (first output)) (left ++ right) := by
  intro before done output h
  rw [← List.append_assoc]
  exact hsecond before _ _ (hfirst before _ _ h)

/-- What is pushed is appended while it fits. -/
theorem Pushes.appends {step : Output → Output} {bytes : List UInt8}
    (h : Pushes params requestIndex step bytes) : Appends params requestIndex step bytes := by
  intro before done output hwrote hfits
  have hdone : done.length ≤ 4 * params.responseStrideWords.toNat := by
    rw [List.length_append] at hfits
    omega
  have htracks := h before done output (by rwa [Tracks, if_pos hdone])
  rwa [Tracks, if_pos hfits] at htracks

theorem Appends.comp {first second : Output → Output} {left right : List UInt8}
    (hfirst : Appends params requestIndex first left)
    (hsecond : Appends params requestIndex second right) :
    Appends params requestIndex (fun output => second (first output)) (left ++ right) := by
  intro before done output h hfits
  rw [← List.append_assoc] at hfits ⊢
  refine hsecond before _ _ (hfirst before _ _ h ?_) hfits
  rw [List.length_append] at hfits
  omega

/-- A new writer has written nothing. -/
theorem wrote_writerNew (words : UInt32 → UInt32) :
    Wrote params requestIndex words [] ⟨writerNew requestIndex, words⟩ where
  index := rfl
  flags := rfl
  cursor := rfl
  pending := rfl
  written := fun k hk => absurd hk (Nat.not_lt_zero k)
  others := fun _ _ => rfl

/-- A new writer has been asked for nothing. -/
theorem tracks_writerNew (words : UInt32 → UInt32) :
    Tracks params requestIndex words [] ⟨writerNew requestIndex, words⟩ := by
  have hfits : ([] : List UInt8).length ≤ 4 * params.responseStrideWords.toNat := Nat.zero_le _
  rw [Tracks, if_pos hfits]
  exact wrote_writerNew words

theorem slot_inj {j k : Nat} (hj : j < 2 ^ 32) (hk : k < 2 ^ 32)
    (h : slotBase params requestIndex + UInt32.ofNat j =
      slotBase params requestIndex + UInt32.ofNat k) : j = k := by
  have heq := congrArg UInt32.toNat (UInt32.add_right_inj _ |>.mp h)
  rwa [UInt32.toNat_ofNat', UInt32.toNat_ofNat', Nat.mod_eq_of_lt hj, Nat.mod_eq_of_lt hk] at heq

end Slots

/-- The divisor grows to the weight of the first digit. -/
theorem growDivisor_spec (value divisor : UInt32) (k : Nat) (hdivisor : divisor.toNat = 10 ^ k)
    (hle : k = 0 ∨ 10 ^ k ≤ value.toNat) :
    ∃ m, (growDivisor value divisor).toNat = 10 ^ m ∧ value.toNat / 10 ^ m < 10 ∧
      (m = 0 ∨ 10 ^ m ≤ value.toNat) := by
  fun_induction growDivisor value divisor generalizing k with
  | case1 divisor hten ih =>
      obtain ⟨-, htimes, hle⟩ := times_ten_toNat hten
      have hpow : (divisor * 10).toNat = 10 ^ (k + 1) := by
        rw [htimes, hdivisor, Nat.pow_succ']
      exact ih (k + 1) hpow (Or.inr (by omega))
  | case2 divisor hten =>
      refine ⟨k, hdivisor, ?_, hle⟩
      have hlt := UInt32.lt_iff_toNat_lt.mp (UInt32.not_le.mp hten)
      rwa [UInt32.toNat_div, hdivisor] at hlt

theorem digit_toUInt32 (n : UInt32) : 48 + n % 10 = (digit n.toNat).toUInt32 := by
  have hn := n.toNat_lt
  apply UInt32.toNat_inj.mp
  rw [UInt8.toNat_toUInt32, digit_toNat, UInt32.toNat_add, UInt32.toNat_mod]
  show (48 + n.toNat % 10) % 2 ^ 32 = 48 + n.toNat % 10
  omega

theorem decimalWidth_toNat (value : UInt32) :
    (decimalWidth value).toNat = (decimal value.toNat).length := by
  have hlength (n : Nat) : (decimal n).length = Nat.log 10 n + 1 := length_decimal n
  have hfrom (width remaining : UInt32) (hfits : width.toNat + Nat.log 10 remaining.toNat < 2 ^ 32) :
      (decimalWidthFrom width remaining).toNat = width.toNat + Nat.log 10 remaining.toNat := by
    fun_induction decimalWidthFrom width remaining with
    | case1 width remaining hten ih =>
        have hle : 10 ≤ remaining.toNat := UInt32.le_iff_toNat_le.mp hten
        have hlog := Nat.log_of_one_lt_of_le (by omega) hle
        have hwidth : (width + 1).toNat = width.toNat + 1 := by
          rw [UInt32.toNat_add, show (1 : UInt32).toNat = 1 from rfl, Nat.mod_eq_of_lt (by omega)]
        rw [ih (by rw [hwidth, div_ten_toNat]; omega), hwidth, div_ten_toNat]
        omega
    | case2 width remaining hten =>
        have hlt : remaining.toNat < 10 := UInt32.lt_iff_toNat_lt.mp (UInt32.not_le.mp hten)
        rw [Nat.log_of_lt hlt, Nat.add_zero]
  have hlog : Nat.log 10 value.toNat < 10 :=
    Nat.log_lt_of_lt_pow' (by omega) (Nat.lt_of_lt_of_le value.toNat_lt (by norm_num))
  rw [decimalWidth, hfrom 1 value (by simp only [UInt32.reduceToNat]; omega), hlength, Nat.add_comm]
  rfl

/-- A writer that has failed. -/
def Failed (output : Output) : Prop :=
  output.writer.flags ≠ 0

section Failed

variable {params : Params} {output : Output}

theorem Overflowed.failed {requestIndex : UInt32} {before : UInt32 → UInt32}
    (h : Overflowed params requestIndex before output) : Failed output := by
  rw [Failed, h.flags]
  decide

theorem writerPushByte_failed (h : Failed output) (byte : UInt32) :
    writerPushByte params output byte = output := by
  rw [writerPushByte]
  exact if_pos h

theorem writerPushWord_failed (h : Failed output) (word : UInt32) :
    writerPushWord params output word = output := by
  rw [writerPushWord]
  exact if_pos h

theorem pushWords_failed (h : Failed output) (readWord : UInt32 → UInt32)
    (byteLen byteIndex : UInt32) :
    (pushWords params readWord byteLen byteIndex output).1 = output := by
  fun_induction pushWords params readWord byteLen byteIndex output with
  | case1 byteIndex output _ ih =>
      rw [writerPushWord_failed h] at ih ⊢
      exact ih h
  | case2 byteIndex output _ => rfl

theorem pushBytes_failed (h : Failed output) (readByte : UInt32 → UInt32)
    (byteLen byteIndex : UInt32) : pushBytes params readByte byteLen byteIndex output = output := by
  fun_induction pushBytes params readByte byteLen byteIndex output with
  | case1 byteIndex output _ ih =>
      rw [writerPushByte_failed h] at ih ⊢
      exact ih h
  | case2 byteIndex output _ => rfl

theorem pushRange_failed (h : Failed output) (readWord readByte : UInt32 → UInt32)
    (byteLen : UInt32) : pushRange params readWord readByte byteLen output = output := by
  rw [pushRange]
  simp only
  rw [pushWords_failed h, pushBytes_failed h]

theorem pushDigits_failed (h : Failed output) (value divisor : UInt32) :
    pushDigits params value divisor output = output := by
  fun_induction pushDigits params value divisor output with
  | case1 divisor output => exact writerPushByte_failed h _
  | case2 divisor output next _ ih =>
      have hnext : next = output := writerPushByte_failed h _
      rw [hnext] at ih ⊢
      exact ih h

end Failed

section Pushing

variable {params : Params} {requestIndex : UInt32}

theorem lane_toNat (i : UInt32) : (i &&& 3).toNat = i.toNat % 4 := by
  rw [UInt32.toNat_and]
  exact Nat.and_two_pow_sub_one_eq_mod _ 2

/-- The word that holds the byte at a position. -/
theorem wordIndex_eq {cursor : UInt32} {len : Nat} (h : cursor.toNat = len) :
    cursor / 4 = UInt32.ofNat (len / 4) := by
  rw [div_four_eq, h]

/-- A step that appends where there is room, overflows where there is none, and
leaves a failed writer as it is. -/
theorem pushes_of_appends {step : Output → Output} {bytes : List UInt8}
    (happends : Appends params requestIndex step bytes)
    (hfull : ∀ before done output, Wrote params requestIndex before done output →
      done.length ≤ 4 * params.responseStrideWords.toNat →
      4 * params.responseStrideWords.toNat < (done ++ bytes).length →
      step output = writerFail output responseFlagOutputOverflow)
    (hfailed : ∀ output, Failed output → step output = output) :
    Pushes params requestIndex step bytes := by
  intro before done output h
  by_cases hdone : done.length ≤ 4 * params.responseStrideWords.toNat
  · rw [Tracks, if_pos hdone] at h
    by_cases hfits : (done ++ bytes).length ≤ 4 * params.responseStrideWords.toNat
    · rw [Tracks, if_pos hfits]
      exact happends before done output h hfits
    · rw [Tracks, if_neg hfits, hfull before done output h hdone (by omega)]
      refine ⟨h.index, ?_, h.others⟩
      rw [writerFail, h.flags]
      rfl
  · rw [Tracks, if_neg hdone] at h
    have hover : ¬ (done ++ bytes).length ≤ 4 * params.responseStrideWords.toNat := by
      rw [List.length_append]
      omega
    rw [Tracks, if_neg hover, hfailed output h.failed]
    exact h

variable (hcapacity : 4 * params.responseStrideWords.toNat < 2 ^ 32)
include hcapacity

theorem capacity_toNat :
    (params.responseStrideWords * 4).toNat = 4 * params.responseStrideWords.toNat := by
  rw [UInt32.toNat_mul, show (4 : UInt32).toNat = 4 from rfl, Nat.mod_eq_of_lt (by omega),
    Nat.mul_comm]

/-- Writing the word behind the complete ones leaves them and the other slots. -/
theorem Wrote.store {before : UInt32 → UInt32} {done : List UInt8} {output : Output}
    (h : Wrote params requestIndex before done output)
    (hroom : done.length / 4 < params.responseStrideWords.toNat) (more : List UInt8) :
    let words := Function.update output.words
      (slotBase params requestIndex + UInt32.ofNat (done.length / 4))
      (firstWord ((done ++ more).drop (4 * (done.length / 4))))
    (∀ k, k < done.length / 4 + 1 → words (slotBase params requestIndex + UInt32.ofNat k) =
        firstWord ((done ++ more).drop (4 * k))) ∧
      ∀ i, ¬ InSlot params requestIndex i → words i = before i := by
  refine ⟨fun k hk => ?_, fun i hi => ?_⟩
  · rcases Nat.lt_or_ge k (done.length / 4) with hlt | hge
    · rw [Function.update_of_ne, h.written k hlt, firstWord_drop_append (by omega)]
      intro heq
      have := slot_inj (by omega) (by omega) heq
      omega
    · rw [show k = done.length / 4 by omega]
      exact Function.update_self _ _ _
  · rw [Function.update_of_ne, h.others i hi]
    rintro rfl
    exact hi ⟨_, hroom, rfl⟩

theorem writerPushByte_appends (byte : UInt8) :
    Appends params requestIndex (fun output => writerPushByte params output byte.toUInt32)
      [byte] := by
  intro before done output h hfits
  have hlen : (done ++ [byte]).length = done.length + 1 := by
    rw [List.length_append, List.length_singleton]
  have hroom : done.length / 4 < params.responseStrideWords.toNat := by omega
  have hshift : ((output.writer.cursor &&& 3) * 8).toNat = 8 * (done.length % 4) := by
    rw [laneShift_toNat, h.cursor]
  have hcursor : (output.writer.cursor + 1).toNat = done.length + 1 := by
    rw [UInt32.toNat_add, h.cursor, show (1 : UInt32).toNat = 1 from rfl, Nat.mod_eq_of_lt (by omega)]
  have hmask : byte.toUInt32 &&& 255 = byte.toUInt32 := by
    apply UInt32.toNat_inj.mp
    rw [UInt32.toNat_and, UInt8.toNat_toUInt32]
    exact (Nat.and_two_pow_sub_one_eq_mod _ 8).trans (Nat.mod_eq_of_lt byte.toNat_lt)
  -- the word that is being filled
  have hpending : output.writer.pending ||| byte.toUInt32 <<< ((output.writer.cursor &&& 3) * 8) =
      firstWord ((done ++ [byte]).drop (4 * (done.length / 4))) := by
    rw [h.pending, List.drop_append_of_le_length (by omega), firstWord_or_byte]
    · rw [List.length_drop]
      omega
    · rw [hshift, List.length_drop]
      congr 1
      omega
  have hbelow : ¬ output.writer.cursor ≥ params.responseStrideWords * 4 := by
    rw [ge_iff_le, UInt32.le_iff_toNat_le, capacity_toNat hcapacity, h.cursor]
    omega
  have hcomplete : output.writer.cursor + 1 &&& 3 = 0 ↔ (done.length + 1) % 4 = 0 := by
    rw [← UInt32.toNat_inj, lane_toNat, hcursor]
    rfl
  simp only [writerPushByte, h.flags, ne_eq, not_true_eq_false, if_false, if_neg hbelow, hmask,
    hpending, hcomplete]
  by_cases hlast : (done.length + 1) % 4 = 0
  · have hindex : output.writer.requestIndex * params.responseStrideWords +
        (output.writer.cursor + 1) / 4 - 1 =
          slotBase params requestIndex + UInt32.ofNat (done.length / 4) := by
      rw [wordIndex_eq hcursor, show (done.length + 1) / 4 = done.length / 4 + 1 by omega,
        UInt32.ofNat_add, ← UInt32.add_assoc, h.index]
      exact UInt32.add_sub_cancel _ _
    obtain ⟨hwritten, hothers⟩ := h.store hcapacity hroom [byte]
    rw [if_pos hlast, hindex]
    have hnil : (done ++ [byte]).drop (4 * ((done ++ [byte]).length / 4)) = [] := by
      rw [List.drop_eq_nil_iff]
      omega
    refine ⟨h.index, rfl, hcursor.trans hlen.symm, ?_, fun k hk => hwritten k (by omega), hothers⟩
    rw [hnil]
    rfl
  · rw [if_neg hlast]
    refine ⟨h.index, rfl, hcursor.trans hlen.symm, ?_, fun k hk => ?_, h.others⟩
    · rw [hlen, show (done.length + 1) / 4 = done.length / 4 by omega]
    · have hlt : k < done.length / 4 := by omega
      exact (h.written k hlt).trans (firstWord_drop_append (by omega) [byte]).symm

/-- A writer at the end of its slot fails at the next byte. -/
theorem writerPushByte_full {before : UInt32 → UInt32} {done : List UInt8} {output : Output}
    (h : Wrote params requestIndex before done output)
    (hfull : done.length = 4 * params.responseStrideWords.toNat) (byte : UInt32) :
    writerPushByte params output byte = writerFail output responseFlagOutputOverflow := by
  have hend : output.writer.cursor ≥ params.responseStrideWords * 4 := by
    rw [ge_iff_le, UInt32.le_iff_toNat_le, capacity_toNat hcapacity, h.cursor, hfull]
  simp only [writerPushByte, h.flags, ne_eq, not_true_eq_false, if_false, if_pos hend]

theorem writerPushByte_pushes (byte : UInt8) :
    Pushes params requestIndex (fun output => writerPushByte params output byte.toUInt32)
      [byte] := by
  refine pushes_of_appends (writerPushByte_appends hcapacity byte) ?_
    fun output h => writerPushByte_failed h _
  intro before done output h hdone hover
  rw [List.length_append, List.length_singleton] at hover
  exact writerPushByte_full hcapacity h (by omega) _

theorem writerPushWord_appends {next : List UInt8} (hnext : next.length = 4) :
    Appends params requestIndex (fun output => writerPushWord params output (firstWord next))
      next := by
  intro before done output h hfits
  have hlen : (done ++ next).length = done.length + 4 := by rw [List.length_append, hnext]
  have hroom : done.length / 4 < params.responseStrideWords.toNat := by omega
  have hshift : ((output.writer.cursor &&& 3) * 8).toNat = 8 * (done.length % 4) := by
    rw [laneShift_toNat, h.cursor]
  have hcursor : (output.writer.cursor + 4).toNat = done.length + 4 := by
    rw [UInt32.toNat_add, h.cursor, show (4 : UInt32).toNat = 4 from rfl, Nat.mod_eq_of_lt (by omega)]
  have htail : (done.drop (4 * (done.length / 4))).length = done.length % 4 := by
    rw [List.length_drop]
    omega
  have hshift' : ((output.writer.cursor &&& 3) * 8).toNat =
      8 * (done.drop (4 * (done.length / 4))).length := by rw [hshift, htail]
  have hbelow : ¬ params.responseStrideWords * 4 - output.writer.cursor < 4 := by
    rw [UInt32.lt_iff_toNat_lt, UInt32.toNat_sub_of_le, capacity_toNat hcapacity, h.cursor]
    · show ¬ _ < 4
      omega
    · rw [UInt32.le_iff_toNat_le, capacity_toNat hcapacity, h.cursor]
      omega
  obtain ⟨hwritten, hothers⟩ := h.store hcapacity hroom next
  simp only [writerPushWord, h.flags, ne_eq, not_true_eq_false, if_false, if_neg hbelow,
    wordIndex_eq h.cursor, h.pending, ite_not]
  rw [firstWord_or_word (by omega) next hnext hshift', ← List.drop_append_of_le_length (by omega),
    h.index]
  refine ⟨rfl, rfl, hcursor.trans hlen.symm, ?_, fun k hk => hwritten k (by omega), hothers⟩
  rw [hlen, show 4 * ((done.length + 4) / 4) = 4 * (done.length / 4) + 4 by omega,
    ← List.drop_drop, List.drop_append_of_le_length (by omega)]
  by_cases hzero : done.length % 4 = 0
  · have hlane : (output.writer.cursor &&& 3) * 8 = 0 := by
      apply UInt32.toNat_inj.mp
      rw [hshift, hzero]
      rfl
    have hnil : (done.drop (4 * (done.length / 4)) ++ next).drop 4 = [] := by
      rw [List.drop_eq_nil_iff, List.length_append, htail, hnext]
      omega
    rw [if_pos hlane, hnil]
    rfl
  · have hlane : (output.writer.cursor &&& 3) * 8 ≠ 0 := by
      intro heq
      rw [heq] at hshift
      have : (0 : UInt32).toNat = 0 := rfl
      omega
    rw [if_neg hlane, firstWord_carry (by omega) _ next hnext hshift']
    rw [← List.length_pos_iff]
    omega

/-- A writer without room for four more bytes fails at the next word. -/
theorem writerPushWord_full {before : UInt32 → UInt32} {done : List UInt8} {output : Output}
    (h : Wrote params requestIndex before done output)
    (hdone : done.length ≤ 4 * params.responseStrideWords.toNat)
    (hfull : 4 * params.responseStrideWords.toNat < done.length + 4) (word : UInt32) :
    writerPushWord params output word = writerFail output responseFlagOutputOverflow := by
  have hle : output.writer.cursor ≤ params.responseStrideWords * 4 := by
    rw [UInt32.le_iff_toNat_le, capacity_toNat hcapacity, h.cursor]
    exact hdone
  have hleft : params.responseStrideWords * 4 - output.writer.cursor < 4 := by
    rw [UInt32.lt_iff_toNat_lt, UInt32.toNat_sub_of_le _ _ hle, capacity_toNat hcapacity, h.cursor]
    exact Nat.sub_lt_left_of_lt_add hdone hfull
  simp only [writerPushWord, h.flags, ne_eq, not_true_eq_false, if_false, if_pos hleft]

theorem writerPushWord_pushes {next : List UInt8} (hnext : next.length = 4) :
    Pushes params requestIndex (fun output => writerPushWord params output (firstWord next))
      next := by
  refine pushes_of_appends (writerPushWord_appends hcapacity hnext) ?_
    fun output h => writerPushWord_failed h _
  intro before done output h hdone hover
  rw [List.length_append, hnext] at hover
  exact writerPushWord_full hcapacity h hdone hover _

section Copies

variable {readWord readByte : UInt32 → UInt32} {text : List UInt8} {byteLen : UInt32}
  {before : UInt32 → UInt32} {done : List UInt8}

theorem pushWords_tracks (hreads : Reads readWord readByte text)
    (hlen : byteLen.toNat = text.length) (byteIndex : UInt32) (output : Output)
    (hindex : byteIndex.toNat ≤ text.length)
    (h : Tracks params requestIndex before (done ++ text.take byteIndex.toNat) output) :
    let result := pushWords params readWord byteLen byteIndex output
    result.2.toNat ≤ text.length ∧
      Tracks params requestIndex before (done ++ text.take result.2.toNat) result.1 := by
  fun_induction pushWords params readWord byteLen byteIndex output with
  | case1 byteIndex output hfour ih =>
      obtain ⟨hinside, hnext⟩ := four_inside (hlen ▸ hindex) hfour
      have hword : readWord byteIndex = firstWord ((text.drop byteIndex.toNat).take 4) := by
        rw [hreads.word byteIndex (by omega), firstWord_take _ (le_refl 4)]
      have htake : done ++ text.take (byteIndex + 4).toNat =
          done ++ text.take byteIndex.toNat ++ (text.drop byteIndex.toNat).take 4 := by
        rw [hnext, List.take_add, List.append_assoc]
      refine ih (by omega) ?_
      rw [htake, hword]
      refine writerPushWord_pushes hcapacity ?_ before _ output h
      rw [List.length_take, List.length_drop]
      omega
  | case2 byteIndex output hfour => exact ⟨hindex, h⟩

theorem pushBytes_tracks (hreads : Reads readWord readByte text)
    (hlen : byteLen.toNat = text.length) (byteIndex : UInt32) (output : Output)
    (h : Tracks params requestIndex before (done ++ text.take byteIndex.toNat) output)
    (hindex : byteIndex.toNat ≤ text.length) :
    Tracks params requestIndex before (done ++ text)
      (pushBytes params readByte byteLen byteIndex output) := by
  fun_induction pushBytes params readByte byteLen byteIndex output with
  | case1 byteIndex output hlt ih =>
      have hnext := succ_toNat hlt
      have hlt := UInt32.lt_iff_toNat_lt.mp hlt
      have htake : done ++ text.take (byteIndex + 1).toNat =
          done ++ text.take byteIndex.toNat ++ [text.getD byteIndex.toNat 0] := by
        rw [hnext, List.take_succ_eq_append_getElem (by omega), List.append_assoc,
          List.getD_eq_getElem?_getD, List.getElem?_eq_getElem (by omega), Option.getD_some]
      refine ih ?_ (by omega)
      rw [htake, hreads.byte byteIndex (by omega)]
      exact writerPushByte_pushes hcapacity _ before _ output h
  | case2 byteIndex output hge =>
      have hge := UInt32.not_lt.mp hge
      rw [UInt32.le_iff_toNat_le, hlen] at hge
      rwa [List.take_of_length_le hge] at h

/-- A copy pushes the string its readers return. -/
theorem pushRange_pushes (hreads : Reads readWord readByte text)
    (hlen : byteLen.toNat = text.length) :
    Pushes params requestIndex (pushRange params readWord readByte byteLen) text := by
  intro before done output h
  obtain ⟨hle, hwords⟩ := pushWords_tracks hcapacity hreads hlen 0 output (Nat.zero_le _) (by
    rwa [show (0 : UInt32).toNat = 0 from rfl, List.take_zero, List.append_nil])
  exact pushBytes_tracks hcapacity hreads hlen _ _ hwords hle

/-- A copy appends the string its readers return. -/
theorem pushRange_appends (hreads : Reads readWord readByte text)
    (hlen : byteLen.toNat = text.length) :
    Appends params requestIndex (pushRange params readWord readByte byteLen) text :=
  (pushRange_pushes hcapacity hreads hlen).appends

end Copies

theorem pushDigits_pushes (value : UInt32) (k : Nat) {divisor : UInt32}
    (hdivisor : divisor.toNat = 10 ^ k) :
    Pushes params requestIndex (pushDigits params value divisor) (digitsDown value.toNat k) := by
  have hdigit : digit (value.toNat / 10 ^ k) = digit (value / divisor).toNat := by
    rw [UInt32.toNat_div, hdivisor]
  have hone : divisor ≤ 1 ↔ 10 ^ k ≤ 1 := by
    rw [UInt32.le_iff_toNat_le, hdivisor]
    rfl
  induction k generalizing divisor with
  | zero =>
      intro before done output h
      rw [pushDigits, if_pos (hone.mpr (le_refl 1)), digit_toUInt32, ← hdigit, Nat.pow_zero,
        Nat.div_one]
      exact writerPushByte_pushes hcapacity _ before done output h
  | succ k ih =>
      have hpos : 0 < 10 ^ k := Nat.pow_pos (by omega)
      have hnext : (divisor / 10).toNat = 10 ^ k := by
        rw [div_ten_toNat, hdivisor, Nat.pow_succ, Nat.mul_div_cancel _ (by omega)]
      have hlater := ih hnext (by rw [UInt32.toNat_div, hnext]) (by
        rw [UInt32.le_iff_toNat_le, hnext]
        rfl)
      have hboth := (writerPushByte_pushes hcapacity (digit (value.toNat / 10 ^ (k + 1)))).comp
        hlater
      intro before done output h
      rw [pushDigits, if_neg (by rw [hone, Nat.pow_succ]; omega), digit_toUInt32, ← hdigit]
      exact hboth before done output h

theorem writerPushDecimal_pushes (value : UInt32) :
    Pushes params requestIndex (writerPushDecimal params value) (decimal value.toNat) := by
  obtain ⟨m, hdivisor, hlast, hfirst⟩ := growDivisor_spec value 1 0 rfl (Or.inl rfl)
  rw [decimal_eq_digitsDown hlast hfirst]
  exact pushDigits_pushes hcapacity value m hdivisor

theorem writerPushDecimal_appends (value : UInt32) :
    Appends params requestIndex (writerPushDecimal params value) (decimal value.toNat) :=
  (writerPushDecimal_pushes hcapacity value).appends

end Pushing

/-- The response an invocation has left in its slot, as `decode_responses` cuts it
out. -/
def slotBytes (params : Params) (requestIndex : UInt32) (storage : Storage) : List UInt8 :=
  bytesFrom storage.outputWords (slotBase params requestIndex)
    (storage.responseMeta requestIndex).outputLen.toNat

/-- A storage in which the slot of a request holds a response, and every other
slot is what it was. -/
structure Answered (params : Params) (requestIndex : UInt32) (before after : Storage)
    (status : UInt32) (bytes : List UInt8) : Prop where
  outputLen : (after.responseMeta requestIndex).outputLen.toNat = bytes.length
  status : (after.responseMeta requestIndex).status = status
  flags : (after.responseMeta requestIndex).flags = 0
  bytes : Holds after.outputWords (slotBase params requestIndex) bytes
  otherMeta : ∀ i, i ≠ requestIndex → after.responseMeta i = before.responseMeta i
  otherWords : ∀ i, ¬ InSlot params requestIndex i → after.outputWords i = before.outputWords i

theorem Answered.slotBytes_eq {params : Params} {requestIndex : UInt32} {before after : Storage}
    {status : UInt32} {bytes : List UInt8}
    (h : Answered params requestIndex before after status bytes) :
    slotBytes params requestIndex after = bytes := by
  rw [slotBytes, h.outputLen]
  exact h.bytes.bytesFrom_eq

/-- `writer_finish` completes the slot. -/
theorem writerFinish_answered {params : Params} {requestIndex : UInt32} {bytes : List UInt8}
    {output : Output} {storage : Storage} (status : UInt32)
    (hcapacity : 4 * params.responseStrideWords.toNat < 2 ^ 32)
    (h : Wrote params requestIndex storage.outputWords bytes output)
    (hfits : bytes.length ≤ 4 * params.responseStrideWords.toNat) :
    Answered params requestIndex storage (writerFinish params output status storage) status
      bytes := by
  have hlane : output.writer.cursor &&& 3 = 0 ↔ bytes.length % 4 = 0 := by
    rw [← UInt32.toNat_inj, lane_toNat, h.cursor]
    rfl
  -- every word that has a byte of the response is its word
  have hholds {words : UInt32 → UInt32}
      (hwords : ∀ k, 4 * k < bytes.length → words (slotBase params requestIndex + UInt32.ofNat k) =
        firstWord (bytes.drop (4 * k))) :
      Holds words (slotBase params requestIndex) bytes := by
    intro k r hr hk
    rw [hwords k (by omega), byteOf_firstWord _ hr, getD_drop]
  simp only [writerFinish, h.flags, ne_eq, not_true_eq_false, if_false, hlane, h.index,
    wordIndex_eq h.cursor, h.pending, ite_not]
  refine
    { outputLen := ?_
      status := ?_
      flags := ?_
      bytes := ?_
      otherMeta := fun i hi => Function.update_of_ne hi _ _
      otherWords := ?_ }
  · simp only [Function.update_self, h.cursor]
  · simp only [Function.update_self]
  · simp only [Function.update_self]
  · refine hholds fun k hk => ?_
    by_cases hpartial : bytes.length % 4 = 0
    · simp only [if_pos hpartial]
      exact h.written k (by omega)
    · obtain ⟨hwritten, -⟩ := h.store hcapacity (by omega) []
      simp only [if_neg hpartial]
      simp only [List.append_nil] at hwritten
      exact hwritten k (by omega)
  · by_cases hpartial : bytes.length % 4 = 0
    · simp only [if_pos hpartial]
      exact h.others
    · obtain ⟨-, hothers⟩ := h.store hcapacity (by omega) []
      simp only [if_neg hpartial]
      simp only [List.append_nil] at hothers
      exact hothers

theorem writerFinish_failed {params : Params} {output : Output} (h : Failed output)
    (status : UInt32) (storage : Storage) :
    ((writerFinish params output status storage).responseMeta output.writer.requestIndex).flags =
      output.writer.flags := by
  have hflags : output.writer.flags ≠ 0 := h
  simp only [writerFinish, if_pos hflags, Function.update_self]

end Shader
end Http
end Gput
