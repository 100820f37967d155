import Mathlib.Tactic.IntervalCases
import Mathlib.Tactic.NormNum

/-!
# Bytes packed into little-endian words

A byte memory is a function from byte positions to bytes; its word `i` holds
the bytes `4 i` to `4 i + 3`, lowest position in the lowest bits.  The module
relates the two usual ways to read such words back, shift-and-mask for one
byte and the join of two neighbouring words for four bytes at any alignment,
to the byte memory, and it describes the cast of a word list to its bytes.
-/

namespace LittleEndian

/-- Number assembled from four bytes, lowest first. -/
def assemble (b0 b1 b2 b3 : UInt8) : Nat :=
  b0.toNat + 2 ^ 8 * b1.toNat + 2 ^ 16 * b2.toNat + 2 ^ 24 * b3.toNat

theorem assemble_lt (b0 b1 b2 b3 : UInt8) : assemble b0 b1 b2 b3 < 2 ^ 32 := by
  have h0 := b0.toNat_lt
  have h1 := b1.toNat_lt
  have h2 := b2.toNat_lt
  have h3 := b3.toNat_lt
  unfold assemble
  omega

/-- The word whose bytes are `b0` to `b3`, lowest first. -/
def wordOf (b0 b1 b2 b3 : UInt8) : UInt32 :=
  UInt32.ofNat (assemble b0 b1 b2 b3)

@[simp] theorem wordOf_toNat (b0 b1 b2 b3 : UInt8) :
    (wordOf b0 b1 b2 b3).toNat = assemble b0 b1 b2 b3 := by
  have h := assemble_lt b0 b1 b2 b3
  simp only [wordOf, UInt32.toNat_ofNat']
  omega

/-- Word `i` of a byte memory. -/
def word (f : Nat → UInt8) (i : Nat) : UInt32 :=
  wordOf (f (4 * i)) (f (4 * i + 1)) (f (4 * i + 2)) (f (4 * i + 3))

theorem word_toNat (f : Nat → UInt8) (i : Nat) :
    (word f i).toNat =
      assemble (f (4 * i)) (f (4 * i + 1)) (f (4 * i + 2)) (f (4 * i + 3)) :=
  wordOf_toNat _ _ _ _

/-- Byte `r` of a word, by shifting it down and masking. -/
def byteOf (w : UInt32) (r : Nat) : UInt8 :=
  UInt8.ofNat (w.toNat / 2 ^ (8 * r))

theorem byteOf_toNat (w : UInt32) (r : Nat) :
    (byteOf w r).toNat = w.toNat / 2 ^ (8 * r) % 2 ^ 8 := by
  simp [byteOf]

theorem byteOf_wordOf (b0 b1 b2 b3 : UInt8) {r : Nat} (hr : r < 4) :
    byteOf (wordOf b0 b1 b2 b3) r = [b0, b1, b2, b3].getD r 0 := by
  have h0 := b0.toNat_lt
  have h1 := b1.toNat_lt
  have h2 := b2.toNat_lt
  have h3 := b3.toNat_lt
  apply UInt8.toNat_inj.mp
  rw [byteOf_toNat, wordOf_toNat]
  unfold assemble
  interval_cases r <;> simp <;> omega

theorem byteOf_word (f : Nat → UInt8) (i : Nat) {r : Nat} (hr : r < 4) :
    byteOf (word f i) r = f (4 * i + r) := by
  rw [word, byteOf_wordOf _ _ _ _ hr]
  interval_cases r <;> rfl

/-- A word is assembled from its own bytes. -/
theorem wordOf_byteOf (w : UInt32) :
    wordOf (byteOf w 0) (byteOf w 1) (byteOf w 2) (byteOf w 3) = w := by
  have hw := w.toNat_lt
  apply UInt32.toNat_inj.mp
  rw [wordOf_toNat]
  simp only [assemble, byteOf_toNat]
  norm_num
  omega

/-- Two words with the same bytes are equal. -/
theorem eq_of_byteOf_eq {v w : UInt32} (h : ∀ r, r < 4 → byteOf v r = byteOf w r) :
    v = w := by
  rw [← wordOf_byteOf v, ← wordOf_byteOf w, h 0 (by omega), h 1 (by omega),
    h 2 (by omega), h 3 (by omega)]

/-- The shift that moves byte `b % 4` of a word to the bottom. -/
theorem laneShift_toNat (b : UInt32) :
    ((b &&& 3) * 8).toNat = 8 * (b.toNat % 4) := by
  have h : (b &&& 3).toNat = b.toNat % 4 := by
    rw [UInt32.toNat_and]
    exact Nat.and_two_pow_sub_one_eq_mod b.toNat 2
  rw [UInt32.toNat_mul, h]
  have : b.toNat % 4 < 4 := Nat.mod_lt _ (by omega)
  simp only [UInt32.reduceToNat]
  omega

/-- Shift-and-mask reads one byte of a word. -/
theorem shiftMask_eq_byteOf (w b : UInt32) :
    (w >>> ((b &&& 3) * 8)) &&& 255 = (byteOf w (b.toNat % 4)).toUInt32 := by
  apply UInt32.toNat_inj.mp
  rw [UInt32.toNat_and, UInt32.toNat_shiftRight, laneShift_toNat, UInt8.toNat_toUInt32,
    byteOf_toNat, Nat.shiftRight_eq_div_pow]
  have h : 8 * (b.toNat % 4) % 32 = 8 * (b.toNat % 4) := by omega
  rw [h]
  exact Nat.and_two_pow_sub_one_eq_mod _ 8

/-- A mask over `w` bits of a number, in place. -/
theorem and_fieldMask (x k w : Nat) :
    x &&& (2 ^ w - 1) * 2 ^ k = x / 2 ^ k % 2 ^ w * 2 ^ k := by
  apply Nat.eq_of_testBit_eq
  intro i
  rw [Nat.testBit_and, Nat.testBit_mul_two_pow, Nat.testBit_mul_two_pow,
    Nat.testBit_mod_two_pow, Nat.testBit_two_pow_sub_one, Nat.testBit_div_two_pow]
  by_cases hk : k ≤ i
  · rw [Nat.sub_add_cancel hk]
    simp [hk, Bool.and_comm]
  · simp [hk]

/-- The join of a shifted number with a number below the shift is their sum. -/
theorem or_below (hi : Nat) {lo k : Nat} (h : lo < 2 ^ k) :
    hi * 2 ^ k ||| lo = hi * 2 ^ k + lo := by
  rw [Nat.mul_comm, ← Nat.two_pow_add_eq_or_of_lt h]

/-- A value shifted up within a word, joined with a value below the shift: the
two occupy disjoint bits, so the join adds them. -/
theorem or_shifted (lo hi k : Nat) (hk : k ≤ 32) (hlo : lo < 2 ^ k) :
    lo ||| hi * 2 ^ k % 2 ^ 32 = lo + 2 ^ k * (hi % 2 ^ (32 - k)) := by
  have hsplit : (2 : Nat) ^ 32 = 2 ^ k * 2 ^ (32 - k) := by
    rw [← Nat.pow_add]
    congr 1
    omega
  have hmod : hi * 2 ^ k % 2 ^ 32 = 2 ^ k * (hi % 2 ^ (32 - k)) := by
    rw [Nat.mul_comm hi, hsplit, Nat.mul_mod_mul_left]
  rw [hmod, Nat.or_comm, ← Nat.two_pow_add_eq_or_of_lt hlo, Nat.add_comm]

/-- Joining the upper part of one word with the lower part of the next reads
four bytes at an unaligned position. -/
theorem join_eq_word (f : Nat → UInt8) (i : Nat) (b : UInt32) (hb : b.toNat % 4 ≠ 0) :
    (word f i >>> ((b &&& 3) * 8)) ||| (word f (i + 1) <<< (32 - (b &&& 3) * 8)) =
      word (fun k => f (k + b.toNat % 4)) i := by
  have hs := laneShift_toNat b
  have hsub : (32 - (b &&& 3) * 8 : UInt32).toNat = 32 - 8 * (b.toNat % 4) := by
    rw [UInt32.toNat_sub_of_le]
    · simp [hs]
    · rw [UInt32.le_iff_toNat_le, hs]
      simp only [UInt32.reduceToNat]
      omega
  have hlow := assemble_lt (f (4 * i)) (f (4 * i + 1)) (f (4 * i + 2)) (f (4 * i + 3))
  apply UInt32.toNat_inj.mp
  rw [UInt32.toNat_or, UInt32.toNat_shiftRight, UInt32.toNat_shiftLeft, hs, hsub,
    word_toNat, word_toNat, word_toNat, Nat.shiftRight_eq_div_pow, Nat.shiftLeft_eq,
    show 4 * (i + 1) = 4 * i + 4 by omega]
  have hr : b.toNat % 4 < 4 := Nat.mod_lt _ (by omega)
  generalize b.toNat % 4 = r at hb hr ⊢
  have hf : ∀ k, (f k).toNat < 2 ^ 8 := fun k => (f k).toNat_lt
  have h0 := hf (4 * i)
  have h1 := hf (4 * i + 1)
  have h2 := hf (4 * i + 2)
  have h3 := hf (4 * i + 3)
  have h4 := hf (4 * i + 4)
  have h5 := hf (4 * i + 5)
  have h6 := hf (4 * i + 6)
  rw [Nat.mod_eq_of_lt (show 32 - 8 * r < 32 by omega),
    Nat.mod_eq_of_lt (show 8 * r < 32 by omega),
    or_shifted _ _ (32 - 8 * r) (by omega)
      (by rw [Nat.div_lt_iff_lt_mul (by positivity), ← Nat.pow_add]
          rw [show 32 - 8 * r + 8 * r = 32 by omega]
          exact hlow)]
  unfold assemble
  interval_cases r
  · exact absurd rfl hb
  all_goals
    simp only [Nat.add_assoc, Nat.reduceAdd, Nat.reduceMul, Nat.reduceSub, Nat.reducePow]
    omega

/-- The bytes of a list of words. -/
def toBytes (ws : List UInt32) : List UInt8 :=
  ws.flatMap (fun w => [byteOf w 0, byteOf w 1, byteOf w 2, byteOf w 3])

@[simp] theorem toBytes_nil : toBytes [] = [] := rfl

@[simp] theorem toBytes_cons (w : UInt32) (ws : List UInt32) :
    toBytes (w :: ws) =
      byteOf w 0 :: byteOf w 1 :: byteOf w 2 :: byteOf w 3 :: toBytes ws := rfl

@[simp] theorem toBytes_length (ws : List UInt32) :
    (toBytes ws).length = 4 * ws.length := by
  induction ws with
  | nil => rfl
  | cons w ws ih =>
      simp only [toBytes_cons, List.length_cons, ih]
      omega

theorem toBytes_append (us vs : List UInt32) :
    toBytes (us ++ vs) = toBytes us ++ toBytes vs := by
  simp [toBytes]

theorem toBytes_wordOf (b0 b1 b2 b3 : UInt8) : toBytes [wordOf b0 b1 b2 b3] = [b0, b1, b2, b3] := by
  rw [toBytes_cons, byteOf_wordOf _ _ _ _ (by omega), byteOf_wordOf _ _ _ _ (by omega),
    byteOf_wordOf _ _ _ _ (by omega), byteOf_wordOf _ _ _ _ (by omega)]
  rfl

/-- Position `k` of the byte view lies in word `k / 4`. -/
theorem toBytes_getElem? (ws : List UInt32) (k : Nat) :
    (toBytes ws)[k]? = ws[k / 4]?.map (fun w => byteOf w (k % 4)) := by
  induction ws generalizing k with
  | nil => simp
  | cons w ws ih =>
      rw [toBytes_cons]
      match k with
      | 0 => simp
      | 1 => simp
      | 2 => simp
      | 3 => simp
      | k + 4 =>
          have hdiv : (k + 4) / 4 = k / 4 + 1 := by omega
          have hmod : (k + 4) % 4 = k % 4 := by omega
          simp only [List.getElem?_cons_succ, hdiv, hmod, ih]

/-- The words of a list of bytes, the last word padded with zeros. -/
def ofBytes (bytes : List UInt8) : List UInt32 :=
  (List.range ((bytes.length + 3) / 4)).map (word (fun k => bytes.getD k 0))

@[simp] theorem ofBytes_length (bytes : List UInt8) :
    (ofBytes bytes).length = (bytes.length + 3) / 4 := by
  simp [ofBytes]

theorem ofBytes_getElem? (bytes : List UInt8) {i : Nat} (hi : i < (bytes.length + 3) / 4) :
    (ofBytes bytes)[i]? = some (word (fun k => bytes.getD k 0) i) := by
  simp [ofBytes, hi]

/-- A word memory that starts with a list of words and goes on with the bytes of
a text, read byte by byte. -/
theorem map_byteOf_range {memory : Nat → UInt32} {ws : List UInt32} {text : List UInt8}
    (hwords : ∀ i (hi : i < ws.length), memory i = ws[i])
    (htext : ∀ k (hk : k < text.length), byteOf (memory (ws.length + k / 4)) (k % 4) = text[k]) :
    (List.range (4 * ws.length + text.length)).map (fun k => byteOf (memory (k / 4)) (k % 4)) =
      toBytes ws ++ text := by
  apply List.ext_getElem?
  intro k
  rw [List.getElem?_map, List.getElem?_append, toBytes_length, toBytes_getElem?]
  by_cases hk : k < 4 * ws.length
  · have hword : k / 4 < ws.length := by omega
    rw [if_pos hk, List.getElem?_range (by omega), Option.map_some, hwords _ hword,
      List.getElem?_eq_getElem hword, Option.map_some]
  rw [if_neg hk]
  by_cases htop : k < 4 * ws.length + text.length
  · have hbyte := htext (k - 4 * ws.length) (by omega)
    rw [show ws.length + (k - 4 * ws.length) / 4 = k / 4 by omega,
      show (k - 4 * ws.length) % 4 = k % 4 by omega] at hbyte
    rw [List.getElem?_range htop, Option.map_some, hbyte, List.getElem?_eq_getElem (by omega)]
  · rw [List.getElem?_eq_none (by simpa using htop), List.getElem?_eq_none (by omega)]
    rfl

end LittleEndian
