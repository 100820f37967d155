import Mathlib.Data.List.Basic
import Gput.Library.LittleEndian
import Gput.Library.Outcome

/-!
# Byte strings in word memories

A memory is a function from word positions to words.  It holds a byte string
from a word on when its words have the bytes of the string, lowest byte first.
Such a memory is read byte by byte or, at any alignment, four bytes at a time;
it is filled by joining shifted bytes or words into a word that is not complete
yet.
-/

namespace WordMemory

open LittleEndian

section Counting

variable {i n : UInt32}

theorem succ_toNat (h : i < n) : (i + 1).toNat = i.toNat + 1 := by
  have hlt := UInt32.lt_iff_toNat_lt.mp h
  have hn := n.toNat_lt
  rw [UInt32.toNat_add, show (1 : UInt32).toNat = 1 from rfl, Nat.mod_eq_of_lt (by omega)]

/-- While four are left, four more can be taken. -/
theorem four_le (h : n - i ≥ 4) :
    4 ≤ (n - i).toNat ∧ (n - (i + 4)).toNat = (n - i).toNat - 4 := by
  have hle : 4 ≤ (n - i).toNat := UInt32.le_iff_toNat_le.mp h
  have hi := i.toNat_lt
  have hn := n.toNat_lt
  refine ⟨hle, ?_⟩
  rw [UInt32.toNat_sub] at hle ⊢
  rw [UInt32.toNat_add, show (4 : UInt32).toNat = 4 from rfl, UInt32.toNat_sub]
  omega

/-- Four more, as a position. -/
theorem four_inside (hi : i.toNat ≤ n.toNat) (h : n - i ≥ 4) :
    i.toNat + 4 ≤ n.toNat ∧ (i + 4).toNat = i.toNat + 4 := by
  obtain ⟨hle, -⟩ := four_le h
  have hn := n.toNat_lt
  rw [UInt32.toNat_sub_of_le _ _ (UInt32.le_iff_toNat_le.mpr hi)] at hle
  refine ⟨by omega, ?_⟩
  rw [UInt32.toNat_add, show (4 : UInt32).toNat = 4 from rfl, Nat.mod_eq_of_lt (by omega)]

theorem div_ten_toNat (i : UInt32) : (i / 10).toNat = i.toNat / 10 := by
  rw [UInt32.toNat_div]
  rfl

end Counting

/-- The words from `base` on hold the bytes. -/
def Holds (memory : UInt32 → UInt32) (base : UInt32) (bytes : List UInt8) : Prop :=
  ∀ k r, r < 4 → 4 * k + r < bytes.length →
    byteOf (memory (base + UInt32.ofNat k)) r = bytes.getD (4 * k + r) 0

/-- A buffer that starts with a list; what stands behind it is left open. -/
def Stores {α : Type} (buffer : UInt32 → α) (values : List α) : Prop :=
  ∀ (i : UInt32) (value : α), values[i.toNat]? = some value → buffer i = value

/-- A transfer at the start of a buffer; one that leaves it is an error of the
device. -/
def transfer (bytes capacity : Nat) : Outcome Unit :=
  if bytes ≤ capacity then .ok () else .panic

theorem transfer_of_le {bytes capacity : Nat} (h : bytes ≤ capacity) :
    transfer bytes capacity = .ok () :=
  if_pos h

/-- A buffer after an upload: behind the uploaded values it is what it was. -/
def upload {α : Type} (values : List α) (buffer : UInt32 → α) : UInt32 → α :=
  fun i => values.getD i.toNat (buffer i)

theorem stores_upload {α : Type} (values : List α) (buffer : UInt32 → α) :
    Stores (upload values buffer) values := by
  intro i value hi
  rw [upload, List.getD_eq_getElem?_getD, hi, Option.getD_some]

/-- The word of the first four bytes of a string, padded with zeros. -/
def firstWord (bytes : List UInt8) : UInt32 :=
  wordOf (bytes.getD 0 0) (bytes.getD 1 0) (bytes.getD 2 0) (bytes.getD 3 0)

theorem getD_drop (bytes : List UInt8) (n k : Nat) :
    (bytes.drop n).getD k 0 = bytes.getD (n + k) 0 := by
  rw [List.getD_eq_getElem?_getD, List.getD_eq_getElem?_getD, List.getElem?_drop]

theorem byteOf_firstWord (bytes : List UInt8) {r : Nat} (hr : r < 4) :
    byteOf (firstWord bytes) r = bytes.getD r 0 := by
  rw [firstWord, byteOf_wordOf _ _ _ _ hr]
  interval_cases r <;> rfl

/-- A word with given bytes is the word of these bytes. -/
theorem eq_firstWord {w : UInt32} {bytes : List UInt8}
    (h : ∀ r, r < 4 → byteOf w r = bytes.getD r 0) : w = firstWord bytes :=
  eq_of_byteOf_eq fun r hr => (h r hr).trans (byteOf_firstWord bytes hr).symm

theorem firstWord_toBytes (w : UInt32) : firstWord (toBytes [w]) = w :=
  wordOf_byteOf w

/-- The first word determines the first four bytes. -/
theorem take_four_of_firstWord {left right : List UInt8} (hleft : 4 ≤ left.length)
    (hright : 4 ≤ right.length) (h : firstWord left = firstWord right) :
    left.take 4 = right.take 4 := by
  apply List.ext_getElem?
  intro r
  by_cases hr : r < 4
  · have hbyte := congrArg (byteOf · r) h
    simp only [byteOf_firstWord _ hr, List.getD_eq_getElem?_getD] at hbyte
    rw [List.getElem?_eq_getElem (show r < left.length by omega),
      List.getElem?_eq_getElem (show r < right.length by omega)] at hbyte
    rw [List.getElem?_take_of_lt hr, List.getElem?_take_of_lt hr,
      List.getElem?_eq_getElem (show r < left.length by omega),
      List.getElem?_eq_getElem (show r < right.length by omega)]
    exact congrArg some hbyte
  · rw [List.getElem?_eq_none (by rw [List.length_take]; omega),
      List.getElem?_eq_none (by rw [List.length_take]; omega)]

theorem firstWord_take (bytes : List UInt8) {n : Nat} (hn : 4 ≤ n) :
    firstWord (bytes.take n) = firstWord bytes := by
  refine eq_firstWord fun r hr => ?_
  rw [byteOf_firstWord _ hr, List.getD_eq_getElem?_getD, List.getD_eq_getElem?_getD,
    List.getElem?_take_of_lt (by omega)]

theorem firstWord_append {left right : List UInt8} (h : 4 ≤ left.length) :
    firstWord (left ++ right) = firstWord left := by
  rw [← firstWord_take (left ++ right) h, List.take_left]

/-- Complete words stay what they are when a string grows. -/
theorem firstWord_drop_append {left : List UInt8} {n : Nat} (h : n + 4 ≤ left.length)
    (right : List UInt8) : firstWord ((left ++ right).drop n) = firstWord (left.drop n) := by
  rw [List.drop_append_of_le_length (by omega), firstWord_append]
  rw [List.length_drop]
  omega

section Reading

variable (memory : UInt32 → UInt32) (base : UInt32)

/-- One byte: shift its word and mask. -/
def readByte (i : UInt32) : UInt32 :=
  (memory (base + i / 4) >>> ((i &&& 3) * 8)) &&& 255

/-- Four bytes: one word, or the parts of two words joined. -/
def readWord (i : UInt32) : UInt32 :=
  if (i &&& 3) * 8 = 0 then memory (base + i / 4)
  else
    (memory (base + i / 4) >>> ((i &&& 3) * 8)) |||
      (memory (base + i / 4 + 1) <<< (32 - (i &&& 3) * 8))

variable {memory base} {bytes : List UInt8}

theorem div_four_eq (i : UInt32) : i / 4 = UInt32.ofNat (i.toNat / 4) := by
  have := i.toNat_lt
  apply UInt32.toNat_inj.mp
  rw [UInt32.toNat_div, UInt32.toNat_ofNat']
  simp only [UInt32.reduceToNat]
  omega

theorem readByte_eq (h : Holds memory base bytes) {i : UInt32} (hi : i.toNat < bytes.length) :
    readByte memory base i = (bytes.getD i.toNat 0).toUInt32 := by
  have hbyte := h (i.toNat / 4) (i.toNat % 4) (by omega) (by omega)
  rw [Nat.div_add_mod] at hbyte
  rw [readByte, div_four_eq, shiftMask_eq_byteOf, hbyte]

/-- A word-by-word read returns the next four bytes, whatever the alignment. -/
theorem readWord_eq (h : Holds memory base bytes) {i : UInt32}
    (hi : i.toNat + 4 ≤ bytes.length) :
    readWord memory base i = firstWord (bytes.drop i.toNat) := by
  have hbyte (k r : Nat) (hr : r < 4) (hk : 4 * k + r < bytes.length) :
      byteOf (memory (base + UInt32.ofNat k)) r = bytes.getD (4 * k + r) 0 := h k r hr hk
  have hshift := laneShift_toNat i
  have hnext : base + i / 4 + 1 = base + UInt32.ofNat (i.toNat / 4 + 1) := by
    rw [div_four_eq, UInt32.add_assoc]
    congr 1
    have := i.toNat_lt
    apply UInt32.toNat_inj.mp
    rw [UInt32.toNat_add, UInt32.toNat_ofNat', UInt32.toNat_ofNat']
    simp only [UInt32.reduceToNat]
    omega
  by_cases haligned : i.toNat % 4 = 0
  · have hzero : (i &&& 3) * 8 = 0 := by
      apply UInt32.toNat_inj.mp
      rw [hshift, haligned]
      rfl
    rw [readWord, if_pos hzero, div_four_eq]
    refine eq_firstWord fun r hr => ?_
    rw [hbyte _ r hr (by omega), getD_drop]
    congr 1
    omega
  · have hzero : (i &&& 3) * 8 ≠ 0 := by
      intro heq
      have := congrArg UInt32.toNat heq
      rw [hshift] at this
      simp only [UInt32.reduceToNat] at this
      omega
    -- as functions of byte positions the two words are neighbours in one memory
    have hwords (k : Nat) : memory (base + UInt32.ofNat k) =
        word (fun p => byteOf (memory (base + UInt32.ofNat (p / 4))) (p % 4)) k := by
      refine eq_of_byteOf_eq fun r hr => ?_
      rw [byteOf_word _ _ hr, show (4 * k + r) / 4 = k by omega, show (4 * k + r) % 4 = r by omega]
    rw [readWord, if_neg hzero, hnext, div_four_eq, hwords (i.toNat / 4), hwords (i.toNat / 4 + 1),
      join_eq_word _ _ _ haligned]
    refine eq_firstWord fun r hr => ?_
    rw [byteOf_word _ _ hr, hbyte _ _ (Nat.mod_lt _ (by omega)) (by omega), getD_drop]
    congr 1
    omega

end Reading

/-- Two readers that return the bytes of a string, one and four at a time. -/
structure Reads (readWord readByte : UInt32 → UInt32) (bytes : List UInt8) : Prop where
  word : ∀ i : UInt32, i.toNat + 4 ≤ bytes.length → readWord i = firstWord (bytes.drop i.toNat)
  byte : ∀ i : UInt32, i.toNat < bytes.length → readByte i = (bytes.getD i.toNat 0).toUInt32

/-- Reading from a position on returns the string that stands there. -/
theorem Holds.reads {memory : UInt32 → UInt32} {base : UInt32} {bytes text : List UInt8}
    (h : Holds memory base bytes) {start : UInt32} (hstart : start.toNat + text.length ≤ 2 ^ 32)
    (htext : text <+: bytes.drop start.toNat) :
    Reads (fun i => readWord memory base (start + i)) (fun i => readByte memory base (start + i))
      text := by
  obtain ⟨more, hmore⟩ := htext
  have hlen : text.length + more.length = bytes.length - start.toNat := by
    rw [← List.length_append, hmore, List.length_drop]
  have hsum {i : UInt32} (hi : i.toNat < text.length) :
      (start + i).toNat = start.toNat + i.toNat := by
    rw [UInt32.toNat_add, Nat.mod_eq_of_lt (by omega)]
  constructor
  · intro i hi
    have hat := hsum (show i.toNat < text.length by omega)
    rw [readWord_eq h (by omega), hat, ← List.drop_drop, ← hmore, firstWord_drop_append hi]
  · intro i hi
    have hat := hsum hi
    rw [readByte_eq h (by omega), hat, ← getD_drop, ← hmore, List.getD_eq_getElem?_getD,
      List.getElem?_append_left hi, List.getD_eq_getElem?_getD]

/-- The first bytes of a memory from a word on. -/
def bytesFrom (memory : UInt32 → UInt32) (base : UInt32) (len : Nat) : List UInt8 :=
  (List.range len).map fun k => byteOf (memory (base + UInt32.ofNat (k / 4))) (k % 4)

theorem Holds.bytesFrom_eq {memory : UInt32 → UInt32} {base : UInt32} {bytes : List UInt8}
    (h : Holds memory base bytes) : bytesFrom memory base bytes.length = bytes := by
  apply List.ext_getElem?
  intro k
  rw [bytesFrom, List.getElem?_map]
  by_cases hk : k < bytes.length
  · rw [List.getElem?_range hk, Option.map_some, List.getElem?_eq_getElem hk,
      h (k / 4) (k % 4) (Nat.mod_lt _ (by omega)) (by omega), Nat.div_add_mod,
      List.getD_eq_getElem?_getD, List.getElem?_eq_getElem hk, Option.getD_some]
  · rw [List.getElem?_eq_none (by simpa using hk), List.getElem?_eq_none (by omega)]
    rfl

/-- A byte or a word joined in above the bytes that are already there. -/
theorem or_shiftLeft_toNat {w v shift : UInt32} {r : Nat} (hr : r < 4)
    (hw : w.toNat < 2 ^ (8 * r)) (hshift : shift.toNat = 8 * r) :
    (w ||| v <<< shift).toNat = w.toNat + 2 ^ (8 * r) * (v.toNat % 2 ^ (32 - 8 * r)) := by
  rw [UInt32.toNat_or, UInt32.toNat_shiftLeft, hshift, Nat.shiftLeft_eq,
    Nat.mod_eq_of_lt (show 8 * r < 32 by omega)]
  exact or_shifted _ _ (8 * r) (by omega) hw

/-- The texts that do not fill a word. -/
theorem short_cases {bytes : List UInt8} (h : bytes.length < 4) :
    bytes = [] ∨ (∃ a, bytes = [a]) ∨ (∃ a b, bytes = [a, b]) ∨ ∃ a b c, bytes = [a, b, c] := by
  rcases bytes with _ | ⟨a, _ | ⟨b, _ | ⟨c, _ | ⟨d, rest⟩⟩⟩⟩
  · exact Or.inl rfl
  · exact Or.inr (Or.inl ⟨a, rfl⟩)
  · exact Or.inr (Or.inr (Or.inl ⟨a, b, rfl⟩))
  · exact Or.inr (Or.inr (Or.inr ⟨a, b, c, rfl⟩))
  · simp only [List.length_cons] at h
    omega

theorem firstWord_toNat_lt {bytes : List UInt8} (h : bytes.length < 4) :
    (firstWord bytes).toNat < 2 ^ (8 * bytes.length) := by
  have hbyte (b : UInt8) : b.toNat < 256 := b.toNat_lt
  rw [firstWord, wordOf_toNat, assemble]
  rcases short_cases h with rfl | ⟨a, rfl⟩ | ⟨a, b, rfl⟩ | ⟨a, b, c, rfl⟩
  · simp
  · have := hbyte a
    simp
    omega
  · have := hbyte a
    have := hbyte b
    simp
    omega
  · have := hbyte a
    have := hbyte b
    have := hbyte c
    simp
    omega

/-- Joining in one more byte. -/
theorem firstWord_or_byte {bytes : List UInt8} (h : bytes.length < 4) (byte : UInt8)
    {shift : UInt32} (hshift : shift.toNat = 8 * bytes.length) :
    firstWord bytes ||| byte.toUInt32 <<< shift = firstWord (bytes ++ [byte]) := by
  apply UInt32.toNat_inj.mp
  rw [or_shiftLeft_toNat h (firstWord_toNat_lt h) hshift, UInt8.toNat_toUInt32]
  have hbyte := byte.toNat_lt
  rw [firstWord, firstWord, wordOf_toNat, wordOf_toNat, assemble, assemble]
  rcases short_cases h with rfl | ⟨a, rfl⟩ | ⟨a, b, rfl⟩ | ⟨a, b, c, rfl⟩
  · simp
  · simp
    omega
  · simp
  · simp

/-- Joining in a word fills the word up. -/
theorem firstWord_or_word {bytes : List UInt8} (h : bytes.length < 4) (next : List UInt8)
    (hnext : next.length = 4) {shift : UInt32} (hshift : shift.toNat = 8 * bytes.length) :
    firstWord bytes ||| firstWord next <<< shift = firstWord (bytes ++ next) := by
  apply UInt32.toNat_inj.mp
  rw [or_shiftLeft_toNat h (firstWord_toNat_lt h) hshift]
  obtain ⟨n0, n1, n2, n3, rfl⟩ := List.length_eq_four.mp hnext
  have h0 := n0.toNat_lt
  have h1 := n1.toNat_lt
  have h2 := n2.toNat_lt
  have h3 := n3.toNat_lt
  rw [firstWord, firstWord, firstWord, wordOf_toNat, wordOf_toNat, wordOf_toNat, assemble,
    assemble, assemble]
  rcases short_cases h with rfl | ⟨a, rfl⟩ | ⟨a, b, rfl⟩ | ⟨a, b, c, rfl⟩
  · simp
    omega
  · simp
    omega
  · simp
    omega
  · simp
    omega

/-- What does not fit is left for the next word. -/
theorem firstWord_carry {bytes : List UInt8} (h : bytes.length < 4) (hne : bytes ≠ [])
    (next : List UInt8) (hnext : next.length = 4) {shift : UInt32}
    (hshift : shift.toNat = 8 * bytes.length) :
    firstWord next >>> (32 - shift) = firstWord ((bytes ++ next).drop 4) := by
  have hpos := List.length_pos_iff.mpr hne
  have hsub : (32 - shift).toNat = 32 - 8 * bytes.length := by
    rw [UInt32.toNat_sub_of_le, hshift]
    · rfl
    · rw [UInt32.le_iff_toNat_le, hshift]
      simp only [UInt32.reduceToNat]
      omega
  apply UInt32.toNat_inj.mp
  rw [UInt32.toNat_shiftRight, hsub, Nat.shiftRight_eq_div_pow,
    Nat.mod_eq_of_lt (show 32 - 8 * bytes.length < 32 by omega)]
  obtain ⟨n0, n1, n2, n3, rfl⟩ := List.length_eq_four.mp hnext
  have h0 := n0.toNat_lt
  have h1 := n1.toNat_lt
  have h2 := n2.toNat_lt
  have h3 := n3.toNat_lt
  rw [firstWord, firstWord, wordOf_toNat, wordOf_toNat, assemble, assemble]
  rcases short_cases h with rfl | ⟨a, rfl⟩ | ⟨a, b, rfl⟩ | ⟨a, b, c, rfl⟩
  · exact absurd rfl hne
  · simp
    omega
  · simp
    omega
  · simp
    omega

/-- Joins the bytes from position `index` on into their words. -/
def joinBytes (words : List UInt32) (index : Nat) : List UInt8 → List UInt32
  | [] => words
  | byte :: rest =>
      joinBytes
        (words.modify (index / 4) (· ||| byte.toUInt32 <<< UInt32.ofNat (index % 4 * 8)))
        (index + 1) rest

/-- The first `count` words of a string. -/
def wordsOf (count : Nat) (bytes : List UInt8) : List UInt32 :=
  (List.range count).map fun i => firstWord (bytes.drop (4 * i))

theorem wordsOf_length (count : Nat) (bytes : List UInt8) :
    (wordsOf count bytes).length = count := by
  rw [wordsOf, List.length_map, List.length_range]

theorem wordsOf_getElem? {count i : Nat} (hi : i < count) (bytes : List UInt8) :
    (wordsOf count bytes)[i]? = some (firstWord (bytes.drop (4 * i))) := by
  rw [wordsOf, List.getElem?_map, List.getElem?_range hi, Option.map_some]

theorem wordsOf_nil (count : Nat) : wordsOf count [] = List.replicate count 0 := by
  rw [wordsOf, List.eq_replicate_iff, List.length_map, List.length_range]
  refine ⟨rfl, fun w hw => ?_⟩
  obtain ⟨i, -, rfl⟩ := List.mem_map.mp hw
  rw [List.drop_nil]
  rfl

/-- One more byte changes the word that is being filled. -/
theorem firstWord_drop_snoc (bytes : List UInt8) (byte : UInt8) (i : Nat) :
    firstWord ((bytes ++ [byte]).drop (4 * i)) =
      if bytes.length / 4 = i then
        firstWord (bytes.drop (4 * i)) ||| byte.toUInt32 <<< UInt32.ofNat (bytes.length % 4 * 8)
      else firstWord (bytes.drop (4 * i)) := by
  rcases Nat.lt_trichotomy i (bytes.length / 4) with hlt | rfl | hgt
  · rw [if_neg (by omega), firstWord_drop_append (by omega)]
  · have hlen : (bytes.drop (4 * (bytes.length / 4))).length = bytes.length % 4 := by
      rw [List.length_drop]
      omega
    have hshift : (UInt32.ofNat (bytes.length % 4 * 8)).toNat = 8 * (bytes.length % 4) := by
      rw [UInt32.toNat_ofNat']
      omega
    rw [if_pos rfl, List.drop_append_of_le_length (by omega),
      firstWord_or_byte (by omega) byte (hshift.trans (by rw [hlen]))]
  · have hlen : (bytes ++ [byte]).length = bytes.length + 1 := by
      rw [List.length_append, List.length_singleton]
    rw [if_neg (by omega), @List.drop_eq_nil_of_le _ (bytes ++ [byte]) _ (by omega),
      @List.drop_eq_nil_of_le _ bytes _ (by omega)]

theorem modify_wordsOf (count : Nat) (bytes : List UInt8) (byte : UInt8) :
    (wordsOf count bytes).modify (bytes.length / 4)
        (· ||| byte.toUInt32 <<< UInt32.ofNat (bytes.length % 4 * 8)) =
      wordsOf count (bytes ++ [byte]) := by
  apply List.ext_getElem?
  intro i
  rw [List.getElem?_modify]
  by_cases hi : i < count
  · rw [wordsOf_getElem? hi, wordsOf_getElem? hi, firstWord_drop_snoc]
    split <;> rfl
  · have hnone (string : List UInt8) : (wordsOf count string)[i]? = none := by
      rw [List.getElem?_eq_none_iff, wordsOf_length]
      omega
    rw [hnone, hnone]
    rfl

/-- Joining all bytes of a string gives its words. -/
theorem joinBytes_eq (count : Nat) (done rest : List UInt8) :
    joinBytes (wordsOf count done) done.length rest = wordsOf count (done ++ rest) := by
  induction rest generalizing done with
  | nil => rw [joinBytes, List.append_nil]
  | cons byte rest ih =>
      have hstep := ih (done ++ [byte])
      rw [List.length_append, List.length_singleton, List.append_assoc] at hstep
      rw [joinBytes, modify_wordsOf, hstep]
      rfl

/-- A buffer with the words of a string holds it. -/
theorem Stores.holds {buffer : UInt32 → UInt32} {bytes : List UInt8}
    (h : Stores buffer (wordsOf ((bytes.length + 3) / 4) bytes)) (hlen : bytes.length ≤ 2 ^ 32) :
    Holds buffer 0 bytes := by
  intro k r hr hk
  have hindex : (UInt32.ofNat k).toNat = k := by
    rw [UInt32.toNat_ofNat']
    omega
  have hword := h (UInt32.ofNat k) _ (by rw [hindex]; exact wordsOf_getElem? (by omega) bytes)
  rw [UInt32.zero_add, hword, byteOf_firstWord _ hr, getD_drop]

end WordMemory
