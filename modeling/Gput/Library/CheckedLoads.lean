import Gput.Library.WordMemory

/-!
# Loads that may fail

A memory with an end: a load behind it fails.  A byte of a string, or four of
them at any alignment, are read without a failure when the words of the string
are there, and the second of two words is touched only when it is needed.
-/

namespace WordMemory

open LittleEndian

/-- A load inside a list is what a buffer that starts with the list holds. -/
theorem Stores.load {α : Type} {buffer : UInt32 → α} {values : List α} (h : Stores buffer values)
    {i : UInt32} (hi : i.toNat < values.length) : values[i.toNat]? = some (buffer i) := by
  have hat := List.getElem?_eq_getElem hi
  rw [h i _ hat]
  exact hat

section Loading

variable (load : UInt32 → Option UInt32) (base : UInt32)

/-- One byte: load its word, shift and mask. -/
def loadByte (i : UInt32) : Option UInt32 := do
  let word ← load (base + i / 4)
  return (word >>> ((i &&& 3) * 8)) &&& 255

/-- Four bytes: load one word, or two words and join their parts. -/
def loadWord (i : UInt32) : Option UInt32 := do
  let low ← load (base + i / 4)
  if (i &&& 3) * 8 = 0 then return low
  else
    let high ← load (base + i / 4 + 1)
    return (low >>> ((i &&& 3) * 8)) ||| (high <<< (32 - (i &&& 3) * 8))

variable {load base} {memory : UInt32 → UInt32} {len : Nat}

/-- The words of a string of `len` bytes can be loaded. -/
def Backs (load : UInt32 → Option UInt32) (memory : UInt32 → UInt32) (base : UInt32) (len : Nat) :
    Prop :=
  ∀ k, k < (len + 3) / 4 → load (base + UInt32.ofNat k) = some (memory (base + UInt32.ofNat k))

theorem loadByte_eq (h : Backs load memory base len) {i : UInt32} (hi : i.toNat < len) :
    loadByte load base i = some (readByte memory base i) := by
  rw [loadByte, readByte, div_four_eq, h _ (by omega)]
  rfl

theorem loadWord_eq (h : Backs load memory base len) {i : UInt32} (hi : i.toNat + 4 ≤ len) :
    loadWord load base i = some (readWord memory base i) := by
  have hlow : load (base + i / 4) = some (memory (base + i / 4)) := by
    rw [div_four_eq, h _ (by omega)]
  rw [loadWord, readWord, hlow]
  by_cases haligned : (i &&& 3) * 8 = 0
  · simp only [if_pos haligned]
    rfl
  · -- an unaligned read ends in the next word, which belongs to the string too
    have hrest : i.toNat % 4 ≠ 0 := by
      intro hzero
      refine haligned (UInt32.toNat_inj.mp ?_)
      rw [laneShift_toNat, hzero]
      rfl
    have hnext : base + i / 4 + 1 = base + UInt32.ofNat (i.toNat / 4 + 1) := by
      rw [div_four_eq, UInt32.add_assoc, UInt32.ofNat_add]
      rfl
    have hhigh : load (base + i / 4 + 1) = some (memory (base + i / 4 + 1)) := by
      rw [hnext, h _ (by omega)]
    simp only [if_neg haligned, Option.bind_eq_bind, Option.bind_some, hhigh]
    rfl

end Loading

/-- Readers that may fail do not fail within `len` bytes, and return what two
readers without failures do. -/
structure Loads (loadWord loadByte : UInt32 → Option UInt32) (readWord readByte : UInt32 → UInt32)
    (len : Nat) : Prop where
  word : ∀ i : UInt32, i.toNat + 4 ≤ len → loadWord i = some (readWord i)
  byte : ∀ i : UInt32, i.toNat < len → loadByte i = some (readByte i)

/-- Readers that may fail return the bytes of a string, one and four at a time. -/
structure LoadsBytes (loadWord loadByte : UInt32 → Option UInt32) (bytes : List UInt8) : Prop where
  word : ∀ i : UInt32, i.toNat + 4 ≤ bytes.length →
    loadWord i = some (firstWord (bytes.drop i.toNat))
  byte : ∀ i : UInt32, i.toNat < bytes.length → loadByte i = some (bytes.getD i.toNat 0).toUInt32

theorem Backs.loads {load : UInt32 → Option UInt32} {memory : UInt32 → UInt32} {base : UInt32}
    {len : Nat} (h : Backs load memory base len) :
    Loads (loadWord load base) (loadByte load base) (readWord memory base) (readByte memory base)
      len where
  word := fun _ hi => loadWord_eq h hi
  byte := fun _ hi => loadByte_eq h hi

section Readers

variable {loadWord loadByte : UInt32 → Option UInt32} {readWord readByte : UInt32 → UInt32}
  {len : Nat}

/-- Reading from a position on, inside the string. -/
theorem Loads.range (h : Loads loadWord loadByte readWord readByte len) {start : UInt32}
    {n : Nat} (hrange : start.toNat + n ≤ len) (hfits : len ≤ 2 ^ 32) :
    Loads (fun i => loadWord (start + i)) (fun i => loadByte (start + i))
      (fun i => readWord (start + i)) (fun i => readByte (start + i)) n := by
  have hsum {i : UInt32} (hi : i.toNat < n) : (start + i).toNat = start.toNat + i.toNat := by
    rw [UInt32.toNat_add, Nat.mod_eq_of_lt (by omega)]
  constructor
  · intro i hi
    exact h.word _ (by rw [hsum (by omega)]; omega)
  · intro i hi
    exact h.byte _ (by rw [hsum hi]; omega)

/-- Readers that return what readers of a string do return its bytes. -/
theorem Loads.loadsBytes {bytes : List UInt8}
    (h : Loads loadWord loadByte readWord readByte bytes.length)
    (hreads : Reads readWord readByte bytes) : LoadsBytes loadWord loadByte bytes where
  word := fun i hi => (h.word i hi).trans (congrArg some (hreads.word i hi))
  byte := fun i hi => (h.byte i hi).trans (congrArg some (hreads.byte i hi))

end Readers

end WordMemory
