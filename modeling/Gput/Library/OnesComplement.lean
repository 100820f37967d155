import Mathlib.Tactic.NormNum

/-!
# One's complement sums of 16-bit words

A sum of words is folded by adding its carries to its low half until no carry is
left.  The value that remains is determined by the sum: `Folds.unique`.  Adding
the complement of that value to the sum makes it fold to all ones, and a sum
that is off by one power of two no longer does.
-/

namespace OnesComplement

/-- A 16-bit value a sum folds to. -/
structure Folds (sum value : Nat) : Prop where
  lt : value < 2 ^ 16
  residue : value % 65535 = sum % 65535
  zero : value = 0 ↔ sum = 0

variable {sum value : Nat}

theorem Folds.unique (h : Folds sum value) {other : Nat} (hother : Folds sum other) :
    value = other := by
  have hlt := h.lt
  have hlt' := hother.lt
  have hresidue := h.residue.trans hother.residue.symm
  have hzero := h.zero.trans hother.zero.symm
  omega

/-- A sum without carries stands for itself. -/
theorem Folds.self (h : sum < 2 ^ 16) : Folds sum sum :=
  ⟨h, rfl, Iff.rfl⟩

/-- Adding the carries to the low half keeps what a sum folds to. -/
theorem Folds.carry (h : Folds (sum % 2 ^ 16 + sum / 2 ^ 16) value) : Folds sum value := by
  obtain ⟨hlt, hresidue, hzero⟩ := h
  exact ⟨hlt, by omega, by omega⟩

/-- Two rounds fold every sum of 32 bits. -/
theorem Folds.twice (h : sum < 2 ^ 32) :
    let once := sum % 2 ^ 16 + sum / 2 ^ 16
    Folds sum (once % 2 ^ 16 + once / 2 ^ 16) := by
  intro once
  have honce : once ≤ 2 * 65535 := by omega
  exact Folds.carry (Folds.carry (Folds.self (by omega)))

/-- The sums that fold to all ones. -/
theorem folds_ones_iff : Folds sum 65535 ↔ 0 < sum ∧ sum % 65535 = 0 := by
  constructor
  · rintro ⟨-, hresidue, hzero⟩
    omega
  · rintro ⟨hpos, hresidue⟩
    exact ⟨by norm_num, by omega, by omega⟩

/-- A sum and the complement of its value fold to all ones. -/
theorem Folds.add_complement (h : Folds sum value) (hpos : 0 < sum) :
    Folds (sum + (65535 - value)) 65535 := by
  obtain ⟨hlt, hresidue, -⟩ := h
  rw [folds_ones_iff]
  omega

/-- A sum that is off by a power of two does not fold to all ones as well. -/
theorem Folds.not_off_by_bit (h : Folds sum 65535) {other k : Nat} (hk : k < 16)
    (hoff : other = sum + 2 ^ k ∨ sum = other + 2 ^ k) : ¬ Folds other 65535 := by
  have hpos : 0 < 2 ^ k := Nat.two_pow_pos k
  have hle : 2 ^ k ≤ 2 ^ 15 := Nat.pow_le_pow_right (by norm_num) (by omega)
  rw [folds_ones_iff] at h ⊢
  rintro ⟨-, hresidue⟩
  obtain ⟨-, hsum⟩ := h
  omega

end OnesComplement
