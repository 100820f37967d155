import Mathlib.Data.Nat.Log
import Mathlib.Tactic.NormNum

/-!
# Decimal numbers as byte strings

The canonical decimal text of a number, how long it is, and reading such a text
back with a bound on the value.
-/

namespace Decimal

/-- The last decimal digit of a number. -/
def digit (n : Nat) : UInt8 :=
  UInt8.ofNat (48 + n % 10)

/-- The digits of a number with at most `fuel + 1` of them. -/
def digitsFrom : Nat → Nat → List UInt8
  | 0, n => [digit n]
  | fuel + 1, n => if n < 10 then [digit n] else digitsFrom fuel (n / 10) ++ [digit n]

/-- The decimal text of a number, without leading zeros. -/
def decimal (n : Nat) : List UInt8 :=
  digitsFrom n n

theorem digit_toNat (n : Nat) : (digit n).toNat = 48 + n % 10 := by
  rw [digit, UInt8.toNat_ofNat']
  omega

theorem digitsFrom_eq {fuel n : Nat} (h : n ≤ fuel) : digitsFrom fuel n = decimal n := by
  induction n using Nat.strong_induction_on generalizing fuel with
  | _ n ih =>
      rw [decimal]
      cases n with
      | zero => cases fuel <;> rfl
      | succ n =>
          obtain ⟨fuel, rfl⟩ := Nat.exists_eq_add_of_le' (Nat.lt_of_lt_of_le n.succ_pos h)
          rw [digitsFrom, digitsFrom]
          split
          · rfl
          · rw [ih ((n + 1) / 10) (by omega) (by omega), ih ((n + 1) / 10) (by omega) (by omega)]

theorem decimal_of_lt {n : Nat} (h : n < 10) : decimal n = [digit n] := by
  cases n with
  | zero => rfl
  | succ n => rw [decimal, digitsFrom, if_pos h]

theorem decimal_of_le {n : Nat} (h : 10 ≤ n) : decimal n = decimal (n / 10) ++ [digit n] := by
  obtain ⟨m, rfl⟩ := Nat.exists_eq_add_of_le' (Nat.le_trans (by omega : 1 ≤ 10) h)
  rw [decimal, digitsFrom, if_neg (by omega), digitsFrom_eq (by omega)]

/-- Number of decimal digits. -/
theorem length_decimal (n : Nat) : (decimal n).length = Nat.log 10 n + 1 := by
  induction n using Nat.strong_induction_on with
  | _ n ih =>
      by_cases h : n < 10
      · rw [decimal_of_lt h, Nat.log_of_lt h]
        rfl
      · rw [decimal_of_le (by omega), List.length_append, ih (n / 10) (by omega),
          Nat.log_of_one_lt_of_le (by omega) (show 10 ≤ n by omega)]
        rfl

theorem length_decimal_mono {m n : Nat} (h : m ≤ n) :
    (decimal m).length ≤ (decimal n).length := by
  rw [length_decimal, length_decimal]
  exact Nat.add_le_add_right (Nat.log_mono_right h) 1

/-- A bound on a number bounds its digits. -/
theorem length_decimal_le {n : Nat} (digits : Nat) (hpos : 0 < digits) (h : n < 10 ^ digits) :
    (decimal n).length ≤ digits := by
  rw [length_decimal]
  exact Nat.log_lt_of_lt_pow' (by omega) h

/-- The digits of a number from the weight `10 ^ k` down. -/
def digitsDown (n : Nat) : Nat → List UInt8
  | 0 => [digit n]
  | k + 1 => digit (n / 10 ^ (k + 1)) :: digitsDown n k

theorem digitsDown_succ (n k : Nat) : digitsDown n (k + 1) = digitsDown (n / 10) k ++ [digit n] := by
  induction k with
  | zero => rw [digitsDown, digitsDown, digitsDown, Nat.zero_add, Nat.pow_one, List.singleton_append]
  | succ k ih =>
      rw [digitsDown, ih, digitsDown, List.cons_append, Nat.div_div_eq_div_mul,
        ← Nat.pow_succ', Nat.succ_eq_add_one]

/-- Started at its highest weight, a number is written without leading zeros. -/
theorem decimal_eq_digitsDown {n k : Nat} (hlast : n / 10 ^ k < 10) (hfirst : k = 0 ∨ 10 ^ k ≤ n) :
    decimal n = digitsDown n k := by
  induction k generalizing n with
  | zero =>
      rw [Nat.pow_zero, Nat.div_one] at hlast
      exact decimal_of_lt hlast
  | succ k ih =>
      rcases hfirst with hzero | hle
      · exact absurd hzero (Nat.succ_ne_zero k)
      · have hpow : 10 ^ (k + 1) = 10 * 10 ^ k := Nat.pow_succ'
        have hpos : 0 < 10 ^ k := Nat.pow_pos (by omega)
        rw [decimal_of_le (by omega), digitsDown_succ, ih]
        · rwa [Nat.div_div_eq_div_mul, ← hpow]
        · refine Or.inr ((Nat.le_div_iff_mul_le (by omega)).mpr ?_)
          rwa [Nat.mul_comm, ← hpow]

/-- A text of digits. -/
def IsDigits (text : List UInt8) : Prop :=
  ∀ byte ∈ text, 48 ≤ byte.toNat ∧ byte.toNat ≤ 57

theorem isDigits_decimal (n : Nat) : IsDigits (decimal n) := by
  have hdigit (m : Nat) : 48 ≤ (digit m).toNat ∧ (digit m).toNat ≤ 57 := by
    rw [digit_toNat]
    omega
  induction n using Nat.strong_induction_on with
  | _ n ih =>
      by_cases h : n < 10
      · rw [decimal_of_lt h]
        intro byte hmem
        rw [List.mem_singleton.mp hmem]
        exact hdigit n
      · rw [decimal_of_le (by omega)]
        intro byte hmem
        rcases List.mem_append.mp hmem with hmem | hmem
        · exact ih (n / 10) (by omega) byte hmem
        · rw [List.mem_singleton.mp hmem]
          exact hdigit n

theorem decimal_ne_nil (n : Nat) : decimal n ≠ [] := by
  intro h
  have := length_decimal n
  rw [h] at this
  simp at this

/-- Reads digits behind a value; the values stay below the bound. -/
def parseDigits (bound : Nat) : Nat → List UInt8 → Option Nat
  | value, [] => some value
  | value, byte :: rest =>
      if 48 ≤ byte ∧ byte ≤ 57 ∧ value * 10 + (byte.toNat - 48) < bound then
        parseDigits bound (value * 10 + (byte.toNat - 48)) rest
      else none

/-- Reads an unsigned number: digits, perhaps behind a plus sign. -/
def parseUnsigned (bound : Nat) (text : List UInt8) : Option Nat :=
  let digits := if text.head? = some 43 then text.tail else text
  if digits = [] then none else parseDigits bound 0 digits

theorem parseDigits_append {bound value middle : Nat} {left right : List UInt8}
    (h : parseDigits bound value left = some middle) :
    parseDigits bound value (left ++ right) = parseDigits bound middle right := by
  induction left generalizing value with
  | nil =>
      cases h
      rfl
  | cons byte rest ih =>
      rw [List.cons_append, parseDigits]
      rw [parseDigits] at h
      split at h
      case isTrue hdigit =>
        rw [if_pos hdigit]
        exact ih h
      case isFalse => cases h

theorem parseDigits_digit {bound value n : Nat} (h : value * 10 + n % 10 < bound) :
    parseDigits bound value [digit n] = some (value * 10 + n % 10) := by
  have hnat := digit_toNat n
  have hsub : (digit n).toNat - 48 = n % 10 := by omega
  have hlow : 48 ≤ digit n := by
    rw [UInt8.le_iff_toNat_le, hnat]
    exact Nat.le_add_right 48 (n % 10)
  have hhigh : digit n ≤ 57 := by
    rw [UInt8.le_iff_toNat_le, hnat]
    exact Nat.add_le_add_left (show n % 10 ≤ 9 by omega) 48
  rw [parseDigits, hsub, if_pos ⟨hlow, hhigh, h⟩, parseDigits]

theorem parseDigits_decimal {bound n : Nat} (h : n < bound) :
    parseDigits bound 0 (decimal n) = some n := by
  induction n using Nat.strong_induction_on with
  | _ n ih =>
      have hdiv := Nat.div_add_mod n 10
      by_cases hsmall : n < 10
      · rw [decimal_of_lt hsmall, parseDigits_digit (by omega)]
        congr 1
        omega
      · rw [decimal_of_le (by omega), parseDigits_append (ih (n / 10) (by omega) (by omega)),
          parseDigits_digit (by omega)]
        congr 1
        omega

/-- A decimal text reads back as its number. -/
theorem parseUnsigned_decimal {bound n : Nat} (h : n < bound) :
    parseUnsigned bound (decimal n) = some n := by
  have hhead : (decimal n).head? ≠ some 43 := by
    intro hplus
    have hmem := List.mem_of_head? hplus
    have := (isDigits_decimal n 43 hmem).1
    revert this
    decide
  rw [parseUnsigned, if_neg hhead, if_neg (decimal_ne_nil n), parseDigits_decimal h]

end Decimal
