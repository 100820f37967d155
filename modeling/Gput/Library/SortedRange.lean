import Mathlib.Data.List.Basic
import Mathlib.Data.List.Pairwise

/-!
# The run of a key in a sorted list

The elements with one key stand together in a list sorted by key.  Skipping the
smaller keys and taking what has the key gives all of them: `run_eq_filter`.
-/

namespace SortedRange

universe u v

variable {α : Type u} {κ : Type v} [LE κ] [DecidableEq κ] [Std.IsLinearOrder κ] {key : α → κ}
  {list : List α} {k : κ}

/-- Where no key is smaller, the run stands in front. -/
theorem takeWhile_eq_filter
    (hsorted : list.Pairwise (fun left right => key left ≤ key right))
    (hleast : ∀ a ∈ list, k ≤ key a) :
    list.takeWhile (fun a => key a == k) = list.filter (fun a => key a == k) := by
  induction list with
  | nil => rfl
  | cons a list ih =>
      obtain ⟨hhead, htail⟩ := List.pairwise_cons.mp hsorted
      have hleastTail : ∀ b ∈ list, k ≤ key b := fun b hb => hleast b (List.mem_cons_of_mem _ hb)
      by_cases hkey : key a = k
      · rw [List.takeWhile_cons_of_pos (by simpa using hkey), ih htail hleastTail,
          List.filter_cons_of_pos (by simpa using hkey)]
      · -- a larger key in front: the run is empty
        have hlarger : ∀ b ∈ a :: list, ¬ key b = k := by
          intro b hb heq
          have hab : key a ≤ key b := by
            rcases List.mem_cons.mp hb with rfl | hb
            · exact Std.le_refl _
            · exact hhead b hb
          exact hkey (Std.le_antisymm (heq ▸ hab) (hleast a List.mem_cons_self))
        rw [List.takeWhile_cons_of_neg (by simpa using hkey),
          List.filter_eq_nil_iff.mpr (by simpa using hlarger)]

variable [LT κ] [DecidableLT κ] [Std.LawfulOrderLT κ]

/-- The run of a key, behind the smaller keys. -/
theorem run_eq_filter (hsorted : list.Pairwise (fun left right => key left ≤ key right)) :
    (list.drop (list.takeWhile (fun a => decide (key a < k))).length).takeWhile
      (fun a => key a == k) = list.filter (fun a => key a == k) := by
  induction list with
  | nil => rfl
  | cons a list ih =>
      obtain ⟨hhead, htail⟩ := List.pairwise_cons.mp hsorted
      by_cases hsmaller : key a < k
      · have hkey : ¬ key a = k := fun heq => Std.lt_irrefl (heq ▸ hsmaller)
        rw [List.takeWhile_cons_of_pos (by simpa using hsmaller), List.length_cons,
          List.drop_succ_cons, ih htail, List.filter_cons_of_neg (by simpa using hkey)]
      · have hleast : ∀ b ∈ a :: list, k ≤ key b := by
          intro b hb
          rcases List.mem_cons.mp hb with rfl | hb
          · exact Std.not_lt.mp hsmaller
          · exact Std.le_trans (Std.not_lt.mp hsmaller) (hhead b hb)
        rw [List.takeWhile_cons_of_neg (by simpa using hsmaller)]
        exact takeWhile_eq_filter hsorted hleast

end SortedRange
