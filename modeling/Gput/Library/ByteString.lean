import Mathlib.Data.List.Basic
import Mathlib.Data.List.Infix

/-!
# Searching byte strings

Texts as byte strings, the position of a pattern, the position of a byte, and
the splitting of a line into the pieces between separators.
-/

namespace ByteString

/-- The bytes of an ASCII text. -/
def ascii (text : String) : List UInt8 :=
  text.toList.map (fun c => UInt8.ofNat c.toNat)

/-- The bytes of an ASCII text given line by line. -/
def asciiLines (lines : List String) : List UInt8 :=
  lines.flatMap ascii

variable {α : Type}

/-- A statement about the elements of a list is decided by going through the
list, also where the type of the elements is finite. -/
instance (priority := 2000) decidableForallMem {p : α → Prop} [DecidablePred p] (list : List α) :
    Decidable (∀ a ∈ list, p a) :=
  List.decidableBAll p list

theorem drop_append_cons (first : List α) (x : α) (rest : List α) :
    (first ++ x :: rest).drop (first.length + 1) = rest := by
  rw [← List.drop_drop, List.drop_left]
  rfl

/-- A suffix without an element lies behind its occurrences. -/
theorem suffix_append_cons_iff {pattern first rest : List α} {x : α} (h : x ∉ pattern) :
    pattern <:+ first ++ x :: rest ↔ pattern <:+ rest := by
  constructor
  · intro hsuffix
    rcases List.suffix_or_suffix_of_suffix hsuffix (List.suffix_append first (x :: rest)) with
      hin | hout
    · rcases List.suffix_cons_iff.mp hin with rfl | hrest
      · exact absurd List.mem_cons_self h
      · exact hrest
    · exact absurd (hout.subset List.mem_cons_self) h
  · intro hsuffix
    exact hsuffix.trans ((List.suffix_cons x rest).trans (List.suffix_append first _))

variable [BEq α]

/-- First position at which the pattern occurs. -/
def windowPosition (pattern : List α) : List α → Option Nat
  | [] => if pattern.isPrefixOf [] then some 0 else none
  | x :: rest =>
      if pattern.isPrefixOf (x :: rest) then some 0
      else (windowPosition pattern rest).map (· + 1)

variable [LawfulBEq α]

theorem windowPosition_eq_some {pattern : List α} :
    ∀ {bytes : List α} {i : Nat}, windowPosition pattern bytes = some i ↔
      i ≤ bytes.length ∧ pattern <+: bytes.drop i ∧ ∀ j, j < i → ¬ pattern <+: bytes.drop j
  | [], i => by
      unfold windowPosition
      by_cases h : pattern.isPrefixOf []
      · rw [if_pos h]
        rw [List.isPrefixOf_iff_prefix] at h
        constructor
        · intro hi
          cases hi
          exact ⟨by simp, by simpa using h, by simp⟩
        · rintro ⟨hle, -, -⟩
          have : i = 0 := by simpa using hle
          rw [this]
      · rw [if_neg h]
        rw [List.isPrefixOf_iff_prefix] at h
        simp only [reduceCtorEq, List.drop_nil, h, false_and, and_false]
  | x :: rest, i => by
      unfold windowPosition
      have ih := @windowPosition_eq_some pattern rest
      by_cases h : pattern.isPrefixOf (x :: rest)
      · rw [if_pos h]
        rw [List.isPrefixOf_iff_prefix] at h
        constructor
        · intro hi
          cases hi
          exact ⟨Nat.zero_le _, h, by simp⟩
        · rintro ⟨-, -, hbefore⟩
          cases i with
          | zero => rfl
          | succ i => exact absurd h (hbefore 0 (Nat.succ_pos i))
      · rw [if_neg h]
        rw [List.isPrefixOf_iff_prefix] at h
        cases i with
        | zero =>
            simp only [Option.map_eq_some_iff, Nat.add_one_ne_zero, and_false, exists_false,
              List.drop_zero, h, false_and]
        | succ i =>
            have hmap : (windowPosition pattern rest).map (· + 1) = some (i + 1) ↔
                windowPosition pattern rest = some i := by simp
            rw [hmap, ih]
            simp only [List.length_cons, Nat.add_le_add_iff_right, List.drop_succ_cons]
            refine and_congr_right fun _ => and_congr_right fun _ => ?_
            constructor
            · intro hbefore j hj
              cases j with
              | zero => exact h
              | succ j => exact hbefore j (by omega)
            · intro hbefore j hj
              exact hbefore (j + 1) (by omega)

theorem windowPosition_eq_none {pattern : List α} :
    ∀ {bytes : List α}, windowPosition pattern bytes = none ↔
      ∀ j, ¬ pattern <+: bytes.drop j
  | [] => by
      unfold windowPosition
      by_cases h : pattern.isPrefixOf []
      · rw [if_pos h]
        rw [List.isPrefixOf_iff_prefix] at h
        simp [h]
      · rw [if_neg h]
        rw [List.isPrefixOf_iff_prefix] at h
        simp only [List.drop_nil, true_iff]
        exact fun _ => h
  | x :: rest => by
      unfold windowPosition
      have ih := @windowPosition_eq_none pattern rest
      by_cases h : pattern.isPrefixOf (x :: rest)
      · rw [if_pos h]
        rw [List.isPrefixOf_iff_prefix] at h
        simp only [reduceCtorEq, false_iff, not_forall, not_not]
        exact ⟨0, h⟩
      · rw [if_neg h]
        rw [List.isPrefixOf_iff_prefix] at h
        rw [Option.map_eq_none_iff, ih]
        constructor
        · intro hall j
          cases j with
          | zero => exact h
          | succ j => exact hall j
        · intro hall j
          exact hall (j + 1)

/-- Position of the first occurrence of a byte: it cuts the string there. -/
theorem findIdx?_eq_some_iff_cut {x : α} {bytes : List α} {i : Nat} :
    bytes.findIdx? (· == x) = some i ↔
      bytes = bytes.take i ++ x :: bytes.drop (i + 1) ∧ i < bytes.length ∧
        x ∉ bytes.take i := by
  rw [List.findIdx?_eq_some_iff_getElem]
  constructor
  · rintro ⟨hi, hx, hbefore⟩
    have hx' : bytes[i] = x := by simpa using hx
    refine ⟨?_, hi, ?_⟩
    · rw [← hx', List.getElem_cons_drop, List.take_append_drop]
    · intro hmem
      obtain ⟨j, hj, hjx⟩ := List.mem_iff_getElem.mp hmem
      rw [List.length_take] at hj
      rw [List.getElem_take] at hjx
      exact hbefore j (by omega) (by simp [hjx])
  · rintro ⟨hcut, hi, hmem⟩
    refine ⟨hi, ?_, ?_⟩
    · have hlen : (bytes.take i).length = i := by
        rw [List.length_take]
        omega
      have : bytes[i]? = some x := by
        rw [hcut, List.getElem?_append_right (by omega), hlen, Nat.sub_self]
        rfl
      have := List.getElem?_eq_some_iff.mp this
      simp [this.2]
    · intro j hj hjx
      apply hmem
      have hjx' : bytes[j] = x := by simpa using hjx
      rw [List.mem_iff_getElem]
      exact ⟨j, by rw [List.length_take]; omega, by rw [List.getElem_take, hjx']⟩

theorem findIdx?_append_cons {x : α} {first : List α} (h : x ∉ first) (rest : List α) :
    (first ++ x :: rest).findIdx? (· == x) = some first.length := by
  rw [findIdx?_eq_some_iff_cut, List.take_left, drop_append_cons]
  exact ⟨rfl, by simp, h⟩

theorem findIdx?_eq_none_iff_notMem {x : α} {bytes : List α} :
    bytes.findIdx? (· == x) = none ↔ x ∉ bytes := by
  rw [List.findIdx?_eq_none_iff]
  constructor
  · intro h hmem
    simpa using h x hmem
  · intro hmem y hy
    exact beq_eq_false_iff_ne.mpr fun heq => hmem (heq ▸ hy)

/-- Splitting at a separator: the piece before its first occurrence, then the
pieces of the rest. -/
theorem splitOn_eq (x : α) (bytes : List α) :
    bytes.splitOn x =
      match bytes.findIdx? (· == x) with
      | none => [bytes]
      | some i => bytes.take i :: (bytes.drop (i + 1)).splitOn x := by
  cases hfind : bytes.findIdx? (· == x) with
  | none => exact List.splitOn_eq_singleton_of_beq_eq_false (List.findIdx?_eq_none_iff.mp hfind)
  | some i =>
      obtain ⟨hcut, -, hmem⟩ := findIdx?_eq_some_iff_cut.mp hfind
      conv_lhs => rw [hcut]
      exact List.splitOn_append_cons_self_of_not_mem hmem _

/-- A string without the separator is the only piece. -/
theorem splitOn_eq_singleton_iff {x : α} {bytes piece : List α} :
    bytes.splitOn x = [piece] ↔ bytes = piece ∧ x ∉ piece := by
  rw [splitOn_eq]
  constructor
  · intro h
    cases hfind : bytes.findIdx? (· == x) with
    | none =>
        rw [hfind] at h
        obtain rfl := List.singleton_inj.mp h
        exact ⟨rfl, findIdx?_eq_none_iff_notMem.mp hfind⟩
    | some i =>
        rw [hfind] at h
        exact absurd (List.cons.inj h).2 (List.splitOn_ne_nil _ _)
  · rintro ⟨rfl, hmem⟩
    rw [findIdx?_eq_none_iff_notMem.mpr hmem]

/-- Two pieces or more: the first of them ends at the first separator. -/
theorem splitOn_eq_cons_cons_iff {x : α} {bytes first second : List α} {rest : List (List α)} :
    bytes.splitOn x = first :: second :: rest ↔
      ∃ tail, bytes = first ++ x :: tail ∧ x ∉ first ∧ tail.splitOn x = second :: rest := by
  constructor
  · intro h
    rw [splitOn_eq] at h
    cases hfind : bytes.findIdx? (· == x) with
    | none =>
        rw [hfind] at h
        cases h
    | some i =>
        rw [hfind] at h
        obtain ⟨rfl, htail⟩ := List.cons.inj h
        obtain ⟨hcut, -, hmem⟩ := findIdx?_eq_some_iff_cut.mp hfind
        exact ⟨_, hcut, hmem, htail⟩
  · rintro ⟨tail, rfl, hmem, htail⟩
    rw [List.splitOn_append_cons_self_of_not_mem hmem, htail]

/-- Three pieces stand between two separators. -/
theorem splitOn_eq_three_iff {x : α} {bytes first second third : List α} :
    bytes.splitOn x = [first, second, third] ↔
      bytes = first ++ x :: (second ++ x :: third) ∧ x ∉ first ∧ x ∉ second ∧ x ∉ third := by
  constructor
  · intro h
    obtain ⟨tail, rfl, hfirst, htail⟩ := splitOn_eq_cons_cons_iff.mp h
    obtain ⟨last, rfl, hsecond, hlast⟩ := splitOn_eq_cons_cons_iff.mp htail
    obtain ⟨rfl, hthird⟩ := splitOn_eq_singleton_iff.mp hlast
    exact ⟨rfl, hfirst, hsecond, hthird⟩
  · rintro ⟨rfl, hfirst, hsecond, hthird⟩
    exact splitOn_eq_cons_cons_iff.mpr ⟨_, rfl, hfirst,
      splitOn_eq_cons_cons_iff.mpr ⟨_, rfl, hsecond, splitOn_eq_singleton_iff.mpr ⟨rfl, hthird⟩⟩⟩

/-- A cut at the first separator is unique. -/
theorem append_cons_inj {x : α} {first second rest other : List α} (hfirst : x ∉ first)
    (hsecond : x ∉ second) (h : first ++ x :: rest = second ++ x :: other) :
    first = second ∧ rest = other := by
  have hsplit := congrArg (List.splitOn x) h
  rw [List.splitOn_append_cons_self_of_not_mem hfirst,
    List.splitOn_append_cons_self_of_not_mem hsecond] at hsplit
  obtain rfl := (List.cons.inj hsplit).1
  exact ⟨rfl, (List.cons.inj (List.append_cancel_left h)).2⟩

/-- The first piece is what stands before the separator, if it occurs. -/
theorem splitOn_headD (x : α) (bytes default : List α) :
    (bytes.splitOn x).headD default = bytes.take ((bytes.findIdx? (· == x)).getD bytes.length) := by
  rw [splitOn_eq]
  cases bytes.findIdx? (· == x) with
  | none => simp
  | some i => rfl

theorem windowPosition_pair_short {x y : α} {bytes : List α} (h : bytes.length < 2) :
    windowPosition [x, y] bytes = none := by
  rw [windowPosition_eq_none]
  intro j hextends
  have hlength := hextends.length_le
  rw [List.length_drop] at hlength
  simp only [List.length_cons, List.length_nil] at hlength
  omega

omit [LawfulBEq α] in
theorem windowPosition_pair_cons (x y a b : α) (rest : List α) :
    windowPosition [x, y] (a :: b :: rest) =
      if x == a && y == b then some 0 else (windowPosition [x, y] (b :: rest)).map (· + 1) := by
  rw [windowPosition]
  simp only [List.isPrefixOf, Bool.and_true]

section Pairs

variable {x y : α} (hne : x ≠ y)
include hne

/-- An element that ends no pair is passed over, with what stands before it. -/
theorem windowPosition_pair_skip {first : List α} (hfirst : y ∉ first)
    (hlast : first.getLast? ≠ some x) (rest : List α) :
    windowPosition [x, y] (first ++ y :: rest) =
      (windowPosition [x, y] rest).map (· + (first.length + 1)) := by
  induction first with
  | nil =>
      rw [List.nil_append]
      cases rest with
      | nil => rw [windowPosition_pair_short (by simp), windowPosition_pair_short (by simp)]; rfl
      | cons a rest =>
          rw [windowPosition_pair_cons, if_neg (by simp [hne])]
          rfl
  | cons a first ih =>
      obtain ⟨-, hnot⟩ := not_or.mp (mt List.mem_cons.mpr hfirst)
      cases first with
      | nil =>
          have ha : a ≠ x := fun heq => hlast (by rw [heq]; rfl)
          rw [List.cons_append, List.nil_append, windowPosition_pair_cons,
            if_neg (by simp [Ne.symm ha])]
          have := ih (by simp) (by simp)
          rw [List.nil_append] at this
          rw [this, Option.map_map]
          rfl
      | cons b first =>
          have hb : b ≠ y := fun heq => hnot (by rw [heq]; exact List.mem_cons_self)
          rw [List.cons_append, List.cons_append, windowPosition_pair_cons,
            if_neg (by simp [Ne.symm hb])]
          have := ih hnot (by rwa [List.getLast?_cons_cons] at hlast)
          rw [List.cons_append] at this
          rw [this, Option.map_map]
          congr 1

/-- A pair is found at its first second element. -/
theorem windowPosition_pair_first {first : List α} (hfirst : y ∉ first) (rest : List α) :
    windowPosition [x, y] (first ++ x :: y :: rest) = some first.length := by
  induction first with
  | nil =>
      rw [List.nil_append, windowPosition_pair_cons, if_pos (by simp)]
      rfl
  | cons a first ih =>
      obtain ⟨-, hnot⟩ := not_or.mp (mt List.mem_cons.mpr hfirst)
      have hrest := ih hnot
      cases first with
      | nil =>
          rw [List.nil_append] at hrest
          rw [List.cons_append, List.nil_append, windowPosition_pair_cons,
            if_neg (by simp [Ne.symm hne]), hrest]
          rfl
      | cons b first =>
          have hb : b ≠ y := fun heq => hnot (by rw [heq]; exact List.mem_cons_self)
          rw [List.cons_append] at hrest
          rw [List.cons_append, List.cons_append, windowPosition_pair_cons,
            if_neg (by simp [Ne.symm hb]), hrest]
          rfl

end Pairs

end ByteString
