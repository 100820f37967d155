import Mathlib.Data.Finset.Card
import Mathlib.Tactic.Ring

/-!
# Open addressing with tombstones

A table assigns to every slot a cell: free, a tombstone left by a removed
entry, a slot somebody is busy filling, or live with a key.  Every key owns a
*path*, the sequence of slots it may occupy; only the first `limit` positions
of it are used.  Paths are arbitrary, so linear probing with any hash function
and any wrap-around is one instance.

The invariant of such a table is `WellFormed`: a key is live in at most one
slot, and no free cell stands before that slot on the key's path.  It is
exactly what makes the search of `seek`, which stops at the first free cell,
complete.  The module shows that inserting at a reusable cell behind no free
cell, and turning a live cell into a tombstone, both keep it.
-/

universe u v

namespace OpenAddressing

/-- Contents of one slot, as far as a search looks at it. -/
inductive Cell (κ : Type u) where
  | free
  | tombstone
  | busy
  | live (key : κ)
deriving DecidableEq

variable {κ : Type u} {ι : Type v}

section Search

variable [DecidableEq κ]

/-- First slot, among `count` path positions from `p` on, that is free or live
with the key. -/
def seek (cells : ι → Cell κ) (path : Nat → ι) (key : κ) : Nat → Nat → Option ι
  | 0, _ => none
  | count + 1, p =>
      match cells (path p) with
      | .free => some (path p)
      | .live key' => if key' = key then some (path p) else seek cells path key count (p + 1)
      | .tombstone => seek cells path key count (p + 1)
      | .busy => seek cells path key count (p + 1)

/-- Slot of the live key within the first `limit` path positions. -/
def find (cells : ι → Cell κ) (path : Nat → ι) (key : κ) (limit : Nat) : Option ι :=
  (seek cells path key limit 0).filter (fun i => decide (cells i = .live key))

/-- First slot, among `count` path positions from `p` on, that a new entry may
take. -/
def vacancy (cells : ι → Cell κ) (path : Nat → ι) : Nat → Nat → Option ι
  | 0, _ => none
  | count + 1, p =>
      match cells (path p) with
      | .free => some (path p)
      | .tombstone => some (path p)
      | .live _ => vacancy cells path count (p + 1)
      | .busy => vacancy cells path count (p + 1)

theorem seek_stop {cells : ι → Cell κ} {path : Nat → ι} {key : κ} {count p : Nat}
    (h : cells (path p) = .free ∨ cells (path p) = .live key) :
    seek cells path key (count + 1) p = some (path p) := by
  rcases h with h | h <;> simp [seek, h]

theorem seek_skip {cells : ι → Cell κ} {path : Nat → ι} {key : κ} {count p : Nat}
    (hfree : cells (path p) ≠ .free) (hlive : cells (path p) ≠ .live key) :
    seek cells path key (count + 1) p = seek cells path key count (p + 1) := by
  rw [seek]
  cases h : cells (path p) with
  | free => exact absurd h hfree
  | tombstone => rfl
  | busy => rfl
  | live key' => exact if_neg (fun hkey => hlive (by rw [h, hkey]))

omit [DecidableEq κ] in
theorem vacancy_stop {cells : ι → Cell κ} {path : Nat → ι} {count p : Nat}
    (h : cells (path p) = .free ∨ cells (path p) = .tombstone) :
    vacancy cells path (count + 1) p = some (path p) := by
  rcases h with h | h <;> simp [vacancy, h]

omit [DecidableEq κ] in
theorem vacancy_skip {cells : ι → Cell κ} {path : Nat → ι} {count p : Nat}
    (hfree : cells (path p) ≠ .free) (htombstone : cells (path p) ≠ .tombstone) :
    vacancy cells path (count + 1) p = vacancy cells path count (p + 1) := by
  rw [vacancy]
  cases h : cells (path p) with
  | free => exact absurd h hfree
  | tombstone => exact absurd h htombstone
  | busy => rfl
  | live key' => rfl

/-- A search that stops has passed over cells that are neither free nor live
with the key. -/
theorem seek_eq_some {cells : ι → Cell κ} {path : Nat → ι} {key : κ} {i : ι} :
    ∀ {count p : Nat}, seek cells path key count p = some i →
      ∃ q, p ≤ q ∧ q < p + count ∧ path q = i ∧
        (cells i = .free ∨ cells i = .live key) ∧
        ∀ j, p ≤ j → j < q → cells (path j) ≠ .free ∧ cells (path j) ≠ .live key
  | 0, _, h => by simp [seek] at h
  | count + 1, p, h => by
      have later (hne : cells (path p) ≠ .free ∧ cells (path p) ≠ .live key)
          (hrest : seek cells path key count (p + 1) = some i) :
          ∃ q, p ≤ q ∧ q < p + (count + 1) ∧ path q = i ∧
            (cells i = .free ∨ cells i = .live key) ∧
            ∀ j, p ≤ j → j < q → cells (path j) ≠ .free ∧ cells (path j) ≠ .live key := by
        obtain ⟨q, h1, h2, h3, h4, h5⟩ := seek_eq_some hrest
        refine ⟨q, by omega, by omega, h3, h4, ?_⟩
        intro j hj hjq
        by_cases hjp : j = p
        · exact hjp ▸ hne
        · exact h5 j (by omega) hjq
      have here (hcell : cells (path p) = .free ∨ cells (path p) = .live key)
          (hi : path p = i) :
          ∃ q, p ≤ q ∧ q < p + (count + 1) ∧ path q = i ∧
            (cells i = .free ∨ cells i = .live key) ∧
            ∀ j, p ≤ j → j < q → cells (path j) ≠ .free ∧ cells (path j) ≠ .live key :=
        ⟨p, le_refl p, by omega, hi, hi ▸ hcell, fun j h1 h2 => absurd h1 (by omega)⟩
      unfold seek at h
      cases hc : cells (path p) with
      | free =>
          rw [hc] at h
          exact here (Or.inl hc) (Option.some.inj h)
      | tombstone =>
          rw [hc] at h
          exact later (by simp [hc]) h
      | busy =>
          rw [hc] at h
          exact later (by simp [hc]) h
      | live key' =>
          rw [hc] at h
          by_cases hk : key' = key
          · simp only [hk, if_true] at h
            exact here (Or.inr (by rw [hc, hk])) (Option.some.inj h)
          · simp only [hk, if_false] at h
            exact later (by simp [hc, hk]) h

/-- A search that reaches a stopping position stops there. -/
theorem seek_of_first {cells : ι → Cell κ} {path : Nat → ι} {key : κ} :
    ∀ {count p q : Nat}, p ≤ q → q < p + count →
      (cells (path q) = .free ∨ cells (path q) = .live key) →
      (∀ j, p ≤ j → j < q → cells (path j) ≠ .free ∧ cells (path j) ≠ .live key) →
      seek cells path key count p = some (path q)
  | 0, p, q, h1, h2, _, _ => by omega
  | count + 1, p, q, h1, h2, hq, hbefore => by
      by_cases hpq : p = q
      · subst hpq
        exact seek_stop hq
      · obtain ⟨hfree, hlive⟩ := hbefore p (le_refl p) (by omega)
        rw [seek_skip hfree hlive]
        exact seek_of_first (by omega) (by omega) hq (fun j hj => hbefore j (by omega))

/-- A stopping position on the path makes the search stop. -/
theorem seek_isSome {cells : ι → Cell κ} {path : Nat → ι} {key : κ} {count q : Nat}
    (hq : q < count) (hcell : cells (path q) = .free ∨ cells (path q) = .live key) :
    ∃ i, seek cells path key count 0 = some i := by
  classical
  let P : Nat → Prop := fun j => cells (path j) = .free ∨ cells (path j) = .live key
  have hex : ∃ j, P j := ⟨q, hcell⟩
  refine ⟨path (Nat.find hex),
    seek_of_first (Nat.zero_le _)
      (by have := Nat.find_min' hex hcell; omega) (Nat.find_spec hex) ?_⟩
  intro j _ hj
  have := Nat.find_min hex hj
  exact not_or.mp this

omit [DecidableEq κ] in
/-- The slot a new entry may take lies behind no free cell. -/
theorem vacancy_eq_some {cells : ι → Cell κ} {path : Nat → ι} {i : ι} :
    ∀ {count p : Nat}, vacancy cells path count p = some i →
      ∃ q, p ≤ q ∧ q < p + count ∧ path q = i ∧
        (cells i = .free ∨ cells i = .tombstone) ∧
        ∀ j, p ≤ j → j < q → cells (path j) ≠ .free
  | 0, _, h => by simp [vacancy] at h
  | count + 1, p, h => by
      have later (hne : cells (path p) ≠ .free)
          (hrest : vacancy cells path count (p + 1) = some i) :
          ∃ q, p ≤ q ∧ q < p + (count + 1) ∧ path q = i ∧
            (cells i = .free ∨ cells i = .tombstone) ∧
            ∀ j, p ≤ j → j < q → cells (path j) ≠ .free := by
        obtain ⟨q, h1, h2, h3, h4, h5⟩ := vacancy_eq_some hrest
        refine ⟨q, by omega, by omega, h3, h4, ?_⟩
        intro j hj hjq
        by_cases hjp : j = p
        · exact hjp ▸ hne
        · exact h5 j (by omega) hjq
      have here (hcell : cells (path p) = .free ∨ cells (path p) = .tombstone)
          (hi : path p = i) :
          ∃ q, p ≤ q ∧ q < p + (count + 1) ∧ path q = i ∧
            (cells i = .free ∨ cells i = .tombstone) ∧
            ∀ j, p ≤ j → j < q → cells (path j) ≠ .free :=
        ⟨p, le_refl p, by omega, hi, hi ▸ hcell, fun j h1 h2 => absurd h1 (by omega)⟩
      unfold vacancy at h
      cases hc : cells (path p) with
      | free =>
          rw [hc] at h
          exact here (Or.inl hc) (Option.some.inj h)
      | tombstone =>
          rw [hc] at h
          exact here (Or.inr hc) (Option.some.inj h)
      | busy =>
          rw [hc] at h
          exact later (by simp [hc]) h
      | live key' =>
          rw [hc] at h
          exact later (by simp [hc]) h

omit [DecidableEq κ] in
/-- Without a slot to take, every path position is live or busy. -/
theorem vacancy_eq_none {cells : ι → Cell κ} {path : Nat → ι} :
    ∀ {count p : Nat}, vacancy cells path count p = none ↔
      ∀ j, p ≤ j → j < p + count →
        cells (path j) ≠ .free ∧ cells (path j) ≠ .tombstone
  | 0, p => by
      simp only [vacancy, true_iff]
      intro j h1 h2
      omega
  | count + 1, p => by
      have ih := @vacancy_eq_none cells path count (p + 1)
      have step (hp : cells (path p) ≠ .free ∧ cells (path p) ≠ .tombstone) :
          (∀ j, p + 1 ≤ j → j < p + 1 + count →
              cells (path j) ≠ .free ∧ cells (path j) ≠ .tombstone) ↔
            ∀ j, p ≤ j → j < p + (count + 1) →
              cells (path j) ≠ .free ∧ cells (path j) ≠ .tombstone := by
        constructor
        · intro h j hj hjq
          by_cases hjp : j = p
          · exact hjp ▸ hp
          · exact h j (by omega) (by omega)
        · intro h j hj hjq
          exact h j (by omega) (by omega)
      unfold vacancy
      cases hc : cells (path p) with
      | free =>
          simp only [reduceCtorEq, false_iff]
          intro h
          exact (h p (le_refl p) (by omega)).1 hc
      | tombstone =>
          simp only [reduceCtorEq, false_iff]
          intro h
          exact (h p (le_refl p) (by omega)).2 hc
      | busy => exact ih.trans (step (by simp [hc]))
      | live key' => exact ih.trans (step (by simp [hc]))

end Search

/-- The table invariant: a key is live in at most one slot, and that slot is on
the used part of the key's path with no free cell before it. -/
structure WellFormed (cells : ι → Cell κ) (path : κ → Nat → ι) (limit : Nat) : Prop where
  unique : ∀ {i j key}, cells i = .live key → cells j = .live key → i = j
  reachable : ∀ {i key}, cells i = .live key →
    ∃ q, q < limit ∧ path key q = i ∧ ∀ j, j < q → cells (path key j) ≠ .free

/-- A table without live cells satisfies the invariant. -/
theorem wellFormed_of_no_live {cells : ι → Cell κ} {path : κ → Nat → ι} {limit : Nat}
    (h : ∀ i key, cells i ≠ .live key) : WellFormed cells path limit where
  unique hi _ := absurd hi (h _ _)
  reachable hi := absurd hi (h _ _)

namespace WellFormed

variable {cells : ι → Cell κ} {path : κ → Nat → ι} {limit : Nat}

section Find

variable [DecidableEq κ]

/-- On a path that leads to a live key, the search stops at its slot. -/
theorem seek_of_live (wf : WellFormed cells path limit) {key : κ} {i : ι}
    (hlive : cells i = .live key) : seek cells (path key) key limit 0 = some i := by
  obtain ⟨q, hq, hpath, hfree⟩ := wf.reachable hlive
  obtain ⟨i', hi'⟩ := seek_isSome hq (Or.inr (hpath ▸ hlive))
  obtain ⟨q', _, _, hpath', hstop, hbefore⟩ := seek_eq_some hi'
  rcases hstop with hstop | hstop
  · -- a free cell cannot stand before the live slot, nor the live slot before the stop
    rcases Nat.lt_trichotomy q' q with h | h | h
    · exact absurd (hpath' ▸ hstop) (hfree q' h)
    · subst h
      rw [← hpath', hpath, hlive] at hstop
      cases hstop
    · exact absurd (hpath ▸ hlive) (hbefore q (Nat.zero_le q) h).2
  · rw [hi', wf.unique hstop hlive]

/-- The search finds exactly the slot that is live with the key. -/
theorem find_eq_some (wf : WellFormed cells path limit) {key : κ} {i : ι} :
    find cells (path key) key limit = some i ↔ cells i = .live key := by
  unfold find
  rw [Option.filter_eq_some_iff]
  constructor
  · rintro ⟨_, hlive⟩
    simpa using hlive
  · intro hlive
    exact ⟨wf.seek_of_live hlive, by simpa using hlive⟩

/-- The search fails exactly for the keys without a live slot. -/
theorem find_eq_none (wf : WellFormed cells path limit) {key : κ} :
    find cells (path key) key limit = none ↔ ∀ i, cells i ≠ .live key := by
  constructor
  · intro h i hlive
    rw [wf.find_eq_some.mpr hlive] at h
    cases h
  · intro h
    cases hf : find cells (path key) key limit with
    | none => rfl
    | some i => exact absurd (wf.find_eq_some.mp hf) (h i)

end Find

section Updates

variable [DecidableEq ι]

/-- Making a slot live keeps the invariant when the key had no slot, the cell
was not live, and no free cell stands before it on the key's path. -/
theorem insert (wf : WellFormed cells path limit) {key : κ} {i : ι} {q : Nat}
    (habsent : ∀ j, cells j ≠ .live key) (hvacant : ∀ key', cells i ≠ .live key')
    (hq : q < limit) (hpath : path key q = i)
    (hfree : ∀ j, j < q → cells (path key j) ≠ .free) :
    WellFormed (Function.update cells i (.live key)) path limit where
  unique := by
    intro a b key' ha hb
    by_cases hai : a = i <;> by_cases hbi : b = i
    · rw [hai, hbi]
    · subst hai
      rw [Function.update_self] at ha
      rw [Function.update_of_ne hbi] at hb
      cases ha
      exact absurd hb (habsent b)
    · subst hbi
      rw [Function.update_self] at hb
      rw [Function.update_of_ne hai] at ha
      cases hb
      exact absurd ha (habsent a)
    · rw [Function.update_of_ne hai] at ha
      rw [Function.update_of_ne hbi] at hb
      exact wf.unique ha hb
  reachable := by
    intro a key' ha
    have stays : ∀ j : ι, cells j ≠ .free →
        Function.update cells i (.live key) j ≠ .free := by
      intro j hj
      by_cases hji : j = i
      · subst hji
        simp
      · rwa [Function.update_of_ne hji]
    by_cases hai : a = i
    · subst hai
      rw [Function.update_self] at ha
      cases ha
      exact ⟨q, hq, hpath, fun j hj => stays _ (hfree j hj)⟩
    · rw [Function.update_of_ne hai] at ha
      obtain ⟨q', hq', hpath', hfree'⟩ := wf.reachable ha
      exact ⟨q', hq', hpath', fun j hj => stays _ (hfree' j hj)⟩

/-- Turning a slot into a tombstone keeps the invariant. -/
theorem release (wf : WellFormed cells path limit) (i : ι) :
    WellFormed (Function.update cells i .tombstone) path limit where
  unique := by
    intro a b key ha hb
    have hai : a ≠ i := by
      rintro rfl
      simp at ha
    have hbi : b ≠ i := by
      rintro rfl
      simp at hb
    rw [Function.update_of_ne hai] at ha
    rw [Function.update_of_ne hbi] at hb
    exact wf.unique ha hb
  reachable := by
    intro a key ha
    have hai : a ≠ i := by
      rintro rfl
      simp at ha
    rw [Function.update_of_ne hai] at ha
    obtain ⟨q, hq, hpath, hfree⟩ := wf.reachable ha
    refine ⟨q, hq, hpath, ?_⟩
    intro j hj
    by_cases hji : path key j = i
    · rw [hji, Function.update_self]
      simp
    · rw [Function.update_of_ne hji]
      exact hfree j hj

end Updates

/-- A finite set of slots that are all live holds as many keys as slots. -/
theorem card_le_of_all_live (wf : WellFormed cells path limit) [DecidableEq κ]
    {slots : Finset ι} {keys : Finset κ}
    (hkeys : ∀ i ∈ slots, ∀ key, cells i = .live key → key ∈ keys)
    (hall : ∀ i ∈ slots, ∃ key, cells i = .live key) : slots.card ≤ keys.card := by
  rcases slots.eq_empty_or_nonempty with rfl | ⟨i₀, hi₀⟩
  · simp
  have : Nonempty κ := ⟨(hall i₀ hi₀).choose⟩
  choose! keyOf hkeyOf using hall
  apply Finset.card_le_card_of_injOn keyOf
  · intro i hi
    exact hkeys i hi (keyOf i) (hkeyOf i hi)
  · intro i hi j hj hij
    have hi' := hkeyOf i hi
    rw [hij] at hi'
    exact wf.unique hi' (hkeyOf j hj)

/-- Keys that are all live in a finite set of slots are at most as many. -/
theorem keys_card_le (cells : ι → Cell κ) {slots : Finset ι} {keys : Finset κ}
    (hlive : ∀ key ∈ keys, ∃ i ∈ slots, cells i = .live key) : keys.card ≤ slots.card := by
  rcases keys.eq_empty_or_nonempty with rfl | ⟨key₀, hkey₀⟩
  · simp
  have : Nonempty ι := ⟨(hlive key₀ hkey₀).choose⟩
  choose! slotOf hslot hcell using hlive
  apply Finset.card_le_card_of_injOn slotOf hslot
  intro a ha b hb hab
  have ha' := hcell a ha
  rw [hab, hcell b hb] at ha'
  cases ha'
  rfl

end WellFormed

/-- Linear probing over a table of `capacity` slots. -/
def linearPath (hash capacity p : Nat) : Nat :=
  (hash + p) % capacity

theorem linearPath_lt {hash capacity : Nat} (hcap : 0 < capacity) (p : Nat) :
    linearPath hash capacity p < capacity :=
  Nat.mod_lt _ hcap

/-- Within `capacity` positions a linear path visits every slot. -/
theorem linearPath_covers {hash capacity i : Nat} (hi : i < capacity) :
    ∃ p, p < capacity ∧ linearPath hash capacity p = i := by
  have hlt : hash % capacity < capacity := Nat.mod_lt _ (by omega)
  unfold linearPath
  by_cases h : hash % capacity ≤ i
  · refine ⟨i - hash % capacity, by omega, ?_⟩
    rw [← Nat.mod_add_mod, Nat.add_sub_cancel' h, Nat.mod_eq_of_lt hi]
  · refine ⟨i + capacity - hash % capacity, by omega, ?_⟩
    rw [← Nat.mod_add_mod,
      show hash % capacity + (i + capacity - hash % capacity) = i + capacity by omega,
      Nat.add_mod_right, Nat.mod_eq_of_lt hi]

end OpenAddressing
