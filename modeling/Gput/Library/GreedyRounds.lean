import Mathlib.Data.List.Perm.Basic
import Mathlib.Data.List.Nodup

/-!
# Greedy rounds

Items wait in a list.  A round walks over them once and admits those that fit
what the round already holds; the others are deferred, in order, to the next
round.  The module shows what the rounds do to the items as a whole (every item
lands in one round) and when they respect an order between items that may not
share a round (`rounds_ordered_iff`).
-/

universe u

namespace GreedyRounds

variable {ι : Type u} (admits : List ι → ι → Prop) [∀ held item, Decidable (admits held item)]

/-- One round: the items it holds and the items it defers. -/
def fill : List ι → List ι → List ι → List ι × List ι
  | held, deferred, [] => (held, deferred)
  | held, deferred, item :: rest =>
      if admits held item then fill (held ++ [item]) deferred rest
      else fill held (deferred ++ [item]) rest

/-- The rounds that empty a waiting list, at most `count` of them. -/
def rounds : Nat → List ι → List (List ι)
  | 0, _ => []
  | _ + 1, [] => []
  | count + 1, item :: rest =>
      (fill admits [] [] (item :: rest)).1 ::
        rounds count (fill admits [] [] (item :: rest)).2

theorem rounds_nil (count : Nat) : rounds admits count [] = [] := by
  cases count <;> rfl

/-- A round neither loses nor repeats an item. -/
theorem fill_perm (pending : List ι) : ∀ held deferred,
    ((fill admits held deferred pending).1 ++ (fill admits held deferred pending).2).Perm
      (held ++ deferred ++ pending) := by
  induction pending with
  | nil =>
      intro held deferred
      simp [fill]
  | cons item rest ih =>
      intro held deferred
      unfold fill
      split_ifs
      · refine (ih _ _).trans ?_
        simp only [List.append_assoc, List.singleton_append]
        exact List.Perm.append_left held List.perm_middle.symm
      · refine (ih _ _).trans ?_
        simp only [List.append_assoc, List.singleton_append]
        exact List.Perm.refl _

/-- A property kept by every admission holds of the round. -/
theorem fill_held (P : List ι → Prop) (hadmits : ∀ held item, P held → admits held item →
    P (held ++ [item])) (pending : List ι) :
    ∀ held deferred, P held → P (fill admits held deferred pending).1 := by
  induction pending with
  | nil =>
      intro held deferred h
      exact h
  | cons item rest ih =>
      intro held deferred h
      unfold fill
      split_ifs with hitem
      · exact ih _ _ (hadmits held item h hitem)
      · exact ih _ _ h

/-- What a round holds and defers keeps the order of the waiting list. -/
theorem fill_extends (pending : List ι) : ∀ held deferred,
    ∃ more later, (fill admits held deferred pending).1 = held ++ more ∧
      (fill admits held deferred pending).2 = deferred ++ later ∧
      more.Sublist pending ∧ later.Sublist pending := by
  induction pending with
  | nil =>
      intro held deferred
      exact ⟨[], [], by simp [fill], by simp [fill], List.Sublist.refl _, List.Sublist.refl _⟩
  | cons item rest ih =>
      intro held deferred
      unfold fill
      split_ifs
      · obtain ⟨more, later, hmore, hlater, hsub, hsub'⟩ := ih (held ++ [item]) deferred
        exact ⟨item :: more, later, by simp [hmore], hlater, hsub.cons_cons item,
          hsub'.cons item⟩
      · obtain ⟨more, later, hmore, hlater, hsub, hsub'⟩ := ih held (deferred ++ [item])
        exact ⟨more, item :: later, hmore, by simp [hlater], hsub.cons item,
          hsub'.cons_cons item⟩

/-- A round whose first item fits is not empty and defers fewer items than
wait. -/
theorem fill_progress {item : ι} (rest : List ι) (h : admits [] item) :
    (fill admits [] [] (item :: rest)).1 ≠ [] ∧
      (fill admits [] [] (item :: rest)).2.length ≤ rest.length := by
  rw [fill, if_pos h, List.nil_append]
  obtain ⟨more, later, hmore, hlater, -, hsub⟩ := fill_extends admits rest [item] []
  rw [hmore, hlater]
  exact ⟨by simp, hsub.length_le⟩

section Rounds

variable (hfirst : ∀ item, admits [] item)
include hfirst

/-- Every item lands in exactly one round. -/
theorem rounds_perm : ∀ (count : Nat) (pending : List ι), pending.length ≤ count →
    (rounds admits count pending).flatten.Perm pending
  | 0, pending, h => by
      rw [List.eq_nil_of_length_eq_zero (Nat.le_zero.mp h)]
      exact List.Perm.refl _
  | count + 1, [], _ => List.Perm.refl _
  | count + 1, item :: rest, h => by
      have hprogress := (fill_progress admits rest (hfirst item)).2
      have hlength : rest.length ≤ count := by simpa using h
      rw [rounds, List.flatten_cons]
      refine (List.Perm.append_left _
        (rounds_perm count _ (Nat.le_trans hprogress hlength))).trans ?_
      simpa using fill_perm admits (item :: rest) [] []

/-- Every round holds items, and what every admission keeps. -/
theorem rounds_held (P : List ι → Prop) (hnil : P [])
    (hadmits : ∀ held item, P held → admits held item → P (held ++ [item])) :
    ∀ (count : Nat) (pending : List ι), ∀ round ∈ rounds admits count pending,
      round ≠ [] ∧ P round
  | 0, _, round, h => by simp [rounds] at h
  | count + 1, [], round, h => by simp [rounds] at h
  | count + 1, item :: rest, round, h => by
      rw [rounds, List.mem_cons] at h
      rcases h with rfl | h
      · exact ⟨(fill_progress admits rest (hfirst item)).1,
          fill_held admits P hadmits _ _ _ hnil⟩
      · exact rounds_held P hnil hadmits count _ round h

end Rounds

section Order

variable (R : ι → ι → Prop)

/-- No item is admitted in the rest of a round while an item that must go first
is already deferred. -/
def FillOrdered : List ι → List ι → List ι → Prop
  | _, _, [] => True
  | held, deferred, item :: rest =>
      if admits held item then
        (∀ other ∈ deferred, ¬ R other item) ∧ FillOrdered (held ++ [item]) deferred rest
      else FillOrdered held (deferred ++ [item]) rest

/-- No round admits an item while one that must go first is already deferred. -/
def RoundsOrdered : Nat → List ι → Prop
  | 0, _ => True
  | _ + 1, [] => True
  | count + 1, item :: rest =>
      FillOrdered admits R [] [] (item :: rest) ∧
        RoundsOrdered count (fill admits [] [] (item :: rest)).2

/-- The items a round starts with stay in it. -/
theorem mem_fill_of_mem {pending held deferred : List ι} {item : ι} (h : item ∈ held) :
    item ∈ (fill admits held deferred pending).1 := by
  obtain ⟨more, -, hmore, -⟩ := fill_extends admits pending held deferred
  rw [hmore]
  exact List.mem_append_left _ h

/-- An item outside the waiting list and the round stays outside. -/
theorem not_mem_fill {pending held deferred : List ι} {item : ι} (hheld : item ∉ held)
    (hpending : item ∉ pending) : item ∉ (fill admits held deferred pending).1 := by
  obtain ⟨more, -, hmore, -, hsub, -⟩ := fill_extends admits pending held deferred
  rw [hmore, List.mem_append]
  rintro (h | h)
  · exact hheld h
  · exact hpending (hsub.subset h)

/-- The order of a round's items, in the split of a waiting list at its head. -/
theorem nodup_head {held deferred rest : List ι} {item : ι}
    (h : (held ++ deferred ++ item :: rest).Nodup) :
    item ∉ held ∧ item ∉ rest ∧ (held ++ [item] ++ deferred ++ rest).Nodup ∧
      (held ++ (deferred ++ [item]) ++ rest).Nodup := by
  have hshift : (held ++ deferred ++ item :: rest).Perm (held ++ [item] ++ deferred ++ rest) := by
    simp only [List.append_assoc, List.singleton_append]
    exact List.Perm.append_left held List.perm_middle
  have hmoved := hshift.nodup_iff.mp h
  refine ⟨?_, ?_, hmoved, by simpa using h⟩
  · intro hmem
    simp only [List.append_assoc] at h
    exact (List.nodup_append.mp h).2.2 item hmem item (by simp) rfl
  · exact (List.nodup_cons.mp (List.nodup_append.mp h).2.1).1

section Separate

variable (hclash : ∀ held other item, other ∈ held → R other item → ¬ admits held item)
include hclash

/-- An item with a predecessor in the round is not admitted. -/
theorem fill_excludes (pending : List ι) : ∀ held deferred,
    (held ++ deferred ++ pending).Nodup → ∀ other ∈ held, ∀ item ∈ pending, R other item →
      item ∉ (fill admits held deferred pending).1 := by
  induction pending with
  | nil =>
      intro held deferred _ other _ item hitem
      simp at hitem
  | cons first rest ih =>
      intro held deferred hnodup other hother item hitem hR
      obtain ⟨hheld, hrest, hnodup', hnodup''⟩ := nodup_head hnodup
      unfold fill
      rcases List.mem_cons.mp hitem with rfl | hlater
      · rw [if_neg (hclash held other item hother hR)]
        exact not_mem_fill admits hheld hrest
      · split_ifs
        · exact ih _ _ hnodup' other (List.mem_append_left _ hother) item hlater hR
        · exact ih _ _ hnodup'' other hother item hlater hR

/-- A round never holds two items with an order between them. -/
theorem fill_separates (pending : List ι) : ∀ held deferred,
    (held ++ deferred ++ pending).Nodup →
      pending.Pairwise fun other item => R other item →
        other ∈ (fill admits held deferred pending).1 →
          item ∉ (fill admits held deferred pending).1 := by
  induction pending with
  | nil =>
      intro held deferred _
      exact List.Pairwise.nil
  | cons item rest ih =>
      intro held deferred hnodup
      obtain ⟨hheld, hrest, hnodup', hnodup''⟩ := nodup_head hnodup
      unfold fill
      split_ifs
      · refine List.Pairwise.cons ?_ (ih _ _ hnodup')
        intro later hlater hR _
        exact fill_excludes admits R hclash rest _ _ hnodup' item (by simp) later hlater hR
      · refine List.Pairwise.cons ?_ (ih _ _ hnodup'')
        intro later _ _ hmem
        exact absurd hmem (not_mem_fill admits hheld hrest)

end Separate

/-- A round is ordered exactly when, of two waiting items with an order between
them, the later is held only if the earlier is. -/
theorem fillOrdered_iff (pending : List ι) : ∀ held deferred,
    (held ++ deferred ++ pending).Nodup →
      (FillOrdered admits R held deferred pending ↔
        (∀ other ∈ deferred, ∀ item ∈ pending, R other item →
          item ∉ (fill admits held deferred pending).1) ∧
        pending.Pairwise fun other item => R other item →
          item ∈ (fill admits held deferred pending).1 →
            other ∈ (fill admits held deferred pending).1) := by
  induction pending with
  | nil =>
      intro held deferred _
      simp [FillOrdered]
  | cons item rest ih =>
      intro held deferred hnodup
      obtain ⟨hheld, hrest, hnodup', hnodup''⟩ := nodup_head hnodup
      unfold FillOrdered fill
      rw [List.pairwise_cons]
      by_cases hadmits : admits held item
      · have hmem : item ∈ (fill admits (held ++ [item]) deferred rest).1 :=
          mem_fill_of_mem admits (by simp)
        simp only [if_pos hadmits]
        rw [ih _ _ hnodup']
        constructor
        · rintro ⟨hfirst, hlater, hpairs⟩
          refine ⟨?_, fun _ _ _ _ => hmem, hpairs⟩
          intro other hother x hx hR
          rcases List.mem_cons.mp hx with rfl | hx
          · exact absurd hR (hfirst other hother)
          · exact hlater other hother x hx hR
        · rintro ⟨hall, -, hpairs⟩
          refine ⟨?_, ?_, hpairs⟩
          · intro other hother hR
            exact hall other hother item (by simp) hR hmem
          · intro other hother x hx hR
            exact hall other hother x (List.mem_cons_of_mem _ hx) hR
      · have hmem : item ∉ (fill admits held (deferred ++ [item]) rest).1 :=
          not_mem_fill admits hheld hrest
        simp only [if_neg hadmits]
        rw [ih _ _ hnodup'']
        constructor
        · rintro ⟨hlater, hpairs⟩
          refine ⟨?_, ?_, hpairs⟩
          · intro other hother x hx hR
            rcases List.mem_cons.mp hx with rfl | hx
            · exact hmem
            · exact hlater other (List.mem_append_left _ hother) x hx hR
          · intro x hx hR hin
            exact absurd hin (hlater item (by simp) x hx hR)
        · rintro ⟨hall, hfirst, hpairs⟩
          refine ⟨?_, hpairs⟩
          intro other hother x hx hR hin
          rcases List.mem_append.mp hother with hother | hother
          · exact hall other hother x (List.mem_cons_of_mem _ hx) hR hin
          · rw [List.mem_singleton] at hother
            subst hother
            exact hmem (hfirst x hx hR hin)

/-- When a round that keeps an item out never lets in one that must come after it,
the rest of the round is ordered.  Every deferred item splits what the round
holds into the items held when it was met and those admitted since. -/
theorem fillOrdered_of_turns (P : List ι → Prop) {all : List ι}
    (hadmits : ∀ held item, P held → admits held item → P (held ++ [item]))
    (hturn : ∀ before other between item, (before ++ other :: between ++ [item]).Sublist all →
      R other item → P (before ++ between) → ¬ admits before other →
      ¬ admits (before ++ between) item) (pending : List ι) :
    ∀ held deferred, P held → (held ++ pending).Sublist all →
      (∀ other ∈ deferred, ∃ before between, held = before ++ between ∧
        ¬ admits before other ∧ (before ++ other :: between ++ pending).Sublist all) →
      FillOrdered admits R held deferred pending := by
  induction pending with
  | nil =>
      intro held deferred _ _ _
      trivial
  | cons item rest ih =>
      intro held deferred hP hsub hdeferred
      unfold FillOrdered
      split_ifs with hitem
      · refine ⟨?_, ih _ _ (hadmits held item hP hitem) (by simpa using hsub) ?_⟩
        · intro other hother hR
          obtain ⟨before, between, rfl, hout, hothers⟩ := hdeferred other hother
          have hpair : (before ++ other :: between ++ [item]).Sublist all :=
            (List.Sublist.append_left (List.singleton_sublist.mpr (by simp)) _).trans hothers
          exact hturn before other between item hpair hR hP hout hitem
        · intro other hother
          obtain ⟨before, between, rfl, hout, hothers⟩ := hdeferred other hother
          exact ⟨before, between ++ [item], by simp, hout, by simpa using hothers⟩
      · have hrest : rest.Sublist (item :: rest) := List.sublist_cons_self item rest
        refine ih _ _ hP ((List.Sublist.append_left hrest held).trans hsub) ?_
        intro other hother
        rcases List.mem_append.mp hother with hother | hother
        · obtain ⟨before, between, hheld, hout, hothers⟩ := hdeferred other hother
          exact ⟨before, between, hheld, hout,
            (List.Sublist.append_left hrest _).trans hothers⟩
        · rw [List.mem_singleton] at hother
          subst hother
          exact ⟨held, [], by simp, hitem, by simpa using hsub⟩

/-- When keeping an item out always keeps out those that must come after it, every
round is ordered. -/
theorem roundsOrdered_of_turns (P : List ι → Prop) (hnil : P []) {all : List ι}
    (hadmits : ∀ held item, P held → admits held item → P (held ++ [item]))
    (hturn : ∀ before other between item, (before ++ other :: between ++ [item]).Sublist all →
      R other item → P (before ++ between) → ¬ admits before other →
      ¬ admits (before ++ between) item) :
    ∀ (count : Nat) (pending : List ι), pending.Sublist all →
      RoundsOrdered admits R count pending
  | 0, _, _ => trivial
  | _ + 1, [], _ => trivial
  | count + 1, item :: rest, hsub => by
      obtain ⟨-, later, -, hlater, -, hlaterSub⟩ := fill_extends admits (item :: rest) [] []
      refine ⟨fillOrdered_of_turns admits R P hadmits hturn _ _ _ hnil (by simpa using hsub)
        (by simp), roundsOrdered_of_turns P hnil hadmits hturn count _ ?_⟩
      rw [hlater, List.nil_append]
      exact hlaterSub.trans hsub

/-- The first of ordered rounds is ordered. -/
theorem RoundsOrdered.fill {count : Nat} {pending : List ι} (hlength : pending.length ≤ count)
    (h : RoundsOrdered admits R count pending) : FillOrdered admits R [] [] pending := by
  cases pending with
  | nil => trivial
  | cons item rest =>
      cases count with
      | zero => simp at hlength
      | succ count => exact h.1

/-- A round that admits a run of items goes on with all of them held. -/
theorem FillOrdered.after {more deferred rest : List ι} : ∀ {held},
    FillOrdered admits R held deferred (more ++ rest) →
      (∀ before item after, more = before ++ item :: after → admits (held ++ before) item) →
      FillOrdered admits R (held ++ more) deferred rest := by
  induction more with
  | nil =>
      intro held h _
      simpa using h
  | cons item more ih =>
      intro held h hmore
      have hitem : admits held item := by simpa using hmore [] item more rfl
      rw [List.cons_append, FillOrdered, if_pos hitem] at h
      have hrest := ih h.2 fun before other after hsplit => by
        simpa using hmore (item :: before) other after (by simp [hsplit])
      simpa using hrest

variable [DecidableEq ι]

/-- What a round defers is what it does not hold. -/
theorem fill_deferred (pending : List ι) : ∀ held deferred,
    (held ++ deferred ++ pending).Nodup →
      (fill admits held deferred pending).2 = deferred ++
        pending.filter fun item => item ∉ (fill admits held deferred pending).1 := by
  induction pending with
  | nil =>
      intro held deferred _
      simp [fill]
  | cons item rest ih =>
      intro held deferred hnodup
      obtain ⟨hheld, hrest, hnodup', hnodup''⟩ := nodup_head hnodup
      unfold fill
      split_ifs
      · have hmem : item ∈ (fill admits (held ++ [item]) deferred rest).1 :=
          mem_fill_of_mem admits (by simp)
        rw [ih _ _ hnodup', List.filter_cons_of_neg (by simpa using hmem)]
      · have hmem : item ∉ (fill admits held (deferred ++ [item]) rest).1 :=
          not_mem_fill admits hheld hrest
        rw [ih _ _ hnodup'', List.filter_cons_of_pos (by simpa using hmem)]
        simp

/-- The round an item is in. -/
def roundOf (rounds : List (List ι)) (item : ι) : Nat :=
  rounds.findIdx fun round => item ∈ round

theorem roundOf_cons_of_mem {round : List ι} {rest : List (List ι)} {item : ι}
    (h : item ∈ round) : roundOf (round :: rest) item = 0 := by
  simp [roundOf, List.findIdx_cons, h]

theorem roundOf_cons_of_not_mem {round : List ι} {rest : List (List ι)} {item : ι}
    (h : item ∉ round) : roundOf (round :: rest) item = roundOf rest item + 1 := by
  simp [roundOf, List.findIdx_cons, h]

/-- **Order across rounds.**  When items with an order between them never share a
round, the rounds keep the order of the waiting list between them exactly when
no round admits an item while one that must go first is already deferred. -/
theorem rounds_ordered_iff (hfirst : ∀ item, admits [] item)
    (hclash : ∀ held other item, other ∈ held → R other item → ¬ admits held item) :
    ∀ (count : Nat) (pending : List ι), pending.length ≤ count → pending.Nodup →
      (RoundsOrdered admits R count pending ↔
        pending.Pairwise fun other item => R other item →
          roundOf (rounds admits count pending) other <
            roundOf (rounds admits count pending) item)
  | 0, pending, hlength, _ => by
      rw [List.eq_nil_of_length_eq_zero (Nat.le_zero.mp hlength)]
      simp [RoundsOrdered]
  | count + 1, [], _, _ => by simp [RoundsOrdered]
  | count + 1, first :: rest, hlength, hnodup => by
      have hnodup' : ([] ++ [] ++ first :: rest).Nodup := by simpa using hnodup
      have hdeferred := fill_deferred admits (first :: rest) [] [] hnodup'
      have hseparate := fill_separates admits R hclash (first :: rest) [] [] hnodup'
      have hprogress := (fill_progress admits rest (hfirst first)).2
      have hshort : rest.length ≤ count := by simpa using hlength
      unfold RoundsOrdered rounds
      rw [fillOrdered_iff admits R (first :: rest) [] [] hnodup']
      generalize fill admits [] [] (first :: rest) = filled at *
      obtain ⟨held, deferred⟩ := filled
      simp only [List.nil_append] at hdeferred hseparate hprogress
      have ih := rounds_ordered_iff hfirst hclash count deferred
        (Nat.le_trans hprogress hshort) (hdeferred ▸ hnodup.filter _)
      simp only
      rw [ih]
      generalize rounds admits count deferred = later
      rw [hdeferred, List.pairwise_filter]
      constructor
      · rintro ⟨⟨-, hheld⟩, hlater⟩
        refine ((hheld.and hlater).and hseparate).imp ?_
        rintro other item ⟨⟨hcond, hrest⟩, hsep⟩ hR
        by_cases hother : other ∈ held
        · rw [roundOf_cons_of_mem hother, roundOf_cons_of_not_mem (hsep hR hother)]
          exact Nat.succ_pos _
        · have hitem : item ∉ held := fun h => hother (hcond hR h)
          rw [roundOf_cons_of_not_mem hother, roundOf_cons_of_not_mem hitem]
          exact Nat.succ_lt_succ (hrest (by simpa using hother) (by simpa using hitem) hR)
      · intro hall
        refine ⟨⟨by simp, hall.imp ?_⟩, hall.imp ?_⟩
        · intro other item hlt hR hin
          have h := hlt hR
          rw [roundOf_cons_of_mem hin] at h
          exact absurd h (Nat.not_lt_zero _)
        · intro other item hlt hother hitem hR
          have h := hlt hR
          rw [roundOf_cons_of_not_mem (by simpa using hother),
            roundOf_cons_of_not_mem (by simpa using hitem)] at h
          exact Nat.lt_of_succ_lt_succ h

/-- Rounds whose items are shuffled still come one after the other. -/
theorem roundOf_sorted {blocks rounds : List (List ι)} (h : List.Forall₂ List.Perm blocks rounds)
    (hnodup : rounds.flatten.Nodup) :
    blocks.flatten.Pairwise fun other item => roundOf rounds other ≤ roundOf rounds item := by
  induction h with
  | nil => exact List.Pairwise.nil
  | @cons block round blocks rounds hperm _ ih =>
      rw [List.flatten_cons, List.nodup_append'] at hnodup
      obtain ⟨-, hrest, hdisjoint⟩ := hnodup
      have hmem {item : ι} (hitem : item ∈ blocks.flatten) : item ∉ round := by
        intro hround
        have hflat : blocks.flatten.Perm rounds.flatten := List.Perm.flatten_congr ‹_›
        exact hdisjoint hround (hflat.subset hitem)
      have hfirst {item : ι} (hitem : item ∈ block) : roundOf (round :: rounds) item = 0 :=
        roundOf_cons_of_mem (hperm.subset hitem)
      rw [List.flatten_cons, List.pairwise_append]
      refine ⟨?_, ?_, ?_⟩
      · refine List.pairwise_of_forall_mem_list fun other hother item hitem => ?_
        rw [hfirst hother]
        exact Nat.zero_le _
      · refine (ih hrest).imp_of_mem fun hother hitem hle => ?_
        rw [roundOf_cons_of_not_mem (hmem hother), roundOf_cons_of_not_mem (hmem hitem)]
        exact Nat.succ_le_succ hle
      · intro other hother item hitem
        rw [hfirst hother]
        exact Nat.zero_le _

/-- An order that the rounds keep, shuffled rounds keep too. -/
theorem keepsOrder_of_shuffled {blocks rounds : List (List ι)}
    (h : List.Forall₂ List.Perm blocks rounds) (hnodup : rounds.flatten.Nodup)
    (hkeeps : ∀ other item, R other item → roundOf rounds other < roundOf rounds item) :
    blocks.flatten.Pairwise fun other item => ¬ R item other :=
  (roundOf_sorted h hnodup).imp fun hle hlater => absurd (hkeeps _ _ hlater) (Nat.not_lt.mpr hle)

end Order

end GreedyRounds
