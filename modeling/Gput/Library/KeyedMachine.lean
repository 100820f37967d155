import Mathlib.Data.List.Sort
import Mathlib.Data.Fintype.EquivFin
import Mathlib.Data.List.FinRange
import Mathlib.Logic.Function.Basic
import Mathlib.Logic.Equiv.Defs

/-!
# Machines made of independent cells

A keyed machine has one cell for each key.  An input goes to the cell of its
key, or to no cell; it changes that cell only, and its output depends on that
cell only.  Such a machine cannot tell two orders of its inputs apart that
agree on the inputs of each single key (`run_reorder_outputs`,
`run_reorder_cells`).
-/

universe u v w x

/-- A family of cells, the cell an input goes to, and what the input does to
it; `idle` is the output of an input without a cell. -/
structure KeyedMachine (κ : Type u) (σ : Type v) (ι : Type w) (ο : Type x) where
  key : ι → Option κ
  step : κ → σ → ι → σ × ο
  idle : ο

namespace KeyedMachine

variable {κ : Type u} {σ : Type v} {ι : Type w} {ο : Type x}
variable [DecidableEq κ] (M : KeyedMachine κ σ ι ο)

/-- The cells after one input. -/
def next (cells : κ → σ) (input : ι) : κ → σ :=
  match M.key input with
  | none => cells
  | some k => Function.update cells k (M.step k (cells k) input).1

/-- The output of one input. -/
def output (cells : κ → σ) (input : ι) : ο :=
  match M.key input with
  | none => M.idle
  | some k => (M.step k (cells k) input).2

/-- The cells after a list of inputs. -/
def cellsAfter (cells : κ → σ) (inputs : List ι) : κ → σ :=
  inputs.foldl M.next cells

/-- The outputs of a list of inputs. -/
def outputs (cells : κ → σ) : List ι → List ο
  | [] => []
  | input :: inputs => M.output cells input :: outputs (M.next cells input) inputs

/-- The inputs of one key, in order. -/
def own (k : κ) (inputs : List ι) : List ι :=
  inputs.filter fun input => M.key input = some k

/-- A cell after the inputs of its own key. -/
def cellAfter (k : κ) (cell : σ) (inputs : List ι) : σ :=
  inputs.foldl (fun cell input => (M.step k cell input).1) cell

theorem cellsAfter_cons (cells : κ → σ) (input : ι) (inputs : List ι) :
    M.cellsAfter cells (input :: inputs) = M.cellsAfter (M.next cells input) inputs := rfl

theorem outputs_length (cells : κ → σ) (inputs : List ι) :
    (M.outputs cells inputs).length = inputs.length := by
  induction inputs generalizing cells with
  | nil => rfl
  | cons input inputs ih => simp only [outputs, List.length_cons, ih]

theorem outputs_getElem? (cells : κ → σ) (inputs : List ι) (i : Nat) :
    (M.outputs cells inputs)[i]? =
      inputs[i]?.map (M.output (M.cellsAfter cells (inputs.take i))) := by
  induction inputs generalizing cells i with
  | nil => simp [outputs]
  | cons input inputs ih =>
      cases i with
      | zero => simp [outputs, cellsAfter]
      | succ i => simpa [outputs, cellsAfter] using ih (M.next cells input) i

omit [DecidableEq κ] in
/-- An output only depends on the cell of the input's key. -/
theorem output_congr {cells cells' : κ → σ} {input : ι}
    (h : ∀ k, M.key input = some k → cells k = cells' k) :
    M.output cells input = M.output cells' input := by
  unfold output
  cases hkey : M.key input with
  | none => rfl
  | some k =>
      simp only
      rw [h k hkey]

/-- A cell only sees the inputs of its own key. -/
theorem cellsAfter_apply (cells : κ → σ) (inputs : List ι) (k : κ) :
    M.cellsAfter cells inputs k = M.cellAfter k (cells k) (M.own k inputs) := by
  induction inputs generalizing cells with
  | nil => rfl
  | cons input inputs ih =>
      rw [cellsAfter_cons, ih]
      unfold own next
      cases hkey : M.key input with
      | none => simp [hkey]
      | some k' =>
          by_cases hk : k' = k
          · subst hk
            simp [hkey, cellAfter]
          · have hne : k ≠ k' := fun h => hk h.symm
            simp [hkey, hk, Function.update_of_ne hne]

theorem cellsAfter_append (cells : κ → σ) (first second : List ι) :
    M.cellsAfter cells (first ++ second) = M.cellsAfter (M.cellsAfter cells first) second :=
  List.foldl_append

theorem outputs_append (cells : κ → σ) (first second : List ι) :
    M.outputs cells (first ++ second) =
      M.outputs cells first ++ M.outputs (M.cellsAfter cells first) second := by
  induction first generalizing cells with
  | nil => rfl
  | cons input first ih =>
      rw [List.cons_append, outputs, outputs, ih, cellsAfter_cons, List.cons_append]

/-- What every step keeps of a cell holds of every cell throughout. -/
theorem cellsAfter_keeps {P : κ → σ → Prop}
    (hstep : ∀ k cell input, P k cell → P k (M.step k cell input).1) {cells : κ → σ}
    (hcells : ∀ k, P k (cells k)) (inputs : List ι) : ∀ k, P k (M.cellsAfter cells inputs k) := by
  intro k
  rw [cellsAfter_apply]
  generalize M.own k inputs = own
  have hcell := hcells k
  generalize cells k = cell at hcell
  induction own generalizing cell with
  | nil => exact hcell
  | cons input own ih => exact ih _ (hstep k cell input hcell)

/-- A cell that no input goes to stays. -/
theorem cellsAfter_of_untouched (cells : κ → σ) {inputs : List ι} {k : κ}
    (h : ∀ input ∈ inputs, M.key input ≠ some k) : M.cellsAfter cells inputs k = cells k := by
  have hown : M.own k inputs = [] := by
    refine List.filter_eq_nil_iff.mpr fun input hinput => ?_
    simpa using h input hinput
  rw [cellsAfter_apply, hown]
  rfl

/-- No two of the inputs have one key. -/
def Distinct (inputs : List ι) : Prop :=
  inputs.Pairwise fun input input' => ∀ k, M.key input = some k → M.key input' ≠ some k

theorem next_of_ne (cells : κ → σ) {input : ι} {k : κ} (h : M.key input ≠ some k) :
    M.next cells input k = cells k := by
  have huntouched : M.cellsAfter cells [input] k = cells k :=
    M.cellsAfter_of_untouched cells (by simpa using h)
  exact huntouched

/-- Inputs of different keys do not see each other. -/
theorem outputs_of_distinct (cells : κ → σ) {inputs : List ι} (h : M.Distinct inputs) :
    M.outputs cells inputs = inputs.map (M.output cells) := by
  induction inputs generalizing cells with
  | nil => rfl
  | cons input inputs ih =>
      obtain ⟨hfirst, hrest⟩ := List.pairwise_cons.mp h
      rw [outputs, ih _ hrest, List.map_cons]
      refine congrArg _ (List.map_congr_left fun other hother => M.output_congr ?_)
      intro k hkey
      exact M.next_of_ne cells fun hsame => hfirst other hother k hsame hkey

/-- And each steps its own cell once. -/
theorem cellsAfter_of_distinct (cells : κ → σ) {inputs : List ι} (h : M.Distinct inputs)
    {input : ι} (hmem : input ∈ inputs) {k : κ} (hkey : M.key input = some k) :
    M.cellsAfter cells inputs k = (M.step k (cells k) input).1 := by
  induction inputs generalizing cells with
  | nil => cases hmem
  | cons first inputs ih =>
      obtain ⟨hfirst, hrest⟩ := List.pairwise_cons.mp h
      rw [cellsAfter_cons]
      cases hmem with
      | head =>
          rw [M.cellsAfter_of_untouched _ fun other hother => hfirst other hother k hkey]
          simp [next, hkey]
      | tail _ hmem =>
          rw [ih _ hrest hmem, M.next_of_ne cells fun hsame => hfirst input hmem k hsame hkey]

section Reorder

variable {n : Nat}

/-- The permutation keeps the order of the inputs that share a key. -/
def KeepsOrder (key : ι → Option κ) (inputs : Fin n → ι) (π : Equiv.Perm (Fin n)) : Prop :=
  ∀ i j k, i < j → key (inputs (π i)) = some k → key (inputs (π j)) = some k → π i < π j

/-- The positions below `m` whose input has key `k`. -/
def positions (k : κ) (inputs : Fin n → ι) (m : Nat) : List (Fin n) :=
  (List.finRange n).filter fun j => j.val < m ∧ M.key (inputs j) = some k

theorem mem_positions {k : κ} {inputs : Fin n → ι} {m : Nat} {j : Fin n} :
    j ∈ M.positions k inputs m ↔ j.val < m ∧ M.key (inputs j) = some k := by
  simp [positions]

theorem positions_sorted (k : κ) (inputs : Fin n → ι) (m : Nat) :
    (M.positions k inputs m).Pairwise (· < ·) :=
  (List.pairwise_lt_finRange n).sublist List.filter_sublist

/-- The own inputs of a prefix, by their positions. -/
theorem own_take_ofFn (k : κ) (inputs : Fin n → ι) (m : Nat) :
    M.own k ((List.ofFn inputs).take m) = (M.positions k inputs m).map inputs := by
  have htake : (List.finRange n).take m =
      (List.finRange n).filter (fun j => j.val < m) := by
    refine List.Pairwise.eq_of_mem_iff (r := (· < ·))
      ((List.pairwise_lt_finRange n).sublist (List.take_sublist _ _))
      ((List.pairwise_lt_finRange n).sublist List.filter_sublist) ?_
    intro j
    rw [List.mem_take_iff_getElem, List.mem_filter]
    constructor
    · rintro ⟨i, hi, hij⟩
      rw [List.getElem_finRange] at hij
      subst hij
      simp only [List.mem_finRange, true_and, decide_eq_true_eq]
      simp only [List.length_finRange] at hi
      show i < m
      omega
    · rintro ⟨-, hj⟩
      have hjm : j.val < m := by simpa using hj
      refine ⟨j.val, ?_, ?_⟩
      · rw [List.length_finRange]
        have := j.isLt
        omega
      · rw [List.getElem_finRange]
        rfl
  unfold own positions
  rw [List.ofFn_eq_map, ← List.map_take, List.filter_map, htake, List.filter_filter]
  congr 1
  apply List.filter_congr
  intro j _
  simp [Bool.and_comm]

/-- Under a permutation that keeps the order of each key, the positions before
an input of key `k` are the same. -/
theorem positions_reorder {key : ι → Option κ} (hkey : M.key = key) {inputs : Fin n → ι}
    {π : Equiv.Perm (Fin n)} (keep : KeepsOrder key inputs π) {k : κ} {m m' : Nat}
    (hcut : ∀ j, key (inputs (π j)) = some k → (j.val < m ↔ (π j).val < m')) :
    (M.positions k (inputs ∘ π) m).map π = M.positions k inputs m' := by
  subst hkey
  refine List.Pairwise.eq_of_mem_iff (r := (· < ·)) ?_ (M.positions_sorted k inputs m') ?_
  · rw [List.pairwise_map]
    refine (M.positions_sorted k (inputs ∘ π) m).imp_of_mem ?_
    intro i j hi hj hij
    exact keep i j k hij (M.mem_positions.mp hi).2 (M.mem_positions.mp hj).2
  · intro j
    rw [List.mem_map]
    constructor
    · rintro ⟨i, hi, rfl⟩
      obtain ⟨him, hik⟩ := M.mem_positions.mp hi
      exact M.mem_positions.mpr ⟨(hcut i hik).mp him, hik⟩
    · intro hj
      obtain ⟨hjm, hjk⟩ := M.mem_positions.mp hj
      have hsymm : M.key (inputs (π (π.symm j))) = some k := by
        rwa [Equiv.apply_symm_apply]
      refine ⟨π.symm j, M.mem_positions.mpr ⟨?_, hsymm⟩, Equiv.apply_symm_apply π j⟩
      rw [hcut _ hsymm, Equiv.apply_symm_apply]
      exact hjm

/-- The own inputs before an input of key `k` are the same in both orders. -/
theorem own_take_reorder {inputs : Fin n → ι} {π : Equiv.Perm (Fin n)}
    (keep : KeepsOrder M.key inputs π) {k : κ} {m m' : Nat}
    (hcut : ∀ j, M.key (inputs (π j)) = some k → (j.val < m ↔ (π j).val < m')) :
    M.own k ((List.ofFn (inputs ∘ π)).take m) = M.own k ((List.ofFn inputs).take m') := by
  rw [own_take_ofFn, own_take_ofFn, ← M.positions_reorder rfl keep hcut, List.map_map]

/-- The order of the inputs of different keys does not change the cells. -/
theorem run_reorder_cells (cells : κ → σ) {inputs : Fin n → ι} {π : Equiv.Perm (Fin n)}
    (keep : KeepsOrder M.key inputs π) :
    M.cellsAfter cells (List.ofFn (inputs ∘ π)) = M.cellsAfter cells (List.ofFn inputs) := by
  funext k
  have hall (f : Fin n → ι) : (List.ofFn f).take n = List.ofFn f :=
    List.take_of_length_le (by simp)
  rw [cellsAfter_apply, cellsAfter_apply, ← hall (inputs ∘ π), ← hall inputs]
  congr 1
  refine M.own_take_reorder keep ?_
  intro j _
  have hj := j.isLt
  have hπ := (π j).isLt
  exact ⟨fun _ => hπ, fun _ => hj⟩

/-- The order of the inputs of different keys does not change the output of any
input. -/
theorem run_reorder_outputs (cells : κ → σ) {inputs : Fin n → ι} {π : Equiv.Perm (Fin n)}
    (keep : KeepsOrder M.key inputs π) (i : Fin n) :
    (M.outputs cells (List.ofFn (inputs ∘ π)))[i.val]? =
      (M.outputs cells (List.ofFn inputs))[(π i).val]? := by
  rw [outputs_getElem?, outputs_getElem?]
  simp only [List.getElem?_ofFn, i.isLt, (π i).isLt, dite_true, Option.map_some,
    Function.comp_apply]
  congr 1
  apply M.output_congr
  intro k hkey
  have hown : M.own k ((List.ofFn (inputs ∘ π)).take i.val) =
      M.own k ((List.ofFn inputs).take (π i).val) := by
    refine M.own_take_reorder keep ?_
    intro j hj
    constructor
    · intro hlt
      exact keep j i k hlt hj hkey
    · intro hlt
      by_contra hge
      rcases Nat.lt_or_eq_of_le (Nat.le_of_not_lt hge) with hgt | heq
      · exact absurd (keep i j k hgt hkey hj) (by omega)
      · have : i = j := Fin.ext heq
        subst this
        omega
  rw [cellsAfter_apply, cellsAfter_apply, hown]

/-- Inputs that are taken in an order of their own, each once and those of one key
in turn: every output is the one of the plain order, and so are the cells. -/
theorem run_shuffled (cells : κ → σ) {inputs : List ι} {events : List (Nat × ο)}
    (hperm : (events.map Prod.fst).Perm (List.range inputs.length))
    (hkeeps : events.Pairwise fun before after => ∀ input input' k,
      inputs[before.1]? = some input → inputs[after.1]? = some input' → M.key input = some k →
      M.key input' = some k → before.1 < after.1)
    (houtputs : events.map Prod.snd =
      M.outputs cells (events.filterMap fun event => inputs[event.1]?)) :
    (∀ event ∈ events, (M.outputs cells inputs)[event.1]? = some event.2) ∧
      M.cellsAfter cells (events.filterMap fun event => inputs[event.1]?) =
        M.cellsAfter cells inputs := by
  have hlength : events.length = inputs.length := by simpa using hperm.length_eq
  let event (i : Fin inputs.length) : Nat × ο := events.get (i.cast hlength.symm)
  have hevents : (List.finRange inputs.length).map event = events := by
    apply List.ext_getElem
    · rw [List.length_map, List.length_finRange, hlength]
    · intro k hk hk'
      rw [List.getElem_map, List.getElem_finRange]
      rfl
  have hinside (i : Fin inputs.length) : (event i).1 < inputs.length :=
    List.mem_range.mp (hperm.subset (List.mem_map_of_mem (List.get_mem _ _)))
  have hnodup : events.Pairwise fun before after => before.1 ≠ after.1 := by
    have := hperm.nodup_iff.mpr List.nodup_range
    rwa [List.Nodup, List.pairwise_map] at this
  let source (i : Fin inputs.length) : Fin inputs.length := ⟨(event i).1, hinside i⟩
  have hinjective : Function.Injective source := by
    intro i j hij
    by_contra hne
    rcases Nat.lt_or_gt_of_ne (fun h => hne (Fin.ext h)) with hlt | hgt
    · exact List.pairwise_iff_getElem.mp hnodup i j _ _ hlt (Fin.mk.inj hij)
    · exact List.pairwise_iff_getElem.mp hnodup j i _ _ hgt (Fin.mk.inj hij).symm
  let π := Equiv.ofBijective source (Finite.injective_iff_bijective.mp hinjective)
  let items (i : Fin inputs.length) : ι := inputs[i]
  have hitems : List.ofFn items = inputs := List.ofFn_getElem
  have hshuffled : (events.filterMap fun event => inputs[event.1]?) = List.ofFn (items ∘ π) := by
    rw [← hevents, List.filterMap_map, List.ofFn_eq_map, ← List.filterMap_eq_map]
    refine List.filterMap_congr fun i _ => ?_
    exact List.getElem?_eq_getElem (hinside i)
  have keep : KeepsOrder M.key items π := by
    intro i j k hij hi hj
    exact List.pairwise_iff_getElem.mp hkeeps i j _ _ hij _ _ k
      (List.getElem?_eq_getElem (hinside i)) (List.getElem?_eq_getElem (hinside j)) hi hj
  refine ⟨?_, ?_⟩
  · intro one hone
    obtain ⟨i, hi, rfl⟩ := List.mem_iff_getElem.mp hone
    have hsame := M.run_reorder_outputs cells keep ⟨i, hlength ▸ hi⟩
    rw [← hshuffled, ← houtputs, hitems, List.getElem?_map, List.getElem?_eq_getElem hi] at hsame
    exact hsame.symm
  · rw [hshuffled, M.run_reorder_cells cells keep, hitems]

end Reorder

end KeyedMachine
