import Gput.Library.OpenAddressing
import Gput.Packet.Wire
import Mathlib.Data.Finset.Range
import Mathlib.Data.List.Infix
import Mathlib.Data.Nat.Log

/-!
# The scheduler's flow set

A hash set whose slots carry the generation they were written in: `begin`
empties it by starting a new generation.  Between two `begin` the slots of the
current generation are an open-addressed table without tombstones, so the set
is exact as long as `begin` was told how many keys to expect.
-/

namespace Gput
namespace Packet

open OpenAddressing

structure FlowSet where
  keys : List FlowKey
  generations : List UInt32
  generation : UInt32
deriving DecidableEq

namespace FlowSet

/-- `FlowSet::default`. -/
def default : FlowSet := ⟨[], [], 0⟩

/-- `usize::next_power_of_two`. -/
def nextPowerOfTwo (n : Nat) : Nat :=
  2 ^ Nat.clog 2 n

/-- `Vec::resize` of a vector that is too short. -/
def grow {α : Type} (items : List α) (length : Nat) (item : α) : List α :=
  items ++ List.replicate (length - items.length) item

/-- The capacity `begin` asks for. -/
def wanted (expectedKeys : Nat) : Nat :=
  nextPowerOfTwo (max expectedKeys 1 * 2)

/-- The first half of `begin`: the table grown to the wanted capacity. -/
def reserve (set : FlowSet) (expectedKeys : Nat) : FlowSet :=
  if set.keys.length < wanted expectedKeys then
    { set with
      keys := grow set.keys (wanted expectedKeys)
        { srcIp := 0, dstIp := 0, srcPort := 0, dstPort := 0 }
      generations := grow set.generations (wanted expectedKeys) 0 }
  else set

/-- `FlowSet::begin`. -/
def begin (set : FlowSet) (expectedKeys : Nat) : FlowSet :=
  let set := set.reserve expectedKeys
  let set := { set with generation := set.generation + 1 }
  if set.generation = 0 then
    { set with
      generations := List.replicate set.generations.length 0
      generation := 1 }
  else set

/-- Slot `index` written in the current generation. -/
def place (set : FlowSet) (index : Nat) (key : FlowKey) : FlowSet :=
  { set with
    keys := set.keys.set index key
    generations := set.generations.set index set.generation }

/-- The loop of `FlowSet::insert`, for at most `rounds` rounds; `none` is an
index out of range or a loop that does not end. -/
def insertLoop (set : FlowSet) (key : FlowKey) : Nat → Nat → Option (FlowSet × Bool)
  | 0, _ => none
  | rounds + 1, index => do
      let generation ← set.generations[index]?
      if generation ≠ set.generation then
        if index < set.keys.length then return (set.place index key, true) else none
      else
        let other ← set.keys[index]?
        if other = key then return (set, false)
        insertLoop set key rounds ((index + 1) &&& (set.keys.length - 1))

/-- `FlowSet::insert`.  After as many rounds as there are slots the loop would
start over. -/
def insert (set : FlowSet) (key : FlowKey) : Option (FlowSet × Bool) :=
  let mask := set.keys.length - 1
  insertLoop set key set.keys.length ((flowHash key).toNat &&& mask)

/-- What the current generation has in a slot. -/
def cellAt (set : FlowSet) (index : Nat) : Cell FlowKey :=
  match set.generations[index]?, set.keys[index]? with
  | some generation, some key => if generation = set.generation then .live key else .free
  | _, _ => .free

/-- The slots a key may be in. -/
def path (set : FlowSet) (key : FlowKey) : Nat → Nat :=
  linearPath (flowHash key).toNat set.keys.length

/-- The two vectors have one length, a power of two once there are slots, and no
slot is from a later generation. -/
structure Valid (set : FlowSet) : Prop where
  lengths : set.generations.length = set.keys.length
  power : set.keys.length = 0 ∨ ∃ e, set.keys.length = 2 ^ e
  recent : ∀ generation ∈ set.generations, generation ≤ set.generation

/-- Since the last `begin`, exactly the members were inserted. -/
structure Holds (set : FlowSet) (members : Finset FlowKey) : Prop where
  valid : set.Valid
  wellFormed : WellFormed set.cellAt set.path set.keys.length
  mem_iff : ∀ key, key ∈ members ↔ ∃ index, set.cellAt index = .live key

/-- The sets that runs of `begin` and `insert` lead to. -/
inductive Reachable : FlowSet → Prop
  | default : Reachable default
  | begin {set : FlowSet} (h : Reachable set) (expectedKeys : Nat) :
      Reachable (set.begin expectedKeys)
  | insert {set set' : FlowSet} (h : Reachable set) {key : FlowKey} {added : Bool}
      (hinsert : set.insert key = some (set', added)) : Reachable set'

section Cells

variable {set : FlowSet} {index : Nat} {key : FlowKey}

theorem cellAt_of_lt (valid : set.Valid) (h : index < set.keys.length) :
    set.cellAt index =
      if set.generations[index]? = some set.generation then .live set.keys[index] else .free := by
  unfold cellAt
  rw [List.getElem?_eq_getElem (valid.lengths ▸ h), List.getElem?_eq_getElem h]
  simp only [Option.some.injEq]

theorem lt_of_cellAt_live (h : set.cellAt index = .live key) : index < set.keys.length := by
  unfold cellAt at h
  by_contra hge
  rw [List.getElem?_eq_none (l := set.keys) (by omega)] at h
  cases hg : set.generations[index]? <;> simp [hg] at h

theorem cellAt_free_or_live (set : FlowSet) (index : Nat) :
    set.cellAt index = .free ∨ ∃ key, set.cellAt index = .live key := by
  unfold cellAt
  split
  · split_ifs
    · exact Or.inr ⟨_, rfl⟩
    · exact Or.inl rfl
  · exact Or.inl rfl

/-- Writing a slot makes it live with the key and leaves the others. -/
theorem cellAt_place (valid : set.Valid) (h : index < set.keys.length) :
    (set.place index key).cellAt = Function.update set.cellAt index (.live key) := by
  have hgen : index < set.generations.length := valid.lengths ▸ h
  funext other
  by_cases hother : other = index
  · subst hother
    rw [Function.update_self]
    simp [cellAt, place, h, hgen]
  · rw [Function.update_of_ne hother]
    unfold cellAt place
    simp only
    rw [List.getElem?_set_ne (fun heq => hother heq.symm),
      List.getElem?_set_ne (fun heq => hother heq.symm)]

theorem Valid.place (valid : set.Valid) : (set.place index key).Valid where
  lengths := by
    simp [FlowSet.place, valid.lengths]
  power := by
    simpa [FlowSet.place] using valid.power
  recent := by
    intro generation hmem
    rcases List.mem_or_eq_of_mem_set hmem with hmem | rfl
    · exact valid.recent generation hmem
    · exact UInt32.le_refl _

end Cells

/-- `begin` leaves room for more keys than it was told to expect. -/
theorem lt_wanted (expectedKeys : Nat) : max expectedKeys 1 < wanted expectedKeys := by
  have h : max expectedKeys 1 * 2 ≤ wanted expectedKeys := Nat.le_pow_clog (by omega) _
  omega

theorem grow_length {α : Type} (items : List α) {length : Nat} (item : α)
    (h : items.length < length) : (grow items length item).length = length := by
  simp only [grow, List.length_append, List.length_replicate]
  omega

theorem Valid.reserve {set : FlowSet} (valid : set.Valid) (expectedKeys : Nat) :
    (set.reserve expectedKeys).Valid ∧
      wanted expectedKeys ≤ (set.reserve expectedKeys).keys.length := by
  unfold FlowSet.reserve
  split_ifs with h
  · have hkeys := grow_length set.keys
      { srcIp := 0, dstIp := 0, srcPort := 0, dstPort := 0 } h
    have hgen := grow_length set.generations (0 : UInt32) (valid.lengths ▸ h)
    refine ⟨⟨by rw [hkeys, hgen], Or.inr ⟨_, hkeys⟩, ?_⟩, le_of_eq hkeys.symm⟩
    intro generation hmem
    rcases List.mem_append.mp hmem with hmem | hmem
    · exact valid.recent generation hmem
    · rw [(List.mem_replicate.mp hmem).2]
      exact UInt32.zero_le
  · exact ⟨valid, by omega⟩

/-- A new generation starts with no member. -/
theorem holds_begin {set : FlowSet} (valid : set.Valid) (expectedKeys : Nat) :
    (set.begin expectedKeys).Holds ∅ ∧
      wanted expectedKeys ≤ (set.begin expectedKeys).keys.length := by
  obtain ⟨hvalid, hroom⟩ := valid.reserve expectedKeys
  have empty (next : FlowSet) (hnext : next.Valid)
      (hstale : ∀ generation ∈ next.generations, generation ≠ next.generation) :
      next.Holds ∅ := by
    have hfree : ∀ index key, next.cellAt index ≠ .live key := by
      intro index key hlive
      have hlt := lt_of_cellAt_live hlive
      rw [cellAt_of_lt hnext hlt, if_neg fun hat => hstale _ (List.mem_of_getElem? hat) rfl] at hlive
      cases hlive
    refine ⟨hnext, wellFormed_of_no_live hfree, ?_⟩
    intro key
    simp [hfree]
  unfold FlowSet.begin
  generalize set.reserve expectedKeys = table at hvalid hroom ⊢
  simp only
  by_cases hwrap : table.generation + 1 = 0
  · rw [if_pos hwrap]
    refine ⟨empty _ ⟨?_, hvalid.power, ?_⟩ ?_, hroom⟩
    · simpa using hvalid.lengths
    · intro generation hmem
      rw [(List.mem_replicate.mp hmem).2]
      exact UInt32.zero_le
    · intro generation hmem
      rw [(List.mem_replicate.mp hmem).2]
      exact (by decide : (0 : UInt32) ≠ 1)
  · rw [if_neg hwrap]
    have hlater : ∀ generation ∈ table.generations, generation < table.generation + 1 := by
      intro generation hmem
      have hle := hvalid.recent generation hmem
      rw [UInt32.le_iff_toNat_le] at hle
      rw [UInt32.lt_iff_toNat_lt, UInt32.toNat_add]
      have hne : (table.generation + 1).toNat ≠ 0 := by
        intro hzero
        exact hwrap (UInt32.toNat_inj.mp hzero)
      rw [UInt32.toNat_add] at hne
      have hlt := table.generation.toNat_lt
      simp only [UInt32.reduceToNat] at hne ⊢
      omega
    refine ⟨empty _ ⟨hvalid.lengths, hvalid.power, ?_⟩ ?_, hroom⟩
    · intro generation hmem
      exact UInt32.le_of_lt (hlater generation hmem)
    · intro generation hmem
      exact UInt32.ne_of_lt (hlater generation hmem)

/-- Masking with a power of two less one is the remainder. -/
theorem and_mask {capacity : Nat} (h : ∃ e, capacity = 2 ^ e) (n : Nat) :
    n &&& (capacity - 1) = n % capacity := by
  obtain ⟨e, rfl⟩ := h
  exact Nat.and_two_pow_sub_one_eq_mod n e

theorem path_succ {set : FlowSet} (h : ∃ e, set.keys.length = 2 ^ e) (key : FlowKey) (p : Nat) :
    (set.path key p + 1) &&& (set.keys.length - 1) = set.path key (p + 1) := by
  rw [and_mask h, path, linearPath, linearPath, Nat.mod_add_mod, Nat.add_assoc]

/-- The loop stops where the search of the table stops: it finds the key there or
writes it there. -/
theorem insertLoop_eq {set : FlowSet} (valid : set.Valid) (hpos : 0 < set.keys.length)
    (key : FlowKey) : ∀ rounds p,
    set.insertLoop key rounds (set.path key p) =
      (seek set.cellAt (set.path key) key rounds p).map fun index =>
        if set.cellAt index = .live key then (set, false) else (set.place index key, true)
  | 0, p => rfl
  | rounds + 1, p => by
      have hpower : ∃ e, set.keys.length = 2 ^ e := by
        rcases valid.power with h | h
        · omega
        · exact h
      have hlt : set.path key p < set.keys.length := linearPath_lt hpos p
      have ih := insertLoop_eq valid hpos key rounds (p + 1)
      have hcell := cellAt_of_lt valid hlt
      unfold insertLoop seek
      rw [List.getElem?_eq_getElem (valid.lengths ▸ hlt), List.getElem?_eq_getElem hlt,
        path_succ hpower, ih]
      by_cases hgen : set.generations[set.path key p]? = some set.generation
      · rw [if_pos hgen] at hcell
        rw [List.getElem?_eq_getElem (valid.lengths ▸ hlt), Option.some.injEq] at hgen
        by_cases hkey : set.keys[set.path key p] = key
        · simp [hgen, hcell, hkey]
        · simp [hgen, hcell, hkey]
      · rw [if_neg hgen] at hcell
        rw [List.getElem?_eq_getElem (valid.lengths ▸ hlt), Option.some.injEq] at hgen
        simp [hgen, hcell, hlt]

/-- While there are fewer members than slots, `insert` ends, adds the key, and
reports whether it is new. -/
theorem insert_eq {set : FlowSet} {members : Finset FlowKey} (h : set.Holds members)
    (hroom : members.card < set.keys.length) (key : FlowKey) :
    ∃ set' : FlowSet, set.insert key = some (set', decide (key ∉ members)) ∧
      set'.Holds (Insert.insert key members) ∧ set'.keys.length = set.keys.length := by
  have hpos : 0 < set.keys.length := by omega
  have hpower : ∃ e, set.keys.length = 2 ^ e := by
    rcases h.valid.power with hzero | hpower
    · omega
    · exact hpower
  have hstart : (flowHash key).toNat &&& (set.keys.length - 1) = set.path key 0 := by
    rw [and_mask hpower, path, linearPath, Nat.add_zero]
  -- with fewer members than slots some slot on the path is free
  obtain ⟨free, hfree, hcell⟩ : ∃ index, index < set.keys.length ∧ set.cellAt index = .free := by
    by_contra hnone
    have hall : ∀ index ∈ Finset.range set.keys.length,
        ∃ key, set.cellAt index = .live key := by
      intro index hmem
      rcases cellAt_free_or_live set index with hcell | hcell
      · exact absurd ⟨index, Finset.mem_range.mp hmem, hcell⟩ hnone
      · exact hcell
    have hcard := h.wellFormed.card_le_of_all_live
      (fun index _ key hlive => (h.mem_iff key).mpr ⟨index, hlive⟩) hall
    rw [Finset.card_range] at hcard
    omega
  obtain ⟨q, hq, hpath⟩ : ∃ q, q < set.keys.length ∧ set.path key q = free :=
    linearPath_covers hfree
  obtain ⟨index, hseek⟩ :
      ∃ index, seek set.cellAt (set.path key) key set.keys.length 0 = some index :=
    seek_isSome hq (Or.inl (by rw [hpath, hcell]))
  obtain ⟨r, -, hr, hrpath, hstop, hbefore⟩ := seek_eq_some hseek
  have hlt : index < set.keys.length := by
    rw [← hrpath]
    exact linearPath_lt hpos r
  have hinsert : set.insert key =
      some (if set.cellAt index = .live key then (set, false)
        else (set.place index key, true)) := by
    unfold insert
    simp only [hstart, insertLoop_eq h.valid hpos, hseek, Option.map_some]
  rcases hstop with hstop | hstop
  · have habsent : ∀ j, set.cellAt j ≠ .live key := by
      intro j hlive
      have hsame := h.wellFormed.seek_of_live hlive
      rw [hseek] at hsame
      cases hsame
      rw [hstop] at hlive
      cases hlive
    have hnew : key ∉ members := by
      intro hmem
      obtain ⟨j, hj⟩ := (h.mem_iff key).mp hmem
      exact habsent j hj
    refine ⟨set.place index key, ?_, ?_, by simp [place]⟩
    · rw [hinsert, if_neg (by simp [hstop])]
      simp [hnew]
    · have hlength : (set.place index key).keys.length = set.keys.length := by simp [place]
      have hpathEq : (set.place index key).path = set.path := by
        unfold path
        rw [hlength]
      refine ⟨h.valid.place, ?_, ?_⟩
      · rw [cellAt_place h.valid hlt, hpathEq, hlength]
        exact h.wellFormed.insert habsent (by simp [hstop]) (by omega) hrpath
          (fun j hj => (hbefore j (Nat.zero_le j) hj).1)
      · intro other
        rw [cellAt_place h.valid hlt, Finset.mem_insert, h.mem_iff]
        constructor
        · rintro (rfl | ⟨j, hj⟩)
          · exact ⟨index, Function.update_self _ _ _⟩
          · refine ⟨j, ?_⟩
            rw [Function.update_of_ne, hj]
            rintro rfl
            rw [hstop] at hj
            cases hj
        · rintro ⟨j, hj⟩
          by_cases hji : j = index
          · subst hji
            rw [Function.update_self] at hj
            cases hj
            exact Or.inl rfl
          · rw [Function.update_of_ne hji] at hj
            exact Or.inr ⟨j, hj⟩
  · have hold : key ∈ members := (h.mem_iff key).mpr ⟨index, hstop⟩
    refine ⟨set, ?_, ?_, rfl⟩
    · rw [hinsert, if_pos hstop]
      simp [hold]
    · rwa [Finset.insert_eq_of_mem hold]

/-- Whatever `insert` returns is a valid set. -/
theorem Valid.insert {set set' : FlowSet} (valid : set.Valid) {key : FlowKey} {added : Bool}
    (h : set.insert key = some (set', added)) : set'.Valid := by
  have hpos : 0 < set.keys.length := by
    by_contra hzero
    have : set.keys.length = 0 := by omega
    unfold FlowSet.insert at h
    simp only [this] at h
    cases h
  have hpower : ∃ e, set.keys.length = 2 ^ e := by
    rcases valid.power with hzero | hpower
    · omega
    · exact hpower
  have hstart : (flowHash key).toNat &&& (set.keys.length - 1) = set.path key 0 := by
    rw [and_mask hpower, path, linearPath, Nat.add_zero]
  unfold FlowSet.insert at h
  simp only [hstart, insertLoop_eq valid hpos, Option.map_eq_some_iff] at h
  obtain ⟨index, -, hresult⟩ := h
  split_ifs at hresult
  · cases hresult
    exact valid
  · cases hresult
    exact valid.place

/-- Every set that runs lead to is valid. -/
theorem Reachable.valid {set : FlowSet} (h : Reachable set) : set.Valid := by
  induction h with
  | default =>
      exact ⟨rfl, Or.inl rfl, fun generation hmem => by cases hmem⟩
  | begin _ expectedKeys ih => exact (holds_begin ih expectedKeys).1.valid
  | insert _ hinsert ih => exact ih.insert hinsert

/-- A call of the scheduler on its set. -/
inductive Call
  | begin (expectedKeys : Nat)
  | insert (key : FlowKey)

/-- One call and what it returns; `begin` returns nothing. -/
def call (set : FlowSet) : Call → Option (FlowSet × Option Bool)
  | .begin expectedKeys => some (set.begin expectedKeys, none)
  | .insert key => (set.insert key).map fun (set, added) => (set, some added)

/-- Calls one after another, with what each of them returned; `none` when one of
them does not end. -/
def run (set : FlowSet) : List Call → Option (FlowSet × List (Option Bool))
  | [] => some (set, [])
  | next :: calls => do
      let (set, result) ← set.call next
      let (set, results) ← run set calls
      return (set, result :: results)

/-- The round a run is in: how many keys its `begin` was told to expect, and the
keys inserted since. -/
structure Round where
  expectedKeys : Nat
  members : Finset FlowKey

namespace Round

/-- The round after one more call. -/
def after (round : Round) : Call → Round
  | .begin expectedKeys => ⟨expectedKeys, ∅⟩
  | .insert key => { round with members := Insert.insert key round.members }

/-- The round a list of calls ends in. -/
def current (calls : List Call) : Round :=
  calls.foldl after ⟨0, ∅⟩

/-- At most as many distinct keys as `begin` makes room for. -/
def InBudget (round : Round) : Prop :=
  round.members.card ≤ max round.expectedKeys 1

instance (round : Round) : Decidable round.InBudget :=
  inferInstanceAs (Decidable (_ ≤ _))

/-- What a set returns that is exact in this round. -/
def answer (round : Round) : Call → Option Bool
  | .begin _ => none
  | .insert key => some (decide (key ∉ round.members))

/-- The answers of an exact set to calls one after another. -/
def answers (round : Round) : List Call → List (Option Bool)
  | [] => []
  | next :: calls => round.answer next :: (round.after next).answers calls

theorem answers_length (round : Round) (calls : List Call) :
    (round.answers calls).length = calls.length := by
  induction calls generalizing round with
  | nil => rfl
  | cons next calls ih => simp [answers, ih]

/-- The answer to a call is decided by the calls before it. -/
theorem answers_getElem? (round : Round) {calls : List Call} {i : Nat} {next : Call}
    (h : calls[i]? = some next) :
    (round.answers calls)[i]? = some (((calls.take i).foldl after round).answer next) := by
  induction calls generalizing round i with
  | nil => simp at h
  | cons first calls ih =>
      cases i with
      | zero =>
          obtain rfl : first = next := by simpa using h
          rfl
      | succ i => exact ih (round.after first) (by simpa using h)

end Round

/-- The set is exact in this round and has a slot to spare. -/
structure Serves (set : FlowSet) (round : Round) : Prop where
  holds : set.Holds round.members
  room : max round.expectedKeys 1 < set.keys.length

/-- A `begin` starts a round with room for the keys it expects, whatever the
table, its stale slots and its generation were. -/
theorem Valid.serves_begin {set : FlowSet} (valid : set.Valid) (expectedKeys : Nat) :
    (set.begin expectedKeys).Serves ⟨expectedKeys, ∅⟩ := by
  obtain ⟨holds, hroom⟩ := holds_begin valid expectedKeys
  exact ⟨holds, lt_of_lt_of_le (lt_wanted expectedKeys) hroom⟩

/-- One call answers as an exact set and leads to an exact set. -/
theorem Serves.call {set : FlowSet} {round : Round} (serves : set.Serves round)
    (budget : round.InBudget) (next : Call) :
    ∃ set' : FlowSet, set.call next = some (set', round.answer next) ∧
      set'.Serves (round.after next) := by
  cases next with
  | begin expectedKeys =>
      exact ⟨set.begin expectedKeys, rfl, serves.holds.valid.serves_begin expectedKeys⟩
  | insert key =>
      obtain ⟨set', hinsert, hholds, hlength⟩ :=
        insert_eq serves.holds (lt_of_le_of_lt budget serves.room) key
      refine ⟨set', ?_, hholds, ?_⟩
      · simp only [FlowSet.call, hinsert, Option.map_some, Round.answer]
      · rw [hlength]
        exact serves.room

/-- A run that keeps to the budget of every round answers as an exact set. -/
theorem Serves.run {set : FlowSet} {round : Round} (serves : set.Serves round)
    {calls : List Call}
    (budget : ∀ before, before <+: calls → (before.foldl Round.after round).InBudget) :
    ∃ set' : FlowSet, set.run calls = some (set', round.answers calls) ∧
      set'.Serves (calls.foldl Round.after round) := by
  induction calls generalizing set round with
  | nil => exact ⟨set, rfl, serves⟩
  | cons next calls ih =>
      obtain ⟨middle, hcall, hmiddle⟩ := serves.call (budget [] List.nil_prefix) next
      obtain ⟨last, hrun, hlast⟩ := ih hmiddle fun before hbefore =>
        budget (next :: before) (List.cons_prefix_cons.mpr ⟨rfl, hbefore⟩)
      refine ⟨last, ?_, hlast⟩
      simp only [FlowSet.run, hcall, hrun, Round.answers, Option.bind_eq_bind,
        Option.bind_some, Option.pure_def]

/-- Every `insert` of a run that starts with a `begin` ends, and returns whether
its key is new since the last `begin`. -/
theorem insert_returns_isNew (expectedKeys : Nat) (rest : List Call)
    (budget : ∀ before, before <+: .begin expectedKeys :: rest →
      (Round.current before).InBudget) :
    ∃ set results, default.run (.begin expectedKeys :: rest) = some (set, results) ∧
      results.length = rest.length + 1 ∧
      ∀ i key, (Call.begin expectedKeys :: rest)[i]? = some (.insert key) →
        results[i]? = some (some (decide
          (key ∉ (Round.current ((Call.begin expectedKeys :: rest).take i)).members))) := by
  have serves := Reachable.default.valid.serves_begin expectedKeys
  have hbudget (before : List Call) (hbefore : before <+: rest) :
      (before.foldl Round.after ((⟨0, ∅⟩ : Round).after (.begin expectedKeys))).InBudget :=
    budget (.begin expectedKeys :: before) (List.cons_prefix_cons.mpr ⟨rfl, hbefore⟩)
  obtain ⟨set, hrun, -⟩ := serves.run hbudget
  refine ⟨set, Round.answers ⟨0, ∅⟩ (.begin expectedKeys :: rest), ?_, ?_, ?_⟩
  · simp only [FlowSet.run, FlowSet.call, hrun, Round.answers, Round.answer, Round.after,
      Option.bind_eq_bind, Option.bind_some, Option.pure_def]
  · rw [Round.answers_length, List.length_cons]
  · intro i key h
    rw [Round.answers_getElem? _ h]
    rfl

/-- A full round, then a round with another size that meets one of its keys again. -/
theorem insert_returns_isNew_two_rounds :
    let calls : List Call :=
      [.begin 2, .insert ⟨1, 2, 3, 4⟩, .insert ⟨1, 2, 4, 4⟩, .insert ⟨1, 2, 3, 4⟩,
        .begin 0, .insert ⟨1, 2, 3, 4⟩]
    ∃ set results, default.run calls = some (set, results) ∧
      results.length = 6 ∧
      ∀ i key, calls[i]? = some (.insert key) →
        results[i]? = some (some (decide (key ∉ (Round.current (calls.take i)).members))) :=
  insert_returns_isNew 2 _ fun before h =>
    (by decide : ∀ before ∈ List.inits ([.begin 2, .insert ⟨1, 2, 3, 4⟩,
        .insert ⟨1, 2, 4, 4⟩, .insert ⟨1, 2, 3, 4⟩, .begin 0,
        .insert ⟨1, 2, 3, 4⟩] : List Call), (Round.current before).InBudget)
      before ((List.mem_inits _ _).mpr h)

end FlowSet

end Packet
end Gput
