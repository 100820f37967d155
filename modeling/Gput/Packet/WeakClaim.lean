import Gput.Packet.Simulation
import Mathlib.Data.Nat.ModEq

/-!
# Claims under a weak compare-exchange

`flow_claim` with every outcome that the weak compare-exchange of its loop may
have: it exchanges, it fails because another invocation took the slot, or it
fails with the slot as it was.  The loop goes on after either failure, but only a
slot that was taken may be passed by a later search: a claim behind a free slot
is never found (`claimed_findable_iff`).
-/

namespace Gput
namespace Packet
namespace Shader

open OpenAddressing

/-- The outcome of one `atomicCompareExchangeWeak` on the state of a slot. -/
inductive Attempt where
  | exchanged
  | spurious
  | taken (slot : FlowSlot)
deriving DecidableEq, Repr

/-- `atomicCompareExchangeWeak` on the state of a slot, with a given outcome. -/
def compareExchangeWeak (flows : Flows) (base desired : UInt32) : Attempt → Bool × Flows
  | .exchanged => (true, Function.update flows base { flows base with state := desired })
  | .spurious => (false, flows)
  | .taken slot => (false, Function.update flows base slot)

/-- The loop of `flow_claim`; probe `p` has outcome `attempts p`. -/
def flowClaimWeakFrom (params : EngineParams) (attempts : Nat → Attempt) (flows : Flows)
    (keyHash srcIp dstIp ports probe : UInt32) : UInt32 × Flows :=
  if probe ≥ probeLimit params then (invalidIndex, flows)
  else
    let base := probeSlot params keyHash probe
    let state := (flows base).state
    if state = stateFree ∨ state = stateTombstone then
      let claim := compareExchangeWeak flows base stateClaimed (attempts probe.toNat)
      if claim.1 then
        (base, Function.update claim.2 base
          { state := (claim.2 base).state, keyHash := keyHash, srcIp := srcIp, dstIp := dstIp,
            ports := ports, recvNext := 0, sendNext := 0, sendUnacked := 0, lastClientSeq := 0,
            lastClientLen := 0, lastResponseSeq := 0, lastResponseAck := 0, lastResponseId := 0,
            lastResponseLen := 0, generation := 0, padding := 0 })
      else flowClaimWeakFrom params attempts claim.2 keyHash srcIp dstIp ports (probe + 1)
    else flowClaimWeakFrom params attempts flows keyHash srcIp dstIp ports (probe + 1)
termination_by (probeLimit params).toNat - probe.toNat
decreasing_by all_goals exact index_decreases ‹_›

def claimKeyWeak (params : EngineParams) (attempts : Nat → Attempt) (flows : Flows)
    (key : FlowKey) : UInt32 × Flows :=
  flowClaimWeakFrom params attempts flows (keyHashOf key) key.srcIp key.dstIp (portsOf key) 0

/-- What the SYN branch writes to a claimed slot. -/
def publishOpening (flows : Flows) (base keyHash seq : UInt32) : Flows :=
  let isn := keyHash ^^^ 0xa5a55a5a
  let flows := Function.update flows base
    { flows base with
      recvNext := seq + 1, sendNext := isn + 1, sendUnacked := isn, lastResponseLen := 0 }
  Function.update flows base { flows base with state := stateSynReceived }

/-- A slot that a claim may take. -/
def Vacant (slot : FlowSlot) : Prop :=
  slot.state = stateFree ∨ slot.state = stateTombstone

instance (slot : FlowSlot) : Decidable (Vacant slot) :=
  inferInstanceAs (Decidable (_ ∨ _))

section Claim

variable {params : EngineParams} {key : FlowKey} {attempts : Nat → Attempt}

/-- Without failures the loop is that of `flow_claim`. -/
theorem flowClaimWeakFrom_exchanged (flows : Flows) (keyHash srcIp dstIp ports probe : UInt32) :
    flowClaimWeakFrom params (fun _ => .exchanged) flows keyHash srcIp dstIp ports probe =
      flowClaimFrom params flows keyHash srcIp dstIp ports probe := by
  rw [flowClaimWeakFrom, flowClaimFrom]
  by_cases hge : probe ≥ probeLimit params
  · rw [if_pos hge, if_pos hge]
  rw [if_neg hge, if_neg hge, flowClaimWeakFrom_exchanged flows keyHash srcIp dstIp ports (probe + 1)]
  simp only [compareExchangeWeak, compareExchangeState, if_true]
termination_by (probeLimit params).toNat - probe.toNat
decreasing_by exact index_decreases hge

/-- Probes within the limit look at different slots. -/
theorem probePath_injective (hcapacity : params.flowCapacity.toNat.isPowerOfTwo) {p q : Nat}
    (hp : p < (probeLimit params).toNat) (hq : q < (probeLimit params).toNat)
    (hsame : probePath params key p = probePath params key q) : p = q := by
  have hlimit := probeLimit_le params
  have hlt := params.flowCapacity.toNat_lt
  have hnat := congrArg UInt32.toNat hsame
  unfold probePath at hnat
  rw [probeSlot_toNat hcapacity, probeSlot_toNat hcapacity, UInt32.toNat_ofNat',
    UInt32.toNat_ofNat', Nat.mod_eq_of_lt (show p < 2 ^ 32 by omega),
    Nat.mod_eq_of_lt (show q < 2 ^ 32 by omega)] at hnat
  have hmod : Nat.ModEq params.flowCapacity.toNat p q := Nat.ModEq.add_left_cancel' _ hnat
  exact Nat.ModEq.eq_of_lt_of_lt hmod (by omega) (by omega)

/-- Probe `p` is the one that exchanges, when the loop comes to it. -/
def Exchanges (params : EngineParams) (attempts : Nat → Attempt) (flows : Flows) (key : FlowKey)
    (p : Nat) : Prop :=
  Vacant (flows (probePath params key p)) ∧ attempts p = .exchanged

/-- What a probe that does not exchange leaves behind. -/
def contested (params : EngineParams) (attempts : Nat → Attempt) (flows : Flows) (key : FlowKey)
    (p : Nat) : FlowSlot :=
  match attempts p with
  | .taken slot =>
      if Vacant (flows (probePath params key p)) then slot else flows (probePath params key p)
  | _ => flows (probePath params key p)

/-- What the loop leaves behind from probe `p` on. -/
structure ClaimResult (params : EngineParams) (attempts : Nat → Attempt) (key : FlowKey)
    (p : Nat) (flows : Flows) (result : UInt32 × Flows) : Prop where
  outcome :
    (result.1 = invalidIndex ∧
      ∀ q, p ≤ q → q < (probeLimit params).toNat → ¬ Exchanges params attempts flows key q) ∨
    ∃ q, p ≤ q ∧ q < (probeLimit params).toNat ∧ Exchanges params attempts flows key q ∧
      (∀ r, p ≤ r → r < q → ¬ Exchanges params attempts flows key r) ∧
      result.1 = probePath params key q ∧ result.2 result.1 = claimedSlot key ∧
      ∀ r, p ≤ r → r < q →
        result.2 (probePath params key r) = contested params attempts flows key r
  frame : ∀ i, (∀ q, p ≤ q → q < (probeLimit params).toNat → i ≠ probePath params key q) →
    result.2 i = flows i

/-- A probe that does not exchange is followed by the next one. -/
theorem ClaimResult.next (hcapacity : params.flowCapacity.toNat.isPowerOfTwo) {p : Nat}
    {flows flows' : Flows} {result : UInt32 × Flows} (hp : p < (probeLimit params).toNat)
    (hmissed : ¬ Exchanges params attempts flows key p)
    (hflows : flows' = Function.update flows (probePath params key p)
      (contested params attempts flows key p))
    (h : ClaimResult params attempts key (p + 1) flows' result) :
    ClaimResult params attempts key p flows result := by
  have hother {q : Nat} (hpq : p < q) (hq : q < (probeLimit params).toNat) :
      probePath params key q ≠ probePath params key p := by
    intro hsame
    have := probePath_injective hcapacity hq hp hsame
    omega
  have hslot {q : Nat} (hpq : p < q) (hq : q < (probeLimit params).toNat) :
      flows' (probePath params key q) = flows (probePath params key q) := by
    rw [hflows, Function.update_of_ne (hother hpq hq)]
  have hexchanges {q : Nat} (hpq : p < q) (hq : q < (probeLimit params).toNat) :
      Exchanges params attempts flows' key q ↔ Exchanges params attempts flows key q := by
    unfold Exchanges
    rw [hslot hpq hq]
  have hcontested {q : Nat} (hpq : p < q) (hq : q < (probeLimit params).toNat) :
      contested params attempts flows' key q = contested params attempts flows key q := by
    unfold contested
    rw [hslot hpq hq]
  have hhere : result.2 (probePath params key p) = contested params attempts flows key p := by
    rw [h.frame _ (fun q hq hlt => (hother hq hlt).symm), hflows, Function.update_self]
  refine ⟨?_, ?_⟩
  · rcases h.outcome with ⟨hfailed, hnone⟩ | ⟨q, hpq, hq, hwins, hbefore, hbase, hslot, hbehind⟩
    · refine Or.inl ⟨hfailed, ?_⟩
      intro q hpq hq
      rcases Nat.eq_or_lt_of_le hpq with rfl | hlt
      · exact hmissed
      · exact (hexchanges hlt hq).not.mp (hnone q hlt hq)
    · refine Or.inr ⟨q, by omega, hq, (hexchanges hpq hq).mp hwins, ?_, hbase, hslot, ?_⟩
      · intro r hpr hr
        rcases Nat.eq_or_lt_of_le hpr with rfl | hlt
        · exact hmissed
        · exact (hexchanges hlt (by omega)).not.mp (hbefore r hlt hr)
      · intro r hpr hr
        rcases Nat.eq_or_lt_of_le hpr with rfl | hlt
        · exact hhere
        · rw [hbehind r hlt hr, hcontested hlt (by omega)]
  · intro i hi
    rw [h.frame i (fun q hpq hq => hi q (by omega) hq), hflows,
      Function.update_of_ne (hi p (le_refl p) hp)]

/-- The loop of `flow_claim`, whatever its attempts do. -/
theorem flowClaimWeakFrom_result (hcapacity : params.flowCapacity.toNat.isPowerOfTwo)
    (attempts : Nat → Attempt) (key : FlowKey) (flows : Flows) (probe : UInt32) :
    ClaimResult params attempts key probe.toNat flows
      (flowClaimWeakFrom params attempts flows (keyHashOf key) key.srcIp key.dstIp (portsOf key)
        probe) := by
  have hpath : probePath params key probe.toNat = probeSlot params (keyHashOf key) probe := by
    rw [probePath, UInt32.ofNat_toNat]
  rw [flowClaimWeakFrom]
  by_cases hge : probe ≥ probeLimit params
  · rw [if_pos hge]
    have hnat := UInt32.le_iff_toNat_le.mp hge
    exact ⟨Or.inl ⟨rfl, fun q hpq hq => by omega⟩, fun _ _ => rfl⟩
  have hlt := UInt32.not_le.mp hge
  have hnat := UInt32.lt_iff_toNat_lt.mp hlt
  have hnext := add_one_toNat hlt
  have ih (flows : Flows) := flowClaimWeakFrom_result hcapacity attempts key flows (probe + 1)
  simp only [hnext] at ih
  rw [if_neg hge]
  simp only
  rw [← hpath]
  by_cases hstate : (flows (probePath params key probe.toNat)).state = stateFree ∨
      (flows (probePath params key probe.toNat)).state = stateTombstone
  · have hvacant : Vacant (flows (probePath params key probe.toNat)) := hstate
    rw [if_pos hstate]
    cases hattempt : attempts probe.toNat with
    | exchanged =>
        simp only [compareExchangeWeak, if_true, Function.update_self, Function.update_idem]
        refine ⟨Or.inr ⟨probe.toNat, le_refl _, hnat, ⟨hvacant, hattempt⟩,
          fun r hpr hr => by omega, rfl, ?_, fun r hpr hr => by omega⟩, ?_⟩
        · exact Function.update_self _ _ _
        · intro i hi
          exact Function.update_of_ne (hi _ (le_refl _) hnat) _ _
    | spurious =>
        simp only [compareExchangeWeak, Bool.false_eq_true, if_false]
        refine ClaimResult.next hcapacity hnat ?_ ?_ (ih flows)
        · rintro ⟨-, hwins⟩
          rw [hattempt] at hwins
          cases hwins
        · rw [contested, hattempt]
          exact (Function.update_eq_self _ flows).symm
    | taken slot =>
        simp only [compareExchangeWeak, Bool.false_eq_true, if_false]
        refine ClaimResult.next hcapacity hnat ?_ ?_ (ih _)
        · rintro ⟨-, hwins⟩
          rw [hattempt] at hwins
          cases hwins
        · rw [contested, hattempt]
          simp only [if_pos hvacant]
  · have hvacant : ¬ Vacant (flows (probePath params key probe.toNat)) := hstate
    rw [if_neg hstate]
    refine ClaimResult.next hcapacity hnat (fun hwins => hvacant hwins.1) ?_ (ih flows)
    have hsame : contested params attempts flows key probe.toNat =
        flows (probePath params key probe.toNat) := by
      unfold contested
      split
      · exact if_neg hvacant
      · rfl
    rw [hsame, Function.update_eq_self]
termination_by (probeLimit params).toNat - probe.toNat
decreasing_by exact index_decreases hge

end Claim

section Search

variable {params : EngineParams} {key : FlowKey} {flows : Flows} {p q : Nat}

theorem ofNat_lt_probeLimit (hp : p < (probeLimit params).toNat) :
    ¬ UInt32.ofNat p ≥ probeLimit params := by
  have hlt := (probeLimit params).toNat_lt
  intro hge
  have hnat := UInt32.le_iff_toNat_le.mp hge
  rw [UInt32.toNat_ofNat', Nat.mod_eq_of_lt (by omega)] at hnat
  omega

theorem flowFindFrom_free (hp : p < (probeLimit params).toNat)
    (hfree : (flows (probePath params key p)).state = stateFree) :
    flowFindFrom params flows (keyHashOf key) key.srcIp key.dstIp (portsOf key)
      (UInt32.ofNat p) = invalidIndex := by
  rw [flowFindFrom, if_neg (ofNat_lt_probeLimit hp)]
  exact if_pos hfree

theorem flowFindFrom_hit (hp : p < (probeLimit params).toNat)
    (hhit : Hit flows key (probePath params key p)) :
    flowFindFrom params flows (keyHashOf key) key.srcIp key.dstIp (portsOf key)
      (UInt32.ofNat p) = probePath params key p := by
  rw [flowFindFrom, if_neg (ofNat_lt_probeLimit hp)]
  exact (if_neg hhit.1).trans (if_pos hhit.2)

/-- A search comes to every slot behind passed ones. -/
theorem flowFindFrom_passed (hpq : p ≤ q) (hq : q < (probeLimit params).toNat)
    (hpassed : ∀ r, p ≤ r → r < q → Passed flows key (probePath params key r)) :
    flowFindFrom params flows (keyHashOf key) key.srcIp key.dstIp (portsOf key) (UInt32.ofNat p) =
      flowFindFrom params flows (keyHashOf key) key.srcIp key.dstIp (portsOf key)
        (UInt32.ofNat q) := by
  induction q, hpq using Nat.le_induction with
  | base => rfl
  | succ q hpq ih =>
      obtain ⟨hfree, hmissed⟩ := hpassed q hpq (Nat.lt_succ_self q)
      rw [ih (by omega) (fun r hpr hr => hpassed r hpr (by omega)), flowFindFrom,
        if_neg (ofNat_lt_probeLimit (by omega)), UInt32.ofNat_add]
      exact (if_neg hfree).trans (if_neg fun h => hmissed ⟨hfree, h⟩)

/-- A search that only meets passed and free slots before a slot returns that
slot exactly when none of them is free. -/
theorem findKey_behind (hq : q < (probeLimit params).toNat)
    (hhit : Hit flows key (probePath params key q))
    (hmissed : ∀ r, r < q → ¬ Hit flows key (probePath params key r)) :
    findKey params flows key = probePath params key q ↔
      ∀ r, r < q → (flows (probePath params key r)).state ≠ stateFree := by
  constructor
  · intro hfound
    by_contra hsome
    simp only [not_forall, not_not] at hsome
    -- the search ends at the first free slot
    have hex : ∃ r, r < q ∧ (flows (probePath params key r)).state = stateFree := by
      obtain ⟨r, hr, hfree⟩ := hsome
      exact ⟨r, hr, hfree⟩
    obtain ⟨hr, hfree⟩ := Nat.find_spec hex
    have hpassed (r : Nat) (_ : 0 ≤ r) (hlt : r < Nat.find hex) :
        Passed flows key (probePath params key r) :=
      ⟨fun h => Nat.find_min hex hlt ⟨by omega, h⟩, hmissed r (by omega)⟩
    have hinvalid : findKey params flows key = invalidIndex :=
      (flowFindFrom_passed (Nat.zero_le _) (by omega) hpassed).trans
        (flowFindFrom_free (by omega) hfree)
    rw [hinvalid] at hfound
    have hlt := @probeSlot_lt_capacity params (keyHashOf key) (UInt32.ofNat q)
      (by have := probeLimit_le params; omega)
    exact ne_invalidIndex_of_lt hlt hfound.symm
  · intro hoccupied
    have hpassed (r : Nat) (_ : 0 ≤ r) (hr : r < q) : Passed flows key (probePath params key r) :=
      ⟨hoccupied r hr, hmissed r hr⟩
    exact (flowFindFrom_passed (Nat.zero_le _) hq hpassed).trans (flowFindFrom_hit hq hhit)

end Search

section Findable

variable {params : EngineParams} {key : FlowKey} {attempts : Nat → Attempt} {flows : Flows}

/-- A slot that a claim returns and the SYN branch publishes is found. -/
def FindableAfterClaim (params : EngineParams) (attempts : Nat → Attempt) (flows : Flows)
    (key : FlowKey) (seq : UInt32) : Prop :=
  ∀ base claimed, claimKeyWeak params attempts flows key = (base, claimed) →
    base ≠ invalidIndex →
    findKey params (publishOpening claimed base (keyHashOf key) seq) key = base

/-- No attempt on a free slot fails spuriously before the one that exchanges. -/
def NoFreeSlotGivenUp (params : EngineParams) (attempts : Nat → Attempt) (flows : Flows)
    (key : FlowKey) : Prop :=
  ∀ q p, q < p → p < (probeLimit params).toNat →
    (flows (probePath params key q)).state = stateFree → attempts q = .spurious →
    Exchanges params attempts flows key p → ∃ r, r < q ∧ Exchanges params attempts flows key r

/-- What may take a slot from this invocation: an invocation for another flow,
which never leaves the slot free. -/
def Permitted (attempts : Nat → Attempt) (key : FlowKey) : Prop :=
  ∀ p slot, attempts p = .taken slot → slot.state ≠ stateFree ∧ slotCell slot ≠ .live key

theorem not_hit_of_not_live {i : UInt32} (h : cells flows i ≠ .live key) : ¬ Hit flows key i :=
  fun hhit => h (slotCell_eq_live.mpr
    ⟨⟨hhit.1, hhit.2.2.1, hhit.2.1⟩, hhit.slotKey⟩)

/-- A slot that this invocation gave up holds no flow of its key, and it is free
exactly when the attempt on a free slot failed spuriously. -/
theorem contested_spec (hpermitted : Permitted attempts key) {r : Nat}
    (hlive : slotCell (flows (probePath params key r)) ≠ .live key)
    (hmissed : ¬ Exchanges params attempts flows key r) :
    slotCell (contested params attempts flows key r) ≠ .live key ∧
      ((contested params attempts flows key r).state = stateFree ↔
        (flows (probePath params key r)).state = stateFree ∧ attempts r = .spurious) := by
  unfold contested
  cases hattempt : attempts r with
  | exchanged =>
      refine ⟨hlive, fun hfree => absurd ⟨Or.inl hfree, hattempt⟩ hmissed, fun h => ?_⟩
      cases h.2
  | spurious => exact ⟨hlive, fun hfree => ⟨hfree, rfl⟩, fun h => h.1⟩
  | taken slot =>
      obtain ⟨hfree, hother⟩ := hpermitted r slot hattempt
      simp only
      by_cases hvacant : Vacant (flows (probePath params key r))
      · rw [if_pos hvacant]
        exact ⟨hother, fun h => absurd h hfree, fun h => by cases h.2⟩
      · rw [if_neg hvacant]
        exact ⟨hlive, fun h => absurd (Or.inl h) hvacant, fun h => by cases h.2⟩

theorem publishOpening_of_ne (flows : Flows) {base i : UInt32} (keyHash seq : UInt32)
    (h : i ≠ base) : publishOpening flows base keyHash seq i = flows i := by
  unfold publishOpening
  simp only [Function.update_of_ne h]

/-- The published slot of a claim ends the search for its key. -/
theorem hit_publishOpening {base : UInt32} (hslot : flows base = claimedSlot key) (seq : UInt32) :
    Hit (publishOpening flows base (keyHashOf key) seq) key base := by
  unfold Hit flowMatches publishOpening
  simp only [Function.update_self, hslot]
  exact ⟨by decide, by decide, by decide, decide_eq_true ⟨rfl, rfl, rfl, rfl⟩⟩

/-- What the loop claims, and when a search finds it. -/
theorem claim_cases (hcapacity : params.flowCapacity.toNat.isPowerOfTwo)
    (habsent : ∀ i, i < params.flowCapacity → cells flows i ≠ .live key)
    (hpermitted : Permitted attempts key) (seq : UInt32) {base : UInt32} {claimed : Flows}
    (hclaim : claimKeyWeak params attempts flows key = (base, claimed)) :
    (base = invalidIndex ∧
        ∀ q, q < (probeLimit params).toNat → ¬ Exchanges params attempts flows key q) ∨
      ∃ q, q < (probeLimit params).toNat ∧ Exchanges params attempts flows key q ∧
        (∀ r, r < q → ¬ Exchanges params attempts flows key r) ∧ base ≠ invalidIndex ∧
        (findKey params (publishOpening claimed base (keyHashOf key) seq) key = base ↔
          ∀ r, r < q →
            ¬ ((flows (probePath params key r)).state = stateFree ∧ attempts r = .spurious)) := by
  have hresult := flowClaimWeakFrom_result hcapacity attempts key flows 0
  change ClaimResult params attempts key 0 flows (claimKeyWeak params attempts flows key) at hresult
  rw [hclaim] at hresult
  rcases hresult.outcome with ⟨hfailed, hnone⟩ | ⟨q, -, hq, hwins, hbefore, hbase, hslot, hbehind⟩
  · exact Or.inl ⟨hfailed, fun q hq => hnone q (Nat.zero_le q) hq⟩
  simp only at hbase hslot hbehind
  subst hbase
  have hpositive : 0 < params.flowCapacity.toNat := by
    have := probeLimit_le params
    omega
  have hgiven (r : Nat) (hr : r < q) :
      publishOpening claimed (probePath params key q) (keyHashOf key) seq
          (probePath params key r) = contested params attempts flows key r := by
    have hne : probePath params key r ≠ probePath params key q := by
      intro hsame
      have := probePath_injective hcapacity (by omega) hq hsame
      omega
    rw [publishOpening_of_ne _ _ _ hne, hbehind r (Nat.zero_le r) hr]
  have hspec (r : Nat) (hr : r < q) := contested_spec hpermitted
    (habsent _ (probeSlot_lt_capacity (keyHashOf key) (UInt32.ofNat r) hpositive))
    (hbefore r (Nat.zero_le r) hr)
  have hmissed (r : Nat) (hr : r < q) :
      ¬ Hit (publishOpening claimed (probePath params key q) (keyHashOf key) seq) key
        (probePath params key r) := by
    apply not_hit_of_not_live
    rw [cells, hgiven r hr]
    exact (hspec r hr).1
  refine Or.inr ⟨q, hq, hwins, fun r hr => hbefore r (Nat.zero_le r) hr,
    ne_invalidIndex_of_lt (probeSlot_lt_capacity _ _ hpositive), ?_⟩
  rw [findKey_behind hq (hit_publishOpening hslot seq) hmissed]
  refine forall_congr' fun r => forall_congr' fun hr => not_congr ?_
  rw [hgiven r hr]
  exact (hspec r hr).2

/-- A free slot that is given up hides the flow. -/
theorem noFreeSlotGivenUp_of_findable (hcapacity : params.flowCapacity.toNat.isPowerOfTwo)
    (habsent : ∀ i, i < params.flowCapacity → cells flows i ≠ .live key)
    (hpermitted : Permitted attempts key) {seq : UInt32}
    (h : FindableAfterClaim params attempts flows key seq) :
    NoFreeSlotGivenUp params attempts flows key := by
  intro r p hrp hp hstate hspurious hexchanges
  rcases claim_cases hcapacity habsent hpermitted seq rfl with
    ⟨-, hnone⟩ | ⟨q, -, hwins, -, hvalid, hfound⟩
  · exact absurd hexchanges (hnone p hp)
  rcases Nat.lt_trichotomy r q with hlt | rfl | hgt
  · exact absurd ⟨hstate, hspurious⟩ (hfound.mp (h _ _ rfl hvalid) r hlt)
  · have hattempt := hwins.2
    rw [hspurious] at hattempt
    cases hattempt
  · exact ⟨q, hgt, hwins⟩

/-- When no free slot is given up, the published slot is found. -/
theorem findable_of_noFreeSlotGivenUp (hcapacity : params.flowCapacity.toNat.isPowerOfTwo)
    (habsent : ∀ i, i < params.flowCapacity → cells flows i ≠ .live key)
    (hpermitted : Permitted attempts key) {seq : UInt32}
    (h : NoFreeSlotGivenUp params attempts flows key) :
    FindableAfterClaim params attempts flows key seq := by
  intro base claimed hclaim hvalid
  rcases claim_cases hcapacity habsent hpermitted seq hclaim with
    ⟨hfailed, -⟩ | ⟨q, hq, hwins, hbefore, -, hfound⟩
  · exact absurd hfailed hvalid
  · refine hfound.mpr ?_
    rintro r hr ⟨hstate, hspurious⟩
    obtain ⟨r', hr', hexchanges⟩ := h r q hr hq hstate hspurious hwins
    exact hbefore r' (by omega) hexchanges

end Findable

/-- **A claimed flow is findable** exactly when no free slot is given up: for every
table, every key without a live slot and every pattern of outcomes, the slot that
`flow_claim` returns and the SYN branch publishes is the one `flow_find` returns,
unless an attempt on a free slot failed spuriously before the one that exchanged. -/
theorem claimed_findable_iff {params : EngineParams}
    (hcapacity : params.flowCapacity.toNat.isPowerOfTwo) (flows : Flows) {key : FlowKey}
    (habsent : ∀ i, i < params.flowCapacity → cells flows i ≠ .live key)
    {attempts : Nat → Attempt} (hpermitted : Permitted attempts key) (seq : UInt32) :
    FindableAfterClaim params attempts flows key seq ↔
      NoFreeSlotGivenUp params attempts flows key :=
  ⟨noFreeSlotGivenUp_of_findable hcapacity habsent hpermitted,
    findable_of_noFreeSlotGivenUp hcapacity habsent hpermitted⟩

/-- The first attempt fails spuriously, all others exchange. -/
def failsOnce : Nat → Attempt
  | 0 => .spurious
  | _ => .exchanged

theorem failsOnce_permitted (key : FlowKey) : Permitted failsOnce key := by
  intro p slot htaken
  cases p with
  | zero => cases htaken
  | succ p => cases htaken

theorem fourSlots_power : (tableParams fourSlots).flowCapacity.toNat.isPowerOfTwo := ⟨2, rfl⟩

theorem emptyFlows_absent (key : FlowKey) (i : UInt32) : cells emptyFlows i ≠ .live key := by
  rw [cells_emptyFlows]
  intro h
  cases h

theorem claimed_findable_iff_failsOnce :
    FindableAfterClaim (tableParams fourSlots) failsOnce emptyFlows (clientKey 1000) 100 ↔
      NoFreeSlotGivenUp (tableParams fourSlots) failsOnce emptyFlows (clientKey 1000) :=
  claimed_findable_iff fourSlots_power emptyFlows (fun i _ => emptyFlows_absent _ i)
    (failsOnce_permitted _) 100

/-- One spurious failure at the first slot of an empty table, and the new flow is
not found. -/
theorem claimed_lost_on_spurious_failure :
    TableInvariant (tableParams fourSlots) emptyFlows ∧
      (∀ i, cells emptyFlows i ≠ .live (clientKey 1000)) ∧
      Permitted failsOnce (clientKey 1000) ∧
      ¬ FindableAfterClaim (tableParams fourSlots) failsOnce emptyFlows (clientKey 1000) 100 := by
  refine ⟨emptyFlows_invariant _, emptyFlows_absent _, failsOnce_permitted _, ?_⟩
  intro hfindable
  have hkept := noFreeSlotGivenUp_of_findable fourSlots_power (fun i _ => emptyFlows_absent _ i)
    (failsOnce_permitted _) hfindable
  obtain ⟨r, hr, -⟩ := hkept 0 1 (by decide) (by decide) rfl rfl ⟨Or.inl rfl, rfl⟩
  omega

end Shader
end Packet
end Gput
