import Gput.Library.OpenAddressing
import Gput.Packet.Flow
import Gput.Packet.ShaderInput
import Mathlib.Logic.Function.Basic

/-!
# The shader's flow table

The flow slots of `packet.wgsl` and the three operations on them: `flow_find`,
`flow_claim` and `flow_release`.  A slot is a cell of an open-addressed table
(`slotCell`), and the table invariant `TableInvariant` is that of open addressing
over the probe paths of the shader.  Under it `flow_find` finds exactly the live
slot of a key, and publishing a claimed slot, rewriting a live one and releasing
one each change the entry of one key only.
-/

namespace Gput
namespace Packet
namespace Shader

open OpenAddressing

structure FlowSlot where
  state : UInt32
  keyHash : UInt32
  srcIp : UInt32
  dstIp : UInt32
  ports : UInt32
  recvNext : UInt32
  sendNext : UInt32
  sendUnacked : UInt32
  lastClientSeq : UInt32
  lastClientLen : UInt32
  lastResponseSeq : UInt32
  lastResponseAck : UInt32
  lastResponseId : UInt32
  lastResponseLen : UInt32
  generation : UInt32
  padding : UInt32
deriving DecidableEq, Repr

def stateFree : UInt32 := 0
def stateSynReceived : UInt32 := 1
def stateEstablished : UInt32 := 2
def stateTombstone : UInt32 := 3
def stateClaimed : UInt32 := 0xffffffff

/-- The contents of the array of flow slots. -/
abbrev Flows : Type := UInt32 → FlowSlot

/-- The table as the host uploads it: all words are zero. -/
def emptyFlows : Flows := fun _ =>
  { state := 0, keyHash := 0, srcIp := 0, dstIp := 0, ports := 0, recvNext := 0, sendNext := 0,
    sendUnacked := 0, lastClientSeq := 0, lastClientLen := 0, lastResponseSeq := 0,
    lastResponseAck := 0, lastResponseId := 0, lastResponseLen := 0, generation := 0, padding := 0 }

/-- `flow_hash` of the shader. -/
def flowHash (srcIp dstIp srcPort dstPort : UInt32) : UInt32 :=
  let hash : UInt32 := 2166136261
  let hash := (hash ^^^ srcIp) * 16777619
  let hash := (hash ^^^ dstIp) * 16777619
  let hash := (hash ^^^ srcPort) * 16777619
  (hash ^^^ dstPort) * 16777619

def packedPorts (srcPort dstPort : UInt32) : UInt32 :=
  (srcPort <<< 16) ||| dstPort

def flowMatches (flows : Flows) (base keyHash srcIp dstIp ports : UInt32) : Bool :=
  (flows base).keyHash = keyHash ∧ (flows base).srcIp = srcIp ∧ (flows base).dstIp = dstIp ∧
    (flows base).ports = ports

/-- The slot a probe looks at. -/
def probeSlot (params : EngineParams) (keyHash probe : UInt32) : UInt32 :=
  (keyHash + probe) &&& (params.flowCapacity - 1)

/-- The number of probes. -/
def probeLimit (params : EngineParams) : UInt32 :=
  min params.flowProbeLimit params.flowCapacity

/-- The loop of `flow_find`. -/
def flowFindFrom (params : EngineParams) (flows : Flows) (keyHash srcIp dstIp ports probe : UInt32) :
    UInt32 :=
  if probe ≥ probeLimit params then invalidIndex
  else
    let base := probeSlot params keyHash probe
    let state := (flows base).state
    if state = stateFree then invalidIndex
    else if state ≠ stateClaimed ∧ state ≠ stateTombstone ∧
        flowMatches flows base keyHash srcIp dstIp ports then base
    else flowFindFrom params flows keyHash srcIp dstIp ports (probe + 1)
termination_by (probeLimit params).toNat - probe.toNat
decreasing_by exact index_decreases ‹_›

def flowFind (params : EngineParams) (flows : Flows) (keyHash srcIp dstIp ports : UInt32) : UInt32 :=
  flowFindFrom params flows keyHash srcIp dstIp ports 0

/-- `atomicCompareExchangeWeak` on the state of a slot.  WGSL lets it fail on a slot that
still has the expected state; here it succeeds, and `WeakClaim` has the general case. -/
def compareExchangeState (flows : Flows) (base expected desired : UInt32) : Bool × Flows :=
  if (flows base).state = expected then
    (true, Function.update flows base { flows base with state := desired })
  else (false, flows)

/-- The loop of `flow_claim`. -/
def flowClaimFrom (params : EngineParams) (flows : Flows) (keyHash srcIp dstIp ports probe : UInt32) :
    UInt32 × Flows :=
  if probe ≥ probeLimit params then (invalidIndex, flows)
  else
    let base := probeSlot params keyHash probe
    let state := (flows base).state
    if state = stateFree ∨ state = stateTombstone then
      let claim := compareExchangeState flows base state stateClaimed
      if claim.1 then
        (base, Function.update claim.2 base
          { state := (claim.2 base).state, keyHash := keyHash, srcIp := srcIp, dstIp := dstIp,
            ports := ports, recvNext := 0, sendNext := 0, sendUnacked := 0, lastClientSeq := 0,
            lastClientLen := 0, lastResponseSeq := 0, lastResponseAck := 0, lastResponseId := 0,
            lastResponseLen := 0, generation := 0, padding := 0 })
      else flowClaimFrom params claim.2 keyHash srcIp dstIp ports (probe + 1)
    else flowClaimFrom params flows keyHash srcIp dstIp ports (probe + 1)
termination_by (probeLimit params).toNat - probe.toNat
decreasing_by all_goals exact index_decreases ‹_›

def flowClaim (params : EngineParams) (flows : Flows) (keyHash srcIp dstIp ports : UInt32) :
    UInt32 × Flows :=
  flowClaimFrom params flows keyHash srcIp dstIp ports 0

def flowRelease (flows : Flows) (base : UInt32) : Flows :=
  Function.update flows base
    { flows base with generation := (flows base).generation + 1, state := stateTombstone }

/-- The four-tuple of a slot. -/
def slotKey (slot : FlowSlot) : FlowKey where
  srcIp := slot.srcIp
  dstIp := slot.dstIp
  srcPort := (slot.ports >>> 16).toUInt16
  dstPort := slot.ports.toUInt16

/-- The hash word of a key. -/
def keyHashOf (key : FlowKey) : UInt32 :=
  flowHash key.srcIp key.dstIp key.srcPort.toUInt32 key.dstPort.toUInt32

/-- The ports word of a key. -/
def portsOf (key : FlowKey) : UInt32 :=
  packedPorts key.srcPort.toUInt32 key.dstPort.toUInt32

/-- The shader and the host hash a key alike. -/
theorem keyHashOf_eq (key : FlowKey) : keyHashOf key = Packet.flowHash key := rfl

theorem portsOf_toNat (key : FlowKey) :
    (portsOf key).toNat = key.srcPort.toNat * 2 ^ 16 + key.dstPort.toNat := by
  have hsrc := key.srcPort.toNat_lt
  have hdst := key.dstPort.toNat_lt
  rw [portsOf, packedPorts, UInt32.toNat_or, UInt32.toNat_shiftLeft, Nat.shiftLeft_eq,
    UInt16.toNat_toUInt32, UInt16.toNat_toUInt32, ← LittleEndian.or_below _ hdst]
  simp only [UInt32.reduceToNat, Nat.reduceMod, Nat.reducePow]
  rw [Nat.mod_eq_of_lt (by omega)]

/-- A slot has the key whose words it holds. -/
theorem slotKey_eq_iff (slot : FlowSlot) (key : FlowKey) :
    slotKey slot = key ↔
      slot.srcIp = key.srcIp ∧ slot.dstIp = key.dstIp ∧ slot.ports = portsOf key := by
  have hports : slot.ports = portsOf key ↔
      (slot.ports >>> 16).toUInt16 = key.srcPort ∧ slot.ports.toUInt16 = key.dstPort := by
    have hlt := slot.ports.toNat_lt
    have hsrc := key.srcPort.toNat_lt
    have hdst := key.dstPort.toNat_lt
    rw [← UInt32.toNat_inj, ← UInt16.toNat_inj, ← UInt16.toNat_inj, portsOf_toNat,
      UInt32.toNat_toUInt16, UInt32.toNat_toUInt16, UInt32.toNat_shiftRight,
      Nat.shiftRight_eq_div_pow]
    simp only [UInt32.reduceToNat, Nat.reduceMod, Nat.reducePow]
    omega
  rw [hports]
  obtain ⟨srcIp, dstIp, srcPort, dstPort⟩ := key
  simp only [slotKey, FlowKey.mk.injEq]

def findKey (params : EngineParams) (flows : Flows) (key : FlowKey) : UInt32 :=
  flowFind params flows (keyHashOf key) key.srcIp key.dstIp (portsOf key)

def claimKey (params : EngineParams) (flows : Flows) (key : FlowKey) : UInt32 × Flows :=
  flowClaim params flows (keyHashOf key) key.srcIp key.dstIp (portsOf key)

/-- A slot as a cell of an open-addressed table. -/
def slotCell (slot : FlowSlot) : Cell FlowKey :=
  if slot.state = stateFree then .free
  else if slot.state = stateTombstone then .tombstone
  else if slot.state = stateClaimed then .busy
  else .live (slotKey slot)

/-- The cells of a table. -/
def cells (flows : Flows) : UInt32 → Cell FlowKey :=
  fun i => slotCell (flows i)

/-- The slots a key may occupy, in the order in which they are probed. -/
def probePath (params : EngineParams) (key : FlowKey) (p : Nat) : UInt32 :=
  probeSlot params (keyHashOf key) (UInt32.ofNat p)

/-- What holds of the table between invocations. -/
structure TableInvariant (params : EngineParams) (flows : Flows) : Prop where
  wellFormed : WellFormed (cells flows) (probePath params) (probeLimit params).toNat
  hashed : ∀ i key, cells flows i = .live key → (flows i).keyHash = keyHashOf key
  settled : ∀ i, (flows i).state = stateFree ∨ (flows i).state = stateSynReceived ∨
    (flows i).state = stateEstablished ∨ (flows i).state = stateTombstone

section Cells

variable {params : EngineParams} {flows : Flows}

theorem slotCell_eq_free {slot : FlowSlot} : slotCell slot = .free ↔ slot.state = stateFree := by
  unfold slotCell
  split_ifs with h <;> simp [h]

theorem slotCell_eq_tombstone {slot : FlowSlot} :
    slotCell slot = .tombstone ↔ slot.state = stateTombstone := by
  unfold slotCell
  split_ifs with h h' h''
  · simp only [h, false_iff]
    decide
  · simp only [h']
  · simp only [h'', false_iff]
    decide
  · simp only [h']

theorem slotCell_eq_live {slot : FlowSlot} {key : FlowKey} :
    slotCell slot = .live key ↔
      (slot.state ≠ stateFree ∧ slot.state ≠ stateTombstone ∧ slot.state ≠ stateClaimed) ∧
        slotKey slot = key := by
  unfold slotCell
  split_ifs with h h' h'' <;> simp [*]

theorem cells_update (flows : Flows) (i : UInt32) (slot : FlowSlot) :
    cells (Function.update flows i slot) = Function.update (cells flows) i (slotCell slot) := by
  funext j
  by_cases h : j = i
  · subst h
    simp [cells]
  · simp [cells, h]

/-- The probe loop of `flow_find` is the search of an open-addressed table. -/
theorem flowFindFrom_eq (inv : TableInvariant params flows) (key : FlowKey) (probe : UInt32) :
    flowFindFrom params flows (keyHashOf key) key.srcIp key.dstIp (portsOf key) probe =
      ((seek (cells flows) (probePath params key) key
        ((probeLimit params).toNat - probe.toNat) probe.toNat).filter
          (fun i => decide (cells flows i = .live key))).getD invalidIndex := by
  have hmatches (base : UInt32) :
      ((flows base).state ≠ stateFree ∧ (flows base).state ≠ stateClaimed ∧
        (flows base).state ≠ stateTombstone ∧
        flowMatches flows base (keyHashOf key) key.srcIp key.dstIp (portsOf key) = true) ↔
      cells flows base = .live key := by
    unfold flowMatches
    rw [decide_eq_true_eq]
    constructor
    · rintro ⟨hfree, hclaimed, htombstone, -, hkey⟩
      exact slotCell_eq_live.mpr ⟨⟨hfree, htombstone, hclaimed⟩, (slotKey_eq_iff _ _).mpr hkey⟩
    · intro hlive
      obtain ⟨⟨hfree, htombstone, hclaimed⟩, hkey⟩ := slotCell_eq_live.mp hlive
      exact ⟨hfree, hclaimed, htombstone, inv.hashed base key hlive, (slotKey_eq_iff _ _).mp hkey⟩
  have hpath (i : UInt32) : probePath params key i.toNat = probeSlot params (keyHashOf key) i := by
    rw [probePath, UInt32.ofNat_toNat]
  induction probe using flowFindFrom.induct params flows (keyHashOf key) key.srcIp key.dstIp
    (portsOf key) with
  | case1 probe hge =>
      rw [flowFindFrom, if_pos hge,
        Nat.sub_eq_zero_of_le (UInt32.le_iff_toNat_le.mp hge)]
      rfl
  | case2 probe hge base state hfree =>
      have hcell : cells flows (probePath params key probe.toNat) = .free := by
        rw [hpath]
        exact slotCell_eq_free.mpr hfree
      obtain ⟨count, hcount⟩ := Nat.exists_eq_add_one.mpr
        (Nat.sub_pos_of_lt (UInt32.lt_iff_toNat_lt.mp (UInt32.not_le.mp hge)))
      rw [flowFindFrom, if_neg hge, hcount, seek_stop (Or.inl hcell), Option.filter_some, hcell]
      exact if_pos hfree
  | case3 probe hge base state hfree hfound =>
      have hcell : cells flows (probePath params key probe.toNat) = .live key := by
        rw [hpath]
        exact (hmatches base).mp ⟨hfree, hfound⟩
      obtain ⟨count, hcount⟩ := Nat.exists_eq_add_one.mpr
        (Nat.sub_pos_of_lt (UInt32.lt_iff_toNat_lt.mp (UInt32.not_le.mp hge)))
      rw [flowFindFrom, if_neg hge, hcount, seek_stop (Or.inr hcell), Option.filter_some, hcell,
        decide_eq_true rfl, if_pos rfl, Option.getD_some, hpath]
      exact (if_neg hfree).trans (if_pos hfound)
  | case4 probe hge base state hfree hmissed ih =>
      have hlt := UInt32.not_le.mp hge
      have hnat := UInt32.lt_iff_toNat_lt.mp hlt
      have hnext := add_one_toNat hlt
      have hnotFree : cells flows (probePath params key probe.toNat) ≠ .free := by
        rw [hpath]
        exact fun hcell => hfree (slotCell_eq_free.mp hcell)
      have hnotLive : cells flows (probePath params key probe.toNat) ≠ .live key := by
        rw [hpath]
        exact fun hcell => hmissed ((hmatches base).mpr hcell).2
      have hcount : (probeLimit params).toNat - probe.toNat =
          (probeLimit params).toNat - (probe + 1).toNat + 1 := by
        omega
      rw [hcount, seek_skip hnotFree hnotLive, ← hnext, ← ih, flowFindFrom, if_neg hge]
      exact (if_neg hfree).trans (if_neg hmissed)

/-- The record `flow_claim` writes. -/
def claimedSlot (key : FlowKey) : FlowSlot where
  state := stateClaimed
  keyHash := keyHashOf key
  srcIp := key.srcIp
  dstIp := key.dstIp
  ports := portsOf key
  recvNext := 0
  sendNext := 0
  sendUnacked := 0
  lastClientSeq := 0
  lastClientLen := 0
  lastResponseSeq := 0
  lastResponseAck := 0
  lastResponseId := 0
  lastResponseLen := 0
  generation := 0
  padding := 0

/-- The probe loop of `flow_claim` takes the first slot that is free or a
tombstone. -/
theorem flowClaimFrom_eq (flows : Flows) (key : FlowKey) (probe : UInt32) :
    flowClaimFrom params flows (keyHashOf key) key.srcIp key.dstIp (portsOf key) probe =
      match vacancy (cells flows) (probePath params key)
          ((probeLimit params).toNat - probe.toNat) probe.toNat with
      | none => (invalidIndex, flows)
      | some i => (i, Function.update flows i (claimedSlot key)) := by
  have hpath (i : UInt32) : probePath params key i.toNat = probeSlot params (keyHashOf key) i := by
    rw [probePath, UInt32.ofNat_toNat]
  by_cases hge : probe ≥ probeLimit params
  · rw [flowClaimFrom, if_pos hge, Nat.sub_eq_zero_of_le (UInt32.le_iff_toNat_le.mp hge)]
    rfl
  have hlt := UInt32.not_le.mp hge
  have hnat := UInt32.lt_iff_toNat_lt.mp hlt
  have hnext := add_one_toNat hlt
  rw [flowClaimFrom, if_neg hge]
  simp only
  by_cases hvacant : (flows (probeSlot params (keyHashOf key) probe)).state = stateFree ∨
      (flows (probeSlot params (keyHashOf key) probe)).state = stateTombstone
  · have hcell : cells flows (probePath params key probe.toNat) = .free ∨
        cells flows (probePath params key probe.toNat) = .tombstone := by
      rw [hpath]
      exact hvacant.imp slotCell_eq_free.mpr slotCell_eq_tombstone.mpr
    obtain ⟨count, hcount⟩ := Nat.exists_eq_add_one.mpr (Nat.sub_pos_of_lt hnat)
    rw [if_pos hvacant, hcount, vacancy_stop hcell, hpath]
    simp only [compareExchangeState, if_true, Function.update_self, Function.update_idem]
    rfl
  · have hcount : (probeLimit params).toNat - probe.toNat =
        (probeLimit params).toNat - (probe + 1).toNat + 1 := by
      omega
    have hnotFree : cells flows (probePath params key probe.toNat) ≠ .free := by
      rw [hpath]
      exact fun hcell => hvacant (Or.inl (slotCell_eq_free.mp hcell))
    have hnotTombstone : cells flows (probePath params key probe.toNat) ≠ .tombstone := by
      rw [hpath]
      exact fun hcell => hvacant (Or.inr (slotCell_eq_tombstone.mp hcell))
    rw [if_neg hvacant, hcount, vacancy_skip hnotFree hnotTombstone, ← hnext]
    exact flowClaimFrom_eq flows key (probe + 1)
termination_by (probeLimit params).toNat - probe.toNat
decreasing_by exact index_decreases hge

/-- A probe stays inside a table whose capacity is a power of two. -/
theorem probeSlot_toNat (hcapacity : params.flowCapacity.toNat.isPowerOfTwo)
    (keyHash probe : UInt32) :
    (probeSlot params keyHash probe).toNat =
      (keyHash.toNat + probe.toNat) % params.flowCapacity.toNat := by
  obtain ⟨k, hk⟩ := hcapacity
  have hlt := params.flowCapacity.toNat_lt
  have hk32 : k ≤ 32 := by
    by_contra hgt
    have := Nat.pow_le_pow_right (show 2 > 0 by omega) (show 33 ≤ k by omega)
    omega
  have hone : (1 : UInt32) ≤ params.flowCapacity := by
    rw [UInt32.le_iff_toNat_le, hk]
    exact Nat.one_le_two_pow
  rw [probeSlot, UInt32.toNat_and, UInt32.toNat_sub_of_le _ _ hone, UInt32.toNat_add, hk]
  simp only [UInt32.reduceToNat]
  rw [Nat.and_two_pow_sub_one_eq_mod, Nat.mod_mod_of_dvd _ (Nat.pow_dvd_pow 2 hk32)]

theorem probeSlot_lt (hcapacity : params.flowCapacity.toNat.isPowerOfTwo)
    (keyHash probe : UInt32) :
    (probeSlot params keyHash probe).toNat < params.flowCapacity.toNat := by
  obtain ⟨k, hk⟩ := hcapacity
  rw [probeSlot_toNat ⟨k, hk⟩]
  exact Nat.mod_lt _ (by rw [hk]; exact Nat.two_pow_pos k)

/-- Live slots lie inside the table. -/
theorem TableInvariant.live_lt (inv : TableInvariant params flows)
    (hcapacity : params.flowCapacity.toNat.isPowerOfTwo) {i : UInt32} {key : FlowKey}
    (hlive : cells flows i = .live key) : i.toNat < params.flowCapacity.toNat := by
  obtain ⟨p, -, rfl, -⟩ := inv.wellFormed.reachable hlive
  exact probeSlot_lt hcapacity _ _

theorem ne_invalidIndex {i n : UInt32} (h : i.toNat < n.toNat) : i ≠ invalidIndex := by
  rintro rfl
  have := n.toNat_lt
  have : invalidIndex.toNat = 4294967295 := rfl
  omega

/-- `flow_find` depends on the capacity and the probe limit only. -/
theorem flowFindFrom_congr {params' : EngineParams}
    (hcapacity : params'.flowCapacity = params.flowCapacity)
    (hlimit : params'.flowProbeLimit = params.flowProbeLimit)
    (keyHash srcIp dstIp ports probe : UInt32) :
    flowFindFrom params' flows keyHash srcIp dstIp ports probe =
      flowFindFrom params flows keyHash srcIp dstIp ports probe := by
  have hslot (probe : UInt32) : probeSlot params' keyHash probe = probeSlot params keyHash probe := by
    rw [probeSlot, probeSlot, hcapacity]
  have hprobes : probeLimit params' = probeLimit params := by
    rw [probeLimit, probeLimit, hcapacity, hlimit]
  induction probe using flowFindFrom.induct params flows keyHash srcIp dstIp ports with
  | case1 probe hge =>
      rw [flowFindFrom, flowFindFrom.eq_1 params, hprobes, if_pos hge, if_pos hge]
  | case2 probe hge base state hfree =>
      rw [flowFindFrom, flowFindFrom.eq_1 params, hprobes, if_neg hge, if_neg hge, hslot]
      exact (if_pos hfree).trans (if_pos hfree).symm
  | case3 probe hge base state hfree hfound =>
      rw [flowFindFrom, flowFindFrom.eq_1 params, hprobes, if_neg hge, if_neg hge, hslot]
      exact ((if_neg hfree).trans (if_pos hfound)).trans
        ((if_neg hfree).trans (if_pos hfound)).symm
  | case4 probe hge base state hfree hmissed ih =>
      rw [flowFindFrom, flowFindFrom.eq_1 params, hprobes, if_neg hge, if_neg hge, hslot, ih]

/-- `flow_find` as a search of cells. -/
theorem findKey_eq (inv : TableInvariant params flows) (key : FlowKey) :
    findKey params flows key =
      (find (cells flows) (probePath params key) key (probeLimit params).toNat).getD
        invalidIndex :=
  flowFindFrom_eq inv key 0

/-- `flow_find` returns the live slot of a key. -/
theorem findKey_of_live (inv : TableInvariant params flows) {key : FlowKey} {i : UInt32}
    (hlive : cells flows i = .live key) : findKey params flows key = i := by
  rw [findKey_eq inv, inv.wellFormed.find_eq_some.mpr hlive]
  rfl

/-- `flow_find` fails for a key without a live slot. -/
theorem findKey_of_absent (inv : TableInvariant params flows) {key : FlowKey}
    (habsent : ∀ i, cells flows i ≠ .live key) : findKey params flows key = invalidIndex := by
  rw [findKey_eq inv, inv.wellFormed.find_eq_none.mpr habsent]
  rfl

/-- Whatever `flow_find` returns is the live slot of the key. -/
theorem live_of_findKey (inv : TableInvariant params flows) {key : FlowKey}
    (hfound : findKey params flows key ≠ invalidIndex) :
    cells flows (findKey params flows key) = .live key := by
  by_cases habsent : ∀ i, cells flows i ≠ .live key
  · exact absurd (findKey_of_absent inv habsent) hfound
  · obtain ⟨i, hlive⟩ := not_forall_not.mp habsent
    rwa [findKey_of_live inv hlive]

theorem absent_of_findKey (inv : TableInvariant params flows)
    (hcapacity : params.flowCapacity.toNat.isPowerOfTwo) {key : FlowKey}
    (hmissed : findKey params flows key = invalidIndex) (i : UInt32) :
    cells flows i ≠ .live key := by
  intro hlive
  rw [findKey_of_live inv hlive] at hmissed
  exact ne_invalidIndex (inv.live_lt hcapacity hlive) hmissed

/-- `flow_claim` as a search of cells. -/
theorem claimKey_eq (flows : Flows) (key : FlowKey) :
    claimKey params flows key =
      match vacancy (cells flows) (probePath params key) (probeLimit params).toNat 0 with
      | none => (invalidIndex, flows)
      | some i => (i, Function.update flows i (claimedSlot key)) :=
  flowClaimFrom_eq flows key 0

/-- The flow a live slot describes. -/
def slotFlow (slot : FlowSlot) : Flow where
  state := if slot.state = stateSynReceived then .synReceived else .established
  recvNext := slot.recvNext
  sendNext := slot.sendNext
  sendUnacked := slot.sendUnacked
  lastResponse :=
    if slot.lastResponseLen = 0 then none
    else
      some
        { clientSeq := slot.lastClientSeq
          clientLen := slot.lastClientLen.toNat
          responseSeq := slot.lastResponseSeq
          responseAck := slot.lastResponseAck
          responseId := slot.lastResponseId }

/-- The entry of a key, as `flow_find` finds it. -/
def tableEntry (params : EngineParams) (flows : Flows) (key : FlowKey) : Option Flow :=
  if findKey params flows key = invalidIndex then none
  else some (slotFlow (flows (findKey params flows key)))

theorem tableEntry_of_live (inv : TableInvariant params flows)
    (hcapacity : params.flowCapacity.toNat.isPowerOfTwo) {key : FlowKey} {i : UInt32}
    (hlive : cells flows i = .live key) :
    tableEntry params flows key = some (slotFlow (flows i)) := by
  rw [tableEntry, findKey_of_live inv hlive,
    if_neg (ne_invalidIndex (inv.live_lt hcapacity hlive))]

theorem tableEntry_of_absent (inv : TableInvariant params flows) {key : FlowKey}
    (habsent : ∀ i, cells flows i ≠ .live key) : tableEntry params flows key = none :=
  if_pos (findKey_of_absent inv habsent)

/-- A table that differs from another in the slot of one key has the same
entries for all other keys. -/
theorem tableEntry_congr {flows' : Flows} (inv : TableInvariant params flows)
    (inv' : TableInvariant params flows') (hcapacity : params.flowCapacity.toNat.isPowerOfTwo)
    {key : FlowKey} (hlive : ∀ i, cells flows i = .live key → flows' i = flows i)
    (hback : ∀ i, cells flows' i = .live key → cells flows i = .live key) :
    tableEntry params flows' key = tableEntry params flows key := by
  by_cases habsent : ∀ i, cells flows i ≠ .live key
  · rw [tableEntry_of_absent inv habsent,
      tableEntry_of_absent inv' (fun i h => habsent i (hback i h))]
  · obtain ⟨i, hi⟩ := not_forall_not.mp habsent
    have hsame := hlive i hi
    have hi' : cells flows' i = .live key := by
      rw [cells, hsame]
      exact hi
    rw [tableEntry_of_live inv hcapacity hi, tableEntry_of_live inv' hcapacity hi', hsame]

/-- The state of a slot that holds a flow. -/
def Settled (slot : FlowSlot) : Prop :=
  slot.state = stateSynReceived ∨ slot.state = stateEstablished

theorem Settled.slotCell {slot : FlowSlot} (h : Settled slot) :
    slotCell slot = .live (slotKey slot) := by
  rw [slotCell_eq_live]
  refine ⟨?_, rfl⟩
  rcases h with h | h <;> rw [h] <;> decide

theorem TableInvariant.settled_of_live (inv : TableInvariant params flows) {i : UInt32}
    {key : FlowKey} (hlive : cells flows i = .live key) : Settled (flows i) := by
  obtain ⟨⟨hfree, htombstone, -⟩, -⟩ := slotCell_eq_live.mp hlive
  rcases inv.settled i with hstate | hstate | hstate | hstate
  · exact absurd hstate hfree
  · exact Or.inl hstate
  · exact Or.inr hstate
  · exact absurd hstate htombstone

/-- What all writes to one slot have in common: the cells elsewhere stay, and the
invariant follows from that of the cells. -/
theorem TableInvariant.update (inv : TableInvariant params flows) {i : UInt32} {slot : FlowSlot}
    (hwell : WellFormed (Function.update (cells flows) i (slotCell slot)) (probePath params)
      (probeLimit params).toNat)
    (hhash : slot.keyHash = keyHashOf (slotKey slot))
    (hstate : slot.state = stateTombstone ∨ Settled slot) :
    TableInvariant params (Function.update flows i slot) where
  wellFormed := by
    rw [cells_update]
    exact hwell
  hashed := by
    intro j key hlive
    by_cases hj : j = i
    · subst hj
      rw [cells, Function.update_self] at hlive
      rw [Function.update_self, hhash, (slotCell_eq_live.mp hlive).2]
    · rw [cells_update, Function.update_of_ne hj] at hlive
      rw [Function.update_of_ne hj]
      exact inv.hashed j key hlive
  settled := by
    intro j
    by_cases hj : j = i
    · subst hj
      rw [Function.update_self]
      rcases hstate with h | h | h
      · exact Or.inr (Or.inr (Or.inr h))
      · exact Or.inr (Or.inl h)
      · exact Or.inr (Or.inr (Or.inl h))
    · rw [Function.update_of_ne hj]
      exact inv.settled j

/-- The entries after a write to the slot of a key. -/
theorem tableEntry_update {i : UInt32} {slot : FlowSlot} {key : FlowKey} {entry : Option Flow}
    (inv : TableInvariant params flows) (inv' : TableInvariant params (Function.update flows i slot))
    (hcapacity : params.flowCapacity.toNat.isPowerOfTwo)
    (hbefore : ∀ key', key' ≠ key → cells flows i ≠ .live key')
    (hafter : ∀ key', key' ≠ key → slotCell slot ≠ .live key')
    (hentry : tableEntry params (Function.update flows i slot) key = entry) :
    tableEntry params (Function.update flows i slot) =
      Function.update (tableEntry params flows) key entry := by
  funext key'
  by_cases hkey : key' = key
  · subst hkey
    rw [Function.update_self, hentry]
  · rw [Function.update_of_ne hkey]
    refine tableEntry_congr inv inv' hcapacity ?_ ?_
    · intro j hlive
      have hj : j ≠ i := by
        rintro rfl
        exact hbefore key' hkey hlive
      rw [Function.update_of_ne hj]
    · intro j hlive
      have hj : j ≠ i := by
        rintro rfl
        rw [cells, Function.update_self] at hlive
        exact hafter key' hkey hlive
      rwa [cells_update, Function.update_of_ne hj] at hlive

/-- Rewriting the live slot of a key replaces its entry. -/
theorem rewrite_live (inv : TableInvariant params flows)
    (hcapacity : params.flowCapacity.toNat.isPowerOfTwo) {i : UInt32} {key : FlowKey}
    (hlive : cells flows i = .live key) {slot : FlowSlot} (hkey : slotKey slot = key)
    (hhash : slot.keyHash = keyHashOf key) (hstate : Settled slot) :
    TableInvariant params (Function.update flows i slot) ∧
      tableEntry params (Function.update flows i slot) =
        Function.update (tableEntry params flows) key (some (slotFlow slot)) := by
  subst hkey
  have hcell := hstate.slotCell
  have hsame : Function.update (cells flows) i (slotCell slot) = cells flows := by
    rw [hcell, ← hlive, Function.update_eq_self]
  have inv' : TableInvariant params (Function.update flows i slot) :=
    inv.update (by rw [hsame]; exact inv.wellFormed) hhash (Or.inr hstate)
  refine ⟨inv', tableEntry_update inv inv' hcapacity ?_ ?_ ?_⟩
  · intro key' hne heq
    rw [hlive] at heq
    exact hne (Cell.live.inj heq).symm
  · intro key' hne heq
    rw [hcell] at heq
    exact hne (Cell.live.inj heq).symm
  · rw [tableEntry_of_live inv' hcapacity (i := i) (by rw [cells, Function.update_self, hcell]),
      Function.update_self]

/-- Releasing the live slot of a key removes its entry. -/
theorem release_live (inv : TableInvariant params flows)
    (hcapacity : params.flowCapacity.toNat.isPowerOfTwo) {i : UInt32} {key : FlowKey}
    (hlive : cells flows i = .live key) {slot : FlowSlot} (hkey : slotKey slot = key)
    (hhash : slot.keyHash = keyHashOf key) (hstate : slot.state = stateTombstone) :
    TableInvariant params (Function.update flows i slot) ∧
      tableEntry params (Function.update flows i slot) =
        Function.update (tableEntry params flows) key none := by
  have hcell : slotCell slot = .tombstone := slotCell_eq_tombstone.mpr hstate
  have inv' : TableInvariant params (Function.update flows i slot) :=
    inv.update (by rw [hcell]; exact inv.wellFormed.release i) (by rw [hkey]; exact hhash)
      (Or.inl hstate)
  refine ⟨inv', tableEntry_update inv inv' hcapacity ?_ ?_ ?_⟩
  · intro key' hne heq
    rw [hlive] at heq
    exact hne (Cell.live.inj heq).symm
  · intro key' _ heq
    rw [hcell] at heq
    cases heq
  · apply tableEntry_of_absent inv'
    intro j hj
    by_cases hji : j = i
    · subst hji
      rw [cells, Function.update_self, hcell] at hj
      cases hj
    · rw [cells_update, Function.update_of_ne hji] at hj
      exact hji (inv.wellFormed.unique hj hlive)

/-- Publishing a flow in the slot that `flow_claim` returned adds its entry. -/
theorem publish_claimed (inv : TableInvariant params flows)
    (hcapacity : params.flowCapacity.toNat.isPowerOfTwo) {i : UInt32} {key : FlowKey}
    (habsent : ∀ j, cells flows j ≠ .live key)
    (hclaimed : vacancy (cells flows) (probePath params key) (probeLimit params).toNat 0 = some i)
    {slot : FlowSlot} (hkey : slotKey slot = key) (hhash : slot.keyHash = keyHashOf key)
    (hstate : Settled slot) :
    TableInvariant params (Function.update flows i slot) ∧
      tableEntry params (Function.update flows i slot) =
        Function.update (tableEntry params flows) key (some (slotFlow slot)) := by
  subst hkey
  have hcell := hstate.slotCell
  obtain ⟨p, -, hp, hpath, hvacant, hbefore⟩ := vacancy_eq_some hclaimed
  have hnotLive : ∀ key', cells flows i ≠ .live key' := by
    intro key' heq
    rw [heq] at hvacant
    rcases hvacant with h | h <;> cases h
  have hwell : WellFormed (Function.update (cells flows) i (slotCell slot)) (probePath params)
      (probeLimit params).toNat := by
    rw [hcell]
    exact inv.wellFormed.insert habsent hnotLive (by omega) hpath
      (fun j hj => hbefore j (Nat.zero_le j) hj)
  have inv' := inv.update hwell hhash (Or.inr hstate)
  refine ⟨inv', tableEntry_update inv inv' hcapacity (fun key' _ => hnotLive key') ?_ ?_⟩
  · intro key' hne heq
    rw [hcell] at heq
    exact hne (Cell.live.inj heq).symm
  · rw [tableEntry_of_live inv' hcapacity (i := i) (by rw [cells, Function.update_self, hcell]),
      Function.update_self]

theorem cells_emptyFlows (i : UInt32) : cells emptyFlows i = .free :=
  slotCell_eq_free.mpr rfl

theorem emptyFlows_invariant (params : EngineParams) : TableInvariant params emptyFlows where
  wellFormed := wellFormed_of_no_live (fun i key heq => by
    rw [cells_emptyFlows] at heq
    cases heq)
  hashed := fun i key heq => by
    rw [cells_emptyFlows] at heq
    cases heq
  settled := fun _ => Or.inl rfl

end Cells

end Shader
end Packet
end Gput
