import Gput.Packet.Agreement

/-!
# One step of both engines, from related tables

The tables of the two engines are related when they hold the same flows, apart
from the acknowledgement that neither engine reads, and `flow_find` reaches every
live slot.  Nothing else is asked of the slots, nor of the capacity and the probe
limit.  A packet that neither opens nor resets a flow keeps related tables
related, and both engines answer it alike (`segment_simulation`).
-/

namespace Gput
namespace Packet

/-- The same flow, whatever acknowledgement is noted. -/
def SameCourse (flow flow' : Flow) : Prop :=
  flow' = { flow with sendUnacked := flow'.sendUnacked }

section SameCourse

variable {flow flow' : Flow} {tcp : TcpPacketView}

theorem SameCourse.fields (h : SameCourse flow flow') :
    flow'.state = flow.state ∧ flow'.recvNext = flow.recvNext ∧ flow'.sendNext = flow.sendNext ∧
      flow'.lastResponse = flow.lastResponse := by
  rw [h]
  exact ⟨rfl, rfl, rfl, rfl⟩

theorem sameCourse_of_fields (hstate : flow'.state = flow.state)
    (hrecv : flow'.recvNext = flow.recvNext) (hsend : flow'.sendNext = flow.sendNext)
    (hlast : flow'.lastResponse = flow.lastResponse) : SameCourse flow flow' := by
  obtain ⟨state, recvNext, sendNext, sendUnacked, lastResponse⟩ := flow'
  subst hstate hrecv hsend hlast
  rfl

theorem SameCourse.noteAck (h : SameCourse flow flow') :
    SameCourse (noteAck flow tcp) (noteAck flow' tcp) := by
  obtain ⟨hstate, hrecv, hsend, hlast⟩ := h.fields
  apply sameCourse_of_fields <;> simp [hstate, hrecv, hsend, hlast]

theorem SameCourse.establish (h : SameCourse flow flow') :
    SameCourse (establish flow tcp) (establish flow' tcp) := by
  obtain ⟨-, hrecv, hsend, hlast⟩ := h.fields
  exact sameCourse_of_fields rfl hrecv hsend hlast

/-- The two flows a segment may leave behind, and the replies to it. -/
structure SameStep (result result' : Option Flow × Option Reply) : Prop where
  entry : Option.Rel SameCourse result.1 result'.1
  reply : result'.2 = result.2

theorem SameCourse.establishedStep (h : SameCourse flow flow') :
    SameStep (establishedStep flow tcp) (establishedStep flow' tcp) := by
  obtain ⟨hstate, hrecv, hsend, hlast⟩ := h.fields
  unfold Packet.establishedStep
  rw [hrecv]
  by_cases hseq : tcp.seq ≠ flow.recvNext
  · rw [if_pos hseq, if_pos hseq]
    refine ⟨.some h, ?_⟩
    unfold outOfOrderReply
    rw [hlast, hsend, hrecv]
  rw [if_neg hseq, if_neg hseq]
  by_cases hempty : tcp.payload = []
  · rw [if_pos hempty, if_pos hempty]
    by_cases hfin : tcp.flags &&& tcpFin = 0
    · rw [if_pos hfin, if_pos hfin]
      exact ⟨.some h, rfl⟩
    · rw [if_neg hfin, if_neg hfin, hsend]
      exact ⟨.none, rfl⟩
  · rw [if_neg hempty, if_neg hempty]
    have hanswer : answer flow' tcp = answer flow tcp := by
      rw [answer, answer, hsend]
    have hnext : SameCourse (answeredFlow flow tcp) (answeredFlow flow' tcp) := by
      refine sameCourse_of_fields ?_ ?_ ?_ ?_
      · exact hstate
      · rfl
      · rw [answeredFlow, answeredFlow, hsend]
      · rw [answeredFlow, answeredFlow, hsend]
    rw [hanswer]
    by_cases hfin : tcp.flags &&& tcpFin ≠ 0
    · rw [if_pos hfin, if_pos hfin]
      exact ⟨.none, rfl⟩
    · rw [if_neg hfin, if_neg hfin]
      exact ⟨.some hnext, rfl⟩

/-- A segment does not look at the noted acknowledgement. -/
theorem SameCourse.segmentStep (h : SameCourse flow flow') :
    SameStep (segmentStep flow tcp) (segmentStep flow' tcp) := by
  obtain ⟨hstate, hrecv, hsend, -⟩ := h.fields
  cases hcase : flow.state with
  | established =>
      rw [segmentStep_established flow tcp hcase,
        segmentStep_established flow' tcp (hstate.trans hcase)]
      exact h.noteAck.establishedStep
  | synReceived =>
      have hdone : CompletesHandshake flow' tcp ↔ CompletesHandshake flow tcp := by
        unfold CompletesHandshake
        rw [hrecv, hsend]
      rcases segmentStep_halfOpen flow tcp hcase with ⟨hyes, hstep⟩ | ⟨hno, hstep⟩ <;>
        rcases segmentStep_halfOpen flow' tcp (hstate.trans hcase) with
          ⟨hyes', hstep'⟩ | ⟨hno', hstep'⟩
      · rw [hstep, hstep']
        exact h.establish.noteAck.establishedStep
      · exact absurd (hdone.mpr hyes) hno'
      · exact absurd (hdone.mp hyes') hno
      · rw [hstep, hstep']
        exact ⟨.some h, rfl⟩

end SameCourse

namespace Shader

/-- The slots at which a search for a key ends. -/
def Hit (flows : Flows) (key : FlowKey) (i : UInt32) : Prop :=
  (flows i).state ≠ stateFree ∧ (flows i).state ≠ stateClaimed ∧
    (flows i).state ≠ stateTombstone ∧
    flowMatches flows i (keyHashOf key) key.srcIp key.dstIp (portsOf key)

/-- The slots at which it goes on. -/
def Passed (flows : Flows) (key : FlowKey) (i : UInt32) : Prop :=
  (flows i).state ≠ stateFree ∧ ¬ Hit flows key i

section Find

variable {params : EngineParams} {flows flows' : Flows} {key : FlowKey} {i : UInt32}

theorem Hit.slotKey (h : Hit flows key i) : slotKey (flows i) = key := by
  have hmatches := h.2.2.2
  unfold flowMatches at hmatches
  rw [decide_eq_true_eq] at hmatches
  exact (slotKey_eq_iff _ _).mpr hmatches.2

theorem Hit.keyHash (h : Hit flows key i) : (flows i).keyHash = keyHashOf key := by
  have hmatches := h.2.2.2
  unfold flowMatches at hmatches
  rw [decide_eq_true_eq] at hmatches
  exact hmatches.1

theorem probeLimit_le (params : EngineParams) :
    (probeLimit params).toNat ≤ params.flowCapacity.toNat := by
  show (if params.flowProbeLimit ≤ params.flowCapacity then params.flowProbeLimit
    else params.flowCapacity).toNat ≤ _
  split_ifs with h
  · exact UInt32.le_iff_toNat_le.mp h
  · exact le_refl _

/-- Whatever the capacity is, probes stay below it. -/
theorem probeSlot_lt_capacity (keyHash probe : UInt32) (h : 0 < params.flowCapacity.toNat) :
    probeSlot params keyHash probe < params.flowCapacity := by
  have hone : (1 : UInt32) ≤ params.flowCapacity := UInt32.le_iff_toNat_le.mpr h
  rw [UInt32.lt_iff_toNat_lt, probeSlot, UInt32.toNat_and, UInt32.toNat_sub_of_le _ _ hone]
  have := @Nat.and_le_right (keyHash + probe).toNat (params.flowCapacity.toNat - (1 : UInt32).toNat)
  have hnat : (1 : UInt32).toNat = 1 := rfl
  omega

/-- A search returns the first slot that is hit, and every slot before it is
passed; both are all it depends on. -/
theorem flowFindFrom_frame (hhit : ∀ j, Hit flows key j → j = i → Hit flows' key j)
    (hpass : ∀ j, Passed flows key j → Passed flows' key j) (probe : UInt32)
    (hfound : flowFindFrom params flows (keyHashOf key) key.srcIp key.dstIp (portsOf key) probe = i)
    (hi : i ≠ invalidIndex) :
    Hit flows key i ∧ i < params.flowCapacity ∧
      flowFindFrom params flows' (keyHashOf key) key.srcIp key.dstIp (portsOf key) probe = i := by
  induction probe using flowFindFrom.induct params flows (keyHashOf key) key.srcIp key.dstIp
    (portsOf key) with
  | case1 probe hge =>
      rw [flowFindFrom, if_pos hge] at hfound
      exact absurd hfound.symm hi
  | case2 probe hge base state hfree =>
      rw [flowFindFrom, if_neg hge] at hfound
      exact absurd ((if_pos hfree).symm.trans hfound).symm hi
  | case3 probe hge base state hfree hmatch =>
      rw [flowFindFrom, if_neg hge] at hfound
      have hbase : base = i := ((if_neg hfree).trans (if_pos hmatch)).symm.trans hfound
      subst hbase
      have hhere : Hit flows key base := ⟨hfree, hmatch⟩
      have hthere := hhit base hhere rfl
      refine ⟨hhere, ?_, ?_⟩
      · have hlt := UInt32.not_le.mp hge
        rw [UInt32.lt_iff_toNat_lt] at hlt
        exact probeSlot_lt_capacity _ _ (by have := probeLimit_le params; omega)
      · rw [flowFindFrom, if_neg hge]
        exact (if_neg hthere.1).trans (if_pos hthere.2)
  | case4 probe hge base state hfree hmissed ih =>
      have hhere : Passed flows key base := ⟨hfree, fun h => hmissed h.2⟩
      have hthere := hpass base hhere
      rw [flowFindFrom, if_neg hge] at hfound
      obtain ⟨hhit', hlt, hnext⟩ := ih (((if_neg hfree).trans (if_neg hmissed)).symm.trans hfound)
      refine ⟨hhit', hlt, ?_⟩
      rw [flowFindFrom, if_neg hge]
      exact ((if_neg hthere.1).trans (if_neg fun h => hthere.2 ⟨hthere.1, h⟩)).trans hnext

theorem findKey_frame (hfound : findKey params flows key = i) (hi : i ≠ invalidIndex)
    (hhit : Hit flows key i → Hit flows' key i)
    (hpass : ∀ j, Passed flows key j → Passed flows' key j) : findKey params flows' key = i :=
  (flowFindFrom_frame (fun _ h heq => by rw [heq] at h ⊢; exact hhit h) hpass 0 hfound hi).2.2

theorem hit_of_findKey (hfound : findKey params flows key = i) (hi : i ≠ invalidIndex) :
    Hit flows key i ∧ i < params.flowCapacity :=
  have h := @flowFindFrom_frame params flows flows key i (fun _ h _ => h) (fun _ h => h) 0 hfound hi
  ⟨h.1, h.2.1⟩

end Find

/-- A live slot and a flow of the CPU engine with the same fields; no response
is remembered exactly when its length is zero. -/
structure SlotAgrees (slot : FlowSlot) (flow : Flow) : Prop where
  state : slot.state = if flow.state = .synReceived then stateSynReceived else stateEstablished
  recvNext : slot.recvNext = flow.recvNext
  sendNext : slot.sendNext = flow.sendNext
  lastResponse :
    match flow.lastResponse with
    | none => slot.lastResponseLen = 0
    | some last =>
        slot.lastResponseLen ≠ 0 ∧ slot.lastClientSeq = last.clientSeq ∧
          slot.lastClientLen.toNat = last.clientLen ∧ slot.lastResponseSeq = last.responseSeq ∧
          slot.lastResponseAck = last.responseAck ∧ slot.lastResponseId = last.responseId

/-- The tables hold the same flows, and `flow_find` reaches every live slot. -/
structure Related (params : EngineParams) (table : FlowTable) (flows : Flows) : Prop where
  found : ∀ i, i < params.flowCapacity → Settled (flows i) →
    findKey params flows (slotKey (flows i)) = i
  keys : ∀ key, key ∈ table ↔
    ∃ i, i < params.flowCapacity ∧ Settled (flows i) ∧ slotKey (flows i) = key
  agrees : ∀ i flow, i < params.flowCapacity → Settled (flows i) →
    table.lookup (slotKey (flows i)) = some flow → SlotAgrees (flows i) flow

section Related

variable {params : EngineParams} {table : FlowTable} {flows : Flows} {i : UInt32}

theorem slotAgrees_iff {slot : FlowSlot} (hsettled : Settled slot) (flow : Flow) :
    SlotAgrees slot flow ↔ SameCourse (slotFlow slot) flow := by
  have hstates : stateEstablished ≠ stateSynReceived := by decide
  constructor
  · intro h
    obtain ⟨hstate, hrecv, hsend, hlast⟩ := h
    refine sameCourse_of_fields ?_ hrecv.symm hsend.symm ?_
    · show flow.state = if slot.state = stateSynReceived then .synReceived else .established
      rw [hstate]
      cases flow.state with
      | synReceived => rfl
      | established => rfl
    · show flow.lastResponse = if slot.lastResponseLen = 0 then none else some _
      cases hcase : flow.lastResponse with
      | none =>
          rw [hcase] at hlast
          exact (if_pos hlast).symm
      | some last =>
          rw [hcase] at hlast
          obtain ⟨hlen, hseq, hclient, hresponse, hack, hid⟩ := hlast
          rw [if_neg hlen, hseq, hclient, hresponse, hack, hid]
  · intro h
    obtain ⟨hstate, hrecv, hsend, hlast⟩ := h.fields
    refine ⟨?_, hrecv.symm, hsend.symm, ?_⟩
    · rw [hstate]
      rcases hsettled with hslot | hslot
      · have : (slotFlow slot).state = .synReceived := if_pos hslot
        rw [this, hslot]
        rfl
      · have : (slotFlow slot).state = .established := if_neg (by rw [hslot]; exact hstates)
        rw [this, hslot]
        rfl
    · rw [hlast]
      by_cases hlen : slot.lastResponseLen = 0
      · have hnone : (slotFlow slot).lastResponse = none := if_pos hlen
        rw [hnone]
        exact hlen
      · have hsome : (slotFlow slot).lastResponse = some _ := if_neg hlen
        rw [hsome]
        exact ⟨hlen, rfl, rfl, rfl, rfl, rfl⟩

theorem ne_invalidIndex_of_lt {n : UInt32} (h : i < n) : i ≠ invalidIndex :=
  ne_invalidIndex (UInt32.lt_iff_toNat_lt.mp h)

/-- A key that `flow_find` misses, or finds in a slot that holds no flow, has no
flow in the CPU engine's table. -/
theorem Related.absent (h : Related params table flows) {key : FlowKey}
    (hfind : findKey params flows key = i) (hi : i = invalidIndex ∨ ¬ Settled (flows i)) :
    key ∉ table := by
  intro hmem
  obtain ⟨j, hj, hsettled, rfl⟩ := (h.keys key).mp hmem
  rw [h.found j hj hsettled] at hfind
  subst hfind
  rcases hi with hi | hi
  · exact ne_invalidIndex_of_lt hj hi
  · exact hi hsettled

/-- A live slot that `flow_find` returns holds the flow of the key. -/
theorem Related.lookup (h : Related params table flows) {key : FlowKey}
    (hfind : findKey params flows key = i) (hi : i ≠ invalidIndex)
    (hsettled : Settled (flows i)) :
    ∃ flow, table.lookup key = some flow ∧ SameCourse (slotFlow (flows i)) flow := by
  obtain ⟨hhit, hlt⟩ := hit_of_findKey hfind hi
  have hkey := hhit.slotKey
  have hmem : key ∈ table := (h.keys key).mpr ⟨i, hlt, hsettled, hkey⟩
  obtain ⟨flow, hflow⟩ := Finmap.mem_iff.mp hmem
  refine ⟨flow, hflow, (slotAgrees_iff hsettled flow).mp (h.agrees i flow hlt hsettled ?_)⟩
  rw [hkey]
  exact hflow

theorem not_settled_of_tombstone {slot : FlowSlot} (h : slot.state = stateTombstone) :
    ¬ Settled slot := by
  rintro (hstate | hstate) <;> rw [h] at hstate <;> revert hstate <;> decide

/-- Tables with the same entries are related, when the shader's table satisfies
its invariant. -/
theorem related_of_entries {config : PacketEngineConfig}
    (hpower : config.flowCapacity.isPowerOfTwo) (hfits : config.flowCapacity ≤ 0xffffffff)
    (good : GoodFlows config flows) (hentries : entries table = shaderEntries config flows) :
    Related (tableParams config) table flows := by
  have hcapacity : (tableParams config).flowCapacity.toNat.isPowerOfTwo := by
    rw [tableParams, flowCapacity_toNat hfits]
    exact hpower
  have hlive (i : UInt32) (key : FlowKey) :
      Settled (flows i) ∧ slotKey (flows i) = key ↔ cells flows i = .live key := by
    constructor
    · rintro ⟨hsettled, rfl⟩
      exact hsettled.slotCell
    · intro hcell
      exact ⟨good.table.settled_of_live hcell, (slotCell_eq_live.mp hcell).2⟩
  have hentry (key : FlowKey) : table.lookup key = shaderEntries config flows key :=
    congrFun hentries key
  refine ⟨?_, ?_, ?_⟩
  · intro i _ hsettled
    exact findKey_of_live good.table hsettled.slotCell
  · intro key
    rw [← Finmap.lookup_isSome, hentry]
    constructor
    · intro hsome
      have hne : findKey (tableParams config) flows key ≠ invalidIndex := by
        intro hmissed
        rw [shaderEntries, tableEntry, if_pos hmissed] at hsome
        cases hsome
      have hcell := live_of_findKey good.table hne
      exact ⟨_, UInt32.lt_iff_toNat_lt.mpr (good.table.live_lt hcapacity hcell),
        (hlive _ key).mpr hcell⟩
    · rintro ⟨i, -, hi⟩
      rw [shaderEntries, tableEntry_of_live good.table hcapacity ((hlive i key).mp hi)]
      rfl
  · intro i flow _ hsettled hlookup
    rw [hentry, shaderEntries, tableEntry_of_live good.table hcapacity hsettled.slotCell] at hlookup
    cases hlookup
    exact (slotAgrees_iff hsettled _).mpr rfl

/-- A step of the flow in one slot keeps the tables related. -/
theorem Related.step (h : Related params table flows) {key : FlowKey}
    (hfind : findKey params flows key = i) (hi : i ≠ invalidIndex)
    (hsettled : Settled (flows i)) {slot : FlowSlot} {entry entry' : Option Flow}
    (hafter : SlotAfter (flows i) slot entry) (hentry : Option.Rel SameCourse entry entry') :
    Related params (table.setEntry key entry') (Function.update flows i slot) := by
  obtain ⟨hhit, hlt⟩ := hit_of_findKey hfind hi
  have hkey : slotKey (flows i) = key := hhit.slotKey
  have hstates (hslot : Settled slot) :
      slot.state ≠ stateFree ∧ slot.state ≠ stateClaimed ∧ slot.state ≠ stateTombstone := by
    rcases hslot with hslot | hslot <;> rw [hslot] <;> decide
  have hmatches (key' : FlowKey) :
      flowMatches (Function.update flows i slot) i (keyHashOf key') key'.srcIp key'.dstIp
          (portsOf key') ↔ key' = key := by
    unfold flowMatches
    rw [decide_eq_true_eq, Function.update_self, hafter.keyHash, hhit.keyHash]
    have hwords := slotKey_eq_iff slot key'
    rw [hafter.slotKey, hkey] at hwords
    rw [← hwords]
    exact ⟨fun hsame => hsame.2.symm, fun hsame => by rw [hsame]; exact ⟨rfl, rfl⟩⟩
  -- the searches for the other keys go on as before
  have hpass (key' : FlowKey) (j : UInt32) (hpassed : Passed flows key' j) :
      Passed (Function.update flows i slot) key' j := by
    by_cases hj : j = i
    · subst hj
      have hne : key' ≠ key := by
        rintro rfl
        exact hpassed.2 hhit
      refine ⟨?_, fun hnew => hne ((hmatches key').mp hnew.2.2.2)⟩
      rw [Function.update_self]
      have hstate := hafter.state
      cases entry with
      | none =>
          have hstate : slot.state = stateTombstone := hstate
          rw [hstate]
          decide
      | some flow => exact (hstates hstate.1).1
    · unfold Passed Hit flowMatches at hpassed ⊢
      rw [Function.update_of_ne hj]
      exact hpassed
  have hothers (j : UInt32) (hj : j ≠ i) (hlt : j < params.flowCapacity)
      (hlive : Settled (flows j)) :
      findKey params (Function.update flows i slot) (slotKey (flows j)) = j := by
    refine findKey_frame (h.found j hlt hlive) (ne_invalidIndex_of_lt hlt) ?_ (hpass _)
    unfold Hit flowMatches
    rw [Function.update_of_ne hj]
    exact id
  have hunique (j : UInt32) (hlt : j < params.flowCapacity) (hlive : Settled (flows j))
      (hsame : slotKey (flows j) = key) : j = i := by
    rw [← h.found j hlt hlive, hsame, hfind]
  refine ⟨?_, ?_, ?_⟩
  · intro j hj hlive
    by_cases hji : j = i
    · subst hji
      rw [Function.update_self] at hlive ⊢
      rw [hafter.slotKey, hkey]
      refine findKey_frame hfind hi (fun _ => ?_) (hpass _)
      obtain ⟨hfree, hclaimed, htombstone⟩ := hstates hlive
      refine ⟨?_, ?_, ?_, (hmatches key).mpr rfl⟩ <;> rw [Function.update_self] <;> assumption
    · rw [Function.update_of_ne hji] at hlive ⊢
      exact hothers j hji hj hlive
  · intro key'
    rw [← Finmap.lookup_isSome]
    by_cases hkey' : key' = key
    · subst hkey'
      rw [lookup_setEntry]
      cases hentry with
      | none =>
          refine ⟨fun hnone => (by cases hnone), ?_⟩
          rintro ⟨j, hj, hlive, hsame⟩
          by_cases hji : j = i
          · subst hji
            rw [Function.update_self] at hlive
            exact absurd hlive (not_settled_of_tombstone hafter.state)
          · rw [Function.update_of_ne hji] at hlive hsame
            exact absurd (hunique j hj hlive hsame) hji
      | some hsame =>
          refine ⟨fun _ => ⟨i, hlt, ?_, ?_⟩, fun _ => rfl⟩
          · rw [Function.update_self]
            exact hafter.state.1
          · rw [Function.update_self, hafter.slotKey, hkey]
    · rw [lookup_setEntry_of_ne _ _ _ hkey', Finmap.lookup_isSome, h.keys]
      refine exists_congr fun j => and_congr_right fun _ => ?_
      by_cases hji : j = i
      · subst hji
        rw [Function.update_self, hafter.slotKey, hkey]
        exact ⟨fun hold => absurd hold.2.symm hkey', fun hnew => absurd hnew.2.symm hkey'⟩
      · rw [Function.update_of_ne hji]
  · intro j flow hj hlive hlookup
    by_cases hji : j = i
    · subst hji
      rw [Function.update_self] at hlive hlookup ⊢
      rw [hafter.slotKey, hkey, lookup_setEntry] at hlookup
      subst hlookup
      cases hentry with
      | some hsame =>
          rw [slotAgrees_iff hlive, hafter.state.2]
          exact hsame
    · rw [Function.update_of_ne hji] at hlive hlookup ⊢
      have hne : slotKey (flows j) ≠ key := fun hsame => hji (hunique j hj hlive hsame)
      rw [lookup_setEntry_of_ne _ _ _ hne] at hlookup
      exact h.agrees j flow hj hlive hlookup

end Related

/-- Both engines emit nothing, or both emit the reply with the same addresses,
ports, sequence number, acknowledgement, flags and response id; each carries its
own text of the response. -/
def SameAnswer (output : Option RawPacket) (words : Option (List UInt8)) : Prop :=
  output = none ∧ words = none ∨
    ∃ packet bytes key reply, output = some packet ∧ words = some bytes ∧
      parsed packet = some (replyView cpuResponse key reply) ∧
      parsedBytes bytes = some (replyView shaderResponse key reply)

theorem sameAnswer (key : FlowKey) (answer : Option Reply) :
    SameAnswer (answer.map (cpuReplyPacket key)) (answer.map (shaderReplyBytes key)) := by
  cases answer with
  | none => exact Or.inl ⟨rfl, rfl⟩
  | some reply =>
      exact Or.inr ⟨_, _, key, reply, rfl, rfl, parsed_builtPacket _ _,
        parsedBytes_shaderReplyBytes key reply⟩

section Step

variable {config : PacketEngineConfig} {packet : RawPacket} {invocation : Invocation}
variable {table : FlowTable} {flows : Flows}

/-- Behind the SYN branch an invocation leaves the table alone unless
`flow_find` returns a slot that holds a flow. -/
theorem segmentBranch_idle {params : EngineParams} {packetIndex inputBase : UInt32}
    {segment : Segment} {tcp : TcpPacketView} {inputWords : Words} (storage : Storage)
    (hsegment : segment.Of tcp) (hreset : ¬ IsReset tcp)
    (hidle : findKey params storage.flows tcp.key = invalidIndex ∨
      ¬ Settled (storage.flows (findKey params storage.flows tcp.key))) :
    segmentBranch params packetIndex segment storage inputWords inputBase (keyHashOf tcp.key)
      (portsOf tcp.key) = storage := by
  unfold segmentBranch
  rw [hsegment.flowFind_eq]
  generalize findKey params storage.flows tcp.key = base at hidle
  simp only
  rcases hidle with hbase | hstate
  · rw [if_pos hbase]
  · by_cases hbase : base = invalidIndex
    · rw [if_pos hbase]
    · have hrst : ¬ segment.flags &&& tcpRst ≠ 0 := (not_congr hsegment.rst_iff).not.mpr hreset
      rw [if_neg hbase, if_neg hrst, if_neg (fun h => hstate (Or.inl h)),
        if_pos (fun h => hstate (Or.inr h))]

/-- **One step of both engines.**  From related tables, a packet that neither
opens nor resets a flow is answered alike by both engines, and leaves related
tables behind. -/
theorem segment_simulation (hpresents : invocation.Presents packet)
    (hsegment : ∀ tcp, listened config packet = some tcp → ¬ IsReset tcp ∧ ¬ IsOpening tcp)
    (related : Related (tableParams config) table flows) (output : Words) :
    ∃ table' emission, processPacket table config packet = .ok (table', emission) ∧
      SameAnswer emission
        (invocation.readBack config (invocation.run config ⟨output, flows⟩)) ∧
      Related (tableParams config) table' (invocation.run config ⟨output, flows⟩).flows := by
  refine ⟨(cpuStep config table packet).1, (cpuStep config table packet).2,
    processPacket_eq table config packet, ?_⟩
  cases hview : listened config packet with
  | none =>
      obtain ⟨hflows, hwords⟩ := run_ignored hpresents hview flows output
      rw [cpuStep_of_not_listened hview, hflows, hwords]
      exact ⟨Or.inl ⟨rfl, rfl⟩, related⟩
  | some tcp =>
      obtain ⟨hreset, hopen⟩ := hsegment tcp hview
      obtain ⟨hparsed, hport⟩ := listened_eq_some.mp hview
      obtain ⟨segment, hof, hcarries, hmain⟩ := main_listened
        (invocation.presented config hpresents) hparsed (congrArg UInt16.toUInt32 hport)
        ⟨output, flows⟩
      rw [if_neg hopen] at hmain
      have hread (storage : Storage) (answer : Option Reply)
          (houtput : storage.outputData = replied (engineParams config invocation.wave.length)
            (UInt32.ofNat invocation.position) tcp.key
            (cleared (UInt32.ofNat invocation.position) output) answer) :
          invocation.readBack config storage = answer.map (shaderReplyBytes tcp.key) := by
        rw [Invocation.readBack, houtput]
        exact readBack_replied (Invocation.slotFits config hpresents) output tcp.key answer
      rw [cpuStep_of_listened hview]
      simp only [cpuReply, hview, Option.bind_some]
      have hfind := @findKey_engineParams config flows invocation.wave.length tcp.key
      by_cases hidle : findKey (tableParams config) flows tcp.key = invalidIndex ∨
          ¬ Settled (flows (findKey (tableParams config) flows tcp.key))
      · -- neither engine has a flow for the packet
        have hafter : invocation.run config ⟨output, flows⟩ =
            ⟨cleared (UInt32.ofNat invocation.position) output, flows⟩ :=
          hmain.trans (segmentBranch_idle _ hof hreset (by rw [hfind]; exact hidle))
        have habsent := Finmap.lookup_eq_none.mpr (related.absent rfl hidle)
        rw [hafter, hread _ none rfl]
        have hstep : cpuFlowStep (table.keys.card < config.flowCapacity) tcp.key
            (entries table tcp.key) tcp = (none, none) := by
          rw [entries, habsent]
          exact cpuFlowStep_absent _ _ hopen
        have hsame : table.setEntry tcp.key none = table := by
          rw [← habsent, setEntry_self]
        rw [hstep, hsame]
        exact ⟨Or.inl ⟨rfl, rfl⟩, related⟩
      · obtain ⟨hbase, hsettled⟩ := not_or.mp hidle
        rw [not_not] at hsettled
        obtain ⟨flow, hlookup, hcourse⟩ := related.lookup rfl hbase hsettled
        obtain ⟨⟨slot, hflows, hafter⟩, houtput, -⟩ := @segmentBranch_slot
          (engineParams config invocation.wave.length) (UInt32.ofNat invocation.position) _ _ _ _ _
          flows (cleared (UInt32.ofNat invocation.position) output) hsettled hof hcarries hfind hbase
        rw [if_neg hreset] at hafter houtput
        have hsame := @SameCourse.segmentStep _ _ tcp hcourse
        have hstep : cpuFlowStep (table.keys.card < config.flowCapacity) tcp.key
            (entries table tcp.key) tcp = segmentStep flow tcp := by
          rw [entries, hlookup]
          exact cpuFlowStep_segment _ _ _ hreset hopen
        rw [Invocation.run, hmain, hread _ _ houtput, hflows, hstep, hsame.reply]
        exact ⟨sameAnswer _ _, related.step rfl hbase hsettled hafter hsame.entry⟩

end Step

theorem segment_simulation_opened :
    ∃ (table : FlowTable) (flows : Flows) (invocation : Invocation),
      clientKey 1000 ∈ table ∧ invocation.Presents requestPacket ∧
      Related (tableParams fourSlots) table flows ∧
      ∃ table' emission, processPacket table fourSlots requestPacket = .ok (table', emission) ∧
        SameAnswer emission
          (invocation.readBack fourSlots (invocation.run fourSlots ⟨fun _ => 0, flows⟩)) ∧
        Related (tableParams fourSlots) table'
          (invocation.run fourSlots ⟨fun _ => 0, flows⟩).flows := by
  have valid := validateConfig_eq_ok.mp fourSlots_valid
  obtain ⟨tables, outputs, cpu⟩ := cpuRun_exists fourSlots [synPacket 1000]
  obtain ⟨flows, words, shader⟩ := shaderRun_exists fourSlots [synPacket 1000]
  obtain ⟨invocation, -, hpresents⟩ := Invocation.exists_presents requestPacket
  obtain ⟨hlinked, hopened⟩ := opened_linked cpu shader
  have related := related_of_entries valid.capacity_power valid.capacity_fits
    (shader.good valid.capacity_power valid.capacity_fits 1 (le_refl 1)) hlinked
  refine ⟨tables 1, flows 1, invocation, Finmap.mem_of_lookup_eq_some hopened, hpresents, related,
    segment_simulation hpresents ?_ related _⟩
  intro tcp hview
  have hparsed := (listened_eq_some.mp hview).1
  rw [requestPacket, parsed_builtPacket] at hparsed
  cases hparsed
  exact ⟨by decide, by decide⟩

end Shader
end Packet
end Gput
