import Gput.Packet.Agreement
import Gput.Packet.FlowRun

/-!
# Retransmitted requests

A request that arrives again is answered by the same bytes and executed once.
After a data segment is accepted in order the flow remembers the response
(`Remembers`), and nothing that may arrive between the segment and its copies
makes it forget.
-/

namespace Gput
namespace Packet

/-- A data segment without SYN, RST and FIN that a flow accepts in order. -/
structure AcceptedData (entry : Option Flow) (tcp : TcpPacketView) : Prop where
  data : tcp.payload ≠ []
  flags : tcp.flags &&& tcpSyn = 0 ∧ tcp.flags &&& tcpRst = 0 ∧ tcp.flags &&& tcpFin = 0
  inOrder : ∃ flow, entry = some flow ∧ tcp.seq = flow.recvNext ∧
    (flow.state = .established ∨ CompletesHandshake flow tcp)

/-- What may arrive of a flow between a segment and its copies: copies, SYNs
without ACK and RST, and segments without payload, FIN and RST. -/
def Harmless (tcp other : TcpPacketView) : Prop :=
  other = tcp ∨ (IsOpening other ∧ ¬ IsReset other) ∨
    (other.payload = [] ∧ other.flags &&& tcpFin = 0 ∧ ¬ IsReset other)

/-- The flow remembers the response to a segment. -/
structure Remembers (tcp : TcpPacketView) (first : Reply) (sendNext : UInt32) (flow : Flow) :
    Prop where
  state : flow.state = .established
  recvNext : flow.recvNext = tcp.seq + UInt32.ofNat tcp.payload.length
  sendNext : flow.sendNext = sendNext
  lastResponse : ∃ id, first.response = some id ∧ flow.lastResponse =
    some { clientSeq := tcp.seq, clientLen := tcp.payload.length, responseSeq := first.seq,
           responseAck := first.ack, responseId := id }
  flags : first.flags = tcpAck ||| tcpPsh

section Remembers

variable {tcp other : TcpPacketView} {first : Reply} {sendNext : UInt32} {flow : Flow}

/-- A segment accepted in order is remembered with its answer. -/
theorem AcceptedData.remembered {entry : Option Flow} (h : AcceptedData entry tcp) :
    ∃ flow first, (plainStep entry tcp).1 = some flow ∧ (plainStep entry tcp).2 = some first ∧
      Remembers tcp first flow.sendNext flow := by
  obtain ⟨hdata, ⟨-, hrst, hfin⟩, old, rfl, hseq, hstate⟩ := h
  have hreset : ¬ IsReset tcp := fun hset => hset hrst
  -- the flow behind the handshake
  obtain ⟨ready, hopen, hrecv, hestablished⟩ : ∃ flow,
      plainStep (some old) tcp = establishedStep flow tcp ∧ flow.recvNext = old.recvNext ∧
        flow.state = .established := by
    rw [plainStep, if_neg hreset]
    cases hcase : old.state with
    | established =>
        exact ⟨_, segmentStep_established old tcp hcase, by simp, by simpa using hcase⟩
    | synReceived =>
        have hdone : CompletesHandshake old tcp := by
          rcases hstate with hstate | hdone
          · rw [hcase] at hstate
            cases hstate
          · exact hdone
        rcases segmentStep_halfOpen old tcp hcase with ⟨-, hstep⟩ | ⟨hno, -⟩
        · exact ⟨_, hstep, by simp, by simp⟩
        · exact absurd hdone hno
  have hnext : nextAck tcp = tcp.seq + UInt32.ofNat tcp.payload.length := by
    rw [nextAck, if_neg (not_not.mpr hfin)]
    exact UInt32.add_zero _
  have hstep : establishedStep ready tcp = (some (answeredFlow ready tcp),
      some (answer ready tcp)) := by
    unfold establishedStep
    rw [if_neg (by rw [hrecv]; exact not_not.mpr hseq), if_neg hdata, if_neg (not_not.mpr hfin)]
  rw [hopen, hstep]
  exact ⟨_, _, rfl, rfl, hestablished, hnext, rfl, ⟨_, rfl, rfl⟩, rfl⟩

/-- A copy arrives out of order. -/
theorem Remembers.copy_seq (h : Remembers tcp first sendNext flow) (hdata : tcp.payload ≠ [])
    (hsize : tcp.payload.length < 2 ^ 32) : tcp.seq ≠ flow.recvNext := by
  rw [h.recvNext]
  intro heq
  have hzero : UInt32.ofNat tcp.payload.length = 0 := by
    have := congrArg (· - tcp.seq) heq
    simpa [UInt32.add_comm tcp.seq] using this.symm
  have hnat := congrArg UInt32.toNat hzero
  rw [UInt32.toNat_ofNat', Nat.mod_eq_of_lt hsize] at hnat
  exact hdata (List.length_eq_zero_iff.mp hnat)

theorem Remembers.noteAck (h : Remembers tcp first sendNext flow) :
    Remembers tcp first sendNext (noteAck flow other) := by
  refine ⟨?_, ?_, ?_, ?_, h.flags⟩
  · simpa using h.state
  · simpa using h.recvNext
  · simpa using h.sendNext
  · simpa using h.lastResponse

/-- A copy is answered by the first reply, and the flow still remembers it. -/
theorem Remembers.copy (h : Remembers tcp first sendNext flow) (hdata : tcp.payload ≠ [])
    (hsize : tcp.payload.length < 2 ^ 32) (hreset : ¬ IsReset tcp) :
    plainStep (some flow) tcp = (some (Packet.noteAck flow tcp), some first) := by
  have hnoted : Remembers tcp first sendNext (Packet.noteAck flow tcp) := h.noteAck
  obtain ⟨id, hid, hlast⟩ := hnoted.lastResponse
  rw [plainStep, if_neg hreset, segmentStep_established flow tcp h.state]
  unfold establishedStep
  rw [if_pos (hnoted.copy_seq hdata hsize)]
  have hreply : outOfOrderReply (Packet.noteAck flow tcp) tcp = first := by
    rw [outOfOrderReply, hlast]
    obtain ⟨seq, ack, flags, response⟩ := first
    have hflags : flags = tcpAck ||| tcpPsh := h.flags
    have hid : response = some id := hid
    rw [hflags, hid]
    exact if_pos ⟨rfl, rfl⟩
  rw [hreply]

/-- A segment without payload, FIN and RST leaves the flow as it was, but for the
noted acknowledgement. -/
theorem Remembers.empty (h : Remembers tcp first sendNext flow) (hempty : other.payload = [])
    (hfin : other.flags &&& tcpFin = 0) (hreset : ¬ IsReset other) :
    (plainStep (some flow) other).1 = some (Packet.noteAck flow other) := by
  rw [plainStep, if_neg hreset, segmentStep_established flow other h.state]
  unfold establishedStep
  by_cases hseq : other.seq ≠ (Packet.noteAck flow other).recvNext
  · rw [if_pos hseq]
  · rw [if_neg hseq, if_pos hempty, if_pos hfin]

end Remembers

section Runs

variable {steps : FlowSteps} {views : Nat → Option TcpPacketView}
variable {tables : Nat → FlowKey → Option Flow} {replies : Nat → Option Reply} {count n : Nat}
variable {tcp : TcpPacketView} {first : Reply} {sendNext : UInt32} {flow : Flow}

/-- Nothing harmless makes the flow forget. -/
theorem FlowRun.remembers_step (run : FlowRun steps views tables replies count) (hn : n < count)
    (hdata : tcp.payload ≠ []) (hsize : tcp.payload.length < 2 ^ 32) (hopen : ¬ IsOpening tcp)
    (hreset : ¬ IsReset tcp)
    (hharmless : ∀ other, views n = some other → other.key = tcp.key → Harmless tcp other)
    (hentry : tables n tcp.key = some flow) (h : Remembers tcp first sendNext flow) :
    ∃ flow', tables (n + 1) tcp.key = some flow' ∧ Remembers tcp first sendNext flow' := by
  by_cases hthis : ∃ other, views n = some other ∧ other.key = tcp.key
  · obtain ⟨other, hview, hkey⟩ := hthis
    have plain (hplain : ¬ IsOpening other)
        (hstep : (plainStep (some flow) other).1 = some (noteAck flow other)) :
        ∃ flow', tables (n + 1) tcp.key = some flow' ∧ Remembers tcp first sendNext flow' := by
      refine ⟨noteAck flow other, ?_, h.noteAck⟩
      rw [(run.plain_step hn hview hplain).1, hkey, Function.update_self, hentry, hstep]
    rcases hharmless other hview hkey with rfl | ⟨hsyn, hrst⟩ | ⟨hempty, hfin, hrst⟩
    · exact plain hopen (congrArg Prod.fst (h.copy hdata hsize hreset))
    · refine ⟨flow, ?_, h⟩
      rw [(run.step n other hn hview).1, hkey, Function.update_self, hentry,
        run.repeated n other flow hsyn hrst h.state]
    · by_cases hsyn : IsOpening other
      · refine ⟨flow, ?_, h⟩
        rw [(run.step n other hn hview).1, hkey, Function.update_self, hentry,
          run.repeated n other flow hsyn hrst h.state]
      · exact plain hsyn (h.empty hempty hfin hrst)
  · refine ⟨flow, ?_, h⟩
    rw [run.others hn (fun other hview hkey => hthis ⟨other, hview, hkey⟩)]
    exact hentry

/-- Every copy is answered by the first reply, and changes nothing that the flow
remembers. -/
theorem FlowRun.copies (run : FlowRun steps views tables replies count) (hn : n < count)
    (hview : views n = some tcp) (hsize : tcp.payload.length < 2 ^ 32)
    (haccepted : AcceptedData (tables n tcp.key) tcp) {m : Nat} (hnm : n < m) (hm : m < count)
    (hharmless : ∀ k other, n < k → k < m → views k = some other → other.key = tcp.key →
      Harmless tcp other)
    (hcopy : views m = some tcp) :
    ∃ first flow, replies n = some first ∧ replies m = some first ∧
      tables m tcp.key = some flow ∧ tables (m + 1) tcp.key = some (noteAck flow tcp) ∧
      Remembers tcp first flow.sendNext flow := by
  have hopen : ¬ IsOpening tcp := fun h => h.1 haccepted.flags.1
  have hreset : ¬ IsReset tcp := fun h => h haccepted.flags.2.1
  obtain ⟨flow, first, hafter, hreply, hremembers⟩ := haccepted.remembered
  obtain ⟨hnext, hsent⟩ := run.plain_step hn hview hopen
  have hstart : tables (n + 1) tcp.key = some flow := by
    rw [hnext, Function.update_self, hafter]
  obtain ⟨flow', hbefore, h⟩ : ∃ flow', tables m tcp.key = some flow' ∧
      Remembers tcp first flow.sendNext flow' := by
    clear hcopy
    induction m, Nat.succ_le_of_lt hnm using Nat.le_induction with
    | base => exact ⟨flow, hstart, hremembers⟩
    | succ m hlt ih =>
        obtain ⟨flow', hbefore, h⟩ :=
          ih hlt (by omega) (fun k other hk hkm => hharmless k other hk (by omega))
        exact run.remembers_step (by omega) haccepted.data hsize hopen hreset
          (fun other => hharmless m other hlt (Nat.lt_succ_self m)) hbefore h
  have hstep := h.copy haccepted.data hsize hreset
  obtain ⟨hnext', hsent'⟩ := run.plain_step hm hcopy hopen
  rw [hbefore, hstep] at hnext' hsent'
  refine ⟨first, flow', hsent.trans hreply, hsent', hbefore, ?_, ?_⟩
  · rw [hnext', Function.update_self]
  · rw [h.sendNext]
    exact h

end Runs

/-- Packet `m` is answered by the bytes that answered packet `n`, and leaves the
sequence numbers and the last response of the flow alone. -/
def AnsweredAgain {α : Type} (outputs : Nat → Option α) (tables : Nat → FlowKey → Option Flow)
    (key : FlowKey) (n m : Nat) : Prop :=
  ∃ packet flow flow', outputs n = some packet ∧ outputs m = some packet ∧
    tables m key = some flow ∧ tables (m + 1) key = some flow' ∧
    flow'.recvNext = flow.recvNext ∧ flow'.sendNext = flow.sendNext ∧
    flow'.lastResponse = flow.lastResponse

section Engines

variable {config : PacketEngineConfig} {packets : List RawPacket} {n m : Nat}
variable {tcp : TcpPacketView}

theorem payload_lt_of_viewAt (hn : n < packets.length)
    (hview : viewAt config packets n = some tcp) : tcp.payload.length < 2 ^ 32 := by
  rw [viewAt_eq hn] at hview
  obtain ⟨hp, rfl⟩ := parsed_eq_some.mp (listened_eq_some.mp hview).1
  have hsize := packets[n].length_le
  have hmax := hp.total_max
  unfold maxRawPacketBytes at hsize
  rw [payload_length _ hp]
  omega

namespace Shader

section OutOfOrder

variable {params : EngineParams} {packetIndex inputBase base : UInt32} {segment : Segment}
variable {inputWords output : Words} {flows : Flows}

/-- A segment out of order only has its acknowledgement noted. -/
theorem segmentBranch_outOfOrder (hsegment : segment.Of tcp) (hreset : ¬ IsReset tcp)
    (hfind : findKey params flows tcp.key = base) (hbase : base ≠ invalidIndex)
    (hstate : (flows base).state = stateEstablished) (hseq : tcp.seq ≠ (flows base).recvNext) :
    (segmentBranch params packetIndex segment ⟨output, flows⟩ inputWords inputBase
        (keyHashOf tcp.key) (portsOf tcp.key)).flows =
      Function.update flows base (notedSlot (flows base) segment) := by
  have hrst : ¬ segment.flags &&& tcpRst ≠ 0 := (not_congr hsegment.rst_iff).not.mpr hreset
  have hother : stateEstablished ≠ stateSynReceived := by decide
  have hrecv : (notedSlot (flows base) segment).recvNext = (flows base).recvNext := by
    unfold notedSlot
    split <;> rfl
  have hlate : segment.seq ≠ (notedSlot (flows base) segment).recvNext := by
    rw [hrecv, hsegment.seq]
    exact hseq
  unfold segmentBranch
  simp only [hsegment.flowFind_eq, hfind]
  rw [if_neg hbase, if_neg hrst, if_neg (by rw [hstate]; exact hother),
    if_neg (not_not.mpr hstate)]
  unfold establishedSegment
  simp only
  rw [show (if segment.flags &&& tcpAck ≠ 0 ∧ segment.ack = (flows base).sendNext then
      { flows base with sendUnacked := segment.ack } else flows base) =
    notedSlot (flows base) segment from rfl, if_pos hlate]
  split_ifs <;> rfl

end OutOfOrder

/-- Between two tables only noted acknowledgements differ. -/
def OnlyAcksNoted (before after : Flows) : Prop :=
  ∀ i, after i = { before i with sendUnacked := (after i).sendUnacked }

theorem onlyAcksNoted_update (flows : Flows) (base : UInt32) (segment : Segment) :
    OnlyAcksNoted flows (Function.update flows base (notedSlot (flows base) segment)) := by
  intro i
  by_cases hi : i = base
  · subst hi
    rw [Function.update_self]
    unfold notedSlot
    split <;> rfl
  · rw [Function.update_of_ne hi]

/-- A segment that an established flow does not expect changes no other word of
the slots. -/
theorem ShaderRun.onlyAcksNoted {flows : Nat → Flows} {outputs : Nat → Option (List UInt8)}
    (valid : ValidConfig config) (run : ShaderRun config packets flows outputs)
    (hm : m < packets.length) (hview : viewAt config packets m = some tcp)
    (hopen : ¬ IsOpening tcp) (hreset : ¬ IsReset tcp) {flow : Flow}
    (hentry : shaderEntries config (flows m) tcp.key = some flow)
    (hstate : flow.state = .established) (hseq : tcp.seq ≠ flow.recvNext) :
    OnlyAcksNoted (flows m) (flows (m + 1)) := by
  have good := run.good valid.capacity_power valid.capacity_fits m (Nat.le_of_lt hm)
  obtain ⟨invocation, output, hpresents, hflows, -⟩ := run.step m hm
  rw [viewAt_eq hm] at hview
  obtain ⟨hparsed, hport⟩ := listened_eq_some.mp hview
  obtain ⟨segment, hof, -, hmain⟩ := main_listened (invocation.presented config hpresents)
    hparsed (congrArg UInt16.toUInt32 hport) ⟨output, flows m⟩
  have hfind := @findKey_engineParams config (flows m) invocation.wave.length tcp.key
  have hfound : findKey (tableParams config) (flows m) tcp.key ≠ invalidIndex := by
    intro hmissed
    rw [shaderEntries, tableEntry, if_pos hmissed] at hentry
    cases hentry
  rw [shaderEntries, tableEntry, if_neg hfound] at hentry
  cases hentry
  have hestablished : (flows m (findKey (tableParams config) (flows m) tcp.key)).state =
      stateEstablished := by
    rcases good.table.settled_of_live (live_of_findKey good.table hfound) with h | h
    · rw [show (slotFlow _).state = .synReceived from if_pos h] at hstate
      cases hstate
    · exact h
  rw [if_neg hopen] at hmain
  rw [← hflows, Invocation.run, hmain,
    segmentBranch_outOfOrder hof hreset hfind hfound hestablished hseq]
  exact onlyAcksNoted_update _ _ _

end Shader

/-- **Retransmitted requests.**  In every run of either engine, a data segment
that was accepted in order is answered again by the same bytes whenever it
arrives again, and changes neither the sequence numbers nor the last response of
its flow, whatever harmless segments of the flow and whatever packets of other
flows arrive in between. -/
theorem retransmission_answered_again (hvalid : validateConfig config = .ok ())
    (packets : List RawPacket) {n m : Nat} {tcp : TcpPacketView} (hnm : n < m)
    (hm : m < packets.length) (hview : viewAt config packets n = some tcp)
    (hharmless : ∀ k other, n < k → k < m → viewAt config packets k = some other →
      other.key = tcp.key → Harmless tcp other)
    (hcopy : viewAt config packets m = some tcp) :
    (∀ tables outputs, CpuRun config packets tables outputs →
      AcceptedData (entries (tables n) tcp.key) tcp →
      AnsweredAgain outputs (fun n => entries (tables n)) tcp.key n m) ∧
      ∀ flows outputs, Shader.ShaderRun config packets flows outputs →
        AcceptedData (Shader.shaderEntries config (flows n) tcp.key) tcp →
        AnsweredAgain outputs (fun n => Shader.shaderEntries config (flows n)) tcp.key n m ∧
          Shader.OnlyAcksNoted (flows m) (flows (m + 1)) := by
  have valid := validateConfig_eq_ok.mp hvalid
  have hn : n < packets.length := by omega
  have hsize := payload_lt_of_viewAt hn hview
  refine ⟨?_, ?_⟩
  · intro tables outputs run haccepted
    obtain ⟨first, flow, hfirst, hagain, hbefore, hafter, -⟩ :=
      run.flowRun.copies hn hview hsize haccepted hnm hm hharmless hcopy
    refine ⟨cpuReplyPacket tcp.key first, flow, noteAck flow tcp, ?_, ?_, hbefore, hafter,
      noteAck_recvNext flow tcp, noteAck_sendNext flow tcp, noteAck_lastResponse flow tcp⟩
    · rw [(run.step_listened hn hview).2.2, hfirst, Option.map_some]
    · rw [(run.step_listened hm hcopy).2.2, hagain, Option.map_some]
  · intro flows outputs run haccepted
    have hstep {k : Nat} (hk : k < packets.length) (hviewk : viewAt config packets k = some tcp) :=
      (run.step_listened valid.capacity_power valid.capacity_fits hk hviewk).2.2.2
    obtain ⟨first, flow, hfirst, hagain, hbefore, hafter, hremembers⟩ :=
      (run.flowRun valid).copies hn hview hsize haccepted hnm hm hharmless hcopy
    refine ⟨⟨Shader.shaderReplyBytes tcp.key first, flow, noteAck flow tcp, ?_, ?_, hbefore, hafter,
      noteAck_recvNext flow tcp, noteAck_sendNext flow tcp, noteAck_lastResponse flow tcp⟩, ?_⟩
    · rw [hstep hn hview, hfirst, Option.map_some]
    · rw [hstep hm hcopy, hagain, Option.map_some]
    · exact run.onlyAcksNoted valid hm hcopy (fun h => h.1 haccepted.flags.1)
        (fun h => h haccepted.flags.2.1) hbefore hremembers.state
        (hremembers.copy_seq haccepted.data hsize)

theorem retransmission_answered_again_request :
    ∃ tables outputs,
      CpuRun fourSlots [synPacket 1000, requestPacket, requestPacket] tables outputs ∧
        AnsweredAgain outputs (fun n => entries (tables n)) (clientKey 1000) 1 2 := by
  obtain ⟨tables, outputs, cpu⟩ :=
    cpuRun_exists fourSlots [synPacket 1000, requestPacket, requestPacket]
  obtain ⟨flows, words, shader⟩ :=
    Shader.shaderRun_exists fourSlots [synPacket 1000, requestPacket, requestPacket]
  have hlistened := listened_eq_some.mpr
    (show parsed requestPacket = some _ ∧ (clientKey 1000).dstPort = fourSlots.listenPort from
      ⟨parsed_builtPacket _ _, rfl⟩)
  obtain ⟨hcpu, -⟩ := retransmission_answered_again fourSlots_valid
    [synPacket 1000, requestPacket, requestPacket] (by decide : 1 < 2) (by decide) hlistened
    (fun k other hk hkm => by omega) hlistened
  refine ⟨tables, outputs, cpu, hcpu tables outputs cpu ?_⟩
  obtain ⟨-, hopened⟩ := opened_linked cpu shader
  exact ⟨by decide +kernel, by decide, _, hopened, by decide, Or.inr (by decide)⟩

end Engines

end Packet
end Gput
