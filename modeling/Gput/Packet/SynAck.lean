import Gput.Packet.Agreement
import Gput.Packet.FlowRun

/-!
# The SYN-ACK and the SYN that it answers

A SYN-ACK acknowledges the SYN that elicited it, and the acknowledgement of the
SYN-ACK establishes the flow.  The CPU engine does so in every run.  The shader
answers a SYN from the slot of its flow, and so it does exactly when a flow that
is still half open expects the sequence number behind that of the SYN.
-/

namespace Gput
namespace Packet

/-- What is asked of step `n` when it answers a SYN by a SYN-ACK. -/
def AcknowledgesSyn (views emissions : Nat → Option TcpPacketView)
    (tables : Nat → FlowKey → Option Flow) (count n : Nat) : Prop :=
  ∀ syn answer, views n = some syn → IsOpening syn → ¬ IsReset syn →
    emissions n = some answer → answer.flags = tcpSyn ||| tcpAck →
    answer.seq = (flowHash syn.key ^^^ 0xa5a55a5a) ∧ answer.ack = syn.seq + 1 ∧
      ∀ m ack, n < m → m < count →
        (∀ k other, n < k → k < m → views k = some other → other.key ≠ syn.key) →
        views m = some ack → ack.key = syn.key → ack.flags = tcpAck → ack.payload = [] →
        ack.seq = syn.seq + 1 → ack.ack = answer.seq + 1 →
        ∃ flow, tables (m + 1) syn.key = some flow ∧ flow.state = .established

/-- A flow that is half open when a SYN arrives expects the sequence number
behind that of the SYN. -/
def ExpectsSyn (views : Nat → Option TcpPacketView) (tables : Nat → FlowKey → Option Flow)
    (n : Nat) : Prop :=
  ∀ syn flow, views n = some syn → IsOpening syn → ¬ IsReset syn →
    tables n syn.key = some flow → flow.state = .synReceived → flow.recvNext = syn.seq + 1

section Rules

variable {key : FlowKey} {entry entry' : Option Flow} {tcp : TcpPacketView} {reply : Reply}

theorem openingReply_halfOpen {flow : Flow}
    (hflags : (openingReply flow).flags = tcpSyn ||| tcpAck) : flow.state = .synReceived := by
  cases hstate : flow.state with
  | synReceived => rfl
  | established =>
      rw [openingReply, hstate] at hflags
      exact absurd hflags (by decide : ¬ tcpAck = tcpSyn ||| tcpAck)

/-- A SYN-ACK is the answer of the half-open flow that the SYN leaves behind. -/
theorem SegmentRule.synAck (h : SegmentRule key entry tcp entry' (some reply))
    (hopen : IsOpening tcp) (hflags : reply.flags = tcpSyn ||| tcpAck) :
    ∃ flow, entry' = some flow ∧ flow.state = .synReceived ∧ reply = openingReply flow := by
  generalize hsent : some reply = sent at h
  cases h with
  | drop => cases hsent
  | ignore => cases hsent
  | opened =>
      cases hsent
      exact ⟨_, rfl, rfl, rfl⟩
  | reopened =>
      cases hsent
      exact ⟨_, rfl, rfl, rfl⟩
  | repeated flow =>
      cases hsent
      exact ⟨flow, rfl, openingReply_halfOpen hflags, rfl⟩
  | segment _ _ hplain => exact absurd hopen hplain

/-- The acknowledgement of a SYN-ACK establishes the flow. -/
theorem plainStep_established {flow : Flow} (hstate : flow.state = .synReceived)
    (hflags : tcp.flags = tcpAck) (hempty : tcp.payload = []) (hseq : tcp.seq = flow.recvNext)
    (hack : tcp.ack = flow.sendNext) :
    ∃ flow', (plainStep (some flow) tcp).1 = some flow' ∧ flow'.state = .established := by
  have hreset : ¬ IsReset tcp := by
    unfold IsReset
    rw [hflags]
    decide
  have hdone : CompletesHandshake flow tcp := ⟨by rw [hflags]; decide, hack, hseq⟩
  have hfin : tcp.flags &&& tcpFin = 0 := by
    rw [hflags]
    decide
  rcases segmentStep_halfOpen flow tcp hstate with ⟨-, hstep⟩ | ⟨hno, -⟩
  · refine ⟨noteAck (establish flow tcp) tcp, ?_, by simp⟩
    rw [plainStep, if_neg hreset, hstep]
    unfold establishedStep
    rw [if_neg (by simpa using hseq), if_pos hempty, if_pos hfin]
  · exact absurd hdone hno

end Rules

section Runs

variable {steps : FlowSteps} {views emissions : Nat → Option TcpPacketView}
variable {tables : Nat → FlowKey → Option Flow} {replies : Nat → Option Reply} {count n : Nat}
variable {response : UInt32 → List UInt8}

/-- What a SYN-ACK says, and which flow stands behind it. -/
theorem EngineRun.synAck (run : EngineRun views tables replies count)
    (hemits : Emits response views replies emissions count) (hn : n < count)
    {syn answer : TcpPacketView} (hview : views n = some syn) (hopen : IsOpening syn)
    (hanswer : emissions n = some answer) (hflags : answer.flags = tcpSyn ||| tcpAck) :
    ∃ flow, tables (n + 1) syn.key = some flow ∧ flow.state = .synReceived ∧
      flow.sendNext = serverIsn syn.key + 1 ∧ answer.seq = serverIsn syn.key ∧
      answer.ack = flow.recvNext := by
  have hstep := run.step n hn
  unfold PacketRule at hstep
  rw [hview] at hstep
  obtain ⟨entry, hnext, hrule⟩ := hstep
  rw [hemits n hn, hview, Option.bind_some] at hanswer
  obtain ⟨reply, hreply, rfl⟩ := Option.map_eq_some_iff.mp hanswer
  rw [hreply] at hrule
  obtain ⟨flow, rfl, hstate, rfl⟩ := hrule.synAck hopen hflags
  have hentry : tables (n + 1) syn.key = some flow := by
    rw [hnext, Function.update_self]
  obtain ⟨_, _, _, -, -, -, -, hexpect, -⟩ := (run.grounded (n + 1) hn syn.key flow hentry).history
  have hsend := (hexpect hstate).2
  have hopened : openingReply flow =
      { seq := flow.sendNext - 1, ack := flow.recvNext, flags := tcpSyn ||| tcpAck,
        response := none } := by
    rw [openingReply, hstate]
  refine ⟨flow, hentry, hstate, hsend, ?_, ?_⟩
  · show (openingReply flow).seq = serverIsn syn.key
    rw [hopened]
    show flow.sendNext - 1 = serverIsn syn.key
    rw [hsend, UInt32.add_sub_cancel]
  · show (openingReply flow).ack = flow.recvNext
    rw [hopened]

/-- A SYN is acknowledged exactly when the flow that it leaves behind expects the
sequence number behind it. -/
theorem FlowRun.acknowledges_iff (flowRun : FlowRun steps views tables replies count)
    (run : EngineRun views tables replies count)
    (hemits : Emits response views replies emissions count) (hn : n < count) :
    AcknowledgesSyn views emissions tables count n ↔
      ∀ syn answer flow, views n = some syn → IsOpening syn → ¬ IsReset syn →
        emissions n = some answer → answer.flags = tcpSyn ||| tcpAck →
        tables (n + 1) syn.key = some flow → flow.state = .synReceived →
        flow.recvNext = syn.seq + 1 := by
  constructor
  · intro h syn answer flow hview hopen hreset hanswer hflags hentry _
    obtain ⟨flow', hentry', -, -, -, hack⟩ := run.synAck hemits hn hview hopen hanswer hflags
    cases hentry.symm.trans hentry'
    rw [← hack]
    exact (h syn answer hview hopen hreset hanswer hflags).2.1
  · intro h syn answer hview hopen hreset hanswer hflags
    obtain ⟨flow, hentry, hstate, hsend, hseq, hack⟩ :=
      run.synAck hemits hn hview hopen hanswer hflags
    have hrecv := h syn answer flow hview hopen hreset hanswer hflags hentry hstate
    refine ⟨hseq, hack.trans hrecv, ?_⟩
    intro m ack hnm hm hothers hviewAck hkey hflagsAck hempty hseqAck hackAck
    have hbefore : tables m syn.key = some flow :=
      (flowRun.untouched hnm (Nat.le_of_lt hm) (fun k other hk => hothers k other hk)).trans hentry
    have hplain : ¬ IsOpening ack := by
      unfold IsOpening
      rw [hflagsAck]
      decide
    obtain ⟨flow', hstep, hestablished⟩ := plainStep_established hstate hflagsAck hempty
      (hseqAck.trans hrecv.symm) (hackAck.trans (by rw [hseq, hsend]))
    refine ⟨flow', ?_, hestablished⟩
    rw [(flowRun.plain_step hm hviewAck hplain).1, hkey, Function.update_self, hbefore, hstep]

end Runs

section Engines

variable {config : PacketEngineConfig} {packets : List RawPacket}

/-- The CPU engine acknowledges every SYN that it answers. -/
theorem CpuRun.acknowledges {tables : Nat → FlowTable} {outputs : Nat → Option RawPacket}
    (run : CpuRun config packets tables outputs) {n : Nat} (hn : n < packets.length) :
    AcknowledgesSyn (viewAt config packets) (cpuEmission outputs) (fun n => entries (tables n))
      packets.length n := by
  rw [run.flowRun.acknowledges_iff run.engineRun run.emits hn]
  intro syn answer flow hview hopen hreset _ _ hentry hstate
  rw [(run.flowRun.step n syn hn hview).1, Function.update_self] at hentry
  cases hbefore : entries (tables n) syn.key with
  | none =>
      rw [hbefore, cpuFlowStep_open _ _ hreset hopen] at hentry
      split_ifs at hentry
      cases hentry
      rfl
  | some old =>
      rw [hbefore, cpuFlowStep_reopen _ _ old hreset hopen] at hentry
      cases hentry
      by_cases hrestart : old.state = .synReceived ∧ old.recvNext ≠ syn.seq + 1
      · rw [reopen, if_pos hrestart]
        rfl
      · rw [reopen, if_neg hrestart] at hstate ⊢
        by_contra hrecv
        exact hrestart ⟨hstate, hrecv⟩

/-- The shader acknowledges a SYN exactly when a half-open flow expects it. -/
theorem Shader.ShaderRun.acknowledges_iff {flows : Nat → Shader.Flows}
    {outputs : Nat → Option (List UInt8)} (valid : ValidConfig config)
    (run : Shader.ShaderRun config packets flows outputs) {n : Nat} (hn : n < packets.length) :
    AcknowledgesSyn (viewAt config packets) (shaderEmission outputs)
        (fun n => Shader.shaderEntries config (flows n)) packets.length n ↔
      ExpectsSyn (viewAt config packets) (fun n => Shader.shaderEntries config (flows n)) n := by
  have flowRun := run.flowRun valid
  rw [flowRun.acknowledges_iff (run.engineRun valid.capacity_power valid.capacity_fits)
    (run.emits valid) hn]
  constructor
  · intro h syn flow hview hopen hreset hbefore hstate
    obtain ⟨hnext, hreply⟩ := flowRun.step n syn hn hview
    have hbefore : Shader.shaderEntries config (flows n) syn.key = some flow := hbefore
    rw [hbefore, Shader.shaderFlowStep_repeated _ _ flow hopen] at hnext hreply
    have hanswer := run.emits valid n hn
    rw [hview, hreply, Option.bind_some, Option.map_some] at hanswer
    have hopened : (openingReply flow).flags = Packet.tcpSyn ||| Packet.tcpAck := by
      unfold openingReply
      rw [hstate]
    refine h syn _ flow hview hopen hreset hanswer hopened ?_ hstate
    rw [hnext, Function.update_self]
  · intro h syn answer flow hview hopen hreset _ _ hentry hstate
    rw [(flowRun.step n syn hn hview).1, Function.update_self] at hentry
    cases hbefore : Shader.shaderEntries config (flows n) syn.key with
    | none =>
        rw [hbefore, Shader.shaderFlowStep_open _ _ hopen] at hentry
        split_ifs at hentry
        · cases hentry
          rfl
    | some old =>
        rw [hbefore, Shader.shaderFlowStep_repeated _ _ old hopen] at hentry
        cases hentry
        exact h syn _ hview hopen hreset hbefore hstate

/-- **A SYN-ACK acknowledges the SYN that elicited it.**  In every run of the CPU
engine it does; in a run of the shader it does at exactly the steps at which a
half-open flow expects the SYN. -/
theorem synAck_acknowledges_iff (hvalid : validateConfig config = .ok ())
    (packets : List RawPacket) :
    (∀ tables outputs, CpuRun config packets tables outputs → ∀ n, n < packets.length →
      AcknowledgesSyn (viewAt config packets) (cpuEmission outputs) (fun n => entries (tables n))
        packets.length n) ∧
      ∀ flows outputs, Shader.ShaderRun config packets flows outputs → ∀ n, n < packets.length →
        (AcknowledgesSyn (viewAt config packets) (shaderEmission outputs)
            (fun n => Shader.shaderEntries config (flows n)) packets.length n ↔
          ExpectsSyn (viewAt config packets) (fun n => Shader.shaderEntries config (flows n)) n) :=
  ⟨fun _ _ run _ hn => run.acknowledges hn,
    fun _ _ run _ hn => run.acknowledges_iff (validateConfig_eq_ok.mp hvalid) hn⟩

theorem synAck_acknowledges_iff_conversation :
    ∃ flows outputs, Shader.ShaderRun fourSlots conversation flows outputs ∧
      ∀ n, n < 6 →
        (AcknowledgesSyn (viewAt fourSlots conversation) (shaderEmission outputs)
            (fun n => Shader.shaderEntries fourSlots (flows n)) 6 n ↔
          ExpectsSyn (viewAt fourSlots conversation)
            (fun n => Shader.shaderEntries fourSlots (flows n)) n) := by
  obtain ⟨flows, outputs, run⟩ := Shader.shaderRun_exists fourSlots conversation
  exact ⟨flows, outputs, run,
    (synAck_acknowledges_iff fourSlots_valid conversation).2 flows outputs run⟩

/-- The shader answers a client that starts its handshake over with the
acknowledgement of the first SYN. -/
theorem synAck_stale_on_restart :
    validateConfig fourSlots = .ok () ∧
      ∃ flows outputs, Shader.ShaderRun fourSlots [synPacket 1000, restartedPacket] flows outputs ∧
        ¬ AcknowledgesSyn (viewAt fourSlots [synPacket 1000, restartedPacket])
          (shaderEmission outputs) (fun n => Shader.shaderEntries fourSlots (flows n)) 2 1 := by
  have valid := validateConfig_eq_ok.mp fourSlots_valid
  obtain ⟨tables, emissions, cpu⟩ := cpuRun_exists fourSlots [synPacket 1000, restartedPacket]
  obtain ⟨flows, outputs, run⟩ :=
    Shader.shaderRun_exists fourSlots [synPacket 1000, restartedPacket]
  refine ⟨fourSlots_valid, flows, outputs, run, ?_⟩
  obtain ⟨hlinked, hopened⟩ := opened_linked cpu run
  have hiff := run.acknowledges_iff valid (show 1 < 2 by decide)
  intro hacknowledges
  have hexpects := hiff.mp hacknowledges _ (openedFlow (clientKey 1000) 100)
    viewAt_restartedPacket (by decide) (by decide) ?_ rfl
  · exact absurd hexpects (by decide)
  · show Shader.shaderEntries fourSlots (flows 1) (clientKey 1000) = _
    rw [← hlinked, hopened]

end Engines

end Packet
end Gput
