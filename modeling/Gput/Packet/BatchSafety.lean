import Gput.Packet.Linearized
import Gput.Packet.Teardown

/-!
# Safety over runs of batches

The packets of a run of batches take effect one after the other, invocation by
invocation (`ItemRun`).  In that order a flow is established and answered only behind
its handshake, it is removed by the segments that end it and by no others
(`RemovesFlow`), and a key whose flow is gone stays silent until its next SYN.
-/

namespace Gput
namespace Packet

/-- A segment that ends the flow it finds: a reset, or a FIN in order, also one that
completes the handshake.  An opening segment ends nothing. -/
def RemovesFlow (flow : Flow) (tcp : TcpPacketView) : Prop :=
  ¬ IsOpening tcp ∧
    (IsReset tcp ∨
      (flow.state = .established ∨ CompletesHandshake flow tcp) ∧
        tcp.flags &&& tcpFin ≠ 0 ∧ tcp.seq = flow.recvNext)

section RemovesFlow

variable {flow : Flow} {tcp : TcpPacketView}

theorem establishedStep_none_iff :
    (establishedStep flow tcp).1 = none ↔ tcp.flags &&& tcpFin ≠ 0 ∧ tcp.seq = flow.recvNext := by
  by_cases hseq : tcp.seq = flow.recvNext
  · by_cases hfin : tcp.flags &&& tcpFin = 0
    · by_cases hempty : tcp.payload = [] <;> simp [establishedStep, hseq, hfin, hempty]
    · by_cases hempty : tcp.payload = [] <;> simp [establishedStep, hseq, hfin, hempty]
  · simp [establishedStep, hseq]

theorem segmentStep_none_iff :
    (segmentStep flow tcp).1 = none ↔
      (flow.state = .established ∨ CompletesHandshake flow tcp) ∧
        tcp.flags &&& tcpFin ≠ 0 ∧ tcp.seq = flow.recvNext := by
  cases hstate : flow.state with
  | established =>
      rw [segmentStep_established flow tcp hstate, establishedStep_none_iff]
      simp
  | synReceived =>
      rcases segmentStep_halfOpen flow tcp hstate with ⟨hdone, hstep⟩ | ⟨hdone, hstep⟩
      · rw [hstep, establishedStep_none_iff]
        simp [hdone]
      · rw [hstep]
        simp [hdone]

/-- In the shader an entry goes only for a segment that ends its flow. -/
theorem shaderFlowStep_none_iff (room : Bool) (key : FlowKey) :
    (Shader.shaderFlowStep room key (some flow) tcp).1 = none ↔ RemovesFlow flow tcp := by
  by_cases hopen : IsOpening tcp
  · simp [RemovesFlow, hopen, Shader.shaderFlowStep_repeated]
  · by_cases hreset : IsReset tcp
    · simp [RemovesFlow, hopen, hreset, Shader.shaderFlowStep_reset]
    · rw [Shader.shaderFlowStep_segment room key flow hopen hreset, segmentStep_none_iff]
      simp [RemovesFlow, hopen, hreset]

end RemovesFlow

/-- In a run that takes segments as the shader does, an entry goes exactly at the
segments of its key that end its flow. -/
theorem FlowRun.gone_iff {room : Nat → FlowKey → Bool} {views : Nat → Option TcpPacketView}
    {tables : Nat → FlowKey → Option Flow} {replies : Nat → Option Reply} {count n : Nat}
    (run : FlowRun (fun n tcp entry => Shader.shaderFlowStep (room n tcp.key) tcp.key entry tcp)
      views tables replies count)
    (hn : n < count) {key : FlowKey} {flow : Flow} (hflow : tables n key = some flow) :
    tables (n + 1) key = none ↔
      ∃ tcp, views n = some tcp ∧ tcp.key = key ∧ RemovesFlow flow tcp := by
  by_cases hthis : ∃ tcp, views n = some tcp ∧ tcp.key = key
  · obtain ⟨tcp, hview, rfl⟩ := hthis
    rw [(run.step n tcp hn hview).1, Function.update_self, hflow, shaderFlowStep_none_iff]
    simp [hview]
  · have hsame : tables (n + 1) key = tables n key :=
      run.others hn fun tcp hview hkey => hthis ⟨tcp, hview, hkey⟩
    rw [hsame, hflow]
    refine ⟨fun h => (by cases h), ?_⟩
    rintro ⟨tcp, hview, hkey, -⟩
    exact absurd ⟨tcp, hview, hkey⟩ hthis

namespace Shader

section Items

variable {config : PacketEngineConfig} {items : List (RawPacket × Option (List UInt8))}
variable {tables : Nat → Flows}

/-- What is read back for item `n`. -/
def itemOutputs (items : List (RawPacket × Option (List UInt8))) (n : Nat) :
    Option (List UInt8) :=
  items[n]?.bind Prod.snd

/-- Item by item the flows of the packets step. -/
theorem ItemRun.flowRun (run : ItemRun config items tables) :
    FlowRun (fun n tcp entry => shaderFlowStep (hasVacancy config (tables n) tcp.key) tcp.key entry
        tcp)
      (itemViews config items) (fun n => shaderEntries config (tables n))
      (itemReplies config items tables) items.length where
  ignored := by
    intro n hn hview
    have hitem := List.getElem?_eq_getElem hn
    rw [itemViews, hitem, Option.bind_some] at hview
    refine ⟨((run.step n _ hitem).ignored hview).1, ?_⟩
    rw [itemReplies, hitem, Option.bind_some, shaderReply, hview]
    rfl
  step := by
    intro n tcp hn hview
    have hitem := List.getElem?_eq_getElem hn
    rw [itemViews, hitem, Option.bind_some] at hview
    refine ⟨((run.step n _ hitem).step tcp hview).1, ?_⟩
    rw [itemReplies, hitem, Option.bind_some, shaderReply, hview]
    rfl
  plain := fun _ _ entry hopen => shaderFlowStep_plain _ _ entry hopen
  repeated := fun _ _ flow hopen _ _ => shaderFlowStep_repeated _ _ flow hopen

theorem ItemRun.sends (run : ItemRun config items tables) :
    Sends parsedBytes shaderResponse (itemViews config items) (itemReplies config items tables)
      (itemOutputs items) items.length := by
  intro n tcp hn hview
  have hitem := List.getElem?_eq_getElem hn
  have houtput := run.output hitem
  rw [hview, Option.bind_some] at houtput
  rw [itemOutputs, hitem, Option.bind_some, houtput]
  refine ⟨fun hnone => ?_, fun reply hreply => ?_⟩
  · rw [hnone]
    rfl
  · rw [hreply]
    exact ⟨_, rfl, parsedBytes_shaderReplyBytes _ _⟩

/-- What is safe about packets that take effect one after the other. -/
structure ItemsSafe (config : PacketEngineConfig)
    (items : List (RawPacket × Option (List UInt8))) (tables : Nat → Flows) : Prop where
  answered : HandshakeSafe (itemViews config items) (itemEmissions items)
    (fun n => shaderEntries config (tables n)) items.length
  established : ∀ n, n ≤ items.length → ∀ key flow, shaderEntries config (tables n) key = some flow →
    flow.state = .established →
    HandshakeDone (itemViews config items) (itemEmissions items)
      (fun n => shaderEntries config (tables n)) key n
  removed : ∀ n, n < items.length → ∀ key flow,
    shaderEntries config (tables n) key = some flow →
    (shaderEntries config (tables (n + 1)) key = none ↔
      ∃ tcp, itemViews config items n = some tcp ∧ tcp.key = key ∧ RemovesFlow flow tcp)
  /-- A reset or a FIN in order removes its flow and nothing else, unless it is a reset
  that opens or finds a flow. -/
  tearsDown : ∀ n, n < items.length →
    (TearsDown parsedBytes (itemViews config items) (itemOutputs items)
        (fun n => shaderEntries config (tables n)) items.length n ↔
      ∀ tcp, itemViews config items n = some tcp → IsReset tcp → IsOpening tcp →
        shaderEntries config (tables n) tcp.key = none ∧
          hasVacancy config (tables n) tcp.key = false)

theorem ItemRun.safe (run : ItemRun config items tables) (hstart : tables 0 = emptyFlows) :
    ItemsSafe config items tables where
  answered := (run.engineRun hstart).handshakeSafe run.emits
  established := fun _ hn _ _ hflow hstate =>
    (run.engineRun hstart).handshakeDone run.emits hn hflow hstate
  removed := fun _ hn _ _ hflow => run.flowRun.gone_iff hn hflow
  tearsDown := fun _ hn => run.flowRun.tearsDown_iff run.sends hn

end Items

/-- **Safety over batches.**  Over any batches, whatever the buffers hold at first and
in whatever order the device takes the invocations of a dispatch (whole, one at a time,
and no compare-exchange fails on an unchanged slot), there is one order of the packets,
batch by batch and wave by wave, in which flows are established and answered only
behind their handshakes and removed exactly by the segments that end them. -/
theorem batches_handshakeSafe {config : PacketEngineConfig} {limits : AdapterLimits}
    {engine : GpuPacketEngine} {schedule : Schedule} {scratch : PacketScratch}
    {memory : EngineMemory} (hnew : GpuPacketEngine.new config limits = .ok engine)
    (complete : schedule.Complete) (hreach : scratch.seen.Reachable)
    (hempty : memory.storage.flows = emptyFlows)
    (batches : List (List RawPacket × List (Option RawPacket))) :
    ∃ (scratch' : PacketScratch) (memory' : EngineMemory) (log : List ServedBatch)
      (tables : Nat → Flows),
      engine.processBatches schedule batches scratch memory =
        .ok (scratch', memory', log.map ServedBatch.outputs) ∧
      log.map ServedBatch.packets = batches.map Prod.fst ∧
      (∀ batch ∈ log, batch.Sound engine.waveLimits) ∧
      tables 0 = emptyFlows ∧ tables (servedItems log).length = memory'.storage.flows ∧
      ItemRun config (servedItems log) tables ∧ ItemsSafe config (servedItems log) tables := by
  obtain ⟨built, rfl⟩ := GpuPacketEngine.built_of_new hnew
  obtain ⟨scratch', memory', log, hrun, hlog, hsound, hinvoked, -, -⟩ :=
    processBatches_device built complete batches hreach memory
  rw [hempty] at hinvoked
  obtain ⟨tables, hstart, hend, run⟩ :=
    hinvoked.itemRun built.valid ⟨emptyFlows_invariant _, emptyFlows_known⟩
  exact ⟨scratch', memory', log, tables, hrun, hlog, hsound, hstart, hend, run, run.safe hstart⟩

theorem batches_handshakeSafe_conversation :
    ∃ (scratch' : PacketScratch) (memory' : EngineMemory) (log : List ServedBatch)
      (tables : Nat → Flows),
      smallEngine.processBatches inOrder conversationBatches
          ⟨[], [], [], [], FlowSet.default⟩ freshMemory =
        .ok (scratch', memory', log.map ServedBatch.outputs) ∧
      log.map ServedBatch.packets = conversationBatches.map Prod.fst ∧
      ItemsSafe smallEngine.config (servedItems log) tables := by
  obtain ⟨scratch', memory', log, tables, hrun, hlog, -, -, -, -, hsafe⟩ :=
    @batches_handshakeSafe _ _ _ _ ⟨[], [], [], [], FlowSet.default⟩ freshMemory new_smallAdapter
      inOrder_complete FlowSet.Reachable.default rfl conversationBatches
  exact ⟨scratch', memory', log, tables, hrun, hlog, hsafe⟩

end Shader
end Packet
end Gput
