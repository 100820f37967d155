import Gput.Packet.BatchAgreement
import Gput.Packet.EmittedPackets
import Gput.Packet.FlowRun

/-!
# The engine interface

The trait `PacketEngine` and its two implementations.  A client that sends at most
one packet of each flow in a batch cannot tell them apart: `Serves` says what it
gets, and both engines serve (`cpu_serves`, `gpu_serves`), the GPU engine with as
many probes as slots.
-/

namespace Gput
namespace Packet

open ByteString

/-- `u64::saturating_add`. -/
def saturatingAdd (left right : Nat) : Nat :=
  min (left + right) (2 ^ 64 - 1)

/-- `u64::saturating_sub`. -/
def saturatingSub (left right : UInt64) : UInt64 :=
  if right ≤ left then left - right else 0

/-- The counter of an engine grows by what was counted, unless it wrapped around. -/
theorem saturatingSub_counted {counter : UInt64} {count : Nat}
    (h : counter.toNat + count < 2 ^ 64) :
    saturatingSub (counter + UInt64.ofNat count) counter = UInt64.ofNat count := by
  have hcount : (UInt64.ofNat count).toNat = count := by
    rw [UInt64.toNat_ofNat']
    omega
  have hle : counter ≤ counter + UInt64.ofNat count := by
    rw [UInt64.le_iff_toNat_le, UInt64.toNat_add, hcount]
    omega
  rw [saturatingSub, if_pos hle, UInt64.add_comm, UInt64.add_sub_cancel]

/-- `PacketEngineMetrics`, without the timings. -/
structure PacketEngineMetrics where
  dispatches : UInt64
  packets : UInt64
deriving DecidableEq, Repr

/-- `PacketEngineMetrics::saturating_sub`. -/
def PacketEngineMetrics.saturatingSub (metrics earlier : PacketEngineMetrics) :
    PacketEngineMetrics where
  dispatches := Packet.saturatingSub metrics.dispatches earlier.dispatches
  packets := Packet.saturatingSub metrics.packets earlier.packets

/-- `trait PacketEngine`, over the state behind its locks and counters. -/
structure PacketEngine (σ : Type) where
  name : List UInt8
  processBatchInto : List RawPacket → List (Option RawPacket) → σ →
    Outcome (σ × List (Option RawPacket))
  processBatchTo : {τ : Type} → PacketSink τ → List RawPacket → σ → τ → Outcome (σ × τ)
  metrics : σ → PacketEngineMetrics

/-- `PacketEngine::process_batch`. -/
def PacketEngine.processBatch {σ : Type} (engine : PacketEngine σ) (packets : List RawPacket)
    (state : σ) : Outcome (σ × List (Option RawPacket)) :=
  engine.processBatchInto packets [] state

/-- The loop of the provided `process_batch_to`. -/
def emitOutputs {τ : Type} (sink : PacketSink τ) : Nat → List (Option RawPacket) → τ → Outcome τ
  | _, [], s => return s
  | sourceIndex, packet :: output, s => do
      let s ← sink s sourceIndex (packet.map RawPacket.bytes)
      emitOutputs sink (sourceIndex + 1) output s

/-- What `CpuPacketEngine` keeps. -/
structure CpuState where
  flows : FlowTable
  dispatches : UInt64
  packets : UInt64

/-- A new `CpuPacketEngine`. -/
def CpuState.new : CpuState where
  flows := ∅
  dispatches := 0
  packets := 0

/-- `CpuPacketEngine::process_batch_into`; the output vector is cleared first. -/
def cpuBatchInto (config : PacketEngineConfig) (packets : List RawPacket)
    (_ : List (Option RawPacket)) (state : CpuState) :
    Outcome (CpuState × List (Option RawPacket)) := do
  let (flows, output) ← processBatchInto state.flows config packets
  return ({
    flows := flows
    dispatches := state.dispatches + 1
    packets := state.packets + UInt64.ofNat packets.length }, output)

/-- `impl PacketEngine for CpuPacketEngine`. -/
def cpuPacketEngine (config : PacketEngineConfig) : PacketEngine CpuState where
  name := ascii "cpu-packet"
  processBatchInto := cpuBatchInto config
  processBatchTo sink packets state s := do
    let (state, output) ← cpuBatchInto config packets [] state
    let s ← emitOutputs sink 0 output s
    return (state, s)
  metrics state := { dispatches := state.dispatches, packets := state.packets }

/-- `impl PacketEngine for GpuPacketEngine`. -/
def gpuPacketEngine (engine : Shader.GpuPacketEngine) (schedule : Shader.Schedule) :
    PacketEngine (PacketScratch × Shader.EngineMemory) where
  name := ascii "gpu-packet"
  processBatchInto packets output state := do
    let (scratch, memory, output) ←
      engine.processBatchInto schedule packets state.1 state.2 output
    return ((scratch, memory), output)
  processBatchTo sink packets state s := do
    let (scratch, memory, s) ←
      Packet.processBatchTo (dispatchWave (Shader.device engine schedule) sink packets) packets
        engine.waveLimits packets.length state.1 (state.2, s)
    return ((scratch, memory), s)
  metrics state := { dispatches := state.2.dispatches, packets := state.2.packets }

/-- A server with room for every flow, as a machine over segments that emits the
packets of its replies. -/
def serverMachine (response : UInt32 → List UInt8) :
    KeyedMachine FlowKey (Option Flow) TcpPacketView (Option (List UInt8)) where
  key tcp := some tcp.key
  step key entry tcp :=
    let result := cpuFlowStep True key entry tcp
    (result.1, result.2.map fun reply => builtBytes (replySpec response key reply))
  idle := none

/-- A segment that both engines treat alike: an opening one only where it opens the
flow or repeats its SYN. -/
def TreatedAlike (entry : Option Flow) (tcp : TcpPacketView) : Prop :=
  IsOpening tcp → ¬ IsReset tcp ∧
    ∀ flow, entry = some flow → flow.state = .synReceived → flow.recvNext = tcp.seq + 1

/-- A batch with one packet of each of its flows. -/
structure OneEach (listenPort : UInt16) (keys : Finset FlowKey) (cells : FlowKey → Option Flow)
    (packets : List RawPacket) (views : List TcpPacketView) : Prop where
  parsed : packets.map parsed = views.map some
  port : ∀ tcp ∈ views, tcp.key.dstPort = listenPort
  known : ∀ tcp ∈ views, tcp.key ∈ keys
  distinct : (views.map TcpPacketView.key).Nodup
  alike : ∀ tcp ∈ views, TreatedAlike (cells tcp.key) tcp

/-- An engine that serves the flows of some keys: over batches with one packet of
each flow it is the machine of a server, as long as `Holds` says that its state
stands for the entries. -/
structure Serves {σ : Type} (engine : PacketEngine σ) (response : UInt32 → List UInt8)
    (listenPort : UInt16) (keys : Finset FlowKey) (Holds : (FlowKey → Option Flow) → σ → Prop) :
    Prop where
  answers : ∀ {cells state packets views} (output : List (Option RawPacket)),
    Holds cells state → OneEach listenPort keys cells packets views →
    ∃ state' results, engine.processBatchInto packets output state = .ok (state', results) ∧
      results.map (Option.map RawPacket.bytes) =
        (serverMachine response).outputs cells views ∧
      Holds ((serverMachine response).cellsAfter cells views) state' ∧
      (engine.metrics state').packets =
        (engine.metrics state).packets + UInt64.ofNat packets.length

section OneEach

variable {listenPort : UInt16} {keys : Finset FlowKey} {cells : FlowKey → Option Flow}
variable {packet : RawPacket} {packets : List RawPacket}
variable {tcp : TcpPacketView} {views : List TcpPacketView}
variable {response : UInt32 → List UInt8}

theorem OneEach.head (h : OneEach listenPort keys cells (packet :: packets) (tcp :: views)) :
    Packet.parsed packet = some tcp ∧ tcp.key.dstPort = listenPort ∧
      TreatedAlike (cells tcp.key) tcp := by
  have hparsed := h.parsed
  simp only [List.map_cons, List.cons.injEq] at hparsed
  exact ⟨hparsed.1, h.port tcp List.mem_cons_self, h.alike tcp List.mem_cons_self⟩

/-- The flows of the rest are as they were. -/
theorem OneEach.tail (h : OneEach listenPort keys cells (packet :: packets) (tcp :: views)) :
    OneEach listenPort keys ((serverMachine response).next cells tcp) packets views where
  parsed := by
    have hparsed := h.parsed
    simp only [List.map_cons, List.cons.injEq] at hparsed
    exact hparsed.2
  port := fun other hother => h.port other (List.mem_cons_of_mem _ hother)
  known := fun other hother => h.known other (List.mem_cons_of_mem _ hother)
  distinct := (List.nodup_cons.mp h.distinct).2
  alike := by
    intro other hother
    have hne : tcp.key ≠ other.key := fun hsame =>
      (List.nodup_cons.mp h.distinct).1 (hsame ▸ List.mem_map_of_mem hother)
    rw [(serverMachine response).next_of_ne cells fun hkey => hne (Option.some.inj hkey)]
    exact h.alike other (List.mem_cons_of_mem _ hother)

/-- A machine over packets that steps like the server runs like the server. -/
theorem OneEach.run {ο : Type} (response : UInt32 → List UInt8)
    (M : KeyedMachine FlowKey (Option Flow) RawPacket ο) (bytes : ο → Option (List UInt8))
    (hkey : M.key = packetKey)
    (hstep : ∀ entry packet tcp, Packet.parsed packet = some tcp →
      tcp.key.dstPort = listenPort → TreatedAlike entry tcp →
      (M.step tcp.key entry packet).1 = ((serverMachine response).step tcp.key entry tcp).1 ∧
        bytes (M.step tcp.key entry packet).2 =
          ((serverMachine response).step tcp.key entry tcp).2)
    (h : OneEach listenPort keys cells packets views) :
    (M.outputs cells packets).map bytes = (serverMachine response).outputs cells views ∧
      M.cellsAfter cells packets = (serverMachine response).cellsAfter cells views := by
  induction views generalizing cells packets with
  | nil =>
      obtain rfl := List.map_eq_nil_iff.mp h.parsed
      exact ⟨rfl, rfl⟩
  | cons tcp views ih =>
      cases packets with
      | nil => cases h.parsed
      | cons packet packets =>
          obtain ⟨hparsed, hport, halike⟩ := h.head
          obtain ⟨hcell, houtput⟩ := hstep (cells tcp.key) packet tcp hparsed hport halike
          have hpacket : M.key packet = some tcp.key := by
            rw [hkey, packetKey, hparsed]
            rfl
          have hnext : M.next cells packet = (serverMachine response).next cells tcp := by
            simp only [KeyedMachine.next, hpacket, hcell]
            rfl
          obtain ⟨houtputs, hcells⟩ := ih h.tail
          constructor
          · rw [KeyedMachine.outputs, KeyedMachine.outputs, List.map_cons, hnext, houtputs]
            refine congrArg (· :: _) ?_
            simp only [KeyedMachine.output, hpacket, houtput]
            rfl
          · rw [KeyedMachine.cellsAfter_cons, KeyedMachine.cellsAfter_cons, hnext, hcells]

/-- The packets are for flows of the keys. -/
theorem OneEach.batchKeys_subset (h : OneEach listenPort keys cells packets views) :
    batchKeys packets ⊆ keys := by
  intro key hkey
  simp only [batchKeys, List.mem_toFinset, List.mem_filterMap] at hkey
  obtain ⟨packet, hpacket, hkey⟩ := hkey
  obtain ⟨tcp, hparsed, rfl⟩ := Option.map_eq_some_iff.mp hkey
  have hmem : Packet.parsed packet ∈ views.map some := by
    rw [← h.parsed]
    exact List.mem_map_of_mem hpacket
  rw [hparsed] at hmem
  obtain ⟨other, hother, hsame⟩ := List.mem_map.mp hmem
  cases hsame
  exact h.known _ hother

/-- No packet of the batch can overtake another of its flow. -/
theorem OneEach.noOvertaking (h : OneEach listenPort keys cells packets views)
    (limits : Nat × Nat) : NoOvertaking packets limits := by
  have hdistinct : packets.Pairwise fun earlier later => ∀ tcp other,
      Packet.parsed earlier = some tcp → Packet.parsed later = some other →
        tcp.key ≠ other.key := by
    have hviews : (views.map some).Pairwise fun earlier later : Option TcpPacketView =>
        ∀ tcp other, earlier = some tcp → later = some other → tcp.key ≠ other.key := by
      rw [List.pairwise_map]
      refine (List.pairwise_map.mp h.distinct).imp fun hne tcp other htcp hother => ?_
      cases htcp
      cases hother
      exact hne
    rw [← h.parsed, List.pairwise_map] at hviews
    exact hviews
  have hparses (packet : RawPacket) (hmem : packet ∈ packets) :
      ∃ tcp, Packet.parsed packet = some tcp ∧ schedulingKey packet = some tcp.key := by
    have hview : Packet.parsed packet ∈ views.map some := h.parsed ▸ List.mem_map_of_mem hmem
    obtain ⟨tcp, -, htcp⟩ := List.mem_map.mp hview
    exact ⟨tcp, htcp.symm, schedulingKey_of_parsed htcp.symm⟩
  refine noOvertaking_of_room (roomForEarlier_of_sizes ?_)
  refine hdistinct.imp_of_mem fun {earlier later} hearlier hlater hne key hkey hkey' => ?_
  obtain ⟨tcp, hparsed, hsched⟩ := hparses earlier hearlier
  obtain ⟨other, hparsed', hsched'⟩ := hparses later hlater
  rw [hsched] at hkey
  rw [hsched'] at hkey'
  exact absurd (Option.some.inj (hkey.trans hkey'.symm)) (hne tcp other hparsed hparsed')

end OneEach

section Engines

variable {config : PacketEngineConfig} {keys : Finset FlowKey}

/-- The state of the CPU engine stands for the entries of its map. -/
def CpuHolds (keys : Finset FlowKey) (cells : FlowKey → Option Flow) (state : CpuState) : Prop :=
  entries state.flows = cells ∧ state.flows.keys ⊆ keys

theorem cpuHolds_new (keys : Finset FlowKey) : CpuHolds keys (fun _ => none) CpuState.new := by
  refine ⟨?_, Finset.empty_subset _⟩
  funext key
  exact Finmap.lookup_empty key

theorem flowMachine_step {entry : Option Flow} {packet : RawPacket} {tcp : TcpPacketView}
    (hparsed : parsed packet = some tcp) (hport : tcp.key.dstPort = config.listenPort) :
    ((flowMachine config).step tcp.key entry packet).1 =
        ((serverMachine cpuResponse).step tcp.key entry tcp).1 ∧
      ((flowMachine config).step tcp.key entry packet).2.map RawPacket.bytes =
        ((serverMachine cpuResponse).step tcp.key entry tcp).2 := by
  simp only [flowMachine, serverMachine, hparsed, hport, ne_eq, not_true_eq_false, if_false,
    Option.map_map, true_and]
  rfl

/-- With room for the keys the CPU engine serves them. -/
theorem cpu_serves (hroom : keys.card ≤ config.flowCapacity) :
    Serves (cpuPacketEngine config) cpuResponse config.listenPort keys (CpuHolds keys) where
  answers := by
    intro cells state packets views output hholds hbatch
    obtain ⟨rfl, hkeys⟩ := hholds
    obtain ⟨flows, hrun, hentries⟩ := processBatchInto_eq_flowMachine hroom packets state.flows
      hkeys hbatch.batchKeys_subset
    obtain ⟨houtputs, hcells⟩ := hbatch.run cpuResponse (flowMachine config)
      (Option.map RawPacket.bytes) rfl
      (fun entry packet tcp hparsed hport _ => flowMachine_step hparsed hport)
    refine ⟨⟨flows, state.dispatches + 1, state.packets + UInt64.ofNat packets.length⟩, _, ?_, houtputs,
      ⟨hentries.trans hcells, ?_⟩, rfl⟩
    · simp only [cpuPacketEngine, cpuBatchInto, hrun, Outcome.ok_bind, Outcome.pure_eq]
    · intro key hkey
      by_contra hout
      have huntouched : (flowMachine config).cellsAfter (entries state.flows) packets key =
          entries state.flows key := by
        refine (flowMachine config).cellsAfter_of_untouched _ fun packet hpacket hsame => ?_
        exact hout (hbatch.batchKeys_subset (List.mem_toFinset.mpr
          (List.mem_filterMap.mpr ⟨packet, hpacket, hsame⟩)))
      rw [mem_keys_iff, hentries, huntouched] at hkey
      exact hout (hkeys (mem_keys_iff.mpr hkey))

namespace Shader

variable {limits : AdapterLimits} {engine : GpuPacketEngine} {schedule : Schedule}

/-- The state of the GPU engine stands for the entries of its flow table. -/
def GpuHolds (config : PacketEngineConfig) (keys : Finset FlowKey) (cells : FlowKey → Option Flow)
    (state : PacketScratch × EngineMemory) : Prop :=
  state.1.seen.Reachable ∧ Roomy config keys state.2.storage.flows ∧
    shaderEntries config state.2.storage.flows = cells

theorem gpuHolds_new (config : PacketEngineConfig) (keys : Finset FlowKey) {memory : EngineMemory}
    (hempty : memory.storage.flows = emptyFlows) :
    GpuHolds config keys (fun _ => none) (⟨[], [], [], [], FlowSet.default⟩, memory) := by
  refine ⟨FlowSet.Reachable.default, ?_, ?_⟩
  · rw [hempty]
    exact roomy_emptyFlows config keys
  · rw [hempty]
    exact shaderEntries_emptyFlows config

theorem shaderFlowStep_treated {key : FlowKey} {entry : Option Flow} {tcp : TcpPacketView}
    (halike : TreatedAlike entry tcp) :
    shaderFlowStep true key entry tcp = cpuFlowStep True key entry tcp := by
  by_cases hopen : IsOpening tcp
  · obtain ⟨hreset, hrepeated⟩ := halike hopen
    cases entry with
    | none =>
        rw [shaderFlowStep_open true key hopen, cpuFlowStep_open True key hreset hopen]
        rfl
    | some flow =>
        have hkeep : reopen key flow tcp.seq = flow :=
          if_neg fun h => h.2 (hrepeated flow rfl h.1)
        rw [shaderFlowStep_repeated true key flow hopen,
          cpuFlowStep_reopen True key flow hreset hopen, hkeep]
  · rw [shaderFlowStep_plain true key entry hopen, cpuFlowStep_plain True key entry hopen]

theorem shaderMachine_step {entry : Option Flow} {packet : RawPacket} {tcp : TcpPacketView}
    (hparsed : parsed packet = some tcp) (hport : tcp.key.dstPort = config.listenPort)
    (halike : TreatedAlike entry tcp) :
    ((shaderMachine config).step tcp.key entry packet).1 =
        ((serverMachine shaderResponse).step tcp.key entry tcp).1 ∧
      ((shaderMachine config).step tcp.key entry packet).2 =
        ((serverMachine shaderResponse).step tcp.key entry tcp).2 := by
  have hlistened : listened config packet = some tcp := listened_eq_some.mpr ⟨hparsed, hport⟩
  simp only [shaderMachine, serverMachine, hlistened, shaderFlowStep_treated halike, true_and]
  refine congrArg₂ Option.map ?_ rfl
  funext reply
  exact shaderReplyBytes_eq_built tcp.key reply

/-- With room for the keys and as many probes as slots the GPU engine serves them. -/
theorem gpu_serves (hnew : GpuPacketEngine.new config limits = .ok engine)
    (complete : schedule.Complete) (hprobes : config.flowProbeLimit = config.flowCapacity)
    (hroom : keys.card ≤ config.flowCapacity) :
    Serves (gpuPacketEngine engine schedule) shaderResponse config.listenPort keys
      (GpuHolds config keys) where
  answers := by
    intro cells state packets views output hholds hbatch
    obtain ⟨hreach, roomy, rfl⟩ := hholds
    obtain ⟨built, rfl⟩ := GpuPacketEngine.built_of_new hnew
    obtain ⟨scratch', memory', batch, rfl, hsound, hreach', hrun, hinvoked, -, hpackets⟩ :=
      processBatchInto_device built complete packets hreach state.2 output
    have hitems : ∀ item ∈ served batch.packets batch.trace, ∀ key,
        packetKey item.1 = some key → key ∈ keys := by
      intro item hitem key hkey
      exact hbatch.batchKeys_subset (List.mem_toFinset.mpr
        (List.mem_filterMap.mpr ⟨_, mem_served hitem, hkey⟩))
    obtain ⟨roomy', hentries, houtputs⟩ :=
      hinvoked.machine built.valid hprobes hroom roomy hitems
    obtain ⟨hresults, hcells⟩ := hsound.machine (hbatch.noOvertaking _) _ houtputs
    obtain ⟨houtputs', hcells'⟩ := hbatch.run shaderResponse
      (shaderMachine engine.config) id rfl
      (fun entry packet tcp hparsed hport halike => shaderMachine_step hparsed hport halike)
    rw [List.map_id] at houtputs'
    refine ⟨(scratch', memory'), batch.outputs, ?_, hresults.trans houtputs',
      ⟨hreach', roomy', hentries.trans (hcells.trans hcells')⟩, hpackets⟩
    simp only [gpuPacketEngine, hrun, Outcome.ok_bind, Outcome.pure_eq]

end Shader

end Engines

end Packet
end Gput
