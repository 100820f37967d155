import Gput.Packet.Emissions
import Gput.Packet.GpuEngine

/-!
# The GPU engine over runs of batches

A batch is dispatched wave by wave, and the invocations of a wave run in an order
of the device.  `engine_linearized` says that all of this is one run of packets
(`ItemRun`): over any sequence of batches every packet takes effect once, at one point
of a common order, as the step of the shader there, and its output is the answer of
that step.
-/

namespace Gput
namespace Packet
namespace Shader

open GreedyRounds OpenAddressing

/-- What the shader does with a packet, over a sound flow table. -/
structure PacketStep (config : PacketEngineConfig) (packet : RawPacket) (flows flows' : Flows)
    (output : Option (List UInt8)) : Prop where
  good : GoodFlows config flows'
  ignored : listened config packet = none →
    shaderEntries config flows' = shaderEntries config flows ∧ output = none
  step : ∀ tcp, listened config packet = some tcp →
    let result := shaderFlowStep (hasVacancy config flows tcp.key) tcp.key
      (shaderEntries config flows tcp.key) tcp
    shaderEntries config flows' = Function.update (shaderEntries config flows) tcp.key result.1 ∧
      output = result.2.map (shaderReplyBytes tcp.key) ∧
      ∀ reply id, result.2 = some reply → reply.response = some id → id < responseCount

section PacketStep

variable {config : PacketEngineConfig} {flows flows' : Flows} {packet : RawPacket}

/-- An invocation does so whatever the rest of its buffers hold. -/
theorem packetStep_of_presented (valid : ValidConfig config) (good : GoodFlows config flows)
    {count : Nat} {inputMeta : UInt32 → PacketMeta} {inputWords : Words} {packetIndex : UInt32}
    (presented : Presented (engineParams config count) inputMeta inputWords packetIndex packet)
    (fits : SlotFits (engineParams config count) packetIndex) (output : Words) :
    PacketStep config packet flows
      (main (engineParams config count) inputMeta inputWords packetIndex ⟨output, flows⟩).flows
      (emitted (engineParams config count)
        (main (engineParams config count) inputMeta inputWords packetIndex
          ⟨output, flows⟩).outputData packetIndex) := by
  cases hview : listened config packet with
  | none =>
      have hignored := main_ignored presented (by
        intro tcp hparsed hport
        rw [listened_eq_some.mpr ⟨hparsed, UInt16.toUInt32_inj.mp hport⟩] at hview
        cases hview) ⟨output, flows⟩
      rw [hignored]
      refine ⟨good, fun _ => ⟨rfl, ?_⟩, fun tcp h => (by rw [hview] at h; cases h)⟩
      exact if_pos (Function.update_self packetIndex 0 output)
  | some tcp =>
      obtain ⟨hparsed, hport⟩ := listened_eq_some.mp hview
      have hcapacity : (engineParams config count).flowCapacity.toNat.isPowerOfTwo := by
        rw [flowCapacity_toNat valid.capacity_fits]
        exact valid.capacity_power
      have hstep := main_step presented hparsed (congrArg UInt16.toUInt32 hport) hcapacity
        ⟨output, flows⟩ ((invariant_engineParams _).mpr good.table) good.known
      simp only [tableEntry_engineParams] at hstep
      obtain ⟨invariant, known, entries, houtput, hresponse⟩ := hstep
      rw [tableEntry_engineParams, tableEntry_engineParams] at entries
      have hroom : (vacancy (cells flows) (probePath (engineParams config count) tcp.key)
          (probeLimit (engineParams config count)).toNat 0).isSome =
          hasVacancy config flows tcp.key := rfl
      rw [hroom] at houtput
      refine ⟨⟨(invariant_engineParams _).mp invariant, known⟩,
        fun h => (by rw [hview] at h; cases h), fun tcp' h => ?_⟩
      obtain rfl := Option.some.inj (hview.symm.trans h)
      refine ⟨entries, ?_, hresponse⟩
      rw [houtput]
      exact readBack_replied fits output tcp.key _

end PacketStep

/-- The items of a run and the tables between them: `flows n` is the flow table
before item `n`. -/
structure ItemRun (config : PacketEngineConfig) (items : List (RawPacket × Option (List UInt8)))
    (flows : Nat → Flows) : Prop where
  good : ∀ n, n ≤ items.length → GoodFlows config (flows n)
  step : ∀ n item, items[n]? = some item →
    PacketStep config item.1 (flows n) (flows (n + 1)) item.2

section Items

variable {config : PacketEngineConfig} {items : List (RawPacket × Option (List UInt8))}
variable {flows flows' : Flows}

/-- Invocations of packets one at a time are a run. -/
theorem Invoked.itemRun (valid : ValidConfig config) (good : GoodFlows config flows)
    (invoked : Invoked config flows items flows') :
    ∃ tables, tables 0 = flows ∧ tables items.length = flows' ∧ ItemRun config items tables := by
  induction invoked with
  | nil flows =>
      refine ⟨fun _ => flows, rfl, rfl, fun _ _ => good, ?_⟩
      intro n item h
      cases h
  | @cons before _ _ _ _ _ _ _ output presented fits _ ih =>
      have hstep := packetStep_of_presented valid good presented fits output
      obtain ⟨tables, hstart, hend, run⟩ := ih hstep.good
      refine ⟨fun n => n.casesOn before tables, rfl, hend, ?_, ?_⟩
      · intro n hn
        cases n with
        | zero => exact good
        | succ n => exact run.good n (Nat.le_of_succ_le_succ hn)
      · intro n item hitem
        cases n with
        | zero =>
            obtain rfl := Option.some.inj hitem
            show PacketStep config _ _ (tables 0) _
            rw [hstart]
            exact hstep
        | succ n => exact run.step n item hitem

/-- What the parser makes of the packet of item `n`. -/
def itemViews (config : PacketEngineConfig) (items : List (RawPacket × Option (List UInt8)))
    (n : Nat) : Option TcpPacketView :=
  items[n]?.bind fun item => listened config item.1

/-- The reply to item `n`. -/
def itemReplies (config : PacketEngineConfig) (items : List (RawPacket × Option (List UInt8)))
    (tables : Nat → Flows) (n : Nat) : Option Reply :=
  items[n]?.bind fun item => shaderReply config (tables n) item.1

/-- What item `n` emits, as the parser sees it. -/
def itemEmissions (items : List (RawPacket × Option (List UInt8))) (n : Nat) :
    Option TcpPacketView :=
  items[n]?.bind fun item => item.2.bind parsedBytes

section ItemRun

variable {tables : Nat → Flows}

/-- A run of items is a run of an engine. -/
theorem ItemRun.engineRun (run : ItemRun config items tables) (hstart : tables 0 = emptyFlows) :
    EngineRun (itemViews config items) (fun n => shaderEntries config (tables n))
      (itemReplies config items tables) items.length where
  start := by
    intro key
    rw [hstart]
    exact tableEntry_of_absent (emptyFlows_invariant _)
      (fun i heq => by rw [cells_emptyFlows] at heq; cases heq)
  step := by
    intro n hn
    have hitem := List.getElem?_eq_getElem hn
    have hstep := run.step n _ hitem
    unfold PacketRule itemViews itemReplies
    rw [hitem]
    simp only [Option.bind_some]
    cases hview : listened config items[n].1 with
    | none => exact ⟨(hstep.ignored hview).1, by rw [shaderReply, hview]; rfl⟩
    | some tcp =>
        refine ⟨_, (hstep.step tcp hview).1, ?_⟩
        rw [shaderReply, hview, Option.bind_some]
        exact shaderFlowStep_rule _ _ _ _

/-- What the host reads back for an item is the packet of its reply. -/
theorem ItemRun.output (run : ItemRun config items tables) {n : Nat}
    {item : RawPacket × Option (List UInt8)} (hitem : items[n]? = some item) :
    item.2 = (itemViews config items n).bind fun tcp =>
      (itemReplies config items tables n).map (shaderReplyBytes tcp.key) := by
  have hstep := run.step n item hitem
  unfold itemViews itemReplies
  rw [hitem]
  simp only [Option.bind_some]
  cases hview : listened config item.1 with
  | none => exact (hstep.ignored hview).2
  | some tcp =>
      rw [shaderReply, hview, Option.bind_some, Option.bind_some]
      exact (hstep.step tcp hview).2.1

/-- Item by item the replies go out. -/
theorem ItemRun.emits (run : ItemRun config items tables) :
    Emits packetResponse (itemViews config items) (itemReplies config items tables)
      (itemEmissions items) items.length := by
  intro n hn
  have hitem := List.getElem?_eq_getElem hn
  have hstep := run.step n _ hitem
  unfold itemEmissions itemViews itemReplies
  rw [hitem]
  simp only [Option.bind_some]
  cases hview : listened config items[n].1 with
  | none =>
      rw [(hstep.ignored hview).2]
      rfl
  | some tcp =>
      obtain ⟨-, houtput, hknown⟩ := hstep.step tcp hview
      have hreads := @readsBack_of_known tcp.key _ hknown
      rw [← houtput] at hreads
      rw [shaderReply, hview, Option.bind_some, Option.bind_some]
      generalize (shaderFlowStep (hasVacancy config (tables n) tcp.key) tcp.key
        (shaderEntries config (tables n) tcp.key) tcp).2 = answer at hreads
      cases answer with
      | none =>
          have hnone : items[n].2 = none := hreads
          rw [hnone]
          rfl
      | some reply =>
          obtain ⟨ipSum, tcpSum, hbytes⟩ := hreads
          rw [hbytes]
          apply parsedBytes_packetBytes
          show 40 + ((reply.response.map packetResponse).getD []).length ≤ maxRawPacketBytes
          cases reply.response with
          | none => exact (by decide : 40 + 0 ≤ maxRawPacketBytes)
          | some id => exact packetResponse_length id

end ItemRun

end Items

section Deliveries

variable {σ : Type} (sink : PacketSink σ)

theorem deliver_append_eq (first second : List Delivery) (s : σ) :
    deliver sink (first ++ second) s =
      (do
        let s ← deliver sink first s
        deliver sink second s) := by
  induction first generalizing s with
  | nil => rfl
  | cons delivery first ih =>
      obtain ⟨sourceIndex, packet⟩ := delivery
      rw [List.cons_append, deliver, deliver]
      cases sink s sourceIndex packet with
      | ok next => exact ih next
      | err message => rfl
      | panic => rfl

/-- The output vector takes deliveries that fit packets. -/
theorem deliver_outputSink_ok {deliveries : List Delivery} {output : List (Option RawPacket)}
    (hinside : ∀ delivery ∈ deliveries, delivery.1 < output.length)
    (hfits : ∀ delivery ∈ deliveries, ∀ bytes, delivery.2 = some bytes →
      bytes ≠ [] ∧ bytes.length ≤ maxRawPacketBytes) :
    ∃ output', deliver outputSink deliveries output = .ok output' := by
  induction deliveries generalizing output with
  | nil => exact ⟨output, rfl⟩
  | cons delivery deliveries ih =>
      obtain ⟨hindex, hinside⟩ := List.forall_mem_cons.mp hinside
      obtain ⟨hpacket, hfits⟩ := List.forall_mem_cons.mp hfits
      obtain ⟨next, hnext, hlength⟩ := outputSink_ok hindex hpacket
      obtain ⟨output', hrest⟩ := @ih next (fun other hmem => by
        rw [hlength]
        exact hinside other hmem) hfits
      exact ⟨output', Outcome.bind_eq_ok.mpr ⟨next, hnext, hrest⟩⟩

end Deliveries

/-- What the dispatches of some waves do.  `traces` has the deliveries of each wave
in the order the device makes them, `deliveries` has them all in the order of the
sink. -/
structure WavesServed (engine : GpuPacketEngine) (schedule : Schedule) (packets : List RawPacket)
    (waves : List (List Nat)) (memory memory' : EngineMemory) (traces : List (List Delivery))
    (deliveries : List Delivery) : Prop where
  order : List.Forall₂ List.Perm (traces.map (List.map Prod.fst)) waves
  perm : traces.flatten.Perm deliveries
  sources : deliveries.map Prod.fst = waves.flatten
  invoked : Invoked engine.config memory.storage.flows (served packets traces.flatten)
    memory'.storage.flows
  dispatches : memory'.dispatches = memory.dispatches + UInt64.ofNat waves.length
  packetCount : memory'.packets = memory.packets + UInt64.ofNat waves.flatten.length
  fits : ∀ delivery ∈ deliveries, ∀ bytes, delivery.2 = some bytes →
    bytes ≠ [] ∧ bytes.length ≤ maxRawPacketBytes
  runs : ∀ (σ : Type) (sink : PacketSink σ) (s : σ),
    runWaves (dispatchWave (device engine schedule) sink packets) waves (memory, s) =
      (do
        let s ← deliver sink deliveries s
        return (memory', s))

section Waves

variable {engine : GpuPacketEngine} {schedule : Schedule}

/-- Waves within the limits are served one after the other. -/
theorem runWaves_device (built : engine.Built) (complete : schedule.Complete)
    {packets : List RawPacket} {waves : List (List Nat)}
    (hwaves : ∀ wave ∈ waves, wave ≠ [] ∧ (∀ i ∈ wave, i < packets.length) ∧
      wave.length ≤ engine.waveLimits.1 ∧ waveWords packets wave ≤ engine.waveLimits.2)
    (memory : EngineMemory) :
    ∃ memory' traces deliveries,
      WavesServed engine schedule packets waves memory memory' traces deliveries := by
  induction waves generalizing memory with
  | nil =>
      refine ⟨memory, [], [], .nil, .refl _, rfl, .nil _, by simp, by simp, ?_, fun _ _ _ => rfl⟩
      exact fun delivery hmem => absurd hmem List.not_mem_nil
  | cons wave waves ih =>
      obtain ⟨⟨hne, hinside, hlength, hwords⟩, hwaves⟩ := List.forall_mem_cons.mp hwaves
      obtain ⟨middle, trace, now, htrace, hsources, hinvoked, hdispatches, hpackets, hfits, hrun⟩ :=
        dispatchWave_device built complete hinside hlength hwords memory
      obtain ⟨memory', traces, later, rest⟩ := ih hwaves middle
      refine ⟨memory', trace :: traces, now ++ later, ?_, htrace.append rest.perm, ?_, ?_, ?_, ?_,
        ?_, ?_⟩
      · refine .cons ?_ rest.order
        rw [← hsources]
        exact htrace.map Prod.fst
      · rw [List.map_append, hsources, rest.sources, List.flatten_cons]
      · rw [List.flatten_cons, served_append]
        exact hinvoked.append rest.invoked
      · rw [rest.dispatches, hdispatches hne, List.length_cons, Nat.add_comm, UInt64.ofNat_add,
          UInt64.add_assoc]
        rfl
      · rw [rest.packetCount, hpackets, List.flatten_cons, List.length_append, UInt64.ofNat_add,
          UInt64.add_assoc]
      · intro delivery hmem
        exact (List.mem_append.mp hmem).elim (hfits delivery) (rest.fits delivery)
      · intro σ sink s
        rw [runWaves, hrun, deliver_append_eq]
        cases deliver sink now s with
        | ok next => exact rest.runs σ sink next
        | err message => rfl
        | panic => rfl

end Waves

/-- `GpuPacketEngine::process_batch_into` on its own device. -/
def GpuPacketEngine.processBatchInto (engine : GpuPacketEngine) (schedule : Schedule)
    (packets : List RawPacket) (scratch : PacketScratch) (memory : EngineMemory)
    (output : List (Option RawPacket)) :
    Outcome (PacketScratch × EngineMemory × List (Option RawPacket)) :=
  gpuProcessBatchInto (device engine schedule) packets engine.waveLimits scratch memory output

/-- Batches one after the other, each with the output vector it is handed. -/
def GpuPacketEngine.processBatches (engine : GpuPacketEngine) (schedule : Schedule) :
    List (List RawPacket × List (Option RawPacket)) → PacketScratch → EngineMemory →
      Outcome (PacketScratch × EngineMemory × List (List (Option RawPacket)))
  | [], scratch, memory => return (scratch, memory, [])
  | (packets, output) :: rest, scratch, memory => do
      let (scratch, memory, outputs) ←
        engine.processBatchInto schedule packets scratch memory output
      let (scratch, memory, later) ← processBatches engine schedule rest scratch memory
      return (scratch, memory, outputs :: later)

/-- A batch that has been served: the deliveries in the order in which its packets
took effect, and the output vector. -/
structure ServedBatch where
  packets : List RawPacket
  trace : List Delivery
  outputs : List (Option RawPacket)

/-- Every packet took effect once, wave by wave, and its output is what was
delivered for it.  Unless a packet was overtaken, those of one flow took effect in
order. -/
structure ServedBatch.Sound (limits : Nat × Nat) (batch : ServedBatch) : Prop where
  length : batch.outputs.length = batch.packets.length
  once : (batch.trace.map Prod.fst).Perm (List.range batch.packets.length)
  byWaves : ∃ traces : List (List Delivery), batch.trace = traces.flatten ∧
    List.Forall₂ List.Perm (traces.map (List.map Prod.fst)) (waves batch.packets limits)
  delivered : ∀ delivery ∈ batch.trace, ∃ slot : Option RawPacket,
    batch.outputs[delivery.1]? = some slot ∧ slot.map RawPacket.bytes = delivery.2
  ordered : NoOvertaking batch.packets limits → batch.trace.Pairwise fun before after =>
    SameFlow batch.packets before.1 after.1 → before.1 < after.1

/-- The packets of served batches in the order in which they took effect, with what
was read back for them. -/
def servedItems (log : List ServedBatch) : List (RawPacket × Option (List UInt8)) :=
  log.flatMap fun batch => served batch.packets batch.trace

section Batches

variable {engine : GpuPacketEngine} {schedule : Schedule}

/-- The deliveries of waves that keep the order of a flow keep it too. -/
theorem WavesServed.ordered {packets : List RawPacket} {waves : List (List Nat)}
    {memory memory' : EngineMemory} {traces : List (List Delivery)} {deliveries : List Delivery}
    (h : WavesServed engine schedule packets waves memory memory' traces deliveries)
    (hperm : waves.flatten.Perm (List.range packets.length))
    (hkeeps : KeepsFlowOrder packets waves) :
    traces.flatten.Pairwise fun before after =>
      SameFlow packets before.1 after.1 → before.1 < after.1 := by
  have hnodup : waves.flatten.Nodup := hperm.nodup_iff.mpr List.nodup_range
  have hsources : (traces.flatten.map Prod.fst).Perm waves.flatten := by
    rw [← h.sources]
    exact h.perm.map Prod.fst
  have hlater := keepsOrder_of_shuffled
    (fun i j => i < j ∧ j < packets.length ∧ SameFlow packets i j) h.order hnodup
    (fun i j hij => hkeeps i j hij.1 hij.2.1 hij.2.2)
  rw [← List.map_flatten, List.pairwise_map] at hlater
  have hdistinct := hsources.nodup_iff.mpr hnodup
  rw [List.Nodup, List.pairwise_map] at hdistinct
  refine (hlater.and hdistinct).imp_of_mem fun hbefore _ hpair hflow => ?_
  obtain ⟨hnot, hne⟩ := hpair
  have hinside := hperm.subset (hsources.subset (List.mem_map_of_mem hbefore))
  obtain ⟨key, hfirst, hsecond⟩ := hflow
  by_contra hle
  exact hnot ⟨by omega, List.mem_range.mp hinside, key, hsecond, hfirst⟩

/-- Whatever the sink, a batch hands it what its waves serve. -/
theorem processBatchTo_device (built : engine.Built) (complete : schedule.Complete)
    (packets : List RawPacket) {scratch : PacketScratch} (hreach : scratch.seen.Reachable)
    (memory : EngineMemory) :
    ∃ (scratch' : PacketScratch) (memory' : EngineMemory) (traces : List (List Delivery))
      (deliveries : List Delivery), scratch'.seen.Reachable ∧
      (waves packets engine.waveLimits).flatten.Perm (List.range packets.length) ∧
      WavesServed engine schedule packets (waves packets engine.waveLimits) memory memory' traces
        deliveries ∧
      ∀ (σ : Type) (sink : PacketSink σ) (s : σ),
        processBatchTo (dispatchWave (device engine schedule) sink packets) packets
          engine.waveLimits packets.length scratch (memory, s) =
        (do
          let s ← deliver sink deliveries s
          return (scratch', memory', s)) := by
  have hfirst : ∀ i, Admits packets engine.waveLimits [] i :=
    admits_nil built.batch_pos built.words_large
  have hperm : (waves packets engine.waveLimits).flatten.Perm (List.range packets.length) :=
    rounds_perm _ hfirst _ _ (by simp)
  have hgood : ∀ wave ∈ waves packets engine.waveLimits, wave ≠ [] ∧
      (∀ i ∈ wave, i < packets.length) ∧ wave.length ≤ engine.waveLimits.1 ∧
      waveWords packets wave ≤ engine.waveLimits.2 := by
    intro wave hwave
    obtain ⟨hne, hheld⟩ := rounds_held (Admits packets engine.waveLimits) hfirst
      (GoodWave packets engine.waveLimits) ⟨Nat.zero_le _, Nat.zero_le _, List.Pairwise.nil⟩
      GoodWave.append _ _ wave hwave
    exact ⟨hne, fun i hi => List.mem_range.mp
      (hperm.subset (List.mem_flatten.mpr ⟨wave, hwave, hi⟩)), hheld.length_le, hheld.words_le⟩
  obtain ⟨memory', traces, deliveries, hserved⟩ := runWaves_device built complete hgood memory
  obtain ⟨scratch', hreach', hrun⟩ :=
    processBatchTo_eq packets built.batch_pos built.words_large hreach
  refine ⟨scratch', memory', traces, deliveries, hreach', hperm, hserved, fun σ sink s => ?_⟩
  rw [hrun, hserved.runs]
  cases deliver sink deliveries s <;> rfl

/-- A batch is served whatever earlier batches left behind. -/
theorem processBatchInto_device (built : engine.Built) (complete : schedule.Complete)
    (packets : List RawPacket) {scratch : PacketScratch} (hreach : scratch.seen.Reachable)
    (memory : EngineMemory) (output : List (Option RawPacket)) :
    ∃ (scratch' : PacketScratch) (memory' : EngineMemory) (batch : ServedBatch),
      batch.packets = packets ∧ batch.Sound engine.waveLimits ∧
      scratch'.seen.Reachable ∧
      engine.processBatchInto schedule packets scratch memory output =
        .ok (scratch', memory', batch.outputs) ∧
      Invoked engine.config memory.storage.flows (served packets batch.trace)
        memory'.storage.flows ∧
      memory'.dispatches =
        memory.dispatches + UInt64.ofNat (waves packets engine.waveLimits).length ∧
      memory'.packets = memory.packets + UInt64.ofNat packets.length := by
  obtain ⟨scratch', memory', traces, deliveries, hreach', hperm, hserved, hrun⟩ :=
    processBatchTo_device built complete packets hreach memory
  have hsources := hserved.sources
  have hnodup : (deliveries.map Prod.fst).Nodup := by
    rw [hsources]
    exact hperm.nodup_iff.mpr List.nodup_range
  have hstart : (output.take packets.length ++
      List.replicate (packets.length - (output.take packets.length).length) none).length =
        packets.length := by
    rw [List.length_append, List.length_replicate, List.length_take]
    omega
  have hinside : ∀ delivery ∈ deliveries, delivery.1 < packets.length := by
    intro delivery hmem
    have hindex : delivery.1 ∈ deliveries.map Prod.fst := List.mem_map_of_mem hmem
    rw [hsources] at hindex
    exact List.mem_range.mp (hperm.subset hindex)
  obtain ⟨outputs, hdeliver⟩ := deliver_outputSink_ok (by rwa [hstart]) hserved.fits
  obtain ⟨hlength, -, hslots⟩ := deliver_outputSink deliveries hnodup hdeliver
  refine ⟨scratch', memory', ⟨packets, traces.flatten, outputs⟩, rfl, ?_, hreach', ?_,
    hserved.invoked, hserved.dispatches, ?_⟩
  · refine ⟨hlength.trans hstart, ?_, ⟨traces, rfl, hserved.order⟩, ?_, ?_⟩
    · refine (hserved.perm.map Prod.fst).trans ?_
      rw [hsources]
      exact hperm
    · exact fun delivery hmem => hslots delivery (hserved.perm.subset hmem)
    · intro hovertaking
      exact hserved.ordered hperm
        ((keepsFlowOrder_waves_iff built.batch_pos built.words_large).mpr hovertaking)
  · unfold GpuPacketEngine.processBatchInto gpuProcessBatchInto
    simp only
    rw [hrun, hdeliver]
    rfl
  · rw [hserved.packetCount, hperm.length_eq, List.length_range]

/-- Batches are served one after the other. -/
theorem processBatches_device (built : engine.Built) (complete : schedule.Complete)
    (batches : List (List RawPacket × List (Option RawPacket))) {scratch : PacketScratch}
    (hreach : scratch.seen.Reachable) (memory : EngineMemory) :
    ∃ (scratch' : PacketScratch) (memory' : EngineMemory) (log : List ServedBatch),
      engine.processBatches schedule batches scratch memory =
        .ok (scratch', memory', log.map ServedBatch.outputs) ∧
      log.map ServedBatch.packets = batches.map Prod.fst ∧
      (∀ batch ∈ log, batch.Sound engine.waveLimits) ∧
      Invoked engine.config memory.storage.flows (servedItems log) memory'.storage.flows ∧
      memory'.dispatches = memory.dispatches +
        UInt64.ofNat (batches.map fun batch => (waves batch.1 engine.waveLimits).length).sum ∧
      memory'.packets =
        memory.packets + UInt64.ofNat (batches.map fun batch => batch.1.length).sum := by
  induction batches generalizing scratch memory with
  | nil => exact ⟨scratch, memory, [], rfl, rfl, by simp, .nil _, by simp, by simp⟩
  | cons first batches ih =>
      obtain ⟨packets, output⟩ := first
      obtain ⟨next, middle, batch, hpackets, hsound, hnext, hfirst, hinvoked, hdispatches,
        hcount⟩ := processBatchInto_device built complete packets hreach memory output
      obtain ⟨scratch', memory', log, hrest, hlog, hall, hinvoked', hdispatches', hcount'⟩ :=
        ih hnext middle
      refine ⟨scratch', memory', batch :: log, ?_, ?_, ?_, ?_, ?_, ?_⟩
      · rw [GpuPacketEngine.processBatches, hfirst]
        simp only [Outcome.ok_bind]
        rw [hrest]
        rfl
      · rw [List.map_cons, List.map_cons, hpackets, hlog]
      · exact List.forall_mem_cons.mpr ⟨hsound, hall⟩
      · rw [servedItems, List.flatMap_cons, hpackets]
        exact hinvoked.append hinvoked'
      · rw [hdispatches', hdispatches, List.map_cons, List.sum_cons, UInt64.ofNat_add,
          UInt64.add_assoc]
      · rw [hcount', hcount, List.map_cons, List.sum_cons, UInt64.ofNat_add, UInt64.add_assoc]

end Batches

section Linearized

variable {config : PacketEngineConfig} {limits : AdapterLimits} {engine : GpuPacketEngine}
variable {schedule : Schedule} {scratch : PacketScratch} {memory : EngineMemory}

/-- **The GPU engine is one engine.**  Whatever its buffers hold at first and in
whatever order the device takes the invocations of a dispatch (whole, one at a time,
and no compare-exchange fails on an unchanged slot), an engine that `new` returns
serves every sequence of batches.  The packets take effect one after the other, batch
by batch and wave by wave: from the first flow table to the last, each is one step of
the flow of its key, and what is read back for it is its reply there. -/
theorem engine_linearized (hnew : GpuPacketEngine.new config limits = .ok engine)
    (complete : schedule.Complete) (hreach : scratch.seen.Reachable)
    (hempty : memory.storage.flows = emptyFlows)
    (batches : List (List RawPacket × List (Option RawPacket))) :
    ∃ (scratch' : PacketScratch) (memory' : EngineMemory) (log : List ServedBatch)
      (tables : Nat → Flows),
      engine.processBatches schedule batches scratch memory =
        .ok (scratch', memory', log.map ServedBatch.outputs) ∧
      log.map ServedBatch.packets = batches.map Prod.fst ∧
      (∀ batch ∈ log, batch.Sound engine.waveLimits) ∧
      tables 0 = emptyFlows ∧ tables (servedItems log).length = memory'.storage.flows ∧
      ItemRun config (servedItems log) tables ∧
      memory'.dispatches = memory.dispatches +
        UInt64.ofNat (batches.map fun batch => (waves batch.1 engine.waveLimits).length).sum ∧
      memory'.packets =
        memory.packets + UInt64.ofNat (batches.map fun batch => batch.1.length).sum := by
  obtain ⟨built, rfl⟩ := GpuPacketEngine.built_of_new hnew
  obtain ⟨scratch', memory', log, hrun, hlog, hsound, hinvoked, hdispatches, hpackets⟩ :=
    processBatches_device built complete batches hreach memory
  rw [hempty] at hinvoked
  obtain ⟨tables, hstart, hend, run⟩ :=
    hinvoked.itemRun built.valid ⟨emptyFlows_invariant _, emptyFlows_known⟩
  exact ⟨scratch', memory', log, tables, hrun, hlog, hsound, hstart, hend, run, hdispatches,
    hpackets⟩

end Linearized

/-- A device that runs the invocations in order. -/
def inOrder : Schedule :=
  fun _ packetCount => List.range (invocationCount packetCount)

theorem inOrder_complete : inOrder.Complete := fun _ _ => .refl _

/-- An adapter with small buffers. -/
def smallAdapter : AdapterLimits where
  maxStorageBindingBytes := 131072
  maxBufferBytes := 131072
  holds_packet := by decide
  addressable := by decide

/-- The engine of a table of four slots on that adapter. -/
def smallEngine : GpuPacketEngine where
  config := { maxBatchSize := 64, flowCapacity := 4, flowProbeLimit := 4, listenPort := 8080 }
  inputWordCapacity := 24576
  inputMetaBytes := 512
  inputWordsBytes := 98304
  outputBytes := 12544

theorem new_smallAdapter :
    GpuPacketEngine.new smallEngine.config smallAdapter = .ok smallEngine := by
  decide +kernel

/-- A device that has not been used. -/
def freshMemory : EngineMemory where
  inputMeta := fun _ => { len := 7, wordOffset := 7 }
  inputWords := fun _ => 7
  storage := { outputData := fun _ => 7, flows := emptyFlows }
  dispatches := 0
  packets := 0
  launches := 0

/-- The packets of `conversation` in three batches. -/
def conversationBatches : List (List RawPacket × List (Option RawPacket)) :=
  [([synPacket 1000, requestPacket], []),
    ([requestPacket, finPacket, synPacket 1001], [none, none]), ([resetPacket 1001], [])]

theorem engine_linearized_conversation :
    ∃ (scratch' : PacketScratch) (memory' : EngineMemory) (log : List ServedBatch)
      (tables : Nat → Flows),
      smallEngine.processBatches inOrder conversationBatches
          ⟨[], [], [], [], FlowSet.default⟩ freshMemory =
        .ok (scratch', memory', log.map ServedBatch.outputs) ∧
      log.map ServedBatch.packets = conversationBatches.map Prod.fst ∧
      tables 0 = emptyFlows ∧ tables (servedItems log).length = memory'.storage.flows ∧
      ItemRun smallEngine.config (servedItems log) tables ∧ memory'.packets = 6 := by
  obtain ⟨scratch', memory', log, tables, hrun, hlog, -, hstart, hend, run, -, hpackets⟩ :=
    @engine_linearized _ _ _ _ ⟨[], [], [], [], FlowSet.default⟩ freshMemory new_smallAdapter
      inOrder_complete FlowSet.Reachable.default rfl conversationBatches
  exact ⟨scratch', memory', log, tables, hrun, hlog, hstart, hend, run, hpackets⟩

end Shader
end Packet
end Gput
