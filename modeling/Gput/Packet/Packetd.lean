import Gput.Packet.Daemon

/-!
# The packet daemon on its engines

On the CPU engine the daemon sends what the engine emits for the received packets one
by one: batches do not show (`packetd_cpu`).  On the GPU engine every received packet
takes effect once, in one common order, and its reply is sent once (`packetd_gpu`).
On both it stops only for a failed read, a packet that is too long, or a send of the
run that fails or falls short.
-/

namespace Gput
namespace Packet
namespace Daemon

section Cpu

variable {config : PacketEngineConfig}

/-- What the provided `process_batch_to` hands its sink. -/
def deliveriesFrom : Nat → List (Option RawPacket) → List Delivery
  | _, [] => []
  | sourceIndex, packet :: output =>
      (sourceIndex, packet.map RawPacket.bytes) :: deliveriesFrom (sourceIndex + 1) output

theorem emitOutputs_eq {τ : Type} (sink : PacketSink τ) (output : List (Option RawPacket))
    (sourceIndex : Nat) (s : τ) :
    emitOutputs sink sourceIndex output s = deliver sink (deliveriesFrom sourceIndex output) s := by
  induction output generalizing sourceIndex s with
  | nil => rfl
  | cons packet output ih => simp only [emitOutputs, deliveriesFrom, deliver, ih]

theorem emissions_deliveriesFrom (output : List (Option RawPacket)) (sourceIndex : Nat) :
    emissions (deliveriesFrom sourceIndex output) =
      output.filterMap (Option.map RawPacket.bytes) := by
  induction output generalizing sourceIndex with
  | nil => rfl
  | cons packet output ih =>
      have ih := ih (sourceIndex + 1)
      rw [emissions] at ih ⊢
      rw [deliveriesFrom, List.filterMap_cons, List.filterMap_cons, ih]

/-- A batch of the CPU engine. -/
def CpuStep (config : PacketEngineConfig) (packets : List RawPacket) (state state' : CpuState)
    (deliveries : List Delivery) : Prop :=
  ∃ output, cpuBatchInto config packets [] state = .ok (state', output) ∧
    deliveries = deliveriesFrom 0 output

theorem cpu_drives : Drives (cpuPacketEngine config) (fun _ => True) (CpuStep config) where
  total := by
    intro state packets _
    obtain ⟨result, hrun, -⟩ := processBatchInto_total state.flows config packets
    refine ⟨⟨result.1, state.dispatches + 1, state.packets + UInt64.ofNat packets.length⟩, _,
      trivial, result.2, ?_, rfl⟩
    simp only [cpuBatchInto, hrun, Outcome.ok_bind, Outcome.pure_eq]
  runs := by
    rintro packets state state' deliveries ⟨output, hrun, rfl⟩ τ sink s
    simp only [cpuPacketEngine, hrun, Outcome.ok_bind, emitOutputs_eq]

theorem processBatchInto_append {flows middle flows' : FlowTable} {first second : List RawPacket}
    {output output' : List (Option RawPacket)}
    (hfirst : processBatchInto flows config first = .ok (middle, output))
    (hsecond : processBatchInto middle config second = .ok (flows', output')) :
    processBatchInto flows config (first ++ second) = .ok (flows', output ++ output') := by
  induction first generalizing flows output with
  | nil =>
      cases hfirst
      exact hsecond
  | cons packet first ih =>
      obtain ⟨⟨next, reply⟩, hpacket, hrest⟩ := Outcome.bind_eq_ok.mp hfirst
      obtain ⟨⟨last, replies⟩, hlater, hlast⟩ := Outcome.bind_eq_ok.mp hrest
      cases hlast
      simp only [List.cons_append, processBatchInto, hpacket, ih hlater, Outcome.ok_bind,
        Outcome.pure_eq]

/-- Batch by batch the CPU engine does what it does packet by packet. -/
theorem Transcript.cpu {log : List (List RawPacket × List Delivery)} {state : CpuState}
    (transcript : Transcript (CpuStep config) CpuState.new log state) :
    ∃ output, processBatchInto ∅ config (log.map Prod.fst).flatten = .ok (state.flows, output) ∧
      emissions (log.map Prod.snd).flatten = output.filterMap (Option.map RawPacket.bytes) ∧
      state.dispatches = UInt64.ofNat log.length ∧
      state.packets = UInt64.ofNat (log.map Prod.fst).flatten.length := by
  induction transcript with
  | start => exact ⟨[], rfl, rfl, rfl, rfl⟩
  | batch _ hstep ih =>
      obtain ⟨output, hrun, hsent, hdispatches, hpackets⟩ := ih
      obtain ⟨output', hbatch, rfl⟩ := hstep
      obtain ⟨⟨flows, _⟩, hflows, hstate⟩ := Outcome.bind_eq_ok.mp hbatch
      cases hstate
      refine ⟨output ++ output', ?_, ?_, by simp [hdispatches, UInt64.ofNat_add],
        by simp [hpackets, UInt64.ofNat_add]⟩
      · simpa using processBatchInto_append hrun hflows
      · rw [List.map_append, List.flatten_append, emissions, List.filterMap_append,
          List.filterMap_append, ← hsent, ← emissions_deliveriesFrom output' 0]
        simp [emissions]

/-- The daemon has offered some batches to the CPU engine and sent what the engine
emits for their packets, one by one. -/
structure CpuServed (config : PacketEngineConfig) (past : List TunEvent) (s : State CpuState)
    (offered : List (List RawPacket)) (output : List (Option RawPacket)) : Prop where
  received : (offered.flatten ++ s.batch).map RawPacket.bytes = arrivals past
  ran : processBatchInto ∅ config offered.flatten = .ok (s.engine.flows, output)
  sent : s.sent = output.filterMap (Option.map RawPacket.bytes)
  dispatches : s.engine.dispatches = UInt64.ofNat offered.length
  packets : s.engine.packets = UInt64.ofNat offered.flatten.length

theorem Transcript.cpuServed {log : List (List RawPacket × List Delivery)}
    {past : List TunEvent} {s : State CpuState}
    (transcript : Transcript (CpuStep config) CpuState.new log s.engine)
    (hreceived : ((log.map Prod.fst).flatten ++ s.batch).map RawPacket.bytes = arrivals past)
    (hsent : s.sent = emissions (log.map Prod.snd).flatten) :
    ∃ output, CpuServed config past s (log.map Prod.fst) output := by
  obtain ⟨output, hrun, hemitted, hdispatches, hpackets⟩ := transcript.cpu
  exact ⟨output, hreceived, hrun, hsent.trans hemitted, by simpa using hdispatches, hpackets⟩

end Cpu

section Gpu

open Shader

variable {engine : GpuPacketEngine} {schedule : Schedule}

/-- A batch of the GPU engine: its packets take effect one at a time, in the order of
the trace, and the sink is handed the same deliveries in the order of the waves. -/
structure GpuStep (engine : GpuPacketEngine) (schedule : Schedule) (packets : List RawPacket)
    (state state' : PacketScratch × EngineMemory) (deliveries trace : List Delivery) : Prop where
  runs : ∀ (τ : Type) (sink : PacketSink τ) (s : τ),
    (gpuPacketEngine engine schedule).processBatchTo sink packets state s =
      (do
        let s ← deliver sink deliveries s
        return (state', s))
  once : (trace.map Prod.fst).Perm (List.range packets.length)
  byWaves : ∃ traces : List (List Delivery), trace = traces.flatten ∧
    List.Forall₂ List.Perm (traces.map (List.map Prod.fst)) (waves packets engine.waveLimits)
  perm : trace.Perm deliveries
  sources : deliveries.map Prod.fst = (waves packets engine.waveLimits).flatten
  invoked : Invoked engine.config state.2.storage.flows (served packets trace)
    state'.2.storage.flows
  packetCount : state'.2.packets = state.2.packets + UInt64.ofNat packets.length

theorem gpu_drives (built : engine.Built) (complete : schedule.Complete) :
    Drives (gpuPacketEngine engine schedule) (fun state => state.1.seen.Reachable)
      (fun packets state state' deliveries =>
        ∃ trace, GpuStep engine schedule packets state state' deliveries trace) where
  total := by
    rintro ⟨scratch, memory⟩ packets hreach
    obtain ⟨scratch', memory', traces, deliveries, hreach', hperm, hserved, hrun⟩ :=
      processBatchTo_device built complete packets hreach memory
    refine ⟨(scratch', memory'), deliveries, hreach', traces.flatten, ?_, ?_,
      ⟨traces, rfl, hserved.order⟩, hserved.perm, hserved.sources, hserved.invoked, ?_⟩
    · intro τ sink s
      simp only [gpuPacketEngine, hrun]
      cases deliver sink deliveries s <;> rfl
    · refine (hserved.perm.map Prod.fst).trans ?_
      rw [hserved.sources]
      exact hperm
    · rw [hserved.packetCount, hperm.length_eq, List.length_range]
  runs := by
    rintro packets state state' deliveries ⟨trace, hstep⟩
    exact hstep.runs

/-- A batch that was offered: what the sink was handed, and the order in which the
packets took effect. -/
structure OfferedBatch where
  packets : List RawPacket
  deliveries : List Delivery
  trace : List Delivery

/-- Every packet took effect once, wave by wave, and what was read back for it was
handed to the sink, in the order of the waves. -/
structure OfferedBatch.Sound (limits : Nat × Nat) (batch : OfferedBatch) : Prop where
  once : (batch.trace.map Prod.fst).Perm (List.range batch.packets.length)
  byWaves : ∃ traces : List (List Delivery), batch.trace = traces.flatten ∧
    List.Forall₂ List.Perm (traces.map (List.map Prod.fst)) (waves batch.packets limits)
  perm : batch.trace.Perm batch.deliveries
  sources : batch.deliveries.map Prod.fst = (waves batch.packets limits).flatten

/-- The packets of offered batches in the order in which they took effect, with what
was read back for them. -/
def offeredItems (log : List OfferedBatch) : List (RawPacket × Option (List UInt8)) :=
  log.flatMap fun batch => served batch.packets batch.trace

/-- Batch by batch the packets take effect one at a time. -/
theorem Transcript.gpu {start state : PacketScratch × EngineMemory}
    {log : List (List RawPacket × List Delivery)}
    (transcript : Transcript (fun packets state state' deliveries =>
      ∃ trace, GpuStep engine schedule packets state state' deliveries trace) start log state) :
    ∃ offered : List OfferedBatch,
      offered.map OfferedBatch.packets = log.map Prod.fst ∧
      offered.map OfferedBatch.deliveries = log.map Prod.snd ∧
      (∀ batch ∈ offered, batch.Sound engine.waveLimits) ∧
      Invoked engine.config start.2.storage.flows (offeredItems offered)
        state.2.storage.flows ∧
      state.2.packets = start.2.packets + UInt64.ofNat (log.map Prod.fst).flatten.length := by
  induction transcript with
  | start => exact ⟨[], rfl, rfl, by simp, .nil _, by simp⟩
  | @batch _ _ _ packets deliveries _ hstep ih =>
      obtain ⟨offered, hpackets, hdeliveries, hsound, hinvoked, hcounted⟩ := ih
      obtain ⟨trace, step⟩ := hstep
      refine ⟨offered ++ [⟨packets, deliveries, trace⟩], by simp [hpackets],
        by simp [hdeliveries], ?_, ?_, ?_⟩
      · intro batch hmem
        rcases List.mem_append.mp hmem with hmem | hmem
        · exact hsound batch hmem
        · cases List.mem_singleton.mp hmem
          exact ⟨step.once, step.byWaves, step.perm, step.sources⟩
      · rw [offeredItems, List.flatMap_append, List.flatMap_singleton]
        exact hinvoked.append step.invoked
      · rw [step.packetCount, hcounted]
        simp [UInt64.ofNat_add, UInt64.add_assoc]

/-- What went out is what was read back for the packets. -/
theorem emissions_perm {limits : Nat × Nat} {log : List OfferedBatch}
    (hsound : ∀ batch ∈ log, batch.Sound limits) :
    (emissions (log.map OfferedBatch.deliveries).flatten).Perm
      ((offeredItems log).filterMap Prod.snd) := by
  induction log with
  | nil => exact .refl _
  | cons batch log ih =>
      obtain ⟨hbatch, hlog⟩ := List.forall_mem_cons.mp hsound
      have hinside : ∀ delivery ∈ batch.trace, delivery.1 < batch.packets.length := fun _ hmem =>
        List.mem_range.mp (hbatch.once.subset (List.mem_map_of_mem hmem))
      have hread : (served batch.packets batch.trace).filterMap Prod.snd =
          batch.trace.filterMap Prod.snd := by
        have hsecond := congrArg (List.filterMap id) (served_snd hinside)
        simpa [List.filterMap_map] using hsecond
      rw [List.map_cons, List.flatten_cons, emissions, List.filterMap_append, offeredItems,
        List.flatMap_cons, List.filterMap_append, hread]
      exact (hbatch.perm.symm.filterMap _).append (ih hlog)

/-- The daemon has offered some batches to the GPU engine: from the empty table to the
last, their packets took effect one after the other, and the reply to each was sent
once, in the order of the waves. -/
structure GpuServed (engine : GpuPacketEngine) (memory : EngineMemory) (past : List TunEvent)
    (s : State (PacketScratch × EngineMemory)) (offered : List OfferedBatch)
    (tables : Nat → Flows) : Prop where
  received : ((offered.map OfferedBatch.packets).flatten ++ s.batch).map RawPacket.bytes =
    arrivals past
  sound : ∀ batch ∈ offered, batch.Sound engine.waveLimits
  first : tables 0 = emptyFlows
  last : tables (offeredItems offered).length = s.engine.2.storage.flows
  items : ItemRun engine.config (offeredItems offered) tables
  sent : s.sent = emissions (offered.map OfferedBatch.deliveries).flatten
  replies : s.sent.Perm ((offeredItems offered).filterMap Prod.snd)
  packets : s.engine.2.packets =
    memory.packets + UInt64.ofNat (offered.map OfferedBatch.packets).flatten.length

theorem Transcript.gpuServed {memory : EngineMemory} (valid : ValidConfig engine.config)
    (hempty : memory.storage.flows = emptyFlows) {scratch : PacketScratch}
    {log : List (List RawPacket × List Delivery)} {past : List TunEvent}
    {s : State (PacketScratch × EngineMemory)}
    (transcript : Transcript (fun packets state state' deliveries =>
      ∃ trace, GpuStep engine schedule packets state state' deliveries trace) (scratch, memory)
      log s.engine)
    (hreceived : ((log.map Prod.fst).flatten ++ s.batch).map RawPacket.bytes = arrivals past)
    (hsent : s.sent = emissions (log.map Prod.snd).flatten) :
    ∃ offered tables, offered.map OfferedBatch.packets = log.map Prod.fst ∧
      GpuServed engine memory past s offered tables := by
  obtain ⟨offered, hpackets, hdeliveries, hsound, hinvoked, hcounted⟩ := transcript.gpu
  rw [hempty] at hinvoked
  obtain ⟨tables, hfirst, hlast, items⟩ :=
    hinvoked.itemRun valid ⟨emptyFlows_invariant _, emptyFlows_known⟩
  rw [← hpackets] at hreceived hcounted
  rw [← hdeliveries] at hsent
  refine ⟨offered, tables, hpackets, hreceived, hsound, hfirst, hlast, items, hsent, ?_, hcounted⟩
  rw [hsent]
  exact emissions_perm hsound

end Gpu

section Packetd

variable {config : PacketEngineConfig} {settings : Settings} {events : List TunEvent}

/-- **The daemon on the CPU engine.**  It stops only with an error: for a failed read,
for a packet that is longer than a buffer, or for a response of the engine that the
device refused.  While it goes on, what it has sent is what the engine emits, packet
by packet, for the packets it received, in order, apart from those that wait in the
current batch; there are never more buffers than a batch has places. -/
theorem packetd_cpu (hvalid : validateConfig config = .ok ())
    (hcapacity : settings.batchCapacity = config.maxBatchSize) {s : State CpuState}
    (run : (packetd (cpuPacketEngine config) settings CpuState.new).Run events s) :
    (∀ outcome, s.mode = .stopped outcome → (∃ message, outcome = .err message) ∧
      ((∃ e ∈ events, ¬ Harmless e) ∨
        ∃ offered output flows' output', CpuServed config events s offered output ∧
          processBatchInto s.engine.flows config s.batch = .ok (flows', output') ∧
          Refuses settings.send s.sent (output'.filterMap (Option.map RawPacket.bytes)))) ∧
    (s.Running → ∃ offered output, CpuServed config events s offered output ∧
      (∀ batch ∈ offered, 0 < batch.length ∧ batch.length ≤ settings.batchCapacity) ∧
      s.packetsIn = min offered.flatten.length (2 ^ 64 - 1) ∧
      s.packetsOut = min s.sent.length (2 ^ 64 - 1) ∧
      s.batches = min offered.length (2 ^ 64 - 1) ∧
      s.batch.length + s.sparePackets.length ≤ settings.batchCapacity ∧
      s.receiveAllocations ≤ settings.batchCapacity ∧
      s.peakBatch ≤ settings.batchCapacity) := by
  have hpositive : 0 < settings.batchCapacity := by
    rw [hcapacity]
    exact (validateConfig_eq_ok.mp hvalid).batch_pos
  have hserving := serving_run cpu_drives hpositive trivial run
  refine ⟨fun outcome hstopped => ?_, fun hrunning => ?_⟩
  · obtain ⟨herror, hread | ⟨log, refused⟩⟩ := hserving.stopped hstopped
    · exact ⟨herror, Or.inl hread⟩
    · obtain ⟨output, hserved⟩ := refused.transcript.cpuServed refused.received refused.sent
      obtain ⟨state', _, ⟨output', hbatch, rfl⟩, hrefuses⟩ := refused.refused
      obtain ⟨⟨flows', _⟩, hflows, hstate⟩ := Outcome.bind_eq_ok.mp hbatch
      cases hstate
      rw [emissions_deliveriesFrom] at hrefuses
      exact ⟨herror, Or.inr ⟨_, output, flows', output', hserved, hflows, hrefuses⟩⟩
  · obtain ⟨-, -, log, account⟩ := hserving.account hrunning
    obtain ⟨output, hserved⟩ := account.transcript.cpuServed account.received account.sent
    refine ⟨_, output, hserved, ?_, account.packetsIn, account.packetsOut, ?_, account.buffers, ?_,
      account.peak⟩
    · simpa using fun packets deliveries hmem => account.filled (packets, deliveries) hmem
    · rw [account.batches, List.length_map]
    · rw [account.allocations]
      exact (Nat.min_le_left _ _).trans account.buffers

open Shader in
/-- **The daemon on the GPU engine.**  It stops for the same causes only, whatever the
device's buffers hold at first and in whatever order it takes the invocations (whole,
one at a time, and no compare-exchange fails on an unchanged slot).  While it goes on, every received packet outside the current batch took
effect once, one after the other from the empty flow table, and its reply there was
sent once; there are never more buffers than a batch has places. -/
theorem packetd_gpu {limits : AdapterLimits} {engine : GpuPacketEngine} {schedule : Schedule}
    {memory : EngineMemory} (hnew : GpuPacketEngine.new config limits = .ok engine)
    (complete : schedule.Complete) (hempty : memory.storage.flows = emptyFlows)
    (hcapacity : settings.batchCapacity = config.maxBatchSize)
    {s : State (PacketScratch × EngineMemory)}
    (run : (packetd (gpuPacketEngine engine schedule) settings
      (⟨[], [], [], [], FlowSet.default⟩, memory)).Run events s) :
    (∀ outcome, s.mode = .stopped outcome → (∃ message, outcome = .err message) ∧
      ((∃ e ∈ events, ¬ Harmless e) ∨
        ∃ offered tables state' deliveries trace, GpuServed engine memory events s offered tables ∧
          GpuStep engine schedule s.batch s.engine state' deliveries trace ∧
          Refuses settings.send s.sent (emissions deliveries))) ∧
    (s.Running → ∃ offered tables, GpuServed engine memory events s offered tables ∧
      (∀ batch ∈ offered, 0 < batch.packets.length ∧
        batch.packets.length ≤ settings.batchCapacity) ∧
      s.packetsIn =
        min (offered.map OfferedBatch.packets).flatten.length (2 ^ 64 - 1) ∧
      s.packetsOut = min s.sent.length (2 ^ 64 - 1) ∧
      s.batches = min offered.length (2 ^ 64 - 1) ∧
      s.batch.length + s.sparePackets.length ≤ settings.batchCapacity ∧
      s.receiveAllocations ≤ settings.batchCapacity ∧
      s.peakBatch ≤ settings.batchCapacity) := by
  obtain ⟨built, rfl⟩ := GpuPacketEngine.built_of_new hnew
  have hpositive : 0 < settings.batchCapacity := by
    rw [hcapacity]
    exact built.valid.batch_pos
  have hserving := serving_run (gpu_drives built complete) hpositive FlowSet.Reachable.default run
  refine ⟨fun outcome hstopped => ?_, fun hrunning => ?_⟩
  · obtain ⟨herror, hread | ⟨log, refused⟩⟩ := hserving.stopped hstopped
    · exact ⟨herror, Or.inl hread⟩
    · obtain ⟨offered, tables, -, hserved⟩ :=
        refused.transcript.gpuServed built.valid hempty refused.received refused.sent
      obtain ⟨state', deliveries, ⟨trace, hstep⟩, hrefuses⟩ := refused.refused
      exact ⟨herror,
        Or.inr ⟨offered, tables, state', deliveries, trace, hserved, hstep, hrefuses⟩⟩
  · obtain ⟨-, -, log, account⟩ := hserving.account hrunning
    obtain ⟨offered, tables, hpackets, hserved⟩ :=
      account.transcript.gpuServed built.valid hempty account.received account.sent
    refine ⟨offered, tables, hserved, ?_, ?_, account.packetsOut, ?_, account.buffers, ?_,
      account.peak⟩
    · intro batch hbatch
      have hmem : batch.packets ∈ log.map Prod.fst := by
        rw [← hpackets]
        exact List.mem_map_of_mem hbatch
      obtain ⟨other, hother, hsame⟩ := List.mem_map.mp hmem
      rw [← hsame]
      exact account.filled other hother
    · rw [hpackets]
      exact account.packetsIn
    · have hlength := congrArg List.length hpackets
      rw [List.length_map, List.length_map] at hlength
      rw [account.batches, hlength]
    · rw [account.allocations]
      exact (Nat.min_le_left _ _).trans account.buffers

end Packetd

section Conversation

/-- A device that takes every packet whole, and batches of up to four. -/
def wholeSends : Settings where
  batchCapacity := 4
  send _ bytes := some bytes.length

theorem packetd_cpu_conversation :
    ∃ s offered output,
      (packetd (cpuPacketEngine ⟨4, 4, 4, 8080⟩) wholeSends CpuState.new).Run
        (deliveredReads conversation) s ∧
      CpuServed ⟨4, 4, 4, 8080⟩ (deliveredReads conversation) s offered output := by
  have hvalid : validateConfig ⟨4, 4, 4, 8080⟩ = .ok () := by decide +kernel
  obtain ⟨s, hrun, hrunning⟩ := run_delivered (@cpu_drives ⟨4, 4, 4, 8080⟩)
    (show 0 < wholeSends.batchCapacity by decide) trivial (fun _ _ => rfl) conversation
  obtain ⟨offered, output, hserved, -⟩ :=
    (@packetd_cpu ⟨4, 4, 4, 8080⟩ wholeSends _ hvalid rfl s hrun).2 hrunning
  exact ⟨s, offered, output, hrun, hserved⟩

open Shader in
/-- An engine for batches of four. -/
def fourPackets : GpuPacketEngine where
  config := { maxBatchSize := 4, flowCapacity := 4, flowProbeLimit := 4, listenPort := 8080 }
  inputWordCapacity := 1536
  inputMetaBytes := 32
  inputWordsBytes := 6144
  outputBytes := 784

open Shader in
theorem packetd_gpu_conversation :
    ∃ s offered tables,
      (packetd (gpuPacketEngine fourPackets inOrder) wholeSends
        (⟨[], [], [], [], FlowSet.default⟩, freshMemory)).Run (deliveredReads conversation) s ∧
      GpuServed fourPackets freshMemory (deliveredReads conversation) s offered tables := by
  have hnew : GpuPacketEngine.new fourPackets.config smallAdapter = .ok fourPackets := by
    decide +kernel
  obtain ⟨built, -⟩ := GpuPacketEngine.built_of_new hnew
  have hdelivered : ∃ s, (packetd (gpuPacketEngine fourPackets inOrder) wholeSends
      (⟨[], [], [], [], FlowSet.default⟩, freshMemory)).Run (deliveredReads conversation) s ∧
      s.Running :=
    run_delivered (gpu_drives built inOrder_complete) (show 0 < wholeSends.batchCapacity by decide)
      FlowSet.Reachable.default (fun _ _ => rfl) conversation
  obtain ⟨s, hrun, hrunning⟩ := hdelivered
  obtain ⟨offered, tables, hserved, -⟩ := (@packetd_gpu fourPackets.config wholeSends _ smallAdapter
    fourPackets inOrder freshMemory hnew inOrder_complete rfl rfl s hrun).2 hrunning
  exact ⟨s, offered, tables, hrun, hserved⟩

end Conversation

end Daemon
end Packet
end Gput
