import Gput.Packet.Agreement
import Gput.Packet.Independence
import Gput.Packet.Linearized

/-!
# Batches through both engines

As long as there is room for every flow in sight and no packet is overtaken, the
GPU engine is a machine of independent flows (`processBatches_machine`): how the
packets are cut into batches, how these are packed into waves and in which order the
invocations run does not show (`batches_invisible`).  The CPU engine is such a machine
too, so the engines can be compared packet by packet, in the order in which they were
handed over (`batches_agree_iff`).
-/

namespace Gput
namespace Packet
namespace Shader

open OpenAddressing

/-- The shader with room for every flow, as a machine of independent flows. -/
def shaderMachine (config : PacketEngineConfig) :
    KeyedMachine FlowKey (Option Flow) RawPacket (Option (List UInt8)) where
  key := packetKey
  step key entry packet :=
    match listened config packet with
    | none => (entry, none)
    | some tcp =>
        let result := shaderFlowStep true key entry tcp
        (result.1, result.2.map (shaderReplyBytes key))
  idle := none

theorem shaderFlowStep_room (room : Bool) (key : FlowKey) (entry : Option Flow)
    (tcp : TcpPacketView) (h : entry = none → room = true) :
    shaderFlowStep room key entry tcp = shaderFlowStep true key entry tcp := by
  unfold shaderFlowStep
  cases entry with
  | none => simp [h rfl]
  | some flow => rfl

theorem packetKey_of_listened {config : PacketEngineConfig} {packet : RawPacket}
    {tcp : TcpPacketView} (h : listened config packet = some tcp) :
    packetKey packet = some tcp.key := by
  rw [packetKey, (listened_eq_some.mp h).1]
  rfl

section Machine

variable {config : PacketEngineConfig} {packet : RawPacket} {cells : FlowKey → Option Flow}

theorem shaderMachine_ignored (h : listened config packet = none) :
    (shaderMachine config).next cells packet = cells ∧
      (shaderMachine config).output cells packet = none := by
  unfold KeyedMachine.next KeyedMachine.output shaderMachine
  simp only [h]
  cases packetKey packet with
  | none => exact ⟨rfl, rfl⟩
  | some key => exact ⟨Function.update_eq_self _ _, rfl⟩

theorem shaderMachine_listened {tcp : TcpPacketView} (h : listened config packet = some tcp) :
    (shaderMachine config).next cells packet =
        Function.update cells tcp.key (shaderFlowStep true tcp.key (cells tcp.key) tcp).1 ∧
      (shaderMachine config).output cells packet =
        (shaderFlowStep true tcp.key (cells tcp.key) tcp).2.map (shaderReplyBytes tcp.key) := by
  unfold KeyedMachine.next KeyedMachine.output shaderMachine
  simp only [packetKey_of_listened h, h, and_self]

end Machine

/-- A flow table with room: it holds what a map holds whose keys are all among
`keys`. -/
structure Roomy (config : PacketEngineConfig) (keys : Finset FlowKey) (flows : Flows) : Prop where
  good : GoodFlows config flows
  table : ∃ table : FlowTable, entries table = shaderEntries config flows ∧ table.keys ⊆ keys

section Roomy

variable {config : PacketEngineConfig} {keys : Finset FlowKey} {flows flows' : Flows}

theorem shaderEntries_emptyFlows (config : PacketEngineConfig) :
    shaderEntries config emptyFlows = fun _ => none := by
  funext key
  exact tableEntry_of_absent (emptyFlows_invariant _)
    (fun i heq => by rw [cells_emptyFlows] at heq; cases heq)

theorem roomy_emptyFlows (config : PacketEngineConfig) (keys : Finset FlowKey) :
    Roomy config keys emptyFlows := by
  refine ⟨⟨emptyFlows_invariant _, emptyFlows_known⟩, ∅, ?_, Finset.empty_subset _⟩
  rw [shaderEntries_emptyFlows]
  funext key
  exact Finmap.lookup_empty key

/-- With room, a packet is one input of the machine. -/
theorem PacketStep.machine (valid : ValidConfig config)
    (hprobes : config.flowProbeLimit = config.flowCapacity)
    (hcapacity : keys.card ≤ config.flowCapacity) (roomy : Roomy config keys flows)
    {packet : RawPacket} {output : Option (List UInt8)}
    (hpacket : ∀ key, packetKey packet = some key → key ∈ keys)
    (h : PacketStep config packet flows flows' output) :
    Roomy config keys flows' ∧
      shaderEntries config flows' =
        (shaderMachine config).next (shaderEntries config flows) packet ∧
      output = (shaderMachine config).output (shaderEntries config flows) packet := by
  obtain ⟨table, htable, hkeys⟩ := roomy.table
  cases hview : listened config packet with
  | none =>
      obtain ⟨hsame, hnone⟩ := h.ignored hview
      obtain ⟨hnext, houtput⟩ := @shaderMachine_ignored _ _ (shaderEntries config flows) hview
      exact ⟨⟨h.good, table, htable.trans hsame.symm, hkeys⟩, hsame.trans hnext.symm,
        hnone.trans houtput.symm⟩
  | some tcp =>
      obtain ⟨hentries, hreplied, -⟩ := h.step tcp hview
      have hmem := hpacket _ (packetKey_of_listened hview)
      have hroom : shaderEntries config flows tcp.key = none →
          hasVacancy config flows tcp.key = true := by
        intro habsent
        rw [hasVacancy_iff tcp.key valid hprobes roomy.good htable]
        rw [← htable] at habsent
        exact room_of_absent hkeys hcapacity hmem habsent
      rw [shaderFlowStep_room _ _ _ _ hroom] at hentries hreplied
      obtain ⟨hnext, houtput⟩ := @shaderMachine_listened _ _ (shaderEntries config flows) _ hview
      refine ⟨⟨h.good, table.setEntry tcp.key
        (shaderFlowStep true tcp.key (shaderEntries config flows tcp.key) tcp).1, ?_, ?_⟩,
        hentries.trans hnext.symm, hreplied.trans houtput.symm⟩
      · rw [entries_setEntry, htable, hentries]
      · intro key hkey
        rw [mem_keys_iff, entries_setEntry] at hkey
        by_cases hsame : key = tcp.key
        · rw [hsame]
          exact hmem
        · rw [Function.update_of_ne hsame] at hkey
          exact hkeys (mem_keys_iff.mpr hkey)

/-- With room, packets one at a time are a run of the machine. -/
theorem Invoked.machine (valid : ValidConfig config)
    (hprobes : config.flowProbeLimit = config.flowCapacity)
    (hcapacity : keys.card ≤ config.flowCapacity) (roomy : Roomy config keys flows)
    {items : List (RawPacket × Option (List UInt8))}
    (hitems : ∀ item ∈ items, ∀ key, packetKey item.1 = some key → key ∈ keys)
    (invoked : Invoked config flows items flows') :
    Roomy config keys flows' ∧
      shaderEntries config flows' =
        (shaderMachine config).cellsAfter (shaderEntries config flows) (items.map Prod.fst) ∧
      items.map Prod.snd =
        (shaderMachine config).outputs (shaderEntries config flows) (items.map Prod.fst) := by
  induction invoked with
  | nil flows => exact ⟨roomy, rfl, rfl⟩
  | cons output presented fits _ ih =>
      obtain ⟨hpacket, hitems⟩ := List.forall_mem_cons.mp hitems
      obtain ⟨hnext, hentries, hfirst⟩ :=
        (packetStep_of_presented valid roomy.good presented fits output).machine valid hprobes
          hcapacity roomy hpacket
      obtain ⟨hlast, hcells, hrest⟩ := ih hnext hitems
      rw [hentries] at hcells hrest
      exact ⟨hlast, hcells, congrArg₂ List.cons hfirst hrest⟩

end Roomy

theorem served_fst (packets : List RawPacket) (trace : List Delivery) :
    (served packets trace).map Prod.fst =
      trace.filterMap fun delivery => packets[delivery.1]? := by
  rw [served, List.map_filterMap]
  refine List.filterMap_congr fun delivery _ => ?_
  cases packets[delivery.1]? with
  | none => rfl
  | some packet => rfl

theorem served_snd {packets : List RawPacket} {trace : List Delivery}
    (hinside : ∀ delivery ∈ trace, delivery.1 < packets.length) :
    (served packets trace).map Prod.snd = trace.map Prod.snd := by
  rw [served, List.map_filterMap, ← List.filterMap_eq_map]
  refine List.filterMap_congr fun delivery hmem => ?_
  rw [List.getElem?_eq_getElem (hinside delivery hmem)]
  rfl

theorem mem_served {packets : List RawPacket} {trace : List Delivery}
    {item : RawPacket × Option (List UInt8)} (h : item ∈ served packets trace) :
    item.1 ∈ packets := by
  obtain ⟨delivery, -, hitem⟩ := List.mem_filterMap.mp h
  obtain ⟨packet, hpacket, rfl⟩ := Option.map_eq_some_iff.mp hitem
  exact List.mem_of_getElem? hpacket

section Batch

variable {config : PacketEngineConfig} {limits : Nat × Nat}

/-- The outputs of a batch without overtaking are those of its packets in order. -/
theorem ServedBatch.Sound.machine {batch : ServedBatch} (sound : batch.Sound limits)
    (hovertaking : NoOvertaking batch.packets limits) (cells : FlowKey → Option Flow)
    (houtputs : (served batch.packets batch.trace).map Prod.snd =
      (shaderMachine config).outputs cells ((served batch.packets batch.trace).map Prod.fst)) :
    batch.outputs.map (Option.map RawPacket.bytes) =
        (shaderMachine config).outputs cells batch.packets ∧
      (shaderMachine config).cellsAfter cells ((served batch.packets batch.trace).map Prod.fst) =
        (shaderMachine config).cellsAfter cells batch.packets := by
  have hinside : ∀ delivery ∈ batch.trace, delivery.1 < batch.packets.length := fun _ hmem =>
    List.mem_range.mp (sound.once.subset (List.mem_map_of_mem hmem))
  rw [served_snd hinside] at houtputs
  rw [served_fst] at houtputs ⊢
  obtain ⟨hevents, hcells⟩ := (shaderMachine config).run_shuffled cells sound.once
    ((sound.ordered hovertaking).imp fun hflow packet packet' key hfirst hsecond hkey hkey' =>
      hflow ⟨key, keyAt_of_packetKey (by rw [hfirst]; exact hkey),
        keyAt_of_packetKey (by rw [hsecond]; exact hkey')⟩) houtputs
  refine ⟨?_, hcells⟩
  apply List.ext_getElem?
  intro i
  by_cases hi : i < batch.packets.length
  · obtain ⟨delivery, hmem, rfl⟩ := List.mem_map.mp
      (sound.once.symm.subset (List.mem_range.mpr hi))
    obtain ⟨slot, hslot, hbytes⟩ := sound.delivered delivery hmem
    rw [hevents delivery hmem, List.getElem?_map, hslot, Option.map_some, hbytes]
  · rw [List.getElem?_eq_none (by rw [List.length_map, sound.length]; omega),
      List.getElem?_eq_none (by rw [KeyedMachine.outputs_length]; omega)]

/-- And so are the outputs of batches one after the other. -/
theorem servedItems_machine {log : List ServedBatch} (hsound : ∀ batch ∈ log, batch.Sound limits)
    (hovertaking : ∀ batch ∈ log, NoOvertaking batch.packets limits)
    (cells : FlowKey → Option Flow)
    (houtputs : (servedItems log).map Prod.snd =
      (shaderMachine config).outputs cells ((servedItems log).map Prod.fst)) :
    (log.map ServedBatch.outputs).flatten.map (Option.map RawPacket.bytes) =
        (shaderMachine config).outputs cells (log.map ServedBatch.packets).flatten ∧
      (shaderMachine config).cellsAfter cells ((servedItems log).map Prod.fst) =
        (shaderMachine config).cellsAfter cells (log.map ServedBatch.packets).flatten := by
  induction log generalizing cells with
  | nil => exact ⟨rfl, rfl⟩
  | cons batch log ih =>
      obtain ⟨hfirst, hsound⟩ := List.forall_mem_cons.mp hsound
      obtain ⟨hordered, hovertaking⟩ := List.forall_mem_cons.mp hovertaking
      rw [servedItems, List.flatMap_cons, ← servedItems] at houtputs ⊢
      rw [List.map_append, List.map_append, KeyedMachine.outputs_append] at houtputs
      obtain ⟨hnow, hlater⟩ := List.append_inj houtputs (by
        rw [KeyedMachine.outputs_length, List.length_map, List.length_map])
      obtain ⟨houts, hcells⟩ := hfirst.machine hordered cells hnow
      rw [hcells] at hlater
      obtain ⟨hrest, hend⟩ := ih hsound hovertaking _ hlater
      constructor
      · rw [List.map_cons, List.flatten_cons, List.map_append, houts, hrest, List.map_cons,
          List.flatten_cons, KeyedMachine.outputs_append]
      · rw [List.map_append, KeyedMachine.cellsAfter_append, hcells, hend, List.map_cons,
          List.flatten_cons, KeyedMachine.cellsAfter_append]

end Batch

section Batches

variable {config : PacketEngineConfig} {limits : AdapterLimits} {engine : GpuPacketEngine}
variable {schedule : Schedule} {scratch : PacketScratch} {memory : EngineMemory}

/-- The packets of batches, in the order in which they were handed over. -/
def handedOver (batches : List (List RawPacket × List (Option RawPacket))) : List RawPacket :=
  (batches.map Prod.fst).flatten

/-- With as many probes as slots, room for every flow and no packet overtaken, the
outputs of the GPU engine are those of a machine of independent flows over the
packets in the order in which they were handed over. -/
theorem processBatches_machine (hnew : GpuPacketEngine.new config limits = .ok engine)
    (complete : schedule.Complete) (hprobes : config.flowProbeLimit = config.flowCapacity)
    (hreach : scratch.seen.Reachable) (hempty : memory.storage.flows = emptyFlows)
    (batches : List (List RawPacket × List (Option RawPacket)))
    (hroom : (batchKeys (handedOver batches)).card ≤ config.flowCapacity)
    (hovertaking : ∀ batch ∈ batches, NoOvertaking batch.1 engine.waveLimits) :
    ∃ (scratch' : PacketScratch) (memory' : EngineMemory)
      (results : List (List (Option RawPacket))),
      engine.processBatches schedule batches scratch memory = .ok (scratch', memory', results) ∧
      results.map List.length = batches.map (fun batch => batch.1.length) ∧
      results.flatten.map (Option.map RawPacket.bytes) =
        (shaderMachine config).outputs (fun _ => none) (handedOver batches) ∧
      shaderEntries config memory'.storage.flows =
        (shaderMachine config).cellsAfter (fun _ => none) (handedOver batches) := by
  obtain ⟨built, rfl⟩ := GpuPacketEngine.built_of_new hnew
  obtain ⟨scratch', memory', log, hrun, hlog, hsound, hinvoked, -, -⟩ :=
    processBatches_device built complete batches hreach memory
  rw [hempty] at hinvoked
  have hitems : ∀ item ∈ servedItems log, ∀ key, packetKey item.1 = some key →
      key ∈ batchKeys (handedOver batches) := by
    intro item hitem key hkey
    obtain ⟨batch, hbatch, hserved⟩ := List.mem_flatMap.mp hitem
    have hpackets : batch.packets ∈ batches.map Prod.fst := by
      rw [← hlog]
      exact List.mem_map_of_mem hbatch
    refine List.mem_toFinset.mpr (List.mem_filterMap.mpr ⟨item.1, ?_, hkey⟩)
    exact List.mem_flatten.mpr ⟨_, hpackets, mem_served hserved⟩
  obtain ⟨-, hcells, houtputs⟩ := hinvoked.machine built.valid hprobes hroom
    (roomy_emptyFlows _ _) hitems
  rw [shaderEntries_emptyFlows] at hcells houtputs
  have hordered : ∀ batch ∈ log, NoOvertaking batch.packets engine.waveLimits := by
    intro batch hbatch
    have hpackets : batch.packets ∈ batches.map Prod.fst := by
      rw [← hlog]
      exact List.mem_map_of_mem hbatch
    obtain ⟨other, hother, hsame⟩ := List.mem_map.mp hpackets
    rw [← hsame]
    exact hovertaking other hother
  obtain ⟨hresults, hend⟩ := servedItems_machine hsound hordered _ houtputs
  rw [hlog] at hresults hend
  refine ⟨scratch', memory', _, hrun, ?_, hresults, hcells.trans hend⟩
  have hlengths : log.map (fun batch => batch.outputs.length) =
      log.map fun batch => batch.packets.length :=
    List.map_congr_left fun batch hbatch => (hsound batch hbatch).length
  have hbatches := congrArg (List.map List.length) hlog
  rw [List.map_map, List.map_map] at hbatches
  rw [List.map_map]
  exact hlengths.trans hbatches

end Batches

/-- The machine depends on the configuration by the port alone. -/
theorem shaderMachine_port {config config' : PacketEngineConfig}
    (hport : config'.listenPort = config.listenPort) :
    shaderMachine config' = shaderMachine config := by
  have hlistened : listened config' = listened config := by
    funext packet
    unfold listened
    rw [hport]
  unfold shaderMachine
  rw [hlistened]

section TwoEngines

variable {config config' : PacketEngineConfig} {limits limits' : AdapterLimits}
variable {engine engine' : GpuPacketEngine} {schedule schedule' : Schedule}
variable {scratch scratch' : PacketScratch} {memory memory' : EngineMemory}

/-- **Batches do not show.**  Two GPU engines that listen on one port, with as many
probes as slots and room for every flow, are handed the same packets, in orders that
agree on the packets of each flow, cut into any batches in which no packet is
overtaken.  Then every packet has the same output from both and both end with the
same flows, whatever their capacities, adapters, buffers, output vectors and orders of
the invocations are: these are taken whole, one at a time, and no compare-exchange
fails on an unchanged slot. -/
theorem batches_invisible (hnew : GpuPacketEngine.new config limits = .ok engine)
    (hnew' : GpuPacketEngine.new config' limits' = .ok engine')
    (hport : config'.listenPort = config.listenPort)
    (complete : schedule.Complete) (complete' : schedule'.Complete)
    (hprobes : config.flowProbeLimit = config.flowCapacity)
    (hprobes' : config'.flowProbeLimit = config'.flowCapacity)
    (hreach : scratch.seen.Reachable) (hreach' : scratch'.seen.Reachable)
    (hempty : memory.storage.flows = emptyFlows) (hempty' : memory'.storage.flows = emptyFlows)
    {n : Nat} (packets : Fin n → RawPacket) (π : Equiv.Perm (Fin n))
    (keep : KeyedMachine.KeepsOrder packetKey packets π)
    (batches batches' : List (List RawPacket × List (Option RawPacket)))
    (hbatches : handedOver batches = List.ofFn packets)
    (hbatches' : handedOver batches' = List.ofFn (packets ∘ π))
    (hroom : (batchKeys (List.ofFn packets)).card ≤ config.flowCapacity)
    (hroom' : (batchKeys (List.ofFn packets)).card ≤ config'.flowCapacity)
    (hovertaking : ∀ batch ∈ batches, NoOvertaking batch.1 engine.waveLimits)
    (hovertaking' : ∀ batch ∈ batches', NoOvertaking batch.1 engine'.waveLimits) :
    ∃ (scratch₁ scratch₂ : PacketScratch) (memory₁ memory₂ : EngineMemory)
      (results results' : List (List (Option RawPacket))),
      engine.processBatches schedule batches scratch memory = .ok (scratch₁, memory₁, results) ∧
      engine'.processBatches schedule' batches' scratch' memory' =
        .ok (scratch₂, memory₂, results') ∧
      results.flatten.length = n ∧ results'.flatten.length = n ∧
      (∀ i : Fin n, results'.flatten[i.val]? = results.flatten[(π i).val]?) ∧
      shaderEntries config' memory₂.storage.flows = shaderEntries config memory₁.storage.flows := by
  have hkeys : batchKeys (List.ofFn (packets ∘ π)) = batchKeys (List.ofFn packets) :=
    batchKeys_perm (Equiv.Perm.ofFn_comp_perm π packets)
  obtain ⟨scratch₁, memory₁, results, hrun, -, houtputs, hcells⟩ :=
    processBatches_machine hnew complete hprobes hreach hempty batches
      (by rw [hbatches]; exact hroom) hovertaking
  obtain ⟨scratch₂, memory₂, results', hrun', -, houtputs', hcells'⟩ :=
    processBatches_machine hnew' complete' hprobes' hreach' hempty' batches'
      (by rw [hbatches', hkeys]; exact hroom') hovertaking'
  rw [hbatches] at houtputs hcells
  rw [hbatches', shaderMachine_port hport] at houtputs' hcells'
  have hlength := congrArg List.length houtputs
  have hlength' := congrArg List.length houtputs'
  simp only [List.length_map, KeyedMachine.outputs_length, List.length_ofFn] at hlength hlength'
  refine ⟨scratch₁, scratch₂, memory₁, memory₂, results, results', hrun, hrun', hlength, hlength',
    ?_, ?_⟩
  · intro i
    have hsame := (shaderMachine config).run_reorder_outputs (fun _ => none) keep i
    rw [← houtputs, ← houtputs', List.getElem?_map, List.getElem?_map] at hsame
    exact Option.map_injective (Option.map_injective RawPacket.bytes_injective) hsame
  · rw [hcells, hcells']
    exact (shaderMachine config).run_reorder_cells (fun _ => none) keep

end TwoEngines

/-- The response an entry remembers is one of the table. -/
def KnownEntry (entry : Option Flow) : Prop :=
  ∀ flow last, entry = some flow → flow.lastResponse = some last →
    last.responseId < responseCount

/-- So is the one a reply carries. -/
def KnownReply (answer : Option Reply) : Prop :=
  ∀ reply id, answer = some reply → reply.response = some id → id < responseCount

section Known

variable {flow : Flow} {tcp : TcpPacketView}

theorem knownReply_plain (seq ack : UInt32) (flags : UInt8) :
    KnownReply (some { seq := seq, ack := ack, flags := flags, response := none }) := by
  intro reply id hreply hid
  cases hreply
  cases hid

theorem knownReply_opening (flow : Flow) : KnownReply (some (openingReply flow)) := by
  intro reply id hreply hid
  cases hreply
  rw [openingReply_response] at hid
  cases hid

theorem knownEntry_none : KnownEntry none := by
  intro flow last h
  cases h

theorem KnownEntry.outOfOrder (h : KnownEntry (some flow)) :
    KnownReply (some (outOfOrderReply flow tcp)) := by
  unfold outOfOrderReply
  cases hlast : flow.lastResponse with
  | none => exact knownReply_plain _ _ _
  | some last =>
      simp only
      split_ifs
      · intro reply id hreply hid
        cases hreply
        cases hid
        exact h flow last rfl hlast
      · exact knownReply_plain _ _ _

theorem KnownEntry.establishedStep (h : KnownEntry (some flow)) :
    KnownEntry (establishedStep flow tcp).1 ∧ KnownReply (establishedStep flow tcp).2 := by
  have hanswered : KnownEntry (some (answeredFlow flow tcp)) := by
    intro answered last hflow hlast
    cases hflow
    cases hlast
    exact classify_lt_responseCount tcp.payload
  have hanswer : KnownReply (some (answer flow tcp)) := by
    intro reply id hreply hid
    cases hreply
    cases hid
    exact classify_lt_responseCount tcp.payload
  unfold Packet.establishedStep
  by_cases hseq : tcp.seq ≠ flow.recvNext
  · rw [if_pos hseq]
    exact ⟨h, h.outOfOrder⟩
  rw [if_neg hseq]
  by_cases hempty : tcp.payload = []
  · rw [if_pos hempty]
    by_cases hfin : tcp.flags &&& Packet.tcpFin = 0
    · rw [if_pos hfin]
      exact ⟨h, fun _ _ hreply => by cases hreply⟩
    · rw [if_neg hfin]
      exact ⟨knownEntry_none, knownReply_plain _ _ _⟩
  · rw [if_neg hempty]
    refine ⟨?_, hanswer⟩
    by_cases hfin : tcp.flags &&& Packet.tcpFin ≠ 0
    · rw [if_pos hfin]
      exact knownEntry_none
    · rw [if_neg hfin]
      exact hanswered

/-- A noted acknowledgement changes no remembered response. -/
theorem KnownEntry.noted {noted : Flow} (h : KnownEntry (some flow))
    (hlast : noted.lastResponse = flow.lastResponse) : KnownEntry (some noted) := by
  intro other last hother hsome
  cases hother
  exact h flow last rfl (hlast.symm.trans hsome)

theorem KnownEntry.segmentStep (h : KnownEntry (some flow)) :
    KnownEntry (segmentStep flow tcp).1 ∧ KnownReply (segmentStep flow tcp).2 := by
  cases hstate : flow.state with
  | established =>
      rw [segmentStep_established flow tcp hstate]
      exact (h.noted (by simp)).establishedStep
  | synReceived =>
      rcases segmentStep_halfOpen flow tcp hstate with ⟨-, hstep⟩ | ⟨-, hstep⟩
      · rw [hstep]
        exact (h.noted (by simp)).establishedStep
      · rw [hstep]
        exact ⟨h, fun _ _ hreply => by cases hreply⟩

theorem KnownEntry.shaderFlowStep {entry : Option Flow} (h : KnownEntry entry) (room : Bool)
    (key : FlowKey) :
    KnownEntry (shaderFlowStep room key entry tcp).1 ∧
      KnownReply (shaderFlowStep room key entry tcp).2 := by
  have hnothing : KnownReply none := fun _ _ hreply => by cases hreply
  have hopened : KnownEntry (some (openedFlow key tcp.seq)) := by
    intro flow last hflow hlast
    cases hflow
    cases hlast
  by_cases hopen : IsOpening tcp
  · cases entry with
    | none =>
        rw [shaderFlowStep_open room key hopen]
        cases room with
        | true => exact ⟨hopened, knownReply_opening _⟩
        | false => exact ⟨knownEntry_none, hnothing⟩
    | some flow =>
        rw [shaderFlowStep_repeated room key flow hopen]
        exact ⟨h, knownReply_opening flow⟩
  · cases entry with
    | none =>
        rw [shaderFlowStep_absent room key hopen]
        exact ⟨knownEntry_none, hnothing⟩
    | some flow =>
        by_cases hreset : IsReset tcp
        · rw [shaderFlowStep_reset room key flow hopen hreset]
          exact ⟨knownEntry_none, hnothing⟩
        · rw [shaderFlowStep_segment room key flow hopen hreset]
          exact h.segmentStep

/-- Every entry of the machine is known. -/
theorem shaderMachine_known (config : PacketEngineConfig) (packets : List RawPacket)
    (key : FlowKey) :
    KnownEntry ((shaderMachine config).cellsAfter (fun _ => none) packets key) := by
  refine (shaderMachine config).cellsAfter_keeps (P := fun _ entry => KnownEntry entry) ?_
    (fun _ => knownEntry_none) packets key
  intro key entry packet h
  cases hview : listened config packet with
  | none =>
      simp only [shaderMachine, hview]
      exact h
  | some tcp =>
      simp only [shaderMachine, hview]
      exact (h.shaderFlowStep true key).1

end Known

/-- What the GPU engine emits for packet `n`, as the parser sees it. -/
def resultEmission (results : List (List (Option RawPacket))) (n : Nat) : Option TcpPacketView :=
  results.flatten[n]?.join.bind parsed

section Agreement

variable {config : PacketEngineConfig} {packets : List RawPacket}
variable {tables : Nat → FlowTable} {outputs : Nat → Option RawPacket}

/-- The entries of the machine before packet `n`. -/
def machineEntries (config : PacketEngineConfig) (packets : List RawPacket) (n : Nat) :
    FlowKey → Option Flow :=
  (shaderMachine config).cellsAfter (fun _ => none) (packets.take n)

theorem machineEntries_succ {n : Nat} (hn : n < packets.length) :
    machineEntries config packets (n + 1) =
      (shaderMachine config).next (machineEntries config packets n) packets[n] := by
  unfold machineEntries
  rw [List.take_succ_eq_append_getElem hn, KeyedMachine.cellsAfter_append]
  rfl

/-- An entry of the machine is for a flow of the packets. -/
theorem mem_batchKeys_of_entry {n : Nat} {key : FlowKey}
    (h : machineEntries config packets n key ≠ none) : key ∈ batchKeys packets := by
  by_contra habsent
  refine h ((shaderMachine config).cellsAfter_of_untouched _ fun packet hpacket hkey => ?_)
  exact habsent (List.mem_toFinset.mpr
    (List.mem_filterMap.mpr ⟨packet, List.mem_of_mem_take hpacket, hkey⟩))

/-- What the machine emits for a packet. -/
theorem machine_emission {n : Nat} {packet : RawPacket} :
    (((shaderMachine config).output (machineEntries config packets n) packet).bind
        parsedBytes) =
      (listened config packet).bind fun tcp =>
        (shaderFlowStep true tcp.key (machineEntries config packets n tcp.key) tcp).2.map
          (replyView packetResponse tcp.key) := by
  cases hview : listened config packet with
  | none =>
      rw [(shaderMachine_ignored hview).2]
      rfl
  | some tcp =>
      have hknown : KnownReply
          (shaderFlowStep true tcp.key (machineEntries config packets n tcp.key) tcp).2 :=
        ((shaderMachine_known config (packets.take n) tcp.key).shaderFlowStep true tcp.key).2
      rw [(shaderMachine_listened hview).2, Option.bind_some]
      generalize (shaderFlowStep true tcp.key (machineEntries config packets n tcp.key) tcp).2 =
        answer at hknown ⊢
      cases answer with
      | none => rfl
      | some reply =>
          rw [Option.map_some, Option.bind_some, Option.map_some, parsedBytes_shaderReplyBytes]
          unfold replyView
          cases hid : reply.response with
          | none => rfl
          | some id =>
              have htext : shaderResponse id = packetResponse id := if_pos (hknown reply id rfl hid)
              simp only [Option.map_some, Option.getD_some, htext]

/-- From equal entries the CPU engine and the machine emit the same exactly if the
engines step alike, and alike steps lead to equal entries. -/
theorem machine_agreement_step (hroom : (batchKeys packets).card ≤ config.flowCapacity)
    (cpu : CpuRun config packets tables outputs) {n : Nat} (hn : n < packets.length)
    (hlinked : entries (tables n) = machineEntries config packets n) :
    (Option.Rel SamePacket (cpuEmission outputs n)
        (((shaderMachine config).output (machineEntries config packets n) packets[n]).bind
          parsedBytes) ↔ AlikeAt config packets tables n) ∧
      (AlikeAt config packets tables n →
        entries (tables (n + 1)) = machineEntries config packets (n + 1)) := by
  have hcpu := cpu.emits n hn
  have hview' : viewAt config packets n = listened config packets[n] := viewAt_eq hn
  rw [hcpu, machine_emission, machineEntries_succ hn]
  unfold AlikeAt
  cases hview : viewAt config packets n with
  | none =>
      have hnone := hview'.symm.trans hview
      rw [hnone]
      refine ⟨⟨fun _ tcp h => (by cases h), fun _ => Option.Rel.none⟩, fun _ => ?_⟩
      rw [(cpu.step_unlistened hn hview).1, (shaderMachine_ignored hnone).1, hlinked]
  | some tcp =>
      have hsome := hview'.symm.trans hview
      obtain ⟨hnext, hreply, -⟩ := cpu.step_listened hn hview
      have hkeys : (tables n).keys ⊆ batchKeys packets := by
        intro key hkey
        rw [mem_keys_iff, hlinked] at hkey
        exact mem_batchKeys_of_entry hkey
      have hmem : tcp.key ∈ batchKeys packets := List.mem_toFinset.mpr
        (List.mem_filterMap.mpr ⟨_, List.getElem_mem hn, packetKey_of_listened hsome⟩)
      have hvacant : entries (tables n) tcp.key = none →
          decide ((tables n).keys.card < config.flowCapacity) = true := fun habsent =>
        decide_eq_true (room_of_absent hkeys hroom hmem habsent)
      have hsteps := shaderFlowStep_room _ tcp.key _ tcp hvacant
      have hiff : decide ((tables n).keys.card < config.flowCapacity) = true ↔
          (tables n).keys.card < config.flowCapacity := decide_eq_true_iff
      rw [hsome, Option.bind_some, Option.bind_some, (shaderMachine_listened hsome).1, ← hlinked,
        ← hsteps, hreply]
      have hone : (∀ tcp', some tcp = some tcp' → StepsAlike config (tables n) tcp') ↔
          StepsAlike config (tables n) tcp :=
        ⟨fun h => h tcp rfl, fun h tcp' heq => by cases heq; exact h⟩
      rw [hone]
      refine ⟨⟨?_, ?_⟩, ?_⟩
      · intro hsame
        by_contra hpart
        exact replies_differ hiff hpart hsame
      · intro halike
        rw [flowSteps_eq hiff halike]
        cases (shaderFlowStep (decide ((tables n).keys.card < config.flowCapacity)) tcp.key
          (entries (tables n) tcp.key) tcp).2 with
        | none => exact Option.Rel.none
        | some reply => exact Option.Rel.some (samePacket_replyView tcp.key reply)
      · intro halike
        rw [hnext, entries_setEntry, flowSteps_eq hiff halike]

/-- As long as all steps are alike the tables hold the same entries. -/
theorem linked_of_alike (hroom : (batchKeys packets).card ≤ config.flowCapacity)
    (cpu : CpuRun config packets tables outputs)
    (halike : ∀ n, n < packets.length → AlikeAt config packets tables n) {n : Nat}
    (hn : n ≤ packets.length) : entries (tables n) = machineEntries config packets n := by
  induction n with
  | zero =>
      rw [cpu.start]
      funext key
      exact Finmap.lookup_empty key
  | succ n ih => exact (machine_agreement_step hroom cpu hn (ih (by omega))).2 (halike n hn)

end Agreement

section Agreement

variable {config : PacketEngineConfig} {limits : AdapterLimits} {engine : GpuPacketEngine}
variable {schedule : Schedule} {scratch : PacketScratch} {memory : EngineMemory}
variable {tables : Nat → FlowTable} {outputs : Nat → Option RawPacket}

/-- **Agreement over batches.**  With as many probes as slots, room for every flow and
no packet overtaken, the GPU engine emits for every packet of every batch what the CPU
engine emits for it, up to the name of the backend, exactly when the CPU engine takes
no step at which the engines part; then both end with the same flows.  The invocations
of a dispatch are taken whole, one at a time, in any order, and no compare-exchange
fails on an unchanged slot. -/
theorem batches_agree_iff (hnew : GpuPacketEngine.new config limits = .ok engine)
    (complete : schedule.Complete) (hprobes : config.flowProbeLimit = config.flowCapacity)
    (hreach : scratch.seen.Reachable) (hempty : memory.storage.flows = emptyFlows)
    (batches : List (List RawPacket × List (Option RawPacket)))
    (hroom : (batchKeys (handedOver batches)).card ≤ config.flowCapacity)
    (hovertaking : ∀ batch ∈ batches, NoOvertaking batch.1 engine.waveLimits)
    (cpu : CpuRun config (handedOver batches) tables outputs) :
    ∃ (scratch' : PacketScratch) (memory' : EngineMemory)
      (results : List (List (Option RawPacket))),
      engine.processBatches schedule batches scratch memory = .ok (scratch', memory', results) ∧
      results.map List.length = batches.map (fun batch => batch.1.length) ∧
      ((∀ n, n < (handedOver batches).length →
          Option.Rel SamePacket (cpuEmission outputs n) (resultEmission results n)) ↔
        ∀ n, n < (handedOver batches).length → AlikeAt config (handedOver batches) tables n) ∧
      ((∀ n, n < (handedOver batches).length → AlikeAt config (handedOver batches) tables n) →
        entries (tables (handedOver batches).length) =
          shaderEntries config memory'.storage.flows) := by
  obtain ⟨scratch', memory', results, hrun, hlengths, hresults, hcells⟩ :=
    processBatches_machine hnew complete hprobes hreach hempty batches hroom hovertaking
  refine ⟨scratch', memory', results, hrun, hlengths, ?_, ?_⟩
  · have hemission (n : Nat) (hn : n < (handedOver batches).length) :
        resultEmission results n = ((shaderMachine config).output
          (machineEntries config (handedOver batches) n) (handedOver batches)[n]).bind
            parsedBytes := by
      have hslot := congrArg (fun outputs => outputs[n]?) hresults
      simp only [List.getElem?_map, KeyedMachine.outputs_getElem?, List.getElem?_eq_getElem hn,
        Option.map_some] at hslot
      obtain ⟨slot, hslot, hbytes⟩ := Option.map_eq_some_iff.mp hslot
      unfold machineEntries
      rw [resultEmission, hslot, ← hbytes]
      cases slot with
      | none => rfl
      | some packet => rfl
    refine @lockstep (fun n => entries (tables n) = machineEntries config (handedOver batches) n)
      _ _ _ ?_ ?_ ?_
    · rw [cpu.start]
      funext key
      exact Finmap.lookup_empty key
    · intro n hn hlinked
      rw [hemission n hn]
      exact (machine_agreement_step hroom cpu hn hlinked).1
    · exact fun n hn hlinked => (machine_agreement_step hroom cpu hn hlinked).2
  · intro halike
    rw [linked_of_alike hroom cpu halike (Nat.le_refl _), hcells, machineEntries, List.take_length]

end Agreement

/-- Two clients open their flows, and one of them sends its request. -/
def twoClients : List (List RawPacket × List (Option RawPacket)) :=
  [([synPacket 1000, synPacket 1001], []), ([requestPacket], [none, none])]

theorem twoClients_room : (batchKeys (handedOver twoClients)).card ≤ 4 := by
  have hcard : (batchKeys (handedOver twoClients)).card ≤ 3 :=
    (List.toFinset_card_le _).trans (List.length_filterMap_le _ _)
  omega

theorem noOvertaking_smallEngine (packets : List RawPacket) :
    NoOvertaking packets smallEngine.waveLimits :=
  noOvertaking_of_ample_words (by decide)

theorem batches_invisible_twoClients :
    ∃ (scratch₁ scratch₂ : PacketScratch) (memory₁ memory₂ : EngineMemory)
      (results results' : List (List (Option RawPacket))),
      smallEngine.processBatches inOrder twoClients ⟨[], [], [], [], FlowSet.default⟩
          freshMemory = .ok (scratch₁, memory₁, results) ∧
      smallEngine.processBatches inOrder
          [([synPacket 1001, synPacket 1000, requestPacket], [none])]
          ⟨[], [], [], [], FlowSet.default⟩ freshMemory = .ok (scratch₂, memory₂, results') ∧
      (∀ i : Fin 3, results'.flatten[i.val]? = results.flatten[(Equiv.swap 0 1 i : Fin 3).val]?) ∧
      shaderEntries smallEngine.config memory₂.storage.flows =
        shaderEntries smallEngine.config memory₁.storage.flows := by
  have keep : KeyedMachine.KeepsOrder packetKey
      ![synPacket 1000, synPacket 1001, requestPacket] (Equiv.swap 0 1) := by
    intro i j k hij hi hj
    fin_cases i <;> fin_cases j <;>
      simp_all [synPacket, requestPacket, packetKey_builtPacket, Equiv.swap_apply_def]
    subst hi
    simp [clientKey] at hj
  obtain ⟨scratch₁, scratch₂, memory₁, memory₂, results, results', hrun, hrun', -, -, hsame,
      hflows⟩ :=
    @batches_invisible _ _ _ _ _ _ _ _ ⟨[], [], [], [], FlowSet.default⟩
      ⟨[], [], [], [], FlowSet.default⟩ freshMemory freshMemory
      new_smallAdapter new_smallAdapter rfl inOrder_complete inOrder_complete rfl rfl
      FlowSet.Reachable.default FlowSet.Reachable.default rfl rfl 3
      ![synPacket 1000, synPacket 1001, requestPacket] (Equiv.swap 0 1) keep twoClients
      [([synPacket 1001, synPacket 1000, requestPacket], [none])] rfl rfl
      twoClients_room twoClients_room (fun batch _ => noOvertaking_smallEngine batch.1)
      (fun batch _ => noOvertaking_smallEngine batch.1)
  exact ⟨scratch₁, scratch₂, memory₁, memory₂, results, results', hrun, hrun', hsame, hflows⟩

theorem batches_agree_iff_twoClients :
    ∃ tables outputs, CpuRun smallEngine.config (handedOver twoClients) tables outputs ∧
      ∃ (scratch' : PacketScratch) (memory' : EngineMemory)
        (results : List (List (Option RawPacket))),
        smallEngine.processBatches inOrder twoClients ⟨[], [], [], [], FlowSet.default⟩
            freshMemory = .ok (scratch', memory', results) ∧
        ((∀ n, n < (handedOver twoClients).length →
            Option.Rel SamePacket (cpuEmission outputs n) (resultEmission results n)) ↔
          ∀ n, n < (handedOver twoClients).length →
            AlikeAt smallEngine.config (handedOver twoClients) tables n) := by
  obtain ⟨tables, outputs, cpu⟩ := cpuRun_exists smallEngine.config (handedOver twoClients)
  obtain ⟨scratch', memory', results, hrun, -, hiff, -⟩ :=
    @batches_agree_iff _ _ _ _ ⟨[], [], [], [], FlowSet.default⟩ freshMemory _ _
      new_smallAdapter inOrder_complete rfl FlowSet.Reachable.default rfl twoClients
      twoClients_room (fun batch _ => noOvertaking_smallEngine batch.1) cpu
  exact ⟨tables, outputs, cpu, scratch', memory', results, hrun, hiff⟩

end Shader
end Packet
end Gput
