import Gput.Packet.Bench

/-!
# Client and engine in lockstep

Over batches with one packet of each flow the clients of `gput-packet-bench` and an
engine that serves them stay in step for any number of rounds, also when the sequence
numbers wrap around.  So no check of the benchmark ever fails on the CPU engine
(`main_cpu_iff`), nor on the GPU engine with as many probes as slots (`main_both`).
-/

namespace Gput
namespace Packet
namespace Bench

open ByteString

/-- The clients of a run: one flow for each key, all to the port. -/
structure Clients (listenPort : UInt16) (keys : Finset FlowKey) (flows : List FlowCursor) :
    Prop where
  port : ∀ flow ∈ flows, flow.key.dstPort = listenPort
  known : ∀ flow ∈ flows, flow.key ∈ keys
  distinct : (flows.map FlowCursor.key).Nodup

section Serves

variable {σ : Type} {engine : PacketEngine σ} {response : UInt32 → List UInt8}
variable {listenPort : UInt16} {keys : Finset FlowKey}
variable {Holds : (FlowKey → Option Flow) → σ → Prop}
variable {flows : List FlowCursor} {cells : FlowKey → Option Flow} {state : σ}

theorem Clients.next (clients : Clients listenPort keys flows) {next : FlowCursor → FlowCursor}
    (hkey : ∀ flow, (next flow).key = flow.key) : Clients listenPort keys (flows.map next) where
  port := by
    intro flow hflow
    obtain ⟨before, hbefore, rfl⟩ := List.mem_map.mp hflow
    rw [hkey]
    exact clients.port before hbefore
  known := by
    intro flow hflow
    obtain ⟨before, hbefore, rfl⟩ := List.mem_map.mp hflow
    rw [hkey]
    exact clients.known before hbefore
  distinct := by
    have hkeys : (flows.map next).map FlowCursor.key = flows.map FlowCursor.key := by
      simp [Function.comp_def, hkey]
    rw [hkeys]
    exact clients.distinct

/-- What the server does with the packet of a flow. -/
def answerTo (cells : FlowKey → Option Flow) (spec : FlowCursor → TcpPacketSpec)
    (flow : FlowCursor) : Option Flow × Option Reply :=
  cpuFlowStep True flow.key (cells flow.key) (specView (spec flow))

/-- What a batch with one packet of each flow leads to. -/
structure Exchanged (response : UInt32 → List UInt8) (spec : FlowCursor → TcpPacketSpec)
    (flows : List FlowCursor) (cells cells' : FlowKey → Option Flow)
    (results : List (Option RawPacket)) : Prop where
  answers : List.Forall₂ (fun flow slot => slot.map RawPacket.bytes =
    (answerTo cells spec flow).2.map fun reply => builtBytes (replySpec response flow.key reply))
    flows results
  stepped : ∀ flow ∈ flows, cells' flow.key = (answerTo cells spec flow).1
  others : ∀ key, (∀ flow ∈ flows, flow.key ≠ key) → cells' key = cells key

/-- One packet of each flow through an engine that serves. -/
theorem exchange (serves : Serves engine response listenPort keys Holds)
    (clients : Clients listenPort keys flows) (hholds : Holds cells state)
    (spec : FlowCursor → TcpPacketSpec) (hkey : ∀ flow, (spec flow).key = flow.key)
    (hfits : ∀ flow, 40 + (spec flow).payload.length ≤ maxRawPacketBytes)
    (halike : ∀ flow ∈ flows, TreatedAlike (cells flow.key) (specView (spec flow)))
    (output : List (Option RawPacket)) :
    ∃ packets state' results cells',
      Outcome.collect (flows.map fun flow => buildIpv4TcpPacket (spec flow)) = .ok packets ∧
      engine.processBatchInto packets output state = .ok (state', results) ∧
      Holds cells' state' ∧ Exchanged response spec flows cells cells' results ∧
      (engine.metrics state').packets =
        (engine.metrics state).packets + UInt64.ofNat flows.length := by
  have hbuild : Outcome.collect (flows.map fun flow => buildIpv4TcpPacket (spec flow)) =
      .ok (flows.map fun flow => builtPacket (spec flow) (hfits flow)) :=
    Outcome.collect_map fun flow _ => buildIpv4TcpPacket_eq (spec flow) (hfits flow)
  have hbatch : OneEach listenPort keys cells
      (flows.map fun flow => builtPacket (spec flow) (hfits flow))
      (flows.map fun flow => specView (spec flow)) := by
    refine ⟨?_, ?_, ?_, ?_, ?_⟩
    · simp only [List.map_map]
      exact List.map_congr_left fun flow _ => parsed_builtPacket (spec flow) (hfits flow)
    · simpa [hkey] using clients.port
    · simpa [hkey] using clients.known
    · simpa [Function.comp_def, hkey] using clients.distinct
    · simpa [hkey] using halike
  have hdistinct : (serverMachine response).Distinct
      (flows.map fun flow => specView (spec flow)) := by
    refine (List.pairwise_map.mp hbatch.distinct).imp fun hne key hfirst hsecond => ?_
    exact hne (Option.some.inj (hfirst.trans hsecond.symm))
  obtain ⟨state', results, hrun, hresults, hholds', hmetrics⟩ :=
    serves.answers output hholds hbatch
  refine ⟨_, state', results, _, hbuild, hrun, hholds', ⟨?_, ?_, ?_⟩, by simpa using hmetrics⟩
  · rw [KeyedMachine.outputs_of_distinct _ _ hdistinct, List.map_map] at hresults
    have hslots := List.forall₂_map_right_iff.mp (List.forall₂_map_left_iff.mp
      (List.forall₂_eq_eq_eq ▸ hresults))
    have hflipped : List.Forall₂ (flip fun flow slot => slot.map RawPacket.bytes =
        (answerTo cells spec flow).2.map fun reply =>
          builtBytes (replySpec response flow.key reply)) results flows :=
      hslots.imp fun slot flow h => by
        simpa [flip, KeyedMachine.output, serverMachine, answerTo, hkey] using h
    exact hflipped.flip
  · intro flow hflow
    rw [KeyedMachine.cellsAfter_of_distinct _ cells hdistinct
      (List.mem_map_of_mem hflow) (k := flow.key) (by simp [serverMachine, hkey])]
    rfl
  · intro key hother
    refine KeyedMachine.cellsAfter_of_untouched _ cells fun tcp htcp hsame => ?_
    obtain ⟨flow, hflow, rfl⟩ := List.mem_map.mp htcp
    exact hother flow hflow (by simpa [serverMachine, hkey] using hsame)

variable {spec : FlowCursor → TcpPacketSpec} {cells' : FlowKey → Option Flow}
variable {results : List (Option RawPacket)}

/-- A loop that accepts the expected replies accepts the results of a batch. -/
theorem Exchanged.loop (h : Exchanged response spec flows cells cells' results)
    (body : FlowCursor → Option RawPacket → Nat → Outcome (FlowCursor × Nat))
    (next : FlowCursor → FlowCursor) (count : Nat → Nat) (expected : FlowCursor → Reply)
    (hreply : ∀ flow ∈ flows, (answerTo cells spec flow).2 = some (expected flow))
    (hbody : ∀ (flow : FlowCursor) (slot : Option RawPacket) (bytes : Nat),
      slot.map RawPacket.bytes =
          some (builtBytes (replySpec response flow.key (expected flow))) →
        body flow slot bytes = .ok (next flow, count bytes)) (bytes : Nat) :
    results.length = flows.length ∧
      forFlows body flows results bytes = .ok (flows.map next, count^[flows.length] bytes) := by
  refine ⟨h.answers.length_eq.symm, forFlows_ok ?_ bytes⟩
  refine ((List.forall₂_and_left _ _).mpr ⟨hreply, h.answers⟩).imp ?_
  rintro flow slot ⟨hexpected, hslot⟩ bytes
  rw [hexpected] at hslot
  exact hbody flow slot bytes hslot

/-- A batch that is not answered. -/
theorem Exchanged.silent (h : Exchanged response spec flows cells cells' results)
    (hreply : ∀ flow ∈ flows, (answerTo cells spec flow).2 = none) :
    ∀ packet ∈ results, packet = none := by
  intro packet hpacket
  obtain ⟨i, hi, rfl⟩ := List.getElem_of_mem hpacket
  have hlt : i < flows.length := by
    rw [h.answers.length_eq]
    exact hi
  have hslot := h.answers.get hlt hi
  simp only [List.get_eq_getElem, hreply _ (List.getElem_mem hlt), Option.map_none,
    Option.map_eq_none_iff] at hslot
  exact hslot

/-- The flows are opened. -/
theorem establishFlows_ok (serves : Serves engine response listenPort keys Holds)
    (clients : Clients listenPort keys flows) (hholds : Holds cells state)
    (habsent : ∀ flow ∈ flows, cells flow.key = none) :
    ∃ state' cells', establishFlows engine flows state =
        .ok (state', flows.map FlowCursor.opened) ∧
      Holds cells' state' ∧
      (∀ flow ∈ flows, InStep .established flow.opened (cells' flow.key)) ∧
      (∀ key, (∀ flow ∈ flows, flow.key ≠ key) → cells' key = cells key) ∧
      (engine.metrics state').packets =
        (engine.metrics state).packets + UInt64.ofNat (2 * flows.length) := by
  have hsyn : ∀ flow ∈ flows, TreatedAlike (cells flow.key) (specView (synSpec flow)) := by
    intro flow hflow _
    rw [habsent flow hflow]
    exact ⟨opening_synSpec.2, fun _ hnone => by cases hnone⟩
  obtain ⟨syns, middle, synAcks, opened, hsyns, hfirst, hmiddle, hexchanged, hcounted⟩ :=
    exchange serves clients hholds synSpec (fun _ => rfl)
      (fun _ => by simp [maxRawPacketBytes]) hsyn []
  have hstep (flow : FlowCursor) (hflow : flow ∈ flows) :
      answerTo cells synSpec flow = (some (openedFlow flow.key flow.clientNext),
        some (openingReply (openedFlow flow.key flow.clientNext))) := by
    rw [answerTo, habsent flow hflow, syn_step]
  have hreply : ∀ flow ∈ flows, (answerTo cells synSpec flow).2 =
      some (openingReply (openedFlow flow.key flow.clientNext)) := by
    intro flow hflow
    rw [hstep flow hflow]
  obtain ⟨hlength, hchecked⟩ := hexchanged.loop checkSynAck FlowCursor.opened id
    (fun flow => openingReply (openedFlow flow.key flow.clientNext)) hreply
    (fun _ _ bytes hslot => checkSynAck_ok bytes hslot) 0
  have hhalf (flow : FlowCursor) (hflow : flow ∈ flows) :
      InStep .synReceived flow.opened (opened flow.key) := by
    rw [hexchanged.stepped flow hflow, hstep flow hflow]
    exact inStep_openedFlow
  have hack (flow : FlowCursor) (hflow : flow ∈ flows) :
      ∃ entry', InStep .established flow.opened entry' ∧
        answerTo opened (clientSpec tcpAck []) flow.opened = (entry', none) :=
    ack_step (hhalf flow hflow)
  have hplain : ∀ flow ∈ flows.map FlowCursor.opened, TreatedAlike (opened flow.key)
      (specView (clientSpec tcpAck [] flow)) := fun flow _ hopen =>
    absurd hopen (plain_clientSpec (by decide) (by decide)).1
  obtain ⟨acks, state', output, cells', hacks, hsecond, hholds', hdone, hcounted'⟩ :=
    exchange serves (clients.next FlowCursor.opened_key) hmiddle (clientSpec tcpAck [])
      (fun _ => rfl) (fun _ => by simp [maxRawPacketBytes]) hplain []
  have hsilent : ∀ packet ∈ output, packet = none := by
    refine hdone.silent fun flow hflow => ?_
    obtain ⟨before, hbefore, rfl⟩ := List.mem_map.mp hflow
    obtain ⟨entry', -, hstep'⟩ := hack before hbefore
    rw [hstep']
  refine ⟨state', cells', ?_, hholds', ?_, ?_, ?_⟩
  · have hacks' : Outcome.collect ((flows.map FlowCursor.opened).map fun flow =>
        clientPacket flow tcpAck []) = .ok acks := hacks
    have hsyns' : Outcome.collect (flows.map fun flow => buildIpv4TcpPacket
        { key := flow.key, seq := flow.clientNext, ack := 0, flags := tcpSyn, payload := [] }) =
          .ok syns := hsyns
    simp only [establishFlows, PacketEngine.processBatch, Outcome.ensure_bind, hsyns',
      Outcome.ok_bind, hfirst, hlength, if_true, hchecked, hacks', hsecond, if_pos hsilent,
      Outcome.pure_eq]
  · intro flow hflow
    obtain ⟨entry', hinStep, hstep'⟩ := hack flow hflow
    have hcell := hdone.stepped flow.opened (List.mem_map_of_mem hflow)
    rw [hstep'] at hcell
    rw [← flow.opened_key, hcell]
    exact hinStep
  · intro key hother
    rw [hdone.others key (by simpa using hother), hexchanged.others key hother]
  · rw [hcounted', hcounted, List.length_map, Nat.two_mul, UInt64.ofNat_add, UInt64.add_assoc]

/-- A round is served. -/
theorem runHttpRound_ok (serves : Serves engine response listenPort keys Holds)
    (plaintext : Plaintext engine.name (response responsePlaintext))
    (clients : Clients listenPort keys flows) (hholds : Holds cells state)
    (hinStep : ∀ flow ∈ flows, InStep .established flow (cells flow.key))
    (responses : List (Option RawPacket)) :
    ∃ state' responses' cells', runHttpRound engine flows responses state =
        .ok (state', flows.map (FlowCursor.served (packetResponse responsePlaintext)), responses',
          min (flows.length * (packetResponse responsePlaintext).length) (2 ^ 64 - 1)) ∧
      Holds cells' state' ∧
      (∀ flow ∈ flows, InStep .established (flow.served (packetResponse responsePlaintext))
        (cells' flow.key)) ∧
      (∀ key, (∀ flow ∈ flows, flow.key ≠ key) → cells' key = cells key) ∧
      (engine.metrics state').packets =
        (engine.metrics state).packets + UInt64.ofNat flows.length := by
  have hplain : ∀ flow ∈ flows, TreatedAlike (cells flow.key)
      (specView (clientSpec (tcpAck ||| tcpPsh) defaultRequest flow)) := fun flow _ hopen =>
    absurd hopen (plain_clientSpec (by decide) (by decide)).1
  have hfits : 40 + defaultRequest.length ≤ maxRawPacketBytes := by decide +kernel
  obtain ⟨requests, state', results, cells', hrequests, hrun, hholds', hexchanged, hmetrics⟩ :=
    exchange serves clients hholds (clientSpec (tcpAck ||| tcpPsh) defaultRequest)
      (fun _ => rfl) (fun _ => hfits) hplain responses
  have hreply : ∀ flow ∈ flows,
      (answerTo cells (clientSpec (tcpAck ||| tcpPsh) defaultRequest) flow).2 = some {
        seq := flow.serverNext
        ack := flow.clientNext + UInt32.ofNat defaultRequest.length
        flags := tcpAck ||| tcpPsh
        response := some responsePlaintext } := by
    intro flow hflow
    obtain ⟨entry', -, hstep⟩ := request_step (hinStep flow hflow)
    rw [answerTo, hstep]
  obtain ⟨hlength, hchecked⟩ := hexchanged.loop (checkResponse engine.name)
    (FlowCursor.served (packetResponse responsePlaintext))
    (saturatingAdd · (packetResponse responsePlaintext).length) _ hreply
    (fun _ _ bytes hslot => checkResponse_ok plaintext bytes hslot) 0
  rw [saturatingAdd_iterate _ _ (Nat.zero_le _), Nat.zero_add] at hchecked
  refine ⟨state', results, cells', ?_, hholds', ?_, hexchanged.others, hmetrics⟩
  · have hrequests' : Outcome.collect (flows.map fun flow =>
        clientPacket flow (tcpAck ||| tcpPsh) defaultRequest) = .ok requests := hrequests
    simp only [runHttpRound, hrequests', Outcome.ok_bind, hrun, Outcome.ensure_bind, hlength,
      if_true, hchecked, Outcome.pure_eq]
  · intro flow hflow
    obtain ⟨entry', hnext, hstep⟩ := request_step (hinStep flow hflow)
    rw [hexchanged.stepped flow hflow, answerTo, hstep]
    exact hnext

/-- Any number of rounds is served. -/
theorem runRounds_ok (serves : Serves engine response listenPort keys Holds)
    (plaintext : Plaintext engine.name (response responsePlaintext)) (count : Nat)
    (clients : Clients listenPort keys flows) (hholds : Holds cells state)
    (hinStep : ∀ flow ∈ flows, InStep .established flow (cells flow.key))
    (responses : List (Option RawPacket)) {bytes : Nat} (hbytes : bytes ≤ 2 ^ 64 - 1) :
    ∃ state' flows' responses' cells',
      runRounds engine count flows responses bytes state = .ok (state', flows', responses',
        min (bytes + count * (flows.length * (packetResponse responsePlaintext).length))
          (2 ^ 64 - 1)) ∧
      flows'.map FlowCursor.key = flows.map FlowCursor.key ∧
      Clients listenPort keys flows' ∧ Holds cells' state' ∧
      (∀ flow ∈ flows', InStep .established flow (cells' flow.key)) ∧
      (∀ key, (∀ flow ∈ flows, flow.key ≠ key) → cells' key = cells key) ∧
      (engine.metrics state').packets =
        (engine.metrics state).packets + UInt64.ofNat (count * flows.length) := by
  induction count generalizing flows cells state responses bytes with
  | zero =>
      refine ⟨state, flows, responses, cells, ?_, rfl, clients, hholds, hinStep, fun _ _ => rfl,
        by simp⟩
      simp only [runRounds, Nat.zero_mul, Nat.add_zero, Nat.min_eq_left hbytes, Outcome.pure_eq]
  | succ count ih =>
      obtain ⟨middle, responses', between, hround, hmiddle, hnext, hothers, hmetrics⟩ :=
        runHttpRound_ok serves plaintext clients hholds hinStep responses
      have hclients := clients.next (FlowCursor.served_key (packetResponse responsePlaintext))
      have hsum : saturatingAdd bytes
          (min (flows.length * (packetResponse responsePlaintext).length) (2 ^ 64 - 1)) ≤
            2 ^ 64 - 1 := Nat.min_le_right _ _
      obtain ⟨state', flows', responses'', cells', hrounds, hkeys, hclients', hholds', hinStep',
        hothers', hmetrics'⟩ := ih hclients hmiddle (by simpa using hnext) responses' hsum
      rw [List.length_map] at hrounds hmetrics'
      have htotal (gain : Nat) :
          min (saturatingAdd bytes (min gain (2 ^ 64 - 1)) + count * gain) (2 ^ 64 - 1) =
            min (bytes + (count + 1) * gain) (2 ^ 64 - 1) := by
        rw [saturatingAdd, Nat.succ_mul]
        omega
      rw [htotal] at hrounds
      refine ⟨state', flows', responses'', cells', ?_, ?_, hclients', hholds', hinStep', ?_, ?_⟩
      · simp only [runRounds, hround, Outcome.ok_bind, hrounds]
      · rw [hkeys]
        simp [Function.comp_def]
      · intro key hother
        rw [hothers' key (by simpa using hother), hothers key hother]
      · rw [hmetrics', hmetrics, Nat.succ_mul, Nat.add_comm, UInt64.ofNat_add, UInt64.add_assoc]

/-- The flows are closed. -/
theorem closeFlows_ok (serves : Serves engine response listenPort keys Holds)
    (clients : Clients listenPort keys flows) (hholds : Holds cells state)
    (hinStep : ∀ flow ∈ flows, InStep .established flow (cells flow.key)) :
    ∃ state' cells', closeFlows engine flows state = .ok state' ∧ Holds cells' state' ∧
      (∀ flow ∈ flows, cells' flow.key = none) ∧
      ∀ key, (∀ flow ∈ flows, flow.key ≠ key) → cells' key = cells key := by
  have hplain : ∀ flow ∈ flows, TreatedAlike (cells flow.key)
      (specView (clientSpec (tcpAck ||| tcpFin) [] flow)) := fun flow _ hopen =>
    absurd hopen (plain_clientSpec (by decide) (by decide)).1
  obtain ⟨fins, state', results, cells', hfins, hrun, hholds', hexchanged, -⟩ :=
    exchange serves clients hholds (clientSpec (tcpAck ||| tcpFin) []) (fun _ => rfl)
      (fun _ => by simp [maxRawPacketBytes]) hplain []
  have hstep (flow : FlowCursor) (hflow : flow ∈ flows) :
      answerTo cells (clientSpec (tcpAck ||| tcpFin) []) flow = (none, some {
        seq := flow.serverNext, ack := flow.clientNext + 1, flags := tcpAck, response := none }) :=
    fin_step (hinStep flow hflow)
  have hreply : ∀ flow ∈ flows, (answerTo cells (clientSpec (tcpAck ||| tcpFin) []) flow).2 =
      some { seq := flow.serverNext, ack := flow.clientNext + 1, flags := tcpAck,
             response := none } := by
    intro flow hflow
    rw [hstep flow hflow]
  obtain ⟨hlength, hchecked⟩ := hexchanged.loop checkFinAck id id _ hreply
    (fun _ _ bytes hslot => checkFinAck_ok bytes hslot) 0
  refine ⟨state', cells', ?_, hholds', ?_, hexchanged.others⟩
  · have hfins' : Outcome.collect (flows.map fun flow =>
        clientPacket flow (tcpAck ||| tcpFin) []) = .ok fins := hfins
    simp only [closeFlows, PacketEngine.processBatch, hfins', Outcome.ok_bind, hrun,
      Outcome.ensure_bind, hlength, if_true, hchecked, Outcome.pure_eq]
  · intro flow hflow
    rw [hexchanged.stepped flow hflow, hstep flow hflow]

end Serves

section Synthetic

variable (listenPort : UInt16) {index : Nat}

/-- The cursor of a synthetic flow. -/
def syntheticCursor (index : Nat) : FlowCursor where
  key := {
    srcIp := 0x0a4d0002 + UInt32.ofNat (index / 60000)
    dstIp := serverIp
    srcPort := UInt16.ofNat (1024 + index % 60000)
    dstPort := listenPort }
  clientNext := 1000000 + UInt32.ofNat index * 4096
  serverNext := 0

/-- The keys of the synthetic flows. -/
def syntheticKeys (count : Nat) : Finset FlowKey :=
  (((List.range count).map (syntheticCursor listenPort)).map FlowCursor.key).toFinset

theorem syntheticKeys_card_le (count : Nat) : (syntheticKeys listenPort count).card ≤ count := by
  refine (List.toFinset_card_le _).trans ?_
  simp

theorem syntheticFlow_eq (h : index < 1000000) :
    syntheticFlow listenPort index = .ok (syntheticCursor listenPort index) := by
  have haddress : index / 60000 < 2 ^ 32 := by omega
  have hport : index % 60000 < 2 ^ 16 := by omega
  have hsource : min (1024 + index % 60000) (2 ^ 16 - 1) = 1024 + index % 60000 := by omega
  simp only [syntheticFlow, Outcome.ensure_bind, if_pos haddress, if_pos hport, hsource,
    Outcome.pure_eq, syntheticCursor]

/-- No two synthetic flows have one key. -/
theorem syntheticCursor_key_inj {other : Nat} (h : index < 1000000) (h' : other < 1000000)
    (hkey : (syntheticCursor listenPort index).key = (syntheticCursor listenPort other).key) :
    index = other := by
  simp only [syntheticCursor, FlowKey.mk.injEq, true_and, and_true] at hkey
  obtain ⟨haddress, hport⟩ := hkey
  have haddress' := congrArg UInt32.toNat ((UInt32.add_right_inj _).mp haddress)
  have hport' := congrArg UInt16.toNat hport
  rw [UInt32.toNat_ofNat', UInt32.toNat_ofNat'] at haddress'
  rw [UInt16.toNat_ofNat', UInt16.toNat_ofNat'] at hport'
  omega

theorem vecWithCapacity_of_le {elementBytes capacity : Nat}
    (h : capacity * elementBytes ≤ 2 ^ 63 - 1) : vecWithCapacity elementBytes capacity = .ok () :=
  if_pos h

theorem syntheticFlows_eq {count : Nat} (h : count ≤ 1000000) :
    syntheticFlows count listenPort =
      .ok ((List.range count).map (syntheticCursor listenPort)) := by
  rw [syntheticFlows, vecWithCapacity_of_le (by omega), Outcome.ok_bind]
  refine Outcome.collect_map fun index hindex => syntheticFlow_eq listenPort ?_
  have := List.mem_range.mp hindex
  omega

theorem syntheticClients {count : Nat} (h : count ≤ 1000000) :
    Clients listenPort (syntheticKeys listenPort count)
      ((List.range count).map (syntheticCursor listenPort)) where
  port := by
    intro flow hflow
    obtain ⟨index, -, rfl⟩ := List.mem_map.mp hflow
    rfl
  known := fun flow hflow => List.mem_toFinset.mpr (List.mem_map_of_mem hflow)
  distinct := by
    rw [List.map_map]
    refine List.Nodup.map_on ?_ List.nodup_range
    intro index hindex other hother hkey
    have := List.mem_range.mp hindex
    have := List.mem_range.mp hother
    exact syntheticCursor_key_inj listenPort (by omega) (by omega) hkey

end Synthetic

/-- What the benchmark reports for a backend. -/
def expectedResult (settings : BenchSettings) (backend : List UInt8)
    (metrics : PacketEngineMetrics) : BenchResult where
  backend := backend
  flows := settings.flows
  requests := settings.flows * settings.requestsPerFlow
  responseBytes := min (settings.requestsPerFlow *
    (settings.flows * (packetResponse responsePlaintext).length)) (2 ^ 64 - 1)
  metrics := metrics

/-- A counter of packets that stands at `counter` does not wrap around before the
last round: two packets of each flow open it, and each round has one. -/
def BenchSettings.Counted (settings : BenchSettings) (counter : UInt64) : Prop :=
  counter.toNat + 2 * settings.flows + settings.warmupRequestsPerFlow * settings.flows +
    settings.requestsPerFlow * settings.flows < 2 ^ 64

instance (settings : BenchSettings) (counter : UInt64) : Decidable (settings.Counted counter) :=
  inferInstanceAs (Decidable (_ < _))

/-- The benchmark finishes on every engine that serves its flows, and leaves no flow
behind, unless there is no room for the latencies or the requests are too many to
count. -/
theorem runBenchmark_ok {σ : Type} {engine : PacketEngine σ} {response : UInt32 → List UInt8}
    {Holds : (FlowKey → Option Flow) → σ → Prop} {settings : BenchSettings} {state : σ}
    (serves : Serves engine response settings.listenPort
      (syntheticKeys settings.listenPort settings.flows) Holds)
    (plaintext : Plaintext engine.name (response responsePlaintext))
    (hcap : settings.flows ≤ 1000000) (hholds : Holds (fun _ => none) state) :
    ∃ state' metrics, Holds (fun _ => none) state' ∧
      (settings.Counted (engine.metrics state).packets →
        metrics.packets = UInt64.ofNat (settings.requestsPerFlow * settings.flows)) ∧
      runBenchmark engine settings state =
        if settings.requestsPerFlow * 8 ≤ 2 ^ 63 - 1 then
          if settings.flows * settings.requestsPerFlow < 2 ^ 64 then
            .ok (state', expectedResult settings engine.name metrics)
          else .err "benchmark request count overflow"
        else .panic := by
  have hflows := syntheticFlows_eq settings.listenPort hcap
  have hclients := syntheticClients settings.listenPort hcap
  generalize hlist : (List.range settings.flows).map (syntheticCursor settings.listenPort) =
    flows at hflows hclients
  have hcount : flows.length = settings.flows := by simp [← hlist]
  obtain ⟨opened, cells, hestablish, hopened, hinStep, hothers, hcounted⟩ :=
    establishFlows_ok serves hclients hholds fun _ _ => rfl
  have hopenClients := hclients.next FlowCursor.opened_key
  obtain ⟨warm, flows', responses, cells', hwarm, hkeys, hclients', hholds', hinStep', hothers',
      hwarmed⟩ :=
    runRounds_ok serves plaintext settings.warmupRequestsPerFlow hopenClients hopened
      (by simpa using hinStep) [] (Nat.zero_le _)
  obtain ⟨measured, flows'', responses', cells'', hmeasured, hkeys', hclients'', hholds'',
      hinStep'', hothers'', hmetrics⟩ :=
    runRounds_ok serves plaintext settings.requestsPerFlow hclients' hholds' hinStep' responses
      (Nat.zero_le _)
  obtain ⟨state', final, hclose, hfinal, hclosed, hrest⟩ :=
    closeFlows_ok serves hclients'' hholds'' hinStep''
  have hlength' : flows'.length = settings.flows := by
    simpa [hcount] using congrArg List.length hkeys
  have hempty : final = fun _ => none := by
    funext key
    by_cases hmem : ∃ flow ∈ flows'', flow.key = key
    · obtain ⟨flow, hflow, rfl⟩ := hmem
      exact hclosed flow hflow
    · have hnot : ∀ flow ∈ flows'', flow.key ≠ key := fun flow hflow hkey =>
        hmem ⟨flow, hflow, hkey⟩
      have hkeyNot : key ∉ flows''.map FlowCursor.key := by simpa using hnot
      have hnot' : ∀ flow ∈ flows', flow.key ≠ key := by
        rw [hkeys'] at hkeyNot
        simpa using hkeyNot
      have hnot'' : ∀ flow ∈ flows.map FlowCursor.opened, flow.key ≠ key := by
        rw [hkeys', hkeys] at hkeyNot
        simpa using hkeyNot
      rw [hrest key hnot, hothers'' key hnot', hothers' key hnot'',
        hothers key (by simpa using hnot'')]
  refine ⟨state', (engine.metrics measured).saturatingSub (engine.metrics warm), hempty ▸ hfinal,
    ?_, ?_⟩
  · intro hfits
    simp only [PacketEngineMetrics.saturatingSub, hmetrics, hlength']
    refine saturatingSub_counted ?_
    rw [hwarmed, hcounted, List.length_map, hcount]
    unfold BenchSettings.Counted at hfits
    simp only [UInt64.toNat_add, UInt64.toNat_ofNat']
    omega
  · rw [hlength', Nat.zero_add] at hmeasured
    have hresponses := @vecWithCapacity_of_le 24 settings.flows (by omega)
    simp only [runBenchmark, hflows, hestablish, hresponses, hwarm, Outcome.ok_bind]
    by_cases hlatencies : settings.requestsPerFlow * 8 ≤ 2 ^ 63 - 1
    · simp only [vecWithCapacity_of_le hlatencies, if_pos hlatencies, hmeasured, hclose,
        Outcome.ok_bind, Outcome.ensure_bind, Outcome.pure_eq]
      rfl
    · rw [if_neg hlatencies, vecWithCapacity, if_neg hlatencies]
      rfl

/-- What `main` checks of its arguments, the engine of its configuration, and the
benchmark of the number of requests; and there is room for the latencies. -/
structure Cli.Admissible (cli : Cli) : Prop where
  flows_pos : 0 < cli.flows
  requests_pos : 0 < cli.requestsPerFlow
  room : cli.flows ≤ cli.flowCapacity
  flows_le : cli.flows ≤ 1000000
  valid : ValidConfig cli.packetConfig
  latencies_fit : cli.requestsPerFlow * 8 ≤ 2 ^ 63 - 1
  requests_fit : cli.flows * cli.requestsPerFlow < 2 ^ 64

theorem plaintext_cpu : Plaintext (ascii "cpu-packet") (cpuResponse responsePlaintext) where
  fits := by decide +kernel
  length := cpuResponse_length responsePlaintext
  status := by decide +kernel
  body := by decide +kernel
  backend := by decide +kernel

theorem plaintext_gpu : Plaintext (ascii "gpu-packet") (Shader.shaderResponse responsePlaintext) := by
  have htext : Shader.shaderResponse responsePlaintext = packetResponse responsePlaintext :=
    if_pos (by decide)
  rw [htext]
  exact ⟨packetResponse_length _, rfl, by decide +kernel, by decide +kernel, by decide +kernel⟩

section Backends

variable (cli : Cli)

/-- The benchmark of the CPU engine. -/
theorem runBenchmark_cpu (hroom : cli.flows ≤ cli.flowCapacity) (hflows : cli.flows ≤ 1000000) :
    ∃ state metrics, state.flows = ∅ ∧
      (cli.settings.Counted 0 →
        metrics.packets = UInt64.ofNat (cli.requestsPerFlow * cli.flows)) ∧
      runBenchmark (cpuPacketEngine cli.packetConfig) cli.settings CpuState.new =
        if cli.requestsPerFlow * 8 ≤ 2 ^ 63 - 1 then
          if cli.flows * cli.requestsPerFlow < 2 ^ 64 then
            .ok (state, expectedResult cli.settings (ascii "cpu-packet") metrics)
          else .err "benchmark request count overflow"
        else .panic := by
  have hkeys : (syntheticKeys cli.listenPort cli.flows).card ≤ cli.packetConfig.flowCapacity :=
    (syntheticKeys_card_le _ _).trans hroom
  obtain ⟨state, metrics, hholds, hmetrics, hrun⟩ :=
    @runBenchmark_ok _ _ _ _ cli.settings _ (cpu_serves hkeys) plaintext_cpu hflows
      (cpuHolds_new _)
  exact ⟨state, metrics, entries_injective (hholds.1.trans (cpuHolds_new ∅).1.symm), hmetrics, hrun⟩

/-- The benchmark of the GPU engine. -/
theorem runBenchmark_gpu {limits : Shader.AdapterLimits} {engine : Shader.GpuPacketEngine}
    {schedule : Shader.Schedule} {memory : Shader.EngineMemory}
    (hnew : Shader.GpuPacketEngine.new cli.packetConfig limits = .ok engine)
    (complete : schedule.Complete) (hprobes : cli.flowProbeLimit = cli.flowCapacity)
    (hempty : memory.storage.flows = Shader.emptyFlows)
    (hroom : cli.flows ≤ cli.flowCapacity) (hflows : cli.flows ≤ 1000000) :
    ∃ state metrics,
      Shader.shaderEntries cli.packetConfig state.2.storage.flows = (fun _ => none) ∧
      (cli.settings.Counted memory.packets →
        metrics.packets = UInt64.ofNat (cli.requestsPerFlow * cli.flows)) ∧
      runBenchmark (gpuPacketEngine engine schedule) cli.settings
          (⟨[], [], [], [], FlowSet.default⟩, memory) =
        if cli.requestsPerFlow * 8 ≤ 2 ^ 63 - 1 then
          if cli.flows * cli.requestsPerFlow < 2 ^ 64 then
            .ok (state, expectedResult cli.settings (ascii "gpu-packet") metrics)
          else .err "benchmark request count overflow"
        else .panic := by
  have hkeys : (syntheticKeys cli.listenPort cli.flows).card ≤ cli.packetConfig.flowCapacity :=
    (syntheticKeys_card_le _ _).trans hroom
  obtain ⟨state, metrics, hholds, hmetrics, hrun⟩ :=
    @runBenchmark_ok _ _ _ _ cli.settings _ (Shader.gpu_serves hnew complete hprobes hkeys)
      plaintext_gpu hflows (Shader.gpuHolds_new _ _ hempty)
  exact ⟨state, metrics, hholds.2.2, hmetrics, hrun⟩

variable (limits : Shader.AdapterLimits) (schedule : Shader.Schedule)
variable (memory : Shader.EngineMemory)

/-- **The benchmark of the CPU engine.**  It finishes exactly when its arguments are
admissible: no answer of the engine ever fails a check of the client, however many
flows, rounds and warm-up rounds there are.  Then every request was answered with the
plaintext response, every packet of the rounds was counted once, unless the counter
wrapped around, and the engine's table is empty again. -/
theorem main_cpu_iff (hcpu : cli.backend = .cpu) :
    ((∃ results, main cli limits schedule memory = .ok results) ↔ cli.Admissible) ∧
    (cli.Admissible → ∃ state metrics, state.flows = ∅ ∧
      (cli.settings.Counted 0 →
        metrics.packets = UInt64.ofNat (cli.requestsPerFlow * cli.flows)) ∧
      runBenchmark (cpuPacketEngine cli.packetConfig) cli.settings CpuState.new =
        .ok (state, expectedResult cli.settings (ascii "cpu-packet") metrics) ∧
      main cli limits schedule memory =
        .ok [expectedResult cli.settings (ascii "cpu-packet") metrics]) := by
  have hadmissible (admissible : cli.Admissible) : ∃ state metrics, state.flows = ∅ ∧
      (cli.settings.Counted 0 →
        metrics.packets = UInt64.ofNat (cli.requestsPerFlow * cli.flows)) ∧
      runBenchmark (cpuPacketEngine cli.packetConfig) cli.settings CpuState.new =
        .ok (state, expectedResult cli.settings (ascii "cpu-packet") metrics) ∧
      main cli limits schedule memory =
        .ok [expectedResult cli.settings (ascii "cpu-packet") metrics] := by
    obtain ⟨state, metrics, hclosed, hmetrics, hrun⟩ :=
      runBenchmark_cpu cli admissible.room admissible.flows_le
    rw [if_pos admissible.latencies_fit, if_pos admissible.requests_fit] at hrun
    refine ⟨state, metrics, hclosed, hmetrics, hrun, ?_⟩
    have hbatch : cli.batchSize > 0 := admissible.valid.batch_pos
    simp [main, cpuResults, gpuResults, Outcome.ensure_bind, admissible.flows_pos,
      admissible.requests_pos, hbatch, admissible.room, admissible.flows_le, hcpu,
      validateConfig_eq_ok.mpr admissible.valid, hrun]
  refine ⟨⟨?_, fun admissible => ?_⟩, hadmissible⟩
  · rintro ⟨results, hmain⟩
    simp only [main, Outcome.bind_eq_ok, Outcome.ensure_eq_ok] at hmain
    obtain ⟨-, hflows, -, hrequests, -, -, -, hroom, -, hcap, _, hresults, -⟩ := hmain
    rw [cpuResults, if_pos (Or.inl hcpu)] at hresults
    obtain ⟨_, hvalid, hresults⟩ := Outcome.bind_eq_ok.mp hresults
    obtain ⟨_, hrun, -⟩ := Outcome.bind_eq_ok.mp hresults
    obtain ⟨_, _, -, -, hexact⟩ := runBenchmark_cpu cli hroom hcap
    rw [hexact] at hrun
    split_ifs at hrun with hlatencies hfit
    exact ⟨hflows, hrequests, hroom, hcap, validateConfig_eq_ok.mp hvalid, hlatencies, hfit⟩
  · obtain ⟨_, _, -, -, -, hmain⟩ := hadmissible admissible
    exact ⟨_, hmain⟩

/-- **The championship.**  With as many probes as slots the GPU engine passes the same
checks, whatever its adapter, its buffers and the orders in which the device takes its
invocations are (whole, one at a time, and no compare-exchange fails on an unchanged
slot), and reports the same requests and response bytes as the CPU engine. -/
theorem main_both {engine : Shader.GpuPacketEngine} (hboth : cli.backend = .both)
    (admissible : cli.Admissible)
    (hnew : Shader.GpuPacketEngine.new cli.packetConfig limits = .ok engine)
    (complete : schedule.Complete) (hprobes : cli.flowProbeLimit = cli.flowCapacity)
    (hempty : memory.storage.flows = Shader.emptyFlows) :
    ∃ cpuState gpuState cpuMetrics gpuMetrics,
      cpuState.flows = ∅ ∧
      Shader.shaderEntries cli.packetConfig gpuState.2.storage.flows = (fun _ => none) ∧
      (cli.settings.Counted 0 →
        cpuMetrics.packets = UInt64.ofNat (cli.requestsPerFlow * cli.flows)) ∧
      (cli.settings.Counted memory.packets →
        gpuMetrics.packets = UInt64.ofNat (cli.requestsPerFlow * cli.flows)) ∧
      runBenchmark (cpuPacketEngine cli.packetConfig) cli.settings CpuState.new =
        .ok (cpuState, expectedResult cli.settings (ascii "cpu-packet") cpuMetrics) ∧
      runBenchmark (gpuPacketEngine engine schedule) cli.settings
          (⟨[], [], [], [], FlowSet.default⟩, memory) =
        .ok (gpuState, expectedResult cli.settings (ascii "gpu-packet") gpuMetrics) ∧
      main cli limits schedule memory =
        .ok [expectedResult cli.settings (ascii "cpu-packet") cpuMetrics,
          expectedResult cli.settings (ascii "gpu-packet") gpuMetrics] := by
  obtain ⟨cpuState, cpuMetrics, hcpuClosed, hcpuMetrics, hcpuRun⟩ :=
    runBenchmark_cpu cli admissible.room admissible.flows_le
  obtain ⟨gpuState, gpuMetrics, hgpuClosed, hgpuMetrics, hgpuRun⟩ :=
    runBenchmark_gpu cli hnew complete hprobes hempty admissible.room admissible.flows_le
  rw [if_pos admissible.latencies_fit, if_pos admissible.requests_fit] at hcpuRun hgpuRun
  refine ⟨cpuState, gpuState, cpuMetrics, gpuMetrics, hcpuClosed, hgpuClosed, hcpuMetrics,
    hgpuMetrics, hcpuRun, hgpuRun, ?_⟩
  have hbatch : cli.batchSize > 0 := admissible.valid.batch_pos
  simp [main, cpuResults, gpuResults, Outcome.ensure_bind, admissible.flows_pos,
    admissible.requests_pos, hbatch, admissible.room, admissible.flows_le, hboth,
    validateConfig_eq_ok.mpr admissible.valid, hcpuRun, hnew, hgpuRun]

end Backends

/-- The arguments of a run without options, on the CPU. -/
def defaultArguments : Cli where
  backend := .cpu
  flows := 65536
  requestsPerFlow := 1000
  warmupRequestsPerFlow := 20
  batchSize := 65536
  flowCapacity := 131072
  flowProbeLimit := 64
  listenPort := 8080

theorem main_cpu_iff_defaults :
    ∃ metrics, metrics.packets = UInt64.ofNat (1000 * 65536) ∧
      main defaultArguments Shader.smallAdapter Shader.inOrder Shader.freshMemory =
        .ok [expectedResult defaultArguments.settings (ascii "cpu-packet") metrics] := by
  have admissible : defaultArguments.Admissible :=
    ⟨by decide, by decide, by decide, by decide,
      ⟨by decide, by decide, ⟨17, rfl⟩, by decide, by decide, by decide, by decide⟩, by decide,
      by decide⟩
  obtain ⟨-, hfinishes⟩ := main_cpu_iff defaultArguments Shader.smallAdapter Shader.inOrder
    Shader.freshMemory rfl
  obtain ⟨_, metrics, -, hmetrics, -, hmain⟩ := hfinishes admissible
  exact ⟨metrics, hmetrics (by decide), hmain⟩

/-- Three flows through a table of four slots. -/
def threeFlows : Cli where
  backend := .both
  flows := 3
  requestsPerFlow := 1000
  warmupRequestsPerFlow := 20
  batchSize := 64
  flowCapacity := 4
  flowProbeLimit := 4
  listenPort := 8080

theorem main_both_threeFlows :
    ∃ cpuMetrics gpuMetrics, cpuMetrics.packets = 3000 ∧ gpuMetrics.packets = 3000 ∧
      main threeFlows Shader.smallAdapter Shader.inOrder Shader.freshMemory =
        .ok [expectedResult threeFlows.settings (ascii "cpu-packet") cpuMetrics,
          expectedResult threeFlows.settings (ascii "gpu-packet") gpuMetrics] := by
  have admissible : threeFlows.Admissible :=
    ⟨by decide, by decide, by decide, by decide,
      ⟨by decide, by decide, ⟨2, rfl⟩, by decide, by decide, by decide, by decide⟩, by decide,
      by decide⟩
  obtain ⟨_, _, cpuMetrics, gpuMetrics, -, -, hcpu, hgpu, -, -, hmain⟩ :=
    main_both threeFlows Shader.smallAdapter Shader.inOrder Shader.freshMemory rfl admissible
      Shader.new_smallAdapter Shader.inOrder_complete rfl rfl
  exact ⟨cpuMetrics, gpuMetrics, hcpu (by decide), hgpu (by decide), hmain⟩

end Bench
end Packet
end Gput
