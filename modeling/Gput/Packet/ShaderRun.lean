import Gput.Packet.CpuRun
import Gput.Packet.Dispatch

/-!
# Runs of the packet shader

A run is a sequence of invocations of `main`, one at a time, from the table of
zeros; each presents the next packet of a list, alone or as part of a larger
wave.  The table invariant holds throughout, and a run of the shader is a run in
the sense of `EngineRun`, like one of the CPU engine.
-/

namespace Gput
namespace Packet
namespace Shader

open OpenAddressing

/-- `flows n` is the flow table before packet `n`, `outputs n` what the host
reads back for it. -/
structure ShaderRun (config : PacketEngineConfig) (packets : List RawPacket)
    (flows : Nat → Flows) (outputs : Nat → Option (List UInt8)) : Prop where
  start : flows 0 = emptyFlows
  step : ∀ n (hn : n < packets.length), ∃ (invocation : Invocation) (output : Words),
    invocation.Presents packets[n] ∧
      (invocation.run config ⟨output, flows n⟩).flows = flows (n + 1) ∧
      invocation.readBack config (invocation.run config ⟨output, flows n⟩) = outputs n

/-- The parameters that the flow table depends on. -/
def tableParams (config : PacketEngineConfig) : EngineParams :=
  engineParams config 0

/-- The entries of the shader's table, by key. -/
def shaderEntries (config : PacketEngineConfig) (flows : Flows) : FlowKey → Option Flow :=
  tableEntry (tableParams config) flows

/-- Whether `flow_claim` finds a slot for a key. -/
def hasVacancy (config : PacketEngineConfig) (flows : Flows) (key : FlowKey) : Bool :=
  (vacancy (cells flows) (probePath (tableParams config) key)
    (probeLimit (tableParams config)).toNat 0).isSome

/-- What the shader replies to a packet. -/
def shaderReply (config : PacketEngineConfig) (flows : Flows) (packet : RawPacket) :
    Option Reply :=
  (listened config packet).bind fun tcp =>
    (shaderFlowStep (hasVacancy config flows tcp.key) tcp.key (shaderEntries config flows tcp.key)
      tcp).2

/-- The reply to packet `n`. -/
def shaderReplyAt (config : PacketEngineConfig) (packets : List RawPacket) (flows : Nat → Flows)
    (n : Nat) : Option Reply :=
  packets[n]?.bind (shaderReply config (flows n))

/-- What the host reads back for a reply: nothing, or a packet that carries it. -/
def ReadsBack (key : FlowKey) (output : Option (List UInt8)) : Option Reply → Prop
  | none => output = none
  | some reply =>
      ∃ ipSum tcpSum, output = some (packetBytes (replySpec packetResponse key reply) ipSum tcpSum)

/-- The invariant of the flow table along a run. -/
structure GoodFlows (config : PacketEngineConfig) (flows : Flows) : Prop where
  table : TableInvariant (tableParams config) flows
  known : KnownResponses flows

section Params

variable {config : PacketEngineConfig} {flows : Flows} (packetCount : Nat)

theorem invariant_engineParams :
    TableInvariant (engineParams config packetCount) flows ↔
      TableInvariant (tableParams config) flows :=
  ⟨fun inv => ⟨inv.wellFormed, inv.hashed, inv.settled⟩,
    fun inv => ⟨inv.wellFormed, inv.hashed, inv.settled⟩⟩

theorem findKey_engineParams (key : FlowKey) :
    findKey (engineParams config packetCount) flows key = findKey (tableParams config) flows key :=
  @flowFindFrom_congr (tableParams config) flows (engineParams config packetCount) rfl rfl _ _ _ _ _

theorem tableEntry_engineParams :
    tableEntry (engineParams config packetCount) flows = shaderEntries config flows := by
  funext key
  unfold shaderEntries tableEntry
  rw [findKey_engineParams]

end Params

section Step

variable {config : PacketEngineConfig} {flows : Flows} {packet : RawPacket}
variable {invocation : Invocation}

theorem flowCapacity_toNat (h : config.flowCapacity ≤ 0xffffffff) (packetCount : Nat) :
    (engineParams config packetCount).flowCapacity.toNat = config.flowCapacity := by
  show (UInt32.ofNat config.flowCapacity).toNat = config.flowCapacity
  rw [UInt32.toNat_ofNat', Nat.mod_eq_of_lt (by omega)]

/-- An invocation for a packet that is not TCP for the listening port leaves the
table alone and emits nothing. -/
theorem run_ignored (h : invocation.Presents packet) (hview : listened config packet = none)
    (flows : Flows) (output : Words) :
    (invocation.run config ⟨output, flows⟩).flows = flows ∧
      invocation.readBack config (invocation.run config ⟨output, flows⟩) = none := by
  have hignored := main_ignored (invocation.presented config h) (by
    intro tcp hparsed hport
    rw [listened_eq_some.mpr ⟨hparsed, UInt16.toUInt32_inj.mp hport⟩] at hview
    cases hview) ⟨output, flows⟩
  rw [Invocation.readBack, Invocation.run, hignored]
  exact ⟨rfl, if_pos (Function.update_self (UInt32.ofNat invocation.position) 0 output)⟩

/-- What the host reads back after a reply. -/
theorem readBack_replied {params : EngineParams} {packetIndex : UInt32}
    (hfits : SlotFits params packetIndex) (output : Words) (key : FlowKey)
    (answer : Option Reply) :
    emitted params (replied params packetIndex key (cleared packetIndex output) answer)
      packetIndex = answer.map (shaderReplyBytes key) := by
  cases answer with
  | none => exact if_pos (Function.update_self packetIndex 0 output)
  | some reply => exact emitted_reply hfits (cleared packetIndex output) key reply

theorem readsBack_of_known {key : FlowKey} {answer : Option Reply}
    (hresponse : ∀ reply id, answer = some reply → reply.response = some id → id < responseCount) :
    ReadsBack key (answer.map (shaderReplyBytes key)) answer := by
  cases answer with
  | none => rfl
  | some reply =>
      obtain ⟨ipSum, tcpSum, hbytes⟩ := shaderReplyBytes_eq key reply
        (fun id => hresponse reply id rfl)
      exact ⟨ipSum, tcpSum, congrArg some hbytes⟩

/-- An invocation for a packet to the listening port is one step of the flow of
its key. -/
theorem run_step (hpower : config.flowCapacity.isPowerOfTwo)
    (hfits : config.flowCapacity ≤ 0xffffffff) (h : invocation.Presents packet)
    {tcp : TcpPacketView} (hview : listened config packet = some tcp)
    (good : GoodFlows config flows) (output : Words) :
    let result := shaderFlowStep (hasVacancy config flows tcp.key) tcp.key
      (shaderEntries config flows tcp.key) tcp
    let after := invocation.run config ⟨output, flows⟩
    GoodFlows config after.flows ∧
      shaderEntries config after.flows =
        Function.update (shaderEntries config flows) tcp.key result.1 ∧
      invocation.readBack config after = result.2.map (shaderReplyBytes tcp.key) ∧
      ∀ reply id, result.2 = some reply → reply.response = some id → id < responseCount := by
  obtain ⟨hparsed, hport⟩ := listened_eq_some.mp hview
  have hcapacity : (engineParams config invocation.wave.length).flowCapacity.toNat.isPowerOfTwo := by
    rw [flowCapacity_toNat hfits]
    exact hpower
  have hstep := main_step (invocation.presented config h) hparsed
    (congrArg UInt16.toUInt32 hport) hcapacity ⟨output, flows⟩
    ((invariant_engineParams _).mpr good.table) good.known
  simp only [tableEntry_engineParams] at hstep
  obtain ⟨invariant, known, entries, houtput, hresponse⟩ := hstep
  rw [tableEntry_engineParams, tableEntry_engineParams] at entries
  refine ⟨⟨(invariant_engineParams _).mp invariant, known⟩, entries, ?_, hresponse⟩
  have hroom : (vacancy (cells flows) (probePath (engineParams config invocation.wave.length)
      tcp.key) (probeLimit (engineParams config invocation.wave.length)).toNat 0).isSome =
      hasVacancy config flows tcp.key := rfl
  rw [hroom] at houtput
  unfold Invocation.readBack Invocation.run
  generalize shaderFlowStep (hasVacancy config flows tcp.key) tcp.key
    (shaderEntries config flows tcp.key) tcp = result at houtput ⊢
  rw [houtput]
  exact readBack_replied (Invocation.slotFits config h) output tcp.key result.2

end Step

namespace ShaderRun

variable {config : PacketEngineConfig} {packets : List RawPacket}
variable {flows : Nat → Flows} {outputs : Nat → Option (List UInt8)}

/-- A packet that is not TCP for the listening port changes nothing. -/
theorem step_unlistened (run : ShaderRun config packets flows outputs) {n : Nat}
    (hn : n < packets.length) (hview : viewAt config packets n = none) :
    flows (n + 1) = flows n ∧ outputs n = none := by
  obtain ⟨invocation, output, hpresents, hflows, houtput⟩ := run.step n hn
  rw [viewAt_eq hn] at hview
  obtain ⟨hsame, hnone⟩ := run_ignored hpresents hview (flows n) output
  exact ⟨hflows.symm.trans hsame, houtput.symm.trans hnone⟩

/-- The table invariant holds throughout a run. -/
theorem good (run : ShaderRun config packets flows outputs)
    (hpower : config.flowCapacity.isPowerOfTwo) (hfits : config.flowCapacity ≤ 0xffffffff) :
    ∀ n, n ≤ packets.length → GoodFlows config (flows n)
  | 0, _ => by
      rw [run.start]
      exact ⟨emptyFlows_invariant _, emptyFlows_known⟩
  | n + 1, hn => by
      have ih := good run hpower hfits n (by omega)
      cases hview : viewAt config packets n with
      | none =>
          rw [(run.step_unlistened (by omega) hview).1]
          exact ih
      | some tcp =>
          obtain ⟨invocation, output, hpresents, hflows, -⟩ := run.step n (by omega)
          rw [viewAt_eq (by omega)] at hview
          rw [← hflows]
          exact (run_step hpower hfits hpresents hview ih output).1

/-- A packet to the listening port is one step of the flow of its key. -/
theorem step_listened (run : ShaderRun config packets flows outputs)
    (hpower : config.flowCapacity.isPowerOfTwo) (hfits : config.flowCapacity ≤ 0xffffffff)
    {n : Nat} (hn : n < packets.length) {tcp : TcpPacketView}
    (hview : viewAt config packets n = some tcp) :
    shaderEntries config (flows (n + 1)) =
        Function.update (shaderEntries config (flows n)) tcp.key
          (shaderFlowStep (hasVacancy config (flows n) tcp.key) tcp.key
            (shaderEntries config (flows n) tcp.key) tcp).1 ∧
      shaderReplyAt config packets flows n =
        (shaderFlowStep (hasVacancy config (flows n) tcp.key) tcp.key
          (shaderEntries config (flows n) tcp.key) tcp).2 ∧
      ReadsBack tcp.key (outputs n) (shaderReplyAt config packets flows n) ∧
      outputs n = (shaderReplyAt config packets flows n).map (shaderReplyBytes tcp.key) := by
  obtain ⟨invocation, output, hpresents, hflows, houtput⟩ := run.step n hn
  have hgood := run.good hpower hfits n (Nat.le_of_lt hn)
  rw [viewAt_eq hn] at hview
  obtain ⟨-, hentries, hreads, hknown⟩ := run_step hpower hfits hpresents hview hgood output
  have hreply : shaderReplyAt config packets flows n =
      (shaderFlowStep (hasVacancy config (flows n) tcp.key) tcp.key
        (shaderEntries config (flows n) tcp.key) tcp).2 := by
    rw [shaderReplyAt, List.getElem?_eq_getElem hn]
    show shaderReply config (flows n) packets[n] = _
    rw [shaderReply, hview]
    rfl
  rw [hreply, ← houtput, ← hflows, hreads]
  exact ⟨hentries, rfl, readsBack_of_known hknown, rfl⟩

theorem reply_unlistened {n : Nat} (hn : n < packets.length)
    (hview : viewAt config packets n = none) : shaderReplyAt config packets flows n = none := by
  rw [viewAt_eq hn] at hview
  rw [shaderReplyAt, List.getElem?_eq_getElem hn]
  show shaderReply config (flows n) packets[n] = none
  rw [shaderReply, hview]
  rfl

/-- A run of the shader is a run of an engine. -/
theorem engineRun (run : ShaderRun config packets flows outputs)
    (hpower : config.flowCapacity.isPowerOfTwo) (hfits : config.flowCapacity ≤ 0xffffffff) :
    EngineRun (viewAt config packets) (fun n => shaderEntries config (flows n))
      (shaderReplyAt config packets flows) packets.length where
  start := by
    intro key
    rw [run.start]
    exact tableEntry_of_absent (emptyFlows_invariant _)
      (fun i heq => by rw [cells_emptyFlows] at heq; cases heq)
  step := by
    intro n hn
    unfold PacketRule
    cases hview : viewAt config packets n with
    | none =>
        exact ⟨by rw [(run.step_unlistened hn hview).1], reply_unlistened hn hview⟩
    | some tcp =>
        obtain ⟨hentries, hreply, -, -⟩ := run.step_listened hpower hfits hn hview
        refine ⟨_, hentries, ?_⟩
        rw [hreply]
        exact shaderFlowStep_rule _ _ _ _

end ShaderRun

/-- Every list of packets has a run, with every packet dispatched alone. -/
theorem shaderRun_exists (config : PacketEngineConfig) (packets : List RawPacket) :
    ∃ flows outputs, ShaderRun config packets flows outputs := by
  choose invocation _ hpresents using Invocation.exists_presents
  let step (flows : Flows) (packet : RawPacket) : Storage :=
    (invocation packet).run config ⟨fun _ => 0, flows⟩
  let flows (n : Nat) : Flows :=
    (packets.take n).foldl (fun flows packet => (step flows packet).flows) emptyFlows
  let outputs (n : Nat) : Option (List UInt8) :=
    packets[n]?.bind fun packet => (invocation packet).readBack config (step (flows n) packet)
  refine ⟨flows, outputs, rfl, ?_⟩
  intro n hn
  refine ⟨invocation packets[n], fun _ => 0, hpresents packets[n], ?_, ?_⟩
  · have htake : packets.take (n + 1) = packets.take n ++ [packets[n]] :=
      List.take_succ_eq_append_getElem hn
    show _ = (packets.take (n + 1)).foldl _ _
    rw [htake, List.foldl_append]
    rfl
  · show _ = packets[n]?.bind _
    rw [List.getElem?_eq_getElem hn]
    rfl

/-- The flow table between two invocations: no two slots hold one flow, every
slot that holds a flow is found, nothing else is found, and no slot is left
claimed. -/
structure SoundTable (config : PacketEngineConfig) (flows : Flows) : Prop where
  unique : ∀ i j : UInt32, i.toNat < config.flowCapacity → j.toNat < config.flowCapacity →
    Settled (flows i) → Settled (flows j) → (flows i).srcIp = (flows j).srcIp →
    (flows i).dstIp = (flows j).dstIp → (flows i).ports = (flows j).ports → i = j
  found : ∀ packetCount, ∀ i : UInt32, i.toNat < config.flowCapacity → Settled (flows i) →
    findKey (engineParams config packetCount) flows (slotKey (flows i)) = i
  missing : ∀ packetCount key,
    (∀ i : UInt32, i.toNat < config.flowCapacity → Settled (flows i) → slotKey (flows i) ≠ key) →
    findKey (engineParams config packetCount) flows key = invalidIndex
  unclaimed : ∀ i : UInt32, (flows i).state ≠ stateClaimed

/-- In every run the flow table is sound between invocations. -/
theorem flow_table_sound {config : PacketEngineConfig} (hpower : config.flowCapacity.isPowerOfTwo)
    (hfits : config.flowCapacity ≤ 0xffffffff) {packets : List RawPacket} {flows : Nat → Flows}
    {outputs : Nat → Option (List UInt8)} (run : ShaderRun config packets flows outputs) {n : Nat}
    (hn : n ≤ packets.length) : SoundTable config (flows n) := by
  have inv := (run.good hpower hfits n hn).table
  have hcapacity : (tableParams config).flowCapacity.toNat = config.flowCapacity :=
    flowCapacity_toNat hfits 0
  refine ⟨?_, ?_, ?_, ?_⟩
  · intro i j _ _ hi hj hsrc hdst hports
    have hkey : slotKey (flows n i) = slotKey (flows n j) := by
      rw [slotKey, slotKey, hsrc, hdst, hports]
    exact inv.wellFormed.unique hi.slotCell (hj.slotCell.trans (congrArg Cell.live hkey.symm))
  · intro packetCount i _ hi
    rw [findKey_engineParams]
    exact findKey_of_live inv hi.slotCell
  · intro packetCount key habsent
    rw [findKey_engineParams]
    apply findKey_of_absent inv
    intro i hlive
    refine habsent i ?_ (inv.settled_of_live hlive) (slotCell_eq_live.mp hlive).2
    rw [← hcapacity]
    exact inv.live_lt (by rw [hcapacity]; exact hpower) hlive
  · intro i hclaimed
    rcases inv.settled i with h | h | h | h <;> rw [hclaimed] at h <;> revert h <;> decide

/-- Two flows in a table of four slots. -/
theorem flow_table_sound_two_flows :
    ∃ flows outputs,
      ShaderRun { maxBatchSize := 1, flowCapacity := 4, flowProbeLimit := 2, listenPort := 8080 }
          [synPacket 1000, synPacket 1001] flows outputs ∧
        SoundTable { maxBatchSize := 1, flowCapacity := 4, flowProbeLimit := 2, listenPort := 8080 }
          (flows 2) := by
  obtain ⟨flows, outputs, run⟩ := shaderRun_exists
    { maxBatchSize := 1, flowCapacity := 4, flowProbeLimit := 2, listenPort := 8080 }
    [synPacket 1000, synPacket 1001]
  exact ⟨flows, outputs, run, flow_table_sound ⟨2, rfl⟩ (by decide) run (by decide)⟩

end Shader
end Packet
end Gput
