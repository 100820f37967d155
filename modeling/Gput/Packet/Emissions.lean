import Gput.Packet.ShaderRun

/-!
# The packets both engines emit

What the two engines emit, read back by the parser: the packet that carries a
reply has the two endpoints of the flow exchanged, the fields of the reply and
the text of its response.  `HandshakeSafe` is a property of any engine that
emits so: nothing without SYN before a completed handshake.
-/

namespace Gput
namespace Packet

/-- The packet that carries a reply, as the parser sees it. -/
def replyView (response : UInt32 → List UInt8) (key : FlowKey) (reply : Reply) :
    TcpPacketView where
  key := key.reply
  seq := reply.seq
  ack := reply.ack
  flags := reply.flags
  payload := (reply.response.map response).getD []

/-- The view of bytes that pass the checks of the parser. -/
def parsedBytes (bytes : List UInt8) : Option TcpPacketView :=
  if IsIpv4Tcp bytes then some (viewOf bytes) else none

theorem parsedBytes_packetBytes (spec : TcpPacketSpec) (ipSum tcpSum : UInt16)
    (h : 40 + spec.payload.length ≤ maxRawPacketBytes) :
    parsedBytes (packetBytes spec ipSum tcpSum) =
      some { key := spec.key, seq := spec.seq, ack := spec.ack, flags := spec.flags,
             payload := spec.payload } := by
  rw [parsedBytes, if_pos (isIpv4Tcp_packetBytes spec _ _ h), viewOf_packetBytes spec _ _ h]

/-- The shader's packet carries its reply. -/
theorem parsedBytes_shaderReplyBytes (key : FlowKey) (reply : Reply) :
    parsedBytes (Shader.shaderReplyBytes key reply) =
      some (replyView Shader.shaderResponse key reply) := by
  apply parsedBytes_packetBytes
  have hfits := (Shader.response_facts (reply.response.getD Shader.invalidIndex)).1
  rw [Shader.shaderResponse_getD] at hfits
  exact le_trans hfits maxResponsePacketBytes_le

/-- Step by step, an engine emits what its replies say. -/
def Emits (response : UInt32 → List UInt8) (views : Nat → Option TcpPacketView)
    (replies : Nat → Option Reply) (emissions : Nat → Option TcpPacketView) (count : Nat) :
    Prop :=
  ∀ n, n < count →
    emissions n = (views n).bind fun tcp => (replies n).map (replyView response tcp.key)

section Engines

variable {config : PacketEngineConfig} {packets : List RawPacket}

/-- What the CPU engine emits for packet `n`. -/
def cpuEmission (outputs : Nat → Option RawPacket) (n : Nat) : Option TcpPacketView :=
  (outputs n).bind parsed

/-- What the shader emits for packet `n`. -/
def shaderEmission (outputs : Nat → Option (List UInt8)) (n : Nat) : Option TcpPacketView :=
  (outputs n).bind parsedBytes

theorem CpuRun.emits {tables : Nat → FlowTable} {outputs : Nat → Option RawPacket}
    (run : CpuRun config packets tables outputs) :
    Emits cpuResponse (viewAt config packets) (replyAt config packets tables)
      (cpuEmission outputs) packets.length := by
  intro n hn
  cases hview : viewAt config packets n with
  | none =>
      rw [cpuEmission, (run.step_unlistened hn hview).2]
      rfl
  | some tcp =>
      obtain ⟨-, -, houtput⟩ := run.step_listened hn hview
      rw [cpuEmission, houtput]
      cases replyAt config packets tables n with
      | none => rfl
      | some reply => exact parsed_builtPacket _ _

theorem Shader.ShaderRun.emits {flows : Nat → Shader.Flows}
    {outputs : Nat → Option (List UInt8)} (valid : ValidConfig config)
    (run : Shader.ShaderRun config packets flows outputs) :
    Emits packetResponse (viewAt config packets) (Shader.shaderReplyAt config packets flows)
      (shaderEmission outputs) packets.length := by
  intro n hn
  cases hview : viewAt config packets n with
  | none =>
      rw [shaderEmission, (run.step_unlistened hn hview).2]
      rfl
  | some tcp =>
      obtain ⟨-, -, hreads, -⟩ :=
        run.step_listened valid.capacity_power valid.capacity_fits hn hview
      cases hreply : Shader.shaderReplyAt config packets flows n with
      | none =>
          rw [hreply] at hreads
          rw [shaderEmission, hreads]
          rfl
      | some reply =>
          rw [hreply] at hreads
          obtain ⟨ipSum, tcpSum, houtput⟩ := hreads
          rw [shaderEmission, houtput]
          apply parsedBytes_packetBytes
          show 40 + ((reply.response.map packetResponse).getD []).length ≤ maxRawPacketBytes
          cases reply.response with
          | none => exact (by decide : 40 + 0 ≤ maxRawPacketBytes)
          | some id => exact packetResponse_length id

end Engines

/-- The handshake behind step `n` for a key: since its entry was created, an
opening segment that was answered by a SYN-ACK, and then the acknowledgement of
both sequence numbers. -/
def HandshakeDone (views emissions : Nat → Option TcpPacketView)
    (tables : Nat → FlowKey → Option Flow) (key : FlowKey) (n : Nat) : Prop :=
  ∃ m i j syn synAck ack, m ≤ i ∧ i < j ∧ j ≤ n ∧ CreatedAt tables key m n ∧
    views i = some syn ∧ syn.key = key ∧ IsOpening syn ∧
    emissions i = some synAck ∧ synAck.flags = tcpSyn ||| tcpAck ∧
    views j = some ack ∧ ack.key = key ∧ ack.flags &&& tcpAck ≠ 0 ∧
    ack.ack = (flowHash key ^^^ 0xa5a55a5a) + 1 ∧ ack.seq = syn.seq + 1

/-- Whatever an engine emits without SYN has a completed handshake behind it, and
what it emits for a key without an entry carries no payload. -/
def HandshakeSafe (views emissions : Nat → Option TcpPacketView)
    (tables : Nat → FlowKey → Option Flow) (count : Nat) : Prop :=
  ∀ n out, n < count → emissions n = some out →
    ∃ tcp, views n = some tcp ∧ out.key = tcp.key.reply ∧
      (out.flags &&& tcpSyn = 0 → HandshakeDone views emissions tables tcp.key n) ∧
      (tables n tcp.key = none → out.payload = [])

/-- The handshake behind a step, in what went in and out. -/
theorem HandshakeBehind.done {response : UInt32 → List UInt8}
    {views emissions : Nat → Option TcpPacketView} {tables : Nat → FlowKey → Option Flow}
    {replies : Nat → Option Reply} {count : Nat}
    (hemits : Emits response views replies emissions count) {key : FlowKey} {n : Nat}
    (h : HandshakeBehind views tables replies key n) (hn : n ≤ count) :
    HandshakeDone views emissions tables key n := by
  obtain ⟨m, i, j, seq, hmi, hij, hjn, hcreated, hsyn, hack⟩ := h
  obtain ⟨syn, synAck, hviewSyn, hkeySyn, hopen, rfl, hreplySyn, hflagsSyn⟩ := hsyn
  obtain ⟨ack, hviewAck, hkeyAck, hflagsAck, hackAck, hseqAck⟩ := hack
  refine ⟨m, i, j, syn, replyView response syn.key synAck, ack, hmi, hij, hjn, hcreated, hviewSyn,
    hkeySyn, hopen, ?_, hflagsSyn, hviewAck, hkeyAck, hflagsAck, hackAck, hseqAck⟩
  rw [hemits i (by omega), hviewSyn, Option.bind_some, hreplySyn, Option.map_some]

/-- Every engine that follows the rules of a segment is safe. -/
theorem EngineRun.handshakeSafe {response : UInt32 → List UInt8}
    {views emissions : Nat → Option TcpPacketView} {tables : Nat → FlowKey → Option Flow}
    {replies : Nat → Option Reply} {count : Nat} (run : EngineRun views tables replies count)
    (hemits : Emits response views replies emissions count) :
    HandshakeSafe views emissions tables count := by
  intro n out hn hout
  rw [hemits n hn] at hout
  obtain ⟨tcp, hview, hout⟩ := Option.bind_eq_some_iff.mp hout
  obtain ⟨reply, hreply, rfl⟩ := Option.map_eq_some_iff.mp hout
  refine ⟨tcp, hview, rfl, ?_, ?_⟩
  · intro hflags
    obtain ⟨tcp', hview', hbehind⟩ := run.handshake_of_reply hn hreply hflags
    cases hview.symm.trans hview'
    exact hbehind.done hemits (Nat.le_of_lt hn)
  · intro habsent
    have hnone := run.no_response_without_entry hn hreply hview habsent
    show (reply.response.map response).getD [] = []
    rw [hnone]
    rfl

/-- An established flow has a handshake behind it. -/
theorem EngineRun.handshakeDone {response : UInt32 → List UInt8}
    {views emissions : Nat → Option TcpPacketView} {tables : Nat → FlowKey → Option Flow}
    {replies : Nat → Option Reply} {count : Nat} (run : EngineRun views tables replies count)
    (hemits : Emits response views replies emissions count) {n : Nat} (hn : n ≤ count)
    {key : FlowKey} {flow : Flow} (hflow : tables n key = some flow)
    (hstate : flow.state = .established) : HandshakeDone views emissions tables key n := by
  obtain ⟨m, i, seq, hmi, -, hcreated, hsyn, -, hack⟩ := (run.grounded n hn key flow hflow).history
  obtain ⟨j, hij, hjn, hj⟩ := hack hstate
  exact HandshakeBehind.done hemits ⟨m, i, j, seq, hmi, hij, Nat.le_of_lt hjn, hcreated, hsyn, hj⟩ hn

/-- **No reply before a handshake.**  In every run of either engine, whatever is
emitted without SYN has a completed handshake behind it, and nothing with a
payload is emitted for a key without an entry. -/
theorem no_reply_before_handshake {config : PacketEngineConfig}
    (hvalid : validateConfig config = .ok ()) (packets : List RawPacket) :
    (∀ tables outputs, CpuRun config packets tables outputs →
      HandshakeSafe (viewAt config packets) (cpuEmission outputs) (fun n => entries (tables n))
        packets.length) ∧
      ∀ flows outputs, Shader.ShaderRun config packets flows outputs →
        HandshakeSafe (viewAt config packets) (shaderEmission outputs)
          (fun n => Shader.shaderEntries config (flows n)) packets.length := by
  have valid := validateConfig_eq_ok.mp hvalid
  refine ⟨?_, ?_⟩
  · intro tables outputs run
    exact run.engineRun.handshakeSafe run.emits
  · intro flows outputs run
    exact (run.engineRun valid.capacity_power valid.capacity_fits).handshakeSafe (run.emits valid)

theorem no_reply_before_handshake_conversation :
    (∃ tables outputs, CpuRun fourSlots conversation tables outputs ∧
        HandshakeSafe (viewAt fourSlots conversation) (cpuEmission outputs)
          (fun n => entries (tables n)) 6) ∧
      ∃ flows outputs, Shader.ShaderRun fourSlots conversation flows outputs ∧
        HandshakeSafe (viewAt fourSlots conversation) (shaderEmission outputs)
          (fun n => Shader.shaderEntries fourSlots (flows n)) 6 := by
  obtain ⟨hcpu, hshader⟩ := no_reply_before_handshake fourSlots_valid conversation
  obtain ⟨tables, outputs, run⟩ := cpuRun_exists fourSlots conversation
  obtain ⟨flows, outputs', run'⟩ := Shader.shaderRun_exists fourSlots conversation
  exact ⟨⟨tables, outputs, run, hcpu tables outputs run⟩,
    ⟨flows, outputs', run', hshader flows outputs' run'⟩⟩

end Packet
end Gput
