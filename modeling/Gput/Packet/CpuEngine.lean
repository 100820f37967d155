import Gput.Packet.Flow
import Mathlib.Data.Finmap

/-!
# The CPU packet engine

`processPacket` over a map from keys to flows.  The engine never reports an
error and never panics, and one call is one step of the flow machine of the
packet's key (`processPacket_eq`): all other entries stay as they are, and the
only thing a step reads from them is whether the table is full.
-/

namespace Gput
namespace Packet

open ByteString

/-- The CPU engine's flow table. -/
abbrev FlowTable := Finmap fun _ : FlowKey => Flow

/-- The bytes with the first occurrence of the pattern overwritten. -/
def overwriteFirst (pattern replacement bytes : List UInt8) : List UInt8 :=
  match windowPosition pattern bytes with
  | some offset =>
      bytes.take offset ++ replacement ++ bytes.drop (offset + replacement.length)
  | none => bytes

/-- The response table of `cpu_response`. -/
def cpuResponses : List (List UInt8) :=
  (List.range packetResponses.length).map fun i =>
    overwriteFirst (ascii "gpu-packet") (ascii "cpu-packet") (packetResponse (UInt32.ofNat i))

/-- `cpu_response`. -/
def cpuResponse (responseId : UInt32) : List UInt8 :=
  cpuResponses.getD responseId.toNat (cpuResponses.getD responseBadRequest.toNat [])

def emit (key : FlowKey) (seq ack : UInt32) (flags : UInt8) (payload : List UInt8) :
    Outcome RawPacket :=
  buildIpv4TcpPacket
    { key := key.reply, seq := seq, ack := ack, flags := flags, payload := payload }

/-- `process_packet` from the sequence check on; the flow is already in the
table. -/
def processEstablished (flows : FlowTable) (flow : Flow) (tcp : TcpPacketView) :
    Outcome (FlowTable × Option RawPacket) := do
  if tcp.seq ≠ flow.recvNext then
    match flow.lastResponse with
    | some last =>
        if tcp.seq = last.clientSeq ∧ tcp.payload.length = last.clientLen then
          let output ← emit tcp.key last.responseSeq last.responseAck (tcpAck ||| tcpPsh)
            (cpuResponse last.responseId)
          return (flows, some output)
        else
          let output ← emit tcp.key flow.sendNext flow.recvNext tcpAck []
          return (flows, some output)
    | none =>
        let output ← emit tcp.key flow.sendNext flow.recvNext tcpAck []
        return (flows, some output)
  else
    let hasFin := tcp.flags &&& tcpFin ≠ 0
    if tcp.payload = [] then
      if ¬ hasFin then return (flows, none)
      let nextAck := tcp.seq + 1
      let output ← emit tcp.key flow.sendNext nextAck tcpAck []
      return (flows.erase tcp.key, some output)
    else
      let responseId := classifyHttpRequest tcp.payload
      let response := cpuResponse responseId
      let finAdvance : UInt32 := if hasFin then 1 else 0
      let nextAck := tcp.seq + UInt32.ofNat tcp.payload.length + finAdvance
      let responseSeq := flow.sendNext
      let flow :=
        { flow with
          recvNext := nextAck
          sendNext := flow.sendNext + UInt32.ofNat response.length
          lastResponse := some
            { clientSeq := tcp.seq, clientLen := tcp.payload.length, responseSeq := responseSeq,
              responseAck := nextAck, responseId := responseId } }
      let flows := flows.insert tcp.key flow
      let output ← emit tcp.key responseSeq nextAck (tcpAck ||| tcpPsh) response
      if hasFin then return (flows.erase tcp.key, some output)
      return (flows, some output)

/-- The flow an opening segment leaves behind: a half-open flow that expects
another sequence number starts over. -/
def reopen (key : FlowKey) (flow : Flow) (seq : UInt32) : Flow :=
  if flow.state = .synReceived ∧ flow.recvNext ≠ seq + 1 then openedFlow key seq else flow

/-- The SYN branch of `process_packet`. -/
def processOpening (flows : FlowTable) (config : PacketEngineConfig) (tcp : TcpPacketView) :
    Outcome (FlowTable × Option RawPacket) := do
  if tcp.key ∉ flows ∧ flows.keys.card ≥ config.flowCapacity then return (flows, none)
  let flow := reopen tcp.key ((flows.lookup tcp.key).getD (openedFlow tcp.key tcp.seq)) tcp.seq
  let sequence := if flow.state = .synReceived then flow.sendNext - 1 else flow.sendNext
  let flags := if flow.state = .synReceived then tcpSyn ||| tcpAck else tcpAck
  let output ← emit tcp.key sequence flow.recvNext flags []
  return (flows.insert tcp.key flow, some output)

/-- `process_packet` behind the SYN branch. -/
def processSegment (flows : FlowTable) (tcp : TcpPacketView) :
    Outcome (FlowTable × Option RawPacket) := do
  let some flow := flows.lookup tcp.key | return (flows, none)
  if flow.state = .synReceived ∧
      (tcp.flags &&& tcpAck = 0 ∨ tcp.ack ≠ flow.sendNext ∨ tcp.seq ≠ flow.recvNext) then
    return (flows, none)
  let flow := if flow.state = .synReceived then establish flow tcp else flow
  let flow :=
    if tcp.flags &&& tcpAck ≠ 0 ∧ tcp.ack = flow.sendNext ∧ tcp.ack ≠ flow.sendUnacked then
      { flow with sendUnacked := tcp.ack }
    else flow
  processEstablished (flows.insert tcp.key flow) flow tcp

/-- `process_packet`: the table and the output after one packet. -/
def processPacket (flows : FlowTable) (config : PacketEngineConfig) (packet : RawPacket) :
    Outcome (FlowTable × Option RawPacket) := do
  let some tcp ← parseIpv4Tcp packet | return (flows, none)
  if tcp.key.dstPort ≠ config.listenPort then return (flows, none)
  if tcp.flags &&& tcpRst ≠ 0 then return (flows.erase tcp.key, none)
  if tcp.flags &&& tcpSyn ≠ 0 ∧ tcp.flags &&& tcpAck = 0 then
    processOpening flows config tcp
  else
    processSegment flows tcp

/-- The loop of `CpuPacketEngine::process_batch_into`. -/
def processBatchInto (flows : FlowTable) (config : PacketEngineConfig) :
    List RawPacket → Outcome (FlowTable × List (Option RawPacket))
  | [] => return (flows, [])
  | packet :: packets => do
      let (flows, output) ← processPacket flows config packet
      let (flows, outputs) ← processBatchInto flows config packets
      return (flows, output :: outputs)

/-- Renaming the backend keeps the length of every response. -/
theorem cpuResponse_length (responseId : UInt32) :
    (cpuResponse responseId).length = (packetResponse responseId).length := by
  have htable : cpuResponses.map List.length = packetResponses.map List.length := by
    decide +kernel
  have hlength (table : List (List UInt8)) (i : Nat) (default : List UInt8) :
      (table.getD i default).length = (table.map List.length).getD i default.length :=
    (List.getD_map table _ List.length).symm
  rw [cpuResponse, packetResponse, hlength, hlength, hlength, hlength, htable]

/-- One segment at the flow of its key; `room` says whether the table may take
another flow. -/
def cpuFlowStep (room : Prop) [Decidable room] (key : FlowKey) (entry : Option Flow)
    (tcp : TcpPacketView) : Option Flow × Option Reply :=
  if IsReset tcp then (none, none)
  else if IsOpening tcp then
    match entry with
    | none =>
        if room then
          (some (openedFlow key tcp.seq), some (openingReply (openedFlow key tcp.seq)))
        else (none, none)
    | some flow =>
        (some (reopen key flow tcp.seq), some (openingReply (reopen key flow tcp.seq)))
  else
    match entry with
    | none => (none, none)
    | some flow => segmentStep flow tcp

section CpuFlowStep

variable (room : Prop) [Decidable room] (key : FlowKey) {tcp : TcpPacketView}

theorem cpuFlowStep_reset (entry : Option Flow) (h : IsReset tcp) :
    cpuFlowStep room key entry tcp = (none, none) :=
  if_pos h

theorem cpuFlowStep_open (hreset : ¬ IsReset tcp) (hopen : IsOpening tcp) :
    cpuFlowStep room key none tcp =
      if room then
        (some (openedFlow key tcp.seq), some (openingReply (openedFlow key tcp.seq)))
      else (none, none) :=
  (if_neg hreset).trans (if_pos hopen)

theorem cpuFlowStep_reopen (flow : Flow) (hreset : ¬ IsReset tcp) (hopen : IsOpening tcp) :
    cpuFlowStep room key (some flow) tcp =
      (some (reopen key flow tcp.seq), some (openingReply (reopen key flow tcp.seq))) :=
  (if_neg hreset).trans (if_pos hopen)

theorem cpuFlowStep_absent (hopen : ¬ IsOpening tcp) :
    cpuFlowStep room key none tcp = (none, none) := by
  unfold cpuFlowStep
  rw [if_neg hopen, ite_self]

theorem cpuFlowStep_segment (flow : Flow) (hreset : ¬ IsReset tcp) (hopen : ¬ IsOpening tcp) :
    cpuFlowStep room key (some flow) tcp = segmentStep flow tcp :=
  (if_neg hreset).trans (if_neg hopen)

end CpuFlowStep

/-- The entry of a key replaced. -/
def FlowTable.setEntry (flows : FlowTable) (key : FlowKey) : Option Flow → FlowTable
  | none => flows.erase key
  | some flow => flows.insert key flow

theorem replySpec_fits (key : FlowKey) (reply : Reply) :
    40 + (replySpec cpuResponse key reply).payload.length ≤ maxRawPacketBytes := by
  cases h : reply.response with
  | none => simp [replySpec, h, maxRawPacketBytes]
  | some id =>
      have := packetResponse_length id
      simpa [replySpec, h, cpuResponse_length] using this

/-- The packet the CPU engine emits for a reply. -/
def cpuReplyPacket (key : FlowKey) (reply : Reply) : RawPacket :=
  builtPacket (replySpec cpuResponse key reply) (replySpec_fits key reply)

/-- The table and the output after one packet, without failures. -/
def cpuStep (config : PacketEngineConfig) (flows : FlowTable) (packet : RawPacket) :
    FlowTable × Option RawPacket :=
  match parsed packet with
  | none => (flows, none)
  | some tcp =>
      if tcp.key.dstPort ≠ config.listenPort then (flows, none)
      else
        let result := cpuFlowStep (flows.keys.card < config.flowCapacity) tcp.key
          (flows.lookup tcp.key) tcp
        (flows.setEntry tcp.key result.1, result.2.map (cpuReplyPacket tcp.key))

section SetEntry

variable (flows : FlowTable) (key : FlowKey)

@[simp] theorem lookup_setEntry (entry : Option Flow) :
    (flows.setEntry key entry).lookup key = entry := by
  cases entry with
  | none => exact Finmap.lookup_erase key flows
  | some flow => exact Finmap.lookup_insert flows

theorem lookup_setEntry_of_ne {key' : FlowKey} (entry : Option Flow) (h : key' ≠ key) :
    (flows.setEntry key entry).lookup key' = flows.lookup key' := by
  cases entry with
  | none => exact Finmap.lookup_erase_ne h
  | some flow => exact Finmap.lookup_insert_of_ne flows h

theorem setEntry_self : flows.setEntry key (flows.lookup key) = flows := by
  apply Finmap.ext_lookup
  intro key'
  by_cases h : key' = key
  · rw [h, lookup_setEntry]
  · rw [lookup_setEntry_of_ne flows key _ h]

theorem setEntry_setEntry (first second : Option Flow) :
    (flows.setEntry key first).setEntry key second = flows.setEntry key second := by
  apply Finmap.ext_lookup
  intro key'
  by_cases h : key' = key
  · rw [h, lookup_setEntry, lookup_setEntry]
  · rw [lookup_setEntry_of_ne _ key _ h, lookup_setEntry_of_ne _ key _ h,
      lookup_setEntry_of_ne _ key _ h]

end SetEntry

theorem emit_empty (key : FlowKey) (seq ack : UInt32) (flags : UInt8) :
    emit key seq ack flags [] =
      .ok (cpuReplyPacket key
        { seq := seq, ack := ack, flags := flags, response := none }) :=
  buildIpv4TcpPacket_eq _ (replySpec_fits key
    { seq := seq, ack := ack, flags := flags, response := none })

theorem emit_response (key : FlowKey) (seq ack : UInt32) (flags : UInt8)
    (responseId : UInt32) :
    emit key seq ack flags (cpuResponse responseId) =
      .ok (cpuReplyPacket key
        { seq := seq, ack := ack, flags := flags, response := some responseId }) :=
  buildIpv4TcpPacket_eq _ (replySpec_fits key
    { seq := seq, ack := ack, flags := flags, response := some responseId })

/-- The part behind the sequence check is one step of an established flow. -/
theorem processEstablished_eq (flows : FlowTable) (flow : Flow) (tcp : TcpPacketView) :
    processEstablished (flows.insert tcp.key flow) flow tcp =
      .ok (flows.setEntry tcp.key (establishedStep flow tcp).1,
        (establishedStep flow tcp).2.map (cpuReplyPacket tcp.key)) := by
  have hinsert : ∀ entry : Option Flow,
      FlowTable.setEntry (flows.insert tcp.key flow) tcp.key entry =
        flows.setEntry tcp.key entry :=
    fun entry => setEntry_setEntry flows tcp.key (some flow) entry
  unfold processEstablished establishedStep
  by_cases hseq : tcp.seq ≠ flow.recvNext
  · rw [if_pos hseq, if_pos hseq]
    unfold outOfOrderReply
    cases flow.lastResponse with
    | none =>
        simp only [emit_empty]
        rfl
    | some last =>
        by_cases hlast : tcp.seq = last.clientSeq ∧ tcp.payload.length = last.clientLen
        · simp only [if_pos hlast, emit_response]
          rfl
        · simp only [if_neg hlast, emit_empty]
          rfl
  rw [if_neg hseq, if_neg hseq]
  by_cases hempty : tcp.payload = []
  · rw [if_pos hempty, if_pos hempty]
    by_cases hfin : tcp.flags &&& tcpFin = 0
    · rw [if_pos (not_not.mpr hfin), if_pos hfin]
      rfl
    · rw [if_neg (not_not.mpr hfin), if_neg hfin]
      simp only [emit_empty]
      rw [← hinsert]
      rfl
  · rw [if_neg hempty, if_neg hempty]
    simp only [emit_response, cpuResponse_length]
    have hanswered (next : UInt32) (hnext : next = nextAck tcp) :
        ({ flow with
            recvNext := next
            sendNext := flow.sendNext +
              UInt32.ofNat (packetResponse (classifyHttpRequest tcp.payload)).length
            lastResponse := some
              { clientSeq := tcp.seq, clientLen := tcp.payload.length,
                responseSeq := flow.sendNext, responseAck := next,
                responseId := classifyHttpRequest tcp.payload } } : Flow) =
          answeredFlow flow tcp := by
      rw [hnext]
      rfl
    have hreply (next : UInt32) (hnext : next = nextAck tcp) :
        ({ seq := flow.sendNext, ack := next, flags := tcpAck ||| tcpPsh,
           response := some (classifyHttpRequest tcp.payload) } : Reply) = answer flow tcp := by
      rw [hnext]
      rfl
    by_cases hfin : tcp.flags &&& tcpFin ≠ 0
    · have hnext : tcp.seq + UInt32.ofNat tcp.payload.length + 1 = nextAck tcp := by
        rw [nextAck, if_pos hfin]
      simp only [if_pos hfin, hanswered _ hnext, hreply _ hnext]
      rw [← hinsert, ← setEntry_setEntry _ tcp.key (some (answeredFlow flow tcp))]
      rfl
    · have hnext : tcp.seq + UInt32.ofNat tcp.payload.length + 0 = nextAck tcp := by
        rw [nextAck, if_neg hfin]
      simp only [if_neg hfin, hanswered _ hnext, hreply _ hnext]
      rw [← hinsert]
      rfl

/-- Behind the SYN branch a packet is one step of the flow of its key. -/
theorem processSegment_eq (flows : FlowTable) (tcp : TcpPacketView) (flow : Flow)
    (hentry : flows.lookup tcp.key = some flow) :
    processSegment flows tcp =
      .ok (flows.setEntry tcp.key (segmentStep flow tcp).1,
        (segmentStep flow tcp).2.map (cpuReplyPacket tcp.key)) := by
  have hnote (flow : Flow) :
      (if tcp.flags &&& tcpAck ≠ 0 ∧ tcp.ack = flow.sendNext ∧ tcp.ack ≠ flow.sendUnacked then
        { flow with sendUnacked := tcp.ack } else flow) = noteAck flow tcp := by
    unfold noteAck
    by_cases hack : tcp.flags &&& tcpAck ≠ 0 ∧ tcp.ack = flow.sendNext
    · by_cases hnew : tcp.ack = flow.sendUnacked
      · rw [if_neg (fun h => h.2.2 hnew), if_pos hack, hnew]
      · rw [if_pos ⟨hack.1, hack.2, hnew⟩, if_pos hack]
    · rw [if_neg (fun h => hack ⟨h.1, h.2.1⟩), if_neg hack]
  unfold processSegment segmentStep
  rw [hentry]
  simp only [hnote, processEstablished_eq]
  cases hstate : flow.state with
  | synReceived =>
      by_cases hdone : CompletesHandshake flow tcp
      · have hpass : ¬ (tcp.flags &&& tcpAck = 0 ∨ tcp.ack ≠ flow.sendNext ∨
            tcp.seq ≠ flow.recvNext) := by
          simpa [CompletesHandshake] using hdone
        simp [hpass, hdone]
      · have hfail : tcp.flags &&& tcpAck = 0 ∨ tcp.ack ≠ flow.sendNext ∨
            tcp.seq ≠ flow.recvNext := by
          by_contra h
          exact hdone (by simpa [CompletesHandshake] using h)
        have hsame : flows.setEntry tcp.key (some flow) = flows := by
          rw [← hentry, setEntry_self]
        simp [hfail, hdone, hsame]
  | established => simp

/-- The SYN branch is one step of the flow of the packet's key. -/
theorem processOpening_eq (flows : FlowTable) (config : PacketEngineConfig)
    (tcp : TcpPacketView) (hreset : ¬ IsReset tcp) (hopen : IsOpening tcp) :
    processOpening flows config tcp =
      let result := cpuFlowStep (flows.keys.card < config.flowCapacity) tcp.key
        (flows.lookup tcp.key) tcp
      .ok (flows.setEntry tcp.key result.1, result.2.map (cpuReplyPacket tcp.key)) := by
  have hreply (flow : Flow) :
      emit tcp.key (if flow.state = .synReceived then flow.sendNext - 1 else flow.sendNext)
          flow.recvNext (if flow.state = .synReceived then tcpSyn ||| tcpAck else tcpAck) [] =
        .ok (cpuReplyPacket tcp.key (openingReply flow)) := by
    rw [emit_empty, openingReply]
    cases flow.state <;> rfl
  have hfresh : reopen tcp.key (openedFlow tcp.key tcp.seq) tcp.seq =
      openedFlow tcp.key tcp.seq := by
    rw [reopen, if_neg (fun h => h.2 rfl)]
  unfold processOpening
  simp only [hreply]
  cases hentry : flows.lookup tcp.key with
  | none =>
      have hmem : tcp.key ∉ flows := Finmap.lookup_eq_none.mp hentry
      rw [cpuFlowStep_open _ _ hreset hopen, Option.getD_none, hfresh]
      by_cases hroom : flows.keys.card < config.flowCapacity
      · rw [if_neg (fun h => absurd h.2 (by omega)), if_pos hroom]
        rfl
      · have hsame : flows.setEntry tcp.key none = flows := by
          rw [← hentry, setEntry_self]
        rw [if_pos ⟨hmem, by omega⟩, if_neg hroom]
        simp [hsame]
  | some flow =>
      have hmem : tcp.key ∈ flows := Finmap.mem_of_lookup_eq_some hentry
      rw [cpuFlowStep_reopen _ _ _ hreset hopen, if_neg (fun h => h.1 hmem)]
      rfl

/-- The engine neither fails nor panics: one packet is one step of the flow of
its key. -/
theorem processPacket_eq (flows : FlowTable) (config : PacketEngineConfig)
    (packet : RawPacket) :
    processPacket flows config packet = .ok (cpuStep config flows packet) := by
  unfold processPacket cpuStep
  rw [parseIpv4Tcp_eq]
  cases parsed packet with
  | none => rfl
  | some tcp =>
      simp only [Outcome.ok_bind]
      by_cases hport : tcp.key.dstPort ≠ config.listenPort
      · rw [if_pos hport, if_pos hport]
        rfl
      rw [if_neg hport, if_neg hport]
      by_cases hrst : tcp.flags &&& tcpRst ≠ 0
      · have hreset : IsReset tcp := hrst
        rw [if_pos hrst, cpuFlowStep_reset _ _ _ hreset]
        rfl
      have hreset : ¬ IsReset tcp := hrst
      rw [if_neg hrst]
      by_cases hopening : tcp.flags &&& tcpSyn ≠ 0 ∧ tcp.flags &&& tcpAck = 0
      · rw [if_pos hopening]
        exact processOpening_eq flows config tcp hreset hopening
      have hopen : ¬ IsOpening tcp := hopening
      rw [if_neg hopening]
      cases hentry : flows.lookup tcp.key with
      | none =>
          have hsame : flows.setEntry tcp.key none = flows := by
            rw [← hentry, setEntry_self]
          rw [cpuFlowStep_absent _ _ hopen, processSegment, hentry, hsame]
          rfl
      | some flow =>
          rw [cpuFlowStep_segment _ _ _ hreset hopen]
          exact processSegment_eq flows tcp flow hentry

/-- A batch is its packets one after the other. -/
theorem processBatchInto_total (flows : FlowTable) (config : PacketEngineConfig)
    (packets : List RawPacket) :
    ∃ result, processBatchInto flows config packets = .ok result ∧
      result.2.length = packets.length := by
  induction packets generalizing flows with
  | nil => exact ⟨_, rfl, rfl⟩
  | cons packet packets ih =>
      obtain ⟨result, hresult, hlength⟩ := ih (cpuStep config flows packet).1
      refine ⟨(result.1, (cpuStep config flows packet).2 :: result.2), ?_, by simp [hlength]⟩
      rw [processBatchInto, processPacket_eq]
      simp only [Outcome.ok_bind]
      rw [hresult]
      rfl

end Packet
end Gput
