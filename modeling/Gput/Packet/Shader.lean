import Gput.Packet.Handshake
import Gput.Packet.ShaderClassifier
import Gput.Packet.ShaderOutput
import Gput.Packet.ShaderTable

/-!
# The packet shader

`main` of `packet.wgsl`, one invocation at a time, over the two buffers it
writes.  `main_step` is its specification: from a table that satisfies the
invariant, an invocation for a packet to the listening port is one step of the
flow of the packet's key (`shaderFlowStep`), keeps the invariant, and leaves in
its output slot the packet that carries the reply.
-/

namespace Gput
namespace Packet
namespace Shader

open LittleEndian OpenAddressing

def tcpFin : UInt32 := 0x01
def tcpSyn : UInt32 := 0x02
def tcpRst : UInt32 := 0x04
def tcpPsh : UInt32 := 0x08
def tcpAck : UInt32 := 0x10

/-- The buffers an invocation writes. -/
structure Storage where
  outputData : Words
  flows : Flows

section Main

variable (params : EngineParams) (packetIndex : UInt32) (tcp : Segment) (storage : Storage)

/-- `emit_packet` to the sender of a segment. -/
def reply (seq ack flags responseId : UInt32) : Storage :=
  { storage with
    outputData := emitPacket params storage.outputData packetIndex tcp.dstIp tcp.srcIp tcp.dstPort
      tcp.srcPort seq ack flags responseId }

/-- The SYN branch of `main` from the slot on. -/
def answerOpening (base : UInt32) : Storage :=
  let slot := storage.flows base
  if slot.state = stateSynReceived then
    reply params packetIndex tcp storage (slot.sendNext - 1) slot.recvNext (tcpSyn ||| tcpAck)
      invalidIndex
  else if slot.state = stateEstablished then
    reply params packetIndex tcp storage slot.sendNext slot.recvNext tcpAck invalidIndex
  else storage

/-- The SYN branch of `main`. -/
def openingBranch (keyHash ports : UInt32) : Storage :=
  let base := flowFind params storage.flows keyHash tcp.srcIp tcp.dstIp ports
  if base = invalidIndex then
    let (base, flows) := flowClaim params storage.flows keyHash tcp.srcIp tcp.dstIp ports
    if base = invalidIndex then { storage with flows := flows }
    else
      let isn := keyHash ^^^ 0xa5a55a5a
      let flows := Function.update flows base
        { flows base with
          recvNext := tcp.seq + 1, sendNext := isn + 1, sendUnacked := isn, lastResponseLen := 0 }
      let flows := Function.update flows base { flows base with state := stateSynReceived }
      answerOpening params packetIndex tcp { storage with flows := flows } base
  else answerOpening params packetIndex tcp storage base

/-- `main` on a data segment in order. -/
def dataSegment (inputWords : Words) (inputBase base : UInt32) : Storage :=
  let hasFin := tcp.flags &&& tcpFin ≠ 0
  let responseId := classifyRequest inputWords inputBase tcp.payloadOffset tcp.payloadLen
  let responseLen := responseLength responseId
  let nextAck := tcp.seq + tcp.payloadLen + if hasFin then 1 else 0
  let responseSeq := (storage.flows base).sendNext
  let flows := Function.update storage.flows base
    { storage.flows base with
      recvNext := nextAck
      sendNext := responseSeq + responseLen
      lastClientSeq := tcp.seq
      lastClientLen := tcp.payloadLen
      lastResponseSeq := responseSeq
      lastResponseAck := nextAck
      lastResponseId := responseId
      lastResponseLen := responseLen }
  let storage := reply params packetIndex tcp { storage with flows := flows } responseSeq nextAck
    (tcpAck ||| tcpPsh) responseId
  if hasFin then { storage with flows := flowRelease storage.flows base } else storage

/-- `main` on a segment of an established flow. -/
def establishedSegment (inputWords : Words) (inputBase base : UInt32) : Storage :=
  let slot := storage.flows base
  let slot :=
    if tcp.flags &&& tcpAck ≠ 0 ∧ tcp.ack = slot.sendNext then { slot with sendUnacked := tcp.ack }
    else slot
  let storage := { storage with flows := Function.update storage.flows base slot }
  if tcp.seq ≠ slot.recvNext then
    if tcp.seq = slot.lastClientSeq ∧ tcp.payloadLen = slot.lastClientLen ∧
        slot.lastResponseLen > 0 then
      reply params packetIndex tcp storage slot.lastResponseSeq slot.lastResponseAck
        (tcpAck ||| tcpPsh) slot.lastResponseId
    else reply params packetIndex tcp storage slot.sendNext slot.recvNext tcpAck invalidIndex
  else if tcp.payloadLen = 0 then
    if tcp.flags &&& tcpFin = 0 then storage
    else
      let storage := reply params packetIndex tcp storage slot.sendNext (tcp.seq + 1) tcpAck
        invalidIndex
      { storage with flows := flowRelease storage.flows base }
  else dataSegment params packetIndex tcp storage inputWords inputBase base

/-- `main` behind the SYN branch. -/
def segmentBranch (inputWords : Words) (inputBase keyHash ports : UInt32) : Storage :=
  let base := flowFind params storage.flows keyHash tcp.srcIp tcp.dstIp ports
  if base = invalidIndex then storage
  else if tcp.flags &&& tcpRst ≠ 0 then
    { storage with flows := flowRelease storage.flows base }
  else
    let slot := storage.flows base
    if slot.state = stateSynReceived then
      if tcp.flags &&& tcpAck = 0 ∨ tcp.ack ≠ slot.sendNext ∨ tcp.seq ≠ slot.recvNext then storage
      else
        let slot := { slot with state := stateEstablished, sendUnacked := tcp.ack }
        let storage := { storage with flows := Function.update storage.flows base slot }
        establishedSegment params packetIndex tcp storage inputWords inputBase base
    else if slot.state ≠ stateEstablished then storage
    else establishedSegment params packetIndex tcp storage inputWords inputBase base

end Main

/-- `main`, for the invocation `packetIndex`. -/
def main (params : EngineParams) (inputMeta : UInt32 → PacketMeta) (inputWords : Words)
    (packetIndex : UInt32) (storage : Storage) : Storage :=
  if packetIndex ≥ params.packetCount then storage
  else
    let storage :=
      { storage with outputData := Function.update storage.outputData packetIndex 0 }
    let inputLen := (inputMeta packetIndex).len
    let inputBase := (inputMeta packetIndex).wordOffset
    match acceptPacket params inputWords inputLen inputBase with
    | none => storage
    | some tcp =>
        let keyHash := flowHash tcp.srcIp tcp.dstIp tcp.srcPort tcp.dstPort
        let ports := packedPorts tcp.srcPort tcp.dstPort
        if tcp.flags &&& tcpSyn ≠ 0 ∧ tcp.flags &&& tcpAck = 0 then
          openingBranch params packetIndex tcp storage keyHash ports
        else segmentBranch params packetIndex tcp storage inputWords inputBase keyHash ports

/-- One segment at the flow of its key, as the shader treats it; `room` says
whether `flow_claim` finds a slot. -/
def shaderFlowStep (room : Bool) (key : FlowKey) (entry : Option Flow) (tcp : TcpPacketView) :
    Option Flow × Option Reply :=
  if IsOpening tcp then
    match entry with
    | none =>
        if room then
          (some (openedFlow key tcp.seq), some (openingReply (openedFlow key tcp.seq)))
        else (none, none)
    | some flow => (some flow, some (openingReply flow))
  else
    match entry with
    | none => (none, none)
    | some flow => if IsReset tcp then (none, none) else segmentStep flow tcp

section ShaderFlowStep

variable (room : Bool) (key : FlowKey) {tcp : TcpPacketView}

theorem shaderFlowStep_open (hopen : IsOpening tcp) :
    shaderFlowStep room key none tcp =
      if room then
        (some (openedFlow key tcp.seq), some (openingReply (openedFlow key tcp.seq)))
      else (none, none) :=
  if_pos hopen

theorem shaderFlowStep_repeated (flow : Flow) (hopen : IsOpening tcp) :
    shaderFlowStep room key (some flow) tcp = (some flow, some (openingReply flow)) :=
  if_pos hopen

theorem shaderFlowStep_absent (hopen : ¬ IsOpening tcp) :
    shaderFlowStep room key none tcp = (none, none) :=
  if_neg hopen

theorem shaderFlowStep_reset (flow : Flow) (hopen : ¬ IsOpening tcp) (hreset : IsReset tcp) :
    shaderFlowStep room key (some flow) tcp = (none, none) :=
  (if_neg hopen).trans (if_pos hreset)

theorem shaderFlowStep_segment (flow : Flow) (hopen : ¬ IsOpening tcp) (hreset : ¬ IsReset tcp) :
    shaderFlowStep room key (some flow) tcp = segmentStep flow tcp :=
  (if_neg hopen).trans (if_neg hreset)

end ShaderFlowStep

/-- The segment the shader reads for a view. -/
structure Segment.Of (segment : Segment) (tcp : TcpPacketView) : Prop where
  srcIp : segment.srcIp = tcp.key.srcIp
  dstIp : segment.dstIp = tcp.key.dstIp
  srcPort : segment.srcPort = tcp.key.srcPort.toUInt32
  dstPort : segment.dstPort = tcp.key.dstPort.toUInt32
  seq : segment.seq = tcp.seq
  ack : segment.ack = tcp.ack
  flags : segment.flags = tcp.flags.toUInt32
  payloadLen : segment.payloadLen.toNat = tcp.payload.length

/-- The output buffer after a reply. -/
def replied (params : EngineParams) (packetIndex : UInt32) (key : FlowKey) (output : Words) :
    Option Reply → Words
  | none => output
  | some reply =>
      emitPacket params output packetIndex key.dstIp key.srcIp key.dstPort.toUInt32
        key.srcPort.toUInt32 reply.seq reply.ack reply.flags.toUInt32
        (reply.response.getD invalidIndex)

/-- The slots only remember responses of the table. -/
def KnownResponses (flows : Flows) : Prop :=
  ∀ i, (flows i).lastResponseLen ≠ 0 → (flows i).lastResponseId < responseCount

/-- What an invocation did: the given step of the flow of one key. -/
structure StepResult (params : EngineParams) (packetIndex : UInt32) (key : FlowKey)
    (before after : Storage) (result : Option Flow × Option Reply) : Prop where
  invariant : TableInvariant params after.flows
  known : KnownResponses after.flows
  entries : tableEntry params after.flows =
    Function.update (tableEntry params before.flows) key result.1
  output : after.outputData = replied params packetIndex key before.outputData result.2
  response : ∀ reply id, result.2 = some reply → reply.response = some id → id < responseCount

section Flags

theorem flag_eq_zero (flags mask : UInt8) :
    flags.toUInt32 &&& mask.toUInt32 = 0 ↔ flags &&& mask = 0 := by
  rw [← UInt8.toUInt32_and, ← UInt32.toNat_inj, ← UInt8.toNat_inj, UInt8.toNat_toUInt32]
  rfl

end Flags

section Steps

variable {params : EngineParams} {packetIndex : UInt32} {segment : Segment} {tcp : TcpPacketView}
variable {storage : Storage}

/-- An emission to the sender of a segment is the reply with the same fields. -/
theorem reply_outputData (hsegment : segment.Of tcp) (answer : Reply)
    {seq ack flags responseId : UInt32} (hseq : seq = answer.seq) (hack : ack = answer.ack)
    (hflags : flags = answer.flags.toUInt32)
    (hresponse : responseId = answer.response.getD invalidIndex) :
    reply params packetIndex segment storage seq ack flags responseId =
      { storage with
        outputData := replied params packetIndex tcp.key storage.outputData (some answer) } := by
  rw [reply, replied, hsegment.srcIp, hsegment.dstIp, hsegment.srcPort, hsegment.dstPort, hseq,
    hack, hflags, hresponse]

/-- The SYN branch answers from the slot. -/
theorem answerOpening_eq (hsegment : segment.Of tcp) {base : UInt32}
    (hstate : Settled (storage.flows base)) :
    answerOpening params packetIndex segment storage base =
      { storage with
        outputData := replied params packetIndex tcp.key storage.outputData
          (some (openingReply (slotFlow (storage.flows base)))) } := by
  unfold answerOpening
  rcases hstate with hstate | hstate
  · have hflow : (slotFlow (storage.flows base)).state = .synReceived := if_pos hstate
    simp only
    rw [if_pos hstate]
    apply reply_outputData hsegment <;> rw [openingReply, hflow] <;> rfl
  · have hother : stateEstablished ≠ stateSynReceived := by decide
    have hflow : (slotFlow (storage.flows base)).state = .established :=
      if_neg (by rw [hstate]; exact hother)
    simp only
    rw [if_neg (by rw [hstate]; exact hother), if_pos hstate]
    apply reply_outputData hsegment <;> rw [openingReply, hflow] <;> rfl

/-- Writing a slot that only remembers responses of the table. -/
theorem KnownResponses.update {flows : Flows} (h : KnownResponses flows) {base : UInt32}
    {slot : FlowSlot}
    (hslot : slot.lastResponseLen ≠ 0 → slot.lastResponseId < responseCount) :
    KnownResponses (Function.update flows base slot) := by
  intro i hi
  by_cases hbase : i = base
  · subst hbase
    rw [Function.update_self] at hi ⊢
    exact hslot hi
  · rw [Function.update_of_ne hbase] at hi ⊢
    exact h i hi

/-- What a slot becomes: the slot of the next record of its flow, or a tombstone. -/
structure SlotAfter (before after : FlowSlot) (entry : Option Flow) : Prop where
  slotKey : slotKey after = slotKey before
  keyHash : after.keyHash = before.keyHash
  state :
    match entry with
    | none => after.state = stateTombstone
    | some flow => Settled after ∧ slotFlow after = flow

/-- The slot only remembers a response of the table. -/
def KnownResponse (slot : FlowSlot) : Prop :=
  slot.lastResponseLen ≠ 0 → slot.lastResponseId < responseCount

/-- What an invocation did: the given step of the flow in one slot, whatever the
other slots hold. -/
structure SlotStep (params : EngineParams) (packetIndex : UInt32) (key : FlowKey)
    (base : UInt32) (before after : Storage) (result : Option Flow × Option Reply) : Prop where
  slot : ∃ slot, after.flows = Function.update before.flows base slot ∧
    SlotAfter (before.flows base) slot result.1
  output : after.outputData = replied params packetIndex key before.outputData result.2
  known : KnownResponse (before.flows base) → KnownResponse (after.flows base) ∧
    ∀ reply id, result.2 = some reply → reply.response = some id → id < responseCount

section SlotStep

variable {flows : Flows} {output : Words} {base : UInt32} {key : FlowKey}

/-- An invocation that only answers. -/
theorem SlotStep.keep (hstate : Settled (flows base)) {flow : Flow}
    (hflow : slotFlow (flows base) = flow) (answer : Option Reply)
    (hresponse : KnownResponse (flows base) →
      ∀ reply id, answer = some reply → reply.response = some id → id < responseCount) :
    SlotStep params packetIndex key base ⟨output, flows⟩
      ⟨replied params packetIndex key output answer, flows⟩ (some flow, answer) where
  slot := ⟨flows base, (Function.update_eq_self base flows).symm, rfl, rfl, hstate, hflow⟩
  output := rfl
  known := fun hknown => ⟨hknown, hresponse hknown⟩

/-- An invocation that answers and releases the slot. -/
theorem SlotStep.release (answer : Option Reply)
    (hresponse : ∀ reply id, answer = some reply → reply.response = some id → id < responseCount) :
    SlotStep params packetIndex key base ⟨output, flows⟩
      ⟨replied params packetIndex key output answer, flowRelease flows base⟩ (none, answer) where
  slot := ⟨_, rfl, rfl, rfl, rfl⟩
  output := rfl
  known := by
    intro hknown
    refine ⟨?_, hresponse⟩
    show KnownResponse (flowRelease flows base base)
    rw [flowRelease, Function.update_self]
    exact hknown

/-- An invocation that emits an answer and keeps the slot. -/
theorem SlotStep.answered (hsegment : segment.Of tcp) (hstate : Settled (flows base))
    {flow : Flow} (hflow : slotFlow (flows base) = flow) (answer : Reply)
    {seq ack flags responseId : UInt32} (hseq : seq = answer.seq) (hack : ack = answer.ack)
    (hflags : flags = answer.flags.toUInt32) (hid : responseId = answer.response.getD invalidIndex)
    (hresponse : KnownResponse (flows base) →
      ∀ id, answer.response = some id → id < responseCount) :
    SlotStep params packetIndex tcp.key base ⟨output, flows⟩
      (reply params packetIndex segment ⟨output, flows⟩ seq ack flags responseId)
      (some flow, some answer) := by
  rw [reply_outputData hsegment answer hseq hack hflags hid]
  refine SlotStep.keep hstate hflow (some answer) ?_
  intro hknown reply id hreply
  cases hreply
  exact hresponse hknown id

/-- An invocation that emits an answer and releases the slot. -/
theorem SlotStep.answeredRelease (hsegment : segment.Of tcp) (answer : Reply)
    {seq ack flags responseId : UInt32} (hseq : seq = answer.seq) (hack : ack = answer.ack)
    (hflags : flags = answer.flags.toUInt32) (hid : responseId = answer.response.getD invalidIndex)
    (hresponse : ∀ id, answer.response = some id → id < responseCount) :
    SlotStep params packetIndex tcp.key base ⟨output, flows⟩
      { reply params packetIndex segment ⟨output, flows⟩ seq ack flags responseId with
        flows := flowRelease
          (reply params packetIndex segment ⟨output, flows⟩ seq ack flags responseId).flows base }
      (none, some answer) := by
  rw [reply_outputData hsegment answer hseq hack hflags hid]
  refine SlotStep.release (some answer) ?_
  intro reply id hreply
  cases hreply
  exact hresponse id

/-- What an invocation does after it rewrote the slot, it does from the start. -/
theorem SlotStep.rewritten (flows : Flows) (base : UInt32) (slot : FlowSlot)
    (hkey : slotKey slot = slotKey (flows base)) (hhash : slot.keyHash = (flows base).keyHash)
    (hknown : KnownResponse (flows base) → KnownResponse slot)
    {after : Storage} {result : Option Flow × Option Reply}
    (hafter : SlotStep params packetIndex key base ⟨output, Function.update flows base slot⟩ after
      result) :
    SlotStep params packetIndex key base ⟨output, flows⟩ after result := by
  obtain ⟨⟨last, hflows, hlast⟩, houtput, hresponse⟩ := hafter
  simp only [Function.update_self, Function.update_idem] at hflows hlast hresponse
  exact ⟨⟨last, hflows, hlast.slotKey.trans hkey, hlast.keyHash.trans hhash, hlast.state⟩, houtput,
    fun hbefore => hresponse (hknown hbefore)⟩

end SlotStep

/-- The slot of a key in a table that satisfies the invariants. -/
structure LiveAt (params : EngineParams) (key : FlowKey) (flows : Flows) (base : UInt32) :
    Prop where
  invariant : TableInvariant params flows
  known : KnownResponses flows
  live : cells flows base = .live key

section LiveAt

variable {flows : Flows} {base : UInt32} {key : FlowKey}

theorem LiveAt.slotKey_eq (h : LiveAt params key flows base) : slotKey (flows base) = key :=
  (slotCell_eq_live.mp h.live).2

theorem LiveAt.keyHash_eq (h : LiveAt params key flows base) :
    (flows base).keyHash = keyHashOf key :=
  h.invariant.hashed base key h.live

theorem LiveAt.settled (h : LiveAt params key flows base) : Settled (flows base) :=
  h.invariant.settled_of_live h.live

theorem LiveAt.entry (h : LiveAt params key flows base)
    (hcapacity : params.flowCapacity.toNat.isPowerOfTwo) :
    tableEntry params flows key = some (slotFlow (flows base)) :=
  tableEntry_of_live h.invariant hcapacity h.live

/-- An invocation that leaves a slot of its flow behind is one step of the flow
of the key. -/
theorem LiveAt.stepResult {before after : Storage} {result : Option Flow × Option Reply}
    (h : LiveAt params key before.flows base)
    (hcapacity : params.flowCapacity.toNat.isPowerOfTwo)
    (hstep : SlotStep params packetIndex key base before after result) :
    StepResult params packetIndex key before after result := by
  obtain ⟨slot, hflows, hafter⟩ := hstep.slot
  obtain ⟨hknown, hresponse⟩ := hstep.known (h.known base)
  rw [hflows, Function.update_self] at hknown
  have hentries : TableInvariant params after.flows ∧ tableEntry params after.flows =
      Function.update (tableEntry params before.flows) key result.1 := by
    rw [hflows]
    have hkey := hafter.slotKey.trans h.slotKey_eq
    have hhash := hafter.keyHash.trans h.keyHash_eq
    have hstate := hafter.state
    cases hresult : result.1 with
    | none =>
        rw [hresult] at hstate
        exact release_live h.invariant hcapacity h.live hkey hhash hstate
    | some flow =>
        rw [hresult] at hstate
        rw [← hstate.2]
        exact rewrite_live h.invariant hcapacity h.live hkey hhash hstate.1
  exact ⟨hentries.1, by rw [hflows]; exact h.known.update hknown, hentries.2, hstep.output,
    hresponse⟩

end LiveAt

/-- The entry of a key that has no live slot. -/
theorem update_none_self {flows : Flows} (inv : TableInvariant params flows) {key : FlowKey}
    (habsent : ∀ i, cells flows i ≠ .live key) :
    Function.update (tableEntry params flows) key none = tableEntry params flows := by
  rw [← tableEntry_of_absent inv habsent, Function.update_eq_self]

theorem openingReply_response (flow : Flow) : (openingReply flow).response = none := by
  unfold openingReply
  cases flow.state <;> rfl

/-- The SYN branch is one step of the flow of the packet's key. -/
theorem openingBranch_result (storage : Storage) (inv : TableInvariant params storage.flows)
    (hknown : KnownResponses storage.flows)
    (hcapacity : params.flowCapacity.toNat.isPowerOfTwo) (hsegment : segment.Of tcp)
    (hopen : IsOpening tcp) :
    StepResult params packetIndex tcp.key storage
      (openingBranch params packetIndex segment storage (keyHashOf tcp.key) (portsOf tcp.key))
      (shaderFlowStep (vacancy (cells storage.flows) (probePath params tcp.key)
        (probeLimit params).toNat 0).isSome tcp.key (tableEntry params storage.flows tcp.key)
        tcp) := by
  have hfind : flowFind params storage.flows (keyHashOf tcp.key) segment.srcIp segment.dstIp
      (portsOf tcp.key) = findKey params storage.flows tcp.key := by
    rw [hsegment.srcIp, hsegment.dstIp]
    rfl
  have hclaim : flowClaim params storage.flows (keyHashOf tcp.key) segment.srcIp segment.dstIp
      (portsOf tcp.key) = claimKey params storage.flows tcp.key := by
    rw [hsegment.srcIp, hsegment.dstIp]
    rfl
  have hanswer (flow : Flow) (reply : Reply) (id : UInt32)
      (hreply : some (openingReply flow) = some reply) (hid : reply.response = some id) :
      id < responseCount := by
    cases hreply
    rw [openingReply_response] at hid
    cases hid
  unfold openingBranch shaderFlowStep
  rw [if_pos hopen, hfind, hclaim, claimKey_eq]
  simp only
  by_cases hmissed : findKey params storage.flows tcp.key = invalidIndex
  · have habsent := absent_of_findKey inv hcapacity hmissed
    rw [if_pos hmissed, tableEntry_of_absent inv habsent]
    simp only
    cases hvacancy : vacancy (cells storage.flows) (probePath params tcp.key)
        (probeLimit params).toNat 0 with
    | none =>
        simp only [if_true, Option.isSome_none, Bool.false_eq_true, if_false]
        exact ⟨inv, hknown, (update_none_self inv habsent).symm, rfl, fun _ _ h => by cases h⟩
    | some base =>
        obtain ⟨p, -, -, hpath, -⟩ := vacancy_eq_some hvacancy
        have hvalid : base ≠ invalidIndex := by
          rw [← hpath]
          exact ne_invalidIndex (probeSlot_lt hcapacity _ _)
        simp only [Option.isSome_some, if_true, Function.update_self, Function.update_idem,
          if_neg hvalid]
        -- the record that the SYN publishes
        let opened : FlowSlot :=
          { claimedSlot tcp.key with
            recvNext := segment.seq + 1
            sendNext := (keyHashOf tcp.key ^^^ 0xa5a55a5a) + 1
            sendUnacked := keyHashOf tcp.key ^^^ 0xa5a55a5a
            lastResponseLen := 0
            state := stateSynReceived }
        have hstate : Settled opened := Or.inl rfl
        have hflow : slotFlow opened = openedFlow tcp.key tcp.seq := by
          rw [openedFlow, ← hsegment.seq]
          rfl
        obtain ⟨invariant, hentries⟩ := publish_claimed inv hcapacity habsent hvacancy
          ((slotKey_eq_iff opened tcp.key).mpr ⟨rfl, rfl, rfl⟩) rfl hstate
        show StepResult params packetIndex tcp.key storage (answerOpening params packetIndex segment
          ⟨storage.outputData, Function.update storage.flows base opened⟩ base) _
        rw [answerOpening_eq hsegment (by simpa only [Function.update_self] using hstate)]
        simp only [Function.update_self]
        rw [← hflow]
        exact ⟨invariant, hknown.update (fun h => absurd rfl h), hentries, rfl, hanswer _⟩
  · have hlive : LiveAt params tcp.key storage.flows (findKey params storage.flows tcp.key) :=
      ⟨inv, hknown, live_of_findKey inv hmissed⟩
    rw [if_neg hmissed, hlive.entry hcapacity, answerOpening_eq hsegment hlive.settled]
    exact hlive.stepResult hcapacity
      (SlotStep.keep hlive.settled rfl _ (fun _ => hanswer _))

/-- The payload of a segment, as the shader reads it. -/
structure Segment.Carries (segment : Segment) (inputWords : Words) (inputBase : UInt32)
    (tcp : TcpPacketView) : Prop where
  reads : ReadsAt inputWords inputBase segment.payloadOffset tcp.payload
  size : tcp.payload.length < 2 ^ 16

theorem responseLength_eq {responseId : UInt32} (hid : responseId < responseCount) :
    responseLength responseId = UInt32.ofNat (packetResponse responseId).length := by
  have hspec := responseTables_spec responseId.toNat (UInt32.lt_iff_toNat_lt.mp hid)
  rw [UInt32.ofNat_toNat] at hspec
  rw [← hspec.1, UInt32.ofNat_toNat]

theorem responseLength_ne_zero {responseId : UInt32} (hid : responseId < responseCount) :
    responseLength responseId ≠ 0 := by
  have hspec := responseTables_spec responseId.toNat (UInt32.lt_iff_toNat_lt.mp hid)
  have hpos := packetResponse_pos responseId
  rw [UInt32.ofNat_toNat] at hspec
  rw [← hspec.1] at hpos
  intro h
  rw [h] at hpos
  exact absurd hpos (by decide)

/-- The ids of the classifier are ids of the response table. -/
theorem classify_lt_responseCount (payload : List UInt8) :
    classifyHttpRequest payload < responseCount :=
  UInt32.lt_iff_toNat_lt.mpr (classifyHttpRequest_lt payload)

section Segments

variable {inputWords : Words} {inputBase base : UInt32} {flows : Flows} {output : Words}

theorem Segment.Of.fin_iff (hsegment : segment.Of tcp) :
    segment.flags &&& tcpFin = 0 ↔ tcp.flags &&& Packet.tcpFin = 0 := by
  rw [hsegment.flags]
  exact flag_eq_zero tcp.flags Packet.tcpFin

theorem Segment.Of.ack_iff (hsegment : segment.Of tcp) :
    segment.flags &&& tcpAck = 0 ↔ tcp.flags &&& Packet.tcpAck = 0 := by
  rw [hsegment.flags]
  exact flag_eq_zero tcp.flags Packet.tcpAck

theorem Segment.Of.syn_iff (hsegment : segment.Of tcp) :
    segment.flags &&& tcpSyn = 0 ↔ tcp.flags &&& Packet.tcpSyn = 0 := by
  rw [hsegment.flags]
  exact flag_eq_zero tcp.flags Packet.tcpSyn

theorem Segment.Of.rst_iff (hsegment : segment.Of tcp) :
    segment.flags &&& tcpRst = 0 ↔ tcp.flags &&& Packet.tcpRst = 0 := by
  rw [hsegment.flags]
  exact flag_eq_zero tcp.flags Packet.tcpRst

theorem Segment.Of.payloadLen_eq (hsegment : segment.Of tcp) :
    segment.payloadLen = UInt32.ofNat tcp.payload.length := by
  rw [← hsegment.payloadLen, UInt32.ofNat_toNat]

theorem Segment.Of.payload_eq_nil (hsegment : segment.Of tcp) :
    segment.payloadLen = 0 ↔ tcp.payload = [] := by
  rw [← UInt32.toNat_inj, hsegment.payloadLen]
  exact List.length_eq_zero_iff

theorem Segment.Of.nextAck_eq (hsegment : segment.Of tcp) :
    (segment.seq + segment.payloadLen + if segment.flags &&& tcpFin ≠ 0 then 1 else 0) =
      nextAck tcp := by
  rw [hsegment.seq, hsegment.payloadLen_eq, nextAck]
  simp only [ne_eq, hsegment.fin_iff]

/-- A data segment in order is answered and remembered. -/
theorem dataSegment_slot (hstate : Settled (flows base)) (hsegment : segment.Of tcp)
    (hcarries : segment.Carries inputWords inputBase tcp) :
    SlotStep params packetIndex tcp.key base ⟨output, flows⟩
      (dataSegment params packetIndex segment ⟨output, flows⟩ inputWords inputBase base)
      (if tcp.flags &&& Packet.tcpFin ≠ 0 then none
        else some (answeredFlow (slotFlow (flows base)) tcp),
        some (answer (slotFlow (flows base)) tcp)) := by
  have hid := classify_lt_responseCount tcp.payload
  have hanswer (id : UInt32)
      (hresponse : (answer (slotFlow (flows base)) tcp).response = some id) :
      id < responseCount := by
    cases hresponse
    exact hid
  unfold dataSegment
  simp only [classifyRequest_eq hcarries.reads hcarries.size hsegment.payloadLen,
    hsegment.nextAck_eq]
  let answered : FlowSlot :=
    { flows base with
      recvNext := nextAck tcp
      sendNext := (flows base).sendNext + responseLength (classifyHttpRequest tcp.payload)
      lastClientSeq := segment.seq
      lastClientLen := segment.payloadLen
      lastResponseSeq := (flows base).sendNext
      lastResponseAck := nextAck tcp
      lastResponseId := classifyHttpRequest tcp.payload
      lastResponseLen := responseLength (classifyHttpRequest tcp.payload) }
  have hflow : slotFlow answered = answeredFlow (slotFlow (flows base)) tcp := by
    have hne := responseLength_ne_zero hid
    rw [responseLength_eq hid] at hne
    unfold slotFlow answeredFlow
    simp only [answered, responseLength_eq hid, if_neg hne, hsegment.seq, hsegment.payloadLen]
  refine SlotStep.rewritten flows base answered rfl rfl (fun _ _ => hid) ?_
  have hself : Function.update flows base answered base = answered := Function.update_self _ _ _
  rw [if_congr hsegment.fin_iff.not rfl rfl]
  by_cases hfin : tcp.flags &&& Packet.tcpFin ≠ 0
  · rw [if_pos hfin, if_pos hfin]
    exact SlotStep.answeredRelease hsegment (answer (slotFlow (flows base)) tcp) rfl rfl rfl rfl
      hanswer
  · rw [if_neg hfin, if_neg hfin]
    exact SlotStep.answered hsegment (by rw [hself]; exact hstate) (by rw [hself, hflow])
      (answer (slotFlow (flows base)) tcp) rfl rfl rfl rfl (fun _ => hanswer)

/-- The slot after the acknowledgement of a segment is noted. -/
def notedSlot (slot : FlowSlot) (segment : Segment) : FlowSlot :=
  if segment.flags &&& tcpAck ≠ 0 ∧ segment.ack = slot.sendNext then
    { slot with sendUnacked := segment.ack }
  else slot

theorem slotFlow_notedSlot (hsegment : segment.Of tcp) (slot : FlowSlot) :
    slotFlow (notedSlot slot segment) = noteAck (slotFlow slot) tcp := by
  unfold notedSlot noteAck
  simp only [ne_eq, hsegment.ack_iff, hsegment.ack]
  by_cases hack : ¬ tcp.flags &&& Packet.tcpAck = 0 ∧ tcp.ack = slot.sendNext
  · rw [if_pos hack]
    exact (if_pos hack).symm
  · rw [if_neg hack]
    exact (if_neg hack).symm

/-- The answer to a segment out of order. -/
theorem outOfOrder_slot (hstate : Settled (flows base)) (hsegment : segment.Of tcp) :
    SlotStep params packetIndex tcp.key base ⟨output, flows⟩
      (if segment.seq = (flows base).lastClientSeq ∧
          segment.payloadLen = (flows base).lastClientLen ∧ (flows base).lastResponseLen > 0 then
        reply params packetIndex segment ⟨output, flows⟩ (flows base).lastResponseSeq
          (flows base).lastResponseAck (tcpAck ||| tcpPsh) (flows base).lastResponseId
      else
        reply params packetIndex segment ⟨output, flows⟩ (flows base).sendNext (flows base).recvNext
          tcpAck invalidIndex)
      (some (slotFlow (flows base)), some (outOfOrderReply (slotFlow (flows base)) tcp)) := by
  have hplain (hreply : outOfOrderReply (slotFlow (flows base)) tcp =
      { seq := (flows base).sendNext, ack := (flows base).recvNext, flags := Packet.tcpAck,
        response := none }) :
      SlotStep params packetIndex tcp.key base ⟨output, flows⟩
        (reply params packetIndex segment ⟨output, flows⟩ (flows base).sendNext
          (flows base).recvNext tcpAck invalidIndex)
        (some (slotFlow (flows base)), some (outOfOrderReply (slotFlow (flows base)) tcp)) := by
    rw [hreply]
    exact SlotStep.answered hsegment hstate rfl _ rfl rfl rfl rfl (fun _ _ hid => by cases hid)
  by_cases hlen : (flows base).lastResponseLen = 0
  · have hlast : (slotFlow (flows base)).lastResponse = none := if_pos hlen
    rw [if_neg (fun hrepeat => absurd hrepeat.2.2 (by rw [hlen]; decide))]
    exact hplain (by rw [outOfOrderReply, hlast]; rfl)
  have hpos : (flows base).lastResponseLen > 0 := UInt32.pos_iff_ne_zero.mpr hlen
  have hlast : (slotFlow (flows base)).lastResponse = some _ := if_neg hlen
  have hrepeats : (segment.seq = (flows base).lastClientSeq ∧
      segment.payloadLen = (flows base).lastClientLen ∧ (flows base).lastResponseLen > 0) ↔
      (tcp.seq = (flows base).lastClientSeq ∧
        tcp.payload.length = (flows base).lastClientLen.toNat) := by
    rw [hsegment.seq, ← UInt32.toNat_inj (a := segment.payloadLen), hsegment.payloadLen]
    exact ⟨fun hrepeat => ⟨hrepeat.1, hrepeat.2.1⟩, fun hrepeat => ⟨hrepeat.1, hrepeat.2, hpos⟩⟩
  rw [if_congr hrepeats rfl rfl]
  by_cases hrepeat : tcp.seq = (flows base).lastClientSeq ∧
      tcp.payload.length = (flows base).lastClientLen.toNat
  · have hreply : outOfOrderReply (slotFlow (flows base)) tcp =
        { seq := (flows base).lastResponseSeq, ack := (flows base).lastResponseAck,
          flags := Packet.tcpAck ||| Packet.tcpPsh,
          response := some (flows base).lastResponseId } := by
      rw [outOfOrderReply, hlast]
      exact if_pos hrepeat
    rw [if_pos hrepeat, hreply]
    refine SlotStep.answered hsegment hstate rfl _ rfl rfl rfl rfl ?_
    intro hknown id hid
    cases hid
    exact hknown hlen
  · rw [if_neg hrepeat]
    refine hplain ?_
    rw [outOfOrderReply, hlast]
    exact if_neg hrepeat

/-- The sequence check and what stands behind it, for a slot that is
established. -/
theorem establishedSegment_slot (hsettled : Settled (flows base)) (hsegment : segment.Of tcp)
    (hcarries : segment.Carries inputWords inputBase tcp) {flow : Flow}
    (hflow : slotFlow (flows base) = flow) :
    SlotStep params packetIndex tcp.key base ⟨output, flows⟩
      (establishedSegment params packetIndex segment ⟨output, flows⟩ inputWords inputBase base)
      (establishedStep (noteAck flow tcp) tcp) := by
  subst hflow
  have hfields : slotKey (notedSlot (flows base) segment) = slotKey (flows base) ∧
      (notedSlot (flows base) segment).keyHash = (flows base).keyHash ∧
      (notedSlot (flows base) segment).state = (flows base).state ∧
      (notedSlot (flows base) segment).lastResponseLen = (flows base).lastResponseLen ∧
      (notedSlot (flows base) segment).lastResponseId = (flows base).lastResponseId := by
    unfold notedSlot
    split <;> exact ⟨rfl, rfl, rfl, rfl, rfl⟩
  obtain ⟨hkey, hhash, hstate, hlength, hid⟩ := hfields
  unfold establishedSegment
  rw [← slotFlow_notedSlot hsegment]
  simp only
  rw [show (if segment.flags &&& tcpAck ≠ 0 ∧ segment.ack = (flows base).sendNext then
      { flows base with sendUnacked := segment.ack } else flows base) =
    notedSlot (flows base) segment from rfl]
  have hsettled : Settled (notedSlot (flows base) segment) := by
    unfold Settled
    rw [hstate]
    exact hsettled
  refine SlotStep.rewritten flows base (notedSlot (flows base) segment) hkey hhash ?_ ?_
  · unfold KnownResponse
    rw [hlength, hid]
    exact id
  generalize notedSlot (flows base) segment = slot at hsettled ⊢
  have hslot : Function.update flows base slot base = slot := Function.update_self _ _ _
  generalize Function.update flows base slot = flows at hslot ⊢
  subst hslot
  unfold establishedStep
  rw [hsegment.seq]
  by_cases hseq : tcp.seq ≠ (flows base).recvNext
  · rw [if_pos hseq, if_pos (show tcp.seq ≠ (slotFlow (flows base)).recvNext from hseq)]
    rw [← hsegment.seq]
    exact outOfOrder_slot hsettled hsegment
  rw [if_neg hseq, if_neg (show ¬ tcp.seq ≠ (slotFlow (flows base)).recvNext from hseq)]
  rw [if_congr hsegment.payload_eq_nil rfl rfl]
  by_cases hempty : tcp.payload = []
  · rw [if_pos hempty, if_pos hempty, if_congr hsegment.fin_iff rfl rfl]
    by_cases hfin : tcp.flags &&& Packet.tcpFin = 0
    · rw [if_pos hfin, if_pos hfin]
      exact SlotStep.keep hsettled rfl none (fun _ _ _ h => by cases h)
    · rw [if_neg hfin, if_neg hfin]
      exact SlotStep.answeredRelease hsegment _ rfl rfl rfl rfl (fun _ hid => by cases hid)
  · rw [if_neg hempty, if_neg hempty]
    exact dataSegment_slot hsettled hsegment hcarries

theorem Segment.Of.flowFind_eq (hsegment : segment.Of tcp) (flows : Flows) :
    flowFind params flows (keyHashOf tcp.key) segment.srcIp segment.dstIp (portsOf tcp.key) =
      findKey params flows tcp.key := by
  rw [hsegment.srcIp, hsegment.dstIp]
  rfl

/-- Behind the SYN branch an invocation is one step of the flow in the slot that
`flow_find` returns. -/
theorem segmentBranch_slot (hsettled : Settled (flows base)) (hsegment : segment.Of tcp)
    (hcarries : segment.Carries inputWords inputBase tcp)
    (hfind : findKey params flows tcp.key = base) (hbase : base ≠ invalidIndex) :
    SlotStep params packetIndex tcp.key base ⟨output, flows⟩
      (segmentBranch params packetIndex segment ⟨output, flows⟩ inputWords inputBase
        (keyHashOf tcp.key) (portsOf tcp.key))
      (if IsReset tcp then (none, none) else segmentStep (slotFlow (flows base)) tcp) := by
  unfold segmentBranch
  simp only [hsegment.flowFind_eq, hfind]
  rw [if_neg hbase]
  have hreset : segment.flags &&& tcpRst ≠ 0 ↔ IsReset tcp := not_congr hsegment.rst_iff
  simp only [if_congr hreset rfl rfl]
  by_cases hrst : IsReset tcp
  · rw [if_pos hrst, if_pos hrst]
    exact SlotStep.release none (fun _ _ h => by cases h)
  rw [if_neg hrst, if_neg hrst]
  unfold segmentStep
  rcases hsettled with hstate | hstate
  · have hflow : (slotFlow (flows base)).state = .synReceived := if_pos hstate
    rw [if_pos hstate, hflow]
    simp only
    by_cases hdone : CompletesHandshake (slotFlow (flows base)) tcp
    · have hpass : ¬ (segment.flags &&& tcpAck = 0 ∨ segment.ack ≠ (flows base).sendNext ∨
          segment.seq ≠ (flows base).recvNext) := by
        rw [hsegment.ack_iff, hsegment.ack, hsegment.seq]
        rintro (hack | hack | hseq)
        · exact hdone.1 hack
        · exact hack hdone.2.1
        · exact hseq hdone.2.2
      rw [if_neg hpass, if_pos hdone]
      let established : FlowSlot :=
        { flows base with state := stateEstablished, sendUnacked := segment.ack }
      have hestablished : slotFlow established = establish (slotFlow (flows base)) tcp := by
        rw [establish, ← hsegment.ack]
        rfl
      refine SlotStep.rewritten flows base established rfl rfl id ?_
      exact establishedSegment_slot (by rw [Function.update_self]; exact Or.inr rfl) hsegment
        hcarries (by rw [Function.update_self, hestablished])
    · have hfail : segment.flags &&& tcpAck = 0 ∨ segment.ack ≠ (flows base).sendNext ∨
          segment.seq ≠ (flows base).recvNext := by
        rw [hsegment.ack_iff, hsegment.ack, hsegment.seq]
        by_contra hpass
        rw [not_or, not_or, not_not, not_not] at hpass
        exact hdone hpass
      rw [if_pos hfail, if_neg hdone]
      exact SlotStep.keep (Or.inl hstate) rfl none (fun _ _ _ h => by cases h)
  · have hother : (flows base).state ≠ stateSynReceived := by
      rw [hstate]
      decide
    have hflow : (slotFlow (flows base)).state = .established := if_neg hother
    rw [if_neg hother, if_neg (not_not.mpr hstate), hflow]
    exact establishedSegment_slot (Or.inr hstate) hsegment hcarries rfl

/-- Behind the SYN branch an invocation is one step of the flow of the packet's
key. -/
theorem segmentBranch_result (storage : Storage) (inv : TableInvariant params storage.flows)
    (hknown : KnownResponses storage.flows)
    (hcapacity : params.flowCapacity.toNat.isPowerOfTwo) (hsegment : segment.Of tcp)
    (hcarries : segment.Carries inputWords inputBase tcp) (hopen : ¬ IsOpening tcp) (room : Bool) :
    StepResult params packetIndex tcp.key storage
      (segmentBranch params packetIndex segment storage inputWords inputBase (keyHashOf tcp.key)
        (portsOf tcp.key))
      (shaderFlowStep room tcp.key (tableEntry params storage.flows tcp.key) tcp) := by
  by_cases hmissed : findKey params storage.flows tcp.key = invalidIndex
  · have habsent := absent_of_findKey inv hcapacity hmissed
    unfold segmentBranch
    rw [hsegment.flowFind_eq, if_pos hmissed, tableEntry_of_absent inv habsent,
      shaderFlowStep_absent _ _ hopen]
    exact ⟨inv, hknown, (update_none_self inv habsent).symm, rfl, fun _ _ h => by cases h⟩
  · have hlive : LiveAt params tcp.key storage.flows (findKey params storage.flows tcp.key) :=
      ⟨inv, hknown, live_of_findKey inv hmissed⟩
    rw [hlive.entry hcapacity]
    unfold shaderFlowStep
    rw [if_neg hopen]
    exact hlive.stepResult hcapacity
      (segmentBranch_slot hlive.settled hsegment hcarries rfl hmissed)

end Segments

end Steps

theorem emptyFlows_known : KnownResponses emptyFlows :=
  fun _ h => absurd rfl h

/-- The inputs present a packet to an invocation. -/
structure Presented (params : EngineParams) (inputMeta : UInt32 → PacketMeta)
    (inputWords : Words) (packetIndex : UInt32) (packet : RawPacket) : Prop where
  index_lt : packetIndex < params.packetCount
  len : (inputMeta packetIndex).len.toNat = packet.bytes.length
  holds : Holds inputWords (inputMeta packetIndex).wordOffset packet.bytes

/-- The output buffer after the length word of an invocation is cleared. -/
def cleared (packetIndex : UInt32) (output : Words) : Words :=
  Function.update output packetIndex 0

/-- What the shader reads from a packet is its view. -/
theorem segmentOf_view {bytes : List UInt8} (h : IsIpv4Tcp bytes)
    (hsize : bytes.length ≤ maxRawPacketBytes) : (segmentOf bytes).Of (viewOf bytes) where
  srcIp := rfl
  dstIp := rfl
  srcPort := rfl
  dstPort := rfl
  seq := rfl
  ack := rfl
  flags := rfl
  payloadLen := by
    have hmax := h.total_max
    unfold maxRawPacketBytes at hsize
    rw [payload_length bytes h, segmentOf, UInt32.toNat_ofNat', Nat.mod_eq_of_lt (by omega)]

section Main

variable {params : EngineParams} {inputMeta : UInt32 → PacketMeta} {inputWords : Words}
variable {packetIndex : UInt32} {packet : RawPacket}

/-- An invocation only clears its length word for a packet that is not TCP for
the listening port. -/
theorem main_ignored (h : Presented params inputMeta inputWords packetIndex packet)
    (hview : ∀ tcp, parsed packet = some tcp → tcp.key.dstPort.toUInt32 ≠ params.listenPort)
    (storage : Storage) :
    main params inputMeta inputWords packetIndex storage =
      ⟨cleared packetIndex storage.outputData, storage.flows⟩ := by
  have haccept := acceptPacket_eq h.holds packet.length_le h.len params
  rw [if_neg (fun hp => hview _ (parsed_eq_some.mpr ⟨hp.1, rfl⟩) hp.2)] at haccept
  unfold main
  rw [if_neg (UInt32.not_le.mpr h.index_lt)]
  simp only [haccept]
  rfl

/-- An invocation for a packet to the listening port clears its length word and
enters one of the two branches with the segment of the packet. -/
theorem main_listened (h : Presented params inputMeta inputWords packetIndex packet)
    {tcp : TcpPacketView} (hview : parsed packet = some tcp)
    (hport : tcp.key.dstPort.toUInt32 = params.listenPort) (storage : Storage) :
    ∃ segment : Segment, segment.Of tcp ∧
      segment.Carries inputWords (inputMeta packetIndex).wordOffset tcp ∧
      main params inputMeta inputWords packetIndex storage =
        if IsOpening tcp then
          openingBranch params packetIndex segment
            ⟨cleared packetIndex storage.outputData, storage.flows⟩ (keyHashOf tcp.key)
            (portsOf tcp.key)
        else
          segmentBranch params packetIndex segment
            ⟨cleared packetIndex storage.outputData, storage.flows⟩ inputWords
            (inputMeta packetIndex).wordOffset (keyHashOf tcp.key) (portsOf tcp.key) := by
  obtain ⟨hp, rfl⟩ := parsed_eq_some.mp hview
  have hsegment := segmentOf_view hp packet.length_le
  have hcarries : (segmentOf packet.bytes).Carries inputWords
      (inputMeta packetIndex).wordOffset (viewOf packet.bytes) :=
    { reads := readsAt_payload h.holds hp packet.length_le
      size := by
        have hmax := hp.total_max
        have hsize := packet.length_le
        unfold maxRawPacketBytes at hsize
        rw [payload_length packet.bytes hp]
        omega }
  have haccept := acceptPacket_eq h.holds packet.length_le h.len params
  rw [if_pos ⟨hp, hport⟩] at haccept
  have hopen : ((segmentOf packet.bytes).flags &&& tcpSyn ≠ 0 ∧
      (segmentOf packet.bytes).flags &&& tcpAck = 0) ↔ IsOpening (viewOf packet.bytes) :=
    and_congr (not_congr hsegment.syn_iff) hsegment.ack_iff
  refine ⟨segmentOf packet.bytes, hsegment, hcarries, ?_⟩
  unfold main
  rw [if_neg (UInt32.not_le.mpr h.index_lt)]
  simp only [haccept, if_congr hopen rfl rfl]
  rfl

/-- An invocation for a packet to the listening port is one step of the flow of
the packet's key. -/
theorem main_step (h : Presented params inputMeta inputWords packetIndex packet)
    {tcp : TcpPacketView} (hview : parsed packet = some tcp)
    (hport : tcp.key.dstPort.toUInt32 = params.listenPort)
    (hcapacity : params.flowCapacity.toNat.isPowerOfTwo) (storage : Storage)
    (inv : TableInvariant params storage.flows) (hknown : KnownResponses storage.flows) :
    StepResult params packetIndex tcp.key
      ⟨cleared packetIndex storage.outputData, storage.flows⟩
      (main params inputMeta inputWords packetIndex storage)
      (shaderFlowStep (vacancy (cells storage.flows) (probePath params tcp.key)
        (probeLimit params).toNat 0).isSome tcp.key (tableEntry params storage.flows tcp.key)
        tcp) := by
  obtain ⟨segment, hsegment, hcarries, hmain⟩ := main_listened h hview hport storage
  rw [hmain]
  by_cases hopening : IsOpening tcp
  · rw [if_pos hopening]
    exact openingBranch_result ⟨cleared packetIndex storage.outputData, storage.flows⟩ inv hknown
      hcapacity hsegment hopening
  · rw [if_neg hopening]
    exact segmentBranch_result ⟨cleared packetIndex storage.outputData, storage.flows⟩ inv hknown
      hcapacity hsegment hcarries hopening _

end Main

/-- The shader follows the rules of a segment. -/
theorem shaderFlowStep_rule (room : Bool) (key : FlowKey) (entry : Option Flow)
    (tcp : TcpPacketView) :
    SegmentRule key entry tcp (shaderFlowStep room key entry tcp).1
      (shaderFlowStep room key entry tcp).2 := by
  by_cases hopen : IsOpening tcp
  · cases entry with
    | none =>
        rw [shaderFlowStep_open _ _ hopen]
        cases room with
        | false => exact .drop none tcp
        | true => exact .opened tcp hopen
    | some flow =>
        rw [shaderFlowStep_repeated _ _ _ hopen]
        exact .repeated flow tcp hopen
  · cases entry with
    | none =>
        rw [shaderFlowStep_absent _ _ hopen]
        exact .drop none tcp
    | some flow =>
        by_cases hreset : IsReset tcp
        · rw [shaderFlowStep_reset _ _ _ hopen hreset]
          exact .drop (some flow) tcp
        · rw [shaderFlowStep_segment _ _ _ hopen hreset]
          exact .segment flow tcp hopen

end Shader
end Packet
end Gput
