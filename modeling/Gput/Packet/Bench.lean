import Gput.Packet.PacketEngine
import Mathlib.Tactic.Simps.Basic

/-!
# The packet benchmark

`gput-packet-bench` drives an engine with synthetic clients: it opens all flows,
sends requests round by round and closes the flows, and checks every answer against
the sequence numbers it keeps for the flow.  Here are the program, and what one
segment of a client does to a flow that is in step with its cursor.
-/

namespace Gput
namespace Packet
namespace Bench

open ByteString

inductive BackendChoice where
  | cpu
  | gpu
  | both
deriving DecidableEq, Repr

structure Cli where
  backend : BackendChoice
  flows : Nat
  requestsPerFlow : Nat
  warmupRequestsPerFlow : Nat
  batchSize : Nat
  flowCapacity : Nat
  flowProbeLimit : Nat
  listenPort : UInt16
deriving DecidableEq, Repr

structure BenchSettings where
  flows : Nat
  requestsPerFlow : Nat
  warmupRequestsPerFlow : Nat
  listenPort : UInt16
deriving DecidableEq, Repr

structure FlowCursor where
  key : FlowKey
  clientNext : UInt32
  serverNext : UInt32
deriving DecidableEq, Repr

/-- `BenchResult`, without the adapter's name and the timings. -/
structure BenchResult where
  backend : List UInt8
  flows : Nat
  requests : Nat
  responseBytes : Nat
  metrics : PacketEngineMetrics
deriving DecidableEq, Repr

def serverIp : UInt32 := 0x0a4d0001

def defaultRequest : List UInt8 :=
  asciiLines ["GET /plaintext HTTP/1.1\r\n", "Host: packet-bench\r\n",
    "Connection: keep-alive\r\n", "\r\n"]

/-- `Vec::with_capacity`, for elements of the given size: it panics when the buffer
would take more than `isize::MAX` bytes. -/
def vecWithCapacity (elementBytes capacity : Nat) : Outcome PUnit :=
  if capacity * elementBytes ≤ 2 ^ 63 - 1 then .ok () else .panic

/-- One turn of the loop of `synthetic_flows`. -/
def syntheticFlow (listenPort : UInt16) (index : Nat) : Outcome FlowCursor := do
  Outcome.ensure (index / 60000 < 2 ^ 32) "flow address overflow"
  Outcome.ensure (index % 60000 < 2 ^ 16) "flow port overflow"
  return {
    key := {
      srcIp := 0x0a4d0002 + UInt32.ofNat (index / 60000)
      dstIp := serverIp
      srcPort := UInt16.ofNat (min (1024 + index % 60000) (2 ^ 16 - 1))
      dstPort := listenPort }
    clientNext := 1000000 + UInt32.ofNat index * 4096
    serverNext := 0 }

def syntheticFlows (count : Nat) (listenPort : UInt16) : Outcome (List FlowCursor) := do
  vecWithCapacity 20 count
  Outcome.collect ((List.range count).map (syntheticFlow listenPort))

def clientPacket (flow : FlowCursor) (flags : UInt8) (payload : List UInt8) : Outcome RawPacket :=
  buildIpv4TcpPacket
    { key := flow.key, seq := flow.clientNext, ack := flow.serverNext, flags := flags,
      payload := payload }

/-- A loop over the flows and the responses to them, with a count of bytes. -/
def forFlows (body : FlowCursor → Option RawPacket → Nat → Outcome (FlowCursor × Nat)) :
    List FlowCursor → List (Option RawPacket) → Nat → Outcome (List FlowCursor × Nat)
  | flow :: flows, response :: responses, bytes => do
      let (flow, bytes) ← body flow response bytes
      let (flows, bytes) ← forFlows body flows responses bytes
      return (flow :: flows, bytes)
  | flows, _, bytes => return (flows, bytes)

/-- The loop body of `establish_flows`. -/
def checkSynAck (flow : FlowCursor) (response : Option RawPacket) (bytes : Nat) :
    Outcome (FlowCursor × Nat) := do
  let response ← Outcome.context "SYN did not produce SYN-ACK" response
  validateIpv4TcpChecksums response
  let tcp ← parseIpv4Tcp response
  let tcp ← Outcome.context "SYN-ACK did not parse" tcp
  Outcome.ensure (tcp.flags = tcpSyn ||| tcpAck) "handshake response was not SYN-ACK"
  Outcome.ensure (tcp.ack = flow.clientNext + 1) "SYN-ACK acknowledged the wrong sequence"
  return ({ flow with clientNext := flow.clientNext + 1, serverNext := tcp.seq + 1 }, bytes)

/-- The loop body of `run_http_round`. -/
def checkResponse (name : List UInt8) (flow : FlowCursor) (response : Option RawPacket)
    (bytes : Nat) : Outcome (FlowCursor × Nat) := do
  let response ← Outcome.context "HTTP request produced no packet" response
  validateIpv4TcpChecksums response
  let tcp ← parseIpv4Tcp response
  let tcp ← Outcome.context "HTTP response did not parse" tcp
  Outcome.ensure (tcp.seq = flow.serverNext) "HTTP response sequence drifted"
  Outcome.ensure (tcp.ack = flow.clientNext + UInt32.ofNat defaultRequest.length)
    "HTTP response acknowledgement drifted"
  Outcome.ensure (ascii "HTTP/1.1 200 OK\r\n" <+: tcp.payload) "HTTP response status was not 200"
  Outcome.ensure (ascii "\r\n\r\nHello, World!\n" <:+ tcp.payload)
    "HTTP response body was not the plaintext benchmark body"
  Outcome.ensure ((windowPosition name tcp.payload).isSome)
    "HTTP response lied about packet backend"
  return ({ flow with
      clientNext := flow.clientNext + UInt32.ofNat defaultRequest.length
      serverNext := flow.serverNext + UInt32.ofNat tcp.payload.length },
    saturatingAdd bytes tcp.payload.length)

/-- The loop body of `close_flows`. -/
def checkFinAck (flow : FlowCursor) (response : Option RawPacket) (bytes : Nat) :
    Outcome (FlowCursor × Nat) := do
  let response ← Outcome.context "FIN produced no ACK" response
  let tcp ← parseIpv4Tcp response
  let tcp ← Outcome.context "FIN ACK did not parse" tcp
  Outcome.ensure (tcp.flags = tcpAck) "FIN response was not an ACK"
  Outcome.ensure (tcp.ack = flow.clientNext + 1) "FIN ACK used the wrong acknowledgement"
  return (flow, bytes)

section Program

variable {σ : Type} (engine : PacketEngine σ)

def establishFlows (flows : List FlowCursor) (state : σ) : Outcome (σ × List FlowCursor) := do
  let syns ← Outcome.collect (flows.map fun flow =>
    buildIpv4TcpPacket
      { key := flow.key, seq := flow.clientNext, ack := 0, flags := tcpSyn, payload := [] })
  let (state, synAcks) ← engine.processBatch syns state
  Outcome.ensure (synAcks.length = flows.length) "SYN output count mismatch"
  let (flows, _) ← forFlows checkSynAck flows synAcks 0
  let acknowledgements ← Outcome.collect (flows.map fun flow => clientPacket flow tcpAck [])
  let (state, output) ← engine.processBatch acknowledgements state
  Outcome.ensure (∀ packet ∈ output, packet = none) "handshake ACK emitted unexpected packets"
  return (state, flows)

def runHttpRound (flows : List FlowCursor) (responses : List (Option RawPacket)) (state : σ) :
    Outcome (σ × List FlowCursor × List (Option RawPacket) × Nat) := do
  let requests ← Outcome.collect (flows.map fun flow =>
    clientPacket flow (tcpAck ||| tcpPsh) defaultRequest)
  let (state, responses) ← engine.processBatchInto requests responses state
  Outcome.ensure (responses.length = flows.length) "HTTP output count mismatch"
  let (flows, bytes) ← forFlows (checkResponse engine.name) flows responses 0
  return (state, flows, responses, bytes)

/-- The rounds of `run_benchmark`, with the response bytes so far. -/
def runRounds : Nat → List FlowCursor → List (Option RawPacket) → Nat → σ →
    Outcome (σ × List FlowCursor × List (Option RawPacket) × Nat)
  | 0, flows, responses, bytes, state => return (state, flows, responses, bytes)
  | count + 1, flows, responses, bytes, state => do
      let (state, flows, responses, gained) ← runHttpRound engine flows responses state
      runRounds count flows responses (saturatingAdd bytes gained) state

def closeFlows (flows : List FlowCursor) (state : σ) : Outcome σ := do
  let fins ← Outcome.collect (flows.map fun flow => clientPacket flow (tcpAck ||| tcpFin) [])
  let (state, responses) ← engine.processBatch fins state
  Outcome.ensure (responses.length = flows.length) "FIN output count mismatch"
  let _ ← forFlows checkFinAck flows responses 0
  return state

def runBenchmark (settings : BenchSettings) (state : σ) : Outcome (σ × BenchResult) := do
  let flows ← syntheticFlows settings.flows settings.listenPort
  let (state, flows) ← establishFlows engine flows state
  vecWithCapacity 24 settings.flows
  let (state, flows, responses, _) ←
    runRounds engine settings.warmupRequestsPerFlow flows [] 0 state
  let metricsBefore := engine.metrics state
  vecWithCapacity 8 settings.requestsPerFlow
  let (state, flows, _, responseBytes) ←
    runRounds engine settings.requestsPerFlow flows responses 0 state
  let metrics := (engine.metrics state).saturatingSub metricsBefore
  let state ← closeFlows engine flows state
  Outcome.ensure (settings.flows * settings.requestsPerFlow < 2 ^ 64)
    "benchmark request count overflow"
  return (state, {
    backend := engine.name
    flows := settings.flows
    requests := settings.flows * settings.requestsPerFlow
    responseBytes := responseBytes
    metrics := metrics })

end Program

/-- The configuration of the engines. -/
def Cli.packetConfig (cli : Cli) : PacketEngineConfig where
  maxBatchSize := cli.batchSize
  flowCapacity := cli.flowCapacity
  flowProbeLimit := cli.flowProbeLimit
  listenPort := cli.listenPort

def Cli.settings (cli : Cli) : BenchSettings where
  flows := cli.flows
  requestsPerFlow := cli.requestsPerFlow
  warmupRequestsPerFlow := cli.warmupRequestsPerFlow
  listenPort := cli.listenPort

/-- The result of the CPU engine, when it is asked for. -/
def cpuResults (cli : Cli) : Outcome (List BenchResult) :=
  if cli.backend = .cpu ∨ cli.backend = .both then do
    validateConfig cli.packetConfig
    let (_, result) ← runBenchmark (cpuPacketEngine cli.packetConfig) cli.settings CpuState.new
    return [result]
  else return []

/-- The result of the GPU engine, when it is asked for; `limits` and `schedule` are
those of the adapter, `memory` is that of a new device. -/
def gpuResults (cli : Cli) (limits : Shader.AdapterLimits) (schedule : Shader.Schedule)
    (memory : Shader.EngineMemory) : Outcome (List BenchResult) :=
  if cli.backend = .gpu ∨ cli.backend = .both then do
    let engine ← Shader.GpuPacketEngine.new cli.packetConfig limits
    let (_, result) ← runBenchmark (gpuPacketEngine engine schedule) cli.settings
      (⟨[], [], [], [], FlowSet.default⟩, memory)
    return [result]
  else return []

/-- `main` up to the printing. -/
def main (cli : Cli) (limits : Shader.AdapterLimits) (schedule : Shader.Schedule)
    (memory : Shader.EngineMemory) : Outcome (List BenchResult) := do
  Outcome.ensure (cli.flows > 0) "--flows must be positive"
  Outcome.ensure (cli.requestsPerFlow > 0) "--requests-per-flow must be positive"
  Outcome.ensure (cli.batchSize > 0) "--batch-size must be positive"
  Outcome.ensure (cli.flows ≤ cli.flowCapacity) "--flow-capacity must be at least --flows"
  Outcome.ensure (cli.flows ≤ 1000000)
    "--flows is capped at one million to keep the synthetic address space sane"
  let cpu ← cpuResults cli
  let gpu ← gpuResults cli limits schedule memory
  return cpu ++ gpu

/-- What the parser makes of a built packet. -/
@[simps]
def specView (spec : TcpPacketSpec) : TcpPacketView where
  key := spec.key
  seq := spec.seq
  ack := spec.ack
  flags := spec.flags
  payload := spec.payload

/-- The engine's record of a flow is in step with the client's cursor. -/
def InStep (state : FlowState) (flow : FlowCursor) (entry : Option Flow) : Prop :=
  ∃ record, entry = some record ∧ record.state = state ∧ record.recvNext = flow.clientNext ∧
    record.sendNext = flow.serverNext

/-- The cursor behind the handshake. -/
@[simps]
def FlowCursor.opened (flow : FlowCursor) : FlowCursor where
  key := flow.key
  clientNext := flow.clientNext + 1
  serverNext := serverIsn flow.key + 1

/-- The cursor behind a round with the given response. -/
@[simps]
def FlowCursor.served (response : List UInt8) (flow : FlowCursor) : FlowCursor where
  key := flow.key
  clientNext := flow.clientNext + UInt32.ofNat defaultRequest.length
  serverNext := flow.serverNext + UInt32.ofNat response.length

/-- The SYN of a client. -/
@[simps]
def synSpec (flow : FlowCursor) : TcpPacketSpec where
  key := flow.key
  seq := flow.clientNext
  ack := 0
  flags := tcpSyn
  payload := []

/-- What a client sends behind its SYN. -/
@[simps]
def clientSpec (flags : UInt8) (payload : List UInt8) (flow : FlowCursor) : TcpPacketSpec where
  key := flow.key
  seq := flow.clientNext
  ack := flow.serverNext
  flags := flags
  payload := payload

section Steps

variable {flow : FlowCursor} {entry : Option Flow}

theorem opening_synSpec :
    IsOpening (specView (synSpec flow)) ∧ ¬ IsReset (specView (synSpec flow)) := by
  have hflags : (tcpSyn &&& tcpSyn ≠ 0 ∧ tcpSyn &&& tcpAck = 0) ∧ ¬ tcpSyn &&& tcpRst ≠ 0 := by
    decide
  exact hflags

/-- A segment of the client behind its SYN opens nothing and resets nothing. -/
theorem plain_clientSpec {flags : UInt8} {payload : List UInt8}
    (hack : flags &&& tcpAck ≠ 0) (hrst : flags &&& tcpRst = 0) :
    ¬ IsOpening (specView (clientSpec flags payload flow)) ∧
      ¬ IsReset (specView (clientSpec flags payload flow)) :=
  ⟨fun h => hack h.2, fun h => h hrst⟩

theorem syn_step :
    cpuFlowStep True flow.key none (specView (synSpec flow)) =
      (some (openedFlow flow.key flow.clientNext),
        some (openingReply (openedFlow flow.key flow.clientNext))) :=
  cpuFlowStep_open True flow.key opening_synSpec.2 opening_synSpec.1

theorem inStep_openedFlow :
    InStep .synReceived flow.opened (some (openedFlow flow.key flow.clientNext)) :=
  ⟨_, rfl, rfl, rfl, rfl⟩

/-- The acknowledgement completes the handshake and is not answered. -/
theorem ack_step (h : InStep .synReceived flow entry) :
    ∃ entry', InStep .established flow entry' ∧
      cpuFlowStep True flow.key entry (specView (clientSpec tcpAck [] flow)) =
        (entry', none) := by
  obtain ⟨record, rfl, hstate, hrecv, hsend⟩ := h
  obtain ⟨hopen, hreset⟩ :=
    @plain_clientSpec flow tcpAck [] (by decide) (by decide)
  have hdone : CompletesHandshake record (specView (clientSpec tcpAck [] flow)) := by
    have hflags : tcpAck &&& tcpAck ≠ 0 := by decide
    exact ⟨hflags, hsend.symm, hrecv.symm⟩
  have hfin : tcpAck &&& tcpFin = 0 := by decide
  rw [cpuFlowStep_segment True flow.key record hreset hopen]
  rcases segmentStep_halfOpen record _ hstate with ⟨-, hstep⟩ | ⟨hnot, -⟩
  · rw [hstep, establishedStep_ack (by simpa using hdone.2.2) rfl hfin]
    exact ⟨_, ⟨_, rfl, by simp, by simpa using hrecv, by simpa using hsend⟩, rfl⟩
  · exact absurd hdone hnot

/-- A request is answered with the plaintext response. -/
theorem request_step (h : InStep .established flow entry) :
    ∃ entry', InStep .established (flow.served (packetResponse responsePlaintext)) entry' ∧
      cpuFlowStep True flow.key entry
          (specView (clientSpec (tcpAck ||| tcpPsh) defaultRequest flow)) =
        (entry', some {
          seq := flow.serverNext
          ack := flow.clientNext + UInt32.ofNat defaultRequest.length
          flags := tcpAck ||| tcpPsh
          response := some responsePlaintext }) := by
  obtain ⟨record, rfl, hstate, hrecv, hsend⟩ := h
  obtain ⟨hopen, hreset⟩ :=
    @plain_clientSpec flow (tcpAck ||| tcpPsh) defaultRequest (by decide) (by decide)
  have hfin : (tcpAck ||| tcpPsh) &&& tcpFin = 0 := by decide
  have hclass : classifyHttpRequest defaultRequest = responsePlaintext := by decide +kernel
  have hnonempty : defaultRequest ≠ [] := by decide +kernel
  have hnext : nextAck (specView (clientSpec (tcpAck ||| tcpPsh) defaultRequest flow)) =
      flow.clientNext + UInt32.ofNat defaultRequest.length := by
    simp [nextAck, hfin]
  rw [cpuFlowStep_segment True flow.key record hreset hopen, segmentStep_established _ _ hstate,
    establishedStep_data (by simpa using hrecv.symm) hnonempty hfin]
  refine ⟨_, ⟨_, rfl, by simpa using hstate, by simpa using hnext, ?_⟩, Prod.ext rfl ?_⟩
  · simp [answeredFlow, hclass, hsend]
  · simp [answer, hnext, hclass, hsend]

/-- The FIN of the client is acknowledged and ends the flow. -/
theorem fin_step (h : InStep .established flow entry) :
    cpuFlowStep True flow.key entry (specView (clientSpec (tcpAck ||| tcpFin) [] flow)) =
      (none, some {
        seq := flow.serverNext, ack := flow.clientNext + 1, flags := tcpAck, response := none }) := by
  obtain ⟨record, rfl, hstate, hrecv, hsend⟩ := h
  obtain ⟨hopen, hreset⟩ :=
    @plain_clientSpec flow (tcpAck ||| tcpFin) [] (by decide) (by decide)
  have hfin : (tcpAck ||| tcpFin) &&& tcpFin ≠ 0 := by decide
  rw [cpuFlowStep_segment True flow.key record hreset hopen, segmentStep_established _ _ hstate,
    establishedStep_fin (by simpa using hrecv.symm) rfl hfin, noteAck_sendNext, hsend]
  rfl

end Steps

/-- A slot that holds the bytes of a built packet. -/
theorem read_slot {slot : Option RawPacket} {spec : TcpPacketSpec}
    (hfits : 40 + spec.payload.length ≤ maxRawPacketBytes)
    (hslot : slot.map RawPacket.bytes = some (builtBytes spec)) :
    ∃ packet, slot = some packet ∧ validateIpv4TcpChecksums packet = .ok () ∧
      parseIpv4Tcp packet = .ok (some (specView spec)) := by
  obtain ⟨packet, rfl, hbytes⟩ := Option.map_eq_some_iff.mp hslot
  have hbuilt : packet = builtPacket spec hfits := RawPacket.bytes_injective hbytes
  refine ⟨packet, rfl, ?_, ?_⟩
  · rw [hbuilt]
    exact validate_builtPacket spec hfits
  · rw [hbuilt, parseIpv4Tcp_eq, parsed_builtPacket]
    rfl

/-- What the benchmark relies on of the response of a backend. -/
structure Plaintext (name response : List UInt8) : Prop where
  fits : 40 + response.length ≤ maxRawPacketBytes
  length : response.length = (packetResponse responsePlaintext).length
  status : ascii "HTTP/1.1 200 OK\r\n" <+: response
  body : ascii "\r\n\r\nHello, World!\n" <:+ response
  backend : (windowPosition name response).isSome

section Answers

variable {flow : FlowCursor} {slot : Option RawPacket} {response : UInt32 → List UInt8}

theorem checkSynAck_ok (bytes : Nat)
    (hslot : slot.map RawPacket.bytes = some (builtBytes (replySpec response flow.key
      (openingReply (openedFlow flow.key flow.clientNext))))) :
    checkSynAck flow slot bytes = .ok (flow.opened, bytes) := by
  obtain ⟨packet, rfl, hvalid, hparse⟩ := read_slot (by simp [replySpec, openingReply, openedFlow,
    maxRawPacketBytes]) hslot
  simp [checkSynAck, hvalid, hparse, replySpec, openingReply, openedFlow, Outcome.ensure]
  rfl

theorem checkResponse_ok {name : List UInt8} (plaintext : Plaintext name (response responsePlaintext))
    (bytes : Nat)
    (hslot : slot.map RawPacket.bytes = some (builtBytes (replySpec response flow.key {
      seq := flow.serverNext
      ack := flow.clientNext + UInt32.ofNat defaultRequest.length
      flags := tcpAck ||| tcpPsh
      response := some responsePlaintext }))) :
    checkResponse name flow slot bytes =
      .ok (flow.served (packetResponse responsePlaintext),
        saturatingAdd bytes (packetResponse responsePlaintext).length) := by
  obtain ⟨packet, rfl, hvalid, hparse⟩ := read_slot (by simpa [replySpec] using plaintext.fits) hslot
  simp [checkResponse, hvalid, hparse, replySpec, Outcome.ensure, plaintext.status,
    plaintext.body, plaintext.backend, plaintext.length]
  rfl

theorem checkFinAck_ok (bytes : Nat)
    (hslot : slot.map RawPacket.bytes = some (builtBytes (replySpec response flow.key {
      seq := flow.serverNext, ack := flow.clientNext + 1, flags := tcpAck, response := none }))) :
    checkFinAck flow slot bytes = .ok (flow, bytes) := by
  obtain ⟨packet, rfl, -, hparse⟩ := read_slot (by simp [replySpec, maxRawPacketBytes]) hslot
  simp [checkFinAck, hparse, replySpec, Outcome.ensure]

end Answers

/-- A loop whose body accepts every answer. -/
theorem forFlows_ok {body : FlowCursor → Option RawPacket → Nat → Outcome (FlowCursor × Nat)}
    {next : FlowCursor → FlowCursor} {count : Nat → Nat} {flows : List FlowCursor}
    {responses : List (Option RawPacket)}
    (h : List.Forall₂ (fun flow response => ∀ bytes,
      body flow response bytes = .ok (next flow, count bytes)) flows responses) (bytes : Nat) :
    forFlows body flows responses bytes =
      .ok (flows.map next, count^[flows.length] bytes) := by
  induction h generalizing bytes with
  | nil => rfl
  | cons hfirst _ ih =>
      simp only [forFlows, hfirst, ih, Outcome.ok_bind, Outcome.pure_eq, List.map_cons,
        List.length_cons, Function.iterate_succ_apply]

theorem saturatingAdd_iterate (gain count : Nat) {bytes : Nat} (h : bytes ≤ 2 ^ 64 - 1) :
    (saturatingAdd · gain)^[count] bytes = min (bytes + count * gain) (2 ^ 64 - 1) := by
  induction count with
  | zero => simpa using h
  | succ count ih =>
      rw [Function.iterate_succ_apply', ih, saturatingAdd, Nat.add_mul]
      omega

end Bench
end Packet
end Gput
