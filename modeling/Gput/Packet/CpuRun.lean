import Gput.Packet.CpuEngine
import Gput.Packet.Handshake
import Mathlib.Data.Finset.Card

/-!
# Runs of the CPU engine

A run is the sequence of tables and outputs of `processPacket` over a list of
packets, from the empty table.  It is a run in the sense of `EngineRun`, and its
table never holds more flows than its capacity, nor a flow to another port.
-/

namespace Gput
namespace Packet

/-- The TCP view of a packet to the listening port. -/
def listened (config : PacketEngineConfig) (packet : RawPacket) : Option TcpPacketView :=
  (parsed packet).filter fun tcp => tcp.key.dstPort = config.listenPort

theorem listened_eq_some {config : PacketEngineConfig} {packet : RawPacket}
    {tcp : TcpPacketView} :
    listened config packet = some tcp ↔
      parsed packet = some tcp ∧ tcp.key.dstPort = config.listenPort := by
  simp [listened, Option.filter_eq_some_iff]

/-- `tables n` is the table before packet `n`, `outputs n` what the engine emits
for it. -/
structure CpuRun (config : PacketEngineConfig) (packets : List RawPacket)
    (tables : Nat → FlowTable) (outputs : Nat → Option RawPacket) : Prop where
  start : tables 0 = ∅
  step : ∀ n (hn : n < packets.length),
    processPacket (tables n) config packets[n] = .ok (tables (n + 1), outputs n)

/-- The entries of a table, by key. -/
def entries (flows : FlowTable) : FlowKey → Option Flow :=
  fun key => flows.lookup key

theorem entries_injective {flows flows' : FlowTable} (h : entries flows = entries flows') :
    flows = flows' :=
  Finmap.ext_lookup (fun key => congrFun h key)

theorem entries_setEntry (flows : FlowTable) (key : FlowKey) (entry : Option Flow) :
    entries (flows.setEntry key entry) = Function.update (entries flows) key entry := by
  funext key'
  by_cases h : key' = key
  · subst h
    simp [entries]
  · rw [Function.update_of_ne h]
    exact lookup_setEntry_of_ne flows key entry h

theorem mem_keys_iff {flows : FlowTable} {key : FlowKey} :
    key ∈ flows.keys ↔ entries flows key ≠ none := by
  rw [Finmap.mem_keys, ne_eq, entries, Finmap.lookup_eq_none, not_not]

/-- What the engine replies to a packet. -/
def cpuReply (config : PacketEngineConfig) (flows : FlowTable) (packet : RawPacket) :
    Option Reply :=
  (listened config packet).bind fun tcp =>
    (cpuFlowStep (flows.keys.card < config.flowCapacity) tcp.key (entries flows tcp.key) tcp).2

theorem cpuStep_of_listened {config : PacketEngineConfig} {flows : FlowTable}
    {packet : RawPacket} {tcp : TcpPacketView} (h : listened config packet = some tcp) :
    cpuStep config flows packet =
      (flows.setEntry tcp.key (cpuFlowStep (flows.keys.card < config.flowCapacity) tcp.key
          (entries flows tcp.key) tcp).1,
        (cpuReply config flows packet).map (cpuReplyPacket tcp.key)) := by
  obtain ⟨hparsed, hport⟩ := listened_eq_some.mp h
  unfold cpuStep cpuReply
  rw [hparsed, h]
  simp only [hport, ne_eq, not_true, if_false]
  rfl

theorem cpuStep_of_not_listened {config : PacketEngineConfig} {flows : FlowTable}
    {packet : RawPacket} (h : listened config packet = none) :
    cpuStep config flows packet = (flows, none) := by
  unfold cpuStep
  cases hparsed : parsed packet with
  | none => rfl
  | some tcp =>
      have hport : tcp.key.dstPort ≠ config.listenPort := by
        intro hport
        rw [listened_eq_some.mpr ⟨hparsed, hport⟩] at h
        cases h
      simp [hport]

/-- The CPU engine follows the rules of a segment. -/
theorem cpuFlowStep_rule (room : Prop) [Decidable room] (key : FlowKey) (entry : Option Flow)
    (tcp : TcpPacketView) :
    SegmentRule key entry tcp (cpuFlowStep room key entry tcp).1
      (cpuFlowStep room key entry tcp).2 := by
  by_cases hreset : IsReset tcp
  · rw [cpuFlowStep_reset _ _ _ hreset]
    exact .drop entry tcp
  by_cases hopen : IsOpening tcp
  · cases entry with
    | none =>
        rw [cpuFlowStep_open _ _ hreset hopen]
        split_ifs
        · exact .opened tcp hopen
        · exact .drop none tcp
    | some flow =>
        rw [cpuFlowStep_reopen _ _ _ hreset hopen]
        by_cases hrestart : flow.state = .synReceived ∧ flow.recvNext ≠ tcp.seq + 1
        · rw [reopen, if_pos hrestart]
          exact .reopened flow tcp hopen hrestart.1
        · rw [reopen, if_neg hrestart]
          exact .repeated flow tcp hopen
  · cases entry with
    | none =>
        rw [cpuFlowStep_absent _ _ hopen]
        exact .drop none tcp
    | some flow =>
        rw [cpuFlowStep_segment _ _ _ hreset hopen]
        exact .segment flow tcp hopen

/-- A segment creates an entry only where there is room for it. -/
theorem cpuFlowStep_creates (room : Prop) [Decidable room] (key : FlowKey)
    (entry : Option Flow) (tcp : TcpPacketView) (habsent : entry = none)
    (hcreated : (cpuFlowStep room key entry tcp).1 ≠ none) : room := by
  subst habsent
  by_contra hroom
  apply hcreated
  by_cases hreset : IsReset tcp
  · rw [cpuFlowStep_reset _ _ _ hreset]
  by_cases hopen : IsOpening tcp
  · rw [cpuFlowStep_open _ _ hreset hopen, if_neg hroom]
  · rw [cpuFlowStep_absent _ _ hopen]

/-- Replacing an entry keeps the table within its capacity when a new entry
finds room. -/
theorem card_setEntry_le (flows : FlowTable) (key : FlowKey) (entry : Option Flow)
    {capacity : Nat} (hcard : flows.keys.card ≤ capacity)
    (hroom : entries flows key = none → entry ≠ none → flows.keys.card < capacity) :
    (flows.setEntry key entry).keys.card ≤ capacity := by
  have hsubset : (flows.setEntry key entry).keys ⊆ insert key flows.keys := by
    intro key' hmem
    rw [mem_keys_iff, entries_setEntry] at hmem
    by_cases h : key' = key
    · rw [h]
      exact Finset.mem_insert_self _ _
    · rw [Function.update_of_ne h] at hmem
      exact Finset.mem_insert_of_mem (mem_keys_iff.mpr hmem)
  by_cases hin : key ∈ flows.keys
  · rw [Finset.insert_eq_of_mem hin] at hsubset
    exact le_trans (Finset.card_le_card hsubset) hcard
  · have habsent : entries flows key = none := by
      by_contra h
      exact hin (mem_keys_iff.mpr h)
    cases hentry : entry with
    | none =>
        have hsame : flows.setEntry key none = flows := by
          have h := setEntry_self flows key
          rwa [show flows.lookup key = none from habsent] at h
        rw [hsame]
        exact hcard
    | some flow =>
        have hlt := hroom habsent (by simp [hentry])
        rw [← hentry]
        refine le_trans (Finset.card_le_card hsubset) ?_
        rw [Finset.card_insert_of_notMem hin]
        exact hlt

section Run

variable {config : PacketEngineConfig} {packets : List RawPacket}
variable {tables : Nat → FlowTable} {outputs : Nat → Option RawPacket}

/-- Every list of packets has a run. -/
theorem cpuRun_exists (config : PacketEngineConfig) (packets : List RawPacket) :
    ∃ tables outputs, CpuRun config packets tables outputs := by
  let tables (n : Nat) : FlowTable :=
    (packets.take n).foldl (fun flows packet => (cpuStep config flows packet).1) ∅
  let outputs (n : Nat) : Option RawPacket :=
    packets[n]?.bind fun packet => (cpuStep config (tables n) packet).2
  refine ⟨tables, outputs, rfl, ?_⟩
  intro n hn
  have htake : packets.take (n + 1) = packets.take n ++ [packets[n]] :=
    List.take_succ_eq_append_getElem hn
  have hnext : tables (n + 1) = (cpuStep config (tables n) packets[n]).1 := by
    show (packets.take (n + 1)).foldl _ _ = _
    rw [htake, List.foldl_append]
    rfl
  have houtput : outputs n = (cpuStep config (tables n) packets[n]).2 := by
    show packets[n]?.bind _ = _
    rw [List.getElem?_eq_getElem hn]
    rfl
  rw [processPacket_eq, hnext, houtput]

/-- The view of packet `n`. -/
def viewAt (config : PacketEngineConfig) (packets : List RawPacket) (n : Nat) :
    Option TcpPacketView :=
  packets[n]?.bind (listened config)

/-- The reply to packet `n`. -/
def replyAt (config : PacketEngineConfig) (packets : List RawPacket)
    (tables : Nat → FlowTable) (n : Nat) : Option Reply :=
  packets[n]?.bind (cpuReply config (tables n))

theorem viewAt_eq {n : Nat} (hn : n < packets.length) :
    viewAt config packets n = listened config packets[n] := by
  rw [viewAt, List.getElem?_eq_getElem hn]
  rfl

namespace CpuRun

theorem step_eq (run : CpuRun config packets tables outputs) {n : Nat}
    (hn : n < packets.length) :
    cpuStep config (tables n) packets[n] = (tables (n + 1), outputs n) := by
  have h := run.step n hn
  rw [processPacket_eq] at h
  exact Outcome.ok.inj h

/-- A packet that is not TCP for the listening port changes nothing. -/
theorem step_unlistened (run : CpuRun config packets tables outputs) {n : Nat}
    (hn : n < packets.length) (hview : viewAt config packets n = none) :
    tables (n + 1) = tables n ∧ outputs n = none := by
  have h := run.step_eq hn
  rw [viewAt_eq hn] at hview
  rw [cpuStep_of_not_listened hview] at h
  exact ⟨(congrArg Prod.fst h).symm, (congrArg Prod.snd h).symm⟩

/-- A packet to the listening port is one step of the flow of its key. -/
theorem step_listened (run : CpuRun config packets tables outputs) {n : Nat}
    (hn : n < packets.length) {tcp : TcpPacketView}
    (hview : viewAt config packets n = some tcp) :
    tables (n + 1) = (tables n).setEntry tcp.key
        (cpuFlowStep ((tables n).keys.card < config.flowCapacity) tcp.key
          (entries (tables n) tcp.key) tcp).1 ∧
      replyAt config packets tables n =
        (cpuFlowStep ((tables n).keys.card < config.flowCapacity) tcp.key
          (entries (tables n) tcp.key) tcp).2 ∧
      outputs n = (replyAt config packets tables n).map (cpuReplyPacket tcp.key) := by
  have h := run.step_eq hn
  have hget : packets[n]? = some packets[n] := List.getElem?_eq_getElem hn
  rw [viewAt_eq hn] at hview
  rw [cpuStep_of_listened hview] at h
  refine ⟨(congrArg Prod.fst h).symm, ?_, ?_⟩
  · rw [replyAt, hget]
    show cpuReply config (tables n) packets[n] = _
    rw [cpuReply, hview]
    rfl
  · rw [replyAt, hget]
    exact (congrArg Prod.snd h).symm

/-- A run of the CPU engine is a run of an engine. -/
theorem engineRun (run : CpuRun config packets tables outputs) :
    EngineRun (viewAt config packets) (fun n => entries (tables n))
      (replyAt config packets tables) packets.length where
  start := by
    intro key
    rw [run.start]
    exact Finmap.lookup_empty key
  step := by
    intro n hn
    unfold PacketRule
    cases hview : viewAt config packets n with
    | none =>
        refine ⟨by rw [(run.step_unlistened hn hview).1], ?_⟩
        rw [viewAt_eq hn] at hview
        rw [replyAt, List.getElem?_eq_getElem hn]
        show cpuReply config (tables n) packets[n] = none
        rw [cpuReply, hview]
        rfl
    | some tcp =>
        obtain ⟨hnext, hreply, -⟩ := run.step_listened hn hview
        refine ⟨(cpuFlowStep ((tables n).keys.card < config.flowCapacity) tcp.key
          (entries (tables n) tcp.key) tcp).1, ?_, ?_⟩
        · rw [hnext, entries_setEntry]
        · rw [hreply]
          exact cpuFlowStep_rule _ _ _ _

/-- No flow of the table is for another port. -/
theorem dstPort_eq (run : CpuRun config packets tables outputs) :
    ∀ n, n ≤ packets.length → ∀ key, entries (tables n) key ≠ none →
      key.dstPort = config.listenPort
  | 0, _, key, hkey => by
      rw [run.start] at hkey
      exact absurd (Finmap.lookup_empty key) hkey
  | n + 1, hn, key, hkey => by
      have ih := dstPort_eq run n (by omega) key
      cases hview : viewAt config packets n with
      | none =>
          rw [(run.step_unlistened (by omega) hview).1] at hkey
          exact ih hkey
      | some tcp =>
          obtain ⟨hnext, -, -⟩ := run.step_listened (by omega) hview
          by_cases h : key = tcp.key
          · rw [viewAt_eq (by omega)] at hview
            rw [h]
            exact (listened_eq_some.mp hview).2
          · rw [hnext, entries_setEntry, Function.update_of_ne h] at hkey
            exact ih hkey

/-- The table never holds more flows than its capacity. -/
theorem card_le (run : CpuRun config packets tables outputs) :
    ∀ n, n ≤ packets.length → (tables n).keys.card ≤ config.flowCapacity
  | 0, _ => by
      rw [run.start]
      exact Nat.zero_le _
  | n + 1, hn => by
      have ih := card_le run n (by omega)
      cases hview : viewAt config packets n with
      | none =>
          rw [(run.step_unlistened (by omega) hview).1]
          exact ih
      | some tcp =>
          obtain ⟨hnext, -, -⟩ := run.step_listened (by omega) hview
          rw [hnext]
          exact card_setEntry_le _ _ _ ih (cpuFlowStep_creates _ _ _ _)

end CpuRun

end Run

section Conversation

/-- A configuration with as many probes as slots. -/
def fourSlots : PacketEngineConfig where
  maxBatchSize := 64
  flowCapacity := 4
  flowProbeLimit := 4
  listenPort := 8080

theorem fourSlots_valid : validateConfig fourSlots = .ok () :=
  validateConfig_eq_ok.mpr
    ⟨by decide, by decide, ⟨2, rfl⟩, by decide, by decide, by decide, by decide⟩

/-- The key of a client's flow to port 8080. -/
def clientKey (srcPort : UInt16) : FlowKey where
  srcIp := 0x0a000002
  dstIp := 0x0a000001
  srcPort := srcPort
  dstPort := 8080

/-- The SYN of that client. -/
def synView (srcPort : UInt16) : TcpPacketView where
  key := clientKey srcPort
  seq := 100
  ack := 0
  flags := tcpSyn
  payload := []

/-- The request with which the client at port 1000 completes its handshake. -/
def requestView : TcpPacketView where
  key := clientKey 1000
  seq := 101
  ack := serverIsn (clientKey 1000) + 1
  flags := tcpAck
  payload := ByteString.ascii "GET /health HTTP/1.1\r\n\r\n"

/-- The end of its stream, behind one request. -/
def finView : TcpPacketView where
  key := clientKey 1000
  seq := 125
  ack := serverIsn (clientKey 1000) + 1
  flags := tcpAck ||| tcpFin
  payload := []

def resetView (srcPort : UInt16) : TcpPacketView where
  key := clientKey srcPort
  seq := 101
  ack := 0
  flags := tcpRst
  payload := []

def synPacket (srcPort : UInt16) : RawPacket :=
  builtPacket
    { key := clientKey srcPort, seq := 100, ack := 0, flags := tcpSyn, payload := [] } (by
      show 40 ≤ maxRawPacketBytes
      decide)

def requestPacket : RawPacket :=
  builtPacket
    { key := clientKey 1000, seq := 101, ack := serverIsn (clientKey 1000) + 1,
      flags := tcpAck, payload := ByteString.ascii "GET /health HTTP/1.1\r\n\r\n" }
    (by decide +kernel)

def finPacket : RawPacket :=
  builtPacket
    { key := clientKey 1000, seq := 125, ack := serverIsn (clientKey 1000) + 1,
      flags := tcpAck ||| tcpFin, payload := [] } (by
      show 40 ≤ maxRawPacketBytes
      decide)

def resetPacket (srcPort : UInt16) : RawPacket :=
  builtPacket
    { key := clientKey srcPort, seq := 101, ack := 0, flags := tcpRst, payload := [] } (by
      show 40 ≤ maxRawPacketBytes
      decide)

/-- A client sends its request twice and ends its stream; another one connects and
resets its connection. -/
def conversation : List RawPacket :=
  [synPacket 1000, requestPacket, requestPacket, finPacket, synPacket 1001, resetPacket 1001]

def conversationViews : List TcpPacketView :=
  [synView 1000, requestView, requestView, finView, synView 1001, resetView 1001]

theorem listened_builtPacket {config : PacketEngineConfig} (spec : TcpPacketSpec)
    (h : 40 + spec.payload.length ≤ maxRawPacketBytes)
    (hport : spec.key.dstPort = config.listenPort) :
    listened config (builtPacket spec h) =
      some { key := spec.key, seq := spec.seq, ack := spec.ack, flags := spec.flags,
             payload := spec.payload } :=
  listened_eq_some.mpr ⟨parsed_builtPacket spec h, hport⟩

theorem viewAt_conversation (n : Nat) :
    viewAt fourSlots conversation n = conversationViews[n]? := by
  have hviews : conversation.map (listened fourSlots) = conversationViews.map some := by
    simp only [conversation, List.map_cons, List.map_nil, synPacket, requestPacket, finPacket,
      resetPacket]
    simp only [listened_builtPacket, clientKey, fourSlots]
    rfl
  have hn := congrArg (fun views => views[n]?.join) hviews
  simp only [List.getElem?_map] at hn
  rw [viewAt]
  cases hpacket : conversation[n]? <;> cases hview : conversationViews[n]? <;>
    simp_all

variable {tables : Nat → FlowTable} {outputs : Nat → Option RawPacket}

/-- The table with one entry at most. -/
def soleEntry (key : FlowKey) (entry : Option Flow) : FlowKey → Option Flow :=
  Function.update (fun _ => none) key entry

@[simp] theorem soleEntry_self (key : FlowKey) (entry : Option Flow) :
    soleEntry key entry key = entry :=
  Function.update_self ..

theorem soleEntry_none (key : FlowKey) : soleEntry key none = fun _ => none :=
  Function.update_eq_self_iff.mpr rfl

/-- A segment of the conversation, for a flow that has the table for itself. -/
theorem CpuRun.conversation_step (run : CpuRun fourSlots conversation tables outputs) {n : Nat}
    (tcp : TcpPacketView) {entry entry' : Option Flow}
    (hbefore : entries (tables n) = soleEntry tcp.key entry)
    (hview : conversationViews[n]? = some tcp)
    (hstep : ∀ (room : Prop) [Decidable room], (entry = none → room) →
      (cpuFlowStep room tcp.key entry tcp).1 = entry') :
    entries (tables (n + 1)) = soleEntry tcp.key entry' := by
  have hn : n < conversation.length := (List.getElem?_eq_some_iff.mp hview).1
  have hroom (hnone : entry = none) : (tables n).keys.card < fourSlots.flowCapacity := by
    have hempty : tables n = ∅ := by
      apply entries_injective
      rw [hbefore, hnone, soleEntry_none]
      exact (funext Finmap.lookup_empty).symm
    rw [hempty]
    decide
  rw [(run.step_listened hn ((viewAt_conversation n).trans hview)).1, entries_setEntry, hbefore,
    soleEntry_self, hstep _ hroom, soleEntry, Function.update_idem]
  rfl

/-- The flow that answered the request. -/
def requestFlow : Flow :=
  answeredFlow (noteAck (establish (openedFlow (clientKey 1000) 100) requestView) requestView)
    requestView

section Steps

variable (room : Prop) [Decidable room]

theorem synView_step (srcPort : UInt16) (hroom : room) :
    (cpuFlowStep room (clientKey srcPort) none (synView srcPort)).1 =
      some (openedFlow (clientKey srcPort) 100) := by
  have hreset : ¬ IsReset (synView srcPort) := by
    show ¬ tcpSyn &&& tcpRst ≠ 0
    decide
  have hopen : IsOpening (synView srcPort) := by
    show tcpSyn &&& tcpSyn ≠ 0 ∧ tcpSyn &&& tcpAck = 0
    decide
  rw [cpuFlowStep_open _ _ hreset hopen, if_pos hroom]
  rfl

theorem requestView_step :
    (cpuFlowStep room (clientKey 1000) (some (openedFlow (clientKey 1000) 100)) requestView).1 =
      some requestFlow := by
  have hcompletes : CompletesHandshake (openedFlow (clientKey 1000) 100) requestView := by decide
  have hdata : requestView.payload ≠ [] := by decide
  have hfin : requestView.flags &&& tcpFin = 0 := by decide
  have hhalf : (openedFlow (clientKey 1000) 100).state = .synReceived := rfl
  rw [cpuFlowStep_segment _ _ _ (by decide) (by decide)]
  simp [segmentStep, hhalf, hcompletes, establishedStep, hcompletes.2.2, hdata, hfin, requestFlow]

@[simp] theorem requestFlow_recvNext : requestFlow.recvNext = 125 := by decide +kernel

@[simp] theorem requestFlow_state : requestFlow.state = .established := by
  simp [requestFlow]

theorem requestView_again :
    (cpuFlowStep room (clientKey 1000) (some requestFlow) requestView).1 =
      some (noteAck requestFlow requestView) := by
  have hseq : requestView.seq = 101 := rfl
  rw [cpuFlowStep_segment _ _ _ (by decide) (by decide)]
  simp [segmentStep, establishedStep, hseq]

theorem finView_step :
    (cpuFlowStep room (clientKey 1000) (some (noteAck requestFlow requestView)) finView).1 =
      none := by
  have hseq : finView.seq = 125 := rfl
  have hempty : finView.payload = [] := rfl
  have hfin : finView.flags &&& tcpFin ≠ 0 := by decide
  rw [cpuFlowStep_segment _ _ _ (by decide) (by decide)]
  simp [segmentStep, establishedStep, hseq, hempty, hfin]

end Steps

/-- The SYN opens a flow, the request establishes it, its copy leaves it as it is, and
the FIN removes it; the other client's flow is opened and reset. -/
theorem CpuRun.conversation_entries (run : CpuRun fourSlots conversation tables outputs) :
    entries (tables 0) = (fun _ => none) ∧
      entries (tables 1) =
        soleEntry (clientKey 1000) (some (openedFlow (clientKey 1000) 100)) ∧
      entries (tables 2) = soleEntry (clientKey 1000) (some requestFlow) ∧
      entries (tables 3) =
        soleEntry (clientKey 1000) (some (noteAck requestFlow requestView)) ∧
      entries (tables 4) = (fun _ => none) ∧
      entries (tables 5) =
        soleEntry (clientKey 1001) (some (openedFlow (clientKey 1001) 100)) ∧
      entries (tables 6) = (fun _ => none) := by
  have hstart : entries (tables 0) = fun _ => none := by
    rw [run.start]
    exact funext Finmap.lookup_empty
  have hopened := run.conversation_step (synView 1000)
    (hstart.trans (soleEntry_none _).symm) rfl
    (fun room _ hroom => synView_step room 1000 (hroom rfl))
  have hanswered := run.conversation_step requestView hopened rfl
    (fun room _ _ => requestView_step room)
  have hagain := run.conversation_step requestView hanswered rfl
    (fun room _ _ => requestView_again room)
  have hended := run.conversation_step finView hagain rfl
    (fun room _ _ => finView_step room)
  rw [soleEntry_none] at hended
  have hother := run.conversation_step (synView 1001)
    (hended.trans (soleEntry_none _).symm) rfl
    (fun room _ hroom => synView_step room 1001 (hroom rfl))
  have hreset := run.conversation_step (resetView 1001) hother rfl
    (fun room _ _ => congrArg Prod.fst (cpuFlowStep_reset room _ _ (by decide)))
  rw [soleEntry_none] at hreset
  exact ⟨hstart, hopened, hanswered, hagain, hended, hother, hreset⟩

end Conversation

end Packet
end Gput
