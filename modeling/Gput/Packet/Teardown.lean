import Gput.Packet.Agreement
import Gput.Packet.FlowRun

/-!
# Teardown

A reset and a FIN in order remove one flow and nothing else, and the key stays
silent until its next SYN.  In the shader the frame is that of the slots: every
other live slot stays as it is, and where `flow_find` finds it.  The shader tests
for a SYN before it tests for a reset, and so a segment that sets both without
ACK removes nothing, unless no flow can be opened for it.
-/

namespace Gput
namespace Packet

/-- A segment that ends the flow of its key: a reset, or a FIN in order on an
established flow. -/
def EndsFlow (entry : Option Flow) (tcp : TcpPacketView) : Prop :=
  IsReset tcp ∨
    ¬ IsOpening tcp ∧ tcp.flags &&& tcpFin ≠ 0 ∧
      ∃ flow, entry = some flow ∧ flow.state = .established ∧ tcp.seq = flow.recvNext

section TearsDown

variable {α : Type} (parse : α → Option TcpPacketView) (views : Nat → Option TcpPacketView)
variable (outputs : Nat → Option α) (tables : Nat → FlowKey → Option Flow) (count n : Nat)

/-- What is asked of step `n` when its segment ends a flow. -/
structure Removed (tcp : TcpPacketView) : Prop where
  reset : IsReset tcp → outputs n = none
  fin : ¬ IsReset tcp → ∃ packet out, outputs n = some packet ∧ parse packet = some out ∧
    out.ack = tcp.seq + UInt32.ofNat tcp.payload.length + 1
  gone : tables (n + 1) tcp.key = none
  others : ∀ key, key ≠ tcp.key → tables (n + 1) key = tables n key
  /-- Until its next SYN the key is silent. -/
  silent : ∀ m later, n < m → m < count →
    (∀ k other, n < k → k ≤ m → views k = some other → other.key = tcp.key →
      other.flags &&& tcpSyn = 0) →
    views m = some later → later.key = tcp.key →
    outputs m = none ∧ tables (m + 1) = tables m

def TearsDown : Prop :=
  ∀ tcp, views n = some tcp → EndsFlow (tables n tcp.key) tcp →
    Removed parse views outputs tables count n tcp

end TearsDown

section Runs

variable {α : Type} {parse : α → Option TcpPacketView}
variable {steps : FlowSteps} {views : Nat → Option TcpPacketView} {outputs : Nat → Option α}
variable {tables : Nat → FlowKey → Option Flow} {replies : Nat → Option Reply} {count n : Nat}
variable {tcp : TcpPacketView}

theorem not_opening_of_syn_clear (h : tcp.flags &&& tcpSyn = 0) : ¬ IsOpening tcp :=
  fun hopen => hopen.1 h

/-- A key without an entry stays silent until its next SYN. -/
theorem FlowRun.silent (run : FlowRun steps views tables replies count) {key : FlowKey}
    (hgone : tables (n + 1) key = none) {m : Nat} {later : TcpPacketView} (hnm : n < m)
    (hm : m < count)
    (hsyn : ∀ k other, n < k → k ≤ m → views k = some other → other.key = key →
      other.flags &&& tcpSyn = 0)
    (hview : views m = some later) (hkey : later.key = key) :
    tables (m + 1) = tables m ∧ replies m = none := by
  have habsent : tables m key = none := by
    clear hview
    induction m, Nat.succ_le_of_lt hnm using Nat.le_induction with
    | base => exact hgone
    | succ m hlt ih =>
        have hbefore := ih hlt (by omega) (fun k other hk hkm => hsyn k other hk (by omega))
        by_cases hthis : ∃ tcp, views m = some tcp ∧ tcp.key = key
        · obtain ⟨tcp, hview, rfl⟩ := hthis
          have hplain := not_opening_of_syn_clear
            (hsyn m tcp hlt (Nat.le_succ m) hview rfl)
          rw [(run.absent (by omega) hview hplain hbefore).1]
          exact hbefore
        · rw [run.others (by omega) (fun tcp hview hkey => hthis ⟨tcp, hview, hkey⟩)]
          exact hbefore
  subst hkey
  exact run.absent hm hview
    (not_opening_of_syn_clear (hsyn m later hnm (le_refl m) hview rfl)) habsent

/-- A segment that opens nothing and ends a flow removes its entry, and a FIN is
acknowledged. -/
theorem plainStep_ends {entry : Option Flow} (hends : EndsFlow entry tcp) :
    (plainStep entry tcp).1 = none ∧
      (IsReset tcp → (plainStep entry tcp).2 = none) ∧
      (¬ IsReset tcp → ∃ reply, (plainStep entry tcp).2 = some reply ∧
        reply.ack = tcp.seq + UInt32.ofNat tcp.payload.length + 1) := by
  by_cases hreset : IsReset tcp
  · have hstep : plainStep entry tcp = (none, none) := by
      cases entry with
      | none => rfl
      | some flow => exact if_pos hreset
    rw [hstep]
    exact ⟨rfl, fun _ => rfl, fun h => absurd hreset h⟩
  · rcases hends with h | ⟨-, hfin, flow, rfl, hstate, hseq⟩
    · exact absurd h hreset
    · have hstep : plainStep (some flow) tcp = establishedStep (noteAck flow tcp) tcp :=
        (if_neg hreset).trans (segmentStep_established flow tcp hstate)
      rw [hstep]
      unfold establishedStep
      rw [if_neg (by simpa using hseq)]
      by_cases hempty : tcp.payload = []
      · rw [if_pos hempty, if_neg hfin]
        refine ⟨rfl, fun h => absurd h hreset, fun _ => ⟨_, rfl, ?_⟩⟩
        rw [hempty]
        exact congrArg (· + 1) (UInt32.add_zero tcp.seq).symm
      · rw [if_neg hempty, if_pos hfin]
        refine ⟨rfl, fun h => absurd h hreset, fun _ => ⟨_, rfl, ?_⟩⟩
        show nextAck tcp = _
        rw [nextAck, if_pos hfin]

/-- Step by step, an engine emits the packets that carry its replies. -/
def Sends (parse : α → Option TcpPacketView) (response : UInt32 → List UInt8)
    (views : Nat → Option TcpPacketView) (replies : Nat → Option Reply)
    (outputs : Nat → Option α) (count : Nat) : Prop :=
  ∀ n tcp, n < count → views n = some tcp →
    (replies n = none → outputs n = none) ∧
      ∀ reply, replies n = some reply → ∃ packet, outputs n = some packet ∧
        parse packet = some (replyView response tcp.key reply)

/-- A step that removes the entry of its key, and answers as it should, tears the
flow down. -/
theorem FlowRun.removed (run : FlowRun steps views tables replies count)
    {response : UInt32 → List UInt8} (hsends : Sends parse response views replies outputs count)
    (hn : n < count) (hview : views n = some tcp)
    (hentry : (steps n tcp (tables n tcp.key)).1 = none)
    (hreset : IsReset tcp → (steps n tcp (tables n tcp.key)).2 = none)
    (hfin : ¬ IsReset tcp → ∃ reply, (steps n tcp (tables n tcp.key)).2 = some reply ∧
      reply.ack = tcp.seq + UInt32.ofNat tcp.payload.length + 1) :
    Removed parse views outputs tables count n tcp := by
  obtain ⟨hnext, hreply⟩ := run.step n tcp hn hview
  have hgone : tables (n + 1) tcp.key = none := by
    rw [hnext, Function.update_self, hentry]
  refine ⟨?_, ?_, hgone, ?_, ?_⟩
  · intro h
    exact (hsends n tcp hn hview).1 (hreply.trans (hreset h))
  · intro h
    obtain ⟨reply, hsome, hack⟩ := hfin h
    obtain ⟨packet, houtput, hparse⟩ :=
      (hsends n tcp hn hview).2 reply (hreply.trans hsome)
    exact ⟨packet, _, houtput, hparse, hack⟩
  · intro key hkey
    rw [hnext, Function.update_of_ne hkey]
  · intro m later hnm hm hsyn hviewLater hkey
    obtain ⟨hsame, hnone⟩ := run.silent hgone hnm hm hsyn hviewLater hkey
    exact ⟨(hsends m later hm hviewLater).1 hnone, hsame⟩

/-- Segments that open nothing tear flows down in every engine. -/
theorem FlowRun.removed_plain (run : FlowRun steps views tables replies count)
    {response : UInt32 → List UInt8} (hsends : Sends parse response views replies outputs count)
    (hn : n < count) (hview : views n = some tcp) (hopen : ¬ IsOpening tcp)
    (hends : EndsFlow (tables n tcp.key) tcp) :
    Removed parse views outputs tables count n tcp := by
  have hstep := run.plain n tcp (tables n tcp.key) hopen
  obtain ⟨hentry, hreset, hfin⟩ := plainStep_ends hends
  apply run.removed hsends hn hview <;> rw [hstep] <;> assumption

end Runs

section Engines

variable {config : PacketEngineConfig} {packets : List RawPacket}

theorem CpuRun.sends {tables : Nat → FlowTable} {outputs : Nat → Option RawPacket}
    (run : CpuRun config packets tables outputs) :
    Sends parsed cpuResponse (viewAt config packets) (replyAt config packets tables) outputs
      packets.length := by
  intro n tcp hn hview
  obtain ⟨-, -, houtput⟩ := run.step_listened hn hview
  refine ⟨fun hnone => ?_, fun reply hreply => ?_⟩
  · rw [houtput, hnone]
    rfl
  · rw [houtput, hreply]
    exact ⟨_, rfl, parsed_builtPacket _ _⟩

theorem Shader.ShaderRun.sends {flows : Nat → Shader.Flows}
    {outputs : Nat → Option (List UInt8)} (valid : ValidConfig config)
    (run : Shader.ShaderRun config packets flows outputs) :
    Sends parsedBytes Shader.shaderResponse (viewAt config packets)
      (Shader.shaderReplyAt config packets flows) outputs packets.length := by
  intro n tcp hn hview
  obtain ⟨-, -, -, houtput⟩ := run.step_listened valid.capacity_power valid.capacity_fits hn hview
  refine ⟨fun hnone => ?_, fun reply hreply => ?_⟩
  · rw [houtput, hnone]
    rfl
  · rw [houtput, hreply]
    exact ⟨_, rfl, parsedBytes_shaderReplyBytes _ _⟩

/-- The CPU engine tears every flow down that it should. -/
theorem CpuRun.tearsDown {tables : Nat → FlowTable} {outputs : Nat → Option RawPacket}
    (run : CpuRun config packets tables outputs) {n : Nat} (hn : n < packets.length) :
    TearsDown parsed (viewAt config packets) outputs (fun n => entries (tables n)) packets.length
      n := by
  intro tcp hview hends
  by_cases hopen : IsOpening tcp
  · have hreset : IsReset tcp := hends.resolve_right (fun h => h.1 hopen)
    have hstep := cpuFlowStep_reset ((tables n).keys.card < config.flowCapacity) tcp.key
      (entries (tables n) tcp.key) hreset
    apply run.flowRun.removed run.sends hn hview
    · exact congrArg Prod.fst hstep
    · exact fun _ => congrArg Prod.snd hstep
    · exact fun h => absurd hreset h
  · exact run.flowRun.removed_plain run.sends hn hview hopen hends

/-- An engine that takes segments as the shader does tears flows down exactly where no
reset reaches its SYN branch. -/
theorem FlowRun.tearsDown_iff {α : Type} {parse : α → Option TcpPacketView}
    {room : Nat → FlowKey → Bool} {views : Nat → Option TcpPacketView} {outputs : Nat → Option α}
    {tables : Nat → FlowKey → Option Flow} {replies : Nat → Option Reply} {count n : Nat}
    (run : FlowRun (fun n tcp entry => Shader.shaderFlowStep (room n tcp.key) tcp.key entry tcp)
      views tables replies count)
    {response : UInt32 → List UInt8} (hsends : Sends parse response views replies outputs count)
    (hn : n < count) :
    TearsDown parse views outputs tables count n ↔
      ∀ tcp, views n = some tcp → IsReset tcp → IsOpening tcp →
        tables n tcp.key = none ∧ room n tcp.key = false := by
  constructor
  · intro htears tcp hview hreset hopen
    have hgone := (htears tcp hview (Or.inl hreset)).gone
    rw [(run.step n tcp hn hview).1, Function.update_self] at hgone
    cases hbefore : tables n tcp.key with
    | some flow =>
        rw [hbefore, Shader.shaderFlowStep_repeated _ _ flow hopen] at hgone
        cases hgone
    | none =>
        refine ⟨rfl, ?_⟩
        rw [hbefore, Shader.shaderFlowStep_open _ _ hopen] at hgone
        cases hroom : room n tcp.key with
        | false => rfl
        | true =>
            rw [hroom] at hgone
            cases hgone
  · intro hrefuses tcp hview hends
    by_cases hopen : IsOpening tcp
    · have hreset : IsReset tcp := hends.resolve_right (fun h => h.1 hopen)
      obtain ⟨habsent, hfull⟩ := hrefuses tcp hview hreset hopen
      have hstep : Shader.shaderFlowStep (room n tcp.key) tcp.key (tables n tcp.key) tcp =
          (none, none) := by
        rw [habsent, Shader.shaderFlowStep_open _ _ hopen, hfull]
        rfl
      apply run.removed hsends hn hview
      · exact congrArg Prod.fst hstep
      · exact fun _ => congrArg Prod.snd hstep
      · exact fun h => absurd hreset h
    · exact run.removed_plain hsends hn hview hopen hends

namespace Shader

open OpenAddressing

/-- The slots after the flow of a key is removed: every other live slot stays as
it is and is found, and no live slot has the key. -/
structure SlotsKept (config : PacketEngineConfig) (before after : Flows) (key : FlowKey) :
    Prop where
  kept : ∀ i, Settled (before i) → slotKey (before i) ≠ key →
    after i = before i ∧ findKey (tableParams config) after (slotKey (before i)) = i
  gone : ∀ i, Settled (after i) → slotKey (after i) ≠ key

/-- A segment that sets RST and SYN without ACK finds neither a flow nor a slot
for one. -/
def RefusesReset (config : PacketEngineConfig) (packets : List RawPacket) (flows : Nat → Flows)
    (n : Nat) : Prop :=
  ∀ tcp, viewAt config packets n = some tcp → IsReset tcp → IsOpening tcp →
    shaderEntries config (flows n) tcp.key = none ∧ hasVacancy config (flows n) tcp.key = false

section Frame

variable {flows : Flows} {packet : RawPacket} {invocation : Invocation} {tcp : TcpPacketView}

/-- A segment that opens no flow leaves the slots of all other flows alone. -/
theorem run_frame (hpresents : invocation.Presents packet)
    (hview : listened config packet = some tcp) (good : GoodFlows config flows)
    (hplain : ¬ IsOpening tcp ∨
      shaderEntries config flows tcp.key = none ∧ hasVacancy config flows tcp.key = false)
    (output : Words) {i : UInt32} (hkey : slotKey (flows i) ≠ tcp.key) :
    (invocation.run config ⟨output, flows⟩).flows i = flows i := by
  obtain ⟨hparsed, hport⟩ := listened_eq_some.mp hview
  obtain ⟨segment, hof, hcarries, hmain⟩ := main_listened (invocation.presented config hpresents)
    hparsed (congrArg UInt16.toUInt32 hport) ⟨output, flows⟩
  have hfind := @findKey_engineParams config flows invocation.wave.length tcp.key
  rw [Invocation.run, hmain]
  by_cases hopen : IsOpening tcp
  · obtain ⟨habsent, hfull⟩ := hplain.resolve_left (not_not.mpr hopen)
    have hmissed : findKey (tableParams config) flows tcp.key = invalidIndex := by
      by_contra hfound
      rw [shaderEntries, tableEntry, if_neg hfound] at habsent
      cases habsent
    have hvacancy : vacancy (cells flows) (probePath (engineParams config invocation.wave.length)
        tcp.key) (probeLimit (engineParams config invocation.wave.length)).toNat 0 = none :=
      Option.isSome_eq_false_iff.mp hfull |> Option.isNone_iff_eq_none.mp
    have hclaim : flowClaim (engineParams config invocation.wave.length) flows (keyHashOf tcp.key)
        segment.srcIp segment.dstIp (portsOf tcp.key) = (invalidIndex, flows) := by
      rw [hof.srcIp, hof.dstIp]
      exact (claimKey_eq flows tcp.key).trans (by rw [hvacancy])
    rw [if_pos hopen]
    unfold openingBranch
    simp only [hof.flowFind_eq, hfind, hmissed, hclaim, if_true]
  · rw [if_neg hopen]
    by_cases hmissed : findKey (tableParams config) flows tcp.key = invalidIndex
    · unfold segmentBranch
      rw [hof.flowFind_eq, hfind, if_pos hmissed]
    · have hlive := live_of_findKey good.table hmissed
      obtain ⟨⟨slot, hflows, -⟩, -, -⟩ := @segmentBranch_slot
        (engineParams config invocation.wave.length) (UInt32.ofNat invocation.position) _ _ _ _ _
        flows (cleared (UInt32.ofNat invocation.position) output)
        (good.table.settled_of_live hlive) hof hcarries hfind hmissed
      rw [hflows]
      apply Function.update_of_ne
      rintro rfl
      exact hkey (slotCell_eq_live.mp hlive).2

end Frame

namespace ShaderRun

variable {flows : Nat → Flows} {outputs : Nat → Option (List UInt8)} {n : Nat}

/-- Where the entry of a key is removed, the slots of all other flows stay. -/
theorem slotsKept (valid : ValidConfig config) (run : ShaderRun config packets flows outputs)
    (hn : n < packets.length) {tcp : TcpPacketView} (hview : viewAt config packets n = some tcp)
    (hplain : ¬ IsOpening tcp ∨
      shaderEntries config (flows n) tcp.key = none ∧
        hasVacancy config (flows n) tcp.key = false)
    (hgone : shaderEntries config (flows (n + 1)) tcp.key = none) :
    SlotsKept config (flows n) (flows (n + 1)) tcp.key := by
  have hgood := run.good valid.capacity_power valid.capacity_fits
  have hpower : (tableParams config).flowCapacity.toNat.isPowerOfTwo := by
    rw [tableParams, flowCapacity_toNat valid.capacity_fits]
    exact valid.capacity_power
  obtain ⟨invocation, output, hpresents, hflows, -⟩ := run.step n hn
  rw [viewAt_eq hn] at hview
  refine ⟨?_, ?_⟩
  · intro i hsettled hkey
    have hsame : flows (n + 1) i = flows n i := by
      rw [← hflows]
      exact run_frame hpresents hview (hgood n (Nat.le_of_lt hn)) hplain output hkey
    refine ⟨hsame, findKey_of_live (hgood (n + 1) hn).table ?_⟩
    rw [cells, hsame]
    exact hsettled.slotCell
  · intro i hsettled hkey
    have hmissed : findKey (tableParams config) (flows (n + 1)) tcp.key = invalidIndex := by
      by_contra hfound
      rw [shaderEntries, tableEntry, if_neg hfound] at hgone
      cases hgone
    refine absent_of_findKey (hgood (n + 1) hn).table hpower hmissed i ?_
    rw [← hkey]
    exact hsettled.slotCell

/-- The shader tears flows down exactly where no reset reaches its SYN branch. -/
theorem tearsDown_iff (valid : ValidConfig config) (run : ShaderRun config packets flows outputs)
    (hn : n < packets.length) :
    TearsDown parsedBytes (viewAt config packets) outputs
          (fun n => shaderEntries config (flows n)) packets.length n ∧
        (∀ tcp, viewAt config packets n = some tcp →
          EndsFlow (shaderEntries config (flows n) tcp.key) tcp →
          SlotsKept config (flows n) (flows (n + 1)) tcp.key) ↔
      RefusesReset config packets flows n := by
  have htears := (run.flowRun valid).tearsDown_iff (run.sends valid) hn
  refine ⟨fun h => htears.mp h.1, fun hrefuses => ⟨htears.mpr hrefuses, ?_⟩⟩
  intro tcp hview hends
  refine run.slotsKept valid hn hview ?_ (htears.mpr hrefuses tcp hview hends).gone
  by_cases hopen : IsOpening tcp
  · exact Or.inr (hrefuses tcp hview (hends.resolve_right (fun h => h.1 hopen)) hopen)
  · exact Or.inl hopen

end ShaderRun

end Shader

/-- **Teardown.**  In every run of the CPU engine a segment that ends a flow
removes it and nothing else; in a run of the shader it does, slot by slot, at
exactly the steps at which no reset opens or answers a flow. -/
theorem teardown_iff (hvalid : validateConfig config = .ok ()) (packets : List RawPacket) :
    (∀ tables outputs, CpuRun config packets tables outputs → ∀ n, n < packets.length →
      TearsDown parsed (viewAt config packets) outputs (fun n => entries (tables n))
        packets.length n) ∧
      ∀ flows outputs, Shader.ShaderRun config packets flows outputs → ∀ n, n < packets.length →
        (TearsDown parsedBytes (viewAt config packets) outputs
              (fun n => Shader.shaderEntries config (flows n)) packets.length n ∧
            (∀ tcp, viewAt config packets n = some tcp →
              EndsFlow (Shader.shaderEntries config (flows n) tcp.key) tcp →
              Shader.SlotsKept config (flows n) (flows (n + 1)) tcp.key) ↔
          Shader.RefusesReset config packets flows n) :=
  ⟨fun _ _ run _ hn => run.tearsDown hn,
    fun _ _ run _ hn => run.tearsDown_iff (validateConfig_eq_ok.mp hvalid) hn⟩

/-- A segment of a client that sets both RST and SYN. -/
def resettingPacket : RawPacket :=
  builtPacket
    { key := clientKey 1000, seq := 100, ack := 0, flags := tcpRst ||| tcpSyn, payload := [] } (by
      show 40 ≤ maxRawPacketBytes
      decide)

theorem viewAt_resettingPacket (rest : List RawPacket) :
    viewAt fourSlots (resettingPacket :: rest) 0 =
      some { key := clientKey 1000, seq := 100, ack := 0, flags := tcpRst ||| tcpSyn,
             payload := [] } := by
  simp [viewAt, listened, resettingPacket, parsed_builtPacket, clientKey, fourSlots]

/-- The FIN of one client and the reset of the other. -/
theorem teardown_iff_conversation :
    ∃ flows outputs, Shader.ShaderRun fourSlots conversation flows outputs ∧
      ∀ n, n = 3 ∨ n = 5 → TearsDown parsedBytes (viewAt fourSlots conversation) outputs
        (fun n => Shader.shaderEntries fourSlots (flows n)) 6 n := by
  obtain ⟨flows, outputs, run⟩ := Shader.shaderRun_exists fourSlots conversation
  have htears := (teardown_iff fourSlots_valid conversation).2 flows outputs run
  refine ⟨flows, outputs, run, fun n hn => ((htears n ?_).mpr ?_).1⟩
  · rcases hn with rfl | rfl <;> decide
  · intro tcp hview _ hopen
    rw [viewAt_conversation] at hview
    rcases hn with rfl | rfl <;> cases hview <;> exact absurd hopen (by decide)

/-- The shader opens a flow for a reset. -/
theorem teardown_reset_opens :
    validateConfig fourSlots = .ok () ∧
      ∃ flows outputs, Shader.ShaderRun fourSlots [resettingPacket] flows outputs ∧
        ¬ TearsDown parsedBytes (viewAt fourSlots [resettingPacket]) outputs
          (fun n => Shader.shaderEntries fourSlots (flows n)) 1 0 := by
  have valid := validateConfig_eq_ok.mp fourSlots_valid
  obtain ⟨flows, outputs, run⟩ := Shader.shaderRun_exists fourSlots [resettingPacket]
  refine ⟨fourSlots_valid, flows, outputs, run, ?_⟩
  intro htears
  have hopen : IsOpening
      { key := clientKey 1000, seq := 100, ack := 0, flags := tcpRst ||| tcpSyn,
        payload := [] } := by decide
  have hview := viewAt_resettingPacket []
  have hgone := (htears _ hview (Or.inl (by decide))).gone
  have habsent : Shader.shaderEntries fourSlots (flows 0) (clientKey 1000) = none :=
    (run.engineRun valid.capacity_power valid.capacity_fits).start (clientKey 1000)
  have hroom : Shader.hasVacancy fourSlots (flows 0) (clientKey 1000) = true := by
    rw [run.start]
    decide
  have hstep := ((run.flowRun valid).step 0 _ (by decide) hview).1
  rw [hstep, Function.update_self] at hgone
  simp only [habsent, Shader.shaderFlowStep_open _ _ hopen, hroom, if_true] at hgone
  cases hgone

end Engines

end Packet
end Gput
