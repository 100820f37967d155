import Gput.Packet.Emissions

/-!
# Runs as steps of flows

Both engines treat a packet by a function of the entry of its key: behind the
opening segments it is the same function for both (`plainStep`), and an opening
segment on an established flow only repeats an acknowledgement.  `FlowRun`
collects this for any engine, together with what it says about the packets of
other flows.
-/

namespace Gput
namespace Packet

/-- What an engine does with a segment that opens nothing. -/
def plainStep (entry : Option Flow) (tcp : TcpPacketView) : Option Flow × Option Reply :=
  match entry with
  | none => (none, none)
  | some flow => if IsReset tcp then (none, none) else segmentStep flow tcp

/-- What an engine does with a packet, given the entry of its key. -/
abbrev FlowSteps : Type := Nat → TcpPacketView → Option Flow → Option Flow × Option Reply

/-- The first `count` packets of an engine, each one step of the flow of its
key. -/
structure FlowRun (steps : FlowSteps) (views : Nat → Option TcpPacketView)
    (tables : Nat → FlowKey → Option Flow) (replies : Nat → Option Reply) (count : Nat) :
    Prop where
  ignored : ∀ n, n < count → views n = none → tables (n + 1) = tables n ∧ replies n = none
  step : ∀ n tcp, n < count → views n = some tcp →
    tables (n + 1) = Function.update (tables n) tcp.key (steps n tcp (tables n tcp.key)).1 ∧
      replies n = (steps n tcp (tables n tcp.key)).2
  plain : ∀ n tcp entry, ¬ IsOpening tcp → steps n tcp entry = plainStep entry tcp
  repeated : ∀ n tcp flow, IsOpening tcp → ¬ IsReset tcp → flow.state = .established →
    steps n tcp (some flow) = (some flow, some (openingReply flow))

section FlowRun

variable {steps : FlowSteps} {views : Nat → Option TcpPacketView}
variable {tables : Nat → FlowKey → Option Flow} {replies : Nat → Option Reply} {count : Nat}

/-- A packet leaves the entries of all other keys alone. -/
theorem FlowRun.others (run : FlowRun steps views tables replies count) {n : Nat}
    (hn : n < count) {key : FlowKey}
    (hother : ∀ tcp, views n = some tcp → tcp.key ≠ key) : tables (n + 1) key = tables n key := by
  cases hview : views n with
  | none => rw [(run.ignored n hn hview).1]
  | some tcp =>
      rw [(run.step n tcp hn hview).1, Function.update_of_ne (hother tcp hview).symm]

/-- Packets of other flows leave the entry of a key alone. -/
theorem FlowRun.untouched (run : FlowRun steps views tables replies count) {n m : Nat}
    (hnm : n ≤ m) (hm : m ≤ count) {key : FlowKey}
    (hother : ∀ k tcp, n ≤ k → k < m → views k = some tcp → tcp.key ≠ key) :
    tables m key = tables n key := by
  induction m, hnm using Nat.le_induction with
  | base => rfl
  | succ m hnm ih =>
      rw [run.others (by omega) (fun tcp => hother m tcp hnm (Nat.lt_succ_self m))]
      exact ih (by omega) (fun k tcp hk hkm => hother k tcp hk (by omega))

/-- The entry and the reply after a packet that opens nothing. -/
theorem FlowRun.plain_step (run : FlowRun steps views tables replies count) {n : Nat}
    (hn : n < count) {tcp : TcpPacketView} (hview : views n = some tcp)
    (hopen : ¬ IsOpening tcp) :
    tables (n + 1) = Function.update (tables n) tcp.key (plainStep (tables n tcp.key) tcp).1 ∧
      replies n = (plainStep (tables n tcp.key) tcp).2 := by
  have hstep := run.step n tcp hn hview
  rw [run.plain n tcp _ hopen] at hstep
  exact hstep

/-- Without an entry, a packet that opens nothing changes nothing. -/
theorem FlowRun.absent (run : FlowRun steps views tables replies count) {n : Nat}
    (hn : n < count) {tcp : TcpPacketView} (hview : views n = some tcp)
    (hopen : ¬ IsOpening tcp) (habsent : tables n tcp.key = none) :
    tables (n + 1) = tables n ∧ replies n = none := by
  obtain ⟨hnext, hreply⟩ := run.plain_step hn hview hopen
  rw [habsent] at hnext hreply
  refine ⟨hnext.trans ?_, hreply⟩
  exact Function.update_eq_self_iff.mpr habsent.symm

end FlowRun

section Engines

variable {config : PacketEngineConfig} {packets : List RawPacket}

/-- A segment that opens nothing is treated alike by both engines. -/
theorem cpuFlowStep_plain (room : Prop) [Decidable room] (key : FlowKey) (entry : Option Flow)
    {tcp : TcpPacketView} (hopen : ¬ IsOpening tcp) :
    cpuFlowStep room key entry tcp = plainStep entry tcp := by
  cases entry with
  | none => exact cpuFlowStep_absent room key hopen
  | some flow =>
      by_cases hreset : IsReset tcp
      · rw [cpuFlowStep_reset room key _ hreset]
        exact (if_pos hreset).symm
      · rw [cpuFlowStep_segment room key flow hreset hopen]
        exact (if_neg hreset).symm

theorem CpuRun.flowRun {tables : Nat → FlowTable} {outputs : Nat → Option RawPacket}
    (run : CpuRun config packets tables outputs) :
    FlowRun (fun n tcp entry => cpuFlowStep ((tables n).keys.card < config.flowCapacity) tcp.key
        entry tcp)
      (viewAt config packets) (fun n => entries (tables n)) (replyAt config packets tables)
      packets.length where
  ignored := by
    intro n hn hview
    have hstep := run.engineRun.step n hn
    unfold PacketRule at hstep
    rw [hview] at hstep
    exact hstep
  step := by
    intro n tcp hn hview
    obtain ⟨hnext, hreply, -⟩ := run.step_listened hn hview
    rw [hnext, entries_setEntry]
    exact ⟨rfl, hreply⟩
  plain := fun _ _ entry hopen => cpuFlowStep_plain _ _ entry hopen
  repeated := by
    intro n tcp flow hopen hreset hstate
    have hkeep : reopen tcp.key flow tcp.seq = flow :=
      if_neg (fun h => by rw [hstate] at h; cases h.1)
    rw [cpuFlowStep_reopen _ _ flow hreset hopen, hkeep]

namespace Shader

theorem shaderFlowStep_plain (room : Bool) (key : FlowKey) (entry : Option Flow)
    {tcp : TcpPacketView} (hopen : ¬ IsOpening tcp) :
    shaderFlowStep room key entry tcp = plainStep entry tcp := by
  cases entry with
  | none => exact shaderFlowStep_absent room key hopen
  | some flow =>
      by_cases hreset : IsReset tcp
      · rw [shaderFlowStep_reset room key flow hopen hreset]
        exact (if_pos hreset).symm
      · rw [shaderFlowStep_segment room key flow hopen hreset]
        exact (if_neg hreset).symm

theorem ShaderRun.flowRun {flows : Nat → Flows} {outputs : Nat → Option (List UInt8)}
    (valid : ValidConfig config) (run : ShaderRun config packets flows outputs) :
    FlowRun (fun n tcp entry => shaderFlowStep (hasVacancy config (flows n) tcp.key) tcp.key entry
        tcp)
      (viewAt config packets) (fun n => shaderEntries config (flows n))
      (shaderReplyAt config packets flows) packets.length where
  ignored := by
    intro n hn hview
    have hstep := (run.engineRun valid.capacity_power valid.capacity_fits).step n hn
    unfold PacketRule at hstep
    rw [hview] at hstep
    exact hstep
  step := by
    intro n tcp hn hview
    obtain ⟨hnext, hreply, -, -⟩ :=
      run.step_listened valid.capacity_power valid.capacity_fits hn hview
    exact ⟨hnext, hreply⟩
  plain := fun _ _ entry hopen => shaderFlowStep_plain _ _ entry hopen
  repeated := fun _ _ flow hopen _ _ => shaderFlowStep_repeated _ _ flow hopen

end Shader

end Engines

end Packet
end Gput
