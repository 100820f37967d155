import Gput.Library.Tiling
import Gput.Packet.CpuRun

/-!
# Stream accounting

What the CPU engine keeps about a flow, against the history of the flow.  From
the SYN that creates an entry to its removal, the segments classified as
requests tile the client's sequence space, the fresh responses tile the
server's, and whatever is sent again is the most recent fresh response.  The
entry's `recvNext` and `sendNext` are the ends of the two tilings.
-/

namespace Gput
namespace Packet

open Tiling

/-- The segment is data in order on a flow that is, or is hereby, established:
the engine classifies it as a request. -/
def TakesRequest : Option Flow → TcpPacketView → Prop
  | none, _ => False
  | some flow, tcp =>
      ¬ IsReset tcp ∧ ¬ IsOpening tcp ∧
        (flow.state = .established ∨ CompletesHandshake flow tcp) ∧
        tcp.seq = flow.recvNext ∧ tcp.payload ≠ []

instance (entry : Option Flow) (tcp : TcpPacketView) : Decidable (TakesRequest entry tcp) :=
  match entry with
  | none => inferInstanceAs (Decidable False)
  | some _ => inferInstanceAs (Decidable (_ ∧ _))

/-- The reply that repeats a response. -/
def repeatedReply (last : LastResponse) : Reply where
  seq := last.responseSeq
  ack := last.responseAck
  flags := tcpAck ||| tcpPsh
  response := some last.responseId

/-- The four things a segment can do to a flow: close it, start its handshake
over, leave its sequence numbers alone, or be answered as a request. -/
inductive Progress (key : FlowKey) (flow : Flow) (tcp : TcpPacketView) :
    Option Flow → Option Reply → Prop
  | closed (reply : Option Reply) (hrequest : ¬ TakesRequest (some flow) tcp)
      (hreply : ∀ r, reply = some r → r.response = none) :
      Progress key flow tcp none reply
  | restarted (hopen : IsOpening tcp) (hstate : flow.state = .synReceived) :
      Progress key flow tcp (some (reopen key flow tcp.seq))
        (some (openingReply (reopen key flow tcp.seq)))
  | kept (flow' : Flow) (reply : Option Reply) (hrequest : ¬ TakesRequest (some flow) tcp)
      (hopen : flow.state = .synReceived → ¬ IsOpening tcp)
      (hstate : flow'.state = .synReceived → flow.state = .synReceived)
      (hrecv : flow'.recvNext = flow.recvNext) (hsend : flow'.sendNext = flow.sendNext)
      (hlast : flow'.lastResponse = flow.lastResponse)
      (hreply : ∀ r, reply = some r → r.response = none ∨
        ∃ last, flow.lastResponse = some last ∧ r = repeatedReply last) :
      Progress key flow tcp (some flow') reply
  | answered (flow' : Flow) (entry : Option Flow) (hrequest : TakesRequest (some flow) tcp)
      (hsend : flow'.sendNext = flow.sendNext) (hstate : flow'.state = .established)
      (hentry : entry = if tcp.flags &&& tcpFin ≠ 0 then none else some (answeredFlow flow' tcp)) :
      Progress key flow tcp entry (some (answer flow' tcp))

theorem outOfOrderReply_cases (flow : Flow) (tcp : TcpPacketView) :
    (outOfOrderReply flow tcp).response = none ∨
      ∃ last, flow.lastResponse = some last ∧ outOfOrderReply flow tcp = repeatedReply last := by
  unfold outOfOrderReply
  cases hlast : flow.lastResponse with
  | none => exact Or.inl rfl
  | some last =>
      by_cases h : tcp.seq = last.clientSeq ∧ tcp.payload.length = last.clientLen
      · exact Or.inr ⟨last, rfl, if_pos h⟩
      · exact Or.inl (by simp [h])

/-- A segment on an established flow, seen from the flow before the handshake
and the acknowledgement were noted. -/
theorem establishedStep_progress (key : FlowKey) {flow flow' : Flow} {tcp : TcpPacketView}
    (hreset : ¬ IsReset tcp) (hopen : ¬ IsOpening tcp)
    (hdone : flow.state = .established ∨ CompletesHandshake flow tcp)
    (hstate : flow'.state = .established) (hrecv : flow'.recvNext = flow.recvNext)
    (hsend : flow'.sendNext = flow.sendNext) (hlast : flow'.lastResponse = flow.lastResponse) :
    Progress key flow tcp (establishedStep flow' tcp).1 (establishedStep flow' tcp).2 := by
  have hnew : flow'.state = .synReceived → flow.state = .synReceived := by
    rw [hstate]
    intro h
    cases h
  unfold establishedStep
  by_cases hseq : tcp.seq ≠ flow'.recvNext
  · rw [if_pos hseq]
    refine .kept flow' _ (fun h => hseq (hrecv ▸ h.2.2.2.1)) (fun _ => hopen) hnew hrecv hsend
      hlast ?_
    intro r hr
    cases hr
    rw [← hlast]
    exact outOfOrderReply_cases flow' tcp
  rw [if_neg hseq]
  by_cases hempty : tcp.payload = []
  · have hrequest : ¬ TakesRequest (some flow) tcp := fun h => h.2.2.2.2 hempty
    rw [if_pos hempty]
    by_cases hfin : tcp.flags &&& tcpFin = 0
    · rw [if_pos hfin]
      exact .kept flow' none hrequest (fun _ => hopen) hnew hrecv hsend hlast
        (fun r hr => by cases hr)
    · rw [if_neg hfin]
      exact .closed _ hrequest (fun r hr => by cases hr; rfl)
  · have hseq' : tcp.seq = flow.recvNext := hrecv ▸ not_not.mp hseq
    rw [if_neg hempty]
    exact .answered flow' _ ⟨hreset, hopen, hdone, hseq', hempty⟩ hsend hstate rfl

/-- What the engine does to a flow is one of the four. -/
theorem cpuFlowStep_progress (room : Prop) [Decidable room] (key : FlowKey) (flow : Flow)
    (tcp : TcpPacketView) :
    Progress key flow tcp (cpuFlowStep room key (some flow) tcp).1
      (cpuFlowStep room key (some flow) tcp).2 := by
  by_cases hreset : IsReset tcp
  · rw [cpuFlowStep_reset _ _ _ hreset]
    exact .closed none (fun h => h.1 hreset) (fun r hr => by cases hr)
  by_cases hopen : IsOpening tcp
  · rw [cpuFlowStep_reopen _ _ _ hreset hopen]
    cases hstate : flow.state with
    | synReceived => exact .restarted hopen hstate
    | established =>
        have hsame : reopen key flow tcp.seq = flow := by
          rw [reopen, if_neg (fun h => by rw [hstate] at h; cases h.1)]
        rw [hsame]
        refine .kept flow _ (fun h => h.2.1 hopen) ?_ id rfl rfl rfl ?_
        · intro h
          rw [hstate] at h
          cases h
        · intro r hr
          cases hr
          rw [openingReply, hstate]
          exact Or.inl rfl
  rw [cpuFlowStep_segment _ _ _ hreset hopen]
  cases hstate : flow.state with
  | established =>
      rw [segmentStep_established flow tcp hstate]
      exact establishedStep_progress key hreset hopen (Or.inl hstate) (by simpa using hstate)
        (by simp) (by simp) (by simp)
  | synReceived =>
      rcases segmentStep_halfOpen flow tcp hstate with ⟨hdone, hstep⟩ | ⟨hdone, hstep⟩
      · rw [hstep]
        exact establishedStep_progress key hreset hopen (Or.inr hdone) (by simp) (by simp)
          (by simp) (by simp)
      · rw [hstep]
        refine .kept flow none ?_ (fun _ => hopen) id rfl rfl rfl (fun r hr => by cases hr)
        rintro ⟨-, -, h | h, -⟩
        · rw [hstate] at h
          cases h
        · exact hdone h

section History

variable (config : PacketEngineConfig) (packets : List RawPacket)
variable (tables : Nat → FlowTable) (outputs : Nat → Option RawPacket) (key : FlowKey)

/-- The segment of the key that packet `n` is, if any. -/
def segmentAt (n : Nat) : Option TcpPacketView :=
  (viewAt config packets n).filter fun tcp => tcp.key = key

/-- The request that packet `n` is, if any. -/
def requestAt (n : Nat) : Option TcpPacketView :=
  (segmentAt config packets key n).filter fun tcp => TakesRequest (entries (tables n) key) tcp

/-- The response to the request that packet `n` is, if any. -/
def responseAt (n : Nat) : Option TcpPacketView :=
  (requestAt config packets tables key n).bind fun _ => (outputs n).bind parsed

/-- The requests of the steps from `m` up to `n`, in order. -/
def requests (m n : Nat) : List TcpPacketView :=
  (List.range' m (n - m)).filterMap (requestAt config packets tables key)

/-- The responses of the steps from `m` up to `n`, in order. -/
def responses (m n : Nat) : List TcpPacketView :=
  (List.range' m (n - m)).filterMap (responseAt config packets tables outputs key)

/-- The parts of the sequence space that segments occupy. -/
def spans (views : List TcpPacketView) : List (UInt32 × UInt32) :=
  views.map fun tcp => (tcp.seq, UInt32.ofNat tcp.payload.length)

/-- Packet `n` is a SYN of the key, before the handshake of its entry. -/
def HalfOpenSyn (n : Nat) (seq : UInt32) : Prop :=
  ∃ tcp, segmentAt config packets key n = some tcp ∧ IsOpening tcp ∧ tcp.seq = seq ∧
    ∀ flow, entries (tables n) key = some flow → flow.state = .synReceived

/-- The last SYN before the handshake, among the steps from `m` up to `n`. -/
def LastSyn (m n : Nat) (seq : UInt32) : Prop :=
  ∃ i, m ≤ i ∧ i < n ∧ HalfOpenSyn config packets tables key i seq ∧
    ∀ j other, i < j → j < n → ¬ HalfOpenSyn config packets tables key j other

/-- Packet `i` is the last request among the steps from `m` up to `n`. -/
def LastRequest (m n i : Nat) : Prop :=
  m ≤ i ∧ i < n ∧ requestAt config packets tables key i ≠ none ∧
    ∀ j, i < j → j < n → requestAt config packets tables key j = none

/-- Step `m` creates the entry of the key, and the steps up to `n` are its own:
the entry is there before each of them. -/
def Incarnation (m n : Nat) : Prop :=
  m < n ∧ entries (tables m) key = none ∧ entries (tables (m + 1)) key ≠ none ∧
    ∀ j, m < j → j < n → entries (tables j) key ≠ none

/-- What holds of the steps of an incarnation: `base` is the sequence number of
the client's last SYN before the handshake. -/
structure Tally (m n : Nat) (base : UInt32) : Prop where
  syn : LastSyn config packets tables key m n base
  requests_tile : Tiles (base + 1) (spans (requests config packets tables key m n))
  responses_tile :
    Tiles (serverIsn key + 1) (spans (responses config packets tables outputs key m n))
  answered : (responses config packets tables outputs key m n).length =
    (requests config packets tables key m n).length
  repeats : ∀ j, m ≤ j → j < n → requestAt config packets tables key j = none →
    segmentAt config packets key j ≠ none →
    ∀ out view, outputs j = some out → parsed out = some view → view.payload ≠ [] →
      ∃ i, LastRequest config packets tables key m j i ∧ outputs i = some out

/-- What moreover holds of the entry that an incarnation leaves. -/
structure Balance (m n : Nat) (base : UInt32) (flow : Flow) : Prop where
  tally : Tally config packets tables outputs key m n base
  recvNext_eq :
    flow.recvNext = tilesEnd (base + 1) (spans (requests config packets tables key m n))
  sendNext_eq : flow.sendNext =
    tilesEnd (serverIsn key + 1) (spans (responses config packets tables outputs key m n))
  idle : flow.state = .synReceived →
    requests config packets tables key m n = [] ∧ flow.lastResponse = none
  remembers : ∀ last, flow.lastResponse = some last →
    ∃ i, LastRequest config packets tables key m n i ∧
      outputs i = some (cpuReplyPacket key (repeatedReply last))

end History

section Steps

variable {config : PacketEngineConfig} {packets : List RawPacket}
variable {tables : Nat → FlowTable} {outputs : Nat → Option RawPacket} {key : FlowKey}

theorem filterMap_range'_succ {α : Type} (f : Nat → Option α) {m n : Nat} (h : m ≤ n) :
    (List.range' m (n + 1 - m)).filterMap f =
      (List.range' m (n - m)).filterMap f ++ (f n).toList := by
  rw [show n + 1 - m = (n - m) + 1 by omega, List.range'_1_concat, List.filterMap_append,
    show m + (n - m) = n by omega]
  cases hf : f n <;> simp [hf]

theorem requests_succ {m n : Nat} (h : m ≤ n) :
    requests config packets tables key m (n + 1) =
      requests config packets tables key m n ++
        (requestAt config packets tables key n).toList :=
  filterMap_range'_succ _ h

theorem responses_succ {m n : Nat} (h : m ≤ n) :
    responses config packets tables outputs key m (n + 1) =
      responses config packets tables outputs key m n ++
        (responseAt config packets tables outputs key n).toList :=
  filterMap_range'_succ _ h

theorem LastSyn.keep {m n : Nat} {seq : UInt32} (h : LastSyn config packets tables key m n seq)
    (hnot : ∀ other, ¬ HalfOpenSyn config packets tables key n other) :
    LastSyn config packets tables key m (n + 1) seq := by
  obtain ⟨i, hmi, hin, hsyn, hlater⟩ := h
  refine ⟨i, hmi, by omega, hsyn, ?_⟩
  intro j other hij hj
  rcases Nat.lt_or_eq_of_le (Nat.le_of_lt_succ hj) with hlt | heq
  · exact hlater j other hij hlt
  · exact heq ▸ hnot other

theorem LastSyn.here {m n : Nat} {seq : UInt32} (hmn : m ≤ n)
    (h : HalfOpenSyn config packets tables key n seq) :
    LastSyn config packets tables key m (n + 1) seq :=
  ⟨n, hmn, Nat.lt_succ_self n, h, fun j _ h1 h2 => absurd h2 (by omega)⟩

theorem LastRequest.keep {m n i : Nat} (h : LastRequest config packets tables key m n i)
    (hnot : requestAt config packets tables key n = none) :
    LastRequest config packets tables key m (n + 1) i := by
  obtain ⟨hmi, hin, hrequest, hlater⟩ := h
  refine ⟨hmi, by omega, hrequest, ?_⟩
  intro j hij hj
  rcases Nat.lt_or_eq_of_le (Nat.le_of_lt_succ hj) with hlt | heq
  · exact hlater j hij hlt
  · exact heq ▸ hnot

theorem LastRequest.here {m n : Nat} (hmn : m ≤ n)
    (h : requestAt config packets tables key n ≠ none) :
    LastRequest config packets tables key m (n + 1) n :=
  ⟨hmn, Nat.lt_succ_self n, h, fun j h1 h2 => absurd h2 (by omega)⟩

/-- The packet a reply goes out in, read back. -/
theorem parsed_cpuReplyPacket (reply : Reply) :
    parsed (cpuReplyPacket key reply) =
      some { key := key.reply, seq := reply.seq, ack := reply.ack, flags := reply.flags,
             payload := (reply.response.map cpuResponse).getD [] } :=
  parsed_builtPacket _ _

/-- A half-open flow that an opening segment started over. -/
theorem reopen_fields (key : FlowKey) {flow : Flow} (seq : UInt32)
    (hstate : flow.state = .synReceived) (hsend : flow.sendNext = serverIsn key + 1)
    (hlast : flow.lastResponse = none) :
    (reopen key flow seq).state = .synReceived ∧ (reopen key flow seq).recvNext = seq + 1 ∧
      (reopen key flow seq).sendNext = serverIsn key + 1 ∧
      (reopen key flow seq).lastResponse = none := by
  by_cases h : flow.recvNext = seq + 1
  · rw [reopen, if_neg (fun hc => hc.2 h)]
    exact ⟨hstate, h, hsend, hlast⟩
  · rw [reopen, if_pos ⟨hstate, h⟩]
    exact ⟨rfl, rfl, rfl, rfl⟩

/-- A reply without a response carries no payload. -/
theorem payload_eq_nil {reply : Reply} {view : TcpPacketView}
    (hparsed : parsed (cpuReplyPacket key reply) = some view) (hnone : reply.response = none) :
    view.payload = [] := by
  rw [parsed_cpuReplyPacket] at hparsed
  cases hparsed
  simp [hnone]

variable (outputs) in
/-- A step that is no request adds nothing to the lists. -/
theorem lists_quiet {m n : Nat} (hmn : m ≤ n)
    (hrequest : requestAt config packets tables key n = none) :
    requests config packets tables key m (n + 1) = requests config packets tables key m n ∧
      responses config packets tables outputs key m (n + 1) =
        responses config packets tables outputs key m n := by
  have hresponse : responseAt config packets tables outputs key n = none := by
    rw [responseAt, hrequest]
    rfl
  rw [requests_succ hmn, responses_succ hmn, hrequest, hresponse]
  exact ⟨List.append_nil _, List.append_nil _⟩

/-- A step that is no request and repeats nothing but the last response extends
the tally. -/
theorem Tally.quiet {m n : Nat} {base base' : UInt32}
    (h : Tally config packets tables outputs key m n base) (hmn : m ≤ n)
    (hrequest : requestAt config packets tables key n = none)
    (hsyn : LastSyn config packets tables key m (n + 1) base')
    (htile : Tiles (base' + 1) (spans (requests config packets tables key m n)))
    (hrepeat : ∀ out view, outputs n = some out → parsed out = some view →
      view.payload ≠ [] → segmentAt config packets key n ≠ none →
        ∃ i, LastRequest config packets tables key m n i ∧ outputs i = some out) :
    Tally config packets tables outputs key m (n + 1) base' := by
  obtain ⟨hrequests, hresponses⟩ := lists_quiet outputs hmn hrequest
  constructor
  · exact hsyn
  · rw [hrequests]
    exact htile
  · rw [hresponses]
    exact h.responses_tile
  · rw [hrequests, hresponses]
    exact h.answered
  · intro j hmj hj hnone hseg out view hout hview hpayload
    rcases Nat.lt_or_eq_of_le (Nat.le_of_lt_succ hj) with hlt | heq
    · exact h.repeats j hmj hlt hnone hseg out view hout hview hpayload
    · subst heq
      exact hrepeat out view hout hview hpayload hseg

/-- A step that is no request and leaves the entry's sequence numbers at the ends
of the tilings keeps the balance. -/
theorem Balance.quiet {m n : Nat} {base base' : UInt32} {flow flow' : Flow}
    (h : Balance config packets tables outputs key m n base flow) (hmn : m ≤ n)
    (hrequest : requestAt config packets tables key n = none)
    (htally : Tally config packets tables outputs key m (n + 1) base')
    (hrecv : flow'.recvNext =
      tilesEnd (base' + 1) (spans (requests config packets tables key m n)))
    (hsend : flow'.sendNext = flow.sendNext)
    (hstate : flow'.state = .synReceived → flow.state = .synReceived)
    (hlast : flow'.lastResponse = flow.lastResponse) :
    Balance config packets tables outputs key m (n + 1) base' flow' := by
  obtain ⟨hrequests, hresponses⟩ := lists_quiet outputs hmn hrequest
  constructor
  · exact htally
  · rw [hrequests]
    exact hrecv
  · rw [hresponses, hsend]
    exact h.sendNext_eq
  · intro hhalf
    rw [hrequests, hlast]
    exact h.idle (hstate hhalf)
  · intro last hsome
    rw [hlast] at hsome
    obtain ⟨i, hi, hout⟩ := h.remembers last hsome
    exact ⟨i, hi.keep hrequest, hout⟩

/-- A packet of another flow keeps the balance. -/
theorem Balance.other {m n : Nat} {base : UInt32} {flow : Flow}
    (h : Balance config packets tables outputs key m n base flow) (hmn : m ≤ n)
    (hseg : segmentAt config packets key n = none) :
    Balance config packets tables outputs key m (n + 1) base flow := by
  have hrequest : requestAt config packets tables key n = none := by
    rw [requestAt, hseg]
    rfl
  have hsyn : ∀ other, ¬ HalfOpenSyn config packets tables key n other := by
    rintro other ⟨tcp, htcp, -⟩
    rw [hseg] at htcp
    cases htcp
  exact h.quiet hmn hrequest
    (h.tally.quiet hmn hrequest (h.tally.syn.keep hsyn) h.tally.requests_tile
      (fun _ _ _ _ _ hsome => absurd hseg hsome))
    h.recvNext_eq rfl id rfl

/-- One segment of the flow extends the tally, and keeps the balance of the entry
it leaves. -/
theorem Balance.segment {m n : Nat} {base : UInt32} {flow : Flow} {tcp : TcpPacketView}
    {entry : Option Flow} {reply : Option Reply}
    (h : Balance config packets tables outputs key m n base flow) (hmn : m ≤ n)
    (hbefore : entries (tables n) key = some flow)
    (hseg : segmentAt config packets key n = some tcp)
    (hprogress : Progress key flow tcp entry reply)
    (hout : outputs n = reply.map (cpuReplyPacket key)) :
    ∃ base', Tally config packets tables outputs key m (n + 1) base' ∧
      ∀ flow', entry = some flow' →
        Balance config packets tables outputs key m (n + 1) base' flow' := by
  have hrequestAt : requestAt config packets tables key n =
      if TakesRequest (some flow) tcp then some tcp else none := by
    rw [requestAt, hseg, hbefore, Option.filter_some]
    simp only [decide_eq_true_eq]
  -- a SYN before the handshake is the new base; the tallied lists are then empty
  have rebase (hopen : IsOpening tcp) (hstate : flow.state = .synReceived) :
      LastSyn config packets tables key m (n + 1) tcp.seq ∧
        Tiles (tcp.seq + 1) (spans (requests config packets tables key m n)) := by
    refine ⟨LastSyn.here hmn ⟨tcp, hseg, hopen, rfl, ?_⟩, ?_⟩
    · intro other hother
      rw [hbefore] at hother
      cases hother
      exact hstate
    · rw [(h.idle hstate).1]
      trivial
  have hnotSyn (hnot : flow.state = .synReceived → ¬ IsOpening tcp) :
      ∀ other, ¬ HalfOpenSyn config packets tables key n other := by
    rintro other ⟨tcp', htcp', hopen, -, hall⟩
    rw [hseg] at htcp'
    cases htcp'
    exact hnot (hall flow hbefore) hopen
  cases hprogress with
  | closed _ hrequest hreply =>
      rw [if_neg hrequest] at hrequestAt
      have hrepeat (out : RawPacket) (view : TcpPacketView) (hsome : outputs n = some out)
          (hview : parsed out = some view) (hpayload : view.payload ≠ []) :
          segmentAt config packets key n ≠ none →
            ∃ i, LastRequest config packets tables key m n i ∧ outputs i = some out := by
        rw [hout, Option.map_eq_some_iff] at hsome
        obtain ⟨r, hr, rfl⟩ := hsome
        exact absurd (payload_eq_nil hview (hreply r hr)) hpayload
      by_cases hnew : IsOpening tcp ∧ flow.state = .synReceived
      · obtain ⟨hsyn, htile⟩ := rebase hnew.1 hnew.2
        exact ⟨tcp.seq, h.tally.quiet hmn hrequestAt hsyn htile hrepeat,
          fun _ hnone => by cases hnone⟩
      · refine ⟨base, h.tally.quiet hmn hrequestAt
          (h.tally.syn.keep (hnotSyn fun hs ho => hnew ⟨ho, hs⟩)) h.tally.requests_tile hrepeat,
          fun _ hnone => by cases hnone⟩
  | restarted hopen hstate =>
      have hrequest : ¬ TakesRequest (some flow) tcp := fun hr => hr.2.1 hopen
      rw [if_neg hrequest] at hrequestAt
      obtain ⟨hnone, hlast⟩ := h.idle hstate
      have hsend : flow.sendNext = serverIsn key + 1 := by
        have hanswered := h.tally.answered
        rw [hnone] at hanswered
        rw [h.sendNext_eq, List.eq_nil_of_length_eq_zero hanswered]
        rfl
      obtain ⟨hstate', hrecv', hsend', hlast'⟩ := reopen_fields key tcp.seq hstate hsend hlast
      obtain ⟨hsyn, htile⟩ := rebase hopen hstate
      have htally := h.tally.quiet hmn hrequestAt hsyn htile (by
        intro out view hsome hview hpayload
        rw [hout] at hsome
        cases hsome
        refine absurd (payload_eq_nil hview ?_) hpayload
        rw [openingReply, hstate'])
      refine ⟨tcp.seq, htally, ?_⟩
      intro flow' hflow'
      cases hflow'
      refine h.quiet hmn hrequestAt htally ?_ (hsend'.trans hsend.symm) (fun _ => hstate)
        (hlast'.trans hlast.symm)
      rw [hrecv', hnone]
      rfl
  | kept flow' _ hrequest hopen hstate hrecv hsend hlast hreply =>
      rw [if_neg hrequest] at hrequestAt
      have htally := h.tally.quiet hmn hrequestAt (h.tally.syn.keep (hnotSyn hopen))
        h.tally.requests_tile (by
          intro out view hsome hview hpayload _
          rw [hout, Option.map_eq_some_iff] at hsome
          obtain ⟨r, hr, rfl⟩ := hsome
          rcases hreply r hr with hnone | ⟨last, hremembered, rfl⟩
          · exact absurd (payload_eq_nil hview hnone) hpayload
          · exact h.remembers last hremembered)
      refine ⟨base, htally, ?_⟩
      intro other hother
      cases hother
      exact h.quiet hmn hrequestAt htally (hrecv.trans h.recvNext_eq) hsend hstate hlast
  | answered flow' _ hrequest hsend hstate hentry =>
      rw [if_pos hrequest] at hrequestAt
      obtain ⟨-, hopen, -, hseq, -⟩ := id hrequest
      have hresponseAt : responseAt config packets tables outputs key n =
          some { key := key.reply, seq := flow'.sendNext, ack := nextAck tcp,
                 flags := tcpAck ||| tcpPsh,
                 payload := cpuResponse (classifyHttpRequest tcp.payload) } := by
        rw [responseAt, hrequestAt, hout]
        exact parsed_cpuReplyPacket _
      have hrequests : spans (requests config packets tables key m (n + 1)) =
          spans (requests config packets tables key m n) ++
            [(tcp.seq, UInt32.ofNat tcp.payload.length)] := by
        rw [requests_succ hmn, hrequestAt, spans, List.map_append]
        rfl
      have hresponses : spans (responses config packets tables outputs key m (n + 1)) =
          spans (responses config packets tables outputs key m n) ++
            [(flow'.sendNext,
              UInt32.ofNat (packetResponse (classifyHttpRequest tcp.payload)).length)] := by
        rw [responses_succ hmn, hresponseAt, spans, List.map_append, ← cpuResponse_length]
        rfl
      have htally : Tally config packets tables outputs key m (n + 1) base := by
        constructor
        · exact h.tally.syn.keep (hnotSyn fun _ => hopen)
        · rw [hrequests, tiles_append]
          exact ⟨h.tally.requests_tile, hseq.trans h.recvNext_eq⟩
        · rw [hresponses, tiles_append]
          exact ⟨h.tally.responses_tile, hsend.trans h.sendNext_eq⟩
        · rw [requests_succ hmn, responses_succ hmn, hrequestAt, hresponseAt,
            List.length_append, List.length_append, h.tally.answered]
          rfl
        · intro j hmj hj hnone hsegj out view houtj hview hpayload
          rcases Nat.lt_or_eq_of_le (Nat.le_of_lt_succ hj) with hlt | heq
          · exact h.tally.repeats j hmj hlt hnone hsegj out view houtj hview hpayload
          · rw [heq, hrequestAt] at hnone
            cases hnone
      refine ⟨base, htally, ?_⟩
      intro other hother
      rw [hentry] at hother
      split_ifs at hother with hfin
      cases hother
      have hnext : nextAck tcp = tcp.seq + UInt32.ofNat tcp.payload.length := by
        rw [nextAck, if_neg hfin, UInt32.add_zero]
      constructor
      · exact htally
      · rw [hrequests, tilesEnd_append, ← h.recvNext_eq, answeredFlow_recvNext, hnext, hseq]
      · rw [hresponses, tilesEnd_append, ← h.sendNext_eq, ← hsend]
        rfl
      · intro hhalf
        rw [answeredFlow_state, hstate] at hhalf
        cases hhalf
      · intro last hlast
        cases hlast
        exact ⟨n, LastRequest.here hmn (by simp [hrequestAt]), hout⟩

end Steps

section Runs

variable {config : PacketEngineConfig} {packets : List RawPacket}
variable {tables : Nat → FlowTable} {outputs : Nat → Option RawPacket} {key : FlowKey}

namespace CpuRun

/-- A packet that is no segment of the key leaves its entry alone. -/
theorem entry_of_other (run : CpuRun config packets tables outputs) {n : Nat}
    (hn : n < packets.length) (hseg : segmentAt config packets key n = none) :
    entries (tables (n + 1)) key = entries (tables n) key := by
  cases hview : viewAt config packets n with
  | none => rw [(run.step_unlistened hn hview).1]
  | some tcp =>
      obtain ⟨hnext, -, -⟩ := run.step_listened hn hview
      have hkey : key ≠ tcp.key := by
        intro h
        rw [segmentAt, hview, Option.filter_some] at hseg
        simp [h] at hseg
      rw [hnext, entries_setEntry, Function.update_of_ne hkey]

/-- A segment of the key is one step of its flow. -/
theorem step_segment (run : CpuRun config packets tables outputs) {n : Nat}
    (hn : n < packets.length) {tcp : TcpPacketView}
    (hseg : segmentAt config packets key n = some tcp) :
    ∃ reply, (entries (tables (n + 1)) key, reply) =
        cpuFlowStep ((tables n).keys.card < config.flowCapacity) key
          (entries (tables n) key) tcp ∧
      outputs n = reply.map (cpuReplyPacket key) := by
  rw [segmentAt, Option.filter_eq_some_iff, decide_eq_true_eq] at hseg
  obtain ⟨hview, hkey⟩ := hseg
  obtain ⟨hnext, hreply, hout⟩ := run.step_listened hn hview
  subst hkey
  refine ⟨replyAt config packets tables n, ?_, hout⟩
  rw [hnext, hreply, entries_setEntry, Function.update_self]

/-- The step that creates an entry starts its tally. -/
theorem balance_created (run : CpuRun config packets tables outputs) {m : Nat}
    (hm : m < packets.length) (habsent : entries (tables m) key = none)
    (hcreated : entries (tables (m + 1)) key ≠ none) :
    ∃ base, Tally config packets tables outputs key m (m + 1) base ∧
      ∀ flow, entries (tables (m + 1)) key = some flow →
        Balance config packets tables outputs key m (m + 1) base flow := by
  have hrequest : requestAt config packets tables key m = none := by
    rw [requestAt, habsent]
    cases segmentAt config packets key m with
    | none => rfl
    | some tcp => exact Option.filter_some
  have hempty : requests config packets tables key m m = [] ∧
      responses config packets tables outputs key m m = [] := by
    simp [requests, responses]
  obtain ⟨hrequests, hresponses⟩ := lists_quiet outputs (le_refl m) hrequest
  rw [hempty.1] at hrequests
  rw [hempty.2] at hresponses
  cases hseg : segmentAt config packets key m with
  | none => exact absurd (habsent ▸ run.entry_of_other hm hseg) hcreated
  | some tcp =>
      obtain ⟨reply, hstep, hout⟩ := run.step_segment hm hseg
      rw [habsent] at hstep
      by_cases hreset : IsReset tcp
      · rw [cpuFlowStep_reset _ _ _ hreset] at hstep
        exact absurd (congrArg Prod.fst hstep) hcreated
      by_cases hopen : IsOpening tcp
      · rw [cpuFlowStep_open _ _ hreset hopen] at hstep
        split_ifs at hstep with hroom
        · obtain ⟨hentry, hreply⟩ := Prod.mk.inj hstep
          have htally : Tally config packets tables outputs key m (m + 1) tcp.seq := by
            constructor
            · refine LastSyn.here (le_refl m) ⟨tcp, hseg, hopen, rfl, ?_⟩
              intro flow hflow
              rw [habsent] at hflow
              cases hflow
            · rw [hrequests]
              trivial
            · rw [hresponses]
              trivial
            · rw [hrequests, hresponses]
            · intro j hmj hj _ _ out view hsome hview hpayload
              have : j = m := by omega
              subst this
              rw [hout, hreply] at hsome
              cases hsome
              exact absurd (payload_eq_nil hview rfl) hpayload
          refine ⟨tcp.seq, htally, ?_⟩
          intro flow hflow
          rw [hentry] at hflow
          cases hflow
          constructor
          · exact htally
          · rw [hrequests]
            rfl
          · rw [hresponses]
            rfl
          · intro _
            exact ⟨hrequests, rfl⟩
          · intro last hlast
            cases hlast
        · exact absurd (congrArg Prod.fst hstep) hcreated
      · rw [cpuFlowStep_absent _ _ hopen] at hstep
        exact absurd (congrArg Prod.fst hstep) hcreated

/-- The tally of every incarnation, and the balance of the entry it leaves. -/
theorem balance (run : CpuRun config packets tables outputs) {m : Nat} :
    ∀ n, n ≤ packets.length → Incarnation tables key m n →
      ∃ base, Tally config packets tables outputs key m n base ∧
        ∀ flow, entries (tables n) key = some flow →
          Balance config packets tables outputs key m n base flow
  | 0, _, h => absurd h.1 (Nat.not_lt_zero m)
  | n + 1, hn, h => by
      obtain ⟨hmn, habsent, hcreated, hthere⟩ := h
      by_cases hfirst : m = n
      · subst hfirst
        exact run.balance_created hn habsent hcreated
      have hlt : m < n := by omega
      have hpresent := hthere n hlt (Nat.lt_succ_self n)
      obtain ⟨base, -, hbalance⟩ := balance run n (by omega)
        ⟨hlt, habsent, hcreated, fun j hmj hj => hthere j hmj (by omega)⟩
      obtain ⟨flow, hbefore⟩ := Option.ne_none_iff_exists'.mp hpresent
      have hflow := hbalance flow hbefore
      cases hseg : segmentAt config packets key n with
      | none =>
          have hsame := run.entry_of_other hn hseg
          have hnext := hflow.other (Nat.le_of_lt hlt) hseg
          refine ⟨base, hnext.tally, ?_⟩
          intro flow' hflow'
          rw [hsame, hbefore] at hflow'
          cases hflow'
          exact hnext
      | some tcp =>
          obtain ⟨reply, hstep, hout⟩ := run.step_segment hn hseg
          rw [hbefore] at hstep
          have hprogress := cpuFlowStep_progress
            ((tables n).keys.card < config.flowCapacity) key flow tcp
          rw [← hstep] at hprogress
          exact hflow.segment (Nat.le_of_lt hlt) hbefore hseg hprogress hout

end CpuRun

/-- **Stream accounting.**  In every run of the CPU engine, the requests of every
incarnation of a flow tile the client's sequence space from behind its last SYN,
the fresh responses tile the server's, everything sent again is the most recent
fresh response, and the entry still present stands at the ends of both tilings;
the table stays within its capacity and holds flows to the listening port only. -/
theorem stream_accounting (run : CpuRun config packets tables outputs) :
    (∀ key m n, n ≤ packets.length → Incarnation tables key m n →
      ∃ base, Tally config packets tables outputs key m n base ∧
        ∀ flow, entries (tables n) key = some flow →
          flow.recvNext =
              tilesEnd (base + 1) (spans (requests config packets tables key m n)) ∧
            flow.sendNext = tilesEnd (serverIsn key + 1)
              (spans (responses config packets tables outputs key m n))) ∧
      ∀ n, n ≤ packets.length → (tables n).keys.card ≤ config.flowCapacity ∧
        ∀ key ∈ (tables n).keys, key.dstPort = config.listenPort := by
  refine ⟨?_, ?_⟩
  · intro key m n hn hincarnation
    obtain ⟨base, htally, hbalance⟩ := run.balance n hn hincarnation
    refine ⟨base, htally, ?_⟩
    intro flow hflow
    exact ⟨(hbalance flow hflow).recvNext_eq, (hbalance flow hflow).sendNext_eq⟩
  · intro n hn
    refine ⟨run.card_le n hn, ?_⟩
    intro key hkey
    exact run.dstPort_eq n hn key (mem_keys_iff.mp hkey)

/-- The first client of the conversation, before its FIN and over its whole stream. -/
theorem stream_accounting_conversation :
    ∃ tables outputs, CpuRun fourSlots conversation tables outputs ∧
      Incarnation tables (clientKey 1000) 0 4 ∧
      (∃ base, Tally fourSlots conversation tables outputs (clientKey 1000) 0 4 base) ∧
      ∃ base, Tally fourSlots conversation tables outputs (clientKey 1000) 0 3 base ∧
        tilesEnd (base + 1)
          (spans (requests fourSlots conversation tables (clientKey 1000) 0 3)) = 125 := by
  obtain ⟨tables, outputs, run⟩ := cpuRun_exists fourSlots conversation
  obtain ⟨hstart, hopened, hanswered, hagain, -⟩ := run.conversation_entries
  have hpresent (n : Nat) (hn : 0 < n) (hlast : n < 4) :
      entries (tables n) (clientKey 1000) ≠ none := by
    obtain rfl | rfl | rfl : n = 1 ∨ n = 2 ∨ n = 3 := by omega
    · simp [hopened]
    · simp [hanswered]
    · simp [hagain]
  have hincarnation (n : Nat) (hn : 0 < n) (hlast : n ≤ 4) :
      Incarnation tables (clientKey 1000) 0 n :=
    ⟨hn, congrFun hstart _, hpresent 1 (by decide) (by decide),
      fun j hj hjn => hpresent j hj (by omega)⟩
  obtain ⟨base, htally, -⟩ := (stream_accounting run).1 (clientKey 1000) 0 4 (by decide)
    (hincarnation 4 (by decide) (by decide))
  obtain ⟨base', htally', hend⟩ := (stream_accounting run).1 (clientKey 1000) 0 3 (by decide)
    (hincarnation 3 (by decide) (by decide))
  have hflow : entries (tables 3) (clientKey 1000) = some (noteAck requestFlow requestView) := by
    simp [hagain]
  refine ⟨tables, outputs, run, hincarnation 4 (by decide) (by decide), ⟨base, htally⟩, base',
    htally', ?_⟩
  rw [← (hend _ hflow).1, noteAck_recvNext, requestFlow_recvNext]

end Runs

end Packet
end Gput
