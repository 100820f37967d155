import Gput.Packet.Flow
import Mathlib.Logic.Function.Basic

/-!
# The handshake, for any engine

Both packet engines treat one segment of one flow by the same few rules
(`SegmentRule`); they differ in when they reset a flow, when they find room for
a new one and whether a repeated SYN restarts a half-open one.  A run of an
engine is a sequence of tables, one packet apart, in which each packet follows
the rules at the entry of its key and leaves the other entries alone.

In such a run an entry that is established got there by a handshake: the
invariant `Grounded` points, for every entry, at the packet that created it, at
the SYN whose sequence number it expects, and at the packet that completed the
handshake.
-/

namespace Gput
namespace Packet

/-- What an engine may do with a segment of a flow; it is not bound to do anything. -/
inductive SegmentRule (key : FlowKey) :
    Option Flow → TcpPacketView → Option Flow → Option Reply → Prop
  | drop (entry : Option Flow) (tcp : TcpPacketView) :
      SegmentRule key entry tcp none none
  | ignore (entry : Option Flow) (tcp : TcpPacketView) :
      SegmentRule key entry tcp entry none
  | opened (tcp : TcpPacketView) (hopen : IsOpening tcp) :
      SegmentRule key none tcp (some (openedFlow key tcp.seq))
        (some (openingReply (openedFlow key tcp.seq)))
  | reopened (flow : Flow) (tcp : TcpPacketView) (hopen : IsOpening tcp)
      (hstate : flow.state = .synReceived) :
      SegmentRule key (some flow) tcp (some (openedFlow key tcp.seq))
        (some (openingReply (openedFlow key tcp.seq)))
  | repeated (flow : Flow) (tcp : TcpPacketView) (hopen : IsOpening tcp) :
      SegmentRule key (some flow) tcp (some flow) (some (openingReply flow))
  | segment (flow : Flow) (tcp : TcpPacketView) (hopen : ¬ IsOpening tcp) :
      SegmentRule key (some flow) tcp (segmentStep flow tcp).1 (segmentStep flow tcp).2

/-- What an engine may do with a packet: nothing, when it is not TCP for the
listening port, otherwise a step of the flow of its key. -/
def PacketRule (view : Option TcpPacketView) (before after : FlowKey → Option Flow)
    (reply : Option Reply) : Prop :=
  match view with
  | none => after = before ∧ reply = none
  | some tcp =>
      ∃ entry, after = Function.update before tcp.key entry ∧
        SegmentRule tcp.key (before tcp.key) tcp entry reply

/-- The first `count` steps of an engine from the empty table. -/
structure EngineRun (views : Nat → Option TcpPacketView)
    (tables : Nat → FlowKey → Option Flow) (replies : Nat → Option Reply)
    (count : Nat) : Prop where
  start : ∀ key, tables 0 key = none
  step : ∀ n, n < count → PacketRule (views n) (tables n) (tables (n + 1)) (replies n)

section EstablishedStep

variable (flow : Flow) (tcp : TcpPacketView)

/-- A segment on an established flow leaves it established, if it leaves it. -/
theorem establishedStep_state {flow' : Flow} (hstate : flow.state = .established)
    (h : (establishedStep flow tcp).1 = some flow') : flow'.state = .established := by
  unfold establishedStep at h
  split_ifs at h <;> cases h <;> simp [hstate]

variable {flow tcp} in
/-- A bare acknowledgement in order is not answered. -/
theorem establishedStep_ack (hseq : tcp.seq = flow.recvNext) (hpayload : tcp.payload = [])
    (hfin : tcp.flags &&& tcpFin = 0) : establishedStep flow tcp = (some flow, none) := by
  simp [establishedStep, hseq, hpayload, hfin]

variable {flow tcp} in
/-- A bare FIN in order ends the flow. -/
theorem establishedStep_fin (hseq : tcp.seq = flow.recvNext) (hpayload : tcp.payload = [])
    (hfin : tcp.flags &&& tcpFin ≠ 0) :
    establishedStep flow tcp =
      (none,
        some { seq := flow.sendNext, ack := tcp.seq + 1, flags := tcpAck, response := none }) := by
  simp [establishedStep, hseq, hpayload, hfin]

variable {flow tcp} in
/-- A request in order is answered. -/
theorem establishedStep_data (hseq : tcp.seq = flow.recvNext) (hpayload : tcp.payload ≠ [])
    (hfin : tcp.flags &&& tcpFin = 0) :
    establishedStep flow tcp = (some (answeredFlow flow tcp), some (answer flow tcp)) := by
  simp [establishedStep, hseq, hpayload, hfin]

/-- A half-open flow only moves by completing its handshake. -/
theorem segmentStep_halfOpen (hstate : flow.state = .synReceived) :
    (CompletesHandshake flow tcp ∧ segmentStep flow tcp =
        establishedStep (noteAck (establish flow tcp) tcp) tcp) ∨
      (¬ CompletesHandshake flow tcp ∧ segmentStep flow tcp = (some flow, none)) := by
  unfold segmentStep
  rw [hstate]
  by_cases h : CompletesHandshake flow tcp
  · exact Or.inl ⟨h, if_pos h⟩
  · exact Or.inr ⟨h, if_neg h⟩

theorem segmentStep_established (hstate : flow.state = .established) :
    segmentStep flow tcp = establishedStep (noteAck flow tcp) tcp := by
  unfold segmentStep
  rw [hstate]

end EstablishedStep

section Grounded

variable (views : Nat → Option TcpPacketView) (tables : Nat → FlowKey → Option Flow)
variable (replies : Nat → Option Reply) (key : FlowKey)

/-- Step `i` is an opening segment of the key, with the given sequence number,
that was answered by a SYN-ACK. -/
def AnsweredSyn (i : Nat) (seq : UInt32) : Prop :=
  ∃ tcp reply, views i = some tcp ∧ tcp.key = key ∧ IsOpening tcp ∧ tcp.seq = seq ∧
    replies i = some reply ∧ reply.flags = tcpSyn ||| tcpAck

/-- Step `i` is the third segment of a handshake that began with the given
sequence number. -/
def HandshakeAck (i : Nat) (seq : UInt32) : Prop :=
  ∃ tcp, views i = some tcp ∧ tcp.key = key ∧ tcp.flags &&& tcpAck ≠ 0 ∧
    tcp.ack = serverIsn key + 1 ∧ tcp.seq = seq + 1

/-- The entry of the key was created at step `m` and has been there up to
step `n`. -/
def CreatedAt (m n : Nat) : Prop :=
  tables m key = none ∧ ∀ j, m < j → j ≤ n → tables j key ≠ none

/-- The history behind an entry before step `n`. -/
structure Grounded (n : Nat) (flow : Flow) : Prop where
  history : ∃ m i seq, m ≤ i ∧ i < n ∧ CreatedAt tables key m n ∧
    AnsweredSyn views replies key i seq ∧
    (flow.state = .synReceived → flow.recvNext = seq + 1 ∧ flow.sendNext = serverIsn key + 1) ∧
    (flow.state = .established → ∃ j, i < j ∧ j < n ∧ HandshakeAck views key j seq)

end Grounded

section Run

variable {views : Nat → Option TcpPacketView} {tables : Nat → FlowKey → Option Flow}
variable {replies : Nat → Option Reply} {key : FlowKey}

/-- An entry that stays has the same creation one step later. -/
theorem CreatedAt.succ {m n : Nat} (h : CreatedAt tables key m n)
    (hnext : tables (n + 1) key ≠ none) : CreatedAt tables key m (n + 1) := by
  refine ⟨h.1, ?_⟩
  intro j hmj hj
  rcases Nat.lt_or_eq_of_le hj with hlt | heq
  · exact h.2 j hmj (by omega)
  · exact heq ▸ hnext

/-- A grounded entry stays grounded while its state and the sequence numbers it
expects stay. -/
theorem Grounded.keep {n : Nat} {flow flow' : Flow}
    (h : Grounded views tables replies key n flow) (hnext : tables (n + 1) key = some flow')
    (hhalf : flow'.state = .synReceived → flow' = flow)
    (hfull : flow'.state = .established → flow.state = .established) :
    Grounded views tables replies key (n + 1) flow' := by
  obtain ⟨m, i, seq, hmi, hin, hcreated, hsyn, hopen, hack⟩ := h.history
  refine ⟨m, i, seq, hmi, by omega, hcreated.succ (by simp [hnext]), hsyn, ?_, ?_⟩
  · intro hstate
    have hsame := hhalf hstate
    subst hsame
    exact hopen hstate
  · intro hstate
    obtain ⟨j, hij, hjn, hj⟩ := hack (hfull hstate)
    exact ⟨j, hij, by omega, hj⟩

/-- The segment that completes the handshake of a grounded half-open entry
acknowledges the SYN that the entry stands on. -/
theorem Grounded.completes {n : Nat} {flow : Flow} {tcp : TcpPacketView}
    (h : Grounded views tables replies key n flow) (hstate : flow.state = .synReceived)
    (hview : views n = some tcp) (hkey : tcp.key = key) (hdone : CompletesHandshake flow tcp) :
    ∃ m i seq, m ≤ i ∧ i < n ∧ CreatedAt tables key m n ∧
      AnsweredSyn views replies key i seq ∧ HandshakeAck views key n seq := by
  obtain ⟨m, i, seq, hmi, hin, hcreated, hsyn, hexpect, -⟩ := h.history
  obtain ⟨hrecv, hsend⟩ := hexpect hstate
  refine ⟨m, i, seq, hmi, hin, hcreated, hsyn, tcp, hview, hkey, hdone.1, ?_, ?_⟩
  · rw [hdone.2.1, hsend]
  · rw [hdone.2.2, hrecv]

/-- One packet keeps every entry of its key grounded. -/
theorem grounded_step {n : Nat} {tcp : TcpPacketView} {entry : Option Flow}
    (hview : views n = some tcp) (hkey : tcp.key = key)
    (hrule : SegmentRule key (tables n key) tcp entry (replies n))
    (hgrounded : ∀ flow, tables n key = some flow →
      Grounded views tables replies key n flow)
    (hnext : tables (n + 1) key = entry) :
    ∀ flow, entry = some flow → Grounded views tables replies key (n + 1) flow := by
  generalize hbefore : tables n key = before at hrule hgrounded
  generalize hreply : replies n = reply at hrule
  have fresh (hopen : IsOpening tcp) (m : Nat) (hm : m ≤ n)
      (hcreated : CreatedAt tables key m (n + 1))
      (hanswer : replies n = some (openingReply (openedFlow key tcp.seq))) :
      Grounded views tables replies key (n + 1) (openedFlow key tcp.seq) :=
    ⟨m, n, tcp.seq, hm, Nat.lt_succ_self n, hcreated,
      ⟨tcp, _, hview, hkey, hopen, rfl, hanswer, rfl⟩,
      fun _ => ⟨rfl, rfl⟩, fun h => by cases h⟩
  cases hrule with
  | drop =>
      intro flow hflow
      cases hflow
  | ignore =>
      intro flow hflow
      exact (hgrounded flow hflow).keep (hnext.trans hflow) (fun _ => rfl) id
  | opened _ hopen =>
      intro flow hflow
      cases hflow
      refine fresh hopen n (le_refl n) ⟨hbefore, ?_⟩ hreply
      intro j hnj hj
      have : j = n + 1 := by omega
      rw [this, hnext]
      simp
  | reopened old _ hopen hstate =>
      intro flow hflow
      cases hflow
      obtain ⟨m, i, _, hmi, hin, hcreated, _⟩ := (hgrounded old rfl).history
      exact fresh hopen m (by omega) (hcreated.succ (by simp [hnext])) hreply
  | repeated old _ hopen =>
      intro flow hflow
      cases hflow
      exact (hgrounded _ rfl).keep hnext (fun _ => rfl) id
  | segment old _ hopen =>
      intro flow hflow
      have hold := hgrounded old rfl
      cases hstate : old.state with
      | synReceived =>
          rcases segmentStep_halfOpen old tcp hstate with ⟨hdone, hstep⟩ | ⟨-, hstep⟩
          · -- the handshake completes at step `n`
            obtain ⟨m, i, seq, hmi, hin, hcreated, hsyn, hack⟩ :=
              hold.completes hstate hview hkey hdone
            rw [hstep] at hflow
            have hfull := establishedStep_state _ tcp (by simp) hflow
            refine ⟨m, i, seq, hmi, by omega,
              hcreated.succ (by rw [hnext, hstep, hflow]; simp), hsyn, ?_,
              fun _ => ⟨n, hin, Nat.lt_succ_self n, hack⟩⟩
            intro h
            rw [hfull] at h
            cases h
          · rw [hstep] at hflow hnext
            cases hflow
            exact hold.keep hnext (fun _ => rfl) id
      | established =>
          have hstep := segmentStep_established old tcp hstate
          rw [hstep] at hflow
          have hfull := establishedStep_state _ tcp (by simpa using hstate) hflow
          refine hold.keep (hnext.trans (by rw [hstep, hflow])) ?_ (fun _ => hstate)
          intro h
          rw [hfull] at h
          cases h

/-- In every run every entry is grounded. -/
theorem EngineRun.grounded {count : Nat} (run : EngineRun views tables replies count) :
    ∀ n, n ≤ count → ∀ key flow, tables n key = some flow →
      Grounded views tables replies key n flow
  | 0, _, key, flow, hflow => by
      rw [run.start key] at hflow
      cases hflow
  | n + 1, hn, key, flow, hflow => by
      have ih := EngineRun.grounded run n (by omega) key
      have hstep := run.step n (by omega)
      unfold PacketRule at hstep
      cases hview : views n with
      | none =>
          rw [hview] at hstep
          obtain ⟨hsame, -⟩ := hstep
          have hbefore : tables n key = some flow := by rw [← hsame, hflow]
          exact (ih flow hbefore).keep hflow (fun _ => rfl) id
      | some tcp =>
          rw [hview] at hstep
          obtain ⟨entry, hafter, hrule⟩ := hstep
          by_cases hkey : tcp.key = key
          · subst hkey
            have hnext : tables (n + 1) tcp.key = entry := by
              rw [hafter, Function.update_self]
            exact grounded_step hview rfl hrule ih hnext flow (hnext.symm.trans hflow)
          · have hsame : tables (n + 1) key = tables n key := by
              rw [hafter, Function.update_of_ne (fun h => hkey h.symm)]
            exact (ih flow (hsame.symm.trans hflow)).keep hflow (fun _ => rfl) id

/-- The handshake that stands behind a reply at step `n`: a SYN answered by a
SYN-ACK and then its acknowledgement, both since the entry was created. -/
def HandshakeBehind (views : Nat → Option TcpPacketView)
    (tables : Nat → FlowKey → Option Flow) (replies : Nat → Option Reply)
    (key : FlowKey) (n : Nat) : Prop :=
  ∃ m i j seq, m ≤ i ∧ i < j ∧ j ≤ n ∧ CreatedAt tables key m n ∧
    AnsweredSyn views replies key i seq ∧ HandshakeAck views key j seq

/-- A reply without SYN has a handshake behind it. -/
theorem EngineRun.handshake_of_reply {count n : Nat}
    (run : EngineRun views tables replies count) (hn : n < count) {reply : Reply}
    (hreply : replies n = some reply) (hflags : reply.flags &&& tcpSyn = 0) :
    ∃ tcp, views n = some tcp ∧ HandshakeBehind views tables replies tcp.key n := by
  have hstep := run.step n hn
  have hgrounded := run.grounded n (Nat.le_of_lt hn)
  unfold PacketRule at hstep
  cases hview : views n with
  | none =>
      rw [hview, hreply] at hstep
      cases hstep.2
  | some tcp =>
      rw [hview] at hstep
      obtain ⟨entry, -, hrule⟩ := hstep
      refine ⟨tcp, rfl, ?_⟩
      have established (flow : Flow) (hbefore : tables n tcp.key = some flow)
          (hstate : flow.state = .established) :
          HandshakeBehind views tables replies tcp.key n := by
        obtain ⟨m, i, seq, hmi, -, hcreated, hsyn, -, hack⟩ :=
          (hgrounded tcp.key flow hbefore).history
        obtain ⟨j, hij, hjn, hj⟩ := hack hstate
        exact ⟨m, i, j, seq, hmi, hij, Nat.le_of_lt hjn, hcreated, hsyn, hj⟩
      have hsynAck : (tcpSyn ||| tcpAck) &&& tcpSyn ≠ 0 := by decide
      generalize hbefore : tables n tcp.key = before at hrule
      generalize hsent : replies n = sent at hrule
      rw [hreply] at hsent
      cases hrule with
      | drop => cases hsent
      | ignore => cases hsent
      | opened _ _ =>
          cases hsent
          exact absurd hflags hsynAck
      | reopened _ _ _ _ =>
          cases hsent
          exact absurd hflags hsynAck
      | repeated flow _ _ =>
          cases hsent
          cases hstate : flow.state with
          | synReceived =>
              rw [openingReply, hstate] at hflags
              exact absurd hflags hsynAck
          | established => exact established flow hbefore hstate
      | segment flow _ _ =>
          cases hstate : flow.state with
          | established => exact established flow hbefore hstate
          | synReceived =>
              rcases segmentStep_halfOpen flow tcp hstate with ⟨hdone, -⟩ | ⟨-, hstep⟩
              · obtain ⟨m, i, seq, hmi, hin, hcreated, hsyn, hack⟩ :=
                  (hgrounded tcp.key flow hbefore).completes hstate hview rfl hdone
                exact ⟨m, i, n, seq, hmi, hin, le_refl n, hcreated, hsyn, hack⟩
              · rw [hstep] at hsent
                cases hsent

/-- A reply to a packet without an entry carries no payload. -/
theorem EngineRun.no_response_without_entry {count n : Nat}
    (run : EngineRun views tables replies count) (hn : n < count) {reply : Reply}
    {tcp : TcpPacketView} (hreply : replies n = some reply) (hview : views n = some tcp)
    (habsent : tables n tcp.key = none) : reply.response = none := by
  have hstep := run.step n hn
  unfold PacketRule at hstep
  rw [hview] at hstep
  obtain ⟨entry, -, hrule⟩ := hstep
  rw [habsent, hreply] at hrule
  cases hrule with
  | opened _ _ => rfl

end Run

end Packet
end Gput
