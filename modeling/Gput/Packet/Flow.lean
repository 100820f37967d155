import Gput.Packet.Engine

/-!
# The TCP machine of one flow

What both engines do to a single flow, apart from where they keep it: the flow
record, the reply to a segment, and the path of a segment that is neither a
reset nor an opening SYN.  A flow is `none` while the table has no entry for
its key.
-/

namespace Gput
namespace Packet

inductive FlowState where
  | synReceived
  | established
deriving DecidableEq, Repr

structure LastResponse where
  clientSeq : UInt32
  clientLen : Nat
  responseSeq : UInt32
  responseAck : UInt32
  responseId : UInt32
deriving DecidableEq, Repr

structure Flow where
  state : FlowState
  recvNext : UInt32
  sendNext : UInt32
  sendUnacked : UInt32
  lastResponse : Option LastResponse
deriving DecidableEq, Repr

/-- What an engine answers: the TCP fields of the emitted packet and the
response it carries, if any. -/
structure Reply where
  seq : UInt32
  ack : UInt32
  flags : UInt8
  response : Option UInt32
deriving DecidableEq, Repr

/-- The key with its two endpoints exchanged. -/
def FlowKey.reply (key : FlowKey) : FlowKey where
  srcIp := key.dstIp
  dstIp := key.srcIp
  srcPort := key.dstPort
  dstPort := key.srcPort

/-- The fields of the packet that carries a reply, given the response texts. -/
def replySpec (response : UInt32 → List UInt8) (key : FlowKey) (reply : Reply) :
    TcpPacketSpec where
  key := key.reply
  seq := reply.seq
  ack := reply.ack
  flags := reply.flags
  payload := (reply.response.map response).getD []

/-- The server's initial sequence number for a key. -/
def serverIsn (key : FlowKey) : UInt32 :=
  flowHash key ^^^ 0xa5a55a5a

/-- A segment that opens a flow: SYN set and ACK clear. -/
def IsOpening (tcp : TcpPacketView) : Prop :=
  tcp.flags &&& tcpSyn ≠ 0 ∧ tcp.flags &&& tcpAck = 0

/-- A segment that resets a flow. -/
def IsReset (tcp : TcpPacketView) : Prop :=
  tcp.flags &&& tcpRst ≠ 0

instance (tcp : TcpPacketView) : Decidable (IsOpening tcp) :=
  inferInstanceAs (Decidable (_ ∧ _))

instance (tcp : TcpPacketView) : Decidable (IsReset tcp) :=
  inferInstanceAs (Decidable (_ ≠ _))

/-- The record of a flow right after its opening segment. -/
def openedFlow (key : FlowKey) (seq : UInt32) : Flow where
  state := .synReceived
  recvNext := seq + 1
  sendNext := serverIsn key + 1
  sendUnacked := serverIsn key
  lastResponse := none

/-- The answer to an opening segment: SYN-ACK while half open, a plain ACK on
an established flow. -/
def openingReply (flow : Flow) : Reply :=
  match flow.state with
  | .synReceived =>
      { seq := flow.sendNext - 1, ack := flow.recvNext, flags := tcpSyn ||| tcpAck,
        response := none }
  | .established =>
      { seq := flow.sendNext, ack := flow.recvNext, flags := tcpAck, response := none }

/-- The third segment of the handshake. -/
def CompletesHandshake (flow : Flow) (tcp : TcpPacketView) : Prop :=
  tcp.flags &&& tcpAck ≠ 0 ∧ tcp.ack = flow.sendNext ∧ tcp.seq = flow.recvNext

instance (flow : Flow) (tcp : TcpPacketView) : Decidable (CompletesHandshake flow tcp) :=
  inferInstanceAs (Decidable (_ ∧ _ ∧ _))

/-- The flow after a segment completed its handshake. -/
def establish (flow : Flow) (tcp : TcpPacketView) : Flow :=
  { flow with state := .established, sendUnacked := tcp.ack }

/-- The flow after the acknowledgement of a segment is noted. -/
def noteAck (flow : Flow) (tcp : TcpPacketView) : Flow :=
  if tcp.flags &&& tcpAck ≠ 0 ∧ tcp.ack = flow.sendNext then
    { flow with sendUnacked := tcp.ack }
  else flow

/-- The answer to a segment out of order: the last response again when the
segment repeats the one it answered, otherwise an ACK. -/
def outOfOrderReply (flow : Flow) (tcp : TcpPacketView) : Reply :=
  match flow.lastResponse with
  | some last =>
      if tcp.seq = last.clientSeq ∧ tcp.payload.length = last.clientLen then
        { seq := last.responseSeq, ack := last.responseAck, flags := tcpAck ||| tcpPsh,
          response := some last.responseId }
      else { seq := flow.sendNext, ack := flow.recvNext, flags := tcpAck, response := none }
  | none => { seq := flow.sendNext, ack := flow.recvNext, flags := tcpAck, response := none }

/-- The sequence number after a data segment. -/
def nextAck (tcp : TcpPacketView) : UInt32 :=
  tcp.seq + UInt32.ofNat tcp.payload.length + if tcp.flags &&& tcpFin ≠ 0 then 1 else 0

/-- The flow after a data segment in order. -/
def answeredFlow (flow : Flow) (tcp : TcpPacketView) : Flow :=
  let responseId := classifyHttpRequest tcp.payload
  { flow with
    recvNext := nextAck tcp
    sendNext := flow.sendNext + UInt32.ofNat (packetResponse responseId).length
    lastResponse := some
      { clientSeq := tcp.seq, clientLen := tcp.payload.length, responseSeq := flow.sendNext,
        responseAck := nextAck tcp, responseId := responseId } }

/-- The answer to a data segment in order. -/
def answer (flow : Flow) (tcp : TcpPacketView) : Reply where
  seq := flow.sendNext
  ack := nextAck tcp
  flags := tcpAck ||| tcpPsh
  response := some (classifyHttpRequest tcp.payload)

/-- A segment on an established flow. -/
def establishedStep (flow : Flow) (tcp : TcpPacketView) : Option Flow × Option Reply :=
  if tcp.seq ≠ flow.recvNext then
    (some flow, some (outOfOrderReply flow tcp))
  else if tcp.payload = [] then
    if tcp.flags &&& tcpFin = 0 then (some flow, none)
    else
      (none,
        some { seq := flow.sendNext, ack := tcp.seq + 1, flags := tcpAck, response := none })
  else
    (if tcp.flags &&& tcpFin ≠ 0 then none else some (answeredFlow flow tcp),
      some (answer flow tcp))

/-- A segment, neither reset nor opening, on an existing flow. -/
def segmentStep (flow : Flow) (tcp : TcpPacketView) : Option Flow × Option Reply :=
  match flow.state with
  | .synReceived =>
      if CompletesHandshake flow tcp then
        establishedStep (noteAck (establish flow tcp) tcp) tcp
      else (some flow, none)
  | .established => establishedStep (noteAck flow tcp) tcp

section Fields

variable (flow : Flow) (tcp : TcpPacketView)

@[simp] theorem establish_state : (establish flow tcp).state = .established := rfl
@[simp] theorem establish_recvNext : (establish flow tcp).recvNext = flow.recvNext := rfl
@[simp] theorem establish_sendNext : (establish flow tcp).sendNext = flow.sendNext := rfl
@[simp] theorem establish_lastResponse :
    (establish flow tcp).lastResponse = flow.lastResponse := rfl

@[simp] theorem noteAck_state : (noteAck flow tcp).state = flow.state := by
  unfold noteAck
  split <;> rfl

@[simp] theorem noteAck_recvNext : (noteAck flow tcp).recvNext = flow.recvNext := by
  unfold noteAck
  split <;> rfl

@[simp] theorem noteAck_sendNext : (noteAck flow tcp).sendNext = flow.sendNext := by
  unfold noteAck
  split <;> rfl

@[simp] theorem noteAck_lastResponse :
    (noteAck flow tcp).lastResponse = flow.lastResponse := by
  unfold noteAck
  split <;> rfl

@[simp] theorem answeredFlow_state : (answeredFlow flow tcp).state = flow.state := rfl
@[simp] theorem answeredFlow_recvNext : (answeredFlow flow tcp).recvNext = nextAck tcp := rfl

end Fields

end Packet
end Gput
