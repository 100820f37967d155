import Gput.Library.ByteString
import Gput.Packet.Wire
import Mathlib.Data.List.GetD

/-!
# What both packet engines share

The engine configuration, the fixed table of HTTP responses and the classifier
of HTTP payloads.
-/

namespace Gput
namespace Packet

open ByteString

structure PacketEngineConfig where
  maxBatchSize : Nat
  flowCapacity : Nat
  flowProbeLimit : Nat
  listenPort : UInt16
deriving DecidableEq, Repr

def responsePlaintext : UInt32 := 0
def responseHealth : UInt32 := 1
def responseBadRequest : UInt32 := 2
def responseNotFound : UInt32 := 3
def responseMethodNotAllowed : UInt32 := 4

/-- `PACKET_RESPONSES`. -/
def packetResponses : List (List UInt8) :=
  [asciiLines ["HTTP/1.1 200 OK\r\n", "Content-Type: text/plain\r\n", "Content-Length: 14\r\n",
      "Connection: keep-alive\r\n", "X-Gput-Backend: gpu-packet\r\n", "\r\n",
      "Hello, World!\n"],
    asciiLines ["HTTP/1.1 200 OK\r\n", "Content-Type: text/plain\r\n", "Content-Length: 3\r\n",
      "Connection: keep-alive\r\n", "X-Gput-Backend: gpu-packet\r\n", "\r\n", "ok\n"],
    asciiLines ["HTTP/1.1 400 Bad Request\r\n", "Content-Type: text/plain\r\n",
      "Content-Length: 12\r\n", "Connection: keep-alive\r\n",
      "X-Gput-Backend: gpu-packet\r\n", "\r\n", "bad request\n"],
    asciiLines ["HTTP/1.1 404 Not Found\r\n", "Content-Type: text/plain\r\n",
      "Content-Length: 10\r\n", "Connection: keep-alive\r\n",
      "X-Gput-Backend: gpu-packet\r\n", "\r\n", "not found\n"],
    asciiLines ["HTTP/1.1 405 Method Not Allowed\r\n", "Content-Type: text/plain\r\n",
      "Content-Length: 19\r\n", "Connection: keep-alive\r\n",
      "X-Gput-Backend: gpu-packet\r\n", "\r\n", "method not allowed\n"]]

/-- `packet_response`. -/
def packetResponse (responseId : UInt32) : List UInt8 :=
  packetResponses.getD responseId.toNat
    (packetResponses.getD responseBadRequest.toNat [])

/-- `max_response_packet_bytes`. -/
def maxResponsePacketBytes : Nat :=
  40 + (packetResponses.map List.length).foldl max 0

/-- `validate_config`. -/
def validateConfig (config : PacketEngineConfig) : Outcome Unit := do
  Outcome.ensure (config.maxBatchSize > 0) "max batch size must be positive"
  Outcome.ensure (config.flowCapacity > 0) "flow capacity must be positive"
  Outcome.ensure (Nat.isPowerOfTwo config.flowCapacity) "flow capacity must be a power of two"
  Outcome.ensure (config.flowProbeLimit > 0) "flow probe limit must be positive"
  Outcome.ensure (config.flowProbeLimit ≤ config.flowCapacity)
    "flow probe limit must not exceed flow capacity"
  Outcome.ensure (config.maxBatchSize ≤ 0xffffffff) "max batch size must fit u32"
  Outcome.ensure (config.flowCapacity ≤ 0xffffffff) "flow capacity must fit u32"
  Outcome.ensure (maxResponsePacketBytes ≤ maxRawPacketBytes)
    "largest packet response does not fit the raw packet slot"
  return ()

/-- `classify_http_request`. -/
def classifyHttpRequest (payload : List UInt8) : UInt32 :=
  match windowPosition [13, 10] payload with
  | none => responseBadRequest
  | some lineEnd =>
      let line := payload.take lineEnd
      match line.splitOn 32 with
      | [method, target, version] =>
          if target = [] ∨ (version ≠ ascii "HTTP/1.1" ∧ version ≠ ascii "HTTP/1.0") then
            responseBadRequest
          else if method ≠ ascii "GET" then
            responseMethodNotAllowed
          else
            let path := (target.splitOn 63).headD target
            if path = ascii "/plaintext" then responsePlaintext
            else if path = ascii "/health" then responseHealth
            else responseNotFound
      | _ => responseBadRequest

/-- What `validate_config` checks of a configuration. -/
structure ValidConfig (config : PacketEngineConfig) : Prop where
  batch_pos : 0 < config.maxBatchSize
  capacity_pos : 0 < config.flowCapacity
  capacity_power : config.flowCapacity.isPowerOfTwo
  probes_pos : 0 < config.flowProbeLimit
  probes_le : config.flowProbeLimit ≤ config.flowCapacity
  batch_fits : config.maxBatchSize ≤ 0xffffffff
  capacity_fits : config.flowCapacity ≤ 0xffffffff

theorem ensure_then {check : Prop} [Decidable check] {message : String}
    {rest : PUnit → Outcome Unit} :
    (Outcome.ensure check message >>= rest) = .ok () ↔ check ∧ rest PUnit.unit = .ok () := by
  unfold Outcome.ensure
  by_cases h : check
  · simp [h]
  · simp [h]

/-- The largest response packet, for the texts of the table. -/
theorem maxResponsePacketBytes_eq : maxResponsePacketBytes = 192 := by
  decide +kernel

theorem maxResponsePacketBytes_le : maxResponsePacketBytes ≤ maxRawPacketBytes := by
  rw [maxResponsePacketBytes_eq]
  decide

theorem validateConfig_eq_ok {config : PacketEngineConfig} :
    validateConfig config = .ok () ↔ ValidConfig config := by
  have hresponse := maxResponsePacketBytes_le
  unfold validateConfig
  simp only [ensure_then, hresponse, Outcome.pure_eq, and_true]
  constructor
  · rintro ⟨h1, h2, h3, h4, h5, h6, h7⟩
    exact ⟨h1, h2, h3, h4, h5, h6, h7⟩
  · rintro ⟨h1, h2, h3, h4, h5, h6, h7⟩
    exact ⟨h1, h2, h3, h4, h5, h6, h7⟩

/-- The classifier only answers with ids of the table. -/
theorem classifyHttpRequest_lt (payload : List UInt8) :
    (classifyHttpRequest payload).toNat < packetResponses.length := by
  have hlt : ∀ id ∈ [responsePlaintext, responseHealth, responseBadRequest, responseNotFound,
      responseMethodNotAllowed], id.toNat < packetResponses.length := by decide
  apply hlt
  unfold classifyHttpRequest
  split
  · simp
  · simp only
    split
    · split_ifs <;> simp
    · simp

theorem packetResponse_mem (responseId : UInt32) :
    packetResponse responseId ∈ packetResponses := by
  unfold packetResponse
  by_cases h : responseId.toNat < packetResponses.length
  · rw [List.getD_eq_getElem _ _ h]
    exact List.getElem_mem h
  · rw [List.getD_eq_default _ _ (by omega), List.getD_eq_getElem _ _ (by decide)]
    exact List.getElem_mem _

/-- Every response of the table fits a packet. -/
theorem packetResponse_length (responseId : UInt32) :
    40 + (packetResponse responseId).length ≤ maxRawPacketBytes := by
  have hall : ∀ response ∈ packetResponses, 40 + response.length ≤ maxRawPacketBytes := by
    decide +kernel
  exact hall _ (packetResponse_mem responseId)

/-- No response of the table is empty. -/
theorem packetResponse_pos (responseId : UInt32) : 0 < (packetResponse responseId).length := by
  have hall : ∀ response ∈ packetResponses, 0 < response.length := by decide +kernel
  exact hall _ (packetResponse_mem responseId)

end Packet
end Gput
