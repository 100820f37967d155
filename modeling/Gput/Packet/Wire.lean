import Gput.Library.Outcome
import Mathlib.Data.List.Basic
import Mathlib.Tactic.NormNum

/-!
# Packet wire format

The IPv4/TCP parser, the packet builder and the checksums of the packet
engines.  A slice access outside its slice is a panic; the parser's checks are
collected in `IsIpv4Tcp`, and `parseIpv4TcpBytes_eq` says that the parser never
panics and accepts exactly the packets that satisfy them.
-/

namespace Gput
namespace Packet

def maxRawPacketBytes : Nat := 1536

/-- A captured packet: one to `maxRawPacketBytes` bytes. -/
structure RawPacket where
  bytes : List UInt8
  nonempty : bytes ≠ []
  length_le : bytes.length ≤ maxRawPacketBytes
deriving DecidableEq

/-- A packet is its bytes. -/
theorem RawPacket.bytes_injective : Function.Injective RawPacket.bytes := by
  rintro ⟨bytes, _, _⟩ ⟨bytes', _, _⟩ h
  cases h
  rfl

/-- `RawPacket::new`. -/
def RawPacket.new (bytes : List UInt8) : Outcome RawPacket :=
  if hne : bytes = [] then
    .err "packet must not be empty"
  else if hlen : bytes.length ≤ maxRawPacketBytes then
    .ok ⟨bytes, hne, hlen⟩
  else
    .err s!"packet is {bytes.length} bytes; maximum is {maxRawPacketBytes}"

def tcpFin : UInt8 := 0x01
def tcpSyn : UInt8 := 0x02
def tcpRst : UInt8 := 0x04
def tcpPsh : UInt8 := 0x08
def tcpAck : UInt8 := 0x10

/-- The four-tuple that identifies a flow. -/
structure FlowKey where
  srcIp : UInt32
  dstIp : UInt32
  srcPort : UInt16
  dstPort : UInt16
deriving DecidableEq, Repr

structure TcpPacketView where
  key : FlowKey
  seq : UInt32
  ack : UInt32
  flags : UInt8
  payload : List UInt8
deriving DecidableEq, Repr

structure TcpPacketSpec where
  key : FlowKey
  seq : UInt32
  ack : UInt32
  flags : UInt8
  payload : List UInt8
deriving DecidableEq, Repr

/-- `u16::from_be_bytes`. -/
def u16FromBe (hi lo : UInt8) : UInt16 :=
  UInt16.ofNat (hi.toNat * 2 ^ 8 + lo.toNat)

/-- `u32::from_be_bytes`. -/
def u32FromBe (b0 b1 b2 b3 : UInt8) : UInt32 :=
  UInt32.ofNat (b0.toNat * 2 ^ 24 + b1.toNat * 2 ^ 16 + b2.toNat * 2 ^ 8 + b3.toNat)

theorem u16FromBe_toNat (hi lo : UInt8) :
    (u16FromBe hi lo).toNat = hi.toNat * 2 ^ 8 + lo.toNat := by
  have h1 := hi.toNat_lt
  have h2 := lo.toNat_lt
  simp only [u16FromBe, UInt16.toNat_ofNat']
  omega

theorem u32FromBe_toNat (b0 b1 b2 b3 : UInt8) :
    (u32FromBe b0 b1 b2 b3).toNat =
      b0.toNat * 2 ^ 24 + b1.toNat * 2 ^ 16 + b2.toNat * 2 ^ 8 + b3.toNat := by
  have h0 := b0.toNat_lt
  have h1 := b1.toNat_lt
  have h2 := b2.toNat_lt
  have h3 := b3.toNat_lt
  simp only [u32FromBe, UInt32.toNat_ofNat']
  omega

/-- `bytes[offset]`. -/
def index (bytes : List UInt8) (offset : Nat) : Outcome UInt8 :=
  Outcome.expect bytes[offset]?

/-- `&bytes[start..stop]`. -/
def sliceRange (bytes : List UInt8) (start stop : Nat) : Outcome (List UInt8) :=
  if start ≤ stop ∧ stop ≤ bytes.length then .ok ((bytes.take stop).drop start) else .panic

def readU16 (bytes : List UInt8) (offset : Nat) : Outcome UInt16 := do
  let hi ← index bytes offset
  let lo ← index bytes (offset + 1)
  return u16FromBe hi lo

def readU32 (bytes : List UInt8) (offset : Nat) : Outcome UInt32 := do
  let b0 ← index bytes offset
  let b1 ← index bytes (offset + 1)
  let b2 ← index bytes (offset + 2)
  let b3 ← index bytes (offset + 3)
  return u32FromBe b0 b1 b2 b3

/-- `value.to_be_bytes()[place]`, counted from the lowest byte. -/
def beByte (value place : Nat) : UInt8 :=
  UInt8.ofNat (value / 2 ^ (8 * place))

theorem beByte_toNat (value place : Nat) :
    (beByte value place).toNat = value / 2 ^ (8 * place) % 2 ^ 8 := by
  simp [beByte]

theorem u16FromBe_beByte (value : UInt16) :
    u16FromBe (beByte value.toNat 1) (beByte value.toNat 0) = value := by
  have h := value.toNat_lt
  apply UInt16.toNat_inj.mp
  rw [u16FromBe_toNat, beByte_toNat, beByte_toNat]
  norm_num
  omega

theorem u32FromBe_beByte (value : UInt32) :
    u32FromBe (beByte value.toNat 3) (beByte value.toNat 2) (beByte value.toNat 1)
      (beByte value.toNat 0) = value := by
  have h := value.toNat_lt
  apply UInt32.toNat_inj.mp
  rw [u32FromBe_toNat, beByte_toNat, beByte_toNat, beByte_toNat, beByte_toNat]
  norm_num
  omega

def writeU16 (bytes : List UInt8) (offset : Nat) (value : UInt16) : List UInt8 :=
  (bytes.set offset (beByte value.toNat 1)).set (offset + 1) (beByte value.toNat 0)

def writeU32 (bytes : List UInt8) (offset : Nat) (value : UInt32) : List UInt8 :=
  (((bytes.set offset (beByte value.toNat 3)).set (offset + 1) (beByte value.toNat 2)).set
    (offset + 2) (beByte value.toNat 1)).set (offset + 3) (beByte value.toNat 0)

/-- The big-endian 16-bit words of `bytes.chunks(2)`; an odd last byte is
padded with zero. -/
def chunkWords : List UInt8 → List Nat
  | [] => []
  | [high] => [high.toNat * 2 ^ 8]
  | high :: low :: rest => (high.toNat * 2 ^ 8 + low.toNat) :: chunkWords rest

/-- The loop of `fold_checksum`, for at most `rounds` rounds. -/
def foldRounds : Nat → Nat → Nat
  | 0, sum => sum
  | rounds + 1, sum =>
      if sum / 2 ^ 16 ≠ 0 then foldRounds rounds (sum % 2 ^ 16 + sum / 2 ^ 16) else sum

/-- `fold_checksum`.  A 32-bit sum is folded after at most two rounds
(`foldRounds_lt`), so the bound is never the reason to stop. -/
def foldChecksum (sum : Nat) : UInt16 :=
  ~~~ UInt16.ofNat (foldRounds 32 sum)

theorem foldRounds_of_lt {sum : Nat} (h : sum < 2 ^ 16) :
    ∀ rounds, foldRounds rounds sum = sum
  | 0 => rfl
  | rounds + 1 => by
      rw [foldRounds, if_neg (not_not.mpr (Nat.div_eq_of_lt h))]

theorem foldRounds_lt {sum : Nat} (h : sum < 2 ^ 32) (rounds : Nat) :
    foldRounds (rounds + 2) sum < 2 ^ 16 := by
  rw [foldRounds]
  split
  · -- after one round the sum is below `2 ^ 17 - 1`, so the second carry fits
    rw [foldRounds]
    split
    · rw [foldRounds_of_lt (by omega)]
      omega
    · omega
  · omega

/-- `checksum`. -/
def checksum (bytes : List UInt8) : UInt16 :=
  foldChecksum (chunkWords bytes).sum

/-- The words `tcp_checksum` adds: all of them, or all but the checksum word. -/
def tcpWords (clearChecksum : Bool) (words : List Nat) : List Nat :=
  if clearChecksum then words.eraseIdx 8 else words

/-- `tcp_checksum`.  The subtraction of the header length panics when the
header is longer than the packet. -/
def tcpChecksum (packet : List UInt8) (ipHeaderLen : Nat) (clearChecksum : Bool) :
    Outcome UInt16 := do
  let tcpLen ←
    if ipHeaderLen ≤ packet.length then pure (packet.length - ipHeaderLen) else Outcome.panic
  let w0 ← readU16 packet 12
  let w1 ← readU16 packet 14
  let w2 ← readU16 packet 16
  let w3 ← readU16 packet 18
  let pseudo := w0.toNat + w1.toNat + w2.toNat + w3.toNat + 6 + tcpLen
  return foldChecksum
    (pseudo + (tcpWords clearChecksum (chunkWords (packet.drop ipHeaderLen))).sum)

/-- The header fields `build_ipv4_tcp_packet` writes before the checksums. -/
def packetWithoutChecksums (spec : TcpPacketSpec) : List UInt8 :=
  let totalLen := 40 + spec.payload.length
  let packet := List.replicate totalLen (0 : UInt8)
  let packet := packet.set 0 0x45
  let packet := writeU16 packet 2 (UInt16.ofNat totalLen)
  let packet := writeU16 packet 6 0x4000
  let packet := packet.set 8 64
  let packet := packet.set 9 6
  let packet := writeU32 packet 12 spec.key.srcIp
  let packet := writeU32 packet 16 spec.key.dstIp
  let packet := writeU16 packet 20 spec.key.srcPort
  let packet := writeU16 packet 22 spec.key.dstPort
  let packet := writeU32 packet 24 spec.seq
  let packet := writeU32 packet 28 spec.ack
  let packet := packet.set 32 0x50
  let packet := packet.set 33 spec.flags
  let packet := writeU16 packet 34 0xffff
  packet.take 40 ++ spec.payload

/-- `build_ipv4_tcp_packet`. -/
def buildIpv4TcpPacket (spec : TcpPacketSpec) : Outcome RawPacket := do
  let totalLen := 40 + spec.payload.length
  Outcome.ensure (totalLen ≤ maxRawPacketBytes)
    s!"IPv4/TCP packet is {totalLen} bytes; maximum is {maxRawPacketBytes}"
  Outcome.ensure (totalLen ≤ 0xffff) "packet length exceeds IPv4 limit"
  let packet := packetWithoutChecksums spec
  let packet := writeU16 packet 10 (checksum (packet.take 20))
  let tcpSum ← tcpChecksum packet 20 true
  RawPacket.new (writeU16 packet 36 tcpSum)

/-- `flow_hash`. -/
def flowHash (key : FlowKey) : UInt32 :=
  let hash : UInt32 := 2166136261
  let hash := (hash ^^^ key.srcIp) * 16777619
  let hash := (hash ^^^ key.dstIp) * 16777619
  let hash := (hash ^^^ key.srcPort.toUInt32) * 16777619
  (hash ^^^ key.dstPort.toUInt32) * 16777619

/-- `parse_ipv4_tcp_bytes`. -/
def parseIpv4TcpBytes (bytes : List UInt8) : Outcome (Option TcpPacketView) := do
  if bytes.length < 40 then return none
  let version ← index bytes 0
  let protocol ← index bytes 9
  if version >>> 4 ≠ 4 ∨ protocol ≠ 6 then return none
  let ipHeaderLen := (version &&& 0x0f).toNat * 4
  if ipHeaderLen < 20 ∨ ipHeaderLen + 20 > bytes.length then return none
  let fragment ← readU16 bytes 6
  if fragment &&& 0x3fff ≠ 0 then return none
  let totalLen := (← readU16 bytes 2).toNat
  if totalLen < ipHeaderLen + 20 ∨ totalLen > bytes.length then return none
  let dataOffset ← index bytes (ipHeaderLen + 12)
  let tcpHeaderLen := (dataOffset >>> 4).toNat * 4
  if tcpHeaderLen < 20 ∨ ipHeaderLen + tcpHeaderLen > totalLen then return none
  let payloadOffset := ipHeaderLen + tcpHeaderLen
  let srcIp ← readU32 bytes 12
  let dstIp ← readU32 bytes 16
  let srcPort ← readU16 bytes ipHeaderLen
  let dstPort ← readU16 bytes (ipHeaderLen + 2)
  let seq ← readU32 bytes (ipHeaderLen + 4)
  let ack ← readU32 bytes (ipHeaderLen + 8)
  let flags ← index bytes (ipHeaderLen + 13)
  let payload ← sliceRange bytes payloadOffset totalLen
  return some
    { key := { srcIp := srcIp, dstIp := dstIp, srcPort := srcPort, dstPort := dstPort }
      seq := seq
      ack := ack
      flags := flags
      payload := payload }

/-- `parse_ipv4_tcp`. -/
def parseIpv4Tcp (packet : RawPacket) : Outcome (Option TcpPacketView) :=
  parseIpv4TcpBytes packet.bytes

/-- `scheduling_flow_key`. -/
def schedulingFlowKey (packet : RawPacket) : Outcome (Option FlowKey) := do
  let bytes := packet.bytes
  if bytes.length < 24 then return none
  let version ← index bytes 0
  let protocol ← index bytes 9
  if version >>> 4 ≠ 4 ∨ protocol ≠ 6 then return none
  let ipHeaderLen := (version &&& 0x0f).toNat * 4
  if ipHeaderLen < 20 ∨ ipHeaderLen + 4 > bytes.length then return none
  let srcIp ← readU32 bytes 12
  let dstIp ← readU32 bytes 16
  let srcPort ← readU16 bytes ipHeaderLen
  let dstPort ← readU16 bytes (ipHeaderLen + 2)
  return some { srcIp := srcIp, dstIp := dstIp, srcPort := srcPort, dstPort := dstPort }

/-- Byte `i` of a packet; zero past its end. -/
def byteAt (bytes : List UInt8) (i : Nat) : UInt8 :=
  bytes.getD i 0

theorem index_eq {bytes : List UInt8} {i : Nat} (hi : i < bytes.length) :
    index bytes i = .ok (byteAt bytes i) := by
  simp [index, byteAt, List.getElem?_eq_getElem hi]

/-- Big-endian 16-bit field at an offset. -/
def fieldU16 (bytes : List UInt8) (i : Nat) : UInt16 :=
  u16FromBe (byteAt bytes i) (byteAt bytes (i + 1))

/-- Big-endian 32-bit field at an offset. -/
def fieldU32 (bytes : List UInt8) (i : Nat) : UInt32 :=
  u32FromBe (byteAt bytes i) (byteAt bytes (i + 1)) (byteAt bytes (i + 2))
    (byteAt bytes (i + 3))

theorem sliceRange_eq {bytes : List UInt8} {start stop : Nat}
    (h : start ≤ stop ∧ stop ≤ bytes.length) :
    sliceRange bytes start stop = .ok ((bytes.take stop).drop start) :=
  if_pos h

theorem readU16_eq {bytes : List UInt8} {i : Nat} (hi : i + 1 < bytes.length) :
    readU16 bytes i = .ok (fieldU16 bytes i) := by
  simp only [readU16, index_eq (show i < bytes.length by omega), index_eq hi,
    Outcome.ok_bind, Outcome.pure_eq]
  rfl

theorem readU32_eq {bytes : List UInt8} {i : Nat} (hi : i + 3 < bytes.length) :
    readU32 bytes i = .ok (fieldU32 bytes i) := by
  simp only [readU32, index_eq (show i < bytes.length by omega),
    index_eq (show i + 1 < bytes.length by omega),
    index_eq (show i + 2 < bytes.length by omega), index_eq hi,
    Outcome.ok_bind, Outcome.pure_eq]
  rfl

/-- The IPv4 header length a packet declares. -/
def ipHeaderLen (bytes : List UInt8) : Nat :=
  (byteAt bytes 0 &&& 0x0f).toNat * 4

/-- The IPv4 total length a packet declares. -/
def totalLen (bytes : List UInt8) : Nat :=
  (fieldU16 bytes 2).toNat

/-- The TCP header length a packet declares. -/
def tcpHeaderLen (bytes : List UInt8) : Nat :=
  (byteAt bytes (ipHeaderLen bytes + 12) >>> 4).toNat * 4

/-- Where the TCP payload starts. -/
def payloadOffset (bytes : List UInt8) : Nat :=
  ipHeaderLen bytes + tcpHeaderLen bytes

/-- The addresses and ports a packet carries. -/
def keyOf (bytes : List UInt8) : FlowKey where
  srcIp := fieldU32 bytes 12
  dstIp := fieldU32 bytes 16
  srcPort := fieldU16 bytes (ipHeaderLen bytes)
  dstPort := fieldU16 bytes (ipHeaderLen bytes + 2)

/-- Everything the parser checks before it returns a view. -/
structure IsIpv4Tcp (bytes : List UInt8) : Prop where
  long_enough : 40 ≤ bytes.length
  version : byteAt bytes 0 >>> 4 = 4
  protocol : byteAt bytes 9 = 6
  header_min : 20 ≤ ipHeaderLen bytes
  header_max : ipHeaderLen bytes + 20 ≤ bytes.length
  unfragmented : fieldU16 bytes 6 &&& 0x3fff = 0
  total_min : ipHeaderLen bytes + 20 ≤ totalLen bytes
  total_max : totalLen bytes ≤ bytes.length
  tcp_min : 20 ≤ tcpHeaderLen bytes
  tcp_max : ipHeaderLen bytes + tcpHeaderLen bytes ≤ totalLen bytes

/-- The view of a packet that passes the checks. -/
def viewOf (bytes : List UInt8) : TcpPacketView where
  key := keyOf bytes
  seq := fieldU32 bytes (ipHeaderLen bytes + 4)
  ack := fieldU32 bytes (ipHeaderLen bytes + 8)
  flags := byteAt bytes (ipHeaderLen bytes + 13)
  payload := (bytes.take (totalLen bytes)).drop (payloadOffset bytes)

instance (bytes : List UInt8) : Decidable (IsIpv4Tcp bytes) :=
  decidable_of_iff
    (40 ≤ bytes.length ∧ byteAt bytes 0 >>> 4 = 4 ∧ byteAt bytes 9 = 6 ∧
      20 ≤ ipHeaderLen bytes ∧ ipHeaderLen bytes + 20 ≤ bytes.length ∧
      fieldU16 bytes 6 &&& 0x3fff = 0 ∧ ipHeaderLen bytes + 20 ≤ totalLen bytes ∧
      totalLen bytes ≤ bytes.length ∧ 20 ≤ tcpHeaderLen bytes ∧
      ipHeaderLen bytes + tcpHeaderLen bytes ≤ totalLen bytes)
    ⟨fun ⟨h1, h2, h3, h4, h5, h6, h7, h8, h9, h10⟩ => ⟨h1, h2, h3, h4, h5, h6, h7, h8, h9, h10⟩,
      fun ⟨h1, h2, h3, h4, h5, h6, h7, h8, h9, h10⟩ => ⟨h1, h2, h3, h4, h5, h6, h7, h8, h9, h10⟩⟩

/-- The parser never panics and accepts exactly the packets that pass its
checks. -/
theorem parseIpv4TcpBytes_eq (bytes : List UInt8) :
    parseIpv4TcpBytes bytes =
      .ok (if IsIpv4Tcp bytes then some (viewOf bytes) else none) := by
  have rejected {check : Prop} (h : IsIpv4Tcp bytes → ¬ check) (hcheck : check) :
      (pure none : Outcome (Option TcpPacketView)) =
        .ok (if IsIpv4Tcp bytes then some (viewOf bytes) else none) := by
    rw [if_neg (fun hp => h hp hcheck), Outcome.pure_eq]
  unfold parseIpv4TcpBytes
  by_cases h40 : bytes.length < 40
  · rw [if_pos h40]
    exact rejected (fun h => by have := h.long_enough; omega) h40
  rw [if_neg h40, index_eq (by omega : 0 < bytes.length),
    index_eq (by omega : 9 < bytes.length), readU16_eq (by omega : 6 + 1 < bytes.length),
    readU16_eq (by omega : 2 + 1 < bytes.length)]
  simp only [Outcome.ok_bind]
  rw [show (byteAt bytes 0 &&& 15).toNat * 4 = ipHeaderLen bytes from rfl,
    show (fieldU16 bytes 2).toNat = totalLen bytes from rfl]
  by_cases hver : byteAt bytes 0 >>> 4 ≠ 4 ∨ byteAt bytes 9 ≠ 6
  · rw [if_pos hver]
    exact rejected (fun h => by simp [h.version, h.protocol]) hver
  rw [if_neg hver]
  by_cases hihl : ipHeaderLen bytes < 20 ∨ ipHeaderLen bytes + 20 > bytes.length
  · rw [if_pos hihl]
    exact rejected (fun h => by have := h.header_min; have := h.header_max; omega) hihl
  rw [if_neg hihl]
  by_cases hfrag : fieldU16 bytes 6 &&& 0x3fff ≠ 0
  · rw [if_pos hfrag]
    exact rejected (fun h => by simp [h.unfragmented]) hfrag
  rw [if_neg hfrag]
  by_cases htotal : totalLen bytes < ipHeaderLen bytes + 20 ∨ totalLen bytes > bytes.length
  · rw [if_pos htotal]
    exact rejected (fun h => by have := h.total_min; have := h.total_max; omega) htotal
  rw [if_neg htotal, index_eq (by omega : ipHeaderLen bytes + 12 < bytes.length)]
  simp only [Outcome.ok_bind]
  rw [show (byteAt bytes (ipHeaderLen bytes + 12) >>> 4).toNat * 4 = tcpHeaderLen bytes
    from rfl]
  by_cases htcp : tcpHeaderLen bytes < 20 ∨
      ipHeaderLen bytes + tcpHeaderLen bytes > totalLen bytes
  · rw [if_pos htcp]
    exact rejected (fun h => by have := h.tcp_min; have := h.tcp_max; omega) htcp
  rw [if_neg htcp, readU32_eq (by omega : 12 + 3 < bytes.length),
    readU32_eq (by omega : 16 + 3 < bytes.length),
    readU16_eq (by omega : ipHeaderLen bytes + 1 < bytes.length),
    readU16_eq (by omega : ipHeaderLen bytes + 2 + 1 < bytes.length),
    readU32_eq (by omega : ipHeaderLen bytes + 4 + 3 < bytes.length),
    readU32_eq (by omega : ipHeaderLen bytes + 8 + 3 < bytes.length),
    index_eq (by omega : ipHeaderLen bytes + 13 < bytes.length),
    sliceRange_eq (by omega : ipHeaderLen bytes + tcpHeaderLen bytes ≤ totalLen bytes ∧
      totalLen bytes ≤ bytes.length)]
  simp only [not_or, not_not, not_lt] at hver hihl hfrag htotal htcp
  have accepted : IsIpv4Tcp bytes :=
    ⟨by omega, hver.1, hver.2, hihl.1, hihl.2, hfrag, htotal.1, htotal.2, htcp.1, htcp.2⟩
  rw [if_pos accepted]
  rfl

/-- The view the parser returns, if any. -/
def parsed (packet : RawPacket) : Option TcpPacketView :=
  if IsIpv4Tcp packet.bytes then some (viewOf packet.bytes) else none

theorem parseIpv4Tcp_eq (packet : RawPacket) :
    parseIpv4Tcp packet = .ok (parsed packet) :=
  parseIpv4TcpBytes_eq packet.bytes

theorem parsed_eq_some {packet : RawPacket} {view : TcpPacketView} :
    parsed packet = some view ↔ IsIpv4Tcp packet.bytes ∧ viewOf packet.bytes = view := by
  unfold parsed
  split <;> simp_all

/-- The flow key of a packet, as `parse_ipv4_tcp` reports it. -/
def packetKey (packet : RawPacket) : Option FlowKey :=
  (parsed packet).map TcpPacketView.key

/-- A payload is shorter than the packet that carries it. -/
theorem payload_length (bytes : List UInt8) (h : IsIpv4Tcp bytes) :
    (viewOf bytes).payload.length = totalLen bytes - payloadOffset bytes := by
  have := h.total_max
  simp only [viewOf, List.length_drop, List.length_take]
  omega

/-- The scheduler's key covers the parser: whatever the parser accepts has the
same key for the scheduler. -/
theorem schedulingFlowKey_of_parsed {packet : RawPacket} {view : TcpPacketView}
    (h : parsed packet = some view) : schedulingFlowKey packet = .ok (some view.key) := by
  obtain ⟨hp, rfl⟩ := parsed_eq_some.mp h
  have h40 := hp.long_enough
  have hmin := hp.header_min
  have hmax := hp.header_max
  have hver : ¬ (byteAt packet.bytes 0 >>> 4 ≠ 4 ∨ byteAt packet.bytes 9 ≠ 6) := by
    simp [hp.version, hp.protocol]
  unfold schedulingFlowKey
  simp only
  rw [if_neg (by omega), index_eq (by omega : 0 < packet.bytes.length),
    index_eq (by omega : 9 < packet.bytes.length)]
  simp only [Outcome.ok_bind]
  rw [show (byteAt packet.bytes 0 &&& 15).toNat * 4 = ipHeaderLen packet.bytes from rfl,
    if_neg hver, if_neg (by omega), readU32_eq (by omega : 12 + 3 < packet.bytes.length),
    readU32_eq (by omega : 16 + 3 < packet.bytes.length),
    readU16_eq (by omega : ipHeaderLen packet.bytes + 1 < packet.bytes.length),
    readU16_eq (by omega : ipHeaderLen packet.bytes + 2 + 1 < packet.bytes.length)]
  rfl

/-- The scheduler's key lookup never panics. -/
theorem schedulingFlowKey_total (packet : RawPacket) :
    ∃ key, schedulingFlowKey packet = .ok key := by
  unfold schedulingFlowKey
  simp only
  by_cases h24 : packet.bytes.length < 24
  · rw [if_pos h24]
    exact ⟨none, rfl⟩
  rw [if_neg h24, index_eq (by omega : 0 < packet.bytes.length),
    index_eq (by omega : 9 < packet.bytes.length)]
  simp only [Outcome.ok_bind]
  split
  · exact ⟨none, rfl⟩
  split
  · exact ⟨none, rfl⟩
  rename_i hlen
  rw [readU32_eq (by omega : 12 + 3 < packet.bytes.length),
    readU32_eq (by omega : 16 + 3 < packet.bytes.length), readU16_eq (by omega),
    readU16_eq (by omega)]
  exact ⟨_, rfl⟩

/-- A packet with a 20-byte IPv4 header, a 20-byte TCP header and the given
checksums. -/
def packetBytes (spec : TcpPacketSpec) (ipSum tcpSum : UInt16) : List UInt8 :=
  [0x45, 0,
    beByte (UInt16.ofNat (40 + spec.payload.length)).toNat 1,
    beByte (UInt16.ofNat (40 + spec.payload.length)).toNat 0,
    0, 0, 0x40, 0, 64, 6, beByte ipSum.toNat 1, beByte ipSum.toNat 0,
    beByte spec.key.srcIp.toNat 3, beByte spec.key.srcIp.toNat 2,
    beByte spec.key.srcIp.toNat 1, beByte spec.key.srcIp.toNat 0,
    beByte spec.key.dstIp.toNat 3, beByte spec.key.dstIp.toNat 2,
    beByte spec.key.dstIp.toNat 1, beByte spec.key.dstIp.toNat 0,
    beByte spec.key.srcPort.toNat 1, beByte spec.key.srcPort.toNat 0,
    beByte spec.key.dstPort.toNat 1, beByte spec.key.dstPort.toNat 0,
    beByte spec.seq.toNat 3, beByte spec.seq.toNat 2,
    beByte spec.seq.toNat 1, beByte spec.seq.toNat 0,
    beByte spec.ack.toNat 3, beByte spec.ack.toNat 2,
    beByte spec.ack.toNat 1, beByte spec.ack.toNat 0,
    0x50, spec.flags, 0xff, 0xff, beByte tcpSum.toNat 1, beByte tcpSum.toNat 0, 0, 0]
    ++ spec.payload

theorem packetBytes_length (spec : TcpPacketSpec) (ipSum tcpSum : UInt16) :
    (packetBytes spec ipSum tcpSum).length = 40 + spec.payload.length := by
  simp only [packetBytes, List.length_append, List.length_cons, List.length_nil]

theorem packetWithoutChecksums_eq (spec : TcpPacketSpec) :
    packetWithoutChecksums spec = packetBytes spec 0 0 := by
  have hzeros (n : Nat) : List.replicate (40 + n) (0 : UInt8) =
      List.replicate 40 0 ++ List.replicate n 0 := List.replicate_add 40 n 0
  have hfragment : beByte (UInt16.toNat 0x4000) 1 = 0x40 ∧ beByte (UInt16.toNat 0x4000) 0 = 0 ∧
      beByte (UInt16.toNat 0xffff) 1 = 0xff ∧ beByte (UInt16.toNat 0xffff) 0 = 0xff ∧
      beByte (UInt16.toNat 0) 1 = 0 ∧ beByte (UInt16.toNat 0) 0 = 0 := by decide
  obtain ⟨h1, h2, h3, h4, h5, h6⟩ := hfragment
  unfold packetWithoutChecksums packetBytes
  simp only [hzeros, writeU16, writeU32, List.replicate_succ, List.replicate_zero,
    List.cons_append, List.nil_append, List.set_cons_zero, List.set_cons_succ,
    List.take_succ_cons, List.take_zero, h1, h2, h3, h4, h5, h6, Nat.reduceAdd]

/-- The IPv4 header checksum of a built packet. -/
def ipChecksumOf (spec : TcpPacketSpec) : UInt16 :=
  checksum ((packetBytes spec 0 0).take 20)

/-- The sum below the TCP checksum of a built packet. -/
def tcpSumOf (spec : TcpPacketSpec) : Nat :=
  let packet := packetBytes spec (ipChecksumOf spec) 0
  (fieldU16 packet 12).toNat + (fieldU16 packet 14).toNat + (fieldU16 packet 16).toNat +
    (fieldU16 packet 18).toNat + 6 + (20 + spec.payload.length) +
    (tcpWords true (chunkWords (packet.drop 20))).sum

/-- The bytes `build_ipv4_tcp_packet` returns. -/
def builtBytes (spec : TcpPacketSpec) : List UInt8 :=
  packetBytes spec (ipChecksumOf spec) (foldChecksum (tcpSumOf spec))

theorem builtBytes_length (spec : TcpPacketSpec) :
    (builtBytes spec).length = 40 + spec.payload.length :=
  packetBytes_length _ _ _

theorem builtBytes_ne_nil (spec : TcpPacketSpec) : builtBytes spec ≠ [] := by
  simp [builtBytes, packetBytes]

/-- A built packet, for a payload that fits. -/
def builtPacket (spec : TcpPacketSpec) (h : 40 + spec.payload.length ≤ maxRawPacketBytes) :
    RawPacket :=
  ⟨builtBytes spec, builtBytes_ne_nil spec, by rw [builtBytes_length]; exact h⟩

/-- The builder succeeds on every payload that fits and returns the built
packet. -/
theorem buildIpv4TcpPacket_eq (spec : TcpPacketSpec)
    (h : 40 + spec.payload.length ≤ maxRawPacketBytes) :
    buildIpv4TcpPacket spec = .ok (builtPacket spec h) := by
  have hsmall : 40 + spec.payload.length ≤ 0xffff := by
    unfold maxRawPacketBytes at h
    omega
  have hip : writeU16 (packetWithoutChecksums spec) 10
      (checksum ((packetWithoutChecksums spec).take 20)) =
        packetBytes spec (ipChecksumOf spec) 0 := by
    rw [packetWithoutChecksums_eq]
    simp only [writeU16, ipChecksumOf, packetBytes, List.cons_append, List.set_cons_zero,
      List.set_cons_succ]
  have hlen := packetBytes_length spec (ipChecksumOf spec) 0
  have htcp : tcpChecksum (packetBytes spec (ipChecksumOf spec) 0) 20 true =
      .ok (foldChecksum (tcpSumOf spec)) := by
    unfold tcpChecksum tcpSumOf
    rw [if_pos (by omega), readU16_eq (by omega), readU16_eq (by omega),
      readU16_eq (by omega), readU16_eq (by omega), hlen,
      show 40 + spec.payload.length - 20 = 20 + spec.payload.length by omega]
    rfl
  have hfinal : writeU16 (packetBytes spec (ipChecksumOf spec) 0) 36
      (foldChecksum (tcpSumOf spec)) = builtBytes spec := by
    simp only [writeU16, builtBytes, packetBytes, List.cons_append, List.set_cons_zero,
      List.set_cons_succ]
  unfold buildIpv4TcpPacket
  simp only
  rw [Outcome.ensure_of _ h, Outcome.ensure_of _ hsmall, hip, htcp]
  simp only [Outcome.ok_bind]
  rw [hfinal]
  have hlength : (builtBytes spec).length ≤ maxRawPacketBytes := by
    rw [builtBytes_length]
    exact h
  unfold RawPacket.new
  rw [dif_neg (builtBytes_ne_nil spec), dif_pos hlength]
  rfl

section BuiltFields

variable (spec : TcpPacketSpec) (ipSum tcpSum : UInt16)

theorem byteAt_packetBytes_header :
    byteAt (packetBytes spec ipSum tcpSum) 0 = 0x45 ∧
    byteAt (packetBytes spec ipSum tcpSum) 9 = 6 ∧
    byteAt (packetBytes spec ipSum tcpSum) 32 = 0x50 ∧
    byteAt (packetBytes spec ipSum tcpSum) 33 = spec.flags := by
  simp only [byteAt, packetBytes, List.cons_append, List.getD_cons_zero, List.getD_cons_succ,
    and_self]

theorem ipHeaderLen_packetBytes : ipHeaderLen (packetBytes spec ipSum tcpSum) = 20 := by
  rw [ipHeaderLen, (byteAt_packetBytes_header spec ipSum tcpSum).1]
  decide

theorem tcpHeaderLen_packetBytes : tcpHeaderLen (packetBytes spec ipSum tcpSum) = 20 := by
  rw [tcpHeaderLen, ipHeaderLen_packetBytes,
    (byteAt_packetBytes_header spec ipSum tcpSum).2.2.1]
  decide

theorem totalLen_packetBytes (h : 40 + spec.payload.length ≤ maxRawPacketBytes) :
    totalLen (packetBytes spec ipSum tcpSum) = 40 + spec.payload.length := by
  have hfield : fieldU16 (packetBytes spec ipSum tcpSum) 2 =
      UInt16.ofNat (40 + spec.payload.length) := by
    rw [← u16FromBe_beByte (UInt16.ofNat (40 + spec.payload.length))]
    simp only [fieldU16, byteAt, packetBytes, List.cons_append, List.getD_cons_zero,
      List.getD_cons_succ]
  unfold maxRawPacketBytes at h
  rw [totalLen, hfield, UInt16.toNat_ofNat']
  omega

theorem keyOf_packetBytes : keyOf (packetBytes spec ipSum tcpSum) = spec.key := by
  unfold keyOf
  rw [ipHeaderLen_packetBytes]
  simp only [fieldU16, fieldU32, byteAt, packetBytes, List.cons_append, List.getD_cons_zero,
    List.getD_cons_succ, u16FromBe_beByte, u32FromBe_beByte]

/-- A packet with these headers passes every check of the parser. -/
theorem isIpv4Tcp_packetBytes (h : 40 + spec.payload.length ≤ maxRawPacketBytes) :
    IsIpv4Tcp (packetBytes spec ipSum tcpSum) := by
  obtain ⟨h0, h9, -, -⟩ := byteAt_packetBytes_header spec ipSum tcpSum
  have hlen := packetBytes_length spec ipSum tcpSum
  have hihl := ipHeaderLen_packetBytes spec ipSum tcpSum
  have hthl := tcpHeaderLen_packetBytes spec ipSum tcpSum
  have htotal := totalLen_packetBytes spec ipSum tcpSum h
  have hfrag : fieldU16 (packetBytes spec ipSum tcpSum) 6 = 0x4000 := by
    simp only [fieldU16, byteAt, packetBytes, List.cons_append, List.getD_cons_zero,
      List.getD_cons_succ]
    decide
  constructor
  · omega
  · rw [h0]; decide
  · exact h9
  · omega
  · omega
  · rw [hfrag]; decide
  · omega
  · omega
  · omega
  · omega

theorem viewOf_packetBytes (h : 40 + spec.payload.length ≤ maxRawPacketBytes) :
    viewOf (packetBytes spec ipSum tcpSum) =
      { key := spec.key, seq := spec.seq, ack := spec.ack, flags := spec.flags,
        payload := spec.payload } := by
  have hseq : fieldU32 (packetBytes spec ipSum tcpSum) 24 = spec.seq := by
    simp only [fieldU32, byteAt, packetBytes, List.cons_append, List.getD_cons_zero,
      List.getD_cons_succ, u32FromBe_beByte]
  have hack : fieldU32 (packetBytes spec ipSum tcpSum) 28 = spec.ack := by
    simp only [fieldU32, byteAt, packetBytes, List.cons_append, List.getD_cons_zero,
      List.getD_cons_succ, u32FromBe_beByte]
  have hpayload : ((packetBytes spec ipSum tcpSum).take (40 + spec.payload.length)).drop 40 =
      spec.payload := by
    rw [List.take_of_length_le (by rw [packetBytes_length])]
    rfl
  unfold viewOf payloadOffset
  rw [keyOf_packetBytes, ipHeaderLen_packetBytes, tcpHeaderLen_packetBytes,
    totalLen_packetBytes spec ipSum tcpSum h, hseq, hack,
    (byteAt_packetBytes_header spec ipSum tcpSum).2.2.2, hpayload]

end BuiltFields

/-- The parser returns from a built packet what went into it. -/
theorem parsed_builtPacket (spec : TcpPacketSpec)
    (h : 40 + spec.payload.length ≤ maxRawPacketBytes) :
    parsed (builtPacket spec h) =
      some { key := spec.key, seq := spec.seq, ack := spec.ack, flags := spec.flags,
             payload := spec.payload } :=
  parsed_eq_some.mpr
    ⟨isIpv4Tcp_packetBytes spec _ _ h, viewOf_packetBytes spec _ _ h⟩

theorem packetKey_builtPacket (spec : TcpPacketSpec)
    (h : 40 + spec.payload.length ≤ maxRawPacketBytes) :
    packetKey (builtPacket spec h) = some spec.key := by
  rw [packetKey, parsed_builtPacket]
  rfl

end Packet
end Gput
