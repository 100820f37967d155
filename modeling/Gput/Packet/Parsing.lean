import Gput.Packet.Dispatch

/-!
# Parsing a packet on both sides

The header checks of `main` against `parse_ipv4_tcp`, for a packet placed
anywhere in a packed wave.  The reads of the shader are repeated here with the
length of the packet as their bound, so that a read outside the packet is a
panic; `acceptPacketWithin_eq` says that the header checks never make one.
-/

namespace Gput
namespace Packet
namespace Shader

open ByteString

section Bounded

variable (limit : Nat) (inputWords : Words) (inputBase : UInt32)

/-- `read_byte`, a panic outside the first `limit` bytes. -/
def readByteWithin (byteIndex : UInt32) : Outcome UInt32 :=
  if byteIndex.toNat < limit then .ok (readByte inputWords inputBase byteIndex) else .panic

/-- `read_u16_be`, a panic when one of its two bytes is outside. -/
def readU16BeWithin (offset : UInt32) : Outcome UInt32 :=
  if 4 * (offset.toNat / 4) + (offset &&& 2).toNat + 1 < limit then
    .ok (readU16Be inputWords inputBase offset)
  else .panic

/-- `read_u32_be`, a panic when one of its four bytes is outside. -/
def readU32BeWithin (offset : UInt32) : Outcome UInt32 :=
  if 4 * (offset.toNat / 4) + 3 < limit then .ok (readU32Be inputWords inputBase offset)
  else .panic

variable {limit}

theorem readByteWithin_eq {byteIndex : UInt32} (h : byteIndex.toNat < limit) :
    readByteWithin limit inputWords inputBase byteIndex =
      .ok (readByte inputWords inputBase byteIndex) :=
  if_pos h

/-- At an even offset the two bytes are the byte at the offset and the next. -/
theorem readU16BeWithin_eq {offset : UInt32} (heven : offset.toNat % 2 = 0)
    (h : offset.toNat + 1 < limit) :
    readU16BeWithin limit inputWords inputBase offset =
      .ok (readU16Be inputWords inputBase offset) := by
  have hand : (offset &&& 2).toNat = offset.toNat / 2 % 2 * 2 := by
    rw [UInt32.toNat_and]
    exact LittleEndian.and_fieldMask offset.toNat 1 1
  refine if_pos ?_
  rw [hand]
  omega

/-- At an aligned offset the four bytes start at the offset. -/
theorem readU32BeWithin_eq {offset : UInt32} (haligned : offset.toNat % 4 = 0)
    (h : offset.toNat + 3 < limit) :
    readU32BeWithin limit inputWords inputBase offset =
      .ok (readU32Be inputWords inputBase offset) := by
  refine if_pos ?_
  omega

end Bounded

/-- The header checks of `main`, with a bound on what they read. -/
def acceptPacketWithin (limit : Nat) (params : EngineParams) (inputWords : Words)
    (inputLen inputBase : UInt32) : Outcome (Option Segment) := do
  if inputLen < 40 then return none
  let versionIhl ← readByteWithin limit inputWords inputBase 0
  let protocol ← readByteWithin limit inputWords inputBase 9
  if versionIhl >>> 4 ≠ 4 ∨ protocol ≠ 6 then return none
  let ipHeaderLen := (versionIhl &&& 0x0f) * 4
  if ipHeaderLen < 20 ∨ ipHeaderLen + 20 > inputLen then return none
  let fragment ← readU16BeWithin limit inputWords inputBase 6
  if fragment &&& 0x3fff ≠ 0 then return none
  let totalLen ← readU16BeWithin limit inputWords inputBase 2
  if totalLen > inputLen ∨ totalLen < ipHeaderLen + 20 then return none
  let tcpOffset := ipHeaderLen
  let offsetByte ← readByteWithin limit inputWords inputBase (tcpOffset + 12)
  let dataOffset := (offsetByte >>> 4) * 4
  if dataOffset < 20 ∨ tcpOffset + dataOffset > totalLen then return none
  let payloadOffset := tcpOffset + dataOffset
  let payloadLen := totalLen - payloadOffset
  let srcIp ← readU32BeWithin limit inputWords inputBase 12
  let dstIp ← readU32BeWithin limit inputWords inputBase 16
  let srcPort ← readU16BeWithin limit inputWords inputBase tcpOffset
  let dstPort ← readU16BeWithin limit inputWords inputBase (tcpOffset + 2)
  if dstPort ≠ params.listenPort then return none
  let seq ← readU32BeWithin limit inputWords inputBase (tcpOffset + 4)
  let ack ← readU32BeWithin limit inputWords inputBase (tcpOffset + 8)
  let flags ← readByteWithin limit inputWords inputBase (tcpOffset + 13)
  return some
    { payloadOffset := payloadOffset
      payloadLen := payloadLen
      srcIp := srcIp
      dstIp := dstIp
      srcPort := srcPort
      dstPort := dstPort
      seq := seq
      ack := ack
      flags := flags }

/-- The header length is a multiple of four and small, so the offsets behind it
are computed without overflow. -/
theorem headerOffset_toNat (versionIhl : UInt32) {n : UInt32} (hn : n.toNat ≤ 20) :
    ((versionIhl &&& 0x0f) * 4 + n).toNat = ((versionIhl &&& 0x0f) * 4).toNat + n.toNat ∧
      ((versionIhl &&& 0x0f) * 4).toNat % 4 = 0 := by
  have hand : (versionIhl &&& 0x0f).toNat ≤ 15 := by
    rw [UInt32.toNat_and]
    exact Nat.and_le_right
  rw [UInt32.toNat_add, UInt32.toNat_mul]
  simp only [UInt32.reduceToNat]
  omega

/-- Whatever the words hold, the header checks read no byte outside the length
they are given. -/
theorem acceptPacketWithin_eq (params : EngineParams) (inputWords : Words)
    (inputLen inputBase : UInt32) :
    acceptPacketWithin inputLen.toNat params inputWords inputLen inputBase =
      .ok (acceptPacket params inputWords inputLen inputBase) := by
  unfold acceptPacketWithin acceptPacket
  by_cases h40 : inputLen < 40
  · rw [if_pos h40, if_pos h40]
    rfl
  have hlong : 40 ≤ inputLen.toNat := by
    rw [UInt32.lt_iff_toNat_lt] at h40
    simpa using h40
  have constant (n : UInt32) (hn : n.toNat < 40) : n.toNat < inputLen.toNat :=
    Nat.lt_of_lt_of_le hn hlong
  rw [if_neg h40, if_neg h40, readByteWithin_eq _ _ (constant 0 (by decide)),
    readByteWithin_eq _ _ (constant 9 (by decide)),
    readU16BeWithin_eq _ _ (by decide : (6 : UInt32).toNat % 2 = 0) (constant 7 (by decide)),
    readU16BeWithin_eq _ _ (by decide : (2 : UInt32).toNat % 2 = 0) (constant 3 (by decide)),
    readU32BeWithin_eq _ _ (by decide : (12 : UInt32).toNat % 4 = 0) (constant 15 (by decide)),
    readU32BeWithin_eq _ _ (by decide : (16 : UInt32).toNat % 4 = 0) (constant 19 (by decide))]
  simp only [Outcome.ok_bind]
  have hoffset (n : UInt32) (hn : n.toNat ≤ 20) :=
    headerOffset_toNat (readByte inputWords inputBase 0) hn
  generalize readByte inputWords inputBase 0 >>> 4 = version
  generalize (readByte inputWords inputBase 0 &&& 0x0f) * 4 = ihl at hoffset ⊢
  by_cases hversion : version ≠ 4 ∨ readByte inputWords inputBase 9 ≠ 6
  · rw [if_pos hversion, if_pos hversion]
    rfl
  rw [if_neg hversion, if_neg hversion]
  by_cases hheader : ihl < 20 ∨ ihl + 20 > inputLen
  · rw [if_pos hheader, if_pos hheader]
    rfl
  rw [if_neg hheader, if_neg hheader]
  have hroom : ihl.toNat + 20 ≤ inputLen.toNat := by
    have hle := UInt32.not_lt.mp (not_or.mp hheader).2
    rw [UInt32.le_iff_toNat_le, (hoffset 20 (by decide)).1] at hle
    exact hle
  have inside (n : UInt32) (hn : n.toNat ≤ 20) (k : Nat) (hk : n.toNat + k < 20) :
      (ihl + n).toNat + k < inputLen.toNat := by
    rw [(hoffset n hn).1]
    omega
  have aligned (n : UInt32) (hn : n.toNat ≤ 20) (hfour : n.toNat % 4 = 0) :
      (ihl + n).toNat % 4 = 0 := by
    have := hoffset n hn
    omega
  have heven : ihl.toNat % 2 = 0 := by
    have := (hoffset 0 (by decide)).2
    omega
  have heven2 : (ihl + 2).toNat % 2 = 0 := by
    have := (hoffset 2 (by decide)).1
    simp only [UInt32.reduceToNat] at this
    omega
  rw [readByteWithin_eq _ _ (inside 12 (by decide) 0 (by decide)),
    readU16BeWithin_eq _ _ heven (by omega),
    readU16BeWithin_eq _ _ heven2 (inside 2 (by decide) 1 (by decide)),
    readU32BeWithin_eq _ _ (aligned 4 (by decide) (by decide)) (inside 4 (by decide) 3 (by decide)),
    readU32BeWithin_eq _ _ (aligned 8 (by decide) (by decide)) (inside 8 (by decide) 3 (by decide)),
    readByteWithin_eq _ _ (inside 13 (by decide) 0 (by decide))]
  simp only [Outcome.ok_bind]
  split
  · rfl
  split
  · rfl
  split
  · rfl
  split <;> rfl

namespace Invocation

/-- The metadata an invocation looks up. -/
def slot (invocation : Invocation) : PacketMeta :=
  metaOf invocation.metadata (UInt32.ofNat invocation.position)

/-- A presented packet lies inside the uploaded bytes. -/
theorem slot_inside {invocation : Invocation} {packet : RawPacket}
    (h : invocation.Presents packet) :
    4 * invocation.slot.wordOffset.toNat + packet.bytes.length ≤ invocation.packed.length := by
  obtain ⟨total, hprepared, hpacked, -⟩ := h.packed
  obtain ⟨packed, hpacked', hlength, -, hholds⟩ :=
    packWaveBytes_spec (List.replicate (4 * total) 0) hprepared (by rw [List.length_replicate])
  rw [hpacked] at hpacked'
  cases hpacked'
  obtain ⟨slot, hslot, hat⟩ := hholds _ _ h.packet
  have hmeta : invocation.slot = slot := by
    rw [Invocation.slot, metaOf, h.position_toNat, List.getD_eq_getElem?_getD, hslot]
    rfl
  have hinside := hat.inside
  rw [List.length_replicate] at hlength
  rw [hmeta, hlength]
  omega

end Invocation

/-- What the shader knows about a packet is what the view says, and the payload
is the byte range the shader computes. -/
structure SameParse (bytes : List UInt8) (view : TcpPacketView) (tcp : Segment) : Prop where
  srcIp : tcp.srcIp = view.key.srcIp
  dstIp : tcp.dstIp = view.key.dstIp
  srcPort : tcp.srcPort = view.key.srcPort.toUInt32
  dstPort : tcp.dstPort = view.key.dstPort.toUInt32
  seq : tcp.seq = view.seq
  ack : tcp.ack = view.ack
  flags : tcp.flags = view.flags.toUInt32
  start : tcp.payloadOffset.toNat = payloadOffset bytes
  stop : tcp.payloadOffset.toNat + tcp.payloadLen.toNat = totalLen bytes
  inside : tcp.payloadOffset.toNat + tcp.payloadLen.toNat ≤ bytes.length
  payload : view.payload = (bytes.drop tcp.payloadOffset.toNat).take tcp.payloadLen.toNat

theorem sameParse_segmentOf {bytes : List UInt8} (h : IsIpv4Tcp bytes)
    (hsize : bytes.length ≤ maxRawPacketBytes) :
    SameParse bytes (viewOf bytes) (segmentOf bytes) := by
  have hmax := h.total_max
  have htcp : payloadOffset bytes ≤ totalLen bytes := h.tcp_max
  unfold maxRawPacketBytes at hsize
  have hstart : (segmentOf bytes).payloadOffset.toNat = payloadOffset bytes := by
    rw [segmentOf, UInt32.toNat_ofNat']
    omega
  have hlen : (segmentOf bytes).payloadLen.toNat = totalLen bytes - payloadOffset bytes := by
    rw [segmentOf, UInt32.toNat_ofNat']
    omega
  refine ⟨rfl, rfl, rfl, rfl, rfl, rfl, rfl, hstart, ?_, ?_, ?_⟩
  · rw [hstart, hlen]
    omega
  · rw [hstart, hlen]
    omega
  · rw [hstart, hlen, viewOf, List.drop_take]

/-- The shader and the host parse alike: neither makes an access outside the
packet, the shader goes on exactly with the segments for the listening port,
and it reads from them what the host does. -/
theorem parsers_agree (config : PacketEngineConfig) {invocation : Invocation} {packet : RawPacket}
    (h : invocation.Presents packet) :
    ∃ (view : Option TcpPacketView) (tcp : Option Segment),
      parseIpv4Tcp packet = .ok view ∧
      acceptPacketWithin packet.bytes.length (engineParams config invocation.wave.length)
          (wordsOf invocation.packed) invocation.slot.len invocation.slot.wordOffset = .ok tcp ∧
      4 * invocation.slot.wordOffset.toNat + packet.bytes.length ≤ invocation.packed.length ∧
      acceptPacket (engineParams config invocation.wave.length) (wordsOf invocation.packed)
          invocation.slot.len invocation.slot.wordOffset = tcp ∧
      (tcp.isSome ↔ ∃ v, view = some v ∧ v.key.dstPort = config.listenPort) ∧
      ∀ v s, view = some v → tcp = some s → SameParse packet.bytes v s := by
  have hpresented := Invocation.presented config h
  have haccept := acceptPacket_eq hpresented.holds packet.length_le hpresented.len
    (engineParams config invocation.wave.length)
  have hport (port : UInt16) :
      port.toUInt32 = (engineParams config invocation.wave.length).listenPort ↔
        port = config.listenPort := UInt16.toUInt32_inj
  refine ⟨parsed packet, _, parseIpv4Tcp_eq packet, ?_, Invocation.slot_inside h, rfl, ?_, ?_⟩
  · rw [← hpresented.len]
    exact acceptPacketWithin_eq _ _ _ _
  · rw [Invocation.slot, haccept]
    split
    case isTrue hif =>
      refine iff_of_true rfl ⟨viewOf packet.bytes, parsed_eq_some.mpr ⟨hif.1, rfl⟩, ?_⟩
      exact (hport _).mp hif.2
    case isFalse hif =>
      refine iff_of_false Bool.false_ne_true ?_
      rintro ⟨v, hview, hdst⟩
      obtain ⟨hpacket, rfl⟩ := parsed_eq_some.mp hview
      exact hif ⟨hpacket, (hport _).mpr hdst⟩
  · intro v s hview hsome
    obtain ⟨hpacket, rfl⟩ := parsed_eq_some.mp hview
    rw [Invocation.slot, haccept] at hsome
    split at hsome
    · cases hsome
      exact sameParse_segmentOf hpacket packet.length_le
    · cases hsome

/-- A client's request. -/
def getPacket : RawPacket :=
  builtPacket
    { key := { srcIp := 0x0a000001, dstIp := 0x0a000002, srcPort := 1000, dstPort := 8080 }
      seq := 101
      ack := 1
      flags := Packet.tcpAck
      payload := ascii "GET /health HTTP/1.1\r\n" } (by decide)

theorem parsers_agree_getPacket :
    ∃ invocation : Invocation, invocation.Presents getPacket ∧
      ∃ (view : Option TcpPacketView) (tcp : Option Segment),
        parseIpv4Tcp getPacket = .ok view ∧
        acceptPacketWithin getPacket.bytes.length (engineParams ⟨64, 4, 4, 8080⟩ 1)
          (wordsOf invocation.packed) invocation.slot.len invocation.slot.wordOffset = .ok tcp ∧
        tcp.isSome := by
  obtain ⟨invocation, hwave, hpresents⟩ := Invocation.exists_presents getPacket
  obtain ⟨view, tcp, hview, htcp, -, -, hsome, -⟩ := parsers_agree ⟨64, 4, 4, 8080⟩ hpresents
  rw [hwave] at htcp
  have hparsed := hview
  rw [parseIpv4Tcp_eq, getPacket, parsed_builtPacket] at hparsed
  exact ⟨invocation, hpresents, view, tcp, hview, htcp,
    hsome.mpr ⟨_, (Outcome.ok.inj hparsed).symm, rfl⟩⟩

/-- The reads from an offset of a packet return the part of it that starts
there. -/
theorem readsAt_part {inputWords : Words} {inputBase : UInt32} {before part after : List UInt8}
    (h : Holds inputWords inputBase (before ++ part ++ after))
    (hsize : (before ++ part ++ after).length ≤ maxRawPacketBytes) :
    ReadsAt inputWords inputBase (UInt32.ofNat before.length) part := by
  intro i hi
  unfold maxRawPacketBytes at hsize
  rw [List.length_append, List.length_append] at hsize
  have hnat : (UInt32.ofNat before.length + i).toNat = before.length + i.toNat := by
    rw [UInt32.toNat_add, UInt32.toNat_ofNat']
    omega
  have hinside : before.length + i.toNat < (before ++ part ++ after).length := by
    rw [List.length_append, List.length_append]
    omega
  rw [readByte_eq h (by rw [hnat]; exact hinside), hnat]
  congr 1
  rw [byteAt, List.append_assoc, List.getD_append_right _ _ _ _ (Nat.le_add_right _ _),
    Nat.add_sub_cancel_left, List.getD_append _ _ _ _ hi]

/-- The shader and the host classify alike whatever bytes stand at whatever
place of a packed packet. -/
theorem classifiers_agree {invocation : Invocation} {packet : RawPacket}
    (h : invocation.Presents packet) {before payload after : List UInt8}
    (hbytes : packet.bytes = before ++ payload ++ after) :
    classifyRequest (wordsOf invocation.packed) invocation.slot.wordOffset
        (UInt32.ofNat before.length) (UInt32.ofNat payload.length) =
      classifyHttpRequest payload := by
  have hholds := (Invocation.presented ⟨64, 4, 4, 8080⟩ h).holds
  have hsize := packet.length_le
  rw [hbytes] at hholds hsize
  have hread := readsAt_part hholds hsize
  unfold maxRawPacketBytes at hsize
  rw [List.length_append, List.length_append] at hsize
  refine classifyRequest_eq hread (by omega) ?_
  rw [UInt32.toNat_ofNat']
  omega

theorem classifiers_agree_getPacket :
    ∃ invocation : Invocation, invocation.Presents getPacket ∧
      classifyRequest (wordsOf invocation.packed) invocation.slot.wordOffset 40 22 =
        responseHealth := by
  obtain ⟨invocation, -, hpresents⟩ := Invocation.exists_presents getPacket
  have hbytes : getPacket.bytes =
      getPacket.bytes.take 40 ++ ascii "GET /health HTTP/1.1\r\n" ++ [] := by decide +kernel
  have hagree := classifiers_agree hpresents hbytes
  exact ⟨invocation, hpresents, hagree.trans (by decide +kernel)⟩

end Shader
end Packet
end Gput
