import Gput.Packet.Checksum
import Gput.Packet.Dispatch

/-!
# Emitted packets are built packets

`emit_packet` leaves the bytes that `build_ipv4_tcp_packet` returns for the same
fields.  The two sum the same words, the shader from the fields and a
precomputed sum for the response, so that two rounds of folding are enough:
`checksumFold_eq`.
-/

namespace Gput
namespace Packet
namespace Shader

open OnesComplement LittleEndian

/-- One round of folding, as the shader computes it. -/
theorem round_toNat (sum : UInt32) :
    ((sum &&& (0xffff : UInt32)) + (sum >>> 16)).toNat =
      sum.toNat % 2 ^ 16 + sum.toNat / 2 ^ 16 := by
  have hlt := sum.toNat_lt
  have hmask : sum.toNat &&& 65535 = sum.toNat % 2 ^ 16 :=
    Nat.and_two_pow_sub_one_eq_mod sum.toNat 16
  rw [UInt32.toNat_add, UInt32.toNat_and, UInt32.toNat_shiftRight]
  simp only [UInt32.reduceToNat, Nat.reduceMod, Nat.shiftRight_eq_div_pow, hmask]
  omega

/-- The two rounds of the shader fold as far as the loop of the host. -/
theorem checksumFold_eq (sum : UInt32) :
    (checksumFold sum).toUInt16 = foldChecksum sum.toNat := by
  have hlt := sum.toNat_lt
  obtain ⟨value, hfolds, hvalue⟩ := foldChecksum_spec hlt
  have hsame := (Folds.twice hlt).unique hfolds
  have hfit := hfolds.lt
  have hmask (folded : UInt32) : (~~~ folded &&& (0xffff : UInt32)).toNat =
      (~~~ folded).toNat % 2 ^ 16 := by
    rw [UInt32.toNat_and]
    exact Nat.and_two_pow_sub_one_eq_mod _ 16
  apply UInt16.toNat_inj.mp
  rw [hvalue, UInt32.toNat_toUInt16, checksumFold, hmask, UInt32.toNat_not, round_toNat,
    round_toNat, hsame]
  simp only [UInt32.size]
  omega

theorem checksumU32_toNat (value : UInt32) :
    (checksumU32 value).toNat = value.toNat / 2 ^ 16 + value.toNat % 2 ^ 16 := by
  rw [checksumU32, UInt32.add_comm, round_toNat, Nat.add_comm]

/-- The halves of a 32-bit field as the words of its bytes. -/
theorem beByte_halves (value : UInt32) :
    (beByte value.toNat 3).toNat * 2 ^ 8 + (beByte value.toNat 2).toNat =
        value.toNat / 2 ^ 16 ∧
      (beByte value.toNat 1).toNat * 2 ^ 8 + (beByte value.toNat 0).toNat =
        value.toNat % 2 ^ 16 := by
  have := value.toNat_lt
  simp only [beByte_toNat]
  constructor
  · norm_num
    omega
  · norm_num
    omega

section Sums

variable (spec : TcpPacketSpec)

/-- The header checksum sums two words of constants, the length and the
addresses. -/
theorem headerSum_fields :
    (chunkWords ((packetBytes spec 0 0).take 20)).sum =
      0x4500 + (UInt16.ofNat (40 + spec.payload.length)).toNat + 0x4000 + 0x4006 +
        (spec.key.srcIp.toNat / 2 ^ 16 + spec.key.srcIp.toNat % 2 ^ 16) +
        (spec.key.dstIp.toNat / 2 ^ 16 + spec.key.dstIp.toNat % 2 ^ 16) := by
  obtain ⟨hsrcHigh, hsrcLow⟩ := beByte_halves spec.key.srcIp
  obtain ⟨hdstHigh, hdstLow⟩ := beByte_halves spec.key.dstIp
  have hlength := beByte_word (UInt16.ofNat (40 + spec.payload.length))
  have hzero : (beByte (UInt16.toNat 0) 1).toNat = 0 ∧ (beByte (UInt16.toNat 0) 0).toNat = 0 := by
    decide
  simp only [packetBytes, List.cons_append, List.take_succ_cons, List.take_zero, chunkWords,
    List.sum_cons, List.sum_nil, hzero.1, hzero.2, hsrcHigh, hsrcLow, hdstHigh, hdstLow, hlength,
    UInt8.reduceToNat]
  ring

/-- The TCP checksum sums the pseudo header, the fields, and the payload. -/
theorem tcpSumOf_fields :
    tcpSumOf spec =
      (spec.key.srcIp.toNat / 2 ^ 16 + spec.key.srcIp.toNat % 2 ^ 16) +
        (spec.key.dstIp.toNat / 2 ^ 16 + spec.key.dstIp.toNat % 2 ^ 16) + 6 +
        (20 + spec.payload.length) + (spec.key.srcPort.toNat + spec.key.dstPort.toNat) +
        (spec.seq.toNat / 2 ^ 16 + spec.seq.toNat % 2 ^ 16 +
          (spec.ack.toNat / 2 ^ 16 + spec.ack.toNat % 2 ^ 16)) +
        (0x5000 + spec.flags.toNat) + 0xffff + (chunkWords spec.payload).sum := by
  obtain ⟨hsrcHigh, hsrcLow⟩ := beByte_halves spec.key.srcIp
  obtain ⟨hdstHigh, hdstLow⟩ := beByte_halves spec.key.dstIp
  obtain ⟨hseqHigh, hseqLow⟩ := beByte_halves spec.seq
  obtain ⟨hackHigh, hackLow⟩ := beByte_halves spec.ack
  have hsrcPort := beByte_word spec.key.srcPort
  have hdstPort := beByte_word spec.key.dstPort
  have hfields (ipSum : UInt16) :
      (fieldU16 (packetBytes spec ipSum 0) 12).toNat = spec.key.srcIp.toNat / 2 ^ 16 ∧
        (fieldU16 (packetBytes spec ipSum 0) 14).toNat = spec.key.srcIp.toNat % 2 ^ 16 ∧
        (fieldU16 (packetBytes spec ipSum 0) 16).toNat = spec.key.dstIp.toNat / 2 ^ 16 ∧
        (fieldU16 (packetBytes spec ipSum 0) 18).toNat = spec.key.dstIp.toNat % 2 ^ 16 :=
    ⟨(u16FromBe_toNat _ _).trans hsrcHigh, (u16FromBe_toNat _ _).trans hsrcLow,
      (u16FromBe_toNat _ _).trans hdstHigh, (u16FromBe_toNat _ _).trans hdstLow⟩
  obtain ⟨h12, h14, h16, h18⟩ := hfields (ipChecksumOf spec)
  simp only [tcpSumOf, h12, h14, h16, h18]
  simp only [packetBytes, List.cons_append, List.nil_append, List.drop_succ_cons, List.drop_zero,
    chunkWords, tcpWords, if_true, List.eraseIdx_cons_succ, List.eraseIdx_cons_zero, List.sum_cons,
    hseqHigh, hseqLow, hackHigh, hackLow, hsrcPort, hdstPort, UInt8.reduceToNat]
  ring

/-- What the table says about the sum of a response. -/
theorem responseChecksumSum_spec {responseId : UInt32} (h : responseId < responseCount) :
    (responseChecksumSum responseId).toNat = (chunkWords (packetResponse responseId)).sum := by
  have hall : ∀ id < responseCount.toNat, (responseChecksumSum (UInt32.ofNat id)).toNat =
      (chunkWords (packetResponse (UInt32.ofNat id))).sum := by
    decide +kernel
  have hid := hall responseId.toNat (UInt32.lt_iff_toNat_lt.mp h)
  rwa [UInt32.ofNat_toNat] at hid

variable (h : 40 + spec.payload.length ≤ maxRawPacketBytes)
include h

/-- The header checksum of the shader is that of the builder. -/
theorem ipv4Checksum_eq :
    (ipv4Checksum (UInt32.ofNat (40 + spec.payload.length)) spec.key.srcIp
      spec.key.dstIp).toUInt16 = ipChecksumOf spec := by
  unfold maxRawPacketBytes at h
  have hsrc := spec.key.srcIp.toNat_lt
  have hdst := spec.key.dstIp.toNat_lt
  have hnat : (0x4500 + UInt32.ofNat (40 + spec.payload.length) + 0x4000 + 0x4006 +
      checksumU32 spec.key.srcIp + checksumU32 spec.key.dstIp).toNat =
        (chunkWords ((packetBytes spec 0 0).take 20)).sum := by
    rw [headerSum_fields]
    simp only [UInt32.toNat_add, checksumU32_toNat, UInt32.toNat_ofNat', UInt16.toNat_ofNat',
      UInt32.reduceToNat]
    omega
  rw [ipv4Checksum, checksumFold_eq, hnat, ipChecksumOf, checksum]

/-- The TCP checksum of the shader, over the precomputed sum of the response, is
that of the builder, over the bytes. -/
theorem tcpChecksum_eq {responseId : UInt32} (hpayload : spec.payload = shaderResponse responseId) :
    (tcpChecksum spec.key.srcIp spec.key.dstIp spec.key.srcPort.toUInt32
      spec.key.dstPort.toUInt32 spec.seq spec.ack spec.flags.toUInt32
      (UInt32.ofNat (40 + spec.payload.length) - 20) responseId).toUInt16 =
        foldChecksum (tcpSumOf spec) := by
  have hsumLt := (tcpSumOf_lt spec h).2
  have hresponse : (if responseId < responseCount then responseChecksumSum responseId else 0).toNat =
      (chunkWords spec.payload).sum := by
    rw [hpayload, shaderResponse]
    split
    case isTrue hid => exact responseChecksumSum_spec hid
    case isFalse => rfl
  have hflags : ((0x5000 : UInt32) ||| spec.flags.toUInt32).toNat = 0x5000 + spec.flags.toNat := by
    have hlt := spec.flags.toNat_lt
    rw [UInt32.toNat_or, UInt8.toNat_toUInt32]
    exact or_below 0x50 hlt
  have hlength :
      (UInt32.ofNat (40 + spec.payload.length) - 20).toNat = 20 + spec.payload.length := by
    unfold maxRawPacketBytes at h
    rw [UInt32.toNat_sub, UInt32.toNat_ofNat']
    simp only [UInt32.reduceToNat]
    omega
  have hadd (sum : UInt32) :
      (if responseId < responseCount then sum + responseChecksumSum responseId else sum) =
        sum + if responseId < responseCount then responseChecksumSum responseId else 0 := by
    split
    · rfl
    · rw [UInt32.add_zero]
  rw [tcpSumOf_fields, ← hresponse] at hsumLt ⊢
  rw [tcpChecksum, hadd, checksumFold_eq]
  refine congrArg foldChecksum ?_
  simp only [UInt32.toNat_add, checksumU32_toNat, hflags, hlength, UInt16.toNat_toUInt32,
    UInt32.reduceToNat, Nat.mod_add_mod, Nat.add_mod_mod]
  exact Nat.mod_eq_of_lt hsumLt

end Sums

/-- The text for a response id, empty for an id outside the table. -/
theorem shaderResponse_eq (responseId : UInt32) :
    shaderResponse responseId = packetResponses[responseId.toNat]?.getD [] := by
  have hcount : responseCount.toNat = packetResponses.length := by decide
  rw [shaderResponse, packetResponse, List.getD_eq_getElem?_getD]
  by_cases hid : responseId < responseCount
  · have hlt := UInt32.lt_iff_toNat_lt.mp hid
    rw [if_pos hid, List.getElem?_eq_getElem (by omega), Option.getD_some, Option.getD_some]
  · have hge := mt UInt32.lt_iff_toNat_lt.mpr hid
    rw [if_neg hid, List.getElem?_eq_none (by omega), Option.getD_none]

/-- The packet of a reply is the one the builder returns. -/
theorem shaderReplyBytes_eq_built (key : FlowKey) (reply : Reply) :
    shaderReplyBytes key reply = builtBytes (replySpec shaderResponse key reply) := by
  have hpayload := shaderResponse_getD reply.response
  have hmax := (response_facts (reply.response.getD invalidIndex)).1
  have hpacket := maxResponsePacketBytes_le
  have hfits : 40 + (replySpec shaderResponse key reply).payload.length ≤ maxRawPacketBytes := by
    change 40 + ((reply.response.map shaderResponse).getD []).length ≤ maxRawPacketBytes
    rw [← hpayload]
    omega
  rw [builtBytes, ← ipv4Checksum_eq _ hfits, ← tcpChecksum_eq _ hfits hpayload.symm]
  rfl

/-- After `emit_packet` the slot of any packet of a wave holds the packet that
the builder returns for the same fields, and the checksums of that packet are
right; the sum over its bytes is the one the shader computes from its tables. -/
theorem emitted_eq_built (config : PacketEngineConfig) {packetCount index : Nat}
    (houtput : packetCount * (1 + outputStrideWords) ≤ 2 ^ 32) (hindex : index < packetCount)
    (output : Words) (key : FlowKey) (seq ack : UInt32) (flags : UInt8) (responseId : UInt32) :
    let params := engineParams config packetCount
    let spec : TcpPacketSpec :=
      ⟨key, seq, ack, flags, packetResponses[responseId.toNat]?.getD []⟩
    ∃ packet, buildIpv4TcpPacket spec = .ok packet ∧
      emitted params
        (emitPacket params output (UInt32.ofNat index) key.srcIp key.dstIp key.srcPort.toUInt32
          key.dstPort.toUInt32 seq ack flags.toUInt32 responseId)
        (UInt32.ofNat index) = some packet.bytes ∧
      validateIpv4TcpChecksums packet = .ok () ∧
      Packet.tcpChecksum packet.bytes 20 true =
        .ok (tcpChecksum key.srcIp key.dstIp key.srcPort.toUInt32 key.dstPort.toUInt32 seq ack
          flags.toUInt32 (UInt32.ofNat (40 + spec.payload.length) - 20) responseId).toUInt16 := by
  intro params spec
  have hpayload : spec.payload = shaderResponse responseId := (shaderResponse_eq responseId).symm
  have hmax := (response_facts responseId).1
  have hpacket := maxResponsePacketBytes_le
  have hfits : 40 + spec.payload.length ≤ maxRawPacketBytes := by
    rw [hpayload]
    omega
  refine ⟨_, buildIpv4TcpPacket_eq spec hfits, ?_, validate_builtPacket spec hfits, ?_⟩
  · have hemitted := emitted_reply (slotFits_engineParams config houtput hindex) output key.reply
      ⟨seq, ack, flags, some responseId⟩
    refine hemitted.trans (congrArg some ?_)
    rw [shaderReplyBytes_eq_built]
    change builtBytes ⟨key, seq, ack, flags, shaderResponse responseId⟩ = builtBytes spec
    rw [← hpayload]
  · rw [tcpChecksum_eq spec hfits hpayload]
    exact tcpChecksum_builtBytes spec

/-- The second response, in the last slot of a wave of two. -/
theorem emitted_eq_built_second :
    let params := engineParams ⟨2, 16, 4, 8080⟩ 2
    let spec : TcpPacketSpec :=
      ⟨⟨1, 2, 3, 4⟩, 5, 6, 0x18, packetResponses[(1 : UInt32).toNat]?.getD []⟩
    ∃ packet, buildIpv4TcpPacket spec = .ok packet ∧
      emitted params (emitPacket params (fun _ => 7) (UInt32.ofNat 1) 1 2 (3 : UInt16).toUInt32
        (4 : UInt16).toUInt32 5 6 (0x18 : UInt8).toUInt32 1) (UInt32.ofNat 1) =
          some packet.bytes ∧
      validateIpv4TcpChecksums packet = .ok () ∧
      Packet.tcpChecksum packet.bytes 20 true =
        .ok (tcpChecksum 1 2 (3 : UInt16).toUInt32 (4 : UInt16).toUInt32 5 6
          (0x18 : UInt8).toUInt32 (UInt32.ofNat (40 + spec.payload.length) - 20) 1).toUInt16 :=
  emitted_eq_built ⟨2, 16, 4, 8080⟩ (by rw [outputStrideWords_eq]; decide) (by decide)
    (fun _ => 7) ⟨1, 2, 3, 4⟩ 5 6 0x18 1

end Shader
end Packet
end Gput
