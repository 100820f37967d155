import Gput.Library.LittleEndian
import Gput.Packet.Engine

/-!
# What the packet shader reads

The input side of `packet.wgsl`: the buffers a dispatch binds, byte and
big-endian field access to the packed words, and the header checks at the top of
`main`.  A buffer is a function from word positions to words; all arithmetic is
that of 32-bit words.  When the words hold the bytes of a packet, the header
checks accept exactly what `parse_ipv4_tcp` accepts for the listening port.
-/

namespace Gput
namespace Packet
namespace Shader

open LittleEndian

structure PacketMeta where
  len : UInt32
  wordOffset : UInt32
deriving DecidableEq, Repr

structure EngineParams where
  packetCount : UInt32
  outputWordBase : UInt32
  outputStrideWords : UInt32
  flowCapacity : UInt32
  listenPort : UInt32
  flowProbeLimit : UInt32
deriving DecidableEq, Repr

/-- The contents of a bound array of words. -/
abbrev Words : Type := UInt32 → UInt32

def invalidIndex : UInt32 := 0xffffffff

theorem add_one_toNat {i n : UInt32} (h : i < n) : (i + 1).toNat = i.toNat + 1 := by
  rw [UInt32.lt_iff_toNat_lt] at h
  have := n.toNat_lt
  rw [UInt32.toNat_add]
  simp only [UInt32.reduceToNat]
  omega

/-- An index below its bound comes closer to it by one. -/
theorem index_decreases {i n : UInt32} (h : ¬ i ≥ n) :
    n.toNat - (i + 1).toNat < n.toNat - i.toNat := by
  have hlt : i < n := UInt32.not_le.mp h
  have hnat := UInt32.lt_iff_toNat_lt.mp hlt
  rw [add_one_toNat hlt]
  omega

def readByte (inputWords : Words) (inputBase byteIndex : UInt32) : UInt32 :=
  let word := inputWords (inputBase + byteIndex / 4)
  (word >>> ((byteIndex &&& 3) * 8)) &&& 0xff

def byteSwapU32 (value : UInt32) : UInt32 :=
  ((value &&& 0x000000ff) <<< 24) ||| ((value &&& 0x0000ff00) <<< 8) |||
    ((value &&& 0x00ff0000) >>> 8) ||| ((value &&& 0xff000000) >>> 24)

def readU16Be (inputWords : Words) (inputBase offset : UInt32) : UInt32 :=
  let word := inputWords (inputBase + offset / 4)
  let pair := (word >>> ((offset &&& 2) * 8)) &&& 0xffff
  ((pair &&& 0xff) <<< 8) ||| (pair >>> 8)

def readU32Be (inputWords : Words) (inputBase offset : UInt32) : UInt32 :=
  byteSwapU32 (inputWords (inputBase + offset / 4))

/-- What `main` knows about a packet once it has passed the header checks. -/
structure Segment where
  payloadOffset : UInt32
  payloadLen : UInt32
  srcIp : UInt32
  dstIp : UInt32
  srcPort : UInt32
  dstPort : UInt32
  seq : UInt32
  ack : UInt32
  flags : UInt32
deriving DecidableEq, Repr

/-- The header checks of `main`. -/
def acceptPacket (params : EngineParams) (inputWords : Words) (inputLen inputBase : UInt32) :
    Option Segment :=
  if inputLen < 40 then none
  else
    let versionIhl := readByte inputWords inputBase 0
    if versionIhl >>> 4 ≠ 4 ∨ readByte inputWords inputBase 9 ≠ 6 then none
    else
      let ipHeaderLen := (versionIhl &&& 0x0f) * 4
      if ipHeaderLen < 20 ∨ ipHeaderLen + 20 > inputLen then none
      else if readU16Be inputWords inputBase 6 &&& 0x3fff ≠ 0 then none
      else
        let totalLen := readU16Be inputWords inputBase 2
        if totalLen > inputLen ∨ totalLen < ipHeaderLen + 20 then none
        else
          let tcpOffset := ipHeaderLen
          let dataOffset := (readByte inputWords inputBase (tcpOffset + 12) >>> 4) * 4
          if dataOffset < 20 ∨ tcpOffset + dataOffset > totalLen then none
          else
            let payloadOffset := tcpOffset + dataOffset
            let payloadLen := totalLen - payloadOffset
            let srcIp := readU32Be inputWords inputBase 12
            let dstIp := readU32Be inputWords inputBase 16
            let srcPort := readU16Be inputWords inputBase tcpOffset
            let dstPort := readU16Be inputWords inputBase (tcpOffset + 2)
            if dstPort ≠ params.listenPort then none
            else
              some
                { payloadOffset := payloadOffset
                  payloadLen := payloadLen
                  srcIp := srcIp
                  dstIp := dstIp
                  srcPort := srcPort
                  dstPort := dstPort
                  seq := readU32Be inputWords inputBase (tcpOffset + 4)
                  ack := readU32Be inputWords inputBase (tcpOffset + 8)
                  flags := readByte inputWords inputBase (tcpOffset + 13) }

theorem byteSwapU32_toNat (value : UInt32) :
    (byteSwapU32 value).toNat =
      value.toNat % 256 * 2 ^ 24 + value.toNat / 2 ^ 8 % 256 * 2 ^ 16 +
        value.toNat / 2 ^ 16 % 256 * 2 ^ 8 + value.toNat / 2 ^ 24 % 256 := by
  have h0 := and_fieldMask value.toNat 0 8
  have h1 := and_fieldMask value.toNat 8 8
  have h2 := and_fieldMask value.toNat 16 8
  have h3 := and_fieldMask value.toNat 24 8
  norm_num at h0 h1 h2 h3
  unfold byteSwapU32
  simp only [UInt32.toNat_or, UInt32.toNat_shiftLeft, UInt32.toNat_shiftRight, UInt32.toNat_and,
    UInt32.reduceToNat, h0, h1, h2, h3, Nat.shiftLeft_eq, Nat.shiftRight_eq_div_pow,
    Nat.reducePow, Nat.reduceMod]
  have hb0 : value.toNat % 256 < 256 := Nat.mod_lt _ (by omega)
  have hb1 : value.toNat / 256 % 256 < 256 := Nat.mod_lt _ (by omega)
  have hb2 : value.toNat / 65536 % 256 < 256 := Nat.mod_lt _ (by omega)
  have hb3 : value.toNat / 16777216 % 256 < 256 := Nat.mod_lt _ (by omega)
  generalize value.toNat % 256 = a at *
  generalize value.toNat / 256 % 256 = b at *
  generalize value.toNat / 65536 % 256 = c at *
  generalize value.toNat / 16777216 % 256 = d at *
  have hab : a * 2 ^ 24 ||| b * 65536 = (a * 256 + b) * 2 ^ 16 := by
    rw [or_below a (by omega)]
    omega
  have habc : (a * 256 + b) * 2 ^ 16 ||| c * 256 = (a * 65536 + b * 256 + c) * 2 ^ 8 := by
    rw [or_below _ (by omega)]
    omega
  have habcd := @or_below (a * 65536 + b * 256 + c) d 8 (by omega)
  rw [show a * 16777216 % 4294967296 = a * 2 ^ 24 by omega,
    show b * 256 * 256 % 4294967296 = b * 65536 by omega,
    show c * 65536 / 256 = c * 256 by omega, show d * 16777216 / 16777216 = d by omega,
    hab, habc, habcd]
  omega

/-- A swapped word holds the bytes of the number, highest first. -/
theorem byteSwapU32_eq_wordOf (value : UInt32) :
    byteSwapU32 value = wordOf (beByte value.toNat 3) (beByte value.toNat 2)
      (beByte value.toNat 1) (beByte value.toNat 0) := by
  apply UInt32.toNat_inj.mp
  rw [byteSwapU32_toNat, wordOf_toNat]
  simp only [assemble, beByte_toNat]
  norm_num
  omega

/-- Swapping reads the bytes of a word as a big-endian number. -/
theorem byteSwapU32_eq (word : UInt32) :
    byteSwapU32 word = u32FromBe (byteOf word 0) (byteOf word 1) (byteOf word 2) (byteOf word 3) := by
  apply UInt32.toNat_inj.mp
  rw [byteSwapU32_toNat, u32FromBe_toNat]
  simp only [byteOf_toNat]
  norm_num

section Reads

/-- The words from `inputBase` on hold the bytes. -/
def Holds (inputWords : Words) (inputBase : UInt32) (bytes : List UInt8) : Prop :=
  ∀ k r, r < 4 → 4 * k + r < bytes.length →
    byteOf (inputWords (inputBase + UInt32.ofNat k)) r = byteAt bytes (4 * k + r)

variable {inputWords : Words} {inputBase : UInt32} {bytes : List UInt8}

theorem Holds.byte (h : Holds inputWords inputBase bytes) {i : UInt32} {r : Nat} (hr : r < 4)
    (hi : 4 * (i.toNat / 4) + r < bytes.length) :
    byteOf (inputWords (inputBase + i / 4)) r = byteAt bytes (4 * (i.toNat / 4) + r) := by
  have hdiv : i / 4 = UInt32.ofNat (i.toNat / 4) := by
    have := i.toNat_lt
    apply UInt32.toNat_inj.mp
    rw [UInt32.toNat_div, UInt32.toNat_ofNat']
    simp only [UInt32.reduceToNat]
    omega
  rw [hdiv]
  exact h _ r hr hi

theorem readByte_eq (h : Holds inputWords inputBase bytes) {i : UInt32}
    (hi : i.toNat < bytes.length) :
    readByte inputWords inputBase i = (byteAt bytes i.toNat).toUInt32 := by
  have hbyte := h.byte (i := i) (Nat.mod_lt i.toNat (by omega : 4 > 0)) (by omega)
  rw [Nat.div_add_mod] at hbyte
  rw [readByte, ← hbyte]
  exact shiftMask_eq_byteOf _ _

theorem readU16Be_eq (h : Holds inputWords inputBase bytes) {i : UInt32}
    (heven : i.toNat % 2 = 0) (hi : i.toNat + 1 < bytes.length) :
    readU16Be inputWords inputBase i = (fieldU16 bytes i.toNat).toUInt32 := by
  have hhi := h.byte (i := i) (show i.toNat % 4 < 4 by omega) (by omega)
  have hlo := h.byte (i := i) (show i.toNat % 4 + 1 < 4 by omega) (by omega)
  rw [Nat.div_add_mod] at hhi
  rw [← Nat.add_assoc, Nat.div_add_mod] at hlo
  have hshift : ((i &&& 2) * 8).toNat = 8 * (i.toNat % 4) := by
    have hand : (i &&& 2).toNat = i.toNat / 2 % 2 * 2 := by
      rw [UInt32.toNat_and]
      exact and_fieldMask i.toNat 1 1
    rw [UInt32.toNat_mul, hand]
    simp only [UInt32.reduceToNat]
    omega
  have hpair : i.toNat % 4 = 0 ∨ i.toNat % 4 = 2 := by omega
  generalize hword : inputWords (inputBase + i / 4) = word at hhi hlo
  have hw := word.toNat_lt
  apply UInt32.toNat_inj.mp
  rw [UInt16.toNat_toUInt32, fieldU16, u16FromBe_toNat, ← hhi, ← hlo, byteOf_toNat, byteOf_toNat,
    readU16Be, hword]
  simp only [UInt32.toNat_or, UInt32.toNat_shiftLeft, UInt32.toNat_shiftRight, UInt32.toNat_and,
    hshift, UInt32.reduceToNat]
  have h255 (x : Nat) : x &&& 255 = x % 256 := Nat.and_two_pow_sub_one_eq_mod x 8
  have h65535 (x : Nat) : x &&& 65535 = x % 65536 := Nat.and_two_pow_sub_one_eq_mod x 16
  rw [h255, h65535, Nat.shiftLeft_eq, Nat.shiftRight_eq_div_pow, Nat.shiftRight_eq_div_pow]
  rw [show 8 * (i.toNat % 4) % 32 = 8 * (i.toNat % 4) by omega]
  have hjoin : ∀ pair, pair < 65536 →
      pair % 256 * 2 ^ (8 % 32) % 2 ^ 32 ||| pair / 2 ^ (8 % 32) =
        pair % 256 * 2 ^ 8 + pair / 256 := by
    intro pair hlt
    simp only [Nat.reduceMod, Nat.reducePow]
    rw [show pair % 256 * 256 % 4294967296 = pair % 256 * 2 ^ 8 by omega]
    exact or_below (pair % 256) (by omega)
  rw [hjoin _ (Nat.mod_lt _ (by omega))]
  rcases hpair with hpair | hpair <;> rw [hpair] <;> norm_num <;> omega

theorem readU32Be_eq (h : Holds inputWords inputBase bytes) {i : UInt32}
    (haligned : i.toNat % 4 = 0) (hi : i.toNat + 3 < bytes.length) :
    readU32Be inputWords inputBase i = fieldU32 bytes i.toNat := by
  have hbase : 4 * (i.toNat / 4) = i.toNat := by omega
  have hbyte (r : Nat) (hr : r < 4) :
      byteOf (inputWords (inputBase + i / 4)) r = byteAt bytes (i.toNat + r) := by
    rw [h.byte hr (by omega), hbase]
  rw [readU32Be, byteSwapU32_eq, hbyte 0 (by omega), hbyte 1 (by omega), hbyte 2 (by omega),
    hbyte 3 (by omega)]
  rfl

/-- What `main` reads from a packet that passes its checks. -/
def segmentOf (bytes : List UInt8) : Segment where
  payloadOffset := UInt32.ofNat (payloadOffset bytes)
  payloadLen := UInt32.ofNat (totalLen bytes - payloadOffset bytes)
  srcIp := (keyOf bytes).srcIp
  dstIp := (keyOf bytes).dstIp
  srcPort := (keyOf bytes).srcPort.toUInt32
  dstPort := (keyOf bytes).dstPort.toUInt32
  seq := (viewOf bytes).seq
  ack := (viewOf bytes).ack
  flags := (viewOf bytes).flags.toUInt32

theorem shiftRight_four_toNat (b : UInt8) : (b.toUInt32 >>> 4).toNat = (b >>> 4).toNat := by
  simp

theorem and_fifteen_toNat (b : UInt8) : (b.toUInt32 &&& 0x0f).toNat = (b &&& 0x0f).toNat := by
  simp

theorem and_fragment_eq_zero (field : UInt16) :
    field.toUInt32 &&& 0x3fff = 0 ↔ field &&& 0x3fff = 0 := by
  rw [← UInt32.toNat_inj, ← UInt16.toNat_inj]
  simp

theorem version_iff (b : UInt8) : b.toUInt32 >>> 4 = 4 ↔ b >>> 4 = 4 := by
  rw [← UInt32.toNat_inj, ← UInt8.toNat_inj, shiftRight_four_toNat]
  rfl

/-- The header lengths come from four bits each. -/
theorem ipHeaderLen_le (bytes : List UInt8) : ipHeaderLen bytes ≤ 60 := by
  have hand := Nat.and_le_right (n := (byteAt bytes 0).toNat) (m := 15)
  rw [ipHeaderLen, UInt8.toNat_and]
  simp only [UInt8.reduceToNat]
  omega

theorem tcpHeaderLen_le (bytes : List UInt8) : tcpHeaderLen bytes ≤ 60 := by
  have hbyte := (byteAt bytes (ipHeaderLen bytes + 12)).toNat_lt
  rw [tcpHeaderLen, ← shiftRight_four_toNat, UInt32.toNat_shiftRight, UInt8.toNat_toUInt32,
    Nat.shiftRight_eq_div_pow]
  simp only [UInt32.reduceToNat, Nat.reduceMod, Nat.reducePow]
  omega

theorem ipHeaderLen_toNat (bytes : List UInt8) :
    (((byteAt bytes 0).toUInt32 &&& 0x0f) * 4).toNat = ipHeaderLen bytes := by
  have hle := ipHeaderLen_le bytes
  unfold ipHeaderLen at hle ⊢
  rw [UInt32.toNat_mul, and_fifteen_toNat]
  simp only [UInt32.reduceToNat]
  omega

theorem tcpHeaderLen_toNat (bytes : List UInt8) :
    (((byteAt bytes (ipHeaderLen bytes + 12)).toUInt32 >>> 4) * 4).toNat = tcpHeaderLen bytes := by
  have hle := tcpHeaderLen_le bytes
  unfold tcpHeaderLen at hle ⊢
  rw [UInt32.toNat_mul, shiftRight_four_toNat]
  simp only [UInt32.reduceToNat]
  omega

/-- The header checks accept the packets the parser accepts for the listening
port. -/
theorem acceptPacket_eq (h : Holds inputWords inputBase bytes)
    (hsize : bytes.length ≤ maxRawPacketBytes) {inputLen : UInt32}
    (hlen : inputLen.toNat = bytes.length) (params : EngineParams) :
    acceptPacket params inputWords inputLen inputBase =
      if IsIpv4Tcp bytes ∧ (keyOf bytes).dstPort.toUInt32 = params.listenPort then
        some (segmentOf bytes)
      else none := by
  unfold maxRawPacketBytes at hsize
  have rejected {check : Prop} (hnot : IsIpv4Tcp bytes → ¬ check) (hcheck : check) :
      (none : Option Segment) =
        if IsIpv4Tcp bytes ∧ (keyOf bytes).dstPort.toUInt32 = params.listenPort then
          some (segmentOf bytes)
        else none := by
    rw [if_neg (fun hp => hnot hp.1 hcheck)]
  unfold acceptPacket
  by_cases h40 : inputLen < 40
  · rw [if_pos h40]
    refine rejected (fun hp => ?_) h40
    have := hp.long_enough
    rw [UInt32.lt_iff_toNat_lt, hlen]
    simp only [UInt32.reduceToNat]
    omega
  have hlong : 40 ≤ bytes.length := by
    rw [UInt32.lt_iff_toNat_lt, hlen] at h40
    simpa using h40
  have hbyte0 : readByte inputWords inputBase 0 = (byteAt bytes 0).toUInt32 :=
    readByte_eq h (by simp only [UInt32.reduceToNat]; omega)
  have hbyte9 : readByte inputWords inputBase 9 = (byteAt bytes 9).toUInt32 :=
    readByte_eq h (by simp only [UInt32.reduceToNat]; omega)
  have hfrag : readU16Be inputWords inputBase 6 = (fieldU16 bytes 6).toUInt32 :=
    readU16Be_eq h (by decide) (by simp only [UInt32.reduceToNat]; omega)
  have htotal : readU16Be inputWords inputBase 2 = (fieldU16 bytes 2).toUInt32 :=
    readU16Be_eq h (by decide) (by simp only [UInt32.reduceToNat]; omega)
  have hversion := version_iff (byteAt bytes 0)
  have hprotocol : (byteAt bytes 9).toUInt32 = 6 ↔ byteAt bytes 9 = 6 := by
    rw [← UInt32.toNat_inj, ← UInt8.toNat_inj, UInt8.toNat_toUInt32]
    rfl
  have hihl60 := ipHeaderLen_le bytes
  have hihl := ipHeaderLen_toNat bytes
  have hadd (n : UInt32) (hn : n.toNat ≤ 20) :
      (((byteAt bytes 0).toUInt32 &&& 0x0f) * 4 + n).toNat = ipHeaderLen bytes + n.toNat := by
    rw [UInt32.toNat_add, hihl]
    omega
  rw [if_neg h40]
  simp only [hbyte0, hbyte9, hfrag, htotal]
  generalize ((byteAt bytes 0).toUInt32 &&& 0x0f) * 4 = ihl at hihl hadd ⊢
  have hmultiple : ipHeaderLen bytes % 4 = 0 := Nat.mul_mod_left _ _
  by_cases hver : (byteAt bytes 0).toUInt32 >>> 4 ≠ 4 ∨ (byteAt bytes 9).toUInt32 ≠ 6
  · rw [if_pos hver]
    refine rejected (fun hp => ?_) hver
    rw [ne_eq, ne_eq, hversion, hprotocol]
    simp [hp.version, hp.protocol]
  rw [if_neg hver]
  rw [not_or, not_not, not_not, hversion, hprotocol] at hver
  have hheader : (ihl < 20 ∨ ihl + 20 > inputLen) ↔
      ipHeaderLen bytes < 20 ∨ ipHeaderLen bytes + 20 > bytes.length := by
    rw [gt_iff_lt, UInt32.lt_iff_toNat_lt, UInt32.lt_iff_toNat_lt, hadd 20 (by decide), hihl, hlen]
    rfl
  simp only [hheader]
  by_cases hmin : ipHeaderLen bytes < 20 ∨ ipHeaderLen bytes + 20 > bytes.length
  · rw [if_pos hmin]
    exact rejected (fun hp => by have := hp.header_min; have := hp.header_max; omega) hmin
  rw [if_neg hmin]
  by_cases hfragment : (fieldU16 bytes 6).toUInt32 &&& 0x3fff ≠ 0
  · rw [if_pos hfragment]
    refine rejected (fun hp => ?_) hfragment
    rw [ne_eq, and_fragment_eq_zero]
    simp [hp.unfragmented]
  rw [if_neg hfragment]
  rw [not_not, and_fragment_eq_zero] at hfragment
  have htotalNat : (fieldU16 bytes 2).toUInt32.toNat = totalLen bytes := UInt16.toNat_toUInt32 _
  have htotalLen : ((fieldU16 bytes 2).toUInt32 > inputLen ∨
      (fieldU16 bytes 2).toUInt32 < ihl + 20) ↔
        totalLen bytes > bytes.length ∨ totalLen bytes < ipHeaderLen bytes + 20 := by
    rw [gt_iff_lt, UInt32.lt_iff_toNat_lt, UInt32.lt_iff_toNat_lt, hadd 20 (by decide), hlen,
      htotalNat]
    rfl
  simp only [htotalLen]
  by_cases htot : totalLen bytes > bytes.length ∨ totalLen bytes < ipHeaderLen bytes + 20
  · rw [if_pos htot]
    exact rejected (fun hp => by have := hp.total_min; have := hp.total_max; omega) htot
  rw [if_neg htot]
  have hbyte12 : readByte inputWords inputBase (ihl + 12) =
      (byteAt bytes (ipHeaderLen bytes + 12)).toUInt32 := by
    have hnat := hadd 12 (by decide)
    simp only [UInt32.reduceToNat] at hnat
    rw [readByte_eq h (by omega), hnat]
  have htcp60 := tcpHeaderLen_le bytes
  have hdata := tcpHeaderLen_toNat bytes
  simp only [hbyte12]
  generalize ((byteAt bytes (ipHeaderLen bytes + 12)).toUInt32 >>> 4) * 4 = dataOffset at hdata ⊢
  have hoffset : (ihl + dataOffset).toNat = payloadOffset bytes := by
    rw [UInt32.toNat_add, hihl, hdata, payloadOffset]
    omega
  have htcpLen : (dataOffset < 20 ∨ ihl + dataOffset > (fieldU16 bytes 2).toUInt32) ↔
      tcpHeaderLen bytes < 20 ∨ payloadOffset bytes > totalLen bytes := by
    rw [gt_iff_lt, UInt32.lt_iff_toNat_lt, UInt32.lt_iff_toNat_lt, hoffset, hdata, htotalNat]
    rfl
  simp only [htcpLen]
  by_cases htcp : tcpHeaderLen bytes < 20 ∨ payloadOffset bytes > totalLen bytes
  · rw [if_pos htcp]
    refine rejected (fun hp => ?_) htcp
    have := hp.tcp_min
    have := hp.tcp_max
    rw [payloadOffset]
    omega
  rw [if_neg htcp]
  rw [not_or, not_lt, not_lt] at hmin htot htcp
  have haccepted : IsIpv4Tcp bytes :=
    ⟨hlong, hver.1, hver.2, hmin.1, hmin.2, hfragment, htot.2, htot.1, htcp.1, htcp.2⟩
  have hread16 (n : UInt32) (hn : n.toNat ≤ 18) (heven : n.toNat % 2 = 0) :
      readU16Be inputWords inputBase (ihl + n) =
        (fieldU16 bytes (ipHeaderLen bytes + n.toNat)).toUInt32 := by
    rw [readU16Be_eq h (by rw [hadd n (by omega)]; omega) (by rw [hadd n (by omega)]; omega),
      hadd n (by omega)]
  have hread32 (n : UInt32) (hn : n.toNat ≤ 16) (haligned : n.toNat % 4 = 0) :
      readU32Be inputWords inputBase (ihl + n) =
        fieldU32 bytes (ipHeaderLen bytes + n.toNat) := by
    rw [readU32Be_eq h (by rw [hadd n (by omega)]; omega) (by rw [hadd n (by omega)]; omega),
      hadd n (by omega)]
  have hsrcPort : readU16Be inputWords inputBase ihl = (keyOf bytes).srcPort.toUInt32 := by
    have hzero := hread16 0 (by decide) (by decide)
    rw [UInt32.add_zero] at hzero
    exact hzero
  have hdstPort : readU16Be inputWords inputBase (ihl + 2) = (keyOf bytes).dstPort.toUInt32 :=
    hread16 2 (by decide) (by decide)
  have hsrcIp : readU32Be inputWords inputBase 12 = (keyOf bytes).srcIp :=
    readU32Be_eq h (by decide) (by simp only [UInt32.reduceToNat]; omega)
  have hdstIp : readU32Be inputWords inputBase 16 = (keyOf bytes).dstIp :=
    readU32Be_eq h (by decide) (by simp only [UInt32.reduceToNat]; omega)
  have hseq : readU32Be inputWords inputBase (ihl + 4) = (viewOf bytes).seq :=
    hread32 4 (by decide) (by decide)
  have hack : readU32Be inputWords inputBase (ihl + 8) = (viewOf bytes).ack :=
    hread32 8 (by decide) (by decide)
  have hflags : readByte inputWords inputBase (ihl + 13) = (viewOf bytes).flags.toUInt32 := by
    have hnat := hadd 13 (by decide)
    simp only [UInt32.reduceToNat] at hnat
    rw [readByte_eq h (by omega), hnat]
    rfl
  simp only [hsrcPort, hdstPort, hsrcIp, hdstIp, hseq, hack, hflags]
  by_cases hport : (keyOf bytes).dstPort.toUInt32 = params.listenPort
  · rw [if_neg (not_not.mpr hport), if_pos ⟨haccepted, hport⟩]
    have hpayloadOffset : ihl + dataOffset = UInt32.ofNat (payloadOffset bytes) := by
      rw [← hoffset, UInt32.ofNat_toNat]
    have hpayloadLen : (fieldU16 bytes 2).toUInt32 - (ihl + dataOffset) =
        UInt32.ofNat (totalLen bytes - payloadOffset bytes) := by
      apply UInt32.toNat_inj.mp
      rw [UInt32.toNat_sub_of_le _ _ (by rw [UInt32.le_iff_toNat_le]; omega), htotalNat, hoffset,
        UInt32.toNat_ofNat']
      omega
    rw [hpayloadLen, hpayloadOffset]
    rfl
  · rw [if_pos hport, if_neg (fun hp => hport hp.2)]

end Reads

end Shader
end Packet
end Gput
