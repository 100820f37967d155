import Gput.Packet.Flow
import Gput.Packet.ShaderInput
import Mathlib.Logic.Function.Basic

/-!
# What the packet shader writes

The output side of `packet.wgsl`: the response tables that
`packet_shader_source` puts in front of the shader, the field writers, and
`emit_packet`, which lays out an IPv4/TCP packet in the output slot of an
invocation.  `emitted_emitPacket` says that the host reads back the packet with
the given fields and the given response.
-/

namespace Gput
namespace Packet
namespace Shader

open LittleEndian

/-- What `packet_shader_source` collects over the responses. -/
structure ResponseTables where
  bytes : List UInt8
  wordOffsets : List UInt32
  wordCounts : List UInt32
  lengths : List UInt32
  checksumSums : List UInt32

/-- `internet_checksum_sum`. -/
def internetChecksumSum (bytes : List UInt8) : UInt32 :=
  UInt32.ofNat (chunkWords bytes).sum

/-- The bytes padded to whole words. -/
def padToWord (bytes : List UInt8) : List UInt8 :=
  bytes ++ List.replicate ((4 - bytes.length % 4) % 4) 0

/-- One round of the loop of `packet_shader_source`. -/
def addResponse (tables : ResponseTables) (response : List UInt8) : ResponseTables :=
  let bytes := padToWord tables.bytes
  { bytes := bytes ++ response
    wordOffsets := tables.wordOffsets ++ [UInt32.ofNat (bytes.length / 4)]
    wordCounts := tables.wordCounts ++ [UInt32.ofNat ((response.length + 3) / 4)]
    lengths := tables.lengths ++ [UInt32.ofNat response.length]
    checksumSums := tables.checksumSums ++ [internetChecksumSum response] }

def responseTables : ResponseTables :=
  packetResponses.foldl addResponse ⟨[], [], [], [], []⟩

def responseCount : UInt32 := UInt32.ofNat packetResponses.length

def responseWordOffset (responseId : UInt32) : UInt32 :=
  responseTables.wordOffsets.getD responseId.toNat 0

def responseWordCount (responseId : UInt32) : UInt32 :=
  responseTables.wordCounts.getD responseId.toNat 0

def responseLength (responseId : UInt32) : UInt32 :=
  responseTables.lengths.getD responseId.toNat 0

def responseChecksumSum (responseId : UInt32) : UInt32 :=
  responseTables.checksumSums.getD responseId.toNat 0

/-- `RESPONSE_WORDS`, the packed bytes of the table. -/
def responseWord (index : UInt32) : UInt32 :=
  (ofBytes responseTables.bytes).getD index.toNat 0

/-- Where the output slot of an invocation starts. -/
def outputBase (params : EngineParams) (packetIndex : UInt32) : UInt32 :=
  params.outputWordBase + packetIndex * params.outputStrideWords

def writeU16Be (params : EngineParams) (output : Words) (packetIndex offset value : UInt32) :
    Words :=
  let base := outputBase params packetIndex
  let wordIndex := base + offset / 4
  let shift : UInt32 := (offset &&& 2) * 8
  let mask := (0xffff : UInt32) <<< shift
  let swapped := ((value &&& 0xff) <<< 8) ||| ((value >>> 8) &&& 0xff)
  Function.update output wordIndex ((output wordIndex &&& ~~~ mask) ||| (swapped <<< shift))

def writeU32Be (params : EngineParams) (output : Words) (packetIndex offset value : UInt32) :
    Words :=
  let base := outputBase params packetIndex
  Function.update output (base + offset / 4) (byteSwapU32 value)

def checksumFold (inputSum : UInt32) : UInt32 :=
  let sum := (inputSum &&& (0xffff : UInt32)) + (inputSum >>> 16)
  let sum := (sum &&& (0xffff : UInt32)) + (sum >>> 16)
  (~~~ sum) &&& 0xffff

def checksumU32 (value : UInt32) : UInt32 :=
  (value >>> 16) + (value &&& (0xffff : UInt32))

def ipv4Checksum (packetLen srcIp dstIp : UInt32) : UInt32 :=
  checksumFold (0x4500 + packetLen + 0x4000 + 0x4006 + checksumU32 srcIp + checksumU32 dstIp)

/-- `tcp_checksum` of the shader. -/
def tcpChecksum (srcIp dstIp srcPort dstPort seq ack flags tcpLen responseId : UInt32) : UInt32 :=
  let sum := checksumU32 srcIp + checksumU32 dstIp + 6 + tcpLen
  let sum := sum + (srcPort + dstPort)
  let sum := sum + (checksumU32 seq + checksumU32 ack)
  let sum := sum + ((0x5000 : UInt32) ||| flags)
  let sum := sum + 0xffff
  let sum := if responseId < responseCount then sum + responseChecksumSum responseId else sum
  checksumFold sum

def writeIpv4 (params : EngineParams) (output : Words) (packetIndex len srcIp dstIp : UInt32) :
    Words :=
  let base := outputBase params packetIndex
  let output := Function.update output base (byteSwapU32 (0x45000000 ||| len))
  let output := Function.update output (base + 1) (byteSwapU32 0x00004000)
  let output := Function.update output (base + 2) (byteSwapU32 0x40060000)
  let output := writeU32Be params output packetIndex 12 srcIp
  writeU32Be params output packetIndex 16 dstIp

def writeTcp (params : EngineParams) (output : Words)
    (packetIndex srcPort dstPort seq ack flags : UInt32) : Words :=
  let base := outputBase params packetIndex
  let output := Function.update output (base + 5) (byteSwapU32 ((srcPort <<< 16) ||| dstPort))
  let output := writeU32Be params output packetIndex 24 seq
  let output := writeU32Be params output packetIndex 28 ack
  let output := Function.update output (base + 8)
    (byteSwapU32 ((0x50000000 : UInt32) ||| (flags <<< 16) ||| 0xffff))
  Function.update output (base + 9) 0

def writeChecksums (params : EngineParams) (output : Words)
    (packetIndex packetLen srcIp dstIp srcPort dstPort seq ack flags responseId : UInt32) :
    Words :=
  let tcpLen := packetLen - 20
  let output := writeU16Be params output packetIndex 10 (ipv4Checksum packetLen srcIp dstIp)
  writeU16Be params output packetIndex 36
    (tcpChecksum srcIp dstIp srcPort dstPort seq ack flags tcpLen responseId)

/-- The loop of `write_http_response`. -/
def copyResponse (output : Words) (outputBase sourceBase wordCount wordIndex : UInt32) : Words :=
  if wordIndex ≥ wordCount then output
  else
    copyResponse
      (Function.update output (outputBase + wordIndex) (responseWord (sourceBase + wordIndex)))
      outputBase sourceBase wordCount (wordIndex + 1)
termination_by wordCount.toNat - wordIndex.toNat
decreasing_by exact index_decreases ‹_›

def writeHttpResponse (params : EngineParams) (output : Words) (packetIndex responseId : UInt32) :
    Words :=
  copyResponse output (outputBase params packetIndex + 10) (responseWordOffset responseId)
    (responseWordCount responseId) 0

def emitPacket (params : EngineParams) (output : Words)
    (packetIndex srcIp dstIp srcPort dstPort seq ack flags responseId : UInt32) : Words :=
  let payloadLen := if responseId < responseCount then responseLength responseId else 0
  let packetLen := 40 + payloadLen
  let output := writeIpv4 params output packetIndex packetLen srcIp dstIp
  let output := writeTcp params output packetIndex srcPort dstPort seq ack flags
  let output :=
    if responseId < responseCount then writeHttpResponse params output packetIndex responseId
    else output
  let output := writeChecksums params output packetIndex packetLen srcIp dstIp srcPort dstPort seq
    ack flags responseId
  Function.update output packetIndex packetLen

/-- What the host reads back from the output slot of an invocation. -/
def emitted (params : EngineParams) (output : Words) (packetIndex : UInt32) :
    Option (List UInt8) :=
  if output packetIndex = 0 then none
  else
    some ((List.range (output packetIndex).toNat).map fun k =>
      byteOf (output (outputBase params packetIndex + UInt32.ofNat (k / 4))) (k % 4))

/-- What the tables say about every response. -/
theorem responseTables_spec : ∀ id < responseCount.toNat,
    let response := packetResponse (UInt32.ofNat id)
    (responseLength (UInt32.ofNat id)).toNat = response.length ∧
      (responseWordCount (UInt32.ofNat id)).toNat = (response.length + 3) / 4 ∧
      response <+: responseTables.bytes.drop (4 * (responseWordOffset (UInt32.ofNat id)).toNat) := by
  decide +kernel

theorem toBytes_byteSwapU32 (value : UInt32) :
    toBytes [byteSwapU32 value] = [beByte value.toNat 3, beByte value.toNat 2,
      beByte value.toNat 1, beByte value.toNat 0] := by
  rw [byteSwapU32_eq_wordOf, toBytes_wordOf]

/-- The two bytes of a field, exchanged within the low half of a word. -/
theorem swapped_toNat (value : UInt32) :
    (((value &&& 0xff) <<< 8) ||| ((value >>> 8) &&& 0xff)).toNat =
      value.toNat % 256 * 2 ^ 8 + value.toNat / 2 ^ 8 % 256 := by
  have h255 (x : Nat) : x &&& 255 = x % 256 := Nat.and_two_pow_sub_one_eq_mod x 8
  rw [UInt32.toNat_or, UInt32.toNat_shiftLeft, UInt32.toNat_and, UInt32.toNat_and,
    UInt32.toNat_shiftRight]
  simp only [UInt32.reduceToNat, Nat.reduceMod, h255, Nat.shiftLeft_eq,
    Nat.shiftRight_eq_div_pow]
  rw [← or_below _ (show value.toNat / 2 ^ 8 % 256 < 2 ^ 8 by omega)]
  congr 1
  omega

theorem toBytes_upperField (value : UInt32) :
    toBytes [((0x00000640 : UInt32) &&& ~~~ ((0xffff : UInt32) <<< 16)) |||
      ((((value &&& 0xff) <<< 8) ||| ((value >>> 8) &&& 0xff)) <<< 16)] =
      [0x40, 6, beByte value.toNat 1, beByte value.toNat 0] := by
  have hword : ((0x00000640 : UInt32) &&& ~~~ ((0xffff : UInt32) <<< 16)) |||
      ((((value &&& 0xff) <<< 8) ||| ((value >>> 8) &&& 0xff)) <<< 16) =
        wordOf 0x40 6 (beByte value.toNat 1) (beByte value.toNat 0) := by
    apply UInt32.toNat_inj.mp
    rw [show (0x00000640 : UInt32) &&& ~~~ ((0xffff : UInt32) <<< 16) = 0x640 by decide,
      UInt32.toNat_or, UInt32.toNat_shiftLeft, swapped_toNat, Nat.or_comm, wordOf_toNat]
    simp only [assemble, beByte_toNat, UInt32.reduceToNat, UInt8.reduceToNat, Nat.reduceMod,
      Nat.shiftLeft_eq]
    rw [Nat.mod_eq_of_lt (by omega), or_below _ (by omega)]
    omega
  rw [hword, toBytes_wordOf]

theorem toBytes_lowerField (value : UInt32) :
    toBytes [((0 : UInt32) &&& ~~~ ((0xffff : UInt32) <<< 0)) |||
      ((((value &&& 0xff) <<< 8) ||| ((value >>> 8) &&& 0xff)) <<< 0)] =
      [beByte value.toNat 1, beByte value.toNat 0, 0, 0] := by
  have hword : ((0 : UInt32) &&& ~~~ ((0xffff : UInt32) <<< 0)) |||
      ((((value &&& 0xff) <<< 8) ||| ((value >>> 8) &&& 0xff)) <<< 0) =
        wordOf (beByte value.toNat 1) (beByte value.toNat 0) 0 0 := by
    apply UInt32.toNat_inj.mp
    rw [show (0 : UInt32) &&& ~~~ ((0xffff : UInt32) <<< 0) = 0 by decide,
      UInt32.toNat_or, UInt32.toNat_shiftLeft, swapped_toNat, wordOf_toNat]
    simp only [assemble, beByte_toNat, UInt32.reduceToNat, UInt8.reduceToNat, Nat.zero_or,
      Nat.shiftLeft_eq]
    norm_num
    omega
  rw [hword, toBytes_wordOf]

theorem toBytes_lengthWord {len : Nat} (hlen : len < 2 ^ 16) :
    toBytes [byteSwapU32 (0x45000000 ||| UInt32.ofNat len)] =
      [0x45, 0, beByte (UInt16.ofNat len).toNat 1, beByte (UInt16.ofNat len).toNat 0] := by
  have hnat : ((0x45000000 : UInt32) ||| UInt32.ofNat len).toNat = 0x45000000 + len := by
    rw [UInt32.toNat_or, UInt32.toNat_ofNat', Nat.mod_eq_of_lt (by omega)]
    exact or_below 0x4500 hlen
  rw [toBytes_byteSwapU32, hnat, UInt16.toNat_ofNat', Nat.mod_eq_of_lt hlen]
  have hbytes : beByte (0x45000000 + len) 3 = 0x45 ∧ beByte (0x45000000 + len) 2 = 0 ∧
      beByte (0x45000000 + len) 1 = beByte len 1 ∧ beByte (0x45000000 + len) 0 = beByte len 0 := by
    refine ⟨?_, ?_, ?_, ?_⟩ <;> apply UInt8.toNat_inj.mp <;>
      simp only [beByte_toNat, UInt8.reduceToNat] <;> omega
  rw [hbytes.1, hbytes.2.1, hbytes.2.2.1, hbytes.2.2.2]

theorem toBytes_portsWord (srcPort dstPort : UInt16) :
    toBytes [byteSwapU32 ((srcPort.toUInt32 <<< 16) ||| dstPort.toUInt32)] =
      [beByte srcPort.toNat 1, beByte srcPort.toNat 0, beByte dstPort.toNat 1,
        beByte dstPort.toNat 0] := by
  have hsrc := srcPort.toNat_lt
  have hdst := dstPort.toNat_lt
  have hnat : ((srcPort.toUInt32 <<< 16) ||| dstPort.toUInt32).toNat =
      srcPort.toNat * 2 ^ 16 + dstPort.toNat := by
    rw [UInt32.toNat_or, UInt32.toNat_shiftLeft, Nat.shiftLeft_eq, UInt16.toNat_toUInt32,
      UInt16.toNat_toUInt32, ← or_below _ hdst]
    simp only [UInt32.reduceToNat, Nat.reduceMod, Nat.reducePow]
    rw [Nat.mod_eq_of_lt (by omega)]
  rw [toBytes_byteSwapU32, hnat]
  have hbytes : beByte (srcPort.toNat * 2 ^ 16 + dstPort.toNat) 3 = beByte srcPort.toNat 1 ∧
      beByte (srcPort.toNat * 2 ^ 16 + dstPort.toNat) 2 = beByte srcPort.toNat 0 ∧
      beByte (srcPort.toNat * 2 ^ 16 + dstPort.toNat) 1 = beByte dstPort.toNat 1 ∧
      beByte (srcPort.toNat * 2 ^ 16 + dstPort.toNat) 0 = beByte dstPort.toNat 0 := by
    refine ⟨?_, ?_, ?_, ?_⟩ <;> apply UInt8.toNat_inj.mp <;>
      simp only [beByte_toNat] <;> omega
  rw [hbytes.1, hbytes.2.1, hbytes.2.2.1, hbytes.2.2.2]

theorem toBytes_flagsWord (flags : UInt8) :
    toBytes [byteSwapU32 ((0x50000000 : UInt32) ||| (flags.toUInt32 <<< 16) ||| 0xffff)] =
      [0x50, flags, 0xff, 0xff] := by
  have hflags := flags.toNat_lt
  have hnat : ((0x50000000 : UInt32) ||| (flags.toUInt32 <<< 16) ||| 0xffff).toNat =
      0x50000000 + flags.toNat * 2 ^ 16 + 0xffff := by
    rw [UInt32.toNat_or, UInt32.toNat_or, UInt32.toNat_shiftLeft, Nat.shiftLeft_eq,
      UInt8.toNat_toUInt32]
    simp only [UInt32.reduceToNat, Nat.reduceMod]
    rw [Nat.mod_eq_of_lt (by omega)]
    have hupper := @or_below 0x50 (flags.toNat * 2 ^ 16) 24 (by omega)
    norm_num at hupper
    rw [show flags.toNat * 2 ^ 16 = flags.toNat * 65536 by omega, hupper]
    have hlower := @or_below (0x5000 + flags.toNat) 0xffff 16 (by omega)
    rw [show 1342177280 + flags.toNat * 65536 = (0x5000 + flags.toNat) * 2 ^ 16 by omega, hlower]
  rw [toBytes_byteSwapU32, hnat]
  have hbytes : beByte (0x50000000 + flags.toNat * 2 ^ 16 + 0xffff) 3 = 0x50 ∧
      beByte (0x50000000 + flags.toNat * 2 ^ 16 + 0xffff) 2 = flags ∧
      beByte (0x50000000 + flags.toNat * 2 ^ 16 + 0xffff) 1 = 0xff ∧
      beByte (0x50000000 + flags.toNat * 2 ^ 16 + 0xffff) 0 = 0xff := by
    refine ⟨?_, ?_, ?_, ?_⟩ <;> apply UInt8.toNat_inj.mp <;>
      simp only [beByte_toNat, UInt8.reduceToNat] <;> omega
  rw [hbytes.1, hbytes.2.1, hbytes.2.2.1, hbytes.2.2.2]

/-- Word `n` of the output slot of an invocation. -/
def slotWord (params : EngineParams) (packetIndex : UInt32) (output : Words) (n : Nat) : UInt32 :=
  output (outputBase params packetIndex + UInt32.ofNat n)

section SlotWords

variable (params : EngineParams) (packetIndex : UInt32) (output : Words)

theorem slotWord_update (k value : UInt32) {n : Nat} (hn : n < 2 ^ 32) :
    slotWord params packetIndex
        (Function.update output (outputBase params packetIndex + k) value) n =
      if n = k.toNat then value else slotWord params packetIndex output n := by
  have haddress : outputBase params packetIndex + UInt32.ofNat n =
      outputBase params packetIndex + k ↔ n = k.toNat := by
    rw [UInt32.add_right_inj, ← UInt32.toNat_inj, UInt32.toNat_ofNat', Nat.mod_eq_of_lt hn]
  unfold slotWord
  rw [Function.update_apply]
  simp only [haddress]

theorem slotWord_update_base (value : UInt32) {n : Nat} (hn : n < 2 ^ 32) :
    slotWord params packetIndex
        (Function.update output (outputBase params packetIndex) value) n =
      if n = 0 then value else slotWord params packetIndex output n := by
  have h := slotWord_update params packetIndex output 0 value hn
  rw [UInt32.add_zero] at h
  exact h

theorem slotWord_writeU32Be (offset value : UInt32) {n : Nat} (hn : n < 2 ^ 32) :
    slotWord params packetIndex (writeU32Be params output packetIndex offset value) n =
      if n = offset.toNat / 4 then byteSwapU32 value else slotWord params packetIndex output n := by
  rw [writeU32Be, slotWord_update _ _ _ _ _ hn, UInt32.toNat_div]
  rfl

/-- The header words of an emitted packet. -/
def headerWords (len srcIp dstIp srcPort dstPort seq ack flags ipSum tcpSum : UInt32) :
    List UInt32 :=
  [byteSwapU32 (0x45000000 ||| len), byteSwapU32 0x00004000,
    ((0x00000640 : UInt32) &&& ~~~ ((0xffff : UInt32) <<< (16 : UInt32))) |||
      ((((ipSum &&& 0xff) <<< 8) ||| ((ipSum >>> 8) &&& 0xff)) <<< 16),
    byteSwapU32 srcIp, byteSwapU32 dstIp, byteSwapU32 ((srcPort <<< 16) ||| dstPort),
    byteSwapU32 seq, byteSwapU32 ack,
    byteSwapU32 ((0x50000000 : UInt32) ||| (flags <<< 16) ||| 0xffff),
    ((0 : UInt32) &&& ~~~ ((0xffff : UInt32) <<< 0)) |||
      ((((tcpSum &&& 0xff) <<< 8) ||| ((tcpSum >>> 8) &&& 0xff)) <<< 0)]

theorem slotWord_copyResponse (sourceBase wordCount : UInt32) (hcount : wordCount.toNat < 2 ^ 31)
    (wordIndex : UInt32) : ∀ (output : Words) {n : Nat}, n < 2 ^ 32 →
    slotWord params packetIndex
        (copyResponse output (outputBase params packetIndex + 10) sourceBase wordCount wordIndex) n =
      if 10 + wordIndex.toNat ≤ n ∧ n < 10 + wordCount.toNat then
        responseWord (sourceBase + UInt32.ofNat (n - 10))
      else slotWord params packetIndex output n := by
  induction h : wordCount.toNat - wordIndex.toNat generalizing wordIndex with
  | zero =>
      intro output n hn
      have hge : wordIndex ≥ wordCount := UInt32.le_iff_toNat_le.mpr (by omega)
      rw [copyResponse, if_pos hge, if_neg (by omega)]
  | succ remaining ih =>
      intro output n hn
      have hlt : wordIndex < wordCount := UInt32.lt_iff_toNat_lt.mpr (by omega)
      have hnext := add_one_toNat hlt
      have haddress : (10 + wordIndex).toNat = 10 + wordIndex.toNat := by
        rw [UInt32.toNat_add]
        simp only [UInt32.reduceToNat]
        omega
      rw [copyResponse, if_neg (UInt32.not_le.mpr hlt), ih (wordIndex + 1) (by omega) _ hn, hnext,
        UInt32.add_assoc, slotWord_update _ _ _ _ _ hn, haddress]
      by_cases hn10 : n = 10 + wordIndex.toNat
      · rw [if_neg (by omega), if_pos hn10, if_pos (by omega), hn10, Nat.add_sub_cancel_left,
          UInt32.ofNat_toNat]
      · rw [if_neg hn10]
        by_cases hin : 10 + wordIndex.toNat ≤ n ∧ n < 10 + wordCount.toNat
        · rw [if_pos hin, if_pos (by omega)]
        · rw [if_neg hin, if_neg (by omega)]

theorem slotWord_writeU16Be (offset value : UInt32) {n : Nat} (hn : n < 2 ^ 32) :
    slotWord params packetIndex (writeU16Be params output packetIndex offset value) n =
      if n = offset.toNat / 4 then
        (slotWord params packetIndex output n &&& ~~~ ((0xffff : UInt32) <<< ((offset &&& 2) * 8))) |||
          ((((value &&& 0xff) <<< 8) ||| ((value >>> 8) &&& 0xff)) <<< ((offset &&& 2) * 8))
      else slotWord params packetIndex output n := by
  rw [writeU16Be, slotWord_update _ _ _ _ _ hn, UInt32.toNat_div]
  simp only [UInt32.reduceToNat]
  by_cases hoffset : n = offset.toNat / 4
  · have haddress : UInt32.ofNat n = offset / 4 := by
      apply UInt32.toNat_inj.mp
      rw [UInt32.toNat_ofNat', Nat.mod_eq_of_lt hn, UInt32.toNat_div, hoffset]
      rfl
    rw [if_pos hoffset, if_pos hoffset, slotWord, haddress]
  · rw [if_neg hoffset, if_neg hoffset]

theorem slotWord_update_index {n : Nat} (value : UInt32)
    (hindex : outputBase params packetIndex + UInt32.ofNat n ≠ packetIndex) :
    slotWord params packetIndex (Function.update output packetIndex value) n =
      slotWord params packetIndex output n := by
  rw [slotWord, Function.update_of_ne hindex]
  rfl

/-- The headers occupy the first ten words. -/
theorem slotWord_writeHeaders (len srcIp dstIp srcPort dstPort seq ack flags : UInt32) {n : Nat}
    (hn : n < 2 ^ 32) :
    slotWord params packetIndex
        (writeTcp params (writeIpv4 params output packetIndex len srcIp dstIp) packetIndex srcPort
          dstPort seq ack flags) n =
      if n < 10 then
        [byteSwapU32 (0x45000000 ||| len), byteSwapU32 0x00004000, 0x640, byteSwapU32 srcIp,
          byteSwapU32 dstIp, byteSwapU32 ((srcPort <<< 16) ||| dstPort), byteSwapU32 seq,
          byteSwapU32 ack, byteSwapU32 ((0x50000000 : UInt32) ||| (flags <<< 16) ||| 0xffff),
          0].getD n 0
      else slotWord params packetIndex output n := by
  have hprotocol : byteSwapU32 0x40060000 = 0x640 := by decide
  simp only [writeTcp, writeIpv4, hprotocol, slotWord_update _ _ _ _ _ hn,
    slotWord_update_base _ _ _ _ hn, slotWord_writeU32Be _ _ _ _ _ hn, UInt32.reduceToNat,
    Nat.reduceDiv]
  by_cases h10 : n < 10
  · rw [if_pos h10]
    interval_cases n <;> rfl
  · rw [if_neg h10]
    have hne (k : Nat) (hk : k < 10) : n ≠ k := by omega
    simp only [hne _ (show 0 < 10 by omega), hne _ (show 1 < 10 by omega),
      hne _ (show 2 < 10 by omega), hne _ (show 3 < 10 by omega), hne _ (show 4 < 10 by omega),
      hne _ (show 5 < 10 by omega), hne _ (show 6 < 10 by omega), hne _ (show 7 < 10 by omega),
      hne _ (show 8 < 10 by omega), hne _ (show 9 < 10 by omega), if_false]

/-- The checksums fill two half words of the headers. -/
theorem slotWord_writeChecksums (packetLen srcIp dstIp srcPort dstPort seq ack flags
    responseId : UInt32) {n : Nat} (hn : n < 2 ^ 32) :
    slotWord params packetIndex
        (writeChecksums params output packetIndex packetLen srcIp dstIp srcPort dstPort seq ack
          flags responseId) n =
      let ipSum := ipv4Checksum packetLen srcIp dstIp
      let tcpSum := tcpChecksum srcIp dstIp srcPort dstPort seq ack flags (packetLen - 20) responseId
      if n = 9 then
        (slotWord params packetIndex output n &&& ~~~ ((0xffff : UInt32) <<< (0 : UInt32))) |||
          ((((tcpSum &&& 0xff) <<< 8) ||| ((tcpSum >>> 8) &&& 0xff)) <<< 0)
      else if n = 2 then
        (slotWord params packetIndex output n &&& ~~~ ((0xffff : UInt32) <<< (16 : UInt32))) |||
          ((((ipSum &&& 0xff) <<< 8) ||| ((ipSum >>> 8) &&& 0xff)) <<< 16)
      else slotWord params packetIndex output n := by
  have hupper : ((10 : UInt32) &&& 2) * 8 = 16 := by decide
  have hlower : ((36 : UInt32) &&& 2) * 8 = 0 := by decide
  simp only [writeChecksums, slotWord_writeU16Be _ _ _ _ _ hn, UInt32.reduceToNat, Nat.reduceDiv,
    hupper, hlower]
  by_cases h9 : n = 9
  · rw [if_pos h9, if_pos h9, if_neg (by omega)]
  · rw [if_neg h9, if_neg h9]

/-- The words of the slot after `emit_packet`. -/
theorem slotWord_emitPacket (srcIp dstIp srcPort dstPort seq ack flags responseId : UInt32)
    {n : Nat} (hn : n < 2 ^ 32)
    (hindex : outputBase params packetIndex + UInt32.ofNat n ≠ packetIndex)
    (hcount : (responseWordCount responseId).toNat < 2 ^ 31) :
    slotWord params packetIndex
        (emitPacket params output packetIndex srcIp dstIp srcPort dstPort seq ack flags
          responseId) n =
      let len := 40 + if responseId < responseCount then responseLength responseId else 0
      if n < 10 then
        (headerWords len srcIp dstIp srcPort dstPort seq ack flags
          (ipv4Checksum len srcIp dstIp)
          (tcpChecksum srcIp dstIp srcPort dstPort seq ack flags (len - 20) responseId)).getD n 0
      else if responseId < responseCount ∧ n < 10 + (responseWordCount responseId).toNat then
        responseWord (responseWordOffset responseId + UInt32.ofNat (n - 10))
      else slotWord params packetIndex output n := by
  unfold emitPacket
  simp only
  rw [slotWord_update_index _ _ _ _ hindex, slotWord_writeChecksums _ _ _ _ _ _ _ _ _ _ _ _ hn]
  simp only
  generalize 40 + (if responseId < responseCount then responseLength responseId else 0) = len
  have hbody : slotWord params packetIndex
      (if responseId < responseCount then
        writeHttpResponse params (writeTcp params (writeIpv4 params output packetIndex len srcIp
          dstIp) packetIndex srcPort dstPort seq ack flags) packetIndex responseId
      else writeTcp params (writeIpv4 params output packetIndex len srcIp dstIp) packetIndex
        srcPort dstPort seq ack flags) n =
      if responseId < responseCount ∧ 10 ≤ n ∧ n < 10 + (responseWordCount responseId).toNat then
        responseWord (responseWordOffset responseId + UInt32.ofNat (n - 10))
      else slotWord params packetIndex (writeTcp params (writeIpv4 params output packetIndex len
        srcIp dstIp) packetIndex srcPort dstPort seq ack flags) n := by
    by_cases hresponse : responseId < responseCount
    · rw [if_pos hresponse, writeHttpResponse, slotWord_copyResponse _ _ _ _ hcount _ _ hn]
      simp only [hresponse, true_and, UInt32.toNat_zero, Nat.add_zero]
    · rw [if_neg hresponse, if_neg (fun h => hresponse h.1)]
  rw [hbody, slotWord_writeHeaders _ _ _ _ _ _ _ _ _ _ _ hn]
  by_cases h10 : n < 10
  · have hheader : ¬ (responseId < responseCount ∧ 10 ≤ n ∧
        n < 10 + (responseWordCount responseId).toNat) := by
      omega
    rw [if_neg hheader, if_pos h10, if_pos h10]
    interval_cases n <;> rfl
  · rw [if_neg (show n ≠ 9 by omega), if_neg (show n ≠ 2 by omega), if_neg h10, if_neg h10]
    simp only [show 10 ≤ n by omega, true_and]

end SlotWords

theorem responseWord_byte {i : UInt32} {r : Nat} (hr : r < 4)
    (hi : 4 * i.toNat + r < responseTables.bytes.length) :
    byteOf (responseWord i) r = responseTables.bytes.getD (4 * i.toNat + r) 0 := by
  rw [responseWord, List.getD_eq_getElem?_getD, ofBytes_getElem? _ (by omega), Option.getD_some,
    byteOf_word _ _ hr]

/-- Byte `k` of a response, as the shader copies it. -/
theorem responseWord_payload {responseId : UInt32} (hid : responseId < responseCount) {k : Nat}
    (hk : k < (packetResponse responseId).length) :
    byteOf (responseWord (responseWordOffset responseId + UInt32.ofNat (k / 4))) (k % 4) =
      (packetResponse responseId).getD k 0 := by
  have hspec := responseTables_spec responseId.toNat (UInt32.lt_iff_toNat_lt.mp hid)
  rw [UInt32.ofNat_toNat] at hspec
  obtain ⟨-, -, hextends⟩ := hspec
  have hlength := hextends.length_le
  have hsize : responseTables.bytes.length < 2 ^ 16 := by decide +kernel
  rw [List.length_drop] at hlength
  generalize responseWordOffset responseId = offset at *
  have hoffset := offset.toNat_lt
  have hnat : (offset + UInt32.ofNat (k / 4)).toNat = offset.toNat + k / 4 := by
    rw [UInt32.toNat_add, UInt32.toNat_ofNat']
    omega
  rw [responseWord_byte (Nat.mod_lt k (by omega)) (by omega), hnat,
    show 4 * (offset.toNat + k / 4) + k % 4 = 4 * offset.toNat + k by omega,
    List.getD_eq_getElem?_getD, List.getD_eq_getElem?_getD, ← List.getElem?_drop,
    List.prefix_iff_getElem?.mp hextends k hk, List.getElem?_eq_getElem hk]

/-- Where the output slot of an invocation lies: behind the length words, inside
the buffer, and with room for the largest response. -/
structure SlotFits (params : EngineParams) (packetIndex : UInt32) : Prop where
  index_lt : packetIndex.toNat < params.outputWordBase.toNat
  room : params.outputWordBase.toNat + (packetIndex.toNat + 1) * params.outputStrideWords.toNat ≤
    2 ^ 32
  stride : maxResponsePacketBytes ≤ 4 * params.outputStrideWords.toNat

/-- The words of a slot, as numbers. -/
theorem SlotFits.address_toNat {params : EngineParams} {packetIndex : UInt32}
    (h : SlotFits params packetIndex) {n : Nat} (hn : n < params.outputStrideWords.toNat) :
    (outputBase params packetIndex + UInt32.ofNat n).toNat =
      params.outputWordBase.toNat + packetIndex.toNat * params.outputStrideWords.toNat + n := by
  have hroom := h.room
  rw [Nat.succ_mul] at hroom
  rw [outputBase, UInt32.toNat_add, UInt32.toNat_add, UInt32.toNat_mul, UInt32.toNat_ofNat']
  generalize packetIndex.toNat * params.outputStrideWords.toNat = start at hroom ⊢
  rw [Nat.mod_eq_of_lt (show start < 2 ^ 32 by omega), Nat.mod_eq_of_lt (show n < 2 ^ 32 by omega),
    Nat.mod_eq_of_lt (show params.outputWordBase.toNat + start < 2 ^ 32 by omega),
    Nat.mod_eq_of_lt (by omega)]

/-- The slot does not meet the length words. -/
theorem SlotFits.ne_index {params : EngineParams} {packetIndex : UInt32}
    (h : SlotFits params packetIndex) {n : Nat} (hn : n < params.outputStrideWords.toNat) :
    outputBase params packetIndex + UInt32.ofNat n ≠ packetIndex := by
  intro heq
  have hindex := h.index_lt
  have hnat := h.address_toNat hn
  rw [heq] at hnat
  omega

theorem emitPacket_index (params : EngineParams) (output : Words)
    (packetIndex srcIp dstIp srcPort dstPort seq ack flags responseId : UInt32) :
    emitPacket params output packetIndex srcIp dstIp srcPort dstPort seq ack flags responseId
      packetIndex = 40 + if responseId < responseCount then responseLength responseId else 0 := by
  rw [emitPacket, Function.update_self]

/-- The header words hold the headers of the packet. -/
theorem toBytes_headerWords (spec : TcpPacketSpec) (hsize : 40 + spec.payload.length < 2 ^ 16)
    (ipSum tcpSum : UInt32) :
    toBytes (headerWords (UInt32.ofNat (40 + spec.payload.length)) spec.key.srcIp spec.key.dstIp
        spec.key.srcPort.toUInt32 spec.key.dstPort.toUInt32 spec.seq spec.ack spec.flags.toUInt32
        ipSum tcpSum) ++ spec.payload =
      packetBytes spec ipSum.toUInt16 tcpSum.toUInt16 := by
  have hcons (w : UInt32) (ws : List UInt32) : toBytes (w :: ws) = toBytes [w] ++ toBytes ws :=
    toBytes_append [w] ws
  have hfragment : toBytes [byteSwapU32 0x00004000] = [0, 0, 0x40, 0] := by decide
  have hsum (sum : UInt32) : beByte sum.toUInt16.toNat 1 = beByte sum.toNat 1 ∧
      beByte sum.toUInt16.toNat 0 = beByte sum.toNat 0 := by
    rw [UInt32.toNat_toUInt16]
    constructor <;> apply UInt8.toNat_inj.mp <;> simp only [beByte_toNat] <;> omega
  unfold headerWords packetBytes
  rw [hcons _ (_ :: _), hcons _ (_ :: _), hcons _ (_ :: _), hcons _ (_ :: _), hcons _ (_ :: _),
    hcons _ (_ :: _), hcons _ (_ :: _), hcons _ (_ :: _), hcons _ (_ :: _), toBytes_lengthWord hsize,
    hfragment, toBytes_upperField, toBytes_byteSwapU32, toBytes_byteSwapU32, toBytes_portsWord,
    toBytes_byteSwapU32, toBytes_byteSwapU32, toBytes_flagsWord, toBytes_lowerField, (hsum ipSum).1,
    (hsum ipSum).2, (hsum tcpSum).1, (hsum tcpSum).2]
  rfl

/-- The text that `emit_packet` copies for a response id. -/
def shaderResponse (responseId : UInt32) : List UInt8 :=
  if responseId < responseCount then packetResponse responseId else []

/-- The bytes of the packet that `emit_packet` leaves for a reply. -/
def shaderReplyBytes (key : FlowKey) (reply : Reply) : List UInt8 :=
  let spec := replySpec shaderResponse key reply
  let packetLen := UInt32.ofNat (40 + spec.payload.length)
  packetBytes spec (ipv4Checksum packetLen key.dstIp key.srcIp).toUInt16
    (tcpChecksum key.dstIp key.srcIp key.dstPort.toUInt32 key.srcPort.toUInt32 reply.seq reply.ack
      reply.flags.toUInt32 (packetLen - 20) (reply.response.getD invalidIndex)).toUInt16

theorem responseWordCount_toNat {responseId : UInt32} (hid : responseId < responseCount) :
    (responseWordCount responseId).toNat = ((packetResponse responseId).length + 3) / 4 := by
  have hspec := responseTables_spec responseId.toNat (UInt32.lt_iff_toNat_lt.mp hid)
  rw [UInt32.ofNat_toNat] at hspec
  exact hspec.2.1

theorem responseWordCount_lt (responseId : UInt32) :
    (responseWordCount responseId).toNat < 2 ^ 31 := by
  by_cases hid : responseId < responseCount
  · have hfits := packetResponse_length responseId
    unfold maxRawPacketBytes at hfits
    rw [responseWordCount_toNat hid]
    omega
  · have hsize : responseTables.wordCounts.length = responseCount.toNat := rfl
    rw [responseWordCount, List.getD_eq_default _ _ (by
      rw [hsize]
      exact UInt32.le_iff_toNat_le.mp (UInt32.not_lt.mp hid))]
    decide

/-- What the shader needs to know about a response id. -/
theorem response_facts (responseId : UInt32) :
    40 + (shaderResponse responseId).length ≤ maxResponsePacketBytes ∧
      (40 + if responseId < responseCount then responseLength responseId else 0) =
        UInt32.ofNat (40 + (shaderResponse responseId).length) ∧
      ∀ k, k < (shaderResponse responseId).length → responseId < responseCount ∧
        k / 4 < (responseWordCount responseId).toNat ∧
        byteOf (responseWord (responseWordOffset responseId + UInt32.ofNat (k / 4))) (k % 4) =
          (shaderResponse responseId).getD k 0 := by
  unfold shaderResponse
  by_cases hid : responseId < responseCount
  · have hspec := responseTables_spec responseId.toNat (UInt32.lt_iff_toNat_lt.mp hid)
    rw [UInt32.ofNat_toNat] at hspec
    obtain ⟨hlength, hcount, -⟩ := hspec
    have hfits := packetResponse_length responseId
    unfold maxRawPacketBytes at hfits
    have hmax : ∀ response ∈ packetResponses, 40 + response.length ≤ maxResponsePacketBytes := by
      decide +kernel
    rw [if_pos hid, if_pos hid]
    refine ⟨hmax _ (packetResponse_mem responseId), ?_, ?_⟩
    · apply UInt32.toNat_inj.mp
      rw [UInt32.toNat_add, hlength, UInt32.toNat_ofNat']
      rfl
    · intro k hk
      exact ⟨hid, by omega, responseWord_payload hid hk⟩
  · rw [if_neg hid, if_neg hid]
    exact ⟨(by rw [maxResponsePacketBytes_eq]; decide : 40 + 0 ≤ maxResponsePacketBytes), rfl,
      fun k hk => absurd hk (Nat.not_lt_zero k)⟩

/-- A reply without a response carries the text of an id outside the table. -/
theorem shaderResponse_getD (response : Option UInt32) :
    shaderResponse (response.getD invalidIndex) = (response.map shaderResponse).getD [] := by
  cases response with
  | none => exact if_neg (by decide)
  | some id => rfl

/-- The arguments of a call of `emit_packet`. -/
structure Emission where
  srcIp : UInt32
  dstIp : UInt32
  srcPort : UInt32
  dstPort : UInt32
  seq : UInt32
  ack : UInt32
  flags : UInt32
  responseId : UInt32
deriving DecidableEq, Repr

namespace Emission

/-- `emit_packet` with these arguments. -/
def emit (params : EngineParams) (packetIndex : UInt32) (emission : Emission) (output : Words) :
    Words :=
  emitPacket params output packetIndex emission.srcIp emission.dstIp emission.srcPort
    emission.dstPort emission.seq emission.ack emission.flags emission.responseId

/-- The packet length that `emit_packet` computes. -/
def packetLen (emission : Emission) : UInt32 :=
  40 + if emission.responseId < responseCount then responseLength emission.responseId else 0

/-- The packet that `emit_packet` lays out: ten header words and the response. -/
def bytes (emission : Emission) : List UInt8 :=
  toBytes (headerWords emission.packetLen emission.srcIp emission.dstIp emission.srcPort
      emission.dstPort emission.seq emission.ack emission.flags
      (ipv4Checksum emission.packetLen emission.srcIp emission.dstIp)
      (tcpChecksum emission.srcIp emission.dstIp emission.srcPort emission.dstPort emission.seq
        emission.ack emission.flags (emission.packetLen - 20) emission.responseId)) ++
    shaderResponse emission.responseId

theorem bytes_length (emission : Emission) :
    emission.bytes.length = 40 + (shaderResponse emission.responseId).length := by
  rw [bytes, List.length_append, toBytes_length]
  rfl

theorem bytes_length_le (emission : Emission) : emission.bytes.length ≤ maxResponsePacketBytes := by
  rw [bytes_length]
  exact (response_facts emission.responseId).1

/-- The length word counts the bytes of the packet. -/
theorem packetLen_toNat (emission : Emission) :
    emission.packetLen.toNat = emission.bytes.length := by
  have hlen := (response_facts emission.responseId).2.1
  have hle := emission.bytes_length_le
  have hmax := maxResponsePacketBytes_le
  unfold maxRawPacketBytes at hmax
  rw [bytes_length] at hle ⊢
  rw [packetLen, hlen, UInt32.toNat_ofNat', Nat.mod_eq_of_lt (by omega)]

theorem packetLen_ne_zero (emission : Emission) : emission.packetLen ≠ 0 := by
  intro h
  have hlen := emission.packetLen_toNat
  rw [h, bytes_length, UInt32.toNat_zero] at hlen
  omega

end Emission

/-- The host reads back the packet that was emitted, whatever the slot held. -/
theorem emitted_emitPacket {params : EngineParams} {packetIndex : UInt32}
    (hfits : SlotFits params packetIndex) (output : Words) (emission : Emission) :
    emitted params (emission.emit params packetIndex output) packetIndex =
      some emission.bytes := by
  have hbytes := (response_facts emission.responseId).2.2
  have hcount := responseWordCount_lt emission.responseId
  have hle := emission.bytes_length_le
  have hstride := hfits.stride
  have hten : 10 ≤ params.outputStrideWords.toNat := by
    rw [maxResponsePacketBytes_eq] at hstride
    omega
  have hindex : emission.emit params packetIndex output packetIndex = emission.packetLen :=
    emitPacket_index params output packetIndex _ _ _ _ _ _ _ _
  have hword (n : Nat) (hn : n < params.outputStrideWords.toNat) :=
    slotWord_emitPacket params packetIndex output emission.srcIp emission.dstIp emission.srcPort
      emission.dstPort emission.seq emission.ack emission.flags emission.responseId
      (Nat.lt_trans hn params.outputStrideWords.toNat_lt) (hfits.ne_index hn) hcount
  rw [emitted, hindex, if_neg emission.packetLen_ne_zero, emission.packetLen_toNat,
    emission.bytes_length]
  congr 1
  refine @map_byteOf_range
    (slotWord params packetIndex (emission.emit params packetIndex output)) (headerWords
      emission.packetLen emission.srcIp emission.dstIp emission.srcPort emission.dstPort
      emission.seq emission.ack emission.flags
      (ipv4Checksum emission.packetLen emission.srcIp emission.dstIp)
      (tcpChecksum emission.srcIp emission.dstIp emission.srcPort emission.dstPort emission.seq
        emission.ack emission.flags (emission.packetLen - 20) emission.responseId))
    (shaderResponse emission.responseId) ?_ ?_
  · intro n hn
    have hn : n < 10 := hn
    have := hword n (by omega)
    simp only [if_pos hn] at this
    refine this.trans ?_
    rw [List.getD_eq_getElem]
    rfl
  · intro k hk
    obtain ⟨hid, hin, hbyte⟩ := hbytes k hk
    rw [emission.bytes_length] at hle
    have := hword (10 + k / 4) (by omega)
    simp only at this
    rw [if_neg (by omega), if_pos ⟨hid, by omega⟩, Nat.add_sub_cancel_left] at this
    rw [List.getD_eq_getElem _ _ hk, ← this] at hbyte
    exact hbyte

/-- The emission of a reply to the sender of a flow's packets. -/
def replyEmission (key : FlowKey) (reply : Reply) : Emission where
  srcIp := key.dstIp
  dstIp := key.srcIp
  srcPort := key.dstPort.toUInt32
  dstPort := key.srcPort.toUInt32
  seq := reply.seq
  ack := reply.ack
  flags := reply.flags.toUInt32
  responseId := reply.response.getD invalidIndex

theorem replyEmission_bytes (key : FlowKey) (reply : Reply) :
    (replyEmission key reply).bytes = shaderReplyBytes key reply := by
  have hmax := (response_facts (reply.response.getD invalidIndex)).1
  have hlen := (response_facts (reply.response.getD invalidIndex)).2.1
  have hpacket := maxResponsePacketBytes_le
  unfold maxRawPacketBytes at hpacket
  have hpayload := shaderResponse_getD reply.response
  have hspec : (replySpec shaderResponse key reply).payload =
      (reply.response.map shaderResponse).getD [] := rfl
  have hheader := toBytes_headerWords (replySpec shaderResponse key reply) (by
    rw [hspec, ← hpayload]
    omega)
  have hpacketLen : (replyEmission key reply).packetLen =
      UInt32.ofNat (40 + ((reply.response.map shaderResponse).getD []).length) := by
    rw [← hpayload]
    exact hlen
  have htext : shaderResponse (replyEmission key reply).responseId =
      (reply.response.map shaderResponse).getD [] := hpayload
  unfold shaderReplyBytes
  simp only [hspec] at hheader ⊢
  rw [← hheader, Emission.bytes, hpacketLen, htext]
  simp only [replyEmission, replySpec, FlowKey.reply]

/-- Emitting a reply to the sender of a flow's packets. -/
theorem emitted_reply {params : EngineParams} {packetIndex : UInt32}
    (hfits : SlotFits params packetIndex) (output : Words) (key : FlowKey) (reply : Reply) :
    emitted params (emitPacket params output packetIndex key.dstIp key.srcIp key.dstPort.toUInt32
        key.srcPort.toUInt32 reply.seq reply.ack reply.flags.toUInt32
        (reply.response.getD invalidIndex)) packetIndex = some (shaderReplyBytes key reply) := by
  rw [← replyEmission_bytes]
  exact emitted_emitPacket hfits output (replyEmission key reply)

/-- A reply with a response of the table carries its text. -/
theorem shaderReplyBytes_eq (key : FlowKey) (reply : Reply)
    (hresponse : ∀ id, reply.response = some id → id < responseCount) :
    ∃ ipSum tcpSum,
      shaderReplyBytes key reply = packetBytes (replySpec packetResponse key reply) ipSum tcpSum := by
  have hspec : replySpec shaderResponse key reply = replySpec packetResponse key reply := by
    cases hid : reply.response with
    | none => rw [replySpec, replySpec, hid, Option.map_none, Option.map_none]
    | some id =>
        have hknown : shaderResponse id = packetResponse id := if_pos (hresponse id hid)
        rw [replySpec, replySpec, hid, Option.map_some, Option.map_some, hknown]
  unfold shaderReplyBytes
  simp only [hspec]
  exact ⟨_, _, rfl⟩

end Shader
end Packet
end Gput
