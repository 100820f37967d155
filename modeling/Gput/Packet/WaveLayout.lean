import Gput.Library.EventMachine
import Gput.Packet.Dispatch
import Gput.Packet.GpuBatch

/-!
# The layout of a dispatch

Host and shader compute the addresses of a dispatch separately: the host in
bytes, the shader in words.  `packWaveInputs_spec` says that the shader reads of
every packet of a wave what the packet holds, `invocationOutput_outside` that an
invocation writes its own length word and slot only, `dispatch_written` that the
invocations of `main` are of this kind, and `emitWaveOutputs_readback` that the
host hands on what the invocations emitted, each packet with the index it was
sent under.
-/

namespace Gput
namespace Packet
namespace Shader

open LittleEndian

/-- `pack_wave_inputs`: the metadata of a wave, and the bytes of its words. -/
def packWaveInputs (packets : List RawPacket) (wave : List Nat) :
    Outcome (List PacketMeta × List UInt8) := do
  let wavePackets ← gather packets wave
  let (metadata, total) ← prepareWaveMetadata 0 wavePackets
  let packed ← packWaveBytes (List.replicate (4 * total) 0) wavePackets metadata
  return (metadata, packed)

/-- The packet that position `position` of a wave stands for. -/
def packetAt (packets : List RawPacket) (wave : List Nat) (position : Nat) : Option RawPacket :=
  wave[position]?.bind fun i => packets[i]?

/-- What the shader reads of a packet, by byte and by big-endian field. -/
structure ReadsPacket (packed : List UInt8) (slot : PacketMeta) (bytes : List UInt8) : Prop where
  len : slot.len.toNat = bytes.length
  byte : ∀ j : UInt32, j.toNat < bytes.length →
    readByte (wordsOf packed) slot.wordOffset j = (byteAt bytes j.toNat).toUInt32
  u16 : ∀ j : UInt32, j.toNat % 2 = 0 → j.toNat + 2 ≤ bytes.length →
    readU16Be (wordsOf packed) slot.wordOffset j = (fieldU16 bytes j.toNat).toUInt32
  u32 : ∀ j : UInt32, j.toNat % 4 = 0 → j.toNat + 4 ≤ bytes.length →
    readU32Be (wordsOf packed) slot.wordOffset j = fieldU32 bytes j.toNat

/-- The word behind the words of a packet. -/
def wordEnd (slot : PacketMeta) : Nat :=
  slot.wordOffset.toNat + (slot.len.toNat + 3) / 4

theorem PackedAt.reads {packed : List UInt8} {total : Nat} {packet : RawPacket}
    {slot : PacketMeta} (h : PackedAt packed total packet slot) (htotal : total ≤ 2 ^ 32) :
    ReadsPacket packed slot packet.bytes where
  len := h.len
  byte := fun _ hj => readByte_eq (h.holds htotal) hj
  u16 := fun _ heven hj => readU16Be_eq (h.holds htotal) heven hj
  u32 := fun _ haligned hj => readU32Be_eq (h.holds htotal) haligned hj

section Packing

variable {packets : List RawPacket}

/-- The packets of a wave in its order, with the words the scheduler counted. -/
theorem gather_spec {wave : List Nat} (hwave : ∀ i ∈ wave, i < packets.length) :
    ∃ wavePackets, gather packets wave = .ok wavePackets ∧
      (wavePackets.map packetWords).sum = waveWords packets wave ∧
      ∀ position, wavePackets[position]? = packetAt packets wave position := by
  induction wave with
  | nil => exact ⟨[], rfl, rfl, fun position => rfl⟩
  | cons i rest ih =>
      obtain ⟨hi, hrest⟩ := List.forall_mem_cons.mp hwave
      obtain ⟨others, hothers, hwords, hat⟩ := ih hrest
      refine ⟨packets[i] :: others, ?_, ?_, ?_⟩
      · rw [gather, List.getElem?_eq_getElem hi, Outcome.expect_some, Outcome.ok_bind, hothers]
        rfl
      · rw [List.map_cons, List.sum_cons, hwords, waveWords, waveWords, List.map_cons,
          List.sum_cons, wordsAt, List.getElem?_eq_getElem hi]
        rfl
      · intro position
        cases position with
        | zero =>
            rw [packetAt, List.getElem?_cons_zero, List.getElem?_cons_zero, Option.bind_some,
              List.getElem?_eq_getElem hi]
        | succ position => exact hat position

/-- A wave whose words can be counted in 32 bits has metadata. -/
theorem prepareWaveMetadata_ok (wave : List RawPacket) : ∀ wordCount : Nat,
    wordCount + (wave.map packetWords).sum ≤ 2 ^ 32 →
    ∃ metadata, prepareWaveMetadata wordCount wave =
      .ok (metadata, wordCount + (wave.map packetWords).sum) := by
  induction wave with
  | nil => exact fun wordCount _ => ⟨[], rfl⟩
  | cons packet wave ih =>
      intro wordCount hfits
      have hwords : packetWords packet = (packet.bytes.length + 3) / 4 := rfl
      have hpositive := List.length_pos_iff.mpr packet.nonempty
      have hlength := packet.length_le
      unfold maxRawPacketBytes at hlength
      rw [List.map_cons, List.sum_cons, hwords, ← Nat.add_assoc] at hfits ⊢
      obtain ⟨metadata, hrest⟩ := ih _ hfits
      refine ⟨⟨UInt32.ofNat packet.bytes.length, UInt32.ofNat wordCount⟩ :: metadata, ?_⟩
      unfold prepareWaveMetadata
      dsimp only
      rw [Outcome.ensure_of _ (by omega), Outcome.ensure_of _ (by omega),
        Outcome.ensure_of _ (by omega), Outcome.ok_bind, Outcome.ok_bind, Outcome.ok_bind, hrest]
      rfl

/-- The packets of a wave occupy the words one behind the other. -/
theorem prepareWaveMetadata_ordered {wave : List RawPacket} {wordCount total : Nat}
    {metadata : List PacketMeta} (h : prepareWaveMetadata wordCount wave = .ok (metadata, total)) :
    metadata.length = wave.length ∧ (∀ slot ∈ metadata, wordCount ≤ slot.wordOffset.toNat) ∧
      metadata.Pairwise fun slot later => wordEnd slot ≤ later.wordOffset.toNat := by
  induction wave generalizing wordCount metadata with
  | nil =>
      cases h
      exact ⟨rfl, fun slot hslot => absurd hslot List.not_mem_nil, List.Pairwise.nil⟩
  | cons packet wave ih =>
      obtain ⟨metadata', total', hrest, hlen, hoffset, hresult⟩ := prepareWaveMetadata_cons h
      cases hresult
      obtain ⟨hlength, hlater, hordered⟩ := ih hrest
      have hstart : (UInt32.ofNat wordCount).toNat = wordCount := by
        rw [UInt32.toNat_ofNat', Nat.mod_eq_of_lt hoffset]
      have hbytes : (UInt32.ofNat packet.bytes.length).toNat = packet.bytes.length := by
        rw [UInt32.toNat_ofNat', Nat.mod_eq_of_lt hlen]
      refine ⟨by rw [List.length_cons, List.length_cons, hlength], ?_, ?_⟩
      · intro slot hslot
        rcases List.mem_cons.mp hslot with rfl | hslot
        · exact hstart.ge
        · have := hlater slot hslot
          omega
      · refine List.pairwise_cons.mpr ⟨fun later hmem => ?_, hordered⟩
        rw [wordEnd, hstart, hbytes]
        exact hlater later hmem

/-- Packing a wave succeeds, the shader reads of every packet what it holds, and
the packets lie in disjoint words of the upload. -/
theorem packWaveInputs_spec {wave : List Nat} (hwave : ∀ i ∈ wave, i < packets.length)
    (hfits : waveWords packets wave ≤ 2 ^ 32) :
    ∃ metadata packed, packWaveInputs packets wave = .ok (metadata, packed) ∧
      metadata.length = wave.length ∧ packed.length = 4 * waveWords packets wave ∧
      metadata.Pairwise (fun slot later => wordEnd slot ≤ later.wordOffset.toNat) ∧
      ∀ position packet, packetAt packets wave position = some packet →
        ∃ slot, metadata[position]? = some slot ∧ wordEnd slot ≤ waveWords packets wave ∧
          ReadsPacket packed slot packet.bytes := by
  obtain ⟨wavePackets, hgather, hwords, hat⟩ := gather_spec hwave
  obtain ⟨metadata, hprepared⟩ := prepareWaveMetadata_ok wavePackets 0 (by
    rw [Nat.zero_add, hwords]
    exact hfits)
  rw [Nat.zero_add, hwords] at hprepared
  obtain ⟨hlength, -, hordered⟩ := prepareWaveMetadata_ordered hprepared
  obtain ⟨packed, hpacked, hpackedLen, -, hholds⟩ :=
    packWaveBytes_spec (List.replicate (4 * waveWords packets wave) 0) hprepared (by
      rw [List.length_replicate])
  refine ⟨metadata, packed, ?_, ?_, ?_, hordered, ?_⟩
  · simp only [packWaveInputs, hgather, hprepared, hpacked, Outcome.ok_bind, Outcome.pure_eq]
  · rw [hlength, gather_length packets wave hgather]
  · rw [hpackedLen, List.length_replicate]
  · intro position packet hpacket
    obtain ⟨slot, hslot, hpackedAt⟩ := hholds position packet ((hat position).trans hpacket)
    refine ⟨slot, hslot, ?_, hpackedAt.reads hfits⟩
    rw [wordEnd, hpackedAt.len]
    exact hpackedAt.inside

end Packing

/-- The words of the output slot of an invocation. -/
def InSlot (params : EngineParams) (packetIndex w : UInt32) : Prop :=
  ∃ k, k < params.outputStrideWords.toNat ∧ w = outputBase params packetIndex + UInt32.ofNat k

section Outside

variable {params : EngineParams} {packetIndex w : UInt32}

theorem update_outside (hw : ¬ InSlot params packetIndex w) {k : UInt32}
    (hk : k.toNat < params.outputStrideWords.toNat) (output : Words) (value : UInt32) :
    Function.update output (outputBase params packetIndex + k) value w = output w := by
  refine Function.update_of_ne ?_ _ _
  rintro rfl
  exact hw ⟨k.toNat, hk, by rw [UInt32.ofNat_toNat]⟩

theorem writeU32Be_outside (hw : ¬ InSlot params packetIndex w) {offset : UInt32}
    (hoffset : (offset / 4).toNat < params.outputStrideWords.toNat) (output : Words)
    (value : UInt32) : writeU32Be params output packetIndex offset value w = output w :=
  update_outside hw hoffset output _

theorem writeU16Be_outside (hw : ¬ InSlot params packetIndex w) {offset : UInt32}
    (hoffset : (offset / 4).toNat < params.outputStrideWords.toNat) (output : Words)
    (value : UInt32) : writeU16Be params output packetIndex offset value w = output w :=
  update_outside hw hoffset output _

variable (hw : ¬ InSlot params packetIndex w) (hheaders : 10 ≤ params.outputStrideWords.toNat)
include hw hheaders

theorem writeIpv4_outside (output : Words) (len srcIp dstIp : UInt32) :
    writeIpv4 params output packetIndex len srcIp dstIp w = output w := by
  have hfirst : w ≠ outputBase params packetIndex := by
    rintro rfl
    exact hw ⟨0, by omega, (UInt32.add_zero _).symm⟩
  have hin {k : UInt32} (hk : k.toNat < 10) : k.toNat < params.outputStrideWords.toNat := by
    omega
  unfold writeIpv4
  rw [writeU32Be_outside hw (hin (by decide)), writeU32Be_outside hw (hin (by decide)),
    update_outside hw (hin (by decide)), update_outside hw (hin (by decide)),
    Function.update_of_ne hfirst]

theorem writeTcp_outside (output : Words) (srcPort dstPort seq ack flags : UInt32) :
    writeTcp params output packetIndex srcPort dstPort seq ack flags w = output w := by
  have hin {k : UInt32} (hk : k.toNat < 10) : k.toNat < params.outputStrideWords.toNat := by
    omega
  unfold writeTcp
  rw [update_outside hw (hin (by decide)), update_outside hw (hin (by decide)),
    writeU32Be_outside hw (hin (by decide)), writeU32Be_outside hw (hin (by decide)),
    update_outside hw (hin (by decide))]

theorem writeChecksums_outside (output : Words)
    (packetLen srcIp dstIp srcPort dstPort seq ack flags responseId : UInt32) :
    writeChecksums params output packetIndex packetLen srcIp dstIp srcPort dstPort seq ack flags
      responseId w = output w := by
  have hin {k : UInt32} (hk : k.toNat < 10) : k.toNat < params.outputStrideWords.toNat := by
    omega
  unfold writeChecksums
  rw [writeU16Be_outside hw (hin (by decide)), writeU16Be_outside hw (hin (by decide))]

omit hheaders in
theorem copyResponse_outside {wordCount : UInt32}
    (hcount : 10 + wordCount.toNat ≤ params.outputStrideWords.toNat) (output : Words)
    (sourceBase wordIndex : UInt32) :
    copyResponse output (outputBase params packetIndex + 10) sourceBase wordCount wordIndex w =
      output w := by
  induction h : wordCount.toNat - wordIndex.toNat generalizing wordIndex output with
  | zero =>
      have hge : wordIndex ≥ wordCount := UInt32.le_iff_toNat_le.mpr (by omega)
      rw [copyResponse, if_pos hge]
  | succ remaining ih =>
      have hlt : wordIndex < wordCount := UInt32.lt_iff_toNat_lt.mpr (by omega)
      have hnext := add_one_toNat hlt
      have hstride := params.outputStrideWords.toNat_lt
      have haddress : (10 + wordIndex).toNat = 10 + wordIndex.toNat := by
        rw [UInt32.toNat_add, show (10 : UInt32).toNat = 10 from rfl]
        omega
      rw [copyResponse, if_neg (UInt32.not_le.mpr hlt), ih _ _ (by omega), UInt32.add_assoc,
        update_outside hw (by omega)]

end Outside

/-- An emission writes its length word and its slot only. -/
theorem emit_outside {params : EngineParams} {packetIndex w : UInt32}
    (hstride : maxResponsePacketBytes ≤ 4 * params.outputStrideWords.toNat)
    (hw : ¬ InSlot params packetIndex w) (hindex : w ≠ packetIndex) (emission : Emission)
    (output : Words) : emission.emit params packetIndex output w = output w := by
  have hheaders : 10 ≤ params.outputStrideWords.toNat := by
    rw [maxResponsePacketBytes_eq] at hstride
    omega
  unfold Emission.emit emitPacket
  rw [Function.update_of_ne hindex, writeChecksums_outside hw hheaders]
  split
  case isTrue hid =>
    have hroom : 10 + (responseWordCount emission.responseId).toNat ≤
        params.outputStrideWords.toNat := by
      have hcount := responseWordCount_toNat hid
      have hmax := (response_facts emission.responseId).1
      rw [shaderResponse, if_pos hid] at hmax
      rw [maxResponsePacketBytes_eq] at hstride hmax
      omega
    rw [writeHttpResponse, copyResponse_outside hw hroom, writeTcp_outside hw hheaders,
      writeIpv4_outside hw hheaders]
  case isFalse hid => rw [writeTcp_outside hw hheaders, writeIpv4_outside hw hheaders]

/-- What at most one emission leaves in the output buffer. -/
def written (params : EngineParams) (packetIndex : UInt32) :
    Option Emission → Words → Words
  | none => fun output => output
  | some emission => emission.emit params packetIndex

/-- What an invocation leaves in the output buffer: it clears its length word and
then emits at most once. -/
def invocationOutput (params : EngineParams) (packetIndex : UInt32) (emission : Option Emission)
    (output : Words) : Words :=
  written params packetIndex emission (cleared packetIndex output)

/-- An invocation writes its length word and its slot only. -/
theorem invocationOutput_outside {params : EngineParams} {packetIndex w : UInt32}
    (hstride : maxResponsePacketBytes ≤ 4 * params.outputStrideWords.toNat)
    (hw : ¬ InSlot params packetIndex w) (hindex : w ≠ packetIndex) (emission : Option Emission)
    (output : Words) : invocationOutput params packetIndex emission output w = output w := by
  have hcleared : cleared packetIndex output w = output w := Function.update_of_ne hindex _ _
  cases emission with
  | none => exact hcleared
  | some emission => exact (emit_outside hstride hw hindex emission _).trans hcleared

/-- The host reads back what an invocation emitted, whatever the buffer held. -/
theorem emitted_invocationOutput {params : EngineParams} {packetIndex : UInt32}
    (hfits : SlotFits params packetIndex) (emission : Option Emission) (output : Words) :
    emitted params (invocationOutput params packetIndex emission output) packetIndex =
      emission.map Emission.bytes := by
  cases emission with
  | none => exact if_pos (Function.update_self packetIndex 0 output)
  | some emission => exact emitted_emitPacket hfits (cleared packetIndex output) emission

/-- The length word of an invocation counts the bytes it emitted. -/
theorem invocationOutput_index (params : EngineParams) (packetIndex : UInt32)
    (emission : Option Emission) (output : Words) :
    (invocationOutput params packetIndex emission output packetIndex).toNat =
      (emission.map fun emission => emission.bytes.length).getD 0 := by
  cases emission with
  | none => exact congrArg UInt32.toNat (Function.update_self packetIndex 0 output)
  | some emission =>
      have hindex := emitPacket_index params (cleared packetIndex output) packetIndex
        emission.srcIp emission.dstIp emission.srcPort emission.dstPort emission.seq emission.ack
        emission.flags emission.responseId
      exact (congrArg UInt32.toNat hindex).trans emission.packetLen_toNat

section Emits

variable {params : EngineParams} {packetIndex : UInt32} (tcp : Segment) (storage : Storage)

theorem answerOpening_written (base : UInt32) :
    ∃ emission, (answerOpening params packetIndex tcp storage base).outputData =
      written params packetIndex emission storage.outputData := by
  unfold answerOpening
  dsimp only
  split_ifs
  · exact ⟨some ⟨_, _, _, _, _, _, _, _⟩, rfl⟩
  · exact ⟨some ⟨_, _, _, _, _, _, _, _⟩, rfl⟩
  · exact ⟨none, rfl⟩

theorem openingBranch_written (keyHash ports : UInt32) :
    ∃ emission, (openingBranch params packetIndex tcp storage keyHash ports).outputData =
      written params packetIndex emission storage.outputData := by
  unfold openingBranch
  dsimp only
  split_ifs
  · exact ⟨none, rfl⟩
  · exact answerOpening_written tcp _ _
  · exact answerOpening_written tcp _ _

theorem dataSegment_written (inputWords : Words) (inputBase base : UInt32) :
    ∃ emission, (dataSegment params packetIndex tcp storage inputWords inputBase base).outputData =
      written params packetIndex emission storage.outputData := by
  unfold dataSegment
  dsimp only
  split_ifs
  · exact ⟨some ⟨_, _, _, _, _, _, _, _⟩, rfl⟩
  · exact ⟨some ⟨_, _, _, _, _, _, _, _⟩, rfl⟩

theorem establishedSegment_written (inputWords : Words) (inputBase base : UInt32) :
    ∃ emission,
      (establishedSegment params packetIndex tcp storage inputWords inputBase base).outputData =
        written params packetIndex emission storage.outputData := by
  unfold establishedSegment
  dsimp only
  generalize (if tcp.flags &&& tcpAck ≠ 0 ∧ tcp.ack = (storage.flows base).sendNext then
    { storage.flows base with sendUnacked := tcp.ack } else storage.flows base) = slot
  split_ifs
  · exact ⟨some ⟨_, _, _, _, _, _, _, _⟩, rfl⟩
  · exact ⟨some ⟨_, _, _, _, _, _, _, _⟩, rfl⟩
  · exact ⟨none, rfl⟩
  · exact ⟨some ⟨_, _, _, _, _, _, _, _⟩, rfl⟩
  · exact dataSegment_written tcp _ inputWords inputBase base

theorem segmentBranch_written (inputWords : Words) (inputBase keyHash ports : UInt32) :
    ∃ emission,
      (segmentBranch params packetIndex tcp storage inputWords inputBase keyHash ports).outputData =
        written params packetIndex emission storage.outputData := by
  unfold segmentBranch
  dsimp only
  split_ifs
  · exact ⟨none, rfl⟩
  · exact ⟨none, rfl⟩
  · exact ⟨none, rfl⟩
  · exact establishedSegment_written tcp _ inputWords inputBase _
  · exact ⟨none, rfl⟩
  · exact establishedSegment_written tcp _ inputWords inputBase _

end Emits

/-- Every invocation of `main` for a packet of the wave clears its length word and
emits at most once, whatever the flow table holds. -/
theorem main_written {params : EngineParams} {packetIndex : UInt32}
    (hindex : packetIndex < params.packetCount) (inputMeta : UInt32 → PacketMeta)
    (inputWords : Words) (storage : Storage) :
    ∃ emission, (main params inputMeta inputWords packetIndex storage).outputData =
      invocationOutput params packetIndex emission storage.outputData := by
  unfold main
  rw [if_neg (UInt32.not_le.mpr hindex)]
  dsimp only
  split
  · exact ⟨none, rfl⟩
  · split_ifs
    · exact openingBranch_written _ _ _ _
    · exact segmentBranch_written _ _ _ _ _ _

/-- The invocations of a dispatch one after another, with what each of them emits. -/
def dispatchOutput (params : EngineParams) (emissions : Nat → Option Emission) (order : List Nat)
    (output : Words) : Words :=
  order.foldl
    (fun output position => invocationOutput params (UInt32.ofNat position) (emissions position)
      output) output

/-- The invocations of `main` in an order, each once, write what they emit into
the output buffer, and nothing else of what they do reaches it. -/
theorem dispatch_written {params : EngineParams} (inputMeta : UInt32 → PacketMeta)
    (inputWords : Words) {order : List Nat} (hnodup : order.Nodup)
    (hcount : ∀ i ∈ order, UInt32.ofNat i < params.packetCount) (storage : Storage) :
    ∃ emissions, (order.foldl (fun storage position =>
        main params inputMeta inputWords (UInt32.ofNat position) storage) storage).outputData =
      dispatchOutput params emissions order storage.outputData := by
  induction order generalizing storage with
  | nil => exact ⟨fun _ => none, rfl⟩
  | cons position order ih =>
      obtain ⟨hnew, hnodup⟩ := List.nodup_cons.mp hnodup
      obtain ⟨emission, hfirst⟩ :=
        main_written (hcount position List.mem_cons_self) inputMeta inputWords storage
      obtain ⟨emissions, hrest⟩ := ih hnodup (fun i hi => hcount i (List.mem_cons_of_mem _ hi))
        (main params inputMeta inputWords (UInt32.ofNat position) storage)
      refine ⟨Function.update emissions position emission, ?_⟩
      rw [List.foldl_cons, hrest, hfirst, dispatchOutput, dispatchOutput, List.foldl_cons,
        Function.update_self]
      refine List.foldl_ext _ _ _ fun output other hother => ?_
      rw [Function.update_of_ne]
      rintro rfl
      exact hnew hother

/-- What the host reads back after a dispatch: the length words, and the words
behind them. -/
def readbackOf (output : Words) (count stride : Nat) : Readback count stride where
  metadata := (List.range count).map fun i => output (UInt32.ofNat i)
  words := (List.range (count * stride)).map fun i => output (UInt32.ofNat (count + i))
  metadata_length := by rw [List.length_map, List.length_range]
  words_length := by rw [List.length_map, List.length_range]

/-- What is read back for an invocation is decided by its length word and slot. -/
theorem emitted_congr {params : EngineParams} {packetIndex : UInt32} {output output' : Words}
    (hindex : output' packetIndex = output packetIndex)
    (hlen : (output packetIndex).toNat ≤ 4 * params.outputStrideWords.toNat)
    (hslot : ∀ k, k < params.outputStrideWords.toNat →
      output' (outputBase params packetIndex + UInt32.ofNat k) =
        output (outputBase params packetIndex + UInt32.ofNat k)) :
    emitted params output' packetIndex = emitted params output packetIndex := by
  have hbytes : ((List.range (output packetIndex).toNat).map fun k =>
        byteOf (output' (outputBase params packetIndex + UInt32.ofNat (k / 4))) (k % 4)) =
      (List.range (output packetIndex).toNat).map fun k =>
        byteOf (output (outputBase params packetIndex + UInt32.ofNat (k / 4))) (k % 4) := by
    refine List.map_congr_left fun k hk => ?_
    have hk := List.mem_range.mp hk
    rw [hslot (k / 4) (by omega)]
  rw [emitted, emitted, hindex, hbytes]

section Dispatch

variable {config : PacketEngineConfig} {count stride position other : Nat}

/-- The words of a slot, as numbers. -/
theorem InSlot.bounds (hstride : outputStrideWords ≤ stride)
    (houtput : count * (1 + stride) ≤ 2 ^ 32) (hposition : position < count) {w : UInt32}
    (h : InSlot (strideParams config count stride) (UInt32.ofNat position) w) :
    count + position * stride ≤ w.toNat ∧ w.toNat < count + (position + 1) * stride := by
  obtain ⟨k, hk, rfl⟩ := h
  obtain ⟨hbase, hwords, hindex⟩ := strideParams_toNat config hstride houtput hposition
  rw [(slotFits_strideParams config hstride houtput hposition).address_toNat hk, hbase, hwords,
    hindex, Nat.succ_mul]
  omega

/-- An invocation changes no word outside its length word and its slot. -/
theorem invocationOutput_frame (hstride : outputStrideWords ≤ stride)
    (houtput : count * (1 + stride) ≤ 2 ^ 32) (hposition : position < count)
    (emission : Option Emission) (output : Words) {w : UInt32} (hindex : w.toNat ≠ position)
    (hslot : ¬ (count + position * stride ≤ w.toNat ∧
      w.toNat < count + (position + 1) * stride)) :
    invocationOutput (strideParams config count stride) (UInt32.ofNat position) emission output w =
      output w := by
  obtain ⟨-, -, hnat⟩ := strideParams_toNat config hstride houtput hposition
  refine invocationOutput_outside (slotFits_strideParams config hstride houtput hposition).stride
    (fun hin => hslot (hin.bounds hstride houtput hposition)) ?_ emission output
  rintro rfl
  exact hindex hnat

/-- An invocation leaves what another one has emitted. -/
theorem emitted_other (hstride : outputStrideWords ≤ stride)
    (houtput : count * (1 + stride) ≤ 2 ^ 32) (hposition : position < count)
    (hother : other < count) (hne : position ≠ other) (emission : Option Emission)
    {output : Words}
    (hlen : (output (UInt32.ofNat position)).toNat ≤ 4 * stride) :
    let params := strideParams config count stride
    let after := invocationOutput params (UInt32.ofNat other) emission output
    after (UInt32.ofNat position) = output (UInt32.ofNat position) ∧
      emitted params after (UInt32.ofNat position) =
        emitted params output (UInt32.ofNat position) := by
  intro params after
  obtain ⟨hbase, hwords, hnat⟩ := strideParams_toNat config hstride houtput hposition
  have hfits := slotFits_strideParams config hstride houtput hposition
  have hindex : after (UInt32.ofNat position) = output (UInt32.ofNat position) := by
    refine invocationOutput_frame hstride houtput hother emission output ?_ ?_
    · rwa [hnat]
    · rw [hnat]
      omega
  refine ⟨hindex, emitted_congr hindex (by rwa [hwords]) fun k hk => ?_⟩
  have haddress := hfits.address_toNat hk
  rw [hbase, hwords, hnat] at haddress
  rw [hwords] at hk
  -- the slots follow each other in the order of the positions
  have hapart : (position + 1) * stride ≤ other * stride ∨
      (other + 1) * stride ≤ position * stride := by
    rcases Nat.lt_or_gt_of_ne hne with hlt | hgt
    · exact Or.inl (Nat.mul_le_mul_right _ hlt)
    · exact Or.inr (Nat.mul_le_mul_right _ hgt)
  rw [Nat.succ_mul, Nat.succ_mul] at hapart
  refine invocationOutput_frame hstride houtput hother emission output ?_ ?_
  · rw [haddress]
    omega
  · rw [haddress, Nat.succ_mul]
    omega

/-- After all invocations, in whatever order, every length word and every slot is
what its invocation left. -/
theorem dispatchOutput_emitted (hstride : outputStrideWords ≤ stride)
    (houtput : count * (1 + stride) ≤ 2 ^ 32) (emissions : Nat → Option Emission)
    {order : List Nat} (horder : order.Perm (List.range count)) (hposition : position < count)
    (output : Words) :
    let params := strideParams config count stride
    let final := dispatchOutput params emissions order output
    (final (UInt32.ofNat position)).toNat =
        ((emissions position).map fun emission => emission.bytes.length).getD 0 ∧
      emitted params final (UInt32.ofNat position) =
        (emissions position).map Emission.bytes := by
  intro params final
  have hfits := slotFits_strideParams config hstride houtput hposition
  have hlen : ((emissions position).map fun emission => emission.bytes.length).getD 0 ≤
      4 * stride := by
    rw [outputStrideWords_eq] at hstride
    cases emissions position with
    | none => exact Nat.zero_le _
    | some emission =>
        have hle := emission.bytes_length_le
        rw [maxResponsePacketBytes_eq] at hle
        exact hle.trans (by omega)
  refine @EventMachine.foldl_establishes Words Nat _
    (fun output =>
      (output (UInt32.ofNat position)).toNat =
          ((emissions position).map fun emission => emission.bytes.length).getD 0 ∧
        emitted params output (UInt32.ofNat position) = (emissions position).map Emission.bytes)
    order position ?_ ?_ (horder.symm.subset (List.mem_range.mpr hposition)) output
  · exact fun output =>
      ⟨invocationOutput_index params _ _ output, emitted_invocationOutput hfits _ output⟩
  · rintro other output hmem hne ⟨hindex, hemitted⟩
    have hother : other < count := List.mem_range.mp (horder.subset hmem)
    obtain ⟨hsame, hkept⟩ := @emitted_other config count stride position other hstride houtput
      hposition hother hne (emissions other) output (hindex ▸ hlen)
    exact ⟨(congrArg UInt32.toNat hsame).trans hindex, hkept.trans hemitted⟩

end Dispatch

/-- What `emit_wave_outputs` finds for a position: no packet, or one that fits its
slot and stands at its start. -/
def Found (bytes : List UInt8) (strideBytes index : Nat) (len : UInt32) :
    Option (List UInt8) → Prop
  | none => len = 0
  | some packet =>
      len ≠ 0 ∧ len.toNat ≤ strideBytes ∧ slice bytes (index * strideBytes) len.toNat = .ok packet

/-- `emit_wave_outputs` hands the sink what it finds, once for each position. -/
theorem emitWaveOutputs_eq_deliver {σ : Type} (sink : PacketSink σ) {bytes : List UInt8}
    {strideBytes : Nat} {produced : Nat → Option (List UInt8)} (items : List (UInt32 × Nat)) :
    ∀ (index : Nat) (s : σ),
      (∀ (k : Nat) (item : UInt32 × Nat), items[k]? = some item →
        Found bytes strideBytes (index + k) item.1 (produced (index + k))) →
      emitWaveOutputs sink bytes strideBytes index items s =
        deliver sink (items.mapIdx fun k item => (item.2, produced (index + k))) s := by
  induction items with
  | nil => exact fun index s _ => rfl
  | cons item items ih =>
      intro index s hfound
      have hfirst := hfound 0 item List.getElem?_cons_zero
      have hrest (s : σ) := ih (index + 1) s fun k item hitem => by
        have hnext := hfound (k + 1) item (by rwa [List.getElem?_cons_succ])
        rwa [Nat.add_assoc, Nat.add_comm 1]
      have hshift : (items.mapIdx fun k item => (item.2, produced (index + 1 + k))) =
          items.mapIdx fun k item => (item.2, produced (index + (k + 1))) := by
        simp only [Nat.add_assoc, Nat.add_comm 1]
      rw [Nat.add_zero] at hfirst
      rw [List.mapIdx_cons, Nat.add_zero, ← hshift, deliver, emitWaveOutputs]
      cases hproduced : produced index with
      | none =>
          have hzero : item.1 = 0 := by rwa [hproduced] at hfirst
          rw [if_pos hzero]
          simp only [hrest]
      | some packet =>
          rw [hproduced] at hfirst
          obtain ⟨hne, hle, hslice⟩ := hfirst
          simp only [if_neg hne, Outcome.ensure_of _ hle, hslice, Outcome.ok_bind, hrest]

section Readback

variable {config : PacketEngineConfig} {count stride position : Nat}

/-- The bytes that are cut out of the words read back are those of the slot. -/
theorem slice_readbackOf (hstride : outputStrideWords ≤ stride)
    (houtput : count * (1 + stride) ≤ 2 ^ 32) (hposition : position < count) (output : Words)
    {len : Nat} (hlen : len ≤ stride * 4) :
    slice (toBytes (readbackOf output count stride).words) (position * (stride * 4)) len =
      .ok ((List.range len).map fun k =>
        byteOf (output (outputBase (strideParams config count stride) (UInt32.ofNat position) +
          UInt32.ofNat (k / 4))) (k % 4)) := by
  obtain ⟨hbase, hwords, hnat⟩ := strideParams_toNat config hstride houtput hposition
  have hfits := slotFits_strideParams config hstride houtput hposition
  have hroom : (position + 1) * stride ≤ count * stride := Nat.mul_le_mul_right _ hposition
  rw [Nat.succ_mul] at hroom
  have hstart : position * (stride * 4) = 4 * (position * stride) := by
    rw [← Nat.mul_assoc, Nat.mul_comm]
  have hlength : (toBytes (readbackOf output count stride).words).length =
      4 * (count * stride) := by
    rw [toBytes_length, (readbackOf output count stride).words_length]
  rw [slice, if_pos (by rw [hlength, hstart]; omega)]
  congr 1
  apply List.ext_getElem?
  intro k
  rw [List.getElem?_map]
  by_cases hk : k < len
  · have haddress := hfits.address_toNat (show k / 4 < _ by rw [hwords]; omega)
    have hword : output (UInt32.ofNat (count + (position * stride + k / 4))) =
        output (outputBase (strideParams config count stride) (UInt32.ofNat position) +
          UInt32.ofNat (k / 4)) := by
      rw [hbase, hwords, hnat] at haddress
      rw [← Nat.add_assoc, ← haddress, UInt32.ofNat_toNat]
    rw [List.getElem?_take_of_lt hk, List.getElem?_drop, toBytes_getElem?, hstart,
      show (4 * (position * stride) + k) / 4 = position * stride + k / 4 by omega,
      show (4 * (position * stride) + k) % 4 = k % 4 by omega, readbackOf, List.getElem?_map,
      List.getElem?_range (by omega), List.getElem?_range hk, Option.map_some, Option.map_some,
      Option.map_some, hword]
  · rw [List.getElem?_eq_none (by rw [List.length_take]; omega),
      List.getElem?_eq_none (by rw [List.length_range]; omega)]
    rfl

/-- What the host finds for an invocation is what it emitted. -/
theorem found_readbackOf (hstride : outputStrideWords ≤ stride)
    (houtput : count * (1 + stride) ≤ 2 ^ 32) (hposition : position < count) {output : Words}
    {emission : Option Emission}
    (hlen : (output (UInt32.ofNat position)).toNat =
      (emission.map fun emission => emission.bytes.length).getD 0)
    (hemitted : emitted (strideParams config count stride) output (UInt32.ofNat position) =
      emission.map Emission.bytes) :
    Found (toBytes (readbackOf output count stride).words) (stride * 4) position
      (output (UInt32.ofNat position)) (emission.map Emission.bytes) := by
  unfold emitted at hemitted
  cases emission with
  | none =>
      apply UInt32.toNat_inj.mp
      exact hlen
  | some emission =>
      have hle := emission.bytes_length_le
      have hlen : (output (UInt32.ofNat position)).toNat = emission.bytes.length := hlen
      have hne : output (UInt32.ofNat position) ≠ 0 := by
        intro hzero
        rw [hzero, emission.bytes_length, UInt32.toNat_zero] at hlen
        omega
      have hfits : (output (UInt32.ofNat position)).toNat ≤ stride * 4 := by
        rw [maxResponsePacketBytes_eq] at hle
        rw [outputStrideWords_eq] at hstride
        omega
      rw [if_neg hne] at hemitted
      refine ⟨hne, hfits, ?_⟩
      rw [@slice_readbackOf config count stride position hstride houtput hposition output _ hfits]
      exact congrArg Outcome.ok (Option.some.inj hemitted)

end Readback

/-- Decoding a dispatch hands every sink, position after position, the index that
the wave has there with what the invocation emitted. -/
theorem emitWaveOutputs_readback {σ : Type} (sink : PacketSink σ) (config : PacketEngineConfig)
    {wave : List Nat} {stride : Nat} (hstride : outputStrideWords ≤ stride)
    (houtput : wave.length * (1 + stride) ≤ 2 ^ 32) (emissions : Nat → Option Emission)
    {order : List Nat} (horder : order.Perm (List.range wave.length)) (output : Words) (s : σ) :
    let final := dispatchOutput (strideParams config wave.length stride) emissions order output
    let readback := readbackOf final wave.length stride
    emitWaveOutputs sink (toBytes readback.words) (stride * 4) 0 (readback.metadata.zip wave) s =
      deliver sink (wave.mapIdx fun position source =>
        (source, (emissions position).map Emission.bytes)) s := by
  intro final readback
  have hfound (k : Nat) (item : UInt32 × Nat)
      (hitem : (readback.metadata.zip wave)[k]? = some item) :
      Found (toBytes readback.words) (stride * 4) (0 + k) item.1
        ((emissions (0 + k)).map Emission.bytes) := by
    rw [Nat.zero_add]
    obtain ⟨hlenWord, -⟩ := List.getElem?_zip_eq_some.mp hitem
    have hk : k < wave.length := by
      have hlt := (List.getElem?_eq_some_iff.mp hlenWord).1
      rwa [readback.metadata_length] at hlt
    obtain ⟨hlen, hemitted⟩ := @dispatchOutput_emitted config wave.length stride k hstride houtput
      emissions order horder hk output
    have hword : item.1 = final (UInt32.ofNat k) := by
      simp only [readback, readbackOf, List.getElem?_map, List.getElem?_range hk,
        Option.map_some] at hlenWord
      exact (Option.some.inj hlenWord).symm
    rw [hword]
    exact found_readbackOf hstride houtput hk hlen hemitted
  rw [@emitWaveOutputs_eq_deliver σ sink _ _ (fun position =>
    (emissions position).map Emission.bytes) _ 0 s hfound]
  congr 1
  apply List.ext_getElem?
  intro k
  rw [List.getElem?_mapIdx, List.getElem?_mapIdx]
  by_cases hk : k < wave.length
  · have hmeta : k < readback.metadata.length := by rwa [readback.metadata_length]
    rw [List.getElem?_eq_getElem hk, List.getElem?_eq_getElem (by rw [List.length_zip]; omega),
      List.getElem_zip, Option.map_some, Option.map_some, Nat.zero_add]
  · rw [List.getElem?_eq_none (l := wave) (by omega),
      List.getElem?_eq_none (by rw [List.length_zip]; omega)]
    rfl

/-- In particular what `main` emits for the packets of a wave, in any order and
over any flow table: every packet goes out with the index of its position. -/
theorem emitWaveOutputs_main {σ : Type} (sink : PacketSink σ) (config : PacketEngineConfig)
    {wave : List Nat} {stride : Nat} (hstride : outputStrideWords ≤ stride)
    (houtput : wave.length * (1 + stride) ≤ 2 ^ 32) (inputMeta : UInt32 → PacketMeta)
    (inputWords : Words) {order : List Nat} (horder : order.Perm (List.range wave.length))
    (storage : Storage) (s : σ) :
    let params := strideParams config wave.length stride
    let final := order.foldl (fun storage position =>
      main params inputMeta inputWords (UInt32.ofNat position) storage) storage
    let readback := readbackOf final.outputData wave.length stride
    ∃ emissions : Nat → Option Emission,
      emitWaveOutputs sink (toBytes readback.words) (stride * 4) 0 (readback.metadata.zip wave) s =
        deliver sink (wave.mapIdx fun position source =>
          (source, (emissions position).map Emission.bytes)) s := by
  intro params final readback
  have hposition {i : Nat} (hi : i ∈ order) : i < wave.length :=
    List.mem_range.mp (horder.subset hi)
  have hinside : ∀ i ∈ order, UInt32.ofNat i < params.packetCount := by
    intro i hi
    have hlt := hposition hi
    have hfit := Nat.mul_le_mul_left wave.length (show 2 ≤ 1 + stride by
      rw [outputStrideWords_eq] at hstride; omega)
    rw [UInt32.lt_iff_toNat_lt]
    show (UInt32.ofNat i).toNat < (UInt32.ofNat wave.length).toNat
    rw [UInt32.toNat_ofNat', UInt32.toNat_ofNat']
    omega
  obtain ⟨emissions, hwritten⟩ := dispatch_written inputMeta inputWords
    (horder.symm.nodup List.nodup_range) hinside storage
  refine ⟨emissions, ?_⟩
  simp only [readback, final, hwritten]
  exact emitWaveOutputs_readback sink config hstride houtput emissions horder _ s

theorem metaOf_eq {metadata : List PacketMeta} {position : Nat} {slot : PacketMeta}
    (h : metadata[position]? = some slot) (hfits : position < 2 ^ 32) :
    metaOf metadata (UInt32.ofNat position) = slot := by
  rw [metaOf, UInt32.toNat_ofNat', Nat.mod_eq_of_lt hfits, List.getD_eq_getElem?_getD, h,
    Option.getD_some]

/-- **The layout of a wave.**  For a wave that fits the bindings, the shader reads
of every packet what the packet holds, and no two packets share a word.  Whatever
the invocations emit, in whatever order they run and whatever the buffer held, each
of them changes its own length word and slot only, leaves its packet there, and the
sink is handed, position after position, the index that the wave has there with the
packet of that invocation. -/
theorem wave_layout (config : PacketEngineConfig) (packets : List RawPacket) {wave : List Nat}
    {stride maxStorageBindingBytes : Nat} (hwave : ∀ i ∈ wave, i < packets.length)
    (hstride : 48 ≤ stride) (hbinding : maxStorageBindingBytes ≤ 2 ^ 32)
    (hinput : 4 * waveWords packets wave ≤ maxStorageBindingBytes)
    (houtput : 4 * (wave.length * (1 + stride)) ≤ maxStorageBindingBytes) :
    (∃ metadata packed, packWaveInputs packets wave = .ok (metadata, packed) ∧
      (∀ position packet, packetAt packets wave position = some packet →
        ReadsPacket packed (metaOf metadata (UInt32.ofNat position)) packet.bytes ∧
          4 * wordEnd (metaOf metadata (UInt32.ofNat position)) ≤ packed.length) ∧
      ∀ position later, position < later → later < wave.length →
        wordEnd (metaOf metadata (UInt32.ofNat position)) ≤
          (metaOf metadata (UInt32.ofNat later)).wordOffset.toNat) ∧
    ∀ (emissions : Nat → Option Emission) (order : List Nat),
      order.Perm (List.range wave.length) →
      let params := strideParams config wave.length stride
      (∀ position output w, position < wave.length → w.toNat ≠ position →
        ¬ (wave.length + position * stride ≤ w.toNat ∧
          w.toNat < wave.length + (position + 1) * stride) →
        invocationOutput params (UInt32.ofNat position) (emissions position) output w =
          output w) ∧
      (∀ position output, position < wave.length →
        emitted params
            (invocationOutput params (UInt32.ofNat position) (emissions position) output)
            (UInt32.ofNat position) = (emissions position).map Emission.bytes) ∧
      ∀ (output : Words) (σ : Type) (sink : PacketSink σ) (s : σ),
        let readback :=
          readbackOf (dispatchOutput params emissions order output) wave.length stride
        emitWaveOutputs sink (toBytes readback.words) (stride * 4) 0
            (readback.metadata.zip wave) s =
          deliver sink (wave.mapIdx fun position source =>
            (source, (emissions position).map Emission.bytes)) s := by
  have hslots : wave.length * (1 + stride) ≤ 2 ^ 32 := by omega
  have hwide : outputStrideWords ≤ stride := by rwa [outputStrideWords_eq]
  have hcount {position : Nat} (hposition : position < wave.length) : position < 2 ^ 32 := by
    have := Nat.mul_le_mul_left wave.length (show 1 ≤ 1 + stride by omega)
    omega
  obtain ⟨metadata, packed, hpacked, hlength, hpackedLen, hordered, hreads⟩ :=
    packWaveInputs_spec hwave (by omega)
  refine ⟨⟨metadata, packed, hpacked, ?_, ?_⟩, ?_⟩
  · intro position packet hpacket
    obtain ⟨slot, hslot, hinside, hread⟩ := hreads position packet hpacket
    have hposition : position < wave.length :=
      hlength ▸ (List.getElem?_eq_some_iff.mp hslot).1
    rw [metaOf_eq hslot (hcount hposition), hpackedLen]
    exact ⟨hread, Nat.mul_le_mul_left 4 hinside⟩
  · intro position later hlt hlater
    have hposition : position < metadata.length := by omega
    have hlater' : later < metadata.length := by omega
    rw [metaOf_eq (List.getElem?_eq_getElem hposition) (hcount (by omega)),
      metaOf_eq (List.getElem?_eq_getElem hlater') (hcount hlater)]
    exact List.pairwise_iff_getElem.mp hordered position later hposition hlater' hlt
  · intro emissions order horder
    refine ⟨fun position output w hposition hindex hslot =>
      invocationOutput_frame hwide hslots hposition _ output hindex hslot, ?_, ?_⟩
    · exact fun position output hposition =>
        emitted_invocationOutput (slotFits_strideParams config hwide hslots hposition) _ output
    intro output σ sink s
    exact emitWaveOutputs_readback sink config hwide hslots emissions horder output s

/-- Two packets in the other order, with the second invocation running first. -/
theorem wave_layout_two :
    let packets : List RawPacket :=
      [⟨[1, 2, 3, 4, 5], by decide, by decide⟩, ⟨[9, 8, 7], by decide, by decide⟩]
    let emission : Emission := ⟨1, 2, 3, 4, 5, 6, 16, invalidIndex⟩
    let emissions : Nat → Option Emission := fun i => if i = 0 then some emission else none
    let output := dispatchOutput (strideParams ⟨2, 2, 2, 80⟩ 2 48) emissions [1, 0] fun _ => 7
    (∃ metadata packed, packWaveInputs packets [1, 0] = .ok (metadata, packed)) ∧
      emitWaveOutputs recordSink (toBytes (readbackOf output 2 48).words) 192 0
          ((readbackOf output 2 48).metadata.zip [1, 0]) [] =
        .ok [(1, some emission.bytes), (0, none)] := by
  intro packets emission emissions output
  obtain ⟨⟨metadata, packed, hpacked, -⟩, hdispatch⟩ :=
    @wave_layout ⟨2, 2, 2, 80⟩ packets [1, 0] 48 1024 (by decide) (by decide) (by decide)
      (by decide) (by decide)
  refine ⟨⟨metadata, packed, hpacked⟩, ?_⟩
  exact (hdispatch emissions [1, 0] (by decide)).2.2 (fun _ => 7) _ recordSink []

end Shader
end Packet
end Gput
