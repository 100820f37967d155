import Gput.Packet.Shader

/-!
# Dispatching a wave to the shader

The host side of a dispatch: the metadata of a wave, its packed bytes, and the
parameters.  `Invocation.presented` connects it to the shader: every packet of
the wave is presented to the invocation of its position.
-/

namespace Gput
namespace Packet
namespace Shader

open LittleEndian

/-- `prepare_wave_metadata`, from a word count on. -/
def prepareWaveMetadata (wordCount : Nat) : List RawPacket → Outcome (List PacketMeta × Nat)
  | [] => return ([], wordCount)
  | packet :: wave => do
      let packetWords := (packet.bytes.length + 3) / 4
      Outcome.ensure (wordCount + packetWords < 2 ^ 64) "packet input word count overflow"
      Outcome.ensure (packet.bytes.length < 2 ^ 32) "packet length does not fit u32"
      Outcome.ensure (wordCount < 2 ^ 32) "packet word offset does not fit u32"
      let (metadata, total) ← prepareWaveMetadata (wordCount + packetWords) wave
      return ({ len := UInt32.ofNat packet.bytes.length, wordOffset := UInt32.ofNat wordCount } ::
        metadata, total)

/-- Copying bytes into a slice of a destination. -/
def copyIntoSlice (destination : List UInt8) (offset : Nat) (bytes : List UInt8) :
    Outcome (List UInt8) :=
  if offset + bytes.length ≤ destination.length then
    .ok (destination.take offset ++ bytes ++ destination.drop (offset + bytes.length))
  else .panic

/-- The loop of `pack_wave_bytes`. -/
def packWaveBytes : List UInt8 → List RawPacket → List PacketMeta → Outcome (List UInt8)
  | destination, packet :: wave, slot :: metadata => do
      let destination ← copyIntoSlice destination (slot.wordOffset.toNat * 4) packet.bytes
      packWaveBytes destination wave metadata
  | destination, _, _ => return destination

/-- The words of an uploaded buffer. -/
def wordsOf (bytes : List UInt8) : Words :=
  fun i => word (byteAt bytes) i.toNat

/-- The metadata of an uploaded buffer. -/
def metaOf (metadata : List PacketMeta) : UInt32 → PacketMeta :=
  fun i => metadata.getD i.toNat { len := 0, wordOffset := 0 }

def outputStrideWords : Nat := (maxResponsePacketBytes + 3) / 4

/-- The parameters of a dispatch. -/
def engineParams (config : PacketEngineConfig) (packetCount : Nat) : EngineParams where
  packetCount := UInt32.ofNat packetCount
  outputWordBase := UInt32.ofNat packetCount
  outputStrideWords := UInt32.ofNat outputStrideWords
  flowCapacity := UInt32.ofNat config.flowCapacity
  listenPort := config.listenPort.toUInt32
  flowProbeLimit := UInt32.ofNat config.flowProbeLimit

theorem outputStrideWords_eq : outputStrideWords = 48 := by
  rw [outputStrideWords, maxResponsePacketBytes_eq]

/-- The parameters of a dispatch with another distance between its output slots. -/
def strideParams (config : PacketEngineConfig) (packetCount stride : Nat) : EngineParams :=
  { engineParams config packetCount with outputStrideWords := UInt32.ofNat stride }

/-- The parameters and positions of a dispatch are not truncated. -/
theorem strideParams_toNat (config : PacketEngineConfig) {packetCount stride index : Nat}
    (hstride : outputStrideWords ≤ stride) (houtput : packetCount * (1 + stride) ≤ 2 ^ 32)
    (hindex : index < packetCount) :
    (strideParams config packetCount stride).outputWordBase.toNat = packetCount ∧
      (strideParams config packetCount stride).outputStrideWords.toNat = stride ∧
      (UInt32.ofNat index).toNat = index := by
  rw [outputStrideWords_eq] at hstride
  have hone : 1 + stride ≤ packetCount * (1 + stride) := Nat.le_mul_of_pos_left _ (by omega)
  have htwo : packetCount * 2 ≤ packetCount * (1 + stride) := Nat.mul_le_mul_left _ (by omega)
  refine ⟨?_, ?_, ?_⟩
  · show (UInt32.ofNat packetCount).toNat = packetCount
    rw [UInt32.toNat_ofNat', Nat.mod_eq_of_lt (by omega)]
  · show (UInt32.ofNat stride).toNat = stride
    rw [UInt32.toNat_ofNat', Nat.mod_eq_of_lt (by omega)]
  · rw [UInt32.toNat_ofNat', Nat.mod_eq_of_lt (by omega)]

/-- The output slot of every packet of a wave lies inside the output buffer. -/
theorem slotFits_strideParams (config : PacketEngineConfig) {packetCount stride index : Nat}
    (hstride : outputStrideWords ≤ stride) (houtput : packetCount * (1 + stride) ≤ 2 ^ 32)
    (hindex : index < packetCount) :
    SlotFits (strideParams config packetCount stride) (UInt32.ofNat index) := by
  obtain ⟨hbase, hwords, hposition⟩ := strideParams_toNat config hstride houtput hindex
  rw [outputStrideWords_eq] at hstride
  refine ⟨?_, ?_, ?_⟩
  · rw [hposition, hbase]
    exact hindex
  · have hnext : (index + 1) * stride ≤ packetCount * stride := Nat.mul_le_mul_right _ hindex
    rw [hposition, hbase, hwords]
    rw [Nat.mul_add, Nat.mul_one] at houtput
    omega
  · rw [maxResponsePacketBytes_eq, hwords]
    omega

theorem slotFits_engineParams (config : PacketEngineConfig) {packetCount index : Nat}
    (houtput : packetCount * (1 + outputStrideWords) ≤ 2 ^ 32) (hindex : index < packetCount) :
    SlotFits (engineParams config packetCount) (UInt32.ofNat index) :=
  slotFits_strideParams config (le_refl _) houtput hindex

section Packing

theorem copyIntoSlice_eq {destination bytes : List UInt8} {offset : Nat}
    (h : offset + bytes.length ≤ destination.length) :
    copyIntoSlice destination offset bytes =
      .ok (destination.take offset ++ bytes ++ destination.drop (offset + bytes.length)) :=
  if_pos h

/-- A copied slice holds the bytes and changes nothing before them. -/
theorem copied_getElem? {destination bytes : List UInt8} {offset : Nat}
    (h : offset + bytes.length ≤ destination.length) :
    let copied := destination.take offset ++ bytes ++ destination.drop (offset + bytes.length)
    copied.length = destination.length ∧
      (∀ k, k < offset → copied[k]? = destination[k]?) ∧
      ∀ k, k < bytes.length → copied[offset + k]? = bytes[k]? := by
  have htake : (destination.take offset).length = offset := by
    rw [List.length_take]
    omega
  refine ⟨?_, ?_, ?_⟩
  · rw [List.length_append, List.length_append, htake, List.length_drop]
    omega
  · intro k hk
    rw [List.append_assoc, List.getElem?_append_left (by omega), List.getElem?_take_of_lt hk]
  · intro k hk
    rw [List.append_assoc, List.getElem?_append_right (by omega), htake, Nat.add_sub_cancel_left,
      List.getElem?_append_left hk]

/-- The metadata of a wave: it succeeds while the word count stays below 2^32. -/
theorem prepareWaveMetadata_cons {packet : RawPacket} {wave : List RawPacket} {wordCount : Nat}
    {result : List PacketMeta × Nat}
    (h : prepareWaveMetadata wordCount (packet :: wave) = .ok result) :
    ∃ metadata total,
      prepareWaveMetadata (wordCount + (packet.bytes.length + 3) / 4) wave = .ok (metadata, total) ∧
        packet.bytes.length < 2 ^ 32 ∧ wordCount < 2 ^ 32 ∧
        result =
          (⟨UInt32.ofNat packet.bytes.length, UInt32.ofNat wordCount⟩ :: metadata, total) := by
  unfold prepareWaveMetadata at h
  obtain ⟨_, -, h⟩ := Outcome.bind_eq_ok.mp h
  obtain ⟨_, hlen, h⟩ := Outcome.bind_eq_ok.mp h
  obtain ⟨_, hoffset, h⟩ := Outcome.bind_eq_ok.mp h
  obtain ⟨⟨metadata, total⟩, hrest, h⟩ := Outcome.bind_eq_ok.mp h
  exact ⟨metadata, total, hrest, Outcome.ensure_eq_ok.mp hlen, Outcome.ensure_eq_ok.mp hoffset,
    (Outcome.ok.inj h).symm⟩

/-- The word count only grows. -/
theorem prepareWaveMetadata_le {wave : List RawPacket} {wordCount total : Nat}
    {metadata : List PacketMeta}
    (h : prepareWaveMetadata wordCount wave = .ok (metadata, total)) : wordCount ≤ total := by
  induction wave generalizing wordCount metadata with
  | nil =>
      cases h
      exact le_refl _
  | cons packet wave ih =>
      obtain ⟨metadata', total', hrest, -, -, hresult⟩ := prepareWaveMetadata_cons h
      cases hresult
      have := ih hrest
      omega

/-- What the packed bytes hold for one packet of the wave. -/
structure PackedAt (packed : List UInt8) (total : Nat) (packet : RawPacket) (slot : PacketMeta) :
    Prop where
  len : slot.len.toNat = packet.bytes.length
  inside : slot.wordOffset.toNat + (packet.bytes.length + 3) / 4 ≤ total
  bytes : ∀ k, k < packet.bytes.length →
    packed[slot.wordOffset.toNat * 4 + k]? = packet.bytes[k]?

/-- The uploaded words hold a packed packet. -/
theorem PackedAt.holds {packed : List UInt8} {total : Nat} {packet : RawPacket}
    {slot : PacketMeta} (h : PackedAt packed total packet slot) (htotal : total ≤ 2 ^ 32) :
    Holds (wordsOf packed) slot.wordOffset packet.bytes := by
  intro k r hr hk
  have hinside := h.inside
  have hbytes := h.bytes (4 * k + r) hk
  have hnat : (slot.wordOffset + UInt32.ofNat k).toNat = slot.wordOffset.toNat + k := by
    have := slot.wordOffset.toNat_lt
    rw [UInt32.toNat_add, UInt32.toNat_ofNat']
    omega
  rw [wordsOf, hnat, byteOf_word _ _ hr, byteAt, byteAt, List.getD_eq_getElem?_getD,
    List.getD_eq_getElem?_getD, ← hbytes]
  congr 2
  omega

/-- Packing a wave does not panic, and puts every packet where its metadata
says. -/
theorem packWaveBytes_spec {wave : List RawPacket} :
    ∀ {wordCount total : Nat} {metadata : List PacketMeta} (destination : List UInt8),
      prepareWaveMetadata wordCount wave = .ok (metadata, total) →
      4 * total ≤ destination.length →
      ∃ packed, packWaveBytes destination wave metadata = .ok packed ∧
        packed.length = destination.length ∧
        (∀ k, k < 4 * wordCount → packed[k]? = destination[k]?) ∧
        ∀ (i : Nat) (packet : RawPacket), wave[i]? = some packet →
          ∃ slot, metadata[i]? = some slot ∧ PackedAt packed total packet slot := by
  induction wave with
  | nil =>
      intro wordCount total metadata destination h hroom
      cases h
      exact ⟨destination, rfl, rfl, fun _ _ => rfl, fun i packet hi => by cases hi⟩
  | cons packet wave ih =>
      intro wordCount total metadata destination h hroom
      obtain ⟨metadata', total', hrest, hlen, hoffset, hresult⟩ := prepareWaveMetadata_cons h
      cases hresult
      have htotal := prepareWaveMetadata_le hrest
      have hnat : (UInt32.ofNat wordCount).toNat = wordCount := by
        rw [UInt32.toNat_ofNat', Nat.mod_eq_of_lt hoffset]
      have hfits : wordCount * 4 + packet.bytes.length ≤ destination.length := by omega
      obtain ⟨hcopiedLen, hcopiedBefore, hcopied⟩ := copied_getElem? hfits
      obtain ⟨packed, hpacked, hpackedLen, hbefore, hafter⟩ :=
        ih _ hrest (by rw [hcopiedLen]; exact hroom)
      refine ⟨packed, ?_, hpackedLen.trans hcopiedLen, ?_, ?_⟩
      · rw [packWaveBytes, hnat, copyIntoSlice_eq hfits, Outcome.ok_bind, hpacked]
      · intro k hk
        rw [hbefore k (by omega), hcopiedBefore k (by omega)]
      · intro i packet' hi
        cases i with
        | zero =>
            cases hi
            refine ⟨_, rfl, ?_, ?_, ?_⟩
            · show (UInt32.ofNat packet.bytes.length).toNat = _
              rw [UInt32.toNat_ofNat', Nat.mod_eq_of_lt hlen]
            · show (UInt32.ofNat wordCount).toNat + _ ≤ _
              rw [hnat]
              exact htotal
            · intro k hk
              show packed[(UInt32.ofNat wordCount).toNat * 4 + k]? = _
              rw [hnat, hbefore _ (by omega), hcopied k hk]
        | succ i => exact hafter i packet' hi

end Packing

/-- One invocation of the dispatch of a wave. -/
structure Invocation where
  wave : List RawPacket
  metadata : List PacketMeta
  packed : List UInt8
  position : Nat

namespace Invocation

/-- The invocation belongs to a dispatch as the host prepares it, its position
is that of the packet, and the bound buffers can be addressed by words. -/
structure Presents (invocation : Invocation) (packet : RawPacket) : Prop where
  packed : ∃ total, prepareWaveMetadata 0 invocation.wave = .ok (invocation.metadata, total) ∧
    packWaveBytes (List.replicate (4 * total) 0) invocation.wave invocation.metadata =
      .ok invocation.packed ∧ total ≤ 2 ^ 32
  packet : invocation.wave[invocation.position]? = some packet
  output : invocation.wave.length * (1 + outputStrideWords) ≤ 2 ^ 32

variable (config : PacketEngineConfig) (invocation : Invocation)

/-- The shader's work for the invocation. -/
def run (storage : Storage) : Storage :=
  main (engineParams config invocation.wave.length) (metaOf invocation.metadata)
    (wordsOf invocation.packed) (UInt32.ofNat invocation.position) storage

/-- What the host reads back for the invocation. -/
def readBack (storage : Storage) : Option (List UInt8) :=
  emitted (engineParams config invocation.wave.length) storage.outputData
    (UInt32.ofNat invocation.position)

variable {invocation} {packet : RawPacket}

theorem Presents.position_lt (h : invocation.Presents packet) :
    invocation.position < invocation.wave.length :=
  (List.getElem?_eq_some_iff.mp h.packet).1

theorem Presents.length_lt (h : invocation.Presents packet) :
    invocation.wave.length < 2 ^ 32 := by
  have hpos := h.position_lt
  have hout := h.output
  rw [outputStrideWords_eq] at hout
  omega

theorem Presents.position_toNat (h : invocation.Presents packet) :
    (UInt32.ofNat invocation.position).toNat = invocation.position := by
  have hpos := h.position_lt
  have hlen := h.length_lt
  rw [UInt32.toNat_ofNat', Nat.mod_eq_of_lt (by omega)]

theorem Presents.length_toNat (h : invocation.Presents packet) :
    (UInt32.ofNat invocation.wave.length).toNat = invocation.wave.length := by
  rw [UInt32.toNat_ofNat', Nat.mod_eq_of_lt h.length_lt]

/-- Every packet of a wave is presented to the invocation of its position. -/
theorem presented (h : invocation.Presents packet) :
    Presented (engineParams config invocation.wave.length) (metaOf invocation.metadata)
      (wordsOf invocation.packed) (UInt32.ofNat invocation.position) packet := by
  obtain ⟨total, hprepared, hpacked, htotal⟩ := h.packed
  obtain ⟨packed, hpacked', -, -, hholds⟩ :=
    packWaveBytes_spec (List.replicate (4 * total) 0) hprepared (by rw [List.length_replicate])
  rw [hpacked] at hpacked'
  cases hpacked'
  obtain ⟨slot, hslot, hat⟩ := hholds _ _ h.packet
  have hmeta : metaOf invocation.metadata (UInt32.ofNat invocation.position) = slot := by
    rw [metaOf, h.position_toNat, List.getD_eq_getElem?_getD, hslot]
    rfl
  refine ⟨?_, ?_, ?_⟩
  · rw [UInt32.lt_iff_toNat_lt, h.position_toNat]
    exact lt_of_lt_of_eq h.position_lt h.length_toNat.symm
  · rw [hmeta]
    exact hat.len
  · rw [hmeta]
    exact hat.holds htotal

/-- The output slot of an invocation lies inside the output buffer. -/
theorem slotFits (h : invocation.Presents packet) :
    SlotFits (engineParams config invocation.wave.length)
      (UInt32.ofNat invocation.position) :=
  slotFits_engineParams config h.output h.position_lt

/-- Every packet can be dispatched alone. -/
theorem exists_presents (packet : RawPacket) :
    ∃ invocation : Invocation, invocation.wave = [packet] ∧ invocation.Presents packet := by
  have hsize := packet.length_le
  unfold maxRawPacketBytes at hsize
  have hprepared : prepareWaveMetadata 0 [packet] =
      .ok ([⟨UInt32.ofNat packet.bytes.length, UInt32.ofNat 0⟩],
        0 + (packet.bytes.length + 3) / 4) := by
    unfold prepareWaveMetadata
    dsimp only
    rw [Outcome.ensure_of _ (by omega), Outcome.ensure_of _ (by omega),
      Outcome.ensure_of _ (by omega)]
    rfl
  obtain ⟨packed, hpacked, -⟩ :=
    packWaveBytes_spec (List.replicate (4 * (0 + (packet.bytes.length + 3) / 4)) 0) hprepared
      (by rw [List.length_replicate])
  refine ⟨⟨[packet], _, packed, 0⟩, rfl, ⟨_, hprepared, hpacked, by omega⟩, rfl, ?_⟩
  show 1 * (1 + outputStrideWords) ≤ 2 ^ 32
  rw [outputStrideWords_eq]
  decide

end Invocation

end Shader
end Packet
end Gput
