import Gput.Library.LittleEndian
import Gput.Packet.WaveOrder

/-!
# A batch through the GPU engine

`process_batch_into` hands every wave to the device and sorts what comes back
into the output vector.  The device is a parameter: it takes the packets of a
wave and returns, when it succeeds, the length words and the output slots.  The
schedule places every packet in exactly one wave, so every output is written
exactly once, whatever the vector held before.
-/

namespace Gput
namespace Packet

open GreedyRounds LittleEndian

/-- What is read back after a dispatch: one length word and one slot for each
packet of the wave. -/
structure Readback (count stride : Nat) where
  metadata : List UInt32
  words : List UInt32
  metadata_length : metadata.length = count
  words_length : words.length = count * stride

/-- A device: its state, and what it does with the packets of a wave. -/
abbrev Device (δ : Type) (stride : Nat) : Type :=
  δ → (packets : List RawPacket) → Outcome (δ × Readback packets.length stride)

/-- A `PacketSink`. -/
abbrev PacketSink (σ : Type) : Type :=
  σ → Nat → Option (List UInt8) → Outcome σ

/-- `&bytes[base..base + len]`. -/
def slice (bytes : List UInt8) (base len : Nat) : Outcome (List UInt8) :=
  if base + len ≤ bytes.length then .ok ((bytes.drop base).take len) else .panic

/-- The loop of `emit_wave_outputs`. -/
def emitWaveOutputs {σ : Type} (sink : PacketSink σ) (bytes : List UInt8)
    (outputStrideBytes : Nat) : Nat → List (UInt32 × Nat) → σ → Outcome σ
  | _, [], s => return s
  | index, (len, sourceIndex) :: rest, s => do
      if len = 0 then
        let s ← sink s sourceIndex none
        emitWaveOutputs sink bytes outputStrideBytes (index + 1) rest s
      else
        Outcome.ensure (len.toNat ≤ outputStrideBytes)
          s!"GPU produced packet of {len} bytes outside the tight response slot"
        let base := index * outputStrideBytes
        let packet ← slice bytes base len.toNat
        let s ← sink s sourceIndex (some packet)
        emitWaveOutputs sink bytes outputStrideBytes (index + 1) rest s

/-- The packets of a wave. -/
def gather (packets : List RawPacket) : List Nat → Outcome (List RawPacket)
  | [] => return []
  | i :: rest => do
      let packet ← Outcome.expect packets[i]?
      let rest ← gather packets rest
      return packet :: rest

/-- `dispatch_wave`. -/
def dispatchWave {δ σ : Type} {stride : Nat} (device : Device δ stride)
    (sink : PacketSink σ) (packets : List RawPacket) (wave : List Nat) (state : δ × σ) :
    Outcome (δ × σ) := do
  if wave = [] then return state
  let wavePackets ← gather packets wave
  let (device, readback) ← device state.1 wavePackets
  let s ← emitWaveOutputs sink (toBytes readback.words) (stride * 4) 0
    (readback.metadata.zip wave) state.2
  return (device, s)

/-- `RawPacket::replace_from_slice`. -/
def RawPacket.replaceFromSlice (_ : RawPacket) (bytes : List UInt8) : Outcome RawPacket :=
  RawPacket.new bytes

/-- `assign_packet_bytes`. -/
def assignPacketBytes (slot : Option RawPacket) (bytes : List UInt8) : Outcome RawPacket := do
  Outcome.ensure (bytes ≠ [] ∧ bytes.length ≤ maxRawPacketBytes)
    s!"packet output length {bytes.length} is outside the raw packet bounds"
  match slot with
  | some packet => packet.replaceFromSlice bytes
  | none => RawPacket.new bytes

/-- The sink of `process_batch_into`. -/
def outputSink : PacketSink (List (Option RawPacket)) := fun output sourceIndex packet => do
  let slot ← Outcome.expect output[sourceIndex]?
  match packet with
  | some bytes =>
      let assigned ← assignPacketBytes slot bytes
      return output.set sourceIndex (some assigned)
  | none => return output.set sourceIndex none

/-- `GpuPacketEngine::process_batch_into`: the scratch, the device and the output
vector afterwards. -/
def gpuProcessBatchInto {δ : Type} {stride : Nat} (device : Device δ stride)
    (packets : List RawPacket) (limits : Nat × Nat) (scratch : PacketScratch) (d : δ)
    (output : List (Option RawPacket)) :
    Outcome (PacketScratch × δ × List (Option RawPacket)) :=
  let output := output.take packets.length
  let output := output ++ List.replicate (packets.length - output.length) none
  processBatchTo (dispatchWave device outputSink packets) packets limits packets.length scratch
    (d, output)

/-- What a sink is handed: the source index and the packet. -/
abbrev Delivery : Type := Nat × Option (List UInt8)

/-- A sink that only notes what it is handed. -/
def recordSink : PacketSink (List Delivery) := fun log sourceIndex packet =>
  .ok (log ++ [(sourceIndex, packet)])

/-- A sink handed a list of deliveries. -/
def deliver {σ : Type} (sink : PacketSink σ) : List Delivery → σ → Outcome σ
  | [], s => return s
  | (sourceIndex, packet) :: rest, s => do
      let s ← sink s sourceIndex packet
      deliver sink rest s

section Deliver

variable {σ δ : Type} {sink : PacketSink σ}

theorem deliver_append (first second : List Delivery) : ∀ {s s' s'' : σ},
    deliver sink first s = .ok s' → deliver sink second s' = .ok s'' →
      deliver sink (first ++ second) s = .ok s'' := by
  induction first with
  | nil =>
      intro s s' s'' hfirst hsecond
      cases hfirst
      exact hsecond
  | cons delivery rest ih =>
      intro s s' s'' hfirst hsecond
      obtain ⟨next, hnext, hrest⟩ := Outcome.bind_eq_ok.mp hfirst
      exact Outcome.bind_eq_ok.mpr ⟨next, hnext, ih hrest hsecond⟩

/-- A decode that succeeds hands the sink one delivery for each packet. -/
theorem emitWaveOutputs_deliveries (bytes : List UInt8) (strideBytes : Nat)
    (items : List (UInt32 × Nat)) : ∀ (index : Nat) {s s' : σ},
    emitWaveOutputs sink bytes strideBytes index items s = .ok s' →
      ∃ log : List Delivery, log.map Prod.fst = items.map Prod.snd ∧
        deliver sink log s = .ok s' ∧
        ∀ before, emitWaveOutputs recordSink bytes strideBytes index items before =
          .ok (before ++ log) := by
  induction items with
  | nil =>
      intro index s s' h
      cases h
      exact ⟨[], rfl, rfl, fun before => by simp [emitWaveOutputs]⟩
  | cons item rest ih =>
      intro index s s' h
      obtain ⟨len, sourceIndex⟩ := item
      unfold emitWaveOutputs at h
      split_ifs at h with hzero
      · obtain ⟨next, hnext, hrest⟩ := Outcome.bind_eq_ok.mp h
        obtain ⟨log, hmap, hlog, hrecord⟩ := ih (index + 1) hrest
        refine ⟨(sourceIndex, none) :: log, by simp [hmap],
          Outcome.bind_eq_ok.mpr ⟨next, hnext, hlog⟩, ?_⟩
        intro before
        rw [emitWaveOutputs, if_pos hzero]
        simp [recordSink, hrecord]
      · obtain ⟨_, hensure, h⟩ := Outcome.bind_eq_ok.mp h
        obtain ⟨packet, hpacket, h⟩ := Outcome.bind_eq_ok.mp h
        obtain ⟨next, hnext, hrest⟩ := Outcome.bind_eq_ok.mp h
        obtain ⟨log, hmap, hlog, hrecord⟩ := ih (index + 1) hrest
        refine ⟨(sourceIndex, some packet) :: log, by simp [hmap],
          Outcome.bind_eq_ok.mpr ⟨next, hnext, hlog⟩, ?_⟩
        intro before
        rw [emitWaveOutputs, if_neg hzero, hensure]
        simp [hpacket, recordSink, hrecord]

theorem gather_length (packets : List RawPacket) (wave : List Nat) :
    ∀ {wavePackets : List RawPacket}, gather packets wave = .ok wavePackets →
      wavePackets.length = wave.length := by
  induction wave with
  | nil =>
      intro wavePackets h
      cases h
      rfl
  | cons i rest ih =>
      intro wavePackets h
      obtain ⟨packet, -, h⟩ := Outcome.bind_eq_ok.mp h
      obtain ⟨others, hothers, h⟩ := Outcome.bind_eq_ok.mp h
      cases h
      simp [ih hothers]

/-- A dispatch that succeeds hands the sink one delivery for each packet of its
wave. -/
theorem dispatchWave_deliveries {stride : Nat} (device : Device δ stride)
    (packets : List RawPacket) (wave : List Nat) {d d' : δ} {s s' : σ}
    (h : dispatchWave device sink packets wave (d, s) = .ok (d', s')) :
    ∃ log : List Delivery, log.map Prod.fst = wave ∧ deliver sink log s = .ok s' ∧
      ∀ before, dispatchWave device recordSink packets wave (d, before) =
        .ok (d', before ++ log) := by
  unfold dispatchWave at h
  split_ifs at h with hempty
  · cases h
    refine ⟨[], by simp [hempty], rfl, ?_⟩
    intro before
    simp [dispatchWave, hempty]
  · obtain ⟨wavePackets, hgather, h⟩ := Outcome.bind_eq_ok.mp h
    obtain ⟨⟨after, readback⟩, hdevice, h⟩ := Outcome.bind_eq_ok.mp h
    obtain ⟨next, hemit, h⟩ := Outcome.bind_eq_ok.mp h
    cases h
    obtain ⟨log, hmap, hlog, hrecord⟩ := emitWaveOutputs_deliveries _ _ _ _ hemit
    have hlength : wave.length ≤ readback.metadata.length := by
      rw [readback.metadata_length, gather_length packets wave hgather]
    refine ⟨log, by rw [hmap, List.map_snd_zip hlength], hlog, ?_⟩
    intro before
    unfold dispatchWave
    rw [if_neg hempty, hgather]
    simp only [Outcome.ok_bind]
    rw [hdevice]
    simp only [Outcome.ok_bind]
    rw [hrecord]
    rfl

/-- Dispatches that succeed hand the sink one delivery for each packet, wave after
wave. -/
theorem runWaves_deliveries {stride : Nat} (device : Device δ stride)
    (packets : List RawPacket) (log : List (List Nat)) : ∀ {d d' : δ} {s s' : σ},
    runWaves (dispatchWave device sink packets) log (d, s) = .ok (d', s') →
      ∃ deliveries : List Delivery, deliveries.map Prod.fst = log.flatten ∧
        deliver sink deliveries s = .ok s' ∧
        ∀ before, runWaves (dispatchWave device recordSink packets) log (d, before) =
          .ok (d', before ++ deliveries) := by
  induction log with
  | nil =>
      intro d d' s s' h
      cases h
      exact ⟨[], rfl, rfl, fun before => by simp [runWaves]⟩
  | cons wave rest ih =>
      intro d d' s s' h
      obtain ⟨⟨middle, next⟩, hfirst, hrest⟩ := Outcome.bind_eq_ok.mp h
      obtain ⟨first, hmap, hdeliver, hrecord⟩ := dispatchWave_deliveries device packets wave hfirst
      obtain ⟨later, hmap', hdeliver', hrecord'⟩ := ih hrest
      refine ⟨first ++ later, by simp [hmap, hmap'], deliver_append _ _ hdeliver hdeliver', ?_⟩
      intro before
      rw [runWaves, hrecord before]
      simp only [Outcome.ok_bind]
      rw [hrecord', List.append_assoc]

end Deliver

theorem RawPacket.new_eq_ok {bytes : List UInt8} {packet : RawPacket}
    (h : RawPacket.new bytes = .ok packet) : packet.bytes = bytes := by
  unfold RawPacket.new at h
  split_ifs at h
  cases h
  rfl

theorem assignPacketBytes_eq_ok {slot : Option RawPacket} {bytes : List UInt8}
    {packet : RawPacket} (h : assignPacketBytes slot bytes = .ok packet) :
    packet.bytes = bytes := by
  obtain ⟨_, -, h⟩ := Outcome.bind_eq_ok.mp h
  cases slot with
  | none => exact RawPacket.new_eq_ok h
  | some old => exact RawPacket.new_eq_ok h

/-- One delivery replaces one output. -/
theorem outputSink_eq_ok {output output' : List (Option RawPacket)} {sourceIndex : Nat}
    {packet : Option (List UInt8)} (h : outputSink output sourceIndex packet = .ok output') :
    ∃ slot : Option RawPacket, output' = output.set sourceIndex slot ∧
      sourceIndex < output.length ∧ slot.map RawPacket.bytes = packet := by
  obtain ⟨old, hold, h⟩ := Outcome.bind_eq_ok.mp h
  have hlt : sourceIndex < output.length := by
    by_contra hge
    rw [List.getElem?_eq_none (by omega)] at hold
    cases hold
  cases packet with
  | none =>
      cases h
      exact ⟨none, rfl, hlt, rfl⟩
  | some bytes =>
      obtain ⟨assigned, hassigned, h⟩ := Outcome.bind_eq_ok.mp h
      cases h
      exact ⟨some assigned, rfl, hlt, by rw [Option.map_some, assignPacketBytes_eq_ok hassigned]⟩

/-- After deliveries to different outputs each of them holds its delivery. -/
theorem deliver_outputSink (deliveries : List Delivery) :
    ∀ {output output' : List (Option RawPacket)},
      (deliveries.map Prod.fst).Nodup → deliver outputSink deliveries output = .ok output' →
      output'.length = output.length ∧
        (∀ i, i ∉ deliveries.map Prod.fst → output'[i]? = output[i]?) ∧
        ∀ delivery ∈ deliveries, ∃ slot : Option RawPacket,
          output'[delivery.1]? = some slot ∧ slot.map RawPacket.bytes = delivery.2 := by
  induction deliveries with
  | nil =>
      intro output output' _ h
      cases h
      exact ⟨rfl, fun _ _ => rfl, fun _ hmem => by cases hmem⟩
  | cons delivery rest ih =>
      intro output output' hnodup h
      obtain ⟨next, hnext, hrest⟩ := Outcome.bind_eq_ok.mp h
      obtain ⟨slot, rfl, hlt, hslot⟩ := outputSink_eq_ok hnext
      rw [List.map_cons, List.nodup_cons] at hnodup
      obtain ⟨hlength, hothers, hrest⟩ := ih hnodup.2 hrest
      refine ⟨by simpa using hlength, ?_, ?_⟩
      · intro i hi
        rw [List.map_cons, List.mem_cons, not_or] at hi
        rw [hothers i hi.2, List.getElem?_set_ne (fun h => hi.1 h.symm)]
      · intro other hother
        rcases List.mem_cons.mp hother with rfl | hother
        · refine ⟨slot, ?_, hslot⟩
          rw [hothers _ hnodup.1, List.getElem?_set_self hlt]
        · exact hrest other hother

section Succeeds

variable {δ : Type} {stride : Nat}

/-- A device whose dispatches succeed and return packets that fit their slots. -/
def Device.Succeeds (device : Device δ stride) : Prop :=
  ∀ d packets, ∃ d' readback, device d packets = .ok (d', readback) ∧
    ∀ len ∈ readback.metadata, len.toNat ≤ stride * 4

/-- The output vector takes every delivery that fits a packet. -/
theorem outputSink_ok {output : List (Option RawPacket)} {sourceIndex : Nat}
    (hindex : sourceIndex < output.length) {packet : Option (List UInt8)}
    (hfits : ∀ bytes, packet = some bytes → bytes ≠ [] ∧ bytes.length ≤ maxRawPacketBytes) :
    ∃ output', outputSink output sourceIndex packet = .ok output' ∧
      output'.length = output.length := by
  unfold outputSink
  rw [List.getElem?_eq_getElem hindex, Outcome.expect_some, Outcome.ok_bind]
  cases packet with
  | none => exact ⟨_, rfl, List.length_set⟩
  | some bytes =>
      have hbytes := hfits bytes rfl
      have hnew : RawPacket.new bytes = .ok ⟨bytes, hbytes.1, hbytes.2⟩ := by
        rw [RawPacket.new, dif_neg hbytes.1, dif_pos hbytes.2]
      have hassign (slot : Option RawPacket) :
          assignPacketBytes slot bytes = .ok ⟨bytes, hbytes.1, hbytes.2⟩ := by
        unfold assignPacketBytes
        rw [Outcome.ensure_of _ hbytes]
        cases slot with
        | none => exact hnew
        | some old => exact hnew
      refine ⟨output.set sourceIndex (some ⟨bytes, hbytes.1, hbytes.2⟩), ?_, List.length_set⟩
      simp only [hassign, Outcome.ok_bind, Outcome.pure_eq]

theorem emitWaveOutputs_ok {bytes : List UInt8} {strideBytes : Nat}
    (hstride : strideBytes ≤ maxRawPacketBytes) (items : List (UInt32 × Nat)) :
    ∀ (index : Nat) (output : List (Option RawPacket)),
      (index + items.length) * strideBytes ≤ bytes.length →
      (∀ item ∈ items, item.1.toNat ≤ strideBytes ∧ item.2 < output.length) →
      ∃ output', emitWaveOutputs outputSink bytes strideBytes index items output = .ok output' ∧
        output'.length = output.length := by
  induction items with
  | nil => exact fun _ output _ _ => ⟨output, rfl, rfl⟩
  | cons item rest ih =>
      intro index output hbytes hitems
      obtain ⟨len, sourceIndex⟩ := item
      have hlen : len.toNat ≤ strideBytes := (hitems _ List.mem_cons_self).1
      have hindex : sourceIndex < output.length := (hitems _ List.mem_cons_self).2
      have hroom : (index + 1 + rest.length) * strideBytes ≤ bytes.length := by
        rw [List.length_cons] at hbytes
        rwa [show index + 1 + rest.length = index + (rest.length + 1) by omega]
      have hslot : index * strideBytes + len.toNat ≤ bytes.length := by
        have : (index + 1) * strideBytes ≤ (index + 1 + rest.length) * strideBytes :=
          Nat.mul_le_mul_right _ (by omega)
        rw [Nat.succ_mul] at this
        omega
      have later {next : List (Option RawPacket)} (hnext : next.length = output.length) :
          ∃ output', emitWaveOutputs outputSink bytes strideBytes (index + 1) rest next =
            .ok output' ∧ output'.length = output.length := by
        obtain ⟨output', hrest, hlength⟩ := ih (index + 1) next hroom (fun other hother => by
          rw [hnext]
          exact hitems other (List.mem_cons_of_mem _ hother))
        exact ⟨output', hrest, hlength.trans hnext⟩
      unfold emitWaveOutputs
      by_cases hzero : len = 0
      · obtain ⟨next, hsink, hnext⟩ := @outputSink_ok output sourceIndex hindex none (by simp)
        simp only [if_pos hzero, hsink, Outcome.ok_bind]
        exact later hnext
      · have hslice : slice bytes (index * strideBytes) len.toNat =
            .ok ((bytes.drop (index * strideBytes)).take len.toNat) := if_pos hslot
        have hpositive : 0 < len.toNat := by
          rw [Nat.pos_iff_ne_zero]
          exact fun h => hzero (UInt32.toNat_inj.mp h)
        have hlength : ((bytes.drop (index * strideBytes)).take len.toNat).length = len.toNat := by
          rw [List.length_take, List.length_drop]
          omega
        obtain ⟨next, hsink, hnext⟩ := @outputSink_ok output sourceIndex hindex
          (some ((bytes.drop (index * strideBytes)).take len.toNat)) (by
            intro packet hpacket
            cases hpacket
            refine ⟨?_, by omega⟩
            intro hnil
            rw [hnil] at hlength
            simp only [List.length_nil] at hlength
            omega)
        simp only [if_neg hzero, Outcome.ensure_of _ hlen, hslice, hsink, Outcome.ok_bind]
        exact later hnext

theorem gather_ok (packets : List RawPacket) (wave : List Nat)
    (hwave : ∀ i ∈ wave, i < packets.length) :
    ∃ wavePackets, gather packets wave = .ok wavePackets := by
  induction wave with
  | nil => exact ⟨[], rfl⟩
  | cons i rest ih =>
      obtain ⟨others, hothers⟩ := ih (fun j hj => hwave j (List.mem_cons_of_mem _ hj))
      have hi := hwave i List.mem_cons_self
      refine ⟨packets[i] :: others, ?_⟩
      rw [gather, List.getElem?_eq_getElem hi, hothers]
      rfl

/-- A dispatch on such a device succeeds. -/
theorem dispatchWave_ok {device : Device δ stride} (hdevice : device.Succeeds)
    (hstride : stride * 4 ≤ maxRawPacketBytes) (packets : List RawPacket) (wave : List Nat)
    (hwave : ∀ i ∈ wave, i < packets.length) (d : δ) (output : List (Option RawPacket))
    (houtput : output.length = packets.length) :
    ∃ d' output', dispatchWave device outputSink packets wave (d, output) = .ok (d', output') ∧
      output'.length = packets.length := by
  unfold dispatchWave
  by_cases hempty : wave = []
  · rw [if_pos hempty]
    exact ⟨d, output, rfl, houtput⟩
  obtain ⟨wavePackets, hgather⟩ := gather_ok packets wave hwave
  obtain ⟨d', readback, hrun, hfits⟩ := hdevice d wavePackets
  have hcount : readback.metadata.length = wave.length :=
    readback.metadata_length.trans (gather_length packets wave hgather)
  have hroom : (0 + (readback.metadata.zip wave).length) * (stride * 4) ≤
      (toBytes readback.words).length := by
    rw [toBytes_length, readback.words_length, List.length_zip, hcount, Nat.min_self,
      Nat.zero_add, gather_length packets wave hgather, ← Nat.mul_assoc, Nat.mul_comm 4]
  have hitems : ∀ item ∈ readback.metadata.zip wave,
      item.1.toNat ≤ stride * 4 ∧ item.2 < output.length := by
    intro item hitem
    have hmem := List.of_mem_zip hitem
    exact ⟨hfits _ hmem.1, houtput ▸ hwave _ hmem.2⟩
  obtain ⟨output', hemit, hlength⟩ := emitWaveOutputs_ok hstride _ 0 output hroom hitems
  refine ⟨d', output', ?_, hlength.trans houtput⟩
  simp only [if_neg hempty, hgather, hrun, hemit, Outcome.ok_bind, Outcome.pure_eq]

theorem runWaves_ok {device : Device δ stride} (hdevice : device.Succeeds)
    (hstride : stride * 4 ≤ maxRawPacketBytes) (packets : List RawPacket)
    (log : List (List Nat)) : ∀ (d : δ) (output : List (Option RawPacket)),
    (∀ wave ∈ log, ∀ i ∈ wave, i < packets.length) → output.length = packets.length →
      ∃ result, runWaves (dispatchWave device outputSink packets) log (d, output) =
        .ok result := by
  induction log with
  | nil => exact fun d output _ _ => ⟨(d, output), rfl⟩
  | cons wave rest ih =>
      intro d output hlog houtput
      obtain ⟨d', output', hwave, hlength⟩ := dispatchWave_ok hdevice hstride packets wave
        (hlog wave List.mem_cons_self) d output houtput
      obtain ⟨result, hresult⟩ := ih d' output'
        (fun other hother => hlog other (List.mem_cons_of_mem _ hother)) hlength
      refine ⟨result, ?_⟩
      rw [runWaves, hwave]
      exact hresult

end Succeeds

/-- Two packets of a wave are for different flows, as the parser sees them. -/
def DistinctFlows (packets : List RawPacket) (wave : List Nat) : Prop :=
  wave.Pairwise fun i j => ∀ key, packets[i]?.bind packetKey = some key →
    packets[j]?.bind packetKey ≠ some key

/-- A key that the parser reports is the scheduling key. -/
theorem keyAt_of_packetKey {packets : List RawPacket} {i : Nat} {key : FlowKey}
    (h : packets[i]?.bind packetKey = some key) : keyAt packets i = some key := by
  obtain ⟨packet, hpacket, hkey⟩ := Option.bind_eq_some_iff.mp h
  obtain ⟨view, hview, rfl⟩ := Option.map_eq_some_iff.mp hkey
  rw [keyAt, hpacket]
  exact schedulingKey_of_parsed hview

/-- What every admission keeps of a wave. -/
structure GoodWave (packets : List RawPacket) (limits : Nat × Nat) (wave : List Nat) : Prop where
  length_le : wave.length ≤ limits.1
  words_le : waveWords packets wave ≤ limits.2
  distinct : DistinctFlows packets wave

theorem GoodWave.append {packets : List RawPacket} {limits : Nat × Nat} (wave : List Nat)
    (i : Nat) (h : GoodWave packets limits wave) (hadmits : Admits packets limits wave i) :
    GoodWave packets limits (wave ++ [i]) where
  length_le := by
    rw [List.length_append]
    exact Nat.lt_of_le_of_ne h.length_le hadmits.1.1
  words_le := by
    rw [waveWords_append]
    exact hadmits.1.2
  distinct := by
    refine List.pairwise_append.mpr ⟨h.distinct, List.pairwise_singleton _ _, ?_⟩
    intro j hj k hk key hkey hsame
    rw [List.mem_singleton] at hk
    subst hk
    exact hadmits.2 key (keyAt_of_packetKey hsame)
      (mem_waveKeys.mpr ⟨j, hj, keyAt_of_packetKey hkey⟩)

/-- **The wave schedule.**  Whatever earlier batches left in the scratch, the
loop of `process_batch_to` ends having placed every packet in exactly one wave;
no wave is empty, none exceeds a limit, none holds two packets of one flow.  When
the dispatches succeed, `process_batch_into` succeeds and leaves in output `i` what
the device returned for packet `i`, whatever the output vector held. -/
theorem wave_schedule (packets : List RawPacket) (limits : Nat × Nat)
    (scratch : PacketScratch) (hreach : scratch.seen.Reachable) (hbatch : 1 ≤ limits.1)
    (hwords : 384 ≤ limits.2) :
    ∃ log, Dispatches packets limits scratch log ∧
      log.flatten.Perm (List.range packets.length) ∧
      (∀ wave ∈ log, wave ≠ [] ∧ wave.length ≤ limits.1 ∧ waveWords packets wave ≤ limits.2 ∧
        DistinctFlows packets wave) ∧
      ∀ (δ : Type) (stride : Nat) (device : Device δ stride) (d : δ)
        (output : List (Option RawPacket)),
        (device.Succeeds → stride * 4 ≤ maxRawPacketBytes →
          ∃ result, gpuProcessBatchInto device packets limits scratch d output = .ok result) ∧
        ∀ (scratch' : PacketScratch) (d' : δ) (output' : List (Option RawPacket)),
        gpuProcessBatchInto device packets limits scratch d output = .ok (scratch', d', output') →
          scratch'.seen.Reachable ∧ output'.length = packets.length ∧
          ∃ deliveries : List Delivery,
            processBatchTo (dispatchWave device recordSink packets) packets limits
              packets.length scratch (d, []) = .ok (scratch', d', deliveries) ∧
            deliveries.map Prod.fst = log.flatten ∧
            ∀ delivery ∈ deliveries, ∃ slot : Option RawPacket,
              output'[delivery.1]? = some slot ∧ slot.map RawPacket.bytes = delivery.2 := by
  have hfirst : ∀ i, Admits packets limits [] i := admits_nil hbatch hwords
  have hperm : (waves packets limits).flatten.Perm (List.range packets.length) :=
    rounds_perm _ hfirst _ _ (by simp)
  refine ⟨waves packets limits, (dispatches_waves hbatch hwords hreach _).mpr rfl, hperm, ?_, ?_⟩
  · intro wave hwave
    obtain ⟨hne, hgood⟩ := rounds_held (Admits packets limits) hfirst
      (GoodWave packets limits) ⟨Nat.zero_le _, Nat.zero_le _, List.Pairwise.nil⟩
      GoodWave.append _ _ wave hwave
    exact ⟨hne, hgood.length_le, hgood.words_le, hgood.distinct⟩
  · intro δ stride device d output
    obtain ⟨after, hafter, hrun⟩ := processBatchTo_eq packets hbatch hwords hreach
    have hstart : (output.take packets.length ++
        List.replicate (packets.length - (output.take packets.length).length) none).length =
          packets.length := by
      rw [List.length_append, List.length_replicate, List.length_take]
      omega
    constructor
    · intro hdevice hstride
      obtain ⟨result, hresult⟩ := runWaves_ok hdevice hstride packets (waves packets limits) d _
        (fun wave hwave i hi => List.mem_range.mp
          (hperm.subset (List.mem_flatten.mpr ⟨wave, hwave, hi⟩))) hstart
      refine ⟨(after, result), ?_⟩
      unfold gpuProcessBatchInto
      simp only
      rw [hrun, hresult]
      rfl
    intro scratch' d' output' h
    unfold gpuProcessBatchInto at h
    simp only at h
    rw [hrun] at h
    obtain ⟨⟨last, result⟩, hwaves, h⟩ := Outcome.bind_eq_ok.mp h
    cases h
    obtain ⟨deliveries, hmap, hdeliver, hrecord⟩ := runWaves_deliveries device packets _ hwaves
    have hnodup : (deliveries.map Prod.fst).Nodup := by
      rw [hmap]
      exact hperm.nodup_iff.mpr List.nodup_range
    obtain ⟨hlength, -, hslots⟩ := deliver_outputSink deliveries hnodup hdeliver
    refine ⟨hafter, ?_, deliveries, ?_, hmap, hslots⟩
    · rw [hlength, hstart]
    · rw [hrun, hrecord]
      rfl

theorem wave_schedule_overtakenBatch :
    ∃ log, Dispatches overtakenBatch (3, 384) ⟨[], [], [], [], FlowSet.default⟩ log ∧
      log.flatten.Perm (List.range overtakenBatch.length) := by
  obtain ⟨log, hlog, hperm, -, -⟩ := wave_schedule overtakenBatch (3, 384)
    ⟨[], [], [], [], FlowSet.default⟩ FlowSet.Reachable.default (by decide) (by decide)
  exact ⟨log, hlog, hperm⟩

end Packet
end Gput
