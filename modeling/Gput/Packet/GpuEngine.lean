import Gput.Library.WordMemory
import Gput.Packet.WaveLayout

/-!
# The GPU engine and its device

`GpuPacketEngine` with everything it keeps between dispatches: the input buffers,
in which an upload leaves what lies behind it, the output buffer, the flow table
and the counters.  `dispatchWave_device` says what one dispatch does: the
invocations take the packets of the wave one at a time, in the order the device
runs them, and the sink is handed what they emit in the order of the wave.
-/

namespace Gput
namespace Packet
namespace Shader

open LittleEndian
open WordMemory (transfer transfer_of_le upload stores_upload)

/-- The limits of the adapter.  A storage binding holds a packet, and the shader
can address all of it. -/
structure AdapterLimits where
  maxStorageBindingBytes : Nat
  maxBufferBytes : Nat
  holds_packet : maxRawPacketBytes ≤ maxStorageBindingBytes
  addressable : maxStorageBindingBytes ≤ 2 ^ 32

/-- A product of sizes, as `checked_mul` has it. -/
def checkedMul (left right : Nat) (message : String) : Outcome Nat := do
  Outcome.ensure (left * right < 2 ^ 64) message
  return left * right

def inputPacketWords : Nat := (maxRawPacketBytes + 3) / 4
def flowWords : Nat := 16

/-- The fields of a `GpuPacketEngine` its host code reads, and the sizes of its
buffers. -/
structure GpuPacketEngine where
  config : PacketEngineConfig
  inputWordCapacity : Nat
  inputMetaBytes : Nat
  inputWordsBytes : Nat
  outputBytes : Nat
deriving DecidableEq, Repr

/-- `GpuPacketEngine::new`, as far as it computes and checks sizes. -/
def GpuPacketEngine.new (config : PacketEngineConfig) (limits : AdapterLimits) :
    Outcome GpuPacketEngine := do
  validateConfig config
  let inputMetaBytes ← checkedMul config.maxBatchSize 8
    "packet input metadata buffer size overflow"
  let outputMetaBytes ← checkedMul config.maxBatchSize 4
    "packet output metadata buffer size overflow"
  let requestedInputWords ← checkedMul config.maxBatchSize inputPacketWords
    "packet input buffer size overflow"
  let requestedInputWordsBytes ← checkedMul requestedInputWords 4
    "packet input buffer size overflow"
  let inputWordsBytes := min requestedInputWordsBytes limits.maxStorageBindingBytes
  let outputWords ← checkedMul config.maxBatchSize outputStrideWords
    "packet output buffer size overflow"
  let outputWordsBytes ← checkedMul outputWords 4 "packet output buffer size overflow"
  let outputBytes := outputMetaBytes + outputWordsBytes
  Outcome.ensure (outputBytes < 2 ^ 64) "combined packet output size overflow"
  let flowWordCount ← checkedMul config.flowCapacity flowWords "flow word count overflow"
  let flowBytes ← checkedMul flowWordCount 4 "flow buffer size overflow"
  Outcome.ensure (inputMetaBytes ≤ limits.maxStorageBindingBytes)
    (s!"packet input metadata needs {inputMetaBytes} bytes, above the adapter binding limit of " ++
      s!"{limits.maxStorageBindingBytes}")
  Outcome.ensure (outputBytes ≤ limits.maxStorageBindingBytes)
    (s!"packet output needs {outputBytes} bytes, above the adapter binding limit of " ++
      s!"{limits.maxStorageBindingBytes}")
  Outcome.ensure (flowBytes ≤ limits.maxStorageBindingBytes)
    (s!"flow state needs {flowBytes} bytes, above the adapter binding limit of " ++
      s!"{limits.maxStorageBindingBytes}")
  Outcome.ensure (outputBytes ≤ limits.maxBufferBytes)
    (s!"packet readback needs {outputBytes} bytes, above the adapter buffer limit of " ++
      s!"{limits.maxBufferBytes}")
  return {
    config := config
    inputWordCapacity := inputWordsBytes / 4
    inputMetaBytes := inputMetaBytes
    inputWordsBytes := inputWordsBytes
    outputBytes := outputBytes }

/-- The limits `fill_initial_wave` and `fill_next_wave` are called with. -/
def GpuPacketEngine.waveLimits (engine : GpuPacketEngine) : Nat × Nat :=
  (engine.config.maxBatchSize, engine.inputWordCapacity)

/-- What `new` has checked of an engine. -/
structure GpuPacketEngine.Built (engine : GpuPacketEngine) : Prop where
  valid : ValidConfig engine.config
  inputMeta : engine.inputMetaBytes = engine.config.maxBatchSize * 8
  inputWords : engine.inputWordCapacity * 4 ≤ engine.inputWordsBytes
  inputWords_le : engine.inputWordsBytes ≤ 2 ^ 32
  output : engine.outputBytes = engine.config.maxBatchSize * 4 +
    engine.config.maxBatchSize * outputStrideWords * 4
  output_le : engine.outputBytes ≤ 2 ^ 32
  packet : inputPacketWords ≤ engine.inputWordCapacity

theorem checkedMul_eq_ok {left right result : Nat} {message : String}
    (h : checkedMul left right message = .ok result) : result = left * right := by
  obtain ⟨_, -, h⟩ := Outcome.bind_eq_ok.mp h
  exact (Outcome.ok.inj h).symm

theorem GpuPacketEngine.built_of_new {config : PacketEngineConfig} {limits : AdapterLimits}
    {engine : GpuPacketEngine} (h : GpuPacketEngine.new config limits = .ok engine) :
    engine.Built ∧ engine.config = config := by
  obtain ⟨_, hvalid, h⟩ := Outcome.bind_eq_ok.mp h
  obtain ⟨inputMetaBytes, hmeta, h⟩ := Outcome.bind_eq_ok.mp h
  obtain ⟨outputMetaBytes, houtputMeta, h⟩ := Outcome.bind_eq_ok.mp h
  obtain ⟨requestedWords, hrequested, h⟩ := Outcome.bind_eq_ok.mp h
  obtain ⟨requestedBytes, hbytes, h⟩ := Outcome.bind_eq_ok.mp h
  obtain ⟨outputWords, houtput, h⟩ := Outcome.bind_eq_ok.mp h
  obtain ⟨outputWordsBytes, houtputBytes, h⟩ := Outcome.bind_eq_ok.mp h
  obtain ⟨_, -, h⟩ := Outcome.bind_eq_ok.mp h
  obtain ⟨flowWordCount, -, h⟩ := Outcome.bind_eq_ok.mp h
  obtain ⟨flowBytes, -, h⟩ := Outcome.bind_eq_ok.mp h
  obtain ⟨_, -, h⟩ := Outcome.bind_eq_ok.mp h
  obtain ⟨_, hfits, h⟩ := Outcome.bind_eq_ok.mp h
  obtain ⟨_, -, h⟩ := Outcome.bind_eq_ok.mp h
  obtain ⟨_, -, h⟩ := Outcome.bind_eq_ok.mp h
  cases h
  have valid := validateConfig_eq_ok.mp hvalid
  have hfits := Outcome.ensure_eq_ok.mp hfits
  have hwords : inputPacketWords = 384 := rfl
  have hbatch := valid.batch_pos
  have hpacket := limits.holds_packet
  have haddressable := limits.addressable
  have hmeta := checkedMul_eq_ok hmeta
  have houtputMeta := checkedMul_eq_ok houtputMeta
  have hrequested := checkedMul_eq_ok hrequested
  have hbytes := checkedMul_eq_ok hbytes
  have houtput := checkedMul_eq_ok houtput
  have houtputBytes := checkedMul_eq_ok houtputBytes
  refine ⟨⟨valid, hmeta, Nat.div_mul_le_self _ 4, ?_, ?_, hfits.trans haddressable, ?_⟩, rfl⟩
  · exact (Nat.min_le_right _ _).trans haddressable
  · rw [houtputBytes, houtput, houtputMeta]
  · show inputPacketWords ≤ min requestedBytes limits.maxStorageBindingBytes / 4
    unfold maxRawPacketBytes at hpacket
    rw [hwords] at hrequested ⊢
    omega

theorem GpuPacketEngine.Built.batch_pos {engine : GpuPacketEngine} (h : engine.Built) :
    1 ≤ engine.waveLimits.1 := h.valid.batch_pos

theorem GpuPacketEngine.Built.words_large {engine : GpuPacketEngine} (h : engine.Built) :
    384 ≤ engine.waveLimits.2 := h.packet

/-- What the engine keeps between dispatches.  `launches` is no field of the source:
it tells the dispatches of the device apart, as the counters wrap around. -/
structure EngineMemory where
  inputMeta : UInt32 → PacketMeta
  inputWords : Words
  storage : Storage
  dispatches : UInt64
  packets : UInt64
  launches : Nat

/-- An upload of bytes that are read as words. -/
def uploadWords (bytes : List UInt8) (buffer : Words) : Words :=
  fun i => if 4 * i.toNat < bytes.length then wordsOf bytes i else buffer i

def workgroupSize : Nat := 128

/-- The invocations of a dispatch, whole workgroups of them. -/
def invocationCount (packetCount : Nat) : Nat :=
  (packetCount + (workgroupSize - 1)) / workgroupSize * workgroupSize

/-- The order in which a device takes the invocations of a dispatch, given how many
dispatches came before and how many packets it has. -/
abbrev Schedule : Type := Nat → Nat → List Nat

/-- Every dispatch takes each of its invocations once. -/
def Schedule.Complete (schedule : Schedule) : Prop :=
  ∀ launches packetCount,
    (schedule launches packetCount).Perm (List.range (invocationCount packetCount))

/-- The invocations of a dispatch, taken whole and one at a time; no compare-exchange of
theirs fails on an unchanged slot (`compareExchangeState`).  WGSL promises neither: what
rests on this holds of a device that takes invocations so, in any order. -/
def runInvocations (params : EngineParams) (inputMeta : UInt32 → PacketMeta) (inputWords : Words)
    (order : List Nat) (storage : Storage) : Storage :=
  order.foldl (fun storage position =>
    main params inputMeta inputWords (UInt32.ofNat position) storage) storage

/-- The part of `dispatch_wave` between the scheduler and `emit_wave_outputs`. -/
def device (engine : GpuPacketEngine) (schedule : Schedule) :
    Device EngineMemory outputStrideWords := fun memory wave => do
  let packetCount := wave.length
  let (metadata, inputWordCount) ← prepareWaveMetadata 0 wave
  transfer (metadata.length * 8) engine.inputMetaBytes
  let inputWordBytes ← checkedMul inputWordCount 4 "packet input upload size overflow"
  Outcome.ensure (inputWordBytes ≠ 0) "packet input upload must not be empty"
  transfer inputWordBytes engine.inputWordsBytes
  let packed ← packWaveBytes (List.replicate inputWordBytes 0) wave metadata
  let inputMeta := upload metadata memory.inputMeta
  let inputWords := uploadWords packed memory.inputWords
  let storage := runInvocations (engineParams engine.config packetCount) inputMeta inputWords
    (schedule memory.launches packetCount) memory.storage
  transfer (packetCount * 4 + packetCount * outputStrideWords * 4) engine.outputBytes
  return ({
    inputMeta := inputMeta
    inputWords := inputWords
    storage := storage
    dispatches := memory.dispatches + 1
    packets := memory.packets + UInt64.ofNat packetCount
    launches := memory.launches + 1 },
    readbackOf storage.outputData packetCount outputStrideWords)

/-- Invocations of `main` that take packets one at a time, each from buffers that
present its packet: the packets with what the host reads back for them. -/
inductive Invoked (config : PacketEngineConfig) :
    Flows → List (RawPacket × Option (List UInt8)) → Flows → Prop
  | nil (flows : Flows) : Invoked config flows [] flows
  | cons {flows flows' : Flows} {packet : RawPacket}
      {items : List (RawPacket × Option (List UInt8))} {count : Nat}
      {inputMeta : UInt32 → PacketMeta} {inputWords : Words} {packetIndex : UInt32}
      (output : Words)
      (presented : Presented (engineParams config count) inputMeta inputWords packetIndex packet)
      (fits : SlotFits (engineParams config count) packetIndex)
      (rest : Invoked config
        (main (engineParams config count) inputMeta inputWords packetIndex
          ⟨output, flows⟩).flows items flows') :
      Invoked config flows
        ((packet, emitted (engineParams config count)
          (main (engineParams config count) inputMeta inputWords packetIndex
            ⟨output, flows⟩).outputData packetIndex) :: items) flows'

theorem Invoked.append {config : PacketEngineConfig} {flows middle flows' : Flows}
    {first second : List (RawPacket × Option (List UInt8))}
    (hfirst : Invoked config flows first middle) (hsecond : Invoked config middle second flows') :
    Invoked config flows (first ++ second) flows' := by
  induction hfirst with
  | nil flows => exact hsecond
  | cons output presented fits _ ih => exact .cons output presented fits (ih hsecond)

section Dispatching

variable {wave : List RawPacket} {metadata : List PacketMeta} {packed : List UInt8} {total : Nat}

/-- The uploads of a wave present its packets, whatever the buffers held before. -/
theorem presented_upload (config : PacketEngineConfig)
    (hprepared : prepareWaveMetadata 0 wave = .ok (metadata, total))
    (hpacked : packWaveBytes (List.replicate (total * 4) 0) wave metadata = .ok packed)
    (htotal : total ≤ 2 ^ 32) (houtput : wave.length * (1 + outputStrideWords) ≤ 2 ^ 32)
    {position : Nat} {packet : RawPacket} (hpacket : wave[position]? = some packet)
    (inputMeta : UInt32 → PacketMeta) (inputWords : Words) :
    Presented (engineParams config wave.length) (upload metadata inputMeta)
      (uploadWords packed inputWords) (UInt32.ofNat position) packet := by
  have hposition : position < wave.length := (List.getElem?_eq_some_iff.mp hpacket).1
  rw [outputStrideWords_eq] at houtput
  have hindex : (UInt32.ofNat position).toNat = position := by
    rw [UInt32.toNat_ofNat', Nat.mod_eq_of_lt (by omega)]
  obtain ⟨packed', hpacked', hlength, -, hholds⟩ :=
    packWaveBytes_spec (List.replicate (total * 4) 0) hprepared (by
      rw [List.length_replicate, Nat.mul_comm])
  obtain rfl := Outcome.ok.inj (hpacked.symm.trans hpacked')
  obtain ⟨slot, hslot, hat⟩ := hholds position packet hpacket
  have hmeta : upload metadata inputMeta (UInt32.ofNat position) = slot :=
    stores_upload metadata inputMeta _ _ (by rw [hindex]; exact hslot)
  refine ⟨?_, by rw [hmeta]; exact hat.len, ?_⟩
  · rw [UInt32.lt_iff_toNat_lt, hindex]
    show position < (UInt32.ofNat wave.length).toNat
    rw [UInt32.toNat_ofNat', Nat.mod_eq_of_lt (by omega)]
    exact hposition
  · rw [hmeta]
    intro k r hr hk
    have hinside := hat.inside
    have hword : (slot.wordOffset + UInt32.ofNat k).toNat = slot.wordOffset.toNat + k := by
      have := slot.wordOffset.toNat_lt
      rw [UInt32.toNat_add, UInt32.toNat_ofNat']
      omega
    rw [uploadWords, if_pos (by rw [hword, hlength, List.length_replicate]; omega)]
    exact hat.holds htotal k r hr hk

variable {config : PacketEngineConfig} {count : Nat} {inputMeta : UInt32 → PacketMeta}
  {inputWords : Words}

/-- The packets at some positions of a wave, with what is emitted for them. -/
def itemsAt (wave : List RawPacket) (emissions : Nat → Option Emission) (order : List Nat) :
    List (RawPacket × Option (List UInt8)) :=
  order.filterMap fun position =>
    wave[position]?.map fun packet => (packet, (emissions position).map Emission.bytes)

/-- The invocations of a dispatch take the packets of its wave one at a time, and
each writes what it emits. -/
theorem runInvocations_invoked (houtput : wave.length * (1 + outputStrideWords) ≤ 2 ^ 32)
    (hpresented : ∀ position packet, wave[position]? = some packet →
      Presented (engineParams config wave.length) inputMeta inputWords (UInt32.ofNat position)
        packet)
    {order : List Nat} (hnodup : order.Nodup) (hinside : ∀ i ∈ order, i < wave.length)
    (storage : Storage) :
    ∃ emissions,
      (runInvocations (engineParams config wave.length) inputMeta inputWords order
          storage).outputData =
        dispatchOutput (engineParams config wave.length) emissions order storage.outputData ∧
      Invoked config storage.flows (itemsAt wave emissions order)
        (runInvocations (engineParams config wave.length) inputMeta inputWords order
          storage).flows := by
  induction order generalizing storage with
  | nil => exact ⟨fun _ => none, rfl, .nil _⟩
  | cons position order ih =>
      obtain ⟨hnew, hnodup⟩ := List.nodup_cons.mp hnodup
      obtain ⟨hposition, hinside⟩ := List.forall_mem_cons.mp hinside
      have hpacket := List.getElem?_eq_getElem hposition
      have hpresent := hpresented position _ hpacket
      have hfits := slotFits_engineParams config houtput hposition
      obtain ⟨emission, hfirst⟩ := main_written hpresent.index_lt inputMeta inputWords storage
      obtain ⟨emissions, hrest, hinvoked⟩ := ih hnodup hinside
        (main (engineParams config wave.length) inputMeta inputWords (UInt32.ofNat position)
          storage)
      have hother : ∀ other ∈ order, Function.update emissions position emission other =
          emissions other := by
        intro other hmem
        refine Function.update_of_ne ?_ _ _
        rintro rfl
        exact hnew hmem
      refine ⟨Function.update emissions position emission, ?_, ?_⟩
      · rw [runInvocations, List.foldl_cons]
        refine hrest.trans ?_
        rw [hfirst, dispatchOutput, dispatchOutput, List.foldl_cons, Function.update_self]
        refine List.foldl_ext _ _ _ fun output other hmem => ?_
        rw [hother other hmem]
      · have hitems : itemsAt wave (Function.update emissions position emission) order =
            itemsAt wave emissions order := by
          refine List.filterMap_congr fun other hmem => ?_
          rw [hother other hmem]
        rw [itemsAt, List.filterMap_cons, hpacket]
        simp only [Option.map_some, Function.update_self]
        rw [← itemsAt, hitems, ← emitted_invocationOutput hfits emission storage.outputData,
          ← hfirst]
        exact .cons storage.outputData hpresent hfits hinvoked

theorem main_of_not_lt {params : EngineParams} {packetIndex : UInt32}
    (h : packetIndex ≥ params.packetCount) (inputMeta : UInt32 → PacketMeta) (inputWords : Words)
    (storage : Storage) : main params inputMeta inputWords packetIndex storage = storage :=
  if_pos h

/-- The invocations behind the packets of a wave do nothing. -/
theorem runInvocations_filter {order : List Nat} (hcount : count < 2 ^ 32)
    (horder : ∀ i ∈ order, i < 2 ^ 32) (storage : Storage) :
    runInvocations (engineParams config count) inputMeta inputWords order storage =
      runInvocations (engineParams config count) inputMeta inputWords
        (order.filter fun i => i < count) storage := by
  rw [runInvocations, runInvocations, List.foldl_filter]
  refine List.foldl_ext _ _ _ fun storage position hmem => ?_
  by_cases hlt : position < count
  · rw [if_pos (by simpa using hlt)]
  · rw [if_neg (by simpa using hlt)]
    refine main_of_not_lt ?_ _ _ _
    rw [ge_iff_le, UInt32.le_iff_toNat_le]
    show (UInt32.ofNat count).toNat ≤ (UInt32.ofNat position).toNat
    rw [UInt32.toNat_ofNat', UInt32.toNat_ofNat', Nat.mod_eq_of_lt hcount,
      Nat.mod_eq_of_lt (horder position hmem)]
    omega

theorem le_invocationCount (packetCount : Nat) : packetCount ≤ invocationCount packetCount := by
  unfold invocationCount workgroupSize
  omega

/-- A complete schedule runs the invocations of the packets in some order. -/
theorem Schedule.Complete.filter_perm {schedule : Schedule} (h : schedule.Complete)
    (launches packetCount : Nat) :
    ((schedule launches packetCount).filter fun i => i < packetCount).Perm
      (List.range packetCount) := by
  refine ((h launches packetCount).filter _).trans ?_
  obtain ⟨more, hmore⟩ := Nat.exists_eq_add_of_le (le_invocationCount packetCount)
  rw [hmore, List.range_add, List.filter_append, List.filter_eq_self.mpr, List.filter_eq_nil_iff.mpr,
    List.append_nil]
  · intro i hi
    obtain ⟨k, -, rfl⟩ := List.mem_map.mp hi
    simp
  · intro i hi
    simpa using hi

end Dispatching

section Device

variable {engine : GpuPacketEngine} {schedule : Schedule}

/-- The bytes a wave within the limits moves fit the buffers. -/
theorem GpuPacketEngine.Built.fits (h : engine.Built) {wave : List RawPacket}
    (hlength : wave.length ≤ engine.waveLimits.1)
    (hwords : (wave.map packetWords).sum ≤ engine.waveLimits.2) :
    wave.length * 8 ≤ engine.inputMetaBytes ∧
      (wave.map packetWords).sum * 4 ≤ engine.inputWordsBytes ∧
      (wave.map packetWords).sum * 4 ≤ 2 ^ 32 ∧
      wave.length * 4 + wave.length * outputStrideWords * 4 ≤ engine.outputBytes ∧
      wave.length * (1 + outputStrideWords) * 4 ≤ 2 ^ 32 := by
  have hmeta := h.inputMeta
  have hcapacity := h.inputWords
  have hwordsFit := h.inputWords_le
  have houtput := h.output
  have houtputFit := h.output_le
  rw [outputStrideWords_eq] at houtput ⊢
  have hlength : wave.length ≤ engine.config.maxBatchSize := hlength
  have hwords : (wave.map packetWords).sum ≤ engine.inputWordCapacity := hwords
  omega

/-- A dispatch of a wave within the limits succeeds.  The device runs its
invocations one at a time; what is read back is what they emit. -/
theorem device_spec (built : engine.Built) (complete : schedule.Complete)
    {wave : List RawPacket} (hne : wave ≠ []) (hlength : wave.length ≤ engine.waveLimits.1)
    (hwords : (wave.map packetWords).sum ≤ engine.waveLimits.2) (memory : EngineMemory) :
    ∃ memory' order emissions,
      device engine schedule memory wave =
        .ok (memory', readbackOf (dispatchOutput (engineParams engine.config wave.length) emissions
          order memory.storage.outputData) wave.length outputStrideWords) ∧
      order.Perm (List.range wave.length) ∧
      Invoked engine.config memory.storage.flows (itemsAt wave emissions order)
        memory'.storage.flows ∧
      memory'.dispatches = memory.dispatches + 1 ∧
      memory'.packets = memory.packets + UInt64.ofNat wave.length := by
  obtain ⟨hmeta, hinput, hsum, houtput, hslots⟩ := built.fits hlength hwords
  obtain ⟨metadata, hprepared⟩ := prepareWaveMetadata_ok wave 0 (by omega)
  rw [Nat.zero_add] at hprepared
  obtain ⟨packed, hpacked, -⟩ :=
    packWaveBytes_spec (List.replicate ((wave.map packetWords).sum * 4) 0) hprepared (by
      rw [List.length_replicate, Nat.mul_comm])
  have hcount := (prepareWaveMetadata_ordered hprepared).1
  have hpositive : (wave.map packetWords).sum * 4 ≠ 0 := by
    obtain ⟨packet, rest, rfl⟩ := List.exists_cons_of_ne_nil hne
    have hsize := List.length_pos_iff.mpr packet.nonempty
    rw [List.map_cons, List.sum_cons, packetWords]
    omega
  have hwave : wave.length < 2 ^ 32 := by
    rw [outputStrideWords_eq] at hslots
    omega
  have hinvocations : invocationCount wave.length ≤ 2 ^ 32 := by
    rw [outputStrideWords_eq] at hslots
    unfold invocationCount workgroupSize
    omega
  have horder := complete.filter_perm memory.launches wave.length
  obtain ⟨emissions, hwritten, hinvoked⟩ := @runInvocations_invoked wave engine.config
    (upload metadata memory.inputMeta) (uploadWords packed memory.inputWords) (by omega)
    (fun position packet hpacket => presented_upload engine.config hprepared hpacked (by omega)
      (by omega) hpacket _ _)
    ((schedule memory.launches wave.length).filter fun i => i < wave.length)
    (horder.nodup_iff.mpr List.nodup_range)
    (fun i hi => List.mem_range.mp (horder.subset hi)) memory.storage
  rw [← runInvocations_filter hwave (fun i hi => by
    have := List.mem_range.mp ((complete memory.launches wave.length).subset hi)
    omega) memory.storage] at hwritten hinvoked
  refine ⟨{
      inputMeta := upload metadata memory.inputMeta
      inputWords := uploadWords packed memory.inputWords
      storage := runInvocations (engineParams engine.config wave.length)
        (upload metadata memory.inputMeta) (uploadWords packed memory.inputWords)
        (schedule memory.launches wave.length) memory.storage
      dispatches := memory.dispatches + 1
      packets := memory.packets + UInt64.ofNat wave.length
      launches := memory.launches + 1 }, _, emissions, ?_, horder, hinvoked, rfl, rfl⟩
  unfold device
  simp only [hprepared, Outcome.ok_bind, hcount, transfer_of_le hmeta, checkedMul,
    Outcome.ensure_of _ (show (wave.map packetWords).sum * 4 < 2 ^ 64 by omega), Outcome.pure_eq,
    Outcome.ensure_of _ hpositive, transfer_of_le hinput, hpacked, transfer_of_le houtput,
    hwritten]

/-- What the sink is handed for a wave, in the order the device made it. -/
def served (packets : List RawPacket) (trace : List Delivery) :
    List (RawPacket × Option (List UInt8)) :=
  trace.filterMap fun delivery => packets[delivery.1]?.map fun packet => (packet, delivery.2)

theorem served_append (packets : List RawPacket) (first second : List Delivery) :
    served packets (first ++ second) = served packets first ++ served packets second :=
  List.filterMap_append

/-- What is emitted for the positions of a wave, in some order. -/
def deliveriesAt (wave : List Nat) (emissions : Nat → Option Emission) (order : List Nat) :
    List Delivery :=
  order.filterMap fun position =>
    wave[position]?.map fun source => (source, (emissions position).map Emission.bytes)

theorem filterMap_getElem?_range {α : Type} (items : List α) :
    ((List.range items.length).filterMap fun i => items[i]?) = items := by
  induction items with
  | nil => rfl
  | cons item items ih =>
      rw [List.length_cons, List.range_succ_eq_map, List.filterMap_cons, List.getElem?_cons_zero,
        List.filterMap_map]
      exact congrArg (item :: ·) ih

theorem deliveriesAt_range (wave : List Nat) (emissions : Nat → Option Emission) :
    deliveriesAt wave emissions (List.range wave.length) =
      wave.mapIdx fun position source => (source, (emissions position).map Emission.bytes) := by
  have hsome : deliveriesAt wave emissions (List.range wave.length) =
      (List.range wave.length).filterMap fun position =>
        (wave.mapIdx fun position source =>
          (source, (emissions position).map Emission.bytes))[position]? := by
    refine List.filterMap_congr fun position _ => ?_
    rw [List.getElem?_mapIdx]
  have hitems := filterMap_getElem?_range
    (wave.mapIdx fun position source => (source, (emissions position).map Emission.bytes))
  rwa [List.length_mapIdx, ← hsome] at hitems

/-- The packets of a wave by position are those of the batch by index. -/
theorem itemsAt_gather {packets wavePackets : List RawPacket} {wave : List Nat}
    (hat : ∀ position, wavePackets[position]? = packetAt packets wave position)
    (emissions : Nat → Option Emission) (order : List Nat) :
    itemsAt wavePackets emissions order = served packets (deliveriesAt wave emissions order) := by
  rw [served, deliveriesAt, List.filterMap_filterMap]
  refine List.filterMap_congr fun position _ => ?_
  rw [hat position, packetAt]
  cases wave[position]? with
  | none => rfl
  | some source =>
      simp only [Option.bind_some, Option.map_some]

/-- **One dispatch.**  Whatever the sink is, the dispatch of a wave within the
limits hands it one delivery for each packet, in the order of the wave; the
deliveries are made one at a time, in some order of their own. -/
theorem dispatchWave_device (built : engine.Built) (complete : schedule.Complete)
    {packets : List RawPacket} {wave : List Nat} (hinside : ∀ i ∈ wave, i < packets.length)
    (hlength : wave.length ≤ engine.waveLimits.1)
    (hwords : waveWords packets wave ≤ engine.waveLimits.2) (memory : EngineMemory) :
    ∃ memory' trace deliveries, trace.Perm deliveries ∧ deliveries.map Prod.fst = wave ∧
      Invoked engine.config memory.storage.flows (served packets trace) memory'.storage.flows ∧
      (wave ≠ [] → memory'.dispatches = memory.dispatches + 1) ∧
      memory'.packets = memory.packets + UInt64.ofNat wave.length ∧
      (∀ delivery ∈ deliveries, ∀ bytes, delivery.2 = some bytes →
        bytes ≠ [] ∧ bytes.length ≤ maxRawPacketBytes) ∧
      ∀ (σ : Type) (sink : PacketSink σ) (s : σ),
        dispatchWave (device engine schedule) sink packets wave (memory, s) =
          (do
            let s ← deliver sink deliveries s
            return (memory', s)) := by
  by_cases hempty : wave = []
  · refine ⟨memory, [], [], .refl _, by rw [hempty]; rfl, .nil _, fun hne => absurd hempty hne,
      by simp [hempty], ?_, ?_⟩
    · exact fun delivery hmem => absurd hmem List.not_mem_nil
    · intro σ sink s
      rw [dispatchWave, if_pos hempty]
      rfl
  obtain ⟨wavePackets, hgather, hsum, hat⟩ := gather_spec hinside
  have hcount := gather_length packets wave hgather
  have hne : wavePackets ≠ [] := by
    rintro rfl
    exact hempty (List.eq_nil_of_length_eq_zero hcount.symm)
  rw [← hsum] at hwords
  rw [← hcount] at hlength
  obtain ⟨memory', order, emissions, hdevice, horder, hinvoked, hdispatches, hpackets⟩ :=
    device_spec built complete hne hlength hwords memory
  obtain ⟨-, -, -, -, hslots⟩ := built.fits hlength hwords
  rw [hcount] at horder hslots hpackets
  have hroom : wave.length * (1 + outputStrideWords) ≤ 2 ^ 32 := by omega
  have hperm : (deliveriesAt wave emissions order).Perm
      (wave.mapIdx fun position source => (source, (emissions position).map Emission.bytes)) := by
    rw [← deliveriesAt_range]
    exact horder.filterMap _
  rw [itemsAt_gather hat] at hinvoked
  refine ⟨memory', _, _, hperm, ?_, hinvoked, fun _ => hdispatches, hpackets, ?_, ?_⟩
  · apply List.ext_getElem?
    intro k
    rw [List.getElem?_map, List.getElem?_mapIdx]
    cases wave[k]? with
    | none => rfl
    | some source => rfl
  · intro delivery hmem bytes hbytes
    obtain ⟨position, source, -, rfl⟩ := List.mem_mapIdx.mp hmem
    obtain ⟨emission, -, rfl⟩ := Option.map_eq_some_iff.mp hbytes
    refine ⟨?_, emission.bytes_length_le.trans maxResponsePacketBytes_le⟩
    rw [← List.length_pos_iff, emission.bytes_length]
    omega
  · intro σ sink s
    have hemit (count : Nat) (h : count = wave.length) :
        let readback := readbackOf (dispatchOutput (engineParams engine.config count) emissions
          order memory.storage.outputData) count outputStrideWords
        emitWaveOutputs sink (toBytes readback.words) (outputStrideWords * 4) 0
            (readback.metadata.zip wave) s =
          deliver sink (wave.mapIdx fun position source =>
            (source, (emissions position).map Emission.bytes)) s := by
      subst h
      exact emitWaveOutputs_readback sink engine.config (Nat.le_refl _) hroom emissions horder
        memory.storage.outputData s
    unfold dispatchWave
    rw [if_neg hempty, hgather]
    simp only [Outcome.ok_bind]
    rw [hdevice]
    simp only [Outcome.ok_bind]
    rw [hemit _ hcount]

end Device

end Shader
end Packet
end Gput
