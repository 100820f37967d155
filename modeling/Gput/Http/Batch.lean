import Gput.Library.EventMachine
import Gput.Http.Invocation

/-!
# A batch of requests on the device

The limits a configuration has been checked for leave room for every batch the
network layer can form.  Its requests are packed, every invocation answers in
its own slot, and all responses are decoded: `no_request_fails_batch`.
-/

namespace Gput
namespace Http

open LittleEndian WordMemory

/-- The limits a server starts with. -/
def ServerConfig.default : ServerConfig where
  batchSize := 256
  batchWait := 50000
  queueDepth := 8192
  maxRequestBytes := 4096
  responseSlotBytes := 512
  maxConnections := 4096
  readTimeout := 5000000000

theorem ServerConfig.default_valid : ServerConfig.default.validate = .ok () := by decide

/-- What `validate` checks of the sizes of a configuration. -/
structure ServerConfig.Sized (config : ServerConfig) : Prop where
  count : config.batchSize ≤ u32Max
  requests : config.batchSize * ((config.maxRequestBytes + 3) / 4 * 4) ≤ maxTotalBufferBytes
  responses : config.batchSize * ((config.responseSlotBytes + 3) / 4 * 4) ≤ maxTotalBufferBytes

theorem ServerConfig.sized {config : ServerConfig} (h : config.validate = .ok ()) :
    config.Sized := by
  have rounded {value result : Nat} (hround : roundUpToWord value = .ok result) :
      result = (value + 3) / 4 * 4 := by
    obtain ⟨_, -, hround⟩ := Outcome.bind_eq_ok.mp hround
    exact (Outcome.ok.inj hround).symm
  obtain ⟨_, -, h⟩ := Outcome.bind_eq_ok.mp h
  obtain ⟨_, hcount, h⟩ := Outcome.bind_eq_ok.mp h
  obtain ⟨_, -, h⟩ := Outcome.bind_eq_ok.mp h
  obtain ⟨_, -, h⟩ := Outcome.bind_eq_ok.mp h
  obtain ⟨_, -, h⟩ := Outcome.bind_eq_ok.mp h
  obtain ⟨_, -, h⟩ := Outcome.bind_eq_ok.mp h
  obtain ⟨_, -, h⟩ := Outcome.bind_eq_ok.mp h
  obtain ⟨_, -, h⟩ := Outcome.bind_eq_ok.mp h
  obtain ⟨requestStride, hrequest, h⟩ := Outcome.bind_eq_ok.mp h
  obtain ⟨responseStride, hresponse, h⟩ := Outcome.bind_eq_ok.mp h
  obtain ⟨_, -, h⟩ := Outcome.bind_eq_ok.mp h
  obtain ⟨_, -, h⟩ := Outcome.bind_eq_ok.mp h
  obtain ⟨_, hrequests, h⟩ := Outcome.bind_eq_ok.mp h
  rw [rounded hrequest] at hrequests
  rw [rounded hresponse] at h
  exact ⟨Outcome.ensure_eq_ok.mp hcount, Outcome.ensure_eq_ok.mp hrequests,
    Outcome.ensure_eq_ok.mp h⟩

namespace Shader

/-- A batch the server may form: `read_raw_request` bounds a request, and
`collect_jobs` bounds their number. -/
structure Admitted (config : ServerConfig) (router : CompiledRouter)
    (requests : List (List UInt8)) : Prop where
  valid : config.validate = .ok ()
  slot : validateGpuResponseSlot router config.responseSlotBytes = .ok ()
  nonempty : 1 ≤ requests.length
  count : requests.length ≤ config.batchSize
  bytes : ∀ request ∈ requests, request.length ≤ config.maxRequestBytes

/-- The sizes of an admitted batch. -/
structure BatchSizes (config : ServerConfig) (router : CompiledRouter)
    (requests : List (List UInt8)) : Prop where
  count : requests.length ≤ u32Max
  requestBytes : config.maxRequestBytes ≤ maxTotalBufferBytes
  responseBytes : router.maxGpuResponseBytes ≤ maxTotalBufferBytes
  requestWords : requests.length * ((config.maxRequestBytes + 3) / 4) * 4 ≤ maxTotalBufferBytes
  responseWords :
    requests.length * ((router.maxGpuResponseBytes + 3) / 4) * 4 ≤ maxTotalBufferBytes

theorem Admitted.sizes {config : ServerConfig} {router : CompiledRouter}
    {requests : List (List UInt8)} (h : Admitted config router requests) :
    BatchSizes config router requests := by
  have hsized := ServerConfig.sized h.valid
  have hslot : router.maxGpuResponseBytes ≤ config.responseSlotBytes :=
    Outcome.ensure_eq_ok.mp h.slot
  have hone := h.nonempty.trans h.count
  have hrequests := hsized.requests
  have hresponses := hsized.responses
  have hrequest : 1 * ((config.maxRequestBytes + 3) / 4 * 4) ≤
      config.batchSize * ((config.maxRequestBytes + 3) / 4 * 4) := Nat.mul_le_mul_right _ hone
  have hresponse : 1 * ((config.responseSlotBytes + 3) / 4 * 4) ≤
      config.batchSize * ((config.responseSlotBytes + 3) / 4 * 4) := Nat.mul_le_mul_right _ hone
  refine ⟨h.count.trans hsized.count, by omega, by omega, ?_, ?_⟩
  · rw [Nat.mul_assoc]
    exact (Nat.mul_le_mul_right _ h.count).trans hrequests
  · rw [Nat.mul_assoc]
    refine (Nat.mul_le_mul h.count ?_).trans hresponses
    omega

/-- A request in packed words. -/
structure Packed (words : List UInt32) (requestMeta : RequestMeta) (request : List UInt8) :
    Prop where
  len : requestMeta.inputLen.toNat = request.length
  words : ofBytes request <+: words.drop requestMeta.wordOffset.toNat

/-- Requests are packed one behind the other. -/
theorem packRequestBatch_spec {maxRequestBytes : Nat} {requests : List (List UInt8)} :
    ∀ {metadata allMeta : List RequestMeta} {words all : List UInt32},
      packRequestBatch maxRequestBytes metadata words requests = .ok (allMeta, all) →
      ∃ laterMeta later, allMeta = metadata ++ laterMeta ∧ all = words ++ later ∧
        laterMeta.length = requests.length ∧
        later.length ≤ requests.length * ((maxRequestBytes + 3) / 4) ∧
        ∀ (i : Nat) (request : List UInt8), requests[i]? = some request →
          ∃ requestMeta, laterMeta[i]? = some requestMeta ∧ Packed all requestMeta request := by
  induction requests with
  | nil =>
      intro metadata allMeta words all h
      cases h
      exact ⟨[], [], (List.append_nil _).symm, (List.append_nil _).symm, rfl, Nat.zero_le _,
        fun i request hi => by cases hi⟩
  | cons request requests ih =>
      intro metadata allMeta words all h
      rw [packRequestBatch] at h
      obtain ⟨_, hrequest, h⟩ := Outcome.bind_eq_ok.mp h
      obtain ⟨_, -, h⟩ := Outcome.bind_eq_ok.mp h
      obtain ⟨_, hlen, h⟩ := Outcome.bind_eq_ok.mp h
      obtain ⟨_, hoffset, h⟩ := Outcome.bind_eq_ok.mp h
      have hrequest : request.length ≤ maxRequestBytes := Outcome.ensure_eq_ok.mp hrequest
      have hlen : request.length ≤ u32Max := Outcome.ensure_eq_ok.mp hlen
      have hoffset : words.length ≤ u32Max := Outcome.ensure_eq_ok.mp hoffset
      obtain ⟨laterMeta, later, rfl, rfl, hcount, hwords, hpacked⟩ := ih h
      refine ⟨_ :: laterMeta, ofBytes request ++ later, List.append_assoc _ _ _,
        List.append_assoc _ _ _, congrArg Nat.succ hcount, ?_, ?_⟩
      · rw [List.length_append, ofBytes_length, List.length_cons, Nat.succ_mul]
        omega
      · intro i other hi
        cases i with
        | zero =>
            cases hi
            refine ⟨_, rfl, ofNat_toNat_of_fits hlen, ?_⟩
            rw [ofNat_toNat_of_fits hoffset, List.append_assoc, List.drop_left]
            exact List.prefix_append _ _
        | succ i => exact hpacked i other hi

/-- Requests within the limits can be packed. -/
theorem packRequestBatch_ok {maxRequestBytes : Nat} (hmax : maxRequestBytes ≤ u32Max)
    {requests : List (List UInt8)} :
    ∀ {metadata : List RequestMeta} {words : List UInt32},
      (∀ request ∈ requests, request.length ≤ maxRequestBytes) →
      words.length + requests.length * ((maxRequestBytes + 3) / 4) ≤ u32Max →
      ∃ packed, packRequestBatch maxRequestBytes metadata words requests = .ok packed := by
  induction requests with
  | nil => exact fun _ _ => ⟨_, rfl⟩
  | cons request requests ih =>
      intro metadata words hbytes hroom
      have hrequest := hbytes request List.mem_cons_self
      rw [List.length_cons, Nat.succ_mul] at hroom
      have hwordsFor : wordsForBytes request.length = .ok ((request.length + 3) / 4) := by
        unfold u32Max at hmax
        rw [wordsForBytes, Outcome.ensure_of _ (by omega)]
        rfl
      obtain ⟨packed, hpacked⟩ :=
        @ih (metadata ++ [⟨UInt32.ofNat request.length, UInt32.ofNat words.length⟩])
          (words ++ ofBytes request) (fun other hmem => hbytes other (List.mem_cons_of_mem _ hmem))
          (by rw [List.length_append, ofBytes_length]; omega)
      exact ⟨packed, Outcome.bind_eq_ok.mpr ⟨_, Outcome.ensure_of _ hrequest,
        Outcome.bind_eq_ok.mpr ⟨_, hwordsFor,
        Outcome.bind_eq_ok.mpr ⟨_, Outcome.ensure_of _ (hrequest.trans hmax),
        Outcome.bind_eq_ok.mpr ⟨_, Outcome.ensure_of _ (by omega), hpacked⟩⟩⟩⟩⟩

/-- A packed request is presented to its invocation. -/
theorem Packed.presented {metadata : List RequestMeta} {words : List UInt32}
    {requestMeta : RequestMeta} {request : List UInt8} {bindings : Bindings} {i : Nat}
    (h : Packed words requestMeta request) (hi : i < 2 ^ 32) (hwords : words.length ≤ 2 ^ 32)
    (hmetadata : Stores bindings.requestMeta metadata) (hat : metadata[i]? = some requestMeta)
    (hinput : Stores bindings.inputWords words) : Presented bindings (UInt32.ofNat i) request := by
  have hindex : (UInt32.ofNat i).toNat = i := by rw [UInt32.toNat_ofNat', Nat.mod_eq_of_lt hi]
  have hread : bindings.requestMeta (UInt32.ofNat i) = requestMeta :=
    hmetadata _ _ (by rw [hindex, hat])
  refine ⟨fun k r hr hk => ?_, by rw [hread, h.len]⟩
  obtain ⟨later, hlater⟩ := h.words
  have hle := h.words.length_le
  rw [ofBytes_length, List.length_drop] at hle
  have hword : words[requestMeta.wordOffset.toNat + k]? =
      some (word (fun k => request.getD k 0) k) := by
    rw [← List.getElem?_drop, ← hlater,
      List.getElem?_append_left (by rw [ofBytes_length]; omega), ofBytes_getElem? _ (by omega)]
  have hposition : (requestMeta.wordOffset + UInt32.ofNat k).toNat =
      requestMeta.wordOffset.toNat + k := by
    rw [UInt32.toNat_add, UInt32.toNat_ofNat']
    omega
  rw [hread, hinput _ _ (by rw [hposition, hword]), byteOf_word _ _ hr]

section Slots

variable {params : Params}

/-- The slots of a batch are disjoint. -/
theorem inSlot_unique {n : Nat} (hroom : n * params.responseStrideWords.toNat ≤ 2 ^ 32)
    {first second i : UInt32} (hfirst : first.toNat < n) (hsecond : second.toNat < n)
    (hin : InSlot params first i) (hin' : InSlot params second i) : first = second := by
  have position {slot : UInt32} (hslot : slot.toNat < n) {k : Nat}
      (hk : k < params.responseStrideWords.toNat) :
      (slotBase params slot + UInt32.ofNat k).toNat =
        slot.toNat * params.responseStrideWords.toNat + k := by
    have hle : (slot.toNat + 1) * params.responseStrideWords.toNat ≤
        n * params.responseStrideWords.toNat := Nat.mul_le_mul_right _ hslot
    rw [Nat.succ_mul] at hle
    rw [slotBase, UInt32.toNat_add, UInt32.toNat_mul, UInt32.toNat_ofNat',
      Nat.mod_eq_of_lt (show slot.toNat * params.responseStrideWords.toNat < 2 ^ 32 by omega),
      Nat.mod_eq_of_lt (show k < 2 ^ 32 by omega), Nat.mod_eq_of_lt (by omega)]
  obtain ⟨k, hk, rfl⟩ := hin
  obtain ⟨k', hk', heq⟩ := hin'
  have hnat := congrArg UInt32.toNat heq
  rw [position hfirst hk, position hsecond hk'] at hnat
  have hdiv := congrArg (· / params.responseStrideWords.toNat) hnat
  have hpos : 0 < params.responseStrideWords.toNat := by omega
  simp only [Nat.add_comm _ k, Nat.add_comm _ k', Nat.add_mul_div_right _ _ hpos,
    Nat.div_eq_of_lt hk, Nat.div_eq_of_lt hk', Nat.zero_add] at hdiv
  exact UInt32.toNat_inj.mp hdiv

/-- A slot that holds a response. -/
structure Responded (params : Params) (requestIndex : UInt32) (status : UInt32)
    (bytes : List UInt8) (storage : Storage) : Prop where
  outputLen : (storage.responseMeta requestIndex).outputLen.toNat = bytes.length
  status : (storage.responseMeta requestIndex).status = status
  flags : (storage.responseMeta requestIndex).flags = 0
  bytes : Holds storage.outputWords (slotBase params requestIndex) bytes

theorem Responded.slotBytes_eq {requestIndex status : UInt32} {bytes : List UInt8}
    {storage : Storage} (h : Responded params requestIndex status bytes storage) :
    slotBytes params requestIndex storage = bytes := by
  rw [slotBytes, h.outputLen]
  exact h.bytes.bytesFrom_eq

theorem Answered.responded {requestIndex status : UInt32} {bytes : List UInt8}
    {before after : Storage} (h : Answered params requestIndex before after status bytes) :
    Responded params requestIndex status bytes after :=
  ⟨h.outputLen, h.status, h.flags, h.bytes⟩

/-- Another invocation keeps the response of a slot. -/
theorem Responded.keep {requestIndex other status otherStatus : UInt32}
    {bytes otherBytes : List UInt8} {before after : Storage}
    (h : Responded params requestIndex status bytes before)
    (hother : Answered params other before after otherStatus otherBytes)
    (hne : requestIndex ≠ other)
    (hfits : bytes.length ≤ 4 * params.responseStrideWords.toNat)
    (hdisjoint : ∀ i, InSlot params requestIndex i → ¬ InSlot params other i) :
    Responded params requestIndex status bytes after := by
  have hmeta := hother.otherMeta requestIndex hne
  refine ⟨by rw [hmeta, h.outputLen], by rw [hmeta, h.status], by rw [hmeta, h.flags], ?_⟩
  intro k r hr hk
  rw [hother.otherWords _ (hdisjoint _ ⟨k, by omega, rfl⟩)]
  exact h.bytes k r hr hk

end Slots

theorem mem_invocations {count i : Nat} (hi : i < count) : UInt32.ofNat i ∈ invocations count := by
  refine List.mem_map_of_mem (List.mem_range.mpr (Nat.lt_of_lt_of_le hi ?_))
  have hsize : workgroupSize = 128 := rfl
  rw [hsize]
  omega

/-- An invocation answers with the same response, whatever the storage holds before. -/
def Answers (bindings : Bindings) (requestIndex status : UInt32) (bytes : List UInt8) : Prop :=
  bytes.length ≤ 4 * bindings.params.responseStrideWords.toNat ∧
    ∀ storage, Answered bindings.params requestIndex storage
      (processRequests bindings requestIndex storage) status bytes

/-- When every invocation of a batch answers its request, then after all of them,
in whatever order, every slot holds its response. -/
theorem dispatch_responded {bindings : Bindings} {count : Nat}
    (hcount : bindings.params.requestCount.toNat = count)
    (hroom : count * bindings.params.responseStrideWords.toNat ≤ 2 ^ 32)
    (hanswers : ∀ i, i < bindings.params.requestCount → ∃ status bytes,
      Answers bindings i status bytes)
    {order : List UInt32} (horder : order.Perm (invocations count)) (storage : Storage)
    {i : UInt32} (hi : i < bindings.params.requestCount) {status : UInt32} {bytes : List UInt8}
    (h : Answers bindings i status bytes) :
    Responded bindings.params i status bytes (dispatch bindings order storage) := by
  have hmem : i ∈ order := by
    have hlt := UInt32.lt_iff_toNat_lt.mp hi
    rw [horder.mem_iff, ← @UInt32.ofNat_toNat i]
    exact mem_invocations (by omega)
  have hslots {first second : UInt32} (hfirst : first < bindings.params.requestCount)
      (hsecond : second < bindings.params.requestCount) (hne : first ≠ second) (word : UInt32)
      (hin : InSlot bindings.params first word) : ¬ InSlot bindings.params second word := by
    rw [UInt32.lt_iff_toNat_lt, hcount] at hfirst hsecond
    exact fun hin' => hne (inSlot_unique hroom hfirst hsecond hin hin')
  refine @EventMachine.foldl_establishes _ _ (fun storage i => processRequests bindings i storage)
    (Responded bindings.params i status bytes) order i ?_ ?_ hmem storage
  · exact fun storage => (h.2 storage).responded
  · intro other storage _ hne hholds
    rcases UInt32.lt_or_le other bindings.params.requestCount with hlt | hge
    · obtain ⟨_, _, hother⟩ := hanswers other hlt
      exact hholds.keep (hother.2 storage) hne h.1 (hslots hi hlt hne)
    · simp only [processRequests_of_le hge]
      exact hholds

/-- `decode_responses` cuts the slots out of the output. -/
theorem decodeResponses_eq {params : Params} {storage : Storage} {requestIndex remaining : Nat}
    (h : ∀ i, requestIndex ≤ i → i < requestIndex + remaining →
      let responseMeta := storage.responseMeta (UInt32.ofNat i)
      responseMeta.flags = 0 ∧ 0 < responseMeta.outputLen.toNat ∧
        responseMeta.outputLen.toNat ≤ 4 * params.responseStrideWords.toNat) :
    decodeResponses params.responseStrideWords.toNat storage requestIndex remaining =
      .ok ((List.range' requestIndex remaining).map fun i =>
        slotBytes params (UInt32.ofNat i) storage) := by
  induction remaining generalizing requestIndex with
  | zero => rfl
  | succ remaining ih =>
      obtain ⟨hflags, hpos, hle⟩ := h requestIndex (le_refl _) (by omega)
      have hcut : (List.range (storage.responseMeta (UInt32.ofNat requestIndex)).outputLen.toNat).map
          (fun k => outputByte storage
            (requestIndex * (params.responseStrideWords.toNat * 4) + k)) =
            slotBytes params (UInt32.ofNat requestIndex) storage := by
        refine List.map_congr_left fun k _ => ?_
        rw [outputByte, ← Nat.mul_assoc, Nat.mul_add_mod', Nat.add_comm,
          Nat.add_mul_div_right _ _ (by omega), Nat.add_comm, UInt32.ofNat_add, UInt32.ofNat_mul,
          UInt32.ofNat_toNat, slotBase]
      refine Outcome.bind_eq_ok.mpr ⟨_, Outcome.ensure_of _ hflags,
        Outcome.bind_eq_ok.mpr ⟨_, Outcome.ensure_of _ ⟨by omega, by omega⟩,
        Outcome.bind_eq_ok.mpr ⟨_, ih fun i hi hlt => h i (by omega) (by omega), ?_⟩⟩⟩
      rw [hcut]
      rfl

/-- What the host has computed for a batch. -/
structure Prepared (config : ServerConfig) (router : CompiledRouter)
    (requests : List (List UInt8)) (processor : GpuProcessor) (metadata : List RequestMeta)
    (words : List UInt32) (params : Params) : Prop where
  built : fromCompiled config router = .ok processor
  packed : packRequestBatch processor.maxRequestBytes [] [] requests = .ok (metadata, words)
  batch : batchParams processor requests.length = .ok params

/-- What the shader relies on. -/
structure Presentable (router : CompiledRouter) (requests : List (List UInt8))
    (processor : GpuProcessor) (metadata : List RequestMeta) (words : List UInt32)
    (params : Params) : Prop where
  layout : LaidOut router params
  count : params.requestCount.toNat = requests.length
  stride : params.responseStrideWords.toNat = processor.responseStrideWords
  slot : processor.responseStrideWords = (router.maxGpuResponseBytes + 3) / 4
  length : words.length ≤ 2 ^ 32
  requests : ∀ (i : Nat) (request : List UInt8), requests[i]? = some request →
    ∃ requestMeta, metadata[i]? = some requestMeta ∧ Packed words requestMeta request

/-- The device has run the shader over the uploads, in some order and over
whatever the output buffers held before. -/
structure Dispatched (router : CompiledRouter) (assets : ShaderAssets)
    (metadata : List RequestMeta) (words : List UInt32) (params : Params) (bindings : Bindings)
    (final : Storage) : Prop where
  uploaded : Uploaded router assets bindings
  batch : bindings.params = params
  requestMeta : Stores bindings.requestMeta metadata
  inputWords : Stores bindings.inputWords words
  ran : ∃ order storage, order.Perm (invocations params.requestCount.toNat) ∧
    final = dispatch bindings order storage

section Batches

variable {config : ServerConfig} {router : CompiledRouter} {assets : ShaderAssets}
  {requests : List (List UInt8)} {processor : GpuProcessor} {metadata : List RequestMeta}
  {words : List UInt32} {params : Params} {bindings : Bindings} {final : Storage}

theorem wordsForBytes_of_le {bytes : Nat} (h : bytes ≤ maxTotalBufferBytes) :
    wordsForBytes bytes = .ok ((bytes + 3) / 4) := by
  unfold maxTotalBufferBytes at h
  exact Outcome.bind_eq_ok.mpr ⟨_, Outcome.ensure_of _ (by omega), rfl⟩

/-- The host prepares every admitted batch. -/
theorem Admitted.prepared (h : Admitted config router requests) :
    ∃ processor metadata words params,
      Prepared config router requests processor metadata words params ∧
      Presentable router requests processor metadata words params := by
  have hsizes := h.sizes
  have hcount := hsizes.count
  have hrequest := hsizes.requestBytes
  have hresponse := hsizes.responseBytes
  have hwords := hsizes.requestWords
  have htotal : maxTotalBufferBytes ≤ u32Max := by decide
  have hroom : ([] : List UInt32).length + requests.length * ((config.maxRequestBytes + 3) / 4) ≤
      u32Max := by
    rw [List.length_nil]
    omega
  have hstride {bytes : Nat} (hbytes : bytes ≤ maxTotalBufferBytes) : (bytes + 3) / 4 ≤ u32Max := by
    unfold maxTotalBufferBytes at hbytes
    unfold u32Max
    omega
  obtain ⟨⟨metadata, words⟩, hpack⟩ :=
    packRequestBatch_ok (hrequest.trans htotal) h.bytes hroom
  obtain ⟨_, _, rfl, rfl, -, hlen, hpacked⟩ := packRequestBatch_spec hpack
  refine ⟨_, _, _, _, ⟨Outcome.bind_eq_ok.mpr ⟨_, h.slot, Outcome.bind_eq_ok.mpr ⟨_,
    wordsForBytes_of_le hrequest, Outcome.bind_eq_ok.mpr ⟨_, wordsForBytes_of_le hresponse, rfl⟩⟩⟩,
    hpack, Outcome.bind_eq_ok.mpr ⟨_, Outcome.ensure_of _ (hstride hrequest),
      Outcome.bind_eq_ok.mpr ⟨_, Outcome.ensure_of _ (hstride hresponse),
      Outcome.bind_eq_ok.mpr ⟨_, Outcome.ensure_of _ hcount, rfl⟩⟩⟩⟩, ?_⟩
  refine ⟨⟨rfl, rfl, rfl, rfl⟩, ofNat_toNat_of_fits hcount,
    ofNat_toNat_of_fits (hstride hresponse), rfl, ?_, hpacked⟩
  unfold maxTotalBufferBytes at hwords
  omega

/-- What the host computes is determined. -/
theorem Prepared.presentable (h : Prepared config router requests processor metadata words params)
    (hadmitted : Admitted config router requests) :
    Presentable router requests processor metadata words params := by
  obtain ⟨processor', metadata', words', params', hprepared, hpresentable⟩ := hadmitted.prepared
  obtain rfl := Outcome.ok.inj (hprepared.built.symm.trans h.built)
  obtain ⟨rfl, rfl⟩ := Prod.mk.inj (Outcome.ok.inj (hprepared.packed.symm.trans h.packed))
  obtain rfl := Outcome.ok.inj (hprepared.batch.symm.trans h.batch)
  exact hpresentable

/-- Every request of a dispatched batch has its response in its slot. -/
theorem Dispatched.responded (compiled : IsCompiled router)
    (hassets : buildShaderAssets router = .ok assets) (hadmitted : Admitted config router requests)
    (hpresentable : Presentable router requests processor metadata words params)
    (h : Dispatched router assets metadata words params bindings final) {i : Nat}
    {request : List UInt8} (hi : requests[i]? = some request) :
    ∃ parse bytes, ShaderParse request parse ∧
      OffsetTo router parse (chosenResponse bindings (UInt32.ofNat i)).1 ∧
      responseMeaning (withTexts router assets.texts) parse.parts request.length
        (router.responseTo parse) = .ok bytes ∧
      0 < bytes.length ∧ bytes.length ≤ 4 * processor.responseStrideWords ∧
      Responded params (UInt32.ofNat i) (router.responseTo parse).status.toUInt32 bytes final := by
  obtain ⟨order, storage, horder, rfl⟩ := h.ran
  obtain rfl := h.batch
  have hsizes := hadmitted.sizes
  have hcount := hpresentable.count
  have hstride := hpresentable.stride
  have hslot := hpresentable.slot
  have hresponse := hsizes.responseBytes
  have hresponses := hsizes.responseWords
  have hrequest := hsizes.requestBytes
  have hroom : requests.length * bindings.params.responseStrideWords.toNat ≤ 2 ^ 32 := by
    unfold maxTotalBufferBytes at hresponses
    rw [hstride, hslot]
    omega
  have htexts := h.uploaded.readsTexts hassets
  have harena := arenaTexts_of_build compiled hassets
  have hevery (k : Nat) (other : List UInt8) (hk : requests[k]? = some other) :
      ∃ parse bytes, ShaderParse other parse ∧
        OffsetTo router parse (chosenResponse bindings (UInt32.ofNat k)).1 ∧
        responseMeaning (withTexts router assets.texts) parse.parts other.length
          (router.responseTo parse) = .ok bytes ∧
        0 < bytes.length ∧ bytes.length ≤ router.maxGpuResponseBytes ∧
        Answers bindings (UInt32.ofNat k) (router.responseTo parse).status.toUInt32 bytes := by
    obtain ⟨hlt, rfl⟩ := List.getElem?_eq_some_iff.mp hk
    have hbound := bindings.params.requestCount.toNat_lt
    have hindex : (UInt32.ofNat k).toNat = k := by
      rw [UInt32.toNat_ofNat', Nat.mod_eq_of_lt (by omega)]
    have hbytes := hadmitted.bytes _ (List.getElem_mem hlt)
    obtain ⟨requestMeta, hmeta, hpacked⟩ := hpresentable.requests k _ hk
    have hpresented := hpacked.presented (by omega) hpresentable.length h.requestMeta hmeta
      h.inputWords
    unfold maxTotalBufferBytes at hresponse hrequest
    obtain ⟨parse, bytes, hparse, hoffset, hmeaning, hpos, hle, hanswered⟩ :=
      processRequests_answered compiled h.uploaded.ids h.uploaded.routerWords harena
        hpresentable.layout htexts (by omega) (by omega) hpresented (by omega)
        (by rw [UInt32.lt_iff_toNat_lt, hindex, hcount]; exact hlt)
    exact ⟨parse, bytes, hparse, hoffset, hmeaning, hpos, hle, by omega, hanswered⟩
  obtain ⟨parse, bytes, hparse, hoffset, hmeaning, hpos, hle, hanswers⟩ := hevery i request hi
  refine ⟨parse, bytes, hparse, hoffset, hmeaning, hpos, by omega, ?_⟩
  obtain ⟨hlt, -⟩ := List.getElem?_eq_some_iff.mp hi
  have hbound := bindings.params.requestCount.toNat_lt
  rw [hcount] at horder
  refine dispatch_responded hcount hroom (fun k hk => ?_) horder storage ?_ hanswers
  · rw [UInt32.lt_iff_toNat_lt, hcount] at hk
    obtain ⟨_, _, _, _, _, _, _, hother⟩ := hevery k.toNat _ (List.getElem?_eq_getElem hk)
    rw [UInt32.ofNat_toNat] at hother
    exact ⟨_, _, hother⟩
  · rw [UInt32.lt_iff_toNat_lt, UInt32.toNat_ofNat', Nat.mod_eq_of_lt (by omega), hcount]
    exact hlt

/-- No request fails a batch: every admitted batch is prepared, every invocation
answers within its slot, and every response is decoded. -/
theorem no_request_fails_batch {source : Router} (hcompile : compile source = .ok router)
    (hassets : buildShaderAssets router = .ok assets)
    (hadmitted : Admitted config router requests) :
    ∃ processor metadata words params,
      Prepared config router requests processor metadata words params ∧
      wordsForBytes router.maxGpuResponseBytes = .ok processor.responseStrideWords ∧
      ∀ bindings final, Dispatched router assets metadata words params bindings final →
        (∀ i, i < requests.length →
          let responseMeta := final.responseMeta (UInt32.ofNat i)
          responseMeta.flags = 0 ∧ 0 < responseMeta.outputLen.toNat ∧
            responseMeta.outputLen.toNat ≤ 4 * processor.responseStrideWords) ∧
        ∃ responses, decodeResponses processor.responseStrideWords final 0 requests.length =
          .ok responses ∧ responses.length = requests.length := by
  have compiled := isCompiled_compile hcompile
  obtain ⟨processor, metadata, words, params, hprepared, hpresentable⟩ := hadmitted.prepared
  refine ⟨processor, metadata, words, params, hprepared, ?_, fun bindings final h => ?_⟩
  · rw [hpresentable.slot]
    exact wordsForBytes_of_le hadmitted.sizes.responseBytes
  have hslots (i : Nat) (hi : i < requests.length) :
      let responseMeta := final.responseMeta (UInt32.ofNat i)
      responseMeta.flags = 0 ∧ 0 < responseMeta.outputLen.toNat ∧
        responseMeta.outputLen.toNat ≤ 4 * processor.responseStrideWords := by
    obtain ⟨_, bytes, -, -, -, hpos, hle, hresponded⟩ :=
      h.responded compiled hassets hadmitted hpresentable (List.getElem?_eq_getElem hi)
    have hlen := hresponded.outputLen
    exact ⟨hresponded.flags, by omega, by omega⟩
  have hdecoded := @decodeResponses_eq params final 0 requests.length fun i _ hi => by
    rw [hpresentable.stride]
    exact hslots i (by omega)
  rw [hpresentable.stride] at hdecoded
  exact ⟨hslots, _, hdecoded, by rw [List.length_map, List.length_range']⟩

end Batches

/-- Fresh buffers hold the uploads of a batch. -/
theorem dispatched_bindingsOf {router : CompiledRouter} {assets : ShaderAssets}
    (harena : assets.byteLen ≤ 2 ^ 32) (metadata : List RequestMeta) (words : List UInt32)
    (params : Params) (storage : Storage) :
    let bindings := bindingsOf router assets params metadata words
    Dispatched router assets metadata words params bindings
      (dispatch bindings (invocations params.requestCount.toNat) storage) where
  uploaded := uploaded_bindingsOf harena _ _ _
  batch := rfl
  requestMeta := stores_bufferOf _ _
  inputWords := stores_bufferOf _ _
  ran := ⟨_, storage, List.Perm.refl _, rfl⟩

/-- Every admitted batch can be dispatched. -/
theorem Admitted.exists_dispatched {config : ServerConfig} {router : CompiledRouter}
    {requests : List (List UInt8)} (h : Admitted config router requests) {assets : ShaderAssets}
    (harena : assets.byteLen ≤ 2 ^ 32) (storage : Storage) :
    ∃ processor metadata words params bindings final,
      Prepared config router requests processor metadata words params ∧
      Dispatched router assets metadata words params bindings final := by
  obtain ⟨processor, metadata, words, params, hprepared, -⟩ := h.prepared
  exact ⟨processor, metadata, words, params, _, _, hprepared,
    dispatched_bindingsOf harena metadata words params storage⟩

/-- A router that compiles within the default limits, and a dispatched batch of it. -/
theorem exists_batch {source : Router}
    (hrun : (do
      let router ← compile source
      let assets ← buildShaderAssets router
      Outcome.ensure (assets.byteLen ≤ 2 ^ 32 ∧ validateGpuResponseSlot router 512 = Outcome.ok ())
        "") = .ok PUnit.unit)
    {requests : List (List UInt8)} (hone : 1 ≤ requests.length) (hcount : requests.length ≤ 256)
    (hbytes : ∀ request ∈ requests, request.length ≤ 4096) :
    ∃ router assets processor metadata words params bindings final,
      compile source = .ok router ∧ buildShaderAssets router = .ok assets ∧
      Admitted ServerConfig.default router requests ∧
      Prepared ServerConfig.default router requests processor metadata words params ∧
      Dispatched router assets metadata words params bindings final := by
  obtain ⟨router, hcompile, hrun⟩ := Outcome.bind_eq_ok.mp hrun
  obtain ⟨assets, hassets, hrun⟩ := Outcome.bind_eq_ok.mp hrun
  obtain ⟨harena, hslot⟩ := Outcome.ensure_eq_ok.mp hrun
  have hadmitted : Admitted ServerConfig.default router requests :=
    ⟨ServerConfig.default_valid, hslot, hone, hcount, hbytes⟩
  obtain ⟨processor, metadata, words, params, bindings, final, hprepared, hdispatched⟩ :=
    hadmitted.exists_dispatched harena ⟨fun _ => ⟨0, 0, 0⟩, fun _ => 0⟩
  exact ⟨router, assets, processor, metadata, words, params, bindings, final, hcompile, hassets,
    hadmitted, hprepared, hdispatched⟩

/-- The router without routes compiles within the default limits. -/
theorem new_fits :
    (do
      let router ← compile Router.new
      let assets ← buildShaderAssets router
      Outcome.ensure (assets.byteLen ≤ 2 ^ 32 ∧ validateGpuResponseSlot router 512 = Outcome.ok ())
        "") = .ok PUnit.unit := by
  decide +kernel

/-- A router with a route that echoes its path does, too. -/
theorem echo_fits :
    (do
      let router ← compile echoRouter
      let assets ← buildShaderAssets router
      Outcome.ensure (assets.byteLen ≤ 2 ^ 32 ∧ validateGpuResponseSlot router 512 = Outcome.ok ())
        "") = .ok PUnit.unit := by
  decide +kernel

/-- A request for the route, three bytes that are none, and another method. -/
def threeRequests : List (List UInt8) :=
  [echoRequest, [0, 32, 10], ByteString.ascii "POST /echo HTTP/1.1\r\n\r\n"]

theorem no_request_fails_batch_three :
    ∃ router assets processor metadata words params,
      compile echoRouter = .ok router ∧ buildShaderAssets router = .ok assets ∧
      Prepared ServerConfig.default router threeRequests processor metadata words params ∧
      ∃ responses, decodeResponses processor.responseStrideWords
          (dispatch (bindingsOf router assets params metadata words)
            (invocations params.requestCount.toNat) ⟨fun _ => ⟨0, 0, 1⟩, fun _ => 0⟩) 0 3 =
        .ok responses ∧ responses.length = 3 := by
  obtain ⟨router, hcompile, hrun⟩ := Outcome.bind_eq_ok.mp echo_fits
  obtain ⟨assets, hassets, hrun⟩ := Outcome.bind_eq_ok.mp hrun
  obtain ⟨harena, hslot⟩ := Outcome.ensure_eq_ok.mp hrun
  have hadmitted : Admitted ServerConfig.default router threeRequests :=
    ⟨ServerConfig.default_valid, hslot, by decide, by decide, by decide⟩
  obtain ⟨processor, metadata, words, params, hprepared, -, hall⟩ :=
    no_request_fails_batch hcompile hassets hadmitted
  obtain ⟨-, hresponses⟩ :=
    hall _ _ (dispatched_bindingsOf harena metadata words params ⟨fun _ => ⟨0, 0, 1⟩, fun _ => 0⟩)
  exact ⟨router, assets, processor, metadata, words, params, hcompile, hassets, hprepared,
    hresponses⟩

end Shader
end Http
end Gput
