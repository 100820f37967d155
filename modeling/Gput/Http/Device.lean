import Gput.Http.Agreement

/-!
# The GPU processor over runs of batches

`process_gpu_batch` with the buffers it keeps between batches: uploads leave what
lies behind them, the outputs of earlier batches stay, and the responses come back
either through a combined readback buffer or mapped directly, as bytes.  What wgpu
reports of the wait and of the mappings is the environment (`WgpuReport`).
`batches_answered` says that, while it reports no failure, none of this shows: over any
sequence of batches a request has one answer.
-/

namespace Gput
namespace Http
namespace Shader

open ByteString LittleEndian WordMemory Delimited

/-- The sizes of the buffers a processor creates for its batches. -/
structure ProcessorBuffers where
  requestMetaBytes : Nat
  inputBytes : Nat
  responseMetaBytes : Nat
  outputBytes : Nat
  readbackBytes : Nat
deriving DecidableEq, Repr

/-- `checked_buffer_bytes`. -/
def checkedBufferBytes (label : String) (count stride : Nat) : Outcome Nat := do
  Outcome.ensure (count * stride < 2 ^ 64) s!"{label} buffer size overflow"
  return count * stride

/-- The sizes of `RequestMeta` and `ResponseMeta`. -/
def metaBytes : Nat := 16

/-- The part of `from_compiled` that sizes the buffers of a batch. -/
def createBuffers (processor : GpuProcessor) : Outcome ProcessorBuffers := do
  let requestMetaBytes ← checkedBufferBytes "request metadata" processor.maxBatchSize metaBytes
  let inputBytes ← checkedBufferBytes "request input" processor.maxBatchSize
    (processor.requestStrideWords * 4)
  let responseMetaBytes ← checkedBufferBytes "response metadata" processor.maxBatchSize metaBytes
  let outputBytes ← checkedBufferBytes "response output" processor.maxBatchSize
    (processor.responseStrideWords * 4)
  Outcome.ensure (responseMetaBytes + outputBytes < 2 ^ 64) "combined HTTP readback size overflow"
  return {
    requestMetaBytes := requestMetaBytes
    inputBytes := inputBytes
    responseMetaBytes := responseMetaBytes
    outputBytes := outputBytes
    readbackBytes := responseMetaBytes + outputBytes }

/-- What a processor keeps on the device: the buffers the shader reads, those it
writes, the last word of every `ResponseMeta`, and the combined readback buffer. -/
structure ProcessorMemory where
  bindings : Bindings
  storage : Storage
  padding : UInt32 → UInt32
  readback : List UInt8

/-- The order in which the device runs the invocations of a batch. -/
abbrev DispatchOrder : Type := ProcessorMemory → Nat → List UInt32

/-- Every batch runs each of its invocations once. -/
def DispatchOrder.Complete (order : DispatchOrder) : Prop :=
  ∀ memory requestCount, (order memory requestCount).Perm (invocations requestCount)

/-- What wgpu reports of a buffer that is mapped for reading: whether its callback is
called, the error it is called with, and whether the mapped range can be read. -/
structure MapReport where
  callback : Bool
  error : Option String
  range : Bool
deriving DecidableEq, Repr

def MapReport.Succeeds (report : MapReport) : Prop :=
  report.callback = true ∧ report.error = none ∧ report.range = true

/-- What wgpu reports while a batch is read back: of the wait for the device, and of the
readback buffer or of the two buffers that are mapped directly. -/
structure WgpuReport where
  polled : Bool
  readback : MapReport
  responseMeta : MapReport
  output : MapReport
deriving DecidableEq, Repr

/-- The reports on the batches of a processor. -/
abbrev WgpuReports : Type := ProcessorMemory → Nat → WgpuReport

/-- wgpu reports no failure. -/
def WgpuReports.Succeed (reports : WgpuReports) : Prop :=
  ∀ memory requestCount, (reports memory requestCount).polled = true ∧
    (reports memory requestCount).readback.Succeeds ∧
    (reports memory requestCount).responseMeta.Succeeds ∧
    (reports memory requestCount).output.Succeeds

/-- The bytes of the first responses' metadata. -/
def responseMetaData (memory : ProcessorMemory) (count : Nat) : List UInt8 :=
  toBytes ((List.range count).flatMap fun i =>
    let responseMeta := memory.storage.responseMeta (UInt32.ofNat i)
    [responseMeta.outputLen, responseMeta.status, responseMeta.flags,
      memory.padding (UInt32.ofNat i)])

/-- The bytes of the first words of the output. -/
def outputData (memory : ProcessorMemory) (count : Nat) : List UInt8 :=
  toBytes ((List.range count).map fun i => memory.storage.outputWords (UInt32.ofNat i))

/-- `copy_buffer_to_buffer`; a copy that leaves the buffer is an error of the device. -/
def copyBuffer (destination : List UInt8) (offset : Nat) (bytes : List UInt8) :
    Outcome (List UInt8) :=
  if offset + bytes.length ≤ destination.length then
    .ok (destination.take offset ++ bytes ++ destination.drop (offset + bytes.length))
  else .panic

/-- `&bytes[start..start + len]`. -/
def slice (bytes : List UInt8) (start len : Nat) : Outcome (List UInt8) :=
  if start + len ≤ bytes.length then .ok ((bytes.drop start).take len) else .panic

/-- `pod_read_unaligned` of a `ResponseMeta`. -/
def podRead (row : List UInt8) : ResponseMeta where
  outputLen := word (fun k => row.getD k 0) 0
  status := word (fun k => row.getD k 0) 1
  flags := word (fun k => row.getD k 0) 2

/-- `decode_responses` on the mapped bytes, from a request on. -/
def decodeResponseBytes (responseStrideWords : Nat) (metaData output : List UInt8)
    (requestIndex : Nat) : Nat → Outcome (List (List UInt8))
  | 0 => return []
  | remaining + 1 => do
      let responseStrideBytes := responseStrideWords * 4
      let row ← slice metaData (requestIndex * metaBytes) metaBytes
      let responseMeta := podRead row
      Outcome.ensure (responseMeta.flags = 0)
        (s!"shader failed request {requestIndex} with status {responseMeta.status} and flags " ++
          s!"{responseMeta.flags}")
      let outputLen := responseMeta.outputLen.toNat
      Outcome.ensure (outputLen ≠ 0 ∧ outputLen ≤ responseStrideBytes)
        s!"shader returned invalid response length {outputLen} for request {requestIndex}"
      let response ← slice output (requestIndex * responseStrideBytes) outputLen
      let later ← decodeResponseBytes responseStrideWords metaData output (requestIndex + 1)
        remaining
      return response :: later

section Processor

variable (processor : GpuProcessor) (buffers : ProcessorBuffers) (direct : Bool)
  (order : DispatchOrder) (reports : WgpuReports)

/-- What `process_gpu_batch` computes before it touches the device. -/
def GpuProcessor.prepare (requests : List (List UInt8)) :
    Outcome (List RequestMeta × List UInt32 × Params) := do
  let (metadata, words) ← packRequestBatch processor.maxRequestBytes [] [] requests
  let params ← batchParams processor requests.length
  return (metadata, words, params)

/-- The uploads of a batch, its dispatch and, unless the output is mapped directly,
the copies to the readback buffer. -/
def GpuProcessor.submit (memory : ProcessorMemory) (metadata : List RequestMeta)
    (words : List UInt32) (params : Params) (requestCount : Nat) : Outcome ProcessorMemory := do
  transfer (metadata.length * metaBytes) buffers.requestMetaBytes
  transfer (words.length * 4) buffers.inputBytes
  let bindings := { memory.bindings with
    params := params
    requestMeta := upload metadata memory.bindings.requestMeta
    inputWords := upload words memory.bindings.inputWords }
  let storage := dispatch bindings (order memory requestCount) memory.storage
  let memory := { memory with bindings := bindings, storage := storage }
  let responseMetaCopyBytes := requestCount * metaBytes
  let outputCopyBytes := requestCount * processor.responseStrideWords * 4
  transfer responseMetaCopyBytes buffers.responseMetaBytes
  transfer outputCopyBytes buffers.outputBytes
  if direct then return memory
  let readback ← copyBuffer memory.readback 0 (responseMetaData memory requestCount)
  let readback ← copyBuffer readback responseMetaCopyBytes
    (outputData memory (requestCount * processor.responseStrideWords))
  return { memory with readback := readback }

/-- A mapping whose error, if any, is reported with a message. -/
def MapReport.mapped (report : MapReport) (message : String → String) : Outcome Unit :=
  match report.error with
  | some error => .err (message error)
  | none => .ok ()

/-- The part of `read_responses` that waits for the combined readback buffer. -/
def WgpuReport.awaitReadback (report : WgpuReport) : Outcome Unit := do
  Outcome.ensure (report.polled = true) "waiting for GPU batch completion failed"
  Outcome.ensure (report.readback.callback = true) "HTTP readback callback disappeared"
  report.readback.mapped fun error => error
  Outcome.ensure (report.readback.range = true) "reading mapped HTTP responses failed"

/-- The part of `read_direct_responses` that waits for the two buffers. -/
def WgpuReport.awaitDirect (report : WgpuReport) : Outcome Unit := do
  Outcome.ensure (report.polled = true) "waiting for directly mapped GPU batch failed"
  Outcome.ensure (report.responseMeta.callback = true)
    "direct response metadata callback disappeared"
  Outcome.ensure (report.output.callback = true) "direct response output callback disappeared"
  report.responseMeta.mapped fun error =>
    s!"mapping direct response metadata failed: {error}"
  report.output.mapped fun error => s!"mapping direct response output failed: {error}"
  Outcome.ensure (report.responseMeta.range = true) "reading direct response metadata failed"
  Outcome.ensure (report.output.range = true) "reading direct response output failed"

/-- `read_responses` and `read_direct_responses`. -/
def GpuProcessor.readResponses (report : WgpuReport) (memory : ProcessorMemory)
    (requestCount : Nat) : Outcome (List (List UInt8)) := do
  let responseMetaCopyBytes := requestCount * metaBytes
  let outputCopyBytes := requestCount * processor.responseStrideWords * 4
  if direct then
    report.awaitDirect
    decodeResponseBytes processor.responseStrideWords (responseMetaData memory requestCount)
      (outputData memory (requestCount * processor.responseStrideWords)) 0 requestCount
  else
    report.awaitReadback
    let data ← slice memory.readback 0 (responseMetaCopyBytes + outputCopyBytes)
    decodeResponseBytes processor.responseStrideWords (data.take responseMetaCopyBytes)
      (data.drop responseMetaCopyBytes) 0 requestCount

/-- `process_gpu_batch`: the device afterwards, and the responses. -/
def GpuProcessor.processGpuBatch (memory : ProcessorMemory) (requests : List (List UInt8)) :
    ProcessorMemory × Outcome (List (List UInt8)) :=
  if requests = [] then (memory, .ok [])
  else if requests.length > processor.maxBatchSize then
    (memory, .err (s!"batch contains {requests.length} requests; GPU capacity is " ++
      s!"{processor.maxBatchSize}"))
  else
    match processor.prepare requests with
    | .ok (metadata, words, params) =>
        match processor.submit buffers direct order memory metadata words params requests.length with
        | .ok memory =>
            (memory, processor.readResponses direct (reports memory requests.length) memory
              requests.length)
        | .err message => (memory, .err message)
        | .panic => (memory, .panic)
    | .err message => (memory, .err message)
    | .panic => (memory, .panic)

/-- Batches one after the other. -/
def GpuProcessor.processBatches (memory : ProcessorMemory) :
    List (List (List UInt8)) → ProcessorMemory × List (Outcome (List (List UInt8)))
  | [] => (memory, [])
  | requests :: rest =>
      let (memory, result) := processor.processGpuBatch buffers direct order reports memory requests
      let (memory, later) := processBatches memory rest
      (memory, result :: later)

end Processor

section ReadBack

variable {memory : ProcessorMemory} {count i : Nat}

theorem responseMetaData_length (memory : ProcessorMemory) (count : Nat) :
    (responseMetaData memory count).length = count * metaBytes := by
  rw [responseMetaData, toBytes_length, List.length_flatMap]
  simp [metaBytes]
  omega

theorem outputData_length (memory : ProcessorMemory) (count : Nat) :
    (outputData memory count).length = count * 4 := by
  rw [outputData, toBytes_length, List.length_map, List.length_range, Nat.mul_comm]

/-- The words of the metadata, row by row. -/
theorem metaWords_getElem? (row : Nat → List UInt32) (hrow : ∀ i, (row i).length = 4) {k : Nat}
    (hi : i < count) (hk : k < 4) :
    ((List.range count).flatMap row)[i * 4 + k]? = (row i)[k]? := by
  induction count generalizing i with
  | zero => omega
  | succ count ih =>
      have hlength : ((List.range count).flatMap row).length = count * 4 := by
        rw [List.length_flatMap, List.map_congr_left fun i _ => hrow i]
        simp
      rw [List.range_succ, List.flatMap_append, List.flatMap_singleton]
      by_cases hlast : i = count
      · subst hlast
        rw [List.getElem?_append_right (by omega), hlength, Nat.add_sub_cancel_left]
      · rw [List.getElem?_append_left (by omega)]
        exact ih (by omega)

/-- A row of the metadata is read as it was written. -/
theorem podRead_responseMetaData (hi : i < count) :
    ∃ row, slice (responseMetaData memory count) (i * metaBytes) metaBytes = .ok row ∧
      podRead row = memory.storage.responseMeta (UInt32.ofNat i) := by
  have hlength := responseMetaData_length memory count
  have hroom : (i + 1) * metaBytes ≤ count * metaBytes := Nat.mul_le_mul_right _ hi
  rw [Nat.succ_mul] at hroom
  refine ⟨_, if_pos (by rw [hlength]; exact hroom), ?_⟩
  have hword (k : Nat) (hk : k < 4) : word (fun k =>
      (((responseMetaData memory count).drop (i * metaBytes)).take metaBytes).getD k 0) k =
      [(memory.storage.responseMeta (UInt32.ofNat i)).outputLen,
        (memory.storage.responseMeta (UInt32.ofNat i)).status,
        (memory.storage.responseMeta (UInt32.ofNat i)).flags,
        memory.padding (UInt32.ofNat i)].getD k 0 := by
    apply eq_of_byteOf_eq
    intro r hr
    have hdiv : (i * metaBytes + (4 * k + r)) / 4 = i * 4 + k := by
      unfold metaBytes
      omega
    have hmod : (i * metaBytes + (4 * k + r)) % 4 = r := by
      unfold metaBytes
      omega
    rw [byteOf_word _ _ hr, List.getD_eq_getElem?_getD,
      List.getElem?_take_of_lt (by unfold metaBytes; omega), List.getElem?_drop, responseMetaData,
      toBytes_getElem?, hdiv, hmod, metaWords_getElem? _ (fun _ => rfl) hi hk,
      List.getD_eq_getElem?_getD]
    match k, hk with
    | 0, _ => rfl
    | 1, _ => rfl
    | 2, _ => rfl
    | 3, _ => rfl
  unfold podRead
  rw [hword 0 (by omega), hword 1 (by omega), hword 2 (by omega)]
  rfl

theorem slice_outputData {start len : Nat} (h : start + len ≤ count * 4) :
    slice (outputData memory count) start len =
      .ok ((List.range len).map fun k => outputByte memory.storage (start + k)) := by
  have hlength := outputData_length memory count
  rw [slice, if_pos (by omega)]
  congr 1
  apply List.ext_getElem?
  intro k
  rw [List.getElem?_map]
  by_cases hk : k < len
  · rw [List.getElem?_take_of_lt hk, List.getElem?_drop, outputData, toBytes_getElem?,
      List.getElem?_map, List.getElem?_range (by omega), List.getElem?_range hk]
    rfl
  · rw [List.getElem?_eq_none (by rw [List.length_take]; omega),
      List.getElem?_eq_none (by rw [List.length_range]; omega)]
    rfl

/-- The mapped bytes are decoded as the buffers they were copied from. -/
theorem decodeResponseBytes_eq {responseStrideWords requestIndex remaining : Nat}
    (h : requestIndex + remaining ≤ count) :
    decodeResponseBytes responseStrideWords (responseMetaData memory count)
        (outputData memory (count * responseStrideWords)) requestIndex remaining =
      decodeResponses responseStrideWords memory.storage requestIndex remaining := by
  induction remaining generalizing requestIndex with
  | zero => rfl
  | succ remaining ih =>
      obtain ⟨row, hrow, hread⟩ := @podRead_responseMetaData memory count requestIndex (by omega)
      rw [decodeResponseBytes, decodeResponses, hrow, Outcome.ok_bind, hread, ih (by omega)]
      simp only
      by_cases hflags : (memory.storage.responseMeta (UInt32.ofNat requestIndex)).flags = 0
      swap
      · rw [Outcome.ensure_of_not _ hflags]
        rfl
      rw [Outcome.ensure_of _ hflags, Outcome.ok_bind, Outcome.ok_bind]
      by_cases hlen : (memory.storage.responseMeta (UInt32.ofNat requestIndex)).outputLen.toNat ≠ 0 ∧
          (memory.storage.responseMeta (UInt32.ofNat requestIndex)).outputLen.toNat ≤
            responseStrideWords * 4
      swap
      · rw [Outcome.ensure_of_not _ hlen]
        rfl
      have hroom : (requestIndex + 1) * (responseStrideWords * 4) ≤
          count * (responseStrideWords * 4) := Nat.mul_le_mul_right _ (by omega)
      rw [Nat.succ_mul, ← Nat.mul_assoc count] at hroom
      rw [Outcome.ensure_of _ hlen, Outcome.ok_bind, Outcome.ok_bind,
        slice_outputData (by have := hlen.2; omega), Outcome.ok_bind]

end ReadBack

/-- The answer of the device to a request. -/
def Answer (router : CompiledRouter) (assets : ShaderAssets) (request bytes : List UInt8) : Prop :=
  ∃ parse, ShaderParse request parse ∧
    responseMeaning (withTexts router assets.texts) parse.parts request.length
      (router.responseTo parse) = .ok bytes

section Answers

variable {source : Router} {router : CompiledRouter} {assets : ShaderAssets}
  {request bytes : List UInt8}

theorem ShaderParse.unique {parse parse' : RequestParse} (h : ShaderParse request parse)
    (h' : ShaderParse request parse') : parse = parse' := by
  have hget : (ascii "GET ").length = 4 := by decide
  have long (hmethod : ascii "GET " <+: request) : 4 ≤ request.length := hget ▸ hmethod.length_le
  cases h with
  | short hshort =>
      cases h' with
      | short => rfl
      | otherMethod hlen => omega
      | badTarget => rfl
      | get hmethod =>
          have := long hmethod
          omega
  | otherMethod hlen hother =>
      cases h' with
      | short hshort => omega
      | otherMethod => rfl
      | badTarget hmethod => exact absurd hmethod hother
      | get hmethod => exact absurd hmethod hother
  | badTarget hmethod hnone =>
      cases h' with
      | short => rfl
      | otherMethod _ hother => exact absurd hmethod hother
      | badTarget => rfl
      | get _ htarget => exact absurd htarget (hnone _)
  | get hmethod htarget =>
      cases h' with
      | short hshort =>
          have := long hmethod
          omega
      | otherMethod _ hother => exact absurd hmethod hother
      | badTarget _ hnone => exact absurd htarget (hnone _)
      | get _ htarget' => rw [htarget.unique htarget']

theorem shaderParse_exists (request : List UInt8) : ∃ parse, ShaderParse request parse := by
  by_cases hlen : request.length < 4
  · exact ⟨_, .short hlen⟩
  by_cases hmethod : ascii "GET " <+: request
  swap
  · exact ⟨_, .otherMethod (by omega) hmethod⟩
  by_cases htarget : ∃ target, TargetLine (request.drop 4) target
  · obtain ⟨target, htarget⟩ := htarget
    exact ⟨_, .get hmethod htarget⟩
  · exact ⟨_, .badTarget hmethod (not_exists.mp htarget)⟩

/-- A request has one answer. -/
theorem Answer.unique {other : List UInt8} (h : Answer router assets request bytes)
    (hother : Answer router assets request other) : bytes = other := by
  obtain ⟨parse, hparse, hmeaning⟩ := h
  obtain ⟨parse', hparse', hmeaning'⟩ := hother
  obtain rfl := hparse.unique hparse'
  exact Outcome.ok.inj (hmeaning.symm.trans hmeaning')

/-- The answers as a function of the request. -/
theorem exists_answer (router : CompiledRouter) (assets : ShaderAssets) :
    ∃ answer : List UInt8 → List UInt8, ∀ request bytes, Answer router assets request bytes →
      answer request = bytes := by
  classical
  refine ⟨fun request => if h : ∃ bytes, Answer router assets request bytes then h.choose else [],
    fun request bytes h => ?_⟩
  have hexists : ∃ bytes, Answer router assets request bytes := ⟨bytes, h⟩
  exact (dif_pos hexists).trans (hexists.choose_spec.unique h)

/-- However a request is parsed, its response is compiled from a declared one. -/
theorem ShaderParse.responseFor (hcompile : compile source = .ok router) {parse : RequestParse}
    (h : ShaderParse request parse) :
    ResponseFor router.strings (source.responseTo parse) (router.responseTo parse) := by
  have hfrom := compiledFrom_compile hcompile
  cases h with
  | short => exact hfrom.responses _ _ .badRequest
  | otherMethod => exact hfrom.responses _ _ .methodNotAllowed
  | badTarget => exact hfrom.responses _ _ .badRequest
  | @get target => exact (selects_responseTo hcompile _ (splitTarget target).2).responseFor hcompile

/-- A request has an answer, which is a built response. -/
theorem exists_answer_built (hcompile : compile source = .ok router)
    (hassets : buildShaderAssets router = .ok assets) (request : List UInt8) :
    ∃ (status : UInt16) (reason contentType body : List UInt8),
      HeaderValue reason ∧ HeaderValue contentType ∧
      Answer router assets request (buildResponse status reason contentType body (ascii "gpu")) := by
  obtain ⟨parse, hparse⟩ := shaderParse_exists request
  have hfor := hparse.responseFor hcompile
  exact ⟨_, _, _, _, hfor.reasonValue, hfor.contentTypeValue, parse, hparse,
    responseMeaning_arena hcompile hassets hfor _ _⟩

/-- A request that both sides sort into the same case is answered as on the host,
unless a segment of the response is the header tail. -/
theorem answer_routeRequest (hcompile : compile source = .ok router)
    (hassets : buildShaderAssets router = .ok assets) (hlen : 4 ≤ request.length)
    (hsame : SameCase request)
    (hkeeps : ∀ segment ∈ (source.responseTo (parseRequest request)).body.segments,
      ¬ segment.WritesTail) :
    ∃ bytes, Answer router assets request bytes ∧
      router.routeRequest request (ascii "gpu") = .ok bytes := by
  obtain ⟨parse, hparse⟩ := shaderParse_exists request
  obtain rfl := (shaderParse_eq_iff hlen hparse).mpr hsame
  have hfor := responseFor_responseTo hcompile request
  refine ⟨_, ⟨_, hparse, responseMeaning_arena hcompile hassets hfor _ _⟩, ?_⟩
  rw [router.routeRequest_parse request (ascii "gpu"), hfor.renderResponse]
  rcases arenaMeaning_cases (parseRequest request).parts request.length
      (source.responseTo (parseRequest request)).body.segments with
    ⟨-, hbody⟩ | ⟨⟨segment, hmem, htail⟩, -⟩
  · rw [hbody]
  · exact absurd htail (hkeeps segment hmem)

end Answers

/-- The message about a request that does not fit its slot. -/
def tooLongMessage (requestIndex len capacity : Nat) : String :=
  s!"request {requestIndex} is {len} bytes; GPU slot capacity is " ++ s!"{capacity}"

/-- What a batch comes to when every request has its answer. -/
def batchOutcome (processor : GpuProcessor) (answer : List UInt8 → List UInt8)
    (requests : List (List UInt8)) : Outcome (List (List UInt8)) :=
  if requests.length > processor.maxBatchSize then
    .err (s!"batch contains {requests.length} requests; GPU capacity is " ++
      s!"{processor.maxBatchSize}")
  else
    match requests.findIdx? fun request => processor.maxRequestBytes < request.length with
    | some i => .err (tooLongMessage i (requests.getD i []).length processor.maxRequestBytes)
    | none => .ok (requests.map answer)

/-- A device between batches: the strings and the bytecode are uploaded, and the
readback buffer has its size. -/
structure ProcessorMemory.Ready (router : CompiledRouter) (assets : ShaderAssets)
    (buffers : ProcessorBuffers) (memory : ProcessorMemory) : Prop where
  uploaded : Uploaded router assets memory.bindings
  readback : memory.readback.length = buffers.readbackBytes

/-- What the start of a processor has checked and computed. -/
structure Started (config : ServerConfig) (router : CompiledRouter) (processor : GpuProcessor)
    (buffers : ProcessorBuffers) : Prop where
  valid : config.validate = .ok ()
  built : fromCompiled config router = .ok processor
  created : createBuffers processor = .ok buffers

section Batches

variable {config : ServerConfig} {source : Router} {router : CompiledRouter}
  {assets : ShaderAssets} {processor : GpuProcessor} {buffers : ProcessorBuffers}
  {order : DispatchOrder} {reports : WgpuReports} {memory : ProcessorMemory}
  {requests : List (List UInt8)}

/-- Packing stops at the first request that is too long. -/
theorem packRequestBatch_tooLong {maxRequestBytes i : Nat} (hmax : maxRequestBytes ≤ u32Max)
    {requests : List (List UInt8)}
    (hfirst : requests.findIdx? (fun request => maxRequestBytes < request.length) = some i) :
    ∀ {metadata : List RequestMeta} {words : List UInt32},
      words.length + requests.length * ((maxRequestBytes + 3) / 4) ≤ u32Max →
      packRequestBatch maxRequestBytes metadata words requests =
        .err (tooLongMessage (metadata.length + i) (requests.getD i []).length maxRequestBytes) := by
  induction requests generalizing i with
  | nil => simp at hfirst
  | cons request requests ih =>
      intro metadata words hroom
      rw [List.length_cons, Nat.succ_mul] at hroom
      rw [List.findIdx?_cons] at hfirst
      rw [packRequestBatch]
      by_cases hlong : maxRequestBytes < request.length
      · rw [if_pos (by simpa using hlong)] at hfirst
        cases hfirst
        rw [Outcome.ensure_of_not _ (Nat.not_le.mpr hlong)]
        rfl
      · rw [if_neg (by simpa using hlong)] at hfirst
        obtain ⟨j, hj, rfl⟩ := Option.map_eq_some_iff.mp hfirst
        have hwordsFor : wordsForBytes request.length = .ok ((request.length + 3) / 4) := by
          unfold u32Max at hmax
          rw [wordsForBytes, Outcome.ensure_of _ (by omega)]
          rfl
        have hrest := @ih j hj (metadata ++ [⟨UInt32.ofNat request.length,
          UInt32.ofNat words.length⟩]) (words ++ ofBytes request) (by
            rw [List.length_append, ofBytes_length]
            omega)
        rw [Outcome.ensure_of _ (Nat.not_lt.mp hlong), Outcome.ok_bind, hwordsFor, Outcome.ok_bind,
          Outcome.ensure_of _ (show request.length ≤ u32Max by omega), Outcome.ok_bind,
          Outcome.ensure_of _ (show words.length ≤ u32Max by omega), Outcome.ok_bind]
        simp only
        rw [hrest, List.length_append, List.length_singleton, List.getD_cons_succ,
          Nat.add_right_comm, Nat.add_assoc metadata.length]

/-- The sizes of a processor that has started. -/
theorem Started.sizes (h : Started config router processor buffers) :
    validateGpuResponseSlot router config.responseSlotBytes = .ok () ∧
      processor.maxBatchSize = config.batchSize ∧
      processor.maxRequestBytes = config.maxRequestBytes ∧
      buffers.requestMetaBytes = config.batchSize * metaBytes ∧
      buffers.inputBytes = config.batchSize * ((config.maxRequestBytes + 3) / 4 * 4) ∧
      buffers.responseMetaBytes = config.batchSize * metaBytes ∧
      buffers.outputBytes = config.batchSize * (processor.responseStrideWords * 4) ∧
      buffers.readbackBytes = buffers.responseMetaBytes + buffers.outputBytes := by
  have sized {label : String} {count stride bytes : Nat}
      (hbytes : checkedBufferBytes label count stride = .ok bytes) : bytes = count * stride := by
    obtain ⟨_, -, hbytes⟩ := Outcome.bind_eq_ok.mp hbytes
    exact (Outcome.ok.inj hbytes).symm
  have words {bytes result : Nat} (hwords : wordsForBytes bytes = .ok result) :
      result = (bytes + 3) / 4 := by
    obtain ⟨_, -, hwords⟩ := Outcome.bind_eq_ok.mp hwords
    exact (Outcome.ok.inj hwords).symm
  obtain ⟨_, hslot, hbuilt⟩ := Outcome.bind_eq_ok.mp h.built
  obtain ⟨requestStride, hrequest, hbuilt⟩ := Outcome.bind_eq_ok.mp hbuilt
  obtain ⟨responseStride, -, hbuilt⟩ := Outcome.bind_eq_ok.mp hbuilt
  cases hbuilt
  obtain ⟨requestMetaBytes, hrequestMeta, hcreated⟩ := Outcome.bind_eq_ok.mp h.created
  obtain ⟨inputBytes, hinput, hcreated⟩ := Outcome.bind_eq_ok.mp hcreated
  obtain ⟨responseMetaBytes, hresponseMeta, hcreated⟩ := Outcome.bind_eq_ok.mp hcreated
  obtain ⟨outputBytes, houtput, hcreated⟩ := Outcome.bind_eq_ok.mp hcreated
  obtain ⟨_, -, hcreated⟩ := Outcome.bind_eq_ok.mp hcreated
  cases hcreated
  refine ⟨hslot, rfl, rfl, sized hrequestMeta, ?_, sized hresponseMeta, sized houtput, rfl⟩
  rw [← words hrequest]
  exact sized hinput

theorem batch_pos_of_validate (h : config.validate = .ok ()) : 1 ≤ config.batchSize := by
  obtain ⟨_, hone, -⟩ := Outcome.bind_eq_ok.mp h
  exact Nat.pos_of_ne_zero (Outcome.ensure_eq_ok.mp hone)

/-- A checked configuration starts a processor for a router whose responses fit. -/
theorem exists_started (hvalid : config.validate = .ok ())
    (hslot : validateGpuResponseSlot router config.responseSlotBytes = .ok ()) :
    ∃ processor buffers, Started config router processor buffers := by
  have hone := batch_pos_of_validate hvalid
  have hadmitted : Admitted config router (List.replicate config.batchSize []) := by
    refine ⟨hvalid, hslot, ?_, ?_, fun request hmem => ?_⟩
    · rwa [List.length_replicate]
    · rw [List.length_replicate]
    · rw [List.eq_of_mem_replicate hmem]
      exact Nat.zero_le _
  have hcount := hadmitted.sizes.count
  have hrequests := hadmitted.sizes.requestWords
  have hresponses := hadmitted.sizes.responseWords
  have hrequest := wordsForBytes_of_le hadmitted.sizes.requestBytes
  have hresponse := wordsForBytes_of_le hadmitted.sizes.responseBytes
  rw [List.length_replicate] at hcount hrequests hresponses
  rw [Nat.mul_assoc] at hrequests hresponses
  have htotal : maxTotalBufferBytes = 67108864 := by decide
  have hrows : config.batchSize * metaBytes < 2 ^ 64 := by
    unfold metaBytes
    unfold u32Max at hcount
    omega
  have hinput : config.batchSize * ((config.maxRequestBytes + 3) / 4 * 4) < 2 ^ 64 := by omega
  have houtput : config.batchSize * ((router.maxGpuResponseBytes + 3) / 4 * 4) < 2 ^ 64 := by
    omega
  have hreadback : config.batchSize * metaBytes +
      config.batchSize * ((router.maxGpuResponseBytes + 3) / 4 * 4) < 2 ^ 64 := by
    unfold metaBytes
    unfold u32Max at hcount
    omega
  have sized {label : String} {stride : Nat} (h : config.batchSize * stride < 2 ^ 64) :
      checkedBufferBytes label config.batchSize stride = .ok (config.batchSize * stride) :=
    Outcome.bind_eq_ok.mpr ⟨_, Outcome.ensure_of _ h, rfl⟩
  refine ⟨_, _, hvalid, Outcome.bind_eq_ok.mpr ⟨_, hslot, Outcome.bind_eq_ok.mpr ⟨_, hrequest,
    Outcome.bind_eq_ok.mpr ⟨_, hresponse, rfl⟩⟩⟩, Outcome.bind_eq_ok.mpr ⟨_, sized hrows,
    Outcome.bind_eq_ok.mpr ⟨_, sized hinput, Outcome.bind_eq_ok.mpr ⟨_, sized hrows,
    Outcome.bind_eq_ok.mpr ⟨_, sized houtput, Outcome.bind_eq_ok.mpr ⟨_,
    Outcome.ensure_of _ hreadback, rfl⟩⟩⟩⟩⟩⟩

/-- The copies of a batch leave its bytes at the start of the readback buffer. -/
theorem copyBuffer_twice {destination first second : List UInt8}
    (h : first.length + second.length ≤ destination.length) :
    ∃ copied, (do
        let readback ← copyBuffer destination 0 first
        copyBuffer readback first.length second) = .ok copied ∧
      copied.length = destination.length ∧
      slice copied 0 (first.length + second.length) = .ok (first ++ second) := by
  have hfirst : copyBuffer destination 0 first =
      .ok (first ++ destination.drop first.length) := by
    rw [copyBuffer, if_pos (by omega), List.take_zero, List.nil_append, Nat.zero_add]
  have hlength : (first ++ destination.drop first.length).length = destination.length := by
    rw [List.length_append, List.length_drop]
    omega
  have hsecond : copyBuffer (first ++ destination.drop first.length) first.length second =
      .ok (first ++ second ++ (destination.drop first.length).drop second.length) := by
    rw [copyBuffer, if_pos (by omega), List.take_left, ← List.drop_drop, List.drop_left]
  refine ⟨_, Outcome.bind_eq_ok.mpr ⟨_, hfirst, hsecond⟩, ?_, ?_⟩
  · rw [List.length_append, List.length_append, List.length_drop, List.length_drop]
    omega
  · rw [slice, if_pos (by
      rw [List.length_append, List.length_append, List.length_drop, List.length_drop]
      omega), List.drop_zero, ← List.length_append, List.take_left]

/-- A report without a failure. -/
def cleanReport : WgpuReport where
  polled := true
  readback := ⟨true, none, true⟩
  responseMeta := ⟨true, none, true⟩
  output := ⟨true, none, true⟩

theorem cleanReport_succeeds : WgpuReports.Succeed fun _ _ => cleanReport :=
  fun _ _ => ⟨rfl, ⟨rfl, rfl, rfl⟩, ⟨rfl, rfl, rfl⟩, rfl, rfl, rfl⟩

theorem awaitReadback_ok (succeed : reports.Succeed) (memory : ProcessorMemory)
    (requestCount : Nat) : (reports memory requestCount).awaitReadback = .ok () := by
  obtain ⟨hpolled, ⟨hcallback, herror, hrange⟩, -, -⟩ := succeed memory requestCount
  simp [WgpuReport.awaitReadback, MapReport.mapped, Outcome.ensure, hpolled, hcallback, herror,
    hrange]

theorem awaitDirect_ok (succeed : reports.Succeed) (memory : ProcessorMemory)
    (requestCount : Nat) : (reports memory requestCount).awaitDirect = .ok () := by
  obtain ⟨hpolled, -, ⟨hmeta, hmetaError, hmetaRange⟩, hout, houtError, houtRange⟩ :=
    succeed memory requestCount
  simp [WgpuReport.awaitDirect, MapReport.mapped, Outcome.ensure, hpolled, hmeta, hmetaError,
    hmetaRange, hout, houtError, houtRange]

/-- An admitted batch is dispatched, and the bytes that are read back for it are
those the shader left. -/
theorem submit_spec {direct : Bool} (started : Started config router processor buffers)
    (complete : order.Complete) (succeed : reports.Succeed)
    (ready : memory.Ready router assets buffers)
    (hadmitted : Admitted config router requests) {metadata : List RequestMeta}
    {words : List UInt32} {params : Params}
    (hprepared : Prepared config router requests processor metadata words params) :
    ∃ memory' : ProcessorMemory,
      processor.submit buffers direct order memory metadata words params requests.length =
        .ok memory' ∧
      memory'.Ready router assets buffers ∧
      Dispatched router assets metadata words params memory'.bindings memory'.storage ∧
      processor.readResponses direct (reports memory' requests.length) memory' requests.length =
        decodeResponses processor.responseStrideWords memory'.storage 0 requests.length := by
  obtain ⟨-, hbatch, hmax, hrequestMeta, hinput, hresponseMeta, houtput, hreadback⟩ :=
    started.sizes
  obtain ⟨_, _, rfl, rfl, hmetaLength, hwordsLength, -⟩ := packRequestBatch_spec hprepared.packed
  have hcount := hadmitted.count
  have hrequestCount := (hprepared.presentable hadmitted).count
  have hrows : requests.length * metaBytes ≤ config.batchSize * metaBytes :=
    Nat.mul_le_mul_right _ hcount
  have hwords : requests.length * ((config.maxRequestBytes + 3) / 4 * 4) ≤
      config.batchSize * ((config.maxRequestBytes + 3) / 4 * 4) := Nat.mul_le_mul_right _ hcount
  have hslots : requests.length * (processor.responseStrideWords * 4) ≤
      config.batchSize * (processor.responseStrideWords * 4) := Nat.mul_le_mul_right _ hcount
  rw [hmax] at hwordsLength
  rw [← Nat.mul_assoc] at hwords hslots
  let bindings : Bindings := { memory.bindings with
    params := params
    requestMeta := upload metadata memory.bindings.requestMeta
    inputWords := upload words memory.bindings.inputWords }
  let storage := dispatch bindings (order memory requests.length) memory.storage
  let middle : ProcessorMemory := { memory with bindings := bindings, storage := storage }
  have huploaded : Uploaded router assets bindings :=
    ⟨ready.uploaded.ids, ready.uploaded.stringMeta, ready.uploaded.stringWords,
      ready.uploaded.routerWords, ready.uploaded.arena⟩
  have hdispatched : Dispatched router assets metadata words params bindings storage := by
    refine ⟨huploaded, rfl, stores_upload _ _, stores_upload _ _, _, memory.storage, ?_, rfl⟩
    rw [hrequestCount]
    exact complete memory requests.length
  have hdecoded := @decodeResponseBytes_eq middle requests.length processor.responseStrideWords 0
    requests.length (by omega)
  unfold GpuProcessor.submit GpuProcessor.readResponses
  rw [transfer_of_le (by rw [hmetaLength, hrequestMeta]; exact hrows), Outcome.ok_bind,
    transfer_of_le (by rw [hinput]; omega), Outcome.ok_bind]
  simp only
  rw [transfer_of_le (by rw [hresponseMeta]; exact hrows), Outcome.ok_bind,
    transfer_of_le (by rw [houtput]; exact hslots), Outcome.ok_bind]
  cases direct with
  | true =>
      refine ⟨middle, rfl, ⟨huploaded, ready.readback⟩, hdispatched, ?_⟩
      simp only [if_true]
      rw [awaitDirect_ok succeed, Outcome.ok_bind]
      exact hdecoded
  | false =>
      have hmetaData := responseMetaData_length middle requests.length
      have houtputData :=
        outputData_length middle (requests.length * processor.responseStrideWords)
      obtain ⟨copied, hcopied, hlength, hslice⟩ := @copyBuffer_twice memory.readback
        (responseMetaData middle requests.length)
        (outputData middle (requests.length * processor.responseStrideWords)) (by
          rw [hmetaData, houtputData, ready.readback, hreadback, hresponseMeta, houtput]
          omega)
      rw [hmetaData, houtputData] at hslice
      rw [hmetaData] at hcopied
      refine ⟨{ middle with readback := copied }, ?_, ⟨huploaded, hlength.trans ready.readback⟩,
        hdispatched, ?_⟩
      · obtain ⟨first, hfirst, hsecond⟩ := Outcome.bind_eq_ok.mp hcopied
        exact Outcome.bind_eq_ok.mpr ⟨first, hfirst, Outcome.bind_eq_ok.mpr ⟨_, hsecond, rfl⟩⟩
      · simp only [Bool.false_eq_true, if_false]
        rw [awaitReadback_ok succeed, Outcome.ok_bind, hslice, Outcome.ok_bind, ← hmetaData,
          List.take_left, List.drop_left]
        exact hdecoded

/-- An answer fits the configured slot, in whole words. -/
theorem answer_length_le (hcompile : compile source = .ok router)
    (hassets : buildShaderAssets router = .ok assets)
    (started : Started config router processor buffers) (complete : order.Complete)
    (ready : memory.Ready router assets buffers) {request bytes : List UInt8}
    (hrequest : request.length ≤ config.maxRequestBytes) (h : Answer router assets request bytes) :
    bytes.length ≤ (config.responseSlotBytes + 3) / 4 * 4 := by
  obtain ⟨hslot, -⟩ := started.sizes
  have hone := batch_pos_of_validate started.valid
  have hadmitted : Admitted config router [request] :=
    ⟨started.valid, hslot, Nat.le_refl 1, hone, fun other hmem => by
      rwa [List.mem_singleton.mp hmem]⟩
  obtain ⟨processor', metadata, words, params, hprepared, hpresentable⟩ := hadmitted.prepared
  obtain rfl := Outcome.ok.inj (hprepared.built.symm.trans started.built)
  obtain ⟨memory', -, -, hdispatched, -⟩ :=
    @submit_spec config router assets processor' buffers order (fun _ _ => cleanReport) memory
      [request] true started complete cleanReport_succeeds ready hadmitted metadata words params
      hprepared
  obtain ⟨parse, bytes', hparse, -, hmeaning, -, hle, -⟩ :=
    hdispatched.responded (isCompiled_compile hcompile) hassets hadmitted hpresentable
      (show [request][0]? = some request from rfl)
  obtain rfl := h.unique ⟨parse, hparse, hmeaning⟩
  have hlargest : router.maxGpuResponseBytes ≤ config.responseSlotBytes :=
    Outcome.ensure_eq_ok.mp hslot
  rw [hpresentable.slot] at hle
  omega

/-- A batch comes to its outcome, whatever the buffers hold, and leaves the device
ready. -/
theorem processGpuBatch_eq {direct : Bool} (hcompile : compile source = .ok router)
    (hassets : buildShaderAssets router = .ok assets)
    (started : Started config router processor buffers) (complete : order.Complete)
    (succeed : reports.Succeed) {answer : List UInt8 → List UInt8}
    (hanswer : ∀ request bytes, Answer router assets request bytes → answer request = bytes)
    (ready : memory.Ready router assets buffers) (requests : List (List UInt8)) :
    (processor.processGpuBatch buffers direct order reports memory requests).2 =
        batchOutcome processor answer requests ∧
      (processor.processGpuBatch buffers direct order reports memory requests).1.Ready router assets
        buffers := by
  obtain ⟨hslot, hbatch, hmax, -⟩ := started.sizes
  have hsized := ServerConfig.sized started.valid
  unfold GpuProcessor.processGpuBatch batchOutcome
  by_cases hempty : requests = []
  · subst hempty
    exact ⟨rfl, ready⟩
  rw [if_neg hempty]
  by_cases hmany : requests.length > processor.maxBatchSize
  · rw [if_pos hmany, if_pos hmany]
    exact ⟨rfl, ready⟩
  rw [if_neg hmany, if_neg hmany]
  have hcount : requests.length ≤ config.batchSize := hbatch ▸ Nat.not_lt.mp hmany
  have hone := List.length_pos_iff.mpr hempty
  cases hfirst : requests.findIdx? fun request => processor.maxRequestBytes < request.length with
  | some i =>
      have hrequests := hsized.requests
      have hwords : requests.length * ((config.maxRequestBytes + 3) / 4 * 4) ≤
          config.batchSize * ((config.maxRequestBytes + 3) / 4 * 4) := Nat.mul_le_mul_right _ hcount
      have hmin : 1 * ((config.maxRequestBytes + 3) / 4 * 4) ≤
          requests.length * ((config.maxRequestBytes + 3) / 4 * 4) := Nat.mul_le_mul_right _ hone
      have hassoc := Nat.mul_assoc requests.length ((config.maxRequestBytes + 3) / 4) 4
      unfold maxTotalBufferBytes at hrequests
      have hpack := @packRequestBatch_tooLong processor.maxRequestBytes i (by
        unfold u32Max
        omega) requests hfirst [] [] (by
        rw [hmax, List.length_nil]
        unfold u32Max
        omega)
      rw [List.length_nil, Nat.zero_add] at hpack
      rw [GpuProcessor.prepare, hpack]
      exact ⟨rfl, ready⟩
  | none =>
      have hbytes : ∀ request ∈ requests, request.length ≤ config.maxRequestBytes := by
        intro request hmem
        have hshort := List.findIdx?_eq_none_iff.mp hfirst request hmem
        rw [← hmax]
        simpa using hshort
      have hadmitted : Admitted config router requests :=
        ⟨started.valid, hslot, hone, hcount, hbytes⟩
      obtain ⟨processor', metadata, words, params, hprepared, hpresentable⟩ := hadmitted.prepared
      obtain rfl := Outcome.ok.inj (hprepared.built.symm.trans started.built)
      obtain ⟨memory', hsubmit, ready', hdispatched, hread⟩ :=
        submit_spec started complete succeed ready hadmitted hprepared
      have hprepare : processor'.prepare requests = .ok (metadata, words, params) :=
        Outcome.bind_eq_ok.mpr ⟨_, hprepared.packed,
          Outcome.bind_eq_ok.mpr ⟨_, hprepared.batch, rfl⟩⟩
      rw [hprepare]
      simp only
      rw [hsubmit]
      simp only
      refine ⟨?_, ready'⟩
      have hresponded (i : Nat) (hi : i < requests.length) :=
        hdispatched.responded (isCompiled_compile hcompile) hassets hadmitted hpresentable
          (List.getElem?_eq_getElem hi)
      have hdecoded := @decodeResponses_eq params memory'.storage 0 requests.length fun i _ hi => by
        obtain ⟨_, bytes, -, -, -, hpos, hle, hslot⟩ := hresponded i (by omega)
        have hlen := hslot.outputLen
        rw [hpresentable.stride]
        exact ⟨hslot.flags, by omega, by omega⟩
      rw [hpresentable.stride] at hdecoded
      rw [hread, hdecoded]
      congr 1
      apply List.ext_getElem
      · rw [List.length_map, List.length_map, List.length_range']
      · intro i hi hi'
        rw [List.length_map] at hi'
        obtain ⟨parse, bytes, hparse, -, hmeaning, -, -, hslot⟩ := hresponded i hi'
        rw [List.getElem_map, List.getElem_map, List.getElem_range', Nat.zero_add, Nat.one_mul,
          hslot.slotBytes_eq, hanswer _ bytes ⟨parse, hparse, hmeaning⟩]

/-- So do batches one after the other. -/
theorem processBatches_eq {direct : Bool} (hcompile : compile source = .ok router)
    (hassets : buildShaderAssets router = .ok assets)
    (started : Started config router processor buffers) (complete : order.Complete)
    (succeed : reports.Succeed) {answer : List UInt8 → List UInt8}
    (hanswer : ∀ request bytes, Answer router assets request bytes → answer request = bytes)
    (batches : List (List (List UInt8))) {memory : ProcessorMemory}
    (ready : memory.Ready router assets buffers) :
    (processor.processBatches buffers direct order reports memory batches).2 =
      batches.map (batchOutcome processor answer) := by
  induction batches generalizing memory with
  | nil => rfl
  | cons requests batches ih =>
      have hfirst : (processor.processGpuBatch buffers direct order reports memory requests).2 = _ ∧ _ :=
        processGpuBatch_eq hcompile hassets started complete succeed hanswer ready requests
      obtain ⟨hfirst, hready⟩ := hfirst
      rw [GpuProcessor.processBatches, List.map_cons, ← hfirst, ← ih hready]

/-- **A request has one answer.**  For a router that compiles and a configuration that
is checked, there is one answer to every request: over any sequence of batches,
whatever the buffers hold, in whatever order the invocations of a batch run and
whichever way the responses come back, while wgpu reports no failure, a batch is
refused for its size or for its first request that is too long, and otherwise every
request of it gets its answer.  To a request of at least four bytes, where the two
sides agree, that is what `route_request` answers. -/
theorem batches_answered (hcompile : compile source = .ok router)
    (hassets : buildShaderAssets router = .ok assets)
    (started : Started config router processor buffers) :
    ∃ answer : List UInt8 → List UInt8,
      (∀ (direct : Bool) (order : DispatchOrder) (reports : WgpuReports)
        (memory : ProcessorMemory), order.Complete → reports.Succeed →
        memory.Ready router assets buffers → ∀ batches : List (List (List UInt8)),
        (processor.processBatches buffers direct order reports memory batches).2 =
          batches.map (batchOutcome processor answer)) ∧
      ∀ request : List UInt8, 4 ≤ request.length → SameCase request →
        (∀ segment ∈ (source.responseTo (parseRequest request)).body.segments,
          ¬ segment.WritesTail) →
        router.routeRequest request (ascii "gpu") = .ok (answer request) := by
  obtain ⟨answer, hanswer⟩ := exists_answer router assets
  refine ⟨answer, fun direct order reports memory complete succeed ready batches =>
    processBatches_eq hcompile hassets started complete succeed hanswer batches ready, ?_⟩
  intro request hlen hsame hkeeps
  obtain ⟨bytes, h, hhost⟩ := answer_routeRequest hcompile hassets hlen hsame hkeeps
  rw [hanswer request bytes h]
  exact hhost

/-- The memory of a processor that has started. -/
def startedMemory (router : CompiledRouter) (assets : ShaderAssets)
    (buffers : ProcessorBuffers) : ProcessorMemory where
  bindings := bindingsOf router assets ⟨0, 0, 0, 0, 0, 0, 0⟩ [] []
  storage := ⟨fun _ => ⟨0, 0, 0⟩, fun _ => 0⟩
  padding := fun _ => 0
  readback := List.replicate buffers.readbackBytes 0

theorem ready_startedMemory (harena : assets.byteLen ≤ 2 ^ 32) :
    (startedMemory router assets buffers).Ready router assets buffers :=
  ⟨uploaded_bindingsOf harena _ _ _, List.length_replicate⟩

end Batches

/-- Host and shader sort the request for the root alike. -/
theorem sameCase_root : SameCase (getRequest (ascii "/") []) := by
  have hform := describes_getRequest (show GoodPath (ascii "/") from ⟨rfl, by decide, by decide,
    by decide⟩) (Or.inl ⟨rfl, rfl⟩)
  obtain ⟨hget, hline⟩ := targetLine_of_describes hform
  refine ⟨fun _ target htarget => ?_, fun hnot => absurd hget hnot⟩
  obtain rfl := htarget.unique hline
  exact hform.target_free.2

/-- The same request alone and behind one that is no request, with the invocations
run backwards. -/
theorem batches_answered_twice :
    ∃ router assets processor buffers bogus root,
      compile Router.new = .ok router ∧
      Started ServerConfig.default router processor buffers ∧
      router.routeRequest (getRequest (ascii "/") []) (ascii "gpu") = .ok root ∧
      (processor.processBatches buffers false (fun _ count => (invocations count).reverse)
          (fun _ _ => cleanReport) (startedMemory router assets buffers)
          [[getRequest (ascii "/") []], [],
            [bogusRequest, getRequest (ascii "/") []]]).2 =
        [.ok [root], .ok [], .ok [bogus, root]] := by
  obtain ⟨router, hcompile, hrun⟩ := Outcome.bind_eq_ok.mp new_fits
  obtain ⟨assets, hassets, hrun⟩ := Outcome.bind_eq_ok.mp hrun
  obtain ⟨harena, hslot⟩ := Outcome.ensure_eq_ok.mp hrun
  obtain ⟨processor, buffers, started⟩ := exists_started ServerConfig.default_valid hslot
  obtain ⟨answer, hall, hhost⟩ := batches_answered hcompile hassets started
  obtain ⟨-, hbatch, hmax, -⟩ := started.sizes
  refine ⟨router, assets, processor, buffers, answer bogusRequest,
    answer (getRequest (ascii "/") []), hcompile, started,
    hhost _ (by decide) sameCase_root (by decide), ?_⟩
  rw [hall false _ _ _ (fun _ _ => List.reverse_perm _) cleanReport_succeeds
    (ready_startedMemory harena)]
  unfold batchOutcome
  rw [hbatch, hmax]
  rfl

end Shader
end Http
end Gput
