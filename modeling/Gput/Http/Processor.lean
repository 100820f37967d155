import Gput.Http.Shader

/-!
# The GPU processor

The host side of a batch: `ServerConfig::validate`, the sizes `GpuProcessor`
computes, `pack_request_batch`, and `decode_responses`.  The device is what runs
the shader between the last two.
-/

namespace Gput
namespace Http

open LittleEndian WordMemory

def maxTotalBufferBytes : Nat := 64 * 1024 * 1024

/-- The fields of a configuration that are checked.  Times are counted in
nanoseconds. -/
structure ServerConfig where
  batchSize : Nat
  batchWait : Nat
  queueDepth : Nat
  maxRequestBytes : Nat
  responseSlotBytes : Nat
  maxConnections : Nat
  readTimeout : Nat
deriving DecidableEq, Repr

/-- `round_up_to_word`. -/
def roundUpToWord (value : Nat) : Outcome Nat := do
  Outcome.ensure (value + 3 < 2 ^ 64) "buffer stride overflow"
  return (value + 3) / 4 * 4

/-- `ServerConfig::validate`. -/
def ServerConfig.validate (config : ServerConfig) : Outcome Unit := do
  Outcome.ensure (config.batchSize ≠ 0) "--batch-size must be greater than zero"
  Outcome.ensure (config.batchSize ≤ u32Max) "--batch-size must fit in a u32"
  Outcome.ensure (config.batchWait ≠ 0) "--batch-wait-micros must be greater than zero"
  Outcome.ensure (config.batchSize ≤ config.queueDepth)
    "--queue-depth must be at least --batch-size"
  Outcome.ensure (16 ≤ config.maxRequestBytes) "--max-request-bytes must be at least 16"
  Outcome.ensure (minGpuResponseSlotBytes ≤ config.responseSlotBytes)
    s!"--response-slot-bytes must be at least {minGpuResponseSlotBytes}"
  Outcome.ensure (config.maxConnections ≠ 0) "--max-connections must be greater than zero"
  Outcome.ensure (config.readTimeout ≠ 0) "--read-timeout-secs must be greater than zero"
  let requestStride ← roundUpToWord config.maxRequestBytes
  let responseStride ← roundUpToWord config.responseSlotBytes
  let requestBufferBytes := config.batchSize * requestStride
  Outcome.ensure (requestBufferBytes < 2 ^ 64) "request buffer size overflow"
  let responseBufferBytes := config.batchSize * responseStride
  Outcome.ensure (responseBufferBytes < 2 ^ 64) "response buffer size overflow"
  Outcome.ensure (requestBufferBytes ≤ maxTotalBufferBytes)
    s!"configured request slots require {requestBufferBytes} bytes; limit is {maxTotalBufferBytes}"
  Outcome.ensure (responseBufferBytes ≤ maxTotalBufferBytes)
    s!"configured response slots require {responseBufferBytes} bytes; limit is {maxTotalBufferBytes}"

namespace Shader

/-- `CompiledRouter::validate_gpu_response_slot`. -/
def validateGpuResponseSlot (router : CompiledRouter) (responseSlotBytes : Nat) : Outcome Unit :=
  Outcome.ensure (router.maxGpuResponseBytes ≤ responseSlotBytes)
    (s!"router can generate responses up to {router.maxGpuResponseBytes} bytes, but the GPU " ++
      s!"response slot is {responseSlotBytes} bytes; increase --response-slot-bytes")

/-- `words_for_bytes`. -/
def wordsForBytes (bytes : Nat) : Outcome Nat := do
  Outcome.ensure (bytes + 3 < 2 ^ 64) "word stride overflow"
  return (bytes + 3) / 4

/-- What a processor keeps between batches. -/
structure GpuProcessor where
  routerLayout : GpuRouterLayout
  maxBatchSize : Nat
  maxRequestBytes : Nat
  requestStrideWords : Nat
  responseStrideWords : Nat
deriving DecidableEq, Repr

/-- The sizes `GpuProcessor::from_compiled` computes, for the limits a server
takes from its configuration. -/
def fromCompiled (config : ServerConfig) (router : CompiledRouter) : Outcome GpuProcessor := do
  validateGpuResponseSlot router config.responseSlotBytes
  let requestStrideWords ← wordsForBytes config.maxRequestBytes
  let responseStrideWords ← wordsForBytes router.maxGpuResponseBytes
  return {
    routerLayout := router.gpuLayout
    maxBatchSize := config.batchSize
    maxRequestBytes := config.maxRequestBytes
    requestStrideWords := requestStrideWords
    responseStrideWords := responseStrideWords }

/-- `pack_request_batch`, behind the requests packed so far.  The host is
little-endian, so a request is copied as the words of its bytes. -/
def packRequestBatch (maxRequestBytes : Nat) (metadata : List RequestMeta) (words : List UInt32) :
    List (List UInt8) → Outcome (List RequestMeta × List UInt32)
  | [] => return (metadata, words)
  | request :: rest => do
      let requestIndex := metadata.length
      Outcome.ensure (request.length ≤ maxRequestBytes)
        (s!"request {requestIndex} is {request.length} bytes; GPU slot capacity is " ++
          s!"{maxRequestBytes}")
      let wordOffset := words.length
      let _requestWords ← wordsForBytes request.length
      let words := words ++ ofBytes request
      Outcome.ensure (request.length ≤ u32Max) "request length does not fit u32"
      Outcome.ensure (wordOffset ≤ u32Max) "request word offset does not fit u32"
      let requestMeta := ⟨UInt32.ofNat request.length, UInt32.ofNat wordOffset⟩
      packRequestBatch maxRequestBytes (metadata ++ [requestMeta]) words rest

/-- The parameters of a batch. -/
def batchParams (processor : GpuProcessor) (requestCount : Nat) : Outcome Params := do
  Outcome.ensure (processor.requestStrideWords ≤ u32Max) "request stride does not fit u32"
  Outcome.ensure (processor.responseStrideWords ≤ u32Max) "response stride does not fit u32"
  Outcome.ensure (requestCount ≤ u32Max) "request count does not fit u32"
  return {
    requestStrideWords := UInt32.ofNat processor.requestStrideWords
    responseStrideWords := UInt32.ofNat processor.responseStrideWords
    requestCount := UInt32.ofNat requestCount
    routeCount := processor.routerLayout.routeCount
    fallbackResponseOffset := processor.routerLayout.fallbackResponseOffset
    badRequestResponseOffset := processor.routerLayout.badRequestResponseOffset
    methodNotAllowedResponseOffset := processor.routerLayout.methodNotAllowedResponseOffset }

/-- A byte of the output buffer. -/
def outputByte (storage : Storage) (position : Nat) : UInt8 :=
  byteOf (storage.outputWords (UInt32.ofNat (position / 4))) (position % 4)

/-- `decode_responses`, from a request on. -/
def decodeResponses (responseStrideWords : Nat) (storage : Storage) (requestIndex : Nat) :
    Nat → Outcome (List (List UInt8))
  | 0 => return []
  | remaining + 1 => do
      let responseStrideBytes := responseStrideWords * 4
      let responseMeta := storage.responseMeta (UInt32.ofNat requestIndex)
      Outcome.ensure (responseMeta.flags = 0)
        (s!"shader failed request {requestIndex} with status {responseMeta.status} and flags " ++
          s!"{responseMeta.flags}")
      let outputLen := responseMeta.outputLen.toNat
      Outcome.ensure (outputLen ≠ 0 ∧ outputLen ≤ responseStrideBytes)
        s!"shader returned invalid response length {outputLen} for request {requestIndex}"
      let outputStart := requestIndex * responseStrideBytes
      let response := (List.range outputLen).map fun k => outputByte storage (outputStart + k)
      let later ← decodeResponses responseStrideWords storage (requestIndex + 1) remaining
      return response :: later

def workgroupSize : Nat := 128

/-- The invocations of a dispatch, whole workgroups of them. -/
def invocations (requestCount : Nat) : List UInt32 :=
  (List.range ((requestCount + (workgroupSize - 1)) / workgroupSize * workgroupSize)).map UInt32.ofNat

/-- A dispatch that runs its invocations in an order. -/
def dispatch (bindings : Bindings) (order : List UInt32) (storage : Storage) : Storage :=
  order.foldl (fun storage requestIndex => processRequests bindings requestIndex storage) storage

/-- The buffers a processor uploads when it starts.  A storage buffer is smaller
than the address space of the shader. -/
structure Uploaded (router : CompiledRouter) (assets : ShaderAssets) (bindings : Bindings) :
    Prop where
  ids : bindings.ids = router.shaderStringIds
  stringMeta : Stores bindings.stringMeta assets.metadata
  stringWords : Stores bindings.stringWords assets.words
  routerWords : Stores bindings.routerWords router.routerWords
  arena : assets.byteLen ≤ 2 ^ 32

/-- A buffer that is zero, or some other default, behind what was written to it. -/
def bufferOf {α : Type} (default : α) (values : List α) : UInt32 → α :=
  fun i => values.getD i.toNat default

theorem stores_bufferOf {α : Type} (default : α) (values : List α) :
    Stores (bufferOf default values) values := by
  intro i value hi
  rw [bufferOf, List.getD_eq_getElem?_getD, hi, Option.getD_some]

/-- The bindings over fresh buffers. -/
def bindingsOf (router : CompiledRouter) (assets : ShaderAssets) (params : Params)
    (metadata : List RequestMeta) (words : List UInt32) : Bindings where
  ids := router.shaderStringIds
  params := params
  requestMeta := bufferOf ⟨0, 0⟩ metadata
  inputWords := bufferOf 0 words
  stringMeta := bufferOf ⟨0, 0⟩ assets.metadata
  stringWords := bufferOf 0 assets.words
  routerWords := bufferOf 0 router.routerWords

theorem uploaded_bindingsOf {router : CompiledRouter} {assets : ShaderAssets}
    (harena : assets.byteLen ≤ 2 ^ 32) (params : Params) (metadata : List RequestMeta)
    (words : List UInt32) : Uploaded router assets (bindingsOf router assets params metadata words)
    where
  ids := rfl
  stringMeta := stores_bufferOf _ _
  stringWords := stores_bufferOf _ _
  routerWords := stores_bufferOf _ _
  arena := harena

end Shader

end Http
end Gput
