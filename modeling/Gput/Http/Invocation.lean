import Gput.Http.ShaderTarget
import Gput.Http.ShaderRoutes

/-!
# One invocation of the shader

`process_requests` sorts a request into one of the cases of `parse_request`,
though not by the same rules: `ShaderParse`.  Every case has its response and
its offset, and the invocation leaves in its slot what the response says of the
request: `processRequests_answered`.
-/

namespace Gput
namespace Http

open ByteString LittleEndian WordMemory

/-- The parts of a request a response may render. -/
def RequestParse.parts : RequestParse → RequestParts
  | .get parts => parts
  | .badRequest => RequestParts.empty
  | .methodNotAllowed => RequestParts.empty

/-- The response to a request. -/
def CompiledRouter.responseTo (router : CompiledRouter) : RequestParse → CompiledResponse
  | .get parts => ((router.findRoute parts).map CompiledRoute.response).getD router.fallback
  | .badRequest => router.badRequest
  | .methodNotAllowed => router.methodNotAllowed

theorem CompiledRouter.routeRequest_parse (router : CompiledRouter) (request : List UInt8)
    (backend : Text) :
    router.routeRequest request backend =
      router.renderResponse (parseRequest request).parts request.length backend
        (router.responseTo (parseRequest request)) := by
  rw [CompiledRouter.routeRequest]
  cases parseRequest request <;> rfl

namespace Shader

/-- How the shader parses a request. -/
inductive ShaderParse (request : List UInt8) : RequestParse → Prop
  | short (hlen : request.length < 4) : ShaderParse request .badRequest
  | otherMethod (hlen : 4 ≤ request.length) (hmethod : ¬ ascii "GET " <+: request) :
      ShaderParse request .methodNotAllowed
  | badTarget (hmethod : ascii "GET " <+: request)
      (htarget : ∀ target, ¬ TargetLine (request.drop 4) target) : ShaderParse request .badRequest
  | get {target : Text} (hmethod : ascii "GET " <+: request)
      (htarget : TargetLine (request.drop 4) target) :
      ShaderParse request (.get
        { path := (splitTarget target).1
          query := (splitTarget target).2
          pathHash := fnv1a (splitTarget target).1 })

/-- The offset of the response to a request. -/
def OffsetTo (router : CompiledRouter) : RequestParse → UInt32 → Prop
  | .get parts, offset => RouteOffset router (router.findRoute parts) offset
  | .badRequest, offset => offset = router.gpuLayout.badRequestResponseOffset
  | .methodNotAllowed, offset => offset = router.gpuLayout.methodNotAllowedResponseOffset

theorem OffsetTo.response {router : CompiledRouter} {parse : RequestParse} {offset : UInt32}
    (h : OffsetTo router parse offset) :
    ResponseOffset router (router.responseTo parse) offset := by
  cases parse with
  | get parts => exact RouteOffset.response h
  | badRequest =>
      rw [OffsetTo] at h
      rw [h]
      exact .badRequest
  | methodNotAllowed =>
      rw [OffsetTo] at h
      rw [h]
      exact .methodNotAllowed

/-- The offset and the target `process_requests` hands to `write_response`. -/
def chosenResponse (bindings : Bindings) (requestIndex : UInt32) : UInt32 × RequestTarget :=
  let inputLen := (bindings.requestMeta requestIndex).inputLen
  if inputLen < 4 then (bindings.params.badRequestResponseOffset, invalidTarget inputLen)
  else if isGetRequest bindings requestIndex inputLen = false then
    (bindings.params.methodNotAllowedResponseOffset, invalidTarget inputLen)
  else
    let target := parseGetTarget bindings requestIndex inputLen
    if target.valid = 0 then (bindings.params.badRequestResponseOffset, target)
    else (findResponseOffset bindings requestIndex target, target)

/-- The invocations of a batch write one response each. -/
theorem processRequests_eq {bindings : Bindings} {requestIndex : UInt32}
    (h : requestIndex < bindings.params.requestCount) (storage : Storage) :
    processRequests bindings requestIndex storage =
      writeResponse bindings requestIndex (chosenResponse bindings requestIndex).1
        (chosenResponse bindings requestIndex).2 storage := by
  rw [processRequests, if_neg (UInt32.not_le.mpr h), chosenResponse]
  simp only
  split
  · rfl
  split
  · rfl
  split <;> rfl

theorem processRequests_of_le {bindings : Bindings} {requestIndex : UInt32}
    (h : bindings.params.requestCount ≤ requestIndex) (storage : Storage) :
    processRequests bindings requestIndex storage = storage := by
  rw [processRequests, if_pos h]

section Requests

variable {router : CompiledRouter} {texts : List Text} {bindings : Bindings}
  {requestIndex : UInt32} {request : List UInt8}

/-- The first word tells whether a request is a GET. -/
theorem isGetRequest_iff (h : Presented bindings requestIndex request)
    (hlen : 4 ≤ request.length) :
    isGetRequest bindings requestIndex (bindings.requestMeta requestIndex).inputLen = true ↔
      ascii "GET " <+: request := by
  have hlong : ¬ (bindings.requestMeta requestIndex).inputLen < 4 := by
    rw [UInt32.lt_iff_toNat_lt, h.len]
    exact Nat.not_lt.mpr hlen
  have hword : requestWord bindings requestIndex 0 = firstWord request :=
    @readWord_eq _ _ _ h.stored 0 (by show 0 + 4 ≤ _; omega)
  have hget : (0x20544547 : UInt32) = firstWord (ascii "GET ") := by decide
  have hgetLen : (ascii "GET ").length = 4 := by decide
  rw [isGetRequest, if_neg hlong, hword, hget, decide_eq_true_iff]
  constructor
  · intro heq
    have htake := take_four_of_firstWord hlen hgetLen.ge heq
    rw [List.take_of_length_le hgetLen.le] at htake
    rw [← htake]
    exact List.take_prefix _ _
  · rintro ⟨rest, rfl⟩
    exact firstWord_append hgetLen.ge

/-- Which response an invocation chooses, and of what it renders it. -/
theorem chosenResponse_spec (compiled : IsCompiled router)
    (hwords : Stores bindings.routerWords router.routerWords) (harena : ArenaTexts router texts)
    (hlayout : LaidOut router bindings.params) (htexts : ReadsTexts bindings texts)
    (h : Presented bindings requestIndex request) (hfits : request.length + 16 ≤ 2 ^ 32) :
    ∃ parse, ShaderParse request parse ∧
      OffsetTo router parse (chosenResponse bindings requestIndex).1 ∧
      InRequest bindings requestIndex request (chosenResponse bindings requestIndex).2 ∧
      targetParts request (chosenResponse bindings requestIndex).2 = parse.parts ∧
      (chosenResponse bindings requestIndex).2.inputLen.toNat = request.length := by
  have hlt : request.length < 2 ^ 32 := by omega
  have hinvalid := @inRequest_invalidTarget bindings requestIndex
    (bindings.requestMeta requestIndex).inputLen request h hlt
  have hempty (inputLen : UInt32) :
      targetParts request (invalidTarget inputLen) = RequestParts.empty := rfl
  have hshort : (bindings.requestMeta requestIndex).inputLen < 4 ↔ request.length < 4 := by
    rw [UInt32.lt_iff_toNat_lt, h.len]
    rfl
  rw [chosenResponse]
  simp only
  by_cases hlen : request.length < 4
  · rw [if_pos (hshort.mpr hlen)]
    exact ⟨.badRequest, .short hlen, hlayout.badRequest, hinvalid, hempty _, h.len⟩
  rw [if_neg (by rwa [hshort])]
  have hget := isGetRequest_iff h (Nat.not_lt.mp hlen)
  by_cases hmethod : ascii "GET " <+: request
  · rw [if_neg (by rw [hget.mpr hmethod]; simp)]
    rcases parseGetTarget_cases h h.len hfits with ⟨target, htarget, hparse⟩ | ⟨hnone, hparse⟩
    · have hin := @inRequest_targetOf bindings requestIndex
        (bindings.requestMeta requestIndex).inputLen request h hlt target htarget
      obtain ⟨hparts, -, -⟩ := @targetOf_parts (bindings.requestMeta requestIndex).inputLen request
        hlt target htarget
      have hoffset := findResponseOffset_eq compiled hwords harena hlayout htexts hin
      have hvalid : ¬ (targetOf target (bindings.requestMeta requestIndex).inputLen).valid = 0 :=
        show ¬ (1 : UInt32) = 0 by decide
      rw [hparts] at hoffset
      rw [hparse, if_neg hvalid]
      exact ⟨_, .get hmethod htarget, hoffset, hin, hparts, h.len⟩
    · have hvalid : (invalidTarget (bindings.requestMeta requestIndex).inputLen).valid = 0 := rfl
      rw [hparse, if_pos hvalid]
      exact ⟨.badRequest, .badTarget hmethod hnone, hlayout.badRequest, hinvalid, hempty _, h.len⟩
  · rw [if_pos (Bool.eq_false_iff.mpr fun hyes => hmethod (hget.mp hyes))]
    exact ⟨.methodNotAllowed, .otherMethod (Nat.not_lt.mp hlen) hmethod, hlayout.methodNotAllowed,
      hinvalid, hempty _, h.len⟩

/-- An invocation answers its request with what the response says, whatever the
storage holds before. -/
theorem processRequests_answered (compiled : IsCompiled router)
    (hids : bindings.ids = router.shaderStringIds)
    (hwords : Stores bindings.routerWords router.routerWords) (harena : ArenaTexts router texts)
    (hlayout : LaidOut router bindings.params) (htexts : ReadsTexts bindings texts)
    (hcapacity : 4 * bindings.params.responseStrideWords.toNat < 2 ^ 32)
    (hslot : router.maxGpuResponseBytes ≤ 4 * bindings.params.responseStrideWords.toNat)
    (h : Presented bindings requestIndex request) (hfits : request.length + 16 ≤ 2 ^ 32)
    (hindex : requestIndex < bindings.params.requestCount) :
    ∃ parse bytes, ShaderParse request parse ∧
      OffsetTo router parse (chosenResponse bindings requestIndex).1 ∧
      responseMeaning (withTexts router texts) parse.parts request.length
        (router.responseTo parse) = .ok bytes ∧
      0 < bytes.length ∧ bytes.length ≤ router.maxGpuResponseBytes ∧
      ∀ storage, Answered bindings.params requestIndex storage
        (processRequests bindings requestIndex storage)
        (router.responseTo parse).status.toUInt32 bytes := by
  obtain ⟨parse, hparse, hoffset, hin, hparts, hlen⟩ :=
    chosenResponse_spec compiled hwords harena hlayout htexts h hfits
  obtain ⟨hmem, hemitted⟩ := hoffset.response.emitted compiled
  have hanswered (storage : Storage) :=
    writeResponse_answered compiled hids hmem (decoded_of_emitted compiled hwords hemitted) htexts
      harena hin hcapacity hslot storage
  rw [hparts, hlen] at hanswered
  obtain ⟨bytes, hmeaning, hpos, hle, -⟩ := hanswered ⟨fun _ => ⟨0, 0, 0⟩, fun _ => 0⟩
  refine ⟨parse, bytes, hparse, hoffset, hmeaning, hpos, hle, fun storage => ?_⟩
  obtain ⟨same, hsame, -, -, hwritten⟩ := hanswered storage
  rw [hmeaning] at hsame
  cases hsame
  rw [processRequests_eq hindex]
  exact hwritten

end Requests

end Shader
end Http
end Gput
