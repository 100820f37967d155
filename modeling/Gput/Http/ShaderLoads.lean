import Gput.Http.Batch
import Gput.Http.CheckedShader

/-!
# The loads of the HTTP shader

Function by function, the checked shader returns what the shader does.  The
loops stay inside the lengths they are given, the lengths are those of the
strings, the request and the tables, and the request line is compared only as far
as it goes: `LoadsRouter.processRequests`.
-/

namespace Gput
namespace Http
namespace Shader

open ByteString LittleEndian WordMemory

section Loops

variable {params : Params} {loadWord loadByte : UInt32 → Option UInt32}
  {readWord readByte : UInt32 → UInt32} {len : Nat} {byteLen : UInt32}

theorem pushWords_checked (h : Loads loadWord loadByte readWord readByte len)
    (hlen : byteLen.toNat ≤ len) (byteIndex : UInt32) (output : Output)
    (hindex : byteIndex.toNat ≤ byteLen.toNat) :
    Checked.pushWords params loadWord byteLen byteIndex output =
      some (pushWords params readWord byteLen byteIndex output) := by
  fun_induction pushWords params readWord byteLen byteIndex output with
  | case1 byteIndex output hfour ih =>
      obtain ⟨hinside, hnext⟩ := four_inside hindex hfour
      rw [Checked.pushWords, if_pos hfour, h.word _ (by omega)]
      exact ih (by omega)
  | case2 byteIndex output hfour => rw [Checked.pushWords, if_neg hfour]

theorem pushBytes_checked (h : Loads loadWord loadByte readWord readByte len)
    (hlen : byteLen.toNat ≤ len) (byteIndex : UInt32) (output : Output) :
    Checked.pushBytes params loadByte byteLen byteIndex output =
      some (pushBytes params readByte byteLen byteIndex output) := by
  fun_induction pushBytes params readByte byteLen byteIndex output with
  | case1 byteIndex output hlt ih =>
      have hinside := UInt32.lt_iff_toNat_lt.mp hlt
      rw [Checked.pushBytes, if_pos hlt, h.byte _ (by omega)]
      exact ih
  | case2 byteIndex output hge => rw [Checked.pushBytes, if_neg hge]

theorem pushRange_checked (h : Loads loadWord loadByte readWord readByte len)
    (hlen : byteLen.toNat ≤ len) (output : Output) :
    Checked.pushRange params loadWord loadByte byteLen output =
      some (pushRange params readWord readByte byteLen output) := by
  rw [Checked.pushRange, pushWords_checked h hlen 0 output (Nat.zero_le _)]
  exact pushBytes_checked h hlen _ _

variable {leftWord leftByte rightWord rightByte : UInt32 → Option UInt32}
  {readLeftWord readLeftByte readRightWord readRightByte : UInt32 → UInt32} {leftLen rightLen : Nat}

theorem matchWords_checked (hleft : Loads leftWord leftByte readLeftWord readLeftByte leftLen)
    (hright : Loads rightWord rightByte readRightWord readRightByte rightLen)
    (hleftLen : byteLen.toNat ≤ leftLen) (hrightLen : byteLen.toNat ≤ rightLen)
    (byteIndex : UInt32) (hindex : byteIndex.toNat ≤ byteLen.toNat) :
    Checked.matchWords leftWord rightWord byteLen byteIndex =
      some (matchWords readLeftWord readRightWord byteLen byteIndex) := by
  fun_induction matchWords readLeftWord readRightWord byteLen byteIndex with
  | case1 byteIndex hfour hdiffer =>
      obtain ⟨hinside, -⟩ := four_inside hindex hfour
      rw [Checked.matchWords, if_pos hfour, hleft.word _ (by omega), hright.word _ (by omega)]
      exact if_pos hdiffer
  | case2 byteIndex hfour hequal ih =>
      obtain ⟨hinside, hnext⟩ := four_inside hindex hfour
      rw [Checked.matchWords, if_pos hfour, hleft.word _ (by omega), hright.word _ (by omega)]
      exact (if_neg hequal).trans (ih (by omega))
  | case3 byteIndex hfour => rw [Checked.matchWords, if_neg hfour]

theorem matchBytes_checked (hleft : Loads leftWord leftByte readLeftWord readLeftByte leftLen)
    (hright : Loads rightWord rightByte readRightWord readRightByte rightLen)
    (hleftLen : byteLen.toNat ≤ leftLen) (hrightLen : byteLen.toNat ≤ rightLen)
    (byteIndex : UInt32) :
    Checked.matchBytes leftByte rightByte byteLen byteIndex =
      some (matchBytes readLeftByte readRightByte byteLen byteIndex) := by
  fun_induction matchBytes readLeftByte readRightByte byteLen byteIndex with
  | case1 byteIndex hlt hdiffer =>
      have hinside := UInt32.lt_iff_toNat_lt.mp hlt
      rw [Checked.matchBytes, if_pos hlt, hleft.byte _ (by omega), hright.byte _ (by omega)]
      exact if_pos hdiffer
  | case2 byteIndex hlt hequal ih =>
      have hinside := UInt32.lt_iff_toNat_lt.mp hlt
      rw [Checked.matchBytes, if_pos hlt, hleft.byte _ (by omega), hright.byte _ (by omega)]
      exact (if_neg hequal).trans ih
  | case3 byteIndex hge => rw [Checked.matchBytes, if_neg hge]

end Loops

/-- Buffers that start with the uploads; what stands behind these is left open. -/
structure Bound (uploads : Uploads) (bindings : Bindings) : Prop where
  ids : bindings.ids = uploads.ids
  params : bindings.params = uploads.params
  requestMeta : Stores bindings.requestMeta uploads.requestMeta
  inputWords : Stores bindings.inputWords uploads.inputWords
  stringMeta : Stores bindings.stringMeta uploads.stringMeta
  stringWords : Stores bindings.stringWords uploads.stringWords
  routerWords : Stores bindings.routerWords uploads.routerWords

/-- A string is loaded within its length. -/
structure LoadsString (uploads : Uploads) (bindings : Bindings) (id : UInt32) : Prop where
  len : Checked.stringLen uploads id = some (bindings.stringMeta id).byteLen
  bytes : Loads (Checked.stringWord uploads id) (Checked.stringByte uploads id)
    (stringWord bindings id) (stringByte bindings id) (bindings.stringMeta id).byteLen.toNat

/-- A request is loaded within its length. -/
def LoadsRequest (uploads : Uploads) (bindings : Bindings) (requestIndex : UInt32) (len : Nat) :
    Prop :=
  Loads (Checked.requestWord uploads requestIndex) (Checked.requestByte uploads requestIndex)
    (requestWord bindings requestIndex) (requestByte bindings requestIndex) len

/-- The descriptor and the program of a response are loaded. -/
structure LoadsResponse (uploads : Uploads) (bindings : Bindings) (response : CompiledResponse)
    (offset : UInt32) : Prop where
  descriptor : ∀ field : UInt32, field.toNat < 5 →
    Checked.responseWord uploads offset field = some (responseWord bindings offset field)
  operations : ∀ j field : UInt32, j.toNat < response.segments.length → field.toNat < 3 →
    Checked.bodyOpWord uploads (responseWord bindings offset responseProgramOffset) j field =
      some (bodyOpWord bindings (responseWord bindings offset responseProgramOffset) j field)

section Uploads

variable {uploads : Uploads} {bindings : Bindings} (hbound : Bound uploads bindings)
include hbound

/-- A string that is located in the arena is loaded, wherever its bytes start. -/
theorem Bound.loadsString {arena : List UInt8} (hwords : uploads.stringWords = packBytes arena)
    (hfits : arena.length ≤ 2 ^ 32) {id : UInt32} {string : StringMeta}
    (hat : uploads.stringMeta[id.toNat]? = some string) {text : Text}
    (h : Located arena string text) : LoadsString uploads bindings id := by
  have hread : bindings.stringMeta id = string := hbound.stringMeta id string hat
  have hbacks : Backs (fun position => uploads.stringWords[position.toNat]?) bindings.stringWords 0
      arena.length := by
    intro k hk
    have hposition : ((0 : UInt32) + UInt32.ofNat k).toNat = k := by
      rw [UInt32.zero_add, UInt32.toNat_ofNat', Nat.mod_eq_of_lt (by omega)]
    refine hbound.stringWords.load ?_
    rw [hposition, hwords, packBytes_eq, wordsOf_length]
    exact hk
  have hlen := h.len
  have hle := h.bytes.length_le
  have hoffset := string.byteOffset.toNat_lt
  rw [List.length_drop] at hle
  by_cases hin : string.byteOffset.toNat ≤ arena.length
  · have hrange : string.byteOffset.toNat + string.byteLen.toNat ≤ arena.length := by omega
    have hloads := hbacks.loads.range hrange hfits
    refine ⟨by rw [Checked.stringLen, hat, hread]; rfl, ?_⟩
    constructor
    · intro i hi
      rw [Checked.stringWord, hat, stringWord, hread]
      exact hloads.word i (by rwa [hread] at hi)
    · intro i hi
      rw [Checked.stringByte, hat, stringByte, hread]
      exact hloads.byte i (by rwa [hread] at hi)
  · -- where an empty string is located does not matter, it has no bytes to load
    have hempty : (bindings.stringMeta id).byteLen.toNat = 0 := by rw [hread]; omega
    refine ⟨by rw [Checked.stringLen, hat, hread]; rfl, ?_, ?_⟩
    · intro i hi
      omega
    · intro i hi
      omega

/-- A packed request is loaded from its own words. -/
theorem Bound.loadsRequest (hfits : uploads.inputWords.length ≤ 2 ^ 32) {requestIndex : UInt32}
    {requestMeta : RequestMeta} (hat : uploads.requestMeta[requestIndex.toNat]? = some requestMeta)
    {request : List UInt8} (h : Packed uploads.inputWords requestMeta request) :
    LoadsRequest uploads bindings requestIndex request.length := by
  have hread : bindings.requestMeta requestIndex = requestMeta :=
    hbound.requestMeta requestIndex requestMeta hat
  have hle := h.words.length_le
  rw [ofBytes_length, List.length_drop] at hle
  have hbacks : Backs (Checked.inputWord uploads requestMeta) bindings.inputWords
      requestMeta.wordOffset request.length := by
    intro k hk
    have hposition : (requestMeta.wordOffset + UInt32.ofNat k).toNat =
        requestMeta.wordOffset.toNat + k := by
      rw [UInt32.toNat_add, UInt32.toNat_ofNat']
      omega
    rw [Checked.inputWord, if_pos (by rw [hposition, h.len]; omega)]
    exact hbound.inputWords.load (by rw [hposition]; omega)
  constructor
  · intro i hi
    rw [Checked.requestWord, hat, requestWord, hread]
    exact hbacks.loads.word i hi
  · intro i hi
    rw [Checked.requestByte, hat, requestByte, hread]
    exact hbacks.loads.byte i hi

variable {router : CompiledRouter} (compiled : IsCompiled router)
  (hrouter : uploads.routerWords = router.routerWords)
include compiled hrouter

/-- An entry of the route table is loaded. -/
theorem Bound.routeWord_checked {index field : UInt32} (hindex : index.toNat < router.routes.length)
    (hfield : field.toNat < 4) :
    Checked.routeWord uploads index field = some (routeWord bindings index field) := by
  have hentry := compiled.entries index.toNat _ (List.getElem?_eq_getElem hindex)
  obtain ⟨offset, hoffset, -, -⟩ := hentry.response
  have hlt := (List.getElem?_eq_some_iff.mp hoffset).1
  have hfit := compiled.words_fit
  unfold u32Max at hfit
  have hstride : routeStrideWords = 4 := rfl
  have hfour : routeStride.toNat = 4 := rfl
  refine hbound.routerWords.load ?_
  rw [hstride] at hlt
  rw [hrouter, UInt32.toNat_add, UInt32.toNat_mul, hfour]
  omega

theorem Bound.loadsResponse {response : CompiledResponse} {offset : UInt32}
    (h : Emitted router.routerWords response offset) :
    LoadsResponse uploads bindings response offset := by
  have hstores : Stores bindings.routerWords router.routerWords := hrouter ▸ hbound.routerWords
  have hprogram := programOffset_eq compiled hstores h
  obtain ⟨program, hemit, hextends⟩ := h
  obtain ⟨hlength, -⟩ := emitProgram_ok hemit
  have hdescriptor : (descriptor response offset.toNat).length = 5 := rfl
  have hle := hextends.length_le
  rw [List.length_append, List.length_drop, hlength, hdescriptor] at hle
  have hfit := compiled.words_fit
  unfold u32Max at hfit
  constructor
  · intro field hfield
    refine hbound.routerWords.load ?_
    rw [hrouter, UInt32.toNat_add]
    omega
  · intro j field hj hfield
    have hthree : bodyOpWords.toNat = 3 := rfl
    refine hbound.routerWords.load ?_
    rw [hrouter, hprogram, UInt32.toNat_add, UInt32.toNat_add, UInt32.toNat_add, UInt32.toNat_mul,
      hthree, UInt32.toNat_ofNat']
    omega

end Uploads

/-- What an invocation may load of its router. -/
structure LoadsRouter (router : CompiledRouter) (uploads : Uploads) (bindings : Bindings) : Prop
    where
  bound : Bound uploads bindings
  ids : uploads.ids = router.shaderStringIds
  strings : ∀ id : UInt32, id.toNat < router.strings.length → LoadsString uploads bindings id
  routes : ∀ index field : UInt32, index.toNat < router.routes.length → field.toNat < 4 →
    Checked.routeWord uploads index field = some (routeWord bindings index field)
  responses : ∀ (response : CompiledResponse) (offset : UInt32),
    Emitted router.routerWords response offset → LoadsResponse uploads bindings response offset

section Responses

variable {router : CompiledRouter} {uploads : Uploads} {bindings : Bindings}
  {requestIndex : UInt32} {request : List UInt8} {target : RequestTarget}

/-- The loop over a program loads its operations. -/
theorem forOperations_checked {α : Type} {response : CompiledResponse} {offset : UInt32}
    (hdecoded : Decoded bindings response offset)
    (hloads : LoadsResponse uploads bindings response offset)
    {checkedStep : UInt32 → UInt32 → UInt32 → α → Option α}
    {step : UInt32 → UInt32 → UInt32 → α → α}
    (hstep : ∀ segment ∈ response.segments, ∀ state,
      let operation := operationOf segment
      checkedStep operation.1 operation.2.1 operation.2.2 state =
        some (step operation.1 operation.2.1 operation.2.2 state))
    (operationIndex : UInt32) (state : α) :
    Checked.forOperations uploads (responseWord bindings offset responseProgramOffset)
        (responseWord bindings offset responseProgramLen) checkedStep operationIndex state =
      some (forOperations bindings (responseWord bindings offset responseProgramOffset)
        (responseWord bindings offset responseProgramLen) step operationIndex state) := by
  fun_induction forOperations bindings (responseWord bindings offset responseProgramOffset)
      (responseWord bindings offset responseProgramLen) step operationIndex state with
  | case1 operationIndex state hlt ih =>
      have hinside : operationIndex.toNat < response.segments.length := by
        rw [← hdecoded.count]
        exact UInt32.lt_iff_toNat_lt.mp hlt
      have hword (field : UInt32) (hfield : field.toNat < 3) :=
        hloads.operations operationIndex field hinside hfield
      have hat := List.getElem?_eq_getElem hinside
      have hoperation := hstep _ (List.mem_of_getElem? hat) state
      rw [← hdecoded.operations operationIndex _ hat] at hoperation
      rw [Checked.forOperations, if_pos hlt, hword bodyOpCode (by decide),
        hword bodyOpArg0 (by decide), hword bodyOpArg1 (by decide)]
      simp only [Option.bind_eq_bind, Option.bind_some]
      rw [hoperation]
      exact ih
  | case2 operationIndex state hge => rw [Checked.forOperations, if_neg hge]

/-- A string of the router is written from its loads. -/
theorem LoadsRouter.writerPushString (h : LoadsRouter router uploads bindings) {id : UInt32}
    (hid : id.toNat < router.strings.length) (output : Output) :
    Checked.writerPushString uploads id output = some (writerPushString bindings id output) := by
  have hstring := h.strings id hid
  rw [Checked.writerPushString, hstring.len, Shader.writerPushString, h.bound.params]
  exact pushRange_checked hstring.bytes (le_refl _) output

/-- A range of the request is written from its loads. -/
theorem LoadsRouter.writerPushRequestRange (h : LoadsRouter router uploads bindings)
    (hrequest : LoadsRequest uploads bindings requestIndex request.length)
    (hfits : request.length < 2 ^ 32) {start len : UInt32}
    (hrange : start.toNat + len.toNat ≤ request.length) (output : Output) :
    Checked.writerPushRequestRange uploads requestIndex start len output =
      some (writerPushRequestRange bindings requestIndex start len output) := by
  rw [Checked.writerPushRequestRange, Shader.writerPushRequestRange, h.bound.params]
  exact pushRange_checked (hrequest.range hrange (by omega)) (le_refl _) output

theorem LoadsRouter.backendGpu_lt (h : LoadsRouter router uploads bindings)
    (compiled : IsCompiled router) : uploads.ids.backendGpu.toNat < router.strings.length := by
  rw [h.ids]
  exact (List.getElem?_eq_some_iff.mp compiled.ids.backendGpu).1

/-- The length of an operation needs the lengths of strings at most. -/
theorem LoadsRouter.operationLen (h : LoadsRouter router uploads bindings)
    (compiled : IsCompiled router) {segment : CompiledSegment}
    (hstored : SegmentStored router.strings segment) (target : RequestTarget) :
    let operation := operationOf segment
    Checked.operationLen uploads operation.1 operation.2.1 operation.2.2 target =
      some (operationLen bindings operation.1 operation.2.1 operation.2.2 target) := by
  cases segment with
  | literal stringId => exact (h.strings stringId hstored).len
  | backend =>
      show Checked.stringLen uploads uploads.ids.backendGpu =
        some (bindings.stringMeta bindings.ids.backendGpu).byteLen
      rw [h.bound.ids]
      exact (h.strings _ (h.backendGpu_lt compiled)).len
  | backendVariant cpu gpu => exact (h.strings gpu hstored.2).len
  | path maxBytes => rfl
  | query maxBytes => rfl
  | requestBytes => rfl
  | pathHash => rfl

/-- An operation is written from its loads. -/
theorem LoadsRouter.writeOperation (h : LoadsRouter router uploads bindings)
    (compiled : IsCompiled router) {segment : CompiledSegment}
    (hstored : SegmentStored router.strings segment)
    (hrequest : LoadsRequest uploads bindings requestIndex request.length)
    (htarget : InRequest bindings requestIndex request target) (output : Output) :
    let operation := operationOf segment
    Checked.writeOperation uploads requestIndex operation.1 operation.2.1 operation.2.2 target
        output =
      some (writeOperation bindings requestIndex operation.1 operation.2.1 operation.2.2 target
        output) := by
  have hmin {start len limit : UInt32} (hrange : start.toNat + len.toNat ≤ request.length) :
      start.toNat + (min len limit).toNat ≤ request.length := by
    rw [UInt32.toNat_min]
    omega
  cases segment with
  | literal stringId => exact h.writerPushString hstored output
  | path maxBytes =>
      exact h.writerPushRequestRange hrequest htarget.fits (hmin htarget.path) output
  | query maxBytes =>
      exact h.writerPushRequestRange hrequest htarget.fits (hmin htarget.query) output
  | backend =>
      show Checked.writerPushString uploads uploads.ids.backendGpu output =
        some (Shader.writerPushString bindings bindings.ids.backendGpu output)
      rw [h.bound.ids]
      exact h.writerPushString (h.backendGpu_lt compiled) output
  | backendVariant cpu gpu => exact h.writerPushString hstored.2 output
  | requestBytes =>
      show some (writerPushDecimal uploads.params target.inputLen output) =
        some (writerPushDecimal bindings.params target.inputLen output)
      rw [h.bound.params]
  | pathHash =>
      show some (writerPushDecimal uploads.params target.pathHash output) =
        some (writerPushDecimal bindings.params target.pathHash output)
      rw [h.bound.params]

variable {response : CompiledResponse} {offset : UInt32}

theorem LoadsRouter.responseBodyLen (h : LoadsRouter router uploads bindings)
    (compiled : IsCompiled router) (hmem : response ∈ router.responses)
    (hdecoded : Decoded bindings response offset)
    (hloads : LoadsResponse uploads bindings response offset) (target : RequestTarget) :
    Checked.responseBodyLen uploads offset target =
      some (responseBodyLen bindings offset target) := by
  have hgood := compiled.responses response hmem
  rw [Checked.responseBodyLen, hloads.descriptor responseProgramOffset (by decide),
    hloads.descriptor responseProgramLen (by decide)]
  refine forOperations_checked hdecoded hloads (fun segment hsegment bodyLen => ?_) 0 0
  simp only [h.operationLen compiled (hgood.segments segment hsegment) target]
  rfl

theorem LoadsRouter.writeResponseBody (h : LoadsRouter router uploads bindings)
    (compiled : IsCompiled router) (hmem : response ∈ router.responses)
    (hdecoded : Decoded bindings response offset)
    (hloads : LoadsResponse uploads bindings response offset)
    (hrequest : LoadsRequest uploads bindings requestIndex request.length)
    (htarget : InRequest bindings requestIndex request target) (output : Output) :
    Checked.writeResponseBody uploads requestIndex offset target output =
      some (writeResponseBody bindings requestIndex offset target output) := by
  have hgood := compiled.responses response hmem
  rw [Checked.writeResponseBody, hloads.descriptor responseProgramOffset (by decide),
    hloads.descriptor responseProgramLen (by decide)]
  exact forOperations_checked hdecoded hloads
    (fun segment hsegment output =>
      h.writeOperation compiled (hgood.segments segment hsegment) hrequest htarget output) 0 output

/-- A response of the router is written from its loads. -/
theorem LoadsRouter.writeResponse (h : LoadsRouter router uploads bindings)
    (compiled : IsCompiled router) (hrouter : uploads.routerWords = router.routerWords)
    (hresponse : ResponseOffset router response offset)
    (hrequest : LoadsRequest uploads bindings requestIndex request.length)
    (htarget : InRequest bindings requestIndex request target) (storage : Storage) :
    Checked.writeResponse uploads requestIndex offset target storage =
      some (writeResponse bindings requestIndex offset target storage) := by
  obtain ⟨hmem, hemitted⟩ := hresponse.emitted compiled
  have hgood := compiled.responses response hmem
  have hloads := h.responses response offset hemitted
  have hdecoded := decoded_of_emitted compiled (hrouter ▸ h.bound.routerWords) hemitted
  have stored {id : UInt32} {text : Text} (hid : router.strings[id.toNat]? = some text) :
      id.toNat < router.strings.length := (List.getElem?_eq_some_iff.mp hid).1
  obtain ⟨reason, hreason, -⟩ := hgood.reason
  obtain ⟨contentType, hcontentType, -⟩ := hgood.contentType
  have hids := compiled.ids
  rw [← h.ids] at hids
  have hversion := h.writerPushString (stored hids.httpVersion)
  have htype := h.writerPushString (stored hids.headerContentType)
  have hlength := h.writerPushString (stored hids.headerContentLength)
  have htail := h.writerPushString (stored hids.headerTail)
  have hreasonPush := h.writerPushString (stored hreason)
  have hcontentPush := h.writerPushString (stored hcontentType)
  rw [← hdecoded.reason] at hreasonPush
  rw [← hdecoded.contentType] at hcontentPush
  rw [Checked.writeResponse, hloads.descriptor responseStatus (by decide),
    hloads.descriptor responseReasonString (by decide),
    hloads.descriptor responseContentTypeString (by decide)]
  simp only [Option.bind_eq_bind, Option.bind_some,
    h.responseBodyLen compiled hmem hdecoded hloads target, hversion, hreasonPush, htype,
    hcontentPush, hlength, htail,
    h.writeResponseBody compiled hmem hdecoded hloads hrequest htarget]
  rw [Shader.writeResponse, h.bound.ids, h.bound.params]
  rfl

end Responses

section Conditions

variable {p q : Prop} [Decidable p] [Decidable q] {right : Option Bool}

/-- The right side of `&&` is evaluated when the left one holds. -/
theorem both_decide (h : p → right = some (decide q)) :
    Checked.both (some (decide p)) right = some (decide (p ∧ q)) := by
  by_cases hp : p
  · rw [decide_eq_true hp, Checked.both, h hp]
    simp only [hp, true_and]
    rfl
  · rw [decide_eq_false hp, decide_eq_false fun hand => hp hand.1]
    rfl

/-- The right side of `||` is evaluated when the left one fails. -/
theorem either_decide (h : ¬ p → right = some (decide q)) :
    Checked.either (some (decide p)) right = some (decide (p ∨ q)) := by
  by_cases hp : p
  · rw [decide_eq_true hp, decide_eq_true (Or.inl hp)]
    rfl
  · rw [decide_eq_false hp, Checked.either, h hp]
    simp only [hp, false_or]
    rfl

theorem both_some : Checked.both (some (decide p)) (some (decide q)) = some (decide (p ∧ q)) :=
  both_decide fun _ => rfl

theorem either_some : Checked.either (some (decide p)) (some (decide q)) = some (decide (p ∨ q)) :=
  either_decide fun _ => rfl

end Conditions

section RequestLine

variable {uploads : Uploads} {bindings : Bindings} {requestIndex inputLen : UInt32}
  (hloads : LoadsRequest uploads bindings requestIndex inputLen.toNat)
include hloads

theorem isGetRequest_checked :
    Checked.isGetRequest uploads requestIndex inputLen =
      some (isGetRequest bindings requestIndex inputLen) := by
  rw [Checked.isGetRequest, isGetRequest]
  by_cases hshort : inputLen < 4
  · rw [if_pos hshort, if_pos hshort]
  · have hfour := UInt32.le_iff_toNat_le.mp (UInt32.not_lt.mp hshort)
    rw [if_neg hshort, if_neg hshort, hloads.word 0 (by simpa using hfour)]
    rfl

/-- The version and its line end are loaded only when they lie inside the request. -/
theorem hasSupportedHttpVersion_checked (hfits : inputLen.toNat + 16 ≤ 2 ^ 32)
    {versionStart : UInt32} (hstart : versionStart.toNat ≤ inputLen.toNat) :
    Checked.hasSupportedHttpVersion uploads requestIndex inputLen versionStart =
      some (hasSupportedHttpVersion bindings requestIndex inputLen versionStart) := by
  have hoffset {k : UInt32} (hk : k.toNat < 16) :
      (versionStart + k).toNat = versionStart.toNat + k.toNat := by
    rw [UInt32.toNat_add]
    omega
  rw [Checked.hasSupportedHttpVersion, hasSupportedHttpVersion]
  by_cases hshort : versionStart + 8 ≥ inputLen
  · simp only [if_pos hshort]
  · have hlong : versionStart.toNat + 8 < inputLen.toNat := by
      have hlt := UInt32.lt_iff_toNat_lt.mp (UInt32.not_le.mp hshort)
      rwa [hoffset (by decide)] at hlt
    have hbyte {k : UInt32} (hk : k.toNat < 9) :
        Checked.requestByte uploads requestIndex (versionStart + k) =
          some (requestByte bindings requestIndex (versionStart + k)) := by
      refine hloads.byte _ ?_
      rw [hoffset (by omega)]
      omega
    simp only [if_neg hshort, @hbyte 0 (by decide), @hbyte 1 (by decide),
      @hbyte 2 (by decide), @hbyte 3 (by decide), @hbyte 4 (by decide), @hbyte 5 (by decide),
      @hbyte 6 (by decide), @hbyte 7 (by decide), @hbyte 8 (by decide), Option.bind_eq_bind,
      Option.bind_some, Option.pure_def, both_some, either_some, decide_eq_true_iff]
    split
    · rfl
    split
    · rfl
    -- the byte behind a carriage return is loaded when there is one
    refine both_decide fun _ => both_decide fun hlt => ?_
    rw [hloads.byte _ (UInt32.lt_iff_toNat_lt.mp hlt)]
    rfl

omit hloads in
/-- The scan stops inside the request when it has found the end of the target. -/
theorem scanTarget_cursor_lt (scan : TargetScan) (hscan : scan.foundTargetEnd = false)
    (h : (scanTarget bindings requestIndex inputLen scan).foundTargetEnd = true) :
    (scanTarget bindings requestIndex inputLen scan).cursor < inputLen := by
  have hstep (scan : TargetScan) (byte : UInt32) :
      (scan.step byte).foundTargetEnd = scan.foundTargetEnd := by
    rw [TargetScan.step]
    split
    · split <;> rfl
    · rfl
  fun_induction scanTarget bindings requestIndex inputLen scan with
  | case1 scan hlt byte hspace => exact hlt
  | case2 scan hlt byte hspace ih => exact ih ((hstep scan byte).trans hscan) h
  | case3 scan hge => exact absurd (hscan.symm.trans h) Bool.false_ne_true

theorem scanTarget_checked (scan : TargetScan) :
    Checked.scanTarget uploads requestIndex inputLen scan =
      some (scanTarget bindings requestIndex inputLen scan) := by
  fun_induction scanTarget bindings requestIndex inputLen scan with
  | case1 scan hlt byte hspace =>
      rw [Checked.scanTarget, if_pos hlt, hloads.byte _ (UInt32.lt_iff_toNat_lt.mp hlt)]
      exact if_pos hspace
  | case2 scan hlt byte hspace ih =>
      rw [Checked.scanTarget, if_pos hlt, hloads.byte _ (UInt32.lt_iff_toNat_lt.mp hlt)]
      exact (if_neg hspace).trans ih
  | case3 scan hge => rw [Checked.scanTarget, if_neg hge]

theorem parseGetTarget_checked (hfits : inputLen.toNat + 16 ≤ 2 ^ 32) :
    Checked.parseGetTarget uploads requestIndex inputLen =
      some (parseGetTarget bindings requestIndex inputLen) := by
  have hfirst : Checked.either (some (decide (inputLen ≤ 4))) (do
      let byte ← Checked.requestByte uploads requestIndex 4
      return byte ≠ 47) =
        some (decide (inputLen ≤ 4 ∨ requestByte bindings requestIndex 4 ≠ 47)) := by
    refine either_decide fun hlong => ?_
    rw [hloads.byte 4 (UInt32.lt_iff_toNat_lt.mp (UInt32.not_le.mp hlong))]
    rfl
  have hscan := @scanTarget_cursor_lt bindings requestIndex inputLen
    ⟨4, fnvOffsetBasis, 0, 0, 0, false, false⟩ rfl
  rw [Checked.parseGetTarget, parseGetTarget]
  simp only
  rw [hfirst, scanTarget_checked hloads]
  generalize scanTarget bindings requestIndex inputLen
    ⟨4, fnvOffsetBasis, 0, 0, 0, false, false⟩ = scan at *
  simp only [Option.bind_eq_bind, Option.bind_some, Option.pure_def, decide_eq_true_iff]
  split
  · rfl
  split
  · rfl
  case isFalse hfound =>
    have hlt := hscan (by simpa using fun hnone => hfound (Or.inl hnone))
    rw [hasSupportedHttpVersion_checked hloads hfits
      (by rw [succ_toNat hlt]; exact UInt32.lt_iff_toNat_lt.mp hlt)]
    simp only [Option.bind_some]
    split <;> rfl

end RequestLine

section Routes

variable {router : CompiledRouter} {texts : List Text} {uploads : Uploads} {bindings : Bindings}
  {requestIndex : UInt32} {request : List UInt8} {target : RequestTarget}

/-- A route is compared from its loads: the lengths agree before the paths are read. -/
theorem LoadsRouter.routeMatches (h : LoadsRouter router uploads bindings)
    (harena : ArenaTexts router texts) (htexts : ReadsTexts bindings texts)
    (hrequest : LoadsRequest uploads bindings requestIndex request.length)
    (htarget : InRequest bindings requestIndex request target) {index : UInt32}
    {route : CompiledRoute} (hindex : index.toNat < router.routes.length)
    (hroute : ReadsRoute router texts bindings index route) :
    Checked.routeMatches uploads requestIndex target index =
      some (routeMatches bindings requestIndex target index) := by
  have hword (field : UInt32) (hfield : field.toNat < 4) := h.routes index field hindex hfield
  have hdiffer : Checked.either (do
      let pathHash ← Checked.routeWord uploads index routePathHash
      return pathHash ≠ target.pathHash) (do
      let pathLen ← Checked.routeWord uploads index routePathLen
      return pathLen ≠ target.pathLen) =
        some (decide (routeWord bindings index routePathHash ≠ target.pathHash ∨
          routeWord bindings index routePathLen ≠ target.pathLen)) := by
    rw [hword routePathHash (by decide), hword routePathLen (by decide)]
    exact either_some
  have hfits := htarget.fits
  have hleft := hrequest.range htarget.path (by omega)
  rw [Checked.routeMatches, Shader.routeMatches]
  simp only
  rw [hdiffer]
  simp only [Option.bind_eq_bind, Option.bind_some, decide_eq_true_iff]
  split
  · rfl
  case isFalse hsame =>
    have hpath := hroute.path
    have hid : (routeWord bindings index routePathString).toNat < router.strings.length := by
      rw [← harena.length]
      exact (List.getElem?_eq_some_iff.mp hpath).1
    have hright := (h.strings _ hid).bytes
    have hlen : target.pathLen.toNat ≤
        (bindings.stringMeta (routeWord bindings index routePathString)).byteLen.toNat := by
      rw [htexts.len _ _ hpath, ← hroute.len, not_not.mp (not_or.mp hsame).2]
    rw [hword routePathString (by decide)]
    simp only [Option.bind_some]
    rw [matchWords_checked hleft hright (le_refl _) hlen 0 (Nat.zero_le _)]
    simp only [Option.bind_some]
    cases matchWords (fun i => requestWord bindings requestIndex (target.pathStart + i))
      (stringWord bindings (routeWord bindings index routePathString)) target.pathLen 0 with
    | none => rfl
    | some byteIndex => exact matchBytes_checked hleft hright (le_refl _) hlen byteIndex

/-- The search loads entries of the table only. -/
theorem LoadsRouter.lowerBound (h : LoadsRouter router uploads bindings) (lower upper : UInt32)
    (hupper : upper.toNat ≤ router.routes.length) :
    Checked.lowerBound uploads target lower upper =
      some (lowerBound bindings target lower upper) := by
  fun_induction Shader.lowerBound bindings target lower upper with
  | case1 lower upper hlt middle hsmaller ih =>
      have hmiddle : lower.toNat ≤ middle.toNat ∧ middle.toNat < upper.toNat := middle_toNat hlt
      rw [Checked.lowerBound, if_pos hlt]
      simp only
      rw [h.routes middle routePathHash (by omega) (by decide)]
      exact (if_pos hsmaller).trans (ih hupper)
  | case2 lower upper hlt middle hlarger ih =>
      have hmiddle : lower.toNat ≤ middle.toNat ∧ middle.toNat < upper.toNat := middle_toNat hlt
      rw [Checked.lowerBound, if_pos hlt]
      simp only
      rw [h.routes middle routePathHash (by omega) (by decide)]
      exact (if_neg hlarger).trans (ih (by omega))
  | case3 lower upper hge => rw [Checked.lowerBound, if_neg hge]

/-- The walk over the routes of a hash stays in the table. -/
theorem LoadsRouter.probeRoutes (h : LoadsRouter router uploads bindings)
    (harena : ArenaTexts router texts) (htexts : ReadsTexts bindings texts)
    (hcount : bindings.params.routeCount.toNat = router.routes.length)
    (hroutes : ∀ (index : UInt32) (route : CompiledRoute),
      router.routes[index.toNat]? = some route → ReadsRoute router texts bindings index route)
    (hrequest : LoadsRequest uploads bindings requestIndex request.length)
    (htarget : InRequest bindings requestIndex request target) (index : UInt32) :
    Checked.probeRoutes uploads requestIndex target index =
      some (probeRoutes bindings requestIndex target index) := by
  have hparams := h.bound.params
  have inside {index : UInt32} (hlt : index < bindings.params.routeCount) :
      index.toNat < router.routes.length := by
    rw [← hcount]
    exact UInt32.lt_iff_toNat_lt.mp hlt
  have hmatches {index : UInt32} (hlt : index < bindings.params.routeCount) :=
    h.routeMatches harena htexts hrequest htarget (inside hlt)
      (hroutes index _ (List.getElem?_eq_getElem (inside hlt)))
  fun_induction Shader.probeRoutes bindings requestIndex target index with
  | case1 index hlt hother =>
      rw [Checked.probeRoutes, ← hparams, if_pos hlt, h.routes index routePathHash (inside hlt)
        (by decide)]
      exact if_pos hother
  | case2 index hlt hsame hmatch =>
      rw [Checked.probeRoutes, ← hparams, if_pos hlt, h.routes index routePathHash (inside hlt)
        (by decide), hmatches hlt, hmatch]
      exact (if_neg hsame).trans (h.routes index routeResponseOffset (inside hlt) (by decide))
  | case3 index hlt hsame hmatch ih =>
      rw [Checked.probeRoutes, ← hparams, if_pos hlt, h.routes index routePathHash (inside hlt)
        (by decide), hmatches hlt, Bool.eq_false_iff.mpr hmatch]
      exact (if_neg hsame).trans ih
  | case4 index hge => rw [Checked.probeRoutes, ← hparams, if_neg hge]

theorem LoadsRouter.findResponseOffset (h : LoadsRouter router uploads bindings)
    (compiled : IsCompiled router) (hstores : Stores bindings.routerWords router.routerWords)
    (harena : ArenaTexts router texts) (htexts : ReadsTexts bindings texts)
    (hlayout : LaidOut router bindings.params)
    (hrequest : LoadsRequest uploads bindings requestIndex request.length)
    (htarget : InRequest bindings requestIndex request target) :
    Checked.findResponseOffset uploads requestIndex target =
      some (findResponseOffset bindings requestIndex target) := by
  have hcount : bindings.params.routeCount.toNat = router.routes.length := by
    rw [hlayout.routeCount, compiled.count]
  have hroutes (index : UInt32) (route : CompiledRoute)
      (hroute : router.routes[index.toNat]? = some route) :
      ReadsRoute router texts bindings index route :=
    readsRoute compiled hstores harena hroute
  rw [Checked.findResponseOffset, ← h.bound.params, h.lowerBound 0 _ hcount.le]
  exact h.probeRoutes harena htexts hcount hroutes hrequest htarget _

end Routes

section Invocations

variable {router : CompiledRouter} {texts : List Text} {uploads : Uploads} {bindings : Bindings}
  {requestIndex : UInt32} {request : List UInt8}

theorem processRequests_checked_of_le (h : uploads.params.requestCount ≤ requestIndex)
    (storage : Storage) : Checked.processRequests uploads requestIndex storage = some storage := by
  rw [Checked.processRequests, if_pos h]

/-- An invocation returns what it computes from its loads: none of them fails. -/
theorem LoadsRouter.processRequests (h : LoadsRouter router uploads bindings)
    (compiled : IsCompiled router) (hrouter : uploads.routerWords = router.routerWords)
    (harena : ArenaTexts router texts) (htexts : ReadsTexts bindings texts)
    (hlayout : LaidOut router bindings.params)
    (hmeta : uploads.requestMeta[requestIndex.toNat]? = some (bindings.requestMeta requestIndex))
    (hpresented : Presented bindings requestIndex request)
    (hrequest : LoadsRequest uploads bindings requestIndex request.length)
    (hfits : request.length + 16 ≤ 2 ^ 32) (storage : Storage) :
    Checked.processRequests uploads requestIndex storage =
      some (processRequests bindings requestIndex storage) := by
  have hlen := hpresented.len
  have hlt : request.length < 2 ^ 32 := by omega
  have hline : LoadsRequest uploads bindings requestIndex
      (bindings.requestMeta requestIndex).inputLen.toNat := hlen.symm ▸ hrequest
  have hinvalid := @inRequest_invalidTarget bindings requestIndex
    (bindings.requestMeta requestIndex).inputLen request hpresented hlt
  have hstores : Stores bindings.routerWords router.routerWords := hrouter ▸ h.bound.routerWords
  have respond {response : CompiledResponse} {offset : UInt32}
      (hresponse : ResponseOffset router response offset) {target : RequestTarget}
      (htarget : InRequest bindings requestIndex request target) :=
    h.writeResponse compiled hrouter hresponse hrequest htarget storage
  have hbadRequest : ResponseOffset router router.badRequest
      bindings.params.badRequestResponseOffset := hlayout.badRequest ▸ .badRequest
  have hmethod : ResponseOffset router router.methodNotAllowed
      bindings.params.methodNotAllowedResponseOffset := hlayout.methodNotAllowed ▸ .methodNotAllowed
  rw [Checked.processRequests, Shader.processRequests, ← h.bound.params]
  split
  · rfl
  rw [hmeta]
  simp only [Option.bind_eq_bind, Option.bind_some]
  split
  · exact respond hbadRequest hinvalid
  rw [isGetRequest_checked hline]
  simp only [Option.bind_some]
  split
  · exact respond hmethod hinvalid
  have htarget := inRequest_parseGetTarget hpresented hlen hfits
  rw [parseGetTarget_checked hline (by omega)]
  simp only [Option.bind_some]
  split
  · exact respond hbadRequest htarget
  rw [h.findResponseOffset compiled hstores harena htexts hlayout hrequest htarget]
  exact respond (findResponseOffset_eq compiled hstores harena hlayout htexts htarget).response
    htarget

end Invocations

end Shader
end Http
end Gput
