import Mathlib.Algebra.Order.BigOperators.Group.List
import Gput.Http.Processor
import Gput.Http.ShaderWriter

/-!
# The meaning of the response bytecode

A compiled response is emitted as a descriptor and a program of operations.  The
shader decodes it twice, once for the length of the body and once for its bytes.
Run over the emitted words and the string arena, it writes what the response
says: `writeResponse_answered`.
-/

namespace Gput
namespace Http
namespace Shader

open ByteString LittleEndian WordMemory Decimal

/-- The operation of a segment. -/
def operationOf : CompiledSegment → UInt32 × UInt32 × UInt32
  | .literal stringId => (bodyOpLiteral, stringId, 0)
  | .path maxBytes => (bodyOpPath, UInt32.ofNat maxBytes, 0)
  | .query maxBytes => (bodyOpQuery, UInt32.ofNat maxBytes, 0)
  | .backend => (bodyOpBackend, 0, 0)
  | .requestBytes => (bodyOpRequestBytes, 0, 0)
  | .pathHash => (bodyOpPathHash, 0, 0)
  | .backendVariant cpu gpu => (bodyOpBackendVariant, cpu, gpu)

theorem emitSegment_ok {segment : CompiledSegment} {words : List UInt32}
    (h : emitSegment segment = .ok words) :
    words = [(operationOf segment).1, (operationOf segment).2.1, (operationOf segment).2.2] := by
  cases segment with
  | path maxBytes =>
      obtain ⟨_, -, h⟩ := Outcome.bind_eq_ok.mp h
      exact (Outcome.ok.inj h).symm
  | query maxBytes =>
      obtain ⟨_, -, h⟩ := Outcome.bind_eq_ok.mp h
      exact (Outcome.ok.inj h).symm
  | literal stringId => exact (Outcome.ok.inj h).symm
  | backend => exact (Outcome.ok.inj h).symm
  | requestBytes => exact (Outcome.ok.inj h).symm
  | pathHash => exact (Outcome.ok.inj h).symm
  | backendVariant cpu gpu => exact (Outcome.ok.inj h).symm

/-- The words of a program: three for each segment. -/
theorem emitProgram_ok {segments : List CompiledSegment} {program : List UInt32}
    (h : emitProgram segments = .ok program) :
    program.length = 3 * segments.length ∧
      ∀ (j : Nat) (segment : CompiledSegment), segments[j]? = some segment →
        program[3 * j]? = some (operationOf segment).1 ∧
          program[3 * j + 1]? = some (operationOf segment).2.1 ∧
          program[3 * j + 2]? = some (operationOf segment).2.2 := by
  induction segments generalizing program with
  | nil =>
      cases h
      exact ⟨rfl, fun j segment hj => by cases hj⟩
  | cons first segments ih =>
      rw [emitProgram] at h
      obtain ⟨operation, hoperation, h⟩ := Outcome.bind_eq_ok.mp h
      obtain ⟨later, hlater, h⟩ := Outcome.bind_eq_ok.mp h
      cases h
      obtain ⟨hlength, hwords⟩ := ih hlater
      rw [emitSegment_ok hoperation]
      refine ⟨?_, ?_⟩
      · rw [List.length_append, hlength, List.length_cons]
        simp only [List.length_cons, List.length_nil]
        omega
      · intro j segment hj
        cases j with
        | zero =>
            cases hj
            exact ⟨rfl, rfl, rfl⟩
        | succ j => exact hwords j segment hj

section Words

variable {router : CompiledRouter} {bindings : Bindings}

/-- The words of an emitted response, as the shader addresses them. -/
theorem emitted_word (compiled : IsCompiled router)
    (hwords : Stores bindings.routerWords router.routerWords) {offset : UInt32}
    {words : List UInt32} (hextends : words <+: router.routerWords.drop offset.toNat)
    {k : Nat} {word : UInt32} (hk : words[k]? = some word) :
    bindings.routerWords (offset + UInt32.ofNat k) = word := by
  have hlt := (List.getElem?_eq_some_iff.mp hk).1
  have hle := hextends.length_le
  rw [List.length_drop] at hle
  have hfit := compiled.words_fit
  unfold u32Max at hfit
  refine hwords _ _ ?_
  obtain ⟨more, hmore⟩ := hextends
  have hindex : (offset + UInt32.ofNat k).toNat = offset.toNat + k := by
    rw [UInt32.toNat_add, UInt32.toNat_ofNat']
    omega
  rw [hindex, ← List.getElem?_drop, ← hmore, List.getElem?_append_left hlt, hk]

/-- The operations of a program. -/
def Operations (bindings : Bindings) (programOffset : UInt32) (segments : List CompiledSegment) :
    Prop :=
  ∀ (j : UInt32) (segment : CompiledSegment), segments[j.toNat]? = some segment →
    (bodyOpWord bindings programOffset j bodyOpCode,
      bodyOpWord bindings programOffset j bodyOpArg0,
      bodyOpWord bindings programOffset j bodyOpArg1) = operationOf segment

/-- What the shader reads of an emitted response. -/
structure Decoded (bindings : Bindings) (response : CompiledResponse) (offset : UInt32) : Prop where
  status : responseWord bindings offset responseStatus = response.status.toUInt32
  reason : responseWord bindings offset responseReasonString = response.reasonStringId
  contentType :
    responseWord bindings offset responseContentTypeString = response.contentTypeStringId
  count : (responseWord bindings offset responseProgramLen).toNat = response.segments.length
  operations :
    Operations bindings (responseWord bindings offset responseProgramOffset) response.segments

/-- The program of a response stands behind its descriptor. -/
theorem programOffset_eq (compiled : IsCompiled router)
    (hwords : Stores bindings.routerWords router.routerWords) {response : CompiledResponse}
    {offset : UInt32} (h : Emitted router.routerWords response offset) :
    responseWord bindings offset responseProgramOffset = offset + UInt32.ofNat 5 := by
  obtain ⟨program, -, hextends⟩ := h
  have hword : (descriptor response offset.toNat ++ program)[3]? =
      some (UInt32.ofNat (offset.toNat + 5)) := rfl
  refine (emitted_word compiled hwords hextends hword).trans ?_
  rw [UInt32.ofNat_add, UInt32.ofNat_toNat]

theorem decoded_of_emitted (compiled : IsCompiled router)
    (hwords : Stores bindings.routerWords router.routerWords) {response : CompiledResponse}
    {offset : UInt32} (h : Emitted router.routerWords response offset) :
    Decoded bindings response offset := by
  have hstart := programOffset_eq compiled hwords h
  obtain ⟨program, hprogram, hextends⟩ := h
  obtain ⟨hlength, hoperations⟩ := emitProgram_ok hprogram
  have hle := hextends.length_le
  rw [List.length_append, List.length_drop, hlength] at hle
  have hdescriptor : (descriptor response offset.toNat).length = 5 := rfl
  have hfit := compiled.words_fit
  unfold u32Max at hfit
  have hword {k : Nat} {word : UInt32}
      (hk : (descriptor response offset.toNat ++ program)[k]? = some word) :
      bindings.routerWords (offset + UInt32.ofNat k) = word :=
    emitted_word compiled hwords hextends hk
  refine
    { status := @hword 0 response.status.toUInt32 rfl
      reason := @hword 1 response.reasonStringId rfl
      contentType := @hword 2 response.contentTypeStringId rfl
      count := ?_
      operations := ?_ }
  · rw [responseWord]
    refine (congrArg UInt32.toNat
      (@hword 4 (UInt32.ofNat response.segments.length) rfl)).trans ?_
    rw [UInt32.toNat_ofNat']
    omega
  · intro j segment hj
    have hlt := (List.getElem?_eq_some_iff.mp hj).1
    obtain ⟨hcode, harg0, harg1⟩ := hoperations j.toNat segment hj
    have haddress (field : Nat) (hfield : field < 3) :
        responseWord bindings offset responseProgramOffset + j * bodyOpWords + UInt32.ofNat field =
          offset + UInt32.ofNat (5 + (3 * j.toNat + field)) := by
      have hthree : bodyOpWords.toNat = 3 := rfl
      rw [hstart]
      apply UInt32.toNat_inj.mp
      simp only [UInt32.toNat_add, UInt32.toNat_mul, UInt32.toNat_ofNat', hthree]
      omega
    have hat {field : Nat} {word : UInt32} (hfield : field < 3)
        (hwordAt : program[3 * j.toNat + field]? = some word) :
        bodyOpWord bindings (responseWord bindings offset responseProgramOffset) j
          (UInt32.ofNat field) = word := by
      rw [bodyOpWord, haddress field hfield]
      refine hword ?_
      rw [List.getElem?_append_right (by omega), hdescriptor, Nat.add_sub_cancel_left, hwordAt]
    exact Prod.ext (@hat 0 _ (by omega) hcode)
      (Prod.ext (@hat 1 _ (by omega) harg0) (@hat 2 _ (by omega) harg1))

/-- The loop over a program takes its segments in order. -/
theorem forOperations_eq {α : Type} {programOffset operationCount : UInt32}
    {segments : List CompiledSegment} (hoperations : Operations bindings programOffset segments)
    (hcount : operationCount.toNat = segments.length) (step : UInt32 → UInt32 → UInt32 → α → α)
    (operationIndex : UInt32) (state : α) (hindex : operationIndex.toNat ≤ segments.length) :
    forOperations bindings programOffset operationCount step operationIndex state =
      (segments.drop operationIndex.toNat).foldl
        (fun state segment =>
          step (operationOf segment).1 (operationOf segment).2.1 (operationOf segment).2.2 state)
        state := by
  fun_induction forOperations bindings programOffset operationCount step operationIndex state with
  | case1 operationIndex state hlt ih =>
      have hnext := succ_toNat hlt
      have hlt := UInt32.lt_iff_toNat_lt.mp hlt
      have hlt' : operationIndex.toNat < segments.length := by omega
      have hoperation := hoperations operationIndex _ (List.getElem?_eq_getElem hlt')
      rw [ih (by omega), hnext, List.drop_eq_getElem_cons hlt', List.foldl_cons, ← hoperation]
  | case2 operationIndex state hge =>
      have hge := UInt32.le_iff_toNat_le.mp (UInt32.not_lt.mp hge)
      rw [List.drop_eq_nil_of_le (by omega), List.foldl_nil]

end Words

/-- The strings an invocation reads under their ids. -/
structure ReadsTexts (bindings : Bindings) (texts : List Text) : Prop where
  read : ∀ (id : UInt32) (text : Text), texts[id.toNat]? = some text →
    Reads (stringWord bindings id) (stringByte bindings id) text
  len : ∀ (id : UInt32) (text : Text), texts[id.toNat]? = some text →
    (bindings.stringMeta id).byteLen.toNat = text.length

/-- An uploaded arena is read string by string. -/
theorem Uploaded.readsTexts {router : CompiledRouter} {assets : ShaderAssets} {bindings : Bindings}
    (h : Uploaded router assets bindings) (hassets : buildShaderAssets router = .ok assets) :
    ReadsTexts bindings assets.texts := by
  obtain ⟨arena, hwords, hlen, -, hlocated⟩ := buildShaderAssets_spec hassets
  have harena : arena.length ≤ 2 ^ 32 := hlen ▸ h.arena
  have hholds : Holds bindings.stringWords 0 arena := by
    have hstores := h.stringWords
    rw [hwords, packBytes_eq] at hstores
    exact hstores.holds harena
  constructor
  · intro id text hid
    obtain ⟨string, hstring, hat⟩ := hlocated id.toNat text hid
    have hextends := hat.bytes
    have hle := hextends.length_le
    have hoffset := string.byteOffset.toNat_lt
    rw [List.length_drop] at hle
    rw [← h.stringMeta id string hstring] at hextends hle hoffset
    exact hholds.reads (by omega) hextends
  · intro id text hid
    obtain ⟨string, hstring, hat⟩ := hlocated id.toNat text hid
    rw [h.stringMeta id string hstring]
    exact hat.len

/-- The texts of an arena against the strings of its router: one of them is
replaced by a shorter one. -/
structure ArenaTexts (router : CompiledRouter) (texts : List Text) : Prop where
  length : texts.length = router.strings.length
  le : ∀ i, (texts.getD i []).length ≤ (router.strings.getD i []).length
  same : ∀ i, i ≠ router.shaderStringIds.headerTail.toNat → texts[i]? = router.strings[i]?
  tail : texts[router.shaderStringIds.headerTail.toNat]? = some persistentGpuHeaderTail

theorem arenaTexts_of_build {router : CompiledRouter} (compiled : IsCompiled router)
    {assets : ShaderAssets} (hassets : buildShaderAssets router = .ok assets) :
    ArenaTexts router assets.texts := by
  obtain ⟨arena, -, -, htexts, -⟩ := buildShaderAssets_spec hassets
  have hat (i : Nat) : assets.texts[i]? =
      router.strings[i]?.map (shaderText router.shaderStringIds i) := by
    rw [htexts, List.getElem?_mapIdx]
  have htail := compiled.ids.headerTail
  refine ⟨by rw [htexts, List.length_mapIdx], fun i => ?_, fun i hi => ?_, ?_⟩
  · rw [List.getD_eq_getElem?_getD, List.getD_eq_getElem?_getD, hat]
    cases hvalue : router.strings[i]? with
    | none => exact le_refl 0
    | some value =>
        rw [Option.map_some, Option.getD_some, Option.getD_some, shaderText]
        split
        case isTrue heq =>
          rw [heq, htail] at hvalue
          cases hvalue
          decide
        case isFalse => exact le_refl _
  · rw [hat]
    cases router.strings[i]? with
    | none => rfl
    | some value => rw [Option.map_some, shaderText, if_neg hi]
  · rw [hat, htail, Option.map_some, shaderText, if_pos rfl]

/-- The router over the texts of an arena. -/
def withTexts (router : CompiledRouter) (texts : List Text) : CompiledRouter :=
  { router with strings := texts }

/-- The path and the query a target stands for. -/
def targetParts (request : List UInt8) (target : RequestTarget) : RequestParts where
  path := (request.drop target.pathStart.toNat).take target.pathLen.toNat
  query := (request.drop target.queryStart.toNat).take target.queryLen.toNat
  pathHash := target.pathHash

/-- A request in the input words, and a target whose ranges lie inside it. -/
structure InRequest (bindings : Bindings) (requestIndex : UInt32) (request : List UInt8)
    (target : RequestTarget) : Prop where
  stored : Holds bindings.inputWords (bindings.requestMeta requestIndex).wordOffset request
  fits : request.length < 2 ^ 32
  path : target.pathStart.toNat + target.pathLen.toNat ≤ request.length
  query : target.queryStart.toNat + target.queryLen.toNat ≤ request.length

section Segments

variable {router : CompiledRouter} {texts : List Text} {bindings : Bindings}
  {requestIndex : UInt32} {request : List UInt8} {target : RequestTarget}

section Appending

variable (hcapacity : 4 * bindings.params.responseStrideWords.toNat < 2 ^ 32)
include hcapacity

theorem writerPushString_appends (htexts : ReadsTexts bindings texts) {id : UInt32} {text : Text}
    (hid : texts[id.toNat]? = some text) :
    Appends bindings.params requestIndex (writerPushString bindings id) text :=
  pushRange_appends hcapacity (htexts.read id text hid) (htexts.len id text hid)

/-- The part of a range that a limit leaves. -/
theorem writerPushRequestRange_spec
    (hstored : Holds bindings.inputWords (bindings.requestMeta requestIndex).wordOffset request)
    (hfits : request.length < 2 ^ 32) {start len : UInt32}
    (hrange : start.toNat + len.toNat ≤ request.length) {limit : Nat} (hlimit : limit ≤ u32Max) :
    let text := (request.drop start.toNat).take len.toNat
    let bytes := text.take (min text.length limit)
    (min len (UInt32.ofNat limit)).toNat = bytes.length ∧
      Appends bindings.params requestIndex
        (writerPushRequestRange bindings requestIndex start (min len (UInt32.ofNat limit)))
        bytes := by
  have hword : (UInt32.ofNat limit).toNat = limit := ofNat_toNat_of_fits hlimit
  have hlen : ((request.drop start.toNat).take len.toNat).length = len.toNat := by
    rw [List.length_take, List.length_drop]
    omega
  have hbytes : (min len (UInt32.ofNat limit)).toNat =
      (((request.drop start.toNat).take len.toNat).take (min len.toNat limit)).length := by
    rw [UInt32.toNat_min, hword, List.length_take, hlen]
    omega
  simp only
  rw [hlen]
  refine ⟨hbytes, pushRange_appends hcapacity (hstored.reads ?_ ?_) hbytes⟩
  · rw [← hbytes, UInt32.toNat_min]
    omega
  · rw [List.take_take]
    exact List.take_prefix _ _

end Appending

/-- A number of 32 bits has at most ten digits. -/
theorem decimal_length_le (n : UInt32) : (decimal n.toNat).length ≤ 10 := by
  have hlog : Nat.log 10 n.toNat < 10 :=
    Nat.log_lt_of_lt_pow' (by omega) (Nat.lt_of_lt_of_le n.toNat_lt (by norm_num))
  rw [length_decimal]
  omega

theorem take_min_length_le (text : Text) (limit : Nat) :
    (text.take (min text.length limit)).length ≤ limit := by
  rw [List.length_take]
  omega

/-- An operation counts and appends what its segment renders. -/
theorem operation_spec (hcapacity : 4 * bindings.params.responseStrideWords.toNat < 2 ^ 32)
    (htexts : ReadsTexts bindings texts)
    (hbackend : texts[bindings.ids.backendGpu.toNat]? = some (ascii "gpu"))
    (htarget : InRequest bindings requestIndex request target) {segment : CompiledSegment}
    (hstored : SegmentStored texts segment) :
    let operation := operationOf segment
    ∃ bytes, (withTexts router texts).renderSegment (targetParts request target)
        target.inputLen.toNat (ascii "gpu") segment = .ok bytes ∧
      bytes.length ≤ gpuSegmentBytes texts segment ∧
      (operationLen bindings operation.1 operation.2.1 operation.2.2 target).toNat =
        bytes.length ∧
      Appends bindings.params requestIndex
        (writeOperation bindings requestIndex operation.1 operation.2.1 operation.2.2 target)
        bytes := by
  have hstring {id : UInt32} (hid : id.toNat < texts.length) :
      ∃ text, texts[id.toNat]? = some text ∧ (withTexts router texts).string id = .ok text ∧
        text.length ≤ (texts.getD id.toNat []).length := by
    have hat := List.getElem?_eq_getElem hid
    refine ⟨_, hat, @string_eq (withTexts router texts) id _ hat, ?_⟩
    rw [List.getD_eq_getElem?_getD, hat, Option.getD_some]
  cases segment with
  | literal stringId =>
      obtain ⟨text, hat, hrender, hle⟩ := hstring hstored
      exact ⟨text, hrender, hle, htexts.len stringId text hat,
        writerPushString_appends hcapacity htexts hat⟩
  | path maxBytes =>
      obtain ⟨hlen, happends⟩ := writerPushRequestRange_spec hcapacity htarget.stored htarget.fits
        htarget.path hstored
      exact ⟨_, rfl, take_min_length_le _ _, hlen, happends⟩
  | query maxBytes =>
      obtain ⟨hlen, happends⟩ := writerPushRequestRange_spec hcapacity htarget.stored htarget.fits
        htarget.query hstored
      exact ⟨_, rfl, take_min_length_le _ _, hlen, happends⟩
  | backend =>
      exact ⟨_, rfl, le_refl 3, htexts.len _ _ hbackend,
        writerPushString_appends hcapacity htexts hbackend⟩
  | requestBytes =>
      exact ⟨_, rfl, decimal_length_le _, decimalWidth_toNat _,
        writerPushDecimal_appends hcapacity target.inputLen⟩
  | pathHash =>
      exact ⟨_, rfl, decimal_length_le _, decimalWidth_toNat _,
        writerPushDecimal_appends hcapacity target.pathHash⟩
  | backendVariant cpu gpu =>
      obtain ⟨text, hat, hrender, hle⟩ := hstring hstored.2
      refine ⟨text, ?_, hle, htexts.len gpu text hat,
        writerPushString_appends hcapacity htexts hat⟩
      rw [CompiledRouter.renderSegment, if_pos rfl]
      exact hrender

/-- A program counts and appends the body its segments render. -/
theorem body_spec (hcapacity : 4 * bindings.params.responseStrideWords.toNat < 2 ^ 32)
    (htexts : ReadsTexts bindings texts)
    (hbackend : texts[bindings.ids.backendGpu.toNat]? = some (ascii "gpu"))
    (htarget : InRequest bindings requestIndex request target) {segments : List CompiledSegment}
    (hstored : ∀ segment ∈ segments, SegmentStored texts segment) :
    ∃ body, (withTexts router texts).renderBody (targetParts request target)
        target.inputLen.toNat (ascii "gpu") segments = .ok body ∧
      body.length ≤ (segments.map (gpuSegmentBytes texts)).sum ∧
      (∀ start : UInt32, start.toNat + body.length < 2 ^ 32 →
        (segments.foldl (fun bodyLen segment =>
          bodyLen + operationLen bindings (operationOf segment).1 (operationOf segment).2.1
            (operationOf segment).2.2 target) start).toNat = start.toNat + body.length) ∧
      Appends bindings.params requestIndex
        (segments.foldl (fun output segment =>
          writeOperation bindings requestIndex (operationOf segment).1 (operationOf segment).2.1
            (operationOf segment).2.2 target output)) body := by
  induction segments with
  | nil => exact ⟨[], rfl, le_refl 0, fun start _ => rfl, Appends.nil _ _⟩
  | cons segment segments ih =>
      obtain ⟨bytes, hrender, hle, hlen, happends⟩ :=
        @operation_spec router texts bindings requestIndex request target hcapacity htexts hbackend
          htarget segment (hstored segment List.mem_cons_self)
      obtain ⟨later, hlater, hle', hlen', happends'⟩ :=
        ih fun other hmem => hstored other (List.mem_cons_of_mem _ hmem)
      refine ⟨bytes ++ later, ?_, ?_, fun start hstart => ?_, happends.comp happends'⟩
      · rw [CompiledRouter.renderBody, hrender, Outcome.ok_bind, hlater]
        rfl
      · rw [List.length_append, List.map_cons, List.sum_cons]
        omega
      · rw [List.length_append] at hstart ⊢
        have hsum : (start + operationLen bindings (operationOf segment).1
            (operationOf segment).2.1 (operationOf segment).2.2 target).toNat =
              start.toNat + bytes.length := by
          rw [UInt32.toNat_add, hlen, Nat.mod_eq_of_lt (by omega)]
        rw [List.foldl_cons, hlen' _ (by omega), hsum, Nat.add_assoc]

/-- Stored segments stay stored, and take no more bytes, over the texts of an arena. -/
theorem ArenaTexts.segment (h : ArenaTexts router texts) (segment : CompiledSegment) :
    (SegmentStored router.strings segment → SegmentStored texts segment) ∧
      gpuSegmentBytes texts segment ≤ gpuSegmentBytes router.strings segment := by
  cases segment with
  | literal stringId =>
      exact ⟨fun hstored => Nat.lt_of_lt_of_le hstored h.length.ge, h.le _⟩
  | backendVariant cpu gpu =>
      exact ⟨fun hstored => ⟨Nat.lt_of_lt_of_le hstored.1 h.length.ge,
        Nat.lt_of_lt_of_le hstored.2 h.length.ge⟩, h.le _⟩
  | path maxBytes => exact ⟨id, le_refl _⟩
  | query maxBytes => exact ⟨id, le_refl _⟩
  | backend => exact ⟨id, le_refl _⟩
  | requestBytes => exact ⟨id, le_refl _⟩
  | pathHash => exact ⟨id, le_refl _⟩

end Segments

/-- What a compiled response says, when an id stands for a string of the router. -/
def responseMeaning (router : CompiledRouter) (parts : RequestParts) (inputLen : Nat)
    (response : CompiledResponse) : Outcome (List UInt8) := do
  let ids := router.shaderStringIds
  let httpVersion ← router.string ids.httpVersion
  let reason ← router.string response.reasonStringId
  let headerContentType ← router.string ids.headerContentType
  let contentType ← router.string response.contentTypeStringId
  let headerContentLength ← router.string ids.headerContentLength
  let headerTail ← router.string ids.headerTail
  let body ← router.renderBody parts inputLen (ascii "gpu") response.segments
  return httpVersion ++ decimal response.status.toNat ++ ascii " " ++ reason ++
    headerContentType ++ contentType ++ headerContentLength ++ decimal body.length ++ headerTail ++
    body

theorem decimalDigits_eq (n : Nat) : decimalDigits n = (decimal n).length := by
  rw [decimalDigits, length_decimal]
  cases n with
  | zero => rfl
  | succ n => rw [Nat.max_eq_left (by omega)]

section Responses

variable {router : CompiledRouter} {texts : List Text} {bindings : Bindings}
  {requestIndex : UInt32} {request : List UInt8} {target : RequestTarget}
  {response : CompiledResponse} {offset : UInt32}

/-- The fixed strings, over the texts of an arena. -/
theorem ArenaTexts.fixed (h : ArenaTexts router texts) {id : UInt32} {text : Text}
    (hid : router.strings[id.toNat]? = some text)
    (htail : router.strings[router.shaderStringIds.headerTail.toNat]? ≠ some text) :
    texts[id.toNat]? = some text := by
  rw [h.same id.toNat, hid]
  intro heq
  rw [heq] at hid
  exact htail hid

/-- A text of a string that is there. -/
theorem ArenaTexts.text (h : ArenaTexts router texts) {id : UInt32} {value : Text}
    (hid : router.strings[id.toNat]? = some value) :
    ∃ text, texts[id.toNat]? = some text ∧ text.length ≤ value.length := by
  have hlt : id.toNat < texts.length := by
    rw [h.length]
    exact (List.getElem?_eq_some_iff.mp hid).1
  have hat := List.getElem?_eq_getElem hlt
  have hle := h.le id.toNat
  rw [List.getD_eq_getElem?_getD, List.getD_eq_getElem?_getD, hat, hid] at hle
  exact ⟨_, hat, hle⟩

/-- The shader writes what a compiled response says. -/
theorem writeResponse_answered (compiled : IsCompiled router)
    (hids : bindings.ids = router.shaderStringIds) (hmem : response ∈ router.responses)
    (hdecoded : Decoded bindings response offset) (htexts : ReadsTexts bindings texts)
    (harena : ArenaTexts router texts) (htarget : InRequest bindings requestIndex request target)
    (hcapacity : 4 * bindings.params.responseStrideWords.toNat < 2 ^ 32)
    (hslot : router.maxGpuResponseBytes ≤ 4 * bindings.params.responseStrideWords.toNat)
    (storage : Storage) :
    ∃ bytes, responseMeaning (withTexts router texts) (targetParts request target)
        target.inputLen.toNat response = .ok bytes ∧
      0 < bytes.length ∧ bytes.length ≤ router.maxGpuResponseBytes ∧
      Answered bindings.params requestIndex storage
        (writeResponse bindings requestIndex offset target storage) response.status.toUInt32
        bytes := by
  have hgood := compiled.responses response hmem
  have hfixed := compiled.ids
  have hversion := harena.fixed hfixed.httpVersion (by rw [hfixed.headerTail]; decide)
  have htype := harena.fixed hfixed.headerContentType (by rw [hfixed.headerTail]; decide)
  have hlength := harena.fixed hfixed.headerContentLength (by rw [hfixed.headerTail]; decide)
  have hbackend := harena.fixed hfixed.backendGpu (by rw [hfixed.headerTail]; decide)
  have htail := harena.tail
  obtain ⟨reasonValue, contentValue, hreasonValue, hcontentValue, hlargest⟩ :=
    compiled.largest response hmem
  obtain ⟨reason, hreason, hreasonLe⟩ := harena.text hreasonValue
  obtain ⟨contentType, hcontent, hcontentLe⟩ := harena.text hcontentValue
  obtain ⟨body, hbody, hbodyLe, hbodyLen, hbodyAppends⟩ :=
    @body_spec router texts bindings requestIndex request target hcapacity htexts
      (by rw [hids]; exact hbackend) htarget response.segments
      fun segment hsegment => (harena.segment segment).1 (hgood.segments segment hsegment)
  have hsum : body.length ≤ response.maxGpuBodyBytes := by
    rw [hgood.gpuBytes]
    refine hbodyLe.trans (List.sum_le_sum fun segment _ => (harena.segment segment).2)
  have hdigits := length_decimal_mono hsum
  rw [maximumBytes, decimalDigits_eq, decimalDigits_eq] at hlargest
  have hbodyLenEq : (responseBodyLen bindings offset target).toNat = body.length := by
    have hfold := forOperations_eq hdecoded.operations hdecoded.count
      (fun opcode arg0 arg1 bodyLen => bodyLen + operationLen bindings opcode arg0 arg1 target) 0 0
      (Nat.zero_le _)
    have hzero : (0 : UInt32).toNat = 0 := rfl
    rw [responseBodyLen, hfold, hzero, List.drop_zero, hbodyLen 0 (by omega), hzero, Nat.zero_add]
  have hbodyWrite : Appends bindings.params requestIndex
      (writeResponseBody bindings requestIndex offset target) body := by
    intro before done output h hfits
    have hfold := forOperations_eq hdecoded.operations hdecoded.count
      (fun opcode arg0 arg1 output =>
        writeOperation bindings requestIndex opcode arg0 arg1 target output) 0 output
      (Nat.zero_le _)
    rw [writeResponseBody, hfold]
    exact hbodyAppends before done output h hfits
  have hstatus : response.status.toUInt32.toNat = response.status.toNat :=
    UInt16.toNat_toUInt32 _
  have pushString {id : UInt32} {text : Text} (hid : texts[id.toNat]? = some text) :=
    @writerPushString_appends texts bindings requestIndex hcapacity htexts id text hid
  have pushDecimal (value : UInt32) :=
    @writerPushDecimal_appends bindings.params requestIndex hcapacity value
  have hall := ((((((((((pushString hversion).comp (pushDecimal response.status.toUInt32)).comp
    (writerPushByte_appends hcapacity 32)).comp (pushString hreason)).comp
    (pushString htype)).comp (pushString hcontent)).comp (pushString hlength)).comp
    (pushDecimal (responseBodyLen bindings offset target))).comp (pushString htail)).comp
    hbodyWrite)
  rw [hstatus, hbodyLenEq] at hall
  have hmeaning : responseMeaning (withTexts router texts) (targetParts request target)
      target.inputLen.toNat response = .ok (ascii "HTTP/1.1 " ++ decimal response.status.toNat ++
        ascii " " ++ reason ++ ascii "\r\nContent-Type: " ++ contentType ++
        ascii "\r\nContent-Length: " ++ decimal body.length ++ persistentGpuHeaderTail ++ body) := by
    have string {id : UInt32} {text : Text} (hid : texts[id.toNat]? = some text) :
        (withTexts router texts).string id = .ok text := @string_eq (withTexts router texts) id _ hid
    exact Outcome.bind_eq_ok.mpr ⟨_, string hversion, Outcome.bind_eq_ok.mpr ⟨_, string hreason,
      Outcome.bind_eq_ok.mpr ⟨_, string htype, Outcome.bind_eq_ok.mpr ⟨_, string hcontent,
      Outcome.bind_eq_ok.mpr ⟨_, string hlength, Outcome.bind_eq_ok.mpr ⟨_, string htail,
      Outcome.bind_eq_ok.mpr ⟨_, hbody, rfl⟩⟩⟩⟩⟩⟩⟩
  rw [show [32] = ascii " " from rfl] at hall
  generalize hbytes : ascii "HTTP/1.1 " ++ decimal response.status.toNat ++ ascii " " ++ reason ++
    ascii "\r\nContent-Type: " ++ contentType ++ ascii "\r\nContent-Length: " ++
    decimal body.length ++ persistentGpuHeaderTail ++ body = bytes at hall hmeaning
  have hlen : bytes.length = 9 + (decimal response.status.toNat).length + 1 + reason.length + 16 +
      contentType.length + 18 + (decimal body.length).length + 39 + body.length := by
    simp only [← hbytes, List.length_append]
    rfl
  have hle : bytes.length ≤ router.maxGpuResponseBytes := by omega
  refine ⟨bytes, hmeaning, by omega, hle, ?_⟩
  have hwrite := writerFinish_answered response.status.toUInt32 hcapacity
    (hall _ [] _ (wrote_writerNew storage.outputWords) (hle.trans hslot)) (hle.trans hslot)
  rw [← hids] at hwrite
  simp only [writeResponse, hdecoded.status, hdecoded.reason, hdecoded.contentType]
  exact hwrite

end Responses

section Overflow

variable {bindings : Bindings} {requestIndex : UInt32} {target : RequestTarget}
  {response : CompiledResponse} {offset : UInt32}

/-- A slot of `2 ^ 30` words has, in the arithmetic of the shader, no bytes: the
first word fails the writer. -/
theorem pushRange_overflow {params : Params} (hfull : params.responseStrideWords * 4 = 0)
    (words : UInt32 → UInt32) (readWord readByte : UInt32 → UInt32) {byteLen : UInt32}
    (hlen : byteLen ≥ 4) :
    pushRange params readWord readByte byteLen ⟨writerNew requestIndex, words⟩ =
      writerFail ⟨writerNew requestIndex, words⟩ responseFlagOutputOverflow := by
  have hword : writerPushWord params ⟨writerNew requestIndex, words⟩ (readWord 0) =
      writerFail ⟨writerNew requestIndex, words⟩ responseFlagOutputOverflow := by
    simp only [writerPushWord, hfull]
    exact (if_neg (show ¬ (0 : UInt32) ≠ 0 by decide)).trans
      (if_pos (show (0 : UInt32) - 0 < 4 by decide))
  have hfailed :
      Failed (writerFail ⟨writerNew requestIndex, words⟩ responseFlagOutputOverflow) := by
    show (0 ||| 1 : UInt32) ≠ 0
    decide
  have hsub : byteLen - 0 ≥ 4 := by rwa [UInt32.sub_zero]
  rw [pushRange, pushWords, if_pos hsub, hword]
  simp only
  rw [pushWords_failed hfailed, pushBytes_failed hfailed]

theorem writerPushString_failed {output : Output} (h : Failed output) (id : UInt32) :
    writerPushString bindings id output = output :=
  pushRange_failed h _ _ _

theorem writerPushDecimal_failed {params : Params} {output : Output} (h : Failed output)
    (value : UInt32) : writerPushDecimal params value output = output :=
  pushDigits_failed h _ _

/-- The operations of segments leave a failed writer as it is. -/
theorem writeResponseBody_failed (hdecoded : Decoded bindings response offset) {output : Output}
    (h : Failed output) :
    writeResponseBody bindings requestIndex offset target output = output := by
  have hoperation (segment : CompiledSegment) :
      writeOperation bindings requestIndex (operationOf segment).1 (operationOf segment).2.1
        (operationOf segment).2.2 target output = output := by
    cases segment with
    | literal stringId => exact writerPushString_failed h _
    | path maxBytes => exact pushRange_failed h _ _ _
    | query maxBytes => exact pushRange_failed h _ _ _
    | backend => exact writerPushString_failed h _
    | requestBytes => exact writerPushDecimal_failed h _
    | pathHash => exact writerPushDecimal_failed h _
    | backendVariant cpu gpu => exact writerPushString_failed h _
  have hfold := forOperations_eq hdecoded.operations hdecoded.count
    (fun opcode arg0 arg1 output =>
      writeOperation bindings requestIndex opcode arg0 arg1 target output) 0 output (Nat.zero_le _)
  rw [writeResponseBody, hfold]
  induction (response.segments.drop (0 : UInt32).toNat) with
  | nil => rfl
  | cons segment segments ih => rw [List.foldl_cons, hoperation, ih]

/-- Every response fails in a slot without capacity. -/
theorem writeResponse_overflow (hdecoded : Decoded bindings response offset)
    (hfull : bindings.params.responseStrideWords * 4 = 0)
    (hversion : (bindings.stringMeta bindings.ids.httpVersion).byteLen ≥ 4) (storage : Storage) :
    ((writeResponse bindings requestIndex offset target storage).responseMeta requestIndex).flags =
      responseFlagOutputOverflow := by
  have hfirst : writerPushString bindings bindings.ids.httpVersion
      ⟨writerNew requestIndex, storage.outputWords⟩ =
        writerFail ⟨writerNew requestIndex, storage.outputWords⟩ responseFlagOutputOverflow :=
    pushRange_overflow hfull _ _ _ hversion
  have hfailed : Failed
      (writerFail ⟨writerNew requestIndex, storage.outputWords⟩ responseFlagOutputOverflow) := by
    show (0 ||| 1 : UInt32) ≠ 0
    decide
  simp only [writeResponse, hfirst, writerPushString_failed hfailed,
    writerPushDecimal_failed hfailed, writerPushByte_failed hfailed,
    writeResponseBody_failed hdecoded hfailed]
  exact (writerFinish_failed hfailed _ storage).trans (UInt32.zero_or)

end Overflow

/-- The offset `emit_response` returned for a response of a router. -/
inductive ResponseOffset (router : CompiledRouter) : CompiledResponse → UInt32 → Prop
  | route {i : Nat} {route : CompiledRoute} {offset : UInt32} (hroute : router.routes[i]? = some route)
      (hoffset : router.routerWords[i * routeStrideWords + 3]? = some offset) :
      ResponseOffset router route.response offset
  | fallback : ResponseOffset router router.fallback router.gpuLayout.fallbackResponseOffset
  | badRequest : ResponseOffset router router.badRequest router.gpuLayout.badRequestResponseOffset
  | methodNotAllowed : ResponseOffset router router.methodNotAllowed
      router.gpuLayout.methodNotAllowedResponseOffset

theorem ResponseOffset.emitted {router : CompiledRouter} {response : CompiledResponse}
    {offset : UInt32} (h : ResponseOffset router response offset) (compiled : IsCompiled router) :
    response ∈ router.responses ∧ Emitted router.routerWords response offset := by
  cases h with
  | @route i route offset hroute hoffset =>
      obtain ⟨found, hfound, -, hemitted⟩ := (compiled.entries i route hroute).response
      rw [hoffset] at hfound
      cases hfound
      exact ⟨List.mem_append_left _ (List.mem_map_of_mem (List.mem_of_getElem? hroute)), hemitted⟩
  | fallback => exact ⟨by simp [CompiledRouter.responses], compiled.fallback⟩
  | badRequest => exact ⟨by simp [CompiledRouter.responses], compiled.badRequest⟩
  | methodNotAllowed => exact ⟨by simp [CompiledRouter.responses], compiled.methodNotAllowed⟩

/-- The slot of a request holds what a compiled response says over the texts of
an arena. -/
def Means (router : CompiledRouter) (texts : List Text) (params : Params) (requestIndex : UInt32)
    (request : List UInt8) (target : RequestTarget) (response : CompiledResponse)
    (storage : Storage) : Prop :=
  ∃ bytes, responseMeaning (withTexts router texts) (targetParts request target)
      target.inputLen.toNat response = .ok bytes ∧
    slotBytes params requestIndex storage = bytes ∧
    storage.responseMeta requestIndex = ⟨UInt32.ofNat bytes.length, response.status.toUInt32, 0⟩

section Compiled

variable {router : CompiledRouter} {assets : ShaderAssets} {bindings : Bindings}
  {response : CompiledResponse} {offset : UInt32} {requestIndex : UInt32} {request : List UInt8}
  {target : RequestTarget}

/-- The words of the slots of a router. -/
theorem slot_words {params : Params}
    (hslot : wordsForBytes router.maxGpuResponseBytes = .ok params.responseStrideWords.toNat) :
    params.responseStrideWords.toNat = (router.maxGpuResponseBytes + 3) / 4 := by
  obtain ⟨_, -, hslot⟩ := Outcome.bind_eq_ok.mp hslot
  exact (Outcome.ok.inj hslot).symm

/-- In a slot the shader can address, the bytecode means what the response says. -/
theorem means_of_le (compiled : IsCompiled router) (hassets : buildShaderAssets router = .ok assets)
    (huploaded : Uploaded router assets bindings)
    (hslot : wordsForBytes router.maxGpuResponseBytes =
      .ok bindings.params.responseStrideWords.toNat)
    (hresponse : ResponseOffset router response offset)
    (htarget : InRequest bindings requestIndex request target)
    (hle : router.maxGpuResponseBytes ≤ 2 ^ 32 - 4) (storage : Storage) :
    Means router assets.texts bindings.params requestIndex request target response
      (writeResponse bindings requestIndex offset target storage) := by
  obtain ⟨hmem, hemitted⟩ := hresponse.emitted compiled
  have hwords := slot_words hslot
  obtain ⟨bytes, hmeaning, -, -, hanswered⟩ :=
    writeResponse_answered compiled huploaded.ids hmem
      (decoded_of_emitted compiled huploaded.routerWords hemitted)
      (huploaded.readsTexts hassets) (arenaTexts_of_build compiled hassets) htarget (by omega)
      (by omega) storage
  refine ⟨bytes, hmeaning, hanswered.slotBytes_eq, ?_⟩
  rw [← hanswered.outputLen, ← hanswered.status, ← hanswered.flags, UInt32.ofNat_toNat]

/-- A slot of `2 ^ 30` words has none of the bytes of a response. -/
theorem not_means_of_lt (compiled : IsCompiled router)
    (hassets : buildShaderAssets router = .ok assets)
    (huploaded : Uploaded router assets bindings)
    (hslot : wordsForBytes router.maxGpuResponseBytes =
      .ok bindings.params.responseStrideWords.toNat)
    (hresponse : ResponseOffset router response offset)
    (hlt : 2 ^ 32 - 4 < router.maxGpuResponseBytes) (storage : Storage) :
    ¬ Means router assets.texts bindings.params requestIndex request target response
      (writeResponse bindings requestIndex offset target storage) := by
  obtain ⟨-, hemitted⟩ := hresponse.emitted compiled
  have hwords := slot_words hslot
  have hmax := compiled.largest_fits
  unfold u32Max at hmax
  have hfull : bindings.params.responseStrideWords * 4 = 0 := by
    apply UInt32.toNat_inj.mp
    rw [UInt32.toNat_mul, hwords, show (router.maxGpuResponseBytes + 3) / 4 = 2 ^ 30 by omega]
    rfl
  have hversion : (bindings.stringMeta bindings.ids.httpVersion).byteLen ≥ 4 := by
    have hfixed := (arenaTexts_of_build compiled hassets).fixed compiled.ids.httpVersion
      (by rw [compiled.ids.headerTail]; decide)
    rw [ge_iff_le, UInt32.le_iff_toNat_le, huploaded.ids,
      (huploaded.readsTexts hassets).len _ _ hfixed]
    decide
  have hflags := @writeResponse_overflow bindings requestIndex target response offset
    (decoded_of_emitted compiled huploaded.routerWords hemitted) hfull hversion storage
  rintro ⟨bytes, -, -, hmeta⟩
  rw [hmeta] at hflags
  exact absurd (show (0 : UInt32) = 1 from hflags) (by decide)

/-- **The response bytecode means what the response says.**  The slots lie in one
storage binding, and the limit of the device on its size is a `u32`: it is
requested with wgpu's downlevel defaults, `2 ^ 27` bytes. -/
theorem bytecode_means {source : Router} (hcompile : compile source = .ok router)
    (hassets : buildShaderAssets router = .ok assets) (huploaded : Uploaded router assets bindings)
    (hslot : wordsForBytes router.maxGpuResponseBytes =
      .ok bindings.params.responseStrideWords.toNat)
    {maxStorageBufferBindingSize : Nat} (hbinding : maxStorageBufferBindingSize < 2 ^ 32)
    (houtput : 4 * bindings.params.responseStrideWords.toNat ≤ maxStorageBufferBindingSize)
    (hresponse : ResponseOffset router response offset)
    (htarget : InRequest bindings requestIndex request target) (storage : Storage) :
    Means router assets.texts bindings.params requestIndex request target response
      (writeResponse bindings requestIndex offset target storage) := by
  have hwords := slot_words hslot
  exact means_of_le (isCompiled_compile hcompile) hassets huploaded hslot hresponse htarget
    (by omega) storage

/-- Without a limit on the binding the bytecode means what the response says
exactly when the largest response leaves the slot an address for its last word. -/
theorem means_iff_le {source : Router} (hcompile : compile source = .ok router)
    (hassets : buildShaderAssets router = .ok assets) (huploaded : Uploaded router assets bindings)
    (hslot : wordsForBytes router.maxGpuResponseBytes =
      .ok bindings.params.responseStrideWords.toNat)
    (hresponse : ResponseOffset router response offset)
    (htarget : InRequest bindings requestIndex request target) (storage : Storage) :
    Means router assets.texts bindings.params requestIndex request target response
        (writeResponse bindings requestIndex offset target storage) ↔
      router.maxGpuResponseBytes ≤ 2 ^ 32 - 4 := by
  have compiled := isCompiled_compile hcompile
  constructor
  · intro hmeans
    by_contra hnot
    exact not_means_of_lt compiled hassets huploaded hslot hresponse (by omega) storage hmeans
  · intro hle
    exact means_of_le compiled hassets huploaded hslot hresponse htarget hle storage

end Compiled

/-- The parameters of a batch, as far as the slots are concerned. -/
def slotParams (responseStrideWords : UInt32) : Params :=
  ⟨0, responseStrideWords, 1, 0, 0, 0, 0⟩

/-- A route that echoes up to eight bytes of its path. -/
def echoRouter : Router :=
  Router.new.get (ascii "/echo") (Response.text ((Body.new.literal (ascii "path ")).path 8))

/-- The request `GET /echo HTTP/1.1`, and the ranges the shader finds in it. -/
def echoRequest : List UInt8 :=
  ascii "GET /echo HTTP/1.1\r\n\r\n"

def echoTarget : RequestTarget :=
  ⟨4, 5, 9, 0, fnv1a (ascii "/echo"), 22, 1⟩

/-- The route's response, under the binding limit of the downlevel defaults. -/
theorem bytecode_means_echo :
    ∃ router assets stride offset route,
      compile echoRouter = .ok router ∧ buildShaderAssets router = .ok assets ∧
      router.routes[0]? = some route ∧
      Means router assets.texts (slotParams stride) 0 echoRequest echoTarget route.response
        (writeResponse
          (bindingsOf router assets (slotParams stride) [⟨22, 0⟩]
            (wordsOf ((echoRequest.length + 3) / 4) echoRequest))
          0 offset echoTarget ⟨fun _ => ⟨0, 0, 0⟩, fun _ => 0⟩) := by
  have hrun : (do
      let router ← compile echoRouter
      let assets ← buildShaderAssets router
      Outcome.ensure (assets.byteLen ≤ 2 ^ 32 ∧ router.maxGpuResponseBytes ≤ 2 ^ 20 ∧
        wordsForBytes router.maxGpuResponseBytes = Outcome.ok ((router.maxGpuResponseBytes + 3) / 4) ∧
        router.routes.length = 1 ∧ router.routerWords[3]?.isSome) "") = .ok PUnit.unit := by
    decide +kernel
  obtain ⟨router, hcompile, hrun⟩ := Outcome.bind_eq_ok.mp hrun
  obtain ⟨assets, hassets, hrun⟩ := Outcome.bind_eq_ok.mp hrun
  obtain ⟨harena, hmax, hslot, hroutes, hwords⟩ := Outcome.ensure_eq_ok.mp hrun
  obtain ⟨offset, hoffset⟩ := Option.isSome_iff_exists.mp hwords
  have hroute : router.routes[0]? = some router.routes[0] := List.getElem?_eq_getElem _
  let stride := UInt32.ofNat ((router.maxGpuResponseBytes + 3) / 4)
  have hstride : stride.toNat = (router.maxGpuResponseBytes + 3) / 4 := by
    rw [UInt32.toNat_ofNat']
    omega
  have huploaded := @uploaded_bindingsOf router assets harena (slotParams stride) [⟨22, 0⟩]
    (wordsOf ((echoRequest.length + 3) / 4) echoRequest)
  have htarget : InRequest (bindingsOf router assets (slotParams stride) [⟨22, 0⟩]
      (wordsOf ((echoRequest.length + 3) / 4) echoRequest)) 0 echoRequest echoTarget :=
    ⟨@Stores.holds _ echoRequest (stores_bufferOf 0 _) (by decide), by decide, by decide,
      by decide⟩
  refine ⟨router, assets, stride, offset, router.routes[0], hcompile, hassets, hroute, ?_⟩
  exact bytecode_means hcompile hassets huploaded
    (hslot.trans (congrArg Outcome.ok hstride.symm)) (show 2 ^ 27 < 2 ^ 32 by norm_num)
    (show 4 * stride.toNat ≤ 2 ^ 27 by omega)
    (.route hroute hoffset) htarget _

end Shader
end Http
end Gput
