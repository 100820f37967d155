import Mathlib.Data.List.Forall2
import Mathlib.Data.List.Nodup
import Gput.Http.Compiled

/-!
# From declared to compiled responses

What a compiled response keeps of the response a program declared:
`compiledFrom_compile`.  A body built by any calls renders as what the calls stand
for, one behind the other: `renderResponse_built`.
-/

namespace Gput
namespace Http

open ByteString AsciiText Decimal

/-- A compiled segment has the data of the declared one, its strings by id. -/
def SegmentFor (strings : List Text) : BodySegment → CompiledSegment → Prop
  | .literal value, .literal id => strings[id.toNat]? = some value
  | .path maxBytes, .path limit => limit = maxBytes
  | .query maxBytes, .query limit => limit = maxBytes
  | .backend, .backend => True
  | .requestBytes, .requestBytes => True
  | .pathHash, .pathHash => True
  | .backendVariant cpu gpu, .backendVariant cpuId gpuId =>
      strings[cpuId.toNat]? = some cpu ∧ strings[gpuId.toNat]? = some gpu
  | _, _ => False

namespace BodySegment

/-- The most bytes of a segment on the GPU, with request lengths of 32 bits. -/
def gpuBytes : BodySegment → Nat
  | .literal value => value.length
  | .path maxBytes => maxBytes
  | .query maxBytes => maxBytes
  | .backend => 3
  | .requestBytes => 10
  | .pathHash => 10
  | .backendVariant _ gpu => gpu.length

/-- The most bytes of a segment on either backend. -/
def cpuBytes : BodySegment → Nat
  | .requestBytes => 20
  | .backendVariant cpu gpu => max cpu.length gpu.length
  | segment => segment.gpuBytes

/-- What a segment stands for. -/
def meaning (parts : RequestParts) (requestLen : Nat) (backend : Text) : BodySegment → Text
  | .literal value => value
  | .path maxBytes => parts.path.take maxBytes
  | .query maxBytes => parts.query.take maxBytes
  | .backend => backend
  | .requestBytes => decimal requestLen
  | .pathHash => decimal parts.pathHash.toNat
  | .backendVariant cpu gpu => if backend = ascii "gpu" then gpu else cpu

end BodySegment

theorem SegmentFor.mono {strings strings' : List Text} (h : strings <+: strings')
    {declared : BodySegment} {compiled : CompiledSegment}
    (hsegment : SegmentFor strings declared compiled) : SegmentFor strings' declared compiled := by
  cases declared <;> cases compiled <;>
    first
    | exact hsegment
    | exact getElem?_of_extends h hsegment
    | exact ⟨getElem?_of_extends h hsegment.1, getElem?_of_extends h hsegment.2⟩

section Segments

variable {strings strings' : StringTable}

theorem compileSegment_declared {declared : BodySegment} {compiled : CompiledSegment}
    {gpuBytes cpuBytes : Nat}
    (h : compileSegment strings declared = .ok (strings', compiled, gpuBytes, cpuBytes)) :
    SegmentFor strings'.values declared compiled ∧ gpuBytes = declared.gpuBytes ∧
      cpuBytes = declared.cpuBytes := by
  cases declared with
  | literal value =>
      obtain ⟨⟨table, id⟩, hintern, h⟩ := Outcome.bind_eq_ok.mp h
      cases h
      exact ⟨(intern_spec hintern).2, rfl, rfl⟩
  | path maxBytes =>
      obtain ⟨limit, hlimit, h⟩ := Outcome.bind_eq_ok.mp h
      cases h
      obtain ⟨rfl, -⟩ := validateDynamicLimit_ok hlimit
      exact ⟨rfl, rfl, rfl⟩
  | query maxBytes =>
      obtain ⟨limit, hlimit, h⟩ := Outcome.bind_eq_ok.mp h
      cases h
      obtain ⟨rfl, -⟩ := validateDynamicLimit_ok hlimit
      exact ⟨rfl, rfl, rfl⟩
  | backend =>
      cases h
      exact ⟨trivial, rfl, rfl⟩
  | requestBytes =>
      cases h
      exact ⟨trivial, rfl, rfl⟩
  | pathHash =>
      cases h
      exact ⟨trivial, rfl, rfl⟩
  | backendVariant cpu gpu =>
      obtain ⟨⟨table, cpuId⟩, hcpu, h⟩ := Outcome.bind_eq_ok.mp h
      obtain ⟨⟨table', gpuId⟩, hgpu, h⟩ := Outcome.bind_eq_ok.mp h
      cases h
      obtain ⟨-, hcpuAt⟩ := intern_spec hcpu
      obtain ⟨hextends, hgpuAt⟩ := intern_spec hgpu
      exact ⟨⟨getElem?_of_extends hextends hcpuAt, hgpuAt⟩, rfl, rfl⟩

theorem compileSegments_declared {declared : List BodySegment}
    {gpuStart cpuStart gpuBytes cpuBytes : Nat} {compiled : List CompiledSegment}
    (h : compileSegments strings gpuStart cpuStart declared =
      .ok (strings', compiled, gpuBytes, cpuBytes)) :
    List.Forall₂ (SegmentFor strings'.values) declared compiled ∧
      gpuBytes = gpuStart + (declared.map BodySegment.gpuBytes).sum ∧
      cpuBytes = cpuStart + (declared.map BodySegment.cpuBytes).sum := by
  induction declared generalizing strings gpuStart cpuStart compiled with
  | nil =>
      cases h
      exact ⟨.nil, rfl, rfl⟩
  | cons segment declared ih =>
      rw [compileSegments] at h
      obtain ⟨⟨table, first, firstGpu, firstCpu⟩, hfirst, h⟩ := Outcome.bind_eq_ok.mp h
      obtain ⟨gpuNext, hgpu, h⟩ := Outcome.bind_eq_ok.mp h
      obtain ⟨cpuNext, hcpu, h⟩ := Outcome.bind_eq_ok.mp h
      obtain ⟨⟨table', later, gpuEnd, cpuEnd⟩, hlater, h⟩ := Outcome.bind_eq_ok.mp h
      cases h
      obtain ⟨hsegment, rfl, rfl⟩ := compileSegment_declared hfirst
      obtain ⟨hextends, -, -⟩ := compileSegments_spec hlater
      obtain ⟨hrest, hgpuEnd, hcpuEnd⟩ := ih hlater
      refine ⟨.cons (hsegment.mono hextends) hrest, ?_, ?_⟩
      · rw [hgpuEnd, checkedAdd_ok hgpu, List.map_cons, List.sum_cons, Nat.add_assoc]
      · rw [hcpuEnd, checkedAdd_ok hcpu, List.map_cons, List.sum_cons, Nat.add_assoc]

end Segments

/-- A compiled response has the data of the declared one. -/
structure ResponseFor (strings : List Text) (declared : Response) (compiled : CompiledResponse) :
    Prop where
  status : compiled.status = declared.status.code
  reason : strings[compiled.reasonStringId.toNat]? = some declared.status.reason
  contentType : strings[compiled.contentTypeStringId.toNat]? = some declared.contentType
  segments : List.Forall₂ (SegmentFor strings) declared.body.segments compiled.segments
  gpuBytes : compiled.maxGpuBodyBytes = (declared.body.segments.map BodySegment.gpuBytes).sum
  cpuBytes : compiled.maxCpuBodyBytes = (declared.body.segments.map BodySegment.cpuBytes).sum
  reasonValue : HeaderValue declared.status.reason
  contentTypeValue : HeaderValue declared.contentType

theorem ResponseFor.mono {strings strings' : List Text} (h : strings <+: strings')
    {declared : Response} {compiled : CompiledResponse}
    (hresponse : ResponseFor strings declared compiled) : ResponseFor strings' declared compiled :=
  { hresponse with
    reason := getElem?_of_extends h hresponse.reason
    contentType := getElem?_of_extends h hresponse.contentType
    segments := hresponse.segments.imp fun _ _ hsegment => hsegment.mono h }

theorem compileResponse_declared {strings strings' : StringTable} {declared : Response}
    {compiled : CompiledResponse}
    (h : compileResponse strings declared = .ok (strings', compiled)) :
    ResponseFor strings'.values declared compiled := by
  obtain ⟨_, hstatus, h⟩ := Outcome.bind_eq_ok.mp h
  obtain ⟨_, hcontent, h⟩ := Outcome.bind_eq_ok.mp h
  obtain ⟨⟨table, reasonId⟩, hreason, h⟩ := Outcome.bind_eq_ok.mp h
  obtain ⟨⟨table', contentId⟩, hcontentId, h⟩ := Outcome.bind_eq_ok.mp h
  obtain ⟨⟨table'', segments, gpuBytes, cpuBytes⟩, hsegments, h⟩ := Outcome.bind_eq_ok.mp h
  cases h
  obtain ⟨-, hreasonAt⟩ := intern_spec hreason
  obtain ⟨hextends, hcontentAt⟩ := intern_spec hcontentId
  obtain ⟨hextends', -, -⟩ := compileSegments_spec hsegments
  obtain ⟨hfor, hgpu, hcpu⟩ := compileSegments_declared hsegments
  rw [Nat.zero_add] at hgpu hcpu
  exact ⟨rfl, getElem?_of_extends (hextends.trans hextends') hreasonAt,
    getElem?_of_extends hextends' hcontentAt, hfor, hgpu, hcpu, (validateStatus_ok hstatus).2,
    validateHeaderValue_ok hcontent⟩

/-- The routes compiled for declared routes, whose paths are all different. -/
theorem compileRoutes_declared {declared : List RouteDefinition} :
    ∀ {strings strings' : StringTable} {seenPaths : List Text} {compiled : List CompiledRoute},
      compileRoutes strings seenPaths declared = .ok (strings', compiled) →
      List.Forall₂ (fun definition route => route.path = definition.path ∧
          ResponseFor strings'.values definition.response route.response) declared compiled ∧
        (declared.map RouteDefinition.path).Nodup ∧
        ∀ definition ∈ declared, definition.path ∉ seenPaths := by
  induction declared with
  | nil =>
      intro strings strings' seenPaths compiled h
      cases h
      exact ⟨.nil, List.nodup_nil, fun definition hmem => absurd hmem List.not_mem_nil⟩
  | cons definition declared ih =>
      intro strings strings' seenPaths compiled h
      rw [compileRoutes] at h
      obtain ⟨_, -, h⟩ := Outcome.bind_eq_ok.mp h
      obtain ⟨_, hnew, h⟩ := Outcome.bind_eq_ok.mp h
      obtain ⟨⟨table, response⟩, hresponse, h⟩ := Outcome.bind_eq_ok.mp h
      obtain ⟨⟨table', later⟩, hlater, h⟩ := Outcome.bind_eq_ok.mp h
      cases h
      obtain ⟨hextends, -⟩ := compileRoutes_spec hlater
      obtain ⟨hrest, hnodup, hunseen⟩ := ih hlater
      refine ⟨.cons ⟨rfl, (compileResponse_declared hresponse).mono hextends⟩ hrest, ?_, ?_⟩
      · rw [List.map_cons, List.nodup_cons]
        refine ⟨fun hmem => ?_, hnodup⟩
        obtain ⟨other, hother, hpath⟩ := List.mem_map.mp hmem
        exact hunseen other hother (hpath ▸ List.mem_cons_self)
      · intro other hmem
        rcases List.mem_cons.mp hmem with rfl | hmem
        · exact Outcome.ensure_eq_ok.mp hnew
        · exact fun hseen => hunseen other hmem (List.mem_cons_of_mem _ hseen)

/-- Every element on the right has one on the left it stands in the relation to. -/
theorem exists_left_of_forall₂ {α β : Type} {relation : α → β → Prop} {left : List α}
    {right : List β} (h : List.Forall₂ relation left right) :
    ∀ b ∈ right, ∃ a ∈ left, relation a b := by
  induction h with
  | nil => exact fun b hb => absurd hb List.not_mem_nil
  | cons hab _ ih =>
      intro b hb
      rcases List.mem_cons.mp hb with rfl | hb
      · exact ⟨_, List.mem_cons_self, hab⟩
      · obtain ⟨a, ha, hrelation⟩ := ih b hb
        exact ⟨a, List.mem_cons_of_mem _ ha, hrelation⟩

/-- The responses of a router and what they are compiled to. -/
inductive Declares (router : Router) (compiled : CompiledRouter) :
    Response → CompiledResponse → Prop
  | fallback : Declares router compiled router.fallback compiled.fallback
  | badRequest : Declares router compiled router.badRequest compiled.badRequest
  | methodNotAllowed : Declares router compiled router.methodNotAllowed compiled.methodNotAllowed
  | route {definition : RouteDefinition} {route : CompiledRoute}
      (hdefinition : definition ∈ router.routes) (hroute : route ∈ compiled.routes)
      (hpath : route.path = definition.path) :
      Declares router compiled definition.response route.response

/-- Every response of a router. -/
def Router.responses (router : Router) : List Response :=
  router.routes.map RouteDefinition.response ++
    [router.fallback, router.badRequest, router.methodNotAllowed]

/-- What compilation keeps of a router. -/
structure CompiledFrom (router : Router) (compiled : CompiledRouter) : Prop where
  responses : ∀ declared response, Declares router compiled declared response →
    ResponseFor compiled.strings declared response
  routes : ∀ path, path ∈ compiled.routes.map CompiledRoute.path ↔
    path ∈ router.routes.map RouteDefinition.path
  paths : (router.routes.map RouteDefinition.path).Nodup
  strings : ∀ (first second : UInt32) (text : Text), compiled.strings[first.toNat]? = some text →
    compiled.strings[second.toNat]? = some text → first = second

theorem compiledFrom_compile {router : Router} {compiled : CompiledRouter}
    (h : compile router = .ok compiled) : CompiledFrom router compiled := by
  obtain ⟨⟨ids, table0, table1, table2, table3, table4, table5, routes, fallback, badRequest,
    methodNotAllowed, words1, words2, words3, words4, fallbackOffset, badOffset, methodOffset,
    largest, -, hroutes, hfallback, hbad, hmethod, hemitRoutes, -, -, -, -, -, -, -, rfl⟩⟩ :=
    compile_stages h
  have hmemSorted : ∀ route, route ∈ routes.mergeSort routeLe ↔ route ∈ routes := fun route =>
    (List.mergeSort_perm routes routeLe).mem_iff
  obtain ⟨hextends5, -, -, -, -⟩ :=
    emitRoutes_spec hemitRoutes (by rw [Nat.zero_add]) (by rw [List.length_replicate])
  have hfromBad := (compileResponse_spec hmethod).1.trans hextends5
  have hfromFallback := (compileResponse_spec hbad).1.trans hfromBad
  have hfromRoutes := (compileResponse_spec hfallback).1.trans hfromFallback
  obtain ⟨hdeclared, hnodup, -⟩ := compileRoutes_declared hroutes
  refine ⟨?_, ?_, hnodup, ?_⟩
  · rintro declared response hdeclares
    cases hdeclares with
    | fallback => exact (compileResponse_declared hfallback).mono hfromFallback
    | badRequest => exact (compileResponse_declared hbad).mono hfromBad
    | methodNotAllowed => exact (compileResponse_declared hmethod).mono hextends5
    | route hdefinition hroute hpath =>
        obtain ⟨other, hother, hotherPath, hfor⟩ :=
          exists_left_of_forall₂ hdeclared _ ((hmemSorted _).mp hroute)
        have hsame :=
          List.inj_on_of_nodup_map hnodup hdefinition hother (hpath.symm.trans hotherPath)
        rw [hsame]
        exact hfor.mono hfromRoutes
  · intro path
    have hpaths : routes.map CompiledRoute.path = router.routes.map RouteDefinition.path := by
      have hmap := List.forall₂_map_left_iff.mpr (List.forall₂_map_right_iff.mpr
        (hdeclared.imp fun _ _ hroute => hroute.1.symm))
      exact (List.forall₂_eq_eq_eq ▸ hmap :
        router.routes.map RouteDefinition.path = routes.map CompiledRoute.path).symm
    rw [← hpaths]
    exact ((List.mergeSort_perm routes routeLe).map _).mem_iff
  · intro first second text hfirst hsecond
    have hsame := ((table5.ids_iff text first).mpr hfirst).symm.trans
      ((table5.ids_iff text second).mpr hsecond)
    exact Option.some.inj hsame

/-- Every declared response is compiled. -/
theorem CompiledFrom.exists_declares {router : Router} {compiled : CompiledRouter}
    (h : CompiledFrom router compiled) {declared : Response} (hmem : declared ∈ router.responses) :
    ∃ response, Declares router compiled declared response := by
  rcases List.mem_append.mp hmem with hmem | hmem
  · obtain ⟨definition, hdefinition, rfl⟩ := List.mem_map.mp hmem
    obtain ⟨route, hroute, hpath⟩ :=
      List.mem_map.mp ((h.routes definition.path).mpr (List.mem_map_of_mem hdefinition))
    exact ⟨_, .route hdefinition hroute hpath⟩
  · simp only [List.mem_cons, List.not_mem_nil, or_false] at hmem
    rcases hmem with rfl | rfl | rfl
    · exact ⟨_, .fallback⟩
    · exact ⟨_, .badRequest⟩
    · exact ⟨_, .methodNotAllowed⟩

/-- The strings of a segment. -/
inductive SegmentString : BodySegment → Text → Prop
  | literal {value : Text} : SegmentString (.literal value) value
  | cpu {cpu gpu : Text} : SegmentString (.backendVariant cpu gpu) cpu
  | gpu {cpu gpu : Text} : SegmentString (.backendVariant cpu gpu) gpu

/-- The strings an application supplies. -/
inductive ApplicationString (router : Router) : Text → Prop
  | path {definition : RouteDefinition} (h : definition ∈ router.routes) :
      ApplicationString router definition.path
  | reason {response : Response} (h : response ∈ router.responses) :
      ApplicationString router response.status.reason
  | contentType {response : Response} (h : response ∈ router.responses) :
      ApplicationString router response.contentType
  | segment {response : Response} {segment : BodySegment} {text : Text}
      (h : response ∈ router.responses) (hsegment : segment ∈ response.body.segments)
      (htext : SegmentString segment text) : ApplicationString router text

theorem SegmentFor.interned {strings : List Text} {declared : BodySegment}
    {compiled : CompiledSegment} (h : SegmentFor strings declared compiled) {text : Text}
    (htext : SegmentString declared text) : ∃ id : UInt32, strings[id.toNat]? = some text := by
  cases htext with
  | literal =>
      cases compiled with
      | literal id => exact ⟨id, h⟩
      | _ => exact h.elim
  | cpu =>
      cases compiled with
      | backendVariant cpuId gpuId => exact ⟨cpuId, h.1⟩
      | _ => exact h.elim
  | gpu =>
      cases compiled with
      | backendVariant cpuId gpuId => exact ⟨gpuId, h.2⟩
      | _ => exact h.elim

/-- Every string of the application is interned. -/
theorem ApplicationString.interned {router : Router} {compiled : CompiledRouter}
    (hcompile : compile router = .ok compiled) {text : Text} (h : ApplicationString router text) :
    ∃ id : UInt32, compiled.strings[id.toNat]? = some text := by
  have hfrom := compiledFrom_compile hcompile
  have hresponse {declared : Response} (hmem : declared ∈ router.responses) :
      ∃ response, ResponseFor compiled.strings declared response := by
    obtain ⟨response, hdeclares⟩ := hfrom.exists_declares hmem
    exact ⟨response, hfrom.responses _ _ hdeclares⟩
  cases h with
  | path hdefinition =>
      obtain ⟨route, hroute, hpath⟩ :=
        List.mem_map.mp ((hfrom.routes _).mpr (List.mem_map_of_mem hdefinition))
      obtain ⟨i, hi⟩ := List.getElem?_of_mem hroute
      obtain ⟨id, -, hstring⟩ := ((isCompiled_compile hcompile).entries i route hi).string
      exact ⟨id, hpath ▸ hstring⟩
  | reason hmem =>
      obtain ⟨response, hfor⟩ := hresponse hmem
      exact ⟨_, hfor.reason⟩
  | contentType hmem =>
      obtain ⟨response, hfor⟩ := hresponse hmem
      exact ⟨_, hfor.contentType⟩
  | segment hmem hsegment htext =>
      obtain ⟨response, hfor⟩ := hresponse hmem
      obtain ⟨compiledSegment, -, hsegmentFor⟩ :=
        exists_left_of_forall₂ hfor.segments.flip _ hsegment
      exact SegmentFor.interned hsegmentFor htext

section Rendering

variable {router : CompiledRouter} (parts : RequestParts) (requestLen : Nat) (backend : Text)

theorem renderSegment_for {declared : BodySegment} {compiled : CompiledSegment}
    (h : SegmentFor router.strings declared compiled) :
    router.renderSegment parts requestLen backend compiled =
      .ok (declared.meaning parts requestLen backend) := by
  have htake (text : Text) (maxBytes : Nat) :
      text.take (min text.length maxBytes) = text.take maxBytes := by
    rw [Nat.min_comm, ← List.take_take, List.take_length]
  cases declared <;> cases compiled <;> try exact h.elim
  case literal.literal => exact string_eq h
  case path.path =>
    obtain rfl := h
    exact congrArg Outcome.ok (htake _ _)
  case query.query =>
    obtain rfl := h
    exact congrArg Outcome.ok (htake _ _)
  case backend.backend => rfl
  case requestBytes.requestBytes => rfl
  case pathHash.pathHash => rfl
  case backendVariant.backendVariant =>
    rw [CompiledRouter.renderSegment, BodySegment.meaning]
    split
    · exact string_eq h.2
    · exact string_eq h.1

theorem renderBody_for {declared : List BodySegment} {compiled : List CompiledSegment}
    (h : List.Forall₂ (SegmentFor router.strings) declared compiled) :
    router.renderBody parts requestLen backend compiled =
      .ok (declared.flatMap (BodySegment.meaning parts requestLen backend)) := by
  induction h with
  | nil => rfl
  | cons hsegment _ ih =>
      rw [CompiledRouter.renderBody, renderSegment_for parts requestLen backend hsegment,
        Outcome.ok_bind, ih]
      rfl

/-- A compiled response renders what was declared. -/
theorem ResponseFor.renderResponse {declared : Response} {compiled : CompiledResponse}
    (h : ResponseFor router.strings declared compiled) :
    router.renderResponse parts requestLen backend compiled =
      .ok (buildResponse declared.status.code declared.status.reason declared.contentType
        (declared.body.segments.flatMap (BodySegment.meaning parts requestLen backend)) backend) := by
  rw [CompiledRouter.renderResponse, renderBody_for parts requestLen backend h.segments,
    Outcome.ok_bind, string_eq h.reason, Outcome.ok_bind, string_eq h.contentType, Outcome.ok_bind,
    h.status]
  rfl

variable {parts requestLen backend}

theorem meaning_length_le_cpu (hlen : requestLen < 2 ^ 64) (hbackend : backend.length = 3)
    (segment : BodySegment) :
    (segment.meaning parts requestLen backend).length ≤ segment.cpuBytes := by
  cases segment with
  | literal value => exact le_refl _
  | path maxBytes => exact List.length_take_le _ _
  | query maxBytes => exact List.length_take_le _ _
  | backend => exact hbackend.le
  | requestBytes => exact length_decimal_le 20 (by norm_num) (by omega)
  | pathHash =>
      have := parts.pathHash.toNat_lt
      exact length_decimal_le 10 (by norm_num) (by omega)
  | backendVariant cpu gpu =>
      rw [BodySegment.meaning, BodySegment.cpuBytes]
      split
      · exact Nat.le_max_right _ _
      · exact Nat.le_max_left _ _

theorem meaning_length_le_gpu (hlen : requestLen < 2 ^ 32) (segment : BodySegment) :
    (segment.meaning parts requestLen (ascii "gpu")).length ≤ segment.gpuBytes := by
  cases segment with
  | literal value => exact le_refl _
  | path maxBytes => exact List.length_take_le _ _
  | query maxBytes => exact List.length_take_le _ _
  | backend => exact (show (ascii "gpu").length ≤ 3 by decide)
  | requestBytes => exact length_decimal_le 10 (by norm_num) (by omega)
  | pathHash =>
      have := parts.pathHash.toNat_lt
      exact length_decimal_le 10 (by norm_num) (by omega)
  | backendVariant cpu gpu =>
      rw [BodySegment.meaning, if_pos rfl]
      exact le_refl _

/-- A bound for every segment bounds the body. -/
theorem length_flatMap_le {segments : List BodySegment} {meaning : BodySegment → Text}
    {bytes : BodySegment → Nat} (h : ∀ segment, (meaning segment).length ≤ bytes segment) :
    (segments.flatMap meaning).length ≤ (segments.map bytes).sum := by
  induction segments with
  | nil => exact Nat.le_refl 0
  | cons segment segments ih =>
      rw [List.flatMap_cons, List.length_append, List.map_cons, List.sum_cons]
      exact Nat.add_le_add (h segment) ih

end Rendering

/-- A call of a method of `Body`. -/
inductive BodyCall where
  | literal (value : Text)
  | push (value : Text)
  | path (maxBytes : Nat)
  | query (maxBytes : Nat)
  | backend
  | requestBytes
  | pathHash
  | backendVariant (cpu gpu : Text)

namespace BodyCall

def apply (body : Body) : BodyCall → Body
  | literal value => body.literal value
  | push value => body.push value
  | path maxBytes => body.path maxBytes
  | query maxBytes => body.query maxBytes
  | backend => body.backend
  | requestBytes => body.requestBytes
  | pathHash => body.pathHash
  | backendVariant cpu gpu => body.backendVariant cpu gpu

/-- What a call stands for on its own. -/
def meaning (parts : RequestParts) (requestLen : Nat) (backendName : Text) : BodyCall → Text
  | literal value => value
  | push value => value
  | path maxBytes => parts.path.take maxBytes
  | query maxBytes => parts.query.take maxBytes
  | backend => backendName
  | requestBytes => decimal requestLen
  | pathHash => decimal parts.pathHash.toNat
  | backendVariant cpu gpu => if backendName = ascii "gpu" then gpu else cpu

end BodyCall

/-- A body built by a sequence of calls. -/
def buildBody (calls : List BodyCall) : Body :=
  calls.foldl BodyCall.apply Body.new

section Building

variable (parts : RequestParts) (requestLen : Nat) (backend : Text)

def Body.meaning (body : Body) : Text :=
  body.segments.flatMap (BodySegment.meaning parts requestLen backend)

/-- A joined literal means both of its parts. -/
theorem Body.literal_meaning (body : Body) (value : Text) :
    (body.literal value).meaning parts requestLen backend =
      body.meaning parts requestLen backend ++ value := by
  rw [Body.literal]
  by_cases hempty : value = []
  · rw [if_pos hempty, hempty, List.append_nil]
  rw [if_neg hempty]
  split
  case h_1 previous hlast =>
    obtain ⟨before, hbefore⟩ := List.getLast?_eq_some_iff.mp hlast
    simp only [Body.meaning, hbefore, List.dropLast_concat, List.flatMap_append,
      List.flatMap_singleton, BodySegment.meaning, List.append_assoc]
  case h_2 =>
    simp only [Body.meaning, List.flatMap_append, List.flatMap_singleton, BodySegment.meaning]

/-- A call appends what it stands for. -/
theorem Body.apply_meaning (body : Body) (call : BodyCall) :
    (call.apply body).meaning parts requestLen backend =
      body.meaning parts requestLen backend ++ call.meaning parts requestLen backend := by
  have happend (segment : BodySegment) :
      Body.meaning parts requestLen backend ⟨body.segments ++ [segment]⟩ =
        body.meaning parts requestLen backend ++ segment.meaning parts requestLen backend := by
    rw [Body.meaning, List.flatMap_append, List.flatMap_singleton, Body.meaning]
  cases call with
  | literal value => exact body.literal_meaning parts requestLen backend value
  | push value => exact body.literal_meaning parts requestLen backend value
  | path maxBytes =>
      rw [BodyCall.apply, Body.path]
      split
      case isTrue => exact happend _
      case isFalse hzero =>
        rw [not_not.mp hzero, BodyCall.meaning, List.take_zero, List.append_nil]
  | query maxBytes =>
      rw [BodyCall.apply, Body.query]
      split
      case isTrue => exact happend _
      case isFalse hzero =>
        rw [not_not.mp hzero, BodyCall.meaning, List.take_zero, List.append_nil]
  | backend => exact happend _
  | requestBytes => exact happend _
  | pathHash => exact happend _
  | backendVariant cpu gpu =>
      rw [BodyCall.apply, Body.backendVariant]
      split
      case isTrue hsame =>
        rw [hsame, BodyCall.meaning, ite_self]
        exact body.literal_meaning parts requestLen backend gpu
      case isFalse => exact happend _

/-- A built body means what its calls stand for, in their order. -/
theorem buildBody_meaning (calls : List BodyCall) :
    (buildBody calls).meaning parts requestLen backend =
      calls.flatMap (BodyCall.meaning parts requestLen backend) := by
  have hrun (body : Body) : (calls.foldl BodyCall.apply body).meaning parts requestLen backend =
      body.meaning parts requestLen backend ++
        calls.flatMap (BodyCall.meaning parts requestLen backend) := by
    induction calls generalizing body with
    | nil => rw [List.foldl_nil, List.flatMap_nil, List.append_nil]
    | cons call calls ih =>
        rw [List.foldl_cons, ih, body.apply_meaning, List.flatMap_cons, List.append_assoc]
  exact (hrun Body.new).trans (List.nil_append _)

end Building

/-- A response with a built body renders what the calls stand for, within the
bounds that compilation computed. -/
theorem renderResponse_built {router : Router} {compiled : CompiledRouter}
    (hcompile : compile router = .ok compiled) {declared : Response} {response : CompiledResponse}
    (hdeclared : Declares router compiled declared response) {calls : List BodyCall}
    (hbody : declared.body = buildBody calls) (parts : RequestParts) {requestLen : Nat}
    (hlen : requestLen < 2 ^ 64) {backend : Text}
    (hbackend : backend = ascii "cpu" ∨ backend = ascii "gpu") :
    let body := calls.flatMap (BodyCall.meaning parts requestLen backend)
    compiled.renderResponse parts requestLen backend response =
        .ok (buildResponse declared.status.code declared.status.reason declared.contentType body
          backend) ∧
      body.length ≤ response.maxCpuBodyBytes ∧
      (backend = ascii "gpu" → requestLen < 2 ^ 32 → body.length ≤ response.maxGpuBodyBytes) := by
  intro body
  have hfor := (compiledFrom_compile hcompile).responses declared response hdeclared
  have hmeaning : declared.body.segments.flatMap (BodySegment.meaning parts requestLen backend) =
      body := by
    rw [hbody]
    exact buildBody_meaning parts requestLen backend calls
  have hthree : backend.length = 3 := by
    rcases hbackend with rfl | rfl
    · decide
    · decide
  refine ⟨?_, ?_, ?_⟩
  · rw [hfor.renderResponse, hmeaning]
  · rw [hfor.cpuBytes, ← hmeaning]
    exact length_flatMap_le (meaning_length_le_cpu hlen hthree)
  · rintro rfl hgpu
    rw [hfor.gpuBytes, ← hmeaning]
    exact length_flatMap_le (meaning_length_le_gpu hgpu)

/-- Calls of which the first five fold into one literal. -/
def foldedCalls : List BodyCall :=
  [.push (ascii "a"), .push [], .path 0, .query 0, .backendVariant (ascii "b") (ascii "b"),
    .requestBytes, .literal (ascii "c")]

def foldedRouter : Router :=
  { Router.new with fallback := Response.text (buildBody foldedCalls) }

theorem renderResponse_built_folded :
    ∃ compiled, compile foldedRouter = .ok compiled ∧
      let body := foldedCalls.flatMap (BodyCall.meaning RequestParts.empty 7 (ascii "gpu"))
      compiled.renderResponse RequestParts.empty 7 (ascii "gpu") compiled.fallback =
          .ok (buildResponse 200 (ascii "OK") textContentType body (ascii "gpu")) ∧
        body.length ≤ compiled.fallback.maxCpuBodyBytes ∧
        (ascii "gpu" = ascii "gpu" → 7 < 2 ^ 32 →
          body.length ≤ compiled.fallback.maxGpuBodyBytes) := by
  have hrun : (do let _ ← compile foldedRouter) = .ok PUnit.unit := by decide +kernel
  obtain ⟨compiled, hcompile, -⟩ := Outcome.bind_eq_ok.mp hrun
  exact ⟨compiled, hcompile, renderResponse_built hcompile .fallback rfl RequestParts.empty
    (by norm_num) (Or.inr rfl)⟩

end Http
end Gput
