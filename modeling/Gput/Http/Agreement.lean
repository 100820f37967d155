import Gput.Http.Network
import Gput.Http.Lookup

/-!
# The device against the host

The slot of a request holds what `route_request` answers when the two parsers
sort the request into the same case, and the body of the response does not
contain the one string the arena replaces: `http_agreement_iff`.
-/

namespace Gput
namespace Http

open ByteString AsciiText Decimal Delimited

section Methods

variable {request method target version : List UInt8}

/-- A request starts with its method and a space. -/
theorem HasPieces.request_eq (h : HasPieces request method target version) :
    ∃ rest, request = method ++ 32 :: rest := by
  obtain ⟨raw, rest, rfl, -, hline⟩ := h.line
  obtain ⟨cut, hcut⟩ := stripLast_prefix 13 raw
  rw [← hline] at hcut
  exact ⟨target ++ 32 :: version ++ cut ++ 10 :: rest, by rw [← hcut]; simp⟩

theorem HasPieces.method_iff (h : HasPieces request method target version) :
    method = ascii "GET" ↔ ascii "GET " <+: request := by
  have hget : ascii "GET " = ascii "GET" ++ [32] := by decide
  obtain ⟨rest, hrest⟩ := h.request_eq
  constructor
  · rintro rfl
    exact ⟨rest, by rw [hget, hrest, List.append_assoc, List.singleton_append]⟩
  · rintro ⟨rest', rfl⟩
    rw [hget, List.append_assoc, List.singleton_append] at hrest
    exact (append_cons_inj h.method (by decide) hrest.symm).1

end Methods

namespace BodySegment

/-- A segment, with the texts the arena holds. -/
def inArena : BodySegment → BodySegment
  | .literal value => .literal (arenaText value)
  | .backendVariant cpu gpu => .backendVariant (arenaText cpu) (arenaText gpu)
  | segment => segment

/-- On the GPU the segment is the text of the header tail. -/
def WritesTail : BodySegment → Prop
  | .literal value => value = headerTailText
  | .backendVariant _ gpu => gpu = headerTailText
  | _ => False

instance (segment : BodySegment) : Decidable segment.WritesTail :=
  match segment with
  | .literal value => inferInstanceAs (Decidable (value = headerTailText))
  | .backendVariant _ gpu => inferInstanceAs (Decidable (gpu = headerTailText))
  | .path _ | .query _ | .backend | .requestBytes | .pathHash => inferInstanceAs (Decidable False)

end BodySegment

section Bodies

variable (parts : RequestParts) (requestLen : Nat)

/-- The replaced text is shorter, every other segment means the same. -/
theorem inArena_meaning (segment : BodySegment) :
    segment.WritesTail ∧ (segment.inArena.meaning parts requestLen (ascii "gpu")).length <
        (segment.meaning parts requestLen (ascii "gpu")).length ∨
      ¬ segment.WritesTail ∧ segment.inArena.meaning parts requestLen (ascii "gpu") =
        segment.meaning parts requestLen (ascii "gpu") := by
  have hshorter : (arenaText headerTailText).length < headerTailText.length := by decide
  cases segment with
  | literal value =>
      by_cases htail : value = headerTailText
      · exact Or.inl ⟨htail, htail ▸ hshorter⟩
      · exact Or.inr ⟨htail, arenaText_eq_iff.mpr htail⟩
  | backendVariant cpu gpu =>
      simp only [BodySegment.inArena, BodySegment.meaning, if_true]
      by_cases htail : gpu = headerTailText
      · exact Or.inl ⟨htail, htail ▸ hshorter⟩
      · exact Or.inr ⟨htail, arenaText_eq_iff.mpr htail⟩
  | path maxBytes => exact Or.inr ⟨id, rfl⟩
  | query maxBytes => exact Or.inr ⟨id, rfl⟩
  | backend => exact Or.inr ⟨id, rfl⟩
  | requestBytes => exact Or.inr ⟨id, rfl⟩
  | pathHash => exact Or.inr ⟨id, rfl⟩

/-- What the segments of a body mean with the texts the arena holds. -/
def arenaMeaning (segments : List BodySegment) : Text :=
  (segments.map BodySegment.inArena).flatMap (BodySegment.meaning parts requestLen (ascii "gpu"))

/-- A body keeps its meaning unless one of its segments is the header tail; then
it is shorter. -/
theorem arenaMeaning_cases (segments : List BodySegment) :
    (∀ segment ∈ segments, ¬ segment.WritesTail) ∧ arenaMeaning parts requestLen segments =
        segments.flatMap (BodySegment.meaning parts requestLen (ascii "gpu")) ∨
      (∃ segment ∈ segments, segment.WritesTail) ∧
        (arenaMeaning parts requestLen segments).length <
          (segments.flatMap (BodySegment.meaning parts requestLen (ascii "gpu"))).length := by
  induction segments with
  | nil => exact Or.inl ⟨fun segment hmem => absurd hmem List.not_mem_nil, rfl⟩
  | cons segment segments ih =>
      have hcons : arenaMeaning parts requestLen (segment :: segments) =
          segment.inArena.meaning parts requestLen (ascii "gpu") ++
            arenaMeaning parts requestLen segments := rfl
      rw [hcons, List.flatMap_cons, List.length_append, List.length_append]
      rcases inArena_meaning parts requestLen segment with ⟨htail, hlt⟩ | ⟨hkeeps, hsame⟩
      · refine Or.inr ⟨⟨segment, List.mem_cons_self, htail⟩, ?_⟩
        rcases ih with ⟨-, hrest⟩ | ⟨-, hrest⟩
        · rw [hrest]
          omega
        · omega
      · rw [hsame]
        rcases ih with ⟨hnone, hrest⟩ | ⟨⟨other, hmem, htail⟩, hrest⟩
        · refine Or.inl ⟨fun other hmem => ?_, by rw [hrest]⟩
          rcases List.mem_cons.mp hmem with rfl | hmem
          · exact hkeeps
          · exact hnone other hmem
        · exact Or.inr ⟨⟨other, List.mem_cons_of_mem _ hmem, htail⟩, by omega⟩

/-- A response with a shorter body is shorter. -/
theorem buildResponse_length_lt (status : UInt16) (reason contentType backend : List UInt8)
    {body other : List UInt8} (h : body.length < other.length) :
    (buildResponse status reason contentType body backend).length <
      (buildResponse status reason contentType other backend).length := by
  have hdigits := length_decimal_mono (Nat.le_of_lt h)
  simp only [buildResponse, responseHeaders, List.length_append]
  omega

end Bodies

/-- The declared response to a request, by what `parse_request` says of it. -/
def Router.responseTo (source : Router) : RequestParse → Response
  | .get parts =>
      ((source.routes.find? (fun definition => definition.path == parts.path)).map
        RouteDefinition.response).getD source.fallback
  | .badRequest => source.badRequest
  | .methodNotAllowed => source.methodNotAllowed

section Responses

variable {source : Router} {router : CompiledRouter} {assets : ShaderAssets}

/-- A path selects what the declared response to it is compiled to. -/
theorem Selects.responseFor (hcompile : compile source = .ok router) {path : Text}
    {response : CompiledResponse} (h : Selects source router path response) :
    ResponseFor router.strings
      (((source.routes.find? (fun definition => definition.path == path)).map
        RouteDefinition.response).getD source.fallback) response := by
  cases h with
  | @route definition route hdefinition hdeclared honly hroute hpath hresponse =>
      cases hfind : source.routes.find? (fun definition => definition.path == path) with
      | none =>
          have hnot := List.find?_eq_none.mp hfind definition hdefinition
          exact absurd (by simpa using hdeclared) hnot
      | some other =>
          have hother := List.find?_some hfind
          obtain rfl := honly other (List.mem_of_find?_eq_some hfind) (by simpa using hother)
          exact hresponse
  | fallback hnone =>
      rw [List.find?_eq_none.mpr fun definition hdefinition => by
        simpa using hnone definition hdefinition]
      exact (compiledFrom_compile hcompile).responses _ _ .fallback

/-- The response to a request is compiled from the declared one. -/
theorem responseFor_responseTo (hcompile : compile source = .ok router) (request : List UInt8) :
    ResponseFor router.strings (source.responseTo (parseRequest request))
      (router.responseTo (parseRequest request)) := by
  have hfrom := compiledFrom_compile hcompile
  cases hparse : parseRequest request with
  | get parts =>
      obtain ⟨form, -, rfl⟩ := describes_of_get hparse
      exact (selects_responseTo hcompile form.path form.query).responseFor hcompile
  | badRequest => exact hfrom.responses _ _ .badRequest
  | methodNotAllowed => exact hfrom.responses _ _ .methodNotAllowed

theorem SegmentFor.inArena (hcompile : compile source = .ok router)
    (hassets : buildShaderAssets router = .ok assets) {declared : BodySegment}
    {compiled : CompiledSegment} (h : SegmentFor router.strings declared compiled) :
    SegmentFor assets.texts declared.inArena compiled := by
  cases declared <;> cases compiled <;> try exact h.elim
  case literal.literal => exact arena_text hcompile hassets h
  case backendVariant.backendVariant =>
    exact ⟨arena_text hcompile hassets h.1, arena_text hcompile hassets h.2⟩
  all_goals exact h

/-- A header value is not replaced. -/
theorem HeaderValue.arenaText {text : Text} (h : HeaderValue text) :
    Http.arenaText text = text := by
  rw [arenaText_eq_iff]
  rintro rfl
  exact absurd (h.printable 13 (by decide)).2 (by decide)

/-- What the shader writes for a compiled response. -/
theorem responseMeaning_arena (hcompile : compile source = .ok router)
    (hassets : buildShaderAssets router = .ok assets) {declared : Response}
    {response : CompiledResponse} (h : ResponseFor router.strings declared response)
    (parts : RequestParts) (requestLen : Nat) :
    Shader.responseMeaning (Shader.withTexts router assets.texts) parts requestLen response =
      .ok (buildResponse declared.status.code declared.status.reason declared.contentType
        (arenaMeaning parts requestLen declared.body.segments) (ascii "gpu")) := by
  have hids := (isCompiled_compile hcompile).ids
  have string {id : UInt32} {text : Text} (hid : router.strings[id.toNat]? = some text) :
      (Shader.withTexts router assets.texts).string id = .ok (arenaText text) :=
    @string_eq (Shader.withTexts router assets.texts) id _ (arena_text hcompile hassets hid)
  have hbody := @renderBody_for (Shader.withTexts router assets.texts) parts requestLen
    (ascii "gpu") (declared.body.segments.map BodySegment.inArena) response.segments
    (List.forall₂_map_left_iff.mpr (h.segments.imp fun _ _ => SegmentFor.inArena hcompile hassets))
  have hversion : arenaText (ascii "HTTP/1.1 ") = ascii "HTTP/1.1 " := by decide
  have htype : arenaText (ascii "\r\nContent-Type: ") = ascii "\r\n" ++ ascii "Content-Type: " := by
    decide
  have hlength : arenaText (ascii "\r\nContent-Length: ") =
      ascii "\r\n" ++ ascii "Content-Length: " := by decide
  have htail : arenaText headerTailText = ascii "\r\n" ++ ascii "Server: gput\r\n" ++
      (ascii "X-Gput-Backend: " ++ ascii "gpu" ++ ascii "\r\n") ++ ascii "\r\n" := by decide
  refine Outcome.bind_eq_ok.mpr ⟨_, string hids.httpVersion,
    Outcome.bind_eq_ok.mpr ⟨_, string h.reason,
    Outcome.bind_eq_ok.mpr ⟨_, string hids.headerContentType,
    Outcome.bind_eq_ok.mpr ⟨_, string h.contentType,
    Outcome.bind_eq_ok.mpr ⟨_, string hids.headerContentLength,
    Outcome.bind_eq_ok.mpr ⟨_, string hids.headerTail,
    Outcome.bind_eq_ok.mpr ⟨_, hbody, congrArg Outcome.ok ?_⟩⟩⟩⟩⟩⟩⟩
  rw [h.reasonValue.arenaText, h.contentTypeValue.arenaText, h.status, hversion, htype, hlength,
    ← headerTailText, htail]
  simp only [buildResponse, responseHeaders, arenaMeaning, List.append_assoc]

end Responses

namespace Shader

section Cases

variable {request : List UInt8} {parse : RequestParse}

/-- The requests the two parsers sort into the same case: the target of a GET
ends in front of the line, and another request has a first line of three pieces. -/
structure SameCase (request : List UInt8) : Prop where
  target : ascii "GET " <+: request →
    ∀ target, TargetLine (request.drop 4) target → 10 ∉ target
  pieces : ¬ ascii "GET " <+: request →
    ∃ method target version, HasPieces request method target version

/-- The pieces of a target line without a line feed in the target. -/
theorem TargetLine.describes {target : Text} (hget : ascii "GET " <+: request)
    (h : TargetLine (request.drop 4) target) (hfeed : 10 ∉ target) :
    ∃ form : GetForm, form.Describes request := by
  have hcut : ascii "GET " = ascii "GET" ++ [32] := by decide
  have hfour : (ascii "GET ").length = 4 := by decide
  obtain ⟨rest, rfl⟩ := hget
  rw [← hfour, List.drop_left] at h
  obtain ⟨behind, rfl, hspace, hslash, version, hversion, hend⟩ := h
  have hfree : 10 ∉ ascii "GET" ∧ (10 ∉ version ∧ 32 ∉ version) ∧ version.getLast? ≠ some 13 := by
    rcases hversion with rfl | rfl <;> decide
  have hlast : (ascii "GET" ++ 32 :: (target ++ 32 :: version)).getLast? ≠ some 13 := by
    rw [List.getLast?_append_cons, List.getLast?_cons, List.getLast?_append_cons,
      List.getLast?_cons]
    rcases hversion with rfl | rfl <;> decide
  have hpieces : HasPieces (ascii "GET " ++ (target ++ 32 :: behind)) (ascii "GET") target
      version := by
    refine ⟨?_, by decide, hspace, hfree.2.1.2⟩
    rcases hend with ⟨more, rfl⟩ | ⟨more, rfl⟩
    · refine ⟨ascii "GET" ++ 32 :: (target ++ 32 :: version), more, ?_, ?_, ?_⟩
      · rw [hcut]
        simp
      · simp [hfree, hfeed]
      · exact (stripLast_eq_self hlast).symm
    · refine ⟨ascii "GET" ++ 32 :: (target ++ 32 :: version) ++ [13], more, ?_, ?_, ?_⟩
      · rw [hcut]
        simp
      · simp [hfree, hfeed]
      · exact (stripLast_append 13 _).symm
  obtain ⟨form, hform, -⟩ := GetForm.exists_describes hpieces hversion hslash
  exact ⟨form, hform⟩

/-- The two parsers sort a request into the same case exactly when it is one of
these requests. -/
theorem shaderParse_eq_iff (hlen : 4 ≤ request.length) (h : ShaderParse request parse) :
    parse = parseRequest request ↔ SameCase request := by
  by_cases hget : ascii "GET " <+: request
  · -- a GET on the device: the host takes it for a GET, or reports a bad request
    have hother : ¬ OtherMethod request := by
      intro hother
      obtain ⟨method, target, version, hpieces, hne⟩ := otherMethod_iff.mp hother
      exact hne (hpieces.method_iff.mpr hget)
    rcases parseRequest_cases request with ⟨form, hform, hparse⟩ | ⟨hmethod, -⟩ | ⟨hnone, -, hparse⟩
    · refine iff_of_true ?_ ⟨fun _ target htarget => ?_, fun hnot => absurd hget hnot⟩
      · rw [hparse, shaderParse_of_describes hform h]
      · obtain rfl := htarget.unique (targetLine_of_describes hform).2
        exact hform.target_free.2
    · exact absurd hmethod hother
    · rw [hparse]
      cases h with
      | short hshort => omega
      | otherMethod _ hmethod => exact absurd hget hmethod
      | badTarget _ htarget =>
          exact iff_of_true rfl
            ⟨fun _ target hline => absurd hline (htarget target), fun hnot => absurd hget hnot⟩
      | get _ htarget =>
          refine iff_of_false (fun heq => RequestParse.noConfusion heq) fun hsame => ?_
          obtain ⟨form, hform⟩ := htarget.describes hget (hsame.target hget _ htarget)
          exact hnone form hform
  · have hparse : parse = .methodNotAllowed := by
      cases h with
      | short hshort => omega
      | otherMethod => rfl
      | badTarget hmethod => exact absurd hmethod hget
      | get hmethod => exact absurd hmethod hget
    rw [hparse]
    by_cases hpieces : ∃ method target version, HasPieces request method target version
    · refine iff_of_true ?_ ⟨fun hmethod => absurd hmethod hget, fun _ => hpieces⟩
      obtain ⟨method, target, version, hpieces⟩ := hpieces
      rw [parseRequest_of_pieces hpieces, if_pos (mt hpieces.method_iff.mp hget)]
    · refine iff_of_false ?_ fun hsame => hpieces (hsame.pieces hget)
      rw [parseRequest_of_no_pieces fun method target version h => hpieces ⟨_, _, _, h⟩]
      exact fun heq => RequestParse.noConfusion heq

/-- Where the responses without a route stand, nothing else does. -/
theorem OffsetTo.inj {source : Router} {router : CompiledRouter}
    (hcompile : compile source = .ok router) {other : RequestParse} {offset : UInt32}
    (h : OffsetTo router parse offset) (hother : OffsetTo router other offset)
    (hno_get : ∀ parts, other ≠ .get parts) : parse = other := by
  obtain ⟨hroutes, hbad, hmethod⟩ := compile_offsets hcompile
  simp only [UInt32.lt_iff_toNat_lt] at hroutes hbad hmethod
  have hget {parts : RequestParts} (h : OffsetTo router (.get parts) offset) :
      offset.toNat ≤ router.gpuLayout.fallbackResponseOffset.toNat := by
    rw [OffsetTo] at h
    cases hfound : router.findRoute parts with
    | some route =>
        rw [hfound] at h
        obtain ⟨i, hroute, hoffset⟩ := h
        exact Nat.le_of_lt (hroutes i route offset hroute hoffset)
    | none =>
        rw [hfound] at h
        rw [show offset = _ from h]
  cases other with
  | get parts => exact absurd rfl (hno_get parts)
  | badRequest =>
      have hother : offset = router.gpuLayout.badRequestResponseOffset := hother
      cases parse with
      | get parts =>
          have hle := hget h
          rw [hother] at hle
          omega
      | badRequest => rfl
      | methodNotAllowed =>
          have hsame : offset = router.gpuLayout.methodNotAllowedResponseOffset := h
          rw [← hother, hsame] at hmethod
          omega
  | methodNotAllowed =>
      have hother : offset = router.gpuLayout.methodNotAllowedResponseOffset := hother
      cases parse with
      | get parts =>
          have hle := hget h
          rw [hother] at hle
          omega
      | badRequest =>
          have hsame : offset = router.gpuLayout.badRequestResponseOffset := h
          rw [← hother, hsame] at hmethod
          omega
      | methodNotAllowed => rfl

end Cases

section Agreement

variable {config : ServerConfig} {source : Router} {router : CompiledRouter}
  {assets : ShaderAssets} {requests : List (List UInt8)} {processor : GpuProcessor}
  {metadata : List RequestMeta} {words : List UInt32} {params : Params} {bindings : Bindings}
  {final : Storage}

/-- In every batch of frames, and for each of its requests: the shader chooses the
response `route_request` chooses, and leaves its bytes in the slot, exactly when
the parsers sort the request into the same case, and no segment of the response
is, as a whole, the header tail. -/
theorem http_agreement_iff (hcompile : compile source = .ok router)
    (hassets : buildShaderAssets router = .ok assets)
    (hadmitted : Admitted config router requests)
    (hframes : ∀ request ∈ requests, frameLen headerTerminator request = some request.length)
    (hprepared : Prepared config router requests processor metadata words params)
    (hdispatched : Dispatched router assets metadata words params bindings final) {i : Nat}
    {request : List UInt8} (hi : requests[i]? = some request) :
    OffsetTo router (parseRequest request) (chosenResponse bindings (UInt32.ofNat i)).1 ∧
        router.routeRequest request (ascii "gpu") =
          .ok (slotBytes params (UInt32.ofNat i) final) ↔
      SameCase request ∧
        ∀ segment ∈ (source.responseTo (parseRequest request)).body.segments,
          ¬ segment.WritesTail := by
  obtain ⟨parse, bytes, hparse, hoffset, hmeaning, -, -, hresponded⟩ :=
    hdispatched.responded (isCompiled_compile hcompile) hassets hadmitted
      (hprepared.presentable hadmitted) hi
  have hlen : 4 ≤ request.length := (frameLen_le (hframes request (List.mem_of_getElem? hi))).1
  have hsame := shaderParse_eq_iff hlen hparse
  have hfor := responseFor_responseTo hcompile request
  have hhost : router.routeRequest request (ascii "gpu") = .ok _ :=
    (router.routeRequest_parse request (ascii "gpu")).trans (hfor.renderResponse _ _ _)
  rw [hresponded.slotBytes_eq, hhost, ← hsame]
  by_cases hcase : parse = parseRequest request
  swap
  · -- the offsets tell the responses apart
    refine iff_of_false (fun hagrees => hcase ?_) fun hboth => hcase hboth.1
    refine hoffset.inj hcompile hagrees.1 fun parts hget => hcase ?_
    obtain ⟨form, hform, rfl⟩ := describes_of_get hget
    rw [hget, shaderParse_of_describes hform hparse]
  subst hcase
  rw [responseMeaning_arena hcompile hassets hfor] at hmeaning
  obtain rfl := Outcome.ok.inj hmeaning
  rw [and_iff_right hoffset, and_iff_right rfl, Outcome.ok.injEq]
  rcases arenaMeaning_cases (parseRequest request).parts request.length
      (source.responseTo (parseRequest request)).body.segments with
    ⟨hnone, hbody⟩ | ⟨⟨segment, hmem, htail⟩, hshorter⟩
  · rw [hbody]
    exact iff_of_true rfl hnone
  · refine iff_of_false (fun heq => ?_) fun hnone => hnone segment hmem htail
    exact Nat.ne_of_gt (buildResponse_length_lt _ _ _ _ hshorter) (congrArg List.length heq)

end Agreement

/-- A frame whose line has one piece. -/
def bogusRequest : List UInt8 := ascii "BOGUS\r\n\r\n"

/-- Behind a request the two sides answer differently, they agree on a GET. -/
theorem http_agreement_iff_root :
    ∃ router assets processor metadata words params bindings final,
      compile Router.new = .ok router ∧ buildShaderAssets router = .ok assets ∧
      Prepared ServerConfig.default router [bogusRequest, getRequest (ascii "/") []] processor
        metadata words params ∧
      Dispatched router assets metadata words params bindings final ∧
      router.routeRequest (getRequest (ascii "/") []) (ascii "gpu") =
        .ok (slotBytes params 1 final) := by
  obtain ⟨router, assets, processor, metadata, words, params, bindings, final, hcompile, hassets,
      hadmitted, hprepared, hdispatched⟩ :=
    @exists_batch Router.new new_fits [bogusRequest, getRequest (ascii "/") []] (by decide)
      (by decide) (by decide)
  have hform := describes_getRequest (show GoodPath (ascii "/") from ⟨rfl, by decide, by decide,
    by decide⟩) (Or.inl ⟨rfl, rfl⟩)
  have hsame : SameCase (getRequest (ascii "/") []) := by
    obtain ⟨hget, hline⟩ := targetLine_of_describes hform
    refine ⟨fun _ target htarget => ?_, fun hnot => absurd hget hnot⟩
    obtain rfl := htarget.unique hline
    exact hform.target_free.2
  have hagrees := (http_agreement_iff hcompile hassets hadmitted (by decide) hprepared hdispatched
    (show [bogusRequest, getRequest (ascii "/") []][1]? = some _ from rfl)).mpr
    ⟨hsame, by decide⟩
  exact ⟨router, assets, processor, metadata, words, params, bindings, final, hcompile, hassets,
    hprepared, hdispatched, hagrees.2⟩

/-- The host reports a bad request where the device reports the method. -/
theorem http_disagreement :
    ∃ router assets processor metadata words params bindings final,
      compile Router.new = .ok router ∧ buildShaderAssets router = .ok assets ∧
      Admitted ServerConfig.default router [bogusRequest] ∧
      frameLen headerTerminator bogusRequest = some bogusRequest.length ∧
      Prepared ServerConfig.default router [bogusRequest] processor metadata words params ∧
      Dispatched router assets metadata words params bindings final ∧
      router.routeRequest bogusRequest (ascii "gpu") ≠ .ok (slotBytes params 0 final) := by
  obtain ⟨router, assets, processor, metadata, words, params, bindings, final, hcompile, hassets,
      hadmitted, hprepared, hdispatched⟩ :=
    @exists_batch Router.new new_fits [bogusRequest] (by decide) (by decide) (by decide)
  refine ⟨router, assets, processor, metadata, words, params, bindings, final, hcompile, hassets,
    hadmitted, by decide, hprepared, hdispatched, ?_⟩
  have hfrom := compiledFrom_compile hcompile
  obtain ⟨parse, bytes, hparse, -, hmeaning, -, -, hresponded⟩ :=
    @Dispatched.responded _ _ _ _ _ _ _ _ _ _ (isCompiled_compile hcompile) hassets hadmitted
      (hprepared.presentable hadmitted) hdispatched 0 bogusRequest rfl
  have hmethod : parse = .methodNotAllowed := by
    cases hparse with
    | short hshort => exact absurd hshort (by decide)
    | otherMethod => rfl
    | badTarget hget => exact absurd hget (by decide)
    | get hget => exact absurd hget (by decide)
  subst hmethod
  have hbad : parseRequest bogusRequest = .badRequest := by decide
  have hdevice := responseMeaning_arena hcompile hassets
    (hfrom.responses _ _ .methodNotAllowed) RequestParts.empty bogusRequest.length
  have hhost := (hfrom.responses _ _ .badRequest).renderResponse RequestParts.empty
    bogusRequest.length (ascii "gpu")
  rw [show UInt32.ofNat 0 = 0 from rfl] at hresponded
  rw [hresponded.slotBytes_eq, ← hmeaning, CompiledRouter.routeRequest_parse, hbad]
  refine fun heq => absurd (hhost.symm.trans (heq.trans hdevice)) ?_
  decide

end Shader
end Http
end Gput
