import Gput.Library.SortedRange
import Gput.Http.RequestLine
import Gput.Http.Batch

/-!
# Looking up a route

The route table is sorted by hash, paths are declared once, and a path cannot
contain what ends it in a request line.  So both lookups select the response of
the declared route with the path, the fallback where there is none, and both
answer every request for the path of a route: `route_lookup_exact`.
-/

namespace Gput
namespace Http

open ByteString AsciiText

section Host

variable {source : Router} {router : CompiledRouter} {path : Text} {response : CompiledResponse}

/-- The candidates of a hash are the routes with that hash, so the search misses
no route with the path. -/
theorem findRoute_cases (compiled : IsCompiled router) (path query : Text) :
    (∃ route ∈ router.routes, route.path = path ∧
      router.findRoute ⟨path, query, fnv1a path⟩ = some route) ∨
    ((∀ route ∈ router.routes, route.path ≠ path) ∧
      router.findRoute ⟨path, query, fnv1a path⟩ = none) := by
  have hfind : router.findRoute ⟨path, query, fnv1a path⟩ =
      (router.routes.filter (fun route => route.pathHash == fnv1a path)).find?
        (fun route => route.path == path) := by
    rw [CompiledRouter.findRoute]
    exact congrArg (List.find? _) (SortedRange.run_eq_filter compiled.sorted)
  rw [hfind]
  cases hfound : (router.routes.filter (fun route => route.pathHash == fnv1a path)).find?
      (fun route => route.path == path) with
  | some route =>
      have hmem := List.mem_filter.mp (List.mem_of_find?_eq_some hfound)
      have hpath := List.find?_some hfound
      exact Or.inl ⟨route, hmem.1, by simpa using hpath, rfl⟩
  | none =>
      refine Or.inr ⟨fun route hroute hpath => ?_, rfl⟩
      have hhash : route.pathHash = fnv1a path := hpath ▸ (compiled.routes route hroute).hash
      have hcandidate : route ∈ router.routes.filter (fun route => route.pathHash == fnv1a path) :=
        List.mem_filter.mpr ⟨hroute, by simpa using hhash⟩
      exact List.find?_eq_none.mp hfound route hcandidate (by simpa using hpath)

/-- The response a path selects: that of the one declared route with the path,
or the fallback. -/
inductive Selects (source : Router) (router : CompiledRouter) (path : Text) :
    CompiledResponse → Prop
  | route {definition : RouteDefinition} {route : CompiledRoute}
      (hdefinition : definition ∈ source.routes) (hdeclared : definition.path = path)
      (honly : ∀ other ∈ source.routes, other.path = path → other = definition)
      (hroute : route ∈ router.routes) (hpath : route.path = path)
      (hresponse : ResponseFor router.strings definition.response route.response) :
      Selects source router path route.response
  | fallback (hnone : ∀ definition ∈ source.routes, definition.path ≠ path) :
      Selects source router path router.fallback

theorem selects_responseTo (hcompile : compile source = .ok router) (path query : Text) :
    Selects source router path (router.responseTo (.get ⟨path, query, fnv1a path⟩)) := by
  have hfrom := compiledFrom_compile hcompile
  rw [CompiledRouter.responseTo]
  rcases findRoute_cases (isCompiled_compile hcompile) path query with
    ⟨route, hroute, hpath, hfound⟩ | ⟨hnone, hfound⟩
  · obtain ⟨definition, hdefinition, hdeclared⟩ :=
      List.mem_map.mp ((hfrom.routes path).mp (List.mem_map.mpr ⟨route, hroute, hpath⟩))
    rw [hfound]
    refine .route hdefinition hdeclared (fun other hother hsame => ?_) hroute hpath
      (hfrom.responses _ _ (.route hdefinition hroute (hpath.trans hdeclared.symm)))
    exact List.inj_on_of_nodup_map hfrom.paths hother hdefinition (hsame.trans hdeclared.symm)
  · rw [hfound]
    refine .fallback fun definition hdefinition hdeclared => ?_
    obtain ⟨route, hroute, hpath⟩ :=
      List.mem_map.mp ((hfrom.routes path).mpr (List.mem_map.mpr ⟨_, hdefinition, hdeclared⟩))
    exact hnone route hroute hpath

/-- The route of a declared path is found. -/
theorem findRoute_declared (hcompile : compile source = .ok router) {definition : RouteDefinition}
    (hdefinition : definition ∈ source.routes) (query : Text) :
    ∃ route ∈ router.routes, route.path = definition.path ∧
      ResponseFor router.strings definition.response route.response ∧
      router.findRoute ⟨definition.path, query, fnv1a definition.path⟩ = some route := by
  have hfrom := compiledFrom_compile hcompile
  rcases findRoute_cases (isCompiled_compile hcompile) definition.path query with
    ⟨route, hroute, hpath, hfound⟩ | ⟨hnone, -⟩
  · exact ⟨route, hroute, hpath,
      hfrom.responses _ _ (.route hdefinition hroute hpath), hfound⟩
  · obtain ⟨route, hroute, hpath⟩ :=
      List.mem_map.mp ((hfrom.routes _).mpr (List.mem_map_of_mem hdefinition))
    exact absurd hpath (hnone route hroute)

end Host

section Requests

variable {path tail query : Text}

/-- The request for a path, with what stands behind the path in the target. -/
def getRequest (path tail : Text) : List UInt8 :=
  ascii "GET " ++ path ++ tail ++ ascii " HTTP/1.1\r\n\r\n"

/-- Nothing, or a question mark and a query without spaces and line feeds. -/
def QueryTail (tail query : Text) : Prop :=
  tail = [] ∧ query = [] ∨ tail = 63 :: query ∧ 32 ∉ query ∧ 10 ∉ query

theorem describes_getRequest (hpath : GoodPath path) (htail : QueryTail tail query) :
    GetForm.Describes ⟨path, query, tail, [49], [13, 10], [13, 10]⟩ (getRequest path tail) where
  request := by
    have hversion : ascii " HTTP/1.1\r\n\r\n" =
        ascii " HTTP/1." ++ [49] ++ [13, 10] ++ [13, 10] := by
      decide
    rw [getRequest, hversion]
    simp only [List.append_assoc]
  slash := hpath.slash
  path :=
    ⟨fun hmem => (hpath.visible 32 hmem).2 rfl,
      fun hmem => absurd (hpath.visible 10 hmem).1 (by decide), hpath.no_mark.1⟩
  tail := htail
  digit := Or.inr rfl
  lineEnd := Or.inr rfl

end Requests

namespace Shader

open WordMemory

section Forms

variable {request : List UInt8} {form : GetForm}

theorem TargetLine.unique {bytes : List UInt8} {target other : Text} (h : TargetLine bytes target)
    (hother : TargetLine bytes other) : target = other := by
  obtain ⟨rest, rfl, hspace, -, -⟩ := h
  obtain ⟨rest', heq, hspace', -, -⟩ := hother
  exact (append_cons_inj hspace hspace' heq).1

/-- The shader finds the target of a GET. -/
theorem targetLine_of_describes (h : form.Describes request) :
    ascii "GET " <+: request ∧ TargetLine (request.drop 4) form.target := by
  have hspaced : ascii " HTTP/1." = 32 :: ascii "HTTP/1." := by decide
  have hwhole : request = ascii "GET " ++
      (form.target ++ 32 :: (form.version ++ form.lineEnd ++ form.rest)) := by
    rw [h.request, hspaced]
    simp only [GetForm.target, GetForm.version, List.append_assoc, List.cons_append]
  have hfour : (ascii "GET ").length = 4 := by decide
  refine ⟨⟨_, hwhole.symm⟩, form.version ++ form.lineEnd ++ form.rest, ?_, h.target_free.1, ?_,
    form.version, h.version, ?_⟩
  · rw [hwhole, ← hfour, List.drop_left]
  · rw [GetForm.target, List.head?_append, h.slash, Option.some_or]
  · rcases h.lineEnd with hend | hend
    · exact Or.inl (hend ▸ List.prefix_append _ _)
    · exact Or.inr (hend ▸ List.prefix_append _ _)

/-- The shader takes the parts of a GET that the host takes. -/
theorem shaderParse_of_describes (h : form.Describes request) {parse : RequestParse}
    (hparse : ShaderParse request parse) :
    parse = .get ⟨form.path, form.query, fnv1a form.path⟩ := by
  obtain ⟨hget, hline⟩ := targetLine_of_describes h
  have hlen := hget.length_le
  have hfour : (ascii "GET ").length = 4 := by decide
  cases hparse with
  | short hshort => omega
  | otherMethod _ hmethod => exact absurd hget hmethod
  | badTarget _ htarget => exact absurd hline (htarget _)
  | get _ htarget =>
      obtain rfl := htarget.unique hline
      rw [h.splitTarget]

end Forms

section Lookup

variable {source : Router} {router : CompiledRouter} {assets : ShaderAssets}

/-- The response the shader finds for a target. -/
theorem selects_findResponseOffset (hcompile : compile source = .ok router)
    (hassets : buildShaderAssets router = .ok assets) {bindings : Bindings}
    {requestIndex : UInt32} {request : List UInt8} {target : RequestTarget}
    (huploaded : Uploaded router assets bindings) (hlayout : LaidOut router bindings.params)
    (htarget : InRequest bindings requestIndex request target)
    (hhash : target.pathHash = fnv1a (targetParts request target).path) :
    ∃ response, Selects source router (targetParts request target).path response ∧
      ResponseOffset router response (findResponseOffset bindings requestIndex target) := by
  have compiled := isCompiled_compile hcompile
  have hparts : targetParts request target = ⟨(targetParts request target).path,
      (targetParts request target).query, fnv1a (targetParts request target).path⟩ := by
    rw [← hhash]
    rfl
  have hoffset := findResponseOffset_eq compiled huploaded.routerWords
    (arenaTexts_of_build compiled hassets) hlayout (huploaded.readsTexts hassets) htarget
  have hselects := selects_responseTo hcompile (targetParts request target).path
    (targetParts request target).query
  rw [← hparts] at hselects
  exact ⟨_, hselects, hoffset.response⟩

/-- Both lookups select the response of the one declared route with the path, or
the fallback, and every request for the path of a route is answered with the
response of the route: by the host, and in every slot of every batch. -/
theorem route_lookup_exact (hcompile : compile source = .ok router)
    (hassets : buildShaderAssets router = .ok assets) :
    (∀ path query, Selects source router path
      (((router.findRoute ⟨path, query, fnv1a path⟩).map CompiledRoute.response).getD
        router.fallback)) ∧
    (∀ bindings requestIndex request target, Uploaded router assets bindings →
      LaidOut router bindings.params → InRequest bindings requestIndex request target →
      target.pathHash = fnv1a (targetParts request target).path →
      ∃ response, Selects source router (targetParts request target).path response ∧
        ResponseOffset router response (findResponseOffset bindings requestIndex target) ∧
        Emitted router.routerWords response (findResponseOffset bindings requestIndex target)) ∧
    ∀ definition ∈ source.routes, ∀ tail query, QueryTail tail query →
      let request := getRequest definition.path tail
      let parts : RequestParts := ⟨definition.path, query, fnv1a definition.path⟩
      let declared := definition.response
      ∃ route ∈ router.routes, route.path = definition.path ∧
        ResponseFor router.strings declared route.response ∧
        (∀ backend, router.routeRequest request backend =
          .ok (buildResponse declared.status.code declared.status.reason declared.contentType
            (declared.body.meaning parts request.length backend) backend)) ∧
        ∀ config requests processor metadata words params bindings final,
          Admitted config router requests →
          Prepared config router requests processor metadata words params →
          Dispatched router assets metadata words params bindings final →
          ∀ i : Nat, requests[i]? = some request →
            RouteOffset router (some route) (chosenResponse bindings (UInt32.ofNat i)).1 ∧
            responseMeaning (withTexts router assets.texts) parts request.length route.response =
              .ok (slotBytes params (UInt32.ofNat i) final) := by
  have compiled := isCompiled_compile hcompile
  refine ⟨selects_responseTo hcompile, ?_, ?_⟩
  · intro bindings requestIndex request target huploaded hlayout htarget hhash
    obtain ⟨response, hselects, hoffset⟩ :=
      selects_findResponseOffset hcompile hassets huploaded hlayout htarget hhash
    exact ⟨response, hselects, hoffset, (hoffset.emitted compiled).2⟩
  intro definition hdefinition tail query htail request parts declared
  obtain ⟨route, hroute, hpath, hfor, hfound⟩ := findRoute_declared hcompile hdefinition query
  have hgood : GoodPath definition.path := hpath ▸ (compiled.routes route hroute).path
  have hform := describes_getRequest hgood htail
  refine ⟨route, hroute, hpath, hfor, fun backend => ?_, ?_⟩
  · have hresponse : router.responseTo (.get parts) = route.response := by
      rw [CompiledRouter.responseTo, hfound]
      rfl
    rw [CompiledRouter.routeRequest_parse, parseRequest_of_describes hform, hresponse]
    exact hfor.renderResponse parts request.length backend
  · intro config requests processor metadata words params bindings final hadmitted hprepared
      hdispatched i hi
    obtain ⟨parse, bytes, hparse, hoffset, hmeaning, -, -, hresponded⟩ :=
      hdispatched.responded compiled hassets hadmitted (hprepared.presentable hadmitted) hi
    obtain rfl := shaderParse_of_describes hform hparse
    rw [OffsetTo, hfound] at hoffset
    rw [CompiledRouter.responseTo, hfound] at hmeaning
    rw [hresponded.slotBytes_eq]
    exact ⟨hoffset, hmeaning⟩

end Lookup

/-- A router with one route. -/
def plaintextRouter : Router :=
  { Router.new with
    routes := [⟨ascii "/plaintext", Response.text (Body.new.push (ascii "Hello, World!\n"))⟩] }

/-- A request with a query for the one route, in a batch of the default server. -/
theorem route_lookup_exact_plaintext :
    ∃ router assets, compile plaintextRouter = .ok router ∧ buildShaderAssets router = .ok assets ∧
      Selects plaintextRouter router (ascii "/missing")
        (((router.findRoute ⟨ascii "/missing", [], fnv1a (ascii "/missing")⟩).map
          CompiledRoute.response).getD router.fallback) ∧
      let request := getRequest (ascii "/plaintext") (ascii "?q")
      let parts : RequestParts := ⟨ascii "/plaintext", ascii "q", fnv1a (ascii "/plaintext")⟩
      router.routeRequest request (ascii "gpu") =
        .ok (buildResponse 200 (ascii "OK") textContentType (ascii "Hello, World!\n")
          (ascii "gpu")) ∧
      ∃ route ∈ router.routes, route.path = ascii "/plaintext" ∧
        ∃ processor metadata words params bindings final,
          Prepared ServerConfig.default router [request] processor metadata words params ∧
          Dispatched router assets metadata words params bindings final ∧
          responseMeaning (withTexts router assets.texts) parts request.length route.response =
            .ok (slotBytes params 0 final) := by
  obtain ⟨router, assets, processor, metadata, words, params, bindings, final, hcompile, hassets,
      hadmitted, hprepared, hdispatched⟩ :=
    @exists_batch plaintextRouter (by decide +kernel) [getRequest (ascii "/plaintext") (ascii "?q")]
      (by decide) (by decide) (by decide)
  obtain ⟨hselects, -, hroutes⟩ := route_lookup_exact hcompile hassets
  obtain ⟨route, hroute, hpath, -, hhost, hdevice⟩ :=
    hroutes _ List.mem_cons_self (ascii "?q") (ascii "q") (Or.inr (by decide))
  exact ⟨router, assets, hcompile, hassets, hselects _ _, hhost _, route, hroute, hpath, processor,
    metadata, words, params, bindings, final, hprepared, hdispatched,
    (hdevice _ _ _ _ _ _ _ _ hadmitted hprepared hdispatched 0 rfl).2⟩

end Shader
end Http
end Gput
