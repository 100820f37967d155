import Gput.Http.ShaderLoads

/-!
# The loads of a batch are in range

The buffers of a batch start with what the host uploads, and nothing is known of
what stands behind.  Whatever the requests hold, every load of every invocation
stays inside the uploads, and the loads of a request stay inside its own words.
So an invocation sees nothing of its neighbours, and the bytes it reads are those
of the request and of the strings: `loads_in_range`.
-/

namespace Gput
namespace Http
namespace Shader

open ByteString LittleEndian WordMemory

/-- What the host uploads for a batch. -/
def uploadsOf (router : CompiledRouter) (assets : ShaderAssets) (params : Params)
    (metadata : List RequestMeta) (words : List UInt32) : Uploads where
  ids := router.shaderStringIds
  params := params
  requestMeta := metadata
  inputWords := words
  stringMeta := assets.metadata
  stringWords := assets.words
  routerWords := router.routerWords

/-- The loads of a batch are in range and exact: the checked shader returns what
the shader does, and requests and strings are loaded byte by byte, or four bytes
at any alignment, in little-endian order. -/
structure LoadsInRange (router : CompiledRouter) (requests : List (List UInt8)) (uploads : Uploads)
    (bindings : Bindings) : Prop where
  invocations : ∀ (requestIndex : UInt32) (storage : Storage),
    Checked.processRequests uploads requestIndex storage =
      some (processRequests bindings requestIndex storage)
  requests : ∀ (requestIndex : UInt32) (request : List UInt8),
    requests[requestIndex.toNat]? = some request →
      LoadsBytes (Checked.requestWord uploads requestIndex)
        (Checked.requestByte uploads requestIndex) request
  strings : ∀ (stringId : UInt32) (value : Text), router.strings[stringId.toNat]? = some value →
    LoadsBytes (Checked.stringWord uploads stringId) (Checked.stringByte uploads stringId)
      (shaderText router.shaderStringIds stringId.toNat value)

section Batches

variable {router : CompiledRouter} {assets : ShaderAssets} {params : Params}
  {requests : List (List UInt8)} {metadata : List RequestMeta} {words : List UInt32}
  {bindings : Bindings}

theorem bound_bindingsOf (router : CompiledRouter) (assets : ShaderAssets) (params : Params)
    (metadata : List RequestMeta) (words : List UInt32) :
    Bound (uploadsOf router assets params metadata words)
      (bindingsOf router assets params metadata words) where
  ids := rfl
  params := rfl
  requestMeta := stores_bufferOf _ _
  inputWords := stores_bufferOf _ _
  stringMeta := stores_bufferOf _ _
  stringWords := stores_bufferOf _ _
  routerWords := stores_bufferOf _ _

/-- The words of an arena have room for its bytes. -/
theorem arena_le (hassets : buildShaderAssets router = .ok assets) :
    assets.byteLen ≤ 4 * assets.words.length := by
  obtain ⟨arena, hwords, hlen, -, -⟩ := buildShaderAssets_spec hassets
  rw [hlen, hwords, packBytes_eq, wordsOf_length]
  omega

variable (hbound : Bound (uploadsOf router assets params metadata words) bindings)
include hbound

theorem Bound.uploaded (harena : assets.byteLen ≤ 2 ^ 32) : Uploaded router assets bindings where
  ids := hbound.ids
  stringMeta := hbound.stringMeta
  stringWords := hbound.stringWords
  routerWords := hbound.routerWords
  arena := harena

/-- The strings and the tables of a compiled router are loaded from the uploads. -/
theorem Bound.loadsRouter (compiled : IsCompiled router)
    (hassets : buildShaderAssets router = .ok assets) (harena : assets.byteLen ≤ 2 ^ 32) :
    LoadsRouter router (uploadsOf router assets params metadata words) bindings where
  bound := hbound
  ids := rfl
  strings := fun id hid => by
    obtain ⟨arena, hwords, hlen, -, hlocated⟩ := buildShaderAssets_spec hassets
    have htexts := (arenaTexts_of_build compiled hassets).length
    obtain ⟨string, hstring, hat⟩ := hlocated id.toNat _
      (List.getElem?_eq_getElem (show id.toNat < assets.texts.length by rwa [htexts]))
    exact hbound.loadsString hwords (hlen ▸ harena) hstring hat
  routes := fun _ _ hindex hfield => hbound.routeWord_checked compiled rfl hindex hfield
  responses := fun _ _ hemitted => hbound.loadsResponse compiled rfl hemitted

/-- A request of the batch is loaded from its own words. -/
theorem Bound.packed {i : UInt32} {requestMeta : RequestMeta} {request : List UInt8}
    (hwords : words.length ≤ 2 ^ 32) (hat : metadata[i.toNat]? = some requestMeta)
    (hpacked : Packed words requestMeta request) :
    Presented bindings i request ∧
      LoadsRequest (uploadsOf router assets params metadata words) bindings i request.length := by
  refine ⟨?_, hbound.loadsRequest hwords hat hpacked⟩
  have hpresented := @Packed.presented metadata words requestMeta request bindings i.toNat hpacked
    i.toNat_lt hwords hbound.requestMeta hat hbound.inputWords
  rwa [UInt32.ofNat_toNat] at hpresented

/-- Every load of every invocation is inside the uploads, and every load of
`input_words` inside the words of the request of the invocation.  The uploads fit
the storage bindings of the device, which are far smaller than the address space
of the shader: it is requested with wgpu's downlevel defaults, `2 ^ 27` bytes. -/
theorem loads_in_range {source : Router} (hcompile : compile source = .ok router)
    (hassets : buildShaderAssets router = .ok assets) {maxRequestBytes : Nat}
    (hpacked : packRequestBatch maxRequestBytes [] [] requests = .ok (metadata, words))
    (hlayout : LaidOut router params) (hcount : params.requestCount.toNat = requests.length)
    {maxStorageBufferBindingSize : Nat} (hbinding : maxStorageBufferBindingSize ≤ 2 ^ 31)
    (hinput : 4 * words.length ≤ maxStorageBufferBindingSize)
    (hstrings : 4 * assets.words.length ≤ maxStorageBufferBindingSize) :
    LoadsInRange router requests (uploadsOf router assets params metadata words) bindings := by
  have compiled := isCompiled_compile hcompile
  have harena : assets.byteLen ≤ 2 ^ 32 := by
    have := arena_le hassets
    omega
  have hwords : words.length ≤ 2 ^ 32 := by omega
  have hrouter := hbound.loadsRouter compiled hassets harena
  have htexts := (hbound.uploaded harena).readsTexts hassets
  have htable := arenaTexts_of_build compiled hassets
  have hlaid : LaidOut router bindings.params := hbound.params ▸ hlayout
  obtain ⟨_, _, hmetadata, -, -, -, hrequests⟩ := packRequestBatch_spec hpacked
  rw [List.nil_append] at hmetadata
  subst hmetadata
  have hrequest {requestIndex : UInt32} {request : List UInt8}
      (hat : requests[requestIndex.toNat]? = some request) :
      ∃ requestMeta, metadata[requestIndex.toNat]? = some requestMeta ∧
        request.length ≤ 4 * words.length ∧ Presented bindings requestIndex request ∧
        LoadsRequest (uploadsOf router assets params metadata words) bindings requestIndex
          request.length := by
    obtain ⟨requestMeta, hmeta, hstored⟩ := hrequests _ _ hat
    have hle := hstored.words.length_le
    rw [ofBytes_length, List.length_drop] at hle
    exact ⟨requestMeta, hmeta, by omega, hbound.packed hwords hmeta hstored⟩
  refine ⟨fun requestIndex storage => ?_, fun requestIndex request hat => ?_,
    fun stringId value hat => ?_⟩
  · rcases UInt32.lt_or_le requestIndex params.requestCount with hlt | hge
    · have hinside := UInt32.lt_iff_toNat_lt.mp hlt
      rw [hcount] at hinside
      obtain ⟨requestMeta, hmeta, hle, hpresented, hloads⟩ :=
        hrequest (List.getElem?_eq_getElem hinside)
      have hread := hbound.requestMeta requestIndex requestMeta hmeta
      exact hrouter.processRequests compiled rfl htable htexts hlaid (hread ▸ hmeta) hpresented
        hloads (by omega) storage
    · rw [processRequests_of_le (hbound.params ▸ hge)]
      exact processRequests_checked_of_le hge storage
  · obtain ⟨_, -, -, hpresented, hloads⟩ := hrequest hat
    exact hloads.loadsBytes
      ⟨fun i hi => readWord_eq hpresented.stored hi, fun i hi => requestByte_eq hpresented hi⟩
  · obtain ⟨_, -, -, htextsEq, -⟩ := buildShaderAssets_spec hassets
    have htext : assets.texts[stringId.toNat]? =
        some (shaderText router.shaderStringIds stringId.toNat value) := by
      rw [htextsEq, List.getElem?_mapIdx, hat, Option.map_some]
    have hloads := (hrouter.strings stringId (List.getElem?_eq_some_iff.mp hat).1).bytes
    rw [htexts.len stringId _ htext] at hloads
    exact hloads.loadsBytes (htexts.read stringId _ htext)

end Batches

/-- A request whose last word is not full, and three bytes that are no request,
for a router without routes and the limit of the downlevel defaults. -/
theorem loads_in_range_two :
    ∃ router assets params metadata words,
      compile Router.new = .ok router ∧ buildShaderAssets router = .ok assets ∧
      packRequestBatch 4096 [] [] [ascii "GET / HTTP/1.1\r\n\r\n", [0, 32, 10]] =
        .ok (metadata, words) ∧
      LoadsInRange router [ascii "GET / HTTP/1.1\r\n\r\n", [0, 32, 10]]
        (uploadsOf router assets params metadata words)
        (bindingsOf router assets params metadata words) := by
  have hrun : (do
      let router ← compile Router.new
      let assets ← buildShaderAssets router
      Outcome.ensure (4 * assets.words.length ≤ 128 * 1024 * 1024) "") = .ok PUnit.unit := by
    decide +kernel
  obtain ⟨router, hcompile, hrun⟩ := Outcome.bind_eq_ok.mp hrun
  obtain ⟨assets, hassets, hrun⟩ := Outcome.bind_eq_ok.mp hrun
  have hstrings := Outcome.ensure_eq_ok.mp hrun
  have hpack : (do
      let packed ← packRequestBatch 4096 [] []
        [ascii "GET / HTTP/1.1\r\n\r\n", [0, 32, 10]]
      Outcome.ensure (4 * packed.2.length ≤ 128 * 1024 * 1024) "") = .ok PUnit.unit := by
    decide +kernel
  obtain ⟨⟨metadata, words⟩, hpacked, hpack⟩ := Outcome.bind_eq_ok.mp hpack
  have hinput : 4 * words.length ≤ 128 * 1024 * 1024 := Outcome.ensure_eq_ok.mp hpack
  let params : Params :=
    { requestStrideWords := 1024
      responseStrideWords := 128
      requestCount := 2
      routeCount := router.gpuLayout.routeCount
      fallbackResponseOffset := router.gpuLayout.fallbackResponseOffset
      badRequestResponseOffset := router.gpuLayout.badRequestResponseOffset
      methodNotAllowedResponseOffset := router.gpuLayout.methodNotAllowedResponseOffset }
  exact ⟨router, assets, params, metadata, words, hcompile, hassets, hpacked,
    loads_in_range (bound_bindingsOf router assets params metadata words) hcompile hassets hpacked
      ⟨rfl, rfl, rfl, rfl⟩ rfl (by norm_num) hinput hstrings⟩

end Shader
end Http
end Gput
