import Gput.Http.Request

/-!
# What compilation guarantees

`IsCompiled` collects what every compiled router satisfies: the strings behind
its ids, the limits of its segments, the order of its routes, and the place of
every response in the list of words.  `isCompiled_compile` and `compile_offsets`
are the only results of this module that look into the compiler.
-/

namespace Gput
namespace Http

open ByteString AsciiText Decimal

/-- Printable ASCII, as every header value is. -/
structure HeaderValue (text : Text) : Prop where
  ne_nil : text ≠ []
  printable : ∀ byte ∈ text, byte < 128 ∧ isControl byte = false

/-- The ids of a segment have a string, and its limit fits a word. -/
def SegmentStored (strings : List Text) : CompiledSegment → Prop
  | .literal stringId => stringId.toNat < strings.length
  | .path maxBytes => maxBytes ≤ u32Max
  | .query maxBytes => maxBytes ≤ u32Max
  | .backend => True
  | .requestBytes => True
  | .pathHash => True
  | .backendVariant cpu gpu => cpu.toNat < strings.length ∧ gpu.toNat < strings.length

/-- The most bytes a segment takes on the GPU. -/
def gpuSegmentBytes (strings : List Text) : CompiledSegment → Nat
  | .literal stringId => (strings.getD stringId.toNat []).length
  | .path maxBytes => maxBytes
  | .query maxBytes => maxBytes
  | .backend => 3
  | .requestBytes => 10
  | .pathHash => 10
  | .backendVariant _ gpu => (strings.getD gpu.toNat []).length

/-- A compiled response over a list of strings. -/
structure GoodResponse (strings : List Text) (response : CompiledResponse) : Prop where
  status : 100 ≤ response.status ∧ response.status ≤ 999
  reason : ∃ text, strings[response.reasonStringId.toNat]? = some text ∧ HeaderValue text
  contentType : ∃ text, strings[response.contentTypeStringId.toNat]? = some text ∧ HeaderValue text
  segments : ∀ segment ∈ response.segments, SegmentStored strings segment
  gpuBytes : response.maxGpuBodyBytes = (response.segments.map (gpuSegmentBytes strings)).sum

section Extension

variable {strings strings' : List Text}

theorem getElem?_of_extends (h : strings <+: strings') {i : Nat} {text : Text}
    (hi : strings[i]? = some text) : strings'[i]? = some text := by
  obtain ⟨more, rfl⟩ := h
  rw [List.getElem?_append_left (List.getElem?_eq_some_iff.mp hi).1, hi]

theorem getD_of_extends (h : strings <+: strings') {i : Nat} (hi : i < strings.length) :
    strings'.getD i [] = strings.getD i [] := by
  obtain ⟨more, rfl⟩ := h
  rw [List.getD_eq_getElem?_getD, List.getElem?_append_left hi, List.getD_eq_getElem?_getD]

theorem SegmentStored.mono (h : strings <+: strings') {segment : CompiledSegment}
    (hsegment : SegmentStored strings segment) : SegmentStored strings' segment := by
  have hlen := h.length_le
  cases segment with
  | literal stringId => exact Nat.lt_of_lt_of_le hsegment hlen
  | backendVariant cpu gpu =>
      exact ⟨Nat.lt_of_lt_of_le hsegment.1 hlen, Nat.lt_of_lt_of_le hsegment.2 hlen⟩
  | path maxBytes => exact hsegment
  | query maxBytes => exact hsegment
  | backend => trivial
  | requestBytes => trivial
  | pathHash => trivial

theorem gpuSegmentBytes_of_extends (h : strings <+: strings') {segment : CompiledSegment}
    (hsegment : SegmentStored strings segment) :
    gpuSegmentBytes strings' segment = gpuSegmentBytes strings segment := by
  cases segment with
  | literal stringId => exact congrArg List.length (getD_of_extends h hsegment)
  | backendVariant cpu gpu => exact congrArg List.length (getD_of_extends h hsegment.2)
  | path maxBytes => rfl
  | query maxBytes => rfl
  | backend => rfl
  | requestBytes => rfl
  | pathHash => rfl

/-- More strings leave a response as good as it was. -/
theorem GoodResponse.mono (h : strings <+: strings') {response : CompiledResponse}
    (hgood : GoodResponse strings response) : GoodResponse strings' response where
  status := hgood.status
  reason := by
    obtain ⟨text, hat, htext⟩ := hgood.reason
    exact ⟨text, getElem?_of_extends h hat, htext⟩
  contentType := by
    obtain ⟨text, hat, htext⟩ := hgood.contentType
    exact ⟨text, getElem?_of_extends h hat, htext⟩
  segments := fun segment hmem => (hgood.segments segment hmem).mono h
  gpuBytes := by
    rw [hgood.gpuBytes]
    congr 1
    refine List.map_congr_left fun segment hmem => ?_
    exact (gpuSegmentBytes_of_extends h (hgood.segments segment hmem)).symm

end Extension

/-- Interning keeps the strings and finds the new one under its id. -/
theorem intern_spec {strings strings' : StringTable} {value : Text} {id : UInt32}
    (h : strings.intern value = .ok (strings', id)) :
    strings.values <+: strings'.values ∧ strings'.values[id.toNat]? = some value := by
  unfold StringTable.intern at h
  split at h
  case h_1 id' hid =>
    cases h
    exact ⟨List.prefix_rfl, (strings.ids_iff value id).mp hid⟩
  case h_2 hnone =>
    split at h
    case isTrue hroom =>
      cases h
      refine ⟨List.prefix_append _ _, ?_⟩
      rw [UInt32.toNat_ofNat', Nat.mod_eq_of_lt hroom]
      exact List.getElem?_concat_length
    case isFalse => cases h

theorem validateHeaderValue_ok {label : String} {value : Text}
    (h : validateHeaderValue label value = .ok ()) : HeaderValue value := by
  obtain ⟨_, hne, h⟩ := Outcome.bind_eq_ok.mp h
  exact ⟨Outcome.ensure_eq_ok.mp hne, Outcome.ensure_eq_ok.mp h⟩

theorem validateStatus_ok {status : Status} (h : validateStatus status = .ok ()) :
    (100 ≤ status.code ∧ status.code ≤ 999) ∧ HeaderValue status.reason := by
  obtain ⟨_, hcode, h⟩ := Outcome.bind_eq_ok.mp h
  exact ⟨Outcome.ensure_eq_ok.mp hcode, validateHeaderValue_ok h⟩

theorem validateDynamicLimit_ok {label : String} {maxBytes result : Nat}
    (h : validateDynamicLimit label maxBytes = .ok result) :
    result = maxBytes ∧ maxBytes ≤ u32Max := by
  obtain ⟨_, hle, h⟩ := Outcome.bind_eq_ok.mp h
  exact ⟨(Outcome.ok.inj h).symm, Outcome.ensure_eq_ok.mp hle⟩

theorem checkedAdd_ok {current value result : Nat} {label : String}
    (h : checkedAdd current value label = .ok result) : result = current + value := by
  obtain ⟨_, -, h⟩ := Outcome.bind_eq_ok.mp h
  exact (Outcome.ok.inj h).symm

/-- What a path of a route looks like. -/
structure GoodPath (path : Text) : Prop where
  slash : path.head? = some 47
  no_mark : 63 ∉ path ∧ 35 ∉ path
  visible : ∀ byte ∈ path, isControl byte = false ∧ byte ≠ 32
  fits : path.length ≤ u32Max

theorem validateRoutePath_ok {path : Text} (h : validateRoutePath path = .ok ()) :
    GoodPath path := by
  obtain ⟨_, hslash, h⟩ := Outcome.bind_eq_ok.mp h
  obtain ⟨_, hmark, h⟩ := Outcome.bind_eq_ok.mp h
  obtain ⟨_, hvisible, h⟩ := Outcome.bind_eq_ok.mp h
  exact ⟨Outcome.ensure_eq_ok.mp hslash, Outcome.ensure_eq_ok.mp hmark,
    Outcome.ensure_eq_ok.mp hvisible, Outcome.ensure_eq_ok.mp h⟩

section Responses

variable {strings strings' : StringTable}

theorem compileSegment_spec {segment : BodySegment} {compiled : CompiledSegment}
    {gpuBytes cpuBytes : Nat}
    (h : compileSegment strings segment = .ok (strings', compiled, gpuBytes, cpuBytes)) :
    strings.values <+: strings'.values ∧ SegmentStored strings'.values compiled ∧
      gpuBytes = gpuSegmentBytes strings'.values compiled := by
  have stored {values : List Text} {id : UInt32} {value : Text}
      (hat : values[id.toNat]? = some value) :
      id.toNat < values.length ∧ value.length = (values.getD id.toNat []).length := by
    refine ⟨(List.getElem?_eq_some_iff.mp hat).1, ?_⟩
    rw [List.getD_eq_getElem?_getD, hat, Option.getD_some]
  cases segment with
  | literal value =>
      obtain ⟨⟨table, id⟩, hintern, h⟩ := Outcome.bind_eq_ok.mp h
      cases h
      obtain ⟨hextends, hat⟩ := intern_spec hintern
      exact ⟨hextends, (stored hat).1, (stored hat).2⟩
  | path maxBytes =>
      obtain ⟨limit, hlimit, h⟩ := Outcome.bind_eq_ok.mp h
      cases h
      obtain ⟨rfl, hle⟩ := validateDynamicLimit_ok hlimit
      exact ⟨List.prefix_rfl, hle, rfl⟩
  | query maxBytes =>
      obtain ⟨limit, hlimit, h⟩ := Outcome.bind_eq_ok.mp h
      cases h
      obtain ⟨rfl, hle⟩ := validateDynamicLimit_ok hlimit
      exact ⟨List.prefix_rfl, hle, rfl⟩
  | backend =>
      cases h
      exact ⟨List.prefix_rfl, trivial, rfl⟩
  | requestBytes =>
      cases h
      exact ⟨List.prefix_rfl, trivial, rfl⟩
  | pathHash =>
      cases h
      exact ⟨List.prefix_rfl, trivial, rfl⟩
  | backendVariant cpu gpu =>
      obtain ⟨⟨table, cpuId⟩, hcpu, h⟩ := Outcome.bind_eq_ok.mp h
      obtain ⟨⟨table', gpuId⟩, hgpu, h⟩ := Outcome.bind_eq_ok.mp h
      cases h
      obtain ⟨hextends, hcpuAt⟩ := intern_spec hcpu
      obtain ⟨hextends', hgpuAt⟩ := intern_spec hgpu
      exact ⟨hextends.trans hextends',
        ⟨(stored (getElem?_of_extends hextends' hcpuAt)).1, (stored hgpuAt).1⟩, (stored hgpuAt).2⟩

theorem compileSegments_spec {segments : List BodySegment}
    {gpuStart cpuStart gpuBytes cpuBytes : Nat}
    {compiled : List CompiledSegment}
    (h : compileSegments strings gpuStart cpuStart segments =
      .ok (strings', compiled, gpuBytes, cpuBytes)) :
    strings.values <+: strings'.values ∧
      (∀ segment ∈ compiled, SegmentStored strings'.values segment) ∧
      gpuBytes = gpuStart + (compiled.map (gpuSegmentBytes strings'.values)).sum := by
  induction segments generalizing strings gpuStart cpuStart compiled with
  | nil =>
      cases h
      exact ⟨List.prefix_rfl, fun segment hmem => absurd hmem List.not_mem_nil, rfl⟩
  | cons segment segments ih =>
      rw [compileSegments] at h
      obtain ⟨⟨table, first, firstGpu, firstCpu⟩, hfirst, h⟩ := Outcome.bind_eq_ok.mp h
      obtain ⟨gpuNext, hgpu, h⟩ := Outcome.bind_eq_ok.mp h
      obtain ⟨cpuNext, -, h⟩ := Outcome.bind_eq_ok.mp h
      obtain ⟨⟨table', later, gpuEnd, cpuEnd⟩, hlater, h⟩ := Outcome.bind_eq_ok.mp h
      cases h
      obtain ⟨hextends, hstored, hbytes⟩ := compileSegment_spec hfirst
      obtain ⟨hextends', hstored', hbytes'⟩ := ih hlater
      refine ⟨hextends.trans hextends', ?_, ?_⟩
      · intro segment hmem
        rcases List.mem_cons.mp hmem with rfl | hmem
        · exact hstored.mono hextends'
        · exact hstored' segment hmem
      · rw [hbytes', checkedAdd_ok hgpu, hbytes, List.map_cons, List.sum_cons,
          gpuSegmentBytes_of_extends hextends' hstored, Nat.add_assoc]

theorem compileResponse_spec {response : Response} {compiled : CompiledResponse}
    (h : compileResponse strings response = .ok (strings', compiled)) :
    strings.values <+: strings'.values ∧ GoodResponse strings'.values compiled := by
  obtain ⟨_, hstatus, h⟩ := Outcome.bind_eq_ok.mp h
  obtain ⟨_, hcontent, h⟩ := Outcome.bind_eq_ok.mp h
  obtain ⟨⟨table, reasonId⟩, hreason, h⟩ := Outcome.bind_eq_ok.mp h
  obtain ⟨⟨table', contentId⟩, hcontentId, h⟩ := Outcome.bind_eq_ok.mp h
  obtain ⟨⟨table'', segments, gpuBytes, cpuBytes⟩, hsegments, h⟩ := Outcome.bind_eq_ok.mp h
  cases h
  obtain ⟨hcode, hreasonValue⟩ := validateStatus_ok hstatus
  obtain ⟨hextends, hreasonAt⟩ := intern_spec hreason
  obtain ⟨hextends', hcontentAt⟩ := intern_spec hcontentId
  obtain ⟨hextends'', hstored, hbytes⟩ := compileSegments_spec hsegments
  refine ⟨(hextends.trans hextends').trans hextends'', hcode, ?_, ?_, hstored, ?_⟩
  · exact ⟨_, getElem?_of_extends (hextends'.trans hextends'') hreasonAt, hreasonValue⟩
  · exact ⟨_, getElem?_of_extends hextends'' hcontentAt, validateHeaderValue_ok hcontent⟩
  · rw [hbytes, Nat.zero_add]

end Responses

section Rendering

variable {router : CompiledRouter}

theorem string_eq {id : UInt32} {text : Text} (h : router.strings[id.toNat]? = some text) :
    router.string id = .ok text := by
  rw [CompiledRouter.string, h]
  rfl

theorem string_ok {id : UInt32} (h : id.toNat < router.strings.length) :
    ∃ text, router.string id = .ok text :=
  ⟨_, string_eq (List.getElem?_eq_getElem h)⟩

/-- The body of a stored program can be rendered. -/
theorem renderBody_ok {segments : List CompiledSegment}
    (h : ∀ segment ∈ segments, SegmentStored router.strings segment) (parts : RequestParts)
    (requestLen : Nat) (backend : Text) :
    ∃ body, router.renderBody parts requestLen backend segments = .ok body := by
  induction segments with
  | nil => exact ⟨[], rfl⟩
  | cons segment segments ih =>
      obtain ⟨later, hlater⟩ := ih fun other hmem => h other (List.mem_cons_of_mem _ hmem)
      have hstored := h segment List.mem_cons_self
      obtain ⟨bytes, hbytes⟩ :
          ∃ bytes, router.renderSegment parts requestLen backend segment = .ok bytes := by
        cases segment with
        | literal stringId => exact string_ok hstored
        | path maxBytes => exact ⟨_, rfl⟩
        | query maxBytes => exact ⟨_, rfl⟩
        | backend => exact ⟨_, rfl⟩
        | requestBytes => exact ⟨_, rfl⟩
        | pathHash => exact ⟨_, rfl⟩
        | backendVariant cpu gpu =>
            rw [CompiledRouter.renderSegment]
            split
            · exact string_ok hstored.2
            · exact string_ok hstored.1
      refine ⟨bytes ++ later, ?_⟩
      rw [CompiledRouter.renderBody, hbytes, Outcome.ok_bind, hlater]
      rfl

/-- A good response is rendered as a header and a body. -/
theorem renderResponse_eq {response : CompiledResponse}
    (h : GoodResponse router.strings response) (parts : RequestParts) (requestLen : Nat)
    (backend : Text) :
    ∃ reason contentType body, HeaderValue reason ∧ HeaderValue contentType ∧
      router.renderBody parts requestLen backend response.segments = .ok body ∧
      router.string response.reasonStringId = .ok reason ∧
      router.string response.contentTypeStringId = .ok contentType ∧
      router.renderResponse parts requestLen backend response =
        .ok (buildResponse response.status reason contentType body backend) := by
  obtain ⟨reason, hreasonAt, hreason⟩ := h.reason
  obtain ⟨contentType, hcontentAt, hcontent⟩ := h.contentType
  obtain ⟨body, hbody⟩ := renderBody_ok h.segments parts requestLen backend
  refine ⟨reason, contentType, body, hreason, hcontent, hbody, string_eq hreasonAt,
    string_eq hcontentAt, ?_⟩
  rw [CompiledRouter.renderResponse, hbody, Outcome.ok_bind, string_eq hreasonAt, Outcome.ok_bind,
    string_eq hcontentAt, Outcome.ok_bind]
  rfl

end Rendering

/-- The words at an offset are the descriptor and the program of a response. -/
def Emitted (words : List UInt32) (response : CompiledResponse) (offset : UInt32) : Prop :=
  ∃ program, emitProgram response.segments = .ok program ∧
    descriptor response offset.toNat ++ program <+: words.drop offset.toNat

/-- A response behind a position stays where it is while words are only appended
behind that position. -/
theorem Emitted.keep {words words' : List UInt32} {response : CompiledResponse} {offset : UInt32}
    (h : Emitted words response offset) (start : Nat) (hstart : start ≤ offset.toNat)
    (hwords : words.drop start <+: words'.drop start) : Emitted words' response offset := by
  obtain ⟨program, hprogram, hat⟩ := h
  refine ⟨program, hprogram, hat.trans ?_⟩
  have hdrop := hwords.drop (offset.toNat - start)
  rwa [List.drop_drop, List.drop_drop, Nat.add_sub_cancel' hstart] at hdrop

theorem emitResponse_spec {words words' : List UInt32} {response : CompiledResponse}
    {offset : UInt32} (h : emitResponse words response = .ok (words', offset)) :
    offset.toNat = words.length ∧ words <+: words' ∧ Emitted words' response offset := by
  obtain ⟨_, hfits, h⟩ := Outcome.bind_eq_ok.mp h
  obtain ⟨_, -, h⟩ := Outcome.bind_eq_ok.mp h
  obtain ⟨_, -, h⟩ := Outcome.bind_eq_ok.mp h
  obtain ⟨_, -, h⟩ := Outcome.bind_eq_ok.mp h
  obtain ⟨program, hprogram, h⟩ := Outcome.bind_eq_ok.mp h
  cases h
  have hlen : words.length ≤ u32Max := Outcome.ensure_eq_ok.mp hfits
  have hoffset : (UInt32.ofNat words.length).toNat = words.length := ofNat_toNat_of_fits hlen
  refine ⟨hoffset, ?_, program, hprogram, ?_⟩
  · rw [List.append_assoc]
    exact List.prefix_append _ _
  · rw [hoffset, List.append_assoc, List.drop_left]

/-- An entry of a route table of `tableWords` words. -/
structure RouteEntry (tableWords : Nat) (words : List UInt32) (strings : List Text)
    (route : CompiledRoute) (base : Nat) : Prop where
  hash : words[base]? = some route.pathHash
  len : words[base + 1]? = some (UInt32.ofNat route.path.length)
  string : ∃ id, words[base + 2]? = some id ∧ strings[id.toNat]? = some route.path
  response : ∃ offset, words[base + 3]? = some offset ∧ tableWords ≤ offset.toNat ∧
    Emitted words route.response offset

/-- An entry stays while its four words do and the responses are only appended to. -/
theorem RouteEntry.keep {tableWords base : Nat} {words words' : List UInt32}
    {strings strings' : List Text} {route : CompiledRoute}
    (h : RouteEntry tableWords words strings route base) (hstrings : strings <+: strings')
    (hentry : ∀ k, base ≤ k → k ≤ base + 3 → words'[k]? = words[k]?)
    (hwords : words.drop tableWords <+: words'.drop tableWords) :
    RouteEntry tableWords words' strings' route base where
  hash := (hentry base (by omega) (by omega)).trans h.hash
  len := (hentry (base + 1) (by omega) (by omega)).trans h.len
  string := by
    obtain ⟨id, hid, hpath⟩ := h.string
    exact ⟨id, (hentry (base + 2) (by omega) (by omega)).trans hid,
      getElem?_of_extends hstrings hpath⟩
  response := by
    obtain ⟨offset, hoffset, hbehind, hemitted⟩ := h.response
    exact ⟨offset, (hentry (base + 3) (by omega) (by omega)).trans hoffset, hbehind,
      hemitted.keep tableWords hbehind hwords⟩

theorem storeWord_spec {words words' : List UInt32} {index : Nat} {word : UInt32}
    (h : storeWord words index word = .ok words') :
    index < words.length ∧ words' = words.set index word := by
  unfold storeWord at h
  split at h
  case isTrue hlt => exact ⟨hlt, (Outcome.ok.inj h).symm⟩
  case isFalse => cases h

/-- Lists that agree from a position on have the same rest there. -/
theorem drop_eq_of_getElem? {words words' : List UInt32} (start : Nat)
    (h : ∀ k, start ≤ k → words'[k]? = words[k]?) : words'.drop start = words.drop start := by
  apply List.ext_getElem?
  intro k
  rw [List.getElem?_drop, List.getElem?_drop, h (start + k) (Nat.le_add_right _ _)]

/-- One round of the loop: a response is appended, and only its entry is written. -/
theorem emitRoutes_cons (tableWords : Nat) {strings : StringTable} {words : List UInt32}
    {routeIndex : Nat} {route : CompiledRoute} {routes : List CompiledRoute}
    {result : StringTable × List UInt32}
    (h : emitRoutes strings words routeIndex (route :: routes) = .ok result)
    (hbase : routeIndex * routeStrideWords + 3 < tableWords) (hroom : tableWords ≤ words.length) :
    ∃ table stored, emitRoutes table stored (routeIndex + 1) routes = .ok result ∧
      strings.values <+: table.values ∧ tableWords ≤ stored.length ∧
      (∀ k, k < routeIndex * routeStrideWords → stored[k]? = words[k]?) ∧
      words.drop tableWords <+: stored.drop tableWords ∧
      RouteEntry tableWords stored table.values route (routeIndex * routeStrideWords) := by
  rw [emitRoutes] at h
  obtain ⟨⟨emitted, offset⟩, hemit, h⟩ := Outcome.bind_eq_ok.mp h
  obtain ⟨⟨table, pathId⟩, hintern, h⟩ := Outcome.bind_eq_ok.mp h
  obtain ⟨words0, hstore0, h⟩ := Outcome.bind_eq_ok.mp h
  obtain ⟨_, -, h⟩ := Outcome.bind_eq_ok.mp h
  obtain ⟨words1, hstore1, h⟩ := Outcome.bind_eq_ok.mp h
  obtain ⟨words2, hstore2, h⟩ := Outcome.bind_eq_ok.mp h
  obtain ⟨words3, hstore3, h⟩ := Outcome.bind_eq_ok.mp h
  obtain ⟨hoffset, hextends, hemitted⟩ := emitResponse_spec hemit
  obtain ⟨hstrings, hpathId⟩ := intern_spec hintern
  have hlen := hextends.length_le
  generalize routeIndex * routeStrideWords = base at *
  obtain ⟨-, rfl⟩ := storeWord_spec hstore0
  obtain ⟨-, rfl⟩ := storeWord_spec hstore1
  obtain ⟨-, rfl⟩ := storeWord_spec hstore2
  obtain ⟨-, rfl⟩ := storeWord_spec hstore3
  -- the four stores touch four neighbouring words of the table
  have hothers : ∀ k, k < base ∨ base + 3 < k →
      ((((emitted.set base route.pathHash).set (base + 1) (UInt32.ofNat route.path.length)).set
        (base + 2) pathId).set (base + 3) offset)[k]? = emitted[k]? := by
    intro k hk
    rw [List.getElem?_set_ne (by omega), List.getElem?_set_ne (by omega),
      List.getElem?_set_ne (by omega), List.getElem?_set_ne (by omega)]
  have hdrop := drop_eq_of_getElem? tableWords fun k hk => hothers k (by omega)
  refine ⟨table, _, h, hstrings, ?_, ?_, ?_, ?_⟩
  · simp only [List.length_set]
    omega
  · intro k hk
    rw [hothers k (Or.inl hk)]
    obtain ⟨more, rfl⟩ := hextends
    rw [List.getElem?_append_left (by omega)]
  · rw [hdrop]
    exact hextends.drop tableWords
  · refine ⟨?_, ?_, ⟨pathId, ?_, hpathId⟩, offset, ?_, by omega, ?_⟩
    · simp [show base < emitted.length by omega]
    · simp [show base + 1 < emitted.length by omega]
    · simp [show base + 2 < emitted.length by omega]
    · simp [show base + 3 < emitted.length by omega]
    · refine hemitted.keep tableWords (by omega) ?_
      rw [hdrop]

/-- What the emission of routes leaves behind: a table in front, and the
responses behind it. -/
theorem emitRoutes_spec {tableWords : Nat} {routes : List CompiledRoute} :
    ∀ {strings strings' : StringTable} {words words' : List UInt32} {routeIndex : Nat},
      emitRoutes strings words routeIndex routes = .ok (strings', words') →
      (routeIndex + routes.length) * routeStrideWords = tableWords →
      tableWords ≤ words.length →
      strings.values <+: strings'.values ∧ tableWords ≤ words'.length ∧
        (∀ k, k < routeIndex * routeStrideWords → words'[k]? = words[k]?) ∧
        words.drop tableWords <+: words'.drop tableWords ∧
        ∀ (j : Nat) (route : CompiledRoute), routes[j]? = some route →
          RouteEntry tableWords words' strings'.values route
            ((routeIndex + j) * routeStrideWords) := by
  induction routes with
  | nil =>
      intro strings strings' words words' routeIndex h htable hroom
      cases h
      exact ⟨List.prefix_rfl, hroom, fun _ _ => rfl, List.prefix_rfl, fun j route hj => by cases hj⟩
  | cons route routes ih =>
      intro strings strings' words words' routeIndex h htable hroom
      have hstride : routeStrideWords = 4 := rfl
      rw [List.length_cons] at htable
      obtain ⟨table, stored, hrest, hstrings, hroom', hbefore, hbehind, hentry⟩ :=
        emitRoutes_cons tableWords h (by rw [hstride] at htable ⊢; omega) hroom
      obtain ⟨hstrings', hlength, hbefore', hbehind', hentries⟩ :=
        ih hrest (by rw [← htable]; congr 1; omega) hroom'
      refine ⟨hstrings.trans hstrings', hlength, ?_, hbehind.trans hbehind', ?_⟩
      · intro k hk
        rw [hbefore' k (by rw [hstride] at hk ⊢; omega), hbefore k hk]
      · intro j later hj
        cases j with
        | zero =>
            cases hj
            refine hentry.keep hstrings' (fun k hlow hhigh => ?_) hbehind'
            exact hbefore' k (by rw [hstride] at hhigh ⊢; omega)
        | succ j =>
            have hlater := hentries j later hj
            rwa [Nat.add_assoc, Nat.add_comm 1 j] at hlater

/-- The strings every table starts with. -/
structure GoodIds (strings : List Text) (ids : ShaderStringIds) : Prop where
  httpVersion : strings[ids.httpVersion.toNat]? = some (ascii "HTTP/1.1 ")
  headerContentType : strings[ids.headerContentType.toNat]? = some (ascii "\r\nContent-Type: ")
  headerContentLength :
    strings[ids.headerContentLength.toNat]? = some (ascii "\r\nContent-Length: ")
  headerTail : strings[ids.headerTail.toNat]? =
    some (ascii "\r\nConnection: close\r\nServer: gput\r\nX-Gput-Backend: gpu\r\n\r\n")
  backendGpu : strings[ids.backendGpu.toNat]? = some (ascii "gpu")

theorem GoodIds.mono {strings strings' : List Text} {ids : ShaderStringIds}
    (h : GoodIds strings ids) (hextends : strings <+: strings') : GoodIds strings' ids where
  httpVersion := getElem?_of_extends hextends h.httpVersion
  headerContentType := getElem?_of_extends hextends h.headerContentType
  headerContentLength := getElem?_of_extends hextends h.headerContentLength
  headerTail := getElem?_of_extends hextends h.headerTail
  backendGpu := getElem?_of_extends hextends h.backendGpu

theorem newCompiler_spec {strings : StringTable} {ids : ShaderStringIds}
    (h : newCompiler = .ok (strings, ids)) : GoodIds strings.values ids := by
  obtain ⟨⟨table1, id1⟩, h1, h⟩ := Outcome.bind_eq_ok.mp h
  obtain ⟨⟨table2, id2⟩, h2, h⟩ := Outcome.bind_eq_ok.mp h
  obtain ⟨⟨table3, id3⟩, h3, h⟩ := Outcome.bind_eq_ok.mp h
  obtain ⟨⟨table4, id4⟩, h4, h⟩ := Outcome.bind_eq_ok.mp h
  obtain ⟨⟨table5, id5⟩, h5, h⟩ := Outcome.bind_eq_ok.mp h
  cases h
  obtain ⟨-, hat1⟩ := intern_spec h1
  obtain ⟨hextends2, hat2⟩ := intern_spec h2
  obtain ⟨hextends3, hat3⟩ := intern_spec h3
  obtain ⟨hextends4, hat4⟩ := intern_spec h4
  obtain ⟨hextends5, hat5⟩ := intern_spec h5
  have hextends4' := hextends4.trans hextends5
  have hextends3' := hextends3.trans hextends4'
  have hextends2' := hextends2.trans hextends3'
  exact ⟨getElem?_of_extends hextends2' hat1, getElem?_of_extends hextends3' hat2,
    getElem?_of_extends hextends4' hat3, getElem?_of_extends hextends5 hat4, hat5⟩

/-- A compiled route over a list of strings. -/
structure GoodRoute (strings : List Text) (route : CompiledRoute) : Prop where
  path : GoodPath route.path
  hash : route.pathHash = fnv1a route.path
  response : GoodResponse strings route.response

theorem compileRoutes_spec {routes : List RouteDefinition} :
    ∀ {strings strings' : StringTable} {seenPaths : List Text} {compiled : List CompiledRoute},
      compileRoutes strings seenPaths routes = .ok (strings', compiled) →
      strings.values <+: strings'.values ∧
        ∀ route ∈ compiled, GoodRoute strings'.values route := by
  induction routes with
  | nil =>
      intro strings strings' seenPaths compiled h
      cases h
      exact ⟨List.prefix_rfl, fun route hmem => absurd hmem List.not_mem_nil⟩
  | cons route routes ih =>
      intro strings strings' seenPaths compiled h
      rw [compileRoutes] at h
      obtain ⟨_, hpath, h⟩ := Outcome.bind_eq_ok.mp h
      obtain ⟨_, -, h⟩ := Outcome.bind_eq_ok.mp h
      obtain ⟨⟨table, response⟩, hresponse, h⟩ := Outcome.bind_eq_ok.mp h
      obtain ⟨⟨table', later⟩, hlater, h⟩ := Outcome.bind_eq_ok.mp h
      cases h
      obtain ⟨hextends, hgood⟩ := compileResponse_spec hresponse
      obtain ⟨hextends', hroutes⟩ := ih hlater
      refine ⟨hextends.trans hextends', fun compiledRoute hmem => ?_⟩
      rcases List.mem_cons.mp hmem with rfl | hmem
      · exact ⟨validateRoutePath_ok hpath, rfl, hgood.mono hextends'⟩
      · exact hroutes compiledRoute hmem

/-- The routes are sorted by their hash. -/
theorem pairwise_mergeSort_routeLe (routes : List CompiledRoute) :
    (routes.mergeSort routeLe).Pairwise (fun left right => left.pathHash ≤ right.pathHash) := by
  have hle {left right : CompiledRoute} : routeLe left right = true ↔
      left.pathHash < right.pathHash ∨
        (left.pathHash = right.pathHash ∧ left.path ≤ right.path) := decide_eq_true_iff
  have htrans (a b c : CompiledRoute) (hab : routeLe a b = true) (hbc : routeLe b c = true) :
      routeLe a c = true := by
    rw [hle] at hab hbc ⊢
    rcases hab with hab | ⟨hab, hpath⟩ <;> rcases hbc with hbc | ⟨hbc, hpath'⟩
    · exact Or.inl (UInt32.lt_trans hab hbc)
    · exact Or.inl (hbc ▸ hab)
    · exact Or.inl (hab ▸ hbc)
    · exact Or.inr ⟨hab.trans hbc, List.le_trans hpath hpath'⟩
  have htotal (a b : CompiledRoute) : (routeLe a b || routeLe b a) = true := by
    rw [Bool.or_eq_true, hle, hle]
    rcases Nat.lt_trichotomy a.pathHash.toNat b.pathHash.toNat with hlt | heq | hgt
    · exact Or.inl (Or.inl (UInt32.lt_iff_toNat_lt.mpr hlt))
    · have hhash := UInt32.toNat_inj.mp heq
      rcases List.le_total a.path b.path with hpath | hpath
      · exact Or.inl (Or.inr ⟨hhash, hpath⟩)
      · exact Or.inr (Or.inr ⟨hhash.symm, hpath⟩)
    · exact Or.inr (Or.inl (UInt32.lt_iff_toNat_lt.mpr hgt))
  refine (List.pairwise_mergeSort htrans htotal routes).imp fun h => ?_
  rcases hle.mp h with hlt | ⟨heq, -⟩
  · exact UInt32.le_of_lt hlt
  · exact UInt32.le_of_eq heq

/-- The bytes of a header with given texts and decimal widths. -/
def maximumBytes (reason contentType : Text) (response : CompiledResponse) : Nat :=
  9 + decimalDigits response.status.toNat + 1 + reason.length + 16 + contentType.length + 18 +
    decimalDigits response.maxGpuBodyBytes + 58 + response.maxGpuBodyBytes

theorem maximumResponseBytes_spec {strings : StringTable} {ids : ShaderStringIds}
    (hids : GoodIds strings.values ids) {response : CompiledResponse} {bytes : Nat}
    (h : maximumResponseBytes strings ids response = .ok bytes) :
    ∃ reason contentType, strings.values[response.reasonStringId.toNat]? = some reason ∧
      strings.values[response.contentTypeStringId.toNat]? = some contentType ∧
      bytes = maximumBytes reason contentType response := by
  have got {id : UInt32} {text : Text} (h : strings.get id = .ok text) :
      strings.values[id.toNat]? = some text := by
    unfold StringTable.get at h
    cases hat : strings.values[id.toNat]? with
    | none =>
        rw [hat] at h
        cases h
    | some found =>
        rw [hat] at h
        cases h
        rfl
  obtain ⟨httpVersion, hversion, h⟩ := Outcome.bind_eq_ok.mp h
  obtain ⟨reason, hreason, h⟩ := Outcome.bind_eq_ok.mp h
  obtain ⟨headerContentType, htype, h⟩ := Outcome.bind_eq_ok.mp h
  obtain ⟨contentType, hcontent, h⟩ := Outcome.bind_eq_ok.mp h
  obtain ⟨headerContentLength, hlength, h⟩ := Outcome.bind_eq_ok.mp h
  obtain ⟨headerTail, htail, h⟩ := Outcome.bind_eq_ok.mp h
  obtain ⟨_, -, h⟩ := Outcome.bind_eq_ok.mp h
  obtain ⟨_, -, h⟩ := Outcome.bind_eq_ok.mp h
  refine ⟨reason, contentType, got hreason, got hcontent, ?_⟩
  have hv := got hversion
  have ht := got htype
  have hl := got hlength
  have htl := got htail
  rw [hids.httpVersion] at hv
  rw [hids.headerContentType] at ht
  rw [hids.headerContentLength] at hl
  rw [hids.headerTail] at htl
  cases hv
  cases ht
  cases hl
  cases htl
  exact (Outcome.ok.inj h).symm

theorem maximumOver_spec {strings : StringTable} {ids : ShaderStringIds}
    {responses : List CompiledResponse} :
    ∀ {current largest : Nat}, maximumOver strings ids current responses = .ok largest →
      current ≤ largest ∧ ∀ response ∈ responses,
        ∃ bytes, maximumResponseBytes strings ids response = .ok bytes ∧ bytes ≤ largest := by
  induction responses with
  | nil =>
      intro current largest h
      cases h
      exact ⟨le_refl _, fun response hmem => absurd hmem List.not_mem_nil⟩
  | cons response responses ih =>
      intro current largest h
      obtain ⟨next, hnext, h⟩ := Outcome.bind_eq_ok.mp h
      obtain ⟨hle, hrest⟩ := ih h
      refine ⟨Nat.le_trans (Nat.le_max_left _ _) hle, fun other hmem => ?_⟩
      rcases List.mem_cons.mp hmem with rfl | hmem
      · exact ⟨next, hnext, Nat.le_trans (Nat.le_max_right _ _) hle⟩
      · exact hrest other hmem

/-- The intermediate results of a compilation. -/
structure Stages (router : Router) (compiled : CompiledRouter) where
  ids : ShaderStringIds
  (table0 table1 table2 table3 table4 table5 : StringTable)
  routes : List CompiledRoute
  (fallback badRequest methodNotAllowed : CompiledResponse)
  (words1 words2 words3 words4 : List UInt32)
  (fallbackOffset badOffset methodOffset : UInt32)
  largest : Nat
  new : newCompiler = .ok (table0, ids)
  compileRoutes : compileRoutes table0 [] router.routes = .ok (table1, routes)
  compileFallback : compileResponse table1 router.fallback = .ok (table2, fallback)
  compileBad : compileResponse table2 router.badRequest = .ok (table3, badRequest)
  compileMethod : compileResponse table3 router.methodNotAllowed = .ok (table4, methodNotAllowed)
  emitRoutes : emitRoutes table4
    (List.replicate ((routes.mergeSort routeLe).length * routeStrideWords) 0) 0
      (routes.mergeSort routeLe) = .ok (table5, words1)
  emitFallback : emitResponse words1 fallback = .ok (words2, fallbackOffset)
  emitBad : emitResponse words2 badRequest = .ok (words3, badOffset)
  emitMethod : emitResponse words3 methodNotAllowed = .ok (words4, methodOffset)
  maximum : maximumOver table5 ids 0 ((routes.mergeSort routeLe).map CompiledRoute.response ++
    [fallback, badRequest, methodNotAllowed]) = .ok largest
  largest_fits : largest ≤ u32Max
  words_fit : words4.length ≤ u32Max
  count : (routes.mergeSort routeLe).length ≤ u32Max
  result : compiled =
    { routes := routes.mergeSort routeLe
      fallback := fallback
      badRequest := badRequest
      methodNotAllowed := methodNotAllowed
      strings := table5.values
      routerWords := words4
      gpuLayout :=
        { routeCount := UInt32.ofNat (routes.mergeSort routeLe).length
          fallbackResponseOffset := fallbackOffset
          badRequestResponseOffset := badOffset
          methodNotAllowedResponseOffset := methodOffset }
      shaderStringIds := ids
      maxGpuResponseBytes := largest }

theorem compile_stages {router : Router} {compiled : CompiledRouter}
    (h : compile router = .ok compiled) : Nonempty (Stages router compiled) := by
  obtain ⟨⟨table0, ids⟩, hnew, h⟩ := Outcome.bind_eq_ok.mp h
  obtain ⟨_, -, h⟩ := Outcome.bind_eq_ok.mp h
  obtain ⟨⟨table1, routes⟩, hroutes, h⟩ := Outcome.bind_eq_ok.mp h
  obtain ⟨⟨table2, fallback⟩, hfallback, h⟩ := Outcome.bind_eq_ok.mp h
  obtain ⟨⟨table3, badRequest⟩, hbad, h⟩ := Outcome.bind_eq_ok.mp h
  obtain ⟨⟨table4, methodNotAllowed⟩, hmethod, h⟩ := Outcome.bind_eq_ok.mp h
  obtain ⟨_, -, h⟩ := Outcome.bind_eq_ok.mp h
  obtain ⟨⟨table5, words1⟩, hemitRoutes, h⟩ := Outcome.bind_eq_ok.mp h
  obtain ⟨⟨words2, fallbackOffset⟩, hemitFallback, h⟩ := Outcome.bind_eq_ok.mp h
  obtain ⟨⟨words3, badOffset⟩, hemitBad, h⟩ := Outcome.bind_eq_ok.mp h
  obtain ⟨⟨words4, methodOffset⟩, hemitMethod, h⟩ := Outcome.bind_eq_ok.mp h
  obtain ⟨largest, hlargest, h⟩ := Outcome.bind_eq_ok.mp h
  obtain ⟨_, hlargestFits, h⟩ := Outcome.bind_eq_ok.mp h
  obtain ⟨_, hwordsFit, h⟩ := Outcome.bind_eq_ok.mp h
  obtain ⟨_, hcount, h⟩ := Outcome.bind_eq_ok.mp h
  exact ⟨⟨ids, table0, table1, table2, table3, table4, table5, routes, fallback, badRequest,
    methodNotAllowed, words1, words2, words3, words4, fallbackOffset, badOffset, methodOffset,
    largest, hnew, hroutes, hfallback, hbad, hmethod, hemitRoutes, hemitFallback, hemitBad,
    hemitMethod, hlargest, Outcome.ensure_eq_ok.mp hlargestFits, Outcome.ensure_eq_ok.mp hwordsFit,
    Outcome.ensure_eq_ok.mp hcount, (Outcome.ok.inj h).symm⟩⟩

/-- What every compiled router satisfies. -/
structure IsCompiled (router : CompiledRouter) : Prop where
  ids : GoodIds router.strings router.shaderStringIds
  responses : ∀ response ∈ router.responses, GoodResponse router.strings response
  routes : ∀ route ∈ router.routes, GoodRoute router.strings route
  sorted : router.routes.Pairwise (fun left right => left.pathHash ≤ right.pathHash)
  entries : ∀ (i : Nat) (route : CompiledRoute), router.routes[i]? = some route →
    RouteEntry (router.routes.length * routeStrideWords) router.routerWords router.strings route
      (i * routeStrideWords)
  fallback : Emitted router.routerWords router.fallback router.gpuLayout.fallbackResponseOffset
  badRequest : Emitted router.routerWords router.badRequest
    router.gpuLayout.badRequestResponseOffset
  methodNotAllowed : Emitted router.routerWords router.methodNotAllowed
    router.gpuLayout.methodNotAllowedResponseOffset
  largest : ∀ response ∈ router.responses, ∃ reason contentType,
    router.strings[response.reasonStringId.toNat]? = some reason ∧
      router.strings[response.contentTypeStringId.toNat]? = some contentType ∧
      maximumBytes reason contentType response ≤ router.maxGpuResponseBytes
  largest_fits : router.maxGpuResponseBytes ≤ u32Max
  words_fit : router.routerWords.length ≤ u32Max
  count : router.gpuLayout.routeCount.toNat = router.routes.length

/-- Compilation guarantees it. -/
theorem isCompiled_compile {router : Router} {compiled : CompiledRouter}
    (h : compile router = .ok compiled) : IsCompiled compiled := by
  obtain ⟨⟨ids, table0, table1, table2, table3, table4, table5, routes, fallback, badRequest,
    methodNotAllowed, words1, words2, words3, words4, fallbackOffset, badOffset, methodOffset,
    largest, hnew, hroutes, hfallback, hbad, hmethod, hemitRoutes, hemitFallback, hemitBad,
    hemitMethod, hlargest, hlargestFits, hwordsFit, hcount, rfl⟩⟩ := compile_stages h
  have hsorted := pairwise_mergeSort_routeLe routes
  have hmemSorted : ∀ route, route ∈ routes.mergeSort routeLe ↔ route ∈ routes := fun route =>
    (List.mergeSort_perm routes routeLe).mem_iff
  generalize routes.mergeSort routeLe = sorted at *
  obtain ⟨hextends1, hgoodRoutes⟩ := compileRoutes_spec hroutes
  obtain ⟨hextends2, hgoodFallback⟩ := compileResponse_spec hfallback
  obtain ⟨hextends3, hgoodBad⟩ := compileResponse_spec hbad
  obtain ⟨hextends4, hgoodMethod⟩ := compileResponse_spec hmethod
  obtain ⟨hextends5, hroom, -, -, hentries⟩ :=
    emitRoutes_spec hemitRoutes (by rw [Nat.zero_add]) (by rw [List.length_replicate])
  obtain ⟨hoffset2, hwords2, hemitted2⟩ := emitResponse_spec hemitFallback
  obtain ⟨hoffset3, hwords3, hemitted3⟩ := emitResponse_spec hemitBad
  obtain ⟨hoffset4, hwords4, hemitted4⟩ := emitResponse_spec hemitMethod
  have hfromMethod := hextends5
  have hfromBad := hextends4.trans hfromMethod
  have hfromFallback := hextends3.trans hfromBad
  have hfromRoutes := hextends2.trans hfromFallback
  have hids := (newCompiler_spec hnew).mono (hextends1.trans hfromRoutes)
  have hresponses : ∀ response ∈
      sorted.map CompiledRoute.response ++ [fallback, badRequest, methodNotAllowed],
      GoodResponse table5.values response := by
    intro response hmem
    rcases List.mem_append.mp hmem with hmem | hmem
    · obtain ⟨route, hroute, rfl⟩ := List.mem_map.mp hmem
      exact (hgoodRoutes route ((hmemSorted route).mp hroute)).response.mono hfromRoutes
    · simp only [List.mem_cons, List.not_mem_nil, or_false] at hmem
      rcases hmem with rfl | rfl | rfl
      · exact hgoodFallback.mono hfromFallback
      · exact hgoodBad.mono hfromBad
      · exact hgoodMethod.mono hfromMethod
  exact
    { ids := hids
      responses := hresponses
      routes := fun route hroute => by
        have hgood := hgoodRoutes route ((hmemSorted route).mp hroute)
        exact ⟨hgood.path, hgood.hash, hgood.response.mono hfromRoutes⟩
      sorted := hsorted
      entries := fun i route hi => by
        have hentry := hentries i route hi
        rw [Nat.zero_add] at hentry
        have hat : ∀ k, i * routeStrideWords ≤ k → k ≤ i * routeStrideWords + 3 →
            words4[k]? = words1[k]? := by
          intro k _ hk
          have hlt : i < sorted.length := (List.getElem?_eq_some_iff.mp hi).1
          have hstride : routeStrideWords = 4 := rfl
          obtain ⟨more, rfl⟩ := (hwords2.trans hwords3).trans hwords4
          rw [List.getElem?_append_left (by rw [hstride] at hk hroom; omega)]
        exact hentry.keep List.prefix_rfl hat (((hwords2.trans hwords3).trans hwords4).drop _)
      fallback := hemitted2.keep 0 (Nat.zero_le _) (hwords3.trans hwords4)
      badRequest := hemitted3.keep 0 (Nat.zero_le _) hwords4
      methodNotAllowed := hemitted4
      largest := fun response hmem => by
        obtain ⟨bytes, hbytes, hle⟩ := (maximumOver_spec hlargest).2 response hmem
        obtain ⟨reason, contentType, hreason, hcontent, rfl⟩ :=
          maximumResponseBytes_spec hids hbytes
        exact ⟨reason, contentType, hreason, hcontent, hle⟩
      largest_fits := hlargestFits
      words_fit := hwordsFit
      count := ofNat_toNat_of_fits hcount }

/-- A response takes the words behind its offset. -/
theorem Emitted.offset_lt {words : List UInt32} {response : CompiledResponse} {offset : UInt32}
    (h : Emitted words response offset) : offset.toNat + responseDescriptorWords ≤ words.length := by
  obtain ⟨program, -, hextends⟩ := h
  have hle := hextends.length_le
  have hdescriptor : (descriptor response offset.toNat).length = responseDescriptorWords := rfl
  have hpos : 0 < responseDescriptorWords := by decide
  rw [List.length_append, List.length_drop, hdescriptor] at hle
  omega

/-- The responses without a route are emitted behind those of the routes. -/
theorem compile_offsets {router : Router} {compiled : CompiledRouter}
    (h : compile router = .ok compiled) :
    (∀ (i : Nat) (route : CompiledRoute) (offset : UInt32), compiled.routes[i]? = some route →
      compiled.routerWords[i * routeStrideWords + 3]? = some offset →
      offset < compiled.gpuLayout.fallbackResponseOffset) ∧
    compiled.gpuLayout.fallbackResponseOffset < compiled.gpuLayout.badRequestResponseOffset ∧
    compiled.gpuLayout.badRequestResponseOffset <
      compiled.gpuLayout.methodNotAllowedResponseOffset := by
  obtain ⟨⟨ids, table0, table1, table2, table3, table4, table5, routes, fallback, badRequest,
    methodNotAllowed, words1, words2, words3, words4, fallbackOffset, badOffset, methodOffset,
    largest, -, -, -, -, -, hemitRoutes, hemitFallback, hemitBad, hemitMethod, -, -, -, -, rfl⟩⟩ :=
    compile_stages h
  simp only at *
  obtain ⟨-, hroom, -, -, hentries⟩ :=
    emitRoutes_spec hemitRoutes (by rw [Nat.zero_add]) (by rw [List.length_replicate])
  obtain ⟨hoffset2, hwords2, hemitted2⟩ := emitResponse_spec hemitFallback
  obtain ⟨hoffset3, hwords3, hemitted3⟩ := emitResponse_spec hemitBad
  obtain ⟨hoffset4, hwords4, -⟩ := emitResponse_spec hemitMethod
  have hdescriptor : 0 < responseDescriptorWords := by decide
  have hlt2 := hemitted2.offset_lt
  have hlt3 := hemitted3.offset_lt
  simp only [UInt32.lt_iff_toNat_lt]
  refine ⟨fun i route offset hroute hoffset => ?_, by omega, by omega⟩
  obtain ⟨found, hfound, -, hemitted⟩ := (hentries i route hroute).response
  rw [Nat.zero_add] at hfound
  have hlt := (List.getElem?_eq_some_iff.mp hfound).1
  obtain ⟨more, rfl⟩ := (hwords2.trans hwords3).trans hwords4
  rw [List.getElem?_append_left hlt, hfound] at hoffset
  cases hoffset
  have := hemitted.offset_lt
  omega

end Http
end Gput
