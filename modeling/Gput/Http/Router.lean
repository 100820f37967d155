import Gput.Library.Outcome
import Gput.Library.AsciiText
import Gput.Http.Response

/-!
# Routers and their compilation

The router a program declares, and `RouterCompiler::compile`: the strings are
interned into one table, the routes are sorted by the hash of their path, and
every response is emitted as a descriptor and a body program into one list of
words.
-/

namespace Gput
namespace Http

open ByteString AsciiText Decimal

/-- A string, as the bytes it stores. -/
abbrev Text : Type := List UInt8

def u32Max : Nat := 0xffffffff

/-- A number that passed `u32::try_from` is kept by the conversion. -/
theorem ofNat_toNat_of_fits {n : Nat} (h : n ≤ u32Max) : (UInt32.ofNat n).toNat = n := by
  unfold u32Max at h
  rw [UInt32.toNat_ofNat']
  omega

/-- `char::escape_debug` in a string.  Beyond ASCII, where it asks for the tables of
Unicode, every character stands for itself. -/
def escapeDebug (c : Char) : String :=
  match c.toNat with
  | 0 => "\\0"
  | 9 => "\\t"
  | 10 => "\\n"
  | 13 => "\\r"
  | 34 => "\\\""
  | 92 => "\\\\"
  | n =>
      if n < 32 ∨ n = 127 then "\\u\x7b" ++ String.ofList (Nat.toDigits 16 n) ++ "\x7d"
      else c.toString

/-- `{:?}` of a string, whose bytes are UTF-8. -/
def debugText (text : Text) : String :=
  let characters := ((String.fromUTF8? ⟨text.toArray⟩).map String.toList).getD []
  "\"" ++ String.join (characters.map escapeDebug) ++ "\""

structure Status where
  code : UInt16
  reason : Text
deriving DecidableEq

namespace Status

def ok : Status := ⟨200, ascii "OK"⟩
def badRequest : Status := ⟨400, ascii "Bad Request"⟩
def notFound : Status := ⟨404, ascii "Not Found"⟩
def methodNotAllowed : Status := ⟨405, ascii "Method Not Allowed"⟩

end Status

inductive BodySegment where
  | literal (value : Text)
  | path (maxBytes : Nat)
  | query (maxBytes : Nat)
  | backend
  | requestBytes
  | pathHash
  | backendVariant (cpu gpu : Text)
deriving DecidableEq

structure Body where
  segments : List BodySegment
deriving DecidableEq

namespace Body

/-- `Body::new`. -/
def new : Body := ⟨[]⟩

/-- `Body::literal`: a literal is joined with one before it. -/
def literal (body : Body) (value : Text) : Body :=
  if value = [] then body
  else
    match body.segments.getLast? with
    | some (.literal previous) =>
        ⟨body.segments.dropLast ++ [.literal (previous ++ value)]⟩
    | _ => ⟨body.segments ++ [.literal value]⟩

def push (body : Body) (value : Text) : Body :=
  body.literal value

def path (body : Body) (maxBytes : Nat) : Body :=
  if maxBytes ≠ 0 then ⟨body.segments ++ [.path maxBytes]⟩ else body

def query (body : Body) (maxBytes : Nat) : Body :=
  if maxBytes ≠ 0 then ⟨body.segments ++ [.query maxBytes]⟩ else body

def backend (body : Body) : Body :=
  ⟨body.segments ++ [.backend]⟩

def requestBytes (body : Body) : Body :=
  ⟨body.segments ++ [.requestBytes]⟩

def pathHash (body : Body) : Body :=
  ⟨body.segments ++ [.pathHash]⟩

def backendVariant (body : Body) (cpu gpu : Text) : Body :=
  if cpu = gpu then body.literal cpu else ⟨body.segments ++ [.backendVariant cpu gpu]⟩

end Body

structure Response where
  status : Status
  contentType : Text
  body : Body
deriving DecidableEq

/-- `Response::text`. -/
def Response.text (body : Body) : Response :=
  { status := Status.ok, contentType := textContentType, body := body }

structure RouteDefinition where
  path : Text
  response : Response
deriving DecidableEq

structure Router where
  routes : List RouteDefinition
  fallback : Response
  badRequest : Response
  methodNotAllowed : Response
deriving DecidableEq

namespace Router

/-- `Router::new`. -/
def new : Router where
  routes := []
  fallback :=
    { Response.text (Body.new.push (ascii "not found\n")) with status := Status.notFound }
  badRequest :=
    { Response.text (Body.new.push (ascii "bad request\n")) with status := Status.badRequest }
  methodNotAllowed :=
    { Response.text (Body.new.push (ascii "method not allowed\n")) with
      status := Status.methodNotAllowed }

/-- `Router::route` and `Router::get`. -/
def get (router : Router) (path : Text) (response : Response) : Router :=
  { router with routes := router.routes ++ [⟨path, response⟩] }

end Router

/-- The interned strings, and the id under which each of them is found. -/
structure StringTable where
  values : List Text
  ids : Text → Option UInt32
  ids_iff : ∀ value id, ids value = some id ↔ values[id.toNat]? = some value

namespace StringTable

/-- `StringTable::default`. -/
def empty : StringTable where
  values := []
  ids := fun _ => none
  ids_iff := by simp

/-- A table with one more string under the next id. -/
def append (strings : StringTable) (value : Text) (hnew : strings.ids value = none)
    (hroom : strings.values.length < 2 ^ 32) : StringTable where
  values := strings.values ++ [value]
  ids := Function.update strings.ids value (some (UInt32.ofNat strings.values.length))
  ids_iff := by
    intro other id
    have hlast : (UInt32.ofNat strings.values.length).toNat = strings.values.length := by
      rw [UInt32.toNat_ofNat', Nat.mod_eq_of_lt hroom]
    by_cases hid : id.toNat = strings.values.length
    · have hid' : id = UInt32.ofNat strings.values.length := by
        rw [← hid, UInt32.ofNat_toNat]
      rw [hid, List.getElem?_append_right (le_refl _), Nat.sub_self]
      by_cases hother : other = value
      · rw [hother, Function.update_self, hid']
        simp
      · rw [Function.update_of_ne hother, strings.ids_iff, hid,
          List.getElem?_eq_none (le_refl _)]
        simp [Ne.symm hother]
    · by_cases hother : other = value
      · rw [hother, Function.update_self]
        have hne : some (UInt32.ofNat strings.values.length) ≠ some id := by
          intro heq
          rw [← Option.some.inj heq] at hid
          exact hid hlast
        refine iff_of_false hne (fun hat => ?_)
        rcases Nat.lt_or_ge id.toNat strings.values.length with hlt | hge
        · rw [List.getElem?_append_left hlt] at hat
          rw [(strings.ids_iff value id).mpr hat] at hnew
          cases hnew
        · rw [List.getElem?_append_right hge, List.getElem?_singleton,
            if_neg (by omega)] at hat
          cases hat
      · rw [Function.update_of_ne hother, strings.ids_iff]
        rcases Nat.lt_or_ge id.toNat strings.values.length with hlt | hge
        · rw [List.getElem?_append_left hlt]
        · rw [List.getElem?_append_right hge, List.getElem?_eq_none hge,
            List.getElem?_singleton, if_neg (by omega)]

/-- `StringTable::intern`. -/
def intern (strings : StringTable) (value : Text) : Outcome (StringTable × UInt32) :=
  match h : strings.ids value with
  | some id => .ok (strings, id)
  | none =>
      if hroom : strings.values.length < 2 ^ 32 then
        .ok (strings.append value h hroom, UInt32.ofNat strings.values.length)
      else .panic

/-- `StringTable::get`. -/
def get (strings : StringTable) (id : UInt32) : Outcome Text :=
  Outcome.expect strings.values[id.toNat]?

end StringTable

structure ShaderStringIds where
  httpVersion : UInt32
  headerContentType : UInt32
  headerContentLength : UInt32
  headerTail : UInt32
  backendGpu : UInt32
deriving DecidableEq, Repr

inductive CompiledSegment where
  | literal (stringId : UInt32)
  | path (maxBytes : Nat)
  | query (maxBytes : Nat)
  | backend
  | requestBytes
  | pathHash
  | backendVariant (cpu gpu : UInt32)
deriving DecidableEq, Repr

structure CompiledResponse where
  status : UInt16
  reasonStringId : UInt32
  contentTypeStringId : UInt32
  segments : List CompiledSegment
  maxGpuBodyBytes : Nat
  maxCpuBodyBytes : Nat
deriving DecidableEq, Repr

structure CompiledRoute where
  path : Text
  pathHash : UInt32
  response : CompiledResponse
deriving DecidableEq, Repr

structure GpuRouterLayout where
  routeCount : UInt32
  fallbackResponseOffset : UInt32
  badRequestResponseOffset : UInt32
  methodNotAllowedResponseOffset : UInt32
deriving DecidableEq, Repr

structure CompiledRouter where
  routes : List CompiledRoute
  fallback : CompiledResponse
  badRequest : CompiledResponse
  methodNotAllowed : CompiledResponse
  strings : List Text
  routerWords : List UInt32
  gpuLayout : GpuRouterLayout
  shaderStringIds : ShaderStringIds
  maxGpuResponseBytes : Nat
deriving DecidableEq, Repr

/-- `validate_route_path`. -/
def validateRoutePath (path : Text) : Outcome Unit := do
  Outcome.ensure (path.head? = some 47) s!"route path {debugText path} must start with '/'"
  Outcome.ensure (63 ∉ path ∧ 35 ∉ path)
    s!"route path {debugText path} must not contain a query string or fragment"
  Outcome.ensure (∀ byte ∈ path, isControl byte = false ∧ byte ≠ 32)
    s!"route path {debugText path} contains an HTTP separator or control byte"
  Outcome.ensure (path.length ≤ u32Max) "route path byte length does not fit u32"

/-- `validate_header_value`. -/
def validateHeaderValue (label : String) (value : Text) : Outcome Unit := do
  Outcome.ensure (value ≠ []) s!"{label} cannot be empty"
  Outcome.ensure (∀ byte ∈ value, byte < 128 ∧ isControl byte = false)
    s!"{label} must be printable ASCII without control bytes"

/-- `validate_status`. -/
def validateStatus (status : Status) : Outcome Unit := do
  Outcome.ensure (100 ≤ status.code ∧ status.code ≤ 999)
    s!"HTTP status code {status.code} must have three digits"
  validateHeaderValue "status reason" status.reason

/-- `validate_dynamic_limit`. -/
def validateDynamicLimit (label : String) (maxBytes : Nat) : Outcome Nat := do
  Outcome.ensure (maxBytes ≤ u32Max) s!"{label} byte limit does not fit u32"
  return maxBytes

/-- `checked_add`. -/
def checkedAdd (current value : Nat) (label : String) : Outcome Nat := do
  Outcome.ensure (current + value < 2 ^ 64) s!"{label} size overflow"
  return current + value

/-- `decimal_digits`. -/
def decimalDigits (value : Nat) : Nat :=
  Nat.log 10 (max value 1) + 1

def fnvOffsetBasis : UInt32 := 2166136261
def fnvPrime : UInt32 := 16777619

/-- `fnv1a`. -/
def fnv1a (bytes : List UInt8) : UInt32 :=
  bytes.foldl (fun hash byte => (hash ^^^ byte.toUInt32) * fnvPrime) fnvOffsetBasis

/-- One segment: its compiled form, and the most bytes it takes on each backend. -/
def compileSegment (strings : StringTable) :
    BodySegment → Outcome (StringTable × CompiledSegment × Nat × Nat)
  | .literal value => do
      let (strings, stringId) ← strings.intern value
      return (strings, .literal stringId, value.length, value.length)
  | .path maxBytes => do
      let maxBytes ← validateDynamicLimit "path" maxBytes
      return (strings, .path maxBytes, maxBytes, maxBytes)
  | .query maxBytes => do
      let maxBytes ← validateDynamicLimit "query" maxBytes
      return (strings, .query maxBytes, maxBytes, maxBytes)
  | .backend => return (strings, .backend, 3, 3)
  | .requestBytes => return (strings, .requestBytes, 10, 20)
  | .pathHash => return (strings, .pathHash, 10, 10)
  | .backendVariant cpu gpu => do
      let (strings, cpuId) ← strings.intern cpu
      let (strings, gpuId) ← strings.intern gpu
      return (strings, .backendVariant cpuId gpuId, gpu.length, max cpu.length gpu.length)

/-- The segments of a body, from the bytes counted so far on. -/
def compileSegments (strings : StringTable) (maxGpuBodyBytes maxCpuBodyBytes : Nat) :
    List BodySegment → Outcome (StringTable × List CompiledSegment × Nat × Nat)
  | [] => return (strings, [], maxGpuBodyBytes, maxCpuBodyBytes)
  | segment :: rest => do
      let (strings, compiled, gpuBytes, cpuBytes) ← compileSegment strings segment
      let maxGpuBodyBytes ← checkedAdd maxGpuBodyBytes gpuBytes "GPU body"
      let maxCpuBodyBytes ← checkedAdd maxCpuBodyBytes cpuBytes "CPU body"
      let (strings, later, maxGpuBodyBytes, maxCpuBodyBytes) ←
        compileSegments strings maxGpuBodyBytes maxCpuBodyBytes rest
      return (strings, compiled :: later, maxGpuBodyBytes, maxCpuBodyBytes)

/-- `compile_response`. -/
def compileResponse (strings : StringTable) (response : Response) :
    Outcome (StringTable × CompiledResponse) := do
  validateStatus response.status
  validateHeaderValue "content type" response.contentType
  let (strings, reasonStringId) ← strings.intern response.status.reason
  let (strings, contentTypeStringId) ← strings.intern response.contentType
  let (strings, segments, maxGpuBodyBytes, maxCpuBodyBytes) ←
    compileSegments strings 0 0 response.body.segments
  return (strings,
    { status := response.status.code
      reasonStringId := reasonStringId
      contentTypeStringId := contentTypeStringId
      segments := segments
      maxGpuBodyBytes := maxGpuBodyBytes
      maxCpuBodyBytes := maxCpuBodyBytes })

def routeStrideWords : Nat := 4
def responseDescriptorWords : Nat := 5

/-- The body operation of a segment. -/
def emitSegment : CompiledSegment → Outcome (List UInt32)
  | .literal stringId => return [0, stringId, 0]
  | .path maxBytes => do
      Outcome.ensure (maxBytes ≤ u32Max) "path byte limit does not fit u32"
      return [1, UInt32.ofNat maxBytes, 0]
  | .query maxBytes => do
      Outcome.ensure (maxBytes ≤ u32Max) "query byte limit does not fit u32"
      return [2, UInt32.ofNat maxBytes, 0]
  | .backend => return [3, 0, 0]
  | .requestBytes => return [4, 0, 0]
  | .pathHash => return [5, 0, 0]
  | .backendVariant cpu gpu => return [6, cpu, gpu]

/-- The body program of a response. -/
def emitProgram : List CompiledSegment → Outcome (List UInt32)
  | [] => return []
  | segment :: rest => do
      let operation ← emitSegment segment
      let later ← emitProgram rest
      return operation ++ later

/-- The descriptor of a response whose program starts behind it. -/
def descriptor (response : CompiledResponse) (responseOffset : Nat) : List UInt32 :=
  [response.status.toUInt32, response.reasonStringId, response.contentTypeStringId,
    UInt32.ofNat (responseOffset + responseDescriptorWords),
    UInt32.ofNat response.segments.length]

/-- `emit_response`. -/
def emitResponse (words : List UInt32) (response : CompiledResponse) :
    Outcome (List UInt32 × UInt32) := do
  Outcome.ensure (words.length ≤ u32Max) "router word offset does not fit u32"
  Outcome.ensure (words.length + responseDescriptorWords < 2 ^ 64)
    "response program offset overflow"
  Outcome.ensure (words.length + responseDescriptorWords ≤ u32Max)
    "response program offset does not fit u32"
  Outcome.ensure (response.segments.length ≤ u32Max) "body operation count does not fit u32"
  let program ← emitProgram response.segments
  return (words ++ descriptor response words.length ++ program, UInt32.ofNat words.length)

/-- `words[index] = word`. -/
def storeWord (words : List UInt32) (index : Nat) (word : UInt32) : Outcome (List UInt32) :=
  if index < words.length then .ok (words.set index word) else .panic

/-- The loop that emits the routes and fills the route table. -/
def emitRoutes (strings : StringTable) (words : List UInt32) (routeIndex : Nat) :
    List CompiledRoute → Outcome (StringTable × List UInt32)
  | [] => return (strings, words)
  | route :: rest => do
      let (words, responseOffset) ← emitResponse words route.response
      let (strings, pathStringId) ← strings.intern route.path
      let base := routeIndex * routeStrideWords
      let words ← storeWord words base route.pathHash
      Outcome.ensure (route.path.length ≤ u32Max) "route path byte length does not fit u32"
      let words ← storeWord words (base + 1) (UInt32.ofNat route.path.length)
      let words ← storeWord words (base + 2) pathStringId
      let words ← storeWord words (base + 3) responseOffset
      emitRoutes strings words (routeIndex + 1) rest

/-- `maximum_response_bytes`.  A chain of checked additions overflows exactly
when the sum does. -/
def maximumResponseBytes (strings : StringTable) (ids : ShaderStringIds)
    (response : CompiledResponse) : Outcome Nat := do
  let httpVersion ← strings.get ids.httpVersion
  let reason ← strings.get response.reasonStringId
  let headerContentType ← strings.get ids.headerContentType
  let contentType ← strings.get response.contentTypeStringId
  let headerContentLength ← strings.get ids.headerContentLength
  let headerTail ← strings.get ids.headerTail
  let headerBytes := httpVersion.length + decimalDigits response.status.toNat + 1 +
    reason.length + headerContentType.length + contentType.length +
    headerContentLength.length + decimalDigits response.maxGpuBodyBytes + headerTail.length
  Outcome.ensure (headerBytes < 2 ^ 64) "GPU response header size overflow"
  Outcome.ensure (headerBytes + response.maxGpuBodyBytes < 2 ^ 64) "GPU response size overflow"
  return headerBytes + response.maxGpuBodyBytes

/-- The largest response, from a current maximum on. -/
def maximumOver (strings : StringTable) (ids : ShaderStringIds) (current : Nat) :
    List CompiledResponse → Outcome Nat
  | [] => return current
  | response :: rest => do
      let next ← maximumResponseBytes strings ids response
      maximumOver strings ids (max current next) rest

/-- The five strings of `RouterCompiler::new`. -/
def newCompiler : Outcome (StringTable × ShaderStringIds) := do
  let (strings, httpVersion) ← StringTable.empty.intern (ascii "HTTP/1.1 ")
  let (strings, headerContentType) ← strings.intern (ascii "\r\nContent-Type: ")
  let (strings, headerContentLength) ← strings.intern (ascii "\r\nContent-Length: ")
  let (strings, headerTail) ← strings.intern
    (ascii "\r\nConnection: close\r\nServer: gput\r\nX-Gput-Backend: gpu\r\n\r\n")
  let (strings, backendGpu) ← strings.intern (ascii "gpu")
  return (strings, ⟨httpVersion, headerContentType, headerContentLength, headerTail, backendGpu⟩)

/-- The first loop of `compile`, behind the paths seen so far. -/
def compileRoutes (strings : StringTable) (seenPaths : List Text) :
    List RouteDefinition → Outcome (StringTable × List CompiledRoute)
  | [] => return (strings, [])
  | route :: rest => do
      validateRoutePath route.path
      Outcome.ensure (route.path ∉ seenPaths) s!"duplicate GET route {debugText route.path}"
      let (strings, response) ← compileResponse strings route.response
      let (strings, routes) ← compileRoutes strings (route.path :: seenPaths) rest
      return (strings,
        { path := route.path, pathHash := fnv1a route.path, response := response } :: routes)

/-- The order of the routes: by hash, then by path. -/
def routeLe (left right : CompiledRoute) : Bool :=
  left.pathHash < right.pathHash ∨ (left.pathHash = right.pathHash ∧ left.path ≤ right.path)

/-- `RouterCompiler::compile`. -/
def compile (router : Router) : Outcome CompiledRouter := do
  let (strings, ids) ← newCompiler
  Outcome.ensure (router.routes.length ≤ u32Max) "route count does not fit u32"
  let (strings, routes) ← compileRoutes strings [] router.routes
  let routes := routes.mergeSort routeLe
  let (strings, fallback) ← compileResponse strings router.fallback
  let (strings, badRequest) ← compileResponse strings router.badRequest
  let (strings, methodNotAllowed) ← compileResponse strings router.methodNotAllowed
  Outcome.ensure (routes.length * routeStrideWords < 2 ^ 64) "route table word count overflow"
  let (strings, words) ←
    emitRoutes strings (List.replicate (routes.length * routeStrideWords) 0) 0 routes
  let (words, fallbackResponseOffset) ← emitResponse words fallback
  let (words, badRequestResponseOffset) ← emitResponse words badRequest
  let (words, methodNotAllowedResponseOffset) ← emitResponse words methodNotAllowed
  let maxGpuResponseBytes ← maximumOver strings ids 0
    (routes.map CompiledRoute.response ++ [fallback, badRequest, methodNotAllowed])
  Outcome.ensure (maxGpuResponseBytes ≤ u32Max) "maximum GPU response size does not fit u32"
  Outcome.ensure (words.length ≤ u32Max) "GPU router program length does not fit u32"
  Outcome.ensure (routes.length ≤ u32Max) "route count does not fit u32"
  return {
    routes := routes
    fallback := fallback
    badRequest := badRequest
    methodNotAllowed := methodNotAllowed
    strings := strings.values
    routerWords := words
    gpuLayout :=
      { routeCount := UInt32.ofNat routes.length
        fallbackResponseOffset := fallbackResponseOffset
        badRequestResponseOffset := badRequestResponseOffset
        methodNotAllowedResponseOffset := methodNotAllowedResponseOffset }
    shaderStringIds := ids
    maxGpuResponseBytes := maxGpuResponseBytes }

end Http
end Gput
