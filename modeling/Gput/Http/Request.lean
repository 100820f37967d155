import Gput.Http.Router

/-!
# Answering a request on the host

`parse_request`, `render_response` and `route_request`.  A string id that is not
in the table is a panic.
-/

namespace Gput
namespace Http

open ByteString AsciiText Decimal

structure RequestParts where
  path : Text
  query : Text
  pathHash : UInt32
deriving DecidableEq, Repr

/-- `RequestParts::empty`. -/
def RequestParts.empty : RequestParts := ⟨[], [], 0⟩

inductive RequestParse where
  | get (parts : RequestParts)
  | badRequest
  | methodNotAllowed
deriving DecidableEq, Repr

/-- The path and the query of a target. -/
def splitTarget (target : Text) : Text × Text :=
  match target.findIdx? (· == 63) with
  | none => (target, [])
  | some queryMark => (target.take queryMark, target.drop (queryMark + 1))

/-- `parse_request`. -/
def parseRequest (request : List UInt8) : RequestParse :=
  match request.findIdx? (· == 10) with
  | none => .badRequest
  | some lineEnd =>
      let requestLine := stripLast 13 (request.take lineEnd)
      match requestLine.splitOn 32 with
      | [method, target, version] =>
          if method ≠ ascii "GET" then .methodNotAllowed
          else if version ≠ ascii "HTTP/1.1" ∧ version ≠ ascii "HTTP/1.0" then .badRequest
          else if target.head? ≠ some 47 then .badRequest
          else
            let (path, query) := splitTarget target
            if path = [] then .badRequest
            else .get { path := path, query := query, pathHash := fnv1a path }
      | _ => .badRequest

namespace CompiledRouter

variable (router : CompiledRouter)

/-- `CompiledRouter::string`. -/
def string (id : UInt32) : Outcome Text :=
  Outcome.expect router.strings[id.toNat]?

section Rendering

variable (parts : RequestParts) (requestLen : Nat) (backend : Text)

/-- The bytes `render_response` appends for one segment. -/
def renderSegment : CompiledSegment → Outcome Text
  | .literal stringId => router.string stringId
  | .path maxBytes => return parts.path.take (min parts.path.length maxBytes)
  | .query maxBytes => return parts.query.take (min parts.query.length maxBytes)
  | .backend => return backend
  | .requestBytes => return decimal requestLen
  | .pathHash => return decimal parts.pathHash.toNat
  | .backendVariant cpu gpu => router.string (if backend = ascii "gpu" then gpu else cpu)

/-- The body `render_response` builds. -/
def renderBody : List CompiledSegment → Outcome Text
  | [] => return []
  | segment :: rest => do
      let bytes ← router.renderSegment parts requestLen backend segment
      let later ← renderBody rest
      return bytes ++ later

/-- `render_response`. -/
def renderResponse (response : CompiledResponse) : Outcome (List UInt8) := do
  let body ← router.renderBody parts requestLen backend response.segments
  let reason ← router.string response.reasonStringId
  let contentType ← router.string response.contentTypeStringId
  return buildResponse response.status reason contentType body backend

end Rendering

/-- The route of a path.  The routes are sorted by their hash, so the partition
point is where the smaller hashes end. -/
def findRoute (parts : RequestParts) : Option CompiledRoute :=
  let firstCandidate :=
    (router.routes.takeWhile (fun route => decide (route.pathHash < parts.pathHash))).length
  ((router.routes.drop firstCandidate).takeWhile
    (fun route => route.pathHash == parts.pathHash)).find? (fun route => route.path == parts.path)

/-- `route_request`. -/
def routeRequest (request : List UInt8) (backend : Text) : Outcome (List UInt8) :=
  match parseRequest request with
  | .get parts =>
      let response := ((router.findRoute parts).map CompiledRoute.response).getD router.fallback
      router.renderResponse parts request.length backend response
  | .badRequest =>
      router.renderResponse RequestParts.empty request.length backend router.badRequest
  | .methodNotAllowed =>
      router.renderResponse RequestParts.empty request.length backend router.methodNotAllowed

/-- Every response of a router. -/
def responses : List CompiledResponse :=
  router.routes.map CompiledRoute.response ++
    [router.fallback, router.badRequest, router.methodNotAllowed]

/-- A request is answered with one of the responses of the router. -/
theorem routeRequest_eq (request : List UInt8) (backend : Text) :
    ∃ response ∈ router.responses, ∃ parts,
      router.routeRequest request backend =
        router.renderResponse parts request.length backend response := by
  unfold routeRequest
  split
  case h_1 parts _ =>
    cases hroute : router.findRoute parts with
    | none => exact ⟨router.fallback, by simp [responses], parts, rfl⟩
    | some route =>
        have hmem : route ∈ router.routes :=
          List.mem_of_mem_drop ((List.takeWhile_sublist _).subset (List.mem_of_find?_eq_some hroute))
        exact ⟨route.response, List.mem_append_left _ (List.mem_map_of_mem hmem), parts, rfl⟩
  case h_2 => exact ⟨router.badRequest, by simp [responses], _, rfl⟩
  case h_3 => exact ⟨router.methodNotAllowed, by simp [responses], _, rfl⟩

end CompiledRouter

end Http
end Gput
