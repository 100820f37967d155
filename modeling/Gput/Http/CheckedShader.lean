import Gput.Library.CheckedLoads
import Gput.Http.Processor

/-!
# The HTTP shader with checked loads

The functions of `http.wgsl` once more, over the arrays the host uploads instead
of buffers without an end.  A load fails behind the end of its array, and a load
of `input_words` already outside the words of its own request.  What is not
evaluated in the source is not loaded here: the second word of an aligned read,
the right side of a decided `&&` or `||`.
-/

namespace Gput
namespace Http
namespace Shader

open WordMemory

/-- The arrays a batch uploads, and the constants in front of the source. -/
structure Uploads where
  ids : ShaderStringIds
  params : Params
  requestMeta : List RequestMeta
  inputWords : List UInt32
  stringMeta : List StringMeta
  stringWords : List UInt32
  routerWords : List UInt32

namespace Checked

/-- `&&`. -/
def both (left right : Option Bool) : Option Bool := do
  if ← left then right else return false

/-- `||`. -/
def either (left right : Option Bool) : Option Bool := do
  if ← left then return true else right

section Loading

variable (uploads : Uploads)

/-- A load of `input_words` for a request. -/
def inputWord (requestMeta : RequestMeta) (position : UInt32) : Option UInt32 :=
  if requestMeta.wordOffset.toNat ≤ position.toNat ∧
      position.toNat < requestMeta.wordOffset.toNat + (requestMeta.inputLen.toNat + 3) / 4 then
    uploads.inputWords[position.toNat]?
  else none

def requestByte (requestIndex byteIndex : UInt32) : Option UInt32 := do
  let requestMeta ← uploads.requestMeta[requestIndex.toNat]?
  loadByte (inputWord uploads requestMeta) requestMeta.wordOffset byteIndex

def requestWord (requestIndex byteIndex : UInt32) : Option UInt32 := do
  let requestMeta ← uploads.requestMeta[requestIndex.toNat]?
  loadWord (inputWord uploads requestMeta) requestMeta.wordOffset byteIndex

def stringByte (stringId byteIndex : UInt32) : Option UInt32 := do
  let string ← uploads.stringMeta[stringId.toNat]?
  loadByte (fun position => uploads.stringWords[position.toNat]?) 0 (string.byteOffset + byteIndex)

def stringWord (stringId byteIndex : UInt32) : Option UInt32 := do
  let string ← uploads.stringMeta[stringId.toNat]?
  loadWord (fun position => uploads.stringWords[position.toNat]?) 0 (string.byteOffset + byteIndex)

def stringLen (stringId : UInt32) : Option UInt32 := do
  let string ← uploads.stringMeta[stringId.toNat]?
  return string.byteLen

def routeWord (routeIndex field : UInt32) : Option UInt32 :=
  uploads.routerWords[(routeIndex * routeStride + field).toNat]?

def responseWord (responseOffset field : UInt32) : Option UInt32 :=
  uploads.routerWords[(responseOffset + field).toNat]?

def bodyOpWord (programOffset operationIndex field : UInt32) : Option UInt32 :=
  uploads.routerWords[(programOffset + operationIndex * bodyOpWords + field).toNat]?

end Loading

section Writing

variable (params : Params)

def pushWords (loadWord : UInt32 → Option UInt32) (byteLen byteIndex : UInt32) (output : Output) :
    Option (Output × UInt32) :=
  if byteLen - byteIndex ≥ 4 then do
    let word ← loadWord byteIndex
    pushWords loadWord byteLen (byteIndex + 4) (writerPushWord params output word)
  else some (output, byteIndex)
termination_by (byteLen - byteIndex).toNat
decreasing_by
  rename_i h
  have := four_le h
  omega

def pushBytes (loadByte : UInt32 → Option UInt32) (byteLen byteIndex : UInt32) (output : Output) :
    Option Output :=
  if byteIndex < byteLen then do
    let byte ← loadByte byteIndex
    pushBytes loadByte byteLen (byteIndex + 1) (writerPushByte params output byte)
  else some output
termination_by byteLen.toNat - byteIndex.toNat
decreasing_by
  rename_i h
  have := succ_toNat h
  have := UInt32.lt_iff_toNat_lt.mp h
  omega

def pushRange (loadWord loadByte : UInt32 → Option UInt32) (byteLen : UInt32) (output : Output) :
    Option Output := do
  let (output, byteIndex) ← pushWords params loadWord byteLen 0 output
  pushBytes params loadByte byteLen byteIndex output

end Writing

section Strings

variable (uploads : Uploads)

def writerPushString (stringId : UInt32) (output : Output) : Option Output := do
  let byteLen ← stringLen uploads stringId
  pushRange uploads.params (stringWord uploads stringId) (stringByte uploads stringId) byteLen
    output

def writerPushRequestRange (requestIndex byteStart byteLen : UInt32) (output : Output) :
    Option Output :=
  pushRange uploads.params
    (fun byteIndex => requestWord uploads requestIndex (byteStart + byteIndex))
    (fun byteIndex => requestByte uploads requestIndex (byteStart + byteIndex)) byteLen output

end Strings

section Responses

variable (uploads : Uploads)

def operationLen (opcode arg0 arg1 : UInt32) (target : RequestTarget) : Option UInt32 :=
  if opcode = bodyOpLiteral then stringLen uploads arg0
  else if opcode = bodyOpPath then some (min target.pathLen arg0)
  else if opcode = bodyOpQuery then some (min target.queryLen arg0)
  else if opcode = bodyOpBackend then stringLen uploads uploads.ids.backendGpu
  else if opcode = bodyOpRequestBytes then some (decimalWidth target.inputLen)
  else if opcode = bodyOpPathHash then some (decimalWidth target.pathHash)
  else if opcode = bodyOpBackendVariant then stringLen uploads arg1
  else some 0

def writeOperation (requestIndex opcode arg0 arg1 : UInt32) (target : RequestTarget)
    (output : Output) : Option Output :=
  if opcode = bodyOpLiteral then writerPushString uploads arg0 output
  else if opcode = bodyOpPath then
    writerPushRequestRange uploads requestIndex target.pathStart (min target.pathLen arg0) output
  else if opcode = bodyOpQuery then
    writerPushRequestRange uploads requestIndex target.queryStart (min target.queryLen arg0) output
  else if opcode = bodyOpBackend then writerPushString uploads uploads.ids.backendGpu output
  else if opcode = bodyOpRequestBytes then
    some (writerPushDecimal uploads.params target.inputLen output)
  else if opcode = bodyOpPathHash then
    some (writerPushDecimal uploads.params target.pathHash output)
  else if opcode = bodyOpBackendVariant then writerPushString uploads arg1 output
  else some (writerFail output responseFlagInvalidProgram)

def forOperations {α : Type} (programOffset operationCount : UInt32)
    (step : UInt32 → UInt32 → UInt32 → α → Option α) (operationIndex : UInt32) (state : α) :
    Option α :=
  if operationIndex < operationCount then do
    let opcode ← bodyOpWord uploads programOffset operationIndex bodyOpCode
    let arg0 ← bodyOpWord uploads programOffset operationIndex bodyOpArg0
    let arg1 ← bodyOpWord uploads programOffset operationIndex bodyOpArg1
    let state ← step opcode arg0 arg1 state
    forOperations programOffset operationCount step (operationIndex + 1) state
  else some state
termination_by operationCount.toNat - operationIndex.toNat
decreasing_by
  rename_i h
  have := succ_toNat h
  have := UInt32.lt_iff_toNat_lt.mp h
  omega

def responseBodyLen (responseOffset : UInt32) (target : RequestTarget) : Option UInt32 := do
  let programOffset ← responseWord uploads responseOffset responseProgramOffset
  let operationCount ← responseWord uploads responseOffset responseProgramLen
  forOperations uploads programOffset operationCount
    (fun opcode arg0 arg1 bodyLen => do
      let operationLen ← operationLen uploads opcode arg0 arg1 target
      return bodyLen + operationLen) 0 0

def writeResponseBody (requestIndex responseOffset : UInt32) (target : RequestTarget)
    (output : Output) : Option Output := do
  let programOffset ← responseWord uploads responseOffset responseProgramOffset
  let operationCount ← responseWord uploads responseOffset responseProgramLen
  forOperations uploads programOffset operationCount
    (fun opcode arg0 arg1 output =>
      writeOperation uploads requestIndex opcode arg0 arg1 target output) 0 output

def writeResponse (requestIndex responseOffset : UInt32) (target : RequestTarget)
    (storage : Storage) : Option Storage := do
  let status ← responseWord uploads responseOffset responseStatus
  let reasonStringId ← responseWord uploads responseOffset responseReasonString
  let contentTypeStringId ← responseWord uploads responseOffset responseContentTypeString
  let bodyLen ← responseBodyLen uploads responseOffset target
  let output : Output := ⟨writerNew requestIndex, storage.outputWords⟩
  let output ← writerPushString uploads uploads.ids.httpVersion output
  let output := writerPushDecimal uploads.params status output
  let output := writerPushByte uploads.params output 32
  let output ← writerPushString uploads reasonStringId output
  let output ← writerPushString uploads uploads.ids.headerContentType output
  let output ← writerPushString uploads contentTypeStringId output
  let output ← writerPushString uploads uploads.ids.headerContentLength output
  let output := writerPushDecimal uploads.params bodyLen output
  let output ← writerPushString uploads uploads.ids.headerTail output
  let output ← writeResponseBody uploads requestIndex responseOffset target output
  return writerFinish uploads.params output status storage

end Responses

section RequestLine

variable (uploads : Uploads) (requestIndex inputLen : UInt32)

def isGetRequest : Option Bool :=
  if inputLen < 4 then some false
  else do
    let word ← requestWord uploads requestIndex 0
    return word = 0x20544547

def hasSupportedHttpVersion (versionStart : UInt32) : Option Bool :=
  let byteIs (offset byte : UInt32) : Option Bool := do
    let read ← requestByte uploads requestIndex (versionStart + offset)
    return read = byte
  if versionStart + 8 ≥ inputLen then some false
  else do
    let versionMatches ←
      both (byteIs 0 72) <| both (byteIs 1 84) <| both (byteIs 2 84) <| both (byteIs 3 80) <|
        both (byteIs 4 47) <| both (byteIs 5 49) <| both (byteIs 6 46) <|
          either (byteIs 7 48) (byteIs 7 49)
    if ¬ versionMatches then return false
    else
      let terminator ← requestByte uploads requestIndex (versionStart + 8)
      if terminator = 10 then return true
      else
        both (some (terminator = 13)) <| both (some (versionStart + 9 < inputLen)) (byteIs 9 10)

/-- The loop of `parse_get_target`. -/
def scanTarget (scan : TargetScan) : Option TargetScan :=
  if scan.cursor < inputLen then do
    let byte ← requestByte uploads requestIndex scan.cursor
    if byte = 32 then return { scan with foundTargetEnd := true } else scanTarget (scan.step byte)
  else some scan
termination_by inputLen.toNat - scan.cursor.toNat
decreasing_by
  rename_i h _
  have := succ_toNat h
  have := UInt32.lt_iff_toNat_lt.mp h
  rw [TargetScan.step_cursor]
  omega

def parseGetTarget : Option RequestTarget := do
  let noSlash := do
    let byte ← requestByte uploads requestIndex 4
    return byte ≠ 47
  if ← either (some (inputLen ≤ 4)) noSlash then return invalidTarget inputLen
  else
    let scan ← scanTarget uploads requestIndex inputLen ⟨4, fnvOffsetBasis, 0, 0, 0, false, false⟩
    if scan.foundTargetEnd = false ∨ scan.pathLen = 0 then return invalidTarget inputLen
    else
      let supported ← hasSupportedHttpVersion uploads requestIndex inputLen (scan.cursor + 1)
      if supported = false then return invalidTarget inputLen
      else
        return {
          pathStart := 4
          pathLen := scan.pathLen
          queryStart := if scan.inQuery = false then scan.cursor else scan.queryStart
          queryLen := scan.queryLen
          pathHash := scan.pathHash
          inputLen := inputLen
          valid := 1 }

end RequestLine

/-- The loop that compares whole words: where it ends, unless two words differ. -/
def matchWords (left right : UInt32 → Option UInt32) (len byteIndex : UInt32) :
    Option (Option UInt32) :=
  if len - byteIndex ≥ 4 then do
    let leftWord ← left byteIndex
    let rightWord ← right byteIndex
    if leftWord ≠ rightWord then return none else matchWords left right len (byteIndex + 4)
  else some (some byteIndex)
termination_by (len - byteIndex).toNat
decreasing_by
  rename_i h
  have := four_le h
  omega

/-- The loop that compares what is left byte by byte. -/
def matchBytes (left right : UInt32 → Option UInt32) (len byteIndex : UInt32) : Option Bool :=
  if byteIndex < len then do
    let leftByte ← left byteIndex
    let rightByte ← right byteIndex
    if leftByte ≠ rightByte then return false else matchBytes left right len (byteIndex + 1)
  else some true
termination_by len.toNat - byteIndex.toNat
decreasing_by
  rename_i h
  have := succ_toNat h
  have := UInt32.lt_iff_toNat_lt.mp h
  omega

section Routes

variable (uploads : Uploads) (requestIndex : UInt32) (target : RequestTarget)

def routeMatches (routeIndex : UInt32) : Option Bool := do
  let otherHash := do
    let pathHash ← routeWord uploads routeIndex routePathHash
    return pathHash ≠ target.pathHash
  let otherLen := do
    let pathLen ← routeWord uploads routeIndex routePathLen
    return pathLen ≠ target.pathLen
  if ← either otherHash otherLen then return false
  else
    let routeStringId ← routeWord uploads routeIndex routePathString
    match ← matchWords (fun i => requestWord uploads requestIndex (target.pathStart + i))
        (stringWord uploads routeStringId) target.pathLen 0 with
    | none => return false
    | some byteIndex =>
        matchBytes (fun i => requestByte uploads requestIndex (target.pathStart + i))
          (stringByte uploads routeStringId) target.pathLen byteIndex

/-- The binary search of `find_response_offset`. -/
def lowerBound (lower upper : UInt32) : Option UInt32 :=
  if lower < upper then do
    let middle := lower + (upper - lower) / 2
    let routeHash ← routeWord uploads middle routePathHash
    if routeHash < target.pathHash then lowerBound (middle + 1) upper
    else lowerBound lower middle
  else some lower
termination_by upper.toNat - lower.toNat
decreasing_by
  · rename_i h
    have hmiddle := middle_toNat h
    rw [succ_toNat (UInt32.lt_iff_toNat_lt.mpr hmiddle.2)]
    omega
  · rename_i h
    have hmiddle := middle_toNat h
    omega

/-- The loop of `find_response_offset` over the routes of a hash. -/
def probeRoutes (routeIndex : UInt32) : Option UInt32 :=
  if routeIndex < uploads.params.routeCount then do
    let routeHash ← routeWord uploads routeIndex routePathHash
    if routeHash ≠ target.pathHash then return uploads.params.fallbackResponseOffset
    else if ← routeMatches uploads requestIndex target routeIndex then
      routeWord uploads routeIndex routeResponseOffset
    else probeRoutes (routeIndex + 1)
  else some uploads.params.fallbackResponseOffset
termination_by uploads.params.routeCount.toNat - routeIndex.toNat
decreasing_by
  rename_i h
  have := succ_toNat h
  have := UInt32.lt_iff_toNat_lt.mp h
  omega

def findResponseOffset : Option UInt32 := do
  let lower ← lowerBound uploads target 0 uploads.params.routeCount
  probeRoutes uploads requestIndex target lower

end Routes

/-- `process_requests`, for the invocation `requestIndex`. -/
def processRequests (uploads : Uploads) (requestIndex : UInt32) (storage : Storage) :
    Option Storage :=
  if requestIndex ≥ uploads.params.requestCount then some storage
  else do
    let requestMeta ← uploads.requestMeta[requestIndex.toNat]?
    let inputLen := requestMeta.inputLen
    if inputLen < 4 then
      writeResponse uploads requestIndex uploads.params.badRequestResponseOffset
        (invalidTarget inputLen) storage
    else if (← isGetRequest uploads requestIndex inputLen) = false then
      writeResponse uploads requestIndex uploads.params.methodNotAllowedResponseOffset
        (invalidTarget inputLen) storage
    else
      let target ← parseGetTarget uploads requestIndex inputLen
      if target.valid = 0 then
        writeResponse uploads requestIndex uploads.params.badRequestResponseOffset target storage
      else
        let responseOffset ← findResponseOffset uploads requestIndex target
        writeResponse uploads requestIndex responseOffset target storage

end Checked

end Shader
end Http
end Gput
