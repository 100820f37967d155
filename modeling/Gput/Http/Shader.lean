import Gput.Library.WordMemory
import Gput.Http.ShaderStrings

/-!
# The HTTP shader

`http.wgsl`, function by function.  The buffers an invocation reads are functions
from positions to words; the two it writes are passed along.  The arithmetic is
that of `UInt32`.
-/

namespace Gput
namespace Http
namespace Shader

open WordMemory

structure Params where
  requestStrideWords : UInt32
  responseStrideWords : UInt32
  requestCount : UInt32
  routeCount : UInt32
  fallbackResponseOffset : UInt32
  badRequestResponseOffset : UInt32
  methodNotAllowedResponseOffset : UInt32
deriving DecidableEq, Repr

structure RequestMeta where
  inputLen : UInt32
  wordOffset : UInt32
deriving DecidableEq, Repr

structure ResponseMeta where
  outputLen : UInt32
  status : UInt32
  flags : UInt32
deriving DecidableEq, Repr

structure Writer where
  requestIndex : UInt32
  cursor : UInt32
  flags : UInt32
  pending : UInt32
deriving DecidableEq, Repr

structure RequestTarget where
  pathStart : UInt32
  pathLen : UInt32
  queryStart : UInt32
  queryLen : UInt32
  pathHash : UInt32
  inputLen : UInt32
  valid : UInt32
deriving DecidableEq, Repr

/-- What an invocation reads: the bindings, and the constants generated in front
of the source. -/
structure Bindings where
  ids : ShaderStringIds
  params : Params
  requestMeta : UInt32 → RequestMeta
  inputWords : UInt32 → UInt32
  stringMeta : UInt32 → StringMeta
  stringWords : UInt32 → UInt32
  routerWords : UInt32 → UInt32

/-- The buffers an invocation writes. -/
structure Storage where
  responseMeta : UInt32 → ResponseMeta
  outputWords : UInt32 → UInt32

def routePathHash : UInt32 := 0
def routePathLen : UInt32 := 1
def routePathString : UInt32 := 2
def routeResponseOffset : UInt32 := 3

def responseStatus : UInt32 := 0
def responseReasonString : UInt32 := 1
def responseContentTypeString : UInt32 := 2
def responseProgramOffset : UInt32 := 3
def responseProgramLen : UInt32 := 4

def bodyOpCode : UInt32 := 0
def bodyOpArg0 : UInt32 := 1
def bodyOpArg1 : UInt32 := 2

def bodyOpLiteral : UInt32 := 0
def bodyOpPath : UInt32 := 1
def bodyOpQuery : UInt32 := 2
def bodyOpBackend : UInt32 := 3
def bodyOpRequestBytes : UInt32 := 4
def bodyOpPathHash : UInt32 := 5
def bodyOpBackendVariant : UInt32 := 6

def routeStride : UInt32 := 4
def bodyOpWords : UInt32 := 3

def responseFlagOutputOverflow : UInt32 := 1
def responseFlagInvalidProgram : UInt32 := 4

section Reading

variable (bindings : Bindings)

def requestByte (requestIndex byteIndex : UInt32) : UInt32 :=
  readByte bindings.inputWords (bindings.requestMeta requestIndex).wordOffset byteIndex

def requestWord (requestIndex byteIndex : UInt32) : UInt32 :=
  readWord bindings.inputWords (bindings.requestMeta requestIndex).wordOffset byteIndex

def stringByte (stringId byteIndex : UInt32) : UInt32 :=
  readByte bindings.stringWords 0 ((bindings.stringMeta stringId).byteOffset + byteIndex)

def stringWord (stringId byteIndex : UInt32) : UInt32 :=
  readWord bindings.stringWords 0 ((bindings.stringMeta stringId).byteOffset + byteIndex)

def routeWord (routeIndex field : UInt32) : UInt32 :=
  bindings.routerWords (routeIndex * routeStride + field)

def responseWord (responseOffset field : UInt32) : UInt32 :=
  bindings.routerWords (responseOffset + field)

def bodyOpWord (programOffset operationIndex field : UInt32) : UInt32 :=
  bindings.routerWords (programOffset + operationIndex * bodyOpWords + field)

end Reading

/-- A writer, and the words it writes to. -/
structure Output where
  writer : Writer
  words : UInt32 → UInt32

def writerNew (requestIndex : UInt32) : Writer :=
  ⟨requestIndex, 0, 0, 0⟩

def writerFail (output : Output) (flag : UInt32) : Output :=
  { output with writer := { output.writer with flags := output.writer.flags ||| flag } }

section Writing

variable (params : Params)

def writerPushByte (output : Output) (byte : UInt32) : Output :=
  let writer := output.writer
  if writer.flags ≠ 0 then output
  else if writer.cursor ≥ params.responseStrideWords * 4 then
    writerFail output responseFlagOutputOverflow
  else
    let pending := writer.pending ||| (byte &&& 255) <<< ((writer.cursor &&& 3) * 8)
    let cursor := writer.cursor + 1
    if cursor &&& 3 = 0 then
      { writer := { writer with cursor := cursor, pending := 0 }
        words := Function.update output.words
          (writer.requestIndex * params.responseStrideWords + cursor / 4 - 1) pending }
    else { output with writer := { writer with cursor := cursor, pending := pending } }

def writerPushWord (output : Output) (word : UInt32) : Output :=
  let writer := output.writer
  if writer.flags ≠ 0 then output
  else if params.responseStrideWords * 4 - writer.cursor < 4 then
    writerFail output responseFlagOutputOverflow
  else
    let shift := (writer.cursor &&& 3) * 8
    { writer :=
        { writer with
          cursor := writer.cursor + 4
          pending := if shift ≠ 0 then word >>> (32 - shift) else 0 }
      words := Function.update output.words
        (writer.requestIndex * params.responseStrideWords + writer.cursor / 4)
        (writer.pending ||| word <<< shift) }

/-- The loop that pushes whole words, and the index it ends at. -/
def pushWords (readWord : UInt32 → UInt32) (byteLen byteIndex : UInt32) (output : Output) :
    Output × UInt32 :=
  if byteLen - byteIndex ≥ 4 then
    pushWords readWord byteLen (byteIndex + 4) (writerPushWord params output (readWord byteIndex))
  else (output, byteIndex)
termination_by (byteLen - byteIndex).toNat
decreasing_by
  rename_i h
  have := four_le h
  omega

/-- The loop that pushes what is left byte by byte. -/
def pushBytes (readByte : UInt32 → UInt32) (byteLen byteIndex : UInt32) (output : Output) :
    Output :=
  if byteIndex < byteLen then
    pushBytes readByte byteLen (byteIndex + 1) (writerPushByte params output (readByte byteIndex))
  else output
termination_by byteLen.toNat - byteIndex.toNat
decreasing_by
  rename_i h
  have := succ_toNat h
  have := UInt32.lt_iff_toNat_lt.mp h
  omega

/-- The two loops of a copy. -/
def pushRange (readWord readByte : UInt32 → UInt32) (byteLen : UInt32) (output : Output) : Output :=
  let (output, byteIndex) := pushWords params readWord byteLen 0 output
  pushBytes params readByte byteLen byteIndex output

end Writing

section Strings

variable (bindings : Bindings)

def writerPushString (stringId : UInt32) (output : Output) : Output :=
  pushRange bindings.params (stringWord bindings stringId) (stringByte bindings stringId)
    (bindings.stringMeta stringId).byteLen output

def writerPushRequestRange (requestIndex byteStart byteLen : UInt32) (output : Output) : Output :=
  pushRange bindings.params
    (fun byteIndex => requestWord bindings requestIndex (byteStart + byteIndex))
    (fun byteIndex => requestByte bindings requestIndex (byteStart + byteIndex)) byteLen output

end Strings

/-- The loop of `decimal_width`. -/
def decimalWidthFrom (width remaining : UInt32) : UInt32 :=
  if remaining ≥ 10 then decimalWidthFrom (width + 1) (remaining / 10) else width
termination_by remaining.toNat
decreasing_by
  rename_i h
  have hle : 10 ≤ remaining.toNat := UInt32.le_iff_toNat_le.mp h
  rw [div_ten_toNat]
  omega

def decimalWidth (value : UInt32) : UInt32 :=
  decimalWidthFrom 1 value

/-- A weight that leaves two digits grows, and stays a word. -/
theorem times_ten_toNat {value divisor : UInt32} (h : value / divisor ≥ 10) :
    0 < divisor.toNat ∧ (divisor * 10).toNat = 10 * divisor.toNat ∧
      10 * divisor.toNat ≤ value.toNat := by
  have hdiv : 10 ≤ value.toNat / divisor.toNat := by
    rw [← UInt32.toNat_div]
    exact UInt32.le_iff_toNat_le.mp h
  have hpos : 0 < divisor.toNat := by
    rcases Nat.eq_zero_or_pos divisor.toNat with hzero | hpos
    · rw [hzero, Nat.div_zero] at hdiv
      omega
    · exact hpos
  have hle : 10 * divisor.toNat ≤ value.toNat := (Nat.le_div_iff_mul_le hpos).mp hdiv
  have hvalue := value.toNat_lt
  refine ⟨hpos, ?_, hle⟩
  rw [UInt32.toNat_mul, show (10 : UInt32).toNat = 10 from rfl, Nat.mod_eq_of_lt (by omega),
    Nat.mul_comm]

/-- The loop that finds the weight of the first digit. -/
def growDivisor (value divisor : UInt32) : UInt32 :=
  if value / divisor ≥ 10 then growDivisor value (divisor * 10) else divisor
termination_by value.toNat - divisor.toNat
decreasing_by
  rename_i h
  have := times_ten_toNat h
  omega

/-- The loop that pushes the digits.  The weights are powers of ten, so a weight
that is not above one is one. -/
def pushDigits (params : Params) (value divisor : UInt32) (output : Output) : Output :=
  let output := writerPushByte params output (48 + value / divisor % 10)
  if divisor ≤ 1 then output else pushDigits params value (divisor / 10) output
termination_by divisor.toNat
decreasing_by
  rename_i h
  have hlt : 1 < divisor.toNat := UInt32.lt_iff_toNat_lt.mp (UInt32.not_le.mp h)
  rw [div_ten_toNat]
  omega

def writerPushDecimal (params : Params) (value : UInt32) (output : Output) : Output :=
  pushDigits params value (growDivisor value 1) output

def writerFinish (params : Params) (output : Output) (status : UInt32) (storage : Storage) :
    Storage :=
  let writer := output.writer
  if writer.flags ≠ 0 then
    { responseMeta := Function.update storage.responseMeta writer.requestIndex
        ⟨0, 500, writer.flags⟩
      outputWords := output.words }
  else
    { responseMeta := Function.update storage.responseMeta writer.requestIndex
        ⟨writer.cursor, status, 0⟩
      outputWords :=
        if writer.cursor &&& 3 ≠ 0 then
          Function.update output.words
            (writer.requestIndex * params.responseStrideWords + writer.cursor / 4) writer.pending
        else output.words }

section Responses

variable (bindings : Bindings)

/-- The bytes `response_body_len` counts for an operation. -/
def operationLen (opcode arg0 arg1 : UInt32) (target : RequestTarget) : UInt32 :=
  if opcode = bodyOpLiteral then (bindings.stringMeta arg0).byteLen
  else if opcode = bodyOpPath then min target.pathLen arg0
  else if opcode = bodyOpQuery then min target.queryLen arg0
  else if opcode = bodyOpBackend then (bindings.stringMeta bindings.ids.backendGpu).byteLen
  else if opcode = bodyOpRequestBytes then decimalWidth target.inputLen
  else if opcode = bodyOpPathHash then decimalWidth target.pathHash
  else if opcode = bodyOpBackendVariant then (bindings.stringMeta arg1).byteLen
  else 0

/-- What `write_response_body` does for an operation. -/
def writeOperation (requestIndex opcode arg0 arg1 : UInt32) (target : RequestTarget)
    (output : Output) : Output :=
  if opcode = bodyOpLiteral then writerPushString bindings arg0 output
  else if opcode = bodyOpPath then
    writerPushRequestRange bindings requestIndex target.pathStart (min target.pathLen arg0) output
  else if opcode = bodyOpQuery then
    writerPushRequestRange bindings requestIndex target.queryStart (min target.queryLen arg0) output
  else if opcode = bodyOpBackend then writerPushString bindings bindings.ids.backendGpu output
  else if opcode = bodyOpRequestBytes then
    writerPushDecimal bindings.params target.inputLen output
  else if opcode = bodyOpPathHash then
    writerPushDecimal bindings.params target.pathHash output
  else if opcode = bodyOpBackendVariant then writerPushString bindings arg1 output
  else writerFail output responseFlagInvalidProgram

/-- A `for` loop over the operations of a program. -/
def forOperations {α : Type} (programOffset operationCount : UInt32)
    (step : UInt32 → UInt32 → UInt32 → α → α) (operationIndex : UInt32) (state : α) : α :=
  if operationIndex < operationCount then
    forOperations programOffset operationCount step (operationIndex + 1)
      (step (bodyOpWord bindings programOffset operationIndex bodyOpCode)
        (bodyOpWord bindings programOffset operationIndex bodyOpArg0)
        (bodyOpWord bindings programOffset operationIndex bodyOpArg1) state)
  else state
termination_by operationCount.toNat - operationIndex.toNat
decreasing_by
  rename_i h
  have := succ_toNat h
  have := UInt32.lt_iff_toNat_lt.mp h
  omega

def responseBodyLen (responseOffset : UInt32) (target : RequestTarget) : UInt32 :=
  let programOffset := responseWord bindings responseOffset responseProgramOffset
  let operationCount := responseWord bindings responseOffset responseProgramLen
  forOperations bindings programOffset operationCount
    (fun opcode arg0 arg1 bodyLen => bodyLen + operationLen bindings opcode arg0 arg1 target) 0 0

def writeResponseBody (requestIndex responseOffset : UInt32) (target : RequestTarget)
    (output : Output) : Output :=
  let programOffset := responseWord bindings responseOffset responseProgramOffset
  let operationCount := responseWord bindings responseOffset responseProgramLen
  forOperations bindings programOffset operationCount
    (fun opcode arg0 arg1 output =>
      writeOperation bindings requestIndex opcode arg0 arg1 target output) 0 output

def writeResponse (requestIndex responseOffset : UInt32) (target : RequestTarget)
    (storage : Storage) : Storage :=
  let status := responseWord bindings responseOffset responseStatus
  let reasonStringId := responseWord bindings responseOffset responseReasonString
  let contentTypeStringId := responseWord bindings responseOffset responseContentTypeString
  let bodyLen := responseBodyLen bindings responseOffset target
  let output : Output := ⟨writerNew requestIndex, storage.outputWords⟩
  let output := writerPushString bindings bindings.ids.httpVersion output
  let output := writerPushDecimal bindings.params status output
  let output := writerPushByte bindings.params output 32
  let output := writerPushString bindings reasonStringId output
  let output := writerPushString bindings bindings.ids.headerContentType output
  let output := writerPushString bindings contentTypeStringId output
  let output := writerPushString bindings bindings.ids.headerContentLength output
  let output := writerPushDecimal bindings.params bodyLen output
  let output := writerPushString bindings bindings.ids.headerTail output
  let output := writeResponseBody bindings requestIndex responseOffset target output
  writerFinish bindings.params output status storage

end Responses

section RequestLine

variable (bindings : Bindings) (requestIndex inputLen : UInt32)

def isGetRequest : Bool :=
  if inputLen < 4 then false else requestWord bindings requestIndex 0 = 0x20544547

def hasSupportedHttpVersion (versionStart : UInt32) : Bool :=
  let byteAt (offset : UInt32) : UInt32 := requestByte bindings requestIndex (versionStart + offset)
  if versionStart + 8 ≥ inputLen then false
  else if ¬ (byteAt 0 = 72 ∧ byteAt 1 = 84 ∧ byteAt 2 = 84 ∧ byteAt 3 = 80 ∧ byteAt 4 = 47 ∧
      byteAt 5 = 49 ∧ byteAt 6 = 46 ∧ (byteAt 7 = 48 ∨ byteAt 7 = 49)) then false
  else if byteAt 8 = 10 then true
  else byteAt 8 = 13 ∧ versionStart + 9 < inputLen ∧ byteAt 9 = 10

def invalidTarget : RequestTarget :=
  ⟨0, 0, 0, 0, 0, inputLen, 0⟩

/-- The variables of the loop of `parse_get_target`. -/
structure TargetScan where
  cursor : UInt32
  pathHash : UInt32
  pathLen : UInt32
  queryStart : UInt32
  queryLen : UInt32
  inQuery : Bool
  foundTargetEnd : Bool
deriving DecidableEq, Repr

/-- One byte that is not the end of the target. -/
def TargetScan.step (scan : TargetScan) (byte : UInt32) : TargetScan :=
  if scan.inQuery = false then
    if byte = 63 then
      { scan with inQuery := true, queryStart := scan.cursor + 1, cursor := scan.cursor + 1 }
    else
      { scan with
        pathHash := (scan.pathHash ^^^ byte) * fnvPrime
        pathLen := scan.pathLen + 1
        cursor := scan.cursor + 1 }
  else { scan with queryLen := scan.queryLen + 1, cursor := scan.cursor + 1 }

theorem TargetScan.step_cursor (scan : TargetScan) (byte : UInt32) :
    (scan.step byte).cursor = scan.cursor + 1 := by
  rw [TargetScan.step]
  split
  · split <;> rfl
  · rfl

/-- The loop of `parse_get_target`. -/
def scanTarget (scan : TargetScan) : TargetScan :=
  if scan.cursor < inputLen then
    let byte := requestByte bindings requestIndex scan.cursor
    if byte = 32 then { scan with foundTargetEnd := true } else scanTarget (scan.step byte)
  else scan
termination_by inputLen.toNat - scan.cursor.toNat
decreasing_by
  rename_i h _
  have := succ_toNat h
  have := UInt32.lt_iff_toNat_lt.mp h
  rw [TargetScan.step_cursor]
  omega

def parseGetTarget : RequestTarget :=
  if inputLen ≤ 4 ∨ requestByte bindings requestIndex 4 ≠ 47 then invalidTarget inputLen
  else
    let scan := scanTarget bindings requestIndex inputLen ⟨4, fnvOffsetBasis, 0, 0, 0, false, false⟩
    if scan.foundTargetEnd = false ∨ scan.pathLen = 0 then invalidTarget inputLen
    else if hasSupportedHttpVersion bindings requestIndex inputLen (scan.cursor + 1) = false then
      invalidTarget inputLen
    else
      { pathStart := 4
        pathLen := scan.pathLen
        queryStart := if scan.inQuery = false then scan.cursor else scan.queryStart
        queryLen := scan.queryLen
        pathHash := scan.pathHash
        inputLen := inputLen
        valid := 1 }

end RequestLine

/-- The loop that compares whole words: where it ends, unless two words differ. -/
def matchWords (left right : UInt32 → UInt32) (len byteIndex : UInt32) : Option UInt32 :=
  if len - byteIndex ≥ 4 then
    if left byteIndex ≠ right byteIndex then none else matchWords left right len (byteIndex + 4)
  else some byteIndex
termination_by (len - byteIndex).toNat
decreasing_by
  rename_i h _
  have := four_le h
  omega

/-- The loop that compares what is left byte by byte. -/
def matchBytes (left right : UInt32 → UInt32) (len byteIndex : UInt32) : Bool :=
  if byteIndex < len then
    if left byteIndex ≠ right byteIndex then false else matchBytes left right len (byteIndex + 1)
  else true
termination_by len.toNat - byteIndex.toNat
decreasing_by
  rename_i h _
  have := succ_toNat h
  have := UInt32.lt_iff_toNat_lt.mp h
  omega

section Routes

variable (bindings : Bindings) (requestIndex : UInt32) (target : RequestTarget)

def routeMatches (routeIndex : UInt32) : Bool :=
  if routeWord bindings routeIndex routePathHash ≠ target.pathHash ∨
      routeWord bindings routeIndex routePathLen ≠ target.pathLen then false
  else
    let routeStringId := routeWord bindings routeIndex routePathString
    match matchWords (fun i => requestWord bindings requestIndex (target.pathStart + i))
        (stringWord bindings routeStringId) target.pathLen 0 with
    | none => false
    | some byteIndex =>
        matchBytes (fun i => requestByte bindings requestIndex (target.pathStart + i))
          (stringByte bindings routeStringId) target.pathLen byteIndex

/-- The middle of a range that is not empty lies in it. -/
theorem middle_toNat {lower upper : UInt32} (h : lower < upper) :
    lower.toNat ≤ (lower + (upper - lower) / 2).toNat ∧
      (lower + (upper - lower) / 2).toNat < upper.toNat := by
  have hlt := UInt32.lt_iff_toNat_lt.mp h
  have hupper := upper.toNat_lt
  have hhalf : ((upper - lower) / 2).toNat = (upper.toNat - lower.toNat) / 2 := by
    rw [UInt32.toNat_div, UInt32.toNat_sub_of_le _ _ (UInt32.le_of_lt h)]
    rfl
  rw [UInt32.toNat_add, hhalf, Nat.mod_eq_of_lt (by omega)]
  omega

/-- The binary search of `find_response_offset`. -/
def lowerBound (lower upper : UInt32) : UInt32 :=
  if lower < upper then
    let middle := lower + (upper - lower) / 2
    if routeWord bindings middle routePathHash < target.pathHash then lowerBound (middle + 1) upper
    else lowerBound lower middle
  else lower
termination_by upper.toNat - lower.toNat
decreasing_by
  · rename_i h _
    have hmiddle := middle_toNat h
    rw [succ_toNat (UInt32.lt_iff_toNat_lt.mpr hmiddle.2)]
    omega
  · rename_i h _
    have hmiddle := middle_toNat h
    omega

/-- The loop of `find_response_offset` over the routes of a hash. -/
def probeRoutes (routeIndex : UInt32) : UInt32 :=
  if routeIndex < bindings.params.routeCount then
    if routeWord bindings routeIndex routePathHash ≠ target.pathHash then
      bindings.params.fallbackResponseOffset
    else if routeMatches bindings requestIndex target routeIndex then
      routeWord bindings routeIndex routeResponseOffset
    else probeRoutes (routeIndex + 1)
  else bindings.params.fallbackResponseOffset
termination_by bindings.params.routeCount.toNat - routeIndex.toNat
decreasing_by
  rename_i h _ _
  have := succ_toNat h
  have := UInt32.lt_iff_toNat_lt.mp h
  omega

def findResponseOffset : UInt32 :=
  probeRoutes bindings requestIndex target (lowerBound bindings target 0 bindings.params.routeCount)

end Routes

/-- `process_requests`, for the invocation `requestIndex`. -/
def processRequests (bindings : Bindings) (requestIndex : UInt32) (storage : Storage) : Storage :=
  if requestIndex ≥ bindings.params.requestCount then storage
  else
    let inputLen := (bindings.requestMeta requestIndex).inputLen
    if inputLen < 4 then
      writeResponse bindings requestIndex bindings.params.badRequestResponseOffset
        (invalidTarget inputLen) storage
    else if isGetRequest bindings requestIndex inputLen = false then
      writeResponse bindings requestIndex bindings.params.methodNotAllowedResponseOffset
        (invalidTarget inputLen) storage
    else
      let target := parseGetTarget bindings requestIndex inputLen
      if target.valid = 0 then
        writeResponse bindings requestIndex bindings.params.badRequestResponseOffset target storage
      else
        writeResponse bindings requestIndex (findResponseOffset bindings requestIndex target) target
          storage

end Shader
end Http
end Gput
