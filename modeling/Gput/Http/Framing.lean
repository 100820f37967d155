import Gput.Library.Decimal
import Gput.Http.Compiled
import Gput.Http.Network

/-!
# Cutting pipelined responses

`response_frame_len` of the benchmark client against the responses the server
writes.  A response is a block of header lines, an empty line and a body; the
lines come from checked texts, so the first empty line is the end of the header
whatever the body holds.
-/

namespace Gput
namespace Http

open ByteString AsciiText Decimal Delimited

def isUtf8 (text : List UInt8) : Bool :=
  text.toByteArray.validateUTF8

/-- The value of a line that names the content length. -/
def contentLengthValue (line : List UInt8) : Option (List UInt8) :=
  match line.findIdx? (· == 58) with
  | none => none
  | some colon =>
      if eqIgnoreCase (line.take colon) (ascii "content-length") then
        some (trim (line.drop (colon + 1)))
      else none

/-- The loop of `response_content_length` over the stripped lines. -/
def contentLengthOf : List (List UInt8) → Outcome Nat
  | [] => .err "response has no Content-Length header"
  | line :: lines =>
      match contentLengthValue line with
      | none => contentLengthOf lines
      | some value => do
          Outcome.ensure (isUtf8 value) "Content-Length is not ASCII"
          match parseUnsigned (2 ^ 64) value with
          | none => .err "invalid Content-Length response header"
          | some contentLength => return contentLength

/-- The header lines behind the first. -/
def headerLines (headers : List UInt8) : List (List UInt8) :=
  ((headers.splitOn 10).drop 1).map (stripLast 13)

/-- `response_content_length`. -/
def responseContentLength (headers : List UInt8) : Outcome Nat :=
  contentLengthOf (headerLines headers)

/-- `response_frame_len`. -/
def responseFrameLen (buffer : List UInt8) (maxResponseBytes : Nat) : Outcome (Option Nat) :=
  match completeHeaderLen buffer with
  | none => do
      Outcome.ensure (buffer.length ≤ maxResponseBytes)
        s!"response headers exceeded {maxResponseBytes} bytes"
      return none
  | some headerEnd => do
      let contentLength ←
        responseContentLength (buffer.take (headerEnd - headerTerminator.length))
      Outcome.ensure (headerEnd + contentLength < 2 ^ 64) "response length overflowed"
      Outcome.ensure (headerEnd + contentLength ≤ maxResponseBytes)
        s!"response exceeded {maxResponseBytes} bytes"
      return if buffer.length ≥ headerEnd + contentLength then some (headerEnd + contentLength)
        else none

/-- Repeated application of `response_frame_len`: the complete responses at the
front of a buffer, and what stands behind them. -/
def cutResponses (maxResponseBytes : Nat) (buffer : List UInt8) :
    Outcome (List (List UInt8) × List UInt8) :=
  match responseFrameLen buffer maxResponseBytes with
  | .ok (some n) =>
      if 0 < n ∧ 0 < buffer.length then
        match cutResponses maxResponseBytes (buffer.drop n) with
        | .ok (later, rest) => .ok (buffer.take n :: later, rest)
        | .err message => .err message
        | .panic => .panic
      else .ok ([], buffer)
  | .ok none => .ok ([], buffer)
  | .err message => .err message
  | .panic => .panic
termination_by buffer.length
decreasing_by
  rw [List.length_drop]
  omega

/-- A frame that was found stays, whatever arrives behind it. -/
theorem responseFrameLen_append {buffer : List UInt8} {maxResponseBytes n : Nat}
    (h : responseFrameLen buffer maxResponseBytes = .ok (some n)) (more : List UInt8) :
    responseFrameLen (buffer ++ more) maxResponseBytes = .ok (some n) := by
  unfold responseFrameLen at h ⊢
  cases hheader : completeHeaderLen buffer with
  | none =>
      rw [hheader] at h
      obtain ⟨_, -, h⟩ := Outcome.bind_eq_ok.mp h
      cases h
  | some headerEnd =>
      have happend : completeHeaderLen (buffer ++ more) = some headerEnd :=
        frameLen_append hheader more
      have hle := (frameLen_le hheader).2
      rw [hheader] at h
      rw [happend]
      simp only at h ⊢
      rw [List.take_append_of_le_length (by omega)]
      obtain ⟨contentLength, hcontent, h⟩ := Outcome.bind_eq_ok.mp h
      obtain ⟨_, hoverflow, h⟩ := Outcome.bind_eq_ok.mp h
      obtain ⟨_, hmax, h⟩ := Outcome.bind_eq_ok.mp h
      rw [hcontent, Outcome.ok_bind, hoverflow, Outcome.ok_bind, hmax, Outcome.ok_bind]
      have hlong : buffer.length ≥ headerEnd + contentLength := by
        by_contra hshort
        rw [if_neg hshort] at h
        cases h
      rw [if_pos hlong] at h
      rw [if_pos (by rw [List.length_append]; omega)]
      exact h

section Blocks

/-- A line that can stand in a header. -/
structure HeaderLine (line : List UInt8) : Prop where
  ne_nil : line ≠ []
  one_line : 13 ∉ line ∧ 10 ∉ line

/-- Lines between which a line break stands. -/
def headerText : List (List UInt8) → List UInt8
  | [] => []
  | [line] => line
  | line :: next :: lines => line ++ 13 :: 10 :: headerText (next :: lines)

/-- Before the first byte of the terminator there is nothing to find. -/
theorem windowPosition_skip {line rest : List UInt8} {x : UInt8} (pattern : List UInt8)
    (hline : x ∉ line) :
    windowPosition (x :: pattern) (line ++ rest) =
      (windowPosition (x :: pattern) rest).map (· + line.length) := by
  induction line with
  | nil => simp
  | cons byte line ih =>
      rw [List.mem_cons, not_or] at hline
      have hne : (x == byte) = false := by simpa using hline.1
      rw [List.cons_append, windowPosition, List.isPrefixOf, hne, Bool.false_and, ih hline.2]
      simp [Option.map_map, Function.comp_def, Nat.add_assoc]

/-- A break in front of a text is not the terminator. -/
theorem windowPosition_break {byte : UInt8} (hbyte : byte ≠ 13) (rest : List UInt8) :
    windowPosition headerTerminator (13 :: 10 :: byte :: rest) =
      (windowPosition headerTerminator (byte :: rest)).map (· + 2) := by
  have hne : ((13 : UInt8) == byte) = false := by simpa using Ne.symm hbyte
  rw [headerTerminator, windowPosition, windowPosition]
  simp only [List.isPrefixOf, hne, Bool.false_and, Bool.and_false, Bool.false_eq_true, if_false,
    show ((13 : UInt8) == 10) = false from rfl, Option.map_map, Function.comp_def,
    Nat.add_assoc, Nat.reduceAdd]

/-- A block of lines starts with a text. -/
theorem headerText_cons {line : List UInt8} (hline : HeaderLine line) (lines : List (List UInt8)) :
    ∃ byte text, headerText (line :: lines) = byte :: text ∧ byte ≠ 13 := by
  cases line with
  | nil => exact absurd rfl hline.ne_nil
  | cons byte line =>
      have hbyte : byte ≠ 13 := fun heq => hline.one_line.1 (by rw [heq]; exact List.mem_cons_self)
      cases lines with
      | nil => exact ⟨byte, line, rfl, hbyte⟩
      | cons next lines => exact ⟨byte, _, rfl, hbyte⟩

/-- The first empty line of a block is its end. -/
theorem windowPosition_headerText {lines : List (List UInt8)} (hne : lines ≠ [])
    (hlines : ∀ line ∈ lines, HeaderLine line) (rest : List UInt8) :
    windowPosition headerTerminator (headerText lines ++ (headerTerminator ++ rest)) =
      some (headerText lines).length := by
  induction lines with
  | nil => exact absurd rfl hne
  | cons line lines ih =>
      have hline := hlines line List.mem_cons_self
      have hskip (behind : List UInt8) : windowPosition headerTerminator (line ++ behind) =
          (windowPosition headerTerminator behind).map (· + line.length) :=
        windowPosition_skip _ hline.one_line.1
      cases lines with
      | nil =>
          rw [headerText, hskip]
          simp [windowPosition, headerTerminator]
      | cons next lines =>
          have ih := ih (List.cons_ne_nil _ _)
            (fun other hmem => hlines other (List.mem_cons_of_mem _ hmem))
          obtain ⟨byte, text, htext, hbyte⟩ := headerText_cons (hlines next (by simp)) lines
          rw [headerText, List.append_assoc, hskip]
          rw [htext] at ih ⊢
          simp only [List.cons_append] at ih ⊢
          rw [windowPosition_break hbyte, ih]
          simp only [Option.map_some, List.length_append, List.length_cons]
          congr 1
          omega

/-- A block splits into its lines. -/
theorem splitOn_headerText {line : List UInt8} {lines : List (List UInt8)}
    (hlines : ∀ other ∈ line :: lines, HeaderLine other) :
    ((headerText (line :: lines)).splitOn 10).map (stripLast 13) = line :: lines := by
  have hstrip {other : List UInt8} (hother : HeaderLine other) : stripLast 13 other = other := by
    rw [stripLast, if_neg]
    intro hlast
    exact hother.one_line.1 (List.mem_of_getLast? hlast)
  induction lines generalizing line with
  | nil =>
      have hline := hlines line List.mem_cons_self
      rw [headerText, List.splitOn_eq_singleton_of_beq_eq_false, List.map_singleton, hstrip hline]
      intro byte hmem
      simpa using fun heq => hline.one_line.2 (by rw [← heq]; exact hmem)
  | cons next lines ih =>
      have hline := hlines line List.mem_cons_self
      have hbreak : 10 ∉ line ++ [13] := by
        rw [List.mem_append, not_or]
        exact ⟨hline.one_line.2, by decide⟩
      have hsplit : headerText (line :: next :: lines) =
          (line ++ [13]) ++ 10 :: headerText (next :: lines) := by
        rw [headerText, List.append_assoc]
        rfl
      rw [hsplit, List.splitOn_append_cons_self_of_not_mem hbreak, List.map_cons,
        stripLast_append, ih (fun other hmem => hlines other (List.mem_cons_of_mem _ hmem))]

theorem headerLines_headerText {line : List UInt8} {lines : List (List UInt8)}
    (hlines : ∀ other ∈ line :: lines, HeaderLine other) :
    headerLines (headerText (line :: lines)) = lines := by
  rw [headerLines, List.map_drop, splitOn_headerText hlines]
  rfl

end Blocks

/-- A line that names a header. -/
theorem contentLengthValue_named {name value : List UInt8} (hname : 58 ∉ name) :
    contentLengthValue (name ++ 58 :: value) =
      if eqIgnoreCase name (ascii "content-length") then some (trim value) else none := by
  rw [contentLengthValue, findIdx?_append_cons hname]
  simp only
  rw [List.take_left, drop_append_cons]

/-- Digits are valid UTF-8: each is the encoding of its character. -/
theorem isUtf8_of_isDigits {text : List UInt8} (h : IsDigits text) : isUtf8 text = true := by
  have hencode {byte : UInt8} (hbyte : 48 ≤ byte.toNat ∧ byte.toNat ≤ 57) :
      String.utf8EncodeChar (Char.ofNat byte.toNat) = [byte] := by
    have hchar : (Char.ofNat byte.toNat).val.toNat = byte.toNat := by
      rw [Char.ofNat, dif_pos (Or.inl (by omega))]
      rfl
    rw [String.utf8EncodeChar, hchar, if_pos (by omega), UInt8.ofNat_toNat]
  have hall : (text.map fun byte => Char.ofNat byte.toNat).flatMap String.utf8EncodeChar = text := by
    induction text with
    | nil => rfl
    | cons byte text ih =>
        rw [List.map_cons, List.flatMap_cons, hencode (h byte List.mem_cons_self),
          ih (fun other hmem => h other (List.mem_cons_of_mem _ hmem))]
        rfl
  rw [isUtf8, ByteArray.validateUTF8_eq_true_iff]
  refine ByteArray.IsValidUTF8.intro (text.map fun byte => Char.ofNat byte.toNat) ?_
  rw [List.utf8Encode, hall]

/-- The lines of the header `build_response` writes. -/
def responseLines (status : UInt16) (reason contentType : List UInt8) (bodyLen : Nat)
    (backend : List UInt8) : List (List UInt8) :=
  [ascii "HTTP/1.1 " ++ decimal status.toNat ++ ascii " " ++ reason,
    ascii "Content-Type: " ++ contentType,
    ascii "Content-Length: " ++ decimal bodyLen,
    ascii "Server: gput",
    ascii "X-Gput-Backend: " ++ backend]

theorem responseHeaders_eq (status : UInt16) (reason contentType : List UInt8) (bodyLen : Nat)
    (backend : List UInt8) :
    responseHeaders status reason contentType bodyLen backend =
      headerText (responseLines status reason contentType bodyLen backend) ++ headerTerminator := by
  have hbreak : ascii "\r\n" = [13, 10] := by decide
  have hserver : ascii "Server: gput\r\n" = ascii "Server: gput" ++ [13, 10] := by decide
  simp only [responseHeaders, responseLines, headerText, headerTerminator, hbreak, hserver,
    List.append_assoc, List.cons_append, List.nil_append]

/-- Printable text without line breaks. -/
theorem HeaderValue.one_line {text : Text} (h : HeaderValue text) : 13 ∉ text ∧ 10 ∉ text := by
  constructor
  · intro hmem
    exact absurd (h.printable 13 hmem).2 (by decide)
  · intro hmem
    exact absurd (h.printable 10 hmem).2 (by decide)

theorem not_mem_decimal {byte : UInt8} (hbyte : byte.toNat < 48) (n : Nat) : byte ∉ decimal n := by
  intro hmem
  have := (isDigits_decimal n byte hmem).1
  omega

section ResponseLines

variable {reason contentType backend : List UInt8} (status : UInt16) (bodyLen : Nat)

theorem headerLine_responseLines (hreason : HeaderValue reason)
    (hcontent : HeaderValue contentType) (hbackend : HeaderValue backend) :
    ∀ line ∈ responseLines status reason contentType bodyLen backend, HeaderLine line := by
  have named {name value : List UInt8} (hname : HeaderLine name) (hvalue : 13 ∉ value ∧ 10 ∉ value) :
      HeaderLine (name ++ value) := by
    refine ⟨fun hnil => hname.ne_nil (List.append_eq_nil_iff.mp hnil).1, ?_, ?_⟩
    · rw [List.mem_append, not_or]
      exact ⟨hname.one_line.1, hvalue.1⟩
    · rw [List.mem_append, not_or]
      exact ⟨hname.one_line.2, hvalue.2⟩
  have hdigits (n : Nat) : 13 ∉ decimal n ∧ 10 ∉ decimal n :=
    ⟨not_mem_decimal (by decide) n, not_mem_decimal (by decide) n⟩
  intro line hmem
  simp only [responseLines, List.mem_cons, List.not_mem_nil, or_false] at hmem
  rcases hmem with rfl | rfl | rfl | rfl | rfl
  · exact named (named (named ⟨by decide, by decide⟩ (hdigits _)) (by decide)) hreason.one_line
  · exact named ⟨by decide, by decide⟩ hcontent.one_line
  · exact named ⟨by decide, by decide⟩ (hdigits _)
  · exact ⟨by decide, by decide⟩
  · exact named ⟨by decide, by decide⟩ hbackend.one_line

/-- Only one of the lines names a content length. -/
theorem contentLengthValues (reason contentType backend : List UInt8) :
    ((responseLines status reason contentType bodyLen backend).drop 1).map contentLengthValue =
      [none, some (decimal bodyLen), none, none] := by
  have hline {label : List UInt8} (name value : List UInt8) (hlabel : label = name ++ [58, 32])
      (hname : 58 ∉ name) : contentLengthValue (label ++ value) =
        if eqIgnoreCase name (ascii "content-length") then some (trim (32 :: value)) else none := by
    rw [hlabel, List.append_assoc]
    exact contentLengthValue_named hname
  have htype : contentLengthValue (ascii "Content-Type: " ++ contentType) = none := by
    rw [hline (ascii "Content-Type") contentType (by decide) (by decide), if_neg (by decide)]
  have hlength : contentLengthValue (ascii "Content-Length: " ++ decimal bodyLen) =
      some (decimal bodyLen) := by
    have htrim : trim (decimal bodyLen) = decimal bodyLen := by
      refine trim_eq_self fun byte hmem => ?_
      have hbyte := (isDigits_decimal bodyLen byte hmem).1
      simp only [isWhitespace, Bool.or_eq_false_iff, beq_eq_false_iff_ne, ne_eq,
        ← UInt8.toNat_inj, UInt8.reduceToNat]
      omega
    rw [hline (ascii "Content-Length") (decimal bodyLen) (by decide) (by decide),
      if_pos (by decide), trim_cons (by decide), htrim]
  have hserver : contentLengthValue (ascii "Server: gput") = none := by decide
  have hbackend : contentLengthValue (ascii "X-Gput-Backend: " ++ backend) = none := by
    rw [hline (ascii "X-Gput-Backend") backend (by decide) (by decide), if_neg (by decide)]
  simp only [responseLines, List.drop_succ_cons, List.drop_zero, List.map_cons, List.map_nil,
    htype, hlength, hserver, hbackend]

end ResponseLines

/-- The content length is read from the only line that names one. -/
theorem contentLengthOf_eq {lines : List (List UInt8)} {n : Nat}
    (h : lines.filterMap contentLengthValue = [decimal n]) (hn : n < 2 ^ 64) :
    contentLengthOf lines = .ok n := by
  induction lines with
  | nil => cases h
  | cons line lines ih =>
      rw [contentLengthOf]
      cases hvalue : contentLengthValue line with
      | none =>
          rw [List.filterMap_cons_none hvalue] at h
          exact ih h
      | some value =>
          rw [List.filterMap_cons_some hvalue] at h
          rw [(List.cons.inj h).1]
          simp only
          rw [Outcome.ensure_of _ (isUtf8_of_isDigits (isDigits_decimal n)),
            parseUnsigned_decimal hn]
          rfl

/-- A header that ends at its first empty line and announces once how many bytes
of body follow. -/
structure WellFramed (header body : List UInt8) : Prop where
  framed : completeHeaderLen (header ++ body) = some header.length
  once : ((headerLines (header.take (header.length - headerTerminator.length))).filterMap
    contentLengthValue).length = 1
  announced : responseContentLength (header.take (header.length - headerTerminator.length)) =
    .ok body.length

theorem wellFramed_responseHeaders {reason contentType backend body : List UInt8}
    (hreason : HeaderValue reason) (hcontent : HeaderValue contentType)
    (hbackend : HeaderValue backend) (status : UInt16) (hbody : body.length < 2 ^ 64) :
    WellFramed (responseHeaders status reason contentType body.length backend) body := by
  have hlines := headerLine_responseLines status body.length hreason hcontent hbackend
  have hvalues := contentLengthValues status body.length reason contentType backend
  have hne : responseLines status reason contentType body.length backend ≠ [] :=
    List.cons_ne_nil _ _
  have hposition := windowPosition_headerText hne hlines body
  have hdrop : headerLines
      (headerText (responseLines status reason contentType body.length backend)) =
        (responseLines status reason contentType body.length backend).drop 1 :=
    headerLines_headerText hlines
  rw [← hdrop] at hvalues
  rw [responseHeaders_eq]
  generalize headerText (responseLines status reason contentType body.length backend) = text at *
  have htake : (text ++ headerTerminator).take
      ((text ++ headerTerminator).length - headerTerminator.length) = text := by
    rw [List.length_append, Nat.add_sub_cancel, List.take_left]
  have hfilter : (headerLines text).filterMap contentLengthValue = [decimal body.length] := by
    have h := congrArg (List.filterMap id) hvalues
    rw [List.filterMap_map] at h
    exact h
  refine ⟨?_, ?_, ?_⟩
  · rw [completeHeaderLen, List.append_assoc, hposition, List.length_append]
    rfl
  · rw [htake, hfilter]
    rfl
  · rw [htake]
    exact contentLengthOf_eq hfilter hbody

section Frames

variable {header body : List UInt8} {maxResponseBytes : Nat}

theorem WellFramed.length_lt (hbound : maxResponseBytes < 2 ^ 64)
    (hmax : (header ++ body).length ≤ maxResponseBytes) :
    header.length + body.length < 2 ^ 64 := by
  rw [List.length_append] at hmax
  omega

/-- With the whole header in the buffer, the frame is complete when the body is. -/
theorem WellFramed.frameLen_header (h : WellFramed header body) (hbound : maxResponseBytes < 2 ^ 64)
    (hmax : (header ++ body).length ≤ maxResponseBytes) {buffer : List UInt8}
    (hbuffer : completeHeaderLen buffer = some header.length)
    (htake : buffer.take header.length = header) :
    responseFrameLen buffer maxResponseBytes =
      .ok (if buffer.length ≥ header.length + body.length then some (header.length + body.length)
        else none) := by
  have hlong := WellFramed.length_lt hbound hmax
  rw [List.length_append] at hmax
  have hslice (k : Nat) (hk : k ≤ header.length) : buffer.take k = header.take k := by
    conv_rhs => rw [← htake, List.take_take, Nat.min_eq_left hk]
  unfold responseFrameLen
  rw [hbuffer]
  simp only
  rw [hslice _ (Nat.sub_le _ _), h.announced, Outcome.ok_bind, Outcome.ensure_of _ hlong,
    Outcome.ensure_of _ hmax]
  rfl

/-- A whole response in front of a buffer is found. -/
theorem WellFramed.frameLen_eq (h : WellFramed header body) (hbound : maxResponseBytes < 2 ^ 64)
    (hmax : (header ++ body).length ≤ maxResponseBytes) (more : List UInt8) :
    responseFrameLen (header ++ body ++ more) maxResponseBytes =
      .ok (some (header ++ body).length) := by
  have hframe := h.frameLen_header hbound hmax h.framed List.take_left
  rw [List.length_append, if_pos (le_refl _)] at hframe
  rw [List.length_append]
  exact responseFrameLen_append hframe more

/-- A proper prefix of a response is not yet a frame. -/
theorem WellFramed.frameLen_extended (h : WellFramed header body)
    (hbound : maxResponseBytes < 2 ^ 64) (hmax : (header ++ body).length ≤ maxResponseBytes)
    {part : List UInt8} (hextends : part <+: header ++ body) (hproper : part ≠ header ++ body) :
    responseFrameLen part maxResponseBytes = .ok none := by
  obtain ⟨more, hmore⟩ := hextends
  have hne : more ≠ [] := by
    rintro rfl
    exact hproper (by rw [← hmore, List.append_nil])
  have hpos := List.length_pos_of_ne_nil hne
  have hlength := congrArg List.length hmore
  rw [List.length_append, List.length_append] at hlength
  rw [List.length_append] at hmax
  cases hheader : completeHeaderLen part with
  | none =>
      unfold responseFrameLen
      rw [hheader]
      simp only
      rw [Outcome.ensure_of _ (by omega)]
      rfl
  | some n =>
      have hwhole : completeHeaderLen (header ++ body) = some n := by
        rw [← hmore]
        exact frameLen_append hheader more
      have hn : n = header.length := Option.some.inj (hwhole.symm.trans h.framed)
      rw [hn] at hheader
      have hle := (frameLen_le hheader).2
      have htake : part.take header.length = header := by
        have hpart := @List.take_append_of_le_length _ part more _ hle
        rw [← hpart, hmore, List.take_left]
      rw [h.frameLen_header hbound (by rw [List.length_append]; exact hmax) hheader htake,
        if_neg (by omega)]

end Frames

/-- The responses the network layer answers with by itself. -/
def networkResponses : List (List UInt8) :=
  [requestTimeoutResponse, payloadTooLargeResponse, serviceUnavailableResponse,
    internalServerErrorResponse, incompleteRequestResponse]

/-- A response a client may receive: an answer of the router on one of the two
backends, or one of the network layer. -/
def Served (router : CompiledRouter) (response : List UInt8) : Prop :=
  (∃ request backend, (backend = ascii "cpu" ∨ backend = ascii "gpu") ∧
    router.routeRequest request backend = .ok response) ∨
  response ∈ networkResponses

section Served

variable {router : CompiledRouter}

/-- Every response a client may receive is framed by its own header. -/
theorem Served.wellFramed (compiled : IsCompiled router) {response : List UInt8}
    (h : Served router response) (hlong : response.length < 2 ^ 64) :
    ∃ header body, response = header ++ body ∧ WellFramed header body := by
  have build {status : UInt16} {reason contentType body backend : List UInt8}
      (hreason : HeaderValue reason) (hcontent : HeaderValue contentType)
      (hbackend : HeaderValue backend)
      (hresponse : response = buildResponse status reason contentType body backend) :
      ∃ header body, response = header ++ body ∧ WellFramed header body := by
    refine ⟨_, body, hresponse, wellFramed_responseHeaders hreason hcontent hbackend status ?_⟩
    rw [hresponse, buildResponse, List.length_append] at hlong
    omega
  rcases h with ⟨request, backend, hbackend, hroute⟩ | hnetwork
  · obtain ⟨chosen, hmem, parts, heq⟩ := router.routeRequest_eq request backend
    obtain ⟨reason, contentType, body, hreason, hcontent, -, -, -, hrender⟩ :=
      renderResponse_eq (compiled.responses chosen hmem) parts request.length backend
    rw [heq, hrender] at hroute
    refine build hreason hcontent ?_ (Outcome.ok.inj hroute).symm
    rcases hbackend with rfl | rfl <;> exact ⟨by decide, by decide⟩
  · have hvalues : HeaderValue textContentType ∧ HeaderValue (ascii "network") :=
      ⟨⟨by decide, by decide⟩, ⟨by decide, by decide⟩⟩
    simp only [networkResponses, List.mem_cons, List.not_mem_nil, or_false] at hnetwork
    rcases hnetwork with h | h | h | h | h <;>
      exact build ⟨by decide, by decide⟩ hvalues.1 hvalues.2 h

/-- Whatever comes behind it, a response a client may receive is cut off first. -/
theorem cutResponses_append (compiled : IsCompiled router) {maxResponseBytes : Nat}
    (hbound : maxResponseBytes < 2 ^ 64) {response : List UInt8} (h : Served router response)
    (hmax : response.length ≤ maxResponseBytes) {more : List UInt8}
    {later : List (List UInt8)} {rest : List UInt8}
    (hmore : cutResponses maxResponseBytes more = .ok (later, rest)) :
    cutResponses maxResponseBytes (response ++ more) = .ok (response :: later, rest) := by
  obtain ⟨header, body, rfl, hframed⟩ := h.wellFramed compiled (by omega)
  have hpos : 0 < (header ++ body).length := by
    have hle := frameLen_le hframed.framed
    have hfour : headerTerminator.length = 4 := rfl
    omega
  rw [cutResponses, hframed.frameLen_eq hbound hmax more]
  simp only
  have hsome : 0 < (header ++ body ++ more).length := by
    rw [List.length_append]
    omega
  rw [if_pos ⟨hpos, hsome⟩, List.drop_left, List.take_left, hmore]

end Served

/-- Pipelined responses can be told apart: the client cuts them back into exactly
the responses written, a frame once found stays, and no proper prefix of a
response is taken for a frame. -/
theorem pipelined_responses {router : Router} {compiled : CompiledRouter}
    (h : compile router = .ok compiled) {maxResponseBytes : Nat}
    (hbound : maxResponseBytes < 2 ^ 64) {responses : List (List UInt8)}
    (hserved : ∀ response ∈ responses,
      Served compiled response ∧ response.length ≤ maxResponseBytes) :
    (∀ request backend, ∃ response, compiled.routeRequest request backend = .ok response) ∧
      cutResponses maxResponseBytes responses.flatten = .ok (responses, []) ∧
      (∀ response ∈ responses, ∃ header body, response = header ++ body ∧
        WellFramed header body) ∧
      (∀ buffer more n, responseFrameLen buffer maxResponseBytes = .ok (some n) →
        responseFrameLen (buffer ++ more) maxResponseBytes = .ok (some n)) ∧
      ∀ response ∈ responses, ∀ part, part <+: response → part ≠ response →
        responseFrameLen part maxResponseBytes = .ok none := by
  have hcompiled := isCompiled_compile h
  refine ⟨fun request backend => ?_, ?_, fun response hmem => ?_, fun buffer more n hn =>
    responseFrameLen_append hn more, fun response hmem part hextends hproper => ?_⟩
  · obtain ⟨chosen, hmem, parts, heq⟩ := compiled.routeRequest_eq request backend
    obtain ⟨_, _, _, -, -, -, -, -, hrender⟩ :=
      renderResponse_eq (hcompiled.responses chosen hmem) parts request.length backend
    exact ⟨_, heq.trans hrender⟩
  · induction responses with
    | nil =>
        rw [List.flatten_nil, cutResponses]
        rfl
    | cons response responses ih =>
        have hfirst := hserved response List.mem_cons_self
        rw [List.flatten_cons]
        exact cutResponses_append hcompiled hbound hfirst.1 hfirst.2
          (ih fun other hmem => hserved other (List.mem_cons_of_mem _ hmem))
  · have hresponse := hserved response hmem
    exact hresponse.1.wellFramed hcompiled (by omega)
  · have hresponse := hserved response hmem
    obtain ⟨header, body, rfl, hframed⟩ := hresponse.1.wellFramed hcompiled (by omega)
    exact hframed.frameLen_extended hbound hresponse.2 hextends hproper

/-- A router with one route, which echoes the query. -/
def helloRouter : Router :=
  Router.new.get (ascii "/hello") (Response.text ((Body.new.push (ascii "query=")).query 8))

def helloRequest : List UInt8 := ascii "GET /hello?a HTTP/1.1\r\n\r\n"

def helloResponse : List UInt8 :=
  buildResponse 200 (ascii "OK") textContentType (ascii "query=a") (ascii "cpu")

/-- The answer to a request and a response of the network layer behind it. -/
theorem pipelined_responses_hello :
    ∃ compiled, compile helloRouter = .ok compiled ∧
      cutResponses 4096 [helloResponse, incompleteRequestResponse].flatten =
        .ok ([helloResponse, incompleteRequestResponse], []) := by
  have hroute : (do
      let compiled ← compile helloRouter
      compiled.routeRequest helloRequest (ascii "cpu")) = .ok helloResponse := by
    decide +kernel
  obtain ⟨compiled, hcompile, hanswer⟩ := Outcome.bind_eq_ok.mp hroute
  have hserved : ∀ response ∈ [helloResponse, incompleteRequestResponse],
      Served compiled response ∧ response.length ≤ 4096 := by
    intro response hmem
    rcases List.mem_cons.mp hmem with rfl | hmem
    · exact ⟨Or.inl ⟨helloRequest, ascii "cpu", Or.inl rfl, hanswer⟩, by decide +kernel⟩
    · rw [List.mem_singleton.mp hmem]
      exact ⟨Or.inr (by simp [networkResponses]), by decide +kernel⟩
  exact ⟨compiled, hcompile, (pipelined_responses hcompile (by decide) hserved).2.1⟩

end Http
end Gput
