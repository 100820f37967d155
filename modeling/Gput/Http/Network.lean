import Gput.Library.AsciiText
import Gput.Library.Delimited
import Gput.Http.Response

/-!
# Connections

`read_raw_request` and `handle_connection` over a list of what the client's
stream delivers.  The requests found do not depend on how the stream is cut into
reads: `connection_framing` compares the loop with the cutting of the whole
stream at its header terminators.
-/

namespace Gput
namespace Http

open ByteString AsciiText Delimited

def headerTerminator : List UInt8 := [13, 10, 13, 10]

theorem headerTerminator_ne_nil : headerTerminator ≠ [] := List.cons_ne_nil _ _

/-- `complete_header_len`. -/
def completeHeaderLen (request : List UInt8) : Option Nat :=
  (windowPosition headerTerminator request).map (· + headerTerminator.length)

/-- The lines of `connection_header_has_token`, from one line on. -/
def headerLinesHaveToken (token : List UInt8) : List (List UInt8) → Bool
  | [] => false
  | rawLine :: lines =>
      let line := stripLast 13 rawLine
      if line = [] then false
      else
        match line.findIdx? (· == 58) with
        | none => headerLinesHaveToken token lines
        | some colon =>
            if ¬ eqIgnoreCase (trim (line.take colon)) (ascii "connection") then
              headerLinesHaveToken token lines
            else
              (((line.drop (colon + 1)).splitOn 44).map trim).any (eqIgnoreCase · token)

/-- `connection_header_has_token`. -/
def connectionHeaderHasToken (request token : List UInt8) : Bool :=
  headerLinesHaveToken token ((request.splitOn 10).drop 1)

/-- `connection_should_close`. -/
def connectionShouldClose (request : List UInt8) : Bool :=
  match windowPosition [13, 10] request with
  | none => true
  | some requestLineEnd =>
      let requestLine := request.take requestLineEnd
      if ¬ (ascii " HTTP/1.1").isSuffixOf requestLine then true
      else connectionHeaderHasToken request (ascii "close")

/-- What a read of the client's stream delivers; behind the last one is the end
of the stream.  A timeout is the expiry of `read_timeout` during the read. -/
inductive Read where
  | bytes (chunk : List UInt8)
  | timeout
  | failed
deriving DecidableEq, Repr

/-- How `read_raw_request` under its timeout ends. -/
inductive ReadResult where
  | request (bytes : List UInt8)
  | closed
  | tooLarge
  | incomplete
  | failed
  | timedOut
deriving DecidableEq, Repr

/-- `read_raw_request`: its result, what is left in `pending`, and the reads
that are still to come. -/
def readRawRequest (maxRequestBytes : Nat) (pending : List UInt8) (reads : List Read) :
    ReadResult × List UInt8 × List Read :=
  match completeHeaderLen pending with
  | some headerLen =>
      if headerLen > maxRequestBytes then (.tooLarge, pending, reads)
      else (.request (pending.take headerLen), pending.drop headerLen, reads)
  | none =>
      if pending.length ≥ maxRequestBytes then (.tooLarge, pending, reads)
      else
        match reads with
        | [] => (if pending = [] then .closed else .incomplete, pending, [])
        | .bytes chunk :: later =>
            if chunk.length = 0 then (if pending = [] then .closed else .incomplete, pending, later)
            else readRawRequest maxRequestBytes (pending ++ chunk) later
        | .timeout :: later => (.timedOut, pending, later)
        | .failed :: later => (.failed, pending, later)

/-- Number of bytes a read delivers. -/
def Read.size : Read → Nat
  | .bytes chunk => chunk.length
  | .timeout => 0
  | .failed => 0

/-- Number of bytes that are pending or still to come. -/
def unread (pending : List UInt8) (reads : List Read) : Nat :=
  pending.length + (reads.map Read.size).sum

/-- With a complete header in the buffer nothing is read. -/
theorem readRawRequest_found {maxRequestBytes headerLen : Nat} {pending : List UInt8}
    (h : frameLen headerTerminator pending = some headerLen) (reads : List Read) :
    readRawRequest maxRequestBytes pending reads =
      if headerLen > maxRequestBytes then (.tooLarge, pending, reads)
      else (.request (pending.take headerLen), pending.drop headerLen, reads) := by
  have hlen : completeHeaderLen pending = some headerLen := h
  rw [readRawRequest.eq_def, hlen]

theorem readRawRequest_full {maxRequestBytes : Nat} {pending : List UInt8}
    (h : frameLen headerTerminator pending = none) (hfull : pending.length ≥ maxRequestBytes)
    (reads : List Read) :
    readRawRequest maxRequestBytes pending reads = (.tooLarge, pending, reads) := by
  have hlen : completeHeaderLen pending = none := h
  rw [readRawRequest.eq_def, hlen]
  exact if_pos hfull

section Reading

variable {maxRequestBytes : Nat} {pending : List UInt8}

/-- At the end of the stream the buffer decides. -/
theorem readRawRequest_end (h : frameLen headerTerminator pending = none)
    (hroom : pending.length < maxRequestBytes) :
    readRawRequest maxRequestBytes pending [] =
      (if pending = [] then .closed else .incomplete, pending, []) := by
  have hlen : completeHeaderLen pending = none := h
  rw [readRawRequest.eq_def, hlen]
  exact if_neg (Nat.not_le.mpr hroom)

/-- A read that delivers bytes goes on with the longer buffer. -/
theorem readRawRequest_chunk (h : frameLen headerTerminator pending = none)
    (hroom : pending.length < maxRequestBytes) {chunk : List UInt8} (hchunk : chunk ≠ [])
    (later : List Read) :
    readRawRequest maxRequestBytes pending (.bytes chunk :: later) =
      readRawRequest maxRequestBytes (pending ++ chunk) later := by
  have hlen : completeHeaderLen pending = none := h
  rw [readRawRequest.eq_def, hlen]
  simp only
  rw [if_neg (Nat.not_le.mpr hroom), if_neg (fun hnil => hchunk (List.length_eq_zero_iff.mp hnil))]

/-- A read that delivers nothing ends the reading without a request. -/
theorem readRawRequest_stop (h : frameLen headerTerminator pending = none)
    (hroom : pending.length < maxRequestBytes) {read : Read} (hread : read.size = 0)
    (later : List Read) :
    ∀ request, (readRawRequest maxRequestBytes pending (read :: later)).1 ≠ .request request := by
  have hlen : completeHeaderLen pending = none := h
  intro request hresult
  rw [readRawRequest.eq_def, hlen] at hresult
  simp only at hresult
  rw [if_neg (Nat.not_le.mpr hroom)] at hresult
  cases read with
  | bytes chunk =>
      simp only [Read.size] at hread
      simp only [hread, if_true] at hresult
      split at hresult <;> cases hresult
  | timeout => cases hresult
  | failed => cases hresult

/-- A buffer holds a complete header, or it is full, or it has room for more. -/
theorem framed_or_room (maxRequestBytes : Nat) (pending : List UInt8) :
    (∃ n, frameLen headerTerminator pending = some n) ∨
      (frameLen headerTerminator pending = none ∧ pending.length ≥ maxRequestBytes) ∨
      (frameLen headerTerminator pending = none ∧ pending.length < maxRequestBytes) := by
  cases hframe : frameLen headerTerminator pending with
  | some n => exact Or.inl ⟨n, rfl⟩
  | none =>
      rcases Nat.lt_or_ge pending.length maxRequestBytes with hroom | hfull
      · exact Or.inr (Or.inr ⟨rfl, hroom⟩)
      · exact Or.inr (Or.inl ⟨rfl, hfull⟩)

theorem unread_lt_found {n : Nat} {request pending' : List UInt8} {reads reads' : List Read}
    (hframe : frameLen headerTerminator pending = some n)
    (h : readRawRequest maxRequestBytes pending reads = (.request request, pending', reads')) :
    unread pending' reads' < unread pending reads := by
  rw [readRawRequest_found hframe] at h
  split at h
  · cases h
  · cases h
    have hle := frameLen_le hframe
    have hfour : headerTerminator.length = 4 := rfl
    rw [unread, unread, List.length_drop]
    omega

/-- A request takes its bytes away from what is unread. -/
theorem unread_lt {request pending' : List UInt8} {reads reads' : List Read}
    (h : readRawRequest maxRequestBytes pending reads = (.request request, pending', reads')) :
    unread pending' reads' < unread pending reads := by
  induction reads generalizing pending with
  | nil =>
      rcases framed_or_room maxRequestBytes pending with ⟨n, hframe⟩ | hfull | ⟨hnone, hroom⟩
      · exact unread_lt_found hframe h
      · rw [readRawRequest_full hfull.1 hfull.2] at h
        cases h
      · rw [readRawRequest_end hnone hroom] at h
        split at h <;> cases h
  | cons read reads ih =>
      rcases framed_or_room maxRequestBytes pending with ⟨n, hframe⟩ | hfull | ⟨hnone, hroom⟩
      · exact unread_lt_found hframe h
      · rw [readRawRequest_full hfull.1 hfull.2] at h
        cases h
      · by_cases hsize : read.size = 0
        · exact absurd (congrArg Prod.fst h) (readRawRequest_stop hnone hroom hsize reads request)
        · cases read with
          | bytes chunk =>
              have hchunk : chunk ≠ [] := fun hnil => hsize (by rw [hnil]; rfl)
              rw [readRawRequest_chunk hnone hroom hchunk] at h
              have hlt := ih h
              simp only [unread, List.length_append, List.map_cons, Read.size,
                List.sum_cons] at hlt ⊢
              omega
          | timeout => exact absurd rfl hsize
          | failed => exact absurd rfl hsize

end Reading

inductive SubmitError where
  | overloaded
  | stopped
  | processing (message : String)
deriving DecidableEq, Repr

/-- The response to a request, given what the batcher returned for it. -/
def submitResponse : Except SubmitError (List UInt8) → List UInt8
  | .ok response => response
  | .error .overloaded => serviceUnavailableResponse
  | .error .stopped => internalServerErrorResponse
  | .error (.processing _) => internalServerErrorResponse

/-- What a connection did: the requests it handed to the batcher, and the
responses it wrote. -/
structure Connection where
  submitted : List (List UInt8)
  written : List (List UInt8)
deriving DecidableEq, Repr

/-- The loop of `handle_connection`. -/
def handleConnection (maxRequestBytes : Nat)
    (submit : List UInt8 → Except SubmitError (List UInt8)) (pending : List UInt8)
    (reads : List Read) : Connection :=
  match _h : readRawRequest maxRequestBytes pending reads with
  | (.timedOut, pending', _) =>
      if pending' = [] then ⟨[], []⟩ else ⟨[], [requestTimeoutResponse]⟩
  | (.tooLarge, _, _) => ⟨[], [payloadTooLargeResponse]⟩
  | (.incomplete, _, _) => ⟨[], [incompleteRequestResponse]⟩
  | (.failed, _, _) => ⟨[], []⟩
  | (.closed, _, _) => ⟨[], []⟩
  | (.request request, pending', reads') =>
      let response := submitResponse (submit request)
      if connectionShouldClose request then ⟨[request], [response]⟩
      else
        let later := handleConnection maxRequestBytes submit pending' reads'
        ⟨request :: later.submitted, response :: later.written⟩
termination_by unread pending reads
decreasing_by exact unread_lt _h

/-- The reads of a stream without timeouts and errors. -/
structure Cutting (stream : List UInt8) (chunks : List (List UInt8)) : Prop where
  whole : chunks.flatten = stream
  sizes : ∀ chunk ∈ chunks, 1 ≤ chunk.length ∧ chunk.length ≤ 1024

/-- What a stream says about its first request, whatever the reads. -/
def firstResult (maxRequestBytes : Nat) (stream : List UInt8) : ReadResult :=
  match frameLen headerTerminator stream with
  | some n => if n > maxRequestBytes then .tooLarge else .request (stream.take n)
  | none =>
      if stream.length ≥ maxRequestBytes then .tooLarge
      else if stream = [] then .closed
      else .incomplete

/-- A buffer with a complete header decides the result for the stream. -/
theorem firstResult_found {maxRequestBytes n : Nat} {pending : List UInt8}
    (h : frameLen headerTerminator pending = some n) (more : List UInt8) :
    firstResult maxRequestBytes (pending ++ more) =
      if n > maxRequestBytes then .tooLarge else .request (pending.take n) := by
  rw [firstResult, frameLen_append h]
  simp only
  rw [List.take_append_of_le_length (frameLen_le h).2]

/-- A full buffer without a complete header decides it, too: the header can only
end behind the limit. -/
theorem firstResult_full {maxRequestBytes : Nat} {pending : List UInt8}
    (h : frameLen headerTerminator pending = none) (hfull : pending.length ≥ maxRequestBytes)
    (more : List UInt8) : firstResult maxRequestBytes (pending ++ more) = .tooLarge := by
  rw [firstResult]
  cases hframe : frameLen headerTerminator (pending ++ more) with
  | some n =>
      have hlt := lt_of_incomplete h hframe
      exact if_pos (by omega)
  | none => exact if_pos (by rw [List.length_append]; omega)

/-- The reading of a buffer and its reads ends as their stream says, and what it
leaves is the stream behind the request. -/
def ReadsFirst (maxRequestBytes : Nat) (pending : List UInt8) (chunks : List (List UInt8)) :
    Prop :=
  ∃ pending' chunks',
    readRawRequest maxRequestBytes pending (chunks.map .bytes) =
      (firstResult maxRequestBytes (pending ++ chunks.flatten), pending',
        List.map Read.bytes chunks') ∧
    (∀ chunk ∈ chunks', chunk ≠ []) ∧
    ∀ request, firstResult maxRequestBytes (pending ++ chunks.flatten) = .request request →
      request ++ (pending' ++ chunks'.flatten) = pending ++ chunks.flatten

theorem readsFirst_found {maxRequestBytes n : Nat} {pending : List UInt8}
    {chunks : List (List UInt8)} (hchunks : ∀ chunk ∈ chunks, chunk ≠ [])
    (h : frameLen headerTerminator pending = some n) :
    ReadsFirst maxRequestBytes pending chunks := by
  rw [ReadsFirst, readRawRequest_found h, firstResult_found h]
  split
  · exact ⟨pending, chunks, rfl, hchunks, fun request hreq => by cases hreq⟩
  · refine ⟨pending.drop n, chunks, rfl, hchunks, fun request hreq => ?_⟩
    cases hreq
    rw [← List.append_assoc, List.take_append_drop]

theorem readsFirst_full {maxRequestBytes : Nat} {pending : List UInt8}
    {chunks : List (List UInt8)} (hchunks : ∀ chunk ∈ chunks, chunk ≠ [])
    (h : frameLen headerTerminator pending = none) (hfull : pending.length ≥ maxRequestBytes) :
    ReadsFirst maxRequestBytes pending chunks := by
  rw [ReadsFirst, readRawRequest_full h hfull, firstResult_full h hfull]
  exact ⟨pending, chunks, rfl, hchunks, fun request hreq => by cases hreq⟩

/-- Every cutting of a stream into reads finds the first request of the stream. -/
theorem readsFirst (maxRequestBytes : Nat) {chunks : List (List UInt8)}
    (hchunks : ∀ chunk ∈ chunks, chunk ≠ []) (pending : List UInt8) :
    ReadsFirst maxRequestBytes pending chunks := by
  -- the induction is on the reads; each moves bytes from the reads to the buffer
  induction chunks generalizing pending with
  | nil =>
      rcases framed_or_room maxRequestBytes pending with ⟨n, hframe⟩ | hfull | ⟨hnone, hroom⟩
      · exact readsFirst_found hchunks hframe
      · exact readsFirst_full hchunks hfull.1 hfull.2
      · rw [ReadsFirst, List.map_nil, readRawRequest_end hnone hroom, List.flatten_nil,
          List.append_nil, firstResult, hnone]
        simp only
        rw [if_neg (Nat.not_le.mpr hroom)]
        exact ⟨pending, [], rfl, hchunks, fun request hreq => by split at hreq <;> cases hreq⟩
  | cons chunk chunks ih =>
      rcases framed_or_room maxRequestBytes pending with ⟨n, hframe⟩ | hfull | ⟨hnone, hroom⟩
      · exact readsFirst_found hchunks hframe
      · exact readsFirst_full hchunks hfull.1 hfull.2
      · have hread := ih (fun later hmem => hchunks later (List.mem_cons_of_mem _ hmem))
          (pending ++ chunk)
        rw [ReadsFirst, List.append_assoc] at hread
        rw [ReadsFirst, List.map_cons, List.flatten_cons,
          readRawRequest_chunk hnone hroom (hchunks chunk List.mem_cons_self)]
        exact hread

/-- The answers to the requests of a stream that is cut at its terminators, up to
the first that closes the connection, and what is written at the end. -/
def serveFrames (maxRequestBytes : Nat) (respond : List UInt8 → List UInt8) :
    List (List UInt8) → List UInt8 → Connection
  | [], rest =>
      if rest = [] then ⟨[], []⟩
      else if rest.length ≥ maxRequestBytes then ⟨[], [payloadTooLargeResponse]⟩
      else ⟨[], [incompleteRequestResponse]⟩
  | request :: requests, rest =>
      if request.length > maxRequestBytes then ⟨[], [payloadTooLargeResponse]⟩
      else if connectionShouldClose request then ⟨[request], [respond request]⟩
      else
        let later := serveFrames maxRequestBytes respond requests rest
        ⟨request :: later.submitted, respond request :: later.written⟩

section Serving

variable (maxRequestBytes : Nat) (respond : List UInt8 → List UInt8)

/-- The requests served are the first ones of the stream, each answered once and
in order; at most one more response follows. -/
theorem serveFrames_extended (requests : List (List UInt8)) (rest : List UInt8) :
    (serveFrames maxRequestBytes respond requests rest).submitted <+: requests ∧
      ∃ last, (serveFrames maxRequestBytes respond requests rest).written =
          (serveFrames maxRequestBytes respond requests rest).submitted.map respond ++ last ∧
        (last = [] ∨ last = [payloadTooLargeResponse] ∨ last = [incompleteRequestResponse]) := by
  induction requests with
  | nil =>
      rw [serveFrames]
      split
      · exact ⟨List.prefix_rfl, [], rfl, Or.inl rfl⟩
      · split
        · exact ⟨List.prefix_rfl, _, rfl, Or.inr (Or.inl rfl)⟩
        · exact ⟨List.prefix_rfl, _, rfl, Or.inr (Or.inr rfl)⟩
  | cons request requests ih =>
      obtain ⟨hextends, last, hwritten, hlast⟩ := ih
      rw [serveFrames]
      split
      · exact ⟨List.nil_prefix, _, rfl, Or.inr (Or.inl rfl)⟩
      · split
        · exact ⟨List.cons_prefix_cons.mpr ⟨rfl, List.nil_prefix⟩, [], rfl, Or.inl rfl⟩
        · refine ⟨List.cons_prefix_cons.mpr ⟨rfl, hextends⟩, last, ?_, hlast⟩
          simp only [List.map_cons, List.cons_append, hwritten]

theorem cut_terminated {stream request later : List UInt8} (hwhole : request ++ later = stream)
    (hframe : frameLen headerTerminator stream = some request.length) :
    cut headerTerminator stream =
      (request :: (cut headerTerminator later).1, (cut headerTerminator later).2) := by
  rw [cut_of_some headerTerminator_ne_nil hframe, ← hwhole, List.take_left, List.drop_left]

variable {maxRequestBytes respond}

theorem handleConnection_of_request {pending request pending' : List UInt8}
    {reads reads' : List Read}
    (h : readRawRequest maxRequestBytes pending reads = (.request request, pending', reads'))
    (submit : List UInt8 → Except SubmitError (List UInt8)) :
    handleConnection maxRequestBytes submit pending reads =
      if connectionShouldClose request then ⟨[request], [submitResponse (submit request)]⟩
      else
        ⟨request :: (handleConnection maxRequestBytes submit pending' reads').submitted,
          submitResponse (submit request) ::
            (handleConnection maxRequestBytes submit pending' reads').written⟩ := by
  rw [handleConnection]
  split <;> rename_i heq <;> rw [h] at heq <;> cases heq
  rfl

/-- What the connection writes when reading ends without a request. -/
def closing : ReadResult → List (List UInt8)
  | .tooLarge => [payloadTooLargeResponse]
  | .incomplete => [incompleteRequestResponse]
  | _ => []

theorem handleConnection_of_end {pending pending' : List UInt8} {reads reads' : List Read}
    {result : ReadResult}
    (h : readRawRequest maxRequestBytes pending reads = (result, pending', reads'))
    (hrequest : ∀ request, result ≠ .request request) (htime : result ≠ .timedOut)
    (submit : List UInt8 → Except SubmitError (List UInt8)) :
    handleConnection maxRequestBytes submit pending reads = ⟨[], closing result⟩ := by
  rw [handleConnection]
  split <;> rename_i heq <;> rw [h] at heq <;> cases heq
  · exact absurd rfl htime
  · rfl
  · rfl
  · rfl
  · rfl
  · exact absurd rfl (hrequest _)

variable (maxRequestBytes respond)

/-- The loop serves the requests of the stream, whatever the reads. -/
theorem handleConnection_eq (hmax : 0 < maxRequestBytes) {chunks : List (List UInt8)}
    (hchunks : ∀ chunk ∈ chunks, chunk ≠ []) (pending : List UInt8) :
    handleConnection maxRequestBytes (fun request => .ok (respond request)) pending
        (chunks.map .bytes) =
      serveFrames maxRequestBytes respond
        (cut headerTerminator (pending ++ chunks.flatten)).1
        (cut headerTerminator (pending ++ chunks.flatten)).2 := by
  -- every request served shortens what is left of the stream
  induction hlen : (pending ++ chunks.flatten).length using Nat.strong_induction_on
    generalizing pending chunks with
  | _ length ih =>
      obtain ⟨pending', chunks', hread, hchunks', hrest⟩ :=
        readsFirst maxRequestBytes hchunks pending
      generalize pending ++ chunks.flatten = stream at hread hrest hlen ⊢
      cases hframe : frameLen headerTerminator stream with
      | none =>
          have hresult : firstResult maxRequestBytes stream =
              if stream.length ≥ maxRequestBytes then .tooLarge
              else if stream = [] then .closed else .incomplete := by
            rw [firstResult, hframe]
          rw [cut_of_none hframe, serveFrames,
            handleConnection_of_end hread (by rw [hresult]; split_ifs <;> simp)
              (by rw [hresult]; split_ifs <;> simp), hresult]
          by_cases hnil : stream = []
          · have hroom : ¬ stream.length ≥ maxRequestBytes := by
              rw [hnil, List.length_nil]
              omega
            rw [if_neg hroom, if_pos hnil, if_pos hnil]
            rfl
          · rw [if_neg hnil, if_neg hnil]
            split <;> rfl
      | some n =>
          have hle := frameLen_le hframe
          have hresult : firstResult maxRequestBytes stream =
              if n > maxRequestBytes then .tooLarge else .request (stream.take n) := by
            rw [firstResult, hframe]
          have htake : (stream.take n).length = n := by
            rw [List.length_take]
            omega
          by_cases hlarge : n > maxRequestBytes
          · rw [if_pos hlarge] at hresult
            rw [hresult] at hread
            rw [handleConnection_of_end hread (fun _ h => by cases h) (fun h => by cases h),
              cut_of_some headerTerminator_ne_nil hframe, serveFrames,
              if_pos (by rw [htake]; exact hlarge)]
            rfl
          · rw [if_neg hlarge] at hresult
            rw [hresult] at hread
            have hwhole := hrest _ hresult
            have hlater := congrArg List.length hwhole
            rw [List.length_append, htake] at hlater
            have hfour : headerTerminator.length = 4 := rfl
            rw [cut_terminated hwhole (by rw [htake]; exact hframe), serveFrames,
              if_neg (by rw [htake]; exact hlarge), handleConnection_of_request hread,
              ih _ (by omega) hchunks' pending' rfl]
            rfl

end Serving

/-- Connection framing: the requests are the pieces of the stream between its
terminators, and what is written does not depend on the reads. -/
theorem connection_framing {maxRequestBytes : Nat} (hmax : 16 ≤ maxRequestBytes)
    (respond : List UInt8 → List UInt8) (stream : List UInt8) :
    ∃ requests rest, IsCut headerTerminator stream requests rest ∧
      (serveFrames maxRequestBytes respond requests rest).submitted <+: requests ∧
      (∃ last, (serveFrames maxRequestBytes respond requests rest).written =
          (serveFrames maxRequestBytes respond requests rest).submitted.map respond ++ last ∧
        (last = [] ∨ last = [payloadTooLargeResponse] ∨ last = [incompleteRequestResponse])) ∧
      ∀ chunks, Cutting stream chunks →
        handleConnection maxRequestBytes (fun request => .ok (respond request)) []
            (chunks.map .bytes) =
          serveFrames maxRequestBytes respond requests rest := by
  obtain ⟨hextends, hwritten⟩ := serveFrames_extended maxRequestBytes respond
    (cut headerTerminator stream).1 (cut headerTerminator stream).2
  refine ⟨_, _, isCut_cut headerTerminator_ne_nil stream, hextends, hwritten, fun chunks hcut => ?_⟩
  have hchunks : ∀ chunk ∈ chunks, chunk ≠ [] := by
    rintro chunk hmem rfl
    exact absurd (hcut.sizes [] hmem).1 (by decide)
  rw [handleConnection_eq maxRequestBytes respond (by omega) hchunks [], List.nil_append,
    hcut.whole]

/-- A stream with a request and a rest, in one read and in two. -/
theorem connection_framing_two_reads :
    let first := ascii "GET / HTTP/1.1\r\n\r"
    let second := ascii "\nGET /he"
    handleConnection 64 (fun request => .ok request) [] ([first ++ second].map .bytes) =
      handleConnection 64 (fun request => .ok request) [] ([first, second].map .bytes) := by
  intro first second
  obtain ⟨requests, rest, -, -, -, hserve⟩ :=
    @connection_framing 64 (by decide) (fun request => request) (first ++ second)
  rw [hserve [first ++ second] ⟨rfl, by decide⟩, hserve [first, second] ⟨rfl, by decide⟩]

end Http
end Gput
