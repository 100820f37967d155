import Gput.Http.Network
import Gput.Http.RequestLine

/-!
# When a connection is closed

`connection_should_close` against what the client asked for.  The scan of the
header ends at the first Connection line, so a later one is not heard:
`close_honoured_iff`.  It starts behind the first line feed, while the version
is looked for in front of the first line end, so that a request line that ends
in a bare line feed hides its version: `version_agrees_iff`.
-/

namespace Gput
namespace Http

open ByteString AsciiText Delimited

/-- A header line with the name `connection`, up to case and white space. -/
def ConnectionLine (line value : Text) : Prop :=
  ∃ name, line = name ++ 58 :: value ∧ 58 ∉ name ∧
    eqIgnoreCase (trim name) (ascii "connection") = true

/-- A Connection line with `close` among its elements. -/
def ListsClose (line : Text) : Prop :=
  ∃ value, ConnectionLine line value ∧
    ∃ element ∈ value.splitOn 44, eqIgnoreCase (trim element) (ascii "close") = true

/-- The lines at which the scan of a header ends. -/
def EndsScan (line : Text) : Prop :=
  line = [] ∨ ∃ value, ConnectionLine line value

/-- The scan ends at a line that lists `close`. -/
inductive ScanCloses : List Text → Prop
  | here {line : Text} {lines : List Text} (h : ListsClose line) : ScanCloses (line :: lines)
  | later {line : Text} {lines : List Text} (h : ¬ EndsScan line) (hlines : ScanCloses lines) :
      ScanCloses (line :: lines)

theorem ListsClose.endsScan {line : Text} (h : ListsClose line) : EndsScan line := by
  obtain ⟨value, hline, -⟩ := h
  exact Or.inr ⟨value, hline⟩

theorem connectionLine_iff {line value : Text} :
    ConnectionLine line value ↔ ∃ colon, line.findIdx? (· == 58) = some colon ∧
      value = line.drop (colon + 1) ∧
        eqIgnoreCase (trim (line.take colon)) (ascii "connection") = true := by
  constructor
  · rintro ⟨name, rfl, hname, hnamed⟩
    refine ⟨name.length, findIdx?_append_cons hname value,
      (drop_append_cons name 58 value).symm, ?_⟩
    rwa [List.take_left]
  · rintro ⟨colon, hcolon, rfl, hnamed⟩
    obtain ⟨hcut, -, hname⟩ := findIdx?_eq_some_iff_cut.mp hcolon
    exact ⟨_, hcut, hname, hnamed⟩

theorem scanCloses_cons {line : Text} {lines : List Text} :
    ScanCloses (line :: lines) ↔ ListsClose line ∨ ¬ EndsScan line ∧ ScanCloses lines := by
  constructor
  · intro h
    cases h with
    | here h => exact Or.inl h
    | later h hlines => exact Or.inr ⟨h, hlines⟩
  · rintro (h | ⟨h, hlines⟩)
    · exact .here h
    · exact .later h hlines

/-- The loop of `connection_header_has_token` is the scan. -/
theorem headerLinesHaveToken_iff (rawLines : List Text) :
    headerLinesHaveToken (ascii "close") rawLines = true ↔
      ScanCloses (rawLines.map (stripLast 13)) := by
  induction rawLines with
  | nil =>
      rw [headerLinesHaveToken, List.map_nil]
      exact ⟨fun h => absurd h Bool.false_ne_true, fun h => nomatch h⟩
  | cons rawLine lines ih =>
      rw [headerLinesHaveToken, List.map_cons, scanCloses_cons]
      generalize stripLast 13 rawLine = line
      by_cases hempty : line = []
      · subst hempty
        rw [if_pos rfl]
        refine ⟨fun h => absurd h Bool.false_ne_true, ?_⟩
        rintro (⟨_, ⟨name, hcut, -⟩, -⟩ | ⟨h, -⟩)
        · exact absurd hcut (by simp)
        · exact absurd (Or.inl rfl) h
      rw [if_neg hempty]
      have hother (hnone : ∀ value, ¬ ConnectionLine line value) :
          headerLinesHaveToken (ascii "close") lines = true ↔
            ListsClose line ∨ ¬ EndsScan line ∧ ScanCloses (lines.map (stripLast 13)) := by
        have hlists : ¬ ListsClose line := fun ⟨value, hline, _⟩ => hnone value hline
        have hends : ¬ EndsScan line := by
          rintro (h | ⟨value, hline⟩)
          · exact hempty h
          · exact hnone value hline
        rw [ih, or_iff_right hlists, and_iff_right hends]
      cases hcolon : line.findIdx? (· == 58) with
      | none =>
          refine hother fun value hline => ?_
          obtain ⟨colon, hfound, -⟩ := connectionLine_iff.mp hline
          rw [hcolon] at hfound
          cases hfound
      | some colon =>
          simp only
          by_cases hname : eqIgnoreCase (trim (line.take colon)) (ascii "connection") = true
          swap
          · rw [if_pos (by simpa using hname)]
            refine hother fun value hline => hname ?_
            obtain ⟨found, hfound, -, hnamed⟩ := connectionLine_iff.mp hline
            rw [hcolon] at hfound
            cases hfound
            exact hnamed
          · rw [if_neg (by simpa using hname)]
            have hline : ConnectionLine line (line.drop (colon + 1)) :=
              connectionLine_iff.mpr ⟨colon, hcolon, rfl, hname⟩
            have hends : EndsScan line := Or.inr ⟨_, hline⟩
            rw [or_iff_left fun h => h.1 hends, List.any_map, List.any_eq_true]
            constructor
            · rintro ⟨element, hmem, hclose⟩
              exact ⟨_, hline, element, hmem, hclose⟩
            · rintro ⟨value, hvalue, element, hmem, hclose⟩
              obtain ⟨found, hfound, rfl, -⟩ := connectionLine_iff.mp hvalue
              rw [hcolon] at hfound
              cases hfound
              exact ⟨element, hmem, hclose⟩

/-- What bare line feeds cut off the first line of a request. -/
def strayLines (request : List UInt8) (lineEnd : Nat) : List Text :=
  (((request.take (lineEnd + 1)).splitOn 10).drop 1).map (stripLast 13)

/-- The lines between the first line of a request and the empty line. -/
def fieldLines (request : List UInt8) (lineEnd : Nat) : List Text :=
  (((request.drop (lineEnd + 2)).splitOn 10).map (stripLast 13)).takeWhile (· ≠ [])

theorem scanCloses_append {first second : List Text} :
    ScanCloses (first ++ second) ↔
      ScanCloses first ∨ (∀ line ∈ first, ¬ EndsScan line) ∧ ScanCloses second := by
  induction first with
  | nil =>
      rw [List.nil_append]
      constructor
      · exact fun h => Or.inr ⟨fun line hline => (List.not_mem_nil hline).elim, h⟩
      · rintro (h | ⟨-, h⟩)
        · cases h
        · exact h
  | cons line first ih =>
      rw [List.cons_append, scanCloses_cons, scanCloses_cons, ih, List.forall_mem_cons]
      tauto

/-- No line behind the empty line is heard. -/
theorem scanCloses_takeWhile {lines : List Text} :
    ScanCloses (lines.takeWhile (· ≠ [])) ↔ ScanCloses lines := by
  induction lines with
  | nil => exact Iff.rfl
  | cons line lines ih =>
      by_cases hempty : line = []
      · subst hempty
        have hlists : ¬ ListsClose [] := by
          rintro ⟨_, ⟨name, hcut, -⟩, -⟩
          exact absurd hcut (by simp)
        rw [List.takeWhile_cons_of_neg (by simp), scanCloses_cons, or_iff_right hlists]
        constructor
        · exact fun h => nomatch h
        · exact fun h => absurd (Or.inl rfl) h.1
      · rw [List.takeWhile_cons_of_pos (by simpa using hempty), scanCloses_cons, scanCloses_cons, ih]

/-- Some line lists `close` where the scan ends at one. -/
theorem ScanCloses.exists_listsClose {lines : List Text} (h : ScanCloses lines) :
    ∃ line ∈ lines, ListsClose line := by
  induction h with
  | here h => exact ⟨_, List.mem_cons_self, h⟩
  | later _ _ ih =>
      obtain ⟨line, hmem, hline⟩ := ih
      exact ⟨line, List.mem_cons_of_mem _ hmem, hline⟩

theorem ScanCloses.exists_endsScan {lines : List Text} (h : ScanCloses lines) :
    ∃ line ∈ lines, EndsScan line := by
  obtain ⟨line, hmem, hline⟩ := h.exists_listsClose
  exact ⟨line, hmem, hline.endsScan⟩

section Lines

variable {request : List UInt8} {lineEnd : Nat}

/-- A pair cuts the bytes at its position. -/
theorem cut_of_windowPosition (hline : windowPosition [13, 10] request = some lineEnd) :
    request.take (lineEnd + 1) ++ 10 :: request.drop (lineEnd + 2) = request ∧
      request.take (lineEnd + 1) = request.take lineEnd ++ [13] := by
  obtain ⟨hle, ⟨rest, hrest⟩, -⟩ := windowPosition_eq_some.mp hline
  have hcut := List.take_append_drop lineEnd request
  have hlength : (request.take lineEnd).length = lineEnd := by
    rw [List.length_take]
    omega
  rw [← hrest] at hcut
  generalize request.take lineEnd = first at *
  subst hcut hlength
  have hsplit : first ++ ([13, 10] ++ rest) = (first ++ [13]) ++ 10 :: rest := by simp
  have hdrop : (first ++ ([13, 10] ++ rest)).drop (first.length + 2) = rest := by
    rw [← List.drop_drop, List.drop_left]
    rfl
  have htake : (first ++ ([13, 10] ++ rest)).take (first.length + 1) = first ++ [13] := by
    rw [hsplit, List.take_left' (by simp)]
  rw [hdrop, htake]
  exact ⟨hsplit.symm, rfl⟩

theorem connectionShouldClose_iff (hline : windowPosition [13, 10] request = some lineEnd) :
    connectionShouldClose request = true ↔
      ¬ ascii " HTTP/1.1" <:+ request.take lineEnd ∨
        ScanCloses (strayLines request lineEnd ++ fieldLines request lineEnd) := by
  have hlines : ((request.splitOn 10).drop 1).map (stripLast 13) =
      strayLines request lineEnd ++ ((request.drop (lineEnd + 2)).splitOn 10).map (stripLast 13) := by
    conv_lhs => rw [← (cut_of_windowPosition hline).1]
    have hpos := List.length_pos_of_ne_nil
      (List.splitOn_ne_nil (10 : UInt8) (request.take (lineEnd + 1)))
    rw [List.splitOn_append_cons_self, List.drop_append_of_le_length hpos, List.map_append,
      strayLines]
  have hscan : connectionHeaderHasToken request (ascii "close") = true ↔
      ScanCloses (strayLines request lineEnd ++ fieldLines request lineEnd) := by
    rw [connectionHeaderHasToken, headerLinesHaveToken_iff, hlines, scanCloses_append,
      scanCloses_append, fieldLines, scanCloses_takeWhile]
  rw [connectionShouldClose, hline]
  simp only
  rw [← List.isSuffixOf_iff_suffix]
  split
  case isTrue hother => exact ⟨fun _ => Or.inl hother, fun _ => rfl⟩
  case isFalse hversion => rw [hscan, or_iff_right hversion]

/-- The first of some lines at which a scan ends. -/
def FirstEnding (lines : List Text) (line : Text) : Prop :=
  ∃ before after, lines = before ++ line :: after ∧ EndsScan line ∧
    ∀ other ∈ before, ¬ EndsScan other

theorem exists_firstEnding {lines : List Text} (h : ∃ line ∈ lines, EndsScan line) :
    ∃ line, FirstEnding lines line := by
  induction lines with
  | nil =>
      obtain ⟨_, hmem, -⟩ := h
      cases hmem
  | cons first lines ih =>
      by_cases hfirst : EndsScan first
      · exact ⟨first, [], lines, rfl, hfirst, by simp⟩
      · have hlater : ∃ line ∈ lines, EndsScan line := by
          obtain ⟨line, hmem, hends⟩ := h
          rcases List.mem_cons.mp hmem with rfl | hmem
          · exact absurd hends hfirst
          · exact ⟨line, hmem, hends⟩
        obtain ⟨line, before, after, rfl, hends, hbefore⟩ := ih hlater
        exact ⟨line, first :: before, after, rfl, hends, by simpa [hfirst] using hbefore⟩

/-- The scan closes when the line at which it ends lists `close`. -/
theorem FirstEnding.scanCloses_iff {lines : List Text} {line : Text}
    (h : FirstEnding lines line) : ScanCloses lines ↔ ListsClose line := by
  obtain ⟨before, after, rfl, hends, hbefore⟩ := h
  induction before with
  | nil =>
      rw [List.nil_append, scanCloses_cons, or_iff_left fun hlater => hlater.1 hends]
  | cons first before ih =>
      obtain ⟨hfirst, hbefore⟩ := List.forall_mem_cons.mp hbefore
      rw [List.cons_append, scanCloses_cons, and_iff_right hfirst,
        or_iff_right fun hlists : ListsClose first => hfirst hlists.endsScan]
      exact ih hbefore

/-- The line at which the scan ends speaks for the whole header.  `stray` are the
pieces that bare line feeds cut off the request line. -/
inductive FirstSpeaks (stray header : List Text) : Prop
  | listed (line : Text) (hstray : ∀ other ∈ stray, ¬ EndsScan other)
      (hfirst : FirstEnding header line) (hlists : ListsClose line) : FirstSpeaks stray header
  | unlisted (hstray : ∀ other ∈ stray, ¬ EndsScan other)
      (hnone : ∀ other ∈ header, ¬ ListsClose other) : FirstSpeaks stray header
  /-- A piece of the request line lists `close`, and so does a header line. -/
  | strayListed (line other : Text) (hfirst : FirstEnding stray line) (hlists : ListsClose line)
      (hmem : other ∈ header) (hother : ListsClose other) : FirstSpeaks stray header
  /-- A piece of the request line ends the scan, and nothing lists `close`. -/
  | strayUnlisted (line : Text) (hfirst : FirstEnding stray line) (hnot : ¬ ListsClose line)
      (hnone : ∀ other ∈ header, ¬ ListsClose other) : FirstSpeaks stray header

/-- A client that asks for the connection to be closed is heard, and no other,
exactly when the line at which the scan ends speaks for the whole header. -/
theorem close_honoured_iff (hline : windowPosition [13, 10] request = some lineEnd)
    (hversion : ascii " HTTP/1.1" <:+ request.take lineEnd) :
    (connectionShouldClose request = true ↔
        ∃ line ∈ fieldLines request lineEnd, ListsClose line) ↔
      FirstSpeaks (strayLines request lineEnd) (fieldLines request lineEnd) := by
  rw [connectionShouldClose_iff hline, or_iff_right (not_not.mpr hversion), scanCloses_append]
  generalize strayLines request lineEnd = stray
  generalize fieldLines request lineEnd = header
  by_cases hstray : ∃ line ∈ stray, EndsScan line
  · -- the scan ends inside the request line
    obtain ⟨line, hfirst⟩ := exists_firstEnding hstray
    have hnot : ¬ ∀ other ∈ stray, ¬ EndsScan other := by
      obtain ⟨other, hmem, hends⟩ := hstray
      exact fun h => h other hmem hends
    have hsame {other : Text} (hother : FirstEnding stray other) :
        ListsClose other ↔ ListsClose line :=
      hother.scanCloses_iff.symm.trans hfirst.scanCloses_iff
    rw [or_iff_left fun h => hnot h.1, hfirst.scanCloses_iff]
    constructor
    · intro h
      by_cases hlists : ListsClose line
      · obtain ⟨other, hmem, hother⟩ := h.mp hlists
        exact .strayListed line other hfirst hlists hmem hother
      · exact .strayUnlisted line hfirst hlists
          fun other hmem hother => hlists (h.mpr ⟨other, hmem, hother⟩)
    · intro h
      cases h with
      | listed _ hquiet _ _ => exact absurd hquiet hnot
      | unlisted hquiet _ => exact absurd hquiet hnot
      | strayListed other found hother hlists hmem hfound =>
          exact ⟨fun _ => ⟨found, hmem, hfound⟩, fun _ => (hsame hother).mp hlists⟩
      | strayUnlisted other hother hquiet hnone =>
          refine ⟨fun hlists => absurd ((hsame hother).mpr hlists) hquiet, ?_⟩
          rintro ⟨found, hmem, hfound⟩
          exact absurd hfound (hnone found hmem)
  · have hall : ∀ line ∈ stray, ¬ EndsScan line := fun line hmem hends => hstray ⟨line, hmem, hends⟩
    have hnone {line : Text} (hfirst : FirstEnding stray line) : False := by
      obtain ⟨before, after, heq, hends, -⟩ := hfirst
      exact hall line (heq ▸ List.mem_append_right _ List.mem_cons_self) hends
    rw [or_iff_right fun h => hstray (ScanCloses.exists_endsScan h), and_iff_right hall]
    constructor
    · intro h
      by_cases hheader : ScanCloses header
      · obtain ⟨line, hfirst⟩ := exists_firstEnding (ScanCloses.exists_endsScan hheader)
        exact .listed line hall hfirst (hfirst.scanCloses_iff.mp hheader)
      · exact .unlisted hall fun line hmem hlists => hheader (h.mpr ⟨line, hmem, hlists⟩)
    · intro h
      cases h with
      | listed line _ hfirst hlists =>
          have hheader := hfirst.scanCloses_iff.mpr hlists
          exact ⟨fun _ => hheader.exists_listsClose, fun _ => hheader⟩
      | unlisted _ hquiet =>
          exact ⟨ScanCloses.exists_listsClose,
            fun ⟨line, hmem, hlists⟩ => absurd hlists (hquiet line hmem)⟩
      | strayListed _ _ hfirst => exact (hnone hfirst).elim
      | strayUnlisted _ hfirst => exact (hnone hfirst).elim

/-- Two Connection lines, of which the second lists `close`. -/
def closeSecond : List UInt8 :=
  ascii "GET / HTTP/1.1\r\nConnection: keep-alive\r\nConnection: close\r\n\r\n"

theorem close_honoured_iff_second :
    (connectionShouldClose closeSecond = true ↔
        ∃ line ∈ fieldLines closeSecond 14, ListsClose line) ↔
      FirstSpeaks (strayLines closeSecond 14) (fieldLines closeSecond 14) :=
  close_honoured_iff (by decide +kernel) (by decide +kernel)

theorem close_missed :
    frameLen headerTerminator closeSecond = some closeSecond.length ∧
      windowPosition [13, 10] closeSecond = some 14 ∧
      ascii " HTTP/1.1" <:+ closeSecond.take 14 ∧
      ¬ (connectionShouldClose closeSecond = true ↔
        ∃ line ∈ fieldLines closeSecond 14, ListsClose line) := by
  have hkept : connectionShouldClose closeSecond = false := by decide +kernel
  have hlisted : ∃ line ∈ fieldLines closeSecond 14, ListsClose line :=
    ⟨ascii "Connection: close", by decide +kernel, ascii " close",
      ⟨ascii "Connection", by decide +kernel, by decide +kernel, by decide +kernel⟩,
      ascii " close", by decide +kernel, by decide +kernel⟩
  refine ⟨by decide +kernel, by decide +kernel, by decide +kernel, fun h => ?_⟩
  have hclosed := h.mpr hlisted
  rw [hkept] at hclosed
  cases hclosed

end Lines

/-- A request line that ends in a bare line feed, and behind it the line that
`connection_should_close` takes for its version; the scan, which starts at that
line, ends without `close`. -/
def HidesVersion (request : List UInt8) : Prop :=
  ∃ raw rest lineEnd, request = raw ++ 10 :: rest ∧ 10 ∉ raw ∧ raw.getLast? ≠ some 13 ∧
    windowPosition [13, 10] rest = some lineEnd ∧ ascii " HTTP/1.1" <:+ rest.take lineEnd ∧
      ¬ ScanCloses ((rest.splitOn 10).map (stripLast 13))

theorem connectionShouldClose_eq_false_iff {request : List UInt8} :
    connectionShouldClose request = false ↔
      ∃ lineEnd, windowPosition [13, 10] request = some lineEnd ∧
        ascii " HTTP/1.1" <:+ request.take lineEnd ∧
          ¬ ScanCloses (((request.splitOn 10).drop 1).map (stripLast 13)) := by
  rw [connectionShouldClose]
  cases windowPosition [13, 10] request with
  | none => simp
  | some lineEnd =>
      simp only [Option.some.injEq, exists_eq_left']
      rw [← headerLinesHaveToken_iff, ← List.isSuffixOf_iff_suffix, connectionHeaderHasToken]
      split
      case isTrue hother =>
        exact ⟨fun h => absurd h.symm Bool.false_ne_true, fun h => absurd h.1 hother⟩
      case isFalse hversion => rw [Bool.not_eq_true, and_iff_right (not_not.mp hversion)]

section Versions

variable {request raw rest : List UInt8} (hrequest : request = raw ++ 10 :: rest) (hraw : 10 ∉ raw)
include hrequest hraw

theorem lines_behind : (request.splitOn 10).drop 1 = rest.splitOn 10 := by
  rw [hrequest, List.splitOn_append_cons_self_of_not_mem hraw]
  rfl

/-- Behind a bare line feed the version is looked for on a later line. -/
theorem close_of_bare_lineEnd (hlast : raw.getLast? ≠ some 13) :
    connectionShouldClose request = false ↔ HidesVersion request := by
  have hposition : windowPosition [13, 10] request =
      (windowPosition [13, 10] rest).map (· + (raw.length + 1)) := by
    rw [hrequest]
    exact windowPosition_pair_skip (by decide) hraw hlast rest
  have htake (k : Nat) : request.take (k + (raw.length + 1)) = raw ++ 10 :: rest.take k := by
    rw [hrequest, Nat.add_comm, Nat.add_assoc, List.take_length_add_append, Nat.add_comm 1 k,
      List.take_succ_cons]
  have hfree : 10 ∉ ascii " HTTP/1.1" := by decide
  rw [connectionShouldClose_eq_false_iff, lines_behind hrequest hraw, hposition]
  constructor
  · rintro ⟨lineEnd, hline, hsuffix, hscan⟩
    obtain ⟨k, hk, rfl⟩ := Option.map_eq_some_iff.mp hline
    rw [htake, suffix_append_cons_iff hfree] at hsuffix
    exact ⟨raw, rest, k, hrequest, hraw, hlast, hk, hsuffix, hscan⟩
  · rintro ⟨raw', rest', k, hrequest', hraw', -, hk, hsuffix, hscan⟩
    obtain ⟨rfl, rfl⟩ := append_cons_inj hraw hraw' (hrequest.symm.trans hrequest')
    refine ⟨k + (raw.length + 1), by rw [hk]; rfl, ?_, hscan⟩
    rw [htake, suffix_append_cons_iff hfree]
    exact hsuffix

end Versions

/-- A line that ends in another version does not end in HTTP/1.1. -/
theorem not_suffix_of_version {form : GetForm} (hversion : form.version = ascii "HTTP/1.0") :
    ¬ ascii " HTTP/1.1" <:+ form.line := by
  intro hsuffix
  have hline : ascii " HTTP/1.0" <:+ form.line := by
    have hspaced : ascii " HTTP/1.0" = 32 :: ascii "HTTP/1.0" := by decide
    rw [GetForm.line, hversion, hspaced, ← List.cons_append, ← List.append_assoc]
    exact List.suffix_append _ _
  have hsame := (List.suffix_of_suffix_length_le hsuffix hline (by decide)).eq_of_length (by decide)
  exact absurd hsame (by decide)

/-- The version for which the connection is kept open is the one the router
reads, unless the router reads HTTP/1.0 off a line that hides it. -/
theorem version_agrees_iff {request method target version : List UInt8} {parts : RequestParts}
    (hget : parseRequest request = .get parts)
    (hpieces : HasPieces request method target version) :
    (connectionShouldClose request = false → version = ascii "HTTP/1.1") ↔
      version = ascii "HTTP/1.1" ∨ ¬ HidesVersion request := by
  obtain ⟨form, hform, -⟩ := describes_of_get hget
  obtain ⟨-, -, rfl⟩ := hpieces.unique hform.pieces
  rcases hform.version with hone | hzero
  · exact ⟨fun _ => Or.inl hone, fun _ _ => hone⟩
  have hother : ¬ form.version = ascii "HTTP/1.1" := by
    rw [hzero]
    decide
  obtain ⟨hcut, hfeed⟩ := hform.cut
  have hclose : connectionShouldClose request = false ↔ HidesVersion request := by
    rcases hform.lineEnd with hend | hend
    · -- a bare line feed: the version is looked for behind it
      rw [hend, List.dropLast_singleton, List.append_nil] at hcut hfeed
      exact close_of_bare_lineEnd hcut hfeed hform.getLast?_line
    · -- a whole line end is the first of the request
      have hdrop : form.lineEnd.dropLast = [13] := by rw [hend]; rfl
      rw [hdrop] at hcut hfeed
      have hline : windowPosition [13, 10] request = some form.line.length := by
        have hnot : 10 ∉ form.line := fun hmem => hfeed (List.mem_append_left _ hmem)
        rw [hcut, List.append_assoc]
        exact windowPosition_pair_first (by decide) hnot form.rest
      constructor
      · rw [connectionShouldClose_eq_false_iff]
        rintro ⟨lineEnd, hfound, hsuffix, -⟩
        cases hline.symm.trans hfound
        rw [hcut, List.append_assoc, List.take_left] at hsuffix
        exact absurd hsuffix (not_suffix_of_version hzero)
      · rintro ⟨raw, rest, -, hrequest, hraw, hlast, -⟩
        obtain ⟨rfl, -⟩ := append_cons_inj hfeed hraw (hcut.symm.trans hrequest)
        exact absurd (List.getLast?_concat ..) hlast
  rw [or_iff_right hother, hclose]
  exact ⟨fun h hhides => hother (h hhides), fun h hhides => absurd hhides h⟩

/-- A request of version 1.0 that ends its request line with a bare line feed. -/
def hiddenVersion : List UInt8 :=
  ascii "GET / HTTP/1.0\nX HTTP/1.1\r\n\r\n"

theorem hiddenVersion_accepted :
    parseRequest hiddenVersion = .get ⟨ascii "/", [], fnv1a (ascii "/")⟩ ∧
      HasPieces hiddenVersion (ascii "GET") (ascii "/") (ascii "HTTP/1.0") := by
  rw [← linePieces_eq_three_iff]
  decide +kernel

theorem version_agrees_iff_hidden :
    (connectionShouldClose hiddenVersion = false → ascii "HTTP/1.0" = ascii "HTTP/1.1") ↔
      ascii "HTTP/1.0" = ascii "HTTP/1.1" ∨ ¬ HidesVersion hiddenVersion :=
  version_agrees_iff hiddenVersion_accepted.1 hiddenVersion_accepted.2

theorem version_disagrees :
    frameLen headerTerminator hiddenVersion = some hiddenVersion.length ∧
      (∃ parts, parseRequest hiddenVersion = .get parts) ∧
      HasPieces hiddenVersion (ascii "GET") (ascii "/") (ascii "HTTP/1.0") ∧
      ¬ (connectionShouldClose hiddenVersion = false → ascii "HTTP/1.0" = ascii "HTTP/1.1") := by
  have hkept : connectionShouldClose hiddenVersion = false := by decide +kernel
  refine ⟨by decide +kernel, ⟨_, hiddenVersion_accepted.1⟩, hiddenVersion_accepted.2, fun h => ?_⟩
  exact absurd (h hkept) (by decide)

end Http
end Gput
