import Gput.Http.Request

/-!
# The request line

What `parse_request` accepts, as a grammar: a request it takes for a GET is cut
into the parts of a `GetForm` in exactly one way, and of the other requests it
reports those with another method apart: `parseRequest_grammar`.
-/

namespace Gput
namespace Http

open ByteString AsciiText

/-- The first line of a request, less one carriage return. -/
def FirstLine (request line : List UInt8) : Prop :=
  ∃ raw rest, request = raw ++ 10 :: rest ∧ 10 ∉ raw ∧ line = stripLast 13 raw

theorem firstLine_iff {request line : List UInt8} :
    FirstLine request line ↔ ∃ lineEnd, request.findIdx? (· == 10) = some lineEnd ∧
      line = stripLast 13 (request.take lineEnd) := by
  constructor
  · rintro ⟨raw, rest, rfl, hraw, rfl⟩
    exact ⟨raw.length, findIdx?_append_cons hraw rest, by rw [List.take_left]⟩
  · rintro ⟨lineEnd, hfind, rfl⟩
    obtain ⟨hcut, -, hraw⟩ := findIdx?_eq_some_iff_cut.mp hfind
    exact ⟨_, _, hcut, hraw, rfl⟩

theorem FirstLine.unique {request line other : List UInt8} (h : FirstLine request line)
    (hother : FirstLine request other) : line = other := by
  obtain ⟨raw, rest, rfl, hraw, rfl⟩ := h
  obtain ⟨raw', rest', heq, hraw', rfl⟩ := hother
  rw [(append_cons_inj hraw hraw' heq).1]

/-- The pieces of the request line; none where no line ends. -/
def linePieces (request : List UInt8) : List Text :=
  match request.findIdx? (· == 10) with
  | none => []
  | some lineEnd => (stripLast 13 (request.take lineEnd)).splitOn 32

theorem parseRequest_eq (request : List UInt8) :
    parseRequest request =
      match linePieces request with
      | [method, target, version] =>
          if method ≠ ascii "GET" then .methodNotAllowed
          else if version ≠ ascii "HTTP/1.1" ∧ version ≠ ascii "HTTP/1.0" then .badRequest
          else if target.head? ≠ some 47 then .badRequest
          else
            let (path, query) := splitTarget target
            if path = [] then .badRequest
            else .get { path := path, query := query, pathHash := fnv1a path }
      | _ => .badRequest := by
  rw [parseRequest, linePieces]
  cases request.findIdx? (· == 10) with
  | none => rfl
  | some lineEnd => rfl

/-- A request whose first line has the three given pieces. -/
structure HasPieces (request method target version : List UInt8) : Prop where
  line : FirstLine request (method ++ 32 :: (target ++ 32 :: version))
  method : 32 ∉ method
  target : 32 ∉ target
  version : 32 ∉ version

theorem linePieces_eq_three_iff {request method target version : List UInt8} :
    linePieces request = [method, target, version] ↔ HasPieces request method target version := by
  rw [linePieces]
  constructor
  · intro h
    cases hline : request.findIdx? (· == 10) with
    | none =>
        rw [hline] at h
        cases h
    | some lineEnd =>
        rw [hline] at h
        obtain ⟨hcut, hmethod, htarget, hversion⟩ := splitOn_eq_three_iff.mp h
        exact ⟨firstLine_iff.mpr ⟨lineEnd, hline, hcut.symm⟩, hmethod, htarget, hversion⟩
  · rintro ⟨hline, hmethod, htarget, hversion⟩
    obtain ⟨lineEnd, hfind, hcut⟩ := firstLine_iff.mp hline
    rw [hfind]
    exact splitOn_eq_three_iff.mpr ⟨hcut.symm, hmethod, htarget, hversion⟩

theorem HasPieces.unique {request method target version method' target' version' : List UInt8}
    (h : HasPieces request method target version)
    (h' : HasPieces request method' target' version') :
    method = method' ∧ target = target' ∧ version = version' := by
  have hpieces := (linePieces_eq_three_iff.mpr h).symm.trans (linePieces_eq_three_iff.mpr h')
  simpa using hpieces

/-- A target is a path, alone or with a question mark and a query. -/
theorem splitTarget_eq_iff {target path query : Text} :
    splitTarget target = (path, query) ↔
      63 ∉ path ∧ (target = path ∧ query = [] ∨ target = path ++ 63 :: query) := by
  rw [splitTarget]
  constructor
  · intro h
    cases hmark : target.findIdx? (· == 63) with
    | none =>
        rw [hmark] at h
        obtain ⟨rfl, rfl⟩ := Prod.mk.inj h
        exact ⟨findIdx?_eq_none_iff_notMem.mp hmark, Or.inl ⟨rfl, rfl⟩⟩
    | some queryMark =>
        rw [hmark] at h
        obtain ⟨rfl, rfl⟩ := Prod.mk.inj h
        obtain ⟨hcut, -, hnot⟩ := findIdx?_eq_some_iff_cut.mp hmark
        exact ⟨hnot, Or.inr hcut⟩
  · rintro ⟨hnot, ⟨rfl, rfl⟩ | rfl⟩
    · rw [findIdx?_eq_none_iff_notMem.mpr hnot]
    · rw [findIdx?_append_cons hnot]
      simp only [List.take_left, drop_append_cons]

/-- The parts of a request that is a GET. -/
structure GetForm where
  path : Text
  query : Text
  tail : Text
  digit : Text
  lineEnd : List UInt8
  rest : List UInt8

/-- The parts make up a request. -/
structure GetForm.Describes (form : GetForm) (request : List UInt8) : Prop where
  request : request = ascii "GET " ++ form.path ++ form.tail ++ ascii " HTTP/1." ++ form.digit ++
    form.lineEnd ++ form.rest
  slash : form.path.head? = some 47
  path : 32 ∉ form.path ∧ 10 ∉ form.path ∧ 63 ∉ form.path
  tail : form.tail = [] ∧ form.query = [] ∨
    form.tail = 63 :: form.query ∧ 32 ∉ form.query ∧ 10 ∉ form.query
  digit : form.digit = [48] ∨ form.digit = [49]
  lineEnd : form.lineEnd = [10] ∨ form.lineEnd = [13, 10]

namespace GetForm

variable {form other : GetForm} {request : List UInt8}

def target (form : GetForm) : Text :=
  form.path ++ form.tail

def version (form : GetForm) : Text :=
  ascii "HTTP/1." ++ form.digit

def line (form : GetForm) : Text :=
  ascii "GET" ++ 32 :: (form.target ++ 32 :: form.version)

theorem Describes.target_free (h : form.Describes request) :
    32 ∉ form.target ∧ 10 ∉ form.target := by
  obtain ⟨hspace, hfeed, -⟩ := h.path
  rw [target, List.mem_append, List.mem_append]
  rcases h.tail with ⟨htail, -⟩ | ⟨htail, hspace', hfeed'⟩
  · rw [htail]
    simp [hspace, hfeed]
  · rw [htail]
    simp [hspace, hfeed, hspace', hfeed']

theorem Describes.splitTarget (h : form.Describes request) :
    Http.splitTarget form.target = (form.path, form.query) := by
  rw [splitTarget_eq_iff, target]
  refine ⟨h.path.2.2, ?_⟩
  rcases h.tail with ⟨htail, hquery⟩ | ⟨htail, -⟩
  · exact Or.inl ⟨by rw [htail, List.append_nil], hquery⟩
  · exact Or.inr (by rw [htail])

theorem Describes.version (h : form.Describes request) :
    form.version = ascii "HTTP/1.1" ∨ form.version = ascii "HTTP/1.0" := by
  rw [GetForm.version]
  rcases h.digit with hdigit | hdigit
  · rw [hdigit]
    exact Or.inr (by decide)
  · rw [hdigit]
    exact Or.inl (by decide)

/-- The first line ends in front of the line feed of the line end. -/
theorem Describes.cut (h : form.Describes request) :
    request = (form.line ++ form.lineEnd.dropLast) ++ 10 :: form.rest ∧
      10 ∉ form.line ++ form.lineEnd.dropLast := by
  have hget : ascii "GET " = ascii "GET" ++ [32] := by decide
  have hversion : ascii " HTTP/1." = 32 :: ascii "HTTP/1." := by decide
  have hend : form.lineEnd = form.lineEnd.dropLast ++ [10] ∧ 10 ∉ form.lineEnd.dropLast := by
    rcases h.lineEnd with hend | hend
    · rw [hend]
      decide
    · rw [hend]
      decide
  have hfree : 10 ∉ ascii "GET" ∧ 10 ∉ ascii "HTTP/1.1" ∧ 10 ∉ ascii "HTTP/1.0" := by decide
  have hversionFree : 10 ∉ form.version := by
    rcases h.version with hnamed | hnamed
    · rw [hnamed]
      exact hfree.2.1
    · rw [hnamed]
      exact hfree.2.2
  constructor
  · rw [h.request, hend.1, hget, hversion]
    simp only [line, target, GetForm.version, List.append_assoc, List.cons_append, List.nil_append,
      List.dropLast_concat]
  · simp only [line, List.mem_append, List.mem_cons, not_or]
    exact ⟨⟨hfree.1, by decide, h.target_free.2, by decide, hversionFree⟩, hend.2⟩

theorem Describes.getLast?_line (h : form.Describes request) :
    form.line.getLast? ≠ some 13 := by
  rw [line, List.getLast?_append_cons, List.getLast?_cons, List.getLast?_append_cons]
  rcases h.version with hnamed | hnamed
  · rw [hnamed]
    decide
  · rw [hnamed]
    decide

/-- A described request has the pieces of its first line. -/
theorem Describes.pieces (h : form.Describes request) :
    HasPieces request (ascii "GET") form.target form.version := by
  obtain ⟨hcut, hfeed⟩ := h.cut
  refine ⟨⟨_, _, hcut, hfeed, Eq.symm ?_⟩, by decide, h.target_free.1, ?_⟩
  · refine (stripLast_eq_iff h.getLast?_line).mpr ?_
    rcases h.lineEnd with hend | hend
    · exact Or.inl (by rw [hend, List.dropLast_singleton, List.append_nil])
    · exact Or.inr (by rw [hend]; rfl)
  · rcases h.version with hnamed | hnamed
    · rw [hnamed]
      decide
    · rw [hnamed]
      decide

/-- A request is a GET in one way only. -/
theorem Describes.unique (h : form.Describes request) (hother : other.Describes request) :
    form = other := by
  obtain ⟨-, htarget, hversion⟩ := h.pieces.unique hother.pieces
  have hparts := h.splitTarget
  rw [htarget, hother.splitTarget] at hparts
  obtain ⟨hpath, hquery⟩ := Prod.mk.inj hparts
  have htail : form.tail = other.tail := by
    rw [target, target, hpath] at htarget
    exact List.append_cancel_left htarget
  have hdigit : form.digit = other.digit := List.append_cancel_left hversion
  obtain ⟨hcut, hfeed⟩ := h.cut
  obtain ⟨hcut', hfeed'⟩ := hother.cut
  obtain ⟨hraw, hrest⟩ := append_cons_inj hfeed hfeed' (hcut.symm.trans hcut')
  have hline : form.line = other.line := by
    rw [line, line, htarget, hversion]
  rw [hline] at hraw
  have hend : form.lineEnd = other.lineEnd := by
    have hbefore := List.append_cancel_left hraw
    rcases h.lineEnd with hend | hend <;> rcases hother.lineEnd with hend' | hend' <;>
      rw [hend, hend'] at hbefore ⊢ <;> simp at hbefore
  cases form
  cases other
  simp only [mk.injEq]
  exact ⟨hpath.symm, hquery.symm, htail, hdigit, hend, hrest⟩

/-- Pieces of a supported request describe it. -/
theorem exists_describes {target version : Text}
    (h : HasPieces request (ascii "GET") target version)
    (hversion : version = ascii "HTTP/1.1" ∨ version = ascii "HTTP/1.0")
    (htarget : target.head? = some 47) :
    ∃ form : GetForm, form.Describes request ∧
      (form.path, form.query) = Http.splitTarget target := by
  obtain ⟨digit, hdigit, hversionDigit⟩ :
      ∃ digit : Text, (digit = [48] ∨ digit = [49]) ∧ version = ascii "HTTP/1." ++ digit := by
    rcases hversion with rfl | rfl
    · exact ⟨[49], Or.inr rfl, by decide⟩
    · exact ⟨[48], Or.inl rfl, by decide⟩
  obtain ⟨⟨raw, rest, hrequest, hfeed, hline⟩, -, hspace, -⟩ := h
  have hlast : (ascii "GET" ++ 32 :: (target ++ 32 :: version)).getLast? ≠ some 13 := by
    rw [List.getLast?_append_cons, List.getLast?_cons, List.getLast?_append_cons]
    rcases hversion with rfl | rfl
    · decide
    · decide
  have hcases := (stripLast_eq_iff hlast).mp hline.symm
  obtain ⟨lineEnd, hlineEnd, hraw⟩ : ∃ lineEnd : List UInt8,
      (lineEnd = [10] ∨ lineEnd = [13, 10]) ∧
        raw ++ [10] = ascii "GET" ++ 32 :: (target ++ 32 :: version) ++ lineEnd := by
    rcases hcases with hraw | hraw
    · exact ⟨[10], Or.inl rfl, by rw [hraw]⟩
    · exact ⟨[13, 10], Or.inr rfl, by rw [hraw]; simp⟩
  have htargetFeed : 10 ∉ target := by
    intro hmem
    apply hfeed
    rcases hcases with hraw | hraw
    · rw [hraw]
      simp [hmem]
    · rw [hraw]
      simp [hmem]
  have hwhole (path tail : Text) (hcut : target = path ++ tail) :
      request = ascii "GET " ++ path ++ tail ++ ascii " HTTP/1." ++ digit ++ lineEnd ++ rest := by
    have hget : ascii "GET " = ascii "GET" ++ [32] := by decide
    have hspaced : ascii " HTTP/1." = 32 :: ascii "HTTP/1." := by decide
    have hfeedRest : raw ++ 10 :: rest = raw ++ [10] ++ rest := by simp
    rw [hrequest, hfeedRest, hraw, hcut, hversionDigit, hget, hspaced]
    simp only [List.append_assoc, List.cons_append, List.nil_append]
  rcases hparts : Http.splitTarget target with ⟨path, query⟩
  obtain ⟨hmark, ⟨rfl, rfl⟩ | rfl⟩ := splitTarget_eq_iff.mp hparts
  · exact ⟨⟨target, [], [], digit, lineEnd, rest⟩,
      ⟨hwhole target [] (List.append_nil _).symm, htarget, ⟨hspace, htargetFeed, hmark⟩,
        Or.inl ⟨rfl, rfl⟩, hdigit, hlineEnd⟩, rfl⟩
  · simp only [List.mem_append, List.mem_cons, not_or] at hspace htargetFeed
    have hslash : path.head? = some 47 := by
      cases path with
      | nil => cases htarget
      | cons byte path => exact htarget
    exact ⟨⟨path, query, 63 :: query, digit, lineEnd, rest⟩,
      ⟨hwhole path (63 :: query) rfl, hslash, ⟨hspace.1, htargetFeed.1, hmark⟩,
        Or.inr ⟨rfl, hspace.2.2, htargetFeed.2.2⟩, hdigit, hlineEnd⟩, rfl⟩

end GetForm

section Parser

variable {request : List UInt8}

/-- A first line of exactly three pieces, of which the first is not `GET`. -/
def OtherMethod (request : List UInt8) : Prop :=
  ∃ line method target version, FirstLine request line ∧
    line.splitOn 32 = [method, target, version] ∧ method ≠ ascii "GET"

theorem otherMethod_iff :
    OtherMethod request ↔
      ∃ method target version, HasPieces request method target version ∧ method ≠ ascii "GET" := by
  constructor
  · rintro ⟨line, method, target, version, hline, hsplit, hmethod⟩
    obtain ⟨rfl, hspaces⟩ := splitOn_eq_three_iff.mp hsplit
    exact ⟨method, target, version, ⟨hline, hspaces.1, hspaces.2.1, hspaces.2.2⟩, hmethod⟩
  · rintro ⟨method, target, version, h, hmethod⟩
    exact ⟨_, method, target, version, h.line,
      splitOn_eq_three_iff.mpr ⟨rfl, h.method, h.target, h.version⟩, hmethod⟩

theorem HasPieces.not_otherMethod {target version : Text}
    (h : HasPieces request (ascii "GET") target version) : ¬ OtherMethod request := by
  intro hother
  obtain ⟨method, _, _, h', hne⟩ := otherMethod_iff.mp hother
  exact hne (h.unique h').1.symm

theorem parseRequest_of_pieces {method target version : Text}
    (h : HasPieces request method target version) :
    parseRequest request =
      if method ≠ ascii "GET" then .methodNotAllowed
      else if version ≠ ascii "HTTP/1.1" ∧ version ≠ ascii "HTTP/1.0" then .badRequest
      else if target.head? ≠ some 47 then .badRequest
      else
        let (path, query) := splitTarget target
        if path = [] then .badRequest
        else .get { path := path, query := query, pathHash := fnv1a path } := by
  rw [parseRequest_eq, linePieces_eq_three_iff.mpr h]

theorem parseRequest_of_no_pieces
    (h : ∀ method target version, ¬ HasPieces request method target version) :
    parseRequest request = .badRequest := by
  rw [parseRequest_eq]
  split
  case h_1 method target version hpieces =>
    exact absurd (linePieces_eq_three_iff.mp hpieces) (h method target version)
  case h_2 => rfl

theorem parseRequest_of_describes {form : GetForm} (h : form.Describes request) :
    parseRequest request = .get ⟨form.path, form.query, fnv1a form.path⟩ := by
  have hhead : form.target.head? = some 47 := by
    rw [GetForm.target, List.head?_append, h.slash, Option.some_or]
  have hpath : form.path ≠ [] := by
    intro hnil
    have hslash := h.slash
    rw [hnil] at hslash
    cases hslash
  have hversion : ¬ (form.version ≠ ascii "HTTP/1.1" ∧ form.version ≠ ascii "HTTP/1.0") := by
    rintro ⟨hone, hzero⟩
    rcases h.version with hnamed | hnamed
    · exact hone hnamed
    · exact hzero hnamed
  rw [parseRequest_of_pieces h.pieces, if_neg (not_not.mpr rfl), if_neg hversion,
    if_neg (not_not.mpr hhead), h.splitTarget]
  exact if_neg hpath

/-- The three outcomes, by the pieces of the request line. -/
theorem parseRequest_cases (request : List UInt8) :
    (∃ form : GetForm, form.Describes request ∧
      parseRequest request = .get ⟨form.path, form.query, fnv1a form.path⟩) ∨
    (OtherMethod request ∧ parseRequest request = .methodNotAllowed) ∨
    ((∀ form : GetForm, ¬ form.Describes request) ∧ ¬ OtherMethod request ∧
      parseRequest request = .badRequest) := by
  by_cases hpieces : ∃ method target version, HasPieces request method target version
  swap
  · have hnone : ∀ method target version, ¬ HasPieces request method target version :=
      fun method target version h => hpieces ⟨method, target, version, h⟩
    exact Or.inr (Or.inr ⟨fun form h => hnone _ _ _ h.pieces,
      fun hother => (otherMethod_iff.mp hother).elim fun _ ⟨_, _, h, _⟩ => hnone _ _ _ h,
      parseRequest_of_no_pieces hnone⟩)
  obtain ⟨method, target, version, h⟩ := hpieces
  have hparse := parseRequest_of_pieces h
  by_cases hmethod : method = ascii "GET"
  swap
  · rw [if_pos hmethod] at hparse
    exact Or.inr (Or.inl ⟨otherMethod_iff.mpr ⟨method, target, version, h, hmethod⟩, hparse⟩)
  subst hmethod
  have hother := h.not_otherMethod
  rw [if_neg (not_not.mpr rfl)] at hparse
  by_cases hversion : version = ascii "HTTP/1.1" ∨ version = ascii "HTTP/1.0"
  swap
  · refine Or.inr (Or.inr ⟨fun form hform => hversion ?_, hother, ?_⟩)
    · rw [(h.unique hform.pieces).2.2]
      exact hform.version
    · rw [hparse, if_pos (not_or.mp hversion)]
  by_cases htarget : target.head? = some 47
  · obtain ⟨form, hform, -⟩ := GetForm.exists_describes h hversion htarget
    exact Or.inl ⟨form, hform, parseRequest_of_describes hform⟩
  · refine Or.inr (Or.inr ⟨fun form hform => htarget ?_, hother, ?_⟩)
    · rw [(h.unique hform.pieces).2.1, GetForm.target, List.head?_append, hform.slash,
        Option.some_or]
    · rw [hparse, if_neg (by rwa [not_and_or, not_not, not_not]), if_pos htarget]

theorem describes_of_get {parts : RequestParts} (h : parseRequest request = .get parts) :
    ∃ form : GetForm, form.Describes request ∧
      parts = ⟨form.path, form.query, fnv1a form.path⟩ := by
  rcases parseRequest_cases request with ⟨form, hform, hparse⟩ | ⟨-, hparse⟩ | ⟨-, -, hparse⟩
  · rw [hparse] at h
    exact ⟨form, hform, (RequestParse.get.inj h).symm⟩
  · rw [hparse] at h
    cases h
  · rw [hparse] at h
    cases h

/-- `parse_request` accepts its grammar: the GET requests, each described in one
way, the three pieces with another method, and nothing else. -/
theorem parseRequest_grammar (request : List UInt8) :
    (∀ path query hash, parseRequest request = .get ⟨path, query, hash⟩ ↔
      hash = fnv1a path ∧
        ∃ form : GetForm, form.Describes request ∧ form.path = path ∧ form.query = query) ∧
    (∀ form other : GetForm, form.Describes request → other.Describes request → form = other) ∧
    (parseRequest request = .methodNotAllowed ↔ OtherMethod request) ∧
    (parseRequest request = .badRequest ↔
      (∀ form : GetForm, ¬ form.Describes request) ∧ ¬ OtherMethod request) := by
  refine ⟨?_, fun form other => GetForm.Describes.unique, ?_, ?_⟩
  · intro path query hash
    constructor
    · intro hget
      obtain ⟨form, hform, hparts⟩ := describes_of_get hget
      cases hparts
      exact ⟨rfl, form, hform, rfl, rfl⟩
    · rintro ⟨rfl, form, hform, rfl, rfl⟩
      exact parseRequest_of_describes hform
  · constructor
    · intro hnot
      rcases parseRequest_cases request with ⟨form, -, hparse⟩ | ⟨hother, -⟩ | ⟨-, -, hparse⟩
      · rw [hparse] at hnot
        cases hnot
      · exact hother
      · rw [hparse] at hnot
        cases hnot
    · intro hother
      rcases parseRequest_cases request with ⟨form, hform, -⟩ | ⟨-, hparse⟩ | ⟨-, hnot, -⟩
      · exact absurd hother hform.pieces.not_otherMethod
      · exact hparse
      · exact absurd hother hnot
  · constructor
    · intro hbad
      rcases parseRequest_cases request with ⟨form, -, hparse⟩ | ⟨-, hparse⟩ | ⟨hnone, hnot, -⟩
      · rw [hparse] at hbad
        cases hbad
      · rw [hparse] at hbad
        cases hbad
      · exact ⟨hnone, hnot⟩
    · rintro ⟨hnone, hnot⟩
      rcases parseRequest_cases request with ⟨form, hform, -⟩ | ⟨hother, -⟩ | ⟨-, -, hparse⟩
      · exact absurd hform (hnone form)
      · exact absurd hother hnot
      · exact hparse

end Parser

end Http
end Gput
