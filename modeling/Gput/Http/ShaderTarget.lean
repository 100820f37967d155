import Gput.Http.Bytecode

/-!
# The request line in the shader

`parse_get_target` walks over the bytes of a request with a cursor.  It stops at
the first space, cuts the target at its first question mark on the way, and
accepts when one of two versions and a line end stand behind the space:
`parseGetTarget_cases`.
-/

namespace Gput
namespace Http
namespace Shader

open ByteString LittleEndian WordMemory

/-- A request in the input words, with its length in the metadata. -/
structure Presented (bindings : Bindings) (requestIndex : UInt32) (request : List UInt8) : Prop where
  stored : Holds bindings.inputWords (bindings.requestMeta requestIndex).wordOffset request
  len : (bindings.requestMeta requestIndex).inputLen.toNat = request.length

/-- The variables of the loop behind a target without a space. -/
def scanOf (target : Text) : TargetScan where
  cursor := UInt32.ofNat (4 + target.length)
  pathHash := fnv1a (splitTarget target).1
  pathLen := UInt32.ofNat (splitTarget target).1.length
  queryStart := if 63 ∈ target then UInt32.ofNat (4 + (splitTarget target).1.length + 1) else 0
  queryLen := UInt32.ofNat (splitTarget target).2.length
  inQuery := decide (63 ∈ target)
  foundTargetEnd := false

theorem splitTarget_of_not_mem {target : Text} (h : 63 ∉ target) :
    splitTarget target = (target, []) := by
  have hnone : target.findIdx? (· == 63) = none := by
    rw [List.findIdx?_eq_none_iff]
    intro byte hmem
    exact beq_eq_false_iff_ne.mpr fun heq => h (heq ▸ hmem)
  rw [splitTarget, hnone]

theorem splitTarget_of_mem {path query : Text} (h : 63 ∉ path) :
    splitTarget (path ++ 63 :: query) = (path, query) := by
  have hsome : (path ++ 63 :: query).findIdx? (· == 63) = some path.length := by
    rw [findIdx?_eq_some_iff_cut, List.take_left, List.drop_append]
    refine ⟨by simp, by simp, h⟩
  rw [splitTarget, hsome]
  simp only
  rw [List.take_left, ← List.drop_drop, List.drop_left]
  rfl

/-- A target is a path, or a path, a question mark and a query. -/
theorem splitTarget_cases (target : Text) :
    (63 ∉ target ∧ splitTarget target = (target, [])) ∨
      ∃ path query, 63 ∉ path ∧ target = path ++ 63 :: query ∧
        splitTarget target = (path, query) := by
  by_cases hmem : 63 ∈ target
  · obtain ⟨path, query, htarget, hpath⟩ := List.eq_append_cons_of_mem hmem
    refine Or.inr ⟨path, query, hpath, htarget, ?_⟩
    rw [htarget]
    exact splitTarget_of_mem hpath
  · exact Or.inl ⟨hmem, splitTarget_of_not_mem hmem⟩

theorem fnv1a_snoc (bytes : List UInt8) (byte : UInt8) :
    fnv1a (bytes ++ [byte]) = (fnv1a bytes ^^^ byte.toUInt32) * fnvPrime := by
  rw [fnv1a, List.foldl_append]
  rfl

/-- One byte of the loop is one byte of the target. -/
theorem scanOf_step (target : Text) (byte : UInt8) :
    (scanOf target).step byte.toUInt32 = scanOf (target ++ [byte]) := by
  have hsucc (n : Nat) : UInt32.ofNat (n + 1) = UInt32.ofNat n + 1 := UInt32.ofNat_add n 1
  have hlength (text : Text) : (text ++ [byte]).length = text.length + 1 := by
    rw [List.length_append, List.length_singleton]
  have hmark : byte.toUInt32 = 63 ↔ byte = 63 := @UInt8.toUInt32_inj byte 63
  rcases splitTarget_cases target with ⟨hmem, hsplit⟩ | ⟨path, query, hpath, rfl, hsplit⟩
  · rcases eq_or_ne byte 63 with rfl | hbyte
    · have hnext : splitTarget (target ++ [63]) = (target, []) := splitTarget_of_mem hmem
      have hmem' : (63 : UInt8) ∈ target ++ [63] := List.mem_append_right _ (by simp)
      simp only [TargetScan.step, scanOf, hsplit, hnext, hmark, hmem, hmem', hlength,
        ← Nat.add_assoc, hsucc, decide_false, decide_true, if_true]
    · have hmem' : 63 ∉ target ++ [byte] := by
        rw [List.mem_append, List.mem_singleton]
        rintro (h | h)
        · exact hmem h
        · exact hbyte h.symm
      have hnext : splitTarget (target ++ [byte]) = (target ++ [byte], []) :=
        splitTarget_of_not_mem hmem'
      simp only [TargetScan.step, scanOf, hsplit, hnext, hmark, hbyte, hmem, hmem', decide_false,
        if_true, if_false, fnv1a_snoc, hlength, ← Nat.add_assoc, hsucc]
  · have hnext : splitTarget (path ++ 63 :: query ++ [byte]) = (path, query ++ [byte]) := by
      rw [List.append_assoc]
      exact splitTarget_of_mem hpath
    have hmem : (63 : UInt8) ∈ path ++ 63 :: query := by simp
    have hmem' : (63 : UInt8) ∈ path ++ 63 :: query ++ [byte] := List.mem_append_left _ hmem
    simp only [TargetScan.step, scanOf, hsplit, hnext, hmem, hmem', decide_true,
      Bool.true_eq_false, if_true, if_false, hlength, ← Nat.add_assoc, hsucc]

section Requests

variable {bindings : Bindings} {requestIndex inputLen : UInt32} {request : List UInt8}

theorem requestByte_eq (h : Presented bindings requestIndex request) {i : UInt32}
    (hi : i.toNat < request.length) :
    requestByte bindings requestIndex i = (request.getD i.toNat 0).toUInt32 :=
  readByte_eq h.stored hi

/-- The loop takes the bytes up to the first space. -/
theorem scanTarget_eq (h : Presented bindings requestIndex request)
    (hlen : inputLen.toNat = request.length) {target rest : List UInt8}
    (hrequest : request.drop 4 = target ++ rest) (hfour : 4 ≤ request.length) :
    scanTarget bindings requestIndex inputLen (scanOf target) =
      match rest.findIdx? (· == 32) with
      | none => scanOf (target ++ rest)
      | some spaceAt => { scanOf (target ++ rest.take spaceAt) with foundTargetEnd := true } := by
  induction rest generalizing target with
  | nil =>
      have hlength := congrArg List.length hrequest
      have hbound := inputLen.toNat_lt
      rw [List.length_drop, List.append_nil] at hlength
      have hend : ¬ (scanOf target).cursor < inputLen := by
        rw [UInt32.lt_iff_toNat_lt, scanOf, UInt32.toNat_ofNat', Nat.mod_eq_of_lt (by omega)]
        omega
      rw [scanTarget, if_neg hend, List.append_nil]
      rfl
  | cons byte rest ih =>
      have hlength := congrArg List.length hrequest
      have hbound := inputLen.toNat_lt
      rw [List.length_drop, List.length_append, List.length_cons] at hlength
      have hcursor : (scanOf target).cursor.toNat = 4 + target.length := by
        rw [scanOf, UInt32.toNat_ofNat', Nat.mod_eq_of_lt (by omega)]
      have hinside : (scanOf target).cursor < inputLen := by
        rw [UInt32.lt_iff_toNat_lt, hcursor]
        omega
      have hbyte : requestByte bindings requestIndex (scanOf target).cursor = byte.toUInt32 := by
        rw [requestByte_eq h (by omega), hcursor, ← getD_drop, hrequest,
          List.getD_eq_getElem?_getD, List.getElem?_append_right (le_refl _), Nat.sub_self]
        rfl
      have hspace : byte.toUInt32 = 32 ↔ byte = 32 := @UInt8.toUInt32_inj byte 32
      rw [scanTarget, if_pos hinside, hbyte, List.findIdx?_cons]
      by_cases heq : byte = 32
      · rw [if_pos (hspace.mpr heq)]
        simp only [heq, if_true, beq_self_eq_true, List.take_zero, List.append_nil]
      · rw [if_neg (by rwa [hspace]), scanOf_step, ih (by rw [hrequest, List.append_assoc]; rfl)]
        simp only [beq_eq_false_iff_ne.mpr heq, if_false, Bool.false_eq_true]
        cases rest.findIdx? (· == 32) with
        | none => rw [List.append_assoc]; rfl
        | some spaceAt => simp only [Option.map_some, List.take_succ_cons, List.append_assoc,
            List.singleton_append]

end Requests

/-- A supported version and a line end. -/
def SupportedVersion (bytes : List UInt8) : Prop :=
  ∃ version, (version = ascii "HTTP/1.1" ∨ version = ascii "HTTP/1.0") ∧
    (version ++ [10] <+: bytes ∨ version ++ [13, 10] <+: bytes)

/-- The version, byte by byte. -/
theorem supportedVersion_iff (bytes : List UInt8) :
    SupportedVersion bytes ↔
      8 < bytes.length ∧
        (bytes.getD 0 0 = 72 ∧ bytes.getD 1 0 = 84 ∧ bytes.getD 2 0 = 84 ∧ bytes.getD 3 0 = 80 ∧
          bytes.getD 4 0 = 47 ∧ bytes.getD 5 0 = 49 ∧ bytes.getD 6 0 = 46 ∧
          (bytes.getD 7 0 = 48 ∨ bytes.getD 7 0 = 49)) ∧
        (bytes.getD 8 0 = 10 ∨
          bytes.getD 8 0 = 13 ∧ 9 < bytes.length ∧ bytes.getD 9 0 = 10) := by
  have hone : ascii "HTTP/1.1" = [72, 84, 84, 80, 47, 49, 46, 49] := by decide
  have hzero : ascii "HTTP/1.0" = [72, 84, 84, 80, 47, 49, 46, 48] := by decide
  rw [SupportedVersion, hone, hzero]
  constructor
  · rintro ⟨version, rfl | rfl, ⟨rest, rfl⟩ | ⟨rest, rfl⟩⟩ <;> simp
  · rintro ⟨hlong, ⟨h0, h1, h2, h3, h4, h5, h6, h7⟩, hend⟩
    match bytes, hlong with
    | b0 :: b1 :: b2 :: b3 :: b4 :: b5 :: b6 :: b7 :: b8 :: rest, _ =>
        simp only [List.getD_cons_zero, List.getD_cons_succ, List.length_cons] at *
        subst h0 h1 h2 h3 h4 h5 h6
        have hline : b8 = 10 ∨ ∃ more, b8 = 13 ∧ rest = 10 :: more := by
          rcases hend with hend | ⟨hend, hlen, hnext⟩
          · exact Or.inl hend
          · match rest, hlen, hnext with
            | b9 :: more, _, hnext => exact Or.inr ⟨more, hend, by rw [← hnext]; rfl⟩
        rcases h7 with rfl | rfl
        · refine ⟨_, Or.inr rfl, ?_⟩
          rcases hline with rfl | ⟨more, rfl, rfl⟩
          · exact Or.inl ⟨rest, rfl⟩
          · exact Or.inr ⟨more, rfl⟩
        · refine ⟨_, Or.inl rfl, ?_⟩
          rcases hline with rfl | ⟨more, rfl, rfl⟩
          · exact Or.inl ⟨rest, rfl⟩
          · exact Or.inr ⟨more, rfl⟩

section Requests

variable {bindings : Bindings} {requestIndex inputLen : UInt32} {request : List UInt8}

theorem hasSupportedHttpVersion_iff (h : Presented bindings requestIndex request)
    (hlen : inputLen.toNat = request.length) (hfits : request.length + 16 ≤ 2 ^ 32)
    {versionStart : UInt32} (hstart : versionStart.toNat ≤ request.length) :
    hasSupportedHttpVersion bindings requestIndex inputLen versionStart = true ↔
      SupportedVersion (request.drop versionStart.toNat) := by
  have hoffset (k : Nat) (hk : k < 16) : (versionStart + UInt32.ofNat k).toNat =
      versionStart.toNat + k := by
    rw [UInt32.toNat_add, UInt32.toNat_ofNat']
    omega
  have hbyte (k : Nat) (hk : k < 16) (b : UInt8) (hin : versionStart.toNat + k < request.length) :
      requestByte bindings requestIndex (versionStart + UInt32.ofNat k) = b.toUInt32 ↔
        (request.drop versionStart.toNat).getD k 0 = b := by
    rw [requestByte_eq h (by rw [hoffset k hk]; exact hin), hoffset k hk, ← getD_drop,
      UInt8.toUInt32_inj]
  have hlength : (request.drop versionStart.toNat).length =
      request.length - versionStart.toNat := List.length_drop
  have hlong : versionStart + 8 ≥ inputLen ↔ ¬ 8 < (request.drop versionStart.toNat).length := by
    rw [ge_iff_le, UInt32.le_iff_toNat_le, hlen, hlength]
    have := hoffset 8 (by omega)
    rw [show UInt32.ofNat 8 = 8 from rfl] at this
    omega
  have hlonger : versionStart + 9 < inputLen ↔ 9 < (request.drop versionStart.toNat).length := by
    rw [UInt32.lt_iff_toNat_lt, hlen, hlength]
    have := hoffset 9 (by omega)
    rw [show UInt32.ofNat 9 = 9 from rfl] at this
    omega
  rw [supportedVersion_iff, hasSupportedHttpVersion]
  by_cases hshort : versionStart + 8 ≥ inputLen
  · rw [if_pos hshort]
    exact iff_of_false Bool.false_ne_true fun hand => hlong.mp hshort hand.1
  · have hin := not_not.mp (fun hnot => hshort (hlong.mpr hnot))
    have hinside := hlength ▸ hin
    have at0 : requestByte bindings requestIndex (versionStart + 0) = 72 ↔ _ :=
      hbyte 0 (by omega) 72 (by omega)
    have at1 : requestByte bindings requestIndex (versionStart + 1) = 84 ↔ _ :=
      hbyte 1 (by omega) 84 (by omega)
    have at2 : requestByte bindings requestIndex (versionStart + 2) = 84 ↔ _ :=
      hbyte 2 (by omega) 84 (by omega)
    have at3 : requestByte bindings requestIndex (versionStart + 3) = 80 ↔ _ :=
      hbyte 3 (by omega) 80 (by omega)
    have at4 : requestByte bindings requestIndex (versionStart + 4) = 47 ↔ _ :=
      hbyte 4 (by omega) 47 (by omega)
    have at5 : requestByte bindings requestIndex (versionStart + 5) = 49 ↔ _ :=
      hbyte 5 (by omega) 49 (by omega)
    have at6 : requestByte bindings requestIndex (versionStart + 6) = 46 ↔ _ :=
      hbyte 6 (by omega) 46 (by omega)
    have at7 : requestByte bindings requestIndex (versionStart + 7) = 48 ↔ _ :=
      hbyte 7 (by omega) 48 (by omega)
    have at7' : requestByte bindings requestIndex (versionStart + 7) = 49 ↔ _ :=
      hbyte 7 (by omega) 49 (by omega)
    have at8 : requestByte bindings requestIndex (versionStart + 8) = 10 ↔ _ :=
      hbyte 8 (by omega) 10 (by omega)
    have hcarriage : requestByte bindings requestIndex (versionStart + 8) = 13 ∧
          versionStart + 9 < inputLen ∧ requestByte bindings requestIndex (versionStart + 9) = 10 ↔
        (request.drop versionStart.toNat).getD 8 0 = 13 ∧
          9 < (request.drop versionStart.toNat).length ∧
          (request.drop versionStart.toNat).getD 9 0 = 10 := by
      rw [hlonger]
      refine and_congr (hbyte 8 (by omega) 13 (by omega)) (and_congr_right fun hnine => ?_)
      rw [hlength] at hnine
      exact hbyte 9 (by omega) 10 (by omega)
    rw [if_neg hshort]
    simp only [at0, at1, at2, at3, at4, at5, at6, at7, at7', at8, hcarriage, hin, true_and]
    split
    case isTrue hnot => exact iff_of_false Bool.false_ne_true fun hand => hnot hand.1
    case isFalse hversion =>
      rw [and_iff_right (not_not.mp hversion)]
      split
      case isTrue hline => exact iff_of_true rfl (Or.inl hline)
      case isFalse hline => rw [decide_eq_true_iff, or_iff_right hline]

end Requests

/-- A target, the space behind it, and a supported version with its line end. -/
def TargetLine (bytes : List UInt8) (target : Text) : Prop :=
  ∃ rest, bytes = target ++ 32 :: rest ∧ 32 ∉ target ∧ target.head? = some 47 ∧
    SupportedVersion rest

/-- What the shader keeps of a target. -/
def targetOf (target : Text) (inputLen : UInt32) : RequestTarget where
  pathStart := 4
  pathLen := UInt32.ofNat (splitTarget target).1.length
  queryStart :=
    if 63 ∈ target then UInt32.ofNat (4 + (splitTarget target).1.length + 1)
    else UInt32.ofNat (4 + target.length)
  queryLen := UInt32.ofNat (splitTarget target).2.length
  pathHash := fnv1a (splitTarget target).1
  inputLen := inputLen
  valid := 1

/-- The target ends at the first space. -/
theorem TargetLine.first_space {bytes : List UInt8} {target : Text} (h : TargetLine bytes target) :
    bytes.findIdx? (· == 32) = some target.length ∧
      SupportedVersion (bytes.drop (target.length + 1)) := by
  obtain ⟨rest, rfl, hspace, -, hversion⟩ := h
  have hrest : (target ++ 32 :: rest).drop (target.length + 1) = rest := by
    rw [← List.drop_drop, List.drop_left]
    rfl
  rw [findIdx?_eq_some_iff_cut, List.take_left, hrest]
  exact ⟨⟨rfl, by simp, hspace⟩, hversion⟩

/-- The path of a target that starts with a slash is not empty. -/
theorem splitTarget_ne_nil {target : Text} (h : target.head? = some 47) :
    (splitTarget target).1 ≠ [] := by
  rcases splitTarget_cases target with ⟨-, hsplit⟩ | ⟨path, query, -, rfl, hsplit⟩
  · rw [hsplit]
    rintro rfl
    cases h
  · rw [hsplit]
    rintro rfl
    cases h

theorem splitTarget_length_le (target : Text) :
    (splitTarget target).1.length + (splitTarget target).2.length ≤ target.length := by
  rcases splitTarget_cases target with ⟨-, hsplit⟩ | ⟨path, query, -, htarget, hsplit⟩
  · rw [hsplit]
    exact le_refl _
  · rw [hsplit, htarget, List.length_append, List.length_cons]
    exact Nat.add_le_add_left (Nat.le_succ _) _

section Requests

variable {bindings : Bindings} {requestIndex inputLen : UInt32} {request : List UInt8}

/-- `parse_get_target` accepts the requests with a target line, and keeps its target. -/
theorem parseGetTarget_cases (h : Presented bindings requestIndex request)
    (hlen : inputLen.toNat = request.length) (hfits : request.length + 16 ≤ 2 ^ 32) :
    (∃ target, TargetLine (request.drop 4) target ∧
        parseGetTarget bindings requestIndex inputLen = targetOf target inputLen) ∨
      (∀ target, ¬ TargetLine (request.drop 4) target) ∧
        parseGetTarget bindings requestIndex inputLen = invalidTarget inputLen := by
  have hfirst : inputLen ≤ 4 ∨ requestByte bindings requestIndex 4 ≠ 47 ↔
      ¬ (request.drop 4).head? = some 47 := by
    have hfour : inputLen ≤ 4 ↔ request.length ≤ 4 := by
      rw [UInt32.le_iff_toNat_le, hlen]
      rfl
    rcases Nat.lt_or_ge 4 request.length with hlong | hshort
    · have hbyte : requestByte bindings requestIndex 4 = 47 ↔ request.getD 4 0 = 47 := by
        rw [@requestByte_eq bindings requestIndex request h 4 hlong]
        exact @UInt8.toUInt32_inj (request.getD 4 0) 47
      rw [hfour, or_iff_right (by omega), ne_eq, hbyte, List.head?_drop,
        List.getD_eq_getElem?_getD, List.getElem?_eq_getElem hlong, Option.getD_some,
        Option.some.injEq]
    · rw [List.drop_eq_nil_of_le hshort]
      exact iff_of_true (Or.inl (hfour.mpr hshort)) (by simp)
  have hscan (hfour : 4 ≤ request.length) :=
    @scanTarget_eq bindings requestIndex inputLen request h hlen [] (request.drop 4) rfl hfour
  rw [parseGetTarget]
  by_cases hslash : (request.drop 4).head? = some 47
  · have hlong : 4 < request.length := by
      by_contra hshort
      rw [List.drop_eq_nil_of_le (by omega)] at hslash
      cases hslash
    rw [if_neg (by rwa [hfirst, not_not])]
    simp only
    rw [show (⟨4, fnvOffsetBasis, 0, 0, 0, false, false⟩ : TargetScan) = scanOf [] from rfl,
      hscan hlong.le]
    cases hspace : (request.drop 4).findIdx? (· == 32) with
    | none =>
        refine Or.inr ⟨?_, if_pos (Or.inl rfl)⟩
        rintro target ⟨rest, hbytes, -⟩
        rw [List.findIdx?_eq_none_iff] at hspace
        have := hspace 32 (by rw [hbytes]; simp)
        simp at this
    | some spaceAt =>
        obtain ⟨hcut, hlt, hnot⟩ := findIdx?_eq_some_iff_cut.mp hspace
        rw [List.length_drop] at hlt
        simp only [List.nil_append]
        have htarget : ((request.drop 4).take spaceAt).length = spaceAt := by
          rw [List.length_take, List.length_drop]
          omega
        generalize (request.drop 4).take spaceAt = target at *
        have hhead : target.head? = some 47 := by
          rw [hcut] at hslash
          cases target with
          | nil => cases hslash
          | cons byte target => exact hslash
        have hpath := splitTarget_length_le target
        have hpathLen : (scanOf target).pathLen ≠ 0 := by
          intro hzero
          have hnat := congrArg UInt32.toNat hzero
          rw [scanOf, UInt32.toNat_ofNat', Nat.mod_eq_of_lt (by omega)] at hnat
          exact splitTarget_ne_nil hhead (List.eq_nil_of_length_eq_zero hnat)
        have hcursor : ((scanOf target).cursor + 1).toNat = 4 + (spaceAt + 1) := by
          rw [scanOf, UInt32.toNat_add, UInt32.toNat_ofNat', htarget]
          show ((4 + spaceAt) % 2 ^ 32 + 1) % 2 ^ 32 = _
          omega
        have hversion := @hasSupportedHttpVersion_iff bindings requestIndex inputLen request h hlen
          hfits ((scanOf target).cursor + 1) (by omega)
        rw [hcursor, ← List.drop_drop] at hversion
        rw [if_neg (by rintro (hfound | hzero); cases hfound; exact hpathLen hzero)]
        by_cases hsupported : SupportedVersion ((request.drop 4).drop (spaceAt + 1))
        · rw [if_neg (by rw [hversion.mpr hsupported]; simp)]
          refine Or.inl ⟨target, ⟨_, hcut, hnot, hhead, hsupported⟩, ?_⟩
          simp only [targetOf, scanOf]
          by_cases hmark : 63 ∈ target
          · simp only [hmark, decide_true, Bool.true_eq_false, if_true, if_false]
          · simp only [hmark, decide_false, if_true, if_false]
        · rw [if_pos (Bool.eq_false_iff.mpr fun hyes => hsupported (hversion.mp hyes))]
          refine Or.inr ⟨fun other hother => hsupported ?_, rfl⟩
          obtain ⟨hat, hyes⟩ := hother.first_space
          rw [hspace] at hat
          cases hat
          exact hyes
  · rw [if_pos (hfirst.mpr hslash)]
    refine Or.inr ⟨?_, rfl⟩
    rintro target ⟨rest, hbytes, -, hhead, -⟩
    refine hslash ?_
    rw [hbytes]
    cases target with
    | nil => cases hhead
    | cons byte target => exact hhead

/-- The ranges of an accepted target hold its path and its query. -/
theorem targetOf_parts (hfits : request.length < 2 ^ 32) {target : Text}
    (htarget : TargetLine (request.drop 4) target) :
    targetParts request (targetOf target inputLen) =
        { path := (splitTarget target).1
          query := (splitTarget target).2
          pathHash := fnv1a (splitTarget target).1 } ∧
      4 + (splitTarget target).1.length ≤ request.length ∧
      (targetOf target inputLen).queryStart.toNat + (splitTarget target).2.length ≤
        request.length := by
  obtain ⟨rest, hbytes, -⟩ := htarget
  have hlength := congrArg List.length hbytes
  rw [List.length_drop, List.length_append, List.length_cons] at hlength
  have hword {n : Nat} (hn : n ≤ request.length) : (UInt32.ofNat n).toNat = n := by
    rw [UInt32.toNat_ofNat', Nat.mod_eq_of_lt (by omega)]
  rcases splitTarget_cases target with ⟨hmark, hsplit⟩ | ⟨path, query, hmark, htarget, hsplit⟩
  · have hpath : (UInt32.ofNat target.length).toNat = target.length := hword (by omega)
    have hstart : (UInt32.ofNat (4 + target.length)).toNat = 4 + target.length := hword (by omega)
    simp only [targetParts, targetOf, hsplit, if_neg hmark, hpath, hstart]
    refine ⟨?_, by omega, by simp only [List.length_nil]; omega⟩
    rw [show (4 : UInt32).toNat = 4 from rfl, hbytes, List.take_left]
    rfl
  · have hmem : 63 ∈ target := by
      rw [htarget]
      simp
    rw [htarget, List.length_append, List.length_cons] at hlength
    have hpath : (UInt32.ofNat path.length).toNat = path.length := hword (by omega)
    have hquery : (UInt32.ofNat query.length).toNat = query.length := hword (by omega)
    have hstart : (UInt32.ofNat (4 + path.length + 1)).toNat = 4 + (path.length + 1) :=
      hword (by omega)
    have hbehind : request.drop (4 + (path.length + 1)) = query ++ 32 :: rest := by
      rw [← List.drop_drop, hbytes, htarget, List.append_assoc, ← List.drop_drop, List.drop_left]
      rfl
    simp only [targetParts, targetOf, hsplit, if_pos hmem, hpath, hquery, hstart]
    refine ⟨?_, by omega, by omega⟩
    rw [show (4 : UInt32).toNat = 4 from rfl, hbytes, hbehind, htarget, List.append_assoc,
      List.take_left, List.take_left]

/-- The ranges of what `parse_get_target` returns lie inside the request. -/
theorem inRequest_targetOf (h : Presented bindings requestIndex request)
    (hfits : request.length < 2 ^ 32) {target : Text}
    (htarget : TargetLine (request.drop 4) target) :
    InRequest bindings requestIndex request (targetOf target inputLen) := by
  obtain ⟨-, hpath, hquery⟩ := @targetOf_parts inputLen request hfits target htarget
  refine ⟨h.stored, hfits, ?_, ?_⟩
  · show 4 + (UInt32.ofNat (splitTarget target).1.length).toNat ≤ request.length
    rw [UInt32.toNat_ofNat', Nat.mod_eq_of_lt (by omega)]
    exact hpath
  · show _ + (UInt32.ofNat (splitTarget target).2.length).toNat ≤ request.length
    rw [UInt32.toNat_ofNat', Nat.mod_eq_of_lt (by omega)]
    exact hquery

theorem inRequest_invalidTarget (h : Presented bindings requestIndex request)
    (hfits : request.length < 2 ^ 32) :
    InRequest bindings requestIndex request (invalidTarget inputLen) :=
  ⟨h.stored, hfits, Nat.zero_le _, Nat.zero_le _⟩

theorem inRequest_parseGetTarget (h : Presented bindings requestIndex request)
    (hlen : inputLen.toNat = request.length) (hfits : request.length + 16 ≤ 2 ^ 32) :
    InRequest bindings requestIndex request (parseGetTarget bindings requestIndex inputLen) := by
  rcases parseGetTarget_cases h hlen hfits with ⟨target, htarget, hparse⟩ | ⟨-, hparse⟩
  · rw [hparse]
    exact inRequest_targetOf h (by omega) htarget
  · rw [hparse]
    exact inRequest_invalidTarget h (by omega)

end Requests

end Shader
end Http
end Gput
