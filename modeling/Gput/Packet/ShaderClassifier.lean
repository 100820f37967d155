import Gput.Packet.ShaderInput

/-!
# The shader's HTTP classifier

`classify_http_request` of `packet.wgsl` walks the payload with byte cursors
where the host splits it into pieces.  The two decide alike on every payload
(`classifyRequest_eq`): each loop of the shader is the search of the host's
library for the same byte or pattern.
-/

namespace Gput
namespace Packet
namespace Shader

open LittleEndian ByteString

/-- The loop of `find_crlf`. -/
def findCrlfFrom (inputWords : Words) (inputBase offset len index : UInt32) : UInt32 :=
  if index + 1 ≥ len then invalidIndex
  else if readByte inputWords inputBase (offset + index) = 13 ∧
      readByte inputWords inputBase (offset + index + 1) = 10 then index
  else findCrlfFrom inputWords inputBase offset len (index + 1)
termination_by len.toNat - (index + 1).toNat
decreasing_by exact index_decreases ‹_›

def findCrlf (inputWords : Words) (inputBase offset len : UInt32) : UInt32 :=
  if len < 2 then invalidIndex else findCrlfFrom inputWords inputBase offset len 0

/-- `find_space`, from `index` on. -/
def findSpace (inputWords : Words) (inputBase offset index stop : UInt32) : UInt32 :=
  if index ≥ stop then invalidIndex
  else if readByte inputWords inputBase (offset + index) = 32 then index
  else findSpace inputWords inputBase offset (index + 1) stop
termination_by stop.toNat - index.toNat
decreasing_by exact index_decreases ‹_›

/-- A loop that compares the bytes from `index` on with the expected ones. -/
def expectBytes (inputWords : Words) (inputBase offset : UInt32) :
    UInt32 → List UInt32 → Bool
  | _, [] => true
  | index, expected :: rest =>
      if readByte inputWords inputBase (offset + index) ≠ expected then false
      else expectBytes inputWords inputBase offset (index + 1) rest

def methodIsGet (inputWords : Words) (inputBase offset len : UInt32) : Bool :=
  len = 3 ∧ readByte inputWords inputBase offset = 71 ∧
    readByte inputWords inputBase (offset + 1) = 69 ∧
    readByte inputWords inputBase (offset + 2) = 84

def versionIsSupported (inputWords : Words) (inputBase offset len : UInt32) : Bool :=
  if len ≠ 8 then false
  else if ¬ expectBytes inputWords inputBase offset 0 [72, 84, 84, 80, 47, 49, 46] then false
  else
    let minor := readByte inputWords inputBase (offset + 7)
    minor = 48 ∨ minor = 49

def pathIsPlaintext (inputWords : Words) (inputBase offset len : UInt32) : Bool :=
  if len ≠ 10 then false
  else expectBytes inputWords inputBase offset 0 [47, 112, 108, 97, 105, 110, 116, 101, 120, 116]

def pathIsHealth (inputWords : Words) (inputBase offset len : UInt32) : Bool :=
  if len ≠ 7 then false
  else expectBytes inputWords inputBase offset 0 [47, 104, 101, 97, 108, 116, 104]

/-- The loop of `classify_http_request` that cuts the path at a question mark. -/
def cutQuery (inputWords : Words) (inputBase pathOffset pathLen index : UInt32) : UInt32 :=
  if index ≥ pathLen then pathLen
  else if readByte inputWords inputBase (pathOffset + index) = 63 then index
  else cutQuery inputWords inputBase pathOffset pathLen (index + 1)
termination_by pathLen.toNat - index.toNat
decreasing_by exact index_decreases ‹_›

/-- `classify_http_request` of the shader, once it has found two spaces. -/
def classifyPieces (inputWords : Words) (inputBase payloadOffset lineEnd firstSpace
    secondSpace : UInt32) : UInt32 :=
  if secondSpace = firstSpace + 1 then responseBadRequest
  else if ¬ versionIsSupported inputWords inputBase (payloadOffset + secondSpace + 1)
      (lineEnd - secondSpace - 1) then responseBadRequest
  else if ¬ methodIsGet inputWords inputBase payloadOffset firstSpace then
    responseMethodNotAllowed
  else
    let pathOffset := payloadOffset + firstSpace + 1
    let pathLen := cutQuery inputWords inputBase pathOffset (secondSpace - firstSpace - 1) 0
    if pathIsPlaintext inputWords inputBase pathOffset pathLen then responsePlaintext
    else if pathIsHealth inputWords inputBase pathOffset pathLen then responseHealth
    else responseNotFound

/-- `classify_http_request` of the shader. -/
def classifyRequest (inputWords : Words) (inputBase payloadOffset payloadLen : UInt32) :
    UInt32 :=
  let lineEnd := findCrlf inputWords inputBase payloadOffset payloadLen
  if lineEnd = invalidIndex then responseBadRequest
  else
    let firstSpace := findSpace inputWords inputBase payloadOffset 0 lineEnd
    if firstSpace = invalidIndex then responseBadRequest
    else
      let secondSpace := findSpace inputWords inputBase payloadOffset (firstSpace + 1) lineEnd
      if secondSpace = invalidIndex then responseBadRequest
      else classifyPieces inputWords inputBase payloadOffset lineEnd firstSpace secondSpace

/-- The reads from `offset` on return the bytes of a part of the packet. -/
def ReadsAt (inputWords : Words) (inputBase offset : UInt32) (part : List UInt8) : Prop :=
  ∀ i : UInt32, i.toNat < part.length →
    readByte inputWords inputBase (offset + i) = (part.getD i.toNat 0).toUInt32

/-- A position as the shader returns it. -/
def indexOf : Option Nat → UInt32
  | none => invalidIndex
  | some i => UInt32.ofNat i

section Classifier

variable {inputWords : Words} {inputBase offset : UInt32} {part : List UInt8}

theorem toUInt32_eq_iff (b : UInt8) {n : UInt32} (hn : n.toNat < 256) :
    b.toUInt32 = n ↔ b = UInt8.ofNat n.toNat := by
  rw [← UInt32.toNat_inj, ← UInt8.toNat_inj, UInt8.toNat_toUInt32, UInt8.toNat_ofNat']
  omega

/-- The read at an index inside the part. -/
theorem ReadsAt.getElem (h : ReadsAt inputWords inputBase offset part) {i : UInt32}
    (hi : i.toNat < part.length) :
    readByte inputWords inputBase (offset + i) = part[i.toNat].toUInt32 := by
  rw [h i hi, List.getD_eq_getElem _ _ hi]

theorem ReadsAt.drop (h : ReadsAt inputWords inputBase offset part) (n : UInt32)
    (hsize : part.length < 2 ^ 32) :
    ReadsAt inputWords inputBase (offset + n) (part.drop n.toNat) := by
  intro i hi
  rw [List.length_drop] at hi
  have hadd : (n + i).toNat = n.toNat + i.toNat := by
    rw [UInt32.toNat_add]
    omega
  rw [UInt32.add_assoc, h (n + i) (by omega), hadd]
  congr 1
  simp [List.getD_eq_getElem?_getD]

theorem ReadsAt.take (h : ReadsAt inputWords inputBase offset part) (n : Nat) :
    ReadsAt inputWords inputBase offset (part.take n) := by
  intro i hi
  rw [List.length_take] at hi
  rw [h i (by omega)]
  congr 1
  rw [List.getD_eq_getElem?_getD, List.getD_eq_getElem?_getD, List.getElem?_take_of_lt (by omega)]

/-- A search from a position of the part: either the byte stands there or the
search goes on behind it. -/
theorem findIdx?_drop_eq {x : UInt8} {i : Nat} (hi : i < part.length) :
    ((part.drop i).findIdx? (· == x)).map (· + i) =
      if part[i] = x then some i
      else ((part.drop (i + 1)).findIdx? (· == x)).map (· + (i + 1)) := by
  rw [List.drop_eq_getElem_cons hi, List.findIdx?_cons]
  by_cases hx : part[i] = x
  · rw [if_pos hx, if_pos (by simpa using hx)]
    simp
  · rw [if_neg hx, if_neg (by simpa using hx), Option.map_map]
    congr 1
    funext k
    simp only [Function.comp_apply]
    omega

/-- `find_space` returns the position of the first space. -/
theorem findSpace_eq (h : ReadsAt inputWords inputBase offset part) {stop : UInt32}
    (hstop : stop.toNat = part.length) (index : UInt32) :
    findSpace inputWords inputBase offset index stop =
      indexOf (((part.drop index.toNat).findIdx? (· == 32)).map (· + index.toNat)) := by
  induction index using findSpace.induct inputWords inputBase offset stop with
  | case1 index hge =>
      rw [findSpace, if_pos hge, List.drop_eq_nil_of_le (by
        rw [← hstop]
        exact UInt32.le_iff_toNat_le.mp hge)]
      rfl
  | case2 index hge hspace =>
      have hlt : index.toNat < part.length := by
        rw [← hstop]
        exact UInt32.lt_iff_toNat_lt.mp (UInt32.not_le.mp hge)
      have hbyte : part[index.toNat] = 32 := by
        rw [h.getElem hlt, toUInt32_eq_iff _ (by decide)] at hspace
        exact hspace
      rw [findSpace, if_neg hge, if_pos hspace, findIdx?_drop_eq hlt, if_pos hbyte, indexOf,
        UInt32.ofNat_toNat]
  | case3 index hge hspace ih =>
      have hlt := UInt32.not_le.mp hge
      have hnat := UInt32.lt_iff_toNat_lt.mp hlt
      rw [hstop] at hnat
      have hbyte : part[index.toNat] ≠ 32 := by
        rw [h.getElem hnat, toUInt32_eq_iff _ (by decide)] at hspace
        exact hspace
      rw [findSpace, if_neg hge, if_neg hspace, ih, add_one_toNat hlt, findIdx?_drop_eq hnat,
        if_neg hbyte]

/-- The query loop cuts the path at its first question mark. -/
theorem cutQuery_eq (h : ReadsAt inputWords inputBase offset part) {pathLen : UInt32}
    (hlen : pathLen.toNat = part.length) (index : UInt32) :
    cutQuery inputWords inputBase offset pathLen index =
      UInt32.ofNat ((((part.drop index.toNat).findIdx? (· == 63)).map (· + index.toNat)).getD
        part.length) := by
  induction index using cutQuery.induct inputWords inputBase offset pathLen with
  | case1 index hge =>
      rw [cutQuery, if_pos hge, List.drop_eq_nil_of_le (by
        rw [← hlen]
        exact UInt32.le_iff_toNat_le.mp hge)]
      rw [List.findIdx?_nil, Option.map_none, Option.getD_none, ← hlen, UInt32.ofNat_toNat]
  | case2 index hge hmark =>
      have hlt : index.toNat < part.length := by
        rw [← hlen]
        exact UInt32.lt_iff_toNat_lt.mp (UInt32.not_le.mp hge)
      have hbyte : part[index.toNat] = 63 := by
        rw [h.getElem hlt, toUInt32_eq_iff _ (by decide)] at hmark
        exact hmark
      rw [cutQuery, if_neg hge, if_pos hmark, findIdx?_drop_eq hlt, if_pos hbyte,
        Option.getD_some, UInt32.ofNat_toNat]
  | case3 index hge hmark ih =>
      have hlt := UInt32.not_le.mp hge
      have hnat := UInt32.lt_iff_toNat_lt.mp hlt
      rw [hlen] at hnat
      have hbyte : part[index.toNat] ≠ 63 := by
        rw [h.getElem hnat, toUInt32_eq_iff _ (by decide)] at hmark
        exact hmark
      rw [cutQuery, if_neg hge, if_neg hmark, ih, add_one_toNat hlt, findIdx?_drop_eq hnat,
        if_neg hbyte]

/-- A search for a line end from a position of the part. -/
theorem windowPosition_drop_eq {i : Nat} (hi : i + 1 < part.length) :
    (windowPosition [13, 10] (part.drop i)).map (· + i) =
      if part[i] = 13 ∧ part[i + 1] = 10 then some i
      else (windowPosition [13, 10] (part.drop (i + 1))).map (· + (i + 1)) := by
  have htail : part.drop (i + 1) = part[i + 1] :: part.drop (i + 2) :=
    List.drop_eq_getElem_cons hi
  rw [List.drop_eq_getElem_cons (Nat.lt_of_succ_lt hi), htail, windowPosition_pair_cons]
  by_cases hcrlf : part[i] = 13 ∧ part[i + 1] = 10
  · rw [if_pos hcrlf, if_pos (by simp [hcrlf])]
    simp
  · have hbeq : ¬ ((13 : UInt8) == part[i] && 10 == part[i + 1]) = true := by
      rw [Bool.and_eq_true, beq_iff_eq, beq_iff_eq]
      exact fun hp => hcrlf ⟨hp.1.symm, hp.2.symm⟩
    rw [if_neg hcrlf, if_neg hbeq, Option.map_map]
    congr 1
    funext k
    simp only [Function.comp_apply]
    omega

/-- The loop of `find_crlf` returns the position of the first line end. -/
theorem findCrlfFrom_eq (h : ReadsAt inputWords inputBase offset part) {len : UInt32}
    (hlen : len.toNat = part.length) (index : UInt32) (hindex : index < len) :
    findCrlfFrom inputWords inputBase offset len index =
      indexOf ((windowPosition [13, 10] (part.drop index.toNat)).map (· + index.toNat)) := by
  have hbytes (i : UInt32) (hnext : (i + 1).toNat = i.toNat + 1)
      (hlt : i.toNat + 1 < part.length) :
      (readByte inputWords inputBase (offset + i) = 13 ∧
        readByte inputWords inputBase (offset + i + 1) = 10) ↔
      part[i.toNat] = 13 ∧ part[i.toNat + 1] = 10 := by
    rw [h.getElem (Nat.lt_of_succ_lt hlt), toUInt32_eq_iff _ (by decide), UInt32.add_assoc,
      h.getElem (by rw [hnext]; exact hlt), toUInt32_eq_iff _ (by decide)]
    simp only [hnext]
    rfl
  induction index using findCrlfFrom.induct inputWords inputBase offset len with
  | case1 index hge =>
      have hnext := add_one_toNat hindex
      rw [findCrlfFrom, if_pos hge, windowPosition_pair_short]
      · rfl
      · rw [ge_iff_le, UInt32.le_iff_toNat_le] at hge
        rw [List.length_drop]
        omega
  | case2 index hge hcrlf =>
      have hnext := add_one_toNat hindex
      have hlt := UInt32.lt_iff_toNat_lt.mp (UInt32.not_le.mp hge)
      rw [hlen, hnext] at hlt
      rw [findCrlfFrom, if_neg hge, if_pos hcrlf, windowPosition_drop_eq hlt,
        if_pos ((hbytes index hnext hlt).mp hcrlf), indexOf, UInt32.ofNat_toNat]
  | case3 index hge hcrlf ih =>
      have hnext := add_one_toNat hindex
      have hafter := UInt32.not_le.mp hge
      have hlt := UInt32.lt_iff_toNat_lt.mp hafter
      rw [hlen, hnext] at hlt
      rw [findCrlfFrom, if_neg hge, if_neg hcrlf, windowPosition_drop_eq hlt,
        if_neg (fun hp => hcrlf ((hbytes index hnext hlt).mpr hp)), ih hafter, hnext]

theorem findCrlf_eq (h : ReadsAt inputWords inputBase offset part) {len : UInt32}
    (hlen : len.toNat = part.length) :
    findCrlf inputWords inputBase offset len = indexOf (windowPosition [13, 10] part) := by
  unfold findCrlf
  by_cases hshort : len < 2
  · rw [if_pos hshort, windowPosition_pair_short]
    · rfl
    · rw [← hlen]
      exact UInt32.lt_iff_toNat_lt.mp hshort
  · have hpos : 0 < len := by
      rw [UInt32.lt_iff_toNat_lt] at hshort ⊢
      simp only [UInt32.reduceToNat] at hshort ⊢
      omega
    rw [if_neg hshort, findCrlfFrom_eq h hlen 0 hpos]
    simp

/-- A loop of comparisons accepts exactly the expected bytes. -/
theorem expectBytes_eq (expected : List UInt8) : ∀ {index : UInt32} {part : List UInt8},
    ReadsAt inputWords inputBase (offset + index) part → part.length < 2 ^ 32 →
    expected.length = part.length →
    expectBytes inputWords inputBase offset index (expected.map UInt8.toUInt32) =
      decide (part = expected) := by
  induction expected with
  | nil =>
      intro index part _ _ hlength
      rw [List.eq_nil_of_length_eq_zero hlength.symm]
      rfl
  | cons b rest ih =>
      intro index part h hsize hlength
      cases part with
      | nil => cases hlength
      | cons a part =>
          have hfirst : readByte inputWords inputBase (offset + index) = a.toUInt32 := by
            have := h 0 (Nat.succ_pos _)
            rw [UInt32.add_zero] at this
            exact this
          have hrest : ReadsAt inputWords inputBase (offset + (index + 1)) part := by
            have := h.drop 1 hsize
            rw [UInt32.add_assoc] at this
            exact this
          rw [List.map_cons, expectBytes, hfirst]
          by_cases hab : a = b
          · rw [if_neg (by simp [hab]), ih hrest (Nat.lt_of_succ_lt hsize)
              (Nat.succ.inj hlength)]
            simp [hab]
          · rw [if_pos (fun heq => hab (UInt8.toUInt32_inj.mp heq))]
            simp [hab]

/-- The three pieces of a request line, as far as the shader looks for them. -/
theorem classifyHttpRequest_line {payload : List UInt8} {lineEnd : Nat}
    (hline : windowPosition [13, 10] payload = some lineEnd) :
    classifyHttpRequest payload =
      match (payload.take lineEnd).findIdx? (· == 32) with
      | none => responseBadRequest
      | some i =>
          match ((payload.take lineEnd).drop (i + 1)).findIdx? (· == 32) with
          | none => responseBadRequest
          | some j =>
              let version := (payload.take lineEnd).drop (i + 1 + j + 1)
              if j = 0 ∨ (version ≠ ascii "HTTP/1.1" ∧ version ≠ ascii "HTTP/1.0") then
                responseBadRequest
              else if (payload.take lineEnd).take i ≠ ascii "GET" then responseMethodNotAllowed
              else
                let target := ((payload.take lineEnd).drop (i + 1)).take j
                let path := target.take ((target.findIdx? (· == 63)).getD target.length)
                if path = ascii "/plaintext" then responsePlaintext
                else if path = ascii "/health" then responseHealth
                else responseNotFound := by
  unfold classifyHttpRequest
  rw [hline]
  simp only
  generalize payload.take lineEnd = line
  rw [splitOn_eq]
  cases hfirst : line.findIdx? (· == 32) with
  | none => rfl
  | some i =>
      simp only
      rw [splitOn_eq]
      cases hsecond : (line.drop (i + 1)).findIdx? (· == 32) with
      | none => rfl
      | some j =>
          simp only [List.drop_drop]
          rw [show i + 1 + (j + 1) = i + 1 + j + 1 by omega, splitOn_eq]
          cases hthird : (line.drop (i + 1 + j + 1)).findIdx? (· == 32) with
          | none =>
              have hj : j < (line.drop (i + 1)).length :=
                (findIdx?_eq_some_iff_cut.mp hsecond).2.1
              have htarget : (line.drop (i + 1)).take j = [] ↔ j = 0 := by
                rw [List.take_eq_nil_iff, or_iff_left]
                intro hnil
                rw [hnil] at hj
                exact Nat.not_lt_zero _ hj
              simp only [htarget, splitOn_headD]
          | some k =>
              -- a third space: more than three pieces here, no supported version there
              have hmem : 32 ∈ line.drop (i + 1 + j + 1) := by
                rw [(findIdx?_eq_some_iff_cut.mp hthird).1]
                simp
              have hversion : line.drop (i + 1 + j + 1) ≠ ascii "HTTP/1.1" ∧
                  line.drop (i + 1 + j + 1) ≠ ascii "HTTP/1.0" := by
                constructor <;> intro heq <;> rw [heq] at hmem <;> exact absurd hmem (by decide)
              rw [if_pos (Or.inr hversion)]
              cases hrest : ((line.drop (i + 1 + j + 1)).drop (k + 1)).splitOn 32 with
              | nil => exact absurd hrest (List.splitOn_ne_nil _ _)
              | cons first others => simp only [hrest]

theorem indexOf_toNat {i : Nat} (hi : i < 2 ^ 16) : (indexOf (some i)).toNat = i := by
  rw [indexOf, UInt32.toNat_ofNat', Nat.mod_eq_of_lt (by omega)]

theorem indexOf_ne_invalid {i : Nat} (hi : i < 2 ^ 16) : indexOf (some i) ≠ invalidIndex := by
  intro heq
  have hnat := congrArg UInt32.toNat heq
  rw [indexOf_toNat hi] at hnat
  have : invalidIndex.toNat = 4294967295 := rfl
  omega

theorem eq_ofNat_iff (len : UInt32) {n : UInt32} {length : Nat} (hlen : len.toNat = length) :
    len = n ↔ length = n.toNat := by
  rw [← UInt32.toNat_inj, hlen]

theorem methodIsGet_iff (h : ReadsAt inputWords inputBase offset part) {len : UInt32}
    (hlen : len.toNat = part.length) :
    methodIsGet inputWords inputBase offset len = true ↔ part = ascii "GET" := by
  have hword : ascii "GET" = [71, 69, 84] := by decide
  unfold methodIsGet
  rw [decide_eq_true_eq, eq_ofNat_iff len hlen, hword]
  constructor
  · rintro ⟨hthree, ha, hb, hc⟩
    obtain ⟨a, b, c, rfl⟩ := List.length_eq_three.mp hthree
    have hread (i : UInt32) (hi : i.toNat < 3) := h i hi
    rw [← UInt32.add_zero offset, hread 0 (by decide), toUInt32_eq_iff _ (by decide)] at ha
    rw [hread 1 (by decide), toUInt32_eq_iff _ (by decide)] at hb
    rw [hread 2 (by decide), toUInt32_eq_iff _ (by decide)] at hc
    exact congrArg₂ List.cons ha (congrArg₂ List.cons hb (congrArg₂ List.cons hc rfl))
  · rintro rfl
    have hread (i : UInt32) (hi : i.toNat < 3) := h i hi
    refine ⟨rfl, ?_, hread 1 (by decide), hread 2 (by decide)⟩
    rw [← UInt32.add_zero offset]
    exact hread 0 (by decide)

theorem versionIsSupported_iff (h : ReadsAt inputWords inputBase offset part) {len : UInt32}
    (hlen : len.toNat = part.length) :
    versionIsSupported inputWords inputBase offset len = true ↔
      part = ascii "HTTP/1.1" ∨ part = ascii "HTTP/1.0" := by
  have hone : ascii "HTTP/1.1" = ascii "HTTP/1." ++ [49] := by decide
  have hzero : ascii "HTTP/1.0" = ascii "HTTP/1." ++ [48] := by decide
  rw [hone, hzero]
  unfold versionIsSupported
  by_cases height : part.length = 8
  · have hminor : readByte inputWords inputBase (offset + 7) = part[7].toUInt32 :=
      h.getElem (i := 7) (by rw [height]; decide)
    have hextends : expectBytes inputWords inputBase offset 0 [72, 84, 84, 80, 47, 49, 46] =
        decide (part.take 7 = ascii "HTTP/1.") := by
      have htake := h.take 7
      rw [← UInt32.add_zero offset] at htake
      exact expectBytes_eq (ascii "HTTP/1.") htake (by rw [List.length_take]; omega)
        (by rw [List.length_take, height]; rfl)
    have hsplit : part = part.take 7 ++ [part[7]] := by
      conv_lhs => rw [← List.take_append_drop 7 part, List.drop_eq_getElem_cons (by omega)]
      rw [List.drop_eq_nil_of_le (by omega)]
    have hversion (b : UInt8) : part = ascii "HTTP/1." ++ [b] ↔
        part.take 7 = ascii "HTTP/1." ∧ part[7] = b := by
      conv_lhs => rw [hsplit]
      constructor
      · intro heq
        obtain ⟨htake, hlast⟩ := List.append_inj' heq rfl
        exact ⟨htake, List.singleton_inj.mp hlast⟩
      · rintro ⟨htake, hlast⟩
        rw [htake, hlast]
    have heightLen : len = 8 := (eq_ofNat_iff len hlen).mpr height
    rw [hversion, hversion, if_neg (not_not.mpr heightLen), hextends, hminor]
    by_cases htake : part.take 7 = ascii "HTTP/1."
    · have hdigits : (part[7].toUInt32 = 48 ∨ part[7].toUInt32 = 49) ↔
          part[7] = 48 ∨ part[7] = 49 := by
        rw [toUInt32_eq_iff _ (by decide), toUInt32_eq_iff _ (by decide)]
        rfl
      simp only [htake, decide_true, not_true, if_false, decide_eq_true_eq, hdigits, true_and]
      exact or_comm
    · simp [htake]
  · have hne (b : UInt8) : part ≠ ascii "HTTP/1." ++ [b] := by
      rintro rfl
      exact height (by rw [List.length_append]; rfl)
    have hlenNe : len ≠ 8 := fun heq => height ((eq_ofNat_iff len hlen).mp heq)
    simp [hlenNe, hne]

/-- A path function accepts exactly its path. -/
theorem pathIs_iff (h : ReadsAt inputWords inputBase offset part) {len : UInt32}
    (hlen : len.toNat = part.length) {size : UInt32} (path : List UInt8)
    (hsize : path.length = size.toNat) :
    (if len ≠ size then false
      else expectBytes inputWords inputBase offset 0 (path.map UInt8.toUInt32)) = true ↔
      part = path := by
  by_cases heq : part.length = path.length
  · have hlenEq : len = size := (eq_ofNat_iff len hlen).mpr (heq.trans hsize)
    have hread := h
    rw [← UInt32.add_zero offset] at hread
    rw [if_neg (not_not.mpr hlenEq),
      expectBytes_eq path hread (by rw [← hlen]; exact len.toNat_lt) heq.symm, decide_eq_true_eq]
  · have hlenNe : len ≠ size := by
      intro hsame
      exact heq (((eq_ofNat_iff len hlen).mp hsame).trans hsize.symm)
    have hne : part ≠ path := by
      rintro rfl
      exact heq rfl
    simp [hlenNe, hne]

theorem pathIsPlaintext_iff (h : ReadsAt inputWords inputBase offset part) {len : UInt32}
    (hlen : len.toNat = part.length) :
    pathIsPlaintext inputWords inputBase offset len = true ↔ part = ascii "/plaintext" :=
  pathIs_iff h hlen (ascii "/plaintext") rfl

theorem pathIsHealth_iff (h : ReadsAt inputWords inputBase offset part) {len : UInt32}
    (hlen : len.toNat = part.length) :
    pathIsHealth inputWords inputBase offset len = true ↔ part = ascii "/health" :=
  pathIs_iff h hlen (ascii "/health") rfl

/-- Behind the second space the shader decides as the host does. -/
theorem classifyPieces_eq {line : List UInt8} (hread : ReadsAt inputWords inputBase offset line)
    (hsize : line.length < 2 ^ 16) {i j : Nat} (hj : j < line.length - (i + 1))
    {stop firstSpace secondSpace : UInt32} (hstop : stop.toNat = line.length)
    (hfirst : firstSpace.toNat = i) (hsecond : secondSpace.toNat = i + 1 + j) :
    classifyPieces inputWords inputBase offset stop firstSpace secondSpace =
      let version := line.drop (i + 1 + j + 1)
      if j = 0 ∨ (version ≠ ascii "HTTP/1.1" ∧ version ≠ ascii "HTTP/1.0") then
        responseBadRequest
      else if line.take i ≠ ascii "GET" then responseMethodNotAllowed
      else
        let target := (line.drop (i + 1)).take j
        let path := target.take ((target.findIdx? (· == 63)).getD target.length)
        if path = ascii "/plaintext" then responsePlaintext
        else if path = ascii "/health" then responseHealth
        else responseNotFound := by
  have hnext : (firstSpace + 1).toNat = i + 1 := by
    rw [UInt32.toNat_add, hfirst]
    simp only [UInt32.reduceToNat]
    omega
  have hafter : (secondSpace + 1).toNat = i + 1 + j + 1 := by
    rw [UInt32.toNat_add, hsecond]
    simp only [UInt32.reduceToNat]
    omega
  have hadjacent : secondSpace = firstSpace + 1 ↔ j = 0 := by
    rw [← UInt32.toNat_inj, hsecond, hnext]
    omega
  unfold classifyPieces
  simp only
  by_cases hempty : j = 0
  · rw [if_pos (hadjacent.mpr hempty), if_pos (Or.inl hempty)]
  rw [if_neg (fun heq => hempty (hadjacent.mp heq))]
  have hversionLen : (stop - secondSpace - 1).toNat =
      (line.drop (i + 1 + j + 1)).length := by
    rw [UInt32.toNat_sub, UInt32.toNat_sub, hstop, hsecond, List.length_drop]
    simp only [UInt32.reduceToNat]
    omega
  have hversionRead := hread.drop (secondSpace + 1) (by omega)
  rw [hafter, ← UInt32.add_assoc] at hversionRead
  have hversion := versionIsSupported_iff hversionRead hversionLen
  by_cases hsupported : versionIsSupported inputWords inputBase
      (offset + secondSpace + 1) (stop - secondSpace - 1) = true
  · have hpieces := hversion.mp hsupported
    have hgood : ¬ (j = 0 ∨ (line.drop (i + 1 + j + 1) ≠ ascii "HTTP/1.1" ∧
        line.drop (i + 1 + j + 1) ≠ ascii "HTTP/1.0")) := by
      rintro (heq | ⟨hne, hne'⟩)
      · exact hempty heq
      · exact hpieces.elim hne hne'
    have hmethodLen : firstSpace.toNat = (line.take i).length := by
      rw [hfirst, List.length_take]
      omega
    have hmethod := methodIsGet_iff (hread.take i) hmethodLen
    have htargetLen : ((line.drop (i + 1)).take j).length = j := by
      rw [List.length_take, List.length_drop]
      omega
    have hpathLen : (secondSpace - firstSpace - 1).toNat =
        ((line.drop (i + 1)).take j).length := by
      rw [UInt32.toNat_sub, UInt32.toNat_sub, hfirst, hsecond, htargetLen]
      simp only [UInt32.reduceToNat]
      omega
    have hdropRead := hread.drop (firstSpace + 1) (by omega)
    rw [hnext, ← UInt32.add_assoc] at hdropRead
    have htargetRead := hdropRead.take j
    rw [if_neg (not_not.mpr hsupported), if_neg hgood, cutQuery_eq htargetRead hpathLen 0]
    simp only [UInt32.toNat_zero, List.drop_zero, Nat.add_zero, Option.map_id']
    generalize (line.drop (i + 1)).take j = target at *
    have hcut : (target.findIdx? (· == 63)).getD target.length ≤ target.length := by
      cases hmark : target.findIdx? (· == 63) with
      | none => exact le_refl _
      | some k => exact Nat.le_of_lt (findIdx?_eq_some_iff_cut.mp hmark).2.1
    generalize (target.findIdx? (· == 63)).getD target.length = cut at hcut ⊢
    have hcutLen : (UInt32.ofNat cut).toNat = (target.take cut).length := by
      rw [UInt32.toNat_ofNat', List.length_take, Nat.mod_eq_of_lt (by omega)]
      omega
    have hplain := pathIsPlaintext_iff (htargetRead.take cut) hcutLen
    have hhealth := pathIsHealth_iff (htargetRead.take cut) hcutLen
    simp only [hmethod, hplain, hhealth, ne_eq]
  · have hpieces := fun heq => hsupported (hversion.mpr heq)
    rw [if_pos hsupported, if_pos (Or.inr (not_or.mp hpieces))]

/-- The shader and the host classify every payload alike. -/
theorem classifyRequest_eq {payload : List UInt8}
    (h : ReadsAt inputWords inputBase offset payload) (hsize : payload.length < 2 ^ 16)
    {len : UInt32} (hlen : len.toNat = payload.length) :
    classifyRequest inputWords inputBase offset len = classifyHttpRequest payload := by
  unfold classifyRequest
  rw [findCrlf_eq h hlen]
  cases hline : windowPosition [13, 10] payload with
  | none =>
      unfold classifyHttpRequest
      rw [hline]
      rfl
  | some lineEnd =>
      have hend : lineEnd ≤ payload.length := (windowPosition_eq_some.mp hline).1
      have hread := h.take lineEnd
      have hlineLen : (payload.take lineEnd).length = lineEnd := by
        rw [List.length_take]
        omega
      have hstop : (indexOf (some lineEnd)).toNat = (payload.take lineEnd).length := by
        rw [hlineLen, indexOf_toNat (by omega)]
      rw [classifyHttpRequest_line hline]
      simp only
      rw [if_neg (indexOf_ne_invalid (by omega)), findSpace_eq hread hstop 0]
      generalize payload.take lineEnd = line at *
      simp only [UInt32.toNat_zero, List.drop_zero, Nat.add_zero, Option.map_id']
      cases hfirst : line.findIdx? (· == 32) with
      | none => rfl
      | some i =>
          have hi : i < line.length := (findIdx?_eq_some_iff_cut.mp hfirst).2.1
          have hfirstNat := @indexOf_toNat i (by omega)
          have hnextNat : (indexOf (some i) + 1).toNat = i + 1 := by
            rw [UInt32.toNat_add, hfirstNat]
            simp only [UInt32.reduceToNat]
            omega
          rw [if_neg (indexOf_ne_invalid (by omega)), findSpace_eq hread hstop, hnextNat]
          simp only
          cases hsecond : (line.drop (i + 1)).findIdx? (· == 32) with
          | none => rfl
          | some j =>
              have hj : j < line.length - (i + 1) := by
                have := (findIdx?_eq_some_iff_cut.mp hsecond).2.1
                rwa [List.length_drop] at this
              rw [Option.map_some, if_neg (indexOf_ne_invalid (by omega))]
              exact classifyPieces_eq hread (by omega) hj hstop hfirstNat
                (by rw [indexOf_toNat (by omega)]; omega)

/-- The payload of a packet that passes the header checks. -/
theorem readsAt_payload {bytes : List UInt8} (h : Holds inputWords inputBase bytes)
    (haccepted : IsIpv4Tcp bytes) (hsize : bytes.length ≤ maxRawPacketBytes) :
    ReadsAt inputWords inputBase (UInt32.ofNat (payloadOffset bytes)) (viewOf bytes).payload := by
  intro i hi
  have hmax := haccepted.total_max
  rw [payload_length bytes haccepted] at hi
  unfold maxRawPacketBytes at hsize
  have hnat : (UInt32.ofNat (payloadOffset bytes) + i).toNat = payloadOffset bytes + i.toNat := by
    rw [UInt32.toNat_add, UInt32.toNat_ofNat']
    omega
  rw [readByte_eq h (by omega), hnat]
  congr 1
  rw [byteAt, viewOf, List.getD_eq_getElem?_getD, List.getD_eq_getElem?_getD, List.getElem?_drop,
    List.getElem?_take_of_lt (by omega)]

end Classifier
end Shader
end Packet
end Gput
