import Gput.Http.ShaderTarget

/-!
# Finding a route in the shader

`find_response_offset`: a binary search for the first route of a hash, and a walk
over the routes with that hash that compares their paths.  It returns the offset
of the response `route_request` would choose: `findResponseOffset_eq`.
-/

namespace Gput
namespace Http
namespace Shader

open ByteString LittleEndian WordMemory

section Comparing

variable {leftWord leftByte rightWord rightByte : UInt32 → UInt32} {left right : List UInt8}
  {len : UInt32}

theorem matchWords_spec (hleft : Reads leftWord leftByte left)
    (hright : Reads rightWord rightByte right) (hlenLeft : len.toNat = left.length)
    (hlenRight : len.toNat = right.length) (byteIndex : UInt32) (hindex : byteIndex.toNat ≤ len.toNat)
    (hsame : left.take byteIndex.toNat = right.take byteIndex.toNat) :
    match matchWords leftWord rightWord len byteIndex with
    | none => left ≠ right
    | some stop => stop.toNat ≤ len.toNat ∧ left.take stop.toNat = right.take stop.toNat := by
  fun_induction matchWords leftWord rightWord len byteIndex with
  | case1 byteIndex hfour hdiffer =>
      obtain ⟨hinside, -⟩ := four_inside hindex hfour
      rintro rfl
      exact hdiffer ((hleft.word _ (by omega)).trans (hright.word _ (by omega)).symm)
  | case2 byteIndex hfour hequal ih =>
      obtain ⟨hinside, hnext⟩ := four_inside hindex hfour
      have hword := not_not.mp hequal
      rw [hleft.word _ (by omega), hright.word _ (by omega)] at hword
      have hfour := take_four_of_firstWord (by rw [List.length_drop]; omega)
        (by rw [List.length_drop]; omega) hword
      refine ih (by omega) ?_
      rw [hnext, List.take_add, List.take_add, hsame, hfour]
  | case3 byteIndex hfour => exact ⟨hindex, hsame⟩

theorem matchBytes_spec (hleft : Reads leftWord leftByte left)
    (hright : Reads rightWord rightByte right) (hlenLeft : len.toNat = left.length)
    (hlenRight : len.toNat = right.length) (byteIndex : UInt32) (hindex : byteIndex.toNat ≤ len.toNat)
    (hsame : left.take byteIndex.toNat = right.take byteIndex.toNat) :
    matchBytes leftByte rightByte len byteIndex = true ↔ left = right := by
  have hbyte {i : UInt32} (hi : i.toNat < len.toNat) :
      leftByte i = rightByte i ↔ left.getD i.toNat 0 = right.getD i.toNat 0 := by
    rw [hleft.byte i (by omega), hright.byte i (by omega), UInt8.toUInt32_inj]
  fun_induction matchBytes leftByte rightByte len byteIndex with
  | case1 byteIndex hlt hdiffer =>
      refine iff_of_false Bool.false_ne_true ?_
      rintro rfl
      exact hdiffer ((hbyte (UInt32.lt_iff_toNat_lt.mp hlt)).mpr rfl)
  | case2 byteIndex hlt hequal ih =>
      have hnext := succ_toNat hlt
      have hlt := UInt32.lt_iff_toNat_lt.mp hlt
      have hat := (hbyte hlt).mp (not_not.mp hequal)
      rw [List.getD_eq_getElem?_getD, List.getD_eq_getElem?_getD,
        List.getElem?_eq_getElem (show byteIndex.toNat < left.length by omega),
        List.getElem?_eq_getElem (show byteIndex.toNat < right.length by omega)] at hat
      refine ih (by omega) ?_
      rw [hnext, List.take_succ_eq_append_getElem (by omega),
        List.take_succ_eq_append_getElem (by omega), hsame]
      exact congrArg (fun byte => right.take byteIndex.toNat ++ [byte]) hat
  | case3 byteIndex hge =>
      have hge := UInt32.le_iff_toNat_le.mp (UInt32.not_lt.mp hge)
      rw [List.take_of_length_le (by omega), List.take_of_length_le (by omega)] at hsame
      exact iff_of_true rfl hsame

end Comparing

/-- The offset of the response of a route that was found, or of the fallback. -/
def RouteOffset (router : CompiledRouter) : Option CompiledRoute → UInt32 → Prop
  | some route, offset => ∃ i, router.routes[i]? = some route ∧
      router.routerWords[i * routeStrideWords + 3]? = some offset
  | none, offset => offset = router.gpuLayout.fallbackResponseOffset

theorem RouteOffset.response {router : CompiledRouter} {found : Option CompiledRoute}
    {offset : UInt32} (h : RouteOffset router found offset) :
    ResponseOffset router ((found.map CompiledRoute.response).getD router.fallback) offset := by
  cases found with
  | some route =>
      obtain ⟨i, hroute, hoffset⟩ := h
      exact .route hroute hoffset
  | none =>
      rw [RouteOffset] at h
      rw [h]
      exact .fallback

section Entries

variable {router : CompiledRouter} {texts : List Text} {bindings : Bindings}

/-- What the shader reads of an entry of the route table. -/
structure ReadsRoute (router : CompiledRouter) (texts : List Text) (bindings : Bindings)
    (index : UInt32) (route : CompiledRoute) : Prop where
  hash : routeWord bindings index routePathHash = route.pathHash
  len : (routeWord bindings index routePathLen).toNat = route.path.length
  path : texts[(routeWord bindings index routePathString).toNat]? = some route.path
  offset : RouteOffset router (some route) (routeWord bindings index routeResponseOffset)

theorem readsRoute (compiled : IsCompiled router)
    (hwords : Stores bindings.routerWords router.routerWords) (harena : ArenaTexts router texts)
    {index : UInt32} {route : CompiledRoute} (hroute : router.routes[index.toNat]? = some route) :
    ReadsRoute router texts bindings index route := by
  have hentry := compiled.entries index.toNat route hroute
  have hpath := (compiled.routes route (List.mem_of_getElem? hroute)).path
  have hfit := compiled.words_fit
  unfold u32Max at hfit
  have hstride : routeStrideWords = 4 := rfl
  have hword {field : Nat} {word : UInt32} (hfield : field < 4)
      (hat : router.routerWords[index.toNat * routeStrideWords + field]? = some word) :
      routeWord bindings index (UInt32.ofNat field) = word := by
    have hlt := (List.getElem?_eq_some_iff.mp hat).1
    rw [hstride] at hlt hat
    refine hwords _ _ ?_
    have hfour : routeStride.toNat = 4 := rfl
    rw [UInt32.toNat_add, UInt32.toNat_mul, hfour, UInt32.toNat_ofNat', Nat.mod_eq_of_lt (by omega),
      Nat.mod_eq_of_lt (by omega), Nat.mod_eq_of_lt (by omega)]
    exact hat
  obtain ⟨id, hid, hstring⟩ := hentry.string
  obtain ⟨offset, hoffset, -, -⟩ := hentry.response
  have hpathLen : (UInt32.ofNat route.path.length).toNat = route.path.length :=
    ofNat_toNat_of_fits hpath.fits
  refine ⟨@hword 0 _ (by omega) hentry.hash, ?_, ?_, ?_⟩
  · rw [routePathLen, show (1 : UInt32) = UInt32.ofNat 1 from rfl, hword (by omega) hentry.len,
      hpathLen]
  · rw [routePathString, show (2 : UInt32) = UInt32.ofNat 2 from rfl, hword (by omega) hid]
    refine harena.fixed hstring ?_
    rw [compiled.ids.headerTail]
    intro htail
    have hslash := hpath.slash
    rw [← Option.some.inj htail] at hslash
    cases hslash
  · rw [routeResponseOffset, show (3 : UInt32) = UInt32.ofNat 3 from rfl,
      hword (by omega) hoffset]
    exact ⟨_, hroute, hoffset⟩

end Entries

/-- A prefix that satisfies a predicate, up to the first element that does not. -/
theorem takeWhile_eq_take {α : Type} {p : α → Bool} {list : List α} {n : Nat}
    (hbelow : ∀ (j : Nat) (a : α), j < n → list[j]? = some a → p a = true)
    (hat : ∀ a, list[n]? = some a → p a = false) : list.takeWhile p = list.take n := by
  induction list generalizing n with
  | nil => rw [List.takeWhile_nil, List.take_nil]
  | cons first list ih =>
      cases n with
      | zero => rw [List.takeWhile_cons_of_neg (by rw [hat first rfl]; exact Bool.false_ne_true),
          List.take_zero]
      | succ n =>
          rw [List.takeWhile_cons_of_pos (hbelow 0 first n.succ_pos rfl), List.take_succ_cons,
            ih (fun j a hj ha => hbelow (j + 1) a (Nat.succ_lt_succ hj) ha) fun a ha => hat a ha]

section Lookup

variable {router : CompiledRouter} {texts : List Text} {bindings : Bindings}
  {requestIndex : UInt32} {request : List UInt8} {target : RequestTarget}

/-- A route matches when it has the hash and the path of the target. -/
theorem routeMatches_iff (htexts : ReadsTexts bindings texts)
    (htarget : InRequest bindings requestIndex request target) {index : UInt32}
    {route : CompiledRoute} (hroute : ReadsRoute router texts bindings index route) :
    routeMatches bindings requestIndex target index = true ↔
      route.pathHash = target.pathHash ∧ route.path = (targetParts request target).path := by
  have hfits := htarget.fits
  have hrange := htarget.path
  have hpathLen : (targetParts request target).path.length = target.pathLen.toNat := by
    rw [targetParts, List.length_take, List.length_drop]
    omega
  have hleft : Reads (fun i => requestWord bindings requestIndex (target.pathStart + i))
      (fun i => requestByte bindings requestIndex (target.pathStart + i))
      (targetParts request target).path :=
    htarget.stored.reads (by omega) (List.take_prefix _ _)
  have hright := htexts.read _ _ hroute.path
  rw [routeMatches, hroute.hash]
  by_cases hfirst : route.pathHash ≠ target.pathHash ∨
      routeWord bindings index routePathLen ≠ target.pathLen
  · rw [if_pos hfirst]
    refine iff_of_false Bool.false_ne_true ?_
    rintro ⟨hhash, hpath⟩
    rcases hfirst with hne | hne
    · exact hne hhash
    · refine hne (UInt32.toNat_inj.mp ?_)
      rw [hroute.len, hpath, hpathLen]
  · rw [not_or, not_not, not_not] at hfirst
    have hlen : target.pathLen.toNat = route.path.length := by rw [← hroute.len, hfirst.2]
    rw [if_neg (by simpa using hfirst), and_iff_right hfirst.1,
      @eq_comm _ route.path]
    have hwords := matchWords_spec hleft hright hpathLen.symm hlen 0 (Nat.zero_le _) rfl
    simp only
    revert hwords
    cases matchWords (fun i => requestWord bindings requestIndex (target.pathStart + i))
      (stringWord bindings (routeWord bindings index routePathString)) target.pathLen 0 with
    | none => exact fun hdiffer => iff_of_false Bool.false_ne_true hdiffer
    | some stop =>
        exact fun hstop => matchBytes_spec hleft hright hpathLen.symm hlen stop hstop.1 hstop.2

/-- The parameters that describe the layout of a router. -/
structure LaidOut (router : CompiledRouter) (params : Params) : Prop where
  routeCount : params.routeCount = router.gpuLayout.routeCount
  fallback : params.fallbackResponseOffset = router.gpuLayout.fallbackResponseOffset
  badRequest : params.badRequestResponseOffset = router.gpuLayout.badRequestResponseOffset
  methodNotAllowed :
    params.methodNotAllowedResponseOffset = router.gpuLayout.methodNotAllowedResponseOffset

section Routes

variable (hroutes : ∀ (index : UInt32) (route : CompiledRoute),
  router.routes[index.toNat]? = some route → ReadsRoute router texts bindings index route)
include hroutes

/-- The search ends where the smaller hashes do. -/
theorem lowerBound_spec
    (hsorted : router.routes.Pairwise (fun left right => left.pathHash ≤ right.pathHash))
    (lower upper : UInt32) (hle : lower.toNat ≤ upper.toNat)
    (hupper : upper.toNat ≤ router.routes.length)
    (hbelow : ∀ (j : Nat) (route : CompiledRoute), j < lower.toNat →
      router.routes[j]? = some route → route.pathHash < target.pathHash)
    (habove : ∀ (j : Nat) (route : CompiledRoute), upper.toNat ≤ j →
      router.routes[j]? = some route → ¬ route.pathHash < target.pathHash) :
    (lowerBound bindings target lower upper).toNat =
      (router.routes.takeWhile (fun route => decide (route.pathHash < target.pathHash))).length := by
  have hordered {i j : Nat} {first second : CompiledRoute} (hij : i < j)
      (hi : router.routes[i]? = some first) (hj : router.routes[j]? = some second) :
      first.pathHash ≤ second.pathHash := by
    obtain ⟨hi', rfl⟩ := List.getElem?_eq_some_iff.mp hi
    obtain ⟨hj', rfl⟩ := List.getElem?_eq_some_iff.mp hj
    exact List.pairwise_iff_getElem.mp hsorted i j hi' hj' hij
  fun_induction lowerBound bindings target lower upper with
  | case1 lower upper hlt middle hsmaller ih =>
      have hmiddle : lower.toNat ≤ middle.toNat ∧ middle.toNat < upper.toNat := middle_toNat hlt
      have hnext := succ_toNat (UInt32.lt_iff_toNat_lt.mpr hmiddle.2)
      have hat := List.getElem?_eq_getElem (show middle.toNat < router.routes.length by omega)
      rw [(hroutes middle _ hat).hash] at hsmaller
      refine ih (by omega) hupper (fun j route hj hroute => ?_) habove
      rcases Nat.lt_or_ge j middle.toNat with hjlt | hjge
      · exact UInt32.lt_of_le_of_lt (hordered hjlt hroute hat) hsmaller
      · rw [show j = middle.toNat by omega, hat] at hroute
        cases hroute
        exact hsmaller
  | case2 lower upper hlt middle hlarger ih =>
      have hmiddle : lower.toNat ≤ middle.toNat ∧ middle.toNat < upper.toNat := middle_toNat hlt
      have hat := List.getElem?_eq_getElem (show middle.toNat < router.routes.length by omega)
      rw [(hroutes middle _ hat).hash] at hlarger
      refine ih (by omega) (by omega) hbelow (fun j route hj hroute => ?_)
      rcases Nat.eq_or_lt_of_le hj with rfl | hjgt
      · rw [hat] at hroute
        cases hroute
        exact hlarger
      · exact UInt32.not_lt.mpr (UInt32.le_trans (UInt32.not_lt.mp hlarger)
          (hordered hjgt hat hroute))
  | case3 lower upper hge =>
      have hge := UInt32.le_iff_toNat_le.mp (UInt32.not_lt.mp hge)
      have hsplit : router.routes.takeWhile (fun route => decide (route.pathHash < target.pathHash)) =
          router.routes.take lower.toNat := by
        refine takeWhile_eq_take (fun j route hj hroute => ?_) (fun route hroute => ?_)
        · exact decide_eq_true (hbelow j route hj hroute)
        · exact decide_eq_false (habove _ route hge hroute)
      rw [hsplit, List.length_take]
      omega

/-- The walk over the routes of a hash finds the one with the path. -/
theorem probeRoutes_spec (hlayout : LaidOut router bindings.params)
    (hcount : router.gpuLayout.routeCount.toNat = router.routes.length)
    (htexts : ReadsTexts bindings texts)
    (htarget : InRequest bindings requestIndex request target) (index : UInt32) :
    RouteOffset router
      (((router.routes.drop index.toNat).takeWhile
        (fun route => route.pathHash == target.pathHash)).find?
        (fun route => route.path == (targetParts request target).path))
      (probeRoutes bindings requestIndex target index) := by
  fun_induction probeRoutes bindings requestIndex target index with
  | case1 index hlt hother =>
      have hlt := UInt32.lt_iff_toNat_lt.mp hlt
      have hinside : index.toNat < router.routes.length := by rw [hlayout.routeCount] at hlt; omega
      have hat := List.getElem?_eq_getElem hinside
      rw [(hroutes index _ hat).hash] at hother
      rw [List.drop_eq_getElem_cons hinside, List.takeWhile_cons_of_neg (by simpa using hother),
        hlayout.fallback]
      rfl
  | case2 index hlt hsame hmatch =>
      have hlt := UInt32.lt_iff_toNat_lt.mp hlt
      have hinside : index.toNat < router.routes.length := by rw [hlayout.routeCount] at hlt; omega
      have hroute := hroutes index _ (List.getElem?_eq_getElem hinside)
      obtain ⟨hhash, hpath⟩ := (routeMatches_iff htexts htarget hroute).mp hmatch
      rw [List.drop_eq_getElem_cons hinside, List.takeWhile_cons_of_pos (by simpa using hhash),
        List.find?_cons_of_pos (by simpa using hpath)]
      exact hroute.offset
  | case3 index hlt hsame hmatch ih =>
      have hnext := succ_toNat hlt
      have hlt := UInt32.lt_iff_toNat_lt.mp hlt
      have hinside : index.toNat < router.routes.length := by rw [hlayout.routeCount] at hlt; omega
      have hroute := hroutes index _ (List.getElem?_eq_getElem hinside)
      have hhash := not_not.mp hsame
      rw [hroute.hash] at hhash
      have hpath : router.routes[index.toNat].path ≠ (targetParts request target).path :=
        fun heq => hmatch ((routeMatches_iff htexts htarget hroute).mpr ⟨hhash, heq⟩)
      rw [List.drop_eq_getElem_cons hinside, List.takeWhile_cons_of_pos (by simpa using hhash),
        List.find?_cons_of_neg (by simpa using hpath), ← hnext]
      exact ih
  | case4 index hge =>
      have hge := UInt32.le_iff_toNat_le.mp (UInt32.not_lt.mp hge)
      rw [hlayout.routeCount, hcount] at hge
      rw [List.drop_eq_nil_of_le hge, hlayout.fallback]
      rfl

end Routes

/-- The shader finds the route `route_request` would find. -/
theorem findResponseOffset_eq (compiled : IsCompiled router)
    (hwords : Stores bindings.routerWords router.routerWords) (harena : ArenaTexts router texts)
    (hlayout : LaidOut router bindings.params) (htexts : ReadsTexts bindings texts)
    (htarget : InRequest bindings requestIndex request target) :
    RouteOffset router (router.findRoute (targetParts request target))
      (findResponseOffset bindings requestIndex target) := by
  have hroutes (index : UInt32) (route : CompiledRoute)
      (hroute : router.routes[index.toNat]? = some route) :
      ReadsRoute router texts bindings index route :=
    readsRoute compiled hwords harena hroute
  have hcount := compiled.count
  have hlower := @lowerBound_spec router texts bindings target hroutes compiled.sorted 0
    bindings.params.routeCount (Nat.zero_le _) (by rw [hlayout.routeCount, hcount])
    (fun j route hj => absurd hj (Nat.not_lt_zero j))
    (fun j route hj hroute => absurd (List.getElem?_eq_some_iff.mp hroute).1
      (by rw [hlayout.routeCount, hcount] at hj; omega))
  have hprobe := probeRoutes_spec hroutes hlayout hcount htexts htarget
    (lowerBound bindings target 0 bindings.params.routeCount)
  rw [hlower] at hprobe
  exact hprobe

end Lookup

end Shader
end Http
end Gput
