import Gput.Library.WordMemory
import Gput.Http.Declared

/-!
# The string arena

`build_shader_assets`: the strings of a router, packed one behind the other into
the words the shader reads.  One string is replaced on the way: the shader
writes the header tail of a connection that stays open.  A string of the
application that equals the replaced one is lost with it: `arena_keeps_iff`.
-/

namespace Gput
namespace Http

open ByteString AsciiText LittleEndian WordMemory

def persistentGpuHeaderTail : Text :=
  ascii "\r\nServer: gput\r\nX-Gput-Backend: gpu\r\n\r\n"

structure StringMeta where
  byteOffset : UInt32
  byteLen : UInt32
deriving DecidableEq, Repr

structure ShaderAssets where
  metadata : List StringMeta
  words : List UInt32
  byteLen : Nat
deriving DecidableEq, Repr

/-- The text that is packed for the string at an index. -/
def shaderText (ids : ShaderStringIds) (index : Nat) (value : Text) : Text :=
  if index = ids.headerTail.toNat then persistentGpuHeaderTail else value

/-- The loop over the strings, behind the bytes packed so far. -/
def layoutStrings (ids : ShaderStringIds) (bytes : List UInt8) (index : Nat) :
    List Text → Outcome (List StringMeta × List UInt8)
  | [] => return ([], bytes)
  | value :: rest => do
      let text := shaderText ids index value
      Outcome.ensure (bytes.length ≤ u32Max) s!"shader string {index} byte offset does not fit u32"
      Outcome.ensure (text.length ≤ u32Max) s!"shader string {index} byte length does not fit u32"
      let (metadata, arena) ← layoutStrings ids (bytes ++ text) (index + 1) rest
      return (⟨UInt32.ofNat bytes.length, UInt32.ofNat text.length⟩ :: metadata, arena)

/-- `pack_bytes`. -/
def packBytes (bytes : List UInt8) : List UInt32 :=
  joinBytes (List.replicate ((bytes.length + 3) / 4) 0) 0 bytes

/-- `build_shader_assets`. -/
def buildShaderAssets (router : CompiledRouter) : Outcome ShaderAssets := do
  let (metadata, bytes) ← layoutStrings router.shaderStringIds [] 0 router.strings
  return { metadata := metadata, words := packBytes bytes, byteLen := bytes.length }

namespace ShaderAssets

/-- The bytes an arena holds for a string. -/
def unpackString (assets : ShaderAssets) (string : StringMeta) : Text :=
  (List.range string.byteLen.toNat).map fun relativeIndex =>
    let absoluteIndex := string.byteOffset.toNat + relativeIndex
    byteOf (assets.words.getD (absoluteIndex / 4) 0) (absoluteIndex % 4)

/-- The strings of an arena, by id. -/
def texts (assets : ShaderAssets) : List Text :=
  assets.metadata.map assets.unpackString

end ShaderAssets

theorem packBytes_eq (bytes : List UInt8) :
    packBytes bytes = wordsOf ((bytes.length + 3) / 4) bytes := by
  rw [packBytes, ← wordsOf_nil]
  exact joinBytes_eq _ [] bytes

/-- A string stands in the arena where its metadata says. -/
structure Located (arena : List UInt8) (string : StringMeta) (text : Text) : Prop where
  len : string.byteLen.toNat = text.length
  bytes : text <+: arena.drop string.byteOffset.toNat

theorem layoutStrings_spec {ids : ShaderStringIds} {values : List Text} :
    ∀ {bytes arena : List UInt8} {index : Nat} {metadata : List StringMeta},
      layoutStrings ids bytes index values = .ok (metadata, arena) →
      bytes <+: arena ∧ metadata.length = values.length ∧
        ∀ (i : Nat) (value : Text), values[i]? = some value →
          ∃ string, metadata[i]? = some string ∧
            Located arena string (shaderText ids (index + i) value) := by
  induction values with
  | nil =>
      intro bytes arena index metadata h
      cases h
      exact ⟨List.prefix_rfl, rfl, fun i value hi => by cases hi⟩
  | cons value values ih =>
      intro bytes arena index metadata h
      rw [layoutStrings] at h
      obtain ⟨_, hoffset, h⟩ := Outcome.bind_eq_ok.mp h
      obtain ⟨_, hlen, h⟩ := Outcome.bind_eq_ok.mp h
      obtain ⟨⟨later, arena'⟩, hlater, h⟩ := Outcome.bind_eq_ok.mp h
      cases h
      have hoffset : bytes.length ≤ u32Max := Outcome.ensure_eq_ok.mp hoffset
      have hlen : (shaderText ids index value).length ≤ u32Max := Outcome.ensure_eq_ok.mp hlen
      obtain ⟨hextends, hcount, hstrings⟩ := ih hlater
      refine ⟨(List.prefix_append _ _).trans hextends, ?_, ?_⟩
      · rw [List.length_cons, List.length_cons, hcount]
      · intro i other hi
        cases i with
        | zero =>
            cases hi
            refine ⟨_, rfl, ofNat_toNat_of_fits hlen, ?_⟩
            have hdrop := hextends.drop bytes.length
            rwa [List.drop_left, ← ofNat_toNat_of_fits hoffset] at hdrop
        | succ i =>
            obtain ⟨string, hstring, hlocated⟩ := hstrings i other hi
            refine ⟨string, hstring, ?_⟩
            rwa [Nat.add_assoc, Nat.add_comm 1 i] at hlocated

/-- Bytes read one by one from the words of an arena. -/
theorem unpackString_eq {assets : ShaderAssets} {arena : List UInt8}
    (hwords : assets.words = packBytes arena) {string : StringMeta} {text : Text}
    (h : Located arena string text) : assets.unpackString string = text := by
  have hle := h.bytes.length_le
  rw [List.length_drop] at hle
  apply List.ext_getElem?
  intro i
  rw [ShaderAssets.unpackString, h.len, List.getElem?_map]
  by_cases hi : i < text.length
  · have hword : (string.byteOffset.toNat + i) / 4 < (arena.length + 3) / 4 := by omega
    have hat : text[i]? = arena[string.byteOffset.toNat + i]? := by
      rw [← List.getElem?_drop]
      obtain ⟨more, hmore⟩ := h.bytes
      rw [← hmore, List.getElem?_append_left hi]
    rw [List.getElem?_range hi, Option.map_some, hwords, packBytes_eq]
    simp only
    rw [List.getD_eq_getElem?_getD, wordsOf_getElem? hword, Option.getD_some,
      byteOf_firstWord _ (Nat.mod_lt _ (by omega)), getD_drop, Nat.div_add_mod, hat,
      List.getD_eq_getElem?_getD, List.getElem?_eq_getElem (by omega), Option.getD_some]
  · rw [List.getElem?_eq_none (by simpa using hi), List.getElem?_eq_none (by omega)]
    rfl

/-- What `build_shader_assets` uploads. -/
theorem buildShaderAssets_spec {router : CompiledRouter} {assets : ShaderAssets}
    (h : buildShaderAssets router = .ok assets) :
    ∃ arena, assets.words = packBytes arena ∧ assets.byteLen = arena.length ∧
      assets.texts = router.strings.mapIdx (shaderText router.shaderStringIds) ∧
      ∀ (id : Nat) (text : Text), assets.texts[id]? = some text →
        ∃ string, assets.metadata[id]? = some string ∧ Located arena string text := by
  obtain ⟨⟨metadata, arena⟩, hlayout, h⟩ := Outcome.bind_eq_ok.mp h
  cases h
  obtain ⟨-, hcount, hstrings⟩ := layoutStrings_spec hlayout
  have htexts : ShaderAssets.texts ⟨metadata, packBytes arena, arena.length⟩ =
      router.strings.mapIdx (shaderText router.shaderStringIds) := by
    apply List.ext_getElem?
    intro i
    rw [ShaderAssets.texts, List.getElem?_map, List.getElem?_mapIdx]
    cases hi : router.strings[i]? with
    | none =>
        have hlen : metadata.length ≤ i := hcount.trans_le (List.getElem?_eq_none_iff.mp hi)
        rw [List.getElem?_eq_none hlen]
        rfl
    | some value =>
        obtain ⟨string, hstring, hlocated⟩ := hstrings i value hi
        rw [Nat.zero_add] at hlocated
        rw [hstring, Option.map_some, Option.map_some, unpackString_eq rfl hlocated]
  refine ⟨arena, rfl, rfl, htexts, fun id text hid => ?_⟩
  rw [htexts, List.getElem?_mapIdx, Option.map_eq_some_iff] at hid
  obtain ⟨value, hvalue, rfl⟩ := hid
  obtain ⟨string, hstring, hlocated⟩ := hstrings id value hvalue
  rw [Nat.zero_add] at hlocated
  exact ⟨string, hstring, hlocated⟩

/-- The header tail that `RouterCompiler::new` interns. -/
def headerTailText : Text :=
  ascii "\r\nConnection: close\r\nServer: gput\r\nX-Gput-Backend: gpu\r\n\r\n"

section Keeping

variable {router : Router} {compiled : CompiledRouter} {assets : ShaderAssets}

/-- What an arena holds in the place of a text. -/
def arenaText (text : Text) : Text :=
  if text = headerTailText then persistentGpuHeaderTail else text

theorem arenaText_eq_iff {text : Text} : arenaText text = text ↔ text ≠ headerTailText := by
  rw [arenaText]
  split
  case isTrue htail =>
    rw [htail]
    exact iff_of_false (by decide) (not_not.mpr rfl)
  case isFalse htail => exact iff_of_true rfl htail

/-- The string of an id in the arena. -/
theorem arena_text (hcompile : compile router = .ok compiled)
    (hassets : buildShaderAssets compiled = .ok assets) {id : UInt32} {text : Text}
    (hid : compiled.strings[id.toNat]? = some text) :
    assets.texts[id.toNat]? = some (arenaText text) := by
  obtain ⟨-, -, -, htexts, -⟩ := buildShaderAssets_spec hassets
  have htail := (isCompiled_compile hcompile).ids.headerTail
  rw [htexts, List.getElem?_mapIdx, hid, Option.map_some, Option.some_inj, shaderText, arenaText]
  by_cases hsame : id = compiled.shaderStringIds.headerTail
  · have htext : text = headerTailText := by
      rw [hsame, htail] at hid
      exact (Option.some.inj hid).symm
    rw [if_pos (congrArg UInt32.toNat hsame), if_pos htext]
  · rw [if_neg (mt UInt32.toNat_inj.mp hsame), if_neg]
    rintro rfl
    exact hsame ((compiledFrom_compile hcompile).strings _ _ _ hid htail)

/-- The arena holds a string under its id, unless it is the header tail. -/
theorem arena_text_iff (hcompile : compile router = .ok compiled)
    (hassets : buildShaderAssets compiled = .ok assets) {id : UInt32} {text : Text}
    (hid : compiled.strings[id.toNat]? = some text) :
    assets.texts[id.toNat]? = some text ↔ text ≠ headerTailText := by
  rw [arena_text hcompile hassets hid, Option.some_inj, arenaText_eq_iff]

/-- The arena keeps every string of the application, under the one id it is
interned with, exactly when none of them is the header tail. -/
theorem arena_keeps_iff (hcompile : compile router = .ok compiled)
    (hassets : buildShaderAssets compiled = .ok assets) :
    (∀ text, ApplicationString router text → ∃ id : UInt32,
      (∀ other : UInt32, compiled.strings[other.toNat]? = some text ↔ other = id) ∧
        assets.texts[id.toNat]? = some text) ↔
      ¬ ApplicationString router headerTailText := by
  constructor
  · intro hkeeps htail
    obtain ⟨id, honly, hheld⟩ := hkeeps _ htail
    exact (arena_text_iff hcompile hassets ((honly id).mpr rfl)).mp hheld rfl
  · intro hnone text htext
    obtain ⟨id, hid⟩ := htext.interned hcompile
    refine ⟨id, fun other => ⟨fun hother => ?_, fun heq => heq ▸ hid⟩, ?_⟩
    · exact (compiledFrom_compile hcompile).strings _ _ text hother hid
    · rw [arena_text_iff hcompile hassets hid]
      rintro rfl
      exact hnone htext

end Keeping

theorem arena_keeps_iff_new :
    ∃ compiled assets, compile Router.new = .ok compiled ∧ buildShaderAssets compiled = .ok assets ∧
      ((∀ text, ApplicationString Router.new text → ∃ id : UInt32,
        (∀ other : UInt32, compiled.strings[other.toNat]? = some text ↔ other = id) ∧
          assets.texts[id.toNat]? = some text) ↔
        ¬ ApplicationString Router.new headerTailText) := by
  have hrun : (do
      let compiled ← compile Router.new
      let _ ← buildShaderAssets compiled) = .ok PUnit.unit := by decide +kernel
  obtain ⟨compiled, hcompile, hrun⟩ := Outcome.bind_eq_ok.mp hrun
  obtain ⟨assets, hassets, -⟩ := Outcome.bind_eq_ok.mp hrun
  exact ⟨compiled, assets, hcompile, hassets, arena_keeps_iff hcompile hassets⟩

/-- A router whose fallback is the text of the header tail. -/
def tailRouter : Router :=
  { Router.new with fallback := Response.text (Body.new.push headerTailText) }

theorem arena_loses_tail :
    ∃ compiled assets, compile tailRouter = .ok compiled ∧ buildShaderAssets compiled = .ok assets ∧
      ¬ ∀ text, ApplicationString tailRouter text → ∃ id : UInt32,
        (∀ other : UInt32, compiled.strings[other.toNat]? = some text ↔ other = id) ∧
          assets.texts[id.toNat]? = some text := by
  have hrun : (do
      let compiled ← compile tailRouter
      let _ ← buildShaderAssets compiled) = .ok PUnit.unit := by decide +kernel
  obtain ⟨compiled, hcompile, hrun⟩ := Outcome.bind_eq_ok.mp hrun
  obtain ⟨assets, hassets, -⟩ := Outcome.bind_eq_ok.mp hrun
  refine ⟨compiled, assets, hcompile, hassets, fun hkeeps => ?_⟩
  have htail : ApplicationString tailRouter headerTailText :=
    @ApplicationString.segment _ tailRouter.fallback _ _ (by simp [Router.responses])
      (List.mem_singleton_self _) .literal
  obtain ⟨id, honly, hheld⟩ := hkeeps _ htail
  exact (arena_text_iff hcompile hassets ((honly id).mpr rfl)).mp hheld rfl

end Http
end Gput
