import Gput.Http.ShaderWriter

/-!
# Runs of the response writer

Any sequence of pushes, at any alignment and over any earlier contents of the
slot: the writer is an append-only byte buffer of the size of the slot.  The
operations push the bytes they say (`WriterOp.pushes`), and so do runs of them
(`runOps_pushes`); `writer_finish` publishes all of them or reports an overflow.
-/

namespace Gput
namespace Http
namespace Shader

open LittleEndian WordMemory Decimal

/-- A push of the writer. -/
inductive WriterOp
  | pushByte (byte : UInt32)
  | pushWord (word : UInt32)
  | pushString (stringId : UInt32)
  | pushRequestRange (requestIndex byteStart byteLen : UInt32)
  | pushDecimal (value : UInt32)

/-- What the read-only buffers hold: the arena of the strings, and the bytes of
each request.  A request index that is not in use may be given the empty request. -/
structure Contents (bindings : Bindings) where
  arena : List UInt8
  requests : UInt32 → List UInt8
  arena_holds : Holds bindings.stringWords 0 arena
  arena_length : arena.length ≤ 2 ^ 32
  requests_holds : ∀ i, Holds bindings.inputWords (bindings.requestMeta i).wordOffset (requests i)
  requests_length : ∀ i, (requests i).length ≤ 2 ^ 32

namespace WriterOp

variable (bindings : Bindings)

/-- The shader's function for a push. -/
def run : WriterOp → Output → Output
  | .pushByte byte => fun output => writerPushByte bindings.params output byte
  | .pushWord word => fun output => writerPushWord bindings.params output word
  | .pushString stringId => writerPushString bindings stringId
  | .pushRequestRange requestIndex byteStart byteLen =>
      writerPushRequestRange bindings requestIndex byteStart byteLen
  | .pushDecimal value => writerPushDecimal bindings.params value

variable {bindings} (contents : Contents bindings)

/-- The bytes a push is meant to append. -/
def bytes : WriterOp → List UInt8
  | .pushByte byte => [byte.toUInt8]
  | .pushWord word => toBytes [word]
  | .pushString stringId =>
      (contents.arena.drop (bindings.stringMeta stringId).byteOffset.toNat).take
        (bindings.stringMeta stringId).byteLen.toNat
  | .pushRequestRange requestIndex byteStart byteLen =>
      ((contents.requests requestIndex).drop byteStart.toNat).take byteLen.toNat
  | .pushDecimal value => decimal value.toNat

/-- A string that lies in the arena, a range that lies in the request. -/
def InRange : WriterOp → Prop
  | .pushString stringId =>
      (bindings.stringMeta stringId).byteOffset.toNat +
        (bindings.stringMeta stringId).byteLen.toNat ≤ contents.arena.length
  | .pushRequestRange requestIndex byteStart byteLen =>
      byteStart.toNat + byteLen.toNat ≤ (contents.requests requestIndex).length
  | _ => True

instance : DecidablePred (InRange contents)
  | .pushByte _ => isTrue trivial
  | .pushWord _ => isTrue trivial
  | .pushString _ => inferInstanceAs (Decidable (_ ≤ _))
  | .pushRequestRange _ _ _ => inferInstanceAs (Decidable (_ ≤ _))
  | .pushDecimal _ => isTrue trivial

end WriterOp

/-- Pushes one after another. -/
def runOps (bindings : Bindings) (ops : List WriterOp) (output : Output) : Output :=
  ops.foldl (fun output op => op.run bindings output) output

section Pushing

variable {bindings : Bindings} {requestIndex : UInt32}

/-- A byte is pushed without what stands above it in its word. -/
theorem writerPushByte_low (params : Params) (output : Output) (byte : UInt32) :
    writerPushByte params output byte.toUInt8.toUInt32 = writerPushByte params output byte := by
  have hlow : byte.toUInt8.toUInt32 &&& 255 = byte &&& 255 := by
    apply UInt32.toNat_inj.mp
    rw [UInt32.toNat_and, UInt32.toNat_and, UInt8.toNat_toUInt32, UInt32.toNat_toUInt8]
    simp only [UInt32.reduceToNat]
    rw [Nat.and_two_pow_sub_one_eq_mod _ 8, Nat.and_two_pow_sub_one_eq_mod _ 8, Nat.mod_mod]
  simp only [writerPushByte, hlow]

variable (hcapacity : 4 * bindings.params.responseStrideWords.toNat < 2 ^ 32)
include hcapacity

/-- A copy of a range that lies in a stored string. -/
theorem pushRange_stored {memory : UInt32 → UInt32} {base start len : UInt32} {text : List UInt8}
    (hstored : Holds memory base text) (hlength : text.length ≤ 2 ^ 32)
    (hrange : start.toNat + len.toNat ≤ text.length) :
    Pushes bindings.params requestIndex
      (pushRange bindings.params (fun i => readWord memory base (start + i))
        (fun i => readByte memory base (start + i)) len)
      ((text.drop start.toNat).take len.toNat) := by
  have hlen : len.toNat = ((text.drop start.toNat).take len.toNat).length := by
    rw [List.length_take, List.length_drop]
    omega
  refine pushRange_pushes hcapacity (hstored.reads ?_ (List.take_prefix _ _)) hlen
  rw [← hlen]
  omega

/-- Every push appends its bytes, at whatever position the writer stands. -/
theorem WriterOp.pushes {contents : Contents bindings} {op : WriterOp}
    (h : op.InRange contents) :
    Pushes bindings.params requestIndex (op.run bindings) (op.bytes contents) := by
  cases op with
  | pushByte byte =>
      have hstep : WriterOp.run bindings (.pushByte byte) =
          fun output => writerPushByte bindings.params output byte.toUInt8.toUInt32 :=
        funext fun output => (writerPushByte_low _ output byte).symm
      rw [hstep]
      exact writerPushByte_pushes hcapacity byte.toUInt8
  | pushWord word =>
      have hword : Pushes bindings.params requestIndex
          (fun output => writerPushWord bindings.params output (firstWord (toBytes [word])))
          (toBytes [word]) := writerPushWord_pushes hcapacity (toBytes_length [word])
      rwa [firstWord_toBytes] at hword
  | pushString stringId =>
      exact pushRange_stored hcapacity contents.arena_holds contents.arena_length h
  | pushRequestRange index byteStart byteLen =>
      exact pushRange_stored hcapacity (contents.requests_holds index)
        (contents.requests_length index) h
  | pushDecimal value => exact writerPushDecimal_pushes hcapacity value

/-- A run of pushes appends the bytes of all of them. -/
theorem runOps_pushes {contents : Contents bindings} {ops : List WriterOp}
    (h : ∀ op ∈ ops, op.InRange contents) :
    Pushes bindings.params requestIndex (runOps bindings ops)
      (ops.flatMap (·.bytes contents)) := by
  induction ops with
  | nil => exact Pushes.nil
  | cons op ops ih =>
      obtain ⟨hop, hops⟩ := List.forall_mem_cons.mp h
      exact (WriterOp.pushes hcapacity hop).comp (ih hops)

end Pushing

/-- `writer_finish` reports that the slot was too small. -/
theorem writerFinish_overflowed {params : Params} {requestIndex : UInt32} {output : Output}
    {storage : Storage} (status : UInt32)
    (h : Overflowed params requestIndex storage.outputWords output) :
    let after := writerFinish params output status storage
    after.responseMeta requestIndex = ⟨0, 500, responseFlagOutputOverflow⟩ ∧
      (∀ i, i ≠ requestIndex → after.responseMeta i = storage.responseMeta i) ∧
      ∀ i, ¬ InSlot params requestIndex i → after.outputWords i = storage.outputWords i := by
  have hflags : output.writer.flags ≠ 0 := h.failed
  simp only [writerFinish, if_pos hflags, h.index]
  rw [h.flags]
  exact ⟨Function.update_self _ _ _, fun i hi => Function.update_of_ne hi _ _, h.others⟩

/-- The words of a slot, as numbers. -/
theorem InSlot.toNat {params : Params} {requestIndex i : UInt32} {outputLen : Nat}
    (houtput : outputLen < 2 ^ 32)
    (hslot : (requestIndex.toNat + 1) * params.responseStrideWords.toNat ≤ outputLen)
    (h : InSlot params requestIndex i) :
    requestIndex.toNat * params.responseStrideWords.toNat ≤ i.toNat ∧
      i.toNat < (requestIndex.toNat + 1) * params.responseStrideWords.toNat := by
  obtain ⟨k, hk, rfl⟩ := h
  have hnext : (requestIndex.toNat + 1) * params.responseStrideWords.toNat =
      requestIndex.toNat * params.responseStrideWords.toNat + params.responseStrideWords.toNat :=
    Nat.succ_mul _ _
  rw [slotBase, UInt32.toNat_add, UInt32.toNat_mul, UInt32.toNat_ofNat',
    Nat.mod_eq_of_lt (show k < 2 ^ 32 by omega),
    Nat.mod_eq_of_lt (show requestIndex.toNat * params.responseStrideWords.toNat < 2 ^ 32 by omega),
    Nat.mod_eq_of_lt (by omega)]
  omega

/-- The writer is an append-only byte buffer of the size of its slot.  What a run
of pushes leaves is decided by the bytes it pushed, not by what the slot held
before. -/
theorem writer_appends {bindings : Bindings} (contents : Contents bindings)
    {requestIndex : UInt32} {outputLen : Nat}
    (hcapacity : 4 * bindings.params.responseStrideWords.toNat < 2 ^ 32)
    (houtput : outputLen < 2 ^ 32)
    (hslot : (requestIndex.toNat + 1) * bindings.params.responseStrideWords.toNat ≤ outputLen)
    {ops : List WriterOp} (hops : ∀ op ∈ ops, op.InRange contents)
    (status : UInt32) (storage : Storage) :
    let bytes := ops.flatMap (·.bytes contents)
    let output := runOps bindings ops ⟨writerNew requestIndex, storage.outputWords⟩
    let after := writerFinish bindings.params output status storage
    (if bytes.length ≤ 4 * bindings.params.responseStrideWords.toNat then
      (after.responseMeta requestIndex).outputLen.toNat = bytes.length ∧
        (after.responseMeta requestIndex).status = status ∧
        (after.responseMeta requestIndex).flags = 0 ∧
        bytesFrom after.outputWords (requestIndex * bindings.params.responseStrideWords)
          bytes.length = bytes
    else after.responseMeta requestIndex = ⟨0, 500, responseFlagOutputOverflow⟩) ∧
      (∀ i, i ≠ requestIndex → after.responseMeta i = storage.responseMeta i) ∧
      (∀ i : UInt32,
        i.toNat < requestIndex.toNat * bindings.params.responseStrideWords.toNat ∨
          (requestIndex.toNat + 1) * bindings.params.responseStrideWords.toNat ≤ i.toNat →
        after.outputWords i = storage.outputWords i) ∧
      ∀ value : UInt32, (decimalWidth value).toNat = (decimal value.toNat).length := by
  have htracks := runOps_pushes hcapacity hops storage.outputWords []
    ⟨writerNew requestIndex, storage.outputWords⟩ (tracks_writerNew storage.outputWords)
  have houtside {i : UInt32}
      (hi : i.toNat < requestIndex.toNat * bindings.params.responseStrideWords.toNat ∨
        (requestIndex.toNat + 1) * bindings.params.responseStrideWords.toNat ≤ i.toNat) :
      ¬ InSlot bindings.params requestIndex i := by
    intro hin
    have := hin.toNat houtput hslot
    omega
  rw [List.nil_append] at htracks
  intro bytes output after
  by_cases hfits : bytes.length ≤ 4 * bindings.params.responseStrideWords.toNat
  · rw [Tracks, if_pos hfits] at htracks
    have hanswered := writerFinish_answered status hcapacity htracks hfits
    rw [if_pos hfits]
    exact ⟨⟨hanswered.outputLen, hanswered.status, hanswered.flags,
      hanswered.bytes.bytesFrom_eq⟩, hanswered.otherMeta,
      fun i hi => hanswered.otherWords i (houtside hi), decimalWidth_toNat⟩
  · rw [Tracks, if_neg hfits] at htracks
    obtain ⟨hmeta, hothers, hwords⟩ := writerFinish_overflowed status htracks
    rw [if_neg hfits]
    exact ⟨hmeta, hothers, fun i hi => hwords i (houtside hi), decimalWidth_toNat⟩

/-- A string of six bytes in an arena of seven, and a request of five bytes. -/
def smallBindings : Bindings where
  ids := ⟨0, 0, 0, 0, 0⟩
  params := ⟨2, 4, 2, 0, 0, 0, 0⟩
  requestMeta := fun _ => ⟨5, 0⟩
  inputWords := fun i => (wordsOf 2 [71, 69, 84, 32, 47]).getD i.toNat 0
  stringMeta := fun _ => ⟨1, 6⟩
  stringWords := fun i => (wordsOf 2 [33, 97, 98, 99, 100, 101, 102]).getD i.toNat 0
  routerWords := fun _ => 0

theorem holds_getD {bytes : List UInt8} (h : bytes.length ≤ 2 ^ 32) :
    Holds (fun i => (wordsOf ((bytes.length + 3) / 4) bytes).getD i.toNat 0) 0 bytes := by
  refine Stores.holds (fun i value hvalue => ?_) h
  rw [List.getD_eq_getElem?_getD, hvalue, Option.getD_some]

def smallContents : Contents smallBindings where
  arena := [33, 97, 98, 99, 100, 101, 102]
  requests := fun _ => [71, 69, 84, 32, 47]
  arena_holds := holds_getD (by decide)
  arena_length := by decide
  requests_holds := fun _ => holds_getD (by decide)
  requests_length := fun _ => by decide

/-- Fourteen bytes at four alignments, in the second slot of a used buffer. -/
theorem writer_appends_small :
    let ops : List WriterOp :=
      [.pushByte 0xff41, .pushString 0, .pushDecimal 120, .pushRequestRange 1 1 4]
    let output := runOps smallBindings ops ⟨writerNew 1, fun _ => 0xffffffff⟩
    let after := writerFinish smallBindings.params output 200
      ⟨fun _ => ⟨9, 9, 9⟩, fun _ => 0xffffffff⟩
    (after.responseMeta 1).outputLen.toNat = 14 ∧
      bytesFrom after.outputWords 4 14 =
        [65, 97, 98, 99, 100, 101, 102, 49, 50, 48, 69, 84, 32, 47] := by
  intro ops output after
  obtain ⟨h, -⟩ := @writer_appends smallBindings smallContents 1 8 (by decide) (by decide)
    (by decide) ops (by decide) 200 ⟨fun _ => ⟨9, 9, 9⟩, fun _ => 0xffffffff⟩
  have hbytes : ops.flatMap (·.bytes smallContents) =
      [65, 97, 98, 99, 100, 101, 102, 49, 50, 48, 69, 84, 32, 47] := by decide
  rw [hbytes, if_pos (by decide)] at h
  exact ⟨h.1, h.2.2.2⟩

end Shader
end Http
end Gput
