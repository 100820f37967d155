import Gput.Library.OnesComplement
import Gput.Packet.Wire
import Mathlib.Tactic.Ring

/-!
# Checking the checksums of a packet

`validate_ipv4_tcp_checksums` and what it decides: `validate_eq` lists its
outcomes, among them a panic.  It accepts every built packet, and no packet that
differs from a built one in a single bit outside the header length.
-/

namespace Gput
namespace Packet

open OnesComplement

/-- `validate_ipv4_tcp_checksums`. -/
def validateIpv4TcpChecksums (packet : RawPacket) : Outcome Unit := do
  let bytes := packet.bytes
  Outcome.ensure (40 ≤ bytes.length) "IPv4/TCP packet is too small"
  let version ← index bytes 0
  let headerLen := (version &&& 0x0f).toNat * 4
  Outcome.ensure (20 ≤ headerLen ∧ headerLen ≤ bytes.length) "invalid IPv4 header length"
  let totalLen := (← readU16 bytes 2).toNat
  Outcome.ensure (totalLen ≤ bytes.length) "IPv4 total length exceeds packet bytes"
  let header ← sliceRange bytes 0 headerLen
  Outcome.ensure (checksum header = 0) "invalid IPv4 header checksum"
  let declared ← sliceRange bytes 0 totalLen
  let tcpSum ← tcpChecksum declared headerLen false
  Outcome.ensure (tcpSum = 0) "invalid TCP checksum"

/-- No word of a packet is large enough for a sum to leave 32 bits. -/
theorem chunkWords_sum_le (bytes : List UInt8) :
    (chunkWords bytes).sum ≤ 0xffff * ((bytes.length + 1) / 2) := by
  induction bytes using chunkWords.induct with
  | case1 => exact Nat.zero_le _
  | case2 high =>
      have := high.toNat_lt
      simp only [chunkWords, List.sum_cons, List.sum_nil, List.length_cons, List.length_nil]
      omega
  | case3 high low rest ih =>
      have := high.toNat_lt
      have := low.toNat_lt
      simp only [chunkWords, List.sum_cons, List.length_cons]
      omega

theorem folds_foldRounds {sum : Nat} :
    ∀ rounds, foldRounds rounds sum < 2 ^ 16 → Folds sum (foldRounds rounds sum) := by
  intro rounds
  induction rounds generalizing sum with
  | zero => exact Folds.self
  | succ rounds ih =>
      intro hlt
      rw [foldRounds] at hlt ⊢
      split
      case isTrue hcarry =>
        rw [if_pos hcarry] at hlt
        exact (ih hlt).carry
      case isFalse hnone => exact Folds.self (by omega)

/-- `fold_checksum` is the complement of what the sum folds to. -/
theorem foldChecksum_spec {sum : Nat} (h : sum < 2 ^ 32) :
    ∃ value, Folds sum value ∧ (foldChecksum sum).toNat = 65535 - value := by
  have hlt := foldRounds_lt h 30
  refine ⟨_, folds_foldRounds 32 hlt, ?_⟩
  rw [foldChecksum, UInt16.toNat_not, UInt16.toNat_ofNat', Nat.mod_eq_of_lt hlt]
  rfl

theorem foldChecksum_eq_zero_iff {sum : Nat} (h : sum < 2 ^ 32) :
    foldChecksum sum = 0 ↔ Folds sum 65535 := by
  obtain ⟨value, hfolds, hvalue⟩ := foldChecksum_spec h
  have hlt := hfolds.lt
  rw [← UInt16.toNat_inj, hvalue]
  constructor
  · intro hzero
    have hzero : 65535 - value = 0 := hzero
    rwa [show value = 65535 by omega] at hfolds
  · intro hones
    rw [hfolds.unique hones]
    rfl

/-- The sum below the TCP checksum of a packet, over the length it declares. -/
def declaredTcpSum (bytes : List UInt8) : Nat :=
  (fieldU16 bytes 12).toNat + (fieldU16 bytes 14).toNat + (fieldU16 bytes 16).toNat +
    (fieldU16 bytes 18).toNat + 6 + (totalLen bytes - ipHeaderLen bytes) +
    (chunkWords ((bytes.take (totalLen bytes)).drop (ipHeaderLen bytes))).sum

theorem declaredTcpSum_lt {bytes : List UInt8} (h : bytes.length ≤ maxRawPacketBytes) :
    declaredTcpSum bytes < 2 ^ 32 := by
  unfold maxRawPacketBytes at h
  have hfield (i : Nat) := (fieldU16 bytes i).toNat_lt
  have h12 := hfield 12
  have h14 := hfield 14
  have h16 := hfield 16
  have h18 := hfield 18
  have htotal : totalLen bytes < 2 ^ 16 := hfield 2
  have hle := chunkWords_sum_le ((bytes.take (totalLen bytes)).drop (ipHeaderLen bytes))
  rw [List.length_drop, List.length_take] at hle
  rw [declaredTcpSum]
  omega

theorem byteAt_take {bytes : List UInt8} {i n : Nat} (h : i < n) :
    byteAt (bytes.take n) i = byteAt bytes i := by
  rw [byteAt, byteAt, List.getD_eq_getElem?_getD, List.getElem?_take_of_lt h,
    List.getD_eq_getElem?_getD]

theorem fieldU16_take {bytes : List UInt8} {i n : Nat} (h : i + 1 < n) :
    fieldU16 (bytes.take n) i = fieldU16 bytes i := by
  rw [fieldU16, fieldU16, byteAt_take (by omega), byteAt_take h]

/-- What the validator decides, check by check.  It panics where a packet
declares less than its own header. -/
theorem validate_eq (packet : RawPacket) :
    validateIpv4TcpChecksums packet =
      if ¬ 40 ≤ packet.bytes.length then .err "IPv4/TCP packet is too small"
      else if ¬ (20 ≤ ipHeaderLen packet.bytes ∧ ipHeaderLen packet.bytes ≤ packet.bytes.length) then
        .err "invalid IPv4 header length"
      else if ¬ totalLen packet.bytes ≤ packet.bytes.length then
        .err "IPv4 total length exceeds packet bytes"
      else if ¬ checksum (packet.bytes.take (ipHeaderLen packet.bytes)) = 0 then
        .err "invalid IPv4 header checksum"
      else if totalLen packet.bytes < ipHeaderLen packet.bytes then .panic
      else if ¬ foldChecksum (declaredTcpSum packet.bytes) = 0 then .err "invalid TCP checksum"
      else .ok () := by
  rw [validateIpv4TcpChecksums]
  simp only
  generalize packet.bytes = bytes
  rw [Outcome.ensure_bind]
  by_cases hlong : 40 ≤ bytes.length
  swap
  · rw [if_neg hlong, if_pos hlong]
  rw [if_pos hlong, if_neg (not_not.mpr hlong), index_eq (by omega), Outcome.ok_bind,
    Outcome.ensure_bind]
  change (if 20 ≤ ipHeaderLen bytes ∧ ipHeaderLen bytes ≤ bytes.length then _ else _) = _
  by_cases hheader : 20 ≤ ipHeaderLen bytes ∧ ipHeaderLen bytes ≤ bytes.length
  swap
  · rw [if_neg hheader, if_pos hheader]
  rw [if_pos hheader, if_neg (not_not.mpr hheader), readU16_eq (by omega), Outcome.ok_bind,
    Outcome.ensure_bind]
  change (if totalLen bytes ≤ bytes.length then _ else _) = _
  by_cases htotal : totalLen bytes ≤ bytes.length
  swap
  · rw [if_neg htotal, if_pos htotal]
  rw [if_pos htotal, if_neg (not_not.mpr htotal)]
  change (sliceRange bytes 0 (ipHeaderLen bytes) >>= _) = _
  rw [sliceRange_eq ⟨Nat.zero_le _, hheader.2⟩, Outcome.ok_bind, Outcome.ensure_bind,
    List.drop_zero]
  by_cases hsum : checksum (bytes.take (ipHeaderLen bytes)) = 0
  swap
  · rw [if_neg hsum, if_pos hsum]
  rw [if_pos hsum, if_neg (not_not.mpr hsum)]
  change (sliceRange bytes 0 (totalLen bytes) >>= _) = _
  rw [sliceRange_eq ⟨Nat.zero_le _, htotal⟩, Outcome.ok_bind, List.drop_zero]
  have hlength : (bytes.take (totalLen bytes)).length = totalLen bytes := by
    rw [List.length_take]
    omega
  change (tcpChecksum (bytes.take (totalLen bytes)) (ipHeaderLen bytes) false >>= _) = _
  rw [tcpChecksum, hlength]
  by_cases hshort : totalLen bytes < ipHeaderLen bytes
  · rw [if_pos hshort, if_neg (by omega)]
    rfl
  rw [if_neg hshort, if_pos (by omega), readU16_eq (by omega), readU16_eq (by omega),
    readU16_eq (by omega), readU16_eq (by omega), fieldU16_take (by omega),
    fieldU16_take (by omega), fieldU16_take (by omega), fieldU16_take (by omega)]
  simp only [Outcome.pure_eq, Outcome.ok_bind]
  change Outcome.ensure (foldChecksum (declaredTcpSum bytes) = 0) _ = _
  by_cases htcp : foldChecksum (declaredTcpSum bytes) = 0
  · rw [if_neg (not_not.mpr htcp)]
    exact Outcome.ensure_of _ htcp
  · rw [if_pos htcp]
    exact Outcome.ensure_of_not _ htcp

/-- A packet that passes every check in front of the TCP checksum, and declares
less than its own header. -/
structure DeclaresShort (bytes : List UInt8) : Prop where
  long : 40 ≤ bytes.length
  header : 20 ≤ ipHeaderLen bytes ∧ ipHeaderLen bytes ≤ bytes.length
  sum : checksum (bytes.take (ipHeaderLen bytes)) = 0
  short : totalLen bytes < ipHeaderLen bytes

/-- The sums of the validator, with the pseudo header, stay below `2 ^ 32`. -/
def SumsFit (bytes : List UInt8) : Prop :=
  ∀ start stop, 4 * 0xffff + 6 + bytes.length +
    (chunkWords ((bytes.take stop).drop start)).sum < 2 ^ 32

theorem sumsFit (packet : RawPacket) : SumsFit packet.bytes := by
  intro start stop
  have hlength := packet.length_le
  have hsum := chunkWords_sum_le ((packet.bytes.take stop).drop start)
  unfold maxRawPacketBytes at hlength
  rw [List.length_drop, List.length_take] at hsum
  omega

/-- The validator returns, and no sum overflows, exactly for the packets that do
not declare less than their own header behind a correct header checksum. -/
theorem validator_returns_iff (packet : RawPacket) :
    ((validateIpv4TcpChecksums packet = .ok () ∨
        ∃ message, validateIpv4TcpChecksums packet = .err message) ∧ SumsFit packet.bytes) ↔
      ¬ DeclaresShort packet.bytes := by
  rw [and_iff_left (sumsFit packet), validate_eq]
  constructor
  · rintro h ⟨hlong, hheader, hsum, hshort⟩
    have htotal := Nat.le_of_lt (Nat.lt_of_lt_of_le hshort hheader.2)
    rw [if_neg (not_not.mpr hlong), if_neg (not_not.mpr hheader), if_neg (not_not.mpr htotal),
      if_neg (not_not.mpr hsum), if_pos hshort] at h
    rcases h with h | ⟨_, h⟩ <;> cases h
  · intro hnot
    split
    · exact Or.inr ⟨_, rfl⟩
    rename_i hlong
    split
    · exact Or.inr ⟨_, rfl⟩
    rename_i hheader
    split
    · exact Or.inr ⟨_, rfl⟩
    split
    · exact Or.inr ⟨_, rfl⟩
    rename_i hsum
    split
    · rename_i hshort
      exact absurd ⟨not_not.mp hlong, not_not.mp hheader, not_not.mp hsum, hshort⟩ hnot
    split
    · exact Or.inr ⟨_, rfl⟩
    · exact Or.inl rfl

/-- Forty bytes that declare a total length of zero, with a correct header
checksum. -/
def emptyDeclaration : RawPacket where
  bytes := [0x45, 0, 0, 0, 0, 0, 0, 0, 0, 0, 0xba, 0xff] ++ List.replicate 28 0
  nonempty := by simp
  length_le := by decide

theorem validator_panics :
    ¬ (validateIpv4TcpChecksums emptyDeclaration = .ok () ∨
      ∃ message, validateIpv4TcpChecksums emptyDeclaration = .err message) := by
  have hpanic : validateIpv4TcpChecksums emptyDeclaration = .panic := by decide +kernel
  rw [hpanic]
  rintro (h | ⟨_, h⟩) <;> cases h

section Built

variable (spec : TcpPacketSpec)

theorem beByte_word (value : UInt16) :
    (beByte value.toNat 1).toNat * 2 ^ 8 + (beByte value.toNat 0).toNat = value.toNat := by
  have := value.toNat_lt
  rw [beByte_toNat, beByte_toNat]
  norm_num
  omega

/-- A header checksum is one more word of its header. -/
theorem headerSum_packetBytes (ipSum tcpSum : UInt16) :
    (chunkWords ((packetBytes spec ipSum tcpSum).take 20)).sum =
      (chunkWords ((packetBytes spec 0 0).take 20)).sum + ipSum.toNat := by
  have hword := beByte_word ipSum
  have hzero : (beByte (UInt16.toNat 0) 1).toNat = 0 ∧ (beByte (UInt16.toNat 0) 0).toNat = 0 := by
    decide
  simp only [packetBytes, List.cons_append, List.take_succ_cons, List.take_zero, chunkWords,
    List.sum_cons, List.sum_nil, hzero.1, hzero.2, hword]
  ring

/-- The TCP checksum is one more word of its segment. -/
theorem segmentSum_packetBytes (ipSum tcpSum : UInt16) :
    (chunkWords ((packetBytes spec ipSum tcpSum).drop 20)).sum =
      (tcpWords true (chunkWords ((packetBytes spec ipSum 0).drop 20))).sum + tcpSum.toNat := by
  have hword := beByte_word tcpSum
  simp only [packetBytes, List.cons_append, List.drop_succ_cons, List.drop_zero, chunkWords,
    tcpWords, if_true, List.eraseIdx_cons_succ, List.eraseIdx_cons_zero, List.sum_cons, hword]
  ring

/-- The header of a built packet folds to all ones. -/
theorem folds_builtHeader :
    Folds (chunkWords ((builtBytes spec).take 20)).sum 65535 := by
  have hle := chunkWords_sum_le ((packetBytes spec 0 0).take 20)
  rw [List.length_take] at hle
  have hpos : 0 < (chunkWords ((packetBytes spec 0 0).take 20)).sum := by
    simp only [packetBytes, List.cons_append, List.take_succ_cons, List.take_zero, chunkWords,
      List.sum_cons, UInt8.reduceToNat]
    omega
  obtain ⟨value, hfolds, hvalue⟩ :=
    @foldChecksum_spec (chunkWords ((packetBytes spec 0 0).take 20)).sum (by omega)
  rw [builtBytes, headerSum_packetBytes, ipChecksumOf, checksum, hvalue]
  exact hfolds.add_complement hpos

/-- The fields in front of the TCP checksum do not depend on it. -/
theorem fieldU16_packetBytes (i : Nat) (hi : i + 1 < 36) (ipSum tcpSum : UInt16) :
    fieldU16 (packetBytes spec ipSum tcpSum) i = fieldU16 (packetBytes spec ipSum 0) i := by
  have hsame : (packetBytes spec ipSum tcpSum).take 36 = (packetBytes spec ipSum 0).take 36 := rfl
  rw [← fieldU16_take hi, hsame, fieldU16_take hi]

/-- The TCP checksum of a built packet, computed again from its bytes. -/
theorem tcpChecksum_builtBytes :
    tcpChecksum (builtBytes spec) 20 true = .ok (foldChecksum (tcpSumOf spec)) := by
  have hwords (ipSum tcpSum : UInt16) :
      tcpWords true (chunkWords ((packetBytes spec ipSum tcpSum).drop 20)) =
        tcpWords true (chunkWords ((packetBytes spec ipSum 0).drop 20)) := by
    simp only [packetBytes, List.cons_append, List.drop_succ_cons, List.drop_zero, chunkWords,
      tcpWords, if_true, List.eraseIdx_cons_succ, List.eraseIdx_cons_zero]
  have hlength := builtBytes_length spec
  unfold tcpChecksum
  rw [if_pos (by omega), readU16_eq (by omega), readU16_eq (by omega), readU16_eq (by omega),
    readU16_eq (by omega), hlength,
    show 40 + spec.payload.length - 20 = 20 + spec.payload.length by omega, builtBytes, hwords]
  simp only [Outcome.pure_eq, Outcome.ok_bind]
  rw [fieldU16_packetBytes spec 12 (by omega), fieldU16_packetBytes spec 14 (by omega),
    fieldU16_packetBytes spec 16 (by omega), fieldU16_packetBytes spec 18 (by omega), tcpSumOf]

variable (h : 40 + spec.payload.length ≤ maxRawPacketBytes)
include h

theorem tcpSumOf_lt : 0 < tcpSumOf spec ∧ tcpSumOf spec < 2 ^ 32 := by
  unfold maxRawPacketBytes at h
  have hle := chunkWords_sum_le ((packetBytes spec (ipChecksumOf spec) 0).drop 20)
  rw [segmentSum_packetBytes, List.length_drop, packetBytes_length] at hle
  have hfield (i : Nat) := (fieldU16 (packetBytes spec (ipChecksumOf spec) 0) i).toNat_lt
  have h12 := hfield 12
  have h14 := hfield 14
  have h16 := hfield 16
  have h18 := hfield 18
  rw [tcpSumOf]
  omega

/-- The segment of a built packet, with its pseudo header, folds to all ones. -/
theorem folds_builtSegment : Folds (declaredTcpSum (builtBytes spec)) 65535 := by
  obtain ⟨hpos, hlt⟩ := tcpSumOf_lt spec h
  obtain ⟨value, hfolds, hvalue⟩ := foldChecksum_spec hlt
  have hsum : declaredTcpSum (builtBytes spec) = tcpSumOf spec + (65535 - value) := by
    rw [← hvalue, declaredTcpSum, builtBytes, ipHeaderLen_packetBytes, totalLen_packetBytes _ _ _ h,
      List.take_of_length_le (by rw [packetBytes_length]), segmentSum_packetBytes,
      fieldU16_packetBytes spec 12 (by omega), fieldU16_packetBytes spec 14 (by omega),
      fieldU16_packetBytes spec 16 (by omega), fieldU16_packetBytes spec 18 (by omega), tcpSumOf,
      show 40 + spec.payload.length - 20 = 20 + spec.payload.length by omega]
    omega
  rw [hsum]
  exact hfolds.add_complement hpos

/-- The validator accepts what the builder returns. -/
theorem validate_builtPacket : validateIpv4TcpChecksums (builtPacket spec h) = .ok () := by
  have hbytes : (builtPacket spec h).bytes = builtBytes spec := rfl
  have hlength := builtBytes_length spec
  have hheader : ipHeaderLen (builtBytes spec) = 20 := ipHeaderLen_packetBytes spec _ _
  have htotal : totalLen (builtBytes spec) = 40 + spec.payload.length :=
    totalLen_packetBytes spec _ _ h
  have hle := chunkWords_sum_le ((builtBytes spec).take 20)
  rw [List.length_take] at hle
  have hsum : checksum ((builtBytes spec).take 20) = 0 := by
    rw [checksum, foldChecksum_eq_zero_iff (by omega)]
    exact folds_builtHeader spec
  have htcp : foldChecksum (declaredTcpSum (builtBytes spec)) = 0 := by
    rw [foldChecksum_eq_zero_iff (declaredTcpSum_lt (by rw [hlength]; exact h))]
    exact folds_builtSegment spec h
  rw [validate_eq, hbytes, hheader, htotal, if_neg (by omega), if_neg (by omega), if_neg (by omega),
    if_neg (not_not.mpr hsum), if_neg (by omega), if_neg (not_not.mpr htcp)]

end Built

theorem buildIpv4TcpPacket_of_long {spec : TcpPacketSpec}
    (h : ¬ 40 + spec.payload.length ≤ maxRawPacketBytes) :
    ∃ message, buildIpv4TcpPacket spec = .err message := by
  unfold buildIpv4TcpPacket
  simp only
  rw [Outcome.ensure_bind, if_neg h]
  exact ⟨_, rfl⟩

theorem built_of_ok {spec : TcpPacketSpec} {packet : RawPacket}
    (h : buildIpv4TcpPacket spec = .ok packet) :
    ∃ hfits : 40 + spec.payload.length ≤ maxRawPacketBytes, packet = builtPacket spec hfits := by
  by_cases hfits : 40 + spec.payload.length ≤ maxRawPacketBytes
  · rw [buildIpv4TcpPacket_eq spec hfits] at h
    exact ⟨hfits, (Outcome.ok.inj h).symm⟩
  · obtain ⟨message, herr⟩ := buildIpv4TcpPacket_of_long hfits
    rw [herr] at h
    cases h

/-- Building and parsing are inverse to each other, for every payload that fits
a packet, and no other payload is built. -/
theorem build_parse_round_trip (spec : TcpPacketSpec) :
    (spec.payload.length ≤ 1496 → ∃ packet, buildIpv4TcpPacket spec = .ok packet ∧
      parseIpv4Tcp packet = .ok (some
        { key := spec.key, seq := spec.seq, ack := spec.ack, flags := spec.flags,
          payload := spec.payload }) ∧
      schedulingFlowKey packet = .ok (some spec.key) ∧
      validateIpv4TcpChecksums packet = .ok ()) ∧
    (1496 < spec.payload.length → ∃ message, buildIpv4TcpPacket spec = .err message) := by
  constructor
  · intro hpayload
    have h : 40 + spec.payload.length ≤ maxRawPacketBytes := by
      unfold maxRawPacketBytes
      omega
    have hparsed := parsed_builtPacket spec h
    refine ⟨builtPacket spec h, buildIpv4TcpPacket_eq spec h, ?_,
      schedulingFlowKey_of_parsed hparsed, validate_builtPacket spec h⟩
    rw [parseIpv4Tcp_eq, hparsed]
  · intro hpayload
    have h : ¬ 40 + spec.payload.length ≤ maxRawPacketBytes := by
      unfold maxRawPacketBytes
      omega
    exact buildIpv4TcpPacket_of_long h

/-- A payload of three bytes fits, and one of 1497 bytes does not. -/
theorem build_parse_round_trip_three :
    let spec : TcpPacketSpec := ⟨⟨1, 2, 3, 4⟩, 5, 6, 7, [8, 9, 10]⟩
    (∃ packet, buildIpv4TcpPacket spec = .ok packet ∧
      parseIpv4Tcp packet = .ok (some ⟨⟨1, 2, 3, 4⟩, 5, 6, 7, [8, 9, 10]⟩) ∧
      schedulingFlowKey packet = .ok (some ⟨1, 2, 3, 4⟩) ∧
      validateIpv4TcpChecksums packet = .ok ()) ∧
    ∃ message, buildIpv4TcpPacket { spec with payload := List.replicate 1497 0 } = .err message :=
  ⟨(build_parse_round_trip _).1 (by decide),
    (build_parse_round_trip _).2 (by rw [List.length_replicate]; decide)⟩

/-- A byte with one bit inverted. -/
def flipByte (byte : UInt8) (bit : Nat) : UInt8 :=
  byte ^^^ UInt8.ofNat (2 ^ bit)

/-- The bytes with the bit at a position inverted; bit 0 of a byte is its lowest. -/
def flipBytes (bytes : List UInt8) (position : Nat) : List UInt8 :=
  bytes.set (position / 8) (flipByte (byteAt bytes (position / 8)) (position % 8))

/-- A packet with one bit inverted. -/
def RawPacket.flipBit (packet : RawPacket) (position : Nat) : RawPacket where
  bytes := flipBytes packet.bytes position
  nonempty := by
    rw [flipBytes, ne_eq, List.set_eq_nil_iff]
    exact packet.nonempty
  length_le := by
    rw [flipBytes, List.length_set]
    exact packet.length_le

/-- The weight of a byte in a sum of 16-bit words. -/
def byteWeight (i : Nat) : Nat :=
  if i % 2 = 0 then 2 ^ 8 else 1

/-- Replacing a byte changes a sum by the weighted difference. -/
theorem chunkWords_set_sum (bytes : List UInt8) (i : Nat) (hi : i < bytes.length) (byte : UInt8) :
    (chunkWords (bytes.set i byte)).sum + (byteAt bytes i).toNat * byteWeight i =
      (chunkWords bytes).sum + byte.toNat * byteWeight i := by
  induction bytes using chunkWords.induct generalizing i with
  | case1 => exact absurd hi (Nat.not_lt_zero i)
  | case2 high =>
      obtain rfl : i = 0 := Nat.lt_one_iff.mp hi
      simp only [List.set_cons_zero, chunkWords, List.sum_cons, List.sum_nil, byteAt,
        List.getD_cons_zero, byteWeight, Nat.zero_mod, if_true]
      omega
  | case3 high low rest ih =>
      rcases i with _ | _ | i
      · simp only [List.set_cons_zero, chunkWords, List.sum_cons, byteAt, List.getD_cons_zero,
          byteWeight, Nat.zero_mod, if_true]
        omega
      · simp only [Nat.zero_add, List.set_cons_succ, List.set_cons_zero, chunkWords, List.sum_cons,
          byteAt, List.getD_cons_succ, List.getD_cons_zero, byteWeight, Nat.reduceMod, one_ne_zero,
          if_false]
        omega
      · have hrest := ih i (by simpa using hi)
        have hweight : byteWeight (i + 2) = byteWeight i := by
          rw [byteWeight, Nat.add_mod_right, byteWeight]
        simp only [byteAt] at hrest
        simp only [List.set_cons_succ, chunkWords, List.sum_cons, byteAt, List.getD_cons_succ,
          hweight]
        omega

/-- An inverted bit raises or lowers its byte by its place. -/
theorem flipByte_toNat (byte : UInt8) {bit : Nat} (hbit : bit < 8) :
    (flipByte byte bit).toNat = byte.toNat + 2 ^ bit ∨
      byte.toNat = (flipByte byte bit).toNat + 2 ^ bit := by
  have hall : ∀ (n : Fin 256) (k : Fin 8), n.val ^^^ 2 ^ k.val = n.val + 2 ^ k.val ∨
      n.val = (n.val ^^^ 2 ^ k.val) + 2 ^ k.val := by
    decide +kernel
  have hpow : 2 ^ bit < 2 ^ 8 := Nat.pow_lt_pow_right (by norm_num) hbit
  rw [flipByte, UInt8.toNat_xor, UInt8.toNat_ofNat', Nat.mod_eq_of_lt hpow]
  exact hall ⟨byte.toNat, byte.toNat_lt⟩ ⟨bit, hbit⟩

/-- The low half of a byte does not have its high bits. -/
theorem flipByte_low (byte : UInt8) {bit : Nat} (hlow : 4 ≤ bit) (hbit : bit < 8) :
    flipByte byte bit &&& 0x0f = byte &&& 0x0f := by
  have hall : ∀ (n : Fin 256) (k : Fin 8), 4 ≤ k.val →
      (n.val ^^^ 2 ^ k.val) &&& 15 = n.val &&& 15 := by
    decide +kernel
  have hpow : 2 ^ bit < 2 ^ 8 := Nat.pow_lt_pow_right (by norm_num) hbit
  apply UInt8.toNat_inj.mp
  rw [UInt8.toNat_and, UInt8.toNat_and, flipByte, UInt8.toNat_xor, UInt8.toNat_ofNat',
    Nat.mod_eq_of_lt hpow]
  exact hall ⟨byte.toNat, byte.toNat_lt⟩ ⟨bit, hbit⟩ hlow

/-- An inverted bit moves a sum by a power of two. -/
theorem chunkWords_flip_sum {bytes : List UInt8} {i bit : Nat} (hi : i < bytes.length)
    (hbit : bit < 8) :
    ∃ k, k < 16 ∧
      ((chunkWords (bytes.set i (flipByte (byteAt bytes i) bit))).sum =
          (chunkWords bytes).sum + 2 ^ k ∨
        (chunkWords bytes).sum =
          (chunkWords (bytes.set i (flipByte (byteAt bytes i) bit))).sum + 2 ^ k) := by
  have hsum := chunkWords_set_sum bytes i hi (flipByte (byteAt bytes i) bit)
  have hplace := flipByte_toNat (byteAt bytes i) hbit
  unfold byteWeight at hsum
  split at hsum
  · refine ⟨bit + 8, by omega, ?_⟩
    rw [Nat.pow_add]
    omega
  · refine ⟨bit, by omega, ?_⟩
    omega

theorem byteAt_set_ne {bytes : List UInt8} {i j : Nat} (hne : i ≠ j) (byte : UInt8) :
    byteAt (bytes.set i byte) j = byteAt bytes j := by
  rw [byteAt, List.getD_eq_getElem?_getD, List.getElem?_set_ne hne, byteAt,
    List.getD_eq_getElem?_getD]

theorem byteAt_set_self {bytes : List UInt8} {i : Nat} (hi : i < bytes.length) (byte : UInt8) :
    byteAt (bytes.set i byte) i = byte := by
  rw [byteAt, List.getD_eq_getElem?_getD, List.getElem?_set_self hi]
  rfl

theorem fieldU16_set_ne {bytes : List UInt8} {i j : Nat} (hlt : j + 1 < i) (byte : UInt8) :
    fieldU16 (bytes.set i byte) j = fieldU16 bytes j := by
  rw [fieldU16, byteAt_set_ne (by omega), byteAt_set_ne (by omega), fieldU16]

/-- A wrong header checksum rejects a packet, whatever else it declares. -/
theorem validate_of_headerSum {packet : RawPacket}
    (h : checksum (packet.bytes.take (ipHeaderLen packet.bytes)) ≠ 0) :
    ∃ message, validateIpv4TcpChecksums packet = .err message := by
  rw [validate_eq, if_pos h]
  split
  · exact ⟨_, rfl⟩
  split
  · exact ⟨_, rfl⟩
  split
  · exact ⟨_, rfl⟩
  · exact ⟨_, rfl⟩

/-- A wrong TCP checksum rejects a packet that declares its header. -/
theorem validate_of_tcpSum {packet : RawPacket}
    (hdeclared : ipHeaderLen packet.bytes ≤ totalLen packet.bytes)
    (h : foldChecksum (declaredTcpSum packet.bytes) ≠ 0) :
    ∃ message, validateIpv4TcpChecksums packet = .err message := by
  rw [validate_eq, if_neg (Nat.not_lt.mpr hdeclared), if_pos h]
  split
  · exact ⟨_, rfl⟩
  split
  · exact ⟨_, rfl⟩
  split
  · exact ⟨_, rfl⟩
  split
  · exact ⟨_, rfl⟩
  · exact ⟨_, rfl⟩

section Flipped

variable (spec : TcpPacketSpec) {i bit : Nat} (hbit : bit < 8)
include hbit

/-- A bit of the header, apart from its length, breaks the header checksum. -/
theorem headerSum_flipped (hi : i < 20) (hihl : ¬ (i = 0 ∧ bit < 4)) :
    let flipped := (builtBytes spec).set i (flipByte (byteAt (builtBytes spec) i) bit)
    checksum (flipped.take (ipHeaderLen flipped)) ≠ 0 := by
  intro flipped
  have hlength := builtBytes_length spec
  have hihlKept : ipHeaderLen flipped = 20 := by
    have hbuilt : ipHeaderLen (builtBytes spec) = 20 := ipHeaderLen_packetBytes spec _ _
    rw [← hbuilt, ipHeaderLen, ipHeaderLen]
    by_cases hzero : i = 0
    · subst hzero
      rw [byteAt_set_self (by omega), flipByte_low _ (by omega) hbit]
    · rw [byteAt_set_ne hzero]
  have hheader : flipped.take 20 = ((builtBytes spec).take 20).set i
      (flipByte (byteAt ((builtBytes spec).take 20) i) bit) := by
    rw [byteAt_take hi]
    exact List.take_set
  have hshort : i < ((builtBytes spec).take 20).length := by
    rw [List.length_take]
    omega
  obtain ⟨k, hk, hoff⟩ := chunkWords_flip_sum hshort hbit
  have hle := chunkWords_sum_le (flipped.take 20)
  rw [List.length_take] at hle
  rw [hihlKept, checksum, ne_eq, foldChecksum_eq_zero_iff (by omega), hheader]
  exact (folds_builtHeader spec).not_off_by_bit hk hoff

/-- A bit behind the header breaks the TCP checksum. -/
theorem tcpSum_flipped (h : 40 + spec.payload.length ≤ maxRawPacketBytes) (hi : 20 ≤ i)
    (hlt : i < (builtBytes spec).length) :
    let flipped := (builtBytes spec).set i (flipByte (byteAt (builtBytes spec) i) bit)
    ipHeaderLen flipped ≤ totalLen flipped ∧ foldChecksum (declaredTcpSum flipped) ≠ 0 := by
  intro flipped
  have hlength := builtBytes_length spec
  have hflipped : flipped.length = 40 + spec.payload.length := by
    rw [List.length_set, hlength]
  have hihl : ipHeaderLen flipped = ipHeaderLen (builtBytes spec) := by
    rw [ipHeaderLen, byteAt_set_ne (by omega), ipHeaderLen]
  have htotal : totalLen flipped = totalLen (builtBytes spec) := by
    rw [totalLen, fieldU16_set_ne (by omega), totalLen]
  have hbuiltIhl : ipHeaderLen (builtBytes spec) = 20 := ipHeaderLen_packetBytes spec _ _
  have hbuiltTotal : totalLen (builtBytes spec) = 40 + spec.payload.length :=
    totalLen_packetBytes spec _ _ h
  refine ⟨by omega, ?_⟩
  have hshort : i - 20 < ((builtBytes spec).drop 20).length := by
    rw [List.length_drop]
    omega
  have hsegment : flipped.drop 20 = ((builtBytes spec).drop 20).set (i - 20)
      (flipByte (byteAt ((builtBytes spec).drop 20) (i - 20)) bit) := by
    have hbyte : byteAt ((builtBytes spec).drop 20) (i - 20) = byteAt (builtBytes spec) i := by
      rw [byteAt, List.getD_eq_getElem?_getD, List.getElem?_drop, byteAt,
        List.getD_eq_getElem?_getD, Nat.add_sub_cancel' hi]
    rw [hbyte, List.drop_set, if_neg (by omega)]
  obtain ⟨k, hk, hoff⟩ := chunkWords_flip_sum hshort hbit
  rw [← hsegment] at hoff
  have hsum (bytes : List UInt8) (hbytes : bytes.length = 40 + spec.payload.length)
      (hihl : ipHeaderLen bytes = 20) (htotal : totalLen bytes = 40 + spec.payload.length) :
      declaredTcpSum bytes = (fieldU16 bytes 12).toNat + (fieldU16 bytes 14).toNat +
        (fieldU16 bytes 16).toNat + (fieldU16 bytes 18).toNat + 6 +
        (20 + spec.payload.length) + (chunkWords (bytes.drop 20)).sum := by
    rw [declaredTcpSum, hihl, htotal, List.take_of_length_le (by omega),
      show 40 + spec.payload.length - 20 = 20 + spec.payload.length by omega]
  have hbuiltSum := hsum _ hlength hbuiltIhl hbuiltTotal
  have hflippedSum := hsum flipped hflipped (by omega) (by omega)
  rw [fieldU16_set_ne (by omega), fieldU16_set_ne (by omega), fieldU16_set_ne (by omega),
    fieldU16_set_ne (by omega)] at hflippedSum
  rw [ne_eq, foldChecksum_eq_zero_iff (declaredTcpSum_lt (by omega))]
  refine (folds_builtSegment spec h).not_off_by_bit hk ?_
  omega

end Flipped

/-- No bit of a built packet can be inverted unnoticed, apart from the four that
say where its checksums end. -/
theorem flipped_packet_rejected {spec : TcpPacketSpec} {packet : RawPacket}
    (hbuilt : buildIpv4TcpPacket spec = .ok packet) {position : Nat}
    (hposition : position < 8 * packet.bytes.length)
    (hihl : ¬ (position / 8 = 0 ∧ position % 8 < 4)) :
    ∃ message, validateIpv4TcpChecksums (packet.flipBit position) = .err message := by
  obtain ⟨hfits, rfl⟩ := built_of_ok hbuilt
  have hbit : position % 8 < 8 := Nat.mod_lt _ (by norm_num)
  have hlt : position / 8 < (builtBytes spec).length := by
    change position < 8 * (builtBytes spec).length at hposition
    omega
  by_cases hi : position / 8 < 20
  · exact validate_of_headerSum (headerSum_flipped spec hbit hi hihl)
  · obtain ⟨hdeclared, hsum⟩ := tcpSum_flipped spec hbit hfits (Nat.not_lt.mp hi) hlt
    exact validate_of_tcpSum hdeclared hsum

/-- A bit of the destination address, which both checksums cover. -/
theorem flipped_packet_rejected_address :
    ∃ packet, buildIpv4TcpPacket ⟨⟨1, 2, 3, 4⟩, 5, 6, 7, [8, 9, 10]⟩ = .ok packet ∧
      ∃ message, validateIpv4TcpChecksums (packet.flipBit 131) = .err message :=
  have hbuilt := buildIpv4TcpPacket_eq ⟨⟨1, 2, 3, 4⟩, 5, 6, 7, [8, 9, 10]⟩ (by decide)
  ⟨_, hbuilt, flipped_packet_rejected hbuilt (by decide) (by decide)⟩

end Packet
end Gput
