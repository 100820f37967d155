import Gput.Packet.Waves

/-!
# Order across waves

Packets of one flow never share a wave, but they keep their order only while no
fill loop admits a packet after it put an earlier packet of the same flow aside.
A packet put aside for the word limit is not recorded in the flow set, so a
smaller packet of its flow can overtake it; `RoomForEarlier` says which batches
leave no such packet behind.
-/

namespace Gput
namespace Packet

open GreedyRounds

/-- A dispatch that only notes the wave. -/
def recordWave (wave : List Nat) (log : List (List Nat)) : Outcome (List (List Nat)) :=
  .ok (log ++ [wave])

/-- The waves `process_batch_to` dispatches, in order. -/
def Dispatches (packets : List RawPacket) (limits : Nat × Nat) (scratch : PacketScratch)
    (log : List (List Nat)) : Prop :=
  ∃ scratch' : PacketScratch,
    processBatchTo recordWave packets limits packets.length scratch [] = .ok (scratch', log)

/-- Of two packets of one flow the earlier is dispatched in an earlier wave. -/
def KeepsFlowOrder (packets : List RawPacket) (log : List (List Nat)) : Prop :=
  ∀ i j, i < j → j < packets.length → SameFlow packets i j → roundOf log i < roundOf log j

/-- No fill loop admits a packet after it put an earlier packet of the same flow
aside. -/
def NoOvertaking (packets : List RawPacket) (limits : Nat × Nat) : Prop :=
  RoundsOrdered (Admits packets limits) (SameFlow packets) packets.length
    (List.range packets.length)

section Order

variable {packets : List RawPacket} {limits : Nat × Nat}

theorem runWaves_recordWave (log : List (List Nat)) : ∀ before,
    runWaves recordWave log before = .ok (before ++ log) := by
  induction log with
  | nil =>
      intro before
      simp [runWaves]
  | cons wave rest ih =>
      intro before
      rw [runWaves, recordWave]
      simp only [Outcome.ok_bind]
      rw [ih]
      simp

/-- The waves are dispatched whatever earlier batches left in the scratch. -/
theorem dispatches_waves (hbatch : 1 ≤ limits.1) (hwords : 384 ≤ limits.2)
    {scratch : PacketScratch} (hreach : scratch.seen.Reachable) (log : List (List Nat)) :
    Dispatches packets limits scratch log ↔ log = waves packets limits := by
  obtain ⟨scratch', -, hrun⟩ := processBatchTo_eq packets hbatch hwords hreach
  have hresult := hrun _ recordWave []
  rw [runWaves_recordWave, List.nil_append] at hresult
  unfold Dispatches
  rw [hresult]
  simp only [Outcome.ok_bind, Outcome.pure_eq, Outcome.ok.injEq, Prod.mk.injEq]
  constructor
  · rintro ⟨_, -, rfl⟩
    rfl
  · rintro rfl
    exact ⟨scratch', rfl, rfl⟩

/-- A packet whose flow is in the wave is not admitted. -/
theorem not_admits_of_sameFlow (wave : List Nat) (i j : Nat) (hi : i ∈ wave)
    (hflow : SameFlow packets i j) : ¬ Admits packets limits wave j := by
  obtain ⟨key, hki, hkj⟩ := hflow
  intro hadmits
  exact hadmits.2 key hkj (mem_waveKeys.mpr ⟨i, hi, hki⟩)

/-- The waves keep the order of every flow exactly when no fill loop overtakes. -/
theorem keepsFlowOrder_waves_iff (hbatch : 1 ≤ limits.1) (hwords : 384 ≤ limits.2) :
    KeepsFlowOrder packets (waves packets limits) ↔ NoOvertaking packets limits := by
  have hiff := rounds_ordered_iff (Admits packets limits) (SameFlow packets)
    (admits_nil hbatch hwords) not_admits_of_sameFlow packets.length
    (List.range packets.length) (by simp) List.nodup_range
  rw [NoOvertaking, hiff, List.pairwise_iff_getElem]
  simp only [List.length_range, List.getElem_range]
  constructor
  · intro h i j _ hj hij
    exact h i j hij hj
  · intro h i j hij hj
    exact h i j (by omega) hj hij

/-- The packets at the given indices. -/
def packetsAt (packets : List RawPacket) (wave : List Nat) : List RawPacket :=
  wave.filterMap fun i => packets[i]?

/-- Packets that can share a wave: together they keep both limits, and no two have
one scheduling key. -/
structure FitsWave (limits : Nat × Nat) (wave : List RawPacket) : Prop where
  length_le : wave.length ≤ limits.1
  words_le : (wave.map packetWords).sum ≤ limits.2
  distinct : (wave.filterMap schedulingKey).Nodup

/-- Whenever a later packet of a flow could share a wave with packets that stand
before it, the earlier packet of that flow still fits the words of those that
stand before it. -/
def RoomForEarlier (packets : List RawPacket) (limits : Nat × Nat) : Prop :=
  ∀ before earlier between later,
    (before ++ earlier :: between ++ [later]).Sublist packets →
    (∃ key, schedulingKey earlier = some key ∧ schedulingKey later = some key) →
    FitsWave limits (before ++ between ++ [later]) →
    ((before ++ [earlier]).map packetWords).sum ≤ limits.2

@[simp] theorem packetsAt_append (wave more : List Nat) :
    packetsAt packets (wave ++ more) = packetsAt packets wave ++ packetsAt packets more :=
  List.filterMap_append

theorem packetsAt_singleton {i : Nat} (hi : i < packets.length) :
    packetsAt packets [i] = [packets[i]] := by
  simp [packetsAt, hi]

theorem packetsAt_cons {i : Nat} (hi : i < packets.length) (wave : List Nat) :
    packetsAt packets (i :: wave) = packets[i] :: packetsAt packets wave := by
  simp [packetsAt, hi]

/-- A run of indices stands for the packets it counts. -/
theorem packetsAt_range' (mid back : List RawPacket) : ∀ front : List RawPacket,
    packets = front ++ mid ++ back →
    packetsAt packets (List.range' front.length mid.length) = mid := by
  induction mid with
  | nil =>
      intro front _
      rfl
  | cons packet mid ih =>
      intro front hpackets
      have hi : front.length < packets.length := by simp [hpackets]
      have hrest := ih (front ++ [packet]) (by simp [hpackets])
      rw [List.length_append, List.length_singleton] at hrest
      rw [List.length_cons, List.range'_succ, packetsAt_cons hi, hrest]
      simp [hpackets]

theorem packetsAt_range : packetsAt packets (List.range packets.length) = packets := by
  simpa [List.range_eq_range'] using @packetsAt_range' packets packets [] [] (by simp)

theorem waveWords_packetsAt (wave : List Nat) :
    waveWords packets wave = ((packetsAt packets wave).map packetWords).sum := by
  induction wave with
  | nil => rfl
  | cons i rest ih =>
      simp only [waveWords, List.map_cons, List.sum_cons] at ih ⊢
      rw [ih, wordsAt]
      cases h : packets[i]? <;> simp [packetsAt, h]

theorem waveKeys_packetsAt (wave : List Nat) :
    waveKeys packets wave = ((packetsAt packets wave).filterMap schedulingKey).toFinset := by
  rw [packetsAt, List.filterMap_filterMap]
  rfl

theorem length_packetsAt {wave : List Nat} (h : ∀ i ∈ wave, i < packets.length) :
    (packetsAt packets wave).length = wave.length := by
  induction wave with
  | nil => rfl
  | cons i rest ih =>
      rw [packetsAt_cons (h i (by simp)), List.length_cons, List.length_cons,
        ih fun j hj => h j (List.mem_cons_of_mem i hj)]

/-- A fill loop admits exactly the packets that can share the wave. -/
theorem admits_iff_fitsWave {wave : List Nat} {i : Nat} (hi : i < packets.length)
    (hwave : ∀ j ∈ wave, j < packets.length) (hfits : FitsWave limits (packetsAt packets wave)) :
    Admits packets limits wave i ↔ FitsWave limits (packetsAt packets (wave ++ [i])) := by
  have hlength := hfits.length_le
  rw [length_packetsAt hwave] at hlength
  rw [packetsAt_append, packetsAt_singleton hi, Admits, waveWords_packetsAt, wordsAt_eq hi,
    keyAt_eq hi]
  simp only [waveKeys_packetsAt, List.mem_toFinset]
  constructor
  · rintro ⟨⟨hcount, hroom⟩, hkeys⟩
    refine ⟨?_, by simpa using hroom, ?_⟩
    · rw [List.length_append, length_packetsAt hwave]
      exact Nat.lt_of_le_of_ne hlength hcount
    · rw [List.filterMap_append, List.nodup_append']
      refine ⟨hfits.distinct, by cases h : schedulingKey packets[i] <;> simp [h], ?_⟩
      intro key hkey hlast
      exact hkeys key (by simpa using hlast) hkey
  · rintro ⟨hcount, hroom, hdistinct⟩
    rw [List.length_append, length_packetsAt hwave, List.length_singleton] at hcount
    refine ⟨⟨by omega, by simpa using hroom⟩, ?_⟩
    intro key hkey hmem
    rw [List.filterMap_append] at hdistinct
    exact (List.nodup_append'.mp hdistinct).2.2 hmem (by simp [hkey])

theorem FitsWave.nil : FitsWave limits [] :=
  ⟨Nat.zero_le _, Nat.zero_le _, List.nodup_nil⟩

/-- Packets that can share a wave can share it without the last ones. -/
theorem FitsWave.front {front back : List RawPacket} (h : FitsWave limits (front ++ back)) :
    FitsWave limits front := by
  obtain ⟨hlength, hwords, hdistinct⟩ := h
  rw [List.length_append] at hlength
  rw [List.map_append, List.sum_append] at hwords
  rw [List.filterMap_append] at hdistinct
  exact ⟨by omega, by omega, (List.nodup_append'.mp hdistinct).1⟩

/-- A sublist of a batch's indices stands for a sublist of the batch. -/
theorem packetsAt_sublist {wave : List Nat} (h : wave.Sublist (List.range packets.length)) :
    (packetsAt packets wave).Sublist packets ∧ ∀ i ∈ wave, i < packets.length := by
  refine ⟨?_, fun i hi => List.mem_range.mp (h.subset hi)⟩
  have hsub : (packetsAt packets wave).Sublist
      (packetsAt packets (List.range packets.length)) := h.filterMap _
  rwa [packetsAt_range] at hsub

/-- With room for earlier packets no fill loop overtakes. -/
theorem noOvertaking_of_room (hroom : RoomForEarlier packets limits) :
    NoOvertaking packets limits := by
  refine roundsOrdered_of_turns _ _
    (fun wave => (∀ i ∈ wave, i < packets.length) → FitsWave limits (packetsAt packets wave))
    (fun _ => FitsWave.nil) ?_ ?_ _ _ (List.Sublist.refl (List.range packets.length))
  · intro held item hheld hadmits hin
    have hin' : ∀ i ∈ held, i < packets.length := fun i hi => hin i (List.mem_append_left _ hi)
    exact (admits_iff_fitsWave (hin item (by simp)) hin' (hheld hin')).mp hadmits
  · intro before other between item hsub hflow hheld hout hadmits
    obtain ⟨hpackets, hin⟩ := packetsAt_sublist hsub
    have hother : other < packets.length := hin other (by simp)
    have hitem : item < packets.length := hin item (by simp)
    have hbefore : ∀ i ∈ before, i < packets.length := fun i hi => hin i (by simp [hi])
    have hboth : ∀ i ∈ before ++ between, i < packets.length := by
      intro i hi
      rcases List.mem_append.mp hi with hi | hi
      · exact hbefore i hi
      · exact hin i (by simp [hi])
    have hfits := (admits_iff_fitsWave hitem hboth (hheld hboth)).mp hadmits
    simp only [packetsAt_append, packetsAt_singleton hitem, packetsAt_cons hother]
      at hpackets hfits
    -- The later packet shares the wave, so the earlier one fits its words.
    obtain ⟨key, hkey, hkey'⟩ := hflow
    rw [keyAt_eq hother] at hkey
    rw [keyAt_eq hitem] at hkey'
    have hwords := hroom _ _ _ _ hpackets ⟨key, hkey, hkey'⟩ hfits
    have hfront := (List.append_assoc _ _ _ ▸ hfits).front
    refine hout ((admits_iff_fitsWave hother hbefore hfront).mpr ?_)
    rw [packetsAt_append, packetsAt_singleton hother]
    refine ⟨?_, hwords, ?_⟩
    · have hlength := hfits.length_le
      simp only [List.length_append, List.length_singleton] at hlength ⊢
      omega
    · refine hfits.distinct.sublist ?_
      simp [hkey, hkey']

/-- Packets that never get smaller within a flow have room for earlier ones. -/
theorem roomForEarlier_of_sizes (h : packets.Pairwise fun earlier later => ∀ key,
    schedulingKey earlier = some key → schedulingKey later = some key →
      packetWords earlier ≤ packetWords later) : RoomForEarlier packets limits := by
  rintro before earlier between later hsub ⟨key, hearlier, hlater⟩ hfits
  have hpair := (List.pairwise_append.mp (h.sublist hsub)).2.2 earlier (by simp) later (by simp)
  have hsize := hpair key hearlier hlater
  have hwords := hfits.words_le
  simp only [List.map_append, List.sum_append, List.map_cons, List.map_nil, List.sum_cons,
    List.sum_nil] at hwords ⊢
  omega

/-- With room for as many full packets as a wave may hold nothing is overtaken. -/
theorem noOvertaking_of_ample_words (h : limits.1 * 384 ≤ limits.2) :
    NoOvertaking packets limits := by
  have hwords (wave : List RawPacket) : (wave.map packetWords).sum ≤ wave.length * 384 := by
    induction wave with
    | nil => exact le_refl _
    | cons packet rest ih =>
        have hpacket := packetWords_le packet
        simp only [List.map_cons, List.sum_cons, List.length_cons] at ih ⊢
        omega
  refine noOvertaking_of_room fun before earlier between later _ _ hfits => ?_
  have hlength := hfits.length_le
  simp only [List.length_append, List.length_singleton] at hlength
  have hfew : (before ++ [earlier]).length ≤ limits.1 := by
    simp only [List.length_append, List.length_singleton]
    omega
  exact (hwords _).trans ((Nat.mul_le_mul_right 384 hfew).trans h)

end Order

/-- An IPv4/TCP header from the given client port, and a payload of zeros. -/
def paddedPacket (srcPort : UInt8) (padding : Nat) (h : padding ≤ 1496) : RawPacket where
  bytes := [0x45, 0, 0, 40, 0, 0, 0x40, 0, 64, 6, 0, 0, 10, 0, 0, 2, 10, 0, 0, 1,
    0, srcPort, 0x1f, 0x90, 0, 0, 0, 100, 0, 0, 0, 0, 0x50, 2, 0xff, 0xff, 0, 0, 0, 0] ++
      List.replicate padding 0
  nonempty := by simp
  length_le := by
    simp only [List.length_append, List.length_cons, List.length_nil, List.length_replicate]
    unfold maxRawPacketBytes
    omega

/-- A packet of one flow, then a large and a small packet of another. -/
def overtakenBatch : List RawPacket :=
  [paddedPacket 1 0 (by decide), paddedPacket 2 1496 (by decide), paddedPacket 2 0 (by decide)]

end Packet
end Gput
