import Gput.Library.GreedyRounds
import Gput.Packet.FlowSet

/-!
# Packing a batch into waves

The GPU engine dispatches a batch in waves that hold at most one packet of each
flow.  The two fill loops decide which packets go into the next wave; the loop
of `process_batch_to` dispatches a wave and fills the next until nothing is
deferred.  `processBatchTo_eq` says that the loop ends and dispatches exactly
the greedy rounds of the batch under the admission test of the fill loops.
-/

namespace Gput
namespace Packet

open GreedyRounds

/-- `PacketScratch`, without the metadata a dispatch rewrites first. -/
structure PacketScratch where
  keys : List (Option FlowKey)
  pending : List Nat
  deferred : List Nat
  wave : List Nat
  seen : FlowSet

/-- `packet.bytes.len().div_ceil(4)`. -/
def packetWords (packet : RawPacket) : Nat :=
  (packet.bytes.length + 3) / 4

/-- The variables of a fill loop. -/
structure FillState where
  seen : FlowSet
  wave : List Nat
  deferred : List Nat
  inputWords : Nat

/-- The body that the two fill loops share; they differ in where the key comes
from. -/
def placeIndex (limits : Nat × Nat) (index words : Nat) (key : Outcome (Option FlowKey))
    (st : FillState) : Outcome FillState := do
  let (maxBatchSize, maxInputWords) := limits
  if st.wave.length = maxBatchSize ∨ st.inputWords + words > maxInputWords then
    return { st with deferred := st.deferred ++ [index] }
  let (seen, fresh) ← match ← key with
    | some key => Outcome.expect (st.seen.insert key)
    | none => pure (st.seen, true)
  if fresh then
    return { st with
      seen := seen, wave := st.wave ++ [index], inputWords := st.inputWords + words }
  return { st with seen := seen, deferred := st.deferred ++ [index] }

/-- The loop of `fill_next_wave`. -/
def fillNextLoop (packets : List RawPacket) (keys : List (Option FlowKey))
    (limits : Nat × Nat) : List Nat → FillState → Outcome FillState
  | [], st => return st
  | index :: rest, st => do
      let packet ← Outcome.expect packets[index]?
      let st ← placeIndex limits index (packetWords packet) (Outcome.expect keys[index]?) st
      fillNextLoop packets keys limits rest st

/-- `fill_next_wave`. -/
def fillNextWave (packets : List RawPacket) (limits : Nat × Nat) (scratch : PacketScratch) :
    Outcome PacketScratch := do
  let seen := scratch.seen.begin scratch.pending.length
  let st ← fillNextLoop packets scratch.keys limits scratch.pending
    { seen := seen, wave := [], deferred := [], inputWords := 0 }
  return { scratch with seen := st.seen, wave := st.wave, deferred := st.deferred }

/-- The loop of `fill_initial_wave`; it also collects the keys. -/
def fillInitialLoop (limits : Nat × Nat) : Nat → List RawPacket → List (Option FlowKey) →
    FillState → Outcome (List (Option FlowKey) × FillState)
  | _, [], keys, st => return (keys, st)
  | index, packet :: rest, keys, st => do
      let key ← schedulingFlowKey packet
      let st ← placeIndex limits index (packetWords packet) (return key) st
      fillInitialLoop limits (index + 1) rest (keys ++ [key]) st

/-- `fill_initial_wave`. -/
def fillInitialWave (packets : List RawPacket) (limits : Nat × Nat)
    (scratch : PacketScratch) : Outcome PacketScratch := do
  let seen := scratch.seen.begin packets.length
  let (keys, st) ← fillInitialLoop limits 0 packets []
    { seen := seen, wave := [], deferred := [], inputWords := 0 }
  return { scratch with
    keys := keys, seen := st.seen, wave := st.wave, deferred := st.deferred }

/-- The loop of `process_batch_to`, for at most `count` dispatches; using them up
stands for a loop that does not end. -/
def waveLoop {σ : Type} (dispatch : List Nat → σ → Outcome σ) (packets : List RawPacket)
    (limits : Nat × Nat) : Nat → PacketScratch → σ → Outcome (PacketScratch × σ)
  | 0, _, _ => .panic
  | count + 1, scratch, s => do
      let s ← dispatch scratch.wave s
      let scratch :=
        { scratch with pending := scratch.deferred, deferred := scratch.pending }
      if scratch.pending = [] then return (scratch, s)
      let scratch ← fillNextWave packets limits scratch
      waveLoop dispatch packets limits count scratch s

/-- `GpuPacketEngine::process_batch_to`; `dispatch` is `dispatch_wave` with its
effects on the device and the sink. -/
def processBatchTo {σ : Type} (dispatch : List Nat → σ → Outcome σ) (packets : List RawPacket)
    (limits : Nat × Nat) (count : Nat) (scratch : PacketScratch) (s : σ) :
    Outcome (PacketScratch × σ) := do
  if packets = [] then return (scratch, s)
  let scratch := { scratch with pending := [] }
  let scratch ← fillInitialWave packets limits scratch
  waveLoop dispatch packets limits count scratch s

/-- The scheduling key of a packet. -/
def schedulingKey (packet : RawPacket) : Option FlowKey :=
  match schedulingFlowKey packet with
  | .ok key => key
  | _ => none

theorem schedulingFlowKey_eq (packet : RawPacket) :
    schedulingFlowKey packet = .ok (schedulingKey packet) := by
  obtain ⟨key, hkey⟩ := schedulingFlowKey_total packet
  rw [schedulingKey, hkey]

/-- The scheduling key of a packet the parser accepts is the parsed key. -/
theorem schedulingKey_of_parsed {packet : RawPacket} {view : TcpPacketView}
    (h : parsed packet = some view) : schedulingKey packet = some view.key := by
  rw [schedulingKey, schedulingFlowKey_of_parsed h]

section Admission

variable (packets : List RawPacket) (limits : Nat × Nat)

/-- The scheduling key of packet `i`. -/
def keyAt (i : Nat) : Option FlowKey :=
  packets[i]?.bind schedulingKey

/-- The words of packet `i`. -/
def wordsAt (i : Nat) : Nat :=
  (packets[i]?.map packetWords).getD 0

/-- Two packets have the same scheduling key. -/
def SameFlow (i j : Nat) : Prop :=
  ∃ key, keyAt packets i = some key ∧ keyAt packets j = some key

/-- The words of a wave. -/
def waveWords (wave : List Nat) : Nat :=
  (wave.map (wordsAt packets)).sum

/-- The keys of a wave. -/
def waveKeys (wave : List Nat) : Finset FlowKey :=
  (wave.filterMap (keyAt packets)).toFinset

/-- A fill loop admits packet `i` to the wave: neither limit is reached and its
flow is not in the wave. -/
def Admits (wave : List Nat) (i : Nat) : Prop :=
  (wave.length ≠ limits.1 ∧ waveWords packets wave + wordsAt packets i ≤ limits.2) ∧
    ∀ key, keyAt packets i = some key → key ∉ waveKeys packets wave

instance (wave : List Nat) (i : Nat) : Decidable (Admits packets limits wave i) :=
  match h : keyAt packets i with
  | none => decidable_of_iff
      (wave.length ≠ limits.1 ∧ waveWords packets wave + wordsAt packets i ≤ limits.2)
      ⟨fun hl => ⟨hl, fun key hkey => by rw [h] at hkey; cases hkey⟩, fun ha => ha.1⟩
  | some key => decidable_of_iff
      ((wave.length ≠ limits.1 ∧ waveWords packets wave + wordsAt packets i ≤ limits.2) ∧
        key ∉ waveKeys packets wave)
      ⟨fun hl => ⟨hl.1, fun other hother => by rw [h] at hother; cases hother; exact hl.2⟩,
        fun ha => ⟨ha.1, ha.2 key h⟩⟩

/-- The waves a batch is dispatched in. -/
def waves : List (List Nat) :=
  rounds (Admits packets limits) packets.length (List.range packets.length)

end Admission

theorem mem_waveKeys {packets : List RawPacket} {wave : List Nat} {key : FlowKey} :
    key ∈ waveKeys packets wave ↔ ∃ i ∈ wave, keyAt packets i = some key := by
  simp [waveKeys]

theorem waveKeys_append (packets : List RawPacket) (wave : List Nat) (i : Nat) :
    waveKeys packets (wave ++ [i]) =
      (match keyAt packets i with
        | none => waveKeys packets wave
        | some key => insert key (waveKeys packets wave)) := by
  ext key
  rw [mem_waveKeys]
  cases h : keyAt packets i with
  | none => simp [mem_waveKeys, h]
  | some other => simp [mem_waveKeys, h, or_comm, eq_comm]

theorem waveWords_append (packets : List RawPacket) (wave : List Nat) (i : Nat) :
    waveWords packets (wave ++ [i]) = waveWords packets wave + wordsAt packets i := by
  simp [waveWords]

theorem card_waveKeys_le (packets : List RawPacket) (wave : List Nat) :
    (waveKeys packets wave).card ≤ wave.length :=
  le_trans (List.toFinset_card_le _) (List.length_filterMap_le _ _)

section Fill

variable {packets : List RawPacket} {limits : Nat × Nat}

/-- The variables of a fill loop that has put the given packets into the wave
and the given packets aside. -/
structure FillState.Tracks (packets : List RawPacket) (st : FillState)
    (wave deferred : List Nat) : Prop where
  wave_eq : st.wave = wave
  deferred_eq : st.deferred = deferred
  inputWords_eq : st.inputWords = waveWords packets wave
  reachable : st.seen.Reachable
  holds : st.seen.Holds (waveKeys packets wave)

/-- One turn of a fill loop is one admission test. -/
theorem placeIndex_eq (limits : Nat × Nat) (i : Nat) {st : FillState}
    {wave deferred : List Nat} (h : st.Tracks packets wave deferred)
    (hroom : wave.length < st.seen.keys.length) :
    ∃ st', placeIndex limits i (wordsAt packets i) (.ok (keyAt packets i)) st = .ok st' ∧
      st'.seen.keys.length = st.seen.keys.length ∧
      if Admits packets limits wave i then st'.Tracks packets (wave ++ [i]) deferred
      else st'.Tracks packets wave (deferred ++ [i]) := by
  obtain ⟨rfl, rfl, hwords, hreach, hholds⟩ := h
  by_cases hlimits : st.wave.length = limits.1 ∨
      st.inputWords + wordsAt packets i > limits.2
  · have hnot : ¬ Admits packets limits st.wave i := by
      rintro ⟨⟨hlen, hle⟩, -⟩
      rcases hlimits with hl | hl
      · exact hlen hl
      · rw [hwords] at hl
        omega
    refine ⟨{ st with deferred := st.deferred ++ [i] }, ?_, rfl, ?_⟩
    · unfold placeIndex
      simp only
      rw [if_pos hlimits]
      rfl
    · rw [if_neg hnot]
      exact ⟨rfl, rfl, hwords, hreach, hholds⟩
  have hfits : st.wave.length ≠ limits.1 ∧
      waveWords packets st.wave + wordsAt packets i ≤ limits.2 := by
    rw [not_or] at hlimits
    exact ⟨hlimits.1, by rw [← hwords]; omega⟩
  unfold placeIndex
  simp only
  rw [if_neg hlimits]
  cases hkey : keyAt packets i with
  | none =>
      have hadmits : Admits packets limits st.wave i :=
        ⟨hfits, fun key h => by rw [hkey] at h; cases h⟩
      have hkeys := waveKeys_append packets st.wave i
      rw [hkey] at hkeys
      refine ⟨_, rfl, rfl, ?_⟩
      rw [if_pos hadmits]
      exact ⟨rfl, rfl, by rw [waveWords_append, hwords], hreach, by rw [hkeys]; exact hholds⟩
  | some key =>
      have hcard : (waveKeys packets st.wave).card < st.seen.keys.length :=
        lt_of_le_of_lt (card_waveKeys_le packets st.wave) hroom
      obtain ⟨seen, hinsert, hholds', hlength⟩ := FlowSet.insert_eq hholds hcard key
      have hreach' : seen.Reachable := hreach.insert hinsert
      by_cases hnew : key ∈ waveKeys packets st.wave
      · have hnot : ¬ Admits packets limits st.wave i := fun ha => ha.2 key hkey hnew
        rw [Finset.insert_eq_of_mem hnew] at hholds'
        refine ⟨{ st with seen := seen, deferred := st.deferred ++ [i] }, ?_, hlength, ?_⟩
        · simp [hinsert, hnew]
        · rw [if_neg hnot]
          exact ⟨rfl, rfl, hwords, hreach', hholds'⟩
      · have hadmits : Admits packets limits st.wave i :=
          ⟨hfits, fun other h => by rw [hkey] at h; cases h; exact hnew⟩
        have hkeys := waveKeys_append packets st.wave i
        rw [hkey] at hkeys
        refine ⟨{ st with
          seen := seen, wave := st.wave ++ [i], inputWords := st.inputWords + wordsAt packets i },
          ?_, hlength, ?_⟩
        · simp [hinsert, hnew]
        · rw [if_pos hadmits]
          exact ⟨rfl, rfl, by rw [waveWords_append, hwords], hreach', by rw [hkeys]; exact hholds'⟩

theorem keyAt_eq {i : Nat} (hi : i < packets.length) :
    keyAt packets i = schedulingKey packets[i] := by
  rw [keyAt, List.getElem?_eq_getElem hi]
  rfl

theorem wordsAt_eq {i : Nat} (hi : i < packets.length) :
    wordsAt packets i = packetWords packets[i] := by
  rw [wordsAt, List.getElem?_eq_getElem hi]
  rfl

/-- The loop of `fill_next_wave` is a greedy round. -/
theorem fillNextLoop_eq (limits : Nat × Nat) (pending : List Nat)
    (hpending : ∀ i ∈ pending, i < packets.length) :
    ∀ {st : FillState} {wave deferred : List Nat}, st.Tracks packets wave deferred →
      wave.length + pending.length < st.seen.keys.length →
      ∃ st', fillNextLoop packets (packets.map schedulingKey) limits pending st = .ok st' ∧
        st'.Tracks packets (fill (Admits packets limits) wave deferred pending).1
          (fill (Admits packets limits) wave deferred pending).2 := by
  induction pending with
  | nil =>
      intro st wave deferred h _
      exact ⟨st, rfl, h⟩
  | cons i rest ih =>
      intro st wave deferred h hroom
      have hi := hpending i (by simp)
      rw [List.length_cons] at hroom
      obtain ⟨next, hplace, hlength, hnext⟩ :=
        placeIndex_eq limits i h (by omega)
      have hkey : (packets.map schedulingKey)[i]? = some (keyAt packets i) := by
        rw [List.getElem?_map, List.getElem?_eq_getElem hi, keyAt_eq hi]
        rfl
      unfold fillNextLoop
      rw [List.getElem?_eq_getElem hi, hkey, fill]
      simp only [Outcome.expect_some, Outcome.ok_bind]
      rw [← wordsAt_eq hi, hplace]
      simp only [Outcome.ok_bind]
      have hrest := fun j hj => hpending j (List.mem_cons_of_mem i hj)
      split_ifs at hnext ⊢
      · exact ih hrest hnext (by rw [hlength, List.length_append]; simp; omega)
      · exact ih hrest hnext (by rw [hlength]; omega)

/-- The loop of `fill_initial_wave` is the same round over all indices. -/
theorem fillInitialLoop_eq (limits : Nat × Nat) (rest : List RawPacket) :
    ∀ (before : List RawPacket) {st : FillState} {wave deferred : List Nat},
      packets = before ++ rest → st.Tracks packets wave deferred →
      wave.length + rest.length < st.seen.keys.length →
      ∃ st', fillInitialLoop limits before.length rest (before.map schedulingKey) st =
          .ok (packets.map schedulingKey, st') ∧
        st'.Tracks packets
          (fill (Admits packets limits) wave deferred
            (List.range' before.length rest.length)).1
          (fill (Admits packets limits) wave deferred
            (List.range' before.length rest.length)).2 := by
  induction rest with
  | nil =>
      intro before st wave deferred hpackets h _
      rw [List.append_nil] at hpackets
      exact ⟨st, by rw [hpackets]; rfl, h⟩
  | cons packet rest ih =>
      intro before st wave deferred hpackets h hroom
      have hget : packets[before.length]? = some packet := by
        rw [hpackets, List.getElem?_append_right (le_refl _), Nat.sub_self]
        rfl
      have hkey : keyAt packets before.length = schedulingKey packet := by
        rw [keyAt, hget]
        rfl
      have hwords : wordsAt packets before.length = packetWords packet := by
        rw [wordsAt, hget]
        rfl
      rw [List.length_cons] at hroom
      obtain ⟨next, hplace, hlength, hnext⟩ :=
        placeIndex_eq limits before.length h (by omega)
      have hcut : packets = (before ++ [packet]) ++ rest := by simp [hpackets]
      have hsize : before.length + 1 = (before ++ [packet]).length := by simp
      have hkeys : before.map schedulingKey ++ [schedulingKey packet] =
          (before ++ [packet]).map schedulingKey := by simp
      rw [hkey, hwords] at hplace
      rw [fillInitialLoop, schedulingFlowKey_eq, List.length_cons, List.range'_succ, fill]
      simp only [Outcome.ok_bind, Outcome.pure_eq]
      rw [hplace]
      simp only [Outcome.ok_bind]
      rw [hkeys, hsize]
      split_ifs at hnext ⊢
      · exact ih _ hcut hnext (by rw [hlength, List.length_append]; simp; omega)
      · exact ih _ hcut hnext (by rw [hlength]; omega)

/-- The set that `begin` returns tracks an empty wave. -/
theorem tracks_begin (packets : List RawPacket) {seen : FlowSet} (h : seen.Reachable) (n : Nat) :
    FillState.Tracks packets ⟨seen.begin n, [], [], 0⟩ [] [] ∧
      n < (seen.begin n).keys.length := by
  obtain ⟨hholds, hroom⟩ := FlowSet.holds_begin h.valid n
  refine ⟨⟨rfl, rfl, rfl, h.begin n, hholds⟩, ?_⟩
  have := FlowSet.lt_wanted n
  omega

/-- What a scratch holds between a fill and the next dispatch. -/
structure PacketScratch.Filled (packets : List RawPacket) (limits : Nat × Nat)
    (scratch : PacketScratch) (pending : List Nat) : Prop where
  keys_eq : scratch.keys = packets.map schedulingKey
  reachable : scratch.seen.Reachable
  wave_eq : scratch.wave = (fill (Admits packets limits) [] [] pending).1
  deferred_eq : scratch.deferred = (fill (Admits packets limits) [] [] pending).2

theorem fillNextWave_eq (limits : Nat × Nat) (scratch : PacketScratch)
    (hkeys : scratch.keys = packets.map schedulingKey) (hreach : scratch.seen.Reachable)
    (hpending : ∀ i ∈ scratch.pending, i < packets.length) :
    ∃ scratch', fillNextWave packets limits scratch = .ok scratch' ∧
      scratch'.Filled packets limits scratch.pending := by
  obtain ⟨htracks, hroom⟩ := tracks_begin packets hreach scratch.pending.length
  obtain ⟨st, hloop, hst⟩ :=
    fillNextLoop_eq limits scratch.pending hpending htracks (by simpa using hroom)
  refine ⟨{ scratch with seen := st.seen, wave := st.wave, deferred := st.deferred }, ?_, ?_⟩
  · unfold fillNextWave
    simp only
    rw [hkeys, hloop]
    simp only [Outcome.ok_bind, Outcome.pure_eq]
  · exact ⟨hkeys, hst.reachable, hst.wave_eq, hst.deferred_eq⟩

theorem fillInitialWave_eq (packets : List RawPacket) (limits : Nat × Nat)
    (scratch : PacketScratch) (hreach : scratch.seen.Reachable) :
    ∃ scratch', fillInitialWave packets limits scratch = .ok scratch' ∧
      scratch'.Filled packets limits (List.range packets.length) := by
  obtain ⟨htracks, hroom⟩ := tracks_begin packets hreach packets.length
  obtain ⟨st, hloop, hst⟩ :=
    fillInitialLoop_eq limits packets [] rfl htracks (by simpa using hroom)
  refine ⟨{ scratch with
    keys := packets.map schedulingKey, seen := st.seen, wave := st.wave,
    deferred := st.deferred }, ?_, ?_⟩
  · unfold fillInitialWave
    simp only
    have hstart : fillInitialLoop limits 0 packets []
        { seen := scratch.seen.begin packets.length, wave := [], deferred := [],
          inputWords := 0 } = .ok (packets.map schedulingKey, st) := hloop
    rw [hstart]
    rfl
  · rw [List.range_eq_range']
    exact ⟨rfl, hst.reachable, hst.wave_eq, hst.deferred_eq⟩

end Fill

/-- The dispatches of a list of waves. -/
def runWaves {σ : Type} (dispatch : List Nat → σ → Outcome σ) :
    List (List Nat) → σ → Outcome σ
  | [], s => return s
  | wave :: rest, s => do
      let s ← dispatch wave s
      runWaves dispatch rest s

section Loop

variable {packets : List RawPacket} {limits : Nat × Nat}

/-- No packet takes more than 384 words. -/
theorem packetWords_le (packet : RawPacket) : packetWords packet ≤ 384 := by
  have hlength := packet.length_le
  simp only [packetWords, maxRawPacketBytes] at hlength ⊢
  omega

theorem wordsAt_le (packets : List RawPacket) (i : Nat) : wordsAt packets i ≤ 384 := by
  rw [wordsAt]
  cases packets[i]? with
  | none => exact Nat.zero_le _
  | some packet => exact packetWords_le packet

/-- Every packet fits an empty wave. -/
theorem admits_nil (hbatch : 1 ≤ limits.1) (hwords : 384 ≤ limits.2) (i : Nat) :
    Admits packets limits [] i := by
  refine ⟨⟨?_, ?_⟩, fun key _ => by simp [waveKeys]⟩
  · show 0 ≠ limits.1
    omega
  · have hle := wordsAt_le packets i
    show 0 + wordsAt packets i ≤ limits.2
    omega

/-- The loop ends after one dispatch for each round. -/
theorem waveLoop_eq (hbatch : 1 ≤ limits.1) (hwords : 384 ≤ limits.2) :
    ∀ (count : Nat) (pending : List Nat) (scratch : PacketScratch), pending ≠ [] →
      pending.length ≤ count → (∀ i ∈ pending, i < packets.length) →
      scratch.Filled packets limits pending →
      ∃ scratch' : PacketScratch, scratch'.seen.Reachable ∧
        ∀ (σ : Type) (dispatch : List Nat → σ → Outcome σ) (s : σ),
        waveLoop dispatch packets limits count scratch s =
          (do
            let s ← runWaves dispatch (rounds (Admits packets limits) count pending) s
            return (scratch', s))
  | 0, pending, _, hne, hlength, _, _ =>
      absurd (List.eq_nil_of_length_eq_zero (Nat.le_zero.mp hlength)) hne
  | count + 1, [], _, hne, _, _, _ => absurd rfl hne
  | count + 1, first :: rest, scratch, _, hlength, hpending, hfilled => by
      obtain ⟨hkeys, hreach, hwave, hdeferred⟩ := hfilled
      have hprogress := (fill_progress (Admits packets limits) rest
        (admits_nil hbatch hwords first)).2
      obtain ⟨-, later, -, hlater, -, hsub⟩ :=
        fill_extends (Admits packets limits) (first :: rest) [] []
      rw [List.nil_append] at hlater
      rw [hlater] at hdeferred hprogress
      have hinside : ∀ i ∈ later, i < packets.length := fun i hi => hpending i (hsub.subset hi)
      rw [List.length_cons] at hlength
      by_cases hdone : later = []
      · refine ⟨{ scratch with pending := scratch.deferred, deferred := scratch.pending },
          hreach, ?_⟩
        intro σ dispatch s
        unfold waveLoop rounds
        rw [hlater, hdone, rounds_nil, runWaves, hwave]
        cases dispatch (fill (Admits packets limits) [] [] (first :: rest)).1 s with
        | ok s => simp [runWaves, hdeferred, hdone]
        | err message => rfl
        | panic => rfl
      · obtain ⟨next, hfill, hnext⟩ := fillNextWave_eq limits
          { scratch with pending := later, deferred := scratch.pending } hkeys hreach hinside
        obtain ⟨last, hlast, hloop⟩ :=
          waveLoop_eq hbatch hwords count later next hdone (by omega) hinside hnext
        refine ⟨last, hlast, ?_⟩
        intro σ dispatch s
        unfold waveLoop rounds
        rw [hlater, runWaves, ← hwave]
        cases dispatch scratch.wave s with
        | ok s =>
            simp only [Outcome.ok_bind, hdeferred]
            rw [if_neg hdone, hfill]
            exact hloop σ dispatch s
        | err message => rfl
        | panic => rfl

/-- **The loop of `process_batch_to`.**  It ends, whatever earlier batches left
in the scratch, and it dispatches the waves of the batch in order. -/
theorem processBatchTo_eq (packets : List RawPacket) (hbatch : 1 ≤ limits.1)
    (hwords : 384 ≤ limits.2) {scratch : PacketScratch} (hreach : scratch.seen.Reachable) :
    ∃ scratch' : PacketScratch, scratch'.seen.Reachable ∧
      ∀ (σ : Type) (dispatch : List Nat → σ → Outcome σ) (s : σ),
      processBatchTo dispatch packets limits packets.length scratch s =
        (do
          let s ← runWaves dispatch (waves packets limits) s
          return (scratch', s)) := by
  by_cases hempty : packets = []
  · refine ⟨scratch, hreach, ?_⟩
    intro σ dispatch s
    subst hempty
    rfl
  · obtain ⟨first, hfill, hfilled⟩ := fillInitialWave_eq packets limits
      { scratch with pending := [] } hreach
    obtain ⟨last, hlast, hloop⟩ := waveLoop_eq hbatch hwords packets.length
      (List.range packets.length) first (by simpa using hempty) (by simp) (by simp) hfilled
    refine ⟨last, hlast, ?_⟩
    intro σ dispatch s
    unfold processBatchTo
    rw [if_neg hempty]
    simp only
    rw [hfill]
    exact hloop σ dispatch s

end Loop

end Packet
end Gput
