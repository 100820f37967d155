import Gput.Packet.Emissions

/-!
# Agreement of the two packet engines

Both engines in lockstep, over the same packets.  With as many probes as slots
the two tables have room for a new flow at the same times (`hasVacancy_iff`), so
the engines can only part at an opening segment: the shader ignores its reset
flag, and never restarts a half-open flow.  `engines_agree_iff` says that they
emit the same packets exactly when neither happens.
-/

namespace Gput
namespace Packet

open OpenAddressing ByteString Shader

section Room

variable {config : PacketEngineConfig} {flows : Flows} {table : FlowTable} {key : FlowKey}

/-- The slots of the shader's table. -/
def slotsOf (config : PacketEngineConfig) : Finset UInt32 :=
  (Finset.range config.flowCapacity).image UInt32.ofNat

theorem ofNat_toNat_of_fits (hfits : config.flowCapacity ≤ 0xffffffff) {i : Nat}
    (hi : i < config.flowCapacity) : (UInt32.ofNat i).toNat = i := by
  rw [UInt32.toNat_ofNat', Nat.mod_eq_of_lt (by omega)]

theorem mem_slotsOf (hfits : config.flowCapacity ≤ 0xffffffff) {i : UInt32} :
    i ∈ slotsOf config ↔ i.toNat < config.flowCapacity := by
  rw [slotsOf, Finset.mem_image]
  constructor
  · rintro ⟨k, hk, rfl⟩
    rw [Finset.mem_range] at hk
    rwa [ofNat_toNat_of_fits hfits hk]
  · intro hi
    exact ⟨i.toNat, Finset.mem_range.mpr hi, UInt32.ofNat_toNat⟩

theorem card_slotsOf (hfits : config.flowCapacity ≤ 0xffffffff) :
    (slotsOf config).card = config.flowCapacity := by
  rw [slotsOf, Finset.card_image_of_injOn, Finset.card_range]
  intro i hi j hj hij
  rw [Finset.mem_coe, Finset.mem_range] at hi hj
  rw [← ofNat_toNat_of_fits hfits hi, hij, ofNat_toNat_of_fits hfits hj]

variable (key) in
/-- With as many probes as slots, every slot is on the path of every key. -/
theorem probePath_covers (valid : ValidConfig config) {i : UInt32}
    (hi : i.toNat < config.flowCapacity) :
    ∃ p, p < config.flowCapacity ∧ probePath (tableParams config) key p = i := by
  have hcapacity : (tableParams config).flowCapacity.toNat = config.flowCapacity :=
    flowCapacity_toNat valid.capacity_fits 0
  have hpower : (tableParams config).flowCapacity.toNat.isPowerOfTwo := by
    rw [hcapacity]
    exact valid.capacity_power
  obtain ⟨p, hp, hpath⟩ := @linearPath_covers (keyHashOf key).toNat config.flowCapacity i.toNat hi
  refine ⟨p, hp, ?_⟩
  apply UInt32.toNat_inj.mp
  rw [probePath, probeSlot_toNat hpower, hcapacity, ofNat_toNat_of_fits valid.capacity_fits hp]
  exact hpath

theorem probeLimit_toNat (valid : ValidConfig config)
    (hprobes : config.flowProbeLimit = config.flowCapacity) :
    (probeLimit (tableParams config)).toNat = config.flowCapacity := by
  have hlimit : probeLimit (tableParams config) = UInt32.ofNat config.flowCapacity := by
    show min (UInt32.ofNat config.flowProbeLimit) (UInt32.ofNat config.flowCapacity) = _
    rw [hprobes]
    exact ite_self _
  rw [hlimit, UInt32.toNat_ofNat', Nat.mod_eq_of_lt (by have := valid.capacity_fits; omega)]

/-- A key has a live slot exactly when it has an entry. -/
theorem entry_ne_none_iff (valid : ValidConfig config) (good : GoodFlows config flows) :
    shaderEntries config flows key ≠ none ↔ ∃ i, cells flows i = .live key := by
  have hpower : (tableParams config).flowCapacity.toNat.isPowerOfTwo := by
    show (engineParams config 0).flowCapacity.toNat.isPowerOfTwo
    rw [flowCapacity_toNat valid.capacity_fits]
    exact valid.capacity_power
  constructor
  · intro hentry
    by_contra habsent
    exact hentry (tableEntry_of_absent good.table (not_exists.mp habsent))
  · rintro ⟨i, hlive⟩
    rw [shaderEntries, tableEntry_of_live good.table hpower hlive]
    simp

variable (key) in
/-- `flow_claim` finds a slot exactly when the map of the CPU engine is not
full. -/
theorem hasVacancy_iff (valid : ValidConfig config)
    (hprobes : config.flowProbeLimit = config.flowCapacity) (good : GoodFlows config flows)
    (hentries : entries table = shaderEntries config flows) :
    hasVacancy config flows key = true ↔ table.keys.card < config.flowCapacity := by
  have hlimit := probeLimit_toNat valid hprobes
  have hmem (key : FlowKey) : key ∈ table.keys ↔ ∃ i, cells flows i = .live key := by
    rw [mem_keys_iff, hentries, entry_ne_none_iff valid good]
  have hpower : (tableParams config).flowCapacity.toNat.isPowerOfTwo := by
    show (engineParams config 0).flowCapacity.toNat.isPowerOfTwo
    rw [flowCapacity_toNat valid.capacity_fits]
    exact valid.capacity_power
  have hinside {i : UInt32} {key : FlowKey} (hlive : cells flows i = .live key) :
      i ∈ slotsOf config := by
    rw [mem_slotsOf valid.capacity_fits, ← flowCapacity_toNat valid.capacity_fits 0]
    exact good.table.live_lt hpower hlive
  have hslots := card_slotsOf valid.capacity_fits
  unfold hasVacancy
  rw [hlimit]
  cases hvacancy : vacancy (cells flows) (probePath (tableParams config) key)
      config.flowCapacity 0 with
  | none =>
      -- every slot is live, so the map holds as many keys as there are slots
      have hall : ∀ i ∈ slotsOf config, ∃ key, cells flows i = .live key := by
        intro i hi
        obtain ⟨p, hp, hpath⟩ :=
          probePath_covers key valid ((mem_slotsOf valid.capacity_fits).mp hi)
        obtain ⟨hfree, htombstone⟩ := vacancy_eq_none.mp hvacancy p (Nat.zero_le p) (by omega)
        rw [hpath] at hfree htombstone
        refine ⟨slotKey (flows i), Settled.slotCell ?_⟩
        rcases good.table.settled i with h | h | h | h
        · exact absurd (slotCell_eq_free.mpr h) hfree
        · exact Or.inl h
        · exact Or.inr h
        · exact absurd (slotCell_eq_tombstone.mpr h) htombstone
      have hcard := good.table.wellFormed.card_le_of_all_live
        (fun i _ key hlive => (hmem key).mpr ⟨i, hlive⟩) hall
      rw [hslots] at hcard
      simp only [Option.isSome_none, Bool.false_eq_true, false_iff]
      omega
  | some i =>
      obtain ⟨p, -, hp, hpath, hvacant, -⟩ := vacancy_eq_some hvacancy
      have hi : i ∈ slotsOf config := by
        rw [mem_slotsOf valid.capacity_fits, ← flowCapacity_toNat valid.capacity_fits 0, ← hpath]
        exact probeSlot_lt hpower _ _
      have hcard : table.keys.card ≤ ((slotsOf config).erase i).card := by
        apply WellFormed.keys_card_le (cells flows)
        intro key hkey
        obtain ⟨j, hlive⟩ := (hmem key).mp hkey
        refine ⟨j, Finset.mem_erase.mpr ⟨?_, hinside hlive⟩, hlive⟩
        rintro rfl
        rw [hlive] at hvacant
        rcases hvacant with h | h <;> cases h
      rw [Finset.card_erase_of_mem hi, hslots] at hcard
      have := valid.capacity_pos
      simp only [Option.isSome_some, true_iff]
      omega

end Room

/-- The same payload up to the name of the backend. -/
def SamePayload (cpu gpu : List UInt8) : Prop :=
  (cpu = [] ∧ gpu = []) ∨
    ∃ before after, cpu = before ++ ascii "cpu-packet" ++ after ∧
      gpu = before ++ ascii "gpu-packet" ++ after

/-- The same packet up to the name of the backend. -/
structure SamePacket (cpu gpu : TcpPacketView) : Prop where
  key : cpu.key = gpu.key
  seq : cpu.seq = gpu.seq
  ack : cpu.ack = gpu.ack
  flags : cpu.flags = gpu.flags
  payload : SamePayload cpu.payload gpu.payload

/-- Every response names its backend, and otherwise both engines send the same
text. -/
theorem samePayload_response (responseId : UInt32) :
    SamePayload (cpuResponse responseId) (packetResponse responseId) := by
  have hall : ∀ i < packetResponses.length,
      let gpu := packetResponses.getD i []
      let offset := (windowPosition (ascii "gpu-packet") gpu).getD 0
      cpuResponses.getD i [] =
          gpu.take offset ++ ascii "cpu-packet" ++ gpu.drop (offset + 10) ∧
        gpu = gpu.take offset ++ ascii "gpu-packet" ++ gpu.drop (offset + 10) := by
    decide +kernel
  have hlength : cpuResponses.length = packetResponses.length := by decide +kernel
  have named (i : Nat) (hi : i < packetResponses.length) :
      SamePayload (cpuResponses.getD i []) (packetResponses.getD i []) := by
    obtain ⟨hcpu, hgpu⟩ := hall i hi
    exact Or.inr ⟨_, _, hcpu, hgpu⟩
  unfold cpuResponse packetResponse
  by_cases hid : responseId.toNat < packetResponses.length
  · have := named _ hid
    rw [List.getD_eq_getElem _ _ (by omega), List.getD_eq_getElem _ _ hid] at this
    rwa [List.getD_eq_getElem _ _ (by omega), List.getD_eq_getElem _ _ hid]
  · have hcpu : cpuResponses.length ≤ responseId.toNat := by omega
    have hgpu : packetResponses.length ≤ responseId.toNat := by omega
    rw [List.getD_eq_default cpuResponses _ hcpu, List.getD_eq_default packetResponses _ hgpu]
    exact named responseBadRequest.toNat (by decide)

/-- One reply carried by both engines is the same packet. -/
theorem samePacket_replyView (key : FlowKey) (reply : Reply) :
    SamePacket (replyView cpuResponse key reply) (replyView packetResponse key reply) := by
  unfold replyView
  refine ⟨rfl, rfl, rfl, rfl, ?_⟩
  show SamePayload ((reply.response.map cpuResponse).getD [])
    ((reply.response.map packetResponse).getD [])
  cases reply.response with
  | none => exact Or.inl ⟨rfl, rfl⟩
  | some id => exact samePayload_response id

/-- The two engines do the same with a segment, unless it is an opening segment
that also resets, while the table is not full or holds its flow, or one that
finds its flow half open with another sequence number. -/
def StepsAlike (config : PacketEngineConfig) (table : FlowTable) (tcp : TcpPacketView) : Prop :=
  IsOpening tcp →
    if IsReset tcp then
      entries table tcp.key = none ∧ config.flowCapacity ≤ table.keys.card
    else
      ∀ flow, entries table tcp.key = some flow → flow.state = .synReceived →
        flow.recvNext = tcp.seq + 1

section Steps

variable {config : PacketEngineConfig} {table : FlowTable} {tcp : TcpPacketView} {room : Bool}

theorem flowSteps_eq (hroom : room = true ↔ table.keys.card < config.flowCapacity)
    (halike : StepsAlike config table tcp) :
    cpuFlowStep (table.keys.card < config.flowCapacity) tcp.key (entries table tcp.key) tcp =
      shaderFlowStep room tcp.key (entries table tcp.key) tcp := by
  by_cases hopen : IsOpening tcp
  · have halike := halike hopen
    by_cases hreset : IsReset tcp
    · rw [if_pos hreset] at halike
      obtain ⟨habsent, hfull⟩ := halike
      have hclosed : room = false := by
        rw [← Bool.not_eq_true, hroom]
        omega
      rw [cpuFlowStep_reset _ _ _ hreset, habsent, shaderFlowStep_open _ _ hopen, hclosed]
      rfl
    · rw [if_neg hreset] at halike
      cases hentry : entries table tcp.key with
      | none =>
          rw [cpuFlowStep_open _ _ hreset hopen, shaderFlowStep_open _ _ hopen]
          exact (if_congr hroom rfl rfl).symm
      | some flow =>
          have hkept : reopen tcp.key flow tcp.seq = flow :=
            if_neg (fun h => h.2 (halike flow hentry h.1))
          rw [cpuFlowStep_reopen _ _ _ hreset hopen, hkept, shaderFlowStep_repeated _ _ _ hopen]
  · cases entries table tcp.key with
    | none => rw [cpuFlowStep_absent _ _ hopen, shaderFlowStep_absent _ _ hopen]
    | some flow =>
        by_cases hreset : IsReset tcp
        · rw [cpuFlowStep_reset _ _ _ hreset, shaderFlowStep_reset _ _ _ hopen hreset]
        · rw [cpuFlowStep_segment _ _ _ hreset hopen, shaderFlowStep_segment _ _ _ hopen hreset]

/-- Where the engines part, they emit different packets. -/
theorem replies_differ (hroom : room = true ↔ table.keys.card < config.flowCapacity)
    (hpart : ¬ StepsAlike config table tcp) :
    ¬ Option.Rel SamePacket
      ((cpuFlowStep (table.keys.card < config.flowCapacity) tcp.key (entries table tcp.key)
        tcp).2.map (replyView cpuResponse tcp.key))
      ((shaderFlowStep room tcp.key (entries table tcp.key) tcp).2.map
        (replyView packetResponse tcp.key)) := by
  obtain ⟨hopen, hpart⟩ := Classical.not_imp.mp hpart
  by_cases hreset : IsReset tcp
  · -- the CPU engine drops the flow, the shader answers
    rw [if_pos hreset] at hpart
    rw [cpuFlowStep_reset _ _ _ hreset]
    cases hentry : entries table tcp.key with
    | none =>
        have hlt : table.keys.card < config.flowCapacity := by
          by_contra hfull
          exact hpart ⟨hentry, by omega⟩
        rw [shaderFlowStep_open _ _ hopen, if_pos (hroom.mpr hlt)]
        rintro ⟨⟩
    | some flow =>
        rw [shaderFlowStep_repeated _ _ _ hopen]
        rintro ⟨⟩
  · -- the CPU engine acknowledges the new sequence number, the shader the old one
    rw [if_neg hreset] at hpart
    simp only [not_forall] at hpart
    obtain ⟨flow, hentry, hstate, hseq⟩ := hpart
    have hrestart : reopen tcp.key flow tcp.seq = openedFlow tcp.key tcp.seq :=
      if_pos ⟨hstate, hseq⟩
    rw [hentry, cpuFlowStep_reopen _ _ _ hreset hopen, hrestart,
      shaderFlowStep_repeated _ _ _ hopen]
    intro hsame
    cases hsame with
    | some hsame =>
        have hack := hsame.ack
        simp only [replyView, openingReply, hstate] at hack
        exact hseq hack.symm

end Steps

/-- Two machines in lockstep: when, from linked states, they show the same
exactly if they take a step alike, and alike steps keep them linked, then they
show the same throughout exactly if all their steps are alike. -/
theorem lockstep {linked same alike : Nat → Prop} {count : Nat} (start : linked 0)
    (shows : ∀ n, n < count → linked n → (same n ↔ alike n))
    (keeps : ∀ n, n < count → linked n → alike n → linked (n + 1)) :
    (∀ n, n < count → same n) ↔ ∀ n, n < count → alike n := by
  have linked_of (h : ∀ n, n < count → linked n → alike n) : ∀ n, n ≤ count → linked n := by
    intro n
    induction n with
    | zero => exact fun _ => start
    | succ n ih =>
        intro hn
        have hlinked := ih (by omega)
        exact keeps n hn hlinked (h n hn hlinked)
  constructor
  · intro hsame n hn
    have hlinked := linked_of (fun k hk hlinked => (shows k hk hlinked).mp (hsame k hk)) n
      (Nat.le_of_lt hn)
    exact (shows n hn hlinked).mp (hsame n hn)
  · intro halike n hn
    have hlinked := linked_of (fun k hk _ => halike k hk) n (Nat.le_of_lt hn)
    exact (shows n hn hlinked).mpr (halike n hn)

section Runs

variable {config : PacketEngineConfig} {packets : List RawPacket}
variable {tables : Nat → FlowTable} {outputs : Nat → Option RawPacket}
variable {flows : Nat → Flows} {words : Nat → Option (List UInt8)}

/-- The engines take step `n` alike. -/
def AlikeAt (config : PacketEngineConfig) (packets : List RawPacket) (tables : Nat → FlowTable)
    (n : Nat) : Prop :=
  ∀ tcp, viewAt config packets n = some tcp → StepsAlike config (tables n) tcp

/-- The engines emit the same for packet `n`. -/
def SameEmission (outputs : Nat → Option RawPacket) (words : Nat → Option (List UInt8))
    (n : Nat) : Prop :=
  Option.Rel SamePacket (cpuEmission outputs n) (shaderEmission words n)

/-- From equal tables the engines emit the same exactly if they step alike, and
alike steps lead to equal tables. -/
theorem agreement_step (valid : ValidConfig config)
    (hprobes : config.flowProbeLimit = config.flowCapacity)
    (cpu : CpuRun config packets tables outputs) (shader : ShaderRun config packets flows words)
    {n : Nat} (hn : n < packets.length)
    (hlinked : entries (tables n) = shaderEntries config (flows n)) :
    (SameEmission outputs words n ↔ AlikeAt config packets tables n) ∧
      (AlikeAt config packets tables n →
        entries (tables (n + 1)) = shaderEntries config (flows (n + 1))) := by
  have hcpu := cpu.emits n hn
  have hshader := shader.emits valid n hn
  have good := shader.good valid.capacity_power valid.capacity_fits n (Nat.le_of_lt hn)
  unfold SameEmission AlikeAt
  rw [hcpu, hshader]
  cases hview : viewAt config packets n with
  | none =>
      refine ⟨⟨fun _ tcp h => (by cases h), fun _ => Option.Rel.none⟩, fun _ => ?_⟩
      rw [(cpu.step_unlistened hn hview).1, (shader.step_unlistened hn hview).1, hlinked]
  | some tcp =>
      obtain ⟨hnext, hreply, -⟩ := cpu.step_listened hn hview
      obtain ⟨hnext', hreply', -⟩ :=
        shader.step_listened valid.capacity_power valid.capacity_fits hn hview
      have hroom := hasVacancy_iff tcp.key valid hprobes good hlinked
      rw [← hlinked] at hreply' hnext'
      rw [Option.bind_some, Option.bind_some, hreply, hreply']
      have hone : (∀ tcp', some tcp = some tcp' → StepsAlike config (tables n) tcp') ↔
          StepsAlike config (tables n) tcp :=
        ⟨fun h => h tcp rfl, fun h tcp' heq => by cases heq; exact h⟩
      rw [hone]
      refine ⟨⟨?_, ?_⟩, ?_⟩
      · intro hsame
        by_contra hpart
        exact replies_differ hroom hpart hsame
      · intro halike
        rw [flowSteps_eq hroom halike]
        cases (shaderFlowStep (hasVacancy config (flows n) tcp.key) tcp.key
          (entries (tables n) tcp.key) tcp).2 with
        | none => exact Option.Rel.none
        | some reply => exact Option.Rel.some (samePacket_replyView tcp.key reply)
      · intro halike
        rw [hnext, entries_setEntry, hnext', flowSteps_eq hroom halike]

theorem tables_start (cpu : CpuRun config packets tables outputs)
    (shader : ShaderRun config packets flows words) :
    entries (tables 0) = shaderEntries config (flows 0) := by
  funext key
  rw [cpu.start, shader.start]
  exact (Finmap.lookup_empty key).trans (tableEntry_of_absent (emptyFlows_invariant _)
    (fun i heq => by rw [cells_emptyFlows] at heq; cases heq)).symm

/-- **Agreement of the engines.**  Over any packets the two engines emit the same
exactly when they take every step alike: no opening segment resets a flow or
opens one while it resets, and none restarts a half-open flow. -/
theorem engines_agree_iff (hvalid : validateConfig config = .ok ())
    (hprobes : config.flowProbeLimit = config.flowCapacity)
    (cpu : CpuRun config packets tables outputs) (shader : ShaderRun config packets flows words) :
    (∀ n, n < packets.length → SameEmission outputs words n) ↔
      ∀ n, n < packets.length → AlikeAt config packets tables n := by
  have valid := validateConfig_eq_ok.mp hvalid
  refine @lockstep (fun n => entries (tables n) = shaderEntries config (flows n)) _ _ _
    (tables_start cpu shader) ?_ ?_
  · intro n hn hlinked
    exact (agreement_step valid hprobes cpu shader hn hlinked).1
  · intro n hn hlinked
    exact (agreement_step valid hprobes cpu shader hn hlinked).2

end Runs

/-- The conversation restarts no handshake. -/
theorem alikeAt_conversation {tables : Nat → FlowTable} {outputs : Nat → Option RawPacket}
    (cpu : CpuRun fourSlots conversation tables outputs) (n : Nat) :
    AlikeAt fourSlots conversation tables n := by
  obtain ⟨hstart, -, -, -, hended, -, -⟩ := cpu.conversation_entries
  intro tcp hview hopen
  have hfresh : entries (tables n) tcp.key = none ∧ ¬ IsReset tcp := by
    rw [viewAt_conversation] at hview
    have hn : n < 6 := (List.getElem?_eq_some_iff.mp hview).1
    interval_cases n <;> cases hview
    · exact ⟨congrFun hstart _, by decide⟩
    · exact absurd hopen (by decide)
    · exact absurd hopen (by decide)
    · exact absurd hopen (by decide)
    · exact ⟨congrFun hended _, by decide⟩
    · exact absurd hopen (by decide)
  rw [if_neg hfresh.2]
  intro flow hflow
  rw [hfresh.1] at hflow
  cases hflow

theorem engines_agree_iff_conversation :
    ∃ tables outputs flows words, CpuRun fourSlots conversation tables outputs ∧
      ShaderRun fourSlots conversation flows words ∧
      ∀ n, n < 6 → SameEmission outputs words n := by
  obtain ⟨tables, outputs, cpu⟩ := cpuRun_exists fourSlots conversation
  obtain ⟨flows, words, shader⟩ := shaderRun_exists fourSlots conversation
  exact ⟨tables, outputs, flows, words, cpu, shader,
    (engines_agree_iff fourSlots_valid rfl cpu shader).mpr
      (fun n _ => alikeAt_conversation cpu n)⟩

/-- After the SYN of a client both engines hold its half-open flow. -/
theorem opened_linked {rest : List RawPacket} {tables : Nat → FlowTable}
    {outputs : Nat → Option RawPacket} {flows : Nat → Flows} {words : Nat → Option (List UInt8)}
    (cpu : CpuRun fourSlots (synPacket 1000 :: rest) tables outputs)
    (shader : ShaderRun fourSlots (synPacket 1000 :: rest) flows words) :
    entries (tables 1) = shaderEntries fourSlots (flows 1) ∧
      entries (tables 1) (clientKey 1000) = some (openedFlow (clientKey 1000) 100) := by
  have valid := validateConfig_eq_ok.mp fourSlots_valid
  have hfirst : viewAt fourSlots (synPacket 1000 :: rest) 0 =
      some { key := clientKey 1000, seq := 100, ack := 0, flags := tcpSyn, payload := [] } := by
    simp [viewAt, listened, synPacket, parsed_builtPacket, clientKey, fourSlots]
  have hempty : entries (tables 0) (clientKey 1000) = none := by
    rw [cpu.start]
    exact Finmap.lookup_empty _
  have hroom : (tables 0).keys.card < fourSlots.flowCapacity := by
    rw [cpu.start]
    decide
  have halike : AlikeAt fourSlots (synPacket 1000 :: rest) tables 0 := by
    intro tcp hview
    cases hfirst.symm.trans hview
    intro _
    rw [if_neg (by decide)]
    intro flow hflow
    rw [hempty] at hflow
    cases hflow
  refine ⟨(agreement_step valid rfl cpu shader (Nat.succ_pos _) (tables_start cpu shader)).2 halike,
    ?_⟩
  obtain ⟨hnext, -, -⟩ := cpu.step_listened (Nat.succ_pos _) hfirst
  rw [hnext, entries_setEntry]
  show Function.update _ (clientKey 1000) _ (clientKey 1000) = _
  rw [Function.update_self]
  show (cpuFlowStep _ _ (entries (tables 0) (clientKey 1000)) _).1 = _
  rw [hempty, cpuFlowStep_open _ _ (by decide) (by decide), if_pos hroom]

/-- The SYN of `synPacket 1000` again, with another sequence number. -/
def restartedPacket : RawPacket :=
  builtPacket
    { key := clientKey 1000, seq := 200, ack := 0, flags := tcpSyn, payload := [] } (by
      show 40 ≤ maxRawPacketBytes
      decide)

theorem viewAt_restartedPacket :
    viewAt fourSlots [synPacket 1000, restartedPacket] 1 =
      some { key := clientKey 1000, seq := 200, ack := 0, flags := tcpSyn, payload := [] } := by
  simp [viewAt, listened, restartedPacket, parsed_builtPacket, clientKey, fourSlots]

/-- A client that starts its handshake over gets different answers. -/
theorem engines_part_on_restart :
    validateConfig fourSlots = .ok () ∧ fourSlots.flowProbeLimit = fourSlots.flowCapacity ∧
      ∃ tables outputs flows words,
        CpuRun fourSlots [synPacket 1000, restartedPacket] tables outputs ∧
          ShaderRun fourSlots [synPacket 1000, restartedPacket] flows words ∧
          ¬ ∀ n, n < 2 → SameEmission outputs words n := by
  have valid := validateConfig_eq_ok.mp fourSlots_valid
  obtain ⟨tables, outputs, cpu⟩ := cpuRun_exists fourSlots [synPacket 1000, restartedPacket]
  obtain ⟨flows, words, shader⟩ := shaderRun_exists fourSlots [synPacket 1000, restartedPacket]
  refine ⟨fourSlots_valid, rfl, tables, outputs, flows, words, cpu, shader, ?_⟩
  obtain ⟨hlinked, hopened⟩ := opened_linked cpu shader
  intro hsame
  have hstep := (agreement_step valid rfl cpu shader (by decide) hlinked).1.mp
    (hsame 1 (by decide)) _ viewAt_restartedPacket (by decide)
  rw [if_neg (by decide)] at hstep
  exact absurd (hstep _ hopened rfl) (by decide)

end Packet
end Gput
