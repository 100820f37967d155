import Gput.Library.KeyedMachine
import Gput.Packet.CpuRun
import Mathlib.Data.Fin.VecNotation
import Mathlib.Data.Finset.Card
import Mathlib.Data.Fintype.Basic
import Mathlib.Tactic.FinCases

/-!
# Flows are independent

As long as the table has room for every key in sight, the CPU engine is a keyed
machine: each packet reads and writes the entry of its own key.  Two orders of a
batch that agree on the packets of each key then give every packet the same
output and leave the same table.
-/

namespace Gput
namespace Packet

/-- The keys of a batch. -/
def batchKeys (packets : List RawPacket) : Finset FlowKey :=
  (packets.filterMap packetKey).toFinset

/-- The CPU engine with room for every flow, as a machine of independent
flows. -/
def flowMachine (config : PacketEngineConfig) :
    KeyedMachine FlowKey (Option Flow) RawPacket (Option RawPacket) where
  key := packetKey
  step key entry packet :=
    match parsed packet with
    | none => (entry, none)
    | some tcp =>
        if tcp.key.dstPort ≠ config.listenPort then (entry, none)
        else
          let result := cpuFlowStep True key entry tcp
          (result.1, result.2.map (cpuReplyPacket key))
  idle := none

theorem cpuFlowStep_room (room : Prop) [Decidable room] (key : FlowKey)
    (entry : Option Flow) (tcp : TcpPacketView) (h : entry = none → room) :
    cpuFlowStep room key entry tcp = cpuFlowStep True key entry tcp := by
  unfold cpuFlowStep
  cases entry with
  | none => simp [h rfl]
  | some flow => rfl

/-- A key outside the table leaves room for it when all keys fit. -/
theorem room_of_absent {flows : FlowTable} {keys : Finset FlowKey} {key : FlowKey}
    {capacity : Nat} (hkeys : flows.keys ⊆ keys) (hcapacity : keys.card ≤ capacity)
    (hmem : key ∈ keys) (habsent : entries flows key = none) : flows.keys.card < capacity := by
  have hnot : key ∉ flows.keys := fun h => mem_keys_iff.mp h habsent
  have hinsert : insert key flows.keys ⊆ keys := Finset.insert_subset hmem hkeys
  have hcard := Finset.card_le_card hinsert
  rw [Finset.card_insert_of_notMem hnot] at hcard
  omega

/-- With room for all keys, one packet is one input of the flow machine. -/
theorem cpuStep_eq_flowMachine {config : PacketEngineConfig} {flows : FlowTable}
    {keys : Finset FlowKey} {packet : RawPacket} (hkeys : flows.keys ⊆ keys)
    (hcapacity : keys.card ≤ config.flowCapacity)
    (hpacket : ∀ key, packetKey packet = some key → key ∈ keys) :
    entries (cpuStep config flows packet).1 =
        (flowMachine config).next (entries flows) packet ∧
      (cpuStep config flows packet).2 =
        (flowMachine config).output (entries flows) packet ∧
      (cpuStep config flows packet).1.keys ⊆ keys := by
  unfold cpuStep KeyedMachine.next KeyedMachine.output flowMachine
  cases hparsed : parsed packet with
  | none => simp [packetKey, hparsed, hkeys]
  | some tcp =>
      have hkey : packetKey packet = some tcp.key := by simp [packetKey, hparsed]
      simp only [hkey, hparsed]
      by_cases hport : tcp.key.dstPort ≠ config.listenPort
      · simp only [if_pos hport]
        exact ⟨(Function.update_eq_self _ _).symm, trivial, hkeys⟩
      · simp only [if_neg hport]
        have hroom : flows.lookup tcp.key = none → flows.keys.card < config.flowCapacity :=
          room_of_absent hkeys hcapacity (hpacket _ hkey)
        rw [cpuFlowStep_room _ _ _ _ hroom]
        refine ⟨entries_setEntry _ _ _, rfl, ?_⟩
        intro key hmem
        by_cases h : key = tcp.key
        · exact h ▸ hpacket _ hkey
        · rw [mem_keys_iff, entries_setEntry, Function.update_of_ne h] at hmem
          exact hkeys (mem_keys_iff.mpr hmem)

/-- With room for all keys, a batch is a run of the flow machine. -/
theorem processBatchInto_eq_flowMachine {config : PacketEngineConfig} {keys : Finset FlowKey}
    (hcapacity : keys.card ≤ config.flowCapacity) (packets : List RawPacket)
    (flows : FlowTable) (hkeys : flows.keys ⊆ keys) (hbatch : batchKeys packets ⊆ keys) :
    ∃ flows', processBatchInto flows config packets =
        .ok (flows', (flowMachine config).outputs (entries flows) packets) ∧
      entries flows' = (flowMachine config).cellsAfter (entries flows) packets := by
  induction packets generalizing flows with
  | nil => exact ⟨flows, rfl, rfl⟩
  | cons packet packets ih =>
      have hpacket : ∀ key, packetKey packet = some key → key ∈ keys := by
        intro key hkey
        exact hbatch (by simp [batchKeys, hkey])
      have hrest : batchKeys packets ⊆ keys := by
        intro key hmem
        apply hbatch
        simp only [batchKeys, List.mem_toFinset, List.mem_filterMap] at hmem ⊢
        obtain ⟨other, hother, hkey⟩ := hmem
        exact ⟨other, List.mem_cons_of_mem _ hother, hkey⟩
      obtain ⟨hnext, houtput, hkeys'⟩ := cpuStep_eq_flowMachine hkeys hcapacity hpacket
      obtain ⟨flows', hrun, hentries⟩ := ih _ hkeys' hrest
      refine ⟨flows', ?_, ?_⟩
      · rw [processBatchInto, processPacket_eq]
        simp only [Outcome.ok_bind]
        rw [hrun]
        simp only [Outcome.ok_bind, Outcome.pure_eq]
        rw [hnext, houtput]
        rfl
      · rw [hentries, hnext]
        rfl

/-- Two batches with the same packets have the same keys. -/
theorem batchKeys_perm {packets packets' : List RawPacket} (h : packets.Perm packets') :
    batchKeys packets = batchKeys packets' := by
  unfold batchKeys
  exact List.toFinset_eq_of_perm _ _ (h.filterMap _)

/-- **Flow independence.**  When the table has room for the keys it holds and
the keys of the batch, two orders of the batch that agree on the packets of each
key give every packet the same output and leave the same table. -/
theorem flow_independence (config : PacketEngineConfig) (flows : FlowTable)
    {n : Nat} (batch : Fin n → RawPacket) (π : Equiv.Perm (Fin n))
    (keep : KeyedMachine.KeepsOrder packetKey batch π)
    (room : (flows.keys ∪ batchKeys (List.ofFn batch)).card ≤ config.flowCapacity) :
    ∃ flows' outputs outputs',
      processBatchInto flows config (List.ofFn batch) = .ok (flows', outputs) ∧
      processBatchInto flows config (List.ofFn (batch ∘ π)) = .ok (flows', outputs') ∧
      outputs.length = n ∧ outputs'.length = n ∧
      ∀ i : Fin n, outputs'[i.val]? = outputs[(π i).val]? := by
  have hkeys : flows.keys ⊆ flows.keys ∪ batchKeys (List.ofFn batch) :=
    Finset.subset_union_left
  have hbatch : batchKeys (List.ofFn batch) ⊆ flows.keys ∪ batchKeys (List.ofFn batch) :=
    Finset.subset_union_right
  have hperm : (List.ofFn (batch ∘ π)).Perm (List.ofFn batch) := Equiv.Perm.ofFn_comp_perm π batch
  obtain ⟨first, hfirst, hcells⟩ :=
    processBatchInto_eq_flowMachine room (List.ofFn batch) flows hkeys hbatch
  obtain ⟨second, hsecond, hcells'⟩ :=
    processBatchInto_eq_flowMachine room (List.ofFn (batch ∘ π)) flows hkeys
      (by rw [batchKeys_perm hperm]; exact hbatch)
  have hsame : second = first := by
    apply entries_injective
    rw [hcells, hcells']
    exact (flowMachine config).run_reorder_cells (entries flows) keep
  refine ⟨first, _, _, hfirst, hsame ▸ hsecond, ?_, ?_, ?_⟩
  · rw [KeyedMachine.outputs_length, List.length_ofFn]
  · rw [KeyedMachine.outputs_length, List.length_ofFn]
  · exact (flowMachine config).run_reorder_outputs (entries flows) keep

theorem flow_independence_two_flows :
    ∃ flows' outputs outputs',
      processBatchInto ∅ ⟨64, 4, 4, 8080⟩ (List.ofFn ![synPacket 1, synPacket 2]) =
        .ok (flows', outputs) ∧
      processBatchInto ∅ ⟨64, 4, 4, 8080⟩
          (List.ofFn (![synPacket 1, synPacket 2] ∘ Equiv.swap 0 1)) = .ok (flows', outputs') ∧
      outputs.length = 2 ∧ outputs'.length = 2 ∧
      ∀ i : Fin 2, outputs'[i.val]? = outputs[(Equiv.swap 0 1 i : Fin 2).val]? := by
  refine flow_independence ⟨64, 4, 4, 8080⟩ ∅ ![synPacket 1, synPacket 2] (Equiv.swap 0 1) ?_ ?_
  · intro i j k hij hi hj
    fin_cases i <;> fin_cases j <;> simp_all [synPacket, packetKey_builtPacket]
    subst hi
    simp [clientKey] at hj
  · refine le_trans (Finset.card_union_le _ _) ?_
    have h : (batchKeys (List.ofFn ![synPacket 1, synPacket 2])).card ≤ 2 :=
      le_trans (List.toFinset_card_le _) (List.length_filterMap_le _ _)
    have hempty : (∅ : FlowTable).keys.card = 0 := rfl
    show _ ≤ 4
    omega

end Packet
end Gput
