import Gput.Library.EventMachine
import Gput.Packet.PacketEngine

/-!
# The packet daemon

The loop of `gput-packetd`: it collects packets from a TUN device into a batch,
recycles the buffers of earlier batches, offers the batch to an engine and sends what
the engine emits.  The device is the environment; an event is what a read of it comes
to.

What holds of every run, on any engine that hands its sink what it emits (`Drives`),
is `Serving`: where every received packet went, what was sent and how many buffers
there are.
-/

namespace Gput
namespace Packet
namespace Daemon

/-- What a read of the device comes to: bytes, the end of the wait for another packet,
or a failure. -/
inductive TunEvent where
  | received (bytes : List UInt8)
  | expired
  | failed
deriving DecidableEq, Repr

/-- Where the loop stands: before the first packet of a batch, before another one, or
returned from `main`. -/
inductive Mode where
  | idle
  | batching
  | stopped (outcome : Outcome Unit)
deriving DecidableEq, Repr

/-- The batch capacity, and the device as a sender: how many bytes it takes of a
packet, given what it was sent before, unless it fails. -/
structure Settings where
  batchCapacity : Nat
  send : List (List UInt8) → List UInt8 → Option Nat

structure State (σ : Type) where
  mode : Mode
  batch : List RawPacket
  sparePackets : List RawPacket
  engine : σ
  sent : List (List UInt8)
  packetsIn : Nat
  packetsOut : Nat
  batches : Nat
  peakBatch : Nat
  receiveAllocations : Nat
  receiveReuses : Nat

/-- `push_received_packet`. -/
def pushReceivedPacket (batch sparePackets : List RawPacket) (bytes : List UInt8) :
    Outcome (List RawPacket × List RawPacket × Bool) :=
  match sparePackets.getLast? with
  | some packet => do
      let packet ← packet.replaceFromSlice bytes
      return (batch ++ [packet], sparePackets.dropLast, true)
  | none => do
      let packet ← RawPacket.new bytes
      return (batch ++ [packet], sparePackets, false)

/-- `send_response`, over what was sent and the count of it. -/
def sendResponse (send : List (List UInt8) → List UInt8 → Option Nat) :
    PacketSink (List (List UInt8) × Nat) := fun s _ response =>
  match response with
  | none => .ok s
  | some bytes => do
      let taken ← Outcome.context "failed to inject borrowed engine response into TUN"
        (send s.1 bytes)
      Outcome.ensure (taken = bytes.length)
        s!"TUN accepted {taken} of {bytes.length} response bytes"
      return (s.1 ++ [bytes], saturatingAdd s.2 1)

section Loop

variable {σ : Type} (engine : PacketEngine σ) (settings : Settings) (s : State σ)

/-- The loop behind the reads, up to the next first packet. -/
def offerBatch : State σ :=
  let s := { s with
    packetsIn := saturatingAdd s.packetsIn s.batch.length
    batches := saturatingAdd s.batches 1
    peakBatch := max s.peakBatch s.batch.length }
  match engine.processBatchTo (sendResponse settings.send) s.batch s.engine
      (s.sent, s.packetsOut) with
  | .ok (engine, sent, packetsOut) =>
      { s with
        mode := .idle
        batch := []
        sparePackets := s.sparePackets ++ s.batch
        engine := engine
        sent := sent
        packetsOut := packetsOut }
  | .err message => { s with mode := .stopped (.err message) }
  | .panic => { s with mode := .stopped .panic }

/-- A packet arrives; a full batch is offered at once. -/
def receive (bytes : List UInt8) : State σ :=
  match pushReceivedPacket s.batch s.sparePackets bytes with
  | .ok (batch, sparePackets, reused) =>
      let s := { s with
        mode := .batching
        batch := batch
        sparePackets := sparePackets
        receiveAllocations :=
          if reused then s.receiveAllocations else saturatingAdd s.receiveAllocations 1
        receiveReuses := if reused then saturatingAdd s.receiveReuses 1 else s.receiveReuses }
      if batch.length < settings.batchCapacity then s else offerBatch engine settings s
  | .err message => { s with mode := .stopped (.err message) }
  | .panic => { s with mode := .stopped .panic }

def step : TunEvent → Option (State σ)
  | .received bytes =>
      match s.mode with
      | .stopped _ => none
      | .idle => some (if bytes = [] then s else receive engine settings s bytes)
      | .batching =>
          some (if bytes = [] then offerBatch engine settings s
            else receive engine settings s bytes)
  | .expired =>
      match s.mode with
      | .batching => some (offerBatch engine settings s)
      | _ => none
  | .failed =>
      match s.mode with
      | .idle => some { s with mode := .stopped (.err "failed to read TUN packet") }
      | .batching => some { s with mode := .stopped (.err "failed to batch TUN packets") }
      | .stopped _ => none

/-- The daemon on an engine. -/
def packetd (start : σ) : EventMachine (State σ) TunEvent where
  start := {
    mode := .idle
    batch := []
    sparePackets := []
    engine := start
    sent := []
    packetsIn := 0
    packetsOut := 0
    batches := 0
    peakBatch := 0
    receiveAllocations := 0
    receiveReuses := 0 }
  step := step engine settings

end Loop

/-- The packets the device delivered. -/
def arrivals (events : List TunEvent) : List (List UInt8) :=
  events.filterMap fun
    | .received [] => none
    | .received bytes => some bytes
    | _ => none

theorem arrivals_append (past later : List TunEvent) :
    arrivals (past ++ later) = arrivals past ++ arrivals later :=
  List.filterMap_append

/-- What went out of some deliveries. -/
def emissions (deliveries : List Delivery) : List (List UInt8) :=
  deliveries.filterMap Prod.snd

/-- The device fails on one of some responses, or takes only a part of it, having been
sent the given packets and the responses before it. -/
def Refuses (send : List (List UInt8) → List UInt8 → Option Nat) (sent : List (List UInt8))
    (responses : List (List UInt8)) : Prop :=
  ∃ before response after, responses = before ++ response :: after ∧
    send (sent ++ before) response ≠ some response.length

/-- A read that is no reason to stop. -/
def Harmless : TunEvent → Prop
  | .received bytes => bytes.length ≤ maxRawPacketBytes
  | .expired => True
  | .failed => False

/-- Batches through an engine, with what was handed to the sink for each. -/
inductive Transcript {σ : Type}
    (Step : List RawPacket → σ → σ → List Delivery → Prop) (start : σ) :
    List (List RawPacket × List Delivery) → σ → Prop
  | start : Transcript Step start [] start
  | batch {log : List (List RawPacket × List Delivery)} {state state' : σ}
      {packets : List RawPacket} {deliveries : List Delivery}
      (before : Transcript Step start log state)
      (step : Step packets state state' deliveries) :
      Transcript Step start (log ++ [(packets, deliveries)]) state'

/-- An engine whose batches are steps: whatever the sink, a batch hands it fixed
deliveries and leaves a fixed state. -/
structure Drives {σ : Type} (engine : PacketEngine σ) (Reach : σ → Prop)
    (Step : List RawPacket → σ → σ → List Delivery → Prop) : Prop where
  total : ∀ {state} packets, Reach state →
    ∃ state' deliveries, Reach state' ∧ Step packets state state' deliveries
  runs : ∀ {packets state state' deliveries}, Step packets state state' deliveries →
    ∀ (τ : Type) (sink : PacketSink τ) (s : τ), engine.processBatchTo sink packets state s =
      (do
        let s ← deliver sink deliveries s
        return (state', s))

section Sends

variable {send : List (List UInt8) → List UInt8 → Option Nat} {sent : List (List UInt8)}
variable {count : Nat}

theorem deliver_sendResponse {deliveries : List Delivery} {s' : List (List UInt8) × Nat}
    (h : deliver (sendResponse send) deliveries (sent, count) = .ok s')
    (hcount : count = min sent.length (2 ^ 64 - 1)) :
    s'.1 = sent ++ emissions deliveries ∧ s'.2 = min s'.1.length (2 ^ 64 - 1) := by
  induction deliveries generalizing sent count with
  | nil =>
      cases h
      exact ⟨(List.append_nil sent).symm, hcount⟩
  | cons delivery deliveries ih =>
      obtain ⟨sourceIndex, response⟩ := delivery
      obtain ⟨next, hnext, hrest⟩ := Outcome.bind_eq_ok.mp h
      cases response with
      | none =>
          cases hnext
          simpa [emissions] using ih hrest hcount
      | some bytes =>
          obtain ⟨taken, -, hnext⟩ := Outcome.bind_eq_ok.mp hnext
          obtain ⟨-, -, hnext⟩ := Outcome.bind_eq_ok.mp hnext
          cases hnext
          obtain ⟨hsent, hlater⟩ := ih hrest (by
            simp only [saturatingAdd, hcount, List.length_append, List.length_singleton]
            omega)
          refine ⟨?_, hlater⟩
          simpa [emissions] using hsent

/-- Only a send that fails or falls short stops the deliveries. -/
theorem deliver_refused (deliveries : List Delivery) :
    (∃ s', deliver (sendResponse send) deliveries (sent, count) = .ok s') ∨
      ∃ message, deliver (sendResponse send) deliveries (sent, count) = .err message ∧
        Refuses send sent (emissions deliveries) := by
  induction deliveries generalizing sent count with
  | nil => exact Or.inl ⟨_, rfl⟩
  | cons delivery deliveries ih =>
      obtain ⟨sourceIndex, response⟩ := delivery
      cases response with
      | none => exact ih
      | some bytes =>
          have hemitted : emissions ((sourceIndex, some bytes) :: deliveries) =
              bytes :: emissions deliveries := rfl
          rw [deliver, sendResponse, hemitted]
          by_cases hwhole : send sent bytes = some bytes.length
          · have hnext := @ih (sent ++ [bytes]) (saturatingAdd count 1)
            simp only [hwhole, Outcome.context_some, Outcome.ok_bind, Outcome.ensure_of,
              Outcome.pure_eq]
            refine hnext.imp_right ?_
            rintro ⟨message, hfailed, before, response, after, hsplit, hrefused⟩
            refine ⟨message, hfailed, bytes :: before, response, after, by simp [hsplit], ?_⟩
            simpa using hrefused
          · refine Or.inr ?_
            have hrefuses : Refuses send sent (bytes :: emissions deliveries) :=
              ⟨[], bytes, emissions deliveries, rfl, by simpa using hwhole⟩
            cases htaken : send sent bytes with
            | none => exact ⟨_, rfl, hrefuses⟩
            | some taken =>
                have hshort : ¬ taken = bytes.length := fun h => hwhole (by rw [htaken, h])
                exact ⟨_, by simp [Outcome.context, Outcome.ensure, hshort]; rfl, hrefuses⟩

end Sends

/-- Everything that came in is in a batch that was offered or in the one that is being
filled, everything that was emitted went out, and there are no more buffers than a
batch has places. -/
structure Account {σ : Type} (Step : List RawPacket → σ → σ → List Delivery → Prop)
    (capacity : Nat) (start : σ) (log : List (List RawPacket × List Delivery))
    (past : List TunEvent) (s : State σ) : Prop where
  transcript : Transcript Step start log s.engine
  received : ((log.map Prod.fst).flatten ++ s.batch).map RawPacket.bytes = arrivals past
  sent : s.sent = emissions (log.map Prod.snd).flatten
  filled : ∀ batch ∈ log, 0 < batch.1.length ∧ batch.1.length ≤ capacity
  buffers : s.batch.length + s.sparePackets.length ≤ capacity
  allocations : s.receiveAllocations = min (s.batch.length + s.sparePackets.length) (2 ^ 64 - 1)
  packetsIn : s.packetsIn = min (log.map Prod.fst).flatten.length (2 ^ 64 - 1)
  packetsOut : s.packetsOut = min s.sent.length (2 ^ 64 - 1)
  batches : s.batches = min log.length (2 ^ 64 - 1)
  peak : s.peakBatch ≤ capacity

/-- The batch at hand has room, and is empty between batches. -/
def Ready (capacity : Nat) {σ : Type} (s : State σ) : Prop :=
  match s.mode with
  | .idle => s.batch = []
  | .batching => 0 < s.batch.length ∧ s.batch.length < capacity
  | .stopped _ => False

/-- The device refuses a response to the batch at hand. -/
structure SendRefused {σ : Type} (Step : List RawPacket → σ → σ → List Delivery → Prop)
    (settings : Settings) (start : σ) (past : List TunEvent) (s : State σ)
    (log : List (List RawPacket × List Delivery)) : Prop where
  transcript : Transcript Step start log s.engine
  received : ((log.map Prod.fst).flatten ++ s.batch).map RawPacket.bytes = arrivals past
  sent : s.sent = emissions (log.map Prod.snd).flatten
  refused : ∃ state' deliveries, Step s.batch s.engine state' deliveries ∧
    Refuses settings.send s.sent (emissions deliveries)

/-- The loop goes on with everything accounted for, or it ended with an error: for a
read that is a reason to stop, or for a response that the device refused. -/
def Serving {σ : Type} (Reach : σ → Prop)
    (Step : List RawPacket → σ → σ → List Delivery → Prop) (settings : Settings) (start : σ)
    (past : List TunEvent) (s : State σ) : Prop :=
  (Ready settings.batchCapacity s ∧ Reach s.engine ∧
      ∃ log, Account Step settings.batchCapacity start log past s) ∨
    ((∃ message, s.mode = .stopped (.err message)) ∧
      ((∃ e ∈ past, ¬ Harmless e) ∨ ∃ log, SendRefused Step settings start past s log))

section Serving

variable {σ : Type} {engine : PacketEngine σ} {Reach : σ → Prop}
variable {Step : List RawPacket → σ → σ → List Delivery → Prop} {settings : Settings}
variable {start : σ} {past : List TunEvent} {s : State σ}
variable {log : List (List RawPacket × List Delivery)}

/-- A batch goes through the engine. -/
theorem Account.offerBatch (drives : Drives engine Reach Step)
    (account : Account Step settings.batchCapacity start log past s) (hreach : Reach s.engine)
    (hbatch : 0 < s.batch.length) (hcapacity : s.batch.length ≤ settings.batchCapacity) :
    Serving Reach Step settings start past (offerBatch engine settings s) := by
  obtain ⟨engine', deliveries, hreach', hstep⟩ := drives.total s.batch hreach
  unfold Daemon.offerBatch
  simp only [drives.runs hstep]
  rcases @deliver_refused settings.send s.sent s.packetsOut deliveries with
    ⟨s', hsend⟩ | ⟨message, hsend, hrefuses⟩
  · obtain ⟨hsent, hcount⟩ := deliver_sendResponse hsend account.packetsOut
    simp only [hsend, Outcome.ok_bind, Outcome.pure_eq]
    refine Or.inl ⟨rfl, hreach', log ++ [(s.batch, deliveries)],
      account.transcript.batch hstep, ?_, ?_, ?_, ?_, ?_, ?_, hcount, ?_, ?_⟩
    · simpa using account.received
    · simp [hsent, account.sent, emissions]
    · intro batch hmem
      rcases List.mem_append.mp hmem with hmem | hmem
      · exact account.filled batch hmem
      · cases List.mem_singleton.mp hmem
        exact ⟨hbatch, hcapacity⟩
    · have := account.buffers
      simp only [List.length_nil, List.length_append]
      omega
    · have := account.allocations
      simp only [List.length_nil, List.length_append, this]
      omega
    · simp only [account.packetsIn, saturatingAdd, List.map_append, List.map_cons, List.map_nil,
        List.flatten_append, List.flatten_cons, List.flatten_nil, List.append_nil,
        List.length_append]
      omega
    · simp only [account.batches, saturatingAdd, List.length_append, List.length_singleton]
      omega
    · exact Nat.max_le.mpr ⟨account.peak, hcapacity⟩
  · rw [hsend]
    exact Or.inr ⟨⟨message, rfl⟩, Or.inr ⟨log, account.transcript, account.received, account.sent,
      engine', deliveries, hstep, hrefuses⟩⟩

theorem pushReceivedPacket_ok (batch sparePackets : List RawPacket) {bytes : List UInt8}
    (hbytes : bytes ≠ []) (hlength : bytes.length ≤ maxRawPacketBytes) :
    ∃ sparePackets' reused, pushReceivedPacket batch sparePackets bytes =
        .ok (batch ++ [⟨bytes, hbytes, hlength⟩], sparePackets', reused) ∧
      if reused then sparePackets'.length + 1 = sparePackets.length
      else sparePackets = [] ∧ sparePackets' = [] := by
  have hnew : RawPacket.new bytes = .ok ⟨bytes, hbytes, hlength⟩ := by
    rw [RawPacket.new, dif_neg hbytes, dif_pos hlength]
  unfold pushReceivedPacket
  cases hlast : sparePackets.getLast? with
  | none =>
      rw [List.getLast?_eq_none_iff] at hlast
      refine ⟨sparePackets, false, ?_, by simpa using hlast⟩
      simp [hnew]
  | some packet =>
      have hne : sparePackets ≠ [] := by
        rintro rfl
        cases hlast
      refine ⟨sparePackets.dropLast, true, ?_, ?_⟩
      · simp [RawPacket.replaceFromSlice, hnew]
      · have := List.length_pos_iff.mpr hne
        simp only [if_true, List.length_dropLast]
        omega

/-- A packet that is too long ends the loop. -/
theorem pushReceivedPacket_tooLong (batch sparePackets : List RawPacket) {bytes : List UInt8}
    (hlength : ¬ bytes.length ≤ maxRawPacketBytes) :
    ∃ message, pushReceivedPacket batch sparePackets bytes = .err message := by
  have hbytes : bytes ≠ [] := by
    rintro rfl
    exact hlength (Nat.zero_le _)
  unfold pushReceivedPacket RawPacket.replaceFromSlice RawPacket.new
  cases sparePackets.getLast? <;> simp [hbytes, hlength]

/-- A packet arrives. -/
theorem Account.receive (drives : Drives engine Reach Step)
    (account : Account Step settings.batchCapacity start log past s) (hreach : Reach s.engine)
    (hroom : s.batch.length < settings.batchCapacity) {bytes : List UInt8} (hbytes : bytes ≠ []) :
    Serving Reach Step settings start (past ++ [.received bytes])
      (receive engine settings s bytes) := by
  unfold Daemon.receive
  by_cases hlength : bytes.length ≤ maxRawPacketBytes
  · obtain ⟨sparePackets, reused, hpush, hspare⟩ :=
      pushReceivedPacket_ok s.batch s.sparePackets hbytes hlength
    rw [hpush]
    simp only
    have harrivals : arrivals (past ++ [.received bytes]) = arrivals past ++ [bytes] := by
      rw [arrivals_append]
      cases bytes with
      | nil => exact absurd rfl hbytes
      | cons byte bytes => rfl
    have hnext : Account Step settings.batchCapacity start log (past ++ [.received bytes])
        { s with
          mode := .batching
          batch := s.batch ++ [⟨bytes, hbytes, hlength⟩]
          sparePackets := sparePackets
          receiveAllocations :=
            if reused then s.receiveAllocations else saturatingAdd s.receiveAllocations 1
          receiveReuses :=
            if reused then saturatingAdd s.receiveReuses 1 else s.receiveReuses } := by
      have hbuffers := account.buffers
      have hallocations := account.allocations
      refine ⟨account.transcript, ?_, account.sent, account.filled, ?_, ?_, account.packetsIn,
        account.packetsOut, account.batches, account.peak⟩
      · rw [harrivals, ← account.received]
        simp
      · cases reused with
        | true =>
            simp only [if_true] at hspare
            simp only [List.length_append, List.length_singleton]
            omega
        | false =>
            simp only [Bool.false_eq_true, if_false] at hspare
            simp only [List.length_append, List.length_singleton, hspare.2, List.length_nil]
            omega
      · cases reused with
        | true =>
            simp only [if_true] at hspare ⊢
            simp only [List.length_append, List.length_singleton, hallocations]
            omega
        | false =>
            simp only [Bool.false_eq_true, if_false] at hspare ⊢
            simp only [List.length_append, List.length_singleton, hspare.2, List.length_nil,
              hallocations, hspare.1, saturatingAdd]
            omega
    by_cases hfull : (s.batch ++ [(⟨bytes, hbytes, hlength⟩ : RawPacket)]).length <
        settings.batchCapacity
    · rw [if_pos hfull]
      exact Or.inl ⟨⟨by simp, hfull⟩, hreach, log, hnext⟩
    · rw [if_neg hfull]
      exact hnext.offerBatch drives hreach (by simp) (by simpa using Nat.succ_le_of_lt hroom)
  · obtain ⟨message, hpush⟩ := pushReceivedPacket_tooLong s.batch s.sparePackets hlength
    rw [hpush]
    exact Or.inr ⟨⟨message, rfl⟩, Or.inl ⟨.received bytes, by simp, hlength⟩⟩

theorem Account.quiet (account : Account Step settings.batchCapacity start log past s)
    {e : TunEvent} (h : arrivals [e] = []) :
    Account Step settings.batchCapacity start log (past ++ [e]) s :=
  { account with
    received := by
      rw [arrivals_append, h, List.append_nil]
      exact account.received }

/-- An event that brings nothing leaves the account as it is. -/
theorem Serving.quiet (h : Serving Reach Step settings start past s) {e : TunEvent}
    (he : arrivals [e] = []) : Serving Reach Step settings start (past ++ [e]) s := by
  rcases h with ⟨hready, hreach, log, account⟩ | ⟨hstopped, ⟨other, hother, hbad⟩ | ⟨log, refused⟩⟩
  · exact Or.inl ⟨hready, hreach, log, account.quiet he⟩
  · exact Or.inr ⟨hstopped, Or.inl ⟨other, List.mem_append_left _ hother, hbad⟩⟩
  · refine Or.inr ⟨hstopped, Or.inr ⟨log, { refused with received := ?_ }⟩⟩
    rw [arrivals_append, he, List.append_nil]
    exact refused.received

/-- Every event keeps everything accounted for. -/
theorem Serving.next (drives : Drives engine Reach Step) (hpositive : 0 < settings.batchCapacity)
    (h : Serving Reach Step settings start past s) {e : TunEvent} {s' : State σ}
    (hstep : step engine settings s e = some s') :
    Serving Reach Step settings start (past ++ [e]) s' := by
  have hexpired : arrivals [.expired] = [] := rfl
  have hempty : arrivals [.received []] = [] := rfl
  rcases h with ⟨hready, hreach, log, account⟩ | ⟨⟨message, hstopped⟩, -⟩
  · cases hmode : s.mode with
    | stopped outcome =>
        rw [Ready, hmode] at hready
        exact hready.elim
    | idle =>
        have hnone : s.batch = [] := by
          rwa [Ready, hmode] at hready
        cases e with
        | expired => simp [step, hmode] at hstep
        | failed =>
            simp only [step, hmode, Option.some.injEq] at hstep
            subst hstep
            exact Or.inr ⟨⟨_, rfl⟩, Or.inl ⟨.failed, by simp, id⟩⟩
        | received bytes =>
            simp only [step, hmode, Option.some.injEq] at hstep
            subst hstep
            by_cases hbytes : bytes = []
            · subst hbytes
              exact Or.inl ⟨hready, hreach, log, account.quiet hempty⟩
            · rw [if_neg hbytes]
              exact account.receive drives hreach (by rw [hnone]; exact hpositive) hbytes
    | batching =>
        have hfill : 0 < s.batch.length ∧ s.batch.length < settings.batchCapacity := by
          rwa [Ready, hmode] at hready
        have hoffer := account.offerBatch drives hreach hfill.1 (Nat.le_of_lt hfill.2)
        cases e with
        | expired =>
            simp only [step, hmode, Option.some.injEq] at hstep
            subst hstep
            exact hoffer.quiet hexpired
        | failed =>
            simp only [step, hmode, Option.some.injEq] at hstep
            subst hstep
            exact Or.inr ⟨⟨_, rfl⟩, Or.inl ⟨.failed, by simp, id⟩⟩
        | received bytes =>
            simp only [step, hmode, Option.some.injEq] at hstep
            subst hstep
            by_cases hbytes : bytes = []
            · subst hbytes
              exact hoffer.quiet hempty
            · rw [if_neg hbytes]
              exact account.receive drives hreach hfill.2 hbytes
  · cases e <;> simp [step, hstopped] at hstep

/-- In every run everything is accounted for. -/
theorem serving_run (drives : Drives engine Reach Step) (hpositive : 0 < settings.batchCapacity)
    (hreach : Reach start) {events : List TunEvent}
    (run : (packetd engine settings start).Run events s) :
    Serving Reach Step settings start events s := by
  refine run.invariant (I := Serving Reach Step settings start) ?_
    (fun past s e s' h hstep => h.next drives hpositive hstep)
  refine Or.inl ⟨rfl, hreach, [], .start, rfl, rfl, ?_, Nat.zero_le _, rfl, rfl, rfl, rfl,
    Nat.zero_le _⟩
  intro batch hmem
  cases hmem

/-- The loop has not stopped. -/
def State.Running (s : State σ) : Prop :=
  ∀ outcome, s.mode ≠ .stopped outcome

/-- The loop stops for cause. -/
theorem Serving.stopped (h : Serving Reach Step settings start past s) {outcome : Outcome Unit}
    (hstopped : s.mode = .stopped outcome) :
    (∃ message, outcome = .err message) ∧
      ((∃ e ∈ past, ¬ Harmless e) ∨ ∃ log, SendRefused Step settings start past s log) := by
  rcases h with ⟨hready, -⟩ | ⟨⟨message, hmode⟩, hreason⟩
  · rw [Ready, hstopped] at hready
    exact hready.elim
  · rw [hstopped] at hmode
    cases hmode
    exact ⟨⟨message, rfl⟩, hreason⟩

theorem Serving.account (h : Serving Reach Step settings start past s) (hrunning : s.Running) :
    Ready settings.batchCapacity s ∧ Reach s.engine ∧
      ∃ log, Account Step settings.batchCapacity start log past s := by
  rcases h with haccount | ⟨⟨message, hstopped⟩, -⟩
  · exact haccount
  · exact absurd hstopped (hrunning (.err message))

/-- A device that takes everything whole refuses nothing. -/
theorem not_refuses (hwhole : ∀ sent bytes, settings.send sent bytes = some bytes.length)
    (sent responses : List (List UInt8)) : ¬ Refuses settings.send sent responses := by
  rintro ⟨before, response, after, -, hrefused⟩
  exact hrefused (hwhole _ _)

/-- On such a device the loop goes on for packets that fit. -/
theorem Serving.running (h : Serving Reach Step settings start past s)
    (hwhole : ∀ sent bytes, settings.send sent bytes = some bytes.length)
    (hharmless : ∀ e ∈ past, Harmless e) : s.Running := by
  intro outcome hmode
  rcases (h.stopped hmode).2 with ⟨e, hmem, hbad⟩ | ⟨log, refused⟩
  · exact hbad (hharmless e hmem)
  · obtain ⟨state', deliveries, -, hrefuses⟩ := refused.refused
    exact not_refuses hwhole _ _ hrefuses

/-- The reads that deliver some packets. -/
def deliveredReads (packets : List RawPacket) : List TunEvent :=
  packets.map fun packet => .received packet.bytes

theorem harmless_deliveredReads (packets : List RawPacket) :
    ∀ e ∈ deliveredReads packets, Harmless e := by
  intro e hmem
  obtain ⟨packet, -, rfl⟩ := List.mem_map.mp hmem
  exact packet.length_le

/-- On such a device every list of packets can be received. -/
theorem run_delivered (drives : Drives engine Reach Step) (hpositive : 0 < settings.batchCapacity)
    (hreach : Reach start) (hwhole : ∀ sent bytes, settings.send sent bytes = some bytes.length)
    (packets : List RawPacket) :
    ∃ s, (packetd engine settings start).Run (deliveredReads packets) s ∧ s.Running := by
  induction packets using List.reverseRecOn with
  | nil => exact ⟨_, rfl, fun outcome h => by cases h⟩
  | append_singleton packets packet ih =>
      obtain ⟨s, run, hrunning⟩ := ih
      obtain ⟨s', hstep⟩ : ∃ s', step engine settings s (.received packet.bytes) = some s' := by
        cases hmode : s.mode with
        | stopped outcome => exact absurd hmode (hrunning outcome)
        | idle => simp [step, hmode]
        | batching => simp [step, hmode]
      have hnext : (packetd engine settings start).Run (deliveredReads (packets ++ [packet])) s' := by
        rw [deliveredReads, List.map_append]
        exact run.append (EventMachine.after_cons.mpr ⟨s', hstep, rfl⟩)
      exact ⟨s', hnext, (serving_run drives hpositive hreach hnext).running hwhole
        (harmless_deliveredReads _)⟩

end Serving

end Daemon
end Packet
end Gput
