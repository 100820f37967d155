import Gput.Batcher.Panic
import Gput.Server.Progress

/-!
# A server whose processor panics

The panic ends the worker and nothing else (`Batcher.Panic`): the accept loop and the
connections go on, and their calls learn that the worker has stopped.  A request that no
answer was sent to is then answered with `500 Internal Server Error`, and so is every
request that comes later.
-/

namespace Gput
namespace Server

open Http
open Batcher (Job Phase)

structure PanicState (σ : Type) where
  server : State σ
  phase : Phase

inductive PanicEvent where
  | event (e : Event)
  /-- The processor panics on the batch it was given. -/
  | panic
  /-- The receiver is dropped. -/
  | unwound
  /-- A call learns that its job was dropped. -/
  | lost (call : Nat)
deriving DecidableEq, Repr

section Step

variable {σ : Type}

/-- What the batcher is in. -/
def PanicState.batcher (s : PanicState σ) : Batcher.PanicState where
  batcher := s.server.batcher
  phase := s.phase

def PanicState.withBatcher (s : PanicState σ) (b : Batcher.PanicState) : PanicState σ where
  server := { s.server with batcher := b.batcher }
  phase := b.phase

variable (config : ServerConfig) (processor : Processor σ) (discards : Bool) (s : PanicState σ)

/-- The end of the worker, and what its callers learn of it. -/
def endStep (e : Batcher.PanicEvent) : Option (PanicState σ) :=
  (Batcher.panicStep (batcherConfig config) discards s.batcher e).map s.withBatcher

def panicStep : PanicEvent → Option (PanicState σ)
  | .event e =>
      if s.phase = .running ∨ e.isWorker = false then
        (step config processor s.server e).map fun server => { s with server := server }
      else none
  | .panic =>
      match s.server.batcher.worker with
      | .processing jobs =>
          if (processor.processBatch s.server.device (jobs.map Job.request)).2 = .panic then
            endStep config discards s .panic
          else none
      | _ => none
  | .unwound => endStep config discards s .unwound
  | .lost call => endStep config discards s (.lost call)

/-- The server of a configuration, on a processor that may panic. -/
def panicking (device : σ) : EventMachine (PanicState σ) PanicEvent where
  start := { server := (server config processor device).start, phase := .running }
  step := panicStep config processor discards

end Step

def plainEvent : PanicEvent → Option Event
  | .event e => some e
  | _ => none

/-- The events of the server. -/
def plain (events : List PanicEvent) : List Event :=
  events.filterMap plainEvent

def batcherPanicEvent : PanicEvent → Option Batcher.PanicEvent
  | .event e => (batcherEvent e).map .event
  | .panic => some .panic
  | .unwound => some .unwound
  | .lost call => some (.lost call)

/-- The events of the batcher. -/
def batcherPanicEvents (events : List PanicEvent) : List Batcher.PanicEvent :=
  events.filterMap batcherPanicEvent

theorem plain_append (first second : List PanicEvent) :
    plain (first ++ second) = plain first ++ plain second :=
  List.filterMap_append

/-- The batcher of the server sees the same plain events. -/
theorem plain_batcherPanicEvents (events : List PanicEvent) :
    Batcher.plain (batcherPanicEvents events) = batcherEvents (plain events) := by
  unfold Batcher.plain batcherPanicEvents batcherEvents plain
  rw [List.filterMap_filterMap, List.filterMap_filterMap]
  congr 1
  funext e
  cases e with
  | event e => cases h : batcherEvent e <;> simp [batcherPanicEvent, plainEvent, h]
  | panic | unwound | lost => rfl

section Parts

variable {σ : Type} {config : ServerConfig} {processor : Processor σ} {discards : Bool} {device : σ}
  {events : List PanicEvent} {s s' : PanicState σ} {e : PanicEvent}

/-- A step is one of the server, or it ends the worker and touches the batcher only. -/
theorem panicStep_cases (hstep : panicStep config processor discards s e = some s') :
    (∃ d, e = .event d ∧ (s.phase = .running ∨ d.isWorker = false) ∧
      step config processor s.server d = some s'.server ∧ s'.phase = s.phase) ∨
    ∃ d, plainEvent e = none ∧ batcherPanicEvent e = some d ∧ (∀ event, d ≠ .event event) ∧
      Batcher.panicStep (batcherConfig config) discards s.batcher d = some s'.batcher ∧
      s'.server = { s.server with batcher := s'.server.batcher } := by
  have ends {d : Batcher.PanicEvent} (hend : endStep config discards s d = some s') :
      Batcher.panicStep (batcherConfig config) discards s.batcher d = some s'.batcher ∧
        s'.server = { s.server with batcher := s'.server.batcher } := by
    obtain ⟨b, hb, rfl⟩ := Option.map_eq_some_iff.mp hend
    exact ⟨hb, rfl⟩
  cases e with
  | event d =>
      obtain ⟨hworks, hstep⟩ := Option.ite_none_right_eq_some.mp hstep
      obtain ⟨t, ht, rfl⟩ := Option.map_eq_some_iff.mp hstep
      exact Or.inl ⟨d, rfl, hworks, ht, rfl⟩
  | panic =>
      simp only [panicStep] at hstep
      split at hstep
      · obtain ⟨-, hstep⟩ := Option.ite_none_right_eq_some.mp hstep
        exact Or.inr ⟨.panic, rfl, rfl, by simp, ends hstep⟩
      · cases hstep
  | unwound => exact Or.inr ⟨.unwound, rfl, rfl, by simp, ends hstep⟩
  | lost call => exact Or.inr ⟨.lost call, rfl, rfl, by simp, ends hstep⟩

theorem panicStep_event {d : Event} (hworker : d.isWorker = false) {t : State σ}
    (hstep : step config processor s.server d = some t) :
    panicStep config processor discards s (.event d) = some { s with server := t } := by
  simp [panicStep, hworker, hstep]

/-- The worker of the batcher is that of the server. -/
theorem isWorker_of_batcherEvent {e : Event} {d : Batcher.Event} (h : batcherEvent e = some d)
    (hworker : e.isWorker = false) : d.isWorker = false := by
  cases e with
  | session connection event =>
      cases event <;> cases h <;> rfl
  | batcher event =>
      cases h
      exact hworker
  | shutDown => cases h

theorem panic_batcher_part :
    EventMachine.Part (panicking config processor discards device)
      (Batcher.panicking (batcherConfig config) discards) PanicState.batcher
      batcherPanicEvent where
  start := rfl
  moves := by
    intro s s' e d hstep hevent
    rcases panicStep_cases hstep with ⟨own, rfl, hworks, hserver, hphase⟩ |
      ⟨other, -, hother, -, hbatcher, -⟩
    · obtain ⟨event, hown, rfl⟩ := Option.map_eq_some_iff.mp hevent
      have hmoves := (@batcher_part σ config processor device).moves hserver hown
      have hworks' : s.batcher.phase = .running ∨ event.isWorker = false :=
        hworks.imp_right (isWorker_of_batcherEvent hown)
      have hbatcher : Batcher.step (batcherConfig config) s.batcher.batcher event =
          some s'.server.batcher := hmoves
      show Batcher.panicStep (batcherConfig config) discards s.batcher (.event event) = _
      rw [Batcher.panicStep, if_pos hworks', hbatcher]
      simp [PanicState.batcher, hphase]
    · cases hother.symm.trans hevent
      exact hbatcher
  rests := by
    intro s s' e hstep hevent
    rcases panicStep_cases hstep with ⟨own, rfl, -, hserver, hphase⟩ | ⟨_, -, hother, -⟩
    · have hrests := (@batcher_part σ config processor device).rests hserver
        (Option.map_eq_none_iff.mp hevent)
      simp only [PanicState.batcher, hphase]
      rw [hrests]
    · rw [hother] at hevent
      cases hevent

theorem panic_session_part (connection : Nat) :
    EventMachine.Part (panicking config processor discards device)
      (sessionMachine config.maxRequestBytes) (fun s => s.server.sessions[connection]?)
      (fun e => (plainEvent e).bind (sessionEvent connection)) where
  start := rfl
  moves := by
    intro s s' e d hstep hevent
    rcases panicStep_cases hstep with ⟨own, rfl, -, hserver, -⟩ | ⟨_, hplain, -⟩
    · exact (@session_part σ config processor device connection).moves hserver hevent
    · rw [hplain] at hevent
      cases hevent
  rests := by
    intro s s' e hstep hevent
    rcases panicStep_cases hstep with ⟨own, rfl, -, hserver, -⟩ | ⟨_, -, -, -, -, hsame⟩
    · exact (@session_part σ config processor device connection).rests hserver hevent
    · rw [hsame]

end Parts

/-- The steps of a connection that waits, and of its call. -/
def PanicEvent.isOf (connection call : Nat) : PanicEvent → Bool
  | .event (.batcher moved) => (Batcher.PanicEvent.event moved).isOf call
  | .event (.session other (.respond answered _)) => other = connection ∧ answered = call
  | .lost other => other = call
  | _ => false

section Runs

variable {σ : Type} {config : ServerConfig} {processor : Processor σ} {discards : Bool} {device : σ}
  {events : List PanicEvent} {s s' : PanicState σ}

/-- What the server keeps, panic or not. -/
structure Kept (config : ServerConfig) (events : List PanicEvent) (s : PanicState σ) : Prop where
  permits : s.server.permits + s.server.sessions.countP Session.permit = config.maxConnections
  apart : Apart (plain events) s.server
  own : ∀ call request, .batcher (.submit call request) ∉ plain events

theorem kept_run (run : (panicking config processor discards device).Run events s) :
    Kept config events s := by
  refine @EventMachine.Run.invariant _ _ (panicking config processor discards device)
    (Kept config)
    ⟨Nat.add_zero _, @apart_start σ config processor device,
      fun _ _ hmem => absurd hmem List.not_mem_nil⟩ ?_ events s run
  intro past s e s' h hstep
  rcases panicStep_cases hstep with ⟨own, rfl, -, hserver, -⟩ |
    ⟨d, hplain, -, hpanic, hbatcher, hsame⟩
  · have hsnoc : plain (past ++ [.event own]) = plain past ++ [own] := plain_append _ _
    refine ⟨(balance_step hserver).trans h.permits, hsnoc ▸ h.apart.next hserver, ?_⟩
    intro call request hmem
    rw [hsnoc] at hmem
    rcases List.mem_append.mp hmem with hmem | hmem
    · exact h.own call request hmem
    · cases List.mem_singleton.mp hmem
      cases hserver
  · have hquiet : plain (past ++ [e]) = plain past := by
      rw [plain_append]
      simp [plain, hplain]
    refine ⟨?_, ?_, hquiet ▸ h.own⟩
    · rw [hsame]
      exact h.permits
    · rw [hquiet]
      exact h.apart.frame (by rw [hsame]) (Batcher.call_of_panic (Batcher.moves_of_panicStep hbatcher)
        hpanic)

/-- Before the panic this is the server. -/
theorem plain_run (run : (panicking config processor discards device).Run events s)
    (hphase : s.phase = .running) :
    (server config processor device).Run (plain events) s.server := by
  refine @EventMachine.Run.invariant _ _ (panicking config processor discards device)
    (fun past s => s.phase = .running → (server config processor device).Run (plain past) s.server)
    (fun _ => rfl) ?_ events s run hphase
  intro past s e s' h hstep hphase
  rcases panicStep_cases hstep with ⟨own, rfl, -, hserver, hsame⟩ | ⟨d, -, -, hpanic, hbatcher, -⟩
  · have hsnoc : plain (past ++ [.event own]) = plain past ++ [own] := plain_append _ _
    rw [hsnoc]
    exact (h (hsame.symm.trans hphase)).append (EventMachine.after_cons.mpr ⟨_, hserver, rfl⟩)
  · exact absurd hphase (Batcher.phase_of_panic (Batcher.moves_of_panicStep hbatcher) hpanic)

theorem panic_conversation (run : (panicking config processor discards device).Run events s)
    (connection : Nat) :
    Conversation config.maxRequestBytes (sessionEvents connection (plain events))
      s.server.sessions[connection]? := by
  have hrun := (panic_session_part connection).run run
  have hevents : sessionEvents connection (plain events) =
      events.filterMap fun e => (plainEvent e).bind (sessionEvent connection) :=
    List.filterMap_filterMap
  rw [hevents]
  exact conversation_run hrun

/-- A response to a request: what the batcher returned for it, or behind the panic, where
no answer was sent, that something went wrong. -/
def AnsweredOrStopped (events : List PanicEvent) (s : PanicState σ) (call : Nat)
    (request response : List UInt8) : Prop :=
  Answered (plain events) call request response ∨
    response = internalServerErrorResponse ∧ s.phase ≠ .running ∧
      call ∉ (Batcher.replies (batcherEvents (plain events))).map Prod.fst

theorem answeredOrStopped
    (settles : Batcher.Settles (batcherConfig config) discards (batcherPanicEvents events)
      s.batcher) (kept : Kept config events s) {connection other call : Nat}
    {request response : List UInt8}
    (hsubmit : .session connection (.submit call request) ∈ plain events)
    (hrespond : .session other (.respond call response) ∈ plain events) :
    AnsweredOrStopped events s call request response := by
  obtain ⟨result, hresult, rfl⟩ := kept.apart.returned hrespond
  have hsubmitted := (mem_submitted kept.own).mpr ⟨connection, hsubmit⟩
  rw [← plain_batcherPanicEvents] at hsubmitted
  have hreturned := settles.returned call request result hsubmitted hresult
  rw [plain_batcherPanicEvents] at hreturned
  rcases hreturned with hreturned | ⟨rfl, hphase, hreplied⟩
  · exact Or.inl ⟨result, hreturned, rfl⟩
  · exact Or.inr ⟨rfl, hphase, hreplied⟩

/-- A step of a call is one of the server. -/
theorem call_isOf {connection call : Nat} {e : Batcher.PanicEvent} {b : Batcher.PanicState}
    (hown : e.isOf call = true)
    (hstep : Batcher.panicStep (batcherConfig config) discards s.batcher e = some b) :
    ∃ own, PanicEvent.isOf connection call own = true ∧
      panicStep config processor discards s own = some (s.withBatcher b) := by
  cases e with
  | event event =>
      obtain ⟨hworks, hstep⟩ := Option.ite_none_right_eq_some.mp hstep
      obtain ⟨t, ht, rfl⟩ := Option.map_eq_some_iff.mp hstep
      have hcaller : event.isWorker = false ∧
          workerStep config processor s.server event =
            some { s.server with batcher := t } := by
        cases event with
        | disconnect | countAccepted | countRejected | receiveReply =>
            exact ⟨rfl, Option.map_eq_some_iff.mpr ⟨t, ht, rfl⟩⟩
        | _ => cases hown
      exact ⟨.event (.batcher event), hown,
        @panicStep_event σ config processor discards s (.batcher event) hcaller.1 _ hcaller.2⟩
  | lost other => exact ⟨.lost other, hown, Option.map_eq_some_iff.mpr ⟨b, hstep, rfl⟩⟩
  | panic | unwound => cases hown

theorem call_after {connection call : Nat} {more : List Batcher.PanicEvent}
    {b : Batcher.PanicState} (hown : ∀ e ∈ more, e.isOf call = true)
    (hmore : (Batcher.panicking (batcherConfig config) discards).after s.batcher more = some b) :
    ∃ own, own.length = more.length ∧ (∀ e ∈ own, PanicEvent.isOf connection call e = true) ∧
      (panicking config processor discards device).after s own = some (s.withBatcher b) := by
  induction more generalizing s with
  | nil =>
      cases hmore
      exact ⟨[], rfl, fun _ hmem => absurd hmem List.not_mem_nil, rfl⟩
  | cons e more ih =>
      obtain ⟨hfirst, hrest⟩ := List.forall_mem_cons.mp hown
      obtain ⟨t, hstep, hafter⟩ := EventMachine.after_cons.mp hmore
      obtain ⟨first, hfirst, hmoves⟩ :=
        @call_isOf _ config processor _ s connection _ _ _ hfirst hstep
      obtain ⟨own, hlength, hrest, hafter⟩ := @ih (s.withBatcher t) hrest hafter
      exact ⟨first :: own, congrArg Nat.succ hlength, List.forall_mem_cons.mpr ⟨hfirst, hrest⟩,
        EventMachine.after_cons.mpr ⟨_, hmoves, hafter⟩⟩

/-- The connection has its response within some steps of its own. -/
def Responds (machine : EventMachine (PanicState σ) PanicEvent) (s : PanicState σ)
    (connection call count : Nat) (closeAfterResponse : Bool) : Prop :=
  ∃ own s' session left, own.length ≤ count ∧
    (∀ e ∈ own, PanicEvent.isOf connection call e = true) ∧ machine.after s own = some s' ∧
    s'.server.sessions[connection]? = some session ∧
    session.stage = .writing left closeAfterResponse

theorem responds_of_result {connection call : Nat} {session : Session} {closeAfterResponse : Bool}
    {result : Except Batcher.SubmitError (List UInt8)}
    (hsession : s.server.sessions[connection]? = some session)
    (hstage : session.stage = .submitting call closeAfterResponse)
    (hresult : (s.server.batcher.calls call).result = some result) :
    Responds (panicking config processor discards device) s connection call 1
      closeAfterResponse := by
  obtain ⟨t, session', left, hstep, hsession', hstage'⟩ :=
    @respond_step σ config processor s.server connection call session closeAfterResponse result
      hsession hstage hresult
  refine ⟨[.event (.session connection (.respond call (responseOf result)))],
    { s with server := t }, session', left, Nat.le_refl 1, fun e hmem => ?_,
    EventMachine.after_cons.mpr
      ⟨_, @panicStep_event σ config processor discards s _ rfl t hstep, rfl⟩, hsession', hstage'⟩
  rw [List.mem_singleton.mp hmem]
  simp [PanicEvent.isOf]

/-- Once the worker is gone, a connection that waits has its response in three steps,
unless its job is still in the channel. -/
theorem responds_of_gone
    (settles : Batcher.Settles (batcherConfig config) discards (batcherPanicEvents events)
      s.batcher) (kept : Kept config events s) (hgone : s.phase = .gone) {connection call : Nat}
    {session : Session} {closeAfterResponse : Bool}
    (hsession : s.server.sessions[connection]? = some session)
    (hstage : session.stage = .submitting call closeAfterResponse)
    (hqueue : discards = false → call ∉ s.server.batcher.queue.map Job.reply) :
    Responds (panicking config processor discards device) s connection call 3
      closeAfterResponse := by
  obtain ⟨⟨request, hsubmit⟩, hkept⟩ := kept.apart.waits hsession hstage
  have hbegun := kept.apart.begun hsubmit
  by_cases hprogress : (s.server.batcher.calls call).inProgress = true
  · obtain ⟨more, b, hlength, hown, hmore, hresult⟩ := settles.ends hgone call hprogress hqueue
    obtain ⟨result, hresult⟩ := Option.isSome_iff_exists.mp hresult
    obtain ⟨own, hsame, hisOf, hafter⟩ :=
      @call_after σ config processor discards device s connection call more b hown hmore
    obtain ⟨last, s', session', left, hone, hlast, hreached, hsession', hstage'⟩ :=
      @responds_of_result σ config processor discards device (s.withBatcher b) connection call
        session closeAfterResponse result hsession hstage hresult
    refine ⟨own ++ last, s', session', left, ?_, ?_, ?_, hsession', hstage'⟩
    · rw [List.length_append]
      omega
    · exact fun e hmem => (List.mem_append.mp hmem).elim (hisOf e) (hlast e)
    · exact (EventMachine.after_append hafter).trans hreached
  · obtain ⟨result, hresult⟩ : ∃ result, (s.server.batcher.calls call).result = some result := by
      cases hcall : s.server.batcher.calls call <;>
        simp_all [Batcher.Call.result, Batcher.Call.inProgress]
    obtain ⟨own, s', session', left, hone, h⟩ :=
      @responds_of_result σ config processor discards device s connection call session
        closeAfterResponse result hsession hstage hresult
    exact ⟨own, s', session', left, by omega, h⟩

/-- A connection that arrives is admitted or turned away. -/
theorem accepts_step (hlistening : s.server.listening = true) :
    ∃ s', panicStep config processor discards s
      (.event (.session s.server.sessions.length
        (if 0 < s.server.permits then .admitted else .refused))) = some s' := by
  split
  · next hroom =>
      have hstep : step config processor s.server (.session s.server.sessions.length .admitted) =
          some _ := if_pos ⟨hlistening, rfl, hroom⟩
      exact ⟨_, panicStep_event rfl hstep⟩
  · next hfull =>
      have hstep : step config processor s.server (.session s.server.sessions.length .refused) =
          some _ := if_pos ⟨hlistening, rfl, Nat.eq_zero_of_not_pos hfull⟩
      exact ⟨_, panicStep_event rfl hstep⟩

/-- What a server promises on a processor that may panic. -/
structure Survives (config : ServerConfig) (processor : Processor σ) (discards : Bool)
    (device : σ) (events : List PanicEvent) (s : PanicState σ) : Prop where
  /-- Before the panic this is the server. -/
  running : s.phase = .running → (server config processor device).Run (plain events) s.server
  permits : s.server.permits + s.server.sessions.countP Session.permit = config.maxConnections
  /-- It goes on accepting: with a permit, or with the word that there is none. -/
  accepts : s.server.listening = true → ∃ s', panicStep config processor discards s
    (.event (.session s.server.sessions.length
      (if 0 < s.server.permits then .admitted else .refused))) = some s'
  batcher : Batcher.Settles (batcherConfig config) discards (batcherPanicEvents events) s.batcher
  connections : ∀ connection session, s.server.sessions[connection]? = some session →
    ((sessionEvents connection (plain events)).head? = some .admitted ∧
      ServedInOrder config (plain events) connection session ∧
      ∀ (i call : Nat) (response : List UInt8),
        (responses (sessionEvents connection (plain events)))[i]? = some (call, response) →
        ∃ request,
          (submits (sessionEvents connection (plain events)))[i]? = some (call, request) ∧
          AnsweredOrStopped events s call request response) ∨
    ((sessionEvents connection (plain events)).head? = some .refused ∧
      TurnedAway (plain events) connection)
  apart : ∀ connection other call request request',
    .session connection (.submit call request) ∈ plain events →
    .session other (.submit call request') ∈ plain events → connection = other
  /-- Once the worker is gone, no connection waits for nothing. -/
  responds : s.phase = .gone → ∀ connection session call closeAfterResponse,
    s.server.sessions[connection]? = some session →
    session.stage = .submitting call closeAfterResponse →
    (discards = false → call ∉ s.server.batcher.queue.map Job.reply) →
    Responds (panicking config processor discards device) s connection call 3 closeAfterResponse
  /-- Then every new request is answered with an error. -/
  late : s.phase = .gone → ∀ call, s.server.batcher.calls call = .idle →
    ∀ more s', (panicking config processor discards device).after s more = some s' →
    ∀ connection response, .session connection (.respond call response) ∈ plain (events ++ more) →
    response = internalServerErrorResponse

/-- **A server outlives its worker.**  When the processor panics, the accept loop and the
connections go on as before.  Each connection is told the responses to its own requests in
their order: what the batcher returned for the request, or, behind the panic and only
where no answer was sent, `500 Internal Server Error`.  Once the worker is gone, every
connection that waits has its response within three steps unless its job was left in the
channel, and every later request is answered with `500`. -/
theorem panic_survived (hserve : serve config processor device =
      .ok (server config processor device))
    (run : (panicking config processor discards device).Run events s) :
    Survives config processor discards device events s := by
  have kept := kept_run run
  have settles := Batcher.panic_settles (batchSize_pos hserve).1 (panic_batcher_part.run run)
  refine ⟨plain_run run, kept.permits, accepts_step, settles, ?_, fun _ _ _ _ _ h h' => kept.apart.own h h',
    fun hgone _ _ _ _ hsession hstage hqueue =>
      responds_of_gone settles kept hgone hsession hstage hqueue, ?_⟩
  · intro connection session hsession
    have hconversation := panic_conversation run connection
    rw [hsession] at hconversation
    refine (served_or_away hconversation).imp_left fun ⟨hadmitted, sound⟩ => ?_
    refine ⟨hadmitted, servedInOrder_of_sound sound, ?_⟩
    intro i call response hi
    obtain ⟨request, hrequest⟩ := sound.stage.told.call_at hi
    exact ⟨request, hrequest, answeredOrStopped settles kept
      (mem_submits.mp (List.mem_of_getElem? hrequest))
      (mem_responses.mp (List.mem_of_getElem? hi))⟩
  · intro hgone call hidle more s' hmore connection response hmem
    obtain ⟨result, hresult, rfl⟩ := (kept_run (run.append hmore)).apart.returned hmem
    obtain rfl := settles.late hgone call hidle _ _ (panic_batcher_part.after hmore) result hresult
    rfl

end Runs

def brokenRequest : List UInt8 := [88, 13, 10, 13, 10]

/-- A processor that panics when it is given that request, and answers others with
themselves. -/
def fragile : Processor Unit where
  processBatch device requests :=
    (device, if requests = [brokenRequest] then .panic else .ok requests)

def twoSlots : ServerConfig := { oneSlot with maxConnections := 2 }

def brokenJob : Job := { request := brokenRequest, reply := 1 }

/-- The first client is served, and the processor panics on the request of the second. -/
def workerDies : List PanicEvent :=
  [.event (.session 0 .admitted), .event (.session 1 .admitted),
    .event (.session 0 (.read shortRequest)), .event (.session 1 (.read brokenRequest)),
    .event (.session 0 (.submit 0 shortRequest)), .event (.batcher (.accept shortJob)),
    .event (.batcher .take), .event (.batcher .poll), .event (.batcher (.dispatch [shortJob])),
    .event (.session 1 (.submit 1 brokenRequest)), .event (.batcher (.accept brokenJob)),
    .event (.batcher (.process [shortJob] (.ok [shortRequest]))),
    .event (.batcher (.reply 0 (.response shortRequest))), .event (.batcher .resume),
    .event (.batcher .take), .event (.batcher .poll), .event (.batcher (.dispatch [brokenJob])),
    .panic, .event (.batcher (.countAccepted 1)), .lost 1,
    .event (.session 1 (.respond 1 internalServerErrorResponse)), .unwound]

/-- A third client takes the place of the first, too late. -/
def workerGone : List PanicEvent :=
  [.event (.batcher (.countAccepted 0)), .event (.batcher (.receiveReply 0)),
    .event (.session 0 (.respond 0 shortRequest)), .event (.session 0 (.write shortRequest)),
    .event (.session 0 .written), .event (.session 2 .admitted),
    .event (.session 2 (.read shortRequest)), .event (.session 2 (.submit 2 shortRequest)),
    .event (.batcher (.disconnect { request := shortRequest, reply := 2 })),
    .event (.session 2 (.respond 2 internalServerErrorResponse))]

set_option maxRecDepth 4000 in
theorem panic_survived_once :
    ∃ s, (panicking twoSlots fragile true ()).Run (workerDies ++ workerGone) s ∧
      s.phase = .gone ∧
      responses (sessionEvents 0 (plain (workerDies ++ workerGone))) = [(0, shortRequest)] ∧
      responses (sessionEvents 1 (plain (workerDies ++ workerGone))) =
        [(1, internalServerErrorResponse)] ∧
      responses (sessionEvents 2 (plain (workerDies ++ workerGone))) =
        [(2, internalServerErrorResponse)] ∧
      Survives twoSlots fragile true () (workerDies ++ workerGone) s := by
  obtain ⟨s, run, hgone⟩ :
      ∃ s, (panicking twoSlots fragile true ()).Run (workerDies ++ workerGone) s ∧
        s.phase = .gone := ⟨_, rfl, rfl⟩
  exact ⟨s, run, hgone, rfl, rfl, rfl, panic_survived rfl run⟩

end Server
end Gput
