import Gput.Batcher.Returns
import Gput.Http.Processor
import Gput.Server.Session

/-!
# The server

`network::serve` and everything that runs beside it: the accept loop with its
permits, a task for each connection, and the batcher with its processor.  An event
is one step of one of them.  The server is put together from machines that are
studied alone: every connection is a part of it (`session_part`), and so is the
batcher (`batcher_part`).  A batch on which the processor panics has no event here: neither
backend panics on a batch of the server (`cpu_answers`, `gpu_answers`), and
`Server.Panic` follows one that does.
-/

namespace Gput
namespace Server

open Http
open Batcher (Job BatchResult)

/-- The trait `Processor`: a batch changes the processor and comes to an outcome. -/
structure Processor (σ : Type) where
  processBatch : σ → List (List UInt8) → σ × Outcome (List (List UInt8))

/-- What the worker sees of an outcome. -/
def outcomeOf : BatchResult → Outcome (List (List UInt8))
  | .ok responses => .ok responses
  | .err message => .err message

/-- The `BatcherConfig` of `serve`. -/
def batcherConfig (config : ServerConfig) : Batcher.BatcherConfig where
  maxBatchSize := config.batchSize
  queueDepth := config.queueDepth

/-- The errors of `submit`, as the network layer sees them. -/
def submitError : Batcher.SubmitError → Http.SubmitError
  | .overloaded => .overloaded
  | .stopped => .stopped
  | .processing message => .processing message

/-- The response `handle_connection` writes for what `submit` returned. -/
def responseOf : Except Batcher.SubmitError (List UInt8) → List UInt8
  | .ok response => submitResponse (.ok response)
  | .error error => submitResponse (.error (submitError error))

structure State (σ : Type) where
  /-- The connections that were accepted, in order. -/
  sessions : List Session
  /-- What is left of `connection_slots`. -/
  permits : Nat
  listening : Bool
  batcher : Batcher.State
  device : σ

inductive Event where
  | session (connection : Nat) (event : SessionEvent)
  | batcher (event : Batcher.Event)
  /-- `serve` returns: a signal, or `accept` failed. -/
  | shutDown
deriving DecidableEq, Repr

section Step

variable {σ : Type} (config : ServerConfig) (processor : Processor σ) (s : State σ)

/-- An accepted connection gets a permit, or it is turned away. -/
def acceptStep (connection : Nat) : SessionEvent → Option (State σ)
  | .admitted =>
      if s.listening ∧ connection = s.sessions.length ∧ 0 < s.permits then
        some
          { s with
            permits := s.permits - 1
            sessions := s.sessions ++ [{ permit := true, pending := [], stage := .reading }] }
      else none
  | .refused =>
      if s.listening ∧ connection = s.sessions.length ∧ s.permits = 0 then
        some
          { s with
            sessions := s.sessions ++
              [{ permit := false, pending := [],
                 stage := .writing serviceUnavailableResponse true }] }
      else none
  | _ => none

/-- The batcher behind a step of a connection.  Tasks are dropped when the runtime
shuts down. -/
def batcherAfter : SessionEvent → Option Batcher.State
  | .submit call request => Batcher.step (batcherConfig config) s.batcher (.submit call request)
  | .respond call response =>
      if (s.batcher.calls call).result.map responseOf = some response then some s.batcher else none
  | .abandoned call =>
      if ¬ s.listening then Batcher.step (batcherConfig config) s.batcher (.abandon call) else none
  | .dropped => if ¬ s.listening then some s.batcher else none
  | _ => some s.batcher

/-- A connection takes a step; a task that ends gives its permit back. -/
def taskStep (connection : Nat) (event : SessionEvent) : Option (State σ) := do
  let session ← s.sessions[connection]?
  let session' ← session.step config.maxRequestBytes event
  let batcher ← batcherAfter config s event
  return { s with
    sessions := s.sessions.set connection session'
    permits := s.permits + (if session.permit ∧ ¬ session'.permit then 1 else 0)
    batcher := batcher }

/-- The steps of the batcher that no connection takes.  Its last handles are those of
`serve` and of the connections. -/
def workerStep (event : Batcher.Event) : Option (State σ) :=
  match event with
  | .submit _ _ | .abandon _ => none
  | .close =>
      if s.listening = false ∧ ∀ session ∈ s.sessions, session.permit = false then
        (Batcher.step (batcherConfig config) s.batcher event).map fun batcher =>
          { s with batcher := batcher }
      else none
  | .process jobs result =>
      let (device, outcome) := processor.processBatch s.device (jobs.map Job.request)
      if outcome = outcomeOf result then
        (Batcher.step (batcherConfig config) s.batcher event).map fun batcher =>
          { s with batcher := batcher, device := device }
      else none
  | _ =>
      (Batcher.step (batcherConfig config) s.batcher event).map fun batcher =>
        { s with batcher := batcher }

/-- One event. -/
def step : Event → Option (State σ)
  | .session connection .admitted => acceptStep s connection .admitted
  | .session connection .refused => acceptStep s connection .refused
  | .session connection event => taskStep config s connection event
  | .batcher event => workerStep config processor s event
  | .shutDown => if s.listening then some { s with listening := false } else none

/-- The server of a configuration. -/
def server (device : σ) : EventMachine (State σ) Event where
  start :=
    { sessions := [], permits := config.maxConnections, listening := true,
      batcher := Batcher.initial, device := device }
  step := step config processor

/-- `serve`, with the processor it has created. -/
def serve (device : σ) : Outcome (EventMachine (State σ) Event) := do
  config.validate
  let _batcher ← Batcher.spawnBatcher (batcherConfig config)
  return server config processor device

end Step

/-- Every event, with the states before and after it. -/
inductive Moves {σ : Type} (config : ServerConfig) (processor : Processor σ) (s : State σ) :
    Event → State σ → Prop
  | admitted (hlistening : s.listening = true) (hroom : 0 < s.permits) :
      Moves config processor s (.session s.sessions.length .admitted)
        { s with
          permits := s.permits - 1
          sessions := s.sessions ++ [{ permit := true, pending := [], stage := .reading }] }
  | refused (hlistening : s.listening = true) (hfull : s.permits = 0) :
      Moves config processor s (.session s.sessions.length .refused)
        { s with
          sessions := s.sessions ++
            [{ permit := false, pending := [],
               stage := .writing serviceUnavailableResponse true }] }
  | task (connection : Nat) (event : SessionEvent) (session session' : Session)
      (batcher : Batcher.State) (hsession : s.sessions[connection]? = some session)
      (hstep : session.step config.maxRequestBytes event = some session')
      (hbatcher : batcherAfter config s event = some batcher) :
      Moves config processor s (.session connection event)
        { s with
          sessions := s.sessions.set connection session'
          permits := s.permits + (if session.permit ∧ ¬ session'.permit then 1 else 0)
          batcher := batcher }
  | process (jobs : List Job) (result : BatchResult) (batcher : Batcher.State)
      (houtcome : (processor.processBatch s.device (jobs.map Job.request)).2 = outcomeOf result)
      (hstep : Batcher.step (batcherConfig config) s.batcher (.process jobs result) =
        some batcher) :
      Moves config processor s (.batcher (.process jobs result))
        { s with
          batcher := batcher
          device := (processor.processBatch s.device (jobs.map Job.request)).1 }
  | worker (event : Batcher.Event) (batcher : Batcher.State)
      (hother : ∀ jobs result, event ≠ .process jobs result)
      (hown : ∀ call request, event ≠ .submit call request ∧ event ≠ .abandon call)
      (hstep : Batcher.step (batcherConfig config) s.batcher event = some batcher) :
      Moves config processor s (.batcher event) { s with batcher := batcher }
  | shutDown : Moves config processor s .shutDown { s with listening := false }

section Moves

variable {σ : Type} {config : ServerConfig} {processor : Processor σ} {s s' : State σ}

theorem moves_of_taskStep {connection : Nat} {event : SessionEvent}
    (h : taskStep config s connection event = some s') :
    Moves config processor s (.session connection event) s' := by
  obtain ⟨session, hsession, h⟩ := Option.bind_eq_some_iff.mp h
  obtain ⟨session', hstep, h⟩ := Option.bind_eq_some_iff.mp h
  obtain ⟨batcher, hbatcher, h⟩ := Option.bind_eq_some_iff.mp h
  cases h
  exact .task connection event session session' batcher hsession hstep hbatcher

theorem moves_of_workerStep {event : Batcher.Event}
    (h : workerStep config processor s event = some s') :
    Moves config processor s (.batcher event) s' := by
  cases event with
  | submit | abandon => cases h
  | close =>
      obtain ⟨-, h⟩ := Option.ite_none_right_eq_some.mp h
      obtain ⟨batcher, hstep, rfl⟩ := Option.map_eq_some_iff.mp h
      exact .worker _ batcher (by simp) (by simp) hstep
  | process jobs result =>
      obtain ⟨houtcome, h⟩ := Option.ite_none_right_eq_some.mp h
      obtain ⟨batcher, hstep, rfl⟩ := Option.map_eq_some_iff.mp h
      exact .process jobs result batcher houtcome hstep
  | _ =>
      obtain ⟨batcher, hstep, rfl⟩ := Option.map_eq_some_iff.mp h
      exact .worker _ batcher (by simp) (by simp) hstep

theorem moves_of_serverStep {event : Event} (h : step config processor s event = some s') :
    Moves config processor s event s' := by
  cases event with
  | session connection event =>
      cases event with
      | admitted =>
          obtain ⟨⟨hlistening, rfl, hroom⟩, hnext⟩ := Option.ite_none_right_eq_some.mp h
          cases hnext
          exact .admitted hlistening hroom
      | refused =>
          obtain ⟨⟨hlistening, rfl, hfull⟩, hnext⟩ := Option.ite_none_right_eq_some.mp h
          cases hnext
          exact .refused hlistening hfull
      | _ => exact moves_of_taskStep h
  | batcher event => exact moves_of_workerStep h
  | shutDown =>
      obtain ⟨-, h⟩ := Option.ite_none_right_eq_some.mp h
      cases h
      exact .shutDown

end Moves

/-- The events of one connection. -/
def sessionEvent (connection : Nat) : Event → Option SessionEvent
  | .session other event => if other = connection then some event else none
  | _ => none

/-- The events of the batcher. -/
def batcherEvent : Event → Option Batcher.Event
  | .session _ (.submit call request) => some (.submit call request)
  | .session _ (.abandoned call) => some (.abandon call)
  | .session _ _ => none
  | .batcher event => some event
  | .shutDown => none

/-- What a connection did. -/
def sessionEvents (connection : Nat) (events : List Event) : List SessionEvent :=
  events.filterMap (sessionEvent connection)

/-- What the batcher did. -/
def batcherEvents (events : List Event) : List Batcher.Event :=
  events.filterMap batcherEvent

section Parts

variable {σ : Type} {config : ServerConfig} {processor : Processor σ} {device : σ}

/-- No step is taken by a connection that has not been accepted. -/
theorem not_accept_of_step {maxRequestBytes : Nat} {session session' : Session}
    {event : SessionEvent} (h : session.step maxRequestBytes event = some session') :
    sessionStep maxRequestBytes (some session) event = some (some session') := by
  rw [sessionStep, h]
  rfl

/-- Every connection is a part of the server. -/
theorem session_part (connection : Nat) :
    EventMachine.Part (server config processor device) (sessionMachine config.maxRequestBytes)
      (fun s => s.sessions[connection]?) (sessionEvent connection) where
  start := rfl
  moves := by
    intro s s' e d hstep hevent
    cases moves_of_serverStep hstep with
    | admitted | refused =>
        obtain ⟨rfl, hd⟩ := Option.ite_none_right_eq_some.mp hevent
        cases hd
        simp only
        rw [List.getElem?_concat_length, List.getElem?_eq_none (Nat.le_refl _)]
        rfl
    | task other event session session' batcher hsession hmoves _ =>
        obtain ⟨rfl, hd⟩ := Option.ite_none_right_eq_some.mp hevent
        cases hd
        simp only
        rw [hsession, List.getElem?_set_self (List.getElem?_eq_some_iff.mp hsession).1]
        exact not_accept_of_step hmoves
    | process | worker | shutDown => cases hevent
  rests := by
    intro s s' e hstep hevent
    cases moves_of_serverStep hstep with
    | admitted | refused =>
        have hother : s.sessions.length ≠ connection := by
          simpa [sessionEvent] using hevent
        simp only
        rcases Nat.lt_or_ge connection s.sessions.length with hlt | hge
        · exact List.getElem?_append_left hlt
        · rw [List.getElem?_eq_none hge, List.getElem?_eq_none]
          rw [List.length_append, List.length_singleton]
          omega
    | task other event session session' batcher hsession _ _ =>
        have hother : other ≠ connection := by
          simpa [sessionEvent] using hevent
        exact List.getElem?_set_ne hother
    | process | worker | shutDown => rfl

/-- The batcher is a part of the server. -/
theorem batcher_part :
    EventMachine.Part (server config processor device) (Batcher.batcher (batcherConfig config))
      State.batcher batcherEvent where
  start := rfl
  moves := by
    intro s s' e d hstep hevent
    cases moves_of_serverStep hstep with
    | admitted | refused | shutDown => cases hevent
    | task other event session session' batcher _ _ hbatcher =>
        cases event with
        | submit call request =>
            cases hevent
            exact hbatcher
        | abandoned call =>
            cases hevent
            exact (Option.ite_none_right_eq_some.mp hbatcher).2
        | _ => cases hevent
    | process jobs result batcher _ hmoves =>
        cases hevent
        exact hmoves
    | worker event batcher _ _ hmoves =>
        cases hevent
        exact hmoves
  rests := by
    intro s s' e hstep hevent
    cases moves_of_serverStep hstep with
    | admitted | refused | shutDown => rfl
    | task other event session session' batcher _ _ hbatcher =>
        cases event with
        | submit | abandoned => cases hevent
        | respond call response =>
            exact (Option.some.inj (Option.ite_none_right_eq_some.mp hbatcher).2).symm
        | dropped => exact (Option.some.inj (Option.ite_none_right_eq_some.mp hbatcher).2).symm
        | _ => exact (Option.some.inj hbatcher).symm
    | process | worker => cases hevent

end Parts

end Server
end Gput
