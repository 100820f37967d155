import Gput.Library.EventMachine
import Gput.Library.Outcome
import Mathlib.Logic.Function.Basic

/-!
# The batcher

`batcher.rs` as a machine of interleaved events.  Any number of `submit` calls
share a bounded queue with one worker; an event is one step of one of them that
the others can see.  How long the worker waits for more jobs and what the
processor returns is left open: after an empty poll the worker may either take a
job that has arrived or close its batch, and any result may follow a batch.  The
processor returns here; `Batcher.Panic` lets it panic.
-/

namespace Gput
namespace Batcher

structure BatcherConfig where
  maxBatchSize : Nat
  queueDepth : Nat
deriving DecidableEq, Repr

/-- A queued request; `reply` names the call that waits for the answer. -/
structure Job where
  request : List UInt8
  reply : Nat
deriving DecidableEq, Repr

/-- What is sent back for a job. -/
inductive Answer where
  | response (bytes : List UInt8)
  | failed (message : String)
deriving DecidableEq, Repr

inductive SubmitError where
  | overloaded
  | stopped
  | processing (message : String)
deriving DecidableEq, Repr

/-- Where a call of `submit` stands. -/
inductive Call where
  | idle
  | ready (request : List UInt8)
  | sent
  | refused
  | waiting
  | answered (bytes : List UInt8)
  | rejected (error : SubmitError)
  | abandoned
deriving DecidableEq, Repr

/-- What `process_batch` returns. -/
inductive BatchResult where
  | ok (responses : List (List UInt8))
  | err (message : String)
deriving DecidableEq, Repr

/-- Where the worker stands: in `recv`, in the loop of `collect_jobs` before and
after an empty poll, in `process_batch`, or sending its answers. -/
inductive Worker where
  | receiving
  | collecting (jobs : List Job)
  | polled (jobs : List Job)
  | processing (jobs : List Job)
  | answering (answers : List (Nat × Answer))
  | stopped
deriving DecidableEq, Repr

structure BatcherMetrics where
  acceptedRequests : UInt64
  rejectedRequests : UInt64
  completedRequests : UInt64
  failedRequests : UInt64
  batches : UInt64
  maxBatchSeen : Nat
deriving DecidableEq, Repr

structure State where
  queue : List Job
  worker : Worker
  calls : Nat → Call
  /-- The answers that were sent and not yet received. -/
  mailbox : Nat → Option Answer
  /-- The number of calls in progress; each borrows a handle. -/
  active : Nat
  /-- Whether a handle is left. -/
  connected : Bool
  metrics : BatcherMetrics

inductive Event where
  | submit (call : Nat) (request : List UInt8)
  | accept (job : Job)
  | countAccepted (call : Nat)
  | overload (job : Job)
  | countRejected (call : Nat)
  | disconnect (job : Job)
  | receiveReply (call : Nat)
  | abandon (call : Nat)
  | close
  | take
  | poll
  | dispatch (jobs : List Job)
  | process (jobs : List Job) (result : BatchResult)
  | reply (call : Nat) (answer : Answer)
  | resume
  | stop
deriving DecidableEq, Repr

/-- The answers of `fail_batch`. -/
def failBatch (jobs : List Job) (message : String) : List (Nat × Answer) :=
  jobs.map fun job => (job.reply, .failed message)

/-- What the worker answers a batch. -/
def answersOf (jobs : List Job) : BatchResult → List (Nat × Answer)
  | .ok responses =>
      if responses.length = jobs.length then
        (jobs.zip responses).map fun answer => (answer.1.reply, .response answer.2)
      else
        failBatch jobs
          s!"processor returned {responses.length} responses for {jobs.length} requests"
  | .err message => failBatch jobs message

/-- The metrics when a batch goes to the processor. -/
def BatcherMetrics.sealed (metrics : BatcherMetrics) (jobs : List Job) : BatcherMetrics :=
  { metrics with
    batches := metrics.batches + 1
    maxBatchSeen := max metrics.maxBatchSeen jobs.length }

/-- The metrics when the processor returns. -/
def BatcherMetrics.processed (metrics : BatcherMetrics) (jobs : List Job) :
    BatchResult → BatcherMetrics
  | .ok responses =>
      if responses.length = jobs.length then
        { metrics with
          completedRequests := metrics.completedRequests + UInt64.ofNat jobs.length }
      else
        { metrics with failedRequests := metrics.failedRequests + UInt64.ofNat jobs.length }
  | .err _ =>
      { metrics with failedRequests := metrics.failedRequests + UInt64.ofNat jobs.length }

section Step

variable (config : BatcherConfig) (s : State)

/-- A call moves on. -/
def State.setCall (call : Nat) (stage : Call) : State :=
  { s with calls := Function.update s.calls call stage }

/-- A call returns and gives its handle back. -/
def State.finish (call : Nat) (stage : Call) : State :=
  { s.setCall call stage with active := s.active - 1 }

/-- `submit`, up to the result of `try_send`. -/
def submitStep : Event → Option State
  | .submit call request =>
      if s.connected ∧ s.calls call = .idle then
        some { s.setCall call (.ready request) with active := s.active + 1 }
      else none
  | .accept job =>
      if s.calls job.reply = .ready job.request ∧ s.worker ≠ .stopped ∧
          s.queue.length < config.queueDepth then
        some { s.setCall job.reply .sent with queue := s.queue ++ [job] }
      else none
  | .overload job =>
      if s.calls job.reply = .ready job.request ∧ s.worker ≠ .stopped ∧
          config.queueDepth ≤ s.queue.length then
        some (s.setCall job.reply .refused)
      else none
  | .disconnect job =>
      if s.calls job.reply = .ready job.request ∧ s.worker = .stopped then
        some (s.finish job.reply (.rejected .stopped))
      else none
  | _ => none

/-- `submit` behind `try_send`, and the end of the handles. -/
def callerStep : Event → Option State
  | .countAccepted call =>
      if s.calls call = .sent then
        some
          { s.setCall call .waiting with
            metrics :=
              { s.metrics with acceptedRequests := s.metrics.acceptedRequests + 1 } }
      else none
  | .countRejected call =>
      if s.calls call = .refused then
        some
          { s.finish call (.rejected .overloaded) with
            metrics :=
              { s.metrics with rejectedRequests := s.metrics.rejectedRequests + 1 } }
      else none
  | .receiveReply call =>
      if s.calls call = .waiting then
        match s.mailbox call with
        | some (.response bytes) => some (s.finish call (.answered bytes))
        | some (.failed message) => some (s.finish call (.rejected (.processing message)))
        | none => none
      else none
  | .abandon call => if s.calls call = .waiting then some (s.finish call .abandoned) else none
  | .close => if s.connected ∧ s.active = 0 then some { s with connected := false } else none
  | _ => none

/-- `recv`, `try_recv` and `recv_timeout` when a job is there. -/
def takeStep : Option State :=
  match s.worker, s.queue with
  | .receiving, job :: queue => some { s with worker := .collecting [job], queue := queue }
  | .collecting jobs, job :: queue =>
      if jobs.length < config.maxBatchSize then
        some { s with worker := .collecting (jobs ++ [job]), queue := queue }
      else none
  | .polled jobs, job :: queue =>
      some { s with worker := .collecting (jobs ++ [job]), queue := queue }
  | _, _ => none

/-- The worker otherwise. -/
def workerStep : Event → Option State
  | .take => takeStep config s
  | .poll =>
      match s.worker with
      | .collecting jobs =>
          if jobs.length < config.maxBatchSize ∧ s.queue = [] ∧ s.connected then
            some { s with worker := .polled jobs }
          else none
      | _ => none
  | .dispatch jobs =>
      -- the batch is full, the queue disconnected, or the waiting time over
      if (s.worker = .collecting jobs ∧
          (config.maxBatchSize ≤ jobs.length ∨ (s.queue = [] ∧ ¬ s.connected))) ∨
          s.worker = .polled jobs then
        some { s with worker := .processing jobs, metrics := s.metrics.sealed jobs }
      else none
  | .process jobs result =>
      if s.worker = .processing jobs then
        some
          { s with
            worker := .answering (answersOf jobs result)
            metrics := s.metrics.processed jobs result }
      else none
  | .reply call answer =>
      match s.worker with
      | .answering (next :: answers) =>
          if next = (call, answer) then
            some
              { s with
                worker := .answering answers
                mailbox := Function.update s.mailbox call (some answer) }
          else none
      | _ => none
  | .resume => if s.worker = .answering [] then some { s with worker := .receiving } else none
  | .stop =>
      if s.worker = .receiving ∧ s.queue = [] ∧ ¬ s.connected then
        some { s with worker := .stopped }
      else none
  | _ => none

/-- One event. -/
def step (event : Event) : Option State :=
  match event with
  | .submit _ _ | .accept _ | .overload _ | .disconnect _ => submitStep config s event
  | .countAccepted _ | .countRejected _ | .receiveReply _ | .abandon _ | .close =>
      callerStep s event
  | .take | .poll | .dispatch _ | .process _ _ | .reply _ _ | .resume | .stop =>
      workerStep config s event

end Step

/-- What `spawn_batcher` starts with. -/
def initial : State where
  queue := []
  worker := .receiving
  calls := fun _ => .idle
  mailbox := fun _ => none
  active := 0
  connected := true
  metrics :=
    { acceptedRequests := 0, rejectedRequests := 0, completedRequests := 0, failedRequests := 0,
      batches := 0, maxBatchSeen := 0 }

/-- The batcher of a configuration. -/
def batcher (config : BatcherConfig) : EventMachine State Event where
  start := initial
  step := step config

/-- `spawn_batcher`. -/
def spawnBatcher (config : BatcherConfig) : Outcome (EventMachine State Event) := do
  Outcome.ensure (config.maxBatchSize > 0) "max_batch_size must be positive"
  Outcome.ensure (config.queueDepth > 0) "queue_depth must be positive"
  return batcher config

/-- The jobs that entered the queue, in order. -/
def accepted (events : List Event) : List Job :=
  events.filterMap fun
    | .accept job => some job
    | _ => none

/-- The calls whose acceptance has been counted. -/
def counted (events : List Event) : List Nat :=
  events.filterMap fun
    | .countAccepted call => some call
    | _ => none

/-- The batches that went to the processor. -/
def batches (events : List Event) : List (List Job) :=
  events.filterMap fun
    | .dispatch jobs => some jobs
    | _ => none

/-- The batches the processor returned, with its results. -/
def processed (events : List Event) : List (List Job × BatchResult) :=
  events.filterMap fun
    | .process jobs result => some (jobs, result)
    | _ => none

/-- The answers that were sent. -/
def replies (events : List Event) : List (Nat × Answer) :=
  events.filterMap fun
    | .reply call answer => some (call, answer)
    | _ => none

section Append

variable (first second : List Event)

theorem accepted_append : accepted (first ++ second) = accepted first ++ accepted second :=
  List.filterMap_append

theorem counted_append : counted (first ++ second) = counted first ++ counted second :=
  List.filterMap_append

theorem batches_append : batches (first ++ second) = batches first ++ batches second :=
  List.filterMap_append

theorem processed_append : processed (first ++ second) = processed first ++ processed second :=
  List.filterMap_append

theorem replies_append : replies (first ++ second) = replies first ++ replies second :=
  List.filterMap_append

end Append

end Batcher
end Gput
