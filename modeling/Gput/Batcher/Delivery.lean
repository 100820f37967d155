import Gput.Batcher.Machine
import Mathlib.Algebra.GroupWithZero.Nat
import Mathlib.Data.List.Perm.Basic
import Mathlib.Data.List.Nodup

/-!
# Delivery by the batcher

What holds of every interleaving of the batcher.  `Moves` says once what each
event does; three invariants between the history and the state follow from it:
where every accepted job is (`Tracked`), where every call stands (`Callers`) and
what the counters count (`Counted`).  A rank on the unanswered jobs bounds how
long the worker can take (`answered_within`).
-/

namespace Gput
namespace Batcher

/-- Every event, with the states before and after it. -/
inductive Moves (config : BatcherConfig) (s : State) : Event → State → Prop
  | submit (call : Nat) (request : List UInt8) (hconnected : s.connected = true)
      (hcall : s.calls call = .idle) :
      Moves config s (.submit call request)
        { s.setCall call (.ready request) with active := s.active + 1 }
  | accept (job : Job) (hcall : s.calls job.reply = .ready job.request)
      (hworker : s.worker ≠ .stopped) (hroom : s.queue.length < config.queueDepth) :
      Moves config s (.accept job) { s.setCall job.reply .sent with queue := s.queue ++ [job] }
  | overload (job : Job) (hcall : s.calls job.reply = .ready job.request)
      (hfull : config.queueDepth ≤ s.queue.length) :
      Moves config s (.overload job) (s.setCall job.reply .refused)
  | disconnect (job : Job) (hcall : s.calls job.reply = .ready job.request) :
      Moves config s (.disconnect job) (s.finish job.reply (.rejected .stopped))
  | countAccepted (call : Nat) (hcall : s.calls call = .sent) :
      Moves config s (.countAccepted call)
        { s.setCall call .waiting with
          metrics := { s.metrics with acceptedRequests := s.metrics.acceptedRequests + 1 } }
  | countRejected (call : Nat) (hcall : s.calls call = .refused) :
      Moves config s (.countRejected call)
        { s.finish call (.rejected .overloaded) with
          metrics := { s.metrics with rejectedRequests := s.metrics.rejectedRequests + 1 } }
  | receiveResponse (call : Nat) (bytes : List UInt8) (hcall : s.calls call = .waiting)
      (hmail : s.mailbox call = some (.response bytes)) :
      Moves config s (.receiveReply call) (s.finish call (.answered bytes))
  | receiveFailure (call : Nat) (message : String) (hcall : s.calls call = .waiting)
      (hmail : s.mailbox call = some (.failed message)) :
      Moves config s (.receiveReply call) (s.finish call (.rejected (.processing message)))
  | abandon (call : Nat) (hcall : s.calls call = .waiting) :
      Moves config s (.abandon call) (s.finish call .abandoned)
  | close : Moves config s .close { s with connected := false }
  | takeFirst (job : Job) (queue : List Job) (hworker : s.worker = .receiving)
      (hqueue : s.queue = job :: queue) :
      Moves config s .take { s with worker := .collecting [job], queue := queue }
  | takeNext (jobs : List Job) (job : Job) (queue : List Job)
      (hworker : s.worker = .collecting jobs ∨ s.worker = .polled jobs)
      (hroom : s.worker = .collecting jobs → jobs.length < config.maxBatchSize)
      (hqueue : s.queue = job :: queue) :
      Moves config s .take { s with worker := .collecting (jobs ++ [job]), queue := queue }
  | poll (jobs : List Job) (hworker : s.worker = .collecting jobs)
      (hroom : jobs.length < config.maxBatchSize) :
      Moves config s .poll { s with worker := .polled jobs }
  | dispatch (jobs : List Job) (hworker : s.worker = .collecting jobs ∨ s.worker = .polled jobs) :
      Moves config s (.dispatch jobs)
        { s with worker := .processing jobs, metrics := s.metrics.sealed jobs }
  | process (jobs : List Job) (result : BatchResult) (hworker : s.worker = .processing jobs) :
      Moves config s (.process jobs result)
        { s with
          worker := .answering (answersOf jobs result)
          metrics := s.metrics.processed jobs result }
  | reply (call : Nat) (answer : Answer) (answers : List (Nat × Answer))
      (hworker : s.worker = .answering ((call, answer) :: answers)) :
      Moves config s (.reply call answer)
        { s with
          worker := .answering answers
          mailbox := Function.update s.mailbox call (some answer) }
  | resume (hworker : s.worker = .answering []) :
      Moves config s .resume { s with worker := .receiving }
  | stop (hworker : s.worker = .receiving) (hqueue : s.queue = []) :
      Moves config s .stop { s with worker := .stopped }

section Moves

variable {config : BatcherConfig} {s s' : State} {e : Event}

theorem moves_of_takeStep (h : takeStep config s = some s') : Moves config s .take s' := by
  unfold takeStep at h
  split at h
  · next job queue hworker hqueue =>
    cases h
    exact .takeFirst job queue hworker hqueue
  · next jobs job queue hworker hqueue =>
    rw [Option.ite_none_right_eq_some] at h
    obtain ⟨hroom, h⟩ := h
    cases h
    exact .takeNext jobs job queue (Or.inl hworker) (fun _ => hroom) hqueue
  · next jobs job queue hworker hqueue =>
    cases h
    exact .takeNext jobs job queue (Or.inr hworker) (fun h => by rw [hworker] at h; cases h) hqueue
  · cases h

theorem moves_of_submitStep (h : submitStep config s e = some s') : Moves config s e s' := by
  cases e with
  | submit call request =>
      obtain ⟨⟨hconnected, hcall⟩, h⟩ := Option.ite_none_right_eq_some.mp h
      cases h
      exact .submit call request hconnected hcall
  | accept job =>
      obtain ⟨⟨hcall, hworker, hroom⟩, h⟩ := Option.ite_none_right_eq_some.mp h
      cases h
      exact .accept job hcall hworker hroom
  | overload job =>
      obtain ⟨⟨hcall, -, hfull⟩, h⟩ := Option.ite_none_right_eq_some.mp h
      cases h
      exact .overload job hcall hfull
  | disconnect job =>
      obtain ⟨⟨hcall, -⟩, h⟩ := Option.ite_none_right_eq_some.mp h
      cases h
      exact .disconnect job hcall
  | _ => cases h

theorem moves_of_callerStep (h : callerStep s e = some s') : Moves config s e s' := by
  cases e with
  | countAccepted call =>
      obtain ⟨hcall, h⟩ := Option.ite_none_right_eq_some.mp h
      cases h
      exact .countAccepted call hcall
  | countRejected call =>
      obtain ⟨hcall, h⟩ := Option.ite_none_right_eq_some.mp h
      cases h
      exact .countRejected call hcall
  | receiveReply call =>
      obtain ⟨hcall, h⟩ := Option.ite_none_right_eq_some.mp h
      split at h
      · next bytes hmail =>
        cases h
        exact .receiveResponse call bytes hcall hmail
      · next message hmail =>
        cases h
        exact .receiveFailure call message hcall hmail
      · cases h
  | abandon call =>
      obtain ⟨hcall, h⟩ := Option.ite_none_right_eq_some.mp h
      cases h
      exact .abandon call hcall
  | close =>
      obtain ⟨-, h⟩ := Option.ite_none_right_eq_some.mp h
      cases h
      exact .close
  | _ => cases h

theorem moves_of_workerStep (h : workerStep config s e = some s') : Moves config s e s' := by
  cases e with
  | take => exact moves_of_takeStep h
  | poll =>
      simp only [workerStep] at h
      split at h
      · next jobs hworker =>
        obtain ⟨⟨hroom, -⟩, h⟩ := Option.ite_none_right_eq_some.mp h
        cases h
        exact .poll jobs hworker hroom
      · cases h
  | dispatch jobs =>
      obtain ⟨hworker, h⟩ := Option.ite_none_right_eq_some.mp h
      cases h
      exact .dispatch jobs (hworker.imp_left And.left)
  | process jobs result =>
      obtain ⟨hworker, h⟩ := Option.ite_none_right_eq_some.mp h
      cases h
      exact .process jobs result hworker
  | reply call answer =>
      simp only [workerStep] at h
      split at h
      · next next answers hworker =>
        obtain ⟨hnext, h⟩ := Option.ite_none_right_eq_some.mp h
        cases h
        subst hnext
        exact .reply call answer answers hworker
      · cases h
  | resume =>
      obtain ⟨hworker, h⟩ := Option.ite_none_right_eq_some.mp h
      cases h
      exact .resume hworker
  | stop =>
      obtain ⟨⟨hworker, hqueue, -⟩, h⟩ := Option.ite_none_right_eq_some.mp h
      cases h
      exact .stop hworker hqueue
  | _ => cases h

theorem moves_of_step (h : step config s e = some s') : Moves config s e s' := by
  cases e with
  | submit | accept | overload | disconnect => exact moves_of_submitStep h
  | countAccepted | countRejected | receiveReply | abandon | close => exact moves_of_callerStep h
  | take | poll | dispatch | process | reply | resume | stop => exact moves_of_workerStep h

end Moves

/-- The jobs of the batch the worker is collecting. -/
def held : Worker → List Job
  | .collecting jobs => jobs
  | .polled jobs => jobs
  | _ => []

/-- The batch that is with the processor. -/
def inProcess : Worker → List (List Job)
  | .processing jobs => [jobs]
  | _ => []

/-- The answers the worker has still to send. -/
def pending : Worker → List (Nat × Answer)
  | .answering answers => answers
  | _ => []

/-- All answers to some batches. -/
def allAnswers (batches : List (List Job × BatchResult)) : List (Nat × Answer) :=
  batches.flatMap fun batch => answersOf batch.1 batch.2

/-- Where the accepted jobs are: in a batch, with the worker, or in the queue. -/
structure Tracked (config : BatcherConfig) (events : List Event) (s : State) : Prop where
  order : accepted events = (batches events).flatten ++ held s.worker ++ s.queue
  handled : batches events = (processed events).map Prod.fst ++ inProcess s.worker
  replied : replies events ++ pending s.worker = allAnswers (processed events)
  sizes : ∀ batch ∈ batches events, 1 ≤ batch.length ∧ batch.length ≤ config.maxBatchSize
  holding : ∀ jobs, s.worker = .collecting jobs ∨ s.worker = .polled jobs →
    1 ≤ jobs.length ∧ jobs.length ≤ config.maxBatchSize
  room : ∀ jobs, s.worker = .polled jobs → jobs.length < config.maxBatchSize
  drained : s.worker = .stopped → s.queue = []

section Tracked

variable {config : BatcherConfig} {events : List Event} {s s' : State}

theorem tracked_start : Tracked config [] initial where
  order := rfl
  handled := rfl
  replied := rfl
  sizes := fun _ h => by cases h
  holding := fun _ h => by rcases h with h | h <;> cases h
  room := fun _ h => by cases h
  drained := fun h => by cases h

/-- The jobs are tracked over an event that moves them from one place to the
next. -/
theorem Tracked.moved {e : Event} (h : Tracked config events s)
    (horder : held s.worker ++ s.queue ++ accepted [e] =
      (batches [e]).flatten ++ held s'.worker ++ s'.queue)
    (hhandled : inProcess s.worker ++ batches [e] =
      (processed [e]).map Prod.fst ++ inProcess s'.worker)
    (hreplied : replies [e] ++ pending s'.worker = pending s.worker ++ allAnswers (processed [e]))
    (hsizes : ∀ batch ∈ batches [e], 1 ≤ batch.length ∧ batch.length ≤ config.maxBatchSize)
    (hholding : ∀ jobs, s'.worker = .collecting jobs ∨ s'.worker = .polled jobs →
      1 ≤ jobs.length ∧ jobs.length ≤ config.maxBatchSize)
    (hroom : ∀ jobs, s'.worker = .polled jobs → jobs.length < config.maxBatchSize)
    (hdrained : s'.worker = .stopped → s'.queue = []) : Tracked config (events ++ [e]) s' := by
  obtain ⟨order, handled, replied, sizes, -, -, -⟩ := h
  refine ⟨?_, ?_, ?_, ?_, hholding, hroom, hdrained⟩
  · rw [accepted_append, batches_append, order, List.append_assoc, List.append_assoc,
      ← List.append_assoc (held s.worker), horder, List.flatten_append]
    simp only [List.append_assoc]
  · rw [batches_append, processed_append, handled, List.append_assoc, hhandled, List.map_append,
      List.append_assoc]
  · rw [replies_append, processed_append, List.append_assoc, hreplied, ← List.append_assoc, replied]
    exact List.flatMap_append.symm
  · intro batch hbatch
    rw [batches_append, List.mem_append] at hbatch
    exact hbatch.elim (sizes batch) (hsizes batch)

/-- An event outside the worker's history that leaves the worker and the queue
alone moves no job. -/
theorem Tracked.frame {e : Event} (h : Tracked config events s)
    (haccepted : accepted [e] = []) (hbatches : batches [e] = []) (hprocessed : processed [e] = [])
    (hreplies : replies [e] = []) (hworker : s'.worker = s.worker) (hqueue : s'.queue = s.queue) :
    Tracked config (events ++ [e]) s' := by
  apply h.moved <;> simp only [haccepted, hbatches, hprocessed, hreplies, hworker, hqueue]
  · simp
  · simp
  · simp [allAnswers]
  · simp
  · exact h.holding
  · exact h.room
  · exact h.drained

/-- Every event keeps track of the jobs. -/
theorem Tracked.next (hmax : 0 < config.maxBatchSize) {e : Event} (h : Tracked config events s)
    (hmoves : Moves config s e s') : Tracked config (events ++ [e]) s' := by
  cases hmoves with
  | submit => exact h.frame rfl rfl rfl rfl rfl rfl
  | overload => exact h.frame rfl rfl rfl rfl rfl rfl
  | disconnect => exact h.frame rfl rfl rfl rfl rfl rfl
  | countAccepted => exact h.frame rfl rfl rfl rfl rfl rfl
  | countRejected => exact h.frame rfl rfl rfl rfl rfl rfl
  | receiveResponse => exact h.frame rfl rfl rfl rfl rfl rfl
  | receiveFailure => exact h.frame rfl rfl rfl rfl rfl rfl
  | abandon => exact h.frame rfl rfl rfl rfl rfl rfl
  | close => exact h.frame rfl rfl rfl rfl rfl rfl
  | accept job _ hworker _ =>
      refine h.moved ?_ ?_ ?_ (fun _ hbatch => by cases hbatch) h.holding h.room
        (fun hstopped => absurd hstopped hworker)
      · exact List.append_assoc (held s.worker) s.queue [job]
      · exact List.append_nil _
      · exact (List.append_nil _).symm
  | takeFirst job queue hworker hqueue =>
      refine h.moved ?_ ?_ ?_ (fun _ hbatch => by cases hbatch) ?_ (fun _ heq => by cases heq)
        (fun heq => by cases heq)
      · rw [hworker, hqueue]
        exact List.append_nil _
      · rw [hworker]
        rfl
      · rw [hworker]
        rfl
      · rintro jobs (heq | heq) <;> cases heq
        exact ⟨Nat.le_refl 1, hmax⟩
  | takeNext jobs job queue hworker hroom hqueue =>
      have hlt : jobs.length < config.maxBatchSize := hworker.elim hroom (h.room jobs)
      have hheld : held s.worker = jobs ∧ inProcess s.worker = [] ∧ pending s.worker = [] := by
        rcases hworker with hworker | hworker <;> rw [hworker] <;> exact ⟨rfl, rfl, rfl⟩
      refine h.moved ?_ ?_ ?_ (fun _ hbatch => by cases hbatch) ?_ (fun _ heq => by cases heq)
        (fun heq => by cases heq)
      · rw [hheld.1, hqueue]
        exact (List.append_nil _).trans (List.append_assoc jobs [job] queue).symm
      · rw [hheld.2.1]
        rfl
      · rw [hheld.2.2]
        rfl
      · rintro jobs' (heq | heq) <;> cases heq
        rw [List.length_append]
        exact ⟨Nat.le_add_left 1 _, hlt⟩
  | poll jobs hworker hroom =>
      have hholding := h.holding jobs (Or.inl hworker)
      refine h.moved ?_ ?_ ?_ (fun _ hbatch => by cases hbatch) ?_ ?_ (fun heq => by cases heq)
      · rw [hworker]
        exact List.append_nil _
      · rw [hworker]
        rfl
      · rw [hworker]
        rfl
      · rintro jobs' (heq | heq) <;> cases heq
        exact hholding
      · rintro jobs' heq
        cases heq
        exact hroom
  | dispatch jobs hworker =>
      have hholding := h.holding jobs hworker
      have hheld : held s.worker = jobs ∧ inProcess s.worker = [] ∧ pending s.worker = [] := by
        rcases hworker with hworker | hworker <;> rw [hworker] <;> exact ⟨rfl, rfl, rfl⟩
      refine h.moved ?_ ?_ ?_ ?_ (fun _ heq => by rcases heq with heq | heq <;> cases heq)
        (fun _ heq => by cases heq) (fun heq => by cases heq)
      · rw [hheld.1]
        show jobs ++ s.queue ++ [] = (jobs ++ []) ++ [] ++ s.queue
        simp only [List.append_nil]
      · rw [hheld.2.1]
        rfl
      · rw [hheld.2.2]
        rfl
      · intro batch hbatch
        cases List.mem_singleton.mp hbatch
        exact hholding
  | process jobs result hworker =>
      refine h.moved ?_ ?_ ?_ (fun _ hbatch => by cases hbatch)
        (fun _ heq => by rcases heq with heq | heq <;> cases heq) (fun _ heq => by cases heq)
        (fun heq => by cases heq)
      · rw [hworker]
        exact List.append_nil _
      · rw [hworker]
        rfl
      · rw [hworker]
        exact (List.append_nil (answersOf jobs result)).symm
  | reply call answer answers hworker =>
      refine h.moved ?_ ?_ ?_ (fun _ hbatch => by cases hbatch)
        (fun _ heq => by rcases heq with heq | heq <;> cases heq) (fun _ heq => by cases heq)
        (fun heq => by cases heq)
      · rw [hworker]
        exact List.append_nil _
      · rw [hworker]
        rfl
      · rw [hworker]
        exact (List.append_nil _).symm
  | resume hworker =>
      refine h.moved ?_ ?_ ?_ (fun _ hbatch => by cases hbatch)
        (fun _ heq => by rcases heq with heq | heq <;> cases heq) (fun _ heq => by cases heq)
        (fun heq => by cases heq)
      · rw [hworker]
        exact List.append_nil _
      · rw [hworker]
        rfl
      · rw [hworker]
        rfl
  | stop hworker hqueue =>
      refine h.moved ?_ ?_ ?_ (fun _ hbatch => by cases hbatch)
        (fun _ heq => by rcases heq with heq | heq <;> cases heq) (fun _ heq => by cases heq)
        (fun _ => hqueue)
      · rw [hworker]
        exact List.append_nil _
      · rw [hworker]
        rfl
      · rw [hworker]
        rfl

end Tracked

/-- The call's job has entered the queue. -/
def Call.entered : Call → Bool
  | .sent | .waiting | .answered _ | .abandoned | .rejected (.processing _) => true
  | _ => false

/-- Where the calls stand: a job is accepted once for each call that entered,
the acceptance is counted once, and a call returns what was sent to it. -/
structure Callers (events : List Event) (s : State) : Prop where
  distinct : ((accepted events).map Job.reply).Nodup
  entered : ∀ call, call ∈ (accepted events).map Job.reply ↔ (s.calls call).entered = true
  countedOnce : (counted events).Nodup
  counts : ∀ call, call ∈ counted events ↔
    (s.calls call).entered = true ∧ s.calls call ≠ .sent
  mail : ∀ call answer, s.mailbox call = some answer → (call, answer) ∈ replies events
  answered : ∀ call bytes, s.calls call = .answered bytes →
    (call, .response bytes) ∈ replies events
  failed : ∀ call message, s.calls call = .rejected (.processing message) →
    (call, .failed message) ∈ replies events

section Callers

variable {config : BatcherConfig} {events : List Event} {s s' : State} {e : Event}

theorem callers_start : Callers [] initial where
  distinct := List.nodup_nil
  entered := fun _ => ⟨fun h => absurd h List.not_mem_nil, fun h => absurd h Bool.false_ne_true⟩
  countedOnce := List.nodup_nil
  counts := fun _ =>
    ⟨fun h => absurd h List.not_mem_nil, fun h => absurd h.1 Bool.false_ne_true⟩
  mail := fun _ _ h => by cases h
  answered := fun _ _ h => by cases h
  failed := fun _ _ h => by cases h

theorem mem_replies_append {reply : Nat × Answer} (h : reply ∈ replies events) :
    reply ∈ replies (events ++ [e]) := by
  rw [replies_append]
  exact List.mem_append_left _ h

/-- An event that moves no call. -/
theorem Callers.frame (h : Callers events s) (haccepted : accepted [e] = [])
    (hcounted : counted [e] = []) (hcalls : s'.calls = s.calls) (hmail : s'.mailbox = s.mailbox) :
    Callers (events ++ [e]) s' := by
  obtain ⟨distinct, entered, countedOnce, counts, mail, answered, failed⟩ := h
  constructor
  · rwa [accepted_append, haccepted, List.append_nil]
  · rwa [accepted_append, haccepted, List.append_nil, hcalls]
  · rwa [counted_append, hcounted, List.append_nil]
  · rwa [counted_append, hcounted, List.append_nil, hcalls]
  · rw [hmail]
    exact fun call answer hanswer => mem_replies_append (mail call answer hanswer)
  · rw [hcalls]
    exact fun call bytes hcall => mem_replies_append (answered call bytes hcall)
  · rw [hcalls]
    exact fun call message hcall => mem_replies_append (failed call message hcall)

/-- A call that moves to a stage which returns only what was sent to it. -/
theorem Callers.returned {call : Nat} {stage : Call} (h : Callers events s)
    (hcalls : s'.calls = Function.update s.calls call stage)
    (hanswered : ∀ bytes, stage = .answered bytes → (call, .response bytes) ∈ replies events)
    (hfailed : ∀ message, stage = .rejected (.processing message) →
      (call, .failed message) ∈ replies events) :
    (∀ other bytes, s'.calls other = .answered bytes →
        (other, .response bytes) ∈ replies (events ++ [e])) ∧
      ∀ other message, s'.calls other = .rejected (.processing message) →
        (other, .failed message) ∈ replies (events ++ [e]) := by
  rw [hcalls]
  constructor
  · intro other bytes hother
    apply mem_replies_append
    by_cases heq : other = call
    · subst heq
      rw [Function.update_self] at hother
      exact hanswered bytes hother
    · rw [Function.update_of_ne heq] at hother
      exact h.answered other bytes hother
  · intro other message hother
    apply mem_replies_append
    by_cases heq : other = call
    · subst heq
      rw [Function.update_self] at hother
      exact hfailed message hother
    · rw [Function.update_of_ne heq] at hother
      exact h.failed other message hother

/-- A new element keeps a list free of duplicates. -/
theorem nodup_snoc {l : List Nat} {a : Nat} (h : l.Nodup) (ha : a ∉ l) : (l ++ [a]).Nodup := by
  rw [← List.concat_eq_append]
  exact h.concat ha

/-- A call that moves on without entering the queue or being counted. -/
theorem Callers.advance {call : Nat} {stage : Call} (h : Callers events s)
    (haccepted : accepted [e] = []) (hcounted : counted [e] = [])
    (hcalls : s'.calls = Function.update s.calls call stage) (hmail : s'.mailbox = s.mailbox)
    (hentered : stage.entered = (s.calls call).entered) (hbefore : s.calls call ≠ .sent)
    (hafter : stage ≠ .sent)
    (hanswered : ∀ bytes, stage = .answered bytes → (call, .response bytes) ∈ replies events)
    (hfailed : ∀ message, stage = .rejected (.processing message) →
      (call, .failed message) ∈ replies events) : Callers (events ++ [e]) s' := by
  obtain ⟨answered, failed⟩ := @Callers.returned _ _ _ e _ _ h hcalls hanswered hfailed
  obtain ⟨distinct, entered, countedOnce, counts, mail, -, -⟩ := h
  have others {other : Nat} (hother : other ≠ call) : s'.calls other = s.calls other := by
    rw [hcalls, Function.update_of_ne hother]
  have here : s'.calls call = stage := by
    rw [hcalls, Function.update_self]
  constructor
  · rwa [accepted_append, haccepted, List.append_nil]
  · intro other
    rw [accepted_append, haccepted, List.append_nil, entered]
    by_cases hother : other = call
    · rw [hother, here, hentered]
    · rw [others hother]
  · rwa [counted_append, hcounted, List.append_nil]
  · intro other
    rw [counted_append, hcounted, List.append_nil, counts]
    by_cases hother : other = call
    · rw [hother, here, hentered]
      exact and_congr_right fun _ => ⟨fun _ => hafter, fun _ => hbefore⟩
    · rw [others hother]
  · rw [hmail]
    exact fun other answer hanswer => mem_replies_append (mail other answer hanswer)
  · exact answered
  · exact failed

/-- A call whose job enters the queue. -/
theorem Callers.accept {job : Job} (h : Callers events s)
    (hcall : s.calls job.reply = .ready job.request)
    (hcalls : s'.calls = Function.update s.calls job.reply .sent) (hmail : s'.mailbox = s.mailbox) :
    Callers (events ++ [.accept job]) s' := by
  obtain ⟨answered, failed⟩ := @Callers.returned _ _ _ (.accept job) _ _ h hcalls
    (fun bytes hstage => by cases hstage) (fun message hstage => by cases hstage)
  obtain ⟨distinct, entered, countedOnce, counts, mail, -, -⟩ := h
  have fresh : job.reply ∉ (accepted events).map Job.reply := by
    rw [entered, hcall]
    exact Bool.false_ne_true
  have others {other : Nat} (hother : other ≠ job.reply) : s'.calls other = s.calls other := by
    rw [hcalls, Function.update_of_ne hother]
  have here : s'.calls job.reply = .sent := by
    rw [hcalls, Function.update_self]
  have hsnoc : (accepted (events ++ [.accept job])).map Job.reply =
      (accepted events).map Job.reply ++ [job.reply] := by
    rw [accepted_append, List.map_append]
    rfl
  constructor
  · rw [hsnoc]
    exact nodup_snoc distinct fresh
  · intro other
    rw [hsnoc, List.mem_append, List.mem_singleton, entered]
    by_cases hother : other = job.reply
    · rw [hother, here]
      exact ⟨fun _ => rfl, fun _ => Or.inr rfl⟩
    · rw [others hother]
      exact or_iff_left hother
  · rw [counted_append]
    exact (List.append_nil _).symm ▸ countedOnce
  · intro other
    rw [counted_append]
    show other ∈ counted events ++ [] ↔ _
    rw [List.append_nil, counts]
    by_cases hother : other = job.reply
    · rw [hother, here, hcall]
      exact ⟨fun h => absurd h.1 Bool.false_ne_true, fun h => absurd rfl h.2⟩
    · rw [others hother]
  · rw [hmail]
    exact fun other answer hanswer => mem_replies_append (mail other answer hanswer)
  · exact answered
  · exact failed

/-- A call whose acceptance is counted. -/
theorem Callers.count {call : Nat} (h : Callers events s) (hcall : s.calls call = .sent)
    (hcalls : s'.calls = Function.update s.calls call .waiting) (hmail : s'.mailbox = s.mailbox) :
    Callers (events ++ [.countAccepted call]) s' := by
  obtain ⟨answered, failed⟩ := @Callers.returned _ _ _ (.countAccepted call) _ _ h hcalls
    (fun bytes hstage => by cases hstage) (fun message hstage => by cases hstage)
  obtain ⟨distinct, entered, countedOnce, counts, mail, -, -⟩ := h
  have fresh : call ∉ counted events := by
    rw [counts]
    exact fun h => h.2 hcall
  have others {other : Nat} (hother : other ≠ call) : s'.calls other = s.calls other := by
    rw [hcalls, Function.update_of_ne hother]
  have here : s'.calls call = .waiting := by
    rw [hcalls, Function.update_self]
  have hsame : accepted (events ++ [.countAccepted call]) = accepted events := by
    rw [accepted_append]
    exact List.append_nil _
  have hsnoc : counted (events ++ [.countAccepted call]) = counted events ++ [call] :=
    counted_append events [.countAccepted call]
  constructor
  · rwa [hsame]
  · intro other
    rw [hsame, entered]
    by_cases hother : other = call
    · rw [hother, here, hcall]
      rfl
    · rw [others hother]
  · rw [hsnoc]
    exact nodup_snoc countedOnce fresh
  · intro other
    rw [hsnoc, List.mem_append, List.mem_singleton, counts]
    by_cases hother : other = call
    · rw [hother, here]
      exact ⟨fun _ => ⟨rfl, by simp⟩, fun _ => Or.inr rfl⟩
    · rw [others hother]
      exact or_iff_left hother
  · rw [hmail]
    exact fun other answer hanswer => mem_replies_append (mail other answer hanswer)
  · exact answered
  · exact failed

/-- A call that is sent its answer. -/
theorem Callers.reply {call : Nat} {answer : Answer} (h : Callers events s)
    (hcalls : s'.calls = s.calls)
    (hmail : s'.mailbox = Function.update s.mailbox call (some answer)) :
    Callers (events ++ [.reply call answer]) s' := by
  have hframe : Callers (events ++ [.reply call answer]) { s' with mailbox := s.mailbox } :=
    h.frame rfl rfl hcalls rfl
  obtain ⟨distinct, entered, countedOnce, counts, mail, answered, failed⟩ := hframe
  refine ⟨distinct, entered, countedOnce, counts, ?_, answered, failed⟩
  intro other answer' hanswer
  rw [hmail] at hanswer
  by_cases hother : other = call
  · subst hother
    rw [Function.update_self] at hanswer
    cases hanswer
    rw [replies_append]
    exact List.mem_append_right _ (List.mem_singleton.mpr rfl)
  · rw [Function.update_of_ne hother] at hanswer
    exact mail other answer' hanswer

/-- Every event keeps the calls where they stand. -/
theorem Callers.next (h : Callers events s) (hmoves : Moves config s e s') :
    Callers (events ++ [e]) s' := by
  cases hmoves with
  | submit call request _ hcall =>
      refine h.advance rfl rfl rfl rfl ?_ ?_ ?_ ?_ ?_ <;> simp [hcall, Call.entered]
  | accept job hcall _ _ => exact h.accept hcall rfl rfl
  | overload job hcall _ =>
      refine h.advance rfl rfl rfl rfl ?_ ?_ ?_ ?_ ?_ <;> simp [hcall, Call.entered]
  | disconnect job hcall =>
      refine h.advance rfl rfl rfl rfl ?_ ?_ ?_ ?_ ?_ <;> simp [hcall, Call.entered]
  | countAccepted call hcall => exact h.count hcall rfl rfl
  | countRejected call hcall =>
      refine h.advance rfl rfl rfl rfl ?_ ?_ ?_ ?_ ?_ <;> simp [hcall, Call.entered]
  | receiveResponse call bytes hcall hmail =>
      have hsent := h.mail call _ hmail
      refine h.advance rfl rfl rfl rfl ?_ ?_ ?_ ?_ ?_ <;> simp [hcall, Call.entered, hsent]
  | receiveFailure call message hcall hmail =>
      have hsent := h.mail call _ hmail
      refine h.advance rfl rfl rfl rfl ?_ ?_ ?_ ?_ ?_ <;> simp [hcall, Call.entered, hsent]
  | abandon call hcall =>
      refine h.advance rfl rfl rfl rfl ?_ ?_ ?_ ?_ ?_ <;> simp [hcall, Call.entered]
  | reply call answer answers _ => exact h.reply rfl rfl
  | close => exact h.frame rfl rfl rfl rfl
  | takeFirst => exact h.frame rfl rfl rfl rfl
  | takeNext => exact h.frame rfl rfl rfl rfl
  | poll => exact h.frame rfl rfl rfl rfl
  | dispatch => exact h.frame rfl rfl rfl rfl
  | process => exact h.frame rfl rfl rfl rfl
  | resume => exact h.frame rfl rfl rfl rfl
  | stop => exact h.frame rfl rfl rfl rfl

end Callers

/-- The counters count accepted jobs and the jobs of processed batches. -/
structure Metered (events : List Event) (s : State) : Prop where
  accepted : s.metrics.acceptedRequests = UInt64.ofNat (counted events).length
  finished : s.metrics.completedRequests + s.metrics.failedRequests =
    UInt64.ofNat ((processed events).map fun batch => batch.1.length).sum

section Metered

variable {config : BatcherConfig} {events : List Event} {s s' : State} {e : Event}

theorem metered_start : Metered [] initial where
  accepted := rfl
  finished := rfl

/-- An event that neither accepts nor processes leaves these counters alone. -/
theorem Metered.frame (h : Metered events s) (hcounted : counted [e] = [])
    (hprocessed : processed [e] = [])
    (haccepted : s'.metrics.acceptedRequests = s.metrics.acceptedRequests)
    (hcompleted : s'.metrics.completedRequests = s.metrics.completedRequests)
    (hfailed : s'.metrics.failedRequests = s.metrics.failedRequests) :
    Metered (events ++ [e]) s' where
  accepted := by rw [counted_append, hcounted, List.append_nil, haccepted, h.accepted]
  finished := by
    rw [processed_append, hprocessed, List.append_nil, hcompleted, hfailed, h.finished]

/-- Either outcome of a batch counts its jobs once. -/
theorem processed_finished (metrics : BatcherMetrics) (jobs : List Job) (result : BatchResult) :
    (metrics.processed jobs result).completedRequests +
        (metrics.processed jobs result).failedRequests =
      metrics.completedRequests + metrics.failedRequests + UInt64.ofNat jobs.length := by
  unfold BatcherMetrics.processed
  cases result with
  | ok responses =>
      simp only
      split
      · show metrics.completedRequests + UInt64.ofNat jobs.length + metrics.failedRequests = _
        rw [UInt64.add_assoc, UInt64.add_comm (UInt64.ofNat jobs.length), UInt64.add_assoc]
      · exact (UInt64.add_assoc _ _ _).symm
  | err message => exact (UInt64.add_assoc _ _ _).symm

theorem Metered.next (h : Metered events s) (hmoves : Moves config s e s') :
    Metered (events ++ [e]) s' := by
  cases hmoves with
  | countAccepted call _ =>
      constructor
      · rw [counted_append, List.length_append]
        show s.metrics.acceptedRequests + 1 = UInt64.ofNat ((counted events).length + 1)
        rw [h.accepted, UInt64.ofNat_add]
        rfl
      · rw [processed_append]
        exact h.finished.trans (by rw [show processed [Event.countAccepted call] = [] from rfl,
          List.append_nil])
  | process jobs result _ =>
      constructor
      · rw [counted_append]
        show (s.metrics.processed jobs result).acceptedRequests =
          UInt64.ofNat (counted events ++ []).length
        rw [List.append_nil, ← h.accepted]
        unfold BatcherMetrics.processed
        cases result with
        | ok responses =>
            simp only
            split <;> rfl
        | err message => rfl
      · rw [processed_append, List.map_append, List.sum_append]
        show (s.metrics.processed jobs result).completedRequests +
          (s.metrics.processed jobs result).failedRequests =
            UInt64.ofNat (_ + (jobs.length + 0))
        rw [processed_finished, h.finished, Nat.add_zero, UInt64.ofNat_add]
  | _ => exact h.frame rfl rfl rfl rfl rfl

end Metered

/-- The answer to the job at a position of a batch. -/
def answerAt (jobs : List Job) (result : BatchResult) (i : Nat) : Answer :=
  match result with
  | .ok responses =>
      if responses.length = jobs.length then .response (responses.getD i [])
      else
        .failed s!"processor returned {responses.length} responses for {jobs.length} requests"
  | .err message => .failed message

section Answers

variable (jobs : List Job) (result : BatchResult)

theorem answersOf_calls : (answersOf jobs result).map Prod.fst = jobs.map Job.reply := by
  have failed (message : String) : (failBatch jobs message).map Prod.fst = jobs.map Job.reply := by
    rw [failBatch, List.map_map]
    rfl
  unfold answersOf
  cases result with
  | ok responses =>
      by_cases h : responses.length = jobs.length
      · have hzip : (jobs.zip responses).map Prod.fst = jobs :=
          List.map_fst_zip (Nat.le_of_eq h.symm)
        simp only [if_pos h, List.map_map]
        conv_rhs => rw [← hzip, List.map_map]
        rfl
      · simp only [if_neg h]
        exact failed _
  | err message => exact failed message

/-- The answer at every position of a batch. -/
theorem answersOf_getElem? {i : Nat} (hi : i < jobs.length) :
    (answersOf jobs result)[i]? = some (jobs[i].reply, answerAt jobs result i) := by
  have failed (message : String) :
      (failBatch jobs message)[i]? = some (jobs[i].reply, .failed message) := by
    rw [failBatch, List.getElem?_map, List.getElem?_eq_getElem hi]
    rfl
  unfold answersOf answerAt
  cases result with
  | ok responses =>
      by_cases h : responses.length = jobs.length
      · have hi' : i < responses.length := by omega
        simp only [if_pos h]
        have hzip : (jobs.zip responses)[i]? = some (jobs[i], responses[i]) :=
          List.getElem?_zip_eq_some.mpr
            ⟨List.getElem?_eq_getElem hi, List.getElem?_eq_getElem hi'⟩
        rw [List.getElem?_map, hzip, List.getD_eq_getElem?_getD, List.getElem?_eq_getElem hi']
        rfl
      · simp only [if_neg h]
        exact failed _
  | err message => exact failed message

end Answers

/-- Among entries with distinct keys, the key of an entry picks that entry. -/
theorem filter_key_eq {α β : Type} [DecidableEq α] {l : List (α × β)}
    (hnodup : (l.map Prod.fst).Nodup) {x : α × β} (hx : x ∈ l) :
    l.filter (fun y => y.1 = x.1) = [x] := by
  induction l with
  | nil => cases hx
  | cons y l ih =>
      rw [List.map_cons, List.nodup_cons] at hnodup
      rcases List.mem_cons.mp hx with rfl | hx
      · rw [List.filter_cons_of_pos (by simp), List.filter_eq_nil_iff.mpr ?_]
        intro z hz heq
        exact hnodup.1 (List.mem_map.mpr ⟨z, hz, by simpa using heq⟩)
      · rw [List.filter_cons_of_neg, ih hnodup.2 hx]
        intro heq
        exact hnodup.1 (List.mem_map.mpr ⟨x, hx, by simpa using (of_decide_eq_true heq).symm⟩)

/-- The events of the worker. -/
def Event.isWorker : Event → Bool
  | .take | .poll | .dispatch _ | .process _ _ | .reply _ _ | .resume | .stop => true
  | _ => false

/-- How far the worker is from sending its next answer. -/
def phase (config : BatcherConfig) : Worker → Nat
  | .answering [] => 2 * config.maxBatchSize + 5
  | .receiving => 2 * config.maxBatchSize + 4
  | .collecting jobs => 2 * (config.maxBatchSize - jobs.length) + 3
  | .polled jobs => 2 * (config.maxBatchSize - jobs.length) + 2
  | .processing _ => 1
  | .answering (_ :: _) => 0
  | .stopped => 0

/-- A bound on the events the worker takes until job `k` of the queue order has
its answer. -/
def workLeft (config : BatcherConfig) (k : Nat) (events : List Event) (s : State) : Nat :=
  (k + 1 - (replies events).length) * (2 * config.maxBatchSize + 6) + phase config s.worker

section Progress

variable {config : BatcherConfig} {events : List Event} {s s' : State} {k : Nat}

theorem allAnswers_calls (batches : List (List Job × BatchResult)) :
    (allAnswers batches).map Prod.fst = (batches.map Prod.fst).flatten.map Job.reply := by
  induction batches with
  | nil => rfl
  | cons batch batches ih =>
      have hcons : allAnswers (batch :: batches) = answersOf batch.1 batch.2 ++ allAnswers batches :=
        rfl
      rw [hcons, List.map_append, ih, answersOf_calls, List.map_cons, List.flatten_cons,
        List.map_append]

/-- The answers go out in the order in which the jobs were accepted. -/
theorem Tracked.answers_extend (h : Tracked config events s) :
    (accepted events).map Job.reply =
      (replies events ++ pending s.worker).map Prod.fst ++
        ((inProcess s.worker).flatten ++ held s.worker ++ s.queue).map Job.reply := by
  rw [h.replied, allAnswers_calls, ← List.map_append, h.order, h.handled, List.flatten_append]
  simp only [List.append_assoc]

/-- A job without its answer is still with the worker or in the queue. -/
theorem Tracked.unanswered (h : Tracked config events s) (hk : k < (accepted events).length)
    (hwaits : (replies events).length ≤ k) :
    pending s.worker ≠ [] ∨ inProcess s.worker ≠ [] ∨ held s.worker ≠ [] ∨ s.queue ≠ [] := by
  by_contra hnone
  simp only [not_or, not_not] at hnone
  obtain ⟨hpending, hprocess, hheld, hqueue⟩ := hnone
  have hextends := congrArg List.length h.answers_extend
  rw [hpending, hprocess, hheld, hqueue] at hextends
  simp only [List.length_map, List.append_nil, List.flatten_nil, List.map_nil] at hextends
  omega

/-- While a job waits for its answer, the worker can move, whatever the processor
returns. -/
theorem Tracked.enabled (h : Tracked config events s) (hk : k < (accepted events).length)
    (hwaits : (replies events).length ≤ k) (result : BatchResult) :
    ∃ e, e.isWorker = true ∧ (step config s e).isSome = true ∧
      ∀ jobs other, e = .process jobs other → other = result := by
  have hsomewhere := h.unanswered hk hwaits
  cases hworker : s.worker with
  | receiving =>
      rw [hworker] at hsomewhere
      cases hqueue : s.queue with
      | nil =>
          rw [hqueue] at hsomewhere
          simp [pending, inProcess, held] at hsomewhere
      | cons job queue =>
          refine ⟨.take, rfl, ?_, fun _ _ heq => by cases heq⟩
          simp [step, workerStep, takeStep, hworker, hqueue]
  | collecting jobs =>
      by_cases hfull : config.maxBatchSize ≤ jobs.length
      · refine ⟨.dispatch jobs, rfl, ?_, fun _ _ heq => by cases heq⟩
        simp [step, workerStep, hworker, hfull]
      · have hroom : jobs.length < config.maxBatchSize := Nat.lt_of_not_le hfull
        cases hqueue : s.queue with
        | cons job queue =>
            refine ⟨.take, rfl, ?_, fun _ _ heq => by cases heq⟩
            simp [step, workerStep, takeStep, hworker, hqueue, hroom]
        | nil =>
            by_cases hconnected : s.connected = true
            · refine ⟨.poll, rfl, ?_, fun _ _ heq => by cases heq⟩
              simp [step, workerStep, hworker, hqueue, hconnected, hroom]
            · refine ⟨.dispatch jobs, rfl, ?_, fun _ _ heq => by cases heq⟩
              simp [step, workerStep, hworker, hqueue, hconnected]
  | polled jobs =>
      refine ⟨.dispatch jobs, rfl, ?_, fun _ _ heq => by cases heq⟩
      simp [step, workerStep, hworker]
  | processing jobs =>
      refine ⟨.process jobs result, rfl, ?_, ?_⟩
      · simp [step, workerStep, hworker]
      · intro jobs' other heq
        cases heq
        rfl
  | answering answers =>
      cases answers with
      | nil =>
          refine ⟨.resume, rfl, ?_, fun _ _ heq => by cases heq⟩
          simp [step, workerStep, hworker]
      | cons next answers =>
          refine ⟨.reply next.1 next.2, rfl, ?_, fun _ _ heq => by cases heq⟩
          simp [step, workerStep, hworker]
  | stopped =>
      have hqueue := h.drained hworker
      rw [hworker, hqueue] at hsomewhere
      simp [pending, inProcess, held] at hsomewhere

/-- Every event of the worker brings a waiting job closer to its answer, and no
other event takes it further away. -/
theorem Tracked.closer {e : Event} (h : Tracked config events s)
    (hk : k < (accepted events).length) (hwaits : ¬ k < (replies events).length)
    (hmoves : Moves config s e s') :
    k < (replies (events ++ [e])).length ∨
      workLeft config k (events ++ [e]) s' + (if e.isWorker then 1 else 0) ≤
        workLeft config k events s := by
  have hsomewhere := h.unanswered hk (Nat.le_of_not_lt hwaits)
  have quiet (hreplies : replies [e] = [])
      (hphase : phase config s'.worker + (if e.isWorker then 1 else 0) ≤ phase config s.worker) :
      workLeft config k (events ++ [e]) s' + (if e.isWorker then 1 else 0) ≤
        workLeft config k events s := by
    unfold workLeft
    rw [replies_append, hreplies, List.append_nil]
    omega
  right
  cases hmoves with
  | takeFirst job queue hworker hqueue =>
      refine quiet rfl ?_
      rw [hworker]
      show 2 * (config.maxBatchSize - 1) + 3 + 1 ≤ 2 * config.maxBatchSize + 4
      omega
  | takeNext jobs job queue hworker hroom hqueue =>
      have hlt : jobs.length < config.maxBatchSize := hworker.elim hroom (h.room jobs)
      refine quiet rfl ?_
      have hafter : phase config (.collecting (jobs ++ [job])) =
          2 * (config.maxBatchSize - (jobs.length + 1)) + 3 := by
        rw [phase, List.length_append]
        rfl
      show phase config (.collecting (jobs ++ [job])) + 1 ≤ _
      rw [hafter]
      rcases hworker with hworker | hworker <;> rw [hworker, phase] <;> omega
  | poll jobs hworker hroom =>
      refine quiet rfl ?_
      rw [hworker]
      exact Nat.le_refl _
  | dispatch jobs hworker =>
      refine quiet rfl ?_
      show 1 + 1 ≤ _
      rcases hworker with hworker | hworker <;> rw [hworker, phase] <;> omega
  | process jobs result hworker =>
      refine quiet rfl ?_
      rw [hworker]
      have hbatch := (h.sizes jobs (by
        rw [h.handled, hworker]
        exact List.mem_append_right _ (List.mem_singleton.mpr rfl))).1
      have hlength := congrArg List.length (answersOf_calls jobs result)
      rw [List.length_map, List.length_map] at hlength
      show phase config (.answering (answersOf jobs result)) + 1 ≤ 1
      cases hanswers : answersOf jobs result with
      | nil =>
          rw [hanswers, List.length_nil] at hlength
          omega
      | cons answer answers => exact Nat.le_refl 1
  | reply call answer answers hworker =>
      have hphase : phase config (.answering answers) ≤ 2 * config.maxBatchSize + 5 := by
        cases answers with
        | nil => exact Nat.le_refl _
        | cons => exact Nat.zero_le _
      unfold workLeft
      rw [replies_append, List.length_append]
      show (k + 1 - ((replies events).length + 1)) * (2 * config.maxBatchSize + 6) +
        phase config (.answering answers) + 1 ≤ _
      obtain ⟨left, hleft⟩ : ∃ left, k + 1 - (replies events).length = left + 1 :=
        ⟨k - (replies events).length, by omega⟩
      rw [show k + 1 - ((replies events).length + 1) = left by omega, hleft, Nat.add_mul,
        Nat.one_mul]
      generalize left * (2 * config.maxBatchSize + 6) = later
      omega
  | resume hworker =>
      refine quiet rfl ?_
      rw [hworker]
      exact Nat.le_refl _
  | stop hworker hqueue =>
      rw [hworker, hqueue] at hsomewhere
      simp [pending, inProcess, held] at hsomewhere
  | _ => exact quiet rfl (Nat.le_refl _)

end Progress

/-- A call that has neither returned nor been given up. -/
def Call.inProgress : Call → Bool
  | .ready _ | .sent | .refused | .waiting => true
  | _ => false

/-- What holds of the batcher after some events. -/
structure Delivers (config : BatcherConfig) (events : List Event) (s : State) : Prop where
  /-- No call's job is accepted twice. -/
  distinct : ((accepted events).map Job.reply).Nodup
  /-- Every accepted job is in one batch, with the worker, or queued, in the order of the
  queue. -/
  order : accepted events = (batches events).flatten ++ held s.worker ++ s.queue
  sizes : ∀ batch ∈ batches events, 1 ≤ batch.length ∧ batch.length ≤ config.maxBatchSize
  /-- Every batch but the one with the processor is processed, in order. -/
  handled : batches events = (processed events).map Prod.fst ++ inProcess s.worker
  /-- A processed job has one answer, sent or about to be: that of its position. -/
  answered : ∀ jobs result, (jobs, result) ∈ processed events → ∀ i (hi : i < jobs.length),
    (replies events ++ pending s.worker).filter (fun reply => reply.1 = jobs[i].reply) =
      [(jobs[i].reply, answerAt jobs result i)]
  /-- Nothing else is answered, and the answers follow the order of the queue. -/
  inOrder : (replies events ++ pending s.worker).map Prod.fst =
    ((processed events).map Prod.fst).flatten.map Job.reply
  /-- A call returns what was sent to it. -/
  returned : ∀ call bytes, s.calls call = .answered bytes →
    (call, .response bytes) ∈ replies events
  balanced : s.queue = [] → s.worker = .receiving ∨ s.worker = .stopped →
    (∀ call, (s.calls call).inProgress = false) →
    s.metrics.acceptedRequests = s.metrics.completedRequests + s.metrics.failedRequests

section Runs

variable {config : BatcherConfig} {events : List Event} {s : State}

/-- The three invariants together. -/
structure Invariant (config : BatcherConfig) (events : List Event) (s : State) : Prop where
  tracked : Tracked config events s
  callers : Callers events s
  metered : Metered events s

theorem invariant_step (hmax : 0 < config.maxBatchSize) (past : List Event) (s : State)
    (e : Event) (s' : State) (h : Invariant config past s)
    (hstep : (batcher config).step s e = some s') : Invariant config (past ++ [e]) s' :=
  have hmoves := moves_of_step hstep
  ⟨h.tracked.next hmax hmoves, h.callers.next hmoves, h.metered.next hmoves⟩

/-- When nothing is under way, every accepted job has been counted as completed or
failed. -/
theorem Invariant.balanced (h : Invariant config events s) (hqueue : s.queue = [])
    (hworker : s.worker = .receiving ∨ s.worker = .stopped)
    (hcalls : ∀ call, (s.calls call).inProgress = false) :
    s.metrics.acceptedRequests = s.metrics.completedRequests + s.metrics.failedRequests := by
  obtain ⟨tracked, callers, metered⟩ := h
  have hidle : held s.worker = [] ∧ inProcess s.worker = [] := by
    rcases hworker with hworker | hworker <;> rw [hworker] <;> exact ⟨rfl, rfl⟩
  have hall : accepted events = ((processed events).map Prod.fst).flatten := by
    rw [tracked.order, tracked.handled, hidle.1, hidle.2, hqueue]
    simp only [List.append_nil]
  have hperm : List.Perm (counted events) ((accepted events).map Job.reply) := by
    rw [List.perm_ext_iff_of_nodup callers.countedOnce callers.distinct]
    intro call
    rw [callers.counts, callers.entered]
    refine and_iff_left_of_imp fun _ hsent => ?_
    have := hcalls call
    rw [hsent] at this
    cases this
  have hlength := hperm.length_eq
  rw [List.length_map, hall, List.length_flatten, List.map_map] at hlength
  rw [metered.accepted, metered.finished, hlength]
  rfl

theorem Invariant.delivers (h : Invariant config events s) : Delivers config events s := by
  have hbalanced := h.balanced
  obtain ⟨tracked, callers, -⟩ := h
  have horder : (replies events ++ pending s.worker).map Prod.fst =
      ((processed events).map Prod.fst).flatten.map Job.reply := by
    rw [tracked.replied, allAnswers_calls]
  have hnodup : ((replies events ++ pending s.worker).map Prod.fst).Nodup := by
    have hextends := callers.distinct
    rw [tracked.answers_extend] at hextends
    exact (List.nodup_append.mp hextends).1
  refine ⟨callers.distinct, tracked.order, tracked.sizes, tracked.handled, ?_, horder,
    callers.answered, hbalanced⟩
  intro jobs result hbatch i hi
  apply filter_key_eq hnodup (x := (jobs[i].reply, answerAt jobs result i))
  rw [tracked.replied]
  exact List.mem_flatMap.mpr
    ⟨(jobs, result), hbatch, List.mem_of_getElem? (answersOf_getElem? jobs result hi)⟩

/-- Job `k` has its answer after as many events of the worker as are left for it,
whatever happens in between. -/
theorem answered_within (hmax : 0 < config.maxBatchSize) (h : Invariant config events s) {k : Nat}
    (hk : k < (accepted events).length) {more : List Event} {s' : State}
    (hmore : (batcher config).after s more = some s')
    (hwork : workLeft config k events s ≤ more.countP Event.isWorker) :
    k < (replies (events ++ more)).length := by
  have grows (past : List Event) (e : Event) :
      (accepted past).length ≤ (accepted (past ++ [e])).length ∧
        (replies past).length ≤ (replies (past ++ [e])).length := by
    rw [accepted_append, replies_append, List.length_append, List.length_append]
    exact ⟨Nat.le_add_right _ _, Nat.le_add_right _ _⟩
  refine @EventMachine.responds _ _ (batcher config)
    (fun past s => Invariant config past s ∧ k < (accepted past).length)
    (fun past _ => k < (replies past).length) Event.isWorker (workLeft config k)
    ?_ ?_ ?_ ?_ more events s s' ⟨h, hk⟩ hmore (Or.inr hwork)
  · intro past s e s' hI hstep
    exact ⟨invariant_step hmax past s e s' hI.1 hstep, Nat.lt_of_lt_of_le hI.2 (grows past e).1⟩
  · intro past s e s' _ hgoal _
    exact Nat.lt_of_lt_of_le hgoal (grows past e).2
  · intro past s e s' hI hgoal hstep
    exact hI.1.tracked.closer hI.2 hgoal (moves_of_step hstep)
  · intro past s _ hgoal
    have : 0 < k + 1 - (replies past).length := by omega
    exact Nat.add_pos_left (Nat.mul_pos this (Nat.succ_pos _)) _

end Runs

end Batcher
end Gput
