import Gput.Batcher.Returns

/-!
# A processor that panics

When `process_batch` panics, the worker unwinds: it drops the batch it holds and then
the receiver.  A call whose job was dropped, and a call that comes later, is told that
the worker has stopped.  Whether the channel drops what is queued with its receiver is
left open (`discards`).

For every other call this is a batcher whose processor keeps its last batch: `Calm`
relates the two, so what holds in every run of the batcher holds here.
-/

namespace Gput
namespace Batcher

/-- The worker runs, unwinds, or is gone. -/
inductive Phase where
  | running
  | unwinding
  | gone
deriving DecidableEq, Repr

structure PanicState where
  batcher : State
  phase : Phase

inductive PanicEvent where
  | event (e : Event)
  /-- `process_batch` panics, and the batch is dropped. -/
  | panic
  /-- The receiver is dropped. -/
  | unwound
  /-- A call learns that its job was dropped. -/
  | lost (call : Nat)
deriving DecidableEq, Repr

/-- The steps of one call behind its `submit`, when the worker may be gone. -/
def PanicEvent.isOf (call : Nat) : PanicEvent → Bool
  | .event (.disconnect job) => job.reply = call
  | .event (.countAccepted other) => other = call
  | .event (.countRejected other) => other = call
  | .event (.receiveReply other) => other = call
  | .lost other => other = call
  | _ => false

section Step

variable (config : BatcherConfig) (discards : Bool) (s : PanicState)

def panicStep : PanicEvent → Option PanicState
  | .event e =>
      if s.phase = .running ∨ e.isWorker = false then
        (step config s.batcher e).map fun batcher => { s with batcher := batcher }
      else none
  | .panic =>
      match s.phase, s.batcher.worker with
      | .running, .processing _ => some { s with phase := .unwinding }
      | _, _ => none
  | .unwound =>
      if s.phase = .unwinding then
        some
          { batcher :=
              { s.batcher with
                worker := .stopped
                queue := if discards then [] else s.batcher.queue }
            phase := .gone }
      else none
  | .lost call =>
      if s.phase ≠ .running ∧ s.batcher.calls call = .waiting ∧ s.batcher.mailbox call = none ∧
          call ∉ s.batcher.queue.map Job.reply then
        some { s with batcher := s.batcher.finish call (.rejected .stopped) }
      else none

/-- The batcher of a configuration, on a processor that may panic. -/
def panicking : EventMachine PanicState PanicEvent where
  start := { batcher := initial, phase := .running }
  step := panicStep config discards

end Step

/-- Every event, with the states before and after it. -/
inductive PanicMoves (config : BatcherConfig) (discards : Bool) (s : PanicState) :
    PanicEvent → PanicState → Prop
  | event (e : Event) (batcher : State) (hworks : s.phase = .running ∨ e.isWorker = false)
      (hstep : step config s.batcher e = some batcher) :
      PanicMoves config discards s (.event e) { s with batcher := batcher }
  | panic (jobs : List Job) (hrunning : s.phase = .running)
      (hworker : s.batcher.worker = .processing jobs) :
      PanicMoves config discards s .panic { s with phase := .unwinding }
  | unwound (hunwinding : s.phase = .unwinding) :
      PanicMoves config discards s .unwound
        { batcher :=
            { s.batcher with
              worker := .stopped
              queue := if discards then [] else s.batcher.queue }
          phase := .gone }
  | lost (call : Nat) (hphase : s.phase ≠ .running) (hcall : s.batcher.calls call = .waiting)
      (hmail : s.batcher.mailbox call = none) (hqueue : call ∉ s.batcher.queue.map Job.reply) :
      PanicMoves config discards s (.lost call)
        { s with batcher := s.batcher.finish call (.rejected .stopped) }

theorem moves_of_panicStep {config : BatcherConfig} {discards : Bool} {s s' : PanicState}
    {e : PanicEvent} (h : panicStep config discards s e = some s') :
    PanicMoves config discards s e s' := by
  cases e with
  | event e =>
      obtain ⟨hworks, h⟩ := Option.ite_none_right_eq_some.mp h
      obtain ⟨batcher, hstep, rfl⟩ := Option.map_eq_some_iff.mp h
      exact .event e batcher hworks hstep
  | panic =>
      simp only [panicStep] at h
      split at h
      · next jobs hrunning hworker =>
        cases h
        exact .panic jobs hrunning hworker
      · cases h
  | unwound =>
      obtain ⟨hunwinding, h⟩ := Option.ite_none_right_eq_some.mp h
      cases h
      exact .unwound hunwinding
  | lost call =>
      obtain ⟨⟨hphase, hcall, hmail, hqueue⟩, h⟩ := Option.ite_none_right_eq_some.mp h
      cases h
      exact .lost call hphase hcall hmail hqueue

/-- The events of the batcher. -/
def plain (events : List PanicEvent) : List Event :=
  events.filterMap fun
    | .event e => some e
    | _ => none

theorem plain_append (first second : List PanicEvent) :
    plain (first ++ second) = plain first ++ plain second :=
  List.filterMap_append

/-- What the jobs and the processor did is the same in two histories. -/
structure SameJobs (first second : List Event) : Prop where
  submitted : submitted first = submitted second
  accepted : accepted first = accepted second
  batches : batches first = batches second
  processed : processed first = processed second
  replies : replies first = replies second

theorem SameJobs.refl (events : List Event) : SameJobs events events :=
  ⟨rfl, rfl, rfl, rfl, rfl⟩

/-- Both go on with the same event, or with events that do nothing to jobs. -/
theorem SameJobs.append {first second later later' : List Event} (h : SameJobs first second)
    (hlater : SameJobs later later') : SameJobs (first ++ later) (second ++ later') where
  submitted := by simp only [submitted_append, h.submitted, hlater.submitted]
  accepted := by simp only [accepted_append, h.accepted, hlater.accepted]
  batches := by simp only [batches_append, h.batches, hlater.batches]
  processed := by simp only [processed_append, h.processed, hlater.processed]
  replies := by simp only [replies_append, h.replies, hlater.replies]

/-- A call of a batcher that was given up, or never got to the queue, where the worker
is gone. -/
def ToldStopped (s b : State) (call : Nat) : Prop :=
  s.calls call = .rejected .stopped ∧ b.mailbox call = none ∧
    (b.calls call = .abandoned ∨ ∃ request, b.calls call = .ready request)

/-- A run of the batcher whose processor keeps the batch on which the other panicked. -/
structure Calm (config : BatcherConfig) (events : List PanicEvent) (s : PanicState)
    (past : List Event) (b : State) : Prop where
  run : (batcher config).Run past b
  same : SameJobs past (plain events)
  calls : ∀ call, s.batcher.calls call = b.calls call ∨ ToldStopped s.batcher b call
  mailbox : s.batcher.mailbox = b.mailbox
  connected : s.batcher.connected = true → b.connected = true
  running : s.phase = .running → s.batcher = b
  keeps : s.phase ≠ .running → ∃ jobs, b.worker = .processing jobs
  unwinding : s.phase = .unwinding → s.batcher.worker = b.worker ∧ s.batcher.queue = b.queue
  gone : s.phase = .gone → s.batcher.worker = .stopped

section Calm

variable {config : BatcherConfig} {discards : Bool} {events : List PanicEvent}
  {s s' : PanicState} {past : List Event} {b : State}

theorem calm_start : Calm config [] { batcher := initial, phase := .running } [] initial where
  run := rfl
  same := SameJobs.refl []
  calls := fun _ => Or.inl rfl
  mailbox := rfl
  connected := id
  running := fun _ => rfl
  keeps := fun h => absurd rfl h
  unwinding := fun h => by cases h
  gone := fun h => by cases h

/-- One call moves on, on both sides. -/
theorem calls_moved {t t' b' : State}
    (h : ∀ call, t.calls call = b.calls call ∨ ToldStopped t b call) {call : Nat}
    {stage stage' : Call} (hcalls : t'.calls = Function.update t.calls call stage)
    (hcalls' : b'.calls = Function.update b.calls call stage') (hmail : b'.mailbox = b.mailbox)
    (hstage : stage = stage' ∨ stage = .rejected .stopped ∧ b.mailbox call = none ∧
      (stage' = .abandoned ∨ ∃ request, stage' = .ready request)) (other : Nat) :
    t'.calls other = b'.calls other ∨ ToldStopped t' b' other := by
  unfold ToldStopped
  rw [hcalls, hcalls', hmail]
  by_cases hother : other = call
  · subst hother
    simpa only [Function.update_self] using hstage
  · simpa only [Function.update_of_ne hother, ToldStopped] using h other

/-- Behind the panic the worker does nothing more. -/
theorem Calm.moved (h : Calm config events s past b) (hphase : s.phase ≠ .running)
    {e : PanicEvent} {later : List Event} {t b' : State}
    (hafter : (batcher config).after b later = some b') (hsame : SameJobs later (plain [e]))
    (hcalls : ∀ call, t.calls call = b'.calls call ∨ ToldStopped t b' call)
    (hmail : t.mailbox = s.batcher.mailbox ∧ b'.mailbox = b.mailbox)
    (hconnected : t.connected = true → b'.connected = true)
    (hworker : t.worker = s.batcher.worker ∧ b'.worker = b.worker)
    (hqueue : s.phase = .unwinding → t.queue = b'.queue) :
    Calm config (events ++ [e]) { s with batcher := t } (past ++ later) b' where
  run := h.run.append hafter
  same := by
    rw [plain_append]
    exact h.same.append hsame
  calls := hcalls
  mailbox := by rw [hmail.1, hmail.2, h.mailbox]
  connected := hconnected
  running := fun hrunning => absurd hrunning hphase
  keeps := fun _ => by
    rw [hworker.2]
    exact h.keeps hphase
  unwinding := fun hunwinding => by
    rw [hworker.1, hworker.2]
    exact ⟨(h.unwinding hunwinding).1, hqueue hunwinding⟩
  gone := fun hgone => hworker.1.trans (h.gone hgone)

/-- A call that is not told so stands where it stands in the batcher. -/
theorem Calm.calls_eq (h : Calm config events s past b) {call : Nat} {stage : Call}
    (hcall : s.batcher.calls call = stage) (hstage : stage ≠ .rejected .stopped) :
    b.calls call = stage := by
  rcases h.calls call with hsame | ⟨htold, -⟩
  · exact hsame.symm.trans hcall
  · exact absurd (hcall.symm.trans htold) hstage

/-- A step of a caller behind the panic is one of the batcher, or none at all. -/
theorem Calm.caller (h : Calm config events s past b) (followed : Followed config past b)
    (hphase : s.phase ≠ .running) {e : Event} (hworker : e.isWorker = false) {t : State}
    (hstep : step config s.batcher e = some t) :
    ∃ past' b', Calm config (events ++ [.event e]) { s with batcher := t } past' b' := by
  obtain ⟨jobs, hkeeps⟩ := h.keeps hphase
  have running (hnot : s.batcher.worker ≠ .stopped) : s.phase = .unwinding := by
    cases hphase' : s.phase with
    | running => exact absurd hphase' hphase
    | unwinding => rfl
    | gone => exact absurd (h.gone hphase') hnot
  have follow {b' : State} (hb : step config b e = some b')
      (hcalls : ∀ call, t.calls call = b'.calls call ∨ ToldStopped t b' call)
      (hmail : t.mailbox = s.batcher.mailbox ∧ b'.mailbox = b.mailbox)
      (hconnected : t.connected = true → b'.connected = true)
      (hworker : t.worker = s.batcher.worker ∧ b'.worker = b.worker)
      (hqueue : s.phase = .unwinding → t.queue = b'.queue) :
      ∃ past' b', Calm config (events ++ [.event e]) { s with batcher := t } past' b' :=
    ⟨_, _, h.moved hphase (EventMachine.after_cons.mpr ⟨b', hb, rfl⟩) (SameJobs.refl [e]) hcalls
      hmail hconnected hworker hqueue⟩
  have queue (hunwinding : s.phase = .unwinding) : s.batcher.queue = b.queue :=
    (h.unwinding hunwinding).2
  have stay : (batcher config).after b [] = some b := rfl
  have hmoves := moves_of_step hstep
  cases hmoves with
  | submit call request hopen hcall =>
      have hidle := h.calls_eq hcall (by simp)
      exact follow (if_pos ⟨h.connected hopen, hidle⟩)
        (calls_moved h.calls rfl rfl rfl (Or.inl rfl)) ⟨rfl, rfl⟩ h.connected ⟨rfl, rfl⟩ queue
  | accept job hcall hnot hroom =>
      have hunwinding := running hnot
      have hready := h.calls_eq hcall (by simp)
      have hworker' : b.worker ≠ .stopped := by simp [hkeeps]
      exact follow (if_pos ⟨hready, hworker', queue hunwinding ▸ hroom⟩)
        (calls_moved h.calls rfl rfl rfl (Or.inl rfl)) ⟨rfl, rfl⟩ h.connected ⟨rfl, rfl⟩
        fun _ => congrArg (· ++ [job]) (queue hunwinding)
  | overload job hcall hfull =>
      have hnot : s.batcher.worker ≠ .stopped :=
        (Option.ite_none_right_eq_some.mp hstep).1.2.1
      have hunwinding := running hnot
      have hready := h.calls_eq hcall (by simp)
      have hworker' : b.worker ≠ .stopped := by simp [hkeeps]
      exact follow (if_pos ⟨hready, hworker', queue hunwinding ▸ hfull⟩)
        (calls_moved h.calls rfl rfl rfl (Or.inl rfl)) ⟨rfl, rfl⟩ h.connected ⟨rfl, rfl⟩ queue
  | disconnect job hcall =>
      -- the batcher below never lets go of the call
      have hready := h.calls_eq hcall (by simp)
      have hmail : b.mailbox job.reply = none := followed.unanswered (by rw [hready]; rfl)
      have hcalls' : b.calls = Function.update b.calls job.reply (.ready job.request) :=
        (Function.update_eq_self_iff.mpr hready.symm).symm
      exact ⟨_, _, h.moved hphase stay ⟨rfl, rfl, rfl, rfl, rfl⟩
        (calls_moved h.calls rfl hcalls' rfl (Or.inr ⟨rfl, hmail, Or.inr ⟨_, rfl⟩⟩)) ⟨rfl, rfl⟩
        h.connected ⟨rfl, rfl⟩ queue⟩
  | countAccepted call hcall =>
      have hsent := h.calls_eq hcall (by simp)
      exact follow (if_pos hsent) (calls_moved h.calls rfl rfl rfl (Or.inl rfl)) ⟨rfl, rfl⟩
        h.connected ⟨rfl, rfl⟩ queue
  | countRejected call hcall =>
      have hrefused := h.calls_eq hcall (by simp)
      exact follow (if_pos hrefused) (calls_moved h.calls rfl rfl rfl (Or.inl rfl)) ⟨rfl, rfl⟩
        h.connected ⟨rfl, rfl⟩ queue
  | receiveResponse call bytes hcall hmail =>
      have hwaiting := h.calls_eq hcall (by simp)
      rw [h.mailbox] at hmail
      have hb : step config b (.receiveReply call) = some (b.finish call (.answered bytes)) := by
        simp [step, callerStep, hwaiting, hmail]
      exact follow hb (calls_moved h.calls rfl rfl rfl (Or.inl rfl)) ⟨rfl, rfl⟩ h.connected
        ⟨rfl, rfl⟩ queue
  | receiveFailure call message hcall hmail =>
      have hwaiting := h.calls_eq hcall (by simp)
      rw [h.mailbox] at hmail
      have hb : step config b (.receiveReply call) =
          some (b.finish call (.rejected (.processing message))) := by
        simp [step, callerStep, hwaiting, hmail]
      exact follow hb (calls_moved h.calls rfl rfl rfl (Or.inl rfl)) ⟨rfl, rfl⟩ h.connected
        ⟨rfl, rfl⟩ queue
  | abandon call hcall =>
      have hwaiting := h.calls_eq hcall (by simp)
      exact follow (if_pos hwaiting) (calls_moved h.calls rfl rfl rfl (Or.inl rfl)) ⟨rfl, rfl⟩
        h.connected ⟨rfl, rfl⟩ queue
  | close =>
      exact ⟨_, _, h.moved hphase stay ⟨rfl, rfl, rfl, rfl, rfl⟩ h.calls ⟨rfl, rfl⟩
        (fun hopen => by cases hopen) ⟨rfl, rfl⟩ queue⟩
  | _ => cases hworker

/-- The batcher below follows every step. -/
theorem Calm.next (h : Calm config events s past b) (followed : Followed config past b)
    {e : PanicEvent} (hmoves : PanicMoves config discards s e s') :
    ∃ past' b', Calm config (events ++ [e]) s' past' b' := by
  have quiet (hquiet : plain [e] = []) : SameJobs past (plain (events ++ [e])) := by
    rw [plain_append, hquiet, List.append_nil]
    exact h.same
  cases hmoves with
  | event e t hworks hstep =>
      by_cases hphase : s.phase = .running
      · rw [h.running hphase] at hstep
        refine ⟨past ++ [e], t, h.run.append (EventMachine.after_cons.mpr ⟨t, hstep, rfl⟩), ?_,
          fun _ => Or.inl rfl, rfl, id, fun _ => rfl, fun hnot => absurd hphase hnot,
          fun hunwinding => ?_, fun hgone => ?_⟩
        · rw [plain_append]
          exact h.same.append (SameJobs.refl [e])
        · exact absurd (hphase.symm.trans hunwinding) (by simp)
        · exact absurd (hphase.symm.trans hgone) (by simp)
      · exact h.caller followed hphase (hworks.resolve_left hphase) hstep
  | panic jobs hrunning hworker =>
      have hsame := h.running hrunning
      exact ⟨past, b, h.run, quiet rfl, h.calls, h.mailbox, h.connected,
        fun hagain => (by cases hagain), fun _ => ⟨jobs, hsame ▸ hworker⟩,
        fun _ => by rw [hsame]; exact ⟨rfl, rfl⟩, fun hgone => (by cases hgone)⟩
  | unwound hunwinding =>
      have hphase : s.phase ≠ .running := by simp [hunwinding]
      exact ⟨past, b, h.run, quiet rfl, h.calls, h.mailbox, h.connected,
        fun hrunning => (by cases hrunning), fun _ => h.keeps hphase,
        fun hagain => (by cases hagain), fun _ => rfl⟩
  | lost call hphase hcall hmail _ =>
      have hwaiting := h.calls_eq hcall (by simp)
      have hafter : (batcher config).after b [.abandon call] = some (b.finish call .abandoned) :=
        EventMachine.after_cons.mpr ⟨_, if_pos hwaiting, rfl⟩
      rw [h.mailbox] at hmail
      exact ⟨_, _, h.moved hphase hafter ⟨rfl, rfl, rfl, rfl, rfl⟩
        (calls_moved h.calls rfl rfl rfl (Or.inr ⟨rfl, hmail, Or.inl rfl⟩)) ⟨rfl, rfl⟩ h.connected
        ⟨rfl, rfl⟩ fun hunwinding => (h.unwinding hunwinding).2⟩

theorem calm_run (hmax : 0 < config.maxBatchSize)
    (run : (panicking config discards).Run events s) :
    ∃ past b, Calm config events s past b := by
  refine @EventMachine.Run.invariant _ _ (panicking config discards)
    (fun events s => ∃ past b, Calm config events s past b) ⟨[], initial, calm_start⟩ ?_ events s
    run
  rintro events s e s' ⟨past, b, calm⟩ hstep
  exact calm.next (followed_run hmax calm.run) (moves_of_panicStep hstep)

theorem SameJobs.returned {first second : List Event} (h : SameJobs first second) {call : Nat}
    {request : List UInt8} {result : Except SubmitError (List UInt8)}
    (hreturned : Returned first call request result) : Returned second call request result := by
  cases hreturned with
  | served jobs responses i response hbatch hlength hjob hresponse =>
      exact .served jobs responses i response (h.processed ▸ hbatch) hlength hjob hresponse
  | overloaded hrefused => exact .overloaded (h.accepted ▸ hrefused)
  | failed jobs result i message hbatch hjob hfailed =>
      exact .failed jobs result i message (h.processed ▸ hbatch) hjob hfailed

/-- A call returns what its request came to; only behind the panic, and only where no
answer was sent, it is told that the worker has stopped. -/
theorem Calm.returned (h : Calm config events s past b) (followed : Followed config past b)
    {call : Nat} {request : List UInt8} {result : Except SubmitError (List UInt8)}
    (hcall : (s.batcher.calls call).result = some result)
    (hrequest : (call, request) ∈ submitted (plain events)) :
    Returned (plain events) call request result ∨
      result = .error .stopped ∧ s.phase ≠ .running ∧
        call ∉ (replies (plain events)).map Prod.fst := by
  rcases h.calls call with hsame | ⟨htold, hmail, -⟩
  · rw [hsame] at hcall
    exact Or.inl (h.same.returned (followed.returned hcall (h.same.submitted ▸ hrequest)))
  · rw [htold] at hcall
    cases hcall
    refine Or.inr ⟨rfl, fun hrunning => ?_, fun hreplied => ?_⟩
    · rw [h.running hrunning] at htold
      exact followed.borrowed.never call htold
    · rw [← h.same.replies] at hreplied
      obtain ⟨answer, hanswer⟩ := mailbox_filled h.run hreplied
      rw [hmail] at hanswer
      cases hanswer

/-- The batch on which the processor panicked stays the last one, without an answer. -/
theorem Calm.lastBatch (h : Calm config events s past b) (followed : Followed config past b)
    (hphase : s.phase ≠ .running) :
    ∃ jobs, batches (plain events) = (processed (plain events)).map Prod.fst ++ [jobs] ∧
      allAnswers (processed (plain events)) = replies (plain events) := by
  obtain ⟨jobs, hkeeps⟩ := h.keeps hphase
  obtain ⟨tracked, -, -⟩ := followed.delivered
  refine ⟨jobs, ?_, ?_⟩
  · rw [← h.same.batches, ← h.same.processed, tracked.handled, hkeeps]
    rfl
  · rw [← h.same.processed, ← h.same.replies, ← tracked.replied, hkeeps]
    exact List.append_nil _

theorem panicStep_event {e : Event} (hworker : e.isWorker = false) {t : State}
    (hstep : step config s.batcher e = some t) :
    panicStep config discards s (.event e) = some { s with batcher := t } := by
  simp [panicStep, hworker, hstep]

/-- The call returns within some steps of its own. -/
def Ends (config : BatcherConfig) (discards : Bool) (s : PanicState) (call count : Nat) : Prop :=
  ∃ more s', more.length ≤ count ∧ (∀ e ∈ more, e.isOf call = true) ∧
    (panicking config discards).after s more = some s' ∧
    ((s'.batcher.calls call).result).isSome = true

theorem ends_of_step {call : Nat} {e : PanicEvent} (hown : e.isOf call = true)
    (hstep : panicStep config discards s e = some s')
    (hresult : ((s'.batcher.calls call).result).isSome = true) : Ends config discards s call 1 := by
  refine ⟨[e], s', Nat.le_refl 1, fun other hmem => ?_,
    EventMachine.after_cons.mpr ⟨s', hstep, rfl⟩, hresult⟩
  rwa [List.mem_singleton.mp hmem]

theorem Ends.before {call count : Nat} {e : PanicEvent} (hown : e.isOf call = true)
    (hstep : panicStep config discards s e = some s') (h : Ends config discards s' call count) :
    Ends config discards s call (count + 1) := by
  obtain ⟨more, t, hlength, hmore, hafter, hresult⟩ := h
  exact ⟨e :: more, t, Nat.succ_le_succ hlength, List.forall_mem_cons.mpr ⟨hown, hmore⟩,
    EventMachine.after_cons.mpr ⟨s', hstep, hafter⟩, hresult⟩

theorem Ends.mono {call count more : Nat} (hle : count ≤ more)
    (h : Ends config discards s call count) : Ends config discards s call more := by
  obtain ⟨own, t, hlength, h⟩ := h
  exact ⟨own, t, hlength.trans hle, h⟩

/-- What the end of the worker does to a call. -/
theorem call_of_panic {e : PanicEvent} (hmoves : PanicMoves config discards s e s')
    (hpanic : ∀ event, e ≠ .event event) (call : Nat) :
    (s.batcher.calls call ≠ .idle → s'.batcher.calls call ≠ .idle) ∧
      (s'.batcher.calls call = .abandoned → s.batcher.calls call = .abandoned) ∧
      ∀ result, (s.batcher.calls call).result = some result →
        (s'.batcher.calls call).result = some result := by
  cases hmoves with
  | event event => exact absurd rfl (hpanic event)
  | panic | unwound => exact ⟨id, id, fun _ => id⟩
  | lost other _ hwaiting _ _ =>
      show (_ → Function.update s.batcher.calls other _ call ≠ _) ∧
        (Function.update s.batcher.calls other _ call = _ → _) ∧
        ∀ result, _ → (Function.update s.batcher.calls other _ call).result = _
      by_cases hother : call = other
      · subst hother
        simp [hwaiting, Call.result]
      · rw [Function.update_of_ne hother]
        exact ⟨id, id, fun _ => id⟩

theorem phase_of_panic {e : PanicEvent} (hmoves : PanicMoves config discards s e s')
    (hpanic : ∀ event, e ≠ .event event) : s'.phase ≠ .running := by
  cases hmoves with
  | event event => exact absurd rfl (hpanic event)
  | panic | unwound => simp
  | lost _ hphase => exact hphase

/-- Behind the panic a call that waits for a job which is not in the channel returns. -/
theorem ends_of_waiting (hphase : s.phase ≠ .running) {call : Nat}
    (hcall : s.batcher.calls call = .waiting) (hqueue : call ∉ s.batcher.queue.map Job.reply) :
    Ends config discards s call 1 := by
  have own : (PanicEvent.event (.receiveReply call)).isOf call = true := by
    simp [PanicEvent.isOf]
  cases hmail : s.batcher.mailbox call with
  | none =>
      have hstep : panicStep config discards s (.lost call) = some _ :=
        if_pos ⟨hphase, hcall, hmail, hqueue⟩
      refine ends_of_step (by simp [PanicEvent.isOf]) hstep ?_
      simp [State.finish, State.setCall, Call.result]
  | some answer =>
      cases answer with
      | response bytes =>
          have hstep : step config s.batcher (.receiveReply call) =
              some (s.batcher.finish call (.answered bytes)) := by
            simp [step, callerStep, hcall, hmail]
          refine ends_of_step own (panicStep_event rfl hstep) ?_
          simp [State.finish, State.setCall, Call.result]
      | failed message =>
          have hstep : step config s.batcher (.receiveReply call) =
              some (s.batcher.finish call (.rejected (.processing message))) := by
            simp [step, callerStep, hcall, hmail]
          refine ends_of_step own (panicStep_event rfl hstep) ?_
          simp [State.finish, State.setCall, Call.result]

/-- Once the worker is gone, so does every call whose job is not in the channel. -/
theorem ends_of_gone (hgone : s.phase = .gone) (hworker : s.batcher.worker = .stopped) {call : Nat}
    (hcall : (s.batcher.calls call).inProgress = true)
    (hqueue : call ∉ s.batcher.queue.map Job.reply) : Ends config discards s call 2 := by
  have hphase : s.phase ≠ .running := by simp [hgone]
  cases hstage : s.batcher.calls call with
  | ready request =>
      have hstep : step config s.batcher (.disconnect { request := request, reply := call }) =
          some (s.batcher.finish call (.rejected .stopped)) := if_pos ⟨hstage, hworker⟩
      refine (ends_of_step ?_ (panicStep_event rfl hstep) ?_).mono (Nat.le_succ 1)
      · simp [PanicEvent.isOf]
      · simp [State.finish, State.setCall, Call.result]
  | refused =>
      have hstep : step config s.batcher (.countRejected call) = some _ := if_pos hstage
      refine (ends_of_step ?_ (panicStep_event rfl hstep) ?_).mono (Nat.le_succ 1)
      · simp [PanicEvent.isOf]
      · simp [State.finish, State.setCall, Call.result]
  | waiting => exact (ends_of_waiting hphase hstage hqueue).mono (Nat.le_succ 1)
  | sent =>
      obtain ⟨t, hstep, hwaiting, hsame⟩ :
          ∃ t, step config s.batcher (.countAccepted call) = some t ∧ t.calls call = .waiting ∧
            t.queue = s.batcher.queue :=
        ⟨_, if_pos hstage, by simp [State.setCall], rfl⟩
      have hnext : Ends config discards { s with batcher := t } call 1 :=
        @ends_of_waiting config discards { s with batcher := t } hphase call hwaiting
          (hsame ▸ hqueue)
      exact hnext.before (by simp [PanicEvent.isOf]) (panicStep_event rfl hstep)
  | idle | answered | rejected | abandoned =>
      rw [hstage] at hcall
      cases hcall

/-- Where a call stands that begins when the worker is gone. -/
inductive Late : Call → Prop
  | idle : Late .idle
  | ready (request : List UInt8) : Late (.ready request)
  | stopped : Late (.rejected .stopped)

/-- A call that comes too late is told nothing but that the worker has stopped. -/
theorem Late.next {call : Nat} (hgone : s.phase = .gone) (hworker : s.batcher.worker = .stopped)
    (h : Late (s.batcher.calls call)) {e : PanicEvent}
    (hmoves : PanicMoves config discards s e s') :
    s'.phase = .gone ∧ s'.batcher.worker = .stopped ∧ Late (s'.batcher.calls call) := by
  have other {b : State} {moved : Call} {caller : Nat}
      (hcaller : b.calls caller = moved) (hlate : ¬ Late moved) {stage : Call}
      (hb : Late (b.calls call)) : Late (Function.update b.calls caller stage call) := by
    rw [Function.update_of_ne]
    · exact hb
    · rintro rfl
      exact hlate (hcaller ▸ hb)
  cases hmoves with
  | event e t hworks hstep =>
      have hcaller : e.isWorker = false := hworks.resolve_left (by simp [hgone])
      have hmoves := moves_of_step hstep
      cases hmoves with
      | submit caller request _ _ =>
          refine ⟨hgone, hworker, ?_⟩
          by_cases hsame : call = caller
          · subst hsame
            simpa [State.setCall] using Late.ready request
          · simpa [State.setCall, Function.update_of_ne hsame] using h
      | accept _ _ hnot => exact absurd hworker hnot
      | overload =>
          exact absurd hworker (Option.ite_none_right_eq_some.mp hstep).1.2.1
      | disconnect job _ =>
          refine ⟨hgone, hworker, ?_⟩
          by_cases hsame : call = job.reply
          · subst hsame
            simpa [State.finish, State.setCall] using Late.stopped
          · simpa [State.finish, State.setCall, Function.update_of_ne hsame] using h
      | countAccepted _ hcall => exact ⟨hgone, hworker, other hcall (by rintro ⟨⟩) h⟩
      | countRejected _ hcall => exact ⟨hgone, hworker, other hcall (by rintro ⟨⟩) h⟩
      | receiveResponse _ _ hcall => exact ⟨hgone, hworker, other hcall (by rintro ⟨⟩) h⟩
      | receiveFailure _ _ hcall => exact ⟨hgone, hworker, other hcall (by rintro ⟨⟩) h⟩
      | abandon _ hcall => exact ⟨hgone, hworker, other hcall (by rintro ⟨⟩) h⟩
      | close => exact ⟨hgone, hworker, h⟩
      | _ => cases hcaller
  | panic jobs hrunning => simp [hgone] at hrunning
  | unwound hunwinding => simp [hgone] at hunwinding
  | lost caller _ hcall =>
      exact ⟨hgone, hworker, other hcall (by rintro ⟨⟩) h⟩

/-- Whatever happens next, a call that has not begun yet returns nothing else. -/
theorem stopped_of_gone (hgone : s.phase = .gone) (hworker : s.batcher.worker = .stopped)
    {call : Nat} (hcall : s.batcher.calls call = .idle) {more : List PanicEvent}
    (hmore : (panicking config discards).after s more = some s')
    {result : Except SubmitError (List UInt8)}
    (hresult : (s'.batcher.calls call).result = some result) : result = .error .stopped := by
  obtain ⟨-, -, hlate⟩ := @EventMachine.invariant_from _ _ (panicking config discards)
    (fun _ s => s.phase = .gone ∧ s.batcher.worker = .stopped ∧ Late (s.batcher.calls call))
    (fun _ _ _ _ ⟨hgone, hworker, hlate⟩ hstep => hlate.next hgone hworker (moves_of_panicStep hstep)) more [] s s'
    ⟨hgone, hworker, hcall ▸ .idle⟩ hmore
  generalize s'.batcher.calls call = stage at hlate hresult
  cases hlate <;> cases hresult
  rfl

/-- A channel that drops what is queued stays empty. -/
theorem queue_of_gone (run : (panicking config true).Run events s) (hgone : s.phase = .gone) :
    s.batcher.queue = [] := by
  have hI := @EventMachine.Run.invariant _ _ (panicking config true)
    (fun _ s => s.phase = .gone → s.batcher.worker = .stopped ∧ s.batcher.queue = [])
    (fun h => by cases h) ?_ events s run
  · exact (hI hgone).2
  · intro past s e s' hI hstep hgone
    cases moves_of_panicStep hstep with
    | event e t hworks hevent =>
        have hphase : s.phase = .gone := hgone
        obtain ⟨hworker, hqueue⟩ := hI hphase
        have hcaller : e.isWorker = false := hworks.resolve_left (by simp [hphase])
        cases moves_of_step hevent with
        | accept _ _ hnot => exact absurd hworker hnot
        | submit | overload | disconnect | countAccepted | countRejected | receiveResponse
        | receiveFailure | abandon | close => exact ⟨hworker, hqueue⟩
        | _ => cases hcaller
    | panic => cases hgone
    | unwound => exact ⟨rfl, rfl⟩
    | lost => exact hI hgone

/-- What a batcher promises on a processor that may panic. -/
structure Settles (config : BatcherConfig) (discards : Bool) (events : List PanicEvent)
    (s : PanicState) : Prop where
  /-- Its jobs go the way they go in a run of the batcher, which delivers. -/
  jobs : ∃ past b, (batcher config).Run past b ∧ Delivers config past b ∧
    SameJobs past (plain events)
  returned : ∀ call request result, (call, request) ∈ submitted (plain events) →
    (s.batcher.calls call).result = some result →
    Returned (plain events) call request result ∨
      result = .error .stopped ∧ s.phase ≠ .running ∧ call ∉ (replies (plain events)).map Prod.fst
  /-- Behind the panic one batch is left, and every answer to the others was sent. -/
  lastBatch : s.phase ≠ .running →
    ∃ jobs, batches (plain events) = (processed (plain events)).map Prod.fst ++ [jobs] ∧
      allAnswers (processed (plain events)) = replies (plain events)
  unwinds : s.phase = .unwinding → ∃ s', panicStep config discards s .unwound = some s' ∧
    s'.phase = .gone
  /-- Then a call returns unless its job is still in the channel. -/
  ends : s.phase = .gone → ∀ call, (s.batcher.calls call).inProgress = true →
    (discards = false → call ∉ s.batcher.queue.map Job.reply) → Ends config discards s call 2
  /-- A call that begins only now is told that the worker has stopped. -/
  late : s.phase = .gone → ∀ call, s.batcher.calls call = .idle →
    ∀ more s', (panicking config discards).after s more = some s' →
    ∀ result, (s'.batcher.calls call).result = some result → result = .error .stopped

/-- **A processor that panics takes the worker with it, and no caller.**  Whatever the
interleaving, the jobs go the way of a run of the batcher in which the last batch is
never answered.  A call returns what its own request came to, or learns that the worker
has stopped, which happens only behind the panic and to no call that was answered.  Once
the worker is gone every call whose job is not left in the channel returns, and a call
that comes later learns that the worker has stopped. -/
theorem panic_settles (hmax : 0 < config.maxBatchSize)
    (run : (panicking config discards).Run events s) : Settles config discards events s := by
  obtain ⟨past, b, calm⟩ := calm_run hmax run
  have followed := followed_run hmax calm.run
  refine ⟨⟨past, b, calm.run, followed.delivered.delivers, calm.same⟩, ?_,
    fun hphase => calm.lastBatch followed hphase, fun hunwinding => ⟨_, if_pos hunwinding, rfl⟩, ?_,
    fun hgone call hcall more s' hmore result hresult =>
      stopped_of_gone hgone (calm.gone hgone) hcall hmore hresult⟩
  · exact fun call request result hrequest hcall => calm.returned followed hcall hrequest
  · intro hgone call hcall hqueue
    refine ends_of_gone hgone (calm.gone hgone) hcall ?_
    cases discards with
    | false => exact hqueue rfl
    | true => simp [queue_of_gone run hgone]

end Calm

/-- The processor answers the first job and panics on the second; the third is queued
behind it, and a fourth call comes too late. -/
def panicsOnce : List PanicEvent :=
  let job (call : Nat) : Job := { request := [71], reply := call }
  [.event (.submit 0 [71]), .event (.submit 1 [71]), .event (.submit 2 [71]),
    .event (.accept (job 0)), .event (.accept (job 1)), .event (.accept (job 2)),
    .event (.countAccepted 0), .event (.countAccepted 1), .event .take, .event (.dispatch [job 0]),
    .event (.process [job 0] (.ok [[79]])), .event (.reply 0 (.response [79])), .event .resume,
    .event .take, .event (.dispatch [job 1]), .panic, .lost 1, .event (.receiveReply 0), .unwound,
    .event (.submit 3 [71]), .event (.disconnect (job 3))]

theorem panic_settles_once :
    ∃ s, (panicking { maxBatchSize := 1, queueDepth := 4 } true).Run panicsOnce s ∧
      s.batcher.calls 0 = .answered [79] ∧ s.batcher.calls 1 = .rejected .stopped ∧
      s.batcher.calls 2 = .sent ∧ s.batcher.calls 3 = .rejected .stopped ∧
      Settles { maxBatchSize := 1, queueDepth := 4 } true panicsOnce s := by
  obtain ⟨s, run, hcalls⟩ :
      ∃ s, (panicking { maxBatchSize := 1, queueDepth := 4 } true).Run panicsOnce s ∧
        s.batcher.calls 0 = .answered [79] ∧ s.batcher.calls 1 = .rejected .stopped ∧
        s.batcher.calls 2 = .sent ∧ s.batcher.calls 3 = .rejected .stopped :=
    ⟨_, rfl, rfl, rfl, rfl, rfl⟩
  obtain ⟨hfirst, hsecond, hthird, hfourth⟩ := hcalls
  exact ⟨s, run, hfirst, hsecond, hthird, hfourth, panic_settles (by decide) run⟩

end Batcher
end Gput
