import Gput.Server.Serving

/-!
# Progress of the server

A connection that waits for the batcher is not forgotten.  While it waits, a step that
brings its response is possible, or one of the worker; and when the worker has taken
as many steps as stand between it and the job, whatever else happens, the response is
at most three steps of its own away (`NotForgotten`).  This is so on every processor
that comes to a result for the batches it is given (`Returns`); `Server.Panic` says
what becomes of a connection when it panics.
-/

namespace Gput
namespace Server

open Http
open Batcher (Job BatchResult Call)

/-- The steps that carry one call of a connection forward. -/
def Event.carries (connection call : Nat) : Event → Bool
  | .batcher (.accept job) => job.reply = call
  | .batcher (.overload job) => job.reply = call
  | .batcher (.countAccepted other) => other = call
  | .batcher (.countRejected other) => other = call
  | .batcher (.receiveReply other) => other = call
  | .session other (.respond answered _) => other = connection ∧ answered = call
  | _ => false

/-- The steps of the worker. -/
def Event.isWorker : Event → Bool
  | .batcher event => event.isWorker
  | _ => false

section Progress

variable {σ : Type} {config : ServerConfig} {processor : Processor σ} {device : σ}
  {events : List Event} {s s' : State σ} {connection call : Nat} {session : Session}
  {closeAfterResponse : Bool}

/-- The connection gets its response in a few steps of its own. -/
def Arrives (machine : EventMachine (State σ) Event) (connection call count : Nat)
    (s : State σ) : Prop :=
  ∃ own, own.length ≤ count ∧ (∀ e ∈ own, e.carries connection call = true) ∧
    ∃ t session left closeAfterResponse,
      machine.after s own = some t ∧
      t.sessions[connection]? = some session ∧ session.stage = .writing left closeAfterResponse

/-- One more step in front. -/
theorem Arrives.before {count : Nat} {e : Event} (hcarries : e.carries connection call = true)
    (hstep : step config processor s e = some s')
    (h : Arrives (server config processor device) connection call count s') :
    Arrives (server config processor device) connection call (count + 1) s := by
  obtain ⟨own, hlength, hown, t, session, left, closeAfterResponse, hafter, hsession, hstage⟩ := h
  refine ⟨e :: own, Nat.succ_le_succ hlength, ?_, t, session, left, closeAfterResponse,
    EventMachine.after_cons.mpr ⟨s', hstep, hafter⟩, hsession, hstage⟩
  intro other hmem
  rcases List.mem_cons.mp hmem with rfl | hmem
  · exact hcarries
  · exact hown other hmem

/-- A call that has returned. -/
theorem respond_step {result : Except Batcher.SubmitError (List UInt8)}
    (hsession : s.sessions[connection]? = some session)
    (hstage : session.stage = .submitting call closeAfterResponse)
    (hresult : (s.batcher.calls call).result = some result) :
    ∃ t session' left,
      step config processor s (.session connection (.respond call (responseOf result))) = some t ∧
      t.sessions[connection]? = some session' ∧ session'.stage = .writing left closeAfterResponse := by
  have hmoves : session.step config.maxRequestBytes (.respond call (responseOf result)) =
      some { session with stage := .writing (responseOf result) closeAfterResponse } := by
    simp [Session.step, Session.writeStep, hstage]
  have hbatcher : batcherAfter config s (.respond call (responseOf result)) = some s.batcher := by
    simp [batcherAfter, hresult]
  refine ⟨_, { session with stage := .writing (responseOf result) closeAfterResponse }, _,
    Option.bind_eq_some_iff.mpr ⟨session, hsession, Option.bind_eq_some_iff.mpr
      ⟨_, hmoves, Option.bind_eq_some_iff.mpr ⟨_, hbatcher, rfl⟩⟩⟩, ?_, rfl⟩
  exact List.getElem?_set_self (List.getElem?_eq_some_iff.mp hsession).1

theorem arrives_of_result {result : Except Batcher.SubmitError (List UInt8)}
    (hsession : s.sessions[connection]? = some session)
    (hstage : session.stage = .submitting call closeAfterResponse)
    (hresult : (s.batcher.calls call).result = some result) :
    Arrives (server config processor device) connection call 1 s := by
  obtain ⟨t, session', left, hstep, hsession', hstage'⟩ :=
    @respond_step σ config processor s connection call session closeAfterResponse result hsession
      hstage hresult
  refine ⟨[.session connection (.respond call (responseOf result))], Nat.le_refl 1,
    fun e hmem => ?_, t, session', left, closeAfterResponse,
    EventMachine.after_cons.mpr ⟨t, hstep, rfl⟩, hsession', hstage'⟩
  rw [List.mem_singleton.mp hmem]
  simp [Event.carries]

theorem arrives_of_waiting {answer : Batcher.Answer}
    (hsession : s.sessions[connection]? = some session)
    (hstage : session.stage = .submitting call closeAfterResponse)
    (hcall : s.batcher.calls call = .waiting) (hmail : s.batcher.mailbox call = some answer) :
    Arrives (server config processor device) connection call 2 s := by
  obtain ⟨batcher, result, hstep, hresult⟩ : ∃ batcher result,
      Batcher.step (batcherConfig config) s.batcher (.receiveReply call) = some batcher ∧
        (batcher.calls call).result = some result := by
    cases answer with
    | response bytes =>
        refine ⟨s.batcher.finish call (.answered bytes), .ok bytes, ?_, ?_⟩
        · simp [Batcher.step, Batcher.callerStep, hcall, hmail]
        · simp [Batcher.State.finish, Batcher.State.setCall, Call.result]
    | failed message =>
        refine ⟨s.batcher.finish call (.rejected (.processing message)),
          .error (.processing message), ?_, ?_⟩
        · simp [Batcher.step, Batcher.callerStep, hcall, hmail]
        · simp [Batcher.State.finish, Batcher.State.setCall, Call.result]
  have hnext : Arrives (server config processor device) connection call 1
      { s with batcher := batcher } := arrives_of_result hsession hstage hresult
  exact hnext.before (by simp [Event.carries] : (Event.batcher (.receiveReply call)).carries
    connection call = true) (Option.map_eq_some_iff.mpr ⟨batcher, hstep, rfl⟩)

theorem arrives_of_sent {answer : Batcher.Answer}
    (hsession : s.sessions[connection]? = some session)
    (hstage : session.stage = .submitting call closeAfterResponse)
    (hcall : s.batcher.calls call = .sent) (hmail : s.batcher.mailbox call = some answer) :
    Arrives (server config processor device) connection call 3 s := by
  obtain ⟨batcher, hstep, hwaiting, hsame⟩ : ∃ batcher,
      Batcher.step (batcherConfig config) s.batcher (.countAccepted call) = some batcher ∧
        batcher.calls call = .waiting ∧ batcher.mailbox = s.batcher.mailbox := by
    refine ⟨_, if_pos hcall, ?_, rfl⟩
    simp [Batcher.State.setCall]
  have hnext : Arrives (server config processor device) connection call 2
      { s with batcher := batcher } :=
    arrives_of_waiting hsession hstage hwaiting (hsame ▸ hmail)
  exact hnext.before (by simp [Event.carries] : (Event.batcher (.countAccepted call)).carries
    connection call = true) (Option.map_eq_some_iff.mpr ⟨batcher, hstep, rfl⟩)

theorem Arrives.mono {count more : Nat} (hle : count ≤ more)
    (h : Arrives (server config processor device) connection call count s) :
    Arrives (server config processor device) connection call more s := by
  obtain ⟨own, hlength, h⟩ := h
  exact ⟨own, hlength.trans hle, h⟩

/-- With an answer in its mailbox a waiting connection is three steps from its
response. -/
theorem arrives_of_mail (hsize : 0 < config.batchSize)
    (run : (server config processor device).Run events s)
    (hsession : s.sessions[connection]? = some session)
    (hstage : session.stage = .submitting call closeAfterResponse)
    (hreplied : call ∈ (Batcher.replies (batcherEvents events)).map Prod.fst) :
    Arrives (server config processor device) connection call 3 s := by
  obtain ⟨answer, hmail⟩ := Batcher.mailbox_filled (batcher_part.run run) hreplied
  have hdropped := ((apart_run run).waits hsession hstage).2
  have hentered : (s.batcher.calls call).entered = true := by
    have hfollowed := followed hsize run
    refine (hfollowed.delivered.callers.entered call).mp ?_
    rw [hfollowed.delivered.tracked.answers_extend, List.map_append, List.mem_append,
      List.mem_append]
    exact Or.inl (Or.inl hreplied)
  cases hcall : s.batcher.calls call with
  | sent => exact arrives_of_sent hsession hstage hcall hmail
  | waiting => exact (arrives_of_waiting hsession hstage hcall hmail).mono (by omega)
  | answered bytes =>
      exact (arrives_of_result hsession hstage (by rw [hcall]; rfl)).mono (by omega)
  | rejected error =>
      exact (arrives_of_result hsession hstage (by rw [hcall]; rfl)).mono (by omega)
  | abandoned => exact absurd hcall hdropped
  | idle | ready | refused =>
      rw [hcall] at hentered
      cases hentered

/-- The worker counts its own steps. -/
theorem countP_isWorker (more : List Event) :
    more.countP Event.isWorker = (batcherEvents more).countP Batcher.Event.isWorker := by
  rw [batcherEvents, List.countP_filterMap]
  congr 1
  funext e
  cases e with
  | session other event => cases event <;> rfl
  | batcher event => rfl
  | shutDown => rfl

/-- While an accepted job has no answer, the worker can take a step. -/
theorem worker_enabled {ready : σ → Prop} (hsize : 0 < config.batchSize)
    (returns : processor.Returns config ready) (hready : ready device)
    (run : (server config processor device).Run events s) {k : Nat}
    (hk : k < (Batcher.accepted (batcherEvents events)).length)
    (hwaits : (Batcher.replies (batcherEvents events)).length ≤ k) :
    ∃ e : Event, e.isWorker = true ∧ (step config processor s e).isSome = true := by
  have tracked := (followed hsize run).delivered.tracked
  -- the result is chosen for the batch that is with the processor, if there is one
  obtain ⟨result, hresult⟩ : ∃ result, ∀ jobs, s.batcher.worker = .processing jobs →
      (processor.processBatch s.device (jobs.map Job.request)).2 = outcomeOf result := by
    cases hworker : s.batcher.worker with
    | processing jobs =>
        obtain ⟨-, hreturns⟩ := returns s.device _ (ready_run hsize returns hready run)
          (fits_of_processing hsize run hworker)
        cases houtcome : (processor.processBatch s.device (jobs.map Job.request)).2 with
        | ok responses =>
            refine ⟨.ok responses, fun other heq => ?_⟩
            cases heq
            exact houtcome
        | err message =>
            refine ⟨.err message, fun other heq => ?_⟩
            cases heq
            exact houtcome
        | panic => exact absurd houtcome hreturns
    | _ => exact ⟨.err "", fun _ heq => by cases heq⟩
  obtain ⟨event, hisWorker, henabled, hchosen⟩ := tracked.enabled hk hwaits result
  refine ⟨.batcher event, hisWorker, ?_⟩
  obtain ⟨batcher, hstep⟩ := Option.isSome_iff_exists.mp henabled
  have mapped {next : Batcher.State → State σ} :
      ((Batcher.step (batcherConfig config) s.batcher event).map next).isSome = true := by
    rw [hstep]
    rfl
  cases event with
  | process jobs other =>
      obtain rfl := hchosen jobs other rfl
      have hworker : s.batcher.worker = .processing jobs := by
        cases Batcher.moves_of_step hstep with
        | process _ _ hworker => exact hworker
      show (if _ then _ else none : Option (State σ)).isSome = true
      rw [if_pos (hresult jobs hworker)]
      exact mapped
  | take | poll | dispatch | reply | resume | stop => exact mapped
  | _ => cases hisWorker

/-- While a connection waits, a step that carries its call or one of the worker is
possible. -/
theorem waiting_enabled {ready : σ → Prop} (hsize : 0 < config.batchSize)
    (returns : processor.Returns config ready) (hready : ready device)
    (run : (server config processor device).Run events s)
    (hsession : s.sessions[connection]? = some session)
    (hstage : session.stage = .submitting call closeAfterResponse) :
    ∃ e : Event, (e.carries connection call = true ∨ e.isWorker = true) ∧
      (step config processor s e).isSome = true := by
  have hfollowed := followed hsize run
  obtain ⟨⟨request, hsubmit⟩, hkept⟩ := (apart_run run).waits hsession hstage
  have returned {result : Except Batcher.SubmitError (List UInt8)}
      (hresult : (s.batcher.calls call).result = some result) :
      ∃ e : Event, (e.carries connection call = true ∨ e.isWorker = true) ∧
        (step config processor s e).isSome = true := by
    obtain ⟨t, _, _, hstep, -⟩ :=
      @respond_step σ config processor s connection call session closeAfterResponse result
        hsession hstage hresult
    exact ⟨_, Or.inl (by simp [Event.carries]), Option.isSome_iff_exists.mpr ⟨t, hstep⟩⟩
  cases hcall : s.batcher.calls call with
  | idle => exact absurd hcall ((apart_run run).begun hsubmit)
  | abandoned => exact absurd hcall hkept
  | answered bytes => exact returned (by rw [hcall]; rfl)
  | rejected error => exact returned (by rw [hcall]; rfl)
  | ready request =>
      have hworker := (hfollowed.borrowed.running (by rw [hcall]; rfl)).2
      rcases Nat.lt_or_ge s.batcher.queue.length config.queueDepth with hroom | hfull
      · refine ⟨.batcher (.accept { request := request, reply := call }),
          Or.inl (by simp [Event.carries]), ?_⟩
        simp [step, workerStep, Batcher.step, Batcher.submitStep, batcherConfig, hcall, hworker,
          hroom]
      · refine ⟨.batcher (.overload { request := request, reply := call }),
          Or.inl (by simp [Event.carries]), ?_⟩
        simp [step, workerStep, Batcher.step, Batcher.submitStep, batcherConfig, hcall, hworker,
          hfull]
  | sent =>
      refine ⟨.batcher (.countAccepted call), Or.inl (by simp [Event.carries]), ?_⟩
      simp [step, workerStep, Batcher.step, Batcher.callerStep, hcall]
  | refused =>
      refine ⟨.batcher (.countRejected call), Or.inl (by simp [Event.carries]), ?_⟩
      simp [step, workerStep, Batcher.step, Batcher.callerStep, hcall]
  | waiting =>
      by_cases hreplied : call ∈ (Batcher.replies (batcherEvents events)).map Prod.fst
      · obtain ⟨answer, hmail⟩ := Batcher.mailbox_filled (batcher_part.run run) hreplied
        refine ⟨.batcher (.receiveReply call), Or.inl (by simp [Event.carries]), ?_⟩
        cases answer <;> simp [step, workerStep, Batcher.step, Batcher.callerStep, hcall, hmail]
      · have haccepted := (hfollowed.delivered.callers.entered call).mpr (by rw [hcall]; rfl)
        obtain ⟨k, hk⟩ := List.mem_iff_getElem?.mp haccepted
        have hextends := hfollowed.delivered.tracked.answers_extend
        have hlt := (List.getElem?_eq_some_iff.mp hk).1
        rw [List.length_map] at hlt
        obtain ⟨e, hworker, henabled⟩ := worker_enabled hsize returns hready run hlt (by
          by_contra hreached
          refine hreplied (List.mem_iff_getElem?.mpr ⟨k, ?_⟩)
          rw [hextends, List.map_append, List.append_assoc, List.getElem?_append_left
            (by rw [List.length_map]; omega)] at hk
          exact hk)
        exact ⟨e, Or.inr hworker, henabled⟩

/-- While a connection waits for the batcher, a step that carries its call or one of the
worker is possible; and when the worker has taken the steps that stand between it and
the job of the connection, whatever happened besides, the response is at most three
steps of its own away. -/
def NotForgotten (config : ServerConfig) (machine : EventMachine (State σ) Event)
    (events : List Event) (s : State σ) : Prop :=
  ∀ connection call session closeAfterResponse, s.sessions[connection]? = some session →
    session.stage = .submitting call closeAfterResponse →
    (∃ e : Event, (e.carries connection call = true ∨ e.isWorker = true) ∧
        (machine.step s e).isSome = true) ∧
      ∀ k, ((Batcher.accepted (batcherEvents events)).map Job.reply)[k]? = some call →
        ∀ more s' session' closeAfterResponse', machine.after s more = some s' →
          Batcher.workLeft (batcherConfig config) k (batcherEvents events) s.batcher ≤
            more.countP Event.isWorker →
          s'.sessions[connection]? = some session' →
          session'.stage = .submitting call closeAfterResponse' →
          Arrives machine connection call 3 s'

/-- On a processor that comes to a result for every batch no connection is forgotten. -/
theorem notForgotten_of_returns {machine : EventMachine (State σ) Event} {ready : σ → Prop}
    (hserve : serve config processor device = .ok machine)
    (returns : processor.Returns config ready) (hready : ready device)
    (run : machine.Run events s) : NotForgotten config machine events s := by
  obtain ⟨hsize, rfl⟩ := batchSize_pos hserve
  intro connection call session closeAfterResponse hsession hstage
  refine ⟨waiting_enabled hsize returns hready run hsession hstage, ?_⟩
  intro k hk more s' session' closeAfterResponse' hmore hwork hsession' hstage'
  refine arrives_of_mail hsize (run.append hmore) hsession' hstage' ?_
  have hlt := (List.getElem?_eq_some_iff.mp hk).1
  rw [List.length_map] at hlt
  rw [countP_isWorker] at hwork
  have hanswered := Batcher.answered_within hsize (followed hsize run).delivered hlt
    (batcher_part.after hmore) hwork
  -- the answers go out in the order of the queue
  have hextends := (followed hsize (run.append hmore)).delivered.tracked.answers_extend
  rw [batcherEvents_append] at hextends ⊢
  rw [Batcher.accepted_append, List.map_append, List.map_append, List.append_assoc] at hextends
  have hget := congrArg (fun calls => calls[k]?) hextends
  rw [List.getElem?_append_left (by rwa [List.length_map]), hk,
    List.getElem?_append_left (by rwa [List.length_map])] at hget
  exact List.mem_iff_getElem?.mpr ⟨k, hget.symm⟩

end Progress

end Server
end Gput
