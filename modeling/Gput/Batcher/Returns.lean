import Gput.Batcher.Delivery
import Mathlib.Data.Finset.Card

/-!
# What a call of `submit` returns

The invariants of `Delivery` follow the jobs.  Here the calls are followed from
their `submit` to their return: a job carries the request of its call
(`Named`), every call in progress keeps a handle alive, so the worker has not
stopped (`Borrowed`), and a call that has returned stays as it is.  Together they
say what an answered call was answered with (`Followed.returned`).
-/

namespace Gput
namespace Batcher

/-- The calls of `submit`, with their requests. -/
def submitted (events : List Event) : List (Nat × List UInt8) :=
  events.filterMap fun
    | .submit call request => some (call, request)
    | _ => none

theorem submitted_append (first second : List Event) :
    submitted (first ++ second) = submitted first ++ submitted second :=
  List.filterMap_append

/-- The calls that have begun, each once, and the request of every job. -/
structure Named (events : List Event) (s : State) : Prop where
  distinct : ((submitted events).map Prod.fst).Nodup
  begun : ∀ call, call ∈ (submitted events).map Prod.fst → s.calls call ≠ .idle
  ready : ∀ call request, s.calls call = .ready request → (call, request) ∈ submitted events
  jobs : ∀ job ∈ accepted events, (job.reply, job.request) ∈ submitted events

section Named

variable {config : BatcherConfig} {events : List Event} {s s' : State} {e : Event}

theorem named_start : Named [] initial where
  distinct := List.nodup_nil
  begun := fun _ h => absurd h List.not_mem_nil
  ready := fun _ _ h => by cases h
  jobs := fun _ h => absurd h List.not_mem_nil

/-- An event that begins no call and accepts no job, and that takes no call back to
its beginning. -/
theorem Named.frame (h : Named events s) (hsubmitted : submitted [e] = [])
    (haccepted : accepted [e] = [])
    (hcalls : ∀ call, s'.calls call = s.calls call ∨
      s'.calls call ≠ .idle ∧ ∀ request, s'.calls call ≠ .ready request) :
    Named (events ++ [e]) s' := by
  obtain ⟨distinct, begun, ready, jobs⟩ := h
  constructor
  · rwa [submitted_append, hsubmitted, List.append_nil]
  · intro call hcall
    rw [submitted_append, hsubmitted, List.append_nil] at hcall
    rcases hcalls call with hsame | ⟨hbegun, -⟩
    · rw [hsame]
      exact begun call hcall
    · exact hbegun
  · intro call request hready
    rw [submitted_append, hsubmitted, List.append_nil]
    rcases hcalls call with hsame | ⟨-, hnot⟩
    · exact ready call request (hsame ▸ hready)
    · exact absurd hready (hnot request)
  · intro job hjob
    rw [accepted_append, haccepted, List.append_nil] at hjob
    rw [submitted_append, hsubmitted, List.append_nil]
    exact jobs job hjob

/-- The same for an event that moves one call. -/
theorem Named.moved {call : Nat} {stage : Call} (h : Named events s)
    (hsubmitted : submitted [e] = []) (haccepted : accepted [e] = [])
    (hcalls : s'.calls = Function.update s.calls call stage) (hidle : stage ≠ .idle)
    (hready : ∀ request, stage ≠ .ready request) : Named (events ++ [e]) s' := by
  refine h.frame hsubmitted haccepted fun other => ?_
  rw [hcalls]
  by_cases hother : other = call
  · subst hother
    rw [Function.update_self]
    exact Or.inr ⟨hidle, hready⟩
  · rw [Function.update_of_ne hother]
    exact Or.inl rfl

theorem Named.submit {call : Nat} {request : List UInt8} (h : Named events s)
    (hcall : s.calls call = .idle)
    (hcalls : s'.calls = Function.update s.calls call (.ready request)) :
    Named (events ++ [.submit call request]) s' := by
  obtain ⟨distinct, begun, ready, jobs⟩ := h
  have hsnoc : submitted (events ++ [.submit call request]) =
      submitted events ++ [(call, request)] := submitted_append _ _
  constructor
  · rw [hsnoc, List.map_append]
    exact nodup_snoc distinct fun hmem => begun call hmem hcall
  · intro other hother
    rw [hcalls]
    by_cases heq : other = call
    · subst heq
      rw [Function.update_self]
      simp
    · rw [Function.update_of_ne heq]
      rw [hsnoc, List.map_append, List.mem_append] at hother
      exact begun other (hother.resolve_right (by simpa using heq))
  · intro other request' hother
    rw [hcalls] at hother
    rw [hsnoc, List.mem_append]
    by_cases heq : other = call
    · subst heq
      rw [Function.update_self] at hother
      cases hother
      exact Or.inr (List.mem_singleton.mpr rfl)
    · rw [Function.update_of_ne heq] at hother
      exact Or.inl (ready other request' hother)
  · intro job hjob
    have haccepted : accepted (events ++ [.submit call request]) = accepted events := by
      rw [accepted_append]
      exact List.append_nil _
    rw [hsnoc]
    exact List.mem_append_left _ (jobs job (haccepted ▸ hjob))

theorem Named.accept {job : Job} (h : Named events s)
    (hcall : s.calls job.reply = .ready job.request)
    (hcalls : s'.calls = Function.update s.calls job.reply .sent) :
    Named (events ++ [.accept job]) s' := by
  have hsubmitted : submitted (events ++ [.accept job]) = submitted events := by
    rw [submitted_append]
    exact List.append_nil _
  have haccepted : accepted (events ++ [.accept job]) = accepted events ++ [job] :=
    accepted_append _ _
  have hready := h.ready _ _ hcall
  obtain ⟨distinct, begun, ready, jobs⟩ := h
  have others {other : Nat} (hother : other ≠ job.reply) : s'.calls other = s.calls other := by
    rw [hcalls, Function.update_of_ne hother]
  have here : s'.calls job.reply = .sent := by
    rw [hcalls, Function.update_self]
  refine ⟨by rwa [hsubmitted], fun other hother => ?_, fun other request hother => ?_,
    fun other hother => ?_⟩
  · rw [hsubmitted] at hother
    by_cases heq : other = job.reply
    · rw [heq, here]
      simp
    · rw [others heq]
      exact begun other hother
  · rw [hsubmitted]
    by_cases heq : other = job.reply
    · rw [heq, here] at hother
      cases hother
    · exact ready other request (others heq ▸ hother)
  · rw [hsubmitted]
    rw [haccepted, List.mem_append, List.mem_singleton] at hother
    rcases hother with hother | rfl
    · exact jobs other hother
    · exact hready

theorem Named.next (h : Named events s) (hmoves : Moves config s e s') :
    Named (events ++ [e]) s' := by
  cases hmoves with
  | submit call request _ hcall => exact h.submit hcall rfl
  | accept job hcall _ _ => exact h.accept hcall rfl
  | overload | disconnect | countAccepted | countRejected | receiveResponse | receiveFailure
  | abandon => exact h.moved rfl rfl rfl (by simp) (by simp)
  | _ => exact h.frame rfl rfl fun _ => Or.inl rfl

end Named

/-- Every call in progress borrows a handle, and the worker stops only when none is
left. -/
structure Borrowed (s : State) : Prop where
  counted : ∃ calls : Finset Nat, calls.card = s.active ∧
    ∀ call, call ∈ calls ↔ (s.calls call).inProgress = true
  closed : s.connected = false → s.active = 0
  stopped : s.worker = .stopped → s.connected = false
  never : ∀ call, s.calls call ≠ .rejected .stopped

section Borrowed

variable {config : BatcherConfig} {s s' : State} {e : Event}

theorem borrowed_start : Borrowed initial where
  counted := ⟨∅, rfl, fun _ => ⟨fun h => absurd h (Finset.notMem_empty _), fun h => by cases h⟩⟩
  closed := fun h => by cases h
  stopped := fun h => by cases h
  never := fun _ h => by cases h

/-- While a call is in progress, the worker goes on. -/
theorem Borrowed.running (h : Borrowed s) {call : Nat}
    (hcall : (s.calls call).inProgress = true) : s.connected = true ∧ s.worker ≠ .stopped := by
  obtain ⟨calls, hcard, hmem⟩ := h.counted
  have hactive : s.active ≠ 0 := by
    rw [← hcard]
    exact Finset.card_ne_zero_of_mem ((hmem call).mpr hcall)
  have hconnected : s.connected = true := by
    cases hconnected : s.connected with
    | true => rfl
    | false => exact absurd (h.closed hconnected) hactive
  refine ⟨hconnected, fun hstopped => ?_⟩
  rw [h.stopped hstopped] at hconnected
  cases hconnected

/-- An event that neither begins nor ends a call. -/
theorem Borrowed.frame (h : Borrowed s) (hactive : s'.active = s.active)
    (hconnected : s'.connected = s.connected)
    (hworker : s'.worker = .stopped → s.worker = .stopped)
    (hcalls : ∀ call, (s'.calls call).inProgress = (s.calls call).inProgress ∧
      (s'.calls call = .rejected .stopped → s.calls call = .rejected .stopped)) : Borrowed s' := by
  obtain ⟨⟨calls, hcard, hmem⟩, closed, stopped, never⟩ := h
  refine ⟨⟨calls, hcard.trans hactive.symm, fun call => ?_⟩, ?_, ?_, ?_⟩
  · rw [hmem, (hcalls call).1]
  · rw [hconnected, hactive]
    exact closed
  · rw [hconnected]
    exact fun hstopped => stopped (hworker hstopped)
  · exact fun call hcall => never call ((hcalls call).2 hcall)

/-- A call in progress that moves on. -/
theorem Borrowed.moved {call : Nat} {stage : Call} (h : Borrowed s)
    (hcall : (s.calls call).inProgress = true) (hstage : stage.inProgress = true)
    (hcalls : s'.calls = Function.update s.calls call stage) (hactive : s'.active = s.active)
    (hconnected : s'.connected = s.connected) (hworker : s'.worker = s.worker) : Borrowed s' := by
  refine h.frame hactive hconnected (fun hstopped => hworker ▸ hstopped) fun other => ?_
  rw [hcalls]
  by_cases hother : other = call
  · subst hother
    rw [Function.update_self, hcall, hstage]
    exact ⟨rfl, fun hrejected => by rw [hrejected] at hstage; cases hstage⟩
  · rw [Function.update_of_ne hother]
    exact ⟨rfl, id⟩

/-- A call that returns. -/
theorem Borrowed.returned {call : Nat} {stage : Call} (h : Borrowed s)
    (hcall : (s.calls call).inProgress = true) (hstage : stage.inProgress = false)
    (hstopped : stage ≠ .rejected .stopped)
    (hcalls : s'.calls = Function.update s.calls call stage) (hactive : s'.active = s.active - 1)
    (hconnected : s'.connected = s.connected) (hworker : s'.worker = s.worker) : Borrowed s' := by
  obtain ⟨⟨calls, hcard, hmem⟩, closed, stopped, never⟩ := h
  refine ⟨⟨calls.erase call, ?_, fun other => ?_⟩, fun hclosed => ?_, ?_, fun other => ?_⟩
  · rw [Finset.card_erase_of_mem ((hmem call).mpr hcall), hcard, hactive]
  · rw [Finset.mem_erase, hmem, hcalls]
    by_cases hother : other = call
    · subst hother
      rw [Function.update_self, hstage]
      simp
    · rw [Function.update_of_ne hother]
      exact and_iff_right hother
  · rw [hactive, closed (hconnected ▸ hclosed)]
  · rw [hworker, hconnected]
    exact stopped
  · rw [hcalls]
    by_cases hother : other = call
    · subst hother
      rwa [Function.update_self]
    · rw [Function.update_of_ne hother]
      exact never other

theorem Borrowed.submit {call : Nat} {request : List UInt8} (h : Borrowed s)
    (hopen : s.connected = true) (hcall : s.calls call = .idle) :
    Borrowed { s.setCall call (.ready request) with active := s.active + 1 } := by
  obtain ⟨⟨calls, hcard, hmem⟩, closed, stopped, never⟩ := h
  have hfresh : call ∉ calls := by
    rw [hmem, hcall]
    exact Bool.false_ne_true
  refine ⟨⟨insert call calls, ?_, fun other => ?_⟩, fun hclosed => ?_, stopped, fun other => ?_⟩
  · rw [Finset.card_insert_of_notMem hfresh, hcard]
  · rw [Finset.mem_insert, hmem]
    show _ ↔ (Function.update s.calls call (.ready request) other).inProgress = true
    by_cases hother : other = call
    · subst hother
      rw [Function.update_self]
      simp [Call.inProgress]
    · rw [Function.update_of_ne hother]
      exact or_iff_right hother
  · have hconnected : s.connected = false := hclosed
    rw [hopen] at hconnected
    cases hconnected
  · show Function.update s.calls call (.ready request) other ≠ _
    by_cases hother : other = call
    · subst hother
      rw [Function.update_self]
      simp
    · rw [Function.update_of_ne hother]
      exact never other

theorem Borrowed.next (h : Borrowed s) (hstep : step config s e = some s') : Borrowed s' := by
  have hmoves := moves_of_step hstep
  cases hmoves with
  | submit call request hopen hcall => exact h.submit hopen hcall
  | accept job hcall _ _ => exact h.moved (by rw [hcall]; rfl) rfl rfl rfl rfl rfl
  | overload job hcall _ => exact h.moved (by rw [hcall]; rfl) rfl rfl rfl rfl rfl
  | disconnect job hcall =>
      obtain ⟨⟨-, hstopped⟩, -⟩ := Option.ite_none_right_eq_some.mp hstep
      exact absurd hstopped (h.running (by rw [hcall]; rfl)).2
  | countAccepted call hcall => exact h.moved (by rw [hcall]; rfl) rfl rfl rfl rfl rfl
  | countRejected call hcall =>
      exact h.returned (by rw [hcall]; rfl) rfl (by simp) rfl rfl rfl rfl
  | receiveResponse call bytes hcall _ =>
      exact h.returned (by rw [hcall]; rfl) rfl (by simp) rfl rfl rfl rfl
  | receiveFailure call message hcall _ =>
      exact h.returned (by rw [hcall]; rfl) rfl (by simp) rfl rfl rfl rfl
  | abandon call hcall => exact h.returned (by rw [hcall]; rfl) rfl (by simp) rfl rfl rfl rfl
  | close =>
      obtain ⟨⟨-, hactive⟩, -⟩ := Option.ite_none_right_eq_some.mp hstep
      exact ⟨h.counted, fun _ => hactive, fun _ => rfl, h.never⟩
  | stop hworker hqueue =>
      obtain ⟨⟨-, -, hclosed⟩, -⟩ := Option.ite_none_right_eq_some.mp hstep
      exact ⟨h.counted, h.closed, fun _ => by simpa using hclosed, h.never⟩
  | takeFirst | takeNext | poll | dispatch | process | resume =>
      exact h.frame rfl rfl (fun hstopped => by cases hstopped) fun _ => ⟨rfl, id⟩
  | reply => exact h.frame rfl rfl (fun hstopped => by cases hstopped) fun _ => ⟨rfl, id⟩

end Borrowed

/-- What a call that has returned gives its caller. -/
def Call.result : Call → Option (Except SubmitError (List UInt8))
  | .answered bytes => some (.ok bytes)
  | .rejected error => some (.error error)
  | _ => none

section Returns

variable {config : BatcherConfig} {events : List Event} {s s' : State} {e : Event}

/-- A call that has returned stays as it is. -/
theorem Moves.result (hmoves : Moves config s e s') {call : Nat}
    {result : Except SubmitError (List UInt8)} (h : (s.calls call).result = some result) :
    (s'.calls call).result = some result := by
  have others {other : Nat} {stage : Call} (hother : (s.calls other).result = none) :
      (Function.update s.calls other stage call).result = some result := by
    rw [Function.update_of_ne]
    · exact h
    · rintro rfl
      rw [hother] at h
      cases h
  cases hmoves with
  | submit other request _ hother => exact others (by rw [hother]; rfl)
  | accept job hother _ _ => exact others (by rw [hother]; rfl)
  | overload job hother _ => exact others (by rw [hother]; rfl)
  | disconnect job hother => exact others (by rw [hother]; rfl)
  | countAccepted other hother => exact others (by rw [hother]; rfl)
  | countRejected other hother => exact others (by rw [hother]; rfl)
  | receiveResponse other bytes hother _ => exact others (by rw [hother]; rfl)
  | receiveFailure other message hother _ => exact others (by rw [hother]; rfl)
  | abandon other hother => exact others (by rw [hother]; rfl)
  | _ => exact h

/-- No call goes back to its beginning. -/
theorem Moves.begun (hmoves : Moves config s e s') {call : Nat} (h : s.calls call ≠ .idle) :
    s'.calls call ≠ .idle := by
  have moved {other : Nat} {stage : Call} (hstage : stage ≠ .idle) :
      Function.update s.calls other stage call ≠ .idle := by
    by_cases hother : call = other
    · subst hother
      rwa [Function.update_self]
    · rwa [Function.update_of_ne hother]
  cases hmoves with
  | submit | accept | overload | disconnect | countAccepted | countRejected | receiveResponse
  | receiveFailure | abandon => exact moved (by simp)
  | _ => exact h

/-- The invariants of the jobs and of the calls. -/
structure Followed (config : BatcherConfig) (events : List Event) (s : State) : Prop where
  delivered : Invariant config events s
  named : Named events s
  borrowed : Borrowed s

theorem followed_run (hmax : 0 < config.maxBatchSize) (run : (batcher config).Run events s) :
    Followed config events s := by
  refine run.invariant ⟨⟨tracked_start, callers_start, metered_start⟩, named_start,
    borrowed_start⟩ ?_
  intro past s e s' h hstep
  exact ⟨invariant_step hmax past s e s' h.delivered hstep, h.named.next (moves_of_step hstep),
    h.borrowed.next hstep⟩

/-- What the processor returned had been accepted. -/
theorem Tracked.accepted_of_processed (h : Tracked config events s) {jobs : List Job}
    {result : BatchResult} (hbatch : (jobs, result) ∈ processed events) {job : Job}
    (hjob : job ∈ jobs) : job ∈ accepted events := by
  have hdispatched : jobs ∈ batches events := by
    rw [h.handled]
    exact List.mem_append_left _ (List.mem_map.mpr ⟨_, hbatch, rfl⟩)
  rw [h.order]
  exact List.mem_append_left _ (List.mem_append_left _
    (List.mem_flatten.mpr ⟨jobs, hdispatched, hjob⟩))

/-- An answer that was sent is that of a position of a processed batch, and the job
there is the one of the call. -/
theorem Followed.sent_from (h : Followed config events s) {call : Nat} {answer : Answer}
    (hsent : (call, answer) ∈ replies events) :
    ∃ jobs result, (jobs, result) ∈ processed events ∧ ∃ i, ∃ hi : i < jobs.length,
      jobs[i].reply = call ∧ (call, jobs[i].request) ∈ submitted events ∧
        answer = answerAt jobs result i := by
  obtain ⟨⟨tracked, -, -⟩, named, -⟩ := h
  have hall : (call, answer) ∈ allAnswers (processed events) := by
    rw [← tracked.replied]
    exact List.mem_append_left _ hsent
  obtain ⟨⟨jobs, result⟩, hbatch, hanswer⟩ := List.mem_flatMap.mp hall
  obtain ⟨i, hget⟩ := List.mem_iff_getElem?.mp hanswer
  have hi : i < jobs.length := by
    have hlt := (List.getElem?_eq_some_iff.mp hget).1
    have hlength := congrArg List.length (answersOf_calls jobs result)
    rw [List.length_map, List.length_map] at hlength
    exact hlength ▸ hlt
  rw [answersOf_getElem? jobs result hi] at hget
  cases hget
  exact ⟨jobs, result, hbatch, i, hi, rfl,
    named.jobs jobs[i] (tracked.accepted_of_processed hbatch (List.getElem_mem hi)), rfl⟩

/-- A call whose job has not entered the queue has no answer. -/
theorem Followed.unanswered (h : Followed config events s) {call : Nat}
    (hcall : (s.calls call).entered = false) : s.mailbox call = none := by
  cases hmail : s.mailbox call with
  | none => rfl
  | some answer =>
      obtain ⟨jobs, result, hbatch, i, hi, hreply, -⟩ :=
        h.sent_from (h.delivered.callers.mail call answer hmail)
      have hentered := (h.delivered.callers.entered call).mp (List.mem_map.mpr
        ⟨jobs[i], h.delivered.tracked.accepted_of_processed hbatch (List.getElem_mem hi), hreply⟩)
      rw [hcall] at hentered
      cases hentered

/-- Two requests of one call are the same. -/
theorem Named.unique (h : Named events s) {call : Nat} {request other : List UInt8}
    (hrequest : (call, request) ∈ submitted events) (hother : (call, other) ∈ submitted events) :
    request = other := by
  have heq := List.inj_on_of_nodup_map h.distinct hrequest hother rfl
  exact (Prod.mk.inj heq).2

/-- A call is abandoned by its caller only. -/
theorem Moves.abandoned (hmoves : Moves config s e s') {call : Nat}
    (h : s'.calls call = .abandoned) : s.calls call = .abandoned ∨ e = .abandon call := by
  have moved {other : Nat} {stage : Call} (hstage : stage ≠ .abandoned)
      (hcall : Function.update s.calls other stage call = .abandoned) :
      s.calls call = .abandoned := by
    by_cases hother : call = other
    · subst hother
      rw [Function.update_self] at hcall
      exact absurd hcall hstage
    · rwa [Function.update_of_ne hother] at hcall
  cases hmoves with
  | submit | accept | overload | disconnect | countAccepted | countRejected | receiveResponse
  | receiveFailure => exact Or.inl (moved (by simp) h)
  | abandon other _ =>
      by_cases hother : call = other
      · exact Or.inr (by rw [hother])
      · have hcall : Function.update s.calls other .abandoned call = .abandoned := h
        rw [Function.update_of_ne hother] at hcall
        exact Or.inl hcall
  | _ => exact Or.inl h

/-- An answer that was sent lies in the mailbox of its call. -/
theorem mailbox_filled (run : (batcher config).Run events s) {call : Nat}
    (h : call ∈ (replies events).map Prod.fst) : ∃ answer, s.mailbox call = some answer := by
  refine @EventMachine.Run.invariant _ _ (batcher config)
    (fun past s => ∀ call ∈ (replies past).map Prod.fst, ∃ answer, s.mailbox call = some answer)
    (fun _ hmem => absurd hmem List.not_mem_nil) ?_ events s run call h
  intro past s e s' hI hstep call hmem
  rw [replies_append, List.map_append, List.mem_append] at hmem
  have hmoves := moves_of_step hstep
  have kept (hquiet : replies [e] = []) (hmail : s'.mailbox = s.mailbox) :
      ∃ answer, s'.mailbox call = some answer := by
    rw [hquiet] at hmem
    rw [hmail]
    exact hI call (hmem.resolve_right List.not_mem_nil)
  cases hmoves with
  | reply other answer answers _ =>
      show ∃ found, Function.update s.mailbox other (some answer) call = some found
      by_cases hother : call = other
      · exact ⟨answer, by rw [hother, Function.update_self]⟩
      · rw [Function.update_of_ne hother]
        refine hI call (hmem.resolve_right fun hnew => hother ?_)
        exact List.mem_singleton.mp hnew
  | _ => exact kept rfl rfl

/-- What a call can return for its request: the response at the position of its job in
a batch that went well, the failure of such a batch, or a full queue. -/
inductive Returned (events : List Event) (call : Nat) (request : List UInt8) :
    Except SubmitError (List UInt8) → Prop
  | served (jobs : List Job) (responses : List (List UInt8)) (i : Nat) (response : List UInt8)
      (hbatch : (jobs, .ok responses) ∈ processed events)
      (hlength : responses.length = jobs.length)
      (hjob : jobs[i]? = some { request := request, reply := call })
      (hresponse : responses[i]? = some response) : Returned events call request (.ok response)
  | overloaded (hrefused : call ∉ (accepted events).map Job.reply) :
      Returned events call request (.error .overloaded)
  | failed (jobs : List Job) (result : BatchResult) (i : Nat) (message : String)
      (hbatch : (jobs, result) ∈ processed events)
      (hjob : jobs[i]? = some { request := request, reply := call })
      (hfailed : ∀ responses, result = .ok responses → responses.length ≠ jobs.length) :
      Returned events call request (.error (.processing message))

theorem answerAt_eq_response {jobs : List Job} {result : BatchResult} {i : Nat}
    {response : List UInt8} (hi : i < jobs.length)
    (h : answerAt jobs result i = .response response) :
    ∃ responses, result = .ok responses ∧ responses.length = jobs.length ∧
      responses[i]? = some response := by
  cases result with
  | err message => cases h
  | ok responses =>
      by_cases hlength : responses.length = jobs.length
      · simp only [answerAt, if_pos hlength, Answer.response.injEq] at h
        refine ⟨responses, rfl, hlength, ?_⟩
        rw [← h, List.getD_eq_getElem?_getD, List.getElem?_eq_getElem (by omega)]
        rfl
      · simp [answerAt, if_neg hlength] at h

theorem answerAt_eq_failed {jobs : List Job} {result : BatchResult} {i : Nat} {message : String}
    (h : answerAt jobs result i = .failed message) :
    ∀ responses, result = .ok responses → responses.length ≠ jobs.length := by
  rintro responses rfl hlength
  simp [answerAt, if_pos hlength] at h

/-- A call returns what its own request came to. -/
theorem Followed.returned (h : Followed config events s) {call : Nat} {request : List UInt8}
    {result : Except SubmitError (List UInt8)} (hcall : (s.calls call).result = some result)
    (hrequest : (call, request) ∈ submitted events) : Returned events call request result := by
  have sent {answer : Answer} (hsent : (call, answer) ∈ replies events) :
      ∃ jobs result i, (jobs, result) ∈ processed events ∧ i < jobs.length ∧
        jobs[i]? = some { request := request, reply := call } ∧
        answerAt jobs result i = answer := by
    obtain ⟨jobs, result, hbatch, i, hi, hreply, hsubmitted, rfl⟩ := h.sent_from hsent
    refine ⟨jobs, result, i, hbatch, hi, ?_, rfl⟩
    rw [List.getElem?_eq_getElem hi, h.named.unique hrequest hsubmitted, ← hreply]
  cases hstage : s.calls call with
  | answered bytes =>
      rw [hstage] at hcall
      cases hcall
      obtain ⟨jobs, result, i, hbatch, hi, hjob, hanswer⟩ :=
        sent (h.delivered.callers.answered call bytes hstage)
      obtain ⟨responses, rfl, hlength, hresponse⟩ := answerAt_eq_response hi hanswer
      exact .served jobs responses i bytes hbatch hlength hjob hresponse
  | rejected error =>
      rw [hstage] at hcall
      cases hcall
      cases error with
      | overloaded =>
          refine .overloaded fun hmem => ?_
          have hentered := (h.delivered.callers.entered call).mp hmem
          rw [hstage] at hentered
          cases hentered
      | stopped => exact absurd hstage (h.borrowed.never call)
      | processing message =>
          obtain ⟨jobs, result, i, hbatch, -, hjob, hanswer⟩ :=
            sent (h.delivered.callers.failed call message hstage)
          exact .failed jobs result i message hbatch hjob (answerAt_eq_failed hanswer)
  | _ =>
      rw [hstage] at hcall
      cases hcall

end Returns

end Batcher
end Gput
