import Gput.Batcher.Overload
import Gput.Server.Backends

/-!
# How full the queue gets

A connection has at most one request with the batcher, so the queue never holds more
jobs than there are permits, whatever the clients and the processor do
(`queue_bounded`).  A server whose queue has a place for each of its connections
therefore refuses no request, and each of its responses is the answer to its request
(`never_overloaded`).
-/

namespace Gput
namespace Server

open Http Http.Shader ByteString
open Batcher (Call)

/-- The task goes on to the next request behind what it is doing. -/
def Session.Continues (session : Session) : Prop :=
  session.stage = .reading ∨ (∃ call closeAfterResponse,
    session.stage = .submitting call closeAfterResponse) ∨
    ∃ left, session.stage = .writing left false

/-- The call a connection waits for. -/
def Session.waitsFor (session : Session) : Option Nat :=
  match session.stage with
  | .submitting call _ => some call
  | _ => none

section Steps

variable {maxRequestBytes : Nat} {session session' : Session} {event : SessionEvent}

/-- Only a task that was to go on goes on, and it keeps its permit. -/
theorem SessionMoves.continues (h : SessionMoves maxRequestBytes session event session')
    (hnext : session'.Continues) : session.Continues ∧ session'.permit = session.permit := by
  cases h with
  | read chunk hawaits => exact ⟨Or.inl hawaits.1, rfl⟩
  | submit call headerLen hreading _ _ => exact ⟨Or.inl hreading, rfl⟩
  | respond call response closeAfterResponse hstage =>
      exact ⟨Or.inr (Or.inl ⟨call, closeAfterResponse, hstage⟩), rfl⟩
  | write bytes left closeAfterResponse hstage =>
      rcases hnext with hnext | ⟨_, _, hnext⟩ | ⟨_, hnext⟩
      · cases hnext
      · cases hnext
      · cases hnext
        exact ⟨Or.inr (Or.inr ⟨_, hstage⟩), rfl⟩
  | goesOn hstage => exact ⟨Or.inr (Or.inr ⟨[], hstage⟩), rfl⟩
  | _ =>
      rcases hnext with hnext | ⟨_, _, hnext⟩ | ⟨_, hnext⟩ <;> cases hnext

end Steps

section Runs

variable {σ : Type} {config : ServerConfig} {processor : Processor σ} {device : σ}
  {events : List Event} {s s' : State σ}

/-- Every task that goes on holds a permit, and every call in progress is the one that
some connection waits for. -/
structure Carried (s : State σ) : Prop where
  permit : ∀ session ∈ s.sessions, session.Continues → session.permit = true
  waits : ∀ call, (s.batcher.calls call).inProgress = true →
    ∃ session ∈ s.sessions, session.waitsFor = some call

/-- A step of the batcher that begins no call. -/
theorem Carried.worker {batcher : Batcher.State} {event : Batcher.Event} (h : Carried s)
    (hstep : Batcher.step (batcherConfig config) s.batcher event = some batcher)
    (hown : ∀ call request, event ≠ .submit call request) (device : σ) :
    Carried { s with batcher := batcher, device := device } := by
  refine ⟨h.permit, fun call hcall => h.waits call ?_⟩
  exact ((Batcher.moves_of_step hstep).inProgress hcall).resolve_right
    fun ⟨request, hsubmit⟩ => hown call request hsubmit

/-- A connection that waits leaves its call only when the call has ended. -/
theorem waits_of_task {call : Nat} {event : SessionEvent} {session session' : Session}
    {batcher : Batcher.State} (hmoves : SessionMoves config.maxRequestBytes session event session')
    (hbatcher : batcherAfter config s event = some batcher)
    (hcall : (batcher.calls call).inProgress = true) (hwaits : session.waitsFor = some call) :
    session'.waitsFor = some call := by
  have hstage : ∃ closeAfterResponse, session.stage = .submitting call closeAfterResponse := by
    unfold Session.waitsFor at hwaits
    split at hwaits
    · next hstage =>
        cases hwaits
        exact ⟨_, hstage⟩
    · cases hwaits
  obtain ⟨closing, hstage⟩ := hstage
  cases hmoves with
  | read _ hawaits => simp [hawaits.1] at hstage
  | endsReading _ _ hreading => simp [hreading] at hstage
  | refuses _ _ _ hreading => simp [hreading] at hstage
  | submit _ _ hreading _ _ => simp [hreading] at hstage
  | write _ _ _ hwriting => simp [hwriting] at hstage
  | goesOn hwriting => simp [hwriting] at hstage
  | endsWriting _ _ _ _ hwriting => simp [hwriting] at hstage
  | respond other response _ hother =>
      rw [hstage] at hother
      cases hother
      obtain ⟨hreturned, hsame⟩ := Option.ite_none_right_eq_some.mp hbatcher
      cases hsame
      obtain ⟨result, hresult, -⟩ := Option.map_eq_some_iff.mp hreturned
      cases hstate : s.batcher.calls call <;> simp_all [Call.result, Call.inProgress]
  | abandons other _ hother =>
      rw [hstage] at hother
      cases hother
      obtain ⟨-, hstep⟩ := Option.ite_none_right_eq_some.mp hbatcher
      have hgone : batcher.calls call = .abandoned := by
        obtain ⟨-, hnext⟩ := Option.ite_none_right_eq_some.mp hstep
        cases hnext
        exact Function.update_self _ _ _
      simp [hgone, Call.inProgress] at hcall

/-- A call that a connection begins is the one it waits for. -/
theorem begun_of_task {call : Nat} {event : SessionEvent} {session session' : Session}
    {batcher : Batcher.State} (hmoves : SessionMoves config.maxRequestBytes session event session')
    (hbatcher : batcherAfter config s event = some batcher)
    (hcall : (batcher.calls call).inProgress = true)
    (hnew : ¬ (s.batcher.calls call).inProgress = true) : session'.waitsFor = some call := by
  cases event with
  | submit other request =>
      have hmovesBatcher : Batcher.Moves (batcherConfig config) s.batcher (.submit other request)
          batcher := Batcher.moves_of_step hbatcher
      obtain ⟨_, heq⟩ := (hmovesBatcher.inProgress hcall).resolve_left hnew
      cases heq
      cases hmoves with
      | submit => rfl
      | endsReading _ hevent => simp at hevent
      | refuses _ _ hevent => simp at hevent
      | endsWriting _ hevent => simp at hevent
  | abandoned other =>
      obtain ⟨-, hstep⟩ := Option.ite_none_right_eq_some.mp hbatcher
      obtain ⟨_, heq⟩ := ((Batcher.moves_of_step hstep).inProgress hcall).resolve_left hnew
      cases heq
  | respond | dropped =>
      obtain ⟨-, hsame⟩ := Option.ite_none_right_eq_some.mp hbatcher
      cases hsame
      exact absurd hcall hnew
  | _ =>
      cases hbatcher
      exact absurd hcall hnew

theorem carried_run (run : (server config processor device).Run events s) : Carried s := by
  refine @EventMachine.Run.invariant _ _ (server config processor device) (fun _ s => Carried s)
    ⟨fun _ hmem => absurd hmem List.not_mem_nil, fun _ hcall => by cases hcall⟩ ?_ events s run
  intro past s e s' h hstep
  cases moves_of_serverStep hstep with
  | admitted =>
      refine ⟨fun session hmem hcontinues => ?_, fun call hcall => ?_⟩
      · rcases List.mem_append.mp hmem with hmem | hmem
        · exact h.permit session hmem hcontinues
        · rw [List.mem_singleton.mp hmem]
      · obtain ⟨session, hmem, hwaits⟩ := h.waits call hcall
        exact ⟨session, List.mem_append_left _ hmem, hwaits⟩
  | refused =>
      refine ⟨fun session hmem hcontinues => ?_, fun call hcall => ?_⟩
      · rcases List.mem_append.mp hmem with hmem | hmem
        · exact h.permit session hmem hcontinues
        · rw [List.mem_singleton.mp hmem] at hcontinues
          simp [Session.Continues] at hcontinues
      · obtain ⟨session, hmem, hwaits⟩ := h.waits call hcall
        exact ⟨session, List.mem_append_left _ hmem, hwaits⟩
  | process jobs result batcher _ hmoves => exact h.worker hmoves (by simp) _
  | worker event batcher _ hown hmoves =>
      exact h.worker hmoves (fun call request => (hown call request).1) s.device
  | shutDown => exact ⟨h.permit, h.waits⟩
  | task connection event session session' batcher hsession hmoves hbatcher =>
      replace hmoves := moves_of_step hmoves
      have hlt := (List.getElem?_eq_some_iff.mp hsession).1
      refine ⟨fun other hmem hcontinues => ?_, fun call hcall => ?_⟩
      · rcases List.mem_or_eq_of_mem_set hmem with hmem | rfl
        · exact h.permit other hmem hcontinues
        · obtain ⟨hbefore, hpermit⟩ := hmoves.continues hcontinues
          rw [hpermit]
          exact h.permit session (List.mem_of_getElem? hsession) hbefore
      · have hset : session' ∈ s.sessions.set connection session' :=
          List.mem_of_getElem? (List.getElem?_set_self hlt)
        by_cases hbefore : (s.batcher.calls call).inProgress = true
        · obtain ⟨other, hmem, hwaits⟩ := h.waits call hbefore
          obtain ⟨i, hi⟩ := List.mem_iff_getElem?.mp hmem
          by_cases hsame : connection = i
          · subst hsame
            cases hi.symm.trans hsession
            exact ⟨session', hset, waits_of_task hmoves hbatcher hcall hwaits⟩
          · refine ⟨other, List.mem_of_getElem? (i := i) ?_, hwaits⟩
            rw [List.getElem?_set_ne hsame, hi]
        · exact ⟨session', hset, begun_of_task hmoves hbatcher hcall hbefore⟩

/-- As many calls are in progress as connections hold permits, at most. -/
theorem active_le (hsize : 0 < config.batchSize)
    (run : (server config processor device).Run events s) :
    s.batcher.active ≤ s.sessions.countP Session.permit := by
  obtain ⟨calls, hcard, hcalls⟩ := (followed hsize run).borrowed.counted
  have carried := carried_run run
  have hsubset : calls ⊆ (s.sessions.filterMap Session.waitsFor).toFinset := by
    intro call hcall
    obtain ⟨session, hmem, hwaits⟩ := carried.waits call ((hcalls call).mp hcall)
    exact List.mem_toFinset.mpr (List.mem_filterMap.mpr ⟨session, hmem, hwaits⟩)
  calc s.batcher.active = calls.card := hcard.symm
    _ ≤ (s.sessions.filterMap Session.waitsFor).toFinset.card := Finset.card_le_card hsubset
    _ ≤ (s.sessions.filterMap Session.waitsFor).length := List.toFinset_card_le _
    _ = s.sessions.countP fun session => session.waitsFor.isSome :=
        List.length_filterMap_eq_countP
    _ ≤ s.sessions.countP Session.permit := by
        refine List.countP_mono_left fun session hmem hwaits => carried.permit session hmem ?_
        unfold Session.waitsFor at hwaits
        split at hwaits
        · next call closeAfterResponse hstage =>
            exact Or.inr (Or.inl ⟨call, closeAfterResponse, hstage⟩)
        · cases hwaits

/-- The jobs that wait for nobody become more only when a connection is dropped. -/
theorem stale_step (hsize : 0 < config.batchSize)
    (run : (server config processor device).Run events s) {e : Event}
    (hstep : (server config processor device).step s e = some s') :
    s'.batcher.stale ≤ s.batcher.stale ∨ s'.batcher.stale ≤ s.batcher.stale + 1 ∧
      ∃ connection call, e = .session connection (.abandoned call) := by
  have part := @batcher_part σ config processor device
  cases hevent : batcherEvent e with
  | none =>
      left
      rw [part.rests hstep hevent]
  | some d =>
      rcases (Batcher.moves_of_step (part.moves hstep hevent)).stale_le
        (followed hsize run).queue_nodup with hle | ⟨hle, call, rfl⟩
      · exact Or.inl hle
      · obtain ⟨connection, _, _, rfl, -, -⟩ := abandon_step hstep hevent
        exact Or.inr ⟨hle, connection, call, rfl⟩

/-- The permits that are held become more only when a connection is admitted, and fewer
when a connection that waits is dropped. -/
theorem held_step (run : (server config processor device).Run events s) {e : Event}
    (hstep : (server config processor device).step s e = some s') :
    (∃ connection, e = .session connection .admitted) ∨
      s'.sessions.countP Session.permit ≤ s.sessions.countP Session.permit ∧
        ∀ connection call, e = .session connection (.abandoned call) →
          s'.sessions.countP Session.permit < s.sessions.countP Session.permit := by
  cases moves_of_serverStep hstep with
  | admitted => exact Or.inl ⟨_, rfl⟩
  | refused =>
      refine Or.inr ⟨?_, fun _ _ heq => by cases heq⟩
      simp [List.countP_append]
  | process | worker | shutDown => exact Or.inr ⟨Nat.le_refl _, fun _ _ heq => by cases heq⟩
  | task connection event session session' batcher hsession hmoves _ =>
      replace hmoves := moves_of_step hmoves
      obtain ⟨hlt, hget⟩ := List.getElem?_eq_some_iff.mp hsession
      have hset := List.countP_set (p := Session.permit) (a := session') hlt
      rw [hget] at hset
      have hpositive (hheld : session.permit = true) : 0 < s.sessions.countP Session.permit :=
        List.countP_pos_iff.mpr ⟨session, List.mem_of_getElem? hsession, hheld⟩
      refine Or.inr ⟨?_, ?_⟩
      · show (s.sessions.set connection session').countP Session.permit ≤ _
        rw [hset]
        rcases hmoves.permit with hsame | hfree
        · rw [hsame]
          cases hheld : session.permit with
          | false => simp
          | true =>
              have := hpositive hheld
              simp only [if_true]
              omega
        · simp [hfree]
      · rintro other call heq
        cases heq
        show (s.sessions.set connection session').countP Session.permit < _
        cases hmoves with
        | endsReading _ hevent => simp at hevent
        | refuses _ _ hevent => simp at hevent
        | endsWriting _ hevent => simp at hevent
        | abandons _ closeAfterResponse hstage =>
            have hheld := (carried_run run).permit session (List.mem_of_getElem? hsession)
              (Or.inr (Or.inl ⟨call, closeAfterResponse, hstage⟩))
            have := hpositive hheld
            rw [hset, hheld]
            simp only [if_true, Session.finish, Bool.false_eq_true, if_false]
            omega

/-- The permits that are held and the jobs that wait for nobody have been connections at
one time; and while the server listens, nobody has gone. -/
structure Roomy (config : ServerConfig) (s : State σ) : Prop where
  bounded : s.sessions.countP Session.permit + s.batcher.stale ≤ config.maxConnections
  present : s.listening = true → ∀ call, s.batcher.calls call ≠ .abandoned

theorem Roomy.stale (h : Roomy config s) (hlistening : s.listening = true) :
    s.batcher.stale = 0 := by
  refine List.countP_eq_zero.mpr fun job _ habandoned => ?_
  exact h.present hlistening job.reply (by simpa using habandoned)

/-- Nobody goes while the server listens. -/
theorem present_step {e : Event} (hstep : (server config processor device).step s e = some s')
    (h : s.listening = true → ∀ call, s.batcher.calls call ≠ .abandoned)
    (hlistening : s'.listening = true) (call : Nat) : s'.batcher.calls call ≠ .abandoned := by
  have hbefore : s.listening = true := by
    cases moves_of_serverStep hstep with
    | shutDown => cases hlistening
    | _ => exact hlistening
  intro habandoned
  rcases (call_step hstep call).2.1 habandoned with hold | hevent
  · exact h hbefore call hold
  · obtain ⟨connection, _, _, rfl, -, -⟩ := abandon_step hstep hevent
    have hmoves : Moves config processor s (.session connection (.abandoned call)) s' :=
      moves_of_serverStep hstep
    cases hmoves with
    | task _ _ _ _ _ _ _ hbatcher =>
        exact (Option.ite_none_right_eq_some.mp hbatcher).1 hbefore

theorem roomy_run (hsize : 0 < config.batchSize)
    (run : (server config processor device).Run events s) : Roomy config s := by
  refine (@EventMachine.Run.invariant _ _ (server config processor device)
    (fun past s => (server config processor device).Run past s ∧ Roomy config s)
    ⟨rfl, Nat.zero_le _, fun _ _ heq => by cases heq⟩ ?_ events s run).2
  intro past s e s' ⟨run, h⟩ hstep
  have run' : (server config processor device).Run (past ++ [e]) s' :=
    run.append (EventMachine.after_cons.mpr ⟨s', hstep, rfl⟩)
  have hpresent := present_step hstep h.present
  refine ⟨run', ?_, hpresent⟩
  have hbalance := permits_balance run'
  rcases held_step run hstep with ⟨connection, rfl⟩ | ⟨hheld, hdropped⟩
  · -- a connection is admitted while the server listens
    have hlistening : s'.listening = true := by
      have hmoves : Moves config processor s (.session connection .admitted) s' :=
        moves_of_serverStep hstep
      cases hmoves with
      | admitted hlistening => exact hlistening
      | task _ _ _ _ _ _ hmoves _ => cases hmoves
    have hstale : s'.batcher.stale = 0 := by
      refine List.countP_eq_zero.mpr fun job _ habandoned => ?_
      exact hpresent hlistening job.reply (by simpa using habandoned)
    omega
  · have hbounded := h.bounded
    rcases stale_step hsize run hstep with hstale | ⟨hstale, connection, call, heq⟩
    · omega
    · have := hdropped connection call heq
      omega

/-- The queue never holds more jobs than there are permits. -/
theorem queue_bounded (hsize : 0 < config.batchSize)
    (run : (server config processor device).Run events s) :
    s.batcher.queue.length ≤ config.maxConnections := by
  have hqueue := @Batcher.Followed.queue_add_le _ _ _ (followed hsize run) ∅ (by simp) (by simp)
  have hactive := active_le hsize run
  have hroom := (roomy_run hsize run).bounded
  rw [Finset.card_empty] at hqueue
  omega

/-- With a place for every connection no request is refused. -/
theorem unrefused (hsize : 0 < config.batchSize)
    (hroom : config.maxConnections ≤ config.queueDepth)
    (run : (server config processor device).Run events s) : Batcher.Unrefused s.batcher := by
  refine (@EventMachine.Run.invariant _ _ (server config processor device)
    (fun past s => (server config processor device).Run past s ∧ Batcher.Unrefused s.batcher)
    ⟨rfl, Batcher.unrefused_start⟩ ?_ events s run).2
  intro past s e s' ⟨run, h⟩ hstep
  refine ⟨run.append (EventMachine.after_cons.mpr ⟨s', hstep, rfl⟩), ?_⟩
  have part := @batcher_part σ config processor device
  cases hevent : batcherEvent e with
  | none => rwa [part.rests hstep hevent]
  | some d =>
      have hmoves := Batcher.moves_of_step (part.moves hstep hevent)
      refine h.next hmoves ?_
      rintro job rfl
      generalize s'.batcher = batcher at hmoves
      cases hmoves with
      | overload _ hcall hfull =>
          -- the call that is refused is one more in progress
          have hfollowed := followed hsize run
          have hqueue := @Batcher.Followed.queue_add_le _ _ _ hfollowed {job.reply}
            (by simp [hcall, Call.inProgress]) (hfollowed.queue_outside hcall)
          have hactive := active_le hsize run
          have hbounded := (roomy_run hsize run).bounded
          have hdepth : config.queueDepth ≤ s.batcher.queue.length := hfull
          rw [Finset.card_singleton] at hqueue
          omega

/-- What a server with a place for every connection promises. -/
structure Uncrowded (config : ServerConfig) (answer : List UInt8 → List UInt8)
    (events : List Event) (s : State σ) : Prop where
  bounded : s.batcher.queue.length ≤ config.maxConnections
  unrefused : s.batcher.metrics.rejectedRequests = 0
  answered : ∀ (connection i call : Nat) (response : List UInt8),
    (responses (sessionEvents connection events))[i]? = some (call, response) →
    ∃ request, (submits (sessionEvents connection events))[i]? = some (call, request) ∧
      response = answer request

theorem uncrowded {machine : EventMachine (State σ) Event}
    (hserve : serve config processor device = .ok machine) {ready : σ → Prop}
    {answer : List UInt8 → List UInt8} (answers : processor.Answers config ready answer)
    (hready : ready device) (hroom : config.maxConnections ≤ config.queueDepth)
    (run : machine.Run events s) : Uncrowded config answer events s := by
  obtain ⟨hsize, rfl⟩ := batchSize_pos hserve
  have hunrefused := unrefused hsize hroom run
  refine ⟨queue_bounded hsize run, hunrefused.counted, ?_⟩
  intro connection i call response hi
  obtain ⟨result, hresult, rfl⟩ :=
    (apart_run run).returned (mem_responses.mp (List.mem_of_getElem? hi))
  rcases (conversation connection run).sound_or_silent with ⟨session, -, sound⟩ | ⟨-, hsilent⟩
  swap
  · rw [hsilent] at hi
    cases hi
  obtain ⟨request, hrequest⟩ := sound.stage.told.call_at hi
  refine ⟨request, hrequest, ?_⟩
  have hsubmitted := (submitted_iff run).mpr
    ⟨connection, mem_submits.mp (List.mem_of_getElem? hrequest)⟩
  have hbatches := (batches_succeed hsize answers hready run).2
  cases (followed hsize run).returned hresult hsubmitted with
  | served jobs batch k response hbatch _ hjob hresponse =>
      cases hbatches jobs _ hbatch
      rw [List.getElem?_map, hjob] at hresponse
      cases hresponse
      rfl
  | overloaded =>
      -- the call would have been refused
      have hcall := (hunrefused.calls call).2
      cases hstate : s.batcher.calls call <;> simp_all [Call.result]
  | failed jobs result k message hbatch _ hfailed =>
      have hok := hbatches jobs result hbatch
      exact absurd (List.length_map _) (hfailed _ hok)

end Runs

section Backends

variable {source : Router} {router : CompiledRouter}

/-- **No request is refused.**  A server whose queue is at least as deep as it has permits
answers every request it takes, on either backend, in every run: the queue never holds
more jobs than there are permits, the count of refusals stays zero, and each response is
the answer to the request at its place; on the device while wgpu reports no failure. -/
theorem never_overloaded (hcompile : compile source = .ok router) {config : ServerConfig}
    (hroom : config.maxConnections ≤ config.queueDepth) :
    ((∀ request, router.routeRequest request (ascii "cpu") = .ok (cpuAnswer router request)) ∧
      ∀ machine, serve config (cpuProcessor router) () = .ok machine →
        ∀ events s, machine.Run events s → Uncrowded config (cpuAnswer router) events s) ∧
      ∀ assets, buildShaderAssets router = .ok assets →
        ∃ answer : List UInt8 → List UInt8,
          (∀ request, Answer router assets request (answer request)) ∧
          ∀ processor buffers direct order reports memory,
            OnDevice config router assets processor buffers order reports memory → ∀ machine,
            serve config (gpuProcessor processor buffers direct order reports) memory =
              .ok machine →
            ∀ events s, machine.Run events s → Uncrowded config answer events s := by
  constructor
  · refine ⟨cpuAnswer_eq hcompile, fun machine hserve events s run => ?_⟩
    exact uncrowded hserve (cpu_answers hcompile) trivial hroom run
  · intro assets hassets
    obtain ⟨answer, hall, hanswer⟩ := exists_gpu_answer hcompile hassets
    refine ⟨answer, hall, ?_⟩
    intro processor buffers direct order reports memory device machine hserve events s run
    exact uncrowded hserve (gpu_answers hcompile hassets device hanswer) device.ready hroom run

end Backends

/-- The default configuration has twice as many places as permits. -/
theorem never_overloaded_default :
    ∃ router assets processor buffers host shader s t, compile Router.new = .ok router ∧
      (server ServerConfig.default (cpuProcessor router) ()).Run
        (waitingRequest (getRequest (ascii "/") []) ++
          servedRequest (getRequest (ascii "/") []) host) s ∧
      s.batcher.metrics.rejectedRequests = 0 ∧
      router.routeRequest (getRequest (ascii "/") []) (ascii "cpu") = .ok host ∧
      (server ServerConfig.default (reversedProcessor processor buffers)
          (startedMemory router assets buffers)).Run
        (waitingRequest (getRequest (ascii "/") []) ++
          servedRequest (getRequest (ascii "/") []) shader) t ∧
      t.batcher.metrics.rejectedRequests = 0 ∧
      Answer router assets (getRequest (ascii "/") []) shader := by
  obtain ⟨router, assets, processor, buffers, hcompile, hassets, device⟩ := exists_onDevice
  obtain ⟨⟨hhost, hcpu⟩, hgpu⟩ :=
    @never_overloaded _ router hcompile ServerConfig.default (by decide)
  obtain ⟨answer, hall, hruns⟩ := hgpu assets hassets
  obtain ⟨host, s, run⟩ := exists_served_cpu hcompile
  obtain ⟨shader, t, run'⟩ := exists_served_gpu hcompile hassets device
  have onHost := hcpu _ rfl _ s run
  have onShader := hruns processor buffers false _ _ _ device _ rfl _ t run'
  obtain ⟨request, hrequest, rfl⟩ := onHost.answered 0 0 0 host rfl
  cases hrequest
  obtain ⟨request, hrequest, rfl⟩ := onShader.answered 0 0 0 shader rfl
  cases hrequest
  exact ⟨router, assets, processor, buffers, _, _, s, t, hcompile, run, onHost.unrefused, hhost _,
    run', onShader.unrefused, hall _⟩

end Server
end Gput
