import Gput.Server.Machine

/-!
# What the server promises

What holds in every run of the server, whatever its clients send, however the tasks
are interleaved, and whatever the processor does.  A connection is served as if it
were alone: `connections_served` says that its requests are the first frames of its
own stream, that it is told one response for each of them in order, and that each
response is the one the processor gave for that very request, or says that the queue
was full or the batch failed.  What keeps the connections out of each other's way is
`Apart`: a call belongs to the connection that began it.
-/

namespace Gput
namespace Server

open Http Delimited
open Batcher (Job BatchResult)

section Runs

variable {σ : Type} {config : ServerConfig} {processor : Processor σ} {device : σ}
  {events : List Event} {s s' : State σ} {e : Event}

theorem SessionMoves.permit {maxRequestBytes : Nat} {session session' : Session}
    {event : SessionEvent} (h : SessionMoves maxRequestBytes session event session') :
    session'.permit = session.permit ∨ session'.permit = false := by
  cases h <;> first | exact Or.inl rfl | exact Or.inr rfl

/-- A permit passes from the semaphore to a connection, and back. -/
theorem balance_step (hstep : step config processor s e = some s') :
    s'.permits + s'.sessions.countP Session.permit =
      s.permits + s.sessions.countP Session.permit := by
  cases moves_of_serverStep hstep with
  | admitted hlistening hroom =>
      rw [List.countP_append]
      show s.permits - 1 + (s.sessions.countP Session.permit + 1) = _
      omega
  | refused =>
      rw [List.countP_append]
      rfl
  | task connection event session session' batcher hsession hmoves _ =>
      obtain ⟨hlt, hget⟩ := List.getElem?_eq_some_iff.mp hsession
      have hset := List.countP_set (p := Session.permit) (a := session') hlt
      have hpermit := (moves_of_step hmoves).permit
      rw [hget] at hset
      simp only
      rw [hset]
      cases hheld : session.permit with
      | false =>
          have hfree : session'.permit = false := by simpa [hheld] using hpermit
          simp [hfree]
      | true =>
          have hpos : 0 < s.sessions.countP Session.permit :=
            List.countP_pos_iff.mpr ⟨session, List.mem_of_getElem? hsession, hheld⟩
          cases session'.permit with
          | true =>
              simp only [if_true, not_true_eq_false, and_false, if_false]
              omega
          | false =>
              simp only [if_true, Bool.false_eq_true, not_false_eq_true, and_self, if_false]
              omega
  | process | worker | shutDown => rfl

/-- A permit is either free or held by one connection. -/
theorem permits_balance (run : (server config processor device).Run events s) :
    s.permits + s.sessions.countP Session.permit = config.maxConnections := by
  refine @EventMachine.Run.invariant _ _ (server config processor device)
    (fun _ s => s.permits + s.sessions.countP Session.permit = config.maxConnections)
    (Nat.add_zero _) ?_ events s run
  exact fun past s e s' hI hstep => (balance_step hstep).trans hI

theorem batcherEvents_append (first second : List Event) :
    batcherEvents (first ++ second) = batcherEvents first ++ batcherEvents second :=
  List.filterMap_append

theorem mem_submits {connection call : Nat} {request : List UInt8} :
    (call, request) ∈ submits (sessionEvents connection events) ↔
      .session connection (.submit call request) ∈ events := by
  simp only [submits, sessionEvents, List.mem_filterMap]
  constructor
  · rintro ⟨event, ⟨e, hmem, hevent⟩, hsubmit⟩
    cases e with
    | session other own =>
        obtain ⟨rfl, hown⟩ := Option.ite_none_right_eq_some.mp hevent
        cases hown
        cases event <;> cases hsubmit
        exact hmem
    | batcher | shutDown => cases hevent
  · intro hmem
    exact ⟨.submit call request, ⟨_, hmem, if_pos rfl⟩, rfl⟩

theorem mem_responses {connection call : Nat} {response : List UInt8} :
    (call, response) ∈ responses (sessionEvents connection events) ↔
      .session connection (.respond call response) ∈ events := by
  simp only [responses, sessionEvents, List.mem_filterMap]
  constructor
  · rintro ⟨event, ⟨e, hmem, hevent⟩, hrespond⟩
    cases e with
    | session other own =>
        obtain ⟨rfl, hown⟩ := Option.ite_none_right_eq_some.mp hevent
        cases hown
        cases event <;> cases hrespond
        exact hmem
    | batcher | shutDown => cases hevent
  · intro hmem
    exact ⟨.respond call response, ⟨_, hmem, if_pos rfl⟩, rfl⟩

/-- What goes to the batcher comes from a connection. -/
theorem mem_submitted (hown : ∀ call request, .batcher (.submit call request) ∉ events)
    {call : Nat} {request : List UInt8} :
    (call, request) ∈ Batcher.submitted (batcherEvents events) ↔
      ∃ connection, .session connection (.submit call request) ∈ events := by
  simp only [Batcher.submitted, batcherEvents, List.mem_filterMap]
  constructor
  · rintro ⟨event, ⟨e, hmem, hevent⟩, hsubmit⟩
    cases e with
    | session connection own =>
        cases own <;> cases hevent <;> cases hsubmit
        exact ⟨connection, hmem⟩
    | batcher own =>
        cases hevent
        cases event <;> cases hsubmit
        exact absurd hmem (hown _ _)
    | shutDown => cases hevent
  · rintro ⟨connection, hmem⟩
    exact ⟨.submit call request, ⟨_, hmem, rfl⟩, rfl⟩

theorem submitted_iff (run : (server config processor device).Run events s) {call : Nat}
    {request : List UInt8} :
    (call, request) ∈ Batcher.submitted (batcherEvents events) ↔
      ∃ connection, .session connection (.submit call request) ∈ events := by
  refine mem_submitted fun call request hmem => ?_
  obtain ⟨past, t, t', -, hstep⟩ := run.step_of_mem hmem
  cases hstep

/-- The batcher inside the server keeps its invariants. -/
theorem followed (hsize : 0 < config.batchSize)
    (run : (server config processor device).Run events s) :
    Batcher.Followed (batcherConfig config) (batcherEvents events) s.batcher :=
  Batcher.followed_run hsize (batcher_part.run run)

/-- Every connection keeps its invariant. -/
theorem conversation (connection : Nat)
    (run : (server config processor device).Run events s) :
    Conversation config.maxRequestBytes (sessionEvents connection events)
      s.sessions[connection]? :=
  conversation_run ((session_part connection).run run)

/-- What a step of the server does to a call. -/
theorem call_step (hstep : step config processor s e = some s') (call : Nat) :
    (s.batcher.calls call ≠ .idle → s'.batcher.calls call ≠ .idle) ∧
      (s'.batcher.calls call = .abandoned → s.batcher.calls call = .abandoned ∨
        batcherEvent e = some (.abandon call)) ∧
      ∀ result, (s.batcher.calls call).result = some result →
        (s'.batcher.calls call).result = some result := by
  have part := @batcher_part σ config processor s.device
  cases hevent : batcherEvent e with
  | none =>
      rw [part.rests hstep hevent]
      exact ⟨id, Or.inl, fun _ => id⟩
  | some d =>
      have hmoves := Batcher.moves_of_step (part.moves hstep hevent)
      exact ⟨hmoves.begun, fun habandoned => (hmoves.abandoned habandoned).imp_right (congrArg some),
        fun _ => hmoves.result⟩

/-- A connection hands over a request with a call that has not begun. -/
theorem submit_step {connection call : Nat} {request : List UInt8}
    (hstep : step config processor s (.session connection (.submit call request)) = some s') :
    s.batcher.calls call = .idle ∧ s'.batcher.calls call = .ready request := by
  have hmoves : Moves config processor s (.session connection (.submit call request)) s' :=
    moves_of_serverStep hstep
  cases hmoves with
  | task _ _ _ _ batcher _ _ hbatcher =>
      obtain ⟨⟨-, hidle⟩, hnext⟩ := Option.ite_none_right_eq_some.mp hbatcher
      cases hnext
      exact ⟨hidle, Function.update_self ..⟩

/-- A step into `submit` begins the call. -/
theorem stage_of_moves {maxRequestBytes call : Nat} {closeAfterResponse : Bool}
    {session session' : Session} {event : SessionEvent}
    (h : SessionMoves maxRequestBytes session event session')
    (hstage : session'.stage = .submitting call closeAfterResponse) :
    ∃ request, event = .submit call request := by
  cases h with
  | submit other headerLen _ _ _ =>
      cases hstage
      exact ⟨_, rfl⟩
  | read chunk hawaits =>
      have hreading : session.stage = .submitting call closeAfterResponse := hstage
      rw [hawaits.1] at hreading
      cases hreading
  | _ => cases hstage

/-- A connection that waits has just begun to, or it has waited before. -/
theorem waiting_before (hstep : step config processor s e = some s') {connection call : Nat}
    {session : Session} {closeAfterResponse : Bool}
    (hsession : s'.sessions[connection]? = some session)
    (hstage : session.stage = .submitting call closeAfterResponse) :
    (∃ request, e = .session connection (.submit call request)) ∨
      s.sessions[connection]? = some session ∧ ∀ event, e ≠ .session connection event := by
  cases moves_of_serverStep hstep with
  | admitted | refused =>
      rcases Nat.lt_or_ge connection s.sessions.length with hlt | hge
      · rw [List.getElem?_append_left hlt] at hsession
        refine Or.inr ⟨hsession, fun event heq => ?_⟩
        cases heq
        exact absurd hlt (Nat.lt_irrefl _)
      · rw [List.getElem?_append_right hge] at hsession
        obtain ⟨_, heq⟩ := List.getElem?_eq_some_iff.mp hsession
        rw [List.getElem_singleton] at heq
        rw [← heq] at hstage
        cases hstage
  | task other event before after batcher hother hmoves _ =>
      by_cases hsame : other = connection
      · subst hsame
        rw [List.getElem?_set_self (List.getElem?_eq_some_iff.mp hother).1] at hsession
        cases hsession
        obtain ⟨request, rfl⟩ := stage_of_moves (moves_of_step hmoves) hstage
        exact Or.inl ⟨request, rfl⟩
      · rw [List.getElem?_set_ne hsame] at hsession
        refine Or.inr ⟨hsession, fun event heq => ?_⟩
        cases heq
        exact hsame rfl
  | process | worker | shutDown => exact Or.inr ⟨hsession, fun _ heq => by cases heq⟩

/-- Only a connection that waits drops a call. -/
theorem abandon_step (hstep : step config processor s e = some s') {call : Nat}
    (hevent : batcherEvent e = some (.abandon call)) :
    ∃ connection session closeAfterResponse, e = .session connection (.abandoned call) ∧
      s.sessions[connection]? = some session ∧
      session.stage = .submitting call closeAfterResponse := by
  cases moves_of_serverStep hstep with
  | task connection event session session' batcher hsession hmoves _ =>
      cases event with
      | abandoned other =>
          cases hevent
          cases moves_of_step hmoves with
          | abandons _ closeAfterResponse hwaits =>
              exact ⟨connection, session, closeAfterResponse, rfl, hsession, hwaits⟩
          | endsReading _ hevent => simp at hevent
          | refuses _ _ hevent => simp at hevent
          | endsWriting _ hevent => simp at hevent
      | _ => cases hevent
  | worker event _ _ hown _ =>
      cases hevent
      exact absurd rfl (hown call []).2
  | admitted | refused | process | shutDown => cases hevent

/-- Connections stay apart: a call belongs to the connection that began it and keeps it
while it waits, and a response is what the call has returned. -/
structure Apart (past : List Event) (s : State σ) : Prop where
  begun : ∀ {connection call request}, .session connection (.submit call request) ∈ past →
    s.batcher.calls call ≠ .idle
  own : ∀ {connection other call request request'},
    .session connection (.submit call request) ∈ past →
    .session other (.submit call request') ∈ past → connection = other
  waits : ∀ {connection call session closeAfterResponse},
    s.sessions[connection]? = some session →
    session.stage = .submitting call closeAfterResponse →
    (∃ request, .session connection (.submit call request) ∈ past) ∧
      s.batcher.calls call ≠ .abandoned
  returned : ∀ {connection call response}, .session connection (.respond call response) ∈ past →
    ∃ result, (s.batcher.calls call).result = some result ∧ response = responseOf result

theorem apart_start : Apart [] (server config processor device).start where
  begun := fun hmem => absurd hmem List.not_mem_nil
  own := fun hmem => absurd hmem List.not_mem_nil
  waits := fun hsession => by cases hsession
  returned := fun hmem => absurd hmem List.not_mem_nil

/-- Something happens to the calls alone, and no call is dropped. -/
theorem Apart.frame (h : Apart events s) (hsessions : s'.sessions = s.sessions)
    (hcalls : ∀ call, (s.batcher.calls call ≠ .idle → s'.batcher.calls call ≠ .idle) ∧
      (s'.batcher.calls call = .abandoned → s.batcher.calls call = .abandoned) ∧
      ∀ result, (s.batcher.calls call).result = some result →
        (s'.batcher.calls call).result = some result) : Apart events s' where
  begun := fun hmem => (hcalls _).1 (h.begun hmem)
  own := h.own
  waits := fun hsession hstage => by
    obtain ⟨hsubmit, hkept⟩ := h.waits (hsessions ▸ hsession) hstage
    exact ⟨hsubmit, fun habandoned => hkept ((hcalls _).2.1 habandoned)⟩
  returned := fun hmem => by
    obtain ⟨result, hresult, heq⟩ := h.returned hmem
    exact ⟨result, (hcalls _).2.2 result hresult, heq⟩

theorem Apart.next (h : Apart events s) (hstep : step config processor s e = some s') :
    Apart (events ++ [e]) s' := by
  constructor
  · intro connection call request hmem
    rcases List.mem_append.mp hmem with hmem | hmem
    · exact (call_step hstep call).1 (h.begun hmem)
    · cases List.mem_singleton.mp hmem
      rw [(submit_step hstep).2]
      simp
  · -- the call of a new request has not begun before
    have fresh {connection other call : Nat} {request request' : List UInt8}
        (hnew : .session connection (.submit call request) ∈ [e])
        (hold : .session other (.submit call request') ∈ events) : False := by
      cases List.mem_singleton.mp hnew
      exact h.begun hold (submit_step hstep).1
    intro connection other call request request' hmem hmem'
    rcases List.mem_append.mp hmem with hmem | hmem <;>
      rcases List.mem_append.mp hmem' with hmem' | hmem'
    · exact h.own hmem hmem'
    · exact (fresh hmem' hmem).elim
    · exact (fresh hmem hmem').elim
    · cases (List.mem_singleton.mp hmem).trans (List.mem_singleton.mp hmem').symm
      rfl
  · intro connection call session closeAfterResponse hsession hstage
    rcases waiting_before hstep hsession hstage with ⟨request, rfl⟩ | ⟨hbefore, hother⟩
    · refine ⟨⟨request, List.mem_append_right _ (List.mem_singleton.mpr rfl)⟩, ?_⟩
      rw [(submit_step hstep).2]
      simp
    · obtain ⟨⟨request, hsubmit⟩, hkept⟩ := h.waits hbefore hstage
      refine ⟨⟨request, List.mem_append_left _ hsubmit⟩, fun habandoned => ?_⟩
      rcases (call_step hstep call).2.1 habandoned with hdropped | hevent
      · exact hkept hdropped
      · -- another connection would have the same call
        obtain ⟨other, _, _, rfl, hsession', hstage'⟩ := abandon_step hstep hevent
        obtain ⟨⟨request', hsubmit'⟩, -⟩ := h.waits hsession' hstage'
        exact hother _ (by rw [h.own hsubmit' hsubmit])
  · intro connection call response hmem
    rcases List.mem_append.mp hmem with hmem | hmem
    · obtain ⟨result, hresult, heq⟩ := h.returned hmem
      exact ⟨result, (call_step hstep call).2.2 result hresult, heq⟩
    · cases List.mem_singleton.mp hmem
      have hmoves : Moves config processor s (.session connection (.respond call response)) s' :=
        moves_of_serverStep hstep
      cases hmoves with
      | task _ _ _ _ batcher _ _ hbatcher =>
          obtain ⟨hreturned, hsame⟩ := Option.ite_none_right_eq_some.mp hbatcher
          cases hsame
          obtain ⟨result, hresult, heq⟩ := Option.map_eq_some_iff.mp hreturned
          exact ⟨result, hresult, heq.symm⟩

theorem apart_run (run : (server config processor device).Run events s) : Apart events s :=
  @EventMachine.Run.invariant _ _ (server config processor device) Apart apart_start
    (fun _ _ _ _ h hstep => h.next hstep) events s run

/-- A response to a request: what the batcher returned for it, and nothing else. -/
def Answered (events : List Event) (call : Nat) (request response : List UInt8) : Prop :=
  ∃ result, Batcher.Returned (batcherEvents events) call request result ∧
    response = responseOf result

theorem answered_of_response (hsize : 0 < config.batchSize)
    (run : (server config processor device).Run events s) {connection other call : Nat}
    {request response : List UInt8}
    (hsubmit : .session connection (.submit call request) ∈ events)
    (hrespond : .session other (.respond call response) ∈ events) :
    Answered events call request response := by
  obtain ⟨result, hresult, heq⟩ := (apart_run run).returned hrespond
  exact ⟨result, (followed hsize run).returned hresult
    ((submitted_iff run).mpr ⟨connection, hsubmit⟩), heq⟩

/-- A connection is told responses to its own requests, in their order. -/
structure ServedInOrder (config : ServerConfig) (events : List Event) (connection : Nat)
    (session : Session) : Prop where
  /-- Its requests are the first frames of its stream, and the rest is pending. -/
  frames : (submits (sessionEvents connection events)).map Prod.snd <+:
    (cut headerTerminator (received (sessionEvents connection events))).1
  whole : ((submits (sessionEvents connection events)).map Prod.snd).flatten ++ session.pending =
    received (sessionEvents connection events)
  bounded : ∀ request ∈ submits (sessionEvents connection events),
    request.2.length ≤ config.maxRequestBytes
  /-- It is told their responses, in order; while its task runs, nothing is lost. -/
  told : Told (submits (sessionEvents connection events))
    (responses (sessionEvents connection events)) (sentBytes (sessionEvents connection events))
  stage : At (submits (sessionEvents connection events))
    (responses (sessionEvents connection events)) (sentBytes (sessionEvents connection events))
    session.stage

/-- What is promised to an admitted connection. -/
structure ServedAlone (config : ServerConfig) (events : List Event) (connection : Nat)
    (session : Session) : Prop extends ServedInOrder config events connection session where
  /-- A response is to the request at its place. -/
  answered : ∀ (i call : Nat) (response : List UInt8),
    (responses (sessionEvents connection events))[i]? = some (call, response) →
    ∃ request, (submits (sessionEvents connection events))[i]? = some (call, request) ∧
      Answered events call request response

/-- What is promised to a connection that finds no permit. -/
structure TurnedAway (events : List Event) (connection : Nat) : Prop where
  silent : submits (sessionEvents connection events) = []
  sent : sentBytes (sessionEvents connection events) <+: serviceUnavailableResponse

theorem Told.call_at {requests answers : List (Nat × List UInt8)} {sent : List UInt8}
    (h : Told requests answers sent) {i call : Nat} {response : List UInt8}
    (hi : answers[i]? = some (call, response)) :
    ∃ request, requests[i]? = some (call, request) := by
  have hcall : (answers.map Prod.fst)[i]? = some call := by
    rw [List.getElem?_map, hi]
    rfl
  obtain ⟨hlt, hget⟩ := List.getElem?_eq_some_iff.mp hcall
  have hrequest := List.prefix_iff_getElem?.mp h.paired i hlt
  rw [hget, List.getElem?_map] at hrequest
  obtain ⟨⟨_, request⟩, hfound, rfl⟩ := Option.map_eq_some_iff.mp hrequest
  exact ⟨request, hfound⟩

theorem servedInOrder_of_sound {connection : Nat} {session : Session}
    (sound : session.Sound config.maxRequestBytes (sessionEvents connection events)) :
    ServedInOrder config events connection session := by
  refine ⟨frames_prefix_cut sound.whole ?_, sound.whole,
    fun request hmem => (sound.framed request hmem).2, sound.stage.told, sound.stage⟩
  intro frame hmem
  obtain ⟨request, hrequest, rfl⟩ := List.mem_map.mp hmem
  exact (sound.framed request hrequest).1

theorem servedAlone_of_sound (hsize : 0 < config.batchSize)
    (run : (server config processor device).Run events s) {connection : Nat} {session : Session}
    (sound : session.Sound config.maxRequestBytes (sessionEvents connection events)) :
    ServedAlone config events connection session := by
  refine ⟨servedInOrder_of_sound sound, ?_⟩
  intro i call response hi
  obtain ⟨request, hrequest⟩ := sound.stage.told.call_at hi
  exact ⟨request, hrequest, answered_of_response hsize run
    (mem_submits.mp (List.mem_of_getElem? hrequest))
    (mem_responses.mp (List.mem_of_getElem? hi))⟩

/-- An accepted connection is served in order, or it is told that there is no room. -/
theorem served_or_away {connection : Nat} {session : Session}
    (h : Conversation config.maxRequestBytes (sessionEvents connection events) (some session)) :
    ((sessionEvents connection events).head? = some .admitted ∧
        session.Sound config.maxRequestBytes (sessionEvents connection events)) ∨
      ((sessionEvents connection events).head? = some .refused ∧ TurnedAway events connection) := by
  generalize hpast : sessionEvents connection events = past at h
  cases h with
  | admitted past session sound => exact Or.inl ⟨rfl, sound⟩
  | refused past session away =>
      rw [← hpast] at away
      obtain ⟨-, ⟨-, hsubmits, -⟩, stage⟩ := away
      refine Or.inr ⟨rfl, hsubmits, ?_⟩
      rcases stage with ⟨-, hsent⟩ | ⟨left, -, hsent⟩
      · exact hsent
      · rw [← hsent]
        exact List.prefix_append _ _

theorem batchSize_pos {machine : EventMachine (State σ) Event}
    (hserve : serve config processor device = .ok machine) :
    0 < config.batchSize ∧ server config processor device = machine := by
  obtain ⟨_, -, hserve⟩ := Outcome.bind_eq_ok.mp hserve
  obtain ⟨_, hspawn, hserve⟩ := Outcome.bind_eq_ok.mp hserve
  obtain ⟨_, hsize, -⟩ := Outcome.bind_eq_ok.mp hspawn
  exact ⟨Outcome.ensure_eq_ok.mp hsize, Outcome.ok.inj hserve⟩

/-- A connection is admitted while a permit is free, and refused when they are all
held. -/
theorem permits_at_accept (run : (server config processor device).Run events s)
    {before after : List Event} {connection : Nat} :
    (events = before ++ .session connection .admitted :: after →
        ∃ t, (server config processor device).Run before t ∧
          t.sessions.countP Session.permit < config.maxConnections) ∧
      (events = before ++ .session connection .refused :: after →
        ∃ t, (server config processor device).Run before t ∧
          t.sessions.countP Session.permit = config.maxConnections) := by
  constructor
  · rintro rfl
    obtain ⟨t, t', hbefore, hstep⟩ := run.split
    have hbalance := permits_balance hbefore
    have hmoves : Moves config processor t (.session connection .admitted) t' :=
      moves_of_serverStep hstep
    refine ⟨t, hbefore, ?_⟩
    cases hmoves with
    | admitted _ hroom => omega
    | task _ _ _ _ _ _ hnever _ => cases hnever
  · rintro rfl
    obtain ⟨t, t', hbefore, hstep⟩ := run.split
    have hbalance := permits_balance hbefore
    have hmoves : Moves config processor t (.session connection .refused) t' :=
      moves_of_serverStep hstep
    refine ⟨t, hbefore, ?_⟩
    cases hmoves with
    | refused _ hfull => omega
    | task _ _ _ _ _ _ hnever _ => cases hnever

/-- **A connection is served as if it were alone.**  In every run of the server no more
tasks than permits are at work, and a connection is refused only when every permit is
held.  Whatever the processor and the other clients do, an admitted connection is told
the responses to the first frames of its own stream, one for each in their order, and
each is what the batcher returned for that request; a refused one is told that the
server is overloaded; and no call serves two connections. -/
theorem connections_served {machine : EventMachine (State σ) Event}
    (hserve : serve config processor device = .ok machine) (run : machine.Run events s) :
    s.permits + s.sessions.countP Session.permit = config.maxConnections ∧
      (∀ connection session, s.sessions[connection]? = some session →
        ((sessionEvents connection events).head? = some .admitted ∧
          ServedAlone config events connection session) ∨
        ((sessionEvents connection events).head? = some .refused ∧
          TurnedAway events connection)) ∧
      (∀ before after connection,
        (events = before ++ .session connection .admitted :: after → ∃ t, machine.Run before t ∧
          t.sessions.countP Session.permit < config.maxConnections) ∧
        (events = before ++ .session connection .refused :: after → ∃ t, machine.Run before t ∧
          t.sessions.countP Session.permit = config.maxConnections)) ∧
      ∀ connection other call request request',
        .session connection (.submit call request) ∈ events →
        .session other (.submit call request') ∈ events → connection = other := by
  obtain ⟨hsize, rfl⟩ := batchSize_pos hserve
  refine ⟨permits_balance run, ?_, fun _ _ _ => permits_at_accept run,
    fun _ _ _ _ _ h h' => (apart_run run).own h h'⟩
  intro connection session hsession
  have hconversation := conversation connection run
  rw [hsession] at hconversation
  exact (served_or_away hconversation).imp_left
    fun ⟨hadmitted, sound⟩ => ⟨hadmitted, servedAlone_of_sound hsize run sound⟩

end Runs

/-- A server with one permit. -/
def oneSlot : ServerConfig where
  batchSize := 2
  batchWait := 1
  queueDepth := 4
  maxRequestBytes := 64
  responseSlotBytes := 256
  maxConnections := 1
  readTimeout := 1

/-- A processor that answers a request with itself. -/
def echo : Processor Unit where
  processBatch device requests := (device, .ok requests)

/-- A letter and an empty line. -/
def shortRequest : List UInt8 := [71, 13, 10, 13, 10]

def shortJob : Job := { request := shortRequest, reply := 0 }

/-- One connection is about to be served, the next one finds no permit. -/
def twoClients : List Event :=
  [.session 0 .admitted, .session 1 .refused, .session 0 (.read (shortRequest.take 2)),
    .session 1 (.write serviceUnavailableResponse),
    .session 0 (.read (shortRequest.drop 2 ++ [71])), .session 0 (.submit 0 shortRequest),
    .session 1 .written, .batcher (.accept shortJob), .batcher .take,
    .batcher (.countAccepted 0), .batcher .poll, .batcher (.dispatch [shortJob])]

/-- The response of the first one is sent in part. -/
def firstServed : List Event :=
  [.batcher (.process [shortJob] (.ok [shortRequest])),
    .batcher (.reply 0 (.response shortRequest)), .batcher (.receiveReply 0),
    .session 0 (.respond 0 shortRequest), .session 0 (.write (shortRequest.take 3))]

set_option maxRecDepth 2000 in
theorem connections_served_twoClients :
    ∃ s, (server oneSlot echo ()).Run (twoClients ++ firstServed) s ∧
      s.sessions.countP Session.permit = 1 ∧
      (∃ session, s.sessions[0]? = some session ∧
        ServedAlone oneSlot (twoClients ++ firstServed) 0 session) ∧
      TurnedAway (twoClients ++ firstServed) 1 := by
  obtain ⟨s, run, first, second, hfirst, hsecond, hpermits⟩ :
      ∃ s, (server oneSlot echo ()).Run (twoClients ++ firstServed) s ∧
        ∃ first second, s.sessions[0]? = some first ∧ s.sessions[1]? = some second ∧
          s.permits = 0 := ⟨_, rfl, _, _, rfl, rfl, rfl⟩
  obtain ⟨hbalance, hserved, -⟩ :=
    @connections_served _ oneSlot echo () _ s (server oneSlot echo ()) rfl run
  rw [hpermits, Nat.zero_add] at hbalance
  have hadmitted : (sessionEvents 0 (twoClients ++ firstServed)).head? = some .admitted := rfl
  have hrefused : (sessionEvents 1 (twoClients ++ firstServed)).head? = some .refused := rfl
  refine ⟨s, run, hbalance, ⟨first, hfirst, ?_⟩, ?_⟩
  · rcases hserved 0 first hfirst with ⟨-, halone⟩ | ⟨hother, -⟩
    · exact halone
    · rw [hadmitted] at hother
      cases hother
  · rcases hserved 1 second hsecond with ⟨hother, -⟩ | ⟨-, haway⟩
    · rw [hrefused] at hother
      cases hother
    · exact haway

section Answers

variable {σ : Type} {config : ServerConfig} {processor : Processor σ} {device : σ}
  {events : List Event} {s s' : State σ}

/-- A batch the worker can hand to the processor. -/
structure Fits (config : ServerConfig) (requests : List (List UInt8)) : Prop where
  nonempty : 1 ≤ requests.length
  count : requests.length ≤ config.batchSize
  bytes : ∀ request ∈ requests, request.length ≤ config.maxRequestBytes

/-- From a state that is ready, the processor answers every batch that fits, request by
request, and is ready for the next one. -/
def Processor.Answers (processor : Processor σ) (config : ServerConfig) (ready : σ → Prop)
    (answer : List UInt8 → List UInt8) : Prop :=
  ∀ device requests, ready device → Fits config requests →
    ready (processor.processBatch device requests).1 ∧
      (processor.processBatch device requests).2 = .ok (requests.map answer)

/-- From a state that is ready, the processor comes to a result for every batch that
fits, and is ready for the next one. -/
def Processor.Returns (processor : Processor σ) (config : ServerConfig) (ready : σ → Prop) :
    Prop :=
  ∀ device requests, ready device → Fits config requests →
    ready (processor.processBatch device requests).1 ∧
      (processor.processBatch device requests).2 ≠ .panic

theorem Processor.Answers.returns {ready : σ → Prop} {answer : List UInt8 → List UInt8}
    (answers : processor.Answers config ready answer) : processor.Returns config ready := by
  intro device requests hready fits
  obtain ⟨hnext, houtcome⟩ := answers device requests hready fits
  refine ⟨hnext, ?_⟩
  rw [houtcome]
  intro hpanic
  cases hpanic

/-- The requests of a batch that is with the processor are requests of connections. -/
theorem fits_of_processing (hsize : 0 < config.batchSize)
    (run : (server config processor device).Run events s) {jobs : List Job}
    (hworker : s.batcher.worker = .processing jobs) : Fits config (jobs.map Job.request) := by
  have hfollowed := followed hsize run
  have tracked := hfollowed.delivered.tracked
  have hbatch : jobs ∈ Batcher.batches (batcherEvents events) := by
    rw [tracked.handled, hworker]
    exact List.mem_append_right _ (List.mem_singleton.mpr rfl)
  obtain ⟨hone, hcount⟩ := tracked.sizes jobs hbatch
  refine ⟨by rwa [List.length_map], by rw [List.length_map]; exact hcount, ?_⟩
  intro request hmem
  obtain ⟨job, hjob, rfl⟩ := List.mem_map.mp hmem
  have haccepted : job ∈ Batcher.accepted (batcherEvents events) := by
    rw [tracked.order]
    exact List.mem_append_left _ (List.mem_append_left _
      (List.mem_flatten.mpr ⟨jobs, hbatch, hjob⟩))
  obtain ⟨connection, hsubmit⟩ := (submitted_iff run).mp (hfollowed.named.jobs job haccepted)
  have hrequest := mem_submits.mpr hsubmit
  rcases (conversation connection run).sound_or_silent with ⟨session, -, sound⟩ | ⟨hsilent, -⟩
  · exact (sound.framed _ hrequest).2
  · rw [hsilent] at hrequest
    cases hrequest

/-- The processor is ready in every run. -/
theorem ready_run {ready : σ → Prop} (hsize : 0 < config.batchSize)
    (returns : processor.Returns config ready) (hready : ready device)
    (run : (server config processor device).Run events s) : ready s.device := by
  refine (@EventMachine.Run.invariant _ _ (server config processor device)
    (fun past s => (server config processor device).Run past s ∧ ready s.device)
    ⟨rfl, hready⟩ ?_ events s run).2
  intro past s e s' ⟨run, hI⟩ hstep
  refine ⟨run.append (EventMachine.after_cons.mpr ⟨s', hstep, rfl⟩), ?_⟩
  cases moves_of_serverStep hstep with
  | admitted | refused | shutDown | task | worker => exact hI
  | process jobs result batcher houtcome hmoves =>
      have hworker : s.batcher.worker = .processing jobs := by
        cases Batcher.moves_of_step hmoves with
        | process _ _ hworker => exact hworker
      exact (returns s.device _ hI (fits_of_processing hsize run hworker)).1

/-- Every batch goes well. -/
theorem batches_succeed {ready : σ → Prop} {answer : List UInt8 → List UInt8}
    (hsize : 0 < config.batchSize) (answers : processor.Answers config ready answer)
    (hready : ready device) (run : (server config processor device).Run events s) :
    ready s.device ∧ ∀ jobs result, (jobs, result) ∈ Batcher.processed (batcherEvents events) →
      result = .ok (jobs.map fun job => answer job.request) := by
  refine (@EventMachine.Run.invariant _ _ (server config processor device)
    (fun past s => (server config processor device).Run past s ∧ ready s.device ∧
      ∀ jobs result, (jobs, result) ∈ Batcher.processed (batcherEvents past) →
        result = .ok (jobs.map fun job => answer job.request))
    ⟨rfl, hready, fun _ _ hmem => absurd hmem List.not_mem_nil⟩ ?_ events s run).2
  intro past s e s' ⟨run, hreadyNow, hI⟩ hstep
  refine ⟨run.append (EventMachine.after_cons.mpr ⟨s', hstep, rfl⟩), ?_⟩
  have quiet (hnone : Batcher.processed (batcherEvents [e]) = []) :
      Batcher.processed (batcherEvents (past ++ [e])) = Batcher.processed (batcherEvents past) := by
    rw [batcherEvents_append, Batcher.processed_append, hnone, List.append_nil]
  cases moves_of_serverStep hstep with
  | admitted | refused | shutDown =>
      rw [quiet rfl]
      exact ⟨hreadyNow, hI⟩
  | task connection event _ _ _ _ _ _ =>
      rw [quiet (by cases event <;> rfl)]
      exact ⟨hreadyNow, hI⟩
  | worker event batcher hother _ _ =>
      rw [quiet (by cases event <;> first | rfl | exact absurd rfl (hother _ _))]
      exact ⟨hreadyNow, hI⟩
  | process jobs result batcher houtcome hmoves =>
      have hworker : s.batcher.worker = .processing jobs := by
        cases Batcher.moves_of_step hmoves with
        | process _ _ hworker => exact hworker
      obtain ⟨hreadyNext, hanswered⟩ :=
        answers s.device (jobs.map Job.request) hreadyNow (fits_of_processing hsize run hworker)
      refine ⟨hreadyNext, fun jobs' result' hmem => ?_⟩
      rw [batcherEvents_append, Batcher.processed_append] at hmem
      rcases List.mem_append.mp hmem with hmem | hmem
      · exact hI jobs' result' hmem
      · cases List.mem_singleton.mp hmem
        rw [hanswered, List.map_map] at houtcome
        cases result with
        | ok responses =>
            rw [← Outcome.ok.inj houtcome]
            rfl
        | err message => cases houtcome

/-- **Every request gets its answer.**  With a processor that answers every batch it is
given, whatever its state, no batch of the server fails: every response is the answer
to the request at its place, or says that the queue was full. -/
theorem requests_answered {machine : EventMachine (State σ) Event}
    (hserve : serve config processor device = .ok machine) {ready : σ → Prop}
    {answer : List UInt8 → List UInt8} (answers : processor.Answers config ready answer)
    (hready : ready device) (run : machine.Run events s) {connection i call : Nat}
    {response : List UInt8}
    (hi : (responses (sessionEvents connection events))[i]? = some (call, response)) :
    ∃ request, (submits (sessionEvents connection events))[i]? = some (call, request) ∧
      (response = answer request ∨ response = serviceUnavailableResponse) := by
  obtain ⟨hsize, rfl⟩ := batchSize_pos hserve
  have hbatches := (batches_succeed hsize answers hready run).2
  rcases (conversation connection run).sound_or_silent with ⟨session, -, sound⟩ | ⟨-, hsilent⟩
  swap
  · rw [hsilent] at hi
    cases hi
  obtain ⟨request, hrequest, result, hreturned, rfl⟩ :=
    (servedAlone_of_sound hsize run sound).answered i call response hi
  refine ⟨request, hrequest, ?_⟩
  cases hreturned with
  | served jobs batch k response hbatch _ hjob hresponse =>
      cases hbatches jobs _ hbatch
      rw [List.getElem?_map, hjob] at hresponse
      cases hresponse
      exact Or.inl rfl
  | overloaded => exact Or.inr rfl
  | failed jobs result k message hbatch _ hfailed =>
      have hok := hbatches jobs result hbatch
      exact absurd (List.length_map _) (hfailed _ hok)

end Answers

end Server
end Gput
