import Gput.Library.EventMachine
import Gput.Http.Network

/-!
# A connection as a machine

`handle_connection` with every step of it that others can see or influence: a read
delivers bytes, the reading ends, a request goes to the batcher, its response comes
back, and parts of it are written.  `Session.Sound` says what is true of the bytes
on either side of the connection at every moment, however the stream is cut, when
the reading times out and where the task is dropped.
-/

namespace Gput
namespace Server

open Http Delimited

/-- Where the task of a connection stands. -/
inductive Stage where
  | reading
  | submitting (call : Nat) (closeAfterResponse : Bool)
  /-- In `write_all`, with the bytes that are left. -/
  | writing (left : List UInt8) (closeAfterResponse : Bool)
  | ended
deriving DecidableEq, Repr

/-- A connection; `permit` says whether its task holds one of `connection_slots`. -/
structure Session where
  permit : Bool
  pending : List UInt8
  stage : Stage
deriving DecidableEq, Repr

inductive SessionEvent where
  | admitted
  | refused
  | read (chunk : List UInt8)
  | endOfStream
  | timedOut
  | failed
  | tooLarge
  | submit (call : Nat) (request : List UInt8)
  | respond (call : Nat) (response : List UInt8)
  | write (bytes : List UInt8)
  | written
  /-- The runtime drops the task while it waits for the batcher. -/
  | abandoned (call : Nat)
  /-- The runtime drops the task elsewhere. -/
  | dropped
deriving DecidableEq, Repr

/-- The size of the array `read_raw_request` reads into. -/
def chunkBytes : Nat := 1024

namespace Session

/-- The end of the task, which gives its permit back. -/
def finish (session : Session) : Session :=
  { session with permit := false, stage := .ended }

/-- `write_and_close`. -/
def writeAndClose (session : Session) (response : List UInt8) : Session :=
  { session with stage := .writing response true }

section Step

variable (maxRequestBytes : Nat) (session : Session)

/-- `read_raw_request` waits in `stream.read`. -/
def Awaits : Prop :=
  session.stage = .reading ∧ completeHeaderLen session.pending = none ∧
    session.pending.length < maxRequestBytes

/-- `read_raw_request` returns `TooLarge`. -/
def Oversized : Prop :=
  session.stage = .reading ∧
    match completeHeaderLen session.pending with
    | some headerLen => headerLen > maxRequestBytes
    | none => session.pending.length ≥ maxRequestBytes

instance : Decidable (session.Awaits maxRequestBytes) := instDecidableAnd

instance : Decidable (session.Oversized maxRequestBytes) :=
  have : Decidable (match completeHeaderLen session.pending with
    | some headerLen => headerLen > maxRequestBytes
    | none => session.pending.length ≥ maxRequestBytes) :=
    match completeHeaderLen session.pending with
    | some headerLen => inferInstanceAs (Decidable (headerLen > maxRequestBytes))
    | none => inferInstanceAs (Decidable (session.pending.length ≥ maxRequestBytes))
  instDecidableAnd

/-- The steps of the reading. -/
def readStep : SessionEvent → Option Session
  | .read chunk =>
      if session.Awaits maxRequestBytes ∧ 1 ≤ chunk.length ∧ chunk.length ≤ chunkBytes then
        some { session with pending := session.pending ++ chunk }
      else none
  | .endOfStream =>
      if session.Awaits maxRequestBytes then
        some (if session.pending = [] then session.finish
          else session.writeAndClose incompleteRequestResponse)
      else none
  | .timedOut =>
      if session.Awaits maxRequestBytes then
        some (if session.pending = [] then session.finish
          else session.writeAndClose requestTimeoutResponse)
      else none
  | .failed =>
      if session.Awaits maxRequestBytes then some session.finish
      else none
  | .tooLarge =>
      if session.Oversized maxRequestBytes then
        some (session.writeAndClose payloadTooLargeResponse)
      else none
  | .submit call request =>
      match session.stage, completeHeaderLen session.pending with
      | .reading, some headerLen =>
          if headerLen ≤ maxRequestBytes ∧ request = session.pending.take headerLen then
            some
              { session with
                pending := session.pending.drop headerLen
                stage := .submitting call (connectionShouldClose request) }
          else none
      | _, _ => none
  | _ => none

/-- The steps behind `submit`. -/
def writeStep : SessionEvent → Option Session
  | .respond call response =>
      match session.stage with
      | .submitting current closeAfterResponse =>
          if current = call then
            some { session with stage := .writing response closeAfterResponse }
          else none
      | _ => none
  | .write bytes =>
      match session.stage with
      | .writing left closeAfterResponse =>
          if bytes ≠ [] ∧ bytes <+: left then
            some { session with stage := .writing (left.drop bytes.length) closeAfterResponse }
          else none
      | _ => none
  | .written =>
      match session.stage with
      | .writing [] closeAfterResponse =>
          some (if closeAfterResponse then session.finish
            else { session with stage := .reading })
      | _ => none
  | .failed =>
      match session.stage with
      | .writing _ _ => some session.finish
      | _ => none
  | _ => none

/-- The runtime drops the task. -/
def dropStep : SessionEvent → Option Session
  | .abandoned call =>
      match session.stage with
      | .submitting current _ => if current = call then some session.finish else none
      | _ => none
  | .dropped =>
      match session.stage with
      | .reading | .writing _ _ => some session.finish
      | _ => none
  | _ => none

/-- One step of the task. -/
def step (event : SessionEvent) : Option Session :=
  match event with
  | .read _ | .endOfStream | .timedOut | .tooLarge | .submit _ _ =>
      session.readStep maxRequestBytes event
  | .failed =>
      match session.stage with
      | .reading => session.readStep maxRequestBytes event
      | _ => session.writeStep event
  | .respond _ _ | .write _ | .written => session.writeStep event
  | .abandoned _ | .dropped => session.dropStep event
  | .admitted | .refused => none

end Step

end Session

/-- A connection before and after it is accepted. -/
def sessionStep (maxRequestBytes : Nat) :
    Option Session → SessionEvent → Option (Option Session)
  | none, .admitted => some (some { permit := true, pending := [], stage := .reading })
  | none, .refused =>
      some (some
        { permit := false, pending := [], stage := .writing serviceUnavailableResponse true })
  | none, _ => none
  | some session, event => (session.step maxRequestBytes event).map some

/-- The machine of one connection. -/
def sessionMachine (maxRequestBytes : Nat) : EventMachine (Option Session) SessionEvent where
  start := none
  step := sessionStep maxRequestBytes

/-- The bytes that have arrived. -/
def received (events : List SessionEvent) : List UInt8 :=
  (events.filterMap fun
    | .read chunk => some chunk
    | _ => none).flatten

/-- The requests that went to the batcher, with their calls. -/
def submits (events : List SessionEvent) : List (Nat × List UInt8) :=
  events.filterMap fun
    | .submit call request => some (call, request)
    | _ => none

/-- The responses that came back, with their calls. -/
def responses (events : List SessionEvent) : List (Nat × List UInt8) :=
  events.filterMap fun
    | .respond call response => some (call, response)
    | _ => none

/-- The bytes that were written. -/
def sentBytes (events : List SessionEvent) : List UInt8 :=
  (events.filterMap fun
    | .write bytes => some bytes
    | _ => none).flatten

section Append

variable (first second : List SessionEvent)

theorem received_append : received (first ++ second) = received first ++ received second := by
  simp [received]

theorem submits_append : submits (first ++ second) = submits first ++ submits second :=
  List.filterMap_append

theorem responses_append : responses (first ++ second) = responses first ++ responses second :=
  List.filterMap_append

theorem sentBytes_append : sentBytes (first ++ second) = sentBytes first ++ sentBytes second := by
  simp [sentBytes]

end Append

/-- Every step of an accepted connection, with the connection before and after. -/
inductive SessionMoves (maxRequestBytes : Nat) (session : Session) :
    SessionEvent → Session → Prop
  | read (chunk : List UInt8) (hawaits : session.Awaits maxRequestBytes) :
      SessionMoves maxRequestBytes session (.read chunk)
        { session with pending := session.pending ++ chunk }
  | endsReading (event : SessionEvent)
      (hevent : event = .endOfStream ∨ event = .timedOut ∨ event = .failed ∨ event = .dropped)
      (hreading : session.stage = .reading) :
      SessionMoves maxRequestBytes session event session.finish
  | refuses (event : SessionEvent) (response : List UInt8)
      (hevent : event = .endOfStream ∧ response = incompleteRequestResponse ∨
        event = .timedOut ∧ response = requestTimeoutResponse ∨
        event = .tooLarge ∧ response = payloadTooLargeResponse)
      (hreading : session.stage = .reading) :
      SessionMoves maxRequestBytes session event (session.writeAndClose response)
  | submit (call headerLen : Nat) (hreading : session.stage = .reading)
      (hframe : frameLen headerTerminator session.pending = some headerLen)
      (hroom : headerLen ≤ maxRequestBytes) :
      SessionMoves maxRequestBytes session (.submit call (session.pending.take headerLen))
        { session with
          pending := session.pending.drop headerLen
          stage := .submitting call (connectionShouldClose (session.pending.take headerLen)) }
  | respond (call : Nat) (response : List UInt8) (closeAfterResponse : Bool)
      (hstage : session.stage = .submitting call closeAfterResponse) :
      SessionMoves maxRequestBytes session (.respond call response)
        { session with stage := .writing response closeAfterResponse }
  | write (bytes left : List UInt8) (closeAfterResponse : Bool)
      (hstage : session.stage = .writing (bytes ++ left) closeAfterResponse) :
      SessionMoves maxRequestBytes session (.write bytes)
        { session with stage := .writing left closeAfterResponse }
  | goesOn (hstage : session.stage = .writing [] false) :
      SessionMoves maxRequestBytes session .written { session with stage := .reading }
  | endsWriting (event : SessionEvent)
      (hevent : event = .written ∨ event = .failed ∨ event = .dropped)
      (left : List UInt8) (closeAfterResponse : Bool)
      (hstage : session.stage = .writing left closeAfterResponse)
      (hwritten : event = .written → left = [] ∧ closeAfterResponse = true) :
      SessionMoves maxRequestBytes session event session.finish
  | abandons (call : Nat) (closeAfterResponse : Bool)
      (hstage : session.stage = .submitting call closeAfterResponse) :
      SessionMoves maxRequestBytes session (.abandoned call) session.finish

section Moves

variable {maxRequestBytes : Nat} {session session' : Session} {event : SessionEvent}

theorem moves_of_readStep (h : session.readStep maxRequestBytes event = some session') :
    SessionMoves maxRequestBytes session event session' := by
  cases event with
  | read chunk =>
      obtain ⟨⟨hawaits, -⟩, h⟩ := Option.ite_none_right_eq_some.mp h
      cases h
      exact .read chunk hawaits
  | endOfStream =>
      obtain ⟨hawaits, h⟩ := Option.ite_none_right_eq_some.mp h
      cases h
      split
      · exact .endsReading _ (by simp) hawaits.1
      · exact .refuses _ _ (by simp) hawaits.1
  | timedOut =>
      obtain ⟨hawaits, h⟩ := Option.ite_none_right_eq_some.mp h
      cases h
      split
      · exact .endsReading _ (by simp) hawaits.1
      · exact .refuses _ _ (by simp) hawaits.1
  | failed =>
      obtain ⟨hawaits, h⟩ := Option.ite_none_right_eq_some.mp h
      cases h
      exact .endsReading _ (by simp) hawaits.1
  | tooLarge =>
      obtain ⟨hlarge, h⟩ := Option.ite_none_right_eq_some.mp h
      cases h
      exact .refuses _ _ (by simp) hlarge.1
  | submit call request =>
      simp only [Session.readStep] at h
      cases hstage : session.stage with
      | reading =>
          cases hframe : completeHeaderLen session.pending with
          | none => simp [hstage, hframe] at h
          | some headerLen =>
              simp only [hstage, hframe] at h
              obtain ⟨⟨hroom, rfl⟩, h⟩ := Option.ite_none_right_eq_some.mp h
              cases h
              exact .submit call headerLen hstage hframe hroom
      | _ => simp [hstage] at h
  | _ => cases h

theorem moves_of_writeStep (h : session.writeStep event = some session') :
    SessionMoves maxRequestBytes session event session' := by
  cases event with
  | respond call response =>
      simp only [Session.writeStep] at h
      split at h
      · next current closeAfterResponse hstage =>
        obtain ⟨hcall, h⟩ := Option.ite_none_right_eq_some.mp h
        cases h
        subst hcall
        exact .respond _ response closeAfterResponse hstage
      · cases h
  | write bytes =>
      simp only [Session.writeStep] at h
      split at h
      · next left closeAfterResponse hstage =>
        obtain ⟨⟨-, left, rfl⟩, h⟩ := Option.ite_none_right_eq_some.mp h
        cases h
        rw [List.drop_left]
        exact .write bytes left closeAfterResponse hstage
      · cases h
  | written =>
      simp only [Session.writeStep] at h
      split at h
      · next closeAfterResponse hstage =>
        cases h
        cases closeAfterResponse with
        | false => exact .goesOn hstage
        | true => exact .endsWriting _ (by simp) [] true hstage fun _ => ⟨rfl, rfl⟩
      · cases h
  | failed =>
      simp only [Session.writeStep] at h
      split at h
      · next left closeAfterResponse hstage =>
        cases h
        exact .endsWriting _ (by simp) left closeAfterResponse hstage fun heq => by cases heq
      · cases h
  | _ => cases h

theorem moves_of_dropStep (h : session.dropStep event = some session') :
    SessionMoves maxRequestBytes session event session' := by
  cases event with
  | abandoned call =>
      simp only [Session.dropStep] at h
      split at h
      · next current closeAfterResponse hstage =>
        obtain ⟨hcall, h⟩ := Option.ite_none_right_eq_some.mp h
        cases h
        subst hcall
        exact .abandons _ closeAfterResponse hstage
      · cases h
  | dropped =>
      simp only [Session.dropStep] at h
      cases hstage : session.stage with
      | reading =>
          simp only [hstage] at h
          cases h
          exact .endsReading _ (by simp) hstage
      | writing left closeAfterResponse =>
          simp only [hstage] at h
          cases h
          exact .endsWriting _ (by simp) left closeAfterResponse hstage fun heq => by cases heq
      | _ => simp [hstage] at h
  | _ => cases h

theorem moves_of_step (h : session.step maxRequestBytes event = some session') :
    SessionMoves maxRequestBytes session event session' := by
  cases event with
  | read | endOfStream | timedOut | tooLarge | submit => exact moves_of_readStep h
  | failed =>
      simp only [Session.step] at h
      split at h
      · exact moves_of_readStep h
      · exact moves_of_writeStep h
  | respond | write | written => exact moves_of_writeStep h
  | abandoned | dropped => exact moves_of_dropStep h
  | admitted | refused => cases h

end Moves

/-- None of the requests closes its connection. -/
def Persistent (requests : List (Nat × List UInt8)) : Prop :=
  ∀ request ∈ requests, connectionShouldClose request.2 = false

/-- The response the network itself ends a connection with, if any. -/
def Closing (closing : List UInt8) : Prop :=
  closing = [] ∨ closing = requestTimeoutResponse ∨ closing = payloadTooLargeResponse ∨
    closing = incompleteRequestResponse

/-- What the client can see: the responses follow the requests one by one, at most
one request waits, only the last one closes, and what is written is the start of the
responses and of the last word of the network, which comes when no request waits. -/
structure Told (requests answers : List (Nat × List UInt8)) (sent : List UInt8) : Prop where
  paired : answers.map Prod.fst <+: requests.map Prod.fst
  waiting : requests.length ≤ answers.length + 1
  persistent : Persistent requests.dropLast
  sent : ∃ closing, Closing closing ∧ sent <+: (answers.map Prod.snd).flatten ++ closing ∧
    (closing ≠ [] → answers.length = requests.length)

/-- The same at every stage of the task, with what is left to write. -/
inductive At (requests answers : List (Nat × List UInt8)) (sent : List UInt8) : Stage → Prop
  | reading (hpaired : answers.map Prod.fst = requests.map Prod.fst)
      (hpersistent : Persistent requests) (hsent : sent = (answers.map Prod.snd).flatten) :
      At requests answers sent .reading
  | submitting (earlier : List (Nat × List UInt8)) (call : Nat) (request : List UInt8)
      (hlast : requests = earlier ++ [(call, request)])
      (hpaired : answers.map Prod.fst = earlier.map Prod.fst) (hpersistent : Persistent earlier)
      (hsent : sent = (answers.map Prod.snd).flatten) :
      At requests answers sent (.submitting call (connectionShouldClose request))
  | answering (earlier : List (Nat × List UInt8)) (call : Nat) (request left : List UInt8)
      (hlast : requests = earlier ++ [(call, request)])
      (hpaired : answers.map Prod.fst = requests.map Prod.fst) (hpersistent : Persistent earlier)
      (hsent : sent ++ left = (answers.map Prod.snd).flatten) :
      At requests answers sent (.writing left (connectionShouldClose request))
  | closing (left closing : List UInt8) (hclosing : Closing closing)
      (hpaired : answers.map Prod.fst = requests.map Prod.fst) (hpersistent : Persistent requests)
      (hsent : sent ++ left = (answers.map Prod.snd).flatten ++ closing) :
      At requests answers sent (.writing left true)
  | ended (htold : Told requests answers sent) : At requests answers sent .ended

section Told

variable {requests answers : List (Nat × List UInt8)} {sent : List UInt8} {stage : Stage}

theorem Persistent.dropLast (h : Persistent requests) : Persistent requests.dropLast :=
  fun request hmem => h request (List.dropLast_subset _ hmem)

/-- Every stage keeps what the client can see. -/
theorem At.told (h : At requests answers sent stage) : Told requests answers sent := by
  have length {first second : List (Nat × List UInt8)}
      (heq : first.map Prod.fst = second.map Prod.fst) : first.length = second.length := by
    have := congrArg List.length heq
    rwa [List.length_map, List.length_map] at this
  cases h with
  | reading hpaired hpersistent hsent =>
      refine ⟨hpaired ▸ List.prefix_rfl, by rw [length hpaired]; omega, hpersistent.dropLast, [],
        Or.inl rfl, ?_, fun hnot => absurd rfl hnot⟩
      rw [List.append_nil, hsent]
  | submitting earlier call request hlast hpaired hpersistent hsent =>
      subst hlast
      refine ⟨?_, ?_, ?_, [], Or.inl rfl, ?_, fun hnot => absurd rfl hnot⟩
      · rw [List.map_append, hpaired]
        exact List.prefix_append _ _
      · rw [List.length_append, length hpaired]
        exact Nat.le_refl _
      · rwa [List.dropLast_concat]
      · rw [List.append_nil, hsent]
  | answering earlier call request left hlast hpaired hpersistent hsent =>
      subst hlast
      refine ⟨hpaired ▸ List.prefix_rfl, by rw [length hpaired]; omega, ?_, [], Or.inl rfl, ?_,
        fun hnot => absurd rfl hnot⟩
      · rwa [List.dropLast_concat]
      · rw [List.append_nil, ← hsent]
        exact List.prefix_append _ _
  | closing left closing hclosing hpaired hpersistent hsent =>
      refine ⟨hpaired ▸ List.prefix_rfl, by rw [length hpaired]; omega, hpersistent.dropLast,
        closing, hclosing, ?_, fun _ => length hpaired⟩
      rw [← hsent]
      exact List.prefix_append _ _
  | ended htold => exact htold

end Told

/-- What is true of an admitted connection: what has arrived is the requests, each a
frame within its bound, and what is pending. -/
structure Session.Sound (maxRequestBytes : Nat) (events : List SessionEvent)
    (session : Session) : Prop where
  whole : ((submits events).map Prod.snd).flatten ++ session.pending = received events
  framed : ∀ request ∈ submits events,
    frameLen headerTerminator request.2 = some request.2.length ∧
      request.2.length ≤ maxRequestBytes
  stage : At (submits events) (responses events) (sentBytes events) session.stage

/-- What is true of a connection that found no permit. -/
structure Session.TurnedAway (events : List SessionEvent) (session : Session) : Prop where
  permit : session.permit = false
  silent : received events = [] ∧ submits events = [] ∧ responses events = []
  stage : session.stage = .ended ∧ sentBytes events <+: serviceUnavailableResponse ∨
    ∃ left, session.stage = .writing left true ∧
      sentBytes events ++ left = serviceUnavailableResponse

/-- What is true of a connection, accepted or not. -/
inductive Conversation (maxRequestBytes : Nat) :
    List SessionEvent → Option Session → Prop
  | unopened : Conversation maxRequestBytes [] none
  | admitted (events : List SessionEvent) (session : Session)
      (sound : session.Sound maxRequestBytes (.admitted :: events)) :
      Conversation maxRequestBytes (.admitted :: events) (some session)
  | refused (events : List SessionEvent) (session : Session)
      (away : session.TurnedAway (.refused :: events)) :
      Conversation maxRequestBytes (.refused :: events) (some session)

section Conversation

variable {maxRequestBytes : Nat} {session session' : Session} {event : SessionEvent}
  {events : List SessionEvent} {state state' : Option Session}

/-- An event that only moves the stage. -/
theorem Session.Sound.frame (h : session.Sound maxRequestBytes events)
    (hsubmits : submits [event] = []) (hreceived : received [event] = [])
    (hpending : session'.pending = session.pending)
    (hstage : At (submits events) (responses (events ++ [event]))
      (sentBytes (events ++ [event])) session'.stage) :
    session'.Sound maxRequestBytes (events ++ [event]) := by
  have hsame : submits (events ++ [event]) = submits events := by
    rw [submits_append, hsubmits, List.append_nil]
  refine ⟨?_, ?_, ?_⟩
  · rw [hsame, received_append, hreceived, List.append_nil, hpending, h.whole]
  · rw [hsame]
    exact h.framed
  · rw [hsame]
    exact hstage

/-- An event that ends the task. -/
theorem Session.Sound.finish (h : session.Sound maxRequestBytes events)
    (hsubmits : submits [event] = []) (hreceived : received [event] = [])
    (hresponses : responses [event] = []) (hsent : sentBytes [event] = []) :
    session.finish.Sound maxRequestBytes (events ++ [event]) := by
  refine h.frame hsubmits hreceived rfl (.ended ?_)
  rw [responses_append, hresponses, sentBytes_append, hsent, List.append_nil, List.append_nil]
  exact h.stage.told

theorem Session.Sound.read {chunk : List UInt8} (h : session.Sound maxRequestBytes events) :
    ({ session with pending := session.pending ++ chunk } : Session).Sound maxRequestBytes
      (events ++ [.read chunk]) := by
  obtain ⟨whole, framed, stage⟩ := h
  have hsubmits : submits (events ++ [.read chunk]) = submits events := by
    rw [submits_append]
    exact List.append_nil _
  refine ⟨?_, ?_, ?_⟩
  · rw [hsubmits, received_append, ← whole, ← List.append_assoc]
    simp [received]
  · rwa [hsubmits]
  · rw [hsubmits, responses_append, sentBytes_append]
    simpa [responses, sentBytes] using stage

theorem Session.Sound.submit {call headerLen : Nat} (h : session.Sound maxRequestBytes events)
    (hreading : session.stage = .reading)
    (hframe : frameLen headerTerminator session.pending = some headerLen)
    (hroom : headerLen ≤ maxRequestBytes) :
    ({ session with
        pending := session.pending.drop headerLen
        stage := .submitting call
          (connectionShouldClose (session.pending.take headerLen)) } : Session).Sound
      maxRequestBytes (events ++ [.submit call (session.pending.take headerLen)]) := by
  obtain ⟨whole, framed, stage⟩ := h
  have hsnoc : submits (events ++ [.submit call (session.pending.take headerLen)]) =
      submits events ++ [(call, session.pending.take headerLen)] := submits_append _ _
  have htake : (session.pending.take headerLen).length = headerLen := by
    rw [List.length_take, Nat.min_eq_left (frameLen_le hframe).2]
  refine ⟨?_, ?_, ?_⟩
  · rw [hsnoc, List.map_append, List.flatten_append, List.append_assoc, received_append, ← whole]
    simp [received]
  · intro request hmem
    rw [hsnoc, List.mem_append, List.mem_singleton] at hmem
    rcases hmem with hmem | rfl
    · exact framed request hmem
    · exact ⟨by rw [htake]; exact frameLen_take hframe, by rw [htake]; exact hroom⟩
  · rw [hsnoc, responses_append, sentBytes_append]
    rw [hreading] at stage
    cases stage with
    | reading hpaired hpersistent hsent =>
        refine .submitting _ _ _ rfl ?_ hpersistent ?_
        · simpa [responses] using hpaired
        · simpa [responses, sentBytes] using hsent

theorem Session.Sound.respond {call : Nat} {response : List UInt8} {closeAfterResponse : Bool}
    (h : session.Sound maxRequestBytes events)
    (hstage : session.stage = .submitting call closeAfterResponse) :
    ({ session with stage := .writing response closeAfterResponse } : Session).Sound
      maxRequestBytes (events ++ [.respond call response]) := by
  refine h.frame rfl rfl rfl ?_
  have stage := h.stage
  have hsnoc : responses (events ++ [.respond call response]) =
      responses events ++ [(call, response)] := responses_append _ _
  rw [hstage] at stage
  rw [hsnoc, sentBytes_append]
  cases stage with
  | submitting earlier _ request hlast hpaired hpersistent hsent =>
      refine .answering earlier call request response hlast ?_ hpersistent ?_
      · rw [List.map_append, hpaired, hlast, List.map_append]
        rfl
      · rw [hsent]
        simp [sentBytes]

theorem Session.Sound.write {bytes left : List UInt8} {closeAfterResponse : Bool}
    (h : session.Sound maxRequestBytes events)
    (hstage : session.stage = .writing (bytes ++ left) closeAfterResponse) :
    ({ session with stage := .writing left closeAfterResponse } : Session).Sound
      maxRequestBytes (events ++ [.write bytes]) := by
  refine h.frame rfl rfl rfl ?_
  have stage := h.stage
  have hresponses : responses (events ++ [.write bytes]) = responses events := by
    rw [responses_append]
    exact List.append_nil _
  have hsent' : sentBytes (events ++ [.write bytes]) = sentBytes events ++ bytes := by
    rw [sentBytes_append]
    simp [sentBytes]
  rw [hstage] at stage
  rw [hresponses, hsent']
  cases stage with
  | answering earlier call request _ hlast hpaired hpersistent hsent =>
      exact .answering earlier call request left hlast hpaired hpersistent
        ((List.append_assoc _ _ _).trans hsent)
  | closing _ closing hclosing hpaired hpersistent hsent =>
      exact .closing left closing hclosing hpaired hpersistent
        ((List.append_assoc _ _ _).trans hsent)

/-- Every step of an admitted connection keeps it sound. -/
theorem Session.Sound.next (h : session.Sound maxRequestBytes events)
    (hmoves : SessionMoves maxRequestBytes session event session') :
    session'.Sound maxRequestBytes (events ++ [event]) := by
  cases hmoves with
  | read chunk _ => exact h.read
  | endsReading event hevent _ =>
      rcases hevent with rfl | rfl | rfl | rfl <;> exact h.finish rfl rfl rfl rfl
  | refuses event response hevent hreading =>
      have stage := h.stage
      rw [hreading] at stage
      have hquiet : submits [event] = [] ∧ received [event] = [] ∧ responses [event] = [] ∧
          sentBytes [event] = [] ∧ Closing response := by
        rcases hevent with ⟨rfl, rfl⟩ | ⟨rfl, rfl⟩ | ⟨rfl, rfl⟩ <;>
          exact ⟨rfl, rfl, rfl, rfl, by simp [Closing]⟩
      obtain ⟨hsubmits, hreceived, hresponses, hsentNone, hclosing⟩ := hquiet
      refine h.frame hsubmits hreceived rfl ?_
      rw [responses_append, hresponses, sentBytes_append, hsentNone, List.append_nil,
        List.append_nil]
      cases stage with
      | reading hpaired hpersistent hsent =>
          exact .closing response response hclosing hpaired hpersistent (by rw [hsent])
  | submit call headerLen hreading hframe hroom => exact h.submit hreading hframe hroom
  | respond call response closeAfterResponse hstage => exact h.respond hstage
  | write bytes left closeAfterResponse hstage => exact h.write hstage
  | goesOn hstage =>
      refine h.frame rfl rfl rfl ?_
      have stage := h.stage
      rw [hstage] at stage
      have hsame : responses (events ++ [.written]) = responses events ∧
          sentBytes (events ++ [.written]) = sentBytes events := by
        simp [responses, sentBytes]
      rw [hsame.1, hsame.2]
      generalize hclose : false = closeAfterResponse at stage
      cases stage with
      | answering earlier call request _ hlast hpaired hpersistent hsent =>
          refine .reading hpaired ?_ (by rw [← hsent, List.append_nil])
          intro other hmem
          rw [hlast, List.mem_append, List.mem_singleton] at hmem
          rcases hmem with hmem | rfl
          · exact hpersistent other hmem
          · exact hclose.symm
      | closing => cases hclose
  | endsWriting event hevent =>
      rcases hevent with rfl | rfl | rfl <;> exact h.finish rfl rfl rfl rfl
  | abandons => exact h.finish rfl rfl rfl rfl

/-- A connection without a permit only gets its response. -/
theorem Session.TurnedAway.next (h : session.TurnedAway events)
    (hmoves : SessionMoves maxRequestBytes session event session') :
    session'.TurnedAway (events ++ [event]) := by
  obtain ⟨permit, ⟨hreceived, hsubmits, hresponses⟩, stage⟩ := h
  rcases stage with ⟨hended, -⟩ | ⟨left, hwriting, hsent⟩
  · -- an ended task takes no step
    cases hmoves with
    | read _ hawaits => exact absurd hawaits.1 (by simp [hended])
    | _ => simp_all
  cases hmoves with
  | read _ hawaits => exact absurd hawaits.1 (by simp [hwriting])
  | write bytes left' closeAfterResponse hstage =>
      rw [hwriting] at hstage
      cases hstage
      refine ⟨permit, ?_, Or.inr ⟨left', rfl, ?_⟩⟩
      · rw [received_append, submits_append, responses_append, hreceived, hsubmits, hresponses]
        exact ⟨rfl, rfl, rfl⟩
      · rw [← hsent, sentBytes_append]
        simp [sentBytes]
  | endsWriting event hevent =>
      have hquiet : submits [event] = [] ∧ received [event] = [] ∧ responses [event] = [] ∧
          sentBytes [event] = [] := by
        rcases hevent with rfl | rfl | rfl <;> exact ⟨rfl, rfl, rfl, rfl⟩
      obtain ⟨hsubmitsNone, hreceivedNone, hresponsesNone, hsentNone⟩ := hquiet
      refine ⟨rfl, ?_, Or.inl ⟨rfl, ?_⟩⟩
      · rw [received_append, submits_append, responses_append, hreceived, hsubmits, hresponses,
          hsubmitsNone, hreceivedNone, hresponsesNone]
        exact ⟨rfl, rfl, rfl⟩
      · rw [sentBytes_append, hsentNone, List.append_nil, ← hsent]
        exact List.prefix_append _ _
  | _ => simp_all

/-- The invariant of a connection over its whole life. -/
theorem Conversation.next (h : Conversation maxRequestBytes events state)
    (hstep : (sessionMachine maxRequestBytes).step state event = some state') :
    Conversation maxRequestBytes (events ++ [event]) state' := by
  cases h with
  | unopened =>
      cases event with
      | admitted =>
          cases hstep
          refine .admitted [] _ ⟨rfl, fun _ hmem => absurd hmem List.not_mem_nil, ?_⟩
          exact .reading rfl (fun _ hmem => absurd hmem List.not_mem_nil) rfl
      | refused =>
          cases hstep
          exact .refused [] _ ⟨rfl, ⟨rfl, rfl, rfl⟩, Or.inr ⟨_, rfl, rfl⟩⟩
      | _ => cases hstep
  | admitted events session sound =>
      obtain ⟨session', hmoves, rfl⟩ := Option.map_eq_some_iff.mp hstep
      exact .admitted _ _ (sound.next (moves_of_step hmoves))
  | refused events session away =>
      obtain ⟨session', hmoves, rfl⟩ := Option.map_eq_some_iff.mp hstep
      exact .refused _ _ (away.next (moves_of_step hmoves))

theorem conversation_run (run : (sessionMachine maxRequestBytes).Run events state) :
    Conversation maxRequestBytes events state :=
  run.invariant .unopened fun _ _ _ _ h hstep => h.next hstep

/-- Only an admitted connection hands over requests and is given responses. -/
theorem Conversation.sound_or_silent (h : Conversation maxRequestBytes events state) :
    (∃ session : Session, state = some session ∧ session.Sound maxRequestBytes events) ∨
      submits events = [] ∧ responses events = [] := by
  cases h with
  | unopened => exact Or.inr ⟨rfl, rfl⟩
  | admitted past session sound => exact Or.inl ⟨session, rfl, sound⟩
  | refused past session away => exact Or.inr away.silent.2

/-- Frames at the start of a stream are the first it is cut into. -/
theorem frames_prefix_cut {frames : List (List UInt8)} {rest stream : List UInt8}
    (hwhole : frames.flatten ++ rest = stream)
    (hframed : ∀ frame ∈ frames, frameLen headerTerminator frame = some frame.length) :
    frames <+: (cut headerTerminator stream).1 := by
  induction frames generalizing stream with
  | nil => exact List.nil_prefix
  | cons frame frames ih =>
      rw [List.flatten_cons, List.append_assoc] at hwhole
      have hframe := hframed frame List.mem_cons_self
      have hfirst : frameLen headerTerminator stream = some frame.length := by
        rw [← hwhole]
        exact frameLen_append hframe _
      rw [cut_terminated hwhole hfirst]
      exact List.cons_prefix_cons.mpr
        ⟨rfl, ih rfl fun other hmem => hframed other (List.mem_cons_of_mem _ hmem)⟩

end Conversation

end Server
end Gput
