import Gput.Http.Device
import Gput.Http.Framing
import Gput.Server.Progress

/-!
# The server on its backends

The two processors of the server.  On the host a batch is answered by
`route_request`; on the device by the shader, whose answers `Http.Device` describes.
So no batch of the server fails on either of them, and a client that cuts what it is
sent reads the responses to its requests.
-/

namespace Gput
namespace Server

open ByteString Delimited Http Http.Shader

/-- `CpuProcessor::process_batch`. -/
def cpuBatch (router : CompiledRouter) : List (List UInt8) → Outcome (List (List UInt8))
  | [] => return []
  | request :: requests => do
      let response ← router.routeRequest request (ascii "cpu")
      let later ← cpuBatch router requests
      return response :: later

/-- `CpuProcessor`. -/
def cpuProcessor (router : CompiledRouter) : Processor Unit where
  processBatch device requests := (device, cpuBatch router requests)

/-- `GpuProcessor`, on a device that runs invocations in some order, with what wgpu
reports. -/
def gpuProcessor (processor : GpuProcessor) (buffers : ProcessorBuffers) (direct : Bool)
    (order : DispatchOrder) (reports : WgpuReports) : Processor ProcessorMemory where
  processBatch := processor.processGpuBatch buffers direct order reports

/-- A processor that has started, on a device that holds the router, runs every
invocation of a batch and reports no failure. -/
structure OnDevice (config : ServerConfig) (router : CompiledRouter) (assets : ShaderAssets)
    (processor : GpuProcessor) (buffers : ProcessorBuffers) (order : DispatchOrder)
    (reports : WgpuReports) (memory : ProcessorMemory) : Prop where
  started : Started config router processor buffers
  complete : order.Complete
  succeed : reports.Succeed
  ready : memory.Ready router assets buffers

/-- What the host answers. -/
def cpuAnswer (router : CompiledRouter) (request : List UInt8) : List UInt8 :=
  match router.routeRequest request (ascii "cpu") with
  | .ok response => response
  | _ => []

section Answers

variable {source : Router} {router : CompiledRouter} {assets : ShaderAssets}
  {config : ServerConfig}

theorem cpuAnswer_eq (hcompile : compile source = .ok router) (request : List UInt8) :
    router.routeRequest request (ascii "cpu") = .ok (cpuAnswer router request) := by
  obtain ⟨chosen, hmem, parts, heq⟩ := router.routeRequest_eq request (ascii "cpu")
  obtain ⟨_, _, _, -, -, -, -, -, hrender⟩ :=
    renderResponse_eq ((isCompiled_compile hcompile).responses chosen hmem) parts request.length
      (ascii "cpu")
  rw [cpuAnswer, heq, hrender]

theorem cpuBatch_eq (hcompile : compile source = .ok router) (requests : List (List UInt8)) :
    cpuBatch router requests = .ok (requests.map (cpuAnswer router)) := by
  induction requests with
  | nil => rfl
  | cons request requests ih =>
      rw [cpuBatch, cpuAnswer_eq hcompile, Outcome.ok_bind, ih]
      rfl

theorem buildResponse_ne_nil {status : UInt16} {reason contentType body backend : List UInt8} :
    buildResponse status reason contentType body backend ≠ [] := by
  have hend : ascii "\r\n" ≠ [] := by decide
  simp [buildResponse, responseHeaders, hend]

theorem cpuAnswer_ne_nil (hcompile : compile source = .ok router) (request : List UInt8) :
    cpuAnswer router request ≠ [] := by
  obtain ⟨chosen, hmem, parts, heq⟩ := router.routeRequest_eq request (ascii "cpu")
  obtain ⟨_, _, _, -, -, -, -, -, hrender⟩ :=
    renderResponse_eq ((isCompiled_compile hcompile).responses chosen hmem) parts request.length
      (ascii "cpu")
  rw [cpuAnswer, heq, hrender]
  exact buildResponse_ne_nil

/-- The host answers every batch. -/
theorem cpu_answers (hcompile : compile source = .ok router) :
    (cpuProcessor router).Answers config (fun _ => True) (cpuAnswer router) :=
  fun _ requests _ _ => ⟨trivial, cpuBatch_eq hcompile requests⟩

/-- So does the device. -/
theorem gpu_answers {processor : GpuProcessor} {buffers : ProcessorBuffers} {direct : Bool}
    {order : DispatchOrder} {reports : WgpuReports} {memory : ProcessorMemory}
    (hcompile : compile source = .ok router) (hassets : buildShaderAssets router = .ok assets)
    (device : OnDevice config router assets processor buffers order reports memory)
    {answer : List UInt8 → List UInt8}
    (hanswer : ∀ request bytes, Answer router assets request bytes → answer request = bytes) :
    (gpuProcessor processor buffers direct order reports).Answers config
      (fun memory => memory.Ready router assets buffers) answer := by
  intro memory requests ready fits
  have hbatch : (processor.processGpuBatch buffers direct order reports memory requests).2 =
        batchOutcome processor answer requests ∧ _ :=
    processGpuBatch_eq hcompile hassets device.started device.complete device.succeed hanswer ready
      requests
  obtain ⟨-, hsize, hmax, -⟩ := device.started.sizes
  refine ⟨hbatch.2, hbatch.1.trans ?_⟩
  have hcount := fits.count
  have hshort : (requests.findIdx? fun request => processor.maxRequestBytes < request.length) =
      none := by
    refine List.findIdx?_eq_none_iff.mpr fun request hmem => ?_
    have := fits.bytes request hmem
    simp only [hmax, decide_eq_false_iff_not]
    omega
  rw [batchOutcome, if_neg (by omega), hshort]

/-- The answers of the device. -/
theorem exists_gpu_answer (hcompile : compile source = .ok router)
    (hassets : buildShaderAssets router = .ok assets) :
    ∃ answer : List UInt8 → List UInt8,
      (∀ request, Answer router assets request (answer request)) ∧
      ∀ request bytes, Answer router assets request bytes → answer request = bytes := by
  obtain ⟨answer, hanswer⟩ := exists_answer router assets
  refine ⟨answer, fun request => ?_, hanswer⟩
  obtain ⟨_, _, _, _, -, -, hbuilt⟩ := exists_answer_built hcompile hassets request
  rwa [hanswer request _ hbuilt]

end Answers

section Runs

variable {source : Router} {router : CompiledRouter}

/-- **The backends answer alike.**  In every run of the server on the host, a response is
what `route_request` answers to its request, or says that the queue was full.  On the
device every request has one answer, whatever the interleaving, the buffers, the order
of the invocations and the way the bytes come back, while wgpu reports no failure; and
where host and shader sort a request alike and no segment of its response is the header
tail, it is that of `route_request`, too. -/
theorem backends_answered (hcompile : compile source = .ok router) :
    (∀ config machine, serve config (cpuProcessor router) () = .ok machine →
      ∀ events s, machine.Run events s → ∀ connection (i call : Nat) (response : List UInt8),
        (responses (sessionEvents connection events))[i]? = some (call, response) →
        ∃ request, (submits (sessionEvents connection events))[i]? = some (call, request) ∧
          (router.routeRequest request (ascii "cpu") = .ok response ∨
            response = serviceUnavailableResponse)) ∧
      ∀ assets, buildShaderAssets router = .ok assets →
        ∃ answer : List UInt8 → List UInt8,
          (∀ request, Answer router assets request (answer request)) ∧
          (∀ request : List UInt8, 4 ≤ request.length → SameCase request →
            (∀ segment ∈ (source.responseTo (parseRequest request)).body.segments,
              ¬ segment.WritesTail) →
            router.routeRequest request (ascii "gpu") = .ok (answer request)) ∧
          ∀ config processor buffers direct order reports memory,
            OnDevice config router assets processor buffers order reports memory → ∀ machine,
            serve config (gpuProcessor processor buffers direct order reports) memory =
              .ok machine →
            ∀ events s, machine.Run events s → ∀ connection (i call : Nat) (response : List UInt8),
              (responses (sessionEvents connection events))[i]? = some (call, response) →
              ∃ request, (submits (sessionEvents connection events))[i]? = some (call, request) ∧
                (response = answer request ∨ response = serviceUnavailableResponse) := by
  constructor
  · intro config machine hserve events s run connection i call response hi
    obtain ⟨request, hrequest, hresponse⟩ :=
      requests_answered hserve (cpu_answers hcompile) trivial run hi
    refine ⟨request, hrequest, hresponse.imp_left ?_⟩
    rintro rfl
    exact cpuAnswer_eq hcompile request
  · intro assets hassets
    obtain ⟨answer, hall, hanswer⟩ := exists_gpu_answer hcompile hassets
    refine ⟨answer, hall, ?_, ?_⟩
    · intro request hlen hsame hkeeps
      obtain ⟨bytes, h, hhost⟩ := answer_routeRequest hcompile hassets hlen hsame hkeeps
      rw [hanswer request bytes h]
      exact hhost
    · intro config processor buffers direct order reports memory device machine hserve events s run
        connection i call response hi
      exact requests_answered hserve (gpu_answers hcompile hassets device hanswer) device.ready run
        hi

/-- **No waiting connection is forgotten**, on either backend, in any run of the server. -/
theorem waiting_served (hcompile : compile source = .ok router) :
    (∀ config machine, serve config (cpuProcessor router) () = .ok machine →
      ∀ events s, machine.Run events s → NotForgotten config machine events s) ∧
      ∀ assets, buildShaderAssets router = .ok assets →
        ∀ config processor buffers direct order reports memory,
          OnDevice config router assets processor buffers order reports memory → ∀ machine,
          serve config (gpuProcessor processor buffers direct order reports) memory = .ok machine →
          ∀ events s, machine.Run events s → NotForgotten config machine events s := by
  constructor
  · intro config machine hserve events s run
    exact notForgotten_of_returns hserve (cpu_answers hcompile).returns trivial run
  · intro assets hassets config processor buffers direct order reports memory device machine hserve
      events s run
    obtain ⟨answer, -, hanswer⟩ := exists_gpu_answer hcompile hassets
    exact notForgotten_of_returns hserve (gpu_answers hcompile hassets device hanswer).returns
      device.ready run

end Runs

/-- A connection whose request is with the processor. -/
def waitingRequest (request : List UInt8) : List Event :=
  [.session 0 .admitted, .session 0 (.read request), .session 0 (.submit 0 request),
    .batcher (.accept { request := request, reply := 0 }), .batcher .take,
    .batcher (.countAccepted 0), .batcher .poll,
    .batcher (.dispatch [{ request := request, reply := 0 }])]

/-- What happens until its response is written. -/
def servedRequest (request response : List UInt8) : List Event :=
  [.batcher (.process [{ request := request, reply := 0 }] (.ok [response])),
    .batcher (.reply 0 (.response response)), .batcher (.receiveReply 0),
    .session 0 (.respond 0 response), .session 0 (.write response)]

section OneRequest

variable {σ : Type} {config : ServerConfig} {processor : Processor σ} {device device' : σ}

set_option maxRecDepth 2000 in
theorem waitingRequest_run :
    ∃ s session, (server ServerConfig.default processor device).Run
        (waitingRequest (getRequest (ascii "/") [])) s ∧
      s.sessions[0]? = some session ∧ session.stage = .submitting 0 false ∧
      s.device = device ∧ s.batcher.calls 0 = .waiting ∧
      s.batcher.worker = .processing [{ request := getRequest (ascii "/") [], reply := 0 }] :=
  ⟨_, _, rfl, rfl, rfl, rfl, rfl, rfl⟩

/-- Where the processor answers the batch, the connection writes its response. -/
theorem servedRequest_after {s : State σ} {session : Session} {closeAfterResponse : Bool}
    {request response : List UInt8} (hsession : s.sessions[0]? = some session)
    (hstage : session.stage = .submitting 0 closeAfterResponse) (hdevice : s.device = device)
    (hcall : s.batcher.calls 0 = .waiting)
    (hworker : s.batcher.worker = .processing [{ request := request, reply := 0 }])
    (hbytes : response ≠ [])
    (hbatch : processor.processBatch device [request] = (device', .ok [response])) :
    ∃ t, (server config processor device).after s (servedRequest request response) = some t := by
  obtain ⟨hlt, -⟩ := List.getElem?_eq_some_iff.mp hsession
  simp [List.getElem?_set_self hlt, servedRequest, EventMachine.after, server, step, workerStep, taskStep, batcherAfter,
    Batcher.step, Batcher.workerStep, Batcher.callerStep, Batcher.answersOf, outcomeOf,
    Session.step, Session.writeStep, Batcher.Call.result, responseOf, Http.submitResponse,
    Batcher.State.finish, Batcher.State.setCall, hsession, hstage, hdevice, hcall, hworker, hbatch,
    hbytes]

/-- On a processor that answers it, a request gets its response. -/
theorem servedRequest_run {response : List UInt8} (hbytes : response ≠ [])
    (hbatch : processor.processBatch device [getRequest (ascii "/") []] =
      (device', .ok [response])) :
    ∃ s, (server ServerConfig.default processor device).Run
      (waitingRequest (getRequest (ascii "/") []) ++
        servedRequest (getRequest (ascii "/") []) response) s := by
  obtain ⟨s, session, run, hsession, hstage, hdevice, hcall, hworker⟩ :=
    @waitingRequest_run _ processor device
  obtain ⟨t, hserved⟩ := @servedRequest_after _ ServerConfig.default processor device device' s
    session false _ response hsession hstage hdevice hcall hworker hbytes hbatch
  exact ⟨t, run.append hserved⟩

end OneRequest

/-- A device whose invocations run from the last to the first. -/
def reversedProcessor (processor : GpuProcessor) (buffers : ProcessorBuffers) :
    Processor ProcessorMemory :=
  gpuProcessor processor buffers false (fun _ count => (invocations count).reverse)
    fun _ _ => cleanReport

/-- The router without routes, on the device with the default slots. -/
theorem exists_onDevice :
    ∃ router assets processor buffers, compile Router.new = .ok router ∧
      buildShaderAssets router = .ok assets ∧
      OnDevice ServerConfig.default router assets processor buffers
        (fun _ count => (invocations count).reverse) (fun _ _ => cleanReport)
        (startedMemory router assets buffers) := by
  obtain ⟨router, hcompile, hrun⟩ := Outcome.bind_eq_ok.mp new_fits
  obtain ⟨assets, hassets, hrun⟩ := Outcome.bind_eq_ok.mp hrun
  obtain ⟨harena, hslot⟩ := Outcome.ensure_eq_ok.mp hrun
  obtain ⟨processor, buffers, started⟩ := exists_started ServerConfig.default_valid hslot
  exact ⟨router, assets, processor, buffers, hcompile, hassets, started,
    fun _ _ => List.reverse_perm _, cleanReport_succeeds, ready_startedMemory harena⟩

/-- The host serves the request for the root, whatever the router. -/
theorem exists_served_cpu {source : Router} {router : CompiledRouter}
    (hcompile : compile source = .ok router) :
    ∃ response s, (server ServerConfig.default (cpuProcessor router) ()).Run
      (waitingRequest (getRequest (ascii "/") []) ++
        servedRequest (getRequest (ascii "/") []) response) s := by
  have hbatch : (cpuProcessor router).processBatch () [getRequest (ascii "/") []] =
      ((), .ok [cpuAnswer router (getRequest (ascii "/") [])]) :=
    Prod.ext rfl (cpuBatch_eq hcompile _)
  exact ⟨_, servedRequest_run (cpuAnswer_ne_nil hcompile _) hbatch⟩

/-- The device does, too. -/
theorem exists_served_gpu {source : Router} {router : CompiledRouter} {assets : ShaderAssets}
    {processor : GpuProcessor} {buffers : ProcessorBuffers} {memory : ProcessorMemory}
    (hcompile : compile source = .ok router) (hassets : buildShaderAssets router = .ok assets)
    (device : OnDevice ServerConfig.default router assets processor buffers
      (fun _ count => (invocations count).reverse) (fun _ _ => cleanReport) memory) :
    ∃ response s, (server ServerConfig.default (reversedProcessor processor buffers) memory).Run
      (waitingRequest (getRequest (ascii "/") []) ++
        servedRequest (getRequest (ascii "/") []) response) s := by
  obtain ⟨answer, hall, hanswer⟩ := exists_gpu_answer hcompile hassets
  have answers : (reversedProcessor processor buffers).Answers ServerConfig.default _ answer :=
    gpu_answers hcompile hassets device hanswer
  obtain ⟨_, _, _, _, -, -, hbuilt⟩ :=
    exists_answer_built hcompile hassets (getRequest (ascii "/") [])
  have hbytes : answer (getRequest (ascii "/") []) ≠ [] := by
    rw [hanswer _ _ hbuilt]
    exact buildResponse_ne_nil
  have fits : Fits ServerConfig.default [getRequest (ascii "/") []] :=
    ⟨by decide, by decide, by decide⟩
  exact ⟨_, servedRequest_run hbytes (Prod.ext rfl (answers _ _ device.ready fits).2)⟩

/-- Both backends serve the request for the root. -/
theorem backends_answered_root :
    ∃ router host shader, compile Router.new = .ok router ∧
      (∃ s, (server ServerConfig.default (cpuProcessor router) ()).Run
          (waitingRequest (getRequest (ascii "/") []) ++
            servedRequest (getRequest (ascii "/") []) host) s) ∧
      (router.routeRequest (getRequest (ascii "/") []) (ascii "cpu") = .ok host ∨
        host = serviceUnavailableResponse) ∧
      (∃ processor buffers assets t,
        (server ServerConfig.default (reversedProcessor processor buffers)
            (startedMemory router assets buffers)).Run
          (waitingRequest (getRequest (ascii "/") []) ++
            servedRequest (getRequest (ascii "/") []) shader) t) ∧
      (router.routeRequest (getRequest (ascii "/") []) (ascii "gpu") = .ok shader ∨
        shader = serviceUnavailableResponse) := by
  obtain ⟨router, assets, processor, buffers, hcompile, hassets, device⟩ := exists_onDevice
  obtain ⟨hcpu, hgpu⟩ := backends_answered hcompile
  obtain ⟨answer, -, hhost, hruns⟩ := hgpu assets hassets
  obtain ⟨host, s, run⟩ := exists_served_cpu hcompile
  obtain ⟨shader, t, run'⟩ := exists_served_gpu hcompile hassets device
  obtain ⟨request, hrequest, hresponse⟩ := hcpu ServerConfig.default _ rfl _ s run 0 0 0 _ rfl
  cases hrequest
  obtain ⟨request, hrequest, hresponse'⟩ :=
    hruns _ processor buffers false _ _ _ device _ rfl _ t run' 0 0 0 _ rfl
  cases hrequest
  refine ⟨router, host, shader, hcompile, ⟨s, run⟩, hresponse,
    ⟨processor, buffers, assets, t, run'⟩, hresponse'.imp_left ?_⟩
  rintro rfl
  exact hhost _ (by decide) sameCase_root (by decide)

/-- On the device a connection waits for its batch. -/
theorem waiting_served_root :
    ∃ router assets processor buffers s, compile Router.new = .ok router ∧
      (server ServerConfig.default (reversedProcessor processor buffers)
          (startedMemory router assets buffers)).Run
        (waitingRequest (getRequest (ascii "/") [])) s ∧
      ∃ e : Event, (e.carries 0 0 = true ∨ e.isWorker = true) ∧
        (step ServerConfig.default (reversedProcessor processor buffers) s e).isSome = true := by
  obtain ⟨router, assets, processor, buffers, hcompile, hassets, device⟩ := exists_onDevice
  obtain ⟨s, session, run, hsession, hstage, -⟩ := @waitingRequest_run _
    (reversedProcessor processor buffers) (startedMemory router assets buffers)
  obtain ⟨-, hgpu⟩ := waiting_served hcompile
  have hkept := hgpu assets hassets _ processor buffers false _ _ _ device _ rfl _ s run
  exact ⟨router, assets, processor, buffers, s, hcompile, run,
    (hkept 0 0 session false hsession hstage).1⟩

/-- A response that its own header frames, within what a client accepts. -/
def Framed (maxResponseBytes : Nat) (response : List UInt8) : Prop :=
  response.length ≤ maxResponseBytes ∧
    ∃ header body, response = header ++ body ∧ WellFramed header body

section Clients

variable {maxResponseBytes : Nat}

theorem framed_buildResponse (hbound : maxResponseBytes < 2 ^ 64) {status : UInt16}
    {reason contentType body backend : List UInt8} (hreason : HeaderValue reason)
    (hcontent : HeaderValue contentType) (hbackend : HeaderValue backend)
    (hlength : (buildResponse status reason contentType body backend).length ≤ maxResponseBytes) :
    Framed maxResponseBytes (buildResponse status reason contentType body backend) := by
  refine ⟨hlength, _, body, rfl, wellFramed_responseHeaders hreason hcontent hbackend status ?_⟩
  rw [buildResponse, List.length_append] at hlength
  omega

theorem framed_network (hbound : maxResponseBytes < 2 ^ 64) (hroom : 256 ≤ maxResponseBytes)
    {response : List UInt8} (h : response ∈ networkResponses) :
    Framed maxResponseBytes response := by
  have hvalues : HeaderValue textContentType ∧ HeaderValue (ascii "network") :=
    ⟨⟨by decide, by decide⟩, ⟨by decide, by decide⟩⟩
  have hlength : ∀ response ∈ networkResponses, response.length ≤ 256 := by decide +kernel
  have hresponse := (hlength response h).trans hroom
  simp only [networkResponses, List.mem_cons, List.not_mem_nil, or_false] at h
  rcases h with rfl | rfl | rfl | rfl | rfl <;>
    exact framed_buildResponse hbound ⟨by decide, by decide⟩ hvalues.1 hvalues.2 hresponse

/-- A client that has a part of some responses cuts it into the first of them, all that
have arrived in full, and keeps what has arrived of the next. -/
theorem cutResponses_part (hbound : maxResponseBytes < 2 ^ 64) {written : List (List UInt8)}
    (hframed : ∀ response ∈ written, Framed maxResponseBytes response) {part : List UInt8}
    (h : part <+: written.flatten) :
    ∃ seen rest, cutResponses maxResponseBytes part = .ok (seen, rest) ∧ seen <+: written ∧
      seen.flatten ++ rest = part ∧ responseFrameLen rest maxResponseBytes = .ok none ∧
      ∀ k, k ≤ written.length → (written.take k).flatten <+: part → k ≤ seen.length := by
  have waiting {buffer : List UInt8}
      (hnone : responseFrameLen buffer maxResponseBytes = .ok none) :
      cutResponses maxResponseBytes buffer = .ok ([], buffer) := by
    rw [cutResponses, hnone]
  induction written generalizing part with
  | nil =>
      have hnil : part = [] := List.prefix_nil.mp h
      subst hnil
      exact ⟨[], [], waiting rfl, List.nil_prefix, rfl, rfl, fun k hk _ => hk⟩
  | cons response written ih =>
      obtain ⟨hlength, header, body, rfl, hwell⟩ := hframed response List.mem_cons_self
      rw [List.flatten_cons] at h
      by_cases hwhole : header ++ body <+: part
      · obtain ⟨more, rfl⟩ := hwhole
        obtain ⟨seen, rest, hcut, hseen, hflat, hrest, hall⟩ :=
          ih (fun other hmem => hframed other (List.mem_cons_of_mem _ hmem))
            ((List.prefix_append_right_inj _).mp h)
        refine ⟨(header ++ body) :: seen, rest, ?_, List.cons_prefix_cons.mpr ⟨rfl, hseen⟩, ?_,
          hrest, ?_⟩
        · have hpos : 0 < (header ++ body).length := by
            have hle := frameLen_le hwell.framed
            have hfour : headerTerminator.length = 4 := rfl
            rw [List.length_append]
            omega
          rw [cutResponses, hwell.frameLen_eq hbound hlength more]
          simp only
          rw [if_pos ⟨hpos, by rw [List.length_append]; omega⟩, List.drop_left, List.take_left,
            hcut]
        · rw [List.flatten_cons, List.append_assoc, hflat]
        · intro k hk hprefix
          cases k with
          | zero => exact Nat.zero_le _
          | succ k =>
              rw [List.take_succ_cons, List.flatten_cons] at hprefix
              exact Nat.succ_le_succ (hall k (Nat.le_of_succ_le_succ hk)
                ((List.prefix_append_right_inj _).mp hprefix))
      · have hpart : part <+: header ++ body :=
          (List.prefix_or_prefix_of_prefix h (List.prefix_append _ _)).resolve_right hwhole
        have hnone := hwell.frameLen_extended hbound hlength hpart (by
          rintro rfl
          exact hwhole List.prefix_rfl)
        refine ⟨[], part, waiting hnone, List.nil_prefix, rfl, hnone, ?_⟩
        intro k _ hprefix
        cases k with
        | zero => exact Nat.le_refl 0
        | succ k =>
            rw [List.take_succ_cons, List.flatten_cons] at hprefix
            exact absurd ((List.prefix_append _ _).trans hprefix) hwhole

/-- What a client reads: the responses to its requests, in order, each the answer to its
request or a refusal for a full queue, and behind them at most the last word of the
network.  It reads every response that has been written in full, and what it keeps is
the beginning of one. -/
def Reads (maxResponseBytes : Nat) (answer : List UInt8 → List UInt8)
    (past : List SessionEvent) : Prop :=
  ∃ seen rest, cutResponses maxResponseBytes (sentBytes past) = .ok (seen, rest) ∧
    seen.flatten ++ rest = sentBytes past ∧
    responseFrameLen rest maxResponseBytes = .ok none ∧
    (∀ k, k ≤ (responses past).length →
      (((responses past).map Prod.snd).take k).flatten <+: sentBytes past → k ≤ seen.length) ∧
    ∀ i response, seen[i]? = some response →
      (∃ call request, (responses past)[i]? = some (call, response) ∧
        (submits past)[i]? = some (call, request) ∧
        (response = answer request ∨ response = serviceUnavailableResponse)) ∨
      i = (submits past).length ∧ response ∈ networkResponses

/-- What is written on a connection is part of its responses and of one last word. -/
theorem exists_last {maxRequestBytes : Nat} {past : List SessionEvent} {state : Option Session}
    (h : Conversation maxRequestBytes past state) :
    ∃ last : List (List UInt8), (∀ response ∈ last, response ∈ networkResponses) ∧
      sentBytes past <+: ((responses past).map Prod.snd ++ last).flatten ∧ last.length ≤ 1 ∧
      (last ≠ [] → (responses past).length = (submits past).length) := by
  cases h with
  | unopened =>
      exact ⟨[], fun _ hmem => absurd hmem List.not_mem_nil, List.nil_prefix, Nat.zero_le _,
        fun hnot => absurd rfl hnot⟩
  | admitted past session sound =>
      obtain ⟨closing, hclosing, hsent, hfull⟩ := sound.stage.told.sent
      by_cases hnil : closing = []
      · refine ⟨[], fun _ hmem => absurd hmem List.not_mem_nil, ?_, Nat.zero_le _,
          fun hnot => absurd rfl hnot⟩
        rw [List.append_nil]
        rwa [hnil, List.append_nil] at hsent
      · refine ⟨[closing], ?_, ?_, Nat.le_refl 1, fun _ => hfull hnil⟩
        · intro response hmem
          rw [List.mem_singleton.mp hmem]
          rcases hclosing with rfl | rfl | rfl | rfl
          · exact absurd rfl hnil
          all_goals simp [networkResponses]
        · rwa [List.flatten_append, List.flatten_singleton]
  | refused past session away =>
      obtain ⟨-, ⟨-, hsubmits, hresponses⟩, stage⟩ := away
      refine ⟨[serviceUnavailableResponse], ?_, ?_, Nat.le_refl 1, fun _ => ?_⟩
      · intro response hmem
        rw [List.mem_singleton.mp hmem]
        simp [networkResponses]
      · rw [hresponses]
        rcases stage with ⟨-, hsent⟩ | ⟨left, -, hsent⟩
        · simpa using hsent
        · rw [← hsent]
          simp
      · rw [hresponses, hsubmits]

variable {σ : Type} {config : ServerConfig} {processor : Processor σ} {device : σ}
  {events : List Event} {s : State σ} {machine : EventMachine (State σ) Event}

/-- A client of a server whose answers are framed reads them. -/
theorem reads_of_answers (hserve : serve config processor device = .ok machine) {ready : σ → Prop}
    {answer : List UInt8 → List UInt8} (answers : processor.Answers config ready answer)
    (hready : ready device) (hbound : maxResponseBytes < 2 ^ 64) (hroom : 256 ≤ maxResponseBytes)
    (hframed : ∀ request, request.length ≤ config.maxRequestBytes →
      Framed maxResponseBytes (answer request))
    (run : machine.Run events s) (connection : Nat) :
    Reads maxResponseBytes answer (sessionEvents connection events) := by
  have hanswered {i call : Nat} {response : List UInt8}
      (hi : (responses (sessionEvents connection events))[i]? = some (call, response)) :=
    requests_answered hserve answers hready run hi
  obtain ⟨hsize, rfl⟩ := batchSize_pos hserve
  have hconversation := conversation connection run
  have hbounded : ∀ request ∈ submits (sessionEvents connection events),
      request.2.length ≤ config.maxRequestBytes := by
    rcases hconversation.sound_or_silent with ⟨session, -, sound⟩ | ⟨hsilent, -⟩
    · exact fun request hmem => (sound.framed request hmem).2
    · rw [hsilent]
      exact fun _ hmem => absurd hmem List.not_mem_nil
  obtain ⟨last, hlast, hsent, hone, hfull⟩ := exists_last hconversation
  generalize sessionEvents connection events = past at *
  have hunavailable : serviceUnavailableResponse ∈ networkResponses := by simp [networkResponses]
  obtain ⟨seen, rest, hcut, hseen, hflat, hrest, hall⟩ := @cutResponses_part maxResponseBytes hbound
    ((responses past).map Prod.snd ++ last) (by
      intro response hmem
      rcases List.mem_append.mp hmem with hmem | hmem
      · obtain ⟨⟨call, response⟩, hresponse, rfl⟩ := List.mem_map.mp hmem
        obtain ⟨i, hi⟩ := List.mem_iff_getElem?.mp hresponse
        obtain ⟨request, hrequest, rfl | rfl⟩ := hanswered hi
        · exact hframed request (hbounded _ (List.mem_of_getElem? hrequest))
        · exact framed_network hbound hroom hunavailable
      · exact framed_network hbound hroom (hlast response hmem)) _ hsent
  refine ⟨seen, rest, hcut, hflat, hrest, fun k hk hprefix => ?_, fun i response hi => ?_⟩
  · refine hall k ?_ ?_
    · rw [List.length_append, List.length_map]
      omega
    · rwa [List.take_append_of_le_length (by rwa [List.length_map])]
  have hget : ((responses past).map Prod.snd ++ last)[i]? = some response := by
    obtain ⟨hlt, rfl⟩ := List.getElem?_eq_some_iff.mp hi
    exact List.prefix_iff_getElem?.mp hseen i hlt
  rcases Nat.lt_or_ge i (responses past).length with hlt | hge
  · left
    rw [List.getElem?_append_left (by rwa [List.length_map]), List.getElem?_map] at hget
    obtain ⟨⟨call, _⟩, hresponse, rfl⟩ := Option.map_eq_some_iff.mp hget
    obtain ⟨request, hrequest, hor⟩ := hanswered hresponse
    exact ⟨call, request, hresponse, hrequest, hor⟩
  · right
    rw [List.getElem?_append_right (by rwa [List.length_map]), List.length_map] at hget
    have hmem := List.mem_of_getElem? hget
    have hlt := (List.getElem?_eq_some_iff.mp hget).1
    have hcount := hfull (List.ne_nil_of_mem hmem)
    exact ⟨by omega, hlast response hmem⟩

variable {source : Router} {router : CompiledRouter} {assets : ShaderAssets}

theorem framed_cpuAnswer (hcompile : compile source = .ok router)
    (hbound : maxResponseBytes < 2 ^ 64) {request : List UInt8}
    (hlength : (cpuAnswer router request).length ≤ maxResponseBytes) :
    Framed maxResponseBytes (cpuAnswer router request) :=
  ⟨hlength, Served.wellFramed (isCompiled_compile hcompile)
    (Or.inl ⟨request, ascii "cpu", Or.inl rfl, cpuAnswer_eq hcompile request⟩) (by omega)⟩

theorem framed_answer (hcompile : compile source = .ok router)
    (hassets : buildShaderAssets router = .ok assets) (hbound : maxResponseBytes < 2 ^ 64)
    {answer : List UInt8 → List UInt8}
    (hanswer : ∀ request bytes, Answer router assets request bytes → answer request = bytes)
    {request : List UInt8} (hlength : (answer request).length ≤ maxResponseBytes) :
    Framed maxResponseBytes (answer request) := by
  obtain ⟨status, reason, contentType, body, hreason, hcontent, hbuilt⟩ :=
    exists_answer_built hcompile hassets request
  rw [hanswer request _ hbuilt] at hlength ⊢
  exact framed_buildResponse hbound hreason hcontent ⟨by decide, by decide⟩ hlength

end Clients

section Reading

variable {source : Router} {router : CompiledRouter}

/-- **Clients read their responses.**  At every moment of every run, on either backend, a
client that accepts the responses of the router (on the device, those that fit the
configured slot) and cuts the bytes it was sent reads every response that was written
in full: those to its own requests in order, each the answer to that request or a
refusal for a full queue, and behind them at most the last word of the network. -/
theorem clients_read (hcompile : compile source = .ok router) {maxResponseBytes : Nat}
    (hbound : maxResponseBytes < 2 ^ 64) (hroom : 256 ≤ maxResponseBytes) :
    (∀ config,
      (∀ request response, router.routeRequest request (ascii "cpu") = .ok response →
        request.length ≤ config.maxRequestBytes → response.length ≤ maxResponseBytes) →
      ∀ machine, serve config (cpuProcessor router) () = .ok machine →
        ∀ events s, machine.Run events s → ∀ connection,
          Reads maxResponseBytes (cpuAnswer router) (sessionEvents connection events)) ∧
      ∀ assets, buildShaderAssets router = .ok assets →
        ∃ answer : List UInt8 → List UInt8,
          (∀ request, Answer router assets request (answer request)) ∧
          ∀ config : ServerConfig, (config.responseSlotBytes + 3) / 4 * 4 ≤ maxResponseBytes →
            ∀ processor buffers direct order reports memory,
              OnDevice config router assets processor buffers order reports memory → ∀ machine,
              serve config (gpuProcessor processor buffers direct order reports) memory =
                .ok machine →
              ∀ events s, machine.Run events s → ∀ connection,
                Reads maxResponseBytes answer (sessionEvents connection events) := by
  constructor
  · intro config hlength machine hserve events s run connection
    exact reads_of_answers hserve (cpu_answers hcompile) trivial hbound hroom
      (fun request hrequest => framed_cpuAnswer hcompile hbound
        (hlength request _ (cpuAnswer_eq hcompile request) hrequest)) run connection
  · intro assets hassets
    obtain ⟨answer, hall, hanswer⟩ := exists_gpu_answer hcompile hassets
    refine ⟨answer, hall, ?_⟩
    intro config hslot processor buffers direct order reports memory device machine hserve events s
      run connection
    refine reads_of_answers hserve (gpu_answers hcompile hassets device hanswer) device.ready
      hbound hroom (fun request hrequest => framed_answer hcompile hassets hbound hanswer ?_) run
      connection
    exact (answer_length_le hcompile hassets device.started device.complete device.ready hrequest
      (hall request)).trans hslot

end Reading

/-- A client of the device reads the answer to its request. -/
theorem clients_read_default :
    ∃ router assets processor buffers response s, compile Router.new = .ok router ∧
      (server ServerConfig.default (reversedProcessor processor buffers)
          (startedMemory router assets buffers)).Run
        (waitingRequest (getRequest (ascii "/") []) ++
          servedRequest (getRequest (ascii "/") []) response) s ∧
      (Answer router assets (getRequest (ascii "/") []) response ∨
        response = serviceUnavailableResponse) ∧
      ∃ later rest, cutResponses 512 response = .ok (response :: later, rest) := by
  obtain ⟨router, assets, processor, buffers, hcompile, hassets, device⟩ := exists_onDevice
  obtain ⟨response, s, run⟩ := exists_served_gpu hcompile hassets device
  obtain ⟨-, hgpu⟩ := @clients_read _ router hcompile 512 (by decide) (by decide)
  obtain ⟨answer, hall, hreads⟩ := hgpu assets hassets
  obtain ⟨seen, rest, hcut, -, -, hevery, hseen⟩ :=
    hreads ServerConfig.default (by decide) processor buffers false _ _ _ device _ rfl _ s run 0
  have hsent : sentBytes (sessionEvents 0 (waitingRequest (getRequest (ascii "/") []) ++
      servedRequest (getRequest (ascii "/") []) response)) = response := List.append_nil response
  rw [hsent] at hcut hevery
  have hone : 1 ≤ seen.length := hevery 1 (Nat.le_refl 1) (by
    rw [show List.take 1 _ = [response] from rfl, List.flatten_singleton])
  obtain ⟨first, later, rfl⟩ := List.exists_cons_of_length_pos hone
  rcases hseen 0 first rfl with ⟨call, request, hresponse, hrequest, hanswer⟩ | ⟨hend, -⟩
  · cases hresponse
    cases hrequest
    refine ⟨router, assets, processor, buffers, _, s, hcompile, run, hanswer.imp_left ?_, later,
      rest, hcut⟩
    rintro rfl
    exact hall _
  · cases hend

end Server
end Gput
