import ExtProc.Stream

/-! What each handler can do: one constructor for each way through the code. -/
namespace ExtProc

open Exec
open Utf8 (Bytes)

variable {K : Crates} {p : FilterPipeline K} {s s' : StreamState K} {side : Side}
  {ctx : HttpFilterContext K} {L : List (Event K)}

def noRequestHeaders : Status := Status.internal "no request headers"

def noResponseHeaders : Status := Status.internal "no response headers"

def bodyTooLarge : Status := Status.resourceExhausted "body exceeds maximum size"

/-- The run of the body hook on the accumulated body. -/
def bodyHook (p : FilterPipeline K) (side : Side) (ctx : HttpFilterContext K)
    (s : StreamState K) : BodyHookRun K :=
  p.executeBody side ctx (some (s.body side)) true

def bodyHookCall (side : Side) (ctx : HttpFilterContext K) (s : StreamState K) : HookCall K :=
  .executeBody side ctx (some (s.body side)) true

@[simp] theorem result_bodyHookCall :
    p.result (bodyHookCall side ctx s) = (bodyHook p side ctx s).result := by
  cases side <;> rfl

@[simp] theorem left_bodyHookCall :
    p.left (bodyHookCall side ctx s) = (bodyHook p side ctx s).ctx := by
  cases side <;> rfl

/-- The state after a body hook that did not fail. -/
def afterBodyHook (p : FilterPipeline K) (side : Side) (ctx : HttpFilterContext K)
    (s : StreamState K) : StreamState K :=
  s.setBody side ((bodyHook p side ctx s).body.getD [])

inductive BodyRun (p : FilterPipeline K) (side : Side) (ctx : HttpFilterContext K)
    (s : StreamState K) :
    Except Status (HttpFilterContext K × Option ImmediateResponse) → List (Event K) →
      StreamState K → Prop
  | skipped (hb : s.body side = []) : BodyRun p side ctx s (.ok (ctx, none)) [] s
  | failed {e : FilterError} (hb : s.body side ≠ [])
      (he : (bodyHook p side ctx s).result = .error e) :
      BodyRun p side ctx s (.error (Status.internal e)) [.hook (bodyHookCall side ctx s)]
        (s.setBody side [])
  | rejected {r : Rejection} (hb : s.body side ≠ [])
      (hr : (bodyHook p side ctx s).result = .ok (.reject r)) :
      BodyRun p side ctx s (.ok ((bodyHook p side ctx s).ctx, some (rejectionToImmediate r)))
        [.hook (bodyHookCall side ctx s)] (afterBodyHook p side ctx s)
  | continued (hb : s.body side ≠ []) (hc : (bodyHook p side ctx s).result = .ok .«continue») :
      BodyRun p side ctx s (.ok ((bodyHook p side ctx s).ctx, none))
        [.hook (bodyHookCall side ctx s)] (afterBodyHook p side ctx s)

/-- The body hook is invoked once, unless there is no body. -/
theorem BodyRun.calls {res : Except Status (HttpFilterContext K × Option ImmediateResponse)}
    {events : List (Event K)} (h : BodyRun p side ctx s res events s') :
    callsOf events = if s.body side = [] then [] else [bodyHookCall side ctx s] := by
  cases h with
  | skipped hb => simp [hb]
  | failed hb he | rejected hb he | continued hb he => simp [hb]

/-- The body filters touch the buffer of their side and nothing else. -/
theorem BodyRun.exists_setBody
    {res : Except Status (HttpFilterContext K × Option ImmediateResponse)}
    {events : List (Event K)} (h : BodyRun p side ctx s res events s') :
    ∃ b, s' = s.setBody side b := by
  cases h with
  | skipped hb => exact ⟨s.body side, setBody_self.symm⟩
  | failed hb he => exact ⟨[], rfl⟩
  | rejected hb hr | continued hb hr => exact ⟨_, rfl⟩

@[simp] theorem exec_handlerGet {w : World K} : exec Handler.get w = (.ok w.state, w) := rfl

@[simp] theorem exec_handlerModify {w : World K} (f : StreamState K → StreamState K) :
    exec (Handler.modify f) w = (.ok (), { w with state := f w.state }) := rfl

@[simp] theorem exec_handlerEmit {w : World K} (e : Event K) :
    exec (Handler.emit e) w = (.ok (), { w with log := w.log ++ [e] }) := rfl

theorem bodyFilters_run (p : FilterPipeline K) (side : Side) (ctx : HttpFilterContext K)
    (s : StreamState K) (L : List (Event K)) : ∃ r events s',
    exec (bodyFilters side p ctx) ⟨s, L⟩ = (r, ⟨s', L ++ events⟩) ∧
      BodyRun p side ctx s r events s' := by
  by_cases hb : s.body side = []
  · refine ⟨_, [], _, ?_, .skipped hb⟩
    simp [bodyFilters, exec_bind, hb]
  · cases hran : (bodyHook p side ctx s).result with
    | error e =>
      refine ⟨_, _, _, ?_, .failed hb hran⟩
      rw [bodyHook] at hran
      simp [bodyFilters, exec_bind, hb, hran, bodyHookCall]
    | ok action =>
      cases hbody : (bodyHook p side ctx s).body <;> cases action with
      | reject r =>
        refine ⟨_, _, _, ?_, .rejected hb hran⟩
        rw [bodyHook] at hran hbody
        simp [bodyFilters, exec_bind, hb, hran, hbody, bodyHookCall, afterBodyHook, bodyHook]
      | «continue» =>
        refine ⟨_, _, _, ?_, .continued hb hran⟩
        rw [bodyHook] at hran hbody
        simp [bodyFilters, exec_bind, hb, hran, hbody, bodyHookCall, afterBodyHook, bodyHook]

/-- The replies to the end of a request; their kind depends on the buffer the filters left. -/
def requestReplies (ctx : HttpFilterContext K) (buf : Bytes) : List ProcessingResponse :=
  if buf.isEmpty then [Reply.requestHeaders (collectRequestHeaderMutations ctx)]
  else Reply.requestBody (some buf) (collectRequestHeaderMutations ctx)

inductive RequestRun (p : FilterPipeline K) (s : StreamState K) :
    Outcome K → StreamState K → Prop
  | noRequest (hq : s.request = none) : RequestRun p s ⟨.error noRequestHeaders, []⟩ s
  | failed {request : Request K} {e : FilterError} (hq : s.request = some request)
      (he : (p.executeHttpRequest (buildFilterContext request)).result = .error e) :
      RequestRun p s
        ⟨.error (Status.internal e), [.hook (.executeHttpRequest (buildFilterContext request))]⟩ s
  | rejected {request : Request K} {r : Rejection} (hq : s.request = some request)
      (hr : (p.executeHttpRequest (buildFilterContext request)).result = .ok (.reject r)) :
      RequestRun p s
        ⟨.ok [Reply.immediate (rejectionToImmediate r)],
          [.hook (.executeHttpRequest (buildFilterContext request)), .recordImmediateResponse]⟩ s
  | bodyFailed {request : Request K} {st : Status} {events : List (Event K)} {s' : StreamState K}
      (hq : s.request = some request)
      (hc : (p.executeHttpRequest (buildFilterContext request)).result = .ok .«continue»)
      (hb : BodyRun p .request (p.executeHttpRequest (buildFilterContext request)).ctx s
        (.error st) events s') :
      RequestRun p s
        ⟨.error st, .hook (.executeHttpRequest (buildFilterContext request)) :: events⟩ s'
  | bodyRejected {request : Request K} {ctx : HttpFilterContext K} {imm : ImmediateResponse}
      {events : List (Event K)} {s' : StreamState K} (hq : s.request = some request)
      (hc : (p.executeHttpRequest (buildFilterContext request)).result = .ok .«continue»)
      (hb : BodyRun p .request (p.executeHttpRequest (buildFilterContext request)).ctx s
        (.ok (ctx, some imm)) events s') :
      RequestRun p s
        ⟨.ok [Reply.immediate imm],
          .hook (.executeHttpRequest (buildFilterContext request)) :: events⟩ s'
  | done {request : Request K} {ctx : HttpFilterContext K} {events : List (Event K)}
      {s' : StreamState K} (hq : s.request = some request)
      (hc : (p.executeHttpRequest (buildFilterContext request)).result = .ok .«continue»)
      (hb : BodyRun p .request (p.executeHttpRequest (buildFilterContext request)).ctx s
        (.ok (ctx, none)) events s') :
      RequestRun p s
        ⟨.ok (requestReplies ctx s'.requestBody),
          .hook (.executeHttpRequest (buildFilterContext request)) :: events⟩
        (s'.keepFilterState ctx)

theorem runRequestPipeline_run (p : FilterPipeline K) (s : StreamState K) :
    ∃ o s', runHandler (runRequestPipeline p) s = (o, s') ∧ RequestRun p s o s' := by
  cases hq : s.request with
  | none =>
    refine ⟨_, _, ?_, .noRequest hq⟩
    simp [runHandler, runRequestPipeline, exec_bind, hq, noRequestHeaders]
  | some request =>
    cases hran : (p.executeHttpRequest (buildFilterContext request)).result with
    | error e =>
      refine ⟨_, _, ?_, .failed hq hran⟩
      simp [runHandler, runRequestPipeline, runRequestFilters, executeRequest, exec_bind, hq, hran]
    | ok action =>
      cases action with
      | reject r =>
        refine ⟨_, _, ?_, .rejected hq hran⟩
        simp [runHandler, runRequestPipeline, runRequestFilters, executeRequest, checkReject,
          exec_bind, hq, hran]
      | «continue» =>
        obtain ⟨r, events, s', hexec, hbody⟩ := bodyFilters_run p .request
          (p.executeHttpRequest (buildFilterContext request)).ctx s
          [.hook (.executeHttpRequest (buildFilterContext request))]
        cases r with
        | error st =>
          refine ⟨_, _, ?_, .bodyFailed hq hran hbody⟩
          simp [runHandler, runRequestPipeline, runRequestFilters, executeRequest, checkReject,
            runBodyFilters, exec_bind, hq, hran, hexec]
        | ok ran =>
          obtain ⟨ctx, reject⟩ := ran
          cases reject with
          | some imm =>
            refine ⟨_, _, ?_, .bodyRejected hq hran hbody⟩
            simp [runHandler, runRequestPipeline, runRequestFilters, executeRequest, checkReject,
              runBodyFilters, exec_bind, hq, hran, hexec]
          | none =>
            refine ⟨_, _, ?_, .done hq hran hbody⟩
            by_cases hbuf : s'.requestBody = [] <;>
              simp [runHandler, runRequestPipeline, runRequestFilters, executeRequest, checkReject,
                runBodyFilters, exec_bind, hq, hran, hexec, requestReplies,
                bodyDataIfPresent, hbuf]

/-- The context a response-phase handler starts with. -/
def responseCtx (s : StreamState K) (request : Request K) (resp : Response K) :
    HttpFilterContext K :=
  (s.restoreRequestCtx (buildFilterContext request)).lend resp

/-- The replies to the end of a response; their kind depends on the buffer the filters left. -/
def responseReplies (mutation : Option HeaderMutation) (buf : Bytes) : List ProcessingResponse :=
  if buf.isEmpty then [Reply.responseHeaders mutation]
  else Reply.responseBody (some buf) mutation

/-- The header hook ahead of the body hook, unless it ran at header time. -/
inductive HeaderHook (p : FilterPipeline K) (s : StreamState K) (ctx : HttpFilterContext K) :
    HttpFilterContext K → List (Event K) → Prop
  | ran (hx : s.responseFiltersExecuted = false)
      (hc : (p.executeHttpResponse ctx).result = .ok .«continue») :
      HeaderHook p s ctx (p.executeHttpResponse ctx).ctx [.hook (.executeHttpResponse ctx)]
  | skipped (hx : s.responseFiltersExecuted = true) : HeaderHook p s ctx ctx []

inductive ResponseRun (p : FilterPipeline K) (s : StreamState K) :
    Outcome K → StreamState K → Prop
  | noRequest (hq : s.request = none) : ResponseRun p s ⟨.error noRequestHeaders, []⟩ s
  | noResponse {request : Request K} (hq : s.request = some request) (hp : s.response = none) :
      ResponseRun p s ⟨.error noResponseHeaders, []⟩ s
  | failed {request : Request K} {resp : Response K} {e : FilterError}
      (hq : s.request = some request) (hp : s.response = some resp)
      (hx : s.responseFiltersExecuted = false)
      (he : (p.executeHttpResponse (responseCtx s request resp)).result = .error e) :
      ResponseRun p s
        ⟨.error (Status.internal e), [.hook (.executeHttpResponse (responseCtx s request resp))]⟩
        s.takeResponse
  | rejected {request : Request K} {resp : Response K} {r : Rejection}
      (hq : s.request = some request) (hp : s.response = some resp)
      (hx : s.responseFiltersExecuted = false)
      (hr : (p.executeHttpResponse (responseCtx s request resp)).result = .ok (.reject r)) :
      ResponseRun p s
        ⟨.ok [Reply.immediate (rejectionToImmediate r)],
          [.hook (.executeHttpResponse (responseCtx s request resp)), .recordImmediateResponse]⟩
        s.takeResponse
  | bodyFailed {request : Request K} {resp : Response K} {ctx : HttpFilterContext K} {st : Status}
      {first events : List (Event K)} {s' : StreamState K}
      (hq : s.request = some request) (hp : s.response = some resp)
      (hf : HeaderHook p s (responseCtx s request resp) ctx first)
      (hb : BodyRun p .response ctx s.takeResponse (.error st) events s') :
      ResponseRun p s ⟨.error st, first ++ events⟩ s'
  | bodyRejected {request : Request K} {resp : Response K} {ctx ctx' : HttpFilterContext K}
      {imm : ImmediateResponse} {first events : List (Event K)} {s' : StreamState K}
      (hq : s.request = some request) (hp : s.response = some resp)
      (hf : HeaderHook p s (responseCtx s request resp) ctx first)
      (hb : BodyRun p .response ctx s.takeResponse (.ok (ctx', some imm)) events s') :
      ResponseRun p s ⟨.ok [Reply.immediate imm], first ++ events⟩ s'
  | done {request : Request K} {resp : Response K} {ctx ctx' : HttpFilterContext K}
      {first events : List (Event K)} {s' : StreamState K}
      (hq : s.request = some request) (hp : s.response = some resp)
      (hf : HeaderHook p s (responseCtx s request resp) ctx first)
      (hb : BodyRun p .response ctx s.takeResponse (.ok (ctx', none)) events s') :
      ResponseRun p s
        ⟨.ok (responseReplies
            (collectResponseHeaderMutationsDiff ctx' (captureOriginalHeaders resp)) s'.responseBody),
          first ++ events⟩ s'

/-- The part of the response pipeline behind the header hook. -/
theorem runResponsePipeline_of_headerHook {request : Request K} {resp : Response K}
    {ctx : HttpFilterContext K} {first : List (Event K)}
    (hq : s.request = some request) (hp : s.response = some resp)
    (hf : HeaderHook p s (responseCtx s request resp) ctx first) :
    ∃ o s', runHandler (runResponsePipeline p) s = (o, s') ∧ ResponseRun p s o s' := by
  obtain ⟨r, events, s', hexec, hbody⟩ := bodyFilters_run p .response ctx s.takeResponse first
  cases r with
  | error st =>
    refine ⟨_, _, ?_, .bodyFailed hq hp hf hbody⟩
    cases hf with
    | ran hx hc | skipped hx =>
      simp only [responseCtx] at *
      simp [runHandler, runResponsePipeline, runResponseFilters, executeResponse, checkReject,
        runRespBodyFilters, exec_bind, *]
  | ok ran =>
    obtain ⟨ctx', reject⟩ := ran
    cases reject with
    | some imm =>
      refine ⟨_, _, ?_, .bodyRejected hq hp hf hbody⟩
      cases hf with
      | ran hx hc | skipped hx =>
        simp only [responseCtx] at *
        simp [runHandler, runResponsePipeline, runResponseFilters, executeResponse, checkReject,
          runRespBodyFilters, exec_bind, *]
    | none =>
      refine ⟨_, _, ?_, .done hq hp hf hbody⟩
      cases hf with
      | ran hx hc | skipped hx =>
        simp only [responseCtx] at *
        by_cases hbuf : s'.responseBody = [] <;>
          simp [runHandler, runResponsePipeline, runResponseFilters, executeResponse, checkReject,
            runRespBodyFilters, exec_bind, responseReplies, bodyDataIfPresent, *]

theorem runResponsePipeline_run (p : FilterPipeline K) (s : StreamState K) :
    ∃ o s', runHandler (runResponsePipeline p) s = (o, s') ∧ ResponseRun p s o s' := by
  cases hq : s.request with
  | none =>
    refine ⟨_, _, ?_, .noRequest hq⟩
    simp [runHandler, runResponsePipeline, exec_bind, hq, noRequestHeaders]
  | some request =>
    cases hp : s.response with
    | none =>
      refine ⟨_, _, ?_, .noResponse hq hp⟩
      simp [runHandler, runResponsePipeline, exec_bind, hq, hp, noResponseHeaders]
    | some resp =>
      cases hx : s.responseFiltersExecuted with
      | true => exact runResponsePipeline_of_headerHook hq hp (.skipped hx)
      | false =>
        cases hran : (p.executeHttpResponse (responseCtx s request resp)).result with
        | error e =>
          refine ⟨_, _, ?_, .failed hq hp hx hran⟩
          simp only [responseCtx] at *
          simp [runHandler, runResponsePipeline, runResponseFilters, executeResponse, exec_bind, *]
        | ok action =>
          cases action with
          | reject r =>
            refine ⟨_, _, ?_, .rejected hq hp hx hran⟩
            simp only [responseCtx] at *
            simp [runHandler, runResponsePipeline, runResponseFilters, executeResponse, checkReject,
              exec_bind, *]
          | «continue» => exact runResponsePipeline_of_headerHook hq hp (.ran hx hran)

/-- The reply to response headers whose body is still to come. -/
def headerReply (p : FilterPipeline K) : Handler K (List ProcessingResponse) := do
  let mutation ← runResponseHeaderFilters p
  return [Reply.responseHeaders mutation]

inductive HeaderRun (p : FilterPipeline K) (s : StreamState K) :
    Outcome K → StreamState K → Prop
  | noRequest (hq : s.request = none) : HeaderRun p s ⟨.ok [Reply.responseHeaders none], []⟩ s
  | noResponse {request : Request K} (hq : s.request = some request) (hp : s.response = none) :
      HeaderRun p s ⟨.ok [Reply.responseHeaders none], []⟩ s
  | failed {request : Request K} {resp : Response K} {e : FilterError}
      (hq : s.request = some request) (hp : s.response = some resp)
      (he : (p.executeHttpResponse (responseCtx s request resp)).result = .error e) :
      HeaderRun p s
        ⟨.error (Status.internal e), [.hook (.executeHttpResponse (responseCtx s request resp))]⟩
        (s.setResponse (p.executeHttpResponse (responseCtx s request resp)).lent)
  | rejected {request : Request K} {resp : Response K} {r : Rejection}
      (hq : s.request = some request) (hp : s.response = some resp)
      (hr : (p.executeHttpResponse (responseCtx s request resp)).result = .ok (.reject r)) :
      HeaderRun p s
        ⟨.error (Status.aborted (rejectionToImmediate r).body),
          [.hook (.executeHttpResponse (responseCtx s request resp)), .recordImmediateResponse]⟩
        (s.setResponse (p.executeHttpResponse (responseCtx s request resp)).lent)
  | done {request : Request K} {resp : Response K}
      (hq : s.request = some request) (hp : s.response = some resp)
      (hc : (p.executeHttpResponse (responseCtx s request resp)).result = .ok .«continue») :
      HeaderRun p s
        ⟨.ok [Reply.responseHeaders (collectResponseHeaderMutationsDiff
            (p.executeHttpResponse (responseCtx s request resp)).ctx
            (captureOriginalHeaders resp))],
          [.hook (.executeHttpResponse (responseCtx s request resp))]⟩
        (s.setResponse
          (p.executeHttpResponse (responseCtx s request resp)).lent).setResponseFiltersExecuted

theorem headerReply_run (p : FilterPipeline K) (s : StreamState K) :
    ∃ o s', runHandler (headerReply p) s = (o, s') ∧ HeaderRun p s o s' := by
  cases hq : s.request with
  | none =>
    refine ⟨_, _, ?_, .noRequest hq⟩
    simp [runHandler, headerReply, runResponseHeaderFilters, exec_bind, hq]
  | some request =>
    cases hp : s.response with
    | none =>
      refine ⟨_, _, ?_, .noResponse hq hp⟩
      simp [runHandler, headerReply, runResponseHeaderFilters, exec_bind, hq, hp]
    | some resp =>
      cases hran : (p.executeHttpResponse (responseCtx s request resp)).result with
      | error e =>
        refine ⟨_, _, ?_, .failed hq hp hran⟩
        simp only [responseCtx] at *
        simp [runHandler, headerReply, runResponseHeaderFilters, executeResponse, exec_bind, *]
      | ok action =>
        cases action with
        | reject r =>
          refine ⟨_, _, ?_, .rejected hq hp hran⟩
          simp only [responseCtx] at *
          simp [runHandler, headerReply, runResponseHeaderFilters, executeResponse, checkReject,
            exec_bind, *]
        | «continue» =>
          refine ⟨_, _, ?_, .done hq hp hran⟩
          simp only [responseCtx] at *
          simp [runHandler, headerReply, runResponseHeaderFilters, executeResponse, checkReject,
            exec_bind, *]

theorem handle_requestHeaders (h : HttpHeaders) : handle p s (.requestHeaders h) =
    let t := s.setRequest (envoyHeadersToRequest K (extractHeaderList h))
    if h.endOfStream then runHandler (runRequestPipeline p) t
    else (⟨.ok [Reply.requestHeaders none], []⟩, t) := by
  cases he : h.endOfStream <;>
    simp [handle, runHandler, dispatchRequest, handleRequestHeaders, exec_bind, he]

theorem handle_responseHeaders (h : HttpHeaders) : handle p s (.responseHeaders h) =
    let t := s.setResponse (envoyHeadersToResponse K (extractHeaderList h))
    if h.endOfStream then runHandler (runResponsePipeline p) t
    else runHandler (headerReply p) t := by
  cases he : h.endOfStream <;>
    simp [handle, runHandler, dispatchRequest, handleResponseHeaders, headerReply, exec_bind, he]

/-- Response headers that open a body run the header filters. -/
theorem openedResponse_run (p : FilterPipeline K) (s : StreamState K)
    (headers : Option (List HeaderValue)) : ∃ o s',
    handle p s (headersMessage .response ⟨headers, false⟩) = (o, s') ∧
      HeaderRun p (s.setResponse (envoyHeadersToResponse K (headers.getD []))) o s' := by
  obtain ⟨o, s', hrun, h⟩ := headerReply_run p
    (s.setResponse (envoyHeadersToResponse K (headers.getD [])))
  exact ⟨o, s', (handle_responseHeaders _).trans hrun, h⟩

/-- Response headers that end the stream run the whole response pipeline. -/
theorem endedResponse_run (p : FilterPipeline K) (s : StreamState K)
    (headers : Option (List HeaderValue)) : ∃ o s',
    handle p s (headersMessage .response ⟨headers, true⟩) = (o, s') ∧
      ResponseRun p (s.setResponse (envoyHeadersToResponse K (headers.getD []))) o s' := by
  obtain ⟨o, s', hrun, h⟩ := runResponsePipeline_run p
    (s.setResponse (envoyHeadersToResponse K (headers.getD [])))
  exact ⟨o, s', (handle_responseHeaders _).trans hrun, h⟩

def sidePipeline (p : FilterPipeline K) : Side → Handler K (List ProcessingResponse)
  | .request => runRequestPipeline p
  | .response => runResponsePipeline p

/-- Both body handlers: a chunk over the cap fails and changes nothing, a chunk within it joins
the buffer, and the last one starts the pipeline of its side. -/
theorem handle_bodyMessage (b : HttpBody) : handle p s (bodyMessage side b) =
    if maxBodyAccumulation < (s.body side).length + b.body.length then
      (⟨.error bodyTooLarge, []⟩, s)
    else
      let t := s.setBody side (s.body side ++ b.body)
      if b.endOfStream then runHandler (sidePipeline p side) t else (⟨.ok [], []⟩, t) := by
  cases side with
  | request =>
    by_cases hover : maxBodyAccumulation < s.requestBody.length + b.body.length <;>
      cases he : b.endOfStream <;>
      simp [handle, runHandler, dispatchRequest, bodyMessage, handleRequestBody, checkBodyLimit,
        exec_bind, StreamState.body, sidePipeline, bodyTooLarge, hover, he]
  | response =>
    by_cases hover : maxBodyAccumulation < s.responseBody.length + b.body.length <;>
      cases he : b.endOfStream <;>
      simp [handle, runHandler, dispatchRequest, bodyMessage, handleResponseBody, checkBodyLimit,
        exec_bind, StreamState.body, sidePipeline, bodyTooLarge, hover, he]

/-- The end of a side, whichever it is. -/
inductive SideRun (p : FilterPipeline K) (s : StreamState K) :
    Side → Outcome K → StreamState K → Prop
  | request {o : Outcome K} {s' : StreamState K} (h : RequestRun p s o s') :
      SideRun p s .request o s'
  | response {o : Outcome K} {s' : StreamState K} (h : ResponseRun p s o s') :
      SideRun p s .response o s'

theorem sidePipeline_run (p : FilterPipeline K) (side : Side) (s : StreamState K) :
    ∃ o s', runHandler (sidePipeline p side) s = (o, s') ∧ SideRun p s side o s' := by
  cases side with
  | request =>
    obtain ⟨o, s', hrun, h⟩ := runRequestPipeline_run p s
    exact ⟨o, s', hrun, .request h⟩
  | response =>
    obtain ⟨o, s', hrun, h⟩ := runResponsePipeline_run p s
    exact ⟨o, s', hrun, .response h⟩

/-- What one message can do. -/
inductive HandleRun (p : FilterPipeline K) (s : StreamState K) :
    Message → Outcome K → StreamState K → Prop
  | requestOpened {h : HttpHeaders} (he : h.endOfStream = false) :
      HandleRun p s (.requestHeaders h) ⟨.ok [Reply.requestHeaders none], []⟩
        (s.setRequest (envoyHeadersToRequest K (extractHeaderList h)))
  | requestEnded {h : HttpHeaders} {o : Outcome K} {s' : StreamState K} (he : h.endOfStream = true)
      (hrun : RequestRun p (s.setRequest (envoyHeadersToRequest K (extractHeaderList h))) o s') :
      HandleRun p s (.requestHeaders h) o s'
  | responseOpened {h : HttpHeaders} {o : Outcome K} {s' : StreamState K}
      (he : h.endOfStream = false)
      (hrun : HeaderRun p (s.setResponse (envoyHeadersToResponse K (extractHeaderList h))) o s') :
      HandleRun p s (.responseHeaders h) o s'
  | responseEnded {h : HttpHeaders} {o : Outcome K} {s' : StreamState K}
      (he : h.endOfStream = true)
      (hrun : ResponseRun p (s.setResponse (envoyHeadersToResponse K (extractHeaderList h))) o s') :
      HandleRun p s (.responseHeaders h) o s'
  | chunkRefused (side : Side) {b : HttpBody}
      (hover : maxBodyAccumulation < (s.body side).length + b.body.length) :
      HandleRun p s (bodyMessage side b) ⟨.error bodyTooLarge, []⟩ s
  | chunkKept (side : Side) {b : HttpBody} (he : b.endOfStream = false) :
      HandleRun p s (bodyMessage side b) ⟨.ok [], []⟩ (s.setBody side (s.body side ++ b.body))
  | bodyEnded (side : Side) {b : HttpBody} {o : Outcome K} {s' : StreamState K}
      (hcap : (s.body side).length + b.body.length ≤ maxBodyAccumulation)
      (he : b.endOfStream = true)
      (hrun : SideRun p (s.setBody side (s.body side ++ b.body)) side o s') :
      HandleRun p s (bodyMessage side b) o s'
  | trailers (side : Side) (t : HttpTrailers) :
      HandleRun p s (trailersMessage side t) ⟨.ok [trailersReply side], []⟩ s

theorem bodyMessage_run (p : FilterPipeline K) (s : StreamState K) (side : Side) (b : HttpBody) :
    HandleRun p s (bodyMessage side b) (handle p s (bodyMessage side b)).1
      (handle p s (bodyMessage side b)).2 := by
  rw [handle_bodyMessage]
  split
  · next hover => exact .chunkRefused side hover
  · next hcap =>
    cases he : b.endOfStream with
    | false => exact .chunkKept side he
    | true =>
      obtain ⟨o, s', hrun, h⟩ := sidePipeline_run p side (s.setBody side (s.body side ++ b.body))
      simp only [if_true, hrun]
      exact .bodyEnded side (by omega) he h

theorem handle_run (p : FilterPipeline K) (s : StreamState K) (m : Message) :
    HandleRun p s m (handle p s m).1 (handle p s m).2 := by
  cases m with
  | requestHeaders h =>
    rw [handle_requestHeaders]
    cases he : h.endOfStream with
    | false => exact .requestOpened he
    | true =>
      obtain ⟨o, s', hrun, hreq⟩ := runRequestPipeline_run p
        (s.setRequest (envoyHeadersToRequest K (extractHeaderList h)))
      simp only [if_true, hrun]
      exact .requestEnded he hreq
  | requestBody b => exact bodyMessage_run p s .request b
  | responseHeaders h =>
    rcases h with ⟨headers, _ | _⟩
    · obtain ⟨o, s', hstep, hhead⟩ := openedResponse_run p s headers
      simp only [headersMessage] at hstep
      simpa only [hstep] using .responseOpened rfl hhead
    · obtain ⟨o, s', hstep, hresp⟩ := endedResponse_run p s headers
      simp only [headersMessage] at hstep
      simpa only [hstep] using .responseEnded rfl hresp
  | responseBody b => exact bodyMessage_run p s .response b
  | requestTrailers t => exact .trailers .request t
  | responseTrailers t => exact .trailers .response t

/-- A turn of a stream is one way through its handler. -/
theorem turn_run {t : Turn K} (ht : t = (server p).turn t.before t.message) :
    HandleRun p t.before t.message t.reply t.after := by
  have hreply : t.reply = (handle p t.before t.message).1 := congrArg Machine.Turn.reply ht
  have hafter : t.after = (handle p t.before t.message).2 := congrArg Machine.Turn.after ht
  rw [hreply, hafter]
  exact handle_run p t.before t.message

section Calls
variable {o : Outcome K} {c : HookCall K}

/-- The context the request hook leaves. -/
def afterRequestHook (p : FilterPipeline K) (request : Request K) : HttpFilterContext K :=
  (p.executeHttpRequest (buildFilterContext request)).ctx

theorem BodyRun.mem_calls
    {res : Except Status (HttpFilterContext K × Option ImmediateResponse)}
    {events : List (Event K)} (h : BodyRun p side ctx s res events s')
    (hc : c ∈ callsOf events) : c = bodyHookCall side ctx s := by
  rw [h.calls] at hc
  split at hc
  · cases hc
  · exact List.mem_singleton.mp hc

theorem RequestRun.mem_calls (h : RequestRun p s o s') (hc : c ∈ o.calls) :
    ∃ request, s.request = some request ∧
      (c = .executeHttpRequest (buildFilterContext request) ∨
        c = bodyHookCall .request (afterRequestHook p request) s) := by
  cases h with
  | noRequest hq => cases hc
  | failed hq he | rejected hq he => exact ⟨_, hq, Or.inl (List.mem_singleton.mp hc)⟩
  | bodyFailed hq hcont hb | bodyRejected hq hcont hb | done hq hcont hb =>
    rcases List.mem_cons.mp hc with hfirst | hbody
    · exact ⟨_, hq, Or.inl hfirst⟩
    · exact ⟨_, hq, Or.inr (hb.mem_calls hbody)⟩

theorem HeaderRun.mem_calls (h : HeaderRun p s o s') (hc : c ∈ o.calls) :
    ∃ request resp, s.request = some request ∧ s.response = some resp ∧
      c = .executeHttpResponse (responseCtx s request resp) := by
  cases h with
  | noRequest hq | noResponse hq hp => cases hc
  | failed hq hp he | rejected hq hp he | done hq hp he =>
    exact ⟨_, _, hq, hp, List.mem_singleton.mp hc⟩

theorem ResponseRun.mem_calls (h : ResponseRun p s o s') (hc : c ∈ o.calls) :
    ∃ request resp, s.request = some request ∧ s.response = some resp ∧
      (s.responseFiltersExecuted = false ∧
          c = .executeHttpResponse (responseCtx s request resp) ∨
        ∃ ctx, c = bodyHookCall .response ctx s.takeResponse) := by
  cases h with
  | noRequest hq | noResponse hq hp => cases hc
  | failed hq hp hx he | rejected hq hp hx he =>
    exact ⟨_, _, hq, hp, Or.inl ⟨hx, List.mem_singleton.mp hc⟩⟩
  | bodyFailed hq hp hf hb | bodyRejected hq hp hf hb | done hq hp hf hb =>
    rw [calls_mk, callsOf_append, List.mem_append] at hc
    rcases hc with hfirst | hbody
    · cases hf with
      | ran hx hcont => exact ⟨_, _, hq, hp, Or.inl ⟨hx, List.mem_singleton.mp hfirst⟩⟩
      | skipped hx => cases hfirst
    · exact ⟨_, _, hq, hp, Or.inr ⟨_, hb.mem_calls hbody⟩⟩

end Calls

theorem BodyRun.skipped_of {res : Except Status (HttpFilterContext K × Option ImmediateResponse)}
    {events : List (Event K)} (h : BodyRun p side ctx s res events s') (hb : s.body side = []) :
    res = .ok (ctx, none) ∧ events = [] ∧ s' = s := by
  cases h with
  | skipped _ => exact ⟨rfl, rfl, rfl⟩
  | failed hne _ | rejected hne _ | continued hne _ => exact (hne hb).elim

theorem HeaderHook.unique {ctx₁ ctx₂ : HttpFilterContext K} {first second : List (Event K)}
    (h₁ : HeaderHook p s ctx ctx₁ first) (h₂ : HeaderHook p s ctx ctx₂ second) :
    ctx₁ = ctx₂ ∧ first = second := by
  cases h₁ <;> cases h₂ <;> simp_all

/-- The end of a response without a body, behind the header hook: no further hook. -/
theorem ResponseRun.empty_of {o : Outcome K} {request : Request K} {resp : Response K}
    {first : List (Event K)} (h : ResponseRun p s o s') (hq : s.request = some request)
    (hp : s.response = some resp) (hf : HeaderHook p s (responseCtx s request resp) ctx first)
    (hb : s.responseBody = []) :
    o = ⟨.ok [Reply.responseHeaders
        (collectResponseHeaderMutationsDiff ctx (captureOriginalHeaders resp))], first⟩ ∧
      s' = s.takeResponse := by
  have hempty : s.takeResponse.body .response = [] := hb
  have hleft : s.takeResponse.responseBody = [] := hb
  cases h with
  | noRequest hq' => simp [hq] at hq'
  | noResponse _ hp' => simp [hp] at hp'
  | failed hq' hp' hx he =>
    obtain rfl := Option.some.inj (hq.symm.trans hq')
    obtain rfl := Option.some.inj (hp.symm.trans hp')
    cases hf <;> simp_all
  | rejected hq' hp' hx hr =>
    obtain rfl := Option.some.inj (hq.symm.trans hq')
    obtain rfl := Option.some.inj (hp.symm.trans hp')
    cases hf <;> simp_all
  | bodyFailed hq' hp' hf' hrun | bodyRejected hq' hp' hf' hrun =>
    obtain ⟨hres, -, -⟩ := hrun.skipped_of hempty
    simp at hres
  | done hq' hp' hf' hrun =>
    obtain rfl := Option.some.inj (hq.symm.trans hq')
    obtain rfl := Option.some.inj (hp.symm.trans hp')
    obtain ⟨rfl, rfl⟩ := hf.unique hf'
    obtain ⟨hres, rfl, rfl⟩ := hrun.skipped_of hempty
    simp only [Except.ok.injEq, Prod.mk.injEq, and_true] at hres
    subst hres
    rw [hleft, List.append_nil]
    exact ⟨rfl, rfl⟩

/-- Response headers ahead of a body, when the hook lets them pass. -/
theorem HeaderRun.done_of {o : Outcome K} {request : Request K} {resp : Response K}
    (h : HeaderRun p s o s') (hq : s.request = some request) (hp : s.response = some resp)
    (hc : (p.executeHttpResponse (responseCtx s request resp)).result = .ok .«continue») :
    o = ⟨.ok [Reply.responseHeaders (collectResponseHeaderMutationsDiff
          (p.executeHttpResponse (responseCtx s request resp)).ctx (captureOriginalHeaders resp))],
        [.hook (.executeHttpResponse (responseCtx s request resp))]⟩ ∧
      s' = (s.setResponse
        (p.executeHttpResponse (responseCtx s request resp)).lent).setResponseFiltersExecuted := by
  cases h with
  | noRequest hq' => simp [hq] at hq'
  | noResponse _ hp' => simp [hp] at hp'
  | failed hq' hp' hr | rejected hq' hp' hr =>
    obtain rfl := Option.some.inj (hq.symm.trans hq')
    obtain rfl := Option.some.inj (hp.symm.trans hp')
    simp [hc] at hr
  | done hq' hp' _ =>
    obtain rfl := Option.some.inj (hq.symm.trans hq')
    obtain rfl := Option.some.inj (hp.symm.trans hp')
    exact ⟨rfl, rfl⟩

/-- The body the hook of a side leaves in its argument; no body is the empty body. -/
def leftBody (p : FilterPipeline K) (side : Side) (ctx : HttpFilterContext K) (b : Bytes) : Bytes :=
  (p.executeBody side ctx (some b) true).body.getD []

@[simp] theorem afterBodyHook_body :
    (afterBodyHook p side ctx s).body side = leftBody p side ctx (s.body side) := by
  simp [afterBodyHook, bodyHook, leftBody]

/-- A continuing hook on a non-empty buffer leaves one way through the body filters. -/
theorem BodyRun.continued_of {res : Except Status (HttpFilterContext K × Option ImmediateResponse)}
    {events : List (Event K)} (h : BodyRun p side ctx s res events s')
    (hc : (bodyHook p side ctx s).result = .ok .«continue») (hb : s.body side ≠ []) :
    res = .ok ((bodyHook p side ctx s).ctx, none) ∧
      events = [.hook (bodyHookCall side ctx s)] ∧ s' = afterBodyHook p side ctx s := by
  cases h with
  | skipped hempty => exact (hb hempty).elim
  | failed _ he => simp [he] at hc
  | rejected _ hr => simp [hr] at hc
  | continued _ _ => exact ⟨rfl, rfl, rfl⟩

section Continues
variable {o : Outcome K} {request : Request K} {resp : Response K}

theorem bodyHook_continues (hc : p.Continues) (side : Side) (ctx : HttpFilterContext K)
    (s : StreamState K) : (bodyHook p side ctx s).result = .ok .«continue» := by
  simpa using hc (bodyHookCall side ctx s)

theorem exists_headerHook (hc : p.Continues) (ctx : HttpFilterContext K) :
    ∃ ctx' first, HeaderHook p s ctx ctx' first := by
  cases hx : s.responseFiltersExecuted with
  | true => exact ⟨ctx, [], .skipped hx⟩
  | false => exact ⟨_, _, .ran hx (hc (.executeHttpResponse ctx))⟩

/-- The end of a request whose hooks continue: both hooks run, in order, on one context. -/
theorem RequestRun.continued_of (h : RequestRun p s o s') (hc : p.Continues)
    (hq : s.request = some request) (hb : s.requestBody ≠ []) :
    o = ⟨.ok (requestReplies (bodyHook p .request (afterRequestHook p request) s).ctx
          (leftBody p .request (afterRequestHook p request) s.requestBody)),
        [.hook (.executeHttpRequest (buildFilterContext request)),
          .hook (bodyHookCall .request (afterRequestHook p request) s)]⟩ ∧
      s' = (afterBodyHook p .request (afterRequestHook p request) s).keepFilterState
        (bodyHook p .request (afterRequestHook p request) s).ctx := by
  have hran := hc (.executeHttpRequest (buildFilterContext request))
  simp only [FilterPipeline.result] at hran
  have hbody := bodyHook_continues hc .request (afterRequestHook p request) s
  cases h with
  | noRequest hq' => simp [hq] at hq'
  | failed hq' he =>
    obtain rfl := Option.some.inj (hq.symm.trans hq')
    simp [hran] at he
  | rejected hq' hr =>
    obtain rfl := Option.some.inj (hq.symm.trans hq')
    simp [hran] at hr
  | bodyFailed hq' _ hrun | bodyRejected hq' _ hrun =>
    obtain rfl := Option.some.inj (hq.symm.trans hq')
    obtain ⟨hres, -, -⟩ := hrun.continued_of hbody hb
    simp at hres
  | done hq' _ hrun =>
    obtain rfl := Option.some.inj (hq.symm.trans hq')
    obtain ⟨hres, rfl, rfl⟩ := hrun.continued_of hbody hb
    simp only [Except.ok.injEq, Prod.mk.injEq, and_true] at hres
    subst hres
    have hleft : (afterBodyHook p .request (afterRequestHook p request) s).body .request =
        leftBody p .request (afterRequestHook p request) (s.body .request) := afterBodyHook_body
    simp only [StreamState.body] at hleft
    exact ⟨by rw [← hleft]; rfl, rfl⟩

/-- Response headers ahead of a body, when the hook continues. -/
theorem HeaderRun.continued_of (h : HeaderRun p s o s') (hc : p.Continues)
    (hq : s.request = some request) (hp : s.response = some resp) :
    o = ⟨.ok [Reply.responseHeaders (collectResponseHeaderMutationsDiff
          (p.executeHttpResponse (responseCtx s request resp)).ctx (captureOriginalHeaders resp))],
        [.hook (.executeHttpResponse (responseCtx s request resp))]⟩ ∧
      s' = (s.setResponse
        (p.executeHttpResponse (responseCtx s request resp)).lent).setResponseFiltersExecuted := by
  have hran := hc (.executeHttpResponse (responseCtx s request resp))
  exact h.done_of hq hp hran

/-- The end of a response whose hooks continue, behind the header hook. -/
theorem ResponseRun.continued_of {first : List (Event K)} (h : ResponseRun p s o s')
    (hc : p.Continues) (hq : s.request = some request) (hp : s.response = some resp)
    (hf : HeaderHook p s (responseCtx s request resp) ctx first) (hb : s.responseBody ≠ []) :
    o = ⟨.ok (responseReplies
          (collectResponseHeaderMutationsDiff (bodyHook p .response ctx s.takeResponse).ctx
            (captureOriginalHeaders resp))
          (leftBody p .response ctx s.responseBody)),
        first ++ [.hook (bodyHookCall .response ctx s.takeResponse)]⟩ ∧
      s' = afterBodyHook p .response ctx s.takeResponse := by
  have hran := hc (.executeHttpResponse (responseCtx s request resp))
  simp only [FilterPipeline.result] at hran
  have hbody := bodyHook_continues hc .response ctx s.takeResponse
  cases h with
  | noRequest hq' => simp [hq] at hq'
  | noResponse _ hp' => simp [hp] at hp'
  | failed hq' hp' hx he =>
    obtain rfl := Option.some.inj (hq.symm.trans hq')
    obtain rfl := Option.some.inj (hp.symm.trans hp')
    simp [hran] at he
  | rejected hq' hp' hx hr =>
    obtain rfl := Option.some.inj (hq.symm.trans hq')
    obtain rfl := Option.some.inj (hp.symm.trans hp')
    simp [hran] at hr
  | bodyFailed hq' hp' hf' hrun | bodyRejected hq' hp' hf' hrun =>
    obtain rfl := Option.some.inj (hq.symm.trans hq')
    obtain rfl := Option.some.inj (hp.symm.trans hp')
    obtain ⟨rfl, rfl⟩ := hf.unique hf'
    obtain ⟨hres, -, -⟩ := hrun.continued_of hbody hb
    simp at hres
  | done hq' hp' hf' hrun =>
    obtain rfl := Option.some.inj (hq.symm.trans hq')
    obtain rfl := Option.some.inj (hp.symm.trans hp')
    obtain ⟨rfl, rfl⟩ := hf.unique hf'
    obtain ⟨hres, rfl, rfl⟩ := hrun.continued_of hbody hb
    simp only [Except.ok.injEq, Prod.mk.injEq, and_true] at hres
    subst hres
    have hleft : (afterBodyHook p .response ctx s.takeResponse).body .response =
        leftBody p .response ctx (s.takeResponse.body .response) := afterBodyHook_body
    simp only [StreamState.body] at hleft
    exact ⟨by rw [hleft]; rfl, rfl⟩

end Continues

end ExtProc
