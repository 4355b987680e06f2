import ExtProc.Adapter
import ExtProc.Exec
import ExtProc.Response

/-! The per-stream state and the handlers of the six message kinds. -/
namespace ExtProc

open Exec (Prog)
open Utf8 (Bytes)

variable {K : Crates}

def maxBodyAccumulation : Nat := 10485760

structure StreamState (K : Crates) where
  branchIterations : HashMap String UInt32 := ∅
  executedFilterIndices : List Bool := []
  filterMetadata : HashMap String String := ∅
  request : Option (Request K) := none
  requestBody : Bytes := []
  response : Option (Response K) := none
  responseBody : Bytes := []
  responseFiltersExecuted : Bool := false

def StreamState.new : StreamState K := {}

def StreamState.restoreRequestCtx (s : StreamState K) (ctx : HttpFilterContext K) :
    HttpFilterContext K :=
  { ctx with
    executedFilterIndices := s.executedFilterIndices
    branchIterations := s.branchIterations
    filterMetadata := s.filterMetadata }

/-- `ctx.response_header = Some(resp)`. -/
def HttpFilterContext.lend (ctx : HttpFilterContext K) (resp : Response K) :
    HttpFilterContext K :=
  { ctx with responseHeader := some resp }

namespace StreamState

def setRequest (s : StreamState K) (request : Request K) : StreamState K :=
  { s with request := some request }

def setResponse (s : StreamState K) (resp : Response K) : StreamState K :=
  { s with response := some resp }

/-- What `state.response.take()` leaves. -/
def takeResponse (s : StreamState K) : StreamState K := { s with response := none }

def setResponseFiltersExecuted (s : StreamState K) : StreamState K :=
  { s with responseFiltersExecuted := true }

/-- The filter state of a context, kept for the response phase. -/
def keepFilterState (s : StreamState K) (ctx : HttpFilterContext K) : StreamState K :=
  { s with
    executedFilterIndices := ctx.executedFilterIndices
    branchIterations := ctx.branchIterations
    filterMetadata := ctx.filterMetadata }

end StreamState

/-- The two halves of a stream; they differ in the buffer and in the body hook. -/
inductive Side where
  | request
  | response
  deriving DecidableEq, Repr

def StreamState.body (s : StreamState K) : Side → Bytes
  | .request => s.requestBody
  | .response => s.responseBody

def StreamState.setBody (s : StreamState K) (side : Side) (bytes : Bytes) : StreamState K :=
  match side with
  | .request => { s with requestBody := bytes }
  | .response => { s with responseBody := bytes }

section Fields
variable {s : StreamState K} {ctx : HttpFilterContext K} {side : Side} {a b : Bytes}

@[simp] theorem takeResponse_request : s.takeResponse.request = s.request := rfl
@[simp] theorem takeResponse_responseFiltersExecuted :
    s.takeResponse.responseFiltersExecuted = s.responseFiltersExecuted := rfl
@[simp] theorem takeResponse_restoreRequestCtx :
    s.takeResponse.restoreRequestCtx ctx = s.restoreRequestCtx ctx := rfl
@[simp] theorem setBody_request : (s.setBody side a).request = s.request := by cases side <;> rfl
@[simp] theorem setBody_body : (s.setBody side a).body side = a := by cases side <;> rfl
@[simp] theorem setBody_setBody : (s.setBody side a).setBody side b = s.setBody side b := by
  cases side <;> rfl
@[simp] theorem setBody_self : s.setBody side (s.body side) = s := by cases side <;> rfl

end Fields

/-- What a handler does that its caller cannot see in the reply. -/
inductive Event (K : Crates) where
  | hook (call : HookCall K)
  | recordImmediateResponse

/-- The stream state, and what happened while the message was handled. -/
structure World (K : Crates) where
  state : StreamState K
  log : List (Event K)

abbrev Handler (K : Crates) (α : Type) := Prog (World K) Status α

namespace Handler

def get : Handler K (StreamState K) := do return (← MonadState.get).state

def modify (f : StreamState K → StreamState K) : Handler K Unit :=
  modifyThe (World K) fun w => { w with state := f w.state }

def emit (e : Event K) : Handler K Unit :=
  modifyThe (World K) fun w => { w with log := w.log ++ [e] }

end Handler

def extractHeaderList (headers : HttpHeaders) : List HeaderValue := headers.headers.getD []

def checkBodyLimit (current incoming : Nat) : Handler K Unit := do
  if current + incoming > maxBodyAccumulation then
    throw (Status.resourceExhausted "body exceeds maximum size")

def bodyDataIfPresent (buf : Bytes) : Option Bytes := if buf.isEmpty then none else some buf

def FilterPipeline.executeBody (p : FilterPipeline K) :
    Side → HttpFilterContext K → Option Bytes → Bool → BodyHookRun K
  | .request => p.executeHttpRequestBody
  | .response => p.executeHttpResponseBody

def HookCall.executeBody : Side → HttpFilterContext K → Option Bytes → Bool → HookCall K
  | .request => .executeHttpRequestBody
  | .response => .executeHttpResponseBody

/-- The common body of `run_body_filters` and `run_resp_body_filters`: the buffer is taken
before the hook and written back unless the hook fails or drops the body. -/
def bodyFilters (side : Side) (pipeline : FilterPipeline K) (ctx : HttpFilterContext K) :
    Handler K (HttpFilterContext K × Option ImmediateResponse) := do
  let bodyBuf := (← Handler.get).body side
  if bodyBuf.isEmpty then
    return (ctx, none)
  Handler.modify (·.setBody side [])
  Handler.emit (.hook (.executeBody side ctx (some bodyBuf) true))
  let ran := pipeline.executeBody side ctx (some bodyBuf) true
  match ran.result with
  | .error e => throw (Status.internal e)
  | .ok action =>
    if let some b := ran.body then
      Handler.modify (·.setBody side b)
    match action with
    | .reject rejection => return (ran.ctx, some (rejectionToImmediate rejection))
    | .«continue» => return (ran.ctx, none)

def runBodyFilters (pipeline : FilterPipeline K) (ctx : HttpFilterContext K) :
    Handler K (HttpFilterContext K × Option ImmediateResponse) :=
  bodyFilters .request pipeline ctx

def runRespBodyFilters (pipeline : FilterPipeline K) (ctx : HttpFilterContext K) :
    Handler K (HttpFilterContext K × Option ImmediateResponse) :=
  bodyFilters .response pipeline ctx

/-- The snapshot of the response headers; of a repeated name the last value stays. -/
def captureOriginalHeaders (resp : Response K) : HashMap String String :=
  resp.headers.iter.foldl (fun m h => m.insert (K.asStr h.1) (textOf K h.2)) ∅

def executeRequest (pipeline : FilterPipeline K) (ctx : HttpFilterContext K) :
    Handler K (HttpFilterContext K × FilterAction) := do
  Handler.emit (.hook (.executeHttpRequest ctx))
  let ran := pipeline.executeHttpRequest ctx
  match ran.result with
  | .error e => throw (Status.internal e)
  | .ok action => return (ran.ctx, action)

/-- The hook edits the lent response in place; `keep` says where the edit lands. -/
def executeResponse (pipeline : FilterPipeline K) (ctx : HttpFilterContext K)
    (keep : Response K → StreamState K → StreamState K) :
    Handler K (HttpFilterContext K × FilterAction) := do
  Handler.emit (.hook (.executeHttpResponse ctx))
  let ran := pipeline.executeHttpResponse ctx
  Handler.modify (keep ran.lent)
  match ran.result with
  | .error e => throw (Status.internal e)
  | .ok action => return (ran.ctx, action)

def checkReject (action : FilterAction) : Handler K (Option ImmediateResponse) := do
  match action with
  | .reject rejection =>
    Handler.emit .recordImmediateResponse
    return some (rejectionToImmediate rejection)
  | .«continue» => return none

def runRequestFilters (pipeline : FilterPipeline K) : Handler K (List ProcessingResponse) := do
  let some request := (← Handler.get).request
    | throw (Status.internal "no request headers")
  let ctx := buildFilterContext request
  let (ctx, action) ← executeRequest pipeline ctx
  if let some imm ← checkReject action then
    return [Reply.immediate imm]
  let (ctx, bodyReject) ← runBodyFilters pipeline ctx
  if let some imm := bodyReject then
    return [Reply.immediate imm]
  let mutation := collectRequestHeaderMutations ctx
  let bodyData := bodyDataIfPresent (← Handler.get).requestBody
  let responses :=
    if bodyData.isSome then Reply.requestBody bodyData mutation
    else [Reply.requestHeaders mutation]
  Handler.modify (·.keepFilterState ctx)
  return responses

def runRequestPipeline (pipeline : FilterPipeline K) : Handler K (List ProcessingResponse) := do
  if (← Handler.get).request.isNone then
    throw (Status.internal "no request headers")
  runRequestFilters pipeline

/-- Here the response is a local of `run_response_pipeline`, so edits leave the state alone. -/
def runResponseFilters (pipeline : FilterPipeline K) (resp : Response K) :
    Handler K (List ProcessingResponse) := do
  let some request := (← Handler.get).request
    | throw (Status.internal "no request headers")
  let ctx := (← Handler.get).restoreRequestCtx (buildFilterContext request)
  let originalHeaders := captureOriginalHeaders resp
  let mut ctx := ctx.lend resp
  if !(← Handler.get).responseFiltersExecuted then
    let (ctx', action) ← executeResponse pipeline ctx fun _ s => s
    ctx := ctx'
    if let some imm ← checkReject action then
      return [Reply.immediate imm]
  let (ctx', bodyReject) ← runRespBodyFilters pipeline ctx
  if let some imm := bodyReject then
    return [Reply.immediate imm]
  let mutation := collectResponseHeaderMutationsDiff ctx' originalHeaders
  let bodyData := bodyDataIfPresent (← Handler.get).responseBody
  if bodyData.isSome then
    return Reply.responseBody bodyData mutation
  else
    return [Reply.responseHeaders mutation]

def runResponsePipeline (pipeline : FilterPipeline K) : Handler K (List ProcessingResponse) := do
  if (← Handler.get).request.isNone then
    throw (Status.internal "no request headers")
  let some resp := (← Handler.get).response
    | throw (Status.internal "no response headers")
  Handler.modify (·.takeResponse)
  runResponseFilters pipeline resp

/-- Here the context borrows the stored response, so edits land in the state. -/
def runResponseHeaderFilters (pipeline : FilterPipeline K) :
    Handler K (Option HeaderMutation) := do
  let some request := (← Handler.get).request | return none
  let ctx := (← Handler.get).restoreRequestCtx (buildFilterContext request)
  let some resp := (← Handler.get).response | return none
  let originalHeaders := captureOriginalHeaders resp
  let ctx := ctx.lend resp
  let (ctx, action) ← executeResponse pipeline ctx fun lent s => s.setResponse lent
  if let some imm ← checkReject action then
    throw (Status.aborted imm.body)
  Handler.modify (·.setResponseFiltersExecuted)
  return collectResponseHeaderMutationsDiff ctx originalHeaders

def handleRequestHeaders (pipeline : FilterPipeline K) (headers : HttpHeaders) :
    Handler K (List ProcessingResponse) := do
  let envoyHeaders := extractHeaderList headers
  Handler.modify (·.setRequest (envoyHeadersToRequest K envoyHeaders))
  if headers.endOfStream then
    return ← runRequestPipeline pipeline
  return [Reply.requestHeaders none]

def handleRequestBody (pipeline : FilterPipeline K) (body : HttpBody) :
    Handler K (List ProcessingResponse) := do
  checkBodyLimit (← Handler.get).requestBody.length body.body.length
  Handler.modify fun s => s.setBody .request (s.requestBody ++ body.body)
  if !body.endOfStream then
    return []
  runRequestPipeline pipeline

def handleResponseHeaders (pipeline : FilterPipeline K) (headers : HttpHeaders) :
    Handler K (List ProcessingResponse) := do
  let envoyHeaders := extractHeaderList headers
  Handler.modify (·.setResponse (envoyHeadersToResponse K envoyHeaders))
  if headers.endOfStream then
    return ← runResponsePipeline pipeline
  let mutation ← runResponseHeaderFilters pipeline
  return [Reply.responseHeaders mutation]

def handleResponseBody (pipeline : FilterPipeline K) (body : HttpBody) :
    Handler K (List ProcessingResponse) := do
  checkBodyLimit (← Handler.get).responseBody.length body.body.length
  Handler.modify fun s => s.setBody .response (s.responseBody ++ body.body)
  if !body.endOfStream then
    return []
  runResponsePipeline pipeline

def dispatchRequest (pipeline : FilterPipeline K) : Message → Handler K (List ProcessingResponse)
  | .requestHeaders h => handleRequestHeaders pipeline h
  | .requestBody b => handleRequestBody pipeline b
  | .responseHeaders h => handleResponseHeaders pipeline h
  | .responseBody b => handleResponseBody pipeline b
  | .requestTrailers _ => return [Reply.requestTrailers]
  | .responseTrailers _ => return [Reply.responseTrailers]

end ExtProc
