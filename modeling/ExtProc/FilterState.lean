import ExtProc.Chunks
import ExtProc.Phases

/-! The filter state that outlives a context: what the request phase hands to the response
phase, and what is lost between two response messages. -/
namespace ExtProc

open Utf8 (Bytes)

variable {K : Crates} {p : FilterPipeline K} {s s' : StreamState K} {m : Message} {side : Side}
  {ctx ctx' : HttpFilterContext K} {o : Outcome K} {c : HookCall K} {events first : List (Event K)}
  {request : Request K} {resp : Response K}

structure FilterState where
  branchIterations : HashMap String UInt32 := ∅
  executedFilterIndices : List Bool := []
  filterMetadata : HashMap String String := ∅

def HttpFilterContext.filterState (ctx : HttpFilterContext K) : FilterState where
  branchIterations := ctx.branchIterations
  executedFilterIndices := ctx.executedFilterIndices
  filterMetadata := ctx.filterMetadata

def StreamState.filterState (s : StreamState K) : FilterState where
  branchIterations := s.branchIterations
  executedFilterIndices := s.executedFilterIndices
  filterMetadata := s.filterMetadata

@[simp] theorem keepFilterState_filterState :
    (s.keepFilterState ctx).filterState = ctx.filterState := rfl
@[simp] theorem setBody_filterState {b : Bytes} :
    (s.setBody side b).filterState = s.filterState := by cases side <;> rfl
@[simp] theorem responseCtx_filterState :
    (responseCtx s request resp).filterState = s.filterState := rfl

def FilterPipeline.continuesAt (p : FilterPipeline K) (c : HookCall K) : Bool :=
  p.result c = .ok .«continue»

/-- The context behind the last hook invoked, when no hook failed or rejected. -/
def Outcome.completed (p : FilterPipeline K) (o : Outcome K) : Option (HttpFilterContext K) :=
  if o.calls.all p.continuesAt then o.calls.getLast?.map p.left else none

/-- The context a message leaves when it completes a request pipeline run. -/
def requestRunEnd (p : FilterPipeline K) (m : Message) (o : Outcome K) :
    Option (HttpFilterContext K) :=
  match m with
  | .requestHeaders _ | .requestBody _ => o.completed p
  | _ => none

/-- The filter state of the most recent request pipeline run that completed. -/
def keptFilterState (p : FilterPipeline K) (turns : List (Turn K)) : FilterState :=
  turns.foldl (fun kept t =>
    ((requestRunEnd p t.message t.reply).map HttpFilterContext.filterState).getD kept) {}

def openedBy (K : Crates) : Message → Option (Request K)
  | .requestHeaders h => some (envoyHeadersToRequest K (extractHeaderList h))
  | _ => none

/-- The request of the most recent request headers. -/
def latestRequest (turns : List (Turn K)) : Option (Request K) :=
  turns.foldl (fun latest t => (openedBy K t.message).or latest) none

theorem BodyRun.keeps {res : Except Status (HttpFilterContext K × Option ImmediateResponse)}
    (h : BodyRun p side ctx s res events s') :
    s'.request = s.request ∧ s'.filterState = s.filterState := by
  obtain ⟨b, rfl⟩ := h.exists_setBody
  exact ⟨setBody_request, setBody_filterState⟩

/-- A request run that completes leaves the filter state of its last context, any other run
leaves the filter state alone. -/
theorem RequestRun.filterState (h : RequestRun p s o s') :
    s'.filterState =
      ((o.completed p).map HttpFilterContext.filterState).getD s.filterState := by
  cases h with
  | noRequest hq => rfl
  | failed hq he =>
    simp [Outcome.completed, FilterPipeline.continuesAt, FilterPipeline.result, he]
  | rejected hq hr =>
    simp [Outcome.completed, FilterPipeline.continuesAt, FilterPipeline.result, hr]
  | bodyFailed hq hc hb =>
    have hkeeps := hb.keeps.2
    cases hb with
    | failed hne he =>
      simp [Outcome.completed, FilterPipeline.continuesAt, he, hkeeps]
  | bodyRejected hq hc hb =>
    have hkeeps := hb.keeps.2
    cases hb with
    | rejected hne hr =>
      simp [Outcome.completed, FilterPipeline.continuesAt, hr, hkeeps]
  | done hq hc hb =>
    cases hb with
    | skipped hb =>
      simp [Outcome.completed, FilterPipeline.continuesAt, FilterPipeline.result,
        FilterPipeline.left, hc]
    | continued hb hc' =>
      have hfirst : p.result (.executeHttpRequest (buildFilterContext _)) = .ok .«continue» := hc
      simp [Outcome.completed, FilterPipeline.continuesAt, hfirst, hc']

theorem ResponseRun.keeps (h : ResponseRun p s o s') :
    s'.request = s.request ∧ s'.filterState = s.filterState := by
  cases h with
  | noRequest hq => exact ⟨rfl, rfl⟩
  | noResponse hq hp => exact ⟨rfl, rfl⟩
  | failed hq hp hx he => exact ⟨rfl, rfl⟩
  | rejected hq hp hx hr => exact ⟨rfl, rfl⟩
  | bodyFailed hq hp hf hb | bodyRejected hq hp hf hb | done hq hp hf hb => exact hb.keeps

theorem HeaderRun.keeps (h : HeaderRun p s o s') :
    s'.request = s.request ∧ s'.filterState = s.filterState := by
  cases h <;> exact ⟨rfl, rfl⟩

/-- What one message does to the request and to the filter state. -/
theorem HandleRun.keeps (h : HandleRun p s m o s') :
    s'.request = (openedBy K m).or s.request ∧
      s'.filterState =
        ((requestRunEnd p m o).map HttpFilterContext.filterState).getD s.filterState := by
  cases h with
  | requestOpened he => exact ⟨rfl, rfl⟩
  | requestEnded he hrun => exact ⟨hrun.frame.1, hrun.filterState⟩
  | responseOpened he hrun => exact hrun.keeps
  | responseEnded he hrun => exact hrun.keeps
  | chunkRefused side hover => cases side <;> exact ⟨rfl, rfl⟩
  | chunkKept side he => cases side <;> exact ⟨rfl, rfl⟩
  | bodyEnded side hcap he hrun =>
    cases hrun with
    | request hrun => exact ⟨hrun.frame.1, hrun.filterState⟩
    | response hrun => exact hrun.keeps
  | trailers side t => cases side <;> exact ⟨rfl, rfl⟩

/-- The state agrees with the messages handled so far. -/
theorem run_keeps {ms : List Message} {pre post : List (Turn K)} {t : Turn K}
    (hrun : (server p).run StreamState.new ms = pre ++ t :: post) :
    (t.before.request = latestRequest pre ∧ t.before.filterState = keptFilterState p pre) ∧
      t = (server p).turn t.before t.message := by
  refine Machine.run_history (P := fun pre u => u.request = latestRequest pre ∧
    u.filterState = keptFilterState p pre) ⟨rfl, rfl⟩ ?_ hrun
  rintro pre u m ⟨hq, hf⟩ -
  obtain ⟨hq', hf'⟩ := (handle_run p u m).keeps
  rw [hq] at hq'
  rw [hf] at hf'
  simp only [latestRequest, keptFilterState, List.foldl_append, List.foldl_cons, List.foldl_nil]
  exact ⟨hq', hf'⟩

def Message.isResponsePhase : Message → Bool
  | .responseHeaders _ | .responseBody _ => true
  | _ => false

theorem HeaderRun.first_hook (h : HeaderRun p s o s') (hcall : o.calls.head? = some c) :
    s.request = some c.ctx.request ∧ c.ctx.filterState = s.filterState := by
  cases h with
  | noRequest hq => cases hcall
  | noResponse hq hp => cases hcall
  | failed hq hp he | rejected hq hp hr | done hq hp hc =>
    cases hcall
    exact ⟨hq, rfl⟩

theorem ResponseRun.first_hook_of_bodyRun {buffered : StreamState K}
    {res : Except Status (HttpFilterContext K × Option ImmediateResponse)}
    {replies : Except Status (List ProcessingResponse)}
    (hq : s.request = some request) (hf : HeaderHook p s (responseCtx s request resp) ctx first)
    (hb : BodyRun p .response ctx buffered res events s')
    (hcall : (Outcome.calls ⟨replies, first ++ events⟩).head? = some c) :
    s.request = some c.ctx.request ∧ c.ctx.filterState = s.filterState := by
  cases hf with
  | ran hx hc =>
    cases hcall
    exact ⟨hq, rfl⟩
  | skipped hx =>
    cases hb with
    | skipped hb => cases hcall
    | failed hne he | rejected hne hr | continued hne hc =>
      cases hcall
      exact ⟨hq, rfl⟩

theorem ResponseRun.first_hook (h : ResponseRun p s o s') (hcall : o.calls.head? = some c) :
    s.request = some c.ctx.request ∧ c.ctx.filterState = s.filterState := by
  cases h with
  | noRequest hq => cases hcall
  | noResponse hq hp => cases hcall
  | failed hq hp hx he | rejected hq hp hx hr =>
    cases hcall
    exact ⟨hq, rfl⟩
  | bodyFailed hq hp hf hb | bodyRejected hq hp hf hb | done hq hp hf hb =>
    exact first_hook_of_bodyRun hq hf hb hcall

theorem HandleRun.first_hook (h : HandleRun p s m o s') (hm : m.isResponsePhase = true)
    (hcall : o.calls.head? = some c) :
    s.request = some c.ctx.request ∧ c.ctx.filterState = s.filterState := by
  cases h with
  | requestOpened he | requestEnded he hrun => cases hm
  | responseOpened he hrun => exact hrun.first_hook hcall
  | responseEnded he hrun => exact hrun.first_hook hcall
  | chunkRefused side hover | chunkKept side he | trailers side t => cases hcall
  | bodyEnded side hcap he hrun =>
    cases hrun with
    | request hrun => cases hm
    | response hrun => exact hrun.first_hook hcall

/-- On every stream, the first hook of a response-phase message sees the latest request and the
filter state of the latest request pipeline run that completed. -/
theorem response_phase_context {ms : List Message} {pre post : List (Turn K)} {t : Turn K}
    (hrun : (server p).run StreamState.new ms = pre ++ t :: post)
    (hm : t.message.isResponsePhase = true) (hcall : t.reply.calls.head? = some c) :
    latestRequest pre = some c.ctx.request ∧ c.ctx.filterState = keptFilterState p pre := by
  obtain ⟨⟨hq, hf⟩, ht⟩ := run_keeps hrun
  obtain ⟨hrequest, hstate⟩ := (turn_run ht).first_hook hm hcall
  exact ⟨hq.symm.trans hrequest, hstate.trans hf⟩

section Recording

/-- A pipeline whose hooks at headers record the filters that ran. -/
def record : FilterPipeline httpCrates :=
  { passAll with
    executeHttpRequest := fun ctx =>
      ⟨{ ctx with executedFilterIndices := [true] }, .ok .«continue»⟩
    executeHttpResponse := fun ctx =>
      ⟨{ ctx with executedFilterIndices := [true, true] },
        ctx.responseHeader.getD plainResponse, .ok .«continue»⟩ }

/-- The stream state behind a request the filters recorded. -/
def recorded : StreamState httpCrates := { requested with executedFilterIndices := [true] }

theorem recorded_context :
    ∃ c, (handle record recorded (.responseHeaders ⟨none, true⟩)).1.calls.head? = some c ∧
      c.ctx.filterState = { executedFilterIndices := [true] } := by
  have hrun : (server record).run .new
      [.requestHeaders ⟨none, true⟩, .responseHeaders ⟨none, true⟩] =
        [(server record).turn .new (.requestHeaders ⟨none, true⟩)] ++
          (server record).turn recorded (.responseHeaders ⟨none, true⟩) :: [] := rfl
  exact ⟨.executeHttpResponse (responseCtx recorded plainRequest plainResponse), rfl,
    (response_phase_context hrun rfl rfl).2⟩

end Recording

/-- When the two response hooks run in one handler, the second starts on the context the first
left. -/
theorem ResponseRun.threads_context (h : ResponseRun p s o s')
    (hcalls : o.calls = [.executeHttpResponse ctx, c]) :
    c.ctx = p.left (.executeHttpResponse ctx) := by
  cases h with
  | noRequest hq => cases hcalls
  | noResponse hq hp => cases hcalls
  | failed hq hp hx he | rejected hq hp hx hr => cases hcalls
  | bodyFailed hq hp hf hb | bodyRejected hq hp hf hb | done hq hp hf hb =>
    simp only [calls_mk, callsOf_append, hb.calls] at hcalls
    cases hf with
    | skipped hx => split at hcalls <;> cases hcalls
    | ran hx hc =>
      split at hcalls <;> cases hcalls
      rfl

theorem HeaderRun.done_of_ok {replies : List ProcessingResponse} (h : HeaderRun p s o s')
    (hq : s.request = some request) (hp : s.response = some resp)
    (hok : o.replies = .ok replies) :
    o.calls = [.executeHttpResponse (responseCtx s request resp)] ∧
      s'.request = some request ∧ s'.responseBody = s.responseBody ∧
      s'.responseFiltersExecuted = true ∧ s'.filterState = s.filterState ∧
      ∃ resp', s'.response = some resp' := by
  cases h with
  | noRequest hq' => simp [hq] at hq'
  | noResponse _ hp' => simp [hp] at hp'
  | failed hq' hp' he => cases hok
  | rejected hq' hp' hr => cases hok
  | done hq' hp' hc =>
    obtain rfl := Option.some.inj (hq.symm.trans hq')
    obtain rfl := Option.some.inj (hp.symm.trans hp')
    exact ⟨rfl, hq, rfl, rfl, rfl, _, rfl⟩

/-- The end of a response whose headers were answered: the body hook starts afresh. -/
theorem ResponseRun.calls_of_executed (h : ResponseRun p s o s') (hq : s.request = some request)
    (hp : s.response = some resp) (hx : s.responseFiltersExecuted = true)
    (hb : s.responseBody ≠ []) :
    o.calls =
      [.executeHttpResponseBody (responseCtx s request resp) (some s.responseBody) true] := by
  cases h with
  | noRequest hq' => simp [hq] at hq'
  | noResponse _ hp' => simp [hp] at hp'
  | failed hq' hp' hx' he => simp [hx] at hx'
  | rejected hq' hp' hx' hr => simp [hx] at hx'
  | bodyFailed hq' hp' hf hrun | bodyRejected hq' hp' hf hrun | done hq' hp' hf hrun =>
    obtain rfl := Option.some.inj (hq.symm.trans hq')
    obtain rfl := Option.some.inj (hp.symm.trans hp')
    cases hf with
    | ran hx' hc => simp [hx] at hx'
    | skipped _ =>
      simp only [calls_mk, hrun.calls, List.nil_append]
      exact if_neg hb

/-- The body hook of a split response starts with the filter state `execute_http_response` left
exactly when that hook left it as it found it. -/
theorem split_threads_filter_state_iff {r : Option (List HeaderValue)} {ds : List Bytes}
    {replies : List ProcessingResponse} (hdone : RequestPhaseDone s)
    (hq : s.request = some request)
    (hok : (handle p s (.responseHeaders ⟨r, false⟩)).1.replies = .ok replies)
    (hD : ds.flatten ≠ []) (hcap : ds.flatten.length ≤ maxBodyAccumulation) :
    ∃ ctx ctx', ctx = responseCtx s request (envoyHeadersToResponse K (r.getD [])) ∧
      invoked ((server p).replies s (closedStream .response r ds)) =
        [.executeHttpResponse ctx, .executeHttpResponseBody ctx' (some ds.flatten) true] ∧
      (ctx'.filterState = (p.left (.executeHttpResponse ctx)).filterState ↔
        (p.left (.executeHttpResponse ctx)).filterState = ctx.filterState) := by
  obtain ⟨o, s', hstep, hhead⟩ := openedResponse_run p s r
  have hreplies : o.replies = .ok replies := by
    have hfst : (handle p s (.responseHeaders ⟨r, false⟩)).1 = o := congrArg Prod.fst hstep
    rw [← hfst]
    exact hok
  obtain ⟨hcalls, hq', hbody, hx, hstate, resp', hp'⟩ := hhead.done_of_ok hq rfl hreplies
  have hbuf : s'.body .response = [] := hbody.trans hdone.responseBody
  obtain ⟨hrun, -⟩ := closed_run hstep hreplies hbuf (ne_nil_of_flatten hD) hcap
  obtain ⟨o', s'', hend, hresp⟩ := runResponsePipeline_run p (s'.setBody .response ds.flatten)
  have hcalls' := hresp.calls_of_executed hq' hp' hx hD
  refine ⟨_, responseCtx (s'.setBody .response ds.flatten) request resp', rfl, ?_, ?_⟩
  · rw [hrun]
    simp only [sidePipeline, hend, invoked_cons, invoked_append, invoked_silent, invoked_nil,
      List.nil_append, List.append_nil, hcalls, hcalls']
    rfl
  · rw [responseCtx_filterState, setBody_filterState, hstate, responseCtx_filterState]
    exact eq_comm

section Forgetting

theorem untouched_state_threads :
    ∃ ctx ctx', invoked ((server passAll).replies requested
        (closedStream .response none [[1], [2]])) =
        [.executeHttpResponse ctx, .executeHttpResponseBody ctx' (some [1, 2]) true] ∧
      ctx'.filterState = (passAll.left (.executeHttpResponse ctx)).filterState := by
  have hdone : RequestPhaseDone requested := ⟨⟨rfl, rfl, rfl⟩, _, rfl⟩
  have hok : (handle passAll requested (.responseHeaders ⟨none, false⟩)).1.replies =
    .ok [Reply.responseHeaders none] := rfl
  have hD : ([[1], [2]] : List Bytes).flatten ≠ [] := by simp
  obtain ⟨ctx, ctx', -, hcalls, hiff⟩ :=
    split_threads_filter_state_iff hdone rfl hok hD (by decide)
  exact ⟨ctx, ctx', hcalls, hiff.mpr rfl⟩

/-- What `execute_http_response` records at header time is gone when the body ends. -/
theorem recorded_state_lost :
    ∃ ctx ctx', invoked ((server record).replies requested (closedStream .response none [[1]])) =
        [.executeHttpResponse ctx, .executeHttpResponseBody ctx' (some [1]) true] ∧
      (record.left (.executeHttpResponse ctx)).executedFilterIndices = [true, true] ∧
      ctx'.executedFilterIndices = [] :=
  ⟨_, _, rfl, rfl, rfl⟩

end Forgetting

end ExtProc
