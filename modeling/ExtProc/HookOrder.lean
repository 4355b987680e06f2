import ExtProc.Replay

/-! The order of the hooks: which hook may come behind which, on messages in any order. -/
namespace ExtProc

open Utf8 (Bytes)

variable {K : Crates} {p : FilterPipeline K} {s s' : StreamState K} {m : Message} {side : Side}
  {ctx ctx' : HttpFilterContext K} {o : Outcome K} {events first : List (Event K)}
  {replies : List ProcessingResponse} {pre post : List (Turn K)} {t u : Turn K}

/-- Response headers ahead of a body, which `execute_http_response` let pass. -/
structure PassedHeaders (p : FilterPipeline K) (t : Turn K) : Prop where
  headers : ∃ h, t.message = .responseHeaders h ∧ h.endOfStream = false
  call : ∃ ctx, t.reply.calls = [.executeHttpResponse ctx] ∧
    p.continuesAt (.executeHttpResponse ctx) = true

/-- The hook calls of one message. A body hook comes behind the hook of its headers, on the context
that one left when it continued; on the response side it may come in a later message, behind headers
that came ahead of a body. -/
inductive InOrder (p : FilterPipeline K) (pre : List (Turn K)) : List (HookCall K) → Prop
  | none : InOrder p pre []
  | request (request : Request K) :
      InOrder p pre [.executeHttpRequest (buildFilterContext request)]
  | requestBody {ctx : HttpFilterContext K} {b : Bytes} (request : Request K)
      (hc : p.continuesAt (.executeHttpRequest (buildFilterContext request)) = true)
      (hctx : ctx = p.left (.executeHttpRequest (buildFilterContext request))) :
      InOrder p pre [.executeHttpRequest (buildFilterContext request),
        .executeHttpRequestBody ctx (some b) true]
  | response (ctx : HttpFilterContext K) : InOrder p pre [.executeHttpResponse ctx]
  | responseBody {ctx ctx' : HttpFilterContext K} {b : Bytes}
      (hc : p.continuesAt (.executeHttpResponse ctx) = true)
      (hctx : ctx' = p.left (.executeHttpResponse ctx)) :
      InOrder p pre [.executeHttpResponse ctx, .executeHttpResponseBody ctx' (some b) true]
  | responseBodyLater {ctx : HttpFilterContext K} {b : Bytes} {u : Turn K} (hu : u ∈ pre)
      (hpassed : PassedHeaders p u) :
      InOrder p pre [.executeHttpResponseBody ctx (some b) true]

theorem continuesAt_of_result {c : HookCall K} (h : p.result c = .ok .«continue») :
    p.continuesAt c = true := decide_eq_true h

theorem RequestRun.inOrder (h : RequestRun p s o s') : InOrder p pre o.calls := by
  cases h with
  | noRequest hq => exact .none
  | failed hq he | rejected hq hr => exact .request _
  | bodyFailed hq hc hb | bodyRejected hq hc hb | done hq hc hb =>
    rw [calls_mk, callsOf_hook, hb.calls]
    split
    · exact .request _
    · exact .requestBody _ (continuesAt_of_result hc) rfl

theorem HeaderRun.inOrder (h : HeaderRun p s o s') : InOrder p pre o.calls := by
  cases h with
  | noRequest hq | noResponse hq hp => exact .none
  | failed hq hp he | rejected hq hp hr | done hq hp hc => exact .response _

theorem HeaderHook.inOrder {buffered : StreamState K}
    {res : Except Status (HttpFilterContext K × Option ImmediateResponse)}
    (hf : HeaderHook p s ctx ctx' first) (hb : BodyRun p .response ctx' buffered res events s')
    (hpassed : s.responseFiltersExecuted = true → ∃ u ∈ pre, PassedHeaders p u) :
    InOrder p pre (callsOf first ++ callsOf events) := by
  rw [hb.calls]
  cases hf with
  | ran hx hc =>
    split
    · exact .response _
    · exact .responseBody (continuesAt_of_result hc) rfl
  | skipped hx =>
    obtain ⟨u, hu, hpassed⟩ := hpassed hx
    split
    · exact .none
    · exact .responseBodyLater hu hpassed

theorem ResponseRun.inOrder (h : ResponseRun p s o s')
    (hpassed : s.responseFiltersExecuted = true → ∃ u ∈ pre, PassedHeaders p u) :
    InOrder p pre o.calls := by
  cases h with
  | noRequest hq | noResponse hq hp => exact .none
  | failed hq hp hx he | rejected hq hp hx hr => exact .response _
  | bodyFailed hq hp hf hb | bodyRejected hq hp hf hb | done hq hp hf hb =>
    rw [calls_mk, callsOf_append]
    exact hf.inOrder hb hpassed

theorem HandleRun.inOrder (h : HandleRun p s m o s')
    (hpassed : s.responseFiltersExecuted = true → ∃ u ∈ pre, PassedHeaders p u) :
    InOrder p pre o.calls := by
  cases h with
  | requestOpened he | chunkRefused side hover | chunkKept side he | trailers side t => exact .none
  | requestEnded he hrun => exact hrun.inOrder
  | responseOpened he hrun => exact hrun.inOrder
  | responseEnded he hrun => exact hrun.inOrder hpassed
  | bodyEnded side hcap he hrun =>
    cases hrun with
    | request hrun => exact hrun.inOrder
    | response hrun =>
      refine hrun.inOrder ?_
      intro hx
      exact hpassed hx

theorem HeaderRun.passed (h : HeaderRun p s o s') (hok : o.replies = .ok replies)
    (hcalls : o.calls ≠ []) : ∃ ctx, o.calls = [.executeHttpResponse ctx] ∧
      p.continuesAt (.executeHttpResponse ctx) = true := by
  cases h with
  | noRequest hq | noResponse hq hp => exact (hcalls rfl).elim
  | failed hq hp he | rejected hq hp hr => cases hok
  | done hq hp hc => exact ⟨_, rfl, continuesAt_of_result hc⟩

/-- Only response headers ahead of a body are filtered at header time, and these were let pass. -/
theorem HandleRun.passed (h : HandleRun p s m o s') (hok : o.replies = .ok replies)
    (hx : filtersAtHeaders m o = true) : (∃ h, m = .responseHeaders h ∧ h.endOfStream = false) ∧
      ∃ ctx, o.calls = [.executeHttpResponse ctx] ∧
        p.continuesAt (.executeHttpResponse ctx) = true := by
  cases h with
  | responseOpened he hrun =>
    simp only [filtersAtHeaders, he, Bool.not_false, Bool.true_and, Bool.not_eq_true',
      List.isEmpty_eq_false_iff] at hx
    exact ⟨⟨_, rfl, he⟩, hrun.passed hok hx⟩
  | responseEnded he hrun => simp [filtersAtHeaders, he] at hx
  | requestOpened he | requestEnded he hrun => cases hx
  | chunkRefused side hover | chunkKept side he | bodyEnded side hcap he hrun
  | trailers side t => cases side <;> cases hx

/-- The flag is set in a state only behind headers that were let pass. -/
theorem run_passed {ms : List Message}
    (hrun : (server p).run StreamState.new ms = pre ++ t :: post) :
    (t.before.responseFiltersExecuted = true → ∃ u ∈ pre, PassedHeaders p u) ∧
      t = (server p).turn t.before t.message := by
  refine Machine.run_history (P := fun pre u => u.responseFiltersExecuted = true →
    ∃ v ∈ pre, PassedHeaders p v) ?_ ?_ hrun
  · intro hx
    cases hx
  · intro pre u m hpassed hgoes hx
    obtain ⟨replies, hok⟩ := exists_replies_of_goes hgoes
    have hhandle := handle_run p u m
    have hflag := (hhandle.held hok).2
    rw [← show ((server p).turn u m).after = (handle p u m).2 from rfl, hx] at hflag
    cases hu : u.responseFiltersExecuted with
    | true =>
      obtain ⟨v, hv, hv'⟩ := hpassed hu
      exact ⟨v, List.mem_append_left _ hv, hv'⟩
    | false =>
      rw [hu, Bool.false_or] at hflag
      obtain ⟨hheaders, hcall⟩ := hhandle.passed hok hflag.symm
      exact ⟨(server p).turn u m, by simp, hheaders, hcall⟩

/-- On every stream hooks are invoked in order: each request or response hook first, its body hook
behind it, on its context and only if it continued; a response body hook that comes in a later
message comes behind an earlier `ResponseHeaders` message of this stream, ahead of a body, which
`execute_http_response` let pass. -/
theorem hooks_in_order {ms : List Message}
    (hrun : (server p).run StreamState.new ms = pre ++ t :: post) :
    InOrder p pre t.reply.calls := by
  obtain ⟨hpassed, ht⟩ := run_passed hrun
  exact (turn_run ht).inOrder hpassed

section Later

/-- A response whose headers are answered ahead of its body. -/
def openedResponse : List (Turn httpCrates) :=
  (server passAll).run .new [.requestHeaders ⟨none, true⟩, .responseHeaders ⟨none, false⟩]

theorem body_hook_later : InOrder passAll openedResponse
    ((server passAll).turn (replay passAll openedResponse) (.responseBody ⟨[1], true⟩)).reply.calls
    := by
  have hrun : (server passAll).run .new [.requestHeaders ⟨none, true⟩,
      .responseHeaders ⟨none, false⟩, .responseBody ⟨[1], true⟩] =
        openedResponse ++ (server passAll).turn (replay passAll openedResponse)
          (.responseBody ⟨[1], true⟩) :: [] := rfl
  exact hooks_in_order hrun

end Later

end ExtProc
