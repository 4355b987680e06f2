import ExtProc.Exchange
import ExtProc.FilterState
import ExtProc.Rejection

/-! Two ways to end a body, by its last chunk or by trailers, and the hooks each way invokes. -/
namespace ExtProc

open Utf8 (Bytes)

variable {K : Crates} {p : FilterPipeline K} {s s' : StreamState K} {side : Side} {o : Outcome K}
  {request : Request K} {resp : Response K} {headers : Option (List HeaderValue)}
  {cs : List Bytes} {b : Bytes} {trailers : HttpTrailers}

def HookCall.executeHeaders : Side → HttpFilterContext K → HookCall K
  | .request => .executeHttpRequest
  | .response => .executeHttpResponse

/-- A stream ended by trailers against the same stream ended by its last chunk: the hooks of the
side are invoked, and a rejection is handed on instead of a passthrough. -/
structure Covers (side : Side) (b : Bytes) (closed trailed : List (Outcome K)) : Prop where
  headerHook : (∃ ctx, .executeHeaders side ctx ∈ invoked closed) →
    ∃ ctx, .executeHeaders side ctx ∈ invoked trailed
  bodyHook : (∃ ctx, .executeBody side ctx (some b) true ∈ invoked closed) →
    ∃ ctx, .executeBody side ctx (some b) true ∈ invoked trailed
  immediate : ∀ imm, Reply.immediate imm ∈ sent closed →
    Reply.immediate imm ∈ sent trailed ∧ trailersReply side ∉ sent trailed

/-- Where a side begins: on a fresh stream, or behind the request phase. -/
def Ready : Side → StreamState K → Prop
  | .request, s => s = .new
  | .response, s => RequestPhaseDone s

/-- The response filters run at header time, and let the response pass. -/
def ContinuesAtHeaderTime (p : FilterPipeline K) (s : StreamState K)
    (headers : Option (List HeaderValue)) : Prop :=
  ∃ request, s.request = some request ∧
    p.result (.executeHttpResponse
      (responseCtx s request (envoyHeadersToResponse K (headers.getD [])))) = .ok .«continue»

theorem Covers.refl {os : List (Outcome K)} (h : trailersReply side ∉ sent os) :
    Covers side b os os where
  headerHook := id
  bodyHook := id
  immediate _ himm := ⟨himm, h⟩

theorem RequestRun.invokes (h : RequestRun p s o s') (hq : s.request = some request) :
    .executeHttpRequest (buildFilterContext request) ∈ o.calls := by
  cases h with
  | noRequest hq' => simp [hq] at hq'
  | failed hq' he | rejected hq' hr | bodyFailed hq' hc hb | bodyRejected hq' hc hb
  | done hq' hc hb =>
    obtain rfl := Option.some.inj (hq.symm.trans hq')
    exact List.mem_cons_self

/-- Trailers end a request without any hook invoked, and the last chunk does not. -/
theorem request_not_covered (hne : cs ≠ []) (hcap : cs.flatten.length ≤ maxBodyAccumulation) :
    ¬ Covers .request cs.flatten
      ((server p).replies .new (closedStream .request headers cs))
      ((server p).replies .new (trailedStream .request headers cs trailers)) := by
  have hstep : handle p .new (headersMessage .request ⟨headers, false⟩) =
      (⟨.ok [Reply.requestHeaders none], []⟩, openedRequest K headers) := handle_requestHeaders _
  have hclosed := (closed_run hstep rfl rfl hne hcap).1
  have htrailed := trailed_run trailers hstep rfl rfl hcap
  obtain ⟨o, s', hend, hreq⟩ := runRequestPipeline_run p
    ((openedRequest K headers).setBody .request cs.flatten)
  intro hcovers
  rw [hclosed, htrailed] at hcovers
  have hrun := hreq.invokes (setBody_request (s := openedRequest K headers))
  obtain ⟨ctx, hmem⟩ := hcovers.headerHook ⟨_, by
    simp only [invoked_cons, invoked_append, sidePipeline, hend]
    exact List.mem_append_right _ (List.mem_append_right _ (List.mem_append_left _ hrun))⟩
  simp at hmem

/-- Headers that are answered had their hook continue, and no rejection is among the replies. -/
theorem HeaderRun.answered {replies : List ProcessingResponse} (h : HeaderRun p s o s')
    (hok : o.replies = .ok replies) : ∃ mutation, replies = [Reply.responseHeaders mutation] := by
  cases h with
  | noRequest hq | noResponse hq hp | done hq hp hc =>
    cases hok
    exact ⟨_, rfl⟩
  | failed hq hp he | rejected hq hp hr => cases hok

theorem HeaderRun.ok_iff (h : HeaderRun p s o s') (hq : s.request = some request)
    (hp : s.response = some resp) :
    (∃ replies, o.replies = .ok replies) ↔
      p.result (.executeHttpResponse (responseCtx s request resp)) = .ok .«continue» := by
  cases h with
  | noRequest hq' => simp [hq] at hq'
  | noResponse _ hp' => simp [hp] at hp'
  | failed hq' hp' he =>
    obtain rfl := Option.some.inj (hq.symm.trans hq')
    obtain rfl := Option.some.inj (hp.symm.trans hp')
    simp [FilterPipeline.result, he]
  | rejected hq' hp' hr =>
    obtain rfl := Option.some.inj (hq.symm.trans hq')
    obtain rfl := Option.some.inj (hp.symm.trans hp')
    simp [FilterPipeline.result, hr]
  | done hq' hp' hc =>
    obtain rfl := Option.some.inj (hq.symm.trans hq')
    obtain rfl := Option.some.inj (hp.symm.trans hp')
    exact iff_of_true ⟨_, rfl⟩ hc

/-- The headers are answered when the header filters let the response pass. -/
theorem HeaderRun.answered_iff (hq : s.request = some request)
    (h : HeaderRun p (s.setResponse (envoyHeadersToResponse K (headers.getD []))) o s') :
    (∃ replies, o.replies = .ok replies) ↔ ContinuesAtHeaderTime p s headers := by
  refine (h.ok_iff hq rfl).trans ⟨fun hc => ⟨request, hq, hc⟩, ?_⟩
  intro hcontinues
  obtain ⟨request', hq', hc⟩ := hcontinues
  obtain rfl := Option.some.inj (hq.symm.trans hq')
  exact hc

/-- Headers that are refused end both streams in the same way. -/
theorem covers_of_refused {st : Status}
    (hstep : (server p).step s (headersMessage .response ⟨headers, false⟩) = (o, s'))
    (hreplies : o.replies = .error st) :
    Covers .response b ((server p).replies s (closedStream .response headers cs))
      ((server p).replies s (trailedStream .response headers cs trailers)) := by
  have hsent : o.sent = [] := by simp only [Outcome.sent, hreplies]
  have hclosed : (server p).replies s (closedStream .response headers cs) = [o] :=
    replies_of_refused hstep hreplies
  have htrailed : (server p).replies s (trailedStream .response headers cs trailers) = [o] :=
    replies_of_refused hstep hreplies
  rw [hclosed, htrailed]
  apply Covers.refl
  simp [hsent]

theorem response_covered_iff (hdone : RequestPhaseDone s) (hne : cs ≠ [])
    (hcap : cs.flatten.length ≤ maxBodyAccumulation) :
    Covers .response cs.flatten
        ((server p).replies s (closedStream .response headers cs))
        ((server p).replies s (trailedStream .response headers cs trailers)) ↔
      cs.flatten = [] ∨ ¬ ContinuesAtHeaderTime p s headers := by
  obtain ⟨request, hq⟩ := hdone.request
  obtain ⟨o, s', hstep, hhead⟩ := openedResponse_run p s headers
  rw [← hhead.answered_iff hq]
  cases hreplies : o.replies with
  | error st => exact iff_of_true (covers_of_refused hstep hreplies) (Or.inr (by simp))
  | ok replies =>
    obtain ⟨hcalls, hq', hbody, hx, -, resp', hp'⟩ := hhead.done_of_ok hq rfl hreplies
    obtain ⟨mutation, rfl⟩ := hhead.answered hreplies
    have hsent : o.sent = [Reply.responseHeaders mutation] := by
      simp only [Outcome.sent, hreplies]
    have hbuf : s'.body .response = [] := hbody.trans hdone.responseBody
    obtain ⟨o', s'', hend, hresp⟩ := runResponsePipeline_run p (s'.setBody .response cs.flatten)
    have hclosed := (closed_run hstep hreplies hbuf hne hcap).1
    have htrailed := trailed_run trailers hstep hreplies hbuf hcap
    simp only [hclosed, htrailed, sidePipeline, hend]
    by_cases hempty : cs.flatten = []
    · refine iff_of_true ?_ (Or.inl hempty)
      obtain ⟨rfl, -⟩ := hresp.empty_of hq' hp' (.skipped hx) hempty
      refine ⟨?_, ?_, ?_⟩
      · simp
      · simp
      · intro imm himm
        simp only [sent_cons, sent_append, sent_silent, sent_nil, sent_mk, hsent] at himm
        simp [Reply.immediate, Reply.responseHeaders] at himm
    · refine iff_of_false ?_ ?_
      · intro hcovers
        have hbodyCall := hresp.calls_of_executed hq' hp' hx hempty
        obtain ⟨ctx, hmem⟩ := hcovers.bodyHook ⟨responseCtx (s'.setBody .response cs.flatten)
          request resp', by
            simp only [invoked_cons, invoked_append, hbodyCall]
            exact List.mem_append_right _ (List.mem_append_right _
              (List.mem_append_left _ (List.mem_singleton_self _)))⟩
        simp [hcalls, HookCall.executeBody] at hmem
      · intro hor
        rcases hor with hno | hno
        · exact hempty hno
        · exact hno ⟨_, rfl⟩

/-- Trailers cover a body exactly on the response side, and there only when there is no body or
the header filters did not let the response pass. -/
theorem trailers_cover_iff (trailers : HttpTrailers) (hready : Ready side s) (hne : cs ≠ [])
    (hcap : cs.flatten.length ≤ maxBodyAccumulation) :
    Covers side cs.flatten
        ((server p).replies s (closedStream side headers cs))
        ((server p).replies s (trailedStream side headers cs trailers)) ↔
      side = .response ∧ (cs.flatten = [] ∨ ¬ ContinuesAtHeaderTime p s headers) := by
  cases side with
  | request =>
    obtain rfl : s = .new := hready
    refine iff_of_false (request_not_covered hne hcap) ?_
    simp
  | response =>
    rw [response_covered_iff hready hne hcap]
    simp

section Bypass

/-- A pipeline whose request hook rejects everything. -/
def refuseRequest : FilterPipeline httpCrates :=
  { passAll with
    executeHttpRequest := fun ctx =>
      ⟨ctx, .ok (.reject { status := 403, headers := [], body := none })⟩ }

/-- A response with a body, rejected at header time: however it would end, its body is not due. -/
theorem refused_response_covered :
    Covers .response [1]
      ((server refuseResponse).replies requested (closedStream .response none [[1]]))
      ((server refuseResponse).replies requested (trailedStream .response none [[1]] ⟨none⟩)) := by
  have hready : Ready .response requested := ⟨⟨rfl, rfl, rfl⟩, _, rfl⟩
  have hrejects : ¬ ContinuesAtHeaderTime refuseResponse requested none := by
    rintro ⟨request, -, hc⟩
    cases hc
  exact (trailers_cover_iff ⟨none⟩ hready (List.cons_ne_nil [1] []) (by decide)).mpr
    ⟨rfl, Or.inr hrejects⟩

/-- The refused request: rejected when its last chunk ends it, passed on when trailers do. -/
theorem refusal_bypassed :
    (∃ imm, sent ((server refuseRequest).replies .new (closedStream .request none [[1]])) =
        [Reply.requestHeaders none, Reply.immediate imm]) ∧
      sent ((server refuseRequest).replies .new (trailedStream .request none [[1]] ⟨none⟩)) =
        [Reply.requestHeaders none, Reply.requestTrailers] ∧
      invoked ((server refuseRequest).replies .new (trailedStream .request none [[1]] ⟨none⟩)) =
        [] ∧
      ¬ Covers .request [1]
        ((server refuseRequest).replies .new (closedStream .request none [[1]]))
        ((server refuseRequest).replies .new (trailedStream .request none [[1]] ⟨none⟩)) := by
  refine ⟨⟨_, rfl⟩, rfl, rfl, ?_⟩
  intro hcovers
  obtain ⟨ctx, hmem⟩ := hcovers.headerHook ⟨_, List.mem_cons_self⟩
  cases hmem

end Bypass

end ExtProc
