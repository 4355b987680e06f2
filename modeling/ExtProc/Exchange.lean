import ExtProc.Chunks
import ExtProc.Http

/-! A whole exchange with a body on both sides, however the bodies are cut. -/
namespace ExtProc

open Utf8 (Bytes)

variable {K : Crates} {p : FilterPipeline K} {s : StreamState K} {ctx : HttpFilterContext K}
  {request : Request K} {h r : Option (List HeaderValue)} {C D : Bytes} {cs ds : List Bytes}
  {a b c d : Outcome K}

def exchange (h : Option (List HeaderValue)) (cs : List Bytes) (r : Option (List HeaderValue))
    (ds : List Bytes) : List Message :=
  closedStream .request h cs ++ closedStream .response r ds

/-- The replies to the four messages that are not silent. -/
structure ExchangeReplies (p : FilterPipeline K) (C D : Bytes) (a b c d : Outcome K) : Prop where
  answered : ∀ o ∈ [a, b, c, d], ∃ reply, o.replies = .ok [reply]
  atRequestHeaders : a.calls = []
  atRequestBody : ∃ ctx, b.calls =
    [.executeHttpRequest ctx,
      .executeHttpRequestBody (p.left (.executeHttpRequest ctx)) (some C) true]
  atResponseHeaders : ∃ ctx, c.calls = [.executeHttpResponse ctx]
  atResponseBody : ∃ ctx, d.calls = [.executeHttpResponseBody ctx (some D) true]

/-- The state behind request headers that open a body. -/
def openedRequest (K : Crates) (h : Option (List HeaderValue)) : StreamState K :=
  StreamState.new.setRequest (envoyHeadersToRequest K (h.getD []))

def requestEnd (p : FilterPipeline K) (h : Option (List HeaderValue)) (C : Bytes) :
    Outcome K × StreamState K :=
  runHandler (runRequestPipeline p) ((openedRequest K h).setBody .request C)

/-- Response headers that open a body, on a stream in any state. -/
def responseHead (p : FilterPipeline K) (s : StreamState K) (r : Option (List HeaderValue)) :
    Outcome K × StreamState K :=
  runHandler (headerReply p) (s.setResponse (envoyHeadersToResponse K (r.getD [])))

def responseEnd (p : FilterPipeline K) (s : StreamState K) (D : Bytes) :
    Outcome K × StreamState K :=
  runHandler (runResponsePipeline p) (s.setBody .response D)

theorem requestReplies_singleton (ctx : HttpFilterContext K) (buf : Bytes) :
    ∃ reply, requestReplies ctx buf = [reply] := by
  cases buf <;> exact ⟨_, rfl⟩

theorem responseReplies_singleton (mutation : Option HeaderMutation) (buf : Bytes) :
    ∃ reply, responseReplies mutation buf = [reply] := by
  cases buf <;> exact ⟨_, rfl⟩

/-- The end of the request: both hooks, the second on the context the first left. -/
theorem requestEnd_spec (hc : p.Continues) (hC : C ≠ []) :
    (∃ reply, (requestEnd p h C).1.replies = .ok [reply]) ∧
      (∃ ctx, (requestEnd p h C).1.calls =
        [.executeHttpRequest ctx,
          .executeHttpRequestBody (p.left (.executeHttpRequest ctx)) (some C) true]) ∧
      (∃ request, (requestEnd p h C).2.request = some request) ∧
      (requestEnd p h C).2.responseBody = [] := by
  obtain ⟨o, s', hrun, hreq⟩ := runRequestPipeline_run p ((openedRequest K h).setBody .request C)
  have hend : requestEnd p h C = (o, s') := hrun
  obtain ⟨rfl, rfl⟩ := hreq.continued_of hc rfl hC
  rw [hend]
  obtain ⟨reply, hreply⟩ := requestReplies_singleton _ _
  exact ⟨⟨reply, congrArg Except.ok hreply⟩, ⟨_, rfl⟩, ⟨_, rfl⟩, rfl⟩

/-- Response headers ahead of the body: one hook, and the flag is set. -/
theorem responseHead_spec (hc : p.Continues) (hq : s.request = some request) :
    (∃ reply, (responseHead p s r).1.replies = .ok [reply]) ∧
      (responseHead p s r).1.calls = [.executeHttpResponse
        (responseCtx s request (envoyHeadersToResponse K (r.getD [])))] ∧
      (responseHead p s r).2.request = some request ∧
      (∃ resp, (responseHead p s r).2.response = some resp) ∧
      (responseHead p s r).2.responseBody = s.responseBody ∧
      (responseHead p s r).2.responseFiltersExecuted = true := by
  obtain ⟨o, s', hrun, hhead⟩ := headerReply_run p
    (s.setResponse (envoyHeadersToResponse K (r.getD [])))
  have hstep : responseHead p s r = (o, s') := hrun
  obtain ⟨rfl, rfl⟩ := hhead.continued_of hc hq rfl
  rw [hstep]
  exact ⟨⟨_, rfl⟩, rfl, hq, ⟨_, rfl⟩, rfl, rfl⟩

/-- The end of a response whose headers were answered: the body hook alone. -/
theorem responseEnd_spec {resp : Response K} (hc : p.Continues) (hq : s.request = some request)
    (hp : s.response = some resp) (hx : s.responseFiltersExecuted = true) (hD : D ≠ []) :
    (∃ reply, (responseEnd p s D).1.replies = .ok [reply]) ∧
      (responseEnd p s D).1.calls =
        [.executeHttpResponseBody (responseCtx s request resp) (some D) true] := by
  obtain ⟨o, s', hrun, hresp⟩ := runResponsePipeline_run p (s.setBody .response D)
  have hend : responseEnd p s D = (o, s') := hrun
  obtain ⟨rfl, rfl⟩ := hresp.continued_of hc hq hp (.skipped hx) hD
  rw [hend]
  obtain ⟨reply, hreply⟩ := responseReplies_singleton _ _
  exact ⟨⟨reply, congrArg Except.ok hreply⟩, rfl⟩

/-- Headers and a body on the request side, and the state they leave. -/
theorem requestHalf_run (hC : cs.flatten ≠ [])
    (hcap : cs.flatten.length ≤ maxBodyAccumulation) :
    (server p).replies .new (closedStream .request h cs) =
        ⟨.ok [Reply.requestHeaders none], []⟩ ::
          (List.replicate (cs.length - 1) silent ++ [(requestEnd p h cs.flatten).1]) ∧
      (server p).final .new (closedStream .request h cs) = (requestEnd p h cs.flatten).2 := by
  have hstep : handle p .new (headersMessage .request ⟨h, false⟩) =
      (⟨.ok [Reply.requestHeaders none], []⟩, openedRequest K h) := handle_requestHeaders _
  exact closed_run hstep rfl rfl (ne_nil_of_flatten hC) hcap

/-- Headers and a body on the response side. -/
theorem responseHalf_run (hc : p.Continues) (hq : s.request = some request)
    (hempty : s.responseBody = []) (hD : ds.flatten ≠ [])
    (hcap : ds.flatten.length ≤ maxBodyAccumulation) :
    (server p).replies s (closedStream .response r ds) =
      (responseHead p s r).1 ::
        (List.replicate (ds.length - 1) silent ++
          [(responseEnd p (responseHead p s r).2 ds.flatten).1]) := by
  have hstep : handle p s (headersMessage .response ⟨r, false⟩) = responseHead p s r :=
    handle_responseHeaders _
  obtain ⟨⟨reply, hreply⟩, -, -, -, hbody, -⟩ := responseHead_spec (r := r) hc hq
  have hbuf : (responseHead p s r).2.body .response = [] := hbody.trans hempty
  exact (closed_run hstep hreply hbuf (ne_nil_of_flatten hD) hcap).1

theorem exchange_replies (hc : p.Continues) (hC : cs.flatten ≠ []) (hD : ds.flatten ≠ [])
    (hCcap : cs.flatten.length ≤ maxBodyAccumulation)
    (hDcap : ds.flatten.length ≤ maxBodyAccumulation) :
    (server p).replies .new (exchange h cs r ds) =
      ⟨.ok [Reply.requestHeaders none], []⟩ ::
        (List.replicate (cs.length - 1) silent ++ [(requestEnd p h cs.flatten).1]) ++
        (responseHead p (requestEnd p h cs.flatten).2 r).1 ::
          (List.replicate (ds.length - 1) silent ++
            [(responseEnd p (responseHead p (requestEnd p h cs.flatten).2 r).2 ds.flatten).1]) := by
  obtain ⟨hreplies, hfinal⟩ := requestHalf_run (p := p) (h := h) hC hCcap
  obtain ⟨⟨reply, hreply⟩, -, ⟨request, hq⟩, hbody⟩ := requestEnd_spec (h := h) hc hC
  have hok : ∀ o ∈ (server p).replies .new (closedStream .request h cs),
      (server p).fails o = false := by
    intro o ho
    rw [hreplies, List.mem_cons, List.mem_append, List.mem_singleton] at ho
    rcases ho with rfl | ho | rfl
    · rfl
    · obtain rfl := List.eq_of_mem_replicate ho
      rfl
    · exact server_ok_of_replies hreply
  rw [exchange, Machine.replies_append hok, hreplies, hfinal,
    responseHalf_run hc hq hbody hD hDcap]

/-- However the two bodies are cut, the exchange is the one that carries them whole, with silence
in between. -/
theorem chunked_exchange (hc : p.Continues) (h r : Option (List HeaderValue))
    (hC : cs.flatten ≠ []) (hCcap : cs.flatten.length ≤ maxBodyAccumulation)
    (hD : ds.flatten ≠ []) (hDcap : ds.flatten.length ≤ maxBodyAccumulation) :
    ∃ a b c d, ExchangeReplies p cs.flatten ds.flatten a b c d ∧
      (server p).replies .new (exchange h cs r ds) =
        a :: (List.replicate (cs.length - 1) silent ++ [b]) ++
          c :: (List.replicate (ds.length - 1) silent ++ [d]) ∧
      (server p).replies .new (exchange h [cs.flatten] r [ds.flatten]) = [a, b, c, d] := by
  obtain ⟨hb, hbcalls, ⟨request, hq⟩, -⟩ := requestEnd_spec (h := h) hc hC
  obtain ⟨hcreply, hccalls, hq', ⟨resp, hp⟩, -, hx⟩ := responseHead_spec (r := r) hc hq
  obtain ⟨hd, hdcalls⟩ := responseEnd_spec hc hq' hp hx hD
  refine ⟨_, _, _, _, ?_, exchange_replies hc hC hD hCcap hDcap, ?_⟩
  · refine ⟨?_, rfl, hbcalls, ⟨_, hccalls⟩, ⟨_, hdcalls⟩⟩
    intro o ho
    simp only [List.mem_cons, List.not_mem_nil, or_false] at ho
    rcases ho with rfl | rfl | rfl | rfl
    · exact ⟨_, rfl⟩
    · exact hb
    · exact hcreply
    · exact hd
  · have hflat : ∀ b : Bytes, [b].flatten = b := fun b => by simp
    have hwhole : (server p).replies .new (exchange h [cs.flatten] r [ds.flatten]) = _ :=
      exchange_replies hc (by rwa [hflat]) (by rwa [hflat]) (by rwa [hflat]) (by rwa [hflat])
    rw [hflat, hflat] at hwhole
    exact hwhole

theorem chunked_exchange_cut :
    ∃ a b c d, ExchangeReplies passAll [1, 2, 3] [4, 5] a b c d ∧
      (server passAll).replies .new (exchange none [[1], [], [2, 3]] none [[4, 5], []]) =
        [a, silent, silent, b, c, silent, d] ∧
      (server passAll).replies .new (exchange none [[1, 2, 3]] none [[4, 5]]) = [a, b, c, d] :=
  have hC : ([[1], [], [2, 3]] : List Bytes).flatten ≠ [] := by simp
  have hD : ([[4, 5], []] : List Bytes).flatten ≠ [] := by simp
  chunked_exchange passAll_continues none none hC (by decide) hD (by decide)

end ExtProc
