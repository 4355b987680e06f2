import ExtProc.Composition
import ExtProc.Exchange
import ExtProc.Forwarding
import ExtProc.Reading
import ExtProc.RequestMutations
import ExtProc.Verdicts

/-! Envoy and the server together, against the filters run on the whole messages. -/
namespace ExtProc

open Utf8 (Bytes)

variable {K : Crates} {p : FilterPipeline K} {s s' : StreamState K} {o : Outcome K}
  {ctx : HttpFilterContext K} {request : Request K} {resp : Response K} {side : Side}
  {h r : Option (List HeaderValue)} {hs rs : List HeaderValue} {B C D buf : Bytes}
  {ms ms' : List Message} {cs : List Bytes}

/-- A message as it is passed on: the path of a request, the text under each name, the body. -/
structure Passed (K : Crates) where
  path : Option String
  headers : K.HeaderName → Option String
  body : Bytes

/-- The text of each name the filters ask for. -/
def extraTexts (K : Crates) (ctx : HttpFilterContext K) : List (K.HeaderName × String) :=
  ctx.extraRequestHeaders.filterMap fun e => (K.parseName e.1).map fun n => (n, e.2)

/-- What the filters make of a request. -/
def filteredRequest (p : FilterPipeline K) (hs : List HeaderValue) (body : Bytes) : Passed K where
  path := some ((filterRequest p hs body).1.rewrittenPath.getD (pathText hs))
  headers := Patch.bind (extraTexts K (filterRequest p hs body).1) (upstreamMap K hs)
  body := (filterRequest p hs body).2

def responseTexts (ctx : HttpFilterContext K) : K.HeaderName → Option String :=
  (ctx.responseHeader.map fun resp => valueMap resp.headers).getD fun _ => none

/-- What the filters make of a response, behind a request they have seen. -/
def filteredResponse (p : FilterPipeline K) (left : HttpFilterContext K) (request : Request K)
    (rs : List HeaderValue) (body : Bytes) : Passed K where
  path := none
  headers := responseTexts (filterResponse p left request rs body).1
  body := (filterResponse p left request rs body).2

/-- What Envoy makes of a message when it gets a reply. -/
def Passed.mutate (message : Passed K) (reply : ProcessingResponse) : Passed K where
  path := (lastValue ":path" (reply.headerMutation.toList.flatMap HeaderMutation.setEntries)).or
    message.path
  headers := applyMutations K reply.headerMutation.toList message.headers
  body := forwardedBody message.body reply

/-- What Envoy makes of a message by the replies it got. -/
def Passed.mutateAll (message : Passed K) (os : List (Outcome K)) : Passed K :=
  (sent os).foldl Passed.mutate message

theorem mutateAll_append {message : Passed K} {os os' : List (Outcome K)} :
    message.mutateAll (os ++ os') = (message.mutateAll os).mutateAll os' := by
  rw [Passed.mutateAll, sent_append, List.foldl_append]
  rfl

/-- The messages that carry a body in chunks, or no body. -/
inductive Carries (side : Side) (headers : Option (List HeaderValue)) :
    Bytes → List Message → Prop
  | headersOnly : Carries side headers [] [headersMessage side ⟨headers, true⟩]
  | chunked {cs : List Bytes} (hbody : cs.flatten ≠ [])
      (hcap : cs.flatten.length ≤ maxBodyAccumulation) :
      Carries side headers cs.flatten (closedStream side headers cs)

/-- The replies can tell Envoy what the request hooks did. -/
structure ExpressibleRequest (p : FilterPipeline K) (hs : List HeaderValue) (C : Bytes) : Prop where
  names : ∀ e ∈ (filterRequest p hs C).1.extraRequestHeaders, (K.parseName e.1).isSome
  body : C ≠ [] → (filterRequest p hs C).2 ≠ []

/-- The replies can tell Envoy what the response hooks did. -/
structure ExpressibleResponse (p : FilterPipeline K) (left : HttpFilterContext K)
    (request : Request K) (rs : List HeaderValue) (D : Bytes) : Prop where
  upstream : PlainUpstream K rs
  headers : Plain K (filterHeaders p left request rs).headers
  response : ∀ resp, (filterResponse p left request rs D).1.responseHeader = some resp →
    Plain K resp.headers
  body : D ≠ [] → (filterResponse p left request rs D).2 ≠ []

section Mutations
variable {message : Passed K}

theorem mutate_requestReplies (hbuf : buf = [] → message.body = []) :
    (requestReplies ctx buf).foldl Passed.mutate message =
      { path := (lastValue ":path"
          ((collectRequestHeaderMutations ctx).toList.flatMap HeaderMutation.setEntries)).or
            message.path
        headers := applyMutations K (collectRequestHeaderMutations ctx).toList message.headers
        body := buf } := by
  cases buf with
  | nil =>
    obtain ⟨path, headers, body⟩ := message
    obtain rfl : body = [] := hbuf rfl
    rfl
  | cons x xs => rfl

theorem mutate_responseReplies {mutation : Option HeaderMutation}
    (hbuf : buf = [] → message.body = []) :
    (responseReplies mutation buf).foldl Passed.mutate message =
      { path := (lastValue ":path" (mutation.toList.flatMap HeaderMutation.setEntries)).or
          message.path
        headers := applyMutations K mutation.toList message.headers
        body := buf } := by
  cases buf with
  | nil =>
    obtain ⟨path, headers, body⟩ := message
    obtain rfl : body = [] := hbuf rfl
    rfl
  | cons x xs => rfl

theorem mutate_responseHeaders {mutation : Option HeaderMutation} :
    message.mutate (Reply.responseHeaders mutation) =
      { path := (lastValue ":path" (mutation.toList.flatMap HeaderMutation.setEntries)).or
          message.path
        headers := applyMutations K mutation.toList message.headers
        body := message.body } := rfl

theorem flatMap_collect : (collectRequestHeaderMutations ctx).toList.flatMap
    HeaderMutation.setEntries = extraEntries ctx ++ pathEntries ctx := by
  cases hm : collectRequestHeaderMutations ctx with
  | none =>
    obtain ⟨hextra, hpath⟩ := collect_eq_none_iff.mp hm
    rw [extraEntries, pathEntries, hextra, hpath]
    rfl
  | some m =>
    rw [← setEntries_of_collect hm]
    exact List.append_nil _

/-- The path a reply asks for is the rewritten one. -/
theorem lastValue_collect (hpseudo : PseudoIllegal K)
    (hnames : ∀ e ∈ ctx.extraRequestHeaders, (K.parseName e.1).isSome) :
    lastValue ":path" ((collectRequestHeaderMutations ctx).toList.flatMap
      HeaderMutation.setEntries) = ctx.rewrittenPath := by
  have hextra : lastValue ":path" (extraEntries ctx) = none := by
    refine lastValue_eq_none ?_
    intro hv hmem hkey
    obtain ⟨e, he, rfl⟩ := List.mem_map.mp hmem
    have hname := hnames e he
    have hkey' : e.1 = ":path" := hkey
    rw [hkey', hpseudo ":path" rfl] at hname
    cases hname
  rw [flatMap_collect, lastValue_append, hextra, Option.or_none]
  cases hpath : ctx.rewrittenPath with
  | none => simp [lastValue, pathEntries, hpath]
  | some path => simp [lastValue, pathEntries, hpath, setEntry, headerValueStr_mk]

theorem removeHeaders_of_collect {m : HeaderMutation}
    (hm : collectRequestHeaderMutations ctx = some m) : m.removeHeaders = [] := by
  rw [collectRequestHeaderMutations] at hm
  split at hm
  · cases hm
  · cases hm
    rfl

/-- The texts under the names of some entries. -/
theorem mutationPatch_set (m : HeaderMutation) : (mutationPatch K m).set =
    m.setEntries.filterMap fun hv => (K.parseName hv.key).map fun n => (n, headerValueStr hv) := by
  rw [HeaderMutation.setEntries, List.filterMap_filterMap]
  rfl

/-- The texts a reply sets are those the filters ask for; a path is under no name. -/
theorem applyMutations_collect (hpseudo : PseudoIllegal K) (f : K.HeaderName → Option String) :
    applyMutations K (collectRequestHeaderMutations ctx).toList f =
      Patch.bind (extraTexts K ctx) f := by
  cases hm : collectRequestHeaderMutations ctx with
  | none =>
    rw [extraTexts, (collect_eq_none_iff.mp hm).1]
    rfl
  | some m =>
    have hset : (mutationPatch K m).set = extraTexts K ctx := by
      have hpath : K.parseName ":path" = none := hpseudo ":path" rfl
      rw [mutationPatch_set, setEntries_of_collect hm, List.filterMap_append]
      simp [extraEntries, pathEntries, extraTexts, setEntry, headerValueStr_mk, hpath,
        List.filterMap_map]
    have hremove : (mutationPatch K m).remove = [] := by
      rw [mutationPatch, removeHeaders_of_collect hm]
      rfl
    change (mutationPatch K m).apply f = _
    rw [Patch.apply, hset, hremove]
    rfl

/-- A diff writes under names that parse. -/
theorem parseName_of_diff (hK : K.Lawful) {original : HashMap String String} {m : HeaderMutation}
    (hm : collectResponseHeaderMutationsDiff ctx original = some m) {hv : HeaderValue}
    (hmem : hv ∈ m.setEntries) : (K.parseName hv.key).isSome := by
  cases hresp : ctx.responseHeader with
  | none => simp [collectResponseHeaderMutationsDiff, hresp] at hm
  | some resp =>
    rw [diff_eq hresp] at hm
    split at hm
    · cases hm
    · cases hm
      obtain ⟨e, he, hheader⟩ := List.mem_filterMap.mp hmem
      obtain ⟨entry, -, rfl⟩ := List.mem_map.mp he
      cases hheader
      exact congrArg Option.isSome (hK.parseName_asStr entry.1)

/-- A diff names no path. -/
theorem lastValue_diff (hK : K.Lawful) {original : HashMap String String} :
    lastValue ":path" ((collectResponseHeaderMutationsDiff ctx original).toList.flatMap
      HeaderMutation.setEntries) = none := by
  refine lastValue_eq_none ?_
  intro hv hmem hkey
  obtain ⟨m, hm, hentry⟩ := List.mem_flatMap.mp hmem
  have hname := parseName_of_diff hK (Option.mem_toList.mp hm) hentry
  rw [hkey, hK.parseName_pseudo ":path" rfl] at hname
  cases hname

end Mutations

/-- The end of a request behind its headers, with or without a body. -/
theorem requestEnd_settled (p : FilterPipeline K) (h : Option (List HeaderValue)) (C : Bytes) :
    ∃ o s', requestEnd p h C = (o, s') ∧ o.verdict = requestVerdict p (h.getD []) C ∧
      RequestPhaseDone s' ∧ s'.request = some (envoyHeadersToRequest K (h.getD [])) ∧
      (o.verdict = none →
        o.replies = .ok (requestReplies (filterRequest p (h.getD []) C).1
          (filterRequest p (h.getD []) C).2) ∧
        s'.filterState = (filterRequest p (h.getD []) C).1.filterState) := by
  obtain ⟨o, s', hrun, hreq⟩ := runRequestPipeline_run p ((openedRequest K h).setBody .request C)
  have hopened : RequestPhaseDone ((openedRequest K h).setBody .request C) :=
    ⟨⟨rfl, rfl, rfl⟩, _, rfl⟩
  exact ⟨o, s', hrun, hreq.verdict rfl, hreq.requestPhaseDone hopened, hreq.frame.1,
    hreq.passed rfl⟩

theorem length_bodyMessages : (bodyMessages side cs).length = cs.length := by
  induction cs with
  | nil => rfl
  | cons c cs ih =>
    cases cs with
    | nil => rfl
    | cons d ds => exact congrArg (· + 1) ih

/-- The replies to a request: nothing that tells of a verdict, up to the message that ends it. -/
theorem request_run (hms : Carries .request h C ms) : ∃ init,
    (server p).replies .new ms = init ++ [(requestEnd p h C).1] ∧
      (server p).final .new ms = (requestEnd p h C).2 ∧ init.length + 1 = ms.length ∧
      (∀ o ∈ init, ∃ replies, o.replies = .ok replies) ∧ settled init = none ∧
      ∀ message : Passed K, Passed.mutateAll message init = message := by
  cases hms with
  | headersOnly =>
    have hstep : (server p).step .new (headersMessage .request ⟨h, true⟩) = requestEnd p h [] :=
      handle_requestHeaders _
    refine ⟨[], ?_, ?_, rfl, ?_, rfl, fun message => rfl⟩
    · rw [Machine.replies_singleton, hstep]
      rfl
    · rw [Machine.final_singleton, hstep]
    · intro o ho
      cases ho
  | @chunked cs hC hcap =>
    obtain ⟨hrun, hfinal⟩ := requestHalf_run (p := p) (h := h) hC hcap
    have hlength : 0 < cs.length := List.length_pos_iff.mpr (ne_nil_of_flatten hC)
    refine ⟨_ :: List.replicate (cs.length - 1) silent, hrun, hfinal, ?_, ?_, ?_, ?_⟩
    · rw [closedStream, List.length_cons, List.length_cons, length_bodyMessages,
        List.length_replicate]
      omega
    · intro o ho
      rcases List.mem_cons.mp ho with rfl | ho
      · exact ⟨_, rfl⟩
      · obtain rfl := List.eq_of_mem_replicate ho
        exact ⟨_, rfl⟩
    · exact settled_silent
    · intro message
      rw [Passed.mutateAll, sent_cons, sent_silent, List.append_nil]
      rfl

theorem request_settled (hms : Carries .request h C ms) :
    settled ((server p).replies .new ms) = requestVerdict p (h.getD []) C := by
  obtain ⟨init, hrun, -, -, -, hinit, -⟩ := request_run (p := p) hms
  obtain ⟨o, s', hend, hverdict, -⟩ := requestEnd_settled p h C
  rw [hrun, hend, settled_append, hinit, settled_singleton, hverdict]
  rfl

/-- A request that got no verdict went by, and left its filter state for the response. -/
structure RequestPassed (p : FilterPipeline K) (hs : List HeaderValue) (C : Bytes)
    (ms : List Message) : Prop where
  ok : ∀ o ∈ (server p).replies .new ms, (server p).fails o = false
  length : ((server p).replies .new ms).length = ms.length
  done : RequestPhaseDone ((server p).final .new ms)
  request : ((server p).final .new ms).request = some (envoyHeadersToRequest K hs)
  filterState : ((server p).final .new ms).filterState = (filterRequest p hs C).1.filterState

theorem requestPassed (hms : Carries .request h C ms)
    (hnone : requestVerdict p (h.getD []) C = none) : RequestPassed p (h.getD []) C ms := by
  obtain ⟨init, hrun, hfinal, hlength, hinit, -, -⟩ := request_run (p := p) hms
  obtain ⟨o, s', hend, hverdict, hdone, hrequest, hpassed⟩ := requestEnd_settled p h C
  obtain ⟨hreplies, hstate⟩ := hpassed (hverdict.trans hnone)
  rw [hend] at hrun hfinal
  refine ⟨?_, ?_, hfinal ▸ hdone, hfinal ▸ hrequest, hfinal ▸ hstate⟩
  · intro o' ho'
    rw [hrun, List.mem_append, List.mem_singleton] at ho'
    rcases ho' with ho' | rfl
    · obtain ⟨replies, hok⟩ := hinit o' ho'
      exact server_ok_of_replies hok
    · exact server_ok_of_replies hreplies
  · rw [hrun, List.length_append, List.length_singleton, hlength]

/-- The last reply to a request carries out what the filters asked for. -/
theorem mutate_filteredRequest (hpseudo : PseudoIllegal K) (hexp : ExpressibleRequest p hs C) :
    (requestReplies (filterRequest p hs C).1 (filterRequest p hs C).2).foldl Passed.mutate
      ⟨some (pathText hs), upstreamMap K hs, C⟩ = filteredRequest p hs C := by
  have hempty : (filterRequest p hs C).2 = [] → C = [] := by
    intro hleft
    by_contra hC
    exact hexp.body hC hleft
  rw [mutate_requestReplies hempty, lastValue_collect hpseudo hexp.names,
    applyMutations_collect hpseudo, Option.or_some]
  rfl

theorem request_filtered (hpseudo : PseudoIllegal K) (hms : Carries .request h C ms)
    (hnone : requestVerdict p (h.getD []) C = none)
    (hexp : ExpressibleRequest p (h.getD []) C) :
    Passed.mutateAll ⟨some (pathText (h.getD [])), upstreamMap K (h.getD []), C⟩
      ((server p).replies .new ms) = filteredRequest p (h.getD []) C := by
  obtain ⟨init, hrun, -, -, -, -, hinit⟩ := request_run (p := p) hms
  obtain ⟨o, s', hend, hverdict, -, -, hpassed⟩ := requestEnd_settled p h C
  have hsent := sent_of_answered (hpassed (hverdict.trans hnone)).1
  rw [hrun, hend, mutateAll_append, hinit, Passed.mutateAll, sent_cons, sent_nil, List.append_nil,
    hsent]
  exact mutate_filteredRequest hpseudo hexp

theorem responseCtx_eq_responsePhaseCtx {left : HttpFilterContext K}
    (hstate : s.filterState = left.filterState) :
    responseCtx s request resp = responsePhaseCtx left request resp := by
  have hindices : s.executedFilterIndices = left.executedFilterIndices :=
    congrArg FilterState.executedFilterIndices hstate
  have hbranch : s.branchIterations = left.branchIterations :=
    congrArg FilterState.branchIterations hstate
  have hmetadata : s.filterMetadata = left.filterMetadata :=
    congrArg FilterState.filterMetadata hstate
  rw [responsePhaseCtx, ← hindices, ← hbranch, ← hmetadata]
  rfl

section Response
variable {left : HttpFilterContext K}

/-- What the header hook leaves, as the server runs it. -/
theorem header_run (hK : K.Lawful) (hedit : p.EditsInPlace)
    (hstate : s.filterState = left.filterState) (hup : PlainUpstream K (r.getD []))
    (hheaders : Plain K (filterHeaders p left request (r.getD [])).headers) :
    headerCtx s request r =
        responsePhaseCtx left request (envoyHeadersToResponse K (r.getD [])) ∧
      applyMutations K (headerDiff p s request r).toList (upstreamMap K (r.getD [])) =
        valueMap (filterHeaders p left request (r.getD [])).headers := by
  have hctx : headerCtx s request r =
      responsePhaseCtx left request (envoyHeadersToResponse K (r.getD [])) :=
    responseCtx_eq_responsePhaseCtx hstate
  refine ⟨hctx, ?_⟩
  have hleft := header_left hedit s request r
  rw [← hup.valueMap_eq hK, headerDiff]
  rw [hctx] at hleft ⊢
  exact diff_apply hK hleft (hup.plain hK) hheaders

section Settled
variable (hq : s.request = some request) (hstate : s.filterState = left.filterState)
include hq hstate

/-- Response headers without a body: the header hook decides. -/
theorem headersOnly_run (hdone : RequestPhaseDone s) : ∃ o,
    (server p).replies s [headersMessage .response ⟨r, true⟩] = [o] ∧
      o.verdict = headersVerdict p left request (r.getD []) ∧
      (o.verdict = none → o = headerOutcome p s request r) := by
  obtain ⟨o, s', hstep, hresp⟩ := endedResponse_run p s r
  have hturn : (server p).step s (headersMessage .response ⟨r, true⟩) = (o, s') := hstep
  have hctx : headerCtx s request r =
      responsePhaseCtx left request (envoyHeadersToResponse K (r.getD [])) :=
    responseCtx_eq_responsePhaseCtx hstate
  have hverdict : o.verdict = resultVerdict (p.executeHttpResponse (headerCtx s request r)).result :=
    hresp.verdict_of_headers hq rfl hdone.responseFiltersExecuted hdone.responseBody
  refine ⟨o, ?_, ?_, ?_⟩
  · rw [Machine.replies_singleton, hturn]
  · rw [hverdict, hctx]
    rfl
  · intro hnone
    have hran : HeaderHook p (s.setResponse (envoyHeadersToResponse K (r.getD [])))
        (headerCtx s request r) _ _ :=
      .ran hdone.responseFiltersExecuted (resultVerdict_eq_none.mp (hverdict.symm.trans hnone))
    exact (hresp.empty_of hq rfl hran hdone.responseBody).1

/-- Response headers ahead of a body: the header hook decides first, by a status. -/
theorem head_run : ∃ o s', handle p s (headersMessage .response ⟨r, false⟩) = (o, s') ∧
    o.verdict = (headersVerdict p left request (r.getD [])).map Verdict.aheadOfBody ∧
      ((∃ st, o.replies = .error st) ∨
        o = headerOutcome p s request r ∧ s' = headerState p s request r) := by
  obtain ⟨o, s', hstep, hhead⟩ := openedResponse_run p s r
  have hctx : headerCtx s request r =
      responsePhaseCtx left request (envoyHeadersToResponse K (r.getD [])) :=
    responseCtx_eq_responsePhaseCtx hstate
  have hverdict : o.verdict = (resultVerdict
      (p.executeHttpResponse (headerCtx s request r)).result).map Verdict.aheadOfBody :=
    hhead.verdict hq rfl
  refine ⟨o, s', hstep, ?_, ?_⟩
  · rw [hverdict, hctx]
    rfl
  · cases hhead with
    | noRequest hq' => cases hq.symm.trans hq'
    | noResponse hq' hp' => cases hp'
    | failed | rejected => exact Or.inl ⟨_, rfl⟩
    | done hq' hp' hc =>
      obtain rfl := Option.some.inj (hq.symm.trans hq')
      obtain rfl := Option.some.inj hp'
      exact Or.inr ⟨rfl, rfl⟩

/-- The end of a response behind its headers. -/
theorem responseEnd_settled (D : Bytes) : ∃ o s',
    runHandler (runResponsePipeline p) ((headerState p s request r).setBody .response D) = (o, s') ∧
      o.verdict = bodyVerdict p .response
        (responsePhaseCtx left request (filterHeaders p left request (r.getD []))) D ∧
      (o.verdict = none → o.replies = .ok (responseReplies
        (collectResponseHeaderMutationsDiff (filterResponse p left request (r.getD []) D).1
          (captureOriginalHeaders (filterHeaders p left request (r.getD []))))
        (filterResponse p left request (r.getD []) D).2)) := by
  obtain ⟨o, s', hrun, hresp⟩ := runResponsePipeline_run p
    ((headerState p s request r).setBody .response D)
  have hctx : headerCtx s request r =
      responsePhaseCtx left request (envoyHeadersToResponse K (r.getD [])) :=
    responseCtx_eq_responsePhaseCtx hstate
  have hlent : (p.executeHttpResponse (headerCtx s request r)).lent =
      filterHeaders p left request (r.getD []) := by
    rw [hctx]
    rfl
  have hbodyCtx : bodyCtx p s request r =
      responsePhaseCtx left request (filterHeaders p left request (r.getD [])) := by
    rw [bodyCtx, hlent]
    exact responseCtx_eq_responsePhaseCtx hstate
  have hf : HeaderHook p ((headerState p s request r).setBody .response D)
      (bodyCtx p s request r) (bodyCtx p s request r) [] := .skipped rfl
  obtain ⟨hverdict, hpassed⟩ := hresp.verdict hq rfl hf
  rw [hbodyCtx] at hverdict hpassed
  rw [hlent] at hpassed
  exact ⟨o, s', hrun, hverdict, hpassed⟩

/-- A response ahead of its body that the header hook lets pass: silence, then the body hook. -/
theorem chunked_run (hdone : RequestPhaseDone s) (hD : cs.flatten ≠ [])
    (hcap : cs.flatten.length ≤ maxBodyAccumulation)
    (hnone : headersVerdict p left request (r.getD []) = none) :
    (server p).replies s (closedStream .response r cs) =
      headerOutcome p s request r :: (List.replicate (cs.length - 1) silent ++
        [(runHandler (runResponsePipeline p)
          ((headerState p s request r).setBody .response cs.flatten)).1]) := by
  obtain ⟨o, s', hstep, hverdict, hhead⟩ := head_run (p := p) (r := r) hq hstate
  rcases hhead with ⟨st, hst⟩ | ⟨rfl, rfl⟩
  · rw [Outcome.verdict, hst, hnone] at hverdict
    cases hverdict
  · exact (closed_run hstep rfl hdone.responseBody (ne_nil_of_flatten hD) hcap).1

/-- The verdict on a response is that of its hooks on the whole of it. -/
theorem response_settled (hdone : RequestPhaseDone s) (hms : Carries .response r D ms') :
    settled ((server p).replies s ms') = responseVerdict p left request (r.getD []) D := by
  cases hms with
  | headersOnly =>
    obtain ⟨o, hrun, hverdict, -⟩ := headersOnly_run (p := p) (r := r) hq hstate hdone
    rw [hrun, settled_singleton, hverdict]
    rfl
  | @chunked cs hD hcap =>
    obtain ⟨o, s', hstep, hverdict, hhead⟩ := head_run (p := p) (r := r) hq hstate
    cases hheaders : headersVerdict p left request (r.getD []) with
    | some v =>
      rw [hheaders] at hverdict
      rcases hhead with ⟨st, hst⟩ | ⟨rfl, rfl⟩
      · have hrun : (server p).replies s (closedStream .response r cs) = [o] :=
          replies_of_refused hstep hst
        rw [hrun, settled_singleton, hverdict, responseVerdict_of_ne_nil hD,
          hheaders]
        rfl
      · cases hverdict
    | none =>
      obtain ⟨last, s'', hend, hlast, -⟩ :=
        responseEnd_settled (p := p) (r := r) hq hstate cs.flatten
      rw [chunked_run hq hstate hdone hD hcap hheaders, hend, settled_cons_of_none rfl,
        settled_append, settled_silent, settled_singleton, responseVerdict_of_ne_nil hD,
          hheaders, hlast]
      rfl

end Settled

section Filtered
variable (hK : K.Lawful) (hedit : p.EditsInPlace) (hdone : RequestPhaseDone s)
  (hq : s.request = some request) (hstate : s.filterState = left.filterState)
include hK hedit hdone hq hstate

theorem headersOnly_filtered (hnone : responseVerdict p left request (r.getD []) [] = none)
    (hexp : ExpressibleResponse p left request (r.getD []) []) :
    Passed.mutateAll ⟨none, upstreamMap K (r.getD []), []⟩
        ((server p).replies s [headersMessage .response ⟨r, true⟩]) =
      filteredResponse p left request (r.getD []) [] := by
  obtain ⟨-, happly⟩ := header_run hK hedit hstate hexp.upstream hexp.headers
  obtain ⟨o, hrun, hverdict, hpassed⟩ := headersOnly_run (p := p) (r := r) hq hstate hdone
  have ho : o = headerOutcome p s request r := hpassed (hverdict.trans hnone)
  rw [hrun, ho, Passed.mutateAll, sent_cons, sent_nil, List.append_nil]
  change Passed.mutate _ (Reply.responseHeaders (headerDiff p s request r)) = _
  rw [mutate_responseHeaders, happly, headerDiff, lastValue_diff hK]
  rfl

theorem chunked_filtered (hD : cs.flatten ≠ []) (hcap : cs.flatten.length ≤ maxBodyAccumulation)
    (hnone : responseVerdict p left request (r.getD []) cs.flatten = none)
    (hexp : ExpressibleResponse p left request (r.getD []) cs.flatten) :
    Passed.mutateAll ⟨none, upstreamMap K (r.getD []), cs.flatten⟩
        ((server p).replies s (closedStream .response r cs)) =
      filteredResponse p left request (r.getD []) cs.flatten := by
  obtain ⟨-, happly⟩ := header_run hK hedit hstate hexp.upstream hexp.headers
  rw [responseVerdict_of_ne_nil hD, Option.or_eq_none_iff, Option.map_eq_none_iff] at hnone
  obtain ⟨hheaders, hbody⟩ := hnone
  obtain ⟨last, s', hend, hlast, hpassed⟩ :=
    responseEnd_settled (p := p) (r := r) hq hstate cs.flatten
  have hsent := sent_of_answered (hpassed (hlast.trans hbody))
  obtain ⟨resp, hresp⟩ : ∃ resp,
      (filterResponse p left request (r.getD []) cs.flatten).1.responseHeader = some resp := by
    rw [filterResponse, filterBody_of_ne_nil hD]
    exact Option.ne_none_iff_exists'.mp (hedit.responseBody _ _ _ (Option.some_ne_none _))
  have hsecond := diff_apply hK hresp hexp.headers (hexp.response resp hresp)
  rw [chunked_run hq hstate hdone hD hcap hheaders, hend, Passed.mutateAll, sent_cons, sent_append,
    sent_silent, sent_cons, sent_nil, List.append_nil, hsent]
  change (responseReplies _ _).foldl Passed.mutate
    (Passed.mutate _ (Reply.responseHeaders (headerDiff p s request r))) = _
  rw [mutate_responseHeaders, happly, headerDiff, lastValue_diff hK,
    mutate_responseReplies fun hnil => (hexp.body hD hnil).elim, lastValue_diff hK, hsecond,
    filteredResponse, responseTexts, hresp]
  rfl

theorem response_filtered (hms : Carries .response r D ms')
    (hnone : responseVerdict p left request (r.getD []) D = none)
    (hexp : ExpressibleResponse p left request (r.getD []) D) :
    Passed.mutateAll ⟨none, upstreamMap K (r.getD []), D⟩ ((server p).replies s ms') =
      filteredResponse p left request (r.getD []) D := by
  cases hms with
  | headersOnly => exact headersOnly_filtered hK hedit hdone hq hstate hnone hexp
  | chunked hD hcap => exact chunked_filtered hK hedit hdone hq hstate hD hcap hnone hexp

end Filtered

end Response

/-- The verdict of the hooks, one after the other on the whole messages. -/
def exchangeVerdict (p : FilterPipeline K) (hs : List HeaderValue) (C : Bytes)
    (rs : List HeaderValue) (D : Bytes) : Option Verdict :=
  (requestVerdict p hs C).or
    (responseVerdict p (filterRequest p hs C).1 (envoyHeadersToRequest K hs) rs D)

theorem settled_exchange (hreq : Carries .request h C ms) (hresp : Carries .response r D ms') :
    settled ((server p).replies .new (ms ++ ms')) =
      exchangeVerdict p (h.getD []) C (r.getD []) D := by
  have hrequest := request_settled (p := p) hreq
  rw [exchangeVerdict]
  cases hv : requestVerdict p (h.getD []) C with
  | some v =>
    -- The verdict stands, whatever Envoy sends behind it.
    have hbegins : (server p).replies .new ms <+: (server p).replies .new (ms ++ ms') :=
      Machine.replies_prefix
    exact settled_of_prefix hbegins (hrequest.trans hv)
  | none =>
    have hpassed := requestPassed hreq hv
    rw [Machine.replies_append hpassed.ok, settled_append, hrequest, hv]
    exact response_settled hpassed.request hpassed.filterState hpassed.done hresp

/-- Envoy with the server does what the hooks make of whole messages, whatever the chunks. The
first hook that does not continue settles an exchange, by the immediate response or the status it
stands for. A request that no hook stops reaches the upstream (path, text under each name, body) as
the request hooks make it, and a response that no hook stops reaches the client as the response
hooks make it, provided that the replies can tell what the hooks did. -/
theorem exchange_settled (hK : K.Lawful) (hreq : Carries .request h C ms)
    (hresp : Carries .response r D ms') :
    settled ((server p).replies .new (ms ++ ms')) =
        exchangeVerdict p (h.getD []) C (r.getD []) D ∧
      (requestVerdict p (h.getD []) C = none → ExpressibleRequest p (h.getD []) C →
        Passed.mutateAll ⟨some (pathText (h.getD [])), upstreamMap K (h.getD []), C⟩
            (((server p).replies .new (ms ++ ms')).take ms.length) =
          filteredRequest p (h.getD []) C) ∧
      (exchangeVerdict p (h.getD []) C (r.getD []) D = none → p.EditsInPlace →
        ExpressibleResponse p (filterRequest p (h.getD []) C).1
          (envoyHeadersToRequest K (h.getD [])) (r.getD []) D →
        Passed.mutateAll ⟨none, upstreamMap K (r.getD []), D⟩
            (((server p).replies .new (ms ++ ms')).drop ms.length) =
          filteredResponse p (filterRequest p (h.getD []) C).1
            (envoyHeadersToRequest K (h.getD [])) (r.getD []) D) := by
  refine ⟨settled_exchange hreq hresp, ?_, ?_⟩
  · intro hnone hexp
    have hpassed := requestPassed hreq hnone
    rw [Machine.replies_append hpassed.ok, ← hpassed.length, List.take_left]
    exact request_filtered hK.parseName_pseudo hreq hnone hexp
  · intro hnone hedit hexp
    obtain ⟨hrequest, hresponse⟩ := Option.or_eq_none_iff.mp hnone
    have hpassed := requestPassed hreq hrequest
    rw [Machine.replies_append hpassed.ok, ← hpassed.length, List.drop_left]
    exact response_filtered hK hedit hpassed.done hpassed.request hpassed.filterState hresp
      hresponse hexp

section Rewriting

/-- A pipeline that rewrites the path, adds a request header and tags the response twice. -/
def rewriting : FilterPipeline httpCrates :=
  { tagging with
    executeHttpRequest := fun ctx =>
      ⟨{ ctx with extraRequestHeaders := [("x-a", "1")], rewrittenPath := some "/new" },
        .ok .«continue»⟩ }

theorem rewriting_editsInPlace : rewriting.EditsInPlace where
  response _ _ := rfl
  responseBody _ _ _ _ := Option.some_ne_none _

theorem rewriting_expressibleRequest : ExpressibleRequest rewriting [] [1, 2] where
  names := by decide
  body _ := List.cons_ne_nil _ _

theorem rewriting_expressibleResponse : ExpressibleResponse rewriting
    (filterRequest rewriting [] [1, 2]).1 plainRequest upstreamHtml [3] where
  upstream := upstreamHtml_plain
  headers := ⟨by decide, by decide⟩
  response := by
    intro resp hresp
    obtain rfl := Option.some.inj hresp
    exact ⟨by decide, by decide⟩
  body _ := List.cons_ne_nil _ _

theorem rewriting_settled :
    settled ((server rewriting).replies .new (closedStream .request none [[1], [2]] ++
        closedStream .response (some upstreamHtml) [[3]])) = none ∧
      Passed.mutateAll ⟨some (pathText []), upstreamMap httpCrates [], [1, 2]⟩
          (((server rewriting).replies .new (closedStream .request none [[1], [2]] ++
            closedStream .response (some upstreamHtml) [[3]])).take 3) =
        filteredRequest rewriting [] [1, 2] ∧
      Passed.mutateAll ⟨none, upstreamMap httpCrates upstreamHtml, [3]⟩
          (((server rewriting).replies .new (closedStream .request none [[1], [2]] ++
            closedStream .response (some upstreamHtml) [[3]])).drop 3) =
        filteredResponse rewriting (filterRequest rewriting [] [1, 2]).1 plainRequest upstreamHtml
          [3] := by
  have hreq : Carries .request none [1, 2] (closedStream .request none [[1], [2]]) :=
    @Carries.chunked _ _ [[1], [2]] (List.cons_ne_nil _ _) (by decide)
  have hresp : Carries .response (some upstreamHtml) [3]
      (closedStream .response (some upstreamHtml) [[3]]) :=
    @Carries.chunked _ _ [[3]] (List.cons_ne_nil _ _) (by decide)
  have hsettled := exchange_settled (p := rewriting) httpCrates_lawful hreq hresp
  exact ⟨hsettled.1, hsettled.2.1 rfl rewriting_expressibleRequest,
    hsettled.2.2 rfl rewriting_editsInPlace rewriting_expressibleResponse⟩

end Rewriting

end ExtProc
